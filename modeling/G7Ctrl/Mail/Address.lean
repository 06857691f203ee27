import G7Ctrl.Core.Memory
import G7Ctrl.Xstr.Copy
import G7Ctrl.Xstr.Trim

/-!
# Mail addresses (`_smtp_normalize_mailaddr`)

An address is split into a name in quotes and the part in angle brackets.  The buffers for both are
the caller's; a terminating NUL behind a buffer is a fault.

* `MailaddrBuffers` — the sizes of the buffers and what is said to be their size, with the byte
  below the buffer of the name, which is read when the name is empty.
* `smtpNormalizeMailaddr` — the function.
-/

namespace G7

/-- The buffers of a caller. -/
structure MailaddrBuffers where
  nameSize : ℕ
  maxnlen : ℕ
  addrSize : ℕ
  maxalen : ℕ
  below : Byte

/-- The name in quotes, or `none` when it does not fit or has one quote only. -/
def quoteName (buffers : MailaddrBuffers) (name : CStr) : Option CStr :=
  let first := byteAt name 0
  let last := if name = [] then buffers.below else byteAt name (name.length - 1)
  if first ≠ ch '"' ∧ last ≠ ch '"' then
    let tmp := str "\"" ++ name ++ str "\""
    if buffers.maxnlen < tmp.length + 1 then none else some (xstrlcpy tmp buffers.maxnlen)
  else if (first = ch '"' ∨ last = ch '"') ∧ ¬ (first = ch '"' ∧ last = ch '"') then none
  else some name

/-- `_smtp_normalize_mailaddr`: the name and the address, or `none` for the return value -1. -/
def smtpNormalizeMailaddr (buffers : MailaddrBuffers) (mailaddr : CStr) :
    Checked (Option (CStr × CStr)) :=
  if ch '<' ∉ mailaddr ∨ ch '>' ∉ mailaddr then
    let tmp := xstrtrim mailaddr
    if ch ' ' ∉ tmp ∧ ch '@' ∈ tmp then
      let tmp2 := str "<" ++ tmp ++ str ">"
      if buffers.maxalen < tmp2.length + 1 then return none
      else return some (snprintf buffers.maxnlen (str "\"" ++ tmp ++ str "\""),
        xstrlcpy tmp2 buffers.maxalen)
    else return none
  else
    let nlen := mailaddr.idxOf (ch '<')
    let left := mailaddr.drop nlen
    if buffers.maxnlen < nlen ∨ buffers.maxalen < left.length then return none
    else if buffers.nameSize ≤ nlen then .fault
    else
      match quoteName buffers (xstrtrim (mailaddr.take nlen)) with
      | none => return none
      | some name =>
          if buffers.addrSize ≤ left.length then .fault
          else return some (name, xstrtrim left)

end G7
