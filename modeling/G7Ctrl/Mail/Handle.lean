import G7Ctrl.Core.Bytes

/-!
# The handle of a mail (`mailclientlib.h`)

* `SmtpAttachment`, `SmtpHandle` — the structures, with the fields that make up a mail.
* `smtpAddPlain`, `smtpAddHtml` — adding the texts.
-/

namespace G7

/-- `MAX_ATTACHMENTS` -/
def maxAttachments : ℕ := 20

/-- `struct smtp_attachment` -/
structure SmtpAttachment where
  data : CStr
  contenttype : CStr
  contenttransferencoding : CStr
  contentdisposition : CStr
  filename : CStr
  name : CStr
  cid : Option CStr
  deriving DecidableEq

/-- `struct smtp_handle`, with the recipients and attachments that are in use.  A pointer that is
`NULL` is `none`; `to`, `cc` and `bcc` have `Rcpt` in their names here, and `from` is the
`sender`. -/
structure SmtpHandle where
  subject : Option CStr
  date : Option CStr
  toRcpt : List CStr
  toConcatenated : Option CStr
  ccRcpt : List CStr
  ccConcatenated : Option CStr
  bccRcpt : List CStr
  bccConcatenated : Option CStr
  sender : Option CStr
  returnpath : Option CStr
  mimeversion : CStr
  attachment : List SmtpAttachment
  html : Option CStr
  plain : Option CStr
  contenttype : Option CStr
  contenttransferencoding : Option CStr
  databuff : Option CStr
  deriving DecidableEq

/-- The handle of a new session. -/
def newHandle : SmtpHandle where
  subject := none
  date := none
  toRcpt := []
  toConcatenated := none
  ccRcpt := []
  ccConcatenated := none
  bccRcpt := []
  bccConcatenated := none
  sender := none
  returnpath := none
  mimeversion := str "1.0"
  attachment := []
  html := none
  plain := none
  contenttype := none
  contenttransferencoding := none
  databuff := none

/-- `smtp_add_plain` -/
def smtpAddPlain (handle : SmtpHandle) (buffer : CStr) : ℤ × SmtpHandle :=
  if handle.plain.isSome ∨ handle.html.isSome then (-1, handle)
  else (0, { handle with plain := some buffer })

/-- `smtp_add_html`, where an `altbuffer` that is missing or empty is not added. -/
def smtpAddHtml (handle : SmtpHandle) (buffer : Option CStr) (altbuffer : Option CStr) :
    ℤ × SmtpHandle :=
  if handle.plain.isSome ∨ handle.html.isSome then (-1, handle)
  else
    match buffer with
    | none => (-1, handle)
    | some [] => (-1, handle)
    | some text =>
        (0, { handle with html := some text, plain := altbuffer.filter (· ≠ []) })

end G7
