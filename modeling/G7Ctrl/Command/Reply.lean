import G7Ctrl.Xstr.Split
import G7Ctrl.Xstr.Number
import G7Ctrl.Xstr.Copy

/-!
# Device replies

A device answers a command with `$OK:<CMD>+[<tag>]=<fields>` or `$ERR:<CMD>+[<tag>]=<code>`, some
commands only with `$ERR:<digit>`, and `GETLOCATION` with a bare location record.  Two threads read
a reply: the tracker thread takes the tag from it (`replyTag`, the first half of
`handleCmdReplyPackage`), the client thread turns it into a text and a return code
(`handleDeviceReply`).

The scans for the command name and for the tag do not stop at the end of the string, so the
functions take the memory from the reply on, not only the string.
-/

namespace G7

/-- The scan for the end of a name: at most `max` characters, up to one that satisfies `stop`.  The
counter is tested after its last decrement, so a name of exactly `max - 1` characters is refused
while a scan that finds nothing is not. -/
def scanName (stop : Byte → Bool) (max : ℕ) (mem : List Byte) : Option ℕ :=
  let n := ((List.range max).takeWhile fun i => !stop (byteAt mem i)).length
  if n + 1 = max then none else some n

/-- The out parameters of `extract_devcmd_reply`; `flds.nf` is the length of `flds`. -/
structure DevcmdReply where
  isok : Bool
  cmd : CStr
  tag : CStr
  flds : List CStr
  deriving DecidableEq

/-- The optional tag: what follows a `'+'`. -/
def extractTag (mem : List Byte) : Option (CStr × List Byte) :=
  if byteAt mem 0 = ch '+' then
    (scanName (fun c => c = ch '=' ∨ c = cr ∨ c = lf) 7 (mem.drop 1)).map fun n =>
      (cstr ((mem.drop 1).take n), (mem.drop 1).drop n)
  else some ([], mem)

/-- The fields: what follows the `'='`, if the reply does not end here. -/
def extractFields (mem : List Byte) : Option (List CStr) :=
  if byteAt mem 0 = 0 ∨ byteAt mem 0 = cr ∨ byteAt mem 0 = lf then some []
  else xstrsplitfields (cstr (mem.drop 1)) (ch ',')

/-- `extract_devcmd_reply` after the `"$OK:"` or `"$ERR:"`.  (The test at its end that an error reply
has one field asks whether the pointer `isok` is `NULL`, and never refuses a reply.) -/
def extractDevcmd (isok : Bool) (mem : List Byte) : Option DevcmdReply := do
  let n ← scanName (fun c => c = ch '+' ∨ c = ch '=') 14 mem
  let cmd := cstr (mem.take n)
  if byteAt (mem.drop n) 0 = ch '+' ∧ cmd = [] then none
  let (tag, rest) ← extractTag (mem.drop n)
  let flds ← extractFields rest
  return ⟨isok, cmd, tag, flds⟩

/-- `extract_devcmd_reply`, or `none` for -1. -/
def extractDevcmdReply (raw : List Byte) : Option DevcmdReply :=
  if raw.take 4 = str "$OK:" then extractDevcmd true (raw.drop 4)
  else if raw.take 5 = str "$ERR:" then
    if isDigit (byteAt raw 5) then some ⟨false, [], [], [[byteAt raw 5]]⟩
    else extractDevcmd false (raw.drop 5)
  else none

/-- The first half of `handleCmdReplyPackage`: the tag to look for in the queue, or `none` when
the package is dropped.  A location record has no tag; its device id must be the one of the
connection. -/
def replyTag (cliDevid : ℕ) (buffer : List Byte) : Option CStr :=
  if byteAt buffer 0 ≠ ch '$' ∧ byteAt buffer 0 = ch '3' then
    let devidBuff := (buffer.take 11).takeWhile (· ≠ ch ',')
    if byteAt buffer devidBuff.length ≠ ch ',' then none
    else if toUnsigned32 (xatol devidBuff) ≠ cliDevid then none
    else some []
  else (extractDevcmdReply buffer).map (·.tag)

/-- `g7error_list` -/
def g7errorList : List (ℤ × String) :=
  [(0, "Unknown error"),
   (1, "Incorrect password"),
   (2, "Incorrect command parameters"),
   (3, "GSM SMS base phone number or GPRS Server IP adress not set"),
   (4, "Unable to detect GSM signal"),
   (5, "GSM failed"),
   (6, "Unable to establish the GPRS connection"),
   (8, "Voice busy tone"),
   (9, "Incorrect PIN code setting")]

/-- `device_strerr`: the text for an error code. -/
def deviceStrerr (errcode : ℤ) : CStr :=
  match g7errorList.lookup errcode with
  | some errmsg => str errmsg
  | none =>
      snprintf 64
        (str "Internal error: Device error code \"" ++ decInt errcode ++ str "\" unknown!")

/-- `DEVICE_REPLY_PROMPT` -/
def deviceReplyPrompt : CStr := str "[GM7] "

/-- `RESP_LEN` -/
def respLen : ℕ := 128

/-- The response of a normal reply: the fields put together again, as far as they fit. -/
def joinFields : List CStr → CStr
  | [] => xstrlcpy (str "OK") respLen
  | f :: fs =>
      fs.foldl (fun resp fld => xstrlcat (xstrlcat resp (ch ',' :: []) respLen) fld respLen)
        (xstrlcpy f respLen)

/-- `handle_device_reply`: the return code and the text written to the client.  `cmdargToText`
stands for the optional translation of the fields into plain text; `none` when the configuration
has it switched off. -/
def handleDeviceReply (cmdargToText : Option (CStr → List CStr → CStr × Bool)) (reply : List Byte)
    (tagbuff : CStr) : ℤ × CStr :=
  if byteAt reply 0 ≠ ch '$' ∧ byteAt reply 0 = ch '3' ∧ (cstr reply).length > 60 then
    (0, deviceReplyPrompt ++ cstr reply)
  else
    match extractDevcmdReply reply with
    | none => (-1, str "[ERR] Incomplete reply from device \"" ++ cstr reply ++ str "\"")
    | some r =>
        if r.tag ≠ tagbuff then
          (-1, str "[ERR] Unexpected reply from device \"" ++ cstr reply ++ str "\"")
        else if !r.isok then
          let errcode := xatoi (r.flds.headD [])
          (-(errcode + 1),
            str "[ERR] ( " ++ decInt errcode ++ str " : " ++ deviceStrerr errcode ++ str " )")
        else
          let text := deviceReplyPrompt ++ joinFields r.flds
          match cmdargToText with
          | none => (0, text)
          | some f =>
              if r.flds = [] then (0, text)
              else if (f r.cmd r.flds).2 then (0, text ++ (f r.cmd r.flds).1)
              else
                (0, text ++ (f r.cmd r.flds).1 ++ str "\n[ERR] Cannot parse device reply")

/-- What `send_rawcmd_reply_over_gprs` does with a reply it got from the queue: the reply must end
in `"\r\n"`, whose first byte is overwritten by the new end of the string.  `after` is what the
reply buffer holds behind the reply. -/
def finishReply (cmdargToText : Option (CStr → List CStr → CStr × Bool)) (reply : CStr)
    (after : List Byte) (tagbuff : CStr) : ℤ × CStr :=
  if crlf <:+ reply then
    handleDeviceReply cmdargToText
      (reply.take (reply.length - 2) ++ 0 :: lf :: 0 :: after) tagbuff
  else (-1, str "[ERR] Unknown device reply.")

/-- An accepted reply begins with `'$'`. -/
lemma byteAt_of_extractDevcmdReply {raw : List Byte} {r : DevcmdReply}
    (h : extractDevcmdReply raw = some r) : byteAt raw 0 = ch '$' := by
  have hhead : ∀ {n : ℕ} {s : CStr}, s.head? = some (ch '$') → raw.take (n + 1) = s →
      byteAt raw 0 = ch '$' := by
    rintro n s hs rfl
    cases raw with
    | nil => cases hs
    | cons c cs => exact Option.some.inj hs
  rw [extractDevcmdReply] at h
  split_ifs at h with hok herr
  · exact hhead (by decide) hok
  · exact hhead (by decide) herr
  · exact hhead (by decide) herr

example : extractDevcmdReply (str "$OK:GETSTATE+0042=1,0\r\n")
    = some ⟨true, str "GETSTATE", str "0042", [str "1", str "0\r\n"]⟩ := by
  decide

end G7
