import G7Ctrl.Mail.Address
import G7Ctrl.Mail.Handle
import G7Ctrl.Mail.QuotedPrintable

/-!
# Sending a mail (`smtp_sendmail`)

The texts and attachments of a handle are put together in its `databuff`; then the commands, the
header and the `databuff` are written to the server, which answers each command.

* `MailEnv`, `SmtpServer` — what the function asks of the system and of the server.
* `assembleMail` — the `databuff` and the fields that go with it.
* `smtpSendmail` — the function, with the writes it makes.
-/

namespace G7

/-- What comes from the system: the date, the name of the host as `gethostname` puts it in 128 bytes,
random numbers as `unsigned`, and the byte below the buffer of a name. -/
structure MailEnv where
  date : Option CStr
  hname : CStr
  hname_length : hname.length < 128
  hname_oneLine : cr ∉ hname
  rand : ℕ → UInt32
  below : Byte

/-- The server: how much of a text `send` takes, and the status of the reply to what was written, if
one comes that can be read. -/
structure SmtpServer where
  sent : List (List Byte) → CStr → ℕ
  status : List (List Byte) → Option ℕ

/-! ## The text of the mail -/

/-- `%x` -/
def hexLower (n : ℕ) : CStr := (Nat.toDigits 16 n).map ch

/-- A boundary, from the random numbers from `k` on. -/
def mailBoundary (env : MailEnv) (k : ℕ) : CStr :=
  snprintf 255 (str "_" ++ hexLower (env.rand k).toNat ++ hexLower (env.rand (k + 1)).toNat ++
    hexLower (env.rand (k + 2)).toNat ++ hexLower (env.rand (k + 3)).toNat ++ env.hname ++ str "_")

/-- The two alternatives of a mail in HTML. -/
def alternativeText (boundary plain html : CStr) : CStr :=
  str "--" ++ boundary ++ str "\r\n" ++
    str "Content-Transfer-Encoding: 8bit\r\n" ++
    str "Content-Type: text/plain; charset=\"UTF-8\"\r\n\r\n" ++
    plain ++ str "\r\n" ++
    str "--" ++ boundary ++ str "\r\n" ++
    str "Content-Transfer-Encoding: 8bit\r\n" ++
    str "Content-Type: text/html; charset=\"UTF-8\"\r\n\r\n" ++
    html ++ str "\r\n" ++
    str "--" ++ boundary ++ str "--\r\n"

/-- The text of a mail with attachments, before them. -/
def mixedPlainText (boundary plain : CStr) : CStr :=
  str "--" ++ boundary ++ str "\r\n" ++
    str "Content-Transfer-Encoding: 8bit\r\n" ++
    str "Content-Type: text/plain; charset=\"UTF-8\"\r\n\r\n" ++
    plain ++ str "\r\n"

/-- The same for a mail in HTML. -/
def mixedHtmlText (boundary boundary2 plain html : CStr) : CStr :=
  str "--" ++ boundary ++ str "\r\n" ++
    str "Content-Type: multipart/alternative; boundary=\"" ++ boundary2 ++ str "\"\r\n\r\n" ++
    alternativeText boundary2 plain html

/-- The text of an attachment. -/
def attachmentText (boundary : CStr) (attach : SmtpAttachment) : CStr :=
  str "--" ++ boundary ++ str "\r\n" ++
    str "Content-Transfer-Encoding: " ++ attach.contenttransferencoding ++ str "\r\n" ++
    str "Content-Type: " ++ attach.contenttype ++ str "\r\n" ++
    (match attach.cid with
      | some cid => str "Content-ID: <" ++ cid ++ str ">\r\n" ++ str "X-Attachment-Id: " ++ cid
      | none => str "Content-Disposition: " ++ attach.contentdisposition ++ str "; filename=\"" ++
          attach.filename ++ str "\"") ++ str "\r\n\r\n" ++
    attach.data ++ str "\r\n"

/-- The loop over the attachments, with the content type and the `databuff`. -/
def addAttachments (boundary : CStr) (databufflen : ℕ) :
    List SmtpAttachment → CStr → CStr → CStr × CStr
  | [], contenttype, databuff => (contenttype, databuff)
  | attach :: attachments, contenttype, databuff =>
      let contenttype := if attach.cid.isSome then
        snprintf 1024 (str "Content-Type: multipart/related; boundary=\"" ++ boundary ++ str "\"")
        else contenttype
      let tmpbuff := snprintf (attach.data.length + 1024) (attachmentText boundary attach)
      addAttachments boundary databufflen attachments contenttype
        (xstrlcat databuff tmpbuff databufflen)

/-- A mail with a plain text only. -/
def plainMail (handle : SmtpHandle) (plain : CStr) : SmtpHandle :=
  { handle with
    contenttransferencoding := some (str "Content-Transfer-Encoding: 8bit")
    contenttype := some (snprintf 128 (str "Content-Type: text/plain; charset=\"UTF-8\""))
    databuff := some (snprintf (plain.length + 512) plain) }

/-- A mail in HTML without attachments. -/
def htmlMail (env : MailEnv) (handle : SmtpHandle) (plain html : CStr) : SmtpHandle :=
  let boundary := mailBoundary env 0
  { handle with
    contenttype := some (snprintf 1024
      (str "Content-Type: multipart/alternative; boundary=\"" ++ boundary ++ str "\""))
    databuff := some (snprintf (html.length + plain.length + 512)
      (alternativeText boundary plain html)) }

/-- A mail with attachments. -/
def mixedMail (env : MailEnv) (handle : SmtpHandle) (plain : CStr) : SmtpHandle :=
  let boundary := mailBoundary env 0
  let contenttype := snprintf 1024
    (str "Content-Type: multipart/mixed; boundary=\"" ++ boundary ++ str "\"")
  let adbsize := (handle.attachment.map fun attach => attach.data.length + 256).sum
  let (databufflen, text) := match handle.html with
    | none => (plain.length + adbsize + 512, mixedPlainText boundary plain)
    | some html => (html.length + plain.length + adbsize + 512,
        mixedHtmlText boundary (mailBoundary env 4) plain html)
  let (contenttype, databuff) := addAttachments boundary databufflen handle.attachment contenttype
    (snprintf databufflen text)
  let boundbuff := snprintf 512 (str "--" ++ boundary ++ str "--\r\n")
  { handle with
    contenttype := some contenttype
    databuff := some (xstrlcat databuff boundbuff databufflen) }

/-- The part of `smtp_sendmail` that puts the mail together, or `none` where it returns -1.  The
length of a text that is `NULL` is a fault. -/
def assembleMail (env : MailEnv) (handle : SmtpHandle) : Checked (Option SmtpHandle) :=
  match handle.attachment, handle.html, handle.plain with
  | [], none, none => return none
  | [], none, some plain => return if plain = [] then none else some (plainMail handle plain)
  | [], some [], _ => return none
  | [], some (_ :: _), none => .fault
  | [], some html, some plain => return some (htmlMail env handle plain html)
  | _ :: _, _, none => return none
  | _ :: _, _, some plain => return some (mixedMail env handle plain)

/-! ## The writes -/

/-- `_sendchk`, with the writes so far. -/
def sendchk (server : SmtpServer) (writes : List (List Byte)) (cmd arg : CStr) (expected : ℕ) :
    Option (List (List Byte)) :=
  let tmpbuff := snprintf 255 (if arg = [] then cmd ++ str "\r\n" else cmd ++ arg ++ str "\r\n")
  if server.sent writes tmpbuff = tmpbuff.length ∧
      server.status (writes ++ [tmpbuff]) = some expected then some (writes ++ [tmpbuff])
  else none

/-- `_senddata`, with the writes so far. -/
def senddata (server : SmtpServer) (writes : List (List Byte)) (cmd arg : Option CStr) :
    Option (List (List Byte)) :=
  match cmd, arg with
  | some cmd, some arg =>
      let buff := cmd ++ arg ++ str "\r\n"
      if server.sent writes buff = buff.length then some (writes ++ [buff]) else none
  | _, _ => none

/-- The buffers of `smtp_sendmail` for addresses. -/
def sendmailBuffers (env : MailEnv) : MailaddrBuffers := ⟨256, 256, 256, 256, env.below⟩

/-- A command with an address. -/
def sendaddr (env : MailEnv) (server : SmtpServer) (writes : List (List Byte)) (cmd addr : CStr) :
    Checked (Option (List (List Byte))) := do
  let r ← smtpNormalizeMailaddr (sendmailBuffers env) addr
  match r with
  | none => return none
  | some (_, emailAddrpart) => return sendchk server writes cmd emailAddrpart 250

/-- The loops over the recipients. -/
def sendrcpts (env : MailEnv) (server : SmtpServer) :
    List CStr → List (List Byte) → Checked (Option (List (List Byte)))
  | [], writes => return some writes
  | rcpt :: rcpts, writes => do
      let r ← sendaddr env server writes (str "RCPT TO: ") rcpt
      match r with
      | none => return none
      | some writes => sendrcpts env server rcpts writes

/-- The line for the carbon copies, if there are any. -/
def sendCc (server : SmtpServer) (handle : SmtpHandle) (writes : List (List Byte)) :
    Option (List (List Byte)) :=
  match handle.ccConcatenated with
  | none => some writes
  | some [] => some writes
  | some cc => senddata server writes (some (str "Cc: ")) (some cc)

/-- The line for the encoding, if there is one. -/
def sendEncoding (server : SmtpServer) (handle : SmtpHandle) (writes : List (List Byte)) :
    Option (List (List Byte)) :=
  match handle.contenttransferencoding with
  | none => some writes
  | some encoding => senddata server writes (some encoding) (some [])

/-- The header and the `databuff`, behind the `DATA` command. -/
def sendMessage (server : SmtpServer) (handle : SmtpHandle) (writes : List (List Byte)) :
    Option (List (List Byte)) := do
  let writes ← senddata server writes (some (str "Date: ")) handle.date
  let writes ← senddata server writes (some (str "From: ")) handle.sender
  let writes ← senddata server writes (some (str "To: ")) handle.toConcatenated
  let writes ← sendCc server handle writes
  let writes ← senddata server writes (some (str "Subject: ")) handle.subject
  let writes ← senddata server writes (some (str "MIME-Version: ")) (some handle.mimeversion)
  let writes ← senddata server writes handle.contenttype (some [])
  let writes ← sendEncoding server handle writes
  let writes ← senddata server writes (some (str "\r\n")) (some [])
  senddata server writes handle.databuff (some [])

/-- The commands from `DATA` on, with the message between them. -/
def sendData (server : SmtpServer) (handle : SmtpHandle) (writes : List (List Byte)) :
    Option (List (List Byte)) := do
  let writes ← sendchk server writes (str "DATA") [] 354
  let writes ← sendMessage server handle writes
  let writes ← sendchk server writes (str ".") [] 250
  sendchk server writes (str "QUIT") [] 221

/-- `smtp_sendmail`: the handle and the writes, or `none` for the return value -1. -/
def smtpSendmail (env : MailEnv) (server : SmtpServer) (handle : SmtpHandle)
    (mailFrom subject : CStr) : Checked (Option (SmtpHandle × List (List Byte))) :=
  if handle.toConcatenated = none ∨ handle.toConcatenated = some [] then return none
  else if env.date = none then return none
  else do
    let (_, buff) ← qprintEncodeWord subject (List.replicate 1024 0) 1024
    let subject ← readStr buff
    let assembled ← assembleMail env
      { handle with
        sender := some mailFrom
        returnpath := some mailFrom
        date := env.date
        subject := some subject }
    match assembled with
    | none => return none
    | some handle => do
        let writes ← sendaddr env server [] (str "MAIL FROM: ") mailFrom
        match writes with
        | none => return none
        | some writes => do
            let writes ← sendrcpts env server (handle.toRcpt ++ handle.ccRcpt ++ handle.bccRcpt)
              writes
            match writes with
            | none => return none
            | some writes =>
                return (sendData server handle writes).map fun writes => (handle, writes)

end G7
