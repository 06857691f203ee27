import G7Ctrl.Mail.Calls

/-!
# The parts of a mail

`smtp_sendmail` puts the texts and the attachments of a handle together in a `databuff` whose size
is that of the texts and a fixed allowance for each part.  What does not fit is left out.

* `sendmailToData` — `smtp_sendmail` up to the `DATA` command, and **`smtpSendmail_eq`**.
* `mailMessage` — the complete message.
* `KeepsParts` — a mail is built inside the handle, and has all its parts when it gets to `DATA`.
* `PartsFit` — its attachments have places, its headers and boundaries have room in the allowances,
  and a text in HTML has an alternative if there are no attachments.
* **`keepsParts_iff`** — the parts are kept exactly when they fit.
-/

namespace G7

/-! ## Up to the `DATA` command -/

/-- The beginning of `smtp_sendmail`, before the texts are looked at; `none` where it returns -1. -/
def prepareMail (env : MailEnv) (handle : SmtpHandle) (mailFrom subject : CStr) :
    Checked (Option SmtpHandle) :=
  if handle.toConcatenated = none ∨ handle.toConcatenated = some [] then return none
  else if env.date = none then return none
  else do
    let (_, buff) ← qprintEncodeWord subject (List.replicate 1024 0) 1024
    let subject ← readStr buff
    return some { handle with
      sender := some mailFrom
      returnpath := some mailFrom
      date := env.date
      subject := some subject }

/-- The commands before `DATA`. -/
def announceMail (env : MailEnv) (server : SmtpServer) (handle : SmtpHandle) (mailFrom : CStr) :
    Checked (Option (List (List Byte))) := do
  let writes ← sendaddr env server [] (str "MAIL FROM: ") mailFrom
  match writes with
  | none => return none
  | some writes =>
      sendrcpts env server (handle.toRcpt ++ handle.ccRcpt ++ handle.bccRcpt) writes

/-- `smtp_sendmail` up to the `DATA` command: the handle and the writes, or `none` where it returns
-1 before. -/
def sendmailToData (env : MailEnv) (server : SmtpServer) (handle : SmtpHandle)
    (mailFrom subject : CStr) : Checked (Option (SmtpHandle × List (List Byte))) := do
  let prepared ← prepareMail env handle mailFrom subject
  match prepared with
  | none => return none
  | some handle => do
      let assembled ← assembleMail env handle
      match assembled with
      | none => return none
      | some handle => do
          let writes ← announceMail env server handle mailFrom
          return writes.map fun writes => (handle, writes)

/-- **`smtp_sendmail`** goes on with the `DATA` command, or returns -1. -/
theorem smtpSendmail_eq (env : MailEnv) (server : SmtpServer) (handle : SmtpHandle)
    (mailFrom subject : CStr) :
    smtpSendmail env server handle mailFrom subject =
      sendmailToData env server handle mailFrom subject >>= fun reached =>
        .done (reached.bind fun r => (sendData server r.1 r.2).map fun writes => (r.1, writes)) := by
  rw [smtpSendmail, sendmailToData, prepareMail]
  split_ifs with hto hdate
  · rfl
  · rfl
  cases qprintEncodeWord subject (List.replicate 1024 0) 1024 with
  | fault => rfl
  | timeout => rfl
  | done encoded =>
      simp only [Checked.done_bind]
      cases readStr encoded.2 with
      | fault => rfl
      | timeout => rfl
      | done text =>
          simp only [Checked.done_bind, Checked.pure_eq]
          generalize assembleMail env _ = assembled
          rcases assembled with (_ | mail) | _ | _
          · rfl
          · simp only [Checked.done_bind, announceMail]
            generalize sendaddr env server [] (str "MAIL FROM: ") mailFrom = sender
            rcases sender with (_ | writes) | _ | _
            · rfl
            · simp only [Checked.done_bind]
              generalize sendrcpts env server _ writes = sent
              rcases sent with (_ | writes) | _ | _
              · rfl
              · rfl
              · rfl
              · rfl
            · rfl
            · rfl
          · rfl
          · rfl

/-! ## The message -/

/-- The line behind the last part. -/
def closingLine (boundary : CStr) : CStr := str "--" ++ boundary ++ str "--\r\n"

/-- The complete message of the texts and attachments. -/
def mailMessage (env : MailEnv) (html plain : Option CStr) (attachments : List SmtpAttachment) :
    CStr :=
  match attachments, html with
  | [], none => plain.getD []
  | [], some html => alternativeText (mailBoundary env 0) (plain.getD []) html
  | _ :: _, none => mixedPlainText (mailBoundary env 0) (plain.getD []) ++
      (attachments.flatMap (attachmentText (mailBoundary env 0)) ++
        closingLine (mailBoundary env 0))
  | _ :: _, some html =>
      mixedHtmlText (mailBoundary env 0) (mailBoundary env 4) (plain.getD []) html ++
        (attachments.flatMap (attachmentText (mailBoundary env 0)) ++
          closingLine (mailBoundary env 0))

/-- The attachment without its data. -/
def SmtpAttachment.bare (attach : SmtpAttachment) : SmtpAttachment := { attach with data := [] }

/-- The headers and boundaries, which are the message without its texts, have room in the
allowances for all parts, and those of an attachment in the one for a part. -/
structure RoomForHeaders (env : MailEnv) (html : Option CStr) (attachments : List SmtpAttachment) :
    Prop where
  whole : (mailMessage env (html.map fun _ => []) none
    (attachments.map SmtpAttachment.bare)).length < 256 * attachments.length + 512
  each : ∀ attach ∈ attachments,
    (attachmentText (mailBoundary env 0) attach.bare).length < 1024

lemma length_alternativeText (boundary plain html : CStr) :
    (alternativeText boundary plain html).length =
      html.length + plain.length + (alternativeText boundary [] []).length := by
  simp only [alternativeText, List.length_append, List.length_nil]
  omega

lemma length_mixedPlainText (boundary plain : CStr) :
    (mixedPlainText boundary plain).length =
      plain.length + (mixedPlainText boundary []).length := by
  simp only [mixedPlainText, List.length_append, List.length_nil]
  omega

lemma length_mixedHtmlText (boundary boundary2 plain html : CStr) :
    (mixedHtmlText boundary boundary2 plain html).length =
      html.length + plain.length + (mixedHtmlText boundary boundary2 [] []).length := by
  simp only [mixedHtmlText, List.length_append]
  rw [length_alternativeText]
  omega

lemma length_attachmentText (boundary : CStr) (attach : SmtpAttachment) :
    (attachmentText boundary attach).length =
      attach.data.length + (attachmentText boundary attach.bare).length := by
  simp only [attachmentText, SmtpAttachment.bare, List.length_append, List.length_nil]
  omega

/-- The size of the data and what it is estimated at. -/
lemma length_attachmentTexts (boundary : CStr) (attachments : List SmtpAttachment) :
    (attachments.flatMap (attachmentText boundary)).length + 256 * attachments.length =
      (attachments.map fun attach => attach.data.length + 256).sum +
        ((attachments.map SmtpAttachment.bare).flatMap (attachmentText boundary)).length := by
  induction attachments with
  | nil => rfl
  | cons attach attachments ih =>
      simp only [List.flatMap_cons, List.map_cons, List.sum_cons, List.length_append,
        List.length_cons]
      rw [length_attachmentText]
      omega

/-- The loop over the attachments appends their texts. -/
lemma addAttachments_databuff (boundary : CStr) (databufflen : ℕ)
    (attachments : List SmtpAttachment) (contenttype databuff : CStr) :
    (addAttachments boundary databufflen attachments contenttype databuff).2 =
      appendAll databufflen databuff (attachments.map fun attach =>
        snprintf (attach.data.length + 1024) (attachmentText boundary attach)) := by
  induction attachments generalizing contenttype databuff with
  | nil => rfl
  | cons attach attachments ih =>
      rw [addAttachments, ih]
      rfl

/-- A text with attachments behind it is whole exactly when there is room. -/
lemma appendAttachments_eq_iff (env : MailEnv) (attachments : List SmtpAttachment) {text : CStr}
    {size : ℕ} (hsize : 0 < size) (contenttype : CStr) :
    xstrlcat (addAttachments (mailBoundary env 0) size attachments contenttype
        (snprintf size text)).2 (snprintf 512 (closingLine (mailBoundary env 0))) size =
      text ++ (attachments.flatMap (attachmentText (mailBoundary env 0)) ++
        closingLine (mailBoundary env 0)) ↔
    (∀ attach ∈ attachments, (attachmentText (mailBoundary env 0) attach.bare).length < 1024) ∧
      (text ++ (attachments.flatMap (attachmentText (mailBoundary env 0)) ++
        closingLine (mailBoundary env 0))).length < size := by
  have hboundary := length_mailBoundary env 0
  have hclosing : (closingLine (mailBoundary env 0)).length < 512 := by
    have hfront : (str "--").length = 2 := by decide
    have hend : (str "--\r\n").length = 4 := by decide
    simp only [closingLine, List.length_append, hfront, hend]
    omega
  let pieces : List (ℕ × CStr) := attachments.map (fun attach => (attach.data.length + 1024,
    attachmentText (mailBoundary env 0) attach)) ++ [(512, closingLine (mailBoundary env 0))]
  have hpieces {P : ℕ × CStr → Prop} : (∀ t ∈ pieces, P t) ↔
      (∀ attach ∈ attachments, P (attach.data.length + 1024,
        attachmentText (mailBoundary env 0) attach)) ∧ P (512, closingLine (mailBoundary env 0)) := by
    rw [List.forall_mem_append, List.forall_mem_map, List.forall_mem_singleton]
  have hflat : (pieces.map Prod.snd).flatten =
      attachments.flatMap (attachmentText (mailBoundary env 0)) ++
        closingLine (mailBoundary env 0) := by
    simp [pieces, List.flatMap, Function.comp_def]
  have hbuffer : appendAll size (snprintf size text) (pieces.map fun t => snprintf t.1 t.2) =
      xstrlcat (addAttachments (mailBoundary env 0) size attachments contenttype
        (snprintf size text)).2 (snprintf 512 (closingLine (mailBoundary env 0))) size := by
    rw [addAttachments_databuff, appendAll, appendAll, List.map_append, List.map_map,
      List.foldl_append]
    rfl
  have hpos : ∀ t ∈ pieces, 0 < t.1 := hpieces.mpr ⟨fun _ _ => Nat.succ_pos _, Nat.succ_pos _⟩
  rw [← hbuffer, ← hflat, appendAll_snprintf_eq_iff hsize text pieces hpos, hpieces]
  refine and_congr_left fun _ => ?_
  rw [and_iff_left hclosing]
  refine forall₂_congr fun attach _ => ?_
  rw [length_attachmentText]
  omega

/-- With attachments there must be a plain text. -/
lemma assembleMail_mixed {env : MailEnv} {mail mail' : SmtpHandle}
    (h : assembleMail env mail = .done (some mail')) (hattach : mail.attachment ≠ []) :
    ∃ plain, mail.plain = some plain ∧ mail' = mixedMail env mail plain := by
  obtain ⟨attach, attachments, hcons⟩ := List.exists_cons_of_ne_nil hattach
  rw [assembleMail, hcons] at h
  cases hplain : mail.plain with
  | none =>
      rw [hplain] at h
      cases h
  | some plain =>
      rw [hplain] at h
      exact ⟨plain, rfl, (Option.some.inj (Checked.done.inj h)).symm⟩

lemma mailMessage_mixed (env : MailEnv) (html plain : Option CStr)
    {attachments : List SmtpAttachment} (h : attachments ≠ []) :
    mailMessage env html plain attachments =
      (match html with
        | none => mixedPlainText (mailBoundary env 0) (plain.getD [])
        | some html =>
            mixedHtmlText (mailBoundary env 0) (mailBoundary env 4) (plain.getD []) html) ++
      (attachments.flatMap (attachmentText (mailBoundary env 0)) ++
        closingLine (mailBoundary env 0)) := by
  obtain ⟨attach, attachments, rfl⟩ := List.exists_cons_of_ne_nil h
  cases html <;> rfl

/-- A mail with attachments. -/
lemma mixedMail_databuff_iff (env : MailEnv) (mail : SmtpHandle) (plain : CStr)
    (hattach : mail.attachment ≠ []) :
    (mixedMail env mail plain).databuff
        = some (mailMessage env mail.html (some plain) mail.attachment) ↔
      RoomForHeaders env mail.html mail.attachment := by
  have hbare : mail.attachment.map SmtpAttachment.bare ≠ [] := by simpa using hattach
  have hdata := length_attachmentTexts (mailBoundary env 0) mail.attachment
  have hroom : RoomForHeaders env mail.html mail.attachment ↔
      (∀ attach ∈ mail.attachment,
        (attachmentText (mailBoundary env 0) attach.bare).length < 1024) ∧
      (mailMessage env (mail.html.map fun _ => []) none
        (mail.attachment.map SmtpAttachment.bare)).length < 256 * mail.attachment.length + 512 :=
    ⟨fun h => ⟨h.each, h.whole⟩, fun h => ⟨h.2, h.1⟩⟩
  rw [hroom, mailMessage_mixed env _ _ hattach, mailMessage_mixed env _ _ hbare, mixedMail,
    Option.some_inj]
  cases mail.html with
  | none =>
      refine (appendAttachments_eq_iff env mail.attachment (Nat.succ_pos _) _).trans ?_
      refine and_congr_right fun _ => ?_
      simp only [List.length_append, Option.getD_none, Option.map_none]
      rw [length_mixedPlainText]
      omega
  | some html =>
      refine (appendAttachments_eq_iff env mail.attachment (Nat.succ_pos _) _).trans ?_
      refine and_congr_right fun _ => ?_
      simp only [List.length_append, Option.getD_none, Option.map_some]
      rw [length_mixedHtmlText]
      omega

/-- **What is put together** is the complete message exactly when there is room for its headers. -/
theorem assembleMail_databuff_iff {env : MailEnv} {mail mail' : SmtpHandle}
    (h : assembleMail env mail = .done (some mail')) :
    mail'.databuff = some (mailMessage env mail.html mail.plain mail.attachment) ↔
      RoomForHeaders env mail.html mail.attachment := by
  by_cases hattach : mail.attachment = []
  · obtain ⟨plain, hhtml, hplain, rfl⟩ | ⟨plain, html, hhtml, hplain, rfl⟩ :=
      assembleMail_some h hattach
    · rw [hhtml, hplain, hattach]
      refine iff_of_true (congrArg some (snprintf_of_lt (by omega))) ⟨?_, nofun⟩
      exact Nat.succ_pos _
    · rw [hhtml, hplain, hattach]
      have hlen := length_alternativeText (mailBoundary env 0) plain html
      have hroom : RoomForHeaders env (some html) [] ↔
          (alternativeText (mailBoundary env 0) [] []).length < 512 :=
        ⟨fun h => h.whole, fun h => ⟨h, nofun⟩⟩
      rw [hroom, htmlMail, Option.some_inj]
      refine snprintf_eq_self_iff.trans ?_
      omega
  · obtain ⟨plain, hplain, rfl⟩ := assembleMail_mixed h hattach
    rw [hplain]
    exact mixedMail_databuff_iff env mail plain hattach

/-! ## The mail that is built -/

/-- The mail has a recipient and a date. -/
def Addressed (env : MailEnv) (handle : SmtpHandle) : Prop :=
  ¬ (handle.toConcatenated = none ∨ handle.toConcatenated = some []) ∧ env.date ≠ none

/-- It has, and its recipients can be named to the server. -/
def Deliverable (env : MailEnv) (handle : SmtpHandle) : Prop :=
  Addressed env handle ∧ ∀ rcpt ∈ handle.toRcpt ++ handle.ccRcpt ++ handle.bccRcpt,
    ∃ parts, smtpNormalizeMailaddr (sendmailBuffers env) rcpt = .done (some parts)

/-- Whatever the server, the sender and the subject are: no text is looked for where there is none,
and the mail has the message in its `databuff` when it gets to the `DATA` command; when it does not,
`smtp_sendmail` returns -1. -/
structure SendsParts (env : MailEnv) (handle : SmtpHandle) (message : CStr) : Prop where
  noNull : ∀ mailFrom subject mail,
    prepareMail env handle mailFrom subject = .done (some mail) → assembleMail env mail ≠ .fault
  complete : ∀ server mailFrom subject mail writes,
    sendmailToData env server handle mailFrom subject = .done (some (mail, writes)) →
      mail.databuff = some message
  otherwise : ∀ server mailFrom subject,
    sendmailToData env server handle mailFrom subject = .done none →
      smtpSendmail env server handle mailFrom subject = .done none

/-- **No part is lost**: the calls store inside the handle, and the mail that is sent is that of
the texts and attachments they added. -/
def KeepsParts (env : MailEnv) (calls : List MailCall) : Prop :=
  ∃ handle, buildMail calls newHandle = .done handle ∧
    SendsParts env handle
      (mailMessage env (textsOf calls).1 (textsOf calls).2 (attachmentsOf calls))

/-- There are places for the attachments; a mail to somebody that has a text in HTML and no
attachments has a plain text as well; and one with a plain text that gets to `DATA` has room for its
headers. -/
structure PartsFit (env : MailEnv) (calls : List MailCall) : Prop where
  places : (attachmentsOf calls).length ≤ maxAttachments
  alternative : ∀ handle, buildMail calls newHandle = .done handle → Addressed env handle →
    attachmentsOf calls = [] → (textsOf calls).1 ≠ none → (textsOf calls).2 ≠ none
  room : ∀ handle, buildMail calls newHandle = .done handle → Deliverable env handle →
    (textsOf calls).2 ≠ none → RoomForHeaders env (textsOf calls).1 (attachmentsOf calls)

section

variable {env : MailEnv} {handle mail : SmtpHandle} {mailFrom subject : CStr}

/-- What is prepared has the recipients, the texts and the attachments of the handle. -/
lemma prepareMail_some (h : prepareMail env handle mailFrom subject = .done (some mail)) :
    Addressed env handle ∧
      mail.toRcpt ++ mail.ccRcpt ++ mail.bccRcpt
        = handle.toRcpt ++ handle.ccRcpt ++ handle.bccRcpt ∧
      mail.html = handle.html ∧ mail.plain = handle.plain ∧
        mail.attachment = handle.attachment := by
  rw [prepareMail] at h
  split_ifs at h with hto hdate
  · cases h
  · cases h
  obtain ⟨encoded, -, h⟩ := Checked.bind_eq_done.mp h
  obtain ⟨text, -, h⟩ := Checked.bind_eq_done.mp h
  obtain rfl := Option.some.inj (Checked.done.inj h)
  exact ⟨⟨hto, hdate⟩, rfl, rfl, rfl, rfl⟩

/-- A mail without subject can be prepared. -/
lemma prepareMail_of_addressed (h : Addressed env handle) (mailFrom : CStr) :
    ∃ mail, prepareMail env handle mailFrom [] = .done (some mail) := by
  have hword : (qprintEncodeWord [] (List.replicate 1024 0) 1024 >>= fun r => readStr r.2)
      = .done [] := by decide +kernel
  obtain ⟨encoded, hencode, hread⟩ := Checked.bind_eq_done.mp hword
  rw [prepareMail, if_neg h.1, if_neg h.2, hencode, Checked.done_bind]
  exact ⟨_, congrArg (· >>= _) hread⟩

/-- A command that is neither `DATA` nor `QUIT` is accepted by a willing server. -/
lemma willing_sendchk {c : Byte} (hD : c ≠ ch 'D') (hQ : c ≠ ch 'Q') (writes : List (List Byte))
    (cmd arg : CStr) : ∃ writes', sendchk willingServer writes (c :: cmd) arg 250 = some writes' := by
  have htext : ∃ text,
      snprintf 255 (if arg = [] then c :: cmd ++ str "\r\n" else c :: cmd ++ arg ++ str "\r\n")
        = c :: text := by
    split_ifs
    · exact ⟨_, rfl⟩
    · exact ⟨_, rfl⟩
  obtain ⟨text, htext⟩ := htext
  have hdata : c :: text ≠ str "DATA\r\n" := fun h => hD (List.cons.inj h).1
  have hquit : c :: text ≠ str "QUIT\r\n" := fun h => hQ (List.cons.inj h).1
  refine ⟨writes ++ [c :: text], ?_⟩
  rw [sendchk, htext]
  simp [willingServer, hdata, hquit]

/-- A command with an address that can be taken apart. -/
lemma willing_sendaddr {c : Byte} (hD : c ≠ ch 'D') (hQ : c ≠ ch 'Q') (writes : List (List Byte))
    (cmd : CStr) {addr : CStr} (h : ∃ parts,
      smtpNormalizeMailaddr (sendmailBuffers env) addr = .done (some parts)) :
    ∃ writes', sendaddr env willingServer writes (c :: cmd) addr = .done (some writes') := by
  obtain ⟨parts, hparts⟩ := h
  obtain ⟨writes', hsent⟩ := willing_sendchk hD hQ writes cmd parts.2
  refine ⟨writes', ?_⟩
  rw [sendaddr, hparts, Checked.done_bind]
  exact congrArg Checked.done hsent

lemma willing_sendrcpts {rcpts : List CStr} (h : ∀ rcpt ∈ rcpts, ∃ parts,
      smtpNormalizeMailaddr (sendmailBuffers env) rcpt = .done (some parts))
    (writes : List (List Byte)) :
    ∃ writes', sendrcpts env willingServer rcpts writes = .done (some writes') := by
  induction rcpts generalizing writes with
  | nil => exact ⟨writes, rfl⟩
  | cons rcpt rcpts ih =>
      obtain ⟨hrcpt, hrcpts⟩ := List.forall_mem_cons.mp h
      have hR : ch 'R' ≠ ch 'D' ∧ ch 'R' ≠ ch 'Q' := by decide
      obtain ⟨writes₁, hsent⟩ := willing_sendaddr hR.1 hR.2 writes (str "CPT TO: ") hrcpt
      obtain ⟨writes', hrest⟩ := ih hrcpts writes₁
      refine ⟨writes', ?_⟩
      rw [sendrcpts]
      exact (congrArg (· >>= _) hsent).trans hrest

/-- Recipients that were named have been taken apart. -/
lemma exists_parts_of_sendrcpts {server : SmtpServer} {rcpts : List CStr}
    {writes writes' : List (List Byte)}
    (h : sendrcpts env server rcpts writes = .done (some writes')) :
    ∀ rcpt ∈ rcpts, ∃ parts, smtpNormalizeMailaddr (sendmailBuffers env) rcpt = .done (some parts) := by
  induction rcpts generalizing writes with
  | nil => exact nofun
  | cons rcpt rcpts ih =>
      obtain ⟨r, hr, h⟩ := Checked.bind_eq_done.mp h
      cases r with
      | none => cases h
      | some w =>
          obtain ⟨parts, hparts, hsent⟩ := Checked.bind_eq_done.mp hr
          cases parts with
          | none => cases hsent
          | some parts => exact List.forall_mem_cons.mpr ⟨⟨parts, hparts⟩, ih h⟩

/-- A mail whose recipients can be taken apart gets to the `DATA` command somewhere. -/
lemma announce_willing (h : ∀ rcpt ∈ handle.toRcpt ++ handle.ccRcpt ++ handle.bccRcpt, ∃ parts,
      smtpNormalizeMailaddr (sendmailBuffers env) rcpt = .done (some parts)) :
    ∃ writes, announceMail env willingServer handle (str "a@b") = .done (some writes) := by
  have hM : ch 'M' ≠ ch 'D' ∧ ch 'M' ≠ ch 'Q' := by decide
  have hfrom : smtpNormalizeMailaddr (sendmailBuffers env) (str "a@b")
      = .done (some (str "\"a@b\"", str "<a@b>")) := rfl
  obtain ⟨writes₁, hsent⟩ := willing_sendaddr hM.1 hM.2 [] (str "AIL FROM: ") ⟨_, hfrom⟩
  obtain ⟨writes, hrcpts⟩ := willing_sendrcpts h writes₁
  refine ⟨writes, ?_⟩
  rw [announceMail]
  exact (congrArg (· >>= _) hsent).trans hrcpts

/-- Where it gets there, they have been taken apart. -/
lemma named_of_announceMail {server : SmtpServer} {writes : List (List Byte)}
    (h : announceMail env server handle mailFrom = .done (some writes)) :
    ∀ rcpt ∈ handle.toRcpt ++ handle.ccRcpt ++ handle.bccRcpt, ∃ parts,
      smtpNormalizeMailaddr (sendmailBuffers env) rcpt = .done (some parts) := by
  obtain ⟨r, -, h⟩ := Checked.bind_eq_done.mp h
  cases r with
  | none => cases h
  | some writes₁ => exact exists_parts_of_sendrcpts h

/-- A mail that got to the `DATA` command. -/
lemma sendmailToData_some {server : SmtpServer} {mail' : SmtpHandle} {writes : List (List Byte)}
    (h : sendmailToData env server handle mailFrom subject = .done (some (mail', writes))) :
    ∃ mail, prepareMail env handle mailFrom subject = .done (some mail) ∧
      assembleMail env mail = .done (some mail') ∧
      announceMail env server mail' mailFrom = .done (some writes) := by
  obtain ⟨prepared, hprepare, h⟩ := Checked.bind_eq_done.mp h
  cases prepared with
  | none => cases h
  | some mail =>
      obtain ⟨assembled, hassemble, h⟩ := Checked.bind_eq_done.mp h
      cases assembled with
      | none => cases h
      | some mail₁ =>
          obtain ⟨announced, hannounce, h⟩ := Checked.bind_eq_done.mp h
          obtain ⟨writes₁, rfl, heq⟩ := Option.map_eq_some_iff.mp (Checked.done.inj h)
          obtain ⟨rfl, rfl⟩ := Prod.mk.inj heq
          exact ⟨mail, hprepare, hassemble, hannounce⟩

/-- Putting the mail together does not change its recipients. -/
lemma assembleMail_rcpts {mail' : SmtpHandle} (h : assembleMail env mail = .done (some mail')) :
    mail'.toRcpt ++ mail'.ccRcpt ++ mail'.bccRcpt = mail.toRcpt ++ mail.ccRcpt ++ mail.bccRcpt := by
  by_cases hattach : mail.attachment = []
  · obtain ⟨plain, -, -, rfl⟩ | ⟨plain, html, -, -, rfl⟩ := assembleMail_some h hattach
    · rfl
    · rfl
  · obtain ⟨plain, -, rfl⟩ := assembleMail_mixed h hattach
    rfl

/-- What is sent has a plain text. -/
lemma plain_ne_none {mail' : SmtpHandle} (h : assembleMail env mail = .done (some mail')) :
    mail.plain ≠ none := by
  by_cases hattach : mail.attachment = []
  · obtain ⟨plain, -, hplain, -⟩ | ⟨plain, html, -, hplain, -⟩ := assembleMail_some h hattach
    · simp [hplain]
    · simp [hplain]
  · obtain ⟨plain, hplain, -⟩ := assembleMail_mixed h hattach
    simp [hplain]

/-- With a plain text, the mail is put together or is empty. -/
lemma assembleMail_of_plain {plain : CStr} (hplain : mail.plain = some plain)
    (hhtml : mail.html ≠ some []) :
    (∃ mail', assembleMail env mail = .done (some mail')) ∨
      mail.attachment = [] ∧ mail.html = none := by
  rw [assembleMail.eq_def, hplain]
  cases hattach : mail.attachment with
  | cons attach attachments => exact Or.inl ⟨_, rfl⟩
  | nil =>
      cases hmail : mail.html with
      | none => exact Or.inr ⟨rfl, rfl⟩
      | some html =>
          cases html with
          | nil => exact absurd hmail hhtml
          | cons c html => exact Or.inl ⟨_, rfl⟩

/-- A text that is missing is looked for in one case. -/
lemma assembleMail_eq_fault_iff (hhtml : mail.html ≠ some []) :
    assembleMail env mail = .fault ↔
      mail.attachment = [] ∧ mail.html ≠ none ∧ mail.plain = none := by
  rw [assembleMail.eq_def]
  cases mail.attachment with
  | cons attach attachments => cases mail.plain <;> simp
  | nil =>
      cases hmail : mail.html with
      | none => cases mail.plain <;> simp
      | some html =>
          cases html with
          | nil => exact absurd hmail hhtml
          | cons c html => cases mail.plain <;> simp

/-- **A handle sends its parts** exactly when they fit. -/
theorem sendsParts_iff (env : MailEnv) (hhtml : handle.html ≠ some []) :
    SendsParts env handle (mailMessage env handle.html handle.plain handle.attachment) ↔
      (Addressed env handle → handle.attachment = [] → handle.html ≠ none →
        handle.plain ≠ none) ∧
      (Deliverable env handle → handle.plain ≠ none →
        RoomForHeaders env handle.html handle.attachment) := by
  constructor
  · intro h
    refine ⟨fun haddr hattach hsome hplain => ?_, fun hdeliver hplain => ?_⟩
    · obtain ⟨mail, hprepare⟩ := prepareMail_of_addressed haddr []
      obtain ⟨-, -, hmail, hmailPlain, hmailAttach⟩ := prepareMail_some hprepare
      refine h.noNull [] [] mail hprepare ((assembleMail_eq_fault_iff ?_).mpr ⟨?_, ?_, ?_⟩)
      · rwa [hmail]
      · rwa [hmailAttach]
      · rwa [hmail]
      · rwa [hmailPlain]
    · obtain ⟨mail, hprepare⟩ := prepareMail_of_addressed hdeliver.1 (str "a@b")
      obtain ⟨-, hrcpts, hmail, hmailPlain, hmailAttach⟩ := prepareMail_some hprepare
      obtain ⟨plain, hsome⟩ := Option.ne_none_iff_exists'.mp hplain
      rw [← hmail, ← hmailAttach]
      obtain ⟨mail', hassemble⟩ | ⟨hattach, hnone⟩ :=
        assembleMail_of_plain (hmailPlain.trans hsome) (by rwa [hmail])
      · rw [← assembleMail_rcpts hassemble] at hrcpts
        obtain ⟨writes, hannounce⟩ := announce_willing (hrcpts ▸ hdeliver.2)
        have hreach : sendmailToData env willingServer handle (str "a@b") []
            = .done (some (mail', writes)) := by
          rw [sendmailToData, hprepare, Checked.done_bind]
          refine (congrArg (· >>= _) hassemble).trans ?_
          exact congrArg (· >>= _) hannounce
        rw [← assembleMail_databuff_iff hassemble, hmail, hmailPlain, hmailAttach]
        exact h.complete _ _ _ _ _ hreach
      · rw [hattach, hnone]
        exact ⟨Nat.succ_pos _, nofun⟩
  · rintro ⟨halternative, hroom⟩
    refine ⟨fun mailFrom subject mail hprepare => ?_,
      fun server mailFrom subject mail writes hreach => ?_,
      fun server mailFrom subject hnone => ?_⟩
    · obtain ⟨haddr, -, hmail, hmailPlain, hmailAttach⟩ := prepareMail_some hprepare
      rw [Ne, assembleMail_eq_fault_iff (by rwa [hmail]), hmail, hmailPlain, hmailAttach]
      rintro ⟨hattach, hsome, hplain⟩
      exact halternative haddr hattach hsome hplain
    · obtain ⟨prepared, hprepare, hassemble, hannounce⟩ := sendmailToData_some hreach
      obtain ⟨haddr, hrcpts, hmail, hmailPlain, hmailAttach⟩ := prepareMail_some hprepare
      have hplain := plain_ne_none hassemble
      have hnamed := named_of_announceMail hannounce
      rw [assembleMail_rcpts hassemble, hrcpts] at hnamed
      rw [hmailPlain] at hplain
      rw [← hmail, ← hmailPlain, ← hmailAttach, assembleMail_databuff_iff hassemble, hmail,
        hmailAttach]
      exact hroom ⟨haddr, hnamed⟩ hplain
    · rw [smtpSendmail_eq, hnone]
      rfl

end

/-- **Which mails keep all their parts.** -/
theorem keepsParts_iff (env : MailEnv) {calls : List MailCall} (h : AllSucceed calls newHandle) :
    KeepsParts env calls ↔ PartsFit env calls := by
  by_cases hplaces : (attachmentsOf calls).length ≤ maxAttachments
  · obtain ⟨handle, hrun, hattach, htexts, hempty⟩ := buildMail_newHandle h hplaces
    have hhtml : handle.html = (textsOf calls).1 := congrArg Prod.fst htexts
    have hplain : handle.plain = (textsOf calls).2 := congrArg Prod.snd htexts
    have hiff := sendsParts_iff env hempty
    rw [hhtml, hplain, hattach] at hiff
    constructor
    · rintro ⟨handle', hrun', hsends⟩
      obtain rfl := Checked.done.inj (hrun.symm.trans hrun')
      obtain ⟨halternative, hroom⟩ := hiff.mp hsends
      refine ⟨hplaces, fun handle' hrun' => ?_, fun handle' hrun' => ?_⟩
      · obtain rfl := Checked.done.inj (hrun.symm.trans hrun')
        exact halternative
      · obtain rfl := Checked.done.inj (hrun.symm.trans hrun')
        exact hroom
    · intro hfit
      exact ⟨handle, hrun, hiff.mpr ⟨hfit.alternative handle hrun, hfit.room handle hrun⟩⟩
  · have hfault : buildMail calls newHandle = .fault := by
      refine buildMail_fault h ?_ (Nat.zero_le _)
      exact (Nat.not_le.mp hplaces).trans_le (Nat.le_add_left _ _)
    refine iff_of_false ?_ fun hfit => hplaces hfit.places
    rintro ⟨handle, hrun, -⟩
    cases hfault.symm.trans hrun

/-- A text in HTML with an alternative, and a file. -/
def htmlCalls : List MailCall :=
  [.rcpt 0 smtpRcptTo (str "a@b"), .html (some (str "<p>Hi</p>")) (some (str "Hi")),
    .attachment (str "a.txt") (str "a") (str "data" ++ [0]) 4 0 smtpContentTransferEncoding8bit]

/-- Its parts are kept. -/
theorem keepsParts_htmlCalls : KeepsParts someDay htmlCalls := by
  have hrcpt : smtpAddRcpt 0 newHandle smtpRcptTo (str "a@b") = .done (0, { newHandle with
      toRcpt := [str "\"a@b\" <a@b>"]
      toConcatenated := some (str "\"a@b\" <a@b>") }) := by decide
  have hcalls : AllSucceed htmlCalls newHandle := by
    refine ⟨⟨_, hrcpt⟩, fun rc handle hrun => ?_⟩
    obtain ⟨-, rfl⟩ := Prod.mk.inj (Checked.done.inj (hrcpt.symm.trans hrun))
    refine ⟨rfl, fun rc handle _ => ⟨⟨str "data", rfl⟩, fun _ _ _ => trivial⟩⟩
  refine (keepsParts_iff someDay hcalls).mpr ⟨by decide, fun _ _ _ _ _ => by decide,
    fun _ _ _ _ => ⟨by decide +kernel, by decide +kernel⟩⟩

/-- **An HTML text without alternative**: its missing plain text is looked for. -/
theorem htmlOnly_not_keepsParts :
    ¬ KeepsParts someDay [.rcpt 0 smtpRcptTo (str "a@b"), .html (some (str "<p>Hi</p>")) none] := by
  rintro ⟨handle, hrun, hsends⟩
  have hbuilt : buildMail [.rcpt 0 smtpRcptTo (str "a@b"), .html (some (str "<p>Hi</p>")) none]
      newHandle = .done { newHandle with
        toRcpt := [str "\"a@b\" <a@b>"]
        toConcatenated := some (str "\"a@b\" <a@b>")
        html := some (str "<p>Hi</p>") } := by decide
  obtain rfl := Checked.done.inj (hbuilt.symm.trans hrun)
  have haddr : Addressed someDay { newHandle with
      toRcpt := [str "\"a@b\" <a@b>"]
      toConcatenated := some (str "\"a@b\" <a@b>")
      html := some (str "<p>Hi</p>") } := ⟨by decide, by decide⟩
  obtain ⟨mail, hprepare⟩ := prepareMail_of_addressed haddr []
  obtain ⟨-, -, hhtml, hplain, hattach⟩ := prepareMail_some hprepare
  refine hsends.noNull [] [] mail hprepare
    ((assembleMail_eq_fault_iff ?_).mpr ⟨hattach, ?_, hplain⟩)
  · rw [hhtml]
    decide
  · rw [hhtml]
    decide

end G7
