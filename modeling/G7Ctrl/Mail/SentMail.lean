import G7Ctrl.Mail.Parts

/-!
# A mail that was sent (`smtp_sendmail`)

The message of a mail with attachments is made of lines as well: those of its texts, and for each
attachment its header, its data and a boundary.  When there is room for all of it, what arrives is
decided by the texts, the data and the values that go into the headers.

* `mixedLines`, `attachmentLines` — the lines of such a message, and **`mailMessage_eq`**.
* `MailDotFree` — the texts and values have no lines with a dot in front.
* **`smtpSendmail_transparent_iff`** — exactly then a mail that was sent arrives.
-/

namespace G7

/-! ## The lines of a mail with attachments -/

/-- The lines of an attachment. -/
def attachmentLines (boundary : CStr) (attach : SmtpAttachment) : List CStr :=
  [str "--" ++ boundary, str "Content-Transfer-Encoding: " ++ attach.contenttransferencoding,
    str "Content-Type: " ++ attach.contenttype] ++
  (match attach.cid with
    | some cid => [str "Content-ID: <" ++ (cid ++ str ">"), str "X-Attachment-Id: " ++ cid]
    | none => [str "Content-Disposition: " ++ (attach.contentdisposition ++
        (str "; filename=\"" ++ (attach.filename ++ str "\"")))]) ++
  [[], attach.data]

lemma attachmentText_eq (boundary : CStr) (attach : SmtpAttachment) :
    attachmentText boundary attach = withEnds (attachmentLines boundary attach) := by
  have hid : str ">\r\n" = str ">" ++ str "\r\n" := by rw [str_append_str]; rfl
  have hblank : str "\r\n\r\n" = str "\r\n" ++ str "\r\n" := by rw [str_append_str]; rfl
  have hcrlf : str "\r\n" = crlf := rfl
  cases hcid : attach.cid with
  | none =>
      simp only [attachmentText, attachmentLines, hcid, withEnds, List.flatMap_append,
        List.flatMap_cons, List.flatMap_nil, List.append_assoc, List.nil_append, List.append_nil,
        hblank, hcrlf]
  | some cid =>
      simp only [attachmentText, attachmentLines, hcid, withEnds, List.flatMap_append,
        List.flatMap_cons, List.flatMap_nil, List.append_assoc, List.nil_append, List.append_nil,
        hid, hblank, hcrlf]

/-- The lines of the texts. -/
def mixedTextLines (env : MailEnv) (html : Option CStr) (plain : CStr) : List CStr :=
  match html with
  | none =>
      [str "--" ++ mailBoundary env 0, str "Content-Transfer-Encoding: 8bit",
        str "Content-Type: text/plain; charset=\"UTF-8\"", [], plain]
  | some html =>
      [str "--" ++ mailBoundary env 0,
        str "Content-Type: multipart/alternative; boundary=\"" ++ (mailBoundary env 4 ++ str "\""),
        []] ++ alternativeLines (mailBoundary env 4) plain html ++
      [str "--" ++ (mailBoundary env 4 ++ str "--")]

/-- The lines of the message. -/
def mixedLines (env : MailEnv) (html : Option CStr) (plain : CStr)
    (attachments : List SmtpAttachment) : List CStr :=
  mixedTextLines env html plain ++ attachments.flatMap (attachmentLines (mailBoundary env 0)) ++
    [str "--" ++ (mailBoundary env 0 ++ str "--")]

/-- **The message of a mail with attachments**, line by line. -/
theorem mailMessage_eq (env : MailEnv) (html : Option CStr) (plain : CStr)
    {attachments : List SmtpAttachment} (h : attachments ≠ []) :
    mailMessage env html (some plain) attachments =
      withEnds (mixedLines env html plain attachments) := by
  have hclosing : str "--\r\n" = str "--" ++ crlf := by decide
  have htexts : (match html with
      | none => mixedPlainText (mailBoundary env 0) plain
      | some html => mixedHtmlText (mailBoundary env 0) (mailBoundary env 4) plain html) =
      withEnds (mixedTextLines env html plain) := by
    have hquote : str "\"\r\n\r\n" = str "\"" ++ (crlf ++ crlf) := by decide
    have hencoding : str "Content-Transfer-Encoding: 8bit\r\n" =
        str "Content-Transfer-Encoding: 8bit" ++ crlf := by decide
    have hplain : str "Content-Type: text/plain; charset=\"UTF-8\"\r\n\r\n" =
        str "Content-Type: text/plain; charset=\"UTF-8\"" ++ (crlf ++ crlf) := by decide
    have hcrlf : str "\r\n" = crlf := rfl
    cases html with
    | none =>
        simp only [mixedPlainText, mixedTextLines, withEnds, List.flatMap_cons, List.flatMap_nil,
          List.append_assoc, List.nil_append, List.append_nil, hencoding, hplain, hcrlf]
    | some html =>
        simp only [mixedHtmlText, mixedTextLines, alternativeText_eq, withEnds, List.flatMap_append,
          List.flatMap_cons, List.flatMap_nil, List.append_assoc, List.nil_append, List.append_nil,
          hquote, hcrlf, hclosing]
  have hparts : attachments.flatMap (attachmentText (mailBoundary env 0)) =
      withEnds (attachments.flatMap (attachmentLines (mailBoundary env 0))) := by
    rw [withEnds, List.flatMap_assoc]
    exact congrArg (List.flatMap · attachments) (funext (attachmentText_eq _))
  rw [mailMessage_mixed env html (some plain) h, Option.getD_some]
  refine (congrArg (· ++ _) htexts).trans ?_
  rw [hparts, mixedLines, closingLine, hclosing]
  simp only [withEnds, List.flatMap_append, List.flatMap_cons, List.flatMap_nil, List.append_assoc,
    List.append_nil]

/-! ## Dots in front of them -/

/-- The data and what goes into the header of an attachment have no lines with a dot in front. -/
structure SmtpAttachment.DotFree (attach : SmtpAttachment) : Prop where
  data : NoDot attach.data
  contenttransferencoding : NoDotBehind attach.contenttransferencoding
  contenttype : NoDotBehind attach.contenttype
  cid : ∀ cid ∈ attach.cid, NoDotBehind cid
  contentdisposition : attach.cid = none → NoDotBehind attach.contentdisposition
  filename : attach.cid = none → NoDotBehind attach.filename

/-- A line that ends a part. -/
lemma noDot_lastBoundary {boundary : CStr} (hboundary : cr ∉ boundary) :
    NoDot (str "--" ++ (boundary ++ str "--")) := by
  have hdash : cr ∉ boundary ++ str "--" := by
    rw [List.mem_append, not_or]
    exact ⟨hboundary, by decide⟩
  rw [noDot_header (by decide) (by decide) (by decide)]
  exact noDotBehind_of_notMem hdash

/-- **The lines of an attachment.** -/
theorem noDot_attachmentLines {boundary : CStr} (hboundary : cr ∉ boundary)
    (attach : SmtpAttachment) :
    (∀ line ∈ attachmentLines boundary attach, NoDot line) ↔ attach.DotFree := by
  have hline := (noDot_boundary hboundary).1
  have hempty : NoDot [] := by decide
  have hnil : NoDotBehind [] := noDotBehind_of_notMem List.not_mem_nil
  have hlast (c : Byte) (hc : c ≠ cr ∧ c ≠ lf ∧ c ≠ ch '.') (value : CStr) :
      NoDotBehind (value ++ [c]) ↔ NoDotBehind value :=
    (noDot_append_cons hc.1 hc.2.1 hc.2.2 value []).2.trans (and_iff_left hnil)
  have hheader {cmd : CStr} (h : cmd ≠ [] ∧ cr ∉ cmd ∧ cmd.head? ≠ some (ch '.')) (value : CStr) :=
    noDot_header h.1 h.2.1 h.2.2 value
  cases hcid : attach.cid with
  | none =>
      have hdisposition : NoDotBehind (attach.contentdisposition ++ (str "; filename=\"" ++
          (attach.filename ++ str "\""))) ↔
          NoDotBehind attach.contentdisposition ∧ NoDotBehind attach.filename := by
        have hfront : str "; filename=\"" = ch ';' :: str " filename=\"" := rfl
        rw [hfront, List.cons_append,
          (noDot_append_cons (by decide) (by decide) (by decide) _ _).2,
          noDotBehind_append (by decide), show str "\"" = [ch '"'] from rfl, hlast _ (by decide)]
      simp only [attachmentLines, hcid, List.forall_mem_append, List.forall_mem_cons,
        List.not_mem_nil, false_implies, implies_true, and_true, hline, hempty, true_and]
      rw [hheader (by decide), hheader (by decide), hheader (by decide), hdisposition]
      constructor
      · rintro ⟨⟨⟨henc, htype⟩, hdisp, hname⟩, hdata⟩
        exact ⟨hdata, henc, htype, by simp [hcid], fun _ => hdisp, fun _ => hname⟩
      · intro h
        exact ⟨⟨⟨h.contenttransferencoding, h.contenttype⟩, h.contentdisposition hcid,
          h.filename hcid⟩, h.data⟩
  | some cid =>
      simp only [attachmentLines, hcid, List.forall_mem_append, List.forall_mem_cons,
        List.not_mem_nil, false_implies, implies_true, and_true, hline, hempty, true_and]
      rw [hheader (by decide), hheader (by decide), hheader (by decide), hheader (by decide),
        show str ">" = [ch '>'] from rfl, hlast _ (by decide)]
      constructor
      · rintro ⟨⟨⟨henc, htype⟩, hid, -⟩, hdata⟩
        exact ⟨hdata, henc, htype, by simpa [hcid] using hid, by simp [hcid], by simp [hcid]⟩
      · intro h
        exact ⟨⟨⟨h.contenttransferencoding, h.contenttype⟩, h.cid cid hcid, h.cid cid hcid⟩,
          h.data⟩

/-- **The lines of the message.** -/
theorem noDot_mixedLines (env : MailEnv) (html : Option CStr) (plain : CStr)
    (attachments : List SmtpAttachment) :
    (∀ line ∈ mixedLines env html plain attachments, NoDot line) ↔
      NoDot plain ∧ (∀ text ∈ html, NoDot text) ∧ ∀ attach ∈ attachments, attach.DotFree := by
  have hline (k : ℕ) := (noDot_boundary (cr_notMem_mailBoundary env k)).1
  have hlast (k : ℕ) := noDot_lastBoundary (cr_notMem_mailBoundary env k)
  have hencoding : NoDot (str "Content-Transfer-Encoding: 8bit") := by decide
  have hplain : NoDot (str "Content-Type: text/plain; charset=\"UTF-8\"") := by decide
  have hhtml : NoDot (str "Content-Type: text/html; charset=\"UTF-8\"") := by decide
  have hempty : NoDot [] := by decide
  have htype : NoDot (str "Content-Type: multipart/alternative; boundary=\"" ++
      (mailBoundary env 4 ++ str "\"")) := by
    have hquote : cr ∉ mailBoundary env 4 ++ str "\"" := by
      rw [List.mem_append, not_or]
      exact ⟨cr_notMem_mailBoundary env 4, by decide⟩
    rw [noDot_header (by decide) (by decide) (by decide)]
    exact noDotBehind_of_notMem hquote
  have htexts : (∀ line ∈ mixedTextLines env html plain, NoDot line) ↔
      NoDot plain ∧ ∀ text ∈ html, NoDot text := by
    cases html with
    | none =>
        simp [mixedTextLines, hline, hencoding, hplain, hempty]
    | some html =>
        simp [mixedTextLines, alternativeLines, hline, hlast, htype, hencoding, hplain, hhtml,
          hempty]
  have hparts : (∀ line ∈ attachments.flatMap (attachmentLines (mailBoundary env 0)), NoDot line) ↔
      ∀ attach ∈ attachments, attach.DotFree := by
    rw [List.forall_mem_flatMap]
    exact forall₂_congr fun attach _ => noDot_attachmentLines (cr_notMem_mailBoundary env 0) attach
  rw [mixedLines, List.forall_mem_append, List.forall_mem_append, List.forall_mem_singleton, htexts,
    hparts, and_iff_left (hlast 0), and_assoc]

/-! ## A mail that was sent -/

/-- The texts and attachments of a mail, and what goes into its header, have no lines with a dot in
front. -/
structure SmtpHandle.MailDotFree (handle : SmtpHandle) (env : MailEnv) (mailFrom subject : CStr) :
    Prop where
  plain : ∀ text ∈ handle.plain, NoDot text
  html : ∀ text ∈ handle.html, NoDot text
  attachment : ∀ attach ∈ handle.attachment, attach.DotFree
  contenttransferencoding : handle.html ≠ none ∨ handle.attachment ≠ [] →
    ∀ text ∈ handle.contenttransferencoding, NoDot text
  date : ∀ value ∈ env.date, NoDotBehind value
  mailFrom : NoDotBehind mailFrom
  toConcatenated : ∀ value ∈ handle.toConcatenated, NoDotBehind value
  ccConcatenated : ∀ value ∈ handle.ccConcatenated, NoDotBehind value
  subject : PlainWord subject → NoDotBehind subject
  mimeversion : NoDotBehind handle.mimeversion

section

variable {env : MailEnv} {handle : SmtpHandle} {mailFrom subject text : CStr}

/-- The handle that `smtp_sendmail` puts the mail together from. -/
abbrev SmtpHandle.prepared (handle : SmtpHandle) (env : MailEnv) (mailFrom text : CStr) :
    SmtpHandle :=
  { handle with
    sender := some mailFrom
    returnpath := some mailFrom
    date := env.date
    subject := some text }

/-- The fields that all kinds of mail have from the handle. -/
lemma dotFree_iff {contenttype databuff : CStr} {encoding : Option CStr}
    (htype : NoDot contenttype)
    (hencoding : (∀ t ∈ encoding, NoDot t) ↔ (handle.html ≠ none ∨ handle.attachment ≠ [] →
      ∀ t ∈ handle.contenttransferencoding, NoDot t))
    (hdatabuff : NoDot databuff ↔ (∀ t ∈ handle.plain, NoDot t) ∧ (∀ t ∈ handle.html, NoDot t) ∧
      ∀ attach ∈ handle.attachment, attach.DotFree)
    (hsubject : NoDotBehind text ↔ (PlainWord subject → NoDotBehind subject)) :
    SmtpHandle.DotFree
        { handle.prepared env mailFrom text with
          contenttype := some contenttype
          contenttransferencoding := encoding
          databuff := some databuff } ↔ handle.MailDotFree env mailFrom subject := by
  constructor
  · intro h
    obtain ⟨hplain, hhtml, hattach⟩ := hdatabuff.mp (h.databuff _ rfl)
    exact
      { plain := hplain
        html := hhtml
        attachment := hattach
        contenttransferencoding := hencoding.mp h.contenttransferencoding
        date := h.date
        mailFrom := h.sender _ rfl
        toConcatenated := h.toConcatenated
        ccConcatenated := h.ccConcatenated
        subject := hsubject.mp (h.subject _ rfl)
        mimeversion := h.mimeversion }
  · intro h
    exact
      { databuff := forall_mem_some.mpr (hdatabuff.mpr ⟨h.plain, h.html, h.attachment⟩)
        contenttype := forall_mem_some.mpr htype
        contenttransferencoding := hencoding.mpr h.contenttransferencoding
        date := h.date
        sender := forall_mem_some.mpr h.mailFrom
        toConcatenated := h.toConcatenated
        ccConcatenated := h.ccConcatenated
        subject := forall_mem_some.mpr (hsubject.mpr h.subject)
        mimeversion := h.mimeversion }

/-- The content type of a mail with attachments. -/
lemma noDot_addAttachments (env : MailEnv) (databufflen : ℕ) (attachments : List SmtpAttachment)
    (contenttype databuff : CStr) (h : NoDot contenttype) :
    NoDot (addAttachments (mailBoundary env 0) databufflen attachments contenttype databuff).1 := by
  induction attachments generalizing contenttype databuff with
  | nil => exact h
  | cons attach attachments ih =>
      rw [addAttachments]
      refine ih _ _ ?_
      split_ifs
      · exact noDot_multipart env (by decide) (by decide) (by decide)
      · exact h

/-- **Every kind of mail**, by its texts, when there is room for its attachments. -/
theorem assembleMail_dotFree_iff {mail : SmtpHandle}
    (hassemble : assembleMail env (handle.prepared env mailFrom text) = .done (some mail))
    (hroom : handle.attachment = [] ∨ RoomForHeaders env handle.html handle.attachment)
    (hsubject : NoDotBehind text ↔ (PlainWord subject → NoDotBehind subject)) :
    mail.DotFree ↔ handle.MailDotFree env mailFrom subject := by
  by_cases hattach : handle.attachment = []
  · have hnone : ∀ attach ∈ handle.attachment, attach.DotFree := by simp [hattach]
    obtain ⟨plain, hhtml, hplain, rfl⟩ | ⟨plain, html, hhtml, hplain, rfl⟩ :=
      assembleMail_some hassemble hattach
    · refine dotFree_iff (by decide) (iff_of_true (forall_mem_some.mpr (by decide)) ?_) ?_ hsubject
      · exact fun h => absurd h (by simp [show handle.html = none from hhtml, hattach])
      · rw [snprintf_of_lt (by omega), show handle.plain = some plain from hplain, forall_mem_some,
          show handle.html = none from hhtml]
        exact (and_iff_left ⟨fun t ht => absurd ht (Option.not_mem_none t), hnone⟩).symm
    · have hdatabuff := noDot_htmlMail env (handle.prepared env mailFrom text) plain html
      have hsome : handle.html ≠ none := fun h => Option.some_ne_none html (hhtml.symm.trans h)
      refine dotFree_iff (noDot_multipart env (by decide) (by decide) (by decide))
        ⟨fun h _ => h, fun h => h (Or.inl hsome)⟩ ?_ hsubject
      rw [show handle.plain = some plain from hplain, show handle.html = some html from hhtml,
        forall_mem_some, forall_mem_some, and_iff_left hnone, ← hdatabuff]
      exact forall_mem_some.symm
  · obtain ⟨plain, hplain, rfl⟩ := assembleMail_mixed hassemble hattach
    have hmixed := (mixedMail_databuff_iff env (handle.prepared env mailFrom text) plain
      hattach).mpr (hroom.resolve_left hattach)
    have hlines : mixedLines env handle.html plain handle.attachment ≠ [] := by
      simp [mixedLines]
    have hdatabuff := Option.some.inj hmixed
    refine dotFree_iff (noDot_addAttachments env _ _ _ _
      (noDot_multipart env (by decide) (by decide) (by decide)))
      ⟨fun h _ => h, fun h => h (Or.inr hattach)⟩ ?_ hsubject
    rw [hdatabuff, mailMessage_eq env _ plain hattach, noDot_withEnds_iff hlines, noDot_mixedLines,
      show handle.plain = some plain from hplain, forall_mem_some]

end

/-- What was done for a mail that was sent. -/
lemma smtpSendmail_some {env : MailEnv} {server : SmtpServer} {handle : SmtpHandle}
    {mailFrom subject : CStr} {handle' : SmtpHandle} {writes : List (List Byte)}
    (h : smtpSendmail env server handle mailFrom subject = .done (some (handle', writes))) :
    (∃ text, (PlainWord subject → text = subject) ∧ (¬ PlainWord subject → cr ∉ text) ∧
      assembleMail env
        { handle with
          sender := some mailFrom
          returnpath := some mailFrom
          date := env.date
          subject := some text } = .done (some handle')) ∧
      dataBytes writes = handle'.messageText ++ str ".\r\n" := by
  rw [smtpSendmail] at h
  split_ifs at h with hto hdate
  · cases h
  · cases h
  · obtain ⟨⟨rc, buff⟩, hword, h⟩ := Checked.bind_eq_done.mp h
    obtain ⟨text, htext, h⟩ := Checked.bind_eq_done.mp h
    obtain ⟨hplain, hother⟩ := readStr_qprintEncodeWord hword htext
    obtain ⟨assembled, hassemble, h⟩ := Checked.bind_eq_done.mp h
    cases assembled with
    | none => cases h
    | some mail =>
        obtain ⟨r, hfrom, h⟩ := Checked.bind_eq_done.mp h
        cases r with
        | none => cases h
        | some w₁ =>
            obtain ⟨r, hrcpts, h⟩ := Checked.bind_eq_done.mp h
            cases r with
            | none => cases h
            | some w₂ =>
                obtain ⟨w₃, hdata, heq⟩ := Option.map_eq_some_iff.mp (Checked.done.inj h)
                cases heq
                refine ⟨⟨text, hplain, hother, hassemble⟩, sendData_some hdata ?_⟩
                exact sendrcpts_ne_data hrcpts
                  (sendaddr_ne_data (by decide) hfrom List.not_mem_nil)

/-- **Transparency.**  What follows the `DATA` command of a mail that was sent is the message that
was put together and the terminator.  It is transparent if and only if none of the texts that were
put together has a line that begins with a dot; and without attachments, or when there is room for
them, if and only if none of those that were given to the library has. -/
theorem smtpSendmail_transparent_iff (env : MailEnv) (server : SmtpServer) (handle : SmtpHandle)
    (mailFrom subject : CStr) (handle' : SmtpHandle) (writes : List (List Byte))
    (h : smtpSendmail env server handle mailFrom subject = .done (some (handle', writes))) :
    (handle.attachment = [] ∨ RoomForHeaders env handle.html handle.attachment →
      (Transparent (dataBytes writes) handle'.messageText ↔
        handle.MailDotFree env mailFrom subject)) ∧
      (Transparent (dataBytes writes) handle'.messageText ↔ handle'.DotFree) := by
  obtain ⟨⟨text, hplain, hother, hassemble⟩, hbytes⟩ := smtpSendmail_some h
  have hne : handle'.messageLines ≠ [] := by simp [SmtpHandle.messageLines]
  obtain ⟨body, hbody, hiff⟩ := noDot_withEnds handle'.messageLines hne
  have htransparent : Transparent (dataBytes writes) handle'.messageText ↔ handle'.DotFree := by
    rw [hbytes, SmtpHandle.messageText, hbody, transparent_iff_noDot, hiff, noDot_messageLines]
  have hsubject : NoDotBehind text ↔ (PlainWord subject → NoDotBehind subject) := by
    by_cases hword : PlainWord subject
    · rw [hplain hword]
      exact ⟨fun h _ => h, fun h => h hword⟩
    · exact iff_of_true (noDotBehind_of_notMem (hother hword)) fun h => absurd h hword
  exact ⟨fun hroom => htransparent.trans (assembleMail_dotFree_iff hassemble hroom hsubject),
    htransparent⟩

section Examples

/-- A mail to be sent. -/
def letter (text : CStr) : SmtpHandle :=
  (smtpAddPlain { newHandle with toRcpt := [str "a@b"], toConcatenated := some (str "a@b") } text).2

/-- The mail that is sent. -/
def sentLetter (text : CStr) : SmtpHandle :=
  { letter text with
    date := someDay.date
    sender := some (str "c@d")
    returnpath := some (str "c@d")
    subject := some (str "News")
    contenttype := some (str "Content-Type: text/plain; charset=\"UTF-8\"")
    contenttransferencoding := some (str "Content-Transfer-Encoding: 8bit")
    databuff := some text }

/-- What is written for it. -/
def letterWrites (text : CStr) : List (List Byte) :=
  [str "MAIL FROM: <c@d>\r\n", str "RCPT TO: <a@b>\r\n", str "DATA\r\n",
    str "Date: Mon, 02 Feb 2015 10:00:00 +0100\r\n", str "From: c@d\r\n", str "To: a@b\r\n",
    str "Subject: News\r\n", str "MIME-Version: 1.0\r\n",
    str "Content-Type: text/plain; charset=\"UTF-8\"\r\n",
    str "Content-Transfer-Encoding: 8bit\r\n", str "\r\n\r\n", text ++ str "\r\n", str ".\r\n",
    str "QUIT\r\n"]

/-- A letter without dots arrives. -/
theorem letter_transparent :
    smtpSendmail someDay willingServer (letter (str "Hi\r\nBye")) (str "c@d") (str "News") =
        .done (some (sentLetter (str "Hi\r\nBye"), letterWrites (str "Hi\r\nBye"))) ∧
      Transparent (dataBytes (letterWrites (str "Hi\r\nBye")))
        (sentLetter (str "Hi\r\nBye")).messageText := by
  have hsent : smtpSendmail someDay willingServer (letter (str "Hi\r\nBye")) (str "c@d")
      (str "News") =
        .done (some (sentLetter (str "Hi\r\nBye"), letterWrites (str "Hi\r\nBye"))) := by
    decide +kernel
  refine ⟨hsent, ((smtpSendmail_transparent_iff _ _ _ _ _ _ _ hsent).1 (Or.inl rfl)).mpr ?_⟩
  exact
    { plain := forall_mem_some.mpr (by decide)
      html := by decide
      attachment := List.forall_mem_nil _
      contenttransferencoding := fun h => absurd h (by decide)
      date := forall_mem_some.mpr (by decide)
      mailFrom := by decide
      toConcatenated := forall_mem_some.mpr (by decide)
      ccConcatenated := by decide
      subject := fun _ => by decide
      mimeversion := by decide }

/-- One with a line of a single dot does not. -/
theorem dotLetter_not_transparent :
    smtpSendmail someDay willingServer (letter (str "Hi\r\n.\r\nBye")) (str "c@d") (str "News") =
        .done (some (sentLetter (str "Hi\r\n.\r\nBye"), letterWrites (str "Hi\r\n.\r\nBye"))) ∧
      ¬ Transparent (dataBytes (letterWrites (str "Hi\r\n.\r\nBye")))
        (sentLetter (str "Hi\r\n.\r\nBye")).messageText := by
  refine ⟨by decide +kernel, fun h => absurd h.received ?_⟩
  decide +kernel

end Examples

end G7
