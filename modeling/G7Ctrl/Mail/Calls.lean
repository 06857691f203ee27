import G7Ctrl.Mail.Attachment
import G7Ctrl.Mail.Recipients

/-!
# Building a mail

A handle is made by calls that add recipients, a text and attachments, one after the other.

* `MailCall`, `buildMail` — the calls, and what they make of a handle.
* `AllSucceed` — every call that is made returns 0.
* `attachmentsOf`, `textsOf` — what was added, as the calls have it.
* **`buildMail_done`**, **`buildMail_fault`** — the handle has what was added, in that order, as long
  as its array has places for the attachments; one more is stored behind the array.
-/

namespace G7

/-- A call for a handle, with its other arguments; `below` is the byte below the buffer of a name. -/
inductive MailCall
  | rcpt (below : Byte) (type : ℕ) (rcpts : CStr)
  | plain (buffer : CStr)
  | html (buffer altbuffer : Option CStr)
  | attachment (filename name : CStr) (data : List Byte) (len contenttype encoding : ℕ)

/-- The call. -/
def MailCall.run (handle : SmtpHandle) : MailCall → Checked (ℤ × SmtpHandle)
  | .rcpt below type rcpts => smtpAddRcpt below handle type rcpts
  | .plain buffer => return smtpAddPlain handle buffer
  | .html buffer altbuffer => return smtpAddHtml handle buffer altbuffer
  | .attachment filename name data len contenttype encoding =>
      smtpAddAttachment handle filename name data len contenttype encoding

/-- One call after the other. -/
def buildMail : List MailCall → SmtpHandle → Checked SmtpHandle
  | [], handle => return handle
  | call :: calls, handle => do
      let (_, handle) ← call.run handle
      buildMail calls handle

/-- The call returns 0.  An attachment that could be encoded does so without a look at the places
that are left. -/
def MailCall.Succeeds (handle : SmtpHandle) : MailCall → Prop
  | .attachment _ _ data len _ encoding =>
      ∃ text, encodeData data len encoding = .done (some text)
  | .rcpt below type rcpts => ∃ handle', smtpAddRcpt below handle type rcpts = .done (0, handle')
  | .plain buffer => (smtpAddPlain handle buffer).1 = 0
  | .html buffer altbuffer => (smtpAddHtml handle buffer altbuffer).1 = 0

/-- Every call that is made returns 0. -/
def AllSucceed : List MailCall → SmtpHandle → Prop
  | [], _ => True
  | call :: calls, handle =>
      call.Succeeds handle ∧ ∀ rc handle', call.run handle = .done (rc, handle') →
        AllSucceed calls handle'

/-- The attachment a call adds. -/
def MailCall.attached : MailCall → Option SmtpAttachment
  | .attachment filename name data len contenttype encoding =>
      match encodeData data len encoding with
      | .done (some text) => some (newAttachment filename name text contenttype encoding)
      | _ => none
  | _ => none

/-- The text a call adds: in HTML, and the plain one. -/
def MailCall.texts : MailCall → Option (Option CStr × Option CStr)
  | .plain buffer => some (none, some buffer)
  | .html buffer altbuffer => some (buffer, altbuffer.filter (· ≠ []))
  | _ => none

/-- The attachments, in the order of the calls. -/
def attachmentsOf (calls : List MailCall) : List SmtpAttachment := calls.filterMap MailCall.attached

/-- The text in HTML, and the plain one. -/
def textsOf (calls : List MailCall) : Option CStr × Option CStr :=
  (calls.findSome? MailCall.texts).getD (none, none)

/-- The texts of a handle. -/
def SmtpHandle.texts (handle : SmtpHandle) : Option CStr × Option CStr := (handle.html, handle.plain)

/-! ## One call -/

section

variable {handle handle' : SmtpHandle}

/-- The attachments and the texts. -/
def SmtpHandle.body (handle : SmtpHandle) : List SmtpAttachment × Option CStr × Option CStr :=
  (handle.attachment, handle.texts)

/-- Recipients do not change the body. -/
lemma putRcpt_body {type : ℕ} {full : CStr} (h : putRcpt handle type full = some handle') :
    handle'.body = handle.body := by
  rw [putRcpt] at h
  split_ifs at h <;> obtain rfl := Option.some.inj h <;> rfl

lemma addRcpts_body {below : Byte} {type : ℕ} {flds : List CStr}
    (h : addRcpts below type flds handle = .done (0, handle')) : handle'.body = handle.body := by
  induction flds generalizing handle with
  | nil =>
      obtain rfl := (Prod.mk.inj (Checked.done.inj h)).2
      rfl
  | cons fld flds ih =>
      have hfailed : (Checked.done ((-1 : ℤ), handle)) ≠ .done (0, handle') :=
        fun h => absurd (Prod.mk.inj (Checked.done.inj h)).1 (by decide)
      rw [addRcpts] at h
      by_cases hempty : fld = []
      · rw [if_pos hempty] at h
        exact absurd h hfailed
      rw [if_neg hempty] at h
      obtain ⟨r, hr, h⟩ := Checked.bind_eq_done.mp h
      rcases r with _ | ⟨name, addr⟩
      · exact absurd h hfailed
      · cases hput : putRcpt handle type (emailFull name addr) with
        | none =>
            simp only [hput] at h
            exact absurd h hfailed
        | some stored =>
            simp only [hput] at h
            rw [ih h, putRcpt_body hput]

lemma smtpAddRcpt_body {below : Byte} {type : ℕ} {rcpt : CStr}
    (h : smtpAddRcpt below handle type rcpt = .done (0, handle')) :
    handle'.body = handle.body := by
  rw [smtpAddRcpt] at h
  cases hflds : xstrsplitfields rcpt (ch ',') with
  | none =>
      rw [hflds] at h
      exact absurd (Prod.mk.inj (Checked.done.inj h)).1 (by decide)
  | some flds =>
      rw [hflds] at h
      exact addRcpts_body h

/-- A text is added to a handle that has none. -/
lemma smtpAddPlain_body {buffer : CStr} (h : (smtpAddPlain handle buffer).1 = 0) :
    handle.texts = (none, none) ∧
      (smtpAddPlain handle buffer).2.body = (handle.attachment, none, some buffer) := by
  have hfailed : (-1 : ℤ) ≠ 0 := by decide
  by_cases hsome : handle.plain.isSome ∨ handle.html.isSome
  · rw [smtpAddPlain, if_pos hsome] at h
    exact absurd h hfailed
  · rw [smtpAddPlain, if_neg hsome]
    rw [not_or, Option.not_isSome_iff_eq_none, Option.not_isSome_iff_eq_none] at hsome
    exact ⟨Prod.ext hsome.2 hsome.1, by simp [SmtpHandle.body, SmtpHandle.texts, hsome.2]⟩

lemma smtpAddHtml_body {buffer altbuffer : Option CStr}
    (h : (smtpAddHtml handle buffer altbuffer).1 = 0) :
    handle.texts = (none, none) ∧ buffer ≠ none ∧ buffer ≠ some [] ∧
      (smtpAddHtml handle buffer altbuffer).2.body
        = (handle.attachment, buffer, altbuffer.filter (· ≠ [])) := by
  have hfailed : (-1 : ℤ) ≠ 0 := by decide
  by_cases hsome : handle.plain.isSome ∨ handle.html.isSome
  · rw [smtpAddHtml.eq_def, if_pos hsome] at h
    exact absurd h hfailed
  · rw [smtpAddHtml.eq_def, if_neg hsome] at h
    rw [smtpAddHtml.eq_def, if_neg hsome]
    rw [not_or, Option.not_isSome_iff_eq_none, Option.not_isSome_iff_eq_none] at hsome
    have htexts : handle.texts = (none, none) := Prod.ext hsome.2 hsome.1
    match buffer, h with
    | none, h => exact absurd h hfailed
    | some [], h => exact absurd h hfailed
    | some (c :: text), h => exact ⟨htexts, Option.some_ne_none _, by simp, rfl⟩

/-- **What a call adds.**  Only an attachment needs a place. -/
lemma run_of_succeeds {call : MailCall} (h : call.Succeeds handle)
    (hroom : call.attached ≠ none → handle.attachment.length < maxAttachments) :
    ∃ handle', call.run handle = .done (0, handle') ∧
      handle'.attachment = handle.attachment ++ call.attached.toList ∧
      match call.texts with
      | none => handle'.texts = handle.texts
      | some texts => handle.texts = (none, none) ∧ texts ≠ (none, none) ∧ texts.1 ≠ some [] ∧
          handle'.texts = texts := by
  cases call with
  | rcpt below type rcpts =>
      obtain ⟨handle', hrun⟩ := h
      have hbody := Prod.mk.inj (smtpAddRcpt_body hrun)
      exact ⟨handle', hrun, by simp [hbody.1, MailCall.attached], hbody.2⟩
  | plain buffer =>
      obtain ⟨htexts, hbody⟩ := smtpAddPlain_body h
      obtain ⟨hattach, htexts'⟩ := Prod.mk.inj hbody
      refine ⟨_, congrArg Checked.done (Prod.ext h rfl), ?_, htexts, by simp, nofun, htexts'⟩
      simp [hattach, MailCall.attached]
  | html buffer altbuffer =>
      obtain ⟨htexts, hbuffer, hempty, hbody⟩ := smtpAddHtml_body h
      obtain ⟨hattach, htexts'⟩ := Prod.mk.inj hbody
      refine ⟨_, congrArg Checked.done (Prod.ext h rfl), ?_, htexts, ?_, hempty, htexts'⟩
      · simp [hattach, MailCall.attached]
      · exact fun heq => hbuffer (Prod.mk.inj heq).1
  | attachment filename name data len contenttype encoding =>
      obtain ⟨text, hencode⟩ := h
      have hattached : (MailCall.attachment filename name data len contenttype encoding).attached
          = some (newAttachment filename name text contenttype encoding) := by
        rw [MailCall.attached, hencode]
      refine ⟨{ handle with attachment := handle.attachment ++
        [newAttachment filename name text contenttype encoding] }, ?_, ?_, rfl⟩
      · rw [MailCall.run, smtpAddAttachment, hencode, Checked.done_bind]
        exact congrArg (· >>= _) (if_pos (hroom (by simp [hattached])))
      · rw [hattached]
        rfl

/-- **Without a place for it**, an attachment is stored behind the array. -/
lemma run_eq_fault {call : MailCall} (h : call.Succeeds handle) (hattached : call.attached ≠ none)
    (hfull : maxAttachments ≤ handle.attachment.length) : call.run handle = .fault := by
  cases call with
  | attachment filename name data len contenttype encoding =>
      obtain ⟨text, hencode⟩ := h
      rw [MailCall.run, smtpAddAttachment, hencode, Checked.done_bind]
      exact congrArg (· >>= _) (if_neg (Nat.not_lt.mpr hfull))
  | _ => exact absurd rfl hattached

end

/-! ## The calls -/

lemma attachmentsOf_cons (call : MailCall) (calls : List MailCall) :
    attachmentsOf (call :: calls) = call.attached.toList ++ attachmentsOf calls := by
  rw [attachmentsOf, List.filterMap_cons]
  cases call.attached <;> rfl

/-- **What a handle has that was built**, if there were places for the attachments. -/
theorem buildMail_done {calls : List MailCall} {handle : SmtpHandle} (h : AllSucceed calls handle)
    (hroom : handle.attachment.length + (attachmentsOf calls).length ≤ maxAttachments) :
    ∃ handle', buildMail calls handle = .done handle' ∧
      handle'.attachment = handle.attachment ++ attachmentsOf calls ∧
      handle'.texts = (if handle.texts = (none, none) then textsOf calls else handle.texts) ∧
      (handle.html ≠ some [] → handle'.html ≠ some []) := by
  induction calls generalizing handle with
  | nil =>
      refine ⟨handle, rfl, (List.append_nil _).symm, ?_, id⟩
      split_ifs with htexts
      · exact htexts
      · rfl
  | cons call calls ih =>
      obtain ⟨hcall, hrest⟩ := h
      rw [attachmentsOf_cons, List.length_append] at hroom
      have hplace : call.attached ≠ none → handle.attachment.length < maxAttachments := by
        intro hne
        obtain ⟨attach, hattach⟩ := Option.ne_none_iff_exists'.mp hne
        rw [hattach, Option.toList_some, List.length_singleton] at hroom
        omega
      obtain ⟨handle₁, hrun, hattach, htexts⟩ := run_of_succeeds hcall hplace
      have hroom₁ : handle₁.attachment.length + (attachmentsOf calls).length ≤ maxAttachments := by
        rw [hattach, List.length_append]
        omega
      obtain ⟨handle', hruns, hattach', htexts', hempty'⟩ := ih (hrest 0 handle₁ hrun) hroom₁
      refine ⟨handle', ?_, ?_, ?_, fun hempty => hempty' ?_⟩
      · rw [buildMail, hrun]
        exact hruns
      · rw [hattach', hattach, attachmentsOf_cons, List.append_assoc]
      · rw [htexts', textsOf, textsOf, List.findSome?_cons]
        cases hcalltexts : call.texts with
        | none =>
            rw [hcalltexts] at htexts
            rw [htexts]
        | some texts =>
            rw [hcalltexts] at htexts
            obtain ⟨hnone, hne, -, hnew⟩ := htexts
            rw [hnew, if_neg hne, if_pos hnone]
            rfl
      · cases hcalltexts : call.texts with
        | none =>
            rw [hcalltexts] at htexts
            rwa [(Prod.mk.inj htexts).1]
        | some texts =>
            rw [hcalltexts] at htexts
            obtain ⟨-, -, hne, hnew⟩ := htexts
            rwa [← hnew] at hne

/-- **Without places for all attachments**, one is stored behind the array. -/
theorem buildMail_fault {calls : List MailCall} {handle : SmtpHandle} (h : AllSucceed calls handle)
    (hfull : maxAttachments < handle.attachment.length + (attachmentsOf calls).length)
    (hle : handle.attachment.length ≤ maxAttachments) : buildMail calls handle = .fault := by
  induction calls generalizing handle with
  | nil => exact absurd hfull (Nat.not_lt.mpr hle)
  | cons call calls ih =>
      obtain ⟨hcall, hrest⟩ := h
      rw [attachmentsOf_cons, List.length_append] at hfull
      by_cases hplace : call.attached ≠ none → handle.attachment.length < maxAttachments
      · obtain ⟨handle₁, hrun, hattach, -⟩ := run_of_succeeds hcall hplace
        rw [buildMail, hrun]
        refine ih (hrest 0 handle₁ hrun) ?_ ?_
        · rw [hattach, List.length_append]
          omega
        · rw [hattach, List.length_append]
          cases hattached : call.attached with
          | none => simpa using hle
          | some attach => exact hplace (by simp [hattached])
      · push Not at hplace
        rw [buildMail, run_eq_fault hcall hplace.1 hplace.2]
        rfl

/-- The same from the beginning. -/
lemma buildMail_newHandle {calls : List MailCall} (h : AllSucceed calls newHandle)
    (hroom : (attachmentsOf calls).length ≤ maxAttachments) :
    ∃ handle, buildMail calls newHandle = .done handle ∧
      handle.attachment = attachmentsOf calls ∧ handle.texts = textsOf calls ∧
      handle.html ≠ some [] := by
  have hnew : newHandle.texts = (none, none) := rfl
  have hnone : newHandle.attachment = [] := rfl
  have hplaces : newHandle.attachment.length + (attachmentsOf calls).length ≤ maxAttachments := by
    rwa [hnone, List.length_nil, Nat.zero_add]
  obtain ⟨handle, hrun, hattach, htexts, hempty⟩ := buildMail_done h hplaces
  rw [hnone, List.nil_append] at hattach
  rw [if_pos hnew] at htexts
  exact ⟨handle, hrun, hattach, htexts, hempty nofun⟩

end G7
