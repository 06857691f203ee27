import G7Ctrl.Command.Gprs
import G7Ctrl.Tracker.Package

/-!
# Replies to `GETLOCATION`

The reply to `GETLOCATION` is a bare location record, and three functions recognise it by three
different tests.  `arrivingPackageType` counts its fields and looks at the event id,
`handleCmdReplyPackage` looks at the first character, and `handle_device_reply` also asks for more
than 60 characters.  On its way between the last two the record goes through the reply buffer of
the queue, which has 1024 bytes and takes at most 1022 characters.

* `LocationReply` — a record that `arrivingPackageType` takes for a reply.
* `handleCmdReplyPackage_gprs` — `handleCmdReplyPackage` is what the steps of a tracker thread
  amount to when nobody comes between them.
* **`LocationReply.accepted_iff`** — a record that was matched to a command reaches the client
  exactly when it is longer than 60 characters and not cut by the buffer.
-/

namespace G7

/-- `GFEN_TRACK_TAG` -/
def gfenTrackTag : CStr := str "TR48"

/-- `handleCmdReplyPackage`: the return code, the queue and the entry that got the reply.  `after`
is what the package buffer holds behind the package. -/
def handleCmdReplyPackage (cmdq : Cmdq) (cliDevid : ℕ) (buffer : CStr) (after : List Byte) :
    ℤ × Cmdq × Option CmdqueueIdx :=
  match replyTag cliDevid (buffer ++ 0 :: after) with
  | none => (-1, cmdq, none)
  | some tag =>
      match cmdqueueMatch cmdq cliDevid tag with
      | none => if tag ≠ gfenTrackTag then (-1, cmdq, none) else (0, cmdq, none)
      | some i => (0, cmdqueueSetValid (cmdqueueFill cmdq i buffer) i, some i)

/-- A round of the loop in `cmdqueue_check_reply` that finds a reply: what it copies to the
caller's buffer of `maxreply` bytes, and the queue without the entry. -/
def cmdqueueCheckReply (cmdq : Cmdq) (i : CmdqueueIdx) (maxreply : ℕ) : Option (CStr × Cmdq) :=
  if (cmdq i).validreply then some (xmbStrncpy (cmdq i).reply maxreply, cmdqueueClridx cmdq i)
  else none

/-- What a matched package does to the queue. -/
lemma handleCmdReplyPackage_some {cmdq cmdq' : Cmdq} {cliDevid : ℕ} {buffer : CStr}
    {after : List Byte} {rc : ℤ} {i : CmdqueueIdx}
    (h : handleCmdReplyPackage cmdq cliDevid buffer after = (rc, cmdq', some i)) :
    ∃ tag, replyTag cliDevid (buffer ++ 0 :: after) = some tag ∧
      cmdqueueMatch cmdq cliDevid tag = some i ∧
      cmdq' = cmdqueueSetValid (cmdqueueFill cmdq i buffer) i := by
  rw [handleCmdReplyPackage] at h
  cases htag : replyTag cliDevid (buffer ++ 0 :: after) with
  | none => simp [htag] at h
  | some tag =>
      simp only [htag] at h
      cases hi : cmdqueueMatch cmdq cliDevid tag with
      | none =>
          simp only [hi] at h
          split_ifs at h <;> simp at h
      | some j =>
          simp only [hi, Prod.mk.injEq, Option.some.injEq] at h
          obtain ⟨-, rfl, rfl⟩ := h
          exact ⟨tag, rfl, hi, rfl⟩

/-- A package whose command is found goes to the entry of the command. -/
lemma handleCmdReplyPackage_eq {cmdq : Cmdq} {cliDevid : ℕ} {buffer tag : CStr}
    {after : List Byte} {i : CmdqueueIdx}
    (htag : replyTag cliDevid (buffer ++ 0 :: after) = some tag)
    (hi : cmdqueueMatch cmdq cliDevid tag = some i) :
    handleCmdReplyPackage cmdq cliDevid buffer after
      = (0, cmdqueueSetValid (cmdqueueFill cmdq i buffer) i, some i) := by
  simp only [handleCmdReplyPackage, htag, hi]

/-- **The steps of a tracker thread, one after the other**, are `handleCmdReplyPackage`. -/
theorem handleCmdReplyPackage_gprs {C T : Type*} [DecidableEq C] [DecidableEq T]
    (deviceOf : T → ℕ) (cmdargToText : Option (CStr → List CStr → CStr × Bool)) {s : Gprs C T}
    {t : T} {r : SentReply C T} {after : List Byte} {rc : ℤ} {cmdq' : Cmdq} {i : CmdqueueIdx}
    (hidle : s.tracker t = .idle) (hr : r ∈ s.pending) (hconn : r.conn = t)
    (h : handleCmdReplyPackage s.cmdq (s.cliDevid t) r.text after = (rc, cmdq', some i)) :
    ∃ s', (gprsSystem deviceOf cmdargToText).run s [.matchReply t r after, .fill t, .setValid t]
        = some s' ∧ s'.cmdq = cmdq' := by
  obtain ⟨tag, htag, hi, rfl⟩ := handleCmdReplyPackage_some h
  have hmatch : gprsStep deviceOf cmdargToText s (.matchReply t r after)
      = some ({ s with pending := s.pending.erase r }.setTracker t
          (.matched r i (s.holder i))) := by
    simp [gprsStep, hidle, hr, hconn, Gprs.matchReply, htag, hi]
  simp only [StepSystem.run, StepSystem.runIf, gprsSystem, if_true, hmatch, Option.bind_some]
  simp only [gprsStep, Gprs.setTracker, Function.update_self, Option.bind_some]
  exact ⟨_, rfl, rfl⟩

/-- Not a reply with a name, and too short for a location record. -/
lemma handleDeviceReply_unknown (cmdargToText : Option (CStr → List CStr → CStr × Bool))
    (tagbuff : CStr) {mem : List Byte} (hlead : byteAt mem 0 ≠ ch '$')
    (hshort : (cstr mem).length ≤ 60) :
    (handleDeviceReply cmdargToText mem tagbuff).1 = -1 := by
  have hnone : extractDevcmdReply mem = none :=
    Option.eq_none_iff_forall_ne_some.mpr fun r hr => hlead (byteAt_of_extractDevcmdReply hr)
  rw [handleDeviceReply, if_neg fun h => Nat.not_lt.mpr hshort h.2.2]
  simp only [hnone]

/-- A location record without its `"\r\n"` that `arrivingPackageType` takes for the reply to a
`GETLOCATION`. -/
structure LocationReply where
  /-- The record. -/
  text : CStr
  /-- It is a string. -/
  noNul : (0 : Byte) ∉ text
  /-- It begins with a device id. -/
  lead : byteAt text 0 = ch '3'
  /-- It is classified as a reply. -/
  pkgType : arrivingPackageType (text ++ crlf) = some .cmdReply

namespace LocationReply

variable (e : LocationReply)

/-- The line as it arrives. -/
def line : CStr := e.text ++ crlf

lemma noNul_line : (0 : Byte) ∉ e.line := by
  have hcrlf : (0 : Byte) ∉ crlf := by decide
  exact fun h => (List.mem_append.mp h).elim e.noNul hcrlf

/-- What the client thread copies from the entry, the package having been copied to it. -/
def copied : CStr := xmbStrncpy (xmbStrncpy e.line 1023) 1024

lemma copied_of_lt (h : e.line.length < 1023) : e.copied = e.line := by
  rw [copied, xmbStrncpy_of_lt e.noNul_line h, xmbStrncpy_of_lt e.noNul_line (by omega)]

lemma copied_prefix : e.copied <+: e.line :=
  (List.take_prefix _ _).trans (List.take_prefix _ _)

/-- A line of 1023 characters is cut. -/
lemma copied_eq_line_iff : e.copied = e.line ↔ e.line.length < 1023 := by
  refine ⟨fun h => ?_, e.copied_of_lt⟩
  by_contra! hge
  have hcut := xmbStrncpy_length_lt e.noNul_line (by decide) hge
  have hle : e.copied.length ≤ (xmbStrncpy e.line 1023).length :=
    (List.take_prefix _ _).length_le
  rw [h] at hle
  omega

/-- A prefix of the line that ends in `"\r\n"` is the line itself or loses part of the record. -/
lemma finishReply_iff {cmdargToText : Option (CStr → List CStr → CStr × Bool)} {reply : CStr}
    (hpre : reply <+: e.line) (after : List Byte) (tagbuff : CStr) :
    finishReply cmdargToText reply after tagbuff = (0, deviceReplyPrompt ++ e.text) ↔
      reply = e.line ∧ 60 < e.text.length := by
  rw [finishReply]
  by_cases hcrlf : crlf <:+ reply
  · obtain ⟨u, rfl⟩ := hcrlf
    have hu : u <+: e.text :=
      List.prefix_of_prefix_length_le ((List.prefix_append _ _).trans hpre)
        (List.prefix_append _ _) (by simpa [line, crlf] using hpre.length_le)
    have hnul : (0 : Byte) ∉ u := fun h => e.noNul (hu.subset h)
    have htake : (u ++ crlf).take ((u ++ crlf).length - 2) = u := by simp [crlf]
    have heq : u ++ crlf = e.line ↔ u = e.text := List.append_left_inj crlf
    rw [if_pos (List.suffix_append _ _), htake, heq]
    by_cases hlong : u.length > 60
    · have hlead : byteAt (u ++ 0 :: lf :: 0 :: after) 0 = ch '3' := by
        have hne : u ≠ [] := by
          rintro rfl
          exact absurd hlong (by decide)
        obtain ⟨t, ht⟩ := hu
        rw [byteAt_append_zero hne, ← byteAt_append_zero hne t, ht, e.lead]
      rw [handleDeviceReply, cstr_append_nul hnul, hlead, if_pos ⟨by decide, rfl, hlong⟩,
        Prod.mk.injEq, List.append_cancel_left_eq]
      constructor
      · rintro ⟨-, rfl⟩
        exact ⟨rfl, hlong⟩
      · exact fun h => ⟨rfl, h.1⟩
    · have hlead : byteAt (u ++ 0 :: lf :: 0 :: after) 0 ≠ ch '$' := by
        cases u with
        | nil =>
            change (0 : Byte) ≠ ch '$'
            decide
        | cons c cs =>
            obtain ⟨t, ht⟩ := hu
            have hc : c = ch '3' := by rw [← e.lead, ← ht]; rfl
            rw [hc]
            change ch '3' ≠ ch '$'
            decide
      have hrc := handleDeviceReply_unknown cmdargToText tagbuff hlead
        (by rw [cstr_append_nul hnul]; exact Nat.not_lt.mp hlong)
      constructor
      · intro h
        rw [h] at hrc
        change (0 : ℤ) = -1 at hrc
        exact absurd hrc (by decide)
      · rintro ⟨rfl, h⟩
        exact absurd h hlong
  · rw [if_neg hcrlf]
    constructor
    · intro h
      have hrc : (-1 : ℤ) = 0 := congrArg Prod.fst h
      exact absurd hrc (by decide)
    · rintro ⟨rfl, -⟩
      exact absurd (List.suffix_append _ _) hcrlf

/-- The client whose command is at `i` in the queue is given the record, and 0 is returned. -/
def Reaches (cmdq : Cmdq) (i : CmdqueueIdx)
    (cmdargToText : Option (CStr → List CStr → CStr × Bool)) (after : List Byte)
    (tagbuff : CStr) : Prop :=
  ∃ reply cmdq', cmdqueueCheckReply cmdq i 1024 = some (reply, cmdq') ∧
    finishReply cmdargToText reply after tagbuff = (0, deviceReplyPrompt ++ e.text)

/-- **When the client gets the record**: it is longer than 60 characters, and the line is not cut. -/
theorem accepted_iff {cmdq cmdq' : Cmdq} {cliDevid : ℕ} {after : List Byte} {rc : ℤ}
    {i : CmdqueueIdx}
    (hmatch : handleCmdReplyPackage cmdq cliDevid e.line after = (rc, cmdq', some i))
    (cmdargToText : Option (CStr → List CStr → CStr × Bool)) (after' : List Byte)
    (tagbuff : CStr) :
    e.Reaches cmdq' i cmdargToText after' tagbuff ↔
      60 < e.text.length ∧ e.line.length < 1023 := by
  obtain ⟨tag, -, -, rfl⟩ := handleCmdReplyPackage_some hmatch
  have hreply : cmdqueueCheckReply (cmdqueueSetValid (cmdqueueFill cmdq i e.line) i) i 1024
      = some (e.copied, cmdqueueClridx (cmdqueueSetValid (cmdqueueFill cmdq i e.line) i) i) := by
    simp [cmdqueueCheckReply, cmdqueueSetValid, cmdqueueFill, copied]
  simp only [Reaches, hreply, Option.some.injEq, Prod.mk.injEq]
  constructor
  · rintro ⟨_, _, ⟨rfl, rfl⟩, h⟩
    obtain ⟨hline, hlong⟩ := (e.finishReply_iff e.copied_prefix after' tagbuff).mp h
    exact ⟨hlong, e.copied_eq_line_iff.mp hline⟩
  · rintro ⟨hlong, hfits⟩
    refine ⟨_, _, ⟨rfl, rfl⟩, (e.finishReply_iff e.copied_prefix after' tagbuff).mpr ?_⟩
    exact ⟨e.copied_eq_line_iff.mpr hfits, hlong⟩

/-- The queue of a server that waits for the reply of one device. -/
def waiting : Cmdq :=
  Function.update cmdqueueInit ⟨0, by decide⟩
    { CmdqueueEntry.zero with ts := 1391722977, devid := 3000000001, tag := str "0042"
                              cmd := str "$WP+GETLOCATION+0042=0000" }

/-- The same queue when the line has come. -/
def waited : Cmdq := (handleCmdReplyPackage waiting 3000000001 e.line []).2.1

/-- A record of a device that knows its position. -/
def withPosition : LocationReply where
  text := str "3000000001,20140206224257,17.960205,59.366856,0,0,0,4,0,4.12V,0"
  noNul := by decide +kernel
  lead := by decide +kernel
  pkgType := by decide +kernel

/-- Such a record reaches the client. -/
theorem withPosition_reaches :
    withPosition.Reaches withPosition.waited ⟨0, by decide⟩ none [] (str "0042") := by
  have htag : replyTag 3000000001 (withPosition.line ++ 0 :: []) = some [] := by decide +kernel
  have hfind : cmdqueueMatch waiting 3000000001 [] = some ⟨0, by decide⟩ := by decide +kernel
  have hmatch := handleCmdReplyPackage_eq htag hfind
  rw [waited, hmatch]
  exact (withPosition.accepted_iff hmatch none [] (str "0042")).mpr
    ⟨by decide +kernel, by decide +kernel⟩

/-- A record of eleven fields with short coordinates. -/
def withoutPosition : LocationReply where
  text := str "3000000001,20140206224257,0,0,0,0,0,4,0,4.12V,0"
  noNul := by decide +kernel
  lead := by decide +kernel
  pkgType := by decide +kernel

/-- It is matched to the command that waits for it, and then refused as incomplete. -/
theorem withoutPosition_refused :
    (handleCmdReplyPackage waiting 3000000001 withoutPosition.line []).2.2 = some ⟨0, by decide⟩ ∧
    (cmdqueueCheckReply withoutPosition.waited ⟨0, by decide⟩ 1024).map
        (fun r => finishReply none r.1 [] (str "0042"))
      = some (-1,
          str "[ERR] Incomplete reply from device \"" ++ withoutPosition.text ++ str "\"") ∧
    ¬ withoutPosition.Reaches withoutPosition.waited ⟨0, by decide⟩ none [] (str "0042") := by
  have hrefused : (cmdqueueCheckReply withoutPosition.waited ⟨0, by decide⟩ 1024).map
        (fun r => finishReply none r.1 [] (str "0042"))
      = some (-1,
          str "[ERR] Incomplete reply from device \"" ++ withoutPosition.text ++ str "\"") := by
    decide +kernel
  refine ⟨by decide +kernel, hrefused, ?_⟩
  rintro ⟨reply, cmdq', hreply, hfinish⟩
  rw [hreply, Option.map_some, hfinish] at hrefused
  have hrc : (0 : ℤ) = -1 := congrArg Prod.fst (Option.some.inj hrefused)
  exact absurd hrc (by decide)

end LocationReply

end G7
