import G7Ctrl.Command.Slots
import Mathlib.Data.Fintype.Card

/-!
# Does every client get the reply to its own command?

A tracker thread hands a reply to the *first* queue entry that fits, and then writes to that entry
without any lock.  Two things can go wrong, and nothing else can:

* the entry that fits first is the one of another command — a `GETLOCATION` reply has no tag and
  fits every command to its device;
* the client gives up and clears the entry between the match and the writes.

`GprsOrderly` excludes exactly these steps, and the invariant `RepliesOk` holds as long as it does.
`TagsApart` says what keeps replies and commands apart: no other command outstanding to the device
has the tag of a reply, and none is outstanding when a reply without a tag comes.
**`replies_matched`**: in every run whose steps all meet it, what a client is handed is the answer
of the device it targeted to its own command, and an entry that is about to be written is still held
by the command it was matched for.  `untaggedReply_misdelivered` is a run of two clients, one device
and one location reply in which this fails.
-/

namespace G7

variable {C T : Type*} (deviceOf : T → ℕ)

/-- Reply `r` was sent in answer to `call` by the device the call targets. -/
def SentReply.Answers (r : SentReply C T) (call : GprsCall C) : Prop :=
  r.answers = some call ∧ deviceOf r.conn = call.deviceid

/-- **The reply matching is right** in a state. -/
structure RepliesMatched (s : Gprs C T) : Prop where
  /-- What a client is handed is a reply to its own command, from the device it targeted. -/
  handed : ∀ c call i reply, s.client c = .copied call i reply →
    ∃ r ∈ s.sent, r.Answers deviceOf call ∧ reply = xmbStrncpy (xmbStrncpy r.text 1023) 1024
  /-- A slot a tracker thread is about to write to is held by the command it was matched for. -/
  written : ∀ t r i h, (s.tracker t).target = some (r, i, h) → s.holder i = h ∧ h = r.answers

/-- The step is not one of the two by which a reply gets lost or to the wrong client: the first
entry that fits a reply is the one of the command it answers, and a client does not clear an entry
that a tracker thread is about to write to. -/
def GprsOrderly (s : Gprs C T) : GprsAction C T → Prop
  | .matchReply t r after =>
      ∀ tag i, replyTag (s.cliDevid t) (r.text ++ 0 :: after) = some tag →
        (s.cmdq i).isMatch (s.cliDevid t) tag = true →
        (∀ j < i, (s.cmdq j).isMatch (s.cliDevid t) tag = false) → s.holder i = r.answers
  | .clear c _ =>
      ∀ call i, (s.client c).slot = some (call, i) →
        ∀ t r h, (s.tracker t).target ≠ some (r, i, h)
  | _ => True

/-- A command to a device is outstanding, and the reply is not the answer to it. -/
structure OtherOutstanding (s : Gprs C T) (devid : ℕ) (r : SentReply C T) (call : GprsCall C) :
    Prop where
  held : ∃ i, s.holder i = some call
  deviceid : call.deviceid = devid
  other : r.answers ≠ some call

/-- When a reply is looked up, no other command outstanding to the device of the connection has its
tag, and if it has no tag no other command is outstanding; and a client does not clear an entry
that a tracker thread is about to write to. -/
def TagsApart (s : Gprs C T) : GprsAction C T → Prop
  | .matchReply t r after =>
      ∀ tag, replyTag (s.cliDevid t) (r.text ++ 0 :: after) = some tag →
        ∀ call, OtherOutstanding s (s.cliDevid t) r call → tag ≠ [] ∧ call.tag ≠ tag
  | .clear c _ =>
      ∀ call i, (s.client c).slot = some (call, i) →
        ∀ t r h, (s.tracker t).target ≠ some (r, i, h)
  | _ => True

/-- The entry at `i` has the reply to the command that holds it. -/
def Carries (s : Gprs C T) (i : CmdqueueIdx) : Prop :=
  ∃ r ∈ s.sent, ∃ call, s.holder i = some call ∧ r.Answers deviceOf call ∧
    (s.cmdq i).reply = xmbStrncpy r.text 1023

/-- The invariant behind `RepliesMatched`. -/
structure RepliesOk (s : Gprs C T) : Prop where
  devid : ∀ t, s.cliDevid t = 0 ∨ s.cliDevid t = deviceOf t
  pending : ∀ r ∈ s.pending, r ∈ s.sent
  /-- An entry nobody holds has no valid reply, so the next command starts without one. -/
  clean : ∀ i, s.holder i = none → (s.cmdq i).validreply = false
  valid : ∀ i, (s.cmdq i).validreply = true → Carries deviceOf s i
  target : ∀ t r i h, (s.tracker t).target = some (r, i, h) →
    r ∈ s.sent ∧ s.holder i = h ∧ ∃ call, h = some call ∧ r.Answers deviceOf call
  filled : ∀ t r i h, s.tracker t = .filled r i h → Carries deviceOf s i
  replied : ∀ c call i, s.client c = .replied call i → Carries deviceOf s i
  copied : ∀ c call i reply, s.client c = .copied call i reply →
    ∃ r ∈ s.sent, r.Answers deviceOf call ∧ reply = xmbStrncpy (xmbStrncpy r.text 1023) 1024

variable {deviceOf} {cmdargToText : Option (CStr → List CStr → CStr × Bool)}
variable {s s' : Gprs C T} {a : GprsAction C T}

/-- An entry carries its reply as long as holder and reply stay and no reply is forgotten. -/
lemma Carries.frame {i : CmdqueueIdx} (h : Carries deviceOf s i)
    (hsent : ∀ r ∈ s.sent, r ∈ s'.sent) (hholder : s'.holder i = s.holder i)
    (hreply : (s'.cmdq i).reply = (s.cmdq i).reply) : Carries deviceOf s' i := by
  obtain ⟨r, hr, call, hh, hans, htext⟩ := h
  exact ⟨r, hsent r hr, call, hholder.trans hh, hans, hreply.trans htext⟩

namespace RepliesOk

lemma init (h : s.Init) : RepliesOk deviceOf s where
  devid t := .inl (h.cliDevid_eq t)
  pending r hr := by simp [h.pending_eq] at hr
  clean i _ := by simp [h.cmdq_eq, cmdqueueInit, CmdqueueEntry.zero]
  valid i hv := by simp [h.cmdq_eq, cmdqueueInit, CmdqueueEntry.zero] at hv
  target t r i hh ht := by simp [h.tracker_eq t, TrackerPc.target] at ht
  filled t r i hh ht := by simp [h.tracker_eq t] at ht
  replied c call i hc := by simp [h.client_eq c] at hc
  copied c call i reply hc := by simp [h.client_eq c] at hc

/-- The invariant has what is asked for. -/
lemma repliesMatched (h : RepliesOk deviceOf s) : RepliesMatched deviceOf s where
  handed := h.copied
  written t r i hh ht := by
    obtain ⟨-, hholder, call, hcall, hans⟩ := h.target t r i hh ht
    exact ⟨hholder, hcall.trans hans.1.symm⟩

variable [DecidableEq C] [DecidableEq T]

omit [DecidableEq T] in
/-- A client moves on: what it reads must be right. -/
lemma setClient (h : RepliesOk deviceOf s) {c : C} {pc : ClientPc C}
    (hreplied : ∀ call i, pc = .replied call i → Carries deviceOf s i)
    (hcopied : ∀ call i reply, pc = .copied call i reply →
      ∃ r ∈ s.sent, r.Answers deviceOf call ∧ reply = xmbStrncpy (xmbStrncpy r.text 1023) 1024) :
    RepliesOk deviceOf (s.setClient c pc) :=
  { h with
    replied := fun c' call i hc' => by
      by_cases hcc : c' = c
      · subst hcc
        simp only [Gprs.setClient, Function.update_self] at hc'
        exact hreplied call i hc'
      · simp only [Gprs.setClient, Function.update_of_ne hcc] at hc'
        exact h.replied c' call i hc'
    copied := fun c' call i reply hc' => by
      by_cases hcc : c' = c
      · subst hcc
        simp only [Gprs.setClient, Function.update_self] at hc'
        exact hcopied call i reply hc'
      · simp only [Gprs.setClient, Function.update_of_ne hcc] at hc'
        exact h.copied c' call i reply hc' }

omit [DecidableEq T] in
/-- A client that ends or starts its call reads nothing. -/
lemma setClient_of_ne (h : RepliesOk deviceOf s) {c : C} {pc : ClientPc C}
    (hreplied : ∀ call i, pc ≠ .replied call i)
    (hcopied : ∀ call i reply, pc ≠ .copied call i reply) :
    RepliesOk deviceOf (s.setClient c pc) :=
  h.setClient (fun call i hpc => absurd hpc (hreplied call i))
    fun call i reply hpc => absurd hpc (hcopied call i reply)

omit [DecidableEq T] in
/-- A command takes a free entry, which has no valid reply. -/
lemma insert (h : RepliesOk deviceOf s) (hok : SlotsOk s) {c : C} {sockd : ℤ} {deviceid : ℕ}
    {tag cmd : CStr} {cmdq : Cmdq} {i : CmdqueueIdx}
    (hins : cmdqueueInsert s.cmdqLen s.cmdq s.now sockd deviceid tag cmd = some (cmdq, i))
    (call : GprsCall C) (n : ℕ) :
    RepliesOk deviceOf
      { s.setClient c (.inserted call i) with
        cmdq := cmdq, holder := Function.update s.holder i (some call), nextId := n } := by
  obtain ⟨hfree, -, rfl⟩ := cmdqueueInsert_some hins
  have hnone := (hok.isFree_iff i).mp hfree
  have hclient : RepliesOk deviceOf (s.setClient c (.inserted call i)) :=
    h.setClient_of_ne (by simp) (by simp)
  have hheld : ∀ j, Carries deviceOf s j → j ≠ i := by
    rintro _ ⟨_, _, _, hh, _⟩ rfl
    rw [hnone] at hh
    contradiction
  have hframe : ∀ j, Carries deviceOf s j → Carries deviceOf
      { s.setClient c (.inserted call i) with
        cmdq := Function.update s.cmdq i
          { s.cmdq i with
            ts := s.now, devid := deviceid, userSockd := sockd, tag := tag, cmd := cmd }
        holder := Function.update s.holder i (some call), nextId := n } j :=
    fun j hj => hj.frame (fun _ hr => hr) (by simp [hheld j hj]) (by simp [hheld j hj])
  constructor
  case devid => exact h.devid
  case pending => exact h.pending
  case clean =>
      intro j hj
      by_cases hji : j = i
      · subst hji
        simp at hj
      · simp only [Function.update_of_ne hji] at hj ⊢
        exact h.clean j hj
  case valid =>
      intro j hv
      by_cases hji : j = i
      · subst hji
        simp only [Function.update_self] at hv
        rw [h.clean j hnone] at hv
        contradiction
      · simp only [Function.update_of_ne hji] at hv
        exact hframe j (h.valid j hv)
  case target =>
      intro t r j hh ht
      obtain ⟨hr, hholder, call', hcall', hans⟩ := h.target t r j hh ht
      have hji : j ≠ i := by
        rintro rfl
        rw [hnone, hcall'] at hholder
        contradiction
      exact ⟨hr, by simpa [hji] using hholder, call', hcall', hans⟩
  case filled => exact fun t r j hh ht => hframe j (h.filled t r j hh ht)
  case replied =>
      intro c' call' j hc'
      by_cases hcc : c' = c
      · subst hcc
        simp [Gprs.setClient] at hc'
      · simp only [Gprs.setClient, Function.update_of_ne hcc] at hc'
        exact hframe j (h.replied c' call' j hc')
  case copied => exact hclient.copied

omit [DecidableEq T] in
/-- A client clears its entry while no tracker thread is about to write to it. -/
lemma clear (h : RepliesOk deviceOf s) (hok : SlotsOk s) {c : C} {call : GprsCall C}
    {i : CmdqueueIdx} (hc : (s.client c).slot = some (call, i))
    (hno : ∀ t r hh, (s.tracker t).target ≠ some (r, i, hh)) (rc : ℤ × CStr) :
    RepliesOk deviceOf (s.clear c i rc) := by
  have hclient : RepliesOk deviceOf (s.setClient c .idle) := h.setClient_of_ne (by simp) (by simp)
  have hframe : ∀ j, j ≠ i → Carries deviceOf s j → Carries deviceOf (s.clear c i rc) j :=
    fun j hji hj => hj.frame (fun _ hr => hr) (by simp [Gprs.clear, hji])
      (by simp [Gprs.clear, cmdqueueClridx, hji])
  constructor
  case devid => exact h.devid
  case pending => exact h.pending
  case clean =>
      intro j hj
      by_cases hji : j = i
      · subst hji
        simp [Gprs.clear, cmdqueueClridx, CmdqueueEntry.zero]
      · simp only [Gprs.clear, cmdqueueClridx, Function.update_of_ne hji] at hj ⊢
        exact h.clean j hj
  case valid =>
      intro j hv
      by_cases hji : j = i
      · subst hji
        simp [Gprs.clear, cmdqueueClridx, CmdqueueEntry.zero] at hv
      · simp only [Gprs.clear, cmdqueueClridx, Function.update_of_ne hji] at hv
        exact hframe j hji (h.valid j hv)
  case target =>
      intro t r j hh ht
      have hji : j ≠ i := by
        rintro rfl
        exact hno t r hh ht
      obtain ⟨hr, hholder, hans⟩ := h.target t r j hh ht
      exact ⟨hr, by simpa [Gprs.clear, hji] using hholder, hans⟩
  case filled =>
      intro t r j hh ht
      have ht' : s.tracker t = .filled r j hh := ht
      refine hframe j ?_ (h.filled t r j hh ht')
      rintro rfl
      exact hno t r hh (by rw [ht']; rfl)
  case replied =>
      intro c' call' j hc'
      by_cases hcc : c' = c
      · subst hcc
        simp [Gprs.clear, Gprs.finishCall, Gprs.setClient] at hc'
      · simp only [Gprs.clear, Gprs.finishCall, Gprs.setClient, Function.update_of_ne hcc] at hc'
        refine hframe j ?_ (h.replied c' call' j hc')
        rintro rfl
        exact hcc (hok.slot_injective (by rw [hc']; rfl) hc)
  case copied => exact hclient.copied

omit [DecidableEq C] [DecidableEq T] in
/-- A reply is sent. -/
lemma send (h : RepliesOk deviceOf s) (r : SentReply C T) : RepliesOk deviceOf (s.send r) := by
  have hsent : ∀ r' ∈ s.sent, r' ∈ (s.send r).sent := fun r' hr' => List.mem_append_left _ hr'
  have hframe : ∀ j, Carries deviceOf s j → Carries deviceOf (s.send r) j :=
    fun j hj => hj.frame hsent rfl rfl
  constructor
  case devid => exact h.devid
  case pending =>
      intro r' hr'
      rcases List.mem_append.mp hr' with hr' | hr'
      · exact hsent r' (h.pending r' hr')
      · exact List.mem_append_right _ hr'
  case clean => exact h.clean
  case valid => exact fun j hv => hframe j (h.valid j hv)
  case target =>
      intro t r' j hh ht
      obtain ⟨hr', hrest⟩ := h.target t r' j hh ht
      exact ⟨hsent r' hr', hrest⟩
  case filled => exact fun t r' j hh ht => hframe j (h.filled t r' j hh ht)
  case replied => exact fun c call j hc => hframe j (h.replied c call j hc)
  case copied =>
      intro c call j reply hc
      obtain ⟨r', hr', hans⟩ := h.copied c call j reply hc
      exact ⟨r', hsent r' hr', hans⟩

omit [DecidableEq C] in
/-- A tracker thread moves on: the entry it has found must be held by the command it answers. -/
lemma setTracker (h : RepliesOk deviceOf s) {t : T} {pc : TrackerPc C T}
    (htarget : ∀ r i hh, pc.target = some (r, i, hh) →
      r ∈ s.sent ∧ s.holder i = hh ∧ ∃ call, hh = some call ∧ r.Answers deviceOf call)
    (hfilled : ∀ r i hh, pc = .filled r i hh → Carries deviceOf s i) :
    RepliesOk deviceOf (s.setTracker t pc) :=
  { h with
    target := fun t' r i hh ht => by
      by_cases htt : t' = t
      · subst htt
        simp only [Gprs.setTracker, Function.update_self] at ht
        exact htarget r i hh ht
      · simp only [Gprs.setTracker, Function.update_of_ne htt] at ht
        exact h.target t' r i hh ht
    filled := fun t' r i hh ht => by
      by_cases htt : t' = t
      · subst htt
        simp only [Gprs.setTracker, Function.update_self] at ht
        exact hfilled r i hh ht
      · simp only [Gprs.setTracker, Function.update_of_ne htt] at ht
        exact h.filled t' r i hh ht }

/-- **An orderly match** finds the entry of the command that is answered, and that command went to
the device of this connection. -/
lemma matchReply (h : RepliesOk deviceOf s) (hok : SlotsOk s) {t : T} {r : SentReply C T}
    {after : List Byte} (hr : r ∈ s.pending) (hconn : r.conn = t)
    (hord : GprsOrderly s (.matchReply t r after)) :
    RepliesOk deviceOf (s.matchReply t r after) := by
  have hdrop : RepliesOk deviceOf { s with pending := s.pending.erase r } :=
    { h with pending := fun r' hr' => h.pending r' (List.mem_of_mem_erase hr') }
  simp only [Gprs.matchReply]
  split
  · exact hdrop
  · rename_i tag htag
    split
    · exact hdrop
    · rename_i i hi
      obtain ⟨hmatch, hfirst⟩ := cmdqueueMatch_eq_some_iff.mp hi
      have hanswers : s.holder i = r.answers := hord tag i htag hmatch hfirst
      obtain ⟨hne, hdev, -⟩ := CmdqueueEntry.isMatch_eq_true.mp hmatch
      obtain ⟨call, hcall, hcli, -⟩ := hok.holder_of_isMatch hmatch
      have hdevid : deviceOf r.conn = call.deviceid := by
        rcases h.devid t with h0 | hdevt
        · rw [hdev, h0] at hne
          exact absurd rfl hne
        · rw [hconn, ← hdevt, hcli]
      refine hdrop.setTracker (fun r' j hh hpc => ?_) (by simp)
      simp only [TrackerPc.target, Option.some.injEq, Prod.mk.injEq] at hpc
      obtain ⟨rfl, rfl, rfl⟩ := hpc
      exact ⟨h.pending r hr, rfl, call, hcall, hanswers.symm.trans hcall, hdevid⟩

omit [DecidableEq C] in
/-- Filling the entry that was found. -/
lemma fill (h : RepliesOk deviceOf s) {t : T} {r : SentReply C T} {i : CmdqueueIdx}
    {hh : Option (GprsCall C)} (ht : s.tracker t = .matched r i hh) :
    RepliesOk deviceOf
      { s.setTracker t (.filled r i hh) with cmdq := cmdqueueFill s.cmdq i r.text } := by
  obtain ⟨hr, hholder, call, hcall, hans⟩ := h.target t r i hh (by rw [ht]; rfl)
  have hcarries : Carries deviceOf { s with cmdq := cmdqueueFill s.cmdq i r.text } i :=
    ⟨r, hr, call, hholder.trans hcall, hans, by simp [cmdqueueFill]⟩
  have hframe : ∀ j, Carries deviceOf s j →
      Carries deviceOf { s with cmdq := cmdqueueFill s.cmdq i r.text } j := by
    intro j hj
    by_cases hji : j = i
    · exact hji ▸ hcarries
    · exact hj.frame (fun _ hr => hr) rfl (by simp [cmdqueueFill, hji])
  have hvalid : ∀ j, (cmdqueueFill s.cmdq i r.text j).validreply = (s.cmdq j).validreply := by
    intro j
    by_cases hji : j = i
    · subst hji
      simp [cmdqueueFill]
    · simp [cmdqueueFill, hji]
  have hfill : RepliesOk deviceOf { s with cmdq := cmdqueueFill s.cmdq i r.text } :=
    { h with
      clean := fun j hj => (hvalid j).trans (h.clean j hj)
      valid := fun j hv => hframe j (h.valid j ((hvalid j).symm.trans hv))
      filled := fun t' r' j hh' ht' => hframe j (h.filled t' r' j hh' ht')
      replied := fun c call' j hc => hframe j (h.replied c call' j hc) }
  refine hfill.setTracker (fun r' j hh' hpc => ?_) (fun r' j hh' hpc => ?_)
  · simp only [TrackerPc.target, Option.some.injEq, Prod.mk.injEq] at hpc
    obtain ⟨rfl, rfl, rfl⟩ := hpc
    exact ⟨hr, hholder, call, hcall, hans⟩
  · simp only [TrackerPc.filled.injEq] at hpc
    obtain ⟨rfl, rfl, rfl⟩ := hpc
    exact hcarries

omit [DecidableEq C] in
/-- Setting `validreply` of an entry that has been filled. -/
lemma setValid (h : RepliesOk deviceOf s) {t : T} {r : SentReply C T} {i : CmdqueueIdx}
    {hh : Option (GprsCall C)} (ht : s.tracker t = .filled r i hh) :
    RepliesOk deviceOf
      { s.setTracker t .idle with cmdq := cmdqueueSetValid s.cmdq i } := by
  obtain ⟨-, hholder, call, hcall, -⟩ := h.target t r i hh (by rw [ht]; rfl)
  have hframe : ∀ j, Carries deviceOf s j →
      Carries deviceOf { s with cmdq := cmdqueueSetValid s.cmdq i } j := by
    intro j hj
    refine hj.frame (fun _ hr => hr) rfl ?_
    by_cases hji : j = i
    · subst hji
      simp [cmdqueueSetValid]
    · simp [cmdqueueSetValid, hji]
  have hset : RepliesOk deviceOf { s with cmdq := cmdqueueSetValid s.cmdq i } :=
    { h with
      clean := fun j hj => by
        have hji : j ≠ i := by
          rintro rfl
          have hnone : s.holder j = none := hj
          rw [hnone, hcall] at hholder
          contradiction
        simpa [cmdqueueSetValid, hji] using h.clean j hj
      valid := fun j hv => by
        by_cases hji : j = i
        · exact hji ▸ hframe i (h.filled t r i hh ht)
        · simp only [cmdqueueSetValid, Function.update_of_ne hji] at hv
          exact hframe j (h.valid j hv)
      filled := fun t' r' j hh' ht' => hframe j (h.filled t' r' j hh' ht')
      replied := fun c call' j hc => hframe j (h.replied c call' j hc) }
  exact hset.setTracker (by simp [TrackerPc.target]) (by simp)

/-- **Every orderly step keeps the replies in order.** -/
theorem step (h : RepliesOk deviceOf s) (hok : SlotsOk s) (hord : GprsOrderly s a)
    (hstep : gprsStep deviceOf cmdargToText s a = some s') : RepliesOk deviceOf s' := by
  cases a with
  | tick =>
      simp only [gprsStep, Option.some.injEq] at hstep
      subst hstep
      exact { h with }
  | keepAlive t =>
      simp only [gprsStep, Option.some.injEq] at hstep
      subst hstep
      refine { h with devid := fun t' => ?_ }
      by_cases htt : t' = t
      · subst htt
        simp
      · simpa [htt] using h.devid t'
  | insert c sockd deviceid tag cmd =>
      simp only [gprsStep] at hstep
      split at hstep <;> try contradiction
      simp only [Option.some.injEq, Gprs.insert] at hstep
      split at hstep
      · subst hstep
        have hidle : RepliesOk deviceOf (s.setClient c .idle) :=
          h.setClient_of_ne (by simp) (by simp)
        exact { hidle with }
      · rename_i cmdq i hins
        subst hstep
        exact h.insert hok hins _ _
  | write c t complete =>
      simp only [gprsStep] at hstep
      split at hstep <;> try contradiction
      rename_i call i hc
      split_ifs at hstep
      simp only [Option.some.injEq] at hstep
      subst hstep
      cases complete with
      | true =>
          have hpoll : RepliesOk deviceOf
              (s.setClient c (.polling call i ((s.cmdq i).ts % 2 ^ 32))) :=
            h.setClient_of_ne (by simp) (by simp)
          exact { hpoll with }
      | false =>
          have hidle : RepliesOk deviceOf (s.setClient c .idle) :=
            h.setClient_of_ne (by simp) (by simp)
          exact { hidle with }
  | poll c =>
      simp only [gprsStep] at hstep
      split at hstep <;> try contradiction
      rename_i call i ts hc
      split at hstep <;> simp only [Option.some.injEq] at hstep <;> subst hstep
      · rename_i hpoll
        have hv : (s.cmdq i).validreply = true := by
          simp only [cmdqueuePoll] at hpoll
          split_ifs at hpoll with hv
          exact hv
        refine h.setClient (fun call' j hpc => ?_) (by simp)
        simp only [ClientPc.replied.injEq] at hpc
        obtain ⟨rfl, rfl⟩ := hpc
        exact h.valid i hv
      · exact h.setClient_of_ne (by simp) (by simp)
      · exact h
  | copy c =>
      simp only [gprsStep] at hstep
      split at hstep <;> try contradiction
      rename_i call i hc
      simp only [Option.some.injEq] at hstep
      subst hstep
      refine h.setClient (by simp) fun call' j reply hpc => ?_
      simp only [ClientPc.copied.injEq] at hpc
      obtain ⟨rfl, rfl, rfl⟩ := hpc
      -- the entry carries a reply to the command that holds it, which is the client's
      obtain ⟨r, hr, call', hholder, hans, htext⟩ := h.replied c call i hc
      have howner := (hok.owner c call i (by rw [hc]; rfl)).2
      rw [hholder, Option.some.injEq] at howner
      subst howner
      exact ⟨r, hr, hans, by rw [htext]⟩
  | clear c after =>
      simp only [gprsStep] at hstep
      split at hstep <;> try contradiction
      all_goals
        rename_i hc
        simp only [Option.some.injEq] at hstep
        subst hstep
        exact h.clear hok (by rw [hc]; rfl) (hord _ _ (by rw [hc]; rfl)) _
  | answer t call text =>
      simp only [gprsStep] at hstep
      split_ifs at hstep
      simp only [Option.some.injEq] at hstep
      subst hstep
      exact h.send _
  | unsolicited t text =>
      simp only [gprsStep, Option.some.injEq] at hstep
      subst hstep
      exact h.send _
  | matchReply t r after =>
      simp only [gprsStep] at hstep
      split at hstep <;> try contradiction
      split_ifs at hstep with hr
      simp only [Option.some.injEq] at hstep
      subst hstep
      exact h.matchReply hok hr.1 hr.2 hord
  | fill t =>
      simp only [gprsStep] at hstep
      split at hstep <;> try contradiction
      rename_i ht
      simp only [Option.some.injEq] at hstep
      subst hstep
      exact h.fill ht
  | setValid t =>
      simp only [gprsStep] at hstep
      split at hstep <;> try contradiction
      rename_i ht
      simp only [Option.some.injEq] at hstep
      subst hstep
      exact h.setValid ht

end RepliesOk

variable [DecidableEq C] [DecidableEq T]

omit [DecidableEq C] [DecidableEq T] in
/-- An entry that fits a reply is then the one of the command it answers. -/
lemma TagsApart.gprsOrderly (h : TagsApart s a) (hok : SlotsOk s) : GprsOrderly s a := by
  cases a with
  | matchReply t r after =>
      intro tag i htag hmatch _
      obtain ⟨call, hcall, hdev, hsame⟩ := hok.holder_of_isMatch hmatch
      rw [hcall]
      by_contra hne
      obtain ⟨hnil, hother⟩ := h tag htag call ⟨⟨i, hcall⟩, hdev, fun heq => hne heq.symm⟩
      exact hother (hsame hnil)
  | clear c after => exact h
  | tick => trivial
  | keepAlive t => trivial
  | insert c sockd deviceid tag cmd => trivial
  | write c t complete => trivial
  | poll c => trivial
  | copy c => trivial
  | answer t call text => trivial
  | unsolicited t text => trivial
  | fill t => trivial
  | setValid t => trivial

/-- **Every client gets the reply to its own command**, in every run in which the tags keep the
commands apart. -/
theorem replies_matched
    (h : (gprsSystem deviceOf cmdargToText).ReachableIf TagsApart s) :
    RepliesMatched deviceOf s := by
  have hreplies : RepliesOk deviceOf s := by
    refine h.invariant (fun _ => .init) fun s _ _ hr hs happart hstep => ?_
    have hok : SlotsOk s := .reachableIf hr
    exact hs.step hok (happart.gprsOrderly hok) hstep
  exact hreplies.repliesMatched

/-! ## Two runs -/

instance [Fintype T] (s : Gprs C T) (a : GprsAction C T) : Decidable (GprsOrderly s a) :=
  match a with
  | .matchReply t r after =>
      decidable_of_iff
        (∀ tag ∈ replyTag (s.cliDevid t) (r.text ++ 0 :: after),
          ∀ i ∈ cmdqueueMatch s.cmdq (s.cliDevid t) tag, s.holder i = r.answers)
        ⟨fun h tag i htag hm hfirst => h tag htag i (cmdqueueMatch_eq_some_iff.mpr ⟨hm, hfirst⟩),
          fun h tag htag i hi =>
            have hmatch := cmdqueueMatch_eq_some_iff.mp hi
            h tag i htag hmatch.1 hmatch.2⟩
  | .clear c _ =>
      decidable_of_iff
        (∀ x ∈ (s.client c).slot, ∀ t, ∀ y ∈ (s.tracker t).target, y.2.1 ≠ x.2)
        ⟨fun h call i hc t r hh ht => h (call, i) hc t (r, i, hh) ht rfl,
          fun h x hx t y hy heq =>
            h x.1 x.2 hx t y.1 y.2.2 (by rw [← heq]; exact hy)⟩
  | .tick | .keepAlive _ | .insert .. | .write .. | .poll _ | .copy _ | .answer .. |
    .unsolicited .. | .fill _ | .setValid _ => isTrue trivial

instance [Fintype T] (s : Gprs C T) (a : GprsAction C T) : Decidable (TagsApart s a) :=
  match a with
  | .matchReply t r after =>
      decidable_of_iff
        (∀ tag ∈ replyTag (s.cliDevid t) (r.text ++ 0 :: after), ∀ i, ∀ call ∈ s.holder i,
          call.deviceid = s.cliDevid t → r.answers ≠ some call → tag ≠ [] ∧ call.tag ≠ tag)
        ⟨fun h tag htag call hother =>
            hother.held.elim fun i hi => h tag htag i call hi hother.deviceid hother.other,
          fun h tag htag i call hi hdev hne => h tag htag call ⟨⟨i, hi⟩, hdev, hne⟩⟩
  | .clear c after => inferInstanceAs (Decidable (GprsOrderly s (.clear c after)))
  | .tick | .keepAlive _ | .insert .. | .write .. | .poll _ | .copy _ | .answer .. |
    .unsolicited .. | .fill _ | .setValid _ => isTrue trivial

/-- Two clients ask a device for its state, and it answers the second one first. -/
def askState : List (GprsAction Bool Unit) :=
  let call : GprsCall Bool := ⟨false, 0, 5, 3000000001, str "0042", str "$WP+GETSTATE+0042=0000"⟩
  let call' : GprsCall Bool := ⟨true, 1, 6, 3000000001, str "0043", str "$WP+GETSTATE+0043=0000"⟩
  let r : SentReply Bool Unit := ⟨(), some call, str "$OK:GETSTATE+0042=1\r\n"⟩
  let r' : SentReply Bool Unit := ⟨(), some call', str "$OK:GETSTATE+0043=1\r\n"⟩
  [.keepAlive (),
   .insert false call.sockd call.deviceid call.tag call.cmd, .write false () true,
   .insert true call'.sockd call'.deviceid call'.tag call'.cmd, .write true () true,
   .answer () call' r'.text, .answer () call r.text,
   .matchReply () r' [], .fill (), .setValid (), .matchReply () r [], .fill (), .setValid (),
   .poll false, .copy false, .poll true, .copy true]

set_option maxRecDepth 10000 in
/-- In the run of `askState` the tags keep the commands apart, and each client has its answer. -/
theorem replies_matched_askState :
    ∃ s, (gprsSystem (fun _ => 3000000001) none).runIf TagsApart (Gprs.start 1) askState
        = some s ∧
      (∃ call i, s.client false = .copied call i (str "$OK:GETSTATE+0042=1\r\n")) ∧
      (∃ call i, s.client true = .copied call i (str "$OK:GETSTATE+0043=1\r\n")) ∧
      RepliesMatched (fun _ => 3000000001) s := by
  have hrun : (gprsSystem (fun _ => 3000000001) none).runIf TagsApart (Gprs.start 1) askState
      = some _ := rfl
  exact ⟨_, hrun, ⟨_, _, rfl⟩, ⟨_, _, rfl⟩,
    replies_matched (StepSystem.reachableIf_runIf (.start (Gprs.start_init one_pos)) hrun)⟩

/-- Two clients have each sent a command to the same device, and the device answers the second one,
a `GETLOCATION`, first.  The answer has no tag and fits the entry of the first client. -/
def askLocation : List (GprsAction Bool Unit) :=
  let call : GprsCall Bool :=
    ⟨true, 1, 6, 3000000001, str "0043", str "$WP+GETLOCATION+0043=0000"⟩
  let r : SentReply Bool Unit :=
    ⟨(), some call, str "3000000001,20140206224257,17.960205,59.366856,0,0,0,4,0,4.12V,0\r\n"⟩
  [.keepAlive (),
   .insert false 5 3000000001 (str "0042") (str "$WP+GETSTATE+0042=0000"), .write false () true,
   .insert true call.sockd call.deviceid call.tag call.cmd, .write true () true,
   .answer () call r.text, .matchReply () r [], .fill (), .setValid (),
   .poll false, .copy false]

set_option maxRecDepth 10000 in
/-- **An untagged reply goes to the wrong client**: the first client is handed the location the
second one asked for. -/
theorem untaggedReply_misdelivered :
    ∃ s : Gprs Bool Unit, (gprsSystem (fun _ => 3000000001) none).Reachable s ∧
      ¬ RepliesMatched (fun _ => 3000000001) s := by
  have hrun : (gprsSystem (fun _ => 3000000001) none).run (Gprs.start 1) askLocation = some _ := rfl
  refine ⟨_, StepSystem.reachable_run (Gprs.start_init one_pos) hrun, fun h => ?_⟩
  obtain ⟨r, hr, hans, -⟩ := h.handed false
    ⟨false, 0, 5, 3000000001, str "0042", str "$WP+GETSTATE+0042=0000"⟩ ⟨0, by decide⟩ _ rfl
  -- only one reply was ever sent, and it answers the other client's command
  have hsent : r = ⟨(), some ⟨true, 1, 6, 3000000001, str "0043",
      str "$WP+GETLOCATION+0043=0000"⟩, _⟩ := List.mem_singleton.mp hr
  rw [hsent] at hans
  exact absurd hans.1 (by decide)

end G7
