import G7Ctrl.Command.Gprs

/-!
# Which slots of the command queue are taken

**`SlotsOk`** holds in every run: a client that is in its call holds a slot of its own, and the slots
nobody took are free.  `gprsStep_slots` says once what a step can do to the slots; the invariants
follow from it.
-/

namespace G7

variable {C T : Type*} {s s' : Gprs C T}

/-- A step that neither takes nor gives back a slot. -/
structure KeepsSlots (s s' : Gprs C T) : Prop where
  now_le : s.now ≤ s'.now
  cmdqLen_eq : s'.cmdqLen = s.cmdqLen
  holder_eq : s'.holder = s.holder
  key_eq : ∀ i, (s'.cmdq i).devid = (s.cmdq i).devid ∧ (s'.cmdq i).ts = (s.cmdq i).ts ∧
    (s'.cmdq i).tag = (s.cmdq i).tag
  slot_eq : ∀ c, (s'.client c).slot = (s.client c).slot

/-- Writing to an entry without touching its device id, time stamp and tag keeps all slots. -/
lemma KeepsSlots.update_cmdq {i : CmdqueueIdx} {e : CmdqueueEntry} {tracker : T → TrackerPc C T}
    (hdevid : e.devid = (s.cmdq i).devid) (hts : e.ts = (s.cmdq i).ts)
    (htag : e.tag = (s.cmdq i).tag) :
    KeepsSlots s { s with tracker := tracker, cmdq := Function.update s.cmdq i e } where
  now_le := le_rfl
  cmdqLen_eq := rfl
  holder_eq := rfl
  key_eq j := by
    by_cases hj : j = i
    · subst hj
      simp [hdevid, hts, htag]
    · simp [hj]
  slot_eq _ := rfl

/-! ## What holds in every run -/

/-- The slots and the calls fit together. -/
structure SlotsOk (s : Gprs C T) : Prop where
  now_pos : 0 < s.now
  cmdqLen_eq : s.cmdqLen = 0
  /-- A client in its call holds its slot. -/
  owner : ∀ c call i, (s.client c).slot = some (call, i) → call.client = c ∧ s.holder i = some call
  /-- A slot that was taken has the data of the command. -/
  entry : ∀ i call, s.holder i = some call →
    (s.cmdq i).ts ≠ 0 ∧ (s.cmdq i).devid = call.deviceid ∧ (s.cmdq i).tag = call.tag
  /-- A slot that was not taken is free. -/
  free : ∀ i, s.holder i = none → (s.cmdq i).isFree = true

namespace SlotsOk

lemma init (h : s.Init) : SlotsOk s where
  now_pos := h.now_pos
  cmdqLen_eq := h.cmdqLen_eq
  owner c call i hs := by simp [h.client_eq c, ClientPc.slot] at hs
  entry i call hh := by simp [h.holder_eq i] at hh
  free i _ := by simp [h.cmdq_eq, cmdqueueInit]

/-- Slots are taken exactly when they are not free. -/
lemma isFree_iff (h : SlotsOk s) (i : CmdqueueIdx) :
    (s.cmdq i).isFree = true ↔ s.holder i = none := by
  refine ⟨fun hf => ?_, h.free i⟩
  by_contra hne
  obtain ⟨call, hcall⟩ := Option.ne_none_iff_exists'.mp hne
  exact (h.entry i call hcall).1 (CmdqueueEntry.isFree_eq_true.mp hf).2

/-- An entry that fits a reply is held by a command to the device, and with the tag of the reply
if it has one. -/
lemma holder_of_isMatch (h : SlotsOk s) {i : CmdqueueIdx} {devid : ℕ} {tag : CStr}
    (hmatch : (s.cmdq i).isMatch devid tag = true) :
    ∃ call, s.holder i = some call ∧ call.deviceid = devid ∧ (tag ≠ [] → call.tag = tag) := by
  obtain ⟨hne, hdevid, htag⟩ := CmdqueueEntry.isMatch_eq_true.mp hmatch
  have hheld : s.holder i ≠ none := fun hnone =>
    hne (CmdqueueEntry.isFree_eq_true.mp (h.free i hnone)).1
  obtain ⟨call, hcall⟩ := Option.ne_none_iff_exists'.mp hheld
  obtain ⟨-, hdev, htag'⟩ := h.entry i call hcall
  exact ⟨call, hcall, hdev.symm.trans hdevid, fun hnil => htag'.symm.trans (htag hnil).symm⟩

/-- Two clients never hold the same slot. -/
lemma slot_injective (h : SlotsOk s) {c c' : C} {call call' : GprsCall C} {i : CmdqueueIdx}
    (hc : (s.client c).slot = some (call, i)) (hc' : (s.client c').slot = some (call', i)) :
    c = c' := by
  obtain ⟨rfl, hi⟩ := h.owner _ _ _ hc
  obtain ⟨rfl, hi'⟩ := h.owner _ _ _ hc'
  rw [hi, Option.some.injEq] at hi'
  rw [hi']

lemma keeps (h : SlotsOk s) (hk : KeepsSlots s s') : SlotsOk s' where
  now_pos := lt_of_lt_of_le h.now_pos hk.now_le
  cmdqLen_eq := hk.cmdqLen_eq.trans h.cmdqLen_eq
  owner c call i hs := by
    rw [hk.slot_eq] at hs
    rw [hk.holder_eq]
    exact h.owner c call i hs
  entry i call hh := by
    rw [hk.holder_eq] at hh
    rw [(hk.key_eq i).1, (hk.key_eq i).2.1, (hk.key_eq i).2.2]
    exact h.entry i call hh
  free i hh := by
    rw [hk.holder_eq] at hh
    have hfree := CmdqueueEntry.isFree_eq_true.mp (h.free i hh)
    rw [← (hk.key_eq i).1, ← (hk.key_eq i).2.1] at hfree
    exact CmdqueueEntry.isFree_eq_true.mpr hfree

end SlotsOk

/-! ## What a step does -/

variable [DecidableEq C] [DecidableEq T]
variable {deviceOf : T → ℕ} {cmdargToText : Option (CStr → List CStr → CStr × Bool)}
variable {a : GprsAction C T}

omit [DecidableEq T] in
/-- A client that moves on within its call keeps its slot. -/
lemma KeepsSlots.setClient {c : C} {pc : ClientPc C} (h : pc.slot = (s.client c).slot) :
    KeepsSlots s (s.setClient c pc) where
  now_le := le_rfl
  cmdqLen_eq := rfl
  holder_eq := rfl
  key_eq _ := ⟨rfl, rfl, rfl⟩
  slot_eq c' := by
    by_cases hc : c' = c
    · subst hc
      simp [Gprs.setClient, h]
    · simp [Gprs.setClient, hc]

/-- **What a step can do to the slots**: nothing; or it takes one, by an insertion; or it gives one
back, when a call ends in `cmdqueue_check_reply`; or a call returns from an incomplete write. -/
theorem gprsStep_slots (h : gprsStep deviceOf cmdargToText s a = some s') :
    KeepsSlots s s' ∨
    (∃ c sockd deviceid tag cmd cmdq i, s.client c = .idle ∧
      cmdqueueInsert s.cmdqLen s.cmdq s.now sockd deviceid tag cmd = some (cmdq, i) ∧
      s' = { s.setClient c (.inserted ⟨c, s.nextId, sockd, deviceid, tag, cmd⟩ i) with
             cmdq := cmdq
             holder := Function.update s.holder i (some ⟨c, s.nextId, sockd, deviceid, tag, cmd⟩)
             nextId := s.nextId + 1 }) ∨
    (∃ c call i rc, (s.client c).slot = some (call, i) ∧ s' = s.clear c i rc) ∨
    (∃ c t call i, a = .write c t false ∧ s.client c = .inserted call i ∧
      s' = s.write c call i t false) := by
  cases a with
  | tick =>
      simp only [gprsStep, Option.some.injEq] at h
      subst h
      exact .inl ⟨Nat.le_succ _, rfl, rfl, fun _ => ⟨rfl, rfl, rfl⟩, fun _ => rfl⟩
  | keepAlive t =>
      simp only [gprsStep, Option.some.injEq] at h
      subst h
      exact .inl ⟨le_rfl, rfl, rfl, fun _ => ⟨rfl, rfl, rfl⟩, fun _ => rfl⟩
  | insert c sockd deviceid tag cmd =>
      simp only [gprsStep] at h
      split at h <;> try contradiction
      rename_i hc
      simp only [Option.some.injEq, Gprs.insert] at h
      split at h
      · subst h
        have hk : KeepsSlots s (s.setClient c .idle) := .setClient (by rw [hc])
        exact .inl ⟨hk.1, hk.2, hk.3, hk.4, hk.5⟩
      · rename_i cmdq i hins
        exact .inr (.inl ⟨c, sockd, deviceid, tag, cmd, cmdq, i, hc, hins, h.symm⟩)
  | write c t complete =>
      simp only [gprsStep] at h
      split at h <;> try contradiction
      rename_i call i hc
      split_ifs at h
      simp only [Option.some.injEq] at h
      cases complete with
      | true =>
          subst h
          have hk : KeepsSlots s (s.setClient c (.polling call i ((s.cmdq i).ts % 2 ^ 32))) :=
            .setClient (by rw [hc]; rfl)
          exact .inl ⟨hk.1, hk.2, hk.3, hk.4, hk.5⟩
      | false => exact .inr (.inr (.inr ⟨c, t, call, i, rfl, hc, h.symm⟩))
  | poll c =>
      simp only [gprsStep] at h
      split at h <;> try contradiction
      rename_i hc
      split at h <;> simp only [Option.some.injEq] at h <;> subst h
      · exact .inl (.setClient (by rw [hc]; rfl))
      · exact .inl (.setClient (by rw [hc]; rfl))
      · exact .inl ⟨le_rfl, rfl, rfl, fun _ => ⟨rfl, rfl, rfl⟩, fun _ => rfl⟩
  | copy c =>
      simp only [gprsStep] at h
      split at h <;> try contradiction
      rename_i hc
      simp only [Option.some.injEq] at h
      subst h
      exact .inl (.setClient (by rw [hc]; rfl))
  | clear c after =>
      simp only [gprsStep] at h
      split at h <;> try contradiction
      all_goals
        rename_i hc
        simp only [Option.some.injEq] at h
        exact .inr (.inr (.inl ⟨c, _, _, _, by rw [hc]; rfl, h.symm⟩))
  | answer t call text =>
      simp only [gprsStep] at h
      split_ifs at h
      simp only [Option.some.injEq] at h
      subst h
      exact .inl ⟨le_rfl, rfl, rfl, fun _ => ⟨rfl, rfl, rfl⟩, fun _ => rfl⟩
  | unsolicited t text =>
      simp only [gprsStep, Option.some.injEq] at h
      subst h
      exact .inl ⟨le_rfl, rfl, rfl, fun _ => ⟨rfl, rfl, rfl⟩, fun _ => rfl⟩
  | matchReply t r after =>
      simp only [gprsStep] at h
      split at h <;> try contradiction
      split_ifs at h
      simp only [Option.some.injEq, Gprs.matchReply] at h
      split at h
      · subst h
        exact .inl ⟨le_rfl, rfl, rfl, fun _ => ⟨rfl, rfl, rfl⟩, fun _ => rfl⟩
      · split at h <;> subst h <;>
          exact .inl ⟨le_rfl, rfl, rfl, fun _ => ⟨rfl, rfl, rfl⟩, fun _ => rfl⟩
  | fill t =>
      simp only [gprsStep] at h
      split at h <;> try contradiction
      simp only [Option.some.injEq] at h
      subst h
      exact .inl (.update_cmdq rfl rfl rfl)
  | setValid t =>
      simp only [gprsStep] at h
      split at h <;> try contradiction
      simp only [Option.some.injEq] at h
      subst h
      exact .inl (.update_cmdq rfl rfl rfl)

namespace SlotsOk

omit [DecidableEq T] in
/-- An insertion takes a free slot for the inserting client. -/
lemma insert (h : SlotsOk s) {c : C} {sockd : ℤ} {deviceid : ℕ} {tag cmd : CStr} {cmdq : Cmdq}
    {i : CmdqueueIdx}
    (hins : cmdqueueInsert s.cmdqLen s.cmdq s.now sockd deviceid tag cmd = some (cmdq, i))
    (call : GprsCall C) (hclient : call.client = c) (hdev : call.deviceid = deviceid)
    (htag : call.tag = tag) (n : ℕ) :
    SlotsOk { s.setClient c (.inserted call i) with
              cmdq := cmdq, holder := Function.update s.holder i (some call), nextId := n } := by
  obtain ⟨hfree, -, rfl⟩ := cmdqueueInsert_some hins
  have hnone := (h.isFree_iff i).mp hfree
  constructor
  case now_pos => exact h.now_pos
  case cmdqLen_eq => exact h.cmdqLen_eq
  case owner =>
      intro c' call' j hs
      by_cases hc : c' = c
      · subst hc
        simp only [Gprs.setClient, Function.update_self, ClientPc.slot, Option.some.injEq,
          Prod.mk.injEq] at hs
        obtain ⟨rfl, rfl⟩ := hs
        exact ⟨hclient, by simp⟩
      · simp only [Gprs.setClient, Function.update_of_ne hc] at hs
        have howner := h.owner c' call' j hs
        have hj : j ≠ i := by
          rintro rfl
          rw [hnone] at howner
          exact absurd howner.2 (by simp)
        exact ⟨howner.1, by simpa [hj] using howner.2⟩
  case entry =>
      intro j call' hh
      by_cases hj : j = i
      · subst hj
        simp only [Function.update_self, Option.some.injEq] at hh ⊢
        subst hh
        exact ⟨h.now_pos.ne', hdev.symm, htag.symm⟩
      · simp only [Function.update_of_ne hj] at hh ⊢
        exact h.entry j call' hh
  case free =>
      intro j hh
      by_cases hj : j = i
      · subst hj
        simp at hh
      · simp only [Function.update_of_ne hj] at hh ⊢
        exact h.free j hh

omit [DecidableEq T] in
/-- A client that clears its slot leaves everyone else's alone. -/
lemma clear (h : SlotsOk s) {c : C} {call : GprsCall C} {i : CmdqueueIdx}
    (hc : (s.client c).slot = some (call, i)) (rc : ℤ × CStr) : SlotsOk (s.clear c i rc) := by
  constructor
  case now_pos => exact h.now_pos
  case cmdqLen_eq => exact h.cmdqLen_eq
  case owner =>
      intro c' call' j hs
      by_cases hcc : c' = c
      · subst hcc
        simp [Gprs.clear, Gprs.finishCall, Gprs.setClient, ClientPc.slot] at hs
      · simp only [Gprs.clear, Gprs.finishCall, Gprs.setClient, Function.update_of_ne hcc] at hs ⊢
        have hj : j ≠ i := by
          rintro rfl
          exact hcc (h.slot_injective hs hc)
        rw [Function.update_of_ne hj]
        exact h.owner c' call' j hs
  case entry =>
      intro j call' hh
      by_cases hj : j = i
      · subst hj
        simp [Gprs.clear] at hh
      · simp only [Gprs.clear, cmdqueueClridx, Function.update_of_ne hj] at hh ⊢
        exact h.entry j call' hh
  case free =>
      intro j hh
      by_cases hj : j = i
      · subst hj
        simp [Gprs.clear, cmdqueueClridx]
      · simp only [Gprs.clear, cmdqueueClridx, Function.update_of_ne hj] at hh ⊢
        exact h.free j hh

omit [DecidableEq T] in
/-- A call that returns without clearing its slot. -/
lemma finishCall (h : SlotsOk s) (c : C) (rc : ℤ × CStr) : SlotsOk (s.finishCall c rc) where
  now_pos := h.now_pos
  cmdqLen_eq := h.cmdqLen_eq
  owner c' call i hs := by
    by_cases hc : c' = c
    · subst hc
      simp [Gprs.finishCall, Gprs.setClient, ClientPc.slot] at hs
    · simp only [Gprs.finishCall, Gprs.setClient, Function.update_of_ne hc] at hs
      exact h.owner c' call i hs
  entry := h.entry
  free := h.free

/-- **Every step keeps the slots in order.** -/
theorem step (h : SlotsOk s) (hstep : gprsStep deviceOf cmdargToText s a = some s') :
    SlotsOk s' := by
  rcases gprsStep_slots hstep with hk | ⟨c, sockd, deviceid, tag, cmd, cmdq, i, -, hins, rfl⟩ |
    ⟨c, call, i, rc, hc, rfl⟩ | ⟨c, t, call, i, -, -, rfl⟩
  · exact h.keeps hk
  · exact h.insert hins ⟨c, s.nextId, sockd, deviceid, tag, cmd⟩ rfl rfl rfl _
  · exact h.clear hc rc
  · exact h.finishCall c _

/-- **In every run the slots and the calls fit together.** -/
theorem reachableIf {cond : Gprs C T → GprsAction C T → Prop}
    (h : (gprsSystem deviceOf cmdargToText).ReachableIf cond s) : SlotsOk s :=
  h.invariant (fun _ => init) fun _ _ _ _ hs _ => hs.step

end SlotsOk

end G7
