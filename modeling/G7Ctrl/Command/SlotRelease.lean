import G7Ctrl.Command.Slots
import Mathlib.Data.Fintype.Card

/-!
# Do the calls give their slots back?

`cmdqueue_check_reply` promises to clear the slot whatever happens.  Every exit of
`send_rawcmd_reply_over_gprs` behind it is therefore safe, and so are the exits before the insertion;
but the exit after an incomplete write to the device lies between the two.

* **`slots_released`** — as long as every write is complete, the slots that are taken are as many as
  the clients inside a call, and an insertion finds no free slot only when 128 clients wait.
* `incompleteWrite_leaks_slot` — after a single incomplete write this is no longer so.
-/

namespace G7

variable {C T : Type*} [DecidableEq C] [DecidableEq T]
variable {deviceOf : T → ℕ} {cmdargToText : Option (CStr → List CStr → CStr × Bool)}
variable {s s' : Gprs C T} {a : GprsAction C T}

/-- The step is not an incomplete write to a device. -/
def GprsAction.completeWrite : GprsAction C T → Bool
  | .write _ _ complete => complete
  | _ => true

/-- The client is between the insertion and the end of its call. -/
def ClientPc.inCall (pc : ClientPc C) : Bool := pc.slot.isSome

/-- The positions of the queue that are not free. -/
def occupied (cmdq : Cmdq) : Finset CmdqueueIdx := Finset.univ.filter fun i => !(cmdq i).isFree

/-- The clients between the insertion and the end of their call. -/
def inCallClients [Fintype C] (client : C → ClientPc C) : Finset C :=
  Finset.univ.filter fun c => (client c).inCall

/-- The slots in use are those of the calls under way. -/
structure SlotsReleased [Fintype C] (s : Gprs C T) : Prop where
  /-- A slot is taken only by a client that is still in its call. -/
  owned : ∀ i, (s.cmdq i).isFree = false → ∃ c call, (s.client c).slot = some (call, i)
  card_eq : (occupied s.cmdq).card = (inCallClients s.client).card
  /-- There is no free slot only when all of them are waited on. -/
  full : ∀ sockd deviceid tag cmd, tag.length ≤ 5 → cmd.length ≤ 255 →
    cmdqueueInsert s.cmdqLen s.cmdq s.now sockd deviceid tag cmd = none →
      (inCallClients s.client).card = maxCmdqueueLen

/-- Every slot that is taken belongs to a client that is still in its call. -/
def Held (s : Gprs C T) : Prop :=
  ∀ i call, s.holder i = some call → (s.client call.client).slot = some (call, i)

/-- **A complete step keeps every taken slot with its caller.** -/
lemma Held.step (h : Held s) (ha : a.completeWrite = true)
    (hstep : gprsStep deviceOf cmdargToText s a = some s') : Held s' := by
  rcases gprsStep_slots hstep with hk | ⟨c, sockd, deviceid, tag, cmd, cmdq, i, hc, hins, rfl⟩ |
    ⟨c, call, i, rc, hc, rfl⟩ | ⟨c, t, call, i, rfl, -, -⟩
  · intro j call hh
    rw [hk.holder_eq] at hh
    rw [hk.slot_eq]
    exact h j call hh
  · intro j call hh
    by_cases hj : j = i
    · subst hj
      simp only [Function.update_self, Option.some.injEq] at hh
      subst hh
      simp [Gprs.setClient, ClientPc.slot]
    · simp only [Function.update_of_ne hj] at hh
      have hslot := h j call hh
      have hne : call.client ≠ c := by
        rintro rfl
        rw [hc] at hslot
        simp [ClientPc.slot] at hslot
      simpa [Gprs.setClient, hne] using hslot
  · intro j call' hh
    by_cases hj : j = i
    · subst hj
      simp [Gprs.clear] at hh
    · simp only [Gprs.clear, Function.update_of_ne hj] at hh
      have hslot := h j call' hh
      have hne : call'.client ≠ c := by
        intro heq
        rw [heq, hc, Option.some.injEq, Prod.mk.injEq] at hslot
        exact hj hslot.2.symm
      simpa [Gprs.clear, Gprs.finishCall, Gprs.setClient, hne] using hslot
  · simp [GprsAction.completeWrite] at ha

omit [DecidableEq T] in
/-- Each taken slot determines its client, and each client in a call its slot. -/
lemma Held.card_occupied [Fintype C] (h : Held s) (hok : SlotsOk s) :
    (occupied s.cmdq).card = (inCallClients s.client).card := by
  have hocc : ∀ i, i ∈ occupied s.cmdq ↔ ∃ call, s.holder i = some call := by
    intro i
    rw [← Option.isSome_iff_exists, Option.isSome_iff_ne_none, ne_eq, ← hok.isFree_iff]
    simp [occupied]
  have hcall : ∀ c, c ∈ inCallClients s.client ↔ ∃ call i, (s.client c).slot = some (call, i) := by
    intro c
    rw [inCallClients, Finset.mem_filter_univ, ClientPc.inCall, Option.isSome_iff_exists,
      Prod.exists]
  have hinj : Set.InjOn (fun i => (s.holder i).map (·.client)) (occupied s.cmdq) := by
    intro i hi j hj heq
    obtain ⟨call, hi⟩ := (hocc i).mp hi
    obtain ⟨call', hj⟩ := (hocc j).mp hj
    simp only [hi, hj, Option.map_some, Option.some.injEq] at heq
    have hslot := h i call hi
    rw [heq, h j call' hj, Option.some.injEq, Prod.mk.injEq] at hslot
    exact hslot.2.symm
  have himage : (occupied s.cmdq).image (fun i => (s.holder i).map (·.client))
      = (inCallClients s.client).image some := by
    ext o
    simp only [Finset.mem_image, hocc, hcall]
    constructor
    · rintro ⟨i, ⟨call, hi⟩, rfl⟩
      exact ⟨call.client, ⟨call, i, h i call hi⟩, by rw [hi]; rfl⟩
    · rintro ⟨c, ⟨call, i, hslot⟩, rfl⟩
      obtain ⟨rfl, hi⟩ := hok.owner c call i hslot
      exact ⟨i, ⟨call, hi⟩, by rw [hi]; rfl⟩
  calc (occupied s.cmdq).card
      = ((occupied s.cmdq).image fun i => (s.holder i).map (·.client)).card :=
        (Finset.card_image_of_injOn hinj).symm
    _ = ((inCallClients s.client).image some).card := by rw [himage]
    _ = (inCallClients s.client).card :=
        Finset.card_image_of_injective _ (Option.some_injective C)

omit [DecidableEq T] in
/-- What `SlotsReleased` asks for follows from `Held`. -/
lemma Held.slotsReleased [Fintype C] (h : Held s) (hok : SlotsOk s) : SlotsReleased s where
  owned i hi := by
    have hne : s.holder i ≠ none := fun hnone => by simp [hok.free i hnone] at hi
    obtain ⟨call, hcall⟩ := Option.ne_none_iff_exists'.mp hne
    exact ⟨call.client, call, h i call hcall⟩
  card_eq := h.card_occupied hok
  full sockd deviceid tag cmd htag hcmd hins := by
    rw [hok.cmdqLen_eq, cmdqueueInsert_eq_none_iff] at hins
    have hall : ∀ i, (s.cmdq i).isFree = false := hins.resolve_left (by omega)
    rw [← h.card_occupied hok, occupied, Finset.filter_true_of_mem (by simp [hall]),
      Finset.card_univ, Fintype.card_fin]

/-- The step in which a call ends frees the slot of the call. -/
lemma isFree_of_returned {c : C} {call : GprsCall C} {i : CmdqueueIdx}
    (ha : a.completeWrite = true) (hstep : gprsStep deviceOf cmdargToText s a = some s')
    (hc : (s.client c).slot = some (call, i)) (hidle : s'.client c = .idle) :
    (s'.cmdq i).isFree = true := by
  have hne : s.client c ≠ .idle := by
    intro heq
    simp [heq, ClientPc.slot] at hc
  rcases gprsStep_slots hstep with hk | ⟨c', _, _, _, _, _, j, hc', -, rfl⟩ |
    ⟨c', call', j, rc, hc', rfl⟩ | ⟨c', t, call', j, rfl, -, -⟩
  · have hslot := hk.slot_eq c
    rw [hidle, hc] at hslot
    simp [ClientPc.slot] at hslot
  · have hcc : c ≠ c' := by
      rintro rfl
      exact hne hc'
    simp only [Gprs.setClient, Function.update_of_ne hcc] at hidle
    exact absurd hidle hne
  · by_cases hcc : c = c'
    · subst hcc
      rw [hc, Option.some.injEq, Prod.mk.injEq] at hc'
      simp [Gprs.clear, cmdqueueClridx, hc'.2]
    · simp only [Gprs.clear, Gprs.finishCall, Gprs.setClient, Function.update_of_ne hcc] at hidle
      exact absurd hidle hne
  · simp [GprsAction.completeWrite] at ha

/-- **Slots are released as long as every write is complete.**  In every run without an incomplete
write the slots in use are exactly those of the calls under way, and when a step ends a call, the
slot of that call is free. -/
theorem slots_released [Fintype C]
    (h : (gprsSystem deviceOf cmdargToText).ReachableIf (fun _ a => a.completeWrite = true) s) :
    SlotsReleased s ∧
      ∀ a s', a.completeWrite = true → gprsStep deviceOf cmdargToText s a = some s' →
        ∀ c call i, (s.client c).slot = some (call, i) → s'.client c = .idle →
          (s'.cmdq i).isFree = true := by
  have hheld : Held s := by
    refine h.invariant (fun s hs i call hh => ?_) fun s a s' hr hs ha hstep => ?_
    · rw [hs.holder_eq i] at hh
      contradiction
    · exact hs.step ha hstep
  exact ⟨hheld.slotsReleased (.reachableIf h),
    fun a s' ha hstep c call i hc hidle => isFree_of_returned ha hstep hc hidle⟩

/-- One client sends one command to a device that has registered; `complete` is the outcome of the
write. -/
def oneCommand (complete : Bool) : List (GprsAction Unit Unit) :=
  [.keepAlive (), .insert () 5 3000000001 (str "0042") (str "$WP+GETSTATE+0042=0000"),
   .write () () complete]

/-- That client, that device. -/
abbrev oneDevice : StepSystem (Gprs Unit Unit) (GprsAction Unit Unit) :=
  gprsSystem (fun _ => 3000000001) none

set_option maxRecDepth 4000 in
/-- After a complete write the client waits, and its slot is the only one in use. -/
theorem slots_released_oneCommand :
    ∃ s, oneDevice.runIf (fun _ a => a.completeWrite = true) (Gprs.start 1) (oneCommand true)
        = some s ∧
      (inCallClients s.client).card = 1 ∧ SlotsReleased s := by
  have hrun : oneDevice.runIf (fun _ a => a.completeWrite = true) (Gprs.start 1) (oneCommand true)
      = some _ := rfl
  exact ⟨_, hrun, rfl,
    (slots_released (StepSystem.reachableIf_runIf (.start (Gprs.start_init one_pos)) hrun)).1⟩

set_option maxRecDepth 4000 in
/-- **An incomplete write leaks the slot.**  The call has returned and its slot is still taken. -/
theorem incompleteWrite_leaks_slot :
    ∃ s : Gprs Unit Unit, oneDevice.Reachable s ∧ s.client () = .idle ∧ ¬ SlotsReleased s := by
  have hrun : oneDevice.run (Gprs.start 1) (oneCommand false) = some _ := rfl
  refine ⟨_, StepSystem.reachable_run (Gprs.start_init one_pos) hrun, rfl, fun h => ?_⟩
  obtain ⟨c, call, hslot⟩ := h.owned ⟨0, by decide⟩ rfl
  cases c
  have hidle : (none : Option (GprsCall Unit × CmdqueueIdx)) = some (call, ⟨0, by decide⟩) := hslot
  contradiction

end G7
