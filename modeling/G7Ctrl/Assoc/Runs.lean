import G7Ctrl.Assoc.Refinement

/-!
# The associative array is a finite map

Any number of arrays is created and used by any sequence of calls.  Each array stands for a finite
map with the order of insertion; what a call does to the maps is said by `MapStep`.

* `MapStep`, `MapRun` — the effect of a call, and of a sequence of calls, with the return codes.
* `lookupAfter` — what is looked up after a call, from what was looked up before.
* **`runAssoc_refines`** — every run of calls is one of the maps, and what is looked up in an array
  is the last value that was put or updated.
-/

namespace G7

/-- A call on the arrays with the indices `i`.  A copy goes from `j` to `i`, and so does an
addition. -/
inductive AssocCall (ι : Type)
  | put (i : ι) (name value : CStr)
  | update (i : ι) (name value : CStr)
  | del (i : ι) (name : CStr)
  | clear (i : ι)
  | add (i j : ι)
  | copy (i j : ι)
  | sort (i : ι)

/-- Names are not empty, and no array is copied to itself. -/
def AssocCall.Valid {ι : Type} : AssocCall ι → Prop
  | .put _ name _ => name ≠ []
  | .update _ name _ => name ≠ []
  | .del _ name => name ≠ []
  | .copy i j => i ≠ j
  | _ => True

section Runs

variable {ι : Type} [DecidableEq ι]

/-- A function that is called on one array. -/
def onArray (σ : ι → AssocArray) (i : ι) (r : Checked (ℤ × AssocArray)) :
    Checked (ℤ × (ι → AssocArray)) := do
  let (rc, a) ← r
  return (rc, Function.update σ i a)

/-- The function called. -/
def callAssoc (σ : ι → AssocArray) : AssocCall ι → Checked (ℤ × (ι → AssocArray))
  | .put i name value => onArray σ i (assocPut putDepth (σ i) name value)
  | .update i name value => onArray σ i (assocUpdate (σ i) name value)
  | .del i name => onArray σ i (assocDel (σ i) name)
  | .clear i => onArray σ i (assocClear (σ i))
  | .add i j => onArray σ i (assocAdd (σ i) (σ j))
  | .copy i j => onArray σ i (assocCopy (σ i) (σ j))
  | .sort i => onArray σ i (assocSort (σ i))

/-- A sequence of calls, with the return codes. -/
def runAssoc (σ : ι → AssocArray) : List (AssocCall ι) → Checked (List ℤ × (ι → AssocArray))
  | [] => return ([], σ)
  | call :: calls => do
      let (rc, σ) ← callAssoc σ call
      let (rcs, σ) ← runAssoc σ calls
      return (rc :: rcs, σ)

/-! ## The maps -/

/-- The effect of a call on the maps, with its return code. -/
inductive MapStep (M : ι → AssocMap) : AssocCall ι → ℤ → (ι → AssocMap) → Prop
  | put {i name value} (h : name ∉ M i) :
      MapStep M (.put i name value) 0 (Function.update M i (OrderedMap.snoc (M i) name value h))
  | putPresent {i name value} (h : name ∈ M i) : MapStep M (.put i name value) (-2) M
  | update {i name value v l₁ l₂} (h : (M i).entries = l₁ ++ ⟨name, v⟩ :: l₂) :
      MapStep M (.update i name value) 0 (Function.update M i (OrderedMap.setValue (M i) h value))
  | updateAbsent {i name value} (h : name ∉ M i) : MapStep M (.update i name value) (-1) M
  | del {i name v l₁ l₂} (h : (M i).entries = l₁ ++ ⟨name, v⟩ :: l₂) :
      MapStep M (.del i name) 0 (Function.update M i (OrderedMap.remove (M i) h))
  | delAbsent {i name} (h : name ∉ M i) : MapStep M (.del i name) (-2) M
  | clear {i} : MapStep M (.clear i) 0 (Function.update M i ∅)
  | add {i j} : MapStep M (.add i j) 0 (Function.update M i (OrderedMap.appendNew (M i) (M j)))
  | copy {i j} : MapStep M (.copy i j) 0 (Function.update M i (M j))
  | sort {i l} (h : l.Perm (M i).entries) (hsorted : l.Pairwise fun e e' => entryLe e e' = true)
      (hne : M i ≠ ∅) :
      MapStep M (.sort i) 0 (Function.update M i (OrderedMap.reorder (M i) l h))
  | sortEmpty {i} (h : M i = ∅) : MapStep M (.sort i) (-1) M

/-- The effect of a sequence of calls. -/
inductive MapRun : (ι → AssocMap) → List (AssocCall ι) → List ℤ → (ι → AssocMap) → Prop
  | nil {M} : MapRun M [] [] M
  | cons {M M' M'' call calls rc rcs} : MapStep M call rc M' → MapRun M' calls rcs M'' →
      MapRun M (call :: calls) (rc :: rcs) M''

/-- What is looked up after a call, from what was looked up before. -/
def lookupAfter (f : ι → CStr → Option CStr) : AssocCall ι → ι → CStr → Option CStr
  | .put i name value =>
      Function.update f i (Function.update (f i) name ((f i name).or (some value)))
  | .update i name value =>
      Function.update f i (Function.update (f i) name ((f i name).map fun _ => value))
  | .del i name => Function.update f i (Function.update (f i) name none)
  | .clear i => Function.update f i fun _ => none
  | .add i j => Function.update f i fun name => (f i name).or (f j name)
  | .copy i j => Function.update f i (f j)
  | .sort _ => f

/-- What is looked up in maps. -/
def lookups (M : ι → AssocMap) : ι → CStr → Option CStr := fun i name => (M i).lookup name

lemma lookups_update (M : ι → AssocMap) (i : ι) (m : AssocMap) :
    lookups (Function.update M i m) = Function.update (lookups M) i (m.lookup ·) := by
  refine funext fun i' => funext fun name => ?_
  rw [lookups]
  by_cases hi : i' = i
  · subst hi
    rw [Function.update_self, Function.update_self]
  · rw [Function.update_of_ne hi, Function.update_of_ne hi]
    rfl

/-- A map that differs at one name only. -/
lemma lookup_eq_update {m m' : AssocMap} {name : CStr} {o : Option CStr}
    (h : m'.lookup name = o ∧ ∀ name' ≠ name, m'.lookup name' = m.lookup name') :
    (m'.lookup ·) = Function.update (m.lookup ·) name o :=
  (Function.update_eq_iff.mpr ⟨h.1.symm, fun name' hne => (h.2 name' hne).symm⟩).symm

/-- One value is what it was. -/
lemma update_update_self (f : ι → CStr → Option CStr) (i : ι) {name : CStr} {o : Option CStr}
    (h : o = f i name) : Function.update f i (Function.update (f i) name o) = f := by
  rw [h, Function.update_eq_self, Function.update_eq_self]

/-- **The look-ups after a step.** -/
theorem MapStep.lookups_eq {M M' : ι → AssocMap} {call : AssocCall ι} {rc : ℤ}
    (h : MapStep M call rc M') : lookups M' = lookupAfter (lookups M) call := by
  cases h with
  | @put i name value h =>
      have hnone : lookups M i name = none := AList.lookup_eq_none.mpr h
      rw [lookups_update, lookupAfter, hnone, lookup_eq_update (OrderedMap.lookup_snoc h)]
      rfl
  | @putPresent i name value h =>
      obtain ⟨v, hv⟩ := Option.isSome_iff_exists.mp (AList.lookup_isSome.mpr h)
      have hsome : lookups M i name = some v := hv
      exact (update_update_self _ i (by rw [hsome]; rfl)).symm
  | @update i name value v l₁ l₂ h =>
      have hsome : lookups M i name = some v := OrderedMap.lookup_of_mem (by simp [h])
      rw [lookups_update, lookupAfter, hsome, lookup_eq_update (OrderedMap.lookup_setValue h value)]
      rfl
  | @updateAbsent i name value h =>
      have hnone : lookups M i name = none := AList.lookup_eq_none.mpr h
      exact (update_update_self _ i (by rw [hnone]; rfl)).symm
  | @del i name v l₁ l₂ h =>
      rw [lookups_update, lookupAfter, lookup_eq_update (OrderedMap.lookup_remove h)]
      rfl
  | @delAbsent i name h =>
      have hnone : lookups M i name = none := AList.lookup_eq_none.mpr h
      exact (update_update_self _ i hnone.symm).symm
  | clear =>
      rw [lookups_update]
      rfl
  | @add i j =>
      rw [lookups_update, lookupAfter]
      refine congrArg _ (funext fun name => ?_)
      rw [OrderedMap.lookup_appendNew]
      split_ifs with h
      · obtain ⟨v, hv⟩ := Option.isSome_iff_exists.mp (AList.lookup_isSome.mpr h)
        rw [lookups, hv]
        rfl
      · rw [lookups, AList.lookup_eq_none.mpr h]
        rfl
  | copy =>
      rw [lookups_update]
      rfl
  | @sort i l h =>
      rw [lookups_update]
      refine (congrArg _ (funext fun name => ?_)).trans (Function.update_eq_self i (lookups M))
      exact OrderedMap.lookup_reorder h name
  | sortEmpty h => rfl

/-- **The look-ups after a run.** -/
theorem MapRun.lookups_eq {M M' : ι → AssocMap} {calls : List (AssocCall ι)} {rcs : List ℤ}
    (h : MapRun M calls rcs M') : lookups M' = calls.foldl lookupAfter (lookups M) := by
  induction h with
  | nil => rfl
  | cons hstep _ ih => rw [ih, hstep.lookups_eq, List.foldl_cons]

/-! ## Runs of the arrays -/

/-- The arrays stand for the maps. -/
def RepresentsAll (σ : ι → AssocArray) (M : ι → AssocMap) : Prop := ∀ i, Represents (σ i) (M i)

lemma RepresentsAll.update {σ : ι → AssocArray} {M : ι → AssocMap} (h : RepresentsAll σ M) (i : ι)
    {a : AssocArray} {m : AssocMap} (ha : Represents a m) :
    RepresentsAll (Function.update σ i a) (Function.update M i m) := by
  intro i'
  by_cases hi : i' = i
  · subst hi
    rw [Function.update_self, Function.update_self]
    exact ha
  · rw [Function.update_of_ne hi, Function.update_of_ne hi]
    exact h i'

lemma onArray_done {σ : ι → AssocArray} {i : ι} {r : Checked (ℤ × AssocArray)} {rc : ℤ}
    {a : AssocArray} (h : r = .done (rc, a)) :
    onArray σ i r = .done (rc, Function.update σ i a) := by
  rw [onArray, h]
  rfl

lemma onArray_self {σ : ι → AssocArray} {i : ι} {r : Checked (ℤ × AssocArray)} {rc : ℤ}
    (h : r = .done (rc, σ i)) : onArray σ i r = .done (rc, σ) := by
  rw [onArray_done h, Function.update_eq_self]

/-- **A call** is a step of the maps. -/
theorem callAssoc_refines {σ : ι → AssocArray} {M : ι → AssocMap} (h : RepresentsAll σ M)
    {call : AssocCall ι} (hvalid : call.Valid) :
    ∃ rc σ' M', callAssoc σ call = .done (rc, σ') ∧ MapStep M call rc M' ∧
      RepresentsAll σ' M' := by
  cases call with
  | put i name value =>
      by_cases hmem : name ∈ M i
      · exact ⟨-2, σ, M, onArray_self (assocPut_present (h i) value hvalid hmem 1),
          .putPresent hmem, h⟩
      · obtain ⟨a', hrun, hrep⟩ := assocPut_new (h i) value hvalid hmem
        exact ⟨0, _, _, onArray_done hrun, .put hmem, h.update i hrep⟩
  | update i name value =>
      by_cases hmem : name ∈ M i
      · obtain ⟨l₁, v, l₂, hsplit, hl, -⟩ := OrderedMap.exists_split hmem
        obtain ⟨a', hrun, hrep⟩ := assocUpdate_present (h i) hsplit hl value
        exact ⟨0, _, _, onArray_done hrun, .update hsplit, h.update i hrep⟩
      · exact ⟨-1, σ, M, onArray_self (assocUpdate_absent (h i) hmem value), .updateAbsent hmem, h⟩
  | del i name =>
      by_cases hmem : name ∈ M i
      · obtain ⟨l₁, v, l₂, hsplit, hl, -⟩ := OrderedMap.exists_split hmem
        obtain ⟨a', hrun, hrep⟩ := assocDel_present (h i) hsplit hl
        exact ⟨0, _, _, onArray_done hrun, .del hsplit, h.update i hrep⟩
      · exact ⟨-2, σ, M, onArray_self (assocDel_absent (h i) hvalid hmem), .delAbsent hmem, h⟩
  | clear i =>
      obtain ⟨a', hrun, hrep, -⟩ := assocClear_spec (h i)
      exact ⟨0, _, _, onArray_done hrun, .clear, h.update i hrep⟩
  | add i j =>
      obtain ⟨a', hrun, hrep⟩ := assocAdd_spec (h i) (h j)
      exact ⟨0, _, _, onArray_done hrun, .add, h.update i hrep⟩
  | copy i j =>
      obtain ⟨a', hrun, hrep⟩ := assocCopy_spec (h i) (h j)
      exact ⟨0, _, _, onArray_done hrun, .copy, h.update i hrep⟩
  | sort i =>
      by_cases hempty : M i = ∅
      · have hrun : assocSort (σ i) = .done (-1, σ i) := assocSort_empty (hempty ▸ h i)
        exact ⟨-1, σ, M, onArray_self hrun, .sortEmpty hempty, h⟩
      · obtain ⟨a', hrun, hrep⟩ := assocSort_spec (h i) hempty
        exact ⟨0, _, _, onArray_done hrun,
          .sort ((M i).entries.mergeSort_perm entryLe) (pairwise_mergeSort_entryLe _) hempty,
          h.update i hrep⟩

/-- A run from arrays that stand for maps. -/
lemma runAssoc_represents {σ : ι → AssocArray} {M : ι → AssocMap} (h : RepresentsAll σ M)
    {calls : List (AssocCall ι)} (hvalid : ∀ call ∈ calls, call.Valid) :
    ∃ rcs σ' M', runAssoc σ calls = .done (rcs, σ') ∧ MapRun M calls rcs M' ∧
      RepresentsAll σ' M' := by
  induction calls generalizing σ M with
  | nil => exact ⟨[], σ, M, rfl, .nil, h⟩
  | cons call calls ih =>
      obtain ⟨rc, σ₁, M₁, hcall, hstep, h₁⟩ := callAssoc_refines h (hvalid call List.mem_cons_self)
      obtain ⟨rcs, σ', M', hrun, hmaps, h'⟩ :=
        ih h₁ fun c hc => hvalid c (List.mem_cons_of_mem _ hc)
      refine ⟨rc :: rcs, σ', M', ?_, .cons hstep hmaps, h'⟩
      rw [runAssoc, hcall, Checked.done_bind]
      exact congrArg (· >>= _) hrun

end Runs

/-- **The associative array is a finite map.**  Arrays of sizes from four on are created and used by
calls with names that are not empty: no access is outside a block or to a freed string, the calls
are those of maps with the order of insertion, and what is looked up is the last value put or
updated. -/
theorem runAssoc_refines {ι : Type} [DecidableEq ι] (k : ι → ℕ) (hk : ∀ i, 4 ≤ k i)
    (calls : List (AssocCall ι)) (hvalid : ∀ call ∈ calls, call.Valid) :
    ∃ σ rcs σ' M', (∀ i, assocNew (k i) = some (σ i)) ∧
      runAssoc σ calls = .done (rcs, σ') ∧ MapRun (fun _ => ∅) calls rcs M' ∧
      ∀ i, Represents (σ' i) (M' i) ∧ (σ' i).numValues ≤ (σ' i).maxValues ∧
        ∀ name ≠ [], assocGet (σ' i) name = .done ((M' i).lookup name) ∧
          (M' i).lookup name = calls.foldl lookupAfter (fun _ _ => none) i name := by
  have hnew : ∀ i, ∃ a, assocNew (k i) = some a :=
    fun i => ⟨_, if_neg (Nat.not_lt.mpr (hk i))⟩
  choose σ hσ using hnew
  have hempty : RepresentsAll σ fun _ => ∅ := fun i => (represents_new (hk i) (hσ i)).1
  obtain ⟨rcs, σ', M', hrun, hmaps, hrep⟩ := runAssoc_represents hempty hvalid
  refine ⟨σ, rcs, σ', M', hσ, hrun, hmaps, fun i => ⟨hrep i, (hrep i).num_le, ?_⟩⟩
  intro name hname
  exact ⟨(hrep i).get_eq hname, congrFun (congrFun hmaps.lookups_eq i) name⟩

/-- Two arrays of four: the fifth name doubles the storage, the sixth put is refused, and one array
is a copy of the other before both are changed. -/
theorem runAssoc_refines_two :
    let calls : List (AssocCall Bool) :=
      [.put true [67] [1], .put true [65] [2], .put true [68] [3], .put true [66] [4],
        .put true [69] [5], .put true [66] [9], .copy false true, .update false [67] [7],
        .del true [65], .add true false, .sort true]
    calls.foldl lookupAfter (fun _ _ => none) true [67] = some [1] ∧
    ∃ σ rcs σ' M', (∀ i, assocNew 4 = some (σ i)) ∧
      runAssoc σ calls = .done (rcs, σ') ∧ MapRun (fun _ => ∅) calls rcs M' ∧
      ∀ i, Represents (σ' i) (M' i) ∧ (σ' i).numValues ≤ (σ' i).maxValues ∧
        ∀ name ≠ [], assocGet (σ' i) name = .done ((M' i).lookup name) ∧
          (M' i).lookup name = calls.foldl lookupAfter (fun _ _ => none) i name := by
  intro calls
  have hvalid : ∀ call ∈ calls, call.Valid := by simp [calls, AssocCall.Valid]
  exact ⟨by decide, runAssoc_refines (fun _ => 4) (fun _ => le_rfl) calls hvalid⟩

end G7
