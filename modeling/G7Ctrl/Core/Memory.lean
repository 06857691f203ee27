import Mathlib.Tactic.Common

/-!
# Checked runs

Code that walks over blocks of memory, run on exactly the blocks it may use.  An access outside a
block is a fault, and a loop that is not at its end after the rounds it was given has timed out.
That such a run is `done` says both that the code stays inside its memory and that it ends.

* `Checked` — how a run ends, a monad.
* `Checked.EndsIff` — a run that ends with a value under a condition, and is a fault otherwise.
* `load`, `store` — an access to a cell of a block.
* **`load_eq_done_iff`**, **`store_eq_done_iff`** — an access is good exactly inside the block.
-/

namespace G7

universe u

/-- How a checked run ends. -/
inductive Checked (α : Type u)
  | done (a : α)
  | fault
  | timeout
  deriving DecidableEq

namespace Checked

variable {α β γ : Type u}

/-- What follows a run that is done. -/
def bind : Checked α → (α → Checked β) → Checked β
  | done a, f => f a
  | fault, _ => fault
  | timeout, _ => timeout

instance : Monad Checked where
  pure := done
  bind := bind

@[simp] lemma pure_eq (a : α) : (pure a : Checked α) = done a := rfl

@[simp] lemma done_bind (a : α) (f : α → Checked β) : (done a >>= f) = f a := rfl

@[simp] lemma fault_bind (f : α → Checked β) : ((fault : Checked α) >>= f) = fault :=
  rfl

@[simp] lemma timeout_bind (f : α → Checked β) :
    ((timeout : Checked α) >>= f) = timeout :=
  rfl

lemma bind_assoc (x : Checked α) (f : α → Checked β) (g : β → Checked γ) :
    (x >>= f) >>= g = x >>= fun a => f a >>= g := by
  cases x <;> rfl

/-- **A run is done** if its first part is, and then the rest. -/
theorem bind_eq_done {x : Checked α} {f : α → Checked β} {b : β} :
    (x >>= f) = done b ↔ ∃ a, x = done a ∧ f a = done b := by
  cases x <;> simp

/-- The run stays inside its memory and ends. -/
def IsDone (x : Checked α) : Prop := ∃ a, x = done a

@[simp] lemma isDone_done (a : α) : (done a).IsDone := ⟨a, rfl⟩

@[simp] lemma not_isDone_fault : ¬ (fault : Checked α).IsDone := by
  rintro ⟨a, ha⟩
  cases ha

@[simp] lemma not_isDone_timeout : ¬ (timeout : Checked α).IsDone := by
  rintro ⟨a, ha⟩
  cases ha

/-- The run ends with `a` if `P` holds, and is a fault if it does not. -/
structure EndsIff (x : Checked α) (P : Prop) (a : α) : Prop where
  done : P → x = .done a
  fault : ¬ P → x = .fault

namespace EndsIff

variable {P Q : Prop} {a : α} {b : β} {x : Checked α} {f : α → Checked β}

lemma of_done (hP : P) : (Checked.done a).EndsIff P a := ⟨fun _ => rfl, fun h => absurd hP h⟩

lemma ite [Decidable P] : (if P then Checked.done a else .fault).EndsIff P a :=
  ⟨fun h => if_pos h, fun h => if_neg h⟩

lemma congr (h : x.EndsIff P a) (hPQ : P ↔ Q) : x.EndsIff Q a :=
  ⟨fun hQ => h.done (hPQ.mpr hQ), fun hQ => h.fault fun hP => hQ (hPQ.mp hP)⟩

/-- **One run after the other.** -/
lemma bind (h : x.EndsIff P a) (hf : P → (f a).EndsIff Q b) : (x >>= f).EndsIff (P ∧ Q) b := by
  by_cases hP : P
  · rw [h.done hP, done_bind]
    exact (hf hP).congr (by simp [hP])
  · rw [h.fault hP, fault_bind]
    exact ⟨fun hPQ => absurd hPQ.1 hP, fun _ => rfl⟩

/-- A run whose value is only put into something. -/
lemma map (h : x.EndsIff P a) (g : α → β) : (x >>= fun a => .done (g a)).EndsIff P (g a) := by
  refine ⟨fun hP => ?_, fun hP => ?_⟩
  · rw [h.done hP, done_bind]
  · rw [h.fault hP, fault_bind]

lemma isDone_iff (h : x.EndsIff P a) : x.IsDone ↔ P := by
  by_cases hP : P
  · rw [h.done hP]
    simp [hP]
  · rw [h.fault hP]
    simp [hP]

end EndsIff

end Checked

/-! ## Blocks -/

section Blocks

variable {α : Type u} {mem : List α} {i : ℕ} {a : α}

/-- `mem[i]` as a value. -/
def load (mem : List α) (i : ℕ) : Checked α :=
  match mem[i]? with
  | some a => .done a
  | none => .fault

/-- `mem[i] = a` -/
def store (mem : List α) (i : ℕ) (a : α) : Checked (List α) :=
  if i < mem.length then .done (mem.set i a) else .fault

/-- **A load is good exactly inside the block.** -/
theorem load_eq_done_iff : load mem i = .done a ↔ mem[i]? = some a := by
  rw [load]
  cases mem[i]? with
  | none => simp
  | some b => simp

lemma lt_length_of_load (h : load mem i = .done a) : i < mem.length := by
  obtain ⟨hlt, -⟩ := List.getElem?_eq_some_iff.mp (load_eq_done_iff.mp h)
  exact hlt

lemma load_eq_fault (h : mem.length ≤ i) : load mem i = .fault := by
  rw [load, List.getElem?_eq_none h]

lemma store_eq_done (h : i < mem.length) : store mem i a = .done (mem.set i a) := if_pos h

lemma store_eq_fault (h : mem.length ≤ i) : store mem i a = .fault := if_neg (Nat.not_lt.mpr h)

/-- **A store is good exactly inside the block**, and then changes only its cell. -/
theorem store_eq_done_iff {mem' : List α} :
    store mem i a = .done mem' ↔ i < mem.length ∧ mem' = mem.set i a := by
  rw [store]
  split_ifs with h
  · simp [h, eq_comm]
  · simp [h]

/-- The cell behind what is known. -/
lemma load_append_length (front : List α) (a : α) (rest : List α) :
    load (front ++ a :: rest) front.length = .done a := by
  rw [load_eq_done_iff]
  simp

/-- The cell behind what is known is written. -/
lemma store_append_length (front : List α) (a b : α) (rest : List α) :
    store (front ++ a :: rest) front.length b = .done (front ++ b :: rest) := by
  rw [store_eq_done (by simp)]
  simp

end Blocks

end G7
