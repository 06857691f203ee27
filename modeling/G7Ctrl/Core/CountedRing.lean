import Mathlib.Data.List.GetD
import Mathlib.Logic.Function.Basic
import Mathlib.Tactic.Common

/-!
# Rings that count their slots

A ring of slots with a counter of its own for how many of them are used.  The counter is raised
with every slot that is put, but not with the last one, and it is set when the slots are loaded.

* `CountedRing`, `CountedRing.put`, `CountedRing.load` — the slots, and the two operations.
* `CountsUsed` — the counter is the number of used slots, and these come first.
* **`countsUsed_iff`** — then a slot is used exactly if it is below the counter.
* `CountedRing.Fresh` — a ring that was never filled.
* **`put_countsUsed_iff`**, **`load_countsUsed_iff`** — when the counter of a fresh ring stays exact.
-/

namespace G7

/-- `num` is the number of used slots, and these come first. -/
structure CountsUsed (size num : ℕ) (used : ℕ → Bool) : Prop where
  count : num = (List.range size).countP used
  first : ∀ i j, i ≤ j → j < size → used j = true → used i = true

lemma countP_range_lt (num : ℕ) : ∀ size : ℕ,
    (List.range size).countP (fun i => decide (i < num)) = min num size
  | 0 => by simp
  | size + 1 => by
      rw [List.range_succ, List.countP_append, countP_range_lt num size, List.countP_singleton]
      split_ifs with h
      · rw [decide_eq_true_eq] at h
        omega
      · rw [decide_eq_true_eq] at h
        omega

/-- Slots that come first are those below their number. -/
lemma used_iff_lt_countP {used : ℕ → Bool} : ∀ {size : ℕ},
    (∀ i j, i ≤ j → j < size → used j = true → used i = true) →
    ∀ i < size, used i = true ↔ i < (List.range size).countP used
  | 0, _, i, hi => absurd hi (Nat.not_lt_zero i)
  | size + 1, hfirst, i, hi => by
      have ih : ∀ i < size, used i = true ↔ i < (List.range size).countP used :=
        used_iff_lt_countP fun i j hij hj => hfirst i j hij (Nat.lt_succ_of_lt hj)
      have hle := List.countP_le_length (p := used) (l := List.range size)
      rw [List.length_range] at hle
      rw [List.range_succ, List.countP_append, List.countP_singleton]
      by_cases hlast : used size = true
      · have hall : ∀ k < size, used k = true := fun k hk =>
          hfirst k size (Nat.le_of_lt hk) (Nat.lt_succ_self size) hlast
        have hcount : (List.range size).countP used = size := by
          have heq := List.countP_eq_length (p := used) (l := List.range size)
          rw [List.length_range] at heq
          exact heq.mpr fun k hk => hall k (List.mem_range.mp hk)
        rw [hcount, if_pos hlast]
        exact iff_of_true (hfirst i size (Nat.le_of_lt_succ hi) (Nat.lt_succ_self size) hlast) hi
      · rw [if_neg hlast, Nat.add_zero]
        rcases Nat.lt_or_ge i size with hlt | hge
        · exact ih i hlt
        · obtain rfl : i = size := by omega
          exact iff_of_false hlast (Nat.not_lt.mpr hle)

/-- **A slot is used exactly if it is below the counter.** -/
theorem countsUsed_iff {size num : ℕ} {used : ℕ → Bool} :
    CountsUsed size num used ↔ num ≤ size ∧ ∀ i < size, used i = true ↔ i < num := by
  constructor
  · rintro ⟨hcount, hfirst⟩
    have hle := List.countP_le_length (p := used) (l := List.range size)
    rw [List.length_range, ← hcount] at hle
    exact ⟨hle, fun i hi => hcount ▸ used_iff_lt_countP hfirst i hi⟩
  · rintro ⟨hle, hused⟩
    constructor
    · have hcongr : (List.range size).countP used
          = (List.range size).countP fun i => decide (i < num) := by
        refine List.countP_congr fun i hi => ?_
        rw [decide_eq_true_eq]
        exact hused i (List.mem_range.mp hi)
      rw [hcongr, countP_range_lt, Nat.min_eq_left hle]
    · intro i j hij hj hlast
      exact (hused i (by omega)).mpr (Nat.lt_of_le_of_lt hij ((hused j hj).mp hlast))

/-- The slots that are used, the next one, and the counter. -/
structure CountedRing where
  used : ℕ → Bool
  idx : ℕ
  num : ℕ

namespace CountedRing

/-- The next slot is used.  Behind the last slot comes the first again, and the counter is not
raised. -/
def put (size : ℕ) (r : CountedRing) : CountedRing where
  used := Function.update r.used r.idx true
  idx := if size ≤ r.idx + 1 then 0 else r.idx + 1
  num := if size ≤ r.idx + 1 then r.num else if r.num < size then r.num + 1 else r.num

/-- Slots are loaded from the first on, some of them (`false`) without anything in them. -/
def load (stored : List Bool) (r : CountedRing) : CountedRing where
  used i := stored.getD i false || r.used i
  idx := stored.length
  num := stored.length

/-- A ring that was never filled to its last slot. -/
structure Fresh (size : ℕ) (r : CountedRing) : Prop where
  next : r.idx = r.num
  lt : r.num < size
  used_iff : ∀ i, r.used i = true ↔ i < r.num

variable {size : ℕ} {r : CountedRing}

lemma Fresh.countsUsed (h : Fresh size r) : CountsUsed size r.num r.used :=
  countsUsed_iff.mpr ⟨Nat.le_of_lt h.lt, fun i _ => h.used_iff i⟩

/-- What a slot that is put changes. -/
lemma Fresh.used_put (h : Fresh size r) (i : ℕ) :
    (r.put size).used i = true ↔ i < r.num + 1 := by
  by_cases hi : i = r.idx
  · subst hi
    simp [put, h.next]
  · have hused := h.used_iff i
    have hnext := h.next
    simp only [put, Function.update_of_ne hi, hused]
    omega

lemma Fresh.put (h : Fresh size r) (hroom : r.idx + 1 < size) : Fresh size (r.put size) := by
  have hnext := h.next
  have hwrap : ¬ size ≤ r.idx + 1 := Nat.not_le.mpr hroom
  have hnum : (r.put size).num = r.num + 1 := by simp [CountedRing.put, hwrap, h.lt]
  have hidx : (r.put size).idx = r.num + 1 :=
    (if_neg hwrap).trans (congrArg (· + 1) hnext)
  refine ⟨hidx.trans hnum.symm, ?_, fun i => ?_⟩
  · rw [hnum, ← hnext]
    exact hroom
  · rw [hnum]
    exact h.used_put i

/-- **A slot that is put** is counted unless it is the last one. -/
theorem put_countsUsed_iff (h : Fresh size r) :
    CountsUsed size (r.put size).num (r.put size).used ↔ r.idx + 1 < size := by
  refine ⟨fun hexact => ?_, fun hroom => (h.put hroom).countsUsed⟩
  by_contra hlast
  have hwrap : size ≤ r.idx + 1 := Nat.not_lt.mp hlast
  have hnum : (r.put size).num = r.num := by simp [CountedRing.put, hwrap]
  have hused := (countsUsed_iff.mp hexact).2 r.num h.lt
  rw [hnum, h.used_put] at hused
  exact absurd (hused.mp (Nat.lt_succ_self _)) (Nat.lt_irrefl _)

/-- What is loaded reaches as far as what was used, and there is something in what is new. -/
structure LoadsAll (stored : List Bool) (r : CountedRing) : Prop where
  reaches : r.num ≤ stored.length
  stored : ∀ i, r.num ≤ i → i < stored.length → stored.getD i false = true

lemma Fresh.load {stored : List Bool} (h : Fresh size r) (hlen : stored.length < size)
    (hall : LoadsAll stored r) : Fresh size (r.load stored) := by
  refine ⟨rfl, hlen, fun i => ?_⟩
  have hused := h.used_iff i
  have hreaches := hall.reaches
  simp only [CountedRing.load, Bool.or_eq_true, hused]
  constructor
  · rintro (hi | hi)
    · by_contra hge
      rw [List.getD_eq_default _ _ (Nat.not_lt.mp hge)] at hi
      cases hi
    · omega
  · intro hi
    by_cases hold : i < r.num
    · exact Or.inr hold
    · exact Or.inl (hall.stored i (Nat.not_lt.mp hold) hi)

/-- **Slots that are loaded** are counted if all of them have something in them and none is left
behind them. -/
theorem load_countsUsed_iff {stored : List Bool} (h : Fresh size r)
    (hlen : stored.length < size) :
    CountsUsed size (r.load stored).num (r.load stored).used ↔ LoadsAll stored r := by
  refine ⟨fun hexact => ?_, fun hall => (h.load hlen hall).countsUsed⟩
  have hused := (countsUsed_iff.mp hexact).2
  simp only [CountedRing.load, Bool.or_eq_true] at hused
  constructor
  · by_contra hshort
    have hlt := Nat.not_le.mp hshort
    have hold := (h.used_iff stored.length).mpr hlt
    exact absurd ((hused stored.length hlen).mp (Or.inr hold)) (Nat.lt_irrefl _)
  · intro i hi hin
    rcases (hused i (Nat.lt_trans hin hlen)).mpr hin with hnew | hold
    · exact hnew
    · exact absurd ((h.used_iff i).mp hold) (Nat.not_lt.mpr hi)

end CountedRing

end G7
