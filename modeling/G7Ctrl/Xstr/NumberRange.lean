import G7Ctrl.Xstr.Number
import Mathlib.Data.FinEnum

/-!
# Numbers beyond an `int` (`xatoi`)

`strtol` is asked whether a number fits a `long`, but `xatoi` returns an `int`.  A number between the
two ranges is not replaced by 0, it loses its high bits.

* `NumberOrZero` — what the documentation of `xatoi` promises.
* **`xatoi_numberOrZero_iff`** — when it holds.
-/

namespace G7

/-- `INT_MAX` -/
def intMax : ℕ := 2 ^ 31 - 1

/-- The value of a number that fits an `int`, and 0 for every other string. -/
def NumberOrZero (s : CStr) (v : ℤ) : Prop :=
  v = if s ≠ [] ∧ (∀ c ∈ s, isDigit c = true) ∧ digitsValue s ≤ intMax then (digitsValue s : ℤ)
    else 0

/-- Only multiples of 2³² become 0. -/
lemma toInt32_eq_zero_iff {n : ℕ} : toInt32 n = 0 ↔ n % 2 ^ 32 = 0 := by
  rw [toInt32, Int.bmod_eq_iff (by decide)]
  constructor
  · rintro ⟨-, -, hdvd⟩
    omega
  · intro h
    refine ⟨by omega, by omega, ?_⟩
    omega

/-- What `xatoi` makes of digits. -/
lemma xatoi_of_digits {s : CStr} (hs : ∀ c ∈ s, isDigit c = true) :
    xatoi s = if (digitsValue s : ℤ) ≤ longMax then toInt32 (digitsValue s) else 0 := by
  rw [xatoi, if_pos (List.all_eq_true.mpr hs)]
  split_ifs with hlong
  · rw [longOrZero_of_le (Int.natCast_nonneg _) hlong]
  · rw [longOrZero, if_neg fun h => hlong h.2]
    rfl

/-- **Exactly when `xatoi` does what it promises.**  A string of digits must be a number that fits an
`int`, or one that does not fit a `long` either, or a multiple of 2³². -/
theorem xatoi_numberOrZero_iff (s : CStr) :
    NumberOrZero s (xatoi s) ↔
      ((∀ c ∈ s, isDigit c = true) →
        digitsValue s ≤ intMax ∨ longMax < digitsValue s ∨ digitsValue s % 2 ^ 32 = 0) := by
  by_cases hs : ∀ c ∈ s, isDigit c = true
  · rw [NumberOrZero, xatoi_of_digits hs]
    by_cases hnil : s = []
    · subst hnil
      exact iff_of_true rfl fun _ => Or.inl (Nat.zero_le _)
    · by_cases hint : digitsValue s ≤ intMax
      · have hlt : (digitsValue s : ℤ) < 2 ^ 31 := by
          rw [intMax] at hint
          omega
        have hlong : (digitsValue s : ℤ) ≤ longMax := hlt.le.trans (by decide)
        rw [if_pos hlong, if_pos ⟨hnil, hs, hint⟩, toInt32_of_lt (Int.natCast_nonneg _) hlt]
        exact iff_of_true rfl fun _ => Or.inl hint
      · have hzero : (if s ≠ [] ∧ (∀ c ∈ s, isDigit c = true) ∧ digitsValue s ≤ intMax then
            (digitsValue s : ℤ) else 0) = 0 := if_neg fun h => hint h.2.2
        rw [hzero]
        by_cases hlong : (digitsValue s : ℤ) ≤ longMax
        · rw [if_pos hlong, toInt32_eq_zero_iff]
          constructor
          · intro h _
            exact Or.inr (Or.inr h)
          · intro h
            rcases h hs with h | h | h
            · exact absurd h hint
            · exact absurd hlong (not_le.mpr h)
            · exact h
        · rw [if_neg hlong]
          exact iff_of_true rfl fun _ => Or.inr (Or.inl (not_le.mp hlong))
  · have hzero : xatoi s = 0 := by
      rw [xatoi, if_neg fun h => hs (List.all_eq_true.mp h)]
    rw [NumberOrZero, hzero, if_neg fun h => hs h.2.1]
    exact iff_of_true rfl fun h => absurd h hs

/-- 2³² + 1 is taken for 1. -/
theorem overlong_readAsOne : ¬ NumberOrZero (str "4294967297") (xatoi (str "4294967297")) := by
  rw [NumberOrZero]
  decide +kernel

end G7
