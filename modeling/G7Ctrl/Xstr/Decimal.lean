import G7Ctrl.Xstr.Number
import Mathlib.Algebra.Order.Field.Rat
import Mathlib.Tactic.FieldSimp
import Mathlib.Tactic.Linarith
import Mathlib.Tactic.Positivity
import Mathlib.Tactic.Ring

/-!
# Decimal numbers as text

The value of a decimal number, and when the order of the texts is the order of the values.  Texts
are compared byte by byte like `strcmp` does it.

* `decimalValue`, `coordValue` — the value, without and with a sign.
* `DecimalText` — digits, `n` of them before the decimal point.
* **`decimalValue_le_of_le`** — of numbers with as many digits before the point, the text that comes
  first has the smaller value.
-/

namespace G7

/-- The value of digits with a decimal point. -/
def decimalValue (s : CStr) : ℚ :=
  let whole := s.takeWhile isDigit
  let fraction := ((s.drop whole.length).drop 1).takeWhile isDigit
  digitsValue (whole ++ fraction) / 10 ^ fraction.length

/-- The value of a decimal number that can have a sign. -/
def coordValue (s : CStr) : ℚ :=
  match s with
  | [] => 0
  | c :: cs =>
      if c = ch '-' then -decimalValue cs
      else if c = ch '+' then decimalValue cs
      else decimalValue (c :: cs)

example : coordValue (str "-59.25") = -237 / 4 := by decide +kernel

/-- A decimal number without a sign, with `n` digits before its point. -/
structure DecimalText (n : ℕ) (s : CStr) : Prop where
  pos : 0 < n
  shape : ∃ whole fraction, s = whole ++ ch '.' :: fraction ∧ whole.length = n ∧
    (∀ c ∈ whole, isDigit c = true) ∧ ∀ c ∈ fraction, isDigit c = true

/-- The digits of a number behind the point. -/
def behindPoint (digits : CStr) : ℚ := digitsValue digits / 10 ^ digits.length

lemma digitsValue_cons (c : Byte) (cs : CStr) :
    digitsValue (c :: cs) = (c.toNat - 48) * 10 ^ cs.length + digitsValue cs := by
  induction cs using List.reverseRecOn with
  | nil => simp [digitsValue]
  | append_singleton cs d ih =>
      rw [← List.cons_append, digitsValue_concat, digitsValue_concat, ih, List.length_append,
        List.length_singleton, Nat.pow_succ]
      ring

lemma behindPoint_cons (c : Byte) (cs : CStr) :
    behindPoint (c :: cs) = (((c.toNat - 48 : ℕ) : ℚ) + behindPoint cs) / 10 := by
  have hpow : (10 : ℚ) ^ cs.length ≠ 0 := by positivity
  rw [behindPoint, behindPoint, digitsValue_cons, List.length_cons, pow_succ]
  push_cast
  field_simp

lemma behindPoint_nonneg (s : CStr) : 0 ≤ behindPoint s := by
  rw [behindPoint]
  positivity

lemma behindPoint_lt_one {s : CStr} (hs : ∀ c ∈ s, isDigit c = true) : behindPoint s < 1 := by
  have hlt := digitsValue_lt hs
  rw [behindPoint, div_lt_one (by positivity)]
  exact_mod_cast hlt

/-- **The order of digits behind the point** is that of their texts. -/
lemma behindPoint_mono : ∀ {s t : CStr}, (∀ c ∈ s, isDigit c = true) →
    (∀ c ∈ t, isDigit c = true) → s ≤ t → behindPoint s ≤ behindPoint t
  | [], t, _, _, _ => by
      have hzero : behindPoint [] = 0 := by simp [behindPoint, digitsValue]
      rw [hzero]
      exact behindPoint_nonneg t
  | c :: cs, [], _, _, h => absurd (List.nil_lt_cons c cs) h
  | c :: cs, d :: ds, hs, ht, h => by
      rw [List.forall_mem_cons] at hs ht
      have hc := isDigit_iff.mp hs.1
      have hd := isDigit_iff.mp ht.1
      rw [behindPoint_cons, behindPoint_cons]
      rcases List.cons_le_cons_iff.mp h with hlt | ⟨rfl, hle⟩
      · have hstep : c.toNat - 48 + 1 ≤ d.toNat - 48 := by
          have := UInt8.lt_iff_toNat_lt.mp hlt
          omega
        have hstep' : (((c.toNat - 48 : ℕ) : ℚ) + 1) ≤ ((d.toNat - 48 : ℕ) : ℚ) := by
          exact_mod_cast hstep
        have hone := behindPoint_lt_one hs.2
        have hzero := behindPoint_nonneg ds
        linarith
      · have ih := behindPoint_mono hs.2 ht.2 hle
        linarith

/-- Numbers with as many digits before the point are compared digit by digit. -/
lemma append_le_of_point_le : ∀ {v w f g : CStr}, v.length = w.length →
    v ++ ch '.' :: f ≤ w ++ ch '.' :: g → v ++ f ≤ w ++ g
  | [], [], f, g, _, h => by
      rcases List.cons_le_cons_iff.mp h with hlt | ⟨-, hle⟩
      · exact absurd hlt (UInt8.lt_irrefl _)
      · exact hle
  | c :: v, d :: w, f, g, hlen, h => by
      rcases List.cons_le_cons_iff.mp h with hlt | ⟨rfl, hle⟩
      · exact List.cons_le_cons_iff.mpr (Or.inl hlt)
      · have ih := append_le_of_point_le (by simpa using hlen) hle
        exact List.cons_le_cons_iff.mpr (Or.inr ⟨rfl, ih⟩)

/-- The value of a decimal number, by its digits. -/
lemma decimalValue_eq {whole fraction : CStr} (hwhole : ∀ c ∈ whole, isDigit c = true)
    (hfraction : ∀ c ∈ fraction, isDigit c = true) :
    decimalValue (whole ++ ch '.' :: fraction)
      = 10 ^ whole.length * behindPoint (whole ++ fraction) := by
  have hpoint : isDigit (ch '.') = false := by decide
  have htake : (whole ++ ch '.' :: fraction).takeWhile isDigit = whole := by
    rw [List.takeWhile_append_of_pos hwhole]
    simp [hpoint]
  have hrest : fraction.takeWhile isDigit = fraction := List.takeWhile_eq_self_iff.mpr hfraction
  have hpow : (10 : ℚ) ^ whole.length ≠ 0 := by positivity
  rw [decimalValue, htake]
  simp only [List.drop_left, List.drop_succ_cons, List.drop_zero, hrest]
  rw [behindPoint, List.length_append, pow_add]
  field_simp

/-- **The order of the texts** is that of the values, for numbers with as many digits before the
point. -/
theorem decimalValue_le_of_le {n : ℕ} {s t : CStr} (hs : DecimalText n s) (ht : DecimalText n t)
    (h : s ≤ t) : decimalValue s ≤ decimalValue t := by
  obtain ⟨v, f, rfl, hv, hvDigits, hfDigits⟩ := hs.shape
  obtain ⟨w, g, rfl, hw, hwDigits, hgDigits⟩ := ht.shape
  have hle := append_le_of_point_le (hv.trans hw.symm) h
  rw [decimalValue_eq hvDigits hfDigits, decimalValue_eq hwDigits hgDigits, hv, hw]
  refine mul_le_mul_of_nonneg_left (behindPoint_mono ?_ ?_ hle) (by positivity)
  · intro c hc
    exact (List.mem_append.mp hc).elim (hvDigits c) (hfDigits c)
  · intro c hc
    exact (List.mem_append.mp hc).elim (hwDigits c) (hgDigits c)

/-- A number without a sign is its value. -/
lemma coordValue_of_decimalText {n : ℕ} {s : CStr} (hs : DecimalText n s) :
    coordValue s = decimalValue s := by
  obtain ⟨v, f, rfl, hv, hvDigits, -⟩ := hs.shape
  have hpos := hs.pos
  cases v with
  | nil => simp at hv; omega
  | cons c cs =>
      have hc := hvDigits c List.mem_cons_self
      have hminus : c ≠ ch '-' := by
        rintro rfl
        exact absurd hc (by decide)
      have hplus : c ≠ ch '+' := by
        rintro rfl
        exact absurd hc (by decide)
      rw [List.cons_append, coordValue, if_neg hminus, if_neg hplus]

end G7
