import G7Ctrl.Core.Bytes
import Mathlib.Data.List.Induction
import Mathlib.Data.List.TakeWhile

/-!
# Reading numbers (`xatoi`, `xatol`)

Both functions wrap `strtol`.  `xatoi` first insists that every character is a digit, so it
rejects signs and blanks and what follows a number; `xatol` takes `strtol` as it is, which skips
leading white space, accepts a sign and stops at the first character that is not a digit.  A value
that does not fit a `long` becomes 0 in both.  `xatoi` returns its `long` as an `int`, and the
conversion keeps the low 32 bits.
-/

namespace G7

/-- `'0' <= c && c <= '9'` -/
def isDigit (c : Byte) : Bool := ch '0' ≤ c && c ≤ ch '9'

/-- `isspace` of the C locale. -/
def isSpace (c : Byte) : Bool := c = ch ' ' || (9 ≤ c && c ≤ 13)

/-- The value of a string of digits. -/
def digitsValue (s : CStr) : ℕ := s.foldl (fun v c => 10 * v + (c.toNat - 48)) 0

/-- `LONG_MAX` -/
def longMax : ℤ := 2 ^ 63 - 1

/-- `LONG_MIN` -/
def longMin : ℤ := -(2 ^ 63)

/-- Conversion of a `long` to a 32-bit `int`. -/
def toInt32 (v : ℤ) : ℤ := Int.bmod v (2 ^ 32)

/-- What is in the range of an `int` is kept. -/
lemma toInt32_of_lt {v : ℤ} (h0 : 0 ≤ v) (h : v < 2 ^ 31) : toInt32 v = v := by
  have h32 : ((2 ^ 32 : ℕ) : ℤ) = 4294967296 := rfl
  rw [toInt32]
  refine Int.bmod_eq_of_le ?_ ?_
  · rw [h32]
    omega
  · rw [h32]
    omega

/-- Conversion of a `long` to a 32-bit `unsigned`. -/
def toUnsigned32 (v : ℤ) : ℕ := (v % 2 ^ 32).toNat

/-- A value that `strtol` saturates is replaced by 0. -/
def longOrZero (v : ℤ) : ℤ := if longMin ≤ v ∧ v ≤ longMax then v else 0

/-- `xatol`: white space, an optional sign, digits; 0 if there are none. -/
def xatol (s : CStr) : ℤ :=
  match s.dropWhile isSpace with
  | [] => 0
  | c :: cs =>
      if c = ch '-' then longOrZero (-(digitsValue (cs.takeWhile isDigit) : ℤ))
      else if c = ch '+' then longOrZero (digitsValue (cs.takeWhile isDigit))
      else longOrZero (digitsValue ((c :: cs).takeWhile isDigit))

/-- `xatoi` -/
def xatoi (s : CStr) : ℤ :=
  if s.all isDigit then toInt32 (longOrZero (digitsValue s)) else 0

example : xatoi (str "12") = 12 ∧ xatoi (str "4.2") = 0 ∧ xatoi (str "4294967297") = 1 := by
  decide

example : xatol (str " -12V") = -12 ∧ xatol (str "3000000001") = 3000000001 := by decide

/-! ## What `%d` prints reads back -/

lemma digitsValue_concat (s : CStr) (c : Byte) :
    digitsValue (s ++ [c]) = 10 * digitsValue s + (c.toNat - 48) := by
  simp [digitsValue, List.foldl_append]

/-- A decimal digit as a byte. -/
lemma toNat_digitChar : ∀ {d : ℕ}, d < 10 → (ch d.digitChar).toNat = 48 + d := by
  decide

lemma isDigit_digitChar : ∀ {d : ℕ}, d < 10 → isDigit (ch d.digitChar) = true := by
  decide

/-- A number of one digit, or the last digit after the others. -/
lemma dec_eq_if (n : ℕ) : dec n =
    if n < 10 then [ch n.digitChar] else dec (n / 10) ++ [ch (n % 10).digitChar] := by
  rw [dec, Nat.toDigits_eq_if (by omega)]
  split_ifs <;> simp [dec]

lemma dec_ne_nil (n : ℕ) : dec n ≠ [] := by
  simp [dec, Nat.toDigits_ne_nil]

/-- A decimal number consists of digits. -/
lemma isDigit_of_mem_dec (n : ℕ) : ∀ c ∈ dec n, isDigit c = true := by
  induction n using Nat.strongRecOn with
  | ind n ih =>
      rw [dec_eq_if]
      split_ifs with hn
      · simpa using isDigit_digitChar hn
      · intro c hc
        rcases List.mem_append.mp hc with hc | hc
        · exact ih (n / 10) (by omega) c hc
        · rw [List.mem_singleton.mp hc]
          exact isDigit_digitChar (Nat.mod_lt _ (by omega))

/-- **The digits of a number have its value.** -/
theorem digitsValue_dec (n : ℕ) : digitsValue (dec n) = n := by
  induction n using Nat.strongRecOn with
  | ind n ih =>
      rw [dec_eq_if]
      split_ifs with hn
      · simp [digitsValue, toNat_digitChar hn]
      · rw [digitsValue_concat, ih (n / 10) (by omega), toNat_digitChar (Nat.mod_lt _ (by omega))]
        omega

lemma isDigit_iff {c : Byte} : isDigit c = true ↔ 48 ≤ c.toNat ∧ c.toNat ≤ 57 := by
  simp only [isDigit, Bool.and_eq_true, decide_eq_true_eq, UInt8.le_iff_toNat_le]
  rfl

/-- A value has at most as many digits as what it was read from. -/
lemma digitsValue_lt : ∀ {s : CStr}, (∀ c ∈ s, isDigit c = true) →
    digitsValue s < 10 ^ s.length := by
  intro s
  induction s using List.reverseRecOn with
  | nil => simp [digitsValue]
  | append_singleton s c ih =>
      intro hs
      have hlt := ih fun d hd => hs d (List.mem_append_left _ hd)
      have hc : c.toNat - 48 < 10 := by
        have hdigit := isDigit_iff.mp (hs c (by simp))
        omega
      rw [digitsValue_concat, List.length_append, List.length_singleton, Nat.pow_succ]
      omega

/-- Texts of one length with one value are equal. -/
lemma eq_of_digitsValue_eq : ∀ {s t : CStr}, (∀ c ∈ s, isDigit c = true) →
    (∀ c ∈ t, isDigit c = true) → s.length = t.length → digitsValue s = digitsValue t → s = t := by
  intro s
  induction s using List.reverseRecOn with
  | nil => exact fun _ _ hlen _ => (List.length_eq_zero_iff.mp hlen.symm).symm
  | append_singleton s c ih =>
      intro t hs ht hlen heq
      cases t using List.reverseRecOn with
      | nil => simp at hlen
      | append_singleton t d =>
          have hc := isDigit_iff.mp (hs c (by simp))
          have hd := isDigit_iff.mp (ht d (by simp))
          rw [digitsValue_concat, digitsValue_concat] at heq
          have hst : s = t := ih (fun x hx => hs x (List.mem_append_left _ hx))
            (fun x hx => ht x (List.mem_append_left _ hx)) (by simpa using hlen) (by omega)
          have hcd : c = d := UInt8.toNat_inj.mp (by omega)
          rw [hst, hcd]

lemma dec_length_le {n : ℕ} {s : CStr} (hs : s ≠ []) (hn : n < 10 ^ s.length) :
    (dec n).length ≤ s.length := by
  rw [dec, List.length_map]
  exact (Nat.length_toDigits_le_iff (by omega) (List.length_pos_iff.mpr hs)).mpr hn

lemma longOrZero_of_le {v : ℤ} (h0 : 0 ≤ v) (h : v ≤ longMax) : longOrZero v = v := by
  have hmin : longMin ≤ v := le_trans (by decide) h0
  rw [longOrZero, if_pos ⟨hmin, h⟩]

/-- A digit is no white space and no sign. -/
lemma of_isDigit {c : Byte} (hc : isDigit c = true) :
    isSpace c = false ∧ c ≠ ch '-' ∧ c ≠ ch '+' := by
  have hc' : 48 ≤ c.toNat := (isDigit_iff.mp hc).1
  refine ⟨?_, ?_, ?_⟩
  · simp only [isSpace, Bool.or_eq_false_iff, Bool.and_eq_false_iff, decide_eq_false_iff_not,
      UInt8.le_iff_toNat_le]
    refine ⟨?_, Or.inr (by have h13 : (13 : Byte).toNat = 13 := rfl; omega)⟩
    rintro rfl
    exact absurd hc' (by decide)
  · rintro rfl
    exact absurd hc' (by decide)
  · rintro rfl
    exact absurd hc' (by decide)

/-- **What `%ld` prints reads back**, for a number that is not negative. -/
theorem xatol_decInt {v : ℤ} (h0 : 0 ≤ v) (h : v ≤ longMax) : xatol (decInt v) = v := by
  obtain ⟨n, rfl⟩ := Int.eq_ofNat_of_zero_le h0
  have hdigits := isDigit_of_mem_dec n
  have hvalue := digitsValue_dec n
  obtain ⟨c, cs, hdec⟩ := List.exists_cons_of_ne_nil (dec_ne_nil n)
  rw [hdec] at hdigits hvalue
  obtain ⟨hspace, hminus, hplus⟩ := of_isDigit (hdigits c (List.mem_cons_self ..))
  have htake : (c :: cs).takeWhile isDigit = c :: cs := List.takeWhile_eq_self_iff.mpr hdigits
  have hprint : decInt (n : ℤ) = c :: cs := hdec
  rw [xatol, hprint, List.dropWhile_cons_of_neg (by simp [hspace])]
  simp only [if_neg hminus, if_neg hplus, htake, hvalue]
  exact longOrZero_of_le h0 h

/-- The digits a positive number was read from. -/
lemma exists_digits_of_xatol_pos {s : CStr} (h : 0 < xatol s) :
    ∃ t : CStr, t.length ≤ s.length ∧ (∀ c ∈ t, isDigit c = true) ∧ xatol s = digitsValue t := by
  have hpos : ∀ {v : ℤ}, 0 < longOrZero v → longOrZero v = v := by
    intro v hv
    rw [longOrZero] at hv ⊢
    split_ifs at hv ⊢ with hrange
    · rfl
    · exact absurd hv (lt_irrefl 0)
  have hlen : ∀ t : CStr, (t.takeWhile isDigit).length ≤ t.length :=
    fun t => (List.takeWhile_sublist _).length_le
  have hdigits : ∀ t : CStr, ∀ c ∈ t.takeWhile isDigit, isDigit c = true :=
    fun t c hc => List.mem_takeWhile_imp hc
  have hdrop : (s.dropWhile isSpace).length ≤ s.length := (List.dropWhile_sublist _).length_le
  rw [xatol] at h ⊢
  cases hs : s.dropWhile isSpace with
  | nil => simp [hs] at h
  | cons c cs =>
      rw [hs] at hdrop
      have hcs := hlen cs
      rw [List.length_cons] at hdrop
      simp only [hs] at h ⊢
      split_ifs at h ⊢ with hminus hplus
      · rw [hpos h] at h
        omega
      · exact ⟨_, by omega, hdigits cs, hpos h⟩
      · exact ⟨_, le_trans (hlen (c :: cs)) (by simpa using hdrop), hdigits _, hpos h⟩

/-- A positive number is printed with no more characters than it was read from. -/
lemma decInt_xatol_length_le {s : CStr} (h : 0 < xatol s) :
    (decInt (xatol s)).length ≤ s.length := by
  obtain ⟨t, hlen, hdigits, hvalue⟩ := exists_digits_of_xatol_pos h
  have ht : t ≠ [] := by
    rintro rfl
    simp [hvalue, digitsValue] at h
  rw [hvalue]
  exact le_trans (dec_length_le ht (digitsValue_lt hdigits)) hlen

end G7
