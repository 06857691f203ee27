import G7Ctrl.Core.Bytes
import Mathlib.Data.List.GetD

/-!
# Base64

Three bytes are written as four characters for six bits each; one or two bytes at the end are
padded with `=`.

* `base64`, `base64Decode` — the text of a byte string, and the byte string of a text.
* **`base64Decode_base64`**, **`base64_of_decode`** — a text is decoded to what it was made of, and
  only such texts are decoded.
* **`length_base64`**, **`mem_base64`** — its length and its characters.
-/

namespace G7

/-- The digits. -/
def base64Digits : List Byte :=
  str "ABCDEFGHIJKLMNOPQRSTUVWXYZabcdefghijklmnopqrstuvwxyz0123456789+/"

/-- The digit for six bits. -/
def base64Digit (n : ℕ) : Byte := base64Digits.getD n 0

/-- The six bits of a digit. -/
def base64Value (c : Byte) : Option ℕ :=
  if base64Digits.idxOf c < 64 then some (base64Digits.idxOf c) else none

lemma base64Value_digit {n : ℕ} (h : n < 64) : base64Value (base64Digit n) = some n := by
  have hall : ∀ m : Fin 64, base64Value (base64Digit m) = some m.val := by decide +kernel
  exact hall ⟨n, h⟩

lemma base64Value_pad : base64Value (ch '=') = none := by decide +kernel

lemma base64Digit_ne_pad {n : ℕ} (h : n < 64) : base64Digit n ≠ ch '=' := by
  intro heq
  have hval := base64Value_digit h
  rw [heq, base64Value_pad] at hval
  cases hval

/-- The text of a byte string. -/
def base64 : List Byte → CStr
  | [] => []
  | [a] =>
      [base64Digit (a.toNat / 4), base64Digit (a.toNat % 4 * 16), ch '=', ch '=']
  | [a, b] =>
      [base64Digit (a.toNat / 4), base64Digit (a.toNat % 4 * 16 + b.toNat / 16),
        base64Digit (b.toNat % 16 * 4), ch '=']
  | a :: b :: c :: data =>
      base64Digit (a.toNat / 4) :: base64Digit (a.toNat % 4 * 16 + b.toNat / 16) ::
        base64Digit (b.toNat % 16 * 4 + c.toNat / 64) :: base64Digit (c.toNat % 64) :: base64 data

/-- The last four characters, when they are padded.  The bits that are left over are zero. -/
def base64DecodeLast (w x y : Byte) : Option (List Byte) := do
  let p ← base64Value w
  let q ← base64Value x
  if y = ch '=' then
    if q % 16 = 0 then return [(p * 4 + q / 16).toUInt8] else none
  else
    let r ← base64Value y
    if r % 4 = 0 then return [(p * 4 + q / 16).toUInt8, (q % 16 * 16 + r / 4).toUInt8] else none

/-- The byte string of a text. -/
def base64Decode : CStr → Option (List Byte)
  | [] => some []
  | w :: x :: y :: z :: text =>
      if z = ch '=' ∧ text = [] then base64DecodeLast w x y
      else do
        let p ← base64Value w
        let q ← base64Value x
        let r ← base64Value y
        let s ← base64Value z
        let data ← base64Decode text
        return (p * 4 + q / 16).toUInt8 :: (q % 16 * 16 + r / 4).toUInt8 ::
          (r % 4 * 64 + s).toUInt8 :: data
  | _ => none

/-- The bits of a byte, from two parts. -/
lemma toUInt8_eq {n : ℕ} {a : Byte} (h : n = a.toNat) : n.toUInt8 = a := by
  rw [h]
  exact UInt8.ofNat_toNat

/-- **A text is decoded to what it was made of.** -/
theorem base64Decode_base64 (data : List Byte) : base64Decode (base64 data) = some data := by
  induction data using base64.induct with
  | case1 => rfl
  | case2 a =>
      have ha := a.toNat_lt
      rw [base64, base64Decode, if_pos ⟨rfl, rfl⟩, base64DecodeLast,
        base64Value_digit (by omega), base64Value_digit (by omega)]
      have hbyte : (a.toNat / 4 * 4 + a.toNat % 4 * 16 / 16).toUInt8 = a := toUInt8_eq (by omega)
      simp only [Option.bind_eq_bind, Option.bind_some, if_true, hbyte,
        if_pos (show a.toNat % 4 * 16 % 16 = 0 by omega), Option.pure_def]
  | case3 a b =>
      have ha := a.toNat_lt
      have hb := b.toNat_lt
      rw [base64, base64Decode, if_pos ⟨rfl, rfl⟩, base64DecodeLast,
        base64Value_digit (by omega), base64Value_digit (by omega)]
      have hfirst : (a.toNat / 4 * 4 + (a.toNat % 4 * 16 + b.toNat / 16) / 16).toUInt8 = a :=
        toUInt8_eq (by omega)
      have hsecond : ((a.toNat % 4 * 16 + b.toNat / 16) % 16 * 16 + b.toNat % 16 * 4 / 4).toUInt8
          = b := toUInt8_eq (by omega)
      have hpad : base64Digit (b.toNat % 16 * 4) ≠ ch '=' := base64Digit_ne_pad (by omega)
      simp only [Option.bind_eq_bind, Option.bind_some, if_neg hpad,
        base64Value_digit (show b.toNat % 16 * 4 < 64 by omega), hfirst, hsecond,
        if_pos (show b.toNat % 16 * 4 % 4 = 0 by omega), Option.pure_def]
  | case4 a b c data ih =>
      have ha := a.toNat_lt
      have hb := b.toNat_lt
      have hc := c.toNat_lt
      have hfirst : (a.toNat / 4 * 4 + (a.toNat % 4 * 16 + b.toNat / 16) / 16).toUInt8 = a :=
        toUInt8_eq (by omega)
      have hsecond : ((a.toNat % 4 * 16 + b.toNat / 16) % 16 * 16 +
          (b.toNat % 16 * 4 + c.toNat / 64) / 4).toUInt8 = b := toUInt8_eq (by omega)
      have hthird : ((b.toNat % 16 * 4 + c.toNat / 64) % 4 * 64 + c.toNat % 64).toUInt8 = c :=
        toUInt8_eq (by omega)
      have hpad : base64Digit (c.toNat % 64) ≠ ch '=' := base64Digit_ne_pad (by omega)
      rw [base64, base64Decode, if_neg fun h => hpad h.1, base64Value_digit (by omega),
        base64Value_digit (by omega), base64Value_digit (by omega), base64Value_digit (by omega), ih]
      simp only [Option.bind_eq_bind, Option.bind_some, hfirst, hsecond, hthird, Option.pure_def]

lemma base64Digit_value {c : Byte} {n : ℕ} (h : base64Value c = some n) :
    n < 64 ∧ base64Digit n = c := by
  rw [base64Value] at h
  split_ifs at h with hlt
  obtain rfl := Option.some.inj h
  refine ⟨hlt, ?_⟩
  have hlen : base64Digits.length = 64 := by decide
  rw [base64Digit, List.getD_eq_getElem _ _ (by omega), List.getElem_idxOf]

lemma toNat_toUInt8 {n : ℕ} (h : n < 256) : n.toUInt8.toNat = n :=
  UInt8.toNat_ofNat_of_lt h

/-- What the last four characters are decoded to has them as its text. -/
lemma base64_of_decodeLast {w x y : Byte} {data : List Byte}
    (h : base64DecodeLast w x y = some data) : base64 data = [w, x, y, ch '='] := by
  rw [base64DecodeLast] at h
  obtain ⟨p, hp, h'⟩ := Option.bind_eq_some_iff.mp h
  obtain ⟨q, hq, hrest⟩ := Option.bind_eq_some_iff.mp h'
  clear h h'
  obtain ⟨hp64, rfl⟩ := base64Digit_value hp
  obtain ⟨hq64, rfl⟩ := base64Digit_value hq
  have hbyte := toNat_toUInt8 (show p * 4 + q / 16 < 256 by omega)
  have hdiv : (p * 4 + q / 16) / 4 = p := by omega
  by_cases hpad : y = ch '='
  · rw [if_pos hpad] at hrest
    split_ifs at hrest
    obtain rfl := Option.some.inj hrest
    have hmod : (p * 4 + q / 16) % 4 * 16 = q := by omega
    rw [base64, hbyte, hdiv, hmod, hpad]
  · rw [if_neg hpad] at hrest
    obtain ⟨r, hr, hlast⟩ := Option.bind_eq_some_iff.mp hrest
    clear hrest
    obtain ⟨hr64, rfl⟩ := base64Digit_value hr
    split_ifs at hlast
    obtain rfl := Option.some.inj hlast
    have hsecond := toNat_toUInt8 (show q % 16 * 16 + r / 4 < 256 by omega)
    have hmod : (p * 4 + q / 16) % 4 * 16 + (q % 16 * 16 + r / 4) / 16 = q := by omega
    have hmod' : (q % 16 * 16 + r / 4) % 16 * 4 = r := by omega
    rw [base64, hbyte, hsecond, hdiv, hmod, hmod']

/-- **Only the text of a byte string is decoded to it.** -/
theorem base64_of_decode {text : CStr} {data : List Byte} (h : base64Decode text = some data) :
    base64 data = text := by
  induction text using base64Decode.induct generalizing data with
  | case1 =>
      obtain rfl := Option.some.inj h
      rfl
  | case2 w x y z text hlast =>
      obtain ⟨rfl, rfl⟩ := hlast
      rw [base64Decode, if_pos ⟨rfl, rfl⟩] at h
      exact base64_of_decodeLast h
  | case3 w x y z text hlast ih =>
      rw [base64Decode, if_neg hlast] at h
      obtain ⟨p, hp, h⟩ := Option.bind_eq_some_iff.mp h
      obtain ⟨q, hq, h⟩ := Option.bind_eq_some_iff.mp h
      obtain ⟨r, hr, h⟩ := Option.bind_eq_some_iff.mp h
      obtain ⟨s, hs, h⟩ := Option.bind_eq_some_iff.mp h
      obtain ⟨rest, hrest, h⟩ := Option.bind_eq_some_iff.mp h
      obtain rfl := Option.some.inj h
      obtain ⟨hp64, rfl⟩ := base64Digit_value hp
      obtain ⟨hq64, rfl⟩ := base64Digit_value hq
      obtain ⟨hr64, rfl⟩ := base64Digit_value hr
      obtain ⟨hs64, rfl⟩ := base64Digit_value hs
      have hfirst := toNat_toUInt8 (show p * 4 + q / 16 < 256 by omega)
      have hsecond := toNat_toUInt8 (show q % 16 * 16 + r / 4 < 256 by omega)
      have hthird := toNat_toUInt8 (show r % 4 * 64 + s < 256 by omega)
      have hdiv : (p * 4 + q / 16) / 4 = p := by omega
      have hmod : (p * 4 + q / 16) % 4 * 16 + (q % 16 * 16 + r / 4) / 16 = q := by omega
      have hmod' : (q % 16 * 16 + r / 4) % 16 * 4 + (r % 4 * 64 + s) / 64 = r := by omega
      have hlast' : (r % 4 * 64 + s) % 64 = s := by omega
      rw [base64, hfirst, hsecond, hthird, hdiv, hmod, hmod', hlast', ih hrest]
  | case4 text hnil hcons =>
      rw [base64Decode] at h
      · cases h
      · exact hnil
      · exact hcons

/-- **Four characters for three bytes**, begun ones counted. -/
theorem length_base64 (data : List Byte) : (base64 data).length = 4 * ((data.length + 2) / 3) := by
  induction data using base64.induct with
  | case1 => rfl
  | case2 a => simp [base64]
  | case3 a b => simp [base64]
  | case4 a b c data ih =>
      simp only [base64, List.length_cons, ih]
      omega

lemma base64Digit_mem {n : ℕ} (h : n < 64) : base64Digit n ∈ base64Digits := by
  have hlen : base64Digits.length = 64 := by decide
  rw [base64Digit, List.getD_eq_getElem _ _ (by omega)]
  exact List.getElem_mem _

/-- **The characters** are digits and the padding. -/
theorem mem_base64 {data : List Byte} {c : Byte} (h : c ∈ base64 data) :
    c ∈ base64Digits ∨ c = ch '=' := by
  have hdigit {n : ℕ} (hn : n < 64) (hc : c = base64Digit n) : c ∈ base64Digits ∨ c = ch '=' :=
    Or.inl (hc ▸ base64Digit_mem hn)
  induction data using base64.induct with
  | case1 => cases h
  | case2 a =>
      have ha := a.toNat_lt
      simp only [base64, List.mem_cons, List.not_mem_nil, or_false] at h
      rcases h with h | h | h | h
      · exact hdigit (by omega) h
      · exact hdigit (by omega) h
      · exact Or.inr h
      · exact Or.inr h
  | case3 a b =>
      have ha := a.toNat_lt
      have hb := b.toNat_lt
      simp only [base64, List.mem_cons, List.not_mem_nil, or_false] at h
      rcases h with h | h | h | h
      · exact hdigit (by omega) h
      · exact hdigit (by omega) h
      · exact hdigit (by omega) h
      · exact Or.inr h
  | case4 a b c' data ih =>
      have ha := a.toNat_lt
      have hb := b.toNat_lt
      have hc := c'.toNat_lt
      simp only [base64, List.mem_cons] at h
      rcases h with h | h | h | h | h
      · exact hdigit (by omega) h
      · exact hdigit (by omega) h
      · exact hdigit (by omega) h
      · exact hdigit (by omega) h
      · exact ih h

/-- A character that is neither a digit nor the padding. -/
lemma notMem_base64 {c : Byte} (hc : c ∉ base64Digits) (hpad : c ≠ ch '=') (data : List Byte) :
    c ∉ base64 data :=
  fun h => (mem_base64 h).elim hc hpad

end G7
