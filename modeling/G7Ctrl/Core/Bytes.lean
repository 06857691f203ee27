import Mathlib.Algebra.Order.Ring.Int
import Mathlib.Tactic.Common

/-!
# Bytes and C strings

A `char` of the program is a byte, and a NUL-terminated string is the list of the bytes before
its NUL.  Where the bytes *after* the NUL can matter (a read buffer with older data in it), the
model passes the memory from the pointer on as a list and takes its string with `cstr`; a position
past the end of such a list reads as 0.
-/

namespace G7

/-- A `char`. -/
abbrev Byte := UInt8

/-- A NUL-terminated string: the bytes before the NUL. -/
abbrev CStr := List Byte

/-- The byte of an ASCII character. -/
def ch (c : Char) : Byte := c.toNat.toUInt8

/-- What is to be shown of every byte can be checked for each of them. -/
lemma forall_byte {p : Byte → Bool}
    (h : (List.range 256).all (fun n => p n.toUInt8) = true) (c : Byte) : p c = true := by
  have hc := List.all_eq_true.mp h c.toNat (List.mem_range.mpr c.toNat_lt)
  simpa using hc

/-- The bytes of an ASCII literal. -/
def str (s : String) : CStr := s.toList.map ch

/-- Neighbouring literals are one literal. -/
lemma str_append_str (a b : String) : str a ++ str b = str (a ++ b) := by
  simp [str]

lemma str_append_str_append (a b : String) (s : CStr) :
    str a ++ (str b ++ s) = str (a ++ b) ++ s := by
  rw [← List.append_assoc, str_append_str]

/-- Carriage return. -/
def cr : Byte := 13

/-- Line feed. -/
def lf : Byte := 10

/-- The record terminator of the device, `"\r\n"`. -/
def crlf : CStr := [cr, lf]

/-- The text ends in `"\r\n"`. -/
def EndsCrlf (s : List Byte) : Prop := crlf <:+ s

instance (s : List Byte) : Decidable (EndsCrlf s) := inferInstanceAs (Decidable (crlf <:+ s))

lemma endsCrlf_iff (init : List Byte) (d c : Byte) :
    EndsCrlf (init ++ [d] ++ [c]) ↔ c = lf ∧ d = cr := by
  rw [EndsCrlf, ← List.reverse_prefix, List.reverse_append, List.reverse_append, crlf]
  simp only [List.reverse_cons, List.reverse_nil, List.nil_append, List.cons_append,
    List.cons_prefix_cons, List.nil_prefix, and_true]
  exact and_congr eq_comm eq_comm

/-- The string that starts at the beginning of a piece of memory. -/
def cstr (mem : List Byte) : CStr := mem.takeWhile (· ≠ 0)

/-- Read one byte of memory; what lies beyond the modelled part is 0. -/
def byteAt (mem : List Byte) (i : ℕ) : Byte := mem.getD i 0

@[simp] lemma byteAt_cons_zero (c : Byte) (cs : List Byte) : byteAt (c :: cs) 0 = c := rfl

lemma byteAt_append_zero {s : CStr} (hs : s ≠ []) (t : List Byte) :
    byteAt (s ++ t) 0 = byteAt s 0 := by
  cases s with
  | nil => exact absurd rfl hs
  | cons c cs => rfl

/-- `%u`: the decimal digits of a number. -/
def dec (n : ℕ) : CStr := (Nat.toDigits 10 n).map ch

/-- `%02d` -/
def dec02 (n : ℕ) : CStr := if n < 10 then ch '0' :: dec n else dec n

/-- `%d`: a signed number in decimal. -/
def decInt : ℤ → CStr
  | .ofNat n => dec n
  | .negSucc n => ch '-' :: dec (n + 1)

/-- `snprintf` into a buffer of `size` bytes keeps what fits before the NUL. -/
def snprintf (size : ℕ) (text : CStr) : CStr := text.take (size - 1)

lemma snprintf_of_lt {size : ℕ} {text : CStr} (h : text.length < size) :
    snprintf size text = text :=
  List.take_of_length_le (by omega)

/-- A string without NUL followed by a NUL reads back as itself, whatever follows. -/
lemma cstr_append_nul {s : CStr} (hs : (0 : Byte) ∉ s) (rest : List Byte) :
    cstr (s ++ 0 :: rest) = s := by
  have hall : ∀ c ∈ s, decide (c ≠ 0) = true :=
    fun c hc => decide_eq_true fun h => hs (h ▸ hc)
  rw [cstr, List.takeWhile_append_of_pos hall]
  simp

/-- What comes after a NUL does not count. -/
lemma cstr_append_zero (s t : List Byte) : cstr (s ++ 0 :: t) = cstr s := by
  rw [cstr, cstr, List.takeWhile_append]
  split_ifs with hlen
  · rw [List.takeWhile_cons_of_neg (by simp), List.append_nil, eq_comm]
    exact (List.takeWhile_prefix _).eq_of_length hlen
  · rfl

/-- A text is split in one way at the first byte of a kind. -/
lemma split_unique {b : Byte} {k k' r r' : CStr} (h : k ++ b :: r = k' ++ b :: r') (hk : b ∉ k)
    (hk' : b ∉ k') : k = k' ∧ r = r' := by
  induction k generalizing k' with
  | nil =>
      cases k' with
      | nil => exact ⟨rfl, (List.cons.inj h).2⟩
      | cons c k' =>
          have hc : b = c := (List.cons.inj h).1
          exact absurd (hc ▸ List.mem_cons_self) hk'
  | cons c k ih =>
      rw [List.mem_cons, not_or] at hk
      cases k' with
      | nil => exact absurd (List.cons.inj h).1.symm hk.1
      | cons c' k' =>
          rw [List.mem_cons, not_or] at hk'
          obtain ⟨rfl, htail⟩ := List.cons.inj h
          obtain ⟨rfl, rfl⟩ := ih htail hk.2 hk'.2
          exact ⟨rfl, rfl⟩

/-- The value of a digit in base 16. -/
def hexDigit (c : Byte) : Option ℕ :=
  if ch '0' ≤ c && c ≤ ch '9' then some (c.toNat - 48)
  else if ch 'a' ≤ c && c ≤ ch 'f' then some (c.toNat - 87)
  else if ch 'A' ≤ c && c ≤ ch 'F' then some (c.toNat - 55)
  else none

/-- The value of digits in a base. -/
def baseValue (base : ℕ) (s : CStr) : Option ℕ :=
  s.foldl (fun v c => v.bind fun n => (hexDigit c).bind fun d =>
    if d < base then some (base * n + d) else none) (some 0)

end G7
