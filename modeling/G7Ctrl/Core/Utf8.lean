import G7Ctrl.Core.Bytes
import Mathlib.Data.List.Infix

/-!
# UTF-8

A text is a list of code points, each with the one to four bytes that encode it.

* `CodePoint`, `utf8Bytes` — a code point, and the bytes of a text.
* `isTail`, `charCount` — the bytes that continue a code point, and the number of the others.
* **`charCount_utf8Bytes`** — it is the number of code points.
* **`exists_take_of_prefix`** — a beginning of a text that is a text ends behind a code point.
* **`charCount_take`** — the code points that begin in front of a place.
* `Whole`, **`whole_take_iff`** — the longest beginning with some number of bytes.
-/

namespace G7

/-! ## Code points -/

/-- A byte that continues a code point. -/
def isTail (c : Byte) : Bool := 0x80 ≤ c && c ≤ 0xBF

/-- The bytes of one code point. -/
def isCodePoint : List Byte → Bool
  | [a] => a ≤ 0x7F
  | [a, b] => 0xC2 ≤ a && a ≤ 0xDF && isTail b
  | [a, b, c] => 0xE0 ≤ a && a ≤ 0xEF && isTail b && isTail c && (a != 0xE0 || 0xA0 ≤ b) &&
      (a != 0xED || b ≤ 0x9F)
  | [a, b, c, d] => 0xF0 ≤ a && a ≤ 0xF4 && isTail b && isTail c && isTail d &&
      (a != 0xF0 || 0x90 ≤ b) && (a != 0xF4 || b ≤ 0x8F)
  | _ => false

/-- A code point, as it is encoded. -/
structure CodePoint where
  bytes : List Byte
  valid : isCodePoint bytes = true
  deriving DecidableEq

/-- The bytes of a text. -/
def utf8Bytes (t : List CodePoint) : List Byte := t.flatMap CodePoint.bytes

/-- How many bytes a code point has that begins with this one. -/
def seqLen (a : Byte) : ℕ := if a ≤ 0x7F then 1 else if a ≤ 0xDF then 2 else if a ≤ 0xEF then 3 else 4

lemma seqLen_eq_two : ∀ {a : Byte}, 0xC2 ≤ a → a ≤ 0xDF → seqLen a = 2 ∧ isTail a = false := by
  intro a h h'
  have hcheck := forall_byte (p := fun a => !(decide (0xC2 ≤ a) && decide (a ≤ 0xDF)) ||
    (seqLen a == 2 && !isTail a)) (by decide +kernel) a
  simpa [h, h'] using hcheck

lemma seqLen_eq_three : ∀ {a : Byte}, 0xE0 ≤ a → a ≤ 0xEF → seqLen a = 3 ∧ isTail a = false := by
  intro a h h'
  have hcheck := forall_byte (p := fun a => !(decide (0xE0 ≤ a) && decide (a ≤ 0xEF)) ||
    (seqLen a == 3 && !isTail a)) (by decide +kernel) a
  simpa [h, h'] using hcheck

lemma seqLen_eq_four : ∀ {a : Byte}, 0xF0 ≤ a → a ≤ 0xF4 → seqLen a = 4 ∧ isTail a = false := by
  intro a h h'
  have hcheck := forall_byte (p := fun a => !(decide (0xF0 ≤ a) && decide (a ≤ 0xF4)) ||
    (seqLen a == 4 && !isTail a)) (by decide +kernel) a
  simpa [h, h'] using hcheck

lemma seqLen_eq_one : ∀ {a : Byte}, a ≤ 0x7F → seqLen a = 1 ∧ isTail a = false := by
  intro a h
  have hcheck := forall_byte (p := fun a => !decide (a ≤ 0x7F) || (seqLen a == 1 && !isTail a))
    (by decide +kernel) a
  simpa [h] using hcheck

/-- **What all code points share**: the first byte gives the length, and only the others continue. -/
lemma CodePoint.exists_cons (p : CodePoint) :
    ∃ a tail, p.bytes = a :: tail ∧ isTail a = false ∧ (∀ c ∈ tail, isTail c = true) ∧
      tail.length + 1 = seqLen a ∧ tail.length ≤ 3 := by
  obtain ⟨bytes, valid⟩ := p
  match bytes, valid with
  | [a], valid =>
      obtain ⟨hlen, htail⟩ := seqLen_eq_one (of_decide_eq_true valid)
      exact ⟨a, [], rfl, htail, fun c hc => absurd hc List.not_mem_nil, hlen.symm, by decide⟩
  | [a, b], valid =>
      simp only [isCodePoint, Bool.and_eq_true, decide_eq_true_eq] at valid
      obtain ⟨⟨hlow, hhigh⟩, hb⟩ := valid
      obtain ⟨hlen, htail⟩ := seqLen_eq_two hlow hhigh
      exact ⟨a, [b], rfl, htail, by simp [hb], hlen.symm, by simp⟩
  | [a, b, c], valid =>
      simp only [isCodePoint, Bool.and_eq_true, decide_eq_true_eq] at valid
      obtain ⟨⟨⟨⟨⟨hlow, hhigh⟩, hb⟩, hc⟩, -⟩, -⟩ := valid
      obtain ⟨hlen, htail⟩ := seqLen_eq_three hlow hhigh
      exact ⟨a, [b, c], rfl, htail, by simp [hb, hc], hlen.symm, by simp⟩
  | [a, b, c, d], valid =>
      simp only [isCodePoint, Bool.and_eq_true, decide_eq_true_eq] at valid
      obtain ⟨⟨⟨⟨⟨⟨hlow, hhigh⟩, hb⟩, hc⟩, hd⟩, -⟩, -⟩ := valid
      obtain ⟨hlen, htail⟩ := seqLen_eq_four hlow hhigh
      exact ⟨a, [b, c, d], rfl, htail, by simp [hb, hc, hd], hlen.symm, by simp⟩

lemma CodePoint.length_pos (p : CodePoint) : 0 < p.bytes.length := by
  obtain ⟨a, tail, hp, -⟩ := p.exists_cons
  rw [hp]
  exact Nat.succ_pos _

lemma CodePoint.length_le (p : CodePoint) : p.bytes.length ≤ 4 := by
  obtain ⟨a, tail, hp, -, -, -, hlen⟩ := p.exists_cons
  rw [hp]
  exact Nat.succ_le_succ hlen

/-! ## Texts -/

@[simp] lemma utf8Bytes_nil : utf8Bytes [] = [] := rfl

@[simp] lemma utf8Bytes_cons (p : CodePoint) (t : List CodePoint) : utf8Bytes (p :: t) = p.bytes ++ utf8Bytes t :=
  List.flatMap_cons

lemma utf8Bytes_cons_nil (p : CodePoint) : utf8Bytes [p] = p.bytes := List.flatMap_singleton ..

@[simp] lemma utf8Bytes_append (t u : List CodePoint) : utf8Bytes (t ++ u) = utf8Bytes t ++ utf8Bytes u :=
  List.flatMap_append

/-- The number of bytes that begin a code point. -/
def charCount (s : List Byte) : ℕ := s.countP fun c => !isTail c

@[simp] lemma charCount_append (s s' : List Byte) : charCount (s ++ s') = charCount s + charCount s' :=
  List.countP_append

lemma CodePoint.charCount_take (p : CodePoint) {n : ℕ} (hn : 0 < n) :
    charCount (p.bytes.take n) = 1 := by
  obtain ⟨a, tail, hp, ha, htail, -⟩ := p.exists_cons
  obtain ⟨n, rfl⟩ := Nat.exists_eq_succ_of_ne_zero (Nat.ne_of_gt hn)
  have hnone : (tail.take n).countP (fun c => !isTail c) = 0 := by
    refine List.countP_eq_zero.mpr fun c hc => ?_
    rw [htail c (List.mem_of_mem_take hc)]
    exact Bool.false_ne_true
  rw [hp, List.take_succ_cons, charCount, List.countP_cons_of_pos (by rw [ha]; rfl), hnone]

/-- **The code points of a text** are counted by the bytes that begin one. -/
theorem charCount_utf8Bytes (t : List CodePoint) : charCount (utf8Bytes t) = t.length := by
  induction t with
  | nil => rfl
  | cons p t ih =>
      have hp := p.charCount_take p.length_pos
      rw [List.take_length] at hp
      rw [utf8Bytes_cons, charCount_append, hp, ih, List.length_cons, Nat.add_comm]

/-- A text begins with a byte that begins a code point, or with nothing. -/
lemma isTail_head_utf8Bytes {t : List CodePoint} {c : Byte} (h : (utf8Bytes t).head? = some c) :
    isTail c = false := by
  cases t with
  | nil => exact nomatch h
  | cons p t =>
      obtain ⟨a, tail, hp, ha, -⟩ := p.exists_cons
      rw [utf8Bytes_cons, hp] at h
      cases h
      exact ha

/-- **A text that begins another one** has its first code points. -/
theorem prefix_of_utf8Bytes_prefix {t u : List CodePoint} (h : utf8Bytes t <+: utf8Bytes u) : t <+: u := by
  induction t generalizing u with
  | nil => exact List.nil_prefix
  | cons p t ih =>
      obtain ⟨a, tail, hp, -, -, hlen, -⟩ := p.exists_cons
      obtain ⟨rest, hrest⟩ := h
      cases u with
      | nil =>
          rw [utf8Bytes_cons, hp] at hrest
          exact nomatch hrest
      | cons q u =>
          obtain ⟨b, tail', hq, -, -, hlen', -⟩ := q.exists_cons
          rw [utf8Bytes_cons, utf8Bytes_cons, List.append_assoc] at hrest
          have hhead : a = b := by
            rw [hp, hq] at hrest
            exact (List.cons.inj hrest).1
          have hlength : p.bytes.length = q.bytes.length := by
            rw [hp, hq, List.length_cons, List.length_cons, hlen, hlen', hhead]
          obtain ⟨hbytes, htail⟩ := List.append_inj hrest hlength
          have hpq : p = q := by
            cases p
            cases q
            cases hbytes
            rfl
          rw [hpq]
          exact List.cons_prefix_cons.mpr ⟨rfl, ih ⟨rest, htail⟩⟩

/-- So a beginning of a text that is a text ends behind a code point. -/
lemma exists_take_of_prefix {t u : List CodePoint} (h : utf8Bytes u <+: utf8Bytes t) :
    ∃ k, k ≤ t.length ∧ u = t.take k :=
  have hpre := prefix_of_utf8Bytes_prefix h
  ⟨u.length, hpre.length_le, List.prefix_iff_eq_take.mp hpre⟩

/-- Where the code point with a number begins. -/
def charOffset (t : List CodePoint) (k : ℕ) : ℕ := (utf8Bytes (t.take k)).length

@[simp] lemma charOffset_zero (t : List CodePoint) : charOffset t 0 = 0 := by
  simp [charOffset]

lemma charOffset_cons (p : CodePoint) (t : List CodePoint) (k : ℕ) :
    charOffset (p :: t) (k + 1) = p.bytes.length + charOffset t k := by
  rw [charOffset, List.take_succ_cons, utf8Bytes_cons, List.length_append]
  rfl

lemma charOffset_lt_succ {t : List CodePoint} {k : ℕ} (h : k < t.length) :
    charOffset t k < charOffset t (k + 1) := by
  have hpos := (t[k]).length_pos
  rw [charOffset, charOffset, List.take_succ_eq_append_getElem h, utf8Bytes_append, List.length_append,
    utf8Bytes_cons, utf8Bytes_nil, List.append_nil]
  exact Nat.lt_add_of_pos_right hpos

lemma charOffset_mono {t : List CodePoint} {j k : ℕ} (h : j ≤ k) :
    charOffset t j ≤ charOffset t k := by
  obtain ⟨d, rfl⟩ := Nat.exists_eq_add_of_le h
  rw [charOffset, charOffset, List.take_add, utf8Bytes_append, List.length_append]
  exact Nat.le_add_right _ _

/-- **The code points that begin in front of a place** are the first ones. -/
theorem charCount_take (t : List CodePoint) (n : ℕ) :
    charCount ((utf8Bytes t).take n) ≤ t.length ∧
      (∀ j < charCount ((utf8Bytes t).take n), charOffset t j < n) ∧
      (charCount ((utf8Bytes t).take n) < t.length → n ≤ charOffset t (charCount ((utf8Bytes t).take n))) := by
  induction t generalizing n with
  | nil => exact ⟨by simp [charCount], fun j hj => by simp [charCount] at hj, by simp [charCount]⟩
  | cons p t ih =>
      rcases Nat.eq_zero_or_pos n with rfl | hn
      · exact ⟨by simp [charCount], fun j hj => by simp [charCount] at hj, fun _ => Nat.zero_le _⟩
      · obtain ⟨hle, hbefore, hbehind⟩ := ih (n - p.bytes.length)
        have hcount : charCount ((utf8Bytes (p :: t)).take n) =
            charCount ((utf8Bytes t).take (n - p.bytes.length)) + 1 := by
          rw [utf8Bytes_cons, List.take_append, charCount_append, p.charCount_take hn, Nat.add_comm]
        rw [hcount, List.length_cons]
        refine ⟨Nat.succ_le_succ hle, fun j hj => ?_, fun hlt => ?_⟩
        · cases j with
          | zero => rwa [charOffset_zero]
          | succ j =>
              have hj := hbefore j (Nat.lt_of_succ_lt_succ hj)
              rw [charOffset_cons]
              omega
        · have hge := hbehind (Nat.lt_of_succ_lt_succ hlt)
          rw [charOffset_cons]
          omega

/-! ## Whole code points -/

/-- The longest beginning of `s` with at most `n` bytes that consists of whole code points. -/
structure Whole (s : List Byte) (n : ℕ) (p : List Byte) : Prop where
  isPrefix : p <+: s
  isUtf8 : ∃ t, utf8Bytes t = p
  length_le : p.length ≤ n
  longest : ∀ t, utf8Bytes t <+: s → (utf8Bytes t).length ≤ n → (utf8Bytes t).length ≤ p.length

/-- **The first `k` code points are the longest beginning** if they fit and the next one does not. -/
theorem whole_take_iff {t : List CodePoint} {k n : ℕ} :
    Whole (utf8Bytes t) n (utf8Bytes (t.take k)) ↔
      charOffset t k ≤ n ∧ (k < t.length → n < charOffset t (k + 1)) := by
  have hpre (j : ℕ) : utf8Bytes (t.take j) <+: utf8Bytes t := by
    refine ⟨utf8Bytes (t.drop j), ?_⟩
    rw [← utf8Bytes_append, List.take_append_drop]
  constructor
  · intro h
    refine ⟨h.length_le, fun hlt => ?_⟩
    by_contra hfits
    have hlong := h.longest (t.take (k + 1)) (hpre (k + 1)) (Nat.not_lt.mp hfits)
    exact absurd (charOffset_lt_succ hlt) (Nat.not_lt.mpr hlong)
  · rintro ⟨hfits, hnext⟩
    refine ⟨hpre k, ⟨_, rfl⟩, hfits, fun u hu hlen => ?_⟩
    obtain ⟨j, hj, rfl⟩ := exists_take_of_prefix hu
    refine charOffset_mono (Nat.not_lt.mp fun hlt => ?_)
    have hge : charOffset t (k + 1) ≤ charOffset t j := charOffset_mono hlt
    exact absurd (hnext (hlt.trans_le hj)) (Nat.not_lt.mpr (hge.trans hlen))

end G7
