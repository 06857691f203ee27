import G7Ctrl.Core.Lines
import Mathlib.Data.List.DropRight

/-!
# Quoted printable

A byte stands for itself or is written as `=` and two hexadecimal digits.  A `=` at the end of a
line is a soft line break, which is no part of the text, and blanks at the end of a line are not
either.

* `qpText` — a text with some bytes left as they are, on one line.
* `qpDecode` — the text of some lines.  What is not well formed is not decoded, such as a code with a
  soft line break in it.
* **`qpDecode_text`** — one line is decoded to what it was made of, if it does not end in a blank.
* **`qpDecode_ne_of_prefix`** — the beginning of a line is not.
-/

namespace G7

/-! ## The format -/

/-- The digits. -/
def qpHexDigits : List Byte := str "0123456789ABCDEF"

/-- The digit for four bits. -/
def qpHex (n : ℕ) : Byte := qpHexDigits.getD n 0

/-- The four bits of a digit. -/
def qpValue (c : Byte) : Option ℕ :=
  if qpHexDigits.idxOf c < 16 then some (qpHexDigits.idxOf c) else none

/-- The characters for a byte. -/
def qpUnits (plain : Byte → Bool) (c : Byte) : CStr :=
  if plain c then [c] else [ch '=', qpHex (c.toNat / 16), qpHex (c.toNat % 16)]

/-- A text on one line. -/
def qpText (plain : Byte → Bool) (text : CStr) : CStr := text.flatMap (qpUnits plain)

/-- The bytes that may stand for themselves. -/
def QpLiteral (c : Byte) : Prop := c = 9 ∨ 32 ≤ c ∧ c ≤ 126 ∧ c ≠ ch '='

instance (c : Byte) : Decidable (QpLiteral c) := inferInstanceAs (Decidable (_ ∨ _))

/-- A space or a tab. -/
def isQpBlank (c : Byte) : Bool := c == 32 || c == 9

/-- The text of a line, and whether it ends in a soft line break. -/
def qpDecodeLine : CStr → Option (CStr × Bool)
  | [] => some ([], false)
  | c :: s =>
      if c = ch '=' then
        match s with
        | [] => some ([], true)
        | [_] => none
        | h :: l :: s => do
            let a ← qpValue h
            let b ← qpValue l
            let (text, soft) ← qpDecodeLine s
            return ((a * 16 + b).toUInt8 :: text, soft)
      else if QpLiteral c then do
        let (text, soft) ← qpDecodeLine s
        return (c :: text, soft)
      else none

/-- Each `=` of a line begins a code or ends the line. -/
def WholeCodes : CStr → Prop
  | [] => True
  | c :: s =>
      if c = ch '=' then
        match s with
        | [] => True
        | [_] => False
        | h :: l :: s => (h ∈ qpHexDigits ∧ l ∈ qpHexDigits) ∧ WholeCodes s
      else WholeCodes s

/-- The texts of the lines put together. -/
def qpJoin : List (CStr × Bool) → CStr
  | [] => []
  | [(text, _)] => text
  | (text, soft) :: lines => text ++ (if soft then [] else crlf) ++ qpJoin lines

/-- The text of some lines. -/
def qpDecode (s : CStr) : Option CStr :=
  (((linesOf s).map (List.rdropWhile isQpBlank)).mapM qpDecodeLine).map qpJoin

/-! ## Texts on one line -/

section

variable {plain : Byte → Bool} {text p : CStr}

lemma qpValue_hex {n : ℕ} (h : n < 16) : qpValue (qpHex n) = some n := by
  have hall : ∀ m : Fin 16, qpValue (qpHex m) = some m.val := by decide +kernel
  exact hall ⟨n, h⟩

@[simp] lemma qpText_cons (c : Byte) (cs : CStr) :
    qpText plain (c :: cs) = qpUnits plain c ++ qpText plain cs := rfl

lemma length_qpUnits (c : Byte) : (qpUnits plain c).length = if plain c then 1 else 3 := by
  rw [qpUnits]
  split_ifs <;> rfl

lemma qpDecodeLine_literal {c : Byte} (hc : QpLiteral c) (s : CStr) :
    qpDecodeLine (c :: s) = (qpDecodeLine s).map fun r => (c :: r.1, r.2) := by
  have hne : c ≠ ch '=' := by
    rintro rfl
    exact absurd hc (by decide)
  rw [qpDecodeLine.eq_def]
  simp only [if_neg hne, if_pos hc]
  cases qpDecodeLine s <;> rfl

lemma qpDecodeLine_code (c : Byte) (s : CStr) :
    qpDecodeLine (ch '=' :: qpHex (c.toNat / 16) :: qpHex (c.toNat % 16) :: s) =
      (qpDecodeLine s).map fun r => (c :: r.1, r.2) := by
  have hlt := c.toNat_lt
  have hbyte : (c.toNat / 16 * 16 + c.toNat % 16).toUInt8 = c := by
    rw [Nat.div_add_mod']
    exact UInt8.ofNat_toNat
  rw [qpDecodeLine.eq_def]
  simp only [if_true, qpValue_hex (show c.toNat / 16 < 16 by omega),
    qpValue_hex (show c.toNat % 16 < 16 by omega), Option.bind_eq_bind, Option.bind_some, hbyte]
  cases qpDecodeLine s <;> rfl

/-- **A line is decoded** to what it was made of. -/
lemma qpDecodeLine_text (hplain : ∀ c, plain c = true → QpLiteral c) :
    qpDecodeLine (qpText plain text) = some (text, false) := by
  induction text with
  | nil => rfl
  | cons c cs ih =>
      rw [qpText_cons, qpUnits]
      split_ifs with hc
      · rw [List.singleton_append, qpDecodeLine_literal (hplain c hc), ih]
        rfl
      · simp only [List.cons_append, List.nil_append]
        rw [qpDecodeLine_code, ih]
        rfl

/-- The codes of a line are whole. -/
lemma wholeCodes_qpText (hplain : ∀ c, plain c = true → QpLiteral c) :
    WholeCodes (qpText plain text) := by
  have hdigit : ∀ n < 16, qpHex n ∈ qpHexDigits := by decide
  induction text with
  | nil => exact trivial
  | cons c cs ih =>
      have hlt := c.toNat_lt
      rw [qpText_cons, qpUnits]
      split_ifs with hc
      · have hne : c ≠ ch '=' := by
          rintro rfl
          exact absurd (hplain _ hc) (by decide)
        rw [List.singleton_append, WholeCodes.eq_def]
        simp only [if_neg hne]
        exact ih
      · simp only [List.cons_append, List.nil_append]
        rw [WholeCodes.eq_def]
        simp only [if_true]
        exact ⟨⟨hdigit _ (by omega), hdigit _ (by omega)⟩, ih⟩

/-- **The beginning of a line** is decoded to less, if it is decoded at all. -/
lemma length_lt_of_qpDecodeLine (hplain : ∀ c, plain c = true → QpLiteral c) {t : CStr} {soft : Bool}
    (hp : p <+: qpText plain text) (hne : p ≠ qpText plain text)
    (h : qpDecodeLine p = some (t, soft)) : t.length < text.length := by
  induction text generalizing p t soft with
  | nil => exact absurd (List.prefix_nil.mp hp) hne
  | cons c cs ih =>
      have hrest : ∀ {q : CStr}, q <+: qpText plain cs → q ≠ qpText plain cs →
          (qpDecodeLine q).map (fun r => (c :: r.1, r.2)) = some (t, soft) →
            t.length < (c :: cs).length := by
        intro q hq hqne hmap
        obtain ⟨r, hr, heq⟩ := Option.map_eq_some_iff.mp hmap
        obtain ⟨rfl, rfl⟩ := Prod.mk.inj heq
        exact Nat.succ_lt_succ (ih hq hqne hr)
      rw [qpText_cons, qpUnits] at hp hne
      match p, hp, hne, h with
      | [], _, _, h =>
          obtain ⟨rfl, -⟩ := Prod.mk.inj (Option.some.inj h)
          exact Nat.succ_pos _
      | d :: q, hp, hne, h =>
          split_ifs at hp hne with hc
          · rw [List.singleton_append, List.cons_prefix_cons] at hp
            obtain ⟨rfl, hq⟩ := hp
            rw [qpDecodeLine_literal (hplain d hc)] at h
            exact hrest hq (fun heq => hne (by rw [heq]; rfl)) h
          · simp only [List.cons_append, List.nil_append, List.cons_prefix_cons] at hp
            obtain ⟨rfl, hq⟩ := hp
            match q, hq, hne, h with
            | [], _, _, h =>
                obtain ⟨rfl, -⟩ := Prod.mk.inj (Option.some.inj h)
                exact Nat.succ_pos _
            | [x], _, _, h => cases h
            | x :: y :: q, hq, hne, h =>
                rw [List.cons_prefix_cons, List.cons_prefix_cons] at hq
                obtain ⟨rfl, rfl, hq⟩ := hq
                rw [qpDecodeLine_code] at h
                exact hrest hq (fun heq => hne (by rw [heq]; rfl)) h

lemma mem_qpUnits {c d : Byte} (h : d ∈ qpUnits plain c) :
    d = c ∧ plain c = true ∨ d = ch '=' ∨ d ∈ qpHexDigits := by
  have hdigit : ∀ n < 16, qpHex n ∈ qpHexDigits := by decide
  have hlt := c.toNat_lt
  rw [qpUnits] at h
  split_ifs at h with hc
  · exact Or.inl ⟨List.mem_singleton.mp h, hc⟩
  · simp only [List.mem_cons, List.not_mem_nil, or_false] at h
    rcases h with rfl | rfl | rfl
    · exact Or.inr (Or.inl rfl)
    · exact Or.inr (Or.inr (hdigit _ (by omega)))
    · exact Or.inr (Or.inr (hdigit _ (by omega)))

/-- **The characters of a line**: literals, `=` and digits. -/
lemma mem_qpText {d : Byte} (h : d ∈ qpText plain text) :
    plain d = true ∨ d = ch '=' ∨ d ∈ qpHexDigits := by
  obtain ⟨c, -, hd⟩ := List.mem_flatMap.mp h
  rcases mem_qpUnits hd with ⟨rfl, hc⟩ | hd
  · exact Or.inl hc
  · exact Or.inr hd

lemma cr_notMem_qpText (hplain : ∀ c, plain c = true → QpLiteral c) :
    cr ∉ qpText plain text := by
  intro h
  rcases mem_qpText h with hcr | hcr | hcr
  · exact absurd (hplain _ hcr) (by decide)
  · exact absurd hcr (by decide)
  · exact absurd hcr (by decide)

/-- A line ends in a blank if its text ends in one that is left as it is. -/
lemma rdropWhile_qpText_iff : (qpText plain text).rdropWhile isQpBlank = qpText plain text ↔
    ∀ c ∈ text.getLast?, plain c = true → isQpBlank c = false := by
  rcases List.eq_nil_or_concat text with rfl | ⟨init, c, rfl⟩
  · exact iff_of_true rfl nofun
  · have hconcat : qpText plain (init ++ [c]) = qpText plain init ++ qpUnits plain c := by
      rw [qpText, qpText, List.flatMap_append, List.flatMap_singleton]
    have hdigit : ∀ n < 16, isQpBlank (qpHex n) = false := by decide
    have hlt := c.toNat_lt
    rw [List.concat_eq_append, hconcat, List.getLast?_concat, qpUnits]
    by_cases hc : plain c = true
    · rw [if_pos hc, List.rdropWhile_concat]
      cases hblank : isQpBlank c with
      | true =>
          refine iff_of_false (fun h => ?_) fun h => absurd (h c rfl hc) (by simp [hblank])
          have hlen := congrArg List.length h
          have hle := (List.rdropWhile_prefix isQpBlank (qpText plain init)).length_le
          rw [if_pos rfl, List.length_append, List.length_singleton] at hlen
          omega
      | false =>
          refine iff_of_true (if_neg Bool.false_ne_true) fun d hd _ => ?_
          obtain rfl := Option.some.inj hd
          exact hblank
    · rw [if_neg hc]
      refine iff_of_true ?_ fun d hd hplain => ?_
      · rw [show [ch '=', qpHex (c.toNat / 16), qpHex (c.toNat % 16)] =
          [ch '=', qpHex (c.toNat / 16)] ++ [qpHex (c.toNat % 16)] from rfl, ← List.append_assoc,
          List.rdropWhile_concat_neg]
        simp [hdigit (c.toNat % 16) (by omega)]
      · obtain rfl := Option.some.inj hd
        exact absurd hplain hc

lemma qpDecode_of_notMem {s : CStr} (h : cr ∉ s) :
    qpDecode s = (qpDecodeLine (s.rdropWhile isQpBlank)).map Prod.fst := by
  rw [qpDecode, linesOf_of_notMem h, List.map_singleton]
  simp only [List.mapM_cons, List.mapM_nil]
  cases qpDecodeLine (s.rdropWhile isQpBlank) <;> rfl

/-- **A line is decoded to its text** if the text does not end in a blank. -/
theorem qpDecode_text (hplain : ∀ c, plain c = true → QpLiteral c)
    (hend : ∀ c ∈ text.getLast?, plain c = true → isQpBlank c = false) :
    qpDecode (qpText plain text) = some text := by
  rw [qpDecode_of_notMem (cr_notMem_qpText hplain), rdropWhile_qpText_iff.mpr hend,
    qpDecodeLine_text hplain]
  rfl

/-- **What is less than the line** is not decoded to its text. -/
theorem qpDecode_ne_of_prefix (hplain : ∀ c, plain c = true → QpLiteral c)
    (hp : p <+: qpText plain text) (hne : p.rdropWhile isQpBlank ≠ qpText plain text) :
    qpDecode p ≠ some text := by
  have hcr : cr ∉ p := fun h => cr_notMem_qpText hplain (hp.subset h)
  rw [qpDecode_of_notMem hcr]
  intro h
  obtain ⟨⟨t, soft⟩, hline, rfl⟩ := Option.map_eq_some_iff.mp h
  have hlt := length_lt_of_qpDecodeLine hplain ((List.rdropWhile_prefix _ _).trans hp) hne hline
  exact absurd hlt (lt_irrefl _)

end

end G7
