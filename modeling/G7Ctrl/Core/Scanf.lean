import Mathlib.Data.List.DropRight
import Mathlib.Data.List.TakeWhile

/-!
# Reading with a format (`sscanf`)

The directives of a `scanf` format that stand for sets of characters, over any type of characters.
A set reads the longest text of its characters and fails when there is none; a character must be
there; a space skips what is blank.  The first directive that fails ends the scan, and what was read
so far is the result.

* `scan` — the texts that were read.
* **`scan_set`**, **`scan_literal`** — a directive that succeeds.
* `strip` — a text without the blanks at its ends, with **`strip_append`**.
-/

namespace G7

/-- A directive. -/
inductive ScanItem (α : Type*) where
  /-- `%[...]` -/
  | set (p : α → Bool)
  | literal (c : α)
  | blank

section

variable {α : Type*} [DecidableEq α] (isBlank : α → Bool)

/-- The texts that the sets of a format read. -/
def scan : List (ScanItem α) → List α → List (List α)
  | [], _ => []
  | .set p :: items, s =>
      if s.takeWhile p = [] then [] else s.takeWhile p :: scan items (s.dropWhile p)
  | .literal _ :: _, [] => []
  | .literal c :: items, d :: s => if d = c then scan items s else []
  | .blank :: items, s => scan items (s.dropWhile isBlank)

/-- A format with two sets, when both have read something. -/
def scanPair (items : List (ScanItem α)) (s : List α) : Option (List α × List α) :=
  match scan isBlank items s with
  | [a, b] => some (a, b)
  | _ => none

end

section

variable {α : Type*} {p : α → Bool} {a s : List α} {c d : α}

/-- The first character is none of a set. -/
def StopsAt (p : α → Bool) (s : List α) : Prop := ∀ c ∈ s.head?, p c = false

lemma stopsAt_nil : StopsAt p ([] : List α) := fun _ h => by cases h

lemma stopsAt_cons : StopsAt p (c :: s) ↔ p c = false := by simp [StopsAt]

lemma takeWhile_of_stopsAt (h : StopsAt p s) : s.takeWhile p = [] ∧ s.dropWhile p = s := by
  cases s with
  | nil => exact ⟨rfl, rfl⟩
  | cons c s =>
      have hc : ¬ p c = true := by simpa using stopsAt_cons.mp h
      exact ⟨List.takeWhile_cons_of_neg hc, List.dropWhile_cons_of_neg hc⟩

/-- What a set reads and what it leaves. -/
lemma takeWhile_append_stopsAt (ha : ∀ c ∈ a, p c = true) (hs : StopsAt p s) :
    (a ++ s).takeWhile p = a ∧ (a ++ s).dropWhile p = s := by
  obtain ⟨htake, hdrop⟩ := takeWhile_of_stopsAt hs
  rw [List.takeWhile_append_of_pos ha, List.dropWhile_append_of_pos ha, htake, hdrop,
    List.append_nil]
  exact ⟨rfl, rfl⟩

variable [DecidableEq α] {isBlank : α → Bool} {items : List (ScanItem α)}

/-- **A set that finds its characters.** -/
theorem scan_set (hne : a ≠ []) (ha : ∀ c ∈ a, p c = true) (hs : StopsAt p s) :
    scan isBlank (.set p :: items) (a ++ s) = a :: scan isBlank items s := by
  obtain ⟨htake, hdrop⟩ := takeWhile_append_stopsAt ha hs
  rw [scan, htake, hdrop, if_neg hne]

/-- A set that finds none. -/
lemma scan_set_stop (hs : StopsAt p s) : scan isBlank (.set p :: items) s = [] := by
  rw [scan, (takeWhile_of_stopsAt hs).1, if_pos rfl]

/-- **A character that is there.** -/
theorem scan_literal : scan isBlank (.literal c :: items) (c :: s) = scan isBlank items s :=
  if_pos rfl

/-- A character that is not there. -/
lemma scan_literal_stop (h : s.head? ≠ some c) : scan isBlank (.literal c :: items) s = [] := by
  cases s with
  | nil => rfl
  | cons d s => exact if_neg fun hdc => h (by rw [hdc]; rfl)

end

/-! ## Without the blanks at the ends -/

section

variable {α : Type*} {isBlank : α → Bool} {a s t : List α} {c : α}

/-- A text without the blanks at its ends. -/
def strip (isBlank : α → Bool) (s : List α) : List α := (s.dropWhile isBlank).rdropWhile isBlank

/-- The last character is not blank. -/
def EndsAt (p : α → Bool) (s : List α) : Prop := ∀ c ∈ s.getLast?, p c = false

lemma rdropWhile_of_endsAt (h : EndsAt isBlank s) : s.rdropWhile isBlank = s := by
  rw [List.rdropWhile_eq_self_iff]
  intro hne
  simpa using h _ (List.getLast?_eq_some_getLast hne)

lemma endsAt_rdropWhile (s : List α) : EndsAt isBlank (s.rdropWhile isBlank) := by
  intro c hc
  have hne : s.rdropWhile isBlank ≠ [] := by
    rintro hnil
    simp [hnil] at hc
  rw [List.getLast?_eq_some_getLast hne, Option.mem_some_iff] at hc
  simpa [hc] using List.rdropWhile_last_not isBlank s hne

/-- Blanks at the end. -/
lemma rdropWhile_append_blank (ha : ∀ c ∈ a, isBlank c = true) :
    (s ++ a).rdropWhile isBlank = s.rdropWhile isBlank := by
  induction a using List.reverseRecOn with
  | nil => rw [List.append_nil]
  | append_singleton a c ih =>
      rw [← List.append_assoc, List.rdropWhile_concat_pos _ _ _ (ha c (by simp))]
      exact ih fun d hd => ha d (List.mem_append_left _ hd)

/-- What ends with no blank is left alone. -/
lemma rdropWhile_append (hs : s.rdropWhile isBlank ≠ []) :
    (a ++ s).rdropWhile isBlank = a ++ s.rdropWhile isBlank := by
  have hsplit : s.rdropWhile isBlank ++ s.rtakeWhile isBlank = s :=
    List.rdropWhile_append_rtakeWhile
  have hblank : ∀ c ∈ s.rtakeWhile isBlank, isBlank c = true := fun c hc =>
    List.mem_rtakeWhile_imp hc
  conv_lhs => rw [← hsplit, ← List.append_assoc]
  rw [rdropWhile_append_blank hblank, rdropWhile_of_endsAt]
  intro c hc
  rw [List.getLast?_append_of_ne_nil _ hs] at hc
  exact endsAt_rdropWhile s c hc

/-- Nothing in front of a character that is not blank is dropped. -/
lemma rdropWhile_append_cons (hc : isBlank c = false) :
    (a ++ c :: t).rdropWhile isBlank = a ++ c :: t.rdropWhile isBlank := by
  have hsplit : t.rdropWhile isBlank ++ t.rtakeWhile isBlank = t := List.rdropWhile_append_rtakeWhile
  have hblank : ∀ d ∈ t.rtakeWhile isBlank, isBlank d = true := fun d hd =>
    List.mem_rtakeWhile_imp hd
  have hends : EndsAt isBlank (a ++ c :: t.rdropWhile isBlank) := by
    intro d hd
    rw [List.getLast?_append_of_ne_nil _ (List.cons_ne_nil _ _), List.getLast?_cons] at hd
    cases hlast : (t.rdropWhile isBlank).getLast? with
    | none =>
        rw [hlast] at hd
        rwa [← Option.some.inj hd]
    | some e =>
        rw [hlast] at hd
        rw [← Option.some.inj hd]
        exact endsAt_rdropWhile t e hlast
  conv_lhs => rw [← hsplit]
  rw [← List.cons_append, ← List.append_assoc, rdropWhile_append_blank hblank,
    rdropWhile_of_endsAt hends]

/-- Nothing in front of a text that does not end with a blank is dropped. -/
lemma rdropWhile_append_endsAt (hs : s ≠ []) (hends : EndsAt isBlank s) :
    (s ++ t).rdropWhile isBlank = s ++ t.rdropWhile isBlank := by
  obtain ⟨s', c, rfl⟩ := (List.eq_nil_or_concat' s).resolve_left hs
  have hc : isBlank c = false := hends c (by simp)
  rw [List.append_assoc, List.append_assoc, List.singleton_append, List.singleton_append,
    rdropWhile_append_cons hc]

/-- The two ends do not meet. -/
lemma dropWhile_rdropWhile (s : List α) :
    (s.rdropWhile isBlank).dropWhile isBlank = (s.dropWhile isBlank).rdropWhile isBlank := by
  induction s with
  | nil => rfl
  | cons c s ih =>
      by_cases hc : isBlank c = true
      · rw [List.dropWhile_cons_of_pos hc, ← ih]
        by_cases hs : s.rdropWhile isBlank = []
        · have hall : ∀ d ∈ c :: s, isBlank d = true := by
            intro d hd
            rcases List.mem_cons.mp hd with rfl | hd
            · exact hc
            · exact List.rdropWhile_eq_nil_iff.mp hs d hd
          rw [List.rdropWhile_eq_nil_iff.mpr hall, hs]
        · rw [← List.singleton_append, rdropWhile_append hs, List.singleton_append,
            List.dropWhile_cons_of_pos hc]
      · have hfalse : isBlank c = false := by simpa using hc
        have hkept : (c :: s).rdropWhile isBlank = c :: s.rdropWhile isBlank :=
          rdropWhile_append_cons (a := []) hfalse
        rw [List.dropWhile_cons_of_neg hc, hkept, List.dropWhile_cons_of_neg hc]

/-- Blanks in front. -/
lemma strip_blank_append (ha : ∀ c ∈ a, isBlank c = true) :
    strip isBlank (a ++ s) = strip isBlank s := by
  rw [strip, List.dropWhile_append_of_pos ha, strip]

/-- A text that was cut at its end before. -/
lemma strip_rdropWhile (s : List α) : strip isBlank (s.rdropWhile isBlank) = strip isBlank s := by
  rw [strip, dropWhile_rdropWhile, List.rdropWhile_idempotent, strip]

/-- A text that begins with no blank. -/
lemma strip_of_stopsAt (h : StopsAt isBlank s) : strip isBlank s = s.rdropWhile isBlank := by
  rw [strip, (takeWhile_of_stopsAt h).2]

/-- **A text between blanks.** -/
theorem strip_append (ha : ∀ c ∈ a, isBlank c = true) (ht : ∀ c ∈ t, isBlank c = true)
    (hhead : StopsAt isBlank s) (hlast : EndsAt isBlank s) : strip isBlank (a ++ s ++ t) = s := by
  cases s with
  | nil =>
      have hall : ∀ c ∈ a ++ [] ++ t, isBlank c = true := by
        intro c hc
        rw [List.append_nil, List.mem_append] at hc
        exact hc.elim (ha c) (ht c)
      have hdrop : (a ++ [] ++ t).dropWhile isBlank = [] := List.dropWhile_eq_nil_iff.mpr hall
      rw [strip, hdrop, List.rdropWhile_nil]
  | cons c s =>
      have hstop : StopsAt isBlank (c :: s ++ t) := stopsAt_cons.mpr (stopsAt_cons.mp hhead)
      rw [strip, List.append_assoc, (takeWhile_append_stopsAt ha hstop).2,
        rdropWhile_append_blank ht, rdropWhile_of_endsAt hlast]

end

end G7
