import G7Ctrl.Core.Bytes
import Mathlib.Data.List.DropRight

/-!
# Trimming a string (`xstrtrim`, `xstrtrim_crnl`)

Both functions drop the spaces a string begins with; they differ in what they drop at its end.

* **`trimEnds_eq_self`** — a string that neither begins with a space nor ends with such a character
  stays as it is.
* **`of_mem_getLast_trimEnds`** — the result does not end with such a character.
-/

namespace G7

/-- The loops of both functions: the characters dropped at the end are those of `isEnd`. -/
def trimEnds (isEnd : Byte → Bool) (s : CStr) : CStr :=
  (s.rdropWhile isEnd).dropWhile (· == ch ' ')

/-- `xstrtrim` -/
def xstrtrim (s : CStr) : CStr := trimEnds (· == ch ' ') s

/-- `*endptr == ' ' || *endptr == '\n' || *endptr == '\r'` -/
def isCrnl (c : Byte) : Bool := c == ch ' ' || c == lf || c == cr

/-- `xstrtrim_crnl` -/
def xstrtrimCrnl (s : CStr) : CStr := trimEnds isCrnl s

lemma trimEnds_sublist (isEnd : Byte → Bool) (s : CStr) : (trimEnds isEnd s).Sublist s :=
  (List.dropWhile_sublist _).trans (List.rdropWhile_prefix _ _).sublist

/-- One more character to drop at the end changes nothing. -/
lemma trimEnds_concat {isEnd : Byte → Bool} {c : Byte} (hc : isEnd c = true) (s : CStr) :
    trimEnds isEnd (s ++ [c]) = trimEnds isEnd s := by
  rw [trimEnds, List.rdropWhile_concat_pos _ _ _ hc, trimEnds]

/-- **A string with nothing to drop stays as it is.** -/
theorem trimEnds_eq_self {isEnd : Byte → Bool} {s : CStr} (hhead : ∀ c ∈ s.head?, c ≠ ch ' ')
    (hlast : ∀ c ∈ s.getLast?, isEnd c = false) : trimEnds isEnd s = s := by
  have hend : s.rdropWhile isEnd = s := by
    rw [List.rdropWhile_eq_self_iff]
    intro hne
    simpa using hlast _ (List.getLast?_eq_some_getLast hne)
  rw [trimEnds, hend]
  cases s with
  | nil => rfl
  | cons c cs => rw [List.dropWhile_cons_of_neg (by simpa using hhead c rfl)]

/-- **What a string begins with stays** when it neither begins with a space nor ends with a character
that is dropped. -/
theorem trimEnds_append {isEnd : Byte → Bool} {a : CStr} (hne : a ≠ [])
    (hhead : ∀ c ∈ a.head?, c ≠ ch ' ') (hlast : ∀ c ∈ a.getLast?, isEnd c = false) (s : CStr) :
    ∃ t, trimEnds isEnd (a ++ s) = a ++ t := by
  have hend : ∃ t, (a ++ s).rdropWhile isEnd = a ++ t := by
    induction s using List.reverseRecOn with
    | nil =>
        refine ⟨[], ?_⟩
        rw [List.append_nil, List.rdropWhile_eq_self_iff]
        intro hne
        simpa using hlast _ (List.getLast?_eq_some_getLast hne)
    | append_singleton s c ih =>
        rw [← List.append_assoc]
        by_cases hc : isEnd c = true
        · rw [List.rdropWhile_concat_pos _ _ _ hc]
          exact ih
        · exact ⟨s ++ [c], by rw [List.rdropWhile_concat_neg _ _ _ hc, List.append_assoc]⟩
  obtain ⟨t, ht⟩ := hend
  refine ⟨t, ?_⟩
  rw [trimEnds, ht]
  cases a with
  | nil => exact absurd rfl hne
  | cons c cs =>
      rw [List.cons_append, List.dropWhile_cons_of_neg (by simpa using hhead c rfl)]

/-- Dropping at the front leaves the last character. -/
lemma getLast?_dropWhile {p : Byte → Bool} : ∀ {s : CStr} {c : Byte},
    c ∈ (s.dropWhile p).getLast? → c ∈ s.getLast?
  | [], c, hc => hc
  | d :: ds, c, hc => by
      by_cases hd : p d = true
      · rw [List.dropWhile_cons_of_pos hd] at hc
        have hds : c ∈ ds.getLast? := getLast?_dropWhile hc
        cases ds with
        | nil => simp at hds
        | cons e es => rwa [List.getLast?_cons_cons]
      · rwa [List.dropWhile_cons_of_neg hd] at hc

/-- **The result does not end with a character that is dropped.** -/
theorem of_mem_getLast_trimEnds {isEnd : Byte → Bool} {s : CStr} {c : Byte}
    (hc : c ∈ (trimEnds isEnd s).getLast?) : isEnd c = false := by
  have hlast : c ∈ (s.rdropWhile isEnd).getLast? := getLast?_dropWhile hc
  have hne : s.rdropWhile isEnd ≠ [] := by
    intro hnil
    simp [hnil] at hlast
  rw [List.getLast?_eq_some_getLast hne, Option.mem_some_iff] at hlast
  have hkept := List.rdropWhile_last_not isEnd s hne
  rw [hlast] at hkept
  simpa using hkept

/-- A character that is not dropped stays. -/
lemma mem_dropWhile_iff {p : Byte → Bool} {c : Byte} (hc : p c = false) (s : CStr) :
    c ∈ s.dropWhile p ↔ c ∈ s := by
  refine ⟨fun h => (List.dropWhile_sublist p).subset h, fun h => ?_⟩
  rw [← List.takeWhile_append_dropWhile (p := p) (l := s), List.mem_append] at h
  refine h.resolve_left fun htake => ?_
  rw [List.mem_takeWhile_imp htake] at hc
  cases hc

lemma mem_trimEnds_iff {isEnd : Byte → Bool} {c : Byte} (hend : isEnd c = false) (hc : c ≠ ch ' ')
    (s : CStr) : c ∈ trimEnds isEnd s ↔ c ∈ s := by
  rw [trimEnds, mem_dropWhile_iff (p := (· == ch ' ')) (beq_eq_false_iff_ne.mpr hc),
    List.rdropWhile, List.mem_reverse, mem_dropWhile_iff hend, List.mem_reverse]

lemma mem_xstrtrim_iff {c : Byte} (hc : c ≠ ch ' ') (s : CStr) : c ∈ xstrtrim s ↔ c ∈ s :=
  @mem_trimEnds_iff (· == ch ' ') c (beq_eq_false_iff_ne.mpr hc) hc s

/-- Nothing is left of spaces only. -/
lemma xstrtrim_eq_nil_iff {s : CStr} : xstrtrim s = [] ↔ ∀ c ∈ s, c = ch ' ' := by
  constructor
  · intro h c hc
    by_contra hne
    rw [← mem_xstrtrim_iff hne, h] at hc
    exact List.not_mem_nil hc
  · intro h
    by_contra hne
    have hlast := List.getLast?_eq_some_getLast hne
    have hspace := h _ ((trimEnds_sublist _ s).subset (List.getLast_mem hne))
    have hend := of_mem_getLast_trimEnds (Option.mem_def.mpr hlast)
    rw [beq_eq_false_iff_ne] at hend
    exact hend hspace

/-- **A string that begins with a character** keeps it. -/
lemma xstrtrim_cons {c : Byte} (hc : c ≠ ch ' ') (s : CStr) :
    ∃ t, xstrtrim (c :: s) = c :: t ∧ t <+: s := by
  have hkept : ∃ t, (c :: s).rdropWhile (· == ch ' ') = c :: t ∧ t <+: s := by
    induction s using List.reverseRecOn with
    | nil => exact ⟨[], List.rdropWhile_concat_neg _ [] c (by simpa using hc), List.prefix_rfl⟩
    | append_singleton s d ih =>
        rw [← List.cons_append]
        by_cases hd : (d == ch ' ') = true
        · obtain ⟨t, ht, hpre⟩ := ih
          refine ⟨t, ?_, hpre.trans (List.prefix_append _ _)⟩
          rwa [List.rdropWhile_concat_pos (· == ch ' ') _ _ hd]
        · exact ⟨s ++ [d], List.rdropWhile_concat_neg _ _ _ hd, List.prefix_rfl⟩
  obtain ⟨t, ht, hpre⟩ := hkept
  refine ⟨t, ?_, hpre⟩
  rw [xstrtrim, trimEnds, ht, List.dropWhile_cons_of_neg (by simpa using hc)]

end G7
