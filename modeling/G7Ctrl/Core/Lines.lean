import G7Ctrl.Core.Bytes

/-!
# Lines of a mail

In a mail a line ends with `"\r\n"`; a carriage return or a line feed alone is a character like any
other.

* `linesOf` — the lines of a text, cut at each end of a line; what is behind the last one counts as
  a line too.
* **`intercalate_linesOf`** — joined again they are the text.
* **`linesOf_append_crlf`** — the lines of two texts with an end of a line between them.
-/

namespace G7

/-- The lines of a text. -/
def linesOf : CStr → List CStr
  | [] => [[]]
  | [c] => [[c]]
  | c :: d :: s =>
      if c = cr ∧ d = lf then [] :: linesOf s else (linesOf (d :: s)).modifyHead (c :: ·)

lemma linesOf_crlf (s : CStr) : linesOf (cr :: lf :: s) = [] :: linesOf s := if_pos ⟨rfl, rfl⟩

/-- A character that begins no line end belongs to the first line. -/
lemma linesOf_cons {c : Byte} {s : CStr} (h : ¬ (c = cr ∧ s.head? = some lf)) :
    linesOf (c :: s) = (linesOf s).modifyHead (c :: ·) := by
  cases s with
  | nil => rfl
  | cons d s => exact if_neg fun hend => h ⟨hend.1, congrArg some hend.2⟩

/-- **Induction over the lines**: a line end, or a character that begins none. -/
theorem linesOf_induction {P : CStr → Prop} (nil : P []) (lineEnd : ∀ s, P s → P (cr :: lf :: s))
    (cons : ∀ c s, ¬ (c = cr ∧ s.head? = some lf) → P s → P (c :: s)) (s : CStr) : P s := by
  induction s using linesOf.induct with
  | case1 => exact nil
  | case2 c => exact cons c [] (fun h => nomatch h.2) nil
  | case3 c d s h ih =>
      obtain ⟨rfl, rfl⟩ := h
      exact lineEnd s ih
  | case4 c d s h ih => exact cons c (d :: s) (fun hend => h ⟨hend.1, Option.some.inj hend.2⟩) ih

lemma linesOf_ne_nil (s : CStr) : linesOf s ≠ [] := by
  induction s using linesOf_induction with
  | nil => exact List.cons_ne_nil _ _
  | lineEnd s _ =>
      rw [linesOf_crlf]
      exact List.cons_ne_nil _ _
  | cons c s h ih => rwa [linesOf_cons h, Ne, List.modifyHead_eq_nil_iff]

/-- A text without a carriage return is one line. -/
lemma linesOf_of_notMem {s : CStr} (h : cr ∉ s) : linesOf s = [s] := by
  induction s with
  | nil => rfl
  | cons c s ih =>
      rw [List.mem_cons, not_or] at h
      rw [linesOf_cons fun hend => h.1 hend.1.symm, ih h.2, List.modifyHead_cons]

/-- A text without a carriage return in front belongs to the first line. -/
lemma linesOf_append_of_notMem {s : CStr} (h : cr ∉ s) (t : CStr) :
    linesOf (s ++ t) = (linesOf t).modifyHead (s ++ ·) := by
  induction s with
  | nil => exact (List.modifyHead_id ▸ rfl)
  | cons c s ih =>
      rw [List.mem_cons, not_or] at h
      rw [List.cons_append, linesOf_cons fun hend => h.1 hend.1.symm, ih h.2,
        List.modifyHead_modifyHead]
      rfl

/-- **The lines joined again** are the text. -/
theorem intercalate_linesOf (s : CStr) : crlf.intercalate (linesOf s) = s := by
  induction s using linesOf_induction with
  | nil => rfl
  | lineEnd s ih =>
      obtain ⟨l, ls, hs⟩ := List.exists_cons_of_ne_nil (linesOf_ne_nil s)
      rw [linesOf_crlf, hs, List.intercalate_cons_cons, ← hs, ih]
      rfl
  | cons c s h ih =>
      obtain ⟨l, ls, hs⟩ := List.exists_cons_of_ne_nil (linesOf_ne_nil s)
      rw [hs] at ih
      rw [linesOf_cons h, hs, List.modifyHead_cons]
      cases ls with
      | nil =>
          rw [List.intercalate_singleton] at ih ⊢
          rw [ih]
      | cons l' ls =>
          rw [List.intercalate_cons_cons] at ih ⊢
          rw [List.cons_append, List.cons_append, ih]

/-- **A line end between two texts** separates their lines. -/
theorem linesOf_append_crlf (a b : CStr) :
    linesOf (a ++ (crlf ++ b)) = linesOf a ++ linesOf b := by
  induction a using linesOf_induction with
  | nil => exact linesOf_crlf b
  | lineEnd a ih =>
      rw [List.cons_append, List.cons_append, linesOf_crlf, linesOf_crlf, ih, List.cons_append]
  | cons c a h ih =>
      have hhead : ¬ (c = cr ∧ (a ++ (crlf ++ b)).head? = some lf) := by
        cases a with
        | nil => exact fun hend => absurd (Option.some.inj hend.2) (by decide)
        | cons d a => exact h
      obtain ⟨l, ls, ha⟩ := List.exists_cons_of_ne_nil (linesOf_ne_nil a)
      rw [List.cons_append, linesOf_cons hhead, linesOf_cons h, ih, ha, List.cons_append,
        List.modifyHead_cons, List.modifyHead_cons, List.cons_append]

end G7
