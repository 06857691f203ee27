import Mathlib.Data.List.Infix

/-!
# Lines with a break behind each

* `joinLines` — some lines, each ended by a line break.
* `Avoids` — a list does not contain another one.
* **`Avoids.append_cons_iff`** — a letter that is not in the pattern separates what contains it.
* **`avoids_joinLines_iff`** — a pattern is in some lines only if it is in one of them.
-/

namespace G7

variable {α : Type*} {brk : α} {lines lines' : List (List α)}

/-- Some lines, each ended by a line break. -/
def joinLines (brk : α) (lines : List (List α)) : List α := lines.flatMap (· ++ [brk])

@[simp] lemma joinLines_cons (line : List α) :
    joinLines brk (line :: lines) = line ++ brk :: joinLines brk lines := by
  rw [joinLines, List.flatMap_cons, List.append_assoc]
  rfl

lemma joinLines_singleton (line : List α) : joinLines brk [line] = line ++ [brk] := joinLines_cons line

lemma joinLines_append : joinLines brk (lines ++ lines') = joinLines brk lines ++ joinLines brk lines' :=
  List.flatMap_append

/-! ## Patterns -/

/-- The list does not contain the pattern. -/
def Avoids (p s : List α) : Prop := ¬ p <:+: s

namespace Avoids

variable {p a b f s : List α} {c : α}

lemma of_part (h : Avoids p s) (ha : a <:+: s) : Avoids p a := fun hp => h (hp.trans ha)

lemma nil (hp : p ≠ []) : Avoids p [] := fun h => hp (List.infix_nil.mp h)

/-- **A letter that is not in the pattern** separates what contains it. -/
theorem append_cons_iff (hc : c ∉ p) (hp : p ≠ []) :
    Avoids p (a ++ c :: b) ↔ Avoids p a ∧ Avoids p b := by
  constructor
  · intro h
    exact ⟨h.of_part ⟨[], c :: b, rfl⟩, h.of_part ⟨a ++ [c], [], by simp⟩⟩
  · rintro ⟨ha, hb⟩ h
    rcases List.infix_append_iff.mp h with hin | hin | ⟨l₁, l₂, rfl, hsuffix, hpre⟩
    · exact ha hin
    · rcases List.infix_cons_iff.mp hin with hpre | hin
      · obtain ⟨d, q, rfl⟩ := List.exists_cons_of_ne_nil hp
        rw [(List.cons_prefix_cons.mp hpre).1] at hc
        exact hc List.mem_cons_self
      · exact hb hin
    · cases l₂ with
      | nil =>
          rw [List.append_nil] at ha
          exact ha hsuffix.isInfix
      | cons d l₂ =>
          rw [(List.cons_prefix_cons.mp hpre).1] at hc
          exact hc (List.mem_append_right _ List.mem_cons_self)

/-- Letters that are not in the pattern, in front. -/
lemma foreign_append_iff (hf : ∀ c ∈ f, c ∉ p) (hp : p ≠ []) :
    Avoids p (f ++ s) ↔ Avoids p s := by
  induction f with
  | nil => exact Iff.rfl
  | cons c f ih =>
      rw [List.forall_mem_cons] at hf
      have hcons := append_cons_iff (a := []) (b := f ++ s) hf.1 hp
      rw [List.cons_append, ← ih hf.2]
      exact hcons.trans (and_iff_right (Avoids.nil hp))

/-- And behind. -/
lemma append_foreign_iff (hf : ∀ c ∈ f, c ∉ p) (hp : p ≠ []) :
    Avoids p (s ++ f) ↔ Avoids p s := by
  cases f with
  | nil => rw [List.append_nil]
  | cons c f =>
      rw [List.forall_mem_cons] at hf
      have hrest : Avoids p f := by
        rw [← List.append_nil f, foreign_append_iff hf.2 hp]
        exact Avoids.nil hp
      rw [append_cons_iff hf.1 hp, and_iff_left hrest]

end Avoids

/-- **A pattern without line breaks** is in some lines if and only if it is in one of them. -/
theorem avoids_joinLines_iff {p : List α} (hbrk : brk ∉ p) (hp : p ≠ []) :
    Avoids p (joinLines brk lines) ↔ ∀ line ∈ lines, Avoids p line := by
  induction lines with
  | nil => exact iff_of_true (Avoids.nil hp) fun line hline => absurd hline List.not_mem_nil
  | cons line lines ih =>
      rw [joinLines_cons, Avoids.append_cons_iff hbrk hp, ih, List.forall_mem_cons]

end G7
