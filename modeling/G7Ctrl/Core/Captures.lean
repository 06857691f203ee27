import G7Ctrl.Core.Bytes

/-!
# What a regular expression captures

A match is described by the text it covers and its groups in the order of their opening brackets;
a group that took no part is absent.  The fields that are handed out for a match are the whole text
and the groups, an absent group as an empty text, without the absent groups at the end.

* `Match.group`, `Match.opt` — a capturing group, and an optional part.
* **`getD_fields`** — field `i` is group `i`.
* **`lt_length_fields`**, **`length_fields_le`** — there is a field for a group that took part, and
  none for the absent groups at the end.
-/

namespace G7

/-- A match, or a part of one. -/
structure Match where
  text : CStr
  groups : List (Option CStr)

/-- A text outside of groups. -/
def Match.lit (s : CStr) : Match := ⟨s, []⟩

/-- One part after the other. -/
def Match.seq (a b : Match) : Match := ⟨a.text ++ b.text, a.groups ++ b.groups⟩

instance : Append Match := ⟨Match.seq⟩

/-- A capturing group. -/
def Match.group (m : Match) : Match := ⟨m.text, some m.text :: m.groups⟩

/-- An optional part with `n` groups. -/
def Match.opt (n : ℕ) (m : Option Match) : Match := m.getD ⟨[], List.replicate n none⟩

/-- Without the absent groups at the end. -/
def dropAbsent : List (Option CStr) → List CStr
  | [] => []
  | g :: gs => if g = none ∧ dropAbsent gs = [] then [] else g.getD [] :: dropAbsent gs

/-- The fields of a match. -/
def Match.fields (m : Match) : List CStr := dropAbsent m.group.groups

lemma getD_dropAbsent (gs : List (Option CStr)) : ∀ i,
    (dropAbsent gs).getD i [] = (gs.getD i none).getD [] := by
  induction gs with
  | nil => exact fun i => rfl
  | cons g gs ih =>
      intro i
      rw [dropAbsent]
      split_ifs with h
      · have hrest := ih (i - 1)
        rw [h.2] at hrest
        cases i with
        | zero => rw [h.1]; rfl
        | succ i => exact hrest
      · cases i with
        | zero => rfl
        | succ i => exact ih i

lemma lt_length_dropAbsent {gs : List (Option CStr)} {i : ℕ} {s : CStr}
    (h : gs[i]? = some (some s)) : i < (dropAbsent gs).length := by
  induction gs generalizing i with
  | nil => simp at h
  | cons g gs ih =>
      rw [dropAbsent]
      cases i with
      | zero =>
          have hg : g = some s := Option.some.inj h
          rw [if_neg (by simp [hg])]
          exact Nat.succ_pos _
      | succ i =>
          have hlt := ih (i := i) h
          have hne : dropAbsent gs ≠ [] := List.ne_nil_of_length_pos (Nat.zero_lt_of_lt hlt)
          rw [if_neg fun hnil => hne hnil.2]
          exact Nat.succ_lt_succ hlt

lemma length_dropAbsent_le {gs : List (Option CStr)} {n : ℕ} (h : ∀ g ∈ gs.drop n, g = none) :
    (dropAbsent gs).length ≤ n := by
  induction gs generalizing n with
  | nil => exact Nat.zero_le n
  | cons g gs ih =>
      rw [dropAbsent]
      cases n with
      | zero =>
          obtain ⟨hg, hgs⟩ := List.forall_mem_cons.mp h
          have hnil : dropAbsent gs = [] := List.eq_nil_of_length_eq_zero (Nat.le_zero.mp (ih hgs))
          rw [if_pos ⟨hg, hnil⟩]
          exact le_refl 0
      | succ n =>
          have hrest := ih (n := n) h
          split_ifs
          · exact Nat.zero_le _
          · exact Nat.succ_le_succ hrest

/-- **Field `i` is group `i`**; field 0 is the whole text. -/
theorem getD_fields (m : Match) (i : ℕ) : m.fields.getD i [] = (m.group.groups.getD i none).getD [] :=
  getD_dropAbsent _ i

/-- **There is a field for a group that took part.** -/
theorem lt_length_fields {m : Match} {i : ℕ} {s : CStr} (h : m.group.groups[i]? = some (some s)) :
    i < m.fields.length :=
  lt_length_dropAbsent h

/-- A field that is not empty is there. -/
lemma lt_length_of_field {m : Match} {i : ℕ} (hi : m.fields.getD i [] ≠ []) :
    i < m.fields.length := by
  by_contra hlen
  rw [List.getD_eq_getElem?_getD, List.getElem?_eq_none (Nat.le_of_not_lt hlen)] at hi
  exact hi rfl

/-- **There are no more fields than groups before those that took no part.** -/
theorem length_fields_le {m : Match} {n : ℕ} (h : ∀ g ∈ m.group.groups.drop n, g = none) :
    m.fields.length ≤ n :=
  length_dropAbsent_le h

end G7
