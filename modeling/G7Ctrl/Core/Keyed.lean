import Mathlib.Data.List.Nodup
import Mathlib.Data.List.Forall2

/-!
# Lists with a key

Entries with a key that no two of them share: putting an entry in replaces the one with its key, or
adds it.

* `upsert` — puts an entry in.
* **`mem_upsert`**, **`nodup_upsert`** — what is in the list then, and that keys stay unique.
* **`filter_eq_singleton`** — the only entry that meets a condition is what a search finds.
* `exists_of_mem_left` — an entry of a list has a partner in a list that matches it.
-/

namespace G7

variable {α κ : Type*} [DecidableEq κ] (key : α → κ)

/-- Puts an entry in. -/
def upsert (x : α) (l : List α) : List α :=
  if key x ∈ l.map key then l.map fun y => if key y = key x then x else y else l ++ [x]

variable {key} {x y : α} {l : List α}

/-- **The new entry is in the list, and the old ones with other keys.** -/
theorem mem_upsert : y ∈ upsert key x l ↔ y = x ∨ (y ∈ l ∧ key y ≠ key x) := by
  rw [upsert]
  split_ifs with hmem
  · obtain ⟨z, hz, hkey⟩ := List.mem_map.mp hmem
    constructor
    · intro hy
      obtain ⟨w, hw, rfl⟩ := List.mem_map.mp hy
      split_ifs with hwx
      · exact Or.inl rfl
      · exact Or.inr ⟨hw, hwx⟩
    · rintro (rfl | ⟨hy, hne⟩)
      · exact List.mem_map.mpr ⟨z, hz, if_pos hkey⟩
      · exact List.mem_map.mpr ⟨y, hy, if_neg hne⟩
  · rw [List.mem_append, List.mem_singleton]
    constructor
    · rintro (hy | rfl)
      · exact Or.inr ⟨hy, fun hkey => hmem (List.mem_map.mpr ⟨y, hy, hkey⟩)⟩
      · exact Or.inl rfl
    · rintro (rfl | ⟨hy, -⟩)
      · exact Or.inr rfl
      · exact Or.inl hy

/-- **Keys stay unique.** -/
theorem nodup_upsert (hl : (l.map key).Nodup) : ((upsert key x l).map key).Nodup := by
  rw [upsert]
  split_ifs with hmem
  · have hkeys : (l.map fun y => if key y = key x then x else y).map key = l.map key := by
      rw [List.map_map]
      refine List.map_congr_left fun y _ => ?_
      show key (if key y = key x then x else y) = key y
      split_ifs with hy
      · exact hy.symm
      · rfl
    rwa [hkeys]
  · rw [List.map_append, List.map_singleton]
    exact List.nodup_append.mpr ⟨hl, List.nodup_singleton _, by
      intro k hk k' hk' heq
      rw [List.mem_singleton.mp hk'] at heq
      exact hmem (heq ▸ hk)⟩

omit [DecidableEq κ] in
/-- **The only entry that meets a condition is what a search finds.** -/
theorem filter_eq_singleton {p : α → Bool} (hl : (l.map key).Nodup) (hx : x ∈ l) (hpx : p x = true)
    (hp : ∀ y ∈ l, p y = true → key y = key x) : l.filter p = [x] := by
  have hall : ∀ y ∈ l.filter p, y = x := by
    intro y hy
    obtain ⟨hyl, hpy⟩ := List.mem_filter.mp hy
    exact List.inj_on_of_nodup_map hl hyl hx (hp y hyl hpy)
  have hmem : x ∈ l.filter p := List.mem_filter.mpr ⟨hx, hpx⟩
  have hnodup : (l.filter p).Nodup := hl.of_map.filter p
  refine ((List.perm_ext_iff_of_nodup hnodup (List.nodup_singleton x)).mpr fun y => ?_).eq_singleton
  rw [List.mem_singleton]
  exact ⟨hall y, fun hy => hy ▸ hmem⟩

/-- An entry has a partner in a list that matches its own. -/
lemma exists_of_mem_left {β : Type*} {R : α → β → Prop} {l : List α} {l' : List β}
    (h : List.Forall₂ R l l') : ∀ x ∈ l, ∃ y ∈ l', R x y := by
  induction h with
  | nil => simp
  | cons hxy _ ih =>
      intro x hx
      rcases List.mem_cons.mp hx with rfl | hx
      · exact ⟨_, List.mem_cons_self, hxy⟩
      · obtain ⟨y, hy, hR⟩ := ih x hx
        exact ⟨y, List.mem_cons_of_mem _ hy, hR⟩

end G7
