import Mathlib.Tactic.Common

/-!
# Streams of units, cut into chunks

A sender writes a stream of *units*; the receiver sees the same stream cut into *chunks*.  This
file has what is needed to compare the two cuts, for units over any alphabet.

* **`PrefixFree.flatten_inj`** — when no unit is a proper prefix of another, a stream can be read
  as units in one way only.
* **`eq_of_flatMap_length`** — a receiver that takes from each chunk only symbols of that chunk, in
  order, and in all as many symbols as were sent, has taken every chunk entirely.
* **`exists_groups`** — the units can then be grouped along the chunks.
-/

namespace G7

variable {α β : Type*}

/-- No unit is a proper prefix of another one. -/
def PrefixFree (U : List α → Prop) : Prop :=
  ∀ ⦃u v : List α⦄, U u → U v → u <+: v → u = v

/-- Two units at the beginning of the same stream are equal. -/
lemma PrefixFree.append_left {U : List α → Prop} (hU : PrefixFree U) {u v s t : List α}
    (hu : U u) (hv : U v) (h : u ++ s = v ++ t) : u = v := by
  have hpu : u <+: v ++ t := ⟨s, h⟩
  have hpv : v <+: v ++ t := List.prefix_append v t
  rcases List.prefix_or_prefix_of_prefix hpu hpv with hp | hp
  · exact hU hu hv hp
  · exact (hU hv hu hp).symm

/-- **Unique reading**: equal streams of non-empty, prefix-free units are made of the same
units. -/
theorem PrefixFree.flatten_inj {U : List α → Prop} (hU : PrefixFree U)
    (hne : ∀ u, U u → u ≠ []) : ∀ {us vs : List (List α)}, (∀ u ∈ us, U u) → (∀ v ∈ vs, U v) →
      us.flatten = vs.flatten → us = vs
  | [], [], _, _, _ => rfl
  | [], v :: vs, _, hv, h => by
      simp only [List.flatten_nil, List.flatten_cons] at h
      have hv0 : v = [] := (List.append_eq_nil_iff.mp h.symm).1
      exact absurd hv0 (hne v (hv v (List.mem_cons_self ..)))
  | u :: us, [], hu, _, h => by
      simp only [List.flatten_nil, List.flatten_cons] at h
      have hu0 : u = [] := (List.append_eq_nil_iff.mp h).1
      exact absurd hu0 (hne u (hu u (List.mem_cons_self ..)))
  | u :: us, v :: vs, hu, hv, h => by
      simp only [List.flatten_cons] at h
      have huv : u = v :=
        hU.append_left (hu u (List.mem_cons_self ..)) (hv v (List.mem_cons_self ..)) h
      subst huv
      have htl : us.flatten = vs.flatten := List.append_cancel_left h
      rw [PrefixFree.flatten_inj hU hne (fun w hw => hu w (List.mem_cons_of_mem _ hw))
        (fun w hw => hv w (List.mem_cons_of_mem _ hw)) htl]

/-- What is taken from the chunks is no longer than the chunks are. -/
lemma flatMap_length_le {f : List α → List α} :
    ∀ {cs : List (List α)}, (∀ c ∈ cs, (f c).Sublist c) → (cs.flatMap f).length ≤ cs.flatten.length
  | [], _ => by simp
  | c :: cs, h => by
      have hc := (h c (List.mem_cons_self ..)).length_le
      have ih := flatMap_length_le fun d hd => h d (List.mem_cons_of_mem _ hd)
      simp only [List.flatMap_cons, List.flatten_cons, List.length_append]
      omega

/-- **Nothing is left over** when as much is taken as there is. -/
theorem eq_of_flatMap_length {f : List α → List α} :
    ∀ {cs : List (List α)}, (∀ c ∈ cs, (f c).Sublist c) →
      (cs.flatMap f).length = cs.flatten.length → ∀ c ∈ cs, f c = c
  | [], _, _ => by simp
  | c :: cs, hsub, hlen => by
      have hc := hsub c (List.mem_cons_self ..)
      have htl : ∀ d ∈ cs, (f d).Sublist d := fun d hd => hsub d (List.mem_cons_of_mem _ hd)
      have hle := flatMap_length_le htl
      have hcle := hc.length_le
      simp only [List.flatMap_cons, List.flatten_cons, List.length_append] at hlen
      intro d hd
      rcases List.mem_cons.mp hd with rfl | hd
      · exact hc.eq_of_length (by omega)
      · exact eq_of_flatMap_length htl (by omega) d hd

/-- A list whose image is cut into pieces can be cut in the same way. -/
theorem exists_groups (f : α → β) :
    ∀ {L : List (List β)} {l : List α}, l.map f = L.flatten →
      ∃ G : List (List α), G.flatten = l ∧ G.map (List.map f) = L
  | [], l, h => by
      have hl : l = [] := by simpa using h
      exact ⟨[], by simp [hl], rfl⟩
  | b :: L, l, h => by
      obtain ⟨l₁, l₂, hl, h₁, h₂⟩ := List.map_eq_append_iff.mp h
      obtain ⟨G, hG, hGL⟩ := exists_groups f h₂
      exact ⟨l₁ :: G, by simp [hl, hG], by simp [h₁, hGL]⟩

end G7
