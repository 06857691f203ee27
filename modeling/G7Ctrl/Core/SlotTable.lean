import Mathlib.Data.List.ReduceOption
import Mathlib.Data.List.Nodup

/-!
# Tables with free slots

An array of which each slot is free or has an entry with a key, no key twice: a finite map that is
searched from the front, takes new entries in its first free slot and is made longer at its end.

* `find`, `firstFree` — the searches, with **`find_eq_some`** and **`firstFree_isSome`** for where
  they end.
* `lookup` — the entry of a key.
* **`lookup_replace`**, **`lookup_insert`**, **`lookup_clear`**, **`lookup_grow`** — what is found
  after an entry was replaced, added or removed, or slots were added.
-/

namespace G7

/-- An array of slots. -/
abbrev SlotTable (ε : Type*) := List (Option ε)

namespace SlotTable

section

variable {ε κ : Type*} [DecidableEq κ] (key : ε → κ)

/-- The first slot with a key. -/
def find (t : SlotTable ε) (k : κ) : Option ℕ := t.findIdx? fun s => s.any fun e => key e = k

/-- The first free slot. -/
def firstFree (t : SlotTable ε) : Option ℕ := t.findIdx? Option.isNone

/-- The entry of a key. -/
def lookup (t : SlotTable ε) (k : κ) : Option ε := t.reduceOption.find? fun e => key e = k

/-- No key occurs twice. -/
def Unique (t : SlotTable ε) : Prop := (t.reduceOption.map key).Nodup

end

section

variable {ε κ : Type*} {key : ε → κ} {t t₁ t₂ : SlotTable ε} {e e' : ε} {k : κ} {i : ℕ}

lemma reduceOption_some : (t₁ ++ some e :: t₂).reduceOption =
    t₁.reduceOption ++ e :: t₂.reduceOption := by
  rw [List.reduceOption_append, List.reduceOption_cons_of_some]

lemma reduceOption_none : (t₁ ++ none :: t₂).reduceOption =
    t₁.reduceOption ++ t₂.reduceOption := by
  rw [List.reduceOption_append, List.reduceOption_cons_of_none]

/-- A slot that is written. -/
lemma set_append (s s' : Option ε) :
    (t₁ ++ s :: t₂).set t₁.length s' = t₁ ++ s' :: t₂ := by
  simp

/-- A slot that is changed. -/
lemma modify_append (s : Option ε) (f : Option ε → Option ε) :
    (t₁ ++ s :: t₂).modify t₁.length f = t₁ ++ f s :: t₂ := by
  induction t₁ with
  | nil => rfl
  | cons s' t₁ ih => rw [List.cons_append, List.length_cons, List.modify_succ_cons, ih]; rfl

/-- Searches with conditions that agree on the slots. -/
lemma findIdx?_congr {p q : Option ε → Bool} (h : ∀ s ∈ t, p s = q s) :
    t.findIdx? p = t.findIdx? q := by
  induction t with
  | nil => rfl
  | cons s t ih =>
      rw [List.findIdx?_cons, List.findIdx?_cons, h s List.mem_cons_self,
        ih fun s' hs' => h s' (List.mem_cons_of_mem s hs')]

/-- Where the first free slot is. -/
lemma firstFree_eq_some (h : firstFree t = some i) :
    ∃ t₁ t₂, t = t₁ ++ none :: t₂ ∧ i = t₁.length := by
  obtain ⟨hi, hnone, -⟩ := List.findIdx?_eq_some_iff_getElem.mp h
  refine ⟨t.take i, t.drop (i + 1), ?_, by rw [List.length_take, Nat.min_eq_left (Nat.le_of_lt hi)]⟩
  rw [← Option.isNone_iff_eq_none.mp hnone, List.getElem_cons_drop, List.take_append_drop]

/-- **A table that is not full has a free slot.** -/
theorem firstFree_isSome (h : t.reduceOption.length < t.length) : (firstFree t).isSome := by
  by_contra hnone
  rw [Option.not_isSome_iff_eq_none, firstFree, List.findIdx?_eq_none_iff] at hnone
  have hall : t.reduceOption.length = t.length := by
    rw [List.reduceOption_length_eq_iff]
    intro s hs
    simpa using hnone s hs
  omega

variable [DecidableEq κ]

/-- **Where the search for a key ends.** -/
theorem find_eq_some (h : find key t k = some i) :
    ∃ t₁ e t₂, t = t₁ ++ some e :: t₂ ∧ i = t₁.length ∧ key e = k := by
  obtain ⟨hi, hkey, -⟩ := List.findIdx?_eq_some_iff_getElem.mp h
  obtain ⟨e, he, hk⟩ := (Option.any_eq_true _ _).mp hkey
  refine ⟨t.take i, e, t.drop (i + 1), ?_,
    by rw [List.length_take, Nat.min_eq_left (Nat.le_of_lt hi)], by simpa using hk⟩
  rw [← he, List.getElem_cons_drop, List.take_append_drop]

/-- The search fails when no entry has the key. -/
lemma find_eq_none : find key t k = none ↔ k ∉ t.reduceOption.map key := by
  rw [find, List.findIdx?_eq_none_iff, List.mem_map]
  constructor
  · rintro h ⟨e, he, rfl⟩
    have := h (some e) (List.reduceOption_mem_iff.mp he)
    simp at this
  · intro h s hs
    cases s with
    | none => rfl
    | some e =>
        have hne : key e ≠ k := fun hk => h ⟨e, List.reduceOption_mem_iff.mpr hs, hk⟩
        simpa using hne

lemma lookup_eq_none : lookup key t k = none ↔ k ∉ t.reduceOption.map key := by
  simp [lookup, List.find?_eq_none]

/-- The entry of a key is found wherever it stands. -/
lemma lookup_of_mem (h : Unique key t) (he : e ∈ t.reduceOption) : lookup key t (key e) = some e := by
  have hsome : (lookup key t (key e)).isSome := by
    rw [← Option.ne_none_iff_isSome, ne_eq, lookup_eq_none, not_not]
    exact List.mem_map_of_mem he
  obtain ⟨e', he'⟩ := Option.isSome_iff_exists.mp hsome
  have hkey : key e' = key e := by simpa using List.find?_some he'
  rw [he', List.inj_on_of_nodup_map h (List.mem_of_find?_eq_some he') he hkey]

/-! What is found after a slot was written; `l₁` and `l₂` are the entries before and behind it. -/

variable {l₁ l₂ : List ε}

lemma find?_append_cons (h : key e ∉ l₁.map key) :
    (l₁ ++ e :: l₂).find? (fun x => key x = k) =
      if k = key e then some e else (l₁ ++ l₂).find? fun x => key x = k := by
  rw [List.find?_append, List.find?_append]
  split_ifs with hk
  · have hfirst : l₁.find? (fun x => decide (key x = k)) = none := by
      rw [List.find?_eq_none]
      intro x hx hxk
      exact h (hk ▸ List.mem_map.mpr ⟨x, hx, by simpa using hxk⟩)
    rw [hfirst, Option.none_or, List.find?_cons_of_pos (by simp [hk])]
  · rw [List.find?_cons_of_neg (by simpa using fun h => hk h.symm)]

omit [DecidableEq κ] in
/-- The keys before and behind an entry are others. -/
lemma Unique.split (h : Unique key (t₁ ++ some e :: t₂)) :
    key e ∉ t₁.reduceOption.map key ∧ key e ∉ t₂.reduceOption.map key ∧
      (t₁.reduceOption.map key ++ t₂.reduceOption.map key).Nodup := by
  rw [Unique, reduceOption_some, List.map_append, List.map_cons, List.nodup_middle,
    List.nodup_cons, List.mem_append, not_or] at h
  exact ⟨h.1.1, h.1.2, h.2⟩

/-- **Another entry with the same key.** -/
theorem lookup_replace (h : Unique key (t₁ ++ some e :: t₂)) (hkey : key e' = key e) :
    Unique key (t₁ ++ some e' :: t₂) ∧
      ∀ k, lookup key (t₁ ++ some e' :: t₂) k =
        if k = key e then some e' else lookup key (t₁ ++ some e :: t₂) k := by
  obtain ⟨hfront, -, -⟩ := h.split
  refine ⟨?_, fun k => ?_⟩
  · rw [Unique, reduceOption_some, List.map_append, List.map_cons, hkey]
    rwa [Unique, reduceOption_some, List.map_append, List.map_cons] at h
  · rw [lookup, lookup, reduceOption_some, reduceOption_some, find?_append_cons hfront,
      find?_append_cons (hkey ▸ hfront), hkey]
    split_ifs
    · rfl
    · rfl

/-- **A new entry in a free slot.** -/
theorem lookup_insert (h : Unique key (t₁ ++ none :: t₂))
    (hnew : key e ∉ (t₁ ++ none :: t₂).reduceOption.map key) :
    Unique key (t₁ ++ some e :: t₂) ∧
      ∀ k, lookup key (t₁ ++ some e :: t₂) k =
        if k = key e then some e else lookup key (t₁ ++ none :: t₂) k := by
  rw [reduceOption_none, List.map_append, List.mem_append, not_or] at hnew
  rw [Unique, reduceOption_none, List.map_append] at h
  refine ⟨?_, fun k => ?_⟩
  · rw [Unique, reduceOption_some, List.map_append, List.map_cons, List.nodup_middle,
      List.nodup_cons, List.mem_append, not_or]
    exact ⟨hnew, h⟩
  · rw [lookup, lookup, reduceOption_some, reduceOption_none, find?_append_cons hnew.1]

/-- **An entry is removed.** -/
theorem lookup_clear (h : Unique key (t₁ ++ some e :: t₂)) :
    Unique key (t₁ ++ none :: t₂) ∧
      ∀ k, lookup key (t₁ ++ none :: t₂) k =
        if k = key e then none else lookup key (t₁ ++ some e :: t₂) k := by
  obtain ⟨hfront, hback, hrest⟩ := h.split
  refine ⟨?_, fun k => ?_⟩
  · rw [Unique, reduceOption_none, List.map_append]
    exact hrest
  · rw [lookup, lookup, reduceOption_some, reduceOption_none, find?_append_cons hfront]
    split_ifs with hk
    · rw [List.find?_eq_none]
      intro x hx hxk
      rw [decide_eq_true_eq, hk] at hxk
      rcases List.mem_append.mp hx with hx | hx
      · exact hfront (hxk ▸ List.mem_map_of_mem hx)
      · exact hback (hxk ▸ List.mem_map_of_mem hx)
    · rfl

/-- **More free slots.** -/
theorem reduceOption_grow (t : SlotTable ε) (n : ℕ) :
    (t ++ List.replicate n none).reduceOption = t.reduceOption := by
  rw [List.reduceOption_append, List.reduceOption_replicate_none, List.append_nil]

end

end SlotTable

end G7
