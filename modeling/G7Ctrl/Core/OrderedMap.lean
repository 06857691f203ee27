import Mathlib.Data.List.AList

/-!
# Finite maps with an order

A finite map that remembers an order of its keys is a list of entries with distinct keys, an
`AList`.  Mathlib adds entries at the front; here they are added at the end, so that the list is in
the order of insertion.

* `snoc`, `setValue`, `remove`, `appendNew`, `reorder` — the operations, each with its entries.
* `putNew`, `putAll` — an entry, and several of them, where the first one of a key counts.
* **`exists_split`** — where the entry of a key stands.
* **`lookup_snoc`**, **`lookup_setValue`**, **`lookup_remove`**, **`lookup_appendNew`**,
  **`lookup_reorder`**, **`lookup_putAll`** — what is found afterwards.
-/

namespace G7

universe u v

/-- A finite map with an order of its keys. -/
abbrev OrderedMap (K : Type u) (V : Type v) := AList fun _ : K => V

namespace OrderedMap

variable {K : Type u} {V : Type v} {k : K} {v v' : V} {m : OrderedMap K V}
  {l₁ l₂ : List (Σ _ : K, V)}

/-- **The entry of a key**, and no other with this key. -/
theorem exists_split (h : k ∈ m) : ∃ l₁ v l₂,
    m.entries = l₁ ++ ⟨k, v⟩ :: l₂ ∧ k ∉ l₁.keys ∧ k ∉ l₂.keys := by
  obtain ⟨v, hv⟩ := List.exists_of_mem_keys h
  obtain ⟨l₁, l₂, hsplit⟩ := List.append_of_mem hv
  have hnodup := m.nodupKeys
  rw [hsplit, List.nodupKeys_middle, List.nodupKeys_cons, List.keys_append, List.mem_append,
    not_or] at hnodup
  exact ⟨l₁, v, l₂, hsplit, hnodup.1⟩

/-- One more entry, at the end. -/
def snoc (m : OrderedMap K V) (k : K) (v : V) (h : k ∉ m) : OrderedMap K V where
  entries := m.entries ++ [⟨k, v⟩]
  nodupKeys := by
    rw [List.nodupKeys_middle, List.append_nil]
    exact List.nodupKeys_cons.mpr ⟨h, m.nodupKeys⟩

lemma mem_snoc {h : k ∉ m} {k' : K} : k' ∈ m.snoc k v h ↔ k' ∈ m ∨ k' = k := by
  rw [AList.mem_keys, AList.mem_keys, AList.keys, snoc, List.keys_append, List.mem_append]
  exact or_congr_right List.mem_singleton

/-- Another value for a key. -/
def setValue (m : OrderedMap K V) (h : m.entries = l₁ ++ ⟨k, v⟩ :: l₂) (v' : V) :
    OrderedMap K V where
  entries := l₁ ++ ⟨k, v'⟩ :: l₂
  nodupKeys := by
    have hnodup := m.nodupKeys
    rw [h, List.nodupKeys_middle] at hnodup
    rw [List.nodupKeys_middle]
    exact List.nodupKeys_cons.mpr (List.nodupKeys_cons.mp hnodup)

/-- One entry less. -/
def remove (m : OrderedMap K V) (h : m.entries = l₁ ++ ⟨k, v⟩ :: l₂) : OrderedMap K V where
  entries := l₁ ++ l₂
  nodupKeys := by
    have hnodup := m.nodupKeys
    rw [h, List.nodupKeys_middle] at hnodup
    exact (List.nodupKeys_cons.mp hnodup).2

/-- The same entries in another order. -/
def reorder (m : OrderedMap K V) (l : List (Σ _ : K, V)) (h : l.Perm m.entries) :
    OrderedMap K V where
  entries := l
  nodupKeys := (List.perm_nodupKeys h).mpr m.nodupKeys

section Lookup

variable [DecidableEq K]

/-- The entries of another map whose keys are new, at the end. -/
def appendNew (m src : OrderedMap K V) : OrderedMap K V where
  entries := m.entries ++ src.entries.filter fun e => decide (e.1 ∉ m)
  nodupKeys := by
    have hsrc : (src.entries.filter fun e => decide (e.1 ∉ m)).NodupKeys :=
      src.nodupKeys.sublist List.filter_sublist
    rw [List.NodupKeys, List.keys_append]
    refine List.nodup_append.mpr ⟨m.nodupKeys, hsrc, fun a ha b hb hab => ?_⟩
    subst hab
    obtain ⟨e, he⟩ := List.exists_of_mem_keys hb
    exact of_decide_eq_true (List.mem_filter.mp he).2 ha

lemma entries_appendNew (m src : OrderedMap K V) : (m.appendNew src).entries
    = m.entries ++ src.entries.filter fun e => decide (e.1 ∉ m) :=
  rfl

@[simp] lemma empty_appendNew (m : OrderedMap K V) : appendNew ∅ m = m := by
  refine AList.ext ?_
  rw [entries_appendNew, AList.empty_entries, List.nil_append, List.filter_eq_self]
  exact fun e _ => decide_eq_true (AList.notMem_empty _)

/-- Values are found by entries. -/
lemma lookup_congr {m' : OrderedMap K V}
    (h : ∀ v, (⟨k, v⟩ : Σ _ : K, V) ∈ m'.entries ↔ ⟨k, v⟩ ∈ m.entries) :
    m'.lookup k = m.lookup k :=
  Option.ext fun v => AList.mem_lookup_iff.trans ((h v).trans AList.mem_lookup_iff.symm)

lemma lookup_of_mem (h : (⟨k, v⟩ : Σ _ : K, V) ∈ m.entries) : m.lookup k = some v :=
  AList.mem_lookup_iff.mpr h

/-- **A new entry is found**, and changes nothing else. -/
theorem lookup_snoc (h : k ∉ m) :
    (m.snoc k v h).lookup k = some v ∧ ∀ k' ≠ k, (m.snoc k v h).lookup k' = m.lookup k' := by
  refine ⟨lookup_of_mem (by simp [snoc]), fun k' hk' => lookup_congr fun w => ?_⟩
  simp [snoc, hk']

/-- **A new value is found**, and changes nothing else. -/
theorem lookup_setValue (h : m.entries = l₁ ++ ⟨k, v⟩ :: l₂) (v' : V) :
    (setValue m h v').lookup k = some v' ∧
      ∀ k' ≠ k, (setValue m h v').lookup k' = m.lookup k' := by
  refine ⟨lookup_of_mem (by simp [setValue]), fun k' hk' => lookup_congr fun w => ?_⟩
  simp [setValue, h, hk']

/-- **A removed entry is not found**, and changes nothing else. -/
theorem lookup_remove (h : m.entries = l₁ ++ ⟨k, v⟩ :: l₂) :
    (remove m h).lookup k = none ∧ ∀ k' ≠ k, (remove m h).lookup k' = m.lookup k' := by
  have hnodup := m.nodupKeys
  rw [h, List.nodupKeys_middle, List.nodupKeys_cons] at hnodup
  refine ⟨AList.lookup_eq_none.mpr hnodup.1, fun k' hk' => lookup_congr fun w => ?_⟩
  simp [remove, h, hk']

/-- **Old keys keep their values**, new ones get those of the other map. -/
theorem lookup_appendNew (m src : OrderedMap K V) (k : K) :
    (m.appendNew src).lookup k = if k ∈ m then m.lookup k else src.lookup k := by
  split_ifs with hk
  · refine lookup_congr fun w => ?_
    simp [appendNew, hk]
  · refine lookup_congr fun w => ?_
    have hnot : (⟨k, w⟩ : Σ _ : K, V) ∉ m.entries := fun hw => hk (List.mem_keys_of_mem hw)
    simp [appendNew, hk, hnot]

/-- **Another order** changes nothing. -/
theorem lookup_reorder {l : List (Σ _ : K, V)} (h : l.Perm m.entries) (k : K) :
    (m.reorder l h).lookup k = m.lookup k :=
  AList.perm_lookup h

/-- An entry at the end, unless its key is there. -/
def putNew (m : OrderedMap K V) (k : K) (v : V) : OrderedMap K V :=
  if h : k ∈ m then m else m.snoc k v h

/-- Several entries, one after the other. -/
def putAll (m : OrderedMap K V) (es : List (Σ _ : K, V)) : OrderedMap K V :=
  es.foldl (fun m e => m.putNew e.1 e.2) m

@[simp] lemma putAll_nil (m : OrderedMap K V) : m.putAll [] = m := rfl

lemma putAll_cons (m : OrderedMap K V) (e : Σ _ : K, V) (es : List (Σ _ : K, V)) :
    m.putAll (e :: es) = (m.putNew e.1 e.2).putAll es := rfl

lemma lookup_putNew (m : OrderedMap K V) (k : K) (v : V) (k' : K) :
    (m.putNew k v).lookup k' = (m.lookup k').or (if k' = k then some v else none) := by
  rw [putNew]
  split_ifs with h hk hk
  · subst hk
    obtain ⟨w, hw⟩ := Option.isSome_iff_exists.mp (AList.lookup_isSome.mpr h)
    rw [hw, Option.some_or]
  · rw [Option.or_none]
  · subst hk
    rw [(lookup_snoc h).1, AList.lookup_eq_none.mpr h, Option.none_or]
  · rw [(lookup_snoc h).2 _ hk, Option.or_none]

/-- **Old keys keep their values**, new ones get the first that comes. -/
theorem lookup_putAll (m : OrderedMap K V) (es : List (Σ _ : K, V)) (k : K) :
    (m.putAll es).lookup k = (m.lookup k).or (es.dlookup k) := by
  induction es generalizing m with
  | nil => rw [putAll_nil, List.dlookup_nil, Option.or_none]
  | cons e es ih =>
      rw [putAll_cons, ih, lookup_putNew, Option.or_assoc]
      by_cases hk : k = e.1
      · subst hk
        rw [if_pos rfl, Option.some_or, List.dlookup_cons_eq]
      · rw [if_neg hk, Option.none_or, List.dlookup_cons_ne _ _ hk]

/-- Nothing is put in just if all keys are there. -/
lemma putAll_eq_self_iff {es : List (Σ _ : K, V)} : m.putAll es = m ↔ ∀ e ∈ es, e.1 ∈ m := by
  constructor
  · intro h e he
    have hlook := lookup_putAll m es e.1
    rw [h] at hlook
    by_contra hnot
    rw [AList.lookup_eq_none.mpr hnot, Option.none_or] at hlook
    exact List.dlookup_eq_none.mp hlook.symm (List.mem_keys_of_mem he)
  · intro h
    induction es with
    | nil => rfl
    | cons e es ih =>
        rw [putAll_cons, putNew, dif_pos (h e List.mem_cons_self)]
        exact ih fun e he => h e (List.mem_cons_of_mem _ he)

/-- All entries are found just if none of them disagrees with an old one or another of them. -/
lemma lookup_putAll_iff {es : List (Σ _ : K, V)} :
    (∀ e ∈ es, (m.putAll es).lookup e.1 = some e.2) ↔
      ∀ e ∈ es, (e.1 ∈ m → m.lookup e.1 = some e.2) ∧ ∀ e' ∈ es, e'.1 = e.1 → e'.2 = e.2 := by
  constructor
  · intro h e he
    refine ⟨fun hmem => ?_, fun e' he' hkey => ?_⟩
    · obtain ⟨w, hw⟩ := Option.isSome_iff_exists.mp (AList.lookup_isSome.mpr hmem)
      have hlook := h e he
      rw [lookup_putAll, hw, Option.some_or] at hlook
      rw [hw, hlook]
    · have hlook := h e' he'
      rw [hkey, h e he] at hlook
      exact (Option.some.inj hlook).symm
  · intro h e he
    rw [lookup_putAll]
    by_cases hmem : e.1 ∈ m
    · rw [(h e he).1 hmem, Option.some_or]
    · rw [AList.lookup_eq_none.mpr hmem, Option.none_or]
      obtain ⟨w, hw⟩ := Option.isSome_iff_exists.mp
        (List.dlookup_isSome.mpr (List.mem_keys_of_mem he))
      exact hw.trans (congrArg some ((h e he).2 ⟨e.1, w⟩ (List.of_mem_dlookup hw) rfl))

end Lookup

end OrderedMap

end G7
