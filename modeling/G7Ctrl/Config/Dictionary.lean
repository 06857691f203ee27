import G7Ctrl.Core.SlotTable
import G7Ctrl.Core.Memory
import G7Ctrl.Core.Bytes
import Mathlib.Data.Set.Card

/-!
# The dictionary of the configuration (`libiniparser/dictionary.c`)

The settings that were read from a file are kept in three parallel arrays, for the keys, their hash
values and the values.  A free slot has no key.  A search goes through all slots and compares the
keys only where the hash values are equal; a new key goes to the first free slot, and the arrays are
doubled when the number of keys that was counted is their length.

* `Dictionary` — the arrays, as one array of slots, and the count.
* `dictionaryGet`, `dictionarySet`, `dictionaryUnset` — the operations.
* `Dictionary.content` — the finite map that a dictionary stands for.
* **`dictionary_refines`** — after any operations, what is found is what such a map would have, no
  write was outside the arrays, and the count is the number of keys.
-/

namespace G7

/-- The `i`-th elements of the arrays `key`, `val` and `hash`. -/
structure DictEntry where
  key : CStr
  val : Option CStr
  hash : UInt32
  deriving DecidableEq

/-- `struct _dictionary_` -/
structure Dictionary where
  n : ℕ
  slots : SlotTable DictEntry
  deriving DecidableEq

/-- The member `size`. -/
def Dictionary.size (d : Dictionary) : ℕ := d.slots.length

/-- `(unsigned)key[i]`, a `char` being signed. -/
def charToUnsigned (c : Byte) : UInt32 := c.toInt8.toInt32.toUInt32

/-- `dictionary_hash` -/
def dictionaryHash (key : CStr) : UInt32 :=
  let hash := key.foldl (fun hash c =>
    let hash := hash + charToUnsigned c
    let hash := hash + (hash <<< 10)
    hash ^^^ (hash >>> 6)) 0
  let hash := hash + (hash <<< 3)
  let hash := hash ^^^ (hash >>> 11)
  hash + (hash <<< 15)

/-- `DICTMINSZ` -/
def dictMinSize : ℕ := 128

/-- `dictionary_new` -/
def dictionaryNew (size : ℕ) : Dictionary where
  n := 0
  slots := List.replicate (max size dictMinSize) none

/-- The test of a slot that is not free: the hash value first, then the key. -/
def DictEntry.isKey (hash : UInt32) (key : CStr) (e : DictEntry) : Bool :=
  hash == e.hash && key == e.key

/-- The search for a key. -/
def Dictionary.search (d : Dictionary) (key : CStr) : Option ℕ :=
  d.slots.findIdx? fun s => s.any (DictEntry.isKey (dictionaryHash key) key)

/-- `dictionary_get` -/
def dictionaryGet (d : Dictionary) (key : CStr) (dflt : Option CStr) : Option CStr :=
  match d.search key with
  | some i => ((d.slots[i]?).join.map (·.val)).getD dflt
  | none => dflt

/-- `dictionary_set`; a write behind the arrays is a fault. -/
def dictionarySet (d : Dictionary) (key : CStr) (val : Option CStr) : Checked Dictionary :=
  match if 0 < d.n then d.search key else none with
  | some i => .done { d with slots := d.slots.modify i (Option.map fun e => { e with val := val }) }
  | none =>
      let slots := if d.n = d.size then d.slots ++ List.replicate d.size none else d.slots
      match SlotTable.firstFree slots with
      | some i => .done ⟨d.n + 1, slots.set i (some ⟨key, val, dictionaryHash key⟩)⟩
      | none => .fault

/-- `dictionary_unset` -/
def dictionaryUnset (d : Dictionary) (key : CStr) : Dictionary :=
  match d.search key with
  | some i => ⟨d.n - 1, d.slots.set i none⟩
  | none => d

/-! ## The map behind it -/

/-- What a dictionary has for each key: nothing, or a value, which may be `NULL`. -/
abbrev IniMap := CStr → Option (Option CStr)

/-- The map a dictionary stands for. -/
def Dictionary.content (d : Dictionary) : IniMap :=
  fun k => (SlotTable.lookup DictEntry.key d.slots k).map (·.val)

/-- The count is right, the hash values are those of the keys, and no key is there twice. -/
structure Dictionary.Valid (d : Dictionary) : Prop where
  n_eq : d.n = d.slots.reduceOption.length
  hash_eq : ∀ e ∈ d.slots.reduceOption, e.hash = dictionaryHash e.key
  unique : SlotTable.Unique DictEntry.key d.slots
  size_pos : 0 < d.size

section

variable {d : Dictionary} {key : CStr} {val : Option CStr}

namespace Dictionary.Valid

/-- **The hash values change nothing** in a search. -/
theorem search_eq (h : d.Valid) (key : CStr) :
    d.search key = SlotTable.find DictEntry.key d.slots key := by
  rw [Dictionary.search, SlotTable.find]
  refine SlotTable.findIdx?_congr fun s hs => ?_
  cases s with
  | none => rfl
  | some e =>
      have hhash := h.hash_eq e (List.reduceOption_mem_iff.mpr hs)
      rw [Option.any_some, Option.any_some, DictEntry.isKey, hhash, Bool.eq_iff_iff,
        Bool.and_eq_true, beq_iff_eq, beq_iff_eq, decide_eq_true_eq]
      exact ⟨fun heq => heq.2.symm, fun heq => ⟨by rw [heq], heq.symm⟩⟩

/-- An empty dictionary. -/
lemma dictionaryNew (size : ℕ) : (dictionaryNew size).Valid where
  n_eq := by rw [G7.dictionaryNew, List.reduceOption_replicate_none, List.length_nil]
  hash_eq e he := by
    rw [G7.dictionaryNew, List.reduceOption_replicate_none] at he
    contradiction
  unique := by
    rw [SlotTable.Unique, G7.dictionaryNew, List.reduceOption_replicate_none]
    exact List.nodup_nil
  size_pos := by
    rw [Dictionary.size, G7.dictionaryNew, List.length_replicate, dictMinSize]
    omega

end Dictionary.Valid

lemma content_dictionaryNew (size : ℕ) : (dictionaryNew size).content = fun _ => none := by
  funext k
  rw [Dictionary.content, SlotTable.lookup, dictionaryNew, List.reduceOption_replicate_none]
  rfl

/-- **What is found is what the map has.** -/
theorem dictionaryGet_eq (h : d.Valid) (key : CStr) (dflt : Option CStr) :
    dictionaryGet d key dflt = (d.content key).getD dflt := by
  rw [dictionaryGet, h.search_eq, Dictionary.content]
  cases hfind : SlotTable.find DictEntry.key d.slots key with
  | none =>
      rw [SlotTable.lookup_eq_none.mpr (SlotTable.find_eq_none.mp hfind)]
      rfl
  | some i =>
      obtain ⟨t₁, e, t₂, ht, rfl, rfl⟩ := SlotTable.find_eq_some hfind
      have hmem : e ∈ d.slots.reduceOption := by
        rw [ht, SlotTable.reduceOption_some]
        exact List.mem_append_right _ List.mem_cons_self
      rw [SlotTable.lookup_of_mem h.unique hmem, ht]
      simp

/-- A key that is there gets another value. -/
lemma dictionarySet_old (h : d.Valid) {t₁ t₂ : SlotTable DictEntry} {e : DictEntry}
    (ht : d.slots = t₁ ++ some e :: t₂) (val : Option CStr) :
    Dictionary.Valid ⟨d.n, t₁ ++ some { e with val := val } :: t₂⟩ ∧
      Dictionary.content ⟨d.n, t₁ ++ some { e with val := val } :: t₂⟩ =
        Function.update d.content e.key (some val) := by
  obtain ⟨hn, hhash, hunique, hsize⟩ := h
  rw [ht, SlotTable.reduceOption_some] at hn hhash
  rw [ht] at hunique
  have hkey : DictEntry.key { e with val := val } = e.key := rfl
  obtain ⟨hunique', hlookup⟩ := SlotTable.lookup_replace hunique hkey
  refine ⟨⟨?_, fun e' he' => ?_, hunique', ?_⟩, ?_⟩
  · rw [SlotTable.reduceOption_some, hn]
    simp
  · rw [SlotTable.reduceOption_some, List.mem_append, List.mem_cons] at he'
    rcases he' with he' | rfl | he'
    · exact hhash e' (List.mem_append_left _ he')
    · exact hhash e (List.mem_append_right _ List.mem_cons_self)
    · exact hhash e' (List.mem_append_right _ (List.mem_cons_of_mem _ he'))
  · rw [Dictionary.size, ht] at hsize
    simp [Dictionary.size]
  · funext k
    rw [Dictionary.content, hlookup, Function.update_apply, Dictionary.content, ht]
    split_ifs with hk
    · rfl
    · rfl

/-- A new key goes to a free slot. -/
lemma dictionarySet_new (h : d.Valid) {t₁ t₂ : SlotTable DictEntry} (hnew : d.content key = none)
    (hsame : ∀ k, SlotTable.lookup DictEntry.key (t₁ ++ none :: t₂) k =
      SlotTable.lookup DictEntry.key d.slots k)
    (hslots : (t₁ ++ none :: t₂).reduceOption = d.slots.reduceOption) (val : Option CStr) :
    Dictionary.Valid ⟨d.n + 1, t₁ ++ some ⟨key, val, dictionaryHash key⟩ :: t₂⟩ ∧
      Dictionary.content ⟨d.n + 1, t₁ ++ some ⟨key, val, dictionaryHash key⟩ :: t₂⟩ =
        Function.update d.content key (some val) := by
  have hfree : key ∉ (t₁ ++ none :: t₂).reduceOption.map DictEntry.key := by
    rw [hslots]
    exact SlotTable.lookup_eq_none.mp (Option.map_eq_none_iff.mp hnew)
  have hunique : SlotTable.Unique DictEntry.key (t₁ ++ none :: t₂) := by
    rw [SlotTable.Unique, hslots]
    exact h.unique
  obtain ⟨hunique', hlookup⟩ :=
    SlotTable.lookup_insert (e := ⟨key, val, dictionaryHash key⟩) hunique hfree
  have hn := h.n_eq
  have hhash := h.hash_eq
  rw [← hslots, SlotTable.reduceOption_none] at hn hhash
  refine ⟨⟨?_, fun e he => ?_, hunique', by simp [Dictionary.size]⟩, ?_⟩
  · rw [SlotTable.reduceOption_some, hn]
    simp
    omega
  · rw [SlotTable.reduceOption_some, List.mem_append, List.mem_cons] at he
    rcases he with he | rfl | he
    · exact hhash e (List.mem_append_left _ he)
    · rfl
    · exact hhash e (List.mem_append_right _ he)
  · funext k
    rw [Dictionary.content, hlookup, Function.update_apply, Dictionary.content, hsame]
    split_ifs with hk
    · rfl
    · rfl

/-- **`dictionary_set` writes inside the arrays**, and sets one key of the map. -/
theorem dictionarySet_eq (h : d.Valid) (key : CStr) (val : Option CStr) :
    ∃ d', dictionarySet d key val = .done d' ∧ d'.Valid ∧
      d'.content = Function.update d.content key (some val) := by
  have hguard : (if 0 < d.n then d.search key else none) =
      SlotTable.find DictEntry.key d.slots key := by
    split_ifs with hpos
    · exact h.search_eq key
    · -- an empty dictionary is not searched
      have hnil : d.slots.reduceOption = [] :=
        List.length_eq_zero_iff.mp (by rw [← h.n_eq]; omega)
      symm
      rw [SlotTable.find_eq_none, hnil]
      exact List.not_mem_nil
  rw [dictionarySet, hguard]
  cases hfind : SlotTable.find DictEntry.key d.slots key with
  | some i =>
      obtain ⟨t₁, e, t₂, ht, rfl, rfl⟩ := SlotTable.find_eq_some hfind
      refine ⟨_, rfl, ?_⟩
      rw [ht, SlotTable.modify_append]
      exact dictionarySet_old h ht val
  | none =>
      have hnew : d.content key = none :=
        Option.map_eq_none_iff.mpr (SlotTable.lookup_eq_none.mpr (SlotTable.find_eq_none.mp hfind))
      dsimp only
      generalize hgrown : (if d.n = d.size then d.slots ++ List.replicate d.size none else d.slots) =
        slots
      -- the free slots that are added have no entries
      have hslots : slots.reduceOption = d.slots.reduceOption := by
        rw [← hgrown]
        split_ifs
        · exact SlotTable.reduceOption_grow _ _
        · rfl
      have hroom : slots.reduceOption.length < slots.length := by
        have hle := d.slots.reduceOption_length_le
        have hpos := h.size_pos
        rw [hslots, ← hgrown, ← h.n_eq]
        rw [← h.n_eq] at hle
        rw [Dictionary.size] at hpos ⊢
        split_ifs with hfull
        · rw [List.length_append, List.length_replicate]
          omega
        · omega
      obtain ⟨i, hi⟩ := Option.isSome_iff_exists.mp (SlotTable.firstFree_isSome hroom)
      obtain ⟨t₁, t₂, rfl, rfl⟩ := SlotTable.firstFree_eq_some hi
      rw [hi]
      refine ⟨_, rfl, ?_⟩
      rw [SlotTable.set_append]
      refine dictionarySet_new h hnew (fun k => ?_) hslots val
      rw [SlotTable.lookup, hslots, SlotTable.lookup]

/-- **`dictionary_unset` removes a key of the map.** -/
theorem dictionaryUnset_eq (h : d.Valid) (key : CStr) :
    (dictionaryUnset d key).Valid ∧
      (dictionaryUnset d key).content = Function.update d.content key none := by
  rw [dictionaryUnset, h.search_eq]
  cases hfind : SlotTable.find DictEntry.key d.slots key with
  | none =>
      refine ⟨h, ?_⟩
      have hnone : d.content key = none :=
        Option.map_eq_none_iff.mpr (SlotTable.lookup_eq_none.mpr (SlotTable.find_eq_none.mp hfind))
      rw [← hnone, Function.update_eq_self]
  | some i =>
      obtain ⟨t₁, e, t₂, ht, rfl, rfl⟩ := SlotTable.find_eq_some hfind
      obtain ⟨hn, hhash, hunique, hsize⟩ := h
      rw [ht, SlotTable.reduceOption_some] at hn hhash
      rw [ht] at hunique
      obtain ⟨hunique', hlookup⟩ := SlotTable.lookup_clear hunique
      dsimp only
      rw [ht, SlotTable.set_append]
      refine ⟨⟨?_, fun e' he' => ?_, hunique', by simp [Dictionary.size]⟩, ?_⟩
      · rw [SlotTable.reduceOption_none, hn]
        simp
      · rw [SlotTable.reduceOption_none, List.mem_append] at he'
        rcases he' with he' | he'
        · exact hhash e' (List.mem_append_left _ he')
        · exact hhash e' (List.mem_append_right _ (List.mem_cons_of_mem _ he'))
      · funext k
        rw [Dictionary.content, hlookup, Function.update_apply, Dictionary.content, ht]
        split_ifs with hk
        · rfl
        · rfl

/-- **The count is the number of keys.** -/
theorem Dictionary.Valid.ncard_eq (h : d.Valid) : d.n = {k | d.content k ≠ none}.ncard := by
  have hset : {k | d.content k ≠ none} = ↑(d.slots.reduceOption.map DictEntry.key).toFinset := by
    ext k
    rw [Set.mem_ofPred_eq, ne_eq, Dictionary.content, Option.map_eq_none_iff,
      SlotTable.lookup_eq_none, not_not, Finset.mem_coe, List.mem_toFinset]
  rw [hset, Set.ncard_coe_finset, List.toFinset_card_of_nodup h.unique, List.length_map, h.n_eq]

end

/-! ## Any operations -/

/-- The operations that change a dictionary. -/
inductive DictOp where
  | set (key : CStr) (val : Option CStr)
  | unset (key : CStr)

/-- The operation on the arrays. -/
def DictOp.exec (d : Dictionary) : DictOp → Checked Dictionary
  | .set key val => dictionarySet d key val
  | .unset key => .done (dictionaryUnset d key)

/-- The operation on the map. -/
def DictOp.change (m : IniMap) : DictOp → IniMap
  | .set key val => Function.update m key (some val)
  | .unset key => Function.update m key none

/-- One operation. -/
lemma DictOp.exec_eq {d : Dictionary} (h : d.Valid) (op : DictOp) :
    ∃ d', op.exec d = .done d' ∧ d'.Valid ∧ d'.content = op.change d.content := by
  cases op with
  | set key val => exact dictionarySet_eq h key val
  | unset key => exact ⟨_, rfl, dictionaryUnset_eq h key⟩

/-- Operations one after the other. -/
lemma foldlM_exec (ops : List DictOp) {d : Dictionary} (h : d.Valid) :
    ∃ d', ops.foldlM DictOp.exec d = .done d' ∧ d'.Valid ∧
      d'.content = ops.foldl DictOp.change d.content := by
  induction ops generalizing d with
  | nil => exact ⟨d, rfl, h, rfl⟩
  | cons op ops ih =>
      obtain ⟨d₁, h₁, hvalid, hcontent⟩ := op.exec_eq h
      obtain ⟨d', h', hvalid', hcontent'⟩ := ih hvalid
      refine ⟨d', ?_, hvalid', by rw [hcontent', hcontent]; rfl⟩
      rw [List.foldlM_cons, h₁, Checked.done_bind, h']

/-- **A dictionary is a finite map**, whatever operations have made it, however the keys collide and
however often it has grown. -/
theorem dictionary_refines (size : ℕ) (ops : List DictOp) :
    ∃ d, ops.foldlM DictOp.exec (dictionaryNew size) = .done d ∧
      (∀ key dflt, dictionaryGet d key dflt =
        (ops.foldl DictOp.change (fun _ => none) key).getD dflt) ∧
      d.n = {key | ops.foldl DictOp.change (fun _ => none) key ≠ none}.ncard := by
  obtain ⟨d, hrun, hvalid, hcontent⟩ := foldlM_exec ops (.dictionaryNew size)
  rw [content_dictionaryNew] at hcontent
  refine ⟨d, hrun, fun key dflt => ?_, ?_⟩
  · rw [dictionaryGet_eq hvalid, hcontent]
  · rw [hvalid.ncard_eq, hcontent]

end G7
