import G7Ctrl.Template.Pieces

/-!
# Template substitution is single-pass

`expand` is one pass over a text from left to right.  A key in brackets that equals one of the
dictionary without regard to case is replaced by the value of the first such tuple, and the pass
goes on behind the bracket; every other character is copied.

* `expand` — the reference pass.
* **`expand_remove`** — a key that does not occur changes nothing.
* **`replaceDictInBuf_expands`** — `replace_dict_in_buf` leaves what this pass gives, inside its
  buffers.
* **`replaceDictInFile_expands`** — so does `replace_dict_in_file`.
-/

namespace G7

/-! ## The reference pass -/

/-- What follows `key` and a bracket, if the text starts with them. -/
def afterKey (key text : CStr) : Option CStr :=
  if strcasecmp (text.take key.length) key ∧ (text.drop key.length).head? = some (ch ']') then
    some (text.drop (key.length + 1))
  else none

/-- The value for a text behind a `'['`, with what follows the key there. -/
def keyed (tuple : List DictTuple) (text : CStr) : Option (CStr × CStr) :=
  tuple.findSome? fun t => (afterKey t.key text).map (t.val, ·)

lemma length_afterKey {key text rest : CStr} (h : afterKey key text = some rest) :
    rest.length < text.length := by
  rw [afterKey] at h
  split_ifs at h with hkey
  cases h
  have hne : text.drop key.length ≠ [] := by
    intro hnil
    rw [hnil] at hkey
    exact nomatch hkey.2
  have hlt := List.length_pos_iff.mpr hne
  rw [List.length_drop] at hlt ⊢
  omega

/-- A key stands there, in some case. -/
lemma afterKey_eq_some_iff {key text rest : CStr} :
    afterKey key text = some rest ↔ ∃ k, text = k ++ ch ']' :: rest ∧ strcasecmp k key = true := by
  rw [afterKey]
  constructor
  · intro h
    split_ifs at h with hkey
    cases h
    obtain ⟨hcmp, hhead⟩ := hkey
    refine ⟨text.take key.length, ?_, hcmp⟩
    obtain ⟨rest, hrest⟩ := List.head?_eq_some_iff.mp hhead
    rw [← List.drop_drop, hrest, List.drop_one, List.tail_cons, ← hrest, List.take_append_drop]
  · rintro ⟨k, rfl, hcmp⟩
    have hlen : k.length = key.length := by
      simpa using congrArg List.length (strcasecmp_iff.mp hcmp)
    rw [← hlen, List.take_left, List.drop_left, List.drop_length_add_append]
    exact if_pos ⟨hcmp, rfl⟩

lemma exists_of_keyed {tuple : List DictTuple} {text val rest : CStr}
    (h : keyed tuple text = some (val, rest)) :
    ∃ t ∈ tuple, t.val = val ∧ afterKey t.key text = some rest := by
  obtain ⟨t, ht, hmap⟩ := List.exists_of_findSome?_eq_some h
  obtain ⟨rest', hafter, heq⟩ := Option.map_eq_some_iff.mp hmap
  cases heq
  exact ⟨t, ht, rfl, hafter⟩

/-- One pass from left to right. -/
def expand (tuple : List DictTuple) : CStr → CStr
  | [] => []
  | c :: text =>
      match _h : if c = ch '[' then keyed tuple text else none with
      | some (val, rest) => val ++ expand tuple rest
      | none => c :: expand tuple text
  termination_by text => text.length
  decreasing_by
    · split_ifs at _h
      obtain ⟨t, -, -, hafter⟩ := exists_of_keyed _h
      have hlt := length_afterKey hafter
      rw [List.length_cons]
      omega
    · rw [List.length_cons]
      omega

variable {tuple : List DictTuple}

@[simp] lemma expand_nil : expand tuple [] = [] := by rw [expand]

/-- A key is replaced. -/
lemma expand_key {text val rest : CStr} (h : keyed tuple text = some (val, rest)) :
    expand tuple (ch '[' :: text) = val ++ expand tuple rest := by
  rw [expand, if_pos rfl]
  split
  · next heq =>
      rw [h] at heq
      cases heq
      rfl
  · next heq => exact nomatch h.symm.trans heq

/-- Every other character is copied. -/
lemma expand_copy {c : Byte} {text : CStr} (h : c = ch '[' → keyed tuple text = none) :
    expand tuple (c :: text) = c :: expand tuple text := by
  have hnone : (if c = ch '[' then keyed tuple text else none) = none := by
    split_ifs with hc
    · exact h hc
    · rfl
  rw [expand]
  split
  · next heq => exact nomatch hnone.symm.trans heq
  · rfl

/-- **Induction over the pass.** -/
theorem expand_induction (tuple : List DictTuple) {P : CStr → CStr → Prop} (nil : P [] [])
    (key : ∀ k val rest, keyed tuple (k ++ ch ']' :: rest) = some (val, rest) →
      P rest (expand tuple rest) → P (ch '[' :: (k ++ ch ']' :: rest)) (val ++ expand tuple rest))
    (copy : ∀ c text, (c = ch '[' → keyed tuple text = none) →
      P text (expand tuple text) → P (c :: text) (c :: expand tuple text))
    (text : CStr) : P text (expand tuple text) := by
  induction text using expand.induct tuple with
  | case1 =>
      rw [expand_nil]
      exact nil
  | case2 c text val rest h ih =>
      split_ifs at h with hc
      subst hc
      obtain ⟨t, -, -, hafter⟩ := exists_of_keyed h
      obtain ⟨k, rfl, -⟩ := afterKey_eq_some_iff.mp hafter
      rw [expand_key h]
      exact key k val rest h ih
  | case3 c text h ih =>
      have hnone : c = ch '[' → keyed tuple text = none := fun hc => (if_pos hc).symm.trans h
      rw [expand_copy hnone]
      exact copy c text hnone ih

/-- **A key that does not occur changes nothing.** -/
theorem expand_remove {l₁ l₂ : List DictTuple} {t : DictTuple} (text : CStr)
    (h : ∀ front back, text = front ++ ch '[' :: back → afterKey t.key back = none) :
    expand (l₁ ++ t :: l₂) text = expand (l₁ ++ l₂) text := by
  have hkeyed {back : CStr} (hback : afterKey t.key back = none) :
      keyed (l₁ ++ t :: l₂) back = keyed (l₁ ++ l₂) back := by
    rw [keyed, keyed, List.findSome?_append, List.findSome?_append, List.findSome?_cons, hback]
    rfl
  refine expand_induction (l₁ ++ l₂)
    (P := fun text out => (∀ front back, text = front ++ ch '[' :: back →
      afterKey t.key back = none) → expand (l₁ ++ t :: l₂) text = out) ?_ ?_ ?_ text h
  · intro _
    exact expand_nil
  · intro k val rest hfound ih h
    rw [expand_key ((hkeyed (h [] _ rfl)).trans hfound), ih]
    intro front back heq
    exact h (ch '[' :: (k ++ ch ']' :: front)) back (by simp [heq])
  · intro c text hnone ih h
    rw [expand_copy, ih]
    · intro front back heq
      exact h (c :: front) back (by rw [heq, List.cons_append])
    · intro hc
      exact (hkeyed (h [] text (by rw [hc, List.nil_append]))).trans (hnone hc)

/-! ## Keys without brackets -/

lemma tolower_eq_bracket {c : Byte} : tolower c = ch ']' ↔ c = ch ']' := by
  have h := forall_byte (p := fun c => decide (tolower c = ch ']' ↔ c = ch ']'))
    (by decide +kernel) c
  exact of_decide_eq_true h

/-- A text that equals a key without brackets has none. -/
lemma not_mem_of_strcasecmp {k key : CStr} (h : strcasecmp k key = true) (hkey : ch ']' ∉ key) :
    ch ']' ∉ k := by
  intro hk
  have hmem : ch ']' ∈ key.map tolower := by
    rw [← strcasecmp_iff.mp h]
    exact List.mem_map.mpr ⟨_, hk, rfl⟩
  obtain ⟨c, hc, hlow⟩ := List.mem_map.mp hmem
  exact hkey (tolower_eq_bracket.mp hlow ▸ hc)

/-- The key up to the first bracket decides. -/
lemma keyed_split (hkeys : ∀ t ∈ tuple, ch ']' ∉ t.key) {k r : CStr} (hk : ch ']' ∉ k) :
    keyed tuple (k ++ ch ']' :: r) =
      (tuple.find? fun t => strcasecmp k t.key).map fun t => (t.val, r) := by
  induction tuple with
  | nil => rfl
  | cons t tuple ih =>
      have hih := ih fun t' ht' => hkeys t' (List.mem_cons_of_mem _ ht')
      rw [keyed] at hih ⊢
      rw [List.findSome?_cons, List.find?_cons]
      cases hcmp : strcasecmp k t.key with
      | true =>
          rw [afterKey_eq_some_iff.mpr ⟨k, rfl, hcmp⟩]
          rfl
      | false =>
          have hnone : afterKey t.key (k ++ ch ']' :: r) = none := by
            refine Option.eq_none_iff_forall_ne_some.mpr fun r' hr' => ?_
            obtain ⟨k', hsplit, hcmp'⟩ := afterKey_eq_some_iff.mp hr'
            have hk' := not_mem_of_strcasecmp hcmp' (hkeys t List.mem_cons_self)
            obtain ⟨rfl, -⟩ := split_unique hsplit hk hk'
            exact Bool.false_ne_true (hcmp.symm.trans hcmp')
          rw [hnone]
          exact hih

/-! ## The pieces -/

/-- The keys and values of the dictionary are such that they fit `match` and the estimate of the
work buffer. -/
structure Dict.Fits (dict : Dict) : Prop where
  keyLength : ∀ t ∈ dict.tuple, t.key.length ≤ 255
  keyBracket : ∀ t ∈ dict.tuple, ch ']' ∉ t.key
  valLength : ∀ t ∈ dict.tuple, t.val.length < 1024
  valNul : ∀ t ∈ dict.tuple, (0 : Byte) ∉ t.val

/-- Where the keys are such, the pass finds the key that the function finds. -/
lemma keyed_eq {dict : Dict} (hdict : dict.Fits) (text : CStr) :
    keyed dict.tuple text = (keyAt dict text).map Prod.snd := by
  cases hbefore : keyBefore text with
  | none =>
      have hnone : keyAt dict text = none := by rw [keyAt, hbefore, Option.bind_none]
      rw [hnone]
      refine Option.eq_none_iff_forall_ne_some.mpr ?_
      rintro ⟨val, rest⟩ hfound
      obtain ⟨t, ht, -, hafter⟩ := exists_of_keyed hfound
      obtain ⟨k, hsplit, hcmp⟩ := afterKey_eq_some_iff.mp hafter
      have hlen : k.length = t.key.length := by
        simpa using congrArg List.length (strcasecmp_iff.mp hcmp)
      have hshort : k.length < sizeofMatch := by
        rw [hlen]
        exact Nat.lt_succ_of_le (hdict.keyLength t ht)
      have hkey := keyBefore_eq_some_iff.mpr
        ⟨hsplit, not_mem_of_strcasecmp hcmp (hdict.keyBracket t ht), hshort⟩
      cases hbefore.symm.trans hkey
  | some found =>
      obtain ⟨key, rest⟩ := found
      obtain ⟨rfl, hkey, -⟩ := keyBefore_eq_some_iff.mp hbefore
      rw [keyed_split hdict.keyBracket hkey, keyAt, hbefore, Option.bind_some]
      simp only [valueFor, Option.map_map]
      cases hfind : dict.tuple.find? fun t => strcasecmp key t.key with
      | none => rfl
      | some t =>
          have hval : t.val.take maxDictionaryValSize = t.val :=
            List.take_of_length_le (hdict.valLength t (List.mem_of_find?_eq_some hfind)).le
          simp [hval]

/-- **The pass** gives what the function writes. -/
lemma expand_eq {dict : Dict} (hdict : dict.Fits) (text : CStr) :
    expand dict.tuple text = replacedText dict text := by
  induction text using pieces.induct dict with
  | case1 => rw [expand_nil, replacedText, pieces_nil, List.flatMap_nil]
  | case2 c text ih =>
      rw [replacedText_cons]
      rcases firstPiece_cases dict c text with ⟨key, val, rest, rfl, hkey⟩ | hnone
      · have hfound : keyed dict.tuple text = some (val, rest) := by
          rw [keyed_eq hdict, hkey, Option.map_some]
        rw [firstPiece_key hkey] at ih ⊢
        rw [expand_key hfound, ih]
        rfl
      · have hcopy : c = ch '[' → keyed dict.tuple text = none := fun hc => by
          rw [keyed_eq hdict, hnone hc, Option.map_none]
        rw [firstPiece_copy hnone] at ih ⊢
        rw [expand_copy hcopy, ih]
        rfl

/-- What the pass gives is a string. -/
lemma nul_notMem_expand {dict : Dict} (hdict : dict.Fits) {text : CStr}
    (htext : (0 : Byte) ∉ text) : (0 : Byte) ∉ expand dict.tuple text := by
  rw [expand_eq hdict]
  exact nul_notMem_replacedText hdict.valNul htext

/-! ## The function -/

/-- What the function does when everything fits. -/
lemma replaceDictInBuf_eq {dict : Dict} (hdict : dict.Fits) {text : CStr} (rest : List Byte)
    (maxlen : ℕ) (htext : (0 : Byte) ∉ text)
    (hlimit : text.length + 1024 * dict.idx < 1024 * 1024)
    (hwork : (expand dict.tuple text).length + 1 ≤ text.length + 1024 * dict.idx)
    (hmax : (expand dict.tuple text).length + 1 ≤ maxlen)
    (hbuffer : maxlen ≤ (text ++ 0 :: rest).length) :
    ∃ back, replaceDictInBuf dict (text ++ 0 :: rest) maxlen =
        .done (0, expand dict.tuple text ++ 0 :: back) ∧
      (expand dict.tuple text ++ 0 :: back).length = (text ++ 0 :: rest).length := by
  have hrun := (replaceDictInBuf_endsIff dict hdict.valNul htext rest hbuffer hlimit).done
  rw [← expand_eq hdict, if_pos (Nat.lt_of_succ_le hmax), cblock, List.append_assoc] at hrun
  refine ⟨(text ++ 0 :: rest).drop ((expand dict.tuple text).length + 1), hrun hwork, ?_⟩
  rw [List.length_append, List.length_cons, List.length_drop]
  omega

/-- **Template substitution is single-pass.**  A template whose expansion fits the work buffer and
its own buffer is left expanded there, and no access is outside a block.  A key that does not occur
could as well be left out of the dictionary. -/
theorem replaceDictInBuf_expands (dict : Dict) (hdict : dict.Fits) (text : CStr)
    (rest : List Byte) (maxlen : ℕ) (htext : (0 : Byte) ∉ text)
    (hlimit : text.length + 1024 * dict.idx < 1024 * 1024)
    (hwork : (expand dict.tuple text).length + 1 ≤ text.length + 1024 * dict.idx)
    (hmax : (expand dict.tuple text).length + 1 ≤ maxlen)
    (hbuffer : maxlen ≤ (text ++ 0 :: rest).length) :
    ∃ buffer', replaceDictInBuf dict (text ++ 0 :: rest) maxlen = .done (0, buffer') ∧
      buffer'.length = (text ++ 0 :: rest).length ∧ cstr buffer' = expand dict.tuple text ∧
      ∀ l₁ t l₂, dict.tuple = l₁ ++ t :: l₂ →
        (∀ front back, text = front ++ ch '[' :: back → afterKey t.key back = none) →
        cstr buffer' = expand (l₁ ++ l₂) text := by
  obtain ⟨back, hrun, hlen⟩ := replaceDictInBuf_eq hdict rest maxlen htext hlimit hwork hmax hbuffer
  have hcstr := cstr_append_nul (nul_notMem_expand hdict htext) back
  refine ⟨_, hrun, hlen, hcstr, fun l₁ t l₂ hsplit hnone => ?_⟩
  rw [hcstr, hsplit]
  exact expand_remove text hnone

/-- A key in small letters, a value that looks like a key, and brackets without a key. -/
theorem replaceDictInBuf_expands_nick :
    let dict := (addDict (addDict newDict (str "NICK") (str "[ID]")).2 (str "ID") (str "7")).2
    (∃ buffer', replaceDictInBuf dict (str "[[nick]]" ++ 0 :: []) 9 = .done (0, buffer') ∧
      buffer'.length = 9 ∧ cstr buffer' = expand dict.tuple (str "[[nick]]") ∧
      ∀ l₁ t l₂, dict.tuple = l₁ ++ t :: l₂ →
        (∀ front back, str "[[nick]]" = front ++ ch '[' :: back → afterKey t.key back = none) →
        cstr buffer' = expand (l₁ ++ l₂) (str "[[nick]]")) ∧
    expand dict.tuple (str "[[nick]]") = str "[[ID]]" := by
  intro dict
  have hfirst : ch '[' = ch '[' → keyed dict.tuple (str "[nick]]") = none := by decide
  have hkey : keyed dict.tuple (str "nick]]") = some (str "[ID]", str "]") := by decide
  have hlast : ch ']' = ch '[' → keyed dict.tuple [] = none := by decide
  have hexpand : expand dict.tuple (str "[[nick]]") = str "[[ID]]" := by
    refine (expand_copy hfirst).trans (congrArg _ ((expand_key hkey).trans ?_))
    refine congrArg _ ((expand_copy hlast).trans (congrArg _ expand_nil))
  have hdict : dict.Fits := ⟨by decide, by decide, by decide, by decide⟩
  have hlen : (expand dict.tuple (str "[[nick]]")).length = 6 := by
    rw [hexpand]
    rfl
  exact ⟨replaceDictInBuf_expands dict hdict (str "[[nick]]") [] 9 (by decide) (by decide)
    (by rw [hlen]; decide) (by rw [hlen]; decide) (by decide), hexpand⟩

/-- **A template file** is read into a buffer that is large enough for what fits the work buffer. -/
theorem replaceDictInFile_expands (dict : Dict) (hdict : dict.Fits) (file : CStr)
    (hfile : (0 : Byte) ∉ file) (hlimit : file.length + 1024 * dict.idx < 1024 * 1024)
    (hwork : (expand dict.tuple file).length + 1 ≤ file.length + 1024 * dict.idx) :
    ∃ buffer, replaceDictInFile dict file = .done (0, buffer) ∧
      cstr buffer = expand dict.tuple file := by
  have hsize : file.length + maxDictionaryValSize * dict.idx + 1 - file.length =
      1024 * dict.idx + 1 := by
    rw [maxDictionaryValSize]
    omega
  obtain ⟨back, hrun, -⟩ := replaceDictInBuf_eq hdict (List.replicate (1024 * dict.idx) 0)
    (file.length + 1024 * dict.idx + 1) hfile hlimit hwork (by omega)
    (by rw [List.length_append, List.length_cons, List.length_replicate]; omega)
  refine ⟨_, ?_, cstr_append_nul (nul_notMem_expand hdict hfile) back⟩
  rw [replaceDictInFile, hsize, List.replicate_succ]
  exact hrun

end G7
