import G7Ctrl.Xstr.Block
import G7Ctrl.Xstr.Split

/-!
# The field array of `xstrsplitfields`

`xstrsplitfields` again, with the memory it reads and writes: the string is in its block, and the
fields are in an array of `MAX_SPLIT_FIELDS` times `MAX_FIELD_SIZE` bytes.

* `Splitfields`, `xstrsplitfieldsMem` — the structure, and the function on memory.
* `Places`, `EndsAs` — the array starts with the fields, each in its place.
* **`fieldsLoop_run`** — the loops leave in the array what the pass over the string collects.
* **`xstrsplitfieldsMem_sound`** — joining and splitting are inverse, inside the array.
-/

namespace G7

/-- `struct splitfields`, with the array as one block. -/
structure Splitfields where
  nf : ℕ
  fld : List Byte
  deriving DecidableEq

/-- The bytes of the array. -/
def fieldArraySize : ℕ := maxSplitFields * maxFieldSize

/-- The inner loop.  It gives the array, `ptr`, `bptr`, `len` and `flen`. -/
def copyFieldLoop (buffer : List Byte) (delim : Byte) :
    ℕ → List Byte → ℕ → ℕ → ℕ → Checked (List Byte × ℕ × ℕ × ℕ × ℕ)
  | 0, fld, ptr, bptr, len => do
      let _ ← load buffer bptr
      return (fld, ptr, bptr, len, 0)
  | flen + 1, fld, ptr, bptr, len => do
      let c ← load buffer bptr
      if c ≠ delim ∧ 0 < len then
        let fld ← store fld ptr c
        copyFieldLoop buffer delim flen fld (ptr + 1) (bptr + 1) (len - 1)
      else return (fld, ptr, bptr, len, flen + 1)

/-- What is done behind a field: a delimiter is replaced by a NUL. -/
def closeField (buffer : List Byte) (delim : Byte) (fld : List Byte) (ptr bptr len : ℕ) :
    Checked (List Byte × ℕ × ℕ) := do
  let c ← load buffer bptr
  if c = delim then
    let fld ← store fld ptr 0
    return (fld, bptr + 1, len - 1)
  else return (fld, bptr, len)

/-- The outer loop.  It gives whether it came to its end, the structure, and `ptr`. -/
def fieldsLoop (buffer : List Byte) (delim : Byte) :
    ℕ → Splitfields → ℕ → ℕ → ℕ → Checked (Bool × Splitfields × ℕ)
  | 0, _, _, _, _ => .timeout
  | fuel + 1, sfields, ptr, bptr, len =>
      if 0 < len then do
        let (fld, ptr, bptr, len, flen) ← copyFieldLoop buffer delim maxFieldSize sfields.fld
          (maxFieldSize * sfields.nf) bptr len
        if flen = 0 then return (false, ⟨sfields.nf, fld⟩, ptr)
        else
          let (fld, bptr, len) ← closeField buffer delim fld ptr bptr len
          if sfields.nf + 1 ≥ maxSplitFields then return (false, ⟨sfields.nf + 1, fld⟩, ptr)
          else fieldsLoop buffer delim fuel ⟨sfields.nf + 1, fld⟩ ptr bptr len
      else return (true, sfields, ptr)

/-- `xstrsplitfields` on memory, with the structure it leaves.  Every round of its outer loop reads a
byte of the string. -/
def xstrsplitfieldsMem (buffer : List Byte) (delim : Byte) (sfields : Splitfields) :
    Checked (ℤ × Splitfields) := do
  let s ← readStr buffer
  if s.length ≥ 1024 ∨ s.length = 0 then return (-1, ⟨0, sfields.fld⟩)
  else
    let (ended, sfields, ptr) ← fieldsLoop buffer delim (s.length + 1) ⟨0, sfields.fld⟩ 0 0 s.length
    if ended then
      let fld ← store sfields.fld ptr 0
      let c ← load buffer (s.length - 1)
      if c = delim then
        let fld ← store fld (maxFieldSize * sfields.nf) 0
        return (0, ⟨sfields.nf + 1, fld⟩)
      else return (0, ⟨sfields.nf, fld⟩)
    else return (-1, sfields)

/-- The fields that a structure has, as strings. -/
def Splitfields.fields (sfields : Splitfields) : List CStr :=
  (List.range sfields.nf).map fun i => cstr ((sfields.fld.drop (maxFieldSize * i)).take maxFieldSize)

/-! ## Fields in their places -/

/-- Some places of the array. -/
def Places (blocks : List (List Byte)) : Prop := ∀ b ∈ blocks, b.length = maxFieldSize

lemma length_flatten {blocks : List (List Byte)} (h : Places blocks) :
    blocks.flatten.length = maxFieldSize * blocks.length := by
  induction blocks with
  | nil => rfl
  | cons b blocks ih =>
      have hb := h b List.mem_cons_self
      have htail := ih fun b' hb' => h b' (List.mem_cons_of_mem _ hb')
      rw [List.flatten_cons, List.length_append, hb, htail, List.length_cons, Nat.mul_succ,
        Nat.add_comm]

/-- What is in a place. -/
lemma take_drop_flatten {blocks : List (List Byte)} (h : Places blocks) (back : List Byte) (i : ℕ)
    (hi : i < blocks.length) :
    ((blocks.flatten ++ back).drop (maxFieldSize * i)).take maxFieldSize = blocks[i] := by
  induction blocks generalizing i with
  | nil => exact absurd hi (Nat.not_lt_zero _)
  | cons b blocks ih =>
      have hb := h b List.mem_cons_self
      rw [List.flatten_cons, List.append_assoc]
      cases i with
      | zero => rw [Nat.mul_zero, List.drop_zero, ← hb, List.take_left, List.getElem_cons_zero]
      | succ i =>
          rw [Nat.mul_succ, Nat.add_comm, ← List.drop_drop, ← hb, List.drop_left, hb,
            List.getElem_cons_succ]
          exact ih (fun b' hb' => h b' (List.mem_cons_of_mem _ hb')) i (Nat.lt_of_succ_lt_succ hi)

/-- **The fields of a structure** are the strings in its places. -/
lemma fields_flatten {blocks : List (List Byte)} (h : Places blocks) (back : List Byte) :
    Splitfields.fields ⟨blocks.length, blocks.flatten ++ back⟩ = blocks.map cstr := by
  refine List.ext_getElem (by simp [Splitfields.fields]) fun i hi hi' => ?_
  rw [List.length_map] at hi'
  simp [Splitfields.fields, take_drop_flatten h back i hi']

/-! ## The inner loop -/

/-- The pass over the string takes the bytes of a field one after the other. -/
lemma xstrsplitLoop_word {delim : Byte} {word : CStr} (hword : delim ∉ word) {flen : ℕ}
    (hlen : word.length ≤ flen) (cur : CStr) (flds : List CStr) (rest : CStr) :
    xstrsplitLoop delim flen cur flds (word ++ rest) =
      xstrsplitLoop delim (flen - word.length) (cur ++ word) flds rest := by
  induction word generalizing flen cur with
  | nil => rw [List.nil_append, List.append_nil, List.length_nil, Nat.sub_zero]
  | cons c word ih =>
      rw [List.mem_cons, not_or] at hword
      rw [List.length_cons] at hlen ⊢
      rw [List.cons_append, xstrsplitLoop, if_neg (by omega), if_neg (Ne.symm hword.1),
        ih hword.2 (by omega), List.append_assoc, List.singleton_append, Nat.sub_sub, Nat.add_comm 1]

/-- **The inner loop** copies up to a delimiter, the end of the string or of the field. -/
lemma copyFieldLoop_run (delim : Byte) (flen : ℕ) (pre todo front back : List Byte)
    (hback : flen ≤ back.length) :
    ∃ word rest, todo = word ++ rest ∧ delim ∉ word ∧ word.length ≤ flen ∧
      (word.length = flen ∨ rest = [] ∨ rest.head? = some delim) ∧
      copyFieldLoop (pre ++ (todo ++ [0])) delim flen (front ++ back) front.length pre.length
          todo.length =
        .done (front ++ word ++ back.drop word.length, (front ++ word).length,
          (pre ++ word).length, rest.length, flen - word.length) := by
  induction flen generalizing pre todo front back with
  | zero =>
      refine ⟨[], todo, rfl, List.not_mem_nil, le_rfl, Or.inl rfl, ?_⟩
      obtain ⟨c, after, hafter⟩ : ∃ c after, todo ++ [0] = c :: after :=
        List.exists_cons_of_ne_nil (by simp)
      rw [hafter, copyFieldLoop, load_append_length, List.append_nil, List.append_nil]
      rfl
  | succ flen ih =>
      cases todo with
      | nil =>
          refine ⟨[], [], rfl, List.not_mem_nil, Nat.zero_le _, Or.inr (Or.inl rfl), ?_⟩
          rw [List.nil_append, copyFieldLoop, load_append_length, Checked.done_bind,
            if_neg fun h => absurd h.2 (Nat.lt_irrefl 0), List.append_nil, List.append_nil]
          rfl
      | cons c todo =>
          by_cases hc : c = delim
          · refine ⟨[], c :: todo, rfl, List.not_mem_nil, Nat.zero_le _,
              Or.inr (Or.inr (congrArg some hc)), ?_⟩
            rw [List.cons_append, copyFieldLoop, load_append_length, Checked.done_bind,
              if_neg fun h => h.1 hc, List.append_nil, List.append_nil]
            rfl
          · obtain ⟨b, back, rfl⟩ := List.exists_cons_of_length_pos (Nat.zero_lt_of_lt hback)
            obtain ⟨word, rest, rfl, hword, hlen, hend, hrun⟩ :=
              ih (pre ++ [c]) todo (front ++ [c]) back (Nat.le_of_succ_le_succ hback)
            refine ⟨c :: word, rest, rfl, ?_, Nat.succ_le_succ hlen, ?_, ?_⟩
            · rw [List.mem_cons, not_or]
              exact ⟨Ne.symm hc, hword⟩
            · exact hend.imp_left fun h => congrArg (· + 1) h
            · simp only [List.append_assoc, List.cons_append, List.nil_append, List.length_append,
                List.length_cons, List.length_nil, Nat.zero_add] at hrun ⊢
              rw [copyFieldLoop, load_append_length, Checked.done_bind,
                if_pos ⟨hc, Nat.succ_pos _⟩, store_append_length, Checked.done_bind,
                Nat.add_sub_cancel, hrun, List.drop_succ_cons, Nat.add_sub_add_right]

/-! ## The outer loop -/

/-- The loops end as the pass over the string does: the fields are in their places, once the last one
has its NUL; a delimiter at the end of the string is left for later. -/
def EndsAs (s : CStr) (delim : Byte) (res : Bool × Splitfields × ℕ) : Option (List CStr) → Prop
  | none => res.1 = false ∧ res.2.1.fld.length = fieldArraySize
  | some fs => res.1 = true ∧ ∃ blocks back, Places blocks ∧ blocks.length < maxSplitFields ∧
      (blocks.flatten ++ back).length = fieldArraySize ∧ res.2.1.nf = blocks.length ∧
      store res.2.1.fld res.2.2 0 = .done (blocks.flatten ++ back) ∧
      fs = blocks.map cstr ++ (if s.getLast? = some delim then [[]] else [])

/-- A full field is refused. -/
lemma xstrsplitLoop_full (delim : Byte) (cur : CStr) (flds : List CStr) (rest : CStr) :
    xstrsplitLoop delim 0 cur flds rest = none := by
  cases rest with
  | nil => rw [xstrsplitLoop, if_pos rfl]
  | cons c rest => rw [xstrsplitLoop, if_pos rfl]

/-- What the pass does behind a field. -/
lemma xstrsplitLoop_close (delim : Byte) {flen : ℕ} (hflen : flen ≠ 0) (cur : CStr)
    (flds : List CStr) (rest : CStr) :
    xstrsplitLoop delim flen cur flds (delim :: rest) =
      if flds.length + 1 ≥ maxSplitFields then none
      else if rest = [] then some (flds ++ [cur] ++ [[]])
      else xstrsplitLoop delim maxFieldSize [] (flds ++ [cur]) rest := by
  rw [xstrsplitLoop, if_neg hflen, if_pos rfl, List.append_assoc]
  rfl

/-- A string and its NUL in a place of its own. -/
lemma place_of_word {word : CStr} (hword : (0 : Byte) ∉ word) {back : List Byte}
    (hback : maxFieldSize ≤ back.length) (hlen : word.length < maxFieldSize) :
    ∃ c junk rest, back.drop word.length = c :: (junk ++ rest) ∧
      (word ++ 0 :: junk).length = maxFieldSize ∧ cstr (word ++ 0 :: junk) = word := by
  obtain ⟨c, after, hafter⟩ : ∃ c after, back.drop word.length = c :: after := by
    refine List.exists_cons_of_ne_nil fun hnil => ?_
    have := List.drop_eq_nil_iff.mp hnil
    omega
  have hlength := congrArg List.length hafter
  rw [List.length_drop, List.length_cons] at hlength
  refine ⟨c, after.take (maxFieldSize - word.length - 1),
    after.drop (maxFieldSize - word.length - 1), ?_, ?_, cstr_append_nul hword _⟩
  · rw [hafter, List.take_append_drop]
  · rw [List.length_append, List.length_cons, List.length_take]
    omega

/-- The array after a field was copied behind the others, and what its NUL makes of it. -/
structure PlacedField (blocks : List (List Byte)) (word : CStr) (fld : List Byte) (ptr : ℕ)
    (block back : List Byte) : Prop where
  places : Places (blocks ++ [block])
  cstr_eq : cstr block = word
  length_fld : fld.length = fieldArraySize
  length_closed : ((blocks ++ [block]).flatten ++ back).length = fieldArraySize
  store_eq : store fld ptr 0 = .done ((blocks ++ [block]).flatten ++ back)
  store_again : store ((blocks ++ [block]).flatten ++ back) ptr 0 =
    .done ((blocks ++ [block]).flatten ++ back)

section

variable {blocks : List (List Byte)} {word back : List Byte}

/-- There is room for one more field. -/
lemma room_of_array (hplaces : Places blocks) (hnf : blocks.length < maxSplitFields)
    (harray : (blocks.flatten ++ back).length = fieldArraySize) : maxFieldSize ≤ back.length := by
  rw [List.length_append, length_flatten hplaces, fieldArraySize, maxSplitFields,
    maxFieldSize] at harray
  rw [maxSplitFields] at hnf
  rw [maxFieldSize]
  omega

/-- Copying a field does not change the size of the array. -/
lemma length_copied (blocks : List (List Byte)) (hlen : word.length ≤ back.length)
    (harray : (blocks.flatten ++ back).length = fieldArraySize) :
    (blocks.flatten ++ word ++ back.drop word.length).length = fieldArraySize := by
  rw [← harray, List.length_append, List.length_append, List.length_append, List.length_drop]
  omega

/-- A field that is short enough gets a place. -/
lemma exists_placedField (hplaces : Places blocks) (hword : (0 : Byte) ∉ word)
    (hshort : word.length < maxFieldSize) (hroom : maxFieldSize ≤ back.length)
    (harray : (blocks.flatten ++ back).length = fieldArraySize) :
    ∃ block back', PlacedField blocks word (blocks.flatten ++ word ++ back.drop word.length)
      (blocks.flatten ++ word).length block back' := by
  have hsize := length_copied blocks (by omega : word.length ≤ back.length) harray
  obtain ⟨c, junk, back', hdrop, hplace, hcstr⟩ := place_of_word hword hroom hshort
  rw [hdrop] at hsize ⊢
  have hflatten : (blocks ++ [word ++ 0 :: junk]).flatten ++ back' =
      blocks.flatten ++ word ++ 0 :: (junk ++ back') := by simp
  refine ⟨word ++ 0 :: junk, back', ?_, hcstr, hsize, ?_, ?_, ?_⟩
  · intro b hb
    rcases List.mem_append.mp hb with hb | hb
    · exact hplaces b hb
    · rw [List.mem_singleton.mp hb, hplace]
  · rw [hflatten, ← hsize]
    simp
  · rw [hflatten]
    exact store_append_length ..
  · rw [hflatten]
    exact store_append_length ..

end

/-- **One round** in which the field fits its place. -/
lemma fieldsLoop_succ {buffer : List Byte} {delim : Byte} {fld fld' : List Byte}
    {nf ptr ptr' bptr bptr' len len' flen : ℕ} (hlen : 0 < len) (hflen : flen ≠ 0)
    (hcopy : copyFieldLoop buffer delim maxFieldSize fld (maxFieldSize * nf) bptr len =
      .done (fld', ptr', bptr', len', flen)) (fuel : ℕ) :
    fieldsLoop buffer delim (fuel + 1) ⟨nf, fld⟩ ptr bptr len =
      closeField buffer delim fld' ptr' bptr' len' >>= fun (fld, bptr, len) =>
        if nf + 1 ≥ maxSplitFields then .done (false, ⟨nf + 1, fld⟩, ptr')
        else fieldsLoop buffer delim fuel ⟨nf + 1, fld⟩ ptr' bptr len := by
  rw [fieldsLoop, if_pos hlen, hcopy, Checked.done_bind]
  exact if_neg hflen

/-- Behind the last field is the NUL of the string. -/
lemma closeField_end {delim : Byte} (hdelim : delim ≠ 0) (front fld : List Byte) (ptr : ℕ) :
    closeField (front ++ [0]) delim fld ptr front.length 0 = .done (fld, front.length, 0) := by
  rw [closeField, load_append_length, Checked.done_bind, if_neg (Ne.symm hdelim)]
  rfl

/-- Behind another field is a delimiter. -/
lemma closeField_delim (delim : Byte) (front rest : List Byte) {fld fld' : List Byte} {ptr : ℕ}
    (hstore : store fld ptr 0 = .done fld') (len : ℕ) :
    closeField (front ++ delim :: rest) delim fld ptr front.length len =
      .done (fld', front.length + 1, len - 1) := by
  rw [closeField, load_append_length, Checked.done_bind, if_pos rfl, hstore, Checked.done_bind]
  rfl

/-- The string ends in a field: there were too many, or it is the last one. -/
lemma fieldsLoop_last {s buffer : CStr} {delim : Byte} {blocks : List (List Byte)} {word : CStr}
    {fld : List Byte} {ptr : ℕ} {block back : List Byte}
    (hput : PlacedField blocks word fld ptr block back) (hlast : s.getLast? ≠ some delim) {fuel : ℕ}
    (hfuel : fuel ≠ 0) (bptr : ℕ) :
    ∃ res, (if blocks.length + 1 ≥ maxSplitFields then .done (false, ⟨blocks.length + 1, fld⟩, ptr)
        else fieldsLoop buffer delim fuel ⟨blocks.length + 1, fld⟩ ptr bptr 0) = .done res ∧
      EndsAs s delim res (if blocks.length + 1 ≥ maxSplitFields then none
        else some (blocks.map cstr ++ [word])) := by
  obtain ⟨fuel, rfl⟩ := Nat.exists_eq_succ_of_ne_zero hfuel
  by_cases hfields : blocks.length + 1 ≥ maxSplitFields
  · refine ⟨_, if_pos hfields, ?_⟩
    rw [if_pos hfields]
    exact ⟨rfl, hput.length_fld⟩
  · refine ⟨_, (if_neg hfields).trans (if_neg (Nat.lt_irrefl 0)), ?_⟩
    rw [if_neg hfields]
    refine ⟨rfl, _, back, hput.places, ?_, hput.length_closed, ?_, hput.store_eq, ?_⟩
    · rw [List.length_append, List.length_singleton]
      omega
    · rw [List.length_append, List.length_singleton]
    · rw [if_neg hlast, List.append_nil, List.map_append, List.map_singleton, hput.cstr_eq]

/-- **The loops** do what the pass over the string does. -/
theorem fieldsLoop_run {s : CStr} (hs : (0 : Byte) ∉ s) {delim : Byte} (hdelim : delim ≠ 0)
    (fuel : ℕ) (pre todo : CStr) (hsplit : s = pre ++ todo) (blocks : List (List Byte))
    (hplaces : Places blocks) (back : List Byte) (ptr : ℕ) (hnf : blocks.length < maxSplitFields)
    (harray : (blocks.flatten ++ back).length = fieldArraySize) (hfuel : todo.length < fuel)
    (hnil : todo = [] → s.getLast? = some delim ∧
      store (blocks.flatten ++ back) ptr 0 = .done (blocks.flatten ++ back)) :
    ∃ res, fieldsLoop (cblock s) delim fuel ⟨blocks.length, blocks.flatten ++ back⟩ ptr pre.length
        todo.length = .done res ∧
      EndsAs s delim res (if todo = [] then some (blocks.map cstr ++ [[]])
        else xstrsplitLoop delim maxFieldSize [] (blocks.map cstr) todo) := by
  induction fuel generalizing pre todo blocks back ptr with
  | zero => exact absurd hfuel (Nat.not_lt_zero _)
  | succ fuel ih =>
      by_cases htodo : todo = []
      · subst htodo
        obtain ⟨hlast, hstore⟩ := hnil rfl
        refine ⟨_, if_neg (Nat.lt_irrefl 0), ?_⟩
        rw [if_pos rfl]
        exact ⟨rfl, blocks, back, hplaces, hnf, harray, rfl, hstore, by rw [if_pos hlast]⟩
      · have hmem : cblock s = pre ++ (todo ++ [0]) := by
          rw [cblock, hsplit, List.append_assoc]
        have hpos := List.length_pos_iff.mpr htodo
        have hroom := room_of_array hplaces hnf harray
        rw [if_neg htodo, hmem]
        obtain ⟨word, rest, rfl, hword, hlen, hend, hcopy⟩ :=
          copyFieldLoop_run delim maxFieldSize pre todo blocks.flatten back hroom
        have hnul : (0 : Byte) ∉ word := fun hmem => hs (by simp [hsplit, hmem])
        have hflds : (blocks.map cstr).length = blocks.length := List.length_map ..
        rw [length_flatten hplaces] at hcopy
        rw [xstrsplitLoop_word hword hlen, List.nil_append]
        rcases Nat.eq_or_lt_of_le hlen with hfull | hshort
        · -- the field does not fit its place
          have hkeep := length_copied blocks (hlen.trans hroom) harray
          rw [hfull, Nat.sub_self] at hcopy ⊢
          rw [hfull] at hkeep
          rw [fieldsLoop, if_pos hpos, hcopy, xstrsplitLoop_full]
          exact ⟨_, rfl, rfl, hkeep⟩
        · obtain ⟨block, back', hput⟩ := exists_placedField hplaces hnul hshort hroom harray
          have hflen : maxFieldSize - word.length ≠ 0 := by omega
          rw [fieldsLoop_succ hpos hflen hcopy]
          rcases hend.resolve_left (Nat.ne_of_lt hshort) with rfl | hhead
          · -- the string ends in this field
            rw [List.append_nil] at htodo hsplit hpos hfuel
            have hlast : s.getLast? ≠ some delim := by
              rw [hsplit, List.getLast?_append, List.getLast?_eq_some_getLast htodo, Option.some_or]
              exact fun h => hword (Option.some.inj h ▸ List.getLast_mem htodo)
            rw [List.append_nil, List.length_nil, ← List.append_assoc, closeField_end hdelim,
              Checked.done_bind, xstrsplitLoop, if_neg hflen, hflds]
            exact fieldsLoop_last hput hlast (by omega) _
          · -- a delimiter follows
            obtain ⟨rest, rfl⟩ := List.head?_eq_some_iff.mp hhead
            have hmem' : pre ++ (word ++ delim :: rest ++ [0]) =
                pre ++ word ++ delim :: (rest ++ [0]) := by simp
            have hfront : (pre ++ word).length + 1 = (pre ++ (word ++ [delim])).length := by
              simp [Nat.add_assoc]
            have hs' : s = (pre ++ (word ++ [delim])) ++ rest := by
              rw [hsplit]
              simp
            rw [hmem', closeField_delim delim _ _ hput.store_eq, Checked.done_bind, hfront,
              xstrsplitLoop_close delim hflen, hflds, List.length_cons, Nat.add_sub_cancel,
              ← hmem', ← hmem]
            by_cases hfields : blocks.length + 1 ≥ maxSplitFields
            · refine ⟨_, if_pos hfields, ?_⟩
              rw [if_pos hfields]
              exact ⟨rfl, hput.length_closed⟩
            · have hmap : blocks.map cstr ++ [word] = (blocks ++ [block]).map cstr := by
                rw [List.map_append, List.map_singleton, hput.cstr_eq]
              have hcount : (blocks ++ [block]).length = blocks.length + 1 := by
                rw [List.length_append, List.length_singleton]
              obtain ⟨res, hrun, hres⟩ := ih (pre ++ (word ++ [delim])) rest hs'
                (blocks ++ [block]) hput.places back' (blocks.flatten ++ word).length (by omega)
                hput.length_closed (by rw [List.length_append, List.length_cons] at hfuel; omega)
                fun hnil => ⟨by rw [hs', hnil]; simp, hput.store_again⟩
              rw [hcount] at hrun
              refine ⟨res, (if_neg hfields).trans hrun, ?_⟩
              rw [if_neg hfields, hmap]
              exact hres

/-! ## The function -/

/-- **The function on memory** does what the one on strings does. -/
theorem xstrsplitfieldsMem_eq {s : CStr} (hs : (0 : Byte) ∉ s) {delim : Byte} (hdelim : delim ≠ 0)
    {sfields : Splitfields} (harray : sfields.fld.length = fieldArraySize) :
    ∃ r sfields', xstrsplitfieldsMem (cblock s) delim sfields = .done (r, sfields') ∧
      sfields'.fld.length = fieldArraySize ∧
      match xstrsplitfields s delim with
      | none => r = -1
      | some fs => r = 0 ∧ sfields'.fields = fs := by
  rw [xstrsplitfieldsMem, readStr_cblock hs, Checked.done_bind, xstrsplitfields]
  by_cases hlen : s.length ≥ 1024 ∨ s.length = 0
  · rw [if_pos hlen, if_pos hlen]
    exact ⟨-1, _, rfl, harray, rfl⟩
  · have hne : s ≠ [] := fun hnil => hlen (Or.inr (by rw [hnil, List.length_nil]))
    rw [if_neg hlen, if_neg hlen]
    obtain ⟨res, hrun, hres⟩ := fieldsLoop_run hs hdelim (s.length + 1) [] s rfl []
      (fun b hb => absurd hb List.not_mem_nil) sfields.fld 0 (by decide) harray (Nat.lt_succ_self _)
      fun hnil => absurd hnil hne
    rw [if_neg hne] at hres
    have hrun' : fieldsLoop (cblock s) delim (s.length + 1) ⟨0, sfields.fld⟩ 0 0 s.length =
      .done res := hrun
    rw [hrun', Checked.done_bind]
    cases hpass : xstrsplitLoop delim maxFieldSize [] [] s with
    | none =>
        rw [List.map_nil, hpass] at hres
        obtain ⟨hended, hkeep⟩ := hres
        refine ⟨-1, res.2.1, ?_, hkeep, rfl⟩
        simp [hended]
    | some fs =>
        rw [List.map_nil, hpass] at hres
        obtain ⟨hended, blocks, back, hplaces, hnf, hsize, hcount, hstore, rfl⟩ := hres
        have hload : load (cblock s) (s.length - 1) = .done (s.getLast hne) := by
          rw [load_eq_done_iff, cblock, List.getElem?_append_left (by
            have := List.length_pos_iff.mpr hne
            omega), List.getLast_eq_getElem]
          exact List.getElem?_eq_getElem _
        simp only [hended, if_true, hstore, hload, Checked.done_bind, hcount]
        rw [List.getLast?_eq_some_getLast hne]
        by_cases hlast : s.getLast hne = delim
        · have hroom := room_of_array hplaces hnf hsize
          obtain ⟨c, junk, back', hdrop, hplace, hcstr⟩ :=
            place_of_word (@List.not_mem_nil _ (0 : Byte)) hroom (by decide)
          have hclose : store (blocks.flatten ++ back) (maxFieldSize * blocks.length) 0 =
              .done ((blocks ++ [0 :: junk]).flatten ++ back') := by
            rw [← length_flatten hplaces, show back = c :: (junk ++ back') from hdrop,
              store_append_length]
            simp
          have hplaces' : Places (blocks ++ [0 :: junk]) := by
            intro b hb
            rcases List.mem_append.mp hb with hb | hb
            · exact hplaces b hb
            · rw [List.mem_singleton.mp hb]
              exact hplace
          have hkeep := (store_eq_done_iff.mp hclose).2
          have hfields := fields_flatten hplaces' back'
          rw [List.length_append, List.length_singleton, List.map_append, List.map_singleton] at hfields
          rw [if_pos hlast, hclose, if_pos (congrArg some hlast)]
          refine ⟨0, _, rfl, ?_, rfl, hfields.trans (congrArg (_ ++ [·]) hcstr)⟩
          rw [hkeep, List.length_set, hsize]
        · rw [if_neg hlast, if_neg fun h => hlast (Option.some.inj h), List.append_nil]
          exact ⟨0, _, rfl, hsize, rfl, fields_flatten hplaces back⟩

/-- **Joining and splitting are inverse.**  Fields within the limits come back from their join, and
whatever is split can be joined again; nothing is written outside the array. -/
theorem xstrsplitfieldsMem_sound (delim : Byte) (hdelim : delim ≠ 0) (sfields : Splitfields)
    (harray : sfields.fld.length = fieldArraySize) :
    (∀ fs : List CStr, 1 ≤ fs.length → fs.length ≤ 63 →
      (∀ f ∈ fs, f.length ≤ 255 ∧ delim ∉ f ∧ (0 : Byte) ∉ f) →
      1 ≤ ([delim].intercalate fs).length → ([delim].intercalate fs).length ≤ 1023 →
      ∃ sfields', xstrsplitfieldsMem (cblock ([delim].intercalate fs)) delim sfields =
        .done (0, sfields') ∧ sfields'.fields = fs) ∧
    ∀ s : CStr, (0 : Byte) ∉ s →
      ∃ r sfields', xstrsplitfieldsMem (cblock s) delim sfields = .done (r, sfields') ∧
        sfields'.fld.length = fieldArraySize ∧ (r = 0 → [delim].intercalate sfields'.fields = s) := by
  constructor
  · intro fs hpos hmax hfs hshort hlong
    have hnul : (0 : Byte) ∉ [delim].intercalate fs := by
      intro hmem
      rcases mem_of_mem_intercalate hmem with hmem | ⟨f, hf, hmem⟩
      · exact hdelim (List.mem_singleton.mp hmem).symm
      · exact (hfs f hf).2.2 hmem
    have hsplit : ([delim].intercalate fs).splitOn delim = fs :=
      List.splitOn_intercalate delim (fun f hf => (hfs f hf).2.1) (List.length_pos_iff.mp hpos)
    have hpass : xstrsplitfields ([delim].intercalate fs) delim = some fs := by
      have h := @xstrsplitfields_eq_some ([delim].intercalate fs) delim
        (List.length_pos_iff.mp hshort) (Nat.lt_succ_of_le hlong)
      rw [hsplit] at h
      exact h (fun f hf => Nat.lt_succ_of_le (hfs f hf).1) (Nat.lt_succ_of_le hmax)
    obtain ⟨r, sfields', hrun, -, hres⟩ := xstrsplitfieldsMem_eq hnul hdelim harray
    rw [hpass] at hres
    obtain ⟨rfl, hfields⟩ := hres
    exact ⟨sfields', hrun, hfields⟩
  · intro s hs
    obtain ⟨r, sfields', hrun, hkeep, hres⟩ := xstrsplitfieldsMem_eq hs hdelim harray
    refine ⟨r, sfields', hrun, hkeep, fun hr => ?_⟩
    cases hpass : xstrsplitfields s delim with
    | none =>
        rw [hpass] at hres
        have hminus : r = -1 := hres
        exact absurd (hr.symm.trans hminus) (by decide)
    | some fs =>
        rw [hpass] at hres
        rw [hres.2, xstrsplitfields_some hpass, List.intercalate_splitOn]

/-- An array of zeros. -/
theorem xstrsplitfieldsMem_sound_zeros :
    (∀ fs : List CStr, 1 ≤ fs.length → fs.length ≤ 63 →
      (∀ f ∈ fs, f.length ≤ 255 ∧ ch ',' ∉ f ∧ (0 : Byte) ∉ f) →
      1 ≤ ([ch ','].intercalate fs).length → ([ch ','].intercalate fs).length ≤ 1023 →
      ∃ sfields', xstrsplitfieldsMem (cblock ([ch ','].intercalate fs)) (ch ',')
        ⟨0, List.replicate fieldArraySize 0⟩ = .done (0, sfields') ∧ sfields'.fields = fs) ∧
    ∀ s : CStr, (0 : Byte) ∉ s →
      ∃ r sfields', xstrsplitfieldsMem (cblock s) (ch ',') ⟨0, List.replicate fieldArraySize 0⟩ =
          .done (r, sfields') ∧
        sfields'.fld.length = fieldArraySize ∧ (r = 0 → [ch ','].intercalate sfields'.fields = s) :=
  xstrsplitfieldsMem_sound (ch ',') (by decide) ⟨0, List.replicate fieldArraySize 0⟩
    List.length_replicate

end G7
