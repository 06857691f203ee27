import G7Ctrl.Template.Dict

/-!
# The pieces of a template

`replace_dict_in_buf` reads a template piece by piece: a key of the dictionary in brackets, for which
it writes the value, or a byte that it copies.  Nothing is asked of the dictionary here: a key may
have brackets or be too long for `match`, and a value may have any length.

* `Piece`, `pieces` — the pieces of a text.
* `replacedText` — what is written for them.
* **`replaceLoop_endsIff`** — the loop writes this text if the work buffer can hold it, and leaves
  the work buffer if it cannot.
* **`replaceDictInBuf_endsIff`** — the function is done if the NUL has a place there, too.
-/

namespace G7

/-! ## Keys and values -/

/-- The key in front of the first `']'` if `match` can hold it, with what follows the bracket. -/
def keyBefore (text : CStr) : Option (CStr × CStr) :=
  let key := text.takeWhile (· ≠ ch ']')
  if ch ']' ∈ text ∧ key.length < sizeofMatch then some (key, text.drop (key.length + 1)) else none

/-- What is written for a key: at most 1024 bytes of the value of the first tuple that has it. -/
def valueFor (dict : Dict) (key : CStr) : Option CStr :=
  (dict.tuple.find? fun t => strcasecmp key t.key).map fun t => t.val.take maxDictionaryValSize

/-- The key of the dictionary behind a `'['`, with what is written for it and what follows. -/
def keyAt (dict : Dict) (text : CStr) : Option (CStr × CStr × CStr) :=
  (keyBefore text).bind fun (key, rest) => (valueFor dict key).map fun val => (key, val, rest)

lemma keyBefore_append {key : CStr} (rest : CStr) (hkey : ch ']' ∉ key) :
    keyBefore (key ++ ch ']' :: rest) =
      if key.length < sizeofMatch then some (key, rest) else none := by
  have hall : ∀ c ∈ key, decide (c ≠ ch ']') = true :=
    fun c hc => decide_eq_true fun h => hkey (h ▸ hc)
  have htake : (key ++ ch ']' :: rest).takeWhile (fun c => decide (c ≠ ch ']')) = key := by
    rw [List.takeWhile_append_of_pos hall]
    simp
  have hmem : ch ']' ∈ key ++ ch ']' :: rest := List.mem_append_right _ List.mem_cons_self
  have hdrop : (key ++ ch ']' :: rest).drop (key.length + 1) = rest :=
    List.drop_length_add_append 1
  simp only [keyBefore, htake, hdrop, hmem, true_and]

lemma keyBefore_eq_some_iff {text key rest : CStr} :
    keyBefore text = some (key, rest) ↔
      text = key ++ ch ']' :: rest ∧ ch ']' ∉ key ∧ key.length < sizeofMatch := by
  constructor
  · intro h
    have hmem : ch ']' ∈ text := by
      rw [keyBefore] at h
      split_ifs at h with hlen
      exact hlen.1
    obtain ⟨key', rest', rfl, hkey'⟩ := List.eq_append_cons_of_mem hmem
    rw [keyBefore_append rest' hkey'] at h
    split_ifs at h with hlen
    cases h
    exact ⟨rfl, hkey', hlen⟩
  · rintro ⟨rfl, hkey, hlen⟩
    rw [keyBefore_append rest hkey, if_pos hlen]

lemma keyAt_eq_some_iff {dict : Dict} {text key val rest : CStr} :
    keyAt dict text = some (key, val, rest) ↔
      keyBefore text = some (key, rest) ∧ valueFor dict key = some val := by
  rw [keyAt, Option.bind_eq_some_iff]
  constructor
  · rintro ⟨⟨key', rest'⟩, hkey, hval⟩
    obtain ⟨val', hval', heq⟩ := Option.map_eq_some_iff.mp hval
    cases heq
    exact ⟨hkey, hval'⟩
  · rintro ⟨hkey, hval⟩
    exact ⟨(key, rest), hkey, Option.map_eq_some_iff.mpr ⟨val, hval, rfl⟩⟩

/-! ## Pieces -/

/-- What the function takes from a template at once. -/
inductive Piece
  | copied (c : Byte)
  | replaced (key val : CStr)
  deriving DecidableEq

namespace Piece

/-- What stands in the template. -/
def source : Piece → CStr
  | copied c => [c]
  | replaced key _ => ch '[' :: (key ++ [ch ']'])

/-- What is written for it. -/
def written : Piece → CStr
  | copied c => [c]
  | replaced _ val => val

/-- What is added to `n` for it. -/
def counted : Piece → ℕ
  | copied _ => 1
  | replaced _ _ => 0

lemma length_source_pos (p : Piece) : 0 < p.source.length := by
  cases p with
  | copied c => exact Nat.one_pos
  | replaced key val => exact Nat.succ_pos _

lemma counted_le (p : Piece) : p.counted ≤ p.source.length := by
  cases p with
  | copied c => exact le_rfl
  | replaced key val => exact Nat.zero_le _

end Piece

/-- The first piece of a text, with what follows it. -/
def firstPiece (dict : Dict) (c : Byte) (text : CStr) : Piece × CStr :=
  match if c = ch '[' then keyAt dict text else none with
  | some (key, val, rest) => (.replaced key val, rest)
  | none => (.copied c, text)

lemma firstPiece_key {dict : Dict} {text key val rest : CStr}
    (h : keyAt dict text = some (key, val, rest)) :
    firstPiece dict (ch '[') text = (.replaced key val, rest) := by
  rw [firstPiece, if_pos rfl, h]

lemma firstPiece_copy {dict : Dict} {c : Byte} {text : CStr}
    (h : c = ch '[' → keyAt dict text = none) : firstPiece dict c text = (.copied c, text) := by
  have hnone : (if c = ch '[' then keyAt dict text else none) = none := by
    split_ifs with hc
    · exact h hc
    · rfl
  rw [firstPiece, hnone]

/-- There is a key, or a byte is copied. -/
lemma firstPiece_cases (dict : Dict) (c : Byte) (text : CStr) :
    (∃ key val rest, c = ch '[' ∧ keyAt dict text = some (key, val, rest)) ∨
      (c = ch '[' → keyAt dict text = none) := by
  by_cases hc : c = ch '['
  · cases hkey : keyAt dict text with
    | none => exact Or.inr fun _ => rfl
    | some found => exact Or.inl ⟨found.1, found.2.1, found.2.2, hc, rfl⟩
  · exact Or.inr fun h => absurd h hc

/-- The first piece stands in front. -/
lemma firstPiece_append (dict : Dict) (c : Byte) (text : CStr) :
    (firstPiece dict c text).1.source ++ (firstPiece dict c text).2 = c :: text := by
  rcases firstPiece_cases dict c text with ⟨key, val, rest, rfl, hkey⟩ | hnone
  · rw [firstPiece_key hkey]
    obtain ⟨rfl, -, -⟩ := keyBefore_eq_some_iff.mp (keyAt_eq_some_iff.mp hkey).1
    simp [Piece.source]
  · rw [firstPiece_copy hnone]
    rfl

lemma length_firstPiece (dict : Dict) (c : Byte) (text : CStr) :
    (firstPiece dict c text).1.source.length + (firstPiece dict c text).2.length =
      text.length + 1 := by
  rw [← List.length_append, firstPiece_append, List.length_cons]

/-- The pieces of a text. -/
def pieces (dict : Dict) : CStr → List Piece
  | [] => []
  | c :: text => (firstPiece dict c text).1 :: pieces dict (firstPiece dict c text).2
  termination_by text => text.length
  decreasing_by
    have hlen := length_firstPiece dict c text
    have hpos := (firstPiece dict c text).1.length_source_pos
    rw [List.length_cons]
    omega

/-- What is written for a text. -/
def replacedText (dict : Dict) (text : CStr) : CStr := (pieces dict text).flatMap Piece.written

variable {dict : Dict}

@[simp] lemma pieces_nil : pieces dict [] = [] := by rw [pieces]

lemma pieces_cons (c : Byte) (text : CStr) :
    pieces dict (c :: text) =
      (firstPiece dict c text).1 :: pieces dict (firstPiece dict c text).2 := by rw [pieces]

lemma replacedText_cons (c : Byte) (text : CStr) :
    replacedText dict (c :: text) =
      (firstPiece dict c text).1.written ++ replacedText dict (firstPiece dict c text).2 := by
  rw [replacedText, pieces_cons, List.flatMap_cons]
  rfl

/-- The pieces are the text. -/
lemma flatMap_source (dict : Dict) (text : CStr) :
    (pieces dict text).flatMap Piece.source = text := by
  induction text using pieces.induct dict with
  | case1 => rw [pieces_nil, List.flatMap_nil]
  | case2 c text ih => rw [pieces_cons, List.flatMap_cons, ih, firstPiece_append]

/-! ## The run -/

/-- Reading a key stops at a bracket, at the end of the text or when `match` is full. -/
lemma scanKey_eq (front rest : List Byte) {todo : CStr} (htodo : (0 : Byte) ∉ todo) (left : ℕ) :
    ∃ k r, todo = k ++ r ∧ k.length ≤ left ∧ ch ']' ∉ k ∧
      (k.length = left ∨ r = [] ∨ r.head? = some (ch ']')) ∧
      scanKey (front ++ (todo ++ 0 :: rest)) left front.length =
        .done (k, front.length + k.length) := by
  induction left generalizing front todo with
  | zero => exact ⟨[], todo, rfl, le_rfl, List.not_mem_nil, Or.inl rfl, rfl⟩
  | succ left ih =>
      cases todo with
      | nil =>
          refine ⟨[], [], rfl, Nat.zero_le _, List.not_mem_nil, Or.inr (Or.inl rfl), ?_⟩
          rw [List.nil_append, scanKey, load_append_length, Checked.done_bind]
          exact if_pos (Or.inl rfl)
      | cons c todo =>
          rw [List.mem_cons, not_or] at htodo
          by_cases hc : c = ch ']'
          · refine ⟨[], c :: todo, rfl, Nat.zero_le _, List.not_mem_nil,
              Or.inr (Or.inr (congrArg some hc)), ?_⟩
            rw [List.cons_append, scanKey, load_append_length, Checked.done_bind]
            exact if_pos (Or.inr hc)
          · obtain ⟨k, r, rfl, hlen, hk, hend, hrun⟩ := ih (front ++ [c]) htodo.2
            rw [List.append_assoc, List.length_append, List.length_singleton] at hrun
            refine ⟨c :: k, r, rfl, Nat.succ_le_succ hlen, ?_, ?_, ?_⟩
            · rw [List.mem_cons, not_or]
              exact ⟨Ne.symm hc, hk⟩
            · exact hend.imp_left fun h => congrArg (· + 1) h
            · rw [List.cons_append, scanKey, load_append_length, Checked.done_bind,
                if_neg (not_or.mpr ⟨Ne.symm htodo.1, hc⟩)]
              refine (congrArg (· >>= _) hrun).trans ?_
              rw [List.length_cons, Nat.add_assoc, Nat.add_comm 1]
              rfl

/-- A key that `match` can hold ends where the reading of one stops. -/
lemma head?_of_stop {k r key rest : CStr} (hk : ch ']' ∉ k) (hsplit : k ++ r = key ++ ch ']' :: rest)
    (hend : k.length = sizeofMatch - 1 ∨ r = [])
    (hshort : key.length < sizeofMatch) : r.head? = some (ch ']') := by
  rcases List.append_eq_append_iff.mp hsplit with ⟨mid, rfl, hr⟩ | ⟨mid, rfl, hr⟩
  · cases mid with
    | nil => exact congrArg List.head? hr
    | cons b mid =>
        rw [List.length_append, List.length_cons] at hshort
        rcases hend with hfull | rfl
        · omega
        · cases hr
  · cases mid with
    | nil => exact congrArg List.head? hr.symm
    | cons b mid =>
        have hb : ch ']' = b := (List.cons.inj hr).1
        exact absurd (List.mem_append_right _ (hb ▸ List.mem_cons_self)) hk

/-- **At a bracket** the run finds the key that is there. -/
lemma matchKey_eq (dict : Dict) (front rest : List Byte) {todo : CStr} (htodo : (0 : Byte) ∉ todo) :
    matchKey dict (front ++ ch '[' :: (todo ++ 0 :: rest)) front.length =
      .done ((keyAt dict todo).map fun found =>
        (found.2.1, front.length + (found.1.length + 2))) := by
  obtain ⟨k, r, rfl, hlen, hk, hend, hrun⟩ :=
    scanKey_eq (front ++ [ch '[']) rest htodo (sizeofMatch - 1)
  rw [List.append_assoc, List.singleton_append, List.length_append, List.length_singleton] at hrun
  have hplace : front.length + 1 + k.length = (front ++ ch '[' :: k).length := by
    rw [List.length_append, List.length_cons]
    omega
  have hload {c : Byte} {back : List Byte} (hr : r ++ 0 :: rest = c :: back) :
      load (front ++ ch '[' :: (k ++ r ++ 0 :: rest)) (front.length + 1 + k.length) = .done c := by
    have h := load_append_length (front ++ ch '[' :: k) c back
    rw [hplace, List.append_assoc k, hr]
    rwa [List.append_assoc] at h
  by_cases hhead : r.head? = some (ch ']')
  · obtain ⟨r, rfl⟩ := List.head?_eq_some_iff.mp hhead
    have hbefore := keyBefore_append r hk
    rw [if_pos (show k.length < sizeofMatch from Nat.lt_succ_of_le hlen)] at hbefore
    have hbracket := hload (show ch ']' :: r ++ 0 :: rest = ch ']' :: (r ++ 0 :: rest) from rfl)
    simp only [keyAt, hbefore, Option.bind_some, valueFor, matchKey, hrun, Checked.done_bind,
      hbracket, if_true]
    cases hfind : dict.tuple.find? fun t => strcasecmp k t.key with
    | none => rfl
    | some t =>
        have hnn : t.val.take (if maxDictionaryValSize < t.val.length then maxDictionaryValSize
            else t.val.length) = t.val.take maxDictionaryValSize := by
          split_ifs with hlong
          · rfl
          · rw [List.take_length, List.take_of_length_le (Nat.not_lt.mp hlong)]
        have hnext : front.length + 1 + k.length + 1 = front.length + (k.length + 2) := by omega
        simp only [hnn, hnext, Option.map_some, Checked.pure_eq]
  · have hnone : keyAt dict (k ++ r) = none := by
      refine Option.eq_none_iff_forall_ne_some.mpr fun ⟨key, val, back⟩ hfound => ?_
      obtain ⟨hsplit, -, hshort⟩ := keyBefore_eq_some_iff.mp (keyAt_eq_some_iff.mp hfound).1
      exact hhead (head?_of_stop hk hsplit (hend.imp id fun h => h.resolve_right hhead) hshort)
    obtain ⟨c, back, hr, hc⟩ : ∃ c back, r ++ 0 :: rest = c :: back ∧ c ≠ ch ']' := by
      cases r with
      | nil => exact ⟨0, rest, rfl, by decide⟩
      | cons c r => exact ⟨c, r ++ 0 :: rest, rfl, fun h => hhead (congrArg some h)⟩
    rw [hnone]
    simp only [matchKey, hrun, Checked.done_bind, hload hr, if_neg hc, Checked.pure_eq,
      Option.map_none]

/-- A work buffer of `size` bytes with what is written so far. -/
def workBuffer (size : ℕ) (out : List Byte) : List Byte :=
  out ++ List.replicate (size - out.length) 0

/-- Writing behind what is written. -/
lemma storeBytes_workBuffer {size : ℕ} {out : List Byte} (hout : out.length ≤ size)
    (bs : List Byte) :
    (storeBytes (workBuffer size out) out.length bs).EndsIff (out.length + bs.length ≤ size)
      (workBuffer size (out ++ bs)) := by
  have hlen : (workBuffer size out).length = size := by
    rw [workBuffer, List.length_append, List.length_replicate]
    omega
  constructor
  · intro hroom
    rw [workBuffer, storeBytes_append _ _ (by rw [List.length_replicate]; omega),
      List.drop_replicate, workBuffer, List.length_append, Nat.sub_sub, List.append_assoc]
  · intro hroom
    rw [storeBytes, hlen, if_neg hroom]

/-- **One round of the loop** takes the first piece. -/
lemma replaceLoop_step (dict : Dict) {size n : ℕ} (hn : n < size) (front rest : List Byte) {c : Byte}
    {todo : CStr} (htodo : (0 : Byte) ∉ c :: todo) (fuel : ℕ) (wbuff : List Byte) (pw : ℕ) :
    replaceLoop dict size (front ++ (c :: todo ++ 0 :: rest)) (fuel + 1) wbuff pw front.length n =
      storeBytes wbuff pw (firstPiece dict c todo).1.written >>= fun wbuff =>
        replaceLoop dict size (front ++ (c :: todo ++ 0 :: rest)) fuel wbuff
          (pw + (firstPiece dict c todo).1.written.length)
          (front ++ (firstPiece dict c todo).1.source).length
          (n + (firstPiece dict c todo).1.counted) := by
  rw [List.mem_cons, not_or] at htodo
  rw [replaceLoop, if_pos hn, List.cons_append, load_append_length, Checked.done_bind,
    if_neg (Ne.symm htodo.1), matchAt]
  rcases firstPiece_cases dict c todo with ⟨key, val, back, rfl, hkey⟩ | hnone
  · rw [if_pos rfl, matchKey_eq dict front rest htodo.2, hkey, firstPiece_key hkey,
      Checked.done_bind]
    have hplace : (front ++ (Piece.replaced key val).source).length =
        front.length + (key.length + 2) := by simp [Piece.source]
    rw [hplace]
    rfl
  · have hmatch : (if c = ch '[' then matchKey dict (front ++ c :: (todo ++ 0 :: rest)) front.length
        else return none) = .done none := by
      split_ifs with hc
      · subst hc
        rw [matchKey_eq dict front rest htodo.2, hnone rfl, Option.map_none]
      · rfl
    rw [hmatch, firstPiece_copy hnone, Checked.done_bind, Piece.written, storeBytes_singleton,
      Piece.source, List.length_append]
    rfl

/-- **The loop** writes what is written for the pieces, if the work buffer can hold it. -/
theorem replaceLoop_endsIff (dict : Dict) (size : ℕ) (rest : List Byte) (todo : CStr) (fuel : ℕ)
    (front out : List Byte) (n : ℕ) (htodo : (0 : Byte) ∉ todo) (hout : out.length ≤ size)
    (hn : n + todo.length ≤ size) (hfuel : todo.length < fuel) :
    (replaceLoop dict size (front ++ (todo ++ 0 :: rest)) fuel (workBuffer size out) out.length
      front.length n).EndsIff (out.length + (replacedText dict todo).length ≤ size)
      (workBuffer size (out ++ replacedText dict todo)) := by
  induction todo using pieces.induct dict generalizing fuel front out n with
  | case1 =>
      obtain ⟨fuel, rfl⟩ := Nat.exists_eq_succ_of_ne_zero (Nat.ne_of_gt hfuel)
      have hnil : replacedText dict [] = [] := by rw [replacedText, pieces_nil, List.flatMap_nil]
      have hrun : replaceLoop dict size (front ++ ([] ++ 0 :: rest)) (fuel + 1) (workBuffer size out)
          out.length front.length n = .done (workBuffer size out) := by
        rw [replaceLoop]
        split_ifs with hlt
        · rw [List.nil_append, load_append_length, Checked.done_bind, if_pos rfl]
          rfl
        · rfl
      rw [hrun, hnil, List.append_nil]
      exact Checked.EndsIff.of_done hout
  | case2 c todo ih =>
      obtain ⟨fuel, rfl⟩ := Nat.exists_eq_succ_of_ne_zero (Nat.ne_zero_of_lt hfuel)
      have happend := firstPiece_append dict c todo
      have hlen := length_firstPiece dict c todo
      rw [List.length_cons] at hn hfuel
      rw [replaceLoop_step dict (by omega) front rest htodo, replacedText_cons]
      generalize firstPiece dict c todo = piece at ih happend hlen ⊢
      have hpos := piece.1.length_source_pos
      have hcounted := piece.1.counted_le
      have hback : (0 : Byte) ∉ piece.2 := fun hmem => htodo (happend ▸ List.mem_append_right _ hmem)
      have hbuffer : front ++ (c :: todo ++ 0 :: rest) =
          front ++ piece.1.source ++ (piece.2 ++ 0 :: rest) := by
        rw [← happend, List.append_assoc, List.append_assoc]
      rw [hbuffer, ← List.append_assoc out, ← List.length_append]
      refine ((storeBytes_workBuffer hout piece.1.written).bind fun hroom =>
        ih fuel _ _ _ hback ?_ ?_ ?_).congr ?_
      · rwa [List.length_append]
      · omega
      · omega
      · rw [List.length_append, List.length_append]
        omega

/-! ## The function -/

lemma strnlen_eq {text : CStr} (htext : (0 : Byte) ∉ text) (rest : List Byte) {maxlen : ℕ}
    (h : text.length < maxlen) : strnlen (text ++ 0 :: rest) maxlen = .done text.length := by
  rw [strnlen, cstr_append_nul htext, if_neg (Nat.not_le.mpr h), if_pos]
  · rfl
  · rw [List.length_append, List.length_cons]
    omega

/-- What is written for a string is a string. -/
lemma nul_notMem_replacedText (hval : ∀ t ∈ dict.tuple, (0 : Byte) ∉ t.val) {text : CStr}
    (htext : (0 : Byte) ∉ text) : (0 : Byte) ∉ replacedText dict text := by
  induction text using pieces.induct dict with
  | case1 =>
      rw [replacedText, pieces_nil]
      exact List.not_mem_nil
  | case2 c text ih =>
      rw [replacedText_cons, List.mem_append, not_or]
      rcases firstPiece_cases dict c text with ⟨key, val, rest, rfl, hkey⟩ | hnone
      · rw [firstPiece_key hkey] at ih ⊢
        obtain ⟨hbefore, hfor⟩ := keyAt_eq_some_iff.mp hkey
        obtain ⟨rfl, -, -⟩ := keyBefore_eq_some_iff.mp hbefore
        obtain ⟨t, ht, rfl⟩ := Option.map_eq_some_iff.mp hfor
        refine ⟨fun hmem => ?_, ih fun hmem => htext (by simp [hmem])⟩
        exact hval t (List.mem_of_find?_eq_some ht) (List.mem_of_mem_take hmem)
      · rw [firstPiece_copy hnone] at ih ⊢
        rw [List.mem_cons, not_or] at htext
        exact ⟨fun hmem => htext.1 (List.mem_singleton.mp hmem), ih htext.2⟩

/-- Above the limit the function does nothing. -/
lemma replaceDictInBuf_of_large (dict : Dict) {text : CStr} (htext : (0 : Byte) ∉ text)
    (rest : List Byte) (maxlen : ℕ)
    (hlimit : maxReplaceBufferSize ≤ text.length + maxDictionaryValSize * dict.idx) :
    replaceDictInBuf dict (text ++ 0 :: rest) maxlen = .done (-1, text ++ 0 :: rest) := by
  by_cases hlong : maxReplaceBufferSize ≤ text.length
  · have hlen : strnlen (text ++ 0 :: rest) maxReplaceBufferSize = .done maxReplaceBufferSize := by
      rw [strnlen, cstr_append_nul htext, if_pos hlong]
      rfl
    rw [replaceDictInBuf, hlen, Checked.done_bind]
    exact if_pos (Nat.le_add_right _ _)
  · rw [replaceDictInBuf, strnlen_eq htext rest (Nat.not_le.mp hlong), Checked.done_bind]
    exact if_pos hlimit

/-- Taking the length of what is in the work buffer. -/
lemma readStr_workBuffer {size : ℕ} {out : CStr} (hout : (0 : Byte) ∉ out) (h : out.length ≤ size) :
    (readStr (workBuffer size out)).EndsIff (out.length < size) out := by
  constructor
  · intro hlt
    obtain ⟨left, hleft⟩ : ∃ left, size - out.length = left + 1 :=
      Nat.exists_eq_add_one.mpr (Nat.sub_pos_of_lt hlt)
    rw [workBuffer, hleft, List.replicate_succ]
    exact readStr_append_nul hout _
  · intro hge
    have hfull : size - out.length = 0 := by omega
    rw [workBuffer, hfull, List.replicate_zero, List.append_nil]
    exact readStr_eq_fault hout

/-- **The function** is done if what is written and a NUL fit the work buffer.  Then it copies what
is written if the buffer can hold it. -/
theorem replaceDictInBuf_endsIff (dict : Dict) (hval : ∀ t ∈ dict.tuple, (0 : Byte) ∉ t.val)
    {text : CStr} (htext : (0 : Byte) ∉ text) (rest : List Byte) {maxlen : ℕ}
    (hbuffer : maxlen ≤ (text ++ 0 :: rest).length)
    (hlimit : text.length + maxDictionaryValSize * dict.idx < maxReplaceBufferSize) :
    (replaceDictInBuf dict (text ++ 0 :: rest) maxlen).EndsIff
      ((replacedText dict text).length < text.length + maxDictionaryValSize * dict.idx)
      (if (replacedText dict text).length < maxlen then
        (0, cblock (replacedText dict text) ++
          (text ++ 0 :: rest).drop ((replacedText dict text).length + 1))
      else (-1, text ++ 0 :: rest)) := by
  have hlen := strnlen_eq htext rest (show text.length < maxReplaceBufferSize from
    (Nat.le_add_right _ _).trans_lt hlimit)
  have hnul := nul_notMem_replacedText hval htext
  generalize hsize : text.length + maxDictionaryValSize * dict.idx = size at hlimit ⊢
  have hloop := replaceLoop_endsIff dict size rest text (text.length + 1) [] [] 0 htext
    (Nat.zero_le _) (by omega) (Nat.lt_succ_self _)
  rw [List.nil_append, List.nil_append, List.length_nil, Nat.zero_add] at hloop
  rw [replaceDictInBuf, hlen, Checked.done_bind]
  simp only [hsize]
  rw [if_neg (Nat.not_le.mpr hlimit)]
  refine (hloop.bind fun hroom => (readStr_workBuffer hnul hroom).bind (Q := True) fun _ => ?_).congr
    ⟨fun h => h.2.1, fun h => ⟨h.le, h, trivial⟩⟩
  by_cases hmax : (replacedText dict text).length < maxlen
  · have hcopy : xstrlcpy (replacedText dict text) maxlen = replacedText dict text :=
      List.take_of_length_le (by omega)
    have hroom : (cblock (replacedText dict text)).length ≤ (text ++ 0 :: rest).length := by
      rw [length_cblock]
      omega
    have hstore := storeBytes_start hroom
    rw [length_cblock] at hstore
    rw [if_pos hmax, if_pos hmax, hcopy, hstore]
    exact Checked.EndsIff.of_done trivial
  · rw [if_neg hmax, if_neg hmax]
    exact Checked.EndsIff.of_done trivial

end G7
