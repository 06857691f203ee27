import G7Ctrl.Template.Pieces

/-!
# The estimate of the work buffer

The work buffer of `replace_dict_in_buf` has the size of the template and 1024 bytes for every key of
the dictionary, although a key may occur more than once, or not at all.

* `ReplacesSafely` — the function stays inside the work buffer, which has a NUL when its length is
  taken, and it leaves the caller's buffer alone if it fails.
* **`replacesSafely_iff`** — it does if the values that are put are shorter than the keys they
  replace and these 1024 bytes together, and if the template is too large.
* **`valuesFit_of_occurrences_le`** — so it does if no more keys occur than the dictionary has.
* **`not_valuesFit_of_empty`** — but never for a dictionary without keys.
-/

namespace G7

/-- The function stays inside its blocks, and leaves the buffer alone if it fails. -/
def ReplacesSafely (dict : Dict) (buffer : List Byte) (maxlen : ℕ) : Prop :=
  ∃ r buffer', replaceDictInBuf dict buffer maxlen = .done (r, buffer') ∧ (r = -1 → buffer' = buffer)

/-- The key in brackets, if a piece is one, with the value that is put for it. -/
def Piece.occurrence : Piece → Option (CStr × CStr)
  | .copied _ => none
  | .replaced key val => some (key, val)

/-- The keys of the dictionary in a text, each as it stands there, with the value that is put. -/
def occurrences (dict : Dict) (text : CStr) : List (CStr × CStr) :=
  (pieces dict text).filterMap Piece.occurrence

/-- The values that are put are together shorter than the keys with their brackets and 1024 bytes
for every key of the dictionary. -/
def ValuesFit (dict : Dict) (text : CStr) : Prop :=
  ((occurrences dict text).map fun o => o.2.length).sum <
    ((occurrences dict text).map fun o => o.1.length + 2).sum + maxDictionaryValSize * dict.idx

/-- What the pieces add to a text is what the values add to the keys. -/
lemma length_flatMap_written (ps : List Piece) :
    (ps.flatMap Piece.written).length +
        ((ps.filterMap Piece.occurrence).map fun o => o.1.length + 2).sum =
      (ps.flatMap Piece.source).length +
        ((ps.filterMap Piece.occurrence).map fun o => o.2.length).sum := by
  induction ps with
  | nil => rfl
  | cons p ps ih =>
      rw [List.flatMap_cons, List.flatMap_cons, List.length_append, List.length_append]
      cases p with
      | copied c =>
          rw [List.filterMap_cons_none rfl, Piece.written, Piece.source]
          omega
      | replaced key val =>
          have hsource : (Piece.replaced key val).source.length = key.length + 2 := by
            simp [Piece.source]
          have hkey : (Piece.replaced key val).occurrence = some (key, val) := rfl
          rw [List.filterMap_cons_some hkey, List.map_cons, List.map_cons, List.sum_cons,
            List.sum_cons, Piece.written, hsource]
          simp only at ih ⊢
          omega

/-- The condition is that what is written and a NUL fit the work buffer. -/
lemma valuesFit_iff {dict : Dict} {text : CStr} :
    ValuesFit dict text ↔
      (replacedText dict text).length < text.length + maxDictionaryValSize * dict.idx := by
  have hlen := length_flatMap_written (pieces dict text)
  rw [flatMap_source] at hlen
  rw [ValuesFit, replacedText, occurrences]
  omega

/-- **Exactly when the function is safe.**  The template is too large to be looked at, or the values
fit the estimate. -/
theorem replacesSafely_iff (dict : Dict) (hval : ∀ t ∈ dict.tuple, (0 : Byte) ∉ t.val) (text : CStr)
    (htext : (0 : Byte) ∉ text) (rest : List Byte) (maxlen : ℕ)
    (hbuffer : maxlen ≤ (text ++ 0 :: rest).length) :
    ReplacesSafely dict (text ++ 0 :: rest) maxlen ↔
      maxReplaceBufferSize ≤ text.length + maxDictionaryValSize * dict.idx ∨ ValuesFit dict text := by
  rw [valuesFit_iff]
  by_cases hlimit : maxReplaceBufferSize ≤ text.length + maxDictionaryValSize * dict.idx
  · refine iff_of_true ⟨-1, _, replaceDictInBuf_of_large dict htext rest maxlen hlimit, ?_⟩
      (Or.inl hlimit)
    intro _
    rfl
  · rw [or_iff_right hlimit]
    have hrun := replaceDictInBuf_endsIff dict hval htext rest hbuffer (Nat.not_le.mp hlimit)
    constructor
    · rintro ⟨r, buffer', hdone, -⟩
      by_contra hlong
      exact nomatch hdone.symm.trans (hrun.fault hlong)
    · intro hfit
      have hdone := hrun.done hfit
      by_cases hmax : (replacedText dict text).length < maxlen
      · rw [if_pos hmax] at hdone
        exact ⟨_, _, hdone, fun h => absurd h (by decide)⟩
      · rw [if_neg hmax] at hdone
        exact ⟨_, _, hdone, fun _ => rfl⟩

/-- A key in brackets, replaced by its value. -/
theorem replacesSafely_iff_nick :
    let dict := (addDict newDict (str "NICK") (str "Volvo")).2
    (ReplacesSafely dict (str "[nick]" ++ 0 :: []) 7 ↔
      maxReplaceBufferSize ≤ 6 + maxDictionaryValSize * dict.idx ∨ ValuesFit dict (str "[nick]")) ∧
    ReplacesSafely dict (str "[nick]" ++ 0 :: []) 7 := by
  intro dict
  refine ⟨replacesSafely_iff dict (by decide) (str "[nick]") (by decide) [] 7 (by decide), ?_⟩
  exact ⟨0, str "Volvo" ++ [0, 0], by decide +kernel, fun h => absurd h (by decide)⟩

/-- Without keys the work buffer has no place for the NUL, and a value of 1024 bytes that is put
twice does not fit the estimate for one. -/
theorem twice_overruns :
    ¬ ReplacesSafely newDict (str "x" ++ 0 :: []) 2 ∧
    ¬ ReplacesSafely (addDict newDict (str "k") (List.replicate 1024 (ch 'v'))).2
      (str "[k][k]" ++ 0 :: []) 7 := by
  constructor
  · rintro ⟨r, buffer', hdone, -⟩
    have hfault : replaceDictInBuf newDict (str "x" ++ 0 :: []) 2 = .fault := by decide
    exact nomatch hdone.symm.trans hfault
  · rintro ⟨r, buffer', hdone, -⟩
    have hfault : replaceDictInBuf (addDict newDict (str "k") (List.replicate 1024 (ch 'v'))).2
        (str "[k][k]" ++ 0 :: []) 7 = .fault := by decide +kernel
    exact nomatch hdone.symm.trans hfault

/-- A value has at most 1024 bytes in the text. -/
lemma length_le_of_occurrence {dict : Dict} {text : CStr} {o : CStr × CStr}
    (ho : o ∈ occurrences dict text) : o.2.length ≤ maxDictionaryValSize := by
  induction text using pieces.induct dict with
  | case1 =>
      rw [occurrences, pieces_nil] at ho
      exact absurd ho List.not_mem_nil
  | case2 c text ih =>
      rw [occurrences, pieces_cons] at ho
      rcases firstPiece_cases dict c text with ⟨key, val, rest, rfl, hkey⟩ | hnone
      · have hocc : (Piece.replaced key val).occurrence = some (key, val) := rfl
        rw [firstPiece_key hkey] at ih ho
        rw [List.filterMap_cons_some hocc] at ho
        rcases List.mem_cons.mp ho with rfl | ho
        · obtain ⟨t, -, rfl⟩ := Option.map_eq_some_iff.mp (keyAt_eq_some_iff.mp hkey).2
          exact List.length_take_le _ _
        · exact ih ho
      · rw [firstPiece_copy hnone] at ih ho
        rw [List.filterMap_cons_none rfl] at ho
        exact ih ho

/-- Values of at most 1024 bytes for no more keys than there are. -/
lemma sum_le_of_length_le (os : List (CStr × CStr))
    (h : ∀ o ∈ os, o.2.length ≤ maxDictionaryValSize) :
    (os.map fun o => o.2.length).sum ≤ maxDictionaryValSize * os.length ∧
      os.length ≤ (os.map fun o => o.1.length + 2).sum := by
  induction os with
  | nil => exact ⟨Nat.zero_le _, Nat.zero_le _⟩
  | cons o os ih =>
      have hhead := h o List.mem_cons_self
      have htail := ih fun o' ho' => h o' (List.mem_cons_of_mem _ ho')
      rw [List.map_cons, List.map_cons, List.sum_cons, List.sum_cons, List.length_cons,
        Nat.mul_succ]
      omega

/-- **A template with no more keys than the dictionary has** is safe. -/
theorem valuesFit_of_occurrences_le {dict : Dict} (hdict : 0 < dict.idx) {text : CStr}
    (h : (occurrences dict text).length ≤ dict.idx) : ValuesFit dict text := by
  obtain ⟨hvals, hkeys⟩ := sum_le_of_length_le (occurrences dict text)
    fun o ho => length_le_of_occurrence ho
  rw [maxDictionaryValSize] at hvals
  rw [ValuesFit, maxDictionaryValSize]
  omega

/-- No key occurs if there is none. -/
lemma occurrences_empty (maxsize : ℕ) (text : CStr) : occurrences ⟨[], maxsize⟩ text = [] := by
  induction text using pieces.induct ⟨[], maxsize⟩ with
  | case1 => rw [occurrences, pieces_nil, List.filterMap_nil]
  | case2 c text ih =>
      have hnone : keyAt ⟨[], maxsize⟩ text = none := by
        rw [keyAt]
        cases keyBefore text with
        | none => rfl
        | some found => rfl
      rw [firstPiece_copy fun _ => hnone] at ih
      rw [occurrences, pieces_cons, firstPiece_copy fun _ => hnone, List.filterMap_cons_none rfl]
      exact ih

/-- **A dictionary without keys** is not safe for any template that is looked at. -/
theorem not_valuesFit_of_empty (maxsize : ℕ) (text : CStr) : ¬ ValuesFit ⟨[], maxsize⟩ text := by
  rw [ValuesFit, occurrences_empty]
  exact Nat.lt_irrefl _

end G7
