import G7Ctrl.Core.Bytes

/-!
# Splitting a string into fields (`xstrsplitfields`)

Every parser of device data rests on `xstrsplitfields`, which copies the fields of a delimited
string into an array of `MAX_SPLIT_FIELDS` buffers of `MAX_FIELD_SIZE` bytes.  It fails, rather
than truncates, when the string is empty or has 1024 characters or more, when a field fills its
buffer, and when the array is full.

What it computes when it succeeds is the ordinary splitting `List.splitOn`
(**`xstrsplitfields_some`**), and it does succeed on every string within its limits
(**`xstrsplitfields_eq_some`**).  The callers' proofs use these two facts and never the loop.
-/

namespace G7

/-- `MAX_SPLIT_FIELDS` -/
def maxSplitFields : ℕ := 64

/-- `MAX_FIELD_SIZE` -/
def maxFieldSize : ℕ := 256

/-- The two nested loops of `xstrsplitfields`, read as one pass over the remaining characters.
`flen` is the room left in the current field, `cur` what has been copied to it and `flds` the
fields already closed.  A delimiter that ends the string has the empty field after it added by
hand, since the outer loop has no character left to run on. -/
def xstrsplitLoop (delim : Byte) : ℕ → CStr → List CStr → CStr → Option (List CStr)
  | flen, cur, flds, [] =>
      if flen = 0 then none
      else if flds.length + 1 ≥ maxSplitFields then none
      else some (flds ++ [cur])
  | flen, cur, flds, c :: cs =>
      if flen = 0 then none
      else if c = delim then
        if flds.length + 1 ≥ maxSplitFields then none
        else if cs = [] then some (flds ++ [cur, []])
        else xstrsplitLoop delim maxFieldSize [] (flds ++ [cur]) cs
      else xstrsplitLoop delim (flen - 1) (cur ++ [c]) flds cs

/-- `xstrsplitfields`: the fields, or `none` for the return value -1. -/
def xstrsplitfields (buffer : CStr) (delim : Byte) : Option (List CStr) :=
  if buffer.length ≥ 1024 ∨ buffer.length = 0 then none
  else xstrsplitLoop delim maxFieldSize [] [] buffer

/-- Nothing copied yet: the first field stays as it is. -/
lemma modifyHead_nil_append (l : List CStr) : l.modifyHead (([] : CStr) ++ ·) = l := by
  cases l <;> simp

/-- The loop's result in terms of `List.splitOn`: the characters already in the current field are
put before the first of the remaining fields. -/
lemma xstrsplitLoop_some {delim : Byte} :
    ∀ {s : CStr} {flen : ℕ} {cur : CStr} {flds fs : List CStr},
      xstrsplitLoop delim flen cur flds s = some fs →
        fs = flds ++ (s.splitOn delim).modifyHead (cur ++ ·)
  | [], flen, cur, flds, fs, h => by
      simp only [xstrsplitLoop] at h
      split_ifs at h
      simpa [List.splitOn_nil] using h.symm
  | c :: cs, flen, cur, flds, fs, h => by
      simp only [xstrsplitLoop] at h
      rw [List.splitOn_cons_eq_if_modifyHead]
      split_ifs at h with h0 hc hfull hcs
      · subst hc hcs
        simpa [List.splitOn_nil] using h.symm
      · subst hc
        have ih := xstrsplitLoop_some h
        rw [modifyHead_nil_append] at ih
        simpa [List.append_assoc] using ih
      · have ih := xstrsplitLoop_some h
        rw [if_neg (by simpa using hc), List.modifyHead_modifyHead]
        simpa [Function.comp_def, List.append_assoc] using ih

/-- The loop succeeds when every field fits its buffer and the array is never full. -/
lemma xstrsplitLoop_eq_some {delim : Byte} :
    ∀ {s : CStr} {flen : ℕ} {cur : CStr} {flds : List CStr},
      flen + cur.length = maxFieldSize →
      (∀ f ∈ (s.splitOn delim).modifyHead (cur ++ ·), f.length < maxFieldSize) →
      flds.length + (s.splitOn delim).length < maxSplitFields →
        xstrsplitLoop delim flen cur flds s
          = some (flds ++ (s.splitOn delim).modifyHead (cur ++ ·))
  | [], flen, cur, flds, hlen, hfld, hnum => by
      simp only [List.splitOn_nil, List.modifyHead_cons, List.append_nil, List.mem_singleton,
        forall_eq, List.length_singleton] at hfld hnum
      simp only [xstrsplitLoop, List.splitOn_nil, List.modifyHead_cons, List.append_nil]
      rw [if_neg (by omega), if_neg (by omega)]
  | c :: cs, flen, cur, flds, hlen, hfld, hnum => by
      rw [List.splitOn_cons_eq_if_modifyHead] at hfld hnum ⊢
      by_cases hc : c = delim
      · subst hc
        simp only [BEq.rfl, if_true, List.modifyHead_cons, List.append_nil, List.mem_cons,
          forall_eq_or_imp, List.length_cons] at hfld hnum ⊢
        have hpos : 0 < (cs.splitOn c).length := List.length_pos_iff.mpr (List.splitOn_ne_nil _ _)
        simp only [xstrsplitLoop, if_true]
        rw [if_neg (by omega), if_neg (by omega)]
        by_cases hcs : cs = []
        · subst hcs
          simp [List.splitOn_nil]
        · rw [if_neg hcs, xstrsplitLoop_eq_some (by simp)
            (by rw [modifyHead_nil_append]; exact hfld.2) (by simp; omega), modifyHead_nil_append]
          simp
      · simp only [beq_iff_eq, hc, if_false, List.modifyHead_modifyHead, List.length_modifyHead]
          at hfld hnum ⊢
        have hcur : cur.length + 1 < maxFieldSize := by
          obtain ⟨f, fs, hf⟩ := List.exists_cons_of_ne_nil (List.splitOn_ne_nil delim cs)
          rw [hf] at hfld
          have := hfld (cur ++ c :: f) (by simp [Function.comp_def])
          simp only [List.length_append, List.length_cons] at this
          omega
        simp only [xstrsplitLoop, if_neg hc]
        rw [if_neg (by omega), xstrsplitLoop_eq_some (by simp; omega) ?_ (by simpa using hnum)]
        · simp [Function.comp_def, List.append_assoc]
        · simpa [Function.comp_def, List.append_assoc] using hfld

/-- **What `xstrsplitfields` returns** is the splitting of the string at the delimiter. -/
theorem xstrsplitfields_some {s : CStr} {delim : Byte} {fs : List CStr}
    (h : xstrsplitfields s delim = some fs) : fs = s.splitOn delim := by
  simp only [xstrsplitfields] at h
  split_ifs at h
  have hfs := xstrsplitLoop_some h
  rwa [modifyHead_nil_append] at hfs

/-- **When `xstrsplitfields` succeeds.**  (A string of 64 fields is also accepted when its last
field is empty; no caller depends on that.) -/
theorem xstrsplitfields_eq_some {s : CStr} {delim : Byte} (hpos : s ≠ []) (hlen : s.length < 1024)
    (hfld : ∀ f ∈ s.splitOn delim, f.length < maxFieldSize)
    (hnum : (s.splitOn delim).length < maxSplitFields) :
    xstrsplitfields s delim = some (s.splitOn delim) := by
  have h0 : s.length ≠ 0 := fun h => hpos (List.eq_nil_of_length_eq_zero h)
  rw [xstrsplitfields, if_neg (by omega), xstrsplitLoop_eq_some (by simp)
    (by rw [modifyHead_nil_append]; exact hfld) (by simpa using hnum), modifyHead_nil_append,
    List.nil_append]

/-- A field that was returned lies inside its buffer. -/
lemma xstrsplitLoop_length {delim : Byte} :
    ∀ {s : CStr} {flen : ℕ} {cur : CStr} {flds fs : List CStr},
      flen + cur.length = maxFieldSize → (∀ f ∈ flds, f.length < maxFieldSize) →
      xstrsplitLoop delim flen cur flds s = some fs → ∀ f ∈ fs, f.length < maxFieldSize
  | [], flen, cur, flds, fs, hlen, hflds, h => by
      simp only [xstrsplitLoop] at h
      split_ifs at h with h0
      simp only [Option.some.injEq] at h
      subst h
      intro f hf
      rcases List.mem_append.mp hf with hf | hf
      · exact hflds f hf
      · rw [List.mem_singleton.mp hf]
        omega
  | c :: cs, flen, cur, flds, fs, hlen, hflds, h => by
      simp only [xstrsplitLoop] at h
      have hcur : flen ≠ 0 → ∀ f ∈ flds ++ [cur], f.length < maxFieldSize := by
        intro h0 f hf
        rcases List.mem_append.mp hf with hf | hf
        · exact hflds f hf
        · rw [List.mem_singleton.mp hf]
          omega
      split_ifs at h with h0 hc hfull hcs
      · simp only [Option.some.injEq] at h
        subst h
        intro f hf
        rw [show flds ++ [cur, []] = (flds ++ [cur]) ++ [[]] by simp] at hf
        rcases List.mem_append.mp hf with hf | hf
        · exact hcur h0 f hf
        · rw [List.mem_singleton.mp hf]
          simp [maxFieldSize]
      · exact xstrsplitLoop_length (by simp) (hcur h0) h
      · exact xstrsplitLoop_length (by simp; omega) hflds h

/-- **Every returned field has at most 255 characters.** -/
theorem xstrsplitfields_length {s : CStr} {delim : Byte} {fs : List CStr}
    (h : xstrsplitfields s delim = some fs) : ∀ f ∈ fs, f.length < maxFieldSize := by
  simp only [xstrsplitfields] at h
  split_ifs at h
  exact xstrsplitLoop_length (by simp) (by simp) h

/-- Text without the delimiter goes to the last field. -/
theorem splitOn_append (delim : Byte) {t : CStr} (ht : delim ∉ t) : ∀ s : CStr,
    ∃ (flds : List CStr) (last : CStr),
      s.splitOn delim = flds ++ [last] ∧ (s ++ t).splitOn delim = flds ++ [last ++ t]
  | [] => ⟨[], [], by simp [List.splitOn_nil], by simp [List.splitOn_eq_singleton ht]⟩
  | c :: cs => by
      obtain ⟨flds, last, hs, hst⟩ := splitOn_append delim ht cs
      rw [List.cons_append, List.splitOn_cons_eq_if_modifyHead, List.splitOn_cons_eq_if_modifyHead,
        hs, hst]
      by_cases hc : c = delim
      · exact ⟨[] :: flds, last, by simp [hc], by simp [hc]⟩
      · cases flds with
        | nil => exact ⟨[], c :: last, by simp [hc], by simp [hc]⟩
        | cons f fs => exact ⟨(c :: f) :: fs, last, by simp [hc], by simp [hc]⟩

/-- A character that is not the delimiter goes to the first field. -/
lemma splitOn_cons_of_ne {delim c : Byte} (hc : c ≠ delim) (s : CStr) :
    (c :: s).splitOn delim = (s.splitOn delim).modifyHead (c :: ·) := by
  rw [List.splitOn_cons_eq_if_modifyHead, if_neg (by simpa using hc)]

/-- The first field goes up to the first delimiter. -/
lemma head?_splitOn (delim : Byte) : ∀ s : CStr,
    (s.splitOn delim).head? = some (s.takeWhile (· ≠ delim))
  | [] => by simp [List.splitOn_nil]
  | c :: cs => by
      rw [List.splitOn_cons_eq_if_modifyHead]
      by_cases hc : c = delim
      · simp [hc]
      · obtain ⟨f, fs, hs⟩ := List.exists_cons_of_ne_nil (List.splitOn_ne_nil delim cs)
        have ih := head?_splitOn delim cs
        rw [hs, List.head?_cons, Option.some.injEq] at ih
        simp [hc, hs, ih]

/-- What a joined text is made of. -/
lemma mem_of_mem_intercalate {sep : CStr} {c : Byte} : ∀ {ls : List CStr},
    c ∈ sep.intercalate ls → c ∈ sep ∨ ∃ l ∈ ls, c ∈ l
  | [], h => by simp at h
  | [l], h => Or.inr ⟨l, by simp, by simpa using h⟩
  | l :: l' :: ls, h => by
      rw [List.intercalate_cons_cons] at h
      simp only [List.mem_append] at h
      rcases h with (h | h) | h
      · exact Or.inr ⟨l, List.mem_cons_self, h⟩
      · exact Or.inl h
      · refine (mem_of_mem_intercalate h).imp_right ?_
        rintro ⟨k, hk, hc⟩
        exact ⟨k, List.mem_cons_of_mem _ hk, hc⟩

/-- There is one field more than delimiters. -/
lemma splitOn_length (delim : Byte) : ∀ s : CStr,
    (s.splitOn delim).length = s.count delim + 1
  | [] => by simp [List.splitOn_nil]
  | c :: cs => by
      have ih := splitOn_length delim cs
      rw [List.splitOn_cons_eq_if_modifyHead, List.count_cons]
      split_ifs with hc <;> simp [ih]

/-- No field contains the delimiter. -/
lemma notMem_of_mem_splitOn {delim : Byte} : ∀ {s f : CStr}, f ∈ s.splitOn delim → delim ∉ f
  | [], f, hf => by
      rw [List.splitOn_nil, List.mem_singleton] at hf
      simp [hf]
  | c :: cs, f, hf => by
      rw [List.splitOn_cons_eq_if_modifyHead] at hf
      split_ifs at hf with hc
      · rcases List.mem_cons.mp hf with rfl | hf
        · simp
        · exact notMem_of_mem_splitOn hf
      · obtain ⟨g, gs, hs⟩ := List.exists_cons_of_ne_nil (List.splitOn_ne_nil delim cs)
        rw [hs, List.modifyHead_cons] at hf
        rcases List.mem_cons.mp hf with rfl | hf
        · have hg : delim ∉ g := notMem_of_mem_splitOn (s := cs) (by simp [hs])
          simpa [hg] using fun h => hc (by simp [h])
        · exact notMem_of_mem_splitOn (s := cs) (by simp [hs, hf])

/-- Text added at the end makes no field shorter. -/
lemma length_lt_of_append {delim : Byte} {s t : CStr} (ht : delim ∉ t) {n : ℕ}
    (h : ∀ f ∈ (s ++ t).splitOn delim, f.length < n) : ∀ f ∈ s.splitOn delim, f.length < n := by
  obtain ⟨flds, last, hs, hst⟩ := splitOn_append delim ht s
  rw [hst] at h
  rw [hs]
  intro f hf
  rcases List.mem_append.mp hf with hf | hf
  · exact h f (List.mem_append_left _ hf)
  · have hlast := h (last ++ t) (List.mem_append_right _ (List.mem_singleton_self _))
    rw [List.length_append] at hlast
    rw [List.mem_singleton.mp hf]
    omega

/-- Nor does a character added in front. -/
lemma length_lt_of_cons {delim c : Byte} (hc : c ≠ delim) {s : CStr} {n : ℕ}
    (h : ∀ f ∈ (c :: s).splitOn delim, f.length < n) : ∀ f ∈ s.splitOn delim, f.length < n := by
  rw [splitOn_cons_of_ne hc] at h
  obtain ⟨f, fs, hs⟩ := List.exists_cons_of_ne_nil (List.splitOn_ne_nil delim s)
  rw [hs, List.modifyHead_cons] at h
  rw [hs]
  intro g hg
  rcases List.mem_cons.mp hg with rfl | hg
  · have := h _ (List.mem_cons_self ..)
    rw [List.length_cons] at this
    omega
  · exact h g (List.mem_cons_of_mem _ hg)

end G7
