import G7Ctrl.Geocache.CacheRing
import G7Ctrl.Xstr.Split
import G7Ctrl.Xstr.Trim

/-!
# The address cache file (`write_address_geocache`, `read_address_geocache`)

The cache is saved as one line for each entry, its fields separated by `;` with nothing escaped.
The writer goes up to the highest index a lookup has hit.  The reader takes pieces of at most 254
characters, one slot of the cache each, and leaves the last slot alone; a piece with another number
of fields than four leaves its slot empty, and one with a coordinate that is out of range or an
address that is too short ends the reading with an error.

* `writeAddressGeocache`, `readAddressGeocache` — the text of the file, and the cache from a text.
* `Restorable` — what a record must satisfy to come back from its line.
* **`restorable_of_cacheLine`** — nothing else is ever read, whatever the file contains.
* **`readCacheLoop_restorable`** — what is read of a file of such records.
-/

namespace G7

variable {D : Type*}

/-- The time of an entry, and its texts. -/
abbrev AddressRecord := ℤ × AddressTriple

/-- What is saved of an entry. -/
def AddressEntry.record (e : AddressEntry D) : AddressRecord := (e.ts, e.triple)

/-- The record of an entry, without its line feed: `"%ld;%s;%s;%s"`. -/
def recordText (r : AddressRecord) : CStr :=
  [ch ';'].intercalate [decInt r.1, r.2.1, r.2.2.1, r.2.2.2]

/-- The records the loop of `write_address_geocache` gets to. -/
def savedRecords (c : AddressCache D) : List AddressRecord :=
  ((((List.range (c.stat.maxIdx + 1)).map c.entries).takeWhile Option.isSome).filterMap id).map
    AddressEntry.record

/-- The lines of some records. -/
def fileText (rs : List AddressRecord) : CStr := rs.flatMap fun r => recordText r ++ [lf]

/-- `write_address_geocache`: the contents of the file. -/
def writeAddressGeocache (c : AddressCache D) : CStr := fileText (savedRecords c)

/-- `fgets` with room for `n` characters: what it reads, and what is left. -/
def fgets : ℕ → CStr → CStr × CStr
  | 0, text => ([], text)
  | _ + 1, [] => ([], [])
  | n + 1, c :: cs => if c = lf then ([c], cs) else ((fgets n cs).map (c :: ·) id)

/-- What a piece of the file is to the reader. -/
inductive CacheLine (D : Type*) where
  /-- It has not four fields. -/
  | other
  /-- It is not valid. -/
  | invalid
  | entry (e : AddressEntry D)

/-- The body of the loop of `read_address_geocache` up to the index.  (On a piece that
`xstrsplitfields` refuses `nf` is not 4 either.) -/
def cacheLine (F : Doubles D) (lbuff : CStr) : CacheLine D :=
  match xstrsplitfields (xstrtrimCrnl lbuff) (ch ';') with
  | some [ts, lat, lon, addr] =>
      if F.outOfRange (F.xatof lat) || F.outOfRange (F.xatof lon) || addr.length < 5 then .invalid
      else .entry
        { lat := lat, lon := lon, dLat := F.xatof lat, dLon := F.xatof lon, addr := addr
          ts := xatol ts }
  | _ => .other

/-- What `read_address_geocache` does after its loop. -/
def AddressCache.readDone (c : AddressCache D) : AddressCache D :=
  { c with num := c.idx, stat := { c.stat with maxIdx := c.idx } }

/-- The loop of `read_address_geocache` with `n` slots left. -/
def readCacheLoop (F : Doubles D) : ℕ → CStr → AddressCache D → ℤ × AddressCache D
  | 0, _, c => (0, c.readDone)
  | _ + 1, [], c => (0, c.readDone)
  | n + 1, b :: bs, c =>
      match cacheLine F (fgets 254 (b :: bs)).1 with
      | .invalid => (-1, { c with idx := 0 })
      | .other => readCacheLoop F n (fgets 254 (b :: bs)).2 { c with idx := c.idx + 1 }
      | .entry e => readCacheLoop F n (fgets 254 (b :: bs)).2
          { c with entries := Function.update c.entries c.idx (some e), idx := c.idx + 1 }

/-- `read_address_geocache` in a fresh process. -/
def readAddressGeocache (F : Doubles D) (size : ℕ) (text : CStr) : ℤ × AddressCache D :=
  readCacheLoop F (size - 1) text {}

/-- Four fields with separators between them. -/
lemma intercalate_four (sep : Byte) (s t u v : CStr) :
    [sep].intercalate [s, t, u, v] = s ++ sep :: (t ++ sep :: (u ++ sep :: v)) := by
  simp [List.intercalate, List.intersperse]

lemma recordText_length (r : AddressRecord) : (recordText r).length
    = (decInt r.1).length + r.2.1.length + r.2.2.1.length + r.2.2.2.length + 3 := by
  rw [recordText, intercalate_four]
  simp only [List.length_append, List.length_cons]
  omega

/-! ## What can be read -/

/-- A record that comes back from its line. -/
structure Restorable (F : Doubles D) (r : AddressRecord) : Prop where
  /-- No text contains a separator or a line feed. -/
  clean : ∀ t ∈ [r.2.1, r.2.2.1, r.2.2.2], ch ';' ∉ t ∧ lf ∉ t
  /-- The address does not end with a space or a carriage return. -/
  trimmed : ∀ c ∈ r.2.2.2.getLast?, isCrnl c = false
  /-- Its coordinates are accepted. -/
  coords : F.outOfRange (F.xatof r.2.1) = false ∧ F.outOfRange (F.xatof r.2.2.1) = false
  long : 5 ≤ r.2.2.2.length
  /-- Its line fits the buffer. -/
  fits : (recordText r).length ≤ 254

/-- `fgets` returns at most as many characters as there is room for, and a line feed only at the
end. -/
lemma fgets_spec : ∀ (n : ℕ) (text : CStr),
    (fgets n text).1.length ≤ n ∧
      ∃ body, lf ∉ body ∧ ((fgets n text).1 = body ∨ (fgets n text).1 = body ++ [lf])
  | 0, text => ⟨Nat.le_refl 0, [], by simp, Or.inl rfl⟩
  | n + 1, [] => ⟨Nat.zero_le _, [], by simp, Or.inl rfl⟩
  | n + 1, c :: cs => by
      obtain ⟨hlen, body, hbody, hread⟩ := fgets_spec n cs
      rw [fgets]
      split_ifs with hc
      · exact ⟨by simp, [], by simp, Or.inr (by simp [hc])⟩
      · refine ⟨by simpa using hlen, c :: body, by simp [hbody, Ne.symm hc], ?_⟩
        simpa using hread

/-- `fgets` reads a line that fits to its end. -/
lemma fgets_line : ∀ {n : ℕ} {line : CStr}, lf ∉ line → line.length < n → ∀ rest : CStr,
    fgets n (line ++ lf :: rest) = (line ++ [lf], rest)
  | 0, line, _, hn, _ => absurd hn (by omega)
  | n + 1, [], _, _, rest => by simp [fgets]
  | n + 1, c :: cs, hline, hn, rest => by
      rw [List.mem_cons, not_or] at hline
      have ih := fgets_line hline.2 (by simpa using hn) rest
      rw [List.cons_append, fgets, if_neg (Ne.symm hline.1), ih]
      rfl

/-- Of a line that fills the buffer it leaves the line feed. -/
lemma fgets_full : ∀ {line : CStr}, lf ∉ line → ∀ rest : CStr,
    fgets line.length (line ++ rest) = (line, rest)
  | [], _, rest => rfl
  | c :: cs, hline, rest => by
      rw [List.mem_cons, not_or] at hline
      have ih := fgets_full hline.2 rest
      rw [List.cons_append, List.length_cons, fgets, if_neg (Ne.symm hline.1), ih]
      rfl

/-- The line feed at the end of a piece is dropped. -/
lemma lf_notMem_xstrtrimCrnl (n : ℕ) (text : CStr) : lf ∉ xstrtrimCrnl (fgets n text).1 := by
  obtain ⟨-, body, hbody, hread⟩ := fgets_spec n text
  have htrim : xstrtrimCrnl (fgets n text).1 = xstrtrimCrnl body := by
    rcases hread with hread | hread
    · rw [hread]
    · rw [hread]
      exact trimEnds_concat (by decide) body
  rw [htrim]
  exact fun h => hbody ((trimEnds_sublist _ body).subset h)

/-- **Nothing else is ever read**: a piece of any file that gives an entry of a positive time has
the record of that entry as a restorable one. -/
theorem restorable_of_cacheLine {F : Doubles D} {text : CStr} {e : AddressEntry D}
    (h : cacheLine F (fgets 254 text).1 = .entry e) (hts : 0 < e.ts) : Restorable F e.record := by
  obtain ⟨hlen, -⟩ := fgets_spec 254 text
  rw [cacheLine] at h
  split at h
  · rename_i ts lat lon addr hsplit
    split_ifs at h with hvalid
    simp only [CacheLine.entry.injEq] at h
    subst h
    simp only [Bool.or_eq_true, not_or, Bool.not_eq_true, decide_eq_true_eq, not_lt] at hvalid
    have hfields := xstrsplitfields_some hsplit
    have hjoin : [ch ';'].intercalate [ts, lat, lon, addr] = xstrtrimCrnl (fgets 254 text).1 := by
      rw [hfields, List.intercalate_splitOn]
    rw [intercalate_four] at hjoin
    have hclean : ∀ t ∈ [lat, lon, addr], ch ';' ∉ t ∧ lf ∉ t := by
      intro t ht
      have hmem : t ∈ [ts, lat, lon, addr] := List.mem_cons_of_mem _ ht
      refine ⟨notMem_of_mem_splitOn (hfields ▸ hmem), fun hlf => ?_⟩
      apply lf_notMem_xstrtrimCrnl 254 text
      rw [← hjoin]
      simp only [List.mem_cons, List.not_mem_nil, or_false] at ht
      rcases ht with rfl | rfl | rfl <;> simp [hlf]
    have htrimmed : ∀ c ∈ addr.getLast?, isCrnl c = false := by
      intro c hc
      have hlast : c ∈ (xstrtrimCrnl (fgets 254 text).1).getLast? := by
        rw [← hjoin]
        simp [List.getLast?_append, List.getLast?_cons, Option.mem_def.mp hc]
      exact of_mem_getLast_trimEnds hlast
    have hfits : (recordText (xatol ts, lat, lon, addr)).length ≤ 254 := by
      have hpiece := (trimEnds_sublist isCrnl (fgets 254 text).1).length_le
      have htime := decInt_xatol_length_le hts
      rw [← xstrtrimCrnl, ← hjoin] at hpiece
      rw [recordText_length]
      simp only [List.length_append, List.length_cons] at hpiece
      simp only at htime ⊢
      omega
    exact ⟨hclean, htrimmed, hvalid.1, hvalid.2, hfits⟩
  · exact absurd h (by simp)

/-! ## Reading restorable records -/

/-- An entry as the reader makes it of a record. -/
def AddressRecord.restored (F : Doubles D) (r : AddressRecord) : AddressEntry D where
  lat := r.2.1
  lon := r.2.2.1
  dLat := F.xatof r.2.1
  dLon := F.xatof r.2.2.1
  addr := r.2.2.2
  ts := r.1

@[simp] lemma record_restored (F : Doubles D) (r : AddressRecord) :
    (AddressRecord.restored F r).record = r := rfl

lemma recordText_head {r : AddressRecord} (hts : 0 ≤ r.1) :
    ∃ c cs, recordText r = c :: cs ∧ isDigit c = true := by
  obtain ⟨n, hn⟩ := Int.eq_ofNat_of_zero_le hts
  obtain ⟨c, cs, hdec⟩ := List.exists_cons_of_ne_nil (dec_ne_nil n)
  have hprint : decInt r.1 = c :: cs := by rw [hn, ← hdec]; rfl
  have hc : isDigit c = true := isDigit_of_mem_dec n c (by simp [hdec])
  rw [recordText, intercalate_four, hprint]
  exact ⟨c, _, rfl, hc⟩

lemma lf_notMem_recordText {F : Doubles D} {r : AddressRecord} (h : Restorable F r)
    (hts : 0 ≤ r.1) : lf ∉ recordText r := by
  obtain ⟨n, hn⟩ := Int.eq_ofNat_of_zero_le hts
  have hdec : lf ∉ decInt r.1 := by
    rw [hn]
    exact fun hmem => absurd (isDigit_of_mem_dec n _ hmem) (by decide)
  have hclean := h.clean
  simp only [List.forall_mem_cons] at hclean
  have hsep : lf ≠ ch ';' := by decide
  simp [recordText, hdec, hsep, hclean]

/-- A restorable record is its line, trimmed. -/
lemma xstrtrimCrnl_recordText {F : Doubles D} {r : AddressRecord} (h : Restorable F r)
    (hts : 0 ≤ r.1) : xstrtrimCrnl (recordText r) = recordText r := by
  refine trimEnds_eq_self (fun c hc => ?_) fun c hc => h.trimmed c ?_
  · obtain ⟨d, ds, hline, hd⟩ := recordText_head hts
    rw [hline, List.head?_cons, Option.mem_some_iff] at hc
    subst hc
    rintro rfl
    exact absurd hd (by decide)
  · have haddr : r.2.2.2 ≠ [] := by
      intro hnil
      simpa [hnil] using h.long
    have hlast := List.getLast?_eq_some_getLast haddr
    rw [recordText, intercalate_four] at hc
    simpa [List.getLast?_append, List.getLast?_cons, hlast] using hc

/-- The fields of the line of a restorable record. -/
lemma xstrsplitfields_recordText {F : Doubles D} {r : AddressRecord} (h : Restorable F r)
    (hts : 0 ≤ r.1) : xstrsplitfields (recordText r) (ch ';')
      = some [decInt r.1, r.2.1, r.2.2.1, r.2.2.2] := by
  have hlen := recordText_length r
  have hfits := h.fits
  have hdec : ch ';' ∉ decInt r.1 := by
    obtain ⟨n, hn⟩ := Int.eq_ofNat_of_zero_le hts
    rw [hn]
    exact fun hmem => absurd (isDigit_of_mem_dec n _ hmem) (by decide)
  have hsplit : (recordText r).splitOn (ch ';') = [decInt r.1, r.2.1, r.2.2.1, r.2.2.2] := by
    refine List.splitOn_intercalate (ch ';') (fun t ht => ?_) (by simp)
    rcases List.mem_cons.mp ht with rfl | ht
    · exact hdec
    · exact (h.clean t ht).1
  have hne : recordText r ≠ [] := by
    intro hnil
    simp [hnil] at hlen
  rw [xstrsplitfields_eq_some hne (by omega) ?_ (by simp [hsplit, maxSplitFields]), hsplit]
  intro t ht
  rw [hsplit] at ht
  simp only [List.mem_cons, List.not_mem_nil, or_false] at ht
  rw [maxFieldSize]
  rcases ht with rfl | rfl | rfl | rfl <;> omega

/-- **The line of a restorable record gives its entry.** -/
theorem cacheLine_recordText {F : Doubles D} {r : AddressRecord} (h : Restorable F r)
    (hts : 0 ≤ r.1 ∧ r.1 ≤ longMax) {lbuff : CStr}
    (hbuff : lbuff = recordText r ∨ lbuff = recordText r ++ [lf]) :
    cacheLine F lbuff = .entry (AddressRecord.restored F r) := by
  have htrim : xstrtrimCrnl lbuff = recordText r := by
    rcases hbuff with rfl | rfl
    · exact xstrtrimCrnl_recordText h hts.1
    · exact (trimEnds_concat (by decide) _).trans (xstrtrimCrnl_recordText h hts.1)
  have hlong := h.long
  simp only [cacheLine, htrim, xstrsplitfields_recordText h hts.1, h.coords, Bool.or_self,
    Bool.false_or, decide_eq_true_eq, if_neg (Nat.not_lt.mpr hlong), xatol_decInt hts.1 hts.2,
    AddressRecord.restored]

/-- The records of a file that are read with `n` slots left; a line that fills the buffer takes
one slot more for its line feed. -/
def reached : ℕ → List AddressRecord → List AddressRecord
  | _, [] => []
  | 0, _ :: _ => []
  | n + 1, r :: rs => r :: reached (if (recordText r).length < 254 then n else n - 1) rs

/-- What a cache holds.  (Slots from `size` on are never written.) -/
def AddressCache.records (c : AddressCache D) : Set AddressRecord :=
  {r | ∃ i e, c.entries i = some e ∧ e.record = r}

/-- An entry written to an empty slot. -/
lemma records_update {c : AddressCache D} {i : ℕ} (hfree : c.entries i = none)
    (e : AddressEntry D) (j : ℕ) :
    AddressCache.records { c with entries := Function.update c.entries i (some e), idx := j }
      = insert e.record c.records := by
  ext r
  constructor
  · rintro ⟨k, e', he', rfl⟩
    by_cases hk : k = i
    · subst hk
      have heq : e = e' := by simpa using he'
      exact Or.inl (congrArg AddressEntry.record heq.symm)
    · exact Or.inr ⟨k, e', by simpa [hk] using he', rfl⟩
  · rintro (rfl | ⟨k, e', he', rfl⟩)
    · exact ⟨i, e, Function.update_self .., rfl⟩
    · have hk : k ≠ i := by
        rintro rfl
        simp [hfree] at he'
      exact ⟨k, e', by simpa [hk] using he', rfl⟩

/-- A round of the loop that reads an entry. -/
lemma readCacheLoop_entry {F : Doubles D} {text : CStr} (htext : text ≠ []) {e : AddressEntry D}
    (h : cacheLine F (fgets 254 text).1 = .entry e) (n : ℕ) (c : AddressCache D) :
    readCacheLoop F (n + 1) text c = readCacheLoop F n (fgets 254 text).2
      { c with entries := Function.update c.entries c.idx (some e), idx := c.idx + 1 } := by
  cases text with
  | nil => exact absurd rfl htext
  | cons b bs => simp only [readCacheLoop, h]

/-- A round that reads something else. -/
lemma readCacheLoop_other {F : Doubles D} {text : CStr} (htext : text ≠ [])
    (h : cacheLine F (fgets 254 text).1 = .other) (n : ℕ) (c : AddressCache D) :
    readCacheLoop F (n + 1) text c
      = readCacheLoop F n (fgets 254 text).2 { c with idx := c.idx + 1 } := by
  cases text with
  | nil => exact absurd rfl htext
  | cons b bs => simp only [readCacheLoop, h]

/-- The round that ends the reading. -/
lemma readCacheLoop_invalid {F : Doubles D} {text : CStr} (htext : text ≠ [])
    (h : cacheLine F (fgets 254 text).1 = .invalid) (n : ℕ) (c : AddressCache D) :
    readCacheLoop F (n + 1) text c = (-1, { c with idx := 0 }) := by
  cases text with
  | nil => exact absurd rfl htext
  | cons b bs => simp only [readCacheLoop, h]

/-- **What is read of a file of restorable records.** -/
theorem readCacheLoop_restorable {F : Doubles D} : ∀ {rs : List AddressRecord} (n : ℕ)
    {c : AddressCache D}, (∀ r ∈ rs, Restorable F r ∧ 0 ≤ r.1 ∧ r.1 ≤ longMax) →
    (∀ i, c.idx ≤ i → c.entries i = none) →
      (readCacheLoop F n (fileText rs) c).1 = 0 ∧
        (readCacheLoop F n (fileText rs) c).2.records = c.records ∪ {r | r ∈ reached n rs}
  | [], 0, c, _, _ => by simp [readCacheLoop, reached, AddressCache.readDone,
      AddressCache.records]
  | [], n + 1, c, _, _ => by simp [readCacheLoop, reached, AddressCache.readDone, fileText,
      AddressCache.records]
  | r :: rs, 0, c, _, _ => by simp [readCacheLoop, reached, AddressCache.readDone,
      AddressCache.records]
  | r :: rs, n + 1, c, hrs, hfree => by
      obtain ⟨hr, hts⟩ := hrs r (List.mem_cons_self ..)
      have hclean := lf_notMem_recordText hr hts.1
      have hne : recordText r ++ lf :: fileText rs ≠ [] := by simp
      have htext : fileText (r :: rs) = recordText r ++ lf :: fileText rs := by simp [fileText]
      have hset : ∀ m, insert r c.records ∪ {r' | r' ∈ reached m rs}
          = c.records ∪ {r' | r' ∈ r :: reached m rs} := by
        intro m
        ext r'
        simp only [Set.mem_union, Set.mem_insert_iff, Set.mem_ofPred_eq, List.mem_cons]
        tauto
      -- the other lines, with any number of slots left
      have hrest : ∀ m j, c.idx < j →
          (readCacheLoop F m (fileText rs) { c with
            entries := Function.update c.entries c.idx (some (AddressRecord.restored F r))
            idx := j }).1 = 0 ∧
          (readCacheLoop F m (fileText rs) { c with
            entries := Function.update c.entries c.idx (some (AddressRecord.restored F r))
            idx := j }).2.records = c.records ∪ {r' | r' ∈ r :: reached m rs} := by
        intro m j hj
        have hwritten := records_update (hfree _ (Nat.le_refl _)) (AddressRecord.restored F r) j
        rw [record_restored] at hwritten
        rw [← hset, ← hwritten]
        refine readCacheLoop_restorable m (fun r' hr' => hrs r' (List.mem_cons_of_mem _ hr'))
          fun i hi => ?_
        have hi' : j ≤ i := hi
        exact (Function.update_of_ne (by omega) _ _).trans (hfree i (by omega))
      rw [htext, reached]
      rcases Nat.lt_or_ge (recordText r).length 254 with hlt | hge
      · have hread := fgets_line hclean hlt (fileText rs)
        rw [readCacheLoop_entry hne (cacheLine_recordText hr hts (Or.inr (by rw [hread]))), hread,
          if_pos hlt]
        exact hrest n (c.idx + 1) (Nat.lt_succ_self _)
      · have hlen : (recordText r).length = 254 := Nat.le_antisymm hr.fits hge
        have hread := fgets_full hclean (lf :: fileText rs)
        rw [hlen] at hread
        rw [readCacheLoop_entry hne (cacheLine_recordText hr hts (Or.inl (by rw [hread]))), hread,
          if_neg (by omega)]
        cases n with
        | zero =>
            have h0 := hrest 0 (c.idx + 1) (Nat.lt_succ_self _)
            simpa only [readCacheLoop] using h0
        | succ n =>
            have hfeed : fgets 254 (lf :: fileText rs) = ([lf], fileText rs) :=
              fgets_line List.not_mem_nil (by decide) _
            have hother : cacheLine F (fgets 254 (lf :: fileText rs)).1 = .other := by
              rw [hfeed]
              rfl
            rw [readCacheLoop_other (by simp) hother, hfeed]
            exact hrest n (c.idx + 1 + 1) (by omega)

end G7
