import G7Ctrl.Geocache.CacheFile

/-!
# What survives a restart

A cache is expected to come back from its file with the entries it had (`Persists`).

The writer saves the entries up to the highest index of a lookup that hit, so that a cache in which
nothing was looked up saves one entry; the reader never fills the last slot; and a line comes back
only when it is one piece with four fields (`Persistable`).

* `CacheReachable.prefixUsed` — the used slots come before the free ones.
* `savedRecords_eq`, `mem_reached` — which records are saved, and which of them are reached.
* **`persists_iff`** — in every reachable state `Persistable` is exactly when the entries come back.
* **`second_entry_lost`** — two addresses and no lookup: the second one is lost.
-/

namespace G7

variable {D : Type*}

/-- The states of the cache of a process that calls `update_address_cache` and
`in_address_cache`. -/
inductive CacheReachable (F : Doubles D) (size : ℕ) : AddressCache D → Prop
  | init : CacheReachable F size {}
  | update {c : AddressCache D} (u : AddressUpdate) : CacheReachable F size c →
      5 ≤ u.addr.length ∧ u.addr.length ≤ 255 ∧ lf ∉ u.addr → 0 < u.now ∧ u.now ≤ longMax →
      CacheReachable F size (updateAddressCache F size c u).2
  | lookup {c : AddressCache D} (proximity : Bool) (lat lon : CStr) (maxlen : ℕ) :
      CacheReachable F size c →
      CacheReachable F size (inAddressCache F size proximity c lat lon maxlen).2

/-- What is expected: the file is read without an error and gives the same entries. -/
def Persists (F : Doubles D) (size : ℕ) (c : AddressCache D) : Prop :=
  (readAddressGeocache F size (writeAddressGeocache c)).1 = 0 ∧
    (readAddressGeocache F size (writeAddressGeocache c)).2.records = c.records

/-- The slots before `j` whose line has 254 characters. -/
def fullLinesBefore (c : AddressCache D) (j : ℕ) : ℕ :=
  (List.range j).countP fun k => (c.entries k).any fun e => (recordText e.record).length = 254

lemma fullLinesBefore_le (c : AddressCache D) (j : ℕ) : fullLinesBefore c j ≤ j :=
  List.countP_le_length.trans_eq List.length_range

/-- Every entry can be read back, and it, or one with the same time and texts, is in a slot up to
the highest index of a hit that the reader gets to: it has a slot for each line but the last one,
and takes two for a line of 254 characters. -/
def Persistable (F : Doubles D) (size : ℕ) (c : AddressCache D) : Prop :=
  ∀ i e, c.entries i = some e → Restorable F e.record ∧
    ∃ j e', c.entries j = some e' ∧ e'.record = e.record ∧ j ≤ c.stat.maxIdx ∧
      j + fullLinesBefore c j < size - 1

/-! ## The used slots -/

/-- The first `n` slots are used and no others, and the next position is the first free one, or any
of them when all slots are used. -/
def PrefixUsed (size n : ℕ) (c : AddressCache D) : Prop :=
  (∀ i, (c.entries i).isSome = true ↔ i < n) ∧ (c.idx = n ∨ (size ≤ n ∧ c.idx < n))

/-- An update uses the next slot. -/
lemma PrefixUsed.update {F : Doubles D} {size n : ℕ} {c : AddressCache D} (h : PrefixUsed size n c)
    (u : AddressUpdate) : ∃ m, PrefixUsed size m (updateAddressCache F size c u).2 := by
  by_cases hacc : u.Accepted F
  · obtain ⟨-, hentries, hnext⟩ := updateAddressCache_accepted hacc size c
    obtain ⟨hused, hidx⟩ := h
    have hsome : ∀ i, ((updateAddressCache F size c u).2.entries i).isSome = true ↔
        i = c.idx ∨ i < n := by
      intro i
      rw [hentries, ← hused i]
      by_cases hi : i = c.idx
      · simp [hi]
      · simp [hi]
    rcases hidx with heq | ⟨hfull, hlt⟩
    · refine ⟨n + 1, fun i => (hsome i).trans (by omega), ?_⟩
      rw [hnext]
      split_ifs <;> omega
    · refine ⟨n, fun i => (hsome i).trans (by omega), ?_⟩
      rw [hnext]
      split_ifs <;> omega
  · have hrej : (!F.coordOk u.lat || !F.coordOk u.lon) = true := by
      simpa [AddressUpdate.Accepted, imp_iff_not_or] using hacc
    rw [updateAddressCache, if_pos hrej]
    exact ⟨n, h⟩

/-- **The used slots come before the free ones.** -/
lemma CacheReachable.prefixUsed {F : Doubles D} {size : ℕ} {c : AddressCache D}
    (h : CacheReachable F size c) : ∃ n, PrefixUsed size n c := by
  induction h with
  | init => exact ⟨0, by simp, .inl rfl⟩
  | update u _ _ _ ih =>
      obtain ⟨n, hn⟩ := ih
      exact hn.update u
  | lookup proximity lat lon maxlen _ ih =>
      obtain ⟨n, hn⟩ := ih
      refine ⟨n, ?_⟩
      rw [inAddressCache]
      split <;> exact hn

/-! ## What is saved and reached -/

lemma takeWhile_range (n k : ℕ) : (List.range k).takeWhile (fun i => decide (i < n))
    = List.range (min n k) := by
  induction k with
  | zero => simp
  | succ k ih =>
      rw [List.range_succ, List.takeWhile_append, ih, List.length_range, List.length_range]
      by_cases hk : k < n
      · rw [if_pos (by omega), Nat.min_eq_right (by omega), List.range_succ]
        simp [hk]
      · have hstop : [k].takeWhile (fun i => decide (i < n)) = [] := by simp [hk]
        rw [hstop, List.append_nil, show min n (k + 1) = min n k by omega]
        split_ifs with hlen
        · rw [hlen]
        · rfl

/-- The record in a slot; no meaning for a free one. -/
def slotRecord (c : AddressCache D) (i : ℕ) : AddressRecord :=
  ((c.entries i).map AddressEntry.record).getD default

lemma slotRecord_eq {c : AddressCache D} {i : ℕ} {e : AddressEntry D} (he : c.entries i = some e) :
    slotRecord c i = e.record := by
  rw [slotRecord, he]
  rfl

/-- **What is saved**: the records of the used slots up to the highest index of a hit. -/
lemma savedRecords_eq {size n : ℕ} {c : AddressCache D} (h : PrefixUsed size n c) :
    savedRecords c = (List.range (min n (c.stat.maxIdx + 1))).map (slotRecord c) := by
  have hused : (Option.isSome ∘ c.entries) = fun i => decide (i < n) := by
    funext i
    rw [Function.comp_apply, Bool.eq_iff_iff, h.1 i, decide_eq_true_eq]
  rw [savedRecords, List.takeWhile_map, hused, takeWhile_range, List.filterMap_map,
    List.map_filterMap, ← List.filterMap_eq_map]
  refine List.filterMap_congr fun i hi => ?_
  obtain ⟨e, he⟩ := Option.isSome_iff_exists.mp ((h.1 i).mpr (by
    have := List.mem_range.mp hi
    omega))
  rw [Function.comp_apply, Function.comp_apply, slotRecord_eq he, id_eq, he]
  rfl

/-- **Which records are reached**: a line that fills the buffer takes two slots. -/
lemma mem_reached : ∀ {n : ℕ} {rs : List AddressRecord} {r : AddressRecord}, r ∈ reached n rs ↔
    ∃ j, rs[j]? = some r ∧
      j + (rs.take j).countP (fun r' => ¬ (recordText r').length < 254) < n
  | n, [], r => by simp [reached]
  | 0, r' :: rs, r => by simp [reached]
  | n + 1, r' :: rs, r => by
      rw [reached, List.mem_cons, mem_reached]
      constructor
      · rintro (rfl | ⟨j, hj, hlt⟩)
        · exact ⟨0, rfl, by simp⟩
        · refine ⟨j + 1, hj, ?_⟩
          rw [List.take_succ_cons, List.countP_cons]
          split_ifs at hlt with hfull
          · simp only [hfull, not_true, decide_false, Bool.false_eq_true, if_false]
            omega
          · simp only [hfull, not_false_iff, decide_true, if_true]
            omega
      · rintro ⟨j, hj, hlt⟩
        cases j with
        | zero => exact .inl (Option.some.inj hj).symm
        | succ j =>
            refine .inr ⟨j, hj, ?_⟩
            rw [List.take_succ_cons, List.countP_cons] at hlt
            split_ifs with hfull
            · simp only [hfull, not_true, decide_false, Bool.false_eq_true, if_false] at hlt
              omega
            · simp only [hfull, not_false_iff, decide_true, if_true] at hlt
              omega

/-- A record is saved and reached through one of its slots. -/
lemma mem_reached_savedRecords {F : Doubles D} {size n m : ℕ} {c : AddressCache D}
    (h : PrefixUsed size n c) (hres : ∀ i e, c.entries i = some e → Restorable F e.record)
    {r : AddressRecord} :
    r ∈ reached m (savedRecords c) ↔ ∃ j e, c.entries j = some e ∧ e.record = r ∧
      j ≤ c.stat.maxIdx ∧ j + fullLinesBefore c j < m := by
  have hused : ∀ {i}, i < n → ∃ e, c.entries i = some e := fun hi =>
    Option.isSome_iff_exists.mp ((h.1 _).mpr hi)
  -- the lines of restorable records have at most 254 characters
  have hcount : ∀ {j}, j ≤ n → j ≤ c.stat.maxIdx + 1 →
      ((savedRecords c).take j).countP (fun r' => ¬ (recordText r').length < 254)
        = fullLinesBefore c j := by
    intro j hj hj'
    rw [savedRecords_eq h, ← List.map_take, List.take_range, List.countP_map, fullLinesBefore,
      Nat.min_eq_left (by omega)]
    refine List.countP_congr fun i hi => ?_
    obtain ⟨e, he⟩ := hused (Nat.lt_of_lt_of_le (List.mem_range.mp hi) hj)
    have hfits := (hres i e he).fits
    rw [Function.comp_apply, slotRecord_eq he, he, Option.any_some, decide_eq_true_eq,
      decide_eq_true_eq]
    omega
  rw [mem_reached]
  constructor
  · rintro ⟨j, hj, hlt⟩
    rw [savedRecords_eq h, List.getElem?_map, Option.map_eq_some_iff] at hj
    obtain ⟨i, hi, rfl⟩ := hj
    obtain ⟨hjlt, rfl⟩ := List.getElem?_eq_some_iff.mp hi
    rw [List.length_range] at hjlt
    rw [List.getElem_range]
    obtain ⟨e, he⟩ := hused (show j < n by omega)
    rw [hcount (by omega) (by omega)] at hlt
    exact ⟨j, e, he, (slotRecord_eq he).symm, by omega, hlt⟩
  · rintro ⟨j, e, he, rfl, hmax, hlt⟩
    have hjn : j < n := (h.1 j).mp (by rw [he]; rfl)
    refine ⟨j, ?_, ?_⟩
    · rw [savedRecords_eq h, List.getElem?_map, List.getElem?_range (by omega), Option.map_some,
        slotRecord_eq he]
    · rwa [hcount (by omega) (by omega)]

/-! ## What comes back -/

/-- What an update writes has the time of the call. -/
lemma records_updateAddressCache {F : Doubles D} {size : ℕ} {c : AddressCache D}
    {u : AddressUpdate} {r : AddressRecord} (hr : r ∈ (updateAddressCache F size c u).2.records) :
    r ∈ c.records ∨ r.1 = u.now := by
  by_cases hacc : u.Accepted F
  · obtain ⟨i, e, he, rfl⟩ := hr
    obtain ⟨-, hentries, -⟩ := updateAddressCache_accepted hacc size c
    rw [hentries] at he
    by_cases hi : i = c.idx
    · subst hi
      rw [Function.update_self, Option.some.injEq] at he
      right
      rw [← he]
      split_ifs <;> rfl
    · rw [Function.update_of_ne hi] at he
      exact Or.inl ⟨i, e, he, rfl⟩
  · left
    have hrej : (!F.coordOk u.lat || !F.coordOk u.lon) = true := by
      simpa [AddressUpdate.Accepted, imp_iff_not_or] using hacc
    rwa [updateAddressCache, if_pos hrej] at hr

/-- A lookup changes no entry. -/
lemma records_inAddressCache (F : Doubles D) (size : ℕ) (proximity : Bool) (c : AddressCache D)
    (lat lon : CStr) (maxlen : ℕ) :
    (inAddressCache F size proximity c lat lon maxlen).2.records = c.records := by
  rw [inAddressCache]
  split <;> rfl

/-- **Every entry has the time of an update.** -/
lemma CacheReachable.time {F : Doubles D} {size : ℕ} {c : AddressCache D}
    (h : CacheReachable F size c) : ∀ r ∈ c.records, 0 < r.1 ∧ r.1 ≤ longMax := by
  induction h with
  | init =>
      rintro r ⟨i, e, he, -⟩
      exact absurd he (by simp)
  | update u _ _ hnow ih =>
      intro r hr
      rcases records_updateAddressCache hr with hr | hr
      · exact ih r hr
      · exact hr ▸ hnow
  | lookup proximity lat lon maxlen _ ih =>
      intro r hr
      rw [records_inAddressCache] at hr
      exact ih r hr

/-- What is saved is in the cache. -/
lemma mem_records_of_saved {c : AddressCache D} {r : AddressRecord} (hr : r ∈ savedRecords c) :
    r ∈ c.records := by
  obtain ⟨e, he, rfl⟩ := List.mem_map.mp hr
  obtain ⟨e', he', hsome⟩ := List.mem_filterMap.mp he
  rw [id_eq] at hsome
  subst hsome
  obtain ⟨i, -, hi⟩ := List.mem_map.mp ((List.takeWhile_sublist _).subset he')
  exact ⟨i, e, hi, rfl⟩

/-- Whatever the file contains, what is read of it is restorable. -/
lemma restorable_of_readCacheLoop {F : Doubles D} : ∀ {n : ℕ} {text : CStr} {c : AddressCache D},
    (∀ i, c.idx ≤ i → c.entries i = none) → ∀ r ∈ (readCacheLoop F n text c).2.records, 0 < r.1 →
      r ∈ c.records ∨ Restorable F r
  | 0, text, c, _, r, hr, _ => Or.inl hr
  | n + 1, text, c, hfree, r, hr, hts => by
      by_cases htext : text = []
      · subst htext
        exact Or.inl hr
      · cases hline : cacheLine F (fgets 254 text).1 with
        | invalid =>
            rw [readCacheLoop_invalid htext hline] at hr
            exact Or.inl hr
        | other =>
            rw [readCacheLoop_other htext hline] at hr
            have hfree' : ∀ i, c.idx + 1 ≤ i → c.entries i = none :=
              fun i hi => hfree i (Nat.le_of_succ_le hi)
            exact restorable_of_readCacheLoop (c := { c with idx := c.idx + 1 }) hfree' r hr hts
        | entry e =>
            rw [readCacheLoop_entry htext hline] at hr
            have hfree' : ∀ i, c.idx + 1 ≤ i →
                Function.update c.entries c.idx (some e) i = none :=
              fun i hi => (Function.update_of_ne (by omega) _ _).trans (hfree i (by omega))
            rcases restorable_of_readCacheLoop hfree' r hr hts with hmem | hres
            · rw [records_update (hfree _ (Nat.le_refl _))] at hmem
              rcases hmem with rfl | hmem
              · exact Or.inr (restorable_of_cacheLine hline hts)
              · exact Or.inl hmem
            · exact Or.inr hres

lemma records_empty : ({} : AddressCache D).records = ∅ := by
  simp [AddressCache.records]

/-- What is read when every entry is restorable. -/
lemma read_write_eq {F : Doubles D} {size : ℕ} {c : AddressCache D} (hc : CacheReachable F size c)
    (hres : ∀ r ∈ c.records, Restorable F r) :
    (readAddressGeocache F size (writeAddressGeocache c)).1 = 0 ∧
      (readAddressGeocache F size (writeAddressGeocache c)).2.records
        = {r | r ∈ reached (size - 1) (savedRecords c)} := by
  have hsaved : ∀ r ∈ savedRecords c, Restorable F r ∧ 0 ≤ r.1 ∧ r.1 ≤ longMax := by
    intro r hr
    have hmem := mem_records_of_saved hr
    exact ⟨hres r hmem, (hc.time r hmem).1.le, (hc.time r hmem).2⟩
  have hloop := readCacheLoop_restorable (size - 1) (c := {}) hsaved fun i _ => rfl
  rwa [records_empty, Set.empty_union] at hloop

/-- An entry that comes back can be read back, is saved and is reached. -/
lemma Persists.persistable {F : Doubles D} {size : ℕ} {c : AddressCache D}
    (hc : CacheReachable F size c) (h : Persists F size c) : Persistable F size c := by
  obtain ⟨-, hsame⟩ := h
  have hres : ∀ r ∈ c.records, Restorable F r := by
    intro r hr
    have hback := hsame.symm ▸ hr
    rcases restorable_of_readCacheLoop (fun i _ => rfl) r hback (hc.time r hr).1 with hmem | hres
    · exact absurd (records_empty ▸ hmem) (Set.notMem_empty r)
    · exact hres
  obtain ⟨n, hn⟩ := hc.prefixUsed
  rw [(read_write_eq hc hres).2] at hsame
  intro i e he
  have hr : e.record ∈ c.records := ⟨i, e, he, rfl⟩
  refine ⟨hres _ hr, ?_⟩
  rw [← hsame] at hr
  exact (mem_reached_savedRecords hn fun i e he => hres _ ⟨i, e, he, rfl⟩).mp hr

/-- **When the entries come back**: in every reachable state, exactly when each of them can be read
back and has a slot that is saved and that the reader gets to. -/
theorem persists_iff {F : Doubles D} {size : ℕ} {c : AddressCache D}
    (hc : CacheReachable F size c) : Persists F size c ↔ Persistable F size c := by
  refine ⟨Persists.persistable hc, fun h => ?_⟩
  have hres : ∀ i e, c.entries i = some e → Restorable F e.record := fun i e he => (h i e he).1
  obtain ⟨n, hn⟩ := hc.prefixUsed
  have hrestorable : ∀ r ∈ c.records, Restorable F r := by
    rintro r ⟨i, e, he, rfl⟩
    exact hres i e he
  obtain ⟨hret, hrecords⟩ := read_write_eq hc hrestorable
  refine ⟨hret, hrecords.trans (Set.Subset.antisymm (fun r hr => ?_) fun r hr => ?_)⟩
  · obtain ⟨j, e, he, rfl, -⟩ := (mem_reached_savedRecords hn hres).mp hr
    exact ⟨j, e, he, rfl⟩
  · obtain ⟨i, e, he, rfl⟩ := hr
    exact (mem_reached_savedRecords hn hres).mpr (h i e he).2

/-! ## Two addresses -/

/-- A cache with two addresses in which nothing was looked up. -/
def twoAddresses : AddressCache ℚ := cacheAfter decimalDoubles 100 [stockholm, uppsala]

lemma cacheReachable_twoAddresses : CacheReachable decimalDoubles 100 twoAddresses :=
  (CacheReachable.init.update stockholm (by decide) (by decide)).update uppsala
    (by decide) (by decide)

/-- An update changes no statistics. -/
lemma stat_updateAddressCache (F : Doubles D) (size : ℕ) (c : AddressCache D) (u : AddressUpdate) :
    (updateAddressCache F size c u).2.stat = c.stat := by
  simp only [updateAddressCache]
  split_ifs <;> rfl

lemma entries_twoAddresses {i : ℕ} (hi : i < 100) : twoAddresses.entries i
    = ([stockholm, uppsala].map (AddressUpdate.fresh decimalDoubles))[i]? :=
  entries_of_length_le decimalDoubles (by decide) accepted_stockholm_uppsala (by decide) hi

lemma maxIdx_twoAddresses : twoAddresses.stat.maxIdx = 0 := by
  have hstat : twoAddresses.stat = {} := by
    rw [twoAddresses, cacheAfter, List.foldl_cons, List.foldl_cons, List.foldl_nil,
      stat_updateAddressCache, stat_updateAddressCache]
  rw [hstat]

/-- The same cache after the second address was looked up. -/
def secondLookedUp : AddressCache ℚ :=
  (inAddressCache decimalDoubles 100 false twoAddresses uppsala.lat uppsala.lon 512).2

lemma entries_secondLookedUp : secondLookedUp.entries = twoAddresses.entries := by
  rw [secondLookedUp, inAddressCache]
  split <;> rfl

lemma lt_two_of_entries {i : ℕ} {e : AddressEntry ℚ} (he : secondLookedUp.entries i = some e) :
    i < 2 := by
  obtain ⟨n, hn⟩ := cacheReachable_twoAddresses.prefixUsed
  have hthird : ¬ 2 < n := by
    rw [← hn.1 2, entries_twoAddresses (by decide)]
    decide
  rw [entries_secondLookedUp] at he
  have hi := (hn.1 i).mp (by rw [he]; rfl)
  omega

/-- **Two addresses come back** after the second was looked up. -/
theorem persists_iff_twoAddresses :
    CacheReachable decimalDoubles 100 secondLookedUp ∧
      Persists decimalDoubles 100 secondLookedUp := by
  have hreach : CacheReachable decimalDoubles 100 secondLookedUp :=
    cacheReachable_twoAddresses.lookup false uppsala.lat uppsala.lon 512
  refine ⟨hreach, (persists_iff hreach).mpr fun i e he => ?_⟩
  have hmax : secondLookedUp.stat.maxIdx = 1 := by decide +kernel
  have htwo : i < 2 := lt_two_of_entries he
  have hfull := fullLinesBefore_le secondLookedUp i
  refine ⟨?_, i, e, he, rfl, by omega, by omega⟩
  rw [entries_secondLookedUp, entries_twoAddresses (by omega)] at he
  rcases List.mem_pair.mp (List.mem_of_getElem? he) with rfl | rfl
  · exact ⟨by decide, by decide +kernel, ⟨by decide +kernel, by decide +kernel⟩, by decide,
      by decide⟩
  · exact ⟨by decide, by decide +kernel, ⟨by decide +kernel, by decide +kernel⟩, by decide,
      by decide⟩

/-- **The second of two addresses is lost** when neither was looked up: the file has one line. -/
theorem second_entry_lost :
    ¬ ∀ (F : Doubles ℚ) (size : ℕ) (c : AddressCache ℚ), 100 ≤ size → CacheReachable F size c →
      Persists F size c := by
  intro h
  have hpersists := h decimalDoubles 100 twoAddresses (Nat.le_refl _) cacheReachable_twoAddresses
  have huppsala : twoAddresses.entries 1 = some (uppsala.fresh decimalDoubles) :=
    entries_twoAddresses (by decide)
  obtain ⟨-, j, e, he, hrecord, hj, -⟩ :=
    hpersists.persistable cacheReachable_twoAddresses 1 _ huppsala
  -- only the first slot is saved
  rw [maxIdx_twoAddresses] at hj
  obtain rfl := Nat.le_zero.mp hj
  rw [entries_twoAddresses (by decide)] at he
  obtain rfl := Option.some.inj he
  exact absurd hrecord (by decide)

end G7
