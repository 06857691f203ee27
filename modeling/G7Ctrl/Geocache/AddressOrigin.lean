import G7Ctrl.Geocache.QuotaBlock

/-!
# Where an address comes from

An address that `get_address_from_latlon` returns is the answer to a request of the same call, or it
comes out of the cache.  What is in the cache are answers to earlier requests; an entry that was
overwritten has lost the last character of each of its texts.

* `added` — what the calls of a history have put into the cache.
* `AddressOrigin` — what is expected of a call after some additions.
* **`geocoder_origin`** — it holds of every call of every run, from any cache that accepted updates
  have made.
-/

namespace G7

variable {D : Type*}

/-! ## What is expected -/

/-- What a call has put into the cache. -/
def GeoCall.added (F : Doubles D) (c : GeoCall D) : List AddressUpdate :=
  if c.rc = 0 ∧ c.requests ≠ [] ∧ F.coordOk c.query.lat = true ∧ F.coordOk c.query.lon = true then
    [⟨c.query.lat, c.query.lon, c.address, c.query.finish⟩]
  else []

/-- What the calls of a history have put into the cache, the first one first. -/
def added (F : Doubles D) : List (GeoEvent D) → List AddressUpdate
  | [] => []
  | .call c :: h => added F h ++ c.added F
  | .reset _ :: h => added F h

/-- **Where the address of a call comes from**, when the cache has been given `us`. -/
structure AddressOrigin (F : Doubles D) (size : ℕ) (proximity : Bool) (c : GeoCall D)
    (us : List AddressUpdate) : Prop where
  /-- After a request it is the answer to the last one. -/
  answered : c.rc = 0 → c.requests ≠ [] → ∃ r text, c.requests.getLast? = some r ∧
    r.answer = .address text ∧ c.address = xmbStrncpy text (c.query.maxlen - 1)
  /-- Without one it is in an entry that matches, which is whole unless the cache has been given
  more than it has entries. -/
  cached : c.rc = 0 → c.requests = [] → ∃ u ∈ us, ∃ e : AddressEntry D,
    (e = u.fresh F ∨ size < us.length ∧ e = u.reused F) ∧
      e.matchesAt F proximity c.query.lat c.query.lon = true ∧
      c.address = xmbStrncpy e.addr c.query.maxlen
  /-- Until then nothing is asked for that is in the cache. -/
  firstLap : us.length ≤ size → c.requests ≠ [] →
    ∀ u ∈ us, (u.fresh F).matchesAt F proximity c.query.lat c.query.lon = false

/-- The system, with a cache that these updates have made at the start. -/
def geocoderFrom (F : Doubles D) (size : ℕ) (proximity : Bool) (us : List AddressUpdate) :
    StepSystem (Geocoder D) GeoAction where
  init g := g.Init ∧ SameEntries g.cache (cacheAfter F size us)
  step := geoStep F size proximity

section

variable {F : Doubles D} {size : ℕ} {proximity : Bool} {us : List AddressUpdate}

/-! ## The entries -/

lemma mem_written {e : AddressEntry D} (h : e ∈ written F size us) :
    ∃ u ∈ us, e = u.fresh F ∨ size < us.length ∧ e = u.reused F := by
  induction us with
  | nil => cases h
  | cons u us ih =>
      rw [written, List.mem_cons] at h
      rcases h with rfl | h
      · refine ⟨u, List.mem_cons_self, ?_⟩
        split_ifs with hlap
        · exact .inl rfl
        · exact .inr ⟨by rw [List.length_cons]; omega, rfl⟩
      · obtain ⟨u', hu', hor⟩ := ih h
        refine ⟨u', List.mem_cons_of_mem u hu', hor.imp_right fun hreused => ?_⟩
        exact ⟨hreused.1.trans (Nat.lt_succ_self _), hreused.2⟩

/-- An entry is what one of the updates wrote. -/
lemma mem_of_entries (hsize : 0 < size) (hus : ∀ u ∈ us, u.Accepted F) {i : ℕ}
    {e : AddressEntry D} (h : (cacheAfter F size us).entries i = some e) :
    ∃ u ∈ us, e = u.fresh F ∨ size < us.length ∧ e = u.reused F := by
  obtain ⟨hring, hout, -⟩ := entries_cacheAfter F hsize us hus
  rcases Nat.lt_or_ge i size with hi | hi
  · rw [hring i hi, ringSlot_eq _ hi] at h
    split_ifs at h
    obtain ⟨u, hu, hor⟩ := mem_written (List.mem_of_getElem? h)
    rw [List.length_reverse] at hor
    exact ⟨u, List.mem_reverse.mp hu, hor⟩
  · rw [hout i hi] at h
    cases h

/-- What the scan finds is an entry that matches. -/
lemma addressScan_eq_some {entries : ℕ → Option (AddressEntry D)} {isMatch : AddressEntry D → Bool}
    (n : ℕ) {idx i : ℕ} {e : AddressEntry D} (h : addressScan entries isMatch n idx = some (i, e)) :
    entries i = some e ∧ isMatch e = true := by
  induction n generalizing idx with
  | zero => cases h
  | succ n ih =>
      rw [addressScan] at h
      split at h
      · cases h
      · rename_i e' he'
        split_ifs at h with hmatch
        · obtain ⟨rfl, rfl⟩ := Prod.mk.inj (Option.some.inj h)
          exact ⟨he', hmatch⟩
        · exact ih h

/-- **During the first lap the scan finds every address that matches.** -/
lemma matchesAt_of_scan_eq_none (hsize : 0 < size) (hus : ∀ u ∈ us, u.Accepted F)
    (hlen : us.length ≤ size) {isMatch : AddressEntry D → Bool}
    (h : addressScan (cacheAfter F size us).entries isMatch size 0 = none) :
    ∀ u ∈ us, isMatch (u.fresh F) = false := by
  have hscan := @addressScan_eq D isMatch (us.map (AddressUpdate.fresh F))
    (cacheAfter F size us).entries 0 size (by simpa using hlen) fun k hk => by
      rw [Nat.zero_add]
      exact entries_of_length_le F hsize hus hlen hk
  rw [h, Option.map_none] at hscan
  intro u hu
  exact Bool.eq_false_iff.mpr (List.find?_eq_none.mp hscan.symm _ (List.mem_map_of_mem hu))

/-! ## A call -/

lemma SameEntries.symm {a b : AddressCache D} (h : SameEntries a b) : SameEntries b a :=
  ⟨h.entries.symm, h.idx.symm, h.num.symm⟩

/-- Updates do not look at the statistics. -/
lemma SameEntries.update {a b : AddressCache D} (h : SameEntries a b) (u : AddressUpdate) :
    SameEntries (updateAddressCache F size a u).2 (updateAddressCache F size b u).2 := by
  obtain ⟨hentries, hidx, hnum⟩ := h
  rw [updateAddressCache, updateAddressCache, hentries, hidx, hnum]
  split_ifs
  · exact ⟨hentries, hidx, hnum⟩
  · exact ⟨rfl, rfl, rfl⟩
  · exact ⟨rfl, rfl, rfl⟩
  · exact ⟨rfl, rfl, rfl⟩

/-- The entry that the scan finds. -/
def AddressCache.found (F : Doubles D) (size : ℕ) (proximity : Bool) (cache : AddressCache D)
    (lat lon : CStr) : Option (ℕ × AddressEntry D) :=
  addressScan cache.entries (AddressEntry.matchesAt F proximity lat lon) size 0

/-- How lookups end: with an entry, with an answer, or without an address. -/
inductive Looked (F : Doubles D) (size : ℕ) (proximity : Bool) (cache : AddressCache D)
    (q : GeoQuery) (rc : ℤ) (address : CStr) (after : AddressCache D)
    (requests : List ApiRequest) : Prop
  | hit (i : ℕ) (e : AddressEntry D) : cache.found F size proximity q.lat q.lon = some (i, e) →
      rc = 0 → requests = [] → address = xmbStrncpy e.addr q.maxlen → SameEntries cache after →
      Looked F size proximity cache q rc address after requests
  | answered (request : ApiRequest) (text : CStr) :
      cache.found F size proximity q.lat q.lon = none → rc = 0 →
      requests.getLast? = some request → request.answer = .address text →
      address = xmbStrncpy text (q.maxlen - 1) →
      SameEntries (updateAddressCache F size cache ⟨q.lat, q.lon, address, q.finish⟩).2 after →
      Looked F size proximity cache q rc address after requests
  | failed : cache.found F size proximity q.lat q.lon = none → rc ≠ 0 → SameEntries cache after →
      Looked F size proximity cache q rc address after requests

variable {cache : AddressCache D}

lemma code_ne_zero (s : GoogleStatus) : s.code ≠ 0 := by
  cases s <;> decide

/-- **A lookup.** -/
lemma looked_lookup (q : GeoQuery) (request : ApiRequest) {r : Lookup D}
    (h : lookupAddressFromLatlon F size proximity cache q.lat q.lon q.maxlen request q.finish = r) :
    Looked F size proximity cache q r.rc r.address r.cache r.request.toList := by
  rw [lookupAddressFromLatlon, inAddressCache] at h
  cases hscan : addressScan cache.entries
      (AddressEntry.matchesAt F proximity q.lat q.lon) size 0 with
  | some found =>
      simp only [hscan] at h
      subst h
      exact .hit found.1 found.2 hscan rfl rfl rfl ⟨rfl, rfl, rfl⟩
  | none =>
      simp only [hscan] at h
      cases hanswer : request.answer with
      | address text =>
          simp only [hanswer] at h
          subst h
          have hcounted :
              SameEntries cache { cache with stat := updateCacheStat cache.stat false 0 } :=
            ⟨rfl, rfl, rfl⟩
          exact .answered request text hscan rfl rfl hanswer rfl (hcounted.update _)
      | transportError | parseError =>
          simp only [hanswer] at h
          subst h
          exact .failed hscan (show (-1 : ℤ) ≠ 0 by decide) ⟨rfl, rfl, rfl⟩
      | status s =>
          simp only [hanswer] at h
          subst h
          exact .failed hscan (code_ne_zero s) ⟨rfl, rfl, rfl⟩

/-- **The lookups of a call**, of which the second one has nothing that the first one had not. -/
lemma looked_lookups (q : GeoQuery) {r : Lookup D} {requests : List ApiRequest}
    (h : addressLookups F size proximity cache q = (r, requests)) :
    Looked F size proximity cache q r.rc r.address r.cache requests := by
  rw [addressLookups] at h
  generalize hr₁ : lookupAddressFromLatlon F size proximity cache q.lat q.lon q.maxlen q.first
    q.finish = r₁ at h
  have hlooked := looked_lookup q q.first hr₁
  have hzero : googleStatusOverquota ≠ 0 := by decide
  by_cases hover : r₁.rc = googleStatusOverquota
  · simp only [if_pos hover] at h
    generalize hr₂ : lookupAddressFromLatlon F size proximity r₁.cache q.lat q.lon q.maxlen
      q.second q.finish = r₂ at h
    obtain ⟨rfl, rfl⟩ := Prod.mk.inj h
    cases hlooked with
    | hit i e _ hrc => exact absurd (hover.symm.trans hrc) hzero
    | answered request text _ hrc => exact absurd (hover.symm.trans hrc) hzero
    | failed hnone _ hsame =>
        have hnone' : r₁.cache.found F size proximity q.lat q.lon = none := by
          rw [AddressCache.found, ← hsame.entries]
          exact hnone
        cases looked_lookup q q.second hr₂ with
        | hit i e hfound => rw [hnone'] at hfound; cases hfound
        | answered request text _ hrc hlast hanswer haddress hupdate =>
            refine .answered request text hnone hrc ?_ hanswer haddress
              ((hsame.update _).trans hupdate)
            rw [List.getLast?_append, hlast]
            rfl
        | failed _ hrc hsame' => exact .failed hnone hrc (hsame.trans hsame')
  · simp only [if_neg hover] at h
    obtain ⟨rfl, rfl⟩ := Prod.mk.inj h
    exact hlooked

lemma accepted_of_mem_added {c : GeoCall D} {u : AddressUpdate} (hu : u ∈ c.added F) :
    u.Accepted F := by
  rw [GeoCall.added] at hu
  split_ifs at hu with hadd
  · obtain rfl := List.mem_singleton.mp hu
    exact hadd.2.2
  · cases hu

lemma forall_mem_added (h : List (GeoEvent D)) : ∀ u ∈ added F h, u.Accepted F := by
  induction h with
  | nil => exact fun u hu => by cases hu
  | cons event h ih =>
      cases event with
      | reset time => exact ih
      | call c =>
          intro u hu
          rcases List.mem_append.mp hu with hu | hu
          · exact ih u hu
          · exact accepted_of_mem_added hu

/-- A call that has put nothing into the cache. -/
lemma added_eq_nil {c : GeoCall D} (h : c.rc ≠ 0 ∨ c.requests = []) : c.added F = [] := by
  rw [GeoCall.added, if_neg]
  rintro ⟨hrc, hrequests, -⟩
  exact h.elim (fun hne => hne hrc) hrequests

/-- The cache after one more update. -/
lemma cacheAfter_concat (us : List AddressUpdate) (u : AddressUpdate) :
    cacheAfter F size (us ++ [u]) = (updateAddressCache F size (cacheAfter F size us) u).2 := by
  rw [cacheAfter, List.foldl_append]
  rfl

/-- **What the lookups of a call have to do with the updates of the cache.** -/
lemma AddressOrigin.of_looked (hsize : 0 < size) (hus : ∀ u ∈ us, u.Accepted F)
    (hsame : SameEntries cache (cacheAfter F size us)) {c : GeoCall D}
    (h : Looked F size proximity cache c.query c.rc c.address c.after c.requests) :
    AddressOrigin F size proximity c us ∧
      SameEntries c.after (cacheAfter F size (us ++ c.added F)) := by
  have hfirst (hnone : cache.found F size proximity c.query.lat c.query.lon = none)
      (hlen : us.length ≤ size) :
      ∀ u ∈ us, (u.fresh F).matchesAt F proximity c.query.lat c.query.lon = false := by
    rw [AddressCache.found, hsame.entries] at hnone
    exact matchesAt_of_scan_eq_none hsize hus hlen hnone
  cases h with
  | hit i e hfound hrc hrequests haddress hafter =>
      obtain ⟨hentry, hmatch⟩ := addressScan_eq_some _ hfound
      rw [hsame.entries] at hentry
      obtain ⟨u, hu, hor⟩ := mem_of_entries hsize hus hentry
      rw [added_eq_nil (.inr hrequests), List.append_nil]
      refine ⟨⟨?_, ?_, ?_⟩, hafter.symm.trans hsame⟩
      · exact fun _ hne => absurd hrequests hne
      · exact fun _ _ => ⟨u, hu, e, hor, hmatch, haddress⟩
      · exact fun _ hne => absurd hrequests hne
  | answered request text hnone hrc hlast hanswer haddress hafter =>
      have hne : c.requests ≠ [] := by
        rintro hnil
        rw [hnil] at hlast
        cases hlast
      refine ⟨⟨?_, ?_, ?_⟩, ?_⟩
      · exact fun _ _ => ⟨request, text, hlast, hanswer, haddress⟩
      · exact fun _ hnil => absurd hnil hne
      · exact fun hlen _ => hfirst hnone hlen
      · refine hafter.symm.trans ((hsame.update _).trans ?_)
        by_cases hacc : F.coordOk c.query.lat = true ∧ F.coordOk c.query.lon = true
        · rw [GeoCall.added, if_pos ⟨hrc, hne, hacc⟩, cacheAfter_concat]
          exact ⟨rfl, rfl, rfl⟩
        · have hrefused : (!F.coordOk c.query.lat || !F.coordOk c.query.lon) = true := by
            rwa [Bool.or_eq_true, Bool.not_eq_true', Bool.not_eq_true', ← Bool.not_eq_true,
              ← Bool.not_eq_true, ← not_and_or]
          rw [GeoCall.added, if_neg fun hadd => hacc hadd.2.2, List.append_nil, updateAddressCache,
            if_pos hrefused]
          exact ⟨rfl, rfl, rfl⟩
  | failed hnone hrc hafter =>
      rw [added_eq_nil (.inl hrc), List.append_nil]
      refine ⟨⟨?_, ?_, ?_⟩, hafter.symm.trans hsame⟩
      · exact fun h0 => absurd h0 hrc
      · exact fun h0 => absurd h0 hrc
      · exact fun hlen _ => hfirst hnone hlen

/-- **A call**, on a cache that updates have made. -/
lemma getAddressFromLatlon_origin (hsize : 0 < size) (hus : ∀ u ∈ us, u.Accepted F)
    (hsame : SameEntries cache (cacheAfter F size us)) {v v' : GeocodeRate24h} {q : GeoQuery}
    {c : GeoCall D} (h : getAddressFromLatlon F size proximity v cache q = (v', c)) :
    AddressOrigin F size proximity c us ∧
      SameEntries c.after (cacheAfter F size (us ++ c.added F)) := by
  rw [getAddressFromLatlon] at h
  cases hblock : v.blocks q.start with
  | true =>
      rw [hblock, if_pos rfl] at h
      obtain ⟨-, rfl⟩ := Prod.mk.inj h
      rw [added_eq_nil (.inr rfl), List.append_nil]
      have hover : googleStatusOverquota ≠ 0 := by decide
      refine ⟨⟨?_, ?_, ?_⟩, hsame⟩
      · exact fun h0 => absurd h0 hover
      · exact fun h0 => absurd h0 hover
      · exact fun _ hne => absurd rfl hne
  | false =>
      rw [hblock, if_neg Bool.false_ne_true] at h
      rcases hlookups : addressLookups F size proximity cache q with ⟨r, requests⟩
      have hlooked := looked_lookups q hlookups
      simp only [hlookups] at h
      by_cases hrc : r.rc = 0
      · rw [if_pos hrc] at h
        obtain ⟨-, rfl⟩ := Prod.mk.inj h
        rw [hrc] at hlooked
        exact AddressOrigin.of_looked hsize hus hsame hlooked
      · rw [if_neg hrc] at h
        obtain ⟨-, rfl⟩ := Prod.mk.inj h
        refine AddressOrigin.of_looked hsize hus hsame ?_
        cases hlooked with
        | hit i e _ h0 => exact absurd h0 hrc
        | answered request text _ h0 => exact absurd h0 hrc
        | failed hnone _ hafter => exact .failed hnone hrc hafter

/-! ## Runs -/

/-- The invariant: the cache is that of the updates so far, and every call has been as expected. -/
structure OriginOk (F : Doubles D) (size : ℕ) (proximity : Bool) (us : List AddressUpdate)
    (g : Geocoder D) : Prop where
  same : SameEntries g.cache (cacheAfter F size (us ++ added F g.history))
  origin : ∀ c h, .call c :: h <:+ g.history →
    AddressOrigin F size proximity c (us ++ added F h)

lemma OriginOk.step (hsize : 0 < size) (hus : ∀ u ∈ us, u.Accepted F) {g g' : Geocoder D}
    {a : GeoAction} (h : OriginOk F size proximity us g)
    (hstep : geoStep F size proximity g a = some g') : OriginOk F size proximity us g' := by
  cases a with
  | call q =>
      simp only [geoStep] at hstep
      split_ifs at hstep
      cases hstep
      rcases hcall : getAddressFromLatlon F size proximity g.rate g.cache q with ⟨rate, c⟩
      have hall : ∀ u ∈ us ++ added F g.history, u.Accepted F := by
        intro u hu
        rcases List.mem_append.mp hu with hu | hu
        · exact hus u hu
        · exact forall_mem_added g.history u hu
      obtain ⟨horigin, hafter⟩ := getAddressFromLatlon_origin hsize hall h.same hcall
      rw [List.append_assoc] at hafter
      refine ⟨hafter, fun c' older hsuffix => ?_⟩
      rcases List.suffix_cons_iff.mp hsuffix with heq | hsuffix
      · cases heq
        exact horigin
      · exact h.origin c' older hsuffix
  | reset time =>
      simp only [geoStep] at hstep
      split_ifs at hstep
      cases hstep
      refine ⟨h.same, fun c older hsuffix => ?_⟩
      rcases List.suffix_cons_iff.mp hsuffix with heq | hsuffix
      · cases heq
      · exact h.origin c older hsuffix

/-- **Where the addresses of every run come from**: after a request from the service, and otherwise
from what was put into the cache before, which is whole and complete until the cache is full. -/
theorem geocoder_origin (hsize : 0 < size) (hus : ∀ u ∈ us, u.Accepted F) {g : Geocoder D}
    (h : (geocoderFrom F size proximity us).Reachable g) {c : GeoCall D}
    {older : List (GeoEvent D)} (hc : .call c :: older <:+ g.history) :
    AddressOrigin F size proximity c (us ++ added F older) := by
  have hok : OriginOk F size proximity us g := by
    refine StepSystem.ReachableIf.invariant ?_
      (fun g a g' _ hg _ hstep => hg.step hsize hus hstep) h
    rintro s ⟨hinit, hsame⟩
    refine ⟨?_, fun c older hsuffix => ?_⟩
    · rw [hinit.history_eq, added, List.append_nil]
      exact hsame
    · rw [hinit.history_eq] at hsuffix
      exact absurd (List.suffix_nil.mp hsuffix) (by simp)
  exact hok.origin c older hc

end

/-- A query for a place in Stockholm, which the service knows. -/
def stockholmQuery (start : ℤ) : GeoQuery where
  lat := stockholm.lat
  lon := stockholm.lon
  maxlen := 64
  start := start
  first := ⟨start, .address stockholm.addr⟩
  second := ⟨start, .address stockholm.addr⟩
  finish := start

/-- The second time the address comes out of the cache. -/
theorem geocoder_origin_stockholm : ∃ (g : Geocoder ℚ) (c : GeoCall ℚ) (older : List (GeoEvent ℚ)),
    (geocoderFrom decimalDoubles 1 false []).run ⟨{}, {}, 0, []⟩
      [.call (stockholmQuery 10), .call (stockholmQuery 20)] = some g ∧
    g.history = .call c :: older ∧ c.address = stockholm.addr ∧ c.requests = [] ∧
      AddressOrigin decimalDoubles 1 false c (added decimalDoubles older) := by
  have hrun : (geocoderFrom decimalDoubles 1 false []).run ⟨{}, {}, 0, []⟩
      [.call (stockholmQuery 10), .call (stockholmQuery 20)] = some _ := rfl
  have hinit : (geocoderFrom decimalDoubles 1 false []).init ⟨{}, {}, 0, []⟩ :=
    ⟨⟨rfl, rfl⟩, rfl, rfl, rfl⟩
  have hreach := StepSystem.reachable_run hinit hrun
  exact ⟨_, _, _, hrun, rfl, by decide +kernel, by decide +kernel,
    geocoder_origin Nat.one_pos (by simp) hreach (List.suffix_refl _)⟩

end G7
