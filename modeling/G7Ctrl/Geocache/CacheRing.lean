import G7Ctrl.Geocache.AddressCache
import G7Ctrl.Xstr.Decimal
import Mathlib.Algebra.BigOperators.Group.List.Basic

/-!
# What the address cache holds

A cache of `size` entries is expected to hold the latest `size` addresses it was given, unaltered,
and to find an address for exactly the coordinates that came with one (`HoldsLatest`).

An entry that is overwritten loses the last character of each of its texts.  So the cache does what
is expected of it during its first lap, and never again.

* **`holdsLatest_iff`** — the cache holds the latest addresses exactly as long as it was not given
  more than it has entries.
* **`overwritten_entry_cut`** — the second address in a cache with one entry.
-/

namespace G7

variable {D : Type*}

/-- Latitude, longitude and address. -/
abbrev AddressTriple := CStr × CStr × CStr

/-- What is inserted. -/
def AddressUpdate.triple (u : AddressUpdate) : AddressTriple := (u.lat, u.lon, u.addr)

/-- What an entry holds. -/
def AddressEntry.triple (e : AddressEntry D) : AddressTriple := (e.lat, e.lon, e.addr)

/-- The occupied entries. -/
def AddressCache.occupied (size : ℕ) (c : AddressCache D) : List (AddressEntry D) :=
  (List.range size).filterMap c.entries

/-- The latest updates, as many as there are entries. -/
def latest (size : ℕ) (us : List AddressUpdate) : List AddressUpdate := us.drop (us.length - size)

/-- What is expected of a cache after these updates. -/
structure HoldsLatest (F : Doubles D) (size : ℕ) (us : List AddressUpdate) : Prop where
  /-- The occupied entries hold the latest triples. -/
  entries : (((cacheAfter F size us).occupied size).map AddressEntry.triple).Perm
    ((latest size us).map AddressUpdate.triple)
  /-- With exact matching, an address is found for the coordinates of these and no others. -/
  lookup : ∀ lat lon maxlen,
    match (inAddressCache F size false (cacheAfter F size us) lat lon maxlen).1 with
    | some addr => ∃ u ∈ latest size us,
        u.lat = lat ∧ u.lon = lon ∧ addr = xmbStrncpy u.addr maxlen
    | none => ∀ u ∈ latest size us, ¬ (u.lat = lat ∧ u.lon = lon)

/-! ## The first lap -/

/-- Before the first lap ends every entry is fresh. -/
lemma written_of_length_le (F : Doubles D) {size : ℕ} : ∀ {us : List AddressUpdate},
    us.length ≤ size → written F size us = us.map (AddressUpdate.fresh F)
  | [], _ => rfl
  | u :: us, h => by
      rw [List.length_cons] at h
      have ih : written F size us = us.map (AddressUpdate.fresh F) :=
        written_of_length_le F (by omega)
      rw [written, if_pos (by omega), ih, List.map_cons]

/-- The entries in the order of the updates. -/
lemma entries_of_length_le (F : Doubles D) {size : ℕ} (hsize : 0 < size)
    {us : List AddressUpdate} (hus : ∀ u ∈ us, u.Accepted F) (hlen : us.length ≤ size) {i : ℕ}
    (hi : i < size) :
    (cacheAfter F size us).entries i = (us.map (AddressUpdate.fresh F))[i]? := by
  rw [(entries_cacheAfter F hsize us hus).1 i hi, ringSlot_eq _ hi,
    written_of_length_le F (by simpa using hlen), List.length_map, List.length_reverse]
  split_ifs with hin
  · rw [Nat.mod_eq_of_lt (by omega), List.getElem?_map, List.getElem?_map,
      List.getElem?_reverse (by omega)]
    rw [show us.length - 1 - (us.length - 1 - i) = i by omega]
  · rw [List.getElem?_eq_none (by simpa using hin)]

lemma latest_of_length_le {size : ℕ} {us : List AddressUpdate} (hlen : us.length ≤ size) :
    latest size us = us := by
  rw [latest, Nat.sub_eq_zero_of_le hlen, List.drop_zero]

/-- **During the first lap the cache holds what it was given.** -/
lemma holdsLatest_of_length_le (F : Doubles D) {size : ℕ} (hsize : 0 < size)
    {us : List AddressUpdate} (hus : ∀ u ∈ us, u.Accepted F) (hlen : us.length ≤ size) :
    HoldsLatest F size us := by
  have hentries := fun {i : ℕ} => entries_of_length_le F hsize hus hlen (i := i)
  refine ⟨?_, fun lat lon maxlen => ?_⟩
  · have hocc : (cacheAfter F size us).occupied size = us.map (AddressUpdate.fresh F) := by
      rw [AddressCache.occupied, List.filterMap_congr fun i hi => hentries (List.mem_range.mp hi),
        filterMap_getElem?_range, List.take_of_length_le (by simpa using hlen)]
    rw [hocc, latest_of_length_le hlen, List.map_map]
    rfl
  · have hscan : (addressScan (cacheAfter F size us).entries
        (AddressEntry.matchesAt F false lat lon) size 0).map Prod.snd
          = (us.map (AddressUpdate.fresh F)).find? (AddressEntry.matchesAt F false lat lon) :=
      addressScan_eq _ _ (by simpa using hlen) fun k hk => by
        rw [Nat.zero_add]
        exact hentries hk
    have hmatch : ∀ u : AddressUpdate,
        AddressEntry.matchesAt F false lat lon (u.fresh F) = true ↔ u.lat = lat ∧ u.lon = lon := by
      intro u
      simp only [AddressEntry.matchesAt, AddressUpdate.fresh, Bool.false_eq_true, if_false,
        Bool.and_eq_true, beq_iff_eq]
      exact and_congr eq_comm eq_comm
    rw [latest_of_length_le hlen, inAddressCache]
    cases hres : addressScan (cacheAfter F size us).entries
        (AddressEntry.matchesAt F false lat lon) size 0 with
    | none =>
        rw [hres, Option.map_none] at hscan
        intro u hu hkey
        exact List.find?_eq_none.mp hscan.symm (u.fresh F) (List.mem_map_of_mem hu)
          ((hmatch u).mpr hkey)
    | some r =>
        rw [hres, Option.map_some] at hscan
        obtain ⟨u, hu, hfresh⟩ := List.mem_map.mp (List.mem_of_find?_eq_some hscan.symm)
        have hkey := List.find?_some hscan.symm
        rw [← hfresh, hmatch] at hkey
        refine ⟨u, hu, hkey.1, hkey.2, ?_⟩
        simp only [← hfresh, AddressUpdate.fresh]

/-! ## After the first lap -/

/-- The characters of the latitudes. -/
def latLength (ts : List AddressTriple) : ℕ := (ts.map fun t => t.1.length).sum

lemma latLength_cons (t : AddressTriple) (ts : List AddressTriple) :
    latLength (t :: ts) = t.1.length + latLength ts := by
  simp [latLength]

lemma latLength_perm {ts ts' : List AddressTriple} (h : ts.Perm ts') :
    latLength ts = latLength ts' :=
  (h.map _).sum_eq

/-- A coordinate that is accepted is not empty. -/
lemma Doubles.ne_nil_of_coordOk {F : Doubles D} {s : CStr} (h : F.coordOk s = true) : s ≠ [] := by
  rintro rfl
  have hzero : F.atof [] = F.zero := F.strtod_none [] F.strtod_nil
  simp [Doubles.coordOk, hzero, F.outOfRange_zero] at h

/-- An overwritten entry has lost the last character of its latitude. -/
lemma reused_lat_length (F : Doubles D) (u : AddressUpdate) :
    (u.reused F).triple.1.length = u.lat.length - 1 := by
  simp [AddressUpdate.reused, AddressEntry.triple, xstrlcpy]

/-- Nothing that is written has a longer latitude than what was given. -/
lemma latLength_written_le (F : Doubles D) (size : ℕ) : ∀ (us : List AddressUpdate) (k : ℕ),
    latLength (((written F size us).take k).map AddressEntry.triple)
      ≤ latLength ((us.take k).map AddressUpdate.triple)
  | [], k => by simp [written]
  | u :: us, 0 => by simp
  | u :: us, k + 1 => by
      have ih := latLength_written_le F size us k
      have hlat : (if us.length < size then u.fresh F else u.reused F).triple.1.length
          ≤ u.triple.1.length := by
        split_ifs
        · exact Nat.le_refl _
        · rw [reused_lat_length]
          exact Nat.sub_le ..
      rw [written, List.take_succ_cons, List.take_succ_cons, List.map_cons, List.map_cons,
        latLength_cons, latLength_cons]
      omega

/-- **After the first lap the entries have lost characters.** -/
lemma not_holdsLatest_of_lt (F : Doubles D) {size : ℕ} (hsize : 0 < size)
    {us : List AddressUpdate} (hus : ∀ u ∈ us, u.Accepted F) (hlen : size < us.length) :
    ¬ HoldsLatest F size us := by
  intro h
  obtain ⟨u, older, hu⟩ : ∃ u older, us.reverse = u :: older :=
    List.exists_cons_of_ne_nil (by simp; rintro rfl; simp at hlen)
  have hacc : u.Accepted F := hus u (List.mem_reverse.mp (hu ▸ List.mem_cons_self ..))
  have hpos : 0 < u.lat.length := List.length_pos_iff.mpr (Doubles.ne_nil_of_coordOk hacc.1)
  have holder : size ≤ older.length := by
    have hlen' := congrArg List.length hu
    rw [List.length_reverse, List.length_cons] at hlen'
    omega
  obtain ⟨k, rfl⟩ : ∃ k, size = k + 1 := Nat.exists_eq_succ_of_ne_zero (by omega)
  -- the entries are what the latest updates wrote, in some order
  have hocc : (((cacheAfter F (k + 1) us).occupied (k + 1)).map AddressEntry.triple).Perm
      (((written F (k + 1) us.reverse).take (k + 1)).map AddressEntry.triple) := by
    have hring := ringSlots_perm hsize (written F (k + 1) us.reverse)
    rw [AddressCache.occupied, List.filterMap_congr fun i hi =>
      (entries_cacheAfter F hsize us hus).1 i (List.mem_range.mp hi)]
    exact hring.map _
  have hlatest : ((latest (k + 1) us).map AddressUpdate.triple).Perm
      ((us.reverse.take (k + 1)).map AddressUpdate.triple) := by
    rw [latest, List.take_reverse]
    exact (List.reverse_perm _).symm.map _
  have hsum := latLength_perm (hocc.symm.trans (h.entries.trans hlatest))
  have hle := latLength_written_le F (k + 1) older k
  rw [hu, written, if_neg (by omega), List.take_succ_cons, List.take_succ_cons, List.map_cons,
    List.map_cons, latLength_cons, latLength_cons, reused_lat_length] at hsum
  simp only [AddressUpdate.triple] at hsum hle
  omega

/-- **The cache holds the latest addresses exactly as long as it was not given more than it has
entries**, for every size, every sequence of accepted updates and whatever `strtod` does. -/
theorem holdsLatest_iff (F : Doubles D) {size : ℕ} (hsize : 0 < size) (us : List AddressUpdate)
    (hus : ∀ u ∈ us, u.Accepted F) : HoldsLatest F size us ↔ us.length ≤ size := by
  refine ⟨fun h => ?_, holdsLatest_of_length_le F hsize hus⟩
  by_contra hlen
  exact not_holdsLatest_of_lt F hsize hus (by omega) h

/-- Decimal coordinates without a sign, read exactly. -/
def decimalDoubles : Doubles ℚ where
  strtod s := if (s.takeWhile isDigit).isEmpty then (0, false, false)
    else (decimalValue s, true, false)
  zero := 0
  outOfRange x := decide (-1 < x ∧ x < 1) || decide (x < -89 ∨ 89 < x)
  isZero x := decide (x = 0)
  isLongLimit x := decide (x = 2 ^ 63 ∨ x = -2 ^ 63)
  near _ _ _ _ := false
  strtod_none s h := by
    by_cases hempty : (s.takeWhile isDigit).isEmpty = true
    · simp [hempty]
    · simp [hempty] at h
  strtod_nil := rfl
  outOfRange_zero := by decide +kernel
  outOfRange_of_isZero x hx := by
    rw [of_decide_eq_true hx]
    decide +kernel
  outOfRange_of_isLongLimit x hx := by
    rcases of_decide_eq_true hx with rfl | rfl <;> decide +kernel

/-- An address in Stockholm. -/
def stockholm : AddressUpdate where
  lat := str "59.366545"
  lon := str "17.959445"
  addr := str "Sveavagen 1"
  now := 1386720000

/-- An address in Uppsala. -/
def uppsala : AddressUpdate where
  lat := str "59.858564"
  lon := str "17.638927"
  addr := str "Kungsgatan 2"
  now := 1386720060

lemma accepted_stockholm_uppsala : ∀ u ∈ [stockholm, uppsala], u.Accepted decimalDoubles := by
  have hstockholm : stockholm.Accepted decimalDoubles := ⟨by decide +kernel, by decide +kernel⟩
  have huppsala : uppsala.Accepted decimalDoubles := ⟨by decide +kernel, by decide +kernel⟩
  simp [hstockholm, huppsala]

/-- Two addresses in a cache with two entries. -/
theorem holdsLatest_iff_twoEntries :
    (∀ u ∈ [stockholm, uppsala], u.Accepted decimalDoubles) ∧
      (HoldsLatest decimalDoubles 2 [stockholm, uppsala] ↔ [stockholm, uppsala].length ≤ 2) :=
  ⟨accepted_stockholm_uppsala,
    holdsLatest_iff decimalDoubles Nat.two_pos _ accepted_stockholm_uppsala⟩

/-- **An overwritten entry is cut**: the second address in a cache with one entry is not found under
its own coordinates. -/
theorem overwritten_entry_cut :
    ¬ ∀ (F : Doubles ℚ) (size : ℕ) (us : List AddressUpdate), 0 < size →
      (∀ u ∈ us, u.Accepted F) → HoldsLatest F size us := by
  intro h
  have hlookup := (h decimalDoubles 1 [stockholm, uppsala] Nat.one_pos
    accepted_stockholm_uppsala).lookup uppsala.lat uppsala.lon 512
  have hnone : (inAddressCache decimalDoubles 1 false
      (cacheAfter decimalDoubles 1 [stockholm, uppsala]) uppsala.lat uppsala.lon 512).1 = none := by
    decide +kernel
  rw [hnone] at hlookup
  exact hlookup uppsala (by simp [latest]) ⟨rfl, rfl⟩

end G7
