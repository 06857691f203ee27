import G7Ctrl.Core.Ring
import G7Ctrl.Xstr.Copy
import Mathlib.Data.List.Induction

/-!
# The address cache (`geoloc_cache.c`)

The address cache is a vector of `geocache_address_size` entries, a position for the next entry and
statistics.  `update_address_cache` writes the entry at this position; when there is one from an
earlier lap it is overwritten with other code than a fresh one, code that passes `strlen` of a
string as the size of the buffer it is copied to.  `in_address_cache` scans the entries up to the
first that was never written.

Floating point is a parameter (`Doubles`): the code converts the coordinates, compares them with
the limits of what it accepts, and, unless matching is exact, measures distances.

* `AddressCache`, `updateAddressCache`, `inAddressCache` — the cache and its two operations.
* `cacheAfter` — the cache after a sequence of updates.
* **`entries_cacheAfter`** — its entries are a ring of what the updates wrote.
* **`addressScan_eq`** — the scan finds the first entry that matches.
-/

namespace G7

/-- What the code uses of floating point numbers, and what it relies on. -/
structure Doubles (D : Type*) where
  /-- `strtod`: the value, whether a number was found, and whether `errno` was set. -/
  strtod : CStr → D × Bool × Bool
  zero : D
  /-- `fabs(x) < 1 || fabs(x) > 89` -/
  outOfRange : D → Bool
  /-- `x == 0` -/
  isZero : D → Bool
  /-- `x == LONG_MAX || x == LONG_MIN` -/
  isLongLimit : D → Bool
  /-- `gpsdist_m(lat1, lon1, lat2, lon2) <= address_lookup_proximity` -/
  near : D → D → D → D → Bool
  /-- Nothing to convert gives 0. -/
  strtod_none : ∀ s, (strtod s).2.1 = false → (strtod s).1 = zero
  strtod_nil : (strtod []).2.1 = false
  outOfRange_zero : outOfRange zero = true
  outOfRange_of_isZero : ∀ x, isZero x = true → outOfRange x = true
  outOfRange_of_isLongLimit : ∀ x, isLongLimit x = true → outOfRange x = true

variable {D : Type*}

/-- `atof` -/
def Doubles.atof (F : Doubles D) (s : CStr) : D := (F.strtod s).1

/-- `xatof` -/
def Doubles.xatof (F : Doubles D) (s : CStr) : D :=
  match F.strtod s with
  | (val, converted, range) =>
      if converted = false then F.zero
      else if range && (F.isLongLimit val || F.isZero val) then F.zero
      else val

/-- A coordinate the cache accepts. -/
def Doubles.coordOk (F : Doubles D) (s : CStr) : Bool := !F.outOfRange (F.atof s)

/-- `struct address_cache_t` -/
structure AddressEntry (D : Type*) where
  lat : CStr
  lon : CStr
  dLat : D
  dLon : D
  addr : CStr
  ts : ℤ

/-- `struct geo_cache_stat_t` -/
structure GeoCacheStat where
  totCalls : ℕ := 0
  hits : ℕ := 0
  maxIdx : ℕ := 0
  deriving DecidableEq

/-- `address_cache` with its indices and statistics; an entry is `none` as long as it holds the
null pointers of `calloc`. -/
structure AddressCache (D : Type*) where
  entries : ℕ → Option (AddressEntry D) := fun _ => none
  idx : ℕ := 0
  num : ℕ := 0
  stat : GeoCacheStat := {}

/-- `update_cache_stat` (the counters are `unsigned`) -/
def updateCacheStat (stat : GeoCacheStat) (hit : Bool) (idx : ℕ) : GeoCacheStat where
  totCalls := (stat.totCalls + 1) % 2 ^ 32
  hits := if hit then (stat.hits + 1) % 2 ^ 32 else stat.hits
  maxIdx := if stat.maxIdx < idx then idx else stat.maxIdx

/-- A call of `update_address_cache`, with the time of the call. -/
structure AddressUpdate where
  lat : CStr
  lon : CStr
  addr : CStr
  now : ℤ
  deriving DecidableEq

namespace AddressUpdate

/-- A fresh entry: `strdup`. -/
def fresh (F : Doubles D) (u : AddressUpdate) : AddressEntry D where
  lat := u.lat
  lon := u.lon
  dLat := F.atof u.lat
  dLon := F.atof u.lon
  addr := u.addr
  ts := u.now

/-- An entry that is overwritten: `realloc` and `xstrlcpy` with `strlen` for the size. -/
def reused (F : Doubles D) (u : AddressUpdate) : AddressEntry D where
  lat := xstrlcpy u.lat u.lat.length
  lon := xstrlcpy u.lon u.lon.length
  dLat := F.atof u.lat
  dLon := F.atof u.lon
  addr := xstrlcpy u.addr u.addr.length
  ts := u.now

/-- The call is accepted. -/
def Accepted (F : Doubles D) (u : AddressUpdate) : Prop :=
  F.coordOk u.lat = true ∧ F.coordOk u.lon = true

end AddressUpdate

/-- `update_address_cache`: the return value and the cache. -/
def updateAddressCache (F : Doubles D) (size : ℕ) (c : AddressCache D) (u : AddressUpdate) :
    ℤ × AddressCache D :=
  if !F.coordOk u.lat || !F.coordOk u.lon then (-1, c)
  else
    let entry := match c.entries c.idx with
      | some _ => u.reused F
      | none => u.fresh F
    let entries := Function.update c.entries c.idx (some entry)
    if size ≤ c.idx + 1 then (0, { c with entries := entries, idx := 0 })
    else
      (0, { c with
        entries := entries
        idx := c.idx + 1
        num := if c.num < size then c.num + 1 else c.num })

/-- The loop of `in_address_cache` over at most `n` entries from `idx` on: the first entry that
matches, and its index. -/
def addressScan (entries : ℕ → Option (AddressEntry D)) (isMatch : AddressEntry D → Bool) :
    ℕ → ℕ → Option (ℕ × AddressEntry D)
  | 0, _ => none
  | n + 1, idx =>
      match entries idx with
      | none => none
      | some e => if isMatch e then some (idx, e) else addressScan entries isMatch n (idx + 1)

/-- Whether an entry matches: by distance, or exactly. -/
def AddressEntry.matchesAt (F : Doubles D) (proximity : Bool) (lat lon : CStr)
    (e : AddressEntry D) : Bool :=
  if proximity then F.near (F.atof lat) (F.atof lon) e.dLat e.dLon
  else lat == e.lat && lon == e.lon

/-- `in_address_cache`: the address it copies to a buffer of `maxlen` bytes if it returns 1, and
the cache.  `proximity` is `address_lookup_proximity > 0`. -/
def inAddressCache (F : Doubles D) (size : ℕ) (proximity : Bool) (c : AddressCache D)
    (lat lon : CStr) (maxlen : ℕ) : Option CStr × AddressCache D :=
  match addressScan c.entries (AddressEntry.matchesAt F proximity lat lon) size 0 with
  | some (idx, e) =>
      (some (xmbStrncpy e.addr maxlen), { c with stat := updateCacheStat c.stat true idx })
  | none => (none, { c with stat := updateCacheStat c.stat false 0 })

/-! ## Sequences of updates -/

/-- The cache after a sequence of updates. -/
def cacheAfter (F : Doubles D) (size : ℕ) (us : List AddressUpdate) : AddressCache D :=
  us.foldl (fun c u => (updateAddressCache F size c u).2) {}

/-- What updates write, the latest first: the first `size` of them find a fresh entry. -/
def written (F : Doubles D) (size : ℕ) : List AddressUpdate → List (AddressEntry D)
  | [] => []
  | u :: us => (if us.length < size then u.fresh F else u.reused F) :: written F size us

@[simp] lemma written_length (F : Doubles D) (size : ℕ) : ∀ us : List AddressUpdate,
    (written F size us).length = us.length
  | [] => rfl
  | _ :: us => congrArg (· + 1) (written_length F size us)

/-- What an accepted update does. -/
lemma updateAddressCache_accepted {F : Doubles D} {u : AddressUpdate} (hu : u.Accepted F)
    (size : ℕ) (c : AddressCache D) :
    (updateAddressCache F size c u).1 = 0 ∧
      (updateAddressCache F size c u).2.entries = Function.update c.entries c.idx
        (some (if (c.entries c.idx).isSome then u.reused F else u.fresh F)) ∧
      (updateAddressCache F size c u).2.idx = if size ≤ c.idx + 1 then 0 else c.idx + 1 := by
  have hacc : (!F.coordOk u.lat || !F.coordOk u.lon) = false := by simp [hu.1, hu.2]
  simp only [updateAddressCache, hacc, Bool.false_eq_true, if_false]
  by_cases hwrap : size ≤ c.idx + 1 <;> cases c.entries c.idx <;> simp [hwrap]

/-- A slot has been written when there were more writes than slots before it. -/
lemma ringSlot_isSome {α : Type*} {size : ℕ} (vs : List α) {i : ℕ} (hi : i < size) : (ringSlot size vs i).isSome = decide (i < vs.length) := by
  rw [ringSlot_eq vs hi]
  split_ifs with hin
  · have hlt : (vs.length - 1 - i) % size < vs.length :=
      Nat.lt_of_le_of_lt (Nat.mod_le ..) (by omega)
    simp [hlt, hin]
  · simp [hin]

/-- The next position. -/
lemma next_mod {size : ℕ} (hsize : 0 < size) (n : ℕ) :
    (n + 1) % size = if size ≤ n % size + 1 then 0 else n % size + 1 := by
  have hlt := Nat.mod_lt n hsize
  have hn := Nat.div_add_mod n size
  split_ifs with hwrap
  · have hend : n + 1 = size * (n / size + 1) := by
      rw [Nat.mul_add]
      omega
    rw [hend, Nat.mul_mod_right]
  · have hin : n + 1 = size * (n / size) + (n % size + 1) := by omega
    have hmod : (size * (n / size) + (n % size + 1)) % size = n % size + 1 := by
      rw [Nat.mul_add_mod, Nat.mod_eq_of_lt (by omega)]
    exact (congrArg (· % size) hin).trans hmod

/-- **The entries are a ring of what the updates wrote.** -/
theorem entries_cacheAfter (F : Doubles D) {size : ℕ} (hsize : 0 < size)
    (us : List AddressUpdate) (hus : ∀ u ∈ us, u.Accepted F) :
    (∀ i < size, (cacheAfter F size us).entries i = ringSlot size (written F size us.reverse) i) ∧
      (∀ i, size ≤ i → (cacheAfter F size us).entries i = none) ∧
      (cacheAfter F size us).idx = us.length % size := by
  induction us using List.reverseRecOn with
  | nil => simp [cacheAfter, written, ringSlot]
  | append_singleton us u ih =>
      obtain ⟨hslot, hout, hidx⟩ := ih fun v hv => hus v (List.mem_append_left _ hv)
      have hu : u.Accepted F := hus u (by simp)
      have hcache : cacheAfter F size (us ++ [u])
          = (updateAddressCache F size (cacheAfter F size us) u).2 := by
        simp [cacheAfter]
      obtain ⟨-, hentries, hnext⟩ := updateAddressCache_accepted hu size (cacheAfter F size us)
      have hlt : us.length % size < size := Nat.mod_lt _ hsize
      have hsome : ((cacheAfter F size us).entries (us.length % size)).isSome
          = decide (size ≤ us.length) := by
        rw [hslot _ hlt, ringSlot_isSome _ hlt, written_length, List.length_reverse]
        rcases Nat.lt_or_ge us.length size with hfirst | hlap
        · simp [Nat.mod_eq_of_lt hfirst, hfirst]
        · have : us.length % size < us.length := by omega
          simp [this, hlap]
      rw [hidx] at hentries hnext
      rw [hcache, hentries, hnext]
      refine ⟨fun i hi => ?_, fun i hi => ?_, ?_⟩
      · rw [List.reverse_concat, written, ringSlot, written_length, List.length_reverse]
        by_cases hi' : us.length % size = i
        · subst hi'
          rw [Function.update_self, if_pos rfl, hsome]
          rcases Nat.lt_or_ge us.length size with hfirst | hlap
          · simp [hfirst]
          · simp [hlap]
        · rw [Function.update_of_ne (Ne.symm hi'), if_neg hi', hslot i hi]
      · rw [Function.update_of_ne (by omega), hout i hi]
      · rw [List.length_append, List.length_singleton, next_mod hsize]

/-- **The scan finds the first entry that matches**, when the entries are those of a list. -/
theorem addressScan_eq (isMatch : AddressEntry D → Bool) : ∀ (es : List (AddressEntry D))
    {entries : ℕ → Option (AddressEntry D)} {idx n : ℕ}, es.length ≤ n →
    (∀ k < n, entries (idx + k) = es[k]?) →
      (addressScan entries isMatch n idx).map Prod.snd = es.find? isMatch
  | [], entries, idx, 0, _, _ => rfl
  | [], entries, idx, n + 1, _, h => by
      have h0 : entries idx = none := h 0 (Nat.succ_pos n)
      rw [addressScan, h0]
      rfl
  | e :: es, entries, idx, 0, hlen, _ => absurd hlen (by simp)
  | e :: es, entries, idx, n + 1, hlen, h => by
      have h0 : entries idx = some e := h 0 (Nat.succ_pos n)
      have hrest : ∀ k < n, entries (idx + 1 + k) = es[k]? := by
        intro k hk
        have hk1 := h (k + 1) (by omega)
        rwa [show idx + (k + 1) = idx + 1 + k by omega] at hk1
      have ih := addressScan_eq isMatch es (by simpa using hlen) hrest
      rw [addressScan, h0, List.find?_cons]
      cases hmatch : isMatch e with
      | true => simp [hmatch]
      | false => simpa [hmatch] using ih

end G7
