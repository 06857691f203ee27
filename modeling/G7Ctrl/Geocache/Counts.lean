import G7Ctrl.Core.CountedRing
import G7Ctrl.Core.Runs
import G7Ctrl.Geocache.Backup
import G7Ctrl.Geocache.MinimapCache

/-!
# The number of entries of the caches (`get_cache_num`)

Each cache has a counter of its entries beside the position of the next one.  An update raises the
counter unless it goes back to the first slot, and a reader sets it to the position it ends at,
which the reader of the addresses also moves on for lines it does not store.

* `Geocaches`, `geocaches` — the two caches, and what happens to them.
* `getCacheNum`, `CountsEntries` — what is reported, and that it is right.
* `MeetsCount` — what keeps it right.
* **`ring_readCacheLoop`**, **`ring_readMinimapLoop`** — the readers load a counted ring.
* **`countsEntries_of_reachable`** — the number is right as long as no update reaches the last slot
  and every file that is read has a line for every entry.
-/

namespace G7

variable {D : Type*}

/-! ## The caches as counted rings -/

/-- The counters of the address cache. -/
def AddressCache.ring (c : AddressCache D) : CountedRing where
  used i := (c.entries i).isSome
  idx := c.idx
  num := c.num

/-- The counters of the minimap cache. -/
def MinimapCache.ring (c : MinimapCache D) : CountedRing where
  used i := (c.entries i).isSome
  idx := c.idx
  num := c.num

/-- An entry uses its slot. -/
lemma isSome_update {α : Type*} (entries : ℕ → Option α) (idx : ℕ) (e : α) :
    (fun i => (Function.update entries idx (some e) i).isSome)
      = Function.update (fun i => (entries i).isSome) idx true := by
  funext i
  by_cases hi : i = idx
  · subst hi
    simp
  · simp [Function.update_of_ne hi]

/-- An update of the address cache puts a slot. -/
lemma ring_updateAddressCache (F : Doubles D) (size : ℕ) (c : AddressCache D)
    (u : AddressUpdate) : (¬ u.Accepted F ∧ (updateAddressCache F size c u).2 = c) ∨
      (u.Accepted F ∧ (updateAddressCache F size c u).2.ring = c.ring.put size) := by
  by_cases hu : u.Accepted F
  · refine Or.inr ⟨hu, ?_⟩
    have hacc : (!F.coordOk u.lat || !F.coordOk u.lon) = false := by simp [hu.1, hu.2]
    simp only [updateAddressCache, hacc, Bool.false_eq_true, if_false]
    by_cases hwrap : size ≤ c.idx + 1
    · simp [hwrap, AddressCache.ring, CountedRing.put, isSome_update]
    · simp only [hwrap, if_false, AddressCache.ring, CountedRing.put, isSome_update]
      congr
  · refine Or.inl ⟨hu, ?_⟩
    have hrej : (!F.coordOk u.lat || !F.coordOk u.lon) = true := by
      by_contra hacc
      simp only [Bool.not_eq_true, Bool.or_eq_false_iff, Bool.not_eq_false'] at hacc
      exact hu ⟨hacc.1, hacc.2⟩
    simp [updateAddressCache, hrej]

/-- An update of the minimap cache puts a slot. -/
lemma ring_updateMinimapCache {F : Doubles D} {size : ℕ} {c c' : MinimapCache D}
    {k : MinimapKey} {imgdata : List Byte} {now ret : ℤ}
    (h : updateMinimapCache F size c k imgdata now = .done (ret, c')) :
    (¬ k.MakesEntry F ∧ c' = c) ∨ (k.MakesEntry F ∧ c'.ring = c.ring.put size) := by
  rcases updateMinimapCache_cases h with ⟨hk, -, hc⟩ | ⟨hk, -, e, hentries, hidx, hnum⟩
  · exact Or.inl ⟨hk, hc⟩
  · refine Or.inr ⟨hk, ?_⟩
    simp only [MinimapCache.ring, CountedRing.put, hentries, hidx, hnum, isSome_update]
    congr

/-- The line has an entry. -/
def CacheLine.isEntry : CacheLine D → Bool
  | .entry _ => true
  | _ => false

/-- The line has an entry whose image can be read. -/
def MinimapLine.isEntry : MinimapLine D → Bool
  | .entry _ => true
  | _ => false

/-- `read_address_geocache`, of a file with this text. -/
def rereadAddressGeocache (F : Doubles D) (size : ℕ) (text : CStr) (c : AddressCache D) :
    ℤ × AddressCache D :=
  readCacheLoop F (size - 1) text { c with idx := 0 }

/-- What the lines of an address file are to the reader: whether they have an entry. -/
def addressLines (F : Doubles D) (size : ℕ) (text : CStr) : List Bool :=
  (filePieces (size - 1) text).map fun lbuff => (cacheLine F lbuff).isEntry

/-- The lines of a minimap file that have an entry. -/
def minimapLines (line : CStr → MinimapLine D) (text : CStr) : ℕ :=
  (filePieces text.length text).countP fun lbuff => (line lbuff).isEntry

/-! ## The readers -/

/-- Slots from `idx` on that have something in them. -/
def usedFrom (idx : ℕ) (stored : List Bool) (i : ℕ) : Bool :=
  decide (idx ≤ i) && stored.getD (i - idx) false

lemma usedFrom_nil (idx i : ℕ) : usedFrom idx [] i = false := by
  simp [usedFrom]

lemma usedFrom_cons (idx : ℕ) (b : Bool) (bs : List Bool) (i : ℕ) :
    usedFrom idx (b :: bs) i = ((decide (i = idx) && b) || usedFrom (idx + 1) bs i) := by
  rcases Nat.lt_trichotomy i idx with hlt | rfl | hgt
  · have h1 : ¬ idx ≤ i := by omega
    have h2 : ¬ idx + 1 ≤ i := by omega
    have h3 : i ≠ idx := by omega
    simp [usedFrom, h1, h2, h3]
  · simp [usedFrom]
  · obtain ⟨k, rfl⟩ : ∃ k, i = idx + 1 + k := ⟨i - (idx + 1), by omega⟩
    have h1 : idx + 1 + k - idx = k + 1 := by omega
    have h2 : idx + 1 + k - (idx + 1) = k := by omega
    have h3 : idx + 1 + k ≠ idx := by omega
    have h4 : idx ≤ idx + 1 + k := by omega
    simp [usedFrom, h1, h2, h3, h4]

/-- **The reader of the addresses** goes on one slot with every line. -/
theorem ring_readCacheLoop (F : Doubles D) : ∀ (n : ℕ) (text : CStr) (c : AddressCache D),
    (readCacheLoop F n text c).1 = 0 →
    let stored := (filePieces n text).map fun lbuff => (cacheLine F lbuff).isEntry
    (readCacheLoop F n text c).2.ring =
      { used := fun i => usedFrom c.idx stored i || (c.entries i).isSome
        idx := c.idx + stored.length
        num := c.idx + stored.length }
  | 0, text, c, _ => by
      simp [readCacheLoop, filePieces, AddressCache.readDone, AddressCache.ring, usedFrom_nil]
  | n + 1, [], c, _ => by
      simp [readCacheLoop, filePieces, AddressCache.readDone, AddressCache.ring, usedFrom_nil]
  | n + 1, b :: bs, c, h => by
      simp only [filePieces, List.map_cons, List.length_cons]
      simp only [readCacheLoop] at h ⊢
      cases hline : cacheLine F (fgets 254 (b :: bs)).1 with
      | invalid => simp [hline] at h
      | other =>
          simp only [hline] at h ⊢
          have ih := ring_readCacheLoop F n _ _ h
          rw [ih]
          simp only [CacheLine.isEntry, usedFrom_cons, Bool.and_false, Bool.false_or]
          congr 1 <;> omega
      | entry e =>
          simp only [hline] at h ⊢
          have ih := ring_readCacheLoop F n _ _ h
          rw [ih]
          simp only [CacheLine.isEntry, usedFrom_cons, Bool.and_true]
          congr 1
          · funext i
            by_cases hi : i = c.idx
            · subst hi
              simp
            · simp [hi]
          · omega
          · omega

/-- **The reader of the minimaps** goes on with the lines it stores. -/
theorem ring_readMinimapLoop (line : CStr → MinimapLine D) (size : ℕ) :
    ∀ (lines : List CStr) (c : MinimapCache D), c.idx ≤ size - 1 →
    (readMinimapLoop line size lines c).1 = 0 →
    let stored := min (size - 1 - c.idx) (lines.countP fun lbuff => (line lbuff).isEntry)
    (readMinimapLoop line size lines c).2.ring =
      { used := fun i => usedFrom c.idx (List.replicate stored true) i || (c.entries i).isSome
        idx := c.idx + stored
        num := c.idx + stored }
  | [], c, _, _ => by
      simp [readMinimapLoop, MinimapCache.readDone, MinimapCache.ring, usedFrom_nil]
  | lbuff :: lines, c, hidx, h => by
      rw [readMinimapLoop] at h ⊢
      split_ifs at h ⊢ with hfull
      · have hroom : size - 1 - c.idx = 0 := by omega
        simp [hroom, MinimapCache.readDone, MinimapCache.ring, usedFrom_nil]
      · cases hline : line lbuff with
        | invalid => simp [hline] at h
        | other =>
            simp only [hline] at h ⊢
            have ih := ring_readMinimapLoop line size lines c hidx h
            simp only [List.countP_cons, hline, MinimapLine.isEntry, Bool.false_eq_true, if_false,
              Nat.add_zero]
            exact ih
        | entry e =>
            simp only [hline] at h ⊢
            have ih := ring_readMinimapLoop line size lines _ (by simp only; omega) h
            rw [ih]
            obtain ⟨room, hroom⟩ : ∃ room, size - 1 - c.idx = room + 1 :=
              ⟨size - 1 - c.idx - 1, by omega⟩
            have hroom' : size - 1 - (c.idx + 1) = room := by omega
            simp only [List.countP_cons, hline, MinimapLine.isEntry, if_true, hroom, hroom',
              Nat.add_min_add_right, List.replicate_succ, usedFrom_cons, Bool.and_true]
            congr 1
            · funext i
              by_cases hi : i = c.idx
              · subst hi
                simp
              · simp [hi]
            · omega
            · omega

/-! ## The two caches -/

/-- `geocache_address_size` and `geocache_minimap_size`, which the configuration keeps positive. -/
structure CacheSizes where
  address : ℕ
  minimap : ℕ
  address_pos : 0 < address
  minimap_pos : 0 < minimap

/-- The size of a cache. -/
def CacheSizes.size (sizes : CacheSizes) : GeoCache → ℕ
  | .addr => sizes.address
  | .minimap => sizes.minimap

/-- The two caches. -/
structure Geocaches (D : Type*) where
  address : AddressCache D := {}
  minimap : MinimapCache D := {}

/-- The counters of a cache. -/
def Geocaches.ring (s : Geocaches D) : GeoCache → CountedRing
  | .addr => s.address.ring
  | .minimap => s.minimap.ring

/-- `get_cache_num`: the number of entries of a cache, and how many it can have. -/
def getCacheNum (sizes : CacheSizes) (s : Geocaches D) : GeoCache → ℕ × ℕ
  | .addr => (s.address.num, sizes.address)
  | .minimap => (s.minimap.num, sizes.minimap)

/-- What is reported for each cache is the number of its entries, and these come first. -/
def CountsEntries (sizes : CacheSizes) (s : Geocaches D) : Prop :=
  ∀ g, CountsUsed (sizes.size g) (getCacheNum sizes s g).1 (s.ring g).used

/-- What happens to the caches. -/
inductive CacheStep
  | updateAddress (u : AddressUpdate)
  | updateMinimap (k : MinimapKey) (imgdata : List Byte) (now : ℤ)
  | readAddress (text : CStr)
  | readMinimap (dbDir : CStr) (readFile : CStr → Option (List Byte)) (text : CStr)

/-- **The caches**: updates, and readers that are successful. -/
def geocaches (F : Doubles D) (sizes : CacheSizes) : StepSystem (Geocaches D) CacheStep where
  init s := s = {}
  step s
    | .updateAddress u =>
        some { s with address := (updateAddressCache F sizes.address s.address u).2 }
    | .updateMinimap k imgdata now =>
        match updateMinimapCache F sizes.minimap s.minimap k imgdata now with
        | .done (_, c) => some { s with minimap := c }
        | _ => none
    | .readAddress text =>
        if (rereadAddressGeocache F sizes.address text s.address).1 = 0 then
          some { s with address := (rereadAddressGeocache F sizes.address text s.address).2 }
        else none
    | .readMinimap dbDir readFile text =>
        if (readMinimapGeocache F dbDir readFile sizes.minimap text s.minimap).1 = 0 then
          some { s with minimap :=
            (readMinimapGeocache F dbDir readFile sizes.minimap text s.minimap).2 }
        else none

/-- What keeps the counters right: an update does not reach the last slot; a file has lines for all
entries there are, and what goes beyond them has an entry in every line. -/
def MeetsCount (F : Doubles D) (sizes : CacheSizes) (s : Geocaches D) : CacheStep → Prop
  | .updateAddress u => u.Accepted F → s.address.idx + 1 < sizes.address
  | .updateMinimap k _ _ => k.MakesEntry F → s.minimap.idx + 1 < sizes.minimap
  | .readAddress text =>
      CountedRing.LoadsAll (addressLines F sizes.address text) s.address.ring
  | .readMinimap dbDir readFile text =>
      s.minimap.num ≤ minimapLines (minimapLine F dbDir readFile) text

lemma filePieces_length_le : ∀ (n : ℕ) (text : CStr), (filePieces n text).length ≤ n
  | 0, _ => Nat.le_refl 0
  | _ + 1, [] => Nat.zero_le _
  | n + 1, _ :: _ => Nat.succ_le_succ (filePieces_length_le n _)

/-- A reader that begins with the first slot loads the ring. -/
lemma load_eq (stored : List Bool) (r : CountedRing) : r.load stored =
    { used := fun i => usedFrom 0 stored i || r.used i
      idx := 0 + stored.length
      num := 0 + stored.length } := by
  simp [CountedRing.load, usedFrom]

/-- What a step does to the ring of a cache, and what the step has to meet. -/
inductive RingStep (size : ℕ) (meets : Prop) (r r' : CountedRing) : Prop
  | same : r' = r → meets → RingStep size meets r r'
  | put : r' = r.put size → (meets ↔ r.idx + 1 < size) → RingStep size meets r r'
  | load (stored : List Bool) : stored.length < size → r' = r.load stored →
      (r.num < size → (meets ↔ CountedRing.LoadsAll stored r)) → RingStep size meets r r'

lemma num_getCacheNum (sizes : CacheSizes) (s : Geocaches D) (g : GeoCache) :
    (getCacheNum sizes s g).1 = (s.ring g).num := by
  cases g <;> rfl

/-- The address cache after a file was read. -/
lemma ring_rereadAddressGeocache {F : Doubles D} {size : ℕ} {text : CStr} {c : AddressCache D}
    (h : (rereadAddressGeocache F size text c).1 = 0) :
    (rereadAddressGeocache F size text c).2.ring = c.ring.load (addressLines F size text) :=
  (ring_readCacheLoop F (size - 1) text { c with idx := 0 } h).trans
    (load_eq (addressLines F size text) c.ring).symm

/-- The minimap cache after a file was read. -/
lemma ring_readMinimapGeocache {F : Doubles D} {dbDir : CStr}
    {readFile : CStr → Option (List Byte)} {size : ℕ} {text : CStr} {c : MinimapCache D}
    (h : (readMinimapGeocache F dbDir readFile size text c).1 = 0) :
    (readMinimapGeocache F dbDir readFile size text c).2.ring = c.ring.load
      (List.replicate (min (size - 1) (minimapLines (minimapLine F dbDir readFile) text)) true) := by
  have hring := ring_readMinimapLoop (minimapLine F dbDir readFile) size
    (filePieces text.length text) { c with idx := 0 } (Nat.zero_le _) h
  rw [load_eq, List.length_replicate]
  exact hring

/-- Lines that all have an entry load everything if they are enough. -/
lemma loadsAll_replicate (n : ℕ) (r : CountedRing) :
    CountedRing.LoadsAll (List.replicate n true) r ↔ r.num ≤ n := by
  refine ⟨fun h => by simpa using h.reaches, fun h => ⟨by simpa using h, fun i _ hi => ?_⟩⟩
  rw [List.length_replicate] at hi
  simp [hi]

/-- **Every step** is one of these for one of the caches, and leaves the other alone. -/
theorem step_ring {F : Doubles D} {sizes : CacheSizes} {s s' : Geocaches D} {a : CacheStep}
    (h : (geocaches F sizes).step s a = some s') :
    ∃ g, (∀ g', g' ≠ g → s'.ring g' = s.ring g') ∧
      RingStep (sizes.size g) (MeetsCount F sizes s a) (s.ring g) (s'.ring g) := by
  cases a with
  | updateAddress u =>
      simp only [geocaches, Option.some.injEq] at h
      subst h
      refine ⟨.addr, fun g' hg' => by cases g' <;> trivial, ?_⟩
      rcases ring_updateAddressCache F sizes.address s.address u with ⟨hu, hc⟩ | ⟨hu, hring⟩
      · exact .same (congrArg AddressCache.ring hc) fun hacc => absurd hacc hu
      · exact .put hring (forall_prop_of_true hu)
  | updateMinimap k imgdata now =>
      simp only [geocaches] at h
      split at h
      · rename_i ret c hdone
        rw [Option.some.injEq] at h
        subst h
        refine ⟨.minimap, fun g' hg' => by cases g' <;> trivial, ?_⟩
        rcases ring_updateMinimapCache hdone with ⟨hk, hc⟩ | ⟨hk, hring⟩
        · exact .same (congrArg MinimapCache.ring hc) fun hmakes => absurd hmakes hk
        · exact .put hring (forall_prop_of_true hk)
      · cases h
  | readAddress text =>
      simp only [geocaches] at h
      split_ifs at h with hret
      rw [Option.some.injEq] at h
      subst h
      refine ⟨.addr, fun g' hg' => by cases g' <;> trivial, ?_⟩
      have hlen : (addressLines F sizes.address text).length < sizes.address := by
        have hle := filePieces_length_le (sizes.address - 1) text
        have hpos := sizes.address_pos
        rw [addressLines, List.length_map]
        omega
      exact .load _ hlen (ring_rereadAddressGeocache hret) fun _ => Iff.rfl
  | readMinimap dbDir readFile text =>
      simp only [geocaches] at h
      split_ifs at h with hret
      rw [Option.some.injEq] at h
      subst h
      refine ⟨.minimap, fun g' hg' => by cases g' <;> trivial, ?_⟩
      have hpos := sizes.minimap_pos
      refine .load _ ?_ (ring_readMinimapGeocache hret) fun hlt => ?_
      · rw [List.length_replicate]
        exact Nat.lt_of_le_of_lt (Nat.min_le_left _ _) (Nat.sub_lt hpos Nat.one_pos)
      · rw [loadsAll_replicate, Nat.le_min]
        exact (and_iff_right (Nat.le_sub_one_of_lt hlt)).symm

/-- Neither cache was ever filled. -/
def FreshCaches (sizes : CacheSizes) (s : Geocaches D) : Prop :=
  ∀ g, CountedRing.Fresh (sizes.size g) (s.ring g)

lemma FreshCaches.countsEntries {sizes : CacheSizes} {s : Geocaches D} (h : FreshCaches sizes s) :
    CountsEntries sizes s := by
  intro g
  rw [num_getCacheNum]
  exact (h g).countsUsed

/-- **A step keeps the counters right** exactly if it meets the condition. -/
theorem step_countsEntries {F : Doubles D} {sizes : CacheSizes} {s s' : Geocaches D}
    {a : CacheStep} (hs : FreshCaches sizes s) (h : (geocaches F sizes).step s a = some s') :
    (CountsEntries sizes s' ↔ MeetsCount F sizes s a) ∧
      (MeetsCount F sizes s a → FreshCaches sizes s') := by
  obtain ⟨g, hother, hring⟩ := step_ring h
  have hone : CountsEntries sizes s' ↔
      CountsUsed (sizes.size g) (s'.ring g).num (s'.ring g).used := by
    refine ⟨fun hall => num_getCacheNum sizes s' g ▸ hall g, fun hg g' => ?_⟩
    rw [num_getCacheNum]
    by_cases hg' : g' = g
    · exact hg' ▸ hg
    · rw [hother g' hg']
      exact (hs g').countsUsed
  have hfresh : CountedRing.Fresh (sizes.size g) (s'.ring g) → FreshCaches sizes s' := by
    intro hg g'
    by_cases hg' : g' = g
    · exact hg' ▸ hg
    · rw [hother g' hg']
      exact hs g'
  rw [hone]
  cases hring with
  | same heq hmeets =>
      rw [heq] at hfresh ⊢
      exact ⟨iff_of_true (hs g).countsUsed hmeets, fun _ => hfresh (hs g)⟩
  | put heq hmeets =>
      rw [heq] at hfresh ⊢
      exact ⟨(CountedRing.put_countsUsed_iff (hs g)).trans hmeets.symm,
        fun hm => hfresh ((hs g).put (hmeets.mp hm))⟩
  | load stored hlen heq hmeets =>
      have hmeets := hmeets (hs g).lt
      rw [heq] at hfresh ⊢
      exact ⟨(CountedRing.load_countsUsed_iff (hs g) hlen).trans hmeets.symm,
        fun hm => hfresh ((hs g).load hlen (hmeets.mp hm))⟩

lemma freshCaches_init (sizes : CacheSizes) : FreshCaches sizes ({} : Geocaches D) := by
  intro g
  cases g with
  | addr => exact ⟨rfl, sizes.address_pos, fun i => by simp [Geocaches.ring, AddressCache.ring]⟩
  | minimap => exact ⟨rfl, sizes.minimap_pos, fun i => by simp [Geocaches.ring, MinimapCache.ring]⟩

lemma freshCaches_of_reachable {F : Doubles D} {sizes : CacheSizes} {s : Geocaches D}
    (hs : (geocaches F sizes).ReachableIf (MeetsCount F sizes) s) : FreshCaches sizes s := by
  refine StepSystem.ReachableIf.invariant (fun t ht => ?_) (fun t a t' _ ih hm ht => ?_) hs
  · obtain rfl : t = {} := ht
    exact freshCaches_init sizes
  · exact (step_countsEntries ih ht).2 hm

/-- **The number of entries is right** in every state that is reached by steps that meet the
condition, and the next step keeps it right exactly if it meets the condition as well. -/
theorem countsEntries_of_reachable (F : Doubles D) (sizes : CacheSizes) {s : Geocaches D}
    (hs : (geocaches F sizes).ReachableIf (MeetsCount F sizes) s) :
    CountsEntries sizes s ∧ ∀ a s', (geocaches F sizes).step s a = some s' →
      (CountsEntries sizes s' ↔ MeetsCount F sizes s a) := by
  have hfresh := freshCaches_of_reachable hs
  exact ⟨hfresh.countsEntries, fun a s' h => (step_countsEntries hfresh h).1⟩

/-- The smallest sizes that can be configured. -/
def smallestSizes : CacheSizes where
  address := 100
  minimap := 200
  address_pos := by decide
  minimap_pos := by decide

/-- A file with three addresses. -/
def threeAddresses : CStr :=
  fileText ([stockholm, uppsala, stockholm].map fun u => (u.fresh decimalDoubles).record)

/-- The caches after two addresses were entered. -/
def twoEntered : Geocaches ℚ where
  address := (updateAddressCache decimalDoubles 100
    (updateAddressCache decimalDoubles 100 {} stockholm).2 uppsala).2

/-- Then the file is read. -/
def threeRead : Geocaches ℚ where
  address := (rereadAddressGeocache decimalDoubles 100 threeAddresses twoEntered.address).2

/-- And a map is entered. -/
def mapEntered : Geocaches ℚ :=
  { threeRead with
    minimap :=
      { entries := Function.update (fun _ => none) 0
          (some (minimapEntry decimalDoubles false stockholmMap stockholmMap.filename [] 0))
        idx := 1
        num := 1 } }

/-- The numbers after two updates, a read and another update. -/
theorem countsEntries_mapEntered :
    (geocaches decimalDoubles smallestSizes).ReachableIf
        (MeetsCount decimalDoubles smallestSizes) mapEntered ∧
      CountsEntries smallestSizes mapEntered ∧
      getCacheNum smallestSizes mapEntered .addr = (3, 100) ∧
      getCacheNum smallestSizes mapEntered .minimap = (1, 200) := by
  have hlines : addressLines decimalDoubles 100 threeAddresses = List.replicate 3 true := by
    decide +kernel
  have hread :
      (rereadAddressGeocache decimalDoubles 100 threeAddresses twoEntered.address).1 = 0 := by
    decide +kernel
  have hmap : updateMinimapCache decimalDoubles 200 threeRead.minimap stockholmMap [] 0 =
      .done (0, mapEntered.minimap) := by
    rw [updateMinimapCache, if_neg (not_not_intro accepted_stockholmMap),
      getMinimapCacheFilename_eq accepted_stockholmMap fitsName_stockholmMap.1
        fitsName_stockholmMap.2.2]
    rfl
  have htwo : (geocaches decimalDoubles smallestSizes).ReachableIf
      (MeetsCount decimalDoubles smallestSizes) twoEntered := by
    refine ((StepSystem.ReachableIf.start rfl).next (a := .updateAddress stockholm) ?_ rfl).next
      (a := .updateAddress uppsala) ?_ rfl
    · exact fun _ => by decide
    · exact fun _ => by decide +kernel
  have hthree : (geocaches decimalDoubles smallestSizes).ReachableIf
      (MeetsCount decimalDoubles smallestSizes) threeRead := by
    refine htwo.next (a := .readAddress threeAddresses) ?_ (if_pos hread)
    rw [MeetsCount, show smallestSizes.address = 100 from rfl, hlines, loadsAll_replicate]
    decide +kernel
  have hreach : (geocaches decimalDoubles smallestSizes).ReachableIf
      (MeetsCount decimalDoubles smallestSizes) mapEntered := by
    refine hthree.next (a := .updateMinimap stockholmMap [] 0) ?_ ?_
    · exact fun _ => by decide
    · simp only [geocaches, show smallestSizes.minimap = 200 from rfl, hmap]
      rfl
  exact ⟨hreach, (countsEntries_of_reachable decimalDoubles smallestSizes hreach).1,
    by decide +kernel, rfl⟩

/-- The caches with so many addresses of Stockholm. -/
def stockholms : ℕ → Geocaches ℚ
  | 0 => {}
  | n + 1 => { address := (updateAddressCache decimalDoubles 100 (stockholms n).address stockholm).2 }

lemma accepted_stockholm : stockholm.Accepted decimalDoubles :=
  accepted_stockholm_uppsala stockholm List.mem_cons_self

/-- The last slot is reached with the hundredth. -/
lemma reachable_stockholms : ∀ n < 100,
    (geocaches decimalDoubles smallestSizes).ReachableIf
        (MeetsCount decimalDoubles smallestSizes) (stockholms n) ∧
      (stockholms n).address.idx = n
  | 0, _ => ⟨.start rfl, rfl⟩
  | n + 1, hn => by
      obtain ⟨hreach, hidx⟩ := reachable_stockholms n (by omega)
      have hnext := (updateAddressCache_accepted accepted_stockholm 100 (stockholms n).address).2.2
      rw [hidx, if_neg (by omega)] at hnext
      have hmeets : MeetsCount decimalDoubles smallestSizes (stockholms n)
          (.updateAddress stockholm) := by
        intro _
        rw [hidx]
        exact hn
      refine ⟨hreach.next hmeets ?_, hnext⟩
      cases n <;> rfl

/-- **A full cache reports one entry too few.** -/
theorem fullCache_miscounted : ¬ ∀ (F : Doubles ℚ) (sizes : CacheSizes) (s : Geocaches ℚ),
    (geocaches F sizes).Reachable s → CountsEntries sizes s := by
  intro h
  obtain ⟨hreach, hidx⟩ := reachable_stockholms 99 (by decide)
  have hstep : (geocaches decimalDoubles smallestSizes).step (stockholms 99)
      (.updateAddress stockholm) = some (stockholms 100) := rfl
  have hcounts := h decimalDoubles smallestSizes (stockholms 100)
    (hreach.reachable.next trivial hstep)
  have hmeets := (step_countsEntries (freshCaches_of_reachable hreach) hstep).1.mp hcounts
  have hroom := hmeets accepted_stockholm
  rw [hidx] at hroom
  exact absurd hroom (by decide)

end G7
