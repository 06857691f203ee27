import G7Ctrl.Geocache.CacheFile
import G7Ctrl.Geocache.MinimapName

/-!
# The minimap cache (`update_minimap_cache`, `read_minimap_geocache`)

The minimap cache is a vector of `geocache_minimap_size` entries like the address cache, with the
image of each entry in a file of its own.  The reader goes on to the next slot only when it has
stored an entry: a line with another number of fields than seven is passed over, and so is one whose
image cannot be read.

* `MinimapCache`, `updateMinimapCache`, `readMinimapGeocache` — the cache and its two operations.
* `filePieces` — a file as `fgets` reads it.
* **`updateMinimapCache_cases`** — an update returns -1 and changes nothing, or writes one entry.
-/

namespace G7

variable {D : Type*}

/-- `struct minimap_cache_t` (`imgdata` with its size). -/
structure MinimapEntry (D : Type*) where
  lat : CStr
  lon : CStr
  dLat : D
  dLon : D
  zoom : ℕ
  width : ℕ
  height : ℕ
  filename : CStr
  imgdata : List Byte
  ts : ℤ

/-- `minimap_cache` with its indices and statistics. -/
structure MinimapCache (D : Type*) where
  entries : ℕ → Option (MinimapEntry D) := fun _ => none
  idx : ℕ := 0
  num : ℕ := 0
  stat : GeoCacheStat := {}

instance (F : Doubles D) (k : MinimapKey) : Decidable (k.Accepted F) :=
  decidable_of_iff (6 ≤ k.lat.length ∧ 6 ≤ k.lon.length ∧ F.coordOk k.lat = true ∧
      F.coordOk k.lon = true ∧ (1 ≤ k.zoom ∧ k.zoom ≤ 20) ∧ k.width ≤ 600 ∧ k.height ≤ 600)
    ⟨fun ⟨h1, h2, h3, h4, h5, h6, h7⟩ => ⟨h1, h2, h3, h4, h5, h6, h7⟩,
      fun ⟨h1, h2, h3, h4, h5, h6, h7⟩ => ⟨h1, h2, h3, h4, h5, h6, h7⟩⟩

/-- The entry of an update; an older one is overwritten like in the address cache. -/
def minimapEntry (F : Doubles D) (reused : Bool) (k : MinimapKey) (filename : CStr)
    (imgdata : List Byte) (now : ℤ) : MinimapEntry D where
  lat := if reused then xstrlcpy k.lat k.lat.length else k.lat
  lon := if reused then xstrlcpy k.lon k.lon.length else k.lon
  dLat := F.atof k.lat
  dLon := F.atof k.lon
  zoom := k.zoom
  width := k.width
  height := k.height
  filename := filename
  imgdata := imgdata
  ts := now

/-- `update_minimap_cache`: the return value and the cache. -/
def updateMinimapCache (F : Doubles D) (size : ℕ) (c : MinimapCache D) (k : MinimapKey)
    (imgdata : List Byte) (now : ℤ) : Checked (ℤ × MinimapCache D) :=
  if ¬ k.Accepted F then .done (-1, c)
  else
    match getMinimapCacheFilename 255 k with
    | .fault => .fault
    | .timeout => .timeout
    | .done none => .done (-1, c)
    | .done (some filename) =>
        let entry := minimapEntry F (c.entries c.idx).isSome k filename imgdata now
        let entries := Function.update c.entries c.idx (some entry)
        if size ≤ c.idx + 1 then .done (0, { c with entries := entries, idx := 0 })
        else
          .done (0, { c with
            entries := entries
            idx := c.idx + 1
            num := if c.num < size then c.num + 1 else c.num })

/-- `DEFAULT_MINIMAP_GEOCACHE_DIR` -/
def minimapDir : CStr := str "map_cache"

/-- What a piece of the file is to the reader. -/
inductive MinimapLine (D : Type*) where
  /-- It has not seven fields, or its image cannot be read. -/
  | other
  /-- It is not valid. -/
  | invalid
  | entry (e : MinimapEntry D)

/-- The body of the loop of `read_minimap_geocache` up to the index; `readFile` is what
`read_file_buffer` finds in a file. -/
def minimapLine (F : Doubles D) (dbDir : CStr) (readFile : CStr → Option (List Byte))
    (lbuff : CStr) : MinimapLine D :=
  match xstrsplitfields (xstrtrimCrnl lbuff) (ch ';') with
  | some [ts, lat, lon, zoom, width, height, filename] =>
      if F.outOfRange (F.xatof lat) || F.outOfRange (F.xatof lon) then .invalid
      else
        match readFile (snprintf 512 (dbDir ++ ch '/' :: (minimapDir ++ ch '/' :: filename))) with
        | none => .other
        | some imgdata => .entry
            { lat := lat, lon := lon, dLat := F.xatof lat, dLon := F.xatof lon
              zoom := (xatol zoom % 2 ^ 32).toNat
              width := (xatol width % 2 ^ 32).toNat
              height := (xatol height % 2 ^ 32).toNat
              filename := filename, imgdata := imgdata, ts := xatol ts }
  | _ => .other

/-- The pieces of a file, of at most 254 characters, up to `n` of them. -/
def filePieces : ℕ → CStr → List CStr
  | 0, _ => []
  | _ + 1, [] => []
  | n + 1, b :: bs => (fgets 254 (b :: bs)).1 :: filePieces n (fgets 254 (b :: bs)).2

/-- What `read_minimap_geocache` does after its loop. -/
def MinimapCache.readDone (c : MinimapCache D) : MinimapCache D :=
  { c with num := c.idx, stat := { c.stat with maxIdx := c.idx } }

/-- The loop of `read_minimap_geocache` over the pieces of the file. -/
def readMinimapLoop (line : CStr → MinimapLine D) (size : ℕ) :
    List CStr → MinimapCache D → ℤ × MinimapCache D
  | [], c => (0, c.readDone)
  | lbuff :: lines, c =>
      if size - 1 ≤ c.idx then (0, c.readDone)
      else
        match line lbuff with
        | .invalid => (-1, { c with idx := 0 })
        | .other => readMinimapLoop line size lines c
        | .entry e => readMinimapLoop line size lines
            { c with entries := Function.update c.entries c.idx (some e), idx := c.idx + 1 }

/-- `read_minimap_geocache`, of a file with this text.  (No piece is empty, so there are not more of
them than characters.) -/
def readMinimapGeocache (F : Doubles D) (dbDir : CStr) (readFile : CStr → Option (List Byte))
    (size : ℕ) (text : CStr) (c : MinimapCache D) : ℤ × MinimapCache D :=
  readMinimapLoop (minimapLine F dbDir readFile) size (filePieces text.length text)
    { c with idx := 0 }

/-- The call makes an entry: its arguments are accepted, and they have a name. -/
structure MinimapKey.MakesEntry (F : Doubles D) (k : MinimapKey) : Prop where
  accepted : k.Accepted F
  named : ∃ filename, getMinimapCacheFilename 255 k = .done (some filename)

/-- **An update** returns -1 and changes nothing, or writes the entry of its slot. -/
theorem updateMinimapCache_cases {F : Doubles D} {size : ℕ} {c c' : MinimapCache D}
    {k : MinimapKey} {imgdata : List Byte} {now ret : ℤ}
    (h : updateMinimapCache F size c k imgdata now = .done (ret, c')) :
    (¬ k.MakesEntry F ∧ ret = -1 ∧ c' = c) ∨ (k.MakesEntry F ∧ ret = 0 ∧ ∃ e,
      c'.entries = Function.update c.entries c.idx (some e) ∧
      c'.idx = (if size ≤ c.idx + 1 then 0 else c.idx + 1) ∧
      c'.num = if size ≤ c.idx + 1 then c.num else if c.num < size then c.num + 1 else c.num) := by
  rw [updateMinimapCache] at h
  by_cases hacc : k.Accepted F
  · rw [if_neg (not_not_intro hacc)] at h
    cases hname : getMinimapCacheFilename 255 k with
    | fault => simp [hname] at h
    | timeout => simp [hname] at h
    | done name =>
        rw [hname] at h
        cases name with
        | none =>
            simp only [Checked.done.injEq, Prod.mk.injEq] at h
            refine Or.inl ⟨fun hk => ?_, h.1.symm, h.2.symm⟩
            obtain ⟨filename, hfilename⟩ := hk.named
            rw [hname] at hfilename
            cases hfilename
        | some filename =>
            have hk : k.MakesEntry F := ⟨hacc, filename, hname⟩
            simp only at h
            by_cases hwrap : size ≤ c.idx + 1
            · rw [if_pos hwrap, Checked.done.injEq, Prod.mk.injEq] at h
              obtain ⟨rfl, rfl⟩ := h
              exact Or.inr ⟨hk, rfl, _, rfl, (if_pos hwrap).symm, (if_pos hwrap).symm⟩
            · rw [if_neg hwrap, Checked.done.injEq, Prod.mk.injEq] at h
              obtain ⟨rfl, rfl⟩ := h
              exact Or.inr ⟨hk, rfl, _, rfl, (if_neg hwrap).symm, (if_neg hwrap).symm⟩
  · rw [if_pos hacc] at h
    simp only [Checked.done.injEq, Prod.mk.injEq] at h
    exact Or.inl ⟨fun hk => hacc hk.accepted, h.1.symm, h.2.symm⟩

end G7
