import G7Ctrl.Geocache.CacheRing
import G7Ctrl.Core.Memory
import G7Ctrl.Xstr.Number

/-!
# The names of the minimap files (`get_minimap_cache_filename`)

The image of a minimap is kept in a file whose name is made of the latitude and the longitude
without their decimal points, the zoom factor and the size.  The coordinates are copied to buffers
of 16 bytes, first what is in front of the point and then six bytes from behind it, whatever these
are.

* `getMinimapCacheFilename` — the function, on exactly the memory it may use.
* `MinimapKey` — what a file is named after, and when `update_minimap_cache` accepts it.
* `FitsName` — a decimal point, not too much in front of it and enough behind it.
* **`getMinimapCacheFilename_eq`** — the name of a file.
* **`minimapNames_sound`** — the function keeps to its memory, and two locations with one name agree
  up to the sixth decimal.
-/

namespace G7

variable {D : Type*}

/-- A string from where it is read on, and the buffer it is copied to. -/
structure CoordCopy where
  /-- The memory of the string from the reading position on, with its NUL. -/
  rest : List Byte
  buf : List Byte
  pos : ℕ

/-- `*plat++ = *lat++` -/
def CoordCopy.copyByte (s : CoordCopy) : Checked CoordCopy := do
  let c ← load s.rest 0
  let buf ← store s.buf s.pos c
  return { rest := s.rest.tail, buf := buf, pos := s.pos + 1 }

/-- `while (*lat && *lat != '.') *plat++ = *lat++` -/
def copyWhole (buf : List Byte) (pos : ℕ) : List Byte → Checked CoordCopy
  | [] => .fault
  | c :: cs =>
      if c = 0 ∨ c = ch '.' then .done { rest := c :: cs, buf := buf, pos := pos }
      else do
        let buf ← store buf pos c
        copyWhole buf (pos + 1) cs

/-- The copying of `n` more bytes of both. -/
def copyDecimals : ℕ → CoordCopy → CoordCopy → Checked (CoordCopy × CoordCopy)
  | 0, lat, lon => .done (lat, lon)
  | n + 1, lat, lon => do
      let lat ← lat.copyByte
      let lon ← lon.copyByte
      copyDecimals n lat lon

/-- `lat++` -/
def CoordCopy.skip (s : CoordCopy) : CoordCopy := { s with rest := s.rest.tail }

/-- `char blat[16]`; what it holds at first does not matter. -/
def coordBuf : List Byte := List.replicate 16 0

/-- What a file is named after. -/
structure MinimapKey where
  lat : CStr
  lon : CStr
  zoom : ℕ
  width : ℕ
  height : ℕ
  deriving DecidableEq

/-- `snprintf(fname, sizeof (fname), "map_%s_%s_%d_%dx%d.png", ...)` -/
def minimapName (blat blon : CStr) (k : MinimapKey) : CStr :=
  snprintf 256 (str "map_" ++ (blat ++ ch '_' :: (blon ++ ch '_' :: (decInt (toInt32 k.zoom) ++
    ch '_' :: (decInt (toInt32 k.width) ++ ch 'x' :: (decInt (toInt32 k.height) ++
      str ".png"))))))

/-- `get_minimap_cache_filename`: the name it leaves in `cfname` if it returns 0. -/
def getMinimapCacheFilename (maxlen : ℕ) (k : MinimapKey) : Checked (Option CStr) := do
  let lat ← copyWhole coordBuf 0 (k.lat ++ [0])
  let lon ← copyWhole coordBuf 0 (k.lon ++ [0])
  let (lat, lon) ← copyDecimals 6 lat.skip lon.skip
  let blat ← store lat.buf lat.pos 0
  let blon ← store lon.buf lon.pos 0
  let fname := minimapName (cstr blat) (cstr blon) k
  if maxlen ≤ fname.length then return none
  let cfname := xstrlcpy fname maxlen
  if cfname.length < 25 then return none
  return some cfname

/-- What `update_minimap_cache` accepts, before it makes the name. -/
structure MinimapKey.Accepted (F : Doubles D) (k : MinimapKey) : Prop where
  latLong : 6 ≤ k.lat.length
  lonLong : 6 ≤ k.lon.length
  latRange : F.coordOk k.lat = true
  lonRange : F.coordOk k.lon = true
  zoom : 1 ≤ k.zoom ∧ k.zoom ≤ 20
  width : k.width ≤ 600
  height : k.height ≤ 600

/-- What is in front of the decimal point. -/
def wholePart (s : CStr) : CStr := s.takeWhile (· ≠ ch '.')

/-- What is behind it. -/
def decimals (s : CStr) : CStr := (s.dropWhile (· ≠ ch '.')).tail

/-- A coordinate with a decimal point, room in the buffer for what is in front of it and `n` bytes
behind it. -/
structure FitsName (n : ℕ) (s : CStr) : Prop where
  noNul : (0 : Byte) ∉ s
  point : ch '.' ∈ s
  whole : (wholePart s).length ≤ 9
  decimals : n ≤ (decimals s).length

/-- The two parts of a coordinate. -/
lemma parts_eq {whole : CStr} (hwhole : ch '.' ∉ whole) (frac : CStr) :
    wholePart (whole ++ ch '.' :: frac) = whole ∧ decimals (whole ++ ch '.' :: frac) = frac := by
  have hall : ∀ c ∈ whole, decide (c ≠ ch '.') = true := by
    intro c hc
    rw [decide_eq_true_eq]
    rintro rfl
    exact hwhole hc
  constructor
  · rw [wholePart, List.takeWhile_append_of_pos hall]
    simp
  · rw [decimals, List.dropWhile_append_of_pos hall]
    simp

lemma wholePart_append_decimals {s : CStr} (h : ch '.' ∈ s) :
    s = wholePart s ++ ch '.' :: decimals s ∧ ch '.' ∉ wholePart s := by
  obtain ⟨whole, frac, rfl, hwhole⟩ := List.eq_append_cons_of_mem h
  rw [(parts_eq hwhole frac).1, (parts_eq hwhole frac).2]
  exact ⟨rfl, hwhole⟩

/-! ## The copies -/

/-- A buffer that has got some bytes. -/
def copiedTo (done rest : List Byte) : CoordCopy where
  rest := rest
  buf := done ++ List.replicate (16 - done.length) 0
  pos := done.length

/-- The next byte goes behind them. -/
lemma store_copied {done : List Byte} (hdone : done.length < 16) (c : Byte) :
    store (done ++ List.replicate (16 - done.length) 0) done.length c
      = .done (done ++ [c] ++ List.replicate (16 - (done ++ [c]).length) 0) := by
  obtain ⟨k, hk⟩ : ∃ k, 16 - done.length = k + 1 := ⟨15 - done.length, by omega⟩
  have hk' : 16 - (done ++ [c]).length = k := by
    rw [List.length_append, List.length_singleton]
    omega
  rw [hk, hk', List.replicate_succ, store_append_length]
  simp

lemma copyByte_copiedTo {done : List Byte} (hdone : done.length < 16) (c : Byte)
    (cs : List Byte) : (copiedTo done (c :: cs)).copyByte = .done (copiedTo (done ++ [c]) cs) := by
  have hload : load (c :: cs) 0 = .done c := rfl
  simp only [CoordCopy.copyByte, copiedTo, hload, Checked.done_bind, store_copied hdone,
    Checked.pure_eq, List.tail_cons, List.length_append, List.length_singleton]

lemma copyWhole_eq : ∀ {whole : List Byte} (done rest : List Byte),
    (0 : Byte) ∉ whole → ch '.' ∉ whole → done.length + whole.length ≤ 16 →
    copyWhole (done ++ List.replicate (16 - done.length) 0) done.length (whole ++ ch '.' :: rest)
      = .done (copiedTo (done ++ whole) (ch '.' :: rest))
  | [], done, rest, _, _, _ => by simp [copyWhole, copiedTo]
  | c :: cs, done, rest, hnul, hpoint, hlen => by
      rw [List.mem_cons, not_or] at hnul hpoint
      rw [List.length_cons] at hlen
      have hgo : ¬ (c = 0 ∨ c = ch '.') := by
        rintro (rfl | rfl)
        · exact hnul.1 rfl
        · exact hpoint.1 rfl
      have ih := @copyWhole_eq cs (done ++ [c]) rest hnul.2 hpoint.2
        (by rw [List.length_append, List.length_singleton]; omega)
      have hnext : done ++ [c] ++ cs = done ++ c :: cs := by simp
      rw [hnext, List.length_append, List.length_singleton] at ih
      rw [List.cons_append, copyWhole, if_neg hgo, store_copied (by omega), Checked.done_bind,
        List.length_append, List.length_singleton, ih]

/-- `n` bytes of both coordinates are copied. -/
lemma copyDecimals_eq : ∀ {n : ℕ} {latRest lonRest : List Byte} (lat lon : List Byte),
    n ≤ latRest.length → n ≤ lonRest.length → lat.length + n ≤ 16 → lon.length + n ≤ 16 →
    copyDecimals n (copiedTo lat latRest) (copiedTo lon lonRest)
      = .done (copiedTo (lat ++ latRest.take n) (latRest.drop n),
          copiedTo (lon ++ lonRest.take n) (lonRest.drop n))
  | 0, latRest, lonRest, lat, lon, _, _, _, _ => by simp [copyDecimals]
  | n + 1, c :: cs, d :: ds, lat, lon, hlat, hlon, hlatLen, hlonLen => by
      rw [List.length_cons] at hlat hlon
      have ih := copyDecimals_eq (n := n) (lat ++ [c]) (lon ++ [d])
        (Nat.le_of_succ_le_succ hlat) (Nat.le_of_succ_le_succ hlon)
        (by rw [List.length_append, List.length_singleton]; omega)
        (by rw [List.length_append, List.length_singleton]; omega)
      rw [copyDecimals, copyByte_copiedTo (by omega), Checked.done_bind,
        copyByte_copiedTo (by omega), Checked.done_bind, ih]
      simp

/-- The text a coordinate adds to the name. -/
def nameText (s : CStr) : CStr := wholePart s ++ (decimals s).take 6

lemma notMem_nameText {c : Byte} {s : CStr} (h : c ∉ s) : c ∉ nameText s := by
  intro hmem
  rw [nameText, List.mem_append] at hmem
  rcases hmem with hmem | hmem
  · exact h ((List.takeWhile_prefix _).subset hmem)
  · exact h ((List.dropWhile_suffix _).subset (List.mem_of_mem_tail (List.mem_of_mem_take hmem)))

lemma FitsName.mono {s : CStr} (h : FitsName 6 s) : FitsName 5 s :=
  ⟨h.noNul, h.point, h.whole, Nat.le_of_succ_le h.decimals⟩

lemma FitsName.nameText_length {n : ℕ} {s : CStr} (h : FitsName n s) (hn : n ≤ 6) :
    n ≤ (nameText s).length ∧ (nameText s).length ≤ 15 := by
  have hwhole := h.whole
  have hdecimals := h.decimals
  rw [nameText, List.length_append, List.length_take]
  omega

/-- The buffer of a coordinate, with its NUL. -/
lemma cstr_copied {s : CStr} (h : FitsName 5 s) (zeros : List Byte) :
    cstr (wholePart s ++ (decimals s ++ [0]).take 6 ++ 0 :: zeros) = nameText s := by
  have hnul := notMem_nameText h.noNul
  have hdecimals := h.decimals
  rw [nameText] at hnul ⊢
  by_cases hlong : 6 ≤ (decimals s).length
  · rw [List.take_append_of_le_length hlong]
    exact cstr_append_nul hnul zeros
  · have hfive : (decimals s ++ [0]).take 6 = (decimals s).take 6 ++ [0] := by
      rw [List.take_of_length_le (by simp; omega), List.take_of_length_le (by omega)]
    rw [hfive, ← List.append_assoc, List.append_assoc _ [0]]
    exact cstr_append_nul hnul (0 :: zeros)

/-- The whole part of a coordinate is copied. -/
lemma copyWhole_coordBuf {n : ℕ} {s : CStr} (h : FitsName n s) :
    copyWhole coordBuf 0 (s ++ [0])
      = .done (copiedTo (wholePart s) (ch '.' :: (decimals s ++ [0]))) := by
  obtain ⟨hs, hpoint⟩ := wholePart_append_decimals h.point
  have hnul : (0 : Byte) ∉ wholePart s :=
    fun hmem => h.noNul ((List.takeWhile_prefix _).subset hmem)
  have hwhole := h.whole
  have hcopy := copyWhole_eq [] (decimals s ++ [0]) hnul hpoint
    (by rw [List.length_nil]; omega)
  rw [← List.cons_append, ← List.append_assoc, ← hs] at hcopy
  exact hcopy

/-- The NUL behind a coordinate that was copied. -/
lemma store_nul {s : CStr} (h : FitsName 5 s) :
    ∃ buf, store (copiedTo (wholePart s ++ (decimals s ++ [0]).take 6)
        ((decimals s ++ [0]).drop 6)).buf
      (copiedTo (wholePart s ++ (decimals s ++ [0]).take 6) ((decimals s ++ [0]).drop 6)).pos 0
        = .done buf ∧ cstr buf = nameText s := by
  have hwhole := h.whole
  have hlen : (wholePart s ++ (decimals s ++ [0]).take 6).length < 16 := by
    rw [List.length_append, List.length_take]
    omega
  refine ⟨_, store_copied hlen 0, ?_⟩
  rw [List.append_assoc _ [0]]
  exact cstr_copied h _

/-- `%d` of a number that is not too large. -/
lemma decInt_toInt32 {n : ℕ} (hn : n ≤ 600) : decInt (toInt32 n) = dec n := by
  rw [toInt32_of_lt (by omega) (by omega)]
  rfl

lemma dec_length_of_le {n : ℕ} (hn : n ≤ 600) : 1 ≤ (dec n).length ∧ (dec n).length ≤ 3 := by
  refine ⟨List.length_pos_iff.mpr (dec_ne_nil n), ?_⟩
  rw [dec, List.length_map]
  exact (Nat.length_toDigits_le_iff (by omega) (by omega)).mpr (by omega)

/-- The name of the file. -/
def MinimapKey.filename (k : MinimapKey) : CStr :=
  str "map_" ++ (nameText k.lat ++ ch '_' :: (nameText k.lon ++ ch '_' :: (dec k.zoom ++ ch '_' ::
    (dec k.width ++ ch 'x' :: (dec k.height ++ str ".png")))))

lemma MinimapKey.Accepted.minimapName_eq {F : Doubles D} {k : MinimapKey} (hk : k.Accepted F)
    (hlat : FitsName 5 k.lat) (hlon : FitsName 5 k.lon) :
    minimapName (nameText k.lat) (nameText k.lon) k = k.filename ∧
      25 ≤ k.filename.length ∧ k.filename.length ≤ 51 := by
  have hlatLen := hlat.nameText_length (by omega)
  have hlonLen := hlon.nameText_length (by omega)
  have hzoom := dec_length_of_le (hk.zoom.2.trans (by omega : 20 ≤ 600))
  have hwidth := dec_length_of_le hk.width
  have hheight := dec_length_of_le hk.height
  have hlen : k.filename.length = (nameText k.lat).length + (nameText k.lon).length
      + (dec k.zoom).length + (dec k.width).length + (dec k.height).length + 12 := by
    have hmap : (str "map_").length = 4 := by decide
    have hpng : (str ".png").length = 4 := by decide
    simp only [MinimapKey.filename, List.length_append, List.length_cons, hmap, hpng]
    omega
  refine ⟨?_, by omega, by omega⟩
  rw [minimapName, decInt_toInt32 (hk.zoom.2.trans (by omega)), decInt_toInt32 hk.width,
    decInt_toInt32 hk.height, ← MinimapKey.filename, snprintf_of_lt (by omega)]

/-- **The name of a file**, if both coordinates have a decimal point at a place that fits and at
least five bytes behind it. -/
theorem getMinimapCacheFilename_eq {F : Doubles D} {k : MinimapKey} (hk : k.Accepted F)
    (hlat : FitsName 5 k.lat) (hlon : FitsName 5 k.lon) :
    getMinimapCacheFilename 255 k = .done (some k.filename) := by
  obtain ⟨hname, hlow, hhigh⟩ := hk.minimapName_eq hlat hlon
  obtain ⟨blat, hblat, hlatText⟩ := store_nul hlat
  obtain ⟨blon, hblon, hlonText⟩ := store_nul hlon
  have hlatWhole := hlat.whole
  have hlonWhole := hlon.whole
  have hlatDecimals := hlat.decimals
  have hlonDecimals := hlon.decimals
  have hcopy := @copyDecimals_eq 6 (decimals k.lat ++ [0]) (decimals k.lon ++ [0])
    (wholePart k.lat) (wholePart k.lon) (by simp; omega) (by simp; omega) (by omega) (by omega)
  have hcut : xstrlcpy k.filename 255 = k.filename :=
    List.take_of_length_le (by omega)
  rw [getMinimapCacheFilename, copyWhole_coordBuf hlat, Checked.done_bind,
    copyWhole_coordBuf hlon, Checked.done_bind]
  simp only [CoordCopy.skip, copiedTo, List.tail_cons] at hcopy hblat hblon ⊢
  simp only [hcopy, Checked.done_bind, hblat, hblon, hlatText, hlonText, hname, hcut]
  rw [if_neg (by omega), if_neg (by omega)]
  rfl

/-! ## Names and locations -/

/-- The coordinates agree up to the sixth decimal. -/
def AgreesToSixth (s t : CStr) : Prop :=
  wholePart s = wholePart t ∧ (decimals s).take 6 = (decimals t).take 6

/-- A coordinate with six decimals can be told from its text in the name. -/
lemma agreesToSixth_of_nameText {s t : CStr} (hs : FitsName 6 s) (ht : FitsName 6 t)
    (h : nameText s = nameText t) : AgreesToSixth s t := by
  have hsDecimals := hs.decimals
  have htDecimals := ht.decimals
  refine List.append_inj' h ?_
  rw [List.length_take, List.length_take]
  omega

lemma dec_inj {m n : ℕ} (h : dec m = dec n) : m = n := by
  rw [← digitsValue_dec m, h, digitsValue_dec]

lemma notMem_dec_of_not_digit {c : Byte} (hc : isDigit c = false) (n : ℕ) : c ∉ dec n := by
  intro h
  rw [isDigit_of_mem_dec n c h] at hc
  cases hc

/-- **A name can be read back**: it is that of one zoom factor and size, and of coordinates that
agree in what goes into it. -/
lemma filename_inj {k k' : MinimapKey} (hlat : ch '_' ∉ k.lat) (hlat' : ch '_' ∉ k'.lat)
    (hlon : ch '_' ∉ k.lon) (hlon' : ch '_' ∉ k'.lon) (h : k.filename = k'.filename) :
    nameText k.lat = nameText k'.lat ∧ nameText k.lon = nameText k'.lon ∧ k.zoom = k'.zoom ∧
      k.width = k'.width ∧ k.height = k'.height := by
  have hsign : isDigit (ch '_') = false := by decide
  have hx : isDigit (ch 'x') = false := by decide
  have htail := List.append_cancel_left h
  obtain ⟨hlatText, htail⟩ := split_unique htail (notMem_nameText hlat) (notMem_nameText hlat')
  obtain ⟨hlonText, htail⟩ := split_unique htail (notMem_nameText hlon) (notMem_nameText hlon')
  obtain ⟨hzoom, htail⟩ := split_unique htail (notMem_dec_of_not_digit hsign _)
    (notMem_dec_of_not_digit hsign _)
  obtain ⟨hwidth, htail⟩ := split_unique htail (notMem_dec_of_not_digit hx _)
    (notMem_dec_of_not_digit hx _)
  exact ⟨hlatText, hlonText, dec_inj hzoom, dec_inj hwidth,
    dec_inj (List.append_cancel_right htail)⟩

/-- **The files of minimaps**: where both coordinates have a decimal point at a place that fits and
at least five bytes behind it, the function keeps to its memory; and two keys whose coordinates have
at least six bytes there and no underscore get one name only if the coordinates agree up to the
sixth decimal and the rest is the same. -/
theorem minimapNames_sound (F : Doubles D) (k k' : MinimapKey) (hk : k.Accepted F)
    (hk' : k'.Accepted F) (hlat : FitsName 5 k.lat) (hlon : FitsName 5 k.lon) :
    (getMinimapCacheFilename 255 k).IsDone ∧
      ((∀ s ∈ [k.lat, k.lon, k'.lat, k'.lon], FitsName 6 s ∧ ch '_' ∉ s) →
        ∀ name, getMinimapCacheFilename 255 k = .done (some name) →
          getMinimapCacheFilename 255 k' = .done (some name) →
          AgreesToSixth k.lat k'.lat ∧ AgreesToSixth k.lon k'.lon ∧ k.zoom = k'.zoom ∧
            k.width = k'.width ∧ k.height = k'.height) := by
  have hname := getMinimapCacheFilename_eq hk hlat hlon
  refine ⟨⟨_, hname⟩, fun hsix name hdone hdone' => ?_⟩
  simp only [List.forall_mem_cons, List.not_mem_nil, false_imp_iff, implies_true, and_true] at hsix
  obtain ⟨⟨hlat, hlatSign⟩, ⟨hlon, hlonSign⟩, ⟨hlat', hlatSign'⟩, hlon', hlonSign'⟩ := hsix
  rw [hname] at hdone
  rw [getMinimapCacheFilename_eq hk' hlat'.mono hlon'.mono] at hdone'
  have hsame : k.filename = k'.filename := by
    simp only [Checked.done.injEq, Option.some.injEq] at hdone hdone'
    exact hdone.trans hdone'.symm
  obtain ⟨hlatText, hlonText, hrest⟩ :=
    filename_inj hlatSign hlatSign' hlonSign hlonSign' hsame
  exact ⟨agreesToSixth_of_nameText hlat hlat' hlatText,
    agreesToSixth_of_nameText hlon hlon' hlonText, hrest⟩

/-- A map of Stockholm. -/
def stockholmMap : MinimapKey where
  lat := str "59.3665451"
  lon := str "17.9594450"
  zoom := 15
  width := 200
  height := 200

/-- A map of a place a centimetre away. -/
def nearbyMap : MinimapKey := { stockholmMap with lat := str "59.3665452" }

lemma accepted_stockholmMap : stockholmMap.Accepted decimalDoubles :=
  ⟨by decide, by decide, by decide +kernel, by decide +kernel, by decide, by decide, by decide⟩

lemma accepted_nearbyMap : nearbyMap.Accepted decimalDoubles :=
  ⟨by decide, by decide, by decide +kernel, by decide +kernel, by decide, by decide, by decide⟩

lemma fitsName_stockholmMap :
    FitsName 5 stockholmMap.lat ∧ FitsName 5 nearbyMap.lat ∧ FitsName 5 stockholmMap.lon :=
  ⟨⟨by decide, by decide, by decide, by decide⟩, ⟨by decide, by decide, by decide, by decide⟩,
    ⟨by decide, by decide, by decide, by decide⟩⟩

/-- The two maps have one file, and agree up to the sixth decimal. -/
theorem minimapNames_sound_stockholm :
    (getMinimapCacheFilename 255 stockholmMap).IsDone ∧
      getMinimapCacheFilename 255 stockholmMap = getMinimapCacheFilename 255 nearbyMap ∧
      AgreesToSixth stockholmMap.lat nearbyMap.lat ∧
      AgreesToSixth stockholmMap.lon nearbyMap.lon := by
  obtain ⟨hlat, hlat', hlon⟩ := fitsName_stockholmMap
  have hname := getMinimapCacheFilename_eq accepted_stockholmMap hlat hlon
  have hname' := getMinimapCacheFilename_eq accepted_nearbyMap hlat' hlon
  rw [← show stockholmMap.filename = nearbyMap.filename by decide] at hname'
  obtain ⟨hdone, hsame⟩ := minimapNames_sound decimalDoubles stockholmMap nearbyMap
    accepted_stockholmMap accepted_nearbyMap hlat hlon
  have hsix : ∀ s ∈ [stockholmMap.lat, stockholmMap.lon, nearbyMap.lat, nearbyMap.lon],
      FitsName 6 s ∧ ch '_' ∉ s := by
    simp only [List.forall_mem_cons, List.not_mem_nil, false_imp_iff, implies_true, and_true]
    exact ⟨⟨⟨by decide, by decide, by decide, by decide⟩, by decide⟩,
      ⟨⟨by decide, by decide, by decide, by decide⟩, by decide⟩,
      ⟨⟨by decide, by decide, by decide, by decide⟩, by decide⟩,
      ⟨by decide, by decide, by decide, by decide⟩, by decide⟩
  obtain ⟨hagreeLat, hagreeLon, -⟩ := hsame hsix _ hname hname'
  exact ⟨hdone, hname.trans hname'.symm, hagreeLat, hagreeLon⟩

/-- **The seventh decimal is not in the name**: two maps with other latitudes have one file. -/
theorem seventhDecimal_sameName : ¬ ∀ (F : Doubles ℚ) (k k' : MinimapKey),
    k.Accepted F → k'.Accepted F → (getMinimapCacheFilename 255 k).IsDone ∧
      (k ≠ k' → ∀ name, getMinimapCacheFilename 255 k = .done (some name) →
        getMinimapCacheFilename 255 k' ≠ .done (some name)) := by
  intro h
  obtain ⟨hlat, hlat', hlon⟩ := fitsName_stockholmMap
  have hsame : stockholmMap.filename = nearbyMap.filename := by decide
  have hname := getMinimapCacheFilename_eq accepted_stockholmMap hlat hlon
  have hname' := getMinimapCacheFilename_eq accepted_nearbyMap hlat' hlon
  rw [← hsame] at hname'
  exact (h decimalDoubles stockholmMap nearbyMap accepted_stockholmMap accepted_nearbyMap).2
    (by decide) _ hname hname'

end G7
