import G7Ctrl.Files.MoveAndRename
import G7Ctrl.Geocache.CacheFile

/-!
# Saving the address cache (`_create_cache_backup`, `write_address_geocache`)

Before the index of a cache is written, the last backup is moved to a name with a number and the
present index becomes the backup.  What the two moves return is not looked at by the writer, which
opens the index for writing in any case.

* `createCacheBackup`, `saveAddressGeocache` — the two moves, and the whole call.
* `KeepsLastCopy` — if the present index is truncated, its contents are in another file.
* `Backed` — the call finds the index a new name.
* **`saveAddressGeocache_files`** — what becomes of the index.
* **`keepsLastCopy_iff`** — when the last good copy is kept.
-/

namespace G7

variable {D : Type*}

/-- `enum geo_cache_t` -/
inductive GeoCache
  | addr
  | minimap
  deriving DecidableEq

/-- `DEFAULT_ADDRESS_GEOCACHE_FILE`, `DEFAULT_MINIMAP_GEOCACHE_FILE` -/
def GeoCache.file : GeoCache → CStr
  | addr => str "geoloc_addrcache.txt"
  | minimap => str "geoloc_minimapcache.txt"

/-- `DEFAULT_ADDRESS_GEOCACHE_BACKUPFILE`, `DEFAULT_MINIMAP_GEOCACHE_BACKUPFILE` -/
def GeoCache.backupFile : GeoCache → CStr
  | addr => str "geoloc_addrcache_backup.txt"
  | minimap => str "geoloc_minimapcache_backup.txt"

/-- `snprintf(fullPath, sizeof (fullPath), "%s/%s", db_dir, file)` -/
def fullPath (dbDir file : CStr) : CStr := snprintf 256 (dbDir ++ ch '/' :: file)

/-- How the calls to the system end while a cache is saved, and the memory behind the names that
fill `buff1`. -/
structure SaveCalls where
  firstRefused : Bool
  firstStack : List Byte
  secondRefused : Bool
  secondStack : List Byte
  /-- `fopen` fails. -/
  openFails : Bool

/-- `_create_cache_backup` -/
def createCacheBackup (sys : SaveCalls) (dbDir : CStr) (geoCache : GeoCache) (fs : Files CStr) :
    ℤ × Files CStr :=
  let index := fullPath dbDir geoCache.file
  let backup := fullPath dbDir geoCache.backupFile
  let fs := (mvAndRename fs.stat sys.firstRefused sys.firstStack fs backup backup none).files
  let moved := mvAndRename fs.stat sys.secondRefused sys.secondStack fs index backup none
  (if moved.ret = -1 then -1 else 0, moved.files)

/-- What `write_address_geocache` returns and leaves. -/
structure SaveResult where
  ret : ℤ
  files : Files CStr
  /-- It opens a file that exists. -/
  truncated : Bool

/-- `write_address_geocache`, with the text that `writeAddressGeocache` gives. -/
def saveAddressGeocache (sys : SaveCalls) (dbDir : CStr) (c : AddressCache D)
    (fs : Files CStr) : SaveResult :=
  let fs := (createCacheBackup sys dbDir .addr fs).2
  let index := fullPath dbDir GeoCache.addr.file
  if sys.openFails then { ret := -1, files := fs, truncated := false }
  else
    { ret := 0
      files := fs.write index (writeAddressGeocache c)
      truncated := (fs.read index).isSome }

/-- **The last good copy**: the index is not truncated unless there is a file with its contents
under another name afterwards. -/
def KeepsLastCopy (dbDir : CStr) (fs : Files CStr) (r : SaveResult) : Prop :=
  r.truncated = true → ∀ text, fs.read (fullPath dbDir GeoCache.addr.file) = some text →
    ∃ f, f ≠ fileName (fullPath dbDir GeoCache.addr.file) ∧ r.files f = some text

/-- One of the two moves takes the index away.  With the names of the two files cut to one the first
of them does, with two names only the second, which needs the name of the backup or one of its
numbers. -/
def Backed (sys : SaveCalls) (index backup : CStr) (fs : Files CStr) : Prop :=
  if fileName index = fileName backup then
    (sys.firstRefused = false ∧ HasFreeNumber fs sys.firstStack backup) ∨
      (sys.secondRefused = false ∧ HasFreeNumber fs sys.secondStack backup)
  else
    sys.secondRefused = false ∧ (fs.read backup = none ∨
      (sys.firstRefused = false ∧ HasFreeNumber fs sys.firstStack backup) ∨
      HasFreeNumber fs sys.secondStack backup)

lemma fullPath_length_le (dbDir file : CStr) : (fullPath dbDir file).length ≤ 255 := by
  simp [fullPath, snprintf]

lemma fullPath_ne_nil (dbDir file : CStr) : fullPath dbDir file ≠ [] := by
  simp [fullPath, snprintf]

/-- A file at a path that is not empty. -/
lemma read_of_ne_nil {fs : Files CStr} {path : CStr} (h : path ≠ []) :
    fs.read path = fs (fileName path) :=
  if_neg h

/-! ## The two moves -/

section Moves

variable {fs fs' : Files CStr} {index fromPath new text other : CStr}

/-- Some other file has a text. -/
def HasCopy (fs : Files CStr) (index text : CStr) : Prop :=
  ∃ f, f ≠ fileName index ∧ fs f = some text

/-- A move away from the index keeps the copies. -/
lemma Files.Moved.hasCopy_iff (h : Files.Moved fs fs' fromPath new other)
    (hfrom : fileName fromPath ≠ fileName index) (hnew : fileName new ≠ fileName index) :
    HasCopy fs' index text ↔ HasCopy fs index text := by
  have hsource : fs (fileName fromPath) = some other := by
    rw [← h.source, Files.read]
    split_ifs with hnil
    · have hsome := h.source
      rw [Files.read, if_pos hnil] at hsome
      cases hsome
    · rfl
  have hfree : fs (fileName new) = none := by rw [← h.free, read_of_ne_nil h.named]
  constructor
  · rintro ⟨f, hf, htext⟩
    by_cases hf' : f = fileName new
    · rw [hf', h.there] at htext
      exact ⟨fileName fromPath, hfrom, hsource.trans htext⟩
    · have hgone : f ≠ fileName fromPath := by
        rintro rfl
        rw [h.gone] at htext
        cases htext
      exact ⟨f, hf, by rw [← h.frame f hgone hf', htext]⟩
  · rintro ⟨f, hf, htext⟩
    by_cases hf' : f = fileName fromPath
    · rw [hf', hsource] at htext
      exact ⟨fileName new, hnew, h.there.trans htext⟩
    · have hdiff : f ≠ fileName new := by
        rintro rfl
        rw [hfree] at htext
        cases htext
      exact ⟨f, hf, by rw [h.frame f hf' hdiff, htext]⟩

end Moves

/-- What the moves do to an index that is there. -/
structure IndexMoved (backed : Prop) (index : CStr) (fs fs' : Files CStr) : Prop where
  away : backed → fs' (fileName index) = none
  kept : ¬ backed → fs' (fileName index) = fs (fileName index) ∧
    ∀ text, HasCopy fs' index text ↔ HasCopy fs index text

section

variable {sys : SaveCalls} {index backup : CStr} {fs : Files CStr}

/-- When the backup has got a number, the index stays only if it has another name and the second
move is refused. -/
lemma backed_iff_of_numbered (hgranted : sys.firstRefused = false)
    (hnumber : HasFreeNumber fs sys.firstStack backup) :
    Backed sys index backup fs ↔ fileName index = fileName backup ∨ sys.secondRefused = false := by
  rw [Backed]
  split_ifs with hsame
  · exact iff_of_true (Or.inl ⟨hgranted, hnumber⟩) (Or.inl hsame)
  · rw [or_iff_right hsame]
    exact and_iff_left (Or.inr (Or.inl ⟨hgranted, hnumber⟩))

/-- When the backup has kept its name, all depends on the second move. -/
lemma backed_iff_of_stays (hbackup : backup ≠ []) (hthere : fs.stat index = .found)
    (hindex : fs (fileName index) ≠ none)
    (hstays : ¬ Moves fs sys.firstRefused sys.firstStack backup backup) :
    Backed sys index backup fs ↔ Moves fs sys.secondRefused sys.secondStack index backup := by
  have hfirst : sys.firstRefused = false ∧ HasFreeNumber fs sys.firstStack backup →
      fs.read backup = none := by
    intro h
    by_contra habsent
    refine hstays ⟨h.1, ?_, Or.inr h.2⟩
    by_contra hnot
    exact habsent (Files.stat_ne_found.mp hnot)
  rw [Backed]
  split_ifs with hsame
  · have hpresent : fs.read backup ≠ none := by rwa [read_of_ne_nil hbackup, ← hsame]
    constructor
    · rintro (h | h)
      · exact absurd (hfirst h) hpresent
      · exact ⟨h.1, hthere, Or.inr h.2⟩
    · intro h
      exact Or.inr ⟨h.granted, h.free.resolve_left hpresent⟩
  · constructor
    · rintro ⟨hgranted, h⟩
      refine ⟨hgranted, hthere, ?_⟩
      rcases h with h | h | h
      · exact Or.inl h
      · exact Or.inl (hfirst h)
      · exact Or.inr h
    · intro h
      exact ⟨h.granted, h.free.imp_right Or.inr⟩

end

/-- **The two moves** take the index away exactly if it is backed. -/
theorem twoMoves_index (sys : SaveCalls) {index backup : CStr} {fs : Files CStr}
    (hindex : index ≠ []) (hbackup : backup ≠ []) (hlen : backup.length ≤ 255)
    (hthere : fs.stat index = .found) :
    let fs₁ := (mvAndRename fs.stat sys.firstRefused sys.firstStack fs backup backup none).files
    IndexMoved (Backed sys index backup fs) index fs
      (mvAndRename fs₁.stat sys.secondRefused sys.secondStack fs₁ index backup none).files := by
  intro fs₁
  obtain ⟨text, htext⟩ := Files.stat_eq_found.mp hthere
  have hread : fs (fileName index) = some text := by rw [← htext, read_of_ne_nil hindex]
  have hsecond := mvAndRename_cases fs₁ sys.secondRefused sys.secondStack index backup none hlen
  generalize (mvAndRename fs₁.stat sys.secondRefused sys.secondStack fs₁ index backup none) = r
    at hsecond ⊢
  rcases mvAndRename_cases fs sys.firstRefused sys.firstStack backup backup none hlen with
    ⟨-, hmoves, new, c, -, hmoved⟩ | ⟨-, hstays, hfiles⟩
  · -- The backup has a number now.
    have hmoves := hmoves hbackup
    have hnumber : HasFreeNumber fs sys.firstStack backup := by
      rcases hmoves.free with habsent | hnumber
      · exact absurd hmoves.source (Files.stat_ne_found.mpr habsent)
      · exact hnumber
    have hnew : fileName new ≠ fileName index := by
      intro heq
      have hfree := hmoved.free
      rw [read_of_ne_nil hmoved.named, heq, hread] at hfree
      cases hfree
    have hbacked := @backed_iff_of_numbered sys index backup fs hmoves.granted hnumber
    by_cases hsame : fileName index = fileName backup
    · have hback := hbacked.mpr (Or.inl hsame)
      have hgone : fs₁ (fileName index) = none := hsame ▸ hmoved.gone
      have hfiles : r.files = fs₁ := by
        rcases hsecond with ⟨-, hmoves', -⟩ | ⟨-, -, hfiles⟩
        · have hfound := (hmoves' hbackup).source
          exact absurd hfound (Files.stat_ne_found.mpr (by rw [read_of_ne_nil hindex, hgone]))
        · exact hfiles
      exact ⟨fun _ => hfiles ▸ hgone, fun h => absurd hback h⟩
    · rw [or_iff_right hsame] at hbacked
      have hthere' : fs₁ (fileName index) = some text :=
        (hmoved.frame _ hsame (Ne.symm hnew)).trans hread
      rcases hsecond with ⟨-, hmoves', new', c', -, hmoved'⟩ | ⟨-, hstays', hfiles'⟩
      · have hback := hbacked.mpr (hmoves' hbackup).granted
        exact ⟨fun _ => hmoved'.gone, fun h => absurd hback h⟩
      · have hnot : ¬ Backed sys index backup fs := by
          intro hback
          refine hstays' hbackup ⟨hbacked.mp hback, ?_, Or.inl ?_⟩
          · exact Files.stat_eq_found.mpr ⟨text, by rw [read_of_ne_nil hindex, hthere']⟩
          · rw [read_of_ne_nil hbackup]
            exact hmoved.gone
        refine ⟨fun h => absurd h hnot, fun _ => ⟨?_, fun text' => ?_⟩⟩
        · rw [hfiles', hthere', hread]
        · rw [hfiles']
          exact hmoved.hasCopy_iff (Ne.symm hsame) hnew
  · -- The backup, if there is one, has kept its name.
    have hfs : fs₁ = fs := hfiles
    have hstays := hstays hbackup
    rw [hfs] at hsecond
    have hbacked := backed_iff_of_stays hbackup hthere (by simp [hread]) hstays
    rcases hsecond with ⟨-, hmoves', new', c', -, hmoved'⟩ | ⟨-, hstays', hfiles'⟩
    · exact ⟨fun _ => hmoved'.gone, fun h => absurd (hbacked.mpr (hmoves' hbackup)) h⟩
    · refine ⟨fun h => absurd (hbacked.mp h) (hstays' hbackup), fun _ => ?_⟩
      rw [hfiles']
      exact ⟨rfl, fun _ => Iff.rfl⟩

/-! ## The call -/

/-- A call that opens the index keeps the copy if it is not there any more, or has a copy. -/
lemma keepsLastCopy_opened {sys : SaveCalls} (hopen : sys.openFails = false)
    {dbDir text : CStr} (c : AddressCache D) {fs : Files CStr}
    (hread : fs.read (fullPath dbDir GeoCache.addr.file) = some text) :
    KeepsLastCopy dbDir fs (saveAddressGeocache sys dbDir c fs) ↔
      ((createCacheBackup sys dbDir .addr fs).2
          (fileName (fullPath dbDir GeoCache.addr.file)) ≠ none →
        HasCopy (createCacheBackup sys dbDir .addr fs).2
          (fullPath dbDir GeoCache.addr.file) text) := by
  have hindex := fullPath_ne_nil dbDir GeoCache.addr.file
  have hwritten : ∀ (fs : Files CStr) (text' : CStr),
      HasCopy (fs.write (fullPath dbDir GeoCache.addr.file) text')
        (fullPath dbDir GeoCache.addr.file) text ↔
        HasCopy fs (fullPath dbDir GeoCache.addr.file) text := by
    intro fs text'
    refine exists_congr fun f => and_congr_right fun hf => ?_
    rw [Files.write, Function.update_of_ne hf]
  rw [← hwritten _ (writeAddressGeocache c)]
  simp [KeepsLastCopy, saveAddressGeocache, hopen, hread, read_of_ne_nil hindex, HasCopy,
    Option.isSome_iff_ne_none]

/-- What `_create_cache_backup` does to an index. -/
lemma createCacheBackup_index (sys : SaveCalls) (dbDir : CStr) (geoCache : GeoCache)
    {fs : Files CStr} (hthere : fs.stat (fullPath dbDir geoCache.file) = .found) :
    IndexMoved (Backed sys (fullPath dbDir geoCache.file) (fullPath dbDir geoCache.backupFile) fs)
      (fullPath dbDir geoCache.file) fs (createCacheBackup sys dbDir geoCache fs).2 :=
  twoMoves_index sys (fullPath_ne_nil _ _) (fullPath_ne_nil _ _) (fullPath_length_le _ _) hthere

/-- An index that is not backed is truncated: its contents are only what other files have. -/
lemma keepsLastCopy_of_not_backed {sys : SaveCalls} (hopen : sys.openFails = false)
    {dbDir text : CStr} (c : AddressCache D) {fs : Files CStr}
    (hread : fs.read (fullPath dbDir GeoCache.addr.file) = some text)
    (hbacked : ¬ Backed sys (fullPath dbDir GeoCache.addr.file)
      (fullPath dbDir GeoCache.addr.backupFile) fs) :
    KeepsLastCopy dbDir fs (saveAddressGeocache sys dbDir c fs) ↔
      HasCopy fs (fullPath dbDir GeoCache.addr.file) text := by
  have hindex := fullPath_ne_nil dbDir GeoCache.addr.file
  obtain ⟨hsame, hcopies⟩ := (createCacheBackup_index sys dbDir .addr
    (Files.stat_eq_found.mpr ⟨text, hread⟩)).kept hbacked
  have hthere : (createCacheBackup sys dbDir .addr fs).2
      (fileName (fullPath dbDir GeoCache.addr.file)) ≠ none := by
    have hsome : fs (fileName (fullPath dbDir GeoCache.addr.file)) = some text := by
      rw [← hread, read_of_ne_nil hindex]
    simp [hsame, hsome]
  rw [keepsLastCopy_opened hopen c hread, hcopies text]
  exact forall_prop_of_true hthere

/-- **When the last good copy is kept**: `fopen` fails, there is no index, another file has the
same contents, or the index is backed. -/
theorem keepsLastCopy_iff (sys : SaveCalls) (dbDir : CStr) (c : AddressCache D)
    (fs : Files CStr) :
    KeepsLastCopy dbDir fs (saveAddressGeocache sys dbDir c fs) ↔
      sys.openFails = true ∨ fs.read (fullPath dbDir GeoCache.addr.file) = none ∨
        (∃ f, f ≠ fileName (fullPath dbDir GeoCache.addr.file) ∧
          fs f = fs.read (fullPath dbDir GeoCache.addr.file)) ∨
        Backed sys (fullPath dbDir GeoCache.addr.file) (fullPath dbDir GeoCache.addr.backupFile)
          fs := by
  cases hopen : sys.openFails with
  | true => simp [KeepsLastCopy, saveAddressGeocache, hopen]
  | false =>
      cases hread : fs.read (fullPath dbDir GeoCache.addr.file) with
      | none => simp [KeepsLastCopy, hread]
      | some text =>
          by_cases hbacked : Backed sys (fullPath dbDir GeoCache.addr.file)
              (fullPath dbDir GeoCache.addr.backupFile) fs
          · have hgone := (createCacheBackup_index sys dbDir .addr
              (Files.stat_eq_found.mpr ⟨text, hread⟩)).away hbacked
            have hkept : KeepsLastCopy dbDir fs (saveAddressGeocache sys dbDir c fs) :=
              (keepsLastCopy_opened hopen c hread).mpr fun hthere => absurd hgone hthere
            simp [hkept, hbacked]
          · rw [keepsLastCopy_of_not_backed hopen c hread hbacked, HasCopy]
            simp [hbacked]

/-- The data directory of an installation. -/
def varLib : CStr := str "/var/lib/g7ctrl"

/-- A data directory with an index only. -/
def indexOnly : Files CStr :=
  Files.write (fun _ => none) (fullPath varLib GeoCache.addr.file) (str "1;59.3;17.9;Stockholm\n")

/-- A system that refuses to rename a file, and opens it. -/
def renameRefused : SaveCalls where
  firstRefused := true
  firstStack := []
  secondRefused := true
  secondStack := []
  openFails := false

/-- **The last good copy can be destroyed**: the index is truncated after its backup has failed. -/
theorem renameRefused_destroys : ¬ ∀ (sys : SaveCalls) (dbDir : CStr) (c : AddressCache ℚ)
    (fs : Files CStr), KeepsLastCopy dbDir fs (saveAddressGeocache sys dbDir c fs) := by
  intro h
  have hread : indexOnly.read (fullPath varLib GeoCache.addr.file)
      = some (str "1;59.3;17.9;Stockholm\n") := by
    rw [read_of_ne_nil (fullPath_ne_nil _ _), indexOnly, Files.write, Function.update_self]
  have hnot : ¬ Backed renameRefused (fullPath varLib GeoCache.addr.file)
      (fullPath varLib GeoCache.addr.backupFile) indexOnly := by
    simp [Backed, renameRefused]
  have hcopy := (keepsLastCopy_of_not_backed rfl {} hread hnot).mp (h renameRefused varLib {} _)
  obtain ⟨f, hf, htext⟩ := hcopy
  rw [indexOnly, Files.write, Function.update_of_ne hf] at htext
  cases htext

end G7
