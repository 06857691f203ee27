import G7Ctrl.Xstr.Copy
import G7Ctrl.Xstr.Number

/-!
# The result set of an export (`export_to_internal_set`, `sqres_export_callback`)

Before an export is written the rows of the query are copied to a list in memory, whose entries
have a buffer of fixed size for each column.  The callback of the query copies one row, converts
its date, computes a time stamp, and keeps the bounding box of the coordinates.

The list is allocated for 50000 entries and reallocated when it is full.  The sizes that go with
this are part of the state, and a trace of what was accessed is kept beside it.

* `sqresExportCallback`, `exportRows` — the callback, and `sqlite3_exec` calling it for each row.
* `TrackRow.loc` — what is kept of a row.
* **`exportRows_columns`** — of complete rows, everything that is kept is kept, in order.
-/

namespace G7

/-! ## Dates -/

/-- The fields of `struct tm` that `strptime` sets for the format of the device; `tmYear` counts
from 1900 and `tmMon` from 0. -/
structure Tm where
  tmYear : ℤ := 0
  tmMon : ℤ := 0
  tmMday : ℤ := 0
  tmHour : ℤ := 0
  tmMin : ℤ := 0
  tmSec : ℤ := 0
  deriving DecidableEq

/-- The digits of a number of at most `n` digits that has not passed `hi`, and the rest of the
text. -/
def getDigits (hi : ℕ) : ℕ → ℕ → CStr → ℕ × CStr
  | 0, val, rp => (val, rp)
  | _ + 1, val, [] => (val, [])
  | n + 1, val, c :: rp =>
      if isDigit c ∧ val * 10 ≤ hi then getDigits hi n (val * 10 + (c.toNat - 48)) rp
      else (val, c :: rp)

/-- A number of a `strptime` conversion: white space, then one to `n` digits with a value from `lo`
to `hi`. -/
def getNumber (lo hi n : ℕ) (rp : CStr) : Option (ℕ × CStr) :=
  match rp.dropWhile isSpace with
  | [] => none
  | c :: cs =>
      if isDigit c then
        let (val, rest) := getDigits hi n 0 (c :: cs)
        if lo ≤ val ∧ val ≤ hi then some (val, rest) else none
      else none

/-- The conversions of a format, each with its range, its width and the field it sets; the first
that fails ends the reading. -/
def strptimeLoop : List (ℕ × ℕ × ℕ × (Tm → ℤ → Tm)) → CStr → Tm → Tm
  | [], _, tm => tm
  | (lo, hi, n, set) :: convs, rp, tm =>
      match getNumber lo hi n rp with
      | none => tm
      | some (val, rest) => strptimeLoop convs rest (set tm val)

/-- `strptime(text, "%Y%m%d%H%M%S", &tm)`, for a `tm` that was cleared. -/
def strptime (text : CStr) : Tm :=
  strptimeLoop
    [(0, 9999, 4, fun tm v => { tm with tmYear := v - 1900 }),
      (1, 12, 2, fun tm v => { tm with tmMon := v - 1 }),
      (1, 31, 2, fun tm v => { tm with tmMday := v }),
      (0, 23, 2, fun tm v => { tm with tmHour := v }),
      (0, 59, 2, fun tm v => { tm with tmMin := v }),
      (0, 61, 2, fun tm v => { tm with tmSec := v })] text {}

/-- A leap year, counted from 1900. -/
def isLeap (tmYear : ℤ) : Bool :=
  (tmYear + 1900) % 4 = 0 ∧ ((tmYear + 1900) % 100 ≠ 0 ∨ (tmYear + 1900) % 400 = 0)

/-- The days of a year before a month. -/
def daysBefore (tmYear tmMon : ℤ) : ℤ :=
  [0, 31, 59, 90, 120, 151, 181, 212, 243, 273, 304, 334].getD tmMon.toNat 0 +
    if isLeap tmYear ∧ 2 ≤ tmMon then 1 else 0

/-- `mktime` for a time to which no daylight saving applies; `timezone` is the number of seconds
that local time is behind UTC. -/
def mktime (timezone : ℤ) (tm : Tm) : ℤ :=
  let yday := daysBefore tm.tmYear tm.tmMon + tm.tmMday - 1
  let days := yday + (tm.tmYear - 70) * 365 + (tm.tmYear - 69) / 4 - (tm.tmYear - 1) / 100 +
    (tm.tmYear + 299) / 400
  days * 86400 + tm.tmHour * 3600 + tm.tmMin * 60 + tm.tmSec + timezone

example : mktime 0 (strptime (str "20131201093042")) = 1385890242 := by decide

/-- `convert_to_utc` -/
def convertToUtc (datetime : CStr) : CStr :=
  let p := byteAt datetime
  cstr [p 0, p 1, p 2, p 3, ch '-', p 4, p 5, ch '-', p 6, p 7, ch 'T', p 8, p 9, ch ':', p 10,
    p 11, ch ':', p 12, p 13, ch 'Z']

example : convertToUtc (str "20131201093042") = str "2013-12-01T09:30:42Z" := by decide

/-! ## Rows and entries -/

/-- The columns of the query, in its order. -/
structure TrackRow where
  lat : CStr
  lon : CStr
  approxaddr : CStr
  datetime : CStr
  altitude : CStr
  speed : CStr
  voltage : CStr
  event : CStr
  heading : CStr
  deviceid : CStr
  satellite : CStr
  deriving DecidableEq

/-- A row of a device in Stockholm. -/
def pointAt (datetime : CStr) : TrackRow where
  lat := str "59.366545"
  lon := str "17.959445"
  approxaddr := str "Sveavagen 1"
  datetime := datetime
  altitude := str "24"
  speed := str "11"
  voltage := str "4.10"
  event := str "0"
  heading := str "180"
  deviceid := str "3000000001"
  satellite := str "7"

/-- A row as SQLite delivers it: a column can be NULL. -/
abbrev Columns := List (Option CStr)

/-- `azSolVals` -/
def TrackRow.columns (r : TrackRow) : Columns :=
  [some r.lat, some r.lon, some r.approxaddr, some r.datetime, some r.altitude, some r.speed,
    some r.voltage, some r.event, some r.heading, some r.deviceid, some r.satellite]

/-- Eleven columns none of which is NULL. -/
def readColumns : Columns → Option TrackRow
  | [some lat, some lon, some approxaddr, some datetime, some altitude, some speed, some voltage,
      some event, some heading, some deviceid, some satellite] =>
      some ⟨lat, lon, approxaddr, datetime, altitude, speed, voltage, event, heading, deviceid,
        satellite⟩
  | _ => none

@[simp] lemma readColumns_columns (r : TrackRow) : readColumns r.columns = some r := rfl

/-- `struct g7loc_t` -/
structure G7Loc where
  deviceid : CStr
  lat : CStr
  lon : CStr
  approxaddr : CStr
  date : CStr
  dateTimestamp : ℕ
  altitude : CStr
  speed : CStr
  voltage : CStr
  satellite : CStr
  event : CStr
  heading : CStr
  deriving DecidableEq

/-- `sizeof (struct g7loc_t)`: four texts and the date, the time stamp, and six numbers. -/
def sizeofG7Loc : ℕ := 3 * 16 + 128 + 48 + 8 + 6 * 8

/-- A time as `unsigned long`. -/
def toUnsignedLong (t : ℤ) : ℕ := (t % 2 ^ 64).toNat

/-- What the callback copies of a row to a cleared entry; `strncpy` stops before the last byte of
each buffer.  The time stamp is made of the third column. -/
def TrackRow.loc (timezone : ℤ) (r : TrackRow) : G7Loc where
  lat := r.lat.take 15
  lon := r.lon.take 15
  approxaddr := r.approxaddr.take 127
  date := (convertToUtc r.datetime).take 31
  dateTimestamp := toUnsignedLong (mktime timezone (strptime r.approxaddr))
  altitude := r.altitude.take 7
  speed := r.speed.take 7
  voltage := r.voltage.take 7
  event := r.event.take 7
  heading := r.heading.take 7
  deviceid := r.deviceid.take 15
  satellite := r.satellite.take 7

/-- `minlat`, `maxlat`, `minlon` and `maxlon`. -/
structure BoundingBox where
  minlat : CStr := []
  maxlat : CStr := []
  minlon : CStr := []
  maxlon : CStr := []
  deriving DecidableEq

/-- The texts of a bounding box. -/
def BoundingBox.texts (box : BoundingBox) : List CStr :=
  [box.minlat, box.minlon, box.maxlat, box.maxlon]

/-- What the callback does to the bounding box; the texts are compared with `strcmp`. -/
def BoundingBox.update (box : BoundingBox) (first : Bool) (p : G7Loc) : BoundingBox :=
  if first then
    { minlat := xstrlcpy p.lat 32, maxlat := xstrlcpy p.lat 32
      minlon := xstrlcpy p.lon 32, maxlon := xstrlcpy p.lon 32 }
  else
    { minlat := if p.lat < box.minlat then xstrlcpy p.lat 32 else box.minlat
      minlon := if p.lon < box.minlon then xstrlcpy p.lon 32 else box.minlon
      maxlat := if box.maxlat < p.lat then xstrlcpy p.lat 32 else box.maxlat
      maxlon := if box.maxlon < p.lon then xstrlcpy p.lon 32 else box.maxlon }

/-! ## The list -/

/-- `INTERNAL_LIST_CHUNKSIZE` -/
def internalListChunksize : ℕ := 50000

/-- What happens to the memory of the list, with the sizes at that moment. -/
inductive ListAccess where
  /-- It was reallocated. -/
  | grown (listSize bytes : ℕ)
  /-- An entry is written. -/
  | write (idx listSize bytes : ℕ)
  deriving DecidableEq

/-- The list while it is filled: its first `locs.length` (`resSetLength`) entries, the number of
entries it is taken to have (`g7locListSize`), and the number of bytes that were allocated. -/
structure ExportSet where
  locs : List G7Loc := []
  box : BoundingBox := {}
  listSize : ℕ := internalListChunksize
  bytes : ℕ := internalListChunksize * sizeofG7Loc
  trace : List ListAccess := []
  deriving DecidableEq

/-- What an export is told from outside. -/
structure ExportEnv where
  timezone : ℤ
  /-- `realloc` of this size succeeds. -/
  reallocOk : ℕ → Bool

/-- An export in UTC with enough memory. -/
def utcEnv : ExportEnv where
  timezone := 0
  reallocOk _ := true

/-- The callback makes room for one more entry; `none` when there is no memory. -/
def ExportSet.ensureRoom (env : ExportEnv) (s : ExportSet) : Option ExportSet :=
  if s.listSize ≤ s.locs.length then
    let size := s.listSize + internalListChunksize
    if env.reallocOk size then
      some { s with listSize := size, bytes := size, trace := s.trace ++ [.grown size size] }
    else none
  else some s

/-- The callback writes an entry. -/
def ExportSet.store (env : ExportEnv) (s : ExportSet) (r : TrackRow) : ExportSet :=
  let p := r.loc env.timezone
  { s with
    locs := s.locs ++ [p]
    box := s.box.update s.locs.isEmpty p
    trace := s.trace ++ [.write s.locs.length s.listSize s.bytes] }

/-- `sqres_export_callback`: whether the query goes on, and the list. -/
def sqresExportCallback (env : ExportEnv) (s : ExportSet) (cols : Columns) : Bool × ExportSet :=
  if cols.length ≠ 11 then (false, s)
  else
    match s.ensureRoom env with
    | none => (false, { s with bytes := 0 })
    | some s' =>
        match readColumns cols with
        | none => (false, s')
        | some r => (true, s'.store env r)

/-- `sqlite3_exec` with the rows of the query: whether it succeeds, and the list. -/
def exportRows (env : ExportEnv) : ExportSet → List Columns → Bool × ExportSet
  | s, [] => (true, s)
  | s, cols :: rows =>
      match sqresExportCallback env s cols with
      | (true, s') => exportRows env s' rows
      | (false, s') => (false, s')

/-- The bounding box of some entries. -/
def boundsOf (locs : List G7Loc) : BoundingBox :=
  match locs with
  | [] => {}
  | p :: ps => ps.foldl (fun box q => box.update false q) (BoundingBox.update {} true p)

/-! ## Complete rows -/

lemma boundsOf_concat (locs : List G7Loc) (p : G7Loc) :
    boundsOf (locs ++ [p]) = (boundsOf locs).update locs.isEmpty p := by
  cases locs with
  | nil => rfl
  | cons q locs => simp [boundsOf, List.foldl_append]

/-- **What all coordinates have in common, the bounding box has.** -/
lemma forall_boundsOf {P : CStr → Prop} {locs : List G7Loc} (hne : locs ≠ [])
    (h : ∀ p ∈ locs, P (xstrlcpy p.lat 32) ∧ P (xstrlcpy p.lon 32)) :
    ∀ t ∈ (boundsOf locs).texts, P t := by
  induction locs using List.reverseRecOn with
  | nil => exact absurd rfl hne
  | append_singleton locs p ih =>
      obtain ⟨hlat, hlon⟩ := h p (by simp)
      rw [boundsOf_concat]
      cases locs with
      | nil => simp [BoundingBox.texts, BoundingBox.update, hlat, hlon]
      | cons q locs =>
          have hbox := ih (List.cons_ne_nil q locs) fun p' hp' =>
            h p' (List.mem_append_left _ hp')
          simp only [BoundingBox.texts, List.forall_mem_cons] at hbox
          obtain ⟨hminlat, hminlon, hmaxlat, hmaxlon, -⟩ := hbox
          have hif : ∀ {b : Prop} [Decidable b] {s t : CStr}, P s → P t →
              P (if b then s else t) := by
            intro b _ s t hs ht
            split_ifs
            · exact hs
            · exact ht
          simp only [BoundingBox.texts, List.forall_mem_cons]
          exact ⟨hif hlat hminlat, hif hlon hminlon, hif hlat hmaxlat, hif hlon hmaxlon,
            fun t ht => absurd ht List.not_mem_nil⟩

/-- The callback goes on after a complete row when there is room. -/
lemma sqresExportCallback_columns {env : ExportEnv} {s s' : ExportSet}
    (hroom : s.ensureRoom env = some s') (r : TrackRow) :
    sqresExportCallback env s r.columns = (true, s'.store env r) := by
  have hlen : ¬ r.columns.length ≠ 11 := by simp [TrackRow.columns]
  simp only [sqresExportCallback, if_neg hlen, hroom, readColumns_columns]

/-- Making room changes neither the entries nor the bounding box. -/
lemma ensureRoom_some {env : ExportEnv} {s s' : ExportSet} (h : s.ensureRoom env = some s') :
    s'.locs = s.locs ∧ s'.box = s.box := by
  simp only [ExportSet.ensureRoom] at h
  split_ifs at h
  · rw [← Option.some.inj h]
    exact ⟨rfl, rfl⟩
  · rw [← Option.some.inj h]
    exact ⟨rfl, rfl⟩

/-- **A query that comes to its last row has kept all of them**, in order. -/
lemma exportRows_true {env : ExportEnv} : ∀ {rows : List TrackRow} {s : ExportSet},
    (exportRows env s (rows.map TrackRow.columns)).1 = true → s.box = boundsOf s.locs →
      (exportRows env s (rows.map TrackRow.columns)).2.locs
          = s.locs ++ rows.map (TrackRow.loc env.timezone) ∧
        (exportRows env s (rows.map TrackRow.columns)).2.box
          = boundsOf (s.locs ++ rows.map (TrackRow.loc env.timezone))
  | [], s, _, hbox => by simp [exportRows, hbox]
  | r :: rows, s, h, hbox => by
      rw [List.map_cons, exportRows] at h ⊢
      cases hroom : s.ensureRoom env with
      | none => simp [sqresExportCallback, TrackRow.columns, hroom] at h
      | some s' =>
          obtain ⟨hlocs, hbox'⟩ := ensureRoom_some hroom
          rw [sqresExportCallback_columns hroom r] at h ⊢
          have hnext : (s'.store env r).box = boundsOf (s'.store env r).locs := by
            show s'.box.update s'.locs.isEmpty (r.loc env.timezone) = boundsOf (s'.locs ++ [_])
            rw [boundsOf_concat, hlocs, hbox', hbox]
          have ih := exportRows_true h hnext
          have hsplit : s.locs ++ (r :: rows).map (TrackRow.loc env.timezone)
              = (s'.store env r).locs ++ rows.map (TrackRow.loc env.timezone) := by
            show _ = (s'.locs ++ [r.loc env.timezone]) ++ _
            rw [hlocs, List.map_cons, List.append_assoc, List.singleton_append]
          rw [hsplit]
          exact ih

/-- **Of complete rows, all is kept, in order**, as long as there is memory. -/
theorem exportRows_columns {env : ExportEnv} (hmem : ∀ n, env.reallocOk n = true)
    (rows : List TrackRow) {s : ExportSet} (hbox : s.box = boundsOf s.locs) :
    (exportRows env s (rows.map TrackRow.columns)).1 = true ∧
      (exportRows env s (rows.map TrackRow.columns)).2.locs
        = s.locs ++ rows.map (TrackRow.loc env.timezone) ∧
      (exportRows env s (rows.map TrackRow.columns)).2.box
        = boundsOf (s.locs ++ rows.map (TrackRow.loc env.timezone)) := by
  have hdone : ∀ s, (exportRows env s (rows.map TrackRow.columns)).1 = true := by
    induction rows with
    | nil => exact fun _ => rfl
    | cons r rows ih =>
        intro s
        have hroom : ∃ s', s.ensureRoom env = some s' := by
          simp only [ExportSet.ensureRoom, hmem, if_true]
          split_ifs
          · exact ⟨_, rfl⟩
          · exact ⟨_, rfl⟩
        obtain ⟨s', hs'⟩ := hroom
        rw [List.map_cons, exportRows, sqresExportCallback_columns hs' r]
        exact ih _
  exact ⟨hdone s, exportRows_true (hdone s) hbox⟩

end G7
