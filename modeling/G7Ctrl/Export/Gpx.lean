import G7Ctrl.Export.ListGrowth
import Mathlib.Algebra.Order.Group.Abs

/-!
# Tracks and segments of a GPX export (`export_to_gpx`)

The points of a result set are written in order.  Between two points that lie far apart in time a
track is closed and another one begun, or a segment of the track; there is a limit for each, and a
limit that is not positive is none.

The time of a point is the time stamp the callback of the query has made, which it takes from the
address of the row and not from its date.

* `exportToGpx` — the text of the file.
* `breakBefore` — what should stand before a point.
* `SplitsByDeviceTime` — what is expected of an export.
* **`splitsByDeviceTime_iff`** — of rows in order of their dates, exactly when they come into the
  list and every address reads as the same time as the date.
* **`hour_not_split`** — two points an hour apart, with a limit of ten minutes.
-/

namespace G7

/-! ## The text -/

/-- What `fromtimestamp` returns for the time of the export. -/
structure ExportTime where
  year : ℕ
  month : ℕ
  day : ℕ
  hour : ℕ
  minute : ℕ
  second : ℕ

/-- `"%d-%02d-%02dT%02d:%02d:%02dZ"` -/
def ExportTime.text (t : ExportTime) : CStr :=
  dec t.year ++ str "-" ++ dec02 t.month ++ str "-" ++ dec02 t.day ++ str "T" ++ dec02 t.hour ++
    str ":" ++ dec02 t.minute ++ str ":" ++ dec02 t.second ++ str "Z"

/-- `track_split_time` and `trackseg_split_time`, in minutes, of type `int`. -/
structure SplitTimes where
  track : ℤ
  trackseg : ℤ
  track_lt : track < 2 ^ 31
  trackseg_lt : trackseg < 2 ^ 31

/-- What the loop of `export_to_gpx` writes. -/
inductive GpxWrite where
  /-- The end of a track, and the beginning of the next. -/
  | newTrk (numTrack : ℕ)
  /-- The end of a segment, and the beginning of the next. -/
  | newTrkseg
  | trkpt (p : G7Loc)

/-- `GPX_XML_HEADER` -/
def gpxXmlHeader : CStr := str "<?xml version=\"1.0\" encoding=\"UTF-8\"?>\n<gpx version=\"1.1\" \ncreator=\"g7ctrl http://www.sourceforge.com/p/g7ctrl\" \nxmlns:xsi=\"http://www.w3.org/2001/XMLSchema-instance\"\nxmlns=\"http://www.topografix.com/GPX/1/1\"\nxsi:schemaLocation=\"http://www.topografix.com/GPX/1/0 http://www.topografix.com/GPX/1/0/gpx.xsd\">\n"

/-- `<bounds … />` -/
def boundsText (box : BoundingBox) : CStr :=
  str "<bounds minlat=\"" ++ box.minlat ++ str "\" minlon=\"" ++ box.minlon ++
    str "\" maxlat=\"" ++ box.maxlat ++ str "\" maxlon=\"" ++ box.maxlon ++ str "\" />\n"

/-- The beginning of a track. -/
def trkText (numTrack : ℕ) : CStr :=
  str "<trk>\n  <name>Track " ++ dec02 numTrack ++
    str ": GM7 Xtreme GPS tracker</name>\n  <trkseg>\n"

/-- A point. -/
def trkptText (p : G7Loc) : CStr :=
  str "    <trkpt lat=\"" ++ p.lat ++ str "\" lon=\"" ++ p.lon ++ str "\">\n      <ele>" ++
    p.altitude ++ str "</ele>\n      <time>" ++ p.date ++ str "</time> <timestamp>" ++
    dec p.dateTimestamp ++ str "</timestamp>\n      <course>" ++ p.heading ++
    str "</course>\n      <speed>" ++ p.speed ++ str "</speed>\n      <sat>" ++ p.satellite ++
    str "</sat>\n    </trkpt>\n"

/-- The text of a write. -/
def GpxWrite.text : GpxWrite → CStr
  | newTrk numTrack => str "  </trkseg>\n</trk>\n" ++ trkText numTrack
  | newTrkseg => str "  </trkseg>\n  <trkseg>\n"
  | trkpt p => trkptText p

/-- `a - b` for `unsigned long`. -/
def ulSub (a b : ℕ) : ℕ := (a + 2 ^ 64 - b) % 2 ^ 64

/-- `limit > 0 && curr - prev > (unsigned long) limit * 60` -/
def exceeds (limit : ℤ) (prev curr : ℕ) : Bool :=
  0 < limit ∧ toUnsignedLong limit * 60 % 2 ^ 64 < ulSub curr prev

/-- The loop of `export_to_gpx`. -/
def gpxLoop (cfg : SplitTimes) : ℕ → ℕ → List G7Loc → List GpxWrite
  | _, _, [] => []
  | numTrack, prev, p :: ps =>
      if exceeds cfg.track prev p.dateTimestamp then
        .newTrk numTrack :: .trkpt p :: gpxLoop cfg (numTrack + 1) p.dateTimestamp ps
      else if exceeds cfg.trackseg prev p.dateTimestamp then
        .newTrkseg :: .trkpt p :: gpxLoop cfg numTrack p.dateTimestamp ps
      else .trkpt p :: gpxLoop cfg numTrack p.dateTimestamp ps

/-- What the loop writes; before it the time stamp of the first entry is the previous one. -/
def gpxWrites (cfg : SplitTimes) (locs : List G7Loc) : List GpxWrite :=
  gpxLoop cfg 2 (match locs with | [] => 0 | p :: _ => p.dateTimestamp) locs

/-- `export_to_gpx` -/
def exportToGpx (cfg : SplitTimes) (now : ExportTime) (box : BoundingBox) (locs : List G7Loc) :
    CStr :=
  gpxXmlHeader ++ str "<metadata>\n" ++ str "  <time>" ++ now.text ++ str "</time>\n" ++
    str "</metadata>\n" ++ boundsText box ++ trkText 1 ++
    (gpxWrites cfg locs).flatMap GpxWrite.text ++ str "  </trkseg>\n" ++ str "</trk>\n" ++
    str "</gpx>\n"

/-! ## What is expected -/

/-- What a reader sees of a write: the number of the track does not matter. -/
inductive GpxMark where
  | trk
  | trkseg
  | trkpt (p : G7Loc)
  deriving DecidableEq

/-- The mark of a write. -/
def GpxWrite.mark : GpxWrite → GpxMark
  | newTrk _ => .trk
  | newTrkseg => .trkseg
  | trkpt p => .trkpt p

/-- The time of the device in a row. -/
def TrackRow.deviceTime (timezone : ℤ) (r : TrackRow) : ℤ := mktime timezone (strptime r.datetime)

/-- The limit is one, and the times differ by more than it. -/
def Apart (limit t t' : ℤ) : Prop := 0 < limit ∧ limit * 60 < |t - t'|

instance (limit t t' : ℤ) : Decidable (Apart limit t t') := instDecidableAnd

/-- What should stand between two points. -/
def breakBetween (cfg : SplitTimes) (t t' : ℤ) : List GpxMark :=
  if Apart cfg.track t t' then [.trk] else if Apart cfg.trackseg t t' then [.trkseg] else []

/-- What should stand before point `i`. -/
def breakBefore (cfg : SplitTimes) (time : ℕ → ℤ) : ℕ → List GpxMark
  | 0 => []
  | i + 1 => breakBetween cfg (time i) (time (i + 1))

/-- The times of the device in some rows. -/
def deviceTimes (timezone : ℤ) (rows : List TrackRow) (i : ℕ) : ℤ :=
  (rows.map (TrackRow.deviceTime timezone)).getD i 0

/-- What is expected of an export of the rows of a query: they come into the list, the time of a
point is the time of the device, and each point follows what should stand before it. -/
structure SplitsByDeviceTime (cfg : SplitTimes) (env : ExportEnv) (rows : List TrackRow) :
    Prop where
  loads : Loads env (rows.map TrackRow.columns)
  time : (internalSet env rows).locs.map G7Loc.dateTimestamp
    = rows.map fun r => toUnsignedLong (r.deviceTime env.timezone)
  marks : (gpxWrites cfg (internalSet env rows).locs).map GpxWrite.mark
    = rows.zipIdx.flatMap fun ri => breakBefore cfg (deviceTimes env.timezone rows) ri.2 ++
        [.trkpt (ri.1.loc env.timezone)]

/-! ## The range of the times -/

/-- A broken-down time as `strptime` leaves it. -/
structure Tm.InRange (tm : Tm) : Prop where
  year : -1900 ≤ tm.tmYear ∧ tm.tmYear ≤ 8099
  mday : 0 ≤ tm.tmMday ∧ tm.tmMday ≤ 31
  hour : 0 ≤ tm.tmHour ∧ tm.tmHour ≤ 23
  min : 0 ≤ tm.tmMin ∧ tm.tmMin ≤ 59
  sec : 0 ≤ tm.tmSec ∧ tm.tmSec ≤ 61

lemma getNumber_range {lo hi n : ℕ} {rp : CStr} {val : ℕ} {rest : CStr}
    (h : getNumber lo hi n rp = some (val, rest)) : lo ≤ val ∧ val ≤ hi := by
  rw [getNumber] at h
  split at h
  · simp at h
  · simp only at h
    split_ifs at h with _ hrange
    simp only [Option.some.injEq, Prod.mk.injEq] at h
    exact h.1 ▸ hrange

/-- A conversion keeps the time in range. -/
def KeepsRange (conv : ℕ × ℕ × ℕ × (Tm → ℤ → Tm)) : Prop :=
  ∀ (tm : Tm) (v : ℕ), conv.1 ≤ v → v ≤ conv.2.1 → tm.InRange → (conv.2.2.2 tm v).InRange

/-- So does a format made of such conversions, wherever the reading ends. -/
lemma inRange_strptimeLoop (convs : List (ℕ × ℕ × ℕ × (Tm → ℤ → Tm))) :
    ∀ {rp : CStr} {tm : Tm}, (∀ conv ∈ convs, KeepsRange conv) → tm.InRange →
      (strptimeLoop convs rp tm).InRange := by
  induction convs with
  | nil => exact fun _ h => h
  | cons conv convs ih =>
      intro rp tm hconvs h
      obtain ⟨lo, hi, n, set⟩ := conv
      rw [strptimeLoop]
      cases hnum : getNumber lo hi n rp with
      | none => exact h
      | some vr =>
          have hrange := getNumber_range hnum
          exact ih (fun conv hconv => hconvs conv (List.mem_cons_of_mem _ hconv))
            (hconvs _ (List.mem_cons_self ..) tm vr.1 hrange.1 hrange.2 h)

/-- **`strptime` leaves a time in range**, whatever the text. -/
lemma inRange_strptime (text : CStr) : (strptime text).InRange := by
  refine inRange_strptimeLoop _ ?_ ⟨by decide, by decide, by decide, by decide, by decide⟩
  simp only [List.forall_mem_cons, List.not_mem_nil, false_implies, implies_true, and_true]
  refine ⟨?_, ?_, ?_, ?_, ?_, ?_⟩ <;> intro tm v hlo hhi h <;>
    obtain ⟨hyear, hmday, hhour, hmin, hsec⟩ := h <;> simp only at hlo hhi
  · exact ⟨by simp only; omega, hmday, hhour, hmin, hsec⟩
  · exact ⟨hyear, hmday, hhour, hmin, hsec⟩
  · exact ⟨hyear, by simp only; omega, hhour, hmin, hsec⟩
  · exact ⟨hyear, hmday, by simp only; omega, hmin, hsec⟩
  · exact ⟨hyear, hmday, hhour, by simp only; omega, hsec⟩
  · exact ⟨hyear, hmday, hhour, hmin, by simp only; omega⟩

lemma daysBefore_range (tmYear tmMon : ℤ) :
    0 ≤ daysBefore tmYear tmMon ∧ daysBefore tmYear tmMon ≤ 335 := by
  have htable : ∀ d ∈ [0, 31, 59, 90, 120, 151, 181, 212, 243, 273, 304, (334 : ℤ)],
      0 ≤ d ∧ d ≤ 334 := by decide
  have hday : ∀ i : ℕ,
      0 ≤ [0, 31, 59, 90, 120, 151, 181, 212, 243, 273, 304, (334 : ℤ)].getD i 0 ∧
        [0, 31, 59, 90, 120, 151, 181, 212, 243, 273, 304, (334 : ℤ)].getD i 0 ≤ 334 := by
    intro i
    rw [List.getD_eq_getElem?_getD]
    cases hi : [0, 31, 59, 90, 120, 151, 181, 212, 243, 273, 304, (334 : ℤ)][i]? with
    | none => decide
    | some d => exact htable d (List.mem_of_getElem? hi)
  have hd := hday tmMon.toNat
  rw [daysBefore]
  split_ifs <;> omega

/-- **Two times read from texts differ by less than 2^40 seconds.** -/
lemma mktime_strptime_sub_lt (timezone : ℤ) (s t : CStr) :
    |mktime timezone (strptime s) - mktime timezone (strptime t)| < 2 ^ 40 := by
  have hbound : ∀ u : CStr, -(2 ^ 39) < mktime 0 (strptime u) ∧ mktime 0 (strptime u) < 2 ^ 39 := by
    intro u
    obtain ⟨hyear, hmday, hhour, hmin, hsec⟩ := inRange_strptime u
    have hdays := daysBefore_range (strptime u).tmYear (strptime u).tmMon
    simp only [mktime]
    omega
  have hzone : ∀ u : CStr, mktime timezone (strptime u) = mktime 0 (strptime u) + timezone := by
    intro u
    simp only [mktime]
    omega
  have hs := hbound s
  have ht := hbound t
  rw [hzone s, hzone t, abs_lt]
  omega

/-! ## The splits -/

/-- The difference of two time stamps is the difference of the times. -/
lemma ulSub_toUnsignedLong {t t' : ℤ} (hle : t ≤ t') (hlt : t' - t < 2 ^ 64) :
    (ulSub (toUnsignedLong t') (toUnsignedLong t) : ℤ) = t' - t := by
  have ht := Int.emod_nonneg t (b := 2 ^ 64) (by omega)
  have ht' := Int.emod_nonneg t' (b := 2 ^ 64) (by omega)
  rw [ulSub, toUnsignedLong, toUnsignedLong]
  omega

/-- Time stamps of times that differ by less than the range are different. -/
lemma toUnsignedLong_inj {t t' : ℤ} (hlt : |t - t'| < 2 ^ 40)
    (h : toUnsignedLong t = toUnsignedLong t') : t = t' := by
  rw [abs_lt] at hlt
  rw [toUnsignedLong, toUnsignedLong] at h
  omega

/-- **The comparison of the code is the one that is meant**, for times in order. -/
lemma exceeds_iff {limit t t' : ℤ} (hlimit : limit < 2 ^ 31) (hle : t ≤ t')
    (hlt : |t - t'| < 2 ^ 40) :
    exceeds limit (toUnsignedLong t) (toUnsignedLong t') = true ↔ Apart limit t t' := by
  have habs : |t - t'| = t' - t := by rw [abs_sub_comm, abs_of_nonneg (by omega)]
  rw [habs] at hlt
  have hdiff := ulSub_toUnsignedLong hle (by omega)
  rw [exceeds, Apart, habs, decide_eq_true_iff]
  refine and_congr_right fun hpos => ?_
  have hmul : (toUnsignedLong limit * 60 % 2 ^ 64 : ℕ) = limit * 60 := by
    rw [toUnsignedLong]
    omega
  rw [← hmul, ← hdiff]
  exact Int.ofNat_lt.symm

/-- What should be written after a point of time `prev`. -/
def expectedAfter (cfg : SplitTimes) (timezone : ℤ) : ℤ → List TrackRow → List GpxMark
  | _, [] => []
  | prev, r :: rows =>
      breakBetween cfg prev (r.deviceTime timezone) ++ [.trkpt (r.loc timezone)] ++
        expectedAfter cfg timezone (r.deviceTime timezone) rows

/-- The loop writes what should be written, when the time stamps are those of the device. -/
lemma marks_gpxLoop (cfg : SplitTimes) (timezone : ℤ) (rows : List TrackRow) :
    ∀ (numTrack : ℕ) (text : CStr),
      (∀ r ∈ rows, (r.loc timezone).dateTimestamp = toUnsignedLong (r.deviceTime timezone)) →
      (mktime timezone (strptime text) :: rows.map (TrackRow.deviceTime timezone)).Pairwise
        (· ≤ ·) →
      (gpxLoop cfg numTrack (toUnsignedLong (mktime timezone (strptime text)))
          (rows.map (TrackRow.loc timezone))).map GpxWrite.mark
        = expectedAfter cfg timezone (mktime timezone (strptime text)) rows := by
  induction rows with
  | nil => exact fun _ _ _ _ => rfl
  | cons r rows ih =>
      intro numTrack text htime hsorted
      rw [List.map_cons, List.pairwise_cons] at hsorted
      have hle := hsorted.1 _ (List.mem_cons_self ..)
      have hlt := mktime_strptime_sub_lt timezone text r.datetime
      have hr := htime r (List.mem_cons_self ..)
      have hrest : ∀ n, (gpxLoop cfg n (toUnsignedLong (r.deviceTime timezone))
          (rows.map (TrackRow.loc timezone))).map GpxWrite.mark
            = expectedAfter cfg timezone (r.deviceTime timezone) rows :=
        fun n => ih n r.datetime (fun r' hr' => htime r' (List.mem_cons_of_mem _ hr')) hsorted.2
      have htrack := exceeds_iff cfg.track_lt hle hlt
      have htrackseg := exceeds_iff cfg.trackseg_lt hle hlt
      rw [List.map_cons, gpxLoop, expectedAfter, breakBetween, hr]
      simp only [htrack, htrackseg]
      split_ifs
      · simpa [GpxWrite.mark] using hrest (numTrack + 1)
      · simpa [GpxWrite.mark] using hrest numTrack
      · simpa [GpxWrite.mark] using hrest numTrack

/-- The expected marks, point by point. -/
lemma flatMap_zipIdx_eq (cfg : SplitTimes) (timezone : ℤ) {time : ℕ → ℤ} (rows : List TrackRow) :
    ∀ {k : ℕ}, (∀ j, j < rows.length →
        time (k + 1 + j) = (rows.map (TrackRow.deviceTime timezone)).getD j 0) →
      ((rows.zipIdx (k + 1)).flatMap fun ri => breakBefore cfg time ri.2 ++
          [.trkpt (ri.1.loc timezone)])
        = expectedAfter cfg timezone (time k) rows := by
  induction rows with
  | nil => exact fun _ => rfl
  | cons r rows ih =>
      intro k htime
      have hr : time (k + 1) = r.deviceTime timezone := htime 0 (by simp)
      have hrest := ih (k := k + 1) fun j hj => by
        have h := htime (j + 1) (by simpa using hj)
        rwa [show k + 1 + (j + 1) = k + 1 + 1 + j by omega] at h
      rw [List.zipIdx_cons, List.flatMap_cons, hrest, expectedAfter, breakBefore, hr]

/-- Nothing is written before the first point. -/
lemma breakBetween_self (cfg : SplitTimes) (t : ℤ) : breakBetween cfg t t = [] := by
  have hself : ∀ limit, ¬ Apart limit t t := by
    rintro limit ⟨hpos, hlt⟩
    rw [sub_self, abs_zero] at hlt
    omega
  rw [breakBetween, if_neg (hself _), if_neg (hself _)]

/-- **The marks of all points**, when the time stamps are those of the device. -/
lemma marks_gpxWrites (cfg : SplitTimes) (timezone : ℤ) {rows : List TrackRow}
    (hsorted : (rows.map (TrackRow.deviceTime timezone)).Pairwise (· ≤ ·))
    (htime : ∀ r ∈ rows, (r.loc timezone).dateTimestamp = toUnsignedLong (r.deviceTime timezone)) :
    (gpxWrites cfg (rows.map (TrackRow.loc timezone))).map GpxWrite.mark
      = rows.zipIdx.flatMap fun ri => breakBefore cfg (deviceTimes timezone rows) ri.2 ++
          [.trkpt (ri.1.loc timezone)] := by
  cases rows with
  | nil => rfl
  | cons r rows =>
      have hfirst : ∀ t ∈ (r :: rows).map (TrackRow.deviceTime timezone),
          r.deviceTime timezone ≤ t := by
        rw [List.map_cons, List.pairwise_cons] at hsorted
        rw [List.map_cons, List.forall_mem_cons]
        exact ⟨le_refl _, hsorted.1⟩
      have hloop : (gpxLoop cfg 2 (toUnsignedLong (r.deviceTime timezone))
          ((r :: rows).map (TrackRow.loc timezone))).map GpxWrite.mark
            = expectedAfter cfg timezone (r.deviceTime timezone) (r :: rows) :=
        marks_gpxLoop cfg timezone (r :: rows) 2 r.datetime htime
          (List.pairwise_cons.mpr ⟨hfirst, hsorted⟩)
      have hrows : ∀ j, j < rows.length → deviceTimes timezone (r :: rows) (0 + 1 + j)
          = (rows.map (TrackRow.deviceTime timezone)).getD j 0 := by
        intro j _
        rw [deviceTimes, Nat.zero_add, Nat.add_comm]
        rfl
      show (gpxLoop cfg 2 (r.loc timezone).dateTimestamp _).map GpxWrite.mark = _
      rw [htime r (List.mem_cons_self ..), hloop, List.zipIdx_cons, List.flatMap_cons,
        flatMap_zipIdx_eq cfg timezone rows hrows, expectedAfter, breakBetween_self]
      rfl

/-- **A track or a segment begins exactly where it should** when there are at most 50000 rows and
every address reads as the same time as the date, for rows in order of their dates, whatever the
limits. -/
theorem splitsByDeviceTime_iff (cfg : SplitTimes) (env : ExportEnv) {rows : List TrackRow}
    (hsorted : (rows.map (TrackRow.deviceTime env.timezone)).Pairwise (· ≤ ·)) :
    SplitsByDeviceTime cfg env rows ↔ rows.length ≤ internalListChunksize ∧
      ∀ r ∈ rows, mktime env.timezone (strptime r.approxaddr) = r.deviceTime env.timezone := by
  have htimes : (rows.map (TrackRow.loc env.timezone)).map G7Loc.dateTimestamp
      = (rows.map fun r => toUnsignedLong (r.deviceTime env.timezone)) ↔ ∀ r ∈ rows,
        (r.loc env.timezone).dateTimestamp = toUnsignedLong (r.deviceTime env.timezone) := by
    rw [List.map_map]
    exact List.map_inj_left
  constructor
  · rintro ⟨hloads, htime, -⟩
    rw [hloads.internalSet_eq.1] at htime
    exact ⟨(loads_iff env rows).mp hloads, fun r hr =>
      toUnsignedLong_inj (mktime_strptime_sub_lt env.timezone _ _) (htimes.mp htime r hr)⟩
  · rintro ⟨hlen, hread⟩
    have hloads := (loads_iff env rows).mpr hlen
    have htime : ∀ r ∈ rows, (r.loc env.timezone).dateTimestamp
        = toUnsignedLong (r.deviceTime env.timezone) :=
      fun r hr => congrArg toUnsignedLong (hread r hr)
    refine ⟨hloads, ?_, ?_⟩ <;> rw [hloads.internalSet_eq.1]
    · exact htimes.mpr htime
    · exact marks_gpxWrites cfg env.timezone hsorted htime

/-- Ten minutes for a track, five for a segment. -/
def tenMinutes : SplitTimes where
  track := 10
  trackseg := 5
  track_lt := by decide
  trackseg_lt := by decide

/-- Two points an hour apart. -/
def hourApart : List TrackRow := [pointAt (str "20131201093042"), pointAt (str "20131201103042")]

lemma sorted_hourApart :
    (hourApart.map (TrackRow.deviceTime 0)).Pairwise (· ≤ ·) := by
  decide

/-- The same points at addresses that read as their times. -/
def hourApartTimed : List TrackRow := hourApart.map fun r => { r with approxaddr := r.datetime }

/-- Two points an hour apart are in two tracks when their addresses read as their times. -/
theorem splitsByDeviceTime_iff_hourApart :
    SplitsByDeviceTime tenMinutes utcEnv hourApartTimed ∧
      breakBefore tenMinutes (deviceTimes 0 hourApartTimed) 1 = [.trk] :=
  ⟨(@splitsByDeviceTime_iff tenMinutes utcEnv hourApartTimed (by decide)).mpr
    ⟨by decide, by decide⟩, by decide⟩

/-- **Two points an hour apart are in one segment** although a track ends after ten minutes. -/
theorem hour_not_split :
    ¬ ∀ (cfg : SplitTimes) (env : ExportEnv) (rows : List TrackRow),
      (rows.map (TrackRow.deviceTime env.timezone)).Pairwise (· ≤ ·) →
        SplitsByDeviceTime cfg env rows := by
  intro h
  have hmarks := (h tenMinutes utcEnv hourApart sorted_hourApart).marks
  exact absurd hmarks (by decide)

end G7
