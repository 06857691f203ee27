import G7Ctrl.Core.Captures
import G7Ctrl.Xstr.Copy
import G7Ctrl.Xstr.Number
import G7Ctrl.Xstr.Trim
import Mathlib.Tactic.IntervalCases

/-!
# The filters of `db dist` and `db export`

The two commands take the same filter, and each decodes the fields of its regular expression by
itself: `db_calc_distance` by the number of fields it gets, which depends on the parts that were
given, and `exportdb_to_external_format` with the groups of the format behind the filter, so that
the number says nothing.

* `Filter` — the parts of a filter, each as its regular expression admits it.
* `distMatch`, `exportMatch` — what the two regular expressions capture.
* `dbAddWcond`, `exportQuery` — how the statement is put together.
* **`filters_agree`** — both commands ask for the same rows: those that meet the conditions given.
-/

namespace G7

/-! ## What a user can give -/

/-- `n` digits with a value from `lo` to `hi`. -/
def isNumber (n lo hi : ℕ) (s : CStr) : Bool :=
  s.length = n ∧ s.all isDigit ∧ lo ≤ digitsValue s ∧ digitsValue s ≤ hi

/-- `_PR_FULLDATE`: `(201[0-9])-(0[1-9]|1[0-2])-([0-2][0-9]|3[0-2])` -/
structure FullDate where
  year : CStr
  month : CStr
  day : CStr
  year_ok : isNumber 4 2010 2019 year = true
  month_ok : isNumber 2 1 12 month = true
  day_ok : isNumber 2 0 32 day = true

/-- `_PR_TIME`: `([0-1][0-9]|2[0-3]):([0-5][0-9])` -/
structure HourMinute where
  hour : CStr
  minute : CStr
  hour_ok : isNumber 2 0 23 hour = true
  minute_ok : isNumber 2 0 59 minute = true

/-- A device: `3[\p{N}]{2,9}`. -/
structure DeviceFilter where
  id : CStr
  id_ok : id.head? = some (ch '3') ∧ id.all isDigit = true ∧ 3 ≤ id.length ∧ id.length ≤ 10

/-- An event: `[\p{N}]+`, of at most seven digits. -/
structure EventFilter where
  id : CStr
  id_ok : id.all isDigit = true ∧ 1 ≤ id.length ∧ id.length ≤ 7

/-- The dates, each with an optional time. -/
structure DateFilter where
  fromDate : FullDate
  fromTime : Option HourMinute
  toDate : FullDate
  toTime : Option HourMinute

/-- A filter: each part is optional. -/
structure Filter where
  device : Option DeviceFilter
  event : Option EventFilter
  dates : Option DateFilter

/-! ## The regular expressions -/

/-- `_PR_FULLDATE` -/
def prFulldate (d : FullDate) : Match :=
  (Match.lit d.year).group ++ Match.lit (str "-") ++ (Match.lit d.month).group ++
    Match.lit (str "-") ++ (Match.lit d.day).group

/-- `_PR_TIME` -/
def prTime (t : HourMinute) : Match :=
  (Match.lit t.hour).group ++ Match.lit (str ":") ++ (Match.lit t.minute).group

/-- `_PR_OPDEVID`, with the blanks that `_PR_SO` matched. -/
def prOpdevid (blanks : CStr) (device : Option DeviceFilter) : Match :=
  Match.opt 2 (device.map fun d =>
    (Match.lit (str "dev=") ++ (Match.lit d.id).group ++ Match.lit blanks).group)

/-- `_PR_OPEVENTID` -/
def prOpeventid (blanks : CStr) (event : Option EventFilter) : Match :=
  Match.opt 2 (event.map fun e =>
    (Match.lit (str "ev=") ++ (Match.lit e.id).group ++ Match.lit blanks).group)

/-- `_PR_OPTOFROMDATE` -/
def prOptofromdate (blanks₁ blanks₂ blanks₃ : CStr) (dates : Option DateFilter) : Match :=
  Match.opt 13 (dates.map fun d =>
    (prFulldate d.fromDate ++ Match.lit blanks₁ ++
      Match.opt 3 (d.fromTime.map fun t => (prTime t).group) ++ Match.lit (str " ") ++
        Match.lit blanks₂ ++ prFulldate d.toDate ++ Match.lit blanks₃ ++
          Match.opt 3 (d.toTime.map fun t => (prTime t).group)).group)

/-- The blanks in a command, by position. -/
abbrev Blanks := ℕ → CStr

/-- What the two regular expressions have in common. -/
def filterMatch (blanks : Blanks) (f : Filter) : Match :=
  prOpdevid (blanks 2) f.device ++ prOpeventid (blanks 3) f.event ++
    prOptofromdate (blanks 4) (blanks 5) (blanks 6) f.dates

/-- `"^db" _PR_S "dist" _PR_SO _PR_OPDEVID _PR_OPEVENTID _PR_OPTOFROMDATE _PR_E` -/
def distMatch (blanks : Blanks) (f : Filter) : Match :=
  Match.lit (str "db" ++ blanks 0 ++ str "dist" ++ blanks 1) ++ filterMatch blanks f

/-- `"^db" _PR_S "export" _PR_SO _PR_OPDEVID _PR_OPEVENTID _PR_OPTOFROMDATE _PR_SO` and the format,
with an optional file name. -/
def exportMatch (blanks : Blanks) (f : Filter) (format : CStr) (filename : Option CStr) : Match :=
  Match.lit (str "db" ++ blanks 0 ++ str "export" ++ blanks 1) ++ filterMatch blanks f ++
    Match.lit (blanks 7) ++ (Match.lit format).group ++
      Match.opt 2 (filename.map fun s => (Match.lit (blanks 8) ++ (Match.lit s).group).group)

/-! ## The decoders -/

/-- The arguments of `export_to_internal_set`. -/
structure ExportArgs where
  fromDate : CStr
  toDate : CStr
  deviceId : CStr
  eventId : CStr
  deriving DecidableEq

/-- `field[0] == '\0' ? default : field` -/
def orDefault (field : CStr) (default : String) : CStr :=
  if byteAt field 0 = 0 then str default else field

/-- The arguments that `db_calc_distance` finds in the fields. -/
def dbCalcDistanceArgs (fields : List CStr) : ExportArgs :=
  let nf := fields.length
  let field := fun i => fields.getD i []
  { deviceId := if nf > 2 then snprintf 16 (field 2) else []
    eventId := if nf > 4 then snprintf 8 (field 4) else []
    fromDate :=
      if nf > 11 then
        if nf ≥ 15 then
          snprintf 16 (field 6 ++ field 7 ++ field 8 ++ orDefault (field 10) "00" ++
            orDefault (field 11) "00" ++ str "00")
        else snprintf 16 (field 6 ++ field 7 ++ field 8 ++ str "000000")
      else []
    toDate :=
      if nf > 11 ∧ nf ≥ 15 then
        if nf ≥ 18 then
          snprintf 16 (field 12 ++ field 13 ++ field 14 ++ orDefault (field 16) "23" ++
            orDefault (field 17) "59" ++ str "59")
        else snprintf 16 (field 12 ++ field 13 ++ field 14 ++ str "235959")
      else [] }

/-- What `exportdb_to_external_format` finds in the fields. -/
structure ExportRequest where
  args : ExportArgs
  format : CStr
  filename : CStr
  deriving DecidableEq

/-- A date without a day is only the time that was put behind it. -/
def clearTime (s : CStr) : CStr := if s.length = 6 then [] else s

/-- `EXPORTDB_BASE_NAME` -/
def exportdbBaseName : CStr := str "g7db_export"

/-- The arguments that `exportdb_to_external_format` finds in the fields. -/
def exportdbRequest (dbDir : CStr) (fields : List CStr) : ExportRequest :=
  let nf := fields.length
  let field := fun i => fields.getD i []
  { args :=
      { deviceId := if nf ≥ 8 then snprintf 16 (field 2) else []
        eventId := if nf ≥ 8 then snprintf 8 (field 4) else []
        fromDate :=
          if nf ≥ 8 then
            clearTime (if nf ≥ 15 then
                snprintf 16 (field 6 ++ field 7 ++ field 8 ++ orDefault (field 10) "00" ++
                  orDefault (field 11) "00" ++ str "00")
              else snprintf 16 (field 6 ++ field 7 ++ field 8 ++ str "000000"))
          else []
        toDate :=
          if nf ≥ 8 ∧ nf ≥ 15 then
            clearTime (if nf ≥ 18 then
                snprintf 16 (field 12 ++ field 13 ++ field 14 ++ orDefault (field 16) "23" ++
                  orDefault (field 17) "59" ++ str "59")
              else snprintf 16 (field 12 ++ field 13 ++ field 14 ++ str "235959"))
          else [] }
    format := if nf ≥ 8 ∧ nf ≥ 15 then snprintf 8 (field 18) else str "csv"
    filename :=
      if nf ≥ 8 ∧ nf ≥ 15 ∧ nf ≥ 21 then snprintf 256 (field 20)
      else snprintf 256 (dbDir ++ str "/" ++ exportdbBaseName) }

/-! ## The statement -/

/-- `db_add_wcond` -/
def dbAddWcond (w : CStr) (maxlen : ℕ) (col op : String) (val : CStr) : CStr :=
  let val := xstrtrim val
  if val = [] then w
  else if w ≠ [] then
    xstrlcat w (snprintf 255 (str " AND " ++ str col ++ str " " ++ str op ++ str " " ++ val ++
      str " ")) maxlen
  else snprintf maxlen (str "WHERE " ++ str col ++ str " " ++ str op ++ str " " ++ val ++ str " ")

/-- The condition that `export_to_internal_set` builds. -/
def whereClause (args : ExportArgs) : CStr :=
  let w := dbAddWcond [] 512 "fld_datetime" ">=" args.fromDate
  let w := dbAddWcond w 512 "fld_datetime" "<=" args.toDate
  let w := dbAddWcond w 512 "fld_deviceid" "=" args.deviceId
  dbAddWcond w 512 "fld_event" "=" args.eventId

/-- The statement of `export_to_internal_set` before its condition. -/
def exportSelect : CStr :=
  str "select fld_lat, fld_lon, fld_approxaddr, fld_datetime, fld_altitude, fld_speed,fld_voltage, fld_event, fld_heading, fld_deviceid, fld_satellite from tbl_track "

/-- The statement of `export_to_internal_set`; `none` when the dates are in the wrong order. -/
def exportQuery (args : ExportArgs) : Option CStr :=
  if args.toDate < args.fromDate then none
  else
    let q := snprintf 1024 exportSelect
    some (xstrlcat (xstrlcat q (whereClause args) 1024) (str ";") 1024)

/-! ## What is meant -/

/-- A comparison of a column with a number. -/
structure SqlCond where
  col : String
  op : String
  val : CStr

/-- `col op val ` -/
def SqlCond.text (c : SqlCond) : CStr :=
  str c.col ++ str " " ++ str c.op ++ str " " ++ c.val ++ str " "

/-- The conjunction of some conditions. -/
def sqlWhere : List SqlCond → CStr
  | [] => []
  | c :: cs => str "WHERE " ++ c.text ++ cs.flatMap fun d => str " AND " ++ d.text

/-- The time as it is stored, or what stands for it. -/
def timeText (default : String) (t : Option HourMinute) : CStr :=
  match t with
  | none => str default
  | some t => t.hour ++ t.minute

/-- The first second that is meant. -/
def DateFilter.first (d : DateFilter) : CStr :=
  d.fromDate.year ++ d.fromDate.month ++ d.fromDate.day ++ timeText "0000" d.fromTime ++ str "00"

/-- The last second that is meant. -/
def DateFilter.last (d : DateFilter) : CStr :=
  d.toDate.year ++ d.toDate.month ++ d.toDate.day ++ timeText "2359" d.toTime ++ str "59"

/-- The conditions of a filter. -/
def Filter.conditions (f : Filter) : List SqlCond :=
  (match f.dates with
    | none => []
    | some d => [⟨"fld_datetime", ">=", d.first⟩, ⟨"fld_datetime", "<=", d.last⟩]) ++
  (f.device.map fun d => SqlCond.mk "fld_deviceid" "=" d.id).toList ++
  (f.event.map fun e => SqlCond.mk "fld_event" "=" e.id).toList

/-- The arguments that are meant. -/
def Filter.args (f : Filter) : ExportArgs where
  fromDate := (f.dates.map DateFilter.first).getD []
  toDate := (f.dates.map DateFilter.last).getD []
  deviceId := (f.device.map DeviceFilter.id).getD []
  eventId := (f.event.map EventFilter.id).getD []

/-! ## Lengths -/

/-- A number has its number of digits. -/
lemma isNumber_spec {n lo hi : ℕ} {s : CStr} (h : isNumber n lo hi s = true) :
    s.length = n ∧ s.all isDigit = true := by
  simp only [isNumber, decide_eq_true_eq] at h
  exact ⟨h.1, h.2.1⟩

/-- A number is no empty field. -/
lemma orDefault_of_number {n lo hi : ℕ} {s : CStr} (h : isNumber (n + 1) lo hi s = true)
    (default : String) : orDefault s default = s := by
  obtain ⟨hlen, hdigits⟩ := isNumber_spec h
  cases s with
  | nil => simp at hlen
  | cons c cs =>
      rw [List.all_cons, Bool.and_eq_true] at hdigits
      have hc : ¬ byteAt (c :: cs) 0 = 0 := by
        rw [byteAt_cons_zero]
        rintro rfl
        exact absurd hdigits.1 (by decide)
      rw [orDefault, if_neg hc]

/-- A time is completed field by field. -/
lemma orDefault_time (t : Option HourMinute) (hour minute : String) :
    orDefault ((t.map HourMinute.hour).getD []) hour ++
      orDefault ((t.map HourMinute.minute).getD []) minute = timeText (hour ++ minute) t := by
  cases t with
  | none => exact str_append_str hour minute
  | some t =>
      show orDefault t.hour hour ++ orDefault t.minute minute = t.hour ++ t.minute
      rw [orDefault_of_number t.hour_ok, orDefault_of_number t.minute_ok]

lemma length_timeText {default : String} (h : (str default).length = 4) (t : Option HourMinute) :
    (timeText default t).length = 4 := by
  cases t with
  | none => exact h
  | some t =>
      rw [timeText, List.length_append, (isNumber_spec t.hour_ok).1, (isNumber_spec t.minute_ok).1]

lemma length_first (d : DateFilter) : d.first.length = 14 := by
  simp only [DateFilter.first, List.length_append, (isNumber_spec d.fromDate.year_ok).1,
    (isNumber_spec d.fromDate.month_ok).1, (isNumber_spec d.fromDate.day_ok).1,
    length_timeText (show (str "0000").length = 4 from rfl)]
  rfl

lemma length_last (d : DateFilter) : d.last.length = 14 := by
  simp only [DateFilter.last, List.length_append, (isNumber_spec d.toDate.year_ok).1,
    (isNumber_spec d.toDate.month_ok).1, (isNumber_spec d.toDate.day_ok).1,
    length_timeText (show (str "2359").length = 4 from rfl)]
  rfl

lemma length_deviceId_le (f : Filter) : f.args.deviceId.length ≤ 10 := by
  rw [Filter.args]
  cases f.device with
  | none => exact Nat.zero_le _
  | some d => exact d.id_ok.2.2.2

lemma length_eventId_le (f : Filter) : f.args.eventId.length ≤ 7 := by
  rw [Filter.args]
  cases f.event with
  | none => exact Nat.zero_le _
  | some e => exact e.id_ok.2.2

/-- What is copied when it is there is copied, when it fits. -/
lemma ite_snprintf {p : Prop} [Decidable p] {s : CStr} {size : ℕ} (hp : s ≠ [] → p)
    (hs : s.length < size) : (if p then snprintf size s else []) = s := by
  rw [snprintf_of_lt hs]
  split_ifs with h
  · rfl
  · exact (not_not.mp fun hne => h (hp hne)).symm

/-! ## The groups -/

lemma groups_prOpdevid (blanks : CStr) (device : Option DeviceFilter) :
    ∃ w, (prOpdevid blanks device).groups = [w, device.map DeviceFilter.id] := by
  cases device <;> exact ⟨_, rfl⟩

lemma groups_prOpeventid (blanks : CStr) (event : Option EventFilter) :
    ∃ w, (prOpeventid blanks event).groups = [w, event.map EventFilter.id] := by
  cases event <;> exact ⟨_, rfl⟩

lemma groups_prTime (t : Option HourMinute) :
    ∃ w, (Match.opt 3 (t.map fun t => (prTime t).group)).groups =
      [w, t.map HourMinute.hour, t.map HourMinute.minute] := by
  cases t <;> exact ⟨_, rfl⟩

/-- The groups of a filter without dates. -/
lemma groups_of_none (blanks : Blanks) {f : Filter} (hf : f.dates = none) :
    ∃ w₁ w₃, (filterMatch blanks f).groups =
      [w₁, f.device.map DeviceFilter.id, w₃, f.event.map EventFilter.id] ++
        List.replicate 13 none := by
  obtain ⟨w₁, hdevice⟩ := groups_prOpdevid (blanks 2) f.device
  obtain ⟨w₃, hevent⟩ := groups_prOpeventid (blanks 3) f.event
  refine ⟨w₁, w₃, ?_⟩
  show ((prOpdevid (blanks 2) f.device).groups ++ (prOpeventid (blanks 3) f.event).groups) ++
    (prOptofromdate (blanks 4) (blanks 5) (blanks 6) f.dates).groups = _
  rw [hdevice, hevent, hf]
  rfl

/-- The groups of a filter with dates. -/
lemma groups_of_some (blanks : Blanks) {f : Filter} {d : DateFilter} (hf : f.dates = some d) :
    ∃ w₁ w₃ w₅ w₉ w₁₅, (filterMatch blanks f).groups =
      [w₁, f.device.map DeviceFilter.id, w₃, f.event.map EventFilter.id, w₅,
        some d.fromDate.year, some d.fromDate.month, some d.fromDate.day, w₉,
        d.fromTime.map HourMinute.hour, d.fromTime.map HourMinute.minute,
        some d.toDate.year, some d.toDate.month, some d.toDate.day, w₁₅,
        d.toTime.map HourMinute.hour, d.toTime.map HourMinute.minute] := by
  obtain ⟨w₁, hdevice⟩ := groups_prOpdevid (blanks 2) f.device
  obtain ⟨w₃, hevent⟩ := groups_prOpeventid (blanks 3) f.event
  obtain ⟨w₉, hfrom⟩ := groups_prTime d.fromTime
  obtain ⟨w₁₅, hto⟩ := groups_prTime d.toTime
  have hdates : ∃ w₅, (prOptofromdate (blanks 4) (blanks 5) (blanks 6) (some d)).groups =
      w₅ :: ([some d.fromDate.year, some d.fromDate.month, some d.fromDate.day] ++
        (Match.opt 3 (d.fromTime.map fun t => (prTime t).group)).groups ++
          [some d.toDate.year, some d.toDate.month, some d.toDate.day] ++
            (Match.opt 3 (d.toTime.map fun t => (prTime t).group)).groups) := by
    refine ⟨_, congrArg (List.cons _) ?_⟩
    show ((((([some d.fromDate.year, some d.fromDate.month, some d.fromDate.day] ++ []) ++
      (Match.opt 3 (d.fromTime.map fun t => (prTime t).group)).groups) ++ []) ++ []) ++
        [some d.toDate.year, some d.toDate.month, some d.toDate.day]) ++ [] ++
          (Match.opt 3 (d.toTime.map fun t => (prTime t).group)).groups = _
    simp only [List.append_nil]
  obtain ⟨w₅, hdates⟩ := hdates
  refine ⟨w₁, w₃, w₅, w₉, w₁₅, ?_⟩
  show ((prOpdevid (blanks 2) f.device).groups ++ (prOpeventid (blanks 3) f.event).groups) ++
    (prOptofromdate (blanks 4) (blanks 5) (blanks 6) f.dates).groups = _
  rw [hdevice, hevent, hf, hdates, hfrom, hto]
  rfl

section

variable {blanks : Blanks} {f : Filter} {m : Match} {tail : List (Option CStr)}
  (hm : m.groups = (filterMatch blanks f).groups ++ tail)

include hm

/-- The device and the event, whatever else was given. -/
lemma field_device_event :
    m.fields.getD 2 [] = f.args.deviceId ∧ m.fields.getD 4 [] = f.args.eventId := by
  rw [getD_fields, getD_fields, Match.group, hm]
  cases hf : f.dates with
  | none =>
      obtain ⟨w₁, w₃, hgroups⟩ := groups_of_none blanks hf
      rw [hgroups]
      exact ⟨rfl, rfl⟩
  | some d =>
      obtain ⟨w₁, w₃, w₅, w₉, w₁₅, hgroups⟩ := groups_of_some blanks hf
      rw [hgroups]
      exact ⟨rfl, rfl⟩

/-- The date and time fields of a filter with dates. -/
lemma field_dates {d : DateFilter} (hd : f.dates = some d) :
    m.fields.getD 6 [] ++ m.fields.getD 7 [] ++ m.fields.getD 8 [] ++
        orDefault (m.fields.getD 10 []) "00" ++ orDefault (m.fields.getD 11 []) "00" ++ str "00"
          = d.first ∧
      m.fields.getD 12 [] ++ m.fields.getD 13 [] ++ m.fields.getD 14 [] ++
        orDefault (m.fields.getD 16 []) "23" ++ orDefault (m.fields.getD 17 []) "59" ++ str "59"
          = d.last := by
  obtain ⟨w₁, w₃, w₅, w₉, w₁₅, hgroups⟩ := groups_of_some blanks hd
  have hfrom : _ = timeText "0000" d.fromTime := orDefault_time d.fromTime "00" "00"
  have hto : _ = timeText "2359" d.toTime := orDefault_time d.toTime "23" "59"
  simp only [getD_fields, Match.group, hm, hgroups, List.append_assoc] at hfrom hto ⊢
  constructor
  · rw [DateFilter.first, ← hfrom]
    simp only [List.append_assoc]
    rfl
  · rw [DateFilter.last, ← hto]
    simp only [List.append_assoc]
    rfl

/-- The date and time fields of a filter without dates are empty. -/
lemma field_no_dates (hd : f.dates = none) (i : ℕ) (hi : i < 12) : m.fields.getD (i + 6) [] = [] := by
  obtain ⟨w₁, w₃, hgroups⟩ := groups_of_none blanks hd
  rw [getD_fields, Match.group, hm, hgroups]
  interval_cases i <;> rfl

/-- There are fields for the dates, and for the time of the end when it was given. -/
lemma lt_length_of_dates {d : DateFilter} (hd : f.dates = some d) :
    14 < m.fields.length ∧ (d.toTime ≠ none → 17 < m.fields.length) := by
  obtain ⟨w₁, w₃, w₅, w₉, w₁₅, hgroups⟩ := groups_of_some blanks hd
  constructor
  · refine lt_length_fields (s := d.toDate.day) ?_
    rw [Match.group, hm, hgroups]
    rfl
  · intro ht
    obtain ⟨t, ht⟩ := Option.ne_none_iff_exists'.mp ht
    refine lt_length_fields (s := t.minute) ?_
    rw [Match.group, hm, hgroups, ht]
    rfl

/-- The end without a time is that of the day. -/
lemma field_last_day {d : DateFilter} (hd : f.dates = some d) (ht : d.toTime = none) :
    m.fields.getD 12 [] ++ m.fields.getD 13 [] ++ m.fields.getD 14 [] ++ str "235959"
      = d.last := by
  obtain ⟨w₁, w₃, w₅, w₉, w₁₅, hgroups⟩ := groups_of_some blanks hd
  rw [DateFilter.last, ht, getD_fields, getD_fields, getD_fields, Match.group, hm, hgroups,
    List.append_assoc _ (timeText _ _)]
  rfl

end

/-! ## The arguments -/

/-- **The arguments of `db_calc_distance`** are those that are meant. -/
theorem dbCalcDistanceArgs_fields (blanks : Blanks) (f : Filter) :
    dbCalcDistanceArgs (distMatch blanks f).fields = f.args := by
  have hm : (distMatch blanks f).groups = (filterMatch blanks f).groups ++ [] := by
    rw [List.append_nil]
    rfl
  obtain ⟨hdevice, hevent⟩ := field_device_event hm
  have hdeviceId : (if (distMatch blanks f).fields.length > 2 then
      snprintf 16 ((distMatch blanks f).fields.getD 2 []) else []) = f.args.deviceId := by
    rw [hdevice]
    refine ite_snprintf (fun hne => lt_length_of_field (hdevice ▸ hne)) ?_
    exact Nat.lt_of_le_of_lt (length_deviceId_le f) (by decide)
  have heventId : (if (distMatch blanks f).fields.length > 4 then
      snprintf 8 ((distMatch blanks f).fields.getD 4 []) else []) = f.args.eventId := by
    rw [hevent]
    refine ite_snprintf (fun hne => lt_length_of_field (hevent ▸ hne)) ?_
    exact Nat.lt_of_le_of_lt (length_eventId_le f) (by decide)
  cases hd : f.dates with
  | none =>
      have hlen : (distMatch blanks f).fields.length ≤ 5 := by
        obtain ⟨w₁, w₃, hgroups⟩ := groups_of_none blanks hd
        refine length_fields_le fun g hg => ?_
        rw [Match.group, hm, hgroups, List.append_nil] at hg
        exact List.eq_of_mem_replicate hg
      have hfew : ¬ (distMatch blanks f).fields.length > 11 := by omega
      simp only [dbCalcDistanceArgs, hdeviceId, heventId, hfew, false_and, if_false]
      simp only [Filter.args, hd]
      rfl
  | some d =>
      obtain ⟨hfirst, hlast⟩ := field_dates hm hd
      obtain ⟨hlen, hlen'⟩ := lt_length_of_dates hm hd
      have hmany : (distMatch blanks f).fields.length > 11 := by omega
      have hmore : (distMatch blanks f).fields.length ≥ 15 := hlen
      simp only [dbCalcDistanceArgs, hdeviceId, heventId, hmany, hmore, and_self, if_true, hfirst,
        hlast]
      have hto : (if (distMatch blanks f).fields.length ≥ 18 then snprintf 16 d.last else
          snprintf 16 ((distMatch blanks f).fields.getD 12 [] ++
            (distMatch blanks f).fields.getD 13 [] ++ (distMatch blanks f).fields.getD 14 [] ++
              str "235959")) = d.last := by
        have hlast14 : snprintf 16 d.last = d.last :=
          snprintf_of_lt (by rw [length_last]; decide)
        split_ifs with h18
        · exact hlast14
        · have ht : d.toTime = none := by
            by_contra ht
            exact h18 (hlen' ht)
          rw [field_last_day hm hd ht, hlast14]
      have hfrom : snprintf 16 d.first = d.first := snprintf_of_lt (by rw [length_first]; decide)
      rw [hto, hfrom]
      simp only [Filter.args, hd]
      rfl

/-- **The arguments of `exportdb_to_external_format`** are those that are meant. -/
theorem exportdbRequest_fields (blanks : Blanks) (f : Filter) (format : CStr)
    (filename : Option CStr) (dbDir : CStr) :
    (exportdbRequest dbDir (exportMatch blanks f format filename).fields).args = f.args := by
  have hgroups17 : (filterMatch blanks f).groups.length = 17 := by
    cases hd : f.dates with
    | none =>
        obtain ⟨w₁, w₃, hgroups⟩ := groups_of_none blanks hd
        rw [hgroups]
        rfl
    | some d =>
        obtain ⟨w₁, w₃, w₅, w₉, w₁₅, hgroups⟩ := groups_of_some blanks hd
        rw [hgroups]
        rfl
  have hm : ∃ tail, (exportMatch blanks f format filename).groups
      = (filterMatch blanks f).groups ++ some format :: tail := by
    refine ⟨(Match.opt 2 (filename.map fun s =>
      (Match.lit (blanks 8) ++ (Match.lit s).group).group)).groups, ?_⟩
    show (([] ++ (filterMatch blanks f).groups) ++ [] ++ [some format]) ++ _ = _
    simp
  obtain ⟨tail, hm⟩ := hm
  obtain ⟨hdevice, hevent⟩ := field_device_event hm
  have hlen : 18 < (exportMatch blanks f format filename).fields.length := by
    refine lt_length_fields (s := format) ?_
    show (_ :: (exportMatch blanks f format filename).groups)[18]? = _
    rw [List.getElem?_cons_succ, hm, List.getElem?_append_right (by omega), hgroups17]
    rfl
  have h8 : (exportMatch blanks f format filename).fields.length ≥ 8 := by omega
  have h15 : (exportMatch blanks f format filename).fields.length ≥ 15 := by omega
  have h18 : (exportMatch blanks f format filename).fields.length ≥ 18 := by omega
  have hdeviceId : snprintf 16 f.args.deviceId = f.args.deviceId :=
    snprintf_of_lt (Nat.lt_of_le_of_lt (length_deviceId_le f) (by decide))
  have heventId : snprintf 8 f.args.eventId = f.args.eventId :=
    snprintf_of_lt (Nat.lt_of_le_of_lt (length_eventId_le f) (by decide))
  simp only [exportdbRequest, h8, h15, h18, and_self, if_true, hdevice, hevent, hdeviceId, heventId]
  cases hd : f.dates with
  | none =>
      -- only the default times are there, and they are dropped
      have hempty := field_no_dates hm hd
      rw [hempty 0 (by decide), hempty 1 (by decide), hempty 2 (by decide), hempty 4 (by decide),
        hempty 5 (by decide), hempty 6 (by decide), hempty 7 (by decide), hempty 8 (by decide),
        hempty 10 (by decide), hempty 11 (by decide)]
      simp only [Filter.args, hd]
      rfl
  | some d =>
      obtain ⟨hfirst, hlast⟩ := field_dates hm hd
      have hclear : ∀ {s : CStr}, s.length = 14 → clearTime (snprintf 16 s) = s := by
        intro s hs
        rw [snprintf_of_lt (by omega), clearTime, if_neg (by omega)]
      rw [hfirst, hlast, hclear (length_first d), hclear (length_last d)]
      simp only [Filter.args, hd]
      rfl

/-! ## The conditions -/

/-- A condition on a number, short enough for the buffers. -/
structure SqlCond.Short (c : SqlCond) : Prop where
  digits : c.val.all isDigit = true
  ne_nil : c.val ≠ []
  length_le : c.text.length ≤ 40

/-- A number has no blanks around it. -/
lemma xstrtrim_digits {s : CStr} (hs : s.all isDigit = true) : xstrtrim s = s := by
  have hblank : ∀ c ∈ s, c ≠ ch ' ' := by
    intro c hc heq
    rw [heq] at hc
    exact absurd (List.all_eq_true.mp hs _ hc) (by decide)
  refine trimEnds_eq_self (fun c hc => hblank c (List.mem_of_mem_head? hc)) fun c hc => ?_
  simpa using hblank c (List.mem_of_mem_getLast? hc)

lemma length_sqlWhere_le {cs : List SqlCond} (hcs : ∀ c ∈ cs, c.Short) :
    (sqlWhere cs).length ≤ 46 * cs.length := by
  have hrest : ∀ {cs : List SqlCond}, (∀ c ∈ cs, c.Short) →
      (cs.flatMap fun d => str " AND " ++ d.text).length ≤ 46 * cs.length := by
    intro cs hcs
    induction cs with
    | nil => exact Nat.zero_le _
    | cons c cs ih =>
        obtain ⟨hc, hcs⟩ := List.forall_mem_cons.mp hcs
        have hlen := hc.length_le
        have hand : (str " AND ").length = 5 := rfl
        have hle := ih hcs
        simp only [List.flatMap_cons, List.length_append, List.length_cons, hand]
        omega
  cases cs with
  | nil => exact Nat.zero_le _
  | cons c cs =>
      obtain ⟨hc, hcs⟩ := List.forall_mem_cons.mp hcs
      have hlen := hc.length_le
      have hwhere : (str "WHERE ").length = 6 := rfl
      have hle := hrest hcs
      simp only [sqlWhere, List.length_append, List.length_cons, hwhere]
      omega

/-- **`db_add_wcond` adds a condition to a conjunction.** -/
lemma dbAddWcond_sqlWhere {cs : List SqlCond} (hcs : ∀ c ∈ cs, c.Short) (hlen : cs.length ≤ 3)
    {col op : String} {val : CStr} (hc : (SqlCond.mk col op val).Short) :
    dbAddWcond (sqlWhere cs) 512 col op val = sqlWhere (cs ++ [⟨col, op, val⟩]) := by
  obtain ⟨hdigits, hne, hshort⟩ := hc
  have hle := length_sqlWhere_le hcs
  simp only [SqlCond.text, List.length_append] at hshort
  simp only [dbAddWcond, xstrtrim_digits hdigits, if_neg hne]
  cases cs with
  | nil =>
      have hnil : ¬ sqlWhere [] ≠ [] := fun h => h rfl
      have hwhere : (str "WHERE ").length = 6 := rfl
      rw [if_neg hnil, snprintf_of_lt (by simp only [List.length_append, hwhere]; omega)]
      simp only [sqlWhere, SqlCond.text, List.nil_append, List.flatMap_nil, List.append_nil,
        List.append_assoc]
  | cons c cs =>
      have hcons : sqlWhere (c :: cs) ≠ [] := List.cons_ne_nil (ch 'W') _
      have hand : (str " AND ").length = 5 := rfl
      have hbound : 46 * (c :: cs).length ≤ 46 * 3 := Nat.mul_le_mul_left 46 hlen
      rw [if_pos hcons, snprintf_of_lt (by simp only [List.length_append, hand]; omega), xstrlcat,
        if_neg (by omega), if_pos (by simp only [List.length_append, hand]; omega)]
      simp only [sqlWhere, SqlCond.text, List.cons_append, List.flatMap_append, List.flatMap_cons,
        List.flatMap_nil, List.append_nil, List.append_assoc]

/-- A condition that is there only when its value is. -/
def optCond (col op : String) (val : Option CStr) : List SqlCond :=
  (val.map (SqlCond.mk col op)).toList

/-- **`db_add_wcond` adds nothing for an empty value.** -/
lemma dbAddWcond_optCond {cs : List SqlCond} (hcs : ∀ c ∈ cs, c.Short) (hlen : cs.length ≤ 3)
    {col op : String} {val : Option CStr} (hval : ∀ v ∈ val, (SqlCond.mk col op v).Short) :
    dbAddWcond (sqlWhere cs) 512 col op (val.getD []) = sqlWhere (cs ++ optCond col op val) := by
  cases val with
  | none =>
      rw [optCond, Option.map_none, Option.toList_none, List.append_nil]
      rfl
  | some v => exact dbAddWcond_sqlWhere hcs hlen (hval v rfl)

/-- The conditions of a filter, one after the other. -/
lemma conditions_eq (f : Filter) :
    f.conditions = optCond "fld_datetime" ">=" (f.dates.map DateFilter.first) ++
      optCond "fld_datetime" "<=" (f.dates.map DateFilter.last) ++
      optCond "fld_deviceid" "=" (f.device.map DeviceFilter.id) ++
      optCond "fld_event" "=" (f.event.map EventFilter.id) := by
  obtain ⟨device, event, dates⟩ := f
  cases dates <;> cases device <;> cases event <;> rfl

lemma all_append_digits {s t : CStr} (hs : s.all isDigit = true) (ht : t.all isDigit = true) :
    (s ++ t).all isDigit = true := by
  rw [List.all_append, hs, ht]
  rfl

lemma all_timeText {default : String} (h : (str default).all isDigit = true)
    (t : Option HourMinute) : (timeText default t).all isDigit = true := by
  cases t with
  | none => exact h
  | some t => exact all_append_digits (isNumber_spec t.hour_ok).2 (isNumber_spec t.minute_ok).2

/-- The first and the last second are numbers. -/
lemma all_first_last (d : DateFilter) :
    d.first.all isDigit = true ∧ d.last.all isDigit = true := by
  constructor
  · exact all_append_digits (all_append_digits (all_append_digits (all_append_digits
      (isNumber_spec d.fromDate.year_ok).2 (isNumber_spec d.fromDate.month_ok).2)
      (isNumber_spec d.fromDate.day_ok).2) (all_timeText rfl _)) rfl
  · exact all_append_digits (all_append_digits (all_append_digits (all_append_digits
      (isNumber_spec d.toDate.year_ok).2 (isNumber_spec d.toDate.month_ok).2)
      (isNumber_spec d.toDate.day_ok).2) (all_timeText rfl _)) rfl

/-- A column and an operator as they occur, and a number of at most fourteen digits. -/
lemma short_of_digits {col op : String} {val : CStr} (hcol : (str col).length ≤ 12)
    (hop : (str op).length ≤ 2) (hdigits : val.all isDigit = true) (hpos : 1 ≤ val.length)
    (hlen : val.length ≤ 14) : (SqlCond.mk col op val).Short := by
  refine ⟨hdigits, List.ne_nil_of_length_pos hpos, ?_⟩
  have hblank : (str " ").length = 1 := rfl
  simp only [SqlCond.text, List.length_append, hblank]
  omega

/-- The conditions are short, and there are at most four. -/
lemma short_conditions (f : Filter) :
    (∀ v ∈ f.dates.map DateFilter.first, (SqlCond.mk "fld_datetime" ">=" v).Short) ∧
      (∀ v ∈ f.dates.map DateFilter.last, (SqlCond.mk "fld_datetime" "<=" v).Short) ∧
        (∀ v ∈ f.device.map DeviceFilter.id, (SqlCond.mk "fld_deviceid" "=" v).Short) ∧
          ∀ v ∈ f.event.map EventFilter.id, (SqlCond.mk "fld_event" "=" v).Short := by
  refine ⟨fun v hv => ?_, fun v hv => ?_, fun v hv => ?_, fun v hv => ?_⟩
  · obtain ⟨d, -, rfl⟩ := Option.map_eq_some_iff.mp hv
    exact short_of_digits (by decide) (by decide) (all_first_last d).1
      (by rw [length_first]; decide) (length_first d).le
  · obtain ⟨d, -, rfl⟩ := Option.map_eq_some_iff.mp hv
    exact short_of_digits (by decide) (by decide) (all_first_last d).2
      (by rw [length_last]; decide) (length_last d).le
  · obtain ⟨d, -, rfl⟩ := Option.map_eq_some_iff.mp hv
    obtain ⟨-, hdigits, hpos, hlen⟩ := d.id_ok
    exact short_of_digits (by decide) (by decide) hdigits (by omega) (by omega)
  · obtain ⟨e, -, rfl⟩ := Option.map_eq_some_iff.mp hv
    obtain ⟨hdigits, hpos, hlen⟩ := e.id_ok
    exact short_of_digits (by decide) (by decide) hdigits hpos (by omega)

lemma length_optCond_le (col op : String) (val : Option CStr) : (optCond col op val).length ≤ 1 := by
  cases val with
  | none => exact Nat.zero_le 1
  | some v => exact le_refl 1

lemma short_optCond {cs : List SqlCond} {col op : String} {val : Option CStr}
    (hcs : ∀ c ∈ cs, c.Short) (hval : ∀ v ∈ val, (SqlCond.mk col op v).Short) :
    ∀ c ∈ cs ++ optCond col op val, c.Short := by
  intro c hc
  rcases List.mem_append.mp hc with hc | hc
  · exact hcs c hc
  · obtain ⟨v, hv, rfl⟩ := Option.map_eq_some_iff.mp (Option.mem_toList.mp hc)
    exact hval v hv

/-- **The clause is the conjunction of the conditions that were given.** -/
theorem whereClause_args (f : Filter) : whereClause f.args = sqlWhere f.conditions := by
  obtain ⟨hfirst, hlast, hdevice, hevent⟩ := short_conditions f
  have hnone : ∀ c ∈ ([] : List SqlCond), c.Short := fun c hc => absurd hc List.not_mem_nil
  have h₁ := short_optCond hnone hfirst
  have h₂ := short_optCond h₁ hlast
  have h₃ := short_optCond h₂ hdevice
  have hlen₁ := length_optCond_le "fld_datetime" ">=" (f.dates.map DateFilter.first)
  have hlen₂ := length_optCond_le "fld_datetime" "<=" (f.dates.map DateFilter.last)
  have hlen₃ := length_optCond_le "fld_deviceid" "=" (f.device.map DeviceFilter.id)
  have hw₁ := dbAddWcond_optCond hnone (Nat.zero_le 3) hfirst
  have hw₂ := dbAddWcond_optCond h₁ (by simp only [List.length_append, List.length_nil]; omega) hlast
  have hw₃ := dbAddWcond_optCond h₂ (by simp only [List.length_append, List.length_nil]; omega)
    hdevice
  have hw₄ := dbAddWcond_optCond h₃ (by simp only [List.length_append, List.length_nil]; omega)
    hevent
  rw [conditions_eq, ← List.nil_append (optCond "fld_datetime" ">=" _), ← hw₄, ← hw₃, ← hw₂, ← hw₁]
  rfl

lemma conditions_bound (f : Filter) :
    (∀ c ∈ f.conditions, c.Short) ∧ f.conditions.length ≤ 4 := by
  obtain ⟨hfirst, hlast, hdevice, hevent⟩ := short_conditions f
  have hnone : ∀ c ∈ ([] : List SqlCond), c.Short := fun c hc => absurd hc List.not_mem_nil
  have hlen := length_optCond_le
  rw [conditions_eq, ← List.nil_append (optCond "fld_datetime" ">=" _)]
  refine ⟨short_optCond (short_optCond (short_optCond (short_optCond hnone hfirst) hlast) hdevice)
    hevent, ?_⟩
  have h₁ := hlen "fld_datetime" ">=" (f.dates.map DateFilter.first)
  have h₂ := hlen "fld_datetime" "<=" (f.dates.map DateFilter.last)
  have h₃ := hlen "fld_deviceid" "=" (f.device.map DeviceFilter.id)
  have h₄ := hlen "fld_event" "=" (f.event.map EventFilter.id)
  simp only [List.length_append, List.length_nil]
  omega

/-- **The statement fits its buffers**: nothing of the condition is cut off. -/
theorem exportQuery_args (f : Filter) (horder : ¬ f.args.toDate < f.args.fromDate) :
    exportQuery f.args = some (exportSelect ++ sqlWhere f.conditions ++ str ";") := by
  obtain ⟨hshort, hlen⟩ := conditions_bound f
  have hle := length_sqlWhere_le hshort
  have hselect : exportSelect.length ≤ 200 := by decide +kernel
  have hend : (str ";").length = 1 := rfl
  have hbound : 46 * f.conditions.length ≤ 46 * 4 := Nat.mul_le_mul_left 46 hlen
  have hq : snprintf 1024 exportSelect = exportSelect := snprintf_of_lt (by omega)
  have hw : xstrlcat exportSelect (sqlWhere f.conditions) 1024
      = exportSelect ++ sqlWhere f.conditions := by
    rw [xstrlcat, if_neg (by omega), if_pos (by omega)]
  have hall : (exportSelect ++ sqlWhere f.conditions).length ≤ 400 := by
    rw [List.length_append]
    omega
  simp only [exportQuery, if_neg horder, whereClause_args, hq, hw]
  rw [xstrlcat, if_neg (by omega), if_pos (by omega)]

/-- **The two commands agree**: whatever is given and however it is written, both ask for the rows
that meet the conditions given. -/
theorem filters_agree (f : Filter) (blanks blanks' : Blanks) (format : CStr)
    (filename : Option CStr) (dbDir : CStr) :
    dbCalcDistanceArgs (distMatch blanks f).fields
        = (exportdbRequest dbDir (exportMatch blanks' f format filename).fields).args ∧
      whereClause (dbCalcDistanceArgs (distMatch blanks f).fields) = sqlWhere f.conditions := by
  rw [dbCalcDistanceArgs_fields, exportdbRequest_fields]
  exact ⟨rfl, whereClause_args f⟩

end G7
