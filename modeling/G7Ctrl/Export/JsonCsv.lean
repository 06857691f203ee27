import G7Ctrl.Core.Csv
import G7Ctrl.Core.Json
import G7Ctrl.Export.XmlExports

/-!
# The JSON and CSV exports (`export_to_json`, `export_to_csv`)

Both formats paste the columns as they are.  In JSON the bounding box and all columns but the date
and the address stand without quotes; in CSV the date, the device, the coordinates, the address and
the voltage stand between quotes.

* `LosesNothing` — what is expected: both exports are read back as the columns of the rows.
* `TrackRow.Fits` — the columns fit the buffers of an entry, and the address needs no escape.
* **`json_iff`**, **`csv_iff`** — what each of the two formats needs.
* **`losesNothing_iff`** — nothing is lost exactly when there is a row, at most 50000 of them, and
  every row fits.
-/

namespace G7

/-! ## The exports -/

/-- An entry of `"positions"`. -/
def jsonPosition (p : G7Loc) : CStr :=
  str "[\"" ++ p.date ++ str "\"," ++ p.deviceid ++ str "," ++ p.lat ++ str "," ++ p.lon ++
    str ",\"" ++ p.approxaddr ++ str "\"," ++ p.altitude ++ str "," ++ p.speed ++ str "," ++
    p.heading ++ str "," ++ p.satellite ++ str "," ++ p.event ++ str "," ++ p.voltage ++ str "]"

/-- `export_to_json` -/
def exportToJson (now : ExportTime) (box : BoundingBox) (locs : List G7Loc) : CStr :=
  str "\x7b" ++ str "\"ver\":\"1.0\",\n" ++ str "\"exportdate\":\"" ++ now.text ++ str "\",\n" ++
    str "\"creator\":\"g7ctrl http://www.sourceforge.com/p/g7ctrl\",\n" ++
    str "\"bbox\": \x7b \"minlat\" : " ++ box.minlat ++ str ", \"minlon\" : " ++ box.minlon ++
    str ", \"maxlat\" : " ++ box.maxlat ++ str ", \"maxlon\" : " ++ box.maxlon ++ str " \x7d,\n" ++
    str "\"positions\" : [" ++
    (locs.zipIdx.flatMap fun pi =>
      jsonPosition pi.1 ++ if pi.2 < locs.length - 1 then str ",\n" else []) ++
    str "]\x7d\n"

/-- The header line of the CSV export. -/
def csvHeader : CStr :=
  str "date,device,latitude,longitude,address,elevation,speed,heading,satellite,event,voltage\n"

/-- A data line of the CSV export. -/
def csvLine (p : G7Loc) : CStr :=
  str "\"" ++ p.date ++ str "\",\"" ++ p.deviceid ++ str "\",\"" ++ p.lat ++ str "\",\"" ++ p.lon ++
    str "\",\"" ++ p.approxaddr ++ str "\"," ++ p.altitude ++ str "," ++ p.speed ++ str "," ++
    p.heading ++ str "," ++ p.satellite ++ str "," ++ p.event ++ str ",\"" ++ p.voltage ++ str "\"\n"

/-- The data lines of the CSV export. -/
def csvLines (locs : List G7Loc) : CStr := locs.flatMap csvLine

/-- `export_to_csv` -/
def exportToCsv (locs : List G7Loc) : CStr := csvHeader ++ csvLines locs ++ str "\n"

/-! ## What is expected -/

/-- A decimal number: a sign, digits that do not begin with a superfluous zero, and decimals. -/
def isDecimal (t : CStr) : Bool :=
  let u := if t.head? = some (ch '-') then t.tail else t
  let int := u.takeWhile isDigit
  let frac := u.dropWhile isDigit
  int ≠ [] ∧ (int = str "0" ∨ int.head? ≠ some (ch '0')) ∧
    (frac = [] ∨ (frac.head? = some (ch '.') ∧ frac.tail ≠ [] ∧ frac.tail.all isDigit))

example : isDecimal (str "-17.959445") = true := by decide

/-- A row as it is stored: all columns but the address are numbers, and the date has the digits of
a date. -/
structure TrackRow.Stored (r : TrackRow) : Prop where
  decimal : ∀ t ∈ [r.lat, r.lon, r.altitude, r.speed, r.voltage, r.event, r.heading, r.deviceid,
    r.satellite], isDecimal t = true
  datetime : r.datetime.length = 14 ∧ r.datetime.all isDigit = true

/-- The columns of a row in an export to JSON. -/
def TrackRow.json (r : TrackRow) : Json :=
  .array [.string (convertToUtc r.datetime), .number r.deviceid, .number r.lat, .number r.lon,
    .string r.approxaddr, .number r.altitude, .number r.speed, .number r.heading,
    .number r.satellite, .number r.event, .number r.voltage]

/-- The columns of a row in an export to CSV. -/
def TrackRow.csv (r : TrackRow) : List CStr :=
  [convertToUtc r.datetime, r.deviceid, r.lat, r.lon, r.approxaddr, r.altitude, r.speed, r.heading,
    r.satellite, r.event, r.voltage]

/-- What is expected of the exports of the rows of a query: they come into the list, and both texts
are read back as the columns of the rows. -/
structure LosesNothing (now : ExportTime) (env : ExportEnv) (rows : List TrackRow) : Prop where
  loads : Loads env (rows.map TrackRow.columns)
  json : ∃ doc, JsonText (exportToJson now (internalSet env rows).box (internalSet env rows).locs)
      doc ∧ doc.member (str "positions") = some (.array (rows.map TrackRow.json))
  csv : readCsv (csvLines (internalSet env rows).locs) = some (rows.map TrackRow.csv)

/-- A character of an address that needs no escape. -/
def isAddressChar (c : Byte) : Bool := 32 ≤ c && c != ch '"' && c != ch '\\' && c != 127

/-- The columns of a row fit the buffers of an entry, and the address needs no escape. -/
structure TrackRow.Fits (r : TrackRow) : Prop where
  address : r.approxaddr.length ≤ 127 ∧ r.approxaddr.all isAddressChar = true
  coordinates : ∀ t ∈ [r.lat, r.lon, r.deviceid], t.length ≤ 15
  values : ∀ t ∈ [r.altitude, r.speed, r.voltage, r.event, r.heading, r.satellite], t.length ≤ 7

/-! ## Columns -/

lemma isJsonNumberChar_of_digit {c : Byte} (hc : isDigit c = true) : isJsonNumberChar c = true := by
  have hc' : isJsonDigit c = true := hc
  simp [isJsonNumberChar, hc']

/-- A decimal number as the grammar of JSON reads it. -/
lemma isJsonNumber_of_decimal {t : CStr} (ht : isDecimal t = true) : isJsonNumber t = true := by
  simp only [isDecimal, decide_eq_true_eq] at ht
  rw [isJsonNumber]
  generalize (if t.head? = some (ch '-') then t.tail else t) = u at ht ⊢
  obtain ⟨hne, hzero, hfrac⟩ := ht
  have hfrac' : isJsonFrac (u.dropWhile isDigit) = true := by
    rcases hfrac with hnil | ⟨hpoint, hsome, hdigits⟩
    · rw [hnil]
      rfl
    · obtain ⟨c, cs, hcs⟩ := List.exists_cons_of_ne_nil hsome
      rw [List.eq_cons_of_mem_head? hpoint, isJsonFrac, if_pos rfl, readJsonDigits, hcs]
      rw [hcs] at hdigits
      have hall : (c :: cs).dropWhile isJsonDigit = [] :=
        List.dropWhile_eq_nil_iff.mpr (List.all_eq_true.mp hdigits)
      have hhead : ((c :: cs).head?.any isJsonDigit) = true := by
        rw [List.all_cons, Bool.and_eq_true] at hdigits
        exact hdigits.1
      rw [if_pos hhead, hall]
      rfl
  cases u with
  | nil => exact absurd rfl hne
  | cons d ds =>
      have hd : isDigit d = true := by
        by_contra hd
        exact hne (List.takeWhile_cons_of_neg hd)
      rw [List.takeWhile_cons_of_pos hd] at hzero
      rw [List.dropWhile_cons_of_pos hd] at hfrac'
      rw [isJsonInt]
      split_ifs with hd0
      · -- a leading zero is the only digit
        have hds : ds.takeWhile isDigit = [] := by
          rcases hzero with hzero | hzero
          · exact (List.cons.inj hzero).2
          · exact absurd (congrArg some hd0) hzero
        have hsplit := List.takeWhile_append_dropWhile (p := isDigit) (l := ds)
        rw [hds, List.nil_append] at hsplit
        rwa [hsplit] at hfrac'
      · have hd' : isJsonDigit d = true := hd
        rw [hd', Bool.true_and]
        exact hfrac'

/-- A decimal number is made of digits, a sign and a point. -/
lemma all_of_decimal {t : CStr} (ht : isDecimal t = true) : t.all isJsonNumberChar = true := by
  have htail : ∀ {u : CStr}, u.tail.all isJsonNumberChar = true →
      (∀ c ∈ u.head?, isJsonNumberChar c = true) → u.all isJsonNumberChar = true := by
    intro u htail hhead
    cases u with
    | nil => rfl
    | cons c cs =>
        rw [List.all_cons, Bool.and_eq_true]
        exact ⟨hhead c rfl, htail⟩
  have hdigits : ∀ {u : CStr}, u.all isDigit = true → u.all isJsonNumberChar = true :=
    fun hu => List.all_eq_true.mpr fun c hc =>
      isJsonNumberChar_of_digit (List.all_eq_true.mp hu c hc)
  have hunsigned : ∀ {u : CStr}, (u.dropWhile isDigit = [] ∨
      ((u.dropWhile isDigit).head? = some (ch '.') ∧ (u.dropWhile isDigit).tail ≠ [] ∧
        (u.dropWhile isDigit).tail.all isDigit = true)) → u.all isJsonNumberChar = true := by
    intro u hfrac
    rw [← List.takeWhile_append_dropWhile (p := isDigit) (l := u), List.all_append,
      hdigits List.all_takeWhile, Bool.true_and]
    rcases hfrac with hnil | ⟨hpoint, -, htail'⟩
    · rw [hnil]
      rfl
    · refine htail (hdigits htail') fun c hc => ?_
      rw [hpoint] at hc
      rw [← Option.some.inj hc]
      rfl
  simp only [isDecimal, decide_eq_true_eq] at ht
  split_ifs at ht with hminus
  · refine htail (hunsigned ht.2.2) fun c hc => ?_
    rw [hminus] at hc
    rw [← Option.some.inj hc]
    rfl
  · exact hunsigned ht.2.2

lemma all_take {t : CStr} {p : Byte → Bool} (ht : t.all p = true) (n : ℕ) :
    (t.take n).all p = true :=
  List.all_eq_true.mpr fun c hc => List.all_eq_true.mp ht c (List.mem_of_mem_take hc)

lemma length_le_of_eq_take {x : CStr} {n : ℕ} (h : x = x.take n) : x.length ≤ n :=
  (congrArg List.length h).le.trans (List.length_take_le n x)

/-- **A column that is a number** is read back when it fits its buffer. -/
lemma jsonReads_column {x s t : CStr} {c : Byte} (hx : isDecimal x = true) (n : ℕ)
    (hc : c ∈ [ch ',', ch ']', ch '\x7d']) :
    JsonReads (x.take n ++ c :: s) (.number x) t ↔ x.length ≤ n ∧ t = c :: s := by
  have h := jsonReads_number (s := s) (r := t) (v := .number x) noJsonSpace
    (all_take (all_of_decimal hx) n) noJsonSpace hc
  rw [List.nil_append, List.nil_append] at h
  rw [h, ← and_assoc]
  refine and_congr_left fun _ => ?_
  constructor
  · rintro ⟨-, heq⟩
    exact length_le_of_eq_take (Json.number.inj heq)
  · intro hlen
    rw [List.take_of_length_le hlen]
    exact ⟨isJsonNumber_of_decimal hx, rfl⟩

/-- **The address** is read back when it fits its buffer and needs no escape. -/
lemma jsonReads_address {x s t : CStr} (hs : QuietLine s) (n : ℕ) :
    JsonReads (ch '"' :: (x.take n ++ ch '"' :: s)) (.string x) t ↔
      (x.length ≤ n ∧ x.all isJsonPlain = true) ∧ t = s := by
  rw [jsonReads_exact hs (by simp)]
  refine and_congr_left fun _ => ?_
  constructor
  · rintro ⟨hplain, heq⟩
    rw [← heq] at hplain
    exact ⟨length_le_of_eq_take heq, hplain⟩
  · rintro ⟨hlen, hplain⟩
    rw [List.take_of_length_le hlen]
    exact ⟨hplain, rfl⟩

/-! ## JSON -/

/-- A date fits its buffer. -/
lemma take_convertToUtc (datetime : CStr) :
    (convertToUtc datetime).take 31 = convertToUtc datetime :=
  List.take_of_length_le ((List.takeWhile_sublist _).length_le.trans (by simp))

lemma isJsonPlain_of_value {t : CStr} (ht : IsValue t) : t.all isJsonPlain = true := by
  have hchar : ∀ c, (!isValueChar c || isJsonPlain c) = true := fun c =>
    forall_byte (p := fun c => !isValueChar c || isJsonPlain c) (by decide +kernel) c
  rw [List.all_eq_true]
  intro c hc
  simpa [ht c hc] using hchar c

/-- The date of a stored row. -/
lemma TrackRow.Stored.date {r : TrackRow} (hr : r.Stored) : IsValue (convertToUtc r.datetime) := by
  refine isValue_convertToUtc fun c hc => ?_
  simp [isNumberChar, List.all_eq_true.mp hr.datetime.2 c hc]

/-- What a row must be like to be read back from JSON. -/
def TrackRow.FitsJson (r : TrackRow) : Prop :=
  r.deviceid.length ≤ 15 ∧ r.lat.length ≤ 15 ∧ r.lon.length ≤ 15 ∧
    (r.approxaddr.length ≤ 127 ∧ r.approxaddr.all isJsonPlain = true) ∧ r.altitude.length ≤ 7 ∧
    r.speed.length ≤ 7 ∧ r.heading.length ≤ 7 ∧ r.satellite.length ≤ 7 ∧ r.event.length ≤ 7 ∧
    r.voltage.length ≤ 7

/-- An entry, with what follows. -/
lemma jsonPosition_append (p : G7Loc) (s : CStr) :
    jsonPosition p ++ s = ch '[' :: ((ch '"' :: (p.date ++ [ch '"'])) ++ ch ',' ::
      (p.deviceid ++ ch ',' :: (p.lat ++ ch ',' :: (p.lon ++ ch ',' ::
        ((ch '"' :: (p.approxaddr ++ [ch '"'])) ++ ch ',' :: (p.altitude ++ ch ',' ::
          (p.speed ++ ch ',' :: (p.heading ++ ch ',' :: (p.satellite ++ ch ',' ::
            (p.event ++ ch ',' :: (p.voltage ++ ch ']' :: s))))))))))) := by
  delta jsonPosition
  simp only [List.append_assoc, List.cons_append, List.nil_append]
  rfl

/-- Columns that are numbers, with separators, and no quote or backslash. -/
lemma QuietLine.column {x s : CStr} {c : Byte} (hx : isDecimal x = true) (n : ℕ)
    (hc : c ∈ [ch ',', ch ']', ch '\x7d']) (hs : QuietLine s) : QuietLine (x.take n ++ c :: s) := by
  have hchar : ∀ d, (!isJsonNumberChar d || (d != ch '"' && d != ch '\\')) = true := fun d =>
    forall_byte (p := fun d => !isJsonNumberChar d || (d != ch '"' && d != ch '\\'))
      (by decide +kernel) d
  have hsep : QuietLine (c :: s) := by
    refine QuietLine.append (u := [c]) (fun d hd => ?_) hs
    rw [List.mem_singleton.mp hd]
    simp only [List.mem_cons, List.not_mem_nil, or_false] at hc
    rcases hc with rfl | rfl | rfl <;> decide
  refine QuietLine.append (fun d hd => ?_) hsep
  simpa [List.all_eq_true.mp (all_take (all_of_decimal hx) n) d hd] using hchar d

/-- A string in front of a comma. -/
lemma string_append_comma (t s : CStr) :
    (ch '"' :: (t ++ [ch '"'])) ++ ch ',' :: s = ch '"' :: (t ++ ch '"' :: ch ',' :: s) := by
  rw [List.cons_append, List.append_assoc, List.singleton_append]

/-- **A row is read back** exactly when it fits. -/
lemma jsonReads_position {r : TrackRow} (hr : r.Stored) (timezone : ℤ) {s t : CStr}
    (hs : QuietLine s) :
    JsonReads (jsonPosition (r.loc timezone) ++ s) r.json t ↔ r.FitsJson ∧ t = s := by
  have hcomma : ch ',' ∈ [ch ',', ch ']', ch '\x7d'] := by decide
  have hbracket : ch ']' ∈ [ch ',', ch ']', ch '\x7d'] := by decide
  have hdate := isJsonPlain_of_value hr.date
  obtain ⟨hdecimal, -⟩ := hr
  simp only [List.forall_mem_cons] at hdecimal
  obtain ⟨hlat, hlon, haltitude, hspeed, hvoltage, hevent, hheading, hdeviceid, hsatellite, -⟩ :=
    hdecimal
  have hquiet : QuietLine (ch ',' :: (r.altitude.take 7 ++ ch ',' :: (r.speed.take 7 ++ ch ',' ::
      (r.heading.take 7 ++ ch ',' :: (r.satellite.take 7 ++ ch ',' :: (r.event.take 7 ++ ch ',' ::
        (r.voltage.take 7 ++ ch ']' :: s))))))) :=
    QuietLine.append (u := [ch ',']) (by decide +kernel)
      ((((((hs.column hvoltage 7 hbracket).column hevent 7 hcomma).column hsatellite 7
        hcomma).column hheading 7 hcomma).column hspeed 7 hcomma).column haltitude 7 hcomma)
  have hstring : ∀ (u t' : CStr), JsonReads ((ch '"' :: (convertToUtc r.datetime ++ [ch '"'])) ++
      ch ',' :: u) (.string (convertToUtc r.datetime)) t' ↔ True ∧ t' = ch ',' :: u := by
    intro u t'
    rw [string_append_comma, true_and]
    exact (jsonReads_plain noJsonSpace hdate).trans (and_iff_right rfl)
  have haddress := fun t' => jsonReads_address (x := r.approxaddr) (t := t') hquiet 127
  simp only [← string_append_comma] at haddress
  rw [jsonPosition_append]
  simp only [TrackRow.loc, TrackRow.json, take_convertToUtc]
  rw [jsonReads_array (by rw [List.cons_append, skipWs_cons (by decide), List.head?_cons]; decide)]
  simp only [Json.array.injEq, exists_eq_right']
  rw [jsonElements_cons (hstring _),
    jsonElements_cons (fun t' => jsonReads_column hdeviceid 15 hcomma),
    jsonElements_cons (fun t' => jsonReads_column hlat 15 hcomma),
    jsonElements_cons (fun t' => jsonReads_column hlon 15 hcomma),
    jsonElements_cons haddress,
    jsonElements_cons (fun t' => jsonReads_column haltitude 7 hcomma),
    jsonElements_cons (fun t' => jsonReads_column hspeed 7 hcomma),
    jsonElements_cons (fun t' => jsonReads_column hheading 7 hcomma),
    jsonElements_cons (fun t' => jsonReads_column hsatellite 7 hcomma),
    jsonElements_cons (fun t' => jsonReads_column hevent 7 hcomma),
    jsonElements_singleton (fun t' => jsonReads_column hvoltage 7 hbracket)]
  simp only [TrackRow.FitsJson, and_assoc, true_and]

/-- The entries, all but the last followed by a comma. -/
def jsonPositions : List G7Loc → CStr
  | [] => []
  | [p] => jsonPosition p
  | p :: q :: ps => jsonPosition p ++ str ",\n" ++ jsonPositions (q :: ps)

/-- A comma follows when the index is not the last. -/
lemma flatMap_eq_jsonPositions (locs : List G7Loc) : ∀ k,
    ((locs.zipIdx k).flatMap fun pi =>
      jsonPosition pi.1 ++ if pi.2 < k + locs.length - 1 then str ",\n" else [])
        = jsonPositions locs := by
  induction locs with
  | nil => exact fun _ => rfl
  | cons p ps ih =>
      intro k
      have hrest := ih (k + 1)
      have hlen : k + (p :: ps).length - 1 = k + 1 + ps.length - 1 := by
        rw [List.length_cons, Nat.add_assoc, Nat.add_comm 1]
      rw [List.zipIdx_cons, List.flatMap_cons, hlen, hrest]
      cases ps with
      | nil => simp [jsonPositions]
      | cons q ps =>
          have hlt : k < k + 1 + (q :: ps).length - 1 := by
            rw [List.length_cons]
            omega
          rw [if_pos hlt, jsonPositions]

/-- **The entries are read back** exactly when every row fits. -/
lemma jsonElements_positions {rows : List TrackRow} (hne : rows ≠ [])
    (hrows : ∀ r ∈ rows, r.Stored) (timezone : ℤ) (s t : CStr) (hs : QuietLine s) :
    JsonElements (jsonPositions (rows.map (TrackRow.loc timezone)) ++ ch ']' :: s)
        (rows.map TrackRow.json) t ↔ (∀ r ∈ rows, r.FitsJson) ∧ t = s := by
  have hbracket : QuietLine (ch ']' :: s) := QuietLine.append (u := [ch ']']) (by decide +kernel) hs
  induction rows with
  | nil => exact absurd rfl hne
  | cons r rows ih =>
      obtain ⟨hr, hrows⟩ := List.forall_mem_cons.mp hrows
      cases rows with
      | nil =>
          rw [List.map_singleton, List.map_singleton, jsonPositions,
            jsonElements_singleton fun t' => jsonReads_position hr timezone hbracket]
          simp
      | cons r' rows =>
          have hline : ∀ u, QuietLine (ch ',' :: (str "\n" ++ u)) :=
            fun u => ⟨[ch ','], u, by decide +kernel, rfl⟩
          have htext : jsonPositions ((r :: r' :: rows).map (TrackRow.loc timezone)) ++ ch ']' :: s
              = jsonPosition (r.loc timezone) ++ ch ',' :: (str "\n" ++
                (jsonPositions ((r' :: rows).map (TrackRow.loc timezone)) ++ ch ']' :: s)) := by
            simp only [List.map_cons, jsonPositions, List.append_assoc]
            rfl
          rw [htext, List.map_cons (f := TrackRow.json),
            jsonElements_cons fun t' => jsonReads_position hr timezone (hline _),
            jsonElements_space rfl, List.forall_mem_cons, and_assoc]
          exact and_congr_right fun _ => ih (List.cons_ne_nil r' rows) hrows

/-- The value of `"bbox"`. -/
def bboxText (box : BoundingBox) : CStr :=
  str " " ++ ch '\x7b' :: keyText " " "minlat" " " (str " " ++ box.minlat ++ ch ',' ::
    keyText " " "minlon" " " (str " " ++ box.minlon ++ ch ',' ::
      keyText " " "maxlat" " " (str " " ++ box.maxlat ++ ch ',' ::
        keyText " " "maxlon" " " (str " " ++ box.maxlon ++ (str " " ++ [ch '\x7d'])))))

/-- What the value of `"bbox"` stands for. -/
def bboxJson (box : BoundingBox) : Json :=
  .object [(str "minlat", .number box.minlat), (str "minlon", .number box.minlon),
    (str "maxlat", .number box.maxlat), (str "maxlon", .number box.maxlon)]

/-- **The bounding box is read** exactly when its coordinates are numbers. -/
lemma jsonReads_bbox {box : BoundingBox}
    (hbox : ∀ u ∈ box.texts, u.all isJsonNumberChar = true) {s t : CStr} {v : Json} :
    JsonReads (bboxText box ++ ch ',' :: s) v t ↔
      ((∀ u ∈ box.texts, isJsonNumber u = true) ∧ v = bboxJson box) ∧ t = ch ',' :: s := by
  have hcomma : ch ',' ∈ [ch ',', ch ']', ch '\x7d'] := by decide
  have hbrace : ch '\x7d' ∈ [ch ',', ch ']', ch '\x7d'] := by decide
  have hspace : (str " ").all isJsonSpace = true := rfl
  simp only [BoundingBox.texts, List.forall_mem_cons] at hbox ⊢
  obtain ⟨hminlat, hminlon, hmaxlat, hmaxlon, -⟩ := hbox
  have hnumber : ∀ {w u : CStr} {v : Json} {t' : CStr}, w.all isJsonNumberChar = true →
      (JsonReads ((str " " ++ w) ++ ch ',' :: u) v t' ↔
        (isJsonNumber w = true ∧ v = .number w) ∧ t' = ch ',' :: u) := by
    intro w u v t' hw
    rw [List.append_assoc, and_assoc]
    exact jsonReads_number hspace hw noJsonSpace hcomma
  have hlast : ∀ {w u : CStr} {v : Json} {t' : CStr}, w.all isJsonNumberChar = true →
      (JsonReads ((str " " ++ w) ++ (str " " ++ ch '\x7d' :: u)) v t' ↔
        (isJsonNumber w = true ∧ v = .number w) ∧ t' = str " " ++ ch '\x7d' :: u) := by
    intro w u v t' hw
    rw [List.append_assoc, and_assoc]
    exact jsonReads_number hspace hw hspace hbrace
  have htext : bboxText box ++ ch ',' :: s = str " " ++ ch '\x7b' ::
      keyText " " "minlat" " " ((str " " ++ box.minlat) ++ ch ',' ::
        keyText " " "minlon" " " ((str " " ++ box.minlon) ++ ch ',' ::
          keyText " " "maxlat" " " ((str " " ++ box.maxlat) ++ ch ',' ::
            keyText " " "maxlon" " " ((str " " ++ box.maxlon) ++
              (str " " ++ ch '\x7d' :: ch ',' :: s))))) := by
    simp only [bboxText, keyText, List.append_assoc, List.cons_append, List.nil_append]
  rw [htext, jsonReads_space rfl, jsonReads_object (head?_skipWs_keyText rfl _ _ _)]
  simp only [jsonMembers_cons " " "minlat" " " rfl rfl rfl fun v t' => hnumber hminlat,
    jsonMembers_cons " " "minlon" " " rfl rfl rfl fun v t' => hnumber hminlon,
    jsonMembers_cons " " "maxlat" " " rfl rfl rfl fun v t' => hnumber hmaxlat,
    jsonMembers_singleton " " "maxlon" " " " " rfl rfl rfl rfl fun v t' => hlast hmaxlon]
  constructor
  · rintro ⟨ms, ⟨_, _, ⟨h₁, rfl⟩, ⟨_, _, ⟨h₂, rfl⟩, ⟨_, _, ⟨h₃, rfl⟩, ⟨_, ⟨h₄, rfl⟩, rfl, rfl⟩, rfl⟩,
      rfl⟩, rfl⟩, rfl⟩
    exact ⟨⟨⟨h₁, h₂, h₃, h₄, fun u hu => absurd hu List.not_mem_nil⟩, rfl⟩, rfl⟩
  · rintro ⟨⟨⟨h₁, h₂, h₃, h₄, -⟩, rfl⟩, rfl⟩
    exact ⟨_, ⟨_, _, ⟨h₁, rfl⟩, ⟨_, _, ⟨h₂, rfl⟩, ⟨_, _, ⟨h₃, rfl⟩, ⟨_, ⟨h₄, rfl⟩, rfl, rfl⟩, rfl⟩, rfl⟩,
      rfl⟩, rfl⟩

/-- The export, name by name. -/
lemma exportToJson_eq (now : ExportTime) (box : BoundingBox) (locs : List G7Loc) :
    exportToJson now box locs = ch '\x7b' :: keyText "" "ver" "" (ch '"' :: (str "1.0" ++ ch '"' ::
      ch ',' :: keyText "\n" "exportdate" "" (ch '"' :: (now.text ++ ch '"' ::
        ch ',' :: keyText "\n" "creator" "" (ch '"' :: (creator ++ ch '"' ::
          ch ',' :: keyText "\n" "bbox" "" (bboxText box ++
            ch ',' :: keyText "\n" "positions" " " (str " " ++ ch '[' :: (jsonPositions locs ++
              [ch ']']) ++ (str "" ++ ch '\x7d' :: str "\n"))))))))) := by
  have hpositions := flatMap_eq_jsonPositions locs 0
  simp only [Nat.zero_add] at hpositions
  have hquote : ∀ s, ch '"' :: s = str "\"" ++ s := fun _ => rfl
  have hcolon : ∀ s, ch ':' :: s = str ":" ++ s := fun _ => rfl
  have hcomma : ∀ s, ch ',' :: s = str "," ++ s := fun _ => rfl
  have hbrace : ∀ s, ch '\x7b' :: s = str "\x7b" ++ s := fun _ => rfl
  have hbrace' : ∀ s, ch '\x7d' :: s = str "\x7d" ++ s := fun _ => rfl
  have hbracket : ∀ s, ch '[' :: s = str "[" ++ s := fun _ => rfl
  have hbracket' : ∀ s, ch ']' :: s = str "]" ++ s := fun _ => rfl
  delta exportToJson
  rw [hpositions]
  simp only [bboxText, keyText, creator, List.append_assoc, List.append_nil, hquote, hcolon, hcomma, hbrace, hbrace', hbracket, hbracket', str_append_str,
    str_append_str_append, String.reduceAppend]

/-- The last member, and the end of the export. -/
def positionsText (locs : List G7Loc) : CStr :=
  keyText "\n" "positions" " " (str " " ++ ch '[' :: (jsonPositions locs ++ [ch ']']) ++
    (str "" ++ ch '\x7d' :: str "\n"))

/-- **The export is read** when its last member is and the coordinates of the bounding box are
numbers. -/
lemma jsonReads_exportToJson (now : ExportTime) {box : BoundingBox} (locs : List G7Loc)
    (hbox : ∀ u ∈ box.texts, u.all isJsonNumberChar = true) {doc : Json} {r : CStr} :
    JsonReads (exportToJson now box locs) doc r ↔ ∃ ms, JsonMembers (positionsText locs) ms r ∧
      (∀ u ∈ box.texts, isJsonNumber u = true) ∧
        doc = .object ((str "ver", .string (str "1.0")) ::
          (str "exportdate", .string now.text) :: (str "creator", .string creator) ::
            (str "bbox", bboxJson box) :: ms) := by
  have hver := fun s ms => @jsonMembers_plain "" "ver" "" (str "1.0") s r ms rfl rfl rfl rfl
  have hdate := fun s ms => @jsonMembers_plain "\n" "exportdate" "" now.text s r ms rfl rfl rfl
    (isJsonPlain_of_value (isValue_exportTime now))
  have hcreator := fun s ms => @jsonMembers_plain "\n" "creator" "" creator s r ms rfl rfl rfl rfl
  have hbbox := fun s ms => @jsonMembers_cons "\n" "bbox" "" (bboxText box) s r ms _ rfl rfl rfl
    fun v t => jsonReads_bbox hbox
  rw [exportToJson_eq, jsonReads_object (@head?_skipWs_keyText "" rfl _ _ _)]
  simp only [hver, hdate, hcreator, hbbox]
  constructor
  · rintro ⟨_, ⟨_, ⟨_, ⟨_, ⟨v, ms, ⟨hnumbers, rfl⟩, hms, rfl⟩, rfl⟩, rfl⟩, rfl⟩, rfl⟩
    exact ⟨ms, hms, hnumbers, rfl⟩
  · rintro ⟨ms, hms, hnumbers, rfl⟩
    exact ⟨_, ⟨_, ⟨_, ⟨_, ⟨_, ms, ⟨hnumbers, rfl⟩, hms, rfl⟩, rfl⟩, rfl⟩, rfl⟩, rfl⟩

lemma jsonPositions_ne {rows : List TrackRow} (hne : rows ≠ []) (timezone : ℤ) (s : CStr) :
    (skipWs (jsonPositions (rows.map (TrackRow.loc timezone)) ++ s)).head? ≠ some (ch ']') := by
  have hbegins : ∀ (p : G7Loc) (u : CStr), (skipWs (jsonPosition p ++ u)).head? ≠ some (ch ']') := by
    intro p u
    rw [jsonPosition_append, skipWs_cons (by decide), List.head?_cons]
    decide
  cases rows with
  | nil => exact absurd rfl hne
  | cons r rows =>
      cases rows with
      | nil => exact hbegins _ s
      | cons r' rows =>
          rw [List.map_cons, List.map_cons, jsonPositions, List.append_assoc, List.append_assoc]
          exact hbegins _ _

/-- **The rows are read back from JSON** exactly when the coordinates of the bounding box are
numbers and every row fits. -/
theorem json_iff (now : ExportTime) {box : BoundingBox} {rows : List TrackRow} (timezone : ℤ)
    (hbox : ∀ u ∈ box.texts, u.all isJsonNumberChar = true) (hne : rows ≠ [])
    (hrows : ∀ r ∈ rows, r.Stored) :
    (∃ doc, JsonText (exportToJson now box (rows.map (TrackRow.loc timezone))) doc ∧
        doc.member (str "positions") = some (.array (rows.map TrackRow.json))) ↔
      (∀ u ∈ box.texts, isJsonNumber u = true) ∧ ∀ r ∈ rows, r.FitsJson := by
  have hs : QuietLine (str "" ++ ch '\x7d' :: str "\n") := ⟨[ch '\x7d'], [], by decide +kernel, rfl⟩
  have hvalue : ∀ t, JsonReads ((str " " ++ ch '[' ::
      (jsonPositions (rows.map (TrackRow.loc timezone)) ++ [ch ']'])) ++
        (str "" ++ ch '\x7d' :: str "\n")) (.array (rows.map TrackRow.json)) t ↔
      (∀ r ∈ rows, r.FitsJson) ∧ t = str "" ++ ch '\x7d' :: str "\n" := by
    intro t
    rw [List.append_assoc, jsonReads_space rfl, List.cons_append, List.append_assoc,
      jsonReads_array (jsonPositions_ne hne timezone _)]
    simp only [Json.array.injEq, exists_eq_right', List.singleton_append]
    exact jsonElements_positions hne hrows timezone _ t hs
  have hmembers := fun r => jsonMembers_lookup "\n" "positions" " " "" (r := r) rfl rfl rfl rfl hvalue
  constructor
  · rintro ⟨doc, ⟨r, hdoc, -⟩, hmember⟩
    obtain ⟨ms, hms, hnumbers, rfl⟩ := (jsonReads_exportToJson now _ hbox).mp hdoc
    exact ⟨hnumbers, ((hmembers r).mp ⟨ms, hms, hmember⟩).1⟩
  · rintro ⟨hnumbers, hfits⟩
    obtain ⟨ms, hms, hmember⟩ := (hmembers (str "\n")).mpr ⟨hfits, rfl⟩
    exact ⟨_, ⟨_, (jsonReads_exportToJson now _ hbox).mpr ⟨ms, hms, hnumbers, rfl⟩, rfl⟩, hmember⟩

/-! ## CSV -/

/-- A data line, with what follows. -/
lemma csvLine_append (p : G7Loc) (s : CStr) :
    csvLine p ++ s = ch '"' :: (p.date ++ ch '"' :: ch ',' :: ch '"' :: (p.deviceid ++ ch '"' ::
      ch ',' :: ch '"' :: (p.lat ++ ch '"' :: ch ',' :: ch '"' :: (p.lon ++ ch '"' :: ch ',' ::
        ch '"' :: (p.approxaddr ++ ch '"' :: ch ',' :: (p.altitude ++ ch ',' :: (p.speed ++
          ch ',' :: (p.heading ++ ch ',' :: (p.satellite ++ ch ',' :: (p.event ++ ch ',' ::
            ch '"' :: (p.voltage ++ ch '"' :: lf :: s))))))))))) := by
  delta csvLine
  simp only [List.append_assoc]
  rfl

lemma isCsvText_of_value {t : CStr} (ht : IsValue t) : t.all isCsvText = true := by
  have hchar : ∀ c, (!isValueChar c || isCsvText c) = true := fun c =>
    forall_byte (p := fun c => !isValueChar c || isCsvText c) (by decide +kernel) c
  rw [List.all_eq_true]
  intro c hc
  simpa [ht c hc] using hchar c

/-- A text without special characters can stand between quotes. -/
lemma quoted_of_text {t : CStr} (ht : t.all isCsvText = true) :
    ch '"' ∉ t ∧ t.all isCsvQuoted = true := by
  rw [List.all_eq_true] at ht
  constructor
  · intro hmem
    exact absurd (ht _ hmem) (by decide)
  · rw [List.all_eq_true]
    intro c hc
    simp [isCsvQuoted, ht c hc]

lemma isValue_of_decimal {t : CStr} (ht : isDecimal t = true) : IsValue t := by
  have hchar : ∀ c, (!isJsonNumberChar c || isValueChar c) = true := fun c =>
    forall_byte (p := fun c => !isJsonNumberChar c || isValueChar c) (by decide +kernel) c
  intro c hc
  simpa [List.all_eq_true.mp (all_of_decimal ht) c hc] using hchar c

/-- **A data line is read back** when its address may stand between quotes. -/
lemma readCsv_line {r : TrackRow} (hr : r.Stored) (hfits : r.FitsJson) (timezone : ℤ) (s : CStr) :
    readCsv (csvLine (r.loc timezone) ++ s)
      = if r.approxaddr.all isCsvQuoted then (readCsv s).map (r.csv :: ·) else none := by
  have hdate := quoted_of_text (isCsvText_of_value hr.date)
  obtain ⟨hdecimal, -⟩ := hr
  simp only [List.forall_mem_cons] at hdecimal
  obtain ⟨hlat, hlon, haltitude, hspeed, hvoltage, hevent, hheading, hdeviceid, hsatellite, -⟩ :=
    hdecimal
  obtain ⟨hdeviceid', hlat', hlon', ⟨haddress', hplain⟩, haltitude', hspeed', hheading',
    hsatellite', hevent', hvoltage'⟩ := hfits
  have htext : ∀ {t : CStr}, isDecimal t = true → t.all isCsvText = true :=
    fun ht => isCsvText_of_value (isValue_of_decimal ht)
  have hquoted : ∀ {t : CStr}, isDecimal t = true → ch '"' ∉ t ∧ t.all isCsvQuoted = true :=
    fun ht => quoted_of_text (htext ht)
  have haddress : ch '"' ∉ r.approxaddr := by
    intro hmem
    exact absurd (List.all_eq_true.mp hplain _ hmem) (by decide)
  have hloc : r.loc timezone = { r.loc timezone with
      deviceid := r.deviceid, lat := r.lat, lon := r.lon, approxaddr := r.approxaddr
      date := convertToUtc r.datetime, altitude := r.altitude, speed := r.speed
      heading := r.heading, satellite := r.satellite, event := r.event, voltage := r.voltage } := by
    simp only [TrackRow.loc, take_convertToUtc, List.take_of_length_le, *]
  rw [csvLine_append, readCsv, if_neg (List.cons_ne_nil _ _), hloc]
  simp only [readCsvFrom_quoted hdate.1, if_pos hdate.2, readCsvFrom_quoted (hquoted hdeviceid).1,
    if_pos (hquoted hdeviceid).2, readCsvFrom_quoted (hquoted hlat).1, if_pos (hquoted hlat).2,
    readCsvFrom_quoted (hquoted hlon).1, if_pos (hquoted hlon).2, readCsvFrom_quoted haddress,
    readCsvFrom_plain (htext haltitude), readCsvFrom_plain (htext hspeed),
    readCsvFrom_plain (htext hheading), readCsvFrom_plain (htext hsatellite),
    readCsvFrom_plain (htext hevent), readCsvFrom_last (hquoted hvoltage).1,
    if_pos (hquoted hvoltage).2]
  split_ifs
  · simp only [Option.map_map]
    rfl
  · rfl

/-- **The rows are read back from CSV** when the addresses may stand between quotes. -/
theorem csv_iff {rows : List TrackRow} (hrows : ∀ r ∈ rows, r.Stored ∧ r.FitsJson)
    (timezone : ℤ) : readCsv (csvLines (rows.map (TrackRow.loc timezone)))
        = some (rows.map TrackRow.csv) ↔ ∀ r ∈ rows, r.approxaddr.all isCsvQuoted = true := by
  induction rows with
  | nil => exact iff_of_true rfl fun r hr => absurd hr List.not_mem_nil
  | cons r rows ih =>
      obtain ⟨⟨hr, hfits⟩, hrest⟩ := List.forall_mem_cons.mp hrows
      have hlines : csvLines ((r :: rows).map (TrackRow.loc timezone))
          = csvLine (r.loc timezone) ++ csvLines (rows.map (TrackRow.loc timezone)) := rfl
      rw [hlines, readCsv_line hr hfits, List.forall_mem_cons, List.map_cons, ← ih hrest]
      split_ifs with haddress
      · simp only [haddress, true_and, Option.map_eq_some_iff, List.cons.injEq,
          exists_eq_right]
      · simp [haddress]

/-! ## Both -/

/-- A row fits when it is read back from both formats. -/
lemma fits_iff (r : TrackRow) :
    r.Fits ↔ r.FitsJson ∧ r.approxaddr.all isCsvQuoted = true := by
  have hchar : ∀ c, isAddressChar c = (isJsonPlain c && isCsvQuoted c) := by
    intro c
    have h := forall_byte (p := fun c => isAddressChar c == (isJsonPlain c && isCsvQuoted c))
      (by decide +kernel) c
    simpa using h
  have hall : r.approxaddr.all isAddressChar = true ↔
      r.approxaddr.all isJsonPlain = true ∧ r.approxaddr.all isCsvQuoted = true := by
    simp only [List.all_eq_true, hchar, Bool.and_eq_true, forall_and]
  constructor
  · rintro ⟨⟨hlen, haddress⟩, hcoordinates, hvalues⟩
    simp only [List.forall_mem_cons] at hcoordinates hvalues
    obtain ⟨hlat, hlon, hdeviceid, -⟩ := hcoordinates
    obtain ⟨haltitude, hspeed, hvoltage, hevent, hheading, hsatellite, -⟩ := hvalues
    obtain ⟨hplain, hquoted⟩ := hall.mp haddress
    exact ⟨⟨hdeviceid, hlat, hlon, ⟨hlen, hplain⟩, haltitude, hspeed, hheading, hsatellite,
      hevent, hvoltage⟩, hquoted⟩
  · rintro ⟨⟨hdeviceid, hlat, hlon, ⟨hlen, hplain⟩, haltitude, hspeed, hheading, hsatellite,
      hevent, hvoltage⟩, hquoted⟩
    refine ⟨⟨hlen, hall.mpr ⟨hplain, hquoted⟩⟩, ?_, ?_⟩
    · simp only [List.forall_mem_cons]
      exact ⟨hlat, hlon, hdeviceid, fun t ht => absurd ht List.not_mem_nil⟩
    · simp only [List.forall_mem_cons]
      exact ⟨haltitude, hspeed, hvoltage, hevent, hheading, hsatellite,
        fun t ht => absurd ht List.not_mem_nil⟩

/-- The coordinates of a bounding box are made of the characters of numbers. -/
lemma all_boundsOf {rows : List TrackRow} (hrows : ∀ r ∈ rows, r.Stored) (timezone : ℤ) :
    ∀ u ∈ (boundsOf (rows.map (TrackRow.loc timezone))).texts, u.all isJsonNumberChar = true := by
  cases rows with
  | nil => simp [boundsOf, BoundingBox.texts]
  | cons r rows =>
      refine forall_boundsOf (P := fun u => u.all isJsonNumberChar = true) (by simp) fun p hp => ?_
      obtain ⟨r', hr', rfl⟩ := List.mem_map.mp hp
      have hdecimal := (hrows r' hr').decimal
      exact ⟨all_take (all_take (all_of_decimal (hdecimal r'.lat (by simp))) 15) _,
        all_take (all_take (all_of_decimal (hdecimal r'.lon (by simp))) 15) _⟩

/-- Coordinates that fit their buffers make a bounding box of numbers. -/
lemma isJsonNumber_boundsOf {rows : List TrackRow} (hne : rows ≠ [])
    (hrows : ∀ r ∈ rows, r.Stored ∧ r.FitsJson) (timezone : ℤ) :
    ∀ u ∈ (boundsOf (rows.map (TrackRow.loc timezone))).texts, isJsonNumber u = true := by
  refine forall_boundsOf (P := fun u => isJsonNumber u = true) (by simpa) fun p hp => ?_
  obtain ⟨r, hr, rfl⟩ := List.mem_map.mp hp
  obtain ⟨hstored, -, hlat, hlon, -⟩ := hrows r hr
  have hcopy : ∀ {x : CStr}, x.length ≤ 15 → xstrlcpy (x.take 15) 32 = x := by
    intro x hx
    rw [List.take_of_length_le hx]
    exact List.take_of_length_le (by omega)
  constructor
  · rw [TrackRow.loc, hcopy hlat]
    exact isJsonNumber_of_decimal (hstored.decimal r.lat (by simp))
  · rw [TrackRow.loc, hcopy hlon]
    exact isJsonNumber_of_decimal (hstored.decimal r.lon (by simp))

/-- **Without rows the JSON export is no JSON text**: the bounding box has no coordinates. -/
lemma not_jsonText_nil (now : ExportTime) (doc : Json) :
    ¬ JsonText (exportToJson now (boundsOf []) []) doc := by
  rintro ⟨r, hdoc, -⟩
  obtain ⟨ms, -, hnumbers, -⟩ :=
    (jsonReads_exportToJson now [] (by simp [boundsOf, BoundingBox.texts])).mp hdoc
  exact absurd (hnumbers [] (by simp [boundsOf, BoundingBox.texts])) (by decide)

/-- **Both texts are read back exactly when there is a row, and every row fits** the buffers and
needs no escape. -/
lemma readBack_iff (now : ExportTime) (timezone : ℤ) {rows : List TrackRow}
    (hrows : ∀ r ∈ rows, r.Stored) :
    (∃ doc, JsonText (exportToJson now (boundsOf (rows.map (TrackRow.loc timezone)))
          (rows.map (TrackRow.loc timezone))) doc ∧
        doc.member (str "positions") = some (.array (rows.map TrackRow.json))) ∧
      readCsv (csvLines (rows.map (TrackRow.loc timezone))) = some (rows.map TrackRow.csv) ↔
      rows ≠ [] ∧ ∀ r ∈ rows, r.Fits := by
  constructor
  · rintro ⟨⟨doc, hdoc, hmember⟩, hcsv⟩
    have hne : rows ≠ [] := by
      rintro rfl
      exact not_jsonText_nil now doc hdoc
    have hfits := ((json_iff now timezone (all_boundsOf hrows timezone) hne hrows).mp
      ⟨doc, hdoc, hmember⟩).2
    have hcsv' := (csv_iff (fun r hr => ⟨hrows r hr, hfits r hr⟩) timezone).mp hcsv
    exact ⟨hne, fun r hr => (fits_iff r).mpr ⟨hfits r hr, hcsv' r hr⟩⟩
  · rintro ⟨hne, hfits⟩
    have hboth : ∀ r ∈ rows, r.Stored ∧ r.FitsJson :=
      fun r hr => ⟨hrows r hr, ((fits_iff r).mp (hfits r hr)).1⟩
    constructor
    · rw [json_iff now timezone (all_boundsOf hrows timezone) hne hrows]
      exact ⟨isJsonNumber_boundsOf hne hboth timezone, fun r hr => (hboth r hr).2⟩
    · rw [csv_iff hboth timezone]
      exact fun r hr => ((fits_iff r).mp (hfits r hr)).2

/-- **Nothing is lost exactly when there is a row, at most 50000 of them, and every row fits** the
buffers and needs no escape. -/
theorem losesNothing_iff (now : ExportTime) (env : ExportEnv) {rows : List TrackRow}
    (hrows : ∀ r ∈ rows, r.Stored) :
    LosesNothing now env rows ↔
      rows ≠ [] ∧ rows.length ≤ internalListChunksize ∧ ∀ r ∈ rows, r.Fits := by
  constructor
  · rintro ⟨hloads, hjson, hcsv⟩
    obtain ⟨hlocs, hbox⟩ := hloads.internalSet_eq
    rw [hlocs, hbox] at hjson
    rw [hlocs] at hcsv
    obtain ⟨hne, hfits⟩ := (readBack_iff now env.timezone hrows).mp ⟨hjson, hcsv⟩
    exact ⟨hne, (loads_iff env rows).mp hloads, hfits⟩
  · rintro ⟨hne, hlen, hfits⟩
    have hloads := (loads_iff env rows).mpr hlen
    obtain ⟨hlocs, hbox⟩ := hloads.internalSet_eq
    obtain ⟨hjson, hcsv⟩ := (readBack_iff now env.timezone hrows).mpr ⟨hne, hfits⟩
    constructor
    · exact hloads
    · rwa [hlocs, hbox]
    · rwa [hlocs]

/-- Two points an hour apart are exported without loss. -/
theorem losesNothing_iff_hourApart :
    (∀ r ∈ hourApart, r.Stored) ∧ LosesNothing ⟨2013, 12, 1, 9, 30, 42⟩ utcEnv hourApart := by
  have hrows : ∀ r ∈ hourApart, r.Stored := by
    simp only [hourApart, List.forall_mem_cons]
    exact ⟨⟨by decide, by decide⟩, ⟨by decide, by decide⟩, fun r hr => absurd hr List.not_mem_nil⟩
  have hfits : ∀ r ∈ hourApart, r.Fits := by
    simp only [hourApart, List.forall_mem_cons]
    exact ⟨⟨by decide, by decide, by decide⟩, ⟨by decide, by decide, by decide⟩,
      fun r hr => absurd hr List.not_mem_nil⟩
  exact ⟨hrows, (losesNothing_iff ⟨2013, 12, 1, 9, 30, 42⟩ utcEnv hrows).mpr
    ⟨by decide, by decide, hfits⟩⟩

/-- **Without rows**, the JSON export cannot be read. -/
theorem no_rows_lost :
    ¬ ∀ (now : ExportTime) (env : ExportEnv) (rows : List TrackRow), (∀ r ∈ rows, r.Stored) →
      LosesNothing now env rows := by
  intro h
  obtain ⟨doc, hdoc, -⟩ :=
    (h ⟨2013, 12, 1, 9, 30, 42⟩ utcEnv [] fun r hr => absurd hr List.not_mem_nil).json
  exact not_jsonText_nil _ doc hdoc

end G7
