import G7Ctrl.Core.Xml
import G7Ctrl.Export.Gpx

/-!
# Well-formed exports (`export_to_gpx`, `export_to_kml`)

The columns are pasted into the markup without any escaping.  In these two formats the address is
not among them, and all other columns are numbers and dates, so that nothing has to be escaped.

* `Numeric` — a row all of whose columns but the address are made of digits, points and signs.
* **`gpx_wellFormed`**, **`kml_wellFormed`** — for such rows both formats are documents from which
  the values are read back, whatever tracks and segments the points are split into.
-/

namespace G7

/-- `export_to_kml` for one entry. -/
def placemarkText (i : ℕ) (p : G7Loc) : CStr :=
  str "<placemark>\n" ++ str "  <name>#" ++ dec i ++ str "</name>\n" ++ str "  <description>" ++
    p.date ++ str "</description>\n" ++ str "  <point>\n" ++ str "    <coordinates>" ++ p.lat ++
    str "," ++ p.lon ++ str "</coordinates>\n" ++ str "  </point>\n" ++ str "</placemark>\n"

/-- `KML_XML_HEADER` -/
def kmlXmlHeader : CStr := str "<?xml version=\"1.0\" encoding=\"UTF-8\"?>\n<kml xmlns=\"http://www.opengis.net/kml/2.2\"\ncreator=\"g7ctrl http://www.sourceforge.com/p/g7ctrl\">\n"

/-- `export_to_kml` -/
def exportToKml (locs : List G7Loc) : CStr :=
  kmlXmlHeader ++ locs.zipIdx.flatMap (fun pi => placemarkText pi.2 pi.1) ++ str "</kml>\n"

/-! ## The trees -/

/-- An element that holds other elements. -/
abbrev elem (name : String) (attrs : List (CStr × CStr)) (children : List XmlNode) : XmlNode :=
  .element (str name) attrs children

/-- White space before nodes. -/
abbrev blank (s : String) (ns : List XmlNode) : List XmlNode := consText (str s) ns

/-- The element of a point. -/
def trkptNode (p : G7Loc) : XmlNode :=
  elem "trkpt" [(str "lat", p.lat), (str "lon", p.lon)]
    (blank "\n      " (leafNode "ele" p.altitude ::
      blank "\n      " (leafNode "time" p.date ::
        blank " " (leafNode "timestamp" (dec p.dateTimestamp) ::
          blank "\n      " (leafNode "course" p.heading ::
            blank "\n      " (leafNode "speed" p.speed ::
              blank "\n      " (leafNode "sat" p.satellite :: blank "\n    " [])))))))

/-- The name of a track. -/
def trackName (numTrack : ℕ) : CStr :=
  str "Track " ++ (dec02 numTrack ++ str ": GM7 Xtreme GPS tracker")

/-- The element of a track, from the points of its first segment and what comes after that. -/
def trkNode (numTrack : ℕ) (points segs : List XmlNode) : XmlNode :=
  elem "trk" [] (blank "\n  " (leafNode "name" (trackName numTrack) ::
    blank "\n  " (elem "trkseg" [] (blank "\n" points) :: segs)))

/-- What the writes of the loop stand for: the points of the segment that is open, the other
segments of the track that is open, and the other tracks. -/
def gpxRest : List GpxWrite → List XmlNode × List XmlNode × List XmlNode
  | [] => (blank "  " [], blank "\n" [], blank "\n" [])
  | .trkpt p :: ws =>
      (blank "    " (trkptNode p :: blank "\n" (gpxRest ws).1), (gpxRest ws).2)
  | .newTrkseg :: ws =>
      (blank "  " [],
        blank "\n  " (elem "trkseg" [] (blank "\n" (gpxRest ws).1) :: (gpxRest ws).2.1),
        (gpxRest ws).2.2)
  | .newTrk n :: ws =>
      (blank "  " [], blank "\n" [],
        blank "\n" (trkNode n (gpxRest ws).1 (gpxRest ws).2.1 :: (gpxRest ws).2.2))

/-- The bounding box. -/
def boundsNode (box : BoundingBox) : XmlNode :=
  elem "bounds" [(str "minlat", box.minlat), (str "minlon", box.minlon),
    (str "maxlat", box.maxlat), (str "maxlon", box.maxlon)] []

/-- The program that wrote the file. -/
def creator : CStr := str "g7ctrl http://www.sourceforge.com/p/g7ctrl"

/-- The attributes of the root of a GPX export. -/
def gpxAttrs : List (CStr × CStr) :=
  [(str "version", str "1.1"), (str "creator", creator),
    (str "xmlns:xsi", str "http://www.w3.org/2001/XMLSchema-instance"),
    (str "xmlns", str "http://www.topografix.com/GPX/1/1"),
    (str "xsi:schemaLocation",
      str "http://www.topografix.com/GPX/1/0 http://www.topografix.com/GPX/1/0/gpx.xsd")]

/-- The root of a GPX export. -/
def gpxRoot (cfg : SplitTimes) (now : ExportTime) (box : BoundingBox) (locs : List G7Loc) :
    XmlNode :=
  elem "gpx" gpxAttrs
    (blank "\n" (elem "metadata" []
        (blank "\n  " (leafNode "time" now.text :: blank "\n" [])) ::
      blank "\n" (boundsNode box ::
        blank "\n" (trkNode 1 (gpxRest (gpxWrites cfg locs)).1 (gpxRest (gpxWrites cfg locs)).2.1 ::
          (gpxRest (gpxWrites cfg locs)).2.2))))

/-- The element of an entry in a KML export. -/
def placemarkNode (i : ℕ) (p : G7Loc) : XmlNode :=
  elem "placemark" [] (blank "\n  " (leafNode "name" (ch '#' :: dec i) ::
    blank "\n  " (leafNode "description" p.date ::
      blank "\n  " (elem "point" []
        (blank "\n    " (leafNode "coordinates" (p.lat ++ (str "," ++ p.lon)) ::
          blank "\n  " [])) ::
        blank "\n" []))))

/-- The elements of the entries. -/
def placemarkNodes (locs : List (G7Loc × ℕ)) : List XmlNode :=
  locs.foldr (fun pi ns => placemarkNode pi.2 pi.1 :: blank "\n" ns) []

/-- The root of a KML export. -/
def kmlRoot (locs : List G7Loc) : XmlNode :=
  elem "kml" [(str "xmlns", str "http://www.opengis.net/kml/2.2"), (str "creator", creator)]
    (blank "\n" (placemarkNodes locs.zipIdx))

/-! ## Values without markup -/

/-- A character of a number, a date or a list of coordinates. -/
def isValueChar (c : Byte) : Bool :=
  isDigit c || c == ch '-' || c == ch '+' || c == ch '.' || c == ch ':' || c == ch 'T' ||
    c == ch 'Z'

/-- An entry whose texts but the address are values. -/
def LocPlain (p : G7Loc) : Prop :=
  ∀ t ∈ [p.lat, p.lon, p.date, p.altitude, p.speed, p.heading, p.satellite],
    t.all isXmlPlain = true

lemma all_isXmlText {t : CStr} (h : t.all isXmlPlain = true) : t.all isXmlText = true := by
  rw [List.all_eq_true] at h ⊢
  exact fun c hc => isXmlText_of_plain (h c hc)

lemma isXmlPlain_of_valueChar {c : Byte} (hc : isValueChar c = true) : isXmlPlain c = true := by
  have h := forall_byte (p := fun c => !isValueChar c || isXmlPlain c) (by decide +kernel) c
  simpa [hc] using h

/-- A text of such characters. -/
def IsValue (t : CStr) : Prop := ∀ c ∈ t, isValueChar c = true

lemma IsValue.plain {t : CStr} (h : IsValue t) : t.all isXmlPlain = true :=
  List.all_eq_true.mpr fun c hc => isXmlPlain_of_valueChar (h c hc)

lemma IsValue.append {s t : CStr} (hs : IsValue s) (ht : IsValue t) : IsValue (s ++ t) :=
  fun c hc => (List.mem_append.mp hc).elim (hs c) (ht c)

lemma isValue_dec (n : ℕ) : IsValue (dec n) := by
  intro c hc
  simp [isValueChar, isDigit_of_mem_dec n c hc]

lemma isValue_dec02 (n : ℕ) : IsValue (dec02 n) := by
  rw [dec02]
  split_ifs
  · have hzero : IsValue [ch '0'] := by
      intro c hc
      rw [List.mem_singleton.mp hc]
      rfl
    exact hzero.append (isValue_dec n)
  · exact isValue_dec n

lemma isValue_str {s : String} (h : (str s).all isValueChar = true) : IsValue (str s) :=
  List.all_eq_true.mp h

lemma isValue_exportTime (t : ExportTime) : IsValue t.text := by
  have hminus : IsValue (str "-") := isValue_str rfl
  have hcolon : IsValue (str ":") := isValue_str rfl
  rw [ExportTime.text]
  exact ((((((((((isValue_dec _).append hminus).append (isValue_dec02 _)).append hminus).append
    (isValue_dec02 _)).append (isValue_str rfl)).append (isValue_dec02 _)).append hcolon).append
    (isValue_dec02 _)).append hcolon).append (isValue_dec02 _) |>.append (isValue_str rfl)

/-- An entry all of whose texts but the address are values. -/
def LocValues (p : G7Loc) : Prop :=
  ∀ t ∈ [p.lat, p.lon, p.date, p.altitude, p.speed, p.heading, p.satellite], IsValue t

/-! ## GPX -/

/-- The text of a point, element by element. -/
lemma trkptText_append (p : G7Loc) (s : CStr) : trkptText p ++ s =
    str "    " ++ (xmlTag (str "trkpt") (attrText " " "lat" p.lat (attrText " " "lon" p.lon [])) [] ++
      (str ">" ++ ((str "\n      " ++ (leafText "ele" p.altitude ++
        (str "\n      " ++ (leafText "time" p.date ++
        (str " " ++ (leafText "timestamp" (dec p.dateTimestamp) ++
        (str "\n      " ++ (leafText "course" p.heading ++
        (str "\n      " ++ (leafText "speed" p.speed ++
        (str "\n      " ++ (leafText "sat" p.satellite ++ (str "\n    " ++ []))))))))))))) ++
      (xmlEnd (str "trkpt") [] ++ (str "\n" ++ s))))) := by
  delta trkptText
  simp only [leafText, attrText, xmlTag, xmlEnd, List.append_assoc, List.nil_append,
    List.append_nil, str_append_str, str_append_str_append, String.reduceAppend]

/-- A point in front of a content. -/
lemma xmlContent_trkpt {p : G7Loc} (hp : LocValues p) {s : CStr} {ns : List XmlNode}
    (hs : XmlContent s ns) :
    XmlContent (trkptText p ++ s) (blank "    " (trkptNode p :: blank "\n" ns)) := by
  simp only [LocValues, List.forall_mem_cons] at hp
  obtain ⟨hlat, hlon, hdate, haltitude, hspeed, hheading, hsatellite, -⟩ := hp
  have hatts : XmlAttrs (attrText " " "lat" p.lat (attrText " " "lon" p.lon []))
      [(str "lat", p.lat), (str "lon", p.lon)] :=
    XmlAttrs.attr " " "lat" (by decide) rfl rfl hlat.plain
      (XmlAttrs.attr " " "lon" (by decide) rfl rfl hlon.plain XmlAttrs.nil List.not_mem_nil)
      (show str "lat" ∉ [str "lon"] by decide)
  have hinner :=
    XmlContent.blank "\n      " rfl (XmlContent.leaf "ele" rfl (all_isXmlText haltitude.plain)
    (XmlContent.blank "\n      " rfl (XmlContent.leaf "time" rfl (all_isXmlText hdate.plain)
    (XmlContent.blank " " rfl (XmlContent.leaf "timestamp" rfl
      (all_isXmlText (isValue_dec p.dateTimestamp).plain)
    (XmlContent.blank "\n      " rfl (XmlContent.leaf "course" rfl (all_isXmlText hheading.plain)
    (XmlContent.blank "\n      " rfl (XmlContent.leaf "speed" rfl (all_isXmlText hspeed.plain)
    (XmlContent.blank "\n      " rfl (XmlContent.leaf "sat" rfl (all_isXmlText hsatellite.plain)
    (XmlContent.blank "\n    " rfl XmlContent.nil))))))))))))
  rw [trkptText_append]
  exact XmlContent.blank "    " rfl
    (XmlContent.elem "trkpt" rfl hatts hinner (XmlContent.blank "\n" rfl hs))

/-- A segment in front of a content. -/
lemma xmlContent_trkseg {t s : CStr} {points ns : List XmlNode} (ht : XmlContent t points)
    (hs : XmlContent s ns) :
    XmlContent (str "<trkseg>\n" ++ (t ++ (str "</trkseg>" ++ s)))
      (elem "trkseg" [] (blank "\n" points) :: ns) :=
  XmlContent.elem "trkseg" rfl XmlAttrs.nil (XmlContent.blank "\n" rfl ht) hs

/-- A track in front of a content. -/
lemma xmlContent_trk (n : ℕ) {t u s : CStr} {points segs ns : List XmlNode}
    (ht : XmlContent t points) (hu : XmlContent u segs) (hs : XmlContent s ns) :
    XmlContent (trkText n ++ (t ++ (str "</trkseg>" ++ (u ++ (str "</trk>" ++ s)))))
      (trkNode n points segs :: ns) := by
  have hname : (trackName n).all isXmlText = true := by
    rw [trackName, List.all_append, List.all_append, all_isXmlText (isValue_dec02 n).plain]
    rfl
  have htext : trkText n ++ (t ++ (str "</trkseg>" ++ (u ++ (str "</trk>" ++ s))))
      = xmlTag (str "trk") [] [] ++ (str ">" ++ ((str "\n  " ++ (leafText "name" (trackName n) ++
          (str "\n  " ++ (str "<trkseg>\n" ++ (t ++ (str "</trkseg>" ++ u)))))) ++
            (xmlEnd (str "trk") [] ++ s))) := by
    delta trkText
    simp only [leafText, trackName, xmlTag, xmlEnd, List.append_assoc, List.nil_append,
      str_append_str, str_append_str_append, String.reduceAppend]
  rw [htext]
  exact XmlContent.elem "trk" rfl XmlAttrs.nil
    (XmlContent.blank "\n  " rfl (XmlContent.leaf "name" rfl hname
      (XmlContent.blank "\n  " rfl (xmlContent_trkseg ht hu)))) hs

/-- **The writes of the loop**, up to the end of the last track. -/
lemma exists_gpxRest (ws : List GpxWrite) (hws : ∀ p, GpxWrite.trkpt p ∈ ws → LocValues p) :
    ∃ t u v, XmlContent t (gpxRest ws).1 ∧ XmlContent u (gpxRest ws).2.1 ∧
      XmlContent v (gpxRest ws).2.2 ∧
      ∀ s, ws.flatMap GpxWrite.text ++ (str "  </trkseg>\n" ++ (str "</trk>\n" ++ s))
        = t ++ (str "</trkseg>" ++ (u ++ (str "</trk>" ++ (v ++ s)))) := by
  have hline : XmlContent (str "\n") (blank "\n" []) := XmlContent.blank "\n" rfl XmlContent.nil
  have hindent : XmlContent (str "  ") (blank "  " []) := XmlContent.blank "  " rfl XmlContent.nil
  induction ws with
  | nil => exact ⟨str "  ", str "\n", str "\n", hindent, hline, hline, fun s => rfl⟩
  | cons w ws ih =>
      obtain ⟨t, u, v, ht, hu, hv, htext⟩ := ih fun p hp => hws p (List.mem_cons_of_mem _ hp)
      cases w with
      | trkpt p =>
          refine ⟨trkptText p ++ t, u, v,
            xmlContent_trkpt (hws p (List.mem_cons_self ..)) ht, hu, hv, fun s => ?_⟩
          rw [List.flatMap_cons, List.append_assoc, htext, List.append_assoc]
          rfl
      | newTrkseg =>
          refine ⟨str "  ", str "\n  " ++ (str "<trkseg>\n" ++ (t ++ (str "</trkseg>" ++ u))), v,
            hindent, XmlContent.blank "\n  " rfl (xmlContent_trkseg ht hu), hv, fun s => ?_⟩
          rw [List.flatMap_cons, List.append_assoc, htext]
          simp only [List.append_assoc]
          rfl
      | newTrk n =>
          refine ⟨str "  ", str "\n",
            str "\n" ++ (trkText n ++ (t ++ (str "</trkseg>" ++ (u ++ (str "</trk>" ++ v))))),
            hindent, hline, XmlContent.blank "\n" rfl (xmlContent_trk n ht hu hv), fun s => ?_⟩
          rw [List.flatMap_cons, List.append_assoc, htext]
          simp only [GpxWrite.text, List.append_assoc]
          rfl

/-- A bounding box of values. -/
def BoxValues (box : BoundingBox) : Prop :=
  ∀ t ∈ [box.minlat, box.minlon, box.maxlat, box.maxlon], IsValue t

/-- The bounding box in front of a content. -/
lemma xmlContent_bounds {box : BoundingBox} (hbox : BoxValues box) {s : CStr}
    {ns : List XmlNode} (hs : XmlContent s ns) :
    XmlContent (boundsText box ++ s) (boundsNode box :: blank "\n" ns) := by
  simp only [BoxValues, List.forall_mem_cons] at hbox
  obtain ⟨hminlat, hminlon, hmaxlat, hmaxlon, -⟩ := hbox
  have htext : boundsText box ++ s = xmlTag (str "bounds")
      (attrText " " "minlat" box.minlat (attrText " " "minlon" box.minlon
        (attrText " " "maxlat" box.maxlat (attrText " " "maxlon" box.maxlon [])))) (str " ") ++
          (str "/>" ++ (str "\n" ++ s)) := by
    delta boundsText
    simp only [attrText, xmlTag, List.append_assoc, List.append_nil, str_append_str,
      str_append_str_append, String.reduceAppend]
  have hatts := XmlAttrs.attr " " "minlat" (by decide) rfl rfl hminlat.plain
    (XmlAttrs.attr " " "minlon" (by decide) rfl rfl hminlon.plain
      (XmlAttrs.attr " " "maxlat" (by decide) rfl rfl hmaxlat.plain
        (XmlAttrs.attr " " "maxlon" (by decide) rfl rfl hmaxlon.plain XmlAttrs.nil
          List.not_mem_nil)
        (show str "maxlat" ∉ [str "maxlon"] by decide))
      (show str "minlon" ∉ [str "maxlat", str "maxlon"] by decide))
    (show str "minlat" ∉ [str "minlon", str "maxlat", str "maxlon"] by decide)
  rw [htext]
  exact XmlContent.emptyElem "bounds" " " rfl hatts rfl (XmlContent.blank "\n" rfl hs)

/-- The points the loop writes are those of the list. -/
lemma mem_gpxLoop {cfg : SplitTimes} {p : G7Loc} (locs : List G7Loc) :
    ∀ {numTrack prev : ℕ}, GpxWrite.trkpt p ∈ gpxLoop cfg numTrack prev locs → p ∈ locs := by
  induction locs with
  | nil => intro _ _ h; simp [gpxLoop] at h
  | cons q locs ih =>
      intro numTrack prev h
      rw [gpxLoop] at h
      split_ifs at h <;> simp only [List.mem_cons, GpxWrite.trkpt.injEq, reduceCtorEq,
        false_or] at h
      · exact List.mem_cons.mpr (h.imp_right ih)
      · exact List.mem_cons.mpr (h.imp_right ih)
      · exact List.mem_cons.mpr (h.imp_right ih)

/-- The text of these attributes. -/
def gpxAtts : CStr :=
  attrText " " "version" (str "1.1") (attrText " \n" "creator" creator
    (attrText " \n" "xmlns:xsi" (str "http://www.w3.org/2001/XMLSchema-instance")
      (attrText "\n" "xmlns" (str "http://www.topografix.com/GPX/1/1")
        (attrText "\n" "xsi:schemaLocation" (str "http://www.topografix.com/GPX/1/0 http://www.topografix.com/GPX/1/0/gpx.xsd") []))))

lemma xmlAttrs_gpx : XmlAttrs gpxAtts gpxAttrs :=
  XmlAttrs.attr " " "version" (by decide) rfl rfl rfl
    (XmlAttrs.attr " \n" "creator" (by decide) rfl rfl rfl
      (XmlAttrs.attr " \n" "xmlns:xsi" (by decide) rfl rfl rfl
        (XmlAttrs.attr "\n" "xmlns" (by decide) rfl rfl rfl
          (XmlAttrs.attr "\n" "xsi:schemaLocation" (by decide) rfl rfl rfl XmlAttrs.nil
            List.not_mem_nil) (by decide)) (by decide)) (by decide)) (by decide)

/-- **A GPX export is well-formed**, and the values are read back from it. -/
theorem gpx_wellFormed (cfg : SplitTimes) (now : ExportTime) {box : BoundingBox}
    {locs : List G7Loc} (hbox : BoxValues box) (hlocs : ∀ p ∈ locs, LocValues p) :
    XmlDocument (exportToGpx cfg now box locs) (gpxRoot cfg now box locs) := by
  obtain ⟨t, u, v, ht, hu, hv, htext⟩ :=
    exists_gpxRest (gpxWrites cfg locs) fun p hp => hlocs p (mem_gpxLoop locs hp)
  have hdoc : exportToGpx cfg now box locs
      = str "<?xml" ++ (declText ++ (str "?>" ++ (str "\n" ++ (xmlTag (str "gpx") gpxAtts [] ++
          (str ">" ++ ((str "\n" ++ (xmlTag (str "metadata") [] [] ++ (str ">" ++
            ((str "\n  " ++ (leafText "time" now.text ++ (str "\n" ++ []))) ++
              (xmlEnd (str "metadata") [] ++ (str "\n" ++ (boundsText box ++
                (trkText 1 ++ (t ++ (str "</trkseg>" ++ (u ++ (str "</trk>" ++ v))))))))))) ++
            (xmlEnd (str "gpx") [] ++ str "\n")))))))) := by
    delta exportToGpx
    simp only [List.append_assoc]
    rw [htext]
    simp only [gpxXmlHeader, declText, gpxAtts, creator, attrText, leafText, xmlTag, xmlEnd,
      List.append_assoc, List.nil_append, List.append_nil, str_append_str, str_append_str_append,
      String.reduceAppend]
  rw [hdoc]
  have hinner := XmlContent.blank "\n" rfl (XmlContent.elem "metadata" rfl XmlAttrs.nil
    (XmlContent.blank "\n  " rfl (XmlContent.leaf "time" rfl
      (all_isXmlText (isValue_exportTime now).plain) (XmlContent.blank "\n" rfl XmlContent.nil)))
    (XmlContent.blank "\n" rfl (xmlContent_bounds hbox (xmlContent_trk 1 ht hu hv))))
  exact XmlDocument.declared "gpx" rfl xmlAttrs_gpx hinner

/-! ## KML -/

/-- An entry in front of a content. -/
lemma xmlContent_placemark (i : ℕ) {p : G7Loc} (hp : LocValues p) {s : CStr} {ns : List XmlNode}
    (hs : XmlContent s ns) :
    XmlContent (placemarkText i p ++ s) (placemarkNode i p :: blank "\n" ns) := by
  simp only [LocValues, List.forall_mem_cons] at hp
  obtain ⟨hlat, hlon, hdate, -⟩ := hp
  have hnumber : IsValue (dec i) := isValue_dec i
  have hname : (str "#" ++ dec i).all isXmlText = true := by
    rw [List.all_append, all_isXmlText hnumber.plain]
    rfl
  have hcoords : (p.lat ++ (str "," ++ p.lon)).all isXmlText = true := by
    rw [List.all_append, List.all_append, all_isXmlText hlat.plain, all_isXmlText hlon.plain]
    rfl
  have htext : placemarkText i p ++ s = xmlTag (str "placemark") [] [] ++ (str ">" ++
      ((str "\n  " ++ (leafText "name" (str "#" ++ dec i) ++
        (str "\n  " ++ (leafText "description" p.date ++
        (str "\n  " ++ (xmlTag (str "point") [] [] ++ (str ">" ++
          ((str "\n    " ++ (leafText "coordinates" (p.lat ++ (str "," ++ p.lon)) ++
            (str "\n  " ++ []))) ++ (xmlEnd (str "point") [] ++ (str "\n" ++ [])))))))))) ++
      (xmlEnd (str "placemark") [] ++ (str "\n" ++ s)))) := by
    delta placemarkText
    simp only [leafText, xmlTag, xmlEnd, List.append_assoc, List.nil_append, List.append_nil,
      str_append_str, str_append_str_append, String.reduceAppend]
  rw [htext]
  exact XmlContent.elem "placemark" rfl XmlAttrs.nil
    (XmlContent.blank "\n  " rfl (XmlContent.leaf "name" rfl hname
    (XmlContent.blank "\n  " rfl (XmlContent.leaf "description" rfl (all_isXmlText hdate.plain)
    (XmlContent.blank "\n  " rfl (XmlContent.elem "point" rfl XmlAttrs.nil
      (XmlContent.blank "\n    " rfl (XmlContent.leaf "coordinates" rfl hcoords
        (XmlContent.blank "\n  " rfl XmlContent.nil)))
      (XmlContent.blank "\n" rfl XmlContent.nil))))))) (XmlContent.blank "\n" rfl hs)

/-- The entries. -/
lemma xmlContent_placemarks (locs : List (G7Loc × ℕ)) (hlocs : ∀ pi ∈ locs, LocValues pi.1) :
    XmlContent (locs.flatMap fun pi => placemarkText pi.2 pi.1) (placemarkNodes locs) := by
  induction locs with
  | nil => exact XmlContent.nil
  | cons pi locs ih =>
      rw [List.flatMap_cons]
      exact xmlContent_placemark pi.2 (hlocs pi (List.mem_cons_self ..))
        (ih fun qi hqi => hlocs qi (List.mem_cons_of_mem _ hqi))

/-- **A KML export is well-formed**, and the values are read back from it. -/
theorem kml_wellFormed {locs : List G7Loc} (hlocs : ∀ p ∈ locs, LocValues p) :
    XmlDocument (exportToKml locs) (kmlRoot locs) := by
  have hplacemarks : XmlContent (locs.zipIdx.flatMap fun pi => placemarkText pi.2 pi.1)
      (placemarkNodes locs.zipIdx) :=
    xmlContent_placemarks _ fun pi hpi => hlocs pi.1 (List.fst_mem_of_mem_zipIdx hpi)
  have hatts : XmlAttrs (attrText " " "xmlns" (str "http://www.opengis.net/kml/2.2")
      (attrText "\n" "creator" creator []))
      [(str "xmlns", str "http://www.opengis.net/kml/2.2"), (str "creator", creator)] :=
    XmlAttrs.attr " " "xmlns" (by decide) rfl rfl rfl
      (XmlAttrs.attr "\n" "creator" (by decide) rfl rfl rfl XmlAttrs.nil List.not_mem_nil)
      (show str "xmlns" ∉ [str "creator"] by decide)
  have hdoc : exportToKml locs = str "<?xml" ++ (declText ++ (str "?>" ++ (str "\n" ++
      (xmlTag (str "kml") (attrText " " "xmlns" (str "http://www.opengis.net/kml/2.2")
        (attrText "\n" "creator" creator [])) [] ++
          (str ">" ++ ((str "\n" ++ locs.zipIdx.flatMap fun pi => placemarkText pi.2 pi.1) ++
            (xmlEnd (str "kml") [] ++ str "\n"))))))) := by
    delta exportToKml kmlXmlHeader
    simp only [declText, creator, attrText, xmlTag, xmlEnd, List.append_assoc, List.nil_append,
      List.append_nil, str_append_str, str_append_str_append, String.reduceAppend]
  rw [hdoc]
  exact XmlDocument.declared "kml" rfl hatts (XmlContent.blank "\n" rfl hplacemarks)

/-! ## Numeric rows -/

/-- A character of a number. -/
def isNumberChar (c : Byte) : Bool := isDigit c || c == ch '-' || c == ch '+' || c == ch '.'

/-- A row all of whose columns but the address are numeric. -/
def TrackRow.Numeric (r : TrackRow) : Prop :=
  ∀ t ∈ [r.lat, r.lon, r.datetime, r.altitude, r.speed, r.voltage, r.event, r.heading,
    r.deviceid, r.satellite], ∀ c ∈ t, isNumberChar c = true

lemma isValueChar_of_number {c : Byte} (h : isNumberChar c = true) : isValueChar c = true := by
  simp only [isNumberChar, Bool.or_eq_true] at h
  simp only [isValueChar, Bool.or_eq_true]
  tauto

/-- A date is made of the characters of a number and of those put between them. -/
lemma isValue_convertToUtc {datetime : CStr} (h : ∀ c ∈ datetime, isNumberChar c = true) :
    IsValue (convertToUtc datetime) := by
  have hbyte : ∀ i, byteAt datetime i ≠ 0 → isValueChar (byteAt datetime i) = true := by
    intro i hi
    rw [byteAt, List.getD_eq_getElem?_getD] at hi ⊢
    cases hget : datetime[i]? with
    | none => simp [hget] at hi
    | some c => exact isValueChar_of_number (h c (List.mem_of_getElem? hget))
  intro c hc
  have hne : c ≠ 0 := by simpa using List.mem_takeWhile_imp hc
  have hmem := (List.takeWhile_sublist _).subset hc
  simp only [List.mem_cons, List.not_mem_nil, or_false] at hmem
  have hlit : ∀ d ∈ str "-T:Z", isValueChar d = true := by decide +kernel
  rcases hmem with h' | h' | h' | h' | h' | h' | h' | h' | h' | h' | h' | h' | h' | h' | h' | h' |
    h' | h' | h' | h' <;> first
      | exact h' ▸ hbyte _ (h' ▸ hne)
      | exact h' ▸ hlit _ (by decide)

lemma IsValue.take {t : CStr} (h : IsValue t) (n : ℕ) : IsValue (t.take n) :=
  fun c hc => h c (List.mem_of_mem_take hc)

/-- The entry of a numeric row. -/
lemma locValues_loc {r : TrackRow} (h : r.Numeric) (timezone : ℤ) : LocValues (r.loc timezone) := by
  have hvalue : ∀ t ∈ [r.lat, r.lon, r.datetime, r.altitude, r.speed, r.voltage, r.event,
      r.heading, r.deviceid, r.satellite], IsValue t :=
    fun t ht c hc => isValueChar_of_number (h t ht c hc)
  have hdate := (isValue_convertToUtc (h r.datetime (by simp))).take 31
  simp only [LocValues, TrackRow.loc, List.forall_mem_cons]
  exact ⟨(hvalue r.lat (by simp)).take 15, (hvalue r.lon (by simp)).take 15, hdate,
    (hvalue r.altitude (by simp)).take 7, (hvalue r.speed (by simp)).take 7,
    (hvalue r.heading (by simp)).take 7, (hvalue r.satellite (by simp)).take 7, by simp⟩

/-- **The bounding box of values is one of values.** -/
lemma boxValues_boundsOf {locs : List G7Loc} (hlocs : ∀ p ∈ locs, LocValues p) :
    BoxValues (boundsOf locs) := by
  cases locs with
  | nil => simp [BoxValues, boundsOf, IsValue]
  | cons q locs =>
      exact forall_boundsOf (List.cons_ne_nil q locs) fun p hp =>
        ⟨(hlocs p hp p.lat (by simp)).take _, (hlocs p hp p.lon (by simp)).take _⟩

end G7
