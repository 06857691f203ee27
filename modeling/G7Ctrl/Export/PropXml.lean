import G7Ctrl.Export.XmlExports

/-!
# The XML export (`export_to_prop_xml`)

The header of this format opens an element `g7ctr`, and the last line closes an element `g7ctrl`.
So no export is a document, whatever the address of a row does to the markup in between.

* `XmlExports` — what is expected of the three formats.
* **`propXml_not_document`** — the XML export is never well-formed.
* **`xmlExports_never`** — so what is expected of the three is never met, although GPX and KML are
  well-formed (`gpx_wellFormed`, `kml_wellFormed`).
-/

namespace G7

/-- `PROP_XML_HEADER` -/
def propXmlHeader (now : ExportTime) : CStr :=
  str "<?xml version=\"1.0\" encoding=\"UTF-8\"?>\n<g7ctr version=\"1.0\" \nexportdate=\"" ++ now.text ++ str "\" \ncreator=\"g7ctrl http://www.sourceforge.com/p/g7ctrl\" \nxmlns:xsi=\"http://www.w3.org/2001/XMLSchema-instance\"\nxmlns=\"http://www.aditus.nu/G7CTRLDB/1.0\"\nxsi:schemaLocation=\"http://www.aditus.nu/G7CTRLDB/1.0 http://www.aditus.nu/G7CTRLDB/1.0/g7ctrl.rng\">\n"

/-- An entry. -/
def eventText (p : G7Loc) : CStr :=
  str "  <event eventid=\"" ++ p.event ++ str "\" devid=\"" ++ p.deviceid ++ str "\" lat=\"" ++
    p.lat ++ str "\" lon=\"" ++ p.lon ++ str "\" alt=\"" ++ p.altitude ++ str "\">\n" ++
    str "    <address>" ++ p.approxaddr ++ str "</address>\n" ++ str "    <datetime>" ++ p.date ++
    str "</datetime>\n" ++ str "    <speed>" ++ p.speed ++ str "</speed>\n" ++
    str "    <voltage>" ++ p.voltage ++ str "</voltage>\n" ++ str "    <heading>" ++ p.heading ++
    str "</heading>\n" ++ str "    <sat>" ++ p.satellite ++ str "</sat>\n" ++ str "  </event>\n"

/-- `export_to_prop_xml` -/
def exportToPropXml (now : ExportTime) (box : BoundingBox) (locs : List G7Loc) : CStr :=
  propXmlHeader now ++ boundsText box ++ locs.flatMap eventText ++ str "</g7ctrl>\n"

/-! ## What is expected -/

/-- The element of an entry. -/
def eventNode (p : G7Loc) : XmlNode :=
  elem "event"
    [(str "eventid", p.event), (str "devid", p.deviceid), (str "lat", p.lat), (str "lon", p.lon),
      (str "alt", p.altitude)]
    (blank "\n    " (leafNode "address" p.approxaddr ::
      blank "\n    " (leafNode "datetime" p.date ::
        blank "\n    " (leafNode "speed" p.speed ::
          blank "\n    " (leafNode "voltage" p.voltage ::
            blank "\n    " (leafNode "heading" p.heading ::
              blank "\n    " (leafNode "sat" p.satellite :: blank "\n  " [])))))))

/-- The elements of the entries. -/
def eventNodes (locs : List G7Loc) : List XmlNode :=
  locs.foldr (fun p ns => blank "  " (eventNode p :: blank "\n" ns)) []

/-- What is expected of the exports of some rows: the three formats are documents, and the values
are read back from them. -/
structure XmlExports (cfg : SplitTimes) (now : ExportTime) (timezone : ℤ)
    (rows : List TrackRow) : Prop where
  gpx : XmlDocument
    (exportToGpx cfg now (boundsOf (rows.map (TrackRow.loc timezone)))
      (rows.map (TrackRow.loc timezone)))
    (gpxRoot cfg now (boundsOf (rows.map (TrackRow.loc timezone)))
      (rows.map (TrackRow.loc timezone)))
  kml : XmlDocument (exportToKml (rows.map (TrackRow.loc timezone)))
    (kmlRoot (rows.map (TrackRow.loc timezone)))
  /-- Here any root will do that holds the bounding box and the entries. -/
  propXml : ∃ name attrs, XmlDocument
    (exportToPropXml now (boundsOf (rows.map (TrackRow.loc timezone)))
      (rows.map (TrackRow.loc timezone)))
    (.element name attrs (blank "\n" (boundsNode (boundsOf (rows.map (TrackRow.loc timezone))) ::
      blank "\n" (eventNodes (rows.map (TrackRow.loc timezone))))))

/-- **GPX and KML exports of numeric rows are as expected.** -/
theorem gpx_kml_exports (cfg : SplitTimes) (now : ExportTime) (timezone : ℤ)
    {rows : List TrackRow} (hrows : ∀ r ∈ rows, r.Numeric) :
    XmlDocument
        (exportToGpx cfg now (boundsOf (rows.map (TrackRow.loc timezone)))
          (rows.map (TrackRow.loc timezone)))
        (gpxRoot cfg now (boundsOf (rows.map (TrackRow.loc timezone)))
          (rows.map (TrackRow.loc timezone))) ∧
      XmlDocument (exportToKml (rows.map (TrackRow.loc timezone)))
        (kmlRoot (rows.map (TrackRow.loc timezone))) := by
  have hlocs : ∀ p ∈ rows.map (TrackRow.loc timezone), LocValues p := by
    intro p hp
    obtain ⟨r, hr, rfl⟩ := List.mem_map.mp hp
    exact locValues_loc (hrows r hr) timezone
  exact ⟨gpx_wellFormed cfg now (boxValues_boundsOf hlocs) hlocs, kml_wellFormed hlocs⟩

/-! ## What is never met -/

/-- The export from its declaration to its last tag. -/
lemma exportToPropXml_ends (now : ExportTime) (box : BoundingBox) (locs : List G7Loc) :
    (∃ y, exportToPropXml now box locs = str "<?xml" ++
      (str " version=\"1.0\" encoding=\"UTF-8\"" ++ (str "?>\n<" ++ (str "g7ctr" ++
        (str " version=\"1.0\" \nexportdate=\"" ++ y))))) ∧
      ∃ x, exportToPropXml now box locs = x ++ (str "</" ++ (str "g7ctrl" ++ str ">\n")) := by
  constructor
  · delta exportToPropXml propXmlHeader
    simp only [List.append_assoc, str_append_str_append, String.reduceAppend]
    exact ⟨_, rfl⟩
  · exact ⟨propXmlHeader now ++ boundsText box ++ locs.flatMap eventText, rfl⟩

/-- **The XML export is never well-formed**, whatever the columns contain. -/
theorem propXml_not_document (now : ExportTime) (box : BoundingBox) (locs : List G7Loc)
    (root : XmlNode) : ¬ XmlDocument (exportToPropXml now box locs) root := by
  intro h
  obtain ⟨⟨y, hstart⟩, ⟨x, hend⟩⟩ := exportToPropXml_ends now box locs
  have hopened : root.name = str "g7ctr" :=
    h.root_name_of_declared (b := ch ' ') (c := ch ' ') (by decide) (by decide) (by decide)
      (by decide) hstart
  have hclosed : root.name = str "g7ctrl" := h.root_name_of_end (by decide) (by decide) hend
  rw [hopened] at hclosed
  exact absurd hclosed (by decide)

/-- **What is expected of the three formats is never met.** -/
theorem xmlExports_never (cfg : SplitTimes) (now : ExportTime) (timezone : ℤ)
    (rows : List TrackRow) : ¬ XmlExports cfg now timezone rows := by
  intro h
  obtain ⟨name, attrs, hdoc⟩ := h.propXml
  exact propXml_not_document now _ _ _ hdoc

/-- **The XML export of no rows at all is not well-formed.** -/
theorem no_rows_not_document : ¬ ∀ (cfg : SplitTimes) (now : ExportTime) (timezone : ℤ)
    (rows : List TrackRow), (∀ r ∈ rows, r.Numeric) → XmlExports cfg now timezone rows := by
  intro h
  obtain ⟨name, attrs, hdoc⟩ :=
    (h tenMinutes ⟨2013, 12, 1, 9, 30, 42⟩ 0 [] fun r hr => absurd hr List.not_mem_nil).propXml
  exact propXml_not_document _ _ _ _ hdoc

end G7
