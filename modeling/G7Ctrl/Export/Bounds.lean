import G7Ctrl.Export.Gpx
import G7Ctrl.Xstr.Decimal
import Mathlib.Order.Bounds.Basic

/-!
# The bounding box of an export (`sqres_export_callback`)

While the rows of the query are read, the smallest and the largest latitude and longitude are kept
as texts, and a new one is compared with them by `strcmp`.

* `BoundsTight` — the box has the smallest and the largest value of the points.
* `SameExtremes` — a text that is first has the smallest value, and one that is last the largest.
* **`boundsOf_extremes`** — the box has the first and the last text.
* **`boundsTight_iff`** — when the box is that of the points.
* **`sameExtremes_of_decimalText`** — without signs and with as many digits before the points it is.
-/

namespace G7

/-- The smallest and the largest value of some texts. -/
structure Spans (ts : List CStr) (lo hi : CStr) : Prop where
  least : IsLeast (coordValue '' {t | t ∈ ts}) (coordValue lo)
  greatest : IsGreatest (coordValue '' {t | t ∈ ts}) (coordValue hi)

/-- **The bounding box is that of the points**, if there are any. -/
def BoundsTight (locs : List G7Loc) (box : BoundingBox) : Prop :=
  locs ≠ [] → Spans (locs.map G7Loc.lat) box.minlat box.maxlat ∧
    Spans (locs.map G7Loc.lon) box.minlon box.maxlon

/-- One text is the first and has the smallest value, and one is the last and has the largest. -/
structure SameExtremes (ts : List CStr) : Prop where
  first : ∃ t ∈ ts, ∀ u ∈ ts, t ≤ u ∧ coordValue t ≤ coordValue u
  last : ∃ t ∈ ts, ∀ u ∈ ts, u ≤ t ∧ coordValue u ≤ coordValue t

/-! ## Extremes and their images -/

section Extremes

variable {α β : Type*} [LE α] [Std.IsPartialOrder α] [LE β] {f : α → β} {s : Set α} {a : α}

/-- The image of the least element is the least image if some element is least in both ways. -/
lemma isLeast_image_iff (h : IsLeast s a) :
    IsLeast (f '' s) (f a) ↔ ∃ t ∈ s, ∀ u ∈ s, t ≤ u ∧ f t ≤ f u := by
  constructor
  · intro himage
    exact ⟨a, h.1, fun u hu => ⟨h.2 hu, himage.2 ⟨u, hu, rfl⟩⟩⟩
  · rintro ⟨t, ht, hleast⟩
    obtain rfl : t = a := Std.le_antisymm (hleast a h.1).1 (h.2 ht)
    refine ⟨⟨t, ht, rfl⟩, ?_⟩
    rintro _ ⟨u, hu, rfl⟩
    exact (hleast u hu).2

lemma isGreatest_image_iff (h : IsGreatest s a) :
    IsGreatest (f '' s) (f a) ↔ ∃ t ∈ s, ∀ u ∈ s, u ≤ t ∧ f u ≤ f t := by
  constructor
  · intro himage
    exact ⟨a, h.1, fun u hu => ⟨h.2 hu, himage.2 ⟨u, hu, rfl⟩⟩⟩
  · rintro ⟨t, ht, hgreatest⟩
    obtain rfl : t = a := Std.le_antisymm (h.2 ht) (hgreatest a h.1).1
    refine ⟨⟨t, ht, rfl⟩, ?_⟩
    rintro _ ⟨u, hu, rfl⟩
    exact (hgreatest u hu).2

end Extremes

/-! ## The box -/

/-- The first and the last of some texts. -/
structure Extremes (ts : List CStr) (lo hi : CStr) : Prop where
  first : IsLeast {t | t ∈ ts} lo
  last : IsGreatest {t | t ∈ ts} hi

lemma Extremes.singleton (t : CStr) : Extremes [t] t t := by
  constructor
  · refine ⟨List.mem_singleton_self t, fun u hu => ?_⟩
    rw [List.mem_singleton.mp hu]
    exact Std.le_refl t
  · refine ⟨List.mem_singleton_self t, fun u hu => ?_⟩
    rw [List.mem_singleton.mp hu]
    exact Std.le_refl t

/-- One more text. -/
lemma Extremes.concat {ts : List CStr} {lo hi : CStr} (h : Extremes ts lo hi) (t : CStr) :
    Extremes (ts ++ [t]) (if t < lo then t else lo) (if hi < t then t else hi) := by
  have hmem : ∀ u, u ∈ ts ++ [t] ↔ u ∈ ts ∨ u = t := by simp
  constructor
  · split_ifs with hlt
    · refine ⟨(hmem t).mpr (Or.inr rfl), fun u hu => ?_⟩
      rcases (hmem u).mp hu with hu | rfl
      · exact Std.le_of_lt (Std.lt_of_lt_of_le hlt (h.first.2 hu))
      · exact Std.le_refl u
    · refine ⟨(hmem lo).mpr (Or.inl h.first.1), fun u hu => ?_⟩
      rcases (hmem u).mp hu with hu | rfl
      · exact h.first.2 hu
      · exact Std.not_lt.mp hlt
  · split_ifs with hlt
    · refine ⟨(hmem t).mpr (Or.inr rfl), fun u hu => ?_⟩
      rcases (hmem u).mp hu with hu | rfl
      · exact Std.le_of_lt (Std.lt_of_le_of_lt (h.last.2 hu) hlt)
      · exact Std.le_refl u
    · refine ⟨(hmem hi).mpr (Or.inl h.last.1), fun u hu => ?_⟩
      rcases (hmem u).mp hu with hu | rfl
      · exact h.last.2 hu
      · exact Std.not_lt.mp hlt

/-- **The box has the first and the last text** of the points. -/
theorem boundsOf_extremes {locs : List G7Loc} (hne : locs ≠ [])
    (hlen : ∀ p ∈ locs, p.lat.length < 32 ∧ p.lon.length < 32) :
    Extremes (locs.map G7Loc.lat) (boundsOf locs).minlat (boundsOf locs).maxlat ∧
      Extremes (locs.map G7Loc.lon) (boundsOf locs).minlon (boundsOf locs).maxlon := by
  induction locs using List.reverseRecOn with
  | nil => exact absurd rfl hne
  | append_singleton locs p ih =>
      obtain ⟨hlat, hlon⟩ := hlen p (by simp)
      have hlatCopy : xstrlcpy p.lat 32 = p.lat := List.take_of_length_le (by omega)
      have hlonCopy : xstrlcpy p.lon 32 = p.lon := List.take_of_length_le (by omega)
      rw [boundsOf_concat, List.map_append, List.map_append, List.map_singleton,
        List.map_singleton]
      cases locs with
      | nil =>
          simp only [BoundingBox.update, List.isEmpty_nil, if_true, hlatCopy, hlonCopy,
            List.map_nil, List.nil_append]
          exact ⟨.singleton p.lat, .singleton p.lon⟩
      | cons q locs =>
          obtain ⟨ihLat, ihLon⟩ := ih (List.cons_ne_nil q locs) fun p' hp' =>
            hlen p' (List.mem_append_left _ hp')
          simp only [BoundingBox.update, List.isEmpty_cons, Bool.false_eq_true, if_false, hlatCopy,
            hlonCopy]
          exact ⟨ihLat.concat p.lat, ihLon.concat p.lon⟩

/-- The values are those of the first and the last text. -/
lemma Extremes.spans_iff {ts : List CStr} {lo hi : CStr} (h : Extremes ts lo hi) :
    Spans ts lo hi ↔ SameExtremes ts := by
  constructor
  · rintro ⟨hleast, hgreatest⟩
    exact ⟨(isLeast_image_iff h.first).mp hleast, (isGreatest_image_iff h.last).mp hgreatest⟩
  · rintro ⟨hfirst, hlast⟩
    exact ⟨(isLeast_image_iff h.first).mpr hfirst, (isGreatest_image_iff h.last).mpr hlast⟩

/-- Some text is the first, and some text the last. -/
lemma exists_extremes {ts : List CStr} (hne : ts ≠ []) : ∃ lo hi, Extremes ts lo hi := by
  induction ts using List.reverseRecOn with
  | nil => exact absurd rfl hne
  | append_singleton ts t ih =>
      by_cases hts : ts = []
      · subst hts
        exact ⟨t, t, .singleton t⟩
      · obtain ⟨lo, hi, h⟩ := ih hts
        exact ⟨_, _, h.concat t⟩

/-- **Numbers without signs and with as many digits before the point** are in the order of their
texts. -/
theorem sameExtremes_of_decimalText {n : ℕ} {ts : List CStr} (hne : ts ≠ [])
    (h : ∀ t ∈ ts, DecimalText n t) : SameExtremes ts := by
  obtain ⟨lo, hi, hext⟩ := exists_extremes hne
  have hmono : ∀ t ∈ ts, ∀ u ∈ ts, t ≤ u → coordValue t ≤ coordValue u := by
    intro t ht u hu hle
    rw [coordValue_of_decimalText (h t ht), coordValue_of_decimalText (h u hu)]
    exact decimalValue_le_of_le (h t ht) (h u hu) hle
  constructor
  · have hlo : lo ∈ ts := hext.first.1
    exact ⟨lo, hlo, fun u hu => ⟨hext.first.2 hu, hmono lo hlo u hu (hext.first.2 hu)⟩⟩
  · have hhi : hi ∈ ts := hext.last.1
    exact ⟨hi, hhi, fun u hu => ⟨hext.last.2 hu, hmono u hu hi hhi (hext.last.2 hu)⟩⟩

/-! ## The query -/

/-- When the box of some points is theirs. -/
lemma boundsTight_boundsOf (timezone : ℤ) (rows : List TrackRow) :
    BoundsTight (rows.map (TrackRow.loc timezone)) (boundsOf (rows.map (TrackRow.loc timezone))) ↔
      rows = [] ∨ (SameExtremes (rows.map fun r => r.lat.take 15) ∧
        SameExtremes (rows.map fun r => r.lon.take 15)) := by
  by_cases hne : rows = []
  · simp [BoundsTight, hne]
  · have hne' : rows.map (TrackRow.loc timezone) ≠ [] := by simpa using hne
    have hlen : ∀ p ∈ rows.map (TrackRow.loc timezone), p.lat.length < 32 ∧ p.lon.length < 32 := by
      intro p hp
      obtain ⟨r, -, rfl⟩ := List.mem_map.mp hp
      simp only [TrackRow.loc, List.length_take]
      omega
    obtain ⟨hlat, hlon⟩ := boundsOf_extremes hne' hlen
    have hlats : (rows.map (TrackRow.loc timezone)).map G7Loc.lat
        = rows.map fun r => r.lat.take 15 := by simp [TrackRow.loc]
    have hlons : (rows.map (TrackRow.loc timezone)).map G7Loc.lon
        = rows.map fun r => r.lon.take 15 := by simp [TrackRow.loc]
    rw [BoundsTight, forall_prop_of_true hne', hlat.spans_iff, hlon.spans_iff, hlats, hlons,
      or_iff_right hne]

/-- **When the bounding box is that of the points**: the latitude that comes first as a text is the
smallest and the one that comes last the largest, and the longitudes likewise.  The query comes to
its last row; the writes past the memory of a list that has grown (`loads_iff`) are not counted
here. -/
theorem boundsTight_iff (env : ExportEnv) (rows : List TrackRow)
    (h : (exportRows env {} (rows.map TrackRow.columns)).1 = true) :
    BoundsTight (exportRows env {} (rows.map TrackRow.columns)).2.locs
        (exportRows env {} (rows.map TrackRow.columns)).2.box ↔
      rows = [] ∨ (SameExtremes (rows.map fun r => r.lat.take 15) ∧
        SameExtremes (rows.map fun r => r.lon.take 15)) := by
  obtain ⟨hlocs, hbox⟩ := exportRows_true h rfl
  rw [hlocs, hbox, List.nil_append]
  exact boundsTight_boundsOf env.timezone rows

/-- A place near the equator. -/
def equatorRow : TrackRow := { pointAt (str "20131201093042") with lat := str "9.366545" }

/-- Two points, the first one north of the second. -/
def twoPoints : List TrackRow :=
  [{ pointAt (str "20131201093042") with lat := str "60.128161" }, pointAt (str "20131201093142")]

/-- The bounding box of two points has the first one at its top. -/
theorem boundsTight_iff_twoPoints :
    BoundsTight (exportRows utcEnv {} (twoPoints.map TrackRow.columns)).2.locs
        (exportRows utcEnv {} (twoPoints.map TrackRow.columns)).2.box ∧
      (exportRows utcEnv {} (twoPoints.map TrackRow.columns)).2.box.maxlat = str "60.128161" := by
  have hdone : (exportRows utcEnv {} (twoPoints.map TrackRow.columns)).1 = true := by decide
  have hlats : SameExtremes [str "60.128161", str "59.366545"] := by
    refine sameExtremes_of_decimalText (n := 2) (by decide) fun t ht => ?_
    rcases List.mem_pair.mp ht with rfl | rfl
    · exact ⟨by decide, str "60", str "128161", by decide, rfl, by decide +kernel,
        by decide +kernel⟩
    · exact ⟨by decide, str "59", str "366545", by decide, rfl, by decide +kernel,
        by decide +kernel⟩
  have hlons : SameExtremes [str "17.959445", str "17.959445"] := by
    refine sameExtremes_of_decimalText (n := 2) (by decide) fun t ht => ?_
    rcases List.mem_pair.mp ht with rfl | rfl
    · exact ⟨by decide, str "17", str "959445", by decide, rfl, by decide +kernel,
        by decide +kernel⟩
    · exact ⟨by decide, str "17", str "959445", by decide, rfl, by decide +kernel,
        by decide +kernel⟩
  exact ⟨(boundsTight_iff utcEnv twoPoints hdone).mpr (.inr ⟨hlats, hlons⟩), by decide⟩

/-- **The texts are compared**: 9.366545 comes behind 59.366545. -/
theorem equator_outside_bounds : ¬ ∀ (env : ExportEnv) (rows : List TrackRow),
    (exportRows env {} (rows.map TrackRow.columns)).1 = true →
      BoundsTight (exportRows env {} (rows.map TrackRow.columns)).2.locs
        (exportRows env {} (rows.map TrackRow.columns)).2.box := by
  intro h
  have hmem : ∀ n, utcEnv.reallocOk n = true := fun _ => rfl
  obtain ⟨hdone, hlocs, hbox⟩ := exportRows_columns hmem
    [equatorRow, pointAt (str "20131201093142")] (s := {}) rfl
  have htight := h utcEnv _ hdone
  rw [hlocs, hbox, List.nil_append, boundsTight_boundsOf] at htight
  obtain hnil | ⟨hlat, -⟩ := htight
  · cases hnil
  · obtain ⟨t, ht, hfirst⟩ := hlat.first
    have hsouth := hfirst (str "9.366545") (by decide)
    have hnorth := hfirst (str "59.366545") (by decide)
    have hlats : ([equatorRow, pointAt (str "20131201093142")].map fun r => r.lat.take 15)
        = [str "9.366545", str "59.366545"] := by decide
    rw [hlats, List.mem_pair] at ht
    rcases ht with rfl | rfl
    · exact absurd hnorth.1 (by decide)
    · exact absurd hsouth.2 (by decide +kernel)

end G7
