import G7Ctrl.Table.BorderLines
import G7Ctrl.Table.Bounds

/-!
# Geometry of a table (`utable_strstroke`)

Every line of a table has as many code points as the table is wide, and one more.

* `Regular` — the tables for which the code draws them so.
* **`strokeRows_writes`**, **`strokeTable_writes`** — the lines of a table whose rows are spanned.
* **`spanned_of_emits`** — no other table is drawn to its end.
* `LinesRight` — the lines are as they should be.
* **`linesRight_iff`** — exactly when they are.
-/

namespace G7.Utable

/-- The spans of a row end exactly at its end. -/
def Spanned (t : Table) (row : ℕ) : Prop := Strides (t.span row) t.nCol 0 (t.cells row)

/-- The cells of a row end where they should, and their texts fit. -/
structure RowDrawn (cutInPadding : Bool) (t : Table) (row : ℕ) : Prop where
  spanned : Spanned t row
  fits : ∀ c ∈ t.cells row, CellFits cutInPadding t row c

/-- No text of a row is taken for a placeholder, nor is there one below the row. -/
structure RowClear (cutInPadding : Bool) (t : Table) (row : ℕ) : Prop where
  cells : ∀ c ∈ t.cells row, CellClear cutInPadding t row c
  header : HeaderFits t row

/-- **The tables whose lines are right**: the spans of every row, and those of the row at the top, end
exactly at its end; what is left of the texts fits and is not taken for the placeholder; and the cells
above and below the line of the header end in the same places. -/
structure Regular (cutInPadding : Bool) (t : Table) : Prop where
  top : t.title = none → Spanned t 0
  rows : ∀ row < t.nRow, RowDrawn cutInPadding t row
  clear : ∀ row < t.nRow, RowClear cutInPadding t row

/-! ## Rows -/

section Rows

variable {t : Table} (hd : Drawable t) (hcol : 0 < t.nCol) {b : Borders}
  (hb : ∀ s ∈ b.all, isMark s = true) {cutInPadding : Bool}
include hd hcol hb

/-- **A row of cells** is a full line if its texts are clear. -/
lemma drawRow_line {row : ℕ} (hrow : row < t.nRow) (h : RowDrawn cutInPadding t row) :
    ∃ line, Writes (drawRow cutInPadding t row b.borderVertical b.borderVertical b.middleVertical
        (t.nCol + 1) 0) (line ++ [lf]) () ∧ Strip (t.colStart t.nCol + 1) line ∧
      (Avoids placeholder line ↔ ∀ c ∈ t.cells row, CellClear cutInPadding t row c) := by
  have hlen := h.spanned.length_le
  obtain ⟨line, hwrites, hstrip, havoids⟩ := drawRow_writes hd hrow
    (hb b.borderVertical (by simp [Borders.all])) (hb b.borderVertical (by simp [Borders.all]))
    (hb b.middleVertical (by simp [Borders.all])) h.spanned (fun _ hmem => hmem) h.fits
    (show (t.cells row).length < t.nCol + 1 by omega)
  have hclear := havoids []
  rw [List.nil_append, and_iff_right (Avoids.nil placeholder_ne_nil)] at hclear
  rw [Table.colStart_zero, Nat.sub_zero] at hstrip
  exact ⟨line, hwrites, hstrip, hclear⟩

/-- **The rows**, with `k` of them left. -/
theorem strokeRows_writes (hdrawn : ∀ row < t.nRow, RowDrawn cutInPadding t row) {k r : ℕ}
    (hk : r + k = t.nRow) {e : ℕ → ℕ} (he : k = 0 → ∀ i, e i < 3) :
    ∃ lines e', Writes (strokeRows cutInPadding t b (t.colStart t.nCol) k r
        (marksOf (t.colStart t.nCol) e)) (joinLines lf lines) (marksOf (t.colStart t.nCol) e') ∧
      (∀ i, e' i < 3) ∧
      ((∀ row, r ≤ row → row < t.nRow → RowClear cutInPadding t row) →
        ∀ line ∈ lines, FullLine t line) ∧
      ((∀ line ∈ lines, Avoids placeholder line) →
        ∀ row, r ≤ row → row < t.nRow → RowClear cutInPadding t row) := by
  induction k generalizing r e with
  | zero =>
      exact ⟨[], e, writes_pure _, he rfl, fun _ line hline => absurd hline List.not_mem_nil,
        fun _ row hr hlt => by omega⟩
  | succ k ih =>
      have hrow : r < t.nRow := by omega
      obtain ⟨line, hline, hstrip, hclear⟩ := drawRow_line hd hcol hb hrow (hdrawn r hrow)
      obtain ⟨below, hbelow, hfull, hfits⟩ := strokeBelow_writes hcol hb r
      have hmarks := marksBelow_eq hd.total (hdrawn r hrow).spanned
        fun hnext => (hdrawn (r + 1) hnext).spanned
      obtain ⟨lines, e', hlines, he', hrest, hback⟩ := ih (r := r + 1) (e := belowMarks t r) (by omega)
        fun hlast => belowMarks_last (by omega)
      refine ⟨line :: below ++ lines, e', ?_, he', fun hall => ?_, fun hall row hr hlt => ?_⟩
      · rw [strokeRows, List.cons_append, joinLines_cons, joinLines_append, List.append_cons]
        exact hline.bind (writes_checkReturn.bind_nil ((writes_lift hmarks).bind_nil
          (hbelow.bind hlines)))
      · obtain ⟨hcells, hheader⟩ := hall r le_rfl hrow
        rw [List.cons_append, List.forall_mem_cons, List.forall_mem_append]
        exact ⟨⟨hstrip, hclear.mpr hcells⟩, hfull hheader,
          hrest fun row hr hlt => hall row (by omega) hlt⟩
      · rw [List.cons_append, List.forall_mem_cons, List.forall_mem_append] at hall
        obtain ⟨hfirst, hsecond, hthird⟩ := hall
        rcases Nat.lt_or_eq_of_le hr with hr | rfl
        · exact hback hthird row hr hlt
        · exact ⟨hclear.mp hfirst, hfits hsecond⟩

end Rows

lemma Drawable.totwidth_eq {t : Table} (hd : Drawable t) : t.totwidth = t.colStart t.nCol :=
  t.totwidth_eq (hd.total.trans (by decide))

/-- **All lines** of a table whose rows are drawn. -/
theorem strokeTable_writes {t : Table} (hd : Drawable t) (hcol : 0 < t.nCol) {cutInPadding : Bool}
    (htop : t.title = none → Spanned t 0) (hdrawn : ∀ row < t.nRow, RowDrawn cutInPadding t row)
    (style : TblStyle) :
    ∃ lines, Writes (strokeTable cutInPadding t style) (joinLines lf lines) () ∧
      ((∀ row < t.nRow, RowClear cutInPadding t row) → ∀ line ∈ lines, FullLine t line) ∧
      ((∀ line ∈ lines, Avoids placeholder line) → ∀ row < t.nRow, RowClear cutInPadding t row) := by
  have hb : ∀ s ∈ (borders style t.interiorV).all, isMark s = true :=
    fun s hs => isMark_borders style t.interiorV hs
  obtain ⟨top, e, htop, hfull, he⟩ := strokeTop_writes hd hcol hb htop
  obtain ⟨lines, e', hlines, he', hrows, hback⟩ :=
    strokeRows_writes hd hcol hb hdrawn (Nat.zero_add t.nRow) (e := e) fun _ => he
  obtain ⟨ends, hends, hlast⟩ : ∃ ends, Writes
      (if (borders style t.interiorV).haveBottomBorder then strokeBottom (borders style t.interiorV)
        (t.colStart t.nCol) (marksOf (t.colStart t.nCol) e') else return ()) (joinLines lf ends) () ∧
      ∀ line ∈ ends, FullLine t line := by
    cases (borders style t.interiorV).haveBottomBorder with
    | true =>
        obtain ⟨line, hline, hfull⟩ := strokeBottom_writes hcol hb he'
        rw [← joinLines_singleton] at hline
        exact ⟨[line], hline, List.forall_mem_singleton.mpr hfull⟩
    | false => exact ⟨[], writes_pure (), fun line hline => absurd hline List.not_mem_nil⟩
  refine ⟨top :: (lines ++ ends), ?_, fun hclear => ?_, fun havoids row hrow => ?_⟩
  · rw [strokeTable, hd.totwidth_eq, joinLines_cons, joinLines_append, List.append_cons]
    exact htop.bind (hlines.bind hends)
  · rw [List.forall_mem_cons, List.forall_mem_append]
    exact ⟨hfull, hrows fun row _ hrow => hclear row hrow, hlast⟩
  · rw [List.forall_mem_cons, List.forall_mem_append] at havoids
    exact hback havoids.2.1 row (Nat.zero_le row) hrow

/-! ## Tables that are drawn to their end -/

section Emits

variable {t : Table} (hd : Drawable t) {b : Borders} {cutInPadding : Bool}
include hd

/-- Every row that is drawn is spanned, and its texts fit. -/
lemma drawn_of_strokeRows {k r : ℕ} (hk : r + k = t.nRow) {eval eval' : List ℕ} {as : List Action}
    (h : (strokeRows cutInPadding t b (t.colStart t.nCol) k r eval).Emits as eval') :
    ∀ row, r ≤ row → row < t.nRow → RowDrawn cutInPadding t row := by
  induction k generalizing r eval as with
  | zero =>
      intro row hr hlt
      omega
  | succ k ih =>
      intro row hr hlt
      obtain ⟨_, _, _, hdraw, h, -⟩ := Traced.emits_bind_iff.mp h
      obtain ⟨_, _, _, -, h, -⟩ := Traced.emits_bind_iff.mp h
      obtain ⟨_, _, _, hmarks, h, -⟩ := Traced.emits_bind_iff.mp h
      obtain ⟨_, _, _, -, h, -⟩ := Traced.emits_bind_iff.mp h
      rcases Nat.lt_or_eq_of_le hr with hr | rfl
      · exact ih (by omega) h row hr hlt
      · obtain ⟨own, hown, -⟩ := Checked.bind_eq_done.mp (Traced.emits_lift_iff.mp hmarks).2
        have hspanned : Spanned t r :=
          strides_of_markVerticals hd.total List.length_replicate hown
        exact ⟨hspanned, fits_of_drawRow hd hlt hspanned (fun _ hmem => hmem) hdraw⟩

/-- **A table that is drawn to its end.** -/
theorem drawn_of_strokeTable {style : TblStyle} {as : List Action}
    (h : (strokeTable cutInPadding t style).Emits as ()) :
    (t.title = none → Spanned t 0) ∧ ∀ row < t.nRow, RowDrawn cutInPadding t row := by
  rw [strokeTable, hd.totwidth_eq] at h
  obtain ⟨_, _, _, htop, h, -⟩ := Traced.emits_bind_iff.mp h
  obtain ⟨_, _, _, hrows, -, -⟩ := Traced.emits_bind_iff.mp h
  refine ⟨fun htitle => ?_, fun row hrow =>
    drawn_of_strokeRows hd (Nat.zero_add t.nRow) hrows row (Nat.zero_le row) hrow⟩
  obtain ⟨_, _, _, -, htop, -⟩ := Traced.emits_bind_iff.mp htop
  obtain ⟨_, _, _, -, htop, -⟩ := Traced.emits_bind_iff.mp htop
  obtain ⟨_, _, _, hmarks, -, -⟩ := Traced.emits_bind_iff.mp htop
  have hown := (Traced.emits_lift_iff.mp hmarks).2
  rw [htitle, Option.isSome_none, if_neg Bool.false_ne_true] at hown
  exact strides_of_markVerticals hd.total List.length_replicate hown

end Emits

/-! ## Lines in a buffer -/

/-- A line with one code point more than the table is wide, without the placeholder. -/
def RightLine (t : Table) (line : CStr) : Prop :=
  lf ∉ line ∧ (∃ chars : List CodePoint, utf8Bytes chars = line ∧ chars.length = t.totwidth + 1) ∧
    ¬ str "#ERR#" <:+: line

/-- A table without columns is refused; for any other one, the lines that are written, and that every
buffer which is large enough gets, are right. -/
def LinesRight (cutInPadding : Bool) (t : Table) (style : TblStyle) : Prop :=
  ∃ t', prepare t = .done t' ∧
    (t'.totwidth = 0 ∧ (∀ buff, utableStrstroke cutInPadding t buff style = .done (.ret (-1) buff)) ∨
      ∃ actions lines, Renders cutInPadding t style actions ∧ putText actions = joinLines lf lines ∧
        (∀ line ∈ lines, RightLine t' line) ∧
        ∀ buff : List Byte, 2 * charges actions < buff.length → buff.length < 2 ^ 31 → ∃ rest,
          utableStrstroke cutInPadding t buff style =
            .done (.ret 0 (joinLines lf lines ++ 0 :: rest)))

/-- **A buffer that is large enough** gets the whole text. -/
lemma utableStrstroke_of_large {cutInPadding : Bool} {t : Table} {style : TblStyle}
    {actions : List Action} (h : Renders cutInPadding t style actions) {buff : List Byte}
    (hlarge : 2 * charges actions < buff.length) (hbuff : buff.length < 2 ^ 31) :
    ∃ rest, utableStrstroke cutInPadding t buff style =
      .done (.ret 0 (putText actions ++ 0 :: rest)) := by
  have hleft : toInt32 buff.length = buff.length :=
    toInt32_of_lt (by omega) (by omega)
  have hreaches := utableStrstroke_reaches h (show 0 < buff.length by omega) (by omega)
  have hspace : ((0 : ℕ) : ℤ) + 2 * charges actions < toInt32 buff.length := by
    rw [hleft]
    omega
  obtain ⟨hfit, hstop⟩ := allFit_of_large actions hspace
  rw [hstop, (kept_eq_iff _ _ _).mpr hfit] at hreaches
  exact hreaches

lemma FullLine.right {t : Table} (hd : Drawable t) {line : CStr} (h : FullLine t line) :
    RightLine t line := by
  obtain ⟨hstrip, havoids⟩ := h
  rw [RightLine, hd.totwidth_eq]
  exact ⟨hstrip.lf_free, hstrip.chars, havoids⟩

/-- Lines without a placeholder, for the text that is written. -/
lemma avoids_of_putText {lines lines' : List CStr} (h : joinLines lf lines = joinLines lf lines')
    (hlines : ∀ line ∈ lines, Avoids placeholder line) : ∀ line ∈ lines', Avoids placeholder line := by
  have hbreak : lf ∉ placeholder := by decide
  rw [← avoids_joinLines_iff hbreak placeholder_ne_nil, h,
    avoids_joinLines_iff hbreak placeholder_ne_nil] at hlines
  exact hlines

/-- **Exactly when the lines of a table are right.** -/
theorem linesRight_iff (cutInPadding : Bool) (t : Table) (style : TblStyle)
    (hd : ∀ t', prepare t = .done t' → Drawable t') :
    LinesRight cutInPadding t style ↔
      ∃ t', prepare t = .done t' ∧ (t'.nCol = 0 ∨ Regular cutInPadding t') := by
  refine exists_congr fun t' => and_congr_right fun hprepare => ?_
  have hd := hd t' hprepare
  have htotal := hd.total
  rcases Nat.eq_zero_or_pos t'.nCol with hcol | hcol
  · have hzero : t'.totwidth = 0 := by
      rw [hd.totwidth_eq, hcol]
      rfl
    refine iff_of_true (Or.inl ⟨hzero, fun buff => ?_⟩) (Or.inl hcol)
    rw [utableStrstroke, hprepare, Checked.done_bind, if_pos hzero]
    rfl
  · have hpos : t'.totwidth ≠ 0 := by
      have hlt := t'.colStart_strictMono hcol
      rw [hd.totwidth_eq]
      omega
    have hint : t'.totwidth < 2 ^ 31 := by
      rw [hd.totwidth_eq]
      omega
    rw [or_iff_right (Nat.ne_of_gt hcol), or_iff_right fun hzero => hpos hzero.1]
    constructor
    · rintro ⟨actions, lines, ⟨t'', hprepare'', -, -, hemits⟩, htext, hlines, -⟩
      cases hprepare.symm.trans hprepare''
      obtain ⟨htop, hdrawn⟩ := drawn_of_strokeTable hd hemits
      obtain ⟨lines', ⟨actions', hemits', htext'⟩, -, hclear⟩ :=
        strokeTable_writes hd hcol htop hdrawn style
      obtain ⟨rfl, -⟩ := hemits.unique hemits'
      exact ⟨htop, hdrawn, hclear (avoids_of_putText (htext.symm.trans htext')
        fun line hline => (hlines line hline).2.2)⟩
    · rintro ⟨htop, hdrawn, hclear⟩
      obtain ⟨lines, ⟨actions, hemits, htext⟩, hfull, -⟩ :=
        strokeTable_writes hd hcol htop hdrawn style
      have hrenders : Renders cutInPadding t style actions := ⟨t', hprepare, hpos, hint, hemits⟩
      refine ⟨actions, lines, hrenders, htext, fun line hline => (hfull hclear line hline).right hd,
        fun buff hlarge hbuff => ?_⟩
      rw [← htext]
      exact utableStrstroke_of_large hrenders hlarge hbuff

/-- A table that has the same text everywhere. -/
lemma drawable_plain {t : Table} (txt : List CodePoint) (htotal : t.colStart t.nCol < 256)
    (htext : ∀ row c, cellText t row c = utf8Bytes txt) (hline : lf ∉ utf8Bytes txt)
    (hpad : ∀ row c, t.getCp row c = .done (0, 0)) : Drawable t where
  total := htotal
  padding := fun row _ c _ => ⟨0, 0, hpad row c, Nat.zero_le _⟩
  utf8 := fun row _ c _ => ⟨txt, htext row c⟩
  oneLine := fun row _ c _ => by
    rw [htext row c]
    exact hline

/-- What is left of the text of such a table. -/
lemma isCut_plain {cutInPadding : Bool} {t : Table} {row c : ℕ} {s : CStr} (txt : List CodePoint)
    (htext : cellText t row c = utf8Bytes txt) (hpad : t.getCp row c = .done (0, 0))
    (h : IsCut cutInPadding t row c s) :
    s = utf8Bytes (cutChars cutInPadding 0 0 txt (t.cellWidth row c)) := by
  obtain ⟨txt', lpad, rpad, htext', hpad', rfl⟩ := h
  cases utf8Bytes_injective (htext.symm.trans htext')
  cases hpad.symm.trans hpad'
  rfl

/-- A letter in the only cell. -/
theorem linesRight_iff_letter : LinesRight false (oneCell (str "x")) .asciiV1 := by
  have hdrawable : ∀ t', prepare (oneCell (str "x")) = .done t' → Drawable t' := fun t' hprepare => by
    cases hprepare
    exact drawable_plain [⟨[ch 'x'], by decide⟩] (by decide +kernel) (fun _ _ => rfl) (by decide)
      fun _ _ => rfl
  obtain ⟨t', hprepare, hrow, hcells, hspanned, hheader, hcut⟩ : ∃ t',
      prepare (oneCell (str "x")) = .done t' ∧ t'.nRow = 1 ∧ t'.cells 0 = [0] ∧ Spanned t' 0 ∧
        t'.headerLine = false ∧ ∀ s, IsCut false t' 0 0 s → s = str "x" := by
    refine ⟨_, rfl, rfl, by decide +kernel, ?_, rfl, fun s hs => ?_⟩
    · exact .cons (by decide +kernel) (by decide +kernel) .nil
    · exact isCut_plain [⟨[ch 'x'], by decide⟩] rfl rfl hs
  refine (linesRight_iff false (oneCell (str "x")) .asciiV1 hdrawable).mpr
    ⟨t', hprepare, .inr ⟨fun _ => hspanned, fun row hlt => ?_, fun row hlt => ?_⟩⟩
  · obtain rfl : row = 0 := by omega
    refine ⟨hspanned, fun c hc => ?_⟩
    rw [hcells, List.mem_singleton] at hc
    subst hc
    intro s hs
    rw [hcut s hs]
    decide
  · obtain rfl : row = 0 := by omega
    refine ⟨fun c hc => ?_, fun h => by rw [hheader] at h; contradiction⟩
    rw [hcells, List.mem_singleton] at hc
    subst hc
    intro s hs
    rw [hcut s hs]
    exact show ¬ placeholder <:+: str "x" by decide

/-- A row of two cells, with the line below the header that a new table has. -/
def twoCells : Table :=
  { oneCell (str "x") with nCol := 2, nCol_lt := by decide, headerLine := true }

/-- **The header row is the last one**, and the line below it gets a placeholder. -/
theorem header_placeholder :
    ∃ t', prepare twoCells = .done t' ∧ Drawable t' ∧ ¬ LinesRight false twoCells .asciiV1 := by
  obtain ⟨t', hprepare, hd, hzero, hwritten⟩ : ∃ t', prepare twoCells = .done t' ∧ Drawable t' ∧
      t'.totwidth ≠ 0 ∧ placeholder <:+: putText (strokeTable false t' .asciiV1).trace := by
    refine ⟨_, rfl, ?_, by decide +kernel, by decide +kernel⟩
    exact drawable_plain [⟨[ch 'x'], by decide⟩] (by decide +kernel) (fun _ _ => rfl) (by decide)
      fun _ _ => rfl
  refine ⟨t', hprepare, hd, ?_⟩
  rintro ⟨t'', hprepare', ⟨hzero', -⟩ | ⟨actions, lines, hrenders, htext, hlines, -⟩⟩
  · cases hprepare.symm.trans hprepare'
    exact hzero hzero'
  · obtain ⟨t'', hprepare'', -, -, hemits⟩ := hrenders
    cases hprepare.symm.trans hprepare''
    have htrace : putText (strokeTable false t' .asciiV1).trace = joinLines lf lines :=
      (congrArg (fun run => putText run.trace) hemits).trans htext
    have hbreak : lf ∉ placeholder := by decide
    have havoids : Avoids placeholder (joinLines lf lines) :=
      (avoids_joinLines_iff hbreak placeholder_ne_nil).mpr fun line hline => (hlines line hline).2.2
    exact havoids (htrace ▸ hwritten)

end G7.Utable
