import G7Ctrl.Table.Lines

/-!
# Border lines (`utable_strstroke`)

The line below the header row has no character for a place where only one of the rows around it has
a border, and none for the row behind the last one.  So it has a placeholder if the cells of the two
rows do not end in the same places.

* `FullLine` — a line with one code point for each column and border.
* `belowMarks` — the marks below a row, **`marksBelow_eq`** — that these are set.
* **`strokeTop_writes`**, **`strokeBottom_writes`** — the lines at the top and at the bottom.
* `HeaderFits` — the cells above and below the line of the header end in the same places.
* **`strokeBelow_writes`** — what is below a row is one full line or nothing, if they do.
-/

namespace G7.Utable

/-- A line as wide as the table, without a placeholder. -/
def FullLine (t : Table) (line : CStr) : Prop :=
  Strip (t.colStart t.nCol + 1) line ∧ Avoids placeholder line

/-- The row above the line of the header. -/
def headerRow (t : Table) : ℕ := if t.title.isSome then 1 else 0

/-- The marks below a row: 2 where a cell of the row ends, 1 where one of the next row does. -/
def belowMarks (t : Table) (r i : ℕ) : ℕ :=
  (if i + 1 ∈ t.ends r then 2 else 0) + (if r + 1 < t.nRow ∧ i + 1 ∈ t.ends (r + 1) then 1 else 0)

/-- If the line of the header is below this row, the cells of the row end where those of the next row
do. -/
def HeaderFits (t : Table) (r : ℕ) : Prop :=
  t.headerLine = true → r = headerRow t → ∀ p, 0 < p → p < t.colStart t.nCol →
    (p ∈ t.ends r ↔ r + 1 < t.nRow ∧ p ∈ t.ends (r + 1))

/-! ## Marks -/

lemma replicate_eq_marksOf (n : ℕ) : List.replicate n 0 = marksOf n fun _ => 0 := by
  rw [marksOf, List.map_const', List.length_range]

lemma belowMarks_last {t : Table} {r : ℕ} (h : ¬ r + 1 < t.nRow) (i : ℕ) : belowMarks t r i < 3 := by
  simp only [belowMarks, h, false_and, if_false]
  split_ifs
  · decide
  · decide

/-- **The marks below a row.** -/
lemma marksBelow_eq {t : Table} (htotal : t.colStart t.nCol < 256) {r : ℕ}
    (h : Strides (t.span r) t.nCol 0 (t.cells r))
    (h' : r + 1 < t.nRow → Strides (t.span (r + 1)) t.nCol 0 (t.cells (r + 1))) :
    marksBelow t (t.colStart t.nCol) r = .done (marksOf (t.colStart t.nCol) (belowMarks t r)) := by
  rw [marksBelow, replicate_eq_marksOf, markVerticals_eq htotal 2 h, Checked.done_bind]
  by_cases hnext : r + 1 < t.nRow
  · rw [if_pos (by omega), markVerticals_eq htotal 1 (h' hnext)]
    refine congrArg (fun e => Checked.done (marksOf _ e)) (funext fun i => ?_)
    simp only [belowMarks, hnext, true_and]
    split_ifs
    · rfl
    · rfl
    · rfl
    · rfl
  · rw [if_neg (by omega)]
    refine congrArg (fun e => Checked.done (marksOf _ e)) (funext fun i => ?_)
    simp only [belowMarks, hnext, false_and, if_false]
    rfl

/-! ## Lines of marks -/

/-- The string for a mark is a border character if there is one. -/
lemma isMark_strokeOf {s0 s1 s2 s3 : Option CStr} (h : StrokesOk s0 s1 s2 s3) {x : ℕ}
    (h0 : s0.isSome) (h1 : x = 1 → s1.isSome) (h2 : x = 2 → s2.isSome) (h3 : 2 < x → s3.isSome) :
    isMark (strokeOf s0 s1 s2 s3 x) = true := by
  have hstring {s : Option CStr} (hs : s ∈ [s0, s1, s2, s3]) (hsome : s.isSome) :
      isMark (s.getD (str "#ERR#")) = true := by
    obtain ⟨m, rfl⟩ := Option.isSome_iff_exists.mp hsome
    exact h _ hs m rfl
  rw [strokeOf]
  split_ifs with hx0 hx1 hx2
  · exact hstring (by simp) h0
  · exact hstring (by simp) (h1 hx1)
  · exact hstring (by simp) (h2 hx2)
  · exact hstring (by simp) (h3 (by omega))

section Lines

variable {t : Table} (hd : Drawable t) (hcol : 0 < t.nCol) {b : Borders}
  (hb : ∀ s ∈ b.all, isMark s = true)

include hb in
lemma strokesOk {s0 s1 s2 s3 : Option CStr} (h0 : ∀ m ∈ s0, m ∈ b.all) (h1 : ∀ m ∈ s1, m ∈ b.all)
    (h2 : ∀ m ∈ s2, m ∈ b.all) (h3 : ∀ m ∈ s3, m ∈ b.all) : StrokesOk s0 s1 s2 s3 := by
  simp only [StrokesOk, List.forall_mem_cons]
  exact ⟨fun m hm => hb m (h0 m hm), fun m hm => hb m (h1 m hm), fun m hm => hb m (h2 m hm),
    fun m hm => hb m (h3 m hm), fun s hs => absurd hs List.not_mem_nil⟩

include hcol in
lemma colStart_pos : 0 < t.colStart t.nCol := by
  have hlt := t.colStart_strictMono hcol
  omega

include hcol in
/-- A line of border characters. -/
lemma fullLine_lineText {left right : CStr} (hleft : isMark left = true) (hright : isMark right = true)
    {stroke : ℕ → CStr} {e : ℕ → ℕ} (h : ∀ i, i + 1 < t.colStart t.nCol → isMark (stroke (e i)) = true) :
    FullLine t (lineText left right stroke e (t.colStart t.nCol)) :=
  strip_lineText hleft hright (colStart_pos hcol) h

include hcol hb

include hd in
/-- **The line at the top.** -/
lemma strokeTop_writes (h : t.title = none → Strides (t.span 0) t.nCol 0 (t.cells 0)) :
    ∃ line e, Writes (strokeTop t b (t.colStart t.nCol)) (line ++ [lf]) (marksOf (t.colStart t.nCol) e) ∧
      FullLine t line ∧ ∀ i, e i < 3 := by
  have hok : StrokesOk (some b.topHorizontal) (if t.title.isSome then none else some b.topDown)
      none none := by
    refine strokesOk hb (by simp [Borders.all]) ?_ (by simp) (by simp)
    split_ifs
    · simp
    · simp [Borders.all]
  obtain ⟨e, hmarks, hone, hsome⟩ : ∃ e, (if t.title.isSome then
        .done (List.replicate (t.colStart t.nCol) 0)
      else markVerticals t (List.replicate (t.colStart t.nCol) 0) 1 0) =
        .done (marksOf (t.colStart t.nCol) e) ∧ (∀ i, e i < 2) ∧
        ∀ i, e i = 1 → (if t.title.isSome then none else some b.topDown).isSome := by
    cases htitle : t.title with
    | some title =>
        refine ⟨fun _ => 0, ?_, fun i => Nat.zero_lt_two, fun i hi => absurd hi Nat.zero_ne_one⟩
        rw [Option.isSome_some, if_pos rfl, replicate_eq_marksOf]
    | none =>
        refine ⟨fun i => if i + 1 ∈ t.ends 0 then 0 ||| 1 else 0, ?_, fun i => ?_, fun i hi => rfl⟩
        · rw [Option.isSome_none, if_neg Bool.false_ne_true, replicate_eq_marksOf]
          exact markVerticals_eq hd.total 1 (h htitle) _
        · dsimp only
          split_ifs
          · decide
          · decide
  have hleft : isMark b.topLeft = true := hb _ (by simp [Borders.all])
  have hright : isMark b.topRight = true := hb _ (by simp [Borders.all])
  refine ⟨lineText b.topLeft b.topRight (strokeOf (some b.topHorizontal)
    (if t.title.isSome then none else some b.topDown) none none) e (t.colStart t.nCol), e, ?_, ?_,
    fun i => (hone i).trans (by decide)⟩
  · have hend := (writes_end hright (show 0 < 10000 by decide)).bind (f := fun _ => _)
      (writes_checkReturn.bind (f := fun _ => _) (writes_pure (marksOf (t.colStart t.nCol) e)))
    rw [List.append_nil, List.append_nil] at hend
    rw [lineText, List.append_assoc, List.append_assoc]
    exact (writes_mark hleft).bind (writes_checkReturn.bind_nil ((writes_lift hmarks).bind_nil
      ((strokeVerticals_writes hok _ e).bind (writes_checkReturn.bind_nil hend))))
  · refine fullLine_lineText hcol hleft hright fun i _ => isMark_strokeOf hok rfl (hsome i) ?_ ?_
    · intro hi
      have := hone i
      omega
    · intro hi
      have := hone i
      omega

/-- **The line at the bottom**, whose marks come from one row. -/
lemma strokeBottom_writes {e : ℕ → ℕ} (he : ∀ i, e i < 3) :
    ∃ line, Writes (strokeBottom b (t.colStart t.nCol) (marksOf (t.colStart t.nCol) e)) (line ++ [lf]) () ∧
      FullLine t line := by
  have hok : StrokesOk (some b.bottomHorizontal) (some b.bottomUp) (some b.bottomUp) none :=
    strokesOk hb (by simp [Borders.all]) (by simp [Borders.all]) (by simp [Borders.all]) (by simp)
  have hleft : isMark b.bottomLeft = true := hb _ (by simp [Borders.all])
  have hright : isMark b.bottomRight = true := hb _ (by simp [Borders.all])
  refine ⟨lineText b.bottomLeft b.bottomRight (strokeOf (some b.bottomHorizontal) (some b.bottomUp)
    (some b.bottomUp) none) e (t.colStart t.nCol), ?_, ?_⟩
  · have hend := (writes_end hright (show 1 < 10000 by decide)).bind (f := fun _ => _) writes_checkReturn
    rw [List.append_nil] at hend
    rw [lineText, List.append_assoc, List.append_assoc]
    exact (writes_mark hleft).bind (writes_checkReturn.bind_nil
      ((strokeVerticals_writes hok _ e).bind hend))
  · refine fullLine_lineText hcol hleft hright fun i _ =>
      isMark_strokeOf hok rfl (fun _ => rfl) (fun _ => rfl) fun hi => ?_
    have := he i
    omega

/-- A line inside the table. -/
lemma strokeMiddle_writes (e : ℕ → ℕ) :
    ∃ line, Writes (strokeLine (t.colStart t.nCol) (marksOf (t.colStart t.nCol) e) b.middleLeft
      b.middleRight (some b.middleHorizontal) (some b.middleHorizontalDown)
      (some b.middleHorizontalUp) (some b.middleCross) 0) (line ++ [lf]) () ∧ FullLine t line := by
  have hok : StrokesOk (some b.middleHorizontal) (some b.middleHorizontalDown)
      (some b.middleHorizontalUp) (some b.middleCross) :=
    strokesOk hb (by simp [Borders.all]) (by simp [Borders.all]) (by simp [Borders.all])
      (by simp [Borders.all])
  have hleft : isMark b.middleLeft = true := hb _ (by simp [Borders.all])
  have hright : isMark b.middleRight = true := hb _ (by simp [Borders.all])
  refine ⟨_, strokeLine_writes hok hleft hright _ e (show 0 < 10000 by decide), ?_⟩
  exact fullLine_lineText hcol hleft hright fun i _ =>
    isMark_strokeOf hok rfl (fun _ => rfl) (fun _ => rfl) fun _ => rfl

/-- **The line of the header** has a placeholder where only one of the rows has a border. -/
lemma strokeHeader_writes (e : ℕ → ℕ) :
    ∃ line, Writes (strokeLine (t.colStart t.nCol) (marksOf (t.colStart t.nCol) e) b.topMiddleLeft
      b.topMiddleRight (some b.topMiddleHorizontal) none none (some b.topMiddleCross)
      (b.topMiddleRight ++ [lf]).length) (line ++ [lf]) () ∧
      ((∀ i, i + 1 < t.colStart t.nCol → e i ≠ 1 ∧ e i ≠ 2) → FullLine t line) ∧
      (Avoids placeholder line → ∀ i, i + 1 < t.colStart t.nCol → e i ≠ 1 ∧ e i ≠ 2) := by
  have hok : StrokesOk (some b.topMiddleHorizontal) none none (some b.topMiddleCross) :=
    strokesOk hb (by simp [Borders.all]) (by simp) (by simp) (by simp [Borders.all])
  have hleft : isMark b.topMiddleLeft = true := hb _ (by simp [Borders.all])
  have hright : isMark b.topMiddleRight = true := hb _ (by simp [Borders.all])
  have hlen := length_of_isMark hright
  refine ⟨_, strokeLine_writes hok hleft hright _ e ?_, fun hmarks => ?_, fun havoids i hi => ?_⟩
  · rw [List.length_append, List.length_singleton]
    omega
  · exact fullLine_lineText hcol hleft hright fun i hi =>
      isMark_strokeOf hok rfl (fun h1 => absurd h1 (hmarks i hi).1) (fun h2 => absurd h2 (hmarks i hi).2)
        fun _ => rfl
  · constructor
    · intro h1
      exact not_avoids_lineText _ _ hi (by rw [h1]; rfl) havoids
    · intro h2
      exact not_avoids_lineText _ _ hi (by rw [h2]; rfl) havoids

omit hcol hb in
lemma headerMarks_iff (r : ℕ) :
    (∀ i, i + 1 < t.colStart t.nCol → belowMarks t r i ≠ 1 ∧ belowMarks t r i ≠ 2) ↔
      ∀ p, 0 < p → p < t.colStart t.nCol → (p ∈ t.ends r ↔ r + 1 < t.nRow ∧ p ∈ t.ends (r + 1)) := by
  have hplace (i : ℕ) : (belowMarks t r i ≠ 1 ∧ belowMarks t r i ≠ 2) ↔
      (i + 1 ∈ t.ends r ↔ r + 1 < t.nRow ∧ i + 1 ∈ t.ends (r + 1)) := by
    rw [belowMarks]
    split_ifs with h h' h'
    · exact iff_of_true (by decide) (iff_of_true h h')
    · exact iff_of_false (by decide) fun hiff => h' (hiff.mp h)
    · exact iff_of_false (by decide) fun hiff => h (hiff.mpr h')
    · exact iff_of_true (by decide) (iff_of_false h h')
  constructor
  · intro h p hpos hlt
    obtain ⟨i, rfl⟩ := Nat.exists_eq_add_of_lt hpos
    rw [Nat.zero_add] at hlt ⊢
    exact (hplace i).mp (h i hlt)
  · intro h i hi
    exact (hplace i).mpr (h (i + 1) (Nat.succ_pos i) hi)

/-- **What is below a row.** -/
lemma strokeBelow_writes (r : ℕ) :
    ∃ lines, Writes (strokeBelow t b (t.colStart t.nCol) r
        (marksOf (t.colStart t.nCol) (belowMarks t r))) (joinLines lf lines) () ∧
      (HeaderFits t r → ∀ line ∈ lines, FullLine t line) ∧
      ((∀ line ∈ lines, Avoids placeholder line) → HeaderFits t r) := by
  have hheader : t.headerLine = true ∧ (r = 0 ∧ t.title = none ∨ r = 1 ∧ t.title ≠ none) ↔
      t.headerLine = true ∧ r = headerRow t := by
    rw [headerRow]
    cases t.title <;> simp
  obtain ⟨middle, hmiddle, hfull⟩ := strokeMiddle_writes hcol hb (belowMarks t r)
  have hmiddle_lines : ∃ lines, Writes (strokeLine (t.colStart t.nCol) (marksOf (t.colStart t.nCol)
      (belowMarks t r)) b.middleLeft b.middleRight (some b.middleHorizontal)
      (some b.middleHorizontalDown) (some b.middleHorizontalUp) (some b.middleCross) 0)
      (joinLines lf lines) () ∧ ∀ line ∈ lines, FullLine t line :=
    ⟨[middle], by rwa [joinLines_singleton], List.forall_mem_singleton.mpr hfull⟩
  have hnothing : ∃ lines, Writes (pure () : Traced Action Unit) (joinLines lf lines) () ∧
      ∀ line ∈ lines, FullLine t line :=
    ⟨[], writes_pure (), fun line hline => absurd hline List.not_mem_nil⟩
  rw [strokeBelow]
  by_cases hhere : t.headerLine = true ∧ r = headerRow t
  · obtain ⟨line, hwrites, hline, havoids⟩ := strokeHeader_writes hcol hb (belowMarks t r)
    rw [if_pos (hheader.mpr hhere)]
    rw [← joinLines_singleton line] at hwrites
    refine ⟨[line], hwrites, fun hfits => ?_, fun hall => ?_⟩
    · exact List.forall_mem_singleton.mpr
        (hline ((headerMarks_iff r).mpr (hfits hhere.1 hhere.2)))
    · exact fun _ _ => (headerMarks_iff r).mp (havoids (List.forall_mem_singleton.mp hall))
  · have hfits : HeaderFits t r := fun hline hrow => absurd ⟨hline, hrow⟩ hhere
    rw [if_neg (mt hheader.mp hhere)]
    have hother : ∃ lines, Writes (if r = 0 ∧ t.title ≠ none then
          if t.titleStyle = .line then strokeLine (t.colStart t.nCol) (marksOf (t.colStart t.nCol)
            (belowMarks t r)) b.middleLeft b.middleRight (some b.middleHorizontal)
            (some b.middleHorizontalDown) (some b.middleHorizontalUp) (some b.middleCross) 0
          else pure ()
        else if t.interiorH then
          if r < t.nRow - 1 then strokeLine (t.colStart t.nCol) (marksOf (t.colStart t.nCol)
            (belowMarks t r)) b.middleLeft b.middleRight (some b.middleHorizontal)
            (some b.middleHorizontalDown) (some b.middleHorizontalUp) (some b.middleCross) 0
          else pure ()
        else pure ()) (joinLines lf lines) () ∧ ∀ line ∈ lines, FullLine t line := by
      split_ifs
      · exact hmiddle_lines
      · exact hnothing
      · exact hmiddle_lines
      · exact hnothing
      · exact hnothing
    obtain ⟨lines, hwrites, hlines⟩ := hother
    exact ⟨lines, hwrites, fun _ => hlines, fun _ => hfits⟩

end Lines

end G7.Utable
