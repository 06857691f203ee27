import G7Ctrl.Table.Cells

/-!
# Lines (`_utable_draw_cellcontent_row`, `_utable_mark_verticals`, `_utable_stroke_verticals`)

What the loops over the cells of a row write, for a row whose spans end exactly at its end, and that
they do not end for any other row.

* `Writes` — a run writes a text.
* `Strip.append` — a line in pieces.
* **`drawRow_writes`**, **`fits_of_drawRow`** — a row of cells.
* **`markVerticals_eq`**, **`strides_of_markVerticals`** — the marks of a row.
* **`strokeLine_writes`** — a line of marks.
-/

namespace G7.Utable

/-! ## What is written -/

/-- The run writes this text and is done. -/
def Writes {α : Type} (x : Traced Action α) (s : CStr) (a : α) : Prop :=
  ∃ as, x.Emits as a ∧ putText as = s

section Writes

variable {α β : Type} {x : Traced Action α} {f : α → Traced Action β} {s s' : CStr} {a : α} {b : β}

lemma putText_append (as bs : List Action) : putText (as ++ bs) = putText as ++ putText bs := by
  induction as with
  | nil => rfl
  | cons a as ih =>
      cases a with
      | put p =>
          rw [List.cons_append, putText, putText, ih, List.append_assoc]
      | checkReturn => exact ih
      | checkExit => exact ih

lemma writes_pure (a : α) : Writes (pure a : Traced Action α) [] a := ⟨[], rfl, rfl⟩

/-- **One run after the other.** -/
lemma Writes.bind (hx : Writes x s a) (hf : Writes (f a) s' b) : Writes (x >>= f) (s ++ s') b := by
  obtain ⟨as, has, rfl⟩ := hx
  obtain ⟨bs, hbs, rfl⟩ := hf
  exact ⟨as ++ bs, has.bind hbs, putText_append as bs⟩

/-- A first part that writes nothing. -/
lemma Writes.bind_nil (hx : Writes x [] a) (hf : Writes (f a) s b) : Writes (x >>= f) s b := hx.bind hf

lemma writes_lift {y : Checked α} (h : y = .done a) : Writes (Traced.lift y) [] a :=
  ⟨[], Traced.emits_lift h, rfl⟩

lemma writes_checkReturn : Writes checkReturn [] () := ⟨[.checkReturn], rfl, rfl⟩

lemma writes_checkExit : Writes checkExit [] () := ⟨[.checkExit], rfl, rfl⟩

/-- A piece is written as it is if it fits into `pbuff`. -/
lemma writes_put (hs : (0 : Byte) ∉ s) (hlen : s.length < 10000) {extra : ℕ} (hextra : extra < 10000) :
    Writes (put s extra) s () := by
  have hprinted : cstr (s.take (maxPbuff - 1)) = s := by
    rw [List.take_of_length_le (by rw [maxPbuff]; omega), cstr_eq_self hs]
  refine ⟨_, dif_pos (by omega), ?_⟩
  rw [putText, putText, List.append_nil]
  exact hprinted

end Writes

/-! ## Pieces of a line -/

/-- **Two strips**, one behind the other. -/
theorem Strip.append {w w' : ℕ} {s s' : CStr} (h : Strip w s) (h' : Strip w' s') :
    Strip (w + w') (s ++ s') where
  chars := by
    obtain ⟨t, rfl, rfl⟩ := h.chars
    obtain ⟨t', rfl, rfl⟩ := h'.chars
    exact ⟨t ++ t', utf8Bytes_append t t', List.length_append⟩
  lf_free := fun hmem => (List.mem_append.mp hmem).elim h.lf_free h'.lf_free
  nul_free := fun hmem => (List.mem_append.mp hmem).elim h.nul_free h'.nul_free

/-- A border character. -/
lemma isMark_foreign {m : CStr} (hm : isMark m = true) :
    ∀ c ∈ m, c ≠ lf ∧ c ≠ 0 ∧ c ∉ placeholder := by
  intro c hc
  rw [isMark, Bool.and_eq_true] at hm
  have hbyte := List.all_eq_true.mp hm.2 c hc
  simpa [placeholder, and_assoc] using hbyte

lemma ne_nil_of_isMark {m : CStr} (hm : isMark m = true) : m ≠ [] := by
  rintro rfl
  exact nomatch hm

/-- A border character separates what has a placeholder. -/
lemma avoids_mark_append {m : CStr} (hm : isMark m = true) (a b : CStr) :
    Avoids placeholder (a ++ (m ++ b)) ↔ Avoids placeholder a ∧ Avoids placeholder b := by
  obtain ⟨c, m, rfl⟩ := List.exists_cons_of_ne_nil (ne_nil_of_isMark hm)
  have hforeign (d : Byte) (hd : d ∈ c :: m) : d ∉ placeholder := (isMark_foreign hm d hd).2.2
  rw [List.forall_mem_cons] at hforeign
  rw [List.cons_append, Avoids.append_cons_iff hforeign.1 placeholder_ne_nil,
    Avoids.foreign_append_iff hforeign.2 placeholder_ne_nil]

/-- **A border character is a strip.** -/
lemma strip_of_isMark {m : CStr} (hm : isMark m = true) : Strip 1 m where
  chars := by
    rw [isMark, Bool.and_eq_true] at hm
    exact ⟨[⟨m, hm.1⟩], utf8Bytes_cons_nil _, rfl⟩
  lf_free := fun hmem => (isMark_foreign hm lf hmem).1 rfl
  nul_free := fun hmem => (isMark_foreign hm 0 hmem).2.1 rfl

lemma length_of_isMark {m : CStr} (hm : isMark m = true) : m.length ≤ 4 := by
  rw [isMark, Bool.and_eq_true] at hm
  exact (CodePoint.mk m hm.1).length_le

lemma Strip.length_le {w : ℕ} {s : CStr} (h : Strip w s) : s.length ≤ 4 * w := by
  obtain ⟨t, rfl, rfl⟩ := h.chars
  exact length_utf8Bytes_le t

/-- Border characters. -/
lemma strip_flatMap {ι : Type} {stroke : ι → CStr} {l : List ι}
    (h : ∀ i ∈ l, isMark (stroke i) = true) : Strip l.length (l.flatMap stroke) := by
  induction l with
  | nil => exact ⟨⟨[], rfl, rfl⟩, List.not_mem_nil, List.not_mem_nil⟩
  | cons i l ih =>
      rw [List.forall_mem_cons] at h
      rw [List.flatMap_cons, List.length_cons, Nat.add_comm]
      exact (strip_of_isMark h.1).append (ih h.2)

lemma avoids_flatMap {ι : Type} {stroke : ι → CStr} {l : List ι}
    (h : ∀ i ∈ l, isMark (stroke i) = true) : Avoids placeholder (l.flatMap stroke) := by
  induction l with
  | nil => exact .nil placeholder_ne_nil
  | cons i l ih =>
      rw [List.forall_mem_cons] at h
      rw [List.flatMap_cons]
      exact (avoids_mark_append h.1 [] _).mpr ⟨.nil placeholder_ne_nil, ih h.2⟩

/-! ## Rows -/

/-- The next column of a span inside the table. -/
lemma nextCol_of_le {t : Table} {row c : ℕ} (h : c + t.span row c ≤ t.nCol) :
    t.nextCol row c = c + t.span row c :=
  Nat.mod_eq_of_lt (by
    have hcol := t.nCol_lt
    have hspan : (t.c row c).cspan.toNat = t.span row c := rfl
    omega)

section Rows

variable {t : Table} (hd : Drawable t) {cutInPadding : Bool} {row : ℕ} (hrow : row < t.nRow)
  {midleft midright midvert : CStr}
include hd hrow

/-- **A row of cells** that all fit is a line as wide as the table. -/
theorem drawRow_writes (hleft : isMark midleft = true) (hright : isMark midright = true)
    (hvert : isMark midvert = true) {c : ℕ} {cs : List ℕ} (h : Strides (t.span row) t.nCol c cs)
    (hcells : ∀ d ∈ cs, d ∈ t.cells row) (hfits : ∀ d ∈ cs, CellFits cutInPadding t row d)
    {fuel : ℕ} (hfuel : cs.length < fuel) :
    ∃ line, Writes (drawRow cutInPadding t row midleft midright midvert fuel c) (line ++ [lf]) () ∧
      Strip (t.colStart t.nCol - t.colStart c + 1) line ∧
      ∀ front, Avoids placeholder (front ++ line) ↔
        Avoids placeholder front ∧ ∀ d ∈ cs, CellClear cutInPadding t row d := by
  have htotal := hd.total
  induction h generalizing fuel with
  | nil =>
      obtain ⟨fuel, rfl⟩ := Nat.exists_eq_succ_of_ne_zero (Nat.ne_zero_of_lt hfuel)
      have hlen := length_of_isMark hright
      refine ⟨midright, ?_, ?_, fun front => ?_⟩
      · rw [drawRow, if_neg (Nat.lt_irrefl _)]
        refine writes_put ?_ (by rw [List.length_append, List.length_singleton]; omega) (by decide)
        simp only [List.mem_append, not_or]
        exact ⟨(strip_of_isMark hright).nul_free, by decide⟩
      · rw [Nat.sub_self]
        exact strip_of_isMark hright
      · have hmark := avoids_mark_append hright front []
        rw [List.append_nil, and_iff_left (Avoids.nil placeholder_ne_nil)] at hmark
        rw [hmark]
        simp
  | cons hpos hle hrest ih =>
      rename_i c cs
      rw [List.forall_mem_cons] at hfits hcells
      rw [List.length_cons] at hfuel
      obtain ⟨fuel, rfl⟩ := Nat.exists_eq_succ_of_ne_zero (Nat.ne_zero_of_lt hfuel)
      obtain ⟨text, hdraw, hstrip, hclear⟩ :=
        (drawCell_eq hd cutInPadding hrow hcells.1 hpos hle).1 hfits.1
      obtain ⟨line, hwrites, hline, havoids⟩ := ih hcells.2 hfits.2 (Nat.lt_of_succ_lt_succ hfuel)
      have hmark : isMark (if c = 0 then midleft else midvert) = true := by
        split_ifs
        · exact hleft
        · exact hvert
      have hend := t.colStart_mono hle
      have hstart := t.colStart_strictMono (show c < c + t.span row c by omega)
      have hcell : t.cellWidth row c = t.colStart (c + t.span row c) - t.colStart c - 1 := rfl
      have hpiece := (strip_of_isMark hmark).append hstrip
      have hlen := hpiece.length_le
      refine ⟨(if c = 0 then midleft else midvert) ++ text ++ line, ?_, ?_, fun front => ?_⟩
      · rw [drawRow, if_pos (by omega), nextCol_of_le hle, List.append_assoc _ line]
        exact (writes_lift hdraw).bind_nil ((writes_put hpiece.nul_free (by omega) (by decide)).bind hwrites)
      · have hwidth : 1 + t.cellWidth row c + (t.colStart t.nCol - t.colStart (c + t.span row c) + 1) =
            t.colStart t.nCol - t.colStart c + 1 := by omega
        rw [← hwidth]
        exact hpiece.append hline
      · rw [List.append_assoc, avoids_mark_append hmark, havoids, hclear, List.forall_mem_cons]

/-- **A row that is written** has only cells that fit. -/
theorem fits_of_drawRow {c : ℕ} {cs : List ℕ} (h : Strides (t.span row) t.nCol c cs)
    (hcells : ∀ d ∈ cs, d ∈ t.cells row) {fuel : ℕ} {as : List Action}
    (hemits : (drawRow cutInPadding t row midleft midright midvert fuel c).Emits as ()) :
    ∀ d ∈ cs, CellFits cutInPadding t row d := by
  induction h generalizing fuel as with
  | nil => exact fun d hd => absurd hd List.not_mem_nil
  | cons hpos hle hrest ih =>
      rename_i c cs
      cases fuel with
      | zero => exact nomatch congrArg Traced.result hemits
      | succ fuel =>
          rw [List.forall_mem_cons] at hcells
          rw [drawRow, if_pos (by omega), nextCol_of_le hle] at hemits
          obtain ⟨as₁, text, bs, hcell, hemits, -⟩ := Traced.emits_bind_iff.mp hemits
          obtain ⟨as₂, -, bs', -, hemits, -⟩ := Traced.emits_bind_iff.mp hemits
          refine List.forall_mem_cons.mpr ⟨?_, ih hcells.2 hemits⟩
          by_contra hfits
          have hfault := (drawCell_eq hd cutInPadding hrow hcells.1 hpos hle).2 hfits
          rw [(Traced.emits_lift_iff.mp hcell).2] at hfault
          exact nomatch hfault

end Rows

/-! ## Marks -/

/-- The places behind the borders at which cells of a row end. -/
def Table.ends (t : Table) (row : ℕ) : List ℕ :=
  (t.cells row).map fun c => t.colStart (c + t.span row c)

lemma cells_eq {t : Table} {row : ℕ} {cs : List ℕ} (h : Strides (t.span row) t.nCol 0 cs) :
    t.cells row = cs := by
  have hlen := h.length_le
  exact h.strideList_eq (by omega)

/-- The numbers of a line of marks. -/
def marksOf (n : ℕ) (e : ℕ → ℕ) : List ℕ := (List.range n).map e

lemma load_marksOf {n i : ℕ} (e : ℕ → ℕ) (h : i < n) : load (marksOf n e) i = .done (e i) := by
  rw [load_eq_done_iff, marksOf, List.getElem?_map, List.getElem?_range h]
  rfl

lemma length_marksOf (n : ℕ) (e : ℕ → ℕ) : (marksOf n e).length = n := by
  rw [marksOf, List.length_map, List.length_range]

lemma markAt_marksOf {n p : ℕ} (e : ℕ → ℕ) (mark : ℕ) (hpos : 0 < p) (hle : p ≤ n) :
    markAt (marksOf n e) p mark =
      .done (marksOf n fun i => if i + 1 = p then e i ||| mark else e i) := by
  have hstore : store (marksOf n e) (p - 1) (e (p - 1) ||| mark) =
      .done ((marksOf n e).set (p - 1) (e (p - 1) ||| mark)) :=
    store_eq_done (by rw [length_marksOf]; omega)
  rw [markAt, if_neg (by omega), load_marksOf e (by omega), Checked.done_bind, hstore]
  refine congrArg Checked.done (List.ext_getElem? fun i => ?_)
  rw [List.getElem?_set, marksOf, marksOf, List.getElem?_map, List.getElem?_map, List.length_map,
    List.length_range]
  by_cases hi : i < n
  · rw [List.getElem?_range hi]
    by_cases hp : p - 1 = i
    · rw [if_pos hp, if_pos (by omega), hp]
      exact congrArg some (if_pos (by omega)).symm
    · rw [if_neg hp]
      exact congrArg some (if_neg (by omega)).symm
  · rw [List.getElem?_eq_none (by rw [List.length_range]; omega)]
    by_cases hp : p - 1 = i
    · rw [if_pos hp, if_neg (by omega)]
      rfl
    · rw [if_neg hp]
      rfl

section Marks

variable {t : Table} (htotal : t.colStart t.nCol < 256) {row : ℕ}
include htotal

/-- The place behind a cell. -/
lemma toSize_colStart (c : ℕ) {d : ℕ} (hd : d ≤ t.nCol + 1) :
    Table.toSize ((t.colStart c : ℤ) + ((t.colStart d : ℤ) - t.colStart c)) = t.colStart d := by
  have hle := t.colStart_mono hd
  have hlast := t.colStart_succ t.nCol
  rw [t.width_nCol] at hlast
  rw [Table.toSize]
  omega

lemma spanWidth_of_le {c k : ℕ} (h : c + k ≤ t.nCol + 1) :
    spanWidth t c k 0 0 = .done ((t.colStart (c + k) : ℤ) - t.colStart c) := by
  have hle := t.colStart_mono h
  have hlast := t.colStart_succ t.nCol
  rw [t.width_nCol] at hlast
  exact spanWidth_eq t h (by omega)

/-- **The marks of a row** are behind its cells. -/
theorem markLoop_run (mark : ℕ) {c : ℕ} {cs : List ℕ} (h : Strides (t.span row) t.nCol c cs)
    {fuel : ℕ} (hfuel : cs.length < fuel) (e : ℕ → ℕ) :
    markLoop t mark row fuel c (t.colStart c) (marksOf (t.colStart t.nCol) e) =
      .done (marksOf (t.colStart t.nCol) fun i =>
        if i + 1 ∈ cs.map fun d => t.colStart (d + t.span row d) then e i ||| mark else e i) := by
  induction h generalizing fuel e with
  | nil =>
      obtain ⟨fuel, rfl⟩ := Nat.exists_eq_succ_of_ne_zero (Nat.ne_zero_of_lt hfuel)
      rw [markLoop, if_neg (Nat.lt_irrefl _)]
      simp
  | cons hpos hle hrest ih =>
      rename_i c cs
      rw [List.length_cons] at hfuel
      obtain ⟨fuel, rfl⟩ := Nat.exists_eq_succ_of_ne_zero (Nat.ne_zero_of_lt hfuel)
      have hend := t.colStart_mono hle
      have hstart := t.colStart_strictMono (show c < c + t.span row c by omega)
      have hspan := spanWidth_of_le htotal (show c + (t.c row c).cspan.toNat ≤ t.nCol + 1 from
        Nat.le_succ_of_le hle)
      have hplace := toSize_colStart htotal c
        (show c + (t.c row c).cspan.toNat ≤ t.nCol + 1 from Nat.le_succ_of_le hle)
      have hmark := markAt_marksOf (n := t.colStart t.nCol) e mark
        (show 0 < t.colStart (c + t.span row c) by omega) hend
      rw [markLoop, if_pos (by omega), hspan, Checked.done_bind]
      dsimp only
      rw [hplace, show (t.c row c).cspan.toNat = t.span row c from rfl, hmark, Checked.done_bind,
        nextCol_of_le hle, ih (Nat.lt_of_succ_lt_succ hfuel)]
      refine congrArg (fun e => Checked.done (marksOf (t.colStart t.nCol) e)) (funext fun i => ?_)
      simp only [List.map_cons, List.mem_cons]
      by_cases hi : i + 1 = t.colStart (c + t.span row c)
      · simp only [hi, true_or, if_true, Nat.or_assoc, Nat.or_self, ite_self]
      · simp only [hi, false_or, if_false]

/-- **The marks of a row**, in a line. -/
theorem markVerticals_eq (mark : ℕ) (h : Strides (t.span row) t.nCol 0 (t.cells row)) (e : ℕ → ℕ) :
    markVerticals t (marksOf (t.colStart t.nCol) e) mark row =
      .done (marksOf (t.colStart t.nCol) fun i => if i + 1 ∈ t.ends row then e i ||| mark else e i) := by
  have hlen := h.length_le
  exact markLoop_run htotal mark h (by omega) e

/-- A row that is marked is strided from any of its cells. -/
lemma strides_of_markLoop {mark fuel c : ℕ} {eval eval' : List ℕ} (hc : c ≤ t.nCol)
    (hlen : eval.length = t.colStart t.nCol)
    (h : markLoop t mark row fuel c (t.colStart c) eval = .done eval') :
    ∃ cs, Strides (t.span row) t.nCol c cs := by
  induction fuel generalizing c eval with
  | zero => exact nomatch h
  | succ fuel ih =>
      rcases Nat.lt_or_eq_of_le hc with hlt | rfl
      · rw [markLoop, if_pos hlt] at h
        obtain ⟨w, hspan, h⟩ := Checked.bind_eq_done.mp h
        obtain ⟨marked, hmark, h⟩ := Checked.bind_eq_done.mp h
        have hin : c + t.span row c ≤ t.nCol + 1 := le_of_spanWidth (show c + 0 ≤ t.nCol + 1 by omega) hspan
        have hwidth := (spanWidth_of_le htotal hin).symm.trans hspan
        cases hwidth
        rw [toSize_colStart htotal c hin] at hmark h
        -- the mark is inside the line
        have hplace : 0 < t.colStart (c + t.span row c) ∧
            t.colStart (c + t.span row c) ≤ t.colStart t.nCol ∧ marked.length = eval.length := by
          rw [markAt] at hmark
          split_ifs at hmark with hzero
          obtain ⟨x, hload, hstore⟩ := Checked.bind_eq_done.mp hmark
          have hlt := lt_length_of_load hload
          rw [store_eq_done hlt] at hstore
          cases hstore
          rw [List.length_set]
          omega
        obtain ⟨hpos, hle, hlen'⟩ := hplace
        have hcol : c + t.span row c ≤ t.nCol := t.colStart_strictMono.le_iff_le.mp hle
        rw [nextCol_of_le hcol] at h
        obtain ⟨cs, hcs⟩ := ih hcol (hlen'.trans hlen) h
        rcases Nat.eq_zero_or_pos (t.span row c) with hzero | hspan
        · -- a span of no columns would be walked again
          rw [hzero, Nat.add_zero] at hcs
          cases hcs with
          | nil => exact absurd hlt (Nat.lt_irrefl _)
          | cons hspan hle hrest => exact absurd hzero (Nat.ne_of_gt hspan)
        · exact ⟨c :: cs, .cons hspan hcol hcs⟩
      · exact ⟨[], .nil⟩

/-- **A row that is marked** is strided. -/
theorem strides_of_markVerticals {mark : ℕ} {eval eval' : List ℕ}
    (hlen : eval.length = t.colStart t.nCol) (h : markVerticals t eval mark row = .done eval') :
    Strides (t.span row) t.nCol 0 (t.cells row) := by
  obtain ⟨cs, hcs⟩ := strides_of_markLoop htotal (Nat.zero_le _) hlen h
  rwa [cells_eq hcs]

end Marks

/-! ## Lines of marks -/

/-- A line of marks with its two ends. -/
def lineText (left right : CStr) (stroke : ℕ → CStr) (e : ℕ → ℕ) (n : ℕ) : CStr :=
  left ++ (List.range (n - 1)).flatMap (fun i => stroke (e i)) ++ right

/-- The strings for the marks are border characters, as far as there are any. -/
def StrokesOk (s0 s1 s2 s3 : Option CStr) : Prop :=
  ∀ s ∈ [s0, s1, s2, s3], ∀ m, s = some m → isMark m = true

/-- The string for a mark is one of the border characters, or the placeholder. -/
lemma strokeOf_cases {s0 s1 s2 s3 : Option CStr} (h : StrokesOk s0 s1 s2 s3) (x : ℕ) :
    isMark (strokeOf s0 s1 s2 s3 x) = true ∨ strokeOf s0 s1 s2 s3 x = placeholder := by
  have hstring {s : Option CStr} (hs : s ∈ [s0, s1, s2, s3]) :
      isMark (s.getD (str "#ERR#")) = true ∨ s.getD (str "#ERR#") = placeholder := by
    cases hcase : s with
    | none => exact Or.inr rfl
    | some m => exact Or.inl (h s hs m hcase)
  rw [strokeOf]
  split_ifs
  · exact hstring (by simp)
  · exact hstring (by simp)
  · exact hstring (by simp)
  · exact hstring (by simp)

lemma strokeOf_piece {s0 s1 s2 s3 : Option CStr} (h : StrokesOk s0 s1 s2 s3) (x : ℕ) :
    (0 : Byte) ∉ strokeOf s0 s1 s2 s3 x ∧ (strokeOf s0 s1 s2 s3 x).length < 10000 := by
  rcases strokeOf_cases h x with hmark | hplace
  · have hlen := length_of_isMark hmark
    exact ⟨(strip_of_isMark hmark).nul_free, by omega⟩
  · rw [hplace]
    exact ⟨by decide, by decide⟩

/-- The loop over a line of marks. -/
lemma strokeLoop_writes {n : ℕ} {stroke : ℕ → CStr}
    (hstroke : ∀ x, (0 : Byte) ∉ stroke x ∧ (stroke x).length < 10000) (e : ℕ → ℕ) (k i : ℕ)
    (h : i + k ≤ n) :
    Writes (strokeLoop (marksOf n e) stroke k i)
      ((List.range' i k).flatMap fun j => stroke (e j)) () := by
  induction k generalizing i with
  | zero => exact writes_pure ()
  | succ k ih =>
      obtain ⟨hfree, hlen⟩ := hstroke (e i)
      rw [strokeLoop, List.range'_succ, List.flatMap_cons]
      exact (writes_lift (load_marksOf e (by omega))).bind_nil
        ((writes_put hfree hlen (by decide)).bind (ih (i + 1) (by omega)))

/-- The marks between the ends of a line. -/
lemma strokeVerticals_writes {s0 s1 s2 s3 : Option CStr} (h : StrokesOk s0 s1 s2 s3) (n : ℕ)
    (e : ℕ → ℕ) :
    Writes (strokeVerticals n (marksOf n e) s0 s1 s2 s3)
      ((List.range (n - 1)).flatMap fun i => strokeOf s0 s1 s2 s3 (e i)) () := by
  have hloop := strokeLoop_writes (fun x => strokeOf_piece h x) e (n - 1) 0
    (show 0 + (n - 1) ≤ n by omega)
  rw [← List.range_eq_range'] at hloop
  have hall := hloop.bind (f := fun _ => checkExit) writes_checkExit
  rwa [List.append_nil] at hall

/-- The right end of a line, with the line break. -/
lemma writes_end {m : CStr} (hm : isMark m = true) {extra : ℕ} (hextra : extra < 10000) :
    Writes (put (m ++ [lf]) extra) (m ++ [lf]) () := by
  have hlen := length_of_isMark hm
  refine writes_put ?_ (by rw [List.length_append, List.length_singleton]; omega) hextra
  simp only [List.mem_append, not_or]
  exact ⟨(strip_of_isMark hm).nul_free, by decide⟩

lemma writes_mark {m : CStr} (hm : isMark m = true) : Writes (put m 0) m () := by
  have hlen := length_of_isMark hm
  exact writes_put (strip_of_isMark hm).nul_free (by omega) (by decide)

/-- **A line of marks** is written with its ends. -/
theorem strokeLine_writes {s0 s1 s2 s3 : Option CStr} (h : StrokesOk s0 s1 s2 s3) {left right : CStr}
    (hleft : isMark left = true) (hright : isMark right = true) (n : ℕ) (e : ℕ → ℕ) {extra : ℕ}
    (hextra : extra < 10000) :
    Writes (strokeLine n (marksOf n e) left right s0 s1 s2 s3 extra)
      (lineText left right (strokeOf s0 s1 s2 s3) e n ++ [lf]) () := by
  have hend := (writes_end hright hextra).bind (f := fun _ => checkReturn) writes_checkReturn
  rw [List.append_nil] at hend
  have hall := (writes_mark hleft).bind (f := fun _ => _) (writes_checkReturn.bind_nil (f := fun _ => _)
    ((strokeVerticals_writes h n e).bind (f := fun _ => _) (writes_checkReturn.bind_nil
      (f := fun _ => _) hend)))
  rw [lineText, List.append_assoc, List.append_assoc]
  exact hall

/-- **A line of border characters** is as wide as the table. -/
lemma strip_lineText {left right : CStr} (hleft : isMark left = true) (hright : isMark right = true)
    {stroke : ℕ → CStr} {e : ℕ → ℕ} {n : ℕ} (hn : 0 < n)
    (h : ∀ i, i + 1 < n → isMark (stroke (e i)) = true) :
    Strip (n + 1) (lineText left right stroke e n) ∧
      Avoids placeholder (lineText left right stroke e n) := by
  have hall (i : ℕ) (hi : i ∈ List.range (n - 1)) : isMark (stroke (e i)) = true :=
    h i (by have := List.mem_range.mp hi; omega)
  have hmarks := strip_flatMap hall
  rw [List.length_range] at hmarks
  have hwidth : n + 1 = 1 + (n - 1) + 1 := by omega
  rw [lineText, hwidth]
  refine ⟨((strip_of_isMark hleft).append hmarks).append (strip_of_isMark hright), ?_⟩
  have hend := avoids_mark_append hright (left ++ (List.range (n - 1)).flatMap fun i => stroke (e i)) []
  rw [List.append_nil, and_iff_left (Avoids.nil placeholder_ne_nil)] at hend
  rw [hend]
  exact (avoids_mark_append hleft [] _).mpr ⟨.nil placeholder_ne_nil, avoids_flatMap hall⟩

/-- **A placeholder in a line** is seen. -/
lemma not_avoids_lineText (left right : CStr) {stroke : ℕ → CStr} {e : ℕ → ℕ} {n i : ℕ}
    (hi : i + 1 < n) (h : stroke (e i) = placeholder) :
    ¬ Avoids placeholder (lineText left right stroke e n) := by
  have hmem : i ∈ List.range (n - 1) := List.mem_range.mpr (by omega)
  obtain ⟨front, back, hsplit⟩ := List.append_of_mem hmem
  refine fun havoids => havoids ⟨left ++ front.flatMap fun i => stroke (e i),
    back.flatMap (fun i => stroke (e i)) ++ right, ?_⟩
  rw [lineText, hsplit, List.flatMap_append, List.flatMap_cons, h]
  simp only [List.append_assoc]

end G7.Utable
