import G7Ctrl.Core.LineBreaks
import G7Ctrl.Table.Stroke

/-!
# Cells (`_utable_draw_cellcontent_row`)

The text of a cell is cut to the width of the cell and filled up with blanks.

* `Table.colStart` — where a column begins, `spanWidth_eq` — the width of a cell.
* `cutChars` — what is left of a text.
* **`cutText_eq`** — that is what is cut, if it fits into its array.
* **`alignCell_eq`** — every alignment fills a cell up to its width.
* `Drawable` — the tables that are looked at, `Strip` — a piece of a line.
* `CellFits`, `CellClear` — what is left of a text fits and is not taken for the placeholder.
* **`drawCell_eq`** — a cell is a strip as wide as its columns, if the text fits.
-/

namespace G7.Utable

/-! ## Widths -/

/-- The number of characters before a column, with a border for each column. -/
def Table.colStart (t : Table) (c : ℕ) : ℕ :=
  ((List.range c).map fun i => t.width i + 1).sum

namespace Table

variable (t : Table)

@[simp] lemma colStart_zero : t.colStart 0 = 0 := rfl

lemma width_of_lt {c : ℕ} (h : c < t.nCol) : t.width c = (t.colwidth c).toNat := if_pos h

lemma width_nCol : t.width t.nCol = 0 := if_neg (Nat.lt_irrefl _)

lemma colStart_succ (c : ℕ) : t.colStart (c + 1) = t.colStart c + (t.width c + 1) := by
  rw [colStart, colStart, List.range_succ, List.map_append, List.sum_append]
  rfl

lemma colStart_mono {c d : ℕ} (h : c ≤ d) : t.colStart c ≤ t.colStart d := by
  induction d, h using Nat.le_induction with
  | base => exact le_rfl
  | succ d hcd ih =>
      rw [colStart_succ]
      omega

/-- Every column has a border. -/
lemma colStart_strictMono : StrictMono t.colStart := by
  refine strictMono_nat_of_lt_succ fun c => ?_
  rw [colStart_succ]
  omega

lemma totwidth_eq (h : t.colStart t.nCol < 2 ^ 64) : t.totwidth = t.colStart t.nCol := by
  have hsum : ((List.range t.nCol).map fun i => (t.colwidth i).toNat + 1) =
      (List.range t.nCol).map fun i => t.width i + 1 :=
    List.map_congr_left fun i hi => by rw [t.width_of_lt (List.mem_range.mp hi)]
  rw [totwidth, hsum]
  exact Nat.mod_eq_of_lt h

end Table

/-- **The width of some columns** with their borders. -/
lemma spanWidth_run (t : Table) (c k cs : ℕ) (hin : c + cs + k ≤ t.nCol + 1)
    (hsmall : t.colStart (c + cs + k) < 2 ^ 31) :
    spanWidth t c k cs ((t.colStart (c + cs) : ℤ) - t.colStart c) =
      .done ((t.colStart (c + cs + k) : ℤ) - t.colStart c) := by
  induction k generalizing cs with
  | zero => rfl
  | succ k ih =>
      have hsucc := t.colStart_succ (c + cs)
      have hle := t.colStart_mono (show c + cs + 1 ≤ c + cs + (k + 1) by omega)
      have hstart := t.colStart_mono (show c ≤ c + cs by omega)
      have hwidth : t.widthAt (c + cs) = .done (t.width (c + cs)) := if_pos (by omega)
      have hround : toInt32 ((t.colStart (c + cs) : ℤ) - t.colStart c + t.width (c + cs) + 1) =
          (t.colStart (c + (cs + 1)) : ℤ) - t.colStart c := by
        rw [toInt32_of_lt (by omega) (by omega), ← Nat.add_assoc, hsucc]
        omega
      rw [spanWidth, hwidth, Checked.done_bind, hround, ih (cs + 1) (by omega) (by
        rwa [show c + (cs + 1) + k = c + cs + (k + 1) by omega])]
      rw [show c + (cs + 1) + k = c + cs + (k + 1) by omega]

/-- A cell and its borders. -/
lemma spanWidth_eq (t : Table) {c k : ℕ} (hin : c + k ≤ t.nCol + 1)
    (hsmall : t.colStart (c + k) < 2 ^ 31) :
    spanWidth t c k 0 0 = .done ((t.colStart (c + k) : ℤ) - t.colStart c) := by
  have hrun := spanWidth_run t c k 0 hin hsmall
  rwa [Nat.add_zero, sub_self] at hrun

/-- A width is only found for columns that there are. -/
lemma le_of_spanWidth {t : Table} {c k cs : ℕ} {w w' : ℤ} (hc : c + cs ≤ t.nCol + 1)
    (h : spanWidth t c k cs w = .done w') : c + cs + k ≤ t.nCol + 1 := by
  induction k generalizing cs w with
  | zero => exact hc
  | succ k ih =>
      rw [spanWidth] at h
      obtain ⟨width, hwidth, hrest⟩ := Checked.bind_eq_done.mp h
      rw [Table.widthAt] at hwidth
      split_ifs at hwidth with hle
      have hrest := ih (by omega) hrest
      omega

/-! ## Cutting -/

/-- A blank. -/
def blankChar : CodePoint := ⟨[ch ' '], by decide⟩

/-- Some blanks. -/
def blankChars (n : ℕ) : List CodePoint := List.replicate n blankChar

@[simp] lemma utf8Bytes_blankChars (n : ℕ) : utf8Bytes (blankChars n) = blanks n := by
  induction n with
  | zero => rfl
  | succ n ih =>
      rw [blankChars, List.replicate_succ, utf8Bytes_cons, ← blankChars, ih]
      rfl

@[simp] lemma length_blankChars (n : ℕ) : (blankChars n).length = n := List.length_replicate

@[simp] lemma length_blanks (n : ℕ) : (blanks n).length = n := List.length_replicate

lemma not_mem_blanks {c : Byte} (h : c ≠ ch ' ') (n : ℕ) : c ∉ blanks n :=
  fun hmem => h (List.eq_of_mem_replicate hmem)

/-- What is left of a text with its padding in a cell of `w` characters. -/
def cutChars (cutInPadding : Bool) (lpad rpad : ℕ) (txt : List CodePoint) (w : ℕ) :
    List CodePoint :=
  if cutInPadding then (blankChars lpad ++ txt ++ blankChars rpad).take w
  else (blankChars lpad ++ txt).take (w - rpad) ++ blankChars rpad

lemma length_cutChars_le (cutInPadding : Bool) (lpad : ℕ) {rpad : ℕ} (txt : List CodePoint) {w : ℕ}
    (hrpad : rpad ≤ w) : (cutChars cutInPadding lpad rpad txt w).length ≤ w := by
  rw [cutChars]
  split_ifs
  · exact List.length_take_le _ _
  · have htake := List.length_take_le (w - rpad) (blankChars lpad ++ txt)
    rw [List.length_append, length_blankChars]
    omega

lemma length_utf8Bytes_le (t : List CodePoint) : (utf8Bytes t).length ≤ 4 * t.length := by
  induction t with
  | nil => exact le_rfl
  | cons p t ih =>
      have hp := p.length_le
      rw [utf8Bytes_cons, List.length_append, List.length_cons]
      omega

lemma charOffset_le (t : List CodePoint) (k : ℕ) : charOffset t k ≤ 4 * k := by
  have hlen := length_utf8Bytes_le (t.take k)
  have htake := List.length_take_le k t
  rw [charOffset]
  omega

lemma take_charOffset (t : List CodePoint) (k : ℕ) :
    (utf8Bytes t).take (charOffset t k) = utf8Bytes (t.take k) := by
  have hsplit : utf8Bytes t = utf8Bytes (t.take k) ++ utf8Bytes (t.drop k) := by
    rw [← utf8Bytes_append, List.take_append_drop]
  rw [hsplit, charOffset, List.take_left]

/-- **A place in a text of which only the first bytes were printed.** -/
lemma xmbOffsetMem_take {t : List CodePoint} (ht : (0 : Byte) ∉ utf8Bytes t) {w n : ℕ}
    (hw : 4 * w < n) : xmbOffsetMem (cblock ((utf8Bytes t).take n)) w = .done (charOffset t w) := by
  rcases Nat.lt_or_ge n (utf8Bytes t).length with hlong | hshort
  · have hlen := length_utf8Bytes_le t
    have hoffset := charOffset_le t w
    have hfree : (0 : Byte) ∉ utf8Bytes (t.take w) := by
      rw [← take_charOffset]
      exact fun hmem => ht (List.mem_of_mem_take hmem)
    -- the printed bytes go on behind the first `w` code points with another one
    obtain ⟨e, back, hback⟩ : ∃ e back, utf8Bytes (t.drop w) = e :: back := by
      refine List.exists_cons_of_ne_nil fun hnil => ?_
      have hall := take_charOffset t w
      rw [← List.append_nil (utf8Bytes (t.take w)), ← hnil, ← utf8Bytes_append,
        List.take_append_drop] at hall
      have := congrArg List.length hall
      rw [List.length_take] at this
      omega
    have he : isTail e = false := isTail_head_utf8Bytes (t := t.drop w) (by rw [hback]; rfl)
    have hsplit : cblock ((utf8Bytes t).take n) = utf8Bytes (t.take w) ++
        e :: (back.take (n - charOffset t w - 1) ++ [0]) := by
      have hrest : n - charOffset t w = n - charOffset t w - 1 + 1 := by omega
      rw [cblock]
      conv_lhs => rw [← List.take_append_drop w t, utf8Bytes_append, List.take_append, hback]
      rw [List.take_of_length_le (by rw [← charOffset]; omega), List.append_assoc, ← charOffset,
        hrest, List.take_succ_cons]
      rfl
    have hlength : (t.take w).length = w := by
      rw [List.length_take]
      omega
    have hrun := offsetLoop_run (t.take w) hfree w [] he
      (back.take (n - charOffset t w - 1) ++ [0]) (Or.inl hlength.ge)
    rw [xmbOffsetMem, hsplit, Int.toNat_natCast]
    refine hrun.trans ?_
    rw [List.length_nil, Nat.zero_add, charOffset, List.take_take, Nat.min_self, ← charOffset]
  · rw [List.take_of_length_le hshort, xmbOffsetMem_eq ht, Int.toNat_natCast]

/-- `xstrlcpy` of the first bytes. -/
lemma copyTo_eq {room len : ℕ} {src text : CStr} (h : src.take len = text) :
    copyTo room src (len + 1) = if text.length < room then .done text else .fault := by
  have hcopy : xstrlcpy src (len + 1) = text := h
  rw [copyTo, hcopy]

/-- **The text that is cut**, if it fits into its array. -/
theorem cutText_eq (cutInPadding : Bool) {lpad rpad w : ℕ} {txt : List CodePoint}
    (htxt : (0 : Byte) ∉ utf8Bytes txt) (hpad : lpad + rpad ≤ w) (hw : w < 256) :
    cutText cutInPadding lpad rpad (utf8Bytes txt) w =
      if (utf8Bytes (cutChars cutInPadding lpad rpad txt w)).length < 512 then
        .done (utf8Bytes (cutChars cutInPadding lpad rpad txt w))
      else .fault := by
  have hl : padString lpad = .done (blanks lpad) := if_pos (by rw [maxPadChars]; omega)
  have hr : padString rpad = .done (blanks rpad) := if_pos (by rw [maxPadChars]; omega)
  have hblank (n : ℕ) : (0 : Byte) ∉ blanks n := not_mem_blanks (by decide) n
  rw [cutText, hl, hr, Checked.done_bind, Checked.done_bind]
  cases cutInPadding with
  | true =>
      have hall : blanks lpad ++ utf8Bytes txt ++ blanks rpad =
          utf8Bytes (blankChars lpad ++ txt ++ blankChars rpad) := by
        simp only [utf8Bytes_append, utf8Bytes_blankChars]
      have hfree : (0 : Byte) ∉ utf8Bytes (blankChars lpad ++ txt ++ blankChars rpad) := by
        rw [← hall]
        simp only [List.mem_append, not_or]
        exact ⟨⟨hblank lpad, htxt⟩, hblank rpad⟩
      have htake : ((utf8Bytes (blankChars lpad ++ txt ++ blankChars rpad)).take 1023).take
          (charOffset (blankChars lpad ++ txt ++ blankChars rpad) w) =
          utf8Bytes ((blankChars lpad ++ txt ++ blankChars rpad).take w) := by
        have hoffset := charOffset_le (blankChars lpad ++ txt ++ blankChars rpad) w
        rw [List.take_take, Nat.min_eq_left (by omega), take_charOffset]
      rw [if_pos rfl, hall]
      dsimp only
      rw [xmbOffsetMem_take hfree (by omega), Checked.done_bind, copyTo_eq htake]
      rfl
  | false =>
      have hfront : blanks lpad ++ utf8Bytes txt = utf8Bytes (blankChars lpad ++ txt) := by
        simp only [utf8Bytes_append, utf8Bytes_blankChars]
      have hfree : (0 : Byte) ∉ utf8Bytes (blankChars lpad ++ txt) := by
        rw [← hfront, List.mem_append, not_or]
        exact ⟨hblank lpad, htxt⟩
      have hw1 : toInt32 ((w : ℤ) - rpad) = ((w - rpad : ℕ) : ℤ) := by
        rw [toInt32_of_lt (by omega) (by omega)]
        omega
      have htake : ((utf8Bytes (blankChars lpad ++ txt)).take 1023).take
          (charOffset (blankChars lpad ++ txt) (w - rpad)) =
          utf8Bytes ((blankChars lpad ++ txt).take (w - rpad)) := by
        have hoffset := charOffset_le (blankChars lpad ++ txt) (w - rpad)
        rw [List.take_take, Nat.min_eq_left (by omega), take_charOffset]
      rw [if_neg Bool.false_ne_true, hfront, hw1]
      dsimp only
      rw [xmbOffsetMem_take hfree (by omega), Checked.done_bind, copyTo_eq htake]
      have hcut : utf8Bytes (cutChars false lpad rpad txt w) =
          utf8Bytes ((blankChars lpad ++ txt).take (w - rpad)) ++ blanks rpad := by
        rw [cutChars, if_neg Bool.false_ne_true, utf8Bytes_append, utf8Bytes_blankChars]
      have hcutlen := congrArg List.length hcut
      rw [List.length_append, length_blanks] at hcutlen
      by_cases hfits : (utf8Bytes ((blankChars lpad ++ txt).take (w - rpad))).length < 512
      · -- with the right padding the text is not cut again
        have hchars := length_cutChars_le false lpad txt (show rpad ≤ w by omega)
        have hfree' : (0 : Byte) ∉ utf8Bytes (cutChars false lpad rpad txt w) := by
          rw [hcut, ← take_charOffset, List.mem_append, not_or]
          exact ⟨fun hmem => hfree (List.mem_of_mem_take hmem), hblank rpad⟩
        have hall : charOffset (cutChars false lpad rpad txt w) w =
            (utf8Bytes (cutChars false lpad rpad txt w)).length := by
          rw [charOffset, List.take_of_length_le hchars]
        have hwhole : (utf8Bytes (cutChars false lpad rpad txt w)).take
            ((utf8Bytes (cutChars false lpad rpad txt w)).length + 1) =
            utf8Bytes (cutChars false lpad rpad txt w) := List.take_of_length_le (Nat.le_succ _)
        rw [if_pos hfits, Checked.done_bind, List.take_of_length_le (by rw [← hcut]; omega), ← hcut,
          xmbOffsetMem_eq hfree', Int.toNat_natCast, Checked.done_bind, hall, copyTo_eq hwhole]
      · rw [if_neg hfits, if_neg (by omega)]
        rfl

/-! ## Alignment -/

lemma utf8len_eq {t : List CodePoint} (ht : (0 : Byte) ∉ utf8Bytes t) :
    utf8len (some (utf8Bytes t)) = t.length := by
  have hcount : (utf8Bytes t).countP isutf = charCount (utf8Bytes t) :=
    List.countP_congr fun c _ => by rw [isutf_eq]
  rw [utf8len, Option.getD_some, cstr_eq_self ht, hcount, charCount_utf8Bytes]

/-- The blanks in `rpadstr`. -/
lemma readPad {n : ℕ} (h : n < 256) : ∃ pad, fillPad n = .done pad ∧ readStr pad = .done (blanks n) := by
  obtain ⟨k, hk⟩ := Nat.exists_eq_add_of_lt h
  have hfree : (0 : Byte) ∉ blanks n := not_mem_blanks (by decide) n
  have hzeros : List.replicate (maxPadChars - n) (0 : Byte) = 0 :: List.replicate k 0 := by
    rw [maxPadChars, ← List.replicate_succ]
    congr 1
    omega
  refine ⟨blanks n ++ List.replicate (maxPadChars - n) 0, if_pos (by rw [maxPadChars]; omega), ?_⟩
  rw [hzeros, readStr_append_nul hfree]

/-- **Every alignment** fills a cell up to its width. -/
theorem alignCell_eq (halign : HAlign) {t : List CodePoint} (ht : (0 : Byte) ∉ utf8Bytes t) {w : ℕ}
    (hlen : t.length ≤ w) (hw : w < 256) :
    ∃ a b, alignCell halign (utf8Bytes t) w = .done (blanks a ++ utf8Bytes t ++ blanks b) ∧
      a + t.length + b = w := by
  obtain ⟨pad, hpad, hread⟩ := readPad (n := w - t.length) (by omega)
  have hfill : ((w : ℤ) - t.length).toNat = w - t.length := by omega
  rw [alignCell]
  dsimp only
  rw [utf8len_eq ht, hfill, hpad, Checked.done_bind]
  cases halign with
  | leftAlign =>
      refine ⟨0, w - t.length, ?_, by omega⟩
      dsimp only
      rw [hread]
      rfl
  | rightAlign =>
      refine ⟨w - t.length, 0, ?_, by omega⟩
      dsimp only
      rw [hread, Checked.done_bind]
      exact congrArg Checked.done (List.append_nil _).symm
  | centerAlign =>
      have hdiv : (w : ℤ).tdiv 2 = ((w / 2 : ℕ) : ℤ) := rfl
      have hright : (toInt32 ((w : ℤ) - ((w / 2 : ℕ) : ℤ) + ((t.length / 2 : ℕ) : ℤ) - t.length)).toNat =
          w - w / 2 + t.length / 2 - t.length := by
        rw [toInt32_of_lt (by omega) (by omega)]
        omega
      have hleft : (((w / 2 : ℕ) : ℤ) - ((t.length / 2 : ℕ) : ℤ)).natAbs = w / 2 - t.length / 2 := by
        omega
      obtain ⟨pad', hpad', hread'⟩ := readPad (n := w - w / 2 + t.length / 2 - t.length) (by omega)
      refine ⟨w / 2 - t.length / 2, w - w / 2 + t.length / 2 - t.length, ?_, by omega⟩
      dsimp only
      rw [hdiv, hright, hpad', Checked.done_bind, hread', Checked.done_bind, hleft]
      rfl

/-! ## Cells -/

/-- `"#ERR#"`, which is written for a border character that there is not. -/
def placeholder : CStr := str "#ERR#"

/-- The first columns of the cells of a row. -/
def Table.cells (t : Table) (row : ℕ) : List ℕ := strideList (t.span row) t.nCol (t.nCol + 1) 0

/-- The columns of a prepared table are at least as wide as the paddings in them, and the table is
less than 256 characters wide; the texts are UTF-8 without line breaks. -/
structure Drawable (t : Table) : Prop where
  total : t.colStart t.nCol < 256
  padding : ∀ row < t.nRow, ∀ c ∈ t.cells row, ∃ lpad rpad, t.getCp row c = .done (lpad, rpad) ∧
    lpad.toNat + rpad.toNat ≤ (t.colwidth c).toNat
  utf8 : ∀ row < t.nRow, ∀ c ∈ t.cells row, ∃ txt, cellText t row c = utf8Bytes txt
  oneLine : ∀ row < t.nRow, ∀ c ∈ t.cells row, lf ∉ cellText t row c

/-- A piece of a line with `w` code points. -/
structure Strip (w : ℕ) (s : CStr) : Prop where
  chars : ∃ t : List CodePoint, utf8Bytes t = s ∧ t.length = w
  lf_free : lf ∉ s
  nul_free : (0 : Byte) ∉ s

lemma placeholder_ne_nil : placeholder ≠ [] := by decide

/-- Blanks do not belong to the placeholder. -/
lemma blanks_foreign (n : ℕ) : ∀ c ∈ blanks n, c ∉ placeholder := by
  intro c hc
  rw [List.eq_of_mem_replicate hc]
  decide

/-- A strip with blanks on both sides. -/
lemma Strip.blanks_append {w : ℕ} {s : CStr} (h : Strip w s) (a b : ℕ) :
    Strip (a + w + b) (blanks a ++ s ++ blanks b) where
  chars := by
    obtain ⟨t, rfl, rfl⟩ := h.chars
    refine ⟨blankChars a ++ t ++ blankChars b, ?_, ?_⟩
    · simp only [utf8Bytes_append, utf8Bytes_blankChars]
    · simp only [List.length_append, length_blankChars]
  lf_free := by
    simp only [List.mem_append, not_or]
    exact ⟨⟨not_mem_blanks (by decide) a, h.lf_free⟩, not_mem_blanks (by decide) b⟩
  nul_free := by
    simp only [List.mem_append, not_or]
    exact ⟨⟨not_mem_blanks (by decide) a, h.nul_free⟩, not_mem_blanks (by decide) b⟩

/-- Blanks on both sides do not make a placeholder. -/
lemma avoids_blanks_append (a : ℕ) (s : CStr) (b : ℕ) :
    Avoids placeholder (blanks a ++ s ++ blanks b) ↔ Avoids placeholder s := by
  rw [Avoids.append_foreign_iff (blanks_foreign b) placeholder_ne_nil,
    Avoids.foreign_append_iff (blanks_foreign a) placeholder_ne_nil]

/-- The first characters of a strip. -/
lemma Strip.take {w : ℕ} {t : List CodePoint} (h : Strip w (utf8Bytes t)) (k : ℕ) :
    Strip (t.take k).length (utf8Bytes (t.take k)) := by
  have hpart : utf8Bytes (t.take k) <:+: utf8Bytes t := by
    refine ⟨[], utf8Bytes (t.drop k), ?_⟩
    rw [List.nil_append, ← utf8Bytes_append, List.take_append_drop]
  exact ⟨⟨_, rfl, rfl⟩, fun hmem => h.lf_free (hpart.subset hmem),
    fun hmem => h.nul_free (hpart.subset hmem)⟩

/-- What is cut from a strip is one. -/
lemma strip_cutChars {txt : List CodePoint} (h : Strip txt.length (utf8Bytes txt))
    (cutInPadding : Bool) (lpad rpad w : ℕ) :
    Strip (cutChars cutInPadding lpad rpad txt w).length
      (utf8Bytes (cutChars cutInPadding lpad rpad txt w)) := by
  rw [cutChars]
  split_ifs
  · have hall := h.blanks_append lpad rpad
    rw [← utf8Bytes_blankChars, ← utf8Bytes_blankChars, ← utf8Bytes_append, ← utf8Bytes_append] at hall
    exact hall.take w
  · have hfront := h.blanks_append lpad 0
    have hnil : blanks 0 = utf8Bytes [] := rfl
    rw [← utf8Bytes_blankChars, hnil, ← utf8Bytes_append, ← utf8Bytes_append, List.append_nil] at hfront
    have hcut := (hfront.take (w - rpad)).blanks_append 0 rpad
    rw [utf8Bytes_append, utf8Bytes_blankChars, List.length_append, length_blankChars]
    rwa [Nat.zero_add, show blanks 0 = [] from rfl, List.nil_append] at hcut

/-- The width of a cell, without its border. -/
def Table.cellWidth (t : Table) (row c : ℕ) : ℕ := t.colStart (c + t.span row c) - t.colStart c - 1

/-- What is left of the text of a cell with its padding. -/
def IsCut (cutInPadding : Bool) (t : Table) (row c : ℕ) (s : CStr) : Prop :=
  ∃ txt lpad rpad, cellText t row c = utf8Bytes txt ∧ t.getCp row c = .done (lpad, rpad) ∧
    s = utf8Bytes (cutChars cutInPadding lpad.toNat rpad.toNat txt (t.cellWidth row c))

/-- It fits into its array. -/
def CellFits (cutInPadding : Bool) (t : Table) (row c : ℕ) : Prop :=
  ∀ s, IsCut cutInPadding t row c s → s.length < 512

/-- It does not have the text of the placeholder itself. -/
def CellClear (cutInPadding : Bool) (t : Table) (row c : ℕ) : Prop :=
  ∀ s, IsCut cutInPadding t row c s → Avoids placeholder s

lemma not_mem_cellText (t : Table) (row c : ℕ) : (0 : Byte) ∉ cellText t row c := by
  rw [cellText]
  split
  · split
    · exact not_mem_cstr _
    · decide
  · split
    · exact not_mem_cstr _
    · split
      · exact not_mem_cstr _
      · decide

lemma utf8Bytes_injective : Function.Injective utf8Bytes := by
  intro t u h
  have ht := prefix_of_utf8Bytes_prefix (h ▸ List.prefix_rfl : utf8Bytes t <+: utf8Bytes u)
  have hu := prefix_of_utf8Bytes_prefix (h ▸ List.prefix_rfl : utf8Bytes u <+: utf8Bytes t)
  exact ht.eq_of_length (Nat.le_antisymm ht.length_le hu.length_le)

/-- **A cell** whose columns are in the table. -/
theorem drawCell_eq {t : Table} (hd : Drawable t) (cutInPadding : Bool) {row c : ℕ}
    (hrow : row < t.nRow) (hcell : c ∈ t.cells row) (hpos : 0 < t.span row c)
    (hle : c + t.span row c ≤ t.nCol) :
    (CellFits cutInPadding t row c → ∃ text, drawCell cutInPadding t row c = .done text ∧
      Strip (t.cellWidth row c) text ∧
      (Avoids placeholder text ↔ CellClear cutInPadding t row c)) ∧
    (¬ CellFits cutInPadding t row c → drawCell cutInPadding t row c = .fault) := by
  have htotal := hd.total
  have hc : c < t.nCol := by omega
  obtain ⟨lpad, rpad, hcp, hpad⟩ := hd.padding row hrow c hcell
  obtain ⟨txt, htxt⟩ := hd.utf8 row hrow c hcell
  have hfree : (0 : Byte) ∉ utf8Bytes txt := htxt ▸ not_mem_cellText t row c
  have hstrip : Strip txt.length (utf8Bytes txt) :=
    ⟨⟨txt, rfl, rfl⟩, htxt ▸ hd.oneLine row hrow c hcell, hfree⟩
  have hend := t.colStart_mono hle
  have hone := t.colStart_mono (show c + 1 ≤ c + t.span row c by omega)
  rw [t.colStart_succ, t.width_of_lt hc] at hone
  have hwidth : ((t.colStart (c + t.span row c) : ℤ) - t.colStart c - 1) = t.cellWidth row c := by
    rw [Table.cellWidth]
    omega
  have hw : t.cellWidth row c < 256 := by
    rw [Table.cellWidth]
    omega
  have hpadw : lpad.toNat + rpad.toNat ≤ t.cellWidth row c := by
    rw [Table.cellWidth]
    omega
  have hcut (P : CStr → Prop) : (∀ s, IsCut cutInPadding t row c s → P s) ↔
      P (utf8Bytes (cutChars cutInPadding lpad.toNat rpad.toNat txt (t.cellWidth row c))) := by
    constructor
    · intro h
      exact h _ ⟨txt, lpad, rpad, htxt, hcp, rfl⟩
    · rintro h s ⟨txt', lpad', rpad', htxt', hcp', rfl⟩
      cases utf8Bytes_injective (htxt.symm.trans htxt')
      cases hcp.symm.trans hcp'
      exact h
  have hspan : spanWidth t c (t.c row c).cspan.toNat 0 0 =
      .done ((t.colStart (c + t.span row c) : ℤ) - t.colStart c) :=
    spanWidth_eq t (show c + t.span row c ≤ t.nCol + 1 by omega)
      (show t.colStart (c + t.span row c) < 2 ^ 31 by omega)
  have hdraw : drawCell cutInPadding t row c = (do
      let txtbuff ← cutText cutInPadding lpad.toNat rpad.toNat (utf8Bytes txt) (t.cellWidth row c)
      alignCell (t.c row c).halign txtbuff (t.cellWidth row c)) := by
    rw [drawCell]
    dsimp only
    rw [hcp, Checked.done_bind]
    dsimp only
    rw [hspan, Checked.done_bind, htxt, hwidth]
  rw [hdraw, cutText_eq cutInPadding hfree hpadw hw, CellFits, CellClear, hcut, hcut]
  constructor
  · intro h
    have hcut := strip_cutChars hstrip cutInPadding lpad.toNat rpad.toNat (t.cellWidth row c)
    have hlen := length_cutChars_le cutInPadding lpad.toNat txt
      (show rpad.toNat ≤ t.cellWidth row c by omega)
    obtain ⟨a, b, halign, hsum⟩ := alignCell_eq (t.c row c).halign hcut.nul_free hlen hw
    have hfilled := hcut.blanks_append a b
    rw [hsum] at hfilled
    rw [if_pos h, Checked.done_bind]
    exact ⟨_, halign, hfilled, avoids_blanks_append a _ b⟩
  · intro h
    rw [if_neg h]
    rfl

end G7.Utable
