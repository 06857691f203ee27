import G7Ctrl.Core.Spans
import G7Ctrl.Table.Table
import G7Ctrl.Xstr.NumberRange

/-!
# Column spans (`utable_set_cell_colspan`)

The rows of a table are walked from cell to cell by their column spans.  The function that sets a
span checks no more than that the span ends inside the table, and not what it does to other spans.

* `setCellColspan` — the function, and `runCalls` a sequence of calls.
* `SpansConsistent` — every row is walked to its end over exactly the cells that are not merged.
* **`setCellColspan_eq`** — what an accepted call does.
* **`spansConsistent_setCellColspan_iff`** — exactly which accepted calls keep the rows consistent.
* **`spansConsistent_runCalls`** — the rows of a table are consistent as long as all calls are such.
-/

namespace G7.Utable

/-! ## The function -/

/-- `for (; c < stop; c++)` of `utable_set_cell_colspan`, with `k` rounds left. -/
def mergeLoop (row col : ℕ) : ℕ → ℕ → Table → Checked Table
  | 0, _, t => return t
  | k + 1, c, t => do
      let (r, c') ← t.getCell (toInt32 row) (toInt32 c)
      mergeLoop row col k (c + 1) (t.setCell r c' fun cell =>
        { cell with merged := true, pRow := toInt32 row, pCol := toInt32 col })

/-- `utable_set_cell_colspan` -/
def setCellColspan (t : Table) (row col cspan : UInt64) : Checked (ℤ × Table) :=
  if t.rcChk row.toNat col.toNat || (col + cspan - 1).toNat ≥ t.nCol then return (-1, t)
  else do
    let (r, c) ← t.getCell (toInt32 row.toNat) (toInt32 col.toNat)
    let t ← mergeLoop row.toNat col.toNat ((col + cspan).toNat - (col.toNat + 1)) (col.toNat + 1)
      (t.setCell r c fun cell =>
        { cell with
          cspan := cspan
          merged := false
          pRow := toInt32 row.toNat
          pCol := toInt32 col.toNat })
    return (0, t)

/-- The arguments of a call. -/
structure SpanCall where
  row : UInt64
  col : UInt64
  cspan : UInt64

/-- The calls one after the other, whether they are accepted or not. -/
def runCalls : Table → List SpanCall → Checked Table
  | t, [] => return t
  | t, call :: calls => do
      let (_, t) ← setCellColspan t call.row call.col call.cspan
      runCalls t calls

/-! ## Consistent rows -/

/-- The column `c + cspan` of the next cell of a row. -/
def Table.nextCol (t : Table) (row c : ℕ) : ℕ := (c + (t.c row c).cspan.toNat) % 2 ^ 64

/-- The cells that are not merged. -/
def Table.unmerged (t : Table) (row c : ℕ) : Bool := !(t.c row c).merged

/-- The walk over a row ends exactly at its end after visiting exactly the cells that are not merged,
and none of these spans a column at or beyond the end. -/
structure RowConsistent (t : Table) (row : ℕ) : Prop where
  walked : ∃ fuel, walk (t.nextCol row) t.nCol fuel 0 =
    .done ((List.range t.nCol).filter (t.unmerged row), t.nCol)
  inside : ∀ c ∈ (List.range t.nCol).filter (t.unmerged row),
    c + (t.c row c).cspan.toNat ≤ t.nCol

/-- Every row is consistent. -/
def SpansConsistent (t : Table) : Prop := ∀ row < t.nRow, RowConsistent t row

/-- A column that follows another one is not a number that wrapped. -/
lemma nextCol_eq {t : Table} {row c : ℕ} (hc : c < t.nCol) (h : c < t.nextCol row c) :
    t.nextCol row c = c + (t.c row c).cspan.toNat := by
  have hcol := t.nCol_lt
  have hspan := (t.c row c).cspan.toNat_lt
  rw [Table.nextCol] at h ⊢
  omega

/-- **A row is consistent** if its cells are a chain. -/
theorem rowConsistent_iff {t : Table} {row : ℕ} :
    RowConsistent t row ↔ Chain (t.nextCol row) (t.unmerged row) t.nCol := by
  constructor
  · intro h
    exact walk_iff.mp h.walked
  · intro h
    refine ⟨walk_iff.mpr h, fun c hc => ?_⟩
    obtain ⟨hrange, hunmerged⟩ := List.mem_filter.mp hc
    have hlink := h.link c (List.mem_range.mp hrange) hunmerged
    rw [← nextCol_eq (List.mem_range.mp hrange) hlink.lt]
    exact hlink.le

/-- The columns that a cell spans. -/
def Table.span (t : Table) (row c : ℕ) : ℕ := (t.c row c).cspan.toNat

/-- **The cells of a consistent row** follow each other to its end. -/
theorem RowConsistent.exists_strides {t : Table} {row : ℕ} (h : RowConsistent t row) :
    ∃ cs, Strides (t.span row) t.nCol 0 cs :=
  (rowConsistent_iff.mp h).exists_strides (fun _ hc hnext => nextCol_eq hc hnext) (Nat.zero_le _)
    (rowConsistent_iff.mp h).start

/-! ## One call -/

/-- A table whose cells of a row from `c` to `stop` are merged with the one at `col`. -/
def coverCells (t : Table) (row col c stop : ℕ) : Table :=
  { t with c := fun r j => if r = row ∧ c ≤ j ∧ j < stop then
      { t.c r j with merged := true, pRow := toInt32 row, pCol := toInt32 col } else t.c r j }

/-- **The loop** merges the cells it passes. -/
lemma mergeLoop_eq {row : ℕ} (col k c : ℕ) {t : Table} (hrow : row < t.nRow) (hrow' : row < 2 ^ 31)
    (hcol : c + k ≤ t.nCol) (hcol' : c + k ≤ 2 ^ 31) :
    mergeLoop row col k c t = .done (coverCells t row col c (c + k)) := by
  induction k generalizing c t with
  | zero =>
      have hnone (r j : ℕ) : ¬ (r = row ∧ c ≤ j ∧ j < c + 0) := by omega
      simp only [mergeLoop, coverCells, hnone, if_false]
      rfl
  | succ k ih =>
      rw [mergeLoop, t.getCell_eq hrow (by omega) hrow' (by omega), Checked.done_bind]
      refine (ih (c + 1) (t := t.setCell row c fun cell =>
        { cell with merged := true, pRow := toInt32 row, pCol := toInt32 col })
        hrow (by rw [Table.setCell_nCol]; omega) (by omega)).trans ?_
      refine congrArg (fun cells => Checked.done { t with c := cells }) (funext₂ fun r j => ?_)
      by_cases hj : r = row ∧ j = c
      · obtain ⟨rfl, rfl⟩ := hj
        rw [if_neg (by omega), if_pos (by omega), Table.setCell_c_self]
      · rw [Table.setCell_c_ne t _ hj]
        by_cases hin : r = row ∧ c + 1 ≤ j ∧ j < c + 1 + k
        · rw [if_pos hin, if_pos (by omega)]
        · rw [if_neg hin, if_neg (by omega)]

/-- The call is refused. -/
def Rejected (t : Table) (call : SpanCall) : Prop :=
  (t.rcChk call.row.toNat call.col.toNat || (call.col + call.cspan - 1).toNat ≥ t.nCol) = true

/-- Where the new span ends, if it does not wrap. -/
def SpanCall.stop (call : SpanCall) : ℕ := (call.col + call.cspan).toNat

/-- A call that is not refused. -/
lemma not_rejected {t : Table} {call : SpanCall} (h : ¬ Rejected t call) :
    call.row.toNat < t.nRow ∧ call.col.toNat < t.nCol ∧ call.stop ≤ t.nCol := by
  have hcol := t.nCol_lt
  have hone : (1 : UInt64).toNat = 1 := rfl
  rw [Rejected, Table.rcChk] at h
  simp only [Bool.or_eq_true, decide_eq_true_eq, not_or, Nat.not_le, ge_iff_le] at h
  obtain ⟨⟨hrow, hcol'⟩, hstop⟩ := h
  rw [UInt64.toNat_sub, hone] at hstop
  have hlt := (call.col + call.cspan).toNat_lt
  refine ⟨hrow, hcol', ?_⟩
  rw [SpanCall.stop]
  omega

/-- The cell that an accepted call gives a span. -/
def spanCell (row col : ℕ) (cspan : UInt64) (cell : TCell) : TCell :=
  { cell with cspan := cspan, merged := false, pRow := toInt32 row, pCol := toInt32 col }

/-- The table after an accepted call. -/
def spannedTable (t : Table) (call : SpanCall) : Table :=
  coverCells (t.setCell call.row.toNat call.col.toNat
    (spanCell call.row.toNat call.col.toNat call.cspan)) call.row.toNat call.col.toNat
    (call.col.toNat + 1) (call.col.toNat + 1 + (call.stop - (call.col.toNat + 1)))

/-- **What an accepted call does**, as long as its numbers are in the range of an `int`. -/
theorem setCellColspan_eq {t : Table} {call : SpanCall} (h : ¬ Rejected t call)
    (hrow : call.row.toNat < 2 ^ 31) (hcol : call.col.toNat < 2 ^ 31) (hstop : call.stop ≤ 2 ^ 31) :
    setCellColspan t call.row call.col call.cspan = .done (0, spannedTable t call) := by
  obtain ⟨hrowIn, hcolIn, hstopIn⟩ := not_rejected h
  have hrowIn' : call.row.toNat < (t.setCell call.row.toNat call.col.toNat
      (spanCell call.row.toNat call.col.toNat call.cspan)).nRow := hrowIn
  have hmerge := mergeLoop_eq call.col.toNat (call.stop - (call.col.toNat + 1))
    (call.col.toNat + 1) hrowIn' hrow (by rw [Table.setCell_nCol]; omega) (by omega)
  refine (if_neg h).trans ?_
  rw [t.getCell_eq hrowIn hcolIn hrow hcol, Checked.done_bind]
  exact congrArg (fun run => run >>= fun t => Checked.done (0, t)) hmerge

section Spanned

variable (t : Table) (call : SpanCall)

/-- The cells of the other rows are as they were. -/
lemma spannedTable_row_ne {r : ℕ} (h : r ≠ call.row.toNat) : (spannedTable t call).c r = t.c r := by
  funext j
  have hcover : ¬ (r = call.row.toNat ∧ call.col.toNat + 1 ≤ j ∧
      j < call.col.toNat + 1 + (call.stop - (call.col.toNat + 1))) := fun hin => h hin.1
  exact (if_neg hcover).trans (t.setCell_c_ne _ fun hin => h hin.1)

lemma spannedTable_self : (spannedTable t call).c call.row.toNat call.col.toNat =
    spanCell call.row.toNat call.col.toNat call.cspan (t.c call.row.toNat call.col.toNat) := by
  have hcover : ¬ (call.row.toNat = call.row.toNat ∧ call.col.toNat + 1 ≤ call.col.toNat ∧
      call.col.toNat < call.col.toNat + 1 + (call.stop - (call.col.toNat + 1))) := by omega
  exact (if_neg hcover).trans (t.setCell_c_self _ _ _)

/-- The cells of the row keep their spans, and are merged if the new span covers them. -/
lemma spannedTable_ne {j : ℕ} (h : j ≠ call.col.toNat) :
    ((spannedTable t call).c call.row.toNat j).cspan = (t.c call.row.toNat j).cspan ∧
      ((spannedTable t call).c call.row.toNat j).merged =
        if call.col.toNat < j ∧ j < call.stop then true else (t.c call.row.toNat j).merged := by
  have hold : (t.setCell call.row.toNat call.col.toNat
      (spanCell call.row.toNat call.col.toNat call.cspan)).c call.row.toNat j =
      t.c call.row.toNat j := t.setCell_c_ne _ fun hin => h hin.2
  simp only [spannedTable, coverCells, hold, true_and]
  by_cases hcover : call.col.toNat < j ∧ j < call.stop
  · rw [if_pos (by omega), if_pos hcover]
    exact ⟨rfl, rfl⟩
  · rw [if_neg (by omega), if_neg hcover]
    exact ⟨rfl, rfl⟩

/-- **The new span** of the row. -/
lemma spannedTable_setSpan :
    SetSpan (t.nextCol call.row.toNat) ((spannedTable t call).nextCol call.row.toNat)
      (t.unmerged call.row.toNat) ((spannedTable t call).unmerged call.row.toNat)
      call.col.toNat call.stop where
  next_self := by
    rw [Table.nextCol, spannedTable_self, SpanCall.stop, UInt64.toNat_add]
    rfl
  next_ne j hj := by rw [Table.nextCol, Table.nextCol, (spannedTable_ne t call hj).1]
  marked_self := by
    rw [Table.unmerged, spannedTable_self]
    rfl
  covered j hcj hj := by
    rw [Table.unmerged, (spannedTable_ne t call (Nat.ne_of_gt hcj)).2, if_pos ⟨hcj, hj⟩]
    rfl
  marked_ne j hj := by
    rw [Table.unmerged, Table.unmerged, (spannedTable_ne t call (by omega)).2, if_neg (by omega)]

end Spanned

/-- The new span begins at a cell that is not merged, has at least one column and does not wrap, and
ends where a cell follows that is not merged. -/
structure SpanFits (t : Table) (call : SpanCall) : Prop where
  unmerged : (t.c call.row.toNat call.col.toNat).merged = false
  lt : call.col.toNat < call.stop
  onward : call.stop < t.nCol → (t.c call.row.toNat call.stop).merged = false

/-- **Exactly which accepted calls keep the rows consistent.** -/
theorem spansConsistent_setCellColspan_iff {t : Table} (ht : SpansConsistent t) {call : SpanCall}
    (h : ¬ Rejected t call) : SpansConsistent (spannedTable t call) ↔ SpanFits t call := by
  obtain ⟨hrow, hcol, hstop⟩ := not_rejected h
  have hchain := rowConsistent_iff.mp (ht _ hrow)
  have hiff := hchain.setSpan_iff hcol (spannedTable_setSpan t call)
  simp only [Table.unmerged, Bool.not_eq_true'] at hiff
  constructor
  · intro h'
    obtain ⟨hunmerged, hlt, -, honward⟩ := hiff.mp (rowConsistent_iff.mp (h' _ hrow))
    exact ⟨hunmerged, hlt, honward⟩
  · rintro ⟨hunmerged, hlt, honward⟩ r hr
    by_cases hrr : r = call.row.toNat
    · rw [hrr, rowConsistent_iff]
      exact hiff.mpr ⟨hunmerged, hlt, hstop, honward⟩
    · have hcells := spannedTable_row_ne t call hrr
      have hnext : (spannedTable t call).nextCol r = t.nextCol r := by
        funext j
        rw [Table.nextCol, Table.nextCol, hcells]
      have hunmerged : (spannedTable t call).unmerged r = t.unmerged r := by
        funext j
        rw [Table.unmerged, Table.unmerged, hcells]
      rw [rowConsistent_iff, hnext, hunmerged]
      exact rowConsistent_iff.mp (ht r hr)

/-! ## Runs -/

/-- A call that keeps the rows consistent: it is refused, or its span fits; and its numbers are in
the range of an `int`. -/
structure CallFits (t : Table) (call : SpanCall) : Prop where
  row_lt : call.row.toNat < 2 ^ 31
  stop_le : call.stop ≤ 2 ^ 31
  fits : SpanFits t call

/-- All calls of a sequence are refused or fit where they are made. -/
def CallsFit : Table → List SpanCall → Prop
  | _, [] => True
  | t, call :: calls => (Rejected t call ∨ CallFits t call) ∧
      ∀ i t', setCellColspan t call.row call.col call.cspan = .done (i, t') → CallsFit t' calls

/-- A new table has no spans yet. -/
lemma spansConsistent_utableCreate {nRow nCol : ℕ} {t : Table} (h : utableCreate nRow nCol = .done t) :
    SpansConsistent t := by
  rw [utableCreate] at h
  split_ifs at h with hsize
  cases h
  intro row hrow
  rw [rowConsistent_iff]
  refine ⟨fun _ => rfl, fun c hc _ => ?_⟩
  have hcols : nCol + 1 ≤ (nRow + 1) * (nCol + 1) := Nat.le_mul_of_pos_left _ (Nat.succ_pos nRow)
  have hcol : c < nCol := hc
  have hnext : (c + (1 : UInt64).toNat) % 2 ^ 64 = c + 1 := Nat.mod_eq_of_lt (by
    have hone : (1 : UInt64).toNat = 1 := rfl
    omega)
  refine ⟨?_, ?_, fun j hcj hj => ?_, fun _ => rfl⟩
  · exact (Nat.lt_succ_self c).trans_eq hnext.symm
  · exact hnext.trans_le hcol
  · have hj : j < c + 1 := hj.trans_eq hnext
    omega

/-- One call that is refused or fits. -/
lemma spansConsistent_step {t : Table} (ht : SpansConsistent t) {call : SpanCall}
    (h : Rejected t call ∨ CallFits t call) :
    ∃ i t', setCellColspan t call.row call.col call.cspan = .done (i, t') ∧ SpansConsistent t' := by
  by_cases hrejected : Rejected t call
  · exact ⟨-1, t, if_pos hrejected, ht⟩
  · have hfits := h.resolve_left hrejected
    have hlt := hfits.fits.lt
    have hstop := hfits.stop_le
    exact ⟨0, spannedTable t call, setCellColspan_eq hrejected hfits.row_lt (by omega) hstop,
      (spansConsistent_setCellColspan_iff ht hrejected).mpr hfits.fits⟩

/-- A sequence of calls, from any table with consistent rows. -/
lemma spansConsistent_run {t : Table} (ht : SpansConsistent t) {calls : List SpanCall}
    (h : CallsFit t calls) : ∃ t', runCalls t calls = .done t' ∧ SpansConsistent t' := by
  induction calls generalizing t with
  | nil => exact ⟨t, rfl, ht⟩
  | cons call calls ih =>
      obtain ⟨hcall, hcalls⟩ := h
      obtain ⟨i, t', hrun, ht'⟩ := spansConsistent_step ht hcall
      obtain ⟨t'', hrun', ht''⟩ := ih ht' (hcalls i t' hrun)
      refine ⟨t'', ?_, ht''⟩
      rw [runCalls, hrun]
      exact hrun'

/-- **In every run whose calls are all refused or fit**, every row is consistent in the table it
reaches, and so in every table on its way, which is reached by its first calls. -/
theorem spansConsistent_runCalls (nRow nCol : ℕ) (t : Table) (hcreate : utableCreate nRow nCol = .done t)
    (calls : List SpanCall) (hcalls : CallsFit t calls) :
    ∃ t', runCalls t calls = .done t' ∧ SpansConsistent t' :=
  spansConsistent_run (spansConsistent_utableCreate hcreate) hcalls

/-- Two columns, of which the first spans both. -/
theorem spansConsistent_runCalls_both :
    ∃ t, utableCreate 1 2 = .done t ∧ ∃ t', runCalls t [⟨0, 0, 2⟩] = .done t' ∧ SpansConsistent t' := by
  refine ⟨_, rfl, ?_⟩
  refine spansConsistent_runCalls 1 2 _ rfl [⟨0, 0, 2⟩] ⟨Or.inr ?_, fun _ _ _ => trivial⟩
  exact ⟨by decide, by decide, by decide, by decide, fun h => absurd h (by decide)⟩

/-- A span of no columns is accepted, and the walk over its row does not end. -/
theorem emptySpan_endless :
    ∃ t, utableCreate 1 2 = .done t ∧ ∃ t', runCalls t [⟨0, 1, 0⟩] = .done t' ∧
      ¬ SpansConsistent t' ∧ ∀ fuel, walk (t'.nextCol 0) t'.nCol fuel 0 = .timeout := by
  have hendless {t : Table} (hrow : 0 < t.nRow) (h0 : t.nextCol 0 0 = 1) (h1 : t.nextCol 0 1 = 1)
      (hcol : t.nCol = 2) : ¬ SpansConsistent t ∧ ∀ fuel, walk (t.nextCol 0) t.nCol fuel 0 = .timeout := by
    have htimeout (fuel : ℕ) : walk (t.nextCol 0) t.nCol fuel 0 = .timeout := by
      cases fuel with
      | zero => rfl
      | succ fuel =>
          rw [walk, if_pos (by omega), h0, walk_of_fixed h1 (by omega)]
          rfl
    refine ⟨fun h => ?_, htimeout⟩
    obtain ⟨fuel, hrun⟩ := (h 0 hrow).walked
    rw [htimeout] at hrun
    cases hrun
  exact ⟨_, rfl, _, rfl, hendless (by decide) (by decide) (by decide) rfl⟩

end G7.Utable
