import G7Ctrl.Core.Memory
import G7Ctrl.Xstr.Number

/-!
# Tables (`libunitbl/unicode_tbl.c`)

The table and its cells.  A cell can span several columns; the cells behind it in its row are then
merged with it.  The cells are a matrix with one row more than the table has, for a title.

* `TCell`, `Table` — a cell and the table.
* `utableCreate` — a new table.
* `Table.rcChk`, `Table.getCell` — the access to a cell.
-/

namespace G7.Utable

/-- `halign_t` -/
inductive HAlign
  | leftAlign
  | rightAlign
  | centerAlign
  deriving DecidableEq

/-- `titlestyle_t` -/
inductive TitleStyle
  | line
  | noLine
  deriving DecidableEq

/-- `tcell_t`.  The callback is applied to the tag of the table. -/
structure TCell where
  cb : Option (ℤ → ℤ → Option CStr)
  t : Option CStr
  halign : HAlign
  pRow : ℤ
  pCol : ℤ
  merged : Bool
  cspan : UInt64
  lpad : UInt64
  rpad : UInt64

/-- `table_t` -/
structure Table where
  nRow : ℕ
  nCol : ℕ
  nCol_lt : nCol < 2 ^ 64
  c : ℕ → ℕ → TCell
  colwidth : ℕ → UInt64
  mincolwidth : ℕ → UInt64
  title : Option CStr
  titleCopied : Bool
  titleStyle : TitleStyle
  interiorV : Bool
  interiorH : Bool
  headerLine : Bool

/-- `_utable_init_cell`, on a cell that is all zero. -/
def utableInitCell (row col : ℕ) : TCell where
  cb := none
  t := none
  halign := .leftAlign
  pRow := toInt32 row
  pCol := toInt32 col
  merged := false
  cspan := 1
  lpad := 0
  rpad := 0

/-- `utable_create`.  If the number of cells wraps, the block is too small for them. -/
def utableCreate (nRow nCol : ℕ) : Checked Table :=
  if h : (nRow + 1) * (nCol + 1) < 2 ^ 64 then
    .done {
      nRow := nRow
      nCol := nCol
      nCol_lt := by
        have hcols : nCol + 1 ≤ (nRow + 1) * (nCol + 1) :=
          Nat.le_mul_of_pos_left _ (Nat.succ_pos nRow)
        omega
      c := utableInitCell
      colwidth := fun _ => 0
      mincolwidth := fun _ => 0
      title := none
      titleCopied := false
      titleStyle := .line
      interiorV := false
      interiorH := false
      headerLine := true }
  else .fault

namespace Table

/-- `_utable_rc_chk`: there is no such cell. -/
def rcChk (t : Table) (row col : ℕ) : Bool := row ≥ t.nRow || col ≥ t.nCol

/-- Conversion of an `int` to `size_t`. -/
def toSize (i : ℤ) : ℕ := (i % 2 ^ 64).toNat

/-- `_utable_get_cell`, for a caller that uses the pointer without a check: the place of the cell. -/
def getCell (t : Table) (row col : ℤ) : Checked (ℕ × ℕ) :=
  if t.rcChk (toSize row) (toSize col) then .fault else .done (toSize row, toSize col)

/-- A table with another cell at a place. -/
def setCell (t : Table) (row col : ℕ) (f : TCell → TCell) : Table :=
  { t with c := fun r c => if r = row ∧ c = col then f (t.c r c) else t.c r c }

variable (t : Table)

@[simp] lemma setCell_nCol (row col : ℕ) (f : TCell → TCell) : (t.setCell row col f).nCol = t.nCol :=
  rfl

lemma setCell_c_self (row col : ℕ) (f : TCell → TCell) :
    (t.setCell row col f).c row col = f (t.c row col) := if_pos ⟨rfl, rfl⟩

lemma setCell_c_ne {row col r c : ℕ} (f : TCell → TCell) (h : ¬ (r = row ∧ c = col)) :
    (t.setCell row col f).c r c = t.c r c := if_neg h

lemma toSize_toInt32 {n : ℕ} (h : n < 2 ^ 31) : toSize (toInt32 n) = n := by
  rw [toInt32_of_lt (Int.natCast_nonneg n) (by omega), toSize]
  omega

/-- **Inside the table and the range of an `int`** the cell is the one that is meant. -/
lemma getCell_eq {row col : ℕ} (hrow : row < t.nRow) (hcol : col < t.nCol) (hrow' : row < 2 ^ 31)
    (hcol' : col < 2 ^ 31) : t.getCell (toInt32 row) (toInt32 col) = .done (row, col) := by
  have hin : ¬ t.rcChk row col = true := by
    simp only [rcChk, Bool.or_eq_true, decide_eq_true_eq]
    omega
  rw [getCell, toSize_toInt32 hrow', toSize_toInt32 hcol', if_neg hin]

end Table

end G7.Utable
