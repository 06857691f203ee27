import G7Ctrl.Table.Colspan
import G7Ctrl.Table.Output
import G7Ctrl.Table.Style
import G7Ctrl.Xstr.Multibyte

/-!
# Drawing a table (`utable_strstroke`)

The lines of a table: the border on top, for every row its cells and what is below them, and the
border at the bottom.  A line below a row has a mark where a cell of the row above or below ends.

* `prepare` — the widths of the columns and the title row.
* `cutText`, `alignCell`, `drawRow` — the cells of a row.
* `markVerticals`, `strokeVerticals` — the marks of a line and the line.
* `strokeTable` — all lines, `utableStrstroke` — the function.
-/

namespace G7.Utable

/-! ## Columns and title -/

namespace Table

/-- `colwidth[c]`.  The array has one entry more than there are columns, which is never set. -/
def width (t : Table) (c : ℕ) : ℕ := if c < t.nCol then (t.colwidth c).toNat else 0

/-- An access to `colwidth[c]`. -/
def widthAt (t : Table) (c : ℕ) : Checked ℕ := if c ≤ t.nCol then .done (t.width c) else .fault

/-- `_utable_get_cp` -/
def getCp (t : Table) (row col : ℕ) : Checked (UInt64 × UInt64) :=
  if (t.c row col).merged then
    let pRow := toSize (t.c row col).pRow
    let pCol := toSize (t.c row col).pCol
    if pRow < t.nRow ∧ pCol < t.nCol then .done ((t.c pRow pCol).lpad, (t.c pRow pCol).rpad)
    else .fault
  else .done ((t.c row col).lpad, (t.c row col).rpad)

end Table

/-- `utf8len` -/
def utf8len (s : Option CStr) : ℕ := (cstr (s.getD [])).countP isutf

/-- The loop over the rows of `_utable_set_autocolwidth`, with `k` rounds left. -/
def autoWidthLoop (t : Table) (c : ℕ) : ℕ → ℕ → UInt64 → Checked UInt64
  | 0, _, w => return w
  | k + 1, r, w => do
      let (lpad, rpad) ← t.getCp r c
      let width := UInt64.ofNat (utf8len (t.c r c).t) + lpad + rpad
      autoWidthLoop t c k (r + 1) (if width > w then width else w)

/-- The loop over the columns of `_utable_set_autocolwidth`, with `k` rounds left. -/
def autocolwidthLoop : ℕ → ℕ → Table → Checked Table
  | 0, _, t => return t
  | k + 1, c, t =>
      if t.colwidth c = 0 then do
        let startrow := if t.title.isSome && t.titleCopied then 1 else 0
        let w ← autoWidthLoop t c (t.nRow - startrow) startrow 0
        let w := max w (t.mincolwidth c)
        autocolwidthLoop k (c + 1)
          { t with colwidth := Function.update t.colwidth c (if w = 0 then 1 else w) }
      else autocolwidthLoop k (c + 1) t

/-- `_utable_set_autocolwidth` -/
def setAutocolwidth (t : Table) : Checked Table := autocolwidthLoop t.nCol 0 t

/-- A cell after `memset`. -/
def zeroCell : TCell where
  cb := none
  t := none
  halign := .leftAlign
  pRow := 0
  pCol := 0
  merged := false
  cspan := 0
  lpad := 0
  rpad := 0

/-- The title as the top row. -/
def insertTitle (t : Table) (title : CStr) : Checked Table :=
  if t.titleCopied then return t.setCell 0 0 fun cell => { cell with t := some title }
  else do
    let t := { t with c := fun r c => if r = 0 then zeroCell else t.c (r - 1) c }
    let t := t.setCell 0 0 fun cell => { cell with t := some title, halign := .centerAlign }
    let (_, t) ← setCellColspan t 0 0 (UInt64.ofNat t.nCol)
    return { t with nRow := t.nRow + 1, titleCopied := true }

/-- The beginning of `utable_strstroke`, which changes the table. -/
def prepare (t : Table) : Checked Table := do
  let t ← setAutocolwidth t
  match t.title with
  | none => return t
  | some title => insertTitle t title

/-- `totwidth` -/
def Table.totwidth (t : Table) : ℕ :=
  ((List.range t.nCol).map fun i => (t.colwidth i).toNat + 1).sum % 2 ^ 64

/-! ## Cells -/

/-- `for (cs = …; cs < cspan; cs++) w += colwidth[c + cs] + 1;`, with `k` rounds left. -/
def spanWidth (t : Table) (c : ℕ) : ℕ → ℕ → ℤ → Checked ℤ
  | 0, _, w => return w
  | k + 1, cs, w => do
      let width ← t.widthAt (c + cs)
      spanWidth t c k (cs + 1) (toInt32 (w + width + 1))

/-- What `"%s"` prints for the text of a cell, after its callback. -/
def cellText (t : Table) (row c : ℕ) : CStr :=
  let cell := t.c row c
  let printed := match cell.t with
    | some s => cstr s
    | none => str "(null)"
  match cell.cb with
  | none => printed
  | some cb =>
      match cb (toInt32 ((row : ℤ) - if t.title.isSome then 1 else 0)) (toInt32 c) with
      | some s => cstr s
      | none => printed

/-- `MAXPADCHARS` -/
def maxPadChars : ℕ := 256

/-- Some blanks. -/
def blanks (n : ℕ) : CStr := List.replicate n (ch ' ')

/-- `lpadstr` and `rpadstr` after they are filled and ended with a NUL. -/
def padString (n : ℕ) : Checked CStr := if n < maxPadChars then .done (blanks n) else .fault

/-- `rpadstr` after `memset` and the loop that fills it. -/
def fillPad (n : ℕ) : Checked (List Byte) :=
  if n ≤ maxPadChars then .done (blanks n ++ List.replicate (maxPadChars - n) 0) else .fault

/-- `xstrlcpy`, to an array of `room` bytes. -/
def copyTo (room : ℕ) (src : CStr) (size : ℕ) : Checked CStr :=
  if (xstrlcpy src size).length < room then .done (xstrlcpy src size) else .fault

/-- `txtbuff`: the text of a cell with its padding, cut to the width of the cell. -/
def cutText (cutInPadding : Bool) (lpad rpad : ℕ) (txt : CStr) (w : ℤ) : Checked CStr := do
  let lpadstr ← padString lpad
  let rpadstr ← padString rpad
  if cutInPadding then do
    let txtbuff2 := (lpadstr ++ txt ++ rpadstr).take 1023
    let len ← xmbOffsetMem (cblock txtbuff2) w
    copyTo 512 txtbuff2 (len + 1)
  else do
    let txtbuff2 := (lpadstr ++ txt).take 1023
    let len ← xmbOffsetMem (cblock txtbuff2) (toInt32 (w - rpad))
    let txtbuff ← copyTo 512 txtbuff2 (len + 1)
    let txtbuff2 := (txtbuff ++ rpadstr).take 1023
    let len ← xmbOffsetMem (cblock txtbuff2) w
    copyTo 512 txtbuff2 (len + 1 + 1)

/-- The text with blanks on the sides that the alignment asks for. -/
def alignCell (halign : HAlign) (txtbuff : CStr) (w : ℤ) : Checked CStr := do
  let len := utf8len (some txtbuff)
  let rpadstr ← fillPad (w - len).toNat
  match halign with
  | .rightAlign => do
      let rpadstr ← readStr rpadstr
      return rpadstr ++ txtbuff
  | .leftAlign => do
      let rpadstr ← readStr rpadstr
      return txtbuff ++ rpadstr
  | .centerAlign => do
      let wHalf := w.tdiv 2
      let lenHalf := len / 2
      let rpadstr ← fillPad (toInt32 (w - wHalf + lenHalf - len)).toNat
      let rpadstr ← readStr rpadstr
      return blanks (wHalf - lenHalf).natAbs ++ txtbuff ++ rpadstr

/-- The text of a cell between its borders. -/
def drawCell (cutInPadding : Bool) (t : Table) (row c : ℕ) : Checked CStr := do
  let cell := t.c row c
  let (lpad, rpad) ← t.getCp row c
  let w ← spanWidth t c cell.cspan.toNat 0 0
  let txtbuff ← cutText cutInPadding lpad.toNat rpad.toNat (cellText t row c) (w - 1)
  alignCell cell.halign txtbuff (w - 1)

/-- The loop of `_utable_draw_cellcontent_row`.  Its columns are different as long as it gets on, so
that it either ends after one round for each of them or never. -/
def drawRow (cutInPadding : Bool) (t : Table) (row : ℕ) (midleft midright midvert : CStr) :
    ℕ → ℕ → Traced Action Unit
  | 0, _ => .lift .timeout
  | fuel + 1, c =>
      if c < t.nCol then do
        let text ← .lift (drawCell cutInPadding t row c)
        put ((if c = 0 then midleft else midvert) ++ text) 0
        drawRow cutInPadding t row midleft midright midvert fuel (t.nextCol row c)
      else put (midright ++ [lf]) 0

/-! ## Lines -/

/-- `eval[i] |= mark`, for the last column of `absw` ones. -/
def markAt (eval : List ℕ) (absw : ℕ) (mark : ℕ) : Checked (List ℕ) :=
  if absw = 0 then .fault
  else do
    let e ← load eval (absw - 1)
    store eval (absw - 1) (e ||| mark)

/-- The loop of `_utable_mark_verticals`. -/
def markLoop (t : Table) (mark row : ℕ) : ℕ → ℕ → ℕ → List ℕ → Checked (List ℕ)
  | 0, _, _, _ => .timeout
  | fuel + 1, c, absw, eval =>
      if c < t.nCol then do
        let w ← spanWidth t c (t.c row c).cspan.toNat 0 0
        let absw := Table.toSize (absw + w)
        let eval ← markAt eval absw mark
        markLoop t mark row fuel (t.nextCol row c) absw eval
      else return eval

/-- `_utable_mark_verticals` -/
def markVerticals (t : Table) (eval : List ℕ) (mark row : ℕ) : Checked (List ℕ) :=
  markLoop t mark row (t.nCol + 1) 0 0 eval

/-- The string for a mark; `none` is `NULL`. -/
def strokeOf (s0 s1 s2 s3 : Option CStr) (e : ℕ) : CStr :=
  let s := if e = 0 then s0 else if e = 1 then s1 else if e = 2 then s2 else s3
  s.getD (str "#ERR#")

/-- The loop of `_utable_stroke_verticals`, with `k` rounds left. -/
def strokeLoop (eval : List ℕ) (stroke : ℕ → CStr) : ℕ → ℕ → Traced Action Unit
  | 0, _ => return ()
  | k + 1, i => do
      let e ← .lift (load eval i)
      put (stroke e) 0
      strokeLoop eval stroke k (i + 1)

/-- `_utable_stroke_verticals` -/
def strokeVerticals (totwidth : ℕ) (eval : List ℕ) (s0 s1 s2 s3 : Option CStr) :
    Traced Action Unit := do
  strokeLoop eval (strokeOf s0 s1 s2 s3) (totwidth - 1) 0
  checkExit

/-- A line of marks between two border characters, `extra` more subtracted at its end. -/
def strokeLine (totwidth : ℕ) (eval : List ℕ) (left right : CStr) (s0 s1 s2 s3 : Option CStr)
    (extra : ℕ) : Traced Action Unit := do
  put left 0
  checkReturn
  strokeVerticals totwidth eval s0 s1 s2 s3
  checkReturn
  put (right ++ [lf]) extra
  checkReturn

/-- The marks of the line below a row. -/
def marksBelow (t : Table) (totwidth r : ℕ) : Checked (List ℕ) := do
  let eval ← markVerticals t (List.replicate totwidth 0) 2 r
  if r < t.nRow - 1 then markVerticals t eval 1 (r + 1) else return eval

/-- The line below a row, if there is one. -/
def strokeBelow (t : Table) (b : Borders) (totwidth r : ℕ) (eval : List ℕ) : Traced Action Unit :=
  let middle := strokeLine totwidth eval b.middleLeft b.middleRight (some b.middleHorizontal)
    (some b.middleHorizontalDown) (some b.middleHorizontalUp) (some b.middleCross) 0
  if t.headerLine ∧ (r = 0 ∧ t.title = none ∨ r = 1 ∧ t.title ≠ none) then
    -- the length of the right end is subtracted twice
    strokeLine totwidth eval b.topMiddleLeft b.topMiddleRight (some b.topMiddleHorizontal) none none
      (some b.topMiddleCross) (b.topMiddleRight ++ [lf]).length
  else if r = 0 ∧ t.title ≠ none then
    if t.titleStyle = .line then middle else return ()
  else if t.interiorH then
    if r < t.nRow - 1 then middle else return ()
  else return ()

/-- The rows, with `k` of them left.  The result is the marks of the last line. -/
def strokeRows (cutInPadding : Bool) (t : Table) (b : Borders) (totwidth : ℕ) :
    ℕ → ℕ → List ℕ → Traced Action (List ℕ)
  | 0, _, eval => return eval
  | k + 1, r, _ => do
      drawRow cutInPadding t r b.borderVertical b.borderVertical b.middleVertical (t.nCol + 1) 0
      checkReturn
      let eval ← .lift (marksBelow t totwidth r)
      strokeBelow t b totwidth r eval
      strokeRows cutInPadding t b totwidth k (r + 1) eval

/-- The line at the top, and its marks. -/
def strokeTop (t : Table) (b : Borders) (totwidth : ℕ) : Traced Action (List ℕ) := do
  put b.topLeft 0
  checkReturn
  let eval ← .lift (if t.title.isSome then .done (List.replicate totwidth 0)
    else markVerticals t (List.replicate totwidth 0) 1 0)
  strokeVerticals totwidth eval (some b.topHorizontal)
    (if t.title.isSome then none else some b.topDown) none none
  checkReturn
  put (b.topRight ++ [lf]) 0
  checkReturn
  return eval

/-- The line at the bottom.  One more than the length of its right end is subtracted. -/
def strokeBottom (b : Borders) (totwidth : ℕ) (eval : List ℕ) : Traced Action Unit := do
  put b.bottomLeft 0
  checkReturn
  strokeVerticals totwidth eval (some b.bottomHorizontal) (some b.bottomUp) (some b.bottomUp) none
  put (b.bottomRight ++ [lf]) 1
  checkReturn

/-- All lines of a table that is prepared. -/
def strokeTable (cutInPadding : Bool) (t : Table) (style : TblStyle) : Traced Action Unit := do
  let b := borders style t.interiorV
  let eval ← strokeTop t b t.totwidth
  let eval ← strokeRows cutInPadding t b t.totwidth t.nRow 0 eval
  if b.haveBottomBorder then strokeBottom b t.totwidth eval else return ()

/-- `utable_strstroke`, for a buffer of `bufflen` bytes.  An array `eval` of 2³¹ numbers or more has
no model. -/
def utableStrstroke (cutInPadding : Bool) (t : Table) (buff : List Byte) (style : TblStyle) :
    Checked Outcome := do
  let t ← prepare t
  if t.totwidth = 0 then return .ret (-1) buff
  else if t.totwidth < 2 ^ 31 then do
    let buff ← store buff 0 0
    let run := strokeTable cutInPadding t style
    exec run.trace run.result buff (toInt32 buff.length)
  else .fault

end G7.Utable
