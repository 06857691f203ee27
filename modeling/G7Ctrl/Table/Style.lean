import G7Ctrl.Core.Utf8

/-!
# Border styles (`unicode_tbl.c`)

The characters that the lines of a table are drawn with.

* `TblStyle` — the styles.
* `Borders`, `borders` — the characters of a style.
* **`borders_char`** — each of them is one code point.
-/

namespace G7.Utable

/-- `tblstyle_t` -/
inductive TblStyle
  | simpleV1
  | simpleV2
  | simpleV3
  | simpleV4
  | simpleV5
  | simpleV6
  | asciiV0
  | asciiV4
  | asciiV1
  | asciiV2
  | asciiV3
  | doubleV1
  | doubleV2
  | doubleV3
  | doubleV4
  | singleV1
  | singleV2
  | heavyV1
  | heavyV2
  | heavyV3
  deriving DecidableEq

/-! ## Characters -/

/-- `"\uXXXX"`, for a character with three bytes. -/
def bdl (u : ℕ) : CStr :=
  [(0xE0 + u / 4096).toUInt8, (0x80 + u / 64 % 64).toUInt8, (0x80 + u % 64).toUInt8]

def BDL_DR : CStr := bdl 0x250c
def BDL_DL : CStr := bdl 0x2510
def BDL_UR : CStr := bdl 0x2514
def BDL_UL : CStr := bdl 0x2518
def BDL_VR : CStr := bdl 0x251c
def BDL_VL : CStr := bdl 0x2524
def BDL_DH : CStr := bdl 0x252c
def BDL_UH : CStr := bdl 0x2534
def BDL_V : CStr := bdl 0x2502
def BDL_H : CStr := bdl 0x2500
def BDL_X : CStr := bdl 0x253c

def BDL_DL_H : CStr := bdl 0x2550
def BDL_DL_V : CStr := bdl 0x2551
def BDL_DL_DR : CStr := bdl 0x2554
def BDL_DL_DL : CStr := bdl 0x2557
def BDL_DL_UR : CStr := bdl 0x255a
def BDL_DL_UL : CStr := bdl 0x255d
def BDL_DL_VR : CStr := bdl 0x2560
def BDL_DL_VL : CStr := bdl 0x2563

def BDL_DH_H : CStr := BDL_DL_H
def BDL_DH_DR : CStr := bdl 0x2552
def BDL_DH_DL : CStr := bdl 0x2555
def BDL_DH_UR : CStr := bdl 0x2558
def BDL_DH_UL : CStr := bdl 0x255b
def BDL_DH_VR : CStr := bdl 0x255e
def BDL_DH_VL : CStr := bdl 0x2561
def BDL_DH_DH : CStr := bdl 0x2564
def BDL_DH_UH : CStr := bdl 0x2567
def BDL_DH_X : CStr := bdl 0x256a

def BDL_DV_VR : CStr := bdl 0x255f
def BDL_DV_VL : CStr := bdl 0x2562

def BDL_HL_H : CStr := bdl 0x2501
def BDL_HL_V : CStr := bdl 0x2503
def BDL_HL_DR : CStr := bdl 0x250f
def BDL_HL_DL : CStr := bdl 0x2513
def BDL_HL_UR : CStr := bdl 0x2517
def BDL_HL_UL : CStr := bdl 0x251b
def BDL_HL_VR : CStr := bdl 0x2523
def BDL_HL_VL : CStr := bdl 0x252b

def BDL_HB_H : CStr := BDL_HL_H
def BDL_HB_V : CStr := BDL_HL_V
def BDL_HB_DR : CStr := BDL_HL_DR
def BDL_HB_DL : CStr := BDL_HL_DL
def BDL_HB_UR : CStr := BDL_HL_UR
def BDL_HB_UL : CStr := BDL_HL_UL
def BDL_HB_VR : CStr := bdl 0x2520
def BDL_HB_VL : CStr := bdl 0x2528
def BDL_HB_DH : CStr := bdl 0x252f
def BDL_HB_UH : CStr := bdl 0x2537
def BDL_HB_X : CStr := bdl 0x253f

/-- The strings that `utable_strstroke` chooses for a style. -/
structure Borders where
  topHorizontal : CStr := str " "
  topLeft : CStr := str " "
  topRight : CStr := str " "
  topDown : CStr := str " "
  topMiddleLeft : CStr := str " "
  topMiddleCross : CStr := str " "
  topMiddleHorizontal : CStr := str " "
  topMiddleRight : CStr := str " "
  middleLeft : CStr := str " "
  middleHorizontal : CStr := str " "
  middleRight : CStr := str " "
  middleHorizontalUp : CStr := str " "
  middleHorizontalDown : CStr := str " "
  middleCross : CStr := str " "
  middleVertical : CStr := str " "
  borderVertical : CStr := str " "
  bottomHorizontal : CStr := str " "
  bottomLeft : CStr := str " "
  bottomRight : CStr := str " "
  bottomUp : CStr := str " "
  haveBottomBorder : Bool := true

/-- The ASCII styles without a frame. -/
def asciiOpen (style : TblStyle) : Borders where
  topMiddleHorizontal := str "="
  topMiddleCross := str "+"
  middleVertical := str "|"
  bottomHorizontal := str "-"
  bottomUp := str "+"
  bottomLeft := str "-"
  bottomRight := str "-"
  topMiddleLeft := str "="
  topMiddleRight := str "="
  haveBottomBorder := !decide (style = .asciiV0)

/-- The ASCII styles with one. -/
def asciiFrame (style : TblStyle) : Borders :=
  let topHorizontal := if style = .asciiV3 then str "-" else str "="
  let bottomHorizontal := topHorizontal
  let middleHorizontal := str "-"
  { topHorizontal
    topDown := str "+"
    bottomHorizontal
    bottomUp := str "+"
    topLeft := if style = .asciiV2 then str "+" else topHorizontal
    topRight := if style = .asciiV2 then str "+" else topHorizontal
    bottomLeft := if style = .asciiV2 then str "+" else bottomHorizontal
    bottomRight := if style = .asciiV2 then str "+" else bottomHorizontal
    topMiddleLeft := if style = .asciiV2 then str "+" else topHorizontal
    topMiddleRight := if style = .asciiV2 then str "+" else topHorizontal
    topMiddleCross := str "+"
    topMiddleHorizontal := topHorizontal
    middleHorizontal
    middleVertical := str "|"
    borderVertical := if style = .asciiV2 then str "|" else str " "
    middleLeft := if style = .asciiV2 then str "+" else middleHorizontal
    middleRight := if style = .asciiV2 then str "+" else middleHorizontal
    middleHorizontalUp := str "+"
    middleHorizontalDown := str "+"
    middleCross := str "+" }

/-- The styles with double lines. -/
def doubleLines (style : TblStyle) : Borders :=
  let framed := style = .doubleV2 ∨ style = .doubleV4
  let topHorizontal := BDL_DH_H
  let bottomHorizontal := BDL_DH_H
  let middleHorizontal := BDL_H
  let middleLeft :=
    if framed then BDL_DV_VR else if style = .doubleV3 then BDL_VR else middleHorizontal
  let middleRight :=
    if framed then BDL_DV_VL else if style = .doubleV3 then BDL_VL else middleHorizontal
  let b : Borders :=
    { topHorizontal
      topDown := BDL_DH_DH
      bottomHorizontal
      bottomUp := BDL_DH_UH
      topLeft :=
        if framed then BDL_DL_DR else if style = .doubleV3 then BDL_DH_DR else topHorizontal
      topRight :=
        if framed then BDL_DL_DL else if style = .doubleV3 then BDL_DH_DL else topHorizontal
      bottomLeft :=
        if framed then BDL_DL_UR else if style = .doubleV3 then BDL_DH_UR else bottomHorizontal
      bottomRight :=
        if framed then BDL_DL_UL else if style = .doubleV3 then BDL_DH_UL else bottomHorizontal
      topMiddleLeft :=
        if style = .doubleV2 then BDL_DL_VR
        else if style = .doubleV3 then BDL_DH_VR else topHorizontal
      topMiddleRight :=
        if style = .doubleV2 then BDL_DL_VL
        else if style = .doubleV3 then BDL_DH_VL else topHorizontal
      topMiddleCross := BDL_DH_X
      topMiddleHorizontal := topHorizontal
      borderVertical :=
        if framed then BDL_DL_V else if style = .doubleV3 then BDL_V else str " "
      middleHorizontal
      middleVertical := BDL_V
      middleLeft
      middleRight
      middleHorizontalUp := BDL_UH
      middleHorizontalDown := BDL_DH
      middleCross := BDL_X }
  if style = .doubleV4 then
    { b with
      topMiddleLeft := middleLeft
      topMiddleRight := middleRight
      topMiddleCross := BDL_X
      topMiddleHorizontal := middleHorizontal }
  else b

/-- The styles with single lines. -/
def singleLines (style : TblStyle) : Borders :=
  let topHorizontal := BDL_H
  let middleHorizontal := BDL_H
  { topHorizontal
    topDown := BDL_DH
    bottomHorizontal := topHorizontal
    bottomUp := BDL_UH
    topLeft := if style = .singleV2 then BDL_DR else topHorizontal
    topRight := if style = .singleV2 then BDL_DL else topHorizontal
    bottomLeft := if style = .singleV2 then BDL_UR else topHorizontal
    bottomRight := if style = .singleV2 then BDL_UL else topHorizontal
    topMiddleLeft := if style = .singleV2 then BDL_VR else topHorizontal
    topMiddleRight := if style = .singleV2 then BDL_VL else topHorizontal
    topMiddleCross := BDL_X
    topMiddleHorizontal := topHorizontal
    borderVertical := if style = .singleV2 then BDL_V else str " "
    middleHorizontal
    middleVertical := BDL_V
    middleLeft := if style = .singleV2 then BDL_VR else middleHorizontal
    middleRight := if style = .singleV2 then BDL_VL else middleHorizontal
    middleHorizontalUp := BDL_UH
    middleHorizontalDown := BDL_DH
    middleCross := BDL_X }

/-- The styles with heavy lines. -/
def heavyLines (style : TblStyle) : Borders :=
  let topHorizontal := BDL_HB_H
  let middleHorizontal := BDL_H
  { topHorizontal
    topDown := BDL_HB_DH
    bottomHorizontal := topHorizontal
    bottomUp := BDL_HB_UH
    topLeft := if style = .heavyV1 then topHorizontal else BDL_HB_DR
    topRight := if style = .heavyV1 then topHorizontal else BDL_HB_DL
    bottomLeft := if style = .heavyV1 then topHorizontal else BDL_HB_UR
    bottomRight := if style = .heavyV1 then topHorizontal else BDL_HB_UL
    topMiddleLeft :=
      if style = .heavyV1 then topHorizontal else if style = .heavyV2 then BDL_HL_VR else BDL_HB_VR
    topMiddleRight :=
      if style = .heavyV1 then topHorizontal else if style = .heavyV2 then BDL_HL_VL else BDL_HB_VL
    topMiddleCross := if style = .heavyV3 then BDL_X else BDL_HB_X
    topMiddleHorizontal := if style = .heavyV3 then BDL_H else topHorizontal
    borderVertical := if style = .heavyV1 then str " " else BDL_HB_V
    middleHorizontal
    middleVertical := BDL_V
    middleLeft := if style = .heavyV1 then middleHorizontal else BDL_HB_VR
    middleRight := if style = .heavyV1 then middleHorizontal else BDL_HB_VL
    middleHorizontalUp := BDL_UH
    middleHorizontalDown := BDL_DH
    middleCross := BDL_X }

/-- The styles without a frame. -/
def simpleLines (style : TblStyle) : Borders where
  haveBottomBorder := !decide (style = .simpleV1 ∨ style = .simpleV2 ∨ style = .simpleV3)
  topMiddleCross :=
    if style = .simpleV2 ∨ style = .simpleV5 then BDL_HB_X
    else if style = .simpleV1 ∨ style = .simpleV4 then BDL_X else BDL_DH_X
  topMiddleHorizontal :=
    if style = .simpleV2 ∨ style = .simpleV5 then BDL_HB_H
    else if style = .simpleV1 ∨ style = .simpleV4 then BDL_H else BDL_DL_H
  middleVertical := BDL_V
  bottomHorizontal :=
    if style = .simpleV4 ∨ style = .simpleV5 ∨ style = .simpleV6 then BDL_H else str " "
  bottomUp :=
    if style = .simpleV1 ∨ style = .simpleV2 ∨ style = .simpleV3 then BDL_V else BDL_UH

/-- The strings of a style. -/
def styleBorders (style : TblStyle) : Borders :=
  match style with
  | .asciiV0 | .asciiV4 => asciiOpen style
  | .asciiV2 | .asciiV1 | .asciiV3 => asciiFrame style
  | .doubleV1 | .doubleV2 | .doubleV3 | .doubleV4 => doubleLines style
  | .singleV1 | .singleV2 => singleLines style
  | .heavyV1 | .heavyV2 | .heavyV3 => heavyLines style
  | .simpleV1 | .simpleV2 | .simpleV3 | .simpleV4 | .simpleV5 | .simpleV6 => simpleLines style

/-- The strings of a style, without the inner vertical lines if the table does not have them. -/
def borders (style : TblStyle) (interiorV : Bool) : Borders :=
  let b := styleBorders style
  if interiorV then b
  else
    { b with
      topDown := b.topHorizontal
      topMiddleCross := b.topMiddleHorizontal
      bottomUp := b.bottomHorizontal
      middleVertical := str " "
      middleHorizontalUp := b.middleHorizontal
      middleHorizontalDown := b.middleHorizontal
      middleCross := b.middleHorizontal }

/-! ## Each is one code point -/

/-- One code point that is no line feed and has no byte of `"#ERR#"`. -/
def isMark (s : CStr) : Bool :=
  isCodePoint s && s.all fun c => c != lf && c != 0 && !(str "#ERR#").contains c

/-- The strings of a style, as a list. -/
def Borders.all (b : Borders) : List CStr :=
  [b.topHorizontal, b.topLeft, b.topRight, b.topDown, b.topMiddleLeft, b.topMiddleCross,
    b.topMiddleHorizontal, b.topMiddleRight, b.middleLeft, b.middleHorizontal, b.middleRight,
    b.middleHorizontalUp, b.middleHorizontalDown, b.middleCross, b.middleVertical, b.borderVertical,
    b.bottomHorizontal, b.bottomLeft, b.bottomRight, b.bottomUp]

/-- **Every string of every style** is one code point. -/
theorem isMark_borders (style : TblStyle) (interiorV : Bool) {s : CStr}
    (hs : s ∈ (borders style interiorV).all) : isMark s = true := by
  have hall : (borders style interiorV).all.all isMark = true := by
    cases style <;> cases interiorV <;> decide +kernel
  exact List.all_eq_true.mp hall s hs

end G7.Utable
