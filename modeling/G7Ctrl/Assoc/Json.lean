import G7Ctrl.Assoc.Array
import G7Ctrl.Xstr.Copy

/-!
# Export and import of the associative array (`assocarray.c`)

The array is written as a text in JSON and read back.  A string is written between quotes as it is;
the reader takes a quote behind a backslash for a part of the string, and keeps the backslash.

* `assocExportToJson` — the text.
* `parseStr`, `parseNumber`, `parseChk`, `parsePairWith`, `parseVector` — the parts of the reader,
  each with what is left of the text, also where it fails.
* `assocImportFromJson` — the reader.

A parser function is given the size of the buffer besides its `maxlen`; writing behind the buffer is
a fault.
-/

namespace G7

/-- `EXPORT_ID_NAME` -/
def exportIdName : CStr := str "_id"

/-- `EXPORT_ID_NAME_VAL` -/
def exportIdNameVal : CStr := str "assoc_array"

/-- `EXPORT_PAIRS_KEY` -/
def exportPairsKey : CStr := str "pairs"

/-! ## Export -/

/-- `xvstrncat`, with the formatted text. -/
def xvstrncat (dst : CStr) (size : ℕ) (text : CStr) : CStr :=
  xstrlcat dst (snprintf (1024 * 50) text) size

/-- The text before the pairs. -/
def exportHeader (numValues maxValues : ℕ) : CStr :=
  str "\x7b\n  \"" ++ exportIdName ++ str "\":\"" ++ exportIdNameVal ++ str "\",\"num_values\":" ++
    dec numValues ++ str ",\"max_values\":" ++ dec maxValues ++ str ",\n   \"" ++
    exportPairsKey ++ str "\":[\n"

/-- The text of a pair, with its end. -/
def exportPair (name value ending : CStr) : CStr :=
  str "    \x7b \"" ++ name ++ str "\" : \"" ++ value ++ ending

/-- A pair of the array is written. -/
def exportCell (a : List AssocPair) (buff : CStr) (maxlen i : ℕ) (ending : CStr) :
    Checked CStr := do
  let pair ← load a i
  let name ← pair.name.deref
  let value ← pair.value.deref
  return xvstrncat buff maxlen (exportPair name value ending)

/-- The loop over the pairs before the last one. -/
def exportLoop (a : List AssocPair) (maxlen : ℕ) : ℕ → ℕ → CStr → Checked CStr
  | 0, _, buff => return buff
  | left + 1, i, buff => do
      let buff ← exportCell a buff maxlen i (str "\" \x7d,\n")
      exportLoop a maxlen left (i + 1) buff

/-- The pairs, the last one with another end. -/
def exportPairs (a : AssocArray) (maxlen : ℕ) (buff : CStr) : Checked CStr :=
  if a.numValues > 0 then do
    let buff ← exportLoop a.a maxlen (a.numValues - 1) 0 buff
    exportCell a.a buff maxlen (a.numValues - 1) (str "\" \x7d\n")
  else return buff

/-- `assoc_export_to_json`: the return value and the text in the buffer. -/
def assocExportToJson (a : AssocArray) (maxlen : ℕ) : Checked (ℤ × CStr) := do
  let buff ← exportPairs a maxlen (snprintf maxlen (exportHeader a.numValues a.maxValues))
  return (0, xvstrncat buff maxlen (str "  ]\n\x7d\n"))

/-! ## The parts of the reader -/

/-- `_parse_ss` -/
def parseSs (s : CStr) : CStr := s.dropWhile fun c => c = 32 ∨ c = 9 ∨ c = lf

/-- `_parse_chk`, with what is left. -/
def parseChk (c : Byte) (s : CStr) : Bool × CStr :=
  match parseSs s with
  | [] => (decide (c = 0), [])
  | d :: ds => if d = c then (true, ds) else (false, d :: ds)

/-- `*val++ = c` in a buffer of `size` bytes. -/
def putVal (size : ℕ) (val : CStr) (c : Byte) : Checked CStr :=
  if val.length < size then .done (val ++ [c]) else .fault

/-- `*val = '\0'` behind the loop: the string, or `none` where the buffer was too small. -/
def endVal (size : ℕ) (s : CStr) (maxlen : ℕ) (val : CStr) : Checked (Option CStr × CStr) :=
  if maxlen = 0 then return (none, s)
  else if val.length < size then return (some val, s) else .fault

/-- The loop of `_parse_str`, with what is in the buffer so far. -/
def parseStrLoop (size : ℕ) : CStr → ℕ → CStr → Checked (Option CStr × CStr)
  | [], maxlen, val => endVal size [] maxlen val
  | c :: cs, maxlen, val =>
      if maxlen ≤ 1 then endVal size (c :: cs) maxlen val
      else if c = ch '\\' ∧ cs.head? = some (ch '"') then
        if maxlen < 3 then return (none, c :: cs)
        else do
          let val ← putVal size val c
          match cs with
          | [] => return (none, [])
          | d :: ds => do
              let val ← putVal size val d
              parseStrLoop size ds (maxlen - 2) val
      else if c = ch '"' then endVal size cs maxlen val
      else do
        let val ← putVal size val c
        parseStrLoop size cs (maxlen - 1) val

/-- `_parse_str`: the string, or `none` for the return value -1, and what is left. -/
def parseStr (size maxlen : ℕ) (s : CStr) : Checked (Option CStr × CStr) :=
  match parseSs s with
  | [] => return (none, [])
  | c :: cs =>
      if c ≠ ch '"' then return (none, c :: cs)
      else if size = 0 then .fault
      else parseStrLoop size cs maxlen []

/-- The loop of `_parse_number`. -/
def parseNumberLoop (size : ℕ) : CStr → ℕ → CStr → Checked (Option CStr × CStr)
  | [], _, val => if val.length < size then return (some val, []) else .fault
  | c :: cs, maxlen, val =>
      if 1 < maxlen ∧ ((ch '0' ≤ c ∧ c ≤ ch '9') ∨ c = ch '.') then do
        let val ← putVal size val c
        parseNumberLoop size cs (maxlen - 1) val
      else if val.length < size then return (some val, c :: cs) else .fault

/-- `_parse_number` -/
def parseNumber (size maxlen : ℕ) (s : CStr) : Checked (Option CStr × CStr) :=
  if size = 0 then .fault
  else match parseSs s with
    | [] => return (none, [])
    | c :: cs =>
        if c < ch '0' ∨ ch '9' < c then return (none, c :: cs)
        else parseNumberLoop size (c :: cs) maxlen []

/-- A name, a colon and a value. -/
def parsePairWith (value : CStr → Checked (Option CStr × CStr)) (nameSize maxlen : ℕ) (s : CStr) :
    Checked (Option (CStr × CStr) × CStr) := do
  let (name, s) ← parseStr nameSize maxlen s
  match name with
  | none => return (none, s)
  | some name =>
      let (colon, s) := parseChk (ch ':') s
      if colon = false then return (none, s)
      else do
        let (val, s) ← value s
        return (val.map fun val => (name, val), s)

/-- `_parse_pair_number` -/
def parsePairNumber (nameSize valSize maxlen : ℕ) (s : CStr) :
    Checked (Option (CStr × CStr) × CStr) :=
  parsePairWith (parseNumber valSize maxlen) nameSize maxlen s

/-- `_parse_pair_str` -/
def parsePairStr (nameSize valSize maxlen : ℕ) (s : CStr) :
    Checked (Option (CStr × CStr) × CStr) :=
  parsePairWith (parseStr valSize maxlen) nameSize maxlen s

/-- `_parse_pair`: the value is a string or a number, by its first character. -/
def parsePair (nameSize valSize maxlen : ℕ) (s : CStr) : Checked (Option (CStr × CStr) × CStr) :=
  parsePairWith (fun s => if (parseSs s).head? = some (ch '"') then parseStr valSize maxlen s
    else parseNumber valSize maxlen s) nameSize maxlen s

/-- The loop of `_parse_vector`: `rc`, what is left, and the array.  Every round reads a character. -/
def parseVectorLoop : ℕ → CStr → AssocArray → Checked (ℤ × CStr × AssocArray)
  | 0, s, a => if s = [] then return (0, s, a) else .timeout
  | left + 1, s, a =>
      if s = [] then return (0, s, a)
      else
        let (opening, s) := parseChk (ch '\x7b') s
        if opening = false then return (-1, s, a)
        else do
          let (pair, s) ← parsePair 1024 (10 * 1024) (10 * 1024) s
          match pair with
          | none => return (-1, s, a)
          | some (name, value) =>
              let (closing, s) := parseChk (ch '\x7d') s
              if closing = false then return (-1, s, a)
              else do
                let (_, a) ← assocPut putDepth a name value
                let (comma, s) := parseChk (ch ',') s
                if comma = false then return (0, s, a) else parseVectorLoop left s a

/-- `_parse_vector` -/
def parseVector (s : CStr) (a : AssocArray) : Checked (ℤ × CStr × AssocArray) :=
  let (opening, s) := parseChk (ch '[') s
  if opening = false then return (-1, s, a)
  else do
    let (rc, s, a) ← parseVectorLoop s.length s a
    if rc = -1 then return (-1, s, a)
    else
      let (closing, s) := parseChk (ch ']') s
      return (if closing then 0 else -1, s, a)

/-- `assoc_import_from_json` up to the colon behind `"pairs"`: what is left, or `none` where it
returns -1. -/
def importHeader (s : CStr) : Checked (Option CStr) :=
  let bufsize := 10 * 1024
  let (opening, s) := parseChk (ch '\x7b') s
  if opening = false then return none
  else do
    let (idPair, s) ← parsePairStr bufsize bufsize bufsize s
    if idPair ≠ some (exportIdName, exportIdNameVal) then return none
    else
      let (comma, s) := parseChk (ch ',') s
      if comma = false then return none
      else do
        let (numValues, s) ← parsePairNumber bufsize bufsize bufsize s
        if numValues = none then return none
        else
          let (comma, s) := parseChk (ch ',') s
          if comma = false then return none
          else do
            let (maxValues, s) ← parsePairNumber bufsize bufsize bufsize s
            if maxValues = none then return none
            else
              let (comma, s) := parseChk (ch ',') s
              if comma = false then return none
              else do
                let (pairsKey, s) ← parseStr 64 64 s
                if pairsKey ≠ some exportPairsKey then return none
                else
                  let (colon, s) := parseChk (ch ':') s
                  return if colon then some s else none

/-- `assoc_import_from_json`: the return value and the array.  What `_parse_vector` returns is not
looked at. -/
def assocImportFromJson (a : AssocArray) (buf : CStr) : Checked (ℤ × AssocArray) := do
  let header ← importHeader buf
  match header with
  | none => return (-1, a)
  | some s => do
      let (_, s, a) ← parseVector s a
      return (if (parseChk (ch '\x7d') s).1 then 0 else -1, a)

end G7
