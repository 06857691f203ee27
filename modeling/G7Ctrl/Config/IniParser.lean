import G7Ctrl.Core.Scanf
import G7Ctrl.Config.Dictionary
import G7Ctrl.Xstr.Fold
import G7Ctrl.Xstr.Number
import G7Ctrl.Geocache.CacheFile

/-!
# The parser of the configuration file (`libiniparser/iniparser.c`)

A file is read line by line; a line that ends in a backslash goes on in the next one.  Each line is
a section header, a setting, a comment, empty or an error, and what it is is found out by a sequence
of `sscanf` formats.

* `iniparserLine`, `iniparserLoad` — the parser, with the dictionary it fills.
* `iniparserDumpIni` — the file that is written for a dictionary.
* `iniparserGetstring` — what is read from a dictionary.
* **`loadLoop_line`** — a line is read to its end, wherever it was continued.
-/

namespace G7

/-- `ASCIILINESZ` -/
def asciilinesz : ℕ := 1024

/-- `strlwc` -/
def strlwc (s : CStr) : CStr := (s.take asciilinesz).map tolower

/-- `strstrip` -/
def strstrip (s : CStr) : CStr := strip isSpace s

/-! ## A line -/

/-- The value of `iniparser_line`, with what it leaves in its arguments. -/
inductive IniStatus where
  | error
  | empty
  | comment
  | section (name : CStr)
  | value (key value : CStr)
  deriving DecidableEq

/-- `%[^=] = `, and what comes behind it. -/
def iniFormat (items : List (ScanItem Byte)) : List (ScanItem Byte) :=
  .set (· ≠ ch '=') :: .blank :: .literal (ch '=') :: .blank :: items

/-- `"%[^=] = \"%[^\"]\""` and `"%[^=] = '%[^\']'"` -/
def quotedFormat (quote : Byte) : List (ScanItem Byte) :=
  iniFormat [.literal quote, .set (· ≠ quote), .literal quote]

/-- The characters a comment begins with behind a value. -/
def isCommentStart (c : Byte) : Bool := c = ch ';' || c = ch '#'

/-- The other characters, `[^;#]`. -/
def isBareChar (c : Byte) : Bool := !isCommentStart c

/-- `"%[^=] = %[^;#]"` -/
def bareFormat : List (ScanItem Byte) := iniFormat [.set isBareChar]

/-- `"%[^=] = %[;#]"` -/
def commentedFormat : List (ScanItem Byte) := iniFormat [.set isCommentStart]

/-- `"%[^=] %[=]"` -/
def valuelessFormat : List (ScanItem Byte) := [.set (· ≠ ch '='), .blank, .set (· = ch '=')]

/-- The text between the quotes when the value is `""` or `''`. -/
def unquoted (value : CStr) : CStr :=
  if value = str "\"\"" ∨ value = str "''" then [] else value

/-- A setting, with a value or without one. -/
def scanSetting (line : CStr) : Option (CStr × CStr) :=
  match (scanPair isSpace (quotedFormat (ch '"')) line).or
      ((scanPair isSpace (quotedFormat (ch '\'')) line).or (scanPair isSpace bareFormat line)) with
  | some (key, value) => some (strlwc (strstrip key), unquoted (strstrip value))
  | none =>
      ((scanPair isSpace commentedFormat line).or (scanPair isSpace valuelessFormat line)).map
        fun p => (strlwc (strstrip p.1), [])

/-- `iniparser_line`; `name` is what the argument `section` has before. -/
def iniparserLine (inputLine name : CStr) : IniStatus :=
  let line := strstrip inputLine
  if line = [] then .empty
  else if line.head? = some (ch '#') then .comment
  else if line.head? = some (ch '[') ∧ line.getLast? = some (ch ']') then
    .section (strlwc (strstrip
      ((scan isSpace [.literal (ch '['), .set (· ≠ ch ']')] line).headD name)))
  else
    match scanSetting line with
    | some (key, value) => .value key value
    | none => .error

/-! ## A file -/

/-- What `iniparser_load` keeps from line to line. -/
structure IniLoad where
  dict : Dictionary
  secname : CStr
  /-- What was read of a line that goes on. -/
  line : CStr
  errs : ℕ

/-- The `switch` over a line. -/
def IniLoad.process (st : IniLoad) : IniStatus → Checked IniLoad
  | .empty => .done { st with line := [] }
  | .comment => .done { st with line := [] }
  | .section name => do
      let dict ← dictionarySet st.dict name none
      return { dict := dict, secname := name, line := [], errs := 0 }
  | .value key value => do
      let dict ← dictionarySet st.dict (st.secname ++ ch ':' :: key) (some value)
      return { st with dict := dict, line := [], errs := 0 }
  | .error => .done { st with line := [], errs := st.errs + 1 }

/-- The loop of `iniparser_load`.  Of a line of blanks the byte in front of the buffer is looked at,
`before`. -/
def loadLoop (before : Byte) : ℕ → IniLoad → CStr → Checked (Option Dictionary)
  | 0, _, _ => .timeout
  | fuel + 1, st, file =>
      if file = [] then .done (if st.errs = 0 then some st.dict else none)
      else
        let (text, rest) := fgets (asciilinesz - st.line.length - 1) file
        let line := st.line ++ text
        if line.getLast? ≠ some lf then .done none
        else
          let line := line.rdropWhile isSpace
          if line = [] ∧ before = ch '\\' then .fault
          else if line.getLast? = some (ch '\\') then
            loadLoop before fuel { st with line := line.dropLast } rest
          else do
            let st ← st.process (iniparserLine line st.secname)
            loadLoop before fuel st rest

/-- `iniparser_load` -/
def iniparserLoad (before : Byte) (file : CStr) : Checked (Option Dictionary) :=
  loadLoop before (file.length + 1) ⟨dictionaryNew 0, [], [], 0⟩ file

/-! ## What is read from a dictionary and written to a file -/

/-- `iniparser_getstring`, where `none` is a null pointer. -/
def iniparserGetstring (d : Dictionary) (key : CStr) (dflt : Option CStr) : Option CStr :=
  dictionaryGet d (strlwc key) dflt

/-- The entries with a key, in the order of the slots. -/
def Dictionary.entries (d : Dictionary) : List DictEntry := d.slots.reduceOption

/-- The names of sections that `iniparser_getnsec` counts and `iniparser_getsecname` finds. -/
def iniparserSecnames (d : Dictionary) : List CStr :=
  (d.entries.map (·.key)).filter fun key => !key.contains (ch ':')

/-- `"%-30s = %s\n"` -/
def dumpLine (key value : CStr) : CStr := key.rightpad 30 (ch ' ') ++ str " = " ++ value ++ [lf]

/-- The lines of `iniparser_dump_ini` for a section. -/
def dumpSection (d : Dictionary) (secname : CStr) : CStr :=
  lf :: ch '[' :: secname ++ [ch ']', lf] ++
    (d.entries.filter fun e => (secname ++ [ch ':']).isPrefixOf e.key).flatMap fun e =>
      dumpLine (e.key.drop (secname.length + 1)) (e.val.getD [])

/-- `iniparser_dump_ini`; a null pointer is written as `(null)`. -/
def iniparserDumpIni (d : Dictionary) : CStr :=
  if iniparserSecnames d = [] then
    d.entries.flatMap fun e => e.key ++ str " = " ++ e.val.getD (str "(null)") ++ [lf]
  else (iniparserSecnames d).flatMap (dumpSection d) ++ [lf]

/-! ## Reading a line -/

lemma isSpace_lf : isSpace lf = true := rfl

lemma isSpace_backslash : isSpace (ch '\\') = false := rfl

/-- The blanks at the end of a line are taken off before it is looked at. -/
lemma iniparserLine_rdropWhile (line name : CStr) :
    iniparserLine (line.rdropWhile isSpace) name = iniparserLine line name := by
  have hstrip : strstrip (line.rdropWhile isSpace) = strstrip line := strip_rdropWhile line
  rw [iniparserLine, hstrip, iniparserLine]

/-- A line that goes on: its text, and the blanks behind the backslash. -/
structure IniPiece where
  text : CStr
  blanks : CStr
  text_free : lf ∉ text
  blank : ∀ c ∈ blanks, isSpace c = true ∧ c ≠ lf

/-- The piece as it stands in the file. -/
def IniPiece.written (p : IniPiece) : CStr := p.text ++ ch '\\' :: p.blanks ++ [lf]

/-- The pieces of a line and its end leave room in the buffer, one after the other. -/
def PiecesFit : CStr → List IniPiece → CStr → Prop
  | line, [], last => (line ++ last).length + 1 < asciilinesz
  | line, p :: ps, last =>
      (line ++ p.text).length + p.blanks.length + 2 < asciilinesz ∧
        PiecesFit (line ++ p.text) ps last

section

variable {before : Byte} {fuel : ℕ} {st : IniLoad} {last rest : CStr}

/-- A line that ends here. -/
lemma loadLoop_last (hbefore : before ≠ ch '\\') (hfree : lf ∉ last)
    (hfits : (st.line ++ last).length + 1 < asciilinesz)
    (hends : ((st.line ++ last).rdropWhile isSpace).getLast? ≠ some (ch '\\')) :
    loadLoop before (fuel + 1) st (last ++ lf :: rest) =
      st.process (iniparserLine (st.line ++ last) st.secname) >>= fun st' =>
        loadLoop before fuel st' rest := by
  have hfgets : fgets (asciilinesz - st.line.length - 1) (last ++ lf :: rest) =
      (last ++ [lf], rest) := by
    refine fgets_line hfree ?_ rest
    rw [List.length_append] at hfits
    omega
  have hdrop : (st.line ++ (last ++ [lf])).rdropWhile isSpace =
      (st.line ++ last).rdropWhile isSpace := by
    rw [← List.append_assoc]
    exact List.rdropWhile_concat_pos _ _ _ isSpace_lf
  rw [loadLoop, if_neg (by simp), hfgets]
  dsimp only
  rw [if_neg (by simp), hdrop, if_neg fun h => hbefore h.2, if_neg hends, iniparserLine_rdropWhile]

/-- A line that goes on. -/
lemma loadLoop_piece {p : IniPiece}
    (hfits : (st.line ++ p.text).length + p.blanks.length + 2 < asciilinesz) :
    loadLoop before (fuel + 1) st (p.written ++ rest) =
      loadLoop before fuel { st with line := st.line ++ p.text } rest := by
  have hfgets : fgets (asciilinesz - st.line.length - 1) (p.written ++ rest) =
      (p.written, rest) := by
    have hbody : lf ∉ p.text ++ ch '\\' :: p.blanks := by
      rw [List.mem_append, List.mem_cons]
      rintro (hmem | heq | hmem)
      · exact p.text_free hmem
      · exact absurd heq (by decide)
      · exact (p.blank lf hmem).2 rfl
    have hline := fgets_line (n := asciilinesz - st.line.length - 1) hbody (by
      rw [List.length_append] at hfits
      rw [List.length_append, List.length_cons]
      omega) rest
    rwa [IniPiece.written, List.append_assoc, List.singleton_append]
  have hdrop : (st.line ++ p.written).rdropWhile isSpace = st.line ++ p.text ++ [ch '\\'] := by
    have hblanks : ∀ c ∈ p.blanks ++ [lf], isSpace c = true := by
      intro c hc
      rcases List.mem_append.mp hc with hc | hc
      · exact (p.blank c hc).1
      · rw [List.mem_singleton.mp hc, isSpace_lf]
    have htext : st.line ++ p.written = (st.line ++ p.text) ++ ch '\\' :: (p.blanks ++ [lf]) := by
      simp [IniPiece.written]
    rw [htext, rdropWhile_append_cons isSpace_backslash, List.rdropWhile_eq_nil_iff.mpr hblanks]
  have hlast : (st.line ++ p.written).getLast? = some lf := by
    rw [IniPiece.written, ← List.append_assoc]
    exact List.getLast?_concat
  rw [loadLoop, if_neg (by simp [IniPiece.written]), hfgets]
  dsimp only
  rw [if_neg (not_not.mpr hlast), hdrop, if_neg (by simp), if_pos (by simp), List.dropLast_concat]

/-- **A line is read to its end**, wherever it was continued. -/
theorem loadLoop_line (hbefore : before ≠ ch '\\') (hfree : lf ∉ last) (ps : List IniPiece) :
    ∀ {st : IniLoad}, PiecesFit st.line ps last →
      ((st.line ++ ps.flatMap (·.text) ++ last).rdropWhile isSpace).getLast? ≠ some (ch '\\') →
      loadLoop before (fuel + ps.length + 1) st (ps.flatMap (·.written) ++ last ++ lf :: rest) =
        st.process (iniparserLine (st.line ++ ps.flatMap (·.text) ++ last) st.secname) >>= fun st' =>
          loadLoop before fuel st' rest := by
  induction ps with
  | nil =>
      intro st hfits hends
      simp only [List.flatMap_nil, List.append_nil, List.nil_append, List.length_nil,
        Nat.add_zero] at hends ⊢
      exact loadLoop_last hbefore hfree hfits hends
  | cons p ps ih =>
      intro st hfits hends
      have hnext := @ih { st with line := st.line ++ p.text } hfits.2
      simp only [List.flatMap_cons, List.append_assoc, List.length_cons] at hends hnext ⊢
      rw [show fuel + (ps.length + 1) + 1 = (fuel + ps.length + 1) + 1 by omega,
        loadLoop_piece hfits.1, hnext hends]
      cases iniparserLine (st.line ++ (p.text ++ (ps.flatMap (·.text) ++ last))) st.secname <;> rfl

end

end G7
