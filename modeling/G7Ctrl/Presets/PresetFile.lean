import G7Ctrl.Presets.ProcessFiles
import G7Ctrl.Xstr.Append
import G7Ctrl.Xstr.Block
import G7Ctrl.Xstr.Trim

/-!
# Reading a preset file (`callback_preset_file`)

A preset file has lines that begin with `#`, which describe the preset, and command lines.  The
callback puts them into one entry of the table of presets: the first line, if it describes, is the
short description, the later ones together are the long one, and the command lines go to an array of
32.  A file that cannot be opened, or whose name is too long, leaves the entry as it was.

* `callbackPresetFile` — the callback; writing past the end of a field of the entry is a fault.
* `TextFits` — no line of a file is copied past the end of its field.
* **`callbackPresetFile_endsIff`** — a file that is read is put into the entry exactly when its lines
  fit.
* **`commands_whole_iff`** — when the command lines are stored as they are.
-/

namespace G7

/-! ## The table and the callback -/

/-- `MAX_PRESETS` -/
def maxPresets : ℕ := 64

/-- The commands that `struct presetType` has room for. -/
def presetCmds : ℕ := 32

/-- `struct presetType` -/
structure Preset where
  name : CStr
  shortdesc : CStr
  longdesc : CStr
  ncmd : ℕ
  cmd : Fin presetCmds → CStr

/-- The array `presets`. -/
abbrev Presets := Fin maxPresets → Preset

/-- What can be read of a file, and whether the reading ended at its end, not with an error. -/
structure FileText where
  bytes : List Byte
  atEnd : Bool

/-- A file as the callback finds it; without a text it cannot be opened. -/
abbrev PresetFile := DirEntry (Option FileText)

/-- The lines `getline` returns, with their ends; `line` is the beginning of the first one. -/
def getlineLoop (line : List Byte) : List Byte → List (List Byte)
  | [] => if line = [] then [] else [line]
  | c :: cs =>
      if c = lf then (line ++ [c]) :: getlineLoop [] cs else getlineLoop (line ++ [c]) cs

/-- The lines of a file. -/
def FileText.lines (t : FileText) : List (List Byte) := getlineLoop [] t.bytes

/-- The sizes of the fields of an entry. -/
def shortdescSize : ℕ := 256
def longdescSize : ℕ := 2048
def cmdSize : ℕ := 64
def nameSize : ℕ := 32

/-- `strip_filesuffix`, on a name that is not empty: what is before the last dot, unless the name
begins with it. -/
def stripFilesuffix (filename : CStr) : CStr :=
  let upToDot := (filename.reverse.dropWhile (· ≠ ch '.')).reverse
  if 1 < upToDot.length then upToDot.dropLast else filename

/-- The variables of the loop, and the entry. -/
structure PresetRead where
  lnbr : ℕ
  ncmd : ℕ
  preset : Preset

/-- Adding a line to the long description. -/
def addLongdesc (longdesc rest : CStr) : Checked CStr := do
  let longdesc ←
    if longdesc ≠ [] then .done (longdesc ++ rest.take (longdescSize - longdesc.length - 1))
    else copyToField longdescSize rest
  return xstrlcat longdesc [lf] longdescSize

/-- A line that describes the preset. -/
def readDescription (r : PresetRead) (rest : CStr) : Checked PresetRead :=
  if r.lnbr = 0 then do
    let d ← copyToField shortdescSize rest
    return { r with lnbr := r.lnbr + 1, preset := { r.preset with shortdesc := d } }
  else if rest ≠ [] then do
    let d ← addLongdesc r.preset.longdesc rest
    return { r with lnbr := r.lnbr + 1, preset := { r.preset with longdesc := d } }
  else return { r with lnbr := r.lnbr + 1 }

/-- A command line. -/
def readCommand (r : PresetRead) (lineBuffer : CStr) : Checked PresetRead := do
  let cmd ← copyToField cmdSize lineBuffer
  if h : r.ncmd < presetCmds then
    return ⟨r.lnbr + 1, r.ncmd + 1,
      { r.preset with cmd := Function.update r.preset.cmd ⟨r.ncmd, h⟩ cmd }⟩
  else .fault

/-- A round of the loop; an empty line is not counted. -/
def readPresetLine (r : PresetRead) (line : List Byte) : Checked PresetRead :=
  match xstrtrimCrnl (cstr line) with
  | [] => .done r
  | c :: rest => if c = ch '#' then readDescription r rest else readCommand r (c :: rest)

/-- The loop over the lines. -/
def readPresetLines : List (List Byte) → PresetRead → Checked PresetRead
  | [], r => .done r
  | line :: lines, r => do
      let r ← readPresetLine r line
      readPresetLines lines r

/-- The entry before the first line is read. -/
def startPreset (dName : CStr) (old : Preset) : Preset where
  name := stripFilesuffix (xmbStrncpy dName (nameSize - 1))
  shortdesc := []
  longdesc := []
  ncmd := 0
  cmd := old.cmd

/-- `callback_preset_file`.  (The copy of the name, of at most 31 bytes, fits in any case.) -/
def callbackPresetFile : FileCallback (Option FileText) Presets := fun f seqNbr presets =>
  match f.contents with
  | none => .done (-1, presets)
  | some text =>
      if nameSize ≤ f.dName.length then .done (-1, presets)
      else if h : seqNbr < maxPresets then do
        let r ← readPresetLines text.lines ⟨0, 0, startPreset f.dName (presets ⟨seqNbr, h⟩)⟩
        return (0, Function.update presets ⟨seqNbr, h⟩ { r.preset with ncmd := r.ncmd })
      else .fault

/-! ## What is read -/

/-- A line that describes the preset. -/
def isDescription (l : CStr) : Bool := l.head? = some (ch '#')

/-- The lines the loop counts. -/
def countedLines (lines : List (List Byte)) : List CStr :=
  (lines.map fun line => xstrtrimCrnl (cstr line)).filter (· ≠ [])

/-- The command lines among lines. -/
def commandsOf (ls : List CStr) : List CStr := ls.filter fun l => !isDescription l

/-- The short description, as it is stored. -/
def shortdescOf : List CStr → CStr
  | [] => []
  | l :: _ => if isDescription l then xmbStrncpy l.tail (shortdescSize - 1) else []

/-- The lines of the long description: those behind the first line that are not empty. -/
def longdescLines (ls : List CStr) : List CStr :=
  (ls.tail.filter fun l => isDescription l && l.tail ≠ []).map List.tail

/-- Another line of the long description, as it is stored. -/
def appendLongdesc (longdesc rest : CStr) : CStr :=
  xstrlcat (if longdesc ≠ [] then longdesc ++ rest.take (longdescSize - longdesc.length - 1)
    else xmbStrncpy rest (longdescSize - 1)) [lf] longdescSize

/-- The long description, as it is stored. -/
def longdescOf (ls : List CStr) : CStr := (longdescLines ls).foldl appendLongdesc []

/-- The state of the loop behind some lines. -/
def readAfter (dName : CStr) (old : Preset) (ls : List CStr) : PresetRead where
  lnbr := ls.length
  ncmd := (commandsOf ls).length
  preset :=
    { name := stripFilesuffix (xmbStrncpy dName (nameSize - 1))
      shortdesc := shortdescOf ls
      longdesc := longdescOf ls
      ncmd := 0
      cmd := fun j => ((commandsOf ls)[(j : ℕ)]?.map (xmbStrncpy · (cmdSize - 1))).getD (old.cmd j) }

/-- A line fits where it goes, behind the lines `before`: a command line is one of the first 32 and
fits its cell, a description its field. -/
def LineFits (before : List CStr) (l : CStr) : Prop :=
  if isDescription l then
    (before = [] → (xmbStrncpy l.tail (shortdescSize - 1)).length < shortdescSize) ∧
      (before ≠ [] → l.tail ≠ [] → longdescLines before = [] →
        (xmbStrncpy l.tail (longdescSize - 1)).length < longdescSize)
  else (xmbStrncpy l (cmdSize - 1)).length < cmdSize ∧ (commandsOf before).length < presetCmds

/-- All lines fit where they go. -/
def LinesFit (before ls : List CStr) : Prop :=
  ∀ mid l after, ls = mid ++ l :: after → LineFits (before ++ mid) l

/-- No line of the file is copied past the end of its field. -/
def TextFits (t : FileText) : Prop := LinesFit [] (countedLines t.lines)

section

variable {dName : CStr} {old : Preset} {before ls : List CStr} {l : CStr}

lemma linesFit_nil : LinesFit before [] := by
  intro mid l after h
  cases mid <;> cases h

lemma linesFit_cons :
    LinesFit before (l :: ls) ↔ LineFits before l ∧ LinesFit (before ++ [l]) ls := by
  constructor
  · intro h
    refine ⟨by simpa using h [] l ls rfl, fun mid l' after hsplit => ?_⟩
    have hfits := h (l :: mid) l' after (by rw [hsplit]; rfl)
    rwa [← List.singleton_append, ← List.append_assoc] at hfits
  · rintro ⟨hfirst, hrest⟩ mid l' after hsplit
    cases mid with
    | nil =>
        obtain ⟨rfl, -⟩ := List.cons.inj hsplit
        rwa [List.append_nil]
    | cons m mid =>
        obtain ⟨rfl, htail⟩ := List.cons.inj hsplit
        have hfits := hrest mid l' after htail
        rwa [List.append_assoc, List.singleton_append] at hfits

/-! ### One more line -/

lemma commandsOf_concat (hl : isDescription l = false) :
    commandsOf (before ++ [l]) = commandsOf before ++ [l] := by
  rw [commandsOf, List.filter_append, List.filter_cons_of_pos (by rw [hl]; rfl)]
  rfl

lemma commandsOf_concat_description (hl : isDescription l = true) :
    commandsOf (before ++ [l]) = commandsOf before := by
  rw [commandsOf, List.filter_append, List.filter_cons_of_neg (by simp [hl]), List.filter_nil,
    List.append_nil]
  rfl

lemma shortdescOf_concat (hne : before ≠ []) : shortdescOf (before ++ [l]) = shortdescOf before := by
  obtain ⟨m, ms, rfl⟩ := List.exists_cons_of_ne_nil hne
  rfl

lemma longdescLines_concat (hne : before ≠ []) (hl : isDescription l = true)
    (htail : l.tail ≠ []) : longdescLines (before ++ [l]) = longdescLines before ++ [l.tail] := by
  obtain ⟨m, ms, rfl⟩ := List.exists_cons_of_ne_nil hne
  rw [longdescLines, longdescLines, List.cons_append, List.tail_cons, List.tail_cons,
    List.filter_append, List.filter_cons_of_pos (by simp [hl, htail]), List.map_append]
  rfl

lemma longdescLines_concat_other (hne : before ≠ [])
    (hl : ¬ (isDescription l = true ∧ l.tail ≠ [])) :
    longdescLines (before ++ [l]) = longdescLines before := by
  obtain ⟨m, ms, rfl⟩ := List.exists_cons_of_ne_nil hne
  rw [longdescLines, longdescLines, List.cons_append, List.tail_cons, List.tail_cons,
    List.filter_append, List.filter_cons_of_neg (by simpa using hl), List.filter_nil,
    List.append_nil]

/-- Something is in the long description behind its first line. -/
lemma appendLongdesc_ne_nil (longdesc rest : CStr) : appendLongdesc longdesc rest ≠ [] := by
  have hcat (dst : CStr) : xstrlcat dst [lf] longdescSize ≠ [] := by
    intro h
    have hdst : dst = [] := List.prefix_nil.mp (h ▸ prefix_xstrlcat dst [lf] longdescSize)
    rw [hdst, xstrlcat_eq_append (by decide)] at h
    cases h
  exact hcat _

lemma longdescOf_eq_nil_iff : longdescOf before = [] ↔ longdescLines before = [] := by
  rw [longdescOf]
  cases longdescLines before using List.reverseRecOn with
  | nil => simp
  | append_singleton lines last _ => simp [appendLongdesc_ne_nil]

lemma copyToField_endsIff (size : ℕ) (s : CStr) :
    (copyToField size s).EndsIff ((xmbStrncpy s (size - 1)).length < size)
      (xmbStrncpy s (size - 1)) := .ite

/-- Adding a line to the long description. -/
lemma addLongdesc_endsIff (longdesc rest : CStr) : (addLongdesc longdesc rest).EndsIff
    (longdesc = [] → (xmbStrncpy rest (longdescSize - 1)).length < longdescSize)
    (appendLongdesc longdesc rest) := by
  rw [addLongdesc, appendLongdesc]
  by_cases hnil : longdesc = []
  · simp only [hnil, ne_eq, not_true_eq_false, if_false, true_implies]
    exact (copyToField_endsIff longdescSize rest).map fun d => xstrlcat d [lf] longdescSize
  · simp only [hnil, ne_eq, not_false_eq_true, if_true, false_implies]
    exact .of_done trivial

/-- The state behind another command line. -/
lemma readAfter_command (hl : isDescription l = false)
    (hroom : (commandsOf before).length < presetCmds) :
    readAfter dName old (before ++ [l]) =
      ⟨(readAfter dName old before).lnbr + 1, (readAfter dName old before).ncmd + 1,
        { (readAfter dName old before).preset with
          cmd := Function.update (readAfter dName old before).preset.cmd
            ⟨(readAfter dName old before).ncmd, hroom⟩ (xmbStrncpy l (cmdSize - 1)) }⟩ := by
  have hshort : shortdescOf (before ++ [l]) = shortdescOf before := by
    by_cases hne : before = []
    · rw [hne, List.nil_append]
      simp [shortdescOf, hl]
    · exact shortdescOf_concat hne
  have hlong : longdescOf (before ++ [l]) = longdescOf before := by
    by_cases hne : before = []
    · rw [hne]
      rfl
    · rw [longdescOf, longdescLines_concat_other hne (by simp [hl]), longdescOf]
  have hcmd : (readAfter dName old (before ++ [l])).preset.cmd =
      Function.update (readAfter dName old before).preset.cmd
        ⟨(readAfter dName old before).ncmd, hroom⟩ (xmbStrncpy l (cmdSize - 1)) := by
    funext j
    simp only [readAfter, commandsOf_concat hl]
    rcases Nat.lt_trichotomy j (commandsOf before).length with hj | hj | hj
    · have hne : j ≠ ⟨(commandsOf before).length, hroom⟩ := fun h => hj.ne (congrArg Fin.val h)
      rw [List.getElem?_append_left hj, Function.update_of_ne hne]
    · obtain rfl : j = ⟨(commandsOf before).length, hroom⟩ := Fin.ext hj
      rw [List.getElem?_concat_length, Function.update_self]
      rfl
    · have hend : (commandsOf before ++ [l])[(j : ℕ)]? = none :=
        List.getElem?_eq_none (by rw [List.length_append]; exact hj)
      have hne : j ≠ ⟨(commandsOf before).length, hroom⟩ := fun h => hj.ne' (congrArg Fin.val h)
      rw [hend, Function.update_of_ne hne, List.getElem?_eq_none hj.le]
  simp only [readAfter] at hcmd ⊢
  rw [PresetRead.mk.injEq, Preset.mk.injEq]
  refine ⟨List.length_append, ?_, rfl, hshort, hlong, rfl, hcmd⟩
  rw [commandsOf_concat hl, List.length_append]
  rfl

/-- **A command line**, behind some lines. -/
lemma readCommand_endsIff (hl : isDescription l = false) :
    (readCommand (readAfter dName old before) l).EndsIff (LineFits before l)
      (readAfter dName old (before ++ [l])) := by
  rw [LineFits, if_neg (by simp [hl]), readCommand]
  refine (copyToField_endsIff cmdSize l).bind fun _ => ?_
  by_cases hroom : (commandsOf before).length < presetCmds
  · rw [dif_pos (show (readAfter dName old before).ncmd < presetCmds from hroom),
      readAfter_command hl hroom, Checked.pure_eq]
    exact .of_done hroom
  · rw [dif_neg (show ¬ (readAfter dName old before).ncmd < presetCmds from hroom)]
    exact ⟨fun h => absurd h hroom, fun _ => rfl⟩

/-- The state behind a first line that describes the preset. -/
lemma readAfter_shortdesc (hl : isDescription l = true) :
    readAfter dName old [l] =
      { readAfter dName old [] with
        lnbr := (readAfter dName old []).lnbr + 1
        preset := { (readAfter dName old []).preset with
          shortdesc := xmbStrncpy l.tail (shortdescSize - 1) } } := by
  have hcmds : commandsOf [l] = commandsOf [] :=
    by rw [← List.nil_append [l], commandsOf_concat_description hl]
  have hshort : shortdescOf [l] = xmbStrncpy l.tail (shortdescSize - 1) := by
    rw [shortdescOf, if_pos hl]
  simp only [readAfter, hcmds, hshort]
  rfl

/-- The state behind a later line that describes the preset. -/
lemma readAfter_longdesc (hl : isDescription l = true) (hne : before ≠ []) :
    readAfter dName old (before ++ [l]) =
      { readAfter dName old before with
        lnbr := (readAfter dName old before).lnbr + 1
        preset := { (readAfter dName old before).preset with
          longdesc := if l.tail ≠ []
            then appendLongdesc (readAfter dName old before).preset.longdesc l.tail
            else (readAfter dName old before).preset.longdesc } } := by
  have hlong : longdescOf (before ++ [l]) =
      if l.tail ≠ [] then appendLongdesc (longdescOf before) l.tail else longdescOf before := by
    split_ifs with htail
    · rw [longdescOf, longdescLines_concat hne hl htail, List.foldl_append]
      rfl
    · rw [longdescOf, longdescLines_concat_other hne fun h => htail h.2]
      rfl
  simp only [readAfter, commandsOf_concat_description hl, shortdescOf_concat hne, hlong,
    List.length_append, List.length_singleton]

/-- **A line that describes the preset**, behind some lines. -/
lemma readDescription_endsIff {rest : CStr} :
    (readDescription (readAfter dName old before) rest).EndsIff (LineFits before (ch '#' :: rest))
      (readAfter dName old (before ++ [ch '#' :: rest])) := by
  have hl : isDescription (ch '#' :: rest) = true := by simp [isDescription]
  rw [LineFits, if_pos hl, readDescription, List.tail_cons]
  by_cases hne : before = []
  · subst hne
    rw [if_pos (show (readAfter dName old []).lnbr = 0 from rfl), List.nil_append,
      readAfter_shortdesc hl]
    refine .congr ((copyToField_endsIff shortdescSize rest).map _) ?_
    simp
  · have hlnbr : ¬ (readAfter dName old before).lnbr = 0 := by
      simpa [readAfter] using hne
    rw [if_neg hlnbr, readAfter_longdesc hl hne, List.tail_cons]
    by_cases hrest : rest = []
    · rw [if_neg (not_not.mpr hrest), if_neg (not_not.mpr hrest)]
      generalize readAfter dName old before = r
      exact .of_done ⟨fun h => absurd h hne, fun _ h => absurd hrest h⟩
    · rw [if_pos hrest, if_pos hrest]
      refine .congr ((addLongdesc_endsIff (readAfter dName old before).preset.longdesc rest).map _) ?_
      simp [hne, hrest, readAfter, longdescOf_eq_nil_iff]

/-- **The run of the loop**, behind some lines. -/
lemma readPresetLines_endsIff (lines : List (List Byte)) :
    (readPresetLines lines (readAfter dName old before)).EndsIff
      (LinesFit before (countedLines lines))
      (readAfter dName old (before ++ countedLines lines)) := by
  induction lines generalizing before with
  | nil =>
      rw [countedLines, List.map_nil, List.filter_nil, List.append_nil]
      exact .of_done linesFit_nil
  | cons line lines ih =>
      rw [readPresetLines, readPresetLine]
      cases hline : xstrtrimCrnl (cstr line) with
      | nil =>
          have hcounted : countedLines (line :: lines) = countedLines lines := by
            rw [countedLines, List.map_cons, List.filter_cons_of_neg (by simp [hline])]
            rfl
          rw [hcounted]
          dsimp only
          rw [Checked.done_bind]
          exact ih
      | cons c rest =>
          have hcounted : countedLines (line :: lines) = (c :: rest) :: countedLines lines := by
            rw [countedLines, List.map_cons, hline, List.filter_cons_of_pos (by simp)]
            rfl
          have hrest := @ih (before ++ [c :: rest])
          rw [List.append_assoc, List.singleton_append] at hrest
          rw [hcounted]
          refine .congr (.bind ?_ fun _ => hrest) linesFit_cons.symm
          dsimp only
          by_cases hc : c = ch '#'
          · subst hc
            rw [if_pos rfl]
            exact readDescription_endsIff
          · rw [if_neg hc]
            exact readCommand_endsIff (by simpa [isDescription] using hc)

end

/-! ## The entry -/

/-- The entry that a file is read into, in place of `old`. -/
def presetOf (dName : CStr) (text : FileText) (old : Preset) : Preset :=
  let r := readAfter dName old (countedLines text.lines)
  { r.preset with ncmd := r.ncmd }

/-- The text of a file that the callback reads: it can be opened, and its name fits. -/
def DirEntry.readText (f : PresetFile) : Option FileText :=
  if nameSize ≤ f.dName.length then none else f.contents

/-- No line of a file is copied past the end of its field. -/
def ReadsInBounds (f : PresetFile) : Prop := ∀ text ∈ f.readText, TextFits text

/-- What a call of the callback returns. -/
def callbackRc (f : PresetFile) : ℤ := if f.readText = none then -1 else 0

/-- What a call of the callback makes of the entry. -/
def entryAfter (f : PresetFile) (old : Preset) : Preset :=
  match f.readText with
  | none => old
  | some text => presetOf f.dName text old

/-- **A call of the callback.** -/
theorem callbackPresetFile_endsIff (f : PresetFile) (seqNbr : Fin maxPresets) (presets : Presets) :
    (callbackPresetFile f seqNbr presets).EndsIff (ReadsInBounds f)
      (callbackRc f, Function.update presets seqNbr (entryAfter f (presets seqNbr))) := by
  rw [callbackPresetFile, ReadsInBounds, callbackRc, entryAfter, DirEntry.readText]
  cases hcontents : f.contents with
  | none =>
      simp only [ite_self, if_true, Function.update_eq_self]
      exact .of_done fun text h => by cases h
  | some text =>
      by_cases hname : nameSize ≤ f.dName.length
      · simp only [if_pos hname, if_true, Function.update_eq_self]
        exact .of_done fun text h => by cases h
      · simp only [if_neg hname, dif_pos seqNbr.isLt, reduceCtorEq, if_false]
        have hstart : PresetRead.mk 0 0 (startPreset f.dName (presets seqNbr))
            = readAfter f.dName (presets seqNbr) [] := rfl
        have hread : (readPresetLines text.lines
              ⟨0, 0, startPreset f.dName (presets seqNbr)⟩).EndsIff (TextFits text)
            (readAfter f.dName (presets seqNbr) (countedLines text.lines)) := by
          rw [hstart]
          exact readPresetLines_endsIff text.lines
        exact (hread.map fun r => ((0 : ℤ),
          Function.update presets seqNbr { r.preset with ncmd := r.ncmd })).congr (by simp)

lemma linesFit_concat {ls : List CStr} {l : CStr} (h : LinesFit [] (ls ++ [l])) :
    LinesFit [] ls ∧ LineFits ls l := by
  refine ⟨fun mid m after hsplit => ?_, by simpa using h ls l [] rfl⟩
  exact h mid m (after ++ [l]) (by rw [hsplit, List.append_assoc, List.cons_append])

/-- A file whose lines fit has at most 32 command lines. -/
lemma length_commandsOf_le {ls : List CStr} (h : LinesFit [] ls) :
    (commandsOf ls).length ≤ presetCmds := by
  induction ls using List.reverseRecOn with
  | nil => exact Nat.zero_le _
  | append_singleton ls l ih =>
      obtain ⟨hfront, hlast⟩ := linesFit_concat h
      by_cases hl : isDescription l = true
      · rw [commandsOf_concat_description hl]
        exact ih hfront
      · rw [LineFits, if_neg hl] at hlast
        rw [commandsOf_concat (by simpa using hl), List.length_append]
        exact hlast.2

/-! ## Whole command lines -/

/-- The command lines of a file, as they are in it. -/
def FileText.commandLines (t : FileText) : List CStr :=
  (t.lines.map xstrtrimCrnl).filter fun l => l ≠ [] && !isDescription l

lemma mem_dropWhile {p : Byte → Bool} {c : Byte} (hc : p c = false) {s : List Byte} (h : c ∈ s) :
    c ∈ s.dropWhile p := by
  rw [← List.takeWhile_append_dropWhile (p := p) (l := s)] at h
  rcases List.mem_append.mp h with h | h
  · rw [List.mem_takeWhile_imp h] at hc
    cases hc
  · exact h

/-- Trimming drops no NUL. -/
lemma nul_mem_xstrtrimCrnl {s : List Byte} (h : (0 : Byte) ∈ s) : (0 : Byte) ∈ xstrtrimCrnl s := by
  have hback : (0 : Byte) ∈ s.rdropWhile isCrnl := by
    rw [List.rdropWhile, List.mem_reverse]
    exact mem_dropWhile (by decide) (List.mem_reverse.mpr h)
  exact mem_dropWhile (by decide) hback

/-- Nothing is dropped in front of a character that stays. -/
lemma prefix_rdropWhile {p : Byte → Bool} {c : Byte} (hc : p c = false) (front back : List Byte) :
    front ++ [c] <+: (front ++ c :: back).rdropWhile p := by
  induction back using List.reverseRecOn with
  | nil => rw [List.rdropWhile_concat_neg _ _ _ (by simp [hc])]
  | append_singleton back x ih =>
      rw [← List.cons_append, ← List.append_assoc]
      by_cases hx : p x = true
      · rwa [List.rdropWhile_concat_pos _ _ _ hx]
      · rw [List.rdropWhile_concat_neg _ _ _ hx]
        simp

/-- A description is one also if it is cut at a NUL. -/
lemma isDescription_cstr {raw : List Byte} (h : isDescription (xstrtrimCrnl raw) = true) :
    isDescription (xstrtrimCrnl (cstr raw)) = true := by
  obtain ⟨tail, hraw⟩ := List.rdropWhile_prefix isCrnl raw
  generalize hbody : raw.rdropWhile isCrnl = body at hraw
  obtain ⟨rest, hrest⟩ : ∃ rest, body.dropWhile (· == ch ' ') = ch '#' :: rest := by
    rw [isDescription, xstrtrimCrnl, trimEnds, hbody, decide_eq_true_eq] at h
    exact List.head?_eq_some_iff.mp h
  have hsplit := List.takeWhile_append_dropWhile (p := (· == ch ' ')) (l := body)
  generalize hfront : body.takeWhile (· == ch ' ') = front at hsplit
  have hspace : ∀ c ∈ front, (c == ch ' ') = true := by
    intro c hc
    rw [← hfront] at hc
    exact List.mem_takeWhile_imp (p := (· == ch ' ')) hc
  have hkeep : ∀ c ∈ front, decide (c ≠ 0) = true := fun c hc => by
    rw [beq_iff_eq.mp (hspace c hc)]
    decide
  -- what is in front of the sign is kept by both cuts
  have hcstr : cstr raw = front ++ ch '#' :: cstr (rest ++ tail) := by
    rw [← hraw, ← hsplit, hrest, cstr, List.append_assoc, List.takeWhile_append_of_pos hkeep,
      List.cons_append, List.takeWhile_cons_of_pos (by decide), cstr]
  obtain ⟨back, hback⟩ := prefix_rdropWhile (p := isCrnl) (c := ch '#') (by decide) front
    (cstr (rest ++ tail))
  rw [isDescription, xstrtrimCrnl, trimEnds, hcstr, ← hback, List.append_assoc,
    List.dropWhile_append_of_pos hspace, List.singleton_append,
    List.dropWhile_cons_of_neg (by decide)]
  exact decide_eq_true rfl

lemma commandsOf_countedLines (lines : List (List Byte)) : commandsOf (countedLines lines) =
    (lines.map fun line => xstrtrimCrnl (cstr line)).filter fun l => l ≠ [] && !isDescription l := by
  rw [commandsOf, countedLines, List.filter_filter]
  simp only [Bool.and_comm]

/-- Command lines without a NUL are found as they are. -/
lemma commandsOf_eq_commandLines {lines : List (List Byte)}
    (hnul : ∀ l ∈ (lines.map xstrtrimCrnl).filter fun l => l ≠ [] && !isDescription l,
      (0 : Byte) ∉ l) :
    commandsOf (countedLines lines) =
      (lines.map xstrtrimCrnl).filter fun l => l ≠ [] && !isDescription l := by
  rw [commandsOf_countedLines]
  induction lines with
  | nil => rfl
  | cons raw lines ih =>
      rw [List.map_cons, List.filter_cons] at hnul
      rw [List.map_cons, List.map_cons, List.filter_cons, List.filter_cons]
      by_cases hzero : (0 : Byte) ∈ raw
      · have hmem := nul_mem_xstrtrimCrnl hzero
        by_cases hdesc : isDescription (xstrtrimCrnl raw) = true
        · rw [if_neg (by simp [hdesc])] at hnul
          rw [if_neg (by simp [isDescription_cstr hdesc]), if_neg (by simp [hdesc]), ih hnul]
        · have hne : xstrtrimCrnl raw ≠ [] := List.ne_nil_of_mem hmem
          rw [if_pos (by simp [hdesc, hne])] at hnul
          exact absurd hmem (hnul _ List.mem_cons_self)
      · rw [cstr_eq_self hzero]
        split_ifs at hnul ⊢ with hcmd
        · rw [ih fun l hl => hnul l (List.mem_cons_of_mem _ hl)]
        · exact ih hnul

/-- What is stored of a command line has no NUL. -/
lemma nul_notMem_of_mem_commandsOf {lines : List (List Byte)} {l : CStr}
    (hl : l ∈ commandsOf (countedLines lines)) : (0 : Byte) ∉ l := by
  rw [commandsOf_countedLines] at hl
  obtain ⟨raw, -, rfl⟩ := List.mem_map.mp (List.mem_filter.mp hl).1
  intro h
  have hmem := (trimEnds_sublist isCrnl (cstr raw)).subset h
  simpa using List.mem_takeWhile_imp hmem

/-- **When the command lines are stored as they are.** -/
theorem commands_whole_iff (t : FileText) :
    (commandsOf (countedLines t.lines)).map (xmbStrncpy · (cmdSize - 1)) = t.commandLines ↔
      ∀ l ∈ t.commandLines, (0 : Byte) ∉ l ∧ l.length < cmdSize - 1 := by
  constructor
  · intro h
    have hnul : ∀ l ∈ t.commandLines, (0 : Byte) ∉ l := by
      rw [← h]
      intro l hl hzero
      obtain ⟨m, hm, rfl⟩ := List.mem_map.mp hl
      rw [xmbStrncpy_eq_take] at hzero
      exact nul_notMem_of_mem_commandsOf hm (List.mem_of_mem_take hzero)
    rw [commandsOf_eq_commandLines hnul] at h
    intro l hl
    refine ⟨hnul l hl, Nat.lt_of_not_le fun hlong => ?_⟩
    have hcopy : xmbStrncpy l (cmdSize - 1) = l :=
      List.map_inj_left.mp (h.trans (List.map_id _).symm) l hl
    have hlt := xmbStrncpy_length_lt (hnul l hl) (by decide) hlong
    rw [hcopy] at hlt
    exact Nat.lt_irrefl _ hlt
  · intro h
    rw [commandsOf_eq_commandLines fun l hl => (h l hl).1]
    refine (List.map_congr_left fun l hl => ?_).trans (List.map_id _)
    exact xmbStrncpy_of_lt (h l hl).1 (h l hl).2

end G7
