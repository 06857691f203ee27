import G7Ctrl.Presets.Refresh
import G7Ctrl.Command.Device

/-!
# Presets at work (`commandPreset`)

A user has the preset files read again, lists the presets, asks what one of them is for, or uses it:
its command lines then go to the device one after the other, each with a tag of its own, until one
of them fails.

* `commandPreset` — the commands of the user.
* `PresetStep` — a command line as it is meant: a command of the table with its arguments.
* `sendSteps` — what the use of a preset means.
* **`commandPreset_use`** — after a refresh the use of a preset sends just the commands of its file,
  each in the form the device takes.
-/

namespace G7

/-! ## The commands of the user -/

/-- The device as the server reaches it: the running number of the tags, which other threads draw
from too, and whatever else an exchange changes. -/
structure DeviceLink (σ : Type) where
  tagnbr : ℕ
  peer : σ
  deriving DecidableEq

/-- `send_rawcmd`, for a command and its tag. -/
abbrev SendRawcmd (σ : Type) := CStr → CStr → DeviceLink σ → ℤ × DeviceLink σ

/-- What the use of a preset leaves.  The last field is not in the code: the commands that were
handed to `send_rawcmd`, with their tags. -/
structure PresetRun (σ : Type) where
  rc : ℤ
  msg : CStr
  link : DeviceLink σ
  sent : List (CStr × CStr)
  deriving DecidableEq

/-- The loop of `getPreset`, over the entries from `i` on. -/
def findPreset (name : CStr) (presets : Presets) : ℕ → ℕ → Checked (Option Preset)
  | 0, _ => .done none
  | n + 1, i =>
      if h : i < maxPresets then
        if name = (presets ⟨i, h⟩).name then .done (some (presets ⟨i, h⟩))
        else findPreset name presets n (i + 1)
      else .fault

/-- `getPreset` -/
def getPreset (name : CStr) (t : PresetTable) : Checked (Option Preset) :=
  findPreset name t.presets t.numPresets 0

/-- The loop of `listPresets`. -/
def listLoop (t : PresetTable) : ℕ → ℕ → Checked CStr
  | 0, _ => .done []
  | n + 1, i =>
      if h : i < maxPresets then do
        let rest ← listLoop t n (i + 1)
        return dec02 i ++ str ". " ++ (t.presets ⟨i, h⟩).name.rightpad 10 (ch ' ') ++ str " - " ++
          (t.presets ⟨i, h⟩).shortdesc ++ (if i < t.numPresets - 1 then [lf] else []) ++ rest
      else .fault

/-- `listPresets` -/
def listPresets (t : PresetTable) : Checked CStr :=
  if t.numPresets = 0 then .done (str "[ERR] No presets defined.") else listLoop t t.numPresets 0

/-- The answer when there is no such preset. -/
def noPreset (presetName : CStr) : CStr :=
  str "[ERR] Preset \"" ++ presetName ++ str "\" does not exist."

/-- `presetHelp` -/
def presetHelp (presetName : CStr) (t : PresetTable) : Checked CStr := do
  let found ← getPreset presetName t
  return found.elim (noPreset presetName) fun p =>
    p.name ++ str " - " ++ p.shortdesc ++ str "\n\n" ++ p.longdesc

/-- The answer when a command of a preset fails. -/
def failedStep (i : ℕ) (name : CStr) : CStr :=
  str "[ERR] Failed to execute command #" ++ dec02 i ++ str " in preset \"" ++ name ++ str "\"."

/-- The answer when none fails. -/
def executedSteps (ncmd : ℕ) (name : CStr) : CStr :=
  str "Successfully executed " ++ dec ncmd ++ str " commands in preset \"" ++ name ++ str "\""

section

variable {σ : Type} (sendRawcmd : SendRawcmd σ)

/-- `execPresetCommand`, with what it does to the link. -/
def execPresetCommand (pre : Preset) (cmdIdx : ℕ) (tag pin : CStr) (link : DeviceLink σ) :
    Checked (PresetCall × DeviceLink σ) :=
  if h : cmdIdx < presetCmds then do
    let call ← execPresetFunc (fun cmd => (sendRawcmd cmd tag link).1) (pre.cmd ⟨cmdIdx, h⟩) tag pin
    return ({ call with rc := if call.rc < 0 then -1 else 0 },
      call.sent.elim link fun cmd => (sendRawcmd cmd tag link).2)
  else .fault

/-- The loop of `execPreset`, over the command lines from `i` on. -/
def execPresetLoop (pre : Preset) (pin : CStr) :
    ℕ → ℕ → DeviceLink σ → List (CStr × CStr) → Checked (PresetRun σ)
  | 0, _, link, sent => .done ⟨0, executedSteps pre.ncmd pre.name, link, sent⟩
  | n + 1, i, link, sent =>
      match getDeviceTag 16 link.tagnbr with
      | none => .done ⟨-1, [], link, sent⟩
      | some (tag, tagnbr) => do
          let r ← execPresetCommand sendRawcmd pre i tag pin { link with tagnbr := tagnbr }
          let sent := sent ++ r.1.sent.toList.map fun cmd => (cmd, tag)
          if r.1.rc = -1 then return ⟨-1, failedStep i pre.name, r.2, sent⟩
          else execPresetLoop pre pin n (i + 1) r.2 sent

/-- `execPreset` -/
def execPreset (presetName : CStr) (t : PresetTable) (link : DeviceLink σ) :
    Checked (PresetRun σ) :=
  match getDevicePin 16 with
  | none => .done ⟨-1, [], link, []⟩
  | some pin => do
      let found ← getPreset presetName t
      match found with
      | none => return ⟨-1, noPreset presetName, link, []⟩
      | some pre => execPresetLoop sendRawcmd pre pin pre.ncmd 0 link []

/-- `commandPreset`, for the fields of the command `cmd` and the preset directory as it is then:
what it returns and writes, and the table it leaves. -/
def commandPreset (dir : Option (List PresetFile)) (cmd : CStr) (fields : List CStr)
    (t : PresetTable) (link : DeviceLink σ) : Checked (PresetRun σ × PresetTable) :=
  match fields with
  | [_, what] =>
      if what = str "refresh" then do
        let r ← refreshPresets dir t
        return (⟨0, r.msg, link, []⟩, r.table)
      else if what = str "list" then do
        let msg ← listPresets t
        return (⟨0, msg, link, []⟩, t)
      else .done (⟨0, [], link, []⟩, t)
  | [_, what, name] =>
      if what = str "use" then do
        let r ← execPreset sendRawcmd name t link
        return ({ r with rc := if r.rc < 0 then -1 else 0 }, t)
      else if what = str "help" then do
        let msg ← presetHelp name t
        return (⟨0, msg, link, []⟩, t)
      else .done (⟨0, [], link, []⟩, t)
  | _ => .done (⟨-1, str "[ERR] Unknown preset command \"" ++ cmd ++ str "\"", link, []⟩, t)

end

/-! ## What the use of a preset means -/

/-- A command line as it is meant: the name of a command of the table, in any letter case, and its
arguments. -/
structure PresetStep where
  name : CStr
  args : List CStr
  entry : G7Command
  mem : entry ∈ g7commandList
  named : xstricmp name entry.srvcmd = true
  lineArgs : LineArgs args
  short : (presetLine name args).length < cmdSize - 1

/-- The line in the file. -/
def PresetStep.line (s : PresetStep) : CStr := presetLine s.name s.args

/-- The command for the device. -/
def PresetStep.command (s : PresetStep) (tag pin : CStr) : CStr :=
  presetCommand s.entry.cmdstr tag pin s.args

/-- What is left when the steps were sent, or some of them. -/
structure Sending (σ : Type) where
  link : DeviceLink σ
  sent : List (CStr × CStr)
  complete : Bool

/-- **The steps go to the device one after the other**, each with the next tag, up to the first that
fails. -/
def sendSteps {σ : Type} (sendRawcmd : SendRawcmd σ) (pin : CStr) :
    List PresetStep → DeviceLink σ → Sending σ
  | [], link => ⟨link, [], true⟩
  | s :: steps, link =>
      let tag := dec04 (nextTagnbr link.tagnbr)
      let r := sendRawcmd (s.command tag pin) tag { link with tagnbr := nextTagnbr link.tagnbr }
      if r.1 < 0 then ⟨r.2, [(s.command tag pin, tag)], false⟩
      else
        let rest := sendSteps sendRawcmd pin steps r.2
        { rest with sent := (s.command tag pin, tag) :: rest.sent }

/-- What is returned and written. -/
def Sending.toRun {σ : Type} (r : Sending σ) (name : CStr) : PresetRun σ where
  rc := if r.complete then 0 else -1
  msg :=
    if r.complete then executedSteps r.sent.length name else failedStep (r.sent.length - 1) name
  link := r.link
  sent := r.sent

/-- The name of the preset of a file. -/
def presetName (f : PresetFile) : CStr := stripFilesuffix (xmbStrncpy f.dName (nameSize - 1))

/-! ## A line on its way -/

lemma nextTagnbr_lt (n : ℕ) : nextTagnbr n < 10000 := by
  rw [nextTagnbr]
  split_ifs
  · decide
  · omega

section

variable {σ : Type} {sendRawcmd : SendRawcmd σ} {s : PresetStep} {tag pin : CStr}

lemma PresetStep.nul_notMem (s : PresetStep) : (0 : Byte) ∉ s.line := by
  have hletters := (letters_of_xstricmp s.mem s.named).2
  have hzero : (0 : Byte) ∉ s.name := fun h => absurd (hletters _ h).1 (by decide)
  have hmem : (0 : Byte) ∉ [ch ','].intercalate s.args :=
    LineArgs.notMem_intercalate s.lineArgs.nul (by decide)
  simp only [PresetStep.line, presetLine, List.mem_append, List.mem_cons, List.not_mem_nil,
    or_false, not_or]
  exact ⟨hzero, by decide, hmem, by decide⟩

lemma PresetStep.length_args (s : PresetStep) :
    ([ch ','].intercalate s.args).length < cmdSize - 1 := by
  have h := s.short
  rw [presetLine, List.length_append, List.length_cons, List.length_append] at h
  omega

/-- An argument is not longer than all of them together. -/
lemma length_le_of_mem_splitOn {sep : Byte} {a t : CStr} (ha : a ∈ t.splitOn sep) :
    a.length ≤ t.length := by
  obtain ⟨f, fs, hsplit⟩ := List.exists_cons_of_ne_nil (List.splitOn_ne_nil sep t)
  have hjoin : [sep].intercalate (t.splitOn sep) = t := List.intercalate_splitOn sep
  rw [hsplit, intercalate_eq_joinOnto, joinOnto, List.flatMap_def] at hjoin
  rw [← hjoin, List.length_append]
  rcases List.mem_cons.mp (hsplit ▸ ha) with rfl | hmem
  · exact Nat.le_add_right _ _
  · have hle := (List.sublist_flatten_of_mem (List.mem_map_of_mem (f := (sep :: ·)) hmem)).length_le
    rw [List.length_cons] at hle
    omega

/-- **A line is sent as it is meant.** -/
lemma execPresetFunc_step (send : CStr → ℤ) (s : PresetStep) (htag : tag.length ≤ 5)
    (hpin : pin.length ≤ 5) : execPresetFunc send s.line tag pin =
      .done ⟨some (s.command tag pin), if send (s.command tag pin) < 0 then -1 else 0⟩ := by
  have hcopy : xmbStrncpy (presetLine s.name s.args) (presetBufSize - 1)
      = presetLine s.name s.args :=
    xmbStrncpy_of_lt s.nul_notMem (s.short.trans (by decide))
  obtain ⟨k, hdrop, hrun⟩ := execPresetFunc_line send tag pin s.mem s.named s.lineArgs
    (by rw [hcopy]; exact s.short.trans (by decide))
  rw [hcopy, List.drop_length] at hdrop
  have hparen : ch ')' ∉ [ch ','].intercalate s.args :=
    LineArgs.notMem_intercalate s.lineArgs.paren (by decide)
  have htake : stripSpaces (([ch ','].intercalate s.args).take k)
      = stripSpaces ([ch ','].intercalate s.args) :=
    (stripSpaces_take_eq_iff hparen k).mpr (by rw [← hdrop]; simp)
  have hlen : (stripSpaces ([ch ','].intercalate s.args)).length < cmdSize - 1 :=
    (List.length_filter_le _ _).trans_lt s.length_args
  have happend := (appendArgs_eq_iff (s := [ch ','].intercalate s.args)
    (commandHead s.entry.cmdstr tag pin) k).mpr ⟨htake, fun a ha => ?_, ?_⟩
  · rw [PresetStep.line, hrun, happend, PresetStep.command, presetCommand_eq s.lineArgs]
    rfl
  · exact (length_le_of_mem_splitOn ha).trans_lt (hlen.trans (by decide))
  · have hname := (g7commandList_lengths s.entry s.mem).2
    rw [cmdSize] at hlen
    simp only [commandHead, List.length_append, List.length_cons, presetBufSize, str]
    simp
    omega

/-- Every command that is sent is in the form the device takes. -/
lemma wellFormed_of_mem_sent {steps : List PresetStep} {link : DeviceLink σ} {p : CStr × CStr}
    (hp : p ∈ (sendSteps sendRawcmd pin steps link).sent) :
    ∃ s ∈ steps, WellFormed p.1 s.entry.cmdstr p.2 := by
  induction steps generalizing link with
  | nil => cases hp
  | cons s steps ih =>
      have hform (tag : CStr) (htag : DeviceTag tag) :
          WellFormed (s.command tag pin) s.entry.cmdstr tag := by
        refine ⟨deviceName_of_mem _ s.mem, htag, ?_⟩
        rw [PresetStep.command, presetCommand, commandHead, joinOnto]
        exact (List.prefix_append _ pin).trans (List.prefix_append _ _)
      have hfirst := hform _ (deviceTag_dec04 (nextTagnbr_lt link.tagnbr))
      rw [sendSteps] at hp
      dsimp only at hp
      split_ifs at hp
      · obtain rfl := List.mem_singleton.mp hp
        exact ⟨s, List.mem_cons_self, hfirst⟩
      · rcases List.mem_cons.mp hp with rfl | hp
        · exact ⟨s, List.mem_cons_self, hfirst⟩
        · obtain ⟨s', hs', hform'⟩ := ih hp
          exact ⟨s', List.mem_cons_of_mem _ hs', hform'⟩

lemma getDeviceTag_16 (n : ℕ) : getDeviceTag 16 n = some (dec04 (nextTagnbr n), nextTagnbr n) := by
  rw [getDeviceTag, if_neg (by decide),
    snprintf_of_lt (by rw [length_dec04 (nextTagnbr_lt n)]; decide)]

/-- What the loop leaves behind some commands. -/
def Sending.after (r : Sending σ) (sent : List (CStr × CStr)) : Sending σ :=
  { r with sent := sent ++ r.sent }

/-- **The loop sends the steps** of a preset. -/
lemma execPresetLoop_eq {pre : Preset} {steps : List PresetStep} (hpin : pin.length ≤ 5)
    {link : DeviceLink σ} {sent : List (CStr × CStr)}
    (hncmd : pre.ncmd = sent.length + steps.length) (hle : pre.ncmd ≤ presetCmds)
    (hcmd : ∀ j (h : j < steps.length) (hj : sent.length + j < presetCmds),
      pre.cmd ⟨sent.length + j, hj⟩ = steps[j].line) :
    execPresetLoop sendRawcmd pre pin steps.length sent.length link sent =
      .done (((sendSteps sendRawcmd pin steps link).after sent).toRun pre.name) := by
  induction steps generalizing link sent with
  | nil =>
      rw [List.length_nil, Nat.add_zero] at hncmd
      rw [List.length_nil, execPresetLoop, hncmd, sendSteps, Sending.after, List.append_nil]
      rfl
  | cons s steps ih =>
      rw [List.length_cons] at hncmd
      have hlt : sent.length < presetCmds := by omega
      have hline : pre.cmd ⟨sent.length, hlt⟩ = s.line := hcmd 0 (Nat.succ_pos _) hlt
      have htag : (dec04 (nextTagnbr link.tagnbr)).length ≤ 5 := by
        rw [length_dec04 (nextTagnbr_lt _)]
        decide
      rw [List.length_cons, execPresetLoop, getDeviceTag_16]
      dsimp only
      rw [execPresetCommand, dif_pos hlt, hline, execPresetFunc_step _ s htag hpin, sendSteps]
      generalize htagd : dec04 (nextTagnbr link.tagnbr) = tag
      generalize hr : sendRawcmd (s.command tag pin) tag
        { link with tagnbr := nextTagnbr link.tagnbr } = r
      simp only [Checked.done_bind, Checked.pure_eq, Option.elim_some, Option.toList_some,
        List.map_cons, List.map_nil, hr]
      by_cases hneg : r.1 < 0
      · simp only [hneg, if_true]
        rw [if_pos (by decide), Sending.after, Sending.toRun, List.length_append]
        rfl
      · simp only [hneg, if_false]
        have hrest := @ih r.2 (sent ++ [(s.command tag pin, tag)])
          (by rw [List.length_append, List.length_singleton]; omega) fun j h hj => by
            have hnext := hcmd (j + 1) (Nat.succ_lt_succ h) (by
              rw [List.length_append, List.length_singleton] at hj
              omega)
            simp only [List.length_append, List.length_singleton, Nat.add_assoc, Nat.add_comm 1 j]
            exact hnext
        rw [List.length_append, List.length_singleton] at hrest
        rw [if_neg (by decide), hrest, Sending.after, Sending.after, List.append_assoc]
        rfl

/-! ## From the files to the device -/

lemma findPreset_eq {name : CStr} {presets : Presets} (n : ℕ) {i : ℕ} {k : Fin maxPresets}
    (hik : i ≤ k) (hkn : (k : ℕ) < i + n) (hname : (presets k).name = name)
    (hfirst : ∀ j : Fin maxPresets, j < k → (presets j).name ≠ name) :
    findPreset name presets n i = .done (some (presets k)) := by
  induction n generalizing i with
  | zero => omega
  | succ n ih =>
      have hlt : i < maxPresets := hik.trans_lt k.isLt
      rw [findPreset, dif_pos hlt]
      rcases hik.eq_or_lt with heq | hlt'
      · obtain rfl : (⟨i, hlt⟩ : Fin maxPresets) = k := Fin.ext heq
        rw [if_pos hname.symm]
      · rw [if_neg fun h => hfirst ⟨i, hlt⟩ hlt' h.symm, ih hlt' (by omega)]

lemma presetOf_name (f : PresetFile) (text : FileText) (old : Preset) :
    (presetOf f.dName text old).name = presetName f := by
  simp only [presetOf, readAfter, presetName]

/-- The entry of a file whose command lines are steps. -/
lemma presetOf_steps {f : PresetFile} {text : FileText} {steps : List PresetStep} (old : Preset)
    (hfits : TextFits text) (hlines : text.commandLines = steps.map PresetStep.line) :
    (presetOf f.dName text old).name = presetName f ∧
      (presetOf f.dName text old).ncmd = steps.length ∧ steps.length ≤ presetCmds ∧
      ∀ j (h : j < steps.length) (hj : j < presetCmds),
        (presetOf f.dName text old).cmd ⟨j, hj⟩ = steps[j].line := by
  have hwhole : (commandsOf (countedLines text.lines)).map (xmbStrncpy · (cmdSize - 1)) =
      steps.map PresetStep.line := by
    rw [← hlines, commands_whole_iff, hlines]
    intro l hl
    obtain ⟨s, -, rfl⟩ := List.mem_map.mp hl
    exact ⟨s.nul_notMem, s.short⟩
  have hlen : (commandsOf (countedLines text.lines)).length = steps.length := by
    have h := congrArg List.length hwhole
    rwa [List.length_map, List.length_map] at h
  refine ⟨presetOf_name f text old, hlen, hlen ▸ length_commandsOf_le hfits, fun j h hj => ?_⟩
  have hget := congrArg (·[j]?) hwhole
  simp only [List.getElem?_map, List.getElem?_eq_getElem h, Option.map_some] at hget
  simp only [presetOf, readAfter, hget]
  rfl

/-- What a refresh leaves when there are not too many files, and all fit. -/
lemma refreshPresets_done {entries : List PresetFile} (t : PresetTable)
    (hle : (matchingFiles presetFilesuffix entries).length ≤ maxPresets)
    (hfits : ∀ f ∈ matchingFiles presetFilesuffix entries, ReadsInBounds f) :
    ∃ r, refreshPresets (some entries) t = .done r ∧ r.table =
      ⟨(afterCalls (matchingFiles presetFilesuffix entries) ⟨0, t.presets, []⟩).state,
        (matchingFiles presetFilesuffix entries).length⟩ := by
  rw [refreshPresets, processFiles_some]
  generalize matchingFiles presetFilesuffix entries = files at hle hfits ⊢
  have hcalls := runCalls_endsIff (files.take maxPresets) ⟨0, t.presets, []⟩
    (by rw [List.length_take]; dsimp only; omega)
  have hnum := afterCalls_numfiles files ⟨0, t.presets, []⟩
  rw [List.take_of_length_le hle] at hcalls ⊢
  rw [hcalls.done hfits, Checked.done_bind, Checked.done_bind, processRc, if_pos hle,
    if_neg (show ¬ (0 : ℤ) < 0 by decide)]
  dsimp only at hnum ⊢
  rw [hnum, Nat.zero_add]
  exact ⟨_, rfl, rfl⟩

lemma entryAfter_name {f : PresetFile} (hread : f.readText ≠ none) (old : Preset) :
    (entryAfter f old).name = presetName f := by
  obtain ⟨text, htext⟩ := Option.ne_none_iff_exists'.mp hread
  rw [entryAfter, htext]
  exact presetOf_name f text old

/-- The entries of earlier files. -/
lemma afterCalls_state_front {front : List PresetFile} (rest : List PresetFile) (presets : Presets)
    {j : Fin maxPresets} (hj : (j : ℕ) < front.length) :
    (afterCalls (front ++ rest) ⟨0, presets, []⟩).state j =
      entryAfter front[(j : ℕ)] (presets j) := by
  have hsplit : front ++ rest =
      front.take j ++ front[(j : ℕ)] :: (front.drop (j + 1) ++ rest) := by
    rw [← List.cons_append, List.cons_getElem_drop_succ, ← List.append_assoc,
      List.take_append_drop]
  have hstate := afterCalls_state (front.take j) (front.drop (j + 1) ++ rest) front[(j : ℕ)]
    (p := ⟨0, presets, []⟩) (i := j)
    (by rw [List.length_take, Nat.min_eq_left hj.le, Nat.zero_add])
  rwa [← hsplit] at hstate

/-- The entry of a file is found by its name, unless an earlier one has the same. -/
lemma getPreset_afterCalls {front back : List PresetFile} {f : PresetFile} {text : FileText}
    (hfront : ∀ g ∈ front, g.readText ≠ none ∧ presetName g ≠ presetName f)
    (htext : f.readText = some text) (presets : Presets) (hlen : front.length < maxPresets) :
    getPreset (presetName f)
        ⟨(afterCalls (front ++ f :: back) ⟨0, presets, []⟩).state, (front ++ f :: back).length⟩ =
      .done (some (presetOf f.dName text (presets ⟨front.length, hlen⟩))) := by
  have hentry : (afterCalls (front ++ f :: back) ⟨0, presets, []⟩).state ⟨front.length, hlen⟩ =
      presetOf f.dName text (presets ⟨front.length, hlen⟩) := by
    rw [afterCalls_state front back f (Nat.zero_add _).symm, entryAfter, htext]
  have hother (j : Fin maxPresets) (hj : (j : ℕ) < front.length) :
      ((afterCalls (front ++ f :: back) ⟨0, presets, []⟩).state j).name ≠ presetName f := by
    obtain ⟨hread, hname⟩ := hfront _ (List.getElem_mem hj)
    rw [afterCalls_state_front _ _ hj, entryAfter_name hread]
    exact hname
  have hlt : front.length < 0 + (front ++ f :: back).length := by simp
  rw [getPreset]
  dsimp only
  generalize (afterCalls (front ++ f :: back) ⟨0, presets, []⟩).state = st at hentry hother ⊢
  rw [← hentry]
  refine findPreset_eq _ (Nat.zero_le _) hlt ?_ fun j hj => hother j hj
  rw [hentry, presetOf_name]

lemma commandPreset_refresh_eq (sendRawcmd : SendRawcmd σ) (dir : Option (List PresetFile))
    (cmd verb : CStr) (t : PresetTable) (link : DeviceLink σ) :
    commandPreset sendRawcmd dir cmd [verb, str "refresh"] t link =
      refreshPresets dir t >>= fun r => .done (⟨0, r.msg, link, []⟩, r.table) := by
  rw [commandPreset, if_pos (Eq.refl (str "refresh"))]
  rfl

lemma commandPreset_use_eq (sendRawcmd : SendRawcmd σ) (dir : Option (List PresetFile))
    (cmd verb name : CStr) (t : PresetTable) (link : DeviceLink σ) :
    commandPreset sendRawcmd dir cmd [verb, str "use", name] t link =
      execPreset sendRawcmd name t link >>= fun r =>
        .done ({ r with rc := if r.rc < 0 then -1 else 0 }, t) := by
  rw [commandPreset, if_pos (Eq.refl (str "use"))]
  rfl

/-- **The use of a preset, after a refresh**: its commands go to the device as its file has them,
each with a tag of its own, up to the first that fails, and each is in the form the device takes.
There are at most `maxPresets` files, whose lines stay inside their fields; those in front of this
one can be read and have other names; and every command line of this one is a `PresetStep`. -/
theorem commandPreset_use (sendRawcmd : SendRawcmd σ) {entries front back : List PresetFile}
    {f : PresetFile} {text : FileText} {steps : List PresetStep}
    (hfiles : matchingFiles presetFilesuffix entries = front ++ f :: back)
    (hle : (front ++ f :: back).length ≤ maxPresets)
    (hfits : ∀ g ∈ front ++ f :: back, ReadsInBounds g)
    (hfront : ∀ g ∈ front, g.readText ≠ none ∧ presetName g ≠ presetName f)
    (htext : f.readText = some text) (hlines : text.commandLines = steps.map PresetStep.line)
    (verb cmd cmd' : CStr) (dir : Option (List PresetFile)) (t : PresetTable)
    (link : DeviceLink σ) :
    ∃ msg t', commandPreset sendRawcmd (some entries) cmd [verb, str "refresh"] t link =
        .done (⟨0, msg, link, []⟩, t') ∧
      ∀ link' : DeviceLink σ,
        commandPreset sendRawcmd dir cmd' [verb, str "use", presetName f] t' link' =
            .done ((sendSteps sendRawcmd (str "0000") steps link').toRun (presetName f), t') ∧
          ∀ p ∈ (sendSteps sendRawcmd (str "0000") steps link').sent,
            ∃ s ∈ steps, WellFormed p.1 s.entry.cmdstr p.2 := by
  rw [← hfiles] at hle hfits
  obtain ⟨r, hrefresh, htable⟩ := refreshPresets_done t hle hfits
  rw [hfiles] at hle htable
  have hlen : front.length < maxPresets := by
    rw [List.length_append, List.length_cons] at hle
    omega
  have hfound := @getPreset_afterCalls front back f text hfront htext t.presets hlen
  rw [← htable] at hfound
  have hfit : TextFits text := hfits f (by rw [hfiles]; simp) text htext
  obtain ⟨hname, hncmd, hmax, hcmd⟩ :=
    presetOf_steps (f := f) (t.presets ⟨front.length, hlen⟩) hfit hlines
  generalize presetOf f.dName text (t.presets ⟨front.length, hlen⟩) = pre at hfound hname hncmd hcmd
  refine ⟨r.msg, r.table, ?_, fun link' => ⟨?_, fun p hp => wellFormed_of_mem_sent hp⟩⟩
  · rw [commandPreset_refresh_eq, hrefresh, Checked.done_bind]
  · have hloop := @execPresetLoop_eq σ sendRawcmd (str "0000") pre steps (by decide) link' []
      (by rw [hncmd, List.length_nil, Nat.zero_add])
      (hncmd.trans_le hmax) fun j h hj => by
        simp only [List.length_nil, Nat.zero_add]
        exact hcmd j h _
    have hpin : getDevicePin 16 = some (str "0000") := by decide
    rw [List.length_nil, ← hncmd] at hloop
    rw [commandPreset_use_eq, execPreset, hpin]
    dsimp only
    rw [hfound, Checked.done_bind]
    dsimp only
    rw [hloop, hname]
    generalize sendSteps sendRawcmd (str "0000") steps link' = d
    rw [Checked.done_bind, Sending.after, List.nil_append, Sending.toRun]
    cases d.complete with
    | true => rfl
    | false => rfl

end

/-! ## A directory with one preset -/

/-- A file of three lines. -/
def ledFile : PresetFile :=
  ⟨str "led.preset", true,
    some ⟨str "# Turns the light off\nLed(0)\nsleep(1, 60)\n", true⟩⟩

def ledStep : PresetStep where
  name := str "Led"
  args := [str "0"]
  entry := ⟨str "led", str "ELED"⟩
  mem := by decide +kernel
  named := by decide +kernel
  lineArgs := ⟨by decide, by decide, by decide, by decide⟩
  short := by decide +kernel

def sleepStep : PresetStep where
  name := str "sleep"
  args := [str "1", str " 60"]
  entry := ⟨str "sleep", str "SLEEP"⟩
  mem := by decide +kernel
  named := by decide +kernel
  lineArgs := ⟨by decide, by decide, by decide, by decide⟩
  short := by decide +kernel

/-- A device that takes short commands only. -/
def shortCommands : SendRawcmd Unit := fun cmd _ link => (if cmd.length < 24 then 0 else -1, link)

/-- The second command fails. -/
theorem commandPreset_use_led :
    ∃ msg t',
      commandPreset shortCommands (some [ledFile]) [] [[], str "refresh"] emptyTable ⟨6, ()⟩ =
        .done (⟨0, msg, ⟨6, ()⟩, []⟩, t') ∧
      commandPreset shortCommands none [] [[], str "use", str "led"] t' ⟨6, ()⟩ =
        .done (⟨-1, str "[ERR] Failed to execute command #01 in preset \"led\".", ⟨8, ()⟩,
          [(str "$WP+ELED+0007=0000,0", str "0007"),
            (str "$WP+SLEEP+0008=0000,1,60", str "0008")]⟩, t') := by
  have hlines : countedLines
      (getlineLoop [] (str "# Turns the light off\nLed(0)\nsleep(1, 60)\n")) =
      [str "# Turns the light off", str "Led(0)", str "sleep(1, 60)"] := by decide +kernel
  have hfits : ∀ g ∈ [ledFile], ReadsInBounds g := by
    intro g hg text htext
    obtain rfl := List.mem_singleton.mp hg
    obtain rfl := Option.some.inj htext
    rw [TextFits, FileText.lines, hlines]
    simp only [linesFit_cons, linesFit_nil, and_true]
    unfold LineFits
    decide +kernel
  obtain ⟨msg, t', hrefresh, huse⟩ := @commandPreset_use Unit shortCommands [ledFile] [] []
    ledFile _ [ledStep, sleepStep] rfl (by decide) hfits (by decide) rfl (by decide +kernel)
    [] [] [] none emptyTable ⟨6, ()⟩
  refine ⟨msg, t', hrefresh, (huse ⟨6, ()⟩).1.trans ?_⟩
  exact congrArg (fun r => Checked.done (r, t')) (by decide +kernel)

end G7
