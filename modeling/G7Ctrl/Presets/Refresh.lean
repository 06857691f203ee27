import G7Ctrl.Presets.PresetFile

/-!
# Re-reading the presets (`refreshPresets`)

All presets are read again from their directory, by the iterator over the files with the callback
that fills the entries of the table.  The number of presets is the number of files the callback was
called for, whatever became of the calls.

* `refreshPresets` — the function.
* `RefreshOk` — every preset that is listed was read from a file, whole.
* **`refreshPresets_ok_iff`** — what a directory must be like for that.
* `unreadableFile_listed` — a file that cannot be opened is listed.
-/

namespace G7

/-- The table of presets. -/
structure PresetTable where
  presets : Presets
  numPresets : ℕ

/-- What a refresh leaves: its return code, the table, the text for the user, and the calls of the
callback, at which the code does not look. -/
structure RefreshResult where
  rc : ℤ
  table : PresetTable
  msg : CStr
  calls : List (PresetFile × ℤ)

/-- `PRESET_FILESUFFIX` -/
def presetFilesuffix : CStr := str "preset"

/-- `refreshPresets` -/
def refreshPresets (dir : Option (List PresetFile)) (t : PresetTable) : Checked RefreshResult := do
  let r ← processFiles presetFilesuffix maxPresets callbackPresetFile dir t.presets
  if r.1 < 0 then
    return ⟨-1, ⟨r.2.state, 0⟩, str "[ERR] Unknown error re-reading preset files.", r.2.calls⟩
  else
    return ⟨0, ⟨r.2.state, r.2.numfiles⟩,
      if r.2.numfiles ≠ 0 then str "Refreshed " ++ dec r.2.numfiles ++ str " preset files."
      else str "[ERR] Found no preset files to refresh.", r.2.calls⟩

/-! ## What is expected of a refresh -/

/-- The entry was filled from this file, which was read to its end, and has its command lines as
they are. -/
structure Filled (p : Preset) (f : PresetFile) (text : FileText) : Prop where
  contents : f.contents = some text
  atEnd : text.atEnd = true
  name : p.name = stripFilesuffix (xmbStrncpy f.dName (nameSize - 1))
  shortdesc : p.shortdesc = shortdescOf (countedLines text.lines)
  longdesc : p.longdesc = longdescOf (countedLines text.lines)
  ncmd_le : p.ncmd ≤ presetCmds
  ncmd : p.ncmd = text.commandLines.length
  cmd : ∀ j : Fin presetCmds, (j : ℕ) < p.ncmd → text.commandLines[(j : ℕ)]? = some (p.cmd j)

/-- **Every preset that is listed was read.**  After 0 each entry that counts was filled by a call of
the callback in this refresh; after -1 none counts. -/
structure Refreshed (r : RefreshResult) : Prop where
  le : r.table.numPresets ≤ maxPresets
  filled : r.rc = 0 → ∀ i : Fin maxPresets, (i : ℕ) < r.table.numPresets →
    ∃ f text, r.calls[(i : ℕ)]? = some (f, 0) ∧ Filled (r.table.presets i) f text
  none_listed : r.rc = -1 → r.table.numPresets = 0

/-- The refresh stays inside the table and leaves it as expected. -/
def RefreshOk (run : Checked RefreshResult) : Prop := ∃ r, run = .done r ∧ Refreshed r

/-- The file can be opened and read to its end, its name fits, and its command lines have no NUL and
fit. -/
def KeptWhole (f : PresetFile) : Prop :=
  ∃ text, f.readText = some text ∧ text.atEnd = true ∧
    ∀ l ∈ text.commandLines, (0 : Byte) ∉ l ∧ l.length < cmdSize - 1

/-- What a directory must be like: in no file that is read a line is copied past the end of its
field, and, unless there are too many files, all of them can be read whole. -/
def RefreshCondition : Option (List PresetFile) → Prop
  | none => True
  | some entries =>
      let files := matchingFiles presetFilesuffix entries
      (∀ f ∈ files.take maxPresets, ReadsInBounds f) ∧
        (files.length ≤ maxPresets → ∀ f ∈ files, KeptWhole f)

/-! ## The calls of the callback -/

/-- What the calls for some files leave. -/
def afterCalls : List PresetFile → Processed (Option FileText) Presets →
    Processed (Option FileText) Presets
  | [], p => p
  | f :: fs, p =>
      afterCalls fs ⟨p.numfiles + 1,
        if h : p.numfiles < maxPresets then
          Function.update p.state ⟨p.numfiles, h⟩ (entryAfter f (p.state ⟨p.numfiles, h⟩))
        else p.state,
        p.calls ++ [(f, callbackRc f)]⟩

lemma runCalls_endsIff (files : List PresetFile) (p : Processed (Option FileText) Presets)
    (hroom : p.numfiles + files.length ≤ maxPresets) :
    (runCalls callbackPresetFile files p).EndsIff (∀ f ∈ files, ReadsInBounds f)
      (afterCalls files p) := by
  induction files generalizing p with
  | nil => exact .of_done fun f hf => by cases hf
  | cons f files ih =>
      rw [List.length_cons] at hroom
      have hlt : p.numfiles < maxPresets := by omega
      rw [runCalls, afterCalls, dif_pos hlt]
      have hcall := callbackPresetFile_endsIff f ⟨p.numfiles, hlt⟩ p.state
      dsimp only at hcall
      generalize Function.update p.state ⟨p.numfiles, hlt⟩
        (entryAfter f (p.state ⟨p.numfiles, hlt⟩)) = state at hcall ⊢
      have hrest := ih ⟨p.numfiles + 1, state, p.calls ++ [(f, callbackRc f)]⟩
        (by dsimp only; omega)
      exact (hcall.bind fun _ => hrest).congr List.forall_mem_cons.symm

lemma afterCalls_numfiles (files : List PresetFile) (p : Processed (Option FileText) Presets) :
    (afterCalls files p).numfiles = p.numfiles + files.length := by
  induction files generalizing p with
  | nil => rfl
  | cons f files ih =>
      rw [afterCalls, ih, List.length_cons]
      dsimp only
      omega

lemma afterCalls_calls (files : List PresetFile) (p : Processed (Option FileText) Presets) :
    (afterCalls files p).calls = p.calls ++ files.map fun f => (f, callbackRc f) := by
  induction files generalizing p with
  | nil => rw [afterCalls, List.map_nil, List.append_nil]
  | cons f files ih => rw [afterCalls, ih, List.map_cons, List.append_assoc, List.singleton_append]

/-- The entries of earlier calls stay. -/
lemma afterCalls_state_of_lt (files : List PresetFile) {p : Processed (Option FileText) Presets}
    {i : Fin maxPresets} (hi : (i : ℕ) < p.numfiles) : (afterCalls files p).state i = p.state i := by
  induction files generalizing p with
  | nil => rfl
  | cons f files ih =>
      rw [afterCalls, ih (show (i : ℕ) < p.numfiles + 1 by omega)]
      dsimp only
      split_ifs with hlt
      · rw [Function.update_of_ne fun h => hi.ne (congrArg Fin.val h)]
      · rfl

/-- **The entry of a call** is what the callback makes of it. -/
lemma afterCalls_state (front back : List PresetFile) (f : PresetFile)
    {p : Processed (Option FileText) Presets} {i : Fin maxPresets}
    (hi : (i : ℕ) = p.numfiles + front.length) :
    (afterCalls (front ++ f :: back) p).state i = entryAfter f (p.state i) := by
  induction front generalizing p with
  | nil =>
      have hlt : p.numfiles < maxPresets := by
        have hi' := i.isLt
        rwa [hi] at hi'
      obtain rfl : i = ⟨p.numfiles, hlt⟩ := Fin.ext hi
      rw [List.nil_append, afterCalls, afterCalls_state_of_lt _ (Nat.lt_succ_self _), dif_pos hlt]
      dsimp only
      rw [Function.update_self]
  | cons g front ih =>
      rw [List.length_cons] at hi
      rw [List.cons_append, afterCalls, ih (by dsimp only; omega)]
      dsimp only
      split_ifs with hlt
      · rw [Function.update_of_ne fun h => by have := congrArg Fin.val h; dsimp only at this; omega]
      · rfl

/-! ## The refresh -/

/-- When an entry is one that was filled from a file whose lines fit. -/
lemma filled_presetOf_iff {f : PresetFile} {text : FileText} (old : Preset)
    (hcontents : f.contents = some text) (hfits : TextFits text) :
    Filled (presetOf f.dName text old) f text ↔
      text.atEnd = true ∧ ∀ l ∈ text.commandLines, (0 : Byte) ∉ l ∧ l.length < cmdSize - 1 := by
  rw [← commands_whole_iff]
  have hle := length_commandsOf_le hfits
  constructor
  · intro h
    refine ⟨h.atEnd, List.ext_getElem? fun j => ?_⟩
    have hncmd : (commandsOf (countedLines text.lines)).length = text.commandLines.length := h.ncmd
    rcases Nat.lt_or_ge j (commandsOf (countedLines text.lines)).length with hj | hj
    · have hcmd := h.cmd ⟨j, hj.trans_le hle⟩ hj
      rw [hcmd, List.getElem?_map, List.getElem?_eq_getElem hj]
      simp only [presetOf, readAfter, List.getElem?_eq_getElem hj]
      rfl
    · rw [List.getElem?_eq_none (by rwa [List.length_map]),
        List.getElem?_eq_none (by rwa [← hncmd])]
  · rintro ⟨hend, hwhole⟩
    refine ⟨hcontents, hend, ?_, ?_, ?_, ?_, ?_, fun j hj => ?_⟩
    · simp only [presetOf, readAfter]
    · simp only [presetOf, readAfter]
    · simp only [presetOf, readAfter]
    · simpa only [presetOf, readAfter] using hle
    · simp only [presetOf, readAfter, ← hwhole, List.length_map]
    · simp only [presetOf, readAfter] at hj ⊢
      rw [← hwhole, List.getElem?_map, List.getElem?_eq_getElem hj]
      rfl

/-- A call fills its entry if and only if its file can be read whole. -/
lemma filled_entryAfter_iff {f : PresetFile} (hfits : ReadsInBounds f) (old : Preset) :
    (callbackRc f = 0 ∧ ∃ text, Filled (entryAfter f old) f text) ↔ KeptWhole f := by
  rw [callbackRc, entryAfter, KeptWhole]
  cases hread : f.readText with
  | none => simp
  | some text =>
      have hcontents : f.contents = some text := by
        rw [DirEntry.readText] at hread
        split_ifs at hread
        exact hread
      have htext : ∀ t, Filled (presetOf f.dName text old) f t → t = text :=
        fun t ht => Option.some.inj (ht.contents.symm.trans hcontents)
      constructor
      · rintro ⟨-, t, ht⟩
        obtain rfl := htext t ht
        obtain ⟨hend, hlines⟩ := (filled_presetOf_iff old hcontents (hfits t hread)).mp ht
        exact ⟨t, rfl, hend, hlines⟩
      · rintro ⟨t, ht, hend, hlines⟩
        obtain rfl := Option.some.inj ht
        exact ⟨if_neg (Option.some_ne_none _), text,
          (filled_presetOf_iff old hcontents (hfits text hread)).mpr ⟨hend, hlines⟩⟩

/-- **The entries that count**, after a refresh that is not cut short. -/
lemma refreshed_iff {files : List PresetFile} (hle : files.length ≤ maxPresets)
    (hfits : ∀ f ∈ files, ReadsInBounds f) (presets : Presets) (msg : CStr) :
    Refreshed ⟨0, ⟨(afterCalls files ⟨0, presets, []⟩).state, files.length⟩, msg,
        (afterCalls files ⟨0, presets, []⟩).calls⟩ ↔ ∀ f ∈ files, KeptWhole f := by
  have hcall (i : ℕ) (f : PresetFile) (rc : ℤ) :
      (afterCalls files ⟨0, presets, []⟩).calls[i]? = some (f, rc) ↔
        files[i]? = some f ∧ callbackRc f = rc := by
    rw [afterCalls_calls, List.nil_append, List.getElem?_map, Option.map_eq_some_iff]
    constructor
    · rintro ⟨g, hg, hpair⟩
      obtain ⟨rfl, rfl⟩ := Prod.mk.inj hpair
      exact ⟨hg, rfl⟩
    · rintro ⟨hf, rfl⟩
      exact ⟨f, hf, rfl⟩
  have hentry (i : Fin maxPresets) (f : PresetFile) (hf : files[(i : ℕ)]? = some f) :
      (afterCalls files ⟨0, presets, []⟩).state i = entryAfter f (presets i) := by
    obtain ⟨hi, hget⟩ := List.getElem?_eq_some_iff.mp hf
    have hsplit : files = files.take i ++ f :: files.drop (i + 1) := by
      rw [← hget, List.cons_getElem_drop_succ, List.take_append_drop]
    have hstate := afterCalls_state (files.take i) (files.drop (i + 1)) f
      (p := ⟨0, presets, []⟩) (i := i) (by rw [List.length_take, Nat.min_eq_left hi.le, Nat.zero_add])
    rwa [← hsplit] at hstate
  constructor
  · intro h f hf
    obtain ⟨i, hi, hget⟩ := List.mem_iff_getElem.mp hf
    have hfile : files[i]? = some f := by rw [List.getElem?_eq_getElem hi, hget]
    obtain ⟨g, text, hg, hfilled⟩ := h.filled rfl ⟨i, hi.trans_le hle⟩ hi
    obtain ⟨hgfile, hrc⟩ := (hcall i g 0).mp hg
    obtain rfl : f = g := Option.some.inj (hfile.symm.trans hgfile)
    dsimp only at hfilled
    rw [hentry ⟨i, hi.trans_le hle⟩ f hfile] at hfilled
    exact (filled_entryAfter_iff (hfits f hf) _).mp ⟨hrc, text, hfilled⟩
  · intro h
    refine ⟨hle, fun _ i hi => ?_, fun hrc => by cases hrc⟩
    have hfile : files[(i : ℕ)]? = some files[(i : ℕ)] := List.getElem?_eq_getElem hi
    have hmem : files[(i : ℕ)] ∈ files := List.getElem_mem hi
    obtain ⟨hrc, text, hfilled⟩ :=
      (filled_entryAfter_iff (hfits _ hmem) (presets i)).mpr (h _ hmem)
    refine ⟨files[(i : ℕ)], text, (hcall i _ 0).mpr ⟨hfile, hrc⟩, ?_⟩
    rw [← hentry i _ hfile] at hfilled
    exact hfilled

/-- **When a refresh leaves what is expected**, whatever the table was before. -/
theorem refreshPresets_ok_iff (dir : Option (List PresetFile)) (t : PresetTable) :
    RefreshOk (refreshPresets dir t) ↔ RefreshCondition dir := by
  cases dir with
  | none =>
      refine iff_of_true ⟨_, rfl, ?_⟩ trivial
      exact ⟨Nat.zero_le _, (fun h => by cases h), fun _ => rfl⟩
  | some entries =>
      rw [refreshPresets, processFiles_some, Checked.bind_assoc, RefreshCondition]
      generalize matchingFiles presetFilesuffix entries = files
      have hcalls := runCalls_endsIff (files.take maxPresets) ⟨0, t.presets, []⟩
        (by rw [List.length_take]; dsimp only; omega)
      by_cases hfits : ∀ f ∈ files.take maxPresets, ReadsInBounds f
      · rw [hcalls.done hfits, Checked.done_bind, Checked.done_bind, processRc]
        by_cases hle : files.length ≤ maxPresets
        · have hnum := afterCalls_numfiles files ⟨0, t.presets, []⟩
          rw [List.take_of_length_le hle] at hfits ⊢
          rw [if_pos hle, if_neg (show ¬ (0 : ℤ) < 0 by decide)]
          dsimp only at hnum ⊢
          rw [hnum, Nat.zero_add]
          have hrefreshed := refreshed_iff hle hfits t.presets
          constructor
          · rintro ⟨r, hr, hok⟩
            obtain rfl := Checked.done.inj hr
            exact ⟨hfits, fun _ => (hrefreshed _).mp hok⟩
          · exact fun h => ⟨_, rfl, (hrefreshed _).mpr (h.2 hle)⟩
        · rw [if_neg hle, if_pos (show (-1 : ℤ) < 0 by decide)]
          refine iff_of_true ⟨_, rfl, ?_⟩ ⟨hfits, fun h => absurd h hle⟩
          exact ⟨Nat.zero_le _, (fun h => by cases h), fun _ => rfl⟩
      · rw [hcalls.fault hfits, Checked.fault_bind]
        refine iff_of_false ?_ fun h => hfits h.1
        rintro ⟨r, hr, -⟩
        cases hr

/-! ## A file that cannot be opened -/

/-- The table at the start of the program. -/
def emptyTable : PresetTable := ⟨fun _ => ⟨[], [], [], 0, fun _ => []⟩, 0⟩

/-- A file that cannot be opened. -/
def unreadableFile : PresetFile := ⟨str "gprs_off.preset", true, none⟩

/-- **The file is listed**, though nothing was read. -/
theorem unreadableFile_listed :
    (∃ r, refreshPresets (some [unreadableFile]) emptyTable = .done r ∧ r.rc = 0 ∧
      r.table.numPresets = 1 ∧ r.calls = [(unreadableFile, -1)] ∧
      r.msg = str "Refreshed 1 preset files.") ∧
      ¬ RefreshOk (refreshPresets (some [unreadableFile]) emptyTable) := by
  have hrun : refreshPresets (some [unreadableFile]) emptyTable =
      .done ⟨0, ⟨emptyTable.presets, 1⟩, str "Refreshed 1 preset files.",
        [(unreadableFile, -1)]⟩ := rfl
  refine ⟨⟨_, hrun, rfl, rfl, rfl, rfl⟩, ?_⟩
  rintro ⟨r, hr, hok⟩
  obtain rfl := Checked.done.inj (hrun.symm.trans hr)
  obtain ⟨f, text, hcall, -⟩ := hok.filled rfl ⟨0, by decide⟩ Nat.one_pos
  have hpair := (Prod.mk.inj (Option.some.inj hcall)).2
  exact absurd hpair (by decide)

end G7
