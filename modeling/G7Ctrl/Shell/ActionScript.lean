import G7Ctrl.Shell.Words
import G7Ctrl.Store.AllOrNothing

/-!
# The action script of an event (`chk_actionscript`)

When a location event has been stored, the callback looks for a script for its event id, puts a
command line together from fields of the event, and hands it to `system()`.  The latitude, the
longitude and the nick are put between double quotes; the date and the device id are not.

* `intendedWords` — the words the shell should read: the script and five options with their texts.
* `Harmless` — the date and the device id stand for themselves as they are, the quoted texts do so
  between double quotes.
* **`actionCommand_words_iff`** — for every package of a tracker and every stored nick, the shell
  reads the intended words exactly when the event is harmless.
* **`date_starts_command`** — an event whose date ends the command and begins another is stored,
  and the command is run.
-/

namespace G7

/-- What `chk_actionscript` is told from outside. -/
structure ScriptConfig where
  /-- `data_dir` -/
  dataDir : CStr
  /-- `access(scriptName, R_OK)` is 0. -/
  readable : CStr → Bool
  /-- `nick_res_set[0].nick`, if there is exactly one row for the device id. -/
  nickRes : CStr → Option CStr

/-- `db_get_nick_from_devid` -/
def dbGetNickFromDevid (cfg : ScriptConfig) (devid : CStr) : Option CStr :=
  (cfg.nickRes devid).map fun nick => xmbStrncpy nick 12

/-- `scriptName` -/
def actionScriptName (cfg : ScriptConfig) (eventid : ℕ) : CStr :=
  snprintf 256 (cfg.dataDir ++ str "/event_scripts/" ++ dec eventid ++ str "_action.sh")

/-- `nick`: the nick of the device, or its id if it has none. -/
def actionNick (cfg : ScriptConfig) (flds : List CStr) : CStr :=
  match dbGetNickFromDevid cfg (fld flds .devid) with
  | some nick => nick
  | none => xmbStrncpy (fld flds .devid) 15

/-- The text of the command line. -/
def actionText (scriptName : CStr) (flds : List CStr) (nick : CStr) : CStr :=
  str "sh " ++ scriptName ++ str " -t " ++ fld flds .date ++ str " -d " ++ fld flds .devid ++
    str " -l \"" ++ fld flds .lat ++ str "\" -n \"" ++ fld flds .lon ++ str "\" -m \"" ++ nick ++
    str "\""

/-- The event id as `chk_actionscript` reads it. -/
def actionEventid (flds : List CStr) : ℕ := toUnsigned32 (xatoi (fld flds .eventid))

/-- `chk_actionscript`: the command line it hands to `system_thread`, if any. -/
def chkActionscript (cfg : ScriptConfig) (flds : List CStr) : Option CStr :=
  if 100 < actionEventid flds then none
  else if cfg.readable (actionScriptName cfg (actionEventid flds)) then
    some (snprintf 2048
      (actionText (actionScriptName cfg (actionEventid flds)) flds (actionNick cfg flds)))
  else none

/-- The calls of the callback. -/
def StoreResult.calls : StoreResult → List (List CStr)
  | .returned _ _ calls _ => calls
  | .overran => []

/-- The command lines a package of a tracker has run, each with the fields of its event. -/
def actionCommands (cfg : ScriptConfig) (env : StoreEnv) (package : CStr) (table : List Row) :
    List (List CStr × CStr) :=
  if arrivingPackageType package = some .loc then
    (handleLocPackage env package table).calls.filterMap fun flds =>
      (chkActionscript cfg flds).map fun cmd => (flds, cmd)
  else []

/-- The words the shell should read. -/
def intendedWords (cfg : ScriptConfig) (flds : List CStr) : List Word :=
  [str "sh", actionScriptName cfg (actionEventid flds), str "-t", fld flds .date,
    str "-d", fld flds .devid, str "-l", fld flds .lat, str "-n", fld flds .lon,
    str "-m", actionNick cfg flds]

/-- The event and what is configured stand for themselves in the command line. -/
structure Harmless (cfg : ScriptConfig) (flds : List CStr) : Prop where
  script : Plain (actionScriptName cfg (actionEventid flds))
  date : Plain (fld flds .date)
  devid : Plain (fld flds .devid)
  lat : QuoteSafe (fld flds .lat)
  lon : QuoteSafe (fld flds .lon)
  nick : QuoteSafe (actionNick cfg flds)

/-! ## The buffer is large enough -/

/-- Every record of a batch has passed the checks. -/
lemma exists_of_mem_readBatch {flds : List CStr} : ∀ {rs : List (ℕ × CStr)},
    flds ∈ (readBatch rs).1 → ∃ record, splitLocation record = some flds
  | [], h => absurd h (by simp [readBatch])
  | r :: rs, h => by
      simp only [readBatch, verdict] at h
      split_ifs at h with hover hnum
      · simp at h
      · simp at h
      · cases hsplit : splitLocation r.2 with
        | none => simp [hsplit] at h
        | some flds' =>
            simp only [hsplit, List.mem_cons] at h
            rcases h with rfl | h
            · exact ⟨r.2, hsplit⟩
            · exact exists_of_mem_readBatch h

/-- The callback is called with records that have passed the checks. -/
lemma exists_of_mem_calls {env : StoreEnv} {text : List Byte} {table : List Row}
    {flds : List CStr} (h : flds ∈ (handleLocPackage env text table).calls) :
    ∃ record, splitLocation record = some flds := by
  cases hopen : env.opens with
  | false => simp [handleLocPackage, dbStoreLocations, StoreResult.calls, hopen] at h
  | true =>
      obtain ⟨progress, hres⟩ := dbStoreLocations_eq hopen 1 text true table
      rw [handleLocPackage, hres] at h
      have hmem : flds ∈ (batchOf text).1 := by
        cases hend : (batchOf text).2 with
        | overran => simp [hend, StoreResult.calls] at h
        | rejected => simpa [hend, StoreResult.calls] using h
        | complete =>
            simp only [hend] at h
            split_ifs at h <;> simpa [StoreResult.calls] using h
      exact exists_of_mem_readBatch hmem

/-- A field that is missing is empty. -/
lemma fld_length_lt_of {flds : List CStr} {n : ℕ} (hn : 0 < n) (h : ∀ f ∈ flds, f.length < n)
    (i : LocField) : (fld flds i).length < n := by
  rw [fld, List.getD_eq_getElem?_getD]
  rcases Nat.lt_or_ge i.idx flds.length with hi | hi
  · rw [List.getElem?_eq_getElem hi]
    exact h _ (List.getElem_mem hi)
  · rw [List.getElem?_eq_none hi]
    exact hn

/-- No field of such a record fills its buffer. -/
lemma fld_length_lt {record : CStr} {flds : List CStr} (h : splitLocation record = some flds)
    (i : LocField) : (fld flds i).length < maxFieldSize := by
  simp only [splitLocation] at h
  split_ifs at h with hlong
  cases hsplit : xstrsplitfields record (ch ',') with
  | none => simp [hsplit] at h
  | some fs =>
      have hfit := xstrsplitfields_length hsplit
      simp only [hsplit] at h
      split_ifs at h with hnum hdev
      obtain rfl := Option.some.inj h
      refine fld_length_lt_of (by decide) (fun f hf => ?_) i
      rcases List.mem_or_eq_of_mem_set hf with hf | rfl
      · exact hfit f hf
      · have hvolt := fld_length_lt_of (n := maxFieldSize) (by decide) hfit .volt
        rw [List.length_dropLast]
        omega

/-- The nick is shorter than a field. -/
lemma actionNick_length_le (cfg : ScriptConfig) (flds : List CStr) :
    (actionNick cfg flds).length ≤ 17 := by
  simp only [actionNick, dbGetNickFromDevid]
  cases cfg.nickRes (fld flds .devid) with
  | none => exact xmbStrncpy_length_le _ 15
  | some nick => exact Nat.le_trans (xmbStrncpy_length_le nick 12) (by decide)

/-- The command line fits its buffer. -/
lemma actionText_length_lt (cfg : ScriptConfig) {flds : List CStr}
    (h : ∀ i, (fld flds i).length < maxFieldSize) :
    (actionText (actionScriptName cfg (actionEventid flds)) flds (actionNick cfg flds)).length
      < 2048 := by
  have hscript : (actionScriptName cfg (actionEventid flds)).length ≤ 255 := List.length_take_le ..
  have hnick := actionNick_length_le cfg flds
  have hdate := h .date
  have hdevid := h .devid
  have hlat := h .lat
  have hlon := h .lon
  rw [maxFieldSize] at hdate hdevid hlat hlon
  simp [actionText, str]
  omega

/-! ## What the shell reads -/

/-- The command line as a line of arguments. -/
def actionArgs (cfg : ScriptConfig) (flds : List CStr) : List Arg :=
  [.bare (str "sh"), .bare (actionScriptName cfg (actionEventid flds)), .bare (str "-t"),
    .bare (fld flds .date), .bare (str "-d"), .bare (fld flds .devid), .bare (str "-l"),
    .quoted (fld flds .lat), .bare (str "-n"), .quoted (fld flds .lon), .bare (str "-m"),
    .quoted (actionNick cfg flds)]

lemma actionText_eq (cfg : ScriptConfig) (flds : List CStr) :
    actionText (actionScriptName cfg (actionEventid flds)) flds (actionNick cfg flds)
      = commandLine (actionArgs cfg flds) := by
  simp [actionText, actionArgs, commandLine, Arg.text, str, ch]

/-- The arguments are safe exactly when the event is harmless. -/
lemma actionArgs_safe_iff (cfg : ScriptConfig) (flds : List CStr) :
    (∀ a ∈ actionArgs cfg flds, a.Safe) ↔ Harmless cfg flds := by
  have hsh : Plain (str "sh") := by decide +kernel
  have ht : Plain (str "-t") := by decide +kernel
  have hd : Plain (str "-d") := by decide +kernel
  have hl : Plain (str "-l") := by decide +kernel
  have hn : Plain (str "-n") := by decide +kernel
  have hm : Plain (str "-m") := by decide +kernel
  simp only [actionArgs, List.forall_mem_cons, Arg.Safe, hsh, ht, hd, hl, hn, hm, true_and]
  constructor
  · rintro ⟨hscript, hdate, hdevid, hlat, hlon, hnick, _⟩
    exact ⟨hscript, hdate, hdevid, hlat, hlon, hnick⟩
  · rintro ⟨hscript, hdate, hdevid, hlat, hlon, hnick⟩
    exact ⟨hscript, hdate, hdevid, hlat, hlon, hnick, by simp⟩

lemma actionArgs_words (cfg : ScriptConfig) (flds : List CStr) :
    (actionArgs cfg flds).map Arg.word = intendedWords cfg flds := rfl

/-- **The shell reads the intended words exactly when the event is harmless**, for every package of
a tracker, every nick stored for a device and whatever the database answers. -/
theorem actionCommand_words_iff (cfg : ScriptConfig) (env : StoreEnv) (package : CStr)
    (table : List Row) :
    ∀ r ∈ actionCommands cfg env package table,
      shellWords r.2 = some (intendedWords cfg r.1) ↔ Harmless cfg r.1 := by
  rintro ⟨flds, cmd⟩ hr
  simp only [actionCommands] at hr
  split_ifs at hr
  · obtain ⟨flds', hcall, hcmd⟩ := List.mem_filterMap.mp hr
    obtain ⟨cmd', hscript, heq⟩ := Option.map_eq_some_iff.mp hcmd
    obtain ⟨rfl, rfl⟩ := Prod.mk.inj heq
    obtain ⟨record, hrecord⟩ := exists_of_mem_calls hcall
    simp only [chkActionscript] at hscript
    split_ifs at hscript
    obtain rfl := Option.some.inj hscript
    rw [snprintf_of_lt (actionText_length_lt cfg (fld_length_lt hrecord)), actionText_eq,
      ← actionArgs_words, words_commandLine_iff, actionArgs_safe_iff]
  · simp at hr

/-- Scripts for every event, and no nicks. -/
def scriptsForAll : ScriptConfig where
  dataDir := str "/var/lib/g7ctrl"
  readable := fun _ => true
  nickRes := fun _ => none

/-- An event of a tracker with this date. -/
def locationAt (date : CStr) : CStr :=
  str "3000000001," ++ date ++ str ",17.959445,59.366545,0,0,0,0,2,3.88V,0\r\n"

/-- Its fields. -/
def fieldsAt (date : CStr) : List CStr :=
  [str "3000000001", date, str "17.959445", str "59.366545", str "0", str "0", str "0", str "0",
    str "2", str "3.88", str "0"]

/-- The command line it has run. -/
def commandAt (date : CStr) : CStr :=
  str "sh /var/lib/g7ctrl/event_scripts/2_action.sh -t " ++ date ++
    str " -d 3000000001 -l \"59.366545\" -n \"17.959445\" -m \"3000000001\""

/-- An event with an ordinary date is harmless. -/
theorem actionCommand_words_iff_ordinary :
    (fieldsAt (str "20131211002222"), commandAt (str "20131211002222"))
        ∈ actionCommands scriptsForAll busyDatabase (locationAt (str "20131211002222")) [] ∧
      shellWords (commandAt (str "20131211002222"))
        = some (intendedWords scriptsForAll (fieldsAt (str "20131211002222"))) := by
  have hmem : (fieldsAt (str "20131211002222"), commandAt (str "20131211002222"))
      ∈ actionCommands scriptsForAll busyDatabase (locationAt (str "20131211002222")) [] := by
    decide +kernel
  have hharmless : Harmless scriptsForAll (fieldsAt (str "20131211002222")) :=
    ⟨by decide +kernel, by decide +kernel, by decide +kernel, by decide +kernel, by decide +kernel,
      by decide +kernel⟩
  exact ⟨hmem, (actionCommand_words_iff _ _ _ _ _ hmem).mpr hharmless⟩

/-- **A date can start a command**: a `;` in it ends the script's command line, and what follows is
run as another. -/
theorem date_starts_command :
    ¬ ∀ (cfg : ScriptConfig) (env : StoreEnv) (package : CStr) (table : List Row),
      ∀ r ∈ actionCommands cfg env package table,
        shellWords r.2 = some (intendedWords cfg r.1) := by
  intro h
  have hmem : (fieldsAt (str "20131211002222;reboot"), commandAt (str "20131211002222;reboot"))
      ∈ actionCommands scriptsForAll busyDatabase (locationAt (str "20131211002222;reboot")) [] := by
    decide +kernel
  have hwords := h _ _ _ _ _ hmem
  have hnone : shellWords (commandAt (str "20131211002222;reboot")) = none := by decide +kernel
  rw [hnone] at hwords
  exact absurd hwords (by simp)

end G7
