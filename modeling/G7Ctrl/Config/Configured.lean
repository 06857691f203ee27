import G7Ctrl.Config.Settings
import G7Ctrl.Config.IniDocument
import G7Ctrl.Xstr.Decimal
import Mathlib.Data.FinEnum

/-!
# The settings that are meant

What the daemon is to make of its configuration file and its arguments: every variable has the value
that the file has for its key, or the default, a port that is given as an argument going before
both; every value is in its range, and no two settings contradict each other.

* `Configured` — the settings are those of one file, and those that are read once are those of
  another.
* **`startDaemon_iff`** — the daemon starts exactly when there are such settings for its file, and
  with these.
-/

namespace G7

variable {D : Type}

/-- What counts for an integer that was read. -/
def StartArgs.inEffect (args : StartArgs) (v : IntVar) (n : ℤ) : ℤ :=
  if v = .tcpipDevicePort ∧ -1 < args.devicePort then args.devicePort
  else if v = .tcpipCmdPort ∧ -1 < args.cmdPort then args.cmdPort
  else n

/-- The variable of a reading has what the map has for its key. -/
def IniRead.Assigned (atof : CStr → D) (m : IniMap) (args : StartArgs) (g : Globals D) :
    IniRead D → Prop
  | .str key v dflt => g.str v = (m.get key dflt id).take (v.size - 1)
  | .bool key v dflt => g.bool v = m.get key dflt fun s => (iniBoolean s).getD dflt
  | .int key v dflt _ _ =>
      g.int v = args.inEffect v (m.get key dflt fun s => toInt32 (strtolBase0 s))
  | .double key v dflt _ _ => g.double v = m.get key dflt atof
  | .trackSplit => True
  | .clientPwd => True

/-- A reading and its outcome as they are meant. -/
structure IniRead.Meant [LE D] (atof : CStr → D) (m : IniMap) (args : StartArgs) (g : Globals D)
    (r : IniRead D) : Prop where
  readable : r.Readable m
  accepts : r.Accepts atof m g
  assigned : r.Assigned atof m args g

/-- What is read once is as it is meant. -/
structure Started [LE D] (atof : CStr → D) (m₀ : IniMap) (args : StartArgs) (g : Globals D) :
    Prop where
  startup : ∀ r ∈ readInisettingsStartup, r.Meant atof m₀ args g
  apiKey : apiKeyMissing g = false

/-- **The settings are those that are meant** by the file `m`, by `m₀` where they are read once, and
by the arguments. -/
structure Configured [LE D] [OfScientific D] (atof : CStr → D) (m₀ m : IniMap) (args : StartArgs)
    (g : Globals D) : Prop extends Started atof m₀ args g where
  settings : ∀ r ∈ readInisettings, r.Meant atof m args g

/-! ## The two sequences of readings -/

/-- What `read_inisettings_startup` writes. -/
def startupVars : List Var :=
  [.str .runAsUser, .int .tcpipDevicePort, .int .tcpipCmdPort, .int .geocacheAddressSize,
    .int .geocacheMinimapSize, .str .googleApiKey, .bool .useAddressLookup, .bool .includeMinimap]

/-- What `read_inisettings` writes. -/
def settingsVars : List Var :=
  [.int .maxClients, .int .sttyDeviceStartidx, .int .maxIdleTime, .int .maxDeviceIdleTime,
    .int .tracksegSplitTime, .int .trackSplitTime, .bool .enableRawDeviceCommands,
    .bool .requireClientPwd, .bool .translateDeviceReply, .str .clientPwd,
    .str .attachmentCompression, .int .verboseLog, .bool .enableGfenTracking,
    .int .gfenTrackingInterval, .bool .mailOnTrackerConn, .bool .scriptOnTrackerConn,
    .int .addressLookupProximity, .bool .pdfreportGeoeventNewpage,
    .bool .pdfreportHideEmptyGeoevent, .str .pdfreportDir, .double .minBatteryVoltage,
    .double .maxBatteryVoltage, .bool .enableMail, .str .mailSubjectPrefix,
    .bool .sendMailOnEvent, .bool .useHtmlMail, .bool .smtpUse, .str .smtpServer,
    .str .sendMailaddress, .str .daemonEmailFrom, .int .smtpPort, .str .smtpUser, .str .smtpPwd,
    .bool .forceMailOnAllEvents, .bool .useShortDevid, .int .minimapOverviewZoom,
    .int .minimapDetailedZoom, .int .minimapWidth, .int .minimapHeight]

section

variable {atof : CStr → D} {m m₀ : IniMap} {args : StartArgs} {g g' : Globals D} {r : IniRead D}
  {rs : List (IniRead D)} {v : Var}

lemma writes_startup :
    (readInisettingsStartup (D := D)).filterMap IniRead.writes = startupVars := rfl

lemma writes_settings [OfScientific D] :
    (readInisettings (D := D)).filterMap IniRead.writes = settingsVars := rfl

/-- Every variable is read. -/
lemma mem_vars (v : Var) : v ∈ startupVars ∨ v ∈ settingsVars := by
  rcases v with v | v | v | v
  · cases v <;> decide
  · cases v <;> decide
  · cases v <;> decide
  · cases v <;> decide

lemma notMem_settingsVars : ∀ v ∈ startupVars, v ∉ settingsVars := by
  decide

lemma checksLast_startup : ChecksLast (readInisettingsStartup (D := D)) := by
  simp [ChecksLast, readInisettingsStartup, IniRead.uses]

lemma checksLast_settings [OfScientific D] : ChecksLast (readInisettings (D := D)) := by
  simp [ChecksLast, readInisettings, IniRead.uses, IniRead.writes]

lemma inEffect_none (v : IntVar) (n : ℤ) : StartArgs.inEffect {} v n = n := by
  rw [StartArgs.inEffect, if_neg (by simp), if_neg (by simp)]

lemma assigned_assign : r.Assigned atof m {} (r.assign atof m g) := by
  cases r with
  | str key v dflt | bool key v dflt | double key v dflt min max => exact Function.update_self ..
  | int key v dflt min max => exact (Function.update_self ..).trans (inEffect_none v _).symm
  | trackSplit | clientPwd => trivial

lemma assigned_congr (h : ∀ v ∈ r.writes, g.Agree g' v) (hg : r.Assigned atof m args g') :
    r.Assigned atof m args g := by
  cases r with
  | str key v dflt | bool key v dflt | int key v dflt min max | double key v dflt min max =>
      exact Eq.trans (h _ rfl) hg
  | trackSplit | clientPwd => trivial

/-- Two settings with the same value. -/
lemma agree_of_assigned (h : r.Assigned atof m args g) (h' : r.Assigned atof m args g')
    (hv : v ∈ r.writes) : g.Agree g' v := by
  cases r with
  | str key w dflt | bool key w dflt | int key w dflt min max | double key w dflt min max =>
      cases hv
      exact Eq.trans h h'.symm
  | trackSplit | clientPwd => cases hv

/-- **What is read is there in the end**, if nothing is read twice. -/
lemma assigned_assignAll (hnodup : (rs.filterMap IniRead.writes).Nodup) (hr : r ∈ rs) :
    r.Assigned atof m {} (assignAll atof m rs g) := by
  induction rs generalizing g with
  | nil => cases hr
  | cons r' rs ih =>
      rcases List.mem_cons.mp hr with rfl | hr
      · change r.Assigned atof m {} (assignAll atof m rs (r.assign atof m g))
        refine assigned_congr (fun v hv => assignAll_agree ?_) assigned_assign
        rw [List.filterMap_cons_some hv] at hnodup
        exact (List.nodup_cons.mp hnodup).1
      · exact ih (hnodup.sublist ((List.sublist_cons_self r' rs).filterMap _)) hr

/-! ## The arguments -/

lemma overrideArg_int (arg : ℤ) (w v : IntVar) :
    (overrideArg arg w g).int v = if v = w ∧ -1 < arg then arg else g.int v := by
  rw [overrideArg]
  by_cases harg : -1 < arg
  · rw [if_pos harg]
    refine (Function.update_apply g.int w arg v).trans ?_
    simp [harg]
  · simp [harg]

lemma apply_int {v : IntVar} (hv : v ≠ .verboseLog) :
    (args.apply g).int v = args.inEffect v (g.int v) := by
  have hskip : ¬ (v = .verboseLog ∧ -1 < args.verboseLog) := fun h => hv h.1
  rw [StartArgs.apply, overrideArg_int, overrideArg_int, overrideArg_int, StartArgs.inEffect,
    if_neg hskip]

lemma overrideArg_agree {arg : ℤ} {w : IntVar} (hv : ∀ w', v ≠ .int w') :
    (overrideArg arg w g).Agree g v := by
  rw [overrideArg]
  split_ifs with harg
  · cases v with
    | int v => exact absurd rfl (hv v)
    | bool v | str v | double v => rfl
  · exact .refl

lemma apply_agree (hv : ∀ w, v ≠ .int w) : (args.apply g).Agree g v :=
  (overrideArg_agree hv).trans ((overrideArg_agree hv).trans (overrideArg_agree hv))

/-- The arguments count for what was read before. -/
lemma assigned_apply (hr : r.writes ≠ some (.int .verboseLog)) (h : r.Assigned atof m {} g) :
    r.Assigned atof m args (args.apply g) := by
  cases r with
  | str key v dflt => exact Eq.trans (apply_agree (v := .str v) (by simp)) h
  | bool key v dflt => exact Eq.trans (apply_agree (v := .bool v) (by simp)) h
  | double key v dflt min max => exact Eq.trans (apply_agree (v := .double v) (by simp)) h
  | int key v dflt min max =>
      rw [IniRead.Assigned, inEffect_none] at h
      rw [IniRead.Assigned, apply_int fun heq => hr (by rw [heq]; rfl), h]
  | trackSplit | clientPwd => trivial

/-! ## The start -/

lemma assigned_settings (hr : r.writes ≠ some (.int .tcpipDevicePort))
    (hr' : r.writes ≠ some (.int .tcpipCmdPort)) (h : r.Assigned atof m {} g) :
    r.Assigned atof m args g := by
  cases r with
  | str key v dflt | bool key v dflt | double key v dflt min max => exact h
  | int key v dflt min max =>
      rw [IniRead.Assigned, inEffect_none] at h
      rw [IniRead.Assigned, StartArgs.inEffect, if_neg fun heq => hr (by rw [heq.1]; rfl),
        if_neg fun heq => hr' (by rw [heq.1]; rfl), h]
  | trackSplit | clientPwd => trivial

lemma mem_vars_of_writes [OfScientific D] (hr : r ∈ readInisettings) (hv : v ∈ r.writes) :
    v ∈ settingsVars := by
  rw [← writes_settings (D := D)]
  exact List.mem_filterMap.mpr ⟨r, hr, hv⟩

lemma mem_startupVars_of_writes (hr : r ∈ readInisettingsStartup) (hv : v ∈ r.writes) :
    v ∈ startupVars := by
  rw [← writes_startup]
  exact List.mem_filterMap.mpr ⟨r, hr, hv⟩

lemma assigned_readInisettings [OfScientific D] (hr : r ∈ readInisettings) :
    r.Assigned atof m args (assignAll atof m readInisettings g) := by
  have hnodup : (readInisettings.filterMap (IniRead.writes (D := D))).Nodup := by
    rw [writes_settings]
    decide
  refine assigned_settings (fun hv => ?_) (fun hv => ?_) (assigned_assignAll hnodup hr)
  · exact absurd (mem_vars_of_writes hr hv) (by decide)
  · exact absurd (mem_vars_of_writes hr hv) (by decide)

lemma assigned_startup (hr : r ∈ readInisettingsStartup) :
    r.Assigned atof m args (args.apply (assignAll atof m readInisettingsStartup g)) := by
  have hnodup : (readInisettingsStartup.filterMap (IniRead.writes (D := D))).Nodup := by
    rw [writes_startup]
    decide
  refine assigned_apply (fun hv => ?_) (assigned_assignAll hnodup hr)
  exact absurd (mem_startupVars_of_writes hr hv) (by decide)

lemma agree_startup (h : ∀ r ∈ readInisettingsStartup, r.Assigned atof m args g)
    (h' : ∀ r ∈ readInisettingsStartup, r.Assigned atof m args g') (hv : v ∈ startupVars) :
    g.Agree g' v := by
  rw [← writes_startup (D := D)] at hv
  obtain ⟨r, hr, hw⟩ := List.mem_filterMap.mp hv
  exact agree_of_assigned (h r hr) (h' r hr) hw

/-- **There is one way to set the variables** as it is meant. -/
lemma eq_of_assigned [OfScientific D]
    (hstartup : ∀ r ∈ readInisettingsStartup, r.Assigned atof m₀ args g)
    (hsettings : ∀ r ∈ readInisettings, r.Assigned atof m args g)
    (hstartup' : ∀ r ∈ readInisettingsStartup, r.Assigned atof m₀ args g')
    (hsettings' : ∀ r ∈ readInisettings, r.Assigned atof m args g') : g = g' := by
  refine Globals.ext_agree fun v => ?_
  rcases mem_vars v with hv | hv
  · exact agree_startup hstartup hstartup' hv
  · rw [← writes_settings (D := D)] at hv
    obtain ⟨r, hr, hw⟩ := List.mem_filterMap.mp hv
    exact agree_of_assigned (hsettings r hr) (hsettings' r hr) hw

lemma apiKeyMissing_congr (hkey : g.Agree g' (.str .googleApiKey))
    (hlookup : g.Agree g' (.bool .useAddressLookup))
    (hminimap : g.Agree g' (.bool .includeMinimap)) : apiKeyMissing g = apiKeyMissing g' := by
  have hkey : g.str .googleApiKey = g'.str .googleApiKey := hkey
  have hlookup : g.bool .useAddressLookup = g'.bool .useAddressLookup := hlookup
  have hminimap : g.bool .includeMinimap = g'.bool .includeMinimap := hminimap
  rw [apiKeyMissing, hkey, hlookup, hminimap, apiKeyMissing]

lemma apiKeyMissing_apply : apiKeyMissing (args.apply g) = apiKeyMissing g :=
  apiKeyMissing_congr (apply_agree (by simp)) (apply_agree (by simp)) (apply_agree (by simp))

/-- There is no check among what is read once. -/
lemma accepts_startup [LE D] (hr : r ∈ readInisettingsStartup) :
    r.Accepts atof m g ↔ r.Accepts atof m g' := by
  have huses : ∀ r ∈ readInisettingsStartup (D := D), r.uses = [] := by
    simp [readInisettingsStartup, IniRead.uses]
  refine accepts_congr fun v hv => ?_
  rw [huses r hr] at hv
  cases hv

variable [LE D] [DecidableLE D] [OfScientific D] {d : Dictionary}

/-- **Reading `read_inisettings`**, at the start and later. -/
lemma runReads_settings (hvalid : d.Valid) (h : Started atof m₀ args g) :
    runReads atof d readInisettings g = .done (some g') ↔
      Configured atof m₀ d.content args g' := by
  have hkeeps : ∀ {v}, v ∈ startupVars →
      (assignAll atof d.content readInisettings g).Agree g v := by
    intro v hv
    refine assignAll_agree ?_
    rw [writes_settings]
    exact notMem_settingsVars v hv
  have hstartup : ∀ r ∈ readInisettingsStartup,
      r.Assigned atof m₀ args (assignAll atof d.content readInisettings g) := fun r hr =>
    assigned_congr (fun v hv => hkeeps (mem_startupVars_of_writes hr hv)) (h.startup r hr).assigned
  rw [runReads_eq_some_iff hvalid checksLast_settings]
  constructor
  · rintro ⟨hall, rfl⟩
    refine ⟨⟨fun r hr => ⟨(h.startup r hr).readable, ?_, hstartup r hr⟩, ?_⟩,
      fun r hr => ⟨(hall r hr).1, (hall r hr).2, assigned_readInisettings hr⟩⟩
    · exact (accepts_startup hr).mp (h.startup r hr).accepts
    · rw [apiKeyMissing_congr (hkeeps (by decide)) (hkeeps (by decide)) (hkeeps (by decide))]
      exact h.apiKey
  · intro h'
    refine ⟨fun r hr => ⟨(h'.settings r hr).readable, (h'.settings r hr).accepts⟩, ?_⟩
    exact eq_of_assigned hstartup (fun r hr => assigned_readInisettings hr)
      (fun r hr => (h'.startup r hr).assigned) fun r hr => (h'.settings r hr).assigned

/-- The whole start, from a dictionary on. -/
lemma startReads_iff (hvalid : d.Valid) :
    ((runReads atof d readInisettingsStartup g).andThen fun g =>
      if apiKeyMissing g then .done none else runReads atof d readInisettings (args.apply g)) =
        .done (some g') ↔ Configured atof d.content d.content args g' := by
  rw [Checked.andThen_eq_some]
  simp only [runReads_eq_some_iff hvalid checksLast_startup]
  constructor
  · rintro ⟨g₁, ⟨hall, rfl⟩, hrest⟩
    split_ifs at hrest with hkey
    · cases hrest
    · refine (runReads_settings hvalid ⟨fun r hr => ?_, ?_⟩).mp hrest
      · exact ⟨(hall r hr).1, (accepts_startup hr).mp (hall r hr).2, assigned_startup hr⟩
      · rw [apiKeyMissing_apply]
        exact Bool.eq_false_iff.mpr hkey
  · intro h
    have hagree : ∀ {v}, v ∈ startupVars →
        (args.apply (assignAll atof d.content readInisettingsStartup g)).Agree g' v :=
      agree_startup (fun r hr => assigned_startup hr) fun r hr => (h.startup r hr).assigned
    have hkey : apiKeyMissing (assignAll atof d.content readInisettingsStartup g) = false := by
      rw [← @apiKeyMissing_apply D args, ← h.apiKey]
      exact apiKeyMissing_congr (hagree (by decide)) (hagree (by decide)) (hagree (by decide))
    refine ⟨_, ⟨fun r hr => ⟨(h.startup r hr).readable, ?_⟩, rfl⟩, ?_⟩
    · exact (accepts_startup hr).mp (h.startup r hr).accepts
    · rw [if_neg (Bool.eq_false_iff.mp hkey)]
      refine (runReads_settings hvalid ⟨fun r hr => ⟨(h.startup r hr).readable, ?_, ?_⟩, ?_⟩).mpr h
      · exact (accepts_startup hr).mp (h.startup r hr).accepts
      · exact assigned_startup hr
      · rw [apiKeyMissing_apply, hkey]

/-- **The daemon starts with the settings that are meant**: with a configuration file that is
written as it should be, it starts exactly when these settings are in order, and then has them. -/
theorem startDaemon_iff {before : Byte} (hbefore : before ≠ ch '\\') (ws : List WrittenLine) :
    startDaemon atof before args (some (ws.flatMap (·.written))) g = .done (some g') ↔
      Configured atof (documentMap ws) (documentMap ws) args g' := by
  obtain ⟨d, hload, hvalid, hcontent⟩ := iniparserLoad_written hbefore ws
  rw [startDaemon, setupInifile, hload, ← hcontent, ← startReads_iff hvalid]
  rfl

end

/-- A section with the one setting that has no usable default. -/
def passwordLines : List WrittenLine :=
  let config : IniSecname :=
    ⟨⟨str "config", by decide, stopsAt_cons.mpr rfl, by unfold EndsAt; decide +kernel⟩, by decide⟩
  let pwd : IniKey :=
    ⟨⟨str "client_pwd", by decide, stopsAt_cons.mpr rfl, by unfold EndsAt; decide +kernel⟩,
      by decide, by decide, by decide⟩
  let secret : IniBare :=
    ⟨⟨str "secret", by decide, stopsAt_cons.mpr rfl, by unfold EndsAt; decide +kernel⟩,
      by decide +kernel, by unfold IsQuote; decide +kernel⟩
  let gap : IniBlanks := ⟨[ch ' '], by decide +kernel⟩
  [⟨.section noBlanks noBlanks config noBlanks noBlanks, [], str "[config]", rfl, by decide,
      by unfold PiecesFit; decide, by decide⟩,
    ⟨.setting noBlanks pwd gap (.bare gap secret noBlanks noIniComment), [],
      str "client_pwd = secret", rfl, by decide, by unfold PiecesFit; decide, by decide⟩]

/-- Before anything was read. -/
def zeroGlobals : Globals ℚ := ⟨fun _ => 0, fun _ => false, fun _ => [], fun _ => 0⟩

/-- The daemon starts with a file that has a password and nothing else. -/
theorem startDaemon_iff_password :
    ∃ g, startDaemon decimalValue 0 {} (some (str "[config]\nclient_pwd = secret\n")) zeroGlobals =
      .done (some g) ∧ g.int .maxClients = 5 ∧
        Configured decimalValue (documentMap passwordLines) (documentMap passwordLines) {} g := by
  have hrun : (startDaemon decimalValue 0 {} (some (str "[config]\nclient_pwd = secret\n"))
      zeroGlobals >>= fun o => .done (o.map fun g => g.int .maxClients)) = .done (some 5) := by
    decide +kernel
  obtain ⟨_ | g, hstart, hclients⟩ := Checked.bind_eq_done.mp hrun
  · cases hclients
  · have hclients : g.int .maxClients = 5 := by simpa using hclients
    exact ⟨g, hstart, hclients, (startDaemon_iff (by decide) passwordLines).mp hstart⟩

end G7
