import G7Ctrl.Config.IniParser

/-!
# The settings (`g7config.c`)

The daemon reads its settings from the configuration file, some once when it is started and the
others also when it is told to read the file again.  A value that is missing has a default, a value
that is out of range ends the process, and so do two settings that do not fit together.

* `Globals` — the variables.
* `IniRead`, `readInisettingsStartup`, `readInisettings` — one reading, and all of them in order.
* `startDaemon`, `reloadSettings` — the two times when they are done.
* **`runReads_eq_some_iff`** — when a sequence of readings comes to its end, and with what.
-/

namespace G7

/-- What follows unless the process has ended, which is `none`. -/
def Checked.andThen {α β : Type} (x : Checked (Option α)) (f : α → Checked (Option β)) :
    Checked (Option β) :=
  x >>= fun o => o.elim (.done none) f

lemma Checked.andThen_eq_some {α β : Type} {x : Checked (Option α)} {f : α → Checked (Option β)}
    {b : β} : x.andThen f = .done (some b) ↔ ∃ a, x = .done (some a) ∧ f a = .done (some b) := by
  rw [Checked.andThen, Checked.bind_eq_done]
  constructor
  · rintro ⟨_ | a, hx, hf⟩
    · cases hf
    · exact ⟨a, hx, hf⟩
  · rintro ⟨a, hx, hf⟩
    exact ⟨some a, hx, hf⟩

/-! ## Values -/

/-- The digits of a base at the start of a string. -/
def leadingDigits (base : ℕ) (s : CStr) : CStr :=
  s.takeWhile fun c => (hexDigit c).any fun d => decide (d < base)

/-- A number without its sign, in the base that its start tells. -/
def unsignedBase0 (s : CStr) : ℕ :=
  if byteAt s 0 = ch '0' then
    if (byteAt s 1 = ch 'x' ∨ byteAt s 1 = ch 'X') ∧ leadingDigits 16 (s.drop 2) ≠ [] then
      (baseValue 16 (leadingDigits 16 (s.drop 2))).getD 0
    else (baseValue 8 (leadingDigits 8 s)).getD 0
  else (baseValue 10 (leadingDigits 10 s)).getD 0

/-- `strtol(s, NULL, 0)` -/
def strtolBase0 (s : CStr) : ℤ :=
  let s := s.dropWhile isSpace
  let value : ℤ :=
    if byteAt s 0 = ch '-' then -(unsignedBase0 (s.drop 1) : ℤ)
    else if byteAt s 0 = ch '+' then unsignedBase0 (s.drop 1)
    else unsignedBase0 s
  max longMin (min value longMax)

example : strtolBase0 (str " 0x1F;") = 31 ∧ strtolBase0 (str "-017") = -15 ∧
    strtolBase0 (str "0x") = 0 ∧ strtolBase0 (str "99999999999999999999") = 2 ^ 63 - 1 := by
  decide

/-- The boolean that a value stands for, if it stands for one. -/
def iniBoolean (s : CStr) : Option Bool :=
  if (str "yY1tT").contains (byteAt s 0) then some true
  else if (str "nN0fF").contains (byteAt s 0) then some false
  else none

/-- `iniparser_getstring` with `INI_INVALID_KEY` for the default, which is `none` here. -/
def iniparserFind (d : Dictionary) (key : CStr) : Option (Option CStr) :=
  (d.search (strlwc key)).bind fun i => (d.slots[i]?).join.map (·.val)

/-- A value that is converted; a key without a value is dereferenced. -/
def iniparserGet {α : Type} (d : Dictionary) (key : CStr) (notfound : α) (convert : CStr → α) :
    Checked α :=
  match iniparserFind d key with
  | none => .done notfound
  | some none => .fault
  | some (some s) => .done (convert s)

/-- `iniparser_getint` -/
def iniparserGetint (d : Dictionary) (key : CStr) (notfound : ℤ) : Checked ℤ :=
  iniparserGet d key notfound fun s => toInt32 (strtolBase0 s)

/-- `iniparser_getboolean` -/
def iniparserGetboolean (d : Dictionary) (key : CStr) (notfound : Bool) : Checked Bool :=
  iniparserGet d key notfound fun s => (iniBoolean s).getD notfound

/-- `iniparser_getdouble` -/
def iniparserGetdouble {D : Type} (atof : CStr → D) (d : Dictionary) (key : CStr) (notfound : D) :
    Checked D :=
  iniparserGet d key notfound atof

/-! ## The variables -/

/-- The integer settings. -/
inductive IntVar
  | tcpipDevicePort | tcpipCmdPort | geocacheAddressSize | geocacheMinimapSize | maxClients
  | sttyDeviceStartidx | maxIdleTime | maxDeviceIdleTime | tracksegSplitTime | trackSplitTime
  | verboseLog | gfenTrackingInterval | addressLookupProximity | smtpPort | minimapOverviewZoom
  | minimapDetailedZoom | minimapWidth | minimapHeight
  deriving DecidableEq

/-- The switches. -/
inductive BoolVar
  | useAddressLookup | includeMinimap | enableRawDeviceCommands | requireClientPwd
  | translateDeviceReply | enableGfenTracking | mailOnTrackerConn | scriptOnTrackerConn
  | pdfreportGeoeventNewpage | pdfreportHideEmptyGeoevent | enableMail | sendMailOnEvent
  | useHtmlMail | smtpUse | forceMailOnAllEvents | useShortDevid
  deriving DecidableEq

/-- The texts. -/
inductive StrVar
  | runAsUser | googleApiKey | clientPwd | attachmentCompression | pdfreportDir | mailSubjectPrefix
  | smtpServer | sendMailaddress | daemonEmailFrom | smtpUser | smtpPwd
  deriving DecidableEq

/-- The floating point settings. -/
inductive DoubleVar
  | minBatteryVoltage | maxBatteryVoltage
  deriving DecidableEq

/-- `sizeof` -/
def StrVar.size : StrVar → ℕ
  | runAsUser => 32
  | googleApiKey => 64
  | clientPwd => 32
  | attachmentCompression => 8
  | pdfreportDir => 1024
  | mailSubjectPrefix => 128
  | smtpServer => 64
  | sendMailaddress => 64
  | daemonEmailFrom => 64
  | smtpUser => 64
  | smtpPwd => 64

/-- A variable. -/
inductive Var
  | int (v : IntVar)
  | bool (v : BoolVar)
  | str (v : StrVar)
  | double (v : DoubleVar)
  deriving DecidableEq

/-- The values of the variables. -/
structure Globals (D : Type) where
  int : IntVar → ℤ
  bool : BoolVar → Bool
  str : StrVar → CStr
  double : DoubleVar → D

namespace Globals

variable {D : Type}

section

variable (g : Globals D)

/-- Assignment to an integer. -/
def setInt (v : IntVar) (n : ℤ) : Globals D := { g with int := Function.update g.int v n }

/-- Assignment to a switch. -/
def setBool (v : BoolVar) (b : Bool) : Globals D := { g with bool := Function.update g.bool v b }

/-- Assignment to a text. -/
def setStr (v : StrVar) (s : CStr) : Globals D := { g with str := Function.update g.str v s }

/-- Assignment to a floating point number. -/
def setDouble (v : DoubleVar) (x : D) : Globals D :=
  { g with double := Function.update g.double v x }

end

/-- The variable has the same value. -/
def Agree (g g' : Globals D) : Var → Prop
  | .int v => g.int v = g'.int v
  | .bool v => g.bool v = g'.bool v
  | .str v => g.str v = g'.str v
  | .double v => g.double v = g'.double v

variable {g g' g'' : Globals D} {v : Var}

lemma Agree.refl : g.Agree g v := by
  cases v with
  | int v | bool v | str v | double v => rfl

lemma Agree.symm (h : g.Agree g' v) : g'.Agree g v := by
  cases v with
  | int v | bool v | str v | double v => exact Eq.symm h

lemma Agree.trans (h : g.Agree g' v) (h' : g'.Agree g'' v) : g.Agree g'' v := by
  cases v with
  | int v | bool v | str v | double v => exact Eq.trans h h'

lemma ext_agree (h : ∀ v, g.Agree g' v) : g = g' := by
  cases g
  cases g'
  congr
  · exact funext fun v => h (.int v)
  · exact funext fun v => h (.bool v)
  · exact funext fun v => h (.str v)
  · exact funext fun v => h (.double v)

end Globals

/-! ## The readings -/

/-- A reading of a setting, or a check of what was read. -/
inductive IniRead (D : Type)
  /-- `INIT_INISTR` -/
  | str (key : CStr) (v : StrVar) (dflt : CStr)
  /-- `INIT_INIBOOL` -/
  | bool (key : CStr) (v : BoolVar) (dflt : Bool)
  /-- `INIT_INIINT` -/
  | int (key : CStr) (v : IntVar) (dflt min max : ℤ)
  /-- `INIT_INIDOUBLE` -/
  | double (key : CStr) (v : DoubleVar) (dflt min max : D)
  /-- `track_split_time <= trackseg_split_time` -/
  | trackSplit
  /-- `require_client_pwd && '\0' == *client_pwd` -/
  | clientPwd

/-- `validate` and `validate_double`; `none` is the end of the process. -/
def validate {α : Type} [LE α] [DecidableLE α] (min max val : α) : Option α :=
  if min ≤ val ∧ val ≤ max then some val else none

section

variable {D : Type} [LE D] [DecidableLE D]

/-- What a reading does; `none` is the end of the process. -/
def IniRead.exec (atof : CStr → D) (d : Dictionary) (g : Globals D) :
    IniRead D → Checked (Option (Globals D))
  | .str key v dflt =>
      match iniparserGetstring d key (some dflt) with
      | none => .fault
      | some s => .done (some (g.setStr v (s.take (v.size - 1))))
  | .bool key v dflt => do
      let b ← iniparserGetboolean d key dflt
      return some (g.setBool v b)
  | .int key v dflt min max => do
      let n ← iniparserGetint d key dflt
      return (validate min max n).map (g.setInt v)
  | .double key v dflt min max => do
      let x ← iniparserGetdouble atof d key dflt
      return (validate min max x).map (g.setDouble v)
  | .trackSplit =>
      if 0 < g.int .trackSplitTime ∧ 0 < g.int .tracksegSplitTime ∧
        g.int .trackSplitTime ≤ g.int .tracksegSplitTime then .done none
      else .done (some g)
  | .clientPwd =>
      if g.bool .requireClientPwd = true ∧ g.str .clientPwd = [] then .done none
      else .done (some g)

/-- A sequence of readings. -/
def runReads (atof : CStr → D) (d : Dictionary) :
    List (IniRead D) → Globals D → Checked (Option (Globals D))
  | [], g => .done (some g)
  | r :: rs, g => (r.exec atof d g).andThen fun g => runReads atof d rs g

end

/-- `read_inisettings_startup` -/
def readInisettingsStartup {D : Type} : List (IniRead D) :=
  [.str (str "startup:run_as_user") .runAsUser (str "g7ctrl"),
    .int (str "startup:device_port") .tcpipDevicePort 3400 1025 60000,
    .int (str "startup:cmd_port") .tcpipCmdPort 3100 1025 60000,
    .int (str "startup:geocache_address_size") .geocacheAddressSize 10000 100 100000,
    .int (str "startup:geocache_minimap_size") .geocacheMinimapSize 20000 200 200000,
    .str (str "config:google_api_key") .googleApiKey [],
    .bool (str "config:use_address_lookup") .useAddressLookup false,
    .bool (str "mail:include_minimap") .includeMinimap false]

/-- `read_inisettings` -/
def readInisettings {D : Type} [OfScientific D] : List (IniRead D) :=
  [.int (str "config:max_clients") .maxClients 5 2 100,
    .int (str "config:stty_device") .sttyDeviceStartidx 0 0 9,
    .int (str "config:client_idle_time") .maxIdleTime 1200 60 (12 * 3600),
    .int (str "config:device_idle_time") .maxDeviceIdleTime 180 60 600,
    .int (str "config:trackseg_split_time") .tracksegSplitTime (-1) (-1) 99999,
    .int (str "config:track_split_time") .trackSplitTime 240 (-1) 99999,
    .trackSplit,
    .bool (str "config:enable_raw_device_commands") .enableRawDeviceCommands false,
    .bool (str "config:require_client_pwd") .requireClientPwd true,
    .bool (str "config:translate_device_reply") .translateDeviceReply true,
    .str (str "config:client_pwd") .clientPwd [],
    .clientPwd,
    .str (str "config:attachment_compression") .attachmentCompression (str "gzip"),
    .int (str "config:verbose_log") .verboseLog 1 0 3,
    .bool (str "config:enable_gfen_tracking") .enableGfenTracking true,
    .int (str "config:gfen_tracking_interval") .gfenTrackingInterval 60 10 3600,
    .bool (str "config:mail_on_tracker_conn") .mailOnTrackerConn false,
    .bool (str "config:script_on_tracker_conn") .scriptOnTrackerConn false,
    .int (str "config:address_lookup_proximity") .addressLookupProximity 20 0 200,
    .bool (str "report:geoevent_newpage") .pdfreportGeoeventNewpage false,
    .bool (str "report:geoevent_hide_empty") .pdfreportHideEmptyGeoevent true,
    .str (str "report:pdfreport_dir") .pdfreportDir (str "/tmp"),
    .double (str "report:min_battery_voltage") .minBatteryVoltage 3.60 3.4 3.7,
    .double (str "report:max_battery_voltage") .maxBatteryVoltage 4.20 3.8 4.3,
    .bool (str "mail:enable_mail") .enableMail false,
    .str (str "mail:subject_prefix") .mailSubjectPrefix (str "GM7 "),
    .bool (str "mail:sendmail_on_event") .sendMailOnEvent false,
    .bool (str "mail:use_html") .useHtmlMail true,
    .bool (str "mail:smtp_use") .smtpUse false,
    .str (str "mail:smtp_server") .smtpServer [],
    .str (str "mail:sendmail_address") .sendMailaddress [],
    .str (str "mail:daemon_email_from") .daemonEmailFrom [],
    .int (str "mail:smtp_port") .smtpPort (-1) (-1) 60000,
    .str (str "mail:smtp_user") .smtpUser [],
    .str (str "mail:smtp_pwd") .smtpPwd [],
    .bool (str "mail:force_mail_on_all_events") .forceMailOnAllEvents false,
    .bool (str "mail:use_short_devid") .useShortDevid false,
    .int (str "mail:minimap_overview_zoom") .minimapOverviewZoom 9 1 20,
    .int (str "mail:minimap_detailed_zoom") .minimapDetailedZoom 15 1 25,
    .int (str "mail:minimap_width") .minimapWidth 200 50 500,
    .int (str "mail:minimap_height") .minimapHeight 200 50 500]

/-! ## Starting and reading again -/

variable {D : Type}

/-- `arg_tcpip_device_port`, `arg_tcpip_cmd_port` and `arg_verbose_log`; -1 is no argument. -/
structure StartArgs where
  devicePort : ℤ := -1
  cmdPort : ℤ := -1
  verboseLog : ℤ := -1

/-- An argument that is given goes before what was read. -/
def overrideArg (arg : ℤ) (v : IntVar) (g : Globals D) : Globals D :=
  if -1 < arg then g.setInt v arg else g

/-- The three arguments, in the order of `main`. -/
def StartArgs.apply (args : StartArgs) (g : Globals D) : Globals D :=
  overrideArg args.devicePort .tcpipDevicePort
    (overrideArg args.cmdPort .tcpipCmdPort (overrideArg args.verboseLog .verboseLog g))

/-- `setup_inifile`; `none` in place of the file is one that cannot be opened. -/
def setupInifile (before : Byte) : Option CStr → Checked (Option Dictionary)
  | none => .done none
  | some file => iniparserLoad before file

/-- Address lookup and minimaps need a key that is long enough. -/
def apiKeyMissing (g : Globals D) : Bool :=
  decide ((g.str .googleApiKey).length < 15) && (g.bool .useAddressLookup || g.bool .includeMinimap)

section

variable [LE D] [DecidableLE D] [OfScientific D]

/-- What `main` does with the configuration file. -/
def startDaemon (atof : CStr → D) (before : Byte) (args : StartArgs) (file : Option CStr)
    (g : Globals D) : Checked (Option (Globals D)) :=
  (setupInifile before file).andThen fun d =>
    (runReads atof d readInisettingsStartup g).andThen fun g =>
      if apiKeyMissing g then .done none else runReads atof d readInisettings (args.apply g)

/-- What `sighand_thread` does with it when it has received `SIGHUP`. -/
def reloadSettings (atof : CStr → D) (before : Byte) (file : Option CStr) (g : Globals D) :
    Checked (Option (Globals D)) :=
  (setupInifile before file).andThen fun d => runReads atof d readInisettings g

end

/-! ## What a reading does -/

/-- What a map has for a key, converted. -/
def IniMap.get {α : Type} (m : IniMap) (key : CStr) (notfound : α) (convert : CStr → α) : α :=
  match m (strlwc key) with
  | some (some s) => convert s
  | _ => notfound

namespace IniRead

variable (atof : CStr → D) (m : IniMap)

/-- The key that is looked up. -/
def key : IniRead D → Option CStr
  | .str key _ _ => some key
  | .bool key _ _ => some key
  | .int key _ _ _ _ => some key
  | .double key _ _ _ _ => some key
  | .trackSplit => none
  | .clientPwd => none

/-- The variable that is written. -/
def writes : IniRead D → Option Var
  | .str _ v _ => some (.str v)
  | .bool _ v _ => some (.bool v)
  | .int _ v _ _ _ => some (.int v)
  | .double _ v _ _ _ => some (.double v)
  | .trackSplit => none
  | .clientPwd => none

/-- The variables that a check depends on. -/
def uses : IniRead D → List Var
  | .trackSplit => [.int .trackSplitTime, .int .tracksegSplitTime]
  | .clientPwd => [.bool .requireClientPwd, .str .clientPwd]
  | _ => []

/-- No section has the name of the key. -/
def Readable (r : IniRead D) : Prop := ∀ key ∈ r.key, m (strlwc key) ≠ some none

/-- The value is in its range, or the check succeeds. -/
def Accepts [LE D] (g : Globals D) : IniRead D → Prop
  | .int key _ dflt min max =>
      min ≤ m.get key dflt (fun s => toInt32 (strtolBase0 s)) ∧
        m.get key dflt (fun s => toInt32 (strtolBase0 s)) ≤ max
  | .double key _ dflt min max => min ≤ m.get key dflt atof ∧ m.get key dflt atof ≤ max
  | .trackSplit => 0 < g.int .trackSplitTime → 0 < g.int .tracksegSplitTime →
      g.int .tracksegSplitTime < g.int .trackSplitTime
  | .clientPwd => g.bool .requireClientPwd = true → g.str .clientPwd ≠ []
  | _ => True

/-- The variables with what the map has. -/
def assign (g : Globals D) : IniRead D → Globals D
  | .str key v dflt => g.setStr v ((m.get key dflt id).take (v.size - 1))
  | .bool key v dflt => g.setBool v (m.get key dflt fun s => (iniBoolean s).getD dflt)
  | .int key v dflt _ _ => g.setInt v (m.get key dflt fun s => toInt32 (strtolBase0 s))
  | .double key v dflt _ _ => g.setDouble v (m.get key dflt atof)
  | .trackSplit => g
  | .clientPwd => g

end IniRead

/-- All variables. -/
def assignAll (atof : CStr → D) (m : IniMap) (rs : List (IniRead D)) (g : Globals D) : Globals D :=
  rs.foldl (IniRead.assign atof m) g

section

variable {atof : CStr → D} {m : IniMap} {g g' : Globals D} {r : IniRead D} {rs : List (IniRead D)}

/-- A reading leaves all other variables alone. -/
lemma assign_agree {v : Var} (hv : v ∉ r.writes) : (r.assign atof m g).Agree g v := by
  cases r with
  | str key w dflt | bool key w dflt | int key w dflt min max | double key w dflt min max =>
      cases v with
      | int v | bool v | str v | double v =>
          first
          | rfl
          | exact Function.update_of_ne (fun heq => hv (by rw [heq]; rfl)) _ _
  | trackSplit => exact .refl
  | clientPwd => exact .refl

lemma assignAll_agree {v : Var} (hv : v ∉ rs.filterMap IniRead.writes) :
    (assignAll atof m rs g).Agree g v := by
  induction rs generalizing g with
  | nil => exact .refl
  | cons r rs ih =>
      rw [List.mem_filterMap] at hv
      refine (ih ?_).trans (assign_agree fun hw => hv ⟨r, List.mem_cons_self, hw⟩)
      rw [List.mem_filterMap]
      rintro ⟨r', hr', hw⟩
      exact hv ⟨r', List.mem_cons_of_mem r hr', hw⟩

/-- A check writes nothing, and a reading uses nothing. -/
lemma notMem_writes {v : Var} (hv : v ∈ r.uses) : v ∉ r.writes := by
  cases r with
  | str key w dflt | bool key w dflt | int key w dflt min max | double key w dflt min max =>
      cases hv
  | trackSplit | clientPwd =>
      intro hw
      cases hw

/-- A check depends only on the variables it uses. -/
lemma accepts_congr [LE D] (h : ∀ v ∈ r.uses, g.Agree g' v) :
    r.Accepts atof m g ↔ r.Accepts atof m g' := by
  cases r with
  | str key v dflt | bool key v dflt | int key v dflt min max | double key v dflt min max =>
      exact Iff.rfl
  | trackSplit =>
      have htrack : g.int .trackSplitTime = g'.int .trackSplitTime := h (.int .trackSplitTime) (by
        simp [IniRead.uses])
      have hseg : g.int .tracksegSplitTime = g'.int .tracksegSplitTime :=
        h (.int .tracksegSplitTime) (by simp [IniRead.uses])
      rw [IniRead.Accepts, IniRead.Accepts, htrack, hseg]
  | clientPwd =>
      have hrequire : g.bool .requireClientPwd = g'.bool .requireClientPwd :=
        h (.bool .requireClientPwd) (by simp [IniRead.uses])
      have hpwd : g.str .clientPwd = g'.str .clientPwd := h (.str .clientPwd) (by
        simp [IniRead.uses])
      rw [IniRead.Accepts, IniRead.Accepts, hrequire, hpwd]

end

section

variable [LE D] [DecidableLE D] {atof : CStr → D} {d : Dictionary} {g g' : Globals D}
  {r : IniRead D} {rs : List (IniRead D)}

lemma iniparserFind_eq (h : d.Valid) (key : CStr) :
    iniparserFind d key = d.content (strlwc key) := by
  rw [iniparserFind, h.search_eq, Dictionary.content]
  cases hfind : SlotTable.find DictEntry.key d.slots (strlwc key) with
  | none =>
      rw [SlotTable.lookup_eq_none.mpr (SlotTable.find_eq_none.mp hfind)]
      rfl
  | some i =>
      obtain ⟨t₁, e, t₂, ht, rfl, hkey⟩ := SlotTable.find_eq_some hfind
      have hmem : e ∈ d.slots.reduceOption := by
        rw [ht, SlotTable.reduceOption_some]
        exact List.mem_append_right _ List.mem_cons_self
      rw [← hkey, SlotTable.lookup_of_mem h.unique hmem, ht]
      simp

/-- What a conversion gives: a fault when the key is a section. -/
lemma iniparserGet_eq {α : Type} (h : d.Valid) (key : CStr) (notfound : α) (convert : CStr → α) :
    iniparserGet d key notfound convert =
      if d.content (strlwc key) = some none then .fault
      else .done (d.content.get key notfound convert) := by
  rw [iniparserGet, iniparserFind_eq h, IniMap.get]
  rcases d.content (strlwc key) with _ | _ | s
  · rfl
  · rfl
  · rfl

lemma iniparserGetstring_eq (h : d.Valid) (key dflt : CStr) :
    iniparserGetstring d key (some dflt) =
      if d.content (strlwc key) = some none then none else some (d.content.get key dflt id) := by
  rw [iniparserGetstring, dictionaryGet_eq h, IniMap.get]
  rcases d.content (strlwc key) with _ | _ | s
  · rfl
  · rfl
  · rfl

lemma validate_eq_some_iff {α : Type} [LE α] [DecidableLE α] {min max val val' : α} :
    validate min max val = some val' ↔ (min ≤ val ∧ val ≤ max) ∧ val = val' := by
  rw [validate]
  split_ifs with h
  · simp [h]
  · simp [h]

/-- **One reading.** -/
lemma exec_eq_some_iff (h : d.Valid) : r.exec atof d g = .done (some g') ↔
    r.Readable d.content ∧ r.Accepts atof d.content g ∧ r.assign atof d.content g = g' := by
  cases r with
  | str key v dflt =>
      rw [IniRead.exec, iniparserGetstring_eq h]
      by_cases hnull : d.content (strlwc key) = some none
      · simp [IniRead.Readable, IniRead.key, hnull]
      · simp [IniRead.Readable, IniRead.key, IniRead.Accepts, IniRead.assign, hnull]
  | bool key v dflt =>
      rw [IniRead.exec, iniparserGetboolean, iniparserGet_eq h]
      by_cases hnull : d.content (strlwc key) = some none
      · simp [IniRead.Readable, IniRead.key, hnull]
      · simp [IniRead.Readable, IniRead.key, IniRead.Accepts, IniRead.assign, hnull]
  | int key v dflt min max =>
      rw [IniRead.exec, iniparserGetint, iniparserGet_eq h]
      by_cases hnull : d.content (strlwc key) = some none
      · simp [IniRead.Readable, IniRead.key, hnull]
      · simp only [hnull, if_false, Checked.done_bind, Checked.pure_eq, Checked.done.injEq,
          Option.map_eq_some_iff, validate_eq_some_iff]
        simp [IniRead.Readable, IniRead.key, IniRead.Accepts, IniRead.assign, hnull, and_assoc]
  | double key v dflt min max =>
      rw [IniRead.exec, iniparserGetdouble, iniparserGet_eq h]
      by_cases hnull : d.content (strlwc key) = some none
      · simp [IniRead.Readable, IniRead.key, hnull]
      · simp only [hnull, if_false, Checked.done_bind, Checked.pure_eq, Checked.done.injEq,
          Option.map_eq_some_iff, validate_eq_some_iff]
        simp [IniRead.Readable, IniRead.key, IniRead.Accepts, IniRead.assign, hnull, and_assoc]
  | trackSplit =>
      rw [IniRead.exec]
      split_ifs with hbad
      · simp only [Checked.done.injEq, reduceCtorEq, false_iff]
        exact fun haccepts => absurd (haccepts.2.1 hbad.1 hbad.2.1) (not_lt.mpr hbad.2.2)
      · have haccepts : IniRead.trackSplit.Accepts atof d.content g :=
          fun htrack hseg => not_le.mp fun hle => hbad ⟨htrack, hseg, hle⟩
        simp [IniRead.Readable, IniRead.key, IniRead.assign, haccepts]
  | clientPwd =>
      rw [IniRead.exec]
      split_ifs with hbad
      · simp only [Checked.done.injEq, reduceCtorEq, false_iff]
        exact fun haccepts => absurd hbad.2 (haccepts.2.1 hbad.1)
      · have haccepts : IniRead.clientPwd.Accepts atof d.content g :=
          fun hrequire hempty => hbad ⟨hrequire, hempty⟩
        simp [IniRead.Readable, IniRead.key, IniRead.assign, haccepts]

/-! ## A sequence of readings -/

/-- Nothing that a check has used is written after it. -/
def ChecksLast (rs : List (IniRead D)) : Prop :=
  rs.Pairwise fun r r' => ∀ v ∈ r.uses, v ∉ r'.writes

/-- **A sequence of readings comes to its end** exactly if every one is accepted, and then every
variable has what the map has for it. -/
theorem runReads_eq_some_iff (h : d.Valid) (hlast : ChecksLast rs) :
    runReads atof d rs g = .done (some g') ↔
      (∀ r ∈ rs, r.Readable d.content ∧ r.Accepts atof d.content g') ∧
        assignAll atof d.content rs g = g' := by
  induction rs generalizing g with
  | nil => simp [runReads, assignAll]
  | cons r rs ih =>
      obtain ⟨hr, hrs⟩ := List.pairwise_cons.mp hlast
      have hagree (hassign : assignAll atof d.content rs (r.assign atof d.content g) = g') :
          ∀ v ∈ r.uses, g.Agree g' v := by
        intro v hv
        have hself : (r.assign atof d.content g).Agree g v := assign_agree (notMem_writes hv)
        refine hself.symm.trans (hassign ▸ (assignAll_agree ?_).symm)
        rw [List.mem_filterMap]
        rintro ⟨r', hr', hw⟩
        exact hr r' hr' v hv hw
      rw [runReads, Checked.andThen_eq_some]
      simp only [exec_eq_some_iff h, ih hrs, List.forall_mem_cons]
      constructor
      · rintro ⟨_, ⟨hread, hacc, rfl⟩, hall, hassign⟩
        exact ⟨⟨⟨hread, (accepts_congr (hagree hassign)).mp hacc⟩, hall⟩, hassign⟩
      · rintro ⟨⟨⟨hread, hacc⟩, hall⟩, hassign⟩
        exact ⟨_, ⟨hread, (accepts_congr (hagree hassign)).mpr hacc, rfl⟩, hall, hassign⟩

end

end G7
