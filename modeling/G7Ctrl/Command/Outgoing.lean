import G7Ctrl.Command.CmdArgs
import G7Ctrl.Presets.Func

/-!
# Commands on their way to the device

A user's command is looked up by its verb and its name, one of four templates collects its
arguments, and `prepare_cmd_to_device` puts the text for the device together: the name in the
device, a tag, the PIN code and the arguments, or a question mark behind them for a query.

* `getDeviceTag` — the running tag, four digits from a counter that wraps at 10000.
* `G7CommandRow` — an entry of the command table with its handler, its type and its modes.
* `execCommand` — the commands of the user that go to the device.
* `UserCommand.meaning` — what such a command means: an error the user has caused, one of the
  handlers that are not templates, or the arguments and then one text for the device.
* **`execCommand_eq_meaning`** — the search by types, the four templates and the check of the modes
  come to just this, so none of the errors that are reported as internal ever occurs.
-/

namespace G7

/-! ## The PIN code and the tag -/

/-- `get_device_pin` -/
def getDevicePin (maxlen : ℕ) : Option CStr :=
  if maxlen < 5 then none else some (xmbStrncpy (str "0000") maxlen)

/-- `%04hu` -/
def dec04 (n : ℕ) : CStr := (dec n).leftpad 4 (ch '0')

/-- What `get_device_tag` does to the running number `tagnbr`, an `unsigned short`. -/
def nextTagnbr (tagnbr : ℕ) : ℕ :=
  if (tagnbr + 1) % 2 ^ 16 > 9999 then 0 else (tagnbr + 1) % 2 ^ 16

/-- `get_device_tag`: the tag and the new value of `tagnbr`, or `none` for -1. -/
def getDeviceTag (maxlen tagnbr : ℕ) : Option (CStr × ℕ) :=
  if maxlen < 6 then none else some (snprintf maxlen (dec04 (nextTagnbr tagnbr)), nextTagnbr tagnbr)

/-! ## The command table -/

/-- The `CMD_TYPE_` constants. -/
inductive CmdType where
  | get
  | set
  | getsetBinary
  | getset
  | exec
  deriving DecidableEq

/-- `CMD_MODE_R` -/
def cmdModeR : ℕ := 1

/-- `CMD_MODE_W` -/
def cmdModeW : ℕ := 2

/-- `CMD_MODE_RW` -/
def cmdModeRw : ℕ := cmdModeR ||| cmdModeW

/-- The functions that stand in the table: the four templates, `exec_cmd_batt`, `exec_cmd_address`,
`exec_dlrec` and `NULL`. -/
inductive CmdHandler where
  | binary
  | get
  | set
  | exec
  | batt
  | address
  | dlrec
  | null
  deriving DecidableEq

/-- `struct g7command`, without the texts of the help. -/
structure G7CommandRow extends G7Command where
  cmdhandler : CmdHandler
  type : CmdType
  modes : ℕ
  deriving DecidableEq

/-- `g7command_list` -/
def g7commandRows : List G7CommandRow :=
  [⟨⟨str "roam", str "ROAMING"⟩, .binary, .getsetBinary, cmdModeRw⟩,
   ⟨⟨str "phone", str "VLOCATION"⟩, .binary, .getset, cmdModeRw⟩,
   ⟨⟨str "led", str "ELED"⟩, .binary, .getsetBinary, cmdModeRw⟩,
   ⟨⟨str "gfen", str "GFEN"⟩, .set, .getset, cmdModeRw⟩,
   ⟨⟨str "sleep", str "SLEEP"⟩, .binary, .getsetBinary, cmdModeRw⟩,
   ⟨⟨str "loc", str "GETLOCATION"⟩, .get, .get, cmdModeR⟩,
   ⟨⟨str "locg", str "GETLOCATION"⟩, .null, .get, cmdModeR⟩,
   ⟨⟨str "imei", str "IMEI"⟩, .get, .get, cmdModeR⟩,
   ⟨⟨str "sim", str "SIMID"⟩, .get, .get, cmdModeR⟩,
   ⟨⟨str "ver", str "VER"⟩, .get, .get, cmdModeR⟩,
   ⟨⟨str "nrec", str "DLREC"⟩, .get, .get, cmdModeR⟩,
   ⟨⟨str "batt", str "XXXX"⟩, .batt, .get, cmdModeR⟩,
   ⟨⟨str "track", str "TRACK"⟩, .set, .getset, cmdModeRw⟩,
   ⟨⟨str "mswitch", str "SETRA"⟩, .set, .getset, cmdModeRw⟩,
   ⟨⟨str "tz", str "SETTZ"⟩, .set, .getset, cmdModeRw⟩,
   ⟨⟨str "sms", str "SMSM"⟩, .set, .getset, cmdModeRw⟩,
   ⟨⟨str "comm", str "COMMTYPE"⟩, .set, .getset, cmdModeRw⟩,
   ⟨⟨str "vip", str "SETVIP"⟩, .set, .getset, cmdModeRw⟩,
   ⟨⟨str "ps", str "PSMT"⟩, .set, .getset, cmdModeRw⟩,
   ⟨⟨str "config", str "UNCFG"⟩, .set, .getset, cmdModeRw⟩,
   ⟨⟨str "gfevt", str "SETEVT"⟩, .set, .getset, cmdModeRw⟩,
   ⟨⟨str "rec", str "REC"⟩, .set, .getset, cmdModeRw⟩,
   ⟨⟨str "lowbatt", str "LOWBATT"⟩, .set, .getset, cmdModeRw⟩,
   ⟨⟨str "sens", str "GSS"⟩, .set, .getset, cmdModeRw⟩,
   ⟨⟨str "clrec", str "CLREC"⟩, .exec, .exec, cmdModeW⟩,
   ⟨⟨str "dlrec", str "DLREC"⟩, .dlrec, .exec, cmdModeW⟩,
   ⟨⟨str "reboot", str "REBOOT"⟩, .exec, .exec, cmdModeW⟩,
   ⟨⟨str "reset", str "RESET"⟩, .exec, .exec, cmdModeW⟩,
   ⟨⟨str "test", str "TEST"⟩, .exec, .exec, cmdModeW⟩,
   ⟨⟨str "address", str "GETADDRESS"⟩, .address, .get, cmdModeR⟩]

/-- The names are those of the table. -/
lemma map_g7commandRows : g7commandRows.map (·.toG7Command) = g7commandList := rfl

/-- `CMDIDX_SETEVT` -/
def cmdidxSetevt : ℕ := 20

/-! ## The text for the device -/

/-- What a command of the user comes to: a text for the user and a return code, a command that is
handed to `send_rawcmd` with its tag, or one of the handlers that are not templates. -/
inductive CmdOutcome where
  | tells (text : CStr) (rc : ℤ)
  | sends (buffer tagbuffer : CStr)
  | special (handler : CmdHandler)
  deriving DecidableEq

/-- `ERR_CMD_NOT_VALID` -/
def errCmdNotValid (srvcmd : CStr) : CStr :=
  str "[ERR] This command is not valid. See \"help " ++ srvcmd ++ str "\"\n"

/-- `sizeof(buffer)` -/
def cmdBufferSize : ℕ := 1024

/-- The text up to the arguments, with a tag or without one. -/
def preparedHead (cmdstr tagbuffer pinbuffer : CStr) : CStr :=
  if tagbuffer ≠ [] then commandHead cmdstr tagbuffer pinbuffer
  else str "$WP+" ++ cmdstr ++ str "=" ++ pinbuffer

/-- The text in the buffer of `prepare_cmd_to_device`. -/
def preparedCmd (cmdstr tagbuffer pinbuffer : CStr) (mode : ℕ) (argstrlist : CStr) : CStr :=
  let head := preparedHead cmdstr tagbuffer pinbuffer
  if mode = cmdModeW then
    let buffer := snprintf (cmdBufferSize - 1) head
    if argstrlist ≠ [] then
      let buffer := xstrlcat buffer [ch ','] cmdBufferSize
      buffer ++ argstrlist.take (cmdBufferSize - buffer.length - 1)
    else buffer
  else
    snprintf (cmdBufferSize - 1)
      (if argstrlist ≠ [] then head ++ str "," ++ argstrlist ++ str ",?" else head ++ str ",?")

/-- `prepare_cmd_to_device`, when it has drawn the tag. -/
def prepareCmdToDevice (tagbuffer : CStr) (cmdidx mode : ℕ) (argstrlist : CStr) : CmdOutcome :=
  match g7commandRows[cmdidx]?, getDevicePin 8 with
  | some e, some pinbuffer =>
      if mode &&& e.modes = 0 then .tells (errCmdNotValid e.srvcmd) (-1)
      else .sends (preparedCmd e.cmdstr tagbuffer pinbuffer mode argstrlist) tagbuffer
  | _, _ => .tells [] (-1)

/-! ## The templates -/

/-- `ERR_CMD_NOT_SUPPORTED` -/
def errCmdNotSupported : CStr := str "[ERR] Not supported command. Internal fault.\n"

/-- `ERR_CMD_INVALID_GET` and `ERR_CMD_INVALID_INVOCATION` -/
def errCmdInvalidInvocation (cmdstr : CStr) : CStr :=
  str "[ERR] Invalid invocation of \"" ++ cmdstr ++ str "\""

/-- `ERR_CMD_INTERNAL_SET`, as it is written. -/
def errCmdInternalSet : CStr :=
  str "[ERR] Internal error in cmd_set_template(). Negative argidx"

/-- `ERR_CMD_GFEVT` -/
def errCmdGfevt : CStr :=
  str "[ERR] Missing argument. Command synopsis: \"get gfevt EVENTID\""

/-- `sizeof(buff)` in `cmd_binary_template` and `cmd_set_template` -/
def argBuffSize : ℕ := 256

/-- The device's name of a command. -/
def cmdstrAt (cmdidx : ℕ) : CStr := (g7commandRows[cmdidx]?.map (·.cmdstr)).getD []

/-- The arguments of a command that is set: `"1"` for one that has none. -/
def argsToSet (cmdidx : ℕ) : ArgDialogue CStr :=
  match cmdArgsFor cmdidx with
  | none => Dialogue.fail (-1)
  | some p =>
      if p.numargs = 0 then pure (xstrlcpy (str "1") argBuffSize) else getCmdArgs argBuffSize cmdidx

/-- `cmd_binary_template` -/
def cmdBinaryTemplate (tagbuffer : CStr) (cmdidx gsflag : ℕ) : ArgDialogue CmdOutcome :=
  match gsflag with
  | 0 => pure (prepareCmdToDevice tagbuffer cmdidx cmdModeR [])
  | 1 => do
      let buff ← argsToSet cmdidx
      return prepareCmdToDevice tagbuffer cmdidx cmdModeW buff
  | 2 => pure (prepareCmdToDevice tagbuffer cmdidx cmdModeW (xstrlcpy (str "0") argBuffSize))
  | _ => pure (.tells errCmdNotSupported (-1))

/-- `cmd_get_template` -/
def cmdGetTemplate (tagbuffer : CStr) (cmdidx gsflag : ℕ) : ArgDialogue CmdOutcome :=
  if gsflag ≠ 0 then pure (.tells (errCmdInvalidInvocation (cmdstrAt cmdidx)) (-1))
  else pure (prepareCmdToDevice tagbuffer cmdidx cmdModeR [])

/-- `cmd_set_template` -/
def cmdSetTemplate (tagbuffer : CStr) (cmdidx gsflag : ℕ) : ArgDialogue CmdOutcome :=
  if cmdidx = cmdidxSetevt ∧ gsflag = 0 then pure (.tells errCmdGfevt (-1))
  else
    match gsflag with
    | 0 => pure (prepareCmdToDevice tagbuffer cmdidx cmdModeR [])
    | 1 =>
        if (cmdArgsFor cmdidx).isNone then pure (.tells errCmdInternalSet (-1))
        else do
          let buff ← argsToSet cmdidx
          return prepareCmdToDevice tagbuffer cmdidx cmdModeW buff
    | _ => pure (.tells errCmdNotSupported (-1))

/-- `cmd_do_template` -/
def cmdDoTemplate (tagbuffer : CStr) (cmdidx gsflag : ℕ) : ArgDialogue CmdOutcome :=
  if gsflag ≠ 0 then pure (.tells (errCmdInvalidInvocation (cmdstrAt cmdidx)) (-1))
  else pure (prepareCmdToDevice tagbuffer cmdidx cmdModeW [])

/-- The call of a handler. -/
def callHandler (h : CmdHandler) (tagbuffer : CStr) (cmdidx gsflag : ℕ) : ArgDialogue CmdOutcome :=
  match h with
  | .binary => cmdBinaryTemplate tagbuffer cmdidx gsflag
  | .get => cmdGetTemplate tagbuffer cmdidx gsflag
  | .set => cmdSetTemplate tagbuffer cmdidx gsflag
  | .exec => cmdDoTemplate tagbuffer cmdidx gsflag
  | .batt => pure (.special .batt)
  | .address => pure (.special .address)
  | .dlrec => pure (.special .dlrec)
  | .null => pure (.special .null)

/-! ## The verbs -/

/-- A command of the user that goes to the device, as `cmdinterp` has recognised it. -/
inductive UserCommand where
  /-- `set NAME on` or `set NAME off` -/
  | switch (name onoff : CStr)
  /-- `get gfevt EVENTID` -/
  | gfevt (evtid : CStr)
  | get (name : CStr)
  | set (name : CStr)
  /-- `do NAME` -/
  | exec (name : CStr)

/-- The name of the command. -/
def UserCommand.name : UserCommand → CStr
  | .switch name _ => name
  | .gfevt _ => str "gfevt"
  | .get name => name
  | .set name => name
  | .exec name => name

/-- The search of a verb: the first entry of one of its types with the name. -/
def findCommand (types : List CmdType) (name : CStr) : Option ℕ :=
  g7commandRows.findIdx? fun e => types.contains e.type && xstricmp name e.srvcmd

/-- A verb: the handler is called with `gsflag`, or the user is told that there is no such
command. -/
def execVerb (types : List CmdType) (before after : String) (gsflag : ℕ) (tagbuffer name : CStr) :
    ArgDialogue CmdOutcome :=
  match findCommand types name with
  | some i => callHandler ((g7commandRows[i]?.map (·.cmdhandler)).getD .null) tagbuffer i gsflag
  | none => pure (.tells (str "[ERR] " ++ snprintf 256 (str before ++ name ++ str after)) 0)

/-- `exec_binary_command` -/
def execBinaryCommand (tagbuffer name onoff : CStr) : ArgDialogue CmdOutcome :=
  execVerb [.getsetBinary] "Command \"" "\" is not valid. Try help."
    (if xstricmp onoff (str "on") then 1 else 2) tagbuffer name

/-- `exec_get_command` -/
def execGetCommand (tagbuffer name : CStr) : ArgDialogue CmdOutcome :=
  execVerb [.get, .getsetBinary, .getset] "Command \"get " "\" is not valid. Try help." 0 tagbuffer
    name

/-- `exec_set_command` -/
def execSetCommand (tagbuffer name : CStr) : ArgDialogue CmdOutcome :=
  execVerb [.set, .getset] "Command \"set " "\" is not valid. Try help." 1 tagbuffer name

/-- `exec_do_command` -/
def execDoCommand (tagbuffer name : CStr) : ArgDialogue CmdOutcome :=
  execVerb [.exec] "Command \"do " "\" is not valid. Try help." 0 tagbuffer name

/-- `ERR_CMD_INVALID_EVENTID` -/
def errCmdInvalidEventid : CStr := str "[ERR] Event ID must be in range [50,99]"

/-- `exec_get_gfevt` -/
def execGetGfevt (tagbuffer evtid : CStr) : ArgDialogue CmdOutcome :=
  if xatoi evtid < 50 ∨ 99 < xatoi evtid then pure (.tells errCmdInvalidEventid (-1))
  else pure (prepareCmdToDevice tagbuffer cmdidxSetevt cmdModeR evtid)

/-- The branches of `cmdinterp` for the commands that go to the device. -/
def execCommand (tagbuffer : CStr) : UserCommand → ArgDialogue CmdOutcome
  | .switch name onoff => execBinaryCommand tagbuffer name onoff
  | .gfevt evtid => execGetGfevt tagbuffer evtid
  | .get name => execGetCommand tagbuffer name
  | .set name => execSetCommand tagbuffer name
  | .exec name => execDoCommand tagbuffer name

/-! ## What a command means -/

namespace UserCommand

/-- A command reads from the device or writes to it. -/
def mode : UserCommand → ℕ
  | .switch _ _ => cmdModeW
  | .gfevt _ => cmdModeR
  | .get _ => cmdModeR
  | .set _ => cmdModeW
  | .exec _ => cmdModeW

/-- The types of the commands that have the verb. -/
def types : UserCommand → List CmdType
  | .switch _ _ => [.getsetBinary]
  | .gfevt _ => [.getset]
  | .get _ => [.get, .getsetBinary, .getset]
  | .set _ => [.set, .getset]
  | .exec _ => [.exec]

/-- The command as it is shown when there is none of its name. -/
def shown : UserCommand → CStr
  | .switch name _ => name
  | .gfevt _ => str "get gfevt"
  | .get name => str "get " ++ name
  | .set name => str "set " ++ name
  | .exec name => str "do " ++ name

/-- Where the arguments come from. -/
def args (i : ℕ) : UserCommand → ArgDialogue CStr
  | .switch _ onoff => if xstricmp onoff (str "on") then argsToSet i else pure (str "0")
  | .gfevt evtid => pure evtid
  | .get _ => pure []
  | .set _ => argsToSet i
  | .exec _ => pure []

/-- A name that does not exist, or an event without its id. -/
def badName (u : UserCommand) : Option (CStr × ℤ) :=
  match findCommand u.types u.name with
  | none =>
      some (str "[ERR] " ++ snprintf 256 (str "Command \"" ++ u.shown ++
        str "\" is not valid. Try help."), 0)
  | some i => if i = cmdidxSetevt ∧ u.mode = cmdModeR then some (errCmdGfevt, -1) else none

/-- The error a user has caused, if there is one. -/
def mistake : UserCommand → Option (CStr × ℤ)
  | .gfevt evtid =>
      if xatoi evtid < 50 ∨ 99 < xatoi evtid then some (errCmdInvalidEventid, -1) else none
  | .switch name onoff => (switch name onoff).badName
  | .get name => (get name).badName
  | .set name => (set name).badName
  | .exec name => (exec name).badName

/-- The text for the device, or the handler that is not a template. -/
def carriedOut (tagbuffer : CStr) (u : UserCommand) (i : ℕ) : ArgDialogue CmdOutcome :=
  match g7commandRows[i]? with
  | none => Dialogue.fail (-1)
  | some e =>
      if e.cmdhandler ∈ [.batt, .address, .dlrec, .null] then pure (.special e.cmdhandler)
      else do
        let argstrlist ← u.args i
        return .sends (preparedCmd e.cmdstr tagbuffer (str "0000") u.mode argstrlist) tagbuffer

/-- What a command means. -/
def meaning (tagbuffer : CStr) (u : UserCommand) : ArgDialogue CmdOutcome :=
  match u.mistake, findCommand u.types u.name with
  | some (text, rc), _ => pure (.tells text rc)
  | none, some i => u.carriedOut tagbuffer i
  | none, none => Dialogue.fail (-1)

end UserCommand

/-! ## The entries of the table -/

/-- What a verb relies on in the entry it has found. -/
structure EntryFits (i : ℕ) (e : G7CommandRow) : Prop where
  binary : e.type = .getsetBinary → e.cmdhandler = .binary
  reads : e.type ∈ [CmdType.get, .getsetBinary, .getset] →
    cmdModeR &&& e.modes ≠ 0 ∧ e.cmdhandler ∉ [CmdHandler.exec, .dlrec]
  writes : e.type ∈ [CmdType.getsetBinary, .set, .getset] →
    cmdModeW &&& e.modes ≠ 0 ∧ e.cmdhandler ∈ [CmdHandler.binary, .set] ∧ (cmdArgsFor i).isSome
  exec : e.type = .exec → cmdModeW &&& e.modes ≠ 0 ∧ e.cmdhandler ∈ [CmdHandler.exec, .dlrec]

lemma rows_binary : ∀ p ∈ g7commandRows.zipIdx, p.1.type = .getsetBinary →
    p.1.cmdhandler = .binary := by
  decide +kernel

lemma rows_read : ∀ p ∈ g7commandRows.zipIdx,
    p.1.type ∈ [CmdType.get, .getsetBinary, .getset] →
      cmdModeR &&& p.1.modes ≠ 0 ∧ p.1.cmdhandler ∉ [CmdHandler.exec, .dlrec] := by
  decide +kernel

lemma rows_write : ∀ p ∈ g7commandRows.zipIdx,
    p.1.type ∈ [CmdType.getsetBinary, .set, .getset] →
      cmdModeW &&& p.1.modes ≠ 0 ∧ p.1.cmdhandler ∈ [CmdHandler.binary, .set] ∧
        (cmdArgsFor p.2).isSome := by
  decide +kernel

lemma rows_exec : ∀ p ∈ g7commandRows.zipIdx, p.1.type = .exec →
    cmdModeW &&& p.1.modes ≠ 0 ∧ p.1.cmdhandler ∈ [CmdHandler.exec, .dlrec] := by
  decide +kernel

/-- **Every entry of the table is fit for its verbs.** -/
theorem entryFits {i : ℕ} {e : G7CommandRow} (h : g7commandRows[i]? = some e) : EntryFits i e := by
  have hmem := List.mk_mem_zipIdx_iff_getElem?.mpr h
  exact ⟨rows_binary _ hmem, rows_read _ hmem, rows_write _ hmem, rows_exec _ hmem⟩

lemma cmdModeW_ne : cmdModeW ≠ cmdModeR := by decide

lemma reads_cmdModeRw : cmdModeR &&& cmdModeRw ≠ 0 := by decide

/-- What a search finds. -/
lemma findCommand_some {types : List CmdType} {name : CStr} {i : ℕ}
    (h : findCommand types name = some i) :
    ∃ e, g7commandRows[i]? = some e ∧ e.type ∈ types ∧ xstricmp name e.srvcmd = true := by
  obtain ⟨hlt, hfits, -⟩ := List.findIdx?_eq_some_iff_getElem.mp h
  rw [Bool.and_eq_true, List.contains_iff_mem] at hfits
  exact ⟨_, List.getElem?_eq_getElem hlt, hfits⟩

section

variable {i mode : ℕ} {e : G7CommandRow} {tagbuffer argstrlist : CStr}

/-- A command in a mode of its entry is sent. -/
lemma prepareCmdToDevice_eq (he : g7commandRows[i]? = some e) (hmode : mode &&& e.modes ≠ 0) :
    prepareCmdToDevice tagbuffer i mode argstrlist =
      .sends (preparedCmd e.cmdstr tagbuffer (str "0000") mode argstrlist) tagbuffer := by
  have hpin : getDevicePin 8 = some (str "0000") := by decide
  rw [prepareCmdToDevice, he, hpin]
  exact if_neg hmode

/-- The handler of an entry. -/
lemma execVerb_some {types : List CmdType} {before after : String} {gsflag : ℕ} {name : CStr}
    (h : findCommand types name = some i) (he : g7commandRows[i]? = some e) :
    execVerb types before after gsflag tagbuffer name =
      callHandler e.cmdhandler tagbuffer i gsflag := by
  rw [execVerb, h]
  dsimp only
  rw [he]
  rfl

/-- No entry. -/
lemma execVerb_none {types : List CmdType} {before after : String} {gsflag : ℕ} {name : CStr}
    (h : findCommand types name = none) :
    execVerb types before after gsflag tagbuffer name =
      pure (.tells (str "[ERR] " ++ snprintf 256 (str before ++ name ++ str after)) 0) := by
  rw [execVerb, h]

end

section

variable {tagbuffer : CStr} {i : ℕ} {e : G7CommandRow} (u : UserCommand)

/-- A name that does not exist. -/
lemma meaning_none (hu : u.mistake = u.badName) (h : findCommand u.types u.name = none) :
    u.meaning tagbuffer =
      pure (.tells (str "[ERR] " ++ snprintf 256 (str "Command \"" ++ u.shown ++
        str "\" is not valid. Try help.")) 0) := by
  rw [UserCommand.meaning, hu, UserCommand.badName, h]

/-- A name that exists. -/
lemma meaning_some (hu : u.mistake = u.badName) (h : findCommand u.types u.name = some i)
    (hevent : ¬ (i = cmdidxSetevt ∧ u.mode = cmdModeR)) :
    u.meaning tagbuffer = u.carriedOut tagbuffer i := by
  rw [UserCommand.meaning, hu, UserCommand.badName, h]
  dsimp only
  rw [if_neg hevent]

/-- A handler that is not a template. -/
lemma carriedOut_special (he : g7commandRows[i]? = some e)
    (h : e.cmdhandler ∈ [CmdHandler.batt, .address, .dlrec, .null]) :
    u.carriedOut tagbuffer i = pure (.special e.cmdhandler) := by
  rw [UserCommand.carriedOut, he]
  exact if_pos h

/-- A template. -/
lemma carriedOut_template (he : g7commandRows[i]? = some e)
    (h : e.cmdhandler ∉ [CmdHandler.batt, .address, .dlrec, .null])
    (hmode : u.mode &&& e.modes ≠ 0) :
    u.carriedOut tagbuffer i = u.args i >>= fun argstrlist =>
      pure (prepareCmdToDevice tagbuffer i u.mode argstrlist) := by
  simp only [prepareCmdToDevice_eq he hmode]
  rw [UserCommand.carriedOut, he]
  exact if_neg h

end

section

variable (tagbuffer : CStr)

/-- `set NAME on` and `set NAME off` -/
lemma execBinaryCommand_eq (name onoff : CStr) :
    execBinaryCommand tagbuffer name onoff = (UserCommand.switch name onoff).meaning tagbuffer := by
  rw [execBinaryCommand]
  cases hfind : findCommand [.getsetBinary] name with
  | none =>
      rw [execVerb_none hfind, meaning_none (.switch name onoff) rfl hfind]
      rfl
  | some i =>
      obtain ⟨e, he, htype, -⟩ := findCommand_some hfind
      have hbinary := List.mem_singleton.mp htype
      have hhandler := (entryFits he).binary hbinary
      have hwrites := (entryFits he).writes (by rw [hbinary]; decide)
      rw [execVerb_some hfind he, hhandler, meaning_some (.switch name onoff) rfl hfind fun h => cmdModeW_ne h.2,
        carriedOut_template (.switch name onoff) he (by rw [hhandler]; decide) hwrites.1, UserCommand.args, callHandler]
      split_ifs with hon
      · rfl
      · rfl

/-- `get NAME` -/
lemma execGetCommand_eq (name : CStr) :
    execGetCommand tagbuffer name = (UserCommand.get name).meaning tagbuffer := by
  rw [execGetCommand]
  cases hfind : findCommand [.get, .getsetBinary, .getset] name with
  | none =>
      rw [execVerb_none hfind, meaning_none (.get name) rfl hfind, UserCommand.shown, ← List.append_assoc,
        str_append_str]
      rfl
  | some i =>
      obtain ⟨e, he, htype, -⟩ := findCommand_some hfind
      obtain ⟨hmode, hhandler⟩ := (entryFits he).reads htype
      rw [execVerb_some hfind he]
      by_cases hi : i = cmdidxSetevt
      · -- the event's entry: its template asks for the id
        have hset : e.cmdhandler = .set := by
          rw [hi] at he
          exact (congrArg G7CommandRow.cmdhandler (Option.some.inj he)).symm
        rw [hset, callHandler, cmdSetTemplate, if_pos ⟨hi, rfl⟩, UserCommand.meaning,
          UserCommand.mistake, UserCommand.badName]
        rw [show findCommand (UserCommand.get name).types (UserCommand.get name).name = some i
          from hfind]
        dsimp only
        rw [if_pos ⟨hi, rfl⟩]
      · rw [meaning_some (.get name) rfl hfind fun h => hi h.1]
        cases hkind : e.cmdhandler with
        | binary =>
            rw [carriedOut_template (.get name) he (by rw [hkind]; decide) hmode, callHandler,
              cmdBinaryTemplate, UserCommand.args, Dialogue.pure_bind]
            rfl
        | get =>
            rw [carriedOut_template (.get name) he (by rw [hkind]; decide) hmode, callHandler,
              cmdGetTemplate, UserCommand.args, Dialogue.pure_bind]
            rfl
        | set =>
            rw [carriedOut_template (.get name) he (by rw [hkind]; decide) hmode, callHandler,
              cmdSetTemplate, if_neg fun h => hi h.1, UserCommand.args, Dialogue.pure_bind]
            rfl
        | exec => exact absurd (by rw [hkind]; decide) hhandler
        | dlrec => exact absurd (by rw [hkind]; decide) hhandler
        | batt => rw [carriedOut_special (.get name) he (by rw [hkind]; decide), hkind, callHandler]
        | address =>
            rw [carriedOut_special (.get name) he (by rw [hkind]; decide), hkind, callHandler]
        | null => rw [carriedOut_special (.get name) he (by rw [hkind]; decide), hkind, callHandler]

/-- `set NAME` -/
lemma execSetCommand_eq (name : CStr) :
    execSetCommand tagbuffer name = (UserCommand.set name).meaning tagbuffer := by
  rw [execSetCommand]
  cases hfind : findCommand [.set, .getset] name with
  | none =>
      rw [execVerb_none hfind, meaning_none (.set name) rfl hfind, UserCommand.shown, ← List.append_assoc,
        str_append_str]
      rfl
  | some i =>
      obtain ⟨e, he, htype, -⟩ := findCommand_some hfind
      obtain ⟨hmode, hhandler, hargs⟩ := (entryFits he).writes (List.mem_cons_of_mem _ htype)
      rw [execVerb_some hfind he, meaning_some (.set name) rfl hfind fun h => cmdModeW_ne h.2]
      have hkinds : e.cmdhandler = .binary ∨ e.cmdhandler = .set := by simpa using hhandler
      rcases hkinds with hkind | hkind
      · rw [carriedOut_template (.set name) he (by rw [hkind]; decide) hmode, hkind, callHandler,
          cmdBinaryTemplate, UserCommand.args]
        rfl
      · rw [carriedOut_template (.set name) he (by rw [hkind]; decide) hmode, hkind, callHandler,
          cmdSetTemplate, if_neg fun h => absurd h.2 (by decide), UserCommand.args,
          if_neg (by simpa [Option.isSome_iff_ne_none] using hargs)]
        rfl

/-- `do NAME` -/
lemma execDoCommand_eq (name : CStr) :
    execDoCommand tagbuffer name = (UserCommand.exec name).meaning tagbuffer := by
  rw [execDoCommand]
  cases hfind : findCommand [.exec] name with
  | none =>
      rw [execVerb_none hfind, meaning_none (.exec name) rfl hfind, UserCommand.shown, ← List.append_assoc,
        str_append_str]
      rfl
  | some i =>
      obtain ⟨e, he, htype, -⟩ := findCommand_some hfind
      obtain ⟨hmode, hhandler⟩ := (entryFits he).exec (List.mem_singleton.mp htype)
      rw [execVerb_some hfind he,
        meaning_some (.exec name) rfl hfind fun h => cmdModeW_ne h.2]
      have hkinds : e.cmdhandler = .exec ∨ e.cmdhandler = .dlrec := by simpa using hhandler
      rcases hkinds with hkind | hkind
      · rw [carriedOut_template (.exec name) he (by rw [hkind]; decide) hmode, hkind, callHandler,
          cmdDoTemplate, UserCommand.args, Dialogue.pure_bind]
        rfl
      · rw [carriedOut_special (.exec name) he (by rw [hkind]; decide), hkind, callHandler]

/-- `get gfevt EVENTID` -/
lemma execGetGfevt_eq (evtid : CStr) :
    execGetGfevt tagbuffer evtid = (UserCommand.gfevt evtid).meaning tagbuffer := by
  have hfind : findCommand [.getset] (str "gfevt") = some cmdidxSetevt := by decide +kernel
  have he : g7commandRows[cmdidxSetevt]? =
      some ⟨⟨str "gfevt", str "SETEVT"⟩, .set, .getset, cmdModeRw⟩ := rfl
  rw [execGetGfevt, UserCommand.meaning, UserCommand.mistake]
  split_ifs with hrange
  · rfl
  · rw [show findCommand (UserCommand.gfevt evtid).types (UserCommand.gfevt evtid).name =
      some cmdidxSetevt from hfind]
    dsimp only
    rw [carriedOut_template (.gfevt evtid) he (by decide) reads_cmdModeRw, UserCommand.args,
      Dialogue.pure_bind]
    rfl

/-- **A user's command comes to what it means**, for every command, every user and every tag. -/
theorem execCommand_eq_meaning (u : UserCommand) :
    execCommand tagbuffer u = u.meaning tagbuffer := by
  cases u with
  | switch name onoff => exact execBinaryCommand_eq tagbuffer name onoff
  | gfevt evtid => exact execGetGfevt_eq tagbuffer evtid
  | get name => exact execGetCommand_eq tagbuffer name
  | set name => exact execSetCommand_eq tagbuffer name
  | exec name => exact execDoCommand_eq tagbuffer name

end

end G7
