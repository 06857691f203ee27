import G7Ctrl.Command.CommandTable

/-!
# The arguments of the commands (`cmdargs_list`)

For every command that can be set, the arguments a user is asked for.

* `getArgidxForCmdidx` — where the arguments of a command are.
* **`forall_mem_select`** — what the values of a selection are.
-/

namespace G7

/-- `ARGT_BOOL`, `ARGT_INT`, `ARGT_FLOAT`, `ARGT_SELECT` and `ARGT_STRING`. -/
inductive ArgType where
  | bool
  | int
  | float
  | select
  | string
  deriving DecidableEq

/-- An alternative of a selection. -/
structure SelectValue where
  val : CStr
  selectlabel : CStr

/-- One argument of a command. -/
structure CmdArg where
  arglabel : CStr
  argdesc : CStr
  type : ArgType
  nsel : ℕ
  select : List SelectValue

/-- `struct cmdargs`: the arguments of a command, without the unused places behind them. -/
structure CmdArgs where
  srvcmd : CStr
  numargs : ℕ
  argl : List CmdArg

/-- The arguments that are asked for. -/
def CmdArgs.args (p : CmdArgs) : List CmdArg := p.argl.take p.numargs

/-- The alternatives that are compared with a reply. -/
def CmdArg.values (a : CmdArg) : List CStr := (a.select.take a.nsel).map SelectValue.val

/-- `cmdargs_list` -/
def cmdargsList : List CmdArgs :=
  [⟨str "sleep", 1,
    [⟨str "Message mode", str "Set how to handle message at when device enters sleep", .select, 3,
      [⟨str "1", str "Log message to device"⟩, ⟨str "2", str "Send back message"⟩,
       ⟨str "3", str "Both log and send back"⟩]⟩]⟩,
   ⟨str "roam", 0, []⟩,
   ⟨str "phone", 2,
    [⟨str "Status", str "Enable disable location by phone", .select, 2,
      [⟨str "0", str "Disabled"⟩, ⟨str "1", str "Enabled"⟩]⟩,
     ⟨str "VIP mask", str "Bitmask for allowed VIP numbers", .int, 0, []⟩]⟩,
   ⟨str "led", 0, []⟩,
   ⟨str "mswitch", 2,
    [⟨str "Report action", str "Action to perform when device is detached", .select, 4,
      [⟨str "0", str "Disable"⟩, ⟨str "1", str "Log on device"⟩,
       ⟨str "2", str "Send back to server"⟩, ⟨str "3", str "Both log and send back"⟩]⟩,
     ⟨str "VIP mask", str "Bitmask of VIP numbers to alert", .int, 0, []⟩]⟩,
   ⟨str "lowbatt", 2,
    [⟨str "Report action", str "Action to perform at low battery voltage", .select, 4,
      [⟨str "0", str "Disabled"⟩, ⟨str "1", str "Log on device"⟩,
       ⟨str "2", str "Send back to server"⟩, ⟨str "3", str "Both log and send back"⟩]⟩,
     ⟨str "VIP mask", str "Bit mask of VIP numbers to alert", .int, 0, []⟩]⟩,
   ⟨str "sms", 1,
    [⟨str "Mode", str "Set format for SMS sent back", .select, 2,
      [⟨str "0", str "PDU mode"⟩, ⟨str "1", str "Text mode"⟩]⟩]⟩,
   ⟨str "sens", 1,
    [⟨str "Sensitivity", str "Set sensitivity for accelerometer", .select, 5,
      [⟨str "1", str "[1] Highest sensitivity"⟩, ⟨str "2", str "[2]"⟩, ⟨str "3", str "[3]"⟩,
       ⟨str "4", str "[4]"⟩, ⟨str "5", str "[5] Lowest sensitivity"⟩]⟩]⟩,
   ⟨str "tz", 3,
    [⟨str "Sign", str "Ahead or before GMT zone", .select, 2,
      [⟨str "+", str "Ahead of GMT"⟩, ⟨str "-", str "Before GMT"⟩]⟩,
     ⟨str "Hour", str "Number of hours to adjust (0-9)", .int, 0, []⟩,
     ⟨str "Min", str "Minutes to adjust", .select, 4,
      [⟨str "00", str "0 min"⟩, ⟨str "15", str "15 min"⟩, ⟨str "30", str "30 min"⟩,
       ⟨str "45", str "45 min"⟩]⟩]⟩,
   ⟨str "gfen", 5,
    [⟨str "Status", str "Turn option on/off", .select, 2,
      [⟨str "0", str "Disabled"⟩, ⟨str "1", str "Enabled"⟩]⟩,
     ⟨str "Radius",
      str "Radius in meter for fence. Radius is counted from the center where " ++
        str "M7 sleeps (last recorded pos)", .int, 0,
      []⟩,
     ⟨str "Zone trigger", str "Trigger when leaving or entering zone", .select, 3,
      [⟨str "0", str "Undefined"⟩, ⟨str "1", str "Trigger on enter"⟩,
       ⟨str "2", str "Trigger on leave"⟩]⟩,
     ⟨str "Report action", str "What to do on event", .select, 4,
      [⟨str "0", str "Disabled"⟩, ⟨str "1", str "Log to device"⟩,
       ⟨str "2", str "Send back to server"⟩, ⟨str "3", str "Both log and send back"⟩]⟩,
     ⟨str "VIP mask", str "Bitmask of VIP numbers to alert (0 to disable)", .int, 0, []⟩]⟩,
   ⟨str "track", 7,
    [⟨str "Tracking mode", str "Condition when tracking is started", .select, 10,
      [⟨str "0", str "Disabled"⟩, ⟨str "1", str "Time interval"⟩,
       ⟨str "2", str "Distance interval"⟩, ⟨str "3", str "Time AND Distance interval"⟩,
       ⟨str "4", str "Time OR distance interval"⟩, ⟨str "5", str "Heading mode"⟩,
       ⟨str "6", str "Heading OR time"⟩, ⟨str "7", str "Heading OR distance"⟩,
       ⟨str "8", str "Heading OR (Time AND Distance"⟩,
       ⟨str "9", str "Heading OR Time OR Distance"⟩]⟩,
     ⟨str "Timer interval", str "Used for mode 1", .int, 0, []⟩,
     ⟨str "Dist. interval", str "Used for mode 2-9", .int, 0, []⟩,
     ⟨str "Nbr of times", str "Number of times to track (0=unlimited)", .int, 0, []⟩,
     ⟨str "Track basis", str "Wait for GPS fix or not", .select, 2,
      [⟨str "0", str "Send report if GPS fix"⟩, ⟨str "1", str "Send report always"⟩]⟩,
     ⟨str "Comm select", str "Set type of report", .select, 5,
      [⟨str "0", str "Over USB"⟩, ⟨str "1", str "Over GSM"⟩,
       ⟨str "2", str "Over Reserved (not used)"⟩, ⟨str "3", str "UDP over GPRS"⟩,
       ⟨str "4", str "TCP/IP over GPRS"⟩]⟩,
     ⟨str "Heading", str "Used for modes 5-9", .int, 0, []⟩]⟩,
   ⟨str "comm", 10,
    [⟨str "CommSelect", str "Select primary type of communication", .select, 5,
      [⟨str "0", str "Use USB"⟩, ⟨str "1", str "Use SMS over GSM"⟩, ⟨str "2", str "CSD <reserved>"⟩,
       ⟨str "3", str "UDP over GPRS"⟩, ⟨str "4", str "TCP/IP over GPRS"⟩]⟩,
     ⟨str "SMS Base Phone", str "SMS base number to call", .string, 0, []⟩,
     ⟨str "CSD Base Phone", str "CSD base number <reserved and not used>", .int, 0, []⟩,
     ⟨str "GPRS APN", str "The operators APN", .string, 0, []⟩,
     ⟨str "GPRS User", str "User name if required", .string, 0, []⟩,
     ⟨str "GPRS Passwd", str "Password if required", .string, 0, []⟩,
     ⟨str "GPRS Server", str "Server IP address where the device reports back to", .string, 0, []⟩,
     ⟨str "GPRS Server Port", str "TCP/IP Port to use on server", .int, 0, []⟩,
     ⟨str "GPRS Keep Alive", str "Interval in sec between Keep Alive Packets", .int, 0, []⟩,
     ⟨str "GPRS DNS", str "Optional DNS server for device to use.", .string, 0, []⟩]⟩,
   ⟨str "ps", 7,
    [⟨str "Mode", str "When to enable sleep mode", .select, 4,
      [⟨str "0", str "Auto sleep. Wake on movement. GSM=Stdby,GPRS=GPS=Off,G=On"⟩,
       ⟨str "1", str "Auto sleep. Wake every n min. GSM=GPRS=GPS=G=Off"⟩,
       ⟨str "2", str "Auto sleep. Wake on timer. GSM=GPRS=GPS=G=Off"⟩,
       ⟨str "3", str "Auto sleep. Wake on movement. GSM=GPRS=GPS=Off,G=On"⟩]⟩,
     ⟨str "Sleep interval", str "Used with mode 1, Interval in min between wake ups", .int, 0, []⟩,
     ⟨str "Wake up report", str "Action when awaken", .select, 4,
      [⟨str "0", str "Disabled"⟩, ⟨str "1", str "Log on device"⟩,
       ⟨str "2", str "Send back to server"⟩, ⟨str "3", str "Both log and send back"⟩]⟩,
     ⟨str "VIP mask", str "Bitmask of VIP numbers to alert (0 disables)", .int, 0, []⟩,
     ⟨str "Timer 1", str "Used with mode=2. 00-23 hr", .int, 0, []⟩,
     ⟨str "Timer 2", str "Used with mode=2. 00-23 hr", .int, 0, []⟩,
     ⟨str "Timer 3", str "Used with mode=2. 00-23 hr", .int, 0, []⟩]⟩,
   ⟨str "config", 3,
    [⟨str "Device ID", str "Set device ID (leftmost digit must always be 3)", .int, 0, []⟩,
     ⟨str "Device Password", str "Set device Password (numeric)", .int, 0, []⟩,
     ⟨str "SIM Card PIN", str "The SIM cards PIN code to use", .int, 0, []⟩]⟩,
   ⟨str "vip", 5,
    [⟨str "VIP 1", str "Mobile number 1 (incl country prefix '+')", .string, 0, []⟩,
     ⟨str "VIP 2", str "Mobile number 2 (incl country prefix '+')", .string, 0, []⟩,
     ⟨str "VIP 3", str "Mobile number 3 (incl country prefix '+')", .string, 0, []⟩,
     ⟨str "VIP 4", str "Mobile number 4 (incl country prefix '+')", .string, 0, []⟩,
     ⟨str "VIP 5", str "Mobile number 5 (incl country prefix '+')", .string, 0, []⟩]⟩,
   ⟨str "gfevt", 8,
    [⟨str "Event ID", str "Event ID. Maximum of 50 events. In range 50-99", .int, 0, []⟩,
     ⟨str "Status", str "Enable/Disable event", .select, 2,
      [⟨str "0", str "Disabled"⟩, ⟨str "1", str "Enabled"⟩]⟩,
     ⟨str "Longitude", str "Longitude for center of event zone", .float, 0, []⟩,
     ⟨str "Latitude", str "Latitude for center of event zone", .float, 0, []⟩,
     ⟨str "Radius", str "Radius of event zone in meters (0-65535)", .int, 0, []⟩,
     ⟨str "Zone Control", str "How to trigger event", .select, 2,
      [⟨str "0", str "Disabled"⟩, ⟨str "1", str "Entering zone"⟩, ⟨str "2", str "Leaving zone"⟩]⟩,
     ⟨str "Action", str "What to do on event", .select, 4,
      [⟨str "0", str "Disabled"⟩, ⟨str "1", str "Log to device"⟩, ⟨str "2", str "Send to server"⟩,
       ⟨str "3", str "Both log and send"⟩]⟩,
     ⟨str "VIP Phone mask", str "Bit combination to enable/disable the five VIP numbers", .int, 0,
      []⟩]⟩,
   ⟨str "rec", 6,
    [⟨str "Mode", str "When should logging be done", .select, 10,
      [⟨str "0", str "Disabled"⟩, ⟨str "1", str "Time mode, log every n seconds"⟩,
       ⟨str "2", str "Distance mode, log every n meters"⟩, ⟨str "3", str "Time AND Distance mode"⟩,
       ⟨str "4", str "Time OR Distance mode"⟩,
       ⟨str "5", str "Heading mode, logging starts when heading > set value"⟩,
       ⟨str "6", str "Heading OR Time mode"⟩, ⟨str "7", str "Heading OR Distance"⟩,
       ⟨str "8", str "Heading OR (Time AND Distance)"⟩,
       ⟨str "9", str "Heading OR Time OR Distance"⟩]⟩,
     ⟨str "Time interval", str "Time interval (in sec) used in mode setting", .int, 0, []⟩,
     ⟨str "Distance interval", str "Distance interval (in meters) used in mode setting", .int, 0,
      []⟩,
     ⟨str "Number of reports",
      str "The number of reports to send bakc on event (0=continously logging)", .int, 0, []⟩,
     ⟨str "Record basis", str "Logging mode", .select, 2,
      [⟨str "0", str "Wait for GPS fix before sending back report"⟩,
       ⟨str "1", str "Don't wait for GPS fix before sending back report"⟩]⟩,
     ⟨str "Heading", str "Heading value used in mode (10-90)", .int, 0, []⟩]⟩]

/-- `get_argidx_for_cmdidx` -/
def getArgidxForCmdidx (cmdidx : ℕ) : Option ℕ :=
  g7commandList[cmdidx]?.bind fun cmd => cmdargsList.findIdx? fun p => xstricmp cmd.srvcmd p.srvcmd

/-- The arguments of a command. -/
def cmdArgsFor (cmdidx : ℕ) : Option CmdArgs :=
  (getArgidxForCmdidx cmdidx).bind (cmdargsList[·]?)

lemma mem_of_cmdArgsFor {cmdidx : ℕ} {p : CmdArgs} (h : cmdArgsFor cmdidx = some p) :
    p ∈ cmdargsList := by
  obtain ⟨idx, _, hget⟩ := Option.bind_eq_some_iff.mp h
  exact List.mem_of_getElem? hget

/-- **The values of a selection** are short and have no comma. -/
theorem forall_mem_select :
    ∀ p ∈ cmdargsList, ∀ a ∈ p.args, ∀ v ∈ a.values, v.length ≤ 2 ∧ ch ',' ∉ v := by
  decide

end G7
