import G7Ctrl.Command.Queue
import G7Ctrl.Command.Reply
import G7Ctrl.Core.Runs

/-!
# Commands over GPRS: the interleaving of clients and trackers

`send_rawcmd_reply_over_gprs`, run by any number of command clients `C`, and
`handleCmdReplyPackage`, run by any number of tracker connections `T`, share the command queue.
Each action below is one step of one thread:

* a client inserts its command, writes it to the device (`complete` tells whether all of it went
  out), polls its slot, copies a reply it finds, and clears the slot;
* a device sends a reply to a command it received, or a reply nobody asked for;
* a tracker thread takes a reply, searches the queue, fills the entry it found and sets its
  `validreply`.

Three ghost components record what the code does not: `holder i` is the command whose client took
slot `i`, `sent` is the history of all replies, and a reply carries the command it answers.  No
step depends on them.
-/

namespace G7

/-- One call of `send_rawcmd_reply_over_gprs`.  The `id` distinguishes the calls of a client. -/
structure GprsCall (C : Type*) where
  client : C
  id : ℕ
  sockd : ℤ
  deviceid : ℕ
  tag : CStr
  cmd : CStr
  deriving DecidableEq

/-- A reply a device sent, with the command it answers if there is one. -/
structure SentReply (C T : Type*) where
  conn : T
  answers : Option (GprsCall C)
  text : CStr
  deriving DecidableEq

/-- Where a client thread is in `send_rawcmd_reply_over_gprs` and `cmdqueue_check_reply`. -/
inductive ClientPc (C : Type*)
  | idle
  | inserted (call : GprsCall C) (i : CmdqueueIdx)
  | polling (call : GprsCall C) (i : CmdqueueIdx) (ts : ℕ)
  | replied (call : GprsCall C) (i : CmdqueueIdx)
  | copied (call : GprsCall C) (i : CmdqueueIdx) (reply : CStr)
  | timedout (call : GprsCall C) (i : CmdqueueIdx)
  deriving DecidableEq

/-- The slot a client holds, from the insertion on. -/
def ClientPc.slot {C : Type*} : ClientPc C → Option (GprsCall C × CmdqueueIdx)
  | .idle => none
  | .inserted call i => some (call, i)
  | .polling call i _ => some (call, i)
  | .replied call i => some (call, i)
  | .copied call i _ => some (call, i)
  | .timedout call i => some (call, i)

/-- Where a tracker thread is in `handleCmdReplyPackage`: it has found entry `i`, held by `h` at
that moment, and later it has also filled the entry. -/
inductive TrackerPc (C T : Type*)
  | idle
  | matched (r : SentReply C T) (i : CmdqueueIdx) (h : Option (GprsCall C))
  | filled (r : SentReply C T) (i : CmdqueueIdx) (h : Option (GprsCall C))
  deriving DecidableEq

/-- The entry a tracker thread is going to write to. -/
def TrackerPc.target {C T : Type*} :
    TrackerPc C T → Option (SentReply C T × CmdqueueIdx × Option (GprsCall C))
  | .idle => none
  | .matched r i h => some (r, i, h)
  | .filled r i h => some (r, i, h)

/-- The shared state and the threads. -/
structure Gprs (C T : Type*) where
  now : ℕ
  cmdqLen : ℕ
  cmdq : Cmdq
  client : C → ClientPc C
  /-- Return code and message of a client's last finished call. -/
  result : C → Option (ℤ × CStr)
  tracker : T → TrackerPc C T
  cliDevid : T → ℕ
  /-- Commands written to a connection. -/
  delivered : List (GprsCall C × T)
  /-- Replies on their way to the server. -/
  pending : List (SentReply C T)
  sent : List (SentReply C T)
  holder : CmdqueueIdx → Option (GprsCall C)
  nextId : ℕ

/-- The steps of the threads, of the devices and of the clock. -/
inductive GprsAction (C T : Type*)
  | tick
  | keepAlive (t : T)
  | insert (c : C) (sockd : ℤ) (deviceid : ℕ) (tag cmd : CStr)
  | write (c : C) (t : T) (complete : Bool)
  | poll (c : C)
  | copy (c : C)
  | clear (c : C) (after : List Byte)
  | answer (t : T) (call : GprsCall C) (text : CStr)
  | unsolicited (t : T) (text : CStr)
  | matchReply (t : T) (r : SentReply C T) (after : List Byte)
  | fill (t : T)
  | setValid (t : T)

section

variable {C T : Type*} [DecidableEq C] [DecidableEq T]
variable (deviceOf : T → ℕ) (cmdargToText : Option (CStr → List CStr → CStr × Bool))

/-- A client thread moves on. -/
def Gprs.setClient (s : Gprs C T) (c : C) (pc : ClientPc C) : Gprs C T :=
  { s with client := Function.update s.client c pc }

/-- A tracker thread moves on. -/
def Gprs.setTracker (s : Gprs C T) (t : T) (pc : TrackerPc C T) : Gprs C T :=
  { s with tracker := Function.update s.tracker t pc }

/-- A call returns. -/
def Gprs.finishCall (s : Gprs C T) (c : C) (rc : ℤ × CStr) : Gprs C T :=
  { s.setClient c .idle with result := Function.update s.result c (some rc) }

/-- A reply leaves a device. -/
def Gprs.send (s : Gprs C T) (r : SentReply C T) : Gprs C T :=
  { s with pending := s.pending ++ [r], sent := s.sent ++ [r] }

/-- `cmdqueue_insert` by client `c`. -/
def Gprs.insert (s : Gprs C T) (c : C) (sockd : ℤ) (deviceid : ℕ) (tag cmd : CStr) : Gprs C T :=
  match cmdqueueInsert s.cmdqLen s.cmdq s.now sockd deviceid tag cmd with
  | none => s.finishCall c (-1, [])
  | some (cmdq, i) =>
      let call : GprsCall C := ⟨c, s.nextId, sockd, deviceid, tag, cmd⟩
      { s.setClient c (.inserted call i) with
        cmdq := cmdq
        holder := Function.update s.holder i (some call)
        nextId := s.nextId + 1 }

/-- The write to the device socket.  A complete write reaches connection `t`, which has registered
with the id the client targets; after an incomplete one the call returns at once. -/
def Gprs.write (s : Gprs C T) (c : C) (call : GprsCall C) (i : CmdqueueIdx) (t : T) :
    Bool → Gprs C T
  | true =>
      { s.setClient c (.polling call i ((s.cmdq i).ts % 2 ^ 32)) with
        delivered := s.delivered ++ [(call, t)] }
  | false => s.finishCall c (-1, str "[ERR] Could not write to device.")

/-- `cmdqueue_clridx` by the client, and the rest of its call. -/
def Gprs.clear (s : Gprs C T) (c : C) (i : CmdqueueIdx) (rc : ℤ × CStr) : Gprs C T :=
  { s.finishCall c rc with
    cmdq := cmdqueueClridx s.cmdq i
    holder := Function.update s.holder i none }

/-- The search of a tracker thread for the command that `r` replies to. -/
def Gprs.matchReply (s : Gprs C T) (t : T) (r : SentReply C T) (after : List Byte) : Gprs C T :=
  let s' := { s with pending := s.pending.erase r }
  match replyTag (s.cliDevid t) (r.text ++ 0 :: after) with
  | none => s'
  | some tag =>
      match cmdqueueMatch s.cmdq (s.cliDevid t) tag with
      | none => s'
      | some i => s'.setTracker t (.matched r i (s.holder i))

/-- The step function. -/
def gprsStep (s : Gprs C T) : GprsAction C T → Option (Gprs C T)
  | .tick => some { s with now := s.now + 1 }
  | .keepAlive t => some { s with cliDevid := Function.update s.cliDevid t (deviceOf t) }
  | .insert c sockd deviceid tag cmd =>
      match s.client c with
      | .idle => some (s.insert c sockd deviceid tag cmd)
      | _ => none
  | .write c t complete =>
      match s.client c with
      | .inserted call i =>
          if complete = true → s.cliDevid t = call.deviceid then some (s.write c call i t complete)
          else none
      | _ => none
  | .poll c =>
      match s.client c with
      | .polling call i ts =>
          match cmdqueuePoll s.cmdq i ts s.now with
          | .validreply => some (s.setClient c (.replied call i))
          | .timeout => some (s.setClient c (.timedout call i))
          | .again => some s
      | _ => none
  | .copy c =>
      match s.client c with
      | .replied call i =>
          some (s.setClient c (.copied call i (xmbStrncpy (s.cmdq i).reply 1024)))
      | _ => none
  | .clear c after =>
      match s.client c with
      | .copied call i reply =>
          some (s.clear c i (finishReply cmdargToText reply after call.tag))
      | .timedout _ i => some (s.clear c i (-1, str "[ERR] No reply from device."))
      | _ => none
  | .answer t call text =>
      if (call, t) ∈ s.delivered then some (s.send ⟨t, some call, text⟩) else none
  | .unsolicited t text => some (s.send ⟨t, none, text⟩)
  | .matchReply t r after =>
      match s.tracker t with
      | .idle => if r ∈ s.pending ∧ r.conn = t then some (s.matchReply t r after) else none
      | _ => none
  | .fill t =>
      match s.tracker t with
      | .matched r i h =>
          some { s.setTracker t (.filled r i h) with cmdq := cmdqueueFill s.cmdq i r.text }
      | _ => none
  | .setValid t =>
      match s.tracker t with
      | .filled _ i _ =>
          some { s.setTracker t .idle with cmdq := cmdqueueSetValid s.cmdq i }
      | _ => none

/-- The server starts with an empty queue, no call and no reply under way, at a time that is not
the epoch. -/
structure Gprs.Init (s : Gprs C T) : Prop where
  now_pos : 0 < s.now
  cmdqLen_eq : s.cmdqLen = 0
  cmdq_eq : s.cmdq = cmdqueueInit
  client_eq : ∀ c, s.client c = .idle
  tracker_eq : ∀ t, s.tracker t = .idle
  cliDevid_eq : ∀ t, s.cliDevid t = 0
  pending_eq : s.pending = []
  sent_eq : s.sent = []
  holder_eq : ∀ i, s.holder i = none

/-- The server just after its start, at time `now`. -/
def Gprs.start (now : ℕ) : Gprs C T where
  now := now
  cmdqLen := 0
  cmdq := cmdqueueInit
  client _ := .idle
  result _ := none
  tracker _ := .idle
  cliDevid _ := 0
  delivered := []
  pending := []
  sent := []
  holder _ := none
  nextId := 0

omit [DecidableEq C] [DecidableEq T] in
lemma Gprs.start_init {now : ℕ} (h : 0 < now) : (Gprs.start now : Gprs C T).Init :=
  ⟨h, rfl, rfl, fun _ => rfl, fun _ => rfl, fun _ => rfl, rfl, rfl, fun _ => rfl⟩

/-- The system of all threads. -/
def gprsSystem : StepSystem (Gprs C T) (GprsAction C T) where
  init := Gprs.Init
  step := gprsStep deviceOf cmdargToText

end

end G7
