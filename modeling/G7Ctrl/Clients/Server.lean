import G7Ctrl.Clients.Target
import G7Ctrl.Core.Runs
import Mathlib.Data.Fintype.Card

/-!
# The server: connections coming and going

One main thread accepts connections of both kinds and puts each into a slot of `client_info_list`
(`startupsrv`).  Every connection has a thread of its own:

* a tracker thread registers the device id of the first keep-alive packet, after a search for an
  older connection of the same device, which it cancels (`handleKeepAlivePackage`); when it ends, by
  itself or cancelled, its cleanup handler closes the socket and clears the slot
  (`trk_thread_cleanup`);
* a command thread sets its target and sends commands, each after a search for the target's device
  id and socket (`send_rawcmd_reply_over_gprs`); when it ends it closes the socket and clears the
  slot (`cmd_clientsrv`).

The critical sections of `socks_mutex` are atomic, except that the one of `cmd_clientsrv` closes a
socket, so that the number of that socket can be given out again before the slot is cleared.  The
two searches take no mutex and look at one slot in a step.

A thread that is cancelled ends at a later step of its own.  A tracker thread then runs its cleanup
handler; but a command thread has none, and neither has a tracker thread whose handler was already
popped (`die`).

Connections are numbered in the order of their acceptance and their numbers are not used again; the
thread id of connection `t` is `t + 1`.  Three components are there to state properties only:
`chosen` and `regId` of a connection, `lastReg`, and the history `writes`.
-/

namespace G7

/-- Where the thread of a connection is. -/
inductive ConnPc (maxClients : ℕ)
  | unborn
  /-- Accepted by the main thread, which has not found a slot for it yet. -/
  | accepted
  | running
  /-- In `handleKeepAlivePackage`, about to look at slot `k`. -/
  | scanning (devid k : ℕ)
  /-- In `send_rawcmd_reply_over_gprs`, about to look at slot `k`. -/
  | checking (k : ℕ)
  /-- The target was found in slot `i`; the command is about to be written. -/
  | found (i : Fin maxClients)
  /-- The target was not found; the call is about to return -1. -/
  | refused
  /-- Ending, the socket still open.  `popped`: the cleanup handler runs after the thread's loop. -/
  | leaving (popped : Bool)
  /-- The socket is closed, the slot not yet cleared. -/
  | closed (popped : Bool)
  /-- The thread is gone and has left its slot as it was. -/
  | dead (isOpen : Bool)
  | gone
  deriving DecidableEq

/-- The socket of the connection is open. -/
def ConnPc.isOpen {maxClients : ℕ} : ConnPc maxClients → Bool
  | .unborn | .closed _ | .gone => false
  | .dead isOpen => isOpen
  | _ => true

/-- A connection. -/
structure Conn (maxClients : ℕ) where
  isCmd : Bool
  ip : CStr
  fd : ℤ
  pc : ConnPc maxClients
  /-- The slot its thread was given. -/
  slot : Option (Fin maxClients)
  cancelled : Bool
  /-- The device id it has registered, 0 before that. -/
  regId : ℕ
  /-- The connection in the slot that the user has chosen as target. -/
  chosen : Option ℕ
  deriving DecidableEq

/-- No connection yet. -/
def Conn.unborn {maxClients : ℕ} : Conn maxClients :=
  ⟨false, [], 0, .unborn, none, false, 0, none⟩

/-- A command written to a socket: what it was meant for, and who got it. -/
structure CommandWrite where
  client : ℕ
  targetDeviceid : ℕ
  chosen : Option ℕ
  socket : ℤ
  receiver : Option ℕ
  deriving DecidableEq

/-- The state of the server. -/
structure Server (maxClients : ℕ) where
  list : ClientInfoList maxClients
  numClients : ℤ
  conn : ℕ → Conn maxClients
  nextConn : ℕ
  /-- The connection an open file descriptor belongs to. -/
  fdOwner : ℤ → Option ℕ
  /-- The connection the main thread has accepted and not yet disposed of. -/
  main : Option ℕ
  /-- The thread that holds `socks_mutex` over more than one step. -/
  socksMutex : Option ℕ
  /-- The connection that registered a device id last. -/
  lastReg : ℕ → Option ℕ
  writes : List CommandWrite

/-- The steps of the threads. -/
inductive ServerAction
  | accept (isCmd : Bool) (ip : CStr) (fd : ℤ)
  | fillSlot (ts : ℕ)
  | refuse
  | keepAlive (t devid : ℕ)
  | scan (t : ℕ)
  | leave (t : ℕ)
  | cancelled (t : ℕ)
  | close (t : ℕ)
  | clear (t : ℕ)
  | die (t : ℕ)
  | useIndex (t : ℕ) (clientNbr : ℤ)
  | useNickname (t : ℕ) (nick : CStr) (devid : Option CStr)
  | send (t : ℕ)
  | check (t : ℕ)
  | write (t : ℕ)
  | giveUp (t : ℕ)

variable {maxClients : ℕ}

namespace Server

/-- The thread of connection `t` moves on. -/
def setPc (s : Server maxClients) (t : ℕ) (pc : ConnPc maxClients) : Server maxClients :=
  { s with conn := Function.update s.conn t { s.conn t with pc := pc } }

/-- `pthread_cancel` -/
def cancelThread (s : Server maxClients) : ℕ → Server maxClients
  | 0 => s
  | t + 1 => { s with conn := Function.update s.conn t { s.conn t with cancelled := true } }

/-- The connection that a slot belongs to. -/
def holder (s : Server maxClients) (i : Fin maxClients) : Option ℕ :=
  match (s.list i).cliThread with
  | 0 => none
  | t + 1 => some t

/-- A client has called a setter, which found the target in `slot`. -/
def setTarget (s : Server maxClients) (t : ℕ) (list : ClientInfoList maxClients)
    (slot : Option (Fin maxClients)) : Server maxClients :=
  { s with
    list := list
    conn := Function.update s.conn t
      { s.conn t with
        chosen := match slot with
          | some i => s.holder i
          | none => (s.conn t).chosen } }

/-- `startupsrv` accepts a connection; the descriptor is one that is not in use. -/
def accept (s : Server maxClients) (isCmd : Bool) (ip : CStr) (fd : ℤ) : Server maxClients :=
  { s with
    conn := Function.update s.conn s.nextConn ⟨isCmd, ip, fd, .accepted, none, false, 0, none⟩
    nextConn := s.nextConn + 1
    fdOwner := Function.update s.fdOwner fd (some s.nextConn)
    main := some s.nextConn }

/-- `startupsrv` gives a connection its slot and starts its thread. -/
def fillSlot (s : Server maxClients) (ts t : ℕ) (i : Fin maxClients) : Server maxClients :=
  { s with
    list := Function.update s.list i
      (.connected ts (s.conn t).fd (s.conn t).ip (t + 1) (s.conn t).isCmd)
    numClients := s.numClients + 1
    conn := Function.update s.conn t { s.conn t with pc := .running, slot := some i }
    main := none }

/-- `startupsrv` refuses a connection. -/
def refuse (s : Server maxClients) (t : ℕ) : Server maxClients :=
  { s.setPc t .gone with fdOwner := Function.update s.fdOwner (s.conn t).fd none, main := none }

/-- One round of the search for another connection of the device. -/
def scanSlot (s : Server maxClients) (t : ℕ) (me : Fin maxClients) (devid : ℕ)
    (k : Fin maxClients) : Server maxClients :=
  let s' := s.setPc t (.scanning devid (k + 1))
  if (s.list k).cliTs ≠ 0 ∧ devid = (s.list k).cliDevid then
    if (s.list k).cliIpadr ≠ (s.list me).cliIpadr ∧
        (s.list k).cliSocket ≠ (s.list me).cliSocket then
      s'.cancelThread (s.list k).cliThread
    else s'
  else s'

/-- The device id is noted for the connection. -/
def register (s : Server maxClients) (t : ℕ) (me : Fin maxClients) (devid : ℕ) :
    Server maxClients :=
  { s with
    list := Function.update s.list me { s.list me with cliDevid := devid }
    conn := Function.update s.conn t { s.conn t with pc := .running, regId := devid }
    lastReg := Function.update s.lastReg devid (some t) }

/-- The socket of a connection is closed. -/
def closeSocket (s : Server maxClients) (t : ℕ) (me : Fin maxClients) (popped : Bool) :
    Server maxClients :=
  { s.setPc t (.closed popped) with
    fdOwner := Function.update s.fdOwner (s.list me).cliSocket none }

/-- The slot of a connection is cleared and its thread ends. -/
def clearSlot (s : Server maxClients) (t : ℕ) (me : Fin maxClients) : Server maxClients :=
  { s with
    list := Function.update s.list me .cleared
    numClients := s.numClients - 1
    conn := Function.update s.conn t { s.conn t with pc := .gone, slot := none }
    socksMutex := none }

/-- One round of the search for the target; at the end of the table the target is reset. -/
def checkSlot (s : Server maxClients) (t : ℕ) (me : Fin maxClients) (k : ℕ) : Server maxClients :=
  if hk : k < maxClients then
    if (s.list ⟨k, hk⟩).cliDevid = (s.list me).targetDeviceid ∧
        (s.list ⟨k, hk⟩).cliSocket = (s.list me).targetSocket then
      s.setPc t (.found ⟨k, hk⟩)
    else s.setPc t (.checking (k + 1))
  else
    { s.setPc t .refused with list := (setGprsDeviceTargetByIndex s.list me (-1)).list }

/-- The command is written to the target socket, whoever that belongs to now. -/
def writeCommand (s : Server maxClients) (t : ℕ) (me : Fin maxClients) : Server maxClients :=
  { s.setPc t .running with
    writes := s.writes ++
      [⟨t, (s.list me).targetDeviceid, (s.conn t).chosen, (s.list me).targetSocket,
        s.fdOwner (s.list me).targetSocket⟩] }

/-- The step of a thread that has a slot. -/
def slotStep (s : Server maxClients) (t : ℕ) (me : Fin maxClients) :
    ServerAction → Option (Server maxClients)
  | .keepAlive _ devid =>
      if (s.conn t).pc = .running ∧ (s.conn t).isCmd = false then
        if (s.list me).cliDevid = 0 then some (s.setPc t (.scanning devid 0)) else some s
      else none
  | .scan _ =>
      match (s.conn t).pc with
      | .scanning devid k =>
          if hk : k < maxClients then some (s.scanSlot t me devid ⟨k, hk⟩)
          else some (s.register t me devid)
      | _ => none
  | .leave _ => if (s.conn t).pc = .running then some (s.setPc t (.leaving true)) else none
  | .cancelled _ =>
      if (s.conn t).cancelled = true then
        match (s.conn t).isCmd, (s.conn t).pc with
        | false, .running => some (s.setPc t (.leaving false))
        | false, .scanning _ _ => some (s.setPc t (.leaving false))
        | true, .running | true, .checking _ | true, .found _ | true, .refused
        | true, .leaving _ => some (s.setPc t (.dead true))
        | true, .closed _ => some (s.setPc t (.dead false))
        | _, _ => none
      else none
  | .close _ =>
      match (s.conn t).pc with
      | .leaving popped =>
          if (s.conn t).isCmd then
            if s.socksMutex = none then some { s.closeSocket t me popped with socksMutex := some t }
            else none
          else some (s.closeSocket t me popped)
      | _ => none
  | .clear _ =>
      match (s.conn t).pc with
      | .closed _ =>
          if s.socksMutex = if (s.conn t).isCmd then some t else none then some (s.clearSlot t me)
          else none
      | _ => none
  | .die _ =>
      if (s.conn t).cancelled = true ∧ (s.conn t).isCmd = false then
        match (s.conn t).pc with
        | .leaving true => some (s.setPc t (.dead true))
        | .closed true => some (s.setPc t (.dead false))
        | _ => none
      else none
  | .useIndex _ clientNbr =>
      if (s.conn t).pc = .running ∧ (s.conn t).isCmd = true then
        some (s.setTarget t (setGprsDeviceTargetByIndex s.list me clientNbr).list
          (deviceNbrSlot s.list clientNbr))
      else none
  | .useNickname _ nick devid =>
      if (s.conn t).pc = .running ∧ (s.conn t).isCmd = true then
        some (s.setTarget t (setGprsDeviceTargetByNickname (fun _ => devid) s.list me nick).list
          (devid.bind fun devid => devidSlot s.list (toUnsigned32 (xatol devid))))
      else none
  | .send _ =>
      if (s.conn t).pc = .running ∧ (s.conn t).isCmd = true ∧
          (s.list me).targetSocket > 0 ∧ (s.list me).targetCliIdx ≥ 0 then
        some (s.setPc t (.checking 0))
      else none
  | .check _ =>
      match (s.conn t).pc with
      | .checking k => some (s.checkSlot t me k)
      | _ => none
  | .write _ =>
      match (s.conn t).pc with
      | .found _ => some (s.writeCommand t me)
      | _ => none
  | .giveUp _ => if (s.conn t).pc = .refused then some (s.setPc t .running) else none
  | _ => none

end Server

/-- The thread an action belongs to; the main thread has none. -/
def ServerAction.thread : ServerAction → Option ℕ
  | .accept .. | .fillSlot _ | .refuse => none
  | .keepAlive t _ | .scan t | .leave t | .cancelled t | .close t | .clear t | .die t
  | .useIndex t _ | .useNickname t _ _ | .send t | .check t | .write t | .giveUp t => some t

/-- The step function. -/
def serverStep (s : Server maxClients) : ServerAction → Option (Server maxClients)
  | .accept isCmd ip fd =>
      if s.main = none ∧ s.fdOwner fd = none ∧ 0 ≤ fd then some (s.accept isCmd ip fd) else none
  | .fillSlot ts =>
      if ts ≠ 0 ∧ s.socksMutex = none then
        s.main.bind fun t => (firstFreeSlot s.list).map fun i => s.fillSlot ts t i
      else none
  | .refuse =>
      if s.socksMutex = none ∧ firstFreeSlot s.list = none then s.main.map s.refuse else none
  | a => a.thread.bind fun t => (s.conn t).slot.bind fun me => s.slotStep t me a

/-- The server has just started. -/
def Server.start (maxClients : ℕ) : Server maxClients where
  list _ := .zero
  numClients := 0
  conn _ := .unborn
  nextConn := 0
  fdOwner _ := none
  main := none
  socksMutex := none
  lastReg _ := none
  writes := []

/-- The system of all threads. -/
def serverSystem (maxClients : ℕ) : StepSystem (Server maxClients) ServerAction where
  init s := s = Server.start maxClients
  step := serverStep

end G7
