import G7Ctrl.Core.Runs
import Mathlib.Algebra.Order.Ring.Int
import Mathlib.Data.Fintype.Card

/-!
# The USB connection state (`connwatcher.c`)

The watcher thread is told when a device file appears or disappears.  For a file that appears it
starts a thread which waits until the device answers with its id (`establish_usb_thread`); for one
that disappears it cancels the thread it started last for this port, if the port is attached and
not yet connected, and clears the port.  The ports' entries are written by the watcher and by all
these threads, without a lock.

Each event is one step, and so is each of the thread's writes; the thread's three attempts to get
the device id lie between them.  A `pthread_cancel` takes effect at a cancellation point: the
sleeps and the calls of `get_devid` have them, and behind the last of these there is none before
the thread has made its two writes.

`lastEvent` is bookkeeping that no step reads.
-/

namespace G7

/-- `MAX_USB_CONNECTIONS` -/
def maxUsbConnections : ℕ := 6

instance : NeZero maxUsbConnections := ⟨by decide⟩

/-- A port: an index of `usb_conn_status`. -/
abbrev UsbIdx := Fin maxUsbConnections

/-- `struct usb_conn_status_t`.  (The device number and name never change.) -/
structure UsbConnStatus where
  isAttached : Bool := false
  isConnected : Bool := false
  ts : ℤ := 0
  deviceId : ℕ := 0
  deriving DecidableEq

/-- Where an `establish_usb_thread` is. -/
inductive EstablishPc
  /-- Before its first write. -/
  | created
  /-- In the sleep before `get_devid`, or in `get_devid`, for the first, second or third time. -/
  | attempt (n : Fin 3)
  /-- Behind the last cancellation point of a `get_devid` that returned this id. -/
  | answered (deviceId : ℕ)
  /-- `device_id` is written, `update_usb_stat` is next. -/
  | stored
  | ended
  deriving DecidableEq

/-- An `establish_usb_thread`. -/
structure EstablishThread where
  idx : UsbIdx
  pc : EstablishPc := .created
  /-- A `pthread_cancel` is pending. -/
  cancelled : Bool := false
  deriving DecidableEq

/-- `IN_CREATE` and `IN_DELETE`. -/
inductive InotifyEvent
  | create
  | delete
  deriving DecidableEq

/-- The variables of `connwatcher.c` and the threads it has started. -/
structure UsbState where
  usbConnStatus : UsbIdx → UsbConnStatus
  numUsbConnections : ℕ
  /-- `usb_conn_thread_id`; `none` is the cleared value. -/
  usbConnThreadId : UsbIdx → Option ℕ
  threads : ℕ → Option EstablishThread
  nextThread : ℕ
  /-- The last event of a port. -/
  lastEvent : UsbIdx → Option InotifyEvent

namespace UsbState

/-- After `init_usb_status`. -/
def start : UsbState where
  usbConnStatus := fun _ => {}
  numUsbConnections := 0
  usbConnThreadId := fun _ => none
  threads := fun _ => none
  nextThread := 1
  lastEvent := fun _ => none

/-- `is_usb_connected` -/
def isUsbConnected (s : UsbState) (idx : ℕ) : Bool :=
  if h : idx < maxUsbConnections then
    0 < s.numUsbConnections && (s.usbConnStatus ⟨idx, h⟩).isConnected &&
      (s.usbConnStatus ⟨idx, h⟩).deviceId != 0
  else false

/-- Write a port's entry. -/
def setUsb (s : UsbState) (i : UsbIdx) (u : UsbConnStatus) : UsbState :=
  { s with usbConnStatus := Function.update s.usbConnStatus i u }

/-- Move a thread. -/
def setThread (s : UsbState) (t : ℕ) (th : EstablishThread) : UsbState :=
  { s with threads := Function.update s.threads t (some th) }

/-- `update_usb_stat` -/
def updateUsbStat (s : UsbState) (i : UsbIdx) (connected : Bool) (now : ℤ) : UsbState :=
  if connected then
    if (s.usbConnStatus i).isConnected then s
    else
      { s.setUsb i { s.usbConnStatus i with isConnected := true, ts := now } with
        numUsbConnections := s.numUsbConnections + 1 }
  else if (s.usbConnStatus i).isConnected then
    { s.setUsb i { isAttached := false, isConnected := false, deviceId := 0, ts := 0 } with
      numUsbConnections := s.numUsbConnections - 1 }
  else if (s.usbConnStatus i).isAttached then
    s.setUsb i { s.usbConnStatus i with isAttached := false }
  else s

/-- `IN_CREATE`, or a device file that is there from the start. -/
def created (s : UsbState) (i : UsbIdx) : UsbState :=
  { s with
    threads := Function.update s.threads s.nextThread (some { idx := i })
    usbConnThreadId := Function.update s.usbConnThreadId i (some s.nextThread)
    nextThread := s.nextThread + 1
    lastEvent := Function.update s.lastEvent i (some .create) }

/-- `pthread_cancel`; a thread that has ended, or the cleared id, is not cancelled. -/
def cancelThread (s : UsbState) (thread : Option ℕ) : UsbState :=
  match thread with
  | none => s
  | some t =>
      match s.threads t with
      | none => s
      | some th => s.setThread t { th with cancelled := true }

/-- `IN_DELETE` -/
def deleted (s : UsbState) (i : UsbIdx) : UsbState :=
  let s₁ :=
    if (s.usbConnStatus i).isAttached && !(s.usbConnStatus i).isConnected then
      { s.cancelThread (s.usbConnThreadId i) with
        usbConnThreadId := Function.update s.usbConnThreadId i none }
    else s
  let s₂ := s₁.updateUsbStat i false 0
  { s₂ with lastEvent := Function.update s₂.lastEvent i (some .delete) }

end UsbState

/-- The steps of the watcher and of the threads it has started. -/
inductive UsbAction
  | create (i : UsbIdx)
  | delete (i : UsbIdx)
  /-- The thread's first write, `is_attached`. -/
  | attach (t : ℕ)
  /-- `get_devid` fails. -/
  | noAnswer (t : ℕ)
  /-- `get_devid` succeeds with a device id. -/
  | answer (t : ℕ) (deviceId : ℕ)
  /-- A pending cancellation takes effect. -/
  | die (t : ℕ)
  /-- The thread writes `device_id`. -/
  | store (t : ℕ)
  /-- The thread calls `update_usb_stat(idx, TRUE)`, and ends. -/
  | report (t : ℕ) (now : ℤ)
  deriving DecidableEq

/-- What a thread does in a step of its own. -/
def UsbState.threadStep (s : UsbState) (t : ℕ) (th : EstablishThread) :
    UsbAction → Option UsbState
  | .attach _ =>
      match th.pc with
      | .created =>
          some ((s.setUsb th.idx { s.usbConnStatus th.idx with isAttached := true }).setThread t
            { th with pc := .attempt 0 })
      | _ => none
  | .noAnswer _ =>
      match th.pc, th.cancelled with
      | .attempt 0, false => some (s.setThread t { th with pc := .attempt 1 })
      | .attempt 1, false => some (s.setThread t { th with pc := .attempt 2 })
      | .attempt 2, false => some (s.setThread t { th with pc := .ended })
      | _, _ => none
  | .answer _ deviceId =>
      match th.pc, th.cancelled with
      | .attempt _, false => some (s.setThread t { th with pc := .answered deviceId })
      | _, _ => none
  | .die _ =>
      match th.pc, th.cancelled with
      | .attempt _, true => some (s.setThread t { th with pc := .ended })
      | _, _ => none
  | .store _ =>
      match th.pc with
      | .answered deviceId =>
          some ((s.setUsb th.idx { s.usbConnStatus th.idx with deviceId := deviceId }).setThread t
            { th with pc := .stored })
      | _ => none
  | .report _ now =>
      match th.pc with
      | .stored => some ((s.updateUsbStat th.idx true now).setThread t { th with pc := .ended })
      | _ => none
  | _ => none

/-- One step. -/
def UsbState.step (s : UsbState) : UsbAction → Option UsbState
  | .create i => some (s.created i)
  | .delete i => some (s.deleted i)
  | .attach t => (s.threads t).bind fun th => s.threadStep t th (.attach t)
  | .noAnswer t => (s.threads t).bind fun th => s.threadStep t th (.noAnswer t)
  | .answer t deviceId => (s.threads t).bind fun th => s.threadStep t th (.answer t deviceId)
  | .die t => (s.threads t).bind fun th => s.threadStep t th (.die t)
  | .store t => (s.threads t).bind fun th => s.threadStep t th (.store t)
  | .report t now => (s.threads t).bind fun th => s.threadStep t th (.report t now)

end G7
