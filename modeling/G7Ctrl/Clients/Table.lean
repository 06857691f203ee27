import G7Ctrl.Core.Bytes
import Mathlib.Data.Fin.Tuple.Basic

/-!
# The table of connected clients

`client_info_list` has one entry for every connection, of command clients and of trackers alike.  A
slot is in use when its thread id is not 0.  This file has the entry, the entries the server writes
when a connection comes and goes, and the searches that other parts of the server make.
-/

namespace G7

/-- `struct client_info` -/
structure ClientInfo where
  cliTs : ℕ
  cliSocket : ℤ
  cliIpadr : CStr
  cliThread : ℕ
  cliIsCmdconn : Bool
  targetSocket : ℤ
  targetDeviceid : ℕ
  targetCliIdx : ℤ
  targetUsbIdx : ℤ
  useUnicodeTable : Bool
  cliDevid : ℕ
  deriving DecidableEq

/-- The array `client_info_list`, of `max_clients` entries. -/
abbrev ClientInfoList (maxClients : ℕ) := Fin maxClients → ClientInfo

namespace ClientInfo

/-- `memset` to 0: the entries before the first connection. -/
def zero : ClientInfo := ⟨0, 0, [], 0, false, 0, 0, 0, 0, false, 0⟩

/-- What is left of an entry when its connection is gone. -/
def cleared : ClientInfo := { zero with targetCliIdx := -1, targetUsbIdx := -1 }

/-- The entry of a new connection (`startupsrv`). -/
def connected (ts : ℕ) (socket : ℤ) (ipadr : CStr) (thread : ℕ) (isCmdconn : Bool) :
    ClientInfo where
  cliTs := ts
  cliSocket := socket
  cliIpadr := ipadr.take 15
  cliThread := thread
  cliIsCmdconn := isCmdconn
  targetSocket := -1
  targetDeviceid := 0
  targetCliIdx := -1
  targetUsbIdx := 0
  useUnicodeTable := false
  cliDevid := 0

/-- `cli_thread && !cli_is_cmdconn`: the entry of a tracker connection. -/
def isDevice (c : ClientInfo) : Bool := c.cliThread ≠ 0 ∧ c.cliIsCmdconn = false

end ClientInfo

variable {maxClients : ℕ}

/-- The first slot without a thread, where `startupsrv` puts a new connection. -/
def firstFreeSlot (list : ClientInfoList maxClients) : Option (Fin maxClients) :=
  Fin.find? fun i => (list i).cliThread = 0

/-- The loop that counts the tracker connections up to the `clientNbr`-th; `nbr` are already
counted. -/
def deviceNbrLoop (list : ClientInfoList maxClients) (clientNbr : ℤ) :
    ℤ → List (Fin maxClients) → Option (Fin maxClients)
  | _, [] => none
  | nbr, i :: is =>
      if (list i).isDevice then
        if nbr + 1 = clientNbr then some i else deviceNbrLoop list clientNbr (nbr + 1) is
      else deviceNbrLoop list clientNbr nbr is

/-- The slot of the `clientNbr`-th tracker connection. -/
def deviceNbrSlot (list : ClientInfoList maxClients) (clientNbr : ℤ) : Option (Fin maxClients) :=
  deviceNbrLoop list clientNbr 0 (List.finRange maxClients)

/-- The first slot with a device id, whatever else is in it. -/
def devidSlot (list : ClientInfoList maxClients) (devid : ℕ) : Option (Fin maxClients) :=
  Fin.find? fun i => (list i).cliDevid = devid

/-- The test that a target is still connected: some slot has the device id and the socket. -/
def isConnected (list : ClientInfoList maxClients) (devid : ℕ) (socket : ℤ) : Bool :=
  ∃ i, (list i).cliDevid = devid ∧ (list i).cliSocket = socket

end G7
