import G7Ctrl.Clients.Table
import G7Ctrl.Nicks.Registry

/-!
# Choosing the device a command goes to

A command client chooses its target by the number of a tracker connection, by a nickname, or resets
it to USB.  The choice is kept in three fields of its entry — socket, device id and slot index — and
`send_rawcmd_reply` decides from the socket and the slot index which way a command goes.

The setter by nickname leaves the slot index alone.  **`target_respected_iff`** says exactly when a
command goes where it was directed; `nickname_sent_to_usb` is a client whose command goes to the USB
device although the nickname was accepted.
-/

namespace G7

variable {maxClients : ℕ}

/-- The result of a setter: its return code, the table afterwards, and the text for the user. -/
structure TargetResult (maxClients : ℕ) where
  rc : ℤ
  list : ClientInfoList maxClients
  msg : CStr

/-- `set_gprs_device_target_by_index`, called by the client at slot `me`. -/
def setGprsDeviceTargetByIndex (list : ClientInfoList maxClients) (me : Fin maxClients)
    (clientNbr : ℤ) : TargetResult maxClients :=
  if clientNbr = -1 then
    ⟨0, Function.update list me
        { list me with targetSocket := -1, targetDeviceid := 0, targetCliIdx := -1 },
      str "Target reset to USB."⟩
  else
    match deviceNbrSlot list clientNbr with
    | none =>
        ⟨-1, list, str "[ERR] Device number " ++ decInt clientNbr ++ str " does not exist."⟩
    | some idx =>
        ⟨0, Function.update list me
            { list me with
              targetSocket := (list idx).cliSocket
              targetDeviceid := (list idx).cliDevid
              targetCliIdx := idx },
          str "Target set to client " ++ decInt clientNbr ++
            if (list idx).cliDevid = 0 then str ". Device ID not yet known."
            else str ". Device id: [" ++ dec (list idx).cliDevid ++ str "]"⟩

/-- What `db_get_devid_from_nick` finds in a table of nicks; none when it does not return 0. -/
def NickTable.devidFromNick (t : NickTable) (nick : CStr) : Option CStr :=
  if (t.dbGetDevidFromNick nick).1 = 0 then some (t.dbGetDevidFromNick nick).2 else none

/-- `set_gprs_device_target_by_nickname`; `devidFromNick` is what `db_get_devid_from_nick` finds. -/
def setGprsDeviceTargetByNickname (devidFromNick : CStr → Option CStr)
    (list : ClientInfoList maxClients) (me : Fin maxClients) (nickname : CStr) :
    TargetResult maxClients :=
  match devidFromNick nickname with
  | none => ⟨-1, list, str "[ERR] Nick name \"" ++ nickname ++ str "\" does not exist"⟩
  | some devid =>
      let di := toUnsigned32 (xatol devid)
      match devidSlot list di with
      | none =>
          ⟨-1, list, str "[ERR] Device with nick " ++ nickname ++ str " (ID=" ++ devid ++
            str ") is not yet connected"⟩
      | some idx =>
          ⟨0, Function.update list me
              { list me with targetSocket := (list idx).cliSocket, targetDeviceid := di },
            str "Target set to tracker with device id: " ++ dec di ++ str " (" ++ nickname ++
              str ")"⟩

/-- Where a command goes. -/
inductive Dispatch
  /-- It is written to a socket. -/
  | gprs (socket : ℤ)
  /-- The target is gone; it is reset to USB and the command is not sent. -/
  | disconnected
  | usb (idx : ℤ)
  | noDevice
  deriving DecidableEq

/-- `send_rawcmd_reply` by the client at slot `me`, up to the point where the command is sent. -/
def sendRawcmdReply (list : ClientInfoList maxClients) (me : Fin maxClients) : Dispatch :=
  if (list me).targetSocket > 0 ∧ (list me).targetCliIdx ≥ 0 then
    if isConnected list (list me).targetDeviceid (list me).targetSocket then
      .gprs (list me).targetSocket
    else .disconnected
  else if (list me).targetUsbIdx ≥ 0 then .usb (list me).targetUsbIdx
  else .noDevice

/-! ## From the choice to the dispatch -/

/-- The ways of choosing a target. -/
inductive TargetChoice
  | index (k : ℕ)
  | nickname (nick : CStr)
  | usb

/-- The setter that is called. -/
def TargetChoice.set (devidFromNick : CStr → Option CStr) (list : ClientInfoList maxClients)
    (me : Fin maxClients) : TargetChoice → TargetResult maxClients
  | .index k => setGprsDeviceTargetByIndex list me k
  | .nickname nick => setGprsDeviceTargetByNickname devidFromNick list me nick
  | .usb => setGprsDeviceTargetByIndex list me (-1)

/-- The slot of the chosen device; none for USB. -/
def TargetChoice.slot (devidFromNick : CStr → Option CStr) (list : ClientInfoList maxClients) :
    TargetChoice → Option (Fin maxClients)
  | .index k => deviceNbrSlot list k
  | .nickname nick =>
      (devidFromNick nick).bind fun devid => devidSlot list (toUnsigned32 (xatol devid))
  | .usb => none

/-- Between the choice and the command the client does not choose again and the chosen device stays
connected; it may register its id in that time.  Everything else may change. -/
structure StaysConnected (list later : ClientInfoList maxClients) (me : Fin maxClients)
    (slot : Option (Fin maxClients)) : Prop where
  targetSocket_eq : (later me).targetSocket = (list me).targetSocket
  targetDeviceid_eq : (later me).targetDeviceid = (list me).targetDeviceid
  targetCliIdx_eq : (later me).targetCliIdx = (list me).targetCliIdx
  targetUsbIdx_eq : (later me).targetUsbIdx = (list me).targetUsbIdx
  device : ∀ idx ∈ slot, (later idx).cliThread = (list idx).cliThread ∧
    (later idx).cliSocket = (list idx).cliSocket ∧
    (later idx).cliIsCmdconn = (list idx).cliIsCmdconn ∧
    ((later idx).cliDevid = (list idx).cliDevid ∨ (list idx).cliDevid = 0)

/-- The command goes to the chosen device. -/
def TargetRespected (later : ClientInfoList maxClients) (me : Fin maxClients) :
    Option (Fin maxClients) → Prop
  | some idx => sendRawcmdReply later me = .gprs (later idx).cliSocket
  | none => ∃ u, sendRawcmdReply later me = .usb u

/-- The remembered socket is one `send_rawcmd_reply` takes for a socket, and the remembered pair of
device id and socket is still in the table. -/
def TargetFindable (list later : ClientInfoList maxClients) (idx : Fin maxClients) : Prop :=
  0 < (list idx).cliSocket ∧
    isConnected later (list idx).cliDevid (list idx).cliSocket = true

/-- When a command goes where it was directed. -/
def TargetCondition (list later : ClientInfoList maxClients) (me : Fin maxClients)
    (slot : Option (Fin maxClients)) : TargetChoice → Prop
  | .index _ => ∀ idx ∈ slot, TargetFindable list later idx
  | .nickname _ => 0 ≤ (list me).targetCliIdx ∧ ∀ idx ∈ slot, TargetFindable list later idx
  | .usb => 0 ≤ (list me).targetUsbIdx

variable {devidFromNick : CStr → Option CStr} {list later : ClientInfoList maxClients}
variable {me : Fin maxClients}

/-- When a command goes out over a socket. -/
lemma sendRawcmdReply_eq_gprs_iff {socket : ℤ} :
    sendRawcmdReply list me = .gprs socket ↔
      0 < (list me).targetSocket ∧ 0 ≤ (list me).targetCliIdx ∧
        isConnected list (list me).targetDeviceid (list me).targetSocket = true ∧
        (list me).targetSocket = socket := by
  simp only [sendRawcmdReply]
  split_ifs with hgprs hconn husb
  · simp [hconn, hgprs.1, hgprs.2]
  · simp [hconn]
  · simp only [false_iff]
    exact fun h => hgprs ⟨h.1, h.2.1⟩
  · simp only [false_iff]
    exact fun h => hgprs ⟨h.1, h.2.1⟩

/-- A choice by number that succeeds has found a slot, and records it in all three fields. -/
lemma setGprsDeviceTargetByIndex_ok {k : ℕ}
    (hrc : (setGprsDeviceTargetByIndex list me k).rc = 0) :
    ∃ idx, deviceNbrSlot list k = some idx ∧
      (setGprsDeviceTargetByIndex list me k).list = Function.update list me
        { list me with
          targetSocket := (list idx).cliSocket
          targetDeviceid := (list idx).cliDevid
          targetCliIdx := idx } := by
  have hk : ¬ (k : ℤ) = -1 := by omega
  simp only [setGprsDeviceTargetByIndex, if_neg hk] at hrc ⊢
  split at hrc
  · simp at hrc
  · rename_i idx hidx
    exact ⟨idx, hidx, by simp⟩

/-- A choice by nickname that succeeds has found a slot, and records it in two of the fields. -/
lemma setGprsDeviceTargetByNickname_ok {nick : CStr}
    (hrc : (setGprsDeviceTargetByNickname devidFromNick list me nick).rc = 0) :
    ∃ idx, TargetChoice.slot devidFromNick list (.nickname nick) = some idx ∧
      (setGprsDeviceTargetByNickname devidFromNick list me nick).list = Function.update list me
        { list me with
          targetSocket := (list idx).cliSocket, targetDeviceid := (list idx).cliDevid } := by
  simp only [setGprsDeviceTargetByNickname, TargetChoice.slot] at hrc ⊢
  split at hrc
  · simp at hrc
  · rename_i devid hdevid
    split at hrc
    · simp at hrc
    · rename_i idx hidx
      have hdi : (list idx).cliDevid = toUnsigned32 (xatol devid) := by
        simpa using (Fin.find?_eq_some_iff.mp hidx).1
      exact ⟨idx, by simp [hdevid, hidx], by simp [hdi]⟩

/-- The entry of the client after a choice, and the socket of the chosen slot, as they are found
when the command is sent. -/
lemma StaysConnected.of_update {e : ClientInfo} {idx : Fin maxClients}
    (hstay : StaysConnected (Function.update list me e) later me (some idx))
    (hsocket : e.cliSocket = (list me).cliSocket) :
    (later me).targetSocket = e.targetSocket ∧ (later me).targetDeviceid = e.targetDeviceid ∧
      (later me).targetCliIdx = e.targetCliIdx ∧
      (later idx).cliSocket = (list idx).cliSocket := by
  refine ⟨by simpa using hstay.targetSocket_eq, by simpa using hstay.targetDeviceid_eq,
    by simpa using hstay.targetCliIdx_eq, ?_⟩
  rw [(hstay.device idx rfl).2.1]
  by_cases hidx : idx = me
  · subst hidx
    simpa using hsocket
  · rw [Function.update_of_ne hidx]

/-- **When a command goes where it was directed.**  After a number of a tracker: when its socket is
one the dispatcher accepts and the remembered device id and socket are still in the table.  After a
nickname: when, besides, the client's slot index was set by an earlier choice.  After a reset to
USB: when the client has a USB port. -/
theorem target_respected_iff {choice : TargetChoice}
    (hrc : (choice.set devidFromNick list me).rc = 0)
    (hstay : StaysConnected (choice.set devidFromNick list me).list later me
      (choice.slot devidFromNick list)) :
    TargetRespected later me (choice.slot devidFromNick list) ↔
      TargetCondition list later me (choice.slot devidFromNick list) choice := by
  cases choice with
  | index k =>
      obtain ⟨idx, hslot, hlist⟩ := setGprsDeviceTargetByIndex_ok hrc
      simp only [TargetChoice.set, TargetChoice.slot, hslot, hlist] at hstay ⊢
      obtain ⟨hsock, hdevid, hidx, hdev⟩ := hstay.of_update rfl
      simp only [TargetRespected, TargetCondition, sendRawcmdReply_eq_gprs_iff, hsock, hdevid, hidx,
        hdev, TargetFindable, Option.mem_def, Option.some.injEq, forall_eq', and_true]
      constructor
      · exact fun h => ⟨h.1, h.2.2⟩
      · exact fun h => ⟨h.1, by omega, h.2⟩
  | nickname nick =>
      obtain ⟨idx, hslot, hlist⟩ := setGprsDeviceTargetByNickname_ok hrc
      simp only [TargetChoice.set, hlist] at hstay
      rw [hslot] at hstay ⊢
      obtain ⟨hsock, hdevid, hidx, hdev⟩ := hstay.of_update rfl
      simp only [TargetRespected, TargetCondition, sendRawcmdReply_eq_gprs_iff, hsock, hdevid, hidx,
        hdev, TargetFindable, Option.mem_def, Option.some.injEq, forall_eq', and_true]
      constructor
      · exact fun h => ⟨h.2.1, h.1, h.2.2⟩
      · exact fun h => ⟨h.2.1, h.1, h.2.2⟩
  | usb =>
      have hsock : (later me).targetSocket = -1 := by
        simpa [TargetChoice.set, setGprsDeviceTargetByIndex] using hstay.targetSocket_eq
      have husb : (later me).targetUsbIdx = (list me).targetUsbIdx := by
        simpa [TargetChoice.set, setGprsDeviceTargetByIndex] using hstay.targetUsbIdx_eq
      simp only [TargetRespected, TargetCondition, TargetChoice.slot, sendRawcmdReply, hsock, husb]
      rw [if_neg (by omega)]
      split_ifs with h
      · simp [h]
      · simpa using h

/-! ## A command client and a tracker -/

/-- A command client that has just connected, at slot 0, and a registered tracker, at slot 1. -/
def clientAndTracker : ClientInfoList 2
  | 0 => .connected 100 7 (str "10.0.0.1") 1 true
  | 1 => { ClientInfo.connected 90 8 (str "10.0.0.2") 2 false with cliDevid := 300000001 }

/-- The tracker has a nickname.  Its id has nine digits, as many as `db_get_devid_from_nick`
copies. -/
def carNicks : NickTable :=
  [{ nick := str "car", devid := 300000001, imei := 358696043000001, sim := str "0700000001"
     phone := str "0700000002", fwver := str "2.09rev14", regdate := str "2014-01-01 00:00:00"
     upddate := str "2014-01-01 00:00:00" }]

/-- **A nickname is accepted and the command goes to the USB device.** -/
theorem nickname_sent_to_usb :
    let choice := TargetChoice.nickname (str "car")
    let result := choice.set carNicks.devidFromNick clientAndTracker 0
    let slot := choice.slot carNicks.devidFromNick clientAndTracker
    result.rc = 0 ∧ StaysConnected result.list result.list 0 slot ∧
      ¬ TargetRespected result.list 0 slot := by
  intro choice result slot
  refine ⟨by decide, ⟨rfl, rfl, rfl, rfl, fun _ _ => ⟨rfl, rfl, rfl, .inl rfl⟩⟩, ?_⟩
  have hslot : slot = some 1 := by decide
  rw [hslot]
  simp only [TargetRespected]
  decide

/-- The same tracker chosen by its number: the condition holds, and so the command goes to it. -/
theorem target_respected_index :
    let choice := TargetChoice.index 1
    let result := choice.set carNicks.devidFromNick clientAndTracker 0
    result.rc = 0 ∧ sendRawcmdReply result.list 0 = .gprs 8 := by
  intro choice result
  have hslot : choice.slot carNicks.devidFromNick clientAndTracker = some 1 := by decide
  have hiff : TargetRespected result.list 0 (choice.slot carNicks.devidFromNick clientAndTracker) ↔
      TargetCondition clientAndTracker result.list 0
        (choice.slot carNicks.devidFromNick clientAndTracker) choice :=
    target_respected_iff (by decide)
      ⟨rfl, rfl, rfl, rfl, fun _ _ => ⟨rfl, rfl, rfl, .inl rfl⟩⟩
  rw [hslot] at hiff
  refine ⟨by decide, hiff.mpr fun idx hidx => ?_⟩
  cases hidx
  exact ⟨by decide, by decide⟩

end G7
