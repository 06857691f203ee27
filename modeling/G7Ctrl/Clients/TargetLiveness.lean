import G7Ctrl.Clients.ServerTable

/-!
# Who receives a command

A command client remembers its target as a socket number and a device id.  Before each command it
searches the table for a slot with both, and then writes to the socket.  Neither the search nor the
write holds the mutex, and a socket number is given out again as soon as it is closed, so the search
can be satisfied by a slot whose socket is already closed, by another connection that has not
registered a device id, or by one that closes its socket before the write.

`SendOrderly` excludes exactly these steps.  **`commands_well_directed`**: in every run whose steps
are all orderly, every command is written to a tracker connection of the device that was targeted,
and a client whose target is not found has it reset.  `reusedSocket_gets_command` is a run in which
a command goes to another command client.
-/

namespace G7

variable {maxClients : ℕ} {s s' : Server maxClients} {a : ServerAction}

/-- Connection `h` is a tracker connection of the targeted device; as long as the device id is not
known, it must be the very connection that was chosen. -/
def IsTarget (s : Server maxClients) (targetDeviceid : ℕ) (chosen : Option ℕ) (h : ℕ) : Prop :=
  (s.conn h).isCmd = false ∧
    if targetDeviceid = 0 then chosen = some h else (s.conn h).regId = targetDeviceid

/-- **Commands are well directed.** -/
structure CommandsWellDirected (s : Server maxClients) : Prop where
  /-- Every command was written to a connection of the targeted device. -/
  written : ∀ w ∈ s.writes, ∃ h, w.receiver = some h ∧ IsTarget s w.targetDeviceid w.chosen h
  /-- A client whose target was not found has it reset to USB. -/
  refused : ∀ t me, (s.conn t).pc = .refused → (s.conn t).slot = some me →
    (s.list me).targetSocket = -1 ∧ (s.list me).targetDeviceid = 0 ∧ (s.list me).targetCliIdx = -1

/-- Slot `i` satisfies the search of the client in slot `me`. -/
def FitsTarget (s : Server maxClients) (me i : Fin maxClients) : Prop :=
  (s.list i).cliDevid = (s.list me).targetDeviceid ∧
    (s.list i).cliSocket = (s.list me).targetSocket

/-- The step is not one of those by which a command goes astray: a search stops only at the slot of
a tracker connection whose socket is open, and, while the device id is not known, of the connection
that was chosen; and a connection does not close its socket between a search that stopped at its
slot and the write. -/
def SendOrderly (s : Server maxClients) : ServerAction → Prop
  | .check t =>
      ∀ me k (hk : k < maxClients), (s.conn t).slot = some me → (s.conn t).pc = .checking k →
        FitsTarget s me ⟨k, hk⟩ →
          ∃ h, s.holder ⟨k, hk⟩ = some h ∧ (s.conn h).pc.isOpen = true ∧
            (s.conn h).isCmd = false ∧
            ((s.list me).targetDeviceid = 0 → (s.conn t).chosen = some h)
  | .close t =>
      ∀ i, (s.conn t).slot = some i → ∀ c, c < s.nextConn → (s.conn c).pc ≠ .found i
  | _ => True

/-- The socket client `t` is about to write to belongs to the targeted device. -/
def TargetHeld (s : Server maxClients) (t : ℕ) (me i : Fin maxClients) : Prop :=
  ∃ h, (s.conn h).slot = some i ∧ (s.conn h).pc.isOpen = true ∧
    (s.conn h).fd = (s.list me).targetSocket ∧
    IsTarget s (s.list me).targetDeviceid (s.conn t).chosen h

/-- The invariant behind `CommandsWellDirected`. -/
structure SendOk (s : Server maxClients) : Prop where
  scanning : ∀ t devid k, (s.conn t).pc = .scanning devid k →
    (s.conn t).regId = 0 ∧ (s.conn t).isCmd = false
  found : ∀ t me i, (s.conn t).pc = .found i → (s.conn t).slot = some me → TargetHeld s t me i
  refused : ∀ t me, (s.conn t).pc = .refused → (s.conn t).slot = some me →
    (s.list me).targetSocket = -1 ∧ (s.list me).targetDeviceid = 0 ∧ (s.list me).targetCliIdx = -1
  written : ∀ w ∈ s.writes, ∃ h, h < s.nextConn ∧ w.receiver = some h ∧
    IsTarget s w.targetDeviceid w.chosen h

/-- What the step of connection `t` leaves as it was. -/
structure SendFrame (s s' : Server maxClients) (t : ℕ) : Prop where
  /-- Another connection is at most cancelled. -/
  other : ∀ c, c ≠ t → s'.conn c = { s.conn c with cancelled := (s'.conn c).cancelled }
  entry_eq : ∀ c i, c ≠ t → (s.conn c).slot = some i → s'.list i = s.list i
  isCmd_eq : t < s.nextConn → (s'.conn t).isCmd = (s.conn t).isCmd
  regId_eq : t < s.nextConn → (s.conn t).regId ≠ 0 → (s'.conn t).regId = (s.conn t).regId
  /-- A connection that a client is about to write to keeps its slot and its socket. -/
  held : ∀ c i, (s.conn c).pc = .found i → (s.conn t).slot = some i →
    (s.conn t).pc.isOpen = true → (s'.conn t).slot = some i ∧ (s'.conn t).pc.isOpen = true ∧
      (s'.conn t).fd = (s.conn t).fd
  nextConn_le : s.nextConn ≤ s'.nextConn

/-- What connection `t` itself has to be after its step. -/
structure SendOwn (s s' : Server maxClients) (t : ℕ) : Prop where
  scanning : ∀ devid k, (s'.conn t).pc = .scanning devid k →
    (s'.conn t).regId = 0 ∧ (s'.conn t).isCmd = false
  found : ∀ me i, (s'.conn t).pc = .found i → (s'.conn t).slot = some me → TargetHeld s' t me i
  refused : ∀ me, (s'.conn t).pc = .refused → (s'.conn t).slot = some me →
    (s'.list me).targetSocket = -1 ∧ (s'.list me).targetDeviceid = 0 ∧
      (s'.list me).targetCliIdx = -1
  written : ∀ w ∈ s'.writes, w ∈ s.writes ∨
    ∃ h, h < s'.nextConn ∧ w.receiver = some h ∧ IsTarget s' w.targetDeviceid w.chosen h

lemma IsTarget.frame {t h devid : ℕ} {chosen : Option ℕ} (hf : SendFrame s s' t)
    (hlt : h < s.nextConn) (hh : IsTarget s devid chosen h) : IsTarget s' devid chosen h := by
  obtain ⟨hcmd, hid⟩ := hh
  by_cases ht : h = t
  · subst ht
    refine ⟨(hf.isCmd_eq hlt).trans hcmd, ?_⟩
    split_ifs at hid ⊢ with h0
    · exact hid
    · rw [hf.regId_eq hlt (by rw [hid]; exact h0), hid]
  · rw [IsTarget, hf.other h ht]
    exact ⟨hcmd, hid⟩

/-- A connection that has a slot or an open socket has been accepted. -/
lemma ServerOk.lt_nextConn (h : ServerOk s) {t : ℕ} {i : Fin maxClients}
    (hslot : (s.conn t).slot = some i) : t < s.nextConn := by
  by_contra hge
  have hnone := (h.fresh t (by omega)).2
  rw [hslot] at hnone
  contradiction

/-- **The invariant survives a step that frames the others and is right for its own connection.** -/
lemma SendOk.frame {t : ℕ} (h : SendOk s) (hok : ServerOk s) (hf : SendFrame s s' t)
    (hown : SendOwn s s' t) : SendOk s' := by
  constructor
  case scanning =>
      intro c devid k hpc
      by_cases hc : c = t
      · subst hc
        exact hown.scanning devid k hpc
      · rw [hf.other c hc] at hpc ⊢
        exact h.scanning c devid k hpc
  case found =>
      intro c me i hpc hslot
      by_cases hc : c = t
      · subst hc
        exact hown.found me i hpc hslot
      · rw [hf.other c hc] at hpc hslot
        obtain ⟨g, hg, hopen, hfd, htarget⟩ := h.found c me i hpc hslot
        have hkept : (s'.conn g).slot = some i ∧ (s'.conn g).pc.isOpen = true ∧
            (s'.conn g).fd = (s.conn g).fd := by
          by_cases hgt : g = t
          · subst hgt
            exact hf.held c i hpc hg hopen
          · rw [hf.other g hgt]
            exact ⟨hg, hopen, rfl⟩
        refine ⟨g, hkept.1, hkept.2.1, ?_, ?_⟩
        · rw [hkept.2.2, hf.entry_eq c me hc hslot, hfd]
        · rw [hf.entry_eq c me hc hslot, hf.other c hc]
          exact htarget.frame hf (hok.lt_nextConn hg)
  case refused =>
      intro c me hpc hslot
      by_cases hc : c = t
      · subst hc
        exact hown.refused me hpc hslot
      · rw [hf.other c hc] at hpc hslot
        rw [hf.entry_eq c me hc hslot]
        exact h.refused c me hpc hslot
  case written =>
      intro w hw
      rcases hown.written w hw with hw | hw
      · obtain ⟨g, hlt, hrecv, htarget⟩ := h.written w hw
        exact ⟨g, lt_of_lt_of_le hlt hf.nextConn_le, hrecv, htarget.frame hf hlt⟩
      · exact hw

/-! ## The steps -/

/-- Not one of the program points the invariant speaks about. -/
def ConnPc.isPlain : ConnPc maxClients → Bool
  | .scanning _ _ | .found _ | .refused => false
  | _ => true

/-- At a plain program point a connection has nothing to be right about. -/
lemma SendOwn.of_plain {t : ℕ} (hplain : (s'.conn t).pc.isPlain = true)
    (hwrites : s'.writes = s.writes) : SendOwn s s' t where
  scanning devid k hpc := by simp [hpc, ConnPc.isPlain] at hplain
  found me i hpc _ := by simp [hpc, ConnPc.isPlain] at hplain
  refused me hpc _ := by simp [hpc, ConnPc.isPlain] at hplain
  written w hw := .inl (hwrites ▸ hw)

/-- The thread of a connection moves on. -/
lemma SendFrame.setPc {t : ℕ} {pc : ConnPc maxClients}
    (hopen : (s.conn t).pc.isOpen = true → pc.isOpen = true) : SendFrame s (s.setPc t pc) t where
  other c hc := by simp [Server.setPc, hc]
  entry_eq _ _ _ _ := rfl
  isCmd_eq _ := by simp [Server.setPc]
  regId_eq _ _ := by simp [Server.setPc]
  held _ i _ hslot ho := by simp [Server.setPc, hslot, hopen ho]
  nextConn_le := le_rfl

lemma cancelThread_conn (s : Server maxClients) (thread c : ℕ) :
    (s.cancelThread thread).conn c
      = { s.conn c with cancelled := ((s.cancelThread thread).conn c).cancelled } := by
  cases thread with
  | zero => rfl
  | succ t =>
      by_cases hc : c = t
      · subst hc
        simp [Server.cancelThread]
      · simp [Server.cancelThread, hc]

lemma cancelThread_list (s : Server maxClients) (thread : ℕ) :
    (s.cancelThread thread).list = s.list := by
  cases thread <;> rfl

lemma cancelThread_writes (s : Server maxClients) (thread : ℕ) :
    (s.cancelThread thread).writes = s.writes := by
  cases thread <;> rfl

lemma cancelThread_nextConn (s : Server maxClients) (thread : ℕ) :
    (s.cancelThread thread).nextConn = s.nextConn := by
  cases thread <;> rfl

/-- Cancelling a thread disturbs nobody. -/
lemma SendFrame.cancelThread {t : ℕ} (hf : SendFrame s s' t) (thread : ℕ) :
    SendFrame s (s'.cancelThread thread) t where
  other c hc := by
    rw [cancelThread_conn, hf.other c hc]
  entry_eq c i hc hslot := by rw [cancelThread_list, hf.entry_eq c i hc hslot]
  isCmd_eq ht := by rw [cancelThread_conn, hf.isCmd_eq ht]
  regId_eq ht h0 := by rw [cancelThread_conn, hf.regId_eq ht h0]
  held c i hpc hslot ho := by
    rw [cancelThread_conn]
    exact hf.held c i hpc hslot ho
  nextConn_le := by
    rw [cancelThread_nextConn]
    exact hf.nextConn_le

/-- The client in slot `me` changes its own entry. -/
lemma SendFrame.setList {t : ℕ} {me : Fin maxClients} {list : ClientInfoList maxClients}
    (hf : SendFrame s s' t) (hok : ServerOk s) (hslot : (s.conn t).slot = some me)
    (hme : ∀ i, i ≠ me → list i = s.list i) :
    SendFrame s { s' with list := list } t :=
  { hf with
    entry_eq := fun _ i hc hi => hme i fun heq => hc (hok.slot_injective (heq ▸ hi) hslot) }

lemma TargetOnly.eq_of_ne {list list' : ClientInfoList maxClients} {me i : Fin maxClients}
    (h : TargetOnly list list' me) (hi : i ≠ me) : list' i = list i := by
  obtain ⟨e, -, rfl⟩ := h
  exact Function.update_of_ne hi _ _

/-- A client chooses its target. -/
lemma SendFrame.setTarget {t : ℕ} {me : Fin maxClients} {list : ClientInfoList maxClients}
    (hok : ServerOk s) (hslot : (s.conn t).slot = some me) (hlist : TargetOnly s.list list me)
    (slot : Option (Fin maxClients)) : SendFrame s (s.setTarget t list slot) t where
  other c hc := by simp [Server.setTarget, hc]
  entry_eq c i hc hi :=
    hlist.eq_of_ne fun heq => hc (hok.slot_injective (heq ▸ hi) hslot)
  isCmd_eq _ := by simp [Server.setTarget]
  regId_eq _ _ := by simp [Server.setTarget]
  held _ i _ hi ho := by simp [Server.setTarget, hi, ho]
  nextConn_le := le_rfl

/-- A connection registers its device id, which was 0. -/
lemma SendFrame.register {t : ℕ} {me : Fin maxClients} (hok : ServerOk s)
    (hslot : (s.conn t).slot = some me) (hreg : (s.conn t).regId = 0) (devid : ℕ) :
    SendFrame s (s.register t me devid) t where
  other c hc := by simp [Server.register, hc]
  entry_eq c i hc hi := by
    have hne : i ≠ me := fun heq => hc (hok.slot_injective (heq ▸ hi) hslot)
    simp [Server.register, hne]
  isCmd_eq _ := by simp [Server.register]
  regId_eq _ h0 := absurd hreg h0
  held c i _ hi _ := by simp [Server.register, hi, ConnPc.isOpen]
  nextConn_le := le_rfl

/-- A connection closes its socket while nobody is about to write to it. -/
lemma SendFrame.closeSocket {t : ℕ} {me : Fin maxClients} (hok : ServerOk s)
    (hno : ∀ i, (s.conn t).slot = some i → ∀ c, c < s.nextConn → (s.conn c).pc ≠ .found i)
    (popped : Bool) (m : Option ℕ) :
    SendFrame s { s.closeSocket t me popped with socksMutex := m } t where
  other c hc := by simp [Server.closeSocket, Server.setPc, hc]
  entry_eq _ _ _ _ := rfl
  isCmd_eq _ := by simp [Server.closeSocket, Server.setPc]
  regId_eq _ _ := by simp [Server.closeSocket, Server.setPc]
  held c i hfound hi _ := by
    have hlt : c < s.nextConn := by
      by_contra hge
      simp [(hok.fresh c (by omega)).1] at hfound
    exact absurd hfound (hno i hi c hlt)
  nextConn_le := le_rfl

/-- A connection whose socket is closed clears its slot. -/
lemma SendFrame.clearSlot {t : ℕ} {me : Fin maxClients} (hok : ServerOk s)
    (hslot : (s.conn t).slot = some me) (hpc : (s.conn t).pc.isOpen = false) :
    SendFrame s (s.clearSlot t me) t where
  other c hc := by simp [Server.clearSlot, hc]
  entry_eq c i hc hi := by
    have hne : i ≠ me := fun heq => hc (hok.slot_injective (heq ▸ hi) hslot)
    simp [Server.clearSlot, hne]
  isCmd_eq _ := by simp [Server.clearSlot]
  regId_eq _ _ := by simp [Server.clearSlot]
  held c i _ _ hopen := by simp [hpc] at hopen
  nextConn_le := le_rfl

/-- The main thread accepts a connection. -/
lemma SendFrame.accept (hok : ServerOk s) (isCmd : Bool) (ip : CStr) (fd : ℤ) :
    SendFrame s (s.accept isCmd ip fd) s.nextConn where
  other c hc := by simp [Server.accept, hc]
  entry_eq _ _ _ _ := rfl
  isCmd_eq hlt := absurd hlt (lt_irrefl _)
  regId_eq hlt _ := absurd hlt (lt_irrefl _)
  held c i _ hi _ := by simp [(hok.fresh s.nextConn le_rfl).2] at hi
  nextConn_le := Nat.le_succ _

/-- The main thread fills a free slot. -/
lemma SendFrame.fillSlot {ts t : ℕ} {i : Fin maxClients} (hok : ServerOk s)
    (hmain : s.main = some t) (hfree : (s.list i).cliThread = 0) :
    SendFrame s (s.fillSlot ts t i) t where
  other c hc := by simp [Server.fillSlot, hc]
  entry_eq c j _ hj := by
    have hne : j ≠ i := fun heq => hok.used_ne_zero (heq ▸ hj) hfree
    simp [Server.fillSlot, hne]
  isCmd_eq _ := by simp [Server.fillSlot]
  regId_eq _ _ := by simp [Server.fillSlot]
  held c j _ hj _ := by simp [(hok.main t hmain).2.1] at hj
  nextConn_le := le_rfl

/-- The main thread refuses a connection. -/
lemma SendFrame.refuse {t : ℕ} (hok : ServerOk s) (hmain : s.main = some t) :
    SendFrame s (s.refuse t) t where
  other c hc := by simp [Server.refuse, Server.setPc, hc]
  entry_eq _ _ _ _ := rfl
  isCmd_eq _ := by simp [Server.refuse, Server.setPc]
  regId_eq _ _ := by simp [Server.refuse, Server.setPc]
  held c j _ hj _ := by simp [(hok.main t hmain).2.1] at hj
  nextConn_le := le_rfl

/-- Orderly, the slot where a search stops is the target's. -/
lemma TargetHeld.of_fits {t : ℕ} {me i : Fin maxClients} (hok : ServerOk s)
    (hfit : FitsTarget s me i)
    (hord : ∃ h, s.holder i = some h ∧ (s.conn h).pc.isOpen = true ∧ (s.conn h).isCmd = false ∧
      ((s.list me).targetDeviceid = 0 → (s.conn t).chosen = some h)) : TargetHeld s t me i := by
  obtain ⟨g, hg, hopen, hcmd, hchosen⟩ := hord
  have hgslot : (s.conn g).slot = some i := by
    simp only [Server.holder] at hg
    split at hg <;> simp only [Option.some.injEq, reduceCtorEq] at hg
    rename_i g' hg'
    exact hg ▸ hok.used _ _ hg'
  obtain ⟨-, -, hsock, -, hdevid, -⟩ := hok.entry g _ hgslot
  refine ⟨g, hgslot, hopen, hsock.symm.trans hfit.2, hcmd, ?_⟩
  split_ifs with h0
  · exact hchosen h0
  · exact hdevid.symm.trans hfit.1

/-- The thread of a connection moves on. -/
lemma TargetHeld.setPc {t : ℕ} {me i : Fin maxClients} {pc : ConnPc maxClients}
    (h : TargetHeld s t me i) (hopen : (s.conn t).pc.isOpen = true → pc.isOpen = true) :
    TargetHeld (s.setPc t pc) t me i := by
  obtain ⟨g, hslot, ho, hfd, hcmd, hid⟩ := h
  have hchosen : ((s.setPc t pc).conn t).chosen = (s.conn t).chosen := by simp [Server.setPc]
  refine ⟨g, ?_⟩
  rw [IsTarget, hchosen]
  by_cases hg : g = t
  · subst hg
    simp only [Server.setPc, Function.update_self]
    exact ⟨hslot, hopen ho, hfd, hcmd, hid⟩
  · simp only [Server.setPc, Function.update_of_ne hg]
    exact ⟨hslot, ho, hfd, hcmd, hid⟩

namespace SendOk

section

variable (h : SendOk s) (hok : ServerOk s) {t : ℕ} {me : Fin maxClients}
include h hok

/-- A thread goes on to a plain program point. -/
lemma setPc {pc : ConnPc maxClients} (hopen : (s.conn t).pc.isOpen = true → pc.isOpen = true)
    (hplain : pc.isPlain = true) : SendOk (s.setPc t pc) :=
  h.frame hok (.setPc hopen) (.of_plain (by simpa [Server.setPc] using hplain) rfl)

/-- A device that has not registered yet searches the table for its id, and cancels a thread or
none. -/
lemma scanning_setPc (hreg : (s.conn t).regId = 0) (hcmd : (s.conn t).isCmd = false) (devid k : ℕ)
    (thread : ℕ) : SendOk ((s.setPc t (.scanning devid k)).cancelThread thread) := by
  have hf : SendFrame s (s.setPc t (.scanning devid k)) t := .setPc fun _ => rfl
  refine h.frame hok (hf.cancelThread thread) ⟨?_, ?_, ?_, ?_⟩
  · intro _ _ _
    rw [cancelThread_conn]
    simp [Server.setPc, hreg, hcmd]
  · intro me' i hpc'
    rw [cancelThread_conn] at hpc'
    simp [Server.setPc] at hpc'
  · intro me' hpc'
    rw [cancelThread_conn] at hpc'
    simp [Server.setPc] at hpc'
  · intro w hw
    rw [cancelThread_writes] at hw
    exact .inl hw

lemma scanSlot (hreg : (s.conn t).regId = 0) (hcmd : (s.conn t).isCmd = false) (devid : ℕ)
    (k : Fin maxClients) : SendOk (s.scanSlot t me devid k) := by
  simp only [Server.scanSlot]
  split_ifs
  · exact h.scanning_setPc hok hreg hcmd devid (k + 1) _
  · exact h.scanning_setPc hok hreg hcmd devid (k + 1) 0
  · exact h.scanning_setPc hok hreg hcmd devid (k + 1) 0

/-- A search stops at the slot of the target. -/
lemma check_found (hslot : (s.conn t).slot = some me) {i : Fin maxClients}
    (hheld : TargetHeld s t me i) : SendOk (s.setPc t (.found i)) := by
  refine h.frame hok (.setPc fun _ => rfl) ⟨?_, ?_, ?_, fun w hw => .inl hw⟩
  · intro devid k hpc'
    simp [Server.setPc] at hpc'
  · intro me' i' hpc' hslot'
    simp only [Server.setPc, Function.update_self, ConnPc.found.injEq] at hpc' hslot'
    subst hpc'
    obtain rfl : me = me' := by simpa [hslot] using hslot'
    exact hheld.setPc fun _ => rfl
  · intro me' hpc'
    simp [Server.setPc] at hpc'

/-- A search that has found nothing resets the target. -/
lemma check_refused (hslot : (s.conn t).slot = some me) :
    SendOk { s.setPc t .refused with list := (setGprsDeviceTargetByIndex s.list me (-1)).list } := by
  have hf : SendFrame s (s.setPc t .refused) t := .setPc fun _ => rfl
  refine h.frame hok (hf.setList hok hslot fun i hi =>
    (setGprsDeviceTargetByIndex_targetOnly _ _ _).eq_of_ne hi) ⟨?_, ?_, ?_, fun w hw => .inl hw⟩
  · intro devid k hpc'
    simp [Server.setPc] at hpc'
  · intro me' i hpc'
    simp [Server.setPc] at hpc'
  · intro me' _ hslot'
    obtain rfl : me = me' := by simpa [Server.setPc, hslot] using hslot'
    simp [setGprsDeviceTargetByIndex]

/-- **One slot of the search.**  Where it stops, orderly means that the slot is the target's. -/
lemma checkSlot (hslot : (s.conn t).slot = some me) {k : ℕ} (hpc : (s.conn t).pc = .checking k)
    (hord : SendOrderly s (.check t)) : SendOk (s.checkSlot t me k) := by
  rw [Server.checkSlot]
  split_ifs with hk hfit
  · exact h.check_found hok hslot (.of_fits hok hfit (hord me k hk hslot hpc hfit))
  · exact h.setPc hok (fun _ => rfl) rfl
  · exact h.check_refused hok hslot

/-- **The write** goes to the connection that was found. -/
lemma writeCommand {i : Fin maxClients} (hslot : (s.conn t).slot = some me)
    (hpc : (s.conn t).pc = .found i) : SendOk (s.writeCommand t me) := by
  obtain ⟨g, hgslot, hopen, hfd, htarget⟩ := h.found t me i hpc hslot
  have hf : SendFrame s (s.setPc t .running) t := .setPc fun _ => rfl
  have hf' : SendFrame s (s.writeCommand t me) t := { hf with }
  refine h.frame hok hf' ⟨?_, ?_, ?_, ?_⟩
  · intro devid k hpc'
    simp [Server.writeCommand, Server.setPc] at hpc'
  · intro me' j hpc'
    simp [Server.writeCommand, Server.setPc] at hpc'
  · intro me' hpc'
    simp [Server.writeCommand, Server.setPc] at hpc'
  · intro w hw
    rcases List.mem_append.mp hw with hw | hw
    · exact .inl hw
    · obtain rfl := List.mem_singleton.mp hw
      have hlt := hok.lt_nextConn hgslot
      refine .inr ⟨g, hlt, ?_, htarget.frame hf' hlt⟩
      show s.fdOwner (s.list me).targetSocket = some g
      rw [← hfd]
      exact hok.opened g hopen

end

/-- **The step of a connection.** -/
lemma slotStep (h : SendOk s) (hok : ServerOk s) (hord : SendOrderly s a) {t : ℕ}
    {me : Fin maxClients} (ht : a.thread = some t) (hslot : (s.conn t).slot = some me)
    (hstep : s.slotStep t me a = some s') : SendOk s' := by
  cases a with
  | accept | fillSlot | refuse => simp [Server.slotStep] at hstep
  | keepAlive _ devid =>
      simp only [Server.slotStep] at hstep
      split_ifs at hstep with hpc hid <;> simp only [Option.some.injEq] at hstep <;> subst hstep
      · have hreg := (hok.entry t me hslot).2.2.2.2.1
        exact h.scanning_setPc hok (hreg.symm.trans hid) hpc.2 devid 0 0
      · exact h
  | scan _ =>
      simp only [Server.slotStep] at hstep
      split at hstep <;> try contradiction
      rename_i devid k hpc
      obtain ⟨hreg, hcmd⟩ := h.scanning t devid k hpc
      split_ifs at hstep with hk <;> simp only [Option.some.injEq] at hstep <;> subst hstep
      · exact h.scanSlot hok hreg hcmd devid _
      · exact h.frame hok (.register hok hslot hreg devid)
          (.of_plain (by simp [Server.register, ConnPc.isPlain]) rfl)
  | leave _ | send _ | giveUp _ =>
      simp only [Server.slotStep] at hstep
      split_ifs at hstep with hpc
      simp only [Option.some.injEq] at hstep
      subst hstep
      exact h.setPc hok (fun _ => rfl) rfl
  | cancelled _ | die _ =>
      simp only [Server.slotStep] at hstep
      split_ifs at hstep
      split at hstep <;> try contradiction
      all_goals
        rename_i hpc
        simp only [Option.some.injEq] at hstep
        subst hstep
        exact h.setPc hok (by simp [hpc, ConnPc.isOpen]) rfl
  | close t' =>
      obtain rfl : t' = t := by simpa [ServerAction.thread] using ht
      simp only [Server.slotStep] at hstep
      split at hstep <;> try contradiction
      rename_i popped hpc
      have hclose : ∀ m, SendOk { s.closeSocket t' me popped with socksMutex := m } := fun m =>
        h.frame hok (.closeSocket hok hord popped m)
          (.of_plain (by simp [Server.closeSocket, Server.setPc, ConnPc.isPlain]) rfl)
      split_ifs at hstep <;> simp only [Option.some.injEq] at hstep <;> subst hstep
      · exact hclose _
      · exact hclose _
  | clear _ =>
      simp only [Server.slotStep] at hstep
      split at hstep <;> try contradiction
      rename_i popped hpc
      have hclear : SendOk (s.clearSlot t me) :=
        h.frame hok (.clearSlot hok hslot (by rw [hpc]; rfl))
          (.of_plain (by simp [Server.clearSlot, ConnPc.isPlain]) rfl)
      split_ifs at hstep
      all_goals
        simp only [Option.some.injEq] at hstep
        exact hstep ▸ hclear
  | useIndex _ clientNbr =>
      simp only [Server.slotStep] at hstep
      split_ifs at hstep with hpc
      simp only [Option.some.injEq] at hstep
      subst hstep
      exact h.frame hok (.setTarget hok hslot (setGprsDeviceTargetByIndex_targetOnly _ _ _) _)
        (.of_plain (by simp [Server.setTarget, hpc.1, ConnPc.isPlain]) rfl)
  | useNickname _ nick devid =>
      simp only [Server.slotStep] at hstep
      split_ifs at hstep with hpc
      simp only [Option.some.injEq] at hstep
      subst hstep
      exact h.frame hok (.setTarget hok hslot (setGprsDeviceTargetByNickname_targetOnly _ _ _ _) _)
        (.of_plain (by simp [Server.setTarget, hpc.1, ConnPc.isPlain]) rfl)
  | check t' =>
      obtain rfl : t' = t := by simpa [ServerAction.thread] using ht
      simp only [Server.slotStep] at hstep
      split at hstep <;> try contradiction
      rename_i k hpc
      obtain rfl := Option.some.inj hstep
      exact h.checkSlot hok hslot hpc hord
  | write _ =>
      simp only [Server.slotStep] at hstep
      split at hstep <;> try contradiction
      rename_i i hpc
      obtain rfl := Option.some.inj hstep
      exact h.writeCommand hok hslot hpc

lemma start : SendOk (Server.start maxClients) where
  scanning t devid k hpc := by simp [Server.start, Conn.unborn] at hpc
  found t me i hpc _ := by simp [Server.start, Conn.unborn] at hpc
  refused t me hpc _ := by simp [Server.start, Conn.unborn] at hpc
  written w hw := by simp [Server.start] at hw

/-- **Every orderly step keeps the commands well directed.** -/
theorem step (h : SendOk s) (hok : ServerOk s) (hord : SendOrderly s a)
    (hstep : serverStep s a = some s') : SendOk s' := by
  cases a with
  | accept isCmd ip fd =>
      simp only [serverStep] at hstep
      split_ifs at hstep with hg
      simp only [Option.some.injEq] at hstep
      subst hstep
      exact h.frame hok (.accept hok isCmd ip fd)
        (.of_plain (by simp [Server.accept, ConnPc.isPlain]) rfl)
  | fillSlot ts =>
      simp only [serverStep] at hstep
      split_ifs at hstep with hg
      obtain ⟨t, ht, hstep⟩ := Option.bind_eq_some_iff.mp hstep
      obtain ⟨i, hi, rfl⟩ := Option.map_eq_some_iff.mp hstep
      have hzero : (s.list i).cliThread = 0 := by simpa using (Fin.find?_eq_some_iff.mp hi).1
      exact h.frame hok (.fillSlot hok ht hzero)
        (.of_plain (by simp [Server.fillSlot, ConnPc.isPlain]) rfl)
  | refuse =>
      simp only [serverStep] at hstep
      split_ifs at hstep with hg
      obtain ⟨t, ht, rfl⟩ := Option.map_eq_some_iff.mp hstep
      exact h.frame hok (.refuse hok ht)
        (.of_plain (by simp [Server.refuse, Server.setPc, ConnPc.isPlain]) rfl)
  | keepAlive | scan | leave | cancelled | close | clear | die | useIndex | useNickname | send
  | check | write | giveUp =>
      obtain ⟨me, hslot, hs⟩ := Option.bind_eq_some_iff.mp hstep
      exact h.slotStep hok hord rfl hslot hs

end SendOk

/-- **Every command goes to the device it was meant for, in every orderly run.** -/
theorem commands_well_directed
    (h : (serverSystem maxClients).ReachableIf SendOrderly s) : CommandsWellDirected s := by
  have hsend : SendOk s := h.invariant (fun _ hs => hs ▸ .start)
    fun _ _ _ hr hs hord hstep => hs.step (.reachableIf hr) hord hstep
  refine ⟨fun w hw => ?_, hsend.refused⟩
  obtain ⟨g, -, hg⟩ := hsend.written w hw
  exact ⟨g, hg⟩

/-! ## Two runs -/

/-- The slot a search is about to look at. -/
def ConnPc.checkingAt : ConnPc maxClients → Option ℕ
  | .checking k => some k
  | _ => none

instance (s : Server maxClients) (me i : Fin maxClients) : Decidable (FitsTarget s me i) :=
  inferInstanceAs (Decidable (_ ∧ _))

instance (s : Server maxClients) (a : ServerAction) : Decidable (SendOrderly s a) :=
  match a with
  | .check t =>
      decidable_of_iff
        (∀ me ∈ (s.conn t).slot, ∀ k ∈ (s.conn t).pc.checkingAt, ∀ hk : k < maxClients,
          FitsTarget s me ⟨k, hk⟩ →
            ∃ h ∈ s.holder ⟨k, hk⟩, (s.conn h).pc.isOpen = true ∧ (s.conn h).isCmd = false ∧
              ((s.list me).targetDeviceid = 0 → (s.conn t).chosen = some h))
        ⟨fun h me k hk hme hpc hfit => h me hme k (by simp [hpc, ConnPc.checkingAt]) hk hfit,
          fun h me hme k hpc hk hfit => h me k hk hme (by
            cases hp : (s.conn t).pc <;> simp_all [ConnPc.checkingAt]) hfit⟩
  | .close t =>
      inferInstanceAs (Decidable (∀ i ∈ (s.conn t).slot, ∀ c, c < s.nextConn →
        (s.conn c).pc ≠ .found i))
  | .accept .. | .fillSlot _ | .refuse | .keepAlive .. | .scan _ | .leave _ | .cancelled _
  | .clear _ | .die _ | .useIndex .. | .useNickname .. | .send _ | .write _ | .giveUp _ =>
      isTrue trivial

/-- A tracker registers, and a command client chooses it and sends a command. -/
def commandToTracker : List ServerAction :=
  [.accept false (str "10.0.0.2") 7, .fillSlot 100, .keepAlive 0 3000000001,
   .scan 0, .scan 0, .scan 0, .accept true (str "10.0.0.1") 8, .fillSlot 101,
   .useIndex 1 1, .send 1, .check 1, .write 1]

/-- The command was written to the tracker. -/
theorem commands_well_directed_tracker :
    ∃ s, (serverSystem 2).runIf SendOrderly (Server.start 2) commandToTracker = some s ∧
      s.writes = [⟨1, 3000000001, some 0, 7, some 0⟩] ∧ CommandsWellDirected s := by
  have hrun : (serverSystem 2).runIf SendOrderly (Server.start 2) commandToTracker
      = some _ := rfl
  exact ⟨_, hrun, rfl,
    commands_well_directed (StepSystem.reachableIf_runIf (.start rfl) hrun)⟩

/-- A client chooses a tracker that has not registered; the tracker goes, and another command client
connects and is given its slot and its socket number. -/
def commandToReusedSocket : List ServerAction :=
  [.accept false (str "10.0.0.2") 7, .fillSlot 100, .accept true (str "10.0.0.1") 8, .fillSlot 101,
   .useIndex 1 1, .leave 0, .close 0, .clear 0, .accept true (str "10.0.0.3") 7, .fillSlot 102,
   .send 1, .check 1, .write 1]

/-- **The command goes to another command client.** -/
theorem reusedSocket_gets_command :
    ∃ s : Server 2, (serverSystem 2).Reachable s ∧ ¬ CommandsWellDirected s := by
  have hrun : (serverSystem 2).run (Server.start 2) commandToReusedSocket = some _ := rfl
  refine ⟨_, StepSystem.reachable_run rfl hrun, fun h => ?_⟩
  obtain ⟨g, hg, hcmd, -⟩ := h.written ⟨1, 0, some 0, 7, some 2⟩ (List.mem_singleton.mpr rfl)
  obtain rfl : 2 = g := Option.some.inj hg
  exact absurd hcmd (by decide)

end G7
