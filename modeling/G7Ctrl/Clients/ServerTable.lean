import G7Ctrl.Clients.Server

/-!
# The table of clients is in order in every run

`ServerOk` relates the table to the connections: a slot in use belongs to exactly one connection,
whose socket, address and device id it has; a slot that is not in use is empty; an open descriptor
belongs to one connection; and `num_clients` counts the slots in use.

`slotStep_cases` says once what the step of a connection can do to the table.

* **`ServerOk.reachableIf`** — `ServerOk` holds in every run, under any schedule.
* **`table_accounted`** — what that means for the count and for freed slots.
-/

namespace G7

variable {maxClients : ℕ} {s s' : Server maxClients} {a : ServerAction}

/-- The slots in use. -/
def usedSlots (list : ClientInfoList maxClients) : Finset (Fin maxClients) :=
  Finset.univ.filter fun i => (list i).cliThread ≠ 0

lemma mem_usedSlots {list : ClientInfoList maxClients} {i : Fin maxClients} :
    i ∈ usedSlots list ↔ (list i).cliThread ≠ 0 := by
  simp [usedSlots]

/-- Two entries that differ at most in the fields of a command client's target. -/
structure SameClient (e e' : ClientInfo) : Prop where
  cliTs_eq : e'.cliTs = e.cliTs
  cliSocket_eq : e'.cliSocket = e.cliSocket
  cliIpadr_eq : e'.cliIpadr = e.cliIpadr
  cliThread_eq : e'.cliThread = e.cliThread
  cliIsCmdconn_eq : e'.cliIsCmdconn = e.cliIsCmdconn
  cliDevid_eq : e'.cliDevid = e.cliDevid

lemma SameClient.refl (e : ClientInfo) : SameClient e e := ⟨rfl, rfl, rfl, rfl, rfl, rfl⟩

/-- A connection that has at most moved on, with its socket as open as before. -/
structure SameConn (c c' : Conn maxClients) : Prop where
  isCmd_eq : c'.isCmd = c.isCmd
  ip_eq : c'.ip = c.ip
  fd_eq : c'.fd = c.fd
  slot_eq : c'.slot = c.slot
  regId_eq : c'.regId = c.regId
  isOpen_eq : c'.pc.isOpen = c.pc.isOpen
  pc_eq : c.slot = none → c'.pc = c.pc

lemma SameConn.refl (c : Conn maxClients) : SameConn c c :=
  ⟨rfl, rfl, rfl, rfl, rfl, rfl, fun _ => rfl⟩

/-- A step that gives no slot to anyone and takes none. -/
structure KeepsTable (s s' : Server maxClients) : Prop where
  entry : ∀ i, SameClient (s.list i) (s'.list i)
  free : ∀ i, (s.list i).cliThread = 0 → s'.list i = s.list i
  numClients_eq : s'.numClients = s.numClients
  conn : ∀ t, SameConn (s.conn t) (s'.conn t)
  nextConn_eq : s'.nextConn = s.nextConn
  fdOwner_eq : s'.fdOwner = s.fdOwner
  main_eq : s'.main = s.main

lemma KeepsTable.refl (s : Server maxClients) : KeepsTable s s :=
  ⟨fun _ => .refl _, fun _ _ => rfl, rfl, fun _ => .refl _, rfl, rfl, rfl⟩

lemma SameConn.trans {c c' c'' : Conn maxClients} (h : SameConn c c') (h' : SameConn c' c'') :
    SameConn c c'' where
  isCmd_eq := h'.isCmd_eq.trans h.isCmd_eq
  ip_eq := h'.ip_eq.trans h.ip_eq
  fd_eq := h'.fd_eq.trans h.fd_eq
  slot_eq := h'.slot_eq.trans h.slot_eq
  regId_eq := h'.regId_eq.trans h.regId_eq
  isOpen_eq := h'.isOpen_eq.trans h.isOpen_eq
  pc_eq hnone := (h'.pc_eq (h.slot_eq.trans hnone)).trans (h.pc_eq hnone)

/-- One connection changes. -/
lemma sameConn_update {t : ℕ} {c : Conn maxClients} (h : SameConn (s.conn t) c) (t' : ℕ) :
    SameConn (s.conn t') (Function.update s.conn t c t') := by
  by_cases ht : t' = t
  · subst ht
    simpa using h
  · rw [Function.update_of_ne ht]
    exact .refl _

/-- The thread of a connection with a slot moves on, its socket staying as it is. -/
lemma KeepsTable.setPc {t : ℕ} {pc : ConnPc maxClients} (hslot : (s.conn t).slot ≠ none)
    (hopen : pc.isOpen = (s.conn t).pc.isOpen) : KeepsTable s (s.setPc t pc) :=
  { KeepsTable.refl s with
    conn := sameConn_update ⟨rfl, rfl, rfl, rfl, rfl, hopen, fun h => absurd h hslot⟩ }

/-- A thread is cancelled. -/
lemma KeepsTable.cancelThread (h : KeepsTable s s') (thread : ℕ) :
    KeepsTable s (s'.cancelThread thread) := by
  cases thread with
  | zero => exact h
  | succ t =>
      have hcancel : SameConn (s'.conn t) { s'.conn t with cancelled := true } :=
        ⟨rfl, rfl, rfl, rfl, rfl, rfl, fun _ => rfl⟩
      exact { h with conn := fun t' => (h.conn t').trans (sameConn_update hcancel t') }

/-- The table with at most the target fields of slot `me` changed. -/
def TargetOnly (list list' : ClientInfoList maxClients) (me : Fin maxClients) : Prop :=
  ∃ e, SameClient (list me) e ∧ list' = Function.update list me e

lemma TargetOnly.refl (list : ClientInfoList maxClients) (me : Fin maxClients) :
    TargetOnly list list me :=
  ⟨list me, .refl _, (Function.update_eq_self me list).symm⟩

lemma setGprsDeviceTargetByIndex_targetOnly (list : ClientInfoList maxClients)
    (me : Fin maxClients) (clientNbr : ℤ) :
    TargetOnly list (setGprsDeviceTargetByIndex list me clientNbr).list me := by
  simp only [setGprsDeviceTargetByIndex]
  split_ifs
  · refine ⟨_, ?_, rfl⟩
    exact ⟨rfl, rfl, rfl, rfl, rfl, rfl⟩
  · split
    · exact .refl _ _
    · refine ⟨_, ?_, rfl⟩
      exact ⟨rfl, rfl, rfl, rfl, rfl, rfl⟩

lemma setGprsDeviceTargetByNickname_targetOnly (devidFromNick : CStr → Option CStr)
    (list : ClientInfoList maxClients) (me : Fin maxClients) (nick : CStr) :
    TargetOnly list (setGprsDeviceTargetByNickname devidFromNick list me nick).list me := by
  simp only [setGprsDeviceTargetByNickname]
  split
  · exact .refl _ _
  · split
    · exact .refl _ _
    · refine ⟨_, ?_, rfl⟩
      exact ⟨rfl, rfl, rfl, rfl, rfl, rfl⟩

/-- A client in a slot changes its target. -/
lemma KeepsTable.setList {me : Fin maxClients} {list : ClientInfoList maxClients}
    (h : KeepsTable s s') (hused : (s.list me).cliThread ≠ 0) (hlist : TargetOnly s.list list me) :
    KeepsTable s { s' with list := list } := by
  obtain ⟨e, he, rfl⟩ := hlist
  refine { h with entry := fun i => ?_, free := fun i hi => ?_ }
  · by_cases hi : i = me
    · subst hi
      simpa using he
    · simp only [Function.update_of_ne hi]
      exact .refl _
  · have hne : i ≠ me := by
      rintro rfl
      exact hused hi
    simp [hne]

/-- A client chooses its target. -/
lemma KeepsTable.setTarget {t : ℕ} {me : Fin maxClients} {list : ClientInfoList maxClients}
    {slot : Option (Fin maxClients)} (hused : (s.list me).cliThread ≠ 0)
    (hlist : TargetOnly s.list list me) : KeepsTable s (s.setTarget t list slot) := by
  have hconn : KeepsTable s { s with conn := (s.setTarget t list slot).conn } :=
    { KeepsTable.refl s with
      conn := sameConn_update ⟨rfl, rfl, rfl, rfl, rfl, rfl, fun _ => rfl⟩ }
  exact hconn.setList hused hlist

/-- **What the step of a connection can do to the table**: register a device id, close its socket,
clear its slot, or nothing. -/
theorem slotStep_cases {t : ℕ} {me : Fin maxClients} (h : s.slotStep t me a = some s')
    (hslot : (s.conn t).slot = some me) (hused : (s.list me).cliThread ≠ 0) :
    KeepsTable s s' ∨
    (∃ devid k, (s.conn t).pc = .scanning devid k ∧ maxClients ≤ k ∧
      s' = s.register t me devid) ∨
    (∃ popped m, (s.conn t).pc = .leaving popped ∧
      s' = { s.closeSocket t me popped with socksMutex := m }) ∨
    (∃ popped, (s.conn t).pc = .closed popped ∧ s' = s.clearSlot t me) := by
  have hsome : (s.conn t).slot ≠ none := by simp [hslot]
  cases a with
  | accept | fillSlot | refuse => simp [Server.slotStep] at h
  | keepAlive _ devid =>
      simp only [Server.slotStep] at h
      split_ifs at h with hpc hid <;> simp only [Option.some.injEq] at h <;> subst h
      · exact .inl (.setPc hsome (by rw [hpc.1]; rfl))
      · exact .inl (.refl s)
  | scan _ =>
      simp only [Server.slotStep] at h
      split at h <;> try contradiction
      rename_i devid k hpc
      split_ifs at h with hk <;> simp only [Option.some.injEq] at h <;> subst h
      · have hmove : KeepsTable s (s.setPc t (.scanning devid (k + 1))) :=
          .setPc hsome (by rw [hpc]; rfl)
        simp only [Server.scanSlot]
        split_ifs
        · exact .inl (hmove.cancelThread _)
        · exact .inl hmove
        · exact .inl hmove
      · exact .inr (.inl ⟨devid, k, hpc, by omega, rfl⟩)
  | leave _ =>
      simp only [Server.slotStep] at h
      split_ifs at h with hpc
      simp only [Option.some.injEq] at h
      subst h
      exact .inl (.setPc hsome (by rw [hpc]; rfl))
  | cancelled _ =>
      simp only [Server.slotStep] at h
      split_ifs at h
      split at h <;> try contradiction
      all_goals
        rename_i hpc
        simp only [Option.some.injEq] at h
        subst h
        exact .inl (.setPc hsome (by rw [hpc]; rfl))
  | close _ =>
      simp only [Server.slotStep] at h
      split at h <;> try contradiction
      rename_i popped hpc
      split_ifs at h <;> simp only [Option.some.injEq] at h <;> subst h
      · exact .inr (.inr (.inl ⟨popped, some t, hpc, rfl⟩))
      · exact .inr (.inr (.inl ⟨popped, s.socksMutex, hpc, rfl⟩))
  | clear _ =>
      simp only [Server.slotStep] at h
      split at h <;> try contradiction
      rename_i popped hpc
      split_ifs at h
      all_goals
        simp only [Option.some.injEq] at h
        exact .inr (.inr (.inr ⟨popped, hpc, h.symm⟩))
  | die _ =>
      simp only [Server.slotStep] at h
      split_ifs at h
      split at h <;> try contradiction
      all_goals
        rename_i hpc
        simp only [Option.some.injEq] at h
        subst h
        exact .inl (.setPc hsome (by rw [hpc]; rfl))
  | useIndex _ clientNbr =>
      simp only [Server.slotStep] at h
      split_ifs at h
      simp only [Option.some.injEq] at h
      subst h
      exact .inl (.setTarget hused (setGprsDeviceTargetByIndex_targetOnly _ _ _))
  | useNickname _ nick devid =>
      simp only [Server.slotStep] at h
      split_ifs at h
      simp only [Option.some.injEq] at h
      subst h
      exact .inl (.setTarget hused (setGprsDeviceTargetByNickname_targetOnly _ _ _ _))
  | send _ =>
      simp only [Server.slotStep] at h
      split_ifs at h with hpc
      simp only [Option.some.injEq] at h
      subst h
      exact .inl (.setPc hsome (by rw [hpc.1]; rfl))
  | check _ =>
      simp only [Server.slotStep] at h
      split at h <;> try contradiction
      rename_i k hpc
      simp only [Option.some.injEq, Server.checkSlot] at h
      split_ifs at h <;> subst h
      · exact .inl (.setPc hsome (by rw [hpc]; rfl))
      · exact .inl (.setPc hsome (by rw [hpc]; rfl))
      · have hmove : KeepsTable s (s.setPc t .refused) := .setPc hsome (by rw [hpc]; rfl)
        exact .inl (hmove.setList hused (setGprsDeviceTargetByIndex_targetOnly _ _ _))
  | write _ =>
      simp only [Server.slotStep] at h
      split at h <;> try contradiction
      rename_i i hpc
      simp only [Option.some.injEq] at h
      subst h
      have hmove : KeepsTable s (s.setPc t .running) := .setPc hsome (by rw [hpc]; rfl)
      exact .inl { hmove with }
  | giveUp _ =>
      simp only [Server.slotStep] at h
      split_ifs at h with hpc
      simp only [Option.some.injEq] at h
      subst h
      exact .inl (.setPc hsome (by rw [hpc]; rfl))

/-! ## The invariant -/

/-- The table and the connections fit together. -/
structure ServerOk (s : Server maxClients) : Prop where
  count : s.numClients = (usedSlots s.list).card
  /-- A slot in use belongs to the connection whose thread it names. -/
  used : ∀ i t, (s.list i).cliThread = t + 1 → (s.conn t).slot = some i
  /-- A slot has the data of the connection it belongs to. -/
  entry : ∀ t i, (s.conn t).slot = some i →
    (s.list i).cliThread = t + 1 ∧ (s.list i).cliIsCmdconn = (s.conn t).isCmd ∧
    (s.list i).cliSocket = (s.conn t).fd ∧ (s.list i).cliIpadr = (s.conn t).ip.take 15 ∧
    (s.list i).cliDevid = (s.conn t).regId ∧ (s.list i).cliTs ≠ 0
  /-- A slot that is not in use is as `calloc` or the last clean-up left it. -/
  free : ∀ i, (s.list i).cliThread = 0 → s.list i = .zero ∨ s.list i = .cleared
  opened : ∀ t, (s.conn t).pc.isOpen = true → s.fdOwner (s.conn t).fd = some t
  owner : ∀ fd t, s.fdOwner fd = some t → (s.conn t).fd = fd ∧ (s.conn t).pc.isOpen = true
  main : ∀ t, s.main = some t →
    (s.conn t).pc = .accepted ∧ (s.conn t).slot = none ∧ (s.conn t).regId = 0
  fresh : ∀ t, s.nextConn ≤ t → (s.conn t).pc = .unborn ∧ (s.conn t).slot = none

namespace ServerOk

lemma start : ServerOk (Server.start maxClients) where
  count := by simp [Server.start, usedSlots, ClientInfo.zero]
  used i t h := by simp [Server.start, ClientInfo.zero] at h
  entry t i h := by simp [Server.start, Conn.unborn] at h
  free i _ := .inl rfl
  opened t h := by simp [Server.start, Conn.unborn, ConnPc.isOpen] at h
  owner fd t h := by simp [Server.start] at h
  main t h := by simp [Server.start] at h
  fresh t _ := ⟨rfl, rfl⟩

lemma used_ne_zero (h : ServerOk s) {t : ℕ} {i : Fin maxClients}
    (hslot : (s.conn t).slot = some i) : (s.list i).cliThread ≠ 0 := by
  rw [(h.entry t i hslot).1]
  exact Nat.succ_ne_zero t

/-- Two connections never have the same slot. -/
lemma slot_injective (h : ServerOk s) {t t' : ℕ} {i : Fin maxClients}
    (ht : (s.conn t).slot = some i) (ht' : (s.conn t').slot = some i) : t = t' := by
  have h1 := (h.entry t i ht).1
  have h2 := (h.entry t' i ht').1
  omega

/-- Two open connections never have the same descriptor. -/
lemma fd_injective (h : ServerOk s) {t t' : ℕ} (ht : (s.conn t).pc.isOpen = true)
    (ht' : (s.conn t').pc.isOpen = true) (hfd : (s.conn t).fd = (s.conn t').fd) : t = t' := by
  have h1 := h.opened t ht
  rw [hfd, h.opened t' ht', Option.some.injEq] at h1
  exact h1.symm

lemma keeps (h : ServerOk s) (hk : KeepsTable s s') : ServerOk s' where
  count := by
    have hused : usedSlots s'.list = usedSlots s.list := by
      ext i
      rw [mem_usedSlots, mem_usedSlots, (hk.entry i).cliThread_eq]
    rw [hk.numClients_eq, hused]
    exact h.count
  used i t ht := by
    rw [(hk.entry i).cliThread_eq] at ht
    rw [(hk.conn t).slot_eq]
    exact h.used i t ht
  entry t i hslot := by
    rw [(hk.conn t).slot_eq] at hslot
    rw [(hk.entry i).cliThread_eq, (hk.entry i).cliIsCmdconn_eq, (hk.entry i).cliSocket_eq,
      (hk.entry i).cliIpadr_eq, (hk.entry i).cliDevid_eq, (hk.entry i).cliTs_eq,
      (hk.conn t).isCmd_eq, (hk.conn t).fd_eq, (hk.conn t).ip_eq, (hk.conn t).regId_eq]
    exact h.entry t i hslot
  free i hi := by
    rw [(hk.entry i).cliThread_eq] at hi
    rw [hk.free i hi]
    exact h.free i hi
  opened t ht := by
    rw [(hk.conn t).isOpen_eq] at ht
    rw [hk.fdOwner_eq, (hk.conn t).fd_eq]
    exact h.opened t ht
  owner fd t ht := by
    rw [hk.fdOwner_eq] at ht
    rw [(hk.conn t).fd_eq, (hk.conn t).isOpen_eq]
    exact h.owner fd t ht
  main t ht := by
    rw [hk.main_eq] at ht
    obtain ⟨hpc, hslot, hreg⟩ := h.main t ht
    rw [(hk.conn t).pc_eq hslot, (hk.conn t).slot_eq, (hk.conn t).regId_eq]
    exact ⟨hpc, hslot, hreg⟩
  fresh t ht := by
    rw [hk.nextConn_eq] at ht
    obtain ⟨hpc, hslot⟩ := h.fresh t ht
    rw [(hk.conn t).pc_eq hslot, (hk.conn t).slot_eq]
    exact ⟨hpc, hslot⟩

/-- A connection notes its device id in its own slot. -/
lemma register (h : ServerOk s) {t : ℕ} {me : Fin maxClients} {devid k : ℕ}
    (hpc : (s.conn t).pc = .scanning devid k) (hslot : (s.conn t).slot = some me) (id : ℕ) :
    ServerOk (s.register t me id) := by
  have hne : ∀ t' i, t' ≠ t → (s.conn t').slot = some i → i ≠ me := by
    rintro t' i htt hi rfl
    exact htt (h.slot_injective hi hslot)
  have hthread : ∀ i, ((s.register t me id).list i).cliThread = (s.list i).cliThread := by
    intro i
    by_cases hi : i = me
    · subst hi
      simp [Server.register]
    · simp [Server.register, hi]
  have hslots : ∀ t', ((s.register t me id).conn t').slot = (s.conn t').slot := by
    intro t'
    by_cases htt : t' = t
    · subst htt
      simp [Server.register]
    · simp [Server.register, htt]
  have hopens : ∀ t', ((s.register t me id).conn t').pc.isOpen = (s.conn t').pc.isOpen ∧
      ((s.register t me id).conn t').fd = (s.conn t').fd := by
    intro t'
    by_cases htt : t' = t
    · subst htt
      simp [Server.register, hpc, ConnPc.isOpen]
    · simp [Server.register, htt]
  constructor
  case count =>
      have hused : usedSlots (s.register t me id).list = usedSlots s.list := by
        ext i
        rw [mem_usedSlots, mem_usedSlots, hthread]
      rw [hused]
      exact h.count
  case used =>
      intro i t' ht'
      rw [hthread] at ht'
      rw [hslots]
      exact h.used i t' ht'
  case entry =>
      intro t' i hi
      rw [hslots] at hi
      by_cases htt : t' = t
      · subst htt
        obtain rfl : me = i := by simpa [hslot] using hi
        obtain ⟨h1, h2, h3, h4, -, h6⟩ := h.entry t' me hslot
        simpa [Server.register] using ⟨h1, h2, h3, h4, h6⟩
      · simpa [Server.register, htt, hne t' i htt hi] using h.entry t' i hi
  case free =>
      intro i hi
      rw [hthread] at hi
      have hime : i ≠ me := by
        rintro rfl
        exact h.used_ne_zero hslot hi
      simpa [Server.register, hime] using h.free i hi
  case opened =>
      intro t' ht'
      rw [(hopens t').1] at ht'
      rw [(hopens t').2]
      exact h.opened t' ht'
  case owner =>
      intro fd t' ht'
      rw [(hopens t').1, (hopens t').2]
      exact h.owner fd t' ht'
  case main =>
      intro t' ht'
      obtain ⟨h1, h2, h3⟩ := h.main t' ht'
      have htt : t' ≠ t := by
        rintro rfl
        simp [hslot] at h2
      simpa [Server.register, htt] using ⟨h1, h2, h3⟩
  case fresh =>
      intro t' ht'
      obtain ⟨h1, h2⟩ := h.fresh t' ht'
      have htt : t' ≠ t := by
        rintro rfl
        simp [hslot] at h2
      simpa [Server.register, htt] using ⟨h1, h2⟩

/-- A connection closes its own socket. -/
lemma closeSocket (h : ServerOk s) {t : ℕ} {me : Fin maxClients} {popped : Bool}
    (hpc : (s.conn t).pc = .leaving popped) (hslot : (s.conn t).slot = some me) (m : Option ℕ) :
    ServerOk { s.closeSocket t me popped with socksMutex := m } := by
  have hfd : (s.list me).cliSocket = (s.conn t).fd := (h.entry t me hslot).2.2.1
  have hopen : (s.conn t).pc.isOpen = true := by rw [hpc]; rfl
  have hconn : ∀ t', ((s.closeSocket t me popped).conn t').slot = (s.conn t').slot ∧
      ((s.closeSocket t me popped).conn t').isCmd = (s.conn t').isCmd ∧
      ((s.closeSocket t me popped).conn t').fd = (s.conn t').fd ∧
      ((s.closeSocket t me popped).conn t').ip = (s.conn t').ip ∧
      ((s.closeSocket t me popped).conn t').regId = (s.conn t').regId := by
    intro t'
    by_cases htt : t' = t
    · subst htt
      simp [Server.closeSocket, Server.setPc]
    · simp [Server.closeSocket, Server.setPc, htt]
  constructor
  case count => exact h.count
  case used =>
      intro i t' ht'
      exact (hconn t').1.trans (h.used i t' ht')
  case entry =>
      intro t' i hi
      have hi' : (s.conn t').slot = some i := (hconn t').1.symm.trans hi
      show (s.list i).cliThread = t' + 1 ∧
        (s.list i).cliIsCmdconn = ((s.closeSocket t me popped).conn t').isCmd ∧
        (s.list i).cliSocket = ((s.closeSocket t me popped).conn t').fd ∧
        (s.list i).cliIpadr = ((s.closeSocket t me popped).conn t').ip.take 15 ∧
        (s.list i).cliDevid = ((s.closeSocket t me popped).conn t').regId ∧ (s.list i).cliTs ≠ 0
      rw [(hconn t').2.1, (hconn t').2.2.1, (hconn t').2.2.2.1, (hconn t').2.2.2.2]
      exact h.entry t' i hi'
  case free => exact h.free
  case opened =>
      intro t' ht'
      have htt : t' ≠ t := by
        rintro rfl
        simp [Server.closeSocket, Server.setPc, ConnPc.isOpen] at ht'
      simp only [Server.closeSocket, Server.setPc, Function.update_of_ne htt] at ht' ⊢
      have hne : (s.conn t').fd ≠ (s.list me).cliSocket := by
        rw [hfd]
        exact fun heq => htt (h.fd_injective ht' hopen heq)
      rw [Function.update_of_ne hne]
      exact h.opened t' ht'
  case owner =>
      intro fd t' ht'
      by_cases hfd' : fd = (s.list me).cliSocket
      · subst hfd'
        simp [Server.closeSocket] at ht'
      · simp only [Server.closeSocket, Function.update_of_ne hfd'] at ht'
        obtain ⟨h1, h2⟩ := h.owner fd t' ht'
        have htt : t' ≠ t := by
          rintro rfl
          exact hfd' (h1.symm.trans hfd.symm)
        simpa [Server.closeSocket, Server.setPc, htt] using ⟨h1, h2⟩
  case main =>
      intro t' ht'
      obtain ⟨h1, h2, h3⟩ := h.main t' ht'
      have htt : t' ≠ t := by
        rintro rfl
        simp [hslot] at h2
      simpa [Server.closeSocket, Server.setPc, htt] using ⟨h1, h2, h3⟩
  case fresh =>
      intro t' ht'
      obtain ⟨h1, h2⟩ := h.fresh t' ht'
      have htt : t' ≠ t := by
        rintro rfl
        simp [hslot] at h2
      simpa [Server.closeSocket, Server.setPc, htt] using ⟨h1, h2⟩

/-- A connection clears its own slot: one slot and one count less. -/
lemma clearSlot (h : ServerOk s) {t : ℕ} {me : Fin maxClients} {popped : Bool}
    (hpc : (s.conn t).pc = .closed popped) (hslot : (s.conn t).slot = some me) :
    ServerOk (s.clearSlot t me) := by
  have hthread : (s.list me).cliThread = t + 1 := (h.entry t me hslot).1
  constructor
  case count =>
      have hused : usedSlots (s.clearSlot t me).list = (usedSlots s.list).erase me := by
        ext i
        rw [Finset.mem_erase, mem_usedSlots, mem_usedSlots]
        by_cases hi : i = me
        · subst hi
          simp [Server.clearSlot, ClientInfo.cleared, ClientInfo.zero]
        · simp [Server.clearSlot, hi]
      have hmem : me ∈ usedSlots s.list := mem_usedSlots.mpr (h.used_ne_zero hslot)
      have hpos := Finset.card_pos.mpr ⟨me, hmem⟩
      rw [hused, Finset.card_erase_of_mem hmem]
      simp only [Server.clearSlot, h.count]
      omega
  case used =>
      intro i t' ht'
      by_cases hi : i = me
      · subst hi
        simp [Server.clearSlot, ClientInfo.cleared, ClientInfo.zero] at ht'
      · simp only [Server.clearSlot, Function.update_of_ne hi] at ht'
        have htt : t' ≠ t := by
          rintro rfl
          have := h.used i t' ht'
          rw [hslot, Option.some.injEq] at this
          exact hi this.symm
        simpa [Server.clearSlot, htt] using h.used i t' ht'
  case entry =>
      intro t' i hi
      have htt : t' ≠ t := by
        rintro rfl
        simp [Server.clearSlot] at hi
      simp only [Server.clearSlot, Function.update_of_ne htt] at hi
      have hne : i ≠ me := by
        rintro rfl
        exact htt (h.slot_injective hi hslot)
      simpa [Server.clearSlot, htt, hne] using h.entry t' i hi
  case free =>
      intro i hi
      by_cases hime : i = me
      · subst hime
        simp [Server.clearSlot]
      · simp only [Server.clearSlot, Function.update_of_ne hime] at hi ⊢
        exact h.free i hi
  case opened =>
      intro t' ht'
      have htt : t' ≠ t := by
        rintro rfl
        simp [Server.clearSlot, ConnPc.isOpen] at ht'
      simp only [Server.clearSlot, Function.update_of_ne htt] at ht' ⊢
      exact h.opened t' ht'
  case owner =>
      intro fd t' ht'
      obtain ⟨h1, h2⟩ := h.owner fd t' ht'
      have htt : t' ≠ t := by
        rintro rfl
        rw [hpc] at h2
        simp [ConnPc.isOpen] at h2
      simpa [Server.clearSlot, htt] using ⟨h1, h2⟩
  case main =>
      intro t' ht'
      obtain ⟨h1, h2, h3⟩ := h.main t' ht'
      have htt : t' ≠ t := by
        rintro rfl
        simp [hslot] at h2
      simpa [Server.clearSlot, htt] using ⟨h1, h2, h3⟩
  case fresh =>
      intro t' ht'
      obtain ⟨h1, h2⟩ := h.fresh t' ht'
      have htt : t' ≠ t := by
        rintro rfl
        simp [hslot] at h2
      simpa [Server.clearSlot, htt] using ⟨h1, h2⟩

/-- The main thread accepts a connection. -/
lemma accept (h : ServerOk s) {isCmd : Bool} {ip : CStr} {fd : ℤ} (hfd : s.fdOwner fd = none) :
    ServerOk (s.accept isCmd ip fd) := by
  obtain ⟨-, hnew⟩ := h.fresh s.nextConn le_rfl
  have hfdne : ∀ t, (s.conn t).pc.isOpen = true → (s.conn t).fd ≠ fd := by
    rintro t ht rfl
    rw [h.opened t ht] at hfd
    contradiction
  constructor
  case count => exact h.count
  case used =>
      intro i t ht
      have hslot := h.used i t ht
      have htn : t ≠ s.nextConn := by
        rintro rfl
        simp [hnew] at hslot
      simpa [Server.accept, htn] using hslot
  case entry =>
      intro t i hi
      have htn : t ≠ s.nextConn := by
        rintro rfl
        simp [Server.accept] at hi
      simp only [Server.accept, Function.update_of_ne htn] at hi ⊢
      exact h.entry t i hi
  case free => exact h.free
  case opened =>
      intro t ht
      by_cases htn : t = s.nextConn
      · subst htn
        simp [Server.accept]
      · simp only [Server.accept, Function.update_of_ne htn] at ht ⊢
        rw [Function.update_of_ne (hfdne t ht)]
        exact h.opened t ht
  case owner =>
      intro fd' t ht
      by_cases hfd' : fd' = fd
      · subst hfd'
        obtain rfl : s.nextConn = t := by simpa [Server.accept] using ht
        simp [Server.accept, ConnPc.isOpen]
      · simp only [Server.accept, Function.update_of_ne hfd'] at ht
        obtain ⟨h1, h2⟩ := h.owner fd' t ht
        have htn : t ≠ s.nextConn := by
          rintro rfl
          rw [(h.fresh s.nextConn le_rfl).1] at h2
          simp [ConnPc.isOpen] at h2
        simpa [Server.accept, htn] using ⟨h1, h2⟩
  case main =>
      intro t ht
      obtain rfl : s.nextConn = t := by simpa [Server.accept] using ht
      simp [Server.accept]
  case fresh =>
      intro t ht
      have htn : t ≠ s.nextConn := by
        rintro rfl
        exact absurd ht (Nat.not_succ_le_self s.nextConn)
      have hle : s.nextConn ≤ t := Nat.le_of_succ_le ht
      simpa [Server.accept, htn] using h.fresh t hle

/-- The main thread fills a free slot: one slot and one count more. -/
lemma fillSlot (h : ServerOk s) {ts t : ℕ} {i : Fin maxClients} (hts : ts ≠ 0)
    (hmain : s.main = some t) (hfree : firstFreeSlot s.list = some i) :
    ServerOk (s.fillSlot ts t i) := by
  have hzero : (s.list i).cliThread = 0 := by
    simpa using (Fin.find?_eq_some_iff.mp hfree).1
  obtain ⟨hpc, hnone, hreg⟩ := h.main t hmain
  have hne : ∀ t' j, (s.conn t').slot = some j → j ≠ i := by
    rintro t' j hj rfl
    exact h.used_ne_zero hj hzero
  constructor
  case count =>
      have hused : usedSlots (s.fillSlot ts t i).list = insert i (usedSlots s.list) := by
        ext j
        rw [Finset.mem_insert, mem_usedSlots, mem_usedSlots]
        by_cases hj : j = i
        · subst hj
          simp [Server.fillSlot, ClientInfo.connected]
        · simp [Server.fillSlot, hj]
      have hmem : i ∉ usedSlots s.list := by simp [mem_usedSlots, hzero]
      rw [hused, Finset.card_insert_of_notMem hmem]
      simp only [Server.fillSlot, h.count]
      omega
  case used =>
      intro j t' ht'
      by_cases hj : j = i
      · subst hj
        obtain rfl : t = t' := by simpa [Server.fillSlot, ClientInfo.connected] using ht'
        simp [Server.fillSlot]
      · simp only [Server.fillSlot, Function.update_of_ne hj] at ht'
        have hslot := h.used j t' ht'
        have htt : t' ≠ t := by
          rintro rfl
          simp [hnone] at hslot
        simpa [Server.fillSlot, htt] using hslot
  case entry =>
      intro t' j hj
      by_cases htt : t' = t
      · subst htt
        obtain rfl : i = j := by simpa [Server.fillSlot] using hj
        simpa [Server.fillSlot, ClientInfo.connected, hreg] using hts
      · simp only [Server.fillSlot, Function.update_of_ne htt] at hj
        simpa [Server.fillSlot, htt, hne t' j hj] using h.entry t' j hj
  case free =>
      intro j hj
      have hji : j ≠ i := by
        rintro rfl
        simp [Server.fillSlot, ClientInfo.connected] at hj
      simp only [Server.fillSlot, Function.update_of_ne hji] at hj ⊢
      exact h.free j hj
  case opened =>
      intro t' ht'
      by_cases htt : t' = t
      · subst htt
        have hopen : (s.conn t').pc.isOpen = true := by rw [hpc]; rfl
        simpa [Server.fillSlot] using h.opened t' hopen
      · simp only [Server.fillSlot, Function.update_of_ne htt] at ht' ⊢
        exact h.opened t' ht'
  case owner =>
      intro fd t' ht'
      obtain ⟨h1, h2⟩ := h.owner fd t' ht'
      by_cases htt : t' = t
      · subst htt
        simpa [Server.fillSlot, ConnPc.isOpen] using h1
      · simpa [Server.fillSlot, htt] using ⟨h1, h2⟩
  case main =>
      intro t' ht'
      simp [Server.fillSlot] at ht'
  case fresh =>
      intro t' ht'
      obtain ⟨h1, h2⟩ := h.fresh t' ht'
      have htt : t' ≠ t := by
        rintro rfl
        simp [hpc] at h1
      simpa [Server.fillSlot, htt] using ⟨h1, h2⟩

/-- The main thread refuses a connection. -/
lemma refuse (h : ServerOk s) {t : ℕ} (hmain : s.main = some t) : ServerOk (s.refuse t) := by
  obtain ⟨hpc, hnone, -⟩ := h.main t hmain
  have hopen : (s.conn t).pc.isOpen = true := by rw [hpc]; rfl
  have hslots : ∀ t', ((s.refuse t).conn t').slot = (s.conn t').slot := by
    intro t'
    by_cases htt : t' = t
    · subst htt
      simp [Server.refuse, Server.setPc]
    · simp [Server.refuse, Server.setPc, htt]
  constructor
  case count => exact h.count
  case used =>
      intro i t' ht'
      exact (hslots t').trans (h.used i t' ht')
  case entry =>
      intro t' i hi
      rw [hslots] at hi
      have htt : t' ≠ t := by
        rintro rfl
        simp [hnone] at hi
      simpa [Server.refuse, Server.setPc, htt] using h.entry t' i hi
  case free => exact h.free
  case opened =>
      intro t' ht'
      have htt : t' ≠ t := by
        rintro rfl
        simp [Server.refuse, Server.setPc, ConnPc.isOpen] at ht'
      simp only [Server.refuse, Server.setPc, Function.update_of_ne htt] at ht' ⊢
      have hne : (s.conn t').fd ≠ (s.conn t).fd := fun heq => htt (h.fd_injective ht' hopen heq)
      rw [Function.update_of_ne hne]
      exact h.opened t' ht'
  case owner =>
      intro fd t' ht'
      by_cases hfd : fd = (s.conn t).fd
      · subst hfd
        simp [Server.refuse] at ht'
      · simp only [Server.refuse, Function.update_of_ne hfd] at ht'
        obtain ⟨h1, h2⟩ := h.owner fd t' ht'
        have htt : t' ≠ t := by
          rintro rfl
          exact hfd h1.symm
        simpa [Server.refuse, Server.setPc, htt] using ⟨h1, h2⟩
  case main =>
      intro t' ht'
      simp [Server.refuse] at ht'
  case fresh =>
      intro t' ht'
      obtain ⟨h1, h2⟩ := h.fresh t' ht'
      have htt : t' ≠ t := by
        rintro rfl
        simp [hpc] at h1
      simpa [Server.refuse, Server.setPc, htt] using ⟨h1, h2⟩

end ServerOk

/-- **What a step can do to the table.** -/
theorem serverStep_cases (h : serverStep s a = some s') (hok : ServerOk s) :
    KeepsTable s s' ∨
    (∃ isCmd ip fd, s.fdOwner fd = none ∧ s' = s.accept isCmd ip fd) ∨
    (∃ ts t i, ts ≠ 0 ∧ s.main = some t ∧ firstFreeSlot s.list = some i ∧
      s' = s.fillSlot ts t i) ∨
    (∃ t, s.main = some t ∧ s' = s.refuse t) ∨
    (∃ t me, a.thread = some t ∧ (s.conn t).slot = some me ∧ s.slotStep t me a = some s' ∧
      ((∃ devid k, (s.conn t).pc = .scanning devid k ∧ maxClients ≤ k ∧
        s' = s.register t me devid) ∨
      (∃ popped m, (s.conn t).pc = .leaving popped ∧
        s' = { s.closeSocket t me popped with socksMutex := m }) ∨
      (∃ popped, (s.conn t).pc = .closed popped ∧ s' = s.clearSlot t me))) := by
  cases a with
  | accept isCmd ip fd =>
      simp only [serverStep] at h
      split_ifs at h with hg
      simp only [Option.some.injEq] at h
      exact .inr (.inl ⟨isCmd, ip, fd, hg.2.1, h.symm⟩)
  | fillSlot ts =>
      simp only [serverStep] at h
      split_ifs at h with hg
      obtain ⟨t, ht, h⟩ := Option.bind_eq_some_iff.mp h
      obtain ⟨i, hi, h⟩ := Option.map_eq_some_iff.mp h
      exact .inr (.inr (.inl ⟨ts, t, i, hg.1, ht, hi, h.symm⟩))
  | refuse =>
      simp only [serverStep] at h
      split_ifs at h with hg
      obtain ⟨t, ht, h⟩ := Option.map_eq_some_iff.mp h
      exact .inr (.inr (.inr (.inl ⟨t, ht, h.symm⟩)))
  | keepAlive | scan | leave | cancelled | close | clear | die | useIndex | useNickname | send
  | check | write | giveUp =>
      obtain ⟨me, hslot, hs⟩ := Option.bind_eq_some_iff.mp h
      rcases slotStep_cases hs hslot (hok.used_ne_zero hslot) with hk | hrest
      · exact .inl hk
      · exact .inr (.inr (.inr (.inr ⟨_, me, rfl, hslot, hs, hrest⟩)))

namespace ServerOk

/-- **Every step keeps the table in order.** -/
theorem step (h : ServerOk s) (hstep : serverStep s a = some s') : ServerOk s' := by
  rcases serverStep_cases hstep h with hk | ⟨isCmd, ip, fd, hfd, rfl⟩ |
    ⟨ts, t, i, hts, hmain, hfree, rfl⟩ | ⟨t, hmain, rfl⟩ |
    ⟨t, me, -, hslot, -, ⟨devid, k, hpc, -, rfl⟩ | ⟨popped, m, hpc, rfl⟩ | ⟨popped, hpc, rfl⟩⟩
  · exact h.keeps hk
  · exact h.accept hfd
  · exact h.fillSlot hts hmain hfree
  · exact h.refuse hmain
  · exact h.register hpc hslot devid
  · exact h.closeSocket hpc hslot m
  · exact h.clearSlot hpc hslot

/-- **The table is in order in every run.** -/
theorem reachableIf {cond : Server maxClients → ServerAction → Prop}
    (h : (serverSystem maxClients).ReachableIf cond s) : ServerOk s :=
  h.invariant (fun _ hs => hs ▸ start) fun _ _ _ _ hs _ => hs.step

end ServerOk

/-! ## Accounting -/

/-- **The accounting of the table.** -/
structure TableAccounted (s : Server maxClients) : Prop where
  numClients_eq : s.numClients = ((usedSlots s.list).card : ℤ)
  numClients_nonneg : 0 ≤ s.numClients
  numClients_le : s.numClients ≤ maxClients
  /-- No slot is owned by two connections. -/
  exclusive : ∀ t t' i, (s.conn t).slot = some i → (s.conn t').slot = some i → t = t'
  /-- A slot in use is owned by a connection. -/
  owned : ∀ i, (s.list i).cliThread ≠ 0 → ∃ t, (s.conn t).slot = some i
  /-- A slot that is not in use was never used, or is cleared: it has no socket, no device id and
  no target. -/
  freed : ∀ i, (s.list i).cliThread = 0 → s.list i = .zero ∨ s.list i = .cleared

/-- **Client table accounting, in every reachable state.** -/
theorem table_accounted (h : (serverSystem maxClients).Reachable s) : TableAccounted s := by
  have hok : ServerOk s := .reachableIf h
  constructor
  case numClients_eq => exact hok.count
  case numClients_nonneg =>
      rw [hok.count]
      exact Int.natCast_nonneg _
  case numClients_le =>
      have hle : (usedSlots s.list).card ≤ maxClients :=
        (Finset.card_le_univ _).trans_eq (Fintype.card_fin maxClients)
      rw [hok.count]
      exact_mod_cast hle
  case exclusive => exact fun t t' i ht ht' => hok.slot_injective ht ht'
  case owned =>
      intro i hi
      obtain ⟨t, ht⟩ := Nat.exists_eq_succ_of_ne_zero hi
      exact ⟨t, hok.used i t ht⟩
  case freed => exact hok.free

/-- A tracker and a command client connect, and the tracker goes again. -/
def comeAndGo : List ServerAction :=
  [.accept false (str "10.0.0.2") 7, .fillSlot 100, .accept true (str "10.0.0.1") 8, .fillSlot 101,
   .leave 0, .close 0, .clear 0]

/-- One client is left, in the second slot, and the first one is cleared. -/
theorem table_accounted_comeAndGo :
    ∃ s, (serverSystem 2).run (Server.start 2) comeAndGo = some s ∧ s.numClients = 1 ∧
      s.list 0 = .cleared ∧ (s.list 1).cliSocket = 8 ∧ TableAccounted s := by
  have hrun : (serverSystem 2).run (Server.start 2) comeAndGo = some _ := rfl
  exact ⟨_, hrun, rfl, rfl, rfl, table_accounted (StepSystem.reachable_run rfl hrun)⟩

end G7
