import G7Ctrl.Clients.TargetLiveness

/-!
# One connection per tracker

A tracker that connects anew, usually from another address, sends a keep-alive packet with its
device id, and its thread looks for an older connection with that id and cancels it before it notes
the id for itself.  The search takes an entry for another connection only when address *and* socket
differ, it takes no mutex, and it looks at one slot after another.

`ScanOrderly` excludes the steps by which an older connection is missed: the search meets one from
the same address, or with the same socket number; or an id is registered while another thread, which
searches for the same id, has already passed the slot.  **`one_connection_per_tracker`**: in every
run whose steps are all orderly, once every cancelled thread has cleaned up, a device id is in at
most one slot, the one of the connection that registered it last.  `sameAddress_reconnect` is a run
in which a tracker reconnects from the same address and ends up in two slots.
-/

namespace G7

variable {maxClients : ℕ} {s s' : Server maxClients} {a : ServerAction}

/-- Every cancelled thread has run its cleanup. -/
def NoneCancelled (s : Server maxClients) : Prop :=
  ∀ t, (s.conn t).cancelled = true → (s.conn t).slot = none

/-- **One connection per tracker.** -/
structure OneConnection (s : Server maxClients) : Prop where
  unique : NoneCancelled s → ∀ i j, (s.list i).cliDevid ≠ 0 →
    (s.list i).cliDevid = (s.list j).cliDevid → i = j
  /-- The slot is the one of the connection that registered the id last. -/
  last : NoneCancelled s → ∀ i, (s.list i).cliDevid ≠ 0 →
    ∃ t, s.lastReg (s.list i).cliDevid = some t ∧ (s.conn t).slot = some i

/-- The holder of the slot is cancelled. -/
def HolderCancelled (s : Server maxClients) (i : Fin maxClients) : Prop :=
  ∃ c, s.holder i = some c ∧ (s.conn c).cancelled = true

/-- Looking at slot `i`, the search does not miss a connection of the device: the connection there
is cancelled already, or the two tests of the source let it pass for another one. -/
def SearchMeets (s : Server maxClients) (me : Fin maxClients) (devid : ℕ) (i : Fin maxClients) :
    Prop :=
  i ≠ me → (s.list i).cliDevid = devid → HolderCancelled s i ∨
    ((s.list i).cliIpadr ≠ (s.list me).cliIpadr ∧ (s.list i).cliSocket ≠ (s.list me).cliSocket)

/-- No other thread that searches for the same id has already passed slot `me`. -/
def NotOvertaken (s : Server maxClients) (t : ℕ) (me : Fin maxClients) (devid : ℕ) : Prop :=
  ∀ c, c < s.nextConn → c ≠ t → ∀ k, (s.conn c).pc = .scanning devid k → k ≤ me

/-- The step does not miss another connection of the same device. -/
def ScanOrderly (s : Server maxClients) : ServerAction → Prop
  | .scan t =>
      ∀ me devid k, (s.conn t).slot = some me → (s.conn t).pc = .scanning devid k → devid ≠ 0 →
        (∀ hk : k < maxClients, SearchMeets s me devid ⟨k, hk⟩) ∧
        (maxClients ≤ k → NotOvertaken s t me devid)
  | _ => True

/-- The invariant behind `OneConnection`. -/
structure ReconnectOk (s : Server maxClients) : Prop where
  /-- A search has cancelled all other connections of the device in the slots it has passed. -/
  passed : ∀ t me devid k, (s.conn t).pc = .scanning devid k → (s.conn t).slot = some me →
    devid ≠ 0 → ∀ i : Fin maxClients, i < k → i ≠ me → (s.list i).cliDevid = devid →
      HolderCancelled s i
  /-- A connection with a device id is cancelled or the last one with that id. -/
  last : ∀ t i, (s.conn t).slot = some i → (s.list i).cliDevid ≠ 0 →
    (s.conn t).cancelled = true ∨ s.lastReg (s.list i).cliDevid = some t

lemma cancelThread_cancelled {c : ℕ} (h : (s.conn c).cancelled = true) (thread : ℕ) :
    ((s.cancelThread thread).conn c).cancelled = true := by
  cases thread with
  | zero => exact h
  | succ t =>
      by_cases hc : c = t
      · subst hc
        simp [Server.cancelThread]
      · simpa [Server.cancelThread, hc] using h

/-- A slot with a device id is in use. -/
lemma ServerOk.cliThread_ne_zero (h : ServerOk s) {i : Fin maxClients}
    (hi : (s.list i).cliDevid ≠ 0) : (s.list i).cliThread ≠ 0 := by
  intro h0
  rcases h.free i h0 with hz | hz <;> rw [hz] at hi <;> exact hi rfl

lemma ServerOk.cliTs_ne_zero (h : ServerOk s) {i : Fin maxClients}
    (hi : (s.list i).cliDevid ≠ 0) : (s.list i).cliTs ≠ 0 := by
  obtain ⟨t, ht⟩ := Nat.exists_eq_succ_of_ne_zero (h.cliThread_ne_zero hi)
  exact (h.entry t i (h.used i t ht)).2.2.2.2.2

namespace ReconnectOk

lemma start : ReconnectOk (Server.start maxClients) where
  passed t me devid k hpc := by simp [Server.start, Conn.unborn] at hpc
  last t i hslot := by simp [Server.start, Conn.unborn] at hslot

/-- What the invariant says once nobody is cancelled any more. -/
lemma oneConnection (h : ReconnectOk s) (hok : ServerOk s) : OneConnection s := by
  have hlast : NoneCancelled s → ∀ i, (s.list i).cliDevid ≠ 0 →
      ∃ t, s.lastReg (s.list i).cliDevid = some t ∧ (s.conn t).slot = some i := by
    intro hnone i hi
    obtain ⟨t, ht⟩ := Nat.exists_eq_succ_of_ne_zero (hok.cliThread_ne_zero hi)
    have hslot := hok.used i t ht
    rcases h.last t i hslot hi with hc | hl
    · rw [hnone t hc] at hslot
      contradiction
    · exact ⟨t, hl, hslot⟩
  refine ⟨fun hnone i j hi hij => ?_, hlast⟩
  obtain ⟨t, ht, hsi⟩ := hlast hnone i hi
  obtain ⟨t', ht', hsj⟩ := hlast hnone j (hij ▸ hi)
  rw [hij, ht', Option.some.injEq] at ht
  subst ht
  rw [hsi, Option.some.injEq] at hsj
  exact hsj

/-- A step that moves no slot and no id, revives nobody and advances no search. -/
lemma frame (h : ReconnectOk s) (hslot : ∀ t, (s'.conn t).slot = (s.conn t).slot)
    (hentry : ∀ i, (s'.list i).cliDevid = (s.list i).cliDevid ∧
      (s'.list i).cliThread = (s.list i).cliThread)
    (hcancel : ∀ t, (s.conn t).cancelled = true → (s'.conn t).cancelled = true)
    (hlast : s'.lastReg = s.lastReg)
    (hscan : ∀ t devid k, (s'.conn t).pc = .scanning devid k →
      (s.conn t).pc = .scanning devid k ∨ k = 0) : ReconnectOk s' where
  passed t me devid k hpc hme hd i hik hne hi := by
    rw [hslot] at hme
    rw [(hentry i).1] at hi
    rcases hscan t devid k hpc with hpc | hk
    · obtain ⟨c, hc, hcc⟩ := h.passed t me devid k hpc hme hd i hik hne hi
      refine ⟨c, ?_, hcancel c hcc⟩
      rw [← hc, Server.holder, Server.holder, (hentry i).2]
    · omega
  last t i hi hd := by
    rw [hslot] at hi
    rw [(hentry i).1] at hd ⊢
    rw [hlast]
    exact (h.last t i hi hd).imp (hcancel t) id

/-- The thread of a connection moves on, not in a search. -/
lemma setPc (h : ReconnectOk s) {t : ℕ} {pc : ConnPc maxClients}
    (hpc : ∀ devid k, pc = .scanning devid k → k = 0) : ReconnectOk (s.setPc t pc) := by
  refine h.frame (fun c => ?_) (fun _ => ⟨rfl, rfl⟩) (fun c hc => ?_) rfl (fun c devid k hc => ?_)
  all_goals
    by_cases hct : c = t
    · subst hct
      simp_all [Server.setPc]
    · simp_all [Server.setPc]

/-- A search passes one more slot, after cancelling the connection in it if it is of the device. -/
lemma advance (h : ReconnectOk s) {t devid k : ℕ} {me : Fin maxClients}
    (hpc : (s.conn t).pc = .scanning devid k) (hme : (s.conn t).slot = some me)
    (hslot : ∀ c, (s'.conn c).slot = (s.conn c).slot) (hentry : s'.list = s.list)
    (hcancel : ∀ c, (s.conn c).cancelled = true → (s'.conn c).cancelled = true)
    (hlast : s'.lastReg = s.lastReg) (hother : ∀ c, c ≠ t → (s'.conn c).pc = (s.conn c).pc)
    (hown : (s'.conn t).pc = .scanning devid (k + 1))
    (hk : devid ≠ 0 → ∀ i : Fin maxClients, (i : ℕ) = k → i ≠ me → (s.list i).cliDevid = devid →
      HolderCancelled s' i) : ReconnectOk s' := by
  have hmono : ∀ i, HolderCancelled s i → HolderCancelled s' i := by
    rintro i ⟨c, hc, hcc⟩
    refine ⟨c, ?_, hcancel c hcc⟩
    rw [← hc, Server.holder, Server.holder, hentry]
  constructor
  case passed =>
      intro c me' devid' k' hpc' hme' hd i hik hne hi
      rw [hslot] at hme'
      rw [hentry] at hi
      by_cases hct : c = t
      · subst hct
        rw [hown, ConnPc.scanning.injEq] at hpc'
        obtain ⟨rfl, rfl⟩ := hpc'
        obtain rfl : me = me' := by simpa [hme] using hme'
        rcases Nat.lt_succ_iff_lt_or_eq.mp hik with hik | hik
        · exact hmono i (h.passed c me devid k hpc hme hd i hik hne hi)
        · exact hk hd i hik hne hi
      · rw [hother c hct] at hpc'
        exact hmono i (h.passed c me' devid' k' hpc' hme' hd i hik hne hi)
  case last =>
      intro c i hi hd
      rw [hslot] at hi
      rw [hentry] at hd ⊢
      rw [hlast]
      exact (h.last c i hi hd).imp (hcancel c) id

/-- A search moves to the next slot and a thread is cancelled, the one in the slot if it has to
be. -/
lemma advanceCancel (h : ReconnectOk s) {t devid : ℕ} {me k : Fin maxClients}
    (hpc : (s.conn t).pc = .scanning devid k) (hme : (s.conn t).slot = some me) (thread : ℕ)
    (hk : devid ≠ 0 → k ≠ me → (s.list k).cliDevid = devid →
      HolderCancelled ((s.setPc t (.scanning devid (k + 1))).cancelThread thread) k) :
    ReconnectOk ((s.setPc t (.scanning devid (k + 1))).cancelThread thread) := by
  refine h.advance hpc hme (fun c => ?_) (cancelThread_list _ _) (fun c hc => ?_) ?_
    (fun c hct => ?_) ?_ (fun hd i hik hne hi => ?_)
  · rw [cancelThread_conn]
    by_cases hct : c = t
    · subst hct
      simp [Server.setPc]
    · simp [Server.setPc, hct]
  · refine cancelThread_cancelled ?_ thread
    by_cases hct : c = t
    · subst hct
      simpa [Server.setPc] using hc
    · simpa [Server.setPc, hct] using hc
  · cases thread <;> rfl
  · rw [cancelThread_conn]
    simp [Server.setPc, hct]
  · rw [cancelThread_conn]
    simp [Server.setPc]
  · obtain rfl : i = k := Fin.ext hik
    exact hk hd hne hi

/-- **One round of the search.** -/
lemma scanSlot (h : ReconnectOk s) (hok : ServerOk s) {t devid : ℕ} {me k : Fin maxClients}
    (hpc : (s.conn t).pc = .scanning devid k) (hme : (s.conn t).slot = some me)
    (hord : devid ≠ 0 → SearchMeets s me devid k) :
    ReconnectOk (s.scanSlot t me devid k) := by
  -- where the source does not cancel, orderly means that this has been done before
  have hskip : ¬ ((s.list k).cliTs ≠ 0 ∧ devid = (s.list k).cliDevid ∧
      (s.list k).cliIpadr ≠ (s.list me).cliIpadr ∧ (s.list k).cliSocket ≠ (s.list me).cliSocket) →
      ReconnectOk (s.setPc t (.scanning devid (k + 1))) := by
    intro hnot
    refine h.advanceCancel hpc hme 0 fun hd hne hi => ?_
    rcases hord hd hne hi with ⟨c, hc, hcc⟩ | hdiff
    · refine ⟨c, hc, ?_⟩
      by_cases hct : c = t
      · subst hct
        simpa [Server.setPc, Server.cancelThread] using hcc
      · simpa [Server.setPc, Server.cancelThread, hct] using hcc
    · refine absurd ⟨?_, hi.symm, hdiff⟩ hnot
      exact hok.cliTs_ne_zero (hi ▸ hd)
  simp only [Server.scanSlot]
  split_ifs with hdup hdiff
  · refine h.advanceCancel hpc hme _ fun hd _ hi => ?_
    obtain ⟨c, hc⟩ := Nat.exists_eq_succ_of_ne_zero (hok.cliThread_ne_zero (hi ▸ hd))
    refine ⟨c, ?_, ?_⟩
    · have hlist : (s.setPc t (.scanning devid (k + 1))).list k = s.list k := rfl
      simp only [Server.holder, cancelThread_list, hlist, hc]
    · rw [hc]
      simp [Server.cancelThread]
  · exact hskip fun hall => hdiff hall.2.2
  · exact hskip fun hall => hdup ⟨hall.1, hall.2.1⟩

/-- **The search is over and the id is noted.**  All other connections of the device in the table
are cancelled, and the searches for this id that are still under way will come to this slot. -/
lemma register (h : ReconnectOk s) (hok : ServerOk s) {t devid k : ℕ} {me : Fin maxClients}
    (hpc : (s.conn t).pc = .scanning devid k) (hme : (s.conn t).slot = some me)
    (hk : maxClients ≤ k) (hord : devid ≠ 0 → NotOvertaken s t me devid) :
    ReconnectOk (s.register t me devid) := by
  have hmono : ∀ i, HolderCancelled s i → HolderCancelled (s.register t me devid) i := by
    rintro i ⟨c, hc, hcc⟩
    refine ⟨c, ?_, ?_⟩
    · by_cases hi : i = me
      · subst hi
        simpa [Server.register, Server.holder] using hc
      · simpa [Server.register, Server.holder, hi] using hc
    · by_cases hct : c = t
      · subst hct
        simpa [Server.register] using hcc
      · simpa [Server.register, hct] using hcc
  constructor
  case passed =>
      intro c me' devid' k' hpc' hme' hd i hik hne hi
      have hct : c ≠ t := by
        rintro rfl
        simp [Server.register] at hpc'
      simp only [Server.register, Function.update_of_ne hct] at hpc' hme'
      by_cases hime : i = me
      · subst hime
        simp only [Server.register, Function.update_self] at hi
        subst hi
        have hlt := hok.lt_nextConn hme'
        exact absurd (hord hd c hlt hct k' hpc') (by omega)
      · simp only [Server.register, Function.update_of_ne hime] at hi
        exact hmono i (h.passed c me' devid' k' hpc' hme' hd i hik hne hi)
  case last =>
      intro c i hi hd
      by_cases hct : c = t
      · subst hct
        obtain rfl : me = i := by simpa [Server.register, hme] using hi
        simp [Server.register]
      · simp only [Server.register, Function.update_of_ne hct] at hi
        have hne : i ≠ me := fun heq => hct (hok.slot_injective (heq ▸ hi) hme)
        simp only [Server.register, Function.update_of_ne hct, Function.update_of_ne hne] at hd ⊢
        by_cases hid : (s.list i).cliDevid = devid
        · -- the search has passed the slot of `c`
          obtain ⟨c', hc', hcc⟩ :=
            h.passed t me devid k hpc hme (hid ▸ hd) i (lt_of_lt_of_le i.isLt hk) hne hid
          have hcc' : c' = c := by
            simp only [Server.holder, (hok.entry c i hi).1, Option.some.injEq] at hc'
            exact hc'.symm
          exact .inl (hcc' ▸ hcc)
        · rw [Function.update_of_ne hid]
          exact h.last c i hi hd

lemma clearSlot (h : ReconnectOk s) (hok : ServerOk s) {t : ℕ} {me : Fin maxClients}
    (hme : (s.conn t).slot = some me) : ReconnectOk (s.clearSlot t me) where
  passed c me' devid k hpc hme' hd i hik hne hi := by
    have hct : c ≠ t := by
      rintro rfl
      simp [Server.clearSlot] at hpc
    have hime : i ≠ me := by
      rintro rfl
      simp only [Server.clearSlot, Function.update_self] at hi
      exact hd hi.symm
    simp only [Server.clearSlot, Function.update_of_ne hct, Function.update_of_ne hime] at hpc hme' hi
    obtain ⟨c', hc', hcc⟩ := h.passed c me' devid k hpc hme' hd i hik hne hi
    refine ⟨c', by simpa [Server.clearSlot, Server.holder, hime] using hc', ?_⟩
    by_cases hct' : c' = t
    · subst hct'
      simpa [Server.clearSlot] using hcc
    · simpa [Server.clearSlot, hct'] using hcc
  last c i hi hd := by
    have hct : c ≠ t := by
      rintro rfl
      simp [Server.clearSlot] at hi
    simp only [Server.clearSlot, Function.update_of_ne hct] at hi
    have hne : i ≠ me := fun heq => hct (hok.slot_injective (heq ▸ hi) hme)
    simp only [Server.clearSlot, Function.update_of_ne hct, Function.update_of_ne hne] at hd ⊢
    exact h.last c i hi hd

lemma fillSlot (h : ReconnectOk s) {ts t : ℕ} {i : Fin maxClients} :
    ReconnectOk (s.fillSlot ts t i) where
  passed c me devid k hpc hme hd j hjk hne hj := by
    have hct : c ≠ t := by
      rintro rfl
      simp [Server.fillSlot] at hpc
    have hji : j ≠ i := by
      rintro rfl
      simp only [Server.fillSlot, Function.update_self, ClientInfo.connected] at hj
      exact hd hj.symm
    simp only [Server.fillSlot, Function.update_of_ne hct, Function.update_of_ne hji] at hpc hme hj
    obtain ⟨c', hc', hcc⟩ := h.passed c me devid k hpc hme hd j hjk hne hj
    refine ⟨c', by simpa [Server.fillSlot, Server.holder, hji] using hc', ?_⟩
    by_cases hct' : c' = t
    · subst hct'
      simpa [Server.fillSlot] using hcc
    · simpa [Server.fillSlot, hct'] using hcc
  last c j hj hd := by
    have hji : j ≠ i := by
      rintro rfl
      simp [Server.fillSlot, ClientInfo.connected] at hd
    have hct : c ≠ t := by
      rintro rfl
      exact hji (by simpa [Server.fillSlot, eq_comm] using hj)
    simp only [Server.fillSlot, Function.update_of_ne hct, Function.update_of_ne hji] at hj hd ⊢
    exact h.last c j hj hd

lemma accept (h : ReconnectOk s) (hok : ServerOk s) (isCmd : Bool) (ip : CStr) (fd : ℤ) :
    ReconnectOk (s.accept isCmd ip fd) where
  passed c me devid k hpc hme hd i hik hne hi := by
    have hcn : c ≠ s.nextConn := by
      rintro rfl
      simp [Server.accept] at hpc
    simp only [Server.accept, Function.update_of_ne hcn] at hpc hme
    obtain ⟨c', hc', hcc⟩ := h.passed c me devid k hpc hme hd i hik hne hi
    have hslot' : (s.conn c').slot = some i := by
      simp only [Server.holder] at hc'
      split at hc' <;> simp only [Option.some.injEq, reduceCtorEq] at hc'
      rename_i c'' hth
      exact hc' ▸ hok.used i c'' hth
    have hcn' : c' ≠ s.nextConn := (hok.lt_nextConn hslot').ne
    exact ⟨c', hc', by simpa [Server.accept, hcn'] using hcc⟩
  last c i hi hd := by
    have hcn : c ≠ s.nextConn := by
      rintro rfl
      simp [Server.accept] at hi
    simp only [Server.accept, Function.update_of_ne hcn] at hi ⊢
    exact h.last c i hi hd

/-- The target fields of an entry change. -/
lemma setList (h : ReconnectOk s) {me : Fin maxClients} {list : ClientInfoList maxClients}
    (hlist : TargetOnly s.list list me) : ReconnectOk { s with list := list } := by
  obtain ⟨e, he, rfl⟩ := hlist
  refine h.frame (fun _ => rfl) (fun i => ?_) (fun _ hc => hc) rfl (fun _ _ _ hc => .inl hc)
  by_cases hi : i = me
  · subst hi
    simp [he.cliDevid_eq, he.cliThread_eq]
  · simp [hi]

/-- A client chooses its target. -/
lemma setTarget (h : ReconnectOk s) {t : ℕ} {me : Fin maxClients}
    {list : ClientInfoList maxClients} (hlist : TargetOnly s.list list me)
    (slot : Option (Fin maxClients)) : ReconnectOk (s.setTarget t list slot) := by
  have hchosen : ReconnectOk (s.setTarget t s.list slot) := by
    refine h.frame (fun c => ?_) (fun _ => ⟨rfl, rfl⟩) (fun c hc => ?_) rfl
      (fun c devid k hc => .inl ?_)
    all_goals
      by_cases hct : c = t
      · subst hct
        simp_all [Server.setTarget]
      · simp_all [Server.setTarget]
  exact hchosen.setList hlist

/-- **The step of a connection.** -/
lemma slotStep (h : ReconnectOk s) (hok : ServerOk s) (hord : ScanOrderly s a) {t : ℕ}
    {me : Fin maxClients} (ht : a.thread = some t) (hslot : (s.conn t).slot = some me)
    (hstep : s.slotStep t me a = some s') : ReconnectOk s' := by
  cases a with
  | accept | fillSlot | refuse => simp [Server.slotStep] at hstep
  | keepAlive _ devid =>
      simp only [Server.slotStep] at hstep
      split_ifs at hstep with hpc hid <;> simp only [Option.some.injEq] at hstep <;> subst hstep
      · refine h.setPc fun devid' k hk => ?_
        rw [ConnPc.scanning.injEq] at hk
        exact hk.2.symm
      · exact h
  | scan t' =>
      obtain rfl : t' = t := by simpa [ServerAction.thread] using ht
      simp only [Server.slotStep] at hstep
      split at hstep <;> try contradiction
      rename_i devid k hpc
      have hord' := hord me devid k hslot hpc
      split_ifs at hstep with hk <;> simp only [Option.some.injEq] at hstep <;> subst hstep
      · exact h.scanSlot hok hpc hslot fun hd => (hord' hd).1 hk
      · exact h.register hok hpc hslot (by omega) fun hd => (hord' hd).2 (by omega)
  | leave _ =>
      simp only [Server.slotStep] at hstep
      split_ifs at hstep
      simp only [Option.some.injEq] at hstep
      subst hstep
      exact h.setPc (by simp)
  | cancelled _ =>
      simp only [Server.slotStep] at hstep
      split_ifs at hstep
      split at hstep <;> try contradiction
      all_goals
        simp only [Option.some.injEq] at hstep
        subst hstep
        exact h.setPc (by simp)
  | close _ =>
      simp only [Server.slotStep] at hstep
      split at hstep <;> try contradiction
      rename_i popped hpc
      have hclosed : ReconnectOk (s.setPc t (.closed popped)) := h.setPc (by simp)
      split_ifs at hstep <;> simp only [Option.some.injEq] at hstep <;> subst hstep
      · exact { hclosed with }
      · exact { hclosed with }
  | clear _ =>
      simp only [Server.slotStep] at hstep
      split at hstep <;> try contradiction
      split_ifs at hstep
      all_goals
        simp only [Option.some.injEq] at hstep
        exact hstep ▸ h.clearSlot hok hslot
  | die _ =>
      simp only [Server.slotStep] at hstep
      split_ifs at hstep
      split at hstep <;> try contradiction
      all_goals
        simp only [Option.some.injEq] at hstep
        subst hstep
        exact h.setPc (by simp)
  | useIndex _ clientNbr =>
      simp only [Server.slotStep] at hstep
      split_ifs at hstep
      simp only [Option.some.injEq] at hstep
      subst hstep
      exact h.setTarget (setGprsDeviceTargetByIndex_targetOnly _ _ _) _
  | useNickname _ nick devid =>
      simp only [Server.slotStep] at hstep
      split_ifs at hstep
      simp only [Option.some.injEq] at hstep
      subst hstep
      exact h.setTarget (setGprsDeviceTargetByNickname_targetOnly _ _ _ _) _
  | send _ | giveUp _ =>
      simp only [Server.slotStep] at hstep
      split_ifs at hstep
      simp only [Option.some.injEq] at hstep
      subst hstep
      exact h.setPc (by simp)
  | check _ =>
      simp only [Server.slotStep] at hstep
      split at hstep <;> try contradiction
      rename_i k hpc
      simp only [Option.some.injEq, Server.checkSlot] at hstep
      split_ifs at hstep <;> subst hstep
      · exact h.setPc (by simp)
      · exact h.setPc (by simp)
      · have hpc' : ReconnectOk (s.setPc t .refused) := h.setPc (by simp)
        exact hpc'.setList (setGprsDeviceTargetByIndex_targetOnly s.list me (-1))
  | write _ =>
      simp only [Server.slotStep] at hstep
      split at hstep <;> try contradiction
      simp only [Option.some.injEq] at hstep
      subst hstep
      have hrunning : ReconnectOk (s.setPc t .running) := h.setPc (by simp)
      exact { hrunning with }

/-- **Every orderly step keeps one connection per tracker.** -/
theorem step (h : ReconnectOk s) (hok : ServerOk s) (hord : ScanOrderly s a)
    (hstep : serverStep s a = some s') : ReconnectOk s' := by
  cases a with
  | accept isCmd ip fd =>
      simp only [serverStep] at hstep
      split_ifs at hstep
      simp only [Option.some.injEq] at hstep
      subst hstep
      exact h.accept hok isCmd ip fd
  | fillSlot ts =>
      simp only [serverStep] at hstep
      split_ifs at hstep
      obtain ⟨t, -, hstep⟩ := Option.bind_eq_some_iff.mp hstep
      obtain ⟨i, -, rfl⟩ := Option.map_eq_some_iff.mp hstep
      exact h.fillSlot
  | refuse =>
      simp only [serverStep] at hstep
      split_ifs at hstep
      obtain ⟨t, -, rfl⟩ := Option.map_eq_some_iff.mp hstep
      have hgone : ReconnectOk (s.setPc t .gone) := h.setPc (by simp)
      exact { hgone with }
  | keepAlive | scan | leave | cancelled | close | clear | die | useIndex | useNickname | send
  | check | write | giveUp =>
      obtain ⟨me, hslot, hs⟩ := Option.bind_eq_some_iff.mp hstep
      exact h.slotStep hok hord rfl hslot hs

end ReconnectOk

/-- **One connection per tracker, in every orderly run.** -/
theorem one_connection_per_tracker
    (h : (serverSystem maxClients).ReachableIf ScanOrderly s) : OneConnection s := by
  have hreconnect : ReconnectOk s := h.invariant (fun _ hs => hs ▸ .start)
    fun _ _ _ hr hs hord hstep => hs.step (.reachableIf hr) hord hstep
  exact hreconnect.oneConnection (.reachableIf h)

/-! ## Two runs -/

/-- The id a thread searches for and the slot it is about to look at. -/
def ConnPc.scanningAt : ConnPc maxClients → Option (ℕ × ℕ)
  | .scanning devid k => some (devid, k)
  | _ => none

lemma ConnPc.scanningAt_eq_some {pc : ConnPc maxClients} {devid k : ℕ} :
    pc.scanningAt = some (devid, k) ↔ pc = .scanning devid k := by
  cases pc <;> simp [ConnPc.scanningAt]

instance (s : Server maxClients) (i : Fin maxClients) : Decidable (HolderCancelled s i) :=
  inferInstanceAs (Decidable (∃ c ∈ s.holder i, (s.conn c).cancelled = true))

instance (s : Server maxClients) (me : Fin maxClients) (devid : ℕ) (i : Fin maxClients) :
    Decidable (SearchMeets s me devid i) :=
  inferInstanceAs (Decidable (_ → _ → _ ∨ _))

instance (s : Server maxClients) (t : ℕ) (me : Fin maxClients) (devid : ℕ) :
    Decidable (NotOvertaken s t me devid) :=
  decidable_of_iff
    (∀ c, c < s.nextConn → c ≠ t → ∀ q ∈ (s.conn c).pc.scanningAt, q.1 = devid → q.2 ≤ me)
    ⟨fun h c hc hct k hpc => h c hc hct (devid, k) (ConnPc.scanningAt_eq_some.mpr hpc) rfl,
      fun h c hc hct q hq hqd =>
        h c hc hct q.2 (ConnPc.scanningAt_eq_some.mp (by rw [← hqd]; exact hq))⟩

instance (s : Server maxClients) (a : ServerAction) : Decidable (ScanOrderly s a) :=
  match a with
  | .scan t =>
      decidable_of_iff
        (∀ me ∈ (s.conn t).slot, ∀ p ∈ (s.conn t).pc.scanningAt, p.1 ≠ 0 →
          (∀ hk : p.2 < maxClients, SearchMeets s me p.1 ⟨p.2, hk⟩) ∧
          (maxClients ≤ p.2 → NotOvertaken s t me p.1))
        ⟨fun h me devid k hme hpc hd =>
            h me hme (devid, k) (ConnPc.scanningAt_eq_some.mpr hpc) hd,
          fun h me hme p hp hd => h me p.1 p.2 hme (ConnPc.scanningAt_eq_some.mp hp) hd⟩
  | .accept .. | .fillSlot _ | .refuse | .keepAlive .. | .leave _ | .cancelled _ | .close _
  | .clear _ | .die _ | .useIndex .. | .useNickname .. | .send _ | .check _ | .write _
  | .giveUp _ => isTrue trivial

/-- A tracker connects and registers, and does so again from address `ip`. -/
def reconnect (ip : CStr) : List ServerAction :=
  [.accept false (str "10.0.0.2") 7, .fillSlot 100, .keepAlive 0 3000000001,
   .scan 0, .scan 0, .scan 0,
   .accept false ip 8, .fillSlot 200, .keepAlive 1 3000000001, .scan 1, .scan 1, .scan 1]

/-- From another address: the old connection is cancelled, and when it has cleaned up, the device
has one slot. -/
theorem one_connection_per_tracker_reconnect :
    ∃ s, (serverSystem 2).runIf ScanOrderly (Server.start 2)
        (reconnect (str "10.0.0.3") ++ [.cancelled 0, .close 0, .clear 0]) = some s ∧
      s.list 0 = .cleared ∧ (s.list 1).cliDevid = 3000000001 ∧ OneConnection s := by
  have hrun : (serverSystem 2).runIf ScanOrderly (Server.start 2)
      (reconnect (str "10.0.0.3") ++ [.cancelled 0, .close 0, .clear 0]) = some _ := rfl
  exact ⟨_, hrun, rfl, rfl,
    one_connection_per_tracker (StepSystem.reachableIf_runIf (.start rfl) hrun)⟩

/-- **From the same address nothing is cancelled**, and the device stays in two slots. -/
theorem sameAddress_reconnect :
    ∃ s : Server 2, (serverSystem 2).Reachable s ∧ ¬ OneConnection s := by
  have hrun : (serverSystem 2).run (Server.start 2) (reconnect (str "10.0.0.2")) = some _ := rfl
  have hreach := StepSystem.reachable_run rfl hrun
  refine ⟨_, hreach, fun h => ?_⟩
  have hnone : ∀ t, 2 ≤ t → _ = none := fun t ht => ((ServerOk.reachableIf hreach).fresh t ht).2
  refine absurd (h.unique (fun t ht => ?_) 0 1 (by decide) (by decide)) (by decide)
  rcases t with _ | _ | t
  · exact absurd ht (by decide)
  · exact absurd ht (by decide)
  · exact hnone (t + 2) (by omega)

end G7
