import G7Ctrl.Usb.Watcher

/-!
# When the USB connection state is consistent

What the fields of `connwatcher.c` are for: `num_usb_connections` counts the connected ports, a
connected port is attached, only a connected port has a device id, and a port whose device file has
disappeared is not connected once its threads have ended (`UsbConsistent`).

The thread writes its two results behind its last cancellation point, in two steps.  So an
`IN_DELETE` that falls behind this point, or that finds a thread it does not cancel, is followed by
these writes, and they connect a port that is not there.

* `ReportsPresent` — no thread reports a port as connected that is not attached or whose device
  file has disappeared.
* **`usb_consistent`** — in runs that meet this condition every state reached is consistent; only
  that a device id is written one step before the port is connected.
* **`absent_report`** — a report that does not meet it leaves such a port connected.
* **`deleted_port_connected`** — a run that ends with a connected port whose device is gone, and
  with no thread left.
-/

namespace G7

/-- The connected ports. -/
def connectedPorts (usb : UsbIdx → UsbConnStatus) : Finset UsbIdx :=
  Finset.univ.filter fun i => (usb i).isConnected = true

/-- A thread of the port has not ended. -/
def UsbState.Running (s : UsbState) (i : UsbIdx) : Prop :=
  ∃ t th, s.threads t = some th ∧ th.idx = i ∧ th.pc ≠ .ended

/-- A thread has written the port's device id and is about to report the port. -/
def Stored (threads : ℕ → Option EstablishThread) (i : UsbIdx) : Prop :=
  ∃ t th, threads t = some th ∧ th.idx = i ∧ th.pc = .stored

/-- What the fields are for. -/
structure UsbConsistent (s : UsbState) : Prop where
  count : s.numUsbConnections = (connectedPorts s.usbConnStatus).card
  attached : ∀ i, (s.usbConnStatus i).isConnected = true → (s.usbConnStatus i).isAttached = true
  deviceId : ∀ i, (s.usbConnStatus i).deviceId ≠ 0 → (s.usbConnStatus i).isConnected = true
  gone : ∀ i, s.lastEvent i = some .delete → ¬ s.Running i → s.isUsbConnected i = false

/-- The watcher and its threads. -/
def usbSystem : StepSystem UsbState UsbAction where
  init s := s = .start
  step := UsbState.step

/-- The port is connected already, or its device is there. -/
def UsbState.Present (s : UsbState) (i : UsbIdx) : Prop :=
  (s.usbConnStatus i).isConnected = true ∨
    (s.usbConnStatus i).isAttached = true ∧ s.lastEvent i ≠ some .delete

instance (s : UsbState) (i : UsbIdx) : Decidable (s.Present i) :=
  inferInstanceAs (Decidable (_ ∨ _))

/-- **The condition**: threads report ports that are present. -/
def ReportsPresent (s : UsbState) : UsbAction → Prop
  | .report t _ => ∀ th ∈ s.threads t, s.Present th.idx
  | _ => True

instance (s : UsbState) : DecidablePred (ReportsPresent s)
  | .report t _ =>
      match h : s.threads t with
      | none => isTrue fun th hth => by simp [h] at hth
      | some th =>
          decidable_of_iff (s.Present th.idx) (by simp [ReportsPresent, h])
  | .create _ | .delete _ | .attach _ | .noAnswer _ | .answer _ _ | .die _ | .store _ =>
      isTrue trivial

/-! ## What a step can do -/

/-- **The steps of a thread**: its first write, a move without a write, and its last two writes. -/
theorem threadStep_cases {s s' : UsbState} {t : ℕ} {th : EstablishThread} {a : UsbAction}
    (h : s.threadStep t th a = some s') :
    (s' = (s.setUsb th.idx { s.usbConnStatus th.idx with isAttached := true }).setThread t
        { th with pc := .attempt 0 } ∧ th.pc = .created) ∨
    (∃ pc, s' = s.setThread t { th with pc := pc } ∧ th.pc ≠ .stored) ∨
    (∃ deviceId, s' = (s.setUsb th.idx
        { s.usbConnStatus th.idx with deviceId := deviceId }).setThread t
          { th with pc := .stored } ∧ th.pc = .answered deviceId) ∨
    (∃ u now, a = .report u now ∧
      s' = (s.updateUsbStat th.idx true now).setThread t { th with pc := .ended } ∧
      th.pc = .stored) := by
  cases a with
  | create i => simp [UsbState.threadStep] at h
  | delete i => simp [UsbState.threadStep] at h
  | attach u =>
      simp only [UsbState.threadStep] at h
      split at h
      · exact Or.inl ⟨(Option.some.inj h).symm, ‹_›⟩
      · exact absurd h (by simp)
  | noAnswer u =>
      simp only [UsbState.threadStep] at h
      split at h
      all_goals first
        | exact Or.inr (Or.inl ⟨_, (Option.some.inj h).symm, by simp [*]⟩)
        | exact absurd h (by simp)
  | answer u deviceId =>
      simp only [UsbState.threadStep] at h
      split at h
      · exact Or.inr (Or.inl ⟨_, (Option.some.inj h).symm, by simp [*]⟩)
      · exact absurd h (by simp)
  | die u =>
      simp only [UsbState.threadStep] at h
      split at h
      · exact Or.inr (Or.inl ⟨_, (Option.some.inj h).symm, by simp [*]⟩)
      · exact absurd h (by simp)
  | store u =>
      simp only [UsbState.threadStep] at h
      split at h
      · exact Or.inr (Or.inr (Or.inl ⟨_, (Option.some.inj h).symm, ‹_›⟩))
      · exact absurd h (by simp)
  | report u now =>
      simp only [UsbState.threadStep] at h
      split at h
      · exact Or.inr (Or.inr (Or.inr ⟨u, now, rfl, (Option.some.inj h).symm, ‹_›⟩))
      · exact absurd h (by simp)

/-- **The steps**: events, and steps of a thread. -/
theorem usbStep_cases {s s' : UsbState} {a : UsbAction} (h : s.step a = some s') :
    (∃ i, s' = s.created i) ∨ (∃ i, s' = s.deleted i) ∨
      ∃ t th, s.threads t = some th ∧ s.threadStep t th a = some s' ∧
        ∀ u now, a = .report u now → u = t := by
  cases a with
  | create i => exact Or.inl ⟨i, (Option.some.inj h).symm⟩
  | delete i => exact Or.inr (Or.inl ⟨i, (Option.some.inj h).symm⟩)
  | attach t | noAnswer t | answer t _ | die t | store t =>
      obtain ⟨th, hth, hstep⟩ := Option.bind_eq_some_iff.mp h
      exact Or.inr (Or.inr ⟨t, th, hth, hstep, by simp⟩)
  | report t now =>
      obtain ⟨th, hth, hstep⟩ := Option.bind_eq_some_iff.mp h
      exact Or.inr (Or.inr ⟨t, th, hth, hstep, by simp⟩)

/-! ## The invariant -/

/-- What holds of a port's entry; `stored` tells whether a thread has written its device id and is
about to report it, `last` is the port's last event. -/
structure PortOk (stored : Prop) (last : Option InotifyEvent) (u : UsbConnStatus) : Prop where
  attached : u.isConnected = true → u.isAttached = true
  deviceId : u.deviceId ≠ 0 → u.isConnected = true ∨ stored
  deleted : last = some .delete → u.isConnected = false

/-- What holds in every state of a run that meets the condition. -/
structure UsbOk (s : UsbState) : Prop where
  count : s.numUsbConnections = (connectedPorts s.usbConnStatus).card
  port : ∀ i, PortOk (Stored s.threads i) (s.lastEvent i) (s.usbConnStatus i)
  fresh : ∀ t, s.nextThread ≤ t → s.threads t = none

lemma connectedPorts_update (usb : UsbIdx → UsbConnStatus) (i : UsbIdx) (u : UsbConnStatus) :
    connectedPorts (Function.update usb i u)
      = if u.isConnected then insert i (connectedPorts usb) else (connectedPorts usb).erase i := by
  ext j
  by_cases hj : j = i
  · subst hj
    split_ifs with hu <;> simp [connectedPorts, hu]
  · split_ifs <;> simp [connectedPorts, hj]

lemma mem_connectedPorts {usb : UsbIdx → UsbConnStatus} {i : UsbIdx} :
    i ∈ connectedPorts usb ↔ (usb i).isConnected = true := by
  simp [connectedPorts]

/-- An entry that keeps its flag keeps the set of connected ports. -/
lemma connectedPorts_update_same {usb : UsbIdx → UsbConnStatus} {i : UsbIdx} {u : UsbConnStatus}
    (h : u.isConnected = (usb i).isConnected) :
    connectedPorts (Function.update usb i u) = connectedPorts usb := by
  rw [connectedPorts_update]
  split_ifs with hu
  · exact Finset.insert_eq_self.mpr (mem_connectedPorts.mpr (h ▸ hu))
  · exact Finset.erase_eq_self.mpr fun hmem => hu (h ▸ mem_connectedPorts.mp hmem)

lemma PortOk.imp {p q : Prop} {last : Option InotifyEvent} {u : UsbConnStatus}
    (h : PortOk p last u) (hpq : p → q) : PortOk q last u :=
  ⟨h.attached, fun hid => (h.deviceId hid).imp_right hpq, h.deleted⟩

/-- Threads that have stored an id go on to report it, whatever the others do. -/
lemma Stored.frame {threads threads' : ℕ → Option EstablishThread} {i : UsbIdx}
    (hkeep : ∀ t th, threads t = some th → th.pc = .stored →
      ∃ th', threads' t = some th' ∧ th'.idx = th.idx ∧ th'.pc = .stored)
    (h : Stored threads i) : Stored threads' i := by
  obtain ⟨t, th, hth, hidx, hpc⟩ := h
  obtain ⟨th', hth', hidx', hpc'⟩ := hkeep t th hth hpc
  exact ⟨t, th', hth', hidx'.trans hidx, hpc'⟩

namespace UsbOk

variable {s s' : UsbState} {t : ℕ} {th th' : EstablishThread} {i : UsbIdx}

/-- Nothing has happened yet. -/
lemma start : UsbOk .start where
  count := by decide
  port _ := ⟨fun h => absurd h (by simp [UsbState.start]), fun h => absurd rfl h, fun _ => rfl⟩
  fresh _ _ := rfl

/-- Writing a port's entry, and the number of connections. -/
lemma setUsb (h : UsbOk s) {u : UsbConnStatus} (hu : PortOk (Stored s.threads i) (s.lastEvent i) u)
    {n : ℕ} (hn : n = (connectedPorts (Function.update s.usbConnStatus i u)).card) :
    UsbOk { s.setUsb i u with numUsbConnections := n } := by
  refine ⟨hn, fun j => ?_, h.fresh⟩
  by_cases hji : j = i
  · subst hji
    simpa only [UsbState.setUsb, Function.update_self] using hu
  · simpa only [UsbState.setUsb, Function.update_of_ne hji] using h.port j

/-- Writing a port's entry without connecting or disconnecting it. -/
lemma setUsb_same (h : UsbOk s) {u : UsbConnStatus}
    (hu : PortOk (Stored s.threads i) (s.lastEvent i) u)
    (hconn : u.isConnected = (s.usbConnStatus i).isConnected) : UsbOk (s.setUsb i u) :=
  h.setUsb hu (by rw [connectedPorts_update_same hconn, h.count])

/-- Writing a thread's state. -/
lemma setThreads (h : UsbOk s) (hth : s.threads t = some th)
    (hstored : th.pc = .stored → th'.pc = .stored ∧ th'.idx = th.idx) :
    UsbOk (s.setThread t th') := by
  refine ⟨h.count, fun j => (h.port j).imp (Stored.frame fun u uth huth hupc => ?_),
    fun u hu => ?_⟩
  · by_cases hut : u = t
    · subst hut
      rw [hth, Option.some.injEq] at huth
      subst huth
      obtain ⟨hpc, hidx⟩ := hstored hupc
      exact ⟨th', by simp [UsbState.setThread], hidx, hpc⟩
    · exact ⟨uth, by simp [UsbState.setThread, Function.update_of_ne hut, huth], rfl, hupc⟩
  · have hut : u ≠ t := by
      rintro rfl
      simp [h.fresh u hu] at hth
    simp only [UsbState.setThread, Function.update_of_ne hut]
    exact h.fresh u hu

/-- A new thread is started. -/
lemma created (h : UsbOk s) (i : UsbIdx) : UsbOk (s.created i) := by
  refine ⟨h.count, fun j => ?_, fun u hu => ?_⟩
  · have hport : PortOk (Stored (s.created i).threads j) (s.lastEvent j) (s.usbConnStatus j) := by
      refine (h.port j).imp (Stored.frame fun u uth huth hupc => ⟨uth, ?_, rfl, hupc⟩)
      have hu : u ≠ s.nextThread := by
        rintro rfl
        simp [h.fresh s.nextThread le_rfl] at huth
      simp [UsbState.created, Function.update_of_ne hu, huth]
    by_cases hji : j = i
    · subst hji
      exact ⟨hport.attached, hport.deviceId, fun hlast => by simp [UsbState.created] at hlast⟩
    · simpa [UsbState.created, Function.update_of_ne hji] using hport
  · simp only [UsbState.created] at hu
    have hne : u ≠ s.nextThread := by omega
    simp only [UsbState.created, Function.update_of_ne hne]
    exact h.fresh u (by omega)

/-- A cancellation is only noted. -/
lemma cancelThread (h : UsbOk s) (thread : Option ℕ) : UsbOk (s.cancelThread thread) := by
  simp only [UsbState.cancelThread]
  split
  · exact h
  · split
    · exact h
    · rename_i hth
      exact h.setThreads hth fun hpc => ⟨hpc, rfl⟩

/-- The port is cleared. -/
lemma cleared (h : UsbOk s) (i : UsbIdx) (now : ℤ) :
    UsbOk (s.updateUsbStat i false now) ∧
      ((s.updateUsbStat i false now).usbConnStatus i).isConnected = false := by
  simp only [UsbState.updateUsbStat, Bool.false_eq_true, if_false]
  split_ifs with hconn hatt
  · refine ⟨h.setUsb ⟨?_, ?_, ?_⟩ ?_, by simp [UsbState.setUsb]⟩
    · simp
    · simp
    · simp
    · rw [connectedPorts_update, if_neg (by simp),
        Finset.card_erase_of_mem (mem_connectedPorts.mpr hconn), h.count]
  · refine ⟨h.setUsb_same ⟨?_, (h.port i).deviceId, (h.port i).deleted⟩ rfl, ?_⟩
    · exact fun hc => absurd hc hconn
    · simpa [UsbState.setUsb] using hconn
  · exact ⟨h, by simpa using hconn⟩

/-- The event is noted. -/
lemma noteDelete (h : UsbOk s) (hconn : (s.usbConnStatus i).isConnected = false) :
    UsbOk { s with lastEvent := Function.update s.lastEvent i (some .delete) } := by
  refine ⟨h.count, fun j => ?_, h.fresh⟩
  by_cases hji : j = i
  · subst hji
    exact ⟨(h.port j).attached, (h.port j).deviceId, fun _ => hconn⟩
  · simpa only [Function.update_of_ne hji] using h.port j

/-- A device file disappears. -/
lemma deletedPort (h : UsbOk s) (i : UsbIdx) : UsbOk (s.deleted i) := by
  simp only [UsbState.deleted]
  split_ifs
  · have hcancel : UsbOk { s.cancelThread (s.usbConnThreadId i) with
        usbConnThreadId := Function.update s.usbConnThreadId i none } :=
      ⟨(h.cancelThread _).count, (h.cancelThread _).port, (h.cancelThread _).fresh⟩
    obtain ⟨hclear, hconn⟩ := hcancel.cleared i 0
    exact hclear.noteDelete hconn
  · obtain ⟨hclear, hconn⟩ := h.cleared i 0
    exact hclear.noteDelete hconn

/-- The first write of a thread. -/
lemma attach (h : UsbOk s) (i : UsbIdx) :
    UsbOk (s.setUsb i { s.usbConnStatus i with isAttached := true }) :=
  h.setUsb_same ⟨fun _ => rfl, (h.port i).deviceId, (h.port i).deleted⟩ rfl

/-- The device id is written. -/
lemma store (h : UsbOk s) (hth : s.threads t = some th) {deviceId : ℕ}
    (hpc : th.pc = .answered deviceId) :
    UsbOk ((s.setUsb th.idx { s.usbConnStatus th.idx with deviceId := deviceId }).setThread t
      { th with pc := .stored }) := by
  -- the thread first, so that the entry may then have an id
  have hthread : UsbOk (s.setThread t { th with pc := .stored }) :=
    h.setThreads hth fun hs => absurd hs (by simp [hpc])
  have hstored : Stored (s.setThread t { th with pc := .stored }).threads th.idx :=
    ⟨t, { th with pc := .stored }, by simp [UsbState.setThread], rfl, rfl⟩
  exact hthread.setUsb_same
    ⟨(h.port th.idx).attached, fun _ => Or.inr hstored, (h.port th.idx).deleted⟩ rfl

/-- The port is connected. -/
lemma connected (h : UsbOk s) (hpresent : s.Present i) (now : ℤ) :
    UsbOk (s.updateUsbStat i true now) ∧
      ((s.updateUsbStat i true now).usbConnStatus i).isConnected = true := by
  simp only [UsbState.updateUsbStat, if_true]
  split_ifs with hconn
  · exact ⟨h, hconn⟩
  · obtain ⟨hatt, hlast⟩ := hpresent.resolve_left hconn
    have hport : PortOk (Stored s.threads i) (s.lastEvent i)
        { s.usbConnStatus i with isConnected := true, ts := now } :=
      ⟨fun _ => hatt, fun _ => Or.inl rfl, fun hl => absurd hl hlast⟩
    refine ⟨h.setUsb hport ?_, by simp [UsbState.setUsb]⟩
    have hnew : i ∉ connectedPorts s.usbConnStatus := fun hmem => hconn (mem_connectedPorts.mp hmem)
    rw [connectedPorts_update, if_pos rfl, Finset.card_insert_of_notMem hnew, h.count]

/-- The thread of a connected port ends. -/
lemma endThread (h : UsbOk s) (hth : s.threads t = some th)
    (hconn : (s.usbConnStatus th.idx).isConnected = true) :
    UsbOk (s.setThread t { th with pc := .ended }) := by
  refine ⟨h.count, fun j => ?_, fun u hu => ?_⟩
  · by_cases hj : j = th.idx
    · subst hj
      exact ⟨(h.port _).attached, fun _ => Or.inl hconn, (h.port _).deleted⟩
    · refine (h.port j).imp ?_
      rintro ⟨u, uth, huth, hidx, hupc⟩
      have hut : u ≠ t := by
        rintro rfl
        rw [hth, Option.some.injEq] at huth
        exact hj (huth ▸ hidx.symm)
      exact ⟨u, uth, by simp [UsbState.setThread, Function.update_of_ne hut, huth], hidx, hupc⟩
  · have hut : u ≠ t := by
      rintro rfl
      simp [h.fresh u hu] at hth
    simp only [UsbState.setThread, Function.update_of_ne hut]
    exact h.fresh u hu

/-- The port is reported, and is present. -/
lemma report (h : UsbOk s) (hth : s.threads t = some th) (hpresent : s.Present th.idx) (now : ℤ) :
    UsbOk ((s.updateUsbStat th.idx true now).setThread t { th with pc := .ended }) := by
  obtain ⟨hok, hconn⟩ := h.connected hpresent now
  have hthreads : (s.updateUsbStat th.idx true now).threads = s.threads := by
    simp only [UsbState.updateUsbStat, if_true]
    split_ifs <;> rfl
  exact hok.endThread (hthreads ▸ hth) hconn

/-- **Every step that meets the condition keeps the invariant.** -/
theorem step (h : UsbOk s) {a : UsbAction} (ha : ReportsPresent s a)
    (hstep : s.step a = some s') : UsbOk s' := by
  rcases usbStep_cases hstep with ⟨i, rfl⟩ | ⟨i, rfl⟩ | ⟨t, th, hth, hthread, hreport⟩
  · exact h.created i
  · exact h.deletedPort i
  · rcases threadStep_cases hthread with
      ⟨rfl, hpc⟩ | ⟨pc, rfl, hpc⟩ | ⟨deviceId, rfl, hpc⟩ | ⟨u, now, rfl, rfl, hpc⟩
    · exact (h.attach th.idx).setThreads hth fun hs => absurd hs (by simp [hpc])
    · exact h.setThreads hth fun hs => absurd hs hpc
    · exact h.store hth hpc
    · obtain rfl := hreport u now rfl
      exact h.report hth (ha th hth) now

end UsbOk

/-! ## Runs -/

/-- A thread of the port is between its two last writes. -/
def UsbState.Publishing (s : UsbState) (i : UsbIdx) : Prop := Stored s.threads i

/-- In runs that meet the condition the invariant holds. -/
lemma usbOk_of_reachable {s : UsbState} (h : usbSystem.ReachableIf ReportsPresent s) : UsbOk s :=
  h.invariant (fun _ hs => hs ▸ UsbOk.start) fun _ _ _ _ hok ha hstep => hok.step ha hstep

/-- **When the USB connection state is consistent.**  In every state reached by a run in which the
threads report only ports that are present: the connections are counted, connected ports are
attached, and a port whose device file has disappeared is not connected; and while no thread is
between its two last writes for a port, the port has a device id only if it is connected. -/
theorem usb_consistent {s : UsbState} (h : usbSystem.ReachableIf ReportsPresent s) :
    s.numUsbConnections = (connectedPorts s.usbConnStatus).card ∧
      (∀ i, (s.usbConnStatus i).isConnected = true → (s.usbConnStatus i).isAttached = true) ∧
      (∀ i, s.lastEvent i = some .delete → s.isUsbConnected i = false) ∧
      (∀ i, ¬ s.Publishing i → (s.usbConnStatus i).deviceId ≠ 0 →
        (s.usbConnStatus i).isConnected = true) := by
  have hok := usbOk_of_reachable h
  refine ⟨hok.count, fun i => (hok.port i).attached, fun i hlast => ?_, fun i hpub hid => ?_⟩
  · simp [UsbState.isUsbConnected, i.isLt, (hok.port i).deleted hlast]
  · exact ((hok.port i).deviceId hid).resolve_right hpub

/-- The condition is the right one: a report that does not meet it leaves a port connected that is
not attached or whose device file has disappeared. -/
theorem absent_report {s s' : UsbState} {t : ℕ} {now : ℤ}
    (habsent : ¬ ReportsPresent s (.report t now)) (hstep : s.step (.report t now) = some s') :
    ∃ i, (s'.usbConnStatus i).isConnected = true ∧
      ((s'.usbConnStatus i).isAttached = false ∨ s'.lastEvent i = some .delete) := by
  obtain ⟨th, hth, hthread⟩ := Option.bind_eq_some_iff.mp hstep
  simp only [UsbState.threadStep] at hthread
  split at hthread
  · obtain rfl := Option.some.inj hthread
    have hnot : ¬ s.Present th.idx := fun hp => habsent fun th' hth' => by
      rw [hth, Option.mem_def, Option.some.injEq] at hth'
      exact hth' ▸ hp
    have hconn : (s.usbConnStatus th.idx).isConnected = false := by
      by_contra hc
      exact hnot (Or.inl (by simpa using hc))
    refine ⟨th.idx, ?_, ?_⟩
    · simp [UsbState.updateUsbStat, UsbState.setThread, UsbState.setUsb, hconn]
    · by_cases hatt : (s.usbConnStatus th.idx).isAttached = true
      · have hlast : s.lastEvent th.idx = some .delete := by
          by_contra hl
          exact hnot (Or.inr ⟨hatt, hl⟩)
        simp [UsbState.updateUsbStat, UsbState.setThread, UsbState.setUsb, hconn, hlast]
      · simp [UsbState.updateUsbStat, UsbState.setThread, UsbState.setUsb, hconn, hatt]
  · exact absurd hthread (by simp)

/-- A device is plugged in and connected. -/
def plugIn : List UsbAction :=
  [.create 0, .attach 1, .noAnswer 1, .answer 1 3000000001, .store 1, .report 1 1386720000]

/-- Its thread reports a port that is present. -/
theorem usb_consistent_plugIn :
    ∃ s, usbSystem.runIf ReportsPresent .start plugIn = some s ∧ s.isUsbConnected 0 = true ∧
      s.numUsbConnections = (connectedPorts s.usbConnStatus).card := by
  have hrun : usbSystem.runIf ReportsPresent .start plugIn = some _ := rfl
  exact ⟨_, hrun, rfl, (usb_consistent (StepSystem.reachableIf_runIf (.start rfl) hrun)).1⟩

/-- A device is pulled out just after it has answered with its id. -/
def pullOut : List UsbAction :=
  [.create 0, .attach 1, .answer 1 3000000001, .delete 0, .store 1, .report 1 1386720000]

/-- **A port may stay connected after its device is gone**: the last event is `IN_DELETE`, the
thread has ended, and the port is connected though not attached. -/
theorem deleted_port_connected : ¬ ∀ s, usbSystem.Reachable s → UsbConsistent s := by
  intro h
  have hrun : usbSystem.run .start pullOut = some _ := rfl
  have hcons := h _ (StepSystem.reachable_run rfl hrun)
  have hatt : false = true := hcons.attached 0 rfl
  contradiction

end G7
