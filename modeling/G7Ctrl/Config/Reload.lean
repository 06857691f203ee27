import G7Ctrl.Config.Configured
import G7Ctrl.Core.Runs

/-!
# Reading the configuration again (`SIGHUP`)

The table of clients is allocated when the daemon is started, with `max_clients` entries.  When the
daemon is told to read its configuration again it sets `max_clients` anew, and the loops over the
table go up to the new number.

* `freeClient`, `usedClients` — the loop that looks for a free entry, and the loop over all entries.
* `daemon` — the system of reloads and of connections that come and go.
* **`daemon_rules`** — in every run the settings are those of the latest file, except the ones that
  are read once; and the two loops stay inside the table exactly as long as the latest file does not
  ask for more clients than the first one did, or, for the first loop, an entry is free.
-/

namespace G7

/-! ## Any file at all -/

section

variable {before : Byte} {st st' : IniLoad} {d : Dictionary}

lemma process_valid {status : IniStatus} (hvalid : st.dict.Valid)
    (h : st.process status = .done st') : st'.dict.Valid := by
  cases status with
  | empty | comment | error =>
      cases h
      exact hvalid
  | «section» name =>
      obtain ⟨d', hset, hvalid', -⟩ := dictionarySet_eq hvalid name none
      rw [IniLoad.process, hset] at h
      cases h
      exact hvalid'
  | value key value =>
      obtain ⟨d', hset, hvalid', -⟩ :=
        dictionarySet_eq hvalid (st.secname ++ ch ':' :: key) (some value)
      rw [IniLoad.process, hset] at h
      cases h
      exact hvalid'

/-- Whatever is in the file, the dictionary is a valid one. -/
lemma loadLoop_valid {fuel : ℕ} {file : CStr} (hvalid : st.dict.Valid)
    (h : loadLoop before fuel st file = .done (some d)) : d.Valid := by
  induction fuel generalizing st file with
  | zero => cases h
  | succ fuel ih =>
      rw [loadLoop] at h
      dsimp only at h
      split_ifs at h with hfile herrs hlf hbefore hgoes
      · cases h
        exact hvalid
      · cases h
      · cases h
      · refine ih ?_ h
        exact hvalid
      · obtain ⟨st', hprocess, hrest⟩ := Checked.bind_eq_done.mp h
        exact ih (process_valid hvalid hprocess) hrest

lemma setupInifile_valid {file : Option CStr} (h : setupInifile before file = .done (some d)) :
    d.Valid := by
  cases file with
  | none => cases h
  | some file => exact loadLoop_valid (.dictionaryNew 0) h

end

/-! ## The table of clients -/

/-- The loop of `startupsrv` over `client_info_list`; an entry is `true` when it has a thread. -/
def freeClient (clients : List Bool) : ℕ → ℕ → Checked ℕ
  | 0, i => .done i
  | n + 1, i => do
      let taken ← load clients i
      if taken then freeClient clients n (i + 1) else return i

/-- The loop of `_srv_cmd_lc`, with the entries it finds. -/
def usedClients (clients : List Bool) : ℕ → ℕ → Checked (List ℕ)
  | 0, _ => .done []
  | n + 1, i => do
      let taken ← load clients i
      let rest ← usedClients clients n (i + 1)
      return if taken then i :: rest else rest

lemma freeClient_isDone_iff {clients : List Bool} (n : ℕ) :
    ∀ {i : ℕ}, i ≤ clients.length →
      ((freeClient clients n i).IsDone ↔ i + n ≤ clients.length ∨ false ∈ clients.drop i) := by
  induction n with
  | zero =>
      intro i hi
      rw [freeClient]
      exact iff_of_true (Checked.isDone_done _) (Or.inl hi)
  | succ n ih =>
      intro i hi
      rw [freeClient]
      rcases hi.lt_or_eq with hlt | rfl
      · rw [load_eq_done_iff.mpr (List.getElem?_eq_getElem hlt), Checked.done_bind,
          List.drop_eq_getElem_cons hlt]
        cases clients[i] with
        | false =>
            rw [if_neg (by simp)]
            exact iff_of_true (Checked.isDone_done _) (Or.inr List.mem_cons_self)
        | true =>
            rw [if_pos rfl, ih hlt, show i + (n + 1) = i + 1 + n by omega]
            simp
      · rw [load_eq_fault (le_refl _), Checked.fault_bind]
        simp

lemma usedClients_isDone_iff {clients : List Bool} (n : ℕ) :
    ∀ {i : ℕ}, i ≤ clients.length →
      ((usedClients clients n i).IsDone ↔ i + n ≤ clients.length) := by
  induction n with
  | zero =>
      intro i hi
      rw [usedClients]
      exact iff_of_true (Checked.isDone_done _) hi
  | succ n ih =>
      intro i hi
      rw [usedClients]
      rcases hi.lt_or_eq with hlt | rfl
      · rw [load_eq_done_iff.mpr (List.getElem?_eq_getElem hlt), Checked.done_bind,
          show i + (n + 1) = i + 1 + n by omega, ← ih hlt]
        cases usedClients clients n (i + 1) with
        | done rest => simp
        | fault => simp
        | timeout => simp
      · rw [load_eq_fault (le_refl _), Checked.fault_bind]
        simp

/-! ## The daemon -/

/-- The settings and the table of clients; and, for what is said about them, what the first and the
latest file had. -/
structure Daemon (D : Type) where
  globals : Globals D
  clients : List Bool
  first : IniMap
  latest : IniMap

/-- `max_clients` -/
def Daemon.maxClients {D : Type} (s : Daemon D) : ℕ := (s.globals.int .maxClients).toNat

/-- What a file that is loaded has. -/
def loadedMap (before : Byte) (file : Option CStr) : IniMap :=
  match setupInifile before file with
  | .done (some d) => d.content
  | _ => fun _ => none

/-- A daemon with these settings, read from this file, and no client. -/
def Daemon.fresh {D : Type} (before : Byte) (file : Option CStr) (g : Globals D) : Daemon D where
  globals := g
  clients := List.replicate (g.int .maxClients).toNat false
  first := loadedMap before file
  latest := loadedMap before file

/-- What happens to a daemon that is running. -/
inductive DaemonAction
  /-- `SIGHUP`, with the configuration file at that time. -/
  | hup (file : Option CStr)
  | accept
  | close (i : ℕ)

/-- The number of clients that a file asks for. -/
def maxClientsOf (m : IniMap) : ℤ :=
  m.get (str "config:max_clients") 5 fun s => toInt32 (strtolBase0 s)

lemma Configured.maxClients {D : Type} [LE D] [OfScientific D] {atof : CStr → D} {m₀ m : IniMap}
    {args : StartArgs} {g : Globals D} (h : Configured atof m₀ m args g) :
    g.int .maxClients = maxClientsOf m ∧ 2 ≤ maxClientsOf m := by
  have hread := h.settings _ List.mem_cons_self
  exact ⟨hread.assigned, hread.accepts.1⟩

section

variable {D : Type} [LE D] [DecidableLE D] [OfScientific D]

/-- The step function.  A daemon that has ended makes no steps. -/
def daemonStep (atof : CStr → D) (before : Byte) (s : Daemon D) :
    DaemonAction → Option (Daemon D)
  | .hup file =>
      match reloadSettings atof before file s.globals with
      | .done (some g) => some { s with globals := g, latest := loadedMap before file }
      | _ => none
  | .accept =>
      match freeClient s.clients s.maxClients 0 with
      | .done i =>
          some (if i < s.maxClients then { s with clients := s.clients.set i true } else s)
      | _ => none
  | .close i => some { s with clients := s.clients.set i false }

/-- A daemon that has just been started. -/
def Daemon.Init (atof : CStr → D) (before : Byte) (args : StartArgs) (s : Daemon D) : Prop :=
  ∃ file g g', startDaemon atof before args file g = .done (some g') ∧ s = .fresh before file g'

/-- The system of reloads and connections. -/
def daemon (atof : CStr → D) (before : Byte) (args : StartArgs) :
    StepSystem (Daemon D) DaemonAction where
  init := Daemon.Init atof before args
  step := daemonStep atof before

/-- The invariant. -/
structure DaemonOk (atof : CStr → D) (args : StartArgs) (s : Daemon D) : Prop where
  configured : Configured atof s.first s.latest args s.globals
  length : s.clients.length = (maxClientsOf s.first).toNat

variable {atof : CStr → D} {before : Byte} {args : StartArgs} {s s' : Daemon D} {m₀ m : IniMap}
  {g g' : Globals D}

lemma startDaemon_configured {file : Option CStr}
    (h : startDaemon atof before args file g = .done (some g')) :
    Configured atof (loadedMap before file) (loadedMap before file) args g' := by
  obtain ⟨d, hload, hrest⟩ := Checked.andThen_eq_some.mp h
  rw [loadedMap, hload]
  exact (startReads_iff (setupInifile_valid hload)).mp hrest

lemma reloadSettings_configured {file : Option CStr} (hg : Configured atof m₀ m args g)
    (h : reloadSettings atof before file g = .done (some g')) :
    Configured atof m₀ (loadedMap before file) args g' := by
  obtain ⟨d, hload, hrest⟩ := Checked.andThen_eq_some.mp h
  rw [loadedMap, hload]
  exact (runReads_settings (setupInifile_valid hload) hg.toStarted).mp hrest

lemma DaemonOk.of_init (h : s.Init atof before args) : DaemonOk atof args s := by
  obtain ⟨file, g, g', hstart, rfl⟩ := h
  have hconf := startDaemon_configured hstart
  refine ⟨hconf, ?_⟩
  rw [Daemon.fresh, List.length_replicate, hconf.maxClients.1]

lemma DaemonOk.step {a : DaemonAction} (h : DaemonOk atof args s)
    (hstep : daemonStep atof before s a = some s') : DaemonOk atof args s' := by
  cases a with
  | hup file =>
      rw [daemonStep] at hstep
      split at hstep
      · rename_i g hreload
        cases hstep
        exact ⟨reloadSettings_configured h.configured hreload, h.length⟩
      · cases hstep
  | accept =>
      rw [daemonStep] at hstep
      split at hstep
      · cases hstep
        split_ifs
        · exact ⟨h.configured, (List.length_set ..).trans h.length⟩
        · exact h
      · cases hstep
  | close i =>
      cases hstep
      exact ⟨h.configured, (List.length_set ..).trans h.length⟩

/-- **What holds in every run**: the settings are those of the latest file; the table of clients has
the size that the first file asks for; and the two loops over it stay inside it unless the latest file
asks for more clients than the first. -/
theorem daemon_rules (h : (daemon atof before args).Reachable s) :
    Configured atof s.first s.latest args s.globals ∧
      s.clients.length = (maxClientsOf s.first).toNat ∧
      ((freeClient s.clients s.maxClients 0).IsDone ↔
        maxClientsOf s.latest ≤ maxClientsOf s.first ∨ false ∈ s.clients) ∧
      ((usedClients s.clients s.maxClients 0).IsDone ↔
        maxClientsOf s.latest ≤ maxClientsOf s.first) := by
  have hok : DaemonOk atof args s :=
    h.invariant (fun _ => DaemonOk.of_init) fun _ _ _ _ hs _ => hs.step
  have hpos := hok.configured.maxClients
  have hbound : 0 + s.maxClients ≤ s.clients.length ↔
      maxClientsOf s.latest ≤ maxClientsOf s.first := by
    rw [hok.length, Daemon.maxClients, hpos.1]
    omega
  refine ⟨hok.configured, hok.length, ?_, ?_⟩
  · rw [freeClient_isDone_iff _ (Nat.zero_le _), hbound, List.drop_zero]
  · rw [usedClients_isDone_iff _ (Nat.zero_le _), hbound]

end

/-- A file that asks for so many clients. -/
def clientsFile (n : ℕ) : CStr :=
  str "[config]\nclient_pwd = secret\nmax_clients = " ++ dec n ++ [lf]

/-- Two clients are allowed at first, and then three: when two are connected, the next one is looked
for behind the table. -/
theorem daemon_rules_threeClients :
    ∃ s : Daemon ℚ, (daemon decimalValue 0 {}).Reachable s ∧ s.clients = [true, true] ∧
      ¬ (freeClient s.clients s.maxClients 0).IsDone := by
  have hrun : (startDaemon decimalValue 0 {} (some (clientsFile 2)) zeroGlobals >>= fun o =>
      .done (o.bind fun g => ((daemon decimalValue 0 {}).run
        (.fresh 0 (some (clientsFile 2)) g) [.accept, .accept, .hup (some (clientsFile 3))]).map
          fun s => (s.clients, s.globals.int .maxClients, maxClientsOf s.first))) =
        .done (some ([true, true], 3, 2)) := by
    decide +kernel
  obtain ⟨_ | g, hstart, hrest⟩ := Checked.bind_eq_done.mp hrun
  · cases hrest
  · obtain ⟨s, hs, hpair⟩ := Option.map_eq_some_iff.mp (Checked.done.inj hrest)
    have hreach : (daemon decimalValue 0 {}).Reachable s :=
      StepSystem.reachable_run ⟨_, _, _, hstart, rfl⟩ hs
    obtain ⟨hclients, hmax⟩ := Prod.mk.inj hpair
    obtain ⟨hlatest, hfirst⟩ := Prod.mk.inj hmax
    refine ⟨s, hreach, hclients, fun hdone => ?_⟩
    obtain ⟨hconf, -, hfree, -⟩ := daemon_rules hreach
    rcases hfree.mp hdone with hle | hmem
    · rw [← hconf.maxClients.1, hlatest, hfirst] at hle
      exact absurd hle (by decide)
    · rw [hclients] at hmem
      exact absurd hmem (by decide)

end G7
