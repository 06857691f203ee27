import G7Ctrl.Core.Bytes
import G7Ctrl.Core.Runs
import Mathlib.Data.List.Infix

/-!
# The lock file (`lockfile.c`)

A daemon opens its lock file, or makes it, locks it, puts its process id into it and closes it.  A
lock belongs to a file and a process and is given back when the process closes the file, so a daemon
holds the lock while it writes its process id, and no longer.

* `lockfileSystem` — any number of daemons that start, fail and end in any order.
* `LockfileRules` — what the lock is good for: one daemon at a time writes its process id into a
  file, and nobody finds more than a beginning of one process id in it.  It does not keep a second
  daemon out.
* **`lockfile_rules`** — the rules hold in every state of every run.
-/

namespace G7

/-! ## The daemons -/

/-- Where a daemon is in `tryopen_and_writepid` and `get_lockfile`. -/
inductive LockPc
  | idle
  | opened (file : ℕ)
  | locked (file : ℕ)
  | truncated (file : ℕ)
  | written (file : ℕ)
  /-- `get_lockfile` has returned. -/
  | running
  /-- `_exit(EXIT_FAILURE)`, as there is a daemon, or for another reason. -/
  | refused
  | failed
  /-- It has run and ended. -/
  | ended
  deriving DecidableEq

/-- The file that the daemon has locked. -/
def LockPc.holds : LockPc → Option ℕ
  | locked file | truncated file | written file => some file
  | _ => none

/-- The files, the process that has a lock on each, and the daemons, by their process ids. -/
structure Lockfile where
  /-- The file that has the name `pidfile`. -/
  named : Option ℕ
  nextFile : ℕ
  contents : ℕ → CStr
  holder : ℕ → Option ℕ
  pc : ℕ → LockPc

/-- What a daemon writes. -/
def pidLine (pid : ℕ) : CStr := dec pid ++ [lf]

/-- `write` at the beginning of a file. -/
def writeAtStart (text old : CStr) : CStr := text ++ old.drop text.length

/-- The calls of the daemons.  `fails` is the failure of the call that comes next; a `write` that
fails has written `n` bytes.  At its end a daemon removes the name of the file, if it may. -/
inductive LockAction
  | openFile (pid : ℕ)
  | setlk (pid : ℕ)
  | ftruncate (pid : ℕ)
  | write (pid : ℕ)
  | close (pid : ℕ)
  | fails (pid n : ℕ)
  | exit (pid : ℕ) (removed : Bool)

namespace Lockfile

variable (s : Lockfile)

/-- A daemon goes on. -/
def goTo (pid : ℕ) (pc : LockPc) : Lockfile := { s with pc := Function.update s.pc pid pc }

/-- A daemon closes its file, and gives its lock back. -/
def closeFile (pid file : ℕ) : Lockfile :=
  { s with holder := if s.holder file = some pid then Function.update s.holder file none
                     else s.holder }

/-- A file gets other contents. -/
def put (file : ℕ) (text : CStr) : Lockfile :=
  { s with contents := Function.update s.contents file text }

/-- The step function. -/
def step : LockAction → Option Lockfile
  | .openFile pid =>
      if s.pc pid = .idle then
        let file := s.named.getD s.nextFile
        some { s with
          named := some file
          nextFile := if s.named = none then s.nextFile + 1 else s.nextFile
          pc := Function.update s.pc pid (.opened file) }
      else none
  | .setlk pid =>
      match s.pc pid with
      | .opened file =>
          if s.holder file = none then
            some { s with
              holder := Function.update s.holder file (some pid)
              pc := Function.update s.pc pid (.locked file) }
          else some ((s.closeFile pid file).goTo pid .refused)
      | _ => none
  | .ftruncate pid =>
      match s.pc pid with
      | .locked file => some ((s.put file []).goTo pid (.truncated file))
      | _ => none
  | .write pid =>
      match s.pc pid with
      | .truncated file =>
          let text := writeAtStart (pidLine pid) (s.contents file)
          some ((s.put file text).goTo pid (.written file))
      | _ => none
  | .close pid =>
      match s.pc pid with
      | .written file => some ((s.closeFile pid file).goTo pid .running)
      | _ => none
  | .fails pid n =>
      match s.pc pid with
      | .idle => some (s.goTo pid .failed)
      | .opened file | .locked file => some ((s.closeFile pid file).goTo pid .failed)
      | .truncated file =>
          let text := writeAtStart ((pidLine pid).take n) (s.contents file)
          some (((s.put file text).closeFile pid file).goTo pid .failed)
      | _ => none
  | .exit pid removed =>
      if s.pc pid = .running then
        some { s with
          named := if removed then none else s.named
          pc := Function.update s.pc pid .ended }
      else none

/-- No daemon has been started, and an old file, if there is one, has a process id in it. -/
structure Init : Prop where
  pc : ∀ pid, s.pc pid = .idle
  holder : ∀ file, s.holder file = none
  contents : ∀ file, ∃ pid, s.contents file <+: pidLine pid
  named : ∀ file ∈ s.named, file < s.nextFile
  fresh : ∀ file, s.nextFile ≤ file → s.contents file = []

end Lockfile

/-- The system of daemons. -/
def lockfileSystem : StepSystem Lockfile LockAction where
  init := Lockfile.Init
  step := Lockfile.step

/-- The calls of a daemon that gets through. -/
def startCalls (pid : ℕ) : List LockAction :=
  [.openFile pid, .setlk pid, .ftruncate pid, .write pid, .close pid]

/-- **What the lock is good for.** -/
structure LockfileRules (s : Lockfile) : Prop where
  /-- One daemon at a time is between the lock and the end of the lock. -/
  exclusive : ∀ p q file, (s.pc p).holds = some file → (s.pc q).holds = some file → p = q
  /-- A daemon is refused exactly when another one is there at this moment. -/
  refusal : ∀ p file, s.pc p = .opened file →
    ((s.step (.setlk p)).map (·.pc p) = some .refused ↔ ∃ q, (s.pc q).holds = some file)
  /-- Whoever reads a file finds a beginning of one process id. -/
  onePid : ∀ file, ∃ pid, s.contents file <+: pidLine pid
  /-- A daemon that has written its process id finds it whole. -/
  written : ∀ p file, s.pc p = .written file → s.contents file = pidLine p
  /-- **A daemon that runs keeps no other one out.** -/
  notKept : (∀ q, (s.pc q).holds = none) → ∀ p, s.pc p = .idle →
    ∃ s', lockfileSystem.run s (startCalls p) = some s' ∧ s'.pc p = .running ∧
      ∀ q, q ≠ p → s'.pc q = s.pc q

/-! ## The invariant -/

/-- Who holds what, and what is in the files. -/
structure LockfileOk (s : Lockfile) : Prop where
  holder : ∀ p file, s.holder file = some p ↔ (s.pc p).holds = some file
  onePid : ∀ file, ∃ pid, s.contents file <+: pidLine pid
  truncated : ∀ p file, s.pc p = .truncated file → s.contents file = []
  written : ∀ p file, s.pc p = .written file → s.contents file = pidLine p

section

variable {s s' : Lockfile} {p : ℕ} {file : ℕ}

lemma LockfileOk.of_init (h : s.Init) : LockfileOk s where
  holder q f := by
    rw [h.holder, h.pc]
    exact iff_of_false (fun heq => by cases heq) fun heq => by cases heq
  onePid := h.contents
  truncated q f hq := by
    rw [h.pc] at hq
    cases hq
  written q f hq := by
    rw [h.pc] at hq
    cases hq

lemma LockfileOk.exclusive (h : LockfileOk s) {q : ℕ} (hp : (s.pc p).holds = some file)
    (hq : (s.pc q).holds = some file) : p = q :=
  Option.some.inj (((h.holder p file).mpr hp).symm.trans ((h.holder q file).mpr hq))

/-- **What a step may do**: a daemon moves, and changes only a file that it has locked. -/
lemma LockfileOk.of_moves (h : LockfileOk s) (hpc : ∀ q, q ≠ p → s'.pc q = s.pc q)
    (hcontents : ∀ f, s'.contents f = s.contents f ∨
      (s.pc p).holds = some f ∧ ∃ pid, s'.contents f <+: pidLine pid)
    (hholder : ∀ q f, s'.holder f = some q ↔ (s'.pc q).holds = some f)
    (htruncated : ∀ f, s'.pc p = .truncated f → s'.contents f = [])
    (hwritten : ∀ f, s'.pc p = .written f → s'.contents f = pidLine p) : LockfileOk s' := by
  have hother (q f : ℕ) (hq : q ≠ p) (hholds : (s.pc q).holds = some f) :
      s'.contents f = s.contents f :=
    (hcontents f).resolve_right fun hlocked => hq (h.exclusive hholds hlocked.1)
  refine ⟨hholder, fun f => ?_, fun q f hq => ?_, fun q f hq => ?_⟩
  · rcases hcontents f with hsame | ⟨-, hpid⟩
    · rw [hsame]
      exact h.onePid f
    · exact hpid
  · by_cases hqp : q = p
    · subst hqp
      exact htruncated f hq
    · rw [hpc q hqp] at hq
      rw [hother q f hqp (by rw [hq]; rfl)]
      exact h.truncated q f hq
  · by_cases hqp : q = p
    · subst hqp
      exact hwritten f hq
    · rw [hpc q hqp] at hq
      rw [hother q f hqp (by rw [hq]; rfl)]
      exact h.written q f hq

/-- Who holds what when a daemon moves and its lock stays as it is. -/
lemma LockfileOk.holder_goTo (h : LockfileOk s) {pc : LockPc} (hkeeps : pc.holds = (s.pc p).holds)
    (q f : ℕ) : s.holder f = some q ↔ (Function.update s.pc p pc q).holds = some f := by
  by_cases hqp : q = p
  · subst hqp
    rw [Function.update_self, hkeeps]
    exact h.holder q f
  · rw [Function.update_of_ne hqp]
    exact h.holder q f

/-- Who holds what when a daemon has closed its file. -/
lemma LockfileOk.holder_closeFile (h : LockfileOk s) {pc : LockPc} (hpc : pc.holds = none)
    (hfile : ∀ f, (s.pc p).holds = some f → f = file) (q f : ℕ) :
    (s.closeFile p file).holder f = some q ↔ (Function.update s.pc p pc q).holds = some f := by
  have hheld : (s.closeFile p file).holder f = some q ↔ s.holder f = some q ∧ q ≠ p := by
    rw [Lockfile.closeFile]
    dsimp only
    by_cases hf : f = file
    · subst hf
      split_ifs with hp
      · rw [Function.update_self, hp, Option.some.injEq]
        exact iff_of_false (fun heq => by cases heq) fun heq => heq.2 heq.1.symm
      · refine (and_iff_left_of_imp fun hq => ?_).symm
        rintro rfl
        exact hp hq
    · have hother : s.holder f = some q → q ≠ p := by
        rintro hq rfl
        exact hf (hfile f ((h.holder q f).mp hq))
      split_ifs
      · rw [Function.update_of_ne hf]
        exact (and_iff_left_of_imp hother).symm
      · exact (and_iff_left_of_imp hother).symm
  rw [hheld, h.holder q f]
  by_cases hqp : q = p
  · subst hqp
    rw [Function.update_self, hpc]
    exact iff_of_false (fun hq => hq.2 rfl) fun hq => by cases hq
  · rw [Function.update_of_ne hqp]
    exact and_iff_left hqp

lemma writeAtStart_nil (text : CStr) : writeAtStart text [] = text := by
  simp [writeAtStart]

/-- A daemon that only goes on, and neither empties its file nor writes into it. -/
lemma LockfileOk.of_goTo (h : LockfileOk s) {pc : LockPc} (hpc : s'.pc = Function.update s.pc p pc)
    (hcontents : s'.contents = s.contents)
    (hholder : ∀ q f, s'.holder f = some q ↔ (Function.update s.pc p pc q).holds = some f)
    (htruncated : ∀ f, pc ≠ .truncated f) (hwritten : ∀ f, pc ≠ .written f) : LockfileOk s' := by
  have hself : s'.pc p = pc := by
    rw [hpc, Function.update_self]
  refine h.of_moves (p := p) (fun q hq => ?_) (fun f => .inl (by rw [hcontents]))
    (fun q f => ?_) (fun f hf => ?_) fun f hf => ?_
  · rw [hpc, Function.update_of_ne hq]
  · rw [hpc]
    exact hholder q f
  · exact absurd (hself.symm.trans hf) (htruncated f)
  · exact absurd (hself.symm.trans hf) (hwritten f)

/-- A daemon that closes its file. -/
lemma LockfileOk.of_closes (h : LockfileOk s) {pc : LockPc} (hpc : pc.holds = none)
    (hfile : ∀ f, (s.pc p).holds = some f → f = file) :
    LockfileOk ((s.closeFile p file).goTo p pc) := by
  refine h.of_goTo rfl rfl (h.holder_closeFile hpc hfile) ?_ ?_
  · rintro f rfl
    cases hpc
  · rintro f rfl
    cases hpc

/-- A daemon that has locked its file changes the contents. -/
lemma LockfileOk.of_puts (h : LockfileOk s) {pc : LockPc} {text : CStr}
    (hp : (s.pc p).holds = some file) (hpc : pc.holds = some file) (htext : text <+: pidLine p)
    (htruncated : ∀ f, pc = .truncated f → text = [])
    (hwritten : ∀ f, pc = .written f → text = pidLine p) :
    LockfileOk ((s.put file text).goTo p pc) := by
  have hself : ((s.put file text).goTo p pc).pc p = pc := Function.update_self ..
  have hput : ((s.put file text).goTo p pc).contents file = text := Function.update_self ..
  have hfile (f : ℕ) (hf : pc.holds = some f) : f = file :=
    Option.some.inj (hf.symm.trans hpc)
  refine h.of_moves (fun q hq => Function.update_of_ne hq ..) (fun f => ?_)
    (h.holder_goTo (hpc.trans hp.symm)) (fun f hf => ?_) fun f hf => ?_
  · by_cases hff : f = file
    · subst hff
      exact .inr ⟨hp, p, hput.symm ▸ htext⟩
    · exact .inl (Function.update_of_ne hff ..)
  · rw [hself] at hf
    obtain rfl := hfile f (by rw [hf]; rfl)
    exact hput.trans (htruncated f hf)
  · rw [hself] at hf
    obtain rfl := hfile f (by rw [hf]; rfl)
    exact hput.trans (hwritten f hf)

/-- A daemon whose `write` fails leaves the bytes that are written. -/
lemma LockfileOk.of_breaksOff (h : LockfileOk s) (hp : s.pc p = .truncated file) (n : ℕ) :
    LockfileOk (((s.put file (writeAtStart ((pidLine p).take n) (s.contents file))).closeFile p
      file).goTo p .failed) := by
  have hlocked : LockfileOk ((s.put file ((pidLine p).take n)).goTo p (.locked file)) :=
    h.of_puts (by rw [hp]; rfl) rfl (List.take_prefix ..) (fun _ hf => by cases hf)
      fun _ hf => by cases hf
  have hclosed : LockfileOk ((((s.put file ((pidLine p).take n)).goTo p (.locked file)).closeFile p
      file).goTo p .failed) :=
    hlocked.of_closes rfl fun f hf => by simpa [Lockfile.goTo, LockPc.holds] using hf.symm
  rw [h.truncated p file hp, writeAtStart_nil]
  refine Eq.mp (congrArg LockfileOk ?_) hclosed
  exact congrArg (fun pc => ({ (s.put file _).closeFile p file with pc := pc } : Lockfile))
    (Function.update_idem ..)

/-- Who holds what when a daemon has locked its file. -/
lemma LockfileOk.holder_setlk (h : LockfileOk s) (hp : (s.pc p).holds = none)
    (hfree : s.holder file = none) (q f : ℕ) :
    Function.update s.holder file (some p) f = some q ↔
      (Function.update s.pc p (.locked file) q).holds = some f := by
  by_cases hf : f = file
  · subst hf
    rw [Function.update_self, Option.some.injEq]
    by_cases hqp : q = p
    · subst hqp
      rw [Function.update_self]
      exact iff_of_true rfl rfl
    · rw [Function.update_of_ne hqp, ← h.holder q f, hfree]
      exact iff_of_false (fun heq => hqp heq.symm) fun heq => by cases heq
  · rw [Function.update_of_ne hf]
    by_cases hqp : q = p
    · subst hqp
      rw [Function.update_self, h.holder q f, hp]
      exact iff_of_false (fun heq => by cases heq) fun heq => hf (Option.some.inj heq).symm
    · rw [Function.update_of_ne hqp]
      exact h.holder q f

/-- **A step keeps the invariant.** -/
lemma LockfileOk.step (h : LockfileOk s) {a : LockAction} (hstep : s.step a = some s') :
    LockfileOk s' := by
  cases a with
  | openFile pid =>
      rw [Lockfile.step] at hstep
      split at hstep
      · next hpc =>
        obtain rfl := Option.some.inj hstep
        exact h.of_goTo (p := pid) rfl rfl (h.holder_goTo (by rw [hpc]; rfl)) (by simp) (by simp)
      · cases hstep
  | setlk pid =>
      rw [Lockfile.step] at hstep
      split at hstep
      · next file hpc =>
        have hnone : (s.pc pid).holds = none := by
          rw [hpc]
          rfl
        split_ifs at hstep with hfree
        · obtain rfl := Option.some.inj hstep
          exact h.of_goTo rfl rfl (h.holder_setlk hnone hfree) (by simp) (by simp)
        · obtain rfl := Option.some.inj hstep
          exact h.of_closes rfl fun f hf => by simp [hnone] at hf
      · cases hstep
  | ftruncate pid =>
      rw [Lockfile.step] at hstep
      split at hstep
      · next file hpc =>
        obtain rfl := Option.some.inj hstep
        exact h.of_puts (by rw [hpc]; rfl) rfl List.nil_prefix (fun _ _ => rfl)
          fun _ hf => by cases hf
      · cases hstep
  | write pid =>
      rw [Lockfile.step] at hstep
      split at hstep
      · next file hpc =>
        obtain rfl := Option.some.inj hstep
        rw [h.truncated pid file hpc, writeAtStart_nil]
        exact h.of_puts (by rw [hpc]; rfl) rfl List.prefix_rfl (fun _ hf => by cases hf)
          fun _ _ => rfl
      · cases hstep
  | close pid =>
      rw [Lockfile.step] at hstep
      split at hstep
      · next file hpc =>
        obtain rfl := Option.some.inj hstep
        exact h.of_closes rfl fun f hf => by simpa [hpc, LockPc.holds] using hf.symm
      · cases hstep
  | fails pid n =>
      rw [Lockfile.step] at hstep
      split at hstep
      · next hpc =>
        obtain rfl := Option.some.inj hstep
        exact h.of_goTo rfl rfl (h.holder_goTo (by rw [hpc]; rfl)) (by simp) (by simp)
      · next file hpc =>
        obtain rfl := Option.some.inj hstep
        exact h.of_closes rfl fun f hf => by simp [hpc, LockPc.holds] at hf
      · next file hpc =>
        obtain rfl := Option.some.inj hstep
        exact h.of_closes rfl fun f hf => by simpa [hpc, LockPc.holds] using hf.symm
      · next file hpc =>
        obtain rfl := Option.some.inj hstep
        exact h.of_breaksOff hpc n
      · cases hstep
  | exit pid removed =>
      rw [Lockfile.step] at hstep
      split at hstep
      · next hpc =>
        obtain rfl := Option.some.inj hstep
        exact h.of_goTo (p := pid) rfl rfl (h.holder_goTo (by rw [hpc]; rfl)) (by simp) (by simp)
      · cases hstep

/-- The lock is refused exactly when somebody has it. -/
lemma LockfileOk.refusal (h : LockfileOk s) (hp : s.pc p = .opened file) :
    (s.step (.setlk p)).map (·.pc p) = some .refused ↔ ∃ q, (s.pc q).holds = some file := by
  rw [Lockfile.step, hp]
  dsimp only
  by_cases hfree : s.holder file = none
  · rw [if_pos hfree]
    refine iff_of_false (by simp) ?_
    rintro ⟨q, hq⟩
    rw [(h.holder q file).mpr hq] at hfree
    cases hfree
  · rw [if_neg hfree]
    obtain ⟨q, hq⟩ := Option.ne_none_iff_exists'.mp hfree
    exact iff_of_true (by simp [Lockfile.goTo]) ⟨q, (h.holder q file).mp hq⟩

/-- A daemon that is started when no other one has a lock gets through. -/
lemma LockfileOk.startCalls (h : LockfileOk s) (hfree : ∀ q, (s.pc q).holds = none)
    (hp : s.pc p = .idle) :
    ∃ s', lockfileSystem.run s (startCalls p) = some s' ∧ s'.pc p = .running ∧
      ∀ q, q ≠ p → s'.pc q = s.pc q := by
  have hnobody (f : ℕ) : s.holder f = none := by
    refine Option.eq_none_iff_forall_ne_some.mpr fun q hq => ?_
    have hq := (h.holder q f).mp hq
    rw [hfree q] at hq
    cases hq
  simp [StepSystem.run, StepSystem.runIf, lockfileSystem, G7.startCalls, Lockfile.step, hp, hnobody,
    Lockfile.goTo, Lockfile.put, Lockfile.closeFile]
  intro q hq
  rw [Function.update_of_ne hq]

end

/-! ## The rules -/

variable {s : Lockfile}

/-- **The rules of the lock file**, in every run of any number of daemons: while a daemon empties a
file and writes its process id no other one writes into it, so nobody finds more in a file than a
beginning of one process id; and a daemon that runs does not keep another one from starting. -/
theorem lockfile_rules (h : lockfileSystem.Reachable s) : LockfileRules s := by
  have hok : LockfileOk s :=
    h.invariant (fun _ hinit => .of_init hinit) fun _ _ _ _ hok _ hstep => hok.step hstep
  exact {
    exclusive := fun _ _ _ hp hq => hok.exclusive hp hq
    refusal := fun _ _ hp => hok.refusal hp
    onePid := hok.onePid
    written := hok.written
    notKept := fun hfree _ hp => hok.startCalls hfree hp }

/-- Nobody has been started and there is no file. -/
def noDaemons : Lockfile :=
  { named := none, nextFile := 0, contents := fun _ => [], holder := fun _ => none,
    pc := fun _ => .idle }

/-- Two daemons run, one started after the other. -/
theorem lockfile_rules_two : ∃ s, lockfileSystem.run noDaemons (startCalls 7 ++ startCalls 8) =
    some s ∧ s.pc 7 = .running ∧ s.pc 8 = .running ∧ s.contents 0 = pidLine 8 ∧
      LockfileRules s := by
  have hinit : lockfileSystem.init noDaemons :=
    ⟨fun _ => rfl, fun _ => rfl, fun _ => ⟨0, List.nil_prefix⟩,
      fun _ hf => by simp [noDaemons] at hf, fun _ _ => rfl⟩
  have hrun : (lockfileSystem.run noDaemons (startCalls 7 ++ startCalls 8)).map
      (fun s => (s.pc 7, s.pc 8, s.contents 0)) = some (.running, .running, pidLine 8) := by
    decide
  obtain ⟨s, hs, heq⟩ := Option.map_eq_some_iff.mp hrun
  simp only [Prod.mk.injEq] at heq
  exact ⟨s, hs, heq.1, heq.2.1, heq.2.2, lockfile_rules (StepSystem.reachable_run hinit hs)⟩

end G7
