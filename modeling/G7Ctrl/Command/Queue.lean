import G7Ctrl.Xstr.Copy
import Mathlib.Data.Fin.Tuple.Basic

/-!
# The command queue

A command that goes out over GPRS is answered on another socket, read by another thread.  The
queue `cmdq` is where the two meet: the client thread enters its command in a slot and polls the
slot, the tracker thread searches the queue for the command a reply belongs to and leaves the
reply in its slot.

The functions here are the ones of the source, each over one state of the queue.  Only
`cmdqueue_insert` and `cmdqueue_clridx` take the queue's mutex; how the steps of the threads
interleave is the subject of `G7Ctrl.Command.Gprs`.

* `cmdqueueInsert_some`, `cmdqueueInsert_eq_none_iff` — what an insertion does and when it fails.
* `cmdqueueMatch_eq_some_iff` — a match is the *first* entry that fits.
-/

namespace G7

/-- `MAX_CMDQUEUE_LEN` -/
def maxCmdqueueLen : ℕ := 128

/-- `CMDQUEUE_TIMEOUT`, in seconds. -/
def cmdqueueTimeout : ℕ := 30

/-- `struct cmdqueue_t` -/
structure CmdqueueEntry where
  userSockd : ℤ
  devid : ℕ
  ts : ℕ
  tag : CStr
  cmd : CStr
  reply : CStr
  validreply : Bool
  deriving DecidableEq

/-- A queue position. -/
abbrev CmdqueueIdx := Fin maxCmdqueueLen

/-- The array `cmdq`. -/
abbrev Cmdq := CmdqueueIdx → CmdqueueEntry

namespace CmdqueueEntry

/-- An entry that is all zero, as `memset` leaves it. -/
def zero : CmdqueueEntry := ⟨0, 0, 0, [], [], [], false⟩

/-- The test by which `cmdqueue_insert` finds an empty place. -/
def isFree (e : CmdqueueEntry) : Bool := e.devid = 0 ∧ e.ts = 0

/-- The test by which `cmdqueue_match` finds an entry: the device must be the same, and so must
the tag unless the reply has none. -/
def isMatch (devid : ℕ) (tag : CStr) (e : CmdqueueEntry) : Bool :=
  e.devid ≠ 0 ∧ e.devid = devid ∧ (tag ≠ [] → tag = e.tag)

@[simp] lemma isFree_zero : zero.isFree = true := rfl

lemma isFree_eq_true {e : CmdqueueEntry} : e.isFree = true ↔ e.devid = 0 ∧ e.ts = 0 := by
  simp [isFree]

lemma isMatch_eq_true {devid : ℕ} {tag : CStr} {e : CmdqueueEntry} :
    e.isMatch devid tag = true ↔ e.devid ≠ 0 ∧ e.devid = devid ∧ (tag ≠ [] → tag = e.tag) := by
  simp only [CmdqueueEntry.isMatch, decide_eq_true_eq]

end CmdqueueEntry

/-- `cmdqueue_init` -/
def cmdqueueInit : Cmdq := fun _ => .zero

/-- `cmdqueue_insert`: the queue with the new command and its position, or `none` for -1.  The
`reply` and `validreply` of the entry are left as they are. -/
def cmdqueueInsert (cmdqLen : ℕ) (cmdq : Cmdq) (now : ℕ) (userSockd : ℤ) (devid : ℕ)
    (tag cmdstr : CStr) : Option (Cmdq × CmdqueueIdx) :=
  if cmdqLen ≥ maxCmdqueueLen then none
  else if tag.length > 5 ∨ cmdstr.length > 255 then none
  else
    (Fin.find? fun i => (cmdq i).isFree).map fun i =>
      (Function.update cmdq i
        { cmdq i with
          ts := now, devid := devid, userSockd := userSockd
          tag := xstrlcpy tag 6, cmd := xstrlcpy cmdstr 256 }, i)

/-- `cmdqueue_match`: the position of the matching entry, or `none` for -1. -/
def cmdqueueMatch (cmdq : Cmdq) (devid : ℕ) (tag : CStr) : Option CmdqueueIdx :=
  Fin.find? fun i => (cmdq i).isMatch devid tag

/-- `cmdqueue_clridx` -/
def cmdqueueClridx (cmdq : Cmdq) (i : CmdqueueIdx) : Cmdq := Function.update cmdq i .zero

/-- `xmb_strncpy(entry->reply, buffer, sizeof (entry->reply) - 1)` -/
def cmdqueueFill (cmdq : Cmdq) (i : CmdqueueIdx) (buffer : CStr) : Cmdq :=
  Function.update cmdq i { cmdq i with reply := xmbStrncpy buffer 1023 }

/-- `entry->validreply = TRUE` -/
def cmdqueueSetValid (cmdq : Cmdq) (i : CmdqueueIdx) : Cmdq :=
  Function.update cmdq i { cmdq i with validreply := true }

/-- What one round of the loop in `cmdqueue_check_reply` finds. -/
inductive PollResult
  | validreply
  | timeout
  | again
  deriving DecidableEq

/-- One round of the loop in `cmdqueue_check_reply`; `ts` is the entry's time stamp as an
`unsigned`, read before the loop. -/
def cmdqueuePoll (cmdq : Cmdq) (i : CmdqueueIdx) (ts now : ℕ) : PollResult :=
  if (cmdq i).validreply then .validreply
  else if now - ts > cmdqueueTimeout then .timeout
  else .again

/-- **What a successful insertion does**: it takes the first free position and writes the
command's data to it, the arguments being short enough not to be cut. -/
theorem cmdqueueInsert_some {cmdqLen now devid : ℕ} {cmdq cmdq' : Cmdq} {userSockd : ℤ}
    {tag cmdstr : CStr} {i : CmdqueueIdx}
    (h : cmdqueueInsert cmdqLen cmdq now userSockd devid tag cmdstr = some (cmdq', i)) :
    (cmdq i).isFree = true ∧ cmdstr.length ≤ 255 ∧
      cmdq' = Function.update cmdq i
        { cmdq i with ts := now, devid := devid, userSockd := userSockd, tag := tag,
                      cmd := cmdstr } := by
  simp only [cmdqueueInsert] at h
  split_ifs at h with hlen hsize
  obtain ⟨j, hj, heq⟩ := Option.map_eq_some_iff.mp h
  simp only [Prod.mk.injEq] at heq
  obtain ⟨rfl, rfl⟩ := heq
  have htag : xstrlcpy tag 6 = tag := List.take_of_length_le (by omega)
  have hcmd : xstrlcpy cmdstr 256 = cmdstr := List.take_of_length_le (by omega)
  exact ⟨(Fin.find?_eq_some_iff.mp hj).1, by omega, by rw [htag, hcmd]⟩

/-- **When an insertion fails**: the arguments are too long, or no position is free.  (The length
that is tested first is never increased by anyone.) -/
theorem cmdqueueInsert_eq_none_iff {now devid : ℕ} {cmdq : Cmdq} {userSockd : ℤ}
    {tag cmdstr : CStr} :
    cmdqueueInsert 0 cmdq now userSockd devid tag cmdstr = none ↔
      (5 < tag.length ∨ 255 < cmdstr.length) ∨ ∀ i, (cmdq i).isFree = false := by
  simp only [cmdqueueInsert]
  rw [if_neg (by decide)]
  split_ifs with hsize
  · simp [hsize]
  · simp [hsize]

/-- **A match is the first entry that fits.** -/
theorem cmdqueueMatch_eq_some_iff {cmdq : Cmdq} {devid : ℕ} {tag : CStr} {i : CmdqueueIdx} :
    cmdqueueMatch cmdq devid tag = some i ↔
      (cmdq i).isMatch devid tag = true ∧ ∀ j < i, (cmdq j).isMatch devid tag = false :=
  Fin.find?_eq_some_iff

end G7
