import G7Ctrl.Core.Bytes
import G7Ctrl.Core.Memory

/-!
# Going through the files of a directory (`process_files`)

The iterator calls a function for every file of a directory whose name ends in a suffix, with the
number of the call, up to a maximal number of files.  It does not look at what the function returns.

* `processFiles` — the iterator, for any callback.
* **`processLoop_eq`** — it is the calls for the matching files, in their order, up to the maximum.
-/

namespace G7

universe u

/-- An entry of a directory: its name, whether it is a regular file or a symbolic link, and what a
callback finds in it. -/
structure DirEntry (α : Type u) where
  dName : CStr
  isRegOrLnk : Bool
  contents : α

/-- What an iteration leaves: `numfiles`, and the state of the callback.  The third field is not in
the code: the files the callback was called for, and what it returned. -/
structure Processed (α σ : Type u) where
  numfiles : ℕ
  state : σ
  calls : List (DirEntry α × ℤ)

/-- A callback: it is given a file and the number of the call, and changes a state. -/
abbrev FileCallback (α σ : Type u) := DirEntry α → ℕ → σ → Checked (ℤ × σ)

section

variable {α σ : Type u} (suffix : CStr) (maxfiles : ℕ)

/-- The test of a name.  The comparison is of at most nine characters. -/
def hasSuffix (dName : CStr) : Bool :=
  if 1 < suffix.length then
    suffix.length < dName.length ∧
      suffix.take 9 = (dName.drop (dName.length - suffix.length)).take 9
  else true

/-- An entry the callback is called for. -/
def DirEntry.isMatch (f : DirEntry α) : Bool :=
  f.dName ≠ str "." ∧ f.dName ≠ str ".." ∧ hasSuffix suffix f.dName ∧ f.isRegOrLnk

/-- The loop over the directory. -/
def processLoop (callback : FileCallback α σ) :
    List (DirEntry α) → Processed α σ → Checked (ℤ × Processed α σ)
  | [], p => .done (0, p)
  | f :: fs, p =>
      if f.isMatch suffix then
        if maxfiles ≤ p.numfiles then .done (-1, p)
        else do
          let r ← callback f p.numfiles p.state
          processLoop callback fs ⟨p.numfiles + 1, r.2, p.calls ++ [(f, r.1)]⟩
      else processLoop callback fs p

/-- `process_files`, for a directory that cannot be opened or has these entries. -/
def processFiles (callback : FileCallback α σ) (dir : Option (List (DirEntry α))) (state : σ) :
    Checked (ℤ × Processed α σ) :=
  match dir with
  | none => .done (-1, ⟨0, state, []⟩)
  | some entries => processLoop suffix maxfiles callback entries ⟨0, state, []⟩

/-- The calls for the given files, one after the other. -/
def runCalls (callback : FileCallback α σ) :
    List (DirEntry α) → Processed α σ → Checked (Processed α σ)
  | [], p => .done p
  | f :: fs, p => do
      let r ← callback f p.numfiles p.state
      runCalls callback fs ⟨p.numfiles + 1, r.2, p.calls ++ [(f, r.1)]⟩

/-- The files the callback is to be called for. -/
def matchingFiles (entries : List (DirEntry α)) : List (DirEntry α) :=
  entries.filter (·.isMatch suffix)

/-- 0, or -1 when there are too many files. -/
def processRc (n : ℕ) : ℤ := if n ≤ maxfiles then 0 else -1

variable {suffix maxfiles} {callback : FileCallback α σ}

/-- **The loop is the calls for the matching files**, and fails when there are too many of them. -/
theorem processLoop_eq (entries : List (DirEntry α)) (p : Processed α σ)
    (hp : p.numfiles ≤ maxfiles) :
    processLoop suffix maxfiles callback entries p =
      runCalls callback ((matchingFiles suffix entries).take (maxfiles - p.numfiles)) p >>=
        fun p' =>
          .done (processRc maxfiles (p.numfiles + (matchingFiles suffix entries).length), p') := by
  induction entries generalizing p with
  | nil =>
      rw [processLoop, matchingFiles, List.filter_nil, List.take_nil, runCalls, Checked.done_bind,
        List.length_nil, Nat.add_zero, processRc, if_pos hp]
  | cons f fs ih =>
      by_cases hmatch : f.isMatch suffix = true
      · have hmatching : matchingFiles suffix (f :: fs) = f :: matchingFiles suffix fs :=
          List.filter_cons_of_pos hmatch
        rw [processLoop, if_pos hmatch, hmatching, List.length_cons]
        split_ifs with hfull
        · rw [Nat.sub_eq_zero_of_le hfull, List.take_zero, runCalls, Checked.done_bind, processRc,
            if_neg (by omega)]
        · obtain ⟨room, hroom⟩ : ∃ room, maxfiles - p.numfiles = room + 1 :=
            ⟨maxfiles - p.numfiles - 1, by omega⟩
          rw [hroom, List.take_succ_cons, runCalls, Checked.bind_assoc]
          congr 1
          funext r
          rw [ih _ (show p.numfiles + 1 ≤ maxfiles by omega)]
          dsimp only
          rw [show maxfiles - (p.numfiles + 1) = room by omega, Nat.add_assoc, Nat.add_comm 1]
      · have hmatching : matchingFiles suffix (f :: fs) = matchingFiles suffix fs :=
          List.filter_cons_of_neg hmatch
        rw [processLoop, if_neg hmatch, hmatching, ih p hp]

/-- What a directory leaves. -/
lemma processFiles_some (entries : List (DirEntry α)) (state : σ) :
    processFiles suffix maxfiles callback (some entries) state =
      runCalls callback ((matchingFiles suffix entries).take maxfiles) ⟨0, state, []⟩ >>= fun p =>
        .done (processRc maxfiles (matchingFiles suffix entries).length, p) := by
  rw [processFiles, processLoop_eq _ _ (Nat.zero_le _)]
  simp only [Nat.sub_zero, Nat.zero_add]

end

end G7
