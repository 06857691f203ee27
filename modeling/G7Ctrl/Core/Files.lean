import G7Ctrl.Core.Bytes
import Mathlib.Data.List.DropRight
import Mathlib.Logic.Function.Basic

/-!
# Files and paths

A file system is a map from the names of files to their contents.  A path names a file by its
components: slashes that follow each other count as one, slashes at the end do not count, and a
component `.` stands for nothing.

* `FileName`, `fileName` — the name of a file, and the one a path stands for.
* `basename`, `dirname` — the two parts of a path.
* `Files`, `Files.stat`, `Files.rename` — a file system and its operations.
* **`fileName_basename`** — a path is its directory part and its base name, and any other name put
  in the place of the base name is this name in the directory.
* **`rename_eq`** — a rename that is not refused moves one file.
-/

namespace G7

/-! ## Paths -/

/-- The components of a path. -/
def components (path : CStr) : List CStr :=
  (path.splitOn (ch '/')).filter fun c => decide (c ≠ [] ∧ c ≠ [ch '.'])

/-- What identifies a file: whether its path begins at the root, and the components. -/
structure FileName where
  absolute : Bool
  components : List CStr
  deriving DecidableEq

/-- The file a path stands for. -/
def fileName (path : CStr) : FileName where
  absolute := path.head? == some (ch '/')
  components := components path

/-- A path without the slashes at its end. -/
def trimSlashes (path : CStr) : CStr := path.rdropWhile (· == ch '/')

/-- `basename` -/
def basename (path : CStr) : CStr :=
  if path = [] then [ch '.']
  else if trimSlashes path = [] then [ch '/']
  else (trimSlashes path).rtakeWhile (· != ch '/')

/-- What is in front of the base name. -/
def dirPart (path : CStr) : CStr := (trimSlashes path).rdropWhile (· != ch '/')

/-- `dirname` -/
def dirname (path : CStr) : CStr :=
  if trimSlashes path = [] then (if path = [] then [ch '.'] else [ch '/'])
  else if dirPart path = [] then [ch '.']
  else if trimSlashes (dirPart path) = [] then [ch '/']
  else trimSlashes (dirPart path)

/-- A separator separates. -/
lemma splitOn_append_sep (sep : Byte) (b : CStr) : ∀ a : CStr,
    (a ++ sep :: b).splitOn sep = a.splitOn sep ++ b.splitOn sep
  | [] => by simp [List.splitOn_cons_eq_if_modifyHead]
  | c :: cs => by
      have ih := splitOn_append_sep sep b cs
      rw [List.cons_append, List.splitOn_cons_eq_if_modifyHead,
        List.splitOn_cons_eq_if_modifyHead, ih]
      split_ifs
      · rfl
      · cases hcs : cs.splitOn sep with
        | nil => exact absurd hcs (List.splitOn_ne_nil sep cs)
        | cons t ts => rfl

@[simp] lemma components_nil : components [] = [] := by
  simp [components]

@[simp] lemma components_dot : components [ch '.'] = [] := by
  decide

/-- The components on the two sides of a slash. -/
lemma components_slash (a b : CStr) :
    components (a ++ ch '/' :: b) = components a ++ components b := by
  rw [components, splitOn_append_sep, List.filter_append]
  rfl

/-- Slashes at the end do not count. -/
lemma components_append_slashes {s : CStr} (hs : ∀ c ∈ s, c = ch '/') (a : CStr) :
    components (a ++ s) = components a := by
  induction s generalizing a with
  | nil => rw [List.append_nil]
  | cons c cs ih =>
      obtain rfl : c = ch '/' := hs c List.mem_cons_self
      have htail : components (a ++ ch '/' :: cs) = components a ++ components ([] ++ cs) :=
        components_slash a cs
      rw [htail, ih (fun c hc => hs c (List.mem_cons_of_mem _ hc)), components_nil,
        List.append_nil]

/-- A path is its trimmed part and slashes. -/
lemma trimSlashes_append (path : CStr) :
    ∃ s, path = trimSlashes path ++ s ∧ ∀ c ∈ s, c = ch '/' := by
  refine ⟨path.rtakeWhile (· == ch '/'), (List.rdropWhile_append_rtakeWhile ..).symm, ?_⟩
  intro c hc
  simpa using List.mem_rtakeWhile_imp hc

lemma components_trimSlashes (path : CStr) : components (trimSlashes path) = components path := by
  obtain ⟨s, hpath, hs⟩ := trimSlashes_append path
  exact (components_append_slashes hs _).symm.trans (congrArg components hpath.symm)

/-- The directory part ends with a slash, if there is one. -/
lemma dirPart_eq_concat {path : CStr} (h : dirPart path ≠ []) :
    ∃ d, dirPart path = d ++ [ch '/'] := by
  have hlast := List.rdropWhile_last_not (p := (· != ch '/')) (trimSlashes path) h
  refine ⟨(dirPart path).dropLast, ?_⟩
  have hslash : (dirPart path).getLast h = ch '/' := by simpa [dirPart] using hlast
  rw [← hslash, List.dropLast_append_getLast]

/-- The base name of a path that is not made of slashes. -/
lemma basename_eq {path : CStr} (h : trimSlashes path ≠ []) :
    trimSlashes path = dirPart path ++ basename path ∧ basename path ≠ [] ∧
      ch '/' ∉ basename path := by
  have hpath : path ≠ [] := by
    rintro rfl
    exact h rfl
  have hbase : basename path = (trimSlashes path).rtakeWhile (· != ch '/') := by
    rw [basename, if_neg hpath, if_neg h]
  rw [hbase]
  refine ⟨(List.rdropWhile_append_rtakeWhile ..).symm, fun hnil => ?_, fun hmem => ?_⟩
  · have hlast := List.rtakeWhile_eq_nil_iff.mp hnil h
    exact List.rdropWhile_last_not (p := (· == ch '/')) path h (by simpa [trimSlashes] using hlast)
  · simpa using List.mem_rtakeWhile_imp hmem

/-- The directory part, as the directory it stands for. -/
lemma fileName_dirname {path b : CStr} (h : trimSlashes path ≠ []) (hb : b ≠ [])
    (hslash : ch '/' ∉ b) :
    fileName (dirname path ++ ch '/' :: b) = fileName (dirPart path ++ b) := by
  obtain ⟨c, cs, rfl⟩ := List.exists_cons_of_ne_nil hb
  have hc : c ≠ ch '/' := fun hc => hslash (hc ▸ List.mem_cons_self)
  by_cases hdir : dirPart path = []
  · have hname : dirname path = [ch '.'] := by rw [dirname, if_neg h, if_pos hdir]
    have hdot : ch '.' ≠ ch '/' := by decide
    have hcs : components (ch '.' :: ch '/' :: c :: cs) = components (c :: cs) := by
      rw [← List.singleton_append, components_slash, components_dot, List.nil_append]
    simp [fileName, hname, hdir, hc, hdot, hcs]
  · obtain ⟨d, hd⟩ := dirPart_eq_concat hdir
    have hcomp : components (dirPart path ++ c :: cs)
        = components (dirPart path) ++ components (c :: cs) := by
      rw [hd, List.append_assoc, List.singleton_append, components_slash, components_slash,
        components_nil, List.append_nil]
    have hhead : ∀ x, (dirPart path ++ x).head? = (dirPart path).head? := by
      intro x
      rw [List.head?_append_of_ne_nil _ hdir]
    obtain ⟨s, hs, hsl⟩ := trimSlashes_append (dirPart path)
    by_cases htrim : trimSlashes (dirPart path) = []
    · have hname : dirname path = [ch '/'] := by
        rw [dirname, if_neg h, if_neg hdir, if_pos htrim]
      have hroot : (dirPart path).head? = some (ch '/') := by
        obtain ⟨e, es, he⟩ := List.exists_cons_of_ne_nil hdir
        rw [htrim, List.nil_append] at hs
        rw [he, List.head?_cons, hsl e (by rw [← hs, he]; exact List.mem_cons_self)]
      have hnone : components (dirPart path) = [] := by
        rw [← components_trimSlashes, htrim, components_nil]
      have hcs := components_slash [ch '/'] (c :: cs)
      have hone : components [ch '/'] = [] := by decide
      simp only [fileName, hname, hcomp, hhead, hroot, hnone, hcs, hone]
      rfl
    · have hname : dirname path = trimSlashes (dirPart path) := by
        rw [dirname, if_neg h, if_neg hdir, if_neg htrim]
      have hfirst : (dirPart path).head? = (trimSlashes (dirPart path)).head? := by
        conv_lhs => rw [hs]
        rw [List.head?_append_of_ne_nil _ htrim]
      simp only [fileName, hname, hcomp, hhead, hfirst, components_slash, components_trimSlashes,
        List.head?_append_of_ne_nil _ htrim]

/-- **The two parts of a path**: behind its directory part it has its base name, and another name
put there is this name in the directory. -/
theorem fileName_basename {path : CStr} (h : trimSlashes path ≠ []) :
    ∃ s, path = dirPart path ++ basename path ++ s ∧ (∀ c ∈ s, c = ch '/') ∧
      ∀ b, b ≠ [] → ch '/' ∉ b →
        fileName (dirname path ++ ch '/' :: b) = fileName (dirPart path ++ b ++ s) := by
  obtain ⟨s, hs, hslashes⟩ := trimSlashes_append path
  refine ⟨s, by rw [← (basename_eq h).1, ← hs], hslashes, fun b hb hslash => ?_⟩
  have hne : dirPart path ++ b ≠ [] := by simp [hb]
  rw [fileName_dirname h hb hslash, fileName, fileName, components_append_slashes hslashes,
    List.head?_append_of_ne_nil _ hne]

/-! ## File systems -/

/-- A map from names to contents. -/
abbrev Files (α : Type*) := FileName → Option α

/-- How `stat` ends: it finds the file, there is none (`ENOENT`), or it fails for another reason. -/
inductive Stat
  | found
  | noEntry
  | failed
  deriving DecidableEq

namespace Files

variable {α : Type*} (fs : Files α)

/-- The contents of the file at a path; an empty path stands for no file. -/
def read (path : CStr) : Option α := if path = [] then none else fs (fileName path)

/-- `stat` where it fails for absent files only. -/
def stat (path : CStr) : Stat := if (fs.read path).isSome then .found else .noEntry

/-- A file gets new contents. -/
def write (path : CStr) (c : α) : Files α := Function.update fs (fileName path) (some c)

/-- `rename`, which the system may refuse. -/
def rename (refused : Bool) (old new : CStr) : ℤ × Files α :=
  match fs.read old with
  | none => (-1, fs)
  | some c =>
      if refused ∨ new = [] then (-1, fs)
      else (0, if fileName old = fileName new then fs
        else Files.write (Function.update fs (fileName old) none) new c)

variable {fs}

lemma stat_eq_found {path : CStr} : fs.stat path = .found ↔ ∃ c, fs.read path = some c := by
  rw [stat, ← Option.isSome_iff_exists]
  split_ifs with h <;> simp [h]

lemma stat_ne_found {path : CStr} : fs.stat path ≠ .found ↔ fs.read path = none := by
  rw [Ne, stat_eq_found]
  cases fs.read path <;> simp

lemma stat_ne_failed (path : CStr) : fs.stat path ≠ .failed := by
  rw [stat]
  split_ifs <;> simp

/-- One file has moved to a free name. -/
structure Moved (fs fs' : Files α) (old new : CStr) (c : α) : Prop where
  source : fs.read old = some c
  free : fs.read new = none
  named : new ≠ []
  gone : fs' (fileName old) = none
  there : fs' (fileName new) = some c
  frame : ∀ f, f ≠ fileName old → f ≠ fileName new → fs' f = fs f

/-- **A rename to a free name** moves the file, unless it is refused. -/
theorem rename_eq {refused : Bool} {old new : CStr} {c : α} (hold : fs.read old = some c)
    (hnew : fs.read new = none) (hne : new ≠ []) :
    (refused = true ∧ fs.rename refused old new = (-1, fs)) ∨
      (refused = false ∧ ∃ fs', fs.rename refused old new = (0, fs') ∧ Moved fs fs' old new c) := by
  cases refused with
  | true => exact Or.inl ⟨rfl, by simp [rename, hold]⟩
  | false =>
      have hdiff : fileName new ≠ fileName old := by
        intro heq
        have hold' : fs (fileName old) = some c := by
          rw [read] at hold
          split_ifs at hold
          exact hold
        rw [read, if_neg hne, heq, hold'] at hnew
        cases hnew
      refine Or.inr ⟨rfl, write (Function.update fs (fileName old) none) new c, ?_, ?_⟩
      · simp [rename, hold, hne, Ne.symm hdiff]
      · refine ⟨hold, hnew, hne, ?_, ?_, fun f hf hf' => ?_⟩
        · rw [write, Function.update_of_ne (Ne.symm hdiff), Function.update_self]
        · rw [write, Function.update_self]
        · rw [write, Function.update_of_ne hf', Function.update_of_ne hf]

end Files

end G7
