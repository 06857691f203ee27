import G7Ctrl.Core.Files
import G7Ctrl.Xstr.Number
import Mathlib.Data.PNat.Basic

/-!
# Moving a file to a free name (`mv_and_rename` of `futils.c`)

When there is a file with the name that a file is to get, it gets a number between the name and the
suffix.  The name is cut into directory, base name and suffix, each with a buffer of its own, and the
numbers are tried from 1 on until one is free.

* `searchLoop` — the search; with the last number it gives up, whether the name is free or not.
* `mvAndRename` — the function.
* `withNumber` — a path with a number before its suffix.
* **`searchLoop_spec`** — what the search finds, and when it ends.
* **`mvAndRename_eq`** — a call is a rename to the name that `newName` gives, or changes nothing.
* **`mvAndRename_cases`** — when it moves the file.
* **`mvAndRename_safe`** — no call overwrites a file.
-/

namespace G7

variable {α : Type*}

/-- The loop over `short_filename` from the right: where it finds a dot, or 0. -/
def dotFrom (shortFilename : CStr) : ℕ → ℕ
  | 0 => 0
  | k + 1 => if byteAt shortFilename (k + 1) = ch '.' then k + 1 else dotFrom shortFilename k

/-- `short_filename` and `suffix` as they are cut apart, or nothing if the name has no suffix or one
that is too long. -/
def cutSuffix (shortFilename : CStr) : Option (CStr × CStr) :=
  let k := dotFrom shortFilename (shortFilename.length - 1)
  if byteAt shortFilename k = ch '.' then
    if 7 < (shortFilename.drop k).length then none
    else some (shortFilename.take k, (shortFilename.drop k).take 7)
  else none

/-- `%03d` -/
def dec03 (n : ℕ) : CStr := (dec n).leftpad 3 (ch '0')

/-- `snprintf(buff1, 512, "%s/%s_%03d%s", ...)` -/
def numberedName (toDirectory shortFilename suffix : CStr) (i : ℕ) : CStr :=
  snprintf 512 (toDirectory ++ ch '/' :: (shortFilename ++ ch '_' :: (dec03 i ++ suffix)))

/-- The search for a free name, with `i` names tried: the last number, and the names it asks for. -/
def searchLoop (stat : CStr → Stat) (name : ℕ → CStr) (i : ℕ) : ℕ × List CStr :=
  if i + 1 < 999 ∧ stat (name (i + 1)) = .found then
    ((searchLoop stat name (i + 1)).1, name (i + 1) :: (searchLoop stat name (i + 1)).2)
  else (i + 1, [name (i + 1)])
termination_by 999 - i

/-- What a call returns and leaves. -/
structure MoveResult (α : Type*) where
  ret : ℤ
  files : Files α
  /-- What it writes to `newname`. -/
  newname : Option CStr
  /-- The names the search asks for. -/
  probed : List CStr

/-- `strncpy(buff1, to, 255)`: a name of 255 bytes goes on with what is behind them. -/
def copyPath (stack : List Byte) (toPath : CStr) : CStr :=
  if toPath.length < 255 then toPath else toPath.take 255 ++ cstr stack

/-- The end of `mv_and_rename`: the rename itself. -/
def renameTo (refused : Bool) (fs : Files α) (fromPath buff1 : CStr) (maxlen : Option ℕ+)
    (probed : List CStr) : MoveResult α where
  ret := (fs.rename refused fromPath buff1).1
  files := (fs.rename refused fromPath buff1).2
  newname := maxlen.map fun n => buff1.take n.natPred
  probed := probed

/-- `mv_and_rename`, where `stat` is what the system answers, `refused` whether it refuses the
rename, `stack` the memory behind the first 255 bytes of `buff1`, and `maxlen` the size of `newname`
if this is not `NULL`. -/
def mvAndRename (stat : CStr → Stat) (refused : Bool) (stack : List Byte) (fs : Files α)
    (fromPath toPath : CStr) (maxlen : Option ℕ+) : MoveResult α :=
  let failed : MoveResult α := { ret := -1, files := fs, newname := none, probed := [] }
  if stat fromPath ≠ .found then failed
  else
    match stat toPath with
    | .found =>
        let buff1 := copyPath stack toPath
        match cutSuffix ((basename buff1).take 127) with
        | none => failed
        | some (shortFilename, suffix) =>
            let name := numberedName ((dirname buff1).take 255) shortFilename suffix
            let search := searchLoop stat name 0
            if 999 ≤ search.1 then { failed with probed := search.2 }
            else renameTo refused fs fromPath (name search.1) maxlen search.2
    | .noEntry => renameTo refused fs fromPath (toPath.take 255) maxlen []
    | .failed => failed

/-! ## The search -/

/-- **The search** tries at most 999 names, and one before the last was not found. -/
theorem searchLoop_spec (stat : CStr → Stat) (name : ℕ → CStr) {i : ℕ} (hi : i < 999) :
    i < (searchLoop stat name i).1 ∧ (searchLoop stat name i).1 ≤ 999 ∧
      (searchLoop stat name i).2.length = (searchLoop stat name i).1 - i ∧
      ((searchLoop stat name i).1 < 999 → stat (name (searchLoop stat name i).1) ≠ .found) ∧
      ((searchLoop stat name i).1 < 999 ↔ ∃ n, i < n ∧ n < 999 ∧ stat (name n) ≠ .found) := by
  induction i using searchLoop.induct stat name with
  | case1 i h ih =>
      obtain ⟨hlt, hle, hlen, hfree, hiff⟩ := ih h.1
      rw [searchLoop, if_pos h]
      refine ⟨Nat.lt_of_succ_lt hlt, hle, ?_, hfree, hiff.trans ?_⟩
      · have hsub : ∀ k, i + 1 < k → k - (i + 1) + 1 = k - i := fun k hk => by omega
        rw [List.length_cons, hlen, hsub _ hlt]
      · constructor
        · rintro ⟨n, hn, hn', hne⟩
          exact ⟨n, by omega, hn', hne⟩
        · rintro ⟨n, hn, hn', hne⟩
          have hdiff : n ≠ i + 1 := by
            rintro rfl
            exact hne h.2
          exact ⟨n, by omega, hn', hne⟩
  | case2 i h =>
      rw [searchLoop, if_neg h]
      refine ⟨by simp, Nat.succ_le_of_lt hi, by simp, fun hlt => ?_, fun hlt => ?_, ?_⟩
      · exact fun hfound => h ⟨hlt, hfound⟩
      · exact ⟨i + 1, by simp, hlt, fun hfound => h ⟨hlt, hfound⟩⟩
      · rintro ⟨n, hn, hn', -⟩
        simp only
        omega

/-! ## The names -/

/-- The loop finds the last dot. -/
lemma dotFrom_spec (s : CStr) : ∀ k : ℕ, byteAt s (dotFrom s k) = ch '.' →
    dotFrom s k ≤ k ∧ ∀ j, dotFrom s k < j → j ≤ k → byteAt s j ≠ ch '.'
  | 0, _ => ⟨Nat.le_refl 0, fun j h h' => absurd h (by rw [dotFrom]; omega)⟩
  | k + 1, h => by
      rw [dotFrom] at h ⊢
      split_ifs at h ⊢ with hdot
      · exact ⟨Nat.le_refl _, fun j hj hj' => absurd hj (by omega)⟩
      · obtain ⟨hle, hlast⟩ := dotFrom_spec s k h
        refine ⟨by omega, fun j hj hj' => ?_⟩
        by_cases heq : j = k + 1
        · exact heq ▸ hdot
        · exact hlast j hj (by omega)

lemma byteAt_eq {s : CStr} {i : ℕ} (hi : i < s.length) : byteAt s i = s[i] := by
  simp [byteAt, hi]

/-- A name that is cut is its two parts, and the second is its suffix. -/
lemma cutSuffix_some {s short suffix : CStr} (h : cutSuffix s = some (short, suffix)) :
    s = short ++ suffix ∧ suffix.length ≤ 7 ∧ ∃ rest, suffix = ch '.' :: rest ∧ ch '.' ∉ rest := by
  simp only [cutSuffix] at h
  generalize hk : dotFrom s (s.length - 1) = k at h
  split_ifs at h with hdot hlong
  simp only [Option.some.injEq, Prod.mk.injEq] at h
  obtain ⟨rfl, rfl⟩ := h
  have hall : (s.drop k).take 7 = s.drop k := List.take_of_length_le (by omega)
  rw [hall]
  refine ⟨(List.take_append_drop k s).symm, by omega, s.drop (k + 1), ?_, fun hmem => ?_⟩
  · have hin : k < s.length := by
      by_contra hout
      rw [byteAt, List.getD_eq_getElem?_getD, List.getElem?_eq_none (by omega)] at hdot
      exact absurd hdot (by decide)
    rw [byteAt_eq hin] at hdot
    rw [List.drop_eq_getElem_cons hin, hdot]
  · obtain ⟨j, hj, hget⟩ := List.getElem_of_mem hmem
    rw [List.length_drop] at hj
    rw [List.getElem_drop] at hget
    have hbyte : byteAt s (k + 1 + j) = ch '.' := (byteAt_eq (by omega)).trans hget
    have hlast := (dotFrom_spec s (s.length - 1) (by rw [hk]; exact hdot)).2
    exact hlast (k + 1 + j) (by omega) (by omega) hbyte

/-- The number of a file is put before its suffix. -/
def withNumber (path : CStr) (n : ℕ) : CStr :=
  (path.rdropWhile (· != ch '.')).dropLast ++ ch '_' :: (dec03 n ++
    ch '.' :: path.rtakeWhile (· != ch '.'))

lemma withNumber_eq {rest : CStr} (hrest : ch '.' ∉ rest) (front : CStr) (n : ℕ) :
    withNumber (front ++ ch '.' :: rest) n
      = front ++ ch '_' :: (dec03 n ++ ch '.' :: rest) := by
  have hall : ∀ c ∈ rest.reverse, (c != ch '.') = true := by
    intro c hc
    rw [List.mem_reverse] at hc
    simp only [bne_iff_ne]
    rintro rfl
    exact hrest hc
  simp [withNumber, List.rdropWhile, List.rtakeWhile, List.dropWhile_append_of_pos hall,
    List.takeWhile_append_of_pos hall]

lemma dec03_length {n : ℕ} (hn : n < 1000) : (dec03 n).length = 3 := by
  have hlen : (dec n).length ≤ 3 := by
    rw [dec, List.length_map]
    exact (Nat.length_toDigits_le_iff (by omega) (by omega)).mpr (by omega)
  rw [dec03, List.length_leftpad]
  omega

lemma slash_notMem_dec03 (n : ℕ) : ch '/' ∉ dec03 n := by
  intro h
  rw [dec03, List.leftpad, List.mem_append] at h
  rcases h with h | h
  · exact absurd (List.eq_of_mem_replicate h) (by decide)
  · exact absurd (isDigit_of_mem_dec n _ h) (by decide)

lemma dirname_length_le (path : CStr) : (dirname path).length ≤ max 1 path.length := by
  have htrim : ∀ p : CStr, (trimSlashes p).length ≤ p.length :=
    fun p => (List.rdropWhile_prefix _ p).length_le
  have hdir : (dirPart path).length ≤ (trimSlashes path).length :=
    (List.rdropWhile_prefix _ _).length_le
  have h := htrim path
  have h' := htrim (dirPart path)
  rw [dirname]
  split_ifs <;> simp
  omega

/-! ## The call -/

/-- The name a call gives to the file, if it finds one. -/
def newName (stat : CStr → Stat) (stack : List Byte) (toPath : CStr) : Option CStr :=
  match stat toPath with
  | .found =>
      (cutSuffix ((basename (copyPath stack toPath)).take 127)).bind fun parts =>
        let name :=
          numberedName ((dirname (copyPath stack toPath)).take 255) parts.1 parts.2
        if 999 ≤ (searchLoop stat name 0).1 then none else some (name (searchLoop stat name 0).1)
  | .noEntry => some (toPath.take 255)
  | .failed => none

/-- **A call is a rename to this name**, or changes nothing. -/
theorem mvAndRename_eq (stat : CStr → Stat) (refused : Bool) (stack : List Byte) (fs : Files α)
    (fromPath toPath : CStr) (maxlen : Option ℕ+) :
    let r := mvAndRename stat refused stack fs fromPath toPath maxlen
    r.probed.length ≤ 999 ∧ (r.ret, r.files) =
      match newName stat stack toPath with
      | some new => if stat fromPath = .found then fs.rename refused fromPath new else (-1, fs)
      | none => (-1, fs) := by
  by_cases hfrom : stat fromPath = .found
  · cases hto : stat toPath with
    | found =>
        cases hcut : cutSuffix ((basename (copyPath stack toPath)).take 127) with
        | none => simp [mvAndRename, newName, hfrom, hto, hcut]
        | some parts =>
            obtain ⟨short, suffix⟩ := parts
            simp only [mvAndRename, newName, hfrom, hto, hcut, ne_eq, not_true_eq_false, if_false,
              if_true, Option.bind_some]
            generalize hname : numberedName ((dirname (copyPath stack toPath)).take 255) short
              suffix = name
            obtain ⟨-, hle, hlen, -⟩ := searchLoop_spec stat name (i := 0) (by omega)
            split_ifs
            · exact ⟨by simp only; omega, rfl⟩
            · exact ⟨by simp only [renameTo]; omega, rfl⟩
    | noEntry => simp [mvAndRename, newName, hfrom, hto, renameTo]
    | failed => simp [mvAndRename, newName, hfrom, hto]
  · simp only [mvAndRename, hfrom, ne_eq, not_false_eq_true, if_true, if_false]
    refine ⟨by simp, ?_⟩
    cases newName stat stack toPath <;> rfl

/-- The name is free. -/
lemma read_newName {fs : Files α} {stack : List Byte} {toPath new : CStr}
    (hlen : toPath.length ≤ 255) (h : newName fs.stat stack toPath = some new) :
    fs.read new = none := by
  rw [newName] at h
  cases hto : fs.stat toPath with
  | found =>
      simp only [hto, Option.bind_eq_some_iff] at h
      obtain ⟨⟨short, suffix⟩, -, h⟩ := h
      simp only at h
      generalize numberedName ((dirname (copyPath stack toPath)).take 255) short suffix = name at h
      obtain ⟨-, -, -, hfree, -⟩ := searchLoop_spec fs.stat name (i := 0) (by omega)
      split_ifs at h with hlast
      rw [Option.some.injEq] at h
      exact Files.stat_ne_found.mp (h ▸ hfree (by omega))
  | noEntry =>
      simp only [hto, Option.some.injEq] at h
      rw [← h, List.take_of_length_le hlen]
      exact Files.stat_ne_found.mp (by simp [hto])
  | failed => exact absurd hto (Files.stat_ne_failed toPath)

/-- Where a number goes when the path is put together again. -/
lemma fileName_numberedName {path short suffix : CStr} (hne : path ≠ [])
    (hpath : path.length < 255) (hbase : (basename path).length < 128)
    (hcut : cutSuffix ((basename path).take 127) = some (short, suffix)) {n : ℕ}
    (hn : n < 1000) :
    fileName (numberedName ((dirname path).take 255) short suffix n)
      = fileName (withNumber path n) := by
  rw [List.take_of_length_le (by omega)] at hcut
  obtain ⟨hsplit, hsuffix, rest, rfl, hrest⟩ := cutSuffix_some hcut
  have htrim : trimSlashes path ≠ [] := by
    intro hnil
    have hmem : ch '.' ∈ basename path := by simp [hsplit]
    rw [basename, if_neg hne, if_pos hnil] at hmem
    exact absurd hmem (by decide)
  obtain ⟨s, hwhole, hs, hput⟩ := fileName_basename htrim
  have hdir := dirname_length_le path
  have hnum := dec03_length hn
  have hlen : (basename path).length = short.length + (rest.length + 1) := by
    rw [hsplit]
    simp
  have hfits : numberedName ((dirname path).take 255) short (ch '.' :: rest) n
      = dirname path ++ ch '/' :: (short ++ ch '_' :: (dec03 n ++ ch '.' :: rest)) := by
    rw [numberedName, List.take_of_length_le (by omega), snprintf_of_lt]
    simp only [List.length_append, List.length_cons] at hsuffix ⊢
    omega
  have hslash : ch '/' ∉ short ++ ch '_' :: (dec03 n ++ ch '.' :: rest) := by
    have hno := (basename_eq htrim).2.2
    rw [hsplit, List.mem_append, List.mem_cons, not_or, not_or] at hno
    have hsign : ch '/' ≠ ch '_' := by decide
    simp [hno, hsign, slash_notMem_dec03]
  have hno : ch '.' ∉ rest ++ s := by
    rw [List.mem_append, not_or]
    exact ⟨hrest, fun h => absurd (hs _ h) (by decide)⟩
  have hwith : withNumber path n
      = dirPart path ++ (short ++ ch '_' :: (dec03 n ++ ch '.' :: rest)) ++ s := by
    have hsame : path = dirPart path ++ short ++ ch '.' :: (rest ++ s) := by
      conv_lhs => rw [hwhole, hsplit]
      simp
    conv_lhs => rw [hsame, withNumber_eq hno]
    simp
  rw [hfits, hput _ (by simp) hslash, hwith]

/-- The name is the path, or this with a number. -/
lemma newName_cases {fs : Files α} {stack : List Byte} {toPath new : CStr}
    (hlen : toPath.length < 255) (hbase : (basename toPath).length < 128)
    (h : newName fs.stat stack toPath = some new) :
    new = toPath ∨ ∃ n, 1 ≤ n ∧ n < 999 ∧ fileName new = fileName (withNumber toPath n) := by
  rw [newName] at h
  cases hto : fs.stat toPath with
  | found =>
      have hne : toPath ≠ [] := by
        rintro rfl
        simp [Files.stat, Files.read] at hto
      have hcopy : copyPath stack toPath = toPath := if_pos hlen
      simp only [hto, hcopy, Option.bind_eq_some_iff] at h
      obtain ⟨⟨short, suffix⟩, hcut, h⟩ := h
      simp only at h
      obtain ⟨hpos, -⟩ := searchLoop_spec fs.stat
        (numberedName ((dirname toPath).take 255) short suffix) (i := 0) (by omega)
      split_ifs at h with hlast
      rw [Option.some.injEq] at h
      refine Or.inr ⟨_, hpos, by omega, ?_⟩
      rw [← h]
      exact fileName_numberedName hne hlen hbase hcut (by omega)
  | noEntry =>
      simp only [hto, Option.some.injEq] at h
      exact Or.inl (h.symm.trans (List.take_of_length_le (by omega)))
  | failed => exact absurd hto (Files.stat_ne_failed toPath)

/-- One of the numbers that are tried is free. -/
def HasFreeNumber (fs : Files α) (stack : List Byte) (path : CStr) : Prop :=
  ∃ parts, cutSuffix ((basename (copyPath stack path)).take 127) = some parts ∧
    ∃ n, 0 < n ∧ n < 999 ∧ fs.read
      (numberedName ((dirname (copyPath stack path)).take 255) parts.1 parts.2 n) = none

/-- There is a name exactly if the path or one of its numbers is free. -/
lemma newName_isSome_iff (fs : Files α) (stack : List Byte) (toPath : CStr) :
    (∃ new, newName fs.stat stack toPath = some new) ↔
      fs.read toPath = none ∨ HasFreeNumber fs stack toPath := by
  rw [newName]
  cases hto : fs.stat toPath with
  | found =>
      obtain ⟨c, hc⟩ := Files.stat_eq_found.mp hto
      simp only [hc, reduceCtorEq, false_or, HasFreeNumber, Option.bind_eq_some_iff]
      rw [exists_comm]
      refine exists_congr fun parts => ?_
      generalize numberedName ((dirname (copyPath stack toPath)).take 255) parts.1 parts.2 = name
      obtain ⟨-, -, -, -, hiff⟩ := searchLoop_spec fs.stat name (i := 0) (by omega)
      simp only [Files.stat_ne_found] at hiff
      rw [exists_and_left, ← hiff]
      refine and_congr_right fun _ => ⟨?_, fun hlt => ⟨_, if_neg (by omega)⟩⟩
      rintro ⟨new, hnew⟩
      by_contra hge
      rw [if_pos (by omega)] at hnew
      cases hnew
  | noEntry => simp [Files.stat_ne_found.mp (by simp [hto] : fs.stat toPath ≠ .found)]
  | failed => exact absurd hto (Files.stat_ne_failed toPath)

lemma newName_ne_nil {stat : CStr → Stat} {stack : List Byte} {toPath new : CStr}
    (hne : toPath ≠ []) (h : newName stat stack toPath = some new) : new ≠ [] := by
  rw [newName] at h
  cases hto : stat toPath with
  | found =>
      simp only [hto, Option.bind_eq_some_iff] at h
      obtain ⟨parts, -, h⟩ := h
      split_ifs at h
      rw [Option.some.injEq] at h
      simp [← h, numberedName, snprintf]
  | noEntry =>
      simp only [hto, Option.some.injEq] at h
      simp [← h, hne]
  | failed => simp [hto] at h

/-- The call moves the file. -/
structure Moves (fs : Files α) (refused : Bool) (stack : List Byte) (fromPath toPath : CStr) :
    Prop where
  granted : refused = false
  source : fs.stat fromPath = .found
  free : fs.read toPath = none ∨ HasFreeNumber fs stack toPath

/-- **Either the call moves the file** to the name it chose, or it changes nothing. -/
theorem mvAndRename_cases (fs : Files α) (refused : Bool) (stack : List Byte)
    (fromPath toPath : CStr) (maxlen : Option ℕ+) (hto : toPath.length ≤ 255) :
    let r := mvAndRename fs.stat refused stack fs fromPath toPath maxlen
    (r.ret = 0 ∧ (toPath ≠ [] → Moves fs refused stack fromPath toPath) ∧
      ∃ new c, newName fs.stat stack toPath = some new ∧ Files.Moved fs r.files fromPath new c) ∨
    (r.ret = -1 ∧ (toPath ≠ [] → ¬ Moves fs refused stack fromPath toPath) ∧ r.files = fs) := by
  intro r
  obtain ⟨-, heq⟩ := mvAndRename_eq fs.stat refused stack fs fromPath toPath maxlen
  by_cases hfrom : fs.stat fromPath = .found
  · cases hname : newName fs.stat stack toPath with
    | none =>
        rw [hname] at heq
        obtain ⟨hret, hfiles⟩ := Prod.mk.inj heq
        refine Or.inr ⟨hret, fun _ h => ?_, hfiles⟩
        obtain ⟨new, hnew⟩ := (newName_isSome_iff fs stack toPath).mpr h.free
        rw [hname] at hnew
        cases hnew
    | some new =>
        simp only [hname, hfrom, if_true] at heq
        obtain ⟨c, hc⟩ := Files.stat_eq_found.mp hfrom
        have hfree := (newName_isSome_iff fs stack toPath).mp ⟨new, hname⟩
        by_cases hempty : new = []
        · obtain ⟨hret, hfiles⟩ :=
            Prod.mk.inj (heq.trans (by simp [Files.rename, hc, hempty] : _ = ((-1 : ℤ), fs)))
          exact Or.inr ⟨hret, fun hne => absurd hempty (newName_ne_nil hne hname), hfiles⟩
        · rcases Files.rename_eq hc (read_newName hto hname) hempty with
            ⟨hrefused, hfail⟩ | ⟨hrefused, fs', hok, hmoved⟩
          · obtain ⟨hret, hfiles⟩ := Prod.mk.inj (heq.trans hfail)
            exact Or.inr ⟨hret, fun _ h => by simp [h.granted] at hrefused, hfiles⟩
          · obtain ⟨hret, hfiles⟩ := Prod.mk.inj (heq.trans hok)
            exact Or.inl ⟨hret, fun _ => ⟨hrefused, hfrom, hfree⟩, new, c, rfl, hfiles ▸ hmoved⟩
  · have hfail : (r.ret, r.files) = (-1, fs) := by
      rw [heq]
      cases newName fs.stat stack toPath with
      | none => rfl
      | some new => exact if_neg hfrom
    obtain ⟨hret, hfiles⟩ := Prod.mk.inj hfail
    exact Or.inr ⟨hret, fun _ h => hfrom h.source, hfiles⟩

/-- What a call guarantees: if it returns 0 it has moved the file to a free name, the one it was
given or this with a number, and otherwise it returns -1 and has changed nothing. -/
structure SafeMove (fs : Files α) (fromPath toPath : CStr) (r : MoveResult α) : Prop where
  moved : r.ret = 0 → ∃ new c, Files.Moved fs r.files fromPath new c ∧ (new = toPath ∨
    ∃ n, 1 ≤ n ∧ n < 999 ∧ fileName new = fileName (withNumber toPath n))
  kept : r.ret ≠ 0 → r.ret = -1 ∧ r.files = fs
  probes : r.probed.length ≤ 999

/-- **No call overwrites a file**, and the search for a free name ends after at most 999 names. -/
theorem mvAndRename_safe (fs : Files α) (refused : Bool) (stack : List Byte)
    (fromPath toPath : CStr) (maxlen : Option ℕ+) (hto : toPath.length < 255)
    (hbase : (basename toPath).length < 128) :
    SafeMove fs fromPath toPath
      (mvAndRename fs.stat refused stack fs fromPath toPath maxlen) := by
  have hprobed := (mvAndRename_eq fs.stat refused stack fs fromPath toPath maxlen).1
  rcases mvAndRename_cases fs refused stack fromPath toPath maxlen (by omega) with
    ⟨hret, -, new, c, hname, hmoved⟩ | ⟨hret, -, hfiles⟩
  · have hcases := newName_cases hto hbase hname
    exact ⟨fun _ => ⟨new, c, hmoved, hcases⟩, fun h => absurd hret h, hprobed⟩
  · exact ⟨fun h => absurd (hret.symm.trans h) (by decide), fun _ => ⟨hret, hfiles⟩, hprobed⟩

/-- An index and its backup. -/
def indexAndBackup : Files ℕ :=
  Files.write (Files.write (fun _ => none) (str "index.txt") 1) (str "db/backup.txt") 2

/-- The index is to become the backup. -/
theorem mvAndRename_safe_backup : (str "db/backup.txt").length < 255 ∧
    (basename (str "db/backup.txt")).length < 128 ∧
      SafeMove indexAndBackup (str "index.txt") (str "db/backup.txt")
        (mvAndRename indexAndBackup.stat false [] indexAndBackup (str "index.txt")
          (str "db/backup.txt") none) :=
  ⟨by decide, by decide,
    mvAndRename_safe indexAndBackup false [] (str "index.txt") (str "db/backup.txt") none
      (by decide) (by decide)⟩

end G7
