import G7Ctrl.Core.Memory
import G7Ctrl.Xstr.Copy

/-!
# Strings in memory

The block of a string is its bytes and the NUL.  A run that reads a string from its block reads
nothing behind the NUL, or faults.

* `cblock` — the block.
* **`load_cblock`** — what is read from it.
* `readStr`, `readBytes`, `storeBytes`, `matchLit` — reading a string, reading and writing some
  bytes, comparing with a literal.
* `atCrlf` — the test for the end of a line.
* `copyToField` — copying a string to an array with `xmb_strncpy`.
* **`cstr_store_nul`** — ending a string with a NUL.
-/

namespace G7

/-- The block of a string. -/
def cblock (s : CStr) : List Byte := s ++ [0]

@[simp] lemma length_cblock (s : CStr) : (cblock s).length = s.length + 1 := by simp [cblock]

/-- Reading up to the NUL. -/
def readStr : List Byte → Checked CStr
  | [] => .fault
  | c :: cs =>
      if c = 0 then return []
      else do
        let s ← readStr cs
        return c :: s

/-- Reading a number of bytes. -/
def readBytes (n : ℕ) (mem : List Byte) : Checked (List Byte) :=
  if n ≤ mem.length then .done (mem.take n) else .fault

/-- Writing a number of bytes. -/
def storeBytes (mem : List Byte) (i : ℕ) (bs : List Byte) : Checked (List Byte) :=
  if i + bs.length ≤ mem.length then .done (mem.take i ++ (bs ++ mem.drop (i + bs.length)))
  else .fault

/-- `l₀ == *p && l₁ == *(p + 1) && …` -/
def matchLit : CStr → List Byte → Checked Bool
  | [], _ => return true
  | l :: ls, mem => do
      let c ← load mem 0
      if l = c then matchLit ls (mem.drop 1) else return false

/-- `'\r' == *ptr && '\n' == *(ptr + 1)` -/
def atCrlf (mem : List Byte) (ptr : ℕ) : Checked Bool := do
  let c ← load mem ptr
  if c = cr then
    let d ← load mem (ptr + 1)
    return decide (d = lf)
  else return false

/-- `xmb_strncpy(dst, s, sizeof(dst) - 1)`, for a `dst` of `size` bytes. -/
def copyToField (size : ℕ) (s : CStr) : Checked CStr :=
  if (xmbStrncpy s (size - 1)).length < size then .done (xmbStrncpy s (size - 1)) else .fault

lemma byteAt_drop (s : List Byte) (i k : ℕ) : byteAt (s.drop i) k = byteAt s (i + k) := by
  simp [byteAt, List.getD_eq_getElem?_getD]

lemma byteAt_eq_zero {s : List Byte} {i : ℕ} (h : s.length ≤ i) : byteAt s i = 0 := by
  rw [byteAt, List.getD_eq_getElem?_getD, List.getElem?_eq_none h, Option.getD_none]

/-- **Up to its NUL a string can be read.** -/
theorem load_cblock {s : CStr} {i : ℕ} (h : i ≤ s.length) : load (cblock s) i = .done (byteAt s i) := by
  rw [load_eq_done_iff, cblock]
  rcases Nat.lt_or_eq_of_le h with hlt | rfl
  · simp [byteAt, List.getElem?_append_left hlt, List.getD_eq_getElem?_getD, hlt]
  · simp [byteAt, List.getD_eq_getElem?_getD]

/-- **Reading a string** gives the string, whatever is behind its NUL. -/
theorem readStr_append_nul {s : CStr} (hs : (0 : Byte) ∉ s) (rest : List Byte) :
    readStr (s ++ 0 :: rest) = .done s := by
  induction s with
  | nil => rfl
  | cons c cs ih =>
      rw [List.mem_cons, not_or] at hs
      rw [List.cons_append, readStr, if_neg (Ne.symm hs.1), ih hs.2]
      rfl

/-- Reading a string from bytes that a NUL ends, if they do not end before. -/
lemma readStr_append_zero (mem rest : List Byte) :
    readStr (mem ++ 0 :: rest) = .done (cstr mem) := by
  induction mem with
  | nil => rfl
  | cons c cs ih =>
      rw [List.cons_append, readStr, ih]
      by_cases hc : c = 0
      · simp [hc, cstr]
      · simp [hc, cstr]

/-- Without a NUL the reading of a string leaves the block. -/
lemma readStr_eq_fault {s : CStr} (hs : (0 : Byte) ∉ s) : readStr s = .fault := by
  induction s with
  | nil => rfl
  | cons c cs ih =>
      rw [List.mem_cons, not_or] at hs
      rw [readStr, if_neg (Ne.symm hs.1), ih hs.2, Checked.fault_bind]

/-- In particular from its block. -/
lemma readStr_cblock {s : CStr} (hs : (0 : Byte) ∉ s) : readStr (cblock s) = .done s :=
  readStr_append_nul hs []

/-- What was read is the string of the memory, whatever follows. -/
lemma cstr_of_readStr {mem : List Byte} {s : CStr} (h : readStr mem = .done s)
    (after : List Byte) : cstr (mem ++ after) = s := by
  induction mem generalizing s with
  | nil => cases h
  | cons c cs ih =>
      rw [readStr] at h
      split_ifs at h with h0
      · cases h
        simp [cstr, h0]
      · obtain ⟨t, hcs, hret⟩ := Checked.bind_eq_done.mp h
        cases hret
        rw [List.cons_append, cstr, List.takeWhile_cons_of_pos (by simpa using h0), ← cstr,
          ih hcs]

/-- A NUL is not read over. -/
lemma length_le_of_readStr {mem : List Byte} {s : CStr} (h : readStr mem = .done s) {j : ℕ}
    (hj : mem[j]? = some 0) : s.length ≤ j := by
  induction mem generalizing s j with
  | nil => cases h
  | cons c cs ih =>
      rw [readStr] at h
      split_ifs at h with h0
      · cases h
        exact Nat.zero_le _
      · obtain ⟨t, hcs, hret⟩ := Checked.bind_eq_done.mp h
        cases hret
        cases j with
        | zero => exact absurd (Option.some.inj hj) h0
        | succ j => exact Nat.succ_le_succ (ih hcs hj)

/-- Ending a piece of memory with a NUL does not change its string. -/
lemma cstr_concat_nul (mem : List Byte) : cstr (mem ++ [0]) = cstr mem := by
  induction mem with
  | nil => rfl
  | cons c cs ih =>
      rw [cstr, cstr, List.cons_append, List.takeWhile_cons, List.takeWhile_cons, ← cstr, ih]
      rfl

lemma cstr_eq_self {s : CStr} (hs : (0 : Byte) ∉ s) : cstr s = s := by
  rw [← cstr_concat_nul, cstr_append_nul hs]

/-- What was loaded, whatever follows. -/
lemma byteAt_of_load {mem : List Byte} {i : ℕ} {c : Byte} (h : load mem i = .done c)
    (after : List Byte) : byteAt (mem ++ after) i = c := by
  rw [byteAt, List.getD_eq_getElem?_getD, List.getElem?_append_left (lt_length_of_load h),
    load_eq_done_iff.mp h, Option.getD_some]

lemma readBytes_append (a rest : List Byte) : readBytes a.length (a ++ rest) = .done a := by
  rw [readBytes, if_pos (by simp), List.take_left']
  rfl

/-- Writing behind what is known. -/
lemma storeBytes_append (a bs : List Byte) {rest : List Byte} (h : bs.length ≤ rest.length) :
    storeBytes (a ++ rest) a.length bs = .done (a ++ (bs ++ rest.drop bs.length)) := by
  have hroom : a.length + bs.length ≤ (a ++ rest).length := by
    rw [List.length_append]
    omega
  rw [storeBytes, if_pos hroom, List.take_left, List.drop_length_add_append]

lemma storeBytes_start {mem bs : List Byte} (h : bs.length ≤ mem.length) :
    storeBytes mem 0 bs = .done (bs ++ mem.drop bs.length) := by
  rw [storeBytes, Nat.zero_add, if_pos h]
  rfl

/-- What was written is inside the block, which keeps its length. -/
lemma length_storeBytes {mem mem' : List Byte} {i : ℕ} {bs : List Byte}
    (h : storeBytes mem i bs = .done mem') :
    i + bs.length ≤ mem.length ∧ mem'.length = mem.length := by
  rw [storeBytes] at h
  split_ifs at h with hroom
  cases h
  refine ⟨hroom, ?_⟩
  rw [List.length_append, List.length_append, List.length_take, List.length_drop]
  omega

/-- Writing the first byte, and then the others behind it. -/
lemma storeBytes_cons (mem : List Byte) (i : ℕ) (b : Byte) (bs : List Byte) :
    storeBytes mem i (b :: bs) = store mem i b >>= fun mem => storeBytes mem (i + 1) bs := by
  by_cases hi : i < mem.length
  · rw [store_eq_done hi, Checked.done_bind, storeBytes, storeBytes, List.length_set,
      List.length_cons, Nat.add_right_comm, ← Nat.add_assoc]
    split_ifs with hroom
    · have htake : (mem.set i b).take (i + 1) = mem.take i ++ [b] := by
        rw [List.take_add_one, List.take_set_of_le le_rfl, List.getElem?_set_self hi]
        rfl
      rw [htake, List.drop_set_of_lt (by omega), List.append_assoc]
      rfl
    · rfl
  · rw [store_eq_fault (Nat.not_lt.mp hi), Checked.fault_bind, storeBytes, if_neg]
    rw [List.length_cons]
    omega

lemma storeBytes_nil {mem : List Byte} {i : ℕ} (h : i ≤ mem.length) :
    storeBytes mem i [] = .done mem := by
  rw [storeBytes, List.length_nil, Nat.add_zero, if_pos h, List.nil_append, List.take_append_drop]

/-- One byte. -/
lemma storeBytes_singleton (mem : List Byte) (i : ℕ) (b : Byte) :
    storeBytes mem i [b] = store mem i b := by
  rw [storeBytes_cons]
  by_cases hi : i < mem.length
  · rw [store_eq_done hi, Checked.done_bind, storeBytes_nil (by rwa [List.length_set])]
  · rw [store_eq_fault (Nat.not_lt.mp hi), Checked.fault_bind]

/-- Some bytes and then others. -/
lemma storeBytes_two (mem : List Byte) (i : ℕ) (as bs : List Byte) :
    storeBytes mem i (as ++ bs) =
      storeBytes mem i as >>= fun mem => storeBytes mem (i + as.length) bs := by
  induction as generalizing mem i with
  | nil =>
      by_cases hi : i ≤ mem.length
      · rw [storeBytes_nil hi]
        rfl
      · rw [List.nil_append, storeBytes, if_neg (by omega), storeBytes, if_neg (by simpa using hi)]
        rfl
  | cons a as ih =>
      rw [List.cons_append, storeBytes_cons, storeBytes_cons, Checked.bind_assoc]
      refine congrArg _ (funext fun mem => ?_)
      rw [ih, List.length_cons, Nat.add_assoc, Nat.add_comm 1]

lemma take_of_readBytes {mem cs : List Byte} {n : ℕ} (h : readBytes n mem = .done cs) :
    cs = mem.take n := by
  rw [readBytes] at h
  split_ifs at h
  cases h
  rfl

/-- **Comparing bytes with a literal** reads no byte behind a NUL. -/
theorem matchLit_append_nul {lit : CStr} (hlit : (0 : Byte) ∉ lit) (text rest : List Byte) :
    matchLit lit (text ++ 0 :: rest) = .done (lit.isPrefixOf text) := by
  induction lit generalizing text with
  | nil => rfl
  | cons l ls ih =>
      rw [List.mem_cons, not_or] at hlit
      cases text with
      | nil => exact if_neg (Ne.symm hlit.1)
      | cons c cs =>
          rw [matchLit, List.cons_append, load_eq_done_iff.mpr (List.getElem?_cons_zero ..),
            Checked.done_bind, List.isPrefixOf_cons_cons, List.drop_one, List.tail_cons, ih hlit.2]
          by_cases hc : l = c
          · simp [hc]
          · simp [hc]

/-- In particular a string from its block. -/
theorem matchLit_cblock {lit : CStr} (hlit : (0 : Byte) ∉ lit) (s : CStr) :
    matchLit lit (cblock s) = .done (lit.isPrefixOf s) :=
  matchLit_append_nul hlit s []

/-- What was compared, whatever follows. -/
lemma take_of_matchLit {lit : CStr} {mem : List Byte} {b : Bool}
    (h : matchLit lit mem = .done b) (after : List Byte) :
    (mem ++ after).take lit.length = lit ↔ b = true := by
  induction lit generalizing mem with
  | nil =>
      cases h
      simp
  | cons l ls ih =>
      cases mem with
      | nil => cases h
      | cons c cs =>
          rw [matchLit] at h
          by_cases hc : l = c
          · have hcs : matchLit ls cs = .done b := (if_pos hc).symm.trans h
            simp [← ih hcs, hc]
          · have hb : false = b := by
              have hret := (if_neg hc).symm.trans h
              cases hret
              rfl
            simp [← hb, Ne.symm hc]

/-- A literal that was found lies inside the block. -/
lemma length_le_of_matchLit {lit : CStr} {mem : List Byte} (h : matchLit lit mem = .done true) :
    lit.length ≤ mem.length := by
  have htake := congrArg List.length ((take_of_matchLit h []).mpr rfl)
  rw [List.append_nil, List.length_take] at htake
  omega

/-- A literal in two parts. -/
lemma take_eq_append_iff {a b s : CStr} :
    s.take (a.length + b.length) = a ++ b ↔
      s.take a.length = a ∧ (s.drop a.length).take b.length = b := by
  rw [List.take_add]
  constructor
  · intro h
    have hlen := congrArg List.length h
    simp only [List.length_append, List.length_take] at hlen
    exact List.append_inj h (by rw [List.length_take]; omega)
  · rintro ⟨ha, hb⟩
    rw [ha, hb]

/-- **A NUL behind some bytes makes them a string.** -/
theorem cstr_store_nul {buf : List Byte} {n : ℕ} (hn : n < buf.length)
    (h : (0 : Byte) ∉ buf.take n) : cstr (buf.set n 0) = buf.take n := by
  rw [List.set_eq_take_append_cons_drop, if_pos hn]
  exact cstr_append_nul h _

/-- The bytes of a block from a place on. -/
lemma load_append_add (front : List Byte) {rest : List Byte} {k : ℕ} (h : k < rest.length) :
    load (front ++ rest) (front.length + k) = .done (byteAt rest k) := by
  rw [load_eq_done_iff, List.getElem?_append_right (Nat.le_add_right _ _), Nat.add_sub_cancel_left,
    List.getElem?_eq_getElem h, byteAt, List.getD_eq_getElem?_getD, List.getElem?_eq_getElem h,
    Option.getD_some]

lemma load_eq_byteAt {mem : List Byte} {i : ℕ} (h : i < mem.length) :
    load mem i = .done (byteAt mem i) := by
  simpa using load_append_add [] h

/-- The test at a place of a block with two more bytes. -/
lemma atCrlf_append (front : List Byte) {rest : List Byte} (h : 2 ≤ rest.length) :
    atCrlf (front ++ rest) front.length =
      .done (decide (byteAt rest 0 = cr ∧ byteAt rest 1 = lf)) := by
  have hzero : load (front ++ rest) front.length = .done (byteAt rest 0) :=
    load_append_add front (k := 0) (by omega)
  rw [atCrlf, hzero, Checked.done_bind]
  split_ifs with hcr
  · rw [load_append_add front (by omega)]
    simp [hcr]
  · simp [hcr]

/-- A byte that is overwritten and put back. -/
lemma set_restore (front : List Byte) (c d : Byte) (rest : List Byte) :
    ((front ++ c :: rest).set front.length d).set front.length c = front ++ c :: rest := by
  simp

end G7
