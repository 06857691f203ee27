import G7Ctrl.Command.CmdArgs

/-!
# The password of a client (`check_password`)

A client has three attempts to give the password, and the result of each read is also used as an
index, to end the text.  A read that fails returns -1: then the byte below the buffer is written,
and what is compared with the password is what the stack held before.

* `ChecksPassword` — what is expected: only the password is accepted, and all writes are inside the
  buffer.
* **`checksPassword_iff`** — the expectation is met exactly when no attempt ends in a failed read.
* `failedRead_authenticates` — a client that is let in without having sent anything.
-/

namespace G7

/-- `sizeof(buffer)` -/
def pwdBufSize : ℕ := 512

/-- What a read leaves in the buffer of the bytes that have arrived. -/
def Reading.stored : Reading → List Byte
  | .timeout => []
  | .failed => []
  | .bytes s => s.take (pwdBufSize - 1)

/-- `numreads` -/
def Reading.numreads : Reading → ℤ
  | .failed => -1
  | reading => reading.stored.length

/-- `buffer[i] = 0`; below the buffer there is other memory. -/
def clearAt (buffer : List Byte) : ℤ → List Byte
  | .ofNat i => buffer.set i 0
  | .negSucc _ => buffer

/-- The buffer of an attempt before it is trimmed; `stack` is what was in its place. -/
def bufferAfter (stack : List Byte) (reading : Reading) : List Byte :=
  let buffer := reading.stored ++ stack.drop reading.stored.length
  clearAt (clearAt buffer (pwdBufSize - 1 : ℕ)) reading.numreads

/-- The text that is compared with the password. -/
def enteredText (stack : List Byte) (reading : Reading) : CStr :=
  xstrtrimCrnl (cstr (bufferAfter stack reading))

/-- The indices of `buffer` an attempt writes: those of the read, the two of its end, and those of
`xstrtrim_crnl`. -/
def attemptWrites (stack : List Byte) (reading : Reading) : List ℤ :=
  (List.range reading.stored.length).map Nat.cast ++
    [((pwdBufSize - 1 : ℕ) : ℤ), reading.numreads] ++
    (List.range ((enteredText stack reading).length + 1)).map Nat.cast

/-- What has happened when the function returns or the loop ends. -/
structure PasswordCheck where
  rc : ℤ
  said : List CStr
  writes : List ℤ

/-- The `while` loop.  For every attempt there is what `select` and `socket_read` give and what the
stack holds; the return code is that of the function. -/
def passwordLoop (clientPwd : CStr) : ℕ → (ℕ → List Byte) → (ℕ → Reading) → PasswordCheck
  | 0, _, _ => ⟨-1, [], []⟩
  | tries + 1, stack, outcome =>
      let prompt := str "Password: " ++ crlf
      if outcome 0 = .timeout then ⟨-1, [prompt], []⟩
      else if enteredText (stack 0) (outcome 0) = clientPwd then
        ⟨0, [prompt], attemptWrites (stack 0) (outcome 0)⟩
      else
        let later := passwordLoop clientPwd tries (fun k => stack (k + 1)) fun k => outcome (k + 1)
        ⟨later.rc, prompt :: later.said, attemptWrites (stack 0) (outcome 0) ++ later.writes⟩

/-- `INVALID_AUTHENTICATION` -/
def invalidAuthentication : CStr := str "Authentication failed. Connection closed."

/-- `check_password` -/
def checkPassword (requireClientPwd : Bool) (clientPwd : CStr) (stack : ℕ → List Byte)
    (outcome : ℕ → Reading) : PasswordCheck :=
  if requireClientPwd then
    let loop := passwordLoop clientPwd 3 stack outcome
    if loop.rc = 0 then loop
    else ⟨-1, loop.said ++ [invalidAuthentication ++ crlf], loop.writes⟩
  else ⟨0, [], []⟩

/-- A successful read of the password. -/
def IsPassword (clientPwd : CStr) (reading : Reading) : Prop :=
  ∃ s, reading = .bytes s ∧ s ≠ [] ∧ xstrtrimCrnl (cstr reading.stored) = clientPwd

/-- **Only the password lets a client in**, in one of the attempts before the first timeout, and
nothing is written outside the buffer. -/
structure ChecksPassword (clientPwd : CStr) (stack : ℕ → List Byte) (outcome : ℕ → Reading) :
    Prop where
  authenticates : (checkPassword true clientPwd stack outcome).rc = 0 ↔
    ∃ k < 3, (∀ j ≤ k, outcome j ≠ .timeout) ∧ IsPassword clientPwd (outcome k)
  inside : ∀ i ∈ (checkPassword true clientPwd stack outcome).writes, 0 ≤ i ∧ i < pwdBufSize

/-- The attempt at `k` is made: no earlier one was a timeout or brought the password. -/
def AttemptMade (clientPwd : CStr) (outcome : ℕ → Reading) (k : ℕ) : Prop :=
  ∀ j < k, outcome j ≠ .timeout ∧ ¬ IsPassword clientPwd (outcome j)

/-! ## One attempt -/

section

variable {clientPwd : CStr} {stack : ℕ → List Byte} {outcome : ℕ → Reading} {mem : List Byte}
  {reading : Reading} {tries : ℕ}

lemma length_stored_le (reading : Reading) : reading.stored.length ≤ pwdBufSize - 1 := by
  cases reading with
  | timeout => exact Nat.zero_le _
  | failed => exact Nat.zero_le _
  | bytes s => exact List.length_take_le _ _

lemma numreads_eq (hread : reading ≠ .failed) :
    reading.numreads = (reading.stored.length : ℤ) := by
  cases reading with
  | timeout => rfl
  | failed => exact absurd rfl hread
  | bytes s => rfl

/-- **After a read that does not fail** the stack has no influence. -/
lemma cstr_bufferAfter (hread : reading ≠ .failed) :
    cstr (bufferAfter mem reading) = cstr reading.stored := by
  have hlen := length_stored_le reading
  rw [bufferAfter, numreads_eq hread]
  generalize reading.stored = s at hlen ⊢
  generalize mem.drop s.length = rest
  change cstr (((s ++ rest).set (pwdBufSize - 1) 0).set s.length 0) = cstr s
  rw [List.set_append_right _ _ hlen, List.set_append_right _ _ (Nat.le_refl _), Nat.sub_self]
  generalize rest.set (pwdBufSize - 1 - s.length) 0 = rest'
  cases rest' with
  | nil => rw [List.set_nil, List.append_nil]
  | cons c t => rw [List.set_cons_zero, cstr_append_zero]

/-- **After a read that fails** what was on the stack is compared. -/
lemma cstr_bufferAfter_failed :
    cstr (bufferAfter mem .failed) = cstr (mem.set (pwdBufSize - 1) 0) := rfl

/-- A string ends at a NUL that is put into its memory. -/
lemma length_cstr_set_le (mem : List Byte) (i : ℕ) : (cstr (mem.set i 0)).length ≤ i := by
  rcases Nat.lt_or_ge i mem.length with hlt | hge
  · rw [List.set_eq_take_append_cons_drop, if_pos hlt, cstr_append_zero]
    exact ((List.takeWhile_prefix _).length_le).trans (List.length_take_le _ _)
  · rw [List.set_eq_of_length_le hge]
    exact ((List.takeWhile_prefix _).length_le).trans hge

/-- The text is inside the buffer. -/
lemma length_enteredText_lt (mem : List Byte) (reading : Reading) :
    (enteredText mem reading).length < pwdBufSize := by
  have hcstr : (cstr (bufferAfter mem reading)).length ≤ pwdBufSize - 1 := by
    by_cases hread : reading = .failed
    · rw [hread, cstr_bufferAfter_failed]
      exact length_cstr_set_le _ _
    · rw [cstr_bufferAfter hread]
      exact ((List.takeWhile_prefix _).length_le).trans (length_stored_le reading)
  have htrim := (trimEnds_sublist isCrnl (cstr (bufferAfter mem reading))).length_le
  exact Nat.lt_of_le_of_lt (htrim.trans hcstr) (by decide)

/-- What is compared with the password in an attempt that does not fail. -/
lemma enteredText_eq_iff (hpwd : clientPwd ≠ []) (hread : reading ≠ .failed) :
    enteredText mem reading = clientPwd ↔ IsPassword clientPwd reading := by
  rw [enteredText, cstr_bufferAfter hread, IsPassword]
  cases reading with
  | timeout => simpa [Reading.stored, xstrtrimCrnl, trimEnds, cstr] using hpwd.symm
  | failed => exact absurd rfl hread
  | bytes s =>
      cases s with
      | nil => simpa [Reading.stored, xstrtrimCrnl, trimEnds, cstr] using hpwd.symm
      | cons c s => simp

/-- **An attempt stays inside the buffer** exactly when its read does not fail. -/
lemma attemptWrites_inside_iff :
    (∀ i ∈ attemptWrites mem reading, 0 ≤ i ∧ i < pwdBufSize) ↔ reading ≠ .failed := by
  constructor
  · rintro h rfl
    have hbelow := h (-1) (by simp [attemptWrites, Reading.numreads])
    exact absurd hbelow.1 (by decide)
  · intro hread i hi
    have hlen := length_stored_le reading
    have hentered := length_enteredText_lt mem reading
    simp only [attemptWrites, numreads_eq hread, List.mem_append, List.mem_map, List.mem_range,
      List.mem_cons, List.not_mem_nil, or_false] at hi
    simp only [pwdBufSize] at hlen hentered hi ⊢
    rcases hi with (⟨k, hk, rfl⟩ | rfl | rfl) | ⟨k, hk, rfl⟩
    · omega
    · omega
    · omega
    · omega

end

/-! ## All attempts -/

section

variable {clientPwd : CStr} {stack : ℕ → List Byte} {outcome : ℕ → Reading} {tries : ℕ}

/-- No attempt that is made ends in a failed read. -/
def NoFailedRead (clientPwd : CStr) (outcome : ℕ → Reading) (tries : ℕ) : Prop :=
  ∀ k < tries, AttemptMade clientPwd outcome k → outcome k ≠ .failed

/-- The first attempt is made, and the later ones after one that neither was a timeout nor brought
the password. -/
lemma noFailedRead_succ : NoFailedRead clientPwd outcome (tries + 1) ↔ outcome 0 ≠ .failed ∧
    (outcome 0 ≠ .timeout → ¬ IsPassword clientPwd (outcome 0) →
      NoFailedRead clientPwd (fun k => outcome (k + 1)) tries) := by
  have hmade (k : ℕ) : AttemptMade clientPwd outcome (k + 1) ↔
      (outcome 0 ≠ .timeout ∧ ¬ IsPassword clientPwd (outcome 0)) ∧
        AttemptMade clientPwd (fun k => outcome (k + 1)) k :=
    Nat.forall_lt_succ_left
  rw [NoFailedRead, Nat.forall_lt_succ_left]
  refine and_congr ⟨fun h => h fun j hj => absurd hj (Nat.not_lt_zero j), fun h _ => h⟩ ?_
  constructor
  · intro h htimeout hpwd k hk hk'
    exact h k hk ((hmade k).mpr ⟨⟨htimeout, hpwd⟩, hk'⟩)
  · intro h k hk hk'
    obtain ⟨⟨htimeout, hpwd⟩, hrest⟩ := (hmade k).mp hk'
    exact h htimeout hpwd k hk hrest

/-- **The loop stays inside the buffer** exactly when no attempt ends in a failed read. -/
lemma passwordLoop_inside_iff (hpwd : clientPwd ≠ []) :
    (∀ i ∈ (passwordLoop clientPwd tries stack outcome).writes, 0 ≤ i ∧ i < pwdBufSize) ↔
      NoFailedRead clientPwd outcome tries := by
  induction tries generalizing stack outcome with
  | zero =>
      exact iff_of_true (fun i hi => absurd hi List.not_mem_nil)
        fun k hk => absurd hk (Nat.not_lt_zero k)
  | succ tries ih =>
      rw [noFailedRead_succ, passwordLoop]
      split_ifs with htimeout hentered
      · exact iff_of_true (fun i hi => absurd hi List.not_mem_nil)
          ⟨by rw [htimeout]; exact Reading.noConfusion, fun h => absurd htimeout h⟩
      · rw [attemptWrites_inside_iff]
        refine ⟨fun hread => ⟨hread, fun _ h => ?_⟩, fun h => h.1⟩
        exact absurd ((enteredText_eq_iff hpwd hread).mp hentered) h
      · rw [List.forall_mem_append, attemptWrites_inside_iff, ih]
        refine and_congr_right fun hread => ?_
        rw [enteredText_eq_iff hpwd hread] at hentered
        exact ⟨fun h _ _ => h, fun h => h htimeout hentered⟩

/-- **Who is let in**, when no attempt ends in a failed read. -/
lemma passwordLoop_rc_iff (hpwd : clientPwd ≠ []) (hread : NoFailedRead clientPwd outcome tries) :
    (passwordLoop clientPwd tries stack outcome).rc = 0 ↔
      ∃ k < tries, (∀ j ≤ k, outcome j ≠ .timeout) ∧ IsPassword clientPwd (outcome k) := by
  induction tries generalizing stack outcome with
  | zero =>
      refine iff_of_false ?_ fun ⟨k, hk, _⟩ => absurd hk (Nat.not_lt_zero k)
      rw [passwordLoop]
      decide
  | succ tries ih =>
      obtain ⟨hfirst, hlater⟩ := noFailedRead_succ.mp hread
      rw [Nat.exists_lt_succ_left, passwordLoop]
      split_ifs with htimeout hentered
      · refine iff_of_false (by decide) ?_
        rintro (⟨h, -⟩ | ⟨k, -, h, -⟩)
        · exact h 0 (Nat.le_refl 0) htimeout
        · exact h 0 (Nat.zero_le _) htimeout
      · rw [enteredText_eq_iff hpwd hfirst] at hentered
        refine iff_of_true rfl (Or.inl ⟨fun j hj => ?_, hentered⟩)
        rwa [Nat.le_zero.mp hj]
      · rw [enteredText_eq_iff hpwd hfirst] at hentered
        rw [ih (hlater htimeout hentered)]
        have hnow : ¬ ((∀ j ≤ 0, outcome j ≠ .timeout) ∧ IsPassword clientPwd (outcome 0)) :=
          fun h => hentered h.2
        rw [or_iff_right hnow]
        refine exists_congr fun k => and_congr_right fun _ => and_congr_left fun _ => ?_
        constructor
        · intro h j hj
          cases j with
          | zero => exact htimeout
          | succ j => exact h j (Nat.le_of_succ_le_succ hj)
        · intro h j hj
          exact h (j + 1) (Nat.succ_le_succ hj)

lemma passwordLoop_rc :
    (passwordLoop clientPwd tries stack outcome).rc = 0 ∨
      (passwordLoop clientPwd tries stack outcome).rc = -1 := by
  induction tries generalizing stack outcome with
  | zero => exact Or.inr rfl
  | succ tries ih =>
      rw [passwordLoop]
      split_ifs
      · exact Or.inr rfl
      · exact Or.inl rfl
      · exact ih

/-- The function returns what its loop comes to. -/
lemma checkPassword_eq :
    (checkPassword true clientPwd stack outcome).rc = (passwordLoop clientPwd 3 stack outcome).rc ∧
      (checkPassword true clientPwd stack outcome).writes =
        (passwordLoop clientPwd 3 stack outcome).writes := by
  rw [checkPassword, if_pos rfl]
  dsimp only
  split_ifs with hrc
  · exact ⟨rfl, rfl⟩
  · exact ⟨(passwordLoop_rc.resolve_left hrc).symm, rfl⟩

end

/-- **When the password check holds.** -/
theorem checksPassword_iff (clientPwd : CStr) (stack : ℕ → List Byte) (outcome : ℕ → Reading)
    (hpwd : clientPwd ≠ []) :
    ChecksPassword clientPwd stack outcome ↔
      ∀ k < 3, AttemptMade clientPwd outcome k → outcome k ≠ .failed := by
  constructor
  · intro h
    have hinside := h.inside
    rw [checkPassword_eq.2] at hinside
    exact (passwordLoop_inside_iff hpwd).mp hinside
  · intro h
    constructor
    · rw [checkPassword_eq.1]
      exact passwordLoop_rc_iff hpwd h
    · rw [checkPassword_eq.2]
      exact (passwordLoop_inside_iff hpwd).mpr h

/-- The password at the second attempt. -/
theorem checksPassword_secret : ChecksPassword (str "secret") (fun _ => [])
    fun k => if k = 0 then .bytes (str "guess\r\n") else .bytes (str "secret\r\n") := by
  refine (checksPassword_iff _ _ _ (by decide)).mpr fun k _ _ => ?_
  split_ifs
  · exact Reading.noConfusion
  · exact Reading.noConfusion

/-- **A failed read lets a client in** when the stack still holds the password. -/
theorem failedRead_authenticates :
    (checkPassword true (str "secret") (fun _ => str "secret" ++ [0]) fun _ => .failed).rc = 0 ∧
      ¬ ChecksPassword (str "secret") (fun _ => str "secret" ++ [0]) fun _ => .failed := by
  have hrc : (checkPassword true (str "secret") (fun _ => str "secret" ++ [0])
      fun _ => .failed).rc = 0 := by
    decide +kernel
  refine ⟨hrc, fun h => ?_⟩
  obtain ⟨k, -, -, s, hs, -⟩ := h.authenticates.mp hrc
  exact Reading.noConfusion hs

end G7
