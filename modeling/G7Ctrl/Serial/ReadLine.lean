import G7Ctrl.Core.Bytes
import Mathlib.Data.List.Infix

/-!
# One line from the device (`serial_read_line`)

The reply of the device is read into one buffer, in at most five attempts, until it ends in
`"\r\n"`.  After every attempt the two bytes before the place of the next one are looked at, and at
the end a NUL is put there.  Nothing looks at how much has been read, so both can be outside the
buffer.

* `ReadsLine` — what is expected of a call.
* **`readsLine_iff`** — the expectation is met exactly when after every attempt there is something
  to look back at, and room for the NUL.
* `timeoutFirst_reads_below` — a first attempt that ends in a timeout.
-/

namespace G7

/-! ## The function -/

/-- The size of `rbuff`. -/
def rbuffSize : ℕ := 100 * 1024

/-- `MAXLOG` -/
def maxLog : ℕ := 2 * 1024

/-- `MAX_TRIES` -/
def maxTries : ℕ := 5

/-- What `serial_read_timeout` comes to; of a chunk it takes what there is space for. -/
inductive SerialRead where
  | timeout
  | failed
  | chunk (s : List Byte)
  deriving DecidableEq

/-- The bytes a read puts into the buffer. -/
def SerialRead.bytes (maxlen : ℕ) : SerialRead → List Byte
  | .timeout => []
  | .failed => []
  | .chunk s => s.take maxlen

/-- The variables of the loop. -/
structure LineState where
  rbuff : List Byte
  bptr : ℕ
  maxRead : ℕ

/-- `rbuff` as it comes from `_chk_calloc_exit`. -/
def LineState.start : LineState := ⟨List.replicate rbuffSize 0, 0, rbuffSize⟩

/-- A read, and the pointer and the space after it. -/
def LineState.receive (st : LineState) (r : SerialRead) : LineState :=
  let s := r.bytes st.maxRead
  ⟨st.rbuff.take st.bptr ++ s ++ st.rbuff.drop (st.bptr + s.length), st.bptr + s.length,
    st.maxRead - s.length⟩

/-- `rbuff[i]`; `below` is the memory in front of it. -/
def rbuffAt (below : ℕ → Byte) (rbuff : List Byte) : ℤ → Byte
  | .ofNat i => byteAt rbuff i
  | .negSucc i => below i

/-- `*(bptr - 1) == '\n' && *(bptr - 2) == '\r'` -/
def LineState.finished (below : ℕ → Byte) (st : LineState) : Bool :=
  rbuffAt below st.rbuff (st.bptr - 1) == lf && rbuffAt below st.rbuff (st.bptr - 2) == cr

/-- The indices that the test reads. -/
def LineState.tested (below : ℕ → Byte) (st : LineState) : List ℤ :=
  if rbuffAt below st.rbuff (st.bptr - 1) = lf then [st.bptr - 1, st.bptr - 2] else [st.bptr - 1]

/-- The indices that a read and the copy for the log use: `strncpy` goes up to the first NUL. -/
def LineState.used (st : LineState) (r : SerialRead) : List ℤ :=
  let after := (st.receive r).rbuff
  let logged := if r = .timeout then 0 else min maxLog ((cstr (after.drop st.bptr)).length + 1)
  ((List.range (r.bytes st.maxRead).length) ++ List.range logged).map fun k => (st.bptr + k : ℕ)

/-- What a call leaves behind: `reply` is the memory `*reply` points to, and `accesses` has the
indices of `rbuff` that were used. -/
structure LineRead where
  rc : ℤ
  reply : Option (List Byte)
  accesses : List ℤ
  tries : ℕ

/-- After the loop: the NUL, and the result. -/
def LineState.finish (st : LineState) (finished : Bool) : LineRead :=
  if finished then ⟨0, some (st.rbuff.set st.bptr 0), [(st.bptr : ℤ)], 0⟩
  else ⟨-1, none, [(st.bptr : ℤ)], 0⟩

/-- The same call after an attempt that used some indices. -/
def LineRead.after (accesses : List ℤ) (l : LineRead) : LineRead :=
  ⟨l.rc, l.reply, accesses ++ l.accesses, l.tries + 1⟩

/-- The `do` loop, with the attempts that are left and what they read. -/
def lineLoop (below : ℕ → Byte) : ℕ → LineState → (ℕ → SerialRead) → LineRead
  | 0, st, _ => st.finish false
  | left + 1, st, reads =>
      if reads 0 = .failed then ⟨-1, none, [], 1⟩
      else
        let st' := st.receive (reads 0)
        LineRead.after (st.used (reads 0) ++ st'.tested below) <|
          if st'.finished below then st'.finish true
          else if st'.maxRead ≤ 1 then st'.finish false
          else lineLoop below left st' fun k => reads (k + 1)

/-- `serial_read_line` -/
def serialReadLine (below : ℕ → Byte) (reads : ℕ → SerialRead) : LineRead :=
  lineLoop below maxTries .start reads

/-! ## What is expected of a call -/

/-- The chunks read so far, behind what was there before. -/
def readSoFar (got : List Byte) (reads : ℕ → SerialRead) : ℕ → List Byte
  | 0 => got
  | k + 1 =>
      readSoFar (got ++ (reads 0).bytes (rbuffSize - got.length)) (fun k => reads (k + 1)) k

/-- The attempt at `k` comes to its end: no read has failed, and after no earlier one the line was
there or the buffer full. -/
def AttemptEnds (got : List Byte) (reads : ℕ → SerialRead) (k : ℕ) : Prop :=
  reads k ≠ .failed ∧ ∀ j < k, reads j ≠ .failed ∧ ¬ EndsCrlf (readSoFar got reads (j + 1)) ∧
    (readSoFar got reads (j + 1)).length + 1 < rbuffSize

/-- **What is expected of a call**: it stays inside the buffer, and its reply is what was read up to
the end of the line, if it comes to that. -/
structure ReadsLine (below : ℕ → Byte) (reads : ℕ → SerialRead) : Prop where
  inside : ∀ i ∈ (serialReadLine below reads).accesses, 0 ≤ i ∧ i < rbuffSize
  attempts : (serialReadLine below reads).tries ≤ 5
  returns : (serialReadLine below reads).rc = 0 ↔
    ∃ k < 5, AttemptEnds [] reads k ∧ EndsCrlf (readSoFar [] reads (k + 1))
  reply : ∀ k < 5, AttemptEnds [] reads k → EndsCrlf (readSoFar [] reads (k + 1)) →
    ∃ rest, (serialReadLine below reads).reply = some (readSoFar [] reads (k + 1) ++ 0 :: rest)
  failed : (serialReadLine below reads).rc ≠ 0 →
    (serialReadLine below reads).rc = -1 ∧ (serialReadLine below reads).reply = none

/-- There is something to look back at, and room for the NUL. -/
structure LooksBack (got : List Byte) : Prop where
  ne_nil : got ≠ []
  ne_lf : got ≠ [lf]
  room : got.length < rbuffSize

/-! ## The buffer -/

/-- The variables when `got` has been read. -/
def LineState.having (got : List Byte) : LineState :=
  ⟨got ++ List.replicate (rbuffSize - got.length) 0, got.length, rbuffSize - got.length⟩

section

variable {below : ℕ → Byte} {got : List Byte} {r : SerialRead} {reads : ℕ → SerialRead} {left : ℕ}

/-- What has been read after one more read. -/
def moreRead (got : List Byte) (r : SerialRead) : List Byte :=
  got ++ r.bytes (rbuffSize - got.length)

lemma length_bytes_le (maxlen : ℕ) (r : SerialRead) : (r.bytes maxlen).length ≤ maxlen := by
  cases r with
  | timeout => exact Nat.zero_le _
  | failed => exact Nat.zero_le _
  | chunk s => exact List.length_take_le _ _

lemma length_moreRead_le (hgot : got.length ≤ rbuffSize) :
    (moreRead got r).length ≤ rbuffSize := by
  have hlen := length_bytes_le (rbuffSize - got.length) r
  rw [moreRead, List.length_append]
  omega

lemma start_eq_having : LineState.start = .having [] := rfl

/-- **A read** adds to what is there. -/
lemma receive_having : (LineState.having got).receive r = .having (moreRead got r) := by
  rw [LineState.receive, LineState.having, LineState.having, moreRead]
  dsimp only
  generalize r.bytes (rbuffSize - got.length) = s
  have hdrop : (got ++ List.replicate (rbuffSize - got.length) (0 : Byte)).drop
      (got.length + s.length) = List.replicate (rbuffSize - (got ++ s).length) 0 := by
    rw [List.drop_length_add_append, List.drop_replicate, List.length_append, Nat.sub_add_eq]
  rw [hdrop, List.take_left, List.length_append, Nat.sub_add_eq]

/-- The bytes before the pointer. -/
lemma rbuffAt_having {i : ℕ} (hi : i < got.length) (k : ℤ) (hk : k = i) :
    rbuffAt below (LineState.having got).rbuff k = byteAt got i := by
  subst hk
  change byteAt (got ++ _) i = byteAt got i
  rw [byteAt, byteAt, List.getD_eq_getElem?_getD, List.getD_eq_getElem?_getD,
    List.getElem?_append_left hi]

lemma byteAt_concat (init : List Byte) (c : Byte) : byteAt (init ++ [c]) init.length = c := by
  rw [byteAt, List.getD_eq_getElem?_getD, List.getElem?_append_right (Nat.le_refl _), Nat.sub_self]
  rfl

/-- The byte before the pointer is the last one that was read. -/
lemma rbuffAt_last (init : List Byte) (c : Byte) :
    rbuffAt below (LineState.having (init ++ [c])).rbuff
      ((LineState.having (init ++ [c])).bptr - 1) = c := by
  rw [rbuffAt_having (i := init.length) (by simp) _ (by simp [LineState.having]), byteAt_concat]

/-- **The test for the end**, when there is something to look back at. -/
lemma finished_having (hnil : got ≠ []) (hlf : got ≠ [lf]) :
    (LineState.having got).finished below = decide (EndsCrlf got) := by
  obtain ⟨init, c, rfl⟩ := (List.eq_nil_or_concat got).resolve_left hnil
  rw [List.concat_eq_append] at hlf ⊢
  rw [LineState.finished, rbuffAt_last]
  rcases List.eq_nil_or_concat init with rfl | ⟨init', d, rfl⟩
  · have hc : c ≠ lf := fun h => hlf (by rw [h]; rfl)
    have hshort : ¬ EndsCrlf ([] ++ [c]) := fun h => absurd h.length_le (by simp [crlf])
    rw [decide_eq_false hshort, beq_eq_false_iff_ne.mpr hc, Bool.false_and]
  · rw [List.concat_eq_append]
    have hd : rbuffAt below (LineState.having (init' ++ [d] ++ [c])).rbuff
        ((LineState.having (init' ++ [d] ++ [c])).bptr - 2) = d := by
      rw [rbuffAt_having (i := init'.length) (by simp) _ (by simp [LineState.having]),
        List.append_assoc, List.singleton_append, byteAt, List.getD_eq_getElem?_getD,
        List.getElem?_append_right (Nat.le_refl _), Nat.sub_self]
      rfl
    rw [hd, Bool.eq_iff_iff, Bool.and_eq_true, beq_iff_eq, beq_iff_eq, decide_eq_true_iff,
      endsCrlf_iff]

/-- **What the test looks at** is inside the buffer exactly when there is something. -/
lemma tested_inside_iff (hgot : got.length ≤ rbuffSize) :
    (∀ i ∈ (LineState.having got).tested below, 0 ≤ i ∧ i < rbuffSize) ↔
      got ≠ [] ∧ got ≠ [lf] := by
  rcases List.eq_nil_or_concat got with rfl | ⟨init, c, rfl⟩
  · refine iff_of_false (fun h => ?_) fun h => h.1 rfl
    have hfirst : (-1 : ℤ) ∈ (LineState.having []).tested below := by
      rw [LineState.tested]
      split_ifs
      · exact List.mem_cons_self
      · exact List.mem_cons_self
    exact absurd (h _ hfirst).1 (by decide)
  · rw [List.concat_eq_append] at hgot ⊢
    have hbptr : ((LineState.having (init ++ [c])).bptr : ℤ) = init.length + 1 := by
      simp [LineState.having]
    have hne : init ++ [c] ≠ [] := by simp
    have hlf : init ++ [c] ≠ [lf] ↔ (c = lf → init ≠ []) := by
      rw [Ne, List.append_eq_singleton_iff]
      simp only [List.cons_ne_nil, and_false, or_false, List.cons.injEq, and_true, not_and,
        ← ne_eq]
      exact ⟨fun h hc hinit => h hinit hc, fun h hinit hc => h hc hinit⟩
    rw [LineState.tested, rbuffAt_last, hbptr, hlf]
    rw [List.length_append, List.length_singleton] at hgot
    split_ifs with hc
    · rw [List.forall_mem_cons, List.forall_mem_singleton, and_iff_right hne,
        ← List.length_pos_iff]
      constructor
      · intro h _
        omega
      · intro h
        have hpos := h hc
        omega
    · rw [List.forall_mem_singleton]
      exact iff_of_true (by omega) ⟨hne, fun h => absurd h hc⟩

/-- A read and its log are inside the buffer when it is not full after it. -/
lemma used_inside (hroom : (moreRead got r).length < rbuffSize) :
    ∀ i ∈ (LineState.having got).used r, 0 ≤ i ∧ i < rbuffSize := by
  intro i hi
  have hstr : (cstr (((LineState.having got).receive r).rbuff.drop got.length)).length ≤
      (r.bytes (rbuffSize - got.length)).length := by
    obtain ⟨n, hn⟩ := Nat.exists_eq_add_of_lt hroom
    have hzeros : rbuffSize - (moreRead got r).length = n + 1 := by omega
    rw [receive_having, LineState.having, hzeros, List.replicate_succ, moreRead,
      List.append_assoc, List.drop_left, cstr_append_zero]
    exact (List.takeWhile_prefix _).length_le
  rw [moreRead, List.length_append] at hroom
  rw [LineState.used] at hi
  obtain ⟨k, hk, rfl⟩ := List.mem_map.mp hi
  change k ∈ List.range (r.bytes (rbuffSize - got.length)).length ++ _ at hk
  change 0 ≤ ((got.length + k : ℕ) : ℤ) ∧ ((got.length + k : ℕ) : ℤ) < rbuffSize
  rw [List.mem_append, List.mem_range, List.mem_range] at hk
  have hle : k ≤ (r.bytes (rbuffSize - got.length)).length := by
    rcases hk with hk | hk
    · exact Nat.le_of_lt hk
    · split_ifs at hk
      · exact absurd hk (Nat.not_lt_zero k)
      · exact (Nat.le_of_lt_succ (Nat.lt_of_lt_of_le hk (Nat.min_le_right _ _))).trans hstr
  omega

/-- The NUL is inside the buffer when it is not full. -/
lemma finish_inside_iff (b : Bool) :
    (∀ i ∈ ((LineState.having got).finish b).accesses, 0 ≤ i ∧ i < rbuffSize) ↔
      got.length < rbuffSize := by
  have haccess : ((LineState.having got).finish b).accesses = [(got.length : ℤ)] := by
    cases b with
    | false => rfl
    | true => rfl
  rw [haccess, List.forall_mem_singleton]
  omega

/-! ## The loop -/

lemma attemptEnds_zero : AttemptEnds got reads 0 ↔ reads 0 ≠ .failed :=
  and_iff_left fun j hj => absurd hj (Nat.not_lt_zero j)

lemma attemptEnds_succ {k : ℕ} : AttemptEnds got reads (k + 1) ↔
    (reads 0 ≠ .failed ∧ ¬ EndsCrlf (moreRead got (reads 0)) ∧
      (moreRead got (reads 0)).length + 1 < rbuffSize) ∧
      AttemptEnds (moreRead got (reads 0)) (fun k => reads (k + 1)) k := by
  rw [AttemptEnds, AttemptEnds, Nat.forall_lt_succ_left]
  exact and_left_comm

/-- All attempts that come to their end leave something to look back at. -/
def AllLookBack (got : List Byte) (reads : ℕ → SerialRead) (left : ℕ) : Prop :=
  ∀ k < left, AttemptEnds got reads k → LooksBack (readSoFar got reads (k + 1))

lemma allLookBack_succ (hread : reads 0 ≠ .failed) : AllLookBack got reads (left + 1) ↔
    LooksBack (moreRead got (reads 0)) ∧
      (¬ EndsCrlf (moreRead got (reads 0)) → (moreRead got (reads 0)).length + 1 < rbuffSize →
        AllLookBack (moreRead got (reads 0)) (fun k => reads (k + 1)) left) := by
  rw [AllLookBack, Nat.forall_lt_succ_left, attemptEnds_zero]
  refine and_congr ⟨fun h => h hread, fun h _ => h⟩ ?_
  constructor
  · intro h hcrlf hroom k hk hends
    exact h k hk (attemptEnds_succ.mpr ⟨⟨hread, hcrlf, hroom⟩, hends⟩)
  · intro h k hk hends
    obtain ⟨⟨-, hcrlf, hroom⟩, hrest⟩ := attemptEnds_succ.mp hends
    exact h hcrlf hroom k hk hrest

/-- One round of the loop. -/
lemma lineLoop_succ (hread : reads 0 ≠ .failed) :
    lineLoop below (left + 1) (.having got) reads =
      LineRead.after ((LineState.having got).used (reads 0) ++
          (LineState.having (moreRead got (reads 0))).tested below)
        (if (LineState.having (moreRead got (reads 0))).finished below then
          (LineState.having (moreRead got (reads 0))).finish true
        else if (moreRead got (reads 0)).length + 1 < rbuffSize then
          lineLoop below left (.having (moreRead got (reads 0))) fun k => reads (k + 1)
        else (LineState.having (moreRead got (reads 0))).finish false) := by
  rw [lineLoop, if_neg hread, receive_having]
  generalize moreRead got (reads 0) = got'
  have hspace : (LineState.having got').maxRead ≤ 1 ↔ ¬ got'.length + 1 < rbuffSize := by
    change rbuffSize - got'.length ≤ 1 ↔ _
    omega
  dsimp only
  by_cases hroom : got'.length + 1 < rbuffSize
  · have hmore : ¬ (LineState.having got').maxRead ≤ 1 := fun h => hspace.mp h hroom
    rw [if_pos hroom, if_neg hmore]
  · rw [if_neg hroom, if_pos (hspace.mpr hroom)]

lemma accesses_after (accesses : List ℤ) (l : LineRead) :
    (l.after accesses).accesses = accesses ++ l.accesses := rfl

/-- **The loop stays inside the buffer** exactly when all attempts leave something to look back
at. -/
lemma lineLoop_inside_iff (hgot : got.length < rbuffSize) :
    (∀ i ∈ (lineLoop below left (.having got) reads).accesses, 0 ≤ i ∧ i < rbuffSize) ↔
      AllLookBack got reads left := by
  induction left generalizing got reads with
  | zero =>
      refine iff_of_true ?_ fun k hk => absurd hk (Nat.not_lt_zero k)
      exact (finish_inside_iff false).mpr hgot
  | succ left ih =>
      by_cases hread : reads 0 = .failed
      · rw [lineLoop, if_pos hread]
        refine iff_of_true (fun i hi => absurd hi List.not_mem_nil) fun k _ hends => ?_
        cases k with
        | zero => exact absurd hread (attemptEnds_zero.mp hends)
        | succ k => exact absurd hread (attemptEnds_succ.mp hends).1.1
      · have hmore := length_moreRead_le (r := reads 0) (Nat.le_of_lt hgot)
        rw [lineLoop_succ hread, allLookBack_succ hread, accesses_after, List.forall_mem_append,
          List.forall_mem_append, tested_inside_iff hmore]
        generalize hnext : moreRead got (reads 0) = got' at hmore ⊢
        by_cases hback : LooksBack got'
        · have hused := used_inside (r := reads 0) (hnext ▸ hback.room)
          rw [and_iff_right ⟨hused, hback.ne_nil, hback.ne_lf⟩, and_iff_right hback,
            finished_having hback.ne_nil hback.ne_lf]
          by_cases hcrlf : EndsCrlf got'
          · rw [if_pos (decide_eq_true hcrlf)]
            exact iff_of_true ((finish_inside_iff true).mpr hback.room) fun h => absurd hcrlf h
          · rw [if_neg (by simpa using hcrlf)]
            by_cases hroom : got'.length + 1 < rbuffSize
            · rw [if_pos hroom, ih hback.room]
              exact ⟨fun h _ _ => h, fun h => h hcrlf hroom⟩
            · rw [if_neg hroom]
              exact iff_of_true ((finish_inside_iff false).mpr hback.room)
                fun _ h => absurd h hroom
        · refine iff_of_false ?_ fun h => hback h.1
          rintro ⟨⟨-, hnil, hlf⟩, hrest⟩
          have hfull : ¬ got'.length + 1 < rbuffSize := fun h =>
            hback ⟨hnil, hlf, Nat.lt_of_succ_lt h⟩
          have hlt : got'.length < rbuffSize := by
            split_ifs at hrest
            · exact (finish_inside_iff true).mp hrest
            · exact (finish_inside_iff false).mp hrest
          exact hback ⟨hnil, hlf, hlt⟩

/-- The loop makes at most the attempts that are left. -/
lemma tries_lineLoop_le (st : LineState) : (lineLoop below left st reads).tries ≤ left := by
  induction left generalizing st reads with
  | zero => exact Nat.le_refl 0
  | succ left ih =>
      rw [lineLoop]
      split_ifs
      · exact Nat.succ_le_succ (Nat.zero_le left)
      · refine Nat.succ_le_succ ?_
        split_ifs
        · exact Nat.zero_le left
        · exact Nat.zero_le left
        · exact ih _

/-- A loop that does not return 0 leaves no reply. -/
lemma lineLoop_failed (st : LineState) : (lineLoop below left st reads).rc = 0 ∨
    ((lineLoop below left st reads).rc = -1 ∧ (lineLoop below left st reads).reply = none) := by
  induction left generalizing st reads with
  | zero => exact Or.inr ⟨rfl, rfl⟩
  | succ left ih =>
      rw [lineLoop]
      split_ifs
      · exact Or.inr ⟨rfl, rfl⟩
      · change (LineRead.rc (ite _ _ _)) = 0 ∨ (LineRead.rc (ite _ _ _)) = -1 ∧
          LineRead.reply (ite _ _ _) = none
        split_ifs
        · exact Or.inl rfl
        · exact Or.inr ⟨rfl, rfl⟩
        · exact ih _

/-- The line that the attempts bring: what has been read after one of them ends in `"\r\n"`. -/
def BringsLine (got : List Byte) (reads : ℕ → SerialRead) (left : ℕ) (line : List Byte) : Prop :=
  ∃ k < left, AttemptEnds got reads k ∧ readSoFar got reads (k + 1) = line ∧ EndsCrlf line

lemma not_bringsLine_zero {line : List Byte} : ¬ BringsLine got reads 0 line :=
  fun ⟨k, hk, _⟩ => Nat.not_lt_zero k hk

lemma not_bringsLine_of_failed (hread : reads 0 = .failed) {line : List Byte} :
    ¬ BringsLine got reads left line := by
  rintro ⟨k, -, hends, -⟩
  cases k with
  | zero => exact attemptEnds_zero.mp hends hread
  | succ k => exact (attemptEnds_succ.mp hends).1.1 hread

/-- The line comes with the first attempt, or with a later one. -/
lemma bringsLine_succ (hread : reads 0 ≠ .failed) {line : List Byte} :
    BringsLine got reads (left + 1) line ↔
      (moreRead got (reads 0) = line ∧ EndsCrlf line) ∨
        (¬ EndsCrlf (moreRead got (reads 0)) ∧ (moreRead got (reads 0)).length + 1 < rbuffSize) ∧
          BringsLine (moreRead got (reads 0)) (fun k => reads (k + 1)) left line := by
  rw [BringsLine, Nat.exists_lt_succ_left, attemptEnds_zero, and_iff_right hread]
  refine or_congr Iff.rfl ?_
  constructor
  · rintro ⟨k, hk, hends, hline⟩
    obtain ⟨⟨-, hmore⟩, hrest⟩ := attemptEnds_succ.mp hends
    exact ⟨hmore, k, hk, hrest, hline⟩
  · rintro ⟨hmore, k, hk, hends, hline⟩
    exact ⟨k, hk, attemptEnds_succ.mpr ⟨⟨hread, hmore⟩, hends⟩, hline⟩

/-- The reply, with its NUL. -/
lemma reply_finish (hroom : got.length < rbuffSize) :
    ∃ rest, ((LineState.having got).finish true).reply = some (got ++ 0 :: rest) := by
  obtain ⟨n, hn⟩ := Nat.exists_eq_add_of_lt hroom
  have hzeros : rbuffSize - got.length = n + 1 := by omega
  refine ⟨List.replicate n 0, ?_⟩
  rw [LineState.finish, if_pos rfl, LineState.having, hzeros, List.replicate_succ,
    List.set_append_right _ _ (Nat.le_refl _), Nat.sub_self, List.set_cons_zero]

/-- **What the loop returns**, when all attempts leave something to look back at. -/
lemma lineLoop_returns (below : ℕ → Byte) (hall : AllLookBack got reads left) :
    ((lineLoop below left (.having got) reads).rc = 0 ↔ ∃ line, BringsLine got reads left line) ∧
      ∀ line, BringsLine got reads left line →
        ∃ rest, (lineLoop below left (.having got) reads).reply = some (line ++ 0 :: rest) := by
  induction left generalizing got reads with
  | zero =>
      refine ⟨iff_of_false ?_ fun ⟨line, h⟩ => not_bringsLine_zero h,
        fun line h => absurd h not_bringsLine_zero⟩
      exact fun h => absurd h (by decide : (-1 : ℤ) ≠ 0)
  | succ left ih =>
      by_cases hread : reads 0 = .failed
      · rw [lineLoop, if_pos hread]
        exact ⟨iff_of_false (by decide) fun ⟨line, h⟩ => not_bringsLine_of_failed hread h,
          fun line h => absurd h (not_bringsLine_of_failed hread)⟩
      · obtain ⟨hback, hlater⟩ := (allLookBack_succ hread).mp hall
        simp only [bringsLine_succ hread]
        rw [lineLoop_succ hread, finished_having hback.ne_nil hback.ne_lf]
        generalize moreRead got (reads 0) = got' at hback hlater ⊢
        by_cases hcrlf : EndsCrlf got'
        · rw [if_pos (decide_eq_true hcrlf)]
          refine ⟨iff_of_true rfl ⟨got', Or.inl ⟨rfl, hcrlf⟩⟩, fun line h => ?_⟩
          rcases h with ⟨rfl, -⟩ | ⟨⟨h, -⟩, -⟩
          · exact reply_finish hback.room
          · exact absurd hcrlf h
        · rw [if_neg (by simpa using hcrlf)]
          have hnot (line : List Byte) : ¬ (got' = line ∧ EndsCrlf line) :=
            fun h => hcrlf (h.1 ▸ h.2)
          simp only [hnot, false_or]
          by_cases hroom : got'.length + 1 < rbuffSize
          · rw [if_pos hroom]
            simp only [hcrlf, hroom, not_false_eq_true, and_self, true_and]
            exact ih (hlater hcrlf hroom)
          · rw [if_neg hroom]
            refine ⟨iff_of_false ?_ fun ⟨line, h⟩ => hroom h.1.2, fun line h => absurd h.1.2 hroom⟩
            exact fun h => absurd h (by decide : (-1 : ℤ) ≠ 0)

end

/-- **When a call does what is expected.** -/
theorem readsLine_iff (below : ℕ → Byte) (reads : ℕ → SerialRead) :
    ReadsLine below reads ↔
      ∀ k < 5, AttemptEnds [] reads k → LooksBack (readSoFar [] reads (k + 1)) := by
  have hstart : ([] : List Byte).length < rbuffSize := by decide
  constructor
  · intro h
    exact (lineLoop_inside_iff hstart).mp h.inside
  · intro hall
    obtain ⟨hreturns, hreply⟩ := lineLoop_returns below hall
    refine ⟨(lineLoop_inside_iff hstart).mpr hall, tries_lineLoop_le _, ?_, ?_, ?_⟩
    · rw [serialReadLine, start_eq_having, maxTries, hreturns]
      constructor
      · rintro ⟨line, k, hk, hends, rfl, hcrlf⟩
        exact ⟨k, hk, hends, hcrlf⟩
      · rintro ⟨k, hk, hends, hcrlf⟩
        exact ⟨_, k, hk, hends, rfl, hcrlf⟩
    · intro k hk hends hcrlf
      exact hreply _ ⟨k, hk, hends, rfl, hcrlf⟩
    · exact fun hne => (lineLoop_failed _).resolve_left hne

/-- **A timeout at the first attempt** lets the test look at the memory in front of the buffer. -/
theorem timeoutFirst_reads_below :
    ¬ ReadsLine (fun _ => 0) fun k => if k = 0 then .timeout else .chunk (str "$OK\r\n") := by
  intro h
  have hall := (lineLoop_inside_iff (by decide : ([] : List Byte).length < rbuffSize)).mp h.inside
  exact (hall 0 (by decide) (attemptEnds_zero.mpr SerialRead.noConfusion)).ne_nil rfl

end G7
