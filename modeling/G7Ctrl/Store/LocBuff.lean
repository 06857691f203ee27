import G7Ctrl.Store.AllOrNothing
import G7Ctrl.Xstr.Block

/-!
# The copying loops of `db_store_locations`

The two nested loops with their pointers: `bptr` runs over the text, `lptr` over `locBuff`.  They
are run on the block of the text and the 512 bytes of `locBuff`, so that a run is done exactly when
the loops stay inside both and end.

* `copyLoop`, `storeLoopMem`, `dbStoreLocationsMem` — the loops, and the routine.
* **`dbStoreLocationsMem_eq`** — the run on checked memory is that of `dbStoreLocations`, which is
  read from it as one pass over the text, with a fault where that one has overrun `locBuff`.
* `FitsLocBuff` — the condition on the lines of the text.
* **`isDone_dbStoreLocationsMem_iff`** — the loops stay inside their memory exactly then.
-/

namespace G7

/-! ## The loops -/

/-- The variables of the inner loop. -/
structure Copying where
  bptr : ℕ
  lptr : ℕ
  numFields : ℕ
  locBuff : List Byte

/-- `finished` -/
def atRoundEnd (mem : List Byte) (bptr : ℕ) : Checked Bool := do
  let c ← load mem bptr
  if c = 0 then return true
  else
    let crlf ← atCrlf mem bptr
    return crlf || decide (c = ch ']')

/-- `if (LOC_DELIM == *bptr) numFields++` -/
def countField (numFields : ℕ) (next : Byte) : ℕ :=
  if next = ch ',' then numFields + 1 else numFields

/-- The inner loop. -/
def copyLoop (mem : List Byte) : ℕ → Copying → Checked Copying
  | 0, _ => .timeout
  | fuel + 1, s => do
      let finished ← atRoundEnd mem s.bptr
      if finished then return s
      else
        let c ← load mem s.bptr
        let locBuff ← store s.locBuff s.lptr c
        let d ← load mem (s.bptr + 1)
        let numFields := countField s.numFields d
        if numFields < 12 then copyLoop mem fuel ⟨s.bptr + 1, s.lptr + 1, numFields, locBuff⟩
        else return ⟨s.bptr + 1, s.lptr + 1, numFields, locBuff⟩

/-- The outer loop. -/
def storeLoopMem (env : StoreEnv) (numLoc : ℕ) (cb : Bool) (mem : List Byte) :
    ℕ → ℕ → List Byte → Txn → Checked LoopEnd
  | 0, _, _, _ => .timeout
  | fuel + 1, bptr, locBuff, t => do
      let s ← copyLoop mem mem.length ⟨bptr, 0, 1, locBuff⟩
      let locBuff ← store s.locBuff s.lptr 0
      let crlf ← atCrlf mem s.bptr
      let bptr := if crlf then s.bptr + 2 else s.bptr
      if 12 ≤ s.numFields then return .rejected t
      else
        match splitLocation (cstr locBuff) with
        | none => return .rejected t
        | some flds =>
            let c ← load mem bptr
            if c = 0 ∨ c = ch ']' then return .finished (t.storeRecord env numLoc cb flds)
            else storeLoopMem env numLoc cb mem fuel bptr locBuff (t.storeRecord env numLoc cb flds)

/-- What is done after the outer loop. -/
def LoopEnd.result (env : StoreEnv) (numLoc : ℕ) (table : List Row) : LoopEnd → StoreResult
  | .overran => .overran
  | .rejected t => .returned (-1) table t.calls t.progress
  | .finished t =>
      let progress := if 100 < numLoc then t.progress ++ str "[100%]\n" else t.progress
      if env.commitOk then .returned t.cnt (table ++ t.rows) t.calls progress
      else .returned (-1) table t.calls progress

/-- `db_store_locations` on the block of its text.  Every round of a loop passes a byte of it. -/
def dbStoreLocationsMem (env : StoreEnv) (numLoc : ℕ) (mem : List Byte) (cb : Bool)
    (table : List Row) : Checked StoreResult :=
  if env.opens = false then return .returned (-1) table [] []
  else do
    let c ← load mem 0
    let bptr := if c = ch '[' then 1 else 0
    let e ← storeLoopMem env numLoc cb mem mem.length bptr (List.replicate locBuffSize 0)
      (.start numLoc)
    return e.result env numLoc table

/-! ## The inner loop -/

/-- The inner loop as a function of the rest of the text: the fields it counts and what it copies,
and where it stops. -/
def copyRound : ℕ → CStr → List Byte → (ℕ × CStr) × List Byte
  | numFields, locBuff, [] => ((numFields, locBuff), [])
  | numFields, locBuff, c :: cs =>
      if c = 0 ∨ c = ch ']' then ((numFields, locBuff), c :: cs)
      else if c = cr ∧ byteAt cs 0 = lf then ((numFields, locBuff), c :: cs)
      else if countField numFields (byteAt cs 0) < 12 then
        copyRound (countField numFields (byteAt cs 0)) (locBuff ++ [c]) cs
      else ((countField numFields (byteAt cs 0), locBuff ++ [c]), cs)

/-- The rounds after one that has ended here. -/
def roundsAfter (rest : List Byte) : List (ℕ × CStr) :=
  if byteAt rest 0 = cr ∧ byteAt rest 1 = lf then rounds true 1 [] rest.tail else []

section CopyRound

variable {numFields : ℕ} {locBuff : CStr} {c : Byte} {cs : List Byte}

/-- A round ends here. -/
lemma copyRound_end (hend : (c = 0 ∨ c = ch ']') ∨ (c = cr ∧ byteAt cs 0 = lf)) :
    copyRound numFields locBuff (c :: cs) = ((numFields, locBuff), c :: cs) := by
  rw [copyRound]
  rcases hend with hstop | hcr
  · rw [if_pos hstop]
  · rw [if_pos hcr, ite_self]

/-- A byte is copied, and the next one looked at. -/
lemma copyRound_char (numFields : ℕ) (locBuff : CStr)
    (hend : ¬ ((c = 0 ∨ c = ch ']') ∨ (c = cr ∧ byteAt cs 0 = lf))) :
    copyRound numFields locBuff (c :: cs) =
      if countField numFields (byteAt cs 0) < 12 then
        copyRound (countField numFields (byteAt cs 0)) (locBuff ++ [c]) cs
      else ((countField numFields (byteAt cs 0), locBuff ++ [c]), cs) := by
  rw [copyRound, if_neg fun hstop => hend (Or.inl hstop), if_neg fun hcr => hend (Or.inr hcr)]

/-- A round, and those after it. -/
lemma rounds_eq_copyRound (mem : List Byte) (hnum : numFields < 12) :
    rounds false numFields locBuff mem = (copyRound numFields locBuff mem).1 ::
      roundsAfter (copyRound numFields locBuff mem).2 := by
  induction mem generalizing numFields locBuff with
  | nil => rfl
  | cons c cs ih =>
      rw [copyRound]
      split_ifs with hstop hcr hlt
      · have hne : ¬ (c = cr ∧ byteAt cs 0 = lf) := by
          rintro ⟨rfl, -⟩
          exact absurd hstop (by decide)
        rw [rounds, if_pos hstop]
        exact congrArg _ (if_neg hne).symm
      · rw [rounds, if_neg hstop, if_pos hcr]
        exact congrArg _ (if_pos hcr).symm
      · rw [rounds, if_neg hstop, if_neg hcr]
        exact (if_pos hlt).trans (ih hlt)
      · -- the round has stopped at a comma
        have hcomma : byteAt cs 0 = ch ',' := by
          by_contra hne
          exact hlt ((if_neg hne).trans_lt hnum)
        have hne : ¬ (byteAt cs 0 = cr ∧ byteAt cs 1 = lf) := by
          rw [hcomma]
          exact fun h => absurd h.1 (by decide)
        rw [rounds, if_neg hstop, if_neg hcr]
        exact (if_neg hlt).trans (congrArg _ (if_neg hne).symm)

/-- What was copied stays. -/
lemma length_le_copyRound (numFields : ℕ) (locBuff : CStr) (mem : List Byte) :
    locBuff.length ≤ (copyRound numFields locBuff mem).1.2.length := by
  induction mem generalizing numFields locBuff with
  | nil => exact le_rfl
  | cons c cs ih =>
      rw [copyRound]
      split_ifs with hstop hcr hlt
      · exact le_rfl
      · exact le_rfl
      · have h := ih (countField numFields (byteAt cs 0)) (locBuff ++ [c])
        rw [List.length_append] at h
        omega
      · simp

/-- Nothing is passed twice. -/
lemma length_copyRound_rest_le (numFields : ℕ) (locBuff : CStr) (mem : List Byte) :
    (copyRound numFields locBuff mem).2.length ≤ mem.length := by
  induction mem generalizing numFields locBuff with
  | nil => exact le_rfl
  | cons c cs ih =>
      rw [copyRound]
      split_ifs with hstop hcr hlt
      · exact le_rfl
      · exact le_rfl
      · exact (ih _ _).trans (Nat.le_succ _)
      · exact Nat.le_succ _

/-- No NUL is copied. -/
lemma nul_notMem_copyRound (mem : List Byte) (h : (0 : Byte) ∉ locBuff) :
    (0 : Byte) ∉ (copyRound numFields locBuff mem).1.2 := by
  induction mem generalizing numFields locBuff with
  | nil => exact h
  | cons c cs ih =>
      rw [copyRound]
      split_ifs with hstop hcr hlt
      · exact h
      · exact h
      · refine ih ?_
        simp only [List.mem_append, List.mem_singleton, not_or]
        exact ⟨h, fun h0 => hstop (Or.inl h0.symm)⟩
      · simp only [List.mem_append, List.mem_singleton, not_or]
        exact ⟨h, fun h0 => hstop (Or.inl h0.symm)⟩

/-- Where a round ends that has not counted too many fields. -/
lemma copyRound_rest (mem : List Byte) (hnum : (copyRound numFields locBuff mem).1.1 < 12) :
    (byteAt (copyRound numFields locBuff mem).2 0 = 0 ∨
      byteAt (copyRound numFields locBuff mem).2 0 = ch ']') ∨
        (byteAt (copyRound numFields locBuff mem).2 0 = cr ∧
          byteAt (copyRound numFields locBuff mem).2 1 = lf) := by
  induction mem generalizing numFields locBuff with
  | nil => exact Or.inl (Or.inl rfl)
  | cons c cs ih =>
      rw [copyRound] at hnum ⊢
      split_ifs at hnum ⊢ with hstop hcr hlt
      · exact Or.inl hstop
      · exact Or.inr hcr
      · exact ih hnum
      · exact absurd hnum hlt

end CopyRound

/-- The variables of the inner loop when `copied` is in `locBuff` and `rest` is ahead. -/
structure Copying.At (text : CStr) (s : Copying) (copied : CStr) (rest : List Byte) : Prop where
  inside : s.bptr ≤ text.length
  rest : text.drop s.bptr = rest
  size : s.locBuff.length = locBuffSize
  lptr : s.lptr = copied.length
  copied : s.locBuff.take s.lptr = copied

namespace Copying.At

variable {text : CStr} {s : Copying} {copied : CStr} {rest : List Byte}

lemma length_rest (h : s.At text copied rest) : s.bptr + rest.length = text.length := by
  have hin := h.inside
  rw [← h.rest, List.length_drop]
  omega

lemma load_add (h : s.At text copied rest) {k : ℕ} (hk : k ≤ rest.length) :
    load (cblock text) (s.bptr + k) = .done (byteAt rest k) := by
  have hlen := h.length_rest
  rw [load_cblock (by omega), ← h.rest, byteAt_drop]

lemma load_zero (h : s.At text copied rest) : load (cblock text) s.bptr = .done (byteAt rest 0) :=
  h.load_add (Nat.zero_le _)

lemma atCrlf_eq (h : s.At text copied rest) :
    atCrlf (cblock text) s.bptr = .done (decide (byteAt rest 0 = cr ∧ byteAt rest 1 = lf)) := by
  simp only [atCrlf, h.load_zero, Checked.done_bind]
  split_ifs with hcr
  · have hpos : 1 ≤ rest.length := by
      by_contra! hlt
      rw [byteAt_eq_zero (by omega)] at hcr
      exact absurd hcr (by decide)
    simp only [h.load_add hpos, Checked.done_bind, Checked.pure_eq, hcr, true_and]
  · simp only [Checked.pure_eq, hcr, false_and, decide_false]

/-- One more byte in `locBuff`. -/
lemma push {c : Byte} {cs : List Byte} (h : s.At text copied (c :: cs))
    (hroom : copied.length < locBuffSize) (numFields : ℕ) :
    ∃ locBuff, store s.locBuff s.lptr c = .done locBuff ∧
      (Copying.mk (s.bptr + 1) (s.lptr + 1) numFields locBuff).At text (copied ++ [c]) cs := by
  have hlt : s.lptr < s.locBuff.length := by
    rw [h.lptr, h.size]
    exact hroom
  have hlen := h.length_rest
  refine ⟨s.locBuff.set s.lptr c, store_eq_done hlt, ?_, ?_, ?_, ?_, ?_⟩
  · show s.bptr + 1 ≤ text.length
    rw [← hlen, List.length_cons]
    omega
  · show text.drop (s.bptr + 1) = cs
    rw [← List.drop_drop, h.rest, List.drop_one, List.tail_cons]
  · show (s.locBuff.set s.lptr c).length = locBuffSize
    rw [List.length_set, h.size]
  · show s.lptr + 1 = (copied ++ [c]).length
    rw [h.lptr, List.length_append, List.length_singleton]
  · show (s.locBuff.set s.lptr c).take (s.lptr + 1) = copied ++ [c]
    rw [List.set_eq_take_append_cons_drop, if_pos hlt, h.copied, h.lptr,
      List.take_length_add_append]
    rfl

lemma atRoundEnd_nil (h : s.At text copied []) : atRoundEnd (cblock text) s.bptr = .done true := by
  have hload : load (cblock text) s.bptr = .done 0 := h.load_zero
  simp [atRoundEnd, hload]

lemma atRoundEnd_cons {c : Byte} {cs : List Byte} (h : s.At text copied (c :: cs)) :
    atRoundEnd (cblock text) s.bptr =
      .done (decide ((c = 0 ∨ c = ch ']') ∨ (c = cr ∧ byteAt cs 0 = lf))) := by
  have hload : load (cblock text) s.bptr = .done c := h.load_zero
  have hcrlf : atCrlf (cblock text) s.bptr = .done (decide (c = cr ∧ byteAt cs 0 = lf)) :=
    h.atCrlf_eq
  simp only [atRoundEnd, hload, hcrlf, Checked.done_bind, Checked.pure_eq]
  split_ifs with h0
  · simp [h0]
  · simp [h0, Bool.or_comm]

end Copying.At

/-- **The inner loop copies a round**, or leaves `locBuff`. -/
lemma copyLoop_eq {text : CStr} {rest : List Byte} {fuel : ℕ} {s : Copying} {copied : CStr}
    (hfuel : rest.length < fuel) (h : s.At text copied rest) :
    if (copyRound s.numFields copied rest).1.2.length ≤ locBuffSize then
      ∃ s', copyLoop (cblock text) fuel s = .done s' ∧
        s'.numFields = (copyRound s.numFields copied rest).1.1 ∧
          s'.At text (copyRound s.numFields copied rest).1.2 (copyRound s.numFields copied rest).2
    else copyLoop (cblock text) fuel s = .fault := by
  induction rest generalizing fuel s copied with
  | nil =>
      cases fuel with
      | zero => exact absurd hfuel (Nat.not_lt_zero _)
      | succ fuel =>
          have hroom : copied.length ≤ locBuffSize := by
            rw [← h.copied, List.length_take, h.size]
            exact min_le_right _ _
          rw [copyRound, if_pos hroom]
          refine ⟨s, ?_, rfl, h⟩
          simp only [copyLoop, h.atRoundEnd_nil, Checked.done_bind, if_true, Checked.pure_eq]
  | cons c cs ih =>
      cases fuel with
      | zero => exact absurd hfuel (Nat.not_lt_zero _)
      | succ fuel =>
          have hroom : copied.length ≤ locBuffSize := by
            rw [← h.copied, List.length_take, h.size]
            exact min_le_right _ _
          have hload : load (cblock text) s.bptr = .done c := h.load_zero
          have hnext : load (cblock text) (s.bptr + 1) = .done (byteAt cs 0) :=
            h.load_add (by simp)
          by_cases hend : (c = 0 ∨ c = ch ']') ∨ (c = cr ∧ byteAt cs 0 = lf)
          · rw [copyRound_end hend, if_pos hroom]
            refine ⟨s, ?_, rfl, h⟩
            simp only [copyLoop, h.atRoundEnd_cons, hend, decide_true, Checked.done_bind, if_true,
              Checked.pure_eq]
          · have hround := copyRound_char s.numFields copied hend
            have hloop : copyLoop (cblock text) (fuel + 1) s = do
                let locBuff ← store s.locBuff s.lptr c
                if countField s.numFields (byteAt cs 0) < 12 then
                  copyLoop (cblock text) fuel
                    ⟨s.bptr + 1, s.lptr + 1, countField s.numFields (byteAt cs 0), locBuff⟩
                else return ⟨s.bptr + 1, s.lptr + 1, countField s.numFields (byteAt cs 0),
                  locBuff⟩ := by
              simp only [copyLoop, h.atRoundEnd_cons, hend, decide_false, Checked.done_bind,
                Bool.false_eq_true, if_false, hload, hnext]
            rcases Nat.lt_or_eq_of_le hroom with hlt | hfull
            · obtain ⟨locBuff, hstore, hpush⟩ :=
                h.push hlt (countField s.numFields (byteAt cs 0))
              rw [hloop, hstore, Checked.done_bind, hround]
              split_ifs with hnum hfit
              · have hih := ih (Nat.lt_of_succ_lt_succ hfuel) hpush
                rwa [if_pos hfit] at hih
              · have hih := ih (Nat.lt_of_succ_lt_succ hfuel) hpush
                rwa [if_neg hfit] at hih
              · exact ⟨_, rfl, rfl, hpush⟩
              · rename_i hfit
                rw [List.length_append, List.length_singleton] at hfit
                exact absurd hlt hfit
            · have hstore : store s.locBuff s.lptr c = .fault :=
                store_eq_fault (by rw [h.size, h.lptr, hfull])
              have hlong : ¬ (copyRound s.numFields copied (c :: cs)).1.2.length ≤ locBuffSize := by
                rw [hround]
                split_ifs with hnum
                · have hle := length_le_copyRound (countField s.numFields (byteAt cs 0))
                    (copied ++ [c]) cs
                  rw [List.length_append, List.length_singleton] at hle
                  omega
                · rw [List.length_append, List.length_singleton]
                  omega
              rw [if_neg hlong, hloop, hstore, Checked.fault_bind]

/-! ## The outer loop -/

/-- An overrun of `locBuff` is a fault. -/
def LoopEnd.checked : LoopEnd → Checked LoopEnd
  | .overran => .fault
  | e => .done e

/-- The rounds after one that has not counted too many fields. -/
lemma roundsAfter_eq {rest : List Byte}
    (hrest : (byteAt rest 0 = 0 ∨ byteAt rest 0 = ch ']') ∨
      (byteAt rest 0 = cr ∧ byteAt rest 1 = lf)) (k : ℕ)
    (hk : k = if byteAt rest 0 = cr ∧ byteAt rest 1 = lf then 2 else 0) :
    k ≤ rest.length ∧ roundsAfter rest =
      if byteAt rest k = 0 ∨ byteAt rest k = ch ']' then [] else rounds false 1 [] (rest.drop k) := by
  subst hk
  by_cases hcr : byteAt rest 0 = cr ∧ byteAt rest 1 = lf
  · rcases rest with _ | ⟨c, _ | ⟨d, cs⟩⟩
    · exact absurd hcr (by decide)
    · exact absurd (show (0 : Byte) = lf from hcr.2) (by decide)
    · rw [if_pos hcr, roundsAfter, if_pos hcr, List.tail_cons, rounds]
      exact ⟨by simp, rfl⟩
  · have hstop := hrest.resolve_right hcr
    rw [if_neg hcr, roundsAfter, if_neg hcr, if_pos hstop]
    exact ⟨Nat.zero_le _, rfl⟩

/-- **The loops store the rounds of the text**, or leave `locBuff`. -/
lemma storeLoopMem_eq (env : StoreEnv) (numLoc : ℕ) (cb : Bool) {text : CStr} {fuel bptr : ℕ}
    {locBuff : List Byte} {t : Txn} (hsize : locBuff.length = locBuffSize)
    (hin : bptr ≤ text.length) (hfuel : text.length < bptr + fuel) :
    storeLoopMem env numLoc cb (cblock text) fuel bptr locBuff t =
      (storeRounds env numLoc cb t (rounds false 1 [] (text.drop bptr))).checked := by
  induction fuel generalizing bptr locBuff t with
  | zero => omega
  | succ fuel ih =>
      have hstart : (Copying.mk bptr 0 1 locBuff).At text [] (text.drop bptr) :=
        ⟨hin, rfl, hsize, rfl, rfl⟩
      have hlen : (text.drop bptr).length < (cblock text).length := by
        rw [List.length_drop, length_cblock]
        omega
      have hcopy := copyLoop_eq hlen hstart
      have hnul : (0 : Byte) ∉ (copyRound 1 [] (text.drop bptr)).1.2 :=
        nul_notMem_copyRound (text.drop bptr) List.not_mem_nil
      have hrest := @copyRound_rest 1 [] (text.drop bptr)
      have hle := length_copyRound_rest_le 1 [] (text.drop bptr)
      rw [rounds_eq_copyRound _ (by omega), storeRounds, storeLoopMem]
      simp only at hcopy
      generalize copyRound 1 [] (text.drop bptr) = r at hcopy hnul hrest hle ⊢
      rcases lt_or_ge r.1.2.length locBuffSize with hfit | hlong
      · rw [if_pos hfit.le] at hcopy
        obtain ⟨s, hs, hnum, hat⟩ := hcopy
        have hlt : s.lptr < s.locBuff.length := by
          rw [hat.lptr, hat.size]
          exact hfit
        have hstr : cstr (s.locBuff.set s.lptr 0) = r.1.2 := by
          rw [cstr_store_nul hlt (hat.copied ▸ hnul), hat.copied]
        rw [hs, Checked.done_bind, store_eq_done hlt, Checked.done_bind, hat.atCrlf_eq,
          Checked.done_bind, hstr, hnum, endRound, if_neg (not_le.mpr hfit)]
        by_cases htwelve : 12 ≤ r.1.1
        · rw [if_pos htwelve, if_pos htwelve]
          rfl
        · rw [if_neg htwelve, if_neg htwelve]
          cases splitLocation r.1.2 with
          | none => rfl
          | some flds =>
              obtain ⟨hk, hafter⟩ := roundsAfter_eq (hrest (not_le.mp htwelve)) _ rfl
              have hptr : (if decide (byteAt r.2 0 = cr ∧ byteAt r.2 1 = lf) = true then s.bptr + 2
                  else s.bptr) = s.bptr + if byteAt r.2 0 = cr ∧ byteAt r.2 1 = lf then 2 else 0 := by
                simp only [decide_eq_true_eq]
                split_ifs <;> rfl
              have hnext := hat.load_add hk
              have hlength := hat.length_rest
              rw [hptr]
              have hpass : ¬ (byteAt r.2 0 = 0 ∨ byteAt r.2 0 = ch ']') →
                  (if byteAt r.2 0 = cr ∧ byteAt r.2 1 = lf then 2 else 0) = 2 :=
                fun hne => if_pos ((hrest (not_le.mp htwelve)).resolve_left hne)
              generalize (if byteAt r.2 0 = cr ∧ byteAt r.2 1 = lf then 2 else 0) = k
                at hk hafter hnext hpass ⊢
              show (load (cblock text) (s.bptr + k) >>= _) = _
              rw [hnext, Checked.done_bind, hafter]
              by_cases hstop : byteAt r.2 k = 0 ∨ byteAt r.2 k = ch ']'
              · rw [if_pos hstop, if_pos hstop]
                rfl
              · have hpos : 0 < k := by
                  refine Nat.pos_of_ne_zero fun h0 => ?_
                  subst h0
                  exact absurd (hpass hstop) (by omega)
                rw [List.length_drop] at hle
                have hdrop : r.2.drop k = text.drop (s.bptr + k) := by
                  rw [← hat.rest, List.drop_drop]
                rw [if_neg hstop, if_neg hstop, hdrop]
                exact ih (by rw [List.length_set, hat.size]) (by omega) (by omega)
      · have hover : endRound env numLoc cb r.1.1 r.1.2 t = .overran := if_pos hlong
        rw [hover]
        split_ifs at hcopy with hfull
        · obtain ⟨s, hs, hnum, hat⟩ := hcopy
          have hstore : store s.locBuff s.lptr 0 = .fault :=
            store_eq_fault (by rw [hat.size, hat.lptr]; exact hlong)
          rw [hs, Checked.done_bind, hstore]
          rfl
        · rw [hcopy]
          rfl

/-- What the routine returns, with a fault where `locBuff` is overrun. -/
def StoreResult.checked : StoreResult → Checked StoreResult
  | .overran => .fault
  | r => .done r

lemma dbStoreLocations_eq_result {env : StoreEnv} (hopen : ¬ env.opens = false) (numLoc : ℕ)
    (text : CStr) (cb : Bool) (table : List Row) : dbStoreLocations env numLoc text cb table =
      (storeLoop env numLoc cb false 1 [] (.start numLoc) (skipBracket text)).result env numLoc
        table := by
  rw [dbStoreLocations, if_neg hopen]
  cases storeLoop env numLoc cb false 1 [] (.start numLoc) (skipBracket text) <;> rfl

lemma LoopEnd.checked_result (env : StoreEnv) (numLoc : ℕ) (table : List Row) (e : LoopEnd) :
    (e.checked >>= fun e' => .done (e'.result env numLoc table))
      = (e.result env numLoc table).checked := by
  cases e with
  | overran => rfl
  | rejected t => rfl
  | finished t =>
      show Checked.done _ = StoreResult.checked _
      rw [LoopEnd.result]
      split_ifs <;> rfl

/-- The text behind an opening bracket, by its place. -/
lemma skipBracket_eq_drop (text : CStr) :
    (if byteAt text 0 = ch '[' then 1 else 0) ≤ text.length ∧
      skipBracket text = text.drop (if byteAt text 0 = ch '[' then 1 else 0) := by
  rw [skipBracket]
  split_ifs with hbracket
  · refine ⟨?_, rfl⟩
    by_contra! hlt
    rw [byteAt_eq_zero (by omega)] at hbracket
    exact absurd hbracket (by decide)
  · exact ⟨Nat.zero_le _, rfl⟩

/-- **On checked memory the routine does what `dbStoreLocations` says**, and faults where that has
overrun `locBuff`. -/
theorem dbStoreLocationsMem_eq (env : StoreEnv) (numLoc : ℕ) (text : CStr) (cb : Bool)
    (table : List Row) : dbStoreLocationsMem env numLoc (cblock text) cb table =
      (dbStoreLocations env numLoc text cb table).checked := by
  rw [dbStoreLocationsMem]
  by_cases hopen : env.opens = false
  · rw [if_pos hopen, dbStoreLocations, if_pos hopen]
    rfl
  · obtain ⟨hin, hdrop⟩ := skipBracket_eq_drop text
    have hloop := storeLoopMem_eq env numLoc cb (t := .start numLoc)
      (List.length_replicate (n := locBuffSize) (a := 0)) hin
      (show text.length < _ + (cblock text).length by rw [length_cblock]; omega)
    rw [if_neg hopen, load_cblock (Nat.zero_le _), Checked.done_bind,
      dbStoreLocations_eq_result hopen, storeLoop_eq_storeRounds, ← LoopEnd.checked_result]
    simp only [Checked.pure_eq]
    rw [hloop, ← hdrop]

/-! ## The condition -/

/-- The lines of a text: it is cut at each `"\r\n"`, and one at its end begins no line. -/
def crlfLines : CStr → List CStr
  | [] => [[]]
  | [c] => [[c]]
  | c :: d :: cs =>
      if c = cr ∧ d = lf then [] :: if cs = [] then [] else crlfLines cs
      else (crlfLines (d :: cs)).modifyHead (c :: ·)

/-- The text before its `n`-th comma. -/
def beforeComma : ℕ → CStr → CStr
  | _, [] => []
  | n, c :: cs =>
      if c = ch ',' then
        if n ≤ 1 then [] else c :: beforeComma (n - 1) cs
      else c :: beforeComma n cs

/-- What of a line can be a record: the text before its eleventh comma, a comma that is its first
character not counted. -/
def recordPart : CStr → CStr
  | [] => []
  | c :: cs => c :: beforeComma 11 cs

/-- The lines of a batch: of the text behind an opening bracket and before a closing one. -/
def batchLines (text : CStr) : List CStr :=
  crlfLines ((skipBracket text).takeWhile (· ≠ ch ']'))

/-- Every line fits `locBuff` with its NUL, up to the first that does not pass the checks. -/
def FitsLocBuff : List CStr → Prop
  | [] => True
  | line :: lines =>
      (recordPart line).length < locBuffSize ∧
        ((splitLocation line).isSome = true → FitsLocBuff lines)

/-! ## The rounds of the lines -/

lemma crlfLines_ne_nil (s : CStr) : crlfLines s ≠ [] := by
  fun_induction crlfLines s with
  | case1 => exact List.cons_ne_nil _ _
  | case2 c => exact List.cons_ne_nil _ _
  | case3 c d cs h => exact List.cons_ne_nil _ _
  | case4 c d cs h ih => rwa [Ne, List.modifyHead_eq_nil_iff]

lemma crlfLines_crlf (cs : CStr) :
    crlfLines (cr :: lf :: cs) = [] :: if cs = [] then [] else crlfLines cs :=
  if_pos ⟨rfl, rfl⟩

/-- A character that begins no line end belongs to the first line. -/
lemma crlfLines_cons {c : Byte} {cs : CStr} (h : ¬ (c = cr ∧ byteAt cs 0 = lf)) :
    crlfLines (c :: cs) = (crlfLines cs).modifyHead (c :: ·) := by
  cases cs with
  | nil => rfl
  | cons d cs => exact if_neg h

/-- The first line begins as the text does, or the text ends or begins with a line end. -/
lemma crlfLines_head {s line : CStr} {lines : List CStr} (h : crlfLines s = line :: lines) :
    byteAt line 0 = byteAt s 0 ∨ (line = [] ∧ byteAt s 0 = cr) := by
  cases s with
  | nil =>
      obtain ⟨rfl, -⟩ := List.cons.inj h
      exact Or.inl rfl
  | cons c cs =>
      by_cases hend : c = cr ∧ byteAt cs 0 = lf
      · obtain ⟨rfl, hd⟩ := hend
        cases cs with
        | nil => exact absurd (show (0 : Byte) = lf from hd) (by decide)
        | cons d cs =>
            obtain rfl : d = lf := hd
            rw [crlfLines_crlf] at h
            exact Or.inr ⟨(List.cons.inj h).1.symm, rfl⟩
      · obtain ⟨l, ls, hcs⟩ := List.exists_cons_of_ne_nil (crlfLines_ne_nil cs)
        rw [crlfLines_cons hend, hcs, List.modifyHead_cons] at h
        rw [← (List.cons.inj h).1]
        exact Or.inl rfl

/-- What is copied of a line, its first character counted already. -/
def lineCopy (numFields : ℕ) : CStr → CStr
  | [] => []
  | c :: cs => c :: beforeComma (12 - numFields) cs

/-- `FitsLocBuff`, with the beginning of the first line in `locBuff`. -/
def FitsFrom (numFields : ℕ) (locBuff : CStr) : List CStr → Prop
  | [] => True
  | line :: lines =>
      (locBuff ++ lineCopy numFields line).length < locBuffSize ∧
        (numFields + line.tail.count (ch ',') < 12 →
          (splitLocation (locBuff ++ line)).isSome = true → FitsLocBuff lines)

/-- Accepted lines have eleven fields. -/
lemma count_of_splitLocation {line : CStr} (h : (splitLocation line).isSome = true) :
    line.count (ch ',') = 10 := by
  rw [splitLocation] at h
  split_ifs at h with hshort
  · cases h
  · cases hsplit : xstrsplitfields line (ch ',') with
    | none => simp [hsplit] at h
    | some flds =>
        have hflds := xstrsplitfields_some hsplit
        simp only [hsplit] at h
        split_ifs at h with hnum
        · cases h
        · rw [not_not, hflds, splitOn_length] at hnum
          omega
        · rw [not_not, hflds, splitOn_length] at hnum
          omega

lemma fitsFrom_start (lines : List CStr) : FitsFrom 1 [] lines ↔ FitsLocBuff lines := by
  cases lines with
  | nil => exact Iff.rfl
  | cons line lines =>
      have hcopy : lineCopy 1 line = recordPart line := by cases line <;> rfl
      rw [FitsFrom, FitsLocBuff, hcopy, List.nil_append, List.nil_append]
      refine and_congr_right fun _ => ⟨fun h hsome => h ?_ hsome, fun h _ hsome => h hsome⟩
      have hcount := count_of_splitLocation hsome
      have htail : line.tail.count (ch ',') ≤ line.count (ch ',') :=
        (List.tail_sublist line).count_le _
      omega

/-- **One byte further.** -/
lemma fitsFrom_cons {numFields : ℕ} {locBuff : CStr} {c : Byte} {cs : CStr}
    (hc : ¬ (c = cr ∧ byteAt cs 0 = lf)) (hnum : numFields < 12) :
    FitsFrom numFields locBuff (crlfLines (c :: cs)) ↔
      if countField numFields (byteAt cs 0) < 12 then
        FitsFrom (countField numFields (byteAt cs 0)) (locBuff ++ [c]) (crlfLines cs)
      else (locBuff ++ [c]).length < locBuffSize := by
  obtain ⟨line, lines, hcs⟩ := List.exists_cons_of_ne_nil (crlfLines_ne_nil cs)
  have hhead := crlfLines_head hcs
  rw [crlfLines_cons hc, hcs, List.modifyHead_cons, FitsFrom, List.tail_cons, lineCopy]
  have happ : locBuff ++ c :: line = (locBuff ++ [c]) ++ line := by simp
  rw [happ]
  cases line with
  | nil =>
      -- the next byte is no comma
      have hnext : countField numFields (byteAt cs 0) = numFields := by
        refine if_neg fun hcomma => ?_
        rcases hhead with hhead | ⟨-, hhead⟩
        · rw [hcomma] at hhead
          exact absurd hhead (by decide)
        · rw [hcomma] at hhead
          exact absurd hhead (by decide)
      rw [hnext, if_pos hnum, FitsFrom, lineCopy, beforeComma, List.append_nil]
      rfl
  | cons d ds =>
      have hd : byteAt cs 0 = d := by
        rcases hhead with hhead | ⟨h, -⟩
        · exact hhead.symm
        · cases h
      rw [hd]
      by_cases hcomma : d = ch ','
      · subst hcomma
        rw [countField, if_pos rfl, beforeComma, if_pos rfl, List.count_cons_self]
        rcases lt_or_ge (numFields + 1) 12 with hlt | hge
        · have hcopy : locBuff ++ c :: ch ',' :: beforeComma (12 - numFields - 1) ds
              = (locBuff ++ [c]) ++ lineCopy (numFields + 1) (ch ',' :: ds) := by
            simp [lineCopy, Nat.sub_sub]
          rw [if_neg (show ¬ 12 - numFields ≤ 1 by omega), if_pos hlt, FitsFrom, hcopy,
            List.tail_cons, Nat.add_right_comm, ← Nat.add_assoc]
        · rw [if_pos (show 12 - numFields ≤ 1 by omega), if_neg (not_lt.mpr hge)]
          exact and_iff_left fun hlt => absurd hlt (by omega)
      · rw [countField, if_neg hcomma, if_pos hnum, beforeComma, if_neg hcomma, FitsFrom,
          List.tail_cons, List.count_cons_of_ne hcomma]
        have hcopy : locBuff ++ c :: d :: beforeComma (12 - numFields) ds
            = (locBuff ++ [c]) ++ lineCopy numFields (d :: ds) := by
          simp [lineCopy]
        rw [hcopy]

/-- When a batch overruns `locBuff`. -/
lemma readBatch_cons_overran (r : ℕ × CStr) (rs : List (ℕ × CStr)) :
    (readBatch (r :: rs)).2 = .overran ↔ locBuffSize ≤ r.2.length ∨
      (r.1 < 12 ∧ (splitLocation r.2).isSome = true ∧ (readBatch rs).2 = .overran) := by
  rw [readBatch, verdict]
  split_ifs with hlong hnum
  · simp [hlong]
  · simp [hlong, hnum]
  · cases splitLocation r.2 with
    | none => simp [hlong]
    | some flds => simp [hlong, not_le.mp hnum]

lemma fitsFrom_nil (numFields : ℕ) (locBuff : CStr) {lines : List CStr} (h : FitsLocBuff lines) :
    FitsFrom numFields locBuff ([] :: lines) ↔ locBuff.length < locBuffSize := by
  rw [FitsFrom, lineCopy, List.append_nil]
  exact and_iff_left fun _ _ => h

/-- The next byte, if it is no closing bracket. -/
lemma byteAt_takeWhile (cs : CStr) :
    byteAt (cs.takeWhile (· ≠ ch ']')) 0 = if byteAt cs 0 = ch ']' then 0 else byteAt cs 0 := by
  cases cs with
  | nil => exact (ite_self _).symm
  | cons d ds =>
      by_cases hd : d = ch ']'
      · subst hd
        rfl
      · rw [List.takeWhile_cons_of_pos (by simpa using hd), byteAt_cons_zero, byteAt_cons_zero,
          if_neg hd]

lemma takeWhile_eq_nil_iff {cs : CStr} (hnul : (0 : Byte) ∉ cs) :
    cs.takeWhile (· ≠ ch ']') = [] ↔ byteAt cs 0 = 0 ∨ byteAt cs 0 = ch ']' := by
  cases cs with
  | nil => exact iff_of_true rfl (Or.inl rfl)
  | cons d ds =>
      have hd : d ≠ 0 := fun h => hnul (h ▸ List.mem_cons_self)
      rw [List.takeWhile_cons, byteAt_cons_zero]
      split_ifs with hbracket
      · simpa [hd] using hbracket
      · simpa [hd] using hbracket

/-- **The rounds of a text overrun `locBuff`** exactly when its lines do not fit. -/
lemma rounds_overran_iff (body : CStr) {numFields : ℕ} {locBuff : CStr} (hnum : numFields < 12)
    (hnul : (0 : Byte) ∉ body) :
    (readBatch (rounds false numFields locBuff body)).2 = .overran ↔
      ¬ FitsFrom numFields locBuff (crlfLines (body.takeWhile (· ≠ ch ']'))) := by
  have hlast : (readBatch [(numFields, locBuff)]).2 = .overran ↔
      ¬ FitsFrom numFields locBuff (crlfLines []) := by
    rw [readBatch_cons_overran, crlfLines, fitsFrom_nil _ _ (show FitsLocBuff [] from trivial), not_lt]
    exact or_iff_left fun h => by cases h.2.2
  match body with
  | [] => exact hlast
  | c :: cs =>
      rw [List.mem_cons, not_or] at hnul
      by_cases hstop : c = ch ']'
      · subst hstop
        rw [rounds, if_pos (Or.inr rfl), List.takeWhile_cons_of_neg (by simp)]
        exact hlast
      · have hgo : ¬ (c = 0 ∨ c = ch ']') := not_or.mpr ⟨fun h0 => hnul.1 h0.symm, hstop⟩
        rw [rounds, if_neg hgo, List.takeWhile_cons_of_pos (by simpa using hstop)]
        by_cases hcr : c = cr ∧ byteAt cs 0 = lf
        · obtain ⟨rfl, hlf⟩ := hcr
          cases cs with
          | nil => exact absurd (show (0 : Byte) = lf from hlf) (by decide)
          | cons d rest =>
              obtain rfl : d = lf := hlf
              have hrest : (0 : Byte) ∉ rest := fun h => hnul.2 (List.mem_cons_of_mem _ h)
              have hih := @rounds_overran_iff rest 1 [] (by omega) hrest
              rw [fitsFrom_start] at hih
              rw [if_pos ⟨rfl, rfl⟩, readBatch_cons_overran, rounds,
                List.takeWhile_cons_of_pos (by decide), crlfLines_crlf]
              by_cases hdone : byteAt rest 0 = 0 ∨ byteAt rest 0 = ch ']'
              · rw [if_pos hdone, if_pos ((takeWhile_eq_nil_iff hrest).mpr hdone),
                  fitsFrom_nil _ _ (show FitsLocBuff [] from trivial), not_lt]
                exact or_iff_left fun h => by cases h.2.2
              · rw [if_neg hdone, if_neg fun h => hdone ((takeWhile_eq_nil_iff hrest).mp h),
                  hih, FitsFrom, lineCopy, List.append_nil]
                simp only [not_and_or, Classical.not_imp, not_lt, List.tail_nil, List.count_nil,
                  Nat.add_zero]
        · have hcr' : ¬ (c = cr ∧ byteAt (cs.takeWhile (· ≠ ch ']')) 0 = lf) := by
            rw [byteAt_takeWhile]
            split_ifs with hbracket
            · exact fun h => absurd h.2 (by decide)
            · exact hcr
          have hcount : countField numFields (byteAt (cs.takeWhile (· ≠ ch ']')) 0)
              = countField numFields (byteAt cs 0) := by
            rw [byteAt_takeWhile]
            split_ifs with hbracket
            · rw [hbracket]
              rfl
            · rfl
          rw [if_neg hcr, fitsFrom_cons hcr' hnum, hcount]
          by_cases hlt : countField numFields (byteAt cs 0) < 12
          · rw [if_pos hlt]
            exact (iff_of_eq (congrArg (fun rs => (readBatch rs).2 = BatchEnd.overran)
              (if_pos hlt))).trans (rounds_overran_iff cs hlt hnul.2)
          · have hone : (readBatch [(countField numFields (byteAt cs 0), locBuff ++ [c])]).2
                = .overran ↔ locBuffSize ≤ (locBuff ++ [c]).length := by
              rw [readBatch_cons_overran]
              exact or_iff_left fun h => hlt h.1
            rw [if_neg hlt, not_lt, ← hone]
            exact iff_of_eq (congrArg (fun rs => (readBatch rs).2 = BatchEnd.overran) (if_neg hlt))
termination_by body.length

/-- A text overruns `locBuff` exactly when its lines do not fit. -/
lemma batchOf_overran_iff {text : CStr} (hnul : (0 : Byte) ∉ text) :
    (batchOf text).2 = .overran ↔ ¬ FitsLocBuff (batchLines text) := by
  have hbody : (0 : Byte) ∉ skipBracket text := by
    rw [(skipBracket_eq_drop text).2]
    exact fun h => hnul (List.mem_of_mem_drop h)
  rw [batchOf, rounds_overran_iff _ (by omega) hbody, fitsFrom_start, batchLines]

/-- The run faults on lines that do not fit. -/
lemma dbStoreLocationsMem_eq_fault {env : StoreEnv} (hopen : env.opens = true) (numLoc : ℕ)
    {text : CStr} (hnul : (0 : Byte) ∉ text) (cb : Bool) (table : List Row)
    (h : ¬ FitsLocBuff (batchLines text)) :
    dbStoreLocationsMem env numLoc (cblock text) cb table = .fault := by
  obtain ⟨progress, hres⟩ := dbStoreLocations_eq hopen numLoc text cb table
  rw [dbStoreLocationsMem_eq, hres, (batchOf_overran_iff hnul).mpr h]
  rfl

/-- **The copying stays inside `locBuff` and the text, and ends, exactly when the database cannot be
opened or the lines of the text fit.** -/
theorem isDone_dbStoreLocationsMem_iff (env : StoreEnv) (numLoc : ℕ) {text : CStr}
    (hnul : (0 : Byte) ∉ text) (cb : Bool) (table : List Row) :
    (dbStoreLocationsMem env numLoc (cblock text) cb table).IsDone ↔
      env.opens = false ∨ FitsLocBuff (batchLines text) := by
  cases hopen : env.opens with
  | false =>
      rw [dbStoreLocationsMem_eq, dbStoreLocations, if_pos hopen]
      exact iff_of_true (Checked.isDone_done _) (Or.inl rfl)
  | true =>
      rw [or_iff_right (Bool.noConfusion : ¬ true = false)]
      constructor
      · intro hdone
        by_contra hnot
        rw [dbStoreLocationsMem_eq_fault hopen numLoc hnul cb table hnot] at hdone
        exact Checked.not_isDone_fault hdone
      · intro hfits
        obtain ⟨progress, hres⟩ := dbStoreLocations_eq hopen numLoc text cb table
        have hend : (batchOf text).2 ≠ .overran := fun h => (batchOf_overran_iff hnul).mp h hfits
        rw [dbStoreLocationsMem_eq, hres]
        cases h : (batchOf text).2 with
        | overran => exact absurd h hend
        | rejected => exact Checked.isDone_done _
        | complete =>
            cases env.commitOk with
            | true => exact Checked.isDone_done _
            | false => exact Checked.isDone_done _

/-- The documented location event fits. -/
theorem isDone_exampleLocation :
    (dbStoreLocationsMem busyDatabase 1 (cblock exampleLocation) true []).IsDone ↔
      busyDatabase.opens = false ∨ FitsLocBuff (batchLines exampleLocation) :=
  isDone_dbStoreLocationsMem_iff busyDatabase 1 (by decide +kernel) true []

/-- A location event with long coordinates. -/
def wideLocation : CStr :=
  str "3000000001,20131211002222," ++ List.replicate 250 (ch '1') ++ str "," ++
    List.replicate 250 (ch '5') ++ str ",0,0,0,0,2,3.88V,0\r\n"

/-- **An event from the network overruns `locBuff`**: it is classified as a location event, and the
copying loop leaves the buffer. -/
theorem wideLocation_overruns : arrivingPackageType wideLocation = some .loc ∧
    dbStoreLocationsMem busyDatabase 1 (cblock wideLocation) true [] = .fault := by
  refine ⟨by decide +kernel, dbStoreLocationsMem_eq_fault rfl 1 (by decide +kernel) true [] ?_⟩
  have hlines : batchLines wideLocation = [wideLocation.take 545] := by decide +kernel
  rw [hlines]
  exact fun h => absurd h.1 (by decide +kernel)

end G7
