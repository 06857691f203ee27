import G7Ctrl.Store.Locations

/-!
# When a batch is stored as a whole

`db_store_locations` returns the number of rows it has written or -1, and its callback (mail,
action script, geofence handling) is for events that *have been stored*.  So a caller expects: a
count means that every record of the batch is in the table, and -1 that nothing has happened.

* `batchOf` — what a text is as a batch, independently of any database: its records up to the first
  one that is not accepted, and how it ends.
* `AllOrNothing` — what the caller expects.
* `StoresWhole` — the condition on the batch and on the result codes.
* **`allOrNothing_iff`** — the call does what the caller expects exactly under this condition.
* **`busyDatabase_reports_stored`** — a busy database is reported as one stored row.
-/

namespace G7

/-! ## Batches -/

/-- What the checks say of a round. -/
inductive Verdict
  | overrun
  | reject
  | accept (flds : List CStr)

/-- The checks on a round. -/
def verdict (r : ℕ × CStr) : Verdict :=
  if locBuffSize ≤ r.2.length then .overrun
  else if 12 ≤ r.1 then .reject
  else
    match splitLocation r.2 with
    | none => .reject
    | some flds => .accept flds

/-- How a batch ends: with its last record, with one that is not accepted, or with one that does
not fit `locBuff`. -/
inductive BatchEnd
  | complete
  | rejected
  | overran
  deriving DecidableEq

/-- The records of a batch up to its end. -/
def readBatch : List (ℕ × CStr) → List (List CStr) × BatchEnd
  | [] => ([], .complete)
  | r :: rs =>
      match verdict r with
      | .overrun => ([], .overran)
      | .reject => ([], .rejected)
      | .accept flds => (flds :: (readBatch rs).1, (readBatch rs).2)

/-- A text as a batch. -/
def batchOf (text : List Byte) : List (List CStr) × BatchEnd :=
  readBatch (rounds false 1 [] (skipBracket text))

/-- The rows of a batch, one per record. -/
def batchRows (env : StoreEnv) : ℕ → List (List CStr) → List Row
  | _, [] => []
  | k, flds :: recs => bindRow env k flds :: batchRows env (k + 1) recs

/-- The rows that get inserted. -/
def insertedRows (env : StoreEnv) : ℕ → List (List CStr) → List Row
  | _, [] => []
  | k, flds :: recs =>
      if insertResult env k = .done then bindRow env k flds :: insertedRows env (k + 1) recs
      else insertedRows env (k + 1) recs

lemma batchRows_length (env : StoreEnv) : ∀ (k : ℕ) (recs : List (List CStr)),
    (batchRows env k recs).length = recs.length
  | _, [] => rfl
  | k, _ :: recs => congrArg (· + 1) (batchRows_length env (k + 1) recs)

lemma insertedRows_length_le (env : StoreEnv) : ∀ (k : ℕ) (recs : List (List CStr)),
    (insertedRows env k recs).length ≤ recs.length
  | _, [] => Nat.le_refl _
  | k, flds :: recs => by
      have ih := insertedRows_length_le env (k + 1) recs
      simp only [insertedRows]
      split_ifs <;> simp only [List.length_cons] <;> omega

/-- **All rows of a batch get inserted** exactly when every `INSERT` returns `SQLITE_DONE` in the
end. -/
lemma insertedRows_eq_iff (env : StoreEnv) : ∀ (k : ℕ) (recs : List (List CStr)),
    insertedRows env k recs = batchRows env k recs ↔
      ∀ i < recs.length, insertResult env (k + i) = .done
  | k, [] => by simp [insertedRows, batchRows]
  | k, flds :: recs => by
      have ih := insertedRows_eq_iff env (k + 1) recs
      simp only [insertedRows, batchRows, List.length_cons]
      split_ifs with hdone
      · rw [List.cons.injEq, ih]
        constructor
        · rintro ⟨_, h⟩ i hi
          cases i with
          | zero => exact hdone
          | succ i =>
              have := h i (by omega)
              rwa [show k + 1 + i = k + (i + 1) by omega] at this
        · intro h
          refine ⟨rfl, fun i hi => ?_⟩
          rw [show k + 1 + i = k + (i + 1) by omega]
          exact h (i + 1) (by omega)
      · constructor
        · intro h
          have hlen := congrArg List.length h
          have hle := insertedRows_length_le env (k + 1) recs
          rw [List.length_cons, batchRows_length] at hlen
          omega
        · intro h
          exact absurd (h 0 (by omega)) hdone

/-! ## What the loop does with a batch -/

/-- The records of a batch stored one after the other. -/
def Txn.storeRecords (env : StoreEnv) (numLoc : ℕ) (cb : Bool) (t : Txn) (recs : List (List CStr)) :
    Txn :=
  recs.foldl (Txn.storeRecord env numLoc cb) t

/-- **What storing records adds**: a row for each that gets inserted, and a call for every one. -/
lemma Txn.storeRecords_eq (env : StoreEnv) (numLoc : ℕ) (cb : Bool) :
    ∀ (recs : List (List CStr)) (t : Txn),
      (t.storeRecords env numLoc cb recs).rows = t.rows ++ insertedRows env t.cnt recs ∧
      (t.storeRecords env numLoc cb recs).calls = t.calls ++ (if cb then recs else []) ∧
      (t.storeRecords env numLoc cb recs).cnt = t.cnt + recs.length
  | [], t => by simp [Txn.storeRecords, insertedRows]
  | flds :: recs, t => by
      obtain ⟨hrows, hcalls, hcnt⟩ :=
        Txn.storeRecords_eq env numLoc cb recs (t.storeRecord env numLoc cb flds)
      have hfold : t.storeRecords env numLoc cb (flds :: recs)
          = (t.storeRecord env numLoc cb flds).storeRecords env numLoc cb recs := rfl
      rw [hfold, hrows, hcalls, hcnt]
      refine ⟨?_, ?_, ?_⟩
      · simp only [Txn.storeRecord, insertedRows]
        split_ifs <;> simp
      · cases cb <;> simp [Txn.storeRecord]
      · simp only [Txn.storeRecord, List.length_cons]
        omega

/-- The loop stores the records of the batch, and ends as the batch does. -/
lemma storeRounds_eq (env : StoreEnv) (numLoc : ℕ) (cb : Bool) :
    ∀ (rs : List (ℕ × CStr)) (t : Txn),
      storeRounds env numLoc cb t rs =
        match (readBatch rs).2 with
        | .complete => .finished (t.storeRecords env numLoc cb (readBatch rs).1)
        | .rejected => .rejected (t.storeRecords env numLoc cb (readBatch rs).1)
        | .overran => .overran
  | [], t => rfl
  | r :: rs, t => by
      have ih := storeRounds_eq env numLoc cb rs
      simp only [storeRounds, readBatch, endRound, verdict]
      split_ifs with hover hnum
      · rfl
      · rfl
      · cases splitLocation r.2 with
        | none => rfl
        | some flds => exact ih (t.storeRecord env numLoc cb flds)

/-- A batch that is read to its end has a record. -/
lemma batchOf_complete_ne_nil {text : List Byte} (h : (batchOf text).2 = .complete) :
    (batchOf text).1 ≠ [] := by
  obtain ⟨r, rs, hr⟩ := List.exists_cons_of_ne_nil (rounds_ne_nil 1 [] (skipBracket text))
  rw [batchOf, hr, readBatch] at h ⊢
  cases hv : verdict r with
  | overrun => simp [hv] at h
  | reject => simp [hv] at h
  | accept flds => exact List.cons_ne_nil _ _

/-- **What a call does**, in terms of the batch. -/
theorem dbStoreLocations_eq {env : StoreEnv} (hopen : env.opens = true) (numLoc : ℕ)
    (text : List Byte) (cb : Bool) (table : List Row) :
    ∃ progress, dbStoreLocations env numLoc text cb table =
      match (batchOf text).2 with
      | .overran => .overran
      | .rejected => .returned (-1) table (if cb then (batchOf text).1 else []) progress
      | .complete =>
          if env.commitOk then
            .returned (batchOf text).1.length (table ++ insertedRows env 0 (batchOf text).1)
              (if cb then (batchOf text).1 else []) progress
          else .returned (-1) table (if cb then (batchOf text).1 else []) progress := by
  obtain ⟨hrows, hcalls, hcnt⟩ :=
    Txn.storeRecords_eq env numLoc cb (batchOf text).1 (.start numLoc)
  simp only [Txn.start, List.nil_append, Nat.zero_add] at hrows hcalls hcnt
  have hopen' : ¬ env.opens = false := by simp [hopen]
  rw [dbStoreLocations, if_neg hopen', storeLoop_eq_storeRounds, storeRounds_eq, ← batchOf]
  cases (batchOf text).2 with
  | overran => exact ⟨[], rfl⟩
  | rejected => exact ⟨_, by rw [← hcalls]; rfl⟩
  | complete =>
      cases env.commitOk with
      | true => exact ⟨_, by rw [← hcalls, ← hrows, ← hcnt]; rfl⟩
      | false => exact ⟨_, by rw [← hcalls]; rfl⟩

/-! ## All or nothing -/

/-- What a caller expects of a call with this text on this table: a count is the number of records
of the batch, all of which are now in the table; -1 means that the table is unchanged and the
callback has not been called. -/
def AllOrNothing (env : StoreEnv) (text : List Byte) (table : List Row) : StoreResult → Prop
  | .returned ret table' calls _ =>
      (0 ≤ ret → (batchOf text).2 = .complete ∧ ret = (batchOf text).1.length ∧
        table' = table ++ batchRows env 0 (batchOf text).1) ∧
      (ret = -1 → table' = table ∧ calls = [])
  | .overran => False

/-- The condition: the database cannot be opened; or the whole batch is accepted, every `INSERT`
succeeds and so does the commit; or the first record is not accepted; or nobody is told of what is
rolled back. -/
def StoresWhole (env : StoreEnv) (cb : Bool) (text : List Byte) : Prop :=
  env.opens = false ∨
    match (batchOf text).2 with
    | .complete =>
        if env.commitOk then ∀ k < (batchOf text).1.length, insertResult env k = .done
        else cb = false
    | .rejected => (batchOf text).1 = [] ∨ cb = false
    | .overran => False

/-- **A call stores all or nothing exactly under the condition**, for every text, every table and
every sequence of result codes. -/
theorem allOrNothing_iff (env : StoreEnv) (numLoc : ℕ) (text : List Byte) (cb : Bool)
    (table : List Row) :
    AllOrNothing env text table (dbStoreLocations env numLoc text cb table) ↔
      StoresWhole env cb text := by
  cases hopen : env.opens with
  | false => simp [dbStoreLocations, StoresWhole, AllOrNothing, hopen]
  | true =>
      obtain ⟨progress, hres⟩ := dbStoreLocations_eq hopen numLoc text cb table
      simp only [hres, StoresWhole, hopen, reduceCtorEq, false_or]
      cases hend : (batchOf text).2 with
      | overran => exact Iff.rfl
      | rejected => cases cb <;> simp [AllOrNothing]
      | complete =>
          have hne := batchOf_complete_ne_nil hend
          cases env.commitOk with
          | false => cases cb <;> simp [AllOrNothing, hne]
          | true =>
              have hrows := insertedRows_eq_iff env 0 (batchOf text).1
              simp only [Nat.zero_add] at hrows
              simp [AllOrNothing, hend, hrows]

/-- A call that stores all or nothing counts the rows it adds. -/
lemma AllOrNothing.length_eq {env : StoreEnv} {text : List Byte} {table table' : List Row}
    {res : StoreResult} {ret : ℤ} {calls : List (List CStr)} {progress : CStr}
    (h : AllOrNothing env text table res) (hres : res = .returned ret table' calls progress)
    (hret : 0 ≤ ret) : (table'.length : ℤ) = table.length + ret := by
  subst hres
  obtain ⟨hwhole, _⟩ := h
  obtain ⟨_, hcount, rfl⟩ := hwhole hret
  rw [List.length_append, batchRows_length, hcount]
  omega

/-- Everything succeeds but the `INSERT`s, which find the database busy.  They change nothing, so
that there is nothing to commit. -/
def busyDatabase : StoreEnv where
  setupOk := true
  prepareOk := true
  beginOk := true
  commitOk := true
  step := fun _ _ => .busy
  now := fun _ => 0
  getAddressFromLatlon := none

/-- A location event. -/
def exampleLocation : CStr :=
  str "3000000001,20131211002222,17.959445,59.366545,0,0,0,0,2,3.88V,0\r\n"

/-- **A call may count rows that are not there**: with a busy database it returns 1, calls the
callback, and leaves the table empty. -/
theorem busyDatabase_reports_stored :
    ¬ ∀ (env : StoreEnv) (numLoc : ℕ) (text : List Byte) (cb : Bool) (table : List Row),
      AllOrNothing env text table (dbStoreLocations env numLoc text cb table) := by
  intro h
  have hres : dbStoreLocations busyDatabase 1 exampleLocation true []
      = .returned 1 [] [[str "3000000001", str "20131211002222", str "17.959445", str "59.366545",
          str "0", str "0", str "0", str "0", str "2", str "3.88", str "0"]] [] := by
    decide +kernel
  have hlen := (h _ _ _ _ _).length_eq hres Int.one_nonneg
  exact absurd hlen (by decide)

end G7
