import G7Ctrl.Tracker.Package
import G7Ctrl.Xstr.Copy

/-!
# Storing locations (`db_store_locations`)

`db_store_locations` takes a text with one or more location records, inserts a row for each inside
one transaction, calls a callback for each, and commits at the end.  Everything it is told from
outside is a parameter (`StoreEnv`): which SQLite calls succeed, what every attempt of every
`INSERT` returns, the clock, and the reverse address lookup.

Of SQLite the model assumes what the code relies on: a statement that does not return
`SQLITE_DONE` changes no row, and closing the handle rolls back an open transaction.

The code is two nested loops over the text, copying one record into `locBuff` in each round of the
outer one.  They are read here as one pass (`storeLoop`).  The copying is not bounded by the size
of the buffer, and what happens after it was exceeded is not determined: the model ends there with
`overran`.

**`storeLoop_eq_storeRounds`** separates the two things the loop does: cutting the text into
rounds (`rounds`), which no result code influences, and storing the rounds one after the other
(`storeRounds`).
-/

namespace G7

/-- The result codes of `sqlite3_step` the code can tell apart, and some it cannot. -/
inductive StepResult
  | done
  | locked
  | busy
  | full
  | error
  deriving DecidableEq

/-- What `db_store_locations` is told from outside. -/
structure StoreEnv where
  /-- `db_setup` opens the database. -/
  setupOk : Bool
  /-- The statement is compiled. -/
  prepareOk : Bool
  /-- `BEGIN TRANSACTION` succeeds. -/
  beginOk : Bool
  /-- `COMMIT TRANSACTION` succeeds. -/
  commitOk : Bool
  /-- The result of an attempt (0, 1, 2) of the `INSERT` of a record. -/
  step : ℕ → ℕ → StepResult
  /-- `time(NULL)` when a record is bound. -/
  now : ℕ → ℤ
  /-- What `get_address_from_latlon` puts into the address for a record's latitude and longitude;
  `none` when `use_address_lookup` is off. -/
  getAddressFromLatlon : Option (ℕ → CStr → CStr → CStr)

/-- The database is opened, the statement compiled and the transaction begun. -/
def StoreEnv.opens (env : StoreEnv) : Bool := env.setupOk && env.prepareOk && env.beginOk

/-- A row of `tbl_track`. -/
structure Row where
  timestamp : ℤ
  deviceid : ℤ
  datetime : ℤ
  lon : CStr
  lat : CStr
  approxaddr : CStr
  speed : ℤ
  heading : ℤ
  altitude : ℤ
  satellite : ℤ
  event : ℤ
  voltage : CStr
  detachstat : ℤ
  deriving DecidableEq

/-- `sizeof (locBuff)` -/
def locBuffSize : ℕ := 512

/-- The checks on a record in `locBuff`, and the fields as they are stored: the voltage loses its
last character, the `'V'`. -/
def splitLocation (locBuff : CStr) : Option (List CStr) :=
  if locBuff.length < 50 then none
  else
    match xstrsplitfields locBuff (ch ',') with
    | none => none
    | some flds =>
        if flds.length ≠ 11 then none
        else if (fld flds .devid).length ≠ 10 ∨ byteAt (fld flds .devid) 0 ≠ ch '3' then none
        else some (flds.set LocField.volt.idx (fld flds .volt).dropLast)

/-- The row of the `k`-th record. -/
def bindRow (env : StoreEnv) (k : ℕ) (flds : List CStr) : Row where
  timestamp := env.now k
  deviceid := xatol (fld flds .devid)
  datetime := xatol (fld flds .date)
  lon := fld flds .lon
  lat := fld flds .lat
  approxaddr :=
    match env.getAddressFromLatlon with
    | some address => address k (fld flds .lat) (fld flds .lon)
    | none => xstrlcpy (str "---") 512
  speed := toInt32 (xatol (fld flds .speed))
  heading := toInt32 (xatol (fld flds .heading))
  altitude := toInt32 (xatol (fld flds .alt))
  satellite := toInt32 (xatol (fld flds .sat))
  event := toInt32 (xatol (fld flds .eventid))
  voltage := fld flds .volt
  detachstat := toInt32 (xatol (fld flds .detach))

/-- The result that counts: an `INSERT` that finds the table locked is tried three times. -/
def insertResult (env : StoreEnv) (k : ℕ) : StepResult :=
  match env.step k 0 with
  | .locked =>
      match env.step k 1 with
      | .locked => env.step k 2
      | r => r
  | r => r

/-- The variables of the outer loop: the rows inserted in the open transaction, the calls of the
callback, the counters and the progress text written to the user. -/
structure Txn where
  rows : List Row := []
  calls : List (List CStr) := []
  cnt : ℕ := 0
  pcnt : ℕ := 0
  percentProgress : ℕ := 0
  progress : CStr := []
  deriving DecidableEq

/-- `[%u%%].` -/
def progressMark (percent : ℕ) : CStr := str "[" ++ dec percent ++ str "%]."

/-- One round of the outer loop, for a record that passed the checks.  The callback is called
whatever the `INSERT` returned. -/
def Txn.storeRecord (env : StoreEnv) (numLoc : ℕ) (cb : Bool) (t : Txn) (flds : List CStr) : Txn :=
  let mark : Bool := 100 < numLoc ∧ numLoc / 10 < t.pcnt + 1
  { rows := if insertResult env t.cnt = .done then t.rows ++ [bindRow env t.cnt flds] else t.rows
    calls := if cb then t.calls ++ [flds] else t.calls
    cnt := t.cnt + 1
    pcnt := if mark then 0 else t.pcnt + 1
    percentProgress := if mark then t.percentProgress + 10 else t.percentProgress
    progress := if mark then t.progress ++ progressMark (t.percentProgress + 10) else t.progress }

/-- How the outer loop ends. -/
inductive LoopEnd
  | finished (t : Txn)
  | rejected (t : Txn)
  | overran

/-- The end of a round: the NUL is put behind what is in `locBuff`, and the checks are made. -/
def endRound (env : StoreEnv) (numLoc : ℕ) (cb : Bool) (numFields : ℕ) (locBuff : CStr) (t : Txn) :
    LoopEnd :=
  if locBuffSize ≤ locBuff.length then .overran
  else if 12 ≤ numFields then .rejected t
  else
    match splitLocation locBuff with
    | none => .rejected t
    | some flds => .finished (t.storeRecord env numLoc cb flds)

/-- The two nested loops, read as one pass over the text.  `numFields` and `locBuff` are those of
the current round; with `atLf` the round has ended at a `"\r\n"` whose `'\n'` comes next. -/
def storeLoop (env : StoreEnv) (numLoc : ℕ) (cb : Bool) :
    Bool → ℕ → CStr → Txn → List Byte → LoopEnd
  | true, _, _, t, [] => .finished t
  | true, numFields, locBuff, t, _ :: cs =>
      if byteAt cs 0 = 0 ∨ byteAt cs 0 = ch ']' then .finished t
      else storeLoop env numLoc cb false numFields locBuff t cs
  | false, numFields, locBuff, t, [] => endRound env numLoc cb numFields locBuff t
  | false, numFields, locBuff, t, c :: cs =>
      if c = 0 ∨ c = ch ']' then endRound env numLoc cb numFields locBuff t
      else if c = cr ∧ byteAt cs 0 = lf then
        match endRound env numLoc cb numFields locBuff t with
        | .finished t' => storeLoop env numLoc cb true 1 [] t' cs
        | e => e
      else
        -- The counter looks at the character behind the one just copied.
        let numFields' := if byteAt cs 0 = ch ',' then numFields + 1 else numFields
        if numFields' < 12 then storeLoop env numLoc cb false numFields' (locBuff ++ [c]) t cs
        else endRound env numLoc cb numFields' (locBuff ++ [c]) t

/-- What a call of `db_store_locations` leaves: its return value, the table, the calls of the
callback and what was written to the user.  Nothing is known once `locBuff` was overrun. -/
inductive StoreResult
  | returned (ret : ℤ) (table : List Row) (calls : List (List CStr)) (progress : CStr)
  | overran
  deriving DecidableEq

/-- The text behind an opening bracket. -/
def skipBracket (recvBuff : List Byte) : List Byte :=
  if byteAt recvBuff 0 = ch '[' then recvBuff.drop 1 else recvBuff

/-- The variables before the outer loop. -/
def Txn.start (numLoc : ℕ) : Txn := { progress := if 100 < numLoc then str "[0%]." else [] }

/-- `db_store_locations`, on a table; `cb` tells whether there is a callback. -/
def dbStoreLocations (env : StoreEnv) (numLoc : ℕ) (recvBuff : List Byte) (cb : Bool)
    (table : List Row) : StoreResult :=
  if env.opens = false then .returned (-1) table [] []
  else
    match storeLoop env numLoc cb false 1 [] (.start numLoc) (skipBracket recvBuff) with
    | .overran => .overran
    | .rejected t => .returned (-1) table t.calls t.progress
    | .finished t =>
        let progress := if 100 < numLoc then t.progress ++ str "[100%]\n" else t.progress
        if env.commitOk then .returned t.cnt (table ++ t.rows) t.calls progress
        else .returned (-1) table t.calls progress

/-- `handleLocPackage`: one location, with `store_loc_Callback`. -/
def handleLocPackage (env : StoreEnv) (buffer : List Byte) (table : List Row) : StoreResult :=
  dbStoreLocations env 1 buffer true table

/-! ## Rounds -/

/-- The rounds of the outer loop as the text determines them: the number of fields counted and what
was copied.  A round that counts too many fields is the last one. -/
def rounds : Bool → ℕ → CStr → List Byte → List (ℕ × CStr)
  | true, _, _, [] => []
  | true, numFields, locBuff, _ :: cs =>
      if byteAt cs 0 = 0 ∨ byteAt cs 0 = ch ']' then [] else rounds false numFields locBuff cs
  | false, numFields, locBuff, [] => [(numFields, locBuff)]
  | false, numFields, locBuff, c :: cs =>
      if c = 0 ∨ c = ch ']' then [(numFields, locBuff)]
      else if c = cr ∧ byteAt cs 0 = lf then (numFields, locBuff) :: rounds true 1 [] cs
      else
        let numFields' := if byteAt cs 0 = ch ',' then numFields + 1 else numFields
        if numFields' < 12 then rounds false numFields' (locBuff ++ [c]) cs
        else [(numFields', locBuff ++ [c])]

/-- Storing rounds one after the other. -/
def storeRounds (env : StoreEnv) (numLoc : ℕ) (cb : Bool) : Txn → List (ℕ × CStr) → LoopEnd
  | t, [] => .finished t
  | t, r :: rs =>
      match endRound env numLoc cb r.1 r.2 t with
      | .finished t' => storeRounds env numLoc cb t' rs
      | e => e

lemma storeRounds_singleton (env : StoreEnv) (numLoc : ℕ) (cb : Bool) (t : Txn) (r : ℕ × CStr) :
    storeRounds env numLoc cb t [r] = endRound env numLoc cb r.1 r.2 t := by
  rw [storeRounds]
  cases endRound env numLoc cb r.1 r.2 t <;> rfl

/-- **The text is cut into rounds, and the rounds are stored in order.** -/
theorem storeLoop_eq_storeRounds (env : StoreEnv) (numLoc : ℕ) (cb : Bool) (atLf : Bool)
    (numFields : ℕ) (locBuff : CStr) (t : Txn) (mem : List Byte) :
    storeLoop env numLoc cb atLf numFields locBuff t mem
      = storeRounds env numLoc cb t (rounds atLf numFields locBuff mem) := by
  fun_induction rounds atLf numFields locBuff mem generalizing t with
  | case1 numFields locBuff => rw [storeRounds, storeLoop]
  | case2 numFields locBuff c cs hlast => rw [storeRounds, storeLoop, if_pos hlast]
  | case3 numFields locBuff c cs hlast ih => rw [storeLoop, if_neg hlast, ih]
  | case4 numFields locBuff => rw [storeRounds_singleton, storeLoop]
  | case5 numFields locBuff c cs hstop => rw [storeRounds_singleton, storeLoop, if_pos hstop]
  | case6 numFields locBuff c cs hstop hcr ih =>
      rw [storeRounds.eq_def, storeLoop.eq_def]
      simp only [if_neg hstop, if_pos hcr]
      cases endRound env numLoc cb numFields locBuff t with
      | finished t' => exact ih t'
      | rejected t' => rfl
      | overran => rfl
  | case7 numFields locBuff c cs hstop hcr numFields' hnum ih =>
      rw [storeLoop, if_neg hstop, if_neg hcr]
      exact (if_pos hnum).trans (ih t)
  | case8 numFields locBuff c cs hstop hcr numFields' hnum =>
      rw [storeRounds_singleton, storeLoop, if_neg hstop, if_neg hcr]
      exact if_neg hnum

/-- There is always a round. -/
lemma rounds_ne_nil (numFields : ℕ) (locBuff : CStr) (mem : List Byte) :
    rounds false numFields locBuff mem ≠ [] := by
  generalize hat : false = atLf
  fun_induction rounds atLf numFields locBuff mem with
  | case1 => cases hat
  | case2 => cases hat
  | case3 => cases hat
  | case7 numFields locBuff c cs hstop hcr numFields' hnum ih => exact ih rfl
  | _ => exact List.cons_ne_nil _ _

end G7
