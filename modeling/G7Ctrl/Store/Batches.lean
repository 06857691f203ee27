import G7Ctrl.Store.Ingestion

/-!
# The rows of a batch

What `db_store_locations` makes of a batch of well-formed records, written down from the records
alone: one row for each, in order, with the fields of the record in their columns.

* `BatchRecord` — a well-formed record, and `recordRow`, its row.
* **`storeLoop_frame`** — the loop binds and steps a row for each record of a framed batch.
* **`dbStoreLocations_frame`** — and what is returned when every call of SQLite succeeds.
-/

namespace G7

/-- A well-formed record: eleven fields of at most 255 characters, a device id of ten characters
beginning with `'3'`, 50 to 511 characters, and none of those that frame a batch. -/
structure BatchRecord (text : CStr) : Prop extends RecordText text where
  fits : FieldsFit text
  noLf : lf ∉ text

/-- A field of a record. -/
def column (text : CStr) (i : LocField) : CStr := fld (fieldsOf text) i

/-- The row of the `k`-th record: its fields in their columns, the voltage without its last
character. -/
def recordRow (env : StoreEnv) (k : ℕ) (text : CStr) : Row where
  timestamp := env.now k
  deviceid := xatol (column text .devid)
  datetime := xatol (column text .date)
  lon := column text .lon
  lat := column text .lat
  approxaddr :=
    match env.getAddressFromLatlon with
    | some address => address k (column text .lat) (column text .lon)
    | none => xstrlcpy (str "---") 512
  speed := toInt32 (xatol (column text .speed))
  heading := toInt32 (xatol (column text .heading))
  altitude := toInt32 (xatol (column text .alt))
  satellite := toInt32 (xatol (column text .sat))
  event := toInt32 (xatol (column text .eventid))
  voltage := (column text .volt).dropLast
  detachstat := toInt32 (xatol (column text .detach))

/-- A row for each record, in order. -/
def recordRows (env : StoreEnv) (texts : List CStr) : List Row :=
  texts.mapIdx fun k text => recordRow env k text

/-- The rows whose step succeeded. -/
def steppedRows (env : StoreEnv) (texts : List CStr) : List Row :=
  (texts.mapIdx fun k text => if insertResult env k = .done then [recordRow env k text] else []).flatten

/-- A batch: records joined by `"\r\n"`, in a frame. -/
def Framing.frame (f : Framing) (texts : List CStr) : CStr :=
  f.opening ++ (crlf.intercalate texts ++ f.closing)

/-- Only the voltage is stored otherwise than it came. -/
lemma fld_storedFields {text : CStr} (h : RecordText text) (i : LocField) :
    fld (storedFields text) i = if i = .volt then (column text .volt).dropLast else column text i := by
  have hvolt : LocField.volt.idx < (fieldsOf text).length := by
    rw [h.fields]
    decide
  rw [fld, storedFields, List.getD_eq_getElem?_getD, List.getElem?_set]
  split_ifs with hidx hi hi
  · rw [Option.getD_some]
    rfl
  · cases i <;> first | exact absurd rfl hi | exact absurd hidx (by decide)
  · exact absurd (congrArg LocField.idx hi.symm) hidx
  · rw [column, fld, List.getD_eq_getElem?_getD]

/-- **The row that is bound for a record** has the record's fields in its columns. -/
lemma bindRow_storedFields (env : StoreEnv) (k : ℕ) {text : CStr} (h : RecordText text) :
    bindRow env k (storedFields text) = recordRow env k text := by
  simp only [bindRow, fld_storedFields h, reduceCtorEq, if_false, if_true]
  rfl

section Rows

variable (env : StoreEnv) {texts : List CStr} (h : ∀ t ∈ texts, RecordText t)
include h

lemma batchRows_storedFields (k : ℕ) : batchRows env k (texts.map storedFields) =
    texts.mapIdx fun i t => recordRow env (k + i) t := by
  induction texts generalizing k with
  | nil => rfl
  | cons t ts ih =>
      have hrest := ih (fun q hq => h q (List.mem_cons_of_mem _ hq)) (k + 1)
      rw [List.map_cons, batchRows, bindRow_storedFields env k (h t List.mem_cons_self), hrest,
        List.mapIdx_cons]
      simp only [Nat.add_zero, Nat.add_assoc, Nat.add_comm 1]

lemma insertedRows_storedFields (k : ℕ) : insertedRows env k (texts.map storedFields) =
    (texts.mapIdx fun i t =>
      if insertResult env (k + i) = .done then [recordRow env (k + i) t] else []).flatten := by
  induction texts generalizing k with
  | nil => rfl
  | cons t ts ih =>
      have hrest := ih (fun q hq => h q (List.mem_cons_of_mem _ hq)) (k + 1)
      rw [List.map_cons, insertedRows, bindRow_storedFields env k (h t List.mem_cons_self), hrest,
        List.mapIdx_cons, List.flatten_cons]
      simp only [Nat.add_zero, Nat.add_assoc, Nat.add_comm 1]
      split_ifs
      · rfl
      · rfl

end Rows

/-! ## Framed batches -/

section Frames

variable (env : StoreEnv) (numLoc : ℕ) (cb : Bool) (f : Framing) {texts : List CStr}
  (hne : texts ≠ []) (h : ∀ t ∈ texts, BatchRecord t)
include hne h

/-- The records of a framed batch are read as they are. -/
lemma batchOf_frame : batchOf (f.frame texts) = (texts.map storedFields, .complete) := by
  have hts : ∀ t ∈ texts, RecordText t := fun t ht => (h t ht).toRecordText
  rw [Framing.frame, batchOf_texts (opening_cases f) (ends_closing f) hne hts]
  exact readBatch_of_fits hts fun t ht => (h t ht).fits

/-- **The loop binds and steps a row for each record**, in order. -/
theorem storeLoop_frame : ∃ t,
    storeLoop env numLoc cb false 1 [] (.start numLoc) (skipBracket (f.frame texts)) = .finished t ∧
      t.cnt = texts.length ∧ t.rows = steppedRows env texts := by
  have hbatch := batchOf_frame f hne h
  rw [batchOf] at hbatch
  have hrows := insertedRows_storedFields env (fun t ht => (h t ht).toRecordText) 0
  obtain ⟨hinserted, -, hcnt⟩ := Txn.storeRecords_eq env numLoc cb (texts.map storedFields)
    (.start numLoc)
  simp only [Nat.zero_add] at hrows
  refine ⟨(Txn.start numLoc).storeRecords env numLoc cb (texts.map storedFields), ?_, ?_, ?_⟩
  · rw [storeLoop_eq_storeRounds, storeRounds_eq, hbatch]
  · rw [hcnt, List.length_map]
    exact Nat.zero_add _
  · rw [hinserted]
    exact hrows

end Frames

/-- **What is stored of a batch of well-formed records**: each record is bound and stepped once, in
order, with its fields in their columns; and when every call of SQLite succeeds, their number is
returned and these are the new rows. -/
theorem dbStoreLocations_frame (env : StoreEnv) (numLoc : ℕ) (cb : Bool) (table : List Row)
    (f : Framing) {texts : List CStr} (hne : texts ≠ []) (h : ∀ t ∈ texts, BatchRecord t) :
    (∃ t, storeLoop env numLoc cb false 1 [] (.start numLoc) (skipBracket (f.frame texts))
        = .finished t ∧ t.cnt = texts.length ∧ t.rows = steppedRows env texts) ∧
      (env.opens = true → env.commitOk = true →
        (∀ k < texts.length, insertResult env k = .done) →
          ∃ progress, dbStoreLocations env numLoc (f.frame texts) cb table =
            .returned texts.length (table ++ recordRows env texts)
              (if cb then texts.map storedFields else []) progress) := by
  refine ⟨storeLoop_frame env numLoc cb f hne h, fun hopen hcommit hdone => ?_⟩
  have hts : ∀ t ∈ texts, RecordText t := fun t ht => (h t ht).toRecordText
  have hrows : insertedRows env 0 (texts.map storedFields) = recordRows env texts := by
    have hall := (insertedRows_eq_iff env 0 (texts.map storedFields)).mpr fun k hk => by
      rw [Nat.zero_add]
      exact hdone k (by rwa [List.length_map] at hk)
    rw [hall, batchRows_storedFields env hts 0, recordRows]
    simp only [Nat.zero_add]
  obtain ⟨progress, hres⟩ := dbStoreLocations_eq hopen numLoc (f.frame texts) cb table
  refine ⟨progress, ?_⟩
  rw [hres, batchOf_frame f hne h]
  simp only [hcommit, if_true, List.length_map, hrows]

/-- Two records in brackets, with a working database. -/
theorem dbStoreLocations_two : ∃ progress,
    dbStoreLocations (workingDb (fun _ => 0) none 0) 2
        ((Framing.bracketed false false).frame [exampleRecord.text, exampleRecord.text]) false [] =
      .returned 2 (recordRows (workingDb (fun _ => 0) none 0)
        [exampleRecord.text, exampleRecord.text]) [] progress :=
  (dbStoreLocations_frame (workingDb (fun _ => 0) none 0) 2 false [] (.bracketed false false)
    (List.cons_ne_nil _ _) (by
      intro t ht
      obtain rfl : t = exampleRecord.text := by simpa using ht
      exact ⟨exampleRecord.recordText, by decide +kernel, by decide +kernel⟩)).2 rfl rfl
    fun _ _ => rfl

end G7
