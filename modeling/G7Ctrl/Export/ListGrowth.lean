import G7Ctrl.Export.ResultSet

/-!
# The memory of the export list

The list is allocated for 50000 entries.  When it is full, `realloc` is given the old number of
*entries* plus 50000 as a number of *bytes*, so that the new block is smaller than the old one,
while the list is taken to have 100000 entries.

* `ListAccess.InBounds` — what is expected of a growth and of a write.
* `Grows` — the rows that make the list grow.
* **`inBounds_iff`** — every access lies inside the memory exactly when they do not.
* **`overflow_at_50001`** — the first row that does not fit.
* **`loads_iff`** — complete rows come into the list exactly when there are at most 50000.
-/

namespace G7

/-- After a growth the memory holds as many entries as the list is taken to have; an entry that is
written is one of these, and lies inside the memory. -/
def ListAccess.InBounds : ListAccess → Prop
  | .grown listSize bytes => listSize * sizeofG7Loc ≤ bytes
  | .write idx listSize bytes => idx < listSize ∧ (idx + 1) * sizeofG7Loc ≤ bytes

/-- Every access while the rows of a query are read lies inside the memory. -/
def AllInBounds (env : ExportEnv) (rows : List Columns) : Prop :=
  ∀ a ∈ (exportRows env {} rows).2.trace, a.InBounds

/-- With room for `room` more entries, these rows make the list grow: so many of them are kept,
there is one more, and there is memory. -/
def GrowsAfter (env : ExportEnv) (room : ℕ) (rows : List Columns) : Prop :=
  (∀ cols ∈ rows.take room, (readColumns cols).isSome) ∧
    (∃ cols, rows[room]? = some cols ∧ cols.length = 11) ∧
    env.reallocOk (internalListChunksize + internalListChunksize) = true

/-- The rows make the list grow. -/
def Grows (env : ExportEnv) (rows : List Columns) : Prop :=
  GrowsAfter env internalListChunksize rows

lemma length_of_readColumns {cols : Columns} (h : (readColumns cols).isSome) :
    cols.length = 11 := by
  unfold readColumns at h
  split at h
  · rfl
  · simp at h

/-- The growth that happens when the list is full for the first time. -/
def firstGrowth : ListAccess :=
  .grown (internalListChunksize + internalListChunksize)
    (internalListChunksize + internalListChunksize)

lemma not_inBounds_firstGrowth : ¬ firstGrowth.InBounds := by
  simp [firstGrowth, ListAccess.InBounds, internalListChunksize, sizeofG7Loc]

/-! ## One row -/

/-- A row with another number of columns ends the query. -/
lemma callback_of_length_ne (env : ExportEnv) (s : ExportSet) {cols : Columns}
    (h : cols.length ≠ 11) : sqresExportCallback env s cols = (false, s) := by
  rw [sqresExportCallback, if_pos h]

/-- There is no memory for the list. -/
lemma callback_of_no_room {env : ExportEnv} {s : ExportSet} {cols : Columns}
    (hlen : cols.length = 11) (h : s.ensureRoom env = none) :
    sqresExportCallback env s cols = (false, { s with bytes := 0 }) := by
  simp only [sqresExportCallback, hlen, h, ne_eq, not_true_eq_false, if_false]

/-- A NULL ends the query, after room was made for the row. -/
lemma callback_of_null {env : ExportEnv} {s s' : ExportSet} {cols : Columns}
    (hlen : cols.length = 11) (hroom : s.ensureRoom env = some s')
    (h : readColumns cols = none) : sqresExportCallback env s cols = (false, s') := by
  simp only [sqresExportCallback, hlen, hroom, h, ne_eq, not_true_eq_false, if_false]

/-- A complete row is stored. -/
lemma callback_of_some {env : ExportEnv} {s s' : ExportSet} {cols : Columns} {r : TrackRow}
    (hroom : s.ensureRoom env = some s') (h : readColumns cols = some r) :
    sqresExportCallback env s cols = (true, s'.store env r) := by
  have hlen : cols.length = 11 := length_of_readColumns (by simp [h])
  simp only [sqresExportCallback, hlen, hroom, h, ne_eq, not_true_eq_false, if_false]

/-- What was accessed stays in the trace. -/
lemma mem_trace_ensureRoom {env : ExportEnv} {s s' : ExportSet} (h : s.ensureRoom env = some s')
    {a : ListAccess} (ha : a ∈ s.trace) : a ∈ s'.trace := by
  simp only [ExportSet.ensureRoom] at h
  split_ifs at h
  · rw [← Option.some.inj h]
    exact List.mem_append_left _ ha
  · rwa [← Option.some.inj h]

lemma mem_trace_exportRows {env : ExportEnv} {a : ListAccess} (rows : List Columns) :
    ∀ {s : ExportSet}, a ∈ s.trace → a ∈ (exportRows env s rows).2.trace := by
  induction rows with
  | nil => exact fun ha => ha
  | cons cols rows ih =>
      intro s ha
      by_cases hlen : cols.length = 11
      · cases hroom : s.ensureRoom env with
        | none => simpa only [exportRows, callback_of_no_room hlen hroom] using ha
        | some s' =>
            have ha' := mem_trace_ensureRoom hroom ha
            cases hcols : readColumns cols with
            | none => simpa only [exportRows, callback_of_null hlen hroom hcols] using ha'
            | some r =>
                simp only [exportRows, callback_of_some hroom hcols]
                exact ih (List.mem_append_left _ ha')
      · simpa only [exportRows, callback_of_length_ne env s hlen] using ha

/-! ## All rows -/

/-- The list has not grown yet and has room for `room` more entries. -/
structure Roomy (room : ℕ) (s : ExportSet) : Prop where
  listSize : s.listSize = internalListChunksize
  bytes : s.bytes = internalListChunksize * sizeofG7Loc
  room : s.locs.length + room = internalListChunksize
  trace : ∀ a ∈ s.trace, a.InBounds

/-- A list with room stays as it is. -/
lemma Roomy.ensureRoom {room : ℕ} {s : ExportSet} (h : Roomy (room + 1) s) (env : ExportEnv) :
    s.ensureRoom env = some s := by
  have hroom := h.room
  rw [ExportSet.ensureRoom, if_neg (by rw [h.listSize]; omega)]

/-- The write of a row for which there is room. -/
lemma Roomy.store {room : ℕ} {s : ExportSet} (h : Roomy (room + 1) s) (env : ExportEnv)
    (r : TrackRow) : Roomy room (s.store env r) := by
  have hroom := h.room
  refine ⟨h.listSize, h.bytes, ?_, fun a ha => ?_⟩
  · show (s.locs ++ [_]).length + room = _
    rw [List.length_append, List.length_singleton]
    omega
  · rcases List.mem_append.mp ha with ha | ha
    · exact h.trace a ha
    · rw [List.mem_singleton.mp ha, ListAccess.InBounds, h.listSize, h.bytes]
      exact ⟨by omega, Nat.mul_le_mul_right _ (by omega)⟩

/-- A full list grows when there is memory. -/
lemma Roomy.grows {s : ExportSet} (h : Roomy 0 s) {env : ExportEnv}
    (hmem : env.reallocOk (internalListChunksize + internalListChunksize) = true) :
    ∃ s', s.ensureRoom env = some s' ∧ firstGrowth ∈ s'.trace := by
  have hfull : internalListChunksize ≤ s.locs.length := Nat.le_of_eq h.room.symm
  refine ⟨{ s with
    listSize := internalListChunksize + internalListChunksize
    bytes := internalListChunksize + internalListChunksize
    trace := s.trace ++ [firstGrowth] }, ?_, List.mem_append_right _ (List.mem_singleton_self _)⟩
  simp only [ExportSet.ensureRoom, h.listSize, hfull, if_true, hmem]
  rfl

/-- Otherwise the query ends. -/
lemma Roomy.no_room {s : ExportSet} (h : Roomy 0 s) {env : ExportEnv}
    (hmem : ¬ env.reallocOk (internalListChunksize + internalListChunksize) = true) :
    s.ensureRoom env = none := by
  have hfull : internalListChunksize ≤ s.locs.length := Nat.le_of_eq h.room.symm
  simp only [ExportSet.ensureRoom, h.listSize, hfull, if_true, if_neg hmem]

lemma not_growsAfter_of_read {env : ExportEnv} {room : ℕ} {cols : Columns} {rows : List Columns}
    (h : readColumns cols = none) : ¬ GrowsAfter env (room + 1) (cols :: rows) := by
  rintro ⟨hread, -, -⟩
  have hcols := hread cols (by simp)
  simp [h] at hcols

/-- **The accesses from any moment before the first growth on.** -/
lemma inBounds_iff_of_roomy {env : ExportEnv} (rows : List Columns) :
    ∀ {room : ℕ} {s : ExportSet}, Roomy room s →
      ((∀ a ∈ (exportRows env s rows).2.trace, a.InBounds) ↔ ¬ GrowsAfter env room rows) := by
  induction rows with
  | nil =>
      intro room s h
      refine iff_of_true h.trace ?_
      rintro ⟨-, ⟨cols, hcols, -⟩, -⟩
      simp at hcols
  | cons cols rows ih =>
      intro room s h
      by_cases hlen : cols.length = 11
      · cases room with
        | zero =>
            by_cases hmem :
                env.reallocOk (internalListChunksize + internalListChunksize) = true
            · -- the list grows, whether or not the row is stored
              obtain ⟨s', hroom, hgrown⟩ := h.grows hmem
              have hgrows : GrowsAfter env 0 (cols :: rows) :=
                ⟨by simp, ⟨cols, rfl, hlen⟩, hmem⟩
              refine iff_of_false (fun hall => ?_) (not_not_intro hgrows)
              apply not_inBounds_firstGrowth
              apply hall
              cases hcols : readColumns cols with
              | none => simpa only [exportRows, callback_of_null hlen hroom hcols] using hgrown
              | some r =>
                  simp only [exportRows, callback_of_some hroom hcols]
                  exact mem_trace_exportRows rows (List.mem_append_left _ hgrown)
            · refine iff_of_true ?_ fun hgrows => hmem hgrows.2.2
              simpa only [exportRows, callback_of_no_room hlen (h.no_room hmem)] using h.trace
        | succ room =>
            have hroom := h.ensureRoom env
            cases hcols : readColumns cols with
            | none =>
                refine iff_of_true ?_ (not_growsAfter_of_read hcols)
                simpa only [exportRows, callback_of_null hlen hroom hcols] using h.trace
            | some r =>
                simp only [exportRows, callback_of_some hroom hcols]
                rw [ih (h.store env r)]
                simp [GrowsAfter, hcols]
      · refine iff_of_true ?_ fun hgrows => ?_
        · simpa only [exportRows, callback_of_length_ne env s hlen] using h.trace
        · cases room with
          | zero =>
              obtain ⟨cols', hcols', hlen'⟩ := hgrows.2.1
              exact hlen (Option.some.inj hcols' ▸ hlen')
          | succ room =>
              exact hlen (length_of_readColumns (hgrows.1 cols (by simp)))

/-- **Every access lies inside the memory exactly when the list does not grow**, whatever the rows
and whichever reallocation succeeds. -/
theorem inBounds_iff (env : ExportEnv) (rows : List Columns) :
    AllInBounds env rows ↔ ¬ Grows env rows :=
  inBounds_iff_of_roomy rows ⟨rfl, rfl, by simp, by simp⟩

/-- **The row after the first 50000 is written outside of the memory.** -/
theorem overflow_at_50001 :
    ¬ ∀ (env : ExportEnv) (rows : List Columns), AllInBounds env rows := by
  intro h
  have hall := h ⟨0, fun _ => true⟩ (List.replicate 50001 (pointAt (str "20131201093042")).columns)
  have hempty : Roomy internalListChunksize {} := ⟨rfl, rfl, by simp, by simp⟩
  refine (inBounds_iff_of_roomy _ hempty).mp hall ⟨?_, ?_, rfl⟩
  · intro cols hcols
    rw [List.eq_of_mem_replicate (List.mem_of_mem_take hcols)]
    rfl
  · have hlt : internalListChunksize < 50001 := Nat.lt_succ_self _
    exact ⟨(pointAt (str "20131201093042")).columns,
      by rw [List.getElem?_replicate, if_pos hlt], rfl⟩

/-! ## Complete rows -/

/-- The rows of a query come into the list: it ends with the last of them, and nothing outside of
the memory is accessed. -/
structure Loads (env : ExportEnv) (rows : List Columns) : Prop where
  inBounds : AllInBounds env rows
  done : (exportRows env {} rows).1 = true

/-- The list after a query of complete rows. -/
def internalSet (env : ExportEnv) (rows : List TrackRow) : ExportSet :=
  (exportRows env {} (rows.map TrackRow.columns)).2

/-- What is in the list. -/
lemma Loads.internalSet_eq {env : ExportEnv} {rows : List TrackRow}
    (h : Loads env (rows.map TrackRow.columns)) :
    (internalSet env rows).locs = rows.map (TrackRow.loc env.timezone) ∧
      (internalSet env rows).box = boundsOf (rows.map (TrackRow.loc env.timezone)) :=
  exportRows_true h.done rfl

/-- Rows for which there is room. -/
lemma Roomy.exportRows_done {env : ExportEnv} (rows : List TrackRow) :
    ∀ {room : ℕ} {s : ExportSet}, Roomy room s → rows.length ≤ room →
      (exportRows env s (rows.map TrackRow.columns)).1 = true := by
  induction rows with
  | nil => exact fun _ _ => rfl
  | cons r rows ih =>
      intro room s h hlen
      cases room with
      | zero => exact absurd hlen (Nat.not_succ_le_zero _)
      | succ room =>
          rw [List.map_cons, exportRows, sqresExportCallback_columns (h.ensureRoom env) r]
          exact ih (h.store env r) (Nat.le_of_succ_le_succ hlen)

/-- One row more, and no memory. -/
lemma Roomy.exportRows_fails {env : ExportEnv}
    (hmem : ¬ env.reallocOk (internalListChunksize + internalListChunksize) = true)
    (rows : List TrackRow) : ∀ {room : ℕ} {s : ExportSet}, Roomy room s → room < rows.length →
      (exportRows env s (rows.map TrackRow.columns)).1 = false := by
  induction rows with
  | nil => exact fun _ hlen => absurd hlen (Nat.not_lt_zero _)
  | cons r rows ih =>
      intro room s h hlen
      rw [List.map_cons, exportRows]
      cases room with
      | zero => rw [callback_of_no_room rfl (h.no_room hmem)]
      | succ room =>
          rw [sqresExportCallback_columns (h.ensureRoom env) r]
          exact ih (h.store env r) (Nat.lt_of_succ_lt_succ hlen)

/-- **Complete rows come into the list exactly when there are at most 50000**: with more, either the
memory is overrun or the query is given up. -/
theorem loads_iff (env : ExportEnv) (rows : List TrackRow) :
    Loads env (rows.map TrackRow.columns) ↔ rows.length ≤ internalListChunksize := by
  have hempty : Roomy internalListChunksize {} := ⟨rfl, rfl, by simp, by simp⟩
  constructor
  · rintro ⟨hbounds, hdone⟩
    by_contra hlong
    by_cases hmem : env.reallocOk (internalListChunksize + internalListChunksize) = true
    · refine (inBounds_iff env _).mp hbounds ⟨fun cols hcols => ?_, ?_, hmem⟩
      · obtain ⟨r, -, rfl⟩ := List.mem_map.mp (List.mem_of_mem_take hcols)
        rfl
      · obtain ⟨r, hr⟩ := Option.ne_none_iff_exists'.mp (mt List.getElem?_eq_none_iff.mp hlong)
        exact ⟨r.columns, by rw [List.getElem?_map, hr, Option.map_some], rfl⟩
    · exact absurd hdone
        (Bool.not_eq_true _ ▸ hempty.exportRows_fails hmem rows (Nat.not_le.mp hlong))
  · intro hlen
    refine ⟨(inBounds_iff env _).mpr ?_, hempty.exportRows_done rows hlen⟩
    rintro ⟨-, ⟨cols, hcols, -⟩, -⟩
    rw [List.getElem?_eq_none (by rwa [List.length_map])] at hcols
    cases hcols

end G7
