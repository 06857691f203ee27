import G7Ctrl.Tracker.Stream
import G7Ctrl.Store.Records

/-!
# Two ways of storing a batch

Locations reach the database on two paths.  What a tracker sends over its connection is cut at
every `"\r\n"` by `tracker_clientsrv`, and every piece that is classified as a location event is
stored by a call of its own.  What is downloaded with `DLREC` is stored by one call for the whole
batch.

Both paths take the same framed batches.  They store the same rows when every record of the batch
is followed by a `"\r\n"`; but the format the store routine documents, a batch in brackets, ends
with the last record and a `']'`, and then the first path loses that record.

* `carriedLines` — the complete lines of a framed batch, with the records they carry.
* **`gprsStore_framed`**, **`dlrecStore_framed`** — the rows each path stores.
* **`paths_agree_iff`** — exactly when they are the same.
* **`bracketedBatch_loses_last`** — the documented example.

Both paths see the same clock and the same address lookup for the row at a given place of the
table, and a database in which every call succeeds.
-/

namespace G7

/-- A database in which everything succeeds, when `stored` rows have been stored before. -/
def workingDb (clock : ℕ → ℤ) (lookup : Option (ℕ → CStr → CStr → CStr)) (stored : ℕ) :
    StoreEnv where
  setupOk := true
  prepareOk := true
  beginOk := true
  commitOk := true
  step := fun _ _ => .done
  now := fun k => clock (stored + k)
  getAddressFromLatlon := lookup.map fun address k => address (stored + k)

/-- The table a call leaves. -/
def StoreResult.table? : StoreResult → Option (List Row)
  | .returned _ table _ _ => some table
  | .overran => none

section Paths

variable (clock : ℕ → ℤ) (lookup : Option (ℕ → CStr → CStr → CStr))

/-- The table after the events of a connection: `handleLocPackage` for every location event. -/
def gprsStore : List Row → List TrackerEvent → Option (List Row)
  | table, [] => some table
  | table, .handle .loc package :: evs =>
      (handleLocPackage (workingDb clock lookup table.length) package table).table?.bind
        fun table' => gprsStore table' evs
  | table, _ :: evs => gprsStore table evs

/-- The table after a download: `get_dlrec_to_db` passes the whole batch on, without a callback. -/
def dlrecStore (numLoc : ℕ) (table : List Row) (batch : List Byte) : Option (List Row) :=
  (dbStoreLocations (workingDb clock lookup table.length) numLoc batch false table).table?

/-- The rows of records, stored behind `stored` others. -/
def rowsOf : ℕ → List LocationRecord → List Row
  | _, [] => []
  | stored, r :: rs =>
      bindRow (workingDb clock lookup stored) 0 r.stored :: rowsOf (stored + 1) rs

end Paths

/-! ## The condition -/

/-- What stands between the last record and a `"\r\n"` behind it, if there is one. -/
def Framing.lastSuffix : Framing → Option CStr
  | .plain false => none
  | .plain true => some []
  | .bracketed false false => none
  | .bracketed false true => some [ch ']']
  | .bracketed true _ => some []

/-- The records that stand in a complete line, with their lines. -/
def carriedLines (f : Framing) : CStr → List LocationRecord → List (LocationRecord × CStr)
  | _, [] => []
  | opening, [r] =>
      match f.lastSuffix with
      | none => []
      | some suffix => [(r, opening ++ (r.text ++ suffix))]
  | opening, r :: r' :: rs => (r, opening ++ r.text) :: carriedLines f [] (r' :: rs)

/-- The condition: the last record is followed by a `"\r\n"` and every line is within the limits of
`xstrsplitfields`; or the batch is rejected for a field that is too long, and no line at all is
within those limits. -/
def PathsAgree (f : Framing) (rs : List LocationRecord) : Prop :=
  (f.lastSuffix ≠ none ∧ ∀ p ∈ carriedLines f f.opening rs, Splittable (p.2 ++ crlf)) ∨
    ((∃ r ∈ rs, ¬ r.Fits) ∧ ∀ p ∈ carriedLines f f.opening rs, ¬ Splittable (p.2 ++ crlf))

/-! ## One line -/

/-- A line that carries a record: perhaps a bracket on either side. -/
def CarriesRecord (line : CStr) (r : LocationRecord) : Prop :=
  ∃ opening suffix, (opening = [] ∨ opening = [ch '[']) ∧ (suffix = [] ∨ suffix = [ch ']']) ∧
    line = opening ++ (r.text ++ suffix)

lemma lastSuffix_cases {f : Framing} {suffix : CStr} (h : f.lastSuffix = some suffix) :
    suffix = [] ∨ suffix = [ch ']'] := by
  rcases f with (_ | _) | ⟨_ | _, _ | _⟩ <;> simp [Framing.lastSuffix] at h <;> simp [← h]

lemma carriedLines_carries (f : Framing) : ∀ {opening : CStr} {rs : List LocationRecord},
    (opening = [] ∨ opening = [ch '[']) → ∀ p ∈ carriedLines f opening rs, CarriesRecord p.2 p.1
  | opening, [], _, p, hp => by simp [carriedLines] at hp
  | opening, [r], hop, p, hp => by
      cases hs : f.lastSuffix with
      | none => simp [carriedLines, hs] at hp
      | some suffix =>
          simp only [carriedLines, hs, List.mem_singleton] at hp
          subst hp
          exact ⟨opening, suffix, hop, lastSuffix_cases hs, rfl⟩
  | opening, r :: r' :: rs, hop, p, hp => by
      simp only [carriedLines, List.mem_cons] at hp
      rcases hp with rfl | hp
      · exact ⟨opening, [], hop, Or.inl rfl, by simp⟩
      · exact carriedLines_carries f (Or.inl rfl) p hp

section Line

variable {line : CStr} {r : LocationRecord}

/-- Brackets leave the number of fields and the event id as they are. -/
lemma CarriesRecord.fields (h : CarriesRecord line r) :
    (fieldsOf line).length = 11 ∧
      fld (fieldsOf line) .eventid = fld (fieldsOf r.text) .eventid := by
  obtain ⟨opening, suffix, hop, hsuf, rfl⟩ := h
  have hcomma : ch ',' ∉ suffix := by
    rcases hsuf with rfl | rfl <;> decide
  have hlen : (fieldsOf (r.text ++ suffix)).length = 11 := by
    rw [fieldsOf, splitOn_append_length hcomma, ← r.fields]
  have hevent : fld (fieldsOf (r.text ++ suffix)) .eventid = fld (fieldsOf r.text) .eventid :=
    fld_append hcomma (by rw [r.fields]; decide)
  rcases hop with rfl | rfl
  · exact ⟨hlen, hevent⟩
  · rw [List.singleton_append]
    refine ⟨?_, (fld_cons (by decide) _ (by decide)).trans hevent⟩
    rw [fieldsOf, splitOn_cons_of_ne (by decide), List.length_modifyHead, ← hlen]

lemma CarriesRecord.lead (h : CarriesRecord line r) : byteAt line 0 = ch '3' ∨ byteAt line 0 = ch '[' := by
  obtain ⟨opening, suffix, hop, _, rfl⟩ := h
  rcases hop with rfl | rfl
  · left
    rw [List.nil_append, byteAt_append_zero r.ne_nil, r.lead]
  · exact Or.inr rfl

/-- A line that can be split is passed to `handleLocPackage`; another is dropped. -/
lemma CarriesRecord.handlePackage (h : CarriesRecord line r) :
    (Splittable (line ++ crlf) →
      G7.handlePackage (line ++ crlf) = some (.handle .loc (line ++ crlf))) ∧
    (¬ Splittable (line ++ crlf) → G7.handlePackage (line ++ crlf) = none) := by
  let event : LocationEvent := ⟨line, h.fields.1, h.lead⟩
  have hloc : event.pkgType = .loc := by
    have hid : event.eventid ≠ 0 := by
      rw [LocationEvent.eventid, h.fields.2]
      exact r.eventid
    exact if_neg hid
  have htype := arrivingPackageType_location event
  constructor
  · intro hsplit
    rw [G7.handlePackage, (htype .loc).mpr ⟨hsplit, hloc.symm⟩]
    rfl
  · intro hsplit
    cases ht : arrivingPackageType (line ++ crlf) with
    | none => rw [G7.handlePackage, ht]; rfl
    | some t => exact absurd ((htype t).mp ht).1 hsplit

/-- The fields of a record are no longer than those of its line. -/
lemma CarriesRecord.fits (h : CarriesRecord line r) (hsplit : Splittable (line ++ crlf)) : r.Fits := by
  obtain ⟨opening, suffix, hop, hsuf, rfl⟩ := h
  have hcomma : ch ',' ∉ suffix := by
    rcases hsuf with rfl | rfl <;> decide
  have hline := length_lt_of_append comma_notMem_crlf hsplit.2
  rcases hop with rfl | rfl
  · exact length_lt_of_append hcomma hline
  · exact length_lt_of_append hcomma (length_lt_of_cons (by decide) hline)

/-- A line that can be split stores its record and nothing else. -/
lemma CarriesRecord.store (h : CarriesRecord line r) (hsplit : Splittable (line ++ crlf)) (clock : ℕ → ℤ)
    (lookup : Option (ℕ → CStr → CStr → CStr)) (table : List Row) :
    (handleLocPackage (workingDb clock lookup table.length) (line ++ crlf) table).table?
      = some (table ++ rowsOf clock lookup table.length [r]) := by
  have hfits := h.fits hsplit
  obtain ⟨opening, suffix, hop, hsuf, rfl⟩ := h
  have hend : Ends (suffix ++ crlf) := by
    rcases hsuf with rfl | rfl <;> exact ⟨by decide, fun _ _ => rfl⟩
  have hbatch := (batchOf_joined hop hend (List.cons_ne_nil r [])).1 (by simpa using hfits)
  have htext : opening ++ (r.text ++ suffix) ++ crlf
      = opening ++ (joined [r] ++ (suffix ++ crlf)) := by
    simp
  have hopen : (workingDb clock lookup table.length).opens = true := rfl
  obtain ⟨progress, hres⟩ := dbStoreLocations_eq hopen 1
    (opening ++ (joined [r] ++ (suffix ++ crlf))) true table
  rw [handleLocPackage, htext, hres, hbatch]
  rfl

end Line

/-! ## The connection -/

/-- The records whose lines can be split. -/
def kept (ps : List (LocationRecord × CStr)) : List LocationRecord :=
  (ps.filter fun p => Splittable (p.2 ++ crlf)).map Prod.fst

/-- Without a suffix, no line ends behind the last record. -/
lemma cr_notMem_closing {f : Framing} (h : f.lastSuffix = none) : cr ∉ f.closing := by
  rcases f with (_ | _) | ⟨_ | _, _ | _⟩ <;> first | decide | exact absurd h (by decide)

/-- Otherwise its line ends there, and what follows is at most a bracket, which is dropped. -/
lemma closing_eq {f : Framing} {suffix : CStr} (h : f.lastSuffix = some suffix) :
    ∃ rest, f.closing = suffix ++ crlf ++ rest ∧
      (packages [] rest).filterMap handlePackage = [] := by
  rcases f with (_ | _) | ⟨_ | _, _ | _⟩ <;> simp only [Framing.lastSuffix, reduceCtorEq] at h <;>
    obtain rfl := Option.some.inj h
  · exact ⟨[], rfl, rfl⟩
  · exact ⟨[], rfl, rfl⟩
  · exact ⟨[ch ']'], rfl, by decide⟩
  · exact ⟨ch ']' :: crlf, rfl, by decide⟩

lemma CarriesRecord.plain {line : CStr} {r : LocationRecord} (h : CarriesRecord line r) :
    (0 : Byte) ∉ line ∧ cr ∉ line := by
  obtain ⟨opening, suffix, hop, hsuf, rfl⟩ := h
  have hopening : (0 : Byte) ∉ opening ∧ cr ∉ opening := by
    rcases hop with rfl | rfl <;> decide
  have hsuffix : (0 : Byte) ∉ suffix ∧ cr ∉ suffix := by
    rcases hsuf with rfl | rfl <;> decide
  simp only [List.mem_append, not_or]
  exact ⟨⟨hopening.1, r.plain.1, hsuffix.1⟩, hopening.2, r.plain.2.1, hsuffix.2⟩

/-- The lines of a framed batch that matter are those that carry a record. -/
lemma filterMap_packages (f : Framing) : ∀ {opening : CStr} {rs : List LocationRecord},
    (opening = [] ∨ opening = [ch '[']) → rs ≠ [] →
      (packages [] (opening ++ (joined rs ++ f.closing))).filterMap handlePackage
        = (carriedLines f opening rs).filterMap fun p => handlePackage (p.2 ++ crlf)
  | opening, [], _, h => absurd rfl h
  | opening, [r], hop, _ => by
      cases hs : f.lastSuffix with
      | none =>
          have hline : CarriesRecord (opening ++ r.text) r := ⟨opening, [], hop, Or.inl rfl, by simp⟩
          have hcr : cr ∉ opening ++ (joined [r] ++ f.closing) := by
            rw [joined_singleton, ← List.append_assoc, List.mem_append, not_or]
            exact ⟨hline.plain.2, cr_notMem_closing hs⟩
          rw [packages_of_notMem [] hcr, carriedLines, hs]
          rfl
      | some suffix =>
          obtain ⟨rest, hclosing, hrest⟩ := closing_eq hs
          have hline : CarriesRecord (opening ++ (r.text ++ suffix)) r :=
            ⟨opening, suffix, hop, lastSuffix_cases hs, rfl⟩
          have htext : opening ++ (joined [r] ++ f.closing)
              = opening ++ (r.text ++ suffix) ++ crlf ++ rest := by
            simp [hclosing]
          rw [htext, packages_line [] _ _ hline.plain.1 hline.plain.2, List.nil_append, carriedLines,
            hs, List.filterMap_cons, List.filterMap_cons, hrest]
          rfl
  | opening, r :: r' :: rs, hop, _ => by
      have ih := filterMap_packages f (Or.inl rfl) (List.cons_ne_nil r' rs)
      rw [List.nil_append] at ih
      have hline : CarriesRecord (opening ++ r.text) r := ⟨opening, [], hop, Or.inl rfl, by simp⟩
      have htext : opening ++ (joined (r :: r' :: rs) ++ f.closing)
          = opening ++ r.text ++ crlf ++ (joined (r' :: rs) ++ f.closing) := by
        simp [joined_cons_cons]
      rw [htext, packages_line [] _ _ hline.plain.1 hline.plain.2, List.nil_append, carriedLines,
        List.filterMap_cons, List.filterMap_cons, ih]

section Rows

variable (clock : ℕ → ℤ) (lookup : Option (ℕ → CStr → CStr → CStr))

lemma rowsOf_length : ∀ (stored : ℕ) (rs : List LocationRecord),
    (rowsOf clock lookup stored rs).length = rs.length
  | _, [] => rfl
  | stored, _ :: rs => congrArg (· + 1) (rowsOf_length (stored + 1) rs)

/-- Lines handled one by one store the records that are kept. -/
lemma gprsStore_lines : ∀ {ps : List (LocationRecord × CStr)} (table : List Row),
    (∀ p ∈ ps, CarriesRecord p.2 p.1) →
      gprsStore clock lookup table (ps.filterMap fun p => handlePackage (p.2 ++ crlf))
        = some (table ++ rowsOf clock lookup table.length (kept ps))
  | [], table, _ => by simp [gprsStore, kept, rowsOf]
  | p :: ps, table, h => by
      have hp := h p (List.mem_cons_self ..)
      have htl : ∀ q ∈ ps, CarriesRecord q.2 q.1 := fun q hq => h q (List.mem_cons_of_mem _ hq)
      rw [List.filterMap_cons]
      by_cases hsplit : Splittable (p.2 ++ crlf)
      · have hkept : kept (p :: ps) = p.1 :: kept ps := by simp [kept, hsplit]
        have ih := gprsStore_lines (table ++ rowsOf clock lookup table.length [p.1]) htl
        rw [List.length_append, rowsOf_length, List.length_singleton] at ih
        rw [hp.handlePackage.1 hsplit, gprsStore, hp.store hsplit, Option.bind_some, ih, hkept,
          List.append_assoc]
        rfl
      · have hkept : kept (p :: ps) = kept ps := by simp [kept, hsplit]
        rw [hp.handlePackage.2 hsplit, hkept]
        exact gprsStore_lines table htl

lemma gprsStore_readEvents (f : Framing) {rs : List LocationRecord} (hrs : rs ≠ [])
    (table : List Row) :
    gprsStore clock lookup table (readEvents (f.text rs))
      = some (table ++ rowsOf clock lookup table.length (kept (carriedLines f f.opening rs))) := by
  have hlead : byteAt (f.text rs) 0 = ch '3' ∨ byteAt (f.text rs) 0 = ch '[' := by
    obtain ⟨r, rs', rfl⟩ := List.exists_cons_of_ne_nil hrs
    cases f with
    | plain final => exact Or.inl (joined_lead ..)
    | bracketed inner final => exact Or.inr rfl
  have hnul : ¬ byteAt (f.text rs) 0 = 0 := by
    rcases hlead with h | h <;> rw [h] <;> decide
  have hka : ¬ (byteAt (f.text rs) 0 = 0xD0 ∧ byteAt (f.text rs) 1 = 0xD7) := by
    rcases hlead with h | h <;> rw [h] <;> exact fun h => absurd h.1 (by decide)
  rw [readEvents, if_neg hnul, if_neg hka, Framing.text,
    filterMap_packages f (opening_cases f) hrs,
    gprsStore_lines clock lookup table (carriedLines_carries f (opening_cases f))]

/-- **What the connection stores** of a framed batch that arrives in one read: the records of the
complete lines that can be split. -/
theorem gprsStore_framed {maxDeviceIdleTime : ℕ} (f : Framing) {rs : List LocationRecord}
    (hrs : rs ≠ []) (hread : (f.text rs).length < buffer50K) (table : List Row) :
    gprsStore clock lookup table (trackerClientsrv maxDeviceIdleTime [.ready (f.text rs)])
      = some (table ++ rowsOf clock lookup table.length (kept (carriedLines f f.opening rs))) := by
  have hne : f.text rs ≠ [] := by
    obtain ⟨r, rs', rfl⟩ := List.exists_cons_of_ne_nil hrs
    have hlead := joined_lead r rs' f.closing
    intro h
    rw [(List.append_eq_nil_iff.mp h).2] at hlead
    exact absurd hlead (by decide)
  have hstay : StaysOnline maxDeviceIdleTime 0 [.ready (f.text rs)] := trivial
  have hreads : ∀ c ∈ reads [.ready (f.text rs)], c ≠ [] ∧ c.length < buffer50K := by
    simpa [reads] using ⟨hne, hread⟩
  have hevents : (reads [.ready (f.text rs)]).flatMap readEvents = readEvents (f.text rs) :=
    List.append_nil _
  rw [trackerClientsrv_eq hstay hreads, hevents, gprsStore_readEvents clock lookup f hrs]

/-! ## The download -/

lemma bindRow_workingDb (stored k : ℕ) (flds : List CStr) :
    bindRow (workingDb clock lookup stored) k flds
      = bindRow (workingDb clock lookup (stored + k)) 0 flds := by
  cases lookup <;> rfl

lemma batchRows_workingDb (stored : ℕ) : ∀ (k : ℕ) (rs : List LocationRecord),
    batchRows (workingDb clock lookup stored) k (rs.map LocationRecord.stored)
      = rowsOf clock lookup (stored + k) rs
  | _, [] => rfl
  | k, r :: rs => by
      rw [List.map_cons, batchRows, rowsOf, bindRow_workingDb, batchRows_workingDb stored (k + 1) rs,
        Nat.add_assoc]

/-- **What the download stores** of a framed batch: all records or none. -/
theorem dlrecStore_framed (f : Framing) {rs : List LocationRecord} (hrs : rs ≠ []) (numLoc : ℕ)
    (table : List Row) :
    dlrecStore clock lookup numLoc table (f.text rs)
      = some (table ++
          if ∀ r ∈ rs, r.Fits then rowsOf clock lookup table.length rs else []) := by
  obtain ⟨hfits, hnot⟩ := batchOf_framed f hrs
  have hopen : (workingDb clock lookup table.length).opens = true := rfl
  obtain ⟨progress, hres⟩ := dbStoreLocations_eq hopen numLoc (f.text rs) false table
  rw [dlrecStore, hres]
  by_cases hall : ∀ r ∈ rs, r.Fits
  · have hins := (insertedRows_eq_iff (workingDb clock lookup table.length) 0
      (rs.map LocationRecord.stored)).mpr fun _ _ => rfl
    have hrows := batchRows_workingDb clock lookup table.length 0 rs
    rw [Nat.add_zero] at hrows
    rw [hfits hall, if_pos hall, ← hrows, ← hins]
    rfl
  · rw [hnot (by simpa using hall), if_neg hall, List.append_nil]
    rfl

end Rows

/-! ## When the paths agree -/

/-- Every record has a complete line exactly when the last one has. -/
lemma carriedLines_fst (f : Framing) : ∀ (opening : CStr) (rs : List LocationRecord),
    (carriedLines f opening rs).map Prod.fst = if f.lastSuffix = none then rs.dropLast else rs
  | opening, [] => by simp [carriedLines]
  | opening, [r] => by
      cases hs : f.lastSuffix <;> simp [carriedLines, hs]
  | opening, r :: r' :: rs => by
      have ih := carriedLines_fst f [] (r' :: rs)
      rw [carriedLines, List.map_cons, ih]
      split_ifs <;> rfl

lemma kept_of_splittable {ps : List (LocationRecord × CStr)}
    (h : ∀ p ∈ ps, Splittable (p.2 ++ crlf)) : kept ps = ps.map Prod.fst := by
  rw [kept, List.filter_eq_self.mpr fun p hp => decide_eq_true (h p hp)]

lemma kept_eq_nil_iff {ps : List (LocationRecord × CStr)} :
    kept ps = [] ↔ ∀ p ∈ ps, ¬ Splittable (p.2 ++ crlf) := by
  simp [kept, List.filter_eq_nil_iff]

/-- As many records are kept as there are lines only if every line can be split. -/
lemma splittable_of_kept_length {ps : List (LocationRecord × CStr)}
    (h : (kept ps).length = ps.length) : ∀ p ∈ ps, Splittable (p.2 ++ crlf) := by
  rw [kept, List.length_map] at h
  have hfilter := List.filter_eq_self.mp (List.filter_sublist.eq_of_length h)
  exact fun p hp => of_decide_eq_true (hfilter p hp)

/-- Records of lines that can be split fit. -/
lemma fits_of_splittable {f : Framing} {rs : List LocationRecord} (hlast : f.lastSuffix ≠ none)
    (h : ∀ p ∈ carriedLines f f.opening rs, Splittable (p.2 ++ crlf)) : ∀ r ∈ rs, r.Fits := by
  intro r hr
  have hfst := carriedLines_fst f f.opening rs
  rw [if_neg hlast] at hfst
  rw [← hfst] at hr
  obtain ⟨p, hp, rfl⟩ := List.mem_map.mp hr
  exact (carriedLines_carries f (opening_cases f) p hp).fits (h p hp)

/-- **The two paths store the same rows exactly under the condition**, for every non-empty batch of
well-formed records in any framing that arrives in one read. -/
theorem paths_agree_iff {maxDeviceIdleTime : ℕ} (clock : ℕ → ℤ)
    (lookup : Option (ℕ → CStr → CStr → CStr)) (f : Framing) {rs : List LocationRecord}
    (hrs : rs ≠ []) (hread : (f.text rs).length < buffer50K) (numLoc : ℕ) (table : List Row) :
    gprsStore clock lookup table (trackerClientsrv maxDeviceIdleTime [.ready (f.text rs)])
        = dlrecStore clock lookup numLoc table (f.text rs) ↔
      PathsAgree f rs := by
  rw [gprsStore_framed clock lookup f hrs hread, dlrecStore_framed clock lookup f hrs,
    Option.some.injEq, List.append_cancel_left_eq]
  have hfst := carriedLines_fst f f.opening rs
  by_cases hall : ∀ r ∈ rs, r.Fits
  · have hnot : ¬ ∃ r ∈ rs, ¬ r.Fits := by simpa using hall
    rw [if_pos hall, PathsAgree, or_iff_left fun h => hnot h.1]
    constructor
    · intro heq
      have hlen := congrArg List.length heq
      rw [rowsOf_length, rowsOf_length] at hlen
      have hle : (kept (carriedLines f f.opening rs)).length
          ≤ (carriedLines f f.opening rs).length := by
        rw [kept, List.length_map]
        exact List.length_filter_le ..
      have hpos : 0 < rs.length := List.length_pos_iff.mpr hrs
      have hcarried := congrArg List.length hfst
      rw [List.length_map] at hcarried
      split_ifs at hcarried with hlast
      · rw [List.length_dropLast] at hcarried
        omega
      · exact ⟨hlast, splittable_of_kept_length (by omega)⟩
    · rintro ⟨hlast, hsplit⟩
      rw [kept_of_splittable hsplit, hfst, if_neg hlast]
  · have hex : ∃ r ∈ rs, ¬ r.Fits := by simpa using hall
    rw [if_neg hall, PathsAgree,
      or_iff_right fun h => hall (fits_of_splittable h.1 h.2), ← kept_eq_nil_iff]
    constructor
    · intro heq
      have hlen := congrArg List.length heq
      rw [rowsOf_length] at hlen
      exact ⟨hex, List.eq_nil_of_length_eq_zero hlen⟩
    · rintro ⟨_, hkept⟩
      rw [hkept]
      rfl

/-- A record. -/
def exampleRecord : LocationRecord where
  text := str "3000000001,20131211002222,17.959445,59.366545,0,0,0,0,2,3.88V,0"
  fields := by decide +kernel
  devidDigits := by decide +kernel
  devidLead := by decide +kernel
  eventid := by decide +kernel
  long := by decide +kernel
  short := by decide +kernel
  plain := by decide +kernel

/-- Two records, the last one followed by a `"\r\n"`: both paths store them. -/
theorem paths_agree_terminated :
    gprsStore (fun _ => 0) none []
        (trackerClientsrv 600 [.ready ((Framing.plain true).text [exampleRecord, exampleRecord])])
      = dlrecStore (fun _ => 0) none 2 [] ((Framing.plain true).text [exampleRecord, exampleRecord])
    := by
  have hsize : ((Framing.plain true).text [exampleRecord, exampleRecord]).length < buffer50K := by
    decide +kernel
  have hagree : PathsAgree (.plain true) [exampleRecord, exampleRecord] := by
    refine Or.inl ⟨by decide, ?_⟩
    decide +kernel
  exact (paths_agree_iff (fun _ => 0) none (.plain true) (List.cons_ne_nil _ _) hsize 2 []).mpr
    hagree

/-- **The documented format is read differently**: of two records in brackets, without a `"\r\n"`
before the closing one, a connection stores only the first. -/
theorem bracketedBatch_loses_last :
    ¬ ∀ (maxDeviceIdleTime : ℕ) (clock : ℕ → ℤ) (lookup : Option (ℕ → CStr → CStr → CStr))
        (f : Framing) (rs : List LocationRecord) (numLoc : ℕ) (table : List Row),
      rs ≠ [] → (f.text rs).length < buffer50K →
        gprsStore clock lookup table (trackerClientsrv maxDeviceIdleTime [.ready (f.text rs)])
          = dlrecStore clock lookup numLoc table (f.text rs) := by
  intro h
  have hsize : ((Framing.bracketed false false).text [exampleRecord, exampleRecord]).length
      < buffer50K := by
    decide +kernel
  have heq := h 600 (fun _ => 0) none (.bracketed false false) [exampleRecord, exampleRecord] 2 []
    (List.cons_ne_nil _ _) hsize
  have hfits : ∀ r ∈ [exampleRecord, exampleRecord], r.Fits := by decide +kernel
  have hkept : (kept (carriedLines (.bracketed false false) [ch '['] [exampleRecord, exampleRecord])
      ).length = 1 := by
    decide +kernel
  rw [gprsStore_framed _ _ _ (List.cons_ne_nil _ _) hsize,
    dlrecStore_framed _ _ _ (List.cons_ne_nil _ _), if_pos hfits] at heq
  have hlen := congrArg List.length (List.append_cancel_left (Option.some.inj heq))
  rw [rowsOf_length, rowsOf_length] at hlen
  exact absurd (hkept.symm.trans hlen) (by decide)

end G7
