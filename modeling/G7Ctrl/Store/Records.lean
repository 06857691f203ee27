import G7Ctrl.Store.AllOrNothing

/-!
# Well-formed records

A well-formed location record has eleven fields, a device id of ten digits beginning with `'3'`, an
event id other than 0 and a length between 50 and 511, and none of the characters that frame a
batch.  `LocationRecord` carries these facts.

A batch of such records is framed in one of several ways (`Framing`): the records are separated by
`"\r\n"`, they may be enclosed in brackets, and there may be a final `"\r\n"`.

**`batchOf_framed`** says how the store routine reads a framed batch: as exactly its records, if
none of them has a field that is too long to be split off, and otherwise as something to be
rejected.
-/

namespace G7

/-- The fields of a text. -/
abbrev fieldsOf (text : CStr) : List CStr := text.splitOn (ch ',')

/-- A well-formed record, without its terminator. -/
structure LocationRecord where
  /-- The record. -/
  text : CStr
  /-- Eleven fields. -/
  fields : (fieldsOf text).length = 11
  /-- A device id of ten digits … -/
  devidDigits : (fld (fieldsOf text) .devid).length = 10 ∧
    ∀ c ∈ fld (fieldsOf text) .devid, isDigit c
  /-- … beginning with `'3'`. -/
  devidLead : byteAt (fld (fieldsOf text) .devid) 0 = ch '3'
  /-- An event id other than 0. -/
  eventid : xatoi (fld (fieldsOf text) .eventid) ≠ 0
  /-- At least 50 characters … -/
  long : 50 ≤ text.length
  /-- … that fit the buffer with their NUL. -/
  short : text.length < locBuffSize
  /-- A string, with nothing of a frame in it. -/
  plain : (0 : Byte) ∉ text ∧ cr ∉ text ∧ ch ']' ∉ text

/-- Every field of a text fits a buffer of `xstrsplitfields`. -/
def FieldsFit (text : CStr) : Prop := ∀ f ∈ fieldsOf text, f.length < maxFieldSize

instance (text : CStr) : Decidable (FieldsFit text) :=
  inferInstanceAs (Decidable (∀ f ∈ fieldsOf text, f.length < maxFieldSize))

/-- The fields of a text as they are stored: the voltage without its last character. -/
def storedFields (text : CStr) : List CStr :=
  (fieldsOf text).set LocField.volt.idx (fld (fieldsOf text) .volt).dropLast

/-- What the store routine relies on: a device id of ten characters beginning with `'3'` instead of
one of digits, and any event id. -/
structure RecordText (text : CStr) : Prop where
  fields : (fieldsOf text).length = 11
  devid : (fld (fieldsOf text) .devid).length = 10
  devidLead : byteAt (fld (fieldsOf text) .devid) 0 = ch '3'
  long : 50 ≤ text.length
  short : text.length < locBuffSize
  plain : (0 : Byte) ∉ text ∧ cr ∉ text ∧ ch ']' ∉ text

namespace LocationRecord

/-- Every field fits a buffer of `xstrsplitfields`. -/
def Fits (r : LocationRecord) : Prop := ∀ f ∈ fieldsOf r.text, f.length < maxFieldSize

instance (r : LocationRecord) : Decidable r.Fits :=
  inferInstanceAs (Decidable (∀ f ∈ fieldsOf r.text, f.length < maxFieldSize))

/-- The fields as they are stored. -/
def stored (r : LocationRecord) : List CStr :=
  (fieldsOf r.text).set LocField.volt.idx (fld (fieldsOf r.text) .volt).dropLast

lemma recordText (r : LocationRecord) : RecordText r.text :=
  ⟨r.fields, r.devidDigits.1, r.devidLead, r.long, r.short, r.plain⟩

end LocationRecord

namespace RecordText

variable {text : CStr} (h : RecordText text)
include h

lemma ne_nil : text ≠ [] := by
  rintro rfl
  exact absurd h.long (by decide)

/-- A record begins with the `'3'` of its device id. -/
lemma lead : byteAt text 0 = ch '3' := by
  have hlead := h.devidLead
  obtain ⟨c, cs, rfl⟩ := List.exists_cons_of_ne_nil h.ne_nil
  rw [fieldsOf, List.splitOn_cons_eq_if_modifyHead] at hlead
  split_ifs at hlead with hc
  · simp [fld, LocField.idx, byteAt, ch] at hlead
  · obtain ⟨f, fs, hs⟩ := List.exists_cons_of_ne_nil (List.splitOn_ne_nil (ch ',') cs)
    rw [hs] at hlead
    exact hlead

/-- Ten commas, none of them first. -/
lemma count_tail : text.tail.count (ch ',') = 10 := by
  have hfields := h.fields
  have hlead := h.lead
  obtain ⟨c, cs, rfl⟩ := List.exists_cons_of_ne_nil h.ne_nil
  rw [byteAt_cons_zero] at hlead
  rw [fieldsOf, splitOn_length, hlead, List.count_cons_of_ne (by decide)] at hfields
  rw [List.tail_cons]
  omega

end RecordText

namespace LocationRecord

lemma ne_nil (r : LocationRecord) : r.text ≠ [] := r.recordText.ne_nil

lemma lead (r : LocationRecord) : byteAt r.text 0 = ch '3' := r.recordText.lead

end LocationRecord

/-! ## How the store routine reads one record -/

/-- Ordinary text is copied whole; the commas behind its first character are counted. -/
lemma rounds_text : ∀ (s rest : List Byte) (numFields : ℕ) (locBuff : CStr),
    ((0 : Byte) ∉ s ∧ cr ∉ s ∧ ch ']' ∉ s) → byteAt rest 0 ≠ ch ',' →
    numFields + s.tail.count (ch ',') < 12 →
      rounds false numFields locBuff (s ++ rest)
        = rounds false (numFields + s.tail.count (ch ',')) (locBuff ++ s) rest
  | [], rest, numFields, locBuff, _, _, _ => by simp
  | c :: cs, rest, numFields, locBuff, hplain, hrest, hnum => by
      simp only [List.mem_cons, not_or] at hplain
      obtain ⟨⟨h0, h0s⟩, ⟨hcr, hcrs⟩, hbr, hbrs⟩ := hplain
      have hstop : ¬ (c = 0 ∨ c = ch ']') := fun h => h.elim (fun h => h0 h.symm) fun h => hbr h.symm
      have hend : ¬ (c = cr ∧ byteAt (cs ++ rest) 0 = lf) := fun h => hcr h.1.symm
      rw [List.tail_cons] at hnum ⊢
      rw [List.cons_append, rounds, if_neg hstop, if_neg hend]
      cases cs with
      | nil =>
          rw [List.nil_append, if_neg hrest]
          simp only [List.count_nil, Nat.add_zero] at hnum ⊢
          exact if_pos hnum
      | cons d ds =>
          have ih := rounds_text (d :: ds) rest
          simp only [List.tail_cons] at ih
          rw [List.cons_append, byteAt_cons_zero]
          by_cases hd : d = ch ','
          · subst hd
            rw [List.count_cons_self] at hnum ⊢
            rw [if_pos rfl]
            refine (if_pos (by omega)).trans ?_
            rw [← List.cons_append, ih (numFields + 1) (locBuff ++ [c]) ⟨h0s, hcrs, hbrs⟩ hrest
              (by omega)]
            congr 1
            · omega
            · simp
          · rw [List.count_cons_of_ne hd] at hnum ⊢
            rw [if_neg hd]
            refine (if_pos (by omega)).trans ?_
            rw [← List.cons_append, ih numFields (locBuff ++ [c]) ⟨h0s, hcrs, hbrs⟩ hrest hnum]
            congr 1
            simp

namespace RecordText

variable {text : CStr} (h : RecordText text)
include h

/-- A record is copied whole, with eleven fields counted. -/
lemma rounds_append {rest : List Byte} (hrest : byteAt rest 0 ≠ ch ',') :
    rounds false 1 [] (text ++ rest) = rounds false 11 text rest := by
  have hnum : 1 + text.tail.count (ch ',') = 11 := by rw [h.count_tail]
  rw [rounds_text text rest 1 [] h.plain hrest (by omega), hnum, List.nil_append]

/-- The checks on a record: only the lengths of its fields are in question. -/
lemma splitLocation_eq :
    splitLocation text = if FieldsFit text then some (storedFields text) else none := by
  have hlong := h.long
  have hshort := h.short
  rw [splitLocation, if_neg (by omega)]
  split_ifs with hfits
  · rw [xstrsplitfields_eq_some h.ne_nil (by simp only [locBuffSize] at hshort; omega) hfits
      (by rw [h.fields]; decide)]
    have hdevid : ¬ ((fld (fieldsOf text) .devid).length ≠ 10 ∨
        byteAt (fld (fieldsOf text) .devid) 0 ≠ ch '3') := by
      rw [not_or, not_not, not_not]
      exact ⟨h.devid, h.devidLead⟩
    exact (if_neg (by rw [not_not]; exact h.fields)).trans (if_neg hdevid)
  · cases hsplit : xstrsplitfields text (ch ',') with
    | none => rfl
    | some flds =>
        have hflds := xstrsplitfields_some hsplit
        have hfit := xstrsplitfields_length hsplit
        rw [hflds] at hfit
        exact absurd hfit hfits

/-- The verdict on the round of a record. -/
lemma verdict_eq :
    verdict (11, text) = if FieldsFit text then .accept (storedFields text) else .reject := by
  have hshort := h.short
  rw [verdict, if_neg (by simpa using hshort), if_neg (by simp), h.splitLocation_eq]
  split_ifs <;> rfl

end RecordText

/-! ## Framed batches -/

/-- The ways to frame a batch: without brackets, with or without a final `"\r\n"`; or in brackets,
with or without a `"\r\n"` before and behind the closing one. -/
inductive Framing
  | plain (final : Bool)
  | bracketed (inner final : Bool)
  deriving DecidableEq

/-- What stands before the records. -/
def Framing.opening : Framing → CStr
  | .plain _ => []
  | .bracketed _ _ => [ch '[']

/-- What stands behind the last record. -/
def Framing.closing : Framing → CStr
  | .plain false => []
  | .plain true => crlf
  | .bracketed false false => [ch ']']
  | .bracketed false true => ch ']' :: crlf
  | .bracketed true false => crlf ++ [ch ']']
  | .bracketed true true => crlf ++ ch ']' :: crlf

/-- Records separated by `"\r\n"`. -/
def joined (rs : List LocationRecord) : CStr := crlf.intercalate (rs.map LocationRecord.text)

/-- A framed batch. -/
def Framing.text (f : Framing) (rs : List LocationRecord) : CStr :=
  f.opening ++ (joined rs ++ f.closing)

@[simp] lemma joined_singleton (r : LocationRecord) : joined [r] = r.text := by
  simp [joined]

lemma joined_cons_cons (r r' : LocationRecord) (rs : List LocationRecord) :
    joined (r :: r' :: rs) = r.text ++ (crlf ++ joined (r' :: rs)) := by
  simp [joined, List.intercalate_cons_cons]

lemma joined_lead (r : LocationRecord) (rs : List LocationRecord) (rest : List Byte) :
    byteAt (joined (r :: rs) ++ rest) 0 = ch '3' := by
  cases rs with
  | nil => rw [joined_singleton, byteAt_append_zero r.ne_nil, r.lead]
  | cons r' rs => rw [joined_cons_cons, List.append_assoc, byteAt_append_zero r.ne_nil, r.lead]

/-- Text that may stand behind the last record: it ends the last round. -/
structure Ends (closing : List Byte) : Prop where
  /-- It does not begin another field. -/
  lead : byteAt closing 0 ≠ ch ','
  /-- It ends the round, and with it the batch. -/
  ends : ∀ numFields locBuff, rounds false numFields locBuff closing = [(numFields, locBuff)]

lemma ends_closing (f : Framing) : Ends f.closing := by
  rcases f with (_ | _) | ⟨_ | _, _ | _⟩ <;> exact ⟨by decide, fun _ _ => rfl⟩

/-- Records joined begin as the first does. -/
lemma intercalate_lead {t : CStr} (ht : RecordText t) (ts : List CStr) (rest : List Byte) :
    byteAt (crlf.intercalate (t :: ts) ++ rest) 0 = ch '3' := by
  cases ts with
  | nil => rw [List.intercalate_singleton, byteAt_append_zero ht.ne_nil, ht.lead]
  | cons t' ts =>
      rw [List.intercalate_cons_cons, List.append_assoc, List.append_assoc,
        byteAt_append_zero ht.ne_nil, ht.lead]

/-- The rounds of a framed batch are its records. -/
lemma rounds_joined {closing : List Byte} (hend : Ends closing) :
    ∀ {ts : List CStr}, ts ≠ [] → (∀ t ∈ ts, RecordText t) →
      rounds false 1 [] (crlf.intercalate ts ++ closing) = ts.map fun t => (11, t)
  | [], h, _ => absurd rfl h
  | [t], _, hts => by
      have ht := hts t List.mem_cons_self
      rw [List.intercalate_singleton, ht.rounds_append hend.lead, hend.ends]
      rfl
  | t :: t' :: ts, _, hts => by
      have ht := hts t List.mem_cons_self
      have ht' := hts t' (List.mem_cons_of_mem _ List.mem_cons_self)
      have ih := rounds_joined hend (List.cons_ne_nil t' ts) fun q hq =>
        hts q (List.mem_cons_of_mem _ hq)
      have hsep : byteAt (crlf ++ (crlf.intercalate (t' :: ts) ++ closing)) 0 ≠ ch ',' := by
        rw [byteAt_append_zero (by simp [crlf])]
        decide
      have hgo : ¬ (byteAt (crlf.intercalate (t' :: ts) ++ closing) 0 = 0 ∨
          byteAt (crlf.intercalate (t' :: ts) ++ closing) 0 = ch ']') := by
        rw [intercalate_lead ht']
        decide
      rw [List.intercalate_cons_cons, List.append_assoc, List.append_assoc, ht.rounds_append hsep,
        List.map_cons, ← ih]
      exact congrArg _ (if_neg hgo)

lemma opening_cases (f : Framing) : f.opening = [] ∨ f.opening = [ch '['] := by
  cases f with
  | plain final => exact Or.inl rfl
  | bracketed inner final => exact Or.inr rfl

lemma skipBracket_opening {opening : CStr} (hop : opening = [] ∨ opening = [ch '[']) {body : List Byte}
    (hbody : byteAt body 0 ≠ ch '[') : skipBracket (opening ++ body) = body := by
  rcases hop with rfl | rfl
  · exact if_neg hbody
  · exact if_pos rfl

/-- Records that all fit are accepted. -/
lemma readBatch_of_fits : ∀ {ts : List CStr}, (∀ t ∈ ts, RecordText t) → (∀ t ∈ ts, FieldsFit t) →
    readBatch (ts.map fun t => (11, t)) = (ts.map storedFields, .complete)
  | [], _, _ => rfl
  | t :: ts, hts, hfit => by
      have ih := readBatch_of_fits (fun q hq => hts q (List.mem_cons_of_mem _ hq))
        fun q hq => hfit q (List.mem_cons_of_mem _ hq)
      simp only [List.map_cons, readBatch, (hts t List.mem_cons_self).verdict_eq,
        if_pos (hfit t List.mem_cons_self), ih]

/-- One that does not fit is rejected. -/
lemma readBatch_of_not_fits : ∀ {ts : List CStr}, (∀ t ∈ ts, RecordText t) →
    (∃ t ∈ ts, ¬ FieldsFit t) → (readBatch (ts.map fun t => (11, t))).2 = .rejected
  | [], _, hnot => by simp at hnot
  | t :: ts, hts, hnot => by
      simp only [List.map_cons, readBatch, (hts t List.mem_cons_self).verdict_eq]
      by_cases ht : FieldsFit t
      · simp only [if_pos ht]
        refine readBatch_of_not_fits (fun q hq => hts q (List.mem_cons_of_mem _ hq)) ?_
        obtain ⟨q, hq, hqnot⟩ := hnot
        rcases List.mem_cons.mp hq with rfl | hq
        · exact absurd ht hqnot
        · exact ⟨q, hq, hqnot⟩
      · simp only [if_neg ht]

/-- How texts are read, whatever encloses them. -/
lemma batchOf_texts {opening : CStr} (hop : opening = [] ∨ opening = [ch '['])
    {closing : List Byte} (hend : Ends closing) {ts : List CStr} (hne : ts ≠ [])
    (hts : ∀ t ∈ ts, RecordText t) :
    batchOf (opening ++ (crlf.intercalate ts ++ closing)) = readBatch (ts.map fun t => (11, t)) := by
  have hbody : byteAt (crlf.intercalate ts ++ closing) 0 ≠ ch '[' := by
    obtain ⟨t, ts', rfl⟩ := List.exists_cons_of_ne_nil hne
    rw [intercalate_lead (hts t List.mem_cons_self)]
    decide
  rw [batchOf, skipBracket_opening hop hbody, rounds_joined hend hne hts]

/-- How records are read, whatever encloses them. -/
lemma batchOf_joined {opening : CStr} (hop : opening = [] ∨ opening = [ch '['])
    {closing : List Byte} (hend : Ends closing) {rs : List LocationRecord} (hrs : rs ≠ []) :
    ((∀ r ∈ rs, r.Fits) →
      batchOf (opening ++ (joined rs ++ closing)) = (rs.map LocationRecord.stored, .complete)) ∧
    ((∃ r ∈ rs, ¬ r.Fits) → (batchOf (opening ++ (joined rs ++ closing))).2 = .rejected) := by
  have hts : ∀ t ∈ rs.map LocationRecord.text, RecordText t := by
    intro t ht
    obtain ⟨r, -, rfl⟩ := List.mem_map.mp ht
    exact r.recordText
  rw [joined, batchOf_texts hop hend (by simpa using hrs) hts]
  constructor
  · intro hfit
    rw [readBatch_of_fits hts, List.map_map]
    · rfl
    · intro t ht
      obtain ⟨r, hr, rfl⟩ := List.mem_map.mp ht
      exact hfit r hr
  · rintro ⟨r, hr, hnot⟩
    exact readBatch_of_not_fits hts ⟨r.text, List.mem_map_of_mem hr, hnot⟩

/-- **How a framed batch is read.** -/
theorem batchOf_framed (f : Framing) {rs : List LocationRecord} (hrs : rs ≠ []) :
    ((∀ r ∈ rs, r.Fits) → batchOf (f.text rs) = (rs.map LocationRecord.stored, .complete)) ∧
      ((∃ r ∈ rs, ¬ r.Fits) → (batchOf (f.text rs)).2 = .rejected) :=
  batchOf_joined (opening_cases f) (ends_closing f) hrs

end G7
