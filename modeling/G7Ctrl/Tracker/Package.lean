import G7Ctrl.Xstr.Split
import G7Ctrl.Xstr.Number

/-!
# The packages of a tracker

A tracker sends text lines ending in `"\r\n"` and binary keep-alive packets.
`arrivingPackageType` tells the two kinds of lines apart: replies to commands and location events.
A location event is a line of eleven comma-separated fields, and is itself a reply (to
`GETLOCATION`) when its event id is 0.

**`arrivingPackageType_location`** says when a location event is recognised: exactly when it is
within the limits of `xstrsplitfields`.
-/

namespace G7

/-- `GM7_LOC_DEVID` … `GM7_LOC_DETACH`: the fields of a location event, in order. -/
inductive LocField
  | devid | date | lon | lat | speed | heading | alt | sat | eventid | volt | detach
  deriving DecidableEq

/-- The position of a field. -/
def LocField.idx : LocField → ℕ
  | devid => 0
  | date => 1
  | lon => 2
  | lat => 3
  | speed => 4
  | heading => 5
  | alt => 6
  | sat => 7
  | eventid => 8
  | volt => 9
  | detach => 10

/-- `flds.fld[i]` -/
def fld (flds : List CStr) (i : LocField) : CStr := flds.getD i.idx []

/-- `ARRIVE_PKG_CMDREPLY` and `ARRIVE_PKG_LOC`. -/
inductive PkgType
  | cmdReply
  | loc
  deriving DecidableEq

/-- `arrivingPackageType`, or `none` for -1. -/
def arrivingPackageType (buffer : CStr) : Option PkgType :=
  if byteAt buffer 0 = ch '$' then some .cmdReply
  else if byteAt buffer 0 = ch '3' ∨ byteAt buffer 0 = ch '[' then
    match xstrsplitfields buffer (ch ',') with
    | none => none
    | some flds =>
        if flds.length ≠ 11 then none
        else if xatoi (fld flds .eventid) = 0 then some .cmdReply
        else some .loc
  else none

/-- The text of a location event without its `"\r\n"`: eleven fields, the first of which is a
device id or a `'['` before it. -/
structure LocationEvent where
  /-- The line. -/
  text : CStr
  /-- It has eleven fields. -/
  fields : (text.splitOn (ch ',')).length = 11
  /-- It begins as location events do. -/
  lead : byteAt text 0 = ch '3' ∨ byteAt text 0 = ch '['

/-- The event id of a location event. -/
def LocationEvent.eventid (e : LocationEvent) : ℤ :=
  xatoi (fld (e.text.splitOn (ch ',')) .eventid)

/-- The type a location event has by its event id. -/
def LocationEvent.pkgType (e : LocationEvent) : PkgType :=
  if e.eventid = 0 then .cmdReply else .loc

/-- The line can be split: it is shorter than 1024 characters and no field fills its buffer. -/
def Splittable (line : CStr) : Prop :=
  line.length < 1024 ∧ ∀ f ∈ line.splitOn (ch ','), f.length < maxFieldSize

instance : DecidablePred Splittable := fun line =>
  inferInstanceAs (Decidable (line.length < 1024 ∧
    ∀ f ∈ line.splitOn (ch ','), f.length < maxFieldSize))

/-- Text at the end belongs to the last field; the others are the same without it. -/
lemma fld_append {text t : CStr} (ht : ch ',' ∉ t) {i : LocField}
    (hi : i.idx + 1 < (text.splitOn (ch ',')).length) :
    fld ((text ++ t).splitOn (ch ',')) i = fld (text.splitOn (ch ',')) i := by
  obtain ⟨flds, last, hs, hst⟩ := splitOn_append (ch ',') ht text
  rw [hs, List.length_append, List.length_singleton] at hi
  have hlt : i.idx < flds.length := by omega
  simp only [fld, hs, hst, List.getD_eq_getElem?_getD, List.getElem?_append_left hlt]

/-- It adds no field. -/
lemma splitOn_append_length {t : CStr} (ht : ch ',' ∉ t) (text : CStr) :
    ((text ++ t).splitOn (ch ',')).length = (text.splitOn (ch ',')).length := by
  obtain ⟨flds, last, hs, hst⟩ := splitOn_append (ch ',') ht text
  simp [hs, hst]

/-- A character in front belongs to the device id. -/
lemma fld_cons {c : Byte} (hc : c ≠ ch ',') (text : CStr) {i : LocField} (hi : i ≠ .devid) :
    fld ((c :: text).splitOn (ch ',')) i = fld (text.splitOn (ch ',')) i := by
  obtain ⟨f, fs, hs⟩ := List.exists_cons_of_ne_nil (List.splitOn_ne_nil (ch ',') text)
  rw [splitOn_cons_of_ne hc, hs]
  cases i <;> first | exact absurd rfl hi | rfl

lemma comma_notMem_crlf : ch ',' ∉ crlf := by decide

lemma LocationEvent.ne_nil (e : LocationEvent) : e.text ≠ [] := by
  intro h
  have := e.fields
  simp [h, List.splitOn_nil] at this

/-- What begins with `'$'` is a reply. -/
lemma arrivingPackageType_reply {line : CStr} (h : byteAt line 0 = ch '$') :
    arrivingPackageType line = some .cmdReply := by
  simp [arrivingPackageType, h]

/-- **When a location event is recognised.**  It then has the type its event id says. -/
theorem arrivingPackageType_location (e : LocationEvent) (t : PkgType) :
    arrivingPackageType (e.text ++ crlf) = some t ↔
      Splittable (e.text ++ crlf) ∧ t = e.pkgType := by
  have hlead : byteAt (e.text ++ crlf) 0 = byteAt e.text 0 := byteAt_append_zero e.ne_nil _
  have hnot : byteAt e.text 0 ≠ ch '$' := by
    rcases e.lead with h | h <;> rw [h] <;> decide
  have hlen : ((e.text ++ crlf).splitOn (ch ',')).length = 11 := by
    rw [splitOn_append_length comma_notMem_crlf, e.fields]
  have hevent : xatoi (fld ((e.text ++ crlf).splitOn (ch ',')) .eventid) = e.eventid := by
    rw [fld_append comma_notMem_crlf (by rw [e.fields]; decide), LocationEvent.eventid]
  rw [arrivingPackageType, hlead, if_neg hnot, if_pos e.lead]
  constructor
  · intro h
    cases hsplit : xstrsplitfields (e.text ++ crlf) (ch ',') with
    | none => simp [hsplit] at h
    | some flds =>
        have hflds := xstrsplitfields_some hsplit
        have hfit := xstrsplitfields_length hsplit
        have hshort : (e.text ++ crlf).length < 1024 := by
          by_contra hlong
          rw [xstrsplitfields, if_pos (Or.inl (by omega))] at hsplit
          exact absurd hsplit (by simp)
        subst hflds
        refine ⟨⟨hshort, hfit⟩, ?_⟩
        simp only [hsplit, hlen, ne_eq, not_true, if_false, hevent] at h
        by_cases h0 : e.eventid = 0 <;> simpa [LocationEvent.pkgType, h0] using h.symm
  · rintro ⟨⟨hshort, hfit⟩, rfl⟩
    have hne : e.text ++ crlf ≠ [] := by simp [crlf]
    rw [xstrsplitfields_eq_some hne hshort hfit (by rw [hlen]; decide)]
    simp only [hlen, ne_eq, not_true, if_false, hevent]
    by_cases h0 : e.eventid = 0 <;> simp [LocationEvent.pkgType, h0]

/-- **What is recognised** begins with `'$'`, `'3'` or `'['`. -/
theorem arrivingPackageType_lead {line : CStr} {t : PkgType}
    (h : arrivingPackageType line = some t) :
    byteAt line 0 = ch '$' ∨ byteAt line 0 = ch '3' ∨ byteAt line 0 = ch '[' := by
  simp only [arrivingPackageType] at h
  split_ifs at h with h1 h2
  · exact Or.inl h1
  · exact Or.inr h2

/-- The type of a line: what begins with `'$'` is a reply, and a location event within the limits
of `xstrsplitfields` has the type its event id says. -/
inductive LineType (line : CStr) : PkgType → Prop
  | reply : byteAt line 0 = ch '$' → LineType line .cmdReply
  | location (e : LocationEvent) : e.text ++ crlf = line → Splittable line →
      LineType line e.pkgType

/-- A line that is split into eleven fields has them without its end, too. -/
lemma length_splitOn_of_arrivingPackageType {text : CStr} {t : PkgType}
    (hlead : byteAt (text ++ crlf) 0 ≠ ch '$') (h : arrivingPackageType (text ++ crlf) = some t) :
    (text.splitOn (ch ',')).length = 11 := by
  rw [arrivingPackageType, if_neg hlead] at h
  split_ifs at h
  split at h
  · cases h
  · next flds hsplit =>
    split_ifs at h with hlen
    · rw [← splitOn_append_length comma_notMem_crlf, ← xstrsplitfields_some hsplit]
      exact not_not.mp hlen
    · rw [← splitOn_append_length comma_notMem_crlf, ← xstrsplitfields_some hsplit]
      exact not_not.mp hlen

/-- **The classification finds the type of a line**, and of no other text. -/
theorem arrivingPackageType_iff (text : CStr) (t : PkgType) :
    arrivingPackageType (text ++ crlf) = some t ↔ LineType (text ++ crlf) t := by
  constructor
  · intro h
    by_cases hlead : byteAt (text ++ crlf) 0 = ch '$'
    · rw [arrivingPackageType_reply hlead] at h
      obtain rfl := Option.some.inj h
      exact .reply hlead
    · have hne : text ≠ [] := by
        rintro rfl
        rcases arrivingPackageType_lead h with h | h | h <;> exact absurd h (by decide)
      have hfirst := (arrivingPackageType_lead h).resolve_left hlead
      rw [byteAt_append_zero hne] at hfirst
      let e : LocationEvent := ⟨text, length_splitOn_of_arrivingPackageType hlead h, hfirst⟩
      obtain ⟨hsplit, ht⟩ := (arrivingPackageType_location e t).mp h
      rw [ht]
      exact .location e rfl hsplit
  · intro h
    cases h with
    | reply hlead => exact arrivingPackageType_reply hlead
    | location e htext hsplit =>
        rw [← htext] at hsplit ⊢
        exact (arrivingPackageType_location e _).mpr ⟨hsplit, rfl⟩

end G7
