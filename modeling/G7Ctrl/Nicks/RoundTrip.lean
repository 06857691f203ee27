import G7Ctrl.Nicks.Registry

/-!
# Reading the nicks back

What the lookups and the deletion do with the devices of a history.  The id of a device has ten
digits and the buffer of the caller eleven bytes, but `db_get_devid_from_nick` copies with a limit
of 10, and the limit of `xmb_strncpy` counts the NUL: the last digit is lost, for every device.

* `RoundTrip` — a device is found by its nick and by its id, and deleted by its nick.
* **`NickHistory.lookups`** — what is found: all of the nick, nine digits of the id.
* **`NickHistory.roundTrip_iff`** — the round trip is that of the empty table only.
-/

namespace G7

/-- What a registered device is promised. -/
structure RoundTrip (t : NickTable) (d : Device) : Prop where
  devid : NickTable.dbGetDevidFromNick t d.nick = (0, d.devid)
  nick : NickTable.dbGetNickFromDevid t d.devid = (0, d.nick)
  delete : NickTable.dbDeleteNick d.nick t = (0, t.filter (·.imei != d.imei))

/-! ## The copies -/

/-- Of a number at most as many digits as the buffer has bytes are copied, less one. -/
lemma xmbStrncpy_dec (n maxbuff : ℕ) : xmbStrncpy (dec n) maxbuff = (dec n).take (maxbuff - 1) := by
  have hdigit {c : Byte} (hc : c ∈ dec n) : 48 ≤ c.toNat ∧ c.toNat ≤ 57 :=
    isDigit_iff.mp (isDigit_of_mem_dec n c hc)
  have hs : (0 : Byte) ∉ dec n := fun h0 => absurd (hdigit h0).1 (by decide)
  rcases lt_or_ge (dec n).length maxbuff with hlt | hge
  · rw [xmbStrncpy_of_lt hs hlt, List.take_of_length_le (by omega)]
  · refine xmbStrncpy_of_le hs (fun c hc => ?_) hge
    have hutf : ∀ c : Byte, (!isDigit c || isutf c) = true := forall_byte (by decide +kernel)
    have h := hutf c
    rwa [isDigit_of_mem_dec n c hc] at h

namespace Device

variable {d : Device} (hd : d.Valid)
include hd

lemma Valid.dec_length_le : (dec (digitsValue d.devid)).length ≤ 10 := by
  have hlt := digitsValue_lt (s := d.devid) (List.all_eq_true.mp hd.devid.2)
  exact hd.devid.1 ▸ G7.dec_length_le hd.devid_ne_nil hlt

lemma ShownBy.result_nick {row : NickRow} (h : d.ShownBy row) : row.result.nick = d.nick := by
  have hlen := hd.nick.2
  show xmbStrncpy row.nick 15 = d.nick
  rw [h.nick, xmbStrncpy_of_lt hd.text.2 (by omega)]

lemma ShownBy.result_devid {row : NickRow} (h : d.ShownBy row) :
    row.result.devid = dec (digitsValue d.devid) := by
  have hlen := hd.dec_length_le
  show xmbStrncpy (dec row.devid) 15 = _
  rw [h.devid, xmbStrncpy_dec, List.take_of_length_le (by omega)]

end Device

/-! ## The rows of the devices -/

namespace Registry

variable {t : NickTable} {reg : List Device} {d : Device} (h : Registry t reg) (hd : d ∈ reg)
include h hd

/-- The row of a device is all that a search finds that asks for the device. -/
lemma filter_row {p : NickRow → Bool}
    (hp : ∀ d' ∈ reg, ∀ row, d'.ShownBy row → (p row = true ↔ d'.imei = d.imei)) :
    ∃ row, d.ShownBy row ∧ t.filter p = [row] := by
  obtain ⟨row, hrow, hshown⟩ := exists_of_mem_left h.rows.flip d hd
  refine ⟨row, hshown, ?_⟩
  have hkeys : (t.map NickRow.imei).Nodup := h.map_imei ▸ h.imei
  refine filter_eq_singleton hkeys hrow ((hp d hd row hshown).mpr rfl) fun row' hrow' hpr => ?_
  obtain ⟨d', hd', hshown'⟩ := exists_of_mem_left h.rows row' hrow'
  rw [hshown'.imei, hshown.imei]
  exact (hp d' hd' row' hshown').mp hpr

lemma nick_iff {d' : Device} (hd' : d' ∈ reg) : d'.nick = d.nick ↔ d'.imei = d.imei := by
  constructor
  · exact h.nick d' hd' d hd
  · intro heq
    rw [List.inj_on_of_nodup_map h.imei hd' hd heq]

lemma filter_nick : ∃ row, d.ShownBy row ∧ (t.filter fun row => row.nick == d.nick) = [row] :=
  h.filter_row hd fun d' hd' row hrow => by
    rw [beq_iff_eq, hrow.nick]
    exact h.nick_iff hd hd'

lemma filter_devid (hid : ∀ d' ∈ reg, d'.devid = d.devid → d'.imei = d.imei) :
    ∃ row, d.ShownBy row ∧ (t.filter fun row => row.devid == digitsValue d.devid) = [row] :=
  h.filter_row hd fun d' hd' row hrow => by
    have hv := (h.valid d hd).devid
    have hv' := (h.valid d' hd').devid
    rw [beq_iff_eq, hrow.devid]
    constructor
    · intro heq
      exact hid d' hd' (eq_of_digitsValue_eq (List.all_eq_true.mp hv'.2)
        (List.all_eq_true.mp hv.2) (hv'.1.trans hv.1.symm) heq)
    · intro heq
      rw [List.inj_on_of_nodup_map h.imei hd' hd heq]

/-! ## The calls for a device -/

lemma devid_of_nick : NickTable.dbGetDevidFromNick t d.nick =
    (0, (dec (digitsValue d.devid)).take 9) := by
  obtain ⟨row, hshown, hrow⟩ := h.filter_nick hd
  rw [NickTable.dbGetDevidFromNick, if_pos (h.valid d hd).sqlText_nick, selectNick_singleton hrow]
  show (0, xmbStrncpy row.result.devid 10) = _
  rw [hshown.result_devid (h.valid d hd), xmbStrncpy_dec]

lemma nick_of_devid (hid : ∀ d' ∈ reg, d'.devid = d.devid → d'.imei = d.imei) :
    NickTable.dbGetNickFromDevid t d.devid = (0, d.nick) := by
  obtain ⟨row, hshown, hrow⟩ := h.filter_devid hd hid
  have hd := h.valid d hd
  simp only [NickTable.dbGetNickFromDevid, hd.sqlNumber_devid, selectNick_singleton hrow]
  show (0, xmbStrncpy row.result.nick 12) = _
  have hlen := hd.nick.2
  rw [hshown.result_nick hd, xmbStrncpy_of_lt hd.text.2 (by omega)]

lemma delete_nick : NickTable.dbDeleteNick d.nick t = (0, t.filter (·.imei != d.imei)) := by
  obtain ⟨row, hshown, hrow⟩ := h.filter_nick hd
  have hsame : (t.filter fun row => row.nick != d.nick) = t.filter (·.imei != d.imei) := by
    refine List.filter_congr fun row' hrow' => ?_
    obtain ⟨d', hd', hshown'⟩ := exists_of_mem_left h.rows row' hrow'
    rw [hshown'.nick, hshown'.imei, Bool.eq_iff_iff, bne_iff_ne, bne_iff_ne]
    exact (h.nick_iff hd hd').not
  rw [NickTable.dbDeleteNick, if_pos (h.valid d hd).sqlText_nick, hrow, hsame]
  rfl

end Registry

/-- **The lookups after a history**: nine digits of the id are found for a nick, the nick for an id
that no other device has, and a deletion takes out the entry. -/
theorem NickHistory.lookups {t : NickTable} {reg : List Device} (h : NickHistory t reg) {d : Device}
    (hd : d ∈ reg) :
    NickTable.dbGetDevidFromNick t d.nick = (0, (dec (digitsValue d.devid)).take 9) ∧
      ((∀ d' ∈ reg, d'.devid = d.devid → d'.imei = d.imei) →
        NickTable.dbGetNickFromDevid t d.devid = (0, d.nick)) ∧
      NickTable.dbDeleteNick d.nick t = (0, t.filter (·.imei != d.imei)) :=
  ⟨h.registry.devid_of_nick hd, h.registry.nick_of_devid hd, h.registry.delete_nick hd⟩

/-- No device that is registered makes the round trip. -/
lemma NickHistory.not_roundTrip {t : NickTable} {reg : List Device} (h : NickHistory t reg)
    {d : Device} (hd : d ∈ reg) : ¬ RoundTrip t d := by
  intro hround
  have hlen := congrArg (·.2.length) (hround.devid.symm.trans (h.registry.devid_of_nick hd))
  have hten := (h.registry.valid d hd).devid.1
  simp only [List.length_take] at hlen
  omega

/-- **The round trip is that of the empty table only.** -/
theorem NickHistory.roundTrip_iff {t : NickTable} {reg : List Device} (h : NickHistory t reg) :
    (∀ d ∈ reg, RoundTrip t d) ↔ reg = [] := by
  constructor
  · intro hall
    exact List.eq_nil_iff_forall_not_mem.mpr fun d hd => h.not_roundTrip hd (hall d hd)
  · rintro rfl
    simp

/-- A call that registers a device. -/
def car01Args : NickArgs where
  nick := str "car01"
  devid := str "3000000001"
  imei := str "235456126541201"
  sim := str "823543892652"
  phone := []
  fwver := str "2.1.13"

/-- The row of the call. -/
def car01Row : NickRow where
  nick := str "car01"
  devid := 3000000001
  imei := 235456126541201
  sim := str "823543892652"
  phone := []
  fwver := str "2.1.13"
  regdate := str "2014-01-17 10:12"
  upddate := str "2014-01-17 10:12"

/-- The history of one call. -/
lemma car01_history : NickHistory [car01Row] [car01Args.device] := by
  have hcall : NickTable.dbUpdateNick (str "2014-01-17 10:12") car01Args [] = (0, [car01Row]) := by
    decide +kernel
  have hvalid : car01Args.device.Valid := ⟨by decide +kernel, by decide +kernel, by decide +kernel⟩
  exact .update .nil hvalid (by simp) hcall

/-- The result at the history of one call. -/
theorem car01_roundTrip_iff : (∀ d ∈ [car01Args.device], RoundTrip [car01Row] d) ↔
    [car01Args.device] = [] :=
  NickHistory.roundTrip_iff car01_history

/-- One device is registered, and nine digits of its id are found. -/
theorem car01_not_roundTrip : NickHistory [car01Row] [car01Args.device] ∧
    NickTable.dbGetDevidFromNick [car01Row] (str "car01") = (0, str "300000000") ∧
    ¬ RoundTrip [car01Row] car01Args.device := by
  refine ⟨car01_history, by decide +kernel, fun hround => ?_⟩
  exact absurd hround.devid (by decide +kernel)

end G7
