import G7Ctrl.Core.Keyed
import G7Ctrl.Xstr.Copy
import G7Ctrl.Xstr.Number

/-!
# The nicks of the devices (`db_update_nick`, `db_delete_nick` and the lookups)

The nick of a device is kept in a table whose primary key is the IMEI; the device id is a column of
integers, so what is read back is the number in decimal.  Each call runs one or two statements.
SQLite is taken as a table store: a statement whose texts have no quotes and whose numbers are
numbers does to the rows what it says, and any other fails and changes nothing.

What a query returns is first copied to a list of at most 100 results with a buffer for each column
(`update_nick_callback`), and from there to the buffer of the caller.

* `dbUpdateNick`, `dbDeleteNick`, `dbGetNickFromDevid`, `dbGetDevidFromNick` — the four calls.
* `NickHistory` — the table and the devices after any number of successful calls.
* **`NickHistory.registry`** — the table holds the devices, one row for each.
-/

namespace G7

/-! ## The table -/

/-- A row of `tbl_device_nick`. -/
structure NickRow where
  nick : CStr
  devid : ℕ
  imei : ℕ
  sim : CStr
  phone : CStr
  fwver : CStr
  regdate : CStr
  upddate : CStr
  deriving DecidableEq

/-- The rows of `tbl_device_nick`. -/
abbrev NickTable := List NickRow

/-- `struct nick_res_t` -/
structure NickRes where
  nick : CStr
  devid : CStr
  imei : CStr
  sim : CStr
  phone : CStr
  fwver : CStr
  regdate : CStr
  upddate : CStr

/-- `update_nick_callback` for a row. -/
def NickRow.result (row : NickRow) : NickRes where
  nick := xmbStrncpy row.nick 15
  devid := xmbStrncpy (dec row.devid) 15
  imei := xmbStrncpy (dec row.imei) 23
  sim := xmbStrncpy row.sim 23
  phone := xmbStrncpy row.phone 23
  fwver := xmbStrncpy row.fwver 47
  regdate := xmbStrncpy row.regdate 23
  upddate := xmbStrncpy row.upddate 23

/-- `MAX_NICK_RES_SET` -/
def maxNickResSet : ℕ := 100

/-- A number in a statement. -/
def sqlNumber (s : CStr) : Option ℕ :=
  if s ≠ [] ∧ s.all isDigit = true then some (digitsValue s) else none

/-- A text that can stand between quotes in a statement. -/
def sqlText (s : CStr) : Bool := ch '\'' ∉ s

/-- `SELECT * FROM tbl_device_nick WHERE p`: the callback gives up when there is no room. -/
def selectNick (p : NickRow → Bool) (t : NickTable) : Option (List NickRes) :=
  if (t.filter p).length ≤ maxNickResSet then some ((t.filter p).map NickRow.result) else none

/-! ## The calls -/

/-- The arguments of `db_update_nick`. -/
structure NickArgs where
  nick : CStr
  devid : CStr
  imei : CStr
  sim : CStr
  phone : CStr
  fwver : CStr

namespace NickTable

/-- `*arg ? arg : old` -/
def orOld (arg old : CStr) : CStr := if arg ≠ [] then arg else old

/-- The `UPDATE` of `db_update_nick`. -/
def updateNick (now : CStr) (a : NickArgs) (imei : ℕ) (r : NickRes) (t : NickTable) :
    ℤ × NickTable :=
  let nick := orOld a.nick r.nick
  let sim := orOld a.sim r.sim
  let phone := orOld a.phone r.phone
  let fwver := orOld a.fwver r.fwver
  match sqlNumber (orOld a.devid r.devid) with
  | none => (-1, t)
  | some devid =>
      if sqlText nick ∧ sqlText sim ∧ sqlText phone ∧ sqlText fwver then
        (0, t.map fun row =>
          if row.imei = imei then
            { row with nick := nick, devid := devid, sim := sim, phone := phone, fwver := fwver
                       upddate := now }
          else row)
      else (-1, t)

/-- The `INSERT` of `db_update_nick`. -/
def insertNick (now : CStr) (a : NickArgs) (imei : ℕ) (t : NickTable) : ℤ × NickTable :=
  if a.nick ≠ [] ∧ a.devid ≠ [] ∧ a.imei ≠ [] ∧ a.sim ≠ [] ∧ a.fwver ≠ [] then
    match sqlNumber a.devid with
    | none => (-1, t)
    | some devid =>
        if sqlText a.nick ∧ sqlText a.sim ∧ sqlText a.phone ∧ sqlText a.fwver then
          (0, t ++ [{ nick := a.nick, devid := devid, imei := imei, sim := a.sim, phone := a.phone
                      fwver := a.fwver, regdate := now, upddate := now }])
        else (-1, t)
  else (-1, t)

/-- `db_update_nick` -/
def dbUpdateNick (now : CStr) (a : NickArgs) (t : NickTable) : ℤ × NickTable :=
  match sqlNumber a.imei with
  | none => (-1, t)
  | some imei =>
      match selectNick (fun row => row.imei == imei) t with
      | none => (-1, t)
      | some [] => insertNick now a imei t
      | some [r] => updateNick now a imei r t
      | some _ => (0, t)

/-- `db_delete_nick` -/
def dbDeleteNick (nick : CStr) (t : NickTable) : ℤ × NickTable :=
  if sqlText nick then
    (if (t.filter fun row => row.nick == nick).length = 1 then 0 else -1,
      t.filter fun row => row.nick != nick)
  else (-1, t)

/-- `db_get_nick_from_devid` -/
def dbGetNickFromDevid (t : NickTable) (devid : CStr) : ℤ × CStr :=
  match sqlNumber devid with
  | none => (-1, [])
  | some id =>
      match selectNick (fun row => row.devid == id) t with
      | some [r] => (0, xmbStrncpy r.nick 12)
      | _ => (-1, [])

/-- `db_get_devid_from_nick` -/
def dbGetDevidFromNick (t : NickTable) (nick : CStr) : ℤ × CStr :=
  if sqlText nick then
    match selectNick (fun row => row.nick == nick) t with
    | some [r] => (0, xmbStrncpy r.devid 10)
    | _ => (-1, [])
  else (-1, [])

end NickTable

/-! ## The devices -/

/-- A device that was given a nick. -/
structure Device where
  nick : CStr
  devid : CStr
  imei : ℕ
  deriving DecidableEq

/-- A device id of ten digits, and a nick of 1 to 11 bytes without quotes. -/
structure Device.Valid (d : Device) : Prop where
  devid : d.devid.length = 10 ∧ d.devid.all isDigit = true
  nick : 1 ≤ d.nick.length ∧ d.nick.length ≤ 11
  text : ch '\'' ∉ d.nick ∧ (0 : Byte) ∉ d.nick

/-- The device of the arguments. -/
def NickArgs.device (a : NickArgs) : Device := ⟨a.nick, a.devid, digitsValue a.imei⟩

/-- The table and the devices after successful calls.  A nick that is given is not that of another
device. -/
inductive NickHistory : NickTable → List Device → Prop where
  | nil : NickHistory [] []
  | update {t t' : NickTable} {reg : List Device} {a : NickArgs} {now : CStr} : NickHistory t reg →
      a.device.Valid → (∀ d ∈ reg, d.imei ≠ a.device.imei → d.nick ≠ a.nick) →
      NickTable.dbUpdateNick now a t = (0, t') → NickHistory t' (upsert Device.imei a.device reg)
  | delete {t t' : NickTable} {reg : List Device} {nick : CStr} : NickHistory t reg →
      NickTable.dbDeleteNick nick t = (0, t') → NickHistory t' (reg.filter (·.nick != nick))

/-- A row shows a device. -/
structure Device.ShownBy (d : Device) (row : NickRow) : Prop where
  nick : row.nick = d.nick
  devid : row.devid = digitsValue d.devid
  imei : row.imei = d.imei

/-- The table holds the devices: one row for each, and neither an IMEI nor a nick twice. -/
structure Registry (t : NickTable) (reg : List Device) : Prop where
  rows : List.Forall₂ (fun row d => d.ShownBy row) t reg
  valid : ∀ d ∈ reg, d.Valid
  imei : (reg.map Device.imei).Nodup
  nick : ∀ d ∈ reg, ∀ d' ∈ reg, d.nick = d'.nick → d.imei = d'.imei

/-! ## What the calls do -/

lemma sqlNumber_eq_some {s : CStr} {v : ℕ} (h : sqlNumber s = some v) : v = digitsValue s := by
  simp only [sqlNumber, Option.ite_none_right_eq_some, Option.some.injEq] at h
  exact h.2.symm

namespace Device.Valid

variable {d : Device} (hd : d.Valid)
include hd

lemma nick_ne_nil : d.nick ≠ [] := List.ne_nil_of_length_pos hd.nick.1

lemma devid_ne_nil : d.devid ≠ [] := List.ne_nil_of_length_pos (by rw [hd.devid.1]; omega)

lemma sqlNumber_devid : sqlNumber d.devid = some (digitsValue d.devid) :=
  if_pos ⟨hd.devid_ne_nil, hd.devid.2⟩

lemma sqlText_nick : sqlText d.nick = true := decide_eq_true hd.text.1

end Device.Valid

lemma selectNick_nil {p : NickRow → Bool} {t : NickTable} (h : t.filter p = []) :
    selectNick p t = some [] := by
  simp [selectNick, h]

lemma selectNick_singleton {p : NickRow → Bool} {t : NickTable} {row : NickRow}
    (h : t.filter p = [row]) : selectNick p t = some [row.result] := by
  simp [selectNick, h, maxNickResSet]

lemma insertNick_spec {now : CStr} {a : NickArgs} {t t' : NickTable} (ha : a.device.Valid)
    (h : NickTable.insertNick now a a.device.imei t = (0, t')) :
    ∃ row, a.device.ShownBy row ∧ t' = t ++ [row] := by
  have hdevid : sqlNumber a.devid = some (digitsValue a.devid) := ha.sqlNumber_devid
  simp only [NickTable.insertNick, hdevid] at h
  split_ifs at h with hall htexts
  · exact ⟨_, ⟨rfl, rfl, rfl⟩, (congrArg Prod.snd h).symm⟩
  · cases h
  · cases h

lemma updateNick_spec {now : CStr} {a : NickArgs} {r : NickRes} {t t' : NickTable}
    (ha : a.device.Valid) (h : NickTable.updateNick now a a.device.imei r t = (0, t')) :
    ∃ f : NickRow → NickRow, (∀ row, row.imei = a.device.imei → a.device.ShownBy (f row)) ∧
      t' = t.map fun row => if row.imei = a.device.imei then f row else row := by
  have hdevid : sqlNumber a.devid = some (digitsValue a.devid) := ha.sqlNumber_devid
  have hnick : NickTable.orOld a.nick r.nick = a.nick := if_pos ha.nick_ne_nil
  have hid : NickTable.orOld a.devid r.devid = a.devid := if_pos ha.devid_ne_nil
  simp only [NickTable.updateNick, hnick, hid, hdevid] at h
  split_ifs at h with htexts
  · refine ⟨fun row => { row with
      nick := a.nick, devid := digitsValue a.devid, sim := NickTable.orOld a.sim r.sim
      phone := NickTable.orOld a.phone r.phone, fwver := NickTable.orOld a.fwver r.fwver
      upddate := now }, fun row hrow => ⟨rfl, rfl, hrow⟩, (congrArg Prod.snd h).symm⟩
  · cases h

/-- A successful `db_update_nick` adds a row for a new IMEI and rewrites the row of a known one. -/
lemma dbUpdateNick_spec {now : CStr} {a : NickArgs} {t t' : NickTable} (ha : a.device.Valid)
    (ht : (t.map NickRow.imei).Nodup) (h : NickTable.dbUpdateNick now a t = (0, t')) :
    (a.device.imei ∉ t.map NickRow.imei ∧ ∃ row, a.device.ShownBy row ∧ t' = t ++ [row]) ∨
      (a.device.imei ∈ t.map NickRow.imei ∧ ∃ f : NickRow → NickRow,
        (∀ row, row.imei = a.device.imei → a.device.ShownBy (f row)) ∧
          t' = t.map fun row => if row.imei = a.device.imei then f row else row) := by
  rw [NickTable.dbUpdateNick] at h
  cases himei : sqlNumber a.imei with
  | none => simp [himei] at h
  | some imei =>
      obtain rfl : imei = a.device.imei := sqlNumber_eq_some himei
      simp only [himei] at h
      by_cases hmem : a.device.imei ∈ t.map NickRow.imei
      · obtain ⟨row, hrow, heq⟩ := List.mem_map.mp hmem
        have hone : t.filter (fun row => row.imei == a.device.imei) = [row] :=
          filter_eq_singleton ht hrow (beq_iff_eq.mpr heq) fun y _ hy =>
            (beq_iff_eq.mp hy).trans heq.symm
        rw [selectNick_singleton hone] at h
        exact Or.inr ⟨hmem, updateNick_spec ha h⟩
      · have hnone : t.filter (fun row => row.imei == a.device.imei) = [] := by
          rw [List.filter_eq_nil_iff]
          exact fun row hrow heq => hmem (List.mem_map.mpr ⟨row, hrow, beq_iff_eq.mp heq⟩)
        rw [selectNick_nil hnone] at h
        exact Or.inl ⟨hmem, insertNick_spec ha h⟩

/-- A successful `db_delete_nick` takes out the rows with the nick. -/
lemma dbDeleteNick_spec {nick : CStr} {t t' : NickTable}
    (h : NickTable.dbDeleteNick nick t = (0, t')) : t' = t.filter (·.nick != nick) := by
  simp only [NickTable.dbDeleteNick] at h
  split_ifs at h with htext
  · exact (congrArg Prod.snd h).symm
  · exact (congrArg Prod.snd h).symm
  · cases h

/-! ## The table holds the devices -/

namespace Registry

variable {t t' : NickTable} {reg : List Device}

lemma map_imei (h : Registry t reg) : t.map NickRow.imei = reg.map Device.imei := by
  refine List.forall₂_eq_eq_eq ▸ ?_
  rw [List.forall₂_map_left_iff, List.forall₂_map_right_iff]
  exact h.rows.imp fun row d hrow => hrow.imei

lemma update (h : Registry t reg) {a : NickArgs} {now : CStr} (ha : a.device.Valid)
    (hnick : ∀ d ∈ reg, d.imei ≠ a.device.imei → d.nick ≠ a.nick)
    (hcall : NickTable.dbUpdateNick now a t = (0, t')) :
    Registry t' (upsert Device.imei a.device reg) where
  rows := by
    have hspec := dbUpdateNick_spec ha (h.map_imei ▸ h.imei) hcall
    rw [h.map_imei] at hspec
    obtain ⟨hnew, row, hrow, rfl⟩ | ⟨hold, f, hf, rfl⟩ := hspec
    · rw [upsert, if_neg hnew]
      exact List.rel_append h.rows (.cons hrow .nil)
    · rw [upsert, if_pos hold]
      refine List.rel_map (fun row d hrow => ?_) h.rows
      rw [hrow.imei]
      split_ifs with heq
      · exact hf row (hrow.imei.trans heq)
      · exact hrow
  valid := by
    intro d hd
    obtain rfl | ⟨hd, -⟩ := mem_upsert.mp hd
    · exact ha
    · exact h.valid d hd
  imei := nodup_upsert h.imei
  nick := by
    intro d hd d' hd' heq
    obtain rfl | ⟨hd, hne⟩ := mem_upsert.mp hd <;> obtain rfl | ⟨hd', hne'⟩ := mem_upsert.mp hd'
    · rfl
    · exact absurd heq.symm (hnick d' hd' hne')
    · exact absurd heq (hnick d hd hne)
    · exact h.nick d hd d' hd' heq

lemma delete (h : Registry t reg) {nick : CStr}
    (hcall : NickTable.dbDeleteNick nick t = (0, t')) :
    Registry t' (reg.filter (·.nick != nick)) where
  rows := by
    rw [dbDeleteNick_spec hcall]
    refine List.rel_filter (fun row d hrow => ?_) h.rows
    show (row.nick != nick) = true ↔ (d.nick != nick) = true
    rw [hrow.nick]
  valid := fun d hd => h.valid d (List.mem_of_mem_filter hd)
  imei := h.imei.sublist (List.filter_sublist.map _)
  nick := fun d hd d' hd' => h.nick d (List.mem_of_mem_filter hd) d' (List.mem_of_mem_filter hd')

end Registry

/-- **After every history the table holds the devices.** -/
theorem NickHistory.registry {t : NickTable} {reg : List Device} (h : NickHistory t reg) :
    Registry t reg := by
  induction h with
  | nil => exact ⟨.nil, by simp, List.nodup_nil, by simp⟩
  | update _ ha hnick hcall ih => exact ih.update ha hnick hcall
  | delete _ hcall ih => exact ih.delete hcall

end G7
