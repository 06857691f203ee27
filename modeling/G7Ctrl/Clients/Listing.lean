import G7Ctrl.Clients.Target

/-!
# The listing of connections (`_srv_cmd_lc`)

The number by which a client chooses its target is read off a listing of the tracker connections.
The listing numbers its rows while it goes through the slots, and
`set_gprs_device_target_by_index` counts the slots again when a number comes back.

* `RowNumbered` — the row of a listing that has a number.
* `lcLoop_getElem?`, `deviceNbrLoop_eq_getElem?` — both loops go through the occupied slots of
  tracker connections, in their order.
* `mem_srvCmdLc_numbered` — no two rows of a listing show one number.
* **`rowNumbered_iff_target`** — the device whose row has the number is the device the number
  addresses.
-/

namespace G7

/-! ## The listing -/

/-- What to list: `FILTER_CMD_CONNECTIONS`, `FILTER_DEV_CONNECTIONS`, `FILTER_GPRS_CONNECTIONS`. -/
inductive LcFilter where
  | cmdConnections
  | devConnections
  | gprsConnections
  deriving DecidableEq

/-- The tests on an entry before it is listed. -/
def LcFilter.lists (filter : LcFilter) (c : ClientInfo) : Bool :=
  c.cliThread ≠ 0 ∧
    ((filter = .cmdConnections ∧ c.cliIsCmdconn) ∨
      ((filter = .devConnections ∨ filter = .gprsConnections) ∧ ¬ c.cliIsCmdconn))

/-- A row of the table. -/
structure LcRow where
  nbr : CStr
  ip : CStr
  connTime : CStr
  devId : CStr
  deriving DecidableEq

/-- What `fromtimestamp` makes of a time stamp: year, month, day, hour, minute and second. -/
abbrev FromTimestamp := ℕ → ℕ × ℕ × ℕ × ℕ × ℕ × ℕ

/-- `" %04d-%02d-%02d %02d:%02d "` -/
def connTimeText : ℕ × ℕ × ℕ × ℕ × ℕ × ℕ → CStr
  | (y, m, d, h, min, _) =>
      str " " ++ (dec y).leftpad 4 (ch '0') ++ str "-" ++ dec02 m ++ str "-" ++ dec02 d ++
        str " " ++ dec02 h ++ str ":" ++ dec02 min ++ str " "

/-- The cell with the number of a row. -/
def lcNbrCell (rows : ℕ) : CStr := snprintf 8 (str " " ++ dec02 rows ++ str " ")

/-- The mark of the connection that is the client's own, or its target. -/
def lcMark (cliInfo c : ClientInfo) : Byte :=
  if c.cliIsCmdconn then if c.cliSocket = cliInfo.cliSocket then ch '*' else ch ' '
  else if c.cliDevid = cliInfo.targetDeviceid then ch '*' else ch ' '

/-- The row of an entry. -/
def lcRow (fromtimestamp : FromTimestamp) (cliInfo : ClientInfo) (rows : ℕ) (c : ClientInfo) :
    LcRow where
  nbr := lcNbrCell rows
  ip := snprintf 32 (str " " ++ lcMark cliInfo c :: c.cliIpadr ++ str " ")
  connTime := snprintf 32 (connTimeText (fromtimestamp c.cliTs))
  devId := if c.cliIsCmdconn then [] else snprintf 32 (str " " ++ dec c.cliDevid ++ str " ")

/-- The first row. -/
def lcHeading : LcRow := ⟨str " # ", str "  IP  ", str "  Conn. Time  ", str "  Dev ID  "⟩

/-- The row that is put in when there is nothing to list. -/
def lcEmptyRow : LcRow := ⟨str " ", str " ", str " ", str " "⟩

variable {maxClients : ℕ}

/-- The loop over the slots; `rows` rows are already in the table. -/
def lcLoop (fromtimestamp : FromTimestamp) (list : ClientInfoList maxClients)
    (cliInfo : ClientInfo) (filter : LcFilter) : ℕ → List (Fin maxClients) → List LcRow
  | _, [] => []
  | rows, i :: is =>
      if filter.lists (list i) then
        lcRow fromtimestamp cliInfo rows (list i) ::
          lcLoop fromtimestamp list cliInfo filter (rows + 1) is
      else lcLoop fromtimestamp list cliInfo filter rows is

/-- `_srv_cmd_lc` for the client at slot `me`: the rows of the table it prints. -/
def srvCmdLc (fromtimestamp : FromTimestamp) (list : ClientInfoList maxClients)
    (me : Fin maxClients) (filter : LcFilter) : List LcRow :=
  let rows := lcLoop fromtimestamp list (list me) filter 1 (List.finRange maxClients)
  lcHeading :: if rows.length = 0 then [lcEmptyRow] else rows

/-! ## The two ways of counting -/

/-- The row below the heading that is numbered `k`: its cell shows `k` with at least two digits
between spaces, as far as these are seven characters. -/
def RowNumbered (table : List LcRow) (k : ℕ) (row : LcRow) : Prop :=
  table[k]? = some row ∧ row.nbr = (str " " ++ dec02 k ++ str " ").take 7

/-- The address and the device id of an entry are in full in the cells of a row. -/
structure ShowsDevice (row : LcRow) (c : ClientInfo) : Prop where
  ip : ∃ mark, (mark = ch '*' ∨ mark = ch ' ') ∧ row.ip = str " " ++ mark :: c.cliIpadr ++ str " "
  devId : row.devId = str " " ++ dec c.cliDevid ++ str " "

/-- The three fields that say where the commands of a client go, after the device of the entry at
`idx` was chosen. -/
structure TargetIs (list : ClientInfoList maxClients) (me : Fin maxClients) (c : ClientInfo)
    (idx : Fin maxClients) : Prop where
  targetSocket : (list me).targetSocket = c.cliSocket
  targetDeviceid : (list me).targetDeviceid = c.cliDevid
  targetCliIdx : (list me).targetCliIdx = idx

/-- The sizes of the fields: `char cli_ipadr[16]`, `unsigned cli_devid`. -/
structure ClientInfo.FieldsFit (c : ClientInfo) : Prop where
  cliIpadr : c.cliIpadr.length < 16
  cliDevid : c.cliDevid < 2 ^ 32

variable {fromtimestamp : FromTimestamp} {list : ClientInfoList maxClients}
variable {me : Fin maxClients} {filter : LcFilter} {k : ℕ}

/-- With the filters for devices the listed entries are those of tracker connections. -/
lemma LcFilter.lists_eq_isDevice (hfilter : filter ≠ .cmdConnections) (c : ClientInfo) :
    filter.lists c = c.isDevice := by
  cases filter with
  | cmdConnections => exact absurd rfl hfilter
  | devConnections => simp [LcFilter.lists, ClientInfo.isDevice]
  | gprsConnections => simp [LcFilter.lists, ClientInfo.isDevice]

/-- The rows are those of the listed entries, numbered from the first on. -/
lemma lcLoop_getElem? (fromtimestamp : FromTimestamp) (list : ClientInfoList maxClients)
    (cliInfo : ClientInfo) (filter : LcFilter) (rows j : ℕ) (is : List (Fin maxClients)) :
    (lcLoop fromtimestamp list cliInfo filter rows is)[j]? =
      (is.filter fun i => filter.lists (list i))[j]?.map fun i =>
        lcRow fromtimestamp cliInfo (rows + j) (list i) := by
  induction is generalizing rows j with
  | nil => rfl
  | cons i is ih =>
      by_cases hi : filter.lists (list i) = true
      · rw [lcLoop, if_pos hi, List.filter_cons, if_pos hi]
        cases j with
        | zero => rfl
        | succ j =>
            rw [List.getElem?_cons_succ, List.getElem?_cons_succ, ih,
              show rows + 1 + j = rows + (j + 1) by omega]
      · rw [lcLoop, if_neg hi, List.filter_cons, if_neg hi, ih]

/-- The search finds the entries of tracker connections, counted from the first on. -/
lemma deviceNbrLoop_eq_getElem? (nbr : ℤ) (j : ℕ) (is : List (Fin maxClients)) :
    deviceNbrLoop list (nbr + 1 + j) nbr is = (is.filter fun i => (list i).isDevice)[j]? := by
  induction is generalizing nbr j with
  | nil => rfl
  | cons i is ih =>
      by_cases hi : (list i).isDevice = true
      · rw [deviceNbrLoop, if_pos hi, List.filter_cons, if_pos hi]
        cases j with
        | zero => simp
        | succ j =>
            rw [if_neg (by push_cast; omega), List.getElem?_cons_succ, ← ih (nbr + 1)]
            congr 1
            push_cast
            omega
      · rw [deviceNbrLoop, if_neg hi, List.filter_cons, if_neg hi, ih]

/-- The slots of tracker connections, in order. -/
def deviceSlots (list : ClientInfoList maxClients) : List (Fin maxClients) :=
  (List.finRange maxClients).filter fun i => (list i).isDevice

lemma deviceNbrSlot_eq_getElem? (j : ℕ) :
    deviceNbrSlot list (j + 1 : ℕ) = (deviceSlots list)[j]? := by
  rw [deviceNbrSlot, deviceSlots, ← deviceNbrLoop_eq_getElem? 0 j]
  congr 1
  push_cast
  omega

lemma two_le_length_dec02 (k : ℕ) : 2 ≤ (dec02 k).length := by
  have hpos := List.length_pos_iff.mpr (dec_ne_nil k)
  rw [dec02]
  split_ifs with h
  · rw [List.length_cons]
    omega
  · rw [dec_eq_if, if_neg h, List.length_append, List.length_singleton]
    have hpos := List.length_pos_iff.mpr (dec_ne_nil (k / 10))
    omega

/-- A cell with a number has at least four characters. -/
lemma four_le_length_cell (k : ℕ) : 4 ≤ ((str " " ++ dec02 k ++ str " ").take 7).length := by
  have hlen := two_le_length_dec02 k
  have hcell : (str " " ++ dec02 k ++ str " ").length = 1 + (dec02 k).length + 1 := by
    rw [List.length_append, List.length_append]
    rfl
  rw [List.length_take, hcell]
  omega

/-- The row that is put in has no number. -/
lemma lcEmptyRow_nbr_ne (k : ℕ) : lcEmptyRow.nbr ≠ (str " " ++ dec02 k ++ str " ").take 7 := by
  intro h
  have hlen := four_le_length_cell k
  rw [← h] at hlen
  exact absurd hlen (by decide)

/-- The rows with a number are those of the tracker connections. -/
lemma rowNumbered_iff_getElem? (hfilter : filter ≠ .cmdConnections) {j : ℕ} {row : LcRow} :
    RowNumbered (srvCmdLc fromtimestamp list me filter) (j + 1) row ↔
      ∃ idx, (deviceSlots list)[j]? = some idx ∧
        row = lcRow fromtimestamp (list me) (j + 1) (list idx) := by
  have hrows := lcLoop_getElem? fromtimestamp list (list me) filter 1 j (List.finRange maxClients)
  simp only [LcFilter.lists_eq_isDevice hfilter, Nat.add_comm 1 j] at hrows
  change _ = (deviceSlots list)[j]?.map _ at hrows
  rw [RowNumbered, srvCmdLc, List.getElem?_cons_succ]
  split_ifs with hempty
  · rw [List.length_eq_zero_iff.mp hempty, List.getElem?_nil] at hrows
    rw [Option.map_eq_none_iff.mp hrows.symm]
    constructor
    · rintro ⟨hrow, hnbr⟩
      cases j with
      | zero => exact absurd (Option.some.inj hrow ▸ hnbr) (lcEmptyRow_nbr_ne 1)
      | succ j => cases hrow
    · rintro ⟨idx, hidx, -⟩
      cases hidx
  · rw [hrows, Option.map_eq_some_iff]
    constructor
    · rintro ⟨⟨idx, hidx, rfl⟩, -⟩
      exact ⟨idx, hidx, rfl⟩
    · rintro ⟨idx, hidx, rfl⟩
      exact ⟨⟨idx, hidx, rfl⟩, rfl⟩

/-! ## The numbers of the rows -/

lemma digitsValue_dec02 (n : ℕ) : digitsValue (dec02 n) = n := by
  rw [dec02]
  split_ifs
  · exact digitsValue_dec n
  · exact digitsValue_dec n

lemma dec02_length_le {n : ℕ} (hn : n < 10 ^ 5) : (dec02 n).length ≤ 5 := by
  have hdec : (dec n).length ≤ (List.replicate 5 (ch '0')).length :=
    dec_length_le (by decide) hn
  rw [dec02]
  split_ifs with h
  · have hdigit : (dec n).length = 1 := by rw [dec_eq_if, if_pos h]; rfl
    rw [List.length_cons, hdigit]
    omega
  · exact hdec

/-- Up to 99999 the cell has room for the number. -/
lemma take_cell {k : ℕ} (hk : k < 10 ^ 5) :
    (str " " ++ dec02 k ++ str " ").take 7 = str " " ++ dec02 k ++ str " " := by
  have hlen := dec02_length_le hk
  refine List.take_of_length_le ?_
  rw [List.length_append, List.length_append]
  change 1 + (dec02 k).length + 1 ≤ 7
  omega

lemma space_notMem_dec02 (n : ℕ) : ch ' ' ∉ dec02 n := by
  have hdec : ch ' ' ∉ dec n := fun h => absurd (isDigit_of_mem_dec n _ h) (by decide)
  rw [dec02]
  split_ifs
  · rw [List.mem_cons, not_or]
    exact ⟨by decide, hdec⟩
  · exact hdec

/-- A cell shows a number in full only in the row of this number: what is left of a longer one does
not end with a space. -/
lemma lcNbrCell_eq {n k : ℕ} (h : lcNbrCell n = str " " ++ dec02 k ++ str " ") : n = k := by
  rw [lcNbrCell, snprintf, List.append_assoc, List.append_assoc] at h
  change str " " ++ (dec02 n ++ str " ").take 6 = _ at h
  have hcut := List.append_cancel_left h
  by_cases hlong : (dec02 n).length < 6
  · rw [List.take_of_length_le (by rw [List.length_append]; exact hlong)] at hcut
    have hdec := List.append_cancel_right hcut
    rw [← digitsValue_dec02 n, hdec, digitsValue_dec02]
  · rw [List.take_append_of_le_length (Nat.not_lt.mp hlong)] at hcut
    have hspace : ch ' ' ∈ (dec02 n).take 6 := by
      rw [hcut]
      exact List.mem_append_right _ (by decide)
    exact absurd (List.mem_of_mem_take hspace) (space_notMem_dec02 n)

/-- The heading and the row that is put in show no number. -/
lemma ne_of_nbr_eq {row : LcRow} (hnbr : row.nbr = str " " ++ dec02 k ++ str " ") :
    row ≠ lcHeading ∧ row ≠ lcEmptyRow := by
  have hlen : 4 ≤ row.nbr.length := by
    have htwo := two_le_length_dec02 k
    rw [hnbr, List.length_append, List.length_append]
    change 4 ≤ 1 + (dec02 k).length + 1
    omega
  constructor
  · rintro rfl
    exact absurd hlen (by decide)
  · rintro rfl
    exact absurd hlen (by decide)

/-- **No two rows show one number.**  A row that shows `k` is the one that is numbered `k`. -/
theorem mem_srvCmdLc_numbered {row : LcRow} (hrow : row ∈ srvCmdLc fromtimestamp list me filter)
    (hnbr : row.nbr = str " " ++ dec02 k ++ str " ") :
    (srvCmdLc fromtimestamp list me filter)[k]? = some row := by
  obtain ⟨hheading, hempty⟩ := ne_of_nbr_eq hnbr
  rw [srvCmdLc] at hrow ⊢
  have hrow := (List.mem_cons.mp hrow).resolve_left hheading
  split_ifs at hrow ⊢ with hnone
  · exact absurd (List.mem_singleton.mp hrow) hempty
  · obtain ⟨j, hj⟩ := List.mem_iff_getElem?.mp hrow
    have hentry := hj
    rw [lcLoop_getElem?, Option.map_eq_some_iff] at hentry
    obtain ⟨idx, -, rfl⟩ := hentry
    obtain rfl : 1 + j = k := lcNbrCell_eq hnbr
    rw [Nat.add_comm 1 j, List.getElem?_cons_succ, Nat.add_comm j 1]
    exact hj

/-- Up to 99999 the row numbered `k` is the one that shows `k`. -/
lemma rowNumbered_iff_shown (hk : k < 10 ^ 5) (row : LcRow) :
    RowNumbered (srvCmdLc fromtimestamp list me filter) k row ↔
      row ∈ srvCmdLc fromtimestamp list me filter ∧ row.nbr = str " " ++ dec02 k ++ str " " := by
  rw [RowNumbered, take_cell hk]
  constructor
  · rintro ⟨hrow, hnbr⟩
    exact ⟨List.mem_of_getElem? hrow, hnbr⟩
  · rintro ⟨hrow, hnbr⟩
    exact ⟨mem_srvCmdLc_numbered hrow hnbr, hnbr⟩

/-! ## The row and the target -/

/-- Fields of their sizes are shown in full. -/
lemma lcRow_showsDevice (cliInfo : ClientInfo) (rows : ℕ) {c : ClientInfo} (hfit : c.FieldsFit)
    (hdevice : c.isDevice = true) : ShowsDevice (lcRow fromtimestamp cliInfo rows c) c := by
  have hconn : ¬ c.cliIsCmdconn = true := by
    have h : c.cliThread ≠ 0 ∧ c.cliIsCmdconn = false := by
      simpa [ClientInfo.isDevice] using hdevice
    simp [h.2]
  constructor
  · refine ⟨lcMark cliInfo c, ?_, ?_⟩
    · rw [lcMark, if_neg hconn]
      split_ifs
      · exact .inl rfl
      · exact .inr rfl
    · have hip := hfit.cliIpadr
      refine snprintf_of_lt ?_
      simp only [List.length_append, List.length_cons, str, List.length_map]
      change 1 + (c.cliIpadr.length + 1) + 1 < 32
      omega
  · have hdec : (dec c.cliDevid).length ≤ (List.replicate 10 (ch '0')).length :=
      dec_length_le (by decide) (lt_trans hfit.cliDevid (by decide))
    rw [lcRow]
    simp only [if_neg hconn]
    refine snprintf_of_lt ?_
    rw [List.length_replicate] at hdec
    simp only [List.length_append, str, List.length_map]
    change 1 + (dec c.cliDevid).length + 1 < 32
    omega

/-- The target can be set by a number that the search finds. -/
lemma setGprsDeviceTargetByIndex_rc :
    (setGprsDeviceTargetByIndex list me k).rc = 0 ↔ (deviceNbrSlot list k).isSome = true := by
  have hk : ¬ (k : ℤ) = -1 := by omega
  rw [setGprsDeviceTargetByIndex, if_neg hk]
  cases deviceNbrSlot list k with
  | none => simp
  | some idx => simp

/-- What is recorded of the slot that is found. -/
lemma targetIs_of_slot {idx : Fin maxClients} (hslot : deviceNbrSlot list k = some idx) :
    TargetIs (setGprsDeviceTargetByIndex list me k).list me (list idx) idx := by
  have hrc : (setGprsDeviceTargetByIndex list me k).rc = 0 :=
    setGprsDeviceTargetByIndex_rc.mpr (by rw [hslot]; rfl)
  obtain ⟨idx', hidx', hlist⟩ := setGprsDeviceTargetByIndex_ok hrc
  obtain rfl : idx' = idx := Option.some.inj (hidx'.symm.trans hslot)
  constructor
  · rw [hlist, Function.update_self]
  · rw [hlist, Function.update_self]
  · rw [hlist, Function.update_self]

/-- **The number shown is the device addressed.**  A row with the number `k` is in the listing
exactly when the target can be set by `k`, and then the row shows the entry that becomes the
target.  Up to 99999 (the configuration allows 100 connections) it is the only row that shows
`k`. -/
theorem rowNumbered_iff_target (fromtimestamp : FromTimestamp) (list : ClientInfoList maxClients)
    (me : Fin maxClients) {filter : LcFilter} {k : ℕ} (hfilter : filter ≠ .cmdConnections)
    (hk : 1 ≤ k) (hfit : ∀ i, (list i).FieldsFit) :
    ((∃ row, RowNumbered (srvCmdLc fromtimestamp list me filter) k row) ↔
        (setGprsDeviceTargetByIndex list me k).rc = 0) ∧
      (∀ row, RowNumbered (srvCmdLc fromtimestamp list me filter) k row →
        ∃ idx, ShowsDevice row (list idx) ∧
          TargetIs (setGprsDeviceTargetByIndex list me k).list me (list idx) idx) ∧
      (k < 10 ^ 5 → ∀ row, RowNumbered (srvCmdLc fromtimestamp list me filter) k row ↔
        row ∈ srvCmdLc fromtimestamp list me filter ∧
          row.nbr = str " " ++ dec02 k ++ str " ") := by
  refine ⟨?_, ?_, rowNumbered_iff_shown⟩ <;> obtain ⟨j, rfl⟩ := Nat.exists_eq_add_of_le' hk
  · rw [setGprsDeviceTargetByIndex_rc, deviceNbrSlot_eq_getElem?, Option.isSome_iff_exists]
    constructor
    · rintro ⟨row, hrow⟩
      obtain ⟨idx, hidx, -⟩ := (rowNumbered_iff_getElem? hfilter).mp hrow
      exact ⟨idx, hidx⟩
    · rintro ⟨idx, hidx⟩
      exact ⟨_, (rowNumbered_iff_getElem? hfilter).mpr ⟨idx, hidx, rfl⟩⟩
  · intro row hrow
    obtain ⟨idx, hidx, rfl⟩ := (rowNumbered_iff_getElem? hfilter).mp hrow
    have hdevice : (list idx).isDevice = true :=
      (List.mem_filter.mp (List.mem_of_getElem? hidx)).2
    refine ⟨idx, lcRow_showsDevice _ _ (hfit idx) hdevice, ?_⟩
    rw [← deviceNbrSlot_eq_getElem?] at hidx
    exact targetIs_of_slot hidx

/-- The tracker in the second slot has number 1, which shows it and makes it the target. -/
theorem rowNumbered_tracker :
    ∃ row ∈ srvCmdLc (fun _ => (2015, 1, 2, 3, 4, 5)) clientAndTracker 0 .devConnections,
      row.nbr = str " 01 " ∧ row.ip = str "  10.0.0.2 " ∧ row.devId = str " 300000001 " ∧
      ∃ idx, ShowsDevice row (clientAndTracker idx) ∧
        TargetIs (setGprsDeviceTargetByIndex clientAndTracker 0 1).list 0 (clientAndTracker idx)
          idx := by
  have hfit : ∀ i, (clientAndTracker i).FieldsFit
    | 0 => ⟨by decide, by decide⟩
    | 1 => ⟨by decide, by decide⟩
  obtain ⟨hexists, hshows, hnumber⟩ := rowNumbered_iff_target (fun _ => (2015, 1, 2, 3, 4, 5))
    clientAndTracker 0 (show LcFilter.devConnections ≠ .cmdConnections by decide)
    (show 1 ≤ 1 by decide) hfit
  obtain ⟨row, hrow⟩ := hexists.mpr (by decide)
  obtain ⟨hmem, hnbr⟩ := (hnumber (by decide) row).mp hrow
  have hcells : row.ip = str "  10.0.0.2 " ∧ row.devId = str " 300000001 " := by
    obtain rfl := Option.some.inj (hrow.1.symm.trans rfl)
    decide
  exact ⟨row, hmem, hnbr.trans (by decide), hcells.1, hcells.2, hshows row hrow⟩

end G7
