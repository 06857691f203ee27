import G7Ctrl.Xstr.Fold

/-!
# The commands of the device (`g7command_list`)

Every command has a name in the server, which is what a user types, and a name in the device.  The
server's names are compared without regard to case.

* **`getDevcmdFromSrvcmd_eq`** — a name that is one of the table's is translated to the device's
  name of the same entry.
-/

namespace G7

/-- `struct g7command`: the names of a command. -/
structure G7Command where
  srvcmd : CStr
  cmdstr : CStr
  deriving DecidableEq

/-- `g7command_list` -/
def g7commandList : List G7Command :=
  [⟨str "roam", str "ROAMING"⟩, ⟨str "phone", str "VLOCATION"⟩, ⟨str "led", str "ELED"⟩,
   ⟨str "gfen", str "GFEN"⟩, ⟨str "sleep", str "SLEEP"⟩, ⟨str "loc", str "GETLOCATION"⟩,
   ⟨str "locg", str "GETLOCATION"⟩, ⟨str "imei", str "IMEI"⟩, ⟨str "sim", str "SIMID"⟩,
   ⟨str "ver", str "VER"⟩, ⟨str "nrec", str "DLREC"⟩, ⟨str "batt", str "XXXX"⟩,
   ⟨str "track", str "TRACK"⟩, ⟨str "mswitch", str "SETRA"⟩, ⟨str "tz", str "SETTZ"⟩,
   ⟨str "sms", str "SMSM"⟩, ⟨str "comm", str "COMMTYPE"⟩, ⟨str "vip", str "SETVIP"⟩,
   ⟨str "ps", str "PSMT"⟩, ⟨str "config", str "UNCFG"⟩, ⟨str "gfevt", str "SETEVT"⟩,
   ⟨str "rec", str "REC"⟩, ⟨str "lowbatt", str "LOWBATT"⟩, ⟨str "sens", str "GSS"⟩,
   ⟨str "clrec", str "CLREC"⟩, ⟨str "dlrec", str "DLREC"⟩, ⟨str "reboot", str "REBOOT"⟩,
   ⟨str "reset", str "RESET"⟩, ⟨str "test", str "TEST"⟩, ⟨str "address", str "GETADDRESS"⟩]

/-- `get_cmdidx_from_srvcmd` -/
def getCmdidxFromSrvcmd (cmdname : CStr) : Option ℕ :=
  g7commandList.findIdx? fun e => xstricmp cmdname e.srvcmd

/-- `get_devcmd_from_srvcmd`: what is copied to `devcmd`. -/
def getDevcmdFromSrvcmd (srvcmd : CStr) (maxlen : ℕ) : Option CStr :=
  (getCmdidxFromSrvcmd srvcmd).bind fun idx =>
    g7commandList[idx]?.map fun e => e.cmdstr.take (maxlen - 1)

/-! ## Looking up a name -/

variable {e : G7Command} {name : CStr}

/-- The names in the table are short. -/
lemma g7commandList_lengths :
    ∀ e ∈ g7commandList, e.srvcmd.length ≤ 7 ∧ e.cmdstr.length ≤ 11 := by
  decide

/-- An entry is found under its own name. -/
lemma g7commandList_find : ∀ e ∈ g7commandList,
    (g7commandList.findIdx? fun e' => e.srvcmd.map tolower == e'.srvcmd.map tolower).bind
      (g7commandList[·]?) = some e := by
  decide +kernel

/-- The names of the table have small letters only, and a name that is one of them has letters. -/
lemma forall_mem_srvcmd :
    ∀ e ∈ g7commandList, ∀ c ∈ e.srvcmd, ch 'a' ≤ c ∧ c ≤ ch 'z' := by
  decide +kernel

lemma xstricmp_srvcmd_iff (he : e ∈ g7commandList) :
    xstricmp name e.srvcmd = true ↔ name.map tolower = e.srvcmd.map tolower :=
  xstricmp_iff (by have := (g7commandList_lengths e he).1; omega)

lemma small_not_le_capital : ¬ ch 'a' ≤ ch 'Z' := by decide

/-- A name that is found has at most seven characters, all of them letters. -/
lemma letters_of_xstricmp (he : e ∈ g7commandList) (hname : xstricmp name e.srvcmd = true) :
    name.length ≤ 7 ∧ ∀ c ∈ name, ch 'a' ≤ tolower c ∧ tolower c ≤ ch 'z' := by
  have hfold := (xstricmp_srvcmd_iff he).mp hname
  have hsmall : e.srvcmd.map tolower = e.srvcmd := by
    refine (List.map_congr_left fun c hc => ?_).trans (List.map_id _)
    have hletter := forall_mem_srvcmd e he c hc
    rw [tolower, if_neg fun h => absurd (UInt8.le_trans hletter.1 h.2) small_not_le_capital, id]
  rw [hsmall] at hfold
  constructor
  · rw [← List.length_map tolower, hfold]
    exact (g7commandList_lengths e he).1
  · intro c hc
    exact forall_mem_srvcmd e he _ (hfold ▸ List.mem_map_of_mem hc)

/-- A search that makes the same tests has the same result. -/
lemma findIdx?_congr {α : Type*} {p q : α → Bool} {l : List α} (h : ∀ x ∈ l, p x = q x) :
    l.findIdx? p = l.findIdx? q := by
  induction l with
  | nil => rfl
  | cons x l ih =>
      rw [List.findIdx?_cons, List.findIdx?_cons, h x List.mem_cons_self,
        ih fun y hy => h y (List.mem_cons_of_mem _ hy)]

/-- **A known name is translated to the name in the device.** -/
theorem getDevcmdFromSrvcmd_eq (he : e ∈ g7commandList) (hname : xstricmp name e.srvcmd = true)
    {maxlen : ℕ} (hmax : 11 < maxlen) : getDevcmdFromSrvcmd name maxlen = some e.cmdstr := by
  have hfold := (xstricmp_srvcmd_iff he).mp hname
  have hidx : getCmdidxFromSrvcmd name =
      g7commandList.findIdx? fun e' => e.srvcmd.map tolower == e'.srvcmd.map tolower := by
    refine findIdx?_congr fun e' he' => ?_
    rw [Bool.eq_iff_iff, xstricmp_srvcmd_iff he', hfold, beq_iff_eq]
  have htake : e.cmdstr.take (maxlen - 1) = e.cmdstr :=
    List.take_of_length_le (by have := (g7commandList_lengths e he).2; omega)
  obtain ⟨idx, hfound, hget⟩ := Option.bind_eq_some_iff.mp (g7commandList_find e he)
  rw [getDevcmdFromSrvcmd, hidx, hfound, Option.bind_some, hget, Option.map_some, htake]

end G7
