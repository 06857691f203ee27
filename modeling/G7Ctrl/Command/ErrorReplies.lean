import G7Ctrl.Command.ReplyMemory

/-!
# Error replies

An error reply has one parameter, the error code.  The test of this at the end of
`extract_devcmd_reply` asks for the pointer `isok` and not for what it points to, so it never
fails: a reply without an `'='` is accepted with no field at all, and a reply with several codes
with all of them.  `handle_device_reply` takes the code from the first field in any case, and
without a field this is what the stack happens to hold.

* `handleDeviceReplyOn` — `handle_device_reply` on a stack with given leftovers.
* `ErrorsReported` — what is reported for an error reply is in the reply.
* **`errorsReported_iff`** — this holds of a reply exactly when its name and tag are followed by one
  code.
-/

namespace G7

/-- `handle_device_reply` when the memory from `flds.fld[0]` on holds `stack` before the call.  The
first field is read whether or not the reply has one. -/
def handleDeviceReplyOn (stack : List Byte)
    (cmdargToText : Option (CStr → List CStr → CStr × Bool)) (reply : List Byte)
    (tagbuff : CStr) : ℤ × CStr :=
  if byteAt reply 0 ≠ ch '$' ∧ byteAt reply 0 = ch '3' ∧ (cstr reply).length > 60 then
    (0, deviceReplyPrompt ++ cstr reply)
  else
    match extractDevcmdReply reply with
    | none => (-1, str "[ERR] Incomplete reply from device \"" ++ cstr reply ++ str "\"")
    | some r =>
        if r.tag ≠ tagbuff then
          (-1, str "[ERR] Unexpected reply from device \"" ++ cstr reply ++ str "\"")
        else if !r.isok then
          let errcode := xatoi (r.flds.headD (cstr stack))
          (-(errcode + 1),
            str "[ERR] ( " ++ decInt errcode ++ str " : " ++ deviceStrerr errcode ++ str " )")
        else
          handleDeviceReply cmdargToText reply tagbuff

/-! ## What an error reply should give -/

/-- What is reported for the device error with this code. -/
def deviceError (errcode : ℤ) : ℤ × CStr :=
  (-(errcode + 1),
    str "[ERR] ( " ++ decInt errcode ++ str " : " ++ deviceStrerr errcode ++ str " )")

/-- **Error replies are reported as they are.**  An accepted error reply has one field, and for
every `"$ERR:"` reply the client gets the error with the code in this field, whatever the stack
holds, or -1. -/
def ErrorsReported (raw : List Byte) : Prop :=
  (∀ r, extractDevcmdReply raw = some r → r.isok = false → ∃ f, r.flds = [f]) ∧
  (raw.take 5 = str "$ERR:" → ∀ cmdargToText tagbuff,
    (∃ r f, extractDevcmdReply raw = some r ∧ r.isok = false ∧ r.flds = [f] ∧
      ∀ stack, handleDeviceReplyOn stack cmdargToText raw tagbuff = deviceError (xatoi f)) ∨
    ∀ stack, (handleDeviceReplyOn stack cmdargToText raw tagbuff).1 = -1)

/-! ## When it does -/

/-- A name that a scan accepts ends at `n`: a character that ends it stands there and leaves room
for one more, or the name is as long as the scan goes. -/
def NameEnds (stop : Byte → Bool) (max : ℕ) (mem : List Byte) (n : ℕ) : Prop :=
  (∀ i < n, stop (byteAt mem i) = false) ∧ ((n + 1 < max ∧ stop (byteAt mem n) = true) ∨ n = max)

/-- What follows the name and the tag of the reply is the memory `rest`. -/
def NamesEnd (mem rest : List Byte) : Prop :=
  ∃ n, NameEnds (fun c => c = ch '+' ∨ c = ch '=') 14 mem n ∧
    ((byteAt mem n ≠ ch '+' ∧ rest = mem.drop n) ∨
      (byteAt mem n = ch '+' ∧ n ≠ 0 ∧ byteAt mem 0 ≠ 0 ∧
        ∃ k, NameEnds (fun c => c = ch '=' ∨ c = cr ∨ c = lf) 7 (mem.drop (n + 1)) k ∧
          rest = mem.drop (n + 1 + k)))

/-- The reply does not end here, and what follows the next character is one field, or nothing that
can be split into fields. -/
def OneField (rest : List Byte) : Prop :=
  (byteAt rest 0 ≠ 0 ∧ byteAt rest 0 ≠ cr ∧ byteAt rest 0 ≠ lf) ∧
  (ch ',' ∉ cstr (rest.drop 1) ∨ xstrsplitfields (cstr (rest.drop 1)) (ch ',') = none)

/-- An `"$ERR:"` reply without a digit in the place of the name has one field behind its name and
its tag. -/
def OneErrorCode (raw : List Byte) : Prop :=
  raw.take 5 = str "$ERR:" → isDigit (byteAt raw 5) = false →
    ∀ rest, NamesEnd (raw.drop 5) rest → OneField rest

/-- How far a scan goes. -/
lemma length_takeWhile_range_iff {stop : Byte → Bool} {max : ℕ} {mem : List Byte} {n : ℕ} :
    ((List.range max).takeWhile fun i => !stop (byteAt mem i)).length = n ↔
      (∀ i < n, stop (byteAt mem i) = false) ∧ ((n < max ∧ stop (byteAt mem n) = true) ∨ n = max) := by
  induction max generalizing mem n with
  | zero =>
      rw [List.range_zero, List.takeWhile_nil, List.length_nil]
      constructor
      · rintro rfl
        exact ⟨by simp, Or.inr rfl⟩
      · rintro ⟨-, ⟨hlt, -⟩ | rfl⟩
        · exact absurd hlt (Nat.not_lt_zero n)
        · rfl
  | succ max ih =>
      rw [length_takeWhile_range_succ]
      cases n with
      | zero =>
          cases stop (byteAt mem 0) <;> simp
      | succ n =>
          have hnext : ∀ i, byteAt (mem.drop 1) i = byteAt mem (i + 1) := by
            intro i
            rw [byteAt_drop, Nat.add_comm 1]
          have hfree : (∀ i < n + 1, stop (byteAt mem i) = false) ↔
              stop (byteAt mem 0) = false ∧ ∀ i < n, stop (byteAt mem (i + 1)) = false :=
            Nat.forall_lt_succ_left
          rw [hfree]
          cases stop (byteAt mem 0) with
          | true => simp
          | false =>
              rw [if_neg Bool.false_ne_true, Nat.add_right_cancel_iff, ih]
              simp only [hnext, true_and, Nat.add_lt_add_iff_right, Nat.add_right_cancel_iff]

/-- **Where a scan finds the end of a name.** -/
lemma scanName_eq_some {stop : Byte → Bool} {max : ℕ} {mem : List Byte} {n : ℕ} :
    scanName stop max mem = some n ↔ NameEnds stop max mem n := by
  rw [NameEnds]
  constructor
  · intro h
    simp only [scanName] at h
    split_ifs at h with hmax
    obtain ⟨hfree, hend⟩ := length_takeWhile_range_iff.mp (Option.some.inj h)
    rw [Option.some.inj h] at hmax
    exact ⟨hfree, hend.imp_left fun hlt => ⟨by omega, hlt.2⟩⟩
  · rintro ⟨hfree, hend⟩
    have hlen := length_takeWhile_range_iff.mpr
      ⟨hfree, hend.imp_left fun hlt => ⟨by omega, hlt.2⟩⟩
    simp only [scanName, hlen]
    rw [if_neg (by omega)]

lemma cstr_take_eq_nil {mem : List Byte} {n : ℕ} :
    cstr (mem.take n) = [] ↔ n = 0 ∨ byteAt mem 0 = 0 := by
  cases n with
  | zero => simp [cstr]
  | succ n =>
      cases mem with
      | nil => simp [cstr, byteAt]
      | cons c cs => by_cases hc : c = 0 <;> simp [cstr, hc, byteAt_cons_zero]

/-- Where the tag ends, if there is one. -/
lemma exists_extractTag {mem rest : List Byte} : (∃ tag, extractTag mem = some (tag, rest)) ↔
    (byteAt mem 0 ≠ ch '+' ∧ rest = mem) ∨
      (byteAt mem 0 = ch '+' ∧
        ∃ k, NameEnds (fun c => c = ch '=' ∨ c = cr ∨ c = lf) 7 (mem.drop 1) k ∧
          rest = mem.drop (1 + k)) := by
  rw [extractTag]
  by_cases hplus : byteAt mem 0 = ch '+'
  · simp only [if_pos hplus, Option.map_eq_some_iff, scanName_eq_some, Prod.mk.injEq,
      List.drop_drop]
    constructor
    · rintro ⟨tag, k, hk, -, rfl⟩
      exact Or.inr ⟨hplus, k, hk, rfl⟩
    · rintro (⟨hne, -⟩ | ⟨-, k, hk, rfl⟩)
      · exact absurd hplus hne
      · exact ⟨_, k, hk, rfl, rfl⟩
  · simp [hplus, eq_comm]

/-- What an accepted reply is read from. -/
lemma extractDevcmd_eq_some {isok : Bool} {mem : List Byte} {r : DevcmdReply} :
    extractDevcmd isok mem = some r ↔
      ∃ n, scanName (fun c => c = ch '+' ∨ c = ch '=') 14 mem = some n ∧
        ¬ (byteAt (mem.drop n) 0 = ch '+' ∧ cstr (mem.take n) = []) ∧
        ∃ tag rest, extractTag (mem.drop n) = some (tag, rest) ∧
          ∃ flds, extractFields rest = some flds ∧
            r = ⟨isok, cstr (mem.take n), tag, flds⟩ := by
  rw [extractDevcmd]
  simp only [Option.bind_eq_bind, Option.bind_eq_some_iff]
  refine exists_congr fun n => and_congr_right fun _ => ?_
  by_cases hname : byteAt (mem.drop n) 0 = ch '+' ∧ cstr (mem.take n) = []
  · simp [hname]
  · rw [if_neg hname, Option.bind_eq_some_iff]
    constructor
    · rintro ⟨⟨tag, rest⟩, htag, hr⟩
      obtain ⟨flds, hflds, hr⟩ := Option.bind_eq_some_iff.mp hr
      cases hr
      exact ⟨hname, tag, rest, htag, flds, hflds, rfl⟩
    · rintro ⟨-, tag, rest, htag, flds, hflds, rfl⟩
      exact ⟨(tag, rest), htag, by simp [hflds]⟩

/-- **The fields of an accepted reply** are those found where its names end. -/
lemma exists_extractDevcmd {isok : Bool} {mem : List Byte} {flds : List CStr} :
    (∃ r, extractDevcmd isok mem = some r ∧ r.flds = flds) ↔
      ∃ rest, NamesEnd mem rest ∧ extractFields rest = some flds := by
  have hat : ∀ n, byteAt (mem.drop n) 0 = byteAt mem n := fun n => byteAt_drop mem n 0
  have hnames : ∀ rest, NamesEnd mem rest ↔
      ∃ n, scanName (fun c => c = ch '+' ∨ c = ch '=') 14 mem = some n ∧
        ¬ (byteAt (mem.drop n) 0 = ch '+' ∧ cstr (mem.take n) = []) ∧
        ∃ tag, extractTag (mem.drop n) = some (tag, rest) := by
    intro rest
    refine exists_congr fun n => ?_
    rw [scanName_eq_some, exists_extractTag, cstr_take_eq_nil, hat]
    simp only [List.drop_drop, ← Nat.add_assoc]
    refine and_congr_right fun _ => ?_
    by_cases hplus : byteAt mem n = ch '+'
    · simp [hplus, not_or, and_assoc]
    · simp [hplus]
  simp only [extractDevcmd_eq_some, hnames]
  constructor
  · rintro ⟨_, ⟨n, hn, hname, tag, rest, htag, fs, hfs, rfl⟩, rfl⟩
    exact ⟨rest, ⟨n, hn, hname, tag, htag⟩, hfs⟩
  · rintro ⟨rest, ⟨n, hn, hname, tag, htag⟩, hfs⟩
    exact ⟨_, ⟨n, hn, hname, tag, rest, htag, flds, hfs, rfl⟩, rfl⟩

/-- One field is all that is found. -/
lemma flds_of_oneField {rest : List Byte} {flds : List CStr} (hone : OneField rest)
    (h : extractFields rest = some flds) : ∃ f, flds = [f] := by
  obtain ⟨⟨h0, hcr, hlf⟩, hcomma | hsplit⟩ := hone
  · rw [extractFields, if_neg (by simp [h0, hcr, hlf])] at h
    rw [xstrsplitfields_some h, List.splitOn_eq_singleton hcomma]
    exact ⟨_, rfl⟩
  · rw [extractFields, if_neg (by simp [h0, hcr, hlf]), hsplit] at h
    cases h

/-- Where only one field is ever found, there is one. -/
lemma oneField_of_flds {rest : List Byte}
    (h : ∀ flds, extractFields rest = some flds → ∃ f, flds = [f]) : OneField rest := by
  have hend : ¬ (byteAt rest 0 = 0 ∨ byteAt rest 0 = cr ∨ byteAt rest 0 = lf) := by
    intro hend
    obtain ⟨f, hf⟩ := h [] (by rw [extractFields, if_pos hend])
    cases hf
  refine ⟨by simpa only [not_or] using hend, or_iff_not_imp_right.mpr fun hsplit hcomma => ?_⟩
  obtain ⟨flds, hflds⟩ := Option.ne_none_iff_exists'.mp hsplit
  obtain ⟨f, hf⟩ := h flds (by rw [extractFields, if_neg hend, hflds])
  have hlen := splitOn_length (ch ',') (cstr (rest.drop 1))
  rw [← xstrsplitfields_some hflds, hf, List.length_singleton] at hlen
  exact absurd (List.count_pos_iff.mpr hcomma) (by omega)

lemma take_ok_of_take_err {raw : List Byte} (h : raw.take 5 = str "$ERR:") :
    raw.take 4 ≠ str "$OK:" := by
  intro hok
  have h4 : (raw.take 5).take 4 = raw.take 4 := by rw [List.take_take]; rfl
  rw [h, hok] at h4
  exact absurd h4 (by decide)

/-- What is returned for an error reply that does not start with a digit. -/
lemma extractDevcmdReply_err {raw : List Byte} (h : raw.take 5 = str "$ERR:")
    (hdigit : isDigit (byteAt raw 5) = false) :
    extractDevcmdReply raw = extractDevcmd false (raw.drop 5) := by
  rw [extractDevcmdReply, if_neg (take_ok_of_take_err h), if_pos h, hdigit]
  rfl

lemma isok_of_extractDevcmd {isok : Bool} {mem : List Byte} {r : DevcmdReply}
    (h : extractDevcmd isok mem = some r) : r.isok = isok := by
  obtain ⟨n, -, -, tag, rest, -, flds, -, rfl⟩ := extractDevcmd_eq_some.mp h
  rfl

/-- **An accepted error reply has one field** exactly when the reply has one code. -/
lemma oneErrorCode_iff {raw : List Byte} : OneErrorCode raw ↔
    ∀ r, extractDevcmdReply raw = some r → r.isok = false → ∃ f, r.flds = [f] := by
  constructor
  · intro hone r hr hisok
    by_cases herr : raw.take 5 = str "$ERR:"
    · cases hdigit : isDigit (byteAt raw 5) with
      | true =>
          rw [extractDevcmdReply, if_neg (take_ok_of_take_err herr), if_pos herr, hdigit] at hr
          cases hr
          exact ⟨_, rfl⟩
      | false =>
          rw [extractDevcmdReply_err herr hdigit] at hr
          obtain ⟨rest, hnames, hflds⟩ := exists_extractDevcmd.mp ⟨r, hr, rfl⟩
          exact flds_of_oneField (hone herr hdigit rest hnames) hflds
    · rw [extractDevcmdReply] at hr
      split_ifs at hr with hok
      exact absurd ((isok_of_extractDevcmd hr).symm.trans hisok) (by decide)
  · intro hone herr hdigit rest hnames
    refine oneField_of_flds fun flds hflds => ?_
    obtain ⟨r, hr, rfl⟩ := exists_extractDevcmd.mpr ⟨rest, hnames, hflds⟩
    rw [← extractDevcmdReply_err herr hdigit] at hr
    refine hone r hr ?_
    rw [extractDevcmdReply_err herr hdigit] at hr
    exact isok_of_extractDevcmd hr

/-- An accepted reply to the right command is a device error. -/
lemma handleDeviceReplyOn_err {raw : List Byte} {r : DevcmdReply}
    (hr : extractDevcmdReply raw = some r)
    (hisok : r.isok = false) (stack : List Byte)
    (cmdargToText : Option (CStr → List CStr → CStr × Bool)) :
    handleDeviceReplyOn stack cmdargToText raw r.tag
      = deviceError (xatoi (r.flds.headD (cstr stack))) := by
  rw [handleDeviceReplyOn, if_neg (by simp [byteAt_of_extractDevcmdReply hr])]
  simp [hr, hisok, deviceError]

/-- A reply that is not accepted, or not for the command. -/
lemma handleDeviceReplyOn_neg {raw : List Byte} {tagbuff : CStr} (herr : raw.take 5 = str "$ERR:")
    (h : ∀ r, extractDevcmdReply raw = some r → r.tag ≠ tagbuff) (stack : List Byte)
    (cmdargToText : Option (CStr → List CStr → CStr × Bool)) :
    (handleDeviceReplyOn stack cmdargToText raw tagbuff).1 = -1 := by
  have hdollar : byteAt raw 0 = ch '$' := by
    have h0 : byteAt (raw.take 5) 0 = byteAt raw 0 := by cases raw <;> rfl
    rw [← h0, herr]
    decide
  rw [handleDeviceReplyOn, if_neg (by simp [hdollar])]
  cases hr : extractDevcmdReply raw with
  | none => rfl
  | some r => simp [h r hr]

/-- **When error replies are reported as they are.** -/
theorem errorsReported_iff (raw : List Byte) : ErrorsReported raw ↔ OneErrorCode raw := by
  constructor
  · exact fun h => oneErrorCode_iff.mpr h.1
  · intro hone
    have hflds := oneErrorCode_iff.mp hone
    refine ⟨hflds, fun herr cmdargToText tagbuff => ?_⟩
    have hisok : ∀ r, extractDevcmdReply raw = some r → r.isok = false := by
      intro r hr
      rw [extractDevcmdReply, if_neg (take_ok_of_take_err herr), if_pos herr] at hr
      split_ifs at hr
      · cases hr
        rfl
      · exact isok_of_extractDevcmd hr
    by_cases htag : ∃ r, extractDevcmdReply raw = some r ∧ r.tag = tagbuff
    · obtain ⟨r, hr, rfl⟩ := htag
      obtain ⟨f, hf⟩ := hflds r hr (hisok r hr)
      refine Or.inl ⟨r, f, hr, hisok r hr, hf, fun stack => ?_⟩
      rw [handleDeviceReplyOn_err hr (hisok r hr), hf]
      rfl
    · refine Or.inr fun stack => handleDeviceReplyOn_neg herr ?_ stack cmdargToText
      exact fun r hr h => htag ⟨r, hr, h⟩

/-- A reply without a code is accepted, and what is reported is what the stack holds. -/
theorem errorsReported_leftover :
    extractDevcmdReply (str "$ERR:GETSTATE+0042") = some ⟨false, str "GETSTATE", str "0042", []⟩ ∧
    (handleDeviceReplyOn (str "5") none (str "$ERR:GETSTATE+0042") (str "0042")).1 = -6 ∧
    (handleDeviceReplyOn (str "9") none (str "$ERR:GETSTATE+0042") (str "0042")).1 = -10 ∧
    ¬ ErrorsReported (str "$ERR:GETSTATE+0042") := by
  refine ⟨by decide +kernel, by decide +kernel, by decide +kernel, fun h => ?_⟩
  obtain ⟨f, hf⟩ := h.1 ⟨false, str "GETSTATE", str "0042", []⟩ (by decide +kernel) rfl
  cases hf

end G7
