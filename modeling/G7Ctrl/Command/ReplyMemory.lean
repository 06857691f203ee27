import G7Ctrl.Command.Reply
import G7Ctrl.Xstr.Block

/-!
# The memory of the reply parser

`extract_devcmd_reply` again, now on the block of the reply alone and with what it writes to the
buffers `cmd` and `tag`.  A read outside the block is a fault; what is written is recorded, since
the callers bring the buffers.

* `extractDevcmdReplyMem`, `extractDevcmdReplyFirstFieldMem` — the two functions.
* `scanLoop_found`, `scanLoop_long`, `scanLoop_short` — the scans.
* **`extractDevcmdReplyMem_reply`** — a run without a fault gives what `extractDevcmdReply` gives.
-/

namespace G7

/-- `SIZE_MAX`, where a `size_t` goes from 0 when it is decreased. -/
def sizeMax : ℕ := 2 ^ 64 - 1

/-- `while (max-- > 0 && …) ++pp`: how many characters were passed, and `max` behind the loop. -/
def scanLoop (stop : Byte → Bool) : ℕ → List Byte → Checked (ℕ × ℕ)
  | 0, _ => return (0, sizeMax)
  | max + 1, mem => do
      let c ← load mem 0
      if stop c then return (0, max)
      else
        let (n, left) ← scanLoop stop max (mem.drop 1)
        return (n + 1, left)

/-- What ends a command name. -/
def isNameEnd (c : Byte) : Bool := c = ch '+' ∨ c = ch '='

/-- What ends a tag. -/
def isTagEnd (c : Byte) : Bool := c = ch '=' ∨ c = cr ∨ c = lf

/-- A run of `extract_devcmd_reply`: the flag and the fields, or `none` for -1, and the bytes
written to `cmd` and to `tag`. -/
structure DevcmdRun where
  ret : Option (Bool × List CStr)
  cmd : List Byte
  tag : List Byte
  deriving DecidableEq

/-- What the caller finds in the out parameters. -/
def DevcmdRun.reply (r : DevcmdRun) : Option DevcmdReply :=
  r.ret.map fun ret => ⟨ret.1, cstr r.cmd, cstr r.tag, ret.2⟩

/-- The fields: what follows the `'='`, if the reply does not end here. -/
def fieldsMem (isok : Bool) (cmd tag mem : List Byte) : Checked DevcmdRun := do
  let c ← load mem 0
  if c = 0 ∨ c = cr ∨ c = lf then return ⟨some (isok, []), cmd, tag⟩
  else
    let text ← readStr (mem.drop 1)
    return ⟨(xstrsplitfields text (ch ',')).map (isok, ·), cmd, tag⟩

/-- The optional tag: what follows a `'+'`. -/
def tagMem (isok : Bool) (cmd mem : List Byte) : Checked DevcmdRun := do
  let c ← load mem 0
  if c = ch '+' then
    let (n, max) ← scanLoop isTagEnd 7 (mem.drop 1)
    if max = 0 then return ⟨none, cmd, [0]⟩
    else
      let tag ← readBytes n (mem.drop 1)
      fieldsMem isok cmd (tag ++ [0]) ((mem.drop 1).drop n)
  else fieldsMem isok cmd [0] mem

/-- `extract_devcmd_reply` after the `"$OK:"` or `"$ERR:"`. -/
def devcmdMem (isok : Bool) (mem : List Byte) : Checked DevcmdRun := do
  let (n, max) ← scanLoop isNameEnd 14 mem
  if max = 0 then return ⟨none, [0], [0]⟩
  else
    let name ← readBytes n mem
    let c ← load (mem.drop n) 0
    if c = ch '+' ∧ byteAt (name ++ [0]) 0 = 0 then return ⟨none, name ++ [0], [0]⟩
    else tagMem isok (name ++ [0]) (mem.drop n)

/-- `extract_devcmd_reply` -/
def extractDevcmdReplyMem (raw : List Byte) : Checked DevcmdRun := do
  let dollar ← matchLit (str "$") raw
  if dollar then
    let ok ← matchLit (str "OK:") (raw.drop 1)
    if ok then devcmdMem true (raw.drop 4)
    else
      let err ← matchLit (str "ERR:") (raw.drop 1)
      if err then
        let c ← load (raw.drop 5) 0
        if isDigit c then return ⟨some (false, [[c]]), [0], [0]⟩ else devcmdMem false (raw.drop 5)
      else return ⟨none, [0], [0]⟩
  else return ⟨none, [0], [0]⟩

/-- `reply[n - k]`, for an unsigned `n` and `k`. -/
def loadBack (mem : List Byte) (n k : ℕ) : Checked Byte :=
  if k ≤ n then load mem (n - k) else .fault

/-- A `"\r\n"` at the end of the first field is taken off. -/
def trimField (reply : CStr) : Checked CStr := do
  let c ← loadBack (cblock reply) reply.length 2
  if c = cr then
    let d ← loadBack (cblock reply) reply.length 1
    if d = lf then
      let buf ← store (cblock reply) (reply.length - 2) 0
      return cstr buf
    else return reply
  else return reply

/-- `extract_devcmd_reply_first_field`: the field, or `none` for -1. -/
def extractDevcmdReplyFirstFieldMem (raw : List Byte) (maxreply : ℕ) : Checked (Option CStr) := do
  let run ← extractDevcmdReplyMem raw
  match run.ret with
  | none => return none
  | some (false, _) => return none
  | some (true, []) => return some []
  | some (true, fld :: _) =>
      let reply ← trimField (xmbStrncpy fld maxreply)
      return some reply

/-! ## The scans -/

section Scans

variable {stop : Byte → Bool} {max : ℕ} {a : CStr}

/-- A scan to a character that ends it. -/
lemma scanLoop_found (ha : ∀ d ∈ a, stop d = false) {c : Byte} (hc : stop c = true)
    (hlen : a.length < max) (rest : List Byte) :
    scanLoop stop max (a ++ c :: rest) = .done (a.length, max - 1 - a.length) := by
  induction a generalizing max with
  | nil =>
      obtain ⟨max, rfl⟩ := Nat.exists_eq_succ_of_ne_zero (Nat.ne_of_gt hlen)
      exact if_pos hc
  | cons d ds ih =>
      obtain ⟨max, rfl⟩ := Nat.exists_eq_succ_of_ne_zero (Nat.ne_of_gt (Nat.zero_lt_of_lt hlen))
      have hd : ¬ stop d = true := by simp [ha d List.mem_cons_self]
      have hds := ih (fun e he => ha e (List.mem_cons_of_mem _ he)) (Nat.lt_of_succ_lt_succ hlen)
      refine (if_neg hd).trans ?_
      rw [List.drop_one, List.cons_append, List.tail_cons, hds, Checked.done_bind, List.length_cons]
      refine congrArg (fun left => Checked.done (ds.length + 1, left)) ?_
      omega

/-- A scan that has passed as many characters as it may. -/
lemma scanLoop_long (ha : ∀ d ∈ a, stop d = false) (rest : List Byte) :
    scanLoop stop a.length (a ++ rest) = .done (a.length, sizeMax) := by
  induction a with
  | nil => rfl
  | cons d ds ih =>
      have hd : ¬ stop d = true := by simp [ha d List.mem_cons_self]
      have hds := ih (fun e he => ha e (List.mem_cons_of_mem _ he))
      refine (if_neg hd).trans ?_
      rw [List.drop_one, List.cons_append, List.tail_cons, hds]
      rfl

/-- A scan over a block that ends before. -/
lemma scanLoop_short (ha : ∀ d ∈ a, stop d = false) (hlen : a.length < max) :
    scanLoop stop max a = .fault := by
  induction a generalizing max with
  | nil =>
      obtain ⟨max, rfl⟩ := Nat.exists_eq_succ_of_ne_zero (Nat.ne_of_gt hlen)
      rfl
  | cons d ds ih =>
      obtain ⟨max, rfl⟩ := Nat.exists_eq_succ_of_ne_zero (Nat.ne_of_gt (Nat.zero_lt_of_lt hlen))
      have hd : ¬ stop d = true := by simp [ha d List.mem_cons_self]
      have hds := ih (fun e he => ha e (List.mem_cons_of_mem _ he)) (Nat.lt_of_succ_lt_succ hlen)
      refine (if_neg hd).trans ?_
      rw [List.drop_one, List.tail_cons, hds]
      rfl

/-- The characters `scanName` counts, one by one. -/
lemma length_takeWhile_range_succ (stop : Byte → Bool) (max : ℕ) (mem : List Byte) :
    ((List.range (max + 1)).takeWhile fun i => !stop (byteAt mem i)).length =
      if stop (byteAt mem 0) then 0
      else ((List.range max).takeWhile fun i => !stop (byteAt (mem.drop 1) i)).length + 1 := by
  have hsucc : ((fun i => !stop (byteAt mem i)) ∘ Nat.succ)
      = fun i => !stop (byteAt (mem.drop 1) i) := by
    funext i
    rw [Function.comp_apply, byteAt_drop, Nat.add_comm 1]
  rw [List.range_succ_eq_map, List.takeWhile_cons]
  cases hstop : stop (byteAt mem 0) with
  | true => rfl
  | false =>
      rw [List.takeWhile_map, Bool.not_false, if_pos rfl, List.length_cons, List.length_map,
        if_neg Bool.false_ne_true, hsucc]

/-- What a scan has passed, and what it leaves of the counter. -/
lemma scanLoop_eq_done {mem : List Byte} {n left : ℕ} (h : scanLoop stop max mem = .done (n, left))
    (after : List Byte) :
    ((List.range max).takeWhile fun i => !stop (byteAt (mem ++ after) i)).length = n ∧
      n ≤ mem.length ∧ (left + n + 1 = max ∨ (n = max ∧ left = sizeMax)) := by
  induction max generalizing mem n left with
  | zero =>
      cases h
      exact ⟨rfl, Nat.zero_le _, Or.inr ⟨rfl, rfl⟩⟩
  | succ max ih =>
      cases mem with
      | nil => cases h
      | cons c cs =>
          rw [length_takeWhile_range_succ, List.cons_append, byteAt_cons_zero, List.drop_one,
            List.tail_cons]
          by_cases hc : stop c = true
          · have hret : (.done (0, max) : Checked (ℕ × ℕ)) = .done (n, left) :=
              (if_pos hc).symm.trans h
            cases hret
            exact ⟨if_pos hc, Nat.zero_le _, Or.inl rfl⟩
          · have hret := (if_neg hc).symm.trans h
            rw [List.drop_one, List.tail_cons] at hret
            cases hcs : scanLoop stop max cs with
            | fault => simp [hcs] at hret
            | timeout => simp [hcs] at hret
            | done r =>
                obtain ⟨m, left'⟩ := r
                rw [hcs] at hret
                cases hret
                obtain ⟨hlen, hle, hleft⟩ := ih hcs
                rw [if_neg hc, hlen, List.length_cons]
                refine ⟨rfl, Nat.succ_le_succ hle, hleft.imp (fun h => ?_) (And.imp_left (congrArg _))⟩
                omega

/-- **A scan inside the block** finds the name that `scanName` finds, whatever follows. -/
lemma scanName_of_scanLoop {mem : List Byte} {n left : ℕ}
    (h : scanLoop stop max mem = .done (n, left)) (after : List Byte) :
    scanName stop max (mem ++ after) = (if left = 0 then none else some n) ∧ n ≤ mem.length := by
  obtain ⟨hlen, hle, hleft⟩ := scanLoop_eq_done h after
  refine ⟨?_, hle⟩
  have hiff : n + 1 = max ↔ left = 0 := by
    rw [sizeMax] at hleft
    omega
  rw [scanName, hlen]
  simp only [hiff]

end Scans

/-! ## The same as `extractDevcmdReply` -/

/-- The fields are those `extractFields` finds. -/
lemma fieldsMem_reply {isok : Bool} {cmd tag mem : List Byte} {run : DevcmdRun}
    (h : fieldsMem isok cmd tag mem = .done run) (after : List Byte) :
    run.reply = (extractFields (mem ++ after)).map (⟨isok, cstr cmd, cstr tag, ·⟩) := by
  obtain ⟨c, hc, h⟩ := Checked.bind_eq_done.mp h
  have hmem : 1 ≤ mem.length := lt_length_of_load hc
  rw [extractFields, byteAt_of_load hc, List.drop_append_of_le_length hmem]
  split_ifs at h ⊢ with hend
  · cases h
    rfl
  · obtain ⟨text, htext, h⟩ := Checked.bind_eq_done.mp h
    cases h
    rw [cstr_of_readStr htext, DevcmdRun.reply, Option.map_map]
    rfl

/-- The tag is the one `extractTag` finds. -/
lemma tagMem_reply {isok : Bool} {cmd mem : List Byte} {run : DevcmdRun}
    (h : tagMem isok cmd mem = .done run) (after : List Byte) :
    run.reply = (extractTag (mem ++ after)).bind fun tag =>
      (extractFields tag.2).map (⟨isok, cstr cmd, tag.1, ·⟩) := by
  obtain ⟨c, hc, h⟩ := Checked.bind_eq_done.mp h
  have hmem : 1 ≤ mem.length := lt_length_of_load hc
  rw [extractTag, byteAt_of_load hc, List.drop_append_of_le_length hmem]
  by_cases hplus : c = ch '+'
  · obtain ⟨⟨n, left⟩, hscan, h⟩ := Checked.bind_eq_done.mp ((if_pos hplus).symm.trans h)
    obtain ⟨hname, hle⟩ := scanName_of_scanLoop hscan after
    have htag : scanName (fun c => c = ch '=' ∨ c = cr ∨ c = lf) 7 (mem.drop 1 ++ after)
        = if left = 0 then none else some n := hname
    rw [if_pos hplus, htag]
    by_cases hleft : left = 0
    · have hret := (if_pos hleft).symm.trans h
      cases hret
      rw [if_pos hleft]
      rfl
    · obtain ⟨tag, hread, h⟩ := Checked.bind_eq_done.mp ((if_neg hleft).symm.trans h)
      rw [if_neg hleft, Option.map_some, Option.bind_some, fieldsMem_reply h after,
        take_of_readBytes hread, List.take_append_of_le_length hle,
        List.drop_append_of_le_length hle, cstr_concat_nul]
  · have hfields := (if_neg hplus).symm.trans h
    rw [if_neg hplus, Option.bind_some, fieldsMem_reply hfields after]
    rfl

/-- Behind its marker the reply is read as `extractDevcmd` reads it. -/
lemma devcmdMem_reply {isok : Bool} {mem : List Byte} {run : DevcmdRun}
    (h : devcmdMem isok mem = .done run) (after : List Byte) :
    run.reply = extractDevcmd isok (mem ++ after) := by
  obtain ⟨⟨n, left⟩, hscan, h⟩ := Checked.bind_eq_done.mp h
  obtain ⟨hscanName, hle⟩ := scanName_of_scanLoop hscan after
  have hname : scanName (fun c => c = ch '+' ∨ c = ch '=') 14 (mem ++ after)
      = if left = 0 then none else some n := hscanName
  rw [extractDevcmd, hname]
  by_cases hleft : left = 0
  · have hret := (if_pos hleft).symm.trans h
    cases hret
    rw [if_pos hleft]
    rfl
  · obtain ⟨name, hread, h⟩ := Checked.bind_eq_done.mp ((if_neg hleft).symm.trans h)
    obtain ⟨c, hc, h⟩ := Checked.bind_eq_done.mp h
    have hempty : cstr (mem.take n) = [] ↔ byteAt (name ++ [0]) 0 = 0 := by
      rw [← take_of_readBytes hread, ← cstr_concat_nul, cstr]
      cases name with
      | nil => simp [byteAt]
      | cons d ds => simp [byteAt]
    rw [if_neg hleft, Option.bind_eq_bind, Option.bind_some, List.take_append_of_le_length hle,
      List.drop_append_of_le_length hle, byteAt_of_load hc]
    by_cases hplus : c = ch '+' ∧ byteAt (name ++ [0]) 0 = 0
    · have hret := (if_pos hplus).symm.trans h
      cases hret
      exact (if_pos ⟨hplus.1, hempty.mpr hplus.2⟩).symm
    · have hrest := (if_neg hplus).symm.trans h
      refine Eq.trans ?_ (if_neg fun hcmd => hplus ⟨hcmd.1, hempty.mp hcmd.2⟩).symm
      rw [tagMem_reply hrest after, cstr_concat_nul, take_of_readBytes hread]
      show _ = (extractTag (mem.drop n ++ after)).bind fun tag => _
      refine Option.bind_congr fun tag _ => ?_
      exact Option.map_eq_bind

/-- The marker of a reply, compared in two parts. -/
lemma take_marker_iff {raw : List Byte} {dollar : Bool} (hdollar : matchLit (str "$") raw = .done dollar)
    {mark : CStr} {b : Bool} (h : dollar = true → matchLit mark (raw.drop 1) = .done b)
    (after : List Byte) :
    (raw ++ after).take (1 + mark.length) = str "$" ++ mark ↔ dollar = true ∧ b = true := by
  have hsplit : (raw ++ after).take (1 + mark.length) = str "$" ++ mark ↔
      (raw ++ after).take 1 = str "$" ∧ ((raw ++ after).drop 1).take mark.length = mark :=
    take_eq_append_iff (a := str "$")
  have hmark : (raw ++ after).take 1 = str "$" ↔ dollar = true := take_of_matchLit hdollar after
  rw [hsplit, hmark]
  refine and_congr_right fun htrue => ?_
  have hfound : matchLit (str "$") raw = .done true := htrue ▸ hdollar
  have hlen : 1 ≤ raw.length := length_le_of_matchLit hfound
  rw [List.drop_append_of_le_length hlen, take_of_matchLit (h htrue) after]

/-- **A run without a fault** gives what `extractDevcmdReply` gives, whatever the memory behind the
reply holds. -/
theorem extractDevcmdReplyMem_reply {raw : List Byte} {run : DevcmdRun}
    (h : extractDevcmdReplyMem raw = .done run) (after : List Byte) :
    run.reply = extractDevcmdReply (raw ++ after) := by
  have hstrOk : str "$OK:" = str "$" ++ str "OK:" := by decide
  have hstrErr : str "$ERR:" = str "$" ++ str "ERR:" := by decide
  have htakeOk (dollar ok : Bool) (hdollar : matchLit (str "$") raw = .done dollar)
      (hok : dollar = true → matchLit (str "OK:") (raw.drop 1) = .done ok) :
      (raw ++ after).take 4 = str "$OK:" ↔ dollar = true ∧ ok = true := by
    rw [hstrOk]
    exact take_marker_iff hdollar hok after
  have htakeErr (dollar err : Bool) (hdollar : matchLit (str "$") raw = .done dollar)
      (herr : dollar = true → matchLit (str "ERR:") (raw.drop 1) = .done err) :
      (raw ++ after).take 5 = str "$ERR:" ↔ dollar = true ∧ err = true := by
    rw [hstrErr]
    exact take_marker_iff hdollar herr after
  obtain ⟨dollar, hdollar, h⟩ := Checked.bind_eq_done.mp h
  cases dollar with
  | false =>
      cases h
      rw [extractDevcmdReply,
        if_neg fun hmark => Bool.false_ne_true
          ((htakeOk false true hdollar fun h => absurd h Bool.false_ne_true).mp hmark).1,
        if_neg fun hmark => Bool.false_ne_true
          ((htakeErr false true hdollar fun h => absurd h Bool.false_ne_true).mp hmark).1]
      rfl
  | true =>
      obtain ⟨ok, hok, h⟩ := Checked.bind_eq_done.mp h
      have hokiff := htakeOk _ _ hdollar fun _ => hok
      cases ok with
      | true =>
          have hle : 3 ≤ (raw.drop 1).length := length_le_of_matchLit hok
          rw [List.length_drop] at hle
          rw [extractDevcmdReply, if_pos (hokiff.mpr ⟨rfl, rfl⟩),
            List.drop_append_of_le_length (by omega)]
          exact devcmdMem_reply h after
      | false =>
          rw [extractDevcmdReply, if_neg fun hmark => Bool.false_ne_true (hokiff.mp hmark).2]
          obtain ⟨err, herr, h⟩ := Checked.bind_eq_done.mp h
          have herriff := htakeErr _ _ hdollar fun _ => herr
          cases err with
          | false =>
              cases h
              rw [if_neg fun hmark => Bool.false_ne_true (herriff.mp hmark).2]
              rfl
          | true =>
              obtain ⟨c, hc, h⟩ := Checked.bind_eq_done.mp h
              have hle := lt_length_of_load hc
              rw [List.length_drop] at hle
              have hdigit := byteAt_of_load hc after
              rw [← List.drop_append_of_le_length (by omega), byteAt_drop] at hdigit
              rw [if_pos (herriff.mpr ⟨rfl, rfl⟩), hdigit,
                List.drop_append_of_le_length (by omega)]
              by_cases hd : isDigit c = true
              · have hret := (if_pos hd).symm.trans h
                cases hret
                exact (if_pos hd).symm
              · exact (devcmdMem_reply ((if_neg hd).symm.trans h) after).trans (if_neg hd).symm

end G7
