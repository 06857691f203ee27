import G7Ctrl.Command.ReplyMemory

/-!
# The format of a device reply

The parser of the replies on replies in the documented format, with names of any length, and on
replies that are not in this format.

* `Scanned` — a part of the reply that one of the two scans accepts.
* `ReplyParts` — what a reply is put together from.
* **`inverts_iff`** — when the parser takes a reply apart again.
* **`isDone_devcmdReply_iff`** — when it stays inside the reply.
-/

namespace G7

/-! ## The parts of a reply that are scanned -/

/-- A part in front of `rest` that the scan accepts: it leaves room for its NUL and one more
character and is ended by a character, or it is as long as the scan goes. -/
structure Scanned (stop : Byte → Bool) (max : ℕ) (a rest : CStr) : Prop where
  free : ∀ c ∈ a, stop c = false
  ended : (a.length + 1 < max ∧ ∃ c ∈ rest.head?, stop c = true) ∨ a.length = max

/-- The scan does not reach the end of the block. -/
def ScanStays (stop : Byte → Bool) (max : ℕ) (s : CStr) : Prop :=
  max ≤ s.length ∨ ∃ c ∈ s, stop c = true

lemma cblock_append (a s : CStr) : cblock (a ++ s) = a ++ cblock s := List.append_assoc _ _ _

lemma cblock_cons (c : Byte) (s : CStr) : cblock (c :: s) = c :: cblock s := rfl

section Scans

variable {stop : Byte → Bool} {max : ℕ} {a s rest : CStr}

/-- A part that is accepted. -/
lemma scanLoop_scanned (h : Scanned stop max a rest) :
    ∃ left, left ≠ 0 ∧ scanLoop stop max (cblock (a ++ rest)) = .done (a.length, left) := by
  rw [cblock_append]
  rcases h.ended with ⟨hlen, c, hc, hstop⟩ | rfl
  · obtain ⟨text, rfl⟩ := List.head?_eq_some_iff.mp hc
    exact ⟨_, by omega, scanLoop_found h.free hstop (by omega) _⟩
  · exact ⟨sizeMax, by decide, scanLoop_long h.free _⟩

/-- A scan accepts a part, or refuses one that is a character too long, or runs out of the block. -/
lemma scan_cases (stop : Byte → Bool) (max : ℕ) (s : CStr) :
    (∃ a rest, s = a ++ rest ∧ Scanned stop max a rest) ∨
      (∃ a c rest, s = a ++ c :: rest ∧ (∀ d ∈ a, stop d = false) ∧ stop c = true ∧
        a.length + 1 = max) ∨
      ¬ ScanStays stop max s := by
  have hfree : ∀ c ∈ s.takeWhile (!stop ·), stop c = false := fun c hc => by
    simpa using List.mem_takeWhile_imp hc
  have happend := List.takeWhile_append_dropWhile (p := (!stop ·)) (l := s)
  rcases Nat.lt_or_ge (s.takeWhile (!stop ·)).length max with hlt | hge
  · cases hrest : s.dropWhile (!stop ·) with
    | nil =>
        rw [hrest, List.append_nil] at happend
        refine Or.inr (Or.inr ?_)
        rintro (hlen | ⟨c, hc, hstop⟩)
        · rw [happend] at hlt
          omega
        · rw [happend] at hfree
          exact Bool.false_ne_true ((hfree c hc).symm.trans hstop)
    | cons c rest =>
        have hstop : stop c = true := by
          have hhead := List.head?_dropWhile_not (!stop ·) s
          rw [hrest] at hhead
          simpa using hhead
        rw [hrest] at happend
        rcases Nat.lt_or_ge ((s.takeWhile (!stop ·)).length + 1) max with hshort | hlong
        · exact Or.inl ⟨_, _, happend.symm, hfree, Or.inl ⟨hshort, c, rfl, hstop⟩⟩
        · exact Or.inr (Or.inl ⟨_, c, rest, happend.symm, hfree, hstop, by omega⟩)
  · refine Or.inl ⟨s.take max, s.drop max, (List.take_append_drop _ _).symm, fun c hc => ?_,
      Or.inr ?_⟩
    · have hinit : s.take max <+: s.takeWhile (!stop ·) :=
        List.prefix_of_prefix_length_le (List.take_prefix _ _) (List.takeWhile_prefix _)
          ((List.length_take_le _ _).trans hge)
      exact hfree c (hinit.subset hc)
    · have hle := (List.takeWhile_prefix (p := (!stop ·)) (l := s)).length_le
      rw [List.length_take]
      omega

/-- A scan that runs out of the block. -/
lemma scanLoop_leaves (h : ¬ ScanStays stop max s) (h0 : stop 0 = false) :
    scanLoop stop max (cblock s) = .fault ∨
      scanLoop stop max (cblock s) = .done ((cblock s).length, sizeMax) := by
  rw [ScanStays, not_or, not_exists, Nat.not_le] at h
  have hfree : ∀ c ∈ cblock s, stop c = false := by
    intro c hc
    rcases List.mem_append.mp hc with hs | hz
    · exact Bool.eq_false_iff.mpr fun hstop => h.2 c ⟨hs, hstop⟩
    · rwa [List.mem_singleton.mp hz]
  rcases Nat.lt_or_ge (cblock s).length max with hlt | hge
  · exact Or.inl (scanLoop_short hfree hlt)
  · have hlen : max = (cblock s).length := by
      rw [length_cblock] at hge ⊢
      omega
    have hlong := scanLoop_long hfree []
    rw [List.append_nil, ← hlen] at hlong
    exact Or.inr (hlen ▸ hlong)

end Scans

/-! ## The runs over the parts -/

section Parts

variable {isok : Bool} {cmd tag : List Byte} {a rest : CStr}

/-- What is returned for the text behind the tag. -/
def fieldsRet (isok : Bool) : CStr → Option (Bool × List CStr)
  | [] => some (isok, [])
  | c :: text =>
      if c = cr ∨ c = lf then some (isok, []) else (xstrsplitfields text (ch ',')).map (isok, ·)

/-- Reading the fields stays inside the block. -/
lemma fieldsMem_cblock (isok : Bool) (cmd tag : List Byte) (hnul : (0 : Byte) ∉ rest) :
    fieldsMem isok cmd tag (cblock rest) = .done ⟨fieldsRet isok rest, cmd, tag⟩ := by
  cases rest with
  | nil => rfl
  | cons c text =>
      rw [List.mem_cons, not_or] at hnul
      rw [fieldsMem, load_cblock (Nat.zero_le _), Checked.done_bind, byteAt_cons_zero, fieldsRet]
      by_cases hend : c = cr ∨ c = lf
      · rw [if_pos hend, if_pos (Or.inr hend)]
        rfl
      · rw [if_neg hend, if_neg (not_or.mpr ⟨Ne.symm hnul.1, hend⟩), cblock_cons, List.drop_one,
          List.tail_cons, readStr_cblock hnul.2]
        rfl

/-- Reading the fields leaves the name alone. -/
lemma fieldsMem_cmd {mem : List Byte} {run : DevcmdRun}
    (h : fieldsMem isok cmd tag mem = .done run) : run.cmd = cmd := by
  obtain ⟨c, -, h⟩ := Checked.bind_eq_done.mp h
  split_ifs at h
  · cases h
    rfl
  · obtain ⟨text, -, h⟩ := Checked.bind_eq_done.mp h
    cases h
    rfl

/-- So does reading the tag. -/
lemma tagMem_cmd {mem : List Byte} {run : DevcmdRun} (h : tagMem isok cmd mem = .done run) :
    run.cmd = cmd := by
  obtain ⟨c, -, h⟩ := Checked.bind_eq_done.mp h
  by_cases hplus : c = ch '+'
  · obtain ⟨⟨n, left⟩, -, h⟩ := Checked.bind_eq_done.mp ((if_pos hplus).symm.trans h)
    by_cases hleft : left = 0
    · have hret := (if_pos hleft).symm.trans h
      cases hret
      rfl
    · obtain ⟨tag, -, h⟩ := Checked.bind_eq_done.mp ((if_neg hleft).symm.trans h)
      exact fieldsMem_cmd h
  · exact fieldsMem_cmd ((if_neg hplus).symm.trans h)

/-- Without a tag. -/
lemma tagMem_plain (isok : Bool) (cmd : List Byte) (hnul : (0 : Byte) ∉ rest)
    (hplus : byteAt rest 0 ≠ ch '+') :
    tagMem isok cmd (cblock rest) = .done ⟨fieldsRet isok rest, cmd, [0]⟩ := by
  rw [tagMem, load_cblock (Nat.zero_le _), Checked.done_bind, if_neg hplus,
    fieldsMem_cblock isok cmd [0] hnul]

/-- A tag that is accepted. -/
lemma tagMem_scanned (isok : Bool) (cmd : List Byte) (h : Scanned isTagEnd 7 a rest)
    (hnul : (0 : Byte) ∉ rest) :
    tagMem isok cmd (cblock (ch '+' :: (a ++ rest))) =
      .done ⟨fieldsRet isok rest, cmd, a ++ [0]⟩ := by
  obtain ⟨left, hleft, hscan⟩ := scanLoop_scanned h
  rw [tagMem, load_cblock (Nat.zero_le _), Checked.done_bind, byteAt_cons_zero, if_pos rfl,
    cblock_cons, List.drop_one, List.tail_cons, hscan, Checked.done_bind]
  dsimp only
  rw [if_neg hleft, cblock_append, readBytes_append, Checked.done_bind, List.drop_left,
    fieldsMem_cblock isok cmd _ hnul]

/-- A tag of six characters. -/
lemma tagMem_refused (isok : Bool) (cmd : List Byte) (ha : ∀ d ∈ a, isTagEnd d = false) {c : Byte}
    (hc : isTagEnd c = true) (hlen : a.length = 6) (text : CStr) :
    tagMem isok cmd (cblock (ch '+' :: (a ++ c :: text))) = .done ⟨none, cmd, [0]⟩ := by
  have hscan := scanLoop_found ha hc (show a.length < 7 by omega) (cblock text)
  rw [hlen, ← cblock_cons, ← cblock_append] at hscan
  rw [tagMem, load_cblock (Nat.zero_le _), Checked.done_bind, byteAt_cons_zero, if_pos rfl,
    cblock_cons, List.drop_one, List.tail_cons, hscan]
  rfl

/-- A tag that the block is too short for. -/
lemma tagMem_leaves (isok : Bool) (cmd : List Byte) {t : CStr} (h : ¬ ScanStays isTagEnd 7 t) :
    tagMem isok cmd (cblock (ch '+' :: t)) = .fault := by
  rw [tagMem, load_cblock (Nat.zero_le _), Checked.done_bind, byteAt_cons_zero, if_pos rfl,
    cblock_cons, List.drop_one, List.tail_cons]
  rcases scanLoop_leaves h (by decide) with hscan | hscan
  · rw [hscan, Checked.fault_bind]
  · rw [hscan, Checked.done_bind]
    dsimp only
    rw [if_neg (show sizeMax ≠ 0 by decide), readBytes, if_pos le_rfl, Checked.done_bind,
      List.drop_length]
    rfl

/-- A name that is accepted. -/
lemma devcmdMem_scanned (isok : Bool) (h : Scanned isNameEnd 14 a rest) (hnul : (0 : Byte) ∉ a) :
    devcmdMem isok (cblock (a ++ rest)) =
      if byteAt rest 0 = ch '+' ∧ a = [] then .done ⟨none, a ++ [0], [0]⟩
      else tagMem isok (a ++ [0]) (cblock rest) := by
  obtain ⟨left, hleft, hscan⟩ := scanLoop_scanned h
  have hempty : byteAt (a ++ [0]) 0 = 0 ↔ a = [] := by
    cases a with
    | nil => simp [byteAt]
    | cons c cs => simpa [byteAt] using fun h0 => hnul (by simp [h0])
  rw [devcmdMem, hscan, Checked.done_bind]
  dsimp only
  rw [if_neg hleft, cblock_append, readBytes_append, Checked.done_bind, List.drop_left,
    load_cblock (Nat.zero_le _), Checked.done_bind]
  simp only [hempty]
  rfl

/-- A name of thirteen characters. -/
lemma devcmdMem_refused (isok : Bool) (ha : ∀ d ∈ a, isNameEnd d = false) {c : Byte}
    (hc : isNameEnd c = true) (hlen : a.length = 13) (text : CStr) :
    devcmdMem isok (cblock (a ++ c :: text)) = .done ⟨none, [0], [0]⟩ := by
  have hscan := scanLoop_found ha hc (show a.length < 14 by omega) (cblock text)
  rw [hlen, ← cblock_cons, ← cblock_append] at hscan
  rw [devcmdMem, hscan]
  rfl

/-- A name that the block is too short for. -/
lemma devcmdMem_leaves (isok : Bool) {s : CStr} (h : ¬ ScanStays isNameEnd 14 s) :
    devcmdMem isok (cblock s) = .fault := by
  rw [devcmdMem]
  rcases scanLoop_leaves h (by decide) with hscan | hscan
  · rw [hscan, Checked.fault_bind]
  · rw [hscan, Checked.done_bind]
    dsimp only
    rw [if_neg (show sizeMax ≠ 0 by decide), readBytes, if_pos le_rfl, Checked.done_bind,
      List.drop_length]
    rfl

end Parts

/-! ## The markers -/

/-- A reply to a command that was carried out. -/
lemma extractDevcmdReplyMem_ok (s : CStr) :
    extractDevcmdReplyMem (cblock (str "$OK:" ++ s)) = devcmdMem true (cblock s) := rfl

/-- An error. -/
lemma extractDevcmdReplyMem_err (s : CStr) :
    extractDevcmdReplyMem (cblock (str "$ERR:" ++ s)) =
      if isDigit (byteAt s 0) then .done ⟨some (false, [[byteAt s 0]]), [0], [0]⟩
      else devcmdMem false (cblock s) := by
  have hrun : extractDevcmdReplyMem (cblock (str "$ERR:" ++ s)) =
      load (cblock s) 0 >>= fun c =>
        if isDigit c then .done ⟨some (false, [[c]]), [0], [0]⟩ else devcmdMem false (cblock s) :=
    rfl
  rw [hrun, load_cblock (Nat.zero_le _), Checked.done_bind]

/-- Anything else is refused. -/
lemma extractDevcmdReplyMem_other {raw : CStr} (hok : ¬ str "$OK:" <+: raw)
    (herr : ¬ str "$ERR:" <+: raw) :
    extractDevcmdReplyMem (cblock raw) = .done ⟨none, [0], [0]⟩ := by
  rw [extractDevcmdReplyMem, matchLit_cblock (by decide), Checked.done_bind]
  by_cases hdollar : (str "$").isPrefixOf raw = true
  · obtain ⟨s, rfl⟩ := List.isPrefixOf_iff_prefix.mp hdollar
    have hdrop : (cblock (str "$" ++ s)).drop 1 = cblock s := rfl
    have hno : ∀ mark : CStr, ¬ str "$" ++ mark <+: str "$" ++ s →
        mark.isPrefixOf s = false := fun mark h =>
      Bool.eq_false_iff.mpr fun hmark => h ((List.prefix_append_right_inj _).mpr
        (List.isPrefixOf_iff_prefix.mp hmark))
    have hstrOk : str "$OK:" = str "$" ++ str "OK:" := by decide
    have hstrErr : str "$ERR:" = str "$" ++ str "ERR:" := by decide
    rw [hstrOk] at hok
    rw [hstrErr] at herr
    rw [if_pos hdollar, hdrop, matchLit_cblock (by decide), Checked.done_bind, hno _ hok,
      if_neg Bool.false_ne_true, matchLit_cblock (by decide), Checked.done_bind, hno _ herr]
    rfl
  · rw [if_neg hdollar]
    rfl

/-! ## Replies in the format -/

/-- What a reply with data is put together from. -/
structure ReplyParts where
  cmd : CStr
  /-- The tag, if the reply has one. -/
  tag : Option CStr
  flds : List CStr
  cmd_ne : cmd ≠ []
  cmd_nul : (0 : Byte) ∉ cmd
  cmd_free : ∀ c ∈ cmd, isNameEnd c = false
  tag_nul : ∀ t ∈ tag, (0 : Byte) ∉ t
  tag_free : ∀ t ∈ tag, ∀ c ∈ t, isTagEnd c = false
  flds_ne : flds ≠ []
  flds_length : flds.length ≤ 63
  flds_nul : ∀ f ∈ flds, (0 : Byte) ∉ f
  flds_free : ∀ f ∈ flds, ch ',' ∉ f
  flds_fit : ∀ f ∈ flds, f.length ≤ 255
  joined_ne : [ch ','].intercalate flds ≠ []
  joined_length : ([ch ','].intercalate flds).length ≤ 1023

namespace ReplyParts

variable (p : ReplyParts)

/-- The fields, joined. -/
def joined : CStr := [ch ','].intercalate p.flds

/-- `'+' TAG` or nothing. -/
def tagPart : CStr :=
  match p.tag with
  | none => []
  | some t => ch '+' :: t

/-- The text of the tag; empty when there is none. -/
def tagText : CStr := p.tag.getD []

/-- The reply behind its marker. -/
def body : CStr := p.cmd ++ (p.tagPart ++ ch '=' :: p.joined)

/-- The reply. -/
def text : CStr := str "$OK:" ++ p.body

/-- The run of the parser on the reply. -/
def run : Checked DevcmdRun := extractDevcmdReplyMem (cblock p.text)

/-- The parser takes the reply apart again; a name or a tag that is too long is refused, and nothing
is written behind the 14 bytes of `cmd` or the 7 bytes of `tag`. -/
def Inverts : Prop :=
  if p.cmd.length ≤ 13 ∧ p.tagText.length ≤ 6 then
    ∃ run, p.run = .done run ∧ run.reply = some ⟨true, p.cmd, p.tagText, p.flds⟩
  else
    ∃ run, p.run = .done run ∧ run.ret = none ∧ run.cmd.length ≤ 14 ∧ run.tag.length ≤ 7

lemma nul_notMem_rest : (0 : Byte) ∉ ch '=' :: p.joined := by
  intro h
  rcases List.mem_cons.mp h with h0 | h0
  · exact absurd h0 (by decide)
  · rcases mem_of_mem_intercalate h0 with hsep | ⟨f, hf, h0⟩
    · exact absurd hsep (by decide)
    · exact p.flds_nul f hf h0

lemma nul_notMem_tagText : (0 : Byte) ∉ p.tagText := by
  cases htag : p.tag with
  | none => simp [tagText, htag]
  | some t =>
      rw [tagText, htag]
      exact p.tag_nul t htag

/-- The fields come back. -/
lemma fieldsRet_joined (isok : Bool) : fieldsRet isok (ch '=' :: p.joined) = some (isok, p.flds) := by
  have hne : p.joined ≠ [] := p.joined_ne
  have hsplit : p.joined.splitOn (ch ',') = p.flds :=
    List.splitOn_intercalate (ch ',') p.flds_free p.flds_ne
  have hfields : xstrsplitfields p.joined (ch ',') = some p.flds := by
    rw [xstrsplitfields_eq_some hne (Nat.lt_succ_of_le p.joined_length), hsplit]
    · rw [hsplit]
      exact fun f hf => Nat.lt_succ_of_le (p.flds_fit f hf)
    · rw [hsplit]
      exact Nat.lt_succ_of_le p.flds_length
  rw [fieldsRet, if_neg (by decide), hfields]
  rfl

/-- A tag that fits its buffer with a character to spare comes back. -/
lemma tagMem_tagPart (cmd : List Byte) (hlen : p.tagText.length ≤ 5) :
    tagMem true cmd (cblock (p.tagPart ++ ch '=' :: p.joined)) =
      .done ⟨some (true, p.flds), cmd, p.tagText ++ [0]⟩ := by
  rw [← p.fieldsRet_joined]
  cases htag : p.tag with
  | none =>
      rw [tagPart, tagText, htag]
      have hplus : byteAt (ch '=' :: p.joined) 0 ≠ ch '+' := by
        rw [byteAt_cons_zero]
        decide
      exact tagMem_plain true cmd p.nul_notMem_rest hplus
  | some t =>
      rw [tagText, htag] at hlen
      rw [tagPart, tagText, htag]
      have hscanned : Scanned isTagEnd 7 t (ch '=' :: p.joined) :=
        ⟨p.tag_free t htag, Or.inl ⟨Nat.lt_of_le_of_lt (Nat.succ_le_succ hlen) (by decide),
          _, rfl, by decide⟩⟩
      exact tagMem_scanned true cmd hscanned p.nul_notMem_rest

/-- A tag that just fits is refused. -/
lemma tagMem_tagPart_six (cmd : List Byte) (hlen : p.tagText.length = 6) :
    tagMem true cmd (cblock (p.tagPart ++ ch '=' :: p.joined)) = .done ⟨none, cmd, [0]⟩ := by
  cases htag : p.tag with
  | none =>
      rw [tagText, htag] at hlen
      exact absurd hlen (by decide)
  | some t =>
      rw [tagText, htag] at hlen
      rw [tagPart, htag]
      exact tagMem_refused true cmd (p.tag_free t htag) (by decide) hlen p.joined

/-- A longer one is written behind the end of its buffer. -/
lemma tagMem_tagPart_long (cmd : List Byte) (hlen : 7 ≤ p.tagText.length) :
    ∃ run, tagMem true cmd (cblock (p.tagPart ++ ch '=' :: p.joined)) = .done run ∧
      run.tag.length = 8 := by
  cases htag : p.tag with
  | none =>
      rw [tagText, htag] at hlen
      exact absurd hlen (by decide)
  | some t =>
      rw [tagText, htag] at hlen
      rw [tagPart, htag]
      have htake : (t.take 7).length = 7 := by
        rw [List.length_take]
        exact Nat.min_eq_left hlen
      have hscanned : Scanned isTagEnd 7 (t.take 7) (t.drop 7 ++ ch '=' :: p.joined) :=
        ⟨fun c hc => p.tag_free t htag c (List.mem_of_mem_take hc), Or.inr htake⟩
      have hnul : (0 : Byte) ∉ t.drop 7 ++ ch '=' :: p.joined := by
        rw [List.mem_append, not_or]
        exact ⟨fun h => p.tag_nul t htag (List.mem_of_mem_drop h), p.nul_notMem_rest⟩
      have hrun := tagMem_scanned true cmd hscanned hnul
      rw [← List.append_assoc, List.take_append_drop] at hrun
      exact ⟨_, hrun, by rw [List.length_append, htake]; rfl⟩

/-- What follows the name ends it. -/
lemma exists_tagPart_eq_cons : ∃ c rest, p.tagPart ++ ch '=' :: p.joined = c :: rest ∧
    isNameEnd c = true := by
  cases htag : p.tag with
  | none => exact ⟨ch '=', p.joined, by rw [tagPart, htag, List.nil_append], by decide⟩
  | some t =>
      exact ⟨ch '+', t ++ ch '=' :: p.joined, by rw [tagPart, htag, List.cons_append], by decide⟩

/-- A name that fits its buffer with a character to spare comes back. -/
lemma run_of_le (hlen : p.cmd.length ≤ 12) :
    p.run = tagMem true (p.cmd ++ [0]) (cblock (p.tagPart ++ ch '=' :: p.joined)) := by
  obtain ⟨c, rest, hrest, hend⟩ := p.exists_tagPart_eq_cons
  have hscanned : Scanned isNameEnd 14 p.cmd (p.tagPart ++ ch '=' :: p.joined) := by
    rw [hrest]
    exact ⟨p.cmd_free, Or.inl ⟨by omega, c, rfl, hend⟩⟩
  exact (devcmdMem_scanned true hscanned p.cmd_nul).trans (if_neg fun h => p.cmd_ne h.2)

/-- A name that just fits is refused. -/
lemma run_of_eq (hlen : p.cmd.length = 13) : p.run = .done ⟨none, [0], [0]⟩ := by
  obtain ⟨c, rest, hrest, hend⟩ := p.exists_tagPart_eq_cons
  rw [run, text, extractDevcmdReplyMem_ok, body, hrest]
  exact devcmdMem_refused true p.cmd_free hend hlen rest

/-- A longer one is written behind the end of its buffer. -/
lemma run_of_ge (hlen : 14 ≤ p.cmd.length) {run : DevcmdRun} (h : p.run = .done run) :
    run.cmd.length = 15 := by
  have htake : (p.cmd.take 14).length = 14 := by
    rw [List.length_take]
    exact Nat.min_eq_left hlen
  have hne : p.cmd.take 14 ≠ [] := List.ne_nil_of_length_pos (by omega)
  have hscanned : Scanned isNameEnd 14 (p.cmd.take 14)
      (p.cmd.drop 14 ++ (p.tagPart ++ ch '=' :: p.joined)) :=
    ⟨fun c hc => p.cmd_free c (List.mem_of_mem_take hc), Or.inr htake⟩
  have hbody : p.body
      = p.cmd.take 14 ++ (p.cmd.drop 14 ++ (p.tagPart ++ ch '=' :: p.joined)) := by
    rw [body, ← List.append_assoc (p.cmd.take 14), List.take_append_drop]
  rw [ReplyParts.run, text, extractDevcmdReplyMem_ok, hbody,
    devcmdMem_scanned true hscanned (fun h0 => p.cmd_nul (List.mem_of_mem_take h0)),
    if_neg fun hcmd => hne hcmd.2] at h
  rw [tagMem_cmd h, List.length_append, htake]
  rfl

/-- **When the parser inverts the format**: the name and the tag leave a character of their buffers
free; or the name is of the length that is always refused, and the tag is too long anyway. -/
theorem inverts_iff : p.Inverts ↔
    (p.cmd.length ≤ 12 ∧ p.tagText.length ≤ 5) ∨ (p.cmd.length = 13 ∧ 7 ≤ p.tagText.length) := by
  rcases Nat.lt_or_ge p.cmd.length 13 with hcmd | hcmd
  · have hrun := p.run_of_le (Nat.le_of_lt_succ hcmd)
    have hcmd' : p.cmd.length ≤ 13 ∧ p.cmd.length ≤ 12 ∧ p.cmd.length ≠ 13 := by omega
    rcases Nat.lt_trichotomy p.tagText.length 6 with htag | htag | htag
    · rw [Inverts, if_pos ⟨hcmd'.1, htag.le⟩, hrun, p.tagMem_tagPart _ (Nat.le_of_lt_succ htag)]
      refine iff_of_true ⟨_, rfl, ?_⟩ (Or.inl ⟨hcmd'.2.1, Nat.le_of_lt_succ htag⟩)
      rw [DevcmdRun.reply, Option.map_some, cstr_append_nul p.cmd_nul,
        cstr_append_nul p.nul_notMem_tagText]
    · rw [Inverts, if_pos ⟨hcmd'.1, htag.le⟩, hrun, p.tagMem_tagPart_six _ htag]
      refine iff_of_false ?_ (by omega)
      rintro ⟨run, hdone, hreply⟩
      cases hdone
      cases hreply
    · obtain ⟨run, hdone, hlen⟩ := p.tagMem_tagPart_long (p.cmd ++ [0]) htag
      rw [Inverts, if_neg (by omega), hrun, hdone]
      refine iff_of_false ?_ (by omega)
      rintro ⟨run', hdone', -, -, htag'⟩
      cases hdone'
      omega
  · rcases Nat.lt_or_ge p.cmd.length 14 with hcmd' | hcmd'
    · have hlen : p.cmd.length = 13 := Nat.le_antisymm (Nat.le_of_lt_succ hcmd') hcmd
      rcases Nat.lt_or_ge p.tagText.length 7 with htag | htag
      · rw [Inverts, if_pos ⟨hlen.le, Nat.le_of_lt_succ htag⟩, p.run_of_eq hlen]
        refine iff_of_false ?_ (by omega)
        rintro ⟨run, hdone, hreply⟩
        cases hdone
        cases hreply
      · rw [Inverts, if_neg (by omega), p.run_of_eq hlen]
        exact iff_of_true ⟨_, rfl, rfl, by decide, by decide⟩ (Or.inr ⟨hlen, htag⟩)
    · rw [Inverts, if_neg (by omega)]
      refine iff_of_false ?_ (by omega)
      rintro ⟨run, hdone, -, hlen, -⟩
      rw [p.run_of_ge hcmd' hdone] at hlen
      exact absurd hlen (by decide)

end ReplyParts

/-- A reply with a name of thirteen characters. -/
def thirteenParts : ReplyParts where
  cmd := str "GETSMSCONTROL"
  tag := none
  flds := [str "1"]
  cmd_ne := by decide
  cmd_nul := by decide
  cmd_free := by decide +kernel
  tag_nul := nofun
  tag_free := nofun
  flds_ne := by decide
  flds_length := by decide
  flds_nul := by decide +kernel
  flds_free := by decide +kernel
  flds_fit := by decide +kernel
  joined_ne := by decide
  joined_length := by decide

/-- It is refused. -/
theorem thirteenParts_not_inverts : ¬ thirteenParts.Inverts := by
  rw [ReplyParts.Inverts, if_pos (by decide), thirteenParts.run_of_eq (by decide)]
  rintro ⟨run, hdone, hreply⟩
  cases hdone
  cases hreply

/-! ## Any reply -/

/-- The scans stop before the NUL of what follows the marker. -/
def HeaderStays (s : CStr) : Prop :=
  ScanStays isNameEnd 14 s ∧
    ∀ a t, s = a ++ ch '+' :: t → a ≠ [] → Scanned isNameEnd 14 a (ch '+' :: t) →
      ScanStays isTagEnd 7 t

/-- They do so after either marker, if there is a name. -/
def ReadsStay (raw : CStr) : Prop :=
  (∀ s, raw = str "$OK:" ++ s → HeaderStays s) ∧
    ∀ s, raw = str "$ERR:" ++ s → isDigit (byteAt s 0) = false → HeaderStays s

/-- Behind the marker there are an accepted name, perhaps an accepted tag, a character that does
not end the reply, and then `text`. -/
inductive HasData : CStr → CStr → Prop
  | plain {a : CStr} {c : Byte} {text : CStr} (name : Scanned isNameEnd 14 a (c :: text))
      (hc : c ≠ ch '+' ∧ c ≠ cr ∧ c ≠ lf) : HasData (a ++ c :: text) text
  | tagged {a b : CStr} {c : Byte} {text : CStr} (ne : a ≠ [])
      (name : Scanned isNameEnd 14 a (ch '+' :: (b ++ c :: text)))
      (tag : Scanned isTagEnd 7 b (c :: text)) (hc : c ≠ cr ∧ c ≠ lf) :
      HasData (a ++ ch '+' :: (b ++ c :: text)) text

/-- The data end the reply. -/
lemma HasData.suffix {s text : CStr} (h : HasData s text) : text <:+ s := by
  cases h with
  | @plain a c _ _ _ => exact ⟨a ++ [c], by simp⟩
  | @tagged a b c _ _ _ _ _ => exact ⟨a ++ ch '+' :: (b ++ [c]), by simp⟩

/-- The first field of a text that can be split has two characters for the `"\r\n"`. -/
def FirstFieldLong (text : CStr) : Prop :=
  (xstrsplitfields text (ch ',')).isSome = true → 2 ≤ (text.takeWhile (· ≠ ch ',')).length

section Header

variable {s : CStr}

/-- **Behind the marker the parser stays inside the block** exactly when its scans do. -/
theorem isDone_devcmdMem_iff (isok : Bool) (hnul : (0 : Byte) ∉ s) :
    (devcmdMem isok (cblock s)).IsDone ↔ HeaderStays s := by
  constructor
  · intro hdone
    refine ⟨?_, ?_⟩
    · by_contra hleaves
      rw [devcmdMem_leaves isok hleaves] at hdone
      exact Checked.not_isDone_fault hdone
    · rintro a t rfl hne hname
      by_contra hleaves
      rw [List.mem_append, not_or] at hnul
      rw [devcmdMem_scanned isok hname hnul.1, if_neg fun h => hne h.2,
        tagMem_leaves isok _ hleaves] at hdone
      exact Checked.not_isDone_fault hdone
  · rintro ⟨hname, htag⟩
    rcases scan_cases isNameEnd 14 s with ⟨a, rest, rfl, hscan⟩ | ⟨a, c, rest, rfl, ha, hc, hlen⟩ |
      hleaves
    · rw [List.mem_append, not_or] at hnul
      rw [devcmdMem_scanned isok hscan hnul.1]
      split_ifs with hempty
      · exact Checked.isDone_done _
      · by_cases hplus : byteAt rest 0 = ch '+'
        · cases rest with
          | nil => exact absurd hplus (by decide)
          | cons d t =>
              obtain rfl : d = ch '+' := hplus
              have hne : a ≠ [] := fun ha => hempty ⟨rfl, ha⟩
              have hnul' : (0 : Byte) ∉ t := fun h0 => hnul.2 (List.mem_cons_of_mem _ h0)
              rcases scan_cases isTagEnd 7 t with ⟨b, rest, rfl, hb⟩ | ⟨b, c, rest, rfl, hb, hc, hlen⟩
                | hleaves
              · rw [List.mem_append, not_or] at hnul'
                rw [tagMem_scanned isok _ hb hnul'.2]
                exact Checked.isDone_done _
              · rw [tagMem_refused isok _ hb hc (Nat.succ.inj hlen)]
                exact Checked.isDone_done _
              · exact absurd (htag a t rfl hne hscan) hleaves
        · rw [tagMem_plain isok _ hnul.2 hplus]
          exact Checked.isDone_done _
    · rw [devcmdMem_refused isok ha hc (Nat.succ.inj hlen)]
      exact Checked.isDone_done _
    · exact absurd hname hleaves

/-- What is returned for data. -/
lemma devcmdMem_of_hasData (isok : Bool) (hnul : (0 : Byte) ∉ s) {text : CStr}
    (h : HasData s text) : ∃ run, devcmdMem isok (cblock s) = .done run ∧
      run.ret = (xstrsplitfields text (ch ',')).map (isok, ·) := by
  cases h with
  | plain hname hc =>
      rw [List.mem_append, not_or] at hnul
      rw [devcmdMem_scanned isok hname hnul.1, if_neg fun h => hc.1 h.1,
        tagMem_plain isok _ hnul.2 hc.1]
      exact ⟨_, rfl, if_neg (not_or.mpr hc.2)⟩
  | tagged hne hname htag hc =>
      rw [List.mem_append, not_or, List.mem_cons, not_or, List.mem_append, not_or] at hnul
      rw [devcmdMem_scanned isok hname hnul.1, if_neg fun h => hne h.2,
        tagMem_scanned isok _ htag hnul.2.2.2]
      exact ⟨_, rfl, if_neg (not_or.mpr hc)⟩

lemma fieldsRet_eq_cons {isok b : Bool} {rest f : CStr} {fs : List CStr}
    (h : fieldsRet isok rest = some (b, f :: fs)) :
    b = isok ∧ ∃ c text, rest = c :: text ∧ (c ≠ cr ∧ c ≠ lf) ∧
      xstrsplitfields text (ch ',') = some (f :: fs) := by
  cases rest with
  | nil => cases h
  | cons c text =>
      rw [fieldsRet] at h
      split_ifs at h with hend
      · cases h
      · obtain ⟨flds, hflds, hret⟩ := Option.map_eq_some_iff.mp h
        cases hret
        exact ⟨rfl, c, text, rfl, not_or.mp hend, hflds⟩

/-- Fields that are returned come from data. -/
lemma hasData_of_devcmdMem {isok b : Bool} (hnul : (0 : Byte) ∉ s) {run : DevcmdRun} {f : CStr}
    {fs : List CStr} (h : devcmdMem isok (cblock s) = .done run)
    (hret : run.ret = some (b, f :: fs)) :
    b = isok ∧ ∃ text, HasData s text ∧ xstrsplitfields text (ch ',') = some (f :: fs) := by
  rcases scan_cases isNameEnd 14 s with ⟨a, rest, rfl, hscan⟩ | ⟨a, c, rest, rfl, ha, hc, hlen⟩ |
    hleaves
  · rw [List.mem_append, not_or] at hnul
    rw [devcmdMem_scanned isok hscan hnul.1] at h
    split_ifs at h with hempty
    · cases h
      cases hret
    · by_cases hplus : byteAt rest 0 = ch '+'
      · cases rest with
        | nil => exact absurd hplus (by decide)
        | cons d t =>
            obtain rfl : d = ch '+' := hplus
            have hne : a ≠ [] := fun ha => hempty ⟨rfl, ha⟩
            have hnul' : (0 : Byte) ∉ t := fun h0 => hnul.2 (List.mem_cons_of_mem _ h0)
            rcases scan_cases isTagEnd 7 t with ⟨b', rest, rfl, hb⟩ | ⟨b', c, rest, rfl, hb, hc, hlen⟩
              | hleaves
            · rw [List.mem_append, not_or] at hnul'
              rw [tagMem_scanned isok _ hb hnul'.2] at h
              cases h
              obtain ⟨hb', c, text, rfl, hc, hflds⟩ := fieldsRet_eq_cons hret
              exact ⟨hb', text, .tagged hne hscan hb hc, hflds⟩
            · rw [tagMem_refused isok _ hb hc (Nat.succ.inj hlen)] at h
              cases h
              cases hret
            · rw [tagMem_leaves isok _ hleaves] at h
              cases h
      · rw [tagMem_plain isok _ hnul.2 hplus] at h
        cases h
        obtain ⟨hb', c, text, rfl, hc, hflds⟩ := fieldsRet_eq_cons hret
        exact ⟨hb', text, .plain hscan ⟨hplus, hc⟩, hflds⟩
  · rw [devcmdMem_refused isok ha hc (Nat.succ.inj hlen)] at h
    cases h
    cases hret
  · rw [devcmdMem_leaves isok hleaves] at h
    cases h

end Header

/-- A character counted from the end of a string. -/
lemma loadBack_cblock {reply : CStr} {k : ℕ} (h : k ≤ reply.length) :
    loadBack (cblock reply) reply.length k = .done (byteAt reply (reply.length - k)) :=
  (if_pos h).trans (load_cblock (Nat.sub_le _ _))

/-- The trimming stays inside its buffer when the field has two characters. -/
lemma isDone_trimField_iff (reply : CStr) : (trimField reply).IsDone ↔ 2 ≤ reply.length := by
  constructor
  · intro hdone
    by_contra hshort
    rw [trimField, loadBack, if_neg hshort] at hdone
    exact Checked.not_isDone_fault hdone
  · intro hlen
    have hroom : reply.length - 2 < (cblock reply).length := by
      rw [length_cblock]
      omega
    rw [trimField, loadBack_cblock hlen, Checked.done_bind, loadBack_cblock (Nat.le_of_lt hlen),
      Checked.done_bind, store_eq_done hroom, Checked.done_bind]
    split_ifs
    all_goals exact Checked.isDone_done _

/-- When the first field of what the parser returned can be trimmed. -/
lemma isDone_firstField_iff {raw : List Byte} {run : DevcmdRun} (maxreply : ℕ)
    (h : extractDevcmdReplyMem raw = .done run) :
    (extractDevcmdReplyFirstFieldMem raw maxreply).IsDone ↔
      ∀ f fs, run.ret = some (true, f :: fs) → 2 ≤ (xmbStrncpy f maxreply).length := by
  rw [extractDevcmdReplyFirstFieldMem, h, Checked.done_bind]
  obtain ⟨ret, cmd, tag⟩ := run
  match ret with
  | none => exact iff_of_true (Checked.isDone_done _) nofun
  | some (false, flds) => exact iff_of_true (Checked.isDone_done _) nofun
  | some (true, []) => exact iff_of_true (Checked.isDone_done _) nofun
  | some (true, f :: fs) =>
      have htrim : (trimField (xmbStrncpy f maxreply)).IsDone ↔
          ∀ g gs, some (true, f :: fs) = some (true, g :: gs) →
            2 ≤ (xmbStrncpy g maxreply).length := by
        rw [isDone_trimField_iff]
        constructor
        · rintro hlen g gs heq
          cases heq
          exact hlen
        · exact fun hall => hall f fs rfl
      refine Iff.trans ?_ htrim
      constructor
      · rintro ⟨reply, hreply⟩
        obtain ⟨trimmed, htrimmed, -⟩ := Checked.bind_eq_done.mp hreply
        exact ⟨trimmed, htrimmed⟩
      · rintro ⟨trimmed, htrimmed⟩
        exact ⟨some trimmed, Checked.bind_eq_done.mpr ⟨trimmed, htrimmed, rfl⟩⟩

/-- The markers differ. -/
lemma ok_ne_err (s s' : CStr) : str "$OK:" ++ s ≠ str "$ERR:" ++ s' := by
  intro h
  have hsecond : ch 'O' = ch 'E' := congrArg (byteAt · 1) h
  exact absurd hsecond (by decide)

lemma readsStay_ok (s : CStr) : ReadsStay (str "$OK:" ++ s) ↔ HeaderStays s := by
  constructor
  · exact fun h => h.1 s rfl
  · refine fun h => ⟨fun s' hs' => ?_, fun s' hs' => ?_⟩
    · rwa [← List.append_cancel_left hs']
    · exact absurd hs' (ok_ne_err s s')

lemma readsStay_err (s : CStr) :
    ReadsStay (str "$ERR:" ++ s) ↔ (isDigit (byteAt s 0) = false → HeaderStays s) := by
  constructor
  · exact fun h => h.2 s rfl
  · refine fun h => ⟨fun s' hs' => ?_, fun s' hs' hd => ?_⟩
    · exact absurd hs'.symm (ok_ne_err s' s)
    · rw [← List.append_cancel_left hs'] at hd ⊢
      exact h hd

/-- The first of the fields that a text is split into. -/
lemma xstrsplitfields_cons {text f : CStr} {fs : List CStr}
    (h : xstrsplitfields text (ch ',') = some (f :: fs)) : f = text.takeWhile (· ≠ ch ',') := by
  have hhead := head?_splitOn (ch ',') text
  rw [← xstrsplitfields_some h] at hhead
  exact Option.some.inj hhead

/-- A reply that the parser returns fields for has data after the `"$OK:"`. -/
lemma hasData_of_run {raw : CStr} (hnul : (0 : Byte) ∉ raw) {run : DevcmdRun} {f : CStr}
    {fs : List CStr} (hrun : extractDevcmdReplyMem (cblock raw) = .done run)
    (hret : run.ret = some (true, f :: fs)) :
    ∃ s text, raw = str "$OK:" ++ s ∧ HasData s text ∧
      xstrsplitfields text (ch ',') = some (f :: fs) := by
  by_cases hok : str "$OK:" <+: raw
  · obtain ⟨s, rfl⟩ := hok
    rw [List.mem_append, not_or] at hnul
    rw [extractDevcmdReplyMem_ok] at hrun
    obtain ⟨-, text, hdata, hflds⟩ := hasData_of_devcmdMem hnul.2 hrun hret
    exact ⟨s, text, rfl, hdata, hflds⟩
  by_cases herr : str "$ERR:" <+: raw
  · obtain ⟨s, rfl⟩ := herr
    rw [List.mem_append, not_or] at hnul
    rw [extractDevcmdReplyMem_err] at hrun
    split_ifs at hrun
    · cases hrun
      cases hret
    · exact absurd (hasData_of_devcmdMem hnul.2 hrun hret).1 (by decide)
  · rw [extractDevcmdReplyMem_other hok herr] at hrun
    cases hrun
    cases hret

/-- When the first field of what the parser returned is long enough. -/
lemma firstField_long_iff {raw : CStr} (hnul : (0 : Byte) ∉ raw) {maxreply : ℕ}
    (hmax : 6 ≤ maxreply) {run : DevcmdRun}
    (hrun : extractDevcmdReplyMem (cblock raw) = .done run) :
    (∀ f fs, run.ret = some (true, f :: fs) → 2 ≤ (xmbStrncpy f maxreply).length) ↔
      ∀ s text, raw = str "$OK:" ++ s → HasData s text → FirstFieldLong text := by
  have hfield {s text f : CStr} {fs : List CStr} (hraw : raw = str "$OK:" ++ s)
      (hdata : HasData s text) (hflds : xstrsplitfields text (ch ',') = some (f :: fs)) :
      2 ≤ (xmbStrncpy f maxreply).length ↔ 2 ≤ (text.takeWhile (· ≠ ch ',')).length := by
    have htext : (0 : Byte) ∉ text := by
      rw [hraw, List.mem_append, not_or] at hnul
      exact fun h0 => hnul.2 (hdata.suffix.subset h0)
    rw [xstrsplitfields_cons hflds]
    exact le_length_xmbStrncpy_iff (fun h0 => htext ((List.takeWhile_prefix _).subset h0)) hmax
  constructor
  · rintro hall s text rfl hdata hsome
    obtain ⟨flds, hflds⟩ := Option.isSome_iff_exists.mp hsome
    cases flds with
    | nil => exact absurd (xstrsplitfields_some hflds).symm (List.splitOn_ne_nil _ _)
    | cons f fs =>
        rw [List.mem_append, not_or] at hnul
        obtain ⟨run', hrun', hret⟩ := devcmdMem_of_hasData true hnul.2 hdata
        rw [extractDevcmdReplyMem_ok, hrun'] at hrun
        cases hrun
        rw [hflds] at hret
        exact (hfield rfl hdata hflds).mp (hall f fs hret)
  · intro hall f fs hret
    obtain ⟨s, text, hraw, hdata, hflds⟩ := hasData_of_run hnul hrun hret
    exact (hfield hraw hdata hflds).mpr (hall s text hraw hdata (by rw [hflds]; rfl))

/-- **When the parser and its caller stay inside the block of the reply.**  The parser does so when
neither scan meets the NUL, that is, when after the marker there are 14 characters or one that ends
the name, and after a name with a `'+'` there are 7 characters or one that ends the tag.  To trim
the first field it must have two characters.  (The buffers for it have 32 bytes.) -/
theorem isDone_devcmdReply_iff {raw : CStr} (hnul : (0 : Byte) ∉ raw) {maxreply : ℕ} (hmax : 6 ≤ maxreply) :
    ((extractDevcmdReplyMem (cblock raw)).IsDone ↔ ReadsStay raw) ∧
      ((extractDevcmdReplyFirstFieldMem (cblock raw) maxreply).IsDone ↔
        ReadsStay raw ∧
          ∀ s text, raw = str "$OK:" ++ s → HasData s text → FirstFieldLong text) := by
  have hparser : (extractDevcmdReplyMem (cblock raw)).IsDone ↔ ReadsStay raw := by
    by_cases hok : str "$OK:" <+: raw
    · obtain ⟨s, rfl⟩ := hok
      rw [List.mem_append, not_or] at hnul
      rw [readsStay_ok, extractDevcmdReplyMem_ok, isDone_devcmdMem_iff true hnul.2]
    by_cases herr : str "$ERR:" <+: raw
    · obtain ⟨s, rfl⟩ := herr
      rw [List.mem_append, not_or] at hnul
      rw [readsStay_err, extractDevcmdReplyMem_err, ← isDone_devcmdMem_iff false hnul.2]
      cases isDigit (byteAt s 0) with
      | true => exact iff_of_true (Checked.isDone_done _) (by simp)
      | false => simp
    · rw [extractDevcmdReplyMem_other hok herr]
      exact iff_of_true (Checked.isDone_done _)
        ⟨fun s hs => absurd ⟨s, hs.symm⟩ hok, fun s hs => absurd ⟨s, hs.symm⟩ herr⟩
  refine ⟨hparser, ?_⟩
  constructor
  · rintro ⟨reply, hreply⟩
    obtain ⟨run, hrun, -⟩ := Checked.bind_eq_done.mp hreply
    refine ⟨hparser.mp ⟨run, hrun⟩, (firstField_long_iff hnul hmax hrun).mp ?_⟩
    exact (isDone_firstField_iff maxreply hrun).mp ⟨reply, hreply⟩
  · rintro ⟨hstay, hlong⟩
    obtain ⟨run, hrun⟩ := hparser.mpr hstay
    exact (isDone_firstField_iff maxreply hrun).mpr ((firstField_long_iff hnul hmax hrun).mpr hlong)

/-- A reply without data whose `"\r\n"` was taken off is read beyond its NUL. -/
theorem reset_not_isDone : ¬ (extractDevcmdReplyMem (cblock (str "$OK:RESET+0009"))).IsDone := by
  have hfault : extractDevcmdReplyMem (cblock (str "$OK:RESET+0009")) = .fault := by decide
  rw [hfault]
  exact Checked.not_isDone_fault

/-- A reply with data. -/
theorem getstate_isDone_iff :
    let raw := str "$OK:GETSTATE+0042=1,0\r\n"
    ((extractDevcmdReplyMem (cblock raw)).IsDone ↔ ReadsStay raw) ∧
      ((extractDevcmdReplyFirstFieldMem (cblock raw) 32).IsDone ↔
        ReadsStay raw ∧
          ∀ s text, raw = str "$OK:" ++ s → HasData s text → FirstFieldLong text) :=
  isDone_devcmdReply_iff (by decide) (by decide)

end G7
