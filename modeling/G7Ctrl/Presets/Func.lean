import G7Ctrl.Command.CommandTable
import G7Ctrl.Xstr.Append
import G7Ctrl.Xstr.Block
import G7Ctrl.Xstr.Split

/-!
# Preset functions (`execPresetFunc`)

A line `NAME(a1,...,an)` of a preset stands for a command with arguments.  The line is copied to one
buffer, every argument to a second one without its spaces, and the command for the device is put
together in a third one.

* `execPresetFunc` — the function, with what it hands to `send_rawcmd`; writing outside one of the
  buffers is a fault.
* `SendsWholeOrNothing` — what is expected of a line.
* `FitsBuffers` — the copy of the line loses at most spaces and the closing parenthesis, and every
  argument and the command fit their buffers.
* **`sendsWholeOrNothing_iff`** — exactly these lines are sent whole.
* `longLine_shifts` — a line of two arguments of which the second one is left out.
-/

namespace G7

/-! ## The function -/

/-- `sizeof(tmpBuf)` and `sizeof(cmdBuf)` -/
def presetBufSize : ℕ := 128

/-- `sizeof(argBuf)` -/
def argBufSize : ℕ := 64

/-- `MAXPRESETNAME` -/
def maxPresetName : ℕ := 15

/-- The end of an argument: a NUL is put behind it, and it is appended to the command.  Of an empty
argument only the comma is appended. -/
def endArg (cmdBuf arg : CStr) : Checked CStr :=
  if arg.length < argBufSize then
    .done <|
      if arg ≠ [] then xstrlcat (xstrlcat cmdBuf [ch ','] presetBufSize) arg presetBufSize
      else xstrlcat cmdBuf [ch ','] presetBufSize
  else .fault

/-- The two nested loops over the arguments, read as one pass over the characters after the opening
parenthesis; `arg` is what is in `argBuf`. -/
def buildArgs (cmdBuf arg : CStr) : CStr → Checked CStr
  | [] => endArg cmdBuf arg
  | c :: cs =>
      if c = ch ',' then do
        let cmdBuf ← endArg cmdBuf arg
        buildArgs cmdBuf [] cs
      else if c = ch ')' then endArg cmdBuf arg
      else if c = ch ' ' then buildArgs cmdBuf arg cs
      else if arg.length < argBufSize then buildArgs cmdBuf (arg ++ [c]) cs
      else .fault

/-- What a call does: the command it hands to `send_rawcmd`, if it comes to that, and what it
returns. -/
structure PresetCall where
  sent : Option CStr
  rc : ℤ
  deriving DecidableEq

/-- The command up to its arguments. -/
def commandHead (devCmd tag pin : CStr) : CStr :=
  str "$WP+" ++ devCmd ++ str "+" ++ tag ++ str "=" ++ pin

/-- `execPresetFunc` -/
def execPresetFunc (sendRawcmd : CStr → ℤ) (presetString tag pin : CStr) : Checked PresetCall := do
  let tmpBuf ← copyToField presetBufSize presetString
  let name := (tmpBuf.take maxPresetName).takeWhile (· ≠ ch '(')
  if byteAt tmpBuf name.length = 0 ∨ maxPresetName ≤ name.length then return ⟨none, -1⟩
  match getDevcmdFromSrvcmd name 12 with
  | none => return ⟨none, -1⟩
  | some devCmd =>
      let cmdBuf := snprintf (presetBufSize - 1) (commandHead devCmd tag pin)
      let cmdBuf ← buildArgs cmdBuf [] (tmpBuf.drop (name.length + 1))
      return ⟨some cmdBuf, if sendRawcmd cmdBuf < 0 then -1 else 0⟩

/-! ## What is expected of a line -/

/-- The line `NAME(a1,...,an)`. -/
def presetLine (name : CStr) (args : List CStr) : CStr :=
  name ++ ch '(' :: ([ch ','].intercalate args ++ [ch ')'])

/-- An argument without its spaces. -/
def stripSpaces (arg : CStr) : CStr := arg.filter (· ≠ ch ' ')

/-- The command for a line. -/
def presetCommand (devCmd tag pin : CStr) (args : List CStr) : CStr :=
  joinOnto (ch ',') (commandHead devCmd tag pin) (args.map stripSpaces)

/-- **All arguments or nothing.**  The call stays inside its buffers, and it hands over the command
or returns -1 without handing over any. -/
def SendsWholeOrNothing (sendRawcmd : CStr → ℤ) (presetString tag pin cmd : CStr) : Prop :=
  ∃ call, execPresetFunc sendRawcmd presetString tag pin = .done call ∧
    (call.sent = some cmd ∨ (call.sent = none ∧ call.rc = -1))

/-- The line and its parts fit the buffers they are copied to. -/
structure FitsBuffers (name : CStr) (args : List CStr) (devCmd tag pin : CStr) : Prop where
  tmpBuf : (xmbStrncpy (presetLine name args) (presetBufSize - 1)).length < presetBufSize
  notCut : ∀ c ∈ (presetLine name args).drop
      (xmbStrncpy (presetLine name args) (presetBufSize - 1)).length, c = ch ' ' ∨ c = ch ')'
  argBuf : ∀ a ∈ args, (stripSpaces a).length < argBufSize
  cmdBuf : (presetCommand devCmd tag pin args).length < presetBufSize

/-! ## The arguments of a copied line -/

/-- The characters that count of what follows the opening parenthesis. -/
def argText (s : CStr) : CStr := (s.takeWhile (· ≠ ch ')')).filter (· ≠ ch ' ')

/-- The arguments that are found in what follows the opening parenthesis. -/
def argsOf (s : CStr) : List CStr := (argText s).splitOn (ch ',')

lemma xstrlcat_nil (dst : CStr) (size : ℕ) : xstrlcat dst [] size = dst := by
  rw [xstrlcat, List.append_nil]
  split_ifs
  · rfl
  · rfl
  · rfl

/-- The arguments appended one after the other, each through `argBuf`. -/
def appendArgs (cmdBuf : CStr) (args : List CStr) : Checked CStr :=
  if ∀ a ∈ args, a.length < argBufSize then
    .done (appendPieces (ch ',') presetBufSize cmdBuf args)
  else .fault

lemma appendArgs_singleton (cmdBuf arg : CStr) : appendArgs cmdBuf [arg] = endArg cmdBuf arg := by
  rw [appendArgs, endArg, appendPieces, List.foldl_cons, List.foldl_nil]
  simp only [List.mem_singleton, forall_eq]
  split_ifs with hlen hne
  · rfl
  · rw [not_not.mp hne, xstrlcat_nil]
  · rfl

lemma appendArgs_cons (cmdBuf arg : CStr) (args : List CStr) :
    appendArgs cmdBuf (arg :: args) = endArg cmdBuf arg >>= fun b => appendArgs b args := by
  rw [← appendArgs_singleton, appendArgs, appendArgs]
  simp only [List.forall_mem_cons, List.mem_singleton, forall_eq]
  by_cases hlen : arg.length < argBufSize
  · simp only [hlen, true_and, if_true, Checked.done_bind]
    rfl
  · simp only [hlen, false_and, if_false, Checked.fault_bind]

lemma argsOf_nil : argsOf [] = [[]] := rfl

lemma argsOf_comma (cs : CStr) : argsOf (ch ',' :: cs) = [] :: argsOf cs := by
  rw [argsOf, argText, List.takeWhile_cons_of_pos (by decide), List.filter_cons_of_pos (by decide),
    List.splitOn_cons_eq_if_modifyHead, if_pos (by decide)]
  rfl

lemma argsOf_end (cs : CStr) : argsOf (ch ')' :: cs) = [[]] := by
  rw [argsOf, argText, List.takeWhile_cons_of_neg (by decide)]
  rfl

lemma argsOf_space (cs : CStr) : argsOf (ch ' ' :: cs) = argsOf cs := by
  rw [argsOf, argText, List.takeWhile_cons_of_pos (by decide), List.filter_cons_of_neg (by decide)]
  rfl

lemma argsOf_cons {c : Byte} (hcomma : c ≠ ch ',') (hend : c ≠ ch ')') (hspace : c ≠ ch ' ')
    (cs : CStr) : argsOf (c :: cs) = (argsOf cs).modifyHead (c :: ·) := by
  rw [argsOf, argText, List.takeWhile_cons_of_pos (by simpa using hend),
    List.filter_cons_of_pos (by simpa using hspace), List.splitOn_cons_eq_if_modifyHead,
    if_neg (by simpa using hcomma)]
  rfl

lemma appendArgs_fault {cmdBuf : CStr} {args : List CStr} {a : CStr} (ha : a ∈ args)
    (hlen : ¬ a.length < argBufSize) : appendArgs cmdBuf args = .fault :=
  if_neg fun h => hlen (h a ha)

/-- **The loops append the arguments that are found.** -/
lemma buildArgs_eq (cmdBuf arg s : CStr) :
    buildArgs cmdBuf arg s = appendArgs cmdBuf ((argsOf s).modifyHead (arg ++ ·)) := by
  have hone (cmdBuf arg : CStr) :
      endArg cmdBuf arg = appendArgs cmdBuf ([[]].modifyHead (arg ++ ·)) := by
    rw [List.modifyHead_cons, List.append_nil, appendArgs_singleton]
  induction s generalizing cmdBuf arg with
  | nil => rw [buildArgs, argsOf_nil, hone]
  | cons c cs ih =>
      rw [buildArgs]
      split_ifs with hcomma hend hspace hroom
      · have hrest (b : CStr) : buildArgs b [] cs = appendArgs b (argsOf cs) := by
          rw [ih, modifyHead_nil_append]
        simp only [hrest]
        rw [hcomma, argsOf_comma, List.modifyHead_cons, List.append_nil, appendArgs_cons]
      · rw [hend, argsOf_end, hone]
      · rw [hspace, argsOf_space, ih]
      · have hmove : (fun a : CStr => arg ++ [c] ++ a) = (arg ++ ·) ∘ (c :: ·) := by
          funext a
          simp
        rw [argsOf_cons hcomma hend hspace, ih, List.modifyHead_modifyHead, hmove]
      · obtain ⟨a, as, has⟩ := List.exists_cons_of_ne_nil (List.splitOn_ne_nil (ch ',') (argText cs))
        rw [argsOf_cons hcomma hend hspace, argsOf, has, List.modifyHead_cons, List.modifyHead_cons,
          appendArgs_fault List.mem_cons_self]
        rw [List.length_append]
        omega

/-! ## The copy of the line -/

variable {name devCmd tag pin : CStr} {args : List CStr} {e : G7Command}

/-- What the loops are given of a line: a beginning of what follows its parenthesis. -/
lemma argText_append_end {s : CStr} (hs : ch ')' ∉ s) (k : ℕ) :
    argText ((s ++ [ch ')']).take k) = stripSpaces (s.take k) := by
  have hkeep : ∀ c ∈ s.take k, decide (c ≠ ch ')') = true :=
    fun c hc => decide_eq_true fun h => hs (h ▸ List.mem_of_mem_take hc)
  have hend (j : ℕ) : ([ch ')'].take j).takeWhile (· ≠ ch ')') = [] := by
    cases j with
    | zero => rfl
    | succ j => rfl
  rw [argText, List.take_append, List.takeWhile_append_of_pos hkeep, hend, List.append_nil,
    stripSpaces]

/-- The loops find the arguments without their spaces, exactly when nothing that counts is cut. -/
lemma stripSpaces_take_eq_iff {s : CStr} (hs : ch ')' ∉ s) (k : ℕ) :
    stripSpaces (s.take k) = stripSpaces s ↔
      ∀ c ∈ (s ++ [ch ')']).drop k, c = ch ' ' ∨ c = ch ')' := by
  have hsplit : stripSpaces s = stripSpaces (s.take k) ++ stripSpaces (s.drop k) := by
    rw [stripSpaces, stripSpaces, stripSpaces, ← List.filter_append, List.take_append_drop]
  rw [hsplit, List.self_eq_append_right, stripSpaces, List.filter_eq_nil_iff, List.drop_append]
  constructor
  · intro h c hc
    rcases List.mem_append.mp hc with hc | hc
    · exact Or.inl (by simpa using h c hc)
    · exact Or.inr (List.mem_singleton.mp (List.mem_of_mem_drop hc))
  · intro h c hc
    rcases h c (List.mem_append_left _ hc) with hspace | hparen
    · simpa using hspace
    · exact absurd (hparen ▸ List.mem_of_mem_drop hc) hs

/-- The arguments of a line, joined, without their spaces. -/
lemma splitOn_stripSpaces (hne : args ≠ []) (hcomma : ∀ a ∈ args, ch ',' ∉ a) :
    (stripSpaces ([ch ','].intercalate args)).splitOn (ch ',') = args.map stripSpaces := by
  obtain ⟨a, as, rfl⟩ := List.exists_cons_of_ne_nil hne
  have hjoin : stripSpaces ([ch ','].intercalate (a :: as))
      = [ch ','].intercalate ((a :: as).map stripSpaces) := by
    rw [List.map_cons, intercalate_eq_joinOnto, intercalate_eq_joinOnto, joinOnto, joinOnto,
      stripSpaces, List.filter_append, List.filter_flatMap, List.flatMap_map]
    rfl
  rw [hjoin, List.splitOn_intercalate _ ?_ (by simp)]
  intro f hf hmem
  obtain ⟨b, hb, rfl⟩ := List.mem_map.mp hf
  exact hcomma b hb (List.mem_filter.mp hmem).1

lemma joinOnto_splitOn (sep : Byte) (dst s : CStr) :
    joinOnto sep dst (s.splitOn sep) = dst ++ sep :: s := by
  obtain ⟨f, fs, hsplit⟩ := List.exists_cons_of_ne_nil (List.splitOn_ne_nil sep s)
  have hs : joinOnto sep f fs = s := by
    rw [← intercalate_eq_joinOnto, ← hsplit, List.intercalate_splitOn]
  rw [hsplit, joinOnto_cons, ← hs, joinOnto, joinOnto]
  simp

/-- What the arguments of a line look like. -/
structure LineArgs (args : List CStr) : Prop where
  ne_nil : args ≠ []
  comma : ∀ a ∈ args, ch ',' ∉ a
  paren : ∀ a ∈ args, ch ')' ∉ a
  nul : ∀ a ∈ args, (0 : Byte) ∉ a

lemma LineArgs.notMem_intercalate {c : Byte} (hc : ∀ a ∈ args, c ∉ a) (hsep : c ≠ ch ',') :
    c ∉ [ch ','].intercalate args := by
  intro h
  rcases mem_of_mem_intercalate h with hmem | ⟨a, ha, hmem⟩
  · exact hsep (List.mem_singleton.mp hmem)
  · exact hc a ha hmem

/-- The name of a line is found in its copy. -/
lemma takeWhile_name (hlen : name.length ≤ 7) (hname : ch '(' ∉ name) (rest : CStr) :
    ((name ++ ch '(' :: rest).take maxPresetName).takeWhile (· ≠ ch '(') = name := by
  have hkeep : ∀ c ∈ name, decide (c ≠ ch '(') = true :=
    fun c hc => decide_eq_true fun h => hname (h ▸ hc)
  obtain ⟨j, hj⟩ : ∃ j, maxPresetName - name.length = j + 1 :=
    ⟨maxPresetName - name.length - 1, by rw [maxPresetName]; omega⟩
  rw [List.take_append, List.take_of_length_le (by rw [maxPresetName]; omega), hj,
    List.take_succ_cons, List.takeWhile_append_of_pos hkeep,
    List.takeWhile_cons_of_neg (by decide), List.append_nil]

/-- **A call for a line whose copy fits its buffer.** -/
lemma execPresetFunc_line (sendRawcmd : CStr → ℤ) (tag pin : CStr) (he : e ∈ g7commandList)
    (hname : xstricmp name e.srvcmd = true) (hargs : LineArgs args)
    (htmp : (xmbStrncpy (presetLine name args) (presetBufSize - 1)).length < presetBufSize) :
    ∃ k, (presetLine name args).drop
          (xmbStrncpy (presetLine name args) (presetBufSize - 1)).length
        = ([ch ','].intercalate args ++ [ch ')']).drop k ∧
      execPresetFunc sendRawcmd (presetLine name args) tag pin =
        appendArgs (snprintf (presetBufSize - 1) (commandHead e.cmdstr tag pin))
            ((stripSpaces (([ch ','].intercalate args).take k)).splitOn (ch ',')) >>=
          fun cmdBuf => .done ⟨some cmdBuf, if sendRawcmd cmdBuf < 0 then -1 else 0⟩ := by
  obtain ⟨hlen, hletters⟩ := letters_of_xstricmp he hname
  have hopen : ch '(' ∉ name := fun h => absurd (hletters _ h).1 (by decide)
  have hzero : (0 : Byte) ∉ name := fun h => absurd (hletters _ h).1 (by decide)
  have hbody : ch ')' ∉ [ch ','].intercalate args :=
    LineArgs.notMem_intercalate hargs.paren (by decide)
  have hnul : (0 : Byte) ∉ presetLine name args := by
    have hmem : (0 : Byte) ∉ [ch ','].intercalate args :=
      LineArgs.notMem_intercalate hargs.nul (by decide)
    simp only [presetLine, List.mem_append, List.mem_cons, List.not_mem_nil, or_false, not_or]
    exact ⟨hzero, by decide, hmem, by decide⟩
  have htake := xmbStrncpy_eq_take (presetLine name args) (presetBufSize - 1)
  generalize hm : (xmbStrncpy (presetLine name args) (presetBufSize - 1)).length = m at htake htmp ⊢
  have hle : name.length + 1 ≤ m := by
    rw [← hm]
    refine (le_length_xmbStrncpy_iff hnul (by rw [presetBufSize]; omega)).mpr ?_
    simp only [presetLine, List.length_append, List.length_cons]
    omega
  obtain ⟨k, rfl⟩ := Nat.exists_eq_add_of_le hle
  -- the name and the parenthesis are in the copy
  have hsplit : (presetLine name args).take (name.length + 1 + k)
      = name ++ ch '(' :: ([ch ','].intercalate args ++ [ch ')']).take k := by
    rw [presetLine, Nat.add_assoc, List.take_length_add_append, Nat.add_comm 1 k,
      List.take_succ_cons]
  refine ⟨k, ?_, ?_⟩
  · rw [presetLine, Nat.add_assoc, List.drop_length_add_append, Nat.add_comm 1 k,
      List.drop_succ_cons]
  · have hcopy : copyToField presetBufSize (presetLine name args)
        = .done (name ++ ch '(' :: ([ch ','].intercalate args ++ [ch ')']).take k) := by
      rw [copyToField, htake, hsplit, ← hsplit, ← htake, hm]
      exact if_pos htmp
    have hat (rest : CStr) : byteAt (name ++ ch '(' :: rest) name.length = ch '(' := by
      rw [byteAt, List.getD_append_right _ _ _ _ (Nat.le_refl _), Nat.sub_self]
      rfl
    have hdrop (rest : CStr) : (name ++ ch '(' :: rest).drop (name.length + 1) = rest := by
      rw [List.drop_length_add_append]
      rfl
    have hdev : getDevcmdFromSrvcmd name 12 = some e.cmdstr :=
      getDevcmdFromSrvcmd_eq he hname (by decide)
    rw [execPresetFunc, hcopy, Checked.done_bind, takeWhile_name hlen hopen]
    dsimp only
    rw [hat, hdrop, hdev, if_neg (not_or.mpr ⟨by decide, by rw [maxPresetName]; omega⟩)]
    dsimp only
    rw [buildArgs_eq, modifyHead_nil_append, argsOf, argText_append_end hbody]
    rfl

/-- The command for a line, as one text. -/
lemma presetCommand_eq (hargs : LineArgs args) : presetCommand devCmd tag pin args =
    commandHead devCmd tag pin ++ ch ',' :: stripSpaces ([ch ','].intercalate args) := by
  rw [presetCommand, ← splitOn_stripSpaces hargs.ne_nil hargs.comma, joinOnto_splitOn]

lemma appendArgs_eq_done_iff {cmdBuf cmd : CStr} : appendArgs cmdBuf args = .done cmd ↔
    (∀ a ∈ args, a.length < argBufSize) ∧
      appendPieces (ch ',') presetBufSize cmdBuf args = cmd := by
  rw [appendArgs]
  split_ifs with hargs
  · rw [Checked.done.injEq]
    exact ⟨fun h => ⟨hargs, h⟩, fun h => h.2⟩
  · exact iff_of_false (fun h => by cases h) fun h => hargs h.1

/-- **Appending gives the command**, if and only if nothing that counts was cut, and the arguments
and the command fit. -/
lemma appendArgs_eq_iff {s : CStr} (head : CStr) (k : ℕ) :
    appendArgs (snprintf (presetBufSize - 1) head) ((stripSpaces (s.take k)).splitOn (ch ','))
        = .done (head ++ ch ',' :: stripSpaces s) ↔
      stripSpaces (s.take k) = stripSpaces s ∧
        (∀ a ∈ (stripSpaces s).splitOn (ch ','), a.length < argBufSize) ∧
        (head ++ ch ',' :: stripSpaces s).length < presetBufSize := by
  have hle : (stripSpaces (s.take k)).length ≤ (stripSpaces s).length :=
    ((List.take_prefix k s).filter _).length_le
  have hhead (h : (head ++ ch ',' :: stripSpaces s).length < presetBufSize) :
      snprintf (presetBufSize - 1) head = head := by
    rw [List.length_append, List.length_cons] at h
    exact snprintf_of_lt (by omega)
  have happend {t : CStr} (h : (head ++ ch ',' :: t).length < presetBufSize) :
      appendPieces (ch ',') presetBufSize head (t.splitOn (ch ',')) = head ++ ch ',' :: t := by
    rw [← joinOnto_splitOn] at h ⊢
    exact appendPieces_of_lt h
  rw [appendArgs_eq_done_iff]
  constructor
  · rintro ⟨hargs, hcmd⟩
    have hlt : (head ++ ch ',' :: stripSpaces s).length < presetBufSize := by
      rw [← hcmd]
      refine length_appendPieces_lt ?_
      rw [snprintf, List.length_take, presetBufSize]
      omega
    rw [hhead hlt, happend (by simp only [List.length_append, List.length_cons] at hlt ⊢; omega),
      List.append_cancel_left_eq, List.cons.injEq] at hcmd
    rw [hcmd.2] at hargs
    exact ⟨hcmd.2, hargs, hlt⟩
  · rintro ⟨htake, hargs, hlt⟩
    rw [htake, hhead hlt, happend hlt]
    exact ⟨hargs, rfl⟩

/-- **When a line is sent whole**: when it and its parts fit the buffers. -/
theorem sendsWholeOrNothing_iff (sendRawcmd : CStr → ℤ) (tag pin : CStr) (he : e ∈ g7commandList)
    (hname : xstricmp name e.srvcmd = true) (hargs : LineArgs args) :
    SendsWholeOrNothing sendRawcmd (presetLine name args) tag pin
        (presetCommand e.cmdstr tag pin args) ↔
      FitsBuffers name args e.cmdstr tag pin := by
  by_cases htmp : (xmbStrncpy (presetLine name args) (presetBufSize - 1)).length < presetBufSize
  · obtain ⟨k, hdrop, hrun⟩ := execPresetFunc_line sendRawcmd tag pin he hname hargs htmp
    have hparen : ch ')' ∉ [ch ','].intercalate args :=
      LineArgs.notMem_intercalate hargs.paren (by decide)
    have hsends : SendsWholeOrNothing sendRawcmd (presetLine name args) tag pin
          (presetCommand e.cmdstr tag pin args) ↔
        appendArgs (snprintf (presetBufSize - 1) (commandHead e.cmdstr tag pin))
            ((stripSpaces (([ch ','].intercalate args).take k)).splitOn (ch ','))
          = .done (presetCommand e.cmdstr tag pin args) := by
      rw [SendsWholeOrNothing, hrun]
      constructor
      · rintro ⟨call, hcall, hsent⟩
        obtain ⟨cmdBuf, hcmdBuf, hcall⟩ := Checked.bind_eq_done.mp hcall
        obtain rfl := Checked.done.inj hcall
        rcases hsent with hsent | ⟨hsent, -⟩
        · rw [hcmdBuf, Option.some.inj hsent]
        · cases hsent
      · intro hcmd
        rw [hcmd]
        exact ⟨_, rfl, Or.inl rfl⟩
    have hfits : FitsBuffers name args e.cmdstr tag pin ↔
        (∀ c ∈ ([ch ','].intercalate args ++ [ch ')']).drop k, c = ch ' ' ∨ c = ch ')') ∧
          (∀ a ∈ args, (stripSpaces a).length < argBufSize) ∧
          (presetCommand e.cmdstr tag pin args).length < presetBufSize := by
      rw [← hdrop]
      exact ⟨fun h => ⟨h.notCut, h.argBuf, h.cmdBuf⟩, fun h => ⟨htmp, h.1, h.2.1, h.2.2⟩⟩
    rw [hsends, hfits, presetCommand_eq hargs, appendArgs_eq_iff, stripSpaces_take_eq_iff hparen,
      splitOn_stripSpaces hargs.ne_nil hargs.comma, List.forall_mem_map]
  · refine iff_of_false ?_ fun h => htmp h.tmpBuf
    rintro ⟨call, hcall, -⟩
    rw [execPresetFunc, copyToField, if_neg htmp, Checked.fault_bind] at hcall
    cases hcall

/-- A short line is sent whole. -/
theorem shortLine_sent :
    SendsWholeOrNothing (fun _ => 0) (presetLine (str "Led") [str " 1", []]) (str "0001")
      (str "0000") (str "$WP+ELED+0001=0000,1,") :=
  (sendsWholeOrNothing_iff (fun _ => 0) (str "0001") (str "0000")
    (show (⟨str "led", str "ELED"⟩ : G7Command) ∈ g7commandList by decide +kernel)
    (by decide +kernel) ⟨by decide, by decide, by decide, by decide⟩).mpr
    ⟨by decide +kernel, by decide +kernel, by decide +kernel, by decide +kernel⟩

/-- A line of a command with a long argument and a shorter one. -/
def longLine : CStr :=
  presetLine (str "comm") [List.replicate 60 (ch '1'), List.replicate 50 (ch '2')]

/-- **The second argument is left out**, and its place in the command is empty.  An argument of 64
characters does not fit its buffer at all. -/
theorem longLine_shifts :
    execPresetFunc (fun _ => 0) longLine (str "0001") (str "0000")
        = .done ⟨some (str "$WP+COMMTYPE+0001=0000," ++ List.replicate 60 (ch '1') ++ str ","), 0⟩ ∧
      ¬ SendsWholeOrNothing (fun _ => 0) longLine (str "0001") (str "0000")
        (presetCommand (str "COMMTYPE") (str "0001") (str "0000")
          [List.replicate 60 (ch '1'), List.replicate 50 (ch '2')]) ∧
      execPresetFunc (fun _ => 0) (presetLine (str "led") [List.replicate 64 (ch '1')])
        (str "0001") (str "0000") = .fault := by
  have hrun : execPresetFunc (fun _ => 0) longLine (str "0001") (str "0000")
      = .done ⟨some (str "$WP+COMMTYPE+0001=0000," ++ List.replicate 60 (ch '1') ++ str ","), 0⟩ := by
    decide +kernel
  refine ⟨hrun, ?_, by decide +kernel⟩
  rintro ⟨call, hcall, hsent⟩
  obtain rfl := Checked.done.inj (hrun.symm.trans hcall)
  rcases hsent with hsent | ⟨hsent, -⟩
  · exact absurd (Option.some.inj hsent) (by decide +kernel)
  · cases hsent

end G7
