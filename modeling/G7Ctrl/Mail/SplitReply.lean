import G7Ctrl.Xstr.Block
import G7Ctrl.Xstr.Number

/-!
# The replies of the mail server (`_smtp_split_reply`)

A reply has one or more lines, each of which begins with the same kind of status; behind the status
there is a space in the last line and a `-` in the others.

* `ReplyLine`, `renderReply` — a line of a reply, and the text of a reply.
* `smtpSplitReply` — the function, on the memory of the buffer from `pbuff` on.
* **`smtpSplitReply_render`** — it gives back the lines of a reply that fits into its array, and
  refuses any other.
-/

namespace G7

/-! ## A reply -/

/-- `struct smtp_reply` -/
structure SmtpReply where
  status : ℕ
  str : CStr
  deriving DecidableEq, Repr

/-- A line of a reply: a status of three digits and a text. -/
structure ReplyLine extends SmtpReply where
  status_lt : status < 1000
  str_length : str.length ≤ 254
  str_line : ∀ c ∈ str, c ≠ cr ∧ c ≠ lf ∧ c ≠ 0

/-- Three digits. -/
def threeDigits (n : ℕ) : CStr :=
  [ch (n / 100).digitChar, ch (n / 10 % 10).digitChar, ch (n % 10).digitChar]

/-- The text of a line, with its end. -/
def ReplyLine.render (l : ReplyLine) (last : Bool) : CStr :=
  threeDigits l.status ++ (if last then ch ' ' else ch '-') :: (l.str ++ crlf)

/-- The text of a reply. -/
def renderReply : List ReplyLine → CStr
  | [] => []
  | [l] => l.render true
  | l :: ls => l.render false ++ renderReply ls

/-! ## Splitting it -/

/-- The status that `pbuff` points at, if there is one. -/
def readStatus (mem : List Byte) : Checked (Option ℕ) := do
  let a ← load mem 0
  if isDigit a = true then do
    let b ← load mem 1
    if isDigit b = true then do
      let c ← load mem 2
      if isDigit c = true then
        return some ((a.toNat - 48) * 100 + (b.toNat - 48) * 10 + (c.toNat - 48))
      else return none
    else return none
  else return none

/-- The inner loop, with what is left of `n`, the memory from `pbuff` on, the array `reply` and the
place of `preply` in it. -/
def copyReply : ℕ → List Byte → List Byte → ℕ → Checked (ℕ × List Byte × List Byte × ℕ)
  | 0, mem, reply, preply => return (0, mem, reply, preply)
  | n + 1, mem, reply, preply => do
      let c ← load mem 0
      if c ≠ cr ∧ c ≠ lf then do
        let reply ← store reply preply c
        copyReply n (mem.drop 1) reply (preply + 1)
      else return (n + 1, mem, reply, preply)

/-- The loop over the lines, while `idx` is below `maxlen`; the first argument is how often it still
is. -/
def splitReplyLoop : ℕ → List Byte → List Byte → List (Option SmtpReply) → ℕ →
    Checked (ℤ × List (Option SmtpReply))
  | 0, _, _, replyList, _ => return (-1, replyList)
  | left + 1, mem, reply, replyList, idx => do
      match ← readStatus mem with
      | none => return (-1, replyList)
      | some status => do
          let c ← load mem 3
          let (n, mem, reply, preply) ← copyReply 255 (mem.drop 4) reply 0
          if n < 1 then return (-1, replyList)
          else do
            let reply ← store reply preply 0
            let text ← readStr reply
            let replyList ← store replyList idx (some ⟨status, text⟩)
            if ← atCrlf mem 0 then
              if c = ch ' ' then return ((idx + 1 : ℕ), replyList)
              else splitReplyLoop left (mem.drop 2) reply replyList (idx + 1)
            else return (-1, replyList)

/-- `_smtp_split_reply`, with the array of `maxlen` replies it leaves; `reply` is what its own array
contains before the first line. -/
def smtpSplitReply (buffer reply : List Byte) (maxlen : ℕ) :
    Checked (ℤ × List (Option SmtpReply)) :=
  splitReplyLoop maxlen buffer reply (List.replicate maxlen none) 0

example : smtpSplitReply (str "250-a\r\n250 bc\r\n") (List.replicate 255 0) 3 =
    .done (2, [some ⟨250, str "a"⟩, some ⟨250, str "bc"⟩, none]) := by
  decide +kernel

/-! ## A line -/

section

variable {mem reply rest : List Byte} {s : CStr}

/-- The three digits of a status are read as the status. -/
lemma readStatus_threeDigits {n : ℕ} (hn : n < 1000) (rest : List Byte) :
    readStatus (threeDigits n ++ rest) = .done (some n) := by
  have hhundreds : n / 100 < 10 := by omega
  have htens : n / 10 % 10 < 10 := Nat.mod_lt _ (by omega)
  have hones : n % 10 < 10 := Nat.mod_lt _ (by omega)
  have hvalue : (48 + n / 100 - 48) * 100 + (48 + n / 10 % 10 - 48) * 10 + (48 + n % 10 - 48) =
      n := by
    omega
  rw [readStatus, threeDigits]
  change (if isDigit (ch (n / 100).digitChar) = true then _ else _) = _
  rw [if_pos (isDigit_digitChar hhundreds)]
  change (if isDigit (ch (n / 10 % 10).digitChar) = true then _ else _) = _
  rw [if_pos (isDigit_digitChar htens)]
  change (if isDigit (ch (n % 10).digitChar) = true then _ else _) = _
  rw [if_pos (isDigit_digitChar hones), toNat_digitChar hhundreds, toNat_digitChar htens,
    toNat_digitChar hones, hvalue]
  rfl

/-- **The text of a line is copied**, up to the end of the line. -/
lemma copyReply_text (hs : ∀ c ∈ s, c ≠ cr ∧ c ≠ lf ∧ c ≠ 0) (rest front : List Byte)
    {back : List Byte} {n : ℕ} (hn : s.length < n) (hback : s.length ≤ back.length) :
    copyReply n (s ++ cr :: rest) (front ++ back) front.length =
      .done (n - s.length, cr :: rest, front ++ (s ++ back.drop s.length),
        front.length + s.length) := by
  induction s generalizing front back n with
  | nil =>
      obtain ⟨n, rfl⟩ := Nat.exists_eq_succ_of_ne_zero (Nat.ne_of_gt hn)
      rw [copyReply]
      rfl
  | cons c s ih =>
      obtain ⟨n, rfl⟩ := Nat.exists_eq_succ_of_ne_zero (Nat.ne_of_gt (Nat.zero_lt_of_lt hn))
      cases back with
      | nil => exact absurd hback (Nat.not_succ_le_zero _)
      | cons d back =>
          obtain ⟨hc, hs⟩ := List.forall_mem_cons.mp hs
          rw [List.length_cons] at hn
          rw [List.length_cons, List.length_cons] at hback
          rw [copyReply]
          change (if c ≠ cr ∧ c ≠ lf then _ else _) = _
          rw [if_pos ⟨hc.1, hc.2.1⟩, store_append_length, Checked.done_bind,
            show front ++ c :: back = (front ++ [c]) ++ back by
              rw [List.append_assoc, List.singleton_append]]
          change copyReply n (s ++ cr :: rest) _ (front.length + [c].length) = _
          rw [← List.length_append, ih hs _ (by omega) (by omega)]
          simp only [List.append_assoc, List.length_append, List.length_cons, List.length_nil,
            List.drop_succ_cons, List.cons_append, List.nil_append, Nat.succ_sub_succ]
          rw [Nat.add_assoc, Nat.zero_add, Nat.add_comm 1]

/-- **A line is put into the array.** -/
lemma splitReplyLoop_line (l : ReplyLine) (last : Bool) (rest : List Byte)
    (hreply : reply.length = 255) (front : List (Option SmtpReply)) (left : ℕ) :
    ∃ reply', reply'.length = 255 ∧
      splitReplyLoop (left + 1) (l.render last ++ rest) reply
          (front ++ List.replicate (left + 1) none) front.length =
        if last then
          .done ((front.length + 1 : ℕ), front ++ some l.toSmtpReply :: List.replicate left none)
        else splitReplyLoop left rest reply'
          (front ++ some l.toSmtpReply :: List.replicate left none) (front.length + 1) := by
  have hmem : l.render last ++ rest = threeDigits l.status ++
      ((if last then ch ' ' else ch '-') :: (l.str ++ cr :: lf :: rest)) := by
    simp only [ReplyLine.render, crlf, List.append_assoc, List.cons_append, List.nil_append]
  have hlen := l.str_length
  have hcopy := copyReply_text l.str_line (lf :: rest) [] (show l.str.length < 255 by omega)
    (show l.str.length ≤ reply.length by omega)
  obtain ⟨d, ds, hback⟩ : ∃ d ds, reply.drop l.str.length = d :: ds :=
    List.exists_cons_of_length_pos (by rw [List.length_drop]; omega)
  have hends : store (l.str ++ d :: ds) l.str.length 0 = .done (l.str ++ 0 :: ds) :=
    store_append_length _ _ _ _
  have htext : readStr (l.str ++ 0 :: ds) = .done l.str :=
    readStr_append_nul (fun hmem => (l.str_line 0 hmem).2.2 rfl) ds
  have hput : store (front ++ List.replicate (left + 1) none) front.length
      (some l.toSmtpReply) = .done (front ++ some l.toSmtpReply :: List.replicate left none) :=
    store_append_length _ _ _ _
  refine ⟨l.str ++ 0 :: ds, ?_, ?_⟩
  · have hdrop := congrArg List.length hback
    rw [List.length_drop, List.length_cons] at hdrop
    rw [List.length_append, List.length_cons]
    omega
  · rw [splitReplyLoop, hmem, readStatus_threeDigits l.status_lt, Checked.done_bind]
    change (copyReply 255 (l.str ++ cr :: lf :: rest) ([] ++ reply) ([] : List Byte).length >>= _) = _
    rw [hcopy, hback, Checked.done_bind]
    dsimp only
    rw [if_neg (by omega), List.nil_append, List.length_nil, Nat.zero_add, hends,
      Checked.done_bind, htext, Checked.done_bind]
    change (store _ front.length (some l.toSmtpReply) >>= _) = _
    rw [hput, Checked.done_bind]
    cases last with
    | false => rfl
    | true => rfl

/-! ## A reply in the memory -/

/-- **What the loop makes of the rest of a reply**, with the lines before it in the array. -/
lemma splitReplyLoop_render {lines : List ReplyLine} (hne : lines ≠ []) (after : List Byte)
    (hreply : reply.length = 255) (front : List (Option SmtpReply)) (left : ℕ) :
    (lines.length ≤ left →
      splitReplyLoop left (renderReply lines ++ after) reply
          (front ++ List.replicate left none) front.length =
        .done ((front.length + lines.length : ℕ),
          front ++ (lines.map fun l => some l.toSmtpReply) ++
            List.replicate (left - lines.length) none)) ∧
      (left < lines.length → ∃ replyList,
        splitReplyLoop left (renderReply lines ++ after) reply
          (front ++ List.replicate left none) front.length = .done (-1, replyList)) := by
  induction lines generalizing reply front left with
  | nil => exact absurd rfl hne
  | cons l ls ih =>
      cases left with
      | zero => exact ⟨nofun, fun _ => ⟨_, rfl⟩⟩
      | succ left =>
          cases ls with
          | nil =>
              obtain ⟨reply', -, hline⟩ :=
                splitReplyLoop_line l true after hreply front left
              refine ⟨fun _ => ?_, fun hlt => absurd hlt (by simp)⟩
              rw [if_pos rfl] at hline
              rw [renderReply, hline, List.append_assoc]
              rfl
          | cons l' ls =>
              obtain ⟨reply', hreply', hline⟩ :=
                splitReplyLoop_line l false (renderReply (l' :: ls) ++ after) hreply front left
              have hsnoc : front ++ some l.toSmtpReply :: List.replicate left none =
                  (front ++ [some l.toSmtpReply]) ++ List.replicate left none := by
                rw [List.append_assoc, List.singleton_append]
              have hsucc : front.length + 1 = (front ++ [some l.toSmtpReply]).length := by
                rw [List.length_append, List.length_singleton]
              rw [if_neg Bool.false_ne_true, hsnoc, hsucc] at hline
              obtain ⟨hfits, hlong⟩ := ih (List.cons_ne_nil _ _) hreply'
                (front ++ [some l.toSmtpReply]) left
              rw [renderReply, List.append_assoc, hline]
              · refine ⟨fun hle => ?_, fun hlt => hlong (Nat.lt_of_succ_lt_succ hlt)⟩
                rw [hfits (Nat.le_of_succ_le_succ hle), ← hsucc, List.length_cons (a := l),
                  Nat.succ_sub_succ, List.map_cons (a := l), Nat.add_assoc,
                  Nat.add_comm 1, List.append_assoc front]
                rfl
              · exact List.cons_ne_nil _ _

end

/-- **A reply that fits into the array is split into its lines**, whatever comes behind it, and one
that has more lines is refused. -/
theorem smtpSplitReply_render (lines : List ReplyLine) (hne : lines ≠ []) (after : List Byte)
    (reply : List Byte) (hreply : reply.length = 255) (maxlen : ℕ) :
    (lines.length ≤ maxlen →
      smtpSplitReply (renderReply lines ++ after) reply maxlen =
        .done (lines.length, (lines.map fun l => some l.toSmtpReply) ++
          List.replicate (maxlen - lines.length) none)) ∧
      (maxlen < lines.length → ∃ replyList,
        smtpSplitReply (renderReply lines ++ after) reply maxlen = .done (-1, replyList)) := by
  obtain ⟨hfits, hlong⟩ := splitReplyLoop_render hne after hreply [] maxlen
  refine ⟨fun hle => ?_, hlong⟩
  rw [List.nil_append, List.length_nil, Nat.zero_add, List.nil_append] at hfits
  exact hfits hle

/-- The reply to `EHLO`. -/
def ehloReply : List ReplyLine :=
  [⟨⟨250, str "mail.example"⟩, by decide, by decide +kernel, by decide +kernel⟩,
    ⟨⟨250, str "AUTH LOGIN"⟩, by decide, by decide +kernel, by decide +kernel⟩]

theorem smtpSplitReply_ehlo : ehloReply ≠ [] ∧ (List.replicate 255 (0 : Byte)).length = 255 ∧
    smtpSplitReply (renderReply ehloReply ++ [0]) (List.replicate 255 0) 64 =
      .done (2, (ehloReply.map fun l => some l.toSmtpReply) ++ List.replicate 62 none) :=
  ⟨nofun, List.length_replicate,
    (smtpSplitReply_render ehloReply nofun [0] _ List.length_replicate 64).1 (by decide)⟩

end G7
