import G7Ctrl.Command.CmdArgs
import Mathlib.Data.FinEnum

/-!
# The prompt for a number

What a user may expect of the question for an `ARGT_INT`: a number is taken, a dot ends the command,
and after anything else there is an error and the question again.  The loop sets its flag only
before the first round, so after one reply that is no number it takes no number any more.

* `Recovers` — what is expected, over all replies to the question.
* `Recoverable` — at no point of the dialogue is there a number after a reply that was none, and no
  reply that fills the buffer for it.
* **`recovers_iff`** — exactly then the expectation is met.
* `numberAfterError_refused` — a number that is not taken after a typing error.
-/

namespace G7

/-- The reply is empty, or has digits only. -/
def AllDigits (reply : CStr) : Prop := ∀ c ∈ reply, isDigit c = true

instance (reply : CStr) : Decidable (AllDigits reply) := by
  unfold AllDigits
  infer_instance

/-- **What is expected of the prompt.**  `goOn` is what comes after the reply that is taken. -/
def Recovers (a : CmdArg) (goOn : CStr → ArgDialogue CStr) :
    List Reading → Turns Reading ArgEvent ℤ CStr → Prop
  | [], t => t = ⟨a.prompt, .waiting⟩
  | .bytes (c :: s) :: rest, t =>
      let reply := (Reading.bytes (c :: s)).typed
      if AllDigits reply then t = (goOn reply rest).after (a.prompt ++ [.takes reply reply])
      else if reply.head? = some (ch '.') then t.standing = .ended (-1)
      else ∃ quoted u, t = u.after (a.prompt ++ [.tells (errNotNumeric quoted)]) ∧
        Recovers a goOn rest u
  | _ :: _, _ => True

/-- The replies that the prompt copes with; `first` is set up to the first one that is not taken. -/
def Recoverable : Bool → List Reading → Prop
  | first, .bytes (c :: s) :: rest =>
      let reply := (Reading.bytes (c :: s)).typed
      if AllDigits reply then reply.length < replySize ∧ (first = true ∨ reply = [])
      else if reply.head? = some (ch '.') then True
      else reply.length ≤ replySize ∧
        (first = true → ¬ AllDigits (reply.take (replySize - 1))) ∧ Recoverable false rest
  | _, _ => True

instance : ∀ first inputs, Decidable (Recoverable first inputs)
  | _, [] => isTrue trivial
  | _, .timeout :: _ => isTrue trivial
  | _, .failed :: _ => isTrue trivial
  | _, .bytes [] :: _ => isTrue trivial
  | first, .bytes (c :: s) :: rest =>
      have := instDecidableRecoverable false rest
      inferInstanceAs (Decidable (
        if AllDigits (Reading.bytes (c :: s)).typed then
          (Reading.bytes (c :: s)).typed.length < replySize ∧
            (first = true ∨ (Reading.bytes (c :: s)).typed = [])
        else if (Reading.bytes (c :: s)).typed.head? = some (ch '.') then True
        else (Reading.bytes (c :: s)).typed.length ≤ replySize ∧
          (first = true → ¬ AllDigits ((Reading.bytes (c :: s)).typed.take (replySize - 1))) ∧
          Recoverable false rest))

/-! ## One reply -/

section

variable {a : CmdArg} {goOn : CStr → ArgDialogue CStr} {c : Byte} {s reply : CStr} {flag : Bool}

lemma scanDigits_eq (flag : Bool) (reply : CStr) :
    scanDigits flag reply = (flag && reply.all isDigit) := by
  induction reply generalizing flag with
  | nil => simp [scanDigits]
  | cons c cs ih =>
      rw [scanDigits, List.all_cons]
      cases flag with
      | false => rfl
      | true => rw [if_pos rfl, ih, Bool.true_and]

lemma scanDigits_iff : scanDigits flag reply = true ↔ flag = true ∧ AllDigits reply := by
  rw [scanDigits_eq, Bool.and_eq_true, List.all_eq_true, AllDigits]

lemma not_dot_of_allDigits (h : AllDigits reply) : reply.head? ≠ some (ch '.') := by
  intro hhead
  have hdigit := h _ (List.mem_of_mem_head? hhead)
  exact absurd hdigit (by decide)

lemma head?_take_reply : (reply.take (replySize - 1)).head? = reply.head? := by
  cases reply with
  | nil => rfl
  | cons c cs => rfl

lemma getArg_of_lt (h : replySize < (Reading.bytes (c :: s)).typed.length) :
    getArg replySize (.bytes (c :: s)) = .error (-1) :=
  if_pos h

lemma getArg_of_le (h : (Reading.bytes (c :: s)).typed.length ≤ replySize) :
    getArg replySize (.bytes (c :: s)) =
      .ok ((Reading.bytes (c :: s)).typed.take (replySize - 1)) :=
  if_neg (Nat.not_lt.mpr h)

/-- A reply that is too long ends the command. -/
lemma answerInt_of_lt (h : replySize < (Reading.bytes (c :: s)).typed.length) :
    answerInt flag (.bytes (c :: s)) = .stop [] (-1) := by
  rw [answerInt, onReply, getArg_of_lt h]

/-- A reply that begins with a dot ends the command. -/
lemma answerInt_of_dot (h : (Reading.bytes (c :: s)).typed.head? = some (ch '.')) :
    ∃ events, answerInt flag (.bytes (c :: s)) = .stop events (-1) := by
  rcases Nat.lt_or_ge replySize (Reading.bytes (c :: s)).typed.length with hlt | hle
  · exact ⟨[], answerInt_of_lt hlt⟩
  · refine ⟨[.tells errCmdInputAborted], ?_⟩
    rw [answerInt, onReply, getArg_of_le hle]
    exact if_pos (head?_take_reply.trans h)

/-- **A number is taken** when nothing but numbers came before it, or when it is empty. -/
lemma answerInt_accept (hle : (Reading.bytes (c :: s)).typed.length ≤ replySize)
    (hreply : (Reading.bytes (c :: s)).typed.take (replySize - 1) = reply)
    (hdigits : AllDigits reply) (hflag : flag = true ∨ reply = []) :
    answerInt flag (.bytes (c :: s)) =
      .accept [.takes (Reading.bytes (c :: s)).typed reply] reply := by
  rw [answerInt, onReply, getArg_of_le hle, hreply]
  dsimp only
  rw [if_neg (not_dot_of_allDigits hdigits)]
  by_cases hnil : reply = []
  · rw [if_pos hnil]
    rfl
  · rw [if_neg hnil, if_pos (scanDigits_iff.mpr ⟨hflag.resolve_right hnil, hdigits⟩)]
    rfl

/-- **Anything else is answered with an error**, and from then on the flag is not set. -/
lemma answerInt_again (hle : (Reading.bytes (c :: s)).typed.length ≤ replySize)
    (hreply : (Reading.bytes (c :: s)).typed.take (replySize - 1) = reply)
    (hdot : reply.head? ≠ some (ch '.')) (hne : reply ≠ [])
    (hflag : ¬ (flag = true ∧ AllDigits reply)) :
    answerInt flag (.bytes (c :: s)) = .again [.tells (errNotNumeric reply)] false := by
  have hscan : scanDigits flag reply = false := by
    rw [← Bool.not_eq_true, scanDigits_iff]
    exact hflag
  rw [answerInt, onReply, getArg_of_le hle, hreply]
  dsimp only
  rw [if_neg hdot, if_neg hne, hscan, if_neg Bool.false_ne_true]

/-! ## All replies -/

/-- The turns begin with different events. -/
lemma after_ne_after {u v : ArgEvent} {t t' : Turns Reading ArgEvent ℤ CStr} (h : u ≠ v) :
    t.after (a.prompt ++ [u]) ≠ t'.after (a.prompt ++ [v]) := by
  intro heq
  have htrace := congrArg Turns.trace heq
  rw [Turns.trace_after, Turns.trace_after, List.append_assoc, List.append_assoc,
    List.append_cancel_left_eq] at htrace
  exact h (List.cons.inj htrace).1

lemma ended_ne_after {u : ArgEvent} {t : Turns Reading ArgEvent ℤ CStr} {rc : ℤ} :
    (⟨a.prompt ++ [], .ended rc⟩ : Turns Reading ArgEvent ℤ CStr) ≠ t.after (a.prompt ++ [u]) := by
  intro heq
  have htrace := congrArg Turns.trace heq
  rw [Turns.trace_after, List.append_assoc] at htrace
  simp at htrace

/-- A number is taken as it is when it fits the buffer and no error came before it. -/
lemma number_taken_iff (hr : (Reading.bytes (c :: s)).typed = reply) (hdigits : AllDigits reply)
    (rest : List Reading) :
    (Dialogue.retry a.prompt answerInt flag >>= goOn) (.bytes (c :: s) :: rest)
        = (goOn reply rest).after (a.prompt ++ [.takes reply reply]) ↔
      reply.length < replySize ∧ (flag = true ∨ reply = []) := by
  have htake : AllDigits (reply.take (replySize - 1)) :=
    fun d hd => hdigits d (List.mem_of_mem_take hd)
  rcases Nat.lt_or_ge replySize reply.length with hlt | hle
  · rw [Dialogue.retry_bind_stop (answerInt_of_lt (hr ▸ hlt))]
    exact iff_of_false ended_ne_after fun h => absurd h.1 (Nat.lt_asymm hlt)
  · by_cases hflag : flag = true ∨ reply = []
    · have hflag' : flag = true ∨ reply.take (replySize - 1) = [] :=
        hflag.imp_right fun hnil => by rw [hnil, List.take_nil]
      rw [Dialogue.retry_bind_accept (answerInt_accept (hr ▸ hle) (by rw [hr]) htake hflag'), hr]
      constructor
      · intro heq
        refine ⟨?_, hflag⟩
        by_contra hfull
        have hcut : reply.take (replySize - 1) ≠ reply := by
          intro hcut
          have hlen := congrArg List.length hcut
          rw [List.length_take] at hlen
          simp only [replySize] at hlen hfull
          omega
        exact after_ne_after (by simpa using hcut) heq
      · rintro ⟨hlt, -⟩
        rw [List.take_of_length_le (Nat.le_sub_one_of_lt hlt)]
    · have hne : reply ≠ [] := fun h => hflag (Or.inr h)
      have hne' : reply.take (replySize - 1) ≠ [] := by
        simpa [replySize] using hne
      rw [Dialogue.retry_bind_again (answerInt_again (hr ▸ hle) (by rw [hr])
        (not_dot_of_allDigits htake) hne' fun h => hflag (Or.inl h.1))]
      exact iff_of_false (after_ne_after (by simp)) fun h => hflag h.2

/-- **Anything else is answered with an error** when it fits the buffer, and is not cut to a
number. -/
lemma error_answered_iff (hr : (Reading.bytes (c :: s)).typed = reply) (hdigits : ¬ AllDigits reply)
    (hdot : reply.head? ≠ some (ch '.')) (rest : List Reading)
    {p : Turns Reading ArgEvent ℤ CStr → Prop} :
    (∃ quoted u, (Dialogue.retry a.prompt answerInt flag >>= goOn) (.bytes (c :: s) :: rest)
        = u.after (a.prompt ++ [.tells (errNotNumeric quoted)]) ∧ p u) ↔
      reply.length ≤ replySize ∧
        (flag = true → ¬ AllDigits (reply.take (replySize - 1))) ∧
        p ((Dialogue.retry a.prompt answerInt false >>= goOn) rest) := by
  have hne : reply ≠ [] := by
    rintro rfl
    exact hdigits fun d hd => absurd hd List.not_mem_nil
  have hne' : reply.take (replySize - 1) ≠ [] := by
    simpa [replySize] using hne
  rcases Nat.lt_or_ge replySize reply.length with hlt | hle
  · rw [Dialogue.retry_bind_stop (answerInt_of_lt (hr ▸ hlt))]
    refine iff_of_false ?_ fun h => absurd h.1 (Nat.not_le_of_lt hlt)
    rintro ⟨quoted, u, heq, -⟩
    exact ended_ne_after heq
  · by_cases hflag : flag = true ∧ AllDigits (reply.take (replySize - 1))
    · rw [Dialogue.retry_bind_accept
        (answerInt_accept (hr ▸ hle) (by rw [hr]) hflag.2 (Or.inl hflag.1))]
      refine iff_of_false ?_ fun h => h.2.1 hflag.1 hflag.2
      rintro ⟨quoted, u, heq, -⟩
      exact after_ne_after (by simp) heq
    · rw [Dialogue.retry_bind_again (answerInt_again (hr ▸ hle) (by rw [hr])
        (by rwa [head?_take_reply]) hne' hflag)]
      constructor
      · rintro ⟨quoted, u, heq, hu⟩
        have htells : quoted = reply.take (replySize - 1) := by
          by_contra hquoted
          exact after_ne_after (by simpa [errNotNumeric] using Ne.symm hquoted) heq
        rw [htells, Turns.after_inj] at heq
        exact ⟨hle, fun h h' => hflag ⟨h, h'⟩, heq ▸ hu⟩
      · rintro ⟨-, -, hp⟩
        exact ⟨_, _, rfl, hp⟩

/-- The loop from a round on in which the flag is `flag`. -/
lemma recovers_retry_iff (inputs : List Reading) :
    Recovers a goOn inputs ((Dialogue.retry a.prompt answerInt flag >>= goOn) inputs) ↔
      Recoverable flag inputs := by
  induction inputs generalizing flag with
  | nil => exact iff_of_true rfl trivial
  | cons reading rest ih =>
      match reading with
      | .timeout => exact iff_of_true trivial trivial
      | .failed => exact iff_of_true trivial trivial
      | .bytes [] => exact iff_of_true trivial trivial
      | .bytes (c :: s) =>
          rw [Recovers, Recoverable]
          split_ifs with hdigits hdot
          · exact number_taken_iff rfl hdigits rest
          · obtain ⟨events, hstop⟩ :
                ∃ events, answerInt flag (.bytes (c :: s)) = .stop events (-1) :=
              answerInt_of_dot hdot
            rw [Dialogue.retry_bind_stop hstop]
            exact iff_of_true rfl trivial
          · rw [← ih, error_answered_iff rfl hdigits hdot rest]

end

/-! ## Inside the command -/

/-- What `get_cmd_args` does after the reply for the argument at `i`. -/
def goOnAfter (maxlen i : ℕ) (p : CmdArgs) (argbuff reply : CStr) : ArgDialogue CStr :=
  storeReply maxlen i argbuff reply >>= fun b => collectArgs maxlen (i + 1) b (p.args.drop (i + 1))

/-- The dialogue, once the arguments before the one at `i` are there. -/
lemma getCmdArgs_append {maxlen cmdidx i : ℕ} {p : CmdArgs} {a : CmdArg} {argbuff : CStr}
    {before : List Reading} {trace : List ArgEvent} (hp : cmdArgsFor cmdidx = some p)
    (ha : p.args[i]? = some a)
    (hbefore : collectArgs maxlen 0 [] (p.args.take i) before = ⟨trace, .value argbuff []⟩)
    (inputs : List Reading) :
    getCmdArgs maxlen cmdidx (before ++ inputs) =
      ((askArg a >>= goOnAfter maxlen i p argbuff) inputs).after trace := by
  obtain ⟨hi, hget⟩ := List.getElem?_eq_some_iff.mp ha
  have hsplit : p.args = p.args.take i ++ a :: p.args.drop (i + 1) := by
    rw [← hget, List.getElem_cons_drop, List.take_append_drop]
  have hlen : (p.args.take i).length = i := by
    rw [List.length_take]
    omega
  rw [getCmdArgs_eq hp, hsplit, collectArgs_append,
    local_collectArgs.bind_append hbefore, hlen, Nat.zero_add, collectArgs_cons]
  rfl

/-- The dialogue, from the question for a number on. -/
lemma getCmdArgs_int {maxlen cmdidx i : ℕ} {p : CmdArgs} {a : CmdArg} {argbuff : CStr}
    {before : List Reading} {trace : List ArgEvent} (hp : cmdArgsFor cmdidx = some p)
    (ha : p.args[i]? = some a) (hint : a.type = .int)
    (hbefore : collectArgs maxlen 0 [] (p.args.take i) before = ⟨trace, .value argbuff []⟩)
    (inputs : List Reading) :
    getCmdArgs maxlen cmdidx (before ++ inputs) =
      ((Dialogue.retry a.prompt answerInt true >>= goOnAfter maxlen i p argbuff) inputs).after
        trace := by
  have hask : askArg a = Dialogue.retry a.prompt answerInt true := by
    rw [askArg, hint]
  rw [getCmdArgs_append hp ha hbefore, hask]

/-- **When the prompt recovers.** -/
theorem recovers_iff {maxlen cmdidx i : ℕ} {p : CmdArgs} {a : CmdArg} {argbuff : CStr}
    {before : List Reading} {trace : List ArgEvent} (hp : cmdArgsFor cmdidx = some p)
    (ha : p.args[i]? = some a) (hint : a.type = .int)
    (hbefore : collectArgs maxlen 0 [] (p.args.take i) before = ⟨trace, .value argbuff []⟩)
    (inputs : List Reading) :
    (∃ t, getCmdArgs maxlen cmdidx (before ++ inputs) = t.after trace ∧
        Recovers a (goOnAfter maxlen i p argbuff) inputs t) ↔
      Recoverable true inputs := by
  rw [getCmdArgs_int hp ha hint hbefore, ← recovers_retry_iff]
  constructor
  · rintro ⟨t, heq, ht⟩
    rwa [Turns.after_inj.mp heq]
  · intro h
    exact ⟨_, rfl, h⟩

/-- A mask typed at the second question of `phone`, after the first one is answered. -/
theorem recovers_phone : ∃ p a argbuff trace, cmdArgsFor 1 = some p ∧ p.args[1]? = some a ∧
    ∃ t, getCmdArgs 256 1 ([.bytes (str "1\r\n")] ++ [.bytes (str "x\r\n"), .bytes (str "\r\n")])
        = t.after trace ∧
      Recovers a (goOnAfter 256 1 p argbuff) [.bytes (str "x\r\n"), .bytes (str "\r\n")] t :=
  ⟨_, _, str "1", _, rfl, rfl, (recovers_iff rfl rfl rfl rfl _).mpr (by decide +kernel)⟩

/-- At the first question, the expectation is met only by replies that the prompt copes with. -/
lemma not_recovers_first {maxlen cmdidx : ℕ} {p : CmdArgs} {a : CmdArg} {inputs : List Reading}
    (hp : cmdArgsFor cmdidx = some p) (ha : p.args[0]? = some a) (hint : a.type = .int)
    (hbad : ¬ Recoverable true inputs) :
    ¬ ∃ t, getCmdArgs maxlen cmdidx inputs = t.after [] ∧
      Recovers a (goOnAfter maxlen 0 p []) inputs t := by
  have hbefore : collectArgs maxlen 0 [] (p.args.take 0) [] = ⟨[], .value [] []⟩ := rfl
  have hfirst := getCmdArgs_int hp ha hint hbefore inputs
  rintro ⟨t, hcall, ht⟩
  rw [List.nil_append, hcall, Turns.after_nil, Turns.after_nil] at hfirst
  rw [hfirst, recovers_retry_iff] at ht
  exact hbad ht

/-- **A number after a typing error is refused.**  At the first question of `config`, a device ID
with a letter in it, and then the right one. -/
theorem numberAfterError_refused : ∃ p a, cmdArgsFor 19 = some p ∧ p.args[0]? = some a ∧
    a.type = .int ∧ ¬ ∃ t,
      getCmdArgs 256 19 [.bytes (str "30000o0001\r\n"), .bytes (str "3000000001\r\n")]
          = t.after [] ∧
        Recovers a (goOnAfter 256 0 p [])
          [.bytes (str "30000o0001\r\n"), .bytes (str "3000000001\r\n")] t := by
  obtain ⟨p, a, hp, ha, hint⟩ :
      ∃ p a, cmdArgsFor 19 = some p ∧ p.args[0]? = some a ∧ a.type = .int :=
    ⟨_, _, rfl, rfl, rfl⟩
  have hbad : ¬ Recoverable true
      [.bytes (str "30000o0001\r\n"), .bytes (str "3000000001\r\n")] := by
    decide +kernel
  exact ⟨p, a, hp, ha, hint, not_recovers_first hp ha hint hbad⟩

end G7
