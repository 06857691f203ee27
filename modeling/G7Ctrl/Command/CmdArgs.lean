import G7Ctrl.Command.ArgTable
import G7Ctrl.Core.Dialogue
import G7Ctrl.Xstr.Append
import G7Ctrl.Xstr.Number
import G7Ctrl.Xstr.Trim

/-!
# Asking for the arguments of a command (`get_cmd_args`)

A user is asked for one argument after the other.  A reply that is not what the argument needs is
answered with an error and the question again; a reply that begins with a dot ends the command.  The
replies are put together in one buffer, with commas between them.

* `getArg`, `askArg`, `getCmdArgs` — the functions, as a dialogue over what can be read from the
  user.
* **`collectArgs_append`** — the arguments are asked for one after the other.
-/

namespace G7

/-! ## One reply -/

/-- What `select` and `socket_read` come to.  No bytes are read when the user has disconnected. -/
inductive Reading where
  | timeout
  | failed
  | bytes (s : List Byte)
  deriving DecidableEq

/-- What happens while arguments are asked for: a text is written to the user, or a reply is taken
as an argument; `typed` is the reply as the user has given it. -/
inductive ArgEvent where
  | tells (text : CStr)
  | takes (typed reply : CStr)
  deriving DecidableEq

/-- The dialogue with a user, which may end early with a return code. -/
abbrev ArgDialogue := Dialogue Reading ArgEvent ℤ

/-- `USER_DISCONNECT` -/
def userDisconnect : ℤ := -99

/-- `sizeof(reply)` -/
def replySize : ℕ := 64

/-- The reply in what was read. -/
def Reading.typed : Reading → CStr
  | .timeout => []
  | .failed => []
  | .bytes s => xstrtrimCrnl (xstrtrimCrnl (cstr s))

/-- `get_arg`, after the prompt: what it returns or leaves in `arg`. -/
def getArg (maxb : ℕ) : Reading → Except ℤ CStr
  | .timeout => .error (-1)
  | .failed => .error (-1)
  | .bytes [] => .error userDisconnect
  | .bytes (c :: s) =>
      let buffer := (Reading.bytes (c :: s)).typed
      if maxb < buffer.length then .error (-1) else .ok (buffer.take (maxb - 1))

/-! ## The kinds of arguments -/

/-- `ERR_CMD_INPUT_ABORTED` -/
def errCmdInputAborted : CStr := str "[ERR] Input aborted."

/-- What all kinds of arguments do with a reply: the command ends when there is none, or when it
begins with a dot. -/
def onReply {σ : Type} (reading : Reading) (f : CStr → Answer σ ArgEvent ℤ CStr) :
    Answer σ ArgEvent ℤ CStr :=
  match getArg replySize reading with
  | .error rc => .stop [] rc
  | .ok reply =>
      if reply.head? = some (ch '.') then .stop [.tells errCmdInputAborted] (-1) else f reply

/-- The reply is the argument. -/
def takeReply {σ : Type} (reading : Reading) (reply : CStr) : Answer σ ArgEvent ℤ CStr :=
  .accept [.takes reading.typed reply] reply

/-- The answer to a reply for an `ARGT_BOOL`. -/
def answerBool (_ : Unit) (reading : Reading) : Answer Unit ArgEvent ℤ CStr :=
  onReply reading fun reply =>
    if reply.length = 1 ∧ (reply.head? = some (ch '0') ∨ reply.head? = some (ch '1')) then
      takeReply reading reply
    else .again [] ()

/-- The answer to a reply for an `ARGT_STRING` or an `ARGT_FLOAT`. -/
def answerText (_ : Unit) (reading : Reading) : Answer Unit ArgEvent ℤ CStr :=
  onReply reading (takeReply reading)

/-- `while (j < len && isdigit)` -/
def scanDigits : Bool → CStr → Bool
  | isdigit, [] => isdigit
  | isdigit, c :: cs => if isdigit then scanDigits (isDigit c) cs else isdigit

/-- The error for a reply that is not a number. -/
def errNotNumeric (reply : CStr) : CStr :=
  str "Expected numeric value not \"" ++ reply ++ str "\"\n"

/-- The answer to a reply for an `ARGT_INT`; `isdigit` is what the round before has left. -/
def answerInt (isdigit : Bool) (reading : Reading) : Answer Bool ArgEvent ℤ CStr :=
  onReply reading fun reply =>
    if reply = [] then takeReply reading reply
    else if scanDigits isdigit reply then takeReply reading reply
    else .again [.tells (errNotNumeric reply)] (scanDigits isdigit reply)

/-- The answer to a reply for an `ARGT_SELECT`. -/
def answerSelect (a : CmdArg) (_ : Unit) (reading : Reading) : Answer Unit ArgEvent ℤ CStr :=
  onReply reading fun reply =>
    if reply = [] then takeReply reading reply
    else if reply ∈ a.values then takeReply reading reply
    else .again [.tells (str "Value \"" ++ reply ++ str "\" outside permissable range.\n")] ()

/-- The label and the description of an argument. -/
def CmdArg.question (a : CmdArg) : CStr := a.arglabel ++ str " - " ++ a.argdesc

/-- The question for an `ARGT_STRING`, an `ARGT_FLOAT` and an `ARGT_INT`. -/
def CmdArg.prompt (a : CmdArg) : List ArgEvent :=
  [.tells (a.question ++ str "?"), .tells crlf]

/-- `sizeof(info)` -/
def infoSize : ℕ := 64

/-- The values of a selection in `info`. -/
def selectInfo : CStr → List CStr → CStr
  | info, [] => xstrlcat info (str ")") infoSize
  | info, v :: vs =>
      let info := info ++ v.take (infoSize - info.length - 1)
      selectInfo (if vs = [] then info else xstrlcat info (str "/") infoSize) vs

/-- The alternatives that are listed before the question. -/
def CmdArg.alternatives (a : CmdArg) : List ArgEvent :=
  .tells (a.question ++ str "\n") ::
    (a.select.take a.nsel).map fun v => .tells (str "  " ++ v.val ++ str " - " ++ v.selectlabel ++
      str "\n")

/-- `AUTO_ENABLE_LABEL` -/
def autoEnableLabel : CStr := str "_Enabled"

/-- The `switch` on the kind of an argument. -/
def askArg (a : CmdArg) : ArgDialogue CStr :=
  match a.type with
  | .bool =>
      if a.arglabel = autoEnableLabel then
        Dialogue.say [.takes (str "1") (str "1")] (pure (str "1"))
      else
        Dialogue.say [.tells (a.question ++ str "\n   0 - Disable\n   1 - Enable\n")]
          (Dialogue.retry [.tells (str "Select (0/1) ?" ++ crlf)] answerBool ())
  | .string => Dialogue.retry a.prompt answerText ()
  | .float => Dialogue.retry a.prompt answerText ()
  | .int => Dialogue.retry a.prompt answerInt true
  | .select =>
      Dialogue.say a.alternatives
        (Dialogue.retry
          [.tells (str "Select " ++ selectInfo (str "(") a.values ++ str "?"), .tells crlf]
          (answerSelect a) ())

/-! ## All arguments -/

/-- What is done with the reply for the argument at `i`. -/
def storeReply (maxlen i : ℕ) (argbuff reply : CStr) : ArgDialogue CStr :=
  if maxlen ≤ argbuff.length + reply.length + 1 then Dialogue.fail (-1)
  else pure (xstrlcat (if 0 < i then xstrlcat argbuff [ch ','] maxlen else argbuff) reply maxlen)

/-- The loop over the arguments, from the one at `i` on. -/
def collectArgs (maxlen : ℕ) : ℕ → CStr → List CmdArg → ArgDialogue CStr
  | _, argbuff, [] => pure argbuff
  | i, argbuff, a :: args => do
      let reply ← askArg a
      let argbuff ← storeReply maxlen i argbuff reply
      collectArgs maxlen (i + 1) argbuff args

/-- `get_cmd_args`: the value is what is in `argbuff` when 0 is returned. -/
def getCmdArgs (maxlen cmdidx : ℕ) : ArgDialogue CStr :=
  match cmdArgsFor cmdidx with
  | none => Dialogue.fail (-1)
  | some p => collectArgs maxlen 0 [] p.args

/-! ## One argument after the other -/

section

variable {maxlen i : ℕ} {argbuff : CStr} {a : CmdArg} {args : List CmdArg}

lemma getCmdArgs_eq {cmdidx : ℕ} {p : CmdArgs} (hp : cmdArgsFor cmdidx = some p) :
    getCmdArgs maxlen cmdidx = collectArgs maxlen 0 [] p.args := by
  rw [getCmdArgs, hp]

lemma collectArgs_cons :
    collectArgs maxlen i argbuff (a :: args) = askArg a >>= fun reply =>
      storeReply maxlen i argbuff reply >>= fun b => collectArgs maxlen (i + 1) b args := rfl

/-- **The arguments are asked for one after the other.** -/
theorem collectArgs_append (args more : List CmdArg) :
    collectArgs maxlen i argbuff (args ++ more) = collectArgs maxlen i argbuff args >>= fun b =>
      collectArgs maxlen (i + args.length) b more := by
  induction args generalizing i argbuff with
  | nil => rw [List.nil_append, collectArgs, Dialogue.pure_bind, List.length_nil, Nat.add_zero]
  | cons a args ih =>
      rw [List.cons_append, collectArgs_cons, collectArgs_cons, Dialogue.bind_assoc]
      refine congrArg _ (funext fun reply => ?_)
      rw [Dialogue.bind_assoc]
      refine congrArg _ (funext fun b => ?_)
      rw [ih, List.length_cons, Nat.add_comm args.length 1, Nat.add_assoc]

lemma local_askArg (a : CmdArg) : (askArg a).Local := by
  rw [askArg]
  cases a.type with
  | bool =>
      dsimp only
      split_ifs
      · exact (Dialogue.local_pure _).say _
      · exact (Dialogue.local_retry _ _ _).say _
  | int => exact Dialogue.local_retry _ _ _
  | float => exact Dialogue.local_retry _ _ _
  | select => exact (Dialogue.local_retry _ _ _).say _
  | string => exact Dialogue.local_retry _ _ _

lemma local_storeReply (reply : CStr) : (storeReply maxlen i argbuff reply).Local := by
  by_cases hfull : maxlen ≤ argbuff.length + reply.length + 1
  · rw [storeReply, if_pos hfull]
    exact Dialogue.local_fail _
  · rw [storeReply, if_neg hfull]
    exact Dialogue.local_pure _

/-- What comes after the replies that are needed has no influence. -/
theorem local_collectArgs : (collectArgs maxlen i argbuff args).Local := by
  induction args generalizing i argbuff with
  | nil => exact Dialogue.local_pure _
  | cons a args ih =>
      exact (local_askArg a).bind fun reply => (local_storeReply reply).bind fun b => ih

end

end G7
