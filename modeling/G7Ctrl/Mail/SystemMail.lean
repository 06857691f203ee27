import G7Ctrl.Mail.QuotedPrintable
import G7Ctrl.Shell.Escaped
import G7Ctrl.Xstr.Append

/-!
# Mail with the system's mail command (`mailutil.c`)

`send_mail` puts the message and the subject between double quotes into a command line that it
hands to `system()`, after `escape_quotes` has put a backslash before each `"`.  The blocks it
allocates for the two texts have twice their length.

* `escapeQuotes`, `sendMail` — the functions.
* **`escapeQuotes_endsIff`** — `escape_quotes` stays inside such a block exactly when the text has
  a character other than `"`.
* `ExpandsInCommand` — the command line is whole, and the shell makes the message and the subject of
  the texts in it.
* `MailQuotable` — when it does so.
* **`expandsInCommand_iff`** — exactly then.
-/

namespace G7

/-- The loop of `escape_quotes`; `i` is also how far `tostr` has come. -/
def escapeQuotesLoop (maxlen : ℕ) (removeNr : Bool) :
    CStr → ℕ → List Byte → Checked (ℕ × List Byte)
  | [], i, tostr => return (i, tostr)
  | c :: fromstr, i, tostr =>
      if i < decSize maxlen then
        if c = ch '"' then do
          let tostr ← store tostr i (ch '\\')
          let tostr ← store tostr (i + 1) (ch '"')
          escapeQuotesLoop maxlen removeNr fromstr (i + 2) tostr
        else if removeNr && (c = lf || c = cr) then do
          let tostr ← store tostr i (ch ' ')
          escapeQuotesLoop maxlen removeNr fromstr (i + 1) tostr
        else do
          let tostr ← store tostr i c
          escapeQuotesLoop maxlen removeNr fromstr (i + 1) tostr
      else return (i, tostr)

/-- `escape_quotes` -/
def escapeQuotes (tostr : List Byte) (fromstr : CStr) (maxlen : ℕ) (removeNr : Bool) :
    Checked (List Byte) := do
  let (i, tostr) ← escapeQuotesLoop maxlen removeNr fromstr 0 tostr
  store tostr i 0

/-- `blen` -/
def mailBlen : ℕ := 20 * 1024

/-- What `send_mail` makes: the escaped texts, and what it hands to `system()`. -/
structure MailCommand where
  qmessage : CStr
  qsubject : CStr
  buffer : CStr

/-- `-r "%s" `, if there is a sender. -/
def senderOption : Option CStr → CStr
  | none | some [] => []
  | some sender => str "-r \"" ++ sender ++ str "\" "

/-- The text of the command line. -/
def mailText (sender : Option CStr) (toAddr qmessage qsubject : CStr) : CStr :=
  str "echo \"" ++ qmessage ++ str "\" | /usr/bin/mail " ++ senderOption sender ++ str "-s \"" ++
    qsubject ++ str "\" \"" ++ toAddr ++ str "\""

/-- `send_mail`, up to `system()`. -/
def sendMail (subject : CStr) (sender : Option CStr) (toAddr message : CStr) : Checked MailCommand := do
  let msglen2 := 2 * message.length
  let block ← escapeQuotes (List.replicate msglen2 0) message msglen2 false
  let qmessage ← readStr block
  let sublen2 := 2 * subject.length
  let block ← escapeQuotes (List.replicate sublen2 0) subject sublen2 true
  let qsubject ← readStr block
  return ⟨qmessage, qsubject, snprintf (mailBlen - 1) (mailText sender toAddr qmessage qsubject)⟩

/-- Line breaks as spaces. -/
def spaced (t : CStr) : CStr := t.map fun c => if c = lf || c = cr then ch ' ' else c

/-- `send_mail` stays inside its blocks and makes the whole command line, in which the shell expands
the two texts between double quotes to the message and to the subject on one line. -/
def ExpandsInCommand (subject : CStr) (sender : Option CStr) (toAddr message : CStr) : Prop :=
  ∃ qmessage qsubject,
    sendMail subject sender toAddr message
        = .done ⟨qmessage, qsubject, mailText sender toAddr qmessage qsubject⟩ ∧
      ExpandsTo qmessage message ∧ ExpandsTo qsubject (spaced subject)

/-- The message and the subject are quotable, each has a character other than `"`, and the command
line with its 32 other characters fits into the buffer. -/
structure MailQuotable (subject : CStr) (sender : Option CStr) (toAddr message : CStr) : Prop where
  message_room : ∃ c ∈ message, c ≠ ch '"'
  subject_room : ∃ c ∈ subject, c ≠ ch '"'
  fits : (message.length + message.count (ch '"')) + (subject.length + subject.count (ch '"')) +
    (senderOption sender).length + toAddr.length + 32 < mailBlen - 1
  message_quotable : Quotable message
  subject_quotable : Quotable (spaced subject)

/-! ## The blocks -/

/-- The text that is escaped. -/
def convertNr (removeNr : Bool) (t : CStr) : CStr := if removeNr then spaced t else t

@[simp] lemma convertNr_nil (removeNr : Bool) : convertNr removeNr [] = [] := by
  cases removeNr <;> rfl

lemma convertNr_cons (removeNr : Bool) (c : Byte) (cs : CStr) :
    convertNr removeNr (c :: cs)
      = (if removeNr && (c = lf || c = cr) then ch ' ' else c) :: convertNr removeNr cs := by
  cases removeNr <;> simp [convertNr, spaced]

@[simp] lemma length_spaced (t : CStr) : (spaced t).length = t.length := by simp [spaced]

/-- A `"` is no line break, and no line break becomes one. -/
lemma spaced_eq_quote {c : Byte} :
    (if c = lf || c = cr then ch ' ' else c) = ch '"' ↔ c = ch '"' := by
  split_ifs with hnr
  · have hc : c ≠ ch '"' := by
      rintro rfl
      exact absurd hnr (by decide)
    exact iff_of_false (by decide) hc
  · rfl

lemma count_spaced (t : CStr) : (spaced t).count (ch '"') = t.count (ch '"') := by
  induction t with
  | nil => rfl
  | cons c cs ih =>
      have hcons : spaced (c :: cs) = (if c = lf || c = cr then ch ' ' else c) :: spaced cs := rfl
      rw [hcons, List.count_cons, List.count_cons, ih]
      simp only [beq_iff_eq, spaced_eq_quote]

lemma count_convertNr (removeNr : Bool) (t : CStr) :
    (convertNr removeNr t).count (ch '"') = t.count (ch '"') := by
  cases removeNr with
  | false => rfl
  | true => exact count_spaced t

lemma length_convertNr (removeNr : Bool) (t : CStr) :
    (convertNr removeNr t).length = t.length := by
  cases removeNr with
  | false => rfl
  | true => exact length_spaced t

lemma convertNr_quote (removeNr : Bool) (cs : CStr) :
    convertNr removeNr (ch '"' :: cs) = ch '"' :: convertNr removeNr cs := by
  have hnr : ¬ (removeNr && (ch '"' = lf || ch '"' = cr)) = true := by
    cases removeNr <;> decide
  rw [convertNr_cons, if_neg hnr]

/-- **The loop** comes to the end of the text, with two bytes of room for each character. -/
lemma escapeQuotesLoop_eq (maxlen : ℕ) (removeNr : Bool) : ∀ (fromstr front rest : List Byte),
    front.length + rest.length = maxlen → 2 * fromstr.length ≤ rest.length →
      escapeQuotesLoop maxlen removeNr fromstr front.length (front ++ rest)
        = .done (front.length + (escaped (convertNr removeNr fromstr)).length,
            front ++ (escaped (convertNr removeNr fromstr) ++
              rest.drop (escaped (convertNr removeNr fromstr)).length))
  | [], front, rest, _, _ => by simp [escapeQuotesLoop]
  | c :: cs, front, rest, hmax, hroom => by
      rw [List.length_cons] at hroom
      obtain ⟨x, y, rest, rfl⟩ : ∃ x y tail, rest = x :: y :: tail := by
        match rest, hroom with
        | x :: y :: tail, _ => exact ⟨x, y, tail, rfl⟩
      simp only [List.length_cons] at hmax hroom
      have hlt : front.length < decSize maxlen := by
        rw [decSize, if_neg (by omega)]
        omega
      -- one byte is written, and is the text of its character
      have hone : ∀ b, b ≠ ch '"' → escapeQuotesLoop maxlen removeNr cs (front.length + 1)
          (front ++ b :: y :: rest) = .done (front.length +
            (escaped (b :: convertNr removeNr cs)).length,
              front ++ (escaped (b :: convertNr removeNr cs) ++
                (x :: y :: rest).drop (escaped (b :: convertNr removeNr cs)).length)) := by
        intro b hb
        have hrec := escapeQuotesLoop_eq maxlen removeNr cs (front ++ [b]) (y :: rest)
          (by simp; omega) (by simp; omega)
        rw [List.length_append, List.length_singleton, List.append_assoc,
          List.singleton_append] at hrec
        rw [escaped_cons hb, List.length_cons, hrec, Nat.add_assoc, Nat.add_comm 1]
        simp
      rw [escapeQuotesLoop, if_pos hlt]
      by_cases hq : c = ch '"'
      · subst hq
        have hrec := escapeQuotesLoop_eq maxlen removeNr cs (front ++ [ch '\\', ch '"']) rest
          (by simp; omega) (by omega)
        have hsecond : store (front ++ ch '\\' :: y :: rest) (front.length + 1) (ch '"')
            = .done (front ++ ch '\\' :: ch '"' :: rest) := by
          have hstore := store_append_length (front ++ [ch '\\']) y (ch '"') rest
          simpa using hstore
        rw [List.length_append, List.append_assoc] at hrec
        rw [if_pos rfl, store_append_length, Checked.done_bind, hsecond, Checked.done_bind,
          convertNr_quote, escaped_quote]
        refine hrec.trans ?_
        simp [Nat.add_assoc, Nat.add_comm 2]
      · rw [if_neg hq, convertNr_cons]
        split_ifs with hnr
        · rw [store_append_length, Checked.done_bind]
          exact hone _ (by decide)
        · rw [store_append_length, Checked.done_bind]
          exact hone c hq

/-- There is a character apart from one if it does not make up the text. -/
lemma count_lt_length_iff {c : Byte} {t : CStr} :
    t.count c < t.length ↔ ∃ d ∈ t, d ≠ c := by
  rw [lt_iff_le_and_ne, and_iff_right List.count_le_length, Ne, List.count_eq_length]
  simp [eq_comm]

/-- **`escape_quotes` stays inside a block of twice the length** exactly when there is a character
that it does not double, which leaves room for the NUL. -/
theorem escapeQuotes_endsIff (fromstr : CStr) (removeNr : Bool) :
    (escapeQuotes (List.replicate (2 * fromstr.length) 0) fromstr (2 * fromstr.length)
        removeNr).EndsIff (∃ c ∈ fromstr, c ≠ ch '"')
      (escaped (convertNr removeNr fromstr) ++ 0 ::
        List.replicate (2 * fromstr.length - (escaped (convertNr removeNr fromstr)).length - 1)
          0) := by
  have hloop := escapeQuotesLoop_eq (2 * fromstr.length) removeNr fromstr []
    (List.replicate (2 * fromstr.length) 0) (by simp) (by simp)
  have hlen := length_escaped (convertNr removeNr fromstr)
  rw [count_convertNr, length_convertNr] at hlen
  have hle : fromstr.count (ch '"') ≤ fromstr.length := List.count_le_length
  rw [List.length_nil, List.nil_append, List.nil_append, List.drop_replicate, Nat.zero_add] at hloop
  rw [escapeQuotes, hloop, Checked.done_bind, ← count_lt_length_iff]
  generalize escaped (convertNr removeNr fromstr) = e at hlen
  constructor
  · intro hroom
    obtain ⟨k, hk⟩ : ∃ k, 2 * fromstr.length - e.length = k + 1 :=
      ⟨2 * fromstr.length - e.length - 1, by omega⟩
    rw [hk, List.replicate_succ]
    exact store_append_length ..
  · intro hroom
    have hnone : 2 * fromstr.length - e.length = 0 := by omega
    rw [hnone, List.replicate_zero, List.append_nil]
    exact store_eq_fault le_rfl

/-- No NUL comes into a text. -/
lemma zero_notMem_escaped {t : CStr} (ht : (0 : Byte) ∉ t) (removeNr : Bool) :
    (0 : Byte) ∉ escaped (convertNr removeNr t) := by
  intro hmem
  have hconv := mem_of_mem_escaped (by decide) hmem
  cases removeNr with
  | false => exact ht hconv
  | true =>
      obtain ⟨c, hc, hzero⟩ := List.mem_map.mp hconv
      split_ifs at hzero
      · exact absurd hzero (by decide)
      · exact ht (hzero ▸ hc)

/-- The string that is made of a text. -/
lemma readStr_escapeQuotes {fromstr : CStr} (h : (0 : Byte) ∉ fromstr) (removeNr : Bool) :
    (escapeQuotes (List.replicate (2 * fromstr.length) 0) fromstr (2 * fromstr.length)
        removeNr >>= readStr).EndsIff (∃ c ∈ fromstr, c ≠ ch '"')
      (escaped (convertNr removeNr fromstr)) := by
  refine ((escapeQuotes_endsIff fromstr removeNr).bind fun _ => ?_).congr (and_true _).to_iff
  rw [readStr_append_nul (zero_notMem_escaped h removeNr)]
  exact Checked.EndsIff.of_done trivial

/-! ## The command line -/

/-- **`send_mail`** stays inside its blocks exactly when both texts have a character other
than `"`. -/
theorem sendMail_endsIff {subject message : CStr} (hs : (0 : Byte) ∉ subject)
    (hm : (0 : Byte) ∉ message) (sender : Option CStr) (toAddr : CStr) :
    (sendMail subject sender toAddr message).EndsIff
      ((∃ c ∈ message, c ≠ ch '"') ∧ ∃ c ∈ subject, c ≠ ch '"')
      ⟨escaped message, escaped (spaced subject), snprintf (mailBlen - 1)
        (mailText sender toAddr (escaped message) (escaped (spaced subject)))⟩ := by
  let command (qmessage qsubject : CStr) : MailCommand :=
    ⟨qmessage, qsubject, snprintf (mailBlen - 1) (mailText sender toAddr qmessage qsubject)⟩
  have hsend : sendMail subject sender toAddr message
      = (escapeQuotes (List.replicate (2 * message.length) 0) message (2 * message.length) false
          >>= readStr) >>= fun qmessage =>
        (escapeQuotes (List.replicate (2 * subject.length) 0) subject (2 * subject.length) true
          >>= readStr) >>= fun qsubject => .done (command qmessage qsubject) := by
    simp only [Checked.bind_assoc]
    rfl
  rw [hsend]
  refine (readStr_escapeQuotes hm false).bind fun _ => ?_
  exact (readStr_escapeQuotes hs true).map (command (escaped message))

lemma length_mailText (sender : Option CStr) (toAddr qmessage qsubject : CStr) :
    (mailText sender toAddr qmessage qsubject).length
      = qmessage.length + qsubject.length + (senderOption sender).length + toAddr.length + 32 := by
  have hecho : (str "echo \"").length = 6 := rfl
  have hmail : (str "\" | /usr/bin/mail ").length = 18 := rfl
  have hoption : (str "-s \"").length = 4 := rfl
  have hbetween : (str "\" \"").length = 3 := rfl
  have hend : (str "\"").length = 1 := rfl
  simp only [mailText, List.length_append, hecho, hmail, hoption, hbetween, hend]
  omega

/-- **The shell makes the message and the subject of the two texts exactly when they are quotable**,
do not fill their blocks and fit into the command line. -/
theorem expandsInCommand_iff {subject message : CStr} (sender : Option CStr) (toAddr : CStr)
    (hs : (0 : Byte) ∉ subject) (hm : (0 : Byte) ∉ message) :
    ExpandsInCommand subject sender toAddr message ↔
      MailQuotable subject sender toAddr message := by
  have hrun := sendMail_endsIff hs hm sender toAddr
  constructor
  · rintro ⟨qmessage, qsubject, hsend, hmessage, hsubject⟩
    have hroom := hrun.isDone_iff.mp ⟨_, hsend⟩
    rw [hrun.done hroom] at hsend
    injection hsend with heq
    injection heq with hqm hqs hbuffer
    subst hqm hqs
    rw [snprintf_eq_self_iff, length_mailText, length_escaped, length_escaped, count_spaced,
      length_spaced] at hbuffer
    refine ⟨hroom.1, hroom.2, ?_, (expandsTo_escaped_iff _).mp hmessage,
      (expandsTo_escaped_iff _).mp hsubject⟩
    simp only [mailBlen] at hbuffer ⊢
    omega
  · rintro ⟨hmroom, hsroom, hfits, hmessage, hsubject⟩
    refine ⟨escaped message, escaped (spaced subject), ?_,
      (expandsTo_escaped_iff _).mpr hmessage, (expandsTo_escaped_iff _).mpr hsubject⟩
    rw [hrun.done ⟨hmroom, hsroom⟩, snprintf_of_lt]
    rw [length_mailText, length_escaped, length_escaped, count_spaced, length_spaced]
    exact hfits

/-- A message in which something is quoted, and a subject on two lines. -/
theorem expandsInCommand_greeting :
    ExpandsInCommand (str "a\nb") none (str "joe") (str "say \"hi\"") :=
  (expandsInCommand_iff none (str "joe") (by decide) (by decide)).mpr
    ⟨⟨ch 's', by decide, by decide⟩, ⟨ch 'a', by decide, by decide⟩, by decide, by decide, by decide⟩

/-- **The name of a variable stays active**: the shell does not make it of the escaped text. -/
theorem variable_not_expandsInCommand :
    ¬ ExpandsInCommand (str "s") none (str "joe") (str "$HOME") := by
  rintro ⟨qmessage, qsubject, hsend, hmessage, -⟩
  have hs : (0 : Byte) ∉ str "s" := by decide
  have hm : (0 : Byte) ∉ str "$HOME" := by decide
  have hrun := (sendMail_endsIff hs hm none (str "joe")).done
    ⟨⟨ch 'H', by decide, by decide⟩, ⟨ch 's', by decide, by decide⟩⟩
  rw [hrun] at hsend
  injection hsend with heq
  injection heq with hqm
  rw [← hqm, expandsTo_escaped_iff] at hmessage
  exact absurd hmessage (by decide)

end G7
