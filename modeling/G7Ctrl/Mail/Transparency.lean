import G7Ctrl.Core.Lines
import G7Ctrl.Mail.Sendmail

/-!
# Transparency of the mail data

A message ends with a line of a single dot, so a sender puts a dot before every line that begins
with one and the receiver takes it away again.  `smtp_sendmail` puts none.

* `receive` — what a receiver takes the message to be.
* `Transparent` — the terminator is the only line with a single dot, and the message arrives.
* **`transparent_iff_noDot`** — what arrives unstuffed is the message if and only if no line of it
  begins with a dot.
* **`noDot_messageLines`** — the lines of a message, by the texts of its handle.
* **`sendData_some`** — what follows the `DATA` command is the message and the terminator.
-/

namespace G7

/-! ## The receiver -/

/-- One leading dot is taken away. -/
def unstuff (line : CStr) : CStr := if line.head? = some (ch '.') then line.tail else line

/-- The lines before the one with a single dot. -/
def receiveLines : List CStr → Option (List CStr)
  | [] => none
  | line :: lines =>
      if line = str "." then some [] else (receiveLines lines).map (unstuff line :: ·)

/-- The lines of a text, each with its end. -/
def withEnds (lines : List CStr) : CStr := lines.flatMap (· ++ crlf)

/-- What a receiver takes the message to be. -/
def receive (stream : CStr) : Option CStr := (receiveLines (linesOf stream)).map withEnds

/-- The stream has one terminator and the text arrives. -/
structure Transparent (stream text : CStr) : Prop where
  terminator : ∃ front, linesOf stream = front ++ [str ".", []] ∧ str "." ∉ front
  received : receive stream = some text

/-- No line of the text begins with a dot. -/
def NoDot (text : CStr) : Prop := ∀ line ∈ linesOf text, line.head? ≠ some (ch '.')

instance (text : CStr) : Decidable (NoDot text) :=
  inferInstanceAs (Decidable (∀ line ∈ linesOf text, line.head? ≠ some (ch '.')))

lemma withEnds_linesOf (body : CStr) : withEnds (linesOf body) = body ++ crlf := by
  have hjoin : ∀ {lines : List CStr}, lines ≠ [] →
      withEnds lines = crlf.intercalate lines ++ crlf := by
    intro lines
    induction lines with
    | nil => exact fun h => absurd rfl h
    | cons line lines ih =>
        intro _
        cases lines with
        | nil =>
            rw [List.intercalate_singleton]
            exact List.append_nil _
        | cons line' lines =>
            rw [List.intercalate_cons_cons, List.append_assoc, List.append_assoc,
              ← ih (List.cons_ne_nil _ _), ← List.append_assoc]
            rfl
  rw [hjoin (linesOf_ne_nil body), intercalate_linesOf]

lemma receiveLines_append {front : List CStr} (h : str "." ∉ front) (rest : List CStr) :
    receiveLines (front ++ str "." :: rest) = some (front.map unstuff) := by
  induction front with
  | nil => exact if_pos rfl
  | cons line front ih =>
      rw [List.mem_cons, not_or] at h
      rw [List.cons_append, receiveLines, if_neg (Ne.symm h.1), ih h.2]
      rfl

/-- Taking dots away makes a text shorter. -/
lemma length_withEnds_unstuff (lines : List CStr) :
    (withEnds (lines.map unstuff)).length ≤ (withEnds lines).length ∧
      ((withEnds (lines.map unstuff)).length = (withEnds lines).length →
        ∀ line ∈ lines, line.head? ≠ some (ch '.')) := by
  induction lines with
  | nil => exact ⟨le_rfl, fun _ => nofun⟩
  | cons line lines ih =>
      have hline : (unstuff line).length ≤ line.length ∧
          ((unstuff line).length = line.length → line.head? ≠ some (ch '.')) := by
        rw [unstuff]
        split_ifs with hdot
        · obtain ⟨rest, rfl⟩ := List.head?_eq_some_iff.mp hdot
          rw [List.tail_cons, List.length_cons]
          exact ⟨Nat.le_succ _, fun h => by omega⟩
        · exact ⟨le_rfl, fun _ => hdot⟩
      simp only [withEnds, List.map_cons, List.flatMap_cons, List.length_append] at ih ⊢
      refine ⟨by omega, fun h => List.forall_mem_cons.mpr ⟨hline.2 (by omega), ih.2 (by omega)⟩⟩

/-- **The message arrives** if and only if no line of it begins with a dot. -/
theorem transparent_iff_noDot (body : CStr) :
    Transparent (body ++ crlf ++ str ".\r\n") (body ++ crlf) ↔ NoDot body := by
  have hlines : linesOf (body ++ crlf ++ str ".\r\n") = linesOf body ++ [str ".", []] := by
    rw [List.append_assoc, linesOf_append_crlf]
    rfl
  have hdot {line : CStr} (h : line.head? ≠ some (ch '.')) : unstuff line = line := if_neg h
  constructor
  · rintro ⟨⟨front, hfront, hnone⟩, hreceived⟩
    rw [hlines] at hfront
    obtain rfl : linesOf body = front := List.append_cancel_right hfront
    rw [receive, hlines, receiveLines_append hnone, Option.map_some,
      ← withEnds_linesOf] at hreceived
    exact (length_withEnds_unstuff _).2 (congrArg List.length (Option.some.inj hreceived))
  · intro h
    have hnone : str "." ∉ linesOf body := fun hmem => h _ hmem rfl
    refine ⟨⟨_, hlines, hnone⟩, ?_⟩
    have hmap : (linesOf body).map unstuff = linesOf body := by
      rw [List.map_congr_left fun line hline => hdot (h line hline), List.map_id']
    rw [receive, hlines, receiveLines_append hnone, Option.map_some, hmap, withEnds_linesOf]

/-! ## Lines of parts -/

/-- A line end between two texts. -/
lemma noDot_append_crlf (a b : CStr) : NoDot (a ++ (crlf ++ b)) ↔ NoDot a ∧ NoDot b := by
  rw [NoDot, linesOf_append_crlf]
  exact List.forall_mem_append

/-- What is written line by line. -/
lemma noDot_withEnds (lines : List CStr) (h : lines ≠ []) :
    ∃ body, withEnds lines = body ++ crlf ∧ (NoDot body ↔ ∀ line ∈ lines, NoDot line) := by
  induction lines with
  | nil => exact absurd rfl h
  | cons line lines ih =>
      cases lines with
      | nil => exact ⟨line, List.append_nil _, by simp⟩
      | cons line' lines =>
          obtain ⟨body, hbody, hiff⟩ := ih (List.cons_ne_nil _ _)
          refine ⟨line ++ (crlf ++ body), ?_, ?_⟩
          · rw [withEnds, List.flatMap_cons, ← withEnds, hbody, List.append_assoc,
              List.append_assoc, List.append_assoc]
          · rw [noDot_append_crlf, hiff]
            exact List.forall_mem_cons.symm

/-- The same for all of it. -/
lemma noDot_withEnds_iff {lines : List CStr} (h : lines ≠ []) :
    NoDot (withEnds lines) ↔ ∀ line ∈ lines, NoDot line := by
  obtain ⟨body, hbody, hiff⟩ := noDot_withEnds lines h
  rw [hbody, ← List.append_nil crlf, noDot_append_crlf, hiff]
  exact and_iff_left (by decide)

/-- No line behind the first begins with a dot. -/
def NoDotBehind (text : CStr) : Prop := ∀ line ∈ (linesOf text).tail, line.head? ≠ some (ch '.')

instance (text : CStr) : Decidable (NoDotBehind text) :=
  inferInstanceAs (Decidable (∀ line ∈ (linesOf text).tail, line.head? ≠ some (ch '.')))

/-- A single line has nothing behind. -/
lemma noDotBehind_of_notMem {text : CStr} (h : cr ∉ text) : NoDotBehind text := by
  rw [NoDotBehind, linesOf_of_notMem h]
  exact List.forall_mem_nil _

lemma noDot_crlf (s : CStr) : NoDot (cr :: lf :: s) ↔ NoDot s := by
  rw [NoDot, linesOf_crlf, List.forall_mem_cons]
  exact and_iff_right nofun

lemma noDotBehind_crlf (s : CStr) : NoDotBehind (cr :: lf :: s) ↔ NoDot s := by
  rw [NoDotBehind, linesOf_crlf]
  rfl

/-- A character that begins no line end. -/
lemma noDot_cons {c : Byte} {s : CStr} (h : ¬ (c = cr ∧ s.head? = some lf)) :
    (NoDot (c :: s) ↔ c ≠ ch '.' ∧ NoDotBehind s) ∧
      (NoDotBehind (c :: s) ↔ NoDotBehind s) := by
  obtain ⟨l, ls, hs⟩ := List.exists_cons_of_ne_nil (linesOf_ne_nil s)
  rw [NoDot, NoDotBehind, NoDotBehind, linesOf_cons h, hs, List.modifyHead_cons,
    List.forall_mem_cons, List.head?_cons, Ne, Option.some_inj]
  exact ⟨Iff.rfl, Iff.rfl⟩

/-- A text cut off somewhere has no more lines with a dot. -/
theorem NoDot.of_append {a : CStr} (b : CStr) : NoDot (a ++ b) → NoDot a := by
  suffices h : (NoDot (a ++ b) → NoDot a) ∧ (NoDotBehind (a ++ b) → NoDotBehind a) from h.1
  induction a using linesOf_induction with
  | nil => exact ⟨fun _ => by decide, fun _ => nofun⟩
  | lineEnd s ih =>
      simp only [List.cons_append, noDot_crlf, noDotBehind_crlf]
      exact ⟨ih.1, ih.1⟩
  | cons c s h ih =>
      cases s with
      | nil =>
          refine ⟨fun hdot => (noDot_cons h).1.mpr ⟨?_, nofun⟩,
            fun _ => (noDot_cons h).2.mpr nofun⟩
          rintro rfl
          exact ((noDot_cons fun hcr => absurd hcr.1 (by decide)).1.mp hdot).1 rfl
      | cons d s =>
          have hab : ¬ (c = cr ∧ (d :: s ++ b).head? = some lf) := h
          rw [List.cons_append, (noDot_cons h).1, (noDot_cons h).2, (noDot_cons hab).1,
            (noDot_cons hab).2]
          exact ⟨fun hdot => ⟨hdot.1, ih.2 hdot.2⟩, ih.2⟩

lemma NoDot.snprintf {text : CStr} (h : NoDot text) (size : ℕ) : NoDot (G7.snprintf size text) :=
  NoDot.of_append (text.drop (size - 1)) (by rwa [G7.snprintf, List.take_append_drop])

/-- A text with a character in it that is part of no line end, nor a dot. -/
theorem noDot_append_cons {c : Byte} (hcr : c ≠ cr) (hlf : c ≠ lf) (hdot : c ≠ ch '.') (a b : CStr) :
    (NoDot (a ++ c :: b) ↔ NoDot a ∧ NoDotBehind b) ∧
      (NoDotBehind (a ++ c :: b) ↔ NoDotBehind a ∧ NoDotBehind b) := by
  have hnone : ¬ (c = cr ∧ b.head? = some lf) := fun h => hcr h.1
  induction a using linesOf_induction with
  | nil =>
      rw [List.nil_append, (noDot_cons hnone).1, (noDot_cons hnone).2]
      exact ⟨and_congr_left fun _ => iff_of_true hdot (by decide), (and_iff_right nofun).symm⟩
  | lineEnd a ih =>
      simp only [List.cons_append, noDot_crlf, noDotBehind_crlf]
      exact ⟨ih.1, ih.1⟩
  | cons d a h ih =>
      have hab : ¬ (d = cr ∧ (a ++ c :: b).head? = some lf) := by
        cases a with
        | nil => exact fun hend => hlf (Option.some.inj hend.2)
        | cons e a => exact h
      rw [List.cons_append, (noDot_cons hab).1, (noDot_cons hab).2, (noDot_cons h).1,
        (noDot_cons h).2, and_assoc, ih.2]
      exact ⟨Iff.rfl, Iff.rfl⟩

/-- What stands in front on the same line. -/
lemma noDotBehind_append {front : CStr} (hcr : cr ∉ front) (text : CStr) :
    NoDotBehind (front ++ text) ↔ NoDotBehind text := by
  obtain ⟨l, ls, htext⟩ := List.exists_cons_of_ne_nil (linesOf_ne_nil text)
  rw [NoDotBehind, NoDotBehind, linesOf_append_of_notMem hcr, htext]
  rfl

/-- A header line, by what stands behind its name. -/
lemma noDot_header {cmd : CStr} (hne : cmd ≠ []) (hcr : cr ∉ cmd)
    (hhead : cmd.head? ≠ some (ch '.')) (value : CStr) :
    NoDot (cmd ++ value) ↔ NoDotBehind value := by
  obtain ⟨l, ls, hvalue⟩ := List.exists_cons_of_ne_nil (linesOf_ne_nil value)
  rw [NoDot, NoDotBehind, linesOf_append_of_notMem hcr, hvalue, List.modifyHead_cons,
    List.tail_cons, List.forall_mem_cons, and_iff_right_iff_imp]
  intro _
  obtain ⟨c, cmd, rfl⟩ := List.exists_cons_of_ne_nil hne
  exact hhead

/-! ## The message -/

/-- A line of the header, if it is written. -/
def headerLine (cmd : CStr) (value : Option CStr) : List CStr := (value.map (cmd ++ ·)).toList

/-- What is written as the message, each followed by a line end. -/
def SmtpHandle.messageLines (handle : SmtpHandle) : List CStr :=
  headerLine (str "Date: ") handle.date ++
    headerLine (str "From: ") handle.sender ++
    headerLine (str "To: ") handle.toConcatenated ++
    headerLine (str "Cc: ") (handle.ccConcatenated.filter (· ≠ [])) ++
    headerLine (str "Subject: ") handle.subject ++
    headerLine (str "MIME-Version: ") (some handle.mimeversion) ++
    handle.contenttype.toList ++
    handle.contenttransferencoding.toList ++
    [str "\r\n"] ++
    handle.databuff.toList

/-- The message that was put together: the header and the `databuff`. -/
def SmtpHandle.messageText (handle : SmtpHandle) : CStr := withEnds handle.messageLines

/-- The texts that stand at the beginning of a line have no line that begins with a dot, and the
values of the header have none behind their first line. -/
structure SmtpHandle.DotFree (handle : SmtpHandle) : Prop where
  databuff : ∀ text ∈ handle.databuff, NoDot text
  contenttype : ∀ text ∈ handle.contenttype, NoDot text
  contenttransferencoding : ∀ text ∈ handle.contenttransferencoding, NoDot text
  date : ∀ value ∈ handle.date, NoDotBehind value
  sender : ∀ value ∈ handle.sender, NoDotBehind value
  toConcatenated : ∀ value ∈ handle.toConcatenated, NoDotBehind value
  ccConcatenated : ∀ value ∈ handle.ccConcatenated, NoDotBehind value
  subject : ∀ value ∈ handle.subject, NoDotBehind value
  mimeversion : NoDotBehind handle.mimeversion

lemma noDot_headerLine {cmd : CStr} (hne : cmd ≠ []) (hcr : cr ∉ cmd)
    (hhead : cmd.head? ≠ some (ch '.')) (value : Option CStr) :
    (∀ line ∈ headerLine cmd value, NoDot line) ↔ ∀ v ∈ value, NoDotBehind v := by
  cases value with
  | none => simp [headerLine]
  | some v => simp [headerLine, noDot_header hne hcr hhead]

lemma forall_mem_some {P : CStr → Prop} {text : CStr} : (∀ t ∈ some text, P t) ↔ P text := by
  simp

lemma forall_mem_toList {P : CStr → Prop} (value : Option CStr) :
    (∀ line ∈ value.toList, P line) ↔ ∀ v ∈ value, P v := by
  simp

/-- **The lines of the message**, by the texts of the mail. -/
theorem noDot_messageLines (handle : SmtpHandle) :
    (∀ line ∈ handle.messageLines, NoDot line) ↔ handle.DotFree := by
  have hblank : NoDot (str "\r\n") := by decide
  have hcc : (∀ v ∈ handle.ccConcatenated.filter (· ≠ []), NoDotBehind v) ↔
      ∀ v ∈ handle.ccConcatenated, NoDotBehind v := by
    refine forall_congr' fun v => ?_
    rw [Option.mem_filter_iff]
    by_cases hv : v = []
    · subst hv
      exact iff_of_true (fun _ => nofun) fun _ => nofun
    · simp [hv]
  simp only [SmtpHandle.messageLines, List.forall_mem_append, forall_mem_toList,
    List.forall_mem_singleton]
  rw [noDot_headerLine (by decide) (by decide) (by decide),
    noDot_headerLine (by decide) (by decide) (by decide),
    noDot_headerLine (by decide) (by decide) (by decide),
    noDot_headerLine (by decide) (by decide) (by decide),
    noDot_headerLine (by decide) (by decide) (by decide),
    noDot_headerLine (by decide) (by decide) (by decide), hcc]
  constructor
  · rintro ⟨⟨⟨⟨⟨⟨⟨⟨⟨hdate, hsender⟩, hto⟩, hcc⟩, hsubject⟩, hmime⟩, htype⟩, henc⟩, -⟩, hdata⟩
    exact ⟨hdata, htype, henc, hdate, hsender, hto, hcc, hsubject, hmime _ rfl⟩
  · intro h
    exact ⟨⟨⟨⟨⟨⟨⟨⟨⟨h.date, h.sender⟩, h.toConcatenated⟩, h.ccConcatenated⟩, h.subject⟩,
      fun v hv => Option.some.inj hv ▸ h.mimeversion⟩, h.contenttype⟩,
      h.contenttransferencoding⟩, hblank⟩, h.databuff⟩

/-! ## The text of a mail in HTML -/

lemma cr_notMem_hexLower (n : ℕ) : cr ∉ hexLower n := by
  have hdigit : ∀ d < 16, ch d.digitChar ≠ cr := by decide
  rw [hexLower]
  induction n using Nat.strong_induction_on with
  | _ n ih =>
      rw [Nat.toDigits_eq_if (by omega)]
      split_ifs with hn
      · simpa using (hdigit n hn).symm
      · rw [List.map_append, List.mem_append, not_or]
        exact ⟨ih _ (by omega), by simpa using (hdigit _ (Nat.mod_lt _ (by omega))).symm⟩

lemma length_hexLower (n : UInt32) : (hexLower n.toNat).length ≤ 8 := by
  rw [hexLower, List.length_map, Nat.length_toDigits_le_iff (by omega) (by omega)]
  exact n.toNat_lt

/-- A boundary is short and on one line. -/
lemma cr_notMem_mailBoundary (env : MailEnv) (k : ℕ) : cr ∉ mailBoundary env k := by
  refine fun hmem => absurd (List.mem_of_mem_take hmem) ?_
  have hunder : cr ∉ str "_" := by decide
  simp only [List.mem_append, cr_notMem_hexLower, env.hname_oneLine, hunder, or_self,
    not_false_eq_true]

lemma length_mailBoundary (env : MailEnv) (k : ℕ) : (mailBoundary env k).length ≤ 161 := by
  have hhname := env.hname_length
  have h₀ := length_hexLower (env.rand k)
  have h₁ := length_hexLower (env.rand (k + 1))
  have h₂ := length_hexLower (env.rand (k + 2))
  have h₃ := length_hexLower (env.rand (k + 3))
  have hunder : (str "_").length = 1 := by decide
  refine (List.length_take_le' _ _).trans ?_
  simp only [List.length_append, hunder]
  omega

/-- The lines of the text before the last boundary. -/
def alternativeLines (boundary plain html : CStr) : List CStr :=
  [str "--" ++ boundary, str "Content-Transfer-Encoding: 8bit",
    str "Content-Type: text/plain; charset=\"UTF-8\"", [], plain,
    str "--" ++ boundary, str "Content-Transfer-Encoding: 8bit",
    str "Content-Type: text/html; charset=\"UTF-8\"", [], html]

lemma alternativeText_eq (boundary plain html : CStr) :
    alternativeText boundary plain html = withEnds (alternativeLines boundary plain html) ++
      (str "--" ++ (boundary ++ str "--\r\n")) := by
  have hencoding : str "Content-Transfer-Encoding: 8bit\r\n" =
      str "Content-Transfer-Encoding: 8bit" ++ str "\r\n" := by
    rw [str_append_str]
    rfl
  have hplain : str "Content-Type: text/plain; charset=\"UTF-8\"\r\n\r\n" =
      str "Content-Type: text/plain; charset=\"UTF-8\"" ++ (str "\r\n" ++ str "\r\n") := by
    rw [str_append_str, str_append_str]
    rfl
  have hhtml : str "Content-Type: text/html; charset=\"UTF-8\"\r\n\r\n" =
      str "Content-Type: text/html; charset=\"UTF-8\"" ++ (str "\r\n" ++ str "\r\n") := by
    rw [str_append_str, str_append_str]
    rfl
  have hcrlf : str "\r\n" = crlf := rfl
  simp only [alternativeText, alternativeLines, withEnds, List.flatMap_cons, List.flatMap_nil,
    List.append_assoc, List.nil_append, hencoding, hplain, hhtml, hcrlf]

lemma length_withEnds_alternativeLines (boundary plain html : CStr) :
    (withEnds (alternativeLines boundary plain html)).length =
      html.length + plain.length + 2 * boundary.length + 167 := by
  have hdash : (str "--").length = 2 := by decide
  have hencoding : (str "Content-Transfer-Encoding: 8bit").length = 31 := by decide
  have hplain : (str "Content-Type: text/plain; charset=\"UTF-8\"").length = 41 := by decide
  have hhtml : (str "Content-Type: text/html; charset=\"UTF-8\"").length = 40 := by decide
  have hcrlf : crlf.length = 2 := rfl
  simp only [alternativeLines, withEnds, List.flatMap_cons, List.flatMap_nil, List.length_append,
    List.length_nil, hdash, hencoding, hplain, hhtml, hcrlf]
  omega

/-- A line with a boundary. -/
lemma noDot_boundary {boundary : CStr} (hboundary : cr ∉ boundary) :
    NoDot (str "--" ++ boundary) ∧ NoDot (str "--" ++ (boundary ++ str "--\r\n")) := by
  have hend : NoDotBehind (boundary ++ str "--\r\n") := by
    have hdash : cr ∉ boundary ++ str "--" := by
      rw [List.mem_append, not_or]
      exact ⟨hboundary, by decide⟩
    have hsplit : boundary ++ str "--\r\n" = boundary ++ str "--" ++ (crlf ++ []) := by
      rw [List.append_assoc]
      rfl
    rw [NoDotBehind, hsplit, linesOf_append_crlf, linesOf_of_notMem hdash]
    exact List.forall_mem_singleton.mpr (by decide)
  exact ⟨(noDot_header (by decide) (by decide) (by decide) _).mpr (noDotBehind_of_notMem hboundary),
    (noDot_header (by decide) (by decide) (by decide) _).mpr hend⟩

/-- The content type has the boundary between quotes. -/
lemma noDot_multipart (env : MailEnv) {cmd : CStr} (hne : cmd ≠ []) (hcr : cr ∉ cmd)
    (hhead : cmd.head? ≠ some (ch '.')) :
    NoDot (snprintf 1024 (cmd ++ mailBoundary env 0 ++ str "\"")) := by
  refine NoDot.snprintf ?_ 1024
  have hquote : cr ∉ mailBoundary env 0 ++ str "\"" := by
    rw [List.mem_append, not_or]
    exact ⟨cr_notMem_mailBoundary env 0, by decide⟩
  rw [List.append_assoc, noDot_header hne hcr hhead]
  exact noDotBehind_of_notMem hquote

/-- **The `databuff` of a mail in HTML**: what may be cut off is in the last boundary. -/
theorem noDot_htmlMail (env : MailEnv) (handle : SmtpHandle) (plain html : CStr) :
    (∀ text ∈ (htmlMail env handle plain html).databuff, NoDot text) ↔
      NoDot plain ∧ NoDot html := by
  have hboundary := cr_notMem_mailBoundary env 0
  have hlen := length_mailBoundary env 0
  have hfront := length_withEnds_alternativeLines (mailBoundary env 0) plain html
  obtain ⟨hline, hend⟩ := noDot_boundary hboundary
  obtain ⟨body, hbody, hiff⟩ := noDot_withEnds
    (alternativeLines (mailBoundary env 0) plain html) (List.cons_ne_nil _ _)
  have htail (k : ℕ) :
      NoDot ((str "--" ++ (mailBoundary env 0 ++ str "--\r\n")).take k) :=
    hend.snprintf (k + 1)
  have hencoding : NoDot (str "Content-Transfer-Encoding: 8bit") := by decide
  have hplain : NoDot (str "Content-Type: text/plain; charset=\"UTF-8\"") := by decide
  have hhtml : NoDot (str "Content-Type: text/html; charset=\"UTF-8\"") := by decide
  have hempty : NoDot [] := by decide
  have hlines : (∀ line ∈ alternativeLines (mailBoundary env 0) plain html, NoDot line) ↔
      NoDot plain ∧ NoDot html := by
    simp only [alternativeLines, List.forall_mem_cons, hline, hencoding, hplain, hhtml, hempty,
      true_and, List.not_mem_nil, false_implies, implies_true, and_true]
  rw [← hlines, ← hiff]
  have hdatabuff : (htmlMail env handle plain html).databuff = some (body ++ (crlf ++
      (str "--" ++ (mailBoundary env 0 ++ str "--\r\n")).take (html.length + plain.length + 511 -
        (withEnds (alternativeLines (mailBoundary env 0) plain html)).length))) := by
    refine congrArg some ?_
    rw [snprintf, alternativeText_eq, List.take_append, List.take_of_length_le (by omega), hbody,
      List.append_assoc]
    rfl
  rw [hdatabuff, forall_mem_some, noDot_append_crlf, and_iff_left (htail _)]

/-! ## The writes -/

lemma senddata_some {server : SmtpServer} {writes writes' : List (List Byte)}
    {cmd arg : Option CStr} (h : senddata server writes cmd arg = some writes') :
    ∃ c a, cmd = some c ∧ arg = some a ∧ writes' = writes ++ [c ++ a ++ crlf] := by
  cases cmd with
  | none => cases h
  | some c =>
      cases arg with
      | none => cases h
      | some a =>
          rw [senddata] at h
          split_ifs at h
          cases h
          exact ⟨c, a, rfl, rfl, rfl⟩

/-- A line with a value. -/
lemma senddata_header {server : SmtpServer} {writes writes' : List (List Byte)} {cmd : CStr}
    {value : Option CStr} (h : senddata server writes (some cmd) value = some writes') :
    writes' = writes ++ (headerLine cmd value).map (· ++ crlf) := by
  obtain ⟨c, a, hc, rfl, rfl⟩ := senddata_some h
  cases hc
  rfl

/-- A line by itself. -/
lemma senddata_line {server : SmtpServer} {writes writes' : List (List Byte)} {line : Option CStr}
    (h : senddata server writes line (some []) = some writes') :
    writes' = writes ++ line.toList.map (· ++ crlf) := by
  obtain ⟨c, a, rfl, ha, rfl⟩ := senddata_some h
  cases ha
  rw [List.append_nil]
  rfl

lemma sendCc_some {server : SmtpServer} {handle : SmtpHandle} {writes writes' : List (List Byte)}
    (h : sendCc server handle writes = some writes') :
    writes' = writes ++
      (headerLine (str "Cc: ") (handle.ccConcatenated.filter (· ≠ []))).map (· ++ crlf) := by
  rw [sendCc] at h
  cases hcc : handle.ccConcatenated with
  | none =>
      rw [hcc] at h
      cases h
      exact (List.append_nil _).symm
  | some cc =>
      rw [hcc] at h
      cases cc with
      | nil =>
          cases h
          exact (List.append_nil _).symm
      | cons c cc => exact senddata_header h

lemma sendEncoding_some {server : SmtpServer} {handle : SmtpHandle}
    {writes writes' : List (List Byte)} (h : sendEncoding server handle writes = some writes') :
    writes' = writes ++ handle.contenttransferencoding.toList.map (· ++ crlf) := by
  rw [sendEncoding] at h
  cases henc : handle.contenttransferencoding with
  | none =>
      rw [henc] at h
      cases h
      exact (List.append_nil _).symm
  | some encoding =>
      rw [henc] at h
      exact senddata_line h

/-- **The message is written line by line**, with nothing put before a dot. -/
theorem sendMessage_some {server : SmtpServer} {handle : SmtpHandle}
    {writes writes' : List (List Byte)} (h : sendMessage server handle writes = some writes') :
    writes' = writes ++ handle.messageLines.map (· ++ crlf) := by
  rw [sendMessage] at h
  obtain ⟨w₁, h₁, h⟩ := Option.bind_eq_some_iff.mp h
  obtain ⟨w₂, h₂, h⟩ := Option.bind_eq_some_iff.mp h
  obtain ⟨w₃, h₃, h⟩ := Option.bind_eq_some_iff.mp h
  obtain ⟨w₄, h₄, h⟩ := Option.bind_eq_some_iff.mp h
  obtain ⟨w₅, h₅, h⟩ := Option.bind_eq_some_iff.mp h
  obtain ⟨w₆, h₆, h⟩ := Option.bind_eq_some_iff.mp h
  obtain ⟨w₇, h₇, h⟩ := Option.bind_eq_some_iff.mp h
  obtain ⟨w₈, h₈, h⟩ := Option.bind_eq_some_iff.mp h
  obtain ⟨w₉, h₉, h⟩ := Option.bind_eq_some_iff.mp h
  obtain rfl := senddata_header h₁
  obtain rfl := senddata_header h₂
  obtain rfl := senddata_header h₃
  obtain rfl := sendCc_some h₄
  obtain rfl := senddata_header h₅
  obtain rfl := senddata_header h₆
  obtain rfl := senddata_line h₇
  obtain rfl := sendEncoding_some h₈
  obtain rfl := senddata_line h₉
  obtain rfl := senddata_line h
  simp only [SmtpHandle.messageLines, List.map_append, List.append_assoc]
  rfl

/-- A command that was accepted. -/
lemma sendchk_some {server : SmtpServer} {writes writes' : List (List Byte)} {cmd arg : CStr}
    {expected : ℕ} (h : sendchk server writes cmd arg expected = some writes') :
    writes' = writes ++
      [snprintf 255 (if arg = [] then cmd ++ str "\r\n" else cmd ++ arg ++ str "\r\n")] := by
  obtain ⟨-, hsome⟩ := Option.ite_none_right_eq_some.mp h
  exact (Option.some.inj hsome).symm

/-- It is not the `DATA` command if it begins otherwise. -/
lemma sendchk_ne_data {server : SmtpServer} {writes writes' : List (List Byte)} {c : Byte}
    {cmd arg : CStr} {expected : ℕ} (hc : c ≠ ch 'D')
    (h : sendchk server writes (c :: cmd) arg expected = some writes')
    (hwrites : str "DATA\r\n" ∉ writes) : str "DATA\r\n" ∉ writes' := by
  rw [sendchk_some h, List.mem_append, not_or, List.mem_singleton]
  refine ⟨hwrites, fun heq => hc ?_⟩
  have hhead := congrArg List.head? heq
  split_ifs at hhead
  · exact (Option.some.inj hhead).symm
  · exact (Option.some.inj hhead).symm

/-- So is a command with an address. -/
lemma sendaddr_ne_data {env : MailEnv} {server : SmtpServer} {writes writes' : List (List Byte)}
    {c : Byte} {cmd addr : CStr} (hc : c ≠ ch 'D')
    (h : sendaddr env server writes (c :: cmd) addr = .done (some writes'))
    (hwrites : str "DATA\r\n" ∉ writes) : str "DATA\r\n" ∉ writes' := by
  obtain ⟨r, -, h⟩ := Checked.bind_eq_done.mp h
  cases r with
  | none => cases h
  | some parts => exact sendchk_ne_data hc (Checked.done.inj h) hwrites

lemma sendrcpts_ne_data {env : MailEnv} {server : SmtpServer} {rcpts : List CStr}
    {writes writes' : List (List Byte)}
    (h : sendrcpts env server rcpts writes = .done (some writes'))
    (hwrites : str "DATA\r\n" ∉ writes) : str "DATA\r\n" ∉ writes' := by
  induction rcpts generalizing writes with
  | nil =>
      cases h
      exact hwrites
  | cons rcpt rcpts ih =>
      obtain ⟨r, hr, h⟩ := Checked.bind_eq_done.mp h
      cases r with
      | none => cases h
      | some w => exact ih h (sendaddr_ne_data (by decide) hr hwrites)

/-- What is written behind the `DATA` command, up to the end of the message. -/
def dataBytes (writes : List (List Byte)) : List Byte :=
  (writes.dropWhile (· ≠ str "DATA\r\n")).tail.dropLast.flatten

/-- **The bytes behind the `DATA` command** are the message and the terminator. -/
theorem sendData_some {server : SmtpServer} {handle : SmtpHandle}
    {writes writes' : List (List Byte)} (h : sendData server handle writes = some writes')
    (hwrites : str "DATA\r\n" ∉ writes) :
    dataBytes writes' = handle.messageText ++ str ".\r\n" := by
  rw [sendData] at h
  obtain ⟨w₁, h₁, h⟩ := Option.bind_eq_some_iff.mp h
  obtain ⟨w₂, h₂, h⟩ := Option.bind_eq_some_iff.mp h
  obtain ⟨w₃, h₃, h⟩ := Option.bind_eq_some_iff.mp h
  have hdata : w₁ = writes ++ [str "DATA\r\n"] := sendchk_some h₁
  have hdot : w₃ = w₂ ++ [str ".\r\n"] := sendchk_some h₃
  have hquit : writes' = w₃ ++ [str "QUIT\r\n"] := sendchk_some h
  have hskip : ∀ w ∈ writes, decide (w ≠ str "DATA\r\n") = true :=
    fun w hw => decide_eq_true fun heq => hwrites (heq ▸ hw)
  rw [hquit, hdot, sendMessage_some h₂, hdata, dataBytes, List.append_assoc, List.append_assoc,
    List.append_assoc, List.dropWhile_append_of_pos hskip, List.singleton_append,
    List.dropWhile_cons_of_neg (by simp), List.tail_cons,
    ← List.append_assoc (handle.messageLines.map _), List.dropLast_concat, List.flatten_append,
    SmtpHandle.messageText, withEnds, List.flatten_singleton]
  rfl

/-! ## Putting a mail together -/

/-- A mail without attachments is one of two. -/
lemma assembleMail_some {env : MailEnv} {handle handle' : SmtpHandle}
    (h : assembleMail env handle = .done (some handle')) (hattach : handle.attachment = []) :
    (∃ plain, handle.html = none ∧ handle.plain = some plain ∧ handle' = plainMail handle plain) ∨
      ∃ plain html, handle.html = some html ∧ handle.plain = some plain ∧
        handle' = htmlMail env handle plain html := by
  rw [assembleMail, hattach] at h
  cases hhtml : handle.html with
  | none =>
      rw [hhtml] at h
      cases hplain : handle.plain with
      | none =>
          rw [hplain] at h
          cases h
      | some plain =>
          rw [hplain] at h
          have hsome := Checked.done.inj h
          split_ifs at hsome
          exact .inl ⟨plain, rfl, rfl, (Option.some.inj hsome).symm⟩
  | some html =>
      rw [hhtml] at h
      cases html with
      | nil => cases h
      | cons c html =>
          cases hplain : handle.plain with
          | none =>
              rw [hplain] at h
              cases h
          | some plain =>
              rw [hplain] at h
              exact .inr ⟨plain, c :: html, rfl, rfl, (Option.some.inj (Checked.done.inj h)).symm⟩

/-! ## A server and a system -/

/-- A server that takes everything. -/
def willingServer : SmtpServer where
  sent _ text := text.length
  status writes :=
    if writes.getLast? = some (str "DATA\r\n") then some 354
    else if writes.getLast? = some (str "QUIT\r\n") then some 221
    else some 250

/-- A system at some time. -/
def someDay : MailEnv where
  date := some (str "Mon, 02 Feb 2015 10:00:00 +0100")
  hname := str "host"
  hname_length := by decide
  hname_oneLine := by decide
  rand k := k.toUInt32
  below := 0

end G7
