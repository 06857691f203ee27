import G7Ctrl.Mail.Transparency
import G7Ctrl.Xstr.Append
import G7Ctrl.Xstr.Split

/-!
# Recipients (`smtp_add_rcpt`)

A text with recipients is split at the commas, and each part is brought into the form of a name in
quotes and an address in angle brackets.  `smtp_sendmail` takes that form apart once more, in other
buffers, to name the recipient to the server.

* `smtpAddRcpt` — the function.
* `namePlaces` — the characters of the name that the test for quotes looks at.
* `KeepsAddresses` — the second time gives the address of the first, and no place is below the name.
* **`keepsAddresses_iff`** — which texts this is true of.
-/

namespace G7

/-! ## The function -/

/-- `MAX_RCPT` -/
def maxRcpt : ℕ := 50

/-- `MAX_HEADER_ADDR_SIZE` -/
def maxHeaderAddrSize : ℕ := 2048

def smtpRcptTo : ℕ := 1

def smtpRcptCc : ℕ := 2

def smtpRcptBcc : ℕ := 3

/-- The buffers of `smtp_add_rcpt` for the parts of an address. -/
def rcptBuffers (below : Byte) : MailaddrBuffers := ⟨127, 126, 127, 126, below⟩

/-- `email_full` -/
def emailFull (namepart addrpart : CStr) : CStr :=
  snprintf 255 (namepart ++ str " " ++ addrpart)

/-- A list of recipients in one text, with one more. -/
def concatRcpt (concatenated : Option CStr) (full : CStr) : CStr :=
  let text := concatenated.getD []
  xstrlcat (if text = [] then text else xstrlcat text (str ",") maxHeaderAddrSize) full
    maxHeaderAddrSize

/-- The `switch` over the type, or `none` when there is no room for one more recipient. -/
def putRcpt (handle : SmtpHandle) (type : ℕ) (full : CStr) : Option SmtpHandle :=
  if type = smtpRcptTo then
    if handle.toRcpt.length ≥ maxRcpt then none
    else some { handle with
      toRcpt := handle.toRcpt ++ [full]
      toConcatenated := some (concatRcpt handle.toConcatenated full) }
  else if type = smtpRcptCc then
    if handle.ccRcpt.length ≥ maxRcpt then none
    else some { handle with
      ccRcpt := handle.ccRcpt ++ [full]
      ccConcatenated := some (concatRcpt handle.ccConcatenated full) }
  else if type = smtpRcptBcc then
    if handle.bccRcpt.length ≥ maxRcpt then none
    else some { handle with
      bccRcpt := handle.bccRcpt ++ [full]
      bccConcatenated := some (concatRcpt handle.bccConcatenated full) }
  else some handle

/-- The loop over the fields. -/
def addRcpts (below : Byte) (type : ℕ) : List CStr → SmtpHandle → Checked (ℤ × SmtpHandle)
  | [], handle => return (0, handle)
  | fld :: flds, handle =>
      if fld = [] then return (-1, handle)
      else do
        let r ← smtpNormalizeMailaddr (rcptBuffers below) fld
        match r with
        | none => return (-1, handle)
        | some (namepart, addrpart) =>
            match putRcpt handle type (emailFull namepart addrpart) with
            | none => return (-1, handle)
            | some handle => addRcpts below type flds handle

/-- `smtp_add_rcpt` -/
def smtpAddRcpt (below : Byte) (handle : SmtpHandle) (type : ℕ) (rcpt : CStr) :
    Checked (ℤ × SmtpHandle) :=
  match xstrsplitfields rcpt (ch ',') with
  | none => return (-1, handle)
  | some flds => addRcpts below type flds handle

/-! ## What is expected -/

/-- The characters of the name that the test for quotes looks at; the first is 0. -/
def namePlaces (buffers : MailaddrBuffers) (mailaddr : CStr) : List ℤ :=
  if ch '<' ∉ mailaddr ∨ ch '>' ∉ mailaddr then []
  else
    let nlen := mailaddr.idxOf (ch '<')
    if buffers.maxnlen < nlen ∨ buffers.maxalen < (mailaddr.drop nlen).length then []
    else [0, ((xstrtrim (mailaddr.take nlen)).length : ℤ) - 1]

/-- The recipients of a type, as they are stored. -/
def SmtpHandle.rcpts (handle : SmtpHandle) (type : ℕ) : List CStr :=
  if type = smtpRcptTo then handle.toRcpt
  else if type = smtpRcptCc then handle.ccRcpt
  else if type = smtpRcptBcc then handle.bccRcpt
  else []

/-- A field and the text that is stored for it have the same address. -/
def SameAddress (env : MailEnv) (below : Byte) (fld full : CStr) : Prop :=
  ∃ name name' addr, smtpNormalizeMailaddr (rcptBuffers below) fld = .done (some (name, addr)) ∧
    smtpNormalizeMailaddr (sendmailBuffers env) full = .done (some (name', addr))

/-- **The addresses are kept**: the texts that a call has stored are taken apart into the addresses
of its fields, and neither looks below the name. -/
structure KeepsAddresses (env : MailEnv) (below : Byte) (type : ℕ) (rcpt : CStr)
    (stored : List CStr) : Prop where
  same : ∀ p ∈ (rcpt.splitOn (ch ',')).zip stored, SameAddress env below p.1 p.2
  inside : ∀ fld ∈ rcpt.splitOn (ch ','), ∀ i ∈ namePlaces (rcptBuffers below) fld, 0 ≤ i
  insideAgain : ∀ full ∈ stored, ∀ i ∈ namePlaces (sendmailBuffers env) full, 0 ≤ i

/-- The types that are stored. -/
def StoredType (type : ℕ) : Prop := type = smtpRcptTo ∨ type = smtpRcptCc ∨ type = smtpRcptBcc

instance (type : ℕ) : Decidable (StoredType type) :=
  inferInstanceAs (Decidable (_ ∨ _ ∨ _))

/-- A field with an opening bracket has the closing one, and a name in front. -/
def NamedBracket (type : ℕ) (fld : CStr) : Prop :=
  ch '<' ∈ fld → (StoredType type → ch '>' ∈ fld) ∧
    (ch '>' ∈ fld → ∃ c ∈ fld.takeWhile (· ≠ ch '<'), c ≠ ch ' ')

instance (type : ℕ) (fld : CStr) : Decidable (NamedBracket type fld) :=
  inferInstanceAs (Decidable (_ ∈ fld → _))

/-! ## Text with a bracket -/

section

variable {buffers : MailaddrBuffers} {below : Byte} {fld front back s name addr : CStr}

lemma exists_bracket (h : ch '<' ∈ fld) :
    ∃ front back, fld = front ++ ch '<' :: back ∧ ch '<' ∉ front :=
  List.eq_append_cons_of_mem h

lemma idxOf_bracket (hfront : ch '<' ∉ front) :
    (front ++ ch '<' :: back).idxOf (ch '<') = front.length := by
  rw [List.idxOf_append_of_notMem hfront, List.idxOf_cons_self, Nat.add_zero]

/-- A text with both brackets is cut at the first. -/
lemma smtpNormalizeMailaddr_bracket (hfront : ch '<' ∉ front)
    (hclose : ch '>' ∈ front ++ ch '<' :: back) :
    smtpNormalizeMailaddr buffers (front ++ ch '<' :: back) =
      if buffers.maxnlen < front.length ∨ buffers.maxalen < back.length + 1 then .done none
      else if buffers.nameSize ≤ front.length then .fault
      else match quoteName buffers (xstrtrim front) with
        | none => .done none
        | some name =>
            if buffers.addrSize ≤ back.length + 1 then .fault
            else .done (some (name, xstrtrim (ch '<' :: back))) := by
  have hopen : ch '<' ∈ front ++ ch '<' :: back :=
    List.mem_append_right _ List.mem_cons_self
  rw [smtpNormalizeMailaddr, if_neg (by simp only [hopen, hclose, not_true, or_self, not_false_iff])]
  simp only [idxOf_bracket hfront, List.drop_left, List.take_left]
  rfl

lemma namePlaces_bracket (hfront : ch '<' ∉ front)
    (hclose : ch '>' ∈ front ++ ch '<' :: back) (hname : front.length ≤ buffers.maxnlen)
    (haddr : back.length + 1 ≤ buffers.maxalen) :
    namePlaces buffers (front ++ ch '<' :: back) = [0, ((xstrtrim front).length : ℤ) - 1] := by
  have hopen : ch '<' ∈ front ++ ch '<' :: back :=
    List.mem_append_right _ List.mem_cons_self
  rw [namePlaces, if_neg (by simp only [hopen, hclose, not_true, or_self, not_false_iff])]
  simp only [idxOf_bracket hfront, List.drop_left, List.take_left, List.length_cons]
  exact if_neg (by omega)

/-- A name in quotes. -/
def Quoted (name : CStr) : Prop :=
  name.head? = some (ch '"') ∧ name.getLast? = some (ch '"')

lemma quoted_quotes (s : CStr) : Quoted (str "\"" ++ s ++ str "\"") :=
  ⟨rfl, List.getLast?_concat⟩

lemma length_quotes (s : CStr) : (str "\"" ++ s ++ str "\"").length = s.length + 2 := by
  rw [List.length_append, List.length_append, Nat.add_comm (str "\"").length]
  rfl

lemma mem_quotes {c : Byte} (hc : c ≠ ch '"') (s : CStr) :
    c ∈ str "\"" ++ s ++ str "\"" ↔ c ∈ s := by
  simp [str, hc]

lemma Quoted.ne_nil (h : Quoted name) : name ≠ [] := by
  rintro rfl
  cases h.1

lemma byteAt_head (s : CStr) : byteAt s 0 = s.head?.getD 0 := by
  cases s <;> rfl

lemma byteAt_last (s : CStr) : byteAt s (s.length - 1) = s.getLast?.getD 0 := by
  rw [byteAt, List.getD_eq_getElem?_getD, List.getLast?_eq_getElem?]

/-- A name in quotes is kept. -/
lemma quoteName_of_quoted (h : Quoted name) : quoteName buffers name = some name := by
  have hhead : byteAt name 0 = ch '"' := by rw [byteAt_head, h.1, Option.getD_some]
  have hlast : byteAt name (name.length - 1) = ch '"' := by
    rw [byteAt_last, h.2, Option.getD_some]
  rw [quoteName, if_neg h.ne_nil, hhead, hlast]
  exact (if_neg (fun h => h.1 rfl)).trans (if_neg (fun h => h.2 ⟨rfl, rfl⟩))

/-- **What becomes of a name.** -/
lemma quoteName_some (h : quoteName (rcptBuffers below) s = some name) :
    Quoted name ∧ (name = s ∨ name = str "\"" ++ s ++ str "\"" ∧ s.length ≤ 123) := by
  rw [quoteName] at h
  by_cases hnil : s = []
  · subst hnil
    rw [if_pos rfl] at h
    have hhead : byteAt [] 0 ≠ ch '"' := by decide
    by_cases hlast : (rcptBuffers below).below = ch '"'
    · simp [hhead, hlast] at h
    · simp only [ne_eq, hhead, hlast, not_false_iff, and_self, if_true] at h
      obtain rfl := Option.some.inj h
      exact ⟨⟨rfl, rfl⟩, Or.inr ⟨rfl, Nat.zero_le _⟩⟩
  · rw [if_neg hnil] at h
    simp only at h
    split_ifs at h with hnone hlong hone
    · have hlen := length_quotes s
      have hroom : s.length ≤ 123 := by
        simp only [rcptBuffers] at hlong
        omega
      have hcopy : xstrlcpy (str "\"" ++ s ++ str "\"") (rcptBuffers below).maxnlen =
          str "\"" ++ s ++ str "\"" :=
        List.take_of_length_le (by simp only [rcptBuffers]; omega)
      obtain rfl := Option.some.inj h
      rw [hcopy]
      exact ⟨quoted_quotes s, Or.inr ⟨rfl, hroom⟩⟩
    · obtain rfl := Option.some.inj h
      have hboth : byteAt s 0 = ch '"' ∧ byteAt s (s.length - 1) = ch '"' := by tauto
      refine ⟨⟨?_, ?_⟩, Or.inl rfl⟩
      · rw [List.head?_eq_some_head hnil]
        have hhead := hboth.1
        rw [byteAt_head, List.head?_eq_some_head hnil, Option.getD_some] at hhead
        rw [hhead]
      · have hlast := hboth.2
        rw [byteAt_last, List.getLast?_eq_some_getLast hnil, Option.getD_some] at hlast
        rw [List.getLast?_eq_some_getLast hnil, hlast]

/-! ## The first time -/

/-- A text without both brackets is the address itself. -/
lemma bare_accepted (hbare : ch '<' ∉ fld ∨ ch '>' ∉ fld)
    (h : smtpNormalizeMailaddr (rcptBuffers below) fld = .done (some (name, addr))) :
    name = str "\"" ++ xstrtrim fld ++ str "\"" ∧ addr = ch '<' :: (xstrtrim fld ++ str ">") ∧
      (xstrtrim fld).length ≤ 123 := by
  have hname := length_quotes (xstrtrim fld)
  have haddr : (str "<" ++ xstrtrim fld ++ str ">").length = (xstrtrim fld).length + 2 := by
    rw [List.length_append, List.length_append, Nat.add_comm (str "<").length]
    rfl
  rw [smtpNormalizeMailaddr, if_pos hbare] at h
  simp only [Checked.pure_eq] at h
  split_ifs at h with hchars hlong
  · exact absurd h (by simp)
  · have hroom : (xstrtrim fld).length ≤ 123 := by
      simp only [rcptBuffers] at hlong
      omega
    obtain ⟨rfl, rfl⟩ := Prod.mk.inj (Option.some.inj (Checked.done.inj h))
    refine ⟨?_, ?_, hroom⟩
    · rw [snprintf_of_lt (by simp only [rcptBuffers]; omega)]
    · rw [xstrlcpy, List.take_of_length_le (by simp only [rcptBuffers]; omega)]
      rfl
  · exact absurd h (by simp)

lemma bracket_accepted (hfront : ch '<' ∉ front) (hclose : ch '>' ∈ front ++ ch '<' :: back)
    (h : smtpNormalizeMailaddr buffers (front ++ ch '<' :: back) = .done (some (name, addr))) :
    front.length ≤ buffers.maxnlen ∧ back.length + 1 ≤ buffers.maxalen ∧
      quoteName buffers (xstrtrim front) = some name ∧ addr = xstrtrim (ch '<' :: back) := by
  rw [smtpNormalizeMailaddr_bracket hfront hclose] at h
  by_cases hlong : buffers.maxnlen < front.length ∨ buffers.maxalen < back.length + 1
  · rw [if_pos hlong] at h
    cases Checked.done.inj h
  · rw [if_neg hlong] at h
    rw [not_or, not_lt, not_lt] at hlong
    by_cases hfull : buffers.nameSize ≤ front.length
    · rw [if_pos hfull] at h
      cases h
    · rw [if_neg hfull] at h
      cases hname : quoteName buffers (xstrtrim front) with
      | none =>
          rw [hname] at h
          cases Checked.done.inj h
      | some quoted =>
          rw [hname] at h
          simp only at h
          by_cases hover : buffers.addrSize ≤ back.length + 1
          · rw [if_pos hover] at h
            cases h
          · rw [if_neg hover] at h
            obtain ⟨rfl, rfl⟩ := Prod.mk.inj (Option.some.inj (Checked.done.inj h))
            exact ⟨hlong.1, hlong.2, rfl, rfl⟩

/-! ## The second time -/

lemma emailFull_eq (h : name.length + addr.length ≤ 252) :
    emailFull name addr = (name ++ str " ") ++ addr := by
  have hspace : (str " ").length = 1 := rfl
  rw [emailFull, snprintf_of_lt]
  simp only [List.length_append, hspace]
  omega

/-- The space behind a name in quotes is trimmed away, and no more. -/
lemma xstrtrim_quoted (h : Quoted name) : xstrtrim (name ++ str " ") = name := by
  rw [xstrtrim]
  refine (trimEnds_concat (by decide) name).trans (trimEnds_eq_self ?_ ?_)
  · rw [h.1]
    intro c hc
    obtain rfl := Option.some.inj hc
    decide
  · rw [h.2]
    intro c hc
    obtain rfl := Option.some.inj hc
    decide

/-- **A stored text is taken apart** into the parts it was made of. -/
lemma stored_accepted (env : MailEnv) (hq : Quoted name) (hname : ch '<' ∉ name)
    (hlen : name.length ≤ 126) (hback : back.length + 1 ≤ 126)
    (htrim : xstrtrim (ch '<' :: back) = ch '<' :: back)
    (hclose : ch '>' ∈ name ∨ ch '>' ∈ back) :
    smtpNormalizeMailaddr (sendmailBuffers env) (emailFull name (ch '<' :: back)) =
        .done (some (name, ch '<' :: back)) ∧
      ∀ i ∈ namePlaces (sendmailBuffers env) (emailFull name (ch '<' :: back)), 0 ≤ i := by
  have hspace : (str " ").length = 1 := rfl
  have hfront : ch '<' ∉ name ++ str " " := by
    rw [List.mem_append, not_or]
    exact ⟨hname, by decide⟩
  have hboth : ch '>' ∈ name ++ str " " ++ ch '<' :: back := by
    rcases hclose with h | h
    · exact List.mem_append_left _ (List.mem_append_left _ h)
    · exact List.mem_append_right _ (List.mem_cons_of_mem _ h)
  have hpos : 0 < name.length := List.length_pos_iff.mpr hq.ne_nil
  rw [emailFull_eq (by rw [List.length_cons]; omega)]
  constructor
  · rw [smtpNormalizeMailaddr_bracket hfront hboth, xstrtrim_quoted hq, quoteName_of_quoted hq,
      htrim]
    simp only [sendmailBuffers, List.length_append, hspace]
    rw [if_neg (by omega), if_neg (by omega)]
    exact if_neg (by omega)
  · rw [namePlaces_bracket hfront hboth, xstrtrim_quoted hq]
    · simp only [List.mem_cons, List.not_mem_nil, or_false]
      omega
    · simp only [sendmailBuffers, List.length_append, hspace]
      omega
    · simp only [sendmailBuffers]
      omega

/-! ## One field -/

/-- What is stored for a field whose opening bracket is closed has the same address. -/
lemma accepted_again (env : MailEnv)
    (h : smtpNormalizeMailaddr (rcptBuffers below) fld = .done (some (name, addr)))
    (hclosed : ch '<' ∈ fld → ch '>' ∈ fld) :
    smtpNormalizeMailaddr (sendmailBuffers env) (emailFull name addr) =
        .done (some (name, addr)) ∧
      ∀ i ∈ namePlaces (sendmailBuffers env) (emailFull name addr), 0 ≤ i := by
  have hlt : ch '<' ≠ ch ' ' := by decide
  have hgt : ch '>' ≠ ch ' ' := by decide
  by_cases hopen : ch '<' ∈ fld
  · obtain ⟨front, back, rfl, hfront⟩ := exists_bracket hopen
    obtain ⟨hlen, hback, hquote, rfl⟩ := bracket_accepted hfront (hclosed hopen) h
    obtain ⟨t, ht, hpre⟩ := xstrtrim_cons hlt back
    replace hlen : front.length ≤ 126 := hlen
    replace hback : back.length + 1 ≤ 126 := hback
    have htlen := hpre.length_le
    have htrimLen := (trimEnds_sublist (· == ch ' ') front).length_le
    obtain ⟨hq, hname⟩ := quoteName_some hquote
    have hmem : ∀ c, c ≠ ch ' ' → c ≠ ch '"' → (c ∈ name ↔ c ∈ front) := by
      intro c hc hne
      rw [← mem_xstrtrim_iff hc front]
      rcases hname with rfl | ⟨rfl, -⟩
      · rfl
      · exact mem_quotes hne _
    have hnameLen : name.length ≤ 126 := by
      rcases hname with rfl | ⟨rfl, hroom⟩
      · exact htrimLen.trans hlen
      · rw [length_quotes]
        omega
    rw [ht]
    refine stored_accepted env hq ((hmem _ hlt (by decide)).not.mpr hfront) hnameLen (by omega)
      ?_ ?_
    · rw [← ht]
      refine trimEnds_eq_self ?_ fun c => of_mem_getLast_trimEnds
      rw [ht]
      intro c hc
      obtain rfl := Option.some.inj hc
      exact hlt
    · have hclose := List.mem_append.mp (hclosed hopen)
      rw [← mem_xstrtrim_iff hgt (ch '<' :: back), ht, ← hmem _ hgt (by decide)] at hclose
      exact hclose.imp_right fun hmem => (List.mem_cons.mp hmem).resolve_left (by decide)
  · obtain ⟨rfl, rfl, hlen⟩ := bare_accepted (Or.inl hopen) h
    rw [← mem_xstrtrim_iff hlt] at hopen
    generalize xstrtrim fld = tmp at hopen hlen
    have hlast : (ch '<' :: (tmp ++ str ">")).getLast? = some (ch '>') := by
      rw [← List.cons_append]
      exact List.getLast?_concat
    refine stored_accepted env (quoted_quotes tmp) ?_ ?_ ?_ (trimEnds_eq_self ?_ ?_) (Or.inr ?_)
    · rwa [mem_quotes (by decide)]
    · rw [length_quotes]
      omega
    · rw [List.length_append, show (str ">").length = 1 from rfl]
      omega
    · intro c hc
      obtain rfl := Option.some.inj hc
      exact hlt
    · rw [hlast]
      intro c hc
      obtain rfl := Option.some.inj hc
      decide
    · exact List.mem_append_right _ (List.mem_singleton_self _)

/-- An opening bracket that is not closed is taken for the beginning of another address. -/
lemma accepted_other {env : MailEnv} {name' addr' : CStr}
    (h : smtpNormalizeMailaddr (rcptBuffers below) fld = .done (some (name, addr)))
    (hopen : ch '<' ∈ fld) (hclose : ch '>' ∉ fld)
    (h' : smtpNormalizeMailaddr (sendmailBuffers env) (emailFull name addr) =
      .done (some (name', addr'))) : addr' ≠ addr := by
  obtain ⟨rfl, rfl, hlen⟩ := bare_accepted (Or.inr hclose) h
  rw [← mem_xstrtrim_iff (by decide)] at hopen
  generalize xstrtrim fld = tmp at hopen hlen h'
  obtain ⟨front, back, rfl, hfront⟩ := exists_bracket hopen
  have hsplit : emailFull (str "\"" ++ (front ++ ch '<' :: back) ++ str "\"")
      (ch '<' :: (front ++ ch '<' :: back ++ str ">")) =
      (str "\"" ++ front) ++ ch '<' ::
        (back ++ str "\" <" ++ (front ++ ch '<' :: back) ++ str ">") := by
    rw [emailFull_eq]
    · simp [str]
    · have hone : (str ">").length = 1 := rfl
      rw [length_quotes]
      simp only [List.length_cons, List.length_append, hone] at hlen ⊢
      omega
  have hfront' : ch '<' ∉ str "\"" ++ front := by
    rw [List.mem_append, not_or]
    exact ⟨by decide, hfront⟩
  have hboth : ch '>' ∈ (str "\"" ++ front) ++ ch '<' ::
      (back ++ str "\" <" ++ (front ++ ch '<' :: back) ++ str ">") := by
    simp [str]
  rw [hsplit] at h'
  obtain ⟨-, -, -, rfl⟩ := bracket_accepted hfront' hboth h'
  have hself : xstrtrim (ch '<' :: (back ++ str "\" <" ++ (front ++ ch '<' :: back) ++ str ">")) =
      ch '<' :: (back ++ str "\" <" ++ (front ++ ch '<' :: back) ++ str ">") := by
    refine trimEnds_eq_self ?_ ?_
    · intro c hc
      obtain rfl := Option.some.inj hc
      decide
    · rw [← List.cons_append, show str ">" = [ch '>'] from rfl, List.getLast?_concat]
      intro c hc
      obtain rfl := Option.some.inj hc
      decide
  -- the other address has a part of the name and the whole address in it
  intro heq
  have hlength := congrArg List.length (hself.symm.trans heq)
  have hthree : (str "\" <").length = 3 := rfl
  simp only [List.length_cons, List.length_append, hthree] at hlength
  omega

/-- **A field and what is stored for it.** -/
theorem sameAddress_iff (env : MailEnv)
    (h : smtpNormalizeMailaddr (rcptBuffers below) fld = .done (some (name, addr))) :
    SameAddress env below fld (emailFull name addr) ↔ (ch '<' ∈ fld → ch '>' ∈ fld) := by
  constructor
  · rintro ⟨name₁, name', addr', hfirst, hagain⟩ hopen
    obtain ⟨-, rfl⟩ := Prod.mk.inj (Option.some.inj (Checked.done.inj (h.symm.trans hfirst)))
    by_contra hclose
    exact accepted_other h hopen hclose hagain rfl
  · intro hclosed
    exact ⟨name, name, addr, h, (accepted_again env h hclosed).1⟩

/-- The first time looks below the name when there is none. -/
lemma namePlaces_inside_iff
    (h : smtpNormalizeMailaddr (rcptBuffers below) fld = .done (some (name, addr))) :
    (∀ i ∈ namePlaces (rcptBuffers below) fld, 0 ≤ i) ↔
      (ch '<' ∈ fld → ch '>' ∈ fld → ∃ c ∈ fld.takeWhile (· ≠ ch '<'), c ≠ ch ' ') := by
  by_cases hbare : ch '<' ∉ fld ∨ ch '>' ∉ fld
  · rw [namePlaces, if_pos hbare]
    refine iff_of_true (fun _ hi => absurd hi List.not_mem_nil) fun hopen hclose => ?_
    exact absurd hbare (by rw [not_or, not_not, not_not]; exact ⟨hopen, hclose⟩)
  · rw [not_or, not_not, not_not] at hbare
    obtain ⟨hopen, hclose⟩ := hbare
    obtain ⟨front, back, rfl, hfront⟩ := exists_bracket hopen
    obtain ⟨hlen, hback, -, -⟩ := bracket_accepted hfront hclose h
    have htake : (front ++ ch '<' :: back).takeWhile (· ≠ ch '<') = front := by
      have hkept : ∀ c ∈ front, decide (c ≠ ch '<') = true :=
        fun c hc => decide_eq_true (ne_of_mem_of_not_mem hc hfront)
      rw [List.takeWhile_append_of_pos hkept,
        List.takeWhile_cons_of_neg (by simp), List.append_nil]
    rw [namePlaces_bracket hfront hclose hlen hback, htake]
    have hblank := not_congr (xstrtrim_eq_nil_iff (s := front))
    push Not at hblank
    rw [← List.length_pos_iff] at hblank
    simp only [hopen, hclose, forall_const, ← hblank, List.mem_cons, List.not_mem_nil, or_false,
      forall_eq_or_imp, forall_eq, le_refl, true_and]
    omega

/-! ## All fields -/

variable {handle handle' : SmtpHandle} {type : ℕ} {full : CStr}

/-- One more recipient is stored, if it is of a type that is. -/
lemma putRcpt_rcpts (h : putRcpt handle type full = some handle') :
    handle'.rcpts type = handle.rcpts type ++ if StoredType type then [full] else [] := by
  rw [putRcpt] at h
  rw [SmtpHandle.rcpts, SmtpHandle.rcpts]
  by_cases hto : type = smtpRcptTo
  · rw [if_pos hto] at h
    split_ifs at h
    obtain rfl := Option.some.inj h
    have hstored : StoredType type := Or.inl hto
    rw [if_pos hto, if_pos hto, if_pos hstored]
  · rw [if_neg hto] at h
    by_cases hcc : type = smtpRcptCc
    · rw [if_pos hcc] at h
      split_ifs at h
      obtain rfl := Option.some.inj h
      have hstored : StoredType type := Or.inr (Or.inl hcc)
      rw [if_neg hto, if_neg hto, if_pos hcc, if_pos hcc, if_pos hstored]
    · rw [if_neg hcc] at h
      by_cases hbcc : type = smtpRcptBcc
      · rw [if_pos hbcc] at h
        split_ifs at h
        obtain rfl := Option.some.inj h
        have hstored : StoredType type := Or.inr (Or.inr hbcc)
        rw [if_neg hto, if_neg hto, if_neg hcc, if_neg hcc, if_pos hbcc, if_pos hbcc,
          if_pos hstored]
      · have hno : ¬ StoredType type := by
          rw [StoredType, not_or, not_or]
          exact ⟨hto, hcc, hbcc⟩
        rw [if_neg hbcc] at h
        obtain rfl := Option.some.inj h
        rw [if_neg hto, if_neg hcc, if_neg hbcc, if_neg hno, List.append_nil]

/-- **What the loop stores**: a text for every field. -/
lemma addRcpts_rcpts {flds : List CStr} (h : addRcpts below type flds handle = .done (0, handle')) :
    ∃ parts : List (CStr × CStr),
      List.Forall₂ (fun fld p => smtpNormalizeMailaddr (rcptBuffers below) fld = .done (some p))
        flds parts ∧
      handle'.rcpts type = handle.rcpts type ++
        if StoredType type then parts.map fun p => emailFull p.1 p.2 else [] := by
  induction flds generalizing handle with
  | nil =>
      obtain rfl := (Prod.mk.inj (Checked.done.inj h)).2
      exact ⟨[], List.Forall₂.nil, by simp⟩
  | cons fld flds ih =>
      have hfailed : (Checked.done ((-1 : ℤ), handle)) ≠ .done (0, handle') :=
        fun h => absurd (Prod.mk.inj (Checked.done.inj h)).1 (by decide)
      rw [addRcpts] at h
      by_cases hempty : fld = []
      · rw [if_pos hempty] at h
        exact absurd h hfailed
      · rw [if_neg hempty] at h
        obtain ⟨r, hr, h⟩ := Checked.bind_eq_done.mp h
        match r, h with
        | none, h => exact absurd h hfailed
        | some (name, addr), h =>
            cases hput : putRcpt handle type (emailFull name addr) with
            | none =>
                simp only [hput] at h
                exact absurd h hfailed
            | some stored =>
                simp only [hput] at h
                obtain ⟨parts, hparts, hrcpts⟩ := ih h
                refine ⟨(name, addr) :: parts, List.Forall₂.cons hr hparts, ?_⟩
                rw [hrcpts, putRcpt_rcpts hput]
                split_ifs <;> simp

end

section

variable {below : Byte} {type : ℕ} {flds : List CStr} {parts : List (CStr × CStr)}

/-- The fields of a type that is stored. -/
lemma fields_kept_iff (env : MailEnv) (hstored : StoredType type)
    (hparts : List.Forall₂
      (fun fld p => smtpNormalizeMailaddr (rcptBuffers below) fld = .done (some p)) flds parts) :
    ((∀ p ∈ flds.zip (parts.map fun p => emailFull p.1 p.2), SameAddress env below p.1 p.2) ∧
      (∀ fld ∈ flds, ∀ i ∈ namePlaces (rcptBuffers below) fld, 0 ≤ i) ∧
      ∀ full ∈ parts.map fun p => emailFull p.1 p.2,
        ∀ i ∈ namePlaces (sendmailBuffers env) full, 0 ≤ i) ↔
      ∀ fld ∈ flds, NamedBracket type fld := by
  induction hparts with
  | nil => exact iff_of_true ⟨nofun, nofun, nofun⟩ nofun
  | @cons fld p flds parts hp _ ih =>
      have hsame := sameAddress_iff env hp
      have hplaces := namePlaces_inside_iff hp
      rw [List.map_cons, List.zip_cons_cons, List.forall_mem_cons, List.forall_mem_cons,
        List.forall_mem_cons, List.forall_mem_cons, ← ih, NamedBracket, hsame, hplaces]
      constructor
      · rintro ⟨⟨hclosed, hrest⟩, ⟨hname, hrest'⟩, -, hrest''⟩
        exact ⟨fun hopen => ⟨fun _ => hclosed hopen, hname hopen⟩, hrest, hrest', hrest''⟩
      · rintro ⟨hfld, hrest, hrest', hrest''⟩
        have hclosed : ch '<' ∈ fld → ch '>' ∈ fld := fun hopen => (hfld hopen).1 hstored
        exact ⟨⟨hclosed, hrest⟩, ⟨fun hopen => (hfld hopen).2, hrest'⟩,
          (accepted_again env hp hclosed).2, hrest''⟩

/-- The fields of any other type. -/
lemma fields_inside_iff (hstored : ¬ StoredType type)
    (hparts : List.Forall₂
      (fun fld p => smtpNormalizeMailaddr (rcptBuffers below) fld = .done (some p)) flds parts) :
    (∀ fld ∈ flds, ∀ i ∈ namePlaces (rcptBuffers below) fld, 0 ≤ i) ↔
      ∀ fld ∈ flds, NamedBracket type fld := by
  induction hparts with
  | nil => exact iff_of_true nofun nofun
  | @cons fld p flds parts hp _ ih =>
      rw [List.forall_mem_cons, List.forall_mem_cons, ih, namePlaces_inside_iff hp, NamedBracket]
      simp only [hstored, false_imp_iff, true_and]

end

/-- **When the addresses of a text are kept.** -/
theorem keepsAddresses_iff (env : MailEnv) {below : Byte} {handle handle' : SmtpHandle} {type : ℕ}
    {rcpt : CStr} (h : smtpAddRcpt below handle type rcpt = .done (0, handle')) :
    KeepsAddresses env below type rcpt
        ((handle'.rcpts type).drop (handle.rcpts type).length) ↔
      ∀ fld ∈ rcpt.splitOn (ch ','), NamedBracket type fld := by
  rw [smtpAddRcpt] at h
  cases hflds : xstrsplitfields rcpt (ch ',') with
  | none =>
      rw [hflds] at h
      exact absurd (Prod.mk.inj (Checked.done.inj h)).1 (by decide)
  | some flds =>
      rw [hflds] at h
      obtain ⟨parts, hparts, hrcpts⟩ := addRcpts_rcpts h
      obtain rfl := xstrsplitfields_some hflds
      rw [hrcpts, List.drop_left]
      by_cases hstored : StoredType type
      · rw [if_pos hstored, ← fields_kept_iff env hstored hparts]
        exact ⟨fun h => ⟨h.same, h.inside, h.insideAgain⟩, fun h => ⟨h.1, h.2.1, h.2.2⟩⟩
      · rw [if_neg hstored, ← fields_inside_iff hstored hparts]
        exact ⟨fun h => h.inside, fun h => ⟨by simp, h, nofun⟩⟩

/-- A name with an address, and an address of its own. -/
theorem keepsAddresses_joe :
    KeepsAddresses someDay 0 smtpRcptTo (str "Joe <a@b>,x@y")
      [str "\"Joe\" <a@b>", str "\"x@y\" <x@y>"] := by
  have hadd : smtpAddRcpt 0 newHandle smtpRcptTo (str "Joe <a@b>,x@y") = .done (0, { newHandle with
      toRcpt := [str "\"Joe\" <a@b>", str "\"x@y\" <x@y>"]
      toConcatenated := some (str "\"Joe\" <a@b>,\"x@y\" <x@y>") }) := by decide
  exact (keepsAddresses_iff someDay hadd).mpr (by decide)

/-- Without a name the byte below it is looked at, and what is stored for an address with a bracket
that is not closed has another address. -/
theorem noName_looksBelow :
    (smtpAddRcpt 0 newHandle smtpRcptTo (str "<a@b>") = .done (0, { newHandle with
        toRcpt := [str "\"\" <a@b>"], toConcatenated := some (str "\"\" <a@b>") }) ∧
      ¬ KeepsAddresses someDay 0 smtpRcptTo (str "<a@b>") [str "\"\" <a@b>"]) ∧
    smtpAddRcpt 0 newHandle smtpRcptTo (str "<@b") = .done (0, { newHandle with
        toRcpt := [str "\"<@b\" <<@b>"], toConcatenated := some (str "\"<@b\" <<@b>") }) ∧
      ¬ KeepsAddresses someDay 0 smtpRcptTo (str "<@b") [str "\"<@b\" <<@b>"] := by
  refine ⟨⟨by decide, fun h => ?_⟩, by decide, fun h => ?_⟩
  · exact absurd (h.inside (str "<a@b>") (by decide) (-1) (by decide)) (by decide)
  · obtain ⟨name, name', addr, hfirst, hagain⟩ :=
      h.same (str "<@b", str "\"<@b\" <<@b>") (by decide)
    have hfirst' : smtpNormalizeMailaddr (rcptBuffers 0) (str "<@b") =
        .done (some (str "\"<@b\"", str "<<@b>")) := by decide
    obtain ⟨-, rfl⟩ := Prod.mk.inj (Option.some.inj (Checked.done.inj (hfirst'.symm.trans hfirst)))
    have hagain' : smtpNormalizeMailaddr (sendmailBuffers someDay) (str "\"<@b\" <<@b>") =
        .done (some (str "\"", str "<@b\" <<@b>")) := by decide
    have hother := Prod.mk.inj (Option.some.inj (Checked.done.inj (hagain'.symm.trans hagain)))
    exact absurd hother.2 (by decide)

end G7
