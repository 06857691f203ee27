import G7Ctrl.Core.QuotedPrintable
import G7Ctrl.Mail.QuotedPrintable

/-!
# The lines of `qprint_encode`

What `qprint_encode` writes is followed character by character, without its buffer: the characters
of the encoded text are put on lines one after the other, each by `_chk_softlinebreak`.

* `QprintLine.put` — putting one character.
* **`qprintEncode_spec`** — what is in the buffer in the end.
* `QprintEncodes` — the text can be decoded, its lines are not too long and it fits.
* **`qprintEncodes_iff`** — when that is so.
-/

namespace G7

/-! ## Without the buffer -/

/-- The bytes that `qprint_encode` leaves as they are. -/
def qprintPlain (c : Byte) : Bool := 32 ≤ c && c ≤ ch 'z' && c != ch '='

/-- What has been written, what is left of `maxlen` and the width of the line. -/
structure QprintLine where
  text : CStr
  n : ℕ
  w : ℕ

/-- One more character. -/
def QprintLine.put (l : QprintLine) (c : Byte) : QprintLine :=
  if l.w = lineWidth - 1 then
    if c = 32 then
      if l.n < 6 then l else ⟨l.text ++ (str "==" ++ crlf ++ str "20"), l.n - 6, 2⟩
    else if c = 9 then
      if l.n < 6 then l else ⟨l.text ++ (str "==" ++ crlf ++ str "09"), l.n - 6, 2⟩
    else if l.n < 3 then l else ⟨l.text ++ (c :: ch '=' :: crlf), l.n - 3, 0⟩
  else ⟨l.text ++ [c], decSize l.n, l.w + 1⟩

/-- The variables of `qprint_encode` for what has been written in a buffer.  The cell of `pout` has
anything. -/
structure QprintLine.Stands (out : List Byte) (l : QprintLine) (s : QprintState) : Prop where
  pout : s.pout = l.text.length
  front : s.out.take l.text.length = l.text
  behind : s.out.drop (l.text.length + 1) = out.drop (l.text.length + 1)
  length : s.out.length = out.length
  n : s.n = l.n
  w : s.w = l.w

section

variable {out out' : List Byte} {l : QprintLine} {s s' : QprintState} {c : Byte} {bs : List Byte}

/-- Some bytes written behind what has been written. -/
lemma QprintLine.Stands.storeBytes (h : l.Stands out s)
    (hstore : G7.storeBytes s.out s.pout bs = .done out') (n w : ℕ) :
    QprintLine.Stands out ⟨l.text ++ bs, n, w⟩ ⟨out', s.pout + bs.length, n, w⟩ := by
  rw [h.pout] at hstore
  obtain ⟨hroom, hlen⟩ := length_storeBytes hstore
  rw [G7.storeBytes, if_pos hroom, h.front] at hstore
  obtain rfl := Checked.done.inj hstore
  refine ⟨?_, ?_, ?_, hlen.trans h.length, rfl, rfl⟩
  · rw [h.pout, List.length_append]
  · rw [← List.append_assoc]
    exact List.take_left
  · have hdrop (mem : List Byte) : mem.drop ((l.text ++ bs).length + 1) =
        (mem.drop (l.text.length + 1)).drop bs.length := by
      rw [List.drop_drop, List.length_append]
      congr 1
      omega
    rw [hdrop out, ← h.behind, ← hdrop, ← List.append_assoc, ← List.drop_drop, List.drop_left,
      List.drop_drop, List.length_append]

/-- The cell of `pout` may be written. -/
lemma QprintLine.Stands.set (h : l.Stands out s) (c : Byte) :
    l.Stands out { s with out := s.out.set s.pout c } := by
  refine ⟨h.pout, ?_, ?_, List.length_set.trans h.length, h.n, h.w⟩
  · rw [List.take_set_of_le (Nat.le_of_eq h.pout.symm), h.front]
  · rw [List.drop_set_of_lt (Nat.lt_succ_of_le (Nat.le_of_eq h.pout)), h.behind]

/-- **One character** in the buffer. -/
lemma putChk_spec (h : l.Stands out s) (hput : putChk s c = .done s') :
    (l.put c).Stands out s' := by
  rw [putChk] at hput
  obtain ⟨out₁, hstore, hput⟩ := Checked.bind_eq_done.mp hput
  obtain ⟨hlt, rfl⟩ := store_eq_done_iff.mp hstore
  have hset := h.set c
  have hload : load (s.out.set s.pout c) s.pout = .done c := by
    rw [load_eq_done_iff, List.getElem?_set_self hlt]
  rw [chkSoftlinebreak] at hput
  rw [QprintLine.put, ← h.w, ← h.n]
  by_cases hw : s.w = lineWidth - 1
  · rw [if_pos hw, hload, Checked.done_bind] at hput
    rw [if_pos hw]
    split_ifs at hput ⊢ with hspace hn htab hn hn
    · cases hput
      exact hset
    · obtain ⟨out₂, hbreak, hput⟩ := Checked.bind_eq_done.mp hput
      cases hput
      exact hset.storeBytes hbreak _ _
    · cases hput
      exact hset
    · obtain ⟨out₂, hbreak, hput⟩ := Checked.bind_eq_done.mp hput
      cases hput
      exact hset.storeBytes hbreak _ _
    · cases hput
      exact hset
    · obtain ⟨out₂, hbreak, hput⟩ := Checked.bind_eq_done.mp hput
      cases hput
      have hall : storeBytes s.out s.pout (c :: ch '=' :: crlf) = .done out₂ := by
        rw [storeBytes_cons, hstore, Checked.done_bind, hbreak]
      exact h.storeBytes hall _ _
  · rw [if_neg hw] at hput ⊢
    cases hput
    have hone : storeBytes s.out s.pout [c] = .done (s.out.set s.pout c) := by
      rw [storeBytes_singleton, hstore]
    exact h.storeBytes hone _ _

/-- The code of a byte. -/
lemma hexUpper_eq {n : ℕ} (h : n < 16) : hexUpper n = qpHex n := by
  have hall : ∀ m : Fin 16, hexUpper m = qpHex m := by decide +kernel
  exact hall ⟨n, h⟩

/-- **The loop puts the encoded text**, or ends before it with nothing left of `maxlen`. -/
lemma qprintLoop_spec {text rest : CStr} (h : l.Stands out s)
    (hloop : qprintLoop text s = .done (some (rest, s'))) :
    rest = [] ∧ ((qpText qprintPlain text).foldl QprintLine.put l).Stands out s' ∨
      rest ≠ [] ∧ s'.n = 0 := by
  induction text generalizing l s with
  | nil =>
      obtain ⟨rfl, rfl⟩ := Prod.mk.inj (Option.some.inj (Checked.done.inj hloop))
      exact Or.inl ⟨rfl, h⟩
  | cons c cs ih =>
      rw [qprintLoop] at hloop
      by_cases hn : s.n = 0
      · rw [if_pos hn] at hloop
        obtain ⟨rfl, rfl⟩ := Prod.mk.inj (Option.some.inj (Checked.done.inj hloop))
        exact Or.inr ⟨List.cons_ne_nil _ _, hn⟩
      · rw [if_neg hn] at hloop
        have hlt := c.toNat_lt
        rw [qpText_cons, List.foldl_append, qpUnits]
        by_cases hplain : 32 ≤ c ∧ c ≤ ch 'z' ∧ c ≠ ch '='
        · have hc : qprintPlain c = true := by simp [qprintPlain, hplain]
          rw [if_pos hplain] at hloop
          obtain ⟨s₁, hput, hloop⟩ := Checked.bind_eq_done.mp hloop
          rw [if_pos hc]
          exact ih (putChk_spec h hput) hloop
        · have hc : ¬ qprintPlain c = true := by
            simpa only [qprintPlain, Bool.and_eq_true, decide_eq_true_eq, bne_iff_ne,
              and_assoc] using hplain
          rw [if_neg hplain] at hloop
          rw [if_neg hc]
          split_ifs at hloop with hfew
          · cases hloop
          · obtain ⟨s₁, hput₁, hloop⟩ := Checked.bind_eq_done.mp hloop
            obtain ⟨s₂, hput₂, hloop⟩ := Checked.bind_eq_done.mp hloop
            obtain ⟨s₃, hput₃, hloop⟩ := Checked.bind_eq_done.mp hloop
            rw [hexUpper_eq (by omega)] at hput₂ hput₃
            exact ih (putChk_spec (putChk_spec (putChk_spec h hput₁) hput₂) hput₃) hloop

end

/-- What is written for a text. -/
def qprintLines (text : CStr) (maxlen : ℕ) : CStr :=
  ((qpText qprintPlain text).foldl QprintLine.put ⟨[], maxlen, 0⟩).text

/-- **What `qprint_encode` writes** when it returns 0, in a buffer of any size. -/
theorem qprintEncode_spec {text : CStr} {out out' : List Byte} {maxlen : ℕ}
    (h : qprintEncode text out maxlen = .done (some out')) :
    out' = qprintLines text maxlen ++ 0 :: out.drop ((qprintLines text maxlen).length + 1) := by
  have hstart : QprintLine.Stands out ⟨[], maxlen, 0⟩ ⟨out, 0, maxlen, 0⟩ :=
    ⟨rfl, rfl, rfl, rfl, rfl, rfl⟩
  rw [qprintEncode] at h
  by_cases hroom : maxlen < text.length + 1
  · rw [if_pos hroom] at h
    cases Checked.done.inj h
  · rw [if_neg hroom] at h
    obtain ⟨r, hloop, h⟩ := Checked.bind_eq_done.mp h
    match r, hloop, h with
    | none, _, h => cases Checked.done.inj h
    | some (rest, s), hloop, h =>
        rcases qprintLoop_spec hstart hloop with ⟨rfl, hstands⟩ | ⟨hrest, hn⟩
        · have hend : ¬ (s.n < 1 ∧ ([] : CStr) ≠ []) := fun hboth => hboth.2 rfl
          replace h := (if_neg hend).symm.trans h
          obtain ⟨out₁, hstore, h⟩ := Checked.bind_eq_done.mp h
          obtain rfl := Option.some.inj (Checked.done.inj h)
          obtain ⟨hlt, rfl⟩ := store_eq_done_iff.mp hstore
          rw [hstands.pout] at hlt ⊢
          rw [List.set_eq_take_append_cons_drop, if_pos hlt, hstands.front, hstands.behind]
          rfl
        · have hend : s.n < 1 ∧ rest ≠ [] := ⟨by omega, hrest⟩
          cases Checked.done.inj ((if_pos hend).symm.trans h)

/-! ## Full lines -/

section

variable {l : QprintLine} {c : Byte} {bs : CStr}

lemma put_of_lt (h : l.w < 75) : l.put c = ⟨l.text ++ [c], decSize l.n, l.w + 1⟩ :=
  if_neg (Nat.ne_of_lt h)

/-- As long as there is room on the line, the characters are written as they are. -/
lemma foldl_put_of_le (h : l.w + bs.length ≤ 75) :
    (bs.foldl QprintLine.put l).text = l.text ++ bs ∧
      (bs.foldl QprintLine.put l).w = l.w + bs.length := by
  induction bs generalizing l with
  | nil => simp
  | cons c bs ih =>
      rw [List.length_cons] at h
      have hput := put_of_lt (c := c) (show l.w < 75 by omega)
      obtain ⟨htext, hw⟩ := ih (l := l.put c) (by rw [hput]; simp only; omega)
      rw [List.foldl_cons, htext, hw, hput, List.append_assoc, List.length_cons]
      exact ⟨rfl, by simp only; omega⟩

/-- What one character adds. -/
lemma put_text (l : QprintLine) (c : Byte) : ∃ added, (l.put c).text = l.text ++ added ∧
    ∀ d ∈ added, d = c ∨ d ∈ str "==" ++ crlf ++ str "2009" := by
  rw [QprintLine.put]
  split_ifs
  · exact ⟨[], (List.append_nil _).symm, nofun⟩
  · exact ⟨_, rfl, fun d hd => Or.inr (by revert d; decide +kernel)⟩
  · exact ⟨[], (List.append_nil _).symm, nofun⟩
  · exact ⟨_, rfl, fun d hd => Or.inr (by revert d; decide +kernel)⟩
  · exact ⟨[], (List.append_nil _).symm, nofun⟩
  · have hbreak : ∀ d ∈ ch '=' :: crlf, d ∈ str "==" ++ crlf ++ str "2009" := by
      decide +kernel
    exact ⟨_, rfl, fun d hd => (List.mem_cons.mp hd).imp_right (hbreak d)⟩
  · exact ⟨[c], rfl, fun d hd => Or.inl (List.mem_singleton.mp hd)⟩

lemma foldl_put_text (l : QprintLine) (bs : CStr) :
    ∃ added, (bs.foldl QprintLine.put l).text = l.text ++ added ∧
      ∀ d ∈ added, d ∈ bs ∨ d ∈ str "==" ++ crlf ++ str "2009" := by
  induction bs generalizing l with
  | nil => exact ⟨[], (List.append_nil _).symm, nofun⟩
  | cons c bs ih =>
      obtain ⟨first, hfirst, hmem⟩ := put_text l c
      obtain ⟨added, hadded, hmem'⟩ := ih (l.put c)
      refine ⟨first ++ added, by rw [List.foldl_cons, hadded, hfirst, List.append_assoc], ?_⟩
      intro d hd
      rcases List.mem_append.mp hd with hd | hd
      · exact (hmem d hd).imp_left fun heq => List.mem_cons.mpr (Or.inl heq)
      · exact (hmem' d hd).imp_left (List.mem_cons_of_mem _)

/-- **On a full line** the characters are lost, until one is written with a line break behind it. -/
lemma foldl_put_full (h : l.w = 75) (hcr : cr ∉ bs) :
    (bs.foldl QprintLine.put l).text = l.text ∨
      ∃ x, x ≠ cr ∧ l.text ++ x :: ch '=' :: crlf <+: (bs.foldl QprintLine.put l).text := by
  induction bs with
  | nil => exact Or.inl rfl
  | cons c bs ih =>
      rw [List.mem_cons, not_or] at hcr
      rw [List.foldl_cons]
      have hkept : l.put c = l ∨ ∃ x rest, x ≠ cr ∧
          (l.put c).text = l.text ++ x :: ch '=' :: (crlf ++ rest) := by
        have hfull : l.w = lineWidth - 1 := h
        rw [QprintLine.put, if_pos hfull]
        split_ifs
        · exact Or.inl rfl
        · exact Or.inr ⟨ch '=', str "20", by decide, rfl⟩
        · exact Or.inl rfl
        · exact Or.inr ⟨ch '=', str "09", by decide, rfl⟩
        · exact Or.inl rfl
        · exact Or.inr ⟨c, [], Ne.symm hcr.1, rfl⟩
      rcases hkept with hkept | ⟨x, rest, hx, hbreak⟩
      · rw [hkept]
        exact ih hcr.2
      · obtain ⟨added, hadded, -⟩ := foldl_put_text (l.put c) bs
        refine Or.inr ⟨x, hx, ?_⟩
        rw [hadded, hbreak]
        exact ⟨rest ++ added, by simp⟩

end

/-! ## The result -/

/-- What is written is a text on lines of at most 76 characters with whole codes, which is decoded
to the one that was encoded, and no more than `maxlen` bytes are written for it. -/
def QprintEncodes (text : CStr) (maxlen : ℕ) (out out' : List Byte) : Prop :=
  ∃ s, out' = s ++ 0 :: out.drop (s.length + 1) ∧ readStr out' = .done s ∧ s.length + 1 ≤ maxlen ∧
    qpDecode s = some text ∧ ∀ line ∈ linesOf s, line.length ≤ 76 ∧ WholeCodes line

/-- The number of characters for a text: one for a byte that is left as it is, three for any
other. -/
def qprintWidth (text : CStr) : ℕ := (text.map fun c => if qprintPlain c then 1 else 3).sum

lemma length_qpText_qprintPlain (text : CStr) :
    (qpText qprintPlain text).length = qprintWidth text := by
  induction text with
  | nil => rfl
  | cons c cs ih =>
      rw [qpText_cons, List.length_append, length_qpUnits, ih]
      rfl

lemma qpLiteral_of_qprintPlain : ∀ c : Byte, qprintPlain c = true → QpLiteral c := by
  intro c hc
  simp only [qprintPlain, Bool.and_eq_true, decide_eq_true_eq, bne_iff_ne] at hc
  exact Or.inr ⟨hc.1.1, UInt8.le_trans hc.1.2 (by decide), hc.2⟩

lemma nul_notMem_qprintLines (text : CStr) (maxlen : ℕ) :
    (0 : Byte) ∉ qprintLines text maxlen := by
  obtain ⟨added, hadded, hmem⟩ :=
    foldl_put_text ⟨[], maxlen, 0⟩ (qpText qprintPlain text)
  rw [qprintLines, hadded, List.nil_append]
  intro hnul
  rcases hmem 0 hnul with h | h
  · rcases mem_qpText h with h | h | h
    · exact absurd h (by decide)
    · exact absurd h (by decide)
    · exact absurd h (by decide)
  · exact absurd h (by decide)

/-- A text that fits on a line is written on it. -/
lemma qprintLines_of_le {text : CStr} {maxlen : ℕ} (h : qprintWidth text ≤ 75) :
    qprintLines text maxlen = qpText qprintPlain text := by
  rw [← length_qpText_qprintPlain] at h
  exact (foldl_put_of_le (by rwa [Nat.zero_add])).1

/-- One that does not is cut off there, or its first line is too long. -/
lemma qprintLines_of_lt {text : CStr} (maxlen : ℕ) (h : 75 < qprintWidth text) :
    qprintLines text maxlen = (qpText qprintPlain text).take 75 ∨
      ∃ line ∈ linesOf (qprintLines text maxlen), line.length = 77 := by
  have hcr : cr ∉ qpText qprintPlain text := cr_notMem_qpText qpLiteral_of_qprintPlain
  rw [← length_qpText_qprintPlain] at h
  rw [qprintLines]
  generalize qpText qprintPlain text = bs at *
  have hlen : (bs.take 75).length = 75 := by rw [List.length_take, Nat.min_eq_left h.le]
  have hroom : (⟨[], maxlen, 0⟩ : QprintLine).w + (bs.take 75).length ≤ 75 := by
    rw [hlen, Nat.zero_add]
  obtain ⟨htext, hw⟩ := foldl_put_of_le hroom
  rw [hlen] at hw
  have hsplit : bs.foldl QprintLine.put ⟨[], maxlen, 0⟩ =
      (bs.drop 75).foldl QprintLine.put ((bs.take 75).foldl QprintLine.put ⟨[], maxlen, 0⟩) := by
    rw [← List.foldl_append, List.take_append_drop]
  rw [hsplit]
  rcases foldl_put_full hw fun hmem => hcr (List.mem_of_mem_drop hmem) with hlost | ⟨x, hx, hbreak⟩
  · exact Or.inl (hlost.trans htext)
  · right
    obtain ⟨rest, hrest⟩ := hbreak
    have hfirst : cr ∉ bs.take 75 ++ [x, ch '='] := by
      simp only [List.mem_append, List.mem_cons, List.not_mem_nil, or_false, not_or]
      exact ⟨fun hmem => hcr (List.mem_of_mem_take hmem), Ne.symm hx, by decide⟩
    refine ⟨bs.take 75 ++ [x, ch '='], ?_, by rw [List.length_append, hlen]; rfl⟩
    have hlines : linesOf ((bs.take 75 ++ [x, ch '=']) ++ (crlf ++ rest)) =
        (bs.take 75 ++ [x, ch '=']) :: linesOf rest := by
      rw [linesOf_append_crlf, linesOf_of_notMem hfirst]
      rfl
    rw [← hrest, htext]
    simp only [List.nil_append, List.append_assoc, List.cons_append] at hlines ⊢
    rw [hlines]
    exact List.mem_cons_self

/-- A line ends in a blank when its text ends in a space. -/
lemma rdropWhile_qprint_iff (text : CStr) :
    (qpText qprintPlain text).rdropWhile isQpBlank = qpText qprintPlain text ↔
      text.getLast? ≠ some 32 := by
  have hblank : ∀ c : Byte, qprintPlain c = true → isQpBlank c = true → c = 32 := by
    intro c hplain hc
    rw [isQpBlank, Bool.or_eq_true, beq_iff_eq, beq_iff_eq] at hc
    refine hc.resolve_right ?_
    rintro rfl
    exact absurd hplain (by decide)
  rw [rdropWhile_qpText_iff]
  constructor
  · intro h hspace
    exact absurd (h 32 hspace (by decide)) (by decide)
  · intro h c hc hplain
    rw [← Bool.not_eq_true]
    intro hcBlank
    obtain rfl := hblank c hplain hcBlank
    exact h hc

/-- **When a text is encoded well**: when it takes one line, which does not end in a space, and the
line and its NUL fit. -/
theorem qprintEncodes_iff {text : CStr} {out out' : List Byte} {maxlen : ℕ}
    (h : qprintEncode text out maxlen = .done (some out')) :
    QprintEncodes text maxlen out out' ↔
      qprintWidth text ≤ 75 ∧ qprintWidth text < maxlen ∧ text.getLast? ≠ some 32 := by
  have hspec := qprintEncode_spec h
  have hread : readStr out' = .done (qprintLines text maxlen) := by
    rw [hspec]
    exact readStr_append_nul (nul_notMem_qprintLines text maxlen) _
  have hwidth := length_qpText_qprintPlain text
  constructor
  · rintro ⟨s, -, hs, hroom, hdecode, hlines⟩
    obtain rfl := Checked.done.inj (hread.symm.trans hs)
    rcases Nat.lt_or_ge 75 (qprintWidth text) with hlong | hshort
    · exfalso
      rcases qprintLines_of_lt maxlen hlong with hcut | ⟨line, hline, hlen⟩
      · rw [hcut] at hdecode
        refine qpDecode_ne_of_prefix qpLiteral_of_qprintPlain (List.take_prefix _ _) ?_ hdecode
        intro heq
        have hle := (List.rdropWhile_prefix isQpBlank ((qpText qprintPlain text).take 75)).length_le
        rw [heq, List.length_take] at hle
        omega
      · exact absurd (hlines line hline).1 (by omega)
    · rw [qprintLines_of_le hshort] at hroom hdecode
      refine ⟨hshort, by omega, ?_⟩
      rw [← rdropWhile_qprint_iff]
      by_contra hblank
      exact qpDecode_ne_of_prefix qpLiteral_of_qprintPlain List.prefix_rfl hblank hdecode
  · rintro ⟨hshort, hroom, hend⟩
    rw [qprintLines_of_le hshort] at hspec hread
    refine ⟨_, hspec, hread, by omega, ?_, ?_⟩
    · exact qpDecode_text qpLiteral_of_qprintPlain
        (rdropWhile_qpText_iff.mp ((rdropWhile_qprint_iff text).mpr hend))
    · rw [linesOf_of_notMem (cr_notMem_qpText qpLiteral_of_qprintPlain), List.forall_mem_singleton]
      exact ⟨by omega, wholeCodes_qpText qpLiteral_of_qprintPlain⟩

/-- A short text. -/
theorem qprintEncodes_sum : QprintEncodes (str "a = b") 10 (List.replicate 10 0)
    (str "a =3D b" ++ [0, 0, 0]) := by
  have hrun : qprintEncode (str "a = b") (List.replicate 10 0) 10 =
      .done (some (str "a =3D b" ++ [0, 0, 0])) := by decide +kernel
  exact (qprintEncodes_iff hrun).mpr (by decide +kernel)

/-- A text of 76 characters has a line break put behind them, on a line of 77, and one that ends
in a space has its end taken for white space. -/
theorem fullLine_not_qprintEncodes :
    (qprintEncode (List.replicate 76 (ch 'a')) (List.replicate 90 0) 90 =
        .done (some (List.replicate 76 (ch 'a') ++ str "=\r\n" ++ List.replicate 11 0)) ∧
      ¬ QprintEncodes (List.replicate 76 (ch 'a')) 90 (List.replicate 90 0)
        (List.replicate 76 (ch 'a') ++ str "=\r\n" ++ List.replicate 11 0)) ∧
    qprintEncode (str "a ") (List.replicate 10 0) 10 =
        .done (some (str "a " ++ List.replicate 8 0)) ∧
      ¬ QprintEncodes (str "a ") 10 (List.replicate 10 0) (str "a " ++ List.replicate 8 0) := by
  refine ⟨⟨by decide +kernel, ?_⟩, by decide +kernel, ?_⟩
  · rintro ⟨s, -, hs, -, -, hlines⟩
    have hread : readStr (List.replicate 76 (ch 'a') ++ str "=\r\n" ++ List.replicate 11 0) =
        .done (List.replicate 76 (ch 'a') ++ str "=\r\n") := by decide +kernel
    obtain rfl := Checked.done.inj (hread.symm.trans hs)
    exact absurd (fun line hline => (hlines line hline).1) (by decide +kernel)
  · rintro ⟨s, -, hs, -, hdecode, -⟩
    have hread : readStr (str "a " ++ List.replicate 8 0) = .done (str "a ") := by decide +kernel
    obtain rfl := Checked.done.inj (hread.symm.trans hs)
    exact absurd hdecode (by decide +kernel)

end G7
