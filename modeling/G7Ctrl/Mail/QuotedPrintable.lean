import G7Ctrl.Xstr.Block

/-!
# Encoding as quoted printable (`quotprinted.c`)

Both functions are modelled with their output buffers.  What `_chk_softlinebreak` returns is not
looked at.

* `chkSoftlinebreak` — closing a character, with a soft line break where the line is full.
* `qprintEncode` — a text.
* `qprintEncodeWord` — a word, as in the subject of a mail.
* **`readStr_qprintEncodeWord`** — what becomes of a word: a plain one stays as it is, any other is
  put on one line.
-/

namespace G7

/-- `LINE_WIDTH` -/
def lineWidth : ℕ := 76

/-- The variables of `qprint_encode`: the output buffer, `pout`, what is left of `maxlen` and the
width of the line. -/
structure QprintState where
  out : List Byte
  pout : ℕ
  n : ℕ
  w : ℕ

/-- `n--` on a `size_t`. -/
def decSize (n : ℕ) : ℕ := if n = 0 then 2 ^ 64 - 1 else n - 1

/-- `_chk_softlinebreak` -/
def chkSoftlinebreak (s : QprintState) : Checked QprintState :=
  if s.w = lineWidth - 1 then do
    let c ← load s.out s.pout
    if c = 32 then
      if s.n < 6 then return s
      else
        let out ← storeBytes s.out s.pout (str "==" ++ crlf ++ str "20")
        return ⟨out, s.pout + 6, s.n - 6, 2⟩
    else if c = 9 then
      if s.n < 6 then return s
      else
        let out ← storeBytes s.out s.pout (str "==" ++ crlf ++ str "09")
        return ⟨out, s.pout + 6, s.n - 6, 2⟩
    else if s.n < 3 then return s
    else
      let out ← storeBytes s.out (s.pout + 1) (ch '=' :: crlf)
      return ⟨out, s.pout + 4, s.n - 3, 0⟩
  else return ⟨s.out, s.pout + 1, decSize s.n, s.w + 1⟩

/-- `*pout = c; _chk_softlinebreak(&pout, &n, &w)` -/
def putChk (s : QprintState) (c : Byte) : Checked QprintState := do
  let out ← store s.out s.pout c
  chkSoftlinebreak { s with out := out }

/-- A digit of `%X`. -/
def hexUpper (n : ℕ) : Byte := (if n < 10 then 48 + n else 55 + n).toUInt8

/-- The loop of `qprint_encode`, with the rest of the input; `none` is the return in its middle. -/
def qprintLoop : CStr → QprintState → Checked (Option (CStr × QprintState))
  | [], s => return some ([], s)
  | c :: cs, s =>
      if s.n = 0 then return some (c :: cs, s)
      else if 32 ≤ c ∧ c ≤ ch 'z' ∧ c ≠ ch '=' then do
        let s ← putChk s c
        qprintLoop cs s
      else if s.n < 3 then return none
      else do
        let s ← putChk s (ch '=')
        let s ← putChk s (hexUpper (c.toNat / 16))
        let s ← putChk s (hexUpper (c.toNat % 16))
        qprintLoop cs s

/-- `qprint_encode`, with the output buffer it leaves if it returns 0. -/
def qprintEncode (text : CStr) (out : List Byte) (maxlen : ℕ) : Checked (Option (List Byte)) :=
  if maxlen < text.length + 1 then return none
  else do
    let r ← qprintLoop text ⟨out, 0, maxlen, 0⟩
    match r with
    | none => return none
    | some (rest, s) =>
        if s.n < 1 ∧ rest ≠ [] then return none
        else
          let out ← store s.out s.pout 0
          return some out

/-- The loop of `qprint_encode_word`, with the rest of the input, the output buffer, `pout`, what is
left of `maxlen` and `encoded`; the first result says whether it came to its end. -/
def qprintWordLoop : CStr → List Byte → ℕ → ℕ → Bool → Checked (Bool × List Byte × ℕ × ℕ × Bool)
  | [], out, pout, n, encoded => return (true, out, pout, n, encoded)
  | c :: cs, out, pout, n, encoded =>
      if n = 0 then return (true, out, pout, n, encoded)
      else if c = lf ∨ c = cr then qprintWordLoop cs out pout n encoded
      else if c = 32 then do
        let out ← store out pout (ch '_')
        qprintWordLoop cs out (pout + 1) (n - 1) true
      else if c = ch '_' ∨ c = ch '=' ∨ c = ch '?' ∨ c < 32 then
        if n < 3 then return (false, out, pout, n, encoded)
        else do
          let out ← storeBytes out pout [ch '=', hexUpper (c.toNat / 16), hexUpper (c.toNat % 16)]
          qprintWordLoop cs out (pout + 3) (n - 3) true
      else if 32 < c ∧ c ≤ ch 'z' then do
        let out ← store out pout c
        qprintWordLoop cs out (pout + 1) (n - 1) encoded
      else if 127 < c then
        if n < 6 then return (false, out, pout, n, encoded)
        else do
          let out ← storeBytes out pout [ch '=', hexUpper (c.toNat / 16), hexUpper (c.toNat % 16)]
          match cs with
          | [] => return (false, out, pout, n, encoded)
          | d :: ds => do
              let out ← storeBytes out (pout + 3)
                [ch '=', hexUpper (d.toNat / 16), hexUpper (d.toNat % 16)]
              qprintWordLoop ds out (pout + 6) (n - 6) true
      else return (false, out, pout, n, encoded)

/-- `qprint_encode_word`, with the output buffer it leaves.  The nine bytes it begins with are not
taken off `n`. -/
def qprintEncodeWord (text : CStr) (out : List Byte) (maxlen : ℕ) : Checked (ℤ × List Byte) :=
  if maxlen < 11 then return (-1, out)
  else do
    let out ← storeBytes out 0 (cblock (str "=?utf8?Q?"))
    let (ended, out, pout, n, encoded) ← qprintWordLoop text out 9 maxlen false
    if ended = false ∨ n < 3 then return (-1, out)
    else
      let out ← storeBytes out pout (cblock (str "?="))
      if encoded = false then
        let out ← storeBytes out 0 (cblock text)
        return (0, out)
      else return (0, out)

/-! ## What becomes of a word -/

/-- The bytes that do not make a word encoded. -/
def PlainByte (c : Byte) : Prop :=
  c = lf ∨ c = cr ∨ (32 < c ∧ c ≤ ch 'z' ∧ c ≠ ch '_' ∧ c ≠ ch '=' ∧ c ≠ ch '?')

instance (c : Byte) : Decidable (PlainByte c) :=
  inferInstanceAs (Decidable (c = lf ∨ c = cr ∨ _))

/-- A word that is not encoded. -/
def PlainWord (text : CStr) : Prop := ∀ c ∈ text, PlainByte c

instance (text : CStr) : Decidable (PlainWord text) :=
  inferInstanceAs (Decidable (∀ c ∈ text, PlainByte c))

/-- A plain byte is stored or, at the end of a line, left out. -/
lemma qprintWordLoop_plain {c : Byte} (hc : PlainByte c) (cs : CStr) (out : List Byte)
    (pout : ℕ) {n : ℕ} (hn : n ≠ 0) (encoded : Bool) :
    qprintWordLoop (c :: cs) out pout n encoded =
      if c = lf ∨ c = cr then qprintWordLoop cs out pout n encoded
      else store out pout c >>= fun out => qprintWordLoop cs out (pout + 1) (n - 1) encoded := by
  rw [qprintWordLoop, if_neg hn]
  by_cases hend : c = lf ∨ c = cr
  · rw [if_pos hend, if_pos hend]
  · obtain ⟨h32, hz, hline, heq, hmark⟩ : 32 < c ∧ c ≤ ch 'z' ∧ c ≠ ch '_' ∧ c ≠ ch '=' ∧
        c ≠ ch '?' := by
      rcases hc with hlf | hcr | h
      · exact absurd (Or.inl hlf) hend
      · exact absurd (Or.inr hcr) hend
      · exact h
    have hspecial : ¬ (c = ch '_' ∨ c = ch '=' ∨ c = ch '?' ∨ c < 32) := by
      rintro (h | h | h | h)
      · exact hline h
      · exact heq h
      · exact hmark h
      · exact absurd (UInt8.lt_trans h h32) (UInt8.lt_irrefl _)
    rw [if_neg hend, if_neg (UInt8.ne_of_lt h32).symm, if_neg hspecial, if_pos ⟨h32, hz⟩,
      if_neg hend]

/-- A plain word is gone through with a step of `pout` for each one of `n`. -/
lemma qprintWordLoop_of_plain {text out out' : CStr} {pout n pout' n' : ℕ}
    {encoded ended encoded' : Bool} (hplain : PlainWord text) (hpout : pout ≤ out.length)
    (h : qprintWordLoop text out pout n encoded = .done (ended, out', pout', n', encoded')) :
    ended = true ∧ encoded' = encoded ∧ pout' + n' = pout + n ∧ pout' ≤ out'.length ∧
      out'.length = out.length := by
  induction text generalizing out pout n with
  | nil =>
      cases h
      exact ⟨rfl, rfl, rfl, hpout, rfl⟩
  | cons c cs ih =>
      obtain ⟨hc, hcs⟩ := List.forall_mem_cons.mp hplain
      by_cases hn : n = 0
      · rw [qprintWordLoop, if_pos hn] at h
        cases h
        exact ⟨rfl, rfl, rfl, hpout, rfl⟩
      · rw [qprintWordLoop_plain hc cs out pout hn] at h
        split_ifs at h with hend
        · exact ih hcs hpout h
        · obtain ⟨out₁, hstore, h⟩ := Checked.bind_eq_done.mp h
          obtain ⟨hlt, rfl⟩ := store_eq_done_iff.mp hstore
          obtain ⟨hended, hencoded, hsum, hle, hlen⟩ := ih hcs (by rwa [List.length_set]) h
          exact ⟨hended, hencoded, by omega, hle, by rw [hlen, List.length_set]⟩

lemma cr_notMem_store {out out' : List Byte} {i : ℕ} {c : Byte}
    (h : store out i c = .done out') (hc : c ≠ cr) (hout : cr ∉ out) : cr ∉ out' := by
  obtain ⟨-, rfl⟩ := store_eq_done_iff.mp h
  intro hmem
  obtain hmem | heq := List.mem_or_eq_of_mem_set hmem
  · exact hout hmem
  · exact hc heq.symm

lemma cr_notMem_storeBytes {out out' bs : List Byte} {i : ℕ}
    (h : storeBytes out i bs = .done out') (hbs : cr ∉ bs) (hout : cr ∉ out) : cr ∉ out' := by
  rw [storeBytes] at h
  split_ifs at h
  cases h
  rw [List.mem_append, List.mem_append, not_or, not_or]
  exact ⟨fun hmem => hout (List.mem_of_mem_take hmem), hbs,
    fun hmem => hout (List.mem_of_mem_drop hmem)⟩

/-- The code of a byte has only digits. -/
lemma cr_notMem_code (c : Byte) :
    cr ∉ [ch '=', hexUpper (c.toNat / 16), hexUpper (c.toNat % 16)] := by
  have hdigit : ∀ n < 16, hexUpper n ≠ cr := by decide
  have hlt := c.toNat_lt
  simp only [List.mem_cons, List.not_mem_nil, or_false, not_or]
  exact ⟨by decide, (hdigit _ (by omega)).symm, (hdigit _ (by omega)).symm⟩

/-- What becomes of the first byte: the loop ends, or goes on with no more line ends in the buffer
and, unless the byte is plain, with an encoded word. -/
lemma qprintWordLoop_cons {c : Byte} {cs out out' : CStr} {pout n pout' n' : ℕ}
    {encoded ended encoded' : Bool}
    (h : qprintWordLoop (c :: cs) out pout n encoded = .done (ended, out', pout', n', encoded')) :
    ((ended = true → n' = 0) ∧ (cr ∉ out → cr ∉ out')) ∨
      ∃ cs' out₁ pout₁ n₁ encoded₁, cs'.length ≤ cs.length ∧ (cr ∉ out → cr ∉ out₁) ∧
        qprintWordLoop cs' out₁ pout₁ n₁ encoded₁ = .done (ended, out', pout', n', encoded') ∧
        (encoded₁ = true ∨ encoded₁ = encoded ∧ PlainByte c ∧ cs' = cs) := by
  by_cases hn : n = 0
  · rw [qprintWordLoop, if_pos hn] at h
    cases h
    exact .inl ⟨fun _ => hn, id⟩
  · by_cases hplain : PlainByte c
    · rw [qprintWordLoop_plain hplain cs out pout hn] at h
      split_ifs at h with hend
      · exact .inr ⟨cs, out, pout, n, encoded, le_rfl, id, h, .inr ⟨rfl, hplain, rfl⟩⟩
      · obtain ⟨out₁, hstore, h⟩ := Checked.bind_eq_done.mp h
        exact .inr ⟨cs, out₁, _, _, encoded, le_rfl,
          cr_notMem_store hstore fun hcr => hend (.inr hcr), h, .inr ⟨rfl, hplain, rfl⟩⟩
    · rw [qprintWordLoop, if_neg hn] at h
      split_ifs at h with hend h32 hspecial h3 hz h127 h6
      · exact absurd (hend.imp id .inl) hplain
      · obtain ⟨out₁, hstore, h⟩ := Checked.bind_eq_done.mp h
        exact .inr ⟨cs, out₁, _, _, true, le_rfl, cr_notMem_store hstore (by decide), h, .inl rfl⟩
      · cases h
        exact .inl ⟨nofun, id⟩
      · obtain ⟨out₁, hstore, h⟩ := Checked.bind_eq_done.mp h
        exact .inr ⟨cs, out₁, _, _, true, le_rfl, cr_notMem_storeBytes hstore (cr_notMem_code c), h,
          .inl rfl⟩
      · simp only [not_or] at hspecial
        exact absurd (.inr (.inr ⟨hz.1, hz.2, hspecial.1, hspecial.2.1, hspecial.2.2.1⟩)) hplain
      · cases h
        exact .inl ⟨nofun, id⟩
      · obtain ⟨out₁, hstore, h⟩ := Checked.bind_eq_done.mp h
        have hout₁ := cr_notMem_storeBytes hstore (cr_notMem_code c)
        cases cs with
        | nil =>
            cases h
            exact .inl ⟨nofun, hout₁⟩
        | cons d ds =>
            obtain ⟨out₂, hstore', h⟩ := Checked.bind_eq_done.mp h
            exact .inr ⟨ds, out₂, _, _, true, Nat.le_succ _,
              fun hout => cr_notMem_storeBytes hstore' (cr_notMem_code d) (hout₁ hout), h, .inl rfl⟩
      · cases h
        exact .inl ⟨nofun, id⟩

/-- **The loop puts no line end in the buffer**, and comes to the end of a word without encoding it
only if the word is plain. -/
theorem qprintWordLoop_spec {text out out' : CStr} {pout n pout' n' : ℕ}
    {encoded ended encoded' : Bool}
    (h : qprintWordLoop text out pout n encoded = .done (ended, out', pout', n', encoded')) :
    (cr ∉ out → cr ∉ out') ∧
      (ended = true → n' ≠ 0 → encoded' = false → encoded = false ∧ PlainWord text) := by
  induction hk : text.length using Nat.strong_induction_on generalizing text out pout n encoded with
  | _ k ih =>
      cases text with
      | nil =>
          cases h
          exact ⟨id, fun _ _ hencoded => ⟨hencoded, nofun⟩⟩
      | cons c cs =>
          obtain ⟨hended, hout⟩ | ⟨cs', out₁, pout₁, n₁, encoded₁, hlen, hout, h, hcase⟩ :=
            qprintWordLoop_cons h
          · exact ⟨hout, fun htrue hn' => absurd (hended htrue) hn'⟩
          · rw [List.length_cons] at hk
            obtain ⟨hout', hplain⟩ := ih _ (by omega) h rfl
            refine ⟨fun hcr => hout' (hout hcr), fun htrue hn' hfalse => ?_⟩
            obtain ⟨hencoded₁, hcs'⟩ := hplain htrue hn' hfalse
            obtain htrue₁ | ⟨rfl, hc, rfl⟩ := hcase
            · exact absurd (hencoded₁.symm.trans htrue₁) Bool.false_ne_true
            · exact ⟨hencoded₁, List.forall_mem_cons.mpr ⟨hc, hcs'⟩⟩

lemma mem_of_readStr {mem : List Byte} {s : CStr} (h : readStr mem = .done s) : s ⊆ mem := by
  have hcstr := cstr_of_readStr h []
  rw [List.append_nil] at hcstr
  rw [← hcstr]
  exact (List.takeWhile_prefix _).subset

/-- **What becomes of a word** in a buffer of 1024 bytes. -/
theorem readStr_qprintEncodeWord {text out : CStr} {rc : ℤ} {s : CStr}
    (h : qprintEncodeWord text (List.replicate 1024 0) 1024 = .done (rc, out))
    (hs : readStr out = .done s) :
    (PlainWord text → s = text) ∧ (¬ PlainWord text → cr ∉ s) := by
  rw [qprintEncodeWord, if_neg (by omega)] at h
  obtain ⟨out₁, hmark, h⟩ := Checked.bind_eq_done.mp h
  obtain ⟨⟨ended, out₂, pout, n, encoded⟩, hloop, h⟩ := Checked.bind_eq_done.mp h
  have hcr₁ : cr ∉ out₁ :=
    cr_notMem_storeBytes hmark (by decide) fun hmem =>
      absurd (List.eq_of_mem_replicate hmem) (by decide)
  have hlen₁ : out₁.length = 1024 := (length_storeBytes hmark).2.trans List.length_replicate
  obtain ⟨hcr, hplain⟩ := qprintWordLoop_spec hloop
  have hcr₂ := hcr hcr₁
  refine ⟨fun htext => ?_, fun htext => ?_⟩
  · obtain ⟨rfl, rfl, hsum, hle, hlen⟩ := qprintWordLoop_of_plain htext (by omega) hloop
    have hzero : (0 : Byte) ∉ text := fun hmem => absurd (htext 0 hmem) (by decide)
    have hgo : ¬ (true = false ∨ n < 3) := by
      rintro (hfalse | hlt)
      · cases hfalse
      · omega
    replace h := (if_neg hgo).symm.trans h
    obtain ⟨out₃, -, h⟩ := Checked.bind_eq_done.mp h
    obtain ⟨out₄, hcopy, h⟩ := Checked.bind_eq_done.mp ((if_pos rfl).symm.trans h)
    cases h
    rw [storeBytes] at hcopy
    split_ifs at hcopy
    cases hcopy
    rw [List.take_zero, List.nil_append, cblock, List.append_assoc, List.singleton_append,
      readStr_append_nul hzero] at hs
    exact (Checked.done.inj hs).symm
  · by_cases hstop : ended = false ∨ n < 3
    · cases (if_pos hstop).symm.trans h
      exact fun hmem => hcr₂ (mem_of_readStr hs hmem)
    · replace h := (if_neg hstop).symm.trans h
      obtain ⟨out₃, hend, h⟩ := Checked.bind_eq_done.mp h
      have hcr₃ : cr ∉ out₃ := cr_notMem_storeBytes hend (by decide) hcr₂
      rw [not_or, Bool.not_eq_false, Nat.not_lt] at hstop
      have hencoded : encoded ≠ false :=
        fun hfalse => htext (hplain hstop.1 (by omega) hfalse).2
      cases (if_neg hencoded).symm.trans h
      exact fun hmem => hcr₃ (mem_of_readStr hs hmem)

end G7
