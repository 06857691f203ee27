import G7Ctrl.Core.Utf8
import G7Ctrl.Xstr.Block

/-!
# Padding of texts (`xmb_rpad`, `xmb_lpad`)

Both pad a text inside its own buffer.  `xmb_lpad` moves the text up byte by byte from its front, so
it can read bytes it has already written, and it ends the text where it would end if every code
point had one byte.

* `decode`, `xmbStrlen` — the number of code points, as `mbsrtowcs` counts them.
* `xmbRpad`, `xmbLpad` — the functions.
* **`shiftLoop_run`** — what the move leaves, overlapping or not.
* **`padsBoth_iff`** — exactly when both functions leave the padded text.
-/

namespace G7

/-! ## The functions -/

/-- `mbsrtowcs` without a destination, in a UTF-8 locale: the number of code points, if the bytes
are a text. -/
def decode : ℕ → List Byte → Option ℕ
  | _, [] => some 0
  | 0, _ :: _ => none
  | fuel + 1, c :: cs =>
      if isCodePoint ((c :: cs).take (seqLen c)) then
        (decode fuel ((c :: cs).drop (seqLen c))).map (· + 1)
      else none

/-- `xmb_strlen`; `none` for `(size_t)-1`. -/
def xmbStrlen (mem : List Byte) : Checked (Option ℕ) := do
  let s ← readStr mem
  return decode s.length s

/-- `for (i = 0; i < k; ++i) s[pos + i] = padc;` -/
def padLoop (padc : Byte) : ℕ → ℕ → List Byte → Checked (List Byte)
  | 0, _, mem => return mem
  | k + 1, pos, mem => do
      let mem ← store mem pos padc
      padLoop padc k (pos + 1) mem

/-- `for (; i < n; ++i) s[d + i] = s[i];`, with `k` rounds left. -/
def shiftLoop (d : ℕ) : ℕ → ℕ → List Byte → Checked (List Byte)
  | 0, _, mem => return mem
  | k + 1, i, mem => do
      let c ← load mem i
      let mem ← store mem (d + i) c
      shiftLoop d k (i + 1) mem

/-- `xmb_rpad`, with the buffer it leaves. -/
def xmbRpad (mem : List Byte) (pad maxlen : ℕ) (padc : Byte) : Checked (ℤ × List Byte) := do
  let mbn ← xmbStrlen mem
  let s ← readStr mem
  match mbn with
  | none => return (-1, mem)
  | some mbn =>
      if (s.length + pad) % 2 ^ 64 ≥ maxlen ∨ mbn > pad then return (-1, mem)
      else do
        let mem ← padLoop padc (pad - mbn) s.length mem
        let mem ← store mem (s.length + pad - mbn) 0
        return (0, mem)

/-- `xmb_lpad`, with the buffer it leaves. -/
def xmbLpad (mem : List Byte) (pad maxlen : ℕ) (padc : Byte) : Checked (ℤ × List Byte) := do
  let mbn ← xmbStrlen mem
  let s ← readStr mem
  match mbn with
  | none => return (-1, mem)
  | some mbn =>
      if (s.length + pad) % 2 ^ 64 ≥ maxlen ∨ mbn > pad then return (-1, mem)
      else do
        let mem ← store mem pad 0
        let mem ← shiftLoop (pad - mbn) s.length 0 mem
        let mem ← padLoop padc (pad - mbn) 0 mem
        return (0, mem)

/-! ## Counting -/

/-- A code point in front of other bytes is decoded as it is. -/
lemma decode_append (p : CodePoint) (fuel : ℕ) (s : List Byte) :
    decode (fuel + 1) (p.bytes ++ s) = (decode fuel s).map (· + 1) := by
  obtain ⟨a, tail, hp, -, -, hlen, -⟩ := p.exists_cons
  have hbytes : p.bytes.length = seqLen a := by rw [hp, List.length_cons, hlen]
  have htake : (a :: (tail ++ s)).take (seqLen a) = p.bytes := by
    rw [← List.cons_append, ← hp, ← hbytes, List.take_left]
  have hdrop : (a :: (tail ++ s)).drop (seqLen a) = s := by
    rw [← List.cons_append, ← hp, ← hbytes, List.drop_left]
  rw [hp, List.cons_append, decode, htake, hdrop, if_pos p.valid]

/-- **A text is counted**, whatever fuel is left over. -/
lemma decode_utf8Bytes (t : List CodePoint) {fuel : ℕ} (h : (utf8Bytes t).length ≤ fuel) :
    decode fuel (utf8Bytes t) = some t.length := by
  induction t generalizing fuel with
  | nil =>
      cases fuel with
      | zero => rfl
      | succ fuel => rfl
  | cons p t ih =>
      have hpos := p.length_pos
      rw [utf8Bytes_cons, List.length_append] at h
      obtain ⟨fuel, rfl⟩ := Nat.exists_eq_succ_of_ne_zero (show fuel ≠ 0 by omega)
      rw [utf8Bytes_cons, decode_append, ih (by omega), Option.map_some, List.length_cons]

/-- **`xmb_strlen`** is the number of code points. -/
theorem xmbStrlen_eq {t : List CodePoint} (ht : (0 : Byte) ∉ utf8Bytes t) (rest : List Byte) :
    xmbStrlen (utf8Bytes t ++ 0 :: rest) = .done (some t.length) := by
  rw [xmbStrlen, readStr_append_nul ht, Checked.done_bind, decode_utf8Bytes t le_rfl]
  rfl

/-! ## The loops -/

/-- Padding writes its bytes, or leaves the buffer. -/
lemma padLoop_eq (padc : Byte) (k pos : ℕ) {mem : List Byte} (h : pos ≤ mem.length) :
    padLoop padc k pos mem = storeBytes mem pos (List.replicate k padc) := by
  induction k generalizing pos mem with
  | zero =>
      rw [List.replicate_zero, storeBytes_nil h]
      rfl
  | succ k ih =>
      rw [padLoop, List.replicate_succ, storeBytes_cons]
      rcases Nat.lt_or_eq_of_le h with hlt | rfl
      · rw [store_eq_done hlt, Checked.done_bind, Checked.done_bind]
        exact ih (pos + 1) (by rwa [List.length_set])
      · rw [store_eq_fault le_rfl]
        rfl

/-- The buffer after the first `i` rounds of the move: the first `d` bytes are repeated. -/
def shifted (d : ℕ) (mem : List Byte) (i j : ℕ) : Option Byte :=
  if d ≤ j ∧ j < d + i then mem[(j - d) % d]? else mem[j]?

/-- What the next round reads is in the period already. -/
lemma shifted_self (d : ℕ) (mem : List Byte) (i : ℕ) : shifted d mem i i = mem[i % d]? := by
  rw [shifted]
  rcases Nat.eq_zero_or_pos d with rfl | hd
  · rw [if_neg (by omega), Nat.mod_zero]
  · by_cases hi : d ≤ i
    · rw [if_pos ⟨hi, by omega⟩, Nat.mod_eq_sub_mod hi]
    · rw [if_neg (by omega), Nat.mod_eq_of_lt (by omega)]

/-- One round more. -/
lemma shifted_succ (d : ℕ) (mem : List Byte) (i j : ℕ) :
    shifted d mem (i + 1) j = if j = d + i then mem[i % d]? else shifted d mem i j := by
  rw [shifted, shifted]
  by_cases hj : j = d + i
  · rw [if_pos hj, if_pos (by omega), hj, Nat.add_sub_cancel_left]
  · rw [if_neg hj]
    by_cases hin : d ≤ j ∧ j < d + i
    · rw [if_pos hin, if_pos (by omega)]
    · rw [if_neg hin, if_neg (by omega)]

/-- **The move** repeats the first `d` bytes. -/
theorem shiftLoop_run (d : ℕ) (start : List Byte) (k i : ℕ) {mem : List Byte}
    (hlen : mem.length = start.length) (hroom : d + (i + k) ≤ start.length)
    (hinv : ∀ j, mem[j]? = shifted d start i j) :
    ∃ mem', shiftLoop d k i mem = .done mem' ∧ mem'.length = start.length ∧
      ∀ j, mem'[j]? = shifted d start (i + k) j := by
  induction k generalizing i mem with
  | zero => exact ⟨mem, rfl, hlen, hinv⟩
  | succ k ih =>
      have hi : i < mem.length := by omega
      have hread : mem[i]? = start[i % d]? := (hinv i).trans (shifted_self d start i)
      have hload : load mem i = .done mem[i] :=
        load_eq_done_iff.mpr (List.getElem?_eq_getElem hi)
      have hstore : store mem (d + i) mem[i] = .done (mem.set (d + i) mem[i]) :=
        store_eq_done (by omega)
      have hset : (mem.set (d + i) mem[i]).length = start.length := by rw [List.length_set, hlen]
      obtain ⟨mem', hrun, hlen', hinv'⟩ := ih (i + 1) hset (by omega) (fun j => by
          rw [shifted_succ, List.getElem?_set, ← hread, hinv j, List.getElem?_eq_getElem hi]
          by_cases hj : j = d + i
          · rw [if_pos hj.symm, if_pos (by omega), if_pos hj]
          · rw [if_neg (Ne.symm hj), if_neg hj])
      refine ⟨mem', ?_, hlen', fun j => ?_⟩
      · rw [shiftLoop, hload, Checked.done_bind, hstore, Checked.done_bind, hrun]
      · rw [hinv' j, Nat.add_right_comm, Nat.add_assoc]

/-! ## What is left in the buffer -/

/-- The buffer holds a text of `pad` code points, with a NUL, in fewer than `maxlen` bytes. -/
structure Padded (mem : List Byte) (pad maxlen : ℕ) (text : List Byte) : Prop where
  held : ∃ back, mem = text ++ 0 :: back
  nul_free : (0 : Byte) ∉ text
  count : charCount text = pad
  length_lt : text.length < maxlen

/-- A text is held if its bytes are there and a NUL is behind them. -/
lemma held_iff {mem text : List Byte} :
    (∃ back, mem = text ++ 0 :: back) ↔
      (∀ j < text.length, mem[j]? = text[j]?) ∧ mem[text.length]? = some 0 := by
  constructor
  · rintro ⟨back, rfl⟩
    refine ⟨fun j hj => List.getElem?_append_left hj, ?_⟩
    rw [List.getElem?_append_right le_rfl, Nat.sub_self]
    rfl
  · rintro ⟨hbytes, hnul⟩
    refine ⟨mem.drop (text.length + 1), List.ext_getElem? fun j => ?_⟩
    rcases Nat.lt_trichotomy j text.length with hlt | rfl | hgt
    · rw [hbytes j hlt, List.getElem?_append_left hlt]
    · rw [hnul, List.getElem?_append_right le_rfl, Nat.sub_self]
      rfl
    · obtain ⟨d, rfl⟩ := Nat.exists_eq_add_of_lt hgt
      have hindex : text.length + d + 1 - text.length = d + 1 := by omega
      have hdrop : text.length + 1 + d = text.length + d + 1 := by omega
      rw [List.getElem?_append_right hgt.le, hindex, List.getElem?_cons_succ, List.getElem?_drop,
        hdrop]

/-- The bytes of the padding. -/
lemma charCount_pads {padc : Byte} (hpadc : isCodePoint [padc] = true) (d : ℕ) :
    charCount (List.replicate d padc) = d := by
  induction d with
  | zero => rfl
  | succ d ih =>
      have hone := CodePoint.charCount_take ⟨[padc], hpadc⟩ (n := 1) Nat.one_pos
      rw [List.replicate_succ, ← List.singleton_append, charCount_append, ih, Nat.add_comm]
      exact congrArg (d + ·) hone

/-- Both paddings have the number of code points that was asked for. -/
lemma charCount_padded {t : List CodePoint} {pad : ℕ} (hpad : t.length ≤ pad) {padc : Byte}
    (hpadc : isCodePoint [padc] = true) :
    charCount (List.replicate (pad - t.length) padc) + charCount (utf8Bytes t) = pad := by
  rw [charCount_pads hpadc, charCount_utf8Bytes]
  omega

/-- The bytes repeat after `d` of them. -/
def Repeats (d : ℕ) (s : List Byte) : Prop := ∀ i < s.length, s[i]? = s[i % d]?

/-- What `xmb_lpad` leaves: the padding, the first bytes over and over, and what was behind them. -/
lemma lpad_run (padc : Byte) {d n : ℕ} {mem : List Byte} (hroom : d + n ≤ mem.length) :
    ∃ mem', (shiftLoop d n 0 mem >>= fun mem => padLoop padc d 0 mem) = .done mem' ∧
      ∀ j, mem'[j]? = if j < d then some padc else
        if j < d + n then mem[(j - d) % d]? else mem[j]? := by
  obtain ⟨mem', hrun, hlen, hshift⟩ := shiftLoop_run d mem n 0 (Eq.refl mem.length) (by omega)
    (fun j => by rw [shifted, if_neg (by omega)])
  have hfits : (List.replicate d padc).length ≤ mem'.length := by
    rw [List.length_replicate]
    omega
  refine ⟨List.replicate d padc ++ mem'.drop (List.replicate d padc).length, ?_, fun j => ?_⟩
  · rw [hrun, Checked.done_bind, padLoop_eq padc d 0 (Nat.zero_le _), storeBytes_start hfits]
  · by_cases hj : j < d
    · rw [List.getElem?_append_left (by rwa [List.length_replicate]), if_pos hj,
        List.getElem?_replicate, if_pos hj]
    · have hback : d + (j - d) = j := by omega
      rw [List.getElem?_append_right (by rw [List.length_replicate]; omega), List.getElem?_drop,
        List.length_replicate, hback, hshift j, shifted, if_neg hj, Nat.zero_add]
      by_cases hin : j < d + n
      · rw [if_pos hin, if_pos ⟨by omega, hin⟩]
      · rw [if_neg hin, if_neg (fun h => hin h.2)]

/-! ## The two paddings -/

section Paddings

variable {t : List CodePoint} (ht : (0 : Byte) ∉ utf8Bytes t) {pad : ℕ} (hpad : t.length ≤ pad)
include ht hpad

omit ht hpad in
lemma length_le_utf8Bytes (t : List CodePoint) : t.length ≤ (utf8Bytes t).length := by
  rw [← charCount_utf8Bytes]
  exact List.countP_le_length

/-- `xmb_rpad` where it does not refuse. -/
lemma xmbRpad_eq {maxlen : ℕ} (rest : List Byte) (padc : Byte)
    (hcheck : ((utf8Bytes t).length + pad) % 2 ^ 64 < maxlen) :
    xmbRpad (utf8Bytes t ++ 0 :: rest) pad maxlen padc = do
      let mem ← padLoop padc (pad - t.length) (utf8Bytes t).length (utf8Bytes t ++ 0 :: rest)
      let mem ← store mem ((utf8Bytes t).length + pad - t.length) 0
      return (0, mem) := by
  rw [xmbRpad, xmbStrlen_eq ht, Checked.done_bind, readStr_append_nul ht, Checked.done_bind]
  exact if_neg (by omega)

/-- `xmb_lpad` where it does not refuse. -/
lemma xmbLpad_eq {maxlen : ℕ} (rest : List Byte) (padc : Byte)
    (hcheck : ((utf8Bytes t).length + pad) % 2 ^ 64 < maxlen) :
    xmbLpad (utf8Bytes t ++ 0 :: rest) pad maxlen padc = do
      let mem ← store (utf8Bytes t ++ 0 :: rest) pad 0
      let mem ← shiftLoop (pad - t.length) (utf8Bytes t).length 0 mem
      let mem ← padLoop padc (pad - t.length) 0 mem
      return (0, mem) := by
  rw [xmbLpad, xmbStrlen_eq ht, Checked.done_bind, readStr_append_nul ht, Checked.done_bind]
  exact if_neg (by omega)

/-- **Where the sum of the lengths is too large** neither of them returns 0: they refuse, or the sum
wraps and they leave the buffer. -/
lemma not_zero_of_large {maxlen : ℕ} {rest : List Byte} (padc : Byte)
    (hmax : maxlen ≤ (utf8Bytes t ++ 0 :: rest).length)
    (hblock : (utf8Bytes t ++ 0 :: rest).length < 2 ^ 63)
    (hlarge : maxlen ≤ (utf8Bytes t).length + pad) (mem' : List Byte) :
    xmbRpad (utf8Bytes t ++ 0 :: rest) pad maxlen padc ≠ .done (0, mem') ∧
      xmbLpad (utf8Bytes t ++ 0 :: rest) pad maxlen padc ≠ .done (0, mem') := by
  have hchars := length_le_utf8Bytes t
  have hn : (utf8Bytes t).length < (utf8Bytes t ++ 0 :: rest).length := by
    rw [List.length_append, List.length_cons]
    omega
  by_cases hcheck : ((utf8Bytes t).length + pad) % 2 ^ 64 < maxlen
  · -- the sum wraps, so the padding is longer than any buffer
    have hfar : (utf8Bytes t ++ 0 :: rest).length <
        (utf8Bytes t).length + (List.replicate (pad - t.length) padc).length := by
      rw [List.length_replicate]
      omega
    rw [xmbRpad_eq ht hpad rest padc hcheck, xmbLpad_eq ht hpad rest padc hcheck,
      padLoop_eq padc _ _ hn.le, storeBytes, if_neg (Nat.not_le.mpr hfar),
      store_eq_fault (by omega)]
    constructor
    · rintro ⟨⟩
    · rintro ⟨⟩
  · have hrefused : ((utf8Bytes t).length + pad) % 2 ^ 64 ≥ maxlen ∨ t.length > pad :=
      Or.inl (Nat.not_lt.mp hcheck)
    constructor
    · rw [xmbRpad, xmbStrlen_eq ht, Checked.done_bind, readStr_append_nul ht, Checked.done_bind]
      intro h
      cases (if_pos hrefused).symm.trans h
    · rw [xmbLpad, xmbStrlen_eq ht, Checked.done_bind, readStr_append_nul ht, Checked.done_bind]
      intro h
      cases (if_pos hrefused).symm.trans h

variable {maxlen : ℕ} {rest : List Byte} (padc : Byte)
  (hmax : maxlen ≤ (utf8Bytes t ++ 0 :: rest).length) (hsmall : (utf8Bytes t).length + pad < maxlen)
include hmax hsmall

/-- Otherwise `xmb_rpad` puts the padding behind the text. -/
lemma xmbRpad_done : ∃ back, xmbRpad (utf8Bytes t ++ 0 :: rest) pad maxlen padc =
    .done (0, utf8Bytes t ++ List.replicate (pad - t.length) padc ++ 0 :: back) := by
  have hchars := length_le_utf8Bytes t
  have hlen : (utf8Bytes t ++ 0 :: rest).length = (utf8Bytes t).length + (0 :: rest).length :=
    List.length_append
  have hfits : (List.replicate (pad - t.length) padc).length ≤ (0 :: rest).length := by
    rw [List.length_replicate]
    omega
  have hplace : (utf8Bytes t).length + pad - t.length =
      (utf8Bytes t ++ List.replicate (pad - t.length) padc).length := by
    rw [List.length_append, List.length_replicate]
    omega
  obtain ⟨c, back, hback⟩ : ∃ c back,
      (0 :: rest).drop (List.replicate (pad - t.length) padc).length = c :: back := by
    refine List.exists_cons_of_ne_nil fun hnil => ?_
    have hend := List.drop_eq_nil_iff.mp hnil
    rw [List.length_replicate] at hend
    omega
  refine ⟨back, ?_⟩
  rw [xmbRpad_eq ht hpad rest padc (by omega), padLoop_eq padc _ _ (by omega),
    storeBytes_append _ _ hfits, Checked.done_bind, hback, ← List.append_assoc, hplace,
    store_append_length, Checked.done_bind]
  rfl

/-- And `xmb_lpad` leaves the padding, the first bytes of the text over and over, and what was
behind them. -/
lemma xmbLpad_done : ∃ mem', xmbLpad (utf8Bytes t ++ 0 :: rest) pad maxlen padc = .done (0, mem') ∧
    ∀ j, mem'[j]? = if j < pad - t.length then some padc else
      if j < pad - t.length + (utf8Bytes t).length then
        ((utf8Bytes t ++ 0 :: rest).set pad 0)[(j - (pad - t.length)) % (pad - t.length)]?
      else ((utf8Bytes t ++ 0 :: rest).set pad 0)[j]? := by
  have hstore : store (utf8Bytes t ++ 0 :: rest) pad 0 =
      .done ((utf8Bytes t ++ 0 :: rest).set pad 0) := store_eq_done (by omega)
  have hroom : pad - t.length + (utf8Bytes t).length ≤ ((utf8Bytes t ++ 0 :: rest).set pad 0).length := by
    rw [List.length_set]
    omega
  obtain ⟨mem', hrun, hbytes⟩ := lpad_run padc hroom
  refine ⟨mem', ?_, hbytes⟩
  rw [xmbLpad_eq ht hpad rest padc (by omega), hstore, Checked.done_bind, ← Checked.bind_assoc,
    hrun, Checked.done_bind]
  rfl

omit ht hpad hmax hsmall in
/-- The bytes that `xmb_lpad` leaves are the padded text if the first bytes were not needed again
and a NUL is behind them. -/
lemma held_lpad_iff {mem' : List Byte}
    (hbytes : ∀ j, mem'[j]? = if j < pad - t.length then some padc else
      if j < pad - t.length + (utf8Bytes t).length then
        ((utf8Bytes t ++ 0 :: rest).set pad 0)[(j - (pad - t.length)) % (pad - t.length)]?
      else ((utf8Bytes t ++ 0 :: rest).set pad 0)[j]?) :
    (∃ back, mem' = List.replicate (pad - t.length) padc ++ utf8Bytes t ++ 0 :: back) ↔
      (∀ i < (utf8Bytes t).length,
        ((utf8Bytes t ++ 0 :: rest).set pad 0)[i % (pad - t.length)]? = (utf8Bytes t)[i]?) ∧
      ((utf8Bytes t ++ 0 :: rest).set pad 0)[pad - t.length + (utf8Bytes t).length]? = some 0 := by
  rw [held_iff, List.length_append, List.length_replicate, hbytes (_ + _), if_neg (by omega),
    if_neg (by omega)]
  refine and_congr_left fun _ => ⟨fun h i hi => ?_, fun h j hj => ?_⟩
  · have hplace := h (pad - t.length + i) (by omega)
    rwa [hbytes, if_neg (by omega), if_pos (by omega), Nat.add_sub_cancel_left,
      List.getElem?_append_right (by rw [List.length_replicate]; omega), List.length_replicate,
      Nat.add_sub_cancel_left] at hplace
  · rw [hbytes]
    by_cases hfront : j < pad - t.length
    · rw [if_pos hfront, List.getElem?_append_left (by rwa [List.length_replicate]),
        List.getElem?_replicate, if_pos hfront]
    · rw [if_neg hfront, if_pos hj, h _ (by omega),
        List.getElem?_append_right (by rw [List.length_replicate]; omega), List.length_replicate]

/-- In terms of the buffer as it was: the first NUL is written inside the text, or where one is
needed, or behind the first bytes. -/
lemma held_bytes_iff :
    ((∀ i < (utf8Bytes t).length,
        ((utf8Bytes t ++ 0 :: rest).set pad 0)[i % (pad - t.length)]? = (utf8Bytes t)[i]?) ∧
      ((utf8Bytes t ++ 0 :: rest).set pad 0)[pad - t.length + (utf8Bytes t).length]? = some 0) ↔
    Repeats (pad - t.length) (utf8Bytes t) ∧ ((utf8Bytes t).length = t.length ∨
      t.length < pad ∧
        (utf8Bytes t ++ 0 :: rest)[pad - t.length + (utf8Bytes t).length]? = some 0) := by
  have hchars := length_le_utf8Bytes t
  rcases Nat.eq_or_lt_of_le hpad with rfl | hlt
  · -- no padding: the NUL is written behind the last code point if each has one byte
    rw [Nat.sub_self, Nat.zero_add]
    simp only [Repeats, Nat.mod_zero, implies_true, true_and, lt_self_iff_false, false_and, or_false]
    constructor
    · rintro ⟨hbytes, -⟩
      by_contra hne
      have hin : t.length < (utf8Bytes t).length := by omega
      have hzero := hbytes t.length hin
      rw [List.getElem?_set_self (by omega), List.getElem?_eq_getElem hin] at hzero
      exact ht (Option.some.inj hzero ▸ List.getElem_mem hin)
    · intro hone
      refine ⟨fun i hi => ?_, ?_⟩
      · rw [List.getElem?_set_ne (by omega), List.getElem?_append_left hi]
      · rw [hone, List.getElem?_set_self (by omega)]
  · have hfirst (i : ℕ) (hi : i < (utf8Bytes t).length) :
        ((utf8Bytes t ++ 0 :: rest).set pad 0)[i % (pad - t.length)]? =
          (utf8Bytes t)[i % (pad - t.length)]? := by
      have hmod := Nat.mod_lt i (show 0 < pad - t.length by omega)
      have hle := Nat.mod_le i (pad - t.length)
      rw [List.getElem?_set_ne (by omega), List.getElem?_append_left (by omega)]
    refine and_congr ⟨fun h i hi => ?_, fun h i hi => ?_⟩ ?_
    · rw [← hfirst i hi, h i hi]
    · rw [hfirst i hi, ← h i hi]
    · by_cases hone : (utf8Bytes t).length = t.length
      · have hplace : pad - t.length + (utf8Bytes t).length = pad := by omega
        rw [hplace, List.getElem?_set_self (by omega)]
        exact iff_of_true rfl (Or.inl hone)
      · rw [List.getElem?_set_ne (by omega)]
        exact ⟨fun h => Or.inr ⟨hlt, h⟩, fun h => (h.resolve_left hone).2⟩

end Paddings

/-- Wherever the functions return 0, each leaves its padded text. -/
def PadsBoth (t : List CodePoint) (rest : List Byte) (pad maxlen : ℕ) (padc : Byte) : Prop :=
  (∀ mem', xmbRpad (utf8Bytes t ++ 0 :: rest) pad maxlen padc = .done (0, mem') →
    Padded mem' pad maxlen (utf8Bytes t ++ List.replicate (pad - t.length) padc)) ∧
  ∀ mem', xmbLpad (utf8Bytes t ++ 0 :: rest) pad maxlen padc = .done (0, mem') →
    Padded mem' pad maxlen (List.replicate (pad - t.length) padc ++ utf8Bytes t)

/-- **Exactly when both paddings are right.**  They refuse; or the bytes of the text repeat after as
many of them as there is padding, and either all code points have one byte or a NUL is already where
the padded text ends. -/
theorem padsBoth_iff (t : List CodePoint) (rest : List Byte) (pad maxlen : ℕ) (padc : Byte)
    (ht : (0 : Byte) ∉ utf8Bytes t) (hpad : t.length ≤ pad) (hpadc : isCodePoint [padc] = true)
    (hnul : padc ≠ 0) (hmax : maxlen ≤ (utf8Bytes t ++ 0 :: rest).length)
    (hblock : (utf8Bytes t ++ 0 :: rest).length < 2 ^ 63) :
    PadsBoth t rest pad maxlen padc ↔
      maxlen ≤ (utf8Bytes t).length + pad ∨
      Repeats (pad - t.length) (utf8Bytes t) ∧ ((utf8Bytes t).length = t.length ∨
        t.length < pad ∧
          (utf8Bytes t ++ 0 :: rest)[pad - t.length + (utf8Bytes t).length]? = some 0) := by
  rcases Nat.lt_or_ge ((utf8Bytes t).length + pad) maxlen with hsmall | hlarge
  · have hchars := length_le_utf8Bytes t
    have hcount := charCount_padded hpad hpadc
    have hfree : (0 : Byte) ∉ List.replicate (pad - t.length) padc :=
      fun hmem => hnul (List.eq_of_mem_replicate hmem).symm
    obtain ⟨back, hright⟩ := xmbRpad_done ht hpad padc hmax hsmall
    obtain ⟨mem', hleft, hbytes⟩ := xmbLpad_done ht hpad padc hmax hsmall
    rw [or_iff_right (Nat.not_le.mpr hsmall), ← held_bytes_iff ht hpad hmax hsmall,
      ← held_lpad_iff padc hbytes]
    constructor
    · rintro ⟨-, hlpad⟩
      exact (hlpad mem' hleft).held
    · intro hheld
      refine ⟨fun mem h => ?_, fun mem h => ?_⟩
      · cases hright.symm.trans h
        refine ⟨⟨back, rfl⟩, ?_, ?_, ?_⟩
        · exact fun hmem => (List.mem_append.mp hmem).elim ht hfree
        · rw [charCount_append, Nat.add_comm, hcount]
        · rw [List.length_append, List.length_replicate]
          omega
      · cases hleft.symm.trans h
        refine ⟨hheld, ?_, ?_, ?_⟩
        · exact fun hmem => (List.mem_append.mp hmem).elim hfree ht
        · rw [charCount_append, hcount]
        · rw [List.length_append, List.length_replicate]
          omega
  · have hnot := not_zero_of_large ht hpad padc hmax hblock hlarge
    exact iff_of_true ⟨fun mem' h => absurd h (hnot mem').1, fun mem' h => absurd h (hnot mem').2⟩
      (Or.inl hlarge)

/-- Two equal letters, padded by one. -/
theorem padsBoth_iff_letters :
    PadsBoth [⟨[ch 'a'], by decide⟩, ⟨[ch 'a'], by decide⟩] [1, 2, 3, 4, 5] 3 8 (ch ' ') := by
  refine (padsBoth_iff [⟨[ch 'a'], by decide⟩, ⟨[ch 'a'], by decide⟩] [1, 2, 3, 4, 5] 3 8 (ch ' ')
    (by decide) (by decide) (by decide) (by decide) (by decide) (by decide)).mpr
    (Or.inr ⟨?_, Or.inl (by decide)⟩)
  unfold Repeats
  decide

/-- The text "abc", padded on the left by one, becomes " aaa". -/
theorem lpad_repeats : ¬ PadsBoth
    [⟨[ch 'a'], by decide⟩, ⟨[ch 'b'], by decide⟩, ⟨[ch 'c'], by decide⟩] [0, 0, 0, 0] 4 8 (ch ' ') := by
  rintro ⟨-, hleft⟩
  have hrun : xmbLpad [ch 'a', ch 'b', ch 'c', 0, 0, 0, 0, 0] 4 8 (ch ' ') =
      .done (0, [ch ' ', ch 'a', ch 'a', ch 'a', 0, 0, 0, 0]) := by decide +kernel
  exact absurd ((held_iff.mp (hleft _ hrun).held).1 2 (by decide)) (by decide)

end G7
