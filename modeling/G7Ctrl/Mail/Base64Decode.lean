import G7Ctrl.Mail.Base64

/-!
# Decoding base64 (`base64ed.c`)

`base64decode` is modelled with its two buffers.  The last four characters are not decoded in the
loop, since they may be padded.

* `base64decode` — the function.
* **`base64decode_eq`** — it writes the bytes of the text and a NUL, or faults where they do not
  fit.
* **`base64RoundTrips_iff`** — when encoding and decoding, or decoding and encoding, gives back what
  it was given.
* **`base64Bounded_iff`** — when both functions stay inside their buffers.
-/

namespace G7

/-! ## The function -/

/-- `base64_decodechar`, where `strchr` finds the NUL of the table too. -/
def base64DecodeChar (c : Byte) : Byte :=
  if c ∈ b64table then (b64table.idxOf c).toUInt8 else 0

/-- `(a1 << 2) | (a2 >> 4)`, of two characters. -/
def decodeFirst (w x : Byte) : Byte := (base64DecodeChar w <<< 2) ||| (base64DecodeChar x >>> 4)

/-- `(a2 << 4) | (a3 >> 2)` -/
def decodeSecond (x y : Byte) : Byte := (base64DecodeChar x <<< 4) ||| (base64DecodeChar y >>> 2)

/-- `(a3 << 6) | a4` -/
def decodeThird (y z : Byte) : Byte := (base64DecodeChar y <<< 6) ||| base64DecodeChar z

/-- The loop of `base64decode`, with `n`, `pinbuff`, `poutbuff` and the output buffer. -/
def decodeLoop (inbuff : List Byte) : ℕ → ℕ → ℕ → ℕ → List Byte → Checked (ℕ × ℕ × List Byte)
  | 0, _, _, _, _ => .timeout
  | fuel + 1, n, pin, pout, out =>
      if n > 4 then do
        let w ← load inbuff pin
        let x ← load inbuff (pin + 1)
        let y ← load inbuff (pin + 2)
        let z ← load inbuff (pin + 3)
        let out ← store out pout (decodeFirst w x)
        let out ← store out (pout + 1) (decodeSecond x y)
        let out ← store out (pout + 2) (decodeThird y z)
        decodeLoop inbuff fuel (n - 4) (pin + 4) (pout + 3) out
      else return (pin, pout, out)

/-- The last four characters. -/
def decodeRest (inbuff : List Byte) (pin pout : ℕ) (out : List Byte) :
    Checked (ℕ × List Byte) := do
  let w ← load inbuff pin
  let x ← load inbuff (pin + 1)
  let out ← store out pout (decodeFirst w x)
  let y ← load inbuff (pin + 2)
  if y ≠ ch '=' then do
    let z ← load inbuff (pin + 3)
    let out ← store out (pout + 1) (decodeSecond x y)
    if z ≠ ch '=' then do
      let out ← store out (pout + 2) (decodeThird y z)
      return (pout + 3, out)
    else return (pout + 2, out)
  else return (pout + 1, out)

/-- `base64decode`, with the output buffer it leaves.  The length of the input is an `unsigned`. -/
def base64decode (inbuff : List Byte) (inbuffLen : UInt32) (outbuff : List Byte)
    (outbuffMaxlen : ℕ) : Checked (ℤ × List Byte) :=
  if outbuffMaxlen < inbuffLen.toNat / 4 * 3 + 1 ∨ inbuffLen.toNat % 4 ≠ 0 then
    return (-1, outbuff)
  else do
    let out ← store outbuff 0 0
    let (pin, pout, out) ← decodeLoop inbuff (inbuffLen.toNat + 1) inbuffLen.toNat 0 0 out
    let (pout, out) ← decodeRest inbuff pin pout out
    let out ← store out pout 0
    return (0, out)

/-! ## What is written -/

/-- The bytes of the last four characters. -/
def lastBytes (w x y z : Byte) : List Byte :=
  decodeFirst w x :: if y ≠ ch '=' then
    decodeSecond x y :: if z ≠ ch '=' then [decodeThird y z] else []
  else []

/-- The bytes of a text of a multiple of four characters. -/
def decodedBytes : List Byte → List Byte
  | [w, x, y, z] => lastBytes w x y z
  | w :: x :: y :: z :: text =>
      decodeFirst w x :: decodeSecond x y :: decodeThird y z :: decodedBytes text
  | _ => []

lemma decodedBytes_cons {text : List Byte} (h : text ≠ []) (w x y z : Byte) :
    decodedBytes (w :: x :: y :: z :: text) =
      decodeFirst w x :: decodeSecond x y :: decodeThird y z :: decodedBytes text := by
  rw [decodedBytes]
  simpa using h

lemma load_front (front : List Byte) {i : ℕ} {a : Byte} {text : List Byte}
    (h : text[i]? = some a) : load (front ++ text) (front.length + i) = .done a := by
  rw [load_eq_done_iff, List.getElem?_append_right (Nat.le_add_right _ _), Nat.add_sub_cancel_left,
    h]

lemma storeBytes_pair (out : List Byte) (p : ℕ) (a b : Byte) (bs : List Byte) :
    storeBytes out p (a :: b :: bs) = (do
      let out ← store out p a
      let out ← store out (p + 1) b
      storeBytes out (p + 2) bs) := by
  simp only [storeBytes_cons, Nat.add_assoc, Nat.reduceAdd]

lemma storeBytes_three (out : List Byte) (p : ℕ) (a b c : Byte) (bs : List Byte) :
    storeBytes out p (a :: b :: c :: bs) = (do
      let out ← store out p a
      let out ← store out (p + 1) b
      let out ← store out (p + 2) c
      storeBytes out (p + 3) bs) := by
  simp only [storeBytes_cons, Nat.add_assoc, Nat.reduceAdd]

/-- **The loop and what is behind it** write the bytes of the characters that are left, and the
NUL.  A length of 0 has four characters read all the same. -/
lemma decodeLoop_eq (after : List Byte) {text : List Byte} (hfour : text.length % 4 = 0)
    (hne : text ≠ []) : ∀ (fuel : ℕ) (front : List Byte) (n pout : ℕ) (out : List Byte),
      (n = text.length ∨ n ≤ 4 ∧ text.length = 4) → n < fuel →
      (decodeLoop (front ++ (text ++ after)) fuel n front.length pout out >>= fun r =>
        decodeRest (front ++ (text ++ after)) r.1 r.2.1 r.2.2 >>= fun r => store r.2 r.1 0) =
          storeBytes out pout (decodedBytes text ++ [0]) := by
  induction text using decodedBytes.induct with
  | case1 w x y z =>
      intro fuel front n pout out hn hfuel
      obtain ⟨fuel, rfl⟩ := Nat.exists_eq_succ_of_ne_zero (Nat.ne_zero_of_lt hfuel)
      have hexit : ¬ n > 4 := by
        simp only [List.length_cons, List.length_nil] at hn
        omega
      have h0 : load (front ++ ([w, x, y, z] ++ after)) front.length = .done w :=
        load_front (i := 0) front rfl
      have h1 : load (front ++ ([w, x, y, z] ++ after)) (front.length + 1) = .done x :=
        load_front front rfl
      have h2 : load (front ++ ([w, x, y, z] ++ after)) (front.length + 2) = .done y :=
        load_front front rfl
      have h3 : load (front ++ ([w, x, y, z] ++ after)) (front.length + 3) = .done z :=
        load_front front rfl
      simp only [decodeLoop, if_neg hexit, Checked.pure_eq, Checked.done_bind, decodeRest, h0, h1,
        h2, h3, decodedBytes, lastBytes]
      split_ifs with hy hz
      · simp only [Checked.bind_assoc, Checked.done_bind, List.cons_append, List.nil_append,
          storeBytes_three, storeBytes_singleton]
      · simp only [Checked.bind_assoc, Checked.done_bind, List.cons_append, List.nil_append,
          storeBytes_pair, storeBytes_singleton]
      · simp only [Checked.bind_assoc, Checked.done_bind, List.cons_append, List.nil_append]
        rw [storeBytes_cons]
        simp only [storeBytes_singleton]
  | case2 w x y z text htext ih =>
      intro fuel front n pout out hn hfuel
      obtain ⟨fuel, rfl⟩ := Nat.exists_eq_succ_of_ne_zero (Nat.ne_zero_of_lt hfuel)
      have hne' : text ≠ [] := by simpa using htext
      have hpos := List.length_pos_iff.mpr hne'
      simp only [List.length_cons] at hn hfour
      have hmore : n > 4 := by omega
      have h0 : load (front ++ w :: x :: y :: z :: (text ++ after)) front.length = .done w :=
        load_front (i := 0) front rfl
      have h1 : load (front ++ w :: x :: y :: z :: (text ++ after)) (front.length + 1) = .done x :=
        load_front front rfl
      have h2 : load (front ++ w :: x :: y :: z :: (text ++ after)) (front.length + 2) = .done y :=
        load_front front rfl
      have h3 : load (front ++ w :: x :: y :: z :: (text ++ after)) (front.length + 3) = .done z :=
        load_front front rfl
      have hrun := fun out => ih (by omega) hne' fuel (front ++ [w, x, y, z]) (n - 4) (pout + 3) out
        (Or.inl (by omega)) (by omega)
      simp only [List.append_assoc, List.cons_append, List.nil_append, List.length_append,
        List.length_cons, List.length_nil, Nat.zero_add] at hrun
      simp only [List.cons_append, decodeLoop, if_pos hmore, h0, h1, h2, h3, Checked.done_bind,
        Checked.bind_assoc, decodedBytes_cons hne', storeBytes_three, hrun]
  | case3 text hlast hcons =>
      match text, hne, hfour with
      | [_], _, h => exact absurd h (by simp)
      | [_, _], _, h => exact absurd h (by simp)
      | [_, _, _], _, h => exact absurd h (by simp)
      | w :: x :: y :: z :: text, _, _ => exact absurd rfl (hcons w x y z text)

/-- How many bytes that are. -/
lemma length_decodedBytes {text : List Byte} (hfour : text.length % 4 = 0) (hne : text ≠ []) :
    0 < (decodedBytes text).length ∧ (decodedBytes text).length ≤ text.length / 4 * 3 := by
  induction text using decodedBytes.induct with
  | case1 w x y z =>
      rw [decodedBytes, lastBytes]
      split_ifs <;> simp
  | case2 w x y z text htext ih =>
      have hne' : text ≠ [] := by simpa using htext
      rw [List.length_cons, List.length_cons, List.length_cons, List.length_cons] at hfour
      have hrest := ih (by omega) hne'
      rw [decodedBytes_cons hne']
      simp only [List.length_cons]
      omega
  | case3 text hlast hcons =>
      match text, hne, hfour with
      | [_], _, h => exact absurd h (by simp)
      | [_, _], _, h => exact absurd h (by simp)
      | [_, _, _], _, h => exact absurd h (by simp)
      | w :: x :: y :: z :: text, _, _ => exact absurd rfl (hcons w x y z text)

/-- The NUL that is written first is written over. -/
lemma store_storeBytes (mem : List Byte) {bs : List Byte} (h : bs ≠ []) :
    (store mem 0 0 >>= fun mem => storeBytes mem 0 bs) = storeBytes mem 0 bs := by
  obtain ⟨b, bs, rfl⟩ := List.exists_cons_of_ne_nil h
  rcases Nat.eq_zero_or_pos mem.length with hzero | hpos
  · rw [store_eq_fault (Nat.le_of_eq hzero), storeBytes_cons,
      store_eq_fault (Nat.le_of_eq hzero)]
    rfl
  · rw [store_eq_done hpos, Checked.done_bind, storeBytes_cons, storeBytes_cons,
      store_eq_done hpos, store_eq_done (by rwa [List.length_set]), List.set_set]

/-- **`base64decode` writes the bytes** of its text and a NUL. -/
theorem base64decode_eq (after : List Byte) {text : List Byte} (hfour : text.length % 4 = 0)
    (hne : text ≠ []) {inbuffLen : UInt32}
    (hlen : inbuffLen.toNat = text.length ∨ inbuffLen = 0 ∧ text.length = 4)
    (outbuff : List Byte) (outbuffMaxlen : ℕ) :
    base64decode (text ++ after) inbuffLen outbuff outbuffMaxlen =
      if outbuffMaxlen < inbuffLen.toNat / 4 * 3 + 1 then .done (-1, outbuff)
      else storeBytes outbuff 0 (decodedBytes text ++ [0]) >>= fun out => .done (0, out) := by
  have hlen' : inbuffLen.toNat = text.length ∨ inbuffLen.toNat ≤ 4 ∧ text.length = 4 := by
    refine hlen.imp_right fun ⟨hzero, h⟩ => ⟨?_, h⟩
    rw [hzero]
    exact Nat.zero_le 4
  have hmod : inbuffLen.toNat % 4 = 0 := by
    rcases hlen with h | ⟨rfl, -⟩
    · rw [h, hfour]
    · rfl
  have hloop := fun out => decodeLoop_eq after hfour hne (inbuffLen.toNat + 1) [] inbuffLen.toNat
    0 out hlen' (Nat.lt_succ_self _)
  simp only [List.nil_append, List.length_nil] at hloop
  rw [base64decode, ← store_storeBytes outbuff (by simp)]
  simp only [hmod, ne_eq, not_true, or_false]
  split_ifs with hroom
  · rfl
  · rw [Checked.bind_assoc]
    refine congrArg _ (funext fun out => ?_)
    rw [← hloop, Checked.bind_assoc]
    refine congrArg _ (funext fun r => ?_)
    rw [Checked.bind_assoc]
    rfl

/-! ## The bytes of a text -/

lemma base64DecodeChar_of_value {c : Byte} {n : ℕ} (h : base64Value c = some n) :
    (base64DecodeChar c).toNat = n ∧ n < 64 ∧ c ≠ ch '=' := by
  have hall : ∀ m : Fin 64, (base64DecodeChar (base64Digit m)).toNat = m := by decide +kernel
  obtain ⟨hlt, rfl⟩ := base64Digit_value h
  exact ⟨hall ⟨n, hlt⟩, hlt, base64Digit_ne_pad hlt⟩

/-- The bits of two bytes, side by side. -/
lemma or_eq_toUInt8 {a b : Byte} {hi lo k : ℕ} (ha : a.toNat = hi * 2 ^ k) (hb : b.toNat = lo)
    (hlo : lo < 2 ^ k) : a ||| b = (hi * 2 ^ k + lo).toUInt8 := by
  refine (toUInt8_eq ?_).symm
  rw [UInt8.toNat_or, ha, hb, Nat.mul_comm, Nat.two_pow_add_eq_or_of_lt hlo]

section

variable {w x y z : Byte} {p q r s : ℕ}

lemma decodeFirst_eq (hw : base64Value w = some p) (hx : base64Value x = some q) :
    decodeFirst w x = (p * 4 + q / 16).toUInt8 := by
  obtain ⟨hp, hp64, -⟩ := base64DecodeChar_of_value hw
  obtain ⟨hq, hq64, -⟩ := base64DecodeChar_of_value hx
  refine or_eq_toUInt8 (k := 2) ?_ ?_ (by omega)
  · rw [UInt8.toNat_shiftLeft, hp, Nat.shiftLeft_eq]
    exact Nat.mod_eq_of_lt (show p * 2 ^ 2 < 256 by omega)
  · rw [UInt8.toNat_shiftRight, hq, Nat.shiftRight_eq_div_pow]
    rfl

lemma decodeSecond_eq (hx : base64Value x = some q) (hy : base64Value y = some r) :
    decodeSecond x y = (q % 16 * 16 + r / 4).toUInt8 := by
  obtain ⟨hq, hq64, -⟩ := base64DecodeChar_of_value hx
  obtain ⟨hr, hr64, -⟩ := base64DecodeChar_of_value hy
  refine or_eq_toUInt8 (k := 4) ?_ ?_ (by omega)
  · rw [UInt8.toNat_shiftLeft, hq, Nat.shiftLeft_eq]
    show q * 2 ^ 4 % 2 ^ 8 = q % 16 * 2 ^ 4
    omega
  · rw [UInt8.toNat_shiftRight, hr, Nat.shiftRight_eq_div_pow]
    rfl

lemma decodeThird_eq (hy : base64Value y = some r) (hz : base64Value z = some s) :
    decodeThird y z = (r % 4 * 64 + s).toUInt8 := by
  obtain ⟨hr, hr64, -⟩ := base64DecodeChar_of_value hy
  obtain ⟨hs, hs64, -⟩ := base64DecodeChar_of_value hz
  refine or_eq_toUInt8 (k := 6) ?_ hs (by omega)
  rw [UInt8.toNat_shiftLeft, hr, Nat.shiftLeft_eq]
  show r * 2 ^ 6 % 2 ^ 8 = r % 4 * 2 ^ 6
  omega

end

/-- Three characters and the padding. -/
lemma lastBytes_of_decodeLast {w x y : Byte} {data : List Byte}
    (h : base64DecodeLast w x y = some data) : lastBytes w x y (ch '=') = data := by
  rw [base64DecodeLast] at h
  obtain ⟨p, hp, h'⟩ := Option.bind_eq_some_iff.mp h
  obtain ⟨q, hq, hrest⟩ := Option.bind_eq_some_iff.mp h'
  clear h h'
  rw [lastBytes, decodeFirst_eq hp hq]
  by_cases hpad : y = ch '='
  · rw [if_pos hpad] at hrest
    split_ifs at hrest
    obtain rfl := Option.some.inj hrest
    rw [if_neg (not_not.mpr hpad)]
  · rw [if_neg hpad] at hrest
    obtain ⟨r, hr, hlast⟩ := Option.bind_eq_some_iff.mp hrest
    clear hrest
    split_ifs at hlast
    obtain rfl := Option.some.inj hlast
    rw [if_pos hpad, decodeSecond_eq hq hr, if_neg (not_not.mpr rfl)]

/-- **What is written are the bytes that were encoded.** -/
theorem decodedBytes_of_decode {text : CStr} {data : List Byte}
    (h : base64Decode text = some data) : decodedBytes text = data := by
  induction text using base64Decode.induct generalizing data with
  | case1 =>
      obtain rfl := Option.some.inj h
      rfl
  | case2 w x y z text hlast =>
      obtain ⟨rfl, rfl⟩ := hlast
      rw [base64Decode, if_pos ⟨rfl, rfl⟩] at h
      exact lastBytes_of_decodeLast h
  | case3 w x y z text hlast ih =>
      rw [base64Decode, if_neg hlast] at h
      obtain ⟨p, hp, h⟩ := Option.bind_eq_some_iff.mp h
      obtain ⟨q, hq, h⟩ := Option.bind_eq_some_iff.mp h
      obtain ⟨r, hr, h⟩ := Option.bind_eq_some_iff.mp h
      obtain ⟨s, hs, h⟩ := Option.bind_eq_some_iff.mp h
      obtain ⟨rest, hrest, h⟩ := Option.bind_eq_some_iff.mp h
      obtain rfl := Option.some.inj h
      rw [← decodeFirst_eq hp hq, ← decodeSecond_eq hq hr, ← decodeThird_eq hr hs]
      cases text with
      | nil =>
          obtain rfl := Option.some.inj hrest
          have hy := (base64DecodeChar_of_value hr).2.2
          have hz := (base64DecodeChar_of_value hs).2.2
          rw [decodedBytes, lastBytes, if_pos hy, if_pos hz]
      | cons c text => rw [decodedBytes_cons (List.cons_ne_nil _ _), ih hrest]
  | case4 text hnil hcons =>
      rw [base64Decode] at h
      · cases h
      · exact hnil
      · exact hcons

/-! ## There and back -/

/-- Encoding and then decoding gives back the bytes, whatever was in the buffers. -/
def EncodesThenDecodes (data : List Byte) (maxlen decMaxlen : ℕ) : Prop :=
  ∀ outbuff decbuff : List Byte, outbuff.length = maxlen → decbuff.length = decMaxlen →
    ∃ enc text dec, base64encode data data.length outbuff maxlen = .done (0, enc) ∧
      readStr enc = .done text ∧
      base64decode enc text.length.toUInt32 decbuff decMaxlen = .done (0, dec) ∧
      dec.take data.length = data

/-- Decoding the text of some bytes gives them, and then encoding gives back the text. -/
def DecodesThenEncodes (text : CStr) (data : List Byte) (maxlen decMaxlen : ℕ) : Prop :=
  ∀ outbuff decbuff : List Byte, outbuff.length = maxlen → decbuff.length = decMaxlen →
    ∃ dec enc, base64decode text text.length.toUInt32 decbuff decMaxlen = .done (0, dec) ∧
      dec.take data.length = data ∧
      base64encode data data.length outbuff maxlen = .done (0, enc) ∧ readStr enc = .done text

/-- The number of bytes is an `int`, and the buffer is as long as `base64encode` wants it. -/
def EncodesSize (n maxlen : ℕ) : Prop := n < 2 ^ 31 ∧ (n / 3 + 1) * 4 ≤ maxlen

lemma base64_ne_nil {data : List Byte} (h : data ≠ []) : base64 data ≠ [] := by
  have hlen := length_base64 data
  have hpos := List.length_pos_iff.mpr h
  refine List.length_pos_iff.mp ?_
  omega

lemma base64_length_mod (data : List Byte) : (base64 data).length % 4 = 0 := by
  rw [length_base64]
  omega

lemma nul_notMem_base64 (data : List Byte) : (0 : Byte) ∉ base64 data :=
  notMem_base64 (by decide) (by decide) data

section

variable {data outbuff decbuff enc dec bs : List Byte} {text : CStr} {maxlen decMaxlen : ℕ}

/-- An `int` counts less than is too much for it. -/
lemma toNat_toInt_of_le {n : ℕ} (h : 2 ^ 31 ≤ n) : (toInt n).toNat + 2 ^ 31 ≤ n := by
  rw [toInt]
  split_ifs <;> omega

/-- What is in the buffer of `base64encode` when it has returned 0. -/
lemma base64encode_done (hout : outbuff.length = maxlen)
    (hroom : 4 * ((data.length + 2) / 3) + 1 ≤ maxlen)
    (hguard : (data.length / 3 + 1) * 4 ≤ maxlen) :
    base64encode data data.length outbuff maxlen =
      .done (0, base64 (data.take (toInt data.length).toNat) ++ 0 ::
        outbuff.drop ((base64 (data.take (toInt data.length).toNat)).length + 1)) := by
  have hk := toNat_toInt_le data.length
  have hlen := length_base64 (data.take (toInt data.length).toNat)
  rw [List.length_take, Nat.min_eq_left hk] at hlen
  rw [base64encode_eq, if_neg (by omega), storeBytes_start, Checked.done_bind, List.append_assoc,
    List.singleton_append, List.length_append, List.length_singleton]
  rw [List.length_append, List.length_singleton]
  omega

lemma guard_of_encode (h : base64encode data data.length outbuff maxlen = .done (0, enc)) :
    (data.length / 3 + 1) * 4 ≤ maxlen := by
  by_contra! hlt
  rw [base64encode_eq, if_pos hlt] at h
  exact absurd (Prod.mk.inj (Checked.done.inj h)).1 (by decide)

/-- The text of some bytes is decoded to them. -/
lemma base64decode_done (hdecode : base64Decode text = some data) (hne : text ≠ [])
    (hlen : text.length < 2 ^ 32) (after : List Byte) (hdec : decbuff.length = decMaxlen)
    (hroom : text.length / 4 * 3 + 1 ≤ decMaxlen) :
    base64decode (text ++ after) text.length.toUInt32 decbuff decMaxlen =
      .done (0, data ++ 0 :: decbuff.drop (data.length + 1)) := by
  obtain rfl := base64_of_decode hdecode
  have hfour := base64_length_mod data
  have hsize : (base64 data).length.toUInt32.toNat = (base64 data).length :=
    UInt32.toNat_ofNat_of_lt hlen
  have hbytes := decodedBytes_of_decode hdecode
  have hle := (length_decodedBytes hfour hne).2
  rw [hbytes] at hle
  rw [base64decode_eq after hfour hne (Or.inl hsize), hsize, if_neg (by omega), hbytes,
    storeBytes_start, Checked.done_bind, List.append_assoc, List.singleton_append,
    List.length_append, List.length_singleton]
  rw [List.length_append, List.length_singleton]
  omega

/-- Where fewer bytes are written than were encoded, the last of these is one that was in the
buffer. -/
lemma getLast?_of_short {b : Byte} (h : storeBytes (List.replicate decMaxlen b) 0 bs = .done dec)
    (hshort : bs.length < data.length) (htake : dec.take data.length = data) :
    data.getLast? = some b := by
  obtain ⟨hroom, hlen⟩ := length_storeBytes h
  rw [Nat.zero_add, List.length_replicate] at hroom
  rw [storeBytes_start (by rwa [List.length_replicate]), List.drop_replicate] at h
  obtain rfl := Checked.done.inj h
  have hle : data.length ≤ decMaxlen := by
    have htakeLen := congrArg List.length htake
    rw [List.length_take, hlen, List.length_replicate] at htakeLen
    omega
  obtain ⟨j, hj⟩ := Nat.exists_eq_add_of_lt hshort
  have hsplit : data = bs ++ List.replicate j b ++ [b] := by
    rw [← htake, List.take_append, List.take_of_length_le hshort.le, List.take_replicate,
      List.append_assoc, ← List.replicate_succ']
    congr 2
    omega
  rw [hsplit, List.getLast?_concat]

/-- **There and back.** -/
lemma roundTrips_of_size (hne : data ≠ []) (hroom : 4 * ((data.length + 2) / 3) + 1 ≤ maxlen)
    (hdecRoom : 3 * ((data.length + 2) / 3) + 1 ≤ decMaxlen)
    (hsize : EncodesSize data.length maxlen) : EncodesThenDecodes data maxlen decMaxlen := by
  intro outbuff decbuff hout hdec
  have hlen := length_base64 data
  have hint := hsize.1
  have hencode := base64encode_done hout hroom hsize.2
  rw [toNat_toInt_of_lt hint, List.take_length] at hencode
  have hdecode := base64decode_done (base64Decode_base64 data) (base64_ne_nil hne) (by omega)
    (0 :: outbuff.drop ((base64 data).length + 1)) hdec (by omega)
  exact ⟨_, _, _, hencode, readStr_append_nul (nul_notMem_base64 data) _, hdecode, List.take_left⟩

lemma stored_of_decode {p : Prop} [Decidable p]
    (h : (if p then .done (-1, decbuff) else storeBytes decbuff 0 bs >>= fun out => .done (0, out)) =
      Checked.done ((0 : ℤ), dec)) : storeBytes decbuff 0 bs = .done dec := by
  split_ifs at h
  · exact absurd (Prod.mk.inj (Checked.done.inj h)).1 (by decide)
  · obtain ⟨out, hout, hdone⟩ := Checked.bind_eq_done.mp h
    obtain ⟨-, rfl⟩ := Prod.mk.inj (Checked.done.inj hdone)
    exact hout

/-- What is written for the text of some bytes, also when there is none and the NUL and what is
behind it is decoded. -/
lemma exists_stored {piece : List Byte} {n : ℕ} (hlen : (base64 piece).length < 2 ^ 32)
    (hn : 3 ≤ n) (h : base64decode (base64 piece ++ 0 :: List.replicate n 0)
      (base64 piece).length.toUInt32 decbuff decMaxlen = .done (0, dec)) :
    ∃ bs, bs.length ≤ piece.length + 4 ∧ storeBytes decbuff 0 bs = .done dec := by
  have hpiece := length_base64 piece
  have hsize : (base64 piece).length.toUInt32.toNat = (base64 piece).length :=
    UInt32.toNat_ofNat_of_lt hlen
  by_cases hnil : piece = []
  · subst hnil
    obtain ⟨j, rfl⟩ := Nat.exists_eq_add_of_le hn
    have hfour : ([0, 0, 0, 0] : List Byte).length % 4 = 0 := rfl
    have hle := (length_decodedBytes hfour (by decide)).2
    have hzeros : base64 [] ++ (0 : Byte) :: List.replicate (3 + j) 0 =
        [0, 0, 0, 0] ++ List.replicate j 0 := by
      rw [← List.replicate_append_replicate]
      rfl
    have hrun := base64decode_eq (List.replicate j 0) hfour (by decide)
      (Or.inr ⟨(rfl : (0 : UInt32) = 0), rfl⟩) decbuff decMaxlen
    rw [hzeros] at h
    replace h := hrun.symm.trans h
    refine ⟨_, ?_, stored_of_decode h⟩
    rw [List.length_append, List.length_singleton, List.length_nil, Nat.zero_add]
    exact Nat.succ_le_succ hle
  · have hle := (length_decodedBytes (base64_length_mod piece) (base64_ne_nil hnil)).2
    rw [base64decode_eq _ (base64_length_mod piece) (base64_ne_nil hnil) (Or.inl hsize)] at h
    refine ⟨_, ?_, stored_of_decode h⟩
    rw [List.length_append, List.length_singleton]
    omega

/-- What is written for more bytes than an `int` counts is decoded to fewer. -/
lemma size_of_roundTrips (hne : data ≠ []) (hroom : 4 * ((data.length + 2) / 3) + 1 ≤ maxlen)
    (h : EncodesThenDecodes data maxlen decMaxlen) : EncodesSize data.length maxlen := by
  have hother (c : Byte) : c + 1 ≠ c := by
    intro heq
    have hnat := congrArg UInt8.toNat heq
    rw [UInt8.toNat_add, UInt8.toNat_one] at hnat
    have hlt := c.toNat_lt
    omega
  obtain ⟨b, hb⟩ : ∃ b, b ≠ data.getLast hne := ⟨_, hother _⟩
  obtain ⟨enc, text, dec, hencode, hread, hdecode, htake⟩ :=
    h (List.replicate maxlen 0) (List.replicate decMaxlen b) List.length_replicate
      List.length_replicate
  have hguard := guard_of_encode hencode
  refine ⟨?_, hguard⟩
  by_contra! hint
  have hk := toNat_toInt_lt data.length
  have hkLe := toNat_toInt_le data.length
  have hless := toNat_toInt_of_le hint
  have hout : (List.replicate maxlen (0 : Byte)).length = maxlen := List.length_replicate
  have hdone := base64encode_done hout hroom hguard
  obtain ⟨-, rfl⟩ := Prod.mk.inj (Checked.done.inj (hdone.symm.trans hencode))
  rw [readStr_append_nul (nul_notMem_base64 _)] at hread
  obtain rfl := Checked.done.inj hread
  have hlen := length_base64 (data.take (toInt data.length).toNat)
  rw [List.length_take, Nat.min_eq_left hkLe] at hlen
  rw [List.drop_replicate] at hdecode
  obtain ⟨bs, hle, hstore⟩ := exists_stored (by omega) (by omega) hdecode
  rw [List.length_take, Nat.min_eq_left hkLe] at hle
  have hlast := getLast?_of_short hstore (by omega) htake
  rw [List.getLast?_eq_some_getLast hne] at hlast
  exact hb (Option.some.inj hlast).symm

/-- **Back and there.** -/
lemma roundTripsBack_iff (hcanonical : base64Decode text = some data) (hne : text ≠ [])
    (hroom : text.length + 1 ≤ maxlen) (hdecRoom : text.length / 4 * 3 + 1 ≤ decMaxlen) :
    DecodesThenEncodes text data maxlen decMaxlen ↔ EncodesSize data.length maxlen := by
  obtain rfl := base64_of_decode hcanonical
  have hlen := length_base64 data
  constructor
  · intro h
    obtain ⟨dec, enc, -, -, hencode, hread⟩ := h (List.replicate maxlen 0)
      (List.replicate decMaxlen 0) List.length_replicate List.length_replicate
    have hguard := guard_of_encode hencode
    refine ⟨?_, hguard⟩
    by_contra! hint
    have hk := toNat_toInt_lt data.length
    have hout : (List.replicate maxlen (0 : Byte)).length = maxlen := List.length_replicate
    have hdone := base64encode_done hout (by omega) hguard
    obtain ⟨-, rfl⟩ := Prod.mk.inj (Checked.done.inj (hdone.symm.trans hencode))
    rw [readStr_append_nul (nul_notMem_base64 _)] at hread
    have htext := congrArg base64Decode (Checked.done.inj hread)
    rw [base64Decode_base64, base64Decode_base64] at htext
    have hlength := congrArg List.length (Option.some.inj htext)
    rw [List.length_take] at hlength
    omega
  · intro hsize outbuff decbuff hout hdec
    have hint := hsize.1
    have hencode := base64encode_done hout (by omega) hsize.2
    rw [toNat_toInt_of_lt hint, List.take_length] at hencode
    have hdecode := base64decode_done hcanonical hne (by omega) [] hdec hdecRoom
    rw [List.append_nil] at hdecode
    exact ⟨_, _, hdecode, List.take_left, hencode,
      readStr_append_nul (nul_notMem_base64 data) _⟩

end

/-- **When encoding and decoding give back what they were given**, in buffers that hold the texts. -/
theorem base64RoundTrips_iff (text : CStr) (data : List Byte) (maxlen decMaxlen : ℕ) :
    (data ≠ [] → 4 * ((data.length + 2) / 3) + 1 ≤ maxlen →
      3 * ((data.length + 2) / 3) + 1 ≤ decMaxlen →
      (EncodesThenDecodes data maxlen decMaxlen ↔ EncodesSize data.length maxlen)) ∧
    (base64Decode text = some data → text ≠ [] → text.length + 1 ≤ maxlen →
      text.length / 4 * 3 + 1 ≤ decMaxlen →
      (DecodesThenEncodes text data maxlen decMaxlen ↔ EncodesSize data.length maxlen)) :=
  ⟨fun hne hroom hdecRoom =>
    ⟨size_of_roundTrips hne hroom, roundTrips_of_size hne hroom hdecRoom⟩,
    fun hcanonical hne hroom hdecRoom => roundTripsBack_iff hcanonical hne hroom hdecRoom⟩

/-- Some bytes and their text. -/
theorem base64RoundTrips_abcd : EncodesThenDecodes (str "abcd") 9 7 ∧
    DecodesThenEncodes (str "YWJjZA==") (str "abcd") 9 7 :=
  have h := base64RoundTrips_iff (str "YWJjZA==") (str "abcd") 9 7
  ⟨(h.1 (by decide) (by decide) (by decide)).mpr ⟨by decide, by decide⟩,
    (h.2 (by decide +kernel) (by decide) (by decide) (by decide)).mpr ⟨by decide, by decide⟩⟩

/-- Three bytes are not encoded in the five that their text and its NUL take. -/
theorem threeBytes_not_roundTrips :
    base64encode (str "abc") 3 (List.replicate 5 0) 5 = .done (-1, List.replicate 5 0) ∧
      ¬ EncodesThenDecodes (str "abc") 5 4 := by
  refine ⟨by decide, fun h => ?_⟩
  obtain ⟨enc, text, dec, hencode, -⟩ :=
    h (List.replicate 5 0) (List.replicate 4 0) rfl rfl
  exact absurd (guard_of_encode hencode) (by decide)

/-! ## Inside the buffers -/

/-- The run stays inside its buffers, and leaves the output as it was when it fails. -/
def Bounded (run : Checked (ℤ × List Byte)) (outbuff : List Byte) : Prop :=
  ∃ rc out, run = .done (rc, out) ∧ (rc ≠ 0 → out = outbuff)

/-- When `base64encode` stays inside its buffer. -/
lemma bounded_encode_iff (data outbuff : List Byte) :
    Bounded (base64encode data data.length outbuff outbuff.length) outbuff ↔
      ¬ (data.length % 3 ≠ 0 ∧ data.length < 2 ^ 31 ∧
        outbuff.length = (data.length / 3 + 1) * 4) := by
  have hkLe := toNat_toInt_le data.length
  have hlen := length_base64 (data.take (toInt data.length).toNat)
  rw [List.length_take, Nat.min_eq_left hkLe] at hlen
  rw [base64encode_eq]
  by_cases hguard : outbuff.length < (data.length / 3 + 1) * 4
  · rw [if_pos hguard]
    refine iff_of_true ⟨-1, outbuff, rfl, fun _ => rfl⟩ ?_
    omega
  · rw [if_neg hguard]
    by_cases hroom : (base64 (data.take (toInt data.length).toNat) ++ [0]).length ≤ outbuff.length
    · rw [storeBytes_start hroom]
      refine iff_of_true ⟨0, _, rfl, fun h => absurd rfl h⟩ ?_
      rw [List.length_append, List.length_singleton] at hroom
      rintro ⟨hmod, hint, heq⟩
      have hall := toNat_toInt_of_lt hint
      omega
    · rw [storeBytes, Nat.zero_add, if_neg hroom]
      refine iff_of_false ?_ ?_
      · rintro ⟨rc, out, hrun, -⟩
        cases hrun
      · rw [List.length_append, List.length_singleton] at hroom
        rw [not_not]
        rcases Nat.lt_or_ge data.length (2 ^ 31) with hint | hint
        · have hall := toNat_toInt_of_lt hint
          omega
        · have hless := toNat_toInt_of_le hint
          omega

/-- When `base64decode` does. -/
lemma bounded_decode_iff {inbuff : List Byte} {inbuffLen : UInt32}
    (hin : inbuff.length = inbuffLen.toNat) (outbuff : List Byte) :
    Bounded (base64decode inbuff inbuffLen outbuff outbuff.length) outbuff ↔
      (inbuffLen = 0 → outbuff = []) := by
  by_cases hzero : inbuffLen = 0
  · subst hzero
    obtain rfl := List.eq_nil_of_length_eq_zero hin
    cases outbuff with
    | nil => exact iff_of_true ⟨-1, [], rfl, fun _ => rfl⟩ fun _ => rfl
    | cons c outbuff =>
        -- the first character is read although there is none
        have hrun : base64decode [] 0 (c :: outbuff) (c :: outbuff).length = .fault := by
          rw [base64decode, if_neg]
          · rfl
          · have hnone : (0 : UInt32).toNat = 0 := rfl
            rw [List.length_cons]
            exact not_or.mpr ⟨by omega, by decide⟩
        rw [hrun]
        refine iff_of_false ?_ fun h => absurd (h rfl) (List.cons_ne_nil _ _)
        rintro ⟨rc, out, hdone, -⟩
        cases hdone
  · refine iff_of_true ?_ fun h => absurd h hzero
    by_cases hmod : inbuffLen.toNat % 4 = 0
    · have hne : inbuff ≠ [] := by
        rintro rfl
        exact hzero (UInt32.toNat_inj.mp hin.symm)
      have hfour : inbuff.length % 4 = 0 := by rw [hin, hmod]
      have hle := (length_decodedBytes hfour hne).2
      have hrun := base64decode_eq [] hfour hne (Or.inl hin.symm) outbuff outbuff.length
      rw [List.append_nil] at hrun
      rw [hrun]
      split_ifs with hguard
      · exact ⟨-1, outbuff, rfl, fun _ => rfl⟩
      · rw [storeBytes_start]
        · exact ⟨0, _, rfl, fun h => absurd rfl h⟩
        · rw [List.length_append, List.length_singleton]
          omega
    · rw [base64decode, if_pos (Or.inr hmod)]
      exact ⟨-1, outbuff, rfl, fun _ => rfl⟩

/-- **When both functions stay inside their buffers.** -/
theorem base64Bounded_iff (data inbuff outbuff : List Byte) (inbuffLen : UInt32)
    (hin : inbuff.length = inbuffLen.toNat) :
    (Bounded (base64encode data data.length outbuff outbuff.length) outbuff ↔
      ¬ (data.length % 3 ≠ 0 ∧ data.length < 2 ^ 31 ∧
        outbuff.length = (data.length / 3 + 1) * 4)) ∧
    (Bounded (base64decode inbuff inbuffLen outbuff outbuff.length) outbuff ↔
      (inbuffLen = 0 → outbuff = [])) :=
  ⟨bounded_encode_iff data outbuff, bounded_decode_iff hin outbuff⟩

/-- Two bytes in eight, and the text of them. -/
theorem base64Bounded_ab : (str "YWI=").length = (4 : UInt32).toNat ∧
    Bounded (base64encode (str "ab") 2 (List.replicate 8 0) 8) (List.replicate 8 0) ∧
    Bounded (base64decode (str "YWI=") 4 (List.replicate 8 0) 8) (List.replicate 8 0) :=
  have h := base64Bounded_iff (str "ab") (str "YWI=") (List.replicate 8 0) 4 rfl
  ⟨rfl, h.1.mpr (by decide), h.2.mpr (by decide)⟩

/-- One byte is encoded in four, and the NUL is written behind them; of an empty input a character
is read. -/
theorem oneByte_not_bounded : ¬ Bounded (base64encode (str "a") 1 (List.replicate 4 0) 4)
      (List.replicate 4 0) ∧
    ¬ Bounded (base64decode [] 0 (List.replicate 8 0) 8) (List.replicate 8 0) := by
  have hencode : base64encode (str "a") 1 (List.replicate 4 0) 4 = .fault := by decide
  have hdecode : base64decode [] 0 (List.replicate 8 0) 8 = .fault := by decide
  rw [hencode, hdecode]
  constructor
  · rintro ⟨rc, out, hdone, -⟩
    cases hdone
  · rintro ⟨rc, out, hdone, -⟩
    cases hdone

end G7
