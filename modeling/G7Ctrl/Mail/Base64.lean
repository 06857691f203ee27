import G7Ctrl.Core.Base64
import G7Ctrl.Xstr.Block

/-!
# Encoding in base64 (`base64ed.c`)

`base64encode` is modelled with its two buffers.  The number of bytes that are left is an `int`.

* `base64encode` — the function.
* **`base64encode_eq`** — it writes the base64 text of as many bytes as the `int` says, and the NUL,
  or faults where they do not fit.
-/

namespace G7

/-- `b64table`, with its NUL. -/
def b64table : List Byte := base64Digits ++ [0]

/-- The conversion of a size to `int`, of 32 bits. -/
def toInt (n : ℕ) : ℤ :=
  if n % 4294967296 < 2147483648 then (n % 4294967296 : ℕ)
  else (n % 4294967296 : ℕ) - 4294967296

/-- The loop of `base64encode`, with `n`, `pinbuff`, `poutbuff` and the output buffer. -/
def encodeLoop (inbuff : List Byte) :
    ℕ → ℤ → ℕ → ℕ → List Byte → Checked (ℤ × ℕ × ℕ × List Byte)
  | 0, _, _, _, _ => .timeout
  | fuel + 1, n, pin, pout, out =>
      if n ≥ 3 then do
        let a1 ← load inbuff pin
        let a2 ← load inbuff (pin + 1)
        let a3 ← load inbuff (pin + 2)
        let c ← load b64table (a1 >>> 2).toNat
        let out ← store out pout c
        let c ← load b64table (((a1 &&& 0x03) <<< 4) ||| (a2 >>> 4)).toNat
        let out ← store out (pout + 1) c
        let c ← load b64table (((a2 &&& 0x0f) <<< 2) ||| (a3 >>> 6)).toNat
        let out ← store out (pout + 2) c
        let c ← load b64table (a3 &&& 0x3f).toNat
        let out ← store out (pout + 3) c
        encodeLoop inbuff fuel (n - 3) (pin + 3) (pout + 4) out
      else return (n, pin, pout, out)

/-- What `base64encode` does behind its loop, up to the NUL. -/
def encodeRest (inbuff : List Byte) (n : ℤ) (pin pout : ℕ) (out : List Byte) :
    Checked (ℕ × List Byte) :=
  if n = 2 then do
    let a1 ← load inbuff pin
    let a2 ← load inbuff (pin + 1)
    let c ← load b64table (a1 >>> 2).toNat
    let out ← store out pout c
    let c ← load b64table (((a1 &&& 0x03) <<< 4) ||| (a2 >>> 4)).toNat
    let out ← store out (pout + 1) c
    let c ← load b64table ((a2 &&& 0x0f) <<< 2).toNat
    let out ← store out (pout + 2) c
    let out ← store out (pout + 3) (ch '=')
    return (pout + 4, out)
  else if n = 1 then do
    let a1 ← load inbuff pin
    let c ← load b64table (a1 >>> 2).toNat
    let out ← store out pout c
    let c ← load b64table ((a1 &&& 0x03) <<< 4).toNat
    let out ← store out (pout + 1) c
    let out ← store out (pout + 2) (ch '=')
    let out ← store out (pout + 3) (ch '=')
    return (pout + 4, out)
  else return (pout, out)

/-- `base64encode`, with the output buffer it leaves. -/
def base64encode (inbuff : List Byte) (inbuffLen : ℕ) (outbuff : List Byte) (outbuffMaxlen : ℕ) :
    Checked (ℤ × List Byte) :=
  if outbuffMaxlen < (inbuffLen / 3 + 1) * 4 then return (-1, outbuff)
  else do
    let (n, pin, pout, out) ← encodeLoop inbuff (inbuffLen + 1) (toInt inbuffLen) 0 0 outbuff
    let (pout, out) ← encodeRest inbuff n pin pout out
    let out ← store out pout 0
    return (0, out)

/-! ## The digits -/

lemma load_b64table {n : ℕ} (h : n < 64) : load b64table n = .done (base64Digit n) := by
  have hall : ∀ m : Fin 64, load b64table m = .done (base64Digit m) := by decide +kernel
  exact hall ⟨n, h⟩

section Bits

variable (a b : Byte)

lemma load_first : load b64table (a >>> 2).toNat = .done (base64Digit (a.toNat / 4)) := by
  have ha := a.toNat_lt
  have hshift : (a >>> 2).toNat = a.toNat / 4 := by
    simp [UInt8.toNat_shiftRight, Nat.shiftRight_eq_div_pow]
  rw [hshift]
  exact load_b64table (by omega)

lemma toNat_and_shiftLeft_four : ((a &&& 0x03) <<< 4).toNat = a.toNat % 4 * 16 := by
  have hand : (a &&& 0x03).toNat = a.toNat % 4 := by
    rw [UInt8.toNat_and]
    exact Nat.and_two_pow_sub_one_eq_mod a.toNat 2
  rw [UInt8.toNat_shiftLeft, hand, Nat.shiftLeft_eq]
  show a.toNat % 4 * 2 ^ 4 % 2 ^ 8 = a.toNat % 4 * 16
  omega

lemma toNat_and_shiftLeft_two : ((a &&& 0x0f) <<< 2).toNat = a.toNat % 16 * 4 := by
  have hand : (a &&& 0x0f).toNat = a.toNat % 16 := by
    rw [UInt8.toNat_and]
    exact Nat.and_two_pow_sub_one_eq_mod a.toNat 4
  rw [UInt8.toNat_shiftLeft, hand, Nat.shiftLeft_eq]
  show a.toNat % 16 * 2 ^ 2 % 2 ^ 8 = a.toNat % 16 * 4
  omega

lemma load_second_last :
    load b64table ((a &&& 0x03) <<< 4).toNat = .done (base64Digit (a.toNat % 4 * 16)) := by
  rw [toNat_and_shiftLeft_four]
  exact load_b64table (by omega)

lemma load_second : load b64table (((a &&& 0x03) <<< 4) ||| (b >>> 4)).toNat =
    .done (base64Digit (a.toNat % 4 * 16 + b.toNat / 16)) := by
  have hb := b.toNat_lt
  have hshift : (b >>> 4).toNat = b.toNat / 16 := by
    simp [UInt8.toNat_shiftRight, Nat.shiftRight_eq_div_pow]
  have hor := Nat.two_pow_add_eq_or_of_lt (i := 4) (show b.toNat / 16 < 2 ^ 4 by omega)
    (a.toNat % 4)
  rw [UInt8.toNat_or, toNat_and_shiftLeft_four, hshift, Nat.mul_comm, ← hor, Nat.mul_comm]
  exact load_b64table (by omega)

lemma load_third_last :
    load b64table ((a &&& 0x0f) <<< 2).toNat = .done (base64Digit (a.toNat % 16 * 4)) := by
  rw [toNat_and_shiftLeft_two]
  exact load_b64table (by omega)

lemma load_third : load b64table (((a &&& 0x0f) <<< 2) ||| (b >>> 6)).toNat =
    .done (base64Digit (a.toNat % 16 * 4 + b.toNat / 64)) := by
  have hb := b.toNat_lt
  have hshift : (b >>> 6).toNat = b.toNat / 64 := by
    simp [UInt8.toNat_shiftRight, Nat.shiftRight_eq_div_pow]
  have hor := Nat.two_pow_add_eq_or_of_lt (i := 2) (show b.toNat / 64 < 2 ^ 2 by omega)
    (a.toNat % 16)
  rw [UInt8.toNat_or, toNat_and_shiftLeft_two, hshift, Nat.mul_comm, ← hor, Nat.mul_comm]
  exact load_b64table (by omega)

lemma load_fourth : load b64table (a &&& 0x3f).toNat = .done (base64Digit (a.toNat % 64)) := by
  have hand : (a &&& 0x3f).toNat = a.toNat % 64 := by
    rw [UInt8.toNat_and]
    exact Nat.and_two_pow_sub_one_eq_mod a.toNat 6
  rw [hand]
  exact load_b64table (by omega)

end Bits

/-! ## What is written -/

/-- Four bytes written one after the other. -/
lemma storeBytes_four (out : List Byte) (p : ℕ) (a b c d : Byte) (bs : List Byte) :
    storeBytes out p (a :: b :: c :: d :: bs) = (do
      let out ← store out p a
      let out ← store out (p + 1) b
      let out ← store out (p + 2) c
      let out ← store out (p + 3) d
      storeBytes out (p + 4) bs) := by
  simp only [storeBytes_cons, Nat.add_assoc, Nat.reduceAdd]

/-- **The loop and what is behind it** write the text of the bytes that are left, and the NUL. -/
lemma encodeLoop_eq (after : List Byte) (todo : List Byte) :
    ∀ (fuel : ℕ) (front : List Byte) (n : ℤ) (pout : ℕ) (out : List Byte),
      n.toNat = todo.length → todo.length < fuel →
      (encodeLoop (front ++ (todo ++ after)) fuel n front.length pout out >>= fun r =>
        encodeRest (front ++ (todo ++ after)) r.1 r.2.1 r.2.2.1 r.2.2.2 >>= fun r =>
          store r.2 r.1 0) = storeBytes out pout (base64 todo ++ [0]) := by
  induction todo using base64.induct with
  | case1 =>
      intro fuel front n pout out hn hfuel
      obtain ⟨fuel, rfl⟩ := Nat.exists_eq_succ_of_ne_zero (Nat.ne_zero_of_lt hfuel)
      have hn0 : n ≤ 0 := Int.toNat_eq_zero.mp hn
      have hexit : ¬ n ≥ 3 ∧ n ≠ 2 ∧ n ≠ 1 := by omega
      simp only [encodeLoop, if_neg hexit.1, Checked.pure_eq, Checked.done_bind, encodeRest,
        if_neg hexit.2.1, if_neg hexit.2.2, base64, List.nil_append, storeBytes_singleton]
  | case2 a =>
      intro fuel front n pout out hn hfuel
      obtain ⟨fuel, rfl⟩ := Nat.exists_eq_succ_of_ne_zero (Nat.ne_zero_of_lt hfuel)
      obtain rfl : n = 1 := by
        rw [List.length_singleton] at hn
        omega
      have hexit : ¬ (1 : ℤ) ≥ 3 ∧ (1 : ℤ) ≠ 2 := by omega
      have h1 := load_append_length front a after
      simp only [encodeLoop, if_neg hexit.1, Checked.pure_eq,
        Checked.done_bind, encodeRest, if_neg hexit.2, if_true, h1, load_first, load_second_last,
        Checked.bind_assoc, base64, List.cons_append, List.nil_append, storeBytes_four,
        storeBytes_singleton]
  | case3 a b =>
      intro fuel front n pout out hn hfuel
      obtain ⟨fuel, rfl⟩ := Nat.exists_eq_succ_of_ne_zero (Nat.ne_zero_of_lt hfuel)
      obtain rfl : n = 2 := by
        rw [List.length_cons, List.length_singleton] at hn
        omega
      have hexit : ¬ (2 : ℤ) ≥ 3 := by omega
      have h1 := load_append_length front a (b :: after)
      have h2 := load_append_length (front ++ [a]) b after
      rw [List.append_assoc, List.singleton_append, List.length_append] at h2
      simp only [List.length_singleton] at h2
      simp only [List.cons_append, List.nil_append, encodeLoop, if_neg hexit, Checked.pure_eq,
        Checked.done_bind, encodeRest, if_true, h1, h2, load_first, load_second, load_third_last,
        Checked.bind_assoc, base64, storeBytes_four, storeBytes_singleton]
  | case4 a b c todo ih =>
      intro fuel front n pout out hn hfuel
      obtain ⟨fuel, rfl⟩ := Nat.exists_eq_succ_of_ne_zero (Nat.ne_zero_of_lt hfuel)
      simp only [List.length_cons] at hn hfuel
      have hmore : n ≥ 3 := by omega
      have h1 := load_append_length front a (b :: c :: (todo ++ after))
      have h2 := load_append_length (front ++ [a]) b (c :: (todo ++ after))
      have h3 := load_append_length (front ++ [a, b]) c (todo ++ after)
      simp only [List.append_assoc, List.cons_append, List.nil_append, List.length_append,
        List.length_cons, List.length_nil, Nat.zero_add] at h2 h3
      have hrun := fun out => ih fuel (front ++ [a, b, c]) (n - 3) (pout + 4) out (by omega) (by omega)
      simp only [List.append_assoc, List.cons_append, List.nil_append, List.length_append,
        List.length_cons, List.length_nil, Nat.zero_add] at hrun
      simp only [List.cons_append, encodeLoop, if_pos hmore, h1, h2, h3,
        Checked.done_bind, load_first, load_second, load_third, load_fourth, Checked.bind_assoc,
        base64, storeBytes_four, hrun]

/-- An `int` does not hold more than the size. -/
lemma toNat_toInt_le (n : ℕ) : (toInt n).toNat ≤ n := by
  rw [toInt]
  split_ifs <;> omega

lemma toNat_toInt_lt (n : ℕ) : (toInt n).toNat < 2 ^ 31 := by
  rw [toInt]
  split_ifs <;> omega

lemma toNat_toInt_of_lt {n : ℕ} (h : n < 2 ^ 31) : (toInt n).toNat = n := by
  rw [toInt]
  split_ifs <;> omega

/-- **`base64encode` writes the text** of as many bytes as the `int` says, and the NUL. -/
theorem base64encode_eq (data : List Byte) (outbuff : List Byte) (outbuffMaxlen : ℕ) :
    base64encode data data.length outbuff outbuffMaxlen =
      if outbuffMaxlen < (data.length / 3 + 1) * 4 then .done (-1, outbuff)
      else storeBytes outbuff 0 (base64 (data.take (toInt data.length).toNat) ++ [0]) >>=
        fun out => .done (0, out) := by
  have hloop := encodeLoop_eq (data.drop (toInt data.length).toNat)
    (data.take (toInt data.length).toNat) (data.length + 1) [] (toInt data.length) 0 outbuff
    (by rw [List.length_take, Nat.min_eq_left (toNat_toInt_le _)])
    (by
      rw [List.length_take]
      omega)
  rw [List.nil_append, List.take_append_drop] at hloop
  rw [base64encode, ← hloop]
  split_ifs with hroom
  · rfl
  · rw [Checked.bind_assoc]
    refine congrArg _ (funext fun r => ?_)
    rw [Checked.bind_assoc]
    rfl

end G7
