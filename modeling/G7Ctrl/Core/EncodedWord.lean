import G7Ctrl.Core.QuotedPrintable

/-!
# Encoded words

A header is written in ASCII.  Other text is put into an encoded word, `=?charset?Q?text?=`, in which
an underscore stands for a space, a byte is written as `=` and two hexadecimal digits, and the other
printable characters stand for themselves.  The limit on the length of such a word is not looked at.

* `qDecode`, `decodeWord` — the bytes of such a text, and of the word.
* **`qDecode_space`**, **`qDecode_code`**, **`qDecode_literal`** — how they are read off.
-/

namespace G7

/-- The characters that may stand for themselves. -/
def QLiteral (c : Byte) : Prop :=
  33 ≤ c ∧ c ≤ 126 ∧ c ≠ ch '=' ∧ c ≠ ch '?' ∧ c ≠ ch '_'

instance (c : Byte) : Decidable (QLiteral c) := inferInstanceAs (Decidable (_ ∧ _))

/-- The bytes of the text of an encoded word. -/
def qDecode : CStr → Option CStr
  | [] => some []
  | c :: s =>
      if c = ch '_' then (qDecode s).map (ch ' ' :: ·)
      else if c = ch '=' then
        match s with
        | h :: l :: s => do
            let a ← qpValue h
            let b ← qpValue l
            let text ← qDecode s
            return (a * 16 + b).toUInt8 :: text
        | _ => none
      else if QLiteral c then (qDecode s).map (c :: ·)
      else none

/-- What an encoded word begins with. -/
def wordFront (charset : CStr) : CStr := str "=?" ++ charset ++ str "?Q?"

/-- The bytes of an encoded word. -/
def decodeWord (charset s : CStr) : Option CStr :=
  if wordFront charset <+: s ∧ str "?=" <:+ s.drop (wordFront charset).length then
    qDecode ((s.drop (wordFront charset).length).rdrop 2)
  else none

example : decodeWord (str "utf-8") (str "=?utf-8?Q?a_=C3=A9?=") = some [97, 32, 0xC3, 0xA9] := by
  decide +kernel

lemma qDecode_space (s : CStr) : qDecode (ch '_' :: s) = (qDecode s).map (ch ' ' :: ·) := by
  rw [qDecode.eq_def]
  exact if_pos rfl

lemma qDecode_code (c : Byte) (s : CStr) :
    qDecode (ch '=' :: qpHex (c.toNat / 16) :: qpHex (c.toNat % 16) :: s) =
      (qDecode s).map (c :: ·) := by
  have hlt := c.toNat_lt
  have hbyte : (c.toNat / 16 * 16 + c.toNat % 16).toUInt8 = c := by
    rw [Nat.div_add_mod']
    exact UInt8.ofNat_toNat
  have hne : ch '=' ≠ ch '_' := by decide
  rw [qDecode.eq_def]
  simp only [if_neg hne, if_true, qpValue_hex (show c.toNat / 16 < 16 by omega),
    qpValue_hex (show c.toNat % 16 < 16 by omega), Option.bind_eq_bind, Option.bind_some, hbyte]
  cases qDecode s <;> rfl

lemma qDecode_literal {c : Byte} (hc : QLiteral c) (s : CStr) :
    qDecode (c :: s) = (qDecode s).map (c :: ·) := by
  rw [qDecode.eq_def]
  simp only [if_neg hc.2.2.2.2, if_neg hc.2.2.1, if_pos hc]

/-- The text of a word is what stands between its ends. -/
lemma decodeWord_eq (charset t : CStr) :
    decodeWord charset (wordFront charset ++ (t ++ str "?=")) = qDecode t := by
  have hdrop : (wordFront charset ++ (t ++ str "?=")).drop (wordFront charset).length =
      t ++ str "?=" := List.drop_left
  rw [decodeWord, hdrop, if_pos ⟨List.prefix_append _ _, List.suffix_append _ _⟩, List.rdrop,
    List.length_append, show (str "?=").length = 2 from rfl, Nat.add_sub_cancel, List.take_left]

end G7
