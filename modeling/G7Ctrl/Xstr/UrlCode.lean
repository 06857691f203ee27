import G7Ctrl.Xstr.Block
import G7Ctrl.Xstr.Fold
import G7Ctrl.Xstr.Number

/-!
# URL encoding (`url_encode`, `url_decode`, `url_decode_buff`)

* `urlEncode`, `urlDecode` — the two that allocate what they give back.
* `urlDecodeBuff` — the decoder that writes to the caller's buffer.
* `UrlText` — what an encoded text looks like.
* **`urlDecode_urlEncode`** — decoding gives back what was encoded.
* **`urlCode_sound`** — and the second decoder gives what the first one gives, or fails.
-/

namespace G7

/-! ## Digits -/

/-- `from_hex` -/
def fromHex (c : Byte) : Byte := if isDigit c then c - ch '0' else tolower c - ch 'a' + 10

/-- `to_hex` -/
def toHex (code : Byte) : Byte := byteAt (str "0123456789ABCDEF") (code &&& 0x0f).toNat

/-- `*pstr >> 4`, for a `char` with a sign. -/
def shiftRight4 (c : Byte) : Byte := (c.toInt8 >>> 4).toUInt8

/-- `isalnum` of the C locale. -/
def isAlnum (c : Byte) : Bool :=
  isDigit c || (ch 'A' ≤ c && c ≤ ch 'Z') || (ch 'a' ≤ c && c ≤ ch 'z')

/-- The characters that are encoded as themselves. -/
def isUnreserved (c : Byte) : Bool :=
  isAlnum c || c = ch '-' || c = ch '_' || c = ch '.' || c = ch '~'

/-! ## The functions -/

/-- `url_encode` -/
def urlEncode : CStr → CStr
  | [] => []
  | c :: str =>
      if isUnreserved c then c :: urlEncode str
      else if c = ch ' ' then ch '+' :: urlEncode str
      else ch '%' :: toHex (shiftRight4 c) :: toHex c :: urlEncode str

/-- The byte of two characters behind a `'%'`. -/
def hexByte (a b : Byte) : Byte := fromHex a <<< 4 ||| fromHex b

/-- `url_decode` -/
def urlDecode : CStr → CStr
  | [] => []
  | c :: str =>
      if c = ch '%' then
        match str with
        | a :: b :: str => hexByte a b :: urlDecode str
        | str => urlDecode str
      else if c = ch '+' then ch ' ' :: urlDecode str
      else c :: urlDecode str

/-- The loop of `url_decode_buff`.  It gives what it leaves of the string, the buffer, the place in
it, and `ml`. -/
def urlDecodeLoop : CStr → List Byte → ℕ → ℕ → Checked (CStr × List Byte × ℕ × ℕ)
  | [], decode, i, ml => return ([], decode, i, ml)
  | c :: str, decode, i, ml =>
      if 1 < ml then
        if c = ch '%' then
          match str with
          | a :: b :: str => do
              let decode ← store decode i (hexByte a b)
              urlDecodeLoop str decode (i + 1) (ml - 1)
          | str => urlDecodeLoop str decode i (ml - 1)
        else if c = ch '+' then do
          let decode ← store decode i (ch ' ')
          urlDecodeLoop str decode (i + 1) (ml - 1)
        else do
          let decode ← store decode i c
          urlDecodeLoop str decode (i + 1) (ml - 1)
      else return (c :: str, decode, i, ml)

/-- `url_decode_buff`, with the buffer it leaves. -/
def urlDecodeBuff (decode : List Byte) (maxlen : ℕ) : Option CStr → Checked (ℤ × List Byte)
  | none => return (-1, decode)
  | some str => do
      let (left, decode, i, ml) ← urlDecodeLoop str decode 0 maxlen
      let decode ← store decode i 0
      if ml = 1 ∧ left ≠ [] then return (-1, decode) else return (0, decode)

/-! ## What an encoded text looks like -/

/-- Unreserved characters, `'+'` and groups of a `'%'` and two digits. -/
inductive UrlText : CStr → Prop
  | nil : UrlText []
  | unreserved {c : Byte} {text : CStr} (hc : isUnreserved c = true) (h : UrlText text) :
      UrlText (c :: text)
  | plus {text : CStr} (h : UrlText text) : UrlText (ch '+' :: text)
  | group {a b : Byte} {text : CStr} (ha : (hexDigit a).isSome = true)
      (hb : (hexDigit b).isSome = true) (h : UrlText text) : UrlText (ch '%' :: a :: b :: text)

/-! ## Round trip -/

lemma hexByte_toHex (c : Byte) : hexByte (toHex (shiftRight4 c)) (toHex c) = c := by
  have h := forall_byte (p := fun c => hexByte (toHex (shiftRight4 c)) (toHex c) == c)
    (by decide +kernel) c
  exact beq_iff_eq.mp h

lemma isSome_hexDigit_toHex (c : Byte) : (hexDigit (toHex c)).isSome = true :=
  forall_byte (p := fun c => (hexDigit (toHex c)).isSome) (by decide +kernel) c

/-- An unreserved character means itself. -/
lemma ne_of_isUnreserved {c : Byte} (hc : isUnreserved c = true) : c ≠ ch '%' ∧ c ≠ ch '+' := by
  constructor
  · rintro rfl
    exact absurd hc (by decide)
  · rintro rfl
    exact absurd hc (by decide)

lemma urlDecode_group (a b : Byte) (text : CStr) :
    urlDecode (ch '%' :: a :: b :: text) = hexByte a b :: urlDecode text := by
  rw [urlDecode, if_pos rfl]

lemma urlDecode_plus (text : CStr) : urlDecode (ch '+' :: text) = ch ' ' :: urlDecode text := by
  rw [urlDecode.eq_def]
  exact (if_neg (by decide)).trans (if_pos rfl)

lemma urlDecode_self {c : Byte} (hc : c ≠ ch '%' ∧ c ≠ ch '+') (text : CStr) :
    urlDecode (c :: text) = c :: urlDecode text := by
  rw [urlDecode.eq_def]
  exact (if_neg hc.1).trans (if_neg hc.2)

/-- A `'%'` with fewer than two characters behind it is left out. -/
lemma urlDecode_percent {text : CStr} (h : text.length < 2) :
    urlDecode (ch '%' :: text) = urlDecode text := by
  rw [urlDecode.eq_def]
  match text, h with
  | [], _ => rfl
  | [_], _ => rfl

/-- **Decoding gives back what was encoded.** -/
theorem urlDecode_urlEncode (s : CStr) : urlDecode (urlEncode s) = s := by
  induction s with
  | nil => rw [urlEncode, urlDecode]
  | cons c s ih =>
      rw [urlEncode]
      split_ifs with hc hspace
      · rw [urlDecode_self (ne_of_isUnreserved hc), ih]
      · rw [urlDecode_plus, ih, hspace]
      · rw [urlDecode_group, hexByte_toHex, ih]

/-- **What is encoded** has only characters that a URL may have. -/
theorem urlText_urlEncode (s : CStr) : UrlText (urlEncode s) := by
  induction s with
  | nil =>
      rw [urlEncode]
      exact .nil
  | cons c s ih =>
      rw [urlEncode]
      split_ifs with hc hspace
      · exact .unreserved hc ih
      · exact .plus ih
      · exact .group (isSome_hexDigit_toHex _) (isSome_hexDigit_toHex _) ih

/-! ## The two decoders -/

/-- Every `'%'` has two characters behind it. -/
def WholeGroups (t : CStr) : Prop := ∀ front back, t = front ++ ch '%' :: back → 2 ≤ back.length

/-- What a character, with those it belongs to, is decoded to, and what follows. -/
def urlStep (c : Byte) (text : CStr) : List Byte × CStr :=
  if c = ch '%' then
    match text with
    | a :: b :: text => ([hexByte a b], text)
    | text => ([], text)
  else if c = ch '+' then ([ch ' '], text)
  else ([c], text)

/-- The three kinds of steps. -/
lemma urlStep_cases (c : Byte) (text : CStr) :
    (∃ a b rest, c = ch '%' ∧ text = a :: b :: rest ∧ urlStep c text = ([hexByte a b], rest)) ∨
    (c = ch '%' ∧ text.length < 2 ∧ urlStep c text = ([], text)) ∨
    (c = ch '+' ∧ urlStep c text = ([ch ' '], text)) ∨
    ((c ≠ ch '%' ∧ c ≠ ch '+') ∧ urlStep c text = ([c], text)) := by
  by_cases hpercent : c = ch '%'
  · match text with
    | [] => exact Or.inr (Or.inl ⟨hpercent, Nat.two_pos, if_pos hpercent⟩)
    | [_] => exact Or.inr (Or.inl ⟨hpercent, Nat.one_lt_two, if_pos hpercent⟩)
    | a :: b :: rest => exact Or.inl ⟨a, b, rest, hpercent, rfl, if_pos hpercent⟩
  · by_cases hplus : c = ch '+'
    · exact Or.inr (Or.inr (Or.inl ⟨hplus, (if_neg hpercent).trans (if_pos hplus)⟩))
    · exact Or.inr (Or.inr (Or.inr ⟨⟨hpercent, hplus⟩, (if_neg hpercent).trans (if_neg hplus)⟩))

lemma urlDecode_cons (c : Byte) (text : CStr) :
    urlDecode (c :: text) = (urlStep c text).1 ++ urlDecode (urlStep c text).2 := by
  rcases urlStep_cases c text with ⟨a, b, rest, rfl, rfl, hstep⟩ | ⟨rfl, hshort, hstep⟩ |
    ⟨rfl, hstep⟩ | ⟨hc, hstep⟩
  · rw [hstep, urlDecode_group]
    rfl
  · rw [hstep, urlDecode_percent hshort]
    rfl
  · rw [hstep, urlDecode_plus]
    rfl
  · rw [hstep, urlDecode_self hc]
    rfl

/-- Every step goes on, and writes a byte at most. -/
lemma length_urlStep (c : Byte) (text : CStr) :
    (urlStep c text).2.length ≤ text.length ∧ (urlStep c text).1.length ≤ 1 := by
  rcases urlStep_cases c text with ⟨a, b, rest, -, rfl, hstep⟩ | ⟨-, -, hstep⟩ | ⟨-, hstep⟩ |
    ⟨-, hstep⟩
  · rw [hstep]
    exact ⟨(Nat.le_succ _).trans (Nat.le_succ _), le_rfl⟩
  · rw [hstep]
    exact ⟨le_rfl, Nat.zero_le _⟩
  · rw [hstep]
    exact ⟨le_rfl, le_rfl⟩
  · rw [hstep]
    exact ⟨le_rfl, le_rfl⟩

/-- Where the groups are whole it writes one. -/
lemma urlStep_of_wholeGroups {c : Byte} {text : CStr} (h : WholeGroups (c :: text)) :
    (urlStep c text).1.length = 1 ∧ WholeGroups (urlStep c text).2 := by
  have htail {k : List Byte} {rest : CStr} (heq : c :: text = k ++ rest) : WholeGroups rest := by
    rintro front back rfl
    exact h (k ++ front) back (by rw [heq, List.append_assoc])
  rcases urlStep_cases c text with ⟨a, b, rest, rfl, rfl, hstep⟩ | ⟨rfl, hshort, hstep⟩ |
    ⟨rfl, hstep⟩ | ⟨-, hstep⟩
  · rw [hstep]
    exact ⟨rfl, htail (k := [ch '%', a, b]) rfl⟩
  · exact absurd (h [] text rfl) (Nat.not_le.mpr hshort)
  · rw [hstep]
    exact ⟨rfl, htail (k := [ch '+']) rfl⟩
  · rw [hstep]
    exact ⟨rfl, htail (k := [c]) rfl⟩

/-- **One round of the loop** takes a step and counts it. -/
lemma urlDecodeLoop_cons (c : Byte) (text : CStr) {decode : List Byte} {i ml : ℕ} (hml : 1 < ml)
    (hi : i ≤ decode.length) :
    urlDecodeLoop (c :: text) decode i ml =
      storeBytes decode i (urlStep c text).1 >>= fun decode =>
        urlDecodeLoop (urlStep c text).2 decode (i + (urlStep c text).1.length) (ml - 1) := by
  rw [urlDecodeLoop.eq_def]
  refine (if_pos hml).trans ?_
  rcases urlStep_cases c text with ⟨a, b, rest, rfl, rfl, hstep⟩ | ⟨rfl, hshort, hstep⟩ |
    ⟨rfl, hstep⟩ | ⟨hc, hstep⟩
  · rw [hstep, storeBytes_singleton]
    exact if_pos rfl
  · rw [hstep, storeBytes_nil hi]
    refine (if_pos rfl).trans ?_
    match text, hshort with
    | [], _ => rfl
    | [_], _ => rfl
  · rw [hstep, storeBytes_singleton]
    exact (if_neg (by decide)).trans (if_pos rfl)
  · rw [hstep, storeBytes_singleton]
    exact (if_neg hc.1).trans (if_neg hc.2)

/-- **A run of the loop** leaves what is decoded of the string as far as the room goes.  Where the
groups are whole, the room that is used is what is written. -/
lemma urlDecodeLoop_run (t : CStr) (front back : List Byte) (ml : ℕ) (hml : 0 < ml)
    (hback : ml ≤ back.length) :
    ∃ done left back' ml', urlDecode t = done ++ urlDecode left ∧
      urlDecodeLoop t (front ++ back) front.length ml =
        .done (left, front ++ done ++ back', (front ++ done).length, ml') ∧
      done.length + back'.length = back.length ∧ 0 < back'.length ∧
      ((ml' = 1 ∧ left ≠ []) ∨ left = []) ∧
      (WholeGroups t → left ≠ [] → ml ≤ (urlDecode t).length) := by
  induction hlen : t.length using Nat.strongRecOn generalizing t front back ml with
  | ind len ih =>
      cases t with
      | nil =>
          refine ⟨[], [], back, ml, rfl, ?_, Nat.zero_add _, by omega, Or.inr rfl,
            fun _ h => absurd rfl h⟩
          rw [urlDecodeLoop, List.append_nil]
          rfl
      | cons c text =>
          by_cases hroom : 1 < ml
          · obtain ⟨hrest, hone⟩ := length_urlStep c text
            have hcons := urlDecode_cons c text
            have hwhole := @urlStep_of_wholeGroups c text
            have hround := urlDecodeLoop_cons c text hroom
              (show front.length ≤ (front ++ back).length by rw [List.length_append]; omega)
            generalize urlStep c text = step at hrest hone hcons hwhole hround
            rw [List.length_cons] at hlen
            obtain ⟨done, left, back', ml', hdecode, hrun, hroom', hpos, hend, hneed⟩ :=
              ih step.2.length (by omega) step.2 (front ++ step.1) (back.drop step.1.length)
                (ml - 1) (by omega) (by rw [List.length_drop]; omega) rfl
            rw [List.length_drop] at hroom'
            refine ⟨step.1 ++ done, left, back', ml', ?_, ?_, ?_, hpos, hend, ?_⟩
            · rw [hcons, hdecode, List.append_assoc]
            · rw [hround, storeBytes_append _ _ (by omega), Checked.done_bind,
                ← List.append_assoc, ← List.length_append, hrun, List.append_assoc front]
            · rw [List.length_append]
              omega
            · intro hgroups hleft
              obtain ⟨hbyte, htail⟩ := hwhole hgroups
              have hlong := hneed htail hleft
              rw [hcons, List.length_append]
              omega
          · refine ⟨[], c :: text, back, ml, rfl, ?_, Nat.zero_add _, by omega,
              Or.inl ⟨by omega, List.cons_ne_nil _ _⟩, ?_⟩
            · rw [urlDecodeLoop.eq_def, List.append_nil]
              exact if_neg hroom
            · intro hgroups _
              obtain ⟨hbyte, -⟩ := urlStep_of_wholeGroups hgroups
              rw [urlDecode_cons, List.length_append]
              omega

/-- **URL encoding.**  Decoding gives back what was encoded, and the encoded text has only characters
that a URL may have.  The decoder with a buffer stays inside the buffer, and gives the same bytes as
the other one when it returns 0; it does so if the groups are whole and the buffer is large
enough. -/
theorem urlCode_sound (s t : CStr) (decode : List Byte) (hmaxlen : 1 ≤ decode.length) :
    (urlDecode (urlEncode s) = s ∧ UrlText (urlEncode s)) ∧
    ∃ r decode', urlDecodeBuff decode decode.length (some t) = .done (r, decode') ∧
      decode'.length = decode.length ∧
      (r = 0 → ∃ back, decode' = urlDecode t ++ 0 :: back) ∧
      (WholeGroups t → (urlDecode t).length < decode.length → r = 0) := by
  refine ⟨⟨urlDecode_urlEncode s, urlText_urlEncode s⟩, ?_⟩
  obtain ⟨done, left, back', ml', hdecode, hrun, hroom, hpos, hend, hneed⟩ :=
    urlDecodeLoop_run t [] decode decode.length hmaxlen le_rfl
  obtain ⟨c, back, rfl⟩ := List.exists_cons_of_ne_nil (List.length_pos_iff.mp hpos)
  rw [List.nil_append, List.nil_append, List.length_nil] at hrun
  have hstore := store_append_length done c 0 back
  have hkeep : (done ++ 0 :: back).length = decode.length := by
    rw [← hroom, List.length_append, List.length_cons, List.length_cons]
  have hbuff : urlDecodeBuff decode decode.length (some t) =
      .done (if ml' = 1 ∧ left ≠ [] then -1 else 0, done ++ 0 :: back) := by
    rw [urlDecodeBuff, hrun, Checked.done_bind]
    simp only [hstore, Checked.done_bind]
    split_ifs with hfull
    · rfl
    · rfl
  refine ⟨_, _, hbuff, hkeep, ?_, ?_⟩
  · intro hr
    rcases hend with hfull | rfl
    · rw [if_pos hfull] at hr
      exact absurd hr (by decide)
    · rw [urlDecode, List.append_nil] at hdecode
      exact ⟨back, by rw [hdecode]⟩
  · intro hgroups hshort
    refine if_neg fun hfull => ?_
    exact absurd (hneed hgroups hfull.2) (Nat.not_le.mpr hshort)

/-- A letter in two bytes and a blank; a group that is whole and one that is not. -/
theorem urlCode_sound_letter :
    (urlDecode (urlEncode [0xc3, 0xa5, ch ' ']) = [0xc3, 0xa5, ch ' '] ∧
      UrlText (urlEncode [0xc3, 0xa5, ch ' '])) ∧
    ∃ r decode', urlDecodeBuff [1, 2, 3] 3 (some (str "%41%4")) = .done (r, decode') ∧
      decode'.length = 3 ∧ (r = 0 → ∃ back, decode' = urlDecode (str "%41%4") ++ 0 :: back) ∧
      (WholeGroups (str "%41%4") → (urlDecode (str "%41%4")).length < 3 → r = 0) :=
  urlCode_sound [0xc3, 0xa5, ch ' '] (str "%41%4") [1, 2, 3] (by decide)

end G7
