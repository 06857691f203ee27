import G7Ctrl.Core.EncodedWord
import G7Ctrl.Mail.QprintLines

/-!
# The subject of a mail (`qprint_encode_word`)

A subject goes into the header as it is, or as an encoded word.

* `stripped` — the subject without its line ends.
* `EncodesSubject` — the function returns 0, inside the buffer, and what it leaves has no line ends
  and is this text or decodes to it.
* `Encodable`, `qWordWidth` — the subjects that can be encoded, and what they take.  The bytes above
  127 are taken in pairs, whatever the second one is.
* **`encodesSubject_iff`** — the subjects of which this is true.
-/

namespace G7

/-- The text without its line ends. -/
def stripped (text : CStr) : CStr := text.filter fun c => c ≠ lf ∧ c ≠ cr

/-- The function returns 0, and leaves a string without line ends in its buffer that is the text
without its line ends, or decodes to that. -/
def EncodesSubject (text : CStr) (out : List Byte) : Prop :=
  ∃ out' s, qprintEncodeWord text out out.length = .done (0, out') ∧ readStr out' = .done s ∧
    cr ∉ s ∧ lf ∉ s ∧ s.length < out.length ∧
      (s = stripped text ∨ decodeWord (str "utf8") s = some (stripped text))

/-- Each byte above 127 has one behind it that is no line end, with which it is taken together, and
the other bytes are at most `z`. -/
def Encodable : CStr → Prop
  | [] => True
  | c :: cs =>
      if 127 < c then
        match cs with
        | [] => False
        | d :: ds => (d ≠ lf ∧ d ≠ cr) ∧ Encodable ds
      else c ≤ ch 'z' ∧ Encodable cs

instance decidableEncodable : DecidablePred Encodable
  | [] => inferInstanceAs (Decidable True)
  | [c] => inferInstanceAs (Decidable (if 127 < c then False else c ≤ ch 'z' ∧ True))
  | c :: d :: ds =>
      let _ := decidableEncodable ds
      let _ := decidableEncodable (d :: ds)
      inferInstanceAs (Decidable (if 127 < c then (d ≠ lf ∧ d ≠ cr) ∧ Encodable ds
        else c ≤ ch 'z' ∧ Encodable (d :: ds)))

/-- The number of characters for a text that can be encoded. -/
def qWordWidth : CStr → ℕ
  | [] => 0
  | c :: cs =>
      if 127 < c then
        match cs with
        | [] => 0
        | _ :: ds => 6 + qWordWidth ds
      else if c = lf ∨ c = cr then qWordWidth cs
      else if c < 32 ∨ c = ch '_' ∨ c = ch '=' ∨ c = ch '?' then 3 + qWordWidth cs
      else 1 + qWordWidth cs

/-! ## One step of the loop -/

/-- What a round of the loop does: the characters it writes, the bytes they stand for, whether they
make the word an encoded one, and the rest of the text. -/
structure QUnit where
  units : CStr
  bytes : CStr
  encoded : Bool
  rest : CStr

/-- The code of a byte. -/
def qCode (c : Byte) : CStr := [ch '=', hexUpper (c.toNat / 16), hexUpper (c.toNat % 16)]

/-- The round for a text, if it can be encoded. -/
def qTake : CStr → Option QUnit
  | [] => none
  | c :: cs =>
      if c = lf ∨ c = cr then some ⟨[], [], false, cs⟩
      else if c = 32 then some ⟨[ch '_'], [c], true, cs⟩
      else if c = ch '_' ∨ c = ch '=' ∨ c = ch '?' ∨ c < 32 then some ⟨qCode c, [c], true, cs⟩
      else if 32 < c ∧ c ≤ ch 'z' then some ⟨[c], [c], false, cs⟩
      else if 127 < c then
        match cs with
        | [] => none
        | d :: ds => some ⟨qCode c ++ qCode d, [c, d], true, ds⟩
      else none

section

variable {text out : CStr} {c : Byte} {cs : CStr} {u : QUnit} {pout n : ℕ} {encoded : Bool}

/-- The cases of a round. -/
lemma qTake_cases (h : qTake (c :: cs) = some u) :
    (c = lf ∨ c = cr) ∧ u = ⟨[], [], false, cs⟩ ∨
    c = 32 ∧ u = ⟨[ch '_'], [c], true, cs⟩ ∨
    (¬ (c = lf ∨ c = cr) ∧ c ≠ 32 ∧ (c = ch '_' ∨ c = ch '=' ∨ c = ch '?' ∨ c < 32)) ∧
      u = ⟨qCode c, [c], true, cs⟩ ∨
    (¬ (c = ch '_' ∨ c = ch '=' ∨ c = ch '?' ∨ c < 32) ∧ 32 < c ∧ c ≤ ch 'z') ∧
      u = ⟨[c], [c], false, cs⟩ ∨
    127 < c ∧ ∃ d ds, cs = d :: ds ∧ u = ⟨qCode c ++ qCode d, [c, d], true, ds⟩ := by
  rw [qTake.eq_def] at h
  simp only at h
  split_ifs at h with hend h32 hspecial hz h127
  · exact .inl ⟨hend, (Option.some.inj h).symm⟩
  · exact .inr (.inl ⟨h32, (Option.some.inj h).symm⟩)
  · exact .inr (.inr (.inl ⟨⟨hend, h32, hspecial⟩, (Option.some.inj h).symm⟩))
  · exact .inr (.inr (.inr (.inl ⟨⟨hspecial, hz⟩, (Option.some.inj h).symm⟩)))
  · cases cs with
    | nil => cases h
    | cons d ds => exact .inr (.inr (.inr (.inr ⟨h127, d, ds, rfl, (Option.some.inj h).symm⟩)))

/-- **A round of the loop.** -/
lemma qprintWordLoop_take (h : qTake (c :: cs) = some u) (hn : n ≠ 0) (hpout : pout ≤ out.length) :
    qprintWordLoop (c :: cs) out pout n encoded =
      if n < u.units.length then .done (false, out, pout, n, encoded)
      else storeBytes out pout u.units >>= fun out =>
        qprintWordLoop u.rest out (pout + u.units.length) (n - u.units.length)
          (encoded || u.encoded) := by
  rw [qprintWordLoop, if_neg hn]
  rw [qTake.eq_def] at h
  simp only at h
  split_ifs at h with hend h32 hspecial hz h127
  · obtain rfl := Option.some.inj h
    dsimp only
    rw [if_pos hend, List.length_nil, if_neg (Nat.not_lt_zero n), storeBytes_nil hpout, Bool.or_false]
    rfl
  · obtain rfl := Option.some.inj h
    rw [if_neg hend, if_pos h32, if_neg (by simp only [List.length_singleton]; omega),
      storeBytes_singleton, Bool.or_true]
    rfl
  · obtain rfl := Option.some.inj h
    rw [if_neg hend, if_neg h32, if_pos hspecial, Bool.or_true]
    rfl
  · obtain rfl := Option.some.inj h
    rw [if_neg hend, if_neg h32, if_neg hspecial, if_pos hz,
      if_neg (by simp only [List.length_singleton]; omega), storeBytes_singleton, Bool.or_false]
    rfl
  · cases cs with
    | nil => cases h
    | cons d ds =>
        obtain rfl := Option.some.inj h
        rw [if_neg hend, if_neg h32, if_neg hspecial, if_neg hz, if_pos h127, Bool.or_true,
          storeBytes_two, Checked.bind_assoc]
        rfl

/-- A round that cannot be made ends the loop early. -/
lemma qprintWordLoop_eq_none {out' : List Byte} {pout' n' : ℕ} {ended encoded' : Bool}
    (h : qTake (c :: cs) = none) (hn : n ≠ 0)
    (hloop : qprintWordLoop (c :: cs) out pout n encoded
      = .done (ended, out', pout', n', encoded')) : ended = false := by
  rw [qprintWordLoop, if_neg hn] at hloop
  rw [qTake.eq_def] at h
  simp only at h
  split_ifs at h with hend h32 hspecial hz h127
  · cases cs with
    | cons d ds => cases h
    | nil =>
        rw [if_neg hend, if_neg h32, if_neg hspecial, if_neg hz, if_pos h127] at hloop
        split_ifs at hloop
        · cases hloop
          rfl
        · obtain ⟨out₁, -, hloop⟩ := Checked.bind_eq_done.mp hloop
          cases hloop
          rfl
  · rw [if_neg hend, if_neg h32, if_neg hspecial, if_neg hz, if_neg h127] at hloop
    cases hloop
    rfl

lemma length_rest_lt (h : qTake (c :: cs) = some u) : u.rest.length < (c :: cs).length := by
  obtain ⟨-, rfl⟩ | ⟨-, rfl⟩ | ⟨-, rfl⟩ | ⟨-, rfl⟩ | ⟨-, d, ds, rfl, rfl⟩ := qTake_cases h
  · exact Nat.lt_succ_self _
  · exact Nat.lt_succ_self _
  · exact Nat.lt_succ_self _
  · exact Nat.lt_succ_self _
  · exact Nat.lt_succ_of_lt (Nat.lt_succ_self _)

lemma qCode_eq (c : Byte) :
    qCode c = [ch '=', qpHex (c.toNat / 16), qpHex (c.toNat % 16)] := by
  have hlt := c.toNat_lt
  rw [qCode, hexUpper_eq (by omega), hexUpper_eq (by omega)]

/-- **What is written stands for the bytes.** -/
lemma qDecode_units (h : qTake (c :: cs) = some u) (s : CStr) :
    qDecode (u.units ++ s) = (qDecode s).map (u.bytes ++ ·) := by
  obtain ⟨-, rfl⟩ | ⟨rfl, rfl⟩ | ⟨-, rfl⟩ | ⟨⟨hspecial, h32, hz⟩, rfl⟩ | ⟨-, d, ds, rfl, rfl⟩ :=
    qTake_cases h
  · simp
  · exact qDecode_space s
  · rw [qCode_eq]
    exact qDecode_code c s
  · simp only [not_or] at hspecial
    refine qDecode_literal ⟨?_, ?_, hspecial.2.1, hspecial.2.2.1, hspecial.1⟩ s
    · exact UInt8.le_iff_toNat_le.mpr (UInt8.lt_iff_toNat_lt.mp h32)
    · exact UInt8.le_trans hz (by decide)
  · simp only [qCode_eq, List.cons_append, List.nil_append]
    rw [qDecode_code, qDecode_code]
    cases qDecode s <;> rfl

/-- It has no line ends and no NUL. -/
lemma notMem_units (h : qTake (c :: cs) = some u) : ∀ d ∈ u.units, d ≠ cr ∧ d ≠ lf ∧ d ≠ 0 := by
  have hdigit : ∀ n < 16, hexUpper n ≠ cr ∧ hexUpper n ≠ lf ∧ hexUpper n ≠ 0 := by decide
  have hcode : ∀ c, ∀ d ∈ qCode c, d ≠ cr ∧ d ≠ lf ∧ d ≠ 0 := by
    intro c
    have hlt := c.toNat_lt
    simp only [qCode, List.forall_mem_cons]
    exact ⟨by decide, hdigit _ (by omega), hdigit _ (by omega), nofun⟩
  obtain ⟨-, rfl⟩ | ⟨-, rfl⟩ | ⟨-, rfl⟩ | ⟨⟨-, h32, -⟩, rfl⟩ | ⟨-, d, ds, rfl, rfl⟩ :=
    qTake_cases h
  · exact nofun
  · exact List.forall_mem_singleton.mpr (by decide)
  · exact hcode c
  · refine List.forall_mem_singleton.mpr ⟨?_, ?_, ?_⟩
    · rintro rfl
      exact absurd h32 (by decide)
    · rintro rfl
      exact absurd h32 (by decide)
    · rintro rfl
      exact absurd h32 (by decide)
  · exact List.forall_mem_append.mpr ⟨hcode c, hcode d⟩

/-- The word stays plain as long as its bytes are. -/
lemma plainWord_iff_take (h : qTake (c :: cs) = some u) :
    PlainWord (c :: cs) ↔ u.encoded = false ∧ PlainWord u.rest := by
  rw [PlainWord, List.forall_mem_cons]
  obtain ⟨hend, rfl⟩ | ⟨rfl, rfl⟩ | ⟨⟨hend, -, hspecial⟩, rfl⟩ | ⟨⟨hspecial, h32, hz⟩, rfl⟩ |
    ⟨h127, d, ds, rfl, rfl⟩ := qTake_cases h
  · have hc : PlainByte c := by tauto
    simp [hc, PlainWord]
  · refine iff_of_false (fun hplain => absurd hplain.1 (by decide)) nofun
  · refine iff_of_false (fun hplain => ?_) nofun
    obtain hc | hc | ⟨h32, -, hline, heq, hmark⟩ := hplain.1
    · exact hend (.inl hc)
    · exact hend (.inr hc)
    · obtain hc | hc | hc | hc := hspecial
      · exact hline hc
      · exact heq hc
      · exact hmark hc
      · exact absurd (UInt8.lt_trans hc h32) (UInt8.lt_irrefl _)
  · simp only [not_or] at hspecial
    have hc : PlainByte c := .inr (.inr ⟨h32, hz, hspecial.1, hspecial.2.1, hspecial.2.2.1⟩)
    simp [hc, PlainWord]
  · refine iff_of_false (fun hplain => ?_) nofun
    obtain rfl | rfl | ⟨-, hz, -⟩ := hplain.1
    · exact absurd h127 (by decide)
    · exact absurd h127 (by decide)
    · have hlt : (127 : Byte) < ch 'z' := UInt8.lt_of_lt_of_le h127 hz
      exact absurd hlt (by decide)

end

/-! ## A run of the loop -/

/-- The characters written for a text, and the bytes they stand for. -/
inductive QWritten : CStr → CStr → CStr → Prop
  | nil : QWritten [] [] []
  | take {c : Byte} {cs t b : CStr} {u : QUnit} (h : qTake (c :: cs) = some u)
      (rest : QWritten u.rest t b) : QWritten (c :: cs) (u.units ++ t) (u.bytes ++ b)

section

variable {text t b : CStr} {front rest : List Byte} {n : ℕ}

/-- **A loop with room enough writes the characters.** -/
lemma qprintWordLoop_written (front : List Byte) (encoded : Bool) (h : QWritten text t b)
    (hn : t.length + 3 ≤ n) (hroom : t.length ≤ rest.length) :
    qprintWordLoop text (front ++ rest) front.length n encoded =
      .done (true, front ++ (t ++ rest.drop t.length), front.length + t.length, n - t.length,
        encoded || !decide (PlainWord text)) := by
  induction h generalizing front rest n encoded with
  | nil =>
      have hplain : PlainWord [] := nofun
      rw [qprintWordLoop, decide_eq_true hplain, Bool.not_true, Bool.or_false]
      rfl
  | @take c cs t b u h _ ih =>
      rw [List.length_append] at hn hroom
      have hin : front.length ≤ (front ++ rest).length := by
        rw [List.length_append]
        exact Nat.le_add_right _ _
      rw [qprintWordLoop_take h (by omega) hin, if_neg (by omega),
        storeBytes_append front u.units (by omega), Checked.done_bind, ← List.append_assoc,
        ← List.length_append, ih (front ++ u.units) (encoded || u.encoded) (by omega)
          (by rw [List.length_drop]; omega)]
      have hencoded : ((encoded || u.encoded) || !decide (PlainWord u.rest)) =
          (encoded || !decide (PlainWord (c :: cs))) := by
        rw [decide_eq_decide.mpr (plainWord_iff_take h), Bool.decide_and, Bool.not_and,
          Bool.decide_eq_false, Bool.not_not, Bool.or_assoc]
      simp only [hencoded, List.append_assoc, List.length_append, List.drop_drop, Nat.add_assoc,
        Nat.sub_sub]

/-- **A loop that comes to its end has written the characters.** -/
lemma written_of_qprintWordLoop {out' : List Byte} {pout' n' : ℕ} {encoded encoded' : Bool}
    (h : qprintWordLoop text (front ++ rest) front.length n encoded
      = .done (true, out', pout', n', encoded')) (hn' : n' ≠ 0) :
    ∃ t b, QWritten text t b ∧ t.length ≤ rest.length ∧ t.length + n' = n := by
  induction hk : text.length using Nat.strong_induction_on
    generalizing text front rest n encoded with
  | _ k ih =>
      cases text with
      | nil =>
          cases h
          exact ⟨[], [], .nil, Nat.zero_le _, Nat.zero_add _⟩
      | cons c cs =>
          have hn : n ≠ 0 := by
            rintro rfl
            rw [qprintWordLoop, if_pos rfl] at h
            cases h
            exact hn' rfl
          cases htake : qTake (c :: cs) with
          | none => exact absurd (qprintWordLoop_eq_none htake hn h).symm Bool.false_ne_true
          | some u =>
              have hin : front.length ≤ (front ++ rest).length := by
                rw [List.length_append]
                exact Nat.le_add_right _ _
              rw [qprintWordLoop_take htake hn hin] at h
              have hroom : ¬ n < u.units.length := by
                intro hlt
                cases (if_pos hlt).symm.trans h
              rw [if_neg hroom] at h
              obtain ⟨out₁, hstore, h⟩ := Checked.bind_eq_done.mp h
              have hfits : u.units.length ≤ rest.length := by
                have hle := (length_storeBytes hstore).1
                rw [List.length_append] at hle
                omega
              rw [storeBytes_append front u.units hfits] at hstore
              cases hstore
              rw [← List.append_assoc, ← List.length_append] at h
              obtain ⟨t, b, hwritten, hlen, hsum⟩ :=
                ih _ (hk ▸ length_rest_lt htake) h rfl
              rw [List.length_drop] at hlen
              exact ⟨u.units ++ t, u.bytes ++ b, .take htake hwritten,
                by rw [List.length_append]; omega, by rw [List.length_append]; omega⟩

/-! ## What is written -/

lemma qDecode_written (h : QWritten text t b) : qDecode t = some b := by
  induction h with
  | nil => rfl
  | take h _ ih => rw [qDecode_units h, ih, Option.map_some]

lemma notMem_written (h : QWritten text t b) : ∀ d ∈ t, d ≠ cr ∧ d ≠ lf ∧ d ≠ 0 := by
  induction h with
  | nil => exact nofun
  | take h _ ih => exact List.forall_mem_append.mpr ⟨notMem_units h, ih⟩

lemma encodable_low {c : Byte} {cs : CStr} (hc : ¬ 127 < c) :
    Encodable (c :: cs) ↔ c ≤ ch 'z' ∧ Encodable cs := by
  rw [Encodable.eq_def]
  simp only [if_neg hc]

lemma encodable_pair {c d : Byte} {ds : CStr} (hc : 127 < c) :
    Encodable (c :: d :: ds) ↔ (d ≠ lf ∧ d ≠ cr) ∧ Encodable ds := by
  rw [Encodable, if_pos hc]

lemma qWordWidth_low {c : Byte} {cs : CStr} (hc : ¬ 127 < c) :
    qWordWidth (c :: cs) =
      if c = lf ∨ c = cr then qWordWidth cs
      else if c < 32 ∨ c = ch '_' ∨ c = ch '=' ∨ c = ch '?' then 3 + qWordWidth cs
      else 1 + qWordWidth cs := by
  rw [qWordWidth.eq_def]
  simp only [if_neg hc]

lemma stripped_cons {c : Byte} {cs : CStr} (hc : ¬ (c = lf ∨ c = cr)) :
    stripped (c :: cs) = c :: stripped cs := by
  rw [not_or] at hc
  exact List.filter_cons_of_pos (decide_eq_true hc)

/-- The parts of a round. -/
lemma length_take {c : Byte} {cs : CStr} {u : QUnit} (h : qTake (c :: cs) = some u) :
    u.bytes.length ≤ u.units.length ∧
      qWordWidth (c :: cs) = u.units.length + qWordWidth u.rest ∧
      stripped (c :: cs) = stripped u.bytes ++ stripped u.rest ∧
      (Encodable (c :: cs) ↔ stripped u.bytes = u.bytes ∧ Encodable u.rest) := by
  have hz : ∀ c, c ≤ ch 'z' → ¬ 127 < c := by
    intro c hc hlt
    exact absurd (UInt8.lt_of_lt_of_le hlt hc) (by decide)
  have hbytes : ∀ c, ¬ (c = lf ∨ c = cr) → stripped [c] = [c] := fun c hc => stripped_cons hc
  have happ : ∀ bytes rest : CStr, stripped (bytes ++ rest) = stripped bytes ++ stripped rest :=
    fun bytes rest => List.filter_append bytes rest
  obtain ⟨hend, rfl⟩ | ⟨rfl, rfl⟩ | ⟨⟨hend, h32, hspecial⟩, rfl⟩ | ⟨⟨hspecial, h32, hle⟩, rfl⟩ |
    ⟨h127, d, ds, rfl, rfl⟩ := qTake_cases h
  · have hle : c ≤ ch 'z' := by
      obtain rfl | rfl := hend
      · decide
      · decide
    refine ⟨le_rfl, ?_, ?_, ?_⟩
    · rw [qWordWidth_low (hz c hle), if_pos hend, List.length_nil, Nat.zero_add]
    · refine List.filter_cons_of_neg ?_
      simpa using fun hlf => hend.resolve_left hlf
    · rw [encodable_low (hz c hle)]
      exact and_congr_left fun _ => iff_of_true hle rfl
  · refine ⟨le_rfl, ?_, happ [32] cs, ?_⟩
    · rw [qWordWidth_low (by decide), if_neg (by decide), if_neg (by decide)]
      rfl
    · rw [encodable_low (by decide)]
      exact and_congr_left fun _ => iff_of_true (by decide) rfl
  · have hle : c ≤ ch 'z' := by
      obtain rfl | rfl | rfl | hlt := hspecial
      · decide
      · decide
      · decide
      · exact UInt8.le_trans (UInt8.le_of_lt hlt) (by decide)
    have hcode : c < 32 ∨ c = ch '_' ∨ c = ch '=' ∨ c = ch '?' := by
      obtain hc | hc | hc | hc := hspecial
      · exact .inr (.inl hc)
      · exact .inr (.inr (.inl hc))
      · exact .inr (.inr (.inr hc))
      · exact .inl hc
    refine ⟨by simp [qCode], ?_, happ [c] cs, ?_⟩
    · rw [qWordWidth_low (hz c hle), if_neg hend, if_pos hcode]
      rfl
    · rw [encodable_low (hz c hle)]
      exact and_congr_left fun _ => iff_of_true hle (hbytes c hend)
  · have hend : ¬ (c = lf ∨ c = cr) := by
      rintro (rfl | rfl)
      · exact absurd h32 (by decide)
      · exact absurd h32 (by decide)
    have hcode : ¬ (c < 32 ∨ c = ch '_' ∨ c = ch '=' ∨ c = ch '?') := by
      simp only [not_or] at hspecial ⊢
      exact ⟨hspecial.2.2.2, hspecial.1, hspecial.2.1, hspecial.2.2.1⟩
    refine ⟨le_rfl, ?_, happ [c] cs, ?_⟩
    · rw [qWordWidth_low (hz c hle), if_neg hend, if_neg hcode]
      rfl
    · rw [encodable_low (hz c hle)]
      exact and_congr_left fun _ => iff_of_true hle (hbytes c hend)
  · have hend : ¬ (c = lf ∨ c = cr) := by
      rintro (rfl | rfl)
      · exact absurd h127 (by decide)
      · exact absurd h127 (by decide)
    refine ⟨by simp [qCode], ?_, happ [c, d] ds, ?_⟩
    · rw [qWordWidth, if_pos h127]
      rfl
    · rw [encodable_pair h127, stripped_cons hend, List.cons_inj_right]
      refine and_congr_left fun _ => ⟨fun hd => hbytes d (not_or.mpr hd), fun hd => ?_⟩
      have hmem := List.filter_eq_self.mp hd d (List.mem_singleton_self d)
      exact of_decide_eq_true hmem

lemma length_written (h : QWritten text t b) : t.length = qWordWidth text := by
  induction h with
  | nil => rfl
  | take h _ ih => rw [List.length_append, ih, (length_take h).2.1]

lemma length_bytes_written (h : QWritten text t b) : b.length ≤ t.length := by
  induction h with
  | nil => exact le_rfl
  | take h _ ih =>
      rw [List.length_append, List.length_append]
      exact Nat.add_le_add (length_take h).1 ih

/-- The bytes are those of the text, some of the line ends apart. -/
lemma stripped_written (h : QWritten text t b) : stripped text = stripped b := by
  induction h with
  | nil => rfl
  | take h _ ih => rw [(length_take h).2.2.1, ih, stripped, stripped, stripped, List.filter_append]

/-- **They are the text without its line ends just if this can be encoded.** -/
lemma bytes_eq_stripped_iff (h : QWritten text t b) : b = stripped text ↔ Encodable text := by
  rw [stripped_written h, eq_comm]
  induction h with
  | nil => exact iff_of_true rfl trivial
  | @take c cs t b u h _ ih =>
      rw [(length_take h).2.2.2, ← ih]
      rw [stripped, stripped, stripped, List.filter_eq_self, List.filter_eq_self,
        List.filter_eq_self, List.forall_mem_append]

/-- A text that can be encoded has a round. -/
lemma exists_take {c : Byte} {cs : CStr} (h : Encodable (c :: cs)) :
    ∃ u, qTake (c :: cs) = some u := by
  rw [qTake.eq_def]
  simp only
  split_ifs with hend h32 hspecial hz h127
  · exact ⟨_, rfl⟩
  · exact ⟨_, rfl⟩
  · exact ⟨_, rfl⟩
  · exact ⟨_, rfl⟩
  · cases cs with
    | nil =>
        rw [Encodable, if_pos h127] at h
        exact h.elim
    | cons d ds => exact ⟨_, rfl⟩
  · simp only [not_or] at hspecial
    have hgt : 32 < c := UInt8.lt_of_le_of_ne (UInt8.not_lt.mp hspecial.2.2.2) (Ne.symm h32)
    exact absurd ⟨hgt, ((encodable_low h127).mp h).1⟩ hz

lemma exists_written (h : Encodable text) : ∃ t b, QWritten text t b := by
  induction hk : text.length using Nat.strong_induction_on generalizing text with
  | _ k ih =>
      cases text with
      | nil => exact ⟨[], [], .nil⟩
      | cons c cs =>
          obtain ⟨u, htake⟩ := exists_take h
          obtain ⟨t, b, hrest⟩ :=
            ih _ (hk ▸ length_rest_lt htake) ((length_take htake).2.2.2.mp h).2 rfl
          exact ⟨u.units ++ t, u.bytes ++ b, .take htake hrest⟩

end

/-! ## The function -/

/-- The buffer with a word. -/
def wordBuffer (t : CStr) (out : List Byte) : List Byte :=
  wordFront (str "utf8") ++ t ++ (cblock (str "?=") ++ out.drop (t.length + 12))

section

variable {text t b : CStr} {out : List Byte}

/-- The word is begun. -/
lemma storeBytes_wordFront (hlen : 10 ≤ out.length) :
    storeBytes out 0 (cblock (str "=?utf8?Q?")) =
      .done (wordFront (str "utf8") ++ (0 :: out.drop 10)) := by
  have hfront : cblock (str "=?utf8?Q?") = wordFront (str "utf8") ++ [0] := by decide
  rw [storeBytes, if_pos (by rw [Nat.zero_add]; exact hlen), hfront]
  simp only [List.take_zero, List.nil_append, List.append_assoc, List.singleton_append]
  rfl

/-- **What a subject becomes** if its characters fit. -/
lemma qprintEncodeWord_written (h : QWritten text t b) (hfits : t.length + 12 ≤ out.length) :
    qprintEncodeWord text out out.length =
      if PlainWord text then
        storeBytes (wordBuffer t out) 0 (cblock text) >>= fun out => .done (0, out)
      else .done (0, wordBuffer t out) := by
  have hrest : t.length + 3 ≤ (0 :: out.drop 10).length := by
    rw [List.length_cons, List.length_drop]
    omega
  have hloop := qprintWordLoop_written (n := out.length) (wordFront (str "utf8")) false h
    (by omega) (show t.length ≤ (0 :: out.drop 10).length by omega)
  have hend : storeBytes (wordFront (str "utf8") ++ (t ++ (0 :: out.drop 10).drop t.length))
      ((wordFront (str "utf8")).length + t.length) (cblock (str "?=")) =
        .done (wordBuffer t out) := by
    rw [← List.append_assoc, ← List.length_append, storeBytes_append _ _ (by
      rw [List.length_drop, length_cblock]
      change 3 ≤ _
      omega), List.drop_drop, wordBuffer]
    change Checked.done (_ ++ (_ ++ (0 :: out.drop 10).drop (t.length + 3))) = _
    rw [List.drop_succ_cons, List.drop_drop, show 10 + (t.length + 2) = t.length + 12 by omega]
  rw [qprintEncodeWord, if_neg (by omega), storeBytes_wordFront (by omega), Checked.done_bind]
  change (qprintWordLoop text _ (wordFront (str "utf8")).length out.length false >>= _) = _
  rw [hloop, Checked.done_bind]
  dsimp only
  have hgo : ¬ (true = false ∨ out.length - t.length < 3) := by
    rintro (hfalse | hlt)
    · cases hfalse
    · omega
  rw [if_neg hgo, hend, Checked.done_bind, Bool.false_or]
  by_cases hplain : PlainWord text
  · rw [if_pos hplain, decide_eq_true hplain, if_pos Bool.not_true]
    rfl
  · rw [if_neg hplain, decide_eq_false hplain, if_neg (by decide)]
    rfl

/-- A subject that is taken has its characters, and they fit. -/
lemma written_of_qprintEncodeWord {out' : List Byte}
    (h : qprintEncodeWord text out out.length = .done (0, out')) :
    ∃ t b, QWritten text t b ∧ t.length + 12 ≤ out.length := by
  rw [qprintEncodeWord] at h
  split_ifs at h with hlen
  · cases h
  · rw [storeBytes_wordFront (by omega), Checked.done_bind] at h
    obtain ⟨⟨ended, out₂, pout, n, encoded⟩, hloop, h⟩ := Checked.bind_eq_done.mp h
    by_cases hstop : ended = false ∨ n < 3
    · cases (if_pos hstop).symm.trans h
    · replace h := (if_neg hstop).symm.trans h
      rw [not_or, Bool.not_eq_false, Nat.not_lt] at hstop
      obtain ⟨rfl, hn⟩ := hstop
      obtain ⟨t, b, hwritten, hroom, hsum⟩ :=
        written_of_qprintWordLoop hloop (by omega)
      have hforward := qprintWordLoop_written (n := out.length) (wordFront (str "utf8")) false
        hwritten (by omega) hroom
      obtain ⟨rfl, rfl⟩ : out₂ = wordFront (str "utf8") ++
          (t ++ (0 :: out.drop 10).drop t.length) ∧
            pout = (wordFront (str "utf8")).length + t.length := by
        cases hloop.symm.trans hforward
        exact ⟨rfl, rfl⟩
      obtain ⟨out₃, hend, -⟩ := Checked.bind_eq_done.mp h
      have hin := (length_storeBytes hend).1
      rw [List.length_append, List.length_append, List.length_drop, List.length_cons,
        List.length_drop] at hin
      rw [List.length_cons, List.length_drop] at hroom
      have hmark : (cblock (str "?=")).length = 3 := rfl
      exact ⟨t, b, hwritten, by omega⟩

lemma readStr_wordBuffer (h : QWritten text t b) :
    readStr (wordBuffer t out) = .done (wordFront (str "utf8") ++ (t ++ str "?=")) := by
  have hnul : (0 : Byte) ∉ wordFront (str "utf8") ++ (t ++ str "?=") := by
    rw [List.mem_append, List.mem_append, not_or, not_or]
    exact ⟨by decide, fun hmem => (notMem_written h 0 hmem).2.2 rfl, by decide⟩
  have happ : wordBuffer t out =
      (wordFront (str "utf8") ++ (t ++ str "?=")) ++ 0 :: out.drop (t.length + 12) := by
    simp only [wordBuffer, cblock, List.append_assoc, List.singleton_append]
  rw [happ]
  exact readStr_append_nul hnul _

lemma length_wordBuffer (hfits : t.length + 12 ≤ out.length) :
    (wordBuffer t out).length = out.length := by
  have hfront : (wordFront (str "utf8")).length = 9 := rfl
  have hmark : (cblock (str "?=")).length = 3 := rfl
  rw [wordBuffer, List.length_append, List.length_append, List.length_append, List.length_drop,
    hfront, hmark]
  omega

lemma stripped_eq_self_iff : stripped text = text ↔ cr ∉ text ∧ lf ∉ text := by
  rw [stripped, List.filter_eq_self]
  constructor
  · intro h
    exact ⟨fun hcr => (of_decide_eq_true (h cr hcr)).2 rfl,
      fun hlf => (of_decide_eq_true (h lf hlf)).1 rfl⟩
  · rintro ⟨hcr, hlf⟩ c hc
    refine decide_eq_true ⟨?_, ?_⟩
    · rintro rfl
      exact hlf hc
    · rintro rfl
      exact hcr hc

lemma PlainByte.le {c : Byte} (h : PlainByte c) : c ≤ ch 'z' := by
  obtain rfl | rfl | ⟨-, hz, -⟩ := h
  · decide
  · decide
  · exact hz

lemma PlainByte.not_high {c : Byte} (h : PlainByte c) : ¬ 127 < c :=
  fun hlt => absurd (UInt8.lt_of_lt_of_le hlt h.le) (by decide)

lemma encodable_of_plain (hplain : PlainWord text) : Encodable text := by
  induction text with
  | nil => exact trivial
  | cons c cs ih =>
      obtain ⟨hc, hcs⟩ := List.forall_mem_cons.mp hplain
      exact (encodable_low hc.not_high).mpr ⟨hc.le, ih hcs⟩

/-- A plain subject takes the characters that are not line ends. -/
lemma qWordWidth_plain (hplain : PlainWord text) : qWordWidth text = (stripped text).length := by
  induction text with
  | nil => rfl
  | cons c cs ih =>
      obtain ⟨hc, hcs⟩ := List.forall_mem_cons.mp hplain
      rw [qWordWidth_low hc.not_high]
      by_cases hend : c = lf ∨ c = cr
      · rw [if_pos hend, ih hcs, stripped, stripped, List.filter_cons_of_neg (by
          simpa using fun hlf => hend.resolve_left hlf)]
      · rw [stripped_cons hend, if_neg hend, if_neg, ih hcs, List.length_cons, Nat.add_comm]
        obtain hlf | hcr | ⟨h32, -, hline, heq, hmark⟩ := hc
        · exact absurd (.inl hlf) hend
        · exact absurd (.inr hcr) hend
        · rintro (hlt | h | h | h)
          · exact absurd (UInt8.lt_trans hlt h32) (UInt8.lt_irrefl _)
          · exact hline h
          · exact heq h
          · exact hmark h

/-- A plain subject. -/
lemma encodesSubject_plain (h : QWritten text t b) (hfits : t.length + 12 ≤ out.length)
    (hnul : (0 : Byte) ∉ text) (hplain : PlainWord text) :
    EncodesSubject text out ↔ cr ∉ text ∧ lf ∉ text := by
  have hcall := qprintEncodeWord_written h hfits
  rw [if_pos hplain] at hcall
  constructor
  · rintro ⟨out', s, hdone, hs, hcr, hlf, -⟩
    rw [hdone] at hcall
    obtain ⟨out₁, hcopy, hout⟩ := Checked.bind_eq_done.mp hcall.symm
    cases hout
    have hroom := (length_storeBytes hcopy).1
    rw [storeBytes_start (by rwa [Nat.zero_add] at hroom)] at hcopy
    cases hcopy
    rw [cblock, List.append_assoc, List.singleton_append, readStr_append_nul hnul] at hs
    cases hs
    exact ⟨hcr, hlf⟩
  · rintro ⟨hcr, hlf⟩
    have hstripped := stripped_eq_self_iff.mpr ⟨hcr, hlf⟩
    have hlen : text.length = t.length := by
      rw [length_written h, qWordWidth_plain hplain, hstripped]
    have hroom : (cblock text).length ≤ (wordBuffer t out).length := by
      rw [length_cblock, length_wordBuffer hfits]
      omega
    rw [storeBytes_start hroom, Checked.done_bind] at hcall
    refine ⟨_, text, hcall, ?_, hcr, hlf, by omega, .inl hstripped.symm⟩
    rw [cblock, List.append_assoc, List.singleton_append]
    exact readStr_append_nul hnul _

/-- Any other subject. -/
lemma encodesSubject_encoded (h : QWritten text t b) (hfits : t.length + 12 ≤ out.length)
    (hplain : ¬ PlainWord text) : EncodesSubject text out ↔ Encodable text := by
  have hcall := qprintEncodeWord_written h hfits
  rw [if_neg hplain] at hcall
  have hdecode : decodeWord (str "utf8") (wordFront (str "utf8") ++ (t ++ str "?=")) = some b :=
    (decodeWord_eq _ t).trans (qDecode_written h)
  have hlen : (wordFront (str "utf8") ++ (t ++ str "?=")).length = t.length + 11 := by
    have hfront : (wordFront (str "utf8")).length = 9 := rfl
    have hmark : (str "?=").length = 2 := rfl
    rw [List.length_append, List.length_append, hfront, hmark]
    omega
  rw [← bytes_eq_stripped_iff h]
  constructor
  · rintro ⟨out', s, hdone, hs, -, -, -, hword⟩
    cases hdone.symm.trans hcall
    cases hs.symm.trans (readStr_wordBuffer h)
    obtain hself | hword := hword
    · -- the word is longer than the text
      have hle := length_bytes_written h
      have hshort : (stripped b).length ≤ b.length := List.length_filter_le _ _
      rw [← stripped_written h, ← hself, hlen] at hshort
      omega
    · exact Option.some.inj (hdecode.symm.trans hword)
  · intro hb
    have hends : ∀ c ∈ wordFront (str "utf8") ++ (t ++ str "?="), c ≠ cr ∧ c ≠ lf := by
      refine List.forall_mem_append.mpr ⟨by decide +kernel, List.forall_mem_append.mpr ⟨?_, ?_⟩⟩
      · exact fun c hc => ⟨(notMem_written h c hc).1, (notMem_written h c hc).2.1⟩
      · decide +kernel
    exact ⟨_, _, hcall, readStr_wordBuffer h, fun hcr => (hends _ hcr).1 rfl,
      fun hlf => (hends _ hlf).2 rfl, by omega, .inr (hdecode.trans (congrArg some hb))⟩

/-- **A subject is encoded** just if its bytes above 127 come in pairs, none of its bytes lies
between `z` and them, a plain one has no line ends, and all of it fits together with the twelve
bytes around it. -/
theorem encodesSubject_iff (text : CStr) (out : List Byte) (hnul : (0 : Byte) ∉ text) :
    EncodesSubject text out ↔
      Encodable text ∧ (PlainWord text → cr ∉ text ∧ lf ∉ text) ∧
        qWordWidth text + 12 ≤ out.length := by
  constructor
  · intro h
    obtain ⟨out', s, hcall, -⟩ := id h
    obtain ⟨t, b, hwritten, hfits⟩ := written_of_qprintEncodeWord hcall
    refine ⟨?_, ?_, length_written hwritten ▸ hfits⟩
    · by_cases hplain : PlainWord text
      · exact encodable_of_plain hplain
      · exact (encodesSubject_encoded hwritten hfits hplain).mp h
    · exact fun hplain => (encodesSubject_plain hwritten hfits hnul hplain).mp h
  · rintro ⟨henc, hends, hfits⟩
    obtain ⟨t, b, hwritten⟩ := exists_written henc
    rw [← length_written hwritten] at hfits
    by_cases hplain : PlainWord text
    · exact (encodesSubject_plain hwritten hfits hnul hplain).mpr (hends hplain)
    · exact (encodesSubject_encoded hwritten hfits hplain).mpr henc

theorem encodesSubject_word : (0 : Byte) ∉ [ch 'O', ch ' ', 0xC3, 0xA9] ∧
    EncodesSubject [ch 'O', ch ' ', 0xC3, 0xA9] (List.replicate 20 0) :=
  ⟨by decide, (encodesSubject_iff _ _ (by decide)).mpr
    ⟨by decide, fun hplain => absurd hplain (by decide), by decide⟩⟩

/-- A subject of two lines keeps its line end. -/
theorem twoLines_not_encodesSubject :
    ¬ EncodesSubject [ch 'a', lf, ch 'b'] (List.replicate 32 0) := by
  have hdone : qprintEncodeWord [ch 'a', lf, ch 'b'] (List.replicate 32 0) 32 =
      .done (0, [ch 'a', lf, ch 'b', 0] ++ str "f8?Q?ab?=" ++ List.replicate 19 0) := by
    decide +kernel
  have hread : readStr ([ch 'a', lf, ch 'b', 0] ++ str "f8?Q?ab?=" ++ List.replicate 19 0) =
      .done [ch 'a', lf, ch 'b'] := by
    decide +kernel
  rintro ⟨out', s, hcall, hs, -, hlf, -⟩
  rw [List.length_replicate, hdone] at hcall
  cases hcall
  cases hread.symm.trans hs
  exact hlf (by decide)

end

end G7
