import G7Ctrl.Core.Utf8
import G7Ctrl.Xstr.Block
import G7Ctrl.Xstr.NumberRange

/-!
# Copying whole code points (`xmb_strncpy`)

The `xmb` routines with the memory they read and write.  They step over code points by looking for
bytes that begin one, and `xmb_strncpy` counts code points in an `int`.

* `xmbIncMem`, `xmbDecMem`, `xmbCharnumMem`, `xmbOffsetMem` — the steps and the two walks.
* `xmbStrncpyMem` — the copy.
* **`xmbCharnumMem_eq`**, **`xmbOffsetMem_eq`** — what the walks find in a text.
* **`copiesWhole_iff`** — the copy is the longest beginning that fits, if the code points can be
  counted.
-/

namespace G7

/-! ## The functions -/

/-- The increment chain of `xmb_inc`, `xmb_offset` and `xmb_charnum`. -/
def xmbIncMem (s : List Byte) (offs : ℕ) : Checked ℕ := do
  let c ← load s (offs + 1)
  if isutf c then return offs + 1
  else
    let c ← load s (offs + 2)
    if isutf c then return offs + 2
    else
      let c ← load s (offs + 3)
      if isutf c then return offs + 3 else return offs + 4

/-- `s[i - k]` -/
def loadBefore (s : List Byte) (i k : ℕ) : Checked Byte := if k ≤ i then load s (i - k) else .fault

/-- `xmb_dec` -/
def xmbDecMem (s : List Byte) (i : ℕ) : Checked ℕ := do
  let c ← loadBefore s i 1
  if isutf c then return i - 1
  else
    let c ← loadBefore s i 2
    if isutf c then return i - 2
    else
      let c ← loadBefore s i 3
      if isutf c then return i - 3 else if 4 ≤ i then return i - 4 else .fault

/-- The loop of `xmb_charnum`. -/
def charnumLoop (s : List Byte) (offset : ℕ) : ℕ → ℕ → ℕ → Checked ℕ
  | 0, _, _ => .timeout
  | fuel + 1, offs, charnum =>
      if offs < offset then do
        let c ← load s offs
        if c = 0 then return charnum
        else
          let offs ← xmbIncMem s offs
          charnumLoop s offset fuel offs (charnum + 1)
      else return charnum

/-- `xmb_charnum` -/
def xmbCharnumMem (s : List Byte) (offset : ℕ) : Checked ℕ := charnumLoop s offset (offset + 1) 0 0

/-- The loop of `xmb_offset`. -/
def offsetLoop (s : List Byte) : ℕ → ℕ → Checked ℕ
  | 0, offs => return offs
  | charnum + 1, offs => do
      let c ← load s offs
      if c = 0 then return offs
      else
        let offs ← xmbIncMem s offs
        offsetLoop s charnum offs

/-- `xmb_offset`.  Its argument is an `int`. -/
def xmbOffsetMem (s : List Byte) (charnum : ℤ) : Checked ℕ := offsetLoop s charnum.toNat 0

/-- `xmb_strncpy`, with the destination it leaves. -/
def xmbStrncpyMem (s1 s2 : List Byte) (maxbuff : ℕ) : Checked (List Byte) := do
  let charnum ← xmbCharnumMem s2 maxbuff
  let byteidx ← xmbOffsetMem s2 (toInt32 charnum)
  let byteidx ← if byteidx ≥ maxbuff then xmbDecMem s2 byteidx else pure byteidx
  let bytes ← readBytes byteidx s2
  let s1 ← storeBytes s1 0 bytes
  store s1 byteidx 0

/-! ## Steps -/

lemma isutf_eq (c : Byte) : isutf c = !isTail c := by
  have h := forall_byte (p := fun c => isutf c == !isTail c) (by decide +kernel) c
  exact beq_iff_eq.mp h

/-- A step forward over a code point. -/
lemma xmbIncMem_eq (front : List Byte) (p : CodePoint) {c : Byte} (hc : isTail c = false)
    (back : List Byte) :
    xmbIncMem (front ++ (p.bytes ++ c :: back)) front.length =
      .done (front.length + p.bytes.length) := by
  obtain ⟨a, tail, hp, -, htail, -, hlen⟩ := p.exists_cons
  have hload {k : ℕ} (hk : k < (p.bytes ++ c :: back).length) :=
    load_append_add front hk
  rw [hp] at hload ⊢
  match tail, htail, hlen with
  | [], _, _ =>
      rw [xmbIncMem, hload (by simp), Checked.done_bind]
      simp [byteAt, isutf_eq, hc]
  | [x], htail, _ =>
      have hx := htail x (by simp)
      rw [xmbIncMem, hload (by simp), hload (by simp)]
      simp [byteAt, isutf_eq, hc, hx]
  | [x, y], htail, _ =>
      have hx := htail x (by simp)
      have hy := htail y (by simp)
      rw [xmbIncMem, hload (by simp), hload (by simp), hload (by simp)]
      simp [byteAt, isutf_eq, hc, hx, hy]
  | [x, y, z], htail, _ =>
      have hx := htail x (by simp)
      have hy := htail y (by simp)
      have hz := htail z (by simp)
      rw [xmbIncMem, hload (by simp), hload (by simp), hload (by simp)]
      simp [byteAt, isutf_eq, hx, hy, hz]

/-- A step back over it. -/
lemma xmbDecMem_eq (front : List Byte) (p : CodePoint) (back : List Byte) :
    xmbDecMem (front ++ (p.bytes ++ back)) (front.length + p.bytes.length) =
      .done front.length := by
  obtain ⟨a, tail, hp, ha, htail, -, hlen⟩ := p.exists_cons
  have hload {k : ℕ} (hpos : 0 < k) (hk : k ≤ p.bytes.length) :
      loadBefore (front ++ (p.bytes ++ back)) (front.length + p.bytes.length) k =
        .done (byteAt (p.bytes ++ back) (p.bytes.length - k)) := by
    rw [loadBefore, if_pos (by omega), Nat.add_sub_assoc hk]
    exact load_append_add front (by rw [List.length_append]; omega)
  rw [hp] at hload ⊢
  match tail, htail, hlen with
  | [], _, _ =>
      rw [xmbDecMem, hload (by simp) (by simp), Checked.done_bind]
      simp [byteAt, isutf_eq, ha]
  | [x], htail, _ =>
      have hx := htail x (by simp)
      rw [xmbDecMem, hload (by simp) (by simp), hload (by simp) (by simp)]
      simp [byteAt, isutf_eq, ha, hx]
  | [x, y], htail, _ =>
      have hx := htail x (by simp)
      have hy := htail y (by simp)
      rw [xmbDecMem, hload (by simp) (by simp), hload (by simp) (by simp),
        hload (by simp) (by simp)]
      simp [byteAt, isutf_eq, ha, hx, hy]
  | [x, y, z], htail, _ =>
      have hx := htail x (by simp)
      have hy := htail y (by simp)
      have hz := htail z (by simp)
      rw [xmbDecMem, hload (by simp) (by simp), hload (by simp) (by simp),
        hload (by simp) (by simp)]
      simp [byteAt, isutf_eq, hx, hy, hz]

/-! ## Walks -/

/-- Behind a code point there is another one, or what follows the text. -/
lemma exists_begin (t : List CodePoint) {e : Byte} (he : isTail e = false) (rest : List Byte) :
    ∃ c back, utf8Bytes t ++ e :: rest = c :: back ∧ isTail c = false := by
  cases hbytes : utf8Bytes t with
  | nil => exact ⟨e, rest, rfl, he⟩
  | cons c back => exact ⟨c, back ++ e :: rest, rfl, isTail_head_utf8Bytes (by rw [hbytes]; rfl)⟩

/-- One round of either walk: a byte that is not the NUL is loaded, and the code point skipped. -/
lemma walk_round (front : List Byte) (p : CodePoint) (t : List CodePoint)
    (ht : (0 : Byte) ∉ utf8Bytes (p :: t)) {e : Byte} (he : isTail e = false) (rest : List Byte) :
    (∃ c, load (front ++ (utf8Bytes (p :: t) ++ e :: rest)) front.length = .done c ∧ c ≠ 0) ∧
      xmbIncMem (front ++ (utf8Bytes (p :: t) ++ e :: rest)) front.length =
        .done (front ++ p.bytes).length := by
  rw [utf8Bytes_cons, List.append_assoc]
  constructor
  · obtain ⟨a, tail, hp, -⟩ := p.exists_cons
    rw [utf8Bytes_cons, hp, List.cons_append, List.mem_cons, not_or] at ht
    rw [hp]
    exact ⟨a, load_append_length .., Ne.symm ht.1⟩
  · obtain ⟨c, back, hback, hc⟩ := exists_begin t he rest
    rw [hback, xmbIncMem_eq front p hc, List.length_append]

/-- The walk of `xmb_charnum` from a place on. -/
lemma charnumLoop_run (offset : ℕ) (t : List CodePoint) (ht : (0 : Byte) ∉ utf8Bytes t)
    (fuel : ℕ) (front : List Byte) (charnum : ℕ) (hfuel : offset - front.length < fuel) :
    charnumLoop (front ++ (utf8Bytes t ++ [0])) offset fuel front.length charnum =
      .done (charnum + charCount ((utf8Bytes t).take (offset - front.length))) := by
  induction t generalizing fuel front charnum with
  | nil =>
      obtain ⟨fuel, rfl⟩ := Nat.exists_eq_succ_of_ne_zero (Nat.ne_zero_of_lt hfuel)
      rw [charnumLoop, utf8Bytes_nil, List.take_nil, List.nil_append, load_append_length]
      split_ifs with hlt
      · rfl
      · rfl
  | cons p t ih =>
      obtain ⟨fuel, rfl⟩ := Nat.exists_eq_succ_of_ne_zero (Nat.ne_zero_of_lt hfuel)
      obtain ⟨⟨c, hload, hc⟩, hinc⟩ := walk_round front p t ht (e := 0) (by decide) []
      have hpos := p.length_pos
      rw [charnumLoop]
      split_ifs with hlt
      · rw [hload, Checked.done_bind, if_neg hc, hinc, Checked.done_bind]
        rw [utf8Bytes_cons, List.mem_append, not_or] at ht
        have hrun := ih ht.2 fuel (front ++ p.bytes) (charnum + 1)
          (by rw [List.length_append]; omega)
        have hcount : charCount ((utf8Bytes (p :: t)).take (offset - front.length)) =
            1 + charCount ((utf8Bytes t).take (offset - (front ++ p.bytes).length)) := by
          rw [utf8Bytes_cons, List.take_append, charCount_append, p.charCount_take (by omega),
            List.length_append, Nat.sub_sub]
        rw [hcount, utf8Bytes_cons, List.append_assoc p.bytes, ← List.append_assoc front, hrun,
          Nat.add_assoc]
      · have hzero : offset - front.length = 0 := by omega
        rw [hzero, List.take_zero]
        rfl

/-- **`xmb_charnum`** counts the code points that begin in front of a place. -/
theorem xmbCharnumMem_eq {t : List CodePoint} (ht : (0 : Byte) ∉ utf8Bytes t) (offset : ℕ) :
    xmbCharnumMem (cblock (utf8Bytes t)) offset =
      .done (charCount ((utf8Bytes t).take offset)) := by
  have hrun := charnumLoop_run offset t ht (offset + 1) [] 0 (Nat.lt_succ_self _)
  rwa [Nat.zero_add] at hrun

/-- The walk of `xmb_offset` from a place on, to a code point of a text or to the NUL behind it. -/
lemma offsetLoop_run (t : List CodePoint) (ht : (0 : Byte) ∉ utf8Bytes t) (charnum : ℕ)
    (front : List Byte) {e : Byte} (he : isTail e = false) (rest : List Byte)
    (hend : charnum ≤ t.length ∨ e = 0) :
    offsetLoop (front ++ (utf8Bytes t ++ e :: rest)) charnum front.length =
      .done (front.length + charOffset t charnum) := by
  induction charnum generalizing t front with
  | zero =>
      rw [charOffset_zero]
      rfl
  | succ charnum ih =>
      cases t with
      | nil =>
          have hnul : e = 0 := hend.resolve_left (Nat.not_succ_le_zero charnum)
          rw [offsetLoop, utf8Bytes_nil, List.nil_append, load_append_length, hnul]
          rfl
      | cons p t =>
          obtain ⟨⟨c, hload, hc⟩, hinc⟩ := walk_round front p t ht he rest
          rw [utf8Bytes_cons, List.mem_append, not_or] at ht
          have hrun := ih t ht.2 (front ++ p.bytes) (hend.imp_left Nat.le_of_succ_le_succ)
          rw [offsetLoop, hload, Checked.done_bind, if_neg hc, hinc, Checked.done_bind,
            utf8Bytes_cons, List.append_assoc p.bytes, ← List.append_assoc front, hrun,
            charOffset_cons, List.length_append, Nat.add_assoc]

/-- **`xmb_offset`** finds where a code point begins. -/
theorem xmbOffsetMem_eq {t : List CodePoint} (ht : (0 : Byte) ∉ utf8Bytes t) (charnum : ℤ) :
    xmbOffsetMem (cblock (utf8Bytes t)) charnum = .done (charOffset t charnum.toNat) := by
  have hrun := offsetLoop_run t ht charnum.toNat [] (e := 0) (by decide) [] (Or.inr rfl)
  rwa [List.length_nil, Nat.zero_add] at hrun

/-! ## The copy -/

/-- What is left in the destination: the first code points, with a NUL. -/
lemma copyTo (s1 : List Byte) (t : List CodePoint) (k : ℕ) (hroom : charOffset t k < s1.length) :
    (do
      let bytes ← readBytes (charOffset t k) (cblock (utf8Bytes t))
      let s1 ← storeBytes s1 0 bytes
      store s1 (charOffset t k) 0) =
        .done (utf8Bytes (t.take k) ++ 0 :: s1.drop (charOffset t k + 1)) := by
  have hsplit : cblock (utf8Bytes t) = utf8Bytes (t.take k) ++ (utf8Bytes (t.drop k) ++ [0]) := by
    rw [cblock, ← List.append_assoc, ← utf8Bytes_append, List.take_append_drop]
  obtain ⟨c, rest, hrest⟩ : ∃ c rest, s1.drop (charOffset t k) = c :: rest := by
    refine List.exists_cons_of_ne_nil fun hnil => ?_
    have := List.drop_eq_nil_iff.mp hnil
    omega
  have htail : s1.drop (charOffset t k + 1) = rest := by
    rw [← List.drop_drop, hrest]
    rfl
  rw [hsplit, htail]
  rw [charOffset] at hroom hrest ⊢
  rw [readBytes_append, Checked.done_bind, storeBytes_start hroom.le, Checked.done_bind, hrest,
    store_append_length]

/-- A number above `INT_MAX` is a smaller one as an `int`, and not just by one. -/
lemma toNat_toInt32_lt {m : ℕ} (h : intMax < m) : (toInt32 m).toNat + 1 < m := by
  have h32 : ((2 ^ 32 : ℕ) : ℤ) = 4294967296 := rfl
  rw [intMax] at h
  rw [toInt32, Int.bmod_def, h32]
  split_ifs with hlow
  · omega
  · omega

lemma toNat_toInt32_of_le {m : ℕ} (h : m ≤ intMax) : (toInt32 m).toNat = m := by
  rw [intMax] at h
  rw [toInt32_of_lt (Int.natCast_nonneg _) (by omega), Int.toNat_natCast]

/-- A step back from the beginning of a code point. -/
lemma xmbDecMem_charOffset {t : List CodePoint} {k : ℕ} (hk : k < t.length) :
    xmbDecMem (cblock (utf8Bytes t)) (charOffset t (k + 1)) = .done (charOffset t k) := by
  have hsplit : cblock (utf8Bytes t) =
      utf8Bytes (t.take k) ++ (t[k].bytes ++ (utf8Bytes (t.drop (k + 1)) ++ [0])) := by
    rw [cblock, ← List.append_assoc, ← List.append_assoc, ← utf8Bytes_cons_nil,
      ← utf8Bytes_append, ← utf8Bytes_append, ← List.take_succ_eq_append_getElem hk,
      List.take_append_drop]
  have hlen : charOffset t (k + 1) = (utf8Bytes (t.take k)).length + t[k].bytes.length := by
    rw [charOffset, List.take_succ_eq_append_getElem hk, utf8Bytes_append, List.length_append,
      utf8Bytes_cons_nil]
  rw [hsplit, hlen]
  exact xmbDecMem_eq _ _ _

/-- **The copy**, where the code points can be counted, goes as far as there is room. -/
lemma xmbStrncpyMem_of_eq (s1 : List Byte) {t : List CodePoint} (ht : (0 : Byte) ∉ utf8Bytes t)
    {maxbuff : ℕ} (hpos : 0 < maxbuff) (hs1 : maxbuff ≤ s1.length)
    (hint : (toInt32 (charCount ((utf8Bytes t).take maxbuff))).toNat =
      charCount ((utf8Bytes t).take maxbuff)) :
    ∃ k, xmbStrncpyMem s1 (cblock (utf8Bytes t)) maxbuff =
        .done (utf8Bytes (t.take k) ++ 0 :: s1.drop (charOffset t k + 1)) ∧
      charOffset t k < maxbuff ∧ (k < t.length → maxbuff ≤ charOffset t (k + 1)) := by
  obtain ⟨hle, hbefore, hbehind⟩ := charCount_take t maxbuff
  have hcopy (k : ℕ) (hk : charOffset t k < maxbuff) := copyTo s1 t k (hk.trans_le hs1)
  rw [xmbStrncpyMem, xmbCharnumMem_eq ht, Checked.done_bind, xmbOffsetMem_eq ht, Checked.done_bind,
    hint]
  generalize charCount ((utf8Bytes t).take maxbuff) = m at hle hbefore hbehind ⊢
  by_cases hfull : charOffset t m ≥ maxbuff
  · -- the last code point does not fit
    obtain ⟨k, rfl⟩ := Nat.exists_eq_succ_of_ne_zero (show m ≠ 0 by
      rintro rfl
      rw [charOffset_zero] at hfull
      omega)
    have hk := hbefore k (Nat.lt_succ_self _)
    refine ⟨k, ?_, hk, fun _ => hfull⟩
    rw [if_pos hfull, xmbDecMem_charOffset hle, Checked.done_bind]
    exact hcopy k hk
  · have hall : ¬ m < t.length := fun hlt => hfull (hbehind hlt)
    refine ⟨m, ?_, Nat.not_le.mp hfull, fun hlt => absurd hlt hall⟩
    rw [if_neg hfull]
    exact hcopy m (Nat.not_le.mp hfull)

/-- Where they cannot, it goes as far as the wrong number says. -/
lemma xmbStrncpyMem_of_lt (s1 : List Byte) {t : List CodePoint} (ht : (0 : Byte) ∉ utf8Bytes t)
    {maxbuff : ℕ} (hs1 : maxbuff ≤ s1.length) {k : ℕ}
    (hk : (toInt32 (charCount ((utf8Bytes t).take maxbuff))).toNat = k)
    (hlt : k < charCount ((utf8Bytes t).take maxbuff)) :
    xmbStrncpyMem s1 (cblock (utf8Bytes t)) maxbuff =
      .done (utf8Bytes (t.take k) ++ 0 :: s1.drop (charOffset t k + 1)) := by
  obtain ⟨-, hbefore, -⟩ := charCount_take t maxbuff
  have hroom := hbefore k hlt
  have hfits : ¬ charOffset t k ≥ maxbuff := Nat.not_le.mpr hroom
  rw [xmbStrncpyMem, xmbCharnumMem_eq ht, Checked.done_bind, xmbOffsetMem_eq ht, Checked.done_bind,
    hk, if_neg hfits]
  exact copyTo s1 t k (hroom.trans_le hs1)

/-! ## Whole code points -/

/-- The destination gets the longest beginning with whole code points that it has room for. -/
def CopiesWhole (s1 : List Byte) (s2 : CStr) (maxbuff : ℕ) : Prop :=
  ∃ p, xmbStrncpyMem s1 (cblock s2) maxbuff = .done (p ++ 0 :: s1.drop (p.length + 1)) ∧
    Whole s2 (maxbuff - 1) p

/-- A copy that ends two code points early is not the longest one. -/
lemma not_copiesWhole (s1 : List Byte) {t : List CodePoint} (ht : (0 : Byte) ∉ utf8Bytes t)
    {maxbuff k : ℕ} (hk : k + 1 < charCount ((utf8Bytes t).take maxbuff))
    (hrun : xmbStrncpyMem s1 (cblock (utf8Bytes t)) maxbuff =
      .done (utf8Bytes (t.take k) ++ 0 :: s1.drop (charOffset t k + 1))) :
    ¬ CopiesWhole s1 (utf8Bytes t) maxbuff := by
  rintro ⟨p, hrun', hwhole⟩
  obtain ⟨hle, hbefore, -⟩ := charCount_take t maxbuff
  have hpre : utf8Bytes (t.take k) <+: utf8Bytes t := by
    refine ⟨utf8Bytes (t.drop k), ?_⟩
    rw [← utf8Bytes_append, List.take_append_drop]
  obtain ⟨rfl, -⟩ := split_unique (Checked.done.inj (hrun.symm.trans hrun'))
    (fun hmem => ht (hpre.subset hmem)) (fun hmem => ht (hwhole.isPrefix.subset hmem))
  have hfits := (whole_take_iff.mp hwhole).2 (by omega)
  have hone := hbefore (k + 1) hk
  omega

/-- **Exactly when the copy is the longest one.**  The code points that begin in the first `maxbuff`
bytes are counted in an `int`. -/
theorem copiesWhole_iff (s1 : List Byte) (t : List CodePoint) (ht : (0 : Byte) ∉ utf8Bytes t)
    (maxbuff : ℕ) (hpos : 1 ≤ maxbuff) (hs1 : maxbuff ≤ s1.length) :
    CopiesWhole s1 (utf8Bytes t) maxbuff ↔ charCount ((utf8Bytes t).take maxbuff) ≤ intMax := by
  constructor
  · intro hwhole
    by_contra hlarge
    have hlt := toNat_toInt32_lt (Nat.lt_of_not_le hlarge)
    exact not_copiesWhole s1 ht hlt (xmbStrncpyMem_of_lt s1 ht hs1 rfl (Nat.lt_of_succ_lt hlt))
      hwhole
  · intro hsmall
    have hint := toNat_toInt32_of_le hsmall
    obtain ⟨k, hrun, hk, hnext⟩ := xmbStrncpyMem_of_eq s1 ht hpos hs1 hint
    refine ⟨utf8Bytes (t.take k), hrun, whole_take_iff.mpr ⟨by omega, fun hlt => ?_⟩⟩
    have := hnext hlt
    omega

/-- A letter in two bytes and one in one byte, in a buffer of three bytes. -/
theorem copiesWhole_iff_letter :
    let t : List CodePoint := [⟨[0xc3, 0xa5], by decide⟩, ⟨[ch 'b'], by decide⟩]
    (CopiesWhole [1, 2, 3, 4] (utf8Bytes t) 3 ↔ charCount ((utf8Bytes t).take 3) ≤ intMax) ∧
    charCount ((utf8Bytes t).take 3) ≤ intMax :=
  ⟨copiesWhole_iff [1, 2, 3, 4] [⟨[0xc3, 0xa5], by decide⟩, ⟨[ch 'b'], by decide⟩] (by decide) 3
    (by decide) (by decide), by decide⟩

/-- A text with too many code points is not copied even where there is room for all of them. -/
lemma not_copiesWhole_of_long {t : List CodePoint} (ht : (0 : Byte) ∉ utf8Bytes t)
    (hlong : intMax < t.length) {s1 : List Byte} (hs1 : (utf8Bytes t).length + 1 ≤ s1.length) :
    ¬ CopiesWhole s1 (utf8Bytes t) ((utf8Bytes t).length + 1) := by
  have hcount : charCount ((utf8Bytes t).take ((utf8Bytes t).length + 1)) = t.length := by
    rw [List.take_of_length_le (Nat.le_succ _), charCount_utf8Bytes]
  have hlt := toNat_toInt32_lt hlong
  rw [← hcount] at hlt
  exact not_copiesWhole s1 ht hlt (xmbStrncpyMem_of_lt s1 ht hs1 rfl (Nat.lt_of_succ_lt hlt))

/-- 2³¹ letters. -/
theorem longText_notCopied :
    let t : List CodePoint := List.replicate (2 ^ 31) ⟨[ch 'a'], by decide⟩
    ¬ CopiesWhole (List.replicate ((utf8Bytes t).length + 1) 0) (utf8Bytes t)
      ((utf8Bytes t).length + 1) := by
  intro t
  have ht : (0 : Byte) ∉ utf8Bytes t := by
    intro hmem
    obtain ⟨p, hp, hbyte⟩ := List.mem_flatMap.mp hmem
    rw [List.eq_of_mem_replicate hp] at hbyte
    exact absurd hbyte (by decide)
  refine not_copiesWhole_of_long ht ?_ (by rw [List.length_replicate])
  rw [List.length_replicate, intMax]
  omega

end G7
