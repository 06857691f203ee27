import G7Ctrl.Core.Bytes
import Mathlib.Data.List.GetD

/-!
# Bounded copying (`xstrlcpy`, `xstrlcat`, `xmb_strncpy`)

`xstrlcpy` and `xstrlcat` count bytes; `xstrlcat` leaves its destination alone when the result
would not fit.  The `xmb` routines avoid cutting a code point: they step over code points by
looking for the next byte that is not of the form `10xxxxxx`, at most four bytes ahead.  The NUL
counts as such a byte, so a step never passes it.
-/

namespace G7

/-- `xstrlcpy`: what is left in a destination of `size` bytes. -/
def xstrlcpy (src : CStr) (size : ℕ) : CStr := src.take (size - 1)

/-- `xstrlcat`: all of `src` is appended, or nothing. -/
def xstrlcat (dst src : CStr) (size : ℕ) : CStr :=
  if size = 0 ∨ size - 1 ≤ dst.length then dst
  else if src.length + dst.length < size then dst ++ src
  else dst

/-- `isutf`: the byte starts a code point (or ends the string). -/
def isutf (c : Byte) : Bool := c &&& 0xC0 != 0x80

/-- The increment chain shared by `xmb_offset`, `xmb_charnum` and `xmb_inc`. -/
def xmbInc (s : CStr) (offs : ℕ) : ℕ :=
  if isutf (byteAt s (offs + 1)) then offs + 1
  else if isutf (byteAt s (offs + 2)) then offs + 2
  else if isutf (byteAt s (offs + 3)) then offs + 3
  else offs + 4

/-- The decrement chain of `xmb_dec`.  (On malformed text a `size_t` index could pass below 0
here; the model stops at 0.) -/
def xmbDec (s : CStr) (i : ℕ) : ℕ :=
  if isutf (byteAt s (i - 1)) then i - 1
  else if isutf (byteAt s (i - 2)) then i - 2
  else if isutf (byteAt s (i - 3)) then i - 3
  else i - 4

/-- The loop of `xmb_charnum`.  Every round advances `offs`, so `offset` rounds are enough. -/
def xmbCharnumLoop (s : CStr) (offset : ℕ) : ℕ → ℕ → ℕ → ℕ
  | 0, _, charnum => charnum
  | fuel + 1, offs, charnum =>
      if offs < offset ∧ byteAt s offs ≠ 0 then
        xmbCharnumLoop s offset fuel (xmbInc s offs) (charnum + 1)
      else charnum

/-- `xmb_charnum`: the number of the code point at a byte offset. -/
def xmbCharnum (s : CStr) (offset : ℕ) : ℕ := xmbCharnumLoop s offset offset 0 0

/-- The loop of `xmb_offset`. -/
def xmbOffsetLoop (s : CStr) : ℕ → ℕ → ℕ
  | 0, offs => offs
  | charnum + 1, offs => if byteAt s offs ≠ 0 then xmbOffsetLoop s charnum (xmbInc s offs) else offs

/-- `xmb_offset`: the byte offset of a code point. -/
def xmbOffset (s : CStr) (charnum : ℕ) : ℕ := xmbOffsetLoop s charnum 0

/-- `xmb_strncpy`: the text it leaves in its destination. -/
def xmbStrncpy (s : CStr) (maxbuff : ℕ) : CStr :=
  let byteidx := xmbOffset s (xmbCharnum s maxbuff)
  s.take (if byteidx ≥ maxbuff then xmbDec s byteidx else byteidx)

/-- `xmb_strncpy` copies a beginning. -/
lemma xmbStrncpy_eq_take (s : CStr) (maxbuff : ℕ) :
    xmbStrncpy s maxbuff = s.take (xmbStrncpy s maxbuff).length := by
  rw [xmbStrncpy, List.length_take, ← List.take_eq_take_min]

lemma xmbInc_le (s : CStr) (offs : ℕ) : xmbInc s offs ≤ offs + 4 := by
  simp only [xmbInc]
  split_ifs <;> omega

lemma lt_xmbInc (s : CStr) (offs : ℕ) : offs < xmbInc s offs := by
  simp only [xmbInc]
  split_ifs <;> omega

lemma xmbDec_lt (s : CStr) {i : ℕ} (h : 0 < i) : xmbDec s i < i := by
  simp only [xmbDec]
  split_ifs <;> omega

/-- What holds of every position of the walk holds of the one that the two walks of `xmb_strncpy`
end at, which is past the offset or at the end of the string. -/
lemma xmbOffset_charnumLoop {s : CStr} {offset : ℕ} {P : ℕ → Prop}
    (hstep : ∀ offs < offset, byteAt s offs ≠ 0 → P offs → P (xmbInc s offs)) :
    ∀ (fuel offs charnum : ℕ), offset ≤ offs + fuel → P offs →
      (∀ m, xmbOffset s (charnum + m) = xmbOffsetLoop s m offs) →
      let idx := xmbOffset s (xmbCharnumLoop s offset fuel offs charnum)
      P idx ∧ (offset ≤ idx ∨ byteAt s idx = 0)
  | 0, offs, charnum, hfuel, hP, hadd => by
      have h0 : xmbOffset s charnum = offs := hadd 0
      show P (xmbOffset s charnum) ∧ (offset ≤ xmbOffset s charnum ∨ _)
      rw [h0]
      exact ⟨hP, Or.inl hfuel⟩
  | fuel + 1, offs, charnum, hfuel, hP, hadd => by
      simp only [xmbCharnumLoop]
      split_ifs with hc
      · refine xmbOffset_charnumLoop hstep fuel _ _ ?_ (hstep offs hc.1 hc.2 hP) fun m => ?_
        · have := lt_xmbInc s offs
          omega
        · rw [show charnum + 1 + m = charnum + (m + 1) by omega, hadd (m + 1)]
          simp [xmbOffsetLoop, hc.2]
      · have h0 : xmbOffset s charnum = offs := hadd 0
        rw [h0]
        refine ⟨hP, ?_⟩
        by_contra! hlt
        exact hc hlt

/-- The induction rule of `xmb_strncpy`. -/
lemma xmbOffset_charnum (s : CStr) (offset : ℕ) {P : ℕ → Prop} (h0 : P 0)
    (hstep : ∀ offs < offset, byteAt s offs ≠ 0 → P offs → P (xmbInc s offs)) :
    P (xmbOffset s (xmbCharnum s offset)) ∧ (offset ≤ xmbOffset s (xmbCharnum s offset) ∨
      byteAt s (xmbOffset s (xmbCharnum s offset)) = 0) :=
  xmbOffset_charnumLoop hstep offset 0 0 (by omega) h0 (by simp [xmbOffset])

/-- **`xmb_strncpy` copies at most `maxbuff + 2` bytes**, whatever the source. -/
theorem xmbStrncpy_length_le (s : CStr) (maxbuff : ℕ) :
    (xmbStrncpy s maxbuff).length ≤ maxbuff + 2 := by
  have h : xmbOffset s (xmbCharnum s maxbuff) ≤ maxbuff + 3 :=
    (xmbOffset_charnum s maxbuff (P := (· ≤ maxbuff + 3)) (by omega) fun offs hlt _ _ => by
      have := xmbInc_le s offs
      omega).1
  simp only [xmbStrncpy, List.length_take]
  split_ifs with hge
  · by_cases h0 : xmbOffset s (xmbCharnum s maxbuff) = 0
    · simp [h0, xmbDec]
    · have := xmbDec_lt s (Nat.pos_of_ne_zero h0)
      omega
  · omega

/-- The NUL is in reach of a step, so no step passes it. -/
lemma xmbInc_le_length {s : CStr} {offs : ℕ} (h : offs < s.length) : xmbInc s offs ≤ s.length := by
  have hend : isutf (byteAt s s.length) = true := by simp [byteAt, isutf]
  have hlt {k : ℕ} (hk : offs + k ≤ s.length) (hno : ¬ isutf (byteAt s (offs + k)) = true) :
      offs + k + 1 ≤ s.length := by
    refine Nat.lt_of_le_of_ne hk fun heq => hno ?_
    rw [heq, hend]
  simp only [xmbInc]
  split_ifs with h1 h2 h3
  · exact h
  · exact hlt h h1
  · exact hlt (hlt h h1) h2
  · exact hlt (hlt (hlt h h1) h2) h3

lemma byteAt_ne_zero {s : CStr} {i : ℕ} (hs : (0 : Byte) ∉ s) (h : i < s.length) :
    byteAt s i ≠ 0 := by
  rw [byteAt, List.getD_eq_getElem _ _ h]
  exact fun hc => hs (hc ▸ List.getElem_mem h)

/-- **`xmb_strncpy` copies a string that fits.** -/
theorem xmbStrncpy_of_lt {s : CStr} {maxbuff : ℕ} (hs : (0 : Byte) ∉ s) (h : s.length < maxbuff) :
    xmbStrncpy s maxbuff = s := by
  obtain ⟨hle, hend⟩ := xmbOffset_charnum s maxbuff (P := (· ≤ s.length))
    (Nat.zero_le _) fun offs _ hne _ => xmbInc_le_length (by
      by_contra! hge
      exact hne (List.getD_eq_default _ _ hge))
  have hidx : xmbOffset s (xmbCharnum s maxbuff) = s.length := by
    refine hle.antisymm (not_lt.mp fun hlt => ?_)
    exact hend.elim (by omega) (byteAt_ne_zero hs hlt)
  simp only [xmbStrncpy, hidx, if_neg (not_le.mpr h), List.take_length]

/-- Otherwise it copies less than the whole string. -/
theorem xmbStrncpy_length_lt {s : CStr} {maxbuff : ℕ} (hs : (0 : Byte) ∉ s) (hpos : 0 < maxbuff)
    (h : maxbuff ≤ s.length) : (xmbStrncpy s maxbuff).length < s.length := by
  obtain ⟨hle, hend⟩ := xmbOffset_charnum s maxbuff (P := (· ≤ s.length))
    (Nat.zero_le _) fun offs _ hne _ => xmbInc_le_length (by
      by_contra! hge
      exact hne (List.getD_eq_default _ _ hge))
  have hidx : maxbuff ≤ xmbOffset s (xmbCharnum s maxbuff) :=
    hend.elim id fun h0 => by
      by_contra! hlt
      exact byteAt_ne_zero hs (hlt.trans_le h) h0
  have hdec := xmbDec_lt s (hpos.trans_le hidx)
  simp only [xmbStrncpy, ge_iff_le, if_pos hidx, List.length_take]
  omega

lemma xmbDec_ge (s : CStr) (i : ℕ) : i - 4 ≤ xmbDec s i := by
  simp only [xmbDec]
  split_ifs <;> omega

/-- Of a longer string at most four bytes of the buffer are left out, whatever the text. -/
theorem le_length_xmbStrncpy {s : CStr} {maxbuff : ℕ} (hs : (0 : Byte) ∉ s)
    (h : maxbuff ≤ s.length) : maxbuff - 4 ≤ (xmbStrncpy s maxbuff).length := by
  obtain ⟨-, hend⟩ := xmbOffset_charnum s maxbuff (P := fun _ => True) trivial
    fun _ _ _ _ => trivial
  have hidx : maxbuff ≤ xmbOffset s (xmbCharnum s maxbuff) :=
    hend.elim id fun h0 => by
      by_contra! hlt
      exact byteAt_ne_zero hs (hlt.trans_le h) h0
  have hdec := xmbDec_ge s (xmbOffset s (xmbCharnum s maxbuff))
  simp only [xmbStrncpy, ge_iff_le, if_pos hidx, List.length_take]
  omega

/-- So a buffer with room for four bytes more than `n` gets `n` bytes of any string that has them. -/
lemma le_length_xmbStrncpy_iff {s : CStr} {maxbuff n : ℕ} (hs : (0 : Byte) ∉ s)
    (hn : n + 4 ≤ maxbuff) : n ≤ (xmbStrncpy s maxbuff).length ↔ n ≤ s.length := by
  rcases lt_or_ge s.length maxbuff with hlt | hge
  · rw [xmbStrncpy_of_lt hs hlt]
  · have hlen := le_length_xmbStrncpy hs hge
    omega

/-- **Of a longer string of one-byte code points the last byte of the buffer is left out too.** -/
theorem xmbStrncpy_of_le {s : CStr} {maxbuff : ℕ} (hs : (0 : Byte) ∉ s)
    (hutf : ∀ c ∈ s, isutf c = true) (h : maxbuff ≤ s.length) :
    xmbStrncpy s maxbuff = s.take (maxbuff - 1) := by
  have hat (i : ℕ) : isutf (byteAt s i) = true := by
    rcases lt_or_ge i s.length with hi | hi
    · rw [byteAt, List.getD_eq_getElem _ _ hi]
      exact hutf _ (List.getElem_mem hi)
    · rw [byteAt, List.getD_eq_default _ _ hi]
      rfl
  have hinc (offs : ℕ) : xmbInc s offs = offs + 1 := by simp [xmbInc, hat]
  obtain ⟨hle, hend⟩ := xmbOffset_charnum s maxbuff (P := (· ≤ maxbuff))
    (Nat.zero_le _) fun offs hlt _ _ => by rw [hinc]; exact hlt
  have hidx : xmbOffset s (xmbCharnum s maxbuff) = maxbuff := by
    refine hle.antisymm (not_lt.mp fun hlt => ?_)
    exact hend.elim (by omega) (byteAt_ne_zero hs (by omega))
  simp only [xmbStrncpy, hidx, ge_iff_le, le_refl, if_true, xmbDec, hat]

end G7
