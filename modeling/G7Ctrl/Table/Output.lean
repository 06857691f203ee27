import G7Ctrl.Core.Traced
import G7Ctrl.Table.Table
import G7Ctrl.Xstr.Block

/-!
# Output into a buffer (`xstrlcat` of `unicode_tbl.c`)

A table is written in pieces.  One counter holds the space that is left; it is also what `xstrlcat`
is given as the size of the whole buffer, it goes down by the length of every piece whether the piece
was appended or not, and it is only looked at in some places.

* `xstrlcatMem` — appending a string in a buffer.
* `Action`, `put`, `exec` — the pieces and the checks, and their execution.
* `firstStop` — where the execution stops, `kept` — what it has appended.
* **`exec_reaches`** — the execution ends there, with that in the buffer.
* **`kept_eq_iff`** — that is the whole text if and only if every piece fits (`AllFit`).
-/

namespace G7.Utable

/-! ## Appending -/

/-- `strnlen` -/
def strnlen : List Byte → ℕ → Checked ℕ
  | _, 0 => return 0
  | [], _ + 1 => .fault
  | c :: cs, n + 1 =>
      if c = 0 then return 0
      else do
        let k ← strnlen cs n
        return k + 1

/-- `xstrlcat`, with the buffer it leaves. -/
def xstrlcatMem (buff : List Byte) (src : CStr) (size : ℕ) : Checked (List Byte) :=
  if size = 0 then return buff
  else do
    let n ← strnlen buff (size - 1)
    if n = size - 1 then return buff
    else do
      let dst ← readStr buff
      if src.length + dst.length < size then do
        let buff ← storeBytes buff dst.length (src.take (size - 1 - dst.length) ++ [0])
        store buff (size - 1) 0
      else return buff

lemma strnlen_append_nul {text : CStr} (htext : (0 : Byte) ∉ text) (rest : List Byte) (n : ℕ) :
    strnlen (text ++ 0 :: rest) n = .done (min text.length n) := by
  induction text generalizing n with
  | nil =>
      cases n with
      | zero => rfl
      | succ n => rfl
  | cons c cs ih =>
      rw [List.mem_cons, not_or] at htext
      cases n with
      | zero => rfl
      | succ n =>
          rw [List.cons_append, strnlen, if_neg (Ne.symm htext.1), ih htext.2, Checked.done_bind,
            List.length_cons, Nat.succ_min_succ]
          rfl

section Append

variable {text src : CStr} (htext : (0 : Byte) ∉ text) (rest : List Byte) {size : ℕ}
include htext

/-- `xstrlcat` up to the place where it appends. -/
lemma xstrlcatMem_of_lt (h : src.length + text.length < size) (hfull : text.length ≠ size - 1) :
    xstrlcatMem (text ++ 0 :: rest) src size = (do
      let buff ← storeBytes (text ++ 0 :: rest) text.length (src ++ [0])
      store buff (size - 1) 0) := by
  have hzero : ¬ size = 0 := by omega
  have hmin : min text.length (size - 1) = text.length := by omega
  have htake : src.take (size - 1 - text.length) = src := List.take_of_length_le (by omega)
  rw [xstrlcatMem, if_neg hzero, strnlen_append_nul htext, Checked.done_bind, hmin, if_neg hfull,
    readStr_append_nul htext, Checked.done_bind, if_pos h, htake]

omit htext in
/-- A NUL at the end of a string or behind it. -/
lemma store_nul_behind (r : List Byte) {i : ℕ} (hi : text.length ≤ i)
    (hlt : i < (text ++ 0 :: r).length) :
    ∃ r', store (text ++ 0 :: r) i 0 = .done (text ++ 0 :: r') ∧
      (text ++ 0 :: r').length = (text ++ 0 :: r).length := by
  obtain ⟨k, rfl⟩ := Nat.exists_eq_add_of_le hi
  rw [store_eq_done hlt, List.set_append_right _ _ (Nat.le_add_right _ _), Nat.add_sub_cancel_left]
  cases k with
  | zero => exact ⟨r, rfl, rfl⟩
  | succ k =>
      refine ⟨r.set k 0, rfl, ?_⟩
      rw [List.length_append, List.length_append, List.length_cons, List.length_set, List.length_cons]

/-- **A piece that fits** below the size is appended, inside the block. -/
theorem xstrlcatMem_eq_append (hsize : size ≤ (text ++ 0 :: rest).length)
    (h : src.length + text.length < size) :
    ∃ rest', xstrlcatMem (text ++ 0 :: rest) src size = .done (text ++ src ++ 0 :: rest') ∧
      (text ++ src ++ 0 :: rest').length = (text ++ 0 :: rest).length := by
  by_cases hfull : text.length = size - 1
  · have hnil : src = [] := List.eq_nil_of_length_eq_zero (by omega)
    refine ⟨rest, ?_, by rw [hnil, List.append_nil]⟩
    have hmin : min text.length (size - 1) = size - 1 := by omega
    rw [xstrlcatMem, if_neg (by omega), strnlen_append_nul htext, Checked.done_bind, hmin,
      if_pos rfl, hnil, List.append_nil]
    rfl
  · have hroom : (src ++ [0]).length ≤ (0 :: rest).length := by
      rw [List.length_append] at hsize ⊢
      rw [List.length_singleton]
      omega
    have hsplit : text ++ (src ++ [0] ++ (0 :: rest).drop (src ++ [0]).length) =
        (text ++ src) ++ 0 :: (0 :: rest).drop (src ++ [0]).length := by
      simp
    have hlen : ((text ++ src) ++ 0 :: (0 :: rest).drop (src ++ [0]).length).length =
        (text ++ 0 :: rest).length := by
      rw [← hsplit]
      simp only [List.length_append, List.length_drop, List.length_cons, List.length_nil] at hroom ⊢
      omega
    have hbehind : (text ++ src).length ≤ size - 1 := by
      rw [List.length_append]
      omega
    obtain ⟨rest', hstore, hlen'⟩ := store_nul_behind ((0 :: rest).drop (src ++ [0]).length) hbehind
      (by rw [hlen]; omega)
    refine ⟨rest', ?_, hlen'.trans hlen⟩
    rw [xstrlcatMem_of_lt htext rest h hfull, storeBytes_append _ _ hroom, Checked.done_bind, hsplit,
      hstore]

/-- A piece that does not is left out. -/
lemma xstrlcatMem_eq_self (h : size ≤ src.length + text.length) :
    xstrlcatMem (text ++ 0 :: rest) src size = .done (text ++ 0 :: rest) := by
  rw [xstrlcatMem]
  split_ifs with hzero
  · rfl
  · rw [strnlen_append_nul htext, Checked.done_bind]
    split_ifs with hfull
    · rfl
    · rw [readStr_append_nul htext, Checked.done_bind, if_neg (by omega)]
      rfl

/-- **A size beyond the block** makes it write outside. -/
theorem xstrlcatMem_eq_fault (hsize : (text ++ 0 :: rest).length < size)
    (h : src.length + text.length < size) : xstrlcatMem (text ++ 0 :: rest) src size = .fault := by
  have hfull : text.length ≠ size - 1 := by
    rw [List.length_append, List.length_cons] at hsize
    omega
  rw [xstrlcatMem_of_lt htext rest h hfull]
  cases hstore : storeBytes (text ++ 0 :: rest) text.length (src ++ [0]) with
  | done buff =>
      have hlen := (length_storeBytes hstore).2
      rw [Checked.done_bind]
      exact store_eq_fault (by omega)
  | fault => rfl
  | timeout =>
      rw [storeBytes] at hstore
      split_ifs at hstore

end Append

/-! ## Pieces and checks -/

lemma not_mem_cstr (mem : List Byte) : (0 : Byte) ∉ cstr mem := by
  intro hmem
  exact absurd (List.mem_takeWhile_imp hmem) (by decide)

lemma length_cstr_take (s : List Byte) (n : ℕ) : (cstr (s.take n)).length ≤ s.length :=
  ((List.takeWhile_prefix _).length_le).trans (List.length_take_le' n s)

/-- What was printed into `pbuff`, with the length that is subtracted from the counter. -/
structure Piece where
  text : CStr
  charge : ℕ
  nul_free : (0 : Byte) ∉ text
  length_le : text.length ≤ charge
  charge_lt : charge < 2 ^ 31

/-- A step of the output. -/
inductive Action
  | put (p : Piece)
  | checkReturn
  | checkExit

/-- `MAXPBUFF` -/
def maxPbuff : ℕ := 10 * 1024

/-- `len = snprintf(pbuff, MAXPBUFF, …); xstrlcat(buff, pbuff, buffleft); buffleft -= len + extra;`.
A length that is no `int` has no model. -/
def put (s : CStr) (extra : ℕ) : Traced Action Unit :=
  if h : s.length + extra < 2 ^ 31 then
    .emit (.put {
      text := cstr (s.take (maxPbuff - 1))
      charge := s.length + extra
      nul_free := not_mem_cstr _
      length_le := (length_cstr_take s _).trans (Nat.le_add_right _ _)
      charge_lt := h })
  else .lift .fault

/-- `if (buffleft < 1) return -1;` -/
def checkReturn : Traced Action Unit := .emit .checkReturn

/-- `if (*buffleft < 1) exit(EXIT_FAILURE);` -/
def checkExit : Traced Action Unit := .emit .checkExit

/-- How the output ends, with the buffer. -/
inductive Outcome
  | ret (i : ℤ) (buff : List Byte)
  | exit (buff : List Byte)
  deriving DecidableEq

/-- The output in a buffer with a counter, and then the end of the run that made it. -/
def exec : List Action → Checked Unit → List Byte → ℤ → Checked Outcome
  | [], last, buff, _ => do
      last
      return .ret 0 buff
  | .put p :: as, last, buff, buffleft => do
      let buff ← xstrlcatMem buff p.text (Table.toSize buffleft)
      exec as last buff (buffleft - p.charge)
  | .checkReturn :: as, last, buff, buffleft =>
      if buffleft < 1 then return .ret (-1) buff else exec as last buff buffleft
  | .checkExit :: as, last, buff, buffleft =>
      if buffleft < 1 then return .exit buff else exec as last buff buffleft

/-- The whole text. -/
def putText : List Action → CStr
  | [] => []
  | .put p :: as => p.text ++ putText as
  | .checkReturn :: as => putText as
  | .checkExit :: as => putText as

/-! ## Where the output stops -/

/-- How an output that stops early does so: a check returns -1 or exits, or the counter is negative
when a piece is appended. -/
inductive Stop
  | returns
  | exits
  | outside
  deriving DecidableEq

/-- Where an output stops. -/
def firstStop : List Action → ℤ → Option Stop
  | [], _ => none
  | .put p :: as, buffleft => if buffleft < 0 then some .outside else firstStop as (buffleft - p.charge)
  | .checkReturn :: as, buffleft => if buffleft < 1 then some .returns else firstStop as buffleft
  | .checkExit :: as, buffleft => if buffleft < 1 then some .exits else firstStop as buffleft

/-- What is appended behind `u` bytes, if the output does not stop. -/
def kept : List Action → ℕ → ℤ → CStr
  | [], _, _ => []
  | .put p :: as, u, buffleft =>
      if p.text.length + u < buffleft then
        p.text ++ kept as (u + p.text.length) (buffleft - p.charge)
      else kept as u (buffleft - p.charge)
  | .checkReturn :: as, u, buffleft => kept as u buffleft
  | .checkExit :: as, u, buffleft => kept as u buffleft

/-- Every piece and what is before it are shorter than what is left. -/
def AllFit : List Action → ℕ → ℤ → Prop
  | [], _, _ => True
  | .put p :: as, u, buffleft =>
      (p.text = [] ∨ p.text.length + u < buffleft) ∧
        AllFit as (u + p.text.length) (buffleft - p.charge)
  | .checkReturn :: as, u, buffleft => AllFit as u buffleft
  | .checkExit :: as, u, buffleft => AllFit as u buffleft

/-- How an execution ends that has appended `text` where it does not stop. -/
def Reaches (x : Checked Outcome) (text : CStr) : Option Stop → Prop
  | none => ∃ rest, x = .done (.ret 0 (text ++ 0 :: rest))
  | some .returns => ∃ buff, x = .done (.ret (-1) buff)
  | some .exits => ∃ buff, x = .done (.exit buff)
  | some .outside => x = .fault

lemma toSize_of_nonneg {i : ℤ} (h : 0 ≤ i) (hlt : i < 2 ^ 64) : (Table.toSize i : ℤ) = i := by
  rw [Table.toSize]
  omega

lemma le_toSize_of_neg {i : ℤ} (h : i < 0) (hge : -(2 ^ 31) ≤ i) : 2 ^ 63 < Table.toSize i := by
  rw [Table.toSize]
  omega

/-- **The output in a buffer** that holds a string so far ends where it stops. -/
theorem exec_reaches (as : List Action) {text : CStr} (htext : (0 : Byte) ∉ text) (rest : List Byte)
    {buffleft : ℤ} (hlow : -(2 ^ 31) ≤ buffleft) (hleft : buffleft ≤ (text ++ 0 :: rest).length)
    (hblock : (text ++ 0 :: rest).length < 2 ^ 62) :
    Reaches (exec as (.done ()) (text ++ 0 :: rest) buffleft) (text ++ kept as text.length buffleft)
      (firstStop as buffleft) := by
  induction as generalizing text rest buffleft with
  | nil =>
      refine ⟨rest, ?_⟩
      rw [kept, List.append_nil]
      rfl
  | cons a as ih =>
      cases a with
      | put p =>
          have hcharge := p.charge_lt
          have hlen : text.length < (text ++ 0 :: rest).length := by
            rw [List.length_append, List.length_cons]
            omega
          rw [firstStop]
          by_cases hneg : buffleft < 0
          · have hsize := le_toSize_of_neg hneg hlow
            have hpiece := p.length_le
            rw [if_pos hneg, exec, xstrlcatMem_eq_fault htext rest (by omega) (by omega)]
            rfl
          · have hsize := toSize_of_nonneg (Int.not_lt.mp hneg) (by omega)
            rw [if_neg hneg, exec, kept]
            by_cases hfits : (p.text.length : ℤ) + text.length < buffleft
            · obtain ⟨rest', hrun, hlen'⟩ := xstrlcatMem_eq_append htext rest
                (show Table.toSize buffleft ≤ (text ++ 0 :: rest).length by omega)
                (show p.text.length + text.length < Table.toSize buffleft by omega)
              have hfree : (0 : Byte) ∉ text ++ p.text :=
                fun hmem => (List.mem_append.mp hmem).elim htext p.nul_free
              have hnext := ih hfree rest' (show -(2 ^ 31) ≤ buffleft - p.charge by omega) (by omega)
                (by omega)
              rw [hrun, Checked.done_bind, if_pos hfits, ← List.append_assoc]
              rwa [List.length_append] at hnext
            · rw [xstrlcatMem_eq_self htext rest (by omega), Checked.done_bind, if_neg hfits]
              exact ih htext rest (by omega) (by omega) hblock
      | checkReturn =>
          rw [firstStop, exec, kept]
          by_cases hend : buffleft < 1
          · rw [if_pos hend, if_pos hend]
            exact ⟨_, rfl⟩
          · rw [if_neg hend, if_neg hend]
            exact ih htext rest hlow hleft hblock
      | checkExit =>
          rw [firstStop, exec, kept]
          by_cases hend : buffleft < 1
          · rw [if_pos hend, if_pos hend]
            exact ⟨_, rfl⟩
          · rw [if_neg hend, if_neg hend]
            exact ih htext rest hlow hleft hblock

/-! ## What fits -/

lemma length_kept_le (as : List Action) (u : ℕ) (buffleft : ℤ) :
    (kept as u buffleft).length ≤ (putText as).length := by
  induction as generalizing u buffleft with
  | nil => exact le_rfl
  | cons a as ih =>
      cases a with
      | put p =>
          have hrest := ih (u + p.text.length) (buffleft - p.charge)
          have hrest' := ih u (buffleft - p.charge)
          rw [kept, putText, List.length_append]
          split_ifs with hfits
          · rw [List.length_append]
            omega
          · omega
      | checkReturn => exact ih u buffleft
      | checkExit => exact ih u buffleft

lemma not_mem_putText (as : List Action) : (0 : Byte) ∉ putText as := by
  induction as with
  | nil => exact List.not_mem_nil
  | cons a as ih =>
      cases a with
      | put p => exact fun hmem => (List.mem_append.mp hmem).elim p.nul_free ih
      | checkReturn => exact ih
      | checkExit => exact ih

lemma not_mem_kept (as : List Action) (u : ℕ) (buffleft : ℤ) : (0 : Byte) ∉ kept as u buffleft := by
  induction as generalizing u buffleft with
  | nil => exact List.not_mem_nil
  | cons a as ih =>
      cases a with
      | put p =>
          rw [kept]
          split_ifs with hfits
          · exact fun hmem => (List.mem_append.mp hmem).elim p.nul_free (ih _ _)
          · exact ih _ _
      | checkReturn => exact ih _ _
      | checkExit => exact ih _ _

/-- **Nothing is left out** if and only if every piece fits. -/
theorem kept_eq_iff (as : List Action) (u : ℕ) (buffleft : ℤ) :
    kept as u buffleft = putText as ↔ AllFit as u buffleft := by
  induction as generalizing u buffleft with
  | nil => exact iff_of_true rfl trivial
  | cons a as ih =>
      cases a with
      | put p =>
          rw [kept, putText, AllFit]
          split_ifs with hfits
          · rw [List.append_cancel_left_eq, ih, and_iff_right (Or.inr hfits)]
          · rw [or_iff_left hfits]
            constructor
            · intro heq
              have hlen := congrArg List.length heq
              have hle := length_kept_le as u (buffleft - p.charge)
              rw [List.length_append] at hlen
              have hnil : p.text = [] := List.eq_nil_of_length_eq_zero (by omega)
              rw [hnil, List.nil_append, ih] at heq
              exact ⟨hnil, by rwa [hnil]⟩
            · rintro ⟨hnil, hrest⟩
              rw [hnil] at hrest ⊢
              exact (ih u _).mpr hrest
      | checkReturn => exact ih u buffleft
      | checkExit => exact ih u buffleft

/-- All that is subtracted from the counter. -/
def charges : List Action → ℕ
  | [] => 0
  | .put p :: as => p.charge + charges as
  | .checkReturn :: as => charges as
  | .checkExit :: as => charges as

/-- **Twice the space** is enough. -/
lemma allFit_of_large (as : List Action) {u : ℕ} {buffleft : ℤ}
    (h : (u : ℤ) + 2 * charges as < buffleft) :
    AllFit as u buffleft ∧ firstStop as buffleft = none := by
  induction as generalizing u buffleft with
  | nil => exact ⟨trivial, rfl⟩
  | cons a as ih =>
      cases a with
      | put p =>
          have hpiece := p.length_le
          rw [charges] at h
          obtain ⟨hfit, hstop⟩ := ih (show ((u + p.text.length : ℕ) : ℤ) + 2 * charges as <
            buffleft - p.charge by omega)
          refine ⟨⟨Or.inr (by omega), hfit⟩, ?_⟩
          rw [firstStop, if_neg (by omega), hstop]
      | checkReturn =>
          rw [charges] at h
          obtain ⟨hfit, hstop⟩ := ih h
          refine ⟨hfit, ?_⟩
          rw [firstStop, if_neg (by omega), hstop]
      | checkExit =>
          rw [charges] at h
          obtain ⟨hfit, hstop⟩ := ih h
          refine ⟨hfit, ?_⟩
          rw [firstStop, if_neg (by omega), hstop]

end G7.Utable
