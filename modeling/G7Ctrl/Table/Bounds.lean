import G7Ctrl.Table.Stroke

/-!
# Tables in a buffer (`utable_strstroke`)

The counter of `utable_strstroke` is compared, for every piece, with the length of the piece and of
everything before it, although the latter was subtracted already.  So a piece is left out once about
half of the buffer is used, and the function returns 0 if no check finds the counter below 1.

* `Renders` — the pieces and checks of a table.
* `StrokesWhole` — the buffer gets the whole text, or the function returns -1.
* **`strokesWhole_iff`** — exactly when it does.
-/

namespace G7.Utable

/-- The pieces and checks of a table: what an unlimited buffer would get. -/
structure Renders (cutInPadding : Bool) (t : Table) (style : TblStyle) (actions : List Action) :
    Prop where
  emits : ∃ t', prepare t = .done t' ∧ t'.totwidth ≠ 0 ∧ t'.totwidth < 2 ^ 31 ∧
    (strokeTable cutInPadding t' style).Emits actions ()

/-- The function returns 0 with the whole text in the buffer, or -1; and -1 if the text is too
long. -/
def StrokesWhole (cutInPadding : Bool) (t : Table) (style : TblStyle) (buff : List Byte) : Prop :=
  ∀ actions, Renders cutInPadding t style actions →
    ∃ r buff', utableStrstroke cutInPadding t buff style = .done (.ret r buff') ∧
      (r = 0 ∨ r = -1) ∧ (r = 0 → ∃ rest, buff' = putText actions ++ 0 :: rest) ∧
      (buff.length ≤ (putText actions).length → r = -1)

/-- The counter is never found below 1, nor below 0 where a piece is appended, and every piece and
what is before it are shorter than the counter; or it is first found so by a check that returns. -/
def Suffices (actions : List Action) (buffleft : ℤ) : Prop :=
  firstStop actions buffleft = none ∧ AllFit actions 0 buffleft ∨
    firstStop actions buffleft = some .returns

lemma toInt32_bounds (n : ℕ) : -(2 ^ 31) ≤ toInt32 n ∧ toInt32 n ≤ n := by
  have h32 : ((2 ^ 32 : ℕ) : ℤ) = 4294967296 := rfl
  rw [toInt32, Int.bmod_def, h32]
  split_ifs with hlow
  · omega
  · omega

/-- A text whose pieces fit is shorter than the space. -/
lemma length_lt_of_allFit {actions : List Action} {u : ℕ} {buffleft space : ℤ}
    (h : AllFit actions u buffleft) (hleft : buffleft ≤ space) (hu : u < space) :
    u + (putText actions).length < space := by
  induction actions generalizing u buffleft with
  | nil => simpa [putText] using hu
  | cons a actions ih =>
      cases a with
      | put p =>
          obtain ⟨hpiece, hrest⟩ := h
          rw [putText, List.length_append]
          have hspace : ((u + p.text.length : ℕ) : ℤ) < space := by
            rcases hpiece with hnil | hfits
            · rw [hnil]
              exact hu
            · omega
          have hlt := ih hrest (by omega) hspace
          omega
      | checkReturn => exact ih h hleft hu
      | checkExit => exact ih h hleft hu

/-- **The run on a buffer** ends where its output stops. -/
lemma utableStrstroke_reaches {cutInPadding : Bool} {t : Table} {style : TblStyle}
    {actions : List Action} (h : Renders cutInPadding t style actions) {buff : List Byte}
    (hpos : 0 < buff.length) (hbuff : buff.length < 2 ^ 62) :
    Reaches (utableStrstroke cutInPadding t buff style) (kept actions 0 (toInt32 buff.length))
      (firstStop actions (toInt32 buff.length)) := by
  obtain ⟨t', hprepare, hzero, hlt, hemits⟩ := h.emits
  obtain ⟨c, rest, rfl⟩ := List.exists_cons_of_length_pos hpos
  obtain ⟨hlow, hhigh⟩ := toInt32_bounds (c :: rest).length
  have hstore : store (c :: rest) 0 0 = .done (0 :: rest) := rfl
  have hreaches := exec_reaches actions (List.not_mem_nil : (0 : Byte) ∉ []) rest hlow hhigh hbuff
  rw [utableStrstroke, hprepare, Checked.done_bind, if_neg hzero, if_pos hlt, hstore,
    Checked.done_bind, hemits]
  exact hreaches

lemma utableStrstroke_nil {cutInPadding : Bool} {t : Table} {style : TblStyle}
    {actions : List Action} (h : Renders cutInPadding t style actions) :
    utableStrstroke cutInPadding t [] style = .fault := by
  obtain ⟨t', hprepare, hzero, hlt, hemits⟩ := h.emits
  rw [utableStrstroke, hprepare, Checked.done_bind, if_neg hzero, if_pos hlt]
  rfl

/-- **Exactly when the buffer gets the whole text** or the function returns -1. -/
theorem strokesWhole_iff (cutInPadding : Bool) (t : Table) (style : TblStyle) (buff : List Byte)
    (hbuff : buff.length < 2 ^ 62) :
    StrokesWhole cutInPadding t style buff ↔ ∀ actions, Renders cutInPadding t style actions →
      0 < buff.length ∧ Suffices actions (toInt32 buff.length) := by
  refine forall₂_congr fun actions hrenders => ?_
  rcases Nat.eq_zero_or_pos buff.length with hzero | hpos
  · rw [List.eq_nil_of_length_eq_zero hzero, utableStrstroke_nil hrenders]
    simp
  · have hreaches := utableStrstroke_reaches hrenders hpos hbuff
    obtain ⟨-, hhigh⟩ := toInt32_bounds buff.length
    rw [and_iff_right hpos, Suffices]
    cases hstop : firstStop actions (toInt32 buff.length) with
    | none =>
        rw [hstop] at hreaches
        obtain ⟨rest, hrun⟩ := hreaches
        rw [hrun]
        constructor
        · rintro ⟨r, buff', heq, -, hwhole, -⟩
          cases heq
          obtain ⟨rest', htext⟩ := hwhole rfl
          have hkept : kept actions 0 (toInt32 buff.length) = putText actions :=
            (split_unique htext (not_mem_kept _ _ _) (not_mem_putText _)).1
          exact Or.inl ⟨rfl, (kept_eq_iff _ _ _).mp hkept⟩
        · rintro (⟨-, hfit⟩ | hreturns)
          · have hlen := length_lt_of_allFit hfit hhigh (by omega)
            refine ⟨0, _, rfl, Or.inl rfl, fun _ => ⟨rest, ?_⟩, fun hlong => ?_⟩
            · rw [(kept_eq_iff _ _ _).mpr hfit]
            · omega
          · exact nomatch hreturns
    | some stop =>
        rw [hstop] at hreaches
        cases stop with
        | returns =>
            obtain ⟨buff', hrun⟩ := hreaches
            rw [hrun]
            exact iff_of_true ⟨-1, buff', rfl, Or.inr rfl, fun h => absurd h (by decide),
              fun _ => rfl⟩ (Or.inr rfl)
        | exits =>
            obtain ⟨buff', hrun⟩ := hreaches
            rw [hrun]
            refine iff_of_false ?_ (by simp)
            rintro ⟨r, buff', heq, -⟩
            exact nomatch heq
        | outside =>
            have hrun : utableStrstroke cutInPadding t buff style = .fault := hreaches
            rw [hrun]
            refine iff_of_false ?_ (by simp)
            rintro ⟨r, buff', heq, -⟩
            exact nomatch heq

/-- A table with one cell. -/
def oneCell (text : CStr) : Table where
  nRow := 1
  nCol := 1
  nCol_lt := by decide
  c := fun r c => { utableInitCell r c with t := some text }
  colwidth := fun _ => 0
  mincolwidth := fun _ => 0
  title := none
  titleCopied := false
  titleStyle := .line
  interiorV := false
  interiorH := false
  headerLine := false

/-- Three letters, in a buffer of 30 bytes. -/
theorem strokesWhole_iff_letters :
    StrokesWhole false (oneCell (str "abc")) .simpleV1 (List.replicate 30 0) := by
  refine (strokesWhole_iff false (oneCell (str "abc")) .simpleV1 (List.replicate 30 0)
    (by decide)).mpr fun actions hrenders => ⟨by decide, Or.inl ?_⟩
  obtain ⟨t', hprepare, -, -, hemits⟩ := hrenders.emits
  have hactions : actions = (strokeTable false t' .simpleV1).trace :=
    (congrArg Traced.trace hemits).symm
  cases hprepare
  rw [hactions]
  refine ⟨by decide +kernel, ?_⟩
  rw [← kept_eq_iff]
  decide +kernel

/-- The table has 12 bytes and the buffer 16, but the cell is left out and 0 is returned. -/
theorem cell_leftOut :
    ¬ StrokesWhole false (oneCell (str "abc")) .simpleV1 (List.replicate 16 0) := by
  intro h
  obtain ⟨t', hprepare, hzero, hlt, hresult, hrun, htext⟩ : ∃ t',
      prepare (oneCell (str "abc")) = .done t' ∧ t'.totwidth ≠ 0 ∧ t'.totwidth < 2 ^ 31 ∧
      (strokeTable false t' .simpleV1).result = .done () ∧
      utableStrstroke false (oneCell (str "abc")) (List.replicate 16 0) .simpleV1 =
        .done (.ret 0 (str "     \n" ++ List.replicate 10 0)) ∧
      putText (strokeTable false t' .simpleV1).trace = str "     \n abc \n" :=
    ⟨_, rfl, by decide +kernel, by decide +kernel, by decide +kernel, by decide +kernel,
      by decide +kernel⟩
  have hemits : (strokeTable false t' .simpleV1).Emits (strokeTable false t' .simpleV1).trace () :=
    congrArg (Traced.mk _) hresult
  obtain ⟨r, buff', heq, -, hwhole, -⟩ := h _ ⟨⟨t', hprepare, hzero, hlt, hemits⟩⟩
  cases hrun.symm.trans heq
  obtain ⟨rest, htaken⟩ := hwhole rfl
  rw [htext] at htaken
  have hbyte : some (0 : Byte) = some (ch ' ') := congrArg (fun text => text[6]?) htaken
  exact absurd hbyte (by decide)

end G7.Utable
