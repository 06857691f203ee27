import G7Ctrl.Xstr.Copy
import Mathlib.Data.List.Infix
import Mathlib.Data.List.TakeDrop

/-!
# Bounded appending of pieces

A text is put together in a buffer by appending, for every further piece, a separator and the
piece with `xstrlcat`.  An append that does not fit is left out and the next one is tried all the
same, so what is in the buffer at the end need not be the beginning of the text.

* `appendPieces` — what the buffer holds at the end, `joinOnto` — the text that was meant.
* **`appendPieces_eq_iff`** — the buffer holds the text exactly when the text fits.
* **`appendPieces_prefix_iff`** — it holds a beginning of the text exactly when nothing could be
  appended after the first piece that was left out (`NoGap`).
* `appendAll` — the same without separators.
* **`appendAll_snprintf_eq_iff`** — pieces that were printed into buffers of their own are a text
  exactly when each fits into its buffer and the text into the last one.
-/

namespace G7

/-- The text `dst` and then every piece behind a separator. -/
def joinOnto (sep : Byte) (dst : CStr) (pieces : List CStr) : CStr :=
  dst ++ pieces.flatMap (sep :: ·)

/-- Appending a separator and then a piece, for every piece, in a buffer of `size` bytes. -/
def appendPieces (sep : Byte) (size : ℕ) (dst : CStr) (pieces : List CStr) : CStr :=
  pieces.foldl (fun dst piece => xstrlcat (xstrlcat dst [sep] size) piece size) dst

/-- A piece that does not fit is the last one, unless the buffer has no room for its separator and
another one. -/
def NoGap (sep : Byte) (size : ℕ) (dst : CStr) (pieces : List CStr) : Prop :=
  ∀ before piece after, pieces = before ++ piece :: after → after ≠ [] →
    (joinOnto sep dst (before ++ [piece])).length < size ∨
      size - 2 ≤ (joinOnto sep dst before).length

section

variable {sep : Byte} {size : ℕ} {dst piece : CStr} {pieces : List CStr}

@[simp] lemma joinOnto_nil : joinOnto sep dst [] = dst := by simp [joinOnto]

lemma joinOnto_cons :
    joinOnto sep dst (piece :: pieces) = joinOnto sep (dst ++ sep :: piece) pieces := by
  simp [joinOnto]

lemma length_le_joinOnto (sep : Byte) (dst : CStr) (pieces : List CStr) :
    dst.length ≤ (joinOnto sep dst pieces).length := by
  simp [joinOnto]

/-- Joining with a separator, written with `List.intercalate`. -/
lemma intercalate_eq_joinOnto : [sep].intercalate (dst :: pieces) = joinOnto sep dst pieces := by
  induction pieces generalizing dst with
  | nil => simp
  | cons piece pieces ih =>
      rw [List.intercalate_cons_cons, ih, joinOnto, joinOnto]
      simp

lemma xstrlcat_eq_append (h : dst.length + piece.length < size) :
    xstrlcat dst piece size = dst ++ piece := by
  rw [xstrlcat]
  split_ifs with hfull hfits
  · have hnil : piece = [] := List.eq_nil_of_length_eq_zero (by omega)
    simp [hnil]
  · rfl
  · omega

lemma xstrlcat_eq_left (h : size ≤ dst.length + piece.length) :
    xstrlcat dst piece size = dst := by
  rw [xstrlcat]
  split_ifs with hfull hfits
  · rfl
  · omega
  · rfl

/-- One piece, when there is room for it. -/
lemma appendPieces_cons_of_lt (h : (dst ++ sep :: piece).length < size) :
    appendPieces sep size dst (piece :: pieces)
      = appendPieces sep size (dst ++ sep :: piece) pieces := by
  rw [List.length_append, List.length_cons] at h
  have hcat : xstrlcat dst [sep] size = dst ++ [sep] :=
    xstrlcat_eq_append (by rw [List.length_singleton]; omega)
  have hcat' : xstrlcat (dst ++ [sep]) piece size = dst ++ [sep] ++ piece :=
    xstrlcat_eq_append (by rw [List.length_append, List.length_singleton]; omega)
  rw [appendPieces, List.foldl_cons, hcat, hcat', List.append_assoc]
  rfl

/-- Only the separator, when there is room for it and not for the piece. -/
lemma appendPieces_cons_of_ge (hsep : dst.length + 1 < size)
    (h : size ≤ (dst ++ sep :: piece).length) :
    appendPieces sep size dst (piece :: pieces) = appendPieces sep size (dst ++ [sep]) pieces := by
  rw [List.length_append, List.length_cons] at h
  have hcat : xstrlcat dst [sep] size = dst ++ [sep] :=
    xstrlcat_eq_append (by rw [List.length_singleton]; omega)
  have hcat' : xstrlcat (dst ++ [sep]) piece size = dst ++ [sep] :=
    xstrlcat_eq_left (by rw [List.length_append, List.length_singleton]; omega)
  rw [appendPieces, List.foldl_cons, hcat, hcat']
  rfl

/-- **A full buffer stays as it is.** -/
lemma appendPieces_full (h : size ≤ dst.length + 1) : appendPieces sep size dst pieces = dst := by
  induction pieces with
  | nil => rfl
  | cons piece pieces ih =>
      have hkeep : ∀ src : CStr, xstrlcat dst src size = dst := by
        intro src
        rw [xstrlcat, if_pos (by omega)]
      rw [appendPieces, List.foldl_cons, hkeep, hkeep]
      exact ih

lemma prefix_xstrlcat (dst src : CStr) (size : ℕ) : dst <+: xstrlcat dst src size := by
  rw [xstrlcat]
  split_ifs
  · exact List.prefix_rfl
  · exact List.prefix_append _ _
  · exact List.prefix_rfl

/-- What is in the buffer is never taken back. -/
lemma prefix_appendPieces : dst <+: appendPieces sep size dst pieces := by
  induction pieces generalizing dst with
  | nil => exact List.prefix_rfl
  | cons piece pieces ih => exact ((prefix_xstrlcat _ _ _).trans (prefix_xstrlcat _ _ _)).trans ih

/-- Two separators in a row are no beginning of the text. -/
lemma not_prefix_joinOnto (hsep : sep ∉ piece) (hpiece : piece ≠ []) {t : CStr}
    (h : dst ++ [sep, sep] <+: t) : ¬ t <+: joinOnto sep (dst ++ sep :: piece) pieces := by
  intro ht
  obtain ⟨c, cs, rfl⟩ := List.exists_cons_of_ne_nil hpiece
  have hpre := h.trans ht
  rw [joinOnto, List.append_assoc, List.prefix_append_right_inj, List.cons_append,
    List.cons_append, List.cons_prefix_cons, List.cons_prefix_cons] at hpre
  exact hsep (hpre.2.1 ▸ List.mem_cons_self)

/-- The buffer is not overrun. -/
lemma length_xstrlcat_lt (h : dst.length < size) : (xstrlcat dst piece size).length < size := by
  rw [xstrlcat]
  split_ifs
  · exact h
  · rw [List.length_append]
    omega
  · exact h

lemma length_appendPieces_lt (h : dst.length < size) :
    (appendPieces sep size dst pieces).length < size := by
  induction pieces generalizing dst with
  | nil => exact h
  | cons piece pieces ih => exact ih (length_xstrlcat_lt (length_xstrlcat_lt h))

/-- A text that fits is put together. -/
lemma appendPieces_of_lt (h : (joinOnto sep dst pieces).length < size) :
    appendPieces sep size dst pieces = joinOnto sep dst pieces := by
  induction pieces generalizing dst with
  | nil => simp [appendPieces]
  | cons piece pieces ih =>
      rw [joinOnto_cons] at h ⊢
      have hle := length_le_joinOnto sep (dst ++ sep :: piece) pieces
      rw [appendPieces_cons_of_lt (by omega), ih h]

/-- **When the buffer holds the text.** -/
theorem appendPieces_eq_iff (h : dst.length < size) :
    appendPieces sep size dst pieces = joinOnto sep dst pieces ↔
      (joinOnto sep dst pieces).length < size := by
  refine ⟨fun heq => ?_, appendPieces_of_lt⟩
  rw [← heq]
  exact length_appendPieces_lt h

/-- The first piece is one that fits, or nothing comes after it, or the buffer is full with its
separator; and then the rest. -/
lemma noGap_cons : NoGap sep size dst (piece :: pieces) ↔
    (pieces ≠ [] → (dst ++ sep :: piece).length < size ∨ size - 2 ≤ dst.length) ∧
      NoGap sep size (dst ++ sep :: piece) pieces := by
  constructor
  · intro h
    refine ⟨fun hne => by simpa [joinOnto] using h [] piece pieces rfl hne, ?_⟩
    intro before p after hsplit hne
    have hp := h (piece :: before) p after (by rw [hsplit]; rfl) hne
    rwa [List.cons_append, joinOnto_cons, joinOnto_cons] at hp
  · rintro ⟨hfirst, hrest⟩ before p after hsplit hne
    cases before with
    | nil =>
        obtain ⟨rfl, rfl⟩ := List.cons.inj hsplit
        simpa [joinOnto] using hfirst hne
    | cons q before =>
        obtain ⟨rfl, htail⟩ := List.cons.inj hsplit
        rw [List.cons_append, joinOnto_cons, joinOnto_cons]
        exact hrest before p after htail hne

/-- Nothing more goes into the buffer behind a text that is too long for it. -/
lemma noGap_of_ge (h : size ≤ dst.length + 2) : NoGap sep size dst pieces := by
  intro before p after _ _
  have hle := length_le_joinOnto sep dst before
  exact Or.inr (by omega)

/-- After a piece that does not fit, nothing may be appended. -/
lemma appendPieces_prefix_iff_of_ge (hsep : sep ∉ piece)
    (h : size ≤ (dst ++ sep :: piece).length) :
    appendPieces sep size dst (piece :: pieces) <+: joinOnto sep (dst ++ sep :: piece) pieces ↔
      (pieces ≠ [] → size - 2 ≤ dst.length) := by
  have hpre : dst ++ [sep] <+: joinOnto sep (dst ++ sep :: piece) pieces := by simp [joinOnto]
  rcases Nat.lt_or_ge (dst.length + 1) size with hlt | hfull
  · rw [appendPieces_cons_of_ge hlt h]
    rcases Nat.lt_or_ge (dst.length + 2) size with hlt₂ | hfull
    · cases pieces with
      | nil => simp [appendPieces]
      | cons next pieces =>
          have hpiece : piece ≠ [] := by
            rintro rfl
            rw [List.length_append, List.length_singleton] at h
            omega
          have hcat : xstrlcat (dst ++ [sep]) [sep] size = dst ++ [sep, sep] := by
            rw [xstrlcat_eq_append (by simpa using hlt₂), List.append_assoc]
            rfl
          have htwo : dst ++ [sep, sep]
              <+: appendPieces sep size (dst ++ [sep]) (next :: pieces) := by
            rw [appendPieces, List.foldl_cons, hcat]
            exact (prefix_xstrlcat _ _ _).trans prefix_appendPieces
          refine iff_of_false (not_prefix_joinOnto hsep hpiece htwo) fun hle => ?_
          exact absurd (hle (List.cons_ne_nil _ _)) (by omega)
    · rw [appendPieces_full (by simpa using hfull)]
      exact iff_of_true hpre fun _ => by omega
  · rw [appendPieces_full hfull]
    exact iff_of_true ((List.prefix_append _ _).trans hpre) fun _ => by omega

/-- **When the buffer holds a beginning of the text.** -/
theorem appendPieces_prefix_iff (hsep : ∀ p ∈ pieces, sep ∉ p) :
    appendPieces sep size dst pieces <+: joinOnto sep dst pieces ↔ NoGap sep size dst pieces := by
  induction pieces generalizing dst with
  | nil => simp [appendPieces, NoGap]
  | cons piece pieces ih =>
      have hpieces : ∀ p ∈ pieces, sep ∉ p := fun p hp => hsep p (List.mem_cons_of_mem _ hp)
      rw [noGap_cons, joinOnto_cons]
      rcases Nat.lt_or_ge (dst ++ sep :: piece).length size with hfits | hge
      · rw [appendPieces_cons_of_lt hfits, ih hpieces]
        exact ⟨fun hrest => ⟨fun _ => Or.inl hfits, hrest⟩, fun hrest => hrest.2⟩
      · have hrest : NoGap sep size (dst ++ sep :: piece) pieces := noGap_of_ge (by omega)
        rw [appendPieces_prefix_iff_of_ge (hsep _ List.mem_cons_self) hge]
        simp only [not_lt.mpr hge, false_or, hrest, and_true]

/-! ## Pieces without separators -/

/-- Appending every piece, in a buffer of `size` bytes. -/
def appendAll (size : ℕ) (dst : CStr) (pieces : List CStr) : CStr :=
  pieces.foldl (fun dst piece => xstrlcat dst piece size) dst

lemma length_xstrlcat_le : (xstrlcat dst piece size).length ≤ dst.length + piece.length := by
  rw [xstrlcat]
  split_ifs
  · exact Nat.le_add_right _ _
  · rw [List.length_append]
  · exact Nat.le_add_right _ _

lemma length_appendAll_lt (h : dst.length < size) : (appendAll size dst pieces).length < size := by
  induction pieces generalizing dst with
  | nil => exact h
  | cons piece pieces ih => exact ih (length_xstrlcat_lt h)

lemma length_appendAll_le :
    (appendAll size dst pieces).length ≤ dst.length + pieces.flatten.length := by
  induction pieces generalizing dst with
  | nil => exact Nat.le_add_right _ _
  | cons piece pieces ih =>
      have hrest : (appendAll size (xstrlcat dst piece size) pieces).length
          ≤ (xstrlcat dst piece size).length + pieces.flatten.length := ih
      rw [List.flatten_cons, List.length_append, ← Nat.add_assoc]
      exact hrest.trans (Nat.add_le_add_right length_xstrlcat_le _)

/-- Pieces that fit are appended. -/
lemma appendAll_of_lt (h : (dst ++ pieces.flatten).length < size) :
    appendAll size dst pieces = dst ++ pieces.flatten := by
  induction pieces generalizing dst with
  | nil => exact (List.append_nil dst).symm
  | cons piece pieces ih =>
      rw [List.flatten_cons, ← List.append_assoc] at h ⊢
      have hcat : xstrlcat dst piece size = dst ++ piece :=
        xstrlcat_eq_append (by simp only [List.length_append] at h; omega)
      rw [appendAll, List.foldl_cons, hcat]
      exact ih h

/-- A text that is not cut fits. -/
lemma snprintf_eq_self_iff {text : CStr} : snprintf size text = text ↔ text.length ≤ size - 1 :=
  List.take_eq_self_iff text

/-- What is printed into buffers is as long as the texts only if these fit. -/
lemma fits_of_length_le {texts : List (ℕ × CStr)}
    (h : (texts.map Prod.snd).flatten.length
      ≤ (texts.map fun t => snprintf t.1 t.2).flatten.length) :
    ∀ t ∈ texts, t.2.length ≤ t.1 - 1 := by
  have hle : ∀ texts : List (ℕ × CStr), (texts.map fun t => snprintf t.1 t.2).flatten.length
      ≤ (texts.map Prod.snd).flatten.length := by
    intro texts
    induction texts with
    | nil => exact le_rfl
    | cons t texts ih =>
        simp only [List.map_cons, List.flatten_cons, List.length_append]
        exact Nat.add_le_add (List.length_take_le' _ _) ih
  induction texts with
  | nil => exact nofun
  | cons t texts ih =>
      have hrest := hle texts
      simp only [List.map_cons, List.flatten_cons, List.length_append, snprintf,
        List.length_take] at h hrest
      refine List.forall_mem_cons.mpr ⟨by omega, ih ?_⟩
      simp only [snprintf]
      omega

/-- **When printed pieces are the text.** -/
theorem appendAll_snprintf_eq_iff (hsize : 0 < size) (text : CStr) (texts : List (ℕ × CStr))
    (hpos : ∀ t ∈ texts, 0 < t.1) :
    appendAll size (snprintf size text) (texts.map fun t => snprintf t.1 t.2)
        = text ++ (texts.map Prod.snd).flatten ↔
      (∀ t ∈ texts, t.2.length < t.1) ∧ (text ++ (texts.map Prod.snd).flatten).length < size := by
  constructor
  · intro h
    have hlt : (snprintf size text).length < size := by
      rw [snprintf, List.length_take]
      omega
    have hwhole : (appendAll size (snprintf size text)
        (texts.map fun t => snprintf t.1 t.2)).length < size := length_appendAll_lt hlt
    have hprinted : (appendAll size (snprintf size text)
        (texts.map fun t => snprintf t.1 t.2)).length
          ≤ (snprintf size text).length + (texts.map fun t => snprintf t.1 t.2).flatten.length :=
      length_appendAll_le
    rw [h] at hwhole
    have htext : (snprintf size text).length ≤ text.length := List.length_take_le' _ _
    rw [h, List.length_append] at hprinted
    refine ⟨fun t ht => ?_, hwhole⟩
    have hfits := fits_of_length_le (by omega) t ht
    have hpos := hpos t ht
    omega
  · rintro ⟨hfits, hwhole⟩
    have hprinted : (texts.map fun t => snprintf t.1 t.2) = texts.map Prod.snd :=
      List.map_congr_left fun t ht => snprintf_of_lt (hfits t ht)
    have htext : snprintf size text = text := by
      rw [List.length_append] at hwhole
      exact snprintf_of_lt (by omega)
    rw [hprinted, htext, appendAll_of_lt hwhole]

end

end G7
