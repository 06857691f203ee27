import G7Ctrl.Mail.Recipients

/-!
# All recipients of a call, or none

`smtp_add_rcpt` stores the recipients of a text one after the other, and each one before it looks at
the next.

* `rcptText` — what is stored for a field of the text.
* `SmtpHandle.append` — a handle with some more recipients.
* `AddsAllOrNothing` — a call adds all recipients of its text and returns 0, or returns -1 and
  leaves the handle as it was.
* **`addsAllOrNothing_iff`** — the calls of which this is true.
-/

namespace G7

/-- What is stored for a field, unless it is refused. -/
def rcptText (below : Byte) (fld : CStr) : Option CStr :=
  match smtpNormalizeMailaddr (rcptBuffers below) fld with
  | .done (some (namepart, addrpart)) => some (emailFull namepart addrpart)
  | _ => none

/-- The recipients of a type in one text. -/
def SmtpHandle.concatenated (handle : SmtpHandle) (type : ℕ) : Option CStr :=
  if type = smtpRcptTo then handle.toConcatenated
  else if type = smtpRcptCc then handle.ccConcatenated
  else if type = smtpRcptBcc then handle.bccConcatenated
  else none

/-- A text with more recipients behind the ones it has. -/
def joinRcpts (concatenated : Option CStr) (fulls : List CStr) : CStr :=
  [ch ','].intercalate ((concatenated.filter (· ≠ [])).toList ++ fulls)

/-- The handle with other recipients of a type. -/
def SmtpHandle.withRcpts (handle : SmtpHandle) (type : ℕ) (rcpts : List CStr)
    (concatenated : Option CStr) : SmtpHandle :=
  if type = smtpRcptTo then { handle with toRcpt := rcpts, toConcatenated := concatenated }
  else if type = smtpRcptCc then { handle with ccRcpt := rcpts, ccConcatenated := concatenated }
  else if type = smtpRcptBcc then
    { handle with bccRcpt := rcpts, bccConcatenated := concatenated }
  else handle

/-- The handle with more recipients of a type. -/
def SmtpHandle.append (handle : SmtpHandle) (type : ℕ) (fulls : List CStr) : SmtpHandle :=
  handle.withRcpts type (handle.rcpts type ++ fulls)
    (some (joinRcpts (handle.concatenated type) fulls))

/-- The recipients of the text have been added, and nothing else has changed. -/
def Adds (below : Byte) (handle : SmtpHandle) (type : ℕ) (rcpt : CStr) (handle' : SmtpHandle) :
    Prop :=
  ∃ fulls, (rcpt.splitOn (ch ',')).map (rcptText below) = fulls.map some ∧
    handle'.rcpts type = handle.rcpts type ++ fulls ∧ handle' = handle.append type fulls

/-- **All or nothing.** -/
def AddsAllOrNothing (below : Byte) (handle : SmtpHandle) (type : ℕ) (rcpt : CStr) : Prop :=
  ∃ rc handle', smtpAddRcpt below handle type rcpt = .done (rc, handle') ∧
    (rc = 0 ∧ Adds below handle type rcpt handle' ∨ rc = -1 ∧ handle' = handle)

/-- The first field is refused, or finds the array full. -/
def RefusedAtOnce (below : Byte) (handle : SmtpHandle) (type : ℕ) (flds : List CStr) : Prop :=
  ∀ fld ∈ flds.head?, rcptText below fld = none ∨
    StoredType type ∧ maxRcpt ≤ (handle.rcpts type).length

/-- Every field is taken, and there is room for all of them in the array and in the header. -/
structure RoomForAll (below : Byte) (handle : SmtpHandle) (type : ℕ) (flds : List CStr) : Prop where
  taken : ∀ fld ∈ flds, rcptText below fld ≠ none
  array : (handle.rcpts type).length + flds.length ≤ maxRcpt
  header : (joinRcpts (handle.concatenated type) (flds.filterMap (rcptText below))).length
    < maxHeaderAddrSize

/-! ## The lists of a handle -/

section

variable {handle : SmtpHandle} {type : ℕ}

lemma rcpts_withRcpts (h : StoredType type) (rcpts : List CStr) (concatenated : Option CStr) :
    (handle.withRcpts type rcpts concatenated).rcpts type = rcpts := by
  obtain rfl | rfl | rfl := h <;> rfl

lemma concatenated_withRcpts (h : StoredType type) (rcpts : List CStr)
    (concatenated : Option CStr) :
    (handle.withRcpts type rcpts concatenated).concatenated type = concatenated := by
  obtain rfl | rfl | rfl := h <;> rfl

lemma withRcpts_withRcpts (h : StoredType type) (rcpts rcpts' : List CStr)
    (concatenated concatenated' : Option CStr) :
    (handle.withRcpts type rcpts concatenated).withRcpts type rcpts' concatenated' =
      handle.withRcpts type rcpts' concatenated' := by
  obtain rfl | rfl | rfl := h <;> rfl

lemma withRcpts_self (h : StoredType type) :
    handle.withRcpts type (handle.rcpts type) (handle.concatenated type) = handle := by
  obtain rfl | rfl | rfl := h <;> rfl

/-- One more recipient. -/
lemma putRcpt_eq (h : StoredType type) (full : CStr) :
    putRcpt handle type full =
      if maxRcpt ≤ (handle.rcpts type).length then none
      else some (handle.withRcpts type (handle.rcpts type ++ [full])
        (some (concatRcpt (handle.concatenated type) full))) := by
  obtain rfl | rfl | rfl := h <;> rfl

lemma putRcpt_other (h : ¬ StoredType type) (full : CStr) :
    putRcpt handle type full = some handle := by
  rw [StoredType, not_or, not_or] at h
  rw [putRcpt, if_neg h.1, if_neg h.2.1, if_neg h.2.2]

lemma rcpts_other (h : ¬ StoredType type) : handle.rcpts type = [] := by
  rw [StoredType, not_or, not_or] at h
  rw [SmtpHandle.rcpts, if_neg h.1, if_neg h.2.1, if_neg h.2.2]

end

/-! ## The header -/

section

variable {concatenated : Option CStr} {full t : CStr} {fulls : List CStr}

/-- What the header has when some more recipients have been put into it. -/
def concatRcpts (concatenated : Option CStr) (fulls : List CStr) : Option CStr :=
  fulls.foldl (fun concatenated full => some (concatRcpt concatenated full)) concatenated

lemma concatRcpts_of_ne_nil (ht : t ≠ []) (fulls : List CStr) :
    concatRcpts (some t) fulls = some (appendPieces (ch ',') maxHeaderAddrSize t fulls) := by
  induction fulls generalizing t with
  | nil => rfl
  | cons full fulls ih =>
      have hpre := (prefix_xstrlcat t [ch ','] maxHeaderAddrSize).trans
        (prefix_xstrlcat _ full maxHeaderAddrSize)
      have hcat : concatRcpt (some t) full =
          xstrlcat (xstrlcat t [ch ','] maxHeaderAddrSize) full maxHeaderAddrSize := by
        rw [concatRcpt, Option.getD_some, if_neg ht]
        rfl
      have hne : concatRcpt (some t) full ≠ [] := by
        intro hnil
        rw [← hcat, hnil] at hpre
        exact ht (List.prefix_nil.mp hpre)
      rw [concatRcpts, List.foldl_cons]
      refine (ih hne).trans ?_
      rw [hcat, appendPieces, appendPieces, List.foldl_cons]

lemma appendPieces_join_iff (hne : fulls ≠ []) :
    appendPieces (ch ',') maxHeaderAddrSize t fulls = joinOnto (ch ',') t fulls ↔
      (joinOnto (ch ',') t fulls).length < maxHeaderAddrSize := by
  rcases Nat.lt_or_ge t.length maxHeaderAddrSize with hlt | hge
  · exact appendPieces_eq_iff hlt
  · have hle := length_le_joinOnto (ch ',') t fulls
    refine iff_of_false (fun heq => ?_) (by omega)
    rw [appendPieces_full (by omega)] at heq
    obtain ⟨full, fulls, rfl⟩ := List.exists_cons_of_ne_nil hne
    have hlen := congrArg List.length heq
    rw [joinOnto_cons] at hlen
    have hle' := length_le_joinOnto (ch ',') (t ++ ch ',' :: full) fulls
    rw [List.length_append, List.length_cons] at hle'
    omega

/-- **When the header is the recipients in one text.** -/
lemma concatRcpts_eq_iff (hne : fulls ≠ []) (hfulls : ∀ full ∈ fulls, full ≠ [] ∧ full.length < 255) :
    concatRcpts concatenated fulls = some (joinRcpts concatenated fulls) ↔
      (joinRcpts concatenated fulls).length < maxHeaderAddrSize := by
  obtain ⟨full, rest, rfl⟩ := List.exists_cons_of_ne_nil hne
  obtain ⟨⟨hfull, hlen⟩, -⟩ := List.forall_mem_cons.mp hfulls
  have hempty : ∀ concatenated : Option CStr, concatenated.getD [] = [] →
      joinRcpts concatenated (full :: rest) = joinOnto (ch ',') full rest ∧
        concatRcpts concatenated (full :: rest) =
          some (appendPieces (ch ',') maxHeaderAddrSize full rest) := by
    intro concatenated hnil
    constructor
    · rw [joinRcpts, ← intercalate_eq_joinOnto]
      cases concatenated with
      | none => rfl
      | some t =>
          obtain rfl : t = [] := hnil
          rfl
    · have hcat : concatRcpt concatenated full = full := by
        rw [concatRcpt, hnil, if_pos rfl]
        exact xstrlcat_eq_append (by rw [List.length_nil, maxHeaderAddrSize]; omega)
      rw [concatRcpts, List.foldl_cons, hcat]
      exact concatRcpts_of_ne_nil hfull rest
  by_cases hnil : concatenated.getD [] = []
  · obtain ⟨hjoin, hcat⟩ := hempty concatenated hnil
    rw [hjoin, hcat, Option.some_inj]
    exact appendPieces_eq_iff (by simp only [maxHeaderAddrSize]; omega)
  · obtain ⟨t, rfl⟩ : ∃ t, concatenated = some t := by
      cases concatenated with
      | none => exact absurd rfl hnil
      | some t => exact ⟨t, rfl⟩
    have ht : t ≠ [] := hnil
    have hjoin : joinRcpts (some t) (full :: rest) = joinOnto (ch ',') t (full :: rest) := by
      rw [joinRcpts, ← intercalate_eq_joinOnto, Option.filter_some, if_pos (decide_eq_true ht)]
      rfl
    rw [hjoin, concatRcpts_of_ne_nil ht, Option.some_inj]
    exact appendPieces_join_iff hne

end

/-! ## The loop -/

section

variable {below : Byte} {handle handle' : SmtpHandle} {type : ℕ} {fld full : CStr}
  {flds fulls : List CStr}

/-- No field overruns the buffers for its parts. -/
lemma isDone_smtpNormalizeMailaddr (below : Byte) (fld : CStr) :
    ∃ parts, smtpNormalizeMailaddr (rcptBuffers below) fld = .done parts := by
  by_cases hbare : ch '<' ∉ fld ∨ ch '>' ∉ fld
  · rw [smtpNormalizeMailaddr, if_pos hbare]
    simp only [Checked.pure_eq]
    split_ifs
    · exact ⟨_, rfl⟩
    · exact ⟨_, rfl⟩
    · exact ⟨_, rfl⟩
  · rw [not_or, not_not, not_not] at hbare
    obtain ⟨front, back, rfl, hfront⟩ := exists_bracket hbare.1
    rw [smtpNormalizeMailaddr_bracket hfront hbare.2]
    by_cases hlong : (rcptBuffers below).maxnlen < front.length ∨
        (rcptBuffers below).maxalen < back.length + 1
    · rw [if_pos hlong]
      exact ⟨_, rfl⟩
    · rw [if_neg hlong]
      simp only [rcptBuffers, not_or, not_lt] at hlong
      have hname : ¬ (rcptBuffers below).nameSize ≤ front.length := by
        simp only [rcptBuffers]
        omega
      have haddr : ¬ (rcptBuffers below).addrSize ≤ back.length + 1 := by
        simp only [rcptBuffers]
        omega
      rw [if_neg hname]
      cases quoteName (rcptBuffers below) (xstrtrim front) with
      | none => exact ⟨_, rfl⟩
      | some name =>
          dsimp only
          rw [if_neg haddr]
          exact ⟨_, rfl⟩

lemma rcptText_nil (below : Byte) : rcptText below [] = none := rfl

lemma rcptText_short (h : rcptText below fld = some full) : full ≠ [] ∧ full.length < 255 := by
  rw [rcptText] at h
  split at h
  · obtain rfl := Option.some.inj h
    rw [emailFull, snprintf]
    constructor
    · exact fun hnil => by simp [str] at hnil
    · rw [List.length_take]
      omega
  · cases h

/-- **A round of the loop.** -/
lemma addRcpts_cons :
    addRcpts below type (fld :: flds) handle =
      match rcptText below fld with
      | none => .done (-1, handle)
      | some full =>
          match putRcpt handle type full with
          | none => .done (-1, handle)
          | some handle => addRcpts below type flds handle := by
  rw [addRcpts]
  by_cases hnil : fld = []
  · subst hnil
    rw [if_pos rfl, rcptText_nil]
    rfl
  · rw [if_neg hnil, rcptText]
    obtain ⟨parts, hparts⟩ := isDone_smtpNormalizeMailaddr below fld
    rw [hparts, Checked.done_bind]
    rcases parts with _ | ⟨name, addr⟩
    · rfl
    · dsimp only
      cases putRcpt handle type (emailFull name addr) <;> rfl

/-- The handle after some fields. -/
def SmtpHandle.stored (handle : SmtpHandle) (type : ℕ) (fulls : List CStr) : SmtpHandle :=
  handle.withRcpts type (handle.rcpts type ++ fulls)
    (concatRcpts (handle.concatenated type) fulls)

/-- **What the loop does**: it stores the fields up to the first that is refused or finds the array
full. -/
lemma addRcpts_stored (below : Byte) (hstored : StoredType type) (flds : List CStr)
    (handle : SmtpHandle) :
    ∃ before after fulls, flds = before ++ after ∧ before.map (rcptText below) = fulls.map some ∧
      (fulls ≠ [] → (handle.rcpts type).length + fulls.length ≤ maxRcpt) ∧
      ((after = [] ∧ addRcpts below type flds handle = .done (0, handle.stored type fulls)) ∨
        ∃ fld rest, after = fld :: rest ∧
          addRcpts below type flds handle = .done (-1, handle.stored type fulls) ∧
          (rcptText below fld = none ∨
            maxRcpt ≤ (handle.rcpts type).length + fulls.length)) := by
  induction flds generalizing handle with
  | nil =>
      refine ⟨[], [], [], rfl, rfl, fun h => absurd rfl h, .inl ⟨rfl, ?_⟩⟩
      rw [SmtpHandle.stored, List.append_nil]
      exact congrArg (fun handle => Checked.done ((0 : ℤ), handle)) (withRcpts_self hstored).symm
  | cons fld flds ih =>
      have hself : handle.stored type [] = handle := by
        rw [SmtpHandle.stored, List.append_nil]
        exact withRcpts_self hstored
      rw [addRcpts_cons]
      cases htext : rcptText below fld with
      | none =>
          refine ⟨[], fld :: flds, [], rfl, rfl, fun h => absurd rfl h, .inr ⟨fld, flds, rfl, ?_⟩⟩
          rw [hself]
          exact ⟨rfl, .inl htext⟩
      | some full =>
          simp only [putRcpt_eq hstored]
          by_cases hfull : maxRcpt ≤ (handle.rcpts type).length
          · rw [if_pos hfull]
            refine ⟨[], fld :: flds, [], rfl, rfl, fun h => absurd rfl h,
              .inr ⟨fld, flds, rfl, ?_⟩⟩
            rw [hself]
            exact ⟨rfl, .inr hfull⟩
          · rw [if_neg hfull]
            dsimp only
            obtain ⟨before, after, fulls, hsplit, hfulls, hroom, hloop⟩ :=
              ih (handle.withRcpts type (handle.rcpts type ++ [full])
                (some (concatRcpt (handle.concatenated type) full)))
            rw [rcpts_withRcpts hstored, List.length_append, List.length_singleton] at hroom hloop
            have hone : (handle.withRcpts type (handle.rcpts type ++ [full])
                (some (concatRcpt (handle.concatenated type) full))).stored type fulls =
                  handle.stored type (full :: fulls) := by
              rw [SmtpHandle.stored, SmtpHandle.stored, rcpts_withRcpts hstored,
                concatenated_withRcpts hstored, withRcpts_withRcpts hstored, List.append_assoc]
              rfl
            rw [hone] at hloop
            refine ⟨fld :: before, after, full :: fulls, by rw [hsplit]; rfl, ?_, ?_, ?_⟩
            · rw [List.map_cons, List.map_cons, htext, hfulls]
            · intro _
              rw [List.length_cons]
              by_cases hnil : fulls = []
              · subst hnil
                simp only [List.length_nil]
                omega
              · have := hroom hnil
                omega
            · rw [List.length_cons, ← Nat.add_assoc, Nat.add_right_comm]
              exact hloop

/-- A type that is not stored leaves the handle alone. -/
lemma addRcpts_other (hstored : ¬ StoredType type) (flds : List CStr) (handle : SmtpHandle) :
    addRcpts below type flds handle =
      .done (if ∃ fld ∈ flds, rcptText below fld = none then -1 else 0, handle) := by
  induction flds with
  | nil => rfl
  | cons fld flds ih =>
      rw [addRcpts_cons]
      cases htext : rcptText below fld with
      | none => rw [if_pos ⟨fld, List.mem_cons_self, htext⟩]
      | some full =>
          simp only [putRcpt_other hstored, ih, List.exists_mem_cons_iff, htext, reduceCtorEq, false_or]

/-! ## The call -/

lemma filterMap_of_map (h : flds.map (rcptText below) = fulls.map some) :
    flds.filterMap (rcptText below) = fulls := by
  have hmap := congrArg (List.filterMap id) h
  rwa [List.filterMap_map, List.filterMap_map, Function.id_comp, Function.id_comp,
    List.filterMap_some] at hmap

lemma taken_of_map (h : flds.map (rcptText below) = fulls.map some) :
    ∀ fld ∈ flds, rcptText below fld ≠ none := by
  intro fld hfld hnone
  have hmem : none ∈ fulls.map some := h ▸ hnone ▸ List.mem_map_of_mem hfld
  obtain ⟨full, -, hfull⟩ := List.mem_map.mp hmem
  cases hfull

lemma short_of_map (h : flds.map (rcptText below) = fulls.map some) :
    ∀ full ∈ fulls, full ≠ [] ∧ full.length < 255 := by
  intro full hfull
  have hmem : some full ∈ flds.map (rcptText below) := h ▸ List.mem_map_of_mem hfull
  obtain ⟨fld, -, hfld⟩ := List.mem_map.mp hmem
  exact rcptText_short hfld

/-- What has been stored is what was to be added just if the header holds it. -/
lemma stored_eq_append_iff (handle : SmtpHandle) (hstored : StoredType type)
    (hne : fulls ≠ []) (hfulls : ∀ full ∈ fulls, full ≠ [] ∧ full.length < 255) :
    handle.stored type fulls = handle.append type fulls ↔
      (joinRcpts (handle.concatenated type) fulls).length < maxHeaderAddrSize := by
  rw [← concatRcpts_eq_iff hne hfulls]
  constructor
  · intro heq
    have hconcat := congrArg (fun handle => handle.concatenated type) heq
    simpa only [SmtpHandle.stored, SmtpHandle.append, concatenated_withRcpts hstored] using hconcat
  · intro hconcat
    rw [SmtpHandle.stored, hconcat, SmtpHandle.append]

/-- All fields of a text have been stored. -/
lemma added_iff (hstored : StoredType type) {rcpt : CStr}
    (hfulls : (rcpt.splitOn (ch ',')).map (rcptText below) = fulls.map some) (hne : fulls ≠ [])
    (hroom : (handle.rcpts type).length + fulls.length ≤ maxRcpt) :
    Adds below handle type rcpt (handle.stored type fulls) ↔
      RoomForAll below handle type (rcpt.splitOn (ch ',')) := by
  have hlen : (rcpt.splitOn (ch ',')).length = fulls.length := by
    have hlen := congrArg List.length hfulls
    rwa [List.length_map, List.length_map] at hlen
  have hhead := stored_eq_append_iff handle hstored hne (short_of_map hfulls)
  constructor
  · rintro ⟨fulls', hfulls', -, heq⟩
    obtain rfl : fulls = fulls' :=
      (filterMap_of_map hfulls).symm.trans (filterMap_of_map hfulls')
    refine ⟨taken_of_map hfulls, by omega, ?_⟩
    rw [filterMap_of_map hfulls]
    exact hhead.mp heq
  · intro h
    have hheader := h.header
    rw [filterMap_of_map hfulls] at hheader
    refine ⟨fulls, hfulls, ?_, hhead.mpr hheader⟩
    rw [SmtpHandle.stored, rcpts_withRcpts hstored]

/-- **The loop of a type that is stored.** -/
lemma addRcpts_allOrNothing_iff (hstored : StoredType type) {rcpt : CStr} :
    (∃ rc handle', addRcpts below type (rcpt.splitOn (ch ',')) handle = .done (rc, handle') ∧
      (rc = 0 ∧ Adds below handle type rcpt handle' ∨ rc = -1 ∧ handle' = handle)) ↔
    RefusedAtOnce below handle type (rcpt.splitOn (ch ',')) ∨
      RoomForAll below handle type (rcpt.splitOn (ch ',')) := by
  obtain ⟨before, after, fulls, hsplit, hfulls, hroom, hloop⟩ :=
    addRcpts_stored below hstored (rcpt.splitOn (ch ',')) handle
  have hlen : before.length = fulls.length := by
    have hlen := congrArg List.length hfulls
    rwa [List.length_map, List.length_map] at hlen
  have htaken : ∀ fld ∈ before.head?, ¬ (rcptText below fld = none ∨
      StoredType type ∧ maxRcpt ≤ (handle.rcpts type).length) := by
    rintro fld hfld (hnone | ⟨-, hfull⟩)
    · exact taken_of_map hfulls fld (List.mem_of_mem_head? hfld) hnone
    · have hpos := List.length_pos_of_mem (List.mem_of_mem_head? hfld)
      have hle := hroom (List.length_pos_iff.mp (by omega))
      omega
  obtain ⟨rfl, hloop⟩ | ⟨fld, rest, rfl, hloop, hfld⟩ := hloop
  · -- every field has been stored
    rw [List.append_nil] at hsplit
    have hne : before ≠ [] := hsplit ▸ List.splitOn_ne_nil _ _
    have hfullsNe : fulls ≠ [] := by
      rintro rfl
      exact hne (List.eq_nil_of_length_eq_zero hlen)
    have hadded := added_iff hstored (hsplit ▸ hfulls) hfullsNe (hroom hfullsNe)
    have hrefused : ¬ RefusedAtOnce below handle type (rcpt.splitOn (ch ',')) := by
      intro h
      rw [hsplit] at h
      have hhead := List.head?_eq_some_head hne
      exact htaken _ hhead (h _ hhead)
    rw [or_iff_right hrefused, ← hadded, hloop]
    constructor
    · rintro ⟨rc, handle', hdone, ⟨-, hadds⟩ | ⟨hrc, -⟩⟩
      · cases hdone
        exact hadds
      · cases hdone
        exact absurd hrc (by decide)
    · exact fun hadds => ⟨0, _, rfl, .inl ⟨rfl, hadds⟩⟩
  · -- some field has not
    have hno : ¬ RoomForAll below handle type (rcpt.splitOn (ch ',')) := by
      intro h
      rw [hsplit] at h
      have harray := h.array
      rw [List.length_append, List.length_cons] at harray
      obtain hnone | hfull := hfld
      · exact h.taken fld (List.mem_append_right _ List.mem_cons_self) hnone
      · omega
    rw [or_iff_left hno, hloop]
    constructor
    · rintro ⟨rc, handle', hdone, ⟨hrc, -⟩ | ⟨-, hsame⟩⟩
      · cases hdone
        exact absurd hrc (by decide)
      · cases hdone
        have hrcpts := congrArg (fun handle => (handle.rcpts type).length) hsame
        simp only [SmtpHandle.stored, rcpts_withRcpts hstored, List.length_append] at hrcpts
        have hnil : before = [] := List.eq_nil_of_length_eq_zero (by omega)
        rw [hsplit, hnil]
        rintro f hf
        obtain rfl : fld = f := Option.some.inj hf
        exact hfld.imp id fun hfull => ⟨hstored, by omega⟩
    · intro h
      have hnil : before = [] := by
        by_contra hne
        have hhead := List.head?_eq_some_head hne
        refine htaken _ hhead (h _ ?_)
        rw [hsplit, List.head?_append, hhead]
        rfl
      obtain rfl : fulls = [] := List.eq_nil_of_length_eq_zero (by rw [← hlen, hnil]; rfl)
      refine ⟨-1, _, rfl, .inr ⟨rfl, ?_⟩⟩
      rw [SmtpHandle.stored, List.append_nil]
      exact withRcpts_self hstored

end

/-- **When a call adds all recipients or none**: its text cannot be split, or the first recipient is
refused, or there is room for all of them; with a type that is not stored, if one is refused. -/
theorem addsAllOrNothing_iff (below : Byte) (handle : SmtpHandle) (type : ℕ) (rcpt : CStr) :
    AddsAllOrNothing below handle type rcpt ↔
      xstrsplitfields rcpt (ch ',') = none ∨
      (StoredType type ∧ (RefusedAtOnce below handle type (rcpt.splitOn (ch ',')) ∨
        RoomForAll below handle type (rcpt.splitOn (ch ',')))) ∨
      (¬ StoredType type ∧ ∃ fld ∈ rcpt.splitOn (ch ','), rcptText below fld = none) := by
  rw [AddsAllOrNothing, smtpAddRcpt]
  cases hflds : xstrsplitfields rcpt (ch ',') with
  | none => exact iff_of_true ⟨-1, handle, rfl, .inr ⟨rfl, rfl⟩⟩ (.inl rfl)
  | some flds =>
      obtain rfl := xstrsplitfields_some hflds
      by_cases hstored : StoredType type
      · simp only [hstored, true_and, not_true, false_and, or_false, reduceCtorEq, false_or]
        exact addRcpts_allOrNothing_iff hstored
      · simp only [hstored, false_and, not_false_iff, true_and, reduceCtorEq, false_or,
          addRcpts_other hstored]
        have hnothing : ∀ handle', ¬ Adds below handle type rcpt handle' := by
          rintro handle' ⟨fulls, hfulls, hrcpts, -⟩
          rw [rcpts_other hstored, rcpts_other hstored] at hrcpts
          obtain rfl : fulls = [] := hrcpts.symm
          exact List.splitOn_ne_nil _ _ (List.map_eq_nil_iff.mp hfulls)
        constructor
        · rintro ⟨rc, handle', hdone, ⟨-, hadds⟩ | ⟨hrc, -⟩⟩
          · exact absurd hadds (hnothing handle')
          · by_contra hall
            rw [if_neg hall] at hdone
            cases hdone
            exact absurd hrc (by decide)
        · intro hone
          exact ⟨-1, handle, by rw [if_pos hone], .inr ⟨rfl, rfl⟩⟩

/-- Of two addresses, the second of which is none, the first is kept. -/
theorem secondRefused_notAllOrNothing :
    ¬ AddsAllOrNothing 0 newHandle smtpRcptTo (str "a@b,x") := by
  have hcall : smtpAddRcpt 0 newHandle smtpRcptTo (str "a@b,x") = .done (-1, { newHandle with
      toRcpt := [str "\"a@b\" <a@b>"]
      toConcatenated := some (str "\"a@b\" <a@b>") }) := by
    decide +kernel
  rintro ⟨rc, handle', hdone, ⟨hrc, -⟩ | ⟨-, hsame⟩⟩
  · cases hcall.symm.trans hdone
    exact absurd hrc (by decide)
  · cases hcall.symm.trans hdone
    exact absurd hsame (by decide)

end G7
