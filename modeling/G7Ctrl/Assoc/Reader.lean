import G7Ctrl.Assoc.Json
import G7Ctrl.Assoc.Refinement

/-!
# Reading the pairs of an exported array

The exporter writes strings as they are, so the reader finds the end of a string only if every quote
in it stands behind a backslash and no backslash stands before the closing quote.

* `scannable` — such strings.
* **`parseStrLoop_scannable`**, **`parseStrLoop_some`** — what the reader makes of a string.
* **`parseVectorLoop_append`** — the reader only adds pairs, and only with scannable names.
* **`parseVectorLoop_importable`**, **`importable_of_parseVectorLoop`** — the entries that come back
  are the importable ones.
-/

namespace G7

/-! ## Strings -/

/-- The scan for the closing quote reads the string to its end. -/
def scannable : CStr → Bool
  | [] => true
  | [c] => c ≠ ch '\\' ∧ c ≠ ch '"'
  | c :: d :: s =>
      if c = ch '\\' ∧ d = ch '"' then scannable s else decide (c ≠ ch '"') && scannable (d :: s)

section Loop

variable {size maxlen : ℕ} {s val rest : CStr}

lemma putVal_of_lt {c : Byte} (h : val.length < size) : putVal size val c = .done (val ++ [c]) :=
  if_pos h

lemma endVal_of_lt (hmax : maxlen ≠ 0) (h : val.length < size) :
    endVal size s maxlen val = .done (some val, s) := by
  rw [endVal, if_neg hmax]
  exact if_pos h

lemma parseStrLoop_quote (hmax : 2 ≤ maxlen) (hsize : val.length < size) :
    parseStrLoop size (ch '"' :: s) maxlen val = .done (some val, s) := by
  have hescape : ¬ (ch '"' = ch '\\' ∧ s.head? = some (ch '"')) := fun h => absurd h.1 (by decide)
  rw [parseStrLoop, if_neg (by omega), if_neg hescape, if_pos rfl, endVal_of_lt (by omega) hsize]

lemma parseStrLoop_pair (hmax : 3 ≤ maxlen) (hsize : val.length + 1 < size) :
    parseStrLoop size (ch '\\' :: ch '"' :: s) maxlen val =
      parseStrLoop size s (maxlen - 2) (val ++ [ch '\\', ch '"']) := by
  have hsize' : (val ++ [ch '\\']).length < size := by
    rw [List.length_append, List.length_singleton]
    exact hsize
  rw [parseStrLoop, if_neg (by omega), if_pos ⟨rfl, rfl⟩, if_neg (by omega),
    putVal_of_lt (by omega), Checked.done_bind]
  refine (congrArg (· >>= _) (putVal_of_lt hsize')).trans ?_
  rw [Checked.done_bind, List.append_assoc]
  rfl

lemma parseStrLoop_char {c : Byte} (hescape : ¬ (c = ch '\\' ∧ s.head? = some (ch '"')))
    (hquote : c ≠ ch '"') (hmax : 2 ≤ maxlen) (hsize : val.length < size) :
    parseStrLoop size (c :: s) maxlen val = parseStrLoop size s (maxlen - 1) (val ++ [c]) := by
  rw [parseStrLoop, if_neg (by omega), if_neg hescape, if_neg hquote, putVal_of_lt hsize]
  rfl

end Loop

/-- **A scannable string is read** up to its closing quote, in a buffer with room. -/
theorem parseStrLoop_scannable {v : CStr} (hv : scannable v = true) {size maxlen : ℕ} {val : CStr}
    (rest : CStr) (hmax : v.length + 2 ≤ maxlen) (hsize : val.length + v.length < size) :
    parseStrLoop size (v ++ ch '"' :: rest) maxlen val = .done (some (val ++ v), rest) := by
  induction v using scannable.induct generalizing maxlen val with
  | case1 =>
      rw [List.append_nil]
      exact parseStrLoop_quote hmax hsize
  | case2 c =>
      obtain ⟨hslash, hquote⟩ : c ≠ ch '\\' ∧ c ≠ ch '"' := of_decide_eq_true hv
      rw [List.length_singleton] at hmax hsize
      rw [List.singleton_append, parseStrLoop_char (fun h => hslash h.1) hquote (by omega)
        (by omega), parseStrLoop_quote (by omega) (by simpa using hsize)]
  | case3 c d s hpair ih =>
      obtain ⟨rfl, rfl⟩ := hpair
      rw [scannable, if_pos ⟨rfl, rfl⟩] at hv
      simp only [List.length_cons] at hmax hsize
      rw [List.cons_append, List.cons_append, parseStrLoop_pair (by omega) (by omega),
        ih hv (by omega) (by
          simp only [List.length_append, List.length_cons, List.length_nil]
          omega), List.append_assoc]
      rfl
  | case4 c d s hpair ih =>
      rw [scannable, if_neg hpair, Bool.and_eq_true, decide_eq_true_eq] at hv
      rw [List.length_cons] at hmax hsize
      have hescape : ¬ (c = ch '\\' ∧ (d :: s ++ ch '"' :: rest).head? = some (ch '"')) :=
        fun h => hpair ⟨h.1, Option.some.inj h.2⟩
      rw [List.cons_append, parseStrLoop_char hescape hv.1 (by omega) (by omega),
        ih hv.2 (by rw [List.length_cons] at hmax ⊢; omega) (by
          simp only [List.length_append, List.length_cons, List.length_nil] at hsize ⊢
          omega), List.append_assoc]
      rfl

/-- What the scan does with a text: it ends, or reads a character or a pair. -/
lemma parseStrLoop_cases {size maxlen : ℕ} {s val rest p : CStr} (hmax : 1 ≤ maxlen)
    (h : parseStrLoop size s maxlen val = .done (some p, rest)) :
    (p = val ∧ rest = s ∧ val.length < size ∧ (s = [] ∨ maxlen = 1)) ∨
      (p = val ∧ s = ch '"' :: rest ∧ 2 ≤ maxlen) ∨
      (∃ s', s = ch '\\' :: ch '"' :: s' ∧ 3 ≤ maxlen ∧
        parseStrLoop size s' (maxlen - 2) (val ++ [ch '\\', ch '"']) = .done (some p, rest)) ∨
      ∃ c s', s = c :: s' ∧ 2 ≤ maxlen ∧ c ≠ ch '"' ∧
        ¬ (c = ch '\\' ∧ s'.head? = some (ch '"')) ∧
        parseStrLoop size s' (maxlen - 1) (val ++ [c]) = .done (some p, rest) := by
  have hend {t : CStr} (h : endVal size t maxlen val = .done (some p, rest)) :
      p = val ∧ rest = t ∧ val.length < size := by
    rw [endVal, if_neg (by omega)] at h
    split_ifs at h with hlt
    cases h
    exact ⟨rfl, rfl, hlt⟩
  cases s with
  | nil =>
      obtain ⟨hp, hrest, hlt⟩ := hend h
      exact .inl ⟨hp, hrest, hlt, .inl rfl⟩
  | cons c cs =>
      rw [parseStrLoop] at h
      split_ifs at h with hone hescape hthree hquote
      · obtain ⟨hp, hrest, hlt⟩ := hend h
        exact .inl ⟨hp, hrest, hlt, .inr (by omega)⟩
      · cases h
      · obtain ⟨rfl, hhead⟩ := hescape
        obtain ⟨cs, rfl⟩ := List.head?_eq_some_iff.mp hhead
        obtain ⟨val₁, hput, h⟩ := Checked.bind_eq_done.mp h
        obtain ⟨val₂, hput', h⟩ := Checked.bind_eq_done.mp h
        rw [putVal] at hput hput'
        split_ifs at hput
        cases hput
        split_ifs at hput'
        cases hput'
        rw [List.append_assoc] at h
        exact .inr (.inr (.inl ⟨cs, rfl, by omega, h⟩))
      · obtain ⟨hp, hrest, -⟩ := hend h
        exact .inr (.inl ⟨hp, by rw [hquote, hrest], by omega⟩)
      · obtain ⟨val₁, hput, h⟩ := Checked.bind_eq_done.mp h
        rw [putVal] at hput
        split_ifs at hput
        cases hput
        exact .inr (.inr (.inr ⟨c, cs, rfl, by omega, hquote, hescape, h⟩))

lemma scannable_cons {c : Byte} {s : CStr} (hquote : c ≠ ch '"')
    (hescape : ¬ (c = ch '\\' ∧ (s ++ [ch '"']).head? = some (ch '"')))
    (hs : scannable s = true) : scannable (c :: s) = true := by
  cases s with
  | nil => exact decide_eq_true ⟨fun h => hescape ⟨h, rfl⟩, hquote⟩
  | cons d s =>
      have hpair : ¬ (c = ch '\\' ∧ d = ch '"') := fun h => hescape ⟨h.1, congrArg some h.2⟩
      rw [scannable, if_neg hpair, hs, Bool.and_true]
      exact decide_eq_true hquote

/-- **What was read** is scannable up to a closing quote, or goes to the end of the text or of the
buffer. -/
theorem parseStrLoop_some {size maxlen : ℕ} {s val rest p : CStr} (hmax : 1 ≤ maxlen)
    (h : parseStrLoop size s maxlen val = .done (some p, rest)) :
    ∃ q, p = val ++ q ∧
      ((scannable q = true ∧ s = q ++ ch '"' :: rest ∧ q.length + 2 ≤ maxlen) ∨
        (rest = [] ∧ s = q) ∨ (s = q ++ rest ∧ q.length + 1 = maxlen ∧ p.length < size)) := by
  induction hk : s.length using Nat.strong_induction_on generalizing s maxlen val with
  | _ k ih =>
      obtain ⟨rfl, rfl, hlt, hend⟩ | ⟨rfl, rfl, hmax'⟩ | ⟨s', rfl, hmax', h⟩ |
        ⟨c, s', rfl, hmax', hquote, hescape, h⟩ := parseStrLoop_cases hmax h
      · refine ⟨[], (List.append_nil _).symm, .inr ?_⟩
        rcases hend with hnil | hone
        · exact .inl ⟨hnil, hnil⟩
        · exact .inr ⟨rfl, hone.symm, hlt⟩
      · exact ⟨[], (List.append_nil _).symm, .inl ⟨rfl, rfl, hmax'⟩⟩
      · obtain ⟨q, hp, hq⟩ := ih _ (by simp only [List.length_cons] at hk; omega) (by omega) h rfl
        refine ⟨ch '\\' :: ch '"' :: q, by rw [hp, List.append_assoc]; rfl, ?_⟩
        rcases hq with ⟨hscan, rfl, hlen⟩ | ⟨hrest, rfl⟩ | ⟨rfl, hlen, hlt⟩
        · refine .inl ⟨?_, rfl, by simp only [List.length_cons]; omega⟩
          rw [scannable, if_pos ⟨rfl, rfl⟩]
          exact hscan
        · exact .inr (.inl ⟨hrest, rfl⟩)
        · exact .inr (.inr ⟨rfl, by simp only [List.length_cons]; omega, hlt⟩)
      · obtain ⟨q, hp, hq⟩ := ih _ (by simp only [List.length_cons] at hk; omega) (by omega) h rfl
        refine ⟨c :: q, by rw [hp, List.append_assoc]; rfl, ?_⟩
        rcases hq with ⟨hscan, rfl, hlen⟩ | ⟨hrest, rfl⟩ | ⟨rfl, hlen, hlt⟩
        · refine .inl ⟨scannable_cons hquote ?_ hscan, rfl, by simp only [List.length_cons]; omega⟩
          cases q with
          | nil => exact hescape
          | cons d q => exact hescape
        · exact .inr (.inl ⟨hrest, rfl⟩)
        · exact .inr (.inr ⟨rfl, by simp only [List.length_cons]; omega, hlt⟩)

/-! ## The reader adds pairs -/

/-- Putting in adds the pair at the end, or nothing. -/
lemma assocPut_append {a : AssocArray} {m : AssocMap} (h : Represents a m) (name value : CStr) :
    ∃ rc a' m' more, assocPut putDepth a name value = .done (rc, a') ∧ Represents a' m' ∧
      m'.entries = m.entries ++ more ∧ (name ≠ [] → name ∉ m → more = [⟨name, value⟩]) ∧
      ∀ e ∈ more, e.1 = name := by
  by_cases hname : name = []
  · exact ⟨-1, a, m, [], if_pos hname, h, (List.append_nil _).symm, fun hne => absurd hname hne,
      nofun⟩
  · by_cases hmem : name ∈ m
    · exact ⟨-2, a, m, [], assocPut_present h value hname hmem 1, h, (List.append_nil _).symm,
        fun _ hnew => absurd hmem hnew, nofun⟩
    · obtain ⟨a', hput, hrep⟩ := assocPut_new h value hname hmem
      exact ⟨0, a', _, [⟨name, value⟩], hput, hrep, rfl, fun _ _ => rfl,
        List.forall_mem_singleton.mpr rfl⟩

/-- A name and a value, with the colon between them. -/
lemma parsePairWith_some {value : CStr → Checked (Option CStr × CStr)} {nameSize maxlen : ℕ}
    {s rest name val : CStr}
    (h : parsePairWith value nameSize maxlen s = .done (some (name, val), rest)) :
    ∃ s₁ s₂, parseStr nameSize maxlen s = .done (some name, s₁) ∧
      parseChk (ch ':') s₁ = (true, s₂) ∧ value s₂ = .done (some val, rest) := by
  obtain ⟨⟨found, s₁⟩, hstr, h⟩ := Checked.bind_eq_done.mp h
  cases found with
  | none => cases h
  | some n =>
      rcases hcolon : parseChk (ch ':') s₁ with ⟨colon, s₂⟩
      replace h : (if colon = false then .done (none, s₂)
        else value s₂ >>= fun r => .done (r.1.map fun val => (n, val), r.2)) =
          Checked.done (some (name, val), rest) := by
        have hstep := h
        simp only [hcolon] at hstep
        exact hstep
      cases colon with
      | false => cases h
      | true =>
          obtain ⟨⟨v, s₃⟩, hval, h⟩ := Checked.bind_eq_done.mp h
          cases v with
          | none => cases h
          | some v =>
              cases h
              exact ⟨s₁, s₂, hstr, hcolon, hval⟩

/-- A string begins at a quote. -/
lemma parseStr_some {size maxlen : ℕ} {s rest v : CStr}
    (h : parseStr size maxlen s = .done (some v, rest)) :
    ∃ cs, parseSs s = ch '"' :: cs ∧ parseStrLoop size cs maxlen [] = .done (some v, rest) := by
  rw [parseStr] at h
  cases hs : parseSs s with
  | nil =>
      rw [hs] at h
      cases h
  | cons c cs =>
      rw [hs] at h
      replace h : (if c ≠ ch '"' then .done (none, c :: cs) else if size = 0 then .fault
        else parseStrLoop size cs maxlen []) = Checked.done (some v, rest) := h
      split_ifs at h with hquote
      · cases h
      · rw [not_not] at hquote
        exact ⟨cs, by rw [hquote], h⟩

/-- A name that stands before a colon was closed by a quote. -/
lemma parsePair_scannable {s rest name value : CStr}
    (h : parsePair 1024 (10 * 1024) (10 * 1024) s = .done (some (name, value), rest)) :
    scannable name = true := by
  obtain ⟨s₁, s₂, hstr, hcolon, -⟩ := parsePairWith_some h
  obtain ⟨cs, -, hloop⟩ := parseStr_some hstr
  obtain ⟨q, hq, ⟨hscan, -, -⟩ | ⟨rfl, -⟩ | ⟨-, hlen, hlt⟩⟩ := parseStrLoop_some (by omega) hloop
  · rw [hq]
    exact hscan
  · have hnone : parseChk (ch ':') [] = (false, []) := by decide
    cases hnone.symm.trans hcolon
  · rw [hq, List.nil_append] at hlt
    omega

/-- What a round of `_parse_vector` does: it ends without a pair, or puts one in and ends or goes
on. -/
lemma parseVectorLoop_cases {left : ℕ} {s s' : CStr} {a a' : AssocArray} {rc : ℤ}
    (h : parseVectorLoop (left + 1) s a = .done (rc, s', a')) :
    a' = a ∨ ∃ s₀ name value s₁ s₂ rc₁ a₁, parseChk (ch '\x7b') s = (true, s₀) ∧
      parsePair 1024 (10 * 1024) (10 * 1024) s₀ = .done (some (name, value), s₁) ∧
      parseChk (ch '\x7d') s₁ = (true, s₂) ∧ assocPut putDepth a name value = .done (rc₁, a₁) ∧
      (a' = a₁ ∨ ∃ s₃, parseChk (ch ',') s₂ = (true, s₃) ∧
        parseVectorLoop left s₃ a₁ = .done (rc, s', a')) := by
  rw [parseVectorLoop] at h
  split_ifs at h
  · cases h
    exact .inl rfl
  · rcases hopen : parseChk (ch '\x7b') s with ⟨opening, s₀⟩
    rw [hopen] at h
    cases opening with
    | false =>
        cases h
        exact .inl rfl
    | true =>
        obtain ⟨⟨pair, s₁⟩, hpair, h⟩ := Checked.bind_eq_done.mp h
        cases pair with
        | none =>
            cases h
            exact .inl rfl
        | some pair =>
            obtain ⟨name, value⟩ := pair
            rcases hclose : parseChk (ch '\x7d') s₁ with ⟨closing, s₂⟩
            simp only [hclose] at h
            cases closing with
            | false =>
                cases h
                exact .inl rfl
            | true =>
                obtain ⟨⟨rc₁, a₁⟩, hput, h⟩ := Checked.bind_eq_done.mp h
                refine .inr ⟨s₀, name, value, s₁, s₂, rc₁, a₁, rfl, hpair, hclose, hput, ?_⟩
                rcases hcomma : parseChk (ch ',') s₂ with ⟨comma, s₃⟩
                simp only [hcomma] at h
                cases comma with
                | false =>
                    cases h
                    exact .inl rfl
                | true => exact .inr ⟨s₃, rfl, h⟩

/-- **The reader only adds pairs**, and only with scannable names. -/
theorem parseVectorLoop_append {left : ℕ} {s s' : CStr} {a a' : AssocArray} {m : AssocMap} {rc : ℤ}
    (h : Represents a m) (hrun : parseVectorLoop left s a = .done (rc, s', a')) :
    ∃ m' more, Represents a' m' ∧ m'.entries = m.entries ++ more ∧
      ∀ e ∈ more, scannable e.1 = true := by
  induction left generalizing s a m with
  | zero =>
      rw [parseVectorLoop] at hrun
      split_ifs at hrun
      cases hrun
      exact ⟨m, [], h, (List.append_nil _).symm, nofun⟩
  | succ left ih =>
      obtain rfl | ⟨s₀, name, value, s₁, s₂, rc₁, a₁, -, hpair, -, hput, hrest⟩ :=
        parseVectorLoop_cases hrun
      · exact ⟨m, [], h, (List.append_nil _).symm, nofun⟩
      · obtain ⟨rc₂, a₂, m₁, more₁, hput₂, hrep₁, hentries₁, -, hname₁⟩ :=
          assocPut_append h name value
        cases hput₂.symm.trans hput
        have hmore₁ : ∀ e ∈ more₁, scannable e.1 = true := by
          intro e he
          rw [hname₁ e he]
          exact parsePair_scannable hpair
        obtain rfl | ⟨s₃, -, hrun'⟩ := hrest
        · exact ⟨m₁, more₁, hrep₁, hentries₁, hmore₁⟩
        · obtain ⟨m', more, hrep, hentries, hmore⟩ := ih hrep₁ hrun'
          refine ⟨m', more₁ ++ more, hrep, ?_, List.forall_mem_append.mpr ⟨hmore₁, hmore⟩⟩
          rw [hentries, hentries₁, List.append_assoc]

/-! ## The pairs of an exported array -/

/-- The pairs as they are written. -/
def exportEntries : List (Σ _ : CStr, CStr) → CStr
  | [] => []
  | [e] => exportPair e.1 e.2 (str "\" \x7d\n")
  | e :: es => exportPair e.1 e.2 (str "\" \x7d,\n") ++ exportEntries es

lemma length_le_exportEntries (es : List (Σ _ : CStr, CStr)) :
    es.length ≤ (exportEntries es).length := by
  have hpair (name value ending : CStr) : 1 ≤ (exportPair name value ending).length := by
    have hopen : (str "    \x7b \"").length = 7 := by decide
    simp only [exportPair, List.length_append, hopen]
    omega
  induction es using exportEntries.induct with
  | case1 => exact le_rfl
  | case2 e => exact hpair e.1 e.2 _
  | case3 e es hne ih =>
      rw [exportEntries, List.length_append, List.length_cons]
      · have := hpair e.1 e.2 (str "\" \x7d,\n")
        omega
      · exact hne

/-- The text behind the pairs. -/
def exportEnd : CStr := str "  ]\n\x7d\n"

/-- The entry of an array comes back as it was. -/
def Importable (e : Σ _ : CStr, CStr) : Prop :=
  scannable e.1 = true ∧ scannable e.2 = true ∧ e.2.length + 2 ≤ 10 * 1024

/-- An array stands for one map. -/
lemma Represents.unique {a : AssocArray} {m m' : AssocMap} (h : Represents a m)
    (h' : Represents a m') : m = m' := by
  obtain ⟨rest, hcells⟩ := h.cells
  obtain ⟨rest', hcells'⟩ := h'.cells
  have hinj : Function.Injective cellOf := by
    rintro ⟨n, v⟩ ⟨n', v'⟩ heq
    cases heq
    rfl
  have hmap := (List.append_inj (hcells.symm.trans hcells') (by
    rw [List.length_map, List.length_map, ← h.num, h'.num])).1
  exact AList.ext (List.map_injective_iff.mpr hinj hmap)

lemma exportPair_append (name value ending rest : CStr) :
    exportPair name value (ch '"' :: ending) ++ rest = str "    \x7b \"" ++
      (name ++ ch '"' :: (str " : \"" ++ (value ++ ch '"' :: (ending ++ rest)))) := by
  have hquote : str "\" : \"" = ch '"' :: str " : \"" := rfl
  simp only [exportPair, hquote, List.append_assoc, List.cons_append]

lemma newline_ne_nil (s : CStr) : str "\n" ++ s ≠ [] := List.cons_ne_nil _ _

lemma parseChk_open (s : CStr) :
    parseChk (ch '\x7b') (str "\n" ++ (str "    \x7b \"" ++ s)) = (true, str " \"" ++ s) := rfl

lemma parseChk_colon (s : CStr) :
    parseChk (ch ':') (str " : \"" ++ s) = (true, str " \"" ++ s) := rfl

lemma parseStr_open {size : ℕ} (maxlen : ℕ) (hsize : size ≠ 0) (s : CStr) :
    parseStr size maxlen (str " \"" ++ s) = parseStrLoop size s maxlen [] :=
  if_neg hsize

/-- With a scannable name the reader comes to the value. -/
lemma parsePair_entry {name : CStr} (hscan : scannable name = true) (hname : name.length < 1024)
    (s : CStr) :
    parsePair 1024 (10 * 1024) (10 * 1024)
        (str " \"" ++ (name ++ ch '"' :: (str " : \"" ++ s))) =
      parseStrLoop (10 * 1024) s (10 * 1024) [] >>=
        fun r => .done (r.1.map fun val => (name, val), r.2) := by
  have hstr : parseStr 1024 (10 * 1024) (str " \"" ++ (name ++ ch '"' :: (str " : \"" ++ s))) =
      .done (some name, str " : \"" ++ s) := by
    rw [parseStr_open _ (by omega), parseStrLoop_scannable hscan _ (by omega)
      (by rw [List.length_nil]; omega)]
    rfl
  rw [parsePair, parsePairWith, hstr, Checked.done_bind]
  simp only [parseChk_colon]
  refine congrArg (· >>= _) ((if_pos rfl).trans (parseStr_open _ ?_ s))
  omega

/-- A round of `_parse_vector` with a pair. -/
lemma parseVectorLoop_round {left : ℕ} {s s₀ s₁ s₂ s₃ name value : CStr} {a a₁ : AssocArray}
    {rc₁ : ℤ} {comma : Bool} (hs : s ≠ []) (hopen : parseChk (ch '\x7b') s = (true, s₀))
    (hpair : parsePair 1024 (10 * 1024) (10 * 1024) s₀ = .done (some (name, value), s₁))
    (hclose : parseChk (ch '\x7d') s₁ = (true, s₂))
    (hput : assocPut putDepth a name value = .done (rc₁, a₁))
    (hcomma : parseChk (ch ',') s₂ = (comma, s₃)) :
    parseVectorLoop (left + 1) s a =
      if comma = false then .done (0, s₃, a₁) else parseVectorLoop left s₃ a₁ := by
  rw [parseVectorLoop, if_neg hs, hopen]
  refine (congrArg (· >>= _) hpair).trans ?_
  simp only [Checked.done_bind, hclose]
  refine (congrArg (· >>= _) hput).trans ?_
  simp only [Checked.done_bind, hcomma]
  rfl

/-- What stands behind the value of an entry. -/
lemma exportEntries_cons (e : Σ _ : CStr, CStr) (es : List (Σ _ : CStr, CStr)) (tail : CStr) :
    ∃ t s₂, exportEntries (e :: es) ++ tail = str "    \x7b \"" ++
        (e.1 ++ ch '"' :: (str " : \"" ++ (e.2 ++ ch '"' :: t))) ∧
      parseChk (ch '\x7d') t = (true, s₂) ∧
      (es = [] → s₂ = str "\n" ++ tail) ∧
      (es ≠ [] → parseChk (ch ',') s₂ = (true, str "\n" ++ (exportEntries es ++ tail))) := by
  cases es with
  | nil =>
      exact ⟨str " \x7d\n" ++ tail, str "\n" ++ tail, exportPair_append e.1 e.2 (str " \x7d\n") tail, rfl,
        fun _ => rfl, fun h => absurd rfl h⟩
  | cons e' es =>
      have hcons : exportEntries (e :: e' :: es) =
          exportPair e.1 e.2 (str "\" \x7d,\n") ++ exportEntries (e' :: es) := rfl
      refine ⟨str " \x7d,\n" ++ (exportEntries (e' :: es) ++ tail),
        str ",\n" ++ (exportEntries (e' :: es) ++ tail), ?_, rfl,
        fun h => absurd h (List.cons_ne_nil _ _), fun _ => rfl⟩
      rw [hcons, List.append_assoc]
      exact exportPair_append e.1 e.2 (str " \x7d,\n") _

/-- **Importable entries are put in**, one after the other. -/
theorem parseVectorLoop_importable (es : List (Σ _ : CStr, CStr)) (hne : es ≠ [])
    (hes : es.NodupKeys) (hnames : ∀ e ∈ es, e.1 ≠ [] ∧ e.1.length < 1024)
    (himport : ∀ e ∈ es, Importable e) {left : ℕ} (hleft : es.length ≤ left) {a : AssocArray}
    {m : AssocMap} (h : Represents a m) (hnew : ∀ e ∈ es, e.1 ∉ m) :
    ∃ a' m', parseVectorLoop left (str "\n" ++ (exportEntries es ++ exportEnd)) a =
        .done (0, str "]\n\x7d\n", a') ∧ Represents a' m' ∧ m'.entries = m.entries ++ es := by
  induction es generalizing left a m with
  | nil => exact absurd rfl hne
  | cons e es ih =>
      rw [List.nodupKeys_cons] at hes
      obtain ⟨hempty, hlen⟩ := hnames e List.mem_cons_self
      obtain ⟨hscan, hscan', hvalue⟩ := himport e List.mem_cons_self
      obtain ⟨t, s₂, htext, hclose, hlast, hnext⟩ := exportEntries_cons e es exportEnd
      obtain ⟨a₁, hput, hrep⟩ := assocPut_new h e.2 hempty (hnew e List.mem_cons_self)
      have hpair : parsePair 1024 (10 * 1024) (10 * 1024) (str " \"" ++
          (e.1 ++ ch '"' :: (str " : \"" ++ (e.2 ++ ch '"' :: t)))) =
          .done (some (e.1, e.2), t) := by
        rw [parsePair_entry hscan hlen, parseStrLoop_scannable hscan' _ hvalue
          (by rw [List.length_nil]; omega)]
        rfl
      cases left with
      | zero => exact absurd hleft (Nat.not_succ_le_zero _)
      | succ left =>
          by_cases hes' : es = []
          · subst hes'
            have hcomma : parseChk (ch ',') s₂ = (false, str "]\n\x7d\n") := by
              rw [hlast rfl]
              rfl
            refine ⟨a₁, _, ?_, hrep, rfl⟩
            rw [htext, parseVectorLoop_round (newline_ne_nil _) (parseChk_open _) hpair hclose
              hput hcomma, if_pos rfl]
          · have hnew' : ∀ e' ∈ es, e'.1 ∉ m.snoc e.1 e.2 (hnew e List.mem_cons_self) := by
              intro e' he' hin
              rcases OrderedMap.mem_snoc.mp hin with hold | heq
              · exact hnew e' (List.mem_cons_of_mem _ he') hold
              · exact hes.1 (heq ▸ List.mem_keys_of_mem he')
            obtain ⟨a', m', hrun, hrep', hentries⟩ := ih hes' hes.2
              (fun e' he' => hnames e' (List.mem_cons_of_mem _ he'))
              (fun e' he' => himport e' (List.mem_cons_of_mem _ he'))
              (Nat.le_of_succ_le_succ hleft) hrep hnew'
            refine ⟨a', m', ?_, hrep', ?_⟩
            · rw [htext, parseVectorLoop_round (newline_ne_nil _) (parseChk_open _) hpair hclose
                hput (hnext hes'), if_neg (by decide), hrun]
            · rw [hentries, OrderedMap.snoc, List.append_assoc]
              rfl

/-- **Only importable entries come back.** -/
theorem importable_of_parseVectorLoop (es : List (Σ _ : CStr, CStr)) (hes : es.NodupKeys)
    (hnames : ∀ e ∈ es, e.1 ≠ [] ∧ e.1.length < 1024) {left : ℕ} {a a' : AssocArray}
    {m m' : AssocMap} {tail s' : CStr} {rc : ℤ} (h : Represents a m) (hnew : ∀ e ∈ es, e.1 ∉ m)
    (hrun : parseVectorLoop left (str "\n" ++ (exportEntries es ++ tail)) a = .done (rc, s', a'))
    (h' : Represents a' m') (hentries : m'.entries = m.entries ++ es) : ∀ e ∈ es, Importable e := by
  induction es generalizing left a m with
  | nil => exact nofun
  | cons e es ih =>
      rw [List.nodupKeys_cons] at hes
      obtain ⟨hempty, hlen⟩ := hnames e List.mem_cons_self
      obtain ⟨t, s₂, htext, hclose, -, hnext⟩ := exportEntries_cons e es tail
      -- the names come from the reader, so they are scannable
      have hscan : scannable e.1 = true := by
        obtain ⟨m₁, more, hrep, hmore, hscans⟩ := parseVectorLoop_append h hrun
        obtain rfl := hrep.unique h'
        rw [hentries] at hmore
        rw [← List.append_cancel_left hmore] at hscans
        exact hscans e List.mem_cons_self
      rw [htext] at hrun
      cases left with
      | zero => cases hrun
      | succ left =>
          obtain rfl | ⟨s₀, name, value, s₁, s₂', rc₁, a₁, hopen, hpair, hclose', hput, hrest⟩ :=
            parseVectorLoop_cases hrun
          · rw [h.unique h'] at hentries
            exact absurd (congrArg List.length hentries) (by simp)
          · cases (parseChk_open _).symm.trans hopen
            rw [parsePair_entry hscan hlen] at hpair
            obtain ⟨⟨found, s₁'⟩, hloop, hret⟩ := Checked.bind_eq_done.mp hpair
            cases found with
            | none => cases hret
            | some v =>
                cases hret
                obtain ⟨rc₂, a₂, m₁, more₁, hput₂, hrep₁, hentries₁, hmore₁, -⟩ :=
                  assocPut_append h e.1 value
                cases hput₂.symm.trans hput
                rw [hmore₁ hempty (hnew e List.mem_cons_self)] at hentries₁
                -- what was put in first is the first entry
                have hfirst : ∃ more, m'.entries = m₁.entries ++ more := by
                  obtain rfl | ⟨s₃, -, hrun'⟩ := hrest
                  · exact ⟨[], by rw [hrep₁.unique h', List.append_nil]⟩
                  · obtain ⟨m₂, more, hrep, hmore, -⟩ := parseVectorLoop_append hrep₁ hrun'
                    exact ⟨more, by rw [← hrep.unique h', hmore]⟩
                obtain ⟨more, hmore⟩ := hfirst
                rw [hentries, hentries₁, List.append_assoc] at hmore
                have hfirst := (List.cons.inj (List.append_cancel_left hmore)).1
                obtain rfl : value = e.2 := (congrArg (fun x => x.2) hfirst).symm
                obtain ⟨q, hq, ⟨hscan', hsplit, hvalue⟩ | ⟨rfl, -⟩ | ⟨hsplit, -, -⟩⟩ :=
                  parseStrLoop_some (by omega) hloop
                · obtain rfl : e.2 = q := hq
                  obtain rfl := (List.cons.inj (List.append_cancel_left hsplit)).2
                  refine List.forall_mem_cons.mpr ⟨⟨hscan, hscan', hvalue⟩, ?_⟩
                  cases hclose.symm.trans hclose'
                  by_cases hes' : es = []
                  · subst hes'
                    exact nofun
                  · obtain rfl | ⟨s₃, hcomma, hrun'⟩ := hrest
                    · rw [← hrep₁.unique h', hentries₁] at hentries
                      have hlength := congrArg List.length (List.append_cancel_left hentries)
                      exact absurd (List.length_eq_zero_iff.mp (by simpa using hlength)) hes'
                    · cases (hnext hes').symm.trans hcomma
                      refine ih hes.2 (fun e' he' => hnames e' (List.mem_cons_of_mem _ he')) hrep₁
                        ?_ hrun' ?_
                      · intro e' he' hin
                        rw [AList.mem_keys, AList.keys, hentries₁, List.keys_append,
                          List.mem_append] at hin
                        rcases hin with hold | heq
                        · exact hnew e' (List.mem_cons_of_mem _ he') hold
                        · exact hes.1 (List.mem_singleton.mp heq ▸ List.mem_keys_of_mem he')
                      · rw [hentries, hentries₁, List.append_assoc]
                        rfl
                · have hnone : parseChk (ch '\x7d') [] = (false, []) := by decide
                  cases hnone.symm.trans hclose'
                · obtain rfl : e.2 = q := hq
                  obtain rfl := List.append_cancel_left hsplit
                  have hquote : parseChk (ch '\x7d') (ch '"' :: t) = (false, ch '"' :: t) := rfl
                  cases hquote.symm.trans hclose'

end G7
