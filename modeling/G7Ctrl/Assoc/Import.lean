import G7Ctrl.Assoc.RoundTrip
import Mathlib.Data.List.DropRight

/-!
# Importing any text into an associative array

`assoc_import_from_json` puts the pairs into the array while it reads them, and looks only for the
closing brace after `_parse_vector` has come back, whatever that returned.

* `ExportDocument` — the texts that the exporter writes, apart from blanks, with strings that fit
  into the buffers of the reader.
* `VectorReads` — how far the vector of a text is read: the pairs in it, whether it is closed, and
  what is left.
* `ImportsSafely` — the promise: a document is in the array, or the array is as it was.
* **`importsSafely_iff`** — when it is kept.
-/

namespace G7

/-! ## Documents -/

/-- The next character. -/
def CharAt (c : Byte) (s rest : CStr) : Prop := parseSs s = c :: rest

/-- A string between quotes, with at most `size` bytes. -/
def StringAt (size : ℕ) (v s rest : CStr) : Prop :=
  scannable v = true ∧ v.length ≤ size ∧ CharAt (ch '"') s (v ++ ch '"' :: rest)

/-- The characters of a number. -/
def IsNumeric (c : Byte) : Prop := (ch '0' ≤ c ∧ c ≤ ch '9') ∨ c = ch '.'

instance (c : Byte) : Decidable (IsNumeric c) := inferInstanceAs (Decidable (_ ∨ _))

/-- A number, with at most `size` bytes. -/
def NumberAt (size : ℕ) (v s rest : CStr) : Prop :=
  (∃ c ∈ v.head?, ch '0' ≤ c ∧ c ≤ ch '9') ∧ (∀ c ∈ v, IsNumeric c) ∧ (∀ c ∈ rest.head?, ¬ IsNumeric c) ∧
    v.length ≤ size ∧ parseSs s = v ++ rest

/-- The header of a document, up to the colon behind the name of the pairs. -/
def HeaderAt (s rest : CStr) : Prop :=
  ∃ s₁ s₂ s₃ s₄ s₅ s₆ s₇ s₈ s₉ t₁ t₂ t₃ t₄ numValuesName numValues maxValuesName maxValues,
    CharAt (ch '\x7b') s s₁ ∧
    (StringAt 10238 exportIdName s₁ s₂ ∧ CharAt (ch ':') s₂ s₃ ∧
      StringAt 10238 exportIdNameVal s₃ s₄) ∧
    CharAt (ch ',') s₄ s₅ ∧
    (StringAt 10238 numValuesName s₅ s₆ ∧ CharAt (ch ':') s₆ s₇ ∧
      NumberAt 10239 numValues s₇ s₈) ∧
    CharAt (ch ',') s₈ s₉ ∧
    (StringAt 10238 maxValuesName s₉ t₁ ∧ CharAt (ch ':') t₁ t₂ ∧
      NumberAt 10239 maxValues t₂ t₃) ∧
    ∃ t₅, CharAt (ch ',') t₃ t₄ ∧ StringAt 62 exportPairsKey t₄ t₅ ∧ CharAt (ch ':') t₅ rest

/-- An entry of the vector. -/
def EntryAt (e : Σ _ : CStr, CStr) (s rest : CStr) : Prop :=
  ∃ s₁ s₂ s₃ s₄, CharAt (ch '\x7b') s s₁ ∧ StringAt 1023 e.1 s₁ s₂ ∧ CharAt (ch ':') s₂ s₃ ∧
    (StringAt 10238 e.2 s₃ s₄ ∨ NumberAt 10239 e.2 s₃ s₄) ∧ CharAt (ch '\x7d') s₄ rest

/-- The entries of the vector. -/
inductive EntriesAt : List (Σ _ : CStr, CStr) → CStr → CStr → Prop
  | last {e : Σ _ : CStr, CStr} {s rest : CStr} (h : EntryAt e s rest) : EntriesAt [e] s rest
  | more {e : Σ _ : CStr, CStr} {es : List (Σ _ : CStr, CStr)} {s s₁ s₂ rest : CStr}
      (h : EntryAt e s s₁) (hcomma : CharAt (ch ',') s₁ s₂) (hrest : EntriesAt es s₂ rest) :
      EntriesAt (e :: es) s rest

/-- A document with some pairs; what comes behind its last brace is not looked at. -/
def ExportDocument (es : List (Σ _ : CStr, CStr)) (s : CStr) : Prop :=
  ∃ s₁ s₂ s₃ s₄ rest, HeaderAt s s₁ ∧ CharAt (ch '[') s₁ s₂ ∧
    (EntriesAt es s₂ s₃ ∨ es = [] ∧ s₃ = s₂) ∧ CharAt (ch ']') s₃ s₄ ∧ CharAt (ch '\x7d') s₄ rest

/-! ## What is read -/

/-- `_parse_pair`, with the buffers of `_parse_vector`. -/
def parseEntryPair (s : CStr) : Checked (Option (CStr × CStr) × CStr) :=
  parsePair 1024 (10 * 1024) (10 * 1024) s

/-- An entry is read. -/
def EntryRead (e : Σ _ : CStr, CStr) (s rest : CStr) : Prop :=
  ∃ s₁ s₂, parseChk (ch '\x7b') s = (true, s₁) ∧
    parseEntryPair s₁ = .done (some (e.1, e.2), s₂) ∧ parseChk (ch '\x7d') s₂ = (true, rest)

/-- An entry breaks off: a brace is missing, or there is no pair. -/
def EntryBreaks (s rest : CStr) : Prop :=
  parseChk (ch '\x7b') s = (false, rest) ∨
    ∃ s₁, parseChk (ch '\x7b') s = (true, s₁) ∧
      (parseEntryPair s₁ = .done (none, rest) ∨
        ∃ p s₂, parseEntryPair s₁ = .done (some p, s₂) ∧
          parseChk (ch '\x7d') s₂ = (false, rest))

/-- How the entries are read: the pairs, whether there is a closing bracket behind the last one, and
what is left. -/
inductive EntriesRead : List (Σ _ : CStr, CStr) → Bool → CStr → CStr → Prop
  | breaks {s rest : CStr} (h : EntryBreaks s rest) : EntriesRead [] false s rest
  | last {e : Σ _ : CStr, CStr} {closed : Bool} {s s₁ s₂ rest : CStr} (h : EntryRead e s s₁)
      (hcomma : parseChk (ch ',') s₁ = (false, s₂)) (hclose : parseChk (ch ']') s₂ = (closed, rest)) :
      EntriesRead [e] closed s rest
  | more {e : Σ _ : CStr, CStr} {es : List (Σ _ : CStr, CStr)} {closed : Bool} {s s₁ s₂ rest : CStr}
      (h : EntryRead e s s₁) (hcomma : parseChk (ch ',') s₁ = (true, s₂))
      (hrest : EntriesRead es closed s₂ rest) : EntriesRead (e :: es) closed s rest

/-- How a vector is read. -/
def VectorReads (es : List (Σ _ : CStr, CStr)) (closed : Bool) (s rest : CStr) : Prop :=
  (parseChk (ch '[') s = (false, rest) ∧ es = [] ∧ closed = false) ∨
    ∃ s₁, parseChk (ch '[') s = (true, s₁) ∧ EntriesRead es closed s₁ rest

/-! ## The promise -/

/-- **An import is safe**: it ends without writing behind a buffer, and returns 0 for a document
whose pairs are then in the array, or -1 with the pairs of the array as they were. -/
def ImportsSafely (a : AssocArray) (m : AssocMap) (buf : CStr) : Prop :=
  ∃ rc a' m', assocImportFromJson a buf = .done (rc, a') ∧ Represents a' m' ∧
    (rc = 0 ∧ (∃ es, ExportDocument es buf ∧ ∀ e ∈ es, m'.lookup e.1 = some e.2) ∨
      rc = -1 ∧ m' = m)

/-- The pairs have names, and none disagrees with the array or with another one. -/
def Agree (m : AssocMap) (es : List (Σ _ : CStr, CStr)) : Prop :=
  ∀ e ∈ es, e.1 ≠ [] ∧ (e.1 ∈ m → m.lookup e.1 = some e.2) ∧ ∀ e' ∈ es, e'.1 = e.1 → e'.2 = e.2

/-- The text breaks off where there is no brace, and all pairs before that place have names that are
in the array or no name at all. -/
def BreaksHarmlessly (m : AssocMap) (buf : CStr) : Prop :=
  ∃ s es closed rest, importHeader buf = .done (some s) ∧ VectorReads es closed s rest ∧
    (parseSs rest).head? ≠ some (ch '\x7d') ∧ ∀ e ∈ es, e.1 = [] ∨ e.1 ∈ m

/-! ## Characters, strings and numbers -/

section

variable {c : Byte} {s s' rest v : CStr} {size sz maxlen : ℕ}

lemma length_parseSs_le (s : CStr) : (parseSs s).length ≤ s.length :=
  (List.dropWhile_sublist _).length_le

lemma parseSs_parseSs (s : CStr) : parseSs (parseSs s) = parseSs s := by
  rw [parseSs, parseSs, List.dropWhile_idempotent]

lemma head?_ne {d : Byte} (h : c ≠ d) : (c :: s).head? ≠ some d :=
  fun heq => h (Option.some.inj heq)

lemma charAt_iff (hc : c ≠ 0) : CharAt c s rest ↔ parseChk c s = (true, rest) := by
  rw [CharAt, parseChk]
  cases parseSs s with
  | nil => simp [hc]
  | cons d ds =>
      dsimp only
      split_ifs with hd
      · simp [hd]
      · simp [hd]

/-- A character that is missing leaves what is behind the blanks. -/
lemma parseChk_eq_false (hc : c ≠ 0) :
    parseChk c s = (false, rest) ↔ rest = parseSs s ∧ (parseSs s).head? ≠ some c := by
  rw [parseChk]
  cases parseSs s with
  | nil => simp [hc, eq_comm]
  | cons d ds =>
      dsimp only
      split_ifs with hd
      · simp [hd]
      · have hne : (d :: ds).head? ≠ some c := fun h => hd (Option.some.inj h)
        rw [Prod.mk.injEq, and_iff_right rfl, and_iff_left hne, eq_comm]

lemma parseChk_fst (hc : c ≠ 0) : (parseChk c s).1 = decide ((parseSs s).head? = some c) := by
  rw [parseChk]
  cases parseSs s with
  | nil => simp [hc]
  | cons d ds =>
      dsimp only
      split_ifs with hd
      · simp [hd]
      · simp [hd]

/-- A character that is read is behind the start. -/
lemma length_parseChk_lt (hc : c ≠ 0) (h : parseChk c s = (true, rest)) :
    rest.length < s.length := by
  have hle := length_parseSs_le s
  rw [(charAt_iff hc).mpr h, List.length_cons] at hle
  omega

/-- **A string of a document is read.** -/
lemma StringAt.parse (h : StringAt size v s rest) (hsz : size < sz) (hmax : size + 2 ≤ maxlen) :
    parseStr sz maxlen s = .done (some v, rest) := by
  obtain ⟨hscan, hlen, hchar⟩ := h
  rw [parseStr, hchar]
  change (if ch '"' ≠ ch '"' then _ else if sz = 0 then _ else _) = _
  rw [if_neg (not_not.mpr rfl), if_neg (by omega), parseStrLoop_scannable hscan rest (by omega)
    (by rw [List.length_nil]; omega)]
  rfl

lemma parseNumberLoop_numeric {val : CStr} (hv : ∀ c ∈ v, IsNumeric c)
    (hrest : ∀ c ∈ rest.head?, ¬ IsNumeric c) (hmax : v.length + 1 ≤ maxlen)
    (hsz : val.length + v.length < sz) :
    parseNumberLoop sz (v ++ rest) maxlen val = .done (some (val ++ v), rest) := by
  induction v generalizing maxlen val with
  | nil =>
      rw [List.nil_append, List.append_nil]
      cases rest with
      | nil => exact if_pos hsz
      | cons c cs =>
          rw [parseNumberLoop, if_neg (fun h => hrest c rfl h.2)]
          exact if_pos hsz
  | cons c v ih =>
      obtain ⟨hc, hv⟩ := List.forall_mem_cons.mp hv
      rw [List.length_cons] at hmax hsz
      rw [List.cons_append, parseNumberLoop, if_pos ⟨by omega, hc⟩, putVal_of_lt (by omega),
        Checked.done_bind, ih hv (by omega) (by
          rw [List.length_append, List.length_singleton]
          omega), List.append_assoc, List.singleton_append]

/-- **A number of a document is read.** -/
lemma NumberAt.parse (h : NumberAt size v s rest) (hsz : size < sz) (hmax : size + 1 ≤ maxlen) :
    parseNumber sz maxlen s = .done (some v, rest) := by
  obtain ⟨⟨c, hc, hdigit⟩, hv, hrest, hlen, hs⟩ := h
  obtain ⟨v, rfl⟩ := List.head?_eq_some_iff.mp hc
  rw [parseNumber, if_neg (by omega), hs]
  change (if c < ch '0' ∨ ch '9' < c then _ else _) = _
  rw [if_neg (by rw [not_or, UInt8.not_lt, UInt8.not_lt]; exact hdigit)]
  exact parseNumberLoop_numeric hv hrest (by omega) (by rw [List.length_nil]; omega)

end

/-! ## Documents are read -/

section

variable {s s' rest v : CStr} {e : Σ _ : CStr, CStr} {es : List (Σ _ : CStr, CStr)}

lemma parsePairWith_eq_some {value : CStr → Checked (Option CStr × CStr)} {nameSize maxlen : ℕ}
    {s₁ s₂ name val : CStr} (hname : parseStr nameSize maxlen s = .done (some name, s₁))
    (hcolon : CharAt (ch ':') s₁ s₂) (hvalue : value s₂ = .done (some val, rest)) :
    parsePairWith value nameSize maxlen s = .done (some (name, val), rest) := by
  have hchk := (charAt_iff (by decide)).mp hcolon
  rw [parsePairWith, hname, Checked.done_bind]
  simp only [hchk]
  change (value s₂ >>= _) = _
  rw [hvalue]
  rfl

/-- The entry of a document is read. -/
lemma EntryAt.read (h : EntryAt e s rest) : EntryRead e s rest := by
  obtain ⟨s₁, s₂, s₃, s₄, hopen, hname, hcolon, hvalue, hclose⟩ := h
  refine ⟨s₁, s₄, (charAt_iff (by decide)).mp hopen, ?_, (charAt_iff (by decide)).mp hclose⟩
  have hread : parseStr 1024 (10 * 1024) s₁ = .done (some e.1, s₂) :=
    hname.parse (by decide) (by decide)
  rw [parseEntryPair, parsePair]
  refine parsePairWith_eq_some hread hcolon ?_
  obtain hstring | hnumber := hvalue
  · have hquote : (parseSs s₃).head? = some (ch '"') := by rw [hstring.2.2]; rfl
    rw [if_pos hquote]
    exact hstring.parse (by decide) (by decide)
  · have hquote : (parseSs s₃).head? ≠ some (ch '"') := by
      obtain ⟨⟨c, hc, hdigit⟩, -, -, -, hs⟩ := id hnumber
      obtain ⟨v, hv⟩ := List.head?_eq_some_iff.mp hc
      rw [hs, hv]
      rintro hquote
      obtain rfl : c = ch '"' := Option.some.inj hquote
      exact absurd hdigit (by decide)
    rw [if_neg hquote]
    exact hnumber.parse (by decide) (by decide)

/-- The entries of a document are read. -/
lemma EntriesAt.read (h : EntriesAt es s s') (hclose : CharAt (ch ']') s' rest) :
    EntriesRead es true s rest := by
  induction h with
  | @last e s s' h =>
      have hcomma : parseChk (ch ',') s' = (false, parseSs s') := by
        rw [parseChk_eq_false (by decide), hclose]
        exact ⟨rfl, head?_ne (by decide)⟩
      have hagain : parseChk (ch ']') (parseSs s') = (true, rest) := by
        rw [← charAt_iff (by decide), CharAt, parseSs_parseSs]
        exact hclose
      exact .last h.read hcomma hagain
  | more h hcomma _ ih => exact .more h.read ((charAt_iff (by decide)).mp hcomma) (ih hclose)

/-- The header of a document is read. -/
lemma HeaderAt.read (h : HeaderAt s rest) : importHeader s = .done (some rest) := by
  obtain ⟨s₁, s₂, s₃, s₄, s₅, s₆, s₇, s₈, s₉, t₁, t₂, t₃, t₄, n₁, v₁, n₂, v₂, hopen,
    ⟨hid, hidColon, hidValue⟩, hcomma, ⟨hnum, hnumColon, hnumValue⟩, hcomma', ⟨hmax, hmaxColon, hmaxValue⟩,
    t₅, hcomma'', hpairs, hcolon⟩ := h
  have hpair : parsePairStr (10 * 1024) (10 * 1024) (10 * 1024) s₁ =
      .done (some (exportIdName, exportIdNameVal), s₄) :=
    parsePairWith_eq_some (hid.parse (by decide) (by decide)) hidColon
      (hidValue.parse (by decide) (by decide))
  have hpair' : parsePairNumber (10 * 1024) (10 * 1024) (10 * 1024) s₅ = .done (some (n₁, v₁), s₈) :=
    parsePairWith_eq_some (hnum.parse (by decide) (by decide)) hnumColon
      (hnumValue.parse (by decide) (by decide))
  have hpair'' : parsePairNumber (10 * 1024) (10 * 1024) (10 * 1024) s₉ = .done (some (n₂, v₂), t₃) :=
    parsePairWith_eq_some (hmax.parse (by decide) (by decide)) hmaxColon
      (hmaxValue.parse (by decide) (by decide))
  have hkey : parseStr 64 64 t₄ = .done (some exportPairsKey, t₅) :=
    hpairs.parse (by decide) (by decide)
  rw [charAt_iff (by decide)] at hopen hcomma hcomma' hcomma'' hcolon
  rw [importHeader, hopen]
  simp only [Bool.true_eq_false, if_false, hpair, Checked.done_bind, ne_eq, not_true, hcomma,
    hpair', reduceCtorEq, hcomma', hpair'', hcomma'', hkey, hcolon, if_true, Checked.pure_eq]

/-- **A document with pairs is read** to its closing brace. -/
lemma ExportDocument.read (h : ExportDocument es s) (hne : es ≠ []) :
    ∃ s₁ rest, importHeader s = .done (some s₁) ∧ VectorReads es true s₁ rest ∧
      (parseSs rest).head? = some (ch '}') := by
  obtain ⟨s₁, s₂, s₃, s₄, rest, hheader, hopen, hentries | ⟨hnil, -⟩, hclose, hbrace⟩ := h
  · exact ⟨s₁, s₄, hheader.read,
      .inr ⟨s₂, (charAt_iff (by decide)).mp hopen, hentries.read hclose⟩, by rw [hbrace]; rfl⟩
  · exact absurd hnil hne

/-- A document without pairs breaks off at the closing bracket. -/
lemma ExportDocument.read_nil (h : ExportDocument [] s) :
    ∃ s₁ rest, importHeader s = .done (some s₁) ∧ VectorReads [] false s₁ rest ∧
      (parseSs rest).head? ≠ some (ch '}') := by
  obtain ⟨s₁, s₂, s₃, s₄, rest, hheader, hopen, hentries | ⟨-, rfl⟩, hclose, hbrace⟩ := h
  · cases hentries
  · have hbreaks : parseChk (ch '{') s₃ = (false, parseSs s₃) := by
      rw [parseChk_eq_false (by decide), hclose]
      exact ⟨rfl, head?_ne (by decide)⟩
    refine ⟨s₁, parseSs s₃, hheader.read,
      .inr ⟨s₃, (charAt_iff (by decide)).mp hopen, .breaks (.inl hbreaks)⟩, ?_⟩
    rw [parseSs_parseSs, hclose]
    exact head?_ne (by decide)

end

/-! ## What the reader puts in -/

/-- The pairs that have a name. -/
def named (es : List (Σ _ : CStr, CStr)) : List (Σ _ : CStr, CStr) :=
  es.filter fun e => e.1 ≠ []

section

variable {a a' : AssocArray} {m : AssocMap} {s s' rest : CStr} {e : Σ _ : CStr, CStr}
  {es : List (Σ _ : CStr, CStr)} {closed : Bool} {left : ℕ} {rc : ℤ}

/-- A pair is put in, if it has a name and that is new. -/
lemma assocPut_putAll (h : Represents a m) (e : Σ _ : CStr, CStr) :
    ∃ rc a', assocPut putDepth a e.1 e.2 = .done (rc, a') ∧
      Represents a' (m.putAll (named [e])) := by
  by_cases hname : e.1 = []
  · have hnone : named [e] = [] := List.filter_cons_of_neg (by simpa using hname)
    rw [hnone]
    exact ⟨-1, a, if_pos hname, h⟩
  · have hone : named [e] = [e] := List.filter_cons_of_pos (by simpa using hname)
    rw [hone, OrderedMap.putAll_cons, OrderedMap.putAll_nil, OrderedMap.putNew]
    split_ifs with hmem
    · exact ⟨-2, a, assocPut_present h e.2 hname hmem 1, h⟩
    · obtain ⟨a', hput, hrep⟩ := assocPut_new h e.2 hname hmem
      exact ⟨0, a', hput, hrep⟩

lemma putAll_named_cons (m : AssocMap) (e : Σ _ : CStr, CStr) (es : List (Σ _ : CStr, CStr)) :
    m.putAll (named (e :: es)) = (m.putAll (named [e])).putAll (named es) := by
  rw [OrderedMap.putAll, OrderedMap.putAll, OrderedMap.putAll, ← List.foldl_append, named, named,
    named, ← List.filter_append]
  rfl

/-- An entry that breaks off ends the loop. -/
lemma parseVectorLoop_breaks (h : EntryBreaks s rest) (hs : s ≠ []) :
    parseVectorLoop (left + 1) s a = .done (-1, rest, a) := by
  rw [parseVectorLoop, if_neg hs]
  obtain hopen | ⟨s₁, hopen, hpair | ⟨p, s₂, hpair, hclose⟩⟩ := h
  · simp only [hopen, if_true, Checked.pure_eq]
  · simp only [hopen, Bool.true_eq_false, if_false]
    rw [← parseEntryPair, hpair]
    rfl
  · simp only [hopen, Bool.true_eq_false, if_false]
    rw [← parseEntryPair, hpair]
    simp only [Checked.done_bind, hclose, if_true, Checked.pure_eq]

/-- The end of the text is where an entry breaks off. -/
lemma entryBreaks_nil (h : EntryBreaks [] rest) : rest = [] := by
  have hnone : parseChk (ch '{') [] = (false, []) := by decide
  obtain hopen | ⟨s₁, hopen, -⟩ := h
  · cases hnone.symm.trans hopen
    rfl
  · cases hnone.symm.trans hopen

lemma entryRead_ne_nil (h : EntryRead e s rest) : s ≠ [] := by
  rintro rfl
  obtain ⟨s₁, s₂, hopen, -⟩ := h
  have hnone : parseChk (ch '{') [] = (false, []) := by decide
  cases hnone.symm.trans hopen

/-- An entry that is read is put in, and the loop goes on behind a comma. -/
lemma parseVectorLoop_read {s₁ s₂ : CStr} {comma : Bool} (h : EntryRead e s s₁)
    (hput : assocPut putDepth a e.1 e.2 = .done (rc, a'))
    (hcomma : parseChk (ch ',') s₁ = (comma, s₂)) :
    parseVectorLoop (left + 1) s a =
      if comma = false then .done (0, s₂, a') else parseVectorLoop left s₂ a' := by
  have hs := entryRead_ne_nil h
  obtain ⟨t₁, t₂, hopen, hpair, hclose⟩ := h
  exact parseVectorLoop_round hs hopen hpair hclose hput hcomma

lemma length_parseStr_le {size maxlen : ℕ} {v : CStr} (hmax : 1 ≤ maxlen)
    (h : parseStr size maxlen s = .done (some v, rest)) : rest.length ≤ s.length := by
  obtain ⟨cs, hs, hloop⟩ := parseStr_some h
  have hle := length_parseSs_le s
  rw [hs, List.length_cons] at hle
  obtain ⟨q, -, ⟨-, rfl, -⟩ | ⟨rfl, -⟩ | ⟨rfl, -⟩⟩ := parseStrLoop_some hmax hloop
  · rw [List.length_append, List.length_cons] at hle
    omega
  · exact Nat.zero_le _
  · rw [List.length_append] at hle
    omega

lemma length_parseNumberLoop_le {size maxlen : ℕ} {v val : CStr}
    (h : parseNumberLoop size s maxlen val = .done (some v, rest)) : rest.length ≤ s.length := by
  induction s generalizing maxlen val with
  | nil =>
      rw [parseNumberLoop] at h
      split_ifs at h
      cases h
      exact le_rfl
  | cons c s ih =>
      rw [parseNumberLoop] at h
      split_ifs at h
      · obtain ⟨val', -, h⟩ := Checked.bind_eq_done.mp h
        exact (ih h).trans (Nat.le_succ _)
      · cases h
        exact le_rfl

lemma length_parseNumber_le {size maxlen : ℕ} {v : CStr}
    (h : parseNumber size maxlen s = .done (some v, rest)) : rest.length ≤ s.length := by
  have hle := length_parseSs_le s
  rw [parseNumber] at h
  split_ifs at h
  cases hs : parseSs s with
  | nil =>
      rw [hs] at h
      cases h
  | cons c cs =>
      rw [hs] at h hle
      dsimp only at h
      split_ifs at h
      · cases h
      · exact (length_parseNumberLoop_le h).trans hle

/-- An entry has at least a character. -/
lemma EntryRead.length_lt (h : EntryRead e s rest) : rest.length < s.length := by
  obtain ⟨s₁, s₂, hopen, hpair, hclose⟩ := h
  rw [parseEntryPair, parsePair] at hpair
  obtain ⟨t₁, t₂, hname, hcolon, hvalue⟩ := parsePairWith_some hpair
  have hvalue' : s₂.length ≤ t₂.length := by
    split_ifs at hvalue
    · exact length_parseStr_le (by decide) hvalue
    · exact length_parseNumber_le hvalue
  have h₁ := length_parseChk_lt (by decide) hopen
  have h₂ := length_parseStr_le (by decide) hname
  have h₃ := length_parseChk_lt (by decide) hcolon
  have h₄ := length_parseChk_lt (by decide) hclose
  omega

/-- **How the loop reads the entries.** -/
lemma EntriesRead.run (h : EntriesRead es closed s rest) (ha : Represents a m)
    (hleft : s.length ≤ left) :
    ∃ rc s' a', parseVectorLoop left s a = .done (rc, s', a') ∧
      Represents a' (m.putAll (named es)) ∧
      (rc = -1 ∧ closed = false ∧ s' = rest ∨
        rc = 0 ∧ parseChk (ch ']') s' = (closed, rest)) := by
  induction h generalizing a m left with
  | @breaks s rest h =>
      by_cases hs : s = []
      · subst hs
        obtain rfl := entryBreaks_nil h
        refine ⟨0, [], a, ?_, ha, .inr ⟨rfl, by decide⟩⟩
        cases left with
        | zero => rfl
        | succ left => rw [parseVectorLoop, if_pos rfl, Checked.pure_eq]
      · obtain ⟨left, rfl⟩ := Nat.exists_eq_succ_of_ne_zero
          (show left ≠ 0 from fun hzero => hs (List.eq_nil_of_length_eq_zero (by omega)))
        exact ⟨-1, rest, a, parseVectorLoop_breaks h hs, ha, .inl ⟨rfl, rfl, rfl⟩⟩
  | @last e closed s s₁ s₂ rest h hcomma hclose =>
      obtain ⟨left, rfl⟩ := Nat.exists_eq_succ_of_ne_zero
        (show left ≠ 0 from fun hzero => by have := h.length_lt; omega)
      obtain ⟨rc, a', hput, ha'⟩ := assocPut_putAll ha e
      exact ⟨0, s₂, a', (parseVectorLoop_read h hput hcomma).trans (if_pos rfl), ha',
        .inr ⟨rfl, hclose⟩⟩
  | @more e es closed s s₁ s₂ rest h hcomma _ ih =>
      have hlt := h.length_lt
      have hlt' := length_parseChk_lt (by decide) hcomma
      obtain ⟨left, rfl⟩ := Nat.exists_eq_succ_of_ne_zero (show left ≠ 0 by omega)
      obtain ⟨rc, a₁, hput, ha₁⟩ := assocPut_putAll ha e
      obtain ⟨rc', s', a', hrun, ha', hend⟩ := ih ha₁ (show s₂.length ≤ left by omega)
      rw [putAll_named_cons]
      exact ⟨rc', s', a',
        ((parseVectorLoop_read h hput hcomma).trans (if_neg (by decide))).trans hrun, ha', hend⟩

/-- **How `_parse_vector` reads a vector.** -/
lemma VectorReads.run (h : VectorReads es closed s rest) (ha : Represents a m) :
    ∃ a', parseVector s a = .done (if closed then 0 else -1, rest, a') ∧
      Represents a' (m.putAll (named es)) := by
  obtain ⟨hopen, rfl, rfl⟩ | ⟨s₁, hopen, hentries⟩ := h
  · refine ⟨a, ?_, ha⟩
    rw [parseVector, hopen]
    rfl
  · obtain ⟨rc, s', a', hrun, ha', ⟨rfl, rfl, rfl⟩ | ⟨rfl, hclose⟩⟩ := hentries.run ha le_rfl
    · refine ⟨a', ?_, ha'⟩
      rw [parseVector, hopen]
      simp only [Bool.true_eq_false, if_false, hrun, Checked.done_bind, if_true, Checked.pure_eq]
      rfl
    · refine ⟨a', ?_, ha'⟩
      rw [parseVector, hopen]
      simp only [Bool.true_eq_false, if_false, hrun, Checked.done_bind, hclose, Checked.pure_eq]
      rfl

/-- **A loop that ends has read the entries** in some way. -/
lemma exists_entriesRead (h : parseVectorLoop left s a = .done (rc, s', a')) :
    ∃ es closed rest, EntriesRead es closed s rest := by
  have hnil : EntriesRead [] false [] [] := .breaks (.inl (by decide))
  induction left generalizing s a with
  | zero =>
      rw [parseVectorLoop] at h
      split_ifs at h with hs
      exact ⟨[], false, [], hs ▸ hnil⟩
  | succ left ih =>
      rw [parseVectorLoop] at h
      split_ifs at h with hs
      · exact ⟨[], false, [], hs ▸ hnil⟩
      · rcases hopen : parseChk (ch '\x7b') s with ⟨opening, s₁⟩
        rw [hopen] at h
        cases opening with
        | false => exact ⟨[], false, s₁, .breaks (.inl hopen)⟩
        | true =>
            obtain ⟨⟨pair, s₂⟩, hpair, h⟩ := Checked.bind_eq_done.mp h
            cases pair with
            | none => exact ⟨[], false, s₂, .breaks (.inr ⟨s₁, hopen, .inl hpair⟩)⟩
            | some pair =>
                obtain ⟨name, value⟩ := pair
                rcases hclose : parseChk (ch '\x7d') s₂ with ⟨closing, s₃⟩
                simp only [hclose] at h
                cases closing with
                | false =>
                    exact ⟨[], false, s₃, .breaks (.inr ⟨s₁, hopen, .inr ⟨_, s₂, hpair, hclose⟩⟩)⟩
                | true =>
                    have hread : EntryRead ⟨name, value⟩ s s₃ := ⟨s₁, s₂, hopen, hpair, hclose⟩
                    obtain ⟨⟨rc₁, a₁⟩, -, h⟩ := Checked.bind_eq_done.mp h
                    rcases hcomma : parseChk (ch ',') s₃ with ⟨comma, s₄⟩
                    simp only [hcomma] at h
                    cases comma with
                    | false => exact ⟨_, _, _, .last hread hcomma rfl⟩
                    | true =>
                        obtain ⟨es, closed, rest, hrest⟩ := ih h
                        exact ⟨_, closed, rest, .more hread hcomma hrest⟩

lemma exists_vectorReads {r : ℤ × CStr × AssocArray} (h : parseVector s a = .done r) :
    ∃ es closed rest, VectorReads es closed s rest := by
  rcases hopen : parseChk (ch '[') s with ⟨opening, s₁⟩
  rw [parseVector, hopen] at h
  cases opening with
  | false => exact ⟨[], false, s₁, .inl ⟨hopen, rfl, rfl⟩⟩
  | true =>
      obtain ⟨⟨rc, s', a'⟩, hrun, -⟩ := Checked.bind_eq_done.mp h
      obtain ⟨es, closed, rest, hentries⟩ := exists_entriesRead hrun
      exact ⟨es, closed, rest, .inr ⟨s₁, hopen, hentries⟩⟩

/-! ## The import -/

variable {buf : CStr}

/-- **What the import returns** for a text whose header can be read. -/
lemma assocImportFromJson_reads (hheader : importHeader buf = .done (some s))
    (h : VectorReads es closed s rest) (ha : Represents a m) :
    ∃ a', assocImportFromJson a buf =
        .done (if (parseSs rest).head? = some (ch '\x7d') then 0 else -1, a') ∧
      Represents a' (m.putAll (named es)) := by
  obtain ⟨a', hrun, ha'⟩ := h.run ha
  refine ⟨a', ?_, ha'⟩
  rw [assocImportFromJson, hheader, Checked.done_bind]
  simp only [hrun, Checked.done_bind, parseChk_fst (show ch '\x7d' ≠ 0 by decide),
    decide_eq_true_eq, Checked.pure_eq]

lemma putAll_named_eq_self_iff :
    m.putAll (named es) = m ↔ ∀ e ∈ es, e.1 = [] ∨ e.1 ∈ m := by
  rw [OrderedMap.putAll_eq_self_iff]
  simp only [named, List.mem_filter, decide_eq_true_eq, and_imp, or_iff_not_imp_left]

lemma named_eq_self_iff : named es = es ↔ ∀ e ∈ es, e.1 ≠ [] := by
  rw [named, List.filter_eq_self]
  simp only [decide_eq_true_eq]

/-- All pairs are found just if they agree with the array and each other. -/
lemma lookup_putAll_named_iff (hnil : [] ∉ m) :
    (∀ e ∈ es, (m.putAll (named es)).lookup e.1 = some e.2) ↔ Agree m es := by
  have hagree : Agree m es ↔ (∀ e ∈ es, e.1 ≠ []) ∧ ∀ e ∈ es,
      (e.1 ∈ m → m.lookup e.1 = some e.2) ∧ ∀ e' ∈ es, e'.1 = e.1 → e'.2 = e.2 :=
    forall₂_and
  rw [hagree]
  by_cases hnames : ∀ e ∈ es, e.1 ≠ []
  · rw [named_eq_self_iff.mpr hnames, OrderedMap.lookup_putAll_iff, and_iff_right hnames]
  · refine iff_of_false (fun h => hnames ?_) fun h => hnames h.1
    intro e he hempty
    have hlook := h e he
    have hnone : (named es).dlookup [] = none := by
      refine List.dlookup_eq_none.mpr fun hkey => ?_
      obtain ⟨v, hv⟩ := List.exists_of_mem_keys hkey
      exact absurd rfl (of_decide_eq_true (List.mem_filter.mp hv).2)
    rw [hempty, OrderedMap.lookup_putAll, AList.lookup_eq_none.mpr hnil, Option.none_or,
      hnone] at hlook
    cases hlook

/-- **When an import is safe**: the text is a document with pairs, all of which have names and agree
with the array and each other; or its header cannot be read, or it breaks off harmlessly. -/
theorem importsSafely_iff (ha : Represents a m) (buf : CStr) :
    ImportsSafely a m buf ↔
      (∃ es, es ≠ [] ∧ ExportDocument es buf ∧ Agree m es) ∨ importHeader buf = .done none ∨
        BreaksHarmlessly m buf := by
  have hnil : [] ∉ m := fun hmem => ha.names [] hmem rfl
  constructor
  · rintro ⟨rc, a', m', hrun, ha', h⟩
    obtain ⟨header, hheader, hrest⟩ := Checked.bind_eq_done.mp hrun
    cases header with
    | none => exact .inr (.inl hheader)
    | some s =>
        obtain ⟨r, hvector, -⟩ := Checked.bind_eq_done.mp hrest
        obtain ⟨es, closed, rest, hreads⟩ := exists_vectorReads hvector
        obtain ⟨a'', hrun', ha''⟩ := assocImportFromJson_reads hheader hreads ha
        by_cases hbrace : (parseSs rest).head? = some (ch '\x7d')
        · rw [if_pos hbrace] at hrun'
          cases hrun'.symm.trans hrun
          obtain ⟨-, es', hdoc, hlook⟩ | ⟨hrc, -⟩ := h
          · have hne : es' ≠ [] := by
              rintro rfl
              obtain ⟨s', rest', hheader', hreads', hbrace'⟩ := hdoc.read_nil
              obtain ⟨a₁, hrun₁, -⟩ := assocImportFromJson_reads hheader' hreads' ha
              rw [if_neg hbrace'] at hrun₁
              cases hrun₁.symm.trans hrun
            obtain ⟨s', rest', hheader', hreads', hbrace'⟩ := hdoc.read hne
            obtain ⟨a₁, hrun₁, ha₁⟩ := assocImportFromJson_reads hheader' hreads' ha
            rw [if_pos hbrace'] at hrun₁
            cases hrun₁.symm.trans hrun
            rw [ha'.unique ha₁] at hlook
            exact .inl ⟨es', hne, hdoc, (lookup_putAll_named_iff hnil).mp hlook⟩
          · exact absurd hrc (by decide)
        · rw [if_neg hbrace] at hrun'
          cases hrun'.symm.trans hrun
          obtain ⟨hrc, -⟩ | ⟨-, hsame⟩ := h
          · exact absurd hrc (by decide)
          · rw [ha'.unique ha''] at hsame
            exact .inr (.inr ⟨s, es, closed, rest, hheader, hreads, hbrace,
              putAll_named_eq_self_iff.mp hsame⟩)
  · rintro (⟨es, hne, hdoc, hagree⟩ | hheader | ⟨s, es, closed, rest, hheader, hreads, hbrace, hold⟩)
    · obtain ⟨s, rest, hheader, hreads, hbrace⟩ := hdoc.read hne
      obtain ⟨a', hrun, ha'⟩ := assocImportFromJson_reads hheader hreads ha
      rw [if_pos hbrace] at hrun
      exact ⟨0, a', _, hrun, ha', .inl ⟨rfl, es, hdoc, (lookup_putAll_named_iff hnil).mpr hagree⟩⟩
    · refine ⟨-1, a, m, ?_, ha, .inr ⟨rfl, rfl⟩⟩
      rw [assocImportFromJson, hheader]
      rfl
    · obtain ⟨a', hrun, ha'⟩ := assocImportFromJson_reads hheader hreads ha
      rw [if_neg hbrace] at hrun
      exact ⟨-1, a', _, hrun, ha', .inr ⟨rfl, putAll_named_eq_self_iff.mpr hold⟩⟩

end

/-- A document with one pair. -/
def onePair : CStr :=
  str "\x7b\"_id\":\"assoc_array\",\"n\":1,\"m\":4,\"pairs\":[\x7b\"a\":\"b\"\x7d]\x7d"

lemma exportDocument_onePair : ExportDocument [⟨str "a", str "b"⟩] onePair := by
  have hheader : HeaderAt onePair (str "[\x7b\"a\":\"b\"\x7d]\x7d") :=
    ⟨_, _, _, _, _, _, _, _, _, _, _, _, _, str "n", str "1", str "m", str "4", rfl,
      ⟨⟨by decide, by decide, rfl⟩, rfl, ⟨by decide, by decide, rfl⟩⟩, rfl,
      ⟨⟨by decide, by decide, rfl⟩, rfl, ⟨_, rfl, by decide +kernel⟩, by decide +kernel,
        by decide +kernel, by decide, rfl⟩,
      rfl,
      ⟨⟨by decide, by decide, rfl⟩, rfl, ⟨_, rfl, by decide +kernel⟩, by decide +kernel,
        by decide +kernel, by decide, rfl⟩,
      _, rfl, ⟨by decide, by decide, rfl⟩, rfl⟩
  have hentry : EntryAt ⟨str "a", str "b"⟩ (str "\x7b\"a\":\"b\"\x7d]\x7d") (str "]\x7d") :=
    ⟨_, _, _, _, rfl, ⟨by decide, by decide, rfl⟩, rfl, .inl ⟨by decide, by decide, rfl⟩, rfl⟩
  exact ⟨_, _, _, _, _, hheader, rfl, .inl (.last hentry), rfl, rfl⟩

theorem importsSafely_onePair : Represents (arrayOf ∅) ∅ ∧ ImportsSafely (arrayOf ∅) ∅ onePair := by
  have ha : Represents (arrayOf ∅) ∅ := represents_arrayOf (by decide)
  refine ⟨ha, (importsSafely_iff ha onePair).mpr (.inl ⟨_, by decide, exportDocument_onePair, ?_⟩)⟩
  exact List.forall_mem_singleton.mpr
    ⟨by decide, fun h => absurd h (AList.notMem_empty _), List.forall_mem_singleton.mpr fun _ => rfl⟩

/-- A vector that is not closed leaves its pair in the array. -/
theorem openVector_not_importsSafely : Represents (arrayOf ∅) ∅ ∧ ¬ ImportsSafely (arrayOf ∅) ∅
    (str "\x7b\"_id\":\"assoc_array\",\"n\":1,\"m\":4,\"pairs\":[\x7b\"a\":\"b\"\x7d") := by
  refine ⟨represents_arrayOf (by decide), ?_⟩
  rintro ⟨rc, a', m', hrun, ha', h⟩
  have hcall : assocImportFromJson (arrayOf ∅)
      (str "\x7b\"_id\":\"assoc_array\",\"n\":1,\"m\":4,\"pairs\":[\x7b\"a\":\"b\"\x7d") =
      .done (-1, ⟨cellOf ⟨str "a", str "b"⟩ :: List.replicate 3 .empty, 1, 4⟩) := by
    decide +kernel
  cases hcall.symm.trans hrun
  obtain ⟨hrc, -⟩ | ⟨-, rfl⟩ := h
  · exact absurd hrc (by decide)
  · exact absurd ha'.num (by decide)

end G7
