import G7Ctrl.Assoc.Reader
import G7Ctrl.Xstr.Number

/-!
# Export and import of the associative array: the round trip

* **`assocExportToJson_eq`** — the text that is written.
* **`importHeader_eq`** — its header is read.
* **`roundTrips_iff`** — the arrays that come back: those with a pair, whose strings are scannable
  and whose values leave room for one character more.
-/

namespace G7

/-! ## The text -/

lemma xvstrncat_of_lt {dst text : CStr} {size : ℕ} (htext : text.length < 1024 * 50)
    (hroom : dst.length + text.length < size) : xvstrncat dst size text = dst ++ text := by
  rw [xvstrncat, snprintf_of_lt htext]
  by_cases hfull : size - 1 ≤ dst.length
  · rw [List.eq_nil_of_length_eq_zero (show text.length = 0 by omega), xstrlcat,
      if_pos (.inr hfull), List.append_nil]
  · rw [xstrlcat, if_neg (by omega), if_pos (by omega)]

/-- A pair fits into the buffer of `xvstrncat`. -/
lemma length_exportPair {name value ending : CStr} (hname : name.length < 1024)
    (hvalue : value.length < 10 * 1024) (hending : ending.length ≤ 5) :
    (exportPair name value ending).length < 1024 * 50 := by
  have hopen : (str "    \x7b \"").length = 7 := by decide
  have hcolon : (str "\" : \"").length = 5 := by decide
  simp only [exportPair, List.length_append, hopen, hcolon]
  omega

/-- A pair of the array is written. -/
lemma exportCell_eq (front : List AssocPair) (e : Σ _ : CStr, CStr) (rest : List AssocPair)
    (buff : CStr) {ending : CStr} {maxlen : ℕ} (hname : e.1.length < 1024)
    (hvalue : e.2.length < 10 * 1024) (hending : ending.length ≤ 5)
    (hroom : buff.length + (exportPair e.1 e.2 ending).length < maxlen) :
    exportCell (front ++ cellOf e :: rest) buff maxlen front.length ending =
      .done (buff ++ exportPair e.1 e.2 ending) := by
  rw [exportCell, load_append_length]
  exact congrArg Checked.done
    (xvstrncat_of_lt (length_exportPair hname hvalue hending) hroom)

/-- The pairs before the last one. -/
def exportFront (es : List (Σ _ : CStr, CStr)) : CStr :=
  es.flatMap fun e => exportPair e.1 e.2 (str "\" \x7d,\n")

lemma exportLoop_eq (es : List (Σ _ : CStr, CStr))
    (hfit : ∀ e ∈ es, e.1.length < 1024 ∧ e.2.length < 10 * 1024) (front rest : List AssocPair)
    (buff : CStr) {maxlen : ℕ} (hroom : buff.length + (exportFront es).length < maxlen) :
    exportLoop (front ++ (es.map cellOf ++ rest)) maxlen es.length front.length buff =
      .done (buff ++ exportFront es) := by
  induction es generalizing front buff with
  | nil => exact congrArg Checked.done (List.append_nil _).symm
  | cons e es ih =>
      have hfront : exportFront (e :: es) =
          exportPair e.1 e.2 (str "\" \x7d,\n") ++ exportFront es := rfl
      obtain ⟨hname, hvalue⟩ := hfit e List.mem_cons_self
      rw [hfront, List.length_append] at hroom
      have hcell := exportCell_eq front e (es.map cellOf ++ rest) buff hname hvalue
        (show (str "\" \x7d,\n").length ≤ 5 by decide) (show _ < maxlen by omega)
      have hih := ih (fun e' he' => hfit e' (List.mem_cons_of_mem _ he')) (front ++ [cellOf e])
        (buff ++ exportPair e.1 e.2 (str "\" \x7d,\n")) (by rw [List.length_append]; omega)
      rw [List.append_assoc, List.length_append, List.length_singleton] at hih
      rw [List.map_cons, List.cons_append, List.length_cons, exportLoop]
      refine (congrArg (· >>= _) hcell).trans ?_
      rw [hfront, ← List.append_assoc]
      exact hih

lemma exportEntries_concat (es : List (Σ _ : CStr, CStr)) (e : Σ _ : CStr, CStr) :
    exportEntries (es ++ [e]) = exportFront es ++ exportPair e.1 e.2 (str "\" \x7d\n") := by
  induction es with
  | nil => rfl
  | cons e' es ih =>
      obtain ⟨d, ds, hd⟩ := List.exists_cons_of_ne_nil (List.append_ne_nil_of_right_ne_nil es
        (List.cons_ne_nil e []))
      rw [List.cons_append, hd]
      have hcons : exportEntries (e' :: d :: ds) =
          exportPair e'.1 e'.2 (str "\" \x7d,\n") ++ exportEntries (d :: ds) := rfl
      rw [hcons, ← hd, ih, ← List.append_assoc]
      rfl

/-- The text of an array. -/
def exportText (maxValues : ℕ) (m : AssocMap) : CStr :=
  exportHeader m.entries.length maxValues ++ (exportEntries m.entries ++ exportEnd)

/-- The names and values fit into the buffers of the reader. -/
def FitsParser (m : AssocMap) : Prop :=
  ∀ e ∈ m.entries, e.1.length < 1024 ∧ e.2.length < 10 * 1024

/-- **The text that is written**, into a buffer that is large enough. -/
theorem assocExportToJson_eq {a : AssocArray} {m : AssocMap} (h : Represents a m)
    (hfit : FitsParser m) {maxlen : ℕ} (hroom : (exportText a.maxValues m).length < maxlen) :
    assocExportToJson a maxlen = .done (0, exportText a.maxValues m) := by
  obtain ⟨rest, hcells⟩ := h.cells
  rw [exportText, List.length_append, List.length_append] at hroom
  have hheader : snprintf maxlen (exportHeader a.numValues a.maxValues) =
      exportHeader m.entries.length a.maxValues := by
    rw [h.num, snprintf_of_lt (by omega)]
  have hpairs : exportPairs a maxlen (exportHeader m.entries.length a.maxValues) =
      .done (exportHeader m.entries.length a.maxValues ++ exportEntries m.entries) := by
    rw [exportPairs, h.num, hcells]
    rcases List.eq_nil_or_concat m.entries with hnil | ⟨es, e, hconcat⟩
    · rw [hnil]
      exact congrArg Checked.done (List.append_nil _).symm
    · rw [List.concat_eq_append] at hconcat
      rw [FitsParser, hconcat] at hfit
      obtain ⟨hname, hvalue⟩ := hfit e (by simp)
      have hlength := congrArg List.length (exportEntries_concat es e)
      rw [List.length_append] at hlength
      rw [hconcat] at hroom
      rw [hconcat, exportEntries_concat, if_pos (by simp), List.length_append,
        List.length_singleton, Nat.add_sub_cancel, List.map_append, List.append_assoc,
        List.map_singleton, List.singleton_append]
      have hloop := exportLoop_eq es (fun e' he' => hfit e' (List.mem_append_left _ he')) []
        (cellOf e :: rest) (exportHeader (es ++ [e]).length a.maxValues)
        (show _ < maxlen by omega)
      have hcell := exportCell_eq (es.map cellOf) e rest
        (exportHeader (es ++ [e]).length a.maxValues ++ exportFront es) hname hvalue
        (show (str "\" \x7d\n").length ≤ 5 by decide)
        (show _ < maxlen by rw [List.length_append]; omega)
      rw [List.nil_append, List.length_nil, List.length_append, List.length_singleton] at hloop
      rw [List.length_map, List.length_append, List.length_singleton, List.append_assoc] at hcell
      rw [hloop, Checked.done_bind]
      exact hcell
  have hend : exportEnd.length < 1024 * 50 := by decide
  rw [assocExportToJson, hheader, hpairs, Checked.done_bind]
  refine congrArg (fun text => Checked.done (0, text)) ?_
  rw [exportText, ← List.append_assoc]
  refine xvstrncat_of_lt hend (show _ + exportEnd.length < maxlen from ?_)
  rw [List.length_append]
  omega

/-! ## Reading the header -/

/-- Digits are read up to the character behind them. -/
lemma parseNumberLoop_digits {ds : CStr} (hds : ∀ c ∈ ds, isDigit c = true) {size maxlen : ℕ}
    {val : CStr} (rest : CStr) (hmax : ds.length < maxlen) (hsize : val.length + ds.length < size) :
    parseNumberLoop size (ds ++ ch ',' :: rest) maxlen val =
      .done (some (val ++ ds), ch ',' :: rest) := by
  induction ds generalizing maxlen val with
  | nil =>
      have hcomma : ¬ (1 < maxlen ∧ ((ch '0' ≤ ch ',' ∧ ch ',' ≤ ch '9') ∨ ch ',' = ch '.')) :=
        fun h => absurd h.2 (by decide)
      rw [List.nil_append, List.append_nil, parseNumberLoop, if_neg hcomma]
      exact if_pos hsize
  | cons d ds ih =>
      obtain ⟨hd, hds'⟩ := List.forall_mem_cons.mp hds
      rw [List.length_cons] at hmax hsize
      have hdigit : 1 < maxlen ∧ ((ch '0' ≤ d ∧ d ≤ ch '9') ∨ d = ch '.') := by
        rw [isDigit, Bool.and_eq_true, decide_eq_true_eq, decide_eq_true_eq] at hd
        exact ⟨by omega, .inl hd⟩
      rw [List.cons_append, parseNumberLoop, if_pos hdigit, putVal_of_lt (by omega),
        Checked.done_bind, ih hds' (by omega) (by
          rw [List.length_append, List.length_singleton]
          omega), List.append_assoc]
      rfl

/-- A number is read. -/
lemma parseNumber_dec {n : ℕ} (hn : n < 2 ^ 64) (rest : CStr) :
    parseNumber (10 * 1024) (10 * 1024) (dec n ++ ch ',' :: rest) =
      .done (some (dec n), ch ',' :: rest) := by
  have hlength : (dec n).length ≤ 20 := by
    rw [dec, List.length_map]
    exact (Nat.length_toDigits_le_iff (by omega) (by omega)).mpr (hn.trans (by decide))
  have hdigits := isDigit_of_mem_dec n
  obtain ⟨c, cs, hdec⟩ := List.exists_cons_of_ne_nil (dec_ne_nil n)
  rw [hdec] at hlength hdigits ⊢
  have hc := hdigits c List.mem_cons_self
  have hrange := isDigit_iff.mp hc
  have hstart : parseSs (c :: cs ++ ch ',' :: rest) = c :: cs ++ ch ',' :: rest := by
    refine List.dropWhile_cons_of_neg ?_
    rw [decide_eq_true_eq]
    rintro (rfl | rfl | rfl)
    · exact absurd hc (by decide)
    · exact absurd hc (by decide)
    · exact absurd hc (by decide)
  have hnot : ¬ (c < ch '0' ∨ ch '9' < c) := by
    rw [UInt8.lt_iff_toNat_lt, UInt8.lt_iff_toNat_lt]
    show ¬ (c.toNat < 48 ∨ 57 < c.toNat)
    omega
  rw [parseNumber, if_neg (by omega), hstart]
  refine (if_neg hnot).trans ?_
  exact parseNumberLoop_digits hdigits rest (by omega) (by rw [List.length_nil]; omega)

/-- A string behind white space is read. -/
lemma parseStr_scannable {size maxlen : ℕ} {s v rest : CStr}
    (hs : parseSs s = ch '"' :: (v ++ ch '"' :: rest)) (hv : scannable v = true)
    (hmax : v.length + 2 ≤ maxlen) (hsize : v.length < size) :
    parseStr size maxlen s = .done (some v, rest) := by
  rw [parseStr, hs]
  refine (if_neg (not_not.mpr rfl)).trans ((if_neg (by omega)).trans ?_)
  exact parseStrLoop_scannable hv rest hmax (by rw [List.length_nil]; omega)

lemma parsePairWith_eq {value : CStr → Checked (Option CStr × CStr)} {nameSize maxlen : ℕ}
    {s s₁ s₂ s₃ name val : CStr} (hname : parseStr nameSize maxlen s = .done (some name, s₁))
    (hcolon : parseChk (ch ':') s₁ = (true, s₂)) (hval : value s₂ = .done (some val, s₃)) :
    parsePairWith value nameSize maxlen s = .done (some (name, val), s₃) := by
  rw [parsePairWith, hname, Checked.done_bind]
  simp only [hcolon]
  exact congrArg (· >>= _) hval

/-- The header from the pairs on. -/
def headerPairs (s : CStr) : CStr :=
  str "\n   \"" ++ (exportPairsKey ++ ch '"' :: (ch ':' :: (str "[\n" ++ s)))

/-- The header from a number on. -/
def headerNumber (key : CStr) (n : ℕ) (s : CStr) : CStr :=
  ch '"' :: (key ++ ch '"' :: (ch ':' :: (dec n ++ ch ',' :: s)))

lemma exportHeader_append (numValues maxValues : ℕ) (s : CStr) :
    exportHeader numValues maxValues ++ s = ch '\x7b' :: (str "\n  \"" ++ (exportIdName ++
      ch '"' :: (str ":\"" ++ (exportIdNameVal ++ ch '"' :: (ch ',' ::
        headerNumber (str "num_values") numValues
          (headerNumber (str "max_values") maxValues (headerPairs s))))))) := by
  simp only [exportHeader, headerNumber, headerPairs, List.append_assoc]
  rfl

/-- A number of the header is read. -/
lemma parsePairNumber_header (key : CStr) {n : ℕ} (hkey : scannable key = true)
    (hlength : key.length + 2 ≤ 10 * 1024) (hn : n < 2 ^ 64) (s : CStr) :
    parsePairNumber (10 * 1024) (10 * 1024) (10 * 1024) (headerNumber key n s) =
      .done (some (key, dec n), ch ',' :: s) :=
  parsePairWith_eq (parseStr_scannable rfl hkey hlength (by omega)) rfl (parseNumber_dec hn s)

/-- **The header is read.** -/
theorem importHeader_eq {numValues maxValues : ℕ} (hnum : numValues < 2 ^ 64)
    (hmax : maxValues < 2 ^ 64) (s : CStr) :
    importHeader (exportHeader numValues maxValues ++ s) = .done (some (str "[\n" ++ s)) := by
  have hid (rest : CStr) : parsePairStr (10 * 1024) (10 * 1024) (10 * 1024)
      (str "\n  \"" ++ (exportIdName ++ ch '"' :: (str ":\"" ++
        (exportIdNameVal ++ ch '"' :: rest)))) =
      .done (some (exportIdName, exportIdNameVal), rest) :=
    parsePairWith_eq (parseStr_scannable rfl (by decide) (by decide) (by decide)) rfl
      (parseStr_scannable rfl (by decide) (by decide) (by decide))
  have hnumber := parsePairNumber_header (str "num_values") (by decide) (by decide) hnum
  have hnumber' := parsePairNumber_header (str "max_values") (by decide) (by decide) hmax
  have hpairs : parseStr 64 64 (headerPairs s) =
      .done (some exportPairsKey, ch ':' :: (str "[\n" ++ s)) :=
    parseStr_scannable rfl (by decide) (by decide) (by decide)
  have hcomma (rest : CStr) : parseChk (ch ',') (ch ',' :: rest) = (true, rest) := rfl
  have hcolon (rest : CStr) : parseChk (ch ':') (ch ':' :: rest) = (true, rest) := rfl
  have hopen (rest : CStr) : parseChk (ch '\x7b') (ch '\x7b' :: rest) = (true, rest) := rfl
  rw [exportHeader_append, importHeader]
  simp only [hopen, hid, hcomma, hnumber, hnumber', hpairs, hcolon, Checked.done_bind]
  rfl

/-! ## The round trip -/

/-- An array comes back: it is written to a buffer of `maxlen` bytes and read into `fresh`. -/
def RoundTrips (a : AssocArray) (m : AssocMap) (maxlen : ℕ) (fresh : AssocArray) : Prop :=
  ∃ text b, assocExportToJson a maxlen = .done (0, text) ∧
    assocImportFromJson fresh text = .done (0, b) ∧ Represents b m

lemma assocImportFromJson_exportText {maxValues : ℕ} {m : AssocMap}
    (hnum : m.entries.length < 2 ^ 64) (hmax : maxValues < 2 ^ 64) (fresh : AssocArray) :
    assocImportFromJson fresh (exportText maxValues m) =
      parseVector (str "[\n" ++ (exportEntries m.entries ++ exportEnd)) fresh >>=
        fun r => .done (if (parseChk (ch '\x7d') r.2.1).1 then 0 else -1, r.2.2) := by
  rw [assocImportFromJson, exportText, importHeader_eq hnum hmax]
  rfl

lemma parseChk_bracket (s : CStr) :
    parseChk (ch '[') (str "[\n" ++ s) = (true, str "\n" ++ s) := rfl

/-- **The arrays that come back** are those with a pair, whose strings are scannable and whose values
leave room for one character more. -/
theorem roundTrips_iff {a : AssocArray} {m : AssocMap} (h : Represents a m)
    (hsize : a.maxValues < 2 ^ 64) (hfit : FitsParser m) {maxlen : ℕ}
    (hroom : (exportText a.maxValues m).length < maxlen) {size : ℕ} {fresh : AssocArray}
    (hfresh : assocNew size = some fresh) :
    RoundTrips a m maxlen fresh ↔ m.entries ≠ [] ∧ ∀ e ∈ m.entries, Importable e := by
  have hexport := assocExportToJson_eq h hfit hroom
  have hnum : m.entries.length < 2 ^ 64 := by
    rw [← h.num]
    exact h.num_le.trans_lt hsize
  have hnames : ∀ e ∈ m.entries, e.1 ≠ [] ∧ e.1.length < 1024 :=
    fun e he => ⟨h.names _ (List.mem_keys_of_mem he), (hfit e he).1⟩
  have hfour : 4 ≤ size := by
    by_contra hlt
    rw [assocNew, if_pos (by omega)] at hfresh
    cases hfresh
  have hrep := (represents_new hfour hfresh).1
  have himport := assocImportFromJson_exportText hnum hsize fresh
  constructor
  · rintro ⟨text, b, hwrite, hread, hrepb⟩
    cases hexport.symm.trans hwrite
    rw [himport] at hread
    obtain ⟨⟨rc, rest, b'⟩, hvector, hret⟩ := Checked.bind_eq_done.mp hread
    have hne : m.entries ≠ [] := by
      intro hnil
      rw [hnil] at hvector
      cases hvector
      cases hret
    cases (Prod.ext_iff.mp (Checked.done.inj hret)).2
    refine ⟨hne, ?_⟩
    rw [parseVector, parseChk_bracket] at hvector
    obtain ⟨⟨rc', rest', b''⟩, hloop, hend⟩ := Checked.bind_eq_done.mp hvector
    obtain rfl : b'' = b := by
      by_cases hrc : rc' = -1
      · cases (if_pos hrc).symm.trans hend
        rfl
      · cases (if_neg hrc).symm.trans hend
        rfl
    exact importable_of_parseVectorLoop m.entries m.nodupKeys hnames hrep
      (fun _ _ => AList.notMem_empty _) hloop hrepb rfl
  · rintro ⟨hne, himportable⟩
    have hleft : m.entries.length ≤
        (str "\n" ++ (exportEntries m.entries ++ exportEnd)).length := by
      rw [List.length_append, List.length_append]
      have hlen := length_le_exportEntries m.entries
      omega
    obtain ⟨b, m', hloop, hrepb, hentries⟩ := parseVectorLoop_importable m.entries hne m.nodupKeys
      hnames himportable hleft hrep (fun _ _ => AList.notMem_empty _)
    obtain rfl : m' = m := AList.ext hentries
    refine ⟨_, b, hexport, ?_, hrepb⟩
    rw [himport, parseVector, parseChk_bracket]
    refine (congrArg (· >>= _) (congrArg (· >>= _) hloop)).trans ?_
    rfl

section Examples

/-- An array with the entries of a map. -/
def arrayOf (m : AssocMap) : AssocArray :=
  ⟨m.entries.map cellOf ++ List.replicate 4 .empty, m.entries.length, m.entries.length + 4⟩

lemma represents_arrayOf {m : AssocMap} (h : [] ∉ m.keys) : Represents (arrayOf m) m where
  cells := ⟨_, rfl⟩
  num := rfl
  block := by rw [arrayOf, List.length_append, List.length_map, List.length_replicate]
  four := Nat.le_add_left 4 _
  names name hname hempty := h (hempty ▸ hname)

/-- Two pairs, one of them with a quote behind a backslash. -/
def twoPairs : AssocMap where
  entries := [⟨str "ab", str "c d"⟩, ⟨str "x", str "y\\\"z"⟩]
  nodupKeys := by
    unfold List.NodupKeys
    decide

/-- A pair with a quote. -/
def quotePair : AssocMap where
  entries := [⟨str "x", str "y\"z"⟩]
  nodupKeys := List.nodupKeys_singleton _

/-- The two pairs come back. -/
theorem roundTrips_twoPairs : RoundTrips (arrayOf twoPairs) twoPairs 1000 (arrayOf ∅) := by
  have hfit : FitsParser twoPairs := by
    unfold FitsParser
    decide +kernel
  have himport : ∀ e ∈ twoPairs.entries, Importable e := by
    unfold Importable
    decide +kernel
  exact (roundTrips_iff (represents_arrayOf (by decide)) (by decide) hfit (by decide +kernel)
    (show assocNew 4 = some (arrayOf ∅) from rfl)).mpr ⟨List.cons_ne_nil _ _, himport⟩

/-- An array without pairs, and one with a quote, do not. -/
theorem quotePair_not_roundTrips :
    Represents (arrayOf ∅) ∅ ∧ ¬ RoundTrips (arrayOf ∅) ∅ 1000 (arrayOf ∅) ∧
      Represents (arrayOf quotePair) quotePair ∧
      ¬ RoundTrips (arrayOf quotePair) quotePair 1000 (arrayOf ∅) := by
  refine ⟨represents_arrayOf (by decide), ?_, represents_arrayOf (by decide), ?_⟩
  · rintro ⟨text, b, hwrite, hread, -⟩
    have htext : assocExportToJson (arrayOf ∅) 1000 = .done (0, exportText 4 ∅) := by
      decide +kernel
    cases htext.symm.trans hwrite
    have hfail : assocImportFromJson (arrayOf ∅) (exportText 4 ∅) = .done (-1, arrayOf ∅) := by
      decide +kernel
    cases hfail.symm.trans hread
  · rintro ⟨text, b, hwrite, hread, -⟩
    have htext : assocExportToJson (arrayOf quotePair) 1000 = .done (0, exportText 5 quotePair) := by
      decide +kernel
    cases htext.symm.trans hwrite
    have hfail : assocImportFromJson (arrayOf ∅) (exportText 5 quotePair) =
        .done (-1, arrayOf ∅) := by
      decide +kernel
    cases hfail.symm.trans hread

end Examples

end G7
