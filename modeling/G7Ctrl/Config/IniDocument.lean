import G7Ctrl.Config.IniParser

/-!
# What a configuration file says

A configuration file as its author sees it: lines that are empty, comments, section headers and
settings, with blanks where they are allowed, values bare or in quotes, comments behind them, and
long lines continued with a backslash.

* `IniLine`, `IniDocument` — the lines and how they are written, each with what makes it legal.
* `IniLine.change` — what a line says.
* **`iniparserLine_text`** — the parser recognises every such line for what it is.
* **`iniparserLoad_document`** — a file of such lines is loaded without an error, and the dictionary
  has what its lines say, the last one of a key counting.
-/

namespace G7

/-! ## The lines -/

/-- Blanks within a line. -/
structure IniBlanks where
  text : CStr
  blank : ∀ c ∈ text, isSpace c = true

/-- A word or several words: no blanks at the ends. -/
structure IniWords where
  text : CStr
  ne : text ≠ []
  head : StopsAt isSpace text
  last : EndsAt isSpace text

/-- A comment behind a value, or nothing. -/
structure IniComment where
  text : CStr
  start : ∀ c ∈ text.head?, isCommentStart c = true

/-- No blanks. -/
def noBlanks : IniBlanks := ⟨[], by simp⟩

/-- No comment. -/
def noIniComment : IniComment := ⟨[], by simp⟩

/-- A quotation mark. -/
def IsQuote (c : Byte) : Prop := c = ch '"' ∨ c = ch '\''

/-- The name of a section. -/
structure IniSecname extends IniWords where
  free : ch ']' ∉ text

/-- The name of a setting. -/
structure IniKey extends IniWords where
  free : ch '=' ∉ text
  noComment : text.head? ≠ some (ch '#')
  noSection : text.head? ≠ some (ch '[')

/-- A value that stands without quotes. -/
structure IniBare extends IniWords where
  free : ∀ c ∈ text, isCommentStart c = false
  noQuote : ∀ c ∈ text.head?, ¬ IsQuote c

/-- The part of a setting behind its `=`. -/
inductive IniValue where
  | none (gap : IniBlanks) (comment : IniComment)
  | bare (gap : IniBlanks) (value : IniBare) (behind : IniBlanks) (comment : IniComment)
  /-- `""` or `''` -/
  | noText (gap : IniBlanks) (quote : Byte) (hquote : IsQuote quote) (behind : IniBlanks)
      (comment : IniComment)
  /-- A text in quotes; what is behind it does not count. -/
  | quoted (gap : IniBlanks) (quote : Byte) (hquote : IsQuote quote) (value : CStr)
      (ne : value ≠ []) (free : quote ∉ value) (behind : CStr)

/-- A line. -/
inductive IniLine where
  | blank (blanks : IniBlanks)
  | comment (gap : IniBlanks) (text : CStr)
  | section (gap : IniBlanks) (before : IniBlanks) (name : IniSecname) (behind : IniBlanks)
      (rest : IniBlanks)
  | setting (gap : IniBlanks) (key : IniKey) (behind : IniBlanks) (value : IniValue)

/-- How the part behind the `=` is written. -/
def IniValue.text : IniValue → CStr
  | .none gap comment => gap.text ++ comment.text
  | .bare gap value behind comment => gap.text ++ (value.text ++ (behind.text ++ comment.text))
  | .noText gap quote _ behind comment =>
      gap.text ++ ([quote, quote] ++ (behind.text ++ comment.text))
  | .quoted gap quote _ value _ _ behind => gap.text ++ (quote :: value ++ quote :: behind)

/-- The value that is meant: of a text in quotes the blanks at its ends do not count. -/
def IniValue.value : IniValue → CStr
  | .none _ _ => []
  | .bare _ value _ _ => value.text
  | .noText _ _ _ _ _ => []
  | .quoted _ _ _ value _ _ _ => unquoted (strstrip value)

/-- How a line is written. -/
def IniLine.text : IniLine → CStr
  | .blank blanks => blanks.text
  | .comment gap text => gap.text ++ ch '#' :: text
  | .section gap before name behind rest =>
      gap.text ++ ch '[' :: (before.text ++ name.text ++ behind.text) ++ ch ']' :: rest.text
  | .setting gap key behind value => gap.text ++ (key.text ++ behind.text ++ ch '=' :: value.text)

/-- What the parser is to find out about a line. -/
def IniLine.status : IniLine → IniStatus
  | .blank _ => .empty
  | .comment _ _ => .comment
  | .section _ _ name _ _ => .section (strlwc name.text)
  | .setting _ key _ value => .value (strlwc key.text) value.value

/-- What a line says: the section that is current afterwards, and the settings there are then. -/
def IniLine.change (s : CStr × IniMap) : IniLine → CStr × IniMap
  | .blank _ => s
  | .comment _ _ => s
  | .section _ _ name _ _ =>
      (strlwc name.text, Function.update s.2 (strlwc name.text) (some none))
  | .setting _ key _ value =>
      (s.1, Function.update s.2 (s.1 ++ ch ':' :: strlwc key.text) (some (some value.value)))

/-! ## A setting -/

/-- The text that a format with one set has read. -/
def scanOne (items : List (ScanItem Byte)) (s : CStr) : Option CStr :=
  match scan isSpace items s with
  | [v] => some v
  | _ => none

/-- The formats behind the `=`, for a value in quotes and for one without. -/
def quotedItems (quote : Byte) : List (ScanItem Byte) :=
  [.literal quote, .set (· ≠ quote), .literal quote]

/-- What `iniparser_line` makes of the text behind the `=`, without the blanks around it. -/
def settingValue (V : CStr) : CStr :=
  (((scanOne (quotedItems (ch '"')) V).or ((scanOne (quotedItems (ch '\'')) V).or
    (scanOne [.set isBareChar] V))).map fun v => unquoted (strstrip v)).getD []

section

variable {k t : CStr}

/-- A format up to the `=` and behind it. -/
lemma scanPair_iniFormat (items : List (ScanItem Byte)) (hk : k ≠ []) (hfree : ch '=' ∉ k)
    (t : CStr) :
    scanPair isSpace (iniFormat items) (k ++ ch '=' :: t) =
      (scanOne items (t.dropWhile isSpace)).map fun v => (k, v) := by
  have hset : ∀ c ∈ k, decide (c ≠ ch '=') = true := fun c hc =>
    decide_eq_true fun h => hfree (h ▸ hc)
  have hscan : scan isSpace (iniFormat items) (k ++ ch '=' :: t) =
      k :: scan isSpace items (t.dropWhile isSpace) := by
    have hblank : (ch '=' :: t).dropWhile isSpace = ch '=' :: t :=
      List.dropWhile_cons_of_neg (by decide)
    rw [iniFormat, scan_set hk hset (stopsAt_cons.mpr (by simp)), scan, hblank, scan_literal, scan]
  rw [scanPair, hscan, scanOne]
  rcases scan isSpace items (t.dropWhile isSpace) with _ | ⟨v, _ | ⟨w, vs⟩⟩
  · rfl
  · rfl
  · rfl

/-- The last format finds every key. -/
lemma scanPair_valuelessFormat (hk : k ≠ []) (hfree : ch '=' ∉ k) (t : CStr) :
    ∃ v, scanPair isSpace valuelessFormat (k ++ ch '=' :: t) = some (k, v) := by
  have hset : ∀ c ∈ k, decide (c ≠ ch '=') = true := fun c hc =>
    decide_eq_true fun h => hfree (h ▸ hc)
  have hblank : (ch '=' :: t).dropWhile isSpace = ch '=' :: t :=
    List.dropWhile_cons_of_neg (by decide)
  have htake : (ch '=' :: t).takeWhile (fun c => decide (c = ch '=')) =
      ch '=' :: t.takeWhile fun c => decide (c = ch '=') := List.takeWhile_cons_of_pos (by simp)
  refine ⟨ch '=' :: t.takeWhile fun c => decide (c = ch '='), ?_⟩
  rw [scanPair, valuelessFormat, scan_set hk hset (stopsAt_cons.mpr (by simp)), scan, hblank, scan,
    htake, if_neg (List.cons_ne_nil _ _), scan]

/-- **A key and a value**, in whichever format they are. -/
theorem scanSetting_eq (hk : k ≠ []) (hfree : ch '=' ∉ k) (t : CStr) :
    scanSetting (k ++ ch '=' :: t) =
      some (strlwc (strstrip k), settingValue (t.dropWhile isSpace)) := by
  have hdouble := scanPair_iniFormat (quotedItems (ch '"')) hk hfree t
  have hsingle := scanPair_iniFormat (quotedItems (ch '\'')) hk hfree t
  have hbare := scanPair_iniFormat [.set isBareChar] hk hfree t
  have hcomment := scanPair_iniFormat [.set isCommentStart] hk hfree t
  obtain ⟨v, hvalueless⟩ := scanPair_valuelessFormat hk hfree t
  rw [scanSetting, quotedFormat, quotedFormat, bareFormat, commentedFormat, settingValue]
  rw [show ([.literal (ch '"'), .set (· ≠ ch '"'), .literal (ch '"')] : List (ScanItem Byte)) =
    quotedItems (ch '"') from rfl, show ([.literal (ch '\''), .set (· ≠ ch '\''), .literal (ch '\'')] :
      List (ScanItem Byte)) = quotedItems (ch '\'') from rfl, hdouble, hsingle, hbare, hcomment,
    hvalueless, ← Option.map_or, ← Option.map_or]
  cases ((scanOne (quotedItems (ch '"')) (t.dropWhile isSpace)).or
      ((scanOne (quotedItems (ch '\'')) (t.dropWhile isSpace)).or
        (scanOne [.set isBareChar] (t.dropWhile isSpace)))) with
  | some v => rfl
  | none =>
      cases scanOne [.set isCommentStart] (t.dropWhile isSpace) with
      | some c => rfl
      | none => rfl

end

/-! ## The values -/

section

variable {q : Byte} {V R : CStr}

/-- A value that does not begin with a quotation mark is not read in quotes. -/
lemma scanOne_quotedItems_stop (h : V.head? ≠ some q) : scanOne (quotedItems q) V = none := by
  rw [scanOne, quotedItems, scan_literal_stop h]

/-- A text in quotes. -/
lemma scanOne_quotedItems (hne : V ≠ []) (hfree : q ∉ V) (R : CStr) :
    scanOne (quotedItems q) (q :: V ++ q :: R) = some V := by
  have hset : ∀ c ∈ V, decide (c ≠ q) = true := fun c hc => decide_eq_true fun h => hfree (h ▸ hc)
  rw [scanOne, quotedItems, List.cons_append, scan_literal,
    scan_set hne hset (stopsAt_cons.mpr (by simp)), scan_literal, scan]

/-- Two quotation marks have no text between them. -/
lemma scanOne_quotedItems_noText (R : CStr) : scanOne (quotedItems q) (q :: q :: R) = none := by
  rw [scanOne, quotedItems, scan_literal, scan_set_stop (stopsAt_cons.mpr (by simp))]

/-- A value without quotes reaches to its comment. -/
lemma scanOne_bare (hne : V ≠ []) (hfree : ∀ c ∈ V, isCommentStart c = false) :
    scanOne [.set isBareChar] (V ++ R) =
      some (V ++ R.takeWhile isBareChar) := by
  have htake : (V ++ R).takeWhile isBareChar =
      V ++ R.takeWhile isBareChar :=
    List.takeWhile_append_of_pos fun c hc => by rw [isBareChar, hfree c hc]; rfl
  rw [scanOne, scan, htake, if_neg (by simp [hne]), scan]

lemma isCommentStart_blank {c : Byte} (h : isSpace c = true) : isCommentStart c = false := by
  have hall : ∀ c : Byte, (!isSpace c || !isCommentStart c) = true := forall_byte (by decide +kernel)
  have hc := hall c
  rw [h] at hc
  simpa using hc

lemma isSpace_comment {c : Byte} (h : isCommentStart c = true) : isSpace c = false := by
  by_contra hspace
  rw [isCommentStart_blank (by simpa using hspace)] at h
  contradiction

lemma isSpace_quote (h : IsQuote q) : isSpace q = false := by
  rcases h with rfl | rfl <;> rfl

lemma isCommentStart_quote (h : IsQuote q) : isCommentStart q = false := by
  rcases h with rfl | rfl <;> rfl

/-- A value stops at its comment. -/
lemma IniComment.stopsAt (comment : IniComment) : StopsAt isBareChar comment.text := by
  intro c hc
  rw [isBareChar, comment.start c hc]
  rfl

/-- In front of a comment there are only blanks. -/
lemma takeWhile_behind (behind : IniBlanks) (comment : IniComment) :
    ∀ c ∈ ((behind.text ++ comment.text).rdropWhile isSpace).takeWhile isBareChar,
      isSpace c = true := by
  obtain ⟨cut, hcut⟩ := List.rdropWhile_prefix isSpace (l := behind.text ++ comment.text)
  have hstop := comment.stopsAt
  have hbehind : ∀ c ∈ behind.text, isBareChar c = true := fun c hc => by
    rw [isBareChar, isCommentStart_blank (behind.blank c hc)]
    rfl
  have htake := (takeWhile_append_stopsAt hbehind hstop).1
  intro c hc
  have hmem : c ∈ (behind.text ++ comment.text).takeWhile isBareChar := by
    rw [← hcut, List.takeWhile_append]
    split_ifs
    · exact List.mem_append_left _ ((List.takeWhile_sublist _).subset hc)
    · exact hc
  exact behind.blank c (htake ▸ hmem)

/-- A text is not cut at its front when it is cut at its end. -/
lemma stopsAt_rdropWhile {p : Byte → Bool} {s : CStr} (h : StopsAt p s) (q : Byte → Bool) :
    StopsAt p (s.rdropWhile q) := by
  obtain ⟨cut, hcut⟩ := List.rdropWhile_prefix q (l := s)
  intro c hc
  refine h c ?_
  rw [← hcut]
  exact List.mem_head?_append_of_mem_head? hc

lemma unquoted_eq_self {v : CStr} (h : ∀ c ∈ v.head?, ¬ IsQuote c) : unquoted v = v := by
  refine if_neg ?_
  rintro (rfl | rfl)
  · exact h (ch '"') rfl (.inl rfl)
  · exact h (ch '\'') rfl (.inr rfl)

/-- **The value of a setting**, however it is written. -/
theorem settingValue_text (v : IniValue) : settingValue (strstrip v.text) = v.value := by
  cases v with
  | none gap comment =>
      have hstop := comment.stopsAt
      have hspace : StopsAt isSpace comment.text := fun c hc => isSpace_comment (comment.start c hc)
      have hV : strstrip (gap.text ++ comment.text) = comment.text.rdropWhile isSpace := by
        rw [strstrip, strip_blank_append gap.blank, strip_of_stopsAt hspace]
      have hhead : ∀ q, isCommentStart q = false →
          (comment.text.rdropWhile isSpace).head? ≠ some q := by
        intro q hq hsome
        have hvalue := stopsAt_rdropWhile hstop isSpace q hsome
        rw [isBareChar, hq] at hvalue
        contradiction
      rw [IniValue.text, hV, settingValue, scanOne_quotedItems_stop (hhead _ rfl),
        scanOne_quotedItems_stop (hhead _ rfl), scanOne,
        scan_set_stop (stopsAt_rdropWhile hstop isSpace)]
      rfl
  | bare gap value behind comment =>
      have hspace : StopsAt isSpace (value.text ++ (behind.text ++ comment.text)) := by
        intro c hc
        rw [List.head?_append_of_ne_nil _ value.ne] at hc
        exact value.head c hc
      have hV : strstrip (gap.text ++ (value.text ++ (behind.text ++ comment.text))) =
          value.text ++ (behind.text ++ comment.text).rdropWhile isSpace := by
        rw [strstrip, strip_blank_append gap.blank, strip_of_stopsAt hspace,
          rdropWhile_append_endsAt value.ne value.last]
      have hhead : ∀ q, IsQuote q →
          (value.text ++ (behind.text ++ comment.text).rdropWhile isSpace).head? ≠ some q := by
        intro q hq hsome
        rw [List.head?_append_of_ne_nil _ value.ne] at hsome
        exact value.noQuote q hsome hq
      have hstrip := strip_append (a := []) (by simp) (takeWhile_behind behind comment) value.head
        value.last
      rw [List.nil_append] at hstrip
      rw [IniValue.text, hV, settingValue, scanOne_quotedItems_stop (hhead _ (.inl rfl)),
        scanOne_quotedItems_stop (hhead _ (.inr rfl)), scanOne_bare value.ne value.free]
      show unquoted (strstrip _) = value.text
      rw [strstrip, hstrip, unquoted_eq_self value.noQuote]
  | noText gap quote hquote behind comment =>
      have hspace : StopsAt isSpace ([quote, quote] ++ (behind.text ++ comment.text)) :=
        stopsAt_cons.mpr (isSpace_quote hquote)
      have hends : EndsAt isSpace [quote, quote] := by
        intro c hc
        rw [← Option.some.inj hc]
        exact isSpace_quote hquote
      have hV : strstrip (gap.text ++ ([quote, quote] ++ (behind.text ++ comment.text))) =
          [quote, quote] ++ (behind.text ++ comment.text).rdropWhile isSpace := by
        rw [strstrip, strip_blank_append gap.blank, strip_of_stopsAt hspace,
          rdropWhile_append_endsAt (List.cons_ne_nil _ _) hends]
      have hstrip := strip_append (a := []) (s := [quote, quote]) (by simp)
        (takeWhile_behind behind comment) (stopsAt_cons.mpr (isSpace_quote hquote)) hends
      rw [List.nil_append] at hstrip
      have hnone : ∀ q, IsQuote q → scanOne (quotedItems q)
          ([quote, quote] ++ (behind.text ++ comment.text).rdropWhile isSpace) = none := by
        intro q hq
        by_cases hsame : q = quote
        · rw [hsame]
          exact scanOne_quotedItems_noText _
        · exact scanOne_quotedItems_stop fun h => hsame (Option.some.inj h).symm
      rw [IniValue.text, hV, settingValue, hnone _ (.inl rfl), hnone _ (.inr rfl),
        scanOne_bare (List.cons_ne_nil _ _) (by simp [isCommentStart_quote hquote])]
      show unquoted (strstrip _) = []
      rw [strstrip, hstrip]
      rcases hquote with rfl | rfl
      · rfl
      · rfl
  | quoted gap quote hquote value ne free behind =>
      have hspace : StopsAt isSpace (quote :: value ++ quote :: behind) :=
        stopsAt_cons.mpr (isSpace_quote hquote)
      have hV : strstrip (gap.text ++ (quote :: value ++ quote :: behind)) =
          quote :: value ++ quote :: behind.rdropWhile isSpace := by
        rw [strstrip, strip_blank_append gap.blank, strip_of_stopsAt hspace,
          rdropWhile_append_cons (isSpace_quote hquote)]
      have hscan := scanOne_quotedItems ne free (behind.rdropWhile isSpace)
      rw [IniValue.text, hV, settingValue]
      rcases hquote with rfl | rfl
      · rw [hscan]
        rfl
      · rw [hscan, scanOne_quotedItems_stop (by simp; decide)]
        rfl

end

/-! ## The lines -/

section

variable {name : CStr}

/-- **Every line is recognised for what it is.** -/
theorem iniparserLine_text (l : IniLine) : iniparserLine l.text name = l.status := by
  cases l with
  | blank blanks =>
      have hstrip : strstrip blanks.text = [] := by
        have h := strip_append (s := []) (t := []) blanks.blank (by simp) stopsAt_nil (by simp [EndsAt])
        simpa [strstrip] using h
      rw [IniLine.text, iniparserLine, hstrip]
      rfl
  | comment gap text =>
      have hstrip : strstrip (gap.text ++ ch '#' :: text) = ch '#' :: text.rdropWhile isSpace := by
        have hspace : isSpace (ch '#') = false := rfl
        rw [strstrip, strip_blank_append gap.blank, strip_of_stopsAt (stopsAt_cons.mpr hspace)]
        exact rdropWhile_append_cons (a := []) hspace
      rw [IniLine.text, iniparserLine, hstrip]
      rfl
  | «section» gap before name' behind rest =>
      have hlast : EndsAt isSpace
          (ch '[' :: (before.text ++ name'.text ++ behind.text) ++ [ch ']']) := by
        intro c hc
        rw [List.getLast?_concat] at hc
        rw [← Option.some.inj hc]
        rfl
      have hstrip : strstrip (gap.text ++
          ch '[' :: (before.text ++ name'.text ++ behind.text) ++ ch ']' :: rest.text) =
            ch '[' :: (before.text ++ name'.text ++ behind.text) ++ [ch ']'] := by
        have htext : gap.text ++
            ch '[' :: (before.text ++ name'.text ++ behind.text) ++ ch ']' :: rest.text =
              gap.text ++ (ch '[' :: (before.text ++ name'.text ++ behind.text) ++ [ch ']']) ++
                rest.text := by
          simp
        rw [htext]
        exact strip_append gap.blank rest.blank (stopsAt_cons.mpr rfl) hlast
      have hfree : ∀ c ∈ before.text ++ name'.text ++ behind.text, decide (c ≠ ch ']') = true := by
        intro c hc
        rw [decide_eq_true_eq]
        rintro rfl
        rw [List.mem_append, List.mem_append] at hc
        rcases hc with (hc | hc) | hc
        · exact absurd (before.blank _ hc) (by decide)
        · exact name'.free hc
        · exact absurd (behind.blank _ hc) (by decide)
      have hscan : scan isSpace [.literal (ch '['), .set (· ≠ ch ']')]
          (ch '[' :: (before.text ++ name'.text ++ behind.text) ++ [ch ']']) =
            [before.text ++ name'.text ++ behind.text] := by
        rw [List.cons_append, scan_literal,
          scan_set (by simp [name'.ne]) hfree (stopsAt_cons.mpr (by simp)), scan]
      have hname : strstrip (before.text ++ name'.text ++ behind.text) = name'.text :=
        strip_append before.blank behind.blank name'.head name'.last
      rw [IniLine.text, iniparserLine, hstrip, if_neg (by simp), if_neg (by simp; decide), if_pos ⟨rfl, List.getLast?_concat⟩, hscan,
        List.headD_cons, hname, IniLine.status]
  | setting gap key behind value =>
      have hspace : StopsAt isSpace (key.text ++ behind.text ++ ch '=' :: value.text) := by
        intro c hc
        rw [List.append_assoc, List.head?_append_of_ne_nil _ key.ne] at hc
        exact key.head c hc
      have hstrip : strstrip (gap.text ++ (key.text ++ behind.text ++ ch '=' :: value.text)) =
          key.text ++ behind.text ++ ch '=' :: value.text.rdropWhile isSpace := by
        rw [strstrip, strip_blank_append gap.blank, strip_of_stopsAt hspace,
          rdropWhile_append_cons rfl]
      have hhead : ∀ t, (key.text ++ behind.text ++ ch '=' :: t).head? = key.text.head? := by
        intro t
        rw [List.append_assoc, List.head?_append_of_ne_nil _ key.ne]
      have hfree : ch '=' ∉ key.text ++ behind.text := by
        rw [List.mem_append]
        rintro (hmem | hmem)
        · exact key.free hmem
        · exact absurd (behind.blank _ hmem) (by decide)
      have hkey : strstrip (key.text ++ behind.text) = key.text := by
        have h := strip_append (a := []) (by simp) behind.blank key.head key.last
        rwa [List.nil_append] at h
      rw [IniLine.text, iniparserLine, hstrip, if_neg (by simp), hhead, if_neg key.noComment, if_neg fun h => key.noSection h.1,
        scanSetting_eq (by simp [key.ne]) hfree, dropWhile_rdropWhile, hkey]
      show IniStatus.value _ (settingValue (strstrip value.text)) = _
      rw [settingValue_text, IniLine.status]

end

/-! ## A file -/

/-- A line as it stands in a file, whole or in pieces. -/
structure WrittenLine where
  line : IniLine
  pieces : List IniPiece
  last : CStr
  text_eq : pieces.flatMap (·.text) ++ last = line.text
  last_free : lf ∉ last
  fits : PiecesFit [] pieces last
  ends : (line.text.rdropWhile isSpace).getLast? ≠ some (ch '\\')

/-- The line in the file. -/
def WrittenLine.written (w : WrittenLine) : CStr :=
  w.pieces.flatMap (·.written) ++ w.last ++ [lf]

/-- What a configuration file says. -/
def documentMap (ws : List WrittenLine) : IniMap :=
  (ws.foldl (fun s w => w.line.change s) ([], fun _ => none)).2

section

variable {before : Byte} {st : IniLoad}

/-- What the parser does with a line is what the line says. -/
lemma process_status (hvalid : st.dict.Valid) (herrs : st.errs = 0) (l : IniLine) :
    ∃ st', st.process l.status = .done st' ∧ st'.dict.Valid ∧ st'.errs = 0 ∧ st'.line = [] ∧
      (st'.secname, st'.dict.content) = l.change (st.secname, st.dict.content) := by
  cases l with
  | blank blanks => exact ⟨_, rfl, hvalid, herrs, rfl, rfl⟩
  | comment gap text => exact ⟨_, rfl, hvalid, herrs, rfl, rfl⟩
  | «section» gap before name behind rest =>
      obtain ⟨d, hd, hvalid', hcontent⟩ := dictionarySet_eq hvalid (strlwc name.text) none
      refine ⟨⟨d, strlwc name.text, [], 0⟩, ?_, hvalid', rfl, rfl, by rw [hcontent]; rfl⟩
      rw [IniLine.status, IniLoad.process, hd, Checked.done_bind]
      rfl
  | setting gap key behind value =>
      obtain ⟨d, hd, hvalid', hcontent⟩ := dictionarySet_eq hvalid
        (st.secname ++ ch ':' :: strlwc key.text) (some value.value)
      refine ⟨⟨d, st.secname, [], 0⟩, ?_, hvalid', rfl, rfl, by rw [hcontent]; rfl⟩
      rw [IniLine.status, IniLoad.process, hd, Checked.done_bind]
      rfl

/-- A file has no more pieces of lines than characters. -/
lemma length_le_length_written (ps : List IniPiece) :
    ps.length ≤ (ps.flatMap (·.written)).length := by
  induction ps with
  | nil => exact Nat.le_refl 0
  | cons p ps ih =>
      rw [List.flatMap_cons, List.length_append, List.length_cons, IniPiece.written,
        List.length_append, List.length_singleton]
      omega

/-- The lines of a file, one after the other. -/
lemma loadLoop_document (hbefore : before ≠ ch '\\') (ws : List WrittenLine) :
    ∀ {st : IniLoad} {fuel : ℕ}, st.dict.Valid → st.errs = 0 → st.line = [] →
      (ws.flatMap (·.written)).length ≤ fuel →
      ∃ d, loadLoop before (fuel + 1) st (ws.flatMap (·.written)) = .done (some d) ∧ d.Valid ∧
        d.content = (ws.foldl (fun s w => w.line.change s) (st.secname, st.dict.content)).2 := by
  induction ws with
  | nil =>
      intro st fuel hvalid herrs _ _
      exact ⟨st.dict, by rw [List.flatMap_nil, loadLoop, if_pos rfl, if_pos herrs], hvalid, rfl⟩
  | cons w ws ih =>
      intro st fuel hvalid herrs hline hfuel
      have hpieces : w.pieces.length ≤ (w.pieces.flatMap (·.written)).length :=
        length_le_length_written w.pieces
      rw [List.flatMap_cons, List.length_append, WrittenLine.written, List.length_append,
        List.length_append, List.length_singleton] at hfuel
      obtain ⟨st', hprocess, hvalid', herrs', hline', hchange⟩ := process_status hvalid herrs w.line
      obtain ⟨d, hload, hd, hcontent⟩ := @ih st' (fuel - w.pieces.length - 1) hvalid' herrs' hline'
        (by omega)
      refine ⟨d, ?_, hd, by rw [hcontent, hchange]; rfl⟩
      have htext : st.line ++ w.pieces.flatMap (·.text) ++ w.last = w.line.text := by
        rw [hline, List.nil_append, w.text_eq]
      have hstep := @loadLoop_line before (fuel - w.pieces.length - 1 + 1) w.last
        (ws.flatMap (·.written)) hbefore w.last_free w.pieces st (hline ▸ w.fits)
        (htext ▸ w.ends)
      rw [htext, iniparserLine_text, hprocess, Checked.done_bind, hload] at hstep
      rw [← hstep, List.flatMap_cons, WrittenLine.written]
      congr 1
      · omega
      · simp

lemma iniparserLoad_written (hbefore : before ≠ ch '\\') (ws : List WrittenLine) :
    ∃ d, iniparserLoad before (ws.flatMap (·.written)) = .done (some d) ∧ d.Valid ∧
      d.content = documentMap ws := by
  obtain ⟨d, hload, hvalid, hcontent⟩ := @loadLoop_document before hbefore ws
    ⟨dictionaryNew 0, [], [], 0⟩ _ (.dictionaryNew 0) rfl rfl le_rfl
  refine ⟨d, hload, hvalid, ?_⟩
  rw [hcontent, content_dictionaryNew]
  rfl

/-- **A configuration file is loaded as it is meant**: every key has the value that was set last. -/
theorem iniparserLoad_document (hbefore : before ≠ ch '\\') (ws : List WrittenLine) :
    ∃ d, iniparserLoad before (ws.flatMap (·.written)) = .done (some d) ∧ d.Valid ∧
      ∀ key dflt, iniparserGetstring d key dflt = (documentMap ws (strlwc key)).getD dflt := by
  obtain ⟨d, hload, hvalid, hcontent⟩ := iniparserLoad_written hbefore ws
  refine ⟨d, hload, hvalid, fun key dflt => ?_⟩
  rw [iniparserGetstring, dictionaryGet_eq hvalid, hcontent]

/-- A section with one setting, whose value is in quotes; its line is continued. -/
theorem iniparserLoad_document_mail :
    ∃ d, iniparserLoad 0 (str "[mail]\nsmtp_\\\nport = \"25\" ; tls\n") = .done (some d) ∧
      iniparserGetstring d (str "MAIL:smtp_port") none = some (str "25") := by
  let mail : IniSecname :=
    ⟨⟨str "mail", by decide, stopsAt_cons.mpr rfl, by unfold EndsAt; decide +kernel⟩, by decide⟩
  let port : IniKey :=
    ⟨⟨str "smtp_port", by decide, stopsAt_cons.mpr rfl, by unfold EndsAt; decide +kernel⟩,
      by decide, by decide, by decide⟩
  let gap : IniBlanks := ⟨[ch ' '], by decide +kernel⟩
  let header : WrittenLine :=
    ⟨.section noBlanks noBlanks mail noBlanks noBlanks, [], str "[mail]", rfl, by decide,
      by unfold PiecesFit; decide, by decide⟩
  let setting : WrittenLine :=
    ⟨.setting noBlanks port gap
        (.quoted gap (ch '"') (.inl rfl) (str "25") (by decide) (by decide) (str " ; tls")),
      [⟨str "smtp_", [], by decide, by decide +kernel⟩], str "port = \"25\" ; tls", rfl, by decide,
      ⟨by decide, by unfold PiecesFit; decide⟩, by decide⟩
  obtain ⟨d, hload, -, hget⟩ := @iniparserLoad_document 0 (by decide) [header, setting]
  refine ⟨d, hload, ?_⟩
  rw [hget]
  decide +kernel

end

end G7
