import G7Ctrl.Shell.Words

/-!
# Texts with escaped double quotes

A text is put between double quotes after a backslash has been put before each `"` in it, and
nothing has been done about `$`, backquotes and backslashes.

* `escaped` — the text with these backslashes.
* `ExpandsTo` — what is read between double quotes, whatever follows the closing one.
* `Quotable` — texts for which a backslash before each `"` is enough.
* **`expandsTo_escaped_iff`** — exactly these are expanded to themselves.  A text in which a
  backslash is active may close the quotes early, and go on with single quotes and words of its
  own; that it does not come out as itself in the end is shown by two measures of what is read.
-/

namespace G7

/-- The text with a backslash before each `"`. -/
def escaped (t : List Byte) : List Byte :=
  t.flatMap fun c => if c = ch '"' then [ch '\\', ch '"'] else [c]

/-- Between double quotes, `q` is expanded to `t`, whatever follows. -/
def ExpandsTo (q : List Byte) (t : Word) : Prop :=
  ∀ rest, readWith next .gap (ch '"' :: (q ++ ch '"' :: rest)) = readWith next (.word t) rest

/-- A text that has no `$` and no backquote, and a backslash only before a character it does not
quote. -/
def Quotable : List Byte → Prop
  | [] => True
  | c :: cs => c ≠ ch '$' ∧ c ≠ ch '`' ∧ (c = ch '\\' → KeepsBackslash cs) ∧ Quotable cs

instance decidableQuotable : DecidablePred Quotable
  | [] => inferInstanceAs (Decidable True)
  | c :: cs =>
      let _ := decidableQuotable cs
      inferInstanceAs (Decidable (c ≠ ch '$' ∧ c ≠ ch '`' ∧ (c = ch '\\' → KeepsBackslash cs) ∧
        Quotable cs))

@[simp] lemma escaped_nil : escaped [] = [] := rfl

@[simp] lemma escaped_quote (cs : List Byte) :
    escaped (ch '"' :: cs) = ch '\\' :: ch '"' :: escaped cs := by
  simp [escaped]

lemma escaped_cons {c : Byte} (h : c ≠ ch '"') (cs : List Byte) :
    escaped (c :: cs) = c :: escaped cs := by
  simp [escaped, h]

/-- Each `"` is one character more. -/
lemma length_escaped (t : List Byte) : (escaped t).length = t.length + t.count (ch '"') := by
  induction t with
  | nil => rfl
  | cons c cs ih =>
      by_cases hc : c = ch '"'
      · rw [hc, escaped_quote, List.length_cons, List.length_cons, ih, List.length_cons,
          List.count_cons_self]
        omega
      · rw [escaped_cons hc, List.length_cons, ih, List.length_cons, List.count_cons_of_ne hc]
        omega

/-- A character apart from the backslash is in the escaped text if it is in the text. -/
lemma mem_of_mem_escaped {c : Byte} (hc : c ≠ ch '\\') {t : List Byte} (h : c ∈ escaped t) :
    c ∈ t := by
  obtain ⟨d, hd, hmem⟩ := List.mem_flatMap.mp h
  split_ifs at hmem with hq
  · simp only [List.mem_cons, hc, List.not_mem_nil, or_false, false_or] at hmem
    rwa [hmem, ← hq]
  · rwa [List.mem_singleton.mp hmem]

/-- Escaping adds no character but backslashes, and only to `"`. -/
lemma bulk_escaped (t : List Byte) : bulk (escaped t) = t.length := by
  induction t with
  | nil => rfl
  | cons c cs ih =>
      by_cases hc : c = ch '"'
      · have hslash : bulk [ch '\\'] = 1 := rfl
        have hquote : bulk [ch '"'] = 0 := rfl
        rw [hc, escaped_quote, bulk_cons, bulk_cons (ch '"'), ih, hslash, hquote, List.length_cons]
        omega
      · rw [escaped_cons hc, bulk_cons, bulk_singleton hc, ih, List.length_cons]
        omega

/-- A character that no backslash quotes between double quotes. -/
lemma ne_of_isEscapable {c d : Byte} (h : isEscapable d = false) (hc : isEscapable c = true) :
    d ≠ c := by
  rintro rfl
  exact absurd hc (by simp [h])

/-- A `"` with its backslash is read as the `"`. -/
lemma readWith_escapedQuote (w : Word) (rest : List Byte) :
    readWith next (.dquote w) (ch '\\' :: ch '"' :: rest)
      = readWith next (.dquote (w ++ [ch '"'])) rest := by
  have hfirst : next (.dquote w) (ch '\\') = some ([], .dquoteEscape w) := rfl
  have hsecond : next (.dquoteEscape w) (ch '"') = some ([], .dquote (w ++ [ch '"'])) := rfl
  rw [readWith_silent hfirst, readWith_silent hsecond]

/-- A quotable text is read as it is. -/
lemma readWith_quotable : ∀ {t : Word} (w : Word) (rest : List Byte), Quotable t →
    readWith next (.dquote w) (escaped t ++ rest) = readWith next (.dquote (w ++ t)) rest
  | [], w, rest, _ => by simp
  | [c], w, rest, h => by
      obtain ⟨hdol, hback, hesc, -⟩ := h
      have hne : c ≠ ch '\\' := fun he => hesc he
      by_cases hc : c = ch '"'
      · rw [hc, escaped_quote, escaped_nil, List.cons_append, List.singleton_append,
          readWith_escapedQuote]
      · rw [escaped_cons hc, escaped_nil]
        exact readWith_silent (by simp [next, hc, hdol, hback, hne]) rest
  | c :: d :: ds, w, rest, h => by
      obtain ⟨hdol, hback, hesc, htl⟩ := h
      by_cases hc : c = ch '"'
      · rw [hc, escaped_quote, List.cons_append, List.cons_append, readWith_escapedQuote,
          readWith_quotable _ rest htl]
        simp
      rw [escaped_cons hc]
      by_cases he : c = ch '\\'
      · obtain ⟨hesc', hlf⟩ := hesc he
        have hd : d ≠ ch '"' := ne_of_isEscapable hesc' (by decide)
        have hfirst : next (.dquote w) c = some ([], .dquoteEscape w) := by
          simp [next, he, ch]
        have hsecond : next (.dquoteEscape w) d = some ([], .dquote (w ++ [ch '\\', d])) := by
          simp [next, hesc', hlf]
        rw [escaped_cons hd, List.cons_append, List.cons_append, readWith_silent hfirst,
          readWith_silent hsecond, readWith_quotable _ rest htl.2.2.2]
        simp [he]
      · have hfirst : next (.dquote w) c = some ([], .dquote (w ++ [c])) := by
          simp [next, hc, hdol, hback, he]
        rw [List.cons_append, readWith_silent hfirst, readWith_quotable _ rest htl]
        simp

/-! ## No single quotes -/

/-- What a mode has of the current word. -/
def ReadMode.held : ReadMode → Word
  | .gap => []
  | .word w | .escape w | .dquote w | .dquoteEscape w | .squote w => w

/-- A single quote that quotes. -/
def opensQuote : ReadMode → Byte → Bool
  | .gap, c | .word _, c => c = ch '\''
  | _, _ => false

/-- The single quotes in words. -/
def wordsQuotes (ws : List Word) : ℕ := (ws.map (List.count (ch '\''))).sum

lemma wordsQuotes_append (ws ws' : List Word) :
    wordsQuotes (ws ++ ws') = wordsQuotes ws + wordsQuotes ws' := by
  simp [wordsQuotes]

lemma quotes_nextInWord {w : Word} {c : Byte} {ws : List Word} {m : ReadMode}
    (h : nextInWord w c = some (ws, m)) :
    wordsQuotes ws + m.held.count (ch '\'') + (if opensQuote (.word w) c then 1 else 0)
      ≤ w.count (ch '\'') + [c].count (ch '\'') := by
  simp only [nextInWord] at h
  split_ifs at h with hb hd hs he hsp <;> obtain ⟨rfl, rfl⟩ := Prod.mk.inj (Option.some.inj h)
  · have hs : c ≠ ch '\'' := by
      rintro rfl
      exact absurd hb (by decide)
    simp [wordsQuotes, ReadMode.held, opensQuote, hs]
  · subst hd
    simp [wordsQuotes, ReadMode.held, opensQuote, ch]
  · subst hs
    simp [wordsQuotes, ReadMode.held, opensQuote]
  · subst he
    simp [wordsQuotes, ReadMode.held, opensQuote, ch]
  · simp [wordsQuotes, ReadMode.held, opensQuote, hs]

/-- A step keeps no more single quotes than it reads; one that quotes is lost. -/
lemma quotes_next {m m' : ReadMode} {c : Byte} {ws : List Word} (h : next m c = some (ws, m')) :
    wordsQuotes ws + m'.held.count (ch '\'') + (if opensQuote m c then 1 else 0)
      ≤ m.held.count (ch '\'') + [c].count (ch '\'') := by
  cases m with
  | gap =>
      simp only [next] at h
      split_ifs at h with hb hh
      · obtain ⟨rfl, rfl⟩ := Prod.mk.inj (Option.some.inj h)
        have hs : c ≠ ch '\'' := by
          rintro rfl
          exact absurd hb (by decide)
        simp [wordsQuotes, ReadMode.held, opensQuote, hs]
      · exact quotes_nextInWord h
  | word w => exact quotes_nextInWord h
  | escape w =>
      simp only [next] at h
      split_ifs at h
      obtain ⟨rfl, rfl⟩ := Prod.mk.inj (Option.some.inj h)
      simp [wordsQuotes, ReadMode.held, opensQuote]
  | dquote w =>
      simp only [next] at h
      split_ifs at h <;> obtain ⟨rfl, rfl⟩ := Prod.mk.inj (Option.some.inj h) <;>
        simp [wordsQuotes, ReadMode.held, opensQuote]
  | dquoteEscape w =>
      simp only [next] at h
      have hslash : ch '\\' ≠ ch '\'' := by decide
      split_ifs at h <;> obtain ⟨rfl, rfl⟩ := Prod.mk.inj (Option.some.inj h) <;>
        simp [wordsQuotes, ReadMode.held, opensQuote, List.count_cons, hslash]
  | squote w =>
      simp only [next] at h
      split_ifs at h <;> obtain ⟨rfl, rfl⟩ := Prod.mk.inj (Option.some.inj h) <;>
        simp [wordsQuotes, ReadMode.held, opensQuote]

lemma wordsQuotes_finish (m : ReadMode) (ws : List Word) (h : finish m = some ws) :
    wordsQuotes ws ≤ m.held.count (ch '\'') + 0 := by
  cases m with
  | gap =>
      obtain rfl := Option.some.inj h
      simp [wordsQuotes]
  | word w =>
      obtain rfl := Option.some.inj h
      simp [wordsQuotes, ReadMode.held]
  | _ => exact absurd h (by simp [finish])

lemma sum_quotes (s : List Byte) :
    (s.map fun c => [c].count (ch '\'')).sum = s.count (ch '\'') := by
  induction s with
  | nil => rfl
  | cons c cs ih =>
      rw [List.map_cons, List.sum_cons, ih, ← List.count_append, List.singleton_append]

/-- Escaping adds no single quotes. -/
lemma count_escaped (t : List Byte) : (escaped t).count (ch '\'') = t.count (ch '\'') := by
  induction t with
  | nil => rfl
  | cons c cs ih =>
      by_cases hc : c = ch '"'
      · rw [hc, escaped_quote, List.count_cons_of_ne (by decide), List.count_cons_of_ne (by decide),
          List.count_cons_of_ne (by decide), ih]
      · rw [escaped_cons hc, List.count_cons, List.count_cons, ih]

/-! ## No lost backslashes -/

/-- The characters of words. -/
def wordsLength (ws : List Word) : ℕ := (ws.map List.length).sum

/-- The characters a mode has read, and may still keep. -/
def ReadMode.worth : ReadMode → ℕ
  | .gap => 0
  | .word w | .dquote w | .squote w => w.length
  | .escape w | .dquoteEscape w => w.length + 1

/-- A backslash that is lost between double quotes, other than one before a `"`. -/
def losesBackslash : ReadMode → Byte → Bool
  | .dquoteEscape _, c => isEscapable c && c ≠ ch '"'
  | _, _ => false

/-- The mode is not between single quotes. -/
def ReadMode.NoSquote : ReadMode → Prop
  | .squote _ => False
  | _ => True

lemma wordsLength_append (ws ws' : List Word) :
    wordsLength (ws ++ ws') = wordsLength ws + wordsLength ws' := by
  simp [wordsLength]

lemma worth_nextInWord {w : Word} {c : Byte} {ws : List Word} {m : ReadMode} (hq : c ≠ ch '\'')
    (h : nextInWord w c = some (ws, m)) :
    m.NoSquote ∧ wordsLength ws + m.worth ≤ w.length + bulk [c] := by
  simp only [nextInWord, hq, if_false] at h
  split_ifs at h with hb hd he hsp <;> obtain ⟨rfl, rfl⟩ := Prod.mk.inj (Option.some.inj h)
  · exact ⟨trivial, by simp [wordsLength, ReadMode.worth]⟩
  · exact ⟨trivial, by simp [wordsLength, ReadMode.worth]⟩
  · exact ⟨trivial, by simp [wordsLength, ReadMode.worth, bulk_singleton hd]⟩
  · exact ⟨trivial, by simp [wordsLength, ReadMode.worth, bulk_singleton hd]⟩

/-- Without single quotes, a step keeps no more characters than it reads, not counting the `"`s: in
an escaped text one comes with each backslash that is kept for it. -/
lemma worth_next {m m' : ReadMode} {c : Byte} {ws : List Word} (hm : m.NoSquote)
    (h : refuse opensQuote next m c = some (ws, m')) :
    m'.NoSquote ∧
      wordsLength ws + m'.worth + (if losesBackslash m c then 1 else 0) ≤ m.worth + bulk [c] := by
  obtain ⟨hopens, h⟩ := refuse_eq_some.mp h
  cases m with
  | gap =>
      have hq : c ≠ ch '\'' := by simpa [opensQuote] using hopens
      simp only [next] at h
      split_ifs at h with hb hh
      · obtain ⟨rfl, rfl⟩ := Prod.mk.inj (Option.some.inj h)
        exact ⟨trivial, by simp [wordsLength, ReadMode.worth, losesBackslash]⟩
      · exact worth_nextInWord hq h
  | word w => exact worth_nextInWord (by simpa [opensQuote] using hopens) h
  | escape w =>
      simp only [next] at h
      split_ifs at h
      obtain ⟨rfl, rfl⟩ := Prod.mk.inj (Option.some.inj h)
      exact ⟨trivial, by simp [wordsLength, ReadMode.worth, losesBackslash]⟩
  | dquote w =>
      simp only [next] at h
      split_ifs at h with hd hx he <;> obtain ⟨rfl, rfl⟩ := Prod.mk.inj (Option.some.inj h)
      · exact ⟨trivial, by simp [wordsLength, ReadMode.worth, losesBackslash]⟩
      · exact ⟨trivial, by simp [wordsLength, ReadMode.worth, losesBackslash, bulk_singleton hd]⟩
      · exact ⟨trivial, by simp [wordsLength, ReadMode.worth, losesBackslash, bulk_singleton hd]⟩
  | dquoteEscape w =>
      simp only [next] at h
      split_ifs at h with hesc hlf <;> obtain ⟨rfl, rfl⟩ := Prod.mk.inj (Option.some.inj h)
      · refine ⟨trivial, ?_⟩
        by_cases hd : c = ch '"'
        · simp [wordsLength, ReadMode.worth, losesBackslash, hd]
        · simp [wordsLength, ReadMode.worth, losesBackslash, hesc, hd, bulk_singleton hd]
      · have hd : c ≠ ch '"' := by
          rintro rfl
          exact hesc (by decide)
        exact ⟨trivial, by simp [wordsLength, ReadMode.worth, losesBackslash, hesc,
          bulk_singleton hd]⟩
  | squote w => exact hm.elim

lemma wordsLength_finish (m : ReadMode) (ws : List Word) (h : finish m = some ws) :
    wordsLength ws ≤ m.worth + 0 := by
  cases m with
  | gap =>
      obtain rfl := Option.some.inj h
      simp [wordsLength]
  | word w =>
      obtain rfl := Option.some.inj h
      simp [wordsLength, ReadMode.worth]
  | _ => exact absurd h (by simp [finish])

/-! ## Reading a text back -/

/-- The reader without single quotes and lost backslashes. -/
def plainNext : ReadMode → Byte → Option (List Word × ReadMode) :=
  refuse losesBackslash (refuse opensQuote next)

lemma plainNext_eq_some {m : ReadMode} {c : Byte} {e : List Word × ReadMode}
    (h : plainNext m c = some e) : losesBackslash m c = false ∧ next m c = some e := by
  obtain ⟨hloses, hopens⟩ := refuse_eq_some.mp h
  exact ⟨hloses, (refuse_eq_some.mp hopens).2⟩

/-- An escaped text that is read without them is quotable. -/
lemma quotable_of_plainNext : ∀ {t : Word} (w : Word) {ws : List Word},
    readWith plainNext (.dquote w) (escaped t ++ [ch '"']) = some ws → Quotable t
  | [], _, _, _ => trivial
  | [c], w, ws, h => by
      by_cases hc : c = ch '"'
      · rw [hc]
        decide
      rw [escaped_cons hc, escaped_nil, List.singleton_append, readWith] at h
      obtain ⟨e, hstep, htail⟩ := Option.bind_eq_some_iff.mp h
      obtain ⟨-, hnext⟩ := plainNext_eq_some hstep
      simp only [next, hc, if_false] at hnext
      split_ifs at hnext with hx he <;> simp only [Bool.or_eq_true, decide_eq_true_eq, not_or] at hx
      · -- the closing `"` is quoted by the backslash
        obtain rfl := Option.some.inj hnext
        have hquoted : plainNext (.dquoteEscape w) (ch '"')
            = some ([], .dquote (w ++ [ch '"'])) := rfl
        simp [readWith, hquoted, finish] at htail
      · exact ⟨hx.1, hx.2, fun hback => absurd hback he, trivial⟩
  | c :: d :: ds, w, ws, h => by
      by_cases hc : c = ch '"'
      · have hfirst : plainNext (.dquote w) (ch '\\') = some ([], .dquoteEscape w) := rfl
        have hsecond : plainNext (.dquoteEscape w) (ch '"')
            = some ([], .dquote (w ++ [ch '"'])) := rfl
        rw [hc, escaped_quote, List.cons_append, List.cons_append, readWith_silent hfirst,
          readWith_silent hsecond] at h
        rw [hc]
        exact ⟨by decide, by decide, fun hback => absurd hback (by decide),
          quotable_of_plainNext _ h⟩
      rw [escaped_cons hc, List.cons_append, readWith] at h
      obtain ⟨e, hstep, htail⟩ := Option.bind_eq_some_iff.mp h
      obtain ⟨-, hnext⟩ := plainNext_eq_some hstep
      simp only [next, hc, if_false] at hnext
      split_ifs at hnext with hx he <;>
        simp only [Bool.or_eq_true, decide_eq_true_eq, not_or] at hx <;>
        obtain rfl := Option.some.inj hnext
      · by_cases hd : d = ch '"'
        · -- the backslash quotes the one that was put before the `"`
          have hlost : plainNext (.dquoteEscape w) (ch '\\') = none := rfl
          simp [hd, readWith, hlost] at htail
        have hrest : readWith plainNext (.dquoteEscape w) (d :: (escaped ds ++ [ch '"']))
            = some ws := by simpa [escaped_cons hd] using htail
        rw [readWith] at hrest
        obtain ⟨e, hstep', htail'⟩ := Option.bind_eq_some_iff.mp hrest
        obtain ⟨hloses, hnext'⟩ := plainNext_eq_some hstep'
        have hesc : isEscapable d = false := by simpa [losesBackslash, hd] using hloses
        simp only [next, hesc, Bool.false_eq_true, if_false] at hnext'
        split_ifs at hnext' with hlf
        obtain rfl := Option.some.inj hnext'
        have hread : readWith plainNext (.dquote (w ++ [ch '\\', d])) (escaped ds ++ [ch '"'])
            = some ws := by simpa using htail'
        have hds := quotable_of_plainNext _ hread
        exact ⟨hx.1, hx.2, fun _ => ⟨hesc, hlf⟩, ne_of_isEscapable hesc (by decide),
          ne_of_isEscapable hesc (by decide),
          fun hback => absurd hback (ne_of_isEscapable hesc (by decide)), hds⟩
      · have hread : readWith plainNext (.dquote (w ++ [c])) (escaped (d :: ds) ++ [ch '"'])
            = some ws := by simpa using htail
        exact ⟨hx.1, hx.2, fun hback => absurd hback he, quotable_of_plainNext _ hread⟩

/-- A text that comes out as it is keeps its single quotes, and then all its characters. -/
lemma plainNext_of_next {t : Word}
    (h : readWith next (.dquote []) (escaped t ++ [ch '"']) = some [t]) :
    readWith plainNext (.dquote []) (escaped t ++ [ch '"']) = some [t] := by
  have hstep : ∀ m m' c ws, True → next m c = some (ws, m') →
      True ∧ wordsQuotes ws + m'.held.count (ch '\'') + (if opensQuote m c then 1 else 0)
        ≤ m.held.count (ch '\'') + [c].count (ch '\'') :=
    fun _ _ _ _ _ hnext => ⟨trivial, quotes_next hnext⟩
  have hquotes : wordsQuotes [t] = (ReadMode.dquote []).held.count (ch '\'')
      + ((escaped t ++ [ch '"']).map fun c => [c].count (ch '\'')).sum + 0 := by
    rw [sum_quotes, List.count_append, count_escaped]
    simp [wordsQuotes, ReadMode.held, ch]
  have hopens : readWith (refuse opensQuote next) (.dquote []) (escaped t ++ [ch '"']) = some [t] :=
    (readWith_tight (fun _ => True) wordsQuotes_append wordsQuotes_finish hstep trivial h).2 hquotes
  have hlength : wordsLength [t] = (ReadMode.dquote []).worth
      + ((escaped t ++ [ch '"']).map fun c => bulk [c]).sum + 0 := by
    rw [sum_bulk, bulk_append, bulk_escaped]
    simp [wordsLength, ReadMode.worth, bulk]
  have hvalid : (ReadMode.dquote []).NoSquote := trivial
  have hworth : ∀ m m' c ws, m.NoSquote → refuse opensQuote next m c = some (ws, m') →
      m'.NoSquote ∧
        wordsLength ws + m'.worth + (if losesBackslash m c then 1 else 0) ≤ m.worth + bulk [c] :=
    fun _ _ _ _ hm hnext => worth_next hm hnext
  exact (readWith_tight ReadMode.NoSquote wordsLength_append wordsLength_finish hworth hvalid
    hopens).2 hlength

/-- **With its double quotes escaped, a text is expanded to itself between double quotes exactly
when it is quotable.** -/
theorem expandsTo_escaped_iff (t : Word) : ExpandsTo (escaped t) t ↔ Quotable t := by
  have hopen : next .gap (ch '"') = some ([], .dquote []) := rfl
  constructor
  · intro h
    have hread := h []
    rw [readWith_silent hopen] at hread
    exact quotable_of_plainNext [] (plainNext_of_next hread)
  · intro h rest
    have hclose : next (.dquote t) (ch '"') = some ([], .word t) := rfl
    rw [readWith_silent hopen, readWith_quotable [] _ h, List.nil_append, readWith_silent hclose]

end G7
