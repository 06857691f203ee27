import G7Ctrl.Core.Bytes

/-!
# The words of a shell command

What a POSIX shell makes of a command line, as far as it consists of one simple command whose words
stand for themselves: blanks separate words, a backslash, single quotes and double quotes quote,
and the quoting characters are removed.  Everything else a command line may contain (operators and
newlines, expansions of every kind, whether or not there is something to expand to, comments, a
quotation that is not closed, and what the standard leaves unspecified) makes it something other
than such a command, and has no words here.

* `shellWords` — the words of a command line.
* `Plain`, `QuoteSafe` — texts that stand for themselves unquoted, and between double quotes.
* `Arg`, `commandLine` — a line that is put together from arguments, bare or in double quotes.
* **`words_tight`** — a line that has as many characters other than `"` as its words have, and one
  more for each gap between them, has no other syntax than these gaps and double quotes.
* **`words_commandLine_iff`** — such a line is read back as its arguments exactly when each of them
  stands for itself in the way it is written.
-/

namespace G7

/-- A word. -/
abbrev Word := List Byte

/-- `<blank>` -/
def isBlank (c : Byte) : Bool := c = ch ' ' || c = 9

/-- An unquoted character that ends the simple command or makes the word something to expand.  A
bracket expression is recognised by its `]`; without one, a `[` stands for itself. -/
def isSpecial (c : Byte) : Bool := c = lf || c ∈ str ";&|<>()$`*?]"

/-- A character that a backslash quotes also between double quotes. -/
def isEscapable (c : Byte) : Bool := c ∈ str "$`\"\\"

/-- Where the reader is, and what it has of the current word: between words; in a word; behind an
unquoted backslash; between double quotes; behind a backslash there; between single quotes. -/
inductive ReadMode
  | gap
  | word (w : Word)
  | escape (w : Word)
  | dquote (w : Word)
  | dquoteEscape (w : Word)
  | squote (w : Word)
  deriving DecidableEq

/-- Reading a character in a word: the words it completes, and the new mode. -/
def nextInWord (w : Word) (c : Byte) : Option (List Word × ReadMode) :=
  if isBlank c then some ([w], .gap)
  else if c = ch '"' then some ([], .dquote w)
  else if c = ch '\'' then some ([], .squote w)
  else if c = ch '\\' then some ([], .escape w)
  else if isSpecial c then none
  else some ([], .word (w ++ [c]))

/-- Reading a character. -/
def next : ReadMode → Byte → Option (List Word × ReadMode)
  | .gap, c =>
      if isBlank c then some ([], .gap)
      else if c = ch '#' || c = ch '~' then none
      else nextInWord [] c
  | .word w, c => nextInWord w c
  | .escape w, c => if c = lf then none else some ([], .word (w ++ [c]))
  | .dquote w, c =>
      if c = ch '"' then some ([], .word w)
      else if c = ch '$' || c = ch '`' then none
      else if c = ch '\\' then some ([], .dquoteEscape w)
      else some ([], .dquote (w ++ [c]))
  | .dquoteEscape w, c =>
      if isEscapable c then some ([], .dquote (w ++ [c]))
      else if c = lf then none
      else some ([], .dquote (w ++ [ch '\\', c]))
  | .squote w, c =>
      if c = ch '\'' then some ([], .word w) else some ([], .squote (w ++ [c]))

/-- The end of the line. -/
def finish : ReadMode → Option (List Word)
  | .gap => some []
  | .word w => some [w]
  | _ => none

/-- Reading a line with a given reader. -/
def readWith (step : ReadMode → Byte → Option (List Word × ReadMode)) :
    ReadMode → List Byte → Option (List Word)
  | m, [] => finish m
  | m, c :: cs => (step m c).bind fun e => (readWith step e.2 cs).map (e.1 ++ ·)

/-- The words of a command line, or `none` if it is not a simple command of literal words. -/
def shellWords (line : List Byte) : Option (List Word) := readWith next .gap line

example : shellWords (str "sh a.sh -l \"1 2\" 'x;y'\\ z")
    = some [str "sh", str "a.sh", str "-l", str "1 2", str "x;y z"] := by decide

example : shellWords (str "sh a.sh -t 1;reboot") = none := by decide

/-! ## Texts that stand for themselves -/

/-- An unquoted character that stands for itself. -/
def isOrdinary (c : Byte) : Bool :=
  !isBlank c && c ≠ ch '"' && c ≠ ch '\'' && c ≠ ch '\\' && !isSpecial c

/-- A text that is not empty, and begins neither a comment nor a tilde expansion. -/
def StartsWord : List Byte → Prop
  | [] => False
  | c :: _ => c ≠ ch '#' ∧ c ≠ ch '~'

/-- A text that is one word and stands for itself. -/
structure Plain (s : Word) : Prop where
  /-- A word begins here. -/
  starts : StartsWord s
  /-- Its characters stand for themselves. -/
  ordinary : ∀ c ∈ s, isOrdinary c

/-- A backslash before this text, between double quotes, stands for itself. -/
def KeepsBackslash : List Byte → Prop
  | [] => False
  | c :: _ => isEscapable c = false ∧ c ≠ lf

/-- A text that stands for itself between double quotes: it has no `"`, no `$` and no backquote,
and a backslash only before a character it does not quote. -/
def QuoteSafe : List Byte → Prop
  | [] => True
  | c :: cs =>
      c ≠ ch '"' ∧ c ≠ ch '$' ∧ c ≠ ch '`' ∧ (c = ch '\\' → KeepsBackslash cs) ∧ QuoteSafe cs

instance : DecidablePred StartsWord
  | [] => inferInstanceAs (Decidable False)
  | c :: _ => inferInstanceAs (Decidable (c ≠ ch '#' ∧ c ≠ ch '~'))

instance (s : Word) : Decidable (Plain s) :=
  decidable_of_iff (StartsWord s ∧ s.all isOrdinary = true)
    ⟨fun h => ⟨h.1, List.all_eq_true.mp h.2⟩,
      fun h => ⟨h.starts, List.all_eq_true.mpr h.ordinary⟩⟩

instance : DecidablePred KeepsBackslash
  | [] => inferInstanceAs (Decidable False)
  | c :: _ => inferInstanceAs (Decidable (isEscapable c = false ∧ c ≠ lf))

instance decidableQuoteSafe : DecidablePred QuoteSafe
  | [] => inferInstanceAs (Decidable True)
  | c :: cs =>
      let _ := decidableQuoteSafe cs
      inferInstanceAs (Decidable (c ≠ ch '"' ∧ c ≠ ch '$' ∧ c ≠ ch '`' ∧
        (c = ch '\\' → KeepsBackslash cs) ∧ QuoteSafe cs))

lemma nextInWord_ordinary {c : Byte} (h : isOrdinary c) (w : Word) :
    nextInWord w c = some ([], .word (w ++ [c])) := by
  simp only [isOrdinary, Bool.and_eq_true, Bool.not_eq_true', decide_eq_true_eq, ne_eq] at h
  obtain ⟨⟨⟨⟨hb, hd⟩, hs⟩, he⟩, hsp⟩ := h
  simp [nextInWord, hb, hd, hs, he, hsp]

lemma readWith_emit {step : ReadMode → Byte → Option (List Word × ReadMode)} {m m' : ReadMode}
    {c : Byte} {ws : List Word} (h : step m c = some (ws, m')) (cs : List Byte) :
    readWith step m (c :: cs) = (readWith step m' cs).map (ws ++ ·) := by
  rw [readWith, h, Option.bind_some]

lemma readWith_silent {step : ReadMode → Byte → Option (List Word × ReadMode)} {m m' : ReadMode}
    {c : Byte} (h : step m c = some ([], m')) (cs : List Byte) :
    readWith step m (c :: cs) = readWith step m' cs := by
  rw [readWith_emit h]
  simp

/-- Ordinary characters are added to the word. -/
lemma readWith_ordinary : ∀ {s : Word} (w : Word) (rest : List Byte),
    (∀ c ∈ s, isOrdinary c) →
      readWith next (.word w) (s ++ rest) = readWith next (.word (w ++ s)) rest
  | [], w, rest, _ => by simp
  | c :: cs, w, rest, h => by
      have hc : next (.word w) c = some ([], .word (w ++ [c])) :=
        nextInWord_ordinary (h c (List.mem_cons_self ..)) w
      rw [List.cons_append, readWith_silent hc,
        readWith_ordinary _ rest fun d hd => h d (List.mem_cons_of_mem _ hd)]
      simp

/-- So are safe characters between double quotes. -/
lemma readWith_quoteSafe : ∀ {s : Word} (w : Word) (rest : List Byte), QuoteSafe s →
    readWith next (.dquote w) (s ++ rest) = readWith next (.dquote (w ++ s)) rest
  | [], w, rest, _ => by simp
  | [c], w, rest, h => by
      obtain ⟨hq, hd, hb, hesc, _⟩ := h
      have hne : c ≠ ch '\\' := fun he => hesc he
      exact readWith_silent (by simp [next, hq, hd, hb, hne]) rest
  | c :: d :: ds, w, rest, h => by
      obtain ⟨hq, hdol, hb, hesc, htl⟩ := h
      by_cases he : c = ch '\\'
      · obtain ⟨hesc', hlf⟩ := hesc he
        have hfirst : next (.dquote w) c = some ([], .dquoteEscape w) := by
          simp [next, he, ch]
        have hsecond : next (.dquoteEscape w) d = some ([], .dquote (w ++ [ch '\\', d])) := by
          simp [next, hesc', hlf]
        rw [List.cons_append, List.cons_append, readWith_silent hfirst, readWith_silent hsecond,
          readWith_quoteSafe _ rest htl.2.2.2.2]
        simp [he]
      · have hfirst : next (.dquote w) c = some ([], .dquote (w ++ [c])) := by
          simp [next, hq, hdol, hb, he]
        rw [List.cons_append, readWith_silent hfirst, readWith_quoteSafe _ rest htl]
        simp

/-- A plain text is read as it is. -/
lemma readWith_plain {s : Word} (h : Plain s) (rest : List Byte) :
    readWith next .gap (s ++ rest) = readWith next (.word s) rest := by
  obtain ⟨hstarts, hord⟩ := h
  cases s with
  | nil => exact hstarts.elim
  | cons c cs =>
      obtain ⟨hhash, htilde⟩ := hstarts
      have hc := hord c (List.mem_cons_self ..)
      have hblank : isBlank c = false := by
        simp only [isOrdinary, Bool.and_eq_true, Bool.not_eq_true'] at hc
        exact hc.1.1.1.1
      have hfirst : next .gap c = some ([], .word [c]) := by
        simp only [next, hblank, hhash, htilde, nextInWord_ordinary hc]
        rfl
      rw [List.cons_append, readWith_silent hfirst,
        readWith_ordinary [c] _ fun d hd => hord d (List.mem_cons_of_mem _ hd)]
      rfl

/-- A safe text is read as it is between double quotes. -/
lemma readWith_quoted {s : Word} (h : QuoteSafe s) (rest : List Byte) :
    readWith next .gap (ch '"' :: (s ++ ch '"' :: rest)) = readWith next (.word s) rest := by
  have hopen : next .gap (ch '"') = some ([], .dquote []) := rfl
  have hclose : next (.dquote s) (ch '"') = some ([], .word s) := rfl
  rw [readWith_silent hopen, readWith_quoteSafe [] _ h, List.nil_append, readWith_silent hclose]

/-! ## Lines without other syntax -/

/-- The number of characters other than `"`. -/
def bulk (s : List Byte) : ℕ := s.countP (· ≠ ch '"')

/-- The characters of words, and one for each word. -/
def wordsBulk (ws : List Word) : ℕ := (ws.map bulk).sum + ws.length

/-- What a mode holds of a word, and a backslash that may still belong to it. -/
def ReadMode.bulk : ReadMode → ℕ
  | .gap => 0
  | .word w | .escape w | .dquote w | .squote w => G7.bulk w
  | .dquoteEscape w => G7.bulk w + 1

/-- Steps at which a character other than `"` is dropped, beyond one blank after a word. -/
def isSlack : ReadMode → Byte → Bool
  | .gap, c => isBlank c || c = ch '\'' || c = ch '\\'
  | .word _, c => c = ch '\'' || c = ch '\\'
  | .dquoteEscape _, c => isEscapable c
  | _, _ => false

/-- The reader that allows no slack. -/
def strictNext (m : ReadMode) (c : Byte) : Option (List Word × ReadMode) :=
  if isSlack m c then none else next m c

@[simp] lemma bulk_append (s t : List Byte) : bulk (s ++ t) = bulk s + bulk t :=
  List.countP_append ..

lemma bulk_cons (c : Byte) (cs : List Byte) : bulk (c :: cs) = bulk [c] + bulk cs :=
  bulk_append [c] cs

lemma bulk_singleton {c : Byte} (h : c ≠ ch '"') : bulk [c] = 1 := by
  simp [bulk, h]

lemma wordsBulk_append (ws ws' : List Word) :
    wordsBulk (ws ++ ws') = wordsBulk ws + wordsBulk ws' := by
  simp only [wordsBulk, List.map_append, List.sum_append, List.length_append]
  omega

lemma isBlank_ne_quote {c : Byte} (h : isBlank c) : c ≠ ch '"' := by
  rintro rfl
  exact absurd h (by decide)

/-- A step keeps no more than it reads; a slack step keeps less. -/
lemma bulk_nextInWord {w : Word} {c : Byte} {ws : List Word} {m : ReadMode}
    (h : nextInWord w c = some (ws, m)) :
    wordsBulk ws + m.bulk + (if isSlack (.word w) c then 1 else 0) ≤ bulk w + bulk [c] := by
  simp only [nextInWord] at h
  split_ifs at h with hb hd hs he hsp <;> obtain ⟨rfl, rfl⟩ := Prod.mk.inj (Option.some.inj h)
  · have hs : isSlack (.word w) c = false := by
      rcases Bool.or_eq_true_iff.mp hb with h | h <;> rw [of_decide_eq_true h] <;> rfl
    simp [wordsBulk, ReadMode.bulk, bulk_singleton (isBlank_ne_quote hb), hs]
  · subst hd
    simp [wordsBulk, ReadMode.bulk, isSlack, ch]
  · subst hs
    simp [wordsBulk, ReadMode.bulk, isSlack, bulk, ch]
  · subst he
    simp [wordsBulk, ReadMode.bulk, isSlack, bulk, ch]
  · simp [wordsBulk, ReadMode.bulk, isSlack, hs, he]

lemma bulk_next {m m' : ReadMode} {c : Byte} {ws : List Word} (h : next m c = some (ws, m')) :
    wordsBulk ws + m'.bulk + (if isSlack m c then 1 else 0) ≤ m.bulk + bulk [c] := by
  cases m with
  | gap =>
      simp only [next] at h
      split_ifs at h with hb hh
      · obtain ⟨rfl, rfl⟩ := Prod.mk.inj (Option.some.inj h)
        simp [wordsBulk, ReadMode.bulk, isSlack, hb, bulk_singleton (isBlank_ne_quote hb)]
      · have hword := bulk_nextInWord h
        have hslack : isSlack .gap c = isSlack (.word []) c := by simp [isSlack, hb]
        rwa [hslack]
  | word w => exact bulk_nextInWord h
  | escape w =>
      simp only [next] at h
      split_ifs at h with hlf
      obtain ⟨rfl, rfl⟩ := Prod.mk.inj (Option.some.inj h)
      simp [wordsBulk, ReadMode.bulk, isSlack]
  | dquote w =>
      simp only [next] at h
      split_ifs at h with hq hx he <;> obtain ⟨rfl, rfl⟩ := Prod.mk.inj (Option.some.inj h)
      · simp [wordsBulk, ReadMode.bulk, isSlack]
      · simp [wordsBulk, ReadMode.bulk, isSlack, bulk_singleton hq]
      · simp [wordsBulk, ReadMode.bulk, isSlack]
  | dquoteEscape w =>
      simp only [next] at h
      split_ifs at h with hesc hlf <;> obtain ⟨rfl, rfl⟩ := Prod.mk.inj (Option.some.inj h)
      · simp only [wordsBulk, ReadMode.bulk, isSlack, hesc, bulk_append, List.map_nil, List.sum_nil,
          List.length_nil, if_true]
        omega
      · have hslash : bulk [ch '\\', c] = 1 + bulk [c] := by
          rw [bulk_cons, bulk_singleton (by decide)]
        simp only [wordsBulk, ReadMode.bulk, isSlack, hesc, hslash, bulk_append, List.map_nil,
          List.sum_nil, List.length_nil, Bool.false_eq_true, if_false]
        omega
  | squote w =>
      simp only [next] at h
      split_ifs at h with hq <;> obtain ⟨rfl, rfl⟩ := Prod.mk.inj (Option.some.inj h)
      · simp [wordsBulk, ReadMode.bulk, isSlack]
      · simp [wordsBulk, ReadMode.bulk, isSlack]

/-- A reader without some of its steps. -/
def refuse (slack : ReadMode → Byte → Bool) (step : ReadMode → Byte → Option (List Word × ReadMode))
    (m : ReadMode) (c : Byte) : Option (List Word × ReadMode) :=
  if slack m c then none else step m c

lemma refuse_eq_some {slack : ReadMode → Byte → Bool}
    {step : ReadMode → Byte → Option (List Word × ReadMode)} {m : ReadMode} {c : Byte}
    {e : List Word × ReadMode} :
    refuse slack step m c = some e ↔ slack m c = false ∧ step m c = some e := by
  rw [refuse]
  split_ifs with hs <;> simp [hs]

/-- **Reading against a measure.**  Where no step of a reader adds to a measure of the words and of
the mode more than the character it reads is worth, and a slack step adds less, the words of a line
measure at most what the line is worth; and a line whose words measure that much is read without
slack. -/
theorem readWith_tight {step : ReadMode → Byte → Option (List Word × ReadMode)}
    {slack : ReadMode → Byte → Bool} {words : List Word → ℕ} {mode : ReadMode → ℕ}
    {char : Byte → ℕ} {k : ℕ} (valid : ReadMode → Prop)
    (happend : ∀ ws ws', words (ws ++ ws') = words ws + words ws')
    (hfinish : ∀ m ws, finish m = some ws → words ws ≤ mode m + k)
    (hstep : ∀ m m' c ws, valid m → step m c = some (ws, m') →
      valid m' ∧ words ws + mode m' + (if slack m c then 1 else 0) ≤ mode m + char c) :
    ∀ {s : List Byte} {m : ReadMode} {ws : List Word}, valid m → readWith step m s = some ws →
      words ws ≤ mode m + (s.map char).sum + k ∧
        (words ws = mode m + (s.map char).sum + k → readWith (refuse slack step) m s = some ws)
  | [], m, ws, _, h => ⟨hfinish m ws h, fun _ => h⟩
  | c :: cs, m, ws, hm, h => by
      rw [readWith] at h
      obtain ⟨⟨ws₁, m'⟩, hnext, htail⟩ := Option.bind_eq_some_iff.mp h
      obtain ⟨ws₂, hrest, rfl⟩ := Option.map_eq_some_iff.mp htail
      obtain ⟨hm', hworth⟩ := hstep m m' c ws₁ hm hnext
      obtain ⟨hle, htight⟩ := readWith_tight valid happend hfinish hstep hm' hrest
      rw [happend, List.map_cons, List.sum_cons]
      simp only at hle htight hrest ⊢
      refine ⟨by omega, fun heq => ?_⟩
      have hslack : slack m c = false := by
        by_contra hs
        rw [if_pos (by simpa using hs)] at hworth
        omega
      rw [hslack] at hworth
      rw [readWith_emit (refuse_eq_some.mpr ⟨hslack, hnext⟩), htight (by simp at hworth; omega)]
      rfl

lemma sum_bulk (s : List Byte) : (s.map fun c => bulk [c]).sum = bulk s := by
  induction s with
  | nil => rfl
  | cons c cs ih => rw [List.map_cons, List.sum_cons, ih, ← bulk_cons]

lemma wordsBulk_finish {m : ReadMode} {ws : List Word} (h : finish m = some ws) :
    wordsBulk ws ≤ m.bulk + 1 := by
  cases m with
  | gap =>
      obtain rfl := Option.some.inj h
      simp [wordsBulk]
  | word w =>
      obtain rfl := Option.some.inj h
      simp [wordsBulk, ReadMode.bulk]
  | _ => exact absurd h (by simp [finish])

/-- **A line has at least as many characters other than `"` as its words have**, and one more for
each gap.  When it has no more than that, it is read without slack. -/
theorem words_tight {s : List Byte} {m : ReadMode} {ws : List Word}
    (h : readWith next m s = some ws) :
    wordsBulk ws ≤ m.bulk + bulk s + 1 ∧
      (wordsBulk ws = m.bulk + bulk s + 1 → readWith strictNext m s = some ws) := by
  have hstep : ∀ m m' c ws, True → next m c = some (ws, m') →
      True ∧ wordsBulk ws + m'.bulk + (if isSlack m c then 1 else 0) ≤ m.bulk + bulk [c] :=
    fun _ _ _ _ _ hnext => ⟨trivial, bulk_next hnext⟩
  rw [← sum_bulk s]
  exact readWith_tight (fun _ => True) wordsBulk_append (fun _ _ => wordsBulk_finish) hstep trivial h

/-- A mode that has no `"` in its word, and is not in other syntax than double quotes. -/
def ReadMode.NoQuote : ReadMode → Prop
  | .gap => True
  | .word w | .dquote w | .dquoteEscape w => ch '"' ∉ w
  | .escape _ | .squote _ => False

/-- `strictNext` is `next` where there is no slack. -/
lemma strictNext_eq_some {m : ReadMode} {c : Byte} {e : List Word × ReadMode} :
    strictNext m c = some e ↔ isSlack m c = false ∧ next m c = some e := by
  rw [strictNext]
  split_ifs with hs <;> simp [hs]

lemma noQuote_nextInWord {w : Word} {m : ReadMode} {c : Byte} {ws : List Word} (hw : ch '"' ∉ w)
    (hs : isSlack (.word w) c = false) (h : nextInWord w c = some (ws, m)) :
    m.NoQuote ∧ ∀ v ∈ ws, ch '"' ∉ v := by
  simp only [isSlack, Bool.or_eq_false_iff, decide_eq_false_iff_not] at hs
  simp only [nextInWord, hs.1, hs.2, if_false] at h
  split_ifs at h with hb hd hsp <;> obtain ⟨rfl, rfl⟩ := Prod.mk.inj (Option.some.inj h)
  · simpa [ReadMode.NoQuote] using hw
  · simpa [ReadMode.NoQuote] using hw
  · simpa [ReadMode.NoQuote] using ⟨hw, Ne.symm hd⟩

/-- Strict steps put no `"` into a word. -/
lemma noQuote_strictNext {m m' : ReadMode} {c : Byte} {ws : List Word} (hm : m.NoQuote)
    (h : strictNext m c = some (ws, m')) : m'.NoQuote ∧ ∀ w ∈ ws, ch '"' ∉ w := by
  obtain ⟨hs, h⟩ := strictNext_eq_some.mp h
  cases m with
  | gap =>
      have hb : isBlank c = false := by
        simp only [isSlack, Bool.or_eq_false_iff] at hs
        exact hs.1.1
      simp only [next, hb, Bool.false_eq_true, if_false] at h
      split_ifs at h with hh
      exact noQuote_nextInWord (List.not_mem_nil) (by simpa [isSlack, hb] using hs) h
  | word w => exact noQuote_nextInWord hm hs h
  | escape w => exact hm.elim
  | dquote w =>
      simp only [next] at h
      split_ifs at h with hq hx he <;> obtain ⟨rfl, rfl⟩ := Prod.mk.inj (Option.some.inj h)
      · exact ⟨hm, by simp⟩
      · exact ⟨hm, by simp⟩
      · exact ⟨by simpa [ReadMode.NoQuote] using ⟨hm, Ne.symm hq⟩, by simp⟩
  | dquoteEscape w =>
      have hesc : isEscapable c = false := hs
      have hq : ch '"' ≠ c := by
        rintro rfl
        exact absurd hesc (by decide)
      simp only [next, hesc, Bool.false_eq_true, if_false] at h
      split_ifs at h with hlf
      obtain ⟨rfl, rfl⟩ := Prod.mk.inj (Option.some.inj h)
      refine ⟨?_, by simp⟩
      have hslash : ch '"' ≠ ch '\\' := by decide
      exact fun hmem => by
        rcases List.mem_append.mp hmem with hw | hc
        · exact hm hw
        · simp [hslash, hq] at hc
  | squote w => exact hm.elim

/-- **Without slack, no word has a `"` in it.** -/
theorem noQuote_of_strict : ∀ {s : List Byte} {m : ReadMode} {ws : List Word}, m.NoQuote →
    readWith strictNext m s = some ws → ∀ w ∈ ws, ch '"' ∉ w
  | [], m, ws, hm, h => by
      cases m with
      | gap =>
          obtain rfl := Option.some.inj h
          simp
      | word w =>
          obtain rfl := Option.some.inj h
          intro v hv
          rw [List.mem_singleton.mp hv]
          exact hm
      | escape w => exact hm.elim
      | dquote w => exact absurd h (by simp [readWith, finish])
      | dquoteEscape w => exact absurd h (by simp [readWith, finish])
      | squote w => exact hm.elim
  | c :: cs, m, ws, hm, h => by
      rw [readWith] at h
      obtain ⟨⟨ws₁, m'⟩, hstep, htail⟩ := Option.bind_eq_some_iff.mp h
      obtain ⟨ws₂, hrest, rfl⟩ := Option.map_eq_some_iff.mp htail
      obtain ⟨hm', hws₁⟩ := noQuote_strictNext hm hstep
      have hws₂ := noQuote_of_strict hm' hrest
      intro w hw
      rcases List.mem_append.mp hw with hw | hw
      · exact hws₁ w hw
      · exact hws₂ w hw

/-! ## Lines of arguments -/

/-- How an argument is written: as it is, or between double quotes. -/
inductive Arg
  | bare (w : Word)
  | quoted (w : Word)

/-- The word that is meant. -/
def Arg.word : Arg → Word
  | .bare w | .quoted w => w

/-- What is written. -/
def Arg.text : Arg → List Byte
  | .bare w => w
  | .quoted w => ch '"' :: (w ++ [ch '"'])

/-- The text of the argument stands for itself in the way it is written. -/
def Arg.Safe : Arg → Prop
  | .bare w => Plain w
  | .quoted w => QuoteSafe w

/-- The arguments with a blank between them. -/
def commandLine : List Arg → List Byte
  | [] => []
  | [a] => a.text
  | a :: b :: rest => a.text ++ ch ' ' :: commandLine (b :: rest)

lemma bulk_text (a : Arg) : bulk a.text = bulk a.word := by
  cases a with
  | bare w => rfl
  | quoted w => simp [Arg.text, Arg.word, bulk]

/-- The quotes apart, the arguments are all there is. -/
lemma wordsBulk_commandLine : ∀ (a : Arg) (rest : List Arg),
    wordsBulk ((a :: rest).map Arg.word) = bulk (commandLine (a :: rest)) + 1
  | a, [] => by simp [wordsBulk, commandLine, bulk_text]
  | a, b :: rest => by
      have hrest := wordsBulk_commandLine b rest
      have hblank : bulk [ch ' '] = 1 := rfl
      rw [List.map_cons, ← List.singleton_append, wordsBulk_append, hrest, commandLine, bulk_append,
        bulk_cons, bulk_text, hblank]
      simp only [wordsBulk, List.map_singleton, List.sum_singleton, List.length_singleton]
      omega

/-- A safe argument is read as its word. -/
lemma readWith_text {a : Arg} (h : a.Safe) (rest : List Byte) :
    readWith next .gap (a.text ++ rest) = readWith next (.word a.word) rest := by
  cases a with
  | bare w => exact readWith_plain h rest
  | quoted w =>
      rw [Arg.text, List.cons_append, List.append_assoc]
      exact readWith_quoted h rest

/-- Safe arguments are read as their words. -/
lemma words_of_safe : ∀ {args : List Arg}, (∀ a ∈ args, a.Safe) →
    shellWords (commandLine args) = some (args.map Arg.word)
  | [], _ => rfl
  | [a], h => by
      have hread := readWith_text (h a (List.mem_singleton_self a)) []
      rw [List.append_nil] at hread
      exact hread
  | a :: b :: rest, h => by
      have htail := words_of_safe fun c hc => h c (List.mem_cons_of_mem a hc)
      have hblank : next (.word a.word) (ch ' ') = some ([a.word], .gap) := rfl
      rw [shellWords, commandLine, readWith_text (h a (List.mem_cons_self ..)),
        readWith_emit hblank]
      rw [shellWords] at htail
      simp only [htail, Option.map_some]
      rfl

/-- Read without slack into a word that ends with it, an unquoted text is ordinary. -/
lemma ordinary_of_strict : ∀ {s : Word} (w : Word) {tail : List Byte} {ws : List Word},
    ch '"' ∉ s → readWith strictNext (.word w) (s ++ tail) = some ((w ++ s) :: ws) →
      (∀ c ∈ s, isOrdinary c) ∧ readWith strictNext (.word (w ++ s)) tail = some ((w ++ s) :: ws)
  | [], w, tail, ws, _, h => by simpa using h
  | c :: cs, w, tail, ws, hq, h => by
      rw [List.mem_cons, not_or] at hq
      rw [List.cons_append, readWith] at h
      obtain ⟨⟨ws₁, m⟩, hstep, htail⟩ := Option.bind_eq_some_iff.mp h
      obtain ⟨hs, hnext⟩ := strictNext_eq_some.mp hstep
      simp only [isSlack, Bool.or_eq_false_iff, decide_eq_false_iff_not] at hs
      simp only [next, nextInWord, hs.1, hs.2, Ne.symm hq.1, if_false] at hnext
      split_ifs at hnext with hb hsp <;>
        obtain ⟨rfl, rfl⟩ := Prod.mk.inj (Option.some.inj hnext)
      · -- the word ends before the text does
        obtain ⟨ws₂, -, heq⟩ := Option.map_eq_some_iff.mp htail
        have hlen := congrArg List.length (List.cons.inj heq).1
        simp at hlen
      · have htext : w ++ c :: cs = (w ++ [c]) ++ cs := by simp
        rw [htext] at htail ⊢
        have hrest : readWith strictNext (.word (w ++ [c])) (cs ++ tail)
            = some ((w ++ [c] ++ cs) :: ws) := by simpa using htail
        obtain ⟨hord, hread⟩ := ordinary_of_strict (w ++ [c]) hq.2 hrest
        refine ⟨?_, hread⟩
        intro d hd
        rcases List.mem_cons.mp hd with rfl | hd
        · simp [isOrdinary, hb, hsp, hs.1, hs.2, Ne.symm hq.1]
        · exact hord d hd

/-- Read without slack as it is, an unquoted text is plain. -/
lemma plain_of_strict {s : Word} {tail : List Byte} {ws : List Word} (hq : ch '"' ∉ s)
    (htail : tail = [] ∨ ∃ rest, tail = ch ' ' :: rest)
    (h : readWith strictNext .gap (s ++ tail) = some (s :: ws)) :
    Plain s ∧ readWith strictNext (.word s) tail = some (s :: ws) := by
  cases s with
  | nil =>
      rcases htail with rfl | ⟨rest, rfl⟩
      · exact absurd h (by simp [readWith, finish])
      · exact absurd h (by simp [readWith, strictNext, isSlack, isBlank])
  | cons c cs =>
      obtain ⟨e, hstep, -⟩ := Option.bind_eq_some_iff.mp h
      obtain ⟨hs, hnext⟩ := strictNext_eq_some.mp hstep
      have hb : isBlank c = false := by
        simp only [isSlack, Bool.or_eq_false_iff] at hs
        exact hs.1.1
      simp only [next, hb, Bool.false_eq_true, if_false] at hnext
      split_ifs at hnext with hh
      simp only [Bool.or_eq_true, decide_eq_true_eq, not_or] at hh
      have hsame : strictNext .gap c = strictNext (.word []) c := by
        simp [strictNext, isSlack, next, hb, hh.1, hh.2]
      have hword : readWith strictNext (.word []) (c :: cs ++ tail)
          = some (([] ++ c :: cs) :: ws) := by
        rw [List.cons_append, readWith, ← hsame]
        exact h
      obtain ⟨hord, hread⟩ := ordinary_of_strict [] hq hword
      exact ⟨⟨hh, hord⟩, hread⟩

/-- A character between double quotes, apart from `"`: it stands for itself or is a backslash. -/
lemma strictNext_dquote {w : Word} {c : Byte} {e : List Word × ReadMode} (hq : c ≠ ch '"')
    (h : strictNext (.dquote w) c = some e) :
    c ≠ ch '$' ∧ c ≠ ch '`' ∧ (c ≠ ch '\\' ∧ e = ([], .dquote (w ++ [c]))
      ∨ c = ch '\\' ∧ e = ([], .dquoteEscape w)) := by
  obtain ⟨-, hnext⟩ := strictNext_eq_some.mp h
  simp only [next, hq, if_false] at hnext
  split_ifs at hnext with hx he <;> simp only [Bool.or_eq_true, decide_eq_true_eq, not_or] at hx
  · exact ⟨hx.1, hx.2, Or.inr ⟨he, (Option.some.inj hnext).symm⟩⟩
  · exact ⟨hx.1, hx.2, Or.inl ⟨he, (Option.some.inj hnext).symm⟩⟩

/-- A character behind a backslash there: the backslash does not quote it. -/
lemma strictNext_dquoteEscape {w : Word} {c : Byte} {e : List Word × ReadMode}
    (h : strictNext (.dquoteEscape w) c = some e) :
    isEscapable c = false ∧ c ≠ lf ∧ e = ([], .dquote (w ++ [ch '\\', c])) := by
  obtain ⟨hs, hnext⟩ := strictNext_eq_some.mp h
  have hesc : isEscapable c = false := hs
  simp only [next, hesc, Bool.false_eq_true, if_false] at hnext
  split_ifs at hnext with hlf
  exact ⟨hesc, hlf, (Option.some.inj hnext).symm⟩

/-- Read without slack as it is, a text between double quotes is safe there. -/
lemma quoteSafe_of_strict : ∀ {s : Word} (w : Word) {tail : List Byte} {ws : List Word},
    ch '"' ∉ s → readWith strictNext (.dquote w) (s ++ ch '"' :: tail) = some ws →
      QuoteSafe s ∧ readWith strictNext (.word (w ++ s)) tail = some ws
  | [], w, tail, ws, _, h => by
      have hclose : strictNext (.dquote w) (ch '"') = some ([], .word w) := rfl
      rw [List.nil_append, readWith_silent hclose] at h
      simpa [QuoteSafe] using h
  | [c], w, tail, ws, hq, h => by
      rw [List.mem_singleton] at hq
      rw [List.singleton_append, readWith] at h
      obtain ⟨e, hstep, htail⟩ := Option.bind_eq_some_iff.mp h
      obtain ⟨hdol, hback, ⟨hne, rfl⟩ | ⟨-, rfl⟩⟩ := strictNext_dquote (Ne.symm hq) hstep
      · have hclose : strictNext (.dquote (w ++ [c])) (ch '"') = some ([], .word (w ++ [c])) := rfl
        rw [readWith_silent hclose] at htail
        refine ⟨⟨Ne.symm hq, hdol, hback, fun he => absurd he hne, trivial⟩, ?_⟩
        simpa using htail
      · -- a backslash would quote the closing `"`
        have hquoted : strictNext (.dquoteEscape w) (ch '"') = none := rfl
        simp [readWith, hquoted] at htail
  | c :: d :: ds, w, tail, ws, hq, h => by
      rw [List.mem_cons, not_or] at hq
      rw [List.cons_append, readWith] at h
      obtain ⟨e, hstep, htail⟩ := Option.bind_eq_some_iff.mp h
      obtain ⟨hdol, hback, ⟨hne, rfl⟩ | ⟨rfl, rfl⟩⟩ := strictNext_dquote (Ne.symm hq.1) hstep
      · have hread : readWith strictNext (.dquote (w ++ [c])) (d :: ds ++ ch '"' :: tail)
            = some ws := by simpa using htail
        obtain ⟨hsafe, hrest⟩ := quoteSafe_of_strict (w ++ [c]) hq.2 hread
        refine ⟨⟨Ne.symm hq.1, hdol, hback, fun he => absurd he hne, hsafe⟩, ?_⟩
        simpa using hrest
      · have hescaped : (readWith strictNext (.dquoteEscape w) (d :: (ds ++ ch '"' :: tail)))
            = some ws := by simpa using htail
        rw [readWith] at hescaped
        obtain ⟨e, hsecond, hread⟩ := Option.bind_eq_some_iff.mp hescaped
        obtain ⟨hesc, hlf, rfl⟩ := strictNext_dquoteEscape hsecond
        have hread' : readWith strictNext (.dquote (w ++ [ch '\\', d])) (ds ++ ch '"' :: tail)
            = some ws := by simpa using hread
        have hds : ch '"' ∉ ds := fun hmem => hq.2 (List.mem_cons_of_mem d hmem)
        obtain ⟨hsafe, hrest⟩ := quoteSafe_of_strict _ hds hread'
        have hd : ∀ x, isEscapable x = true → d ≠ x := by
          rintro x hx rfl
          exact absurd hx (by simp [hesc])
        refine ⟨⟨Ne.symm hq.1, hdol, hback, fun _ => ⟨hesc, hlf⟩, ?_⟩, ?_⟩
        · exact ⟨hd _ (by decide), hd _ (by decide), hd _ (by decide),
            fun he => absurd he (hd _ (by decide)), hsafe⟩
        · simpa using hrest

/-- Read without slack as its word, an argument is safe. -/
lemma safe_of_strict {a : Arg} {tail : List Byte} {ws : List Word} (hq : ch '"' ∉ a.word)
    (htail : tail = [] ∨ ∃ rest, tail = ch ' ' :: rest)
    (h : readWith strictNext .gap (a.text ++ tail) = some (a.word :: ws)) :
    a.Safe ∧ readWith strictNext (.word a.word) tail = some (a.word :: ws) := by
  cases a with
  | bare w => exact plain_of_strict hq htail h
  | quoted w =>
      have hopen : strictNext .gap (ch '"') = some ([], .dquote []) := rfl
      rw [Arg.text, List.cons_append, readWith_silent hopen, List.append_assoc] at h
      exact quoteSafe_of_strict [] hq h

/-- Arguments that are read without slack as their words are safe. -/
lemma safe_of_words : ∀ {args : List Arg}, (∀ a ∈ args, ch '"' ∉ a.word) →
    readWith strictNext .gap (commandLine args) = some (args.map Arg.word) → ∀ a ∈ args, a.Safe
  | [], _, _ => by simp
  | [a], hq, h => by
      have htext : readWith strictNext .gap (a.text ++ []) = some (a.word :: []) := by
        rw [List.append_nil]
        exact h
      intro b hb
      rw [List.mem_singleton.mp hb]
      exact (safe_of_strict (hq a (List.mem_singleton_self a)) (Or.inl rfl) htext).1
  | a :: b :: rest, hq, h => by
      obtain ⟨hsafe, hread⟩ := safe_of_strict (hq a (List.mem_cons_self ..)) (Or.inr ⟨_, rfl⟩) h
      have hblank : strictNext (.word a.word) (ch ' ') = some ([a.word], .gap) := rfl
      rw [readWith_emit hblank] at hread
      obtain ⟨ws, hws, heq⟩ := Option.map_eq_some_iff.mp hread
      obtain rfl := (List.cons.inj heq).2
      have hrest := safe_of_words (fun c hc => hq c (List.mem_cons_of_mem a hc)) hws
      intro c hc
      rcases List.mem_cons.mp hc with rfl | hc
      · exact hsafe
      · exact hrest c hc

/-- **The arguments of a command line are read back as they are exactly when each is safe in the way
it is written.** -/
theorem words_commandLine_iff (args : List Arg) :
    shellWords (commandLine args) = some (args.map Arg.word) ↔ ∀ a ∈ args, a.Safe := by
  refine ⟨fun h => ?_, words_of_safe⟩
  cases args with
  | nil => simp
  | cons a rest =>
      have htight : wordsBulk ((a :: rest).map Arg.word)
          = ReadMode.gap.bulk + bulk (commandLine (a :: rest)) + 1 := by
        rw [wordsBulk_commandLine, ReadMode.bulk, Nat.zero_add]
      have hstrict := (words_tight h).2 htight
      refine safe_of_words (fun b hb => ?_) hstrict
      exact noQuote_of_strict (show ReadMode.gap.NoQuote from trivial) hstrict _
        (List.mem_map_of_mem hb)

end G7
