import G7Ctrl.Core.Bytes

/-!
# Comma separated values

The grammar of RFC 4180 as one pass over bytes, with a line feed as the line break; a byte from 128
on is part of some character outside of ASCII, and counts as text.

* `readCsv` — the records of a text.
* **`readCsvFrom_quoted`**, **`readCsvFrom_plain`** — a field with and without quotes.
* **`readCsvFrom_last`** — the last field of a record, and the records after it.
-/

namespace G7

/-- `TEXTDATA` -/
def isCsvText (c : Byte) : Bool := 32 ≤ c && c != ch '"' && c != ch ',' && c != 127

/-- What may stand between quotes, besides two of them. -/
def isCsvQuoted (c : Byte) : Bool := isCsvText c || c == ch ',' || c == cr || c == lf

/-- What has been read of a field: nothing, some text, a quote and what follows, or the quote after
that. -/
inductive CsvState where
  | start
  | plain
  | quoted
  | closed
  deriving DecidableEq

/-- The rest of a field, the fields after it in its record, and the records after that. -/
abbrev CsvRest := CStr × List CStr × List (List CStr)

/-- A character in front of a field. -/
def CsvRest.push (c : Byte) (x : CsvRest) : CsvRest := (c :: x.1, x.2)

/-- A new field. -/
def CsvRest.field (x : CsvRest) : CsvRest := ([], x.1 :: x.2.1, x.2.2)

/-- The records, when the field is the first. -/
def CsvRest.records (x : CsvRest) : List (List CStr) := (x.1 :: x.2.1) :: x.2.2

/-- `file`, from a point inside a field. -/
def readCsvFrom : CsvState → CStr → Option CsvRest
  | st, [] => if st = .quoted then none else some ([], [], [])
  | st, c :: cs =>
      if st = .quoted then
        if c = ch '"' then readCsvFrom .closed cs
        else if isCsvQuoted c then (readCsvFrom .quoted cs).map (CsvRest.push c)
        else none
      else if c = ch ',' then (readCsvFrom .start cs).map CsvRest.field
      else if c = lf then
        if cs = [] then some ([], [], [])
        else (readCsvFrom .start cs).map fun x => ([], [], x.records)
      else if c = ch '"' then
        if st = .start then readCsvFrom .quoted cs
        else if st = .closed then (readCsvFrom .quoted cs).map (CsvRest.push c)
        else none
      else if st ≠ .closed ∧ isCsvText c then (readCsvFrom .plain cs).map (CsvRest.push c)
      else none

/-- The records of a text. -/
def readCsv (s : CStr) : Option (List (List CStr)) :=
  if s = [] then some [] else (readCsvFrom .start s).map CsvRest.records

example : readCsv (str "1,\"a, \"\"b\"\"\"\n2,\n") = some [[str "1", str "a, \"b\""], [str "2", []]] := by
  decide

/-- A field in front of what follows a comma. -/
def CsvRest.fieldOf (t : CStr) (x : CsvRest) : CsvRest := (t, x.1 :: x.2.1, x.2.2)

lemma readCsvFrom_quote {t s : CStr} (ht : ch '"' ∉ t) :
    readCsvFrom .quoted (t ++ ch '"' :: s)
      = if t.all isCsvQuoted then (readCsvFrom .closed s).map fun x => (t ++ x.1, x.2) else none := by
  induction t with
  | nil =>
      show readCsvFrom .closed s = (readCsvFrom .closed s).map id
      rw [Option.map_id, id]
  | cons c cs ih =>
      rw [List.mem_cons, not_or] at ht
      have hc : ¬ c = ch '"' := fun h => ht.1 h.symm
      rw [List.cons_append, readCsvFrom, if_pos rfl, if_neg hc, ih ht.2, List.all_cons]
      cases hquoted : isCsvQuoted c with
      | false => rfl
      | true =>
          rw [if_pos rfl, Bool.true_and, apply_ite (Option.map (CsvRest.push c)), Option.map_map]
          rfl

/-- **A field between quotes** that is not the last. -/
theorem readCsvFrom_quoted {t s : CStr} (ht : ch '"' ∉ t) :
    readCsvFrom .start (ch '"' :: (t ++ ch '"' :: ch ',' :: s))
      = if t.all isCsvQuoted then (readCsvFrom .start s).map (CsvRest.fieldOf t) else none := by
  have hquote : readCsvFrom .start (ch '"' :: (t ++ ch '"' :: ch ',' :: s))
      = readCsvFrom .quoted (t ++ ch '"' :: ch ',' :: s) := rfl
  have hcomma : readCsvFrom .closed (ch ',' :: s) = (readCsvFrom .start s).map CsvRest.field := rfl
  rw [hquote, readCsvFrom_quote ht, hcomma, Option.map_map]
  refine if_congr Iff.rfl (congrArg (Option.map · _) (funext fun x => ?_)) rfl
  simp [CsvRest.field, CsvRest.fieldOf]

/-- **A field without quotes** that is not the last. -/
theorem readCsvFrom_plain {t s : CStr} (ht : t.all isCsvText = true) :
    readCsvFrom .start (t ++ ch ',' :: s) = (readCsvFrom .start s).map (CsvRest.fieldOf t) := by
  have hplain : ∀ {st : CsvState}, st ≠ .quoted → st ≠ .closed →
      readCsvFrom st (t ++ ch ',' :: s) = (readCsvFrom .start s).map (CsvRest.fieldOf t) := by
    induction t with
    | nil =>
        intro st hst _
        rw [List.nil_append, readCsvFrom, if_neg hst, if_pos rfl]
        rfl
    | cons c cs ih =>
        intro st hst hst'
        rw [List.all_cons, Bool.and_eq_true] at ht
        have hc := ht.1
        simp only [isCsvText, Bool.and_eq_true, bne_iff_ne, decide_eq_true_eq] at hc
        have hlf : c ≠ lf := by
          rintro rfl
          exact absurd hc.1.1.1 (by decide)
        rw [List.cons_append, readCsvFrom, if_neg hst, if_neg hc.1.2, if_neg hlf,
          if_neg hc.1.1.2, if_pos ⟨hst', ht.1⟩, ih ht.2 (by decide) (by decide), Option.map_map]
        rfl
  exact hplain (by decide) (by decide)

/-- **The last field of a record**, between quotes. -/
theorem readCsvFrom_last {t s : CStr} (ht : ch '"' ∉ t) :
    readCsvFrom .start (ch '"' :: (t ++ ch '"' :: lf :: s))
      = if t.all isCsvQuoted then (readCsv s).map fun rs => (t, [], rs) else none := by
  have hquote : readCsvFrom .start (ch '"' :: (t ++ ch '"' :: lf :: s))
      = readCsvFrom .quoted (t ++ ch '"' :: lf :: s) := rfl
  have hline : readCsvFrom .closed (lf :: s)
      = (readCsv s).map fun rs => ([], [], rs) := by
    rw [readCsvFrom, if_neg (by decide), if_neg (by decide), if_pos rfl, readCsv,
      apply_ite (Option.map _), Option.map_map]
    rfl
  rw [hquote, readCsvFrom_quote ht, hline, Option.map_map]
  refine if_congr Iff.rfl (congrArg (Option.map · _) (funext fun x => ?_)) rfl
  simp

end G7
