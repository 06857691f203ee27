import G7Ctrl.Config.IniDocument

/-!
# Writing a dictionary to a file and loading it again (`iniparser_dump_ini`)

The file has the sections of the dictionary, each with its settings, the keys padded to 30
characters.  Not every dictionary comes back: names and values are written without quotes.

* `Says` — what a piece of a file says, whatever lines it is made of.
* `Dumpable` — what the names and values of a dictionary must be like.
* **`iniparserLoad_dump`** — the file of such a dictionary is loaded again with the same contents.
-/

namespace G7

/-! ## Pieces of a file -/

/-- The text is a piece of a file, and `f` is what it says. -/
def Says (text : CStr) (f : CStr × IniMap → CStr × IniMap) : Prop :=
  ∃ ws : List WrittenLine, ws.flatMap (·.written) = text ∧
    ∀ s, ws.foldl (fun s w => w.line.change s) s = f s

namespace Says

variable {t t' : CStr} {f f' : CStr × IniMap → CStr × IniMap}

lemma nil : Says [] id := ⟨[], rfl, fun _ => rfl⟩

/-- One piece after the other. -/
lemma append (h : Says t f) (h' : Says t' f') : Says (t ++ t') fun s => f' (f s) := by
  obtain ⟨ws, hws, hf⟩ := h
  obtain ⟨ws', hws', hf'⟩ := h'
  refine ⟨ws ++ ws', by rw [List.flatMap_append, hws, hws'], fun s => ?_⟩
  rw [List.foldl_append, hf, hf']

/-- A piece for each element of a list. -/
lemma flatMap {α : Type*} {l : List α} {text : α → CStr} {f : α → CStr × IniMap → CStr × IniMap}
    (h : ∀ x ∈ l, Says (text x) (f x)) :
    Says (l.flatMap text) fun s => l.foldl (fun s x => f x s) s := by
  induction l with
  | nil => exact nil
  | cons x l ih =>
      rw [List.flatMap_cons]
      exact (h x List.mem_cons_self).append (ih fun y hy => h y (List.mem_cons_of_mem x hy))

/-- A line that is not continued. -/
lemma line (l : IniLine) (hfree : lf ∉ l.text) (hfits : l.text.length + 1 < asciilinesz)
    (hends : (l.text.rdropWhile isSpace).getLast? ≠ some (ch '\\')) :
    Says (l.text ++ [lf]) l.change :=
  ⟨[⟨l, [], l.text, rfl, hfree, hfits, hends⟩], by simp [WrittenLine.written], fun _ => rfl⟩

end Says

/-! ## The lines of the file -/

/-- The empty lines. -/
lemma says_blank : Says [lf] id :=
  .line (.blank noBlanks) List.not_mem_nil (by decide) (by decide)

/-- The name of a section, as a dictionary keeps it. -/
structure DumpSecname (name : CStr) extends IniSecname where
  text_eq : text = name
  lower : strlwc name = name
  noLf : lf ∉ name
  fits : name.length + 3 < asciilinesz

/-- The name and the value of a setting, as a dictionary keeps them. -/
structure DumpSetting (key value : CStr) extends IniKey where
  text_eq : text = key
  lower : strlwc key = key
  noLf : lf ∉ key ∧ lf ∉ value
  bare : value ≠ [] → ∃ v : IniBare, v.text = value ∧ value.getLast? ≠ some (ch '\\')
  fits : max key.length 30 + value.length + 4 < asciilinesz

/-- The line of a section. -/
lemma says_section {name : CStr} (h : DumpSecname name) :
    Says (ch '[' :: name ++ [ch ']'] ++ [lf])
      fun s => (name, Function.update s.2 name (some none)) := by
  obtain ⟨n, rfl, hlower, hlf, hfits⟩ := h
  have htext : (IniLine.section noBlanks noBlanks n noBlanks noBlanks).text =
      ch '[' :: n.text ++ [ch ']'] := by
    simp [IniLine.text, noBlanks]
  have hchange : (IniLine.section noBlanks noBlanks n noBlanks noBlanks).change =
      fun s => (n.text, Function.update s.2 n.text (some none)) := by
    funext s
    rw [IniLine.change, hlower]
  have hsays := Says.line (.section noBlanks noBlanks n noBlanks noBlanks)
  rw [htext, hchange] at hsays
  refine hsays ?_ ?_ ?_
  · rw [List.mem_append, List.mem_cons, List.mem_singleton]
    rintro ((heq | hmem) | heq)
    · exact absurd heq (by decide)
    · exact hlf hmem
    · exact absurd heq (by decide)
  · simp
    omega
  · rw [List.rdropWhile_concat_neg _ _ _ (by decide), List.getLast?_concat]
    decide

/-- The line of a setting. -/
lemma says_setting {key value : CStr} (h : DumpSetting key value) :
    Says (dumpLine key value)
      fun s => (s.1, Function.update s.2 (s.1 ++ ch ':' :: key) (some (some value))) := by
  obtain ⟨k, rfl, hlower, ⟨hklf, hvlf⟩, hbare, hfits⟩ := h
  -- the blanks that pad the key, and the one in front of the `=`
  let pad : IniBlanks := ⟨List.replicate (30 - k.text.length) (ch ' ') ++ [ch ' '], by
    intro c hc
    rw [List.mem_append, List.mem_replicate, List.mem_singleton] at hc
    rcases hc with ⟨-, rfl⟩ | rfl
    · rfl
    · rfl⟩
  let gap : IniBlanks := ⟨[ch ' '], by simp; decide⟩
  have hpad : k.text.rightpad 30 (ch ' ') ++ str " = " ++ value =
      k.text ++ pad.text ++ ch '=' :: (ch ' ' :: value) := by
    simp [List.rightpad, pad, str]
  obtain ⟨v, hvtext, hvvalue, hvends⟩ : ∃ v : IniValue, v.text = ch ' ' :: value ∧ v.value = value ∧
      ((ch ' ' :: value).rdropWhile isSpace).getLast? ≠ some (ch '\\') := by
    by_cases hne : value = []
    · refine ⟨.none gap noIniComment, by rw [hne]; rfl, hne.symm, ?_⟩
      rw [hne]
      decide
    · obtain ⟨v, hv, hlast⟩ := hbare hne
      refine ⟨.bare gap v noBlanks noIniComment, ?_, hv, ?_⟩
      · simp [IniValue.text, gap, noBlanks, noIniComment, hv]
      · rw [← hv] at hlast ⊢
        rw [← List.singleton_append, rdropWhile_append (by rw [rdropWhile_of_endsAt v.last]; exact v.ne),
          rdropWhile_of_endsAt v.last, List.getLast?_append_of_ne_nil _ v.ne]
        exact hlast
  have htext : (IniLine.setting noBlanks k pad v).text =
      k.text.rightpad 30 (ch ' ') ++ str " = " ++ value := by
    rw [hpad, IniLine.text, hvtext]
    rfl
  have hchange : (IniLine.setting noBlanks k pad v).change =
      fun s => (s.1, Function.update s.2 (s.1 ++ ch ':' :: k.text) (some (some value))) := by
    funext s
    rw [IniLine.change, hlower, hvvalue]
  have hsays := Says.line (.setting noBlanks k pad v)
  rw [htext, hchange] at hsays
  refine hsays ?_ ?_ ?_
  · rw [hpad, List.mem_append, List.mem_append, List.mem_cons, List.mem_cons]
    rintro ((hmem | hmem) | heq | heq | hmem)
    · exact hklf hmem
    · rw [List.mem_append, List.mem_replicate, List.mem_singleton] at hmem
      rcases hmem with ⟨-, heq⟩ | heq <;> exact absurd heq (by decide)
    · exact absurd heq (by decide)
    · exact absurd heq (by decide)
    · exact hvlf hmem
  · simp [List.rightpad, str]
    omega
  · rw [hpad, rdropWhile_append_cons rfl, List.getLast?_append_of_ne_nil _ (List.cons_ne_nil _ _),
      List.getLast?_cons]
    cases hlast : ((ch ' ' :: value).rdropWhile isSpace).getLast? with
    | none => decide
    | some c =>
        rw [hlast] at hvends
        exact hvends

/-! ## The sections -/

/-- **A dictionary that can be written and loaded again.**  Each of its keys is the name of a
section, without a value, or the name of a setting in one of its sections, with a value. -/
structure Dumpable (d : Dictionary) : Prop where
  secname : ∀ e ∈ d.entries, ch ':' ∉ e.key → e.val = none ∧ Nonempty (DumpSecname e.key)
  setting : ∀ e ∈ d.entries, ch ':' ∈ e.key → ∃ name ∈ iniparserSecnames d, ∃ key value,
    e.key = name ++ ch ':' :: key ∧ e.val = some value ∧ Nonempty (DumpSetting key value)

/-- Setting a key of the map. -/
def setEntry (m : IniMap) (p : CStr × Option CStr) : IniMap := Function.update m p.1 (some p.2)

/-- What is written for a section: its name, and its settings. -/
def sectionEntries (d : Dictionary) (name : CStr) : List (CStr × Option CStr) :=
  (name, none) :: (d.entries.filter fun e => (name ++ [ch ':']).isPrefixOf e.key).map
    fun e => (e.key, e.val)

section

variable {d : Dictionary} {name : CStr}

lemma mem_iniparserSecnames : name ∈ iniparserSecnames d ↔
    ch ':' ∉ name ∧ ∃ e ∈ d.entries, e.key = name := by
  rw [iniparserSecnames, List.mem_filter, List.mem_map, and_comm]
  simp

/-- The settings of a section have its name in front. -/
lemma Dumpable.setting_of_prefix (h : Dumpable d) (hname : name ∈ iniparserSecnames d)
    {e : DictEntry} (he : e ∈ d.entries) (hunder : (name ++ [ch ':']).isPrefixOf e.key = true) :
    ∃ key value, e.key = name ++ ch ':' :: key ∧ e.key.drop (name.length + 1) = key ∧
      e.val = some value ∧ Nonempty (DumpSetting key value) := by
  obtain ⟨rest, hrest⟩ := List.isPrefixOf_iff_prefix.mp hunder
  have hcolon : ch ':' ∈ e.key := by
    rw [← hrest]
    simp
  obtain ⟨name', hname', key, value, hkey, hval, hform⟩ := h.setting e he hcolon
  have hfree := (mem_iniparserSecnames.mp hname).1
  have hfree' := (mem_iniparserSecnames.mp hname').1
  -- the name in front of the first colon
  have hsame : name ++ ch ':' :: rest = name' ++ ch ':' :: key := by
    rw [← hkey, ← hrest]
    simp
  obtain ⟨rfl, rfl⟩ := split_unique hsame hfree hfree'
  refine ⟨rest, value, hkey, ?_, hval, hform⟩
  rw [hkey]
  simp

/-- What the line of a setting says. -/
def settingChange (name : CStr) (s : CStr × IniMap) (e : DictEntry) : CStr × IniMap :=
  (s.1, Function.update s.2 (s.1 ++ ch ':' :: e.key.drop (name.length + 1))
    (some (some (e.val.getD []))))

/-- In its section a setting sets its key. -/
lemma foldl_settingChange {l : List DictEntry}
    (hl : ∀ e ∈ l, e.key = name ++ ch ':' :: e.key.drop (name.length + 1) ∧
      e.val = some (e.val.getD [])) (m : IniMap) :
    l.foldl (settingChange name) (name, m) =
      (name, (l.map fun e => (e.key, e.val)).foldl setEntry m) := by
  induction l generalizing m with
  | nil => rfl
  | cons e l ih =>
      obtain ⟨hkey, hval⟩ := hl e List.mem_cons_self
      rw [List.foldl_cons, settingChange, ← hkey, ← hval, List.map_cons, List.foldl_cons,
        ih fun e' he' => hl e' (List.mem_cons_of_mem e he')]
      rfl

/-- The piece of a section. -/
lemma says_dumpSection (h : Dumpable d) (hname : name ∈ iniparserSecnames d) :
    Says (dumpSection d name) fun s => (name, (sectionEntries d name).foldl setEntry s.2) := by
  obtain ⟨hfree, e, he, rfl⟩ := mem_iniparserSecnames.mp hname
  obtain ⟨-, ⟨hsecname⟩⟩ := h.secname e he hfree
  have hform : ∀ e' ∈ d.entries.filter fun e' => (e.key ++ [ch ':']).isPrefixOf e'.key,
      ∃ key value, e'.key = e.key ++ ch ':' :: key ∧ e'.key.drop (e.key.length + 1) = key ∧
        e'.val = some value ∧ Nonempty (DumpSetting key value) := by
    intro e' he'
    obtain ⟨he', hunder⟩ := List.mem_filter.mp he'
    exact h.setting_of_prefix hname he' hunder
  have hsettings : Says
      ((d.entries.filter fun e' => (e.key ++ [ch ':']).isPrefixOf e'.key).flatMap fun e' =>
        dumpLine (e'.key.drop (e.key.length + 1)) (e'.val.getD []))
      fun s => (d.entries.filter fun e' => (e.key ++ [ch ':']).isPrefixOf e'.key).foldl
        (settingChange e.key) s := by
    refine Says.flatMap fun e' he' => ?_
    obtain ⟨key, value, -, hdrop, hval, ⟨hsetting⟩⟩ := hform e' he'
    have hsays := says_setting hsetting
    rw [← hdrop] at hsays
    simpa only [settingChange, hval, Option.getD_some] using hsays
  have hpiece := (says_blank.append (says_section hsecname)).append hsettings
  have htext : dumpSection d e.key = [lf] ++ (ch '[' :: e.key ++ [ch ']'] ++ [lf]) ++
      (d.entries.filter fun e' => (e.key ++ [ch ':']).isPrefixOf e'.key).flatMap fun e' =>
        dumpLine (e'.key.drop (e.key.length + 1)) (e'.val.getD []) := by
    simp [dumpSection]
  rw [htext]
  convert hpiece using 1
  funext s
  rw [foldl_settingChange fun e' he' => ?_]
  · rfl
  · obtain ⟨key, value, hkey, hdrop, hval, -⟩ := hform e' he'
    exact ⟨by rw [hdrop, hkey], by rw [hval]; rfl⟩

/-! ## The whole file -/

/-- Entries of a map, set one after the other. -/
lemma foldl_setEntry_apply {m : IniMap} (l : List (CStr × Option CStr)) (hl : ∀ p ∈ l, m p.1 = some p.2)
    (m' : IniMap) (k : CStr) :
    l.foldl setEntry m' k = if k ∈ l.map Prod.fst then m k else m' k := by
  induction l generalizing m' with
  | nil => exact (if_neg List.not_mem_nil).symm
  | cons p l ih =>
      rw [List.foldl_cons, ih (fun q hq => hl q (List.mem_cons_of_mem p hq)), List.map_cons,
        setEntry, Function.update_apply]
      by_cases hk : k ∈ l.map Prod.fst
      · rw [if_pos hk, if_pos (List.mem_cons_of_mem _ hk)]
      · by_cases hkp : k = p.1
        · rw [if_neg hk, if_pos hkp, hkp, if_pos List.mem_cons_self, hl p List.mem_cons_self]
        · rw [if_neg hk, if_neg hkp, if_neg fun h => (List.mem_cons.mp h).elim hkp hk]

/-- A map that is set up entry by entry, each of them its own, has just these entries. -/
lemma foldl_setEntry {l : List (CStr × Option CStr)} {m : IniMap}
    (hl : ∀ p ∈ l, m p.1 = some p.2) (hcover : ∀ k, m k ≠ none → k ∈ l.map Prod.fst) :
    l.foldl setEntry (fun _ => none) = m := by
  funext k
  rw [foldl_setEntry_apply l hl]
  split_ifs with hk
  · rfl
  · by_contra hne
    exact hk (hcover k fun hnone => hne hnone.symm)

/-- An entry of a dictionary. -/
lemma Dictionary.Valid.content_eq (h : d.Valid) {e : DictEntry} (he : e ∈ d.entries) :
    d.content e.key = some e.val := by
  rw [Dictionary.content, SlotTable.lookup_of_mem h.unique he, Option.map_some]

/-- All entries are written, each as it is. -/
lemma content_eq_foldl (h : Dumpable d) (hvalid : d.Valid) :
    ((iniparserSecnames d).flatMap (sectionEntries d)).foldl setEntry (fun _ => none) =
      d.content := by
  refine foldl_setEntry (fun p hp => ?_) fun k hk => ?_
  · obtain ⟨name, hname, hp⟩ := List.mem_flatMap.mp hp
    rcases List.mem_cons.mp hp with rfl | hp
    · obtain ⟨hfree, e, he, rfl⟩ := mem_iniparserSecnames.mp hname
      rw [hvalid.content_eq he, (h.secname e he hfree).1]
    · obtain ⟨e, he, rfl⟩ := List.mem_map.mp hp
      exact hvalid.content_eq (List.mem_filter.mp he).1
  · have hmem : k ∈ d.slots.reduceOption.map DictEntry.key := by
      by_contra hnot
      exact hk (Option.map_eq_none_iff.mpr (SlotTable.lookup_eq_none.mpr hnot))
    obtain ⟨e, he, rfl⟩ := List.mem_map.mp hmem
    by_cases hcolon : ch ':' ∈ e.key
    · obtain ⟨name, hname, key, value, hkey, hval, -⟩ := h.setting e he hcolon
      refine List.mem_map.mpr ⟨(e.key, e.val), List.mem_flatMap.mpr ⟨name, hname, ?_⟩, rfl⟩
      refine List.mem_cons_of_mem _ (List.mem_map.mpr ⟨e, List.mem_filter.mpr ⟨he, ?_⟩, rfl⟩)
      rw [List.isPrefixOf_iff_prefix, hkey]
      exact ⟨key, by simp⟩
    · refine List.mem_map.mpr ⟨(e.key, none), List.mem_flatMap.mpr ⟨e.key, ?_, ?_⟩, rfl⟩
      · exact mem_iniparserSecnames.mpr ⟨hcolon, e, he, rfl⟩
      · exact List.mem_cons_self

/-- **A dictionary that is written to a file is loaded again**, with the same contents. -/
theorem iniparserLoad_dump {before : Byte} (hbefore : before ≠ ch '\\') (h : Dumpable d)
    (hvalid : d.Valid) :
    ∃ d', iniparserLoad before (iniparserDumpIni d) = .done (some d') ∧ d'.Valid ∧
      d'.content = d.content := by
  obtain ⟨ws, htext, hsays⟩ : Says (iniparserDumpIni d) fun s =>
      (iniparserSecnames d).foldl
        (fun s name => (name, (sectionEntries d name).foldl setEntry s.2)) s := by
    rw [iniparserDumpIni]
    split_ifs with hnone
    · -- without a section there is no entry at all
      have hempty : d.entries = [] := by
        refine List.eq_nil_iff_forall_not_mem.mpr fun e he => ?_
        by_cases hcolon : ch ':' ∈ e.key
        · obtain ⟨name, hname, -⟩ := h.setting e he hcolon
          rw [hnone] at hname
          contradiction
        · have hname := mem_iniparserSecnames.mpr ⟨hcolon, e, he, rfl⟩
          rw [hnone] at hname
          contradiction
      rw [hempty, hnone]
      exact Says.nil
    · exact (Says.flatMap fun name hname => says_dumpSection h hname).append says_blank
  obtain ⟨d', hload, hvalid', hcontent⟩ := iniparserLoad_written hbefore ws
  refine ⟨d', htext ▸ hload, hvalid', ?_⟩
  rw [hcontent, documentMap, hsays, ← content_eq_foldl h hvalid, List.foldl_flatMap]
  have hsnd : ∀ (l : List CStr) (s : CStr × IniMap),
      (l.foldl (fun s name => (name, (sectionEntries d name).foldl setEntry s.2)) s).2 =
        l.foldl (fun m name => (sectionEntries d name).foldl setEntry m) s.2 := by
    intro l
    induction l with
    | nil => exact fun _ => rfl
    | cons name l ih => exact fun s => ih _
  exact hsnd _ _

/-- A dictionary with a section and a setting in it. -/
def oneSetting : Dictionary where
  n := 2
  slots := some ⟨str "mail", none, dictionaryHash (str "mail")⟩ ::
    some ⟨str "mail:smtp_port", some (str "25"), dictionaryHash (str "mail:smtp_port")⟩ ::
      List.replicate 126 none

/-- It is written and loaded again. -/
theorem iniparserLoad_dump_oneSetting :
    ∃ d', iniparserLoad 0 (iniparserDumpIni oneSetting) = .done (some d') ∧ d'.Valid ∧
      d'.content = oneSetting.content := by
  have hentries : oneSetting.entries = [⟨str "mail", none, dictionaryHash (str "mail")⟩,
      ⟨str "mail:smtp_port", some (str "25"), dictionaryHash (str "mail:smtp_port")⟩] := by
    decide +kernel
  have hvalid : oneSetting.Valid := by
    have hunique : SlotTable.Unique DictEntry.key oneSetting.slots := by
      rw [SlotTable.Unique, ← Dictionary.entries, hentries]
      decide
    refine ⟨by decide +kernel, fun e he => ?_, hunique, by decide +kernel⟩
    rw [← Dictionary.entries, hentries] at he
    rcases List.mem_pair.mp he with rfl | rfl
    · rfl
    · rfl
  have hmail : DumpSecname (str "mail") :=
    ⟨⟨⟨str "mail", by decide, stopsAt_cons.mpr rfl, by unfold EndsAt; decide +kernel⟩, by decide⟩,
      rfl, by decide +kernel, by decide, by decide⟩
  have hport : DumpSetting (str "smtp_port") (str "25") := by
    refine ⟨⟨⟨str "smtp_port", by decide, stopsAt_cons.mpr rfl, by unfold EndsAt; decide +kernel⟩,
      by decide, by decide, by decide⟩, rfl, by decide +kernel, by decide, fun _ => ?_, by decide⟩
    exact ⟨⟨⟨str "25", by decide, stopsAt_cons.mpr rfl, by unfold EndsAt; decide +kernel⟩,
      by decide +kernel, by unfold IsQuote; decide +kernel⟩, rfl, by decide⟩
  refine iniparserLoad_dump (by decide) ⟨fun e he hfree => ?_, fun e he hcolon => ?_⟩ hvalid
  · rw [hentries] at he
    rcases List.mem_pair.mp he with rfl | rfl
    · exact ⟨rfl, ⟨hmail⟩⟩
    · exact absurd hfree (by decide)
  · rw [hentries] at he
    rcases List.mem_pair.mp he with rfl | rfl
    · exact absurd hcolon (by decide)
    · exact ⟨str "mail", by decide +kernel, str "smtp_port", str "25", rfl, rfl, ⟨hport⟩⟩

end

end G7
