import G7Ctrl.Xstr.Append
import G7Ctrl.Command.ErrorReplies

/-!
# The fields of a normal reply as they are shown

`handle_device_reply` shows the fields of an `"$OK:"` reply joined by commas, put together in a
buffer of `RESP_LEN` bytes.  A field that does not fit is left out, and the next one is tried after
its comma.

* `ShowsFields` — the response is the joined fields if they fit, and otherwise a beginning of them.
* **`showsFields_iff`** — this holds exactly when the first field that does not fit is the last one
  or leaves no room for anything after its comma (`MisfitIsLast`).
-/

namespace G7

/-- The fields as the device sent them. -/
def joinedFields (flds : List CStr) : CStr := [ch ','].intercalate flds

/-- `resp` is the response shown for a normal reply; a translation of the fields may follow it. -/
def Responds (reply : List Byte) (tagbuff resp : CStr) : Prop :=
  ∀ cmdargToText, ∃ translation,
    handleDeviceReply cmdargToText reply tagbuff
        = (0, deviceReplyPrompt ++ resp ++ translation) ∧
      (cmdargToText = none → translation = [])

/-- **The fields are shown as they are.**  The response is the joined fields, or a beginning of
them when they do not fit the response buffer. -/
def ShowsFields (reply : List Byte) (tagbuff : CStr) (flds : List CStr) : Prop :=
  ∃ resp, Responds reply tagbuff resp ∧ resp <+: joinedFields flds ∧
    ((joinedFields flds).length < respLen → resp = joinedFields flds)

/-- No field but the last one is the first not to fit in the buffer, unless the fields before it
leave room for at most one character. -/
def MisfitIsLast (flds : List CStr) : Prop :=
  ∀ before f after, flds = before ++ f :: after → before ≠ [] → after ≠ [] →
    (joinedFields (before ++ [f])).length < respLen ∨
      respLen - 2 ≤ (joinedFields before).length

/-- A response is determined by the reply. -/
lemma Responds.unique {reply : List Byte} {tagbuff resp resp' : CStr}
    (h : Responds reply tagbuff resp) (h' : Responds reply tagbuff resp') : resp = resp' := by
  obtain ⟨t, ht, htnil⟩ := h none
  obtain ⟨t', ht', htnil'⟩ := h' none
  rw [htnil rfl, List.append_nil] at ht
  rw [htnil' rfl, List.append_nil, ht, Prod.mk.injEq, List.append_cancel_left_eq] at ht'
  exact ht'.2

/-- **What is shown for a normal reply.** -/
lemma responds_joinFields {reply : List Byte} {r : DevcmdReply}
    (hr : extractDevcmdReply reply = some r) (hisok : r.isok = true) :
    Responds reply r.tag (joinFields r.flds) := by
  have hloc : ¬ (byteAt reply 0 ≠ ch '$' ∧ byteAt reply 0 = ch '3' ∧ (cstr reply).length > 60) :=
    fun h => h.1 (byteAt_of_extractDevcmdReply hr)
  intro cmdargToText
  cases cmdargToText with
  | none => exact ⟨[], by simp [handleDeviceReply, hloc, hr, hisok], fun _ => rfl⟩
  | some f =>
      simp only [handleDeviceReply, if_neg hloc, hr, ne_eq, not_true_eq_false, if_false, hisok,
        Bool.not_true, reduceCtorEq, false_implies, and_true]
      by_cases hnil : r.flds = []
      · exact ⟨[], by simp [hnil]⟩
      · by_cases htext : (f r.cmd r.flds).2 = true
        · exact ⟨(f r.cmd r.flds).1, by simp [hnil, htext]⟩
        · exact ⟨(f r.cmd r.flds).1 ++ str "\n[ERR] Cannot parse device reply",
            by simp [hnil, htext]⟩

/-- No field of an accepted reply contains the separator. -/
lemma comma_notMem_flds {reply : List Byte} {r : DevcmdReply}
    (hr : extractDevcmdReply reply = some r) (hisok : r.isok = true) :
    ∀ f ∈ r.flds, ch ',' ∉ f := by
  have hextract : ∃ isok mem, extractDevcmd isok mem = some r := by
    rw [extractDevcmdReply] at hr
    split_ifs at hr with hok herr hdigit
    · exact ⟨_, _, hr⟩
    · cases hr
      cases hisok
    · exact ⟨_, _, hr⟩
  obtain ⟨isok, mem, hmem⟩ := hextract
  obtain ⟨rest, -, hflds⟩ := exists_extractDevcmd.mp ⟨r, hmem, rfl⟩
  intro f hf
  rw [extractFields] at hflds
  split_ifs at hflds
  · rw [← Option.some.inj hflds] at hf
    cases hf
  · rw [xstrsplitfields_some hflds] at hf
    exact notMem_of_mem_splitOn hf

/-- The response buffer is filled by bounded appending. -/
lemma joinFields_cons (f : CStr) (fs : List CStr) :
    joinFields (f :: fs) = appendPieces (ch ',') respLen (f.take (respLen - 1)) fs := rfl

/-- A first field that does not fit fills the buffer. -/
lemma joinFields_cons_of_ge {f : CStr} (h : respLen ≤ f.length) (fs : List CStr) :
    joinFields (f :: fs) = f.take (respLen - 1) := by
  rw [joinFields_cons, appendPieces_full (by rw [List.length_take]; omega)]

/-- With a first field that fits, only the others matter. -/
lemma misfitIsLast_cons {f : CStr} {fs : List CStr} :
    MisfitIsLast (f :: fs) ↔ NoGap (ch ',') respLen f fs := by
  constructor
  · intro h before piece after hsplit hne
    have hlast := h (f :: before) piece after (by rw [hsplit]; rfl) (List.cons_ne_nil _ _) hne
    rwa [joinedFields, joinedFields, List.cons_append, intercalate_eq_joinOnto,
      intercalate_eq_joinOnto] at hlast
  · intro h before piece after hsplit hbefore hne
    obtain ⟨g, before, rfl⟩ := List.exists_cons_of_ne_nil hbefore
    obtain ⟨rfl, hfs⟩ := List.cons.inj hsplit
    rw [joinedFields, joinedFields, List.cons_append, intercalate_eq_joinOnto,
      intercalate_eq_joinOnto]
    exact h before piece after hfs hne

/-- **When the fields are shown as they are**, for an accepted normal reply. -/
theorem showsFields_iff {reply : List Byte} {r : DevcmdReply}
    (hr : extractDevcmdReply reply = some r) (hisok : r.isok = true) (hne : r.flds ≠ []) :
    ShowsFields reply r.tag r.flds ↔ MisfitIsLast r.flds := by
  have hcomma := comma_notMem_flds hr hisok
  have hresp := responds_joinFields hr hisok
  have honly : ShowsFields reply r.tag r.flds ↔ joinFields r.flds <+: joinedFields r.flds ∧
      ((joinedFields r.flds).length < respLen → joinFields r.flds = joinedFields r.flds) := by
    constructor
    · rintro ⟨resp, hresp', hshown⟩
      rwa [hresp.unique hresp']
    · exact fun hshown => ⟨_, hresp, hshown⟩
  obtain ⟨f, fs, hflds⟩ := List.exists_cons_of_ne_nil hne
  rw [honly, hflds, misfitIsLast_cons, joinedFields, intercalate_eq_joinOnto]
  rcases Nat.lt_or_ge f.length respLen with hlt | hge
  · have htake : f.take (respLen - 1) = f := List.take_of_length_le (by omega)
    have hpieces : ∀ p ∈ fs, ch ',' ∉ p := by
      intro p hp
      exact hcomma p (by rw [hflds]; exact List.mem_cons_of_mem _ hp)
    rw [joinFields_cons, htake, ← appendPieces_prefix_iff hpieces]
    exact ⟨fun h => h.1, fun h => ⟨h, appendPieces_of_lt⟩⟩
  · have hlen := length_le_joinOnto (ch ',') f fs
    rw [joinFields_cons_of_ge hge]
    refine iff_of_true ⟨?_, fun hshort => absurd hshort (by omega)⟩ (noGap_of_ge (by omega))
    exact (List.take_prefix _ _).trans (List.prefix_append _ _)

/-- The fields of a short reply are shown. -/
theorem showsFields_short :
    ShowsFields (str "$OK:VLOSS+0042=1,0") (str "0042") [str "1", str "0"] :=
  (showsFields_iff (r := ⟨true, str "VLOSS", str "0042", [str "1", str "0"]⟩)
    (by decide +kernel) rfl (by decide)).mpr (misfitIsLast_cons.mpr
      (noGap_cons.mpr ⟨fun h => absurd rfl h, fun before _ _ h _ => by cases before <;> cases h⟩))

/-- Three fields of 120, 50 and one character. -/
def gapFields : List CStr := [List.replicate 120 (ch 'a'), List.replicate 50 (ch 'b'), [ch 'c']]

/-- A reply with these fields. -/
def gapReply : CStr := str "$OK:VLOSS+0042=" ++ joinedFields gapFields

/-- The second field is left out between the first and the third one. -/
theorem gapReply_drops :
    extractDevcmdReply gapReply = some ⟨true, str "VLOSS", str "0042", gapFields⟩ ∧
    handleDeviceReply none gapReply (str "0042")
      = (0, deviceReplyPrompt ++ List.replicate 120 (ch 'a') ++ str ",,c") ∧
    ¬ ShowsFields gapReply (str "0042") gapFields := by
  have hr : extractDevcmdReply gapReply = some ⟨true, str "VLOSS", str "0042", gapFields⟩ := by
    decide +kernel
  refine ⟨hr, by decide +kernel, ?_⟩
  rintro ⟨resp, hresp, hpre, -⟩
  have hshown := responds_joinFields hr rfl
  have hnot : ¬ joinFields gapFields <+: joinedFields gapFields := by decide +kernel
  rw [hresp.unique hshown] at hpre
  exact hnot hpre

end G7
