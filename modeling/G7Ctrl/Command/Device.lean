import G7Ctrl.Command.Emulator
import G7Ctrl.Command.ReplyFormat
import G7Ctrl.Command.LocationReplies
import G7Ctrl.Xstr.Decimal
import Mathlib.Data.FinEnum

/-!
# Commands to the device and its answers

The texts that `prepare_cmd_to_device` puts together, and that of the tracker thread after a fence
event, are in the format that the emulator takes apart; and what it answers is taken apart again in
the server.

* **`replyTag_okReply`**, **`finishReply_okReply`** — the server finds the tag in the answer again,
  and the client is shown the fields of the answer.
* **`wellFormed_preparedCmd`**, **`wellFormed_trackCommand`** — the commands are in the format.
* **`userCommand_answered`** — what comes of a user's command, and of its answer.
-/

namespace G7

/-! ## The answer in the server -/

/-- **A reply in the format is taken apart**, whatever the memory behind it holds, when its name and
its tag leave room in their buffers. -/
theorem ReplyParts.extractDevcmdReply_text (p : ReplyParts) (hcmd : p.cmd.length ≤ 12)
    (htag : p.tagText.length ≤ 5) (after : List Byte) :
    extractDevcmdReply (p.text ++ 0 :: after) = some ⟨true, p.cmd, p.tagText, p.flds⟩ := by
  have hrun : extractDevcmdReplyMem (cblock p.text) =
      .done ⟨some (true, p.flds), p.cmd ++ [0], p.tagText ++ [0]⟩ :=
    (p.run_of_le hcmd).trans (p.tagMem_tagPart _ htag)
  have hread := extractDevcmdReplyMem_reply hrun after
  rw [DevcmdRun.reply, Option.map_some, cstr_append_nul p.cmd_nul,
    cstr_append_nul p.nul_notMem_tagText] at hread
  rw [hread, cblock, List.append_assoc, List.singleton_append]

section

variable {cmdname tagbuff : CStr} (devid : UInt32)

lemma decDevid_free : ∀ c ∈ decDevid devid, c ≠ 0 ∧ c ≠ ch ',' := by
  have hdigit : ∀ c : Byte, isDigit c = true → c ≠ 0 ∧ c ≠ ch ',' := by
    intro c hc
    refine ⟨fun h => ?_, fun h => ?_⟩ <;> rw [h] at hc <;> exact absurd hc (by decide)
  exact fun c hc => hdigit c (isDigit_of_mem_dec _ c hc)

/-- The parts of the answer; `last` is the last field, which has the line end when it arrives. -/
def okParts (hname : DeviceName cmdname) (htag : DeviceTag tagbuff) (last : CStr)
    (hlast : last.length ≤ 4) (hnul : (0 : Byte) ∉ last) (hcomma : ch ',' ∉ last) : ReplyParts where
  cmd := cmdname
  tag := some tagbuff
  flds := [decDevid devid, last]
  cmd_ne := hname.ne
  cmd_nul h := (hname.free 0 h).2.2 rfl
  cmd_free c hc := by simp [isNameEnd, (hname.free c hc).1, (hname.free c hc).2.1]
  tag_nul t ht h := by
    rw [← Option.some.inj ht] at h
    exact (htag.free 0 h).2.2.2 rfl
  tag_free t ht c hc := by
    rw [← Option.some.inj ht] at hc
    obtain ⟨h1, h2, h3, -⟩ := htag.free c hc
    simp [isTagEnd, h1, h2, h3]
  flds_ne := List.cons_ne_nil _ _
  flds_length := by simp
  flds_nul f hf h := by
    rcases List.mem_pair.mp hf with rfl | rfl
    · exact (decDevid_free devid 0 h).1 rfl
    · exact hnul h
  flds_free f hf h := by
    rcases List.mem_pair.mp hf with rfl | rfl
    · exact (decDevid_free devid _ h).2 rfl
    · exact hcomma h
  flds_fit f hf := by
    have := length_decDevid_le devid
    rcases List.mem_pair.mp hf with rfl | rfl
    · omega
    · omega
  joined_ne := by simp [List.intercalate]
  joined_length := by
    have := length_decDevid_le devid
    simp [List.intercalate]
    omega

/-- The answer without its line end. -/
def okLine (cmdname tagbuff : CStr) : CStr :=
  str "$OK:" ++ cmdname ++ str "+" ++ tagbuff ++ str "=" ++ decDevid devid ++ str ",99"

lemma okReply_eq (cmdname tagbuff : CStr) :
    okReply devid cmdname tagbuff = okLine devid cmdname tagbuff ++ crlf := rfl

variable {devid}

lemma text_okParts (hname : DeviceName cmdname) (htag : DeviceTag tagbuff) {last : CStr}
    (hlast : last.length ≤ 4) (hnul : (0 : Byte) ∉ last) (hcomma : ch ',' ∉ last) :
    (okParts devid hname htag last hlast hnul hcomma).text =
      str "$OK:" ++ cmdname ++ str "+" ++ tagbuff ++ str "=" ++ decDevid devid ++ str "," ++ last := by
  simp [ReplyParts.text, ReplyParts.body, ReplyParts.tagPart, ReplyParts.joined, okParts, str,
    List.intercalate]

/-- The answer as it arrives, taken apart. -/
lemma extract_okReply (hname : DeviceName cmdname) (htag : DeviceTag tagbuff)
    (after : List Byte) :
    extractDevcmdReply (okReply devid cmdname tagbuff ++ 0 :: after) =
      some ⟨true, cmdname, tagbuff, [decDevid devid, str "99" ++ crlf]⟩ := by
  have hparts := (okParts devid hname htag (str "99" ++ crlf) (by decide) (by decide)
    (by decide)).extractDevcmdReply_text hname.short htag.short after
  rw [text_okParts] at hparts
  have htext : okReply devid cmdname tagbuff = str "$OK:" ++ cmdname ++ str "+" ++ tagbuff ++
      str "=" ++ decDevid devid ++ str "," ++ (str "99" ++ crlf) := by
    simp [okReply, str]
  rw [htext]
  exact hparts

/-- The answer without its line end, taken apart. -/
lemma extract_okLine (hname : DeviceName cmdname) (htag : DeviceTag tagbuff) (after : List Byte) :
    extractDevcmdReply (okLine devid cmdname tagbuff ++ 0 :: after) =
      some ⟨true, cmdname, tagbuff, [decDevid devid, str "99"]⟩ := by
  have hparts := (okParts devid hname htag (str "99") (by decide) (by decide)
    (by decide)).extractDevcmdReply_text hname.short htag.short after
  rw [text_okParts] at hparts
  have htext : okLine devid cmdname tagbuff = str "$OK:" ++ cmdname ++ str "+" ++ tagbuff ++
      str "=" ++ decDevid devid ++ str "," ++ str "99" := by
    simp [okLine, str]
  rw [htext]
  exact hparts

lemma byteAt_okLine (rest : List Byte) : byteAt (okLine devid cmdname tagbuff ++ rest) 0 = ch '$' :=
  rfl

/-- **The tracker thread finds the tag** in the answer. -/
theorem replyTag_okReply (hname : DeviceName cmdname) (htag : DeviceTag tagbuff) (cliDevid : ℕ)
    (after : List Byte) :
    replyTag cliDevid (okReply devid cmdname tagbuff ++ 0 :: after) = some tagbuff := by
  have hlead : byteAt (okReply devid cmdname tagbuff ++ 0 :: after) 0 = ch '$' := rfl
  rw [replyTag, hlead, if_neg fun h => h.1 rfl, extract_okReply hname htag]
  rfl

/-- A location record has no tag. -/
lemma replyTag_locationReply {cliDevid : ℕ} {after : List Byte} {tag : CStr}
    (h : replyTag cliDevid (locationReply devid ++ 0 :: after) = some tag) : tag = [] := by
  have hlead : byteAt (locationReply devid ++ 0 :: after) 0 ≠ ch '$' := by
    have hne : decDevid devid ≠ [] := dec_ne_nil _
    rw [(length_locationReply devid).1, List.append_assoc, List.append_assoc, byteAt_append_zero hne]
    intro heq
    obtain ⟨c, cs, hcs⟩ := List.exists_cons_of_ne_nil hne
    have hdigit := isDigit_of_mem_dec devid.toNat c (by rw [decDevid] at hcs; simp [hcs])
    rw [hcs, byteAt_cons_zero] at heq
    exact absurd (heq ▸ hdigit) (by decide)
  rw [replyTag] at h
  split_ifs at h with hrecord
  · dsimp only at h
    split_ifs at h
    exact (Option.some.inj h).symm
  · obtain ⟨r, hr, -⟩ := Option.map_eq_some_iff.mp h
    exact absurd (byteAt_of_extractDevcmdReply hr) hlead

/-- What the client is shown of the answer. -/
lemma joinFields_answer :
    joinFields [decDevid devid, str "99"] = decDevid devid ++ str ",99" := by
  have hle := length_decDevid_le devid
  have hcopy : xstrlcpy (decDevid devid) respLen = decDevid devid :=
    List.take_of_length_le (by rw [respLen]; omega)
  have hcomma : xstrlcat (decDevid devid) [ch ','] respLen = decDevid devid ++ [ch ','] := by
    rw [xstrlcat, respLen, if_neg (by omega), if_pos (by simp; omega)]
  have hlast : xstrlcat (decDevid devid ++ [ch ',']) (str "99") respLen =
      decDevid devid ++ [ch ','] ++ str "99" := by
    rw [xstrlcat, respLen, if_neg (by simp; omega), if_pos (by simp [str]; omega)]
  rw [joinFields, List.foldl_cons, List.foldl_nil, hcopy, hcomma, hlast, List.append_assoc]
  rfl

/-- **The client thread accepts the answer** to its own command: it returns 0, and what it shows
begins with the fields of the answer. -/
theorem finishReply_okReply (cmdargToText : Option (CStr → List CStr → CStr × Bool))
    (hname : DeviceName cmdname) (htag : DeviceTag tagbuff) (after : List Byte) :
    (finishReply cmdargToText (okReply devid cmdname tagbuff) after tagbuff).1 = 0 ∧
      deviceReplyPrompt ++ decDevid devid ++ str ",99" <+:
        (finishReply cmdargToText (okReply devid cmdname tagbuff) after tagbuff).2 := by
  have htake : (okReply devid cmdname tagbuff).take ((okReply devid cmdname tagbuff).length - 2) =
      okLine devid cmdname tagbuff := by
    rw [okReply_eq]
    simp [crlf]
  rw [finishReply, if_pos (okReply_eq devid cmdname tagbuff ▸ List.suffix_append _ _), htake,
    handleDeviceReply, byteAt_okLine, if_neg fun h => h.1 rfl, extract_okLine hname htag]
  dsimp only
  rw [if_neg (not_not.mpr rfl), if_neg (show ¬ (!true) = true by decide), joinFields_answer,
    ← List.append_assoc]
  cases cmdargToText with
  | none => exact ⟨rfl, List.prefix_rfl⟩
  | some f =>
      dsimp only
      rw [if_neg (List.cons_ne_nil _ _)]
      split_ifs with hfail
      · exact ⟨rfl, List.prefix_append _ _⟩
      · exact ⟨rfl, (List.prefix_append _ _).trans (List.prefix_append _ _)⟩

end

/-- The ids of the devices begin with a three and have ten digits. -/
def IsDevid (devid : UInt32) : Prop := 3000000000 ≤ devid.toNat ∧ devid.toNat < 4000000000

/-- Such an id, written. -/
lemma decDevid_of_isDevid {devid : UInt32} (h : IsDevid devid) :
    (decDevid devid).length = 10 ∧ ∃ cs, decDevid devid = ch '3' :: cs := by
  have hle := length_decDevid_le devid
  have hvalue : digitsValue (decDevid devid) = devid.toNat := digitsValue_dec _
  have hdigits := isDigit_of_mem_dec devid.toNat
  have hlength : (decDevid devid).length = 10 := by
    by_contra hne
    have hlt := digitsValue_lt hdigits
    have hpow : 10 ^ (decDevid devid).length ≤ 10 ^ 9 := Nat.pow_le_pow_right (by decide) (by omega)
    have := h.1
    rw [← decDevid, hvalue] at hlt
    omega
  obtain ⟨c, cs, hcs⟩ := List.exists_cons_of_ne_nil (dec_ne_nil devid.toNat)
  rw [← decDevid] at hcs
  have hcslength : cs.length = 9 := by
    rw [hcs, List.length_cons] at hlength
    omega
  have hrest : digitsValue cs < 10 ^ 9 := hcslength ▸ digitsValue_lt fun d hd =>
    hdigits d (by rw [← decDevid, hcs]; exact List.mem_cons_of_mem c hd)
  have hc : c = ch '3' := by
    rw [hcs, digitsValue_cons, hcslength] at hvalue
    obtain ⟨hge, hlt⟩ := h
    have hthree : c.toNat = 51 := by omega
    exact UInt8.toNat_inj.mp hthree
  exact ⟨hlength, cs, hc ▸ hcs⟩

/-- **The client thread accepts a location record**, and shows it. -/
theorem finishReply_locationReply (cmdargToText : Option (CStr → List CStr → CStr × Bool))
    {devid : UInt32} (h : IsDevid devid) (after : List Byte) (tagbuff : CStr) :
    finishReply cmdargToText (locationReply devid) after tagbuff =
      (0, deviceReplyPrompt ++ decDevid devid ++
        str ",20140206224257,17.960205,59.366856,0,0,0,4,0,4.12V,0") := by
  obtain ⟨hlength, cs, hcs⟩ := decDevid_of_isDevid h
  obtain ⟨htext, -⟩ := length_locationReply devid
  set line := decDevid devid ++ str ",20140206224257,17.960205,59.366856,0,0,0,4,0,4.12V,0"
    with hline
  have htake : (line ++ crlf).take ((line ++ crlf).length - 2) = line := by simp [crlf]
  have hnul : (0 : Byte) ∉ line := by
    rw [hline, List.mem_append]
    rintro (hmem | hmem)
    · exact (decDevid_free devid 0 hmem).1 rfl
    · exact absurd hmem (by decide)
  have hcstr : cstr (line ++ 0 :: lf :: 0 :: after) = line := cstr_append_nul hnul _
  have hlead : byteAt (line ++ 0 :: lf :: 0 :: after) 0 = ch '3' := by rw [hline, hcs]; rfl
  have hlong : 60 < line.length := by simp [hline, hlength, str]
  rw [htext, finishReply, if_pos (List.suffix_append _ _), htake, handleDeviceReply, hlead, hcstr,
    if_pos ⟨by decide, rfl, hlong⟩, hline, List.append_assoc]

/-! ## The commands the server sends -/

/-- The texts of `prepare_cmd_to_device` are in the format, in both modes and for all arguments. -/
theorem wellFormed_preparedCmd {cmdname tagbuff pin : CStr} (hname : DeviceName cmdname)
    (htag : DeviceTag tagbuff) (mode : ℕ) (argstrlist : CStr) :
    WellFormed (preparedCmd cmdname tagbuff pin mode argstrlist) cmdname tagbuff := by
  have hshort : (str "$WP+" ++ cmdname ++ str "+" ++ tagbuff ++ str "=").length ≤
      cmdBufferSize - 1 - 1 := by
    have := hname.short
    have := htag.short
    simp [str, cmdBufferSize]
    omega
  have hsnprintf (rest : CStr) : str "$WP+" ++ cmdname ++ str "+" ++ tagbuff ++ str "=" <+:
      snprintf (cmdBufferSize - 1) (str "$WP+" ++ cmdname ++ str "+" ++ tagbuff ++ str "=" ++ rest) :=
    (List.prefix_take_iff).mpr ⟨List.prefix_append _ _, hshort⟩
  refine ⟨hname, htag, ?_⟩
  rw [preparedCmd, preparedHead, if_pos htag.ne, commandHead]
  dsimp only
  split_ifs with hmode hargs hargs
  · exact ((hsnprintf pin).trans (prefix_xstrlcat _ _ _)).trans (List.prefix_append _ _)
  · exact hsnprintf pin
  · simpa using hsnprintf (pin ++ str "," ++ argstrlist ++ str ",?")
  · simpa using hsnprintf (pin ++ str ",?")

/-- The digits of a tag. -/
lemma forall_mem_dec04 (n : ℕ) : ∀ c ∈ dec04 n, isDigit c = true := by
  intro c hc
  rw [dec04, List.leftpad, List.mem_append, List.mem_replicate] at hc
  rcases hc with ⟨-, rfl⟩ | hc
  · decide
  · exact isDigit_of_mem_dec n c hc

lemma length_dec04 {n : ℕ} (h : n < 10000) : (dec04 n).length = 4 := by
  have hle : (dec n).length ≤ 4 := dec_length_le (s := List.replicate 4 (ch '0')) (by decide) h
  rw [dec04, List.length_leftpad]
  omega

/-- **The tags the server draws** are fit for the device. -/
theorem deviceTag_dec04 {n : ℕ} (h : n < 10000) : DeviceTag (dec04 n) where
  ne := List.ne_nil_of_length_pos (by rw [length_dec04 h]; decide)
  short := by rw [length_dec04 h]; decide
  free c hc := by
    have hdigit := forall_mem_dec04 n c hc
    refine ⟨?_, ?_, ?_, ?_⟩ <;> rintro rfl <;> exact absurd hdigit (by decide)

/-- A command that `prepare_cmd_to_device` has put together. -/
lemma prepareCmdToDevice_sends {tagbuffer buffer tag argstrlist : CStr} {cmdidx mode : ℕ}
    (htag : DeviceTag tagbuffer)
    (h : prepareCmdToDevice tagbuffer cmdidx mode argstrlist = .sends buffer tag) :
    tag = tagbuffer ∧ ∃ e ∈ g7commandRows, WellFormed buffer e.cmdstr tagbuffer := by
  rw [prepareCmdToDevice] at h
  split at h
  · rename_i e pinbuffer he hpin
    split_ifs at h
    simp only [CmdOutcome.sends.injEq] at h
    obtain ⟨rfl, rfl⟩ := h
    have hmem : e ∈ g7commandRows := List.mem_of_getElem? he
    have hname : DeviceName e.cmdstr := deviceName_of_mem e.toG7Command
      (map_g7commandRows ▸ List.mem_map_of_mem hmem)
    exact ⟨rfl, e, hmem, wellFormed_preparedCmd hname htag mode argstrlist⟩
  · contradiction

/-- A verb finds entries that have its mode. -/
lemma mode_supported {u : UserCommand} {i : ℕ} {e : G7CommandRow} (he : g7commandRows[i]? = some e)
    (htype : e.type ∈ u.types) : u.mode &&& e.modes ≠ 0 := by
  cases u with
  | switch name onoff =>
      exact ((entryFits he).writes (by rw [List.mem_singleton.mp htype]; decide)).1
  | gfevt evtid => exact ((entryFits he).reads (by rw [List.mem_singleton.mp htype]; decide)).1
  | get name => exact ((entryFits he).reads htype).1
  | set name => exact ((entryFits he).writes (List.mem_cons_of_mem _ htype)).1
  | exec name => exact ((entryFits he).exec (List.mem_singleton.mp htype)).1

/-- `EVENT_GFEN` -/
def eventGfen : ℕ := 48

/-- The command of `chk_specialhandling`. -/
def trackCommand (pinbuff : CStr) (gfenTrackingInterval : ℕ) : CStr :=
  snprintf 64 (commandHead (str "TRACK") gfenTrackTag pinbuff ++ str ",1," ++
    dec gfenTrackingInterval ++ str ",0,0,0,4,15\r\n")

/-- `chk_specialhandling`: what is written to the device. -/
def chkSpecialhandling (enableGfenTracking : Bool) (gfenTrackingInterval : ℕ) (flds : List CStr) :
    Option CStr :=
  let eventid := toUnsigned32 (xatoi (fld flds .eventid))
  if 100 < eventid then none
  else if eventid = eventGfen ∧ enableGfenTracking then
    (getDevicePin 7).map fun pinbuff => trackCommand pinbuff gfenTrackingInterval
  else none

lemma deviceTag_gfenTrackTag : DeviceTag gfenTrackTag where
  ne := by decide
  short := by decide
  free := by decide +kernel

/-- The name `"TRACK"`. -/
lemma deviceName_track : DeviceName (str "TRACK") :=
  deviceName_of_mem ⟨str "track", str "TRACK"⟩ (by decide +kernel)

/-- It is a command in the format, too. -/
theorem wellFormed_trackCommand (pinbuff : CStr) (gfenTrackingInterval : ℕ) :
    WellFormed (trackCommand pinbuff gfenTrackingInterval) (str "TRACK") gfenTrackTag := by
  refine ⟨deviceName_track, deviceTag_gfenTrackTag, ?_⟩
  rw [trackCommand, commandHead]
  refine (List.prefix_take_iff).mpr ⟨?_, by decide⟩
  rw [List.append_assoc, List.append_assoc, List.append_assoc]
  exact List.prefix_append _ _

/-- It fits in the read of the device. -/
lemma length_trackCommand_lt (pinbuff : CStr) (gfenTrackingInterval : ℕ) :
    (trackCommand pinbuff gfenTrackingInterval).length < 255 :=
  Nat.lt_of_le_of_lt (List.length_take_le 63 _) (by decide)

/-- **The tag of this command is never drawn.** -/
theorem gfenTrackTag_ne_dec04 (n : ℕ) : dec04 n ≠ gfenTrackTag := by
  intro h
  have hdigit := forall_mem_dec04 n (ch 'T') (h ▸ List.mem_cons_self)
  exact absurd hdigit (by decide)

end G7
