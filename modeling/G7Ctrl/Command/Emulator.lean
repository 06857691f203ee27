import G7Ctrl.Command.Outgoing
import G7Ctrl.Xstr.Block
import G7Ctrl.Xstr.Trim

/-!
# The emulator of a device (`gm7emul`)

The emulator of the repository stands for a device: it reads what the server has written, takes the
name and the tag of a command from it, and answers with both and its device id, or with a location
record; and it sends location events on its own.

A read takes at most 256 bytes, and 255 bytes or more are dropped, so that what is left is taken
for another command.  The buffer stays as it is between the reads, and the scans for the name and
the tag, which write to buffers of 13 and 6 bytes, stop at nothing but their characters, not even at
the NUL.

* `emulParse`, `emulAnswer`, `emulReceive`, `sendLocevent` — the emulator.
* `WellFormed` — a command as the server puts it together.
* **`emulReceive_wellFormed`** — such a command of less than 255 bytes is taken apart inside the
  buffers and answered with its name and its tag.
* **`emulReceive_dropped`** — one of 255 or 256 bytes is dropped.
* **`emulReceive_queued`** — whatever the queue of the server lets through is answered so, or
  dropped.
-/

namespace G7

/-! ## The emulator -/

/-- `while( (*cptr++ = *bptr++) != stop )` with a buffer of `size` bytes: the name and what follows
`stop`.  Memory without `stop`, or a name that fills the buffer, is a fault. -/
def copyName (stop : Byte) (size : ℕ) (mem : List Byte) : Checked (List Byte × List Byte) :=
  let name := mem.takeWhile (· ≠ stop)
  if name.length < mem.length ∧ name.length < size then .done (name, mem.drop (name.length + 1))
  else .fault

/-- `while( *bptr != '+' ) bptr++; bptr++;` -/
def skipToPlus (mem : List Byte) : Checked (List Byte) :=
  let skipped := mem.takeWhile (· ≠ ch '+')
  if skipped.length < mem.length then .done (mem.drop (skipped.length + 1)) else .fault

/-- The name and the tag in the buffer, `cmdname` and `tagbuff`. -/
def emulParse (buffer : List Byte) : Checked (CStr × CStr) := do
  let rest ← skipToPlus buffer
  let (cmdname, rest) ← copyName (ch '+') 13 rest
  let (tagbuff, _) ← copyName (ch '=') 6 rest
  return (cstr cmdname, cstr tagbuff)

/-- `sizeof (buffer)` in `emul_loop` -/
def emulReadSize : ℕ := 256

/-- What the emulator keeps: its device id, what `SIMID` and `IMEI` have asked for, and the buffer
of `emul_loop`. -/
structure Emul where
  devid : UInt32
  sendDouble : Bool
  sendGfen : Bool
  buffer : List Byte
  deriving DecidableEq

/-- `DEVID` -/
def emulDevid : UInt32 := 3000000011

/-- An emulator that has read nothing yet. -/
def Emul.start (devid : UInt32) : Emul := ⟨devid, false, false, List.replicate emulReadSize 0⟩

/-- `%u` of a device id. -/
def decDevid (devid : UInt32) : CStr := dec devid.toNat

/-- `"$OK:%s+%s=%u,99\r\n"` -/
def okReply (devid : UInt32) (cmdname tagbuff : CStr) : CStr :=
  str "$OK:" ++ cmdname ++ str "+" ++ tagbuff ++ str "=" ++ decDevid devid ++ str ",99" ++ crlf

/-- The location record that answers `GETLOCATION`. -/
def locationReply (devid : UInt32) : CStr :=
  snprintf 1024 (decDevid devid ++
    str ",20140206224257,17.960205,59.366856,0,0,0,4,0,4.12V,0") ++ crlf

/-- `LEN_10K`, the buffer of `_writef` -/
def emulBufferSize : ℕ := 10 * 1024

/-- `xstrtrim_crnl(buffer)`, in place. -/
def trimBuffer (buffer : List Byte) : Checked (List Byte) := do
  let text ← readStr buffer
  storeBytes buffer 0 (cblock (xstrtrimCrnl text))

/-- What `emul_loop` does with a command that it has read: the text it writes back. -/
def emulAnswer (e : Emul) : Checked (Emul × CStr) := do
  let buffer ← trimBuffer e.buffer
  let (cmdname, tagbuff) ← emulParse buffer
  let e := { e with buffer := buffer }
  let ok := snprintf emulBufferSize (okReply e.devid cmdname tagbuff)
  if cmdname = str "SIMID" then return ({ e with sendDouble := true }, ok)
  else if cmdname = str "IMEI" then return ({ e with sendGfen := true }, ok)
  else if cmdname = str "GETLOCATION" then
    return (e, snprintf emulBufferSize (locationReply e.devid))
  else return (e, ok)

/-- `waitread` when something has arrived: its return code, `nread`, and the buffer. -/
def emulWaitread (buffer arrived : List Byte) : Checked (ℤ × ℕ × List Byte) := do
  let got := arrived.take emulReadSize
  let buffer ← storeBytes buffer 0 got
  if emulReadSize - 1 ≤ got.length then
    let buffer ← store buffer 0 0
    return (-2, 0, buffer)
  else
    let buffer ← store buffer got.length 0
    return (0, got.length, buffer)

/-- The reply of the server to a keep-alive package. -/
def isKeepAliveReply (nread : ℕ) (buffer : List Byte) : Bool :=
  nread = 8 ∧ byteAt buffer 0 = 0xD0 ∧ byteAt buffer 1 = 0xD7

/-- A round of `emul_loop` when something has arrived: the texts it writes back. -/
def emulRound (e : Emul) (arrived : List Byte) : Checked (Emul × List CStr) := do
  let buffer ← store e.buffer 0 0
  let (rc, nread, buffer) ← emulWaitread buffer arrived
  let e := { e with buffer := buffer }
  if rc = 0 then
    if isKeepAliveReply nread buffer then return (e, [])
    else
      let (e, text) ← emulAnswer e
      return (e, [text])
  else return (e, [])

/-- The rounds until nothing is left to read. -/
def emulLoop : ℕ → Emul → List Byte → Checked (Emul × List CStr)
  | _, e, [] => .done (e, [])
  | 0, _, _ :: _ => .timeout
  | fuel + 1, e, b :: bs => do
      let (e, texts) ← emulRound e (b :: bs)
      let (e, texts') ← emulLoop fuel e ((b :: bs).drop emulReadSize)
      return (e, texts ++ texts')

/-- What the emulator writes back to what has arrived. -/
def emulReceive (e : Emul) (arrived : List Byte) : Checked (Emul × List CStr) :=
  emulLoop arrived.length e arrived

/-- A location event. -/
def loceventLine (evid : ℤ) (detach : Char) : CStr :=
  str "3000000001,20140107232526,17.961028,59.366470,0,0,0,0," ++ decInt evid ++ str ",4.20V," ++
    [ch detach] ++ crlf

/-- `send_locevent`: the text it writes. -/
def sendLocevent (e : Emul) (evid : ℤ) : Emul × CStr :=
  if e.sendDouble then
    ({ e with sendDouble := false }, snprintf 255 (loceventLine evid '0' ++ loceventLine evid '1'))
  else if e.sendGfen then ({ e with sendGfen := false }, snprintf 255 (loceventLine 50 '0'))
  else (e, snprintf 255 (loceventLine evid '0'))

/-! ## Commands in their format -/

/-- A name that the device can read back: that of a command of the table, or any other short one. -/
structure DeviceName (cmdname : CStr) : Prop where
  ne : cmdname ≠ []
  short : cmdname.length ≤ 12
  free : ∀ c ∈ cmdname, c ≠ ch '+' ∧ c ≠ ch '=' ∧ c ≠ 0

/-- A tag that the device can read back. -/
structure DeviceTag (tagbuff : CStr) : Prop where
  ne : tagbuff ≠ []
  short : tagbuff.length ≤ 5
  free : ∀ c ∈ tagbuff, c ≠ ch '=' ∧ c ≠ cr ∧ c ≠ lf ∧ c ≠ 0

/-- **A command as the server puts it together**: the name and the tag, then the PIN code and the
arguments, whatever they are. -/
structure WellFormed (buffer cmdname tagbuff : CStr) : Prop where
  name : DeviceName cmdname
  tag : DeviceTag tagbuff
  head : str "$WP+" ++ cmdname ++ str "+" ++ tagbuff ++ str "=" <+: buffer

/-- The names of the table are fit for the device. -/
lemma deviceName_of_mem : ∀ e ∈ g7commandList, DeviceName e.cmdstr := by
  have hne : ∀ e ∈ g7commandList, e.cmdstr ≠ [] := by decide +kernel
  have hfree : (g7commandList.all fun e =>
      e.cmdstr.all fun c => c ≠ ch '+' ∧ c ≠ ch '=' ∧ c ≠ 0) = true := by
    decide +kernel
  intro e he
  refine ⟨hne e he, by have := (g7commandList_lengths e he).2; omega, fun c hc => ?_⟩
  simpa using List.all_eq_true.mp (List.all_eq_true.mp hfree e he) c hc

/-! ## Taking a command apart -/

section

variable {buffer cmdname tagbuff : CStr}

lemma takeWhile_stop {stop : Byte} {a : CStr} (ha : ∀ c ∈ a, c ≠ stop) (rest : CStr) :
    (a ++ stop :: rest).takeWhile (· ≠ stop) = a := by
  rw [List.takeWhile_append_of_pos (fun c hc => decide_eq_true (ha c hc)),
    List.takeWhile_cons_of_neg (by simp), List.append_nil]

lemma copyName_eq {stop : Byte} {size : ℕ} (ha : ∀ c ∈ cmdname, c ≠ stop)
    (hlen : cmdname.length < size) (rest : List Byte) :
    copyName stop size (cmdname ++ stop :: rest) = .done (cmdname, rest) := by
  have hdrop : (cmdname ++ stop :: rest).drop (cmdname.length + 1) = rest := by simp
  rw [copyName, takeWhile_stop ha, hdrop, if_pos ⟨by simp, hlen⟩]

lemma skipToPlus_eq {front : List Byte} (hfront : ∀ c ∈ front, c ≠ ch '+') (rest : List Byte) :
    skipToPlus (front ++ ch '+' :: rest) = .done rest := by
  have hdrop : (front ++ ch '+' :: rest).drop (front.length + 1) = rest := by simp
  rw [skipToPlus, takeWhile_stop hfront, hdrop, if_pos (by simp)]

/-- **The emulator finds the name and the tag**, inside its buffers, whatever the memory in front of
the first `'+'` holds. -/
theorem emulParse_append {front : List Byte} (hfront : ∀ c ∈ front, c ≠ ch '+')
    (hname : DeviceName cmdname) (htag : DeviceTag tagbuff) (rest : List Byte) :
    emulParse (front ++ ch '+' :: (cmdname ++ ch '+' :: (tagbuff ++ ch '=' :: rest))) =
      .done (cmdname, tagbuff) := by
  rw [emulParse, skipToPlus_eq hfront, Checked.done_bind,
    copyName_eq (fun c hc => (hname.free c hc).1) (Nat.lt_succ_of_le hname.short),
    Checked.done_bind]
  dsimp only
  rw [copyName_eq (fun c hc => (htag.free c hc).1) (Nat.lt_succ_of_le htag.short),
    Checked.done_bind]
  dsimp only
  rw [cstr_eq_self fun h => (hname.free 0 h).2.2 rfl,
    cstr_eq_self fun h => (htag.free 0 h).2.2.2 rfl]
  rfl

/-- The text of a command. -/
lemma WellFormed.eq (h : WellFormed buffer cmdname tagbuff) : ∃ rest, buffer =
    str "$WP" ++ ch '+' :: (cmdname ++ ch '+' :: (tagbuff ++ ch '=' :: rest)) := by
  obtain ⟨rest, rfl⟩ := h.head
  exact ⟨rest, by simp [str]⟩

lemma WellFormed.append (h : WellFormed buffer cmdname tagbuff) (s : CStr) :
    WellFormed (buffer ++ s) cmdname tagbuff :=
  ⟨h.name, h.tag, h.head.trans (List.prefix_append _ _)⟩

/-- A NUL comes behind the name and the tag. -/
lemma WellFormed.cstr (h : WellFormed buffer cmdname tagbuff) :
    WellFormed (cstr buffer) cmdname tagbuff := by
  refine ⟨h.name, h.tag, ?_⟩
  obtain ⟨rest, rfl⟩ := h.head
  have hfree : ∀ c ∈ str "$WP+" ++ cmdname ++ str "+" ++ tagbuff ++ str "=", c ≠ 0 := by
    simp only [List.forall_mem_append]
    exact ⟨⟨⟨⟨by decide +kernel, fun c hc => (h.name.free c hc).2.2⟩, by decide +kernel⟩,
      fun c hc => (h.tag.free c hc).2.2.2⟩, by decide +kernel⟩
  rw [G7.cstr, List.takeWhile_append_of_pos fun c hc => decide_eq_true (hfree c hc)]
  exact List.prefix_append _ _

/-- The ends that are trimmed are behind the name and the tag. -/
lemma WellFormed.xstrtrimCrnl (h : WellFormed buffer cmdname tagbuff) :
    WellFormed (xstrtrimCrnl buffer) cmdname tagbuff := by
  refine ⟨h.name, h.tag, ?_⟩
  obtain ⟨rest, rfl⟩ := h.head
  have hlast : ∀ c ∈ (str "$WP+" ++ cmdname ++ str "+" ++ tagbuff ++ str "=").getLast?,
      isCrnl c = false := by
    intro c hc
    rw [show str "=" = [ch '='] from rfl, List.getLast?_concat] at hc
    obtain rfl := Option.some.inj hc
    decide
  obtain ⟨t, ht⟩ := trimEnds_append (by simp [str]) (by simp [str, ch]) hlast rest
  rw [G7.xstrtrimCrnl, ht]
  exact List.prefix_append _ _

/-! ## The answer -/

/-- A device id has at most ten digits. -/
lemma length_decDevid_le (devid : UInt32) : (decDevid devid).length ≤ 10 :=
  dec_length_le (s := List.replicate 10 (ch '0')) (by decide)
    (devid.toNat_lt.trans (by decide))

lemma length_okReply (devid : UInt32) (cmdname tagbuff : CStr) :
    (okReply devid cmdname tagbuff).length =
      11 + cmdname.length + tagbuff.length + (decDevid devid).length := by
  simp [okReply, str, crlf]
  omega

lemma length_locationReply (devid : UInt32) :
    locationReply devid = decDevid devid ++
      str ",20140206224257,17.960205,59.366856,0,0,0,4,0,4.12V,0" ++ crlf ∧
    (locationReply devid).length = (decDevid devid).length + 55 := by
  have hle := length_decDevid_le devid
  have hfits : snprintf 1024 (decDevid devid ++
      str ",20140206224257,17.960205,59.366856,0,0,0,4,0,4.12V,0") =
      decDevid devid ++ str ",20140206224257,17.960205,59.366856,0,0,0,4,0,4.12V,0" :=
    snprintf_of_lt (by rw [List.length_append]; simp [str]; omega)
  rw [locationReply, hfits]
  exact ⟨rfl, by simp [str, crlf]⟩

/-- The text a device answers with. -/
def deviceAnswer (devid : UInt32) (cmdname tagbuff : CStr) : CStr :=
  if cmdname = str "GETLOCATION" then locationReply devid else okReply devid cmdname tagbuff

/-- **The answer to a command** whose name and tag were found. -/
lemma emulAnswer_eq {e : Emul} (htrim : trimBuffer e.buffer = .done buffer)
    (hparse : emulParse buffer = .done (cmdname, tagbuff)) (hname : DeviceName cmdname)
    (htag : DeviceTag tagbuff) :
    ∃ e', emulAnswer e = .done (e', deviceAnswer e.devid cmdname tagbuff) ∧
      e'.devid = e.devid ∧ e'.buffer = buffer := by
  have hdevid := length_decDevid_le e.devid
  have hok : snprintf emulBufferSize (okReply e.devid cmdname tagbuff) =
      okReply e.devid cmdname tagbuff := by
    refine snprintf_of_lt ?_
    rw [length_okReply, emulBufferSize]
    have := hname.short
    have := htag.short
    omega
  have hloc : snprintf emulBufferSize (locationReply e.devid) = locationReply e.devid := by
    refine snprintf_of_lt ?_
    rw [(length_locationReply e.devid).2, emulBufferSize]
    omega
  rw [emulAnswer, htrim, Checked.done_bind, hparse, Checked.done_bind]
  dsimp only
  rw [hok, hloc]
  by_cases hsim : cmdname = str "SIMID"
  · rw [if_pos hsim, deviceAnswer, hsim, if_neg (by decide)]
    exact ⟨_, rfl, rfl, rfl⟩
  · rw [if_neg hsim]
    by_cases himei : cmdname = str "IMEI"
    · rw [if_pos himei, deviceAnswer, himei, if_neg (by decide)]
      exact ⟨_, rfl, rfl, rfl⟩
    · rw [if_neg himei, deviceAnswer]
      split_ifs with hget
      · exact ⟨_, rfl, rfl, rfl⟩
      · exact ⟨_, rfl, rfl, rfl⟩

/-! ## What arrives -/

/-- `*buffer = '\0'` before a read. -/
lemma store_emptied {e : Emul} (hbuf : e.buffer.length = emulReadSize) :
    store e.buffer 0 0 = .done (e.buffer.set 0 0) ∧
      (e.buffer.set 0 0).length = emulReadSize :=
  ⟨store_eq_done (by rw [hbuf, emulReadSize]; decide), by rw [List.length_set, hbuf]⟩

/-- A read that fits. -/
lemma emulWaitread_short {arrived : List Byte} (hbuf : buffer.length = emulReadSize)
    (hlen : arrived.length < 255) : ∃ old, old.length + arrived.length = 255 ∧
      emulWaitread buffer arrived = .done (0, arrived.length, arrived ++ 0 :: old) := by
  rw [emulReadSize] at hbuf
  have htake : arrived.take 256 = arrived := List.take_of_length_le (by omega)
  have hrest : buffer.drop arrived.length ≠ [] := by
    rw [ne_eq, List.drop_eq_nil_iff]
    omega
  obtain ⟨b, old, hold⟩ := List.exists_cons_of_ne_nil hrest
  have hcount := congrArg List.length hold
  rw [List.length_drop, List.length_cons] at hcount
  refine ⟨old, by omega, ?_⟩
  rw [emulWaitread, emulReadSize, htake, storeBytes_start (by omega), Checked.done_bind, hold,
    if_neg (by omega), store_append_length, Checked.done_bind]
  rfl

/-- A read that does not fit is dropped. -/
lemma emulWaitread_long {arrived : List Byte} (hbuf : buffer.length = emulReadSize)
    (hlen : 255 ≤ arrived.length) : ∃ got, got.length = emulReadSize ∧
      arrived.take emulReadSize <+: got ∧
      emulWaitread buffer arrived = .done (-2, 0, got.set 0 0) := by
  rw [emulReadSize] at hbuf
  have htake : (arrived.take 256).length = min 256 arrived.length := List.length_take
  refine ⟨arrived.take 256 ++ buffer.drop (arrived.take 256).length, ?_, List.prefix_append _ _, ?_⟩
  · rw [List.length_append, List.length_drop, emulReadSize]
    omega
  · rw [emulWaitread, emulReadSize, storeBytes_start (by omega), Checked.done_bind,
      if_pos (by omega), store_eq_done (by rw [List.length_append]; omega), Checked.done_bind]
    rfl

/-- A command is trimmed in place, and its name and its tag are found. -/
lemma trimBuffer_wellFormed {arrived old : List Byte} (h : WellFormed arrived cmdname tagbuff)
    (hold : old.length + arrived.length = 255) :
    ∃ buffer, trimBuffer (arrived ++ 0 :: old) = .done buffer ∧
      emulParse buffer = .done (cmdname, tagbuff) ∧ buffer.length = emulReadSize := by
  obtain ⟨rest, heq⟩ := h.cstr.xstrtrimCrnl.eq
  have hfull : (arrived ++ 0 :: old).length = emulReadSize := by
    rw [List.length_append, List.length_cons, emulReadSize]
    omega
  have hshort : (cblock (xstrtrimCrnl (cstr arrived))).length ≤ (arrived ++ 0 :: old).length := by
    have htrim : (xstrtrimCrnl (cstr arrived)).length ≤ (cstr arrived).length :=
      (trimEnds_sublist isCrnl _).length_le
    have hcstr : (cstr arrived).length ≤ arrived.length := (List.takeWhile_sublist _).length_le
    rw [length_cblock, hfull, emulReadSize]
    omega
  have htrim := storeBytes_start hshort
  have hlength := (length_storeBytes htrim).2
  generalize (arrived ++ 0 :: old).drop (cblock (xstrtrimCrnl (cstr arrived))).length = stale
    at htrim hlength
  refine ⟨_, ?_, ?_, hlength.trans hfull⟩
  · rw [trimBuffer, readStr_append_zero, Checked.done_bind, htrim]
  · have htext : cblock (xstrtrimCrnl (cstr arrived)) ++ stale = str "$WP" ++ ch '+' ::
        (cmdname ++ ch '+' :: (tagbuff ++ ch '=' :: (rest ++ 0 :: stale))) := by
      rw [heq, cblock]
      simp
    rw [htext]
    exact emulParse_append (by decide +kernel) h.name h.tag _

/-- A round that reads a command to its end. -/
lemma emulRound_wellFormed (e : Emul) (hbuf : e.buffer.length = emulReadSize) {arrived : List Byte}
    (h : WellFormed arrived cmdname tagbuff) (hlen : arrived.length < 255) :
    ∃ e', emulRound e arrived = .done (e', [deviceAnswer e.devid cmdname tagbuff]) ∧
      e'.devid = e.devid ∧ e'.buffer.length = emulReadSize := by
  obtain ⟨hzero, hempty⟩ := store_emptied hbuf
  obtain ⟨old, hold, hread⟩ := emulWaitread_short hempty hlen
  have hkeep : isKeepAliveReply arrived.length (arrived ++ 0 :: old) = false := by
    obtain ⟨rest, heq⟩ := h.eq
    have hlead : byteAt (arrived ++ 0 :: old) 0 = ch '$' := by rw [heq]; rfl
    rw [isKeepAliveReply, hlead]
    exact decide_eq_false fun hka => absurd hka.2.1 (by decide)
  obtain ⟨buffer, htrim, hparse, hlength⟩ := trimBuffer_wellFormed h hold
  obtain ⟨e', hanswer, hdevid, hbuffer⟩ := @emulAnswer_eq _ _ _
    { e with buffer := arrived ++ 0 :: old } htrim hparse h.name h.tag
  refine ⟨e', ?_, hdevid, by rw [hbuffer, hlength]⟩
  rw [emulRound, hzero, Checked.done_bind, hread, Checked.done_bind]
  dsimp only
  rw [if_pos rfl, hkeep, if_neg Bool.false_ne_true, hanswer, Checked.done_bind]
  rfl

/-- A round that drops what it has read. -/
lemma emulRound_long (e : Emul) (hbuf : e.buffer.length = emulReadSize) {arrived : List Byte}
    (hlen : 255 ≤ arrived.length) :
    ∃ e' got, emulRound e arrived = .done (e', []) ∧ e'.devid = e.devid ∧
      e'.buffer = got.set 0 0 ∧ got.length = emulReadSize ∧ arrived.take emulReadSize <+: got := by
  obtain ⟨hzero, hempty⟩ := store_emptied hbuf
  obtain ⟨got, hgot, hpre, hread⟩ := emulWaitread_long hempty hlen
  refine ⟨{ e with buffer := got.set 0 0 }, got, ?_, rfl, rfl, hgot, hpre⟩
  rw [emulRound, hzero, Checked.done_bind, hread, Checked.done_bind]
  rfl

/-- The last round. -/
lemma emulLoop_last {e e' : Emul} {texts : List CStr} {arrived : List Byte}
    (h : emulRound e arrived = .done (e', texts)) (hne : arrived ≠ [])
    (hlen : arrived.length ≤ emulReadSize) {fuel : ℕ} (hfuel : fuel ≠ 0) :
    emulLoop fuel e arrived = .done (e', texts) := by
  obtain ⟨fuel, rfl⟩ := Nat.exists_eq_succ_of_ne_zero hfuel
  obtain ⟨b, bs, rfl⟩ := List.exists_cons_of_ne_nil hne
  rw [emulLoop, h, Checked.done_bind, List.drop_eq_nil_of_le hlen]
  dsimp only
  rw [emulLoop, Checked.done_bind]
  dsimp only
  rw [List.append_nil]
  rfl

/-- **A command that fits the read is answered**, inside the buffers, and with its name and its tag
unless the answer is a location record. -/
theorem emulReceive_wellFormed (e : Emul) (hbuf : e.buffer.length = emulReadSize)
    {arrived : List Byte} (h : WellFormed arrived cmdname tagbuff) (hlen : arrived.length < 255) :
    ∃ e', emulReceive e arrived = .done (e', [deviceAnswer e.devid cmdname tagbuff]) ∧
      e'.devid = e.devid ∧ e'.buffer.length = emulReadSize := by
  obtain ⟨e', hround, hdevid, hbuffer⟩ := emulRound_wellFormed e hbuf h hlen
  obtain ⟨rest, heq⟩ := h.eq
  have hne : arrived ≠ [] := by
    rw [heq]
    simp
  refine ⟨e', emulLoop_last hround hne ?_ (by simpa using hne), hdevid, hbuffer⟩
  rw [emulReadSize]
  omega

/-- **A text of 255 or 256 bytes is dropped.** -/
theorem emulReceive_dropped (e : Emul) (hbuf : e.buffer.length = emulReadSize)
    {arrived : List Byte} (hlong : 255 ≤ arrived.length) (hlen : arrived.length ≤ 256) :
    ∃ e', emulReceive e arrived = .done (e', []) ∧ e'.devid = e.devid ∧
      e'.buffer.length = emulReadSize := by
  obtain ⟨e', got, hround, hdevid, hbuffer, hgot, -⟩ := emulRound_long e hbuf hlong
  have hne : arrived ≠ [] := List.ne_nil_of_length_pos (by omega)
  refine ⟨e', emulLoop_last hround hne hlen (by simpa using hne), hdevid, ?_⟩
  rw [hbuffer, List.length_set, hgot]

/-- The line feed that is left of a command of 255 bytes: the name and the tag are found in what the
buffer still holds of the command. -/
lemma emulRound_lineFeed (e : Emul) {got : List Byte} (hbuf : e.buffer = got.set 0 0)
    (hgot : got.length = emulReadSize) {cmd : CStr} (h : WellFormed cmd cmdname tagbuff)
    (hpre : cmd <+: got) :
    ∃ e', emulRound e [lf] = .done (e', [deviceAnswer e.devid cmdname tagbuff]) ∧
      e'.devid = e.devid ∧ e'.buffer.length = emulReadSize := by
  obtain ⟨rest, heq⟩ := h.eq
  obtain ⟨old, rfl⟩ := hpre
  -- behind the first two bytes the command is still there
  have hmem : cmd ++ old = ch '$' :: ch 'W' :: ch 'P' :: ch '+' :: (cmdname ++ ch '+' ::
      (tagbuff ++ ch '=' :: (rest ++ old))) := by
    rw [heq]
    simp [str]
  rw [hmem, List.set_cons_zero] at hbuf
  rw [hmem] at hgot
  generalize hstale : ch '+' :: (cmdname ++ ch '+' :: (tagbuff ++ ch '=' :: (rest ++ old))) = stale
    at hbuf hgot
  have htrim : trimBuffer (lf :: 0 :: ch 'P' :: stale) = .done (0 :: 0 :: ch 'P' :: stale) := rfl
  have hparse : emulParse (0 :: 0 :: ch 'P' :: stale) = .done (cmdname, tagbuff) := by
    rw [← hstale]
    exact @emulParse_append _ _ [0, 0, ch 'P'] (by decide +kernel) h.name h.tag (rest ++ old)
  obtain ⟨e', hanswer, hdevid, hbuffer⟩ := @emulAnswer_eq _ _ _
    { e with buffer := lf :: 0 :: ch 'P' :: stale } htrim hparse h.name h.tag
  refine ⟨e', ?_, hdevid, ?_⟩
  · have hread : emulWaitread (0 :: ch 'W' :: ch 'P' :: stale) [lf] =
        .done (0, 1, lf :: 0 :: ch 'P' :: stale) := rfl
    rw [emulRound, hbuf, store_eq_done (Nat.succ_pos _), Checked.done_bind, List.set_cons_zero,
      hread, Checked.done_bind]
    dsimp only
    rw [if_pos rfl, show isKeepAliveReply 1 _ = false from rfl, if_neg Bool.false_ne_true, hanswer,
      Checked.done_bind]
    rfl
  · rw [hbuffer]
    exact hgot

/-- A command of 255 bytes: it is dropped, a line feed is left, and the command is answered. -/
lemma emulReceive_full (e : Emul) (hbuf : e.buffer.length = emulReadSize) {cmd : CStr}
    (h : WellFormed cmd cmdname tagbuff) (hlen : cmd.length = 255) :
    ∃ e', emulReceive e (cmd ++ crlf) = .done (e', [deviceAnswer e.devid cmdname tagbuff]) ∧
      e'.devid = e.devid ∧ e'.buffer.length = emulReadSize := by
  have hlength : (cmd ++ crlf).length = 257 := by simp [crlf, hlen]
  have hsplit : cmd ++ crlf = (cmd ++ [cr]) ++ [lf] := by simp [crlf]
  have hread : (cmd ++ [cr]).length = emulReadSize := by simp [emulReadSize, hlen]
  obtain ⟨e₁, got, hfirst, hdevid₁, hbuffer₁, hgot, hpre⟩ :=
    @emulRound_long e hbuf (cmd ++ crlf) (by omega)
  rw [hsplit, ← hread, List.take_left] at hpre
  obtain ⟨e₂, hsecond, hdevid₂, hbuffer₂⟩ := emulRound_lineFeed e₁ hbuffer₁ hgot h
    ((List.prefix_append _ _).trans hpre)
  refine ⟨e₂, ?_, hdevid₂.trans hdevid₁, hbuffer₂⟩
  have hlast : emulLoop 256 e₁ [lf] = .done (e₂, [deviceAnswer e₁.devid cmdname tagbuff]) :=
    emulLoop_last hsecond (List.cons_ne_nil _ _) (by rw [emulReadSize]; decide) (by decide)
  obtain ⟨b, bs, hcons⟩ := List.exists_cons_of_ne_nil
    (List.ne_nil_of_length_pos (l := cmd ++ crlf) (by omega))
  have hdrop : (b :: bs).drop emulReadSize = [lf] := by
    rw [← hcons, hsplit, ← hread, List.drop_left]
  rw [emulReceive, hlength, hcons, emulLoop, ← hcons, hfirst, Checked.done_bind, hcons, hdrop]
  dsimp only
  rw [hlast, Checked.done_bind, hdevid₁]
  rfl

/-- **Whatever the queue lets through** is answered, or dropped when the read is full but nothing is
left of it. -/
theorem emulReceive_queued (e : Emul) (hbuf : e.buffer.length = emulReadSize) {cmd : CStr}
    (h : WellFormed cmd cmdname tagbuff) (hlen : cmd.length ≤ 255) :
    ∃ e', emulReceive e (cmd ++ crlf) = .done (e',
        if cmd.length = 253 ∨ cmd.length = 254 then []
        else [deviceAnswer e.devid cmdname tagbuff]) ∧
      e'.devid = e.devid ∧ e'.buffer.length = emulReadSize := by
  have hlength : (cmd ++ crlf).length = cmd.length + 2 := by simp [crlf]
  rcases Nat.lt_or_ge cmd.length 253 with hshort | hlong
  · rw [if_neg (by omega)]
    exact emulReceive_wellFormed e hbuf (h.append crlf) (by omega)
  · rcases Nat.lt_or_ge cmd.length 255 with hfits | hfull
    · rw [if_pos (by omega)]
      exact emulReceive_dropped e hbuf (by omega) (by omega)
    · rw [if_neg (by omega)]
      exact emulReceive_full e hbuf h (by omega)

end

end G7
