import G7Ctrl.Core.Lines
import G7Ctrl.Mail.Base64
import G7Ctrl.Mail.Handle
import G7Ctrl.Mail.QuotedPrintable

/-!
# Attachments (`smtp_add_attachment`)

The data of an attachment is encoded in one buffer, cut into rows in another, and copied from there.
The three sizes are computed from the length of the data.

* `splitInRows`, `smtpAddAttachment` — the functions, with their buffers.
* **`splitInRows_eq`** — the rows of a text without line ends.
* **`attachesBase64_iff`** — for which data the attachment decodes to the data, in rows of at most
  76 characters.
-/

namespace G7

/-! ## The functions -/

/-- One character of `split_in_rows`, or a line end: the new `pin`, `pout`, `w` and output. -/
def splitChar (inb : List Byte) (pin pout w : ℕ) (out : List Byte) (c : Byte) :
    Checked (ℕ × ℕ × ℕ × List Byte) := do
  let lineEnd ← atCrlf inb pin
  if lineEnd then
    let out ← storeBytes out pout crlf
    return (pin + 2, pout + 2, 0, out)
  else if c = lf then
    let out ← storeBytes out pout crlf
    return (pin + 1, pout + 2, 0, out)
  else
    let out ← store out pout c
    return (pin + 1, pout + 1, w + 1, out)

/-- The end of a row that is full. -/
def splitRow (width pout w : ℕ) (out : List Byte) : Checked (ℕ × ℕ × List Byte) :=
  if w = width then do
    let out ← storeBytes out pout crlf
    return (pout + 2, 0, out)
  else return (pout, w, out)

/-- The loop of `split_in_rows`. -/
def splitRowsLoop (width : ℕ) (inb : List Byte) : ℕ → ℕ → ℕ → ℕ → List Byte → Checked (List Byte)
  | 0, _, _, _, _ => .timeout
  | fuel + 1, pin, pout, w, out => do
      let c ← load inb pin
      if c = 0 then return out
      else
        let (pin, pout, w, out) ← splitChar inb pin pout w out c
        let (pout, w, out) ← splitRow width pout w out
        splitRowsLoop width inb fuel pin pout w out

/-- `split_in_rows`, with the output buffer it leaves.  Every round reads a character. -/
def splitInRows (inb out : List Byte) (maxlen width : ℕ) : Checked (ℤ × List Byte) := do
  let s ← readStr inb
  if s.length + s.length / width + 1 ≥ maxlen then return (-1, out)
  else
    let out ← splitRowsLoop width inb (s.length + 1) 0 0 0 out
    return (0, out)

def smtpContentTransferEncoding8bit : ℕ := 0

def smtpContentTransferEncodingBase64 : ℕ := 1

def smtpContentTransferEncodingQuotedprint : ℕ := 2

/-- `attach_mime_types` -/
def attachMimeTypes : List CStr :=
  [str "text/plain", str "text/html", str "image/png", str "image/jpg", str "image/gif",
    str "application/octet-stream", str "application/pdf", str "application/gzip",
    str "application/zip", str "application/xml", str "text/csv"]

/-- `transfer_encoding` -/
def transferEncoding : List CStr := [str "8bit", str "base64", str "quoted-printable"]

/-- A table entry as `%s` prints it, where there may be none. -/
def entryText (table : List CStr) (type : ℕ) : CStr := table.getD type (str "(null)")

/-- The encoded data, or `none` when it was not encoded. -/
def encodeData (data : List Byte) (len encoding : ℕ) : Checked (Option CStr) :=
  if encoding = smtpContentTransferEncodingBase64 then do
    let n1 := 2 * len
    let (rc, bdata) ← base64encode data len (List.replicate n1 0) n1
    if rc = -1 then return none
    else
      let width := 76
      let n2 := n1 + len / width * 2 + 3
      let (rc, bsdata) ← splitInRows bdata (List.replicate n2 0) n2 width
      if rc = -1 then return none
      else
        let text ← readStr bsdata
        return some text
  else if encoding = smtpContentTransferEncodingQuotedprint then do
    let n1 := 3 * len
    let text ← readStr data
    let r ← qprintEncode text (List.replicate n1 0) n1
    match r with
    | none => return none
    | some bdata => do
        let text ← readStr bdata
        return some text
  else if encoding = smtpContentTransferEncoding8bit then do
    let text ← readStr data
    return some text
  else return none

/-- The content type of an attachment. -/
def attachContenttype (contenttype : ℕ) (name : CStr) : CStr :=
  if contenttype = 0 ∨ contenttype = 1 then
    snprintf 255 (entryText attachMimeTypes contenttype ++ str "; charset=\"UTF-8\"")
  else snprintf 255 (entryText attachMimeTypes contenttype ++ str "; name=\"" ++ name ++ str "\"")

/-- `handle->attachment[handle->attachmentidx++] = attach` -/
def pushAttachment (handle : SmtpHandle) (attach : SmtpAttachment) : Checked SmtpHandle :=
  if handle.attachment.length < maxAttachments then
    return { handle with attachment := handle.attachment ++ [attach] }
  else .fault

/-- The attachment that is filled in. -/
def newAttachment (filename name text : CStr) (contenttype encoding : ℕ) : SmtpAttachment where
  data := text
  contenttype := attachContenttype contenttype name
  contenttransferencoding := snprintf 255 (entryText transferEncoding encoding)
  contentdisposition := str "attachment"
  filename := filename
  name := name
  cid := none

/-- `smtp_add_attachment` -/
def smtpAddAttachment (handle : SmtpHandle) (filename name : CStr) (data : List Byte)
    (len contenttype encoding : ℕ) : Checked (ℤ × SmtpHandle) := do
  let encoded ← encodeData data len encoding
  match encoded with
  | none => return (-1, handle)
  | some text => do
      let handle ← pushAttachment handle (newAttachment filename name text contenttype encoding)
      return (0, handle)

/-! ## Rows -/

/-- A text in rows, `w` characters of the first one being written already. -/
def textRows (width : ℕ) : ℕ → CStr → CStr
  | _, [] => []
  | w, c :: s =>
      if w + 1 = width then c :: cr :: lf :: textRows width 0 s else c :: textRows width (w + 1) s

/-- The length of the rows. -/
lemma length_textRows {width : ℕ} (hwidth : 0 < width) (w : ℕ) (hw : w < width) (s : CStr) :
    (textRows width w s).length = s.length + 2 * ((w + s.length) / width) := by
  induction s generalizing w with
  | nil =>
      rw [textRows, List.length_nil, Nat.add_zero, Nat.div_eq_of_lt hw]
  | cons c s ih =>
      rw [textRows]
      split_ifs with hfull
      · have hdiv : (w + (s.length + 1)) / width = (0 + s.length) / width + 1 := by
          rw [← Nat.add_div_right _ hwidth]
          congr 1
          omega
        rw [List.length_cons, List.length_cons, List.length_cons, ih 0 hwidth, List.length_cons,
          hdiv]
        omega
      · rw [List.length_cons, ih (w + 1) (by omega), List.length_cons]
        have hsum : w + 1 + s.length = w + (s.length + 1) := by omega
        rw [hsum]
        omega

/-- **The rows are lines** of at most the width, and joined they are the text. -/
theorem linesOf_textRows {width : ℕ} (hwidth : 0 < width) {s : CStr} (hcr : cr ∉ s) (w : ℕ)
    (hw : w < width) :
    ∃ l ls, linesOf (textRows width w s) = l :: ls ∧ w + l.length ≤ width ∧
      (∀ line ∈ ls, line.length ≤ width) ∧ (l :: ls).flatten = s := by
  induction s generalizing w with
  | nil => exact ⟨[], [], rfl, hw.le, nofun, rfl⟩
  | cons c s ih =>
      rw [List.mem_cons, not_or] at hcr
      have hc {rest : CStr} : ¬ (c = cr ∧ rest.head? = some lf) := fun h => hcr.1 h.1.symm
      rw [textRows]
      split_ifs with hfull
      · obtain ⟨l, ls, hrows, hl, hls, hflat⟩ := ih hcr.2 0 hwidth
        refine ⟨[c], l :: ls, ?_, hfull.le, ?_, ?_⟩
        · rw [linesOf_cons hc, linesOf_crlf, List.modifyHead_cons, hrows]
        · intro line hline
          rcases List.mem_cons.mp hline with rfl | hmem
          · omega
          · exact hls line hmem
        · rw [List.flatten_cons, hflat]
          rfl
      · obtain ⟨l, ls, hrows, hl, hls, hflat⟩ := ih hcr.2 (w + 1) (by omega)
        refine ⟨c :: l, ls, ?_, ?_, hls, ?_⟩
        · rw [linesOf_cons hc, hrows, List.modifyHead_cons]
        · rw [List.length_cons]
          omega
        · rw [List.flatten_cons, List.cons_append, ← List.flatten_cons, hflat]

/-- The loop writes the rows. -/
lemma splitRowsLoop_eq (width : ℕ) (rest : List Byte) {todo : CStr} (hnul : (0 : Byte) ∉ todo)
    (hcr : cr ∉ todo) (hlf : lf ∉ todo) (fuel : ℕ) (front : List Byte) (w pout : ℕ)
    (out : List Byte) (hout : pout ≤ out.length) (hfuel : todo.length < fuel) :
    splitRowsLoop width (front ++ (todo ++ 0 :: rest)) fuel front.length pout w out =
      storeBytes out pout (textRows width w todo) := by
  induction todo generalizing fuel front w pout out with
  | nil =>
      obtain ⟨fuel, rfl⟩ := Nat.exists_eq_succ_of_ne_zero (Nat.ne_zero_of_lt hfuel)
      rw [List.nil_append, splitRowsLoop, load_append_length, Checked.done_bind, if_pos rfl, textRows,
        storeBytes_nil hout]
      rfl
  | cons c todo ih =>
      obtain ⟨fuel, rfl⟩ := Nat.exists_eq_succ_of_ne_zero (Nat.ne_zero_of_lt hfuel)
      rw [List.mem_cons, not_or] at hnul hcr hlf
      have hload := load_append_length front c (todo ++ 0 :: rest)
      have hcrlf : atCrlf (front ++ (c :: todo ++ 0 :: rest)) front.length = .done false := by
        rw [List.cons_append, atCrlf, hload, Checked.done_bind, if_neg (Ne.symm hcr.1)]
        rfl
      have hbuffer : front ++ [c] ++ (todo ++ 0 :: rest) = front ++ (c :: todo ++ 0 :: rest) := by
        simp
      have hchar : splitChar (front ++ (c :: todo ++ 0 :: rest)) front.length pout w out c =
          store out pout c >>= fun out => .done (front.length + 1, pout + 1, w + 1, out) := by
        rw [splitChar, hcrlf, Checked.done_bind, if_neg Bool.false_ne_true, if_neg (Ne.symm hlf.1)]
        rfl
      have hstep (fuel : ℕ) : splitRowsLoop width (front ++ (c :: todo ++ 0 :: rest)) (fuel + 1)
          front.length pout w out = store out pout c >>= fun out =>
            splitRow width (pout + 1) (w + 1) out >>= fun r =>
              splitRowsLoop width (front ++ (c :: todo ++ 0 :: rest)) fuel (front.length + 1) r.1 r.2.1
                r.2.2 := by
        rw [splitRowsLoop, List.cons_append, hload, Checked.done_bind, if_neg (Ne.symm hnul.1),
          ← List.cons_append, hchar, Checked.bind_assoc]
        rfl
      have hnext (w pout : ℕ) (out : List Byte) (hout : pout ≤ out.length) :
          splitRowsLoop width (front ++ (c :: todo ++ 0 :: rest)) fuel (front.length + 1) pout w out =
            storeBytes out pout (textRows width w todo) := by
        have hih := ih hnul.2 hcr.2 hlf.2 fuel (front ++ [c]) w pout out hout
          (Nat.lt_of_succ_lt_succ hfuel)
        rwa [hbuffer, List.length_append, List.length_singleton] at hih
      by_cases hroom : pout < out.length
      · have hlen : (out.set pout c).length = out.length := List.length_set
        rw [hstep, store_eq_done hroom, Checked.done_bind, splitRow, textRows]
        by_cases hfull : w + 1 = width
        · have hrest := storeBytes_two (out.set pout c) (pout + 1) crlf (textRows width 0 todo)
          rw [if_pos hfull, if_pos hfull, storeBytes_cons, store_eq_done hroom, Checked.done_bind]
          refine Eq.trans ?_ hrest.symm
          rw [Checked.bind_assoc]
          cases hend : storeBytes (out.set pout c) (pout + 1) crlf with
          | done out' =>
              obtain ⟨hle, hlen'⟩ := length_storeBytes hend
              rw [hlen] at hle
              exact hnext 0 (pout + 3) out' (by rw [hlen', hlen]; exact hle)
          | fault => rfl
          | timeout => rfl
        · rw [if_neg hfull, if_neg hfull, storeBytes_cons, store_eq_done hroom]
          exact hnext (w + 1) (pout + 1) _ (by rw [hlen]; exact hroom)
      · rw [hstep, store_eq_fault (Nat.not_lt.mp hroom), textRows]
        split_ifs
        · rw [storeBytes_cons, store_eq_fault (Nat.not_lt.mp hroom)]
          rfl
        · rw [storeBytes_cons, store_eq_fault (Nat.not_lt.mp hroom)]
          rfl

/-- **The rows of a text without line ends**, where they fit. -/
theorem splitInRows_eq {text : CStr} (rest : List Byte) (hnul : (0 : Byte) ∉ text)
    (hcr : cr ∉ text) (hlf : lf ∉ text) (out : List Byte) (maxlen width : ℕ) :
    splitInRows (text ++ 0 :: rest) out maxlen width =
      if text.length + text.length / width + 1 ≥ maxlen then .done (-1, out)
      else storeBytes out 0 (textRows width 0 text) >>= fun out => .done (0, out) := by
  have hloop := splitRowsLoop_eq width rest hnul hcr hlf (text.length + 1) [] 0 0 out
    (Nat.zero_le _) (Nat.lt_succ_self _)
  rw [List.nil_append, List.length_nil] at hloop
  rw [splitInRows, readStr_append_nul hnul, Checked.done_bind, hloop]
  rfl

/-! ## Base64 -/

/-- Writing over zeros from the start. -/
lemma storeBytes_zeros {n : ℕ} {bs : List Byte} (h : bs.length ≤ n) :
    storeBytes (List.replicate n 0) 0 bs = .done (bs ++ List.replicate (n - bs.length) 0) := by
  have hstore := storeBytes_append [] bs
    (show bs.length ≤ (List.replicate n (0 : Byte)).length by rwa [List.length_replicate])
  rwa [List.nil_append, List.nil_append, List.length_nil, List.drop_replicate] at hstore

/-- A string in a block of zeros. -/
lemma readStr_zeros {bs : List Byte} (hbs : (0 : Byte) ∉ bs) {n : ℕ} (hn : 0 < n) :
    readStr (bs ++ List.replicate n 0) = .done bs := by
  obtain ⟨n, rfl⟩ := Nat.exists_eq_add_one.mpr hn
  exact readStr_append_nul hbs _

/-- The text that is attached: that of as many bytes as the encoder's `int` says, in rows. -/
def attachedText (data : List Byte) : CStr :=
  textRows 76 0 (base64 (data.take (toInt data.length).toNat))

/-- Base64 has no NUL and no line ends. -/
lemma notMem_base64_controls (data : List Byte) :
    (0 : Byte) ∉ base64 data ∧ cr ∉ base64 data ∧ lf ∉ base64 data :=
  ⟨notMem_base64 (by decide) (by decide) data, notMem_base64 (by decide) (by decide) data,
    notMem_base64 (by decide) (by decide) data⟩

lemma nul_notMem_textRows {text : CStr} (h : (0 : Byte) ∉ text) (width w : ℕ) :
    (0 : Byte) ∉ textRows width w text := by
  induction text generalizing w with
  | nil => exact List.not_mem_nil
  | cons c text ih =>
      rw [List.mem_cons, not_or] at h
      rw [textRows]
      split_ifs
      · simp only [List.mem_cons, not_or]
        exact ⟨h.1, by decide, by decide, ih h.2 0⟩
      · rw [List.mem_cons, not_or]
        exact ⟨h.1, ih h.2 (w + 1)⟩

/-- **What is attached** to 5 bytes or more. -/
theorem encodeData_of_le {data : List Byte} (hlen : 5 ≤ data.length) :
    encodeData data data.length smtpContentTransferEncodingBase64 =
      .done (some (attachedText data)) := by
  obtain ⟨hnul, hcr, hlf⟩ := notMem_base64_controls (data.take (toInt data.length).toNat)
  have hk := toNat_toInt_le data.length
  have hn := length_base64 (data.take (toInt data.length).toNat)
  rw [List.length_take, Nat.min_eq_left hk] at hn
  have hrows := length_textRows (show 0 < 76 by omega) 0 (by omega)
    (base64 (data.take (toInt data.length).toNat))
  rw [Nat.zero_add] at hrows
  rw [attachedText]
  have hencode := base64encode_eq data (List.replicate (2 * data.length) 0) (2 * data.length)
  rw [if_neg (by omega),
    storeBytes_zeros (by rw [List.length_append, List.length_singleton]; omega),
    Checked.done_bind, List.append_assoc, List.singleton_append] at hencode
  generalize base64 (data.take (toInt data.length).toNat) = text at *
  have hsplit : splitInRows
      (text ++ 0 :: List.replicate (2 * data.length - (text ++ [0]).length) 0)
      (List.replicate (2 * data.length + data.length / 76 * 2 + 3) 0)
      (2 * data.length + data.length / 76 * 2 + 3) 76 =
      .done (0, textRows 76 0 text ++ List.replicate (2 * data.length + data.length / 76 * 2 + 3 -
        (textRows 76 0 text).length) 0) := by
    rw [splitInRows_eq _ hnul hcr hlf, if_neg (by omega), storeBytes_zeros (by omega)]
    rfl
  have hread := readStr_zeros (nul_notMem_textRows hnul 76 0)
    (show 0 < 2 * data.length + data.length / 76 * 2 + 3 - (textRows 76 0 text).length by omega)
  rw [encodeData, if_pos rfl]
  refine (congrArg (· >>= _) hencode).trans ?_
  refine (congrArg (· >>= _) hsplit).trans ?_
  exact congrArg (· >>= _) hread

/-- **Nothing is attached** to fewer than 5 bytes. -/
theorem le_length_of_encodeData {data : List Byte} {text : CStr}
    (h : encodeData data data.length smtpContentTransferEncodingBase64 = .done (some text)) :
    5 ≤ data.length := by
  by_contra! hlen
  have hk := toNat_toInt_of_lt (n := data.length) (by omega)
  have hn := length_base64 (data.take (toInt data.length).toNat)
  rw [List.length_take, hk, Nat.min_self] at hn
  have hencode := base64encode_eq data (List.replicate (2 * data.length) 0) (2 * data.length)
  rw [encodeData, if_pos rfl] at h
  by_cases hroom : 2 * data.length < (data.length / 3 + 1) * 4
  · rw [if_pos hroom] at hencode
    have hnone := (congrArg (· >>= _) hencode).symm.trans h
    cases hnone
  · rw [if_neg hroom, storeBytes, if_neg] at hencode
    · have hfault := (congrArg (· >>= _) hencode).symm.trans h
      cases hfault
    · rw [List.length_append, hk, hn, List.length_singleton, List.length_replicate]
      omega

/-! ## The result -/

/-- The call attaches a text with lines of at most 76 characters that decodes to the data. -/
def AttachesBase64 (handle : SmtpHandle) (filename name : CStr) (data : List Byte)
    (contenttype : ℕ) : Prop :=
  ∃ attach, smtpAddAttachment handle filename name data data.length contenttype
      smtpContentTransferEncodingBase64 =
        .done (0, { handle with attachment := handle.attachment ++ [attach] }) ∧
    (∀ line ∈ linesOf attach.data, line.length ≤ 76) ∧
    base64Decode (linesOf attach.data).flatten = some data

/-- What is attached decodes to as many bytes as the encoder's `int` says. -/
lemma attachedText_lines (data : List Byte) :
    (∀ line ∈ linesOf (attachedText data), line.length ≤ 76) ∧
      base64Decode (linesOf (attachedText data)).flatten =
        some (data.take (toInt data.length).toNat) := by
  obtain ⟨-, hcr, -⟩ := notMem_base64_controls (data.take (toInt data.length).toNat)
  obtain ⟨l, ls, hlines, hl, hls, hflat⟩ :=
    linesOf_textRows (show 0 < 76 by omega) hcr 0 (by omega)
  rw [Nat.zero_add] at hl
  rw [attachedText, hlines]
  exact ⟨List.forall_mem_cons.mpr ⟨hl, hls⟩, by rw [hflat, base64Decode_base64]⟩

section Attaches

variable {handle : SmtpHandle} {filename name : CStr} {data : List Byte} {contenttype : ℕ}

/-- Where the call does what it should. -/
lemma AttachesBase64.bounds (h : AttachesBase64 handle filename name data contenttype) :
    5 ≤ data.length ∧ data.length < 2 ^ 31 ∧ handle.attachment.length < 20 := by
  obtain ⟨attach, hrun, -, hdecode⟩ := h
  obtain ⟨encoded, hencode, hpush⟩ := Checked.bind_eq_done.mp hrun
  cases encoded with
  | none =>
      have hrc : (-1 : ℤ) = 0 := congrArg Prod.fst (Checked.done.inj hpush)
      exact absurd hrc (by decide)
  | some text =>
      have hlen := le_length_of_encodeData hencode
      cases (encodeData_of_le hlen).symm.trans hencode
      obtain ⟨handle', hadd, hret⟩ := Checked.bind_eq_done.mp hpush
      rw [pushAttachment] at hadd
      split_ifs at hadd with hroom
      cases hadd
      have hattach := congrArg (fun r => r.2.attachment) (Checked.done.inj hret)
      have hdata : attachedText data = attach.data := congrArg SmtpAttachment.data
        (List.singleton_inj.mp (List.append_cancel_left hattach))
      rw [← hdata, (attachedText_lines data).2] at hdecode
      have htake := congrArg List.length (Option.some.inj hdecode)
      rw [List.length_take] at htake
      have hlt := toNat_toInt_lt data.length
      exact ⟨hlen, by omega, hroom⟩

/-- There it does. -/
lemma attachesBase64_of_bounds (hlen : 5 ≤ data.length) (hint : data.length < 2 ^ 31)
    (hroom : handle.attachment.length < 20) :
    AttachesBase64 handle filename name data contenttype := by
  obtain ⟨hlines, hdecode⟩ := attachedText_lines data
  rw [toNat_toInt_of_lt hint, List.take_length] at hdecode
  refine ⟨newAttachment filename name (attachedText data) contenttype
    smtpContentTransferEncodingBase64, ?_, hlines, hdecode⟩
  rw [smtpAddAttachment, encodeData_of_le hlen, Checked.done_bind]
  exact congrArg (· >>= _) (if_pos hroom)

end Attaches

/-- **Base64 attachments.**  The data is attached as it should be, and inside the two buffers, if
and only if it has at least 5 bytes, its length is an `int` and there is room for one more
attachment. -/
theorem attachesBase64_iff (handle : SmtpHandle) (filename name : CStr) (data : List Byte)
    (contenttype : ℕ) :
    AttachesBase64 handle filename name data contenttype ↔
      5 ≤ data.length ∧ data.length < 2 ^ 31 ∧ handle.attachment.length < 20 :=
  ⟨AttachesBase64.bounds, fun h => attachesBase64_of_bounds h.1 h.2.1 h.2.2⟩

/-- One byte is refused, and the NUL behind the text of four bytes is written past the buffer. -/
theorem shortData_not_attaches :
    ¬ AttachesBase64 newHandle (str "a") (str "a") [65] 5 ∧
      smtpAddAttachment newHandle (str "a") (str "a") [65] 1 5 1 = .done (-1, newHandle) ∧
      smtpAddAttachment newHandle (str "a") (str "a") [65, 66, 67, 68] 4 5 1 = .fault :=
  ⟨fun h => absurd h.bounds.1 (by decide), rfl, rfl⟩

end G7
