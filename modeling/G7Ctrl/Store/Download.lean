import G7Ctrl.Store.Ingestion
import G7Ctrl.Xstr.Block
import G7Ctrl.Xstr.Fold

/-!
# Downloading the stored locations (`get_dlrec_to_db`)

The device answers the `DLREC` command with a header line, the locations in its memory and a
closing text.  The reply arrives in pieces.  They are put together in one buffer, but whether the
closing text has come is looked for in each piece alone.

* `getDlrecToDb` — the download, once the command was written.
* `Delivery` — a reply and the reads it arrives in.
* **`stores_iff`** — the records are stored exactly when the closing text comes in one read.
-/

namespace G7

/-- `END_STR` -/
def endStr : CStr := str "$MSG:Download Completed\r\n"

/-- The string ends with the closing text. -/
def atDownloadEnd (s : CStr) : Bool :=
  decide (endStr.length ≤ s.length) && xstricmp (s.drop (s.length - endStr.length)) endStr

/-- The variables of the read loop. -/
structure Download where
  rbuff : List Byte
  bptr : ℕ
  maxRead : ℕ

/-- `serial_read_timeout` with `*(bptr + nread) = '\0'`: at most `max_read` bytes. -/
def readPiece (bytes : List Byte) (d : Download) : Checked (List Byte) := do
  let rbuff ← storeBytes d.rbuff d.bptr (bytes.take d.maxRead)
  store rbuff (d.bptr + (bytes.take d.maxRead).length) 0

/-- The read loop, with the reads that are still to come; `none` when there is none in time. -/
def readLoop : List (List Byte) → Download → Checked (Option (Download × List (List Byte)))
  | [], _ => return none
  | bytes :: later, d => do
      let rbuff ← readPiece bytes d
      let text ← readStr (rbuff.drop d.bptr)
      let finished := atDownloadEnd text
      let nread := (bytes.take d.maxRead).length - if finished then endStr.length else 0
      let d : Download := ⟨rbuff, d.bptr + nread, d.maxRead - nread⟩
      if !finished && decide (0 < d.maxRead) then readLoop later d else return some (d, later)

/-- `while (*bptr != '\r') bptr++` -/
def findCr : List Byte → Checked ℕ
  | [] => .fault
  | c :: cs =>
      if c = cr then return 0
      else do
        let n ← findCr cs
        return n + 1

/-- What of the buffer is passed to `db_store_locations`, or `none` for -1.  (It begins with a `'3'`
or a `'['`, so that it is never empty.) -/
def storeText (rbuff : List Byte) : Checked (Option CStr) := do
  let ok ← matchLit (str "$OK") rbuff
  if ok then
    let n ← findCr rbuff
    let c ← load rbuff (n + 2)
    if c ≠ ch '3' ∧ c ≠ ch '[' then return none
    else
      let text ← readStr (rbuff.drop (n + 2))
      return some text
  else return none

/-- What is done behind the loop. -/
def storeDownload (d : Download) : Checked (Option CStr) :=
  if d.maxRead = 0 then return none
  else do
    let rbuff ← store d.rbuff d.bptr 0
    storeText rbuff

/-- `get_dlrec_to_db`, from the reading on: what is passed to `db_store_locations`, and the reads
that were not made. -/
def getDlrecToDb (numLoc : ℕ) (reads : List (List Byte)) :
    Checked (Option (CStr × List (List Byte))) := do
  let maxRead := 1024 + numLoc * 70
  let r ← readLoop reads ⟨List.replicate maxRead 0, 0, maxRead⟩
  match r with
  | none => return none
  | some (d, unread) =>
      let text ← storeDownload d
      return text.map (·, unread)

/-! ## The read loop -/

/-- The buffer with what was read so far and room for `k` more bytes. -/
def Download.after (text : List Byte) (k : ℕ) : Download :=
  ⟨text ++ List.replicate k 0, text.length, k⟩

section ReadLoop

variable {text bytes : List Byte} {k : ℕ}

/-- A read that leaves room. -/
lemma readPiece_eq (h : bytes.length < k) :
    readPiece bytes (.after text k) =
      .done (text ++ (bytes ++ List.replicate (k - bytes.length) 0)) := by
  obtain ⟨m, hm⟩ := Nat.exists_eq_succ_of_ne_zero (Nat.ne_of_gt (Nat.sub_pos_of_lt h))
  have hfit : bytes.length ≤ (List.replicate k (0 : Byte)).length := by
    rw [List.length_replicate]
    exact h.le
  have hstr : text ++ (bytes ++ List.replicate (k - bytes.length) 0)
      = (text ++ bytes) ++ 0 :: List.replicate m 0 := by
    rw [hm, List.append_assoc, List.replicate_succ]
  have hroom : (text ++ bytes).length < ((text ++ bytes) ++ 0 :: List.replicate m 0).length := by
    rw [@List.length_append _ (text ++ bytes)]
    exact Nat.lt_add_of_pos_right (Nat.succ_pos _)
  rw [readPiece, Download.after, List.take_of_length_le h.le, storeBytes_append text bytes hfit,
    Checked.done_bind, List.drop_replicate, hstr, ← List.length_append, store_eq_done hroom]
  simp

/-- One round of the loop, on a read that may contain NULs. -/
lemma readLoop_cons (h : bytes.length < k) (later : List (List Byte)) :
    readLoop (bytes :: later) (.after text k) =
      if atDownloadEnd (cstr bytes) then
        .done (some (⟨text ++ (bytes ++ List.replicate (k - bytes.length) 0),
          text.length + (bytes.length - endStr.length), k - (bytes.length - endStr.length)⟩, later))
      else readLoop later (.after (text ++ bytes) (k - bytes.length)) := by
  obtain ⟨m, hm⟩ := Nat.exists_eq_succ_of_ne_zero (Nat.ne_of_gt (Nat.sub_pos_of_lt h))
  have hstr : readStr ((text ++ (bytes ++ List.replicate (k - bytes.length) 0)).drop text.length)
      = .done (cstr bytes) := by
    rw [List.drop_left, hm, List.replicate_succ, readStr_append_zero]
  have htake : bytes.take (Download.after text k).maxRead = bytes := List.take_of_length_le h.le
  rw [readLoop, readPiece_eq h, Checked.done_bind, htake]
  show (readStr ((text ++ (bytes ++ List.replicate (k - bytes.length) 0)).drop text.length) >>= _) = _
  rw [hstr, Checked.done_bind]
  cases hend : atDownloadEnd (cstr bytes) with
  | true => rfl
  | false =>
      have hgo : (!false && decide (0 < k - (bytes.length - 0))) = true := by
        rw [Nat.sub_zero, decide_eq_true (Nat.sub_pos_of_lt h)]
        rfl
      refine (if_pos hgo).trans ?_
      show readLoop later ⟨text ++ (bytes ++ List.replicate (k - bytes.length) 0),
        text.length + bytes.length, k - bytes.length⟩ = _
      rw [Download.after, List.append_assoc, List.length_append]
      rfl

/-- A read that fills the buffer has its NUL behind the buffer. -/
lemma readLoop_cons_of_ge (h : k ≤ bytes.length) (later : List (List Byte)) :
    readLoop (bytes :: later) (.after text k) = .fault := by
  have hlen : (bytes.take k).length = k := by
    rw [List.length_take]
    omega
  have hpiece : readPiece bytes (.after text k) = .fault := by
    rw [readPiece, Download.after]
    dsimp only
    rw [storeBytes_append text (bytes.take k) (by rw [hlen, List.length_replicate]),
      Checked.done_bind, store_eq_fault]
    simp [hlen]
  rw [readLoop, hpiece, Checked.fault_bind]

/-- Reads without the closing text are put together. -/
lemma readLoop_append {front : List (List Byte)}
    (hend : ∀ c ∈ front, atDownloadEnd (cstr c) = false) (hlen : front.flatten.length < k)
    (later : List (List Byte)) :
    readLoop (front ++ later) (.after text k) =
      readLoop later (.after (text ++ front.flatten) (k - front.flatten.length)) := by
  induction front generalizing text k with
  | nil => rw [List.flatten_nil, List.append_nil]; rfl
  | cons c front ih =>
      rw [List.flatten_cons, List.length_append] at hlen
      have hc := hend c List.mem_cons_self
      rw [List.cons_append, readLoop_cons (by omega), hc, if_neg Bool.false_ne_true,
        ih (fun d hd => hend d (List.mem_cons_of_mem _ hd)) (by omega), List.flatten_cons,
        List.append_assoc, List.length_append, Nat.sub_sub]

/-- Without the closing text in one of them the loop waits for another. -/
lemma readLoop_of_no_end {reads : List (List Byte)}
    (hend : ∀ c ∈ reads, atDownloadEnd (cstr c) = false) (hlen : reads.flatten.length < k) :
    readLoop reads (.after text k) = .done none := by
  have hrun : readLoop (reads ++ []) (.after text k) = _ := readLoop_append hend hlen []
  rw [List.append_nil] at hrun
  rw [hrun]
  rfl

end ReadLoop

lemma length_le_of_atDownloadEnd {s : CStr} (h : atDownloadEnd s = true) :
    endStr.length ≤ s.length := by
  rw [atDownloadEnd, Bool.and_eq_true] at h
  exact of_decide_eq_true h.1

/-- The variables behind the loop: `bptr` is where the closing text begins. -/
def Download.ended (text : List Byte) (k : ℕ) : Download :=
  ⟨text ++ List.replicate (k - text.length) 0, text.length - endStr.length,
    k - (text.length - endStr.length)⟩

lemma length_le_of_atDownloadEnd_cstr {bytes : List Byte}
    (h : atDownloadEnd (cstr bytes) = true) : endStr.length ≤ bytes.length :=
  (length_le_of_atDownloadEnd h).trans (List.takeWhile_sublist _).length_le

/-- The loop ends with the first read that ends with the closing text. -/
lemma readLoop_of_end {front back : List (List Byte)} {last : List Byte} {k : ℕ}
    (hend : ∀ c ∈ front, atDownloadEnd (cstr c) = false) (hlast : atDownloadEnd (cstr last) = true)
    (hlen : (front.flatten ++ last).length < k) :
    readLoop (front ++ last :: back) (.after [] k) =
      .done (some (.ended (front.flatten ++ last) k, back)) := by
  have hle := length_le_of_atDownloadEnd_cstr hlast
  rw [List.length_append] at hlen
  rw [readLoop_append hend (by omega), List.nil_append, readLoop_cons (by omega), if_pos hlast,
    Download.ended, List.length_append, List.append_assoc, Nat.sub_sub, Nat.add_sub_assoc hle,
    Nat.sub_sub]

/-! ## What is stored -/

/-- The scan stops at the first `'\r'`. -/
lemma findCr_append {a : List Byte} (ha : cr ∉ a) (rest : List Byte) :
    findCr (a ++ cr :: rest) = .done a.length := by
  induction a with
  | nil => rfl
  | cons c cs ih =>
      rw [List.mem_cons, not_or] at ha
      rw [List.cons_append, findCr, if_neg (Ne.symm ha.1), ih ha.2]
      rfl

lemma getElem?_of_findCr {mem : List Byte} {n : ℕ} (h : findCr mem = .done n) :
    mem[n]? = some cr := by
  induction mem generalizing n with
  | nil => cases h
  | cons c cs ih =>
      rw [findCr] at h
      split_ifs at h with hc
      · cases h
        rw [hc]
        rfl
      · obtain ⟨m, hm, hret⟩ := Checked.bind_eq_done.mp h
        cases hret
        exact ih hm

/-- The text behind the header is stored. -/
lemma storeText_eq {header records : CStr} (hheader : cr ∉ header) (hnul : (0 : Byte) ∉ records)
    (hlead : byteAt records 0 = ch '3' ∨ byteAt records 0 = ch '[') (rest : List Byte) :
    storeText (str "$OK:" ++ (header ++ cr :: lf :: (records ++ 0 :: rest))) =
      .done (some records) := by
  have hhead : cr ∉ str "$OK:" ++ header := by
    rw [List.mem_append, not_or]
    exact ⟨by decide, hheader⟩
  have hne : records ≠ [] := by
    rintro rfl
    exact absurd hlead (by decide)
  have hmark : matchLit (str "$OK") (str "$OK:" ++ (header ++ cr :: lf :: (records ++ 0 :: rest)))
      = .done true := rfl
  have hskip : str "$OK:" ++ (header ++ cr :: lf :: (records ++ 0 :: rest))
      = (str "$OK:" ++ header ++ crlf) ++ (records ++ 0 :: rest) := by simp [crlf]
  have hlen : (str "$OK:" ++ header).length + 2 = (str "$OK:" ++ header ++ crlf).length := by
    rw [@List.length_append _ _ crlf]
    rfl
  have hload : load ((str "$OK:" ++ header ++ crlf) ++ (records ++ 0 :: rest))
      (str "$OK:" ++ header ++ crlf).length = .done (byteAt records 0) := by
    rw [← byteAt_append_zero hne (0 :: rest)]
    exact load_append_add _ (k := 0) (by rw [List.length_append, List.length_cons]; omega)
  have hfirst : ¬ (byteAt records 0 ≠ ch '3' ∧ byteAt records 0 ≠ ch '[') := by
    rw [not_and_or, not_not, not_not]
    exact hlead
  rw [storeText, hmark, Checked.done_bind, if_pos rfl, ← List.append_assoc, findCr_append hhead,
    Checked.done_bind, hlen, List.append_assoc, hskip, hload, Checked.done_bind, if_neg hfirst,
    List.drop_left, readStr_append_nul hnul]
  rfl

/-- The records of a whole reply are stored. -/
lemma storeDownload_whole {header records : CStr} (hheader : cr ∉ header)
    (hnul : (0 : Byte) ∉ records)
    (hlead : byteAt records 0 = ch '3' ∨ byteAt records 0 = ch '[') {k : ℕ}
    (hlen : (str "$OK:" ++ (header ++ cr :: lf :: (records ++ endStr))).length < k) :
    storeDownload (.ended (str "$OK:" ++ (header ++ cr :: lf :: (records ++ endStr))) k)
      = .done (some records) := by
  obtain ⟨closing, hclosing⟩ : ∃ closing, endStr = ch '$' :: closing := ⟨_, rfl⟩
  have hsplit : str "$OK:" ++ (header ++ cr :: lf :: (records ++ endStr))
      = (str "$OK:" ++ (header ++ cr :: lf :: records)) ++ endStr := by simp
  rw [hsplit] at hlen ⊢
  have hmax : k - (((str "$OK:" ++ (header ++ cr :: lf :: records)) ++ endStr).length
      - endStr.length) ≠ 0 := by omega
  rw [storeDownload, Download.ended, if_neg hmax]
  dsimp only
  rw [@List.length_append _ _ endStr, Nat.add_sub_cancel, List.append_assoc, hclosing,
    List.cons_append, store_eq_done (by simp), Checked.done_bind]
  have hset : ∀ front room : List Byte,
      (front ++ ch '$' :: room).set front.length 0 = front ++ 0 :: room := by simp
  rw [hset]
  simpa using storeText_eq hheader hnul hlead _

/-- The buffer behind the loop, with the closing text cut off. -/
def cutDownload (text : List Byte) (k : ℕ) : List Byte :=
  (text ++ List.replicate (k - text.length) 0).set (text.length - endStr.length) 0

section Cut

variable {header text more : List Byte} {k : ℕ}

lemma getElem?_cutDownload_cut (hlen : text.length < k) :
    (cutDownload text k)[text.length - endStr.length]? = some 0 := by
  rw [cutDownload, List.getElem?_set_self]
  rw [List.length_append, List.length_replicate]
  omega

lemma getElem?_cutDownload_of_le (hle : endStr.length ≤ text.length) {i : ℕ}
    (hi : text.length ≤ i) (hik : i < k) : (cutDownload text k)[i]? = some 0 := by
  have hpos : 0 < endStr.length := by decide
  rw [cutDownload, List.getElem?_set_ne (by omega), List.getElem?_append_right hi,
    List.getElem?_replicate, if_pos (by omega)]

/-- The scan of the header line does not stop inside it. -/
lemma length_le_of_findCr (hheader : cr ∉ header) (htext : text <+: header ++ cr :: more)
    (hlen : text.length < k) {n : ℕ} (h : findCr (cutDownload text k) = .done n) :
    header.length ≤ n := by
  by_contra! hlt
  have hcr := getElem?_of_findCr h
  by_cases hcut : text.length - endStr.length = n
  · rw [← hcut, getElem?_cutDownload_cut hlen] at hcr
    exact absurd (Option.some.inj hcr) (by decide)
  · rw [cutDownload, List.getElem?_set_ne hcut] at hcr
    rcases Nat.lt_or_ge n text.length with hn | hn
    · obtain ⟨rest, hrest⟩ := htext
      have hsame : text[n]? = (header ++ cr :: more)[n]? := by
        rw [← hrest, List.getElem?_append_left hn]
      rw [List.getElem?_append_left hn, hsame, List.getElem?_append_left hlt] at hcr
      exact hheader (List.mem_of_getElem? hcr)
    · rw [List.getElem?_append_right hn, List.getElem?_replicate] at hcr
      split_ifs at hcr
      exact absurd (Option.some.inj hcr) (by decide)

/-- What is stored after the loop ended with `text`: less than the closing text, or no more than
what stands between the header line and the end of `text` without a closing text. -/
lemma length_le_of_storeDownload (hheader : cr ∉ header) (htext : text <+: header ++ cr :: more)
    (hle : endStr.length ≤ text.length) (hlen : text.length < k) {stored : CStr}
    (h : storeDownload (.ended text k) = .done (some stored)) :
    stored.length < endStr.length ∨
      stored.length + header.length + 2 + endStr.length ≤ text.length := by
  have hmax : k - (text.length - endStr.length) ≠ 0 := by omega
  have hroom : text.length - endStr.length
      < (text ++ List.replicate (k - text.length) (0 : Byte)).length := by
    rw [List.length_append, List.length_replicate]
    omega
  rw [storeDownload, Download.ended, if_neg hmax] at h
  dsimp only at h
  rw [store_eq_done hroom, Checked.done_bind, ← cutDownload] at h
  obtain ⟨ok, -, h⟩ := Checked.bind_eq_done.mp h
  cases ok with
  | false => cases h
  | true =>
      obtain ⟨n, hn, h⟩ := Checked.bind_eq_done.mp h
      obtain ⟨c, hc, h⟩ := Checked.bind_eq_done.mp h
      split_ifs at h with hfirst
      · cases h
      · obtain ⟨s, hs, h⟩ := Checked.bind_eq_done.mp h
        cases h
        have hbehind := length_le_of_findCr hheader htext hlen hn
        have hin : n + 2 < k := by
          have hlt := lt_length_of_load hc
          rw [cutDownload, List.length_set, List.length_append, List.length_replicate] at hlt
          omega
        have hread {j : ℕ} (hj : (cutDownload text k)[n + 2 + j]? = some 0) : stored.length ≤ j :=
          length_le_of_readStr hs (by rw [List.getElem?_drop, hj])
        -- a NUL stands at the cut, and from the end of `text` on
        rcases le_or_gt (n + 2) (text.length - endStr.length) with hcut | hcut
        · have hj := getElem?_cutDownload_cut hlen
          rw [← Nat.add_sub_of_le hcut] at hj
          have hstored := hread hj
          omega
        · have hj : (cutDownload text k)[n + 2 + (text.length - (n + 2))]? = some 0 :=
            getElem?_cutDownload_of_le hle (by omega) (by omega)
          have hstored := hread hj
          have hpos : 0 < endStr.length := by decide
          omega

end Cut

/-! ## Deliveries -/

/-- The device's reply to the `DLREC` command. -/
structure DlrecReply where
  /-- What follows the `"$OK:"` in the header line. -/
  header : CStr
  records : List LocationRecord
  framing : Framing
  header_plain : (0 : Byte) ∉ header ∧ cr ∉ header
  records_ne : records ≠ []

namespace DlrecReply

variable (r : DlrecReply)

/-- The text of the records. -/
def recordText : CStr := r.framing.text r.records

/-- The reply. -/
def bytes : List Byte := str "$OK:" ++ (r.header ++ cr :: lf :: (r.recordText ++ endStr))

end DlrecReply

/-- A reply and the reads it arrives in, none of them late. -/
structure Delivery where
  reply : DlrecReply
  /-- The number of locations the device has reported. -/
  numLoc : ℕ
  reads : List (List Byte)
  delivered : reads.flatten = reply.bytes
  /-- The reply and a NUL fit the buffer. -/
  fits : reply.bytes.length < 1024 + numLoc * 70

namespace Delivery

variable (d : Delivery)

/-- Exactly the text of the records is passed on, and the reading stops with the reply. -/
def Stores : Prop :=
  ∃ unread, getDlrecToDb d.numLoc d.reads = .done (some (d.reply.recordText, unread)) ∧
    unread.flatten = []

/-- The first read that ends with the closing text is the one that ends the reply. -/
def EndsWhole : Prop :=
  ∃ front last back, d.reads = front ++ last :: back ∧ (∀ c ∈ front, atDownloadEnd c = false) ∧
    atDownloadEnd last = true ∧ back.flatten = []

end Delivery

/-- A framed batch has no NUL. -/
lemma nul_notMem_framing_text (f : Framing) (rs : List LocationRecord) : (0 : Byte) ∉ f.text rs := by
  have hopening : (0 : Byte) ∉ f.opening := by
    rcases opening_cases f with h | h <;> rw [h] <;> decide
  have hclosing : (0 : Byte) ∉ f.closing := by
    rcases f with (_ | _) | ⟨_ | _, _ | _⟩ <;> decide
  have hjoined : (0 : Byte) ∉ joined rs := by
    intro h0
    rcases mem_of_mem_intercalate h0 with hsep | ⟨t, ht, h0⟩
    · exact absurd hsep (by decide)
    · obtain ⟨r, -, rfl⟩ := List.mem_map.mp ht
      exact r.plain.1 h0
  simp only [Framing.text, List.mem_append, not_or]
  exact ⟨hopening, hjoined, hclosing⟩

lemma framing_text_lead (f : Framing) {rs : List LocationRecord} (hrs : rs ≠ []) :
    byteAt (f.text rs) 0 = ch '3' ∨ byteAt (f.text rs) 0 = ch '[' := by
  obtain ⟨r, rs, rfl⟩ := List.exists_cons_of_ne_nil hrs
  rw [Framing.text]
  rcases opening_cases f with h | h
  · rw [h, List.nil_append, joined_lead]
    exact Or.inl rfl
  · rw [h]
    exact Or.inr rfl

lemma length_le_framing_text (f : Framing) {rs : List LocationRecord} (hrs : rs ≠ []) :
    50 ≤ (f.text rs).length := by
  obtain ⟨r, rs, rfl⟩ := List.exists_cons_of_ne_nil hrs
  have hjoined : r.text.length ≤ (joined (r :: rs)).length := by
    cases rs with
    | nil => rw [joined_singleton]
    | cons r' rs =>
        rw [joined_cons_cons, List.length_append]
        exact Nat.le_add_right _ _
  have hlong := r.long
  rw [Framing.text, List.length_append, List.length_append]
  omega

namespace Delivery

variable (d : Delivery)

lemma nul_notMem_bytes : (0 : Byte) ∉ d.reply.bytes := by
  have hrecords := nul_notMem_framing_text d.reply.framing d.reply.records
  simp only [DlrecReply.bytes, DlrecReply.recordText, List.mem_append, List.mem_cons, not_or]
  exact ⟨by decide, d.reply.header_plain.1, by decide, by decide, hrecords, by decide⟩

lemma nul_notMem_read {c : List Byte} (hc : c ∈ d.reads) : (0 : Byte) ∉ c := fun h0 =>
  d.nul_notMem_bytes (d.delivered ▸ List.mem_flatten_of_mem hc h0)

/-- The run on reads of which none ends with the closing text. -/
lemma run_of_no_end (hend : ∀ c ∈ d.reads, atDownloadEnd c = false) :
    getDlrecToDb d.numLoc d.reads = .done none := by
  have hlen : d.reads.flatten.length < 1024 + d.numLoc * 70 := by
    rw [d.delivered]
    exact d.fits
  have hstrings : ∀ c ∈ d.reads, atDownloadEnd (cstr c) = false := by
    intro c hc
    rw [cstr_eq_self (d.nul_notMem_read hc), hend c hc]
  have hloop : readLoop d.reads (.after [] (1024 + d.numLoc * 70)) = .done none :=
    readLoop_of_no_end hstrings hlen
  rw [getDlrecToDb]
  refine (congrArg (· >>= _) hloop).trans ?_
  rfl

/-- The run up to the first read that ends with the closing text. -/
lemma run_of_end {front back : List (List Byte)} {last : List Byte}
    (hreads : d.reads = front ++ last :: back) (hend : ∀ c ∈ front, atDownloadEnd c = false)
    (hlast : atDownloadEnd last = true) :
    getDlrecToDb d.numLoc d.reads =
      storeDownload (.ended (front.flatten ++ last) (1024 + d.numLoc * 70)) >>=
        fun text => .done (text.map (·, back)) := by
  have hlen := d.fits
  rw [← d.delivered, hreads, List.flatten_append, List.flatten_cons, ← List.append_assoc,
    List.length_append] at hlen
  have hstrings : ∀ c ∈ front, atDownloadEnd (cstr c) = false := by
    intro c hc
    rw [cstr_eq_self (d.nul_notMem_read (hreads ▸ List.mem_append_left _ hc)), hend c hc]
  have hstring : atDownloadEnd (cstr last) = true := by
    rwa [cstr_eq_self (d.nul_notMem_read (hreads ▸ List.mem_append_right _ List.mem_cons_self))]
  have hloop := @readLoop_of_end front back last _ hstrings hstring
    (Nat.lt_of_le_of_lt (Nat.le_add_right _ _) hlen)
  rw [getDlrecToDb, hreads]
  refine (congrArg (· >>= _) hloop).trans ?_
  rfl

/-- **When exactly the records are stored**: the closing text comes in one read, and no read before
it ends with a closing text. -/
theorem stores_iff : d.Stores ↔ d.EndsWhole := by
  have hfits := d.fits
  have hplain := d.reply.header_plain
  have hrecords : (0 : Byte) ∉ d.reply.recordText := nul_notMem_framing_text _ _
  have hlead := framing_text_lead d.reply.framing d.reply.records_ne
  constructor
  · rintro ⟨unread, hrun, hunread⟩
    cases hfind : d.reads.find? atDownloadEnd with
    | none =>
        have hno := List.find?_eq_none.mp hfind
        rw [d.run_of_no_end fun c hc => Bool.eq_false_iff.mpr (hno c hc)] at hrun
        cases hrun
    | some last =>
        obtain ⟨hlast, front, back, hreads, hno⟩ := List.find?_eq_some_iff_append.mp hfind
        have hend : ∀ c ∈ front, atDownloadEnd c = false := fun c hc => by simpa using hno c hc
        refine ⟨front, last, back, hreads, hend, hlast, ?_⟩
        have hflatten : (front.flatten ++ last) ++ back.flatten = d.reply.bytes := by
          rw [← d.delivered, hreads, List.flatten_append, List.flatten_cons, List.append_assoc]
        rw [d.run_of_end hreads hend hlast] at hrun
        obtain ⟨text, htext, hret⟩ := Checked.bind_eq_done.mp hrun
        obtain ⟨stored, rfl, hstored⟩ := Option.map_eq_some_iff.mp (Checked.done.inj hret)
        cases hstored
        have hheader : cr ∉ str "$OK:" ++ d.reply.header := by
          rw [List.mem_append, not_or]
          exact ⟨by decide, hplain.2⟩
        have hinit : front.flatten ++ last <+: (str "$OK:" ++ d.reply.header)
            ++ cr :: lf :: (d.reply.recordText ++ endStr) := by
          rw [List.append_assoc]
          exact ⟨_, hflatten⟩
        have hlast' := length_le_of_atDownloadEnd hlast
        have htotal := congrArg List.length hflatten
        have hlong : 50 ≤ d.reply.recordText.length := length_le_framing_text _ d.reply.records_ne
        have hend : endStr.length = 25 := by decide
        rw [List.length_append, DlrecReply.bytes] at htotal
        rw [DlrecReply.bytes] at hfits
        have hbound := length_le_of_storeDownload hheader hinit
          (by rw [List.length_append]; omega) (by omega) htext
        simp only [List.length_append, List.length_cons] at hbound htotal
        exact List.eq_nil_of_length_eq_zero (by omega)
  · rintro ⟨front, last, back, hreads, hend, hlast, hback⟩
    have hwhole : front.flatten ++ last = d.reply.bytes := by
      rw [← d.delivered, hreads, List.flatten_append, List.flatten_cons, hback, List.append_nil]
    rw [Stores, d.run_of_end hreads hend hlast, hwhole, DlrecReply.bytes,
      storeDownload_whole hplain.2 hrecords hlead hfits]
    exact ⟨back, rfl, hback⟩

end Delivery

/-- A reply with one record. -/
def exampleReply : DlrecReply where
  header := str "DLREC+0001=0,0"
  records := [exampleRecord]
  framing := .plain true
  header_plain := by decide
  records_ne := List.cons_ne_nil _ _

/-- It arrives in two reads, the second of which begins inside the closing text. -/
def splitDelivery : Delivery where
  reply := exampleReply
  numLoc := 1
  reads := [exampleReply.bytes.take 100, exampleReply.bytes.drop 100]
  delivered := by simp
  fits := by decide +kernel

/-- The same reply in two reads, of which the second has the whole closing text. -/
def wholeEndDelivery : Delivery where
  reply := exampleReply
  numLoc := 1
  reads := [exampleReply.bytes.take 60, exampleReply.bytes.drop 60]
  delivered := by simp
  fits := by decide +kernel

/-- Its record is stored. -/
theorem stores_iff_wholeEnd : wholeEndDelivery.Stores :=
  wholeEndDelivery.stores_iff.mpr ⟨[exampleReply.bytes.take 60], exampleReply.bytes.drop 60, [], rfl,
    by decide +kernel, by decide +kernel, rfl⟩

/-- Nothing is stored. -/
theorem splitDelivery_not_stores : ¬ splitDelivery.Stores := by
  rintro ⟨unread, hrun, -⟩
  have hno : ∀ c ∈ splitDelivery.reads, atDownloadEnd c = false := by decide +kernel
  rw [splitDelivery.run_of_no_end hno] at hrun
  cases hrun

end G7
