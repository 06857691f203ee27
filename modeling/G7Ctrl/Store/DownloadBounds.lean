import G7Ctrl.Store.Download

/-!
# The buffer of a download

The buffer of `get_dlrec_to_db` has `1024 + num_loc * 70` bytes.  Each read may fill what is left of
it, and the NUL behind the bytes read then lies behind the buffer.  The scan that skips the header
line looks for a `'\r'` without looking for the end of the text.

* `dlrecDownload` — the download into a buffer of any size.
* **`readLoop_isDone_iff`** — when all the reads of a run are stored inside the buffer.
* `StaysInside` — all accesses are inside the buffer, and the scan inside the received text.
* **`staysInside_iff`** — this holds exactly for the reads that leave room for a NUL each time and
  whose header line, if they have one, ends inside the text (`ReadsFit`).
-/

namespace G7

/-- `size_t max_read = 1024 + num_loc * 70`, where the sum is an `int`. -/
def dlrecMaxRead (numLoc : ℤ) : ℕ := (toInt32 (1024 + numLoc * 70) % 2 ^ 64).toNat

/-- `get_dlrec_to_db` from the reading on, with a buffer of `maxRead` bytes. -/
def dlrecDownload (maxRead : ℕ) (reads : List (List Byte)) :
    Checked (Option (CStr × List (List Byte))) := do
  let r ← readLoop reads (.after [] maxRead)
  match r with
  | none => return none
  | some (d, unread) =>
      let text ← storeDownload d
      return text.map (·, unread)

/-- What was received, without the closing text. -/
def receivedText (bytes : List Byte) : List Byte := bytes.take (bytes.length - endStr.length)

/-- **The download stays inside its memory.**  Every access is one to the buffer, and the scan of
the header line ends with a `"\r"` and one more byte of what was received before `bptr`. -/
structure StaysInside (maxRead : ℕ) (reads : List (List Byte)) : Prop where
  done : (dlrecDownload maxRead reads).IsDone
  header : ∀ d unread rbuff, readLoop reads (.after [] maxRead) = .done (some (d, unread)) →
    d.maxRead ≠ 0 → store d.rbuff d.bptr 0 = .done rbuff →
    matchLit (str "$OK") rbuff = .done true → ∃ n, findCr rbuff = .done n ∧ n + 2 ≤ d.bptr

/-- **The reads fit.**  Up to the first read that ends with the closing text there is room for a
NUL behind each, and a text that begins with `"$OK"` has a `'\r'` that is not its last byte. -/
structure ReadsFit (maxRead : ℕ) (reads : List (List Byte)) : Prop where
  room : ∀ front last back, reads = front ++ last :: back →
    (∀ c ∈ front, atDownloadEnd (cstr c) = false) → (front.flatten ++ last).length < maxRead
  header : ∀ front last back, reads = front ++ last :: back →
    (∀ c ∈ front, atDownloadEnd (cstr c) = false) → atDownloadEnd (cstr last) = true →
    str "$OK" <+: receivedText (front.flatten ++ last) →
    cr ∈ (receivedText (front.flatten ++ last)).dropLast

/-! ## The reads -/

/-- **When all the reads are stored inside the buffer.** -/
theorem readLoop_isDone_iff {reads : List (List Byte)} {text : List Byte} {k : ℕ} :
    (readLoop reads (.after text k)).IsDone ↔
      ∀ front last back, reads = front ++ last :: back →
        (∀ c ∈ front, atDownloadEnd (cstr c) = false) → (front.flatten ++ last).length < k := by
  induction reads generalizing text k with
  | nil => simp [readLoop]
  | cons bytes reads ih =>
      rcases Nat.lt_or_ge bytes.length k with hlt | hge
      · rw [readLoop_cons hlt]
        cases hend : atDownloadEnd (cstr bytes) with
        | true =>
            refine iff_of_true (Checked.isDone_done _) fun front last back hreads hfront => ?_
            cases front with
            | nil =>
                obtain ⟨rfl, rfl⟩ := List.cons.inj hreads
                simpa using hlt
            | cons c front =>
                obtain ⟨rfl, -⟩ := List.cons.inj hreads
                rw [hfront _ List.mem_cons_self] at hend
                cases hend
        | false =>
            rw [if_neg Bool.false_ne_true, ih]
            constructor
            · intro h front last back hreads hfront
              cases front with
              | nil =>
                  obtain ⟨rfl, rfl⟩ := List.cons.inj hreads
                  simpa using hlt
              | cons c front =>
                  obtain ⟨rfl, hrest⟩ := List.cons.inj hreads
                  have hlen := h front last back hrest
                    fun d hd => hfront d (List.mem_cons_of_mem _ hd)
                  rw [List.flatten_cons, List.append_assoc, List.length_append]
                  omega
            · intro h front last back hreads hfront
              have hlen := h (bytes :: front) last back (by rw [hreads]; rfl)
                (List.forall_mem_cons.mpr ⟨hend, hfront⟩)
              rw [List.flatten_cons, List.append_assoc, List.length_append] at hlen
              omega
      · rw [readLoop_cons_of_ge hge]
        refine iff_of_false Checked.not_isDone_fault fun h => ?_
        have hlen := h [] bytes reads rfl (by simp)
        rw [List.flatten_nil, List.nil_append] at hlen
        omega

/-! ## The text behind the loop -/

section Received

variable {bytes : List Byte}

/-- The buffer behind the loop is the received text and a NUL. -/
lemma exists_store_ended (hle : endStr.length ≤ bytes.length) (k : ℕ) :
    ∃ rest, store (Download.ended bytes k).rbuff (Download.ended bytes k).bptr 0 =
      .done (receivedText bytes ++ 0 :: rest) := by
  have hpos : 0 < endStr.length := by decide
  have hroom : bytes.length - endStr.length
      < (bytes ++ List.replicate (k - bytes.length) (0 : Byte)).length := by
    rw [List.length_append]
    omega
  have hset := store_eq_done (a := (0 : Byte)) hroom
  rw [List.set_eq_take_append_cons_drop, if_pos hroom, List.take_append_of_le_length (by omega)]
    at hset
  exact ⟨_, hset⟩

/-- **Where the scan ends inside the text.** -/
lemma exists_findCr_iff {text rest : List Byte} :
    (∃ n, findCr (text ++ rest) = .done n ∧ n + 2 ≤ text.length) ↔ cr ∈ text.dropLast := by
  constructor
  · rintro ⟨n, hn, hle⟩
    have hcr := getElem?_of_findCr hn
    rw [List.getElem?_append_left (by omega)] at hcr
    refine List.mem_of_getElem? (i := n) ?_
    rw [List.getElem?_dropLast, if_pos (by omega), hcr]
  · intro hcr
    obtain ⟨a, b, hdrop, ha⟩ := List.eq_append_cons_of_mem hcr
    have hne : text ≠ [] := by
      rintro rfl
      cases hcr
    have htext : text = a ++ cr :: (b ++ [text.getLast hne]) := by
      rw [← List.cons_append, ← List.append_assoc, ← hdrop, List.dropLast_concat_getLast]
    refine ⟨a.length, ?_, ?_⟩
    · rw [htext, List.append_assoc]
      exact findCr_append ha _
    · rw [htext, List.length_append, List.length_cons, List.length_append, List.length_singleton]
      omega

/-- What is behind the header line can be read. -/
lemma storeText_isDone {text : List Byte} (rest : List Byte)
    (hheader : str "$OK" <+: text → cr ∈ text.dropLast) :
    (storeText (text ++ 0 :: rest)).IsDone := by
  rw [storeText, matchLit_append_nul (by decide), Checked.done_bind]
  by_cases hok : str "$OK" <+: text
  · obtain ⟨n, hn, hle⟩ := exists_findCr_iff.mpr (hheader hok)
    have hroom : n + 2 < (text ++ 0 :: rest).length := by
      rw [List.length_append, List.length_cons]
      omega
    rw [if_pos (List.isPrefixOf_iff_prefix.mpr hok), hn, Checked.done_bind, load_eq_byteAt hroom,
      Checked.done_bind]
    split_ifs
    · exact Checked.isDone_done _
    · rw [List.drop_append_of_le_length hle, readStr_append_zero]
      exact Checked.isDone_done _
  · rw [if_neg (fun h => hok (List.isPrefixOf_iff_prefix.mp h))]
    exact Checked.isDone_done _

end Received

/-! ## The download -/

/-- The reads up to the first one with the closing text, or all of them without. -/
lemma reads_cases (reads : List (List Byte)) :
    (∀ c ∈ reads, atDownloadEnd (cstr c) = false) ∨
      ∃ front last back, reads = front ++ last :: back ∧
        (∀ c ∈ front, atDownloadEnd (cstr c) = false) ∧ atDownloadEnd (cstr last) = true := by
  cases hfind : reads.find? (atDownloadEnd ∘ cstr) with
  | none => exact Or.inl fun c hc => Bool.eq_false_iff.mpr (List.find?_eq_none.mp hfind c hc)
  | some last =>
      obtain ⟨hlast, front, back, hreads, hno⟩ := List.find?_eq_some_iff_append.mp hfind
      exact Or.inr ⟨front, last, back, hreads, fun c hc => by simpa using hno c hc, hlast⟩

/-- The loop up to the closing text, and the text it leaves. -/
lemma exists_run_of_end {front : List (List Byte)} {last : List Byte} {maxRead : ℕ}
    (back : List (List Byte))
    (hfront : ∀ c ∈ front, atDownloadEnd (cstr c) = false)
    (hlast : atDownloadEnd (cstr last) = true)
    (hlen : (front.flatten ++ last).length < maxRead) :
    ∃ d rest, readLoop (front ++ last :: back) (.after [] maxRead) = .done (some (d, back)) ∧
      d.maxRead ≠ 0 ∧ d.bptr = (receivedText (front.flatten ++ last)).length ∧
      store d.rbuff d.bptr 0 = .done (receivedText (front.flatten ++ last) ++ 0 :: rest) := by
  have hle : endStr.length ≤ (front.flatten ++ last).length := by
    rw [List.length_append]
    exact (length_le_of_atDownloadEnd_cstr hlast).trans (Nat.le_add_left _ _)
  obtain ⟨rest, hstore⟩ := exists_store_ended hle maxRead
  refine ⟨_, rest, readLoop_of_end hfront hlast hlen, ?_, ?_, hstore⟩
  · rw [Download.ended]
    dsimp only
    omega
  · rw [Download.ended, receivedText, List.length_take]
    dsimp only
    omega

/-- **When the download stays inside its memory.** -/
theorem staysInside_iff (maxRead : ℕ) (reads : List (List Byte)) :
    StaysInside maxRead reads ↔ ReadsFit maxRead reads := by
  have hnul : (0 : Byte) ∉ str "$OK" := by decide
  constructor
  · rintro ⟨⟨res, hres⟩, hheader⟩
    obtain ⟨r, hloop, -⟩ := Checked.bind_eq_done.mp hres
    have hroom := readLoop_isDone_iff.mp ⟨r, hloop⟩
    refine ⟨hroom, fun front last back hreads hfront hlast hok => ?_⟩
    obtain ⟨d, rest, hrun, hmax, hbptr, hstore⟩ :=
      exists_run_of_end back hfront hlast (hroom front last back hreads hfront)
    have hmatch := matchLit_append_nul hnul (receivedText (front.flatten ++ last)) rest
    rw [List.isPrefixOf_iff_prefix.mpr hok] at hmatch
    obtain ⟨n, hn, hle⟩ := hheader d back _ (by rw [hreads, hrun]) hmax hstore hmatch
    exact exists_findCr_iff.mp ⟨n, hn, hbptr ▸ hle⟩
  · rintro ⟨hroom, hheader⟩
    rcases reads_cases reads with hend | ⟨front, last, back, rfl, hfront, hlast⟩
    · have hloop : readLoop reads (.after [] maxRead) = .done none := by
        rcases List.eq_nil_or_concat reads with rfl | ⟨front, last, rfl⟩
        · rfl
        · refine readLoop_of_no_end hend ?_
          rw [List.concat_eq_append] at hend ⊢
          have hlen := hroom front last [] (by simp) fun c hc => hend c (by simp [hc])
          simpa using hlen
      refine ⟨⟨none, by rw [dlrecDownload, hloop]; rfl⟩, fun d unread rbuff hloop' => ?_⟩
      rw [hloop] at hloop'
      cases hloop'
    · obtain ⟨d, rest, hrun, hmax, hbptr, hstore⟩ :=
        exists_run_of_end back hfront hlast (hroom front last back rfl hfront)
      have hcr := hheader front last back rfl hfront hlast
      obtain ⟨text, htext⟩ := storeText_isDone rest hcr
      refine ⟨⟨text.map (·, back), ?_⟩, ?_⟩
      · rw [dlrecDownload, hrun, Checked.done_bind]
        dsimp only
        rw [storeDownload, if_neg hmax, hstore, Checked.done_bind, htext, Checked.done_bind]
        rfl
      · intro d' unread rbuff hloop _ hstore' hmatch
        rw [hrun, Checked.done.injEq, Option.some.injEq, Prod.mk.injEq] at hloop
        obtain ⟨rfl, rfl⟩ := hloop
        rw [hstore, Checked.done.injEq] at hstore'
        subst hstore'
        rw [matchLit_append_nul hnul, Checked.done.injEq, List.isPrefixOf_iff_prefix] at hmatch
        rw [hbptr]
        exact exists_findCr_iff.mpr (hcr hmatch)

/-- **When a download with this number of locations does.** -/
theorem getDlrecToDb_staysInside_iff (numLoc : ℤ) (reads : List (List Byte)) :
    StaysInside (dlrecMaxRead numLoc) reads ↔ ReadsFit (dlrecMaxRead numLoc) reads :=
  staysInside_iff _ _

/-- With no location the buffer has 1024 bytes, and a read may bring as many. -/
theorem fullRead_leaves : ¬ StaysInside (dlrecMaxRead 0) [List.replicate 1024 (ch '3')] := by
  have hsize : dlrecMaxRead 0 = 1024 := by decide +kernel
  rintro ⟨⟨res, hres⟩, -⟩
  rw [hsize, dlrecDownload, readLoop_cons_of_ge (by rw [List.length_replicate]),
    Checked.fault_bind] at hres
  cases hres

end G7
