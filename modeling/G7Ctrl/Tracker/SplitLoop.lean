import G7Ctrl.Tracker.Stream
import G7Ctrl.Xstr.Block
import Mathlib.Data.List.Forall2

/-!
# The splitting loop of `tracker_clientsrv`

A buffer may hold several lines.  To hand out one of them as a string, the loop puts a NUL behind
its `"\r\n"`, and after the line was handled it puts back the byte that was there, which also tells
it whether there is more.  Here the loop runs on the buffer itself, with its pointers.

* `splitLoop` — the loop: the calls it makes, and the buffer it leaves.
* **`splitLoop_eq`** — the calls are those for the lines of the buffer (`packages`), and the buffer
  is left as it was.
* **`splitPackages_lines`** — on a buffer of complete lines, one call for each.
-/

namespace G7

/-- A line handed to `arrivingPackageType`, and what the handler for its type was called with. -/
structure PackageCall where
  package : CStr
  event : Option TrackerEvent
  deriving DecidableEq

/-- One round over a line: it is classified and handled. -/
def callPackage (package : CStr) : PackageCall := ⟨package, handlePackage package⟩

/-- `while (*ptr && *ptr != '\r') ptr++` -/
def skipToCr (buffer : List Byte) : ℕ → ℕ → Checked ℕ
  | 0, _ => .timeout
  | fuel + 1, ptr => do
      let c ← load buffer ptr
      if c = 0 ∨ c = cr then return ptr else skipToCr buffer fuel (ptr + 1)

/-- The loop from a pointer on.  A line without its end is logged, with the two bytes where it
should be, and ends the loop. -/
def splitLoop : ℕ → ℕ → List Byte → Checked (List PackageCall × List Byte)
  | 0, _, _ => .timeout
  | fuel + 1, ptrstart, buffer => do
      let ptr ← skipToCr buffer buffer.length ptrstart
      let crlf ← atCrlf buffer ptr
      if crlf then
        let oldchar ← load buffer (ptr + 2)
        let ended ← store buffer (ptr + 2) 0
        let call := callPackage (cstr (ended.drop ptrstart))
        let restored ← store ended (ptr + 2) oldchar
        if oldchar = 0 then return ([call], restored)
        else
          let (calls, left) ← splitLoop fuel (ptr + 2) restored
          return (call :: calls, left)
      else
        let _ ← load buffer ptr
        let _ ← load buffer (ptr + 1)
        return ([], buffer)

/-- The loop over a buffer.  Every round of a loop passes a byte of it. -/
def splitPackages (buffer : List Byte) : Checked (List PackageCall × List Byte) :=
  splitLoop buffer.length 0 buffer

/-! ## One line -/

/-- The scan stops at the first `'\r'` or NUL. -/
lemma skipToCr_eq {line : List Byte} (hline : (0 : Byte) ∉ line ∧ cr ∉ line) {c : Byte}
    (hc : c = 0 ∨ c = cr) (rest : List Byte) :
    ∀ (front : List Byte) (fuel : ℕ), line.length < fuel →
      skipToCr (front ++ (line ++ c :: rest)) fuel front.length
        = .done (front.length + line.length) := by
  induction line with
  | nil =>
      intro front fuel hfuel
      obtain ⟨fuel, rfl⟩ := Nat.exists_eq_succ_of_ne_zero (Nat.ne_of_gt hfuel)
      rw [List.nil_append, skipToCr, load_append_length, Checked.done_bind, if_pos hc]
      rfl
  | cons d ds ih =>
      intro front fuel hfuel
      obtain ⟨fuel, rfl⟩ := Nat.exists_eq_succ_of_ne_zero (Nat.ne_of_gt (Nat.zero_lt_of_lt hfuel))
      simp only [List.mem_cons, not_or] at hline
      have hd : ¬ (d = 0 ∨ d = cr) := not_or.mpr ⟨Ne.symm hline.1.1, Ne.symm hline.2.1⟩
      have hrest := ih ⟨hline.1.2, hline.2.2⟩ (front ++ [d]) fuel (Nat.lt_of_succ_lt_succ hfuel)
      rw [List.append_assoc, List.length_append, List.length_singleton] at hrest
      rw [List.cons_append, skipToCr, load_append_length, Checked.done_bind, if_neg hd]
      refine hrest.trans ?_
      rw [List.length_cons, Nat.add_assoc, Nat.add_comm 1]

/-- What was passed of a line stays with it. -/
lemma packages_text : ∀ (line text : CStr) (rest : List Byte), (0 : Byte) ∉ text → cr ∉ text →
    packages line (text ++ rest) = packages (line ++ text) rest
  | line, [], rest, _, _ => by rw [List.nil_append, List.append_nil]
  | line, c :: cs, rest, h0, hcr => by
      rw [List.mem_cons, not_or] at h0 hcr
      rw [List.cons_append, packages_char line (Ne.symm h0.1) (Ne.symm hcr.1),
        packages_text (line ++ [c]) cs rest h0.2 hcr.2, List.append_assoc, List.singleton_append]

/-! ## All lines -/

/-- A round over a line with its end: it is handed out, and the buffer is as before. -/
lemma splitLoop_line {front line : List Byte} (hline : (0 : Byte) ∉ line ∧ cr ∉ line)
    (oldchar : Byte) (rest : List Byte) (fuel : ℕ) :
    splitLoop (fuel + 1) front.length (front ++ (line ++ cr :: lf :: oldchar :: rest)) =
      if oldchar = 0 then
        .done ([callPackage (line ++ crlf)], front ++ (line ++ cr :: lf :: oldchar :: rest))
      else do
        let (calls, left) ← splitLoop fuel (front ++ (line ++ crlf)).length
          (front ++ (line ++ cr :: lf :: oldchar :: rest))
        return (callPackage (line ++ crlf) :: calls, left) := by
  have hskip := skipToCr_eq hline (Or.inr rfl) (lf :: oldchar :: rest) front
    (front ++ (line ++ cr :: lf :: oldchar :: rest)).length (by simp; omega)
  have hsplit : front ++ (line ++ cr :: lf :: oldchar :: rest)
      = (front ++ line) ++ cr :: lf :: oldchar :: rest := by simp
  have hptr : front ++ (line ++ cr :: lf :: oldchar :: rest)
      = (front ++ (line ++ crlf)) ++ oldchar :: rest := by simp [crlf]
  have hlen : front.length + line.length + 2 = (front ++ (line ++ crlf)).length := by
    simp [crlf, Nat.add_assoc]
  have hcrlf : atCrlf (front ++ (line ++ cr :: lf :: oldchar :: rest)) (front.length + line.length)
      = .done true := by
    rw [hsplit, ← List.length_append, atCrlf_append _ (by simp)]
    rfl
  have hroom : (front ++ (line ++ crlf)).length
      < ((front ++ (line ++ crlf)) ++ oldchar :: rest).length := by
    rw [@List.length_append _ _ (oldchar :: rest), List.length_cons]
    exact Nat.lt_add_of_pos_right (Nat.succ_pos _)
  have hended : ((front ++ (line ++ crlf)) ++ oldchar :: rest).set
      (front ++ (line ++ crlf)).length 0 = front ++ ((line ++ crlf) ++ 0 :: rest) := by simp
  have hnul : (0 : Byte) ∉ line ++ crlf := by
    rw [List.mem_append, not_or]
    exact ⟨hline.1, by decide⟩
  have hpackage : cstr ((front ++ ((line ++ crlf) ++ 0 :: rest)).drop front.length)
      = line ++ crlf := by
    rw [List.drop_left, cstr_append_nul hnul]
  have hrestored : (front ++ ((line ++ crlf) ++ 0 :: rest)).set (front ++ (line ++ crlf)).length
      oldchar = (front ++ (line ++ crlf)) ++ oldchar :: rest := by
    rw [← hended, set_restore]
  rw [splitLoop, hskip, Checked.done_bind, hcrlf, Checked.done_bind, if_pos rfl, hlen, hptr,
    load_append_length, Checked.done_bind, store_eq_done hroom, Checked.done_bind, hended, hpackage,
    store_eq_done (by rw [← hended, List.length_set]; exact hroom), Checked.done_bind, hrestored]
  rfl

/-- A round over a line without its end: the loop is over. -/
lemma splitLoop_broken {front line : List Byte} (hline : (0 : Byte) ∉ line ∧ cr ∉ line) {c d : Byte}
    (hc : c = 0 ∨ c = cr) (hend : ¬ (c = cr ∧ d = lf)) (rest : List Byte) (fuel : ℕ) :
    splitLoop (fuel + 1) front.length (front ++ (line ++ c :: d :: rest))
      = .done ([], front ++ (line ++ c :: d :: rest)) := by
  have hskip := skipToCr_eq hline hc (d :: rest) front
    (front ++ (line ++ c :: d :: rest)).length (by simp; omega)
  have hsplit : front ++ (line ++ c :: d :: rest) = (front ++ line) ++ c :: d :: rest := by simp
  have hcrlf : atCrlf (front ++ (line ++ c :: d :: rest)) (front.length + line.length)
      = .done false := by
    rw [hsplit, ← List.length_append, atCrlf_append _ (by simp)]
    exact congrArg _ (decide_eq_false hend)
  have hload : load (front ++ (line ++ c :: d :: rest)) (front.length + line.length) = .done c := by
    rw [hsplit, ← List.length_append, load_append_length]
  have hnext : load (front ++ (line ++ c :: d :: rest)) (front.length + line.length + 1)
      = .done d := by
    rw [hsplit, ← List.length_append, load_append_add _ (by simp)]
    rfl
  rw [splitLoop, hskip, Checked.done_bind, hcrlf, Checked.done_bind, if_neg Bool.false_ne_true,
    hload, Checked.done_bind, hnext]
  rfl

/-- **The loop makes the calls for the lines of the buffer and leaves the buffer as it was.** -/
theorem splitLoop_eq {bytes : List Byte} (hnul : (0 : Byte) ∉ bytes) {old : List Byte}
    (hold : old ≠ []) (front : List Byte) {fuel : ℕ} (hfuel : bytes.length < fuel) :
    splitLoop fuel front.length (front ++ (bytes ++ 0 :: old)) =
      .done ((packages [] bytes).map callPackage, front ++ (bytes ++ 0 :: old)) := by
  induction fuel generalizing bytes front with
  | zero => exact absurd hfuel (Nat.not_lt_zero _)
  | succ fuel ih =>
      by_cases hcr : cr ∈ bytes
      · obtain ⟨line, rest, hbytes, hline⟩ := List.eq_append_cons_of_mem hcr
        subst hbytes
        simp only [List.mem_append, List.mem_cons, not_or] at hnul
        obtain ⟨hnul, -, hrest⟩ := hnul
        rw [packages_text [] line _ hnul hline, List.nil_append, List.append_assoc,
          List.cons_append]
        match rest with
        | [] =>
            rw [packages_cr_nil, List.nil_append]
            exact splitLoop_broken ⟨hnul, hline⟩ (Or.inr rfl) (by decide) old fuel
        | d :: ds =>
            rw [List.mem_cons, not_or] at hrest
            by_cases hlf : d = lf
            · subst hlf
              rw [packages_crlf, List.map_cons]
              match ds with
              | [] => exact (splitLoop_line ⟨hnul, hline⟩ 0 old fuel).trans (if_pos rfl)
              | e :: es =>
                  have hih := ih hrest.2 (front ++ (line ++ crlf)) (by
                    simp only [List.length_append, List.length_cons] at hfuel ⊢
                    omega)
                  have hbuffer : front ++ (line ++ cr :: lf :: e :: (es ++ 0 :: old))
                      = (front ++ (line ++ crlf)) ++ (e :: es ++ 0 :: old) := by simp [crlf]
                  have he : e ≠ 0 := fun h0 => hrest.2 (h0 ▸ List.mem_cons_self)
                  refine (splitLoop_line ⟨hnul, hline⟩ e (es ++ 0 :: old) fuel).trans ?_
                  rw [if_neg he, hbuffer, hih, Checked.done_bind, ← hbuffer]
                  rfl
            · rw [packages_cr_cons line hlf]
              exact splitLoop_broken ⟨hnul, hline⟩ (Or.inr rfl) (fun h => hlf h.2) _ fuel
      · obtain ⟨d, ds, rfl⟩ := List.exists_cons_of_ne_nil hold
        rw [packages_of_notMem [] hcr]
        exact splitLoop_broken ⟨hnul, hcr⟩ (Or.inl rfl) (fun h => absurd h.1 (by decide)) ds fuel

/-! ## Complete lines -/

/-- Complete lines, one after the other. -/
def lines (records : List CStr) : List Byte := records.flatMap (· ++ crlf)

lemma length_le_lines (records : List CStr) : records.length ≤ (lines records).length := by
  induction records with
  | nil => exact Nat.zero_le _
  | cons r records ih =>
      have hcrlf : crlf.length = 2 := rfl
      rw [lines, List.flatMap_cons, List.length_append, List.length_append, ← lines,
        List.length_cons]
      omega

/-- The loop over complete lines, to the NUL behind them. -/
lemma splitLoop_lines {records : List CStr} (hne : records ≠ [])
    (h : ∀ r ∈ records, (0 : Byte) ∉ r ∧ cr ∉ r) (old front : List Byte) {fuel : ℕ}
    (hfuel : records.length ≤ fuel) :
    splitLoop fuel front.length (front ++ (lines records ++ 0 :: old)) =
      .done (records.map fun r => callPackage (r ++ crlf), front ++ (lines records ++ 0 :: old)) := by
  induction records generalizing front fuel with
  | nil => exact absurd rfl hne
  | cons r records ih =>
      obtain ⟨fuel, rfl⟩ := Nat.exists_eq_succ_of_ne_zero
        (Nat.ne_of_gt (Nat.lt_of_lt_of_le (Nat.succ_pos _) hfuel))
      have hr := h r List.mem_cons_self
      have hsplit : lines (r :: records) ++ 0 :: old
          = r ++ cr :: lf :: (lines records ++ 0 :: old) := by
        simp [lines, crlf]
      rw [hsplit]
      cases records with
      | nil => exact (splitLoop_line hr 0 old fuel).trans (if_pos rfl)
      | cons r' records =>
          obtain ⟨c, rest, hc, hrest⟩ : ∃ c rest, c ≠ 0 ∧
              lines (r' :: records) ++ 0 :: old = c :: rest := by
            have hr' := (h r' (List.mem_cons_of_mem _ List.mem_cons_self)).1
            cases r' with
            | nil => exact ⟨cr, _, by decide, rfl⟩
            | cons d ds => exact ⟨d, _, fun h0 => hr' (h0 ▸ List.mem_cons_self), rfl⟩
          have hih := ih (List.cons_ne_nil _ _) (fun q hq => h q (List.mem_cons_of_mem _ hq))
            (front ++ (r ++ crlf)) (Nat.le_of_succ_le_succ hfuel)
          have hbuffer : (front ++ (r ++ crlf)) ++ c :: rest
              = front ++ (r ++ cr :: lf :: c :: rest) := by
            simp [crlf]
          rw [hrest, hbuffer] at hih
          rw [hrest]
          refine (splitLoop_line hr c rest fuel).trans ?_
          rw [if_neg hc, hih]
          rfl

/-- A call hands out exactly this line, and the handler for its type gets it; a line without a type
goes to no handler. -/
structure PackageCall.Handles (call : PackageCall) (line : CStr) : Prop where
  package : call.package = line
  handler : ∀ e, call.event = some e ↔ ∃ t, LineType line t ∧ e = .handle t line

lemma callPackage_handles (text : CStr) : (callPackage (text ++ crlf)).Handles (text ++ crlf) where
  package := rfl
  handler e := by
    rw [callPackage, handlePackage, Option.map_eq_some_iff]
    simp only [arrivingPackageType_iff, eq_comm]

/-- The call for a line of a type. -/
lemma PackageCall.Handles.eq {call : PackageCall} {line : CStr} {t : PkgType}
    (h : call.Handles line) (ht : LineType line t) : call = ⟨line, some (.handle t line)⟩ := by
  have hevent := (h.handler _).mpr ⟨t, ht, rfl⟩
  obtain ⟨package, event⟩ := call
  obtain rfl := h.package
  exact congrArg _ hevent

/-- **On a read of complete lines** the loop calls the classification and the handler for its type
once for each line, in order and with exactly this line, ends behind the last one, and leaves the
buffer as it was. -/
theorem splitPackages_lines {records : List CStr} (hne : records ≠ [])
    (h : ∀ r ∈ records, (0 : Byte) ∉ r ∧ cr ∉ r) {buffer : List Byte}
    (hbuf : buffer.length = buffer50K) (hlen : (lines records).length < buffer50K) :
    ∃ calls, splitPackages (readInto buffer (lines records)) =
        .done (calls, readInto buffer (lines records)) ∧
      List.Forall₂ PackageCall.Handles calls (records.map (· ++ crlf)) := by
  obtain ⟨old, hread⟩ := readInto_eq hbuf hlen
  have hcount := length_le_lines records
  have hcount' : records.length ≤ (lines records ++ 0 :: old).length := by
    rw [List.length_append]
    omega
  have hloop := splitLoop_lines hne h old [] hcount'
  refine ⟨records.map fun r => callPackage (r ++ crlf), ?_, ?_⟩
  · rw [splitPackages, hread]
    exact hloop
  · rw [List.forall₂_map_left_iff, List.forall₂_map_right_iff]
    exact List.forall₂_same.mpr fun r _ => callPackage_handles r

/-- A location event that is no reply. -/
def startEvent : LocationEvent where
  text := str "3000000001,20140107232526,17.961028,59.366470,0,0,0,0,1,4.20V,0"
  fields := by decide
  lead := .inl rfl

/-- A reply and an event in one read. -/
theorem splitPackages_two :
    let reply := str "$OK:LED=1" ++ crlf
    let event := startEvent.text ++ crlf
    splitPackages (readInto (List.replicate buffer50K 0) (reply ++ event)) =
      .done ([⟨reply, some (.handle .cmdReply reply)⟩, ⟨event, some (.handle .loc event)⟩],
        readInto (List.replicate buffer50K 0) (reply ++ event)) := by
  have hlines : lines [str "$OK:LED=1", startEvent.text] =
      str "$OK:LED=1" ++ crlf ++ (startEvent.text ++ crlf) := by
    simp [lines]
  obtain ⟨calls, hrun, hcalls⟩ := @splitPackages_lines [str "$OK:LED=1", startEvent.text]
    (by decide) (by decide) (List.replicate buffer50K 0) List.length_replicate (by decide)
  rw [hlines] at hrun
  obtain ⟨call, calls, hreply, hrest, rfl⟩ := List.forall₂_cons_right_iff.mp hcalls
  obtain ⟨call', calls', hevent, hnil, rfl⟩ := List.forall₂_cons_right_iff.mp hrest
  obtain rfl := List.forall₂_nil_right_iff.mp hnil
  have htype : LineType (startEvent.text ++ crlf) .loc :=
    .location startEvent rfl (by decide)
  rw [hreply.eq (.reply rfl), hevent.eq htype] at hrun
  exact hrun

end G7
