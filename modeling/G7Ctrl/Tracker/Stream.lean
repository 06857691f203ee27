import G7Ctrl.Tracker.Package

/-!
# Reading from a tracker (`tracker_clientsrv`)

The thread of a connected tracker waits in `select`, reads what has arrived into one large buffer
and handles what the buffer then holds.  Nothing is carried over from one read to the next: the
buffer is overwritten from its beginning.

The model keeps the buffer with its old contents, because the code ends the data of a read with a
NUL and looks for the end of a line behind it.  **`trackerLoop_eq`** shows that the old contents
never matter: what the thread does is determined by each read alone (`readEvents`).
-/

namespace G7

/-- `BUFFER_50K` -/
def buffer50K : ℕ := 50 * 1024

/-- `KEEP_ALIVE_LEN` -/
def keepAliveLen : ℕ := 8

/-- `TRACKER_SOCKET_TIMEOUT` -/
def trackerSocketTimeout : ℕ := 2

/-- What the thread does with what it has read: it calls `handleCmdReplyPackage` or
`handleLocPackage`, or writes a keep-alive packet back. -/
inductive TrackerEvent
  | handle (pkg : PkgType) (package : CStr)
  | answer (packet : List Byte)
  deriving DecidableEq

/-- `handleKeepAlivePackage`: only a buffer of exactly eight bytes is answered.  (Other lengths
give the return value 1, which the caller does not look at.) -/
def handleKeepAlivePackage (buffer : List Byte) (len : ℕ) : List TrackerEvent :=
  if len = keepAliveLen ∧ byteAt buffer 0 = 0xD0 ∧ byteAt buffer 1 = 0xD7 then
    [.answer (buffer.take keepAliveLen)]
  else []

/-- One round of the loop over a buffer with lines: a line of unknown type is only logged. -/
def handlePackage (package : CStr) : Option TrackerEvent :=
  (arrivingPackageType package).map (TrackerEvent.handle · package)

/-- The lines of a buffer.  `line` is what has been passed of the current one; with `atCr` its last
character is a `'\r'`, and only a `'\n'` may follow.  The loop ends at a NUL, also at one right
behind a line. -/
def packagesLoop : Bool → CStr → List Byte → List CStr
  | _, _, [] => []
  | false, line, c :: cs =>
      if c = 0 then []
      else packagesLoop (c = cr) (line ++ [c]) cs
  | true, line, c :: cs =>
      if c = lf then
        (line ++ [c]) :: if byteAt cs 0 = 0 then [] else packagesLoop false [] cs
      else []

/-- The lines of a buffer from a pointer on, `line` having been passed. -/
def packages (line : CStr) (buffer : List Byte) : List CStr := packagesLoop false line buffer

/-- What is done with a buffer into which `numreads` bytes have been read. -/
def handleBuffer (buffer : List Byte) (numreads : ℕ) : List TrackerEvent :=
  if byteAt buffer 0 = 0 then []
  else if byteAt buffer 0 = 0xD0 ∧ byteAt buffer 1 = 0xD7 then
    handleKeepAlivePackage buffer numreads
  else (packages [] buffer).filterMap handlePackage

/-- The buffer after a read and the two stores of a NUL. -/
def readInto (buffer bytes : List Byte) : List Byte :=
  ((bytes ++ buffer.drop bytes.length).set (buffer50K - 1) 0).set bytes.length 0

/-- What the thread wakes up with: the time-out of `select`, or the result of the read after it;
no bytes stand for an error and for the end of the connection. -/
inductive SelectResult
  | timeout
  | ready (bytes : List Byte)
  deriving DecidableEq

/-- The loop of `tracker_clientsrv`, from the given idle time and buffer on. -/
def trackerLoop (maxDeviceIdleTime : ℕ) : ℕ → List Byte → List SelectResult → List TrackerEvent
  | _, _, [] => []
  | idle, buffer, .timeout :: rs =>
      if idle + trackerSocketTimeout ≥ maxDeviceIdleTime then []
      else trackerLoop maxDeviceIdleTime (idle + trackerSocketTimeout) buffer rs
  | _, buffer, .ready bytes :: rs =>
      if bytes = [] then []
      else
        handleBuffer (readInto buffer bytes) bytes.length
          ++ trackerLoop maxDeviceIdleTime 0 (readInto buffer bytes) rs

/-- `tracker_clientsrv`: the loop starts with an empty buffer. -/
def trackerClientsrv (maxDeviceIdleTime : ℕ) (rs : List SelectResult) : List TrackerEvent :=
  trackerLoop maxDeviceIdleTime 0 (List.replicate buffer50K 0) rs

/-! ## What a read leaves in the buffer -/

/-- The successive reads. -/
def reads : List SelectResult → List (List Byte)
  | [] => []
  | .timeout :: rs => reads rs
  | .ready bytes :: rs => bytes :: reads rs

/-- The tracker is never silent for so long that the loop ends. -/
def StaysOnline (maxDeviceIdleTime : ℕ) : ℕ → List SelectResult → Prop
  | _, [] => True
  | idle, .timeout :: rs =>
      idle + trackerSocketTimeout < maxDeviceIdleTime ∧
        StaysOnline maxDeviceIdleTime (idle + trackerSocketTimeout) rs
  | _, .ready _ :: rs => StaysOnline maxDeviceIdleTime 0 rs

/-- What is done with one read, in terms of its bytes only. -/
def readEvents (bytes : List Byte) : List TrackerEvent :=
  if byteAt bytes 0 = 0 then []
  else if byteAt bytes 0 = 0xD0 ∧ byteAt bytes 1 = 0xD7 then
    if bytes.length = keepAliveLen then [.answer bytes] else []
  else (packages [] bytes).filterMap handlePackage

lemma readInto_length (buffer bytes : List Byte) (h : bytes.length ≤ buffer.length) :
    (readInto buffer bytes).length = buffer.length := by
  simp only [readInto, List.length_set, List.length_append, List.length_drop]
  omega

/-- After a read that leaves room for the NUL, the buffer holds the bytes read and a NUL. -/
lemma readInto_eq {buffer bytes : List Byte} (hbuf : buffer.length = buffer50K)
    (hlen : bytes.length < buffer50K) :
    ∃ old, readInto buffer bytes = bytes ++ 0 :: old := by
  have hlt : bytes.length < ((bytes ++ buffer.drop bytes.length).set (buffer50K - 1) 0).length := by
    simp only [List.length_set, List.length_append, List.length_drop]
    omega
  have htake : ((bytes ++ buffer.drop bytes.length).set (buffer50K - 1) 0).take bytes.length
      = bytes := by
    rw [List.take_set_of_le (by omega), List.take_left']
    rfl
  rw [readInto, List.set_eq_take_append_cons_drop, if_pos hlt, htake]
  exact ⟨_, rfl⟩

/-- A byte before the NUL, or the NUL itself. -/
lemma byteAt_append_nul (bytes old : List Byte) {i : ℕ} (hi : i ≤ bytes.length) :
    byteAt (bytes ++ 0 :: old) i = byteAt bytes i := by
  rcases Nat.lt_or_eq_of_le hi with h | rfl
  · simp [byteAt, List.getD_eq_getElem?_getD, List.getElem?_append_left h]
  · simp [byteAt, List.getD_eq_getElem?_getD]

@[simp] lemma packages_nil (line : CStr) : packages line [] = [] := rfl

lemma packages_nul (line : CStr) (rest : List Byte) : packages line (0 :: rest) = [] := by
  rw [packages, packagesLoop, if_pos rfl]

/-- Where the code stops at a NUL behind a line, going on would find nothing. -/
lemma packages_crlf (line : CStr) (rest : List Byte) :
    packages line (cr :: lf :: rest) = (line ++ crlf) :: packages [] rest := by
  have hstop : (if byteAt rest 0 = 0 then [] else packages [] rest) = packages [] rest := by
    split_ifs with h
    · cases rest with
      | nil => rfl
      | cons c rest =>
          rw [byteAt_cons_zero] at h
          rw [h, packages_nul]
    · rfl
  have hline : (line ++ [cr]) ++ [lf] = line ++ crlf := List.append_assoc ..
  rw [← hstop, packages, packagesLoop, if_neg (by decide), ← hline]
  exact if_pos rfl

lemma packages_cr_nil (line : CStr) : packages line [cr] = [] := by
  rw [packages, packagesLoop, if_neg (by decide), packagesLoop]

lemma packages_cr_cons (line : CStr) {d : Byte} (hd : d ≠ lf) (rest : List Byte) :
    packages line (cr :: d :: rest) = [] := by
  rw [packages, packagesLoop, if_neg (by decide)]
  exact if_neg hd

lemma packages_char (line : CStr) {c : Byte} (h0 : c ≠ 0) (hc : c ≠ cr) (rest : List Byte) :
    packages line (c :: rest) = packages (line ++ [c]) rest := by
  rw [packages, packagesLoop, if_neg h0, decide_eq_false hc, packages]

/-- A line without NUL and `'\r'` is found, and what follows it is read on its own. -/
lemma packages_line : ∀ (line text : CStr) (rest : List Byte), (0 : Byte) ∉ text → cr ∉ text →
    packages line (text ++ crlf ++ rest) = (line ++ text ++ crlf) :: packages [] rest
  | line, [], rest, _, _ => by
      rw [List.append_nil]
      exact packages_crlf line rest
  | line, c :: cs, rest, h0, hcr => by
      rw [List.mem_cons, not_or] at h0 hcr
      rw [List.cons_append, List.cons_append,
        packages_char line (fun h => h0.1 h.symm) (fun h => hcr.1 h.symm),
        packages_line (line ++ [c]) cs rest h0.2 hcr.2]
      simp

/-- Without a `'\r'` there is no line. -/
lemma packages_of_notMem : ∀ (line : CStr) {bytes : List Byte}, cr ∉ bytes →
    packages line bytes = []
  | line, [], _ => rfl
  | line, c :: cs, h => by
      rw [List.mem_cons, not_or] at h
      by_cases h0 : c = 0
      · rw [h0, packages_nul]
      · rw [packages_char line h0 (fun hc => h.1 hc.symm), packages_of_notMem _ h.2]

/-- No line reaches beyond the NUL. -/
lemma packages_append_nul : ∀ (line : CStr) (bytes old : List Byte),
    packages line (bytes ++ 0 :: old) = packages line bytes
  | line, [], old => packages_nul line old
  | line, [c], old => by
      by_cases h0 : c = 0
      · rw [h0, List.singleton_append, packages_nul, packages_nul]
      · by_cases hc : c = cr
        · rw [hc, List.singleton_append, packages_cr_cons _ (by decide), packages_cr_nil]
        · rw [List.singleton_append, packages_char _ h0 hc, packages_char _ h0 hc]
          exact packages_append_nul (line ++ [c]) [] old
  | line, c :: d :: rest, old => by
      by_cases h0 : c = 0
      · rw [h0, List.cons_append, packages_nul, packages_nul]
      · by_cases hc : c = cr
        · by_cases hd : d = lf
          · rw [hc, hd, List.cons_append, List.cons_append, packages_crlf, packages_crlf,
              packages_append_nul [] rest old]
          · rw [hc, List.cons_append, List.cons_append, packages_cr_cons _ hd,
              packages_cr_cons _ hd]
        · rw [List.cons_append, packages_char _ h0 hc, packages_char _ h0 hc]
          exact packages_append_nul (line ++ [c]) (d :: rest) old

/-- **The old contents of the buffer do not matter** for what is done with a read. -/
theorem handleBuffer_readInto {buffer bytes : List Byte} (hbuf : buffer.length = buffer50K)
    (hne : bytes ≠ []) (hlen : bytes.length < buffer50K) :
    handleBuffer (readInto buffer bytes) bytes.length = readEvents bytes := by
  obtain ⟨old, hold⟩ := readInto_eq hbuf hlen
  have hpos : 1 ≤ bytes.length := List.length_pos_iff.mpr hne
  have h0 := byteAt_append_nul bytes old (Nat.zero_le _)
  have h1 := byteAt_append_nul bytes old hpos
  rw [hold, handleBuffer, readEvents, handleKeepAlivePackage, h0, h1, packages_append_nul]
  split_ifs with hnul hka hwhole hshort hshort
  · rfl
  · rw [← hwhole.1, List.take_left']
    rfl
  · exact absurd hwhole.1 hshort
  · exact absurd ⟨hshort, hka⟩ hwhole
  · rfl
  · rfl

/-- **The loop handles every read by itself**, as long as the tracker stays connected. -/
theorem trackerLoop_eq {maxDeviceIdleTime : ℕ} :
    ∀ {rs : List SelectResult} {idle : ℕ} {buffer : List Byte}, buffer.length = buffer50K →
      StaysOnline maxDeviceIdleTime idle rs →
      (∀ c ∈ reads rs, c ≠ [] ∧ c.length < buffer50K) →
      trackerLoop maxDeviceIdleTime idle buffer rs = (reads rs).flatMap readEvents
  | [], idle, buffer, _, _, _ => rfl
  | .timeout :: rs, idle, buffer, hbuf, hstay, hreads => by
      simp only [StaysOnline] at hstay
      simp only [trackerLoop, reads]
      rw [if_neg (by omega)]
      exact trackerLoop_eq hbuf hstay.2 hreads
  | .ready bytes :: rs, idle, buffer, hbuf, hstay, hreads => by
      simp only [StaysOnline] at hstay
      simp only [reads, List.mem_cons, forall_eq_or_imp] at hreads
      obtain ⟨⟨hne, hlen⟩, hrest⟩ := hreads
      have hbuf' : (readInto buffer bytes).length = buffer50K := by
        rw [readInto_length _ _ (by omega), hbuf]
      simp only [trackerLoop, if_neg hne, reads, List.flatMap_cons]
      rw [handleBuffer_readInto hbuf hne hlen, trackerLoop_eq hbuf' hstay hrest]

/-- The same for the whole thread. -/
theorem trackerClientsrv_eq {maxDeviceIdleTime : ℕ} {rs : List SelectResult}
    (hstay : StaysOnline maxDeviceIdleTime 0 rs)
    (hreads : ∀ c ∈ reads rs, c ≠ [] ∧ c.length < buffer50K) :
    trackerClientsrv maxDeviceIdleTime rs = (reads rs).flatMap readEvents :=
  trackerLoop_eq List.length_replicate hstay hreads

end G7
