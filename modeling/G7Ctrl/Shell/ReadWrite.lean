import G7Ctrl.Core.Dialogue
import G7Ctrl.Xstr.Append
import G7Ctrl.Xstr.Block

/-!
# The reply of the daemon in the shell (`readwrite`)

The shell reads the reply to a command from its socket, in as many pieces as it comes, and writes
every piece on.  The end of the reply is seen by the last two bytes of a piece.

* `readwrite` — the function, as a dialogue over what can be read.
* `WholeSplit` — the last piece of a reply is the only one that ends in `"\r\n"`, and no piece is
  longer than what can be written at once.
* **`readwrite_whole_iff`** — exactly then the reply is read and written whole.
* `innerCrlf_stops` — a reply of two lines of which the second one is left in the socket.
-/

namespace G7

/-- `LEN_10M` -/
def len10m : ℕ := 1000 * 1024 * 10

/-- `LEN_100K` -/
def len100k : ℕ := 100 * 1024

/-- `NUM_RETRIES` -/
def numRetries : ℕ := 3

/-- What `select` and the read of the socket come to. -/
inductive SocketRead where
  | timeout
  | selectFailed
  | readFailed
  | bytes (s : List Byte)
  deriving DecidableEq

/-- `waitread`: the bytes in `buffer`, or what is returned instead of 0. -/
def waitread (maxbufflen : ℕ) : SocketRead → Except ℤ (List Byte)
  | .timeout => .error (-3)
  | .selectFailed => .error (-1)
  | .readFailed => .error (-99)
  | .bytes s =>
      if maxbufflen - 1 ≤ s.length then .error (-2)
      else if 0 < s.length then .ok s
      else .error (-99)

/-- `_writef` with the text its format makes. -/
def shellWritef (fd : ℤ) (text : CStr) : List CStr :=
  if 0 ≤ fd then [snprintf len100k text] else []

/-- The variables of the loop. -/
structure ReplyState where
  buffer : CStr
  totlen : ℕ
  retries : ℕ

/-- The body of the `while` loop. -/
def answerRead (writesock : ℤ) (maxbufflen : ℕ) (st : ReplyState) (r : SocketRead) :
    Answer ReplyState CStr ℤ CStr :=
  match waitread len10m r with
  | .ok pbuff =>
      if st.totlen + pbuff.length < maxbufflen then
        let buffer := xstrlcat st.buffer (cstr pbuff) maxbufflen
        if EndsCrlf pbuff then
          .accept (shellWritef writesock (cstr (pbuff.take (pbuff.length - 2)) ++ str "\n")) buffer
        else
          .again (if 0 < writesock then shellWritef writesock (cstr pbuff) else [])
            ⟨buffer, st.totlen + pbuff.length, numRetries⟩
      else .stop [] (-2)
  | .error rc =>
      if rc = -3 then
        if st.retries - 1 = 0 then .stop [] (-1)
        else .again [] ⟨st.buffer, st.totlen, st.retries - 1⟩
      else if rc = -99 then .stop [] (-3)
      else .stop [] (-1)

/-- `readwrite`: the events are what is written, and the value is `buffer` when 0 is returned.  The
condition of the loop holds each time, as a reply that is too long ends it. -/
def readwrite (writesock : ℤ) (maxbufflen : ℕ) : Dialogue SocketRead CStr ℤ CStr :=
  Dialogue.retry [] (answerRead writesock maxbufflen) ⟨[], 0, numRetries⟩

/-! ## How a reply comes in -/

/-- A piece of a reply, and the timeouts before it. -/
structure Arrival where
  timeouts : ℕ
  piece : List Byte

/-- What is read for a piece. -/
def Arrival.reads (a : Arrival) : List SocketRead :=
  List.replicate a.timeouts .timeout ++ [.bytes a.piece]

/-- The reply in its pieces, with up to two timeouts between them. -/
structure ArrivesAs (reply : CStr) (arrivals : List Arrival) : Prop where
  pieces : (arrivals.map Arrival.piece).flatten = reply
  nonempty : ∀ a ∈ arrivals, a.piece ≠ []
  timeouts : ∀ a ∈ arrivals, a.timeouts ≤ 2

/-- The last piece is the only one that ends in `"\r\n"`, and each can be written at once. -/
def WholeSplit : List (List Byte) → Prop
  | [] => False
  | [c] => EndsCrlf c ∧ c.length ≤ len100k
  | c :: d :: cs => (¬ EndsCrlf c ∧ c.length < len100k) ∧ WholeSplit (d :: cs)

/-- **The reply is read and written whole**: all its reads are taken and no more, the buffer has it,
and what is written are its bytes up to the end of the line, and a line feed. -/
def RelaysWhole (writesock : ℤ) (maxbufflen : ℕ) (body : CStr) (arrivals : List Arrival) : Prop :=
  ∀ more, ∃ written,
    readwrite writesock maxbufflen (arrivals.flatMap Arrival.reads ++ more)
      = ⟨written, .value (body ++ crlf) more⟩ ∧
    written.flatten = body ++ [lf]

/-! ## One piece -/

section

variable {writesock : ℤ} {maxbufflen t : ℕ} {got c text : CStr} {st : ReplyState}
  {inputs more : List SocketRead} {written : List CStr} {out : CStr}

/-- Timeouts use up the retries. -/
lemma retry_timeouts (ht : t < st.retries) (inputs : List SocketRead) :
    Dialogue.retry [] (answerRead writesock maxbufflen) st (List.replicate t .timeout ++ inputs) =
      Dialogue.retry [] (answerRead writesock maxbufflen)
        ⟨st.buffer, st.totlen, st.retries - t⟩ inputs := by
  induction t generalizing st with
  | zero => rfl
  | succ t ih =>
      have hround : answerRead writesock maxbufflen st .timeout =
          .again [] ⟨st.buffer, st.totlen, st.retries - 1⟩ := by
        have hleft : ¬ st.retries - 1 = 0 := by omega
        rw [answerRead, waitread]
        dsimp only
        rw [if_pos rfl, if_neg hleft]
      have hleft : t < st.retries - 1 := by omega
      have hrest : Dialogue.retry [] (answerRead writesock maxbufflen)
          ⟨st.buffer, st.totlen, st.retries - 1⟩ (List.replicate t .timeout ++ inputs) = _ :=
        ih hleft
      rw [Nat.sub_sub, Nat.add_comm 1 t] at hrest
      exact (Dialogue.retry_again hround).trans ((Turns.after_nil _).trans hrest)

lemma waitread_bytes (hc : c ≠ []) (hlen : c.length + 1 < len10m) :
    waitread len10m (.bytes c) = .ok c := by
  have hpos := List.length_pos_iff.mpr hc
  rw [waitread, if_neg (by omega), if_pos hpos]

/-- A piece that ends in `"\r\n"` ends the reply. -/
lemma answerRead_accept (hc : c ≠ []) (hlen : c.length + 1 < len10m)
    (hfits : st.totlen + c.length < maxbufflen) (hcrlf : EndsCrlf c) :
    answerRead writesock maxbufflen st (.bytes c) =
      .accept (shellWritef writesock (cstr (c.take (c.length - 2)) ++ str "\n"))
        (xstrlcat st.buffer (cstr c) maxbufflen) := by
  rw [answerRead, waitread_bytes hc hlen]
  dsimp only
  rw [if_pos hfits, if_pos hcrlf]

/-- Any other piece is written, and the reply goes on. -/
lemma answerRead_again (hw : 0 < writesock) (hc : c ≠ []) (hlen : c.length + 1 < len10m)
    (hfits : st.totlen + c.length < maxbufflen) (hcrlf : ¬ EndsCrlf c) :
    answerRead writesock maxbufflen st (.bytes c) =
      .again [snprintf len100k (cstr c)]
        ⟨xstrlcat st.buffer (cstr c) maxbufflen, st.totlen + c.length, numRetries⟩ := by
  rw [answerRead, waitread_bytes hc hlen]
  dsimp only
  rw [if_pos hfits, if_neg hcrlf, if_pos hw, shellWritef, if_pos (Int.le_of_lt hw)]

/-- A piece that is too long for the reads ends the loop. -/
lemma answerRead_tooLong (st : ReplyState) (hlen : len10m ≤ c.length + 1) :
    ∃ rc, answerRead writesock maxbufflen st (.bytes c) = .stop [] rc := by
  refine ⟨-1, ?_⟩
  rw [answerRead, waitread, if_pos (by omega)]
  rfl

/-- The reads of a piece, up to the piece itself. -/
lemma retry_arrival {a : Arrival} (ha : a.timeouts ≤ 2) (buffer : CStr) (totlen : ℕ)
    (more : List SocketRead) :
    Dialogue.retry [] (answerRead writesock maxbufflen) ⟨buffer, totlen, numRetries⟩
        (a.reads ++ more) =
      Dialogue.retry [] (answerRead writesock maxbufflen)
        ⟨buffer, totlen, numRetries - a.timeouts⟩ (.bytes a.piece :: more) := by
  rw [Arrival.reads, List.append_assoc]
  exact retry_timeouts (Nat.lt_succ_of_le ha) _

/-! ## All pieces -/

lemma length_cstr_le (s : List Byte) : (cstr s).length ≤ s.length :=
  (List.takeWhile_prefix _).length_le

lemma length_snprintf (size : ℕ) (text : CStr) :
    (snprintf size text).length = min (size - 1) text.length :=
  List.length_take

/-- The reply as it comes in, in pieces that are not empty and have no NUL. -/
structure PiecesOk (arrivals : List Arrival) : Prop where
  nonempty : ∀ a ∈ arrivals, a.piece ≠ []
  timeouts : ∀ a ∈ arrivals, a.timeouts ≤ 2
  nul : ∀ a ∈ arrivals, (0 : Byte) ∉ a.piece

lemma piecesOk_cons {a : Arrival} {arrivals : List Arrival} : PiecesOk (a :: arrivals) ↔
    (a.piece ≠ [] ∧ a.timeouts ≤ 2 ∧ (0 : Byte) ∉ a.piece) ∧ PiecesOk arrivals := by
  constructor
  · rintro ⟨hne, ht, hnul⟩
    rw [List.forall_mem_cons] at hne ht hnul
    exact ⟨⟨hne.1, ht.1, hnul.1⟩, hne.2, ht.2, hnul.2⟩
  · rintro ⟨⟨hne, ht, hnul⟩, hrest⟩
    exact ⟨List.forall_mem_cons.mpr ⟨hne, hrest.nonempty⟩,
      List.forall_mem_cons.mpr ⟨ht, hrest.timeouts⟩, List.forall_mem_cons.mpr ⟨hnul, hrest.nul⟩⟩

/-- **A reply that is split well** is read and written whole. -/
lemma retry_of_wholeSplit (hw : 0 < writesock) {arrivals : List Arrival} (hok : PiecesOk arrivals)
    (got : CStr) (hsplit : WholeSplit (arrivals.map Arrival.piece))
    (hfits : got.length + (arrivals.map Arrival.piece).flatten.length < maxbufflen)
    (more : List SocketRead) :
    ∃ written body, Dialogue.retry [] (answerRead writesock maxbufflen)
        ⟨got, got.length, numRetries⟩ (arrivals.flatMap Arrival.reads ++ more)
        = ⟨written, .value (got ++ (arrivals.map Arrival.piece).flatten) more⟩ ∧
      (arrivals.map Arrival.piece).flatten = body ++ crlf ∧ written.flatten = body ++ [lf] := by
  induction arrivals generalizing got with
  | nil => exact absurd hsplit id
  | cons a arrivals ih =>
      obtain ⟨⟨hne, ht, hnul⟩, hrest⟩ := piecesOk_cons.mp hok
      rw [List.map_cons, List.flatten_cons, List.length_append] at hfits
      rw [List.flatMap_cons, List.append_assoc, List.map_cons, List.flatten_cons]
      have hcat : xstrlcat got (cstr a.piece) maxbufflen = got ++ a.piece := by
        rw [cstr_eq_self hnul, xstrlcat_eq_append (by omega)]
      cases arrivals with
      | nil =>
          obtain ⟨⟨body, hbody⟩, hlen⟩ := hsplit
          have hlen' : body.length + 2 = a.piece.length := by
            rw [← hbody, List.length_append]
            rfl
          have hmax : a.piece.length + 1 < len10m :=
            Nat.lt_of_le_of_lt (Nat.succ_le_succ hlen) (by decide)
          have htake : a.piece.take (a.piece.length - 2) = body := by
            rw [← hlen', Nat.add_sub_cancel, ← hbody, List.take_left]
          have hbodyNul : (0 : Byte) ∉ body := fun h => hnul (hbody ▸ List.mem_append_left _ h)
          have hroom : got.length + a.piece.length < maxbufflen := by omega
          have haccept : answerRead writesock maxbufflen
              ⟨got, got.length, numRetries - a.timeouts⟩ (.bytes a.piece) = _ :=
            answerRead_accept hne hmax hroom ⟨body, hbody⟩
          rw [htake, cstr_eq_self hbodyNul, hcat, shellWritef, if_pos (Int.le_of_lt hw),
            snprintf_of_lt (by rw [List.length_append]; change _ + 1 < _; omega)] at haccept
          refine ⟨[body ++ str "\n"], body, ?_, ?_, ?_⟩
          · rw [retry_arrival ht, Dialogue.retry_accept haccept]
            simp
          · simp [hbody]
          · simp [str, lf, ch]
      | cons b arrivals =>
          obtain ⟨⟨hcrlf, hlen⟩, hsplit⟩ := hsplit
          have hmax : a.piece.length + 1 < len10m :=
            Nat.lt_of_le_of_lt (Nat.succ_le_of_lt hlen) (by decide)
          have hroom : got.length + a.piece.length < maxbufflen := by omega
          have hagain : answerRead writesock maxbufflen
              ⟨got, got.length, numRetries - a.timeouts⟩ (.bytes a.piece) = _ :=
            answerRead_again hw hne hmax hroom hcrlf
          rw [hcat, cstr_eq_self hnul, snprintf_of_lt hlen, ← List.length_append] at hagain
          obtain ⟨written, body, hrun, hbody, hwritten⟩ := ih hrest (got ++ a.piece) hsplit
            (by rw [List.length_append]; omega)
          refine ⟨a.piece :: written, a.piece ++ body, ?_, ?_, ?_⟩
          · rw [retry_arrival ht, Dialogue.retry_again hagain, hrun, List.append_assoc]
            rfl
          · rw [hbody, List.append_assoc]
          · rw [List.flatten_cons, hwritten, List.append_assoc]

/-- **A reply that is read and written whole** is split well. -/
lemma wholeSplit_of_retry (hw : 0 < writesock) {arrivals : List Arrival} (hok : PiecesOk arrivals)
    {buffer : CStr} {totlen : ℕ}
    (hfits : totlen + (arrivals.map Arrival.piece).flatten.length < maxbufflen)
    (h : Dialogue.retry [] (answerRead writesock maxbufflen) ⟨buffer, totlen, numRetries⟩
      (arrivals.flatMap Arrival.reads) = ⟨written, .value out []⟩) :
    written.flatten.length + 1 ≤ (arrivals.map Arrival.piece).flatten.length ∧
      (written.flatten.length + 1 = (arrivals.map Arrival.piece).flatten.length →
        WholeSplit (arrivals.map Arrival.piece)) := by
  induction arrivals generalizing buffer totlen written with
  | nil => cases h
  | cons a arrivals ih =>
      obtain ⟨⟨hne, ht, hnul⟩, hrest⟩ := piecesOk_cons.mp hok
      rw [List.map_cons, List.flatten_cons, List.length_append] at hfits ⊢
      rw [List.flatMap_cons, retry_arrival ht] at h
      have hroom : totlen + a.piece.length < maxbufflen := by omega
      rcases Nat.lt_or_ge (a.piece.length + 1) len10m with hmax | hlong
      · by_cases hcrlf : EndsCrlf a.piece
        · have haccept : answerRead writesock maxbufflen
              ⟨buffer, totlen, numRetries - a.timeouts⟩ (.bytes a.piece) = _ :=
            answerRead_accept hne hmax hroom hcrlf
          rw [Dialogue.retry_accept haccept, shellWritef, if_pos (Int.le_of_lt hw)] at h
          injection h with hwritten hstanding
          injection hstanding with _ hnone
          have hlast : arrivals = [] := by
            cases arrivals with
            | nil => rfl
            | cons b arrivals => simp [Arrival.reads] at hnone
          have htwo : 2 ≤ a.piece.length := hcrlf.length_le
          have hbody := length_cstr_le (a.piece.take (a.piece.length - 2))
          rw [List.length_take] at hbody
          have hlen : written.flatten.length = min (len100k - 1)
              ((cstr (a.piece.take (a.piece.length - 2))).length + 1) := by
            rw [← hwritten, List.nil_append, List.flatten_singleton, length_snprintf,
              List.length_append]
            rfl
          subst hlast
          rw [hlen]
          refine ⟨?_, fun heq => ⟨hcrlf, ?_⟩⟩
          · rw [List.map_nil, List.flatten_nil, List.length_nil]
            omega
          · rw [List.map_nil, List.flatten_nil, List.length_nil] at heq
            simp only [len100k] at heq ⊢
            omega
        · have hagain : answerRead writesock maxbufflen
              ⟨buffer, totlen, numRetries - a.timeouts⟩ (.bytes a.piece) = _ :=
            answerRead_again hw hne hmax hroom hcrlf
          rw [Dialogue.retry_again hagain] at h
          obtain ⟨later, hlater, rfl⟩ := Turns.after_eq_iff.mp h
          have hroom' : totlen + a.piece.length + (arrivals.map Arrival.piece).flatten.length
              < maxbufflen := by omega
          obtain ⟨hle, hsplit⟩ := ih hrest hroom' hlater
          have hpiece := length_cstr_le a.piece
          rw [List.nil_append, List.singleton_append, List.flatten_cons, List.length_append,
            length_snprintf]
          refine ⟨by omega, fun heq => ?_⟩
          have hsplit' := hsplit (by omega)
          cases arrivals with
          | nil => exact absurd hsplit' id
          | cons b arrivals => exact ⟨⟨hcrlf, by simp only [len100k] at *; omega⟩, hsplit'⟩
      · obtain ⟨rc, hstop⟩ : ∃ rc, answerRead writesock maxbufflen
            ⟨buffer, totlen, numRetries - a.timeouts⟩ (.bytes a.piece) = .stop [] rc :=
          answerRead_tooLong _ hlong
        rw [Dialogue.retry_stop hstop] at h
        cases h

end

/-- **When a reply is read and written whole.** -/
theorem relaysWhole_iff {writesock : ℤ} {maxbufflen : ℕ} {body : CStr} {arrivals : List Arrival}
    (hw : 0 < writesock) (harrives : ArrivesAs (body ++ crlf) arrivals) (hnul : (0 : Byte) ∉ body)
    (hfits : (body ++ crlf).length < maxbufflen) :
    RelaysWhole writesock maxbufflen body arrivals ↔
      WholeSplit (arrivals.map Arrival.piece) := by
  have hnul' : (0 : Byte) ∉ body ++ crlf := by
    rw [List.mem_append, not_or]
    exact ⟨hnul, by decide⟩
  have hok : PiecesOk arrivals := by
    refine ⟨harrives.nonempty, harrives.timeouts, fun a ha hmem => hnul' ?_⟩
    rw [← harrives.pieces]
    exact List.mem_flatten_of_mem (List.mem_map_of_mem ha) hmem
  rw [← harrives.pieces] at hfits
  constructor
  · intro h
    obtain ⟨written, hrun, hwritten⟩ := h []
    rw [List.append_nil] at hrun
    obtain ⟨-, hsplit⟩ := wholeSplit_of_retry hw hok (by simpa using hfits) hrun
    refine hsplit ?_
    rw [hwritten, harrives.pieces, List.length_append, List.length_append]
    rfl
  · intro hsplit more
    obtain ⟨written, body', hrun, hbody, hwritten⟩ :=
      retry_of_wholeSplit hw hok [] hsplit (by simpa using hfits) more
    rw [harrives.pieces] at hrun hbody
    refine ⟨written, hrun, ?_⟩
    rw [hwritten, List.append_cancel_right hbody]

/-- A reply in two pieces, with a timeout between them. -/
theorem relaysWhole_ok : RelaysWhole 1 1000 (str "[OK]") [⟨0, str "[O"⟩, ⟨1, str "K]\r\n"⟩] := by
  refine (relaysWhole_iff (by decide) ⟨by decide, by decide, by decide⟩ (by decide)
    (by decide)).mpr ?_
  exact ⟨⟨by decide, by decide⟩, by decide, by decide⟩

/-- **A piece that ends with an inner line stops the reply.**  The second line stays in the socket,
and it will be taken for the reply to the next command. -/
theorem innerCrlf_stops :
    readwrite 1 1000 [.bytes (str "A\r\n"), .bytes (str "B\r\n")]
        = ⟨[str "A\n"], .value (str "A\r\n") [.bytes (str "B\r\n")]⟩ ∧
      ¬ ∀ more, ∃ written,
        readwrite 1 1000 ([.bytes (str "A\r\n"), .bytes (str "B\r\n")] ++ more)
          = ⟨written, .value (str "A\r\nB\r\n") more⟩ ∧ written.flatten = str "A\r\nB" := by
  have hrun : readwrite 1 1000 [.bytes (str "A\r\n"), .bytes (str "B\r\n")]
      = ⟨[str "A\n"], .value (str "A\r\n") [.bytes (str "B\r\n")]⟩ := by
    decide +kernel
  refine ⟨hrun, fun h => ?_⟩
  obtain ⟨written, hvalue, -⟩ := h []
  rw [List.append_nil, hrun] at hvalue
  injection hvalue with _ hstanding
  injection hstanding with _ hrest
  exact List.cons_ne_nil _ _ hrest

end G7
