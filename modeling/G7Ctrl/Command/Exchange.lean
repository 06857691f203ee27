import G7Ctrl.Command.Device
import G7Ctrl.Command.ReplySafety

/-!
# Server and devices together

`gprsSystem` leaves open which tags the clients use and what the devices answer.  Here the tags are
drawn with `get_device_tag`, the commands are put together by `prepare_cmd_to_device`, and the
devices answer a command once or drop it, as the emulator does.  A device that reports a fence event
is also sent a command by the tracker thread itself, which no client waits for.

The tags wrap at 10000.  `ExchangeOrderly` asks that no tag is drawn again while a command that drew
it is under way, that a client does not clear its entry while its reply is being written to it, and
that a location record, which has no tag, is matched to the command that it answers.

* `exchangeSystem` — all interleavings of clients, tracker threads and devices.
* **`ExchangeOk.tag_unique`** — two commands under way never have the same tag.
* **`ExchangeOk.gprsOrderly`** — a reply with a tag is matched to its own command.
* **`ExchangeOk.reachableIf`** — the invariant behind both, in every orderly run.
-/

namespace G7

/-- The server and the devices.  `issued` has every call that was entered in the queue, at the
position of its `id`, with the number of the tag it drew; `draws` counts the tags. -/
structure Exchange (C T : Type*) where
  gprs : Gprs C T
  tagnbr : ℕ
  /-- A tag that a client has drawn and not used yet, with its number. -/
  drawn : C → Option (ℕ × CStr)
  emul : T → Emul
  /-- Commands that a device has received and not answered yet. -/
  unanswered : List (GprsCall C × T)
  draws : ℕ
  issued : List (GprsCall C × ℕ)

/-- The steps of clients, trackers, devices and the clock. -/
inductive ExchangeAction (C T : Type*)
  /-- `get_device_tag`, called by a client. -/
  | draw (c : C)
  /-- The rest of `prepare_cmd_to_device`, up to the insertion in the queue. -/
  | send (c : C) (sockd : ℤ) (deviceid cmdidx mode : ℕ) (argstrlist : CStr)
  | write (c : C) (t : T) (complete : Bool)
  /-- A device reads a command, and answers it or drops it. -/
  | answer (t : T) (call : GprsCall C)
  /-- After a fence event the tracker thread sends its command, and the device answers it. -/
  | track (t : T) (gfenTrackingInterval : ℕ)
  /-- Any other step of a thread, or the clock. -/
  | thread (a : GprsAction C T)

/-- The steps of `gprsSystem` that are the same here. -/
def GprsAction.isThread {C T : Type*} : GprsAction C T → Bool
  | .insert .. => false
  | .write .. => false
  | .answer .. => false
  | .unsolicited .. => false
  | _ => true

section

variable {C T : Type*} [DecidableEq C] [DecidableEq T]
variable (cmdargToText : Option (CStr → List CStr → CStr × Bool))

/-- The device ids as the server notes them. -/
def deviceIds (device : T → UInt32) (t : T) : ℕ := (device t).toNat

/-- The insertion of a command with the tag that was drawn. -/
def Exchange.send (device : T → UInt32) (s : Exchange C T) (c : C) (sockd : ℤ) (deviceid : ℕ)
    (n : ℕ) (buffer tagbuffer : CStr) : Option (Exchange C T) :=
  (gprsStep (deviceIds device) cmdargToText s.gprs
    (.insert c sockd deviceid tagbuffer buffer)).map fun g =>
      { s with
        gprs := g
        drawn := Function.update s.drawn c none
        issued :=
          if g.nextId = s.gprs.nextId then s.issued
          else s.issued ++ [(⟨c, s.gprs.nextId, sockd, deviceid, tagbuffer, buffer⟩, n)] }

/-- The step function. -/
def exchangeStep (device : T → UInt32) (s : Exchange C T) :
    ExchangeAction C T → Option (Exchange C T)
  | .draw c =>
      match s.gprs.client c with
      | .idle =>
          (getDeviceTag 8 s.tagnbr).map fun (tagbuffer, tagnbr) =>
            { s with
              tagnbr := tagnbr
              drawn := Function.update s.drawn c (some (s.draws + 1, tagbuffer))
              draws := s.draws + 1 }
      | _ => none
  | .send c sockd deviceid cmdidx mode argstrlist =>
      match s.drawn c with
      | some (n, tagbuffer) =>
          match prepareCmdToDevice tagbuffer cmdidx mode argstrlist with
          | .sends buffer tagbuffer => s.send cmdargToText device c sockd deviceid n buffer tagbuffer
          | _ => none
      | none => none
  | .write c t complete =>
      (gprsStep (deviceIds device) cmdargToText s.gprs (.write c t complete)).map fun g =>
        { s with
          gprs := g
          unanswered := s.unanswered ++ g.delivered.drop s.gprs.delivered.length }
  | .answer t call =>
      if s.unanswered.contains (call, t) then
        match emulReceive (s.emul t) (call.cmd ++ crlf) with
        | .done (e, []) =>
            some
              { s with
                emul := Function.update s.emul t e
                unanswered := s.unanswered.erase (call, t) }
        | .done (e, [text]) =>
            (gprsStep (deviceIds device) cmdargToText s.gprs (.answer t call text)).map fun g =>
              { s with
                gprs := g
                emul := Function.update s.emul t e
                unanswered := s.unanswered.erase (call, t) }
        | _ => none
      else none
  | .track t gfenTrackingInterval =>
      match emulReceive (s.emul t) (trackCommand (str "0000") gfenTrackingInterval) with
      | .done (e, [text]) =>
          (gprsStep (deviceIds device) cmdargToText s.gprs (.unsolicited t text)).map fun g =>
            { s with gprs := g, emul := Function.update s.emul t e }
      | _ => none
  | .thread a =>
      if a.isThread then
        (gprsStep (deviceIds device) cmdargToText s.gprs a).map fun g => { s with gprs := g }
      else none

/-- The server starts as in `gprsSystem`, and no tag was drawn. -/
structure Exchange.Init (device : T → UInt32) (s : Exchange C T) : Prop where
  gprs : s.gprs.Init
  nextId_eq : s.gprs.nextId = 0
  delivered_eq : s.gprs.delivered = []
  tagnbr_eq : s.tagnbr = 0
  drawn_eq : ∀ c, s.drawn c = none
  emul_eq : ∀ t, s.emul t = .start (device t)
  unanswered_eq : s.unanswered = []
  draws_eq : s.draws = 0
  issued_eq : s.issued = []

/-- The system of all threads and devices. -/
def exchangeSystem (device : T → UInt32) : StepSystem (Exchange C T) (ExchangeAction C T) where
  init := Exchange.Init device
  step := exchangeStep cmdargToText device

end

/-! ## Commands under way -/

section

variable {C T : Type*}

/-- The call is in the queue, or its answer is still to come or to be read. -/
structure CallUnderWay (s : Exchange C T) (call : GprsCall C) : Prop where
  under : (∃ i, s.gprs.holder i = some call) ∨ (∃ t, (call, t) ∈ s.unanswered) ∨
    ∃ r ∈ s.gprs.pending, r.answers = some call

/-- The number of a tag that is in use: a client has drawn it, or a call with it is under way. -/
def NumberInUse (s : Exchange C T) (n : ℕ) : Prop :=
  (∃ c tag, s.drawn c = some (n, tag)) ∨
    ∃ call, CallUnderWay s call ∧ s.issued[call.id]? = some (call, n)

/-- The step does not draw a tag that is in use, clears no entry that is about to be written, and
matches no location record to the wrong command. -/
def ExchangeOrderly (s : Exchange C T) : ExchangeAction C T → Prop
  | .draw _ => ∀ n, NumberInUse s n → s.draws + 1 < n + 10000
  | .thread (.matchReply t r after) =>
      replyTag (s.gprs.cliDevid t) (r.text ++ 0 :: after) = some [] →
        GprsOrderly s.gprs (.matchReply t r after)
  | .thread (.clear c after) => GprsOrderly s.gprs (.clear c after)
  | _ => True

end

/-! ## What the steps do to the calls -/

section

variable {C T : Type*} {s s' : Gprs C T}

/-- A step that enters no call and sends no reply. -/
structure KeepsCalls (s s' : Gprs C T) : Prop where
  sent_eq : s'.sent = s.sent
  nextId_eq : s'.nextId = s.nextId
  pending : ∀ r ∈ s'.pending, r ∈ s.pending
  holder : ∀ i call, s'.holder i = some call → s.holder i = some call

lemma KeepsCalls.of_eq (hsent : s'.sent = s.sent) (hnext : s'.nextId = s.nextId)
    (hpending : s'.pending = s.pending) (hholder : s'.holder = s.holder) : KeepsCalls s s' :=
  ⟨hsent, hnext, fun _ hr => hpending ▸ hr, fun _ _ hi => hholder ▸ hi⟩

variable [DecidableEq C] [DecidableEq T] {deviceOf : T → ℕ}
  {cmdargToText : Option (CStr → List CStr → CStr × Bool)} {a : GprsAction C T}

omit [DecidableEq T] in
/-- A call that ends gives its entry back. -/
lemma KeepsCalls.clear (c : C) (i : CmdqueueIdx) (rc : ℤ × CStr) :
    KeepsCalls s (s.clear c i rc) where
  sent_eq := rfl
  nextId_eq := rfl
  pending _ hr := hr
  holder j call hj := by
    by_cases hji : j = i
    · simp [hji, Gprs.clear] at hj
    · simp only [Gprs.clear, Function.update_of_ne hji] at hj
      exact hj

/-- A search of the queue takes its reply. -/
lemma KeepsCalls.matchReply (t : T) (r : SentReply C T) (after : List Byte) :
    KeepsCalls s (s.matchReply t r after) := by
  have hdrop (pc : TrackerPc C T) :
      KeepsCalls s ({ s with pending := s.pending.erase r }.setTracker t pc) :=
    ⟨rfl, rfl, fun _ hr => List.mem_of_mem_erase hr, fun _ _ hi => hi⟩
  rw [Gprs.matchReply]
  split
  · exact ⟨rfl, rfl, fun _ hr => List.mem_of_mem_erase hr, fun _ _ hi => hi⟩
  · split
    · exact ⟨rfl, rfl, fun _ hr => List.mem_of_mem_erase hr, fun _ _ hi => hi⟩
    · exact hdrop _

/-- **The steps of the threads**, but for insertion and writing, enter no call and send no reply. -/
theorem keepsCalls_of_isThread (ha : a.isThread = true)
    (h : gprsStep deviceOf cmdargToText s a = some s') : KeepsCalls s s' := by
  cases a with
  | tick =>
      simp only [gprsStep, Option.some.injEq] at h
      subst h
      exact .of_eq rfl rfl rfl rfl
  | keepAlive t =>
      simp only [gprsStep, Option.some.injEq] at h
      subst h
      exact .of_eq rfl rfl rfl rfl
  | insert c sockd deviceid tag cmd => exact absurd ha Bool.false_ne_true
  | write c t complete => exact absurd ha Bool.false_ne_true
  | answer t call text => exact absurd ha Bool.false_ne_true
  | unsolicited t text => exact absurd ha Bool.false_ne_true
  | poll c =>
      simp only [gprsStep] at h
      split at h <;> try contradiction
      split at h <;> simp only [Option.some.injEq] at h <;> subst h <;>
        exact .of_eq rfl rfl rfl rfl
  | copy c =>
      simp only [gprsStep] at h
      split at h <;> try contradiction
      simp only [Option.some.injEq] at h
      subst h
      exact .of_eq rfl rfl rfl rfl
  | clear c after =>
      simp only [gprsStep] at h
      split at h <;> try contradiction
      all_goals
        simp only [Option.some.injEq] at h
        subst h
        exact .clear _ _ _
  | matchReply t r after =>
      simp only [gprsStep] at h
      split at h <;> try contradiction
      split_ifs at h
      simp only [Option.some.injEq] at h
      subst h
      exact .matchReply t r after
  | fill t =>
      simp only [gprsStep] at h
      split at h <;> try contradiction
      simp only [Option.some.injEq] at h
      subst h
      exact .of_eq rfl rfl rfl rfl
  | setValid t =>
      simp only [gprsStep] at h
      split at h <;> try contradiction
      simp only [Option.some.injEq] at h
      subst h
      exact .of_eq rfl rfl rfl rfl

/-- An insertion fails, or it enters the call with the next `id`, its command being short enough. -/
theorem insert_cases {c : C} {sockd : ℤ} {deviceid : ℕ} {tag cmd : CStr}
    (h : gprsStep deviceOf cmdargToText s (.insert c sockd deviceid tag cmd) = some s') :
    KeepsCalls s s' ∨
      ∃ i, cmd.length ≤ 255 ∧ s'.sent = s.sent ∧ s'.nextId = s.nextId + 1 ∧ s'.pending = s.pending ∧
        s'.holder = Function.update s.holder i (some ⟨c, s.nextId, sockd, deviceid, tag, cmd⟩) := by
  simp only [gprsStep] at h
  split at h <;> try contradiction
  simp only [Option.some.injEq, Gprs.insert] at h
  split at h
  · subst h
    exact .inl (.of_eq rfl rfl rfl rfl)
  · rename_i cmdq i hins
    subst h
    exact .inr ⟨i, (cmdqueueInsert_some hins).2.1, rfl, rfl, rfl, rfl⟩

/-- A write delivers the call of its client, or nothing. -/
theorem write_cases {c : C} {t : T} {complete : Bool}
    (h : gprsStep deviceOf cmdargToText s (.write c t complete) = some s') :
    KeepsCalls s s' ∧ (s'.delivered = s.delivered ∨
      ∃ call i, s.client c = .inserted call i ∧ s'.delivered = s.delivered ++ [(call, t)]) := by
  simp only [gprsStep] at h
  split at h <;> try contradiction
  rename_i call i hc
  split_ifs at h
  simp only [Option.some.injEq] at h
  subst h
  cases complete with
  | true => exact ⟨.of_eq rfl rfl rfl rfl, .inr ⟨call, i, hc, rfl⟩⟩
  | false => exact ⟨.of_eq rfl rfl rfl rfl, .inl rfl⟩

end

/-! ## What holds in every run -/

section

variable {C T : Type*} (device : T → UInt32)

/-- The text is the answer of a device to the command of a call. -/
def IsAnswer (devid : UInt32) (call : GprsCall C) (text : CStr) : Prop :=
  ∃ cmdname, WellFormed call.cmd cmdname call.tag ∧ text = deviceAnswer devid cmdname call.tag

/-- The call was entered with the tag of number `n`. -/
def Issued (s : Exchange C T) (call : GprsCall C) (n : ℕ) : Prop :=
  s.issued[call.id]? = some (call, n)

/-- The device keeps its id and its buffer. -/
structure EmulOk (devid : UInt32) (e : Emul) : Prop where
  devid_eq : e.devid = devid
  length_buffer : e.buffer.length = emulReadSize

/-- The invariant of the exchange. -/
structure ExchangeOk (s : Exchange C T) : Prop where
  slots : SlotsOk s.gprs
  replies : RepliesOk (deviceIds device) s.gprs
  nextId_eq : s.issued.length = s.gprs.nextId
  tagnbr_eq : s.tagnbr = s.draws % 10000
  emul_eq : ∀ t, EmulOk (device t) (s.emul t)
  /-- The numbers of the tags in use are among the last ten thousand. -/
  window : ∀ n, NumberInUse s n → s.draws < n + 10000
  numbers_le : ∀ p ∈ s.issued, p.2 ≤ s.draws
  numbers_nodup : (s.issued.map Prod.snd).Nodup
  /-- A number that was drawn and not used is nobody else's. -/
  drawn : ∀ c n tag, s.drawn c = some (n, tag) →
    n ≤ s.draws ∧ tag = dec04 (n % 10000) ∧ n ∉ s.issued.map Prod.snd ∧
      ∀ c' tag', s.drawn c' = some (n, tag') → c' = c
  /-- Every call has the tag of its number, and a command in the format. -/
  calls : ∀ p ∈ s.issued, p.1.tag = dec04 (p.2 % 10000) ∧ p.1.cmd.length ≤ 255 ∧
    ∃ cmdname, WellFormed p.1.cmd cmdname p.1.tag
  known : ∀ call, CallUnderWay s call → ∃ n, Issued s call n
  /-- A call has one entry. -/
  entry_unique : ∀ i j call, s.gprs.holder i = some call → s.gprs.holder j = some call → i = j
  /-- Every reply is an answer to its command or to the command after a fence event. -/
  sent : ∀ r ∈ s.gprs.sent,
    (∀ call, r.answers = some call → IsAnswer (device r.conn) call r.text) ∧
      (r.answers = none → ∃ devid, r.text = okReply devid (str "TRACK") gfenTrackTag)

variable {device} {s : Exchange C T}

lemma nextTagnbr_mod (n : ℕ) : nextTagnbr (n % 10000) = (n + 1) % 10000 := by
  have hlt : n % 10000 < 10000 := Nat.mod_lt _ (by decide)
  rw [nextTagnbr]
  split_ifs with h
  · omega
  · omega

/-- Tags with different numbers of a window of ten thousand are different. -/
lemma eq_of_dec04_eq {m n draws : ℕ} (h : dec04 (m % 10000) = dec04 (n % 10000))
    (hm : m ≤ draws ∧ draws < m + 10000) (hn : n ≤ draws ∧ draws < n + 10000) : m = n := by
  have hinj : m % 10000 = n % 10000 := by
    have hvalue (k : ℕ) : digitsValue (dec04 k) = k := by
      rw [dec04, List.leftpad, digitsValue, List.foldl_append]
      have hzeros (z : ℕ) : List.foldl (fun v c => 10 * v + (c.toNat - 48)) 0
          (List.replicate z (ch '0')) = 0 := by
        induction z with
        | zero => rfl
        | succ z ih => rw [List.replicate_succ, List.foldl_cons]; exact ih
      rw [hzeros]
      exact digitsValue_dec k
    have hvalues := congrArg digitsValue h
    rwa [hvalue, hvalue] at hvalues
  omega

namespace ExchangeOk

/-- The number of a call under way. -/
lemma exists_number (h : ExchangeOk device s) {call : GprsCall C} (hcall : CallUnderWay s call) :
    ∃ n, Issued s call n ∧ n ≤ s.draws ∧ s.draws < n + 10000 ∧ call.tag = dec04 (n % 10000) := by
  obtain ⟨n, hn⟩ := h.known call hcall
  have hmem : (call, n) ∈ s.issued := List.mem_of_getElem? hn
  exact ⟨n, hn, h.numbers_le _ hmem, h.window n (.inr ⟨call, hcall, hn⟩), (h.calls _ hmem).1⟩

/-- A number belongs to one call. -/
lemma call_unique (h : ExchangeOk device s) {call call' : GprsCall C} {n : ℕ}
    (hn : Issued s call n) (hn' : Issued s call' n) : call = call' := by
  have hlt : call.id < (s.issued.map Prod.snd).length := by
    rw [List.length_map]
    exact (List.getElem?_eq_some_iff.mp hn).1
  have hid : call.id = call'.id := by
    refine (List.getElem?_inj hlt h.numbers_nodup).mp ?_
    rw [List.getElem?_map, List.getElem?_map, hn, hn']
    rfl
  rw [Issued, hid, hn'] at hn
  exact congrArg Prod.fst (Option.some.inj hn).symm

/-- **Two commands under way never have the same tag.** -/
theorem tag_unique (h : ExchangeOk device s) {call call' : GprsCall C}
    (hcall : CallUnderWay s call) (hcall' : CallUnderWay s call') (htag : call.tag = call'.tag) :
    call = call' := by
  obtain ⟨m, hm, hle, hlt, heq⟩ := h.exists_number hcall
  obtain ⟨n, hn, hle', hlt', heq'⟩ := h.exists_number hcall'
  have hmn := eq_of_dec04_eq (heq.symm.trans (htag.trans heq')) ⟨hle, hlt⟩ ⟨hle', hlt'⟩
  exact h.call_unique hm (hmn ▸ hn)

/-- **A reply with a tag finds its own entry**, whichever order the replies come in. -/
theorem gprsOrderly (h : ExchangeOk device s) {t : T} {r : SentReply C T} {after : List Byte}
    (hr : r ∈ s.gprs.pending)
    (hloc : replyTag (s.gprs.cliDevid t) (r.text ++ 0 :: after) = some [] →
      GprsOrderly s.gprs (.matchReply t r after)) :
    GprsOrderly s.gprs (.matchReply t r after) := by
  intro tag i htag hmatch hfirst
  by_cases hnil : tag = []
  · exact hloc (hnil ▸ htag) tag i htag hmatch hfirst
  · obtain ⟨call', hheld, -, htag'⟩ := h.slots.holder_of_isMatch hmatch
    have htag' := htag' hnil
    obtain ⟨hanswer, hother⟩ := h.sent r (h.replies.pending r hr)
    cases hans : r.answers with
    | none =>
        obtain ⟨devid, htext⟩ := hother hans
        rw [htext, replyTag_okReply deviceName_track deviceTag_gfenTrackTag,
          Option.some.injEq] at htag
        obtain ⟨n, -, -, -, heq⟩ := h.exists_number ⟨.inl ⟨i, hheld⟩⟩
        exact absurd (heq.symm.trans (htag'.trans htag.symm)) (gfenTrackTag_ne_dec04 _)
    | some call =>
        obtain ⟨cmdname, hform, htext⟩ := hanswer call hans
        rw [htext, deviceAnswer] at htag
        split_ifs at htag with hget
        · exact absurd (replyTag_locationReply htag) hnil
        · rw [replyTag_okReply hform.name hform.tag, Option.some.injEq] at htag
          have hsame := h.tag_unique ⟨.inl ⟨i, hheld⟩⟩ ⟨.inr (.inr ⟨r, hr, hans⟩)⟩
            (htag'.trans htag.symm)
          rw [hheld, hsame]

/-- Before the first step. -/
lemma init (h : s.Init device) : ExchangeOk device s where
  slots := .init h.gprs
  replies := .init h.gprs
  nextId_eq := by rw [h.issued_eq, h.nextId_eq, List.length_nil]
  tagnbr_eq := by rw [h.tagnbr_eq, h.draws_eq]
  emul_eq t := by
    rw [h.emul_eq]
    exact ⟨rfl, List.length_replicate⟩
  window n _ := by rw [h.draws_eq]; omega
  numbers_le p hp := by simp [h.issued_eq] at hp
  numbers_nodup := by rw [h.issued_eq]; exact List.nodup_nil
  drawn c n tag hc := by simp [h.drawn_eq] at hc
  calls p hp := by simp [h.issued_eq] at hp
  known call hcall := by
    rcases hcall.under with ⟨i, hi⟩ | ⟨t, ht⟩ | ⟨r, hr, -⟩
    · simp [h.gprs.holder_eq i] at hi
    · simp [h.unanswered_eq] at ht
    · simp [h.gprs.pending_eq] at hr
  entry_unique i j call hi := by simp [h.gprs.holder_eq i] at hi
  sent r hr := by simp [h.gprs.sent_eq] at hr

/-- What is under way afterwards was under way before. -/
lemma numberInUse_of {s' : Exchange C T} (hunder : ∀ call, CallUnderWay s' call → CallUnderWay s call)
    (hdrawn : s'.drawn = s.drawn) (hissued : s'.issued = s.issued) {n : ℕ} (h : NumberInUse s' n) :
    NumberInUse s n := by
  rcases h with ⟨c, tag, hc⟩ | ⟨call, hcall, hn⟩
  · exact .inl ⟨c, tag, hdrawn ▸ hc⟩
  · exact .inr ⟨call, hunder call hcall, hissued ▸ hn⟩

variable {g : Gprs C T} {u : List (GprsCall C × T)} {e : T → Emul}

/-- A step that enters no call and sends no reply. -/
lemma keeps (h : ExchangeOk device s) (hslots : SlotsOk g) (hreplies : RepliesOk (deviceIds device) g)
    (hk : KeepsCalls s.gprs g) (hu : ∀ call t, (call, t) ∈ u → CallUnderWay s call)
    (he : ∀ t, EmulOk (device t) (e t)) :
    ExchangeOk device { s with gprs := g, unanswered := u, emul := e } := by
  have hunder : ∀ call, CallUnderWay { s with gprs := g, unanswered := u, emul := e } call →
      CallUnderWay s call := by
    intro call hcall
    rcases hcall.under with ⟨i, hi⟩ | ⟨t, ht⟩ | ⟨r, hr, hans⟩
    · exact ⟨.inl ⟨i, hk.holder i call hi⟩⟩
    · exact hu call t ht
    · exact ⟨.inr (.inr ⟨r, hk.pending r hr, hans⟩)⟩
  exact
    { slots := hslots
      replies := hreplies
      nextId_eq := h.nextId_eq.trans hk.nextId_eq.symm
      tagnbr_eq := h.tagnbr_eq
      emul_eq := he
      window := fun n hn => h.window n (numberInUse_of hunder rfl rfl hn)
      numbers_le := h.numbers_le
      numbers_nodup := h.numbers_nodup
      drawn := h.drawn
      calls := h.calls
      known := fun call hcall => h.known call (hunder call hcall)
      entry_unique := fun i j call hi hj =>
        h.entry_unique i j call (hk.holder i call hi) (hk.holder j call hj)
      sent := fun r hr => h.sent r (hk.sent_eq ▸ hr) }

/-- A device sends a reply. -/
lemma sends (h : ExchangeOk device s) {r : SentReply C T} (hslots : SlotsOk (s.gprs.send r))
    (hreplies : RepliesOk (deviceIds device) (s.gprs.send r))
    (hu : ∀ call t, (call, t) ∈ u → (call, t) ∈ s.unanswered) (he : ∀ t, EmulOk (device t) (e t))
    (hcall : ∀ call, r.answers = some call →
      CallUnderWay s call ∧ IsAnswer (device r.conn) call r.text)
    (hother : r.answers = none → ∃ devid, r.text = okReply devid (str "TRACK") gfenTrackTag) :
    ExchangeOk device { s with gprs := s.gprs.send r, unanswered := u, emul := e } := by
  have hunder : ∀ call,
      CallUnderWay { s with gprs := s.gprs.send r, unanswered := u, emul := e } call →
        CallUnderWay s call := by
    intro call hunder
    rcases hunder.under with hi | ⟨t, ht⟩ | ⟨r', hr', hans⟩
    · exact ⟨.inl hi⟩
    · exact ⟨.inr (.inl ⟨t, hu call t ht⟩)⟩
    · rcases List.mem_append.mp hr' with hr' | hr'
      · exact ⟨.inr (.inr ⟨r', hr', hans⟩)⟩
      · rw [List.mem_singleton.mp hr'] at hans
        exact (hcall call hans).1
  exact
    { slots := hslots
      replies := hreplies
      nextId_eq := h.nextId_eq
      tagnbr_eq := h.tagnbr_eq
      emul_eq := he
      window := fun n hn => h.window n (numberInUse_of hunder rfl rfl hn)
      numbers_le := h.numbers_le
      numbers_nodup := h.numbers_nodup
      drawn := h.drawn
      calls := h.calls
      known := fun call hc => h.known call (hunder call hc)
      entry_unique := h.entry_unique
      sent := fun r' hr' => by
        rcases List.mem_append.mp hr' with hr' | hr'
        · exact h.sent r' hr'
        · rw [List.mem_singleton.mp hr']
          exact ⟨fun call hans => (hcall call hans).2, hother⟩ }

variable [DecidableEq C]

/-- A tag is drawn. -/
lemma draws (h : ExchangeOk device s) (c : C)
    (hfree : ∀ n, NumberInUse s n → s.draws + 1 < n + 10000) :
    ExchangeOk device
      { s with
        tagnbr := nextTagnbr s.tagnbr
        drawn := Function.update s.drawn c (some (s.draws + 1, dec04 (nextTagnbr s.tagnbr)))
        draws := s.draws + 1 } := by
  have htagnbr : nextTagnbr s.tagnbr = (s.draws + 1) % 10000 := by
    rw [h.tagnbr_eq, nextTagnbr_mod]
  have hunused : s.draws + 1 ∉ s.issued.map Prod.snd := by
    intro hmem
    obtain ⟨p, hp, heq⟩ := List.mem_map.mp hmem
    have := h.numbers_le p hp
    omega
  refine
    { h with
      tagnbr_eq := htagnbr
      numbers_le := fun p hp => Nat.le_succ_of_le (h.numbers_le p hp)
      window := fun n hn => ?_
      drawn := fun c' n tag hc' => ?_
      known := fun call hcall => h.known call ⟨hcall.under⟩ }
  · rcases hn with ⟨c', tag, hc'⟩ | ⟨call, hcall, hn⟩
    · by_cases hcc : c' = c
      · rw [hcc] at hc'
        simp only [Function.update_self, Option.some.injEq, Prod.mk.injEq] at hc'
        dsimp only
        omega
      · simp only [Function.update_of_ne hcc] at hc'
        exact hfree n (.inl ⟨c', tag, hc'⟩)
    · exact hfree n (.inr ⟨call, ⟨hcall.under⟩, hn⟩)
  · by_cases hcc : c' = c
    · rw [hcc] at hc'
      simp only [Function.update_self, Option.some.injEq, Prod.mk.injEq] at hc'
      obtain ⟨rfl, rfl⟩ := hc'
      refine ⟨Nat.le_refl _, by rw [htagnbr], hunused, fun c'' tag' hc'' => ?_⟩
      by_contra hne
      rw [hcc] at hne
      simp only [Function.update_of_ne hne] at hc''
      have := (h.drawn c'' _ tag' hc'').1
      omega
    · simp only [Function.update_of_ne hcc] at hc'
      obtain ⟨hle, htag, hnot, huniq⟩ := h.drawn c' n tag hc'
      refine ⟨Nat.le_succ_of_le hle, htag, hnot, fun c'' tag' hc'' => ?_⟩
      by_cases hcc' : c'' = c
      · rw [hcc'] at hc''
        simp only [Function.update_self, Option.some.injEq, Prod.mk.injEq] at hc''
        omega
      · simp only [Function.update_of_ne hcc'] at hc''
        exact huniq c'' tag' hc''

/-- A drawn tag is given up, when the insertion fails. -/
lemma undrawn (h : ExchangeOk device s) (c : C) :
    ExchangeOk device { s with drawn := Function.update s.drawn c none } := by
  have hdrawn : ∀ c' n tag, Function.update s.drawn c none c' = some (n, tag) →
      s.drawn c' = some (n, tag) := by
    intro c' n tag hc'
    by_cases hcc : c' = c
    · simp [hcc] at hc'
    · simpa [hcc] using hc'
  refine
    { h with
      window := fun n hn => ?_
      drawn := fun c' n tag hc' => ?_
      known := fun call hcall => h.known call ⟨hcall.under⟩ }
  · rcases hn with ⟨c', tag, hc'⟩ | ⟨call, hcall, hn⟩
    · exact h.window n (.inl ⟨c', tag, hdrawn c' n tag hc'⟩)
    · exact h.window n (.inr ⟨call, ⟨hcall.under⟩, hn⟩)
  · obtain ⟨hle, htag, hnot, huniq⟩ := h.drawn c' n tag (hdrawn c' n tag hc')
    exact ⟨hle, htag, hnot, fun c'' tag' hc'' => huniq c'' tag' (hdrawn c'' n tag' hc'')⟩

omit [DecidableEq C] in
/-- A new command has one entry, too. -/
lemma update_entry_unique {holder : CmdqueueIdx → Option (GprsCall C)} {call : GprsCall C}
    (hunique : ∀ i j call, holder i = some call → holder j = some call → i = j)
    (hfresh : ∀ j, holder j ≠ some call) (i : CmdqueueIdx) (j k : CmdqueueIdx)
    (call' : GprsCall C) (hj : Function.update holder i (some call) j = some call')
    (hk : Function.update holder i (some call) k = some call') : j = k := by
  by_cases hji : j = i
  · by_cases hki : k = i
    · rw [hji, hki]
    · simp only [hji, Function.update_self, Option.some.injEq] at hj
      simp only [Function.update_of_ne hki, ← hj] at hk
      exact absurd hk (hfresh k)
  · simp only [Function.update_of_ne hji] at hj
    by_cases hki : k = i
    · simp only [hki, Function.update_self, Option.some.injEq] at hk
      exact absurd (hk ▸ hj) (hfresh j)
    · simp only [Function.update_of_ne hki] at hk
      exact hunique j k call' hj hk

/-- A command enters the queue with the tag its client has drawn. -/
lemma inserts (h : ExchangeOk device s) {c : C} {n : ℕ} {tag : CStr}
    (hdrawn : s.drawn c = some (n, tag)) {call : GprsCall C} (htag : call.tag = tag)
    (hid : call.id = s.gprs.nextId) (hlength : call.cmd.length ≤ 255)
    (hform : ∃ cmdname, WellFormed call.cmd cmdname tag) (hslots : SlotsOk g)
    (hreplies : RepliesOk (deviceIds device) g) {i : CmdqueueIdx} (hsent : g.sent = s.gprs.sent)
    (hnext : g.nextId = s.gprs.nextId + 1) (hpending : g.pending = s.gprs.pending)
    (hholder : g.holder = Function.update s.gprs.holder i (some call)) :
    ExchangeOk device
      { s with
        gprs := g
        drawn := Function.update s.drawn c none
        issued := s.issued ++ [(call, n)] } := by
  obtain ⟨hle, htagn, hunused, huniq⟩ := h.drawn c n tag hdrawn
  have hundrawn := h.undrawn c
  have hissued : ∀ {call' n'}, Issued s call' n' →
      (s.issued ++ [(call, n)])[call'.id]? = some (call', n') :=
    fun hn' => (List.getElem?_append_left (List.getElem?_eq_some_iff.mp hn').1).trans hn'
  have hnew : (s.issued ++ [(call, n)])[call.id]? = some (call, n) := by
    rw [hid, ← h.nextId_eq, List.getElem?_concat_length]
  have hunder : ∀ call', CallUnderWay
      { s with
        gprs := g
        drawn := Function.update s.drawn c none
        issued := s.issued ++ [(call, n)] }
      call' → call' = call ∨ CallUnderWay s call' := by
    intro call' hcall'
    rcases hcall'.under with ⟨j, hj⟩ | ht | ⟨r, hr, hans⟩
    · by_cases hji : j = i
      · simp only [hholder, hji, Function.update_self, Option.some.injEq] at hj
        exact .inl hj.symm
      · simp only [hholder, Function.update_of_ne hji] at hj
        exact .inr ⟨.inl ⟨j, hj⟩⟩
    · exact .inr ⟨.inr (.inl ht)⟩
    · exact .inr ⟨.inr (.inr ⟨r, hpending ▸ hr, hans⟩)⟩
  constructor
  case slots => exact hslots
  case replies => exact hreplies
  case nextId_eq => rw [hnext, List.length_append, h.nextId_eq, List.length_singleton]
  case tagnbr_eq => exact h.tagnbr_eq
  case emul_eq => exact h.emul_eq
  case window =>
      intro m hm
      rcases hm with ⟨c', tag', hc'⟩ | ⟨call', hcall', hm⟩
      · exact hundrawn.window m (.inl ⟨c', tag', hc'⟩)
      · rcases hunder call' hcall' with rfl | hold
        · -- the new command has the number its client had drawn
          have hmn : m = n := congrArg Prod.snd (Option.some.inj (hm.symm.trans hnew))
          exact h.window m (.inl ⟨c, tag, hmn ▸ hdrawn⟩)
        · obtain ⟨n', hn'⟩ := h.known call' hold
          have hmn : m = n' := congrArg Prod.snd (Option.some.inj (hm.symm.trans (hissued hn')))
          exact h.window m (.inr ⟨call', hold, hmn ▸ hn'⟩)
  case numbers_le =>
      intro p hp
      rcases List.mem_append.mp hp with hp | hp
      · exact h.numbers_le p hp
      · rw [List.mem_singleton.mp hp]
        exact hle
  case numbers_nodup =>
      rw [List.map_append, List.map_singleton]
      refine List.nodup_append.mpr
        ⟨h.numbers_nodup, List.nodup_singleton n, fun m hm m' hm' heq => ?_⟩
      rw [heq, List.mem_singleton.mp hm'] at hm
      exact hunused hm
  case drawn =>
      intro c' n' tag' hc'
      obtain ⟨hle', htag', hunused', huniq'⟩ := hundrawn.drawn c' n' tag' hc'
      refine ⟨hle', htag', fun hmem => ?_, huniq'⟩
      rw [List.map_append, List.map_singleton, List.mem_append, List.mem_singleton] at hmem
      rcases hmem with hmem | rfl
      · exact hunused' hmem
      · by_cases hcc : c' = c
        · simp [hcc] at hc'
        · simp only [Function.update_of_ne hcc] at hc'
          exact hcc (huniq c' tag' hc')
  case calls =>
      intro p hp
      rcases List.mem_append.mp hp with hp | hp
      · exact h.calls p hp
      · rw [List.mem_singleton.mp hp]
        exact ⟨htag.trans htagn, hlength, htag ▸ hform⟩
  case known =>
      intro call' hcall'
      rcases hunder call' hcall' with rfl | hold
      · exact ⟨n, hnew⟩
      · obtain ⟨n', hn'⟩ := h.known call' hold
        exact ⟨n', hissued hn'⟩
  case entry_unique =>
      -- no entry has the new call yet, its `id` being new
      have hfresh : ∀ j, s.gprs.holder j ≠ some call := by
        intro j hj
        obtain ⟨n', hn'⟩ := h.known call ⟨.inl ⟨j, hj⟩⟩
        have hlt := (List.getElem?_eq_some_iff.mp hn').1
        rw [hid, ← h.nextId_eq] at hlt
        exact absurd hlt (Nat.lt_irrefl _)
      intro j k call' hj hk
      simp only [hholder] at hj hk
      exact update_entry_unique h.entry_unique hfresh i j k call' hj hk
  case sent => exact fun r hr => h.sent r (hsent ▸ hr)

variable [DecidableEq T] {cmdargToText : Option (CStr → List CStr → CStr × Bool)}

/-- The tags that are drawn are in the format. -/
lemma getDeviceTag_eq (n : ℕ) :
    getDeviceTag 8 n = some (dec04 (nextTagnbr n), nextTagnbr n) := by
  have hlt : nextTagnbr n < 10000 := by
    rw [nextTagnbr]
    split_ifs
    · decide
    · omega
  rw [getDeviceTag, if_neg (by decide), snprintf_of_lt (by rw [length_dec04 hlt]; decide)]

/-- A client sends a command. -/
lemma send (h : ExchangeOk device s) {s' : Exchange C T} {c : C} {n : ℕ} {tag : CStr}
    (hdrawn : s.drawn c = some (n, tag)) {sockd : ℤ} {deviceid : ℕ} {buffer : CStr}
    (hform : ∃ cmdname, WellFormed buffer cmdname tag)
    (hstep : s.send cmdargToText device c sockd deviceid n buffer tag = some s') :
    ExchangeOk device s' := by
  obtain ⟨g, hg, rfl⟩ := Option.map_eq_some_iff.mp hstep
  have hslots : SlotsOk g := h.slots.step hg
  have hreplies : RepliesOk (deviceIds device) g := h.replies.step h.slots (by trivial) hg
  rcases insert_cases hg with hk | ⟨i, hlength, hsent, hnext, hpending, hholder⟩
  · have hkept := (h.keeps hslots hreplies hk (u := s.unanswered)
      (fun call t ht => ⟨.inr (.inl ⟨t, ht⟩)⟩) h.emul_eq).undrawn c
    rw [if_pos hk.nextId_eq]
    exact hkept
  · rw [if_neg (by omega)]
    exact h.inserts hdrawn rfl rfl hlength hform hslots hreplies hsent hnext hpending hholder

omit [DecidableEq C] in
/-- A device reads something. -/
lemma receives (h : ExchangeOk device s) {t : T} {e : Emul} (he : e.devid = (s.emul t).devid)
    (hbuf : e.buffer.length = emulReadSize) (t' : T) :
    EmulOk (device t') (Function.update s.emul t e t') := by
  by_cases htt : t' = t
  · rw [htt, Function.update_self]
    exact ⟨he.trans (h.emul_eq t).devid_eq, hbuf⟩
  · rw [Function.update_of_ne htt]
    exact h.emul_eq t'

/-- A device answers a command, or drops it. -/
lemma answer (h : ExchangeOk device s) {s' : Exchange C T} {t : T} {call : GprsCall C}
    (hstep : exchangeStep cmdargToText device s (.answer t call) = some s') :
    ExchangeOk device s' := by
  rw [exchangeStep] at hstep
  split_ifs at hstep with hmem
  have hunder : CallUnderWay s call := ⟨.inr (.inl ⟨t, List.contains_iff_mem.mp hmem⟩)⟩
  obtain ⟨n, hn⟩ := h.known call hunder
  obtain ⟨-, hlength, cmdname, hform⟩ := h.calls _ (List.mem_of_getElem? hn)
  obtain ⟨e, he, hdevid, hbuf⟩ := emulReceive_queued (s.emul t) (h.emul_eq t).length_buffer hform
    hlength
  rw [he] at hstep
  have hemul := h.receives hdevid hbuf
  split_ifs at hstep with hdropped
  · obtain rfl := Option.some.inj hstep
    exact h.keeps h.slots h.replies (.of_eq rfl rfl rfl rfl)
      (fun call' t' ht' => ⟨.inr (.inl ⟨t', List.mem_of_mem_erase ht'⟩)⟩) hemul
  · obtain ⟨g, hg, rfl⟩ := Option.map_eq_some_iff.mp hstep
    have hslots : SlotsOk g := h.slots.step hg
    have hreplies : RepliesOk (deviceIds device) g := h.replies.step h.slots (by trivial) hg
    simp only [gprsStep] at hg
    split_ifs at hg
    obtain rfl := Option.some.inj hg
    refine h.sends hslots hreplies (fun call' t' ht' => List.mem_of_mem_erase ht') hemul
      (fun call' hans => ?_) (fun hans => by contradiction)
    obtain rfl := Option.some.inj hans
    exact ⟨hunder, cmdname, hform, by rw [(h.emul_eq t).devid_eq]⟩

/-- A device answers the command of its tracker thread. -/
lemma track (h : ExchangeOk device s) {s' : Exchange C T} {t : T} {gfenTrackingInterval : ℕ}
    (hstep : exchangeStep cmdargToText device s (.track t gfenTrackingInterval) = some s') :
    ExchangeOk device s' := by
  obtain ⟨e, he, hdevid, hbuf⟩ := emulReceive_wellFormed (s.emul t) (h.emul_eq t).length_buffer
    (wellFormed_trackCommand (str "0000") gfenTrackingInterval) (length_trackCommand_lt _ _)
  rw [exchangeStep, he] at hstep
  obtain ⟨g, hg, rfl⟩ := Option.map_eq_some_iff.mp hstep
  have hslots : SlotsOk g := h.slots.step hg
  have hreplies : RepliesOk (deviceIds device) g := h.replies.step h.slots (by trivial) hg
  obtain rfl := Option.some.inj hg
  exact h.sends hslots hreplies (fun call' t' ht' => ht') (h.receives hdevid hbuf)
    (fun call' hans => by contradiction) (fun _ => ⟨(s.emul t).devid, rfl⟩)

/-- A client writes its command. -/
lemma write (h : ExchangeOk device s) {s' : Exchange C T} {c : C} {t : T} {complete : Bool}
    (hstep : exchangeStep cmdargToText device s (.write c t complete) = some s') :
    ExchangeOk device s' := by
  obtain ⟨g, hg, rfl⟩ := Option.map_eq_some_iff.mp hstep
  obtain ⟨hk, hdelivered⟩ := write_cases hg
  refine h.keeps (h.slots.step hg) (h.replies.step h.slots (by trivial) hg) hk
    (fun call t' ht' => ?_) h.emul_eq
  rcases List.mem_append.mp ht' with ht' | ht'
  · exact ⟨.inr (.inl ⟨t', ht'⟩)⟩
  · rcases hdelivered with heq | ⟨call', i, hc, heq⟩
    · rw [heq, List.drop_length] at ht'
      contradiction
    · rw [heq, List.drop_left, List.mem_singleton, Prod.mk.injEq] at ht'
      rw [ht'.1]
      exact ⟨.inl ⟨i, (h.slots.owner c call' i (by rw [hc]; rfl)).2⟩⟩

/-- An orderly step of a thread is orderly for the queue. -/
lemma gprsOrderly_of_orderly (h : ExchangeOk device s) {a : GprsAction C T}
    (hord : ExchangeOrderly s (.thread a)) {g : Gprs C T}
    (hg : gprsStep (deviceIds device) cmdargToText s.gprs a = some g) : GprsOrderly s.gprs a := by
  cases a with
  | matchReply t r after =>
      simp only [gprsStep] at hg
      split at hg <;> try contradiction
      split_ifs at hg with hr
      exact h.gprsOrderly hr.1 hord
  | clear c after => exact hord
  | tick => trivial
  | keepAlive t => trivial
  | insert c sockd deviceid tag cmd => trivial
  | write c t complete => trivial
  | poll c => trivial
  | copy c => trivial
  | answer t call text => trivial
  | unsolicited t text => trivial
  | fill t => trivial
  | setValid t => trivial

/-- **Every orderly step keeps the invariant.** -/
theorem step (h : ExchangeOk device s) {s' : Exchange C T} {a : ExchangeAction C T}
    (hord : ExchangeOrderly s a) (hstep : exchangeStep cmdargToText device s a = some s') :
    ExchangeOk device s' := by
  cases a with
  | draw c =>
      rw [exchangeStep, getDeviceTag_eq] at hstep
      split at hstep <;> try contradiction
      obtain rfl := Option.some.inj hstep
      exact h.draws c hord
  | send c sockd deviceid cmdidx mode argstrlist =>
      rw [exchangeStep] at hstep
      split at hstep <;> try contradiction
      rename_i n tag hdrawn
      split at hstep <;> try contradiction
      rename_i buffer tag' hsends
      have htag : DeviceTag tag := by
        rw [(h.drawn c n tag hdrawn).2.1]
        exact deviceTag_dec04 (Nat.mod_lt n (by decide))
      obtain ⟨rfl, e, -, hform⟩ := prepareCmdToDevice_sends htag hsends
      exact h.send hdrawn ⟨e.cmdstr, hform⟩ hstep
  | write c t complete => exact h.write hstep
  | answer t call => exact h.answer hstep
  | track t gfenTrackingInterval => exact h.track hstep
  | thread a =>
      rw [exchangeStep] at hstep
      split_ifs at hstep with ha
      obtain ⟨g, hg, rfl⟩ := Option.map_eq_some_iff.mp hstep
      exact h.keeps (h.slots.step hg) (h.replies.step h.slots (h.gprsOrderly_of_orderly hord hg) hg)
        (keepsCalls_of_isThread ha hg) (fun call t ht => ⟨.inr (.inl ⟨t, ht⟩)⟩) h.emul_eq

/-- **The invariant holds in every orderly run.** -/
theorem reachableIf
    (h : (exchangeSystem cmdargToText device).ReachableIf ExchangeOrderly s) :
    ExchangeOk device s :=
  h.invariant (fun _ => init) fun _ _ _ _ hs => hs.step

end ExchangeOk

end

end G7
