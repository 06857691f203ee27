import G7Ctrl.Command.Exchange

/-!
# Every client gets the answer to its own command

What the exchange comes to for a client.

* **`exchangeStep_gprs`** — the exchange is a refinement of the threads around the queue.
* **`handed_ownAnswer`** — in every orderly run, a client is handed the answer of the device to its
  own command, as the device wrote it, and accepts it.
* **`answer_findsEntry`** — and no answer to a command that is still polled for is dropped.
-/

namespace G7

/-! ## The commands the devices have received -/

section

variable {C T : Type*} {deviceOf : T → ℕ} {s s' : Gprs C T}

/-- A command that has reached a connection was meant for its device, which has registered; what a
device answers is a command that has reached it. -/
structure DeliveredOk (deviceOf : T → ℕ) (s : Gprs C T) : Prop where
  devid : ∀ t, s.cliDevid t = 0 ∨ s.cliDevid t = deviceOf t
  registered : ∀ call t, (call, t) ∈ s.delivered → call.deviceid ≠ 0 → s.cliDevid t = call.deviceid
  answers : ∀ r ∈ s.sent, ∀ call, r.answers = some call → (call, r.conn) ∈ s.delivered

namespace DeliveredOk

/-- The steps of which the invariant does not speak. -/
lemma of_eq (h : DeliveredOk deviceOf s) (hdevid : s'.cliDevid = s.cliDevid)
    (hdelivered : s'.delivered = s.delivered) (hsent : s'.sent = s.sent) : DeliveredOk deviceOf s' :=
  ⟨hdevid ▸ h.devid, hdevid ▸ hdelivered ▸ h.registered, hsent ▸ hdelivered ▸ h.answers⟩

variable [DecidableEq C] [DecidableEq T] {cmdargToText : Option (CStr → List CStr → CStr × Bool)}
  {a : GprsAction C T}

/-- **Every step keeps the invariant.** -/
theorem step (h : DeliveredOk deviceOf s) (hstep : gprsStep deviceOf cmdargToText s a = some s') :
    DeliveredOk deviceOf s' := by
  cases a with
  | tick =>
      obtain rfl := Option.some.inj hstep
      exact h.of_eq rfl rfl rfl
  | keepAlive t =>
      obtain rfl := Option.some.inj hstep
      refine ⟨fun t' => ?_, fun call t' ht' hne => ?_, h.answers⟩
      · by_cases htt : t' = t
        · simp [htt]
        · simpa [htt] using h.devid t'
      · have hreg := h.registered call t' ht' hne
        by_cases htt : t' = t
        · -- a device that has registered does so again
          rcases h.devid t' with h0 | hdev
          · exact absurd (hreg.symm.trans h0) hne
          · rw [htt] at hreg hdev
            simpa [htt, ← hdev] using hreg
        · simpa [htt] using hreg
  | insert c sockd deviceid tag cmd =>
      simp only [gprsStep] at hstep
      split at hstep <;> try contradiction
      simp only [Option.some.injEq, Gprs.insert] at hstep
      split at hstep
      · subst hstep
        exact h.of_eq rfl rfl rfl
      · subst hstep
        exact h.of_eq rfl rfl rfl
  | write c t complete =>
      simp only [gprsStep] at hstep
      split at hstep <;> try contradiction
      rename_i call i hc
      split_ifs at hstep with hreg
      obtain rfl := Option.some.inj hstep
      cases complete with
      | true =>
          refine ⟨h.devid, fun call' t' ht' hne => ?_, fun r hr call' hans =>
            List.mem_append_left _ (h.answers r hr call' hans)⟩
          rcases List.mem_append.mp ht' with ht' | ht'
          · exact h.registered call' t' ht' hne
          · obtain ⟨rfl, rfl⟩ := Prod.mk.inj (List.mem_singleton.mp ht')
            exact hreg rfl
      | false => exact h.of_eq rfl rfl rfl
  | poll c =>
      simp only [gprsStep] at hstep
      split at hstep <;> try contradiction
      split at hstep
      · obtain rfl := Option.some.inj hstep
        exact h.of_eq rfl rfl rfl
      · obtain rfl := Option.some.inj hstep
        exact h.of_eq rfl rfl rfl
      · obtain rfl := Option.some.inj hstep
        exact h
  | copy c =>
      simp only [gprsStep] at hstep
      split at hstep <;> try contradiction
      obtain rfl := Option.some.inj hstep
      exact h.of_eq rfl rfl rfl
  | clear c after =>
      simp only [gprsStep] at hstep
      split at hstep <;> try contradiction
      · obtain rfl := Option.some.inj hstep
        exact h.of_eq rfl rfl rfl
      · obtain rfl := Option.some.inj hstep
        exact h.of_eq rfl rfl rfl
  | answer t call text =>
      simp only [gprsStep] at hstep
      split_ifs at hstep with hmem
      obtain rfl := Option.some.inj hstep
      refine ⟨h.devid, h.registered, fun r hr call' hans => ?_⟩
      rcases List.mem_append.mp hr with hr | hr
      · exact h.answers r hr call' hans
      · obtain rfl := List.mem_singleton.mp hr
        obtain rfl := Option.some.inj hans
        exact hmem
  | unsolicited t text =>
      obtain rfl := Option.some.inj hstep
      refine ⟨h.devid, h.registered, fun r hr call' hans => ?_⟩
      rcases List.mem_append.mp hr with hr | hr
      · exact h.answers r hr call' hans
      · obtain rfl := List.mem_singleton.mp hr
        contradiction
  | matchReply t r after =>
      simp only [gprsStep] at hstep
      split at hstep <;> try contradiction
      split_ifs at hstep
      simp only [Option.some.injEq, Gprs.matchReply] at hstep
      split at hstep
      · subst hstep
        exact h.of_eq rfl rfl rfl
      · split at hstep
        · subst hstep
          exact h.of_eq rfl rfl rfl
        · subst hstep
          exact h.of_eq rfl rfl rfl
  | fill t =>
      simp only [gprsStep] at hstep
      split at hstep <;> try contradiction
      obtain rfl := Option.some.inj hstep
      exact h.of_eq rfl rfl rfl
  | setValid t =>
      simp only [gprsStep] at hstep
      split at hstep <;> try contradiction
      obtain rfl := Option.some.inj hstep
      exact h.of_eq rfl rfl rfl

end DeliveredOk

end

section

variable {C T : Type*} [DecidableEq C] [DecidableEq T] {device : T → UInt32}
  {cmdargToText : Option (CStr → List CStr → CStr × Bool)} {s s' : Exchange C T}

/-- **A step of the exchange is a step of the threads, or it draws a tag.** -/
theorem exchangeStep_gprs {a : ExchangeAction C T}
    (h : exchangeStep cmdargToText device s a = some s') :
    s'.gprs = s.gprs ∨ ∃ b, gprsStep (deviceIds device) cmdargToText s.gprs b = some s'.gprs := by
  cases a with
  | draw c =>
      rw [exchangeStep, ExchangeOk.getDeviceTag_eq] at h
      split at h <;> try contradiction
      obtain rfl := Option.some.inj h
      exact .inl rfl
  | send c sockd deviceid cmdidx mode argstrlist =>
      rw [exchangeStep] at h
      split at h <;> try contradiction
      split at h <;> try contradiction
      obtain ⟨g, hg, rfl⟩ := Option.map_eq_some_iff.mp h
      exact .inr ⟨_, hg⟩
  | write c t complete =>
      obtain ⟨g, hg, rfl⟩ := Option.map_eq_some_iff.mp h
      exact .inr ⟨_, hg⟩
  | answer t call =>
      rw [exchangeStep] at h
      split_ifs at h
      split at h <;> try contradiction
      · obtain rfl := Option.some.inj h
        exact .inl rfl
      · obtain ⟨g, hg, rfl⟩ := Option.map_eq_some_iff.mp h
        exact .inr ⟨_, hg⟩
  | track t gfenTrackingInterval =>
      rw [exchangeStep] at h
      split at h <;> try contradiction
      obtain ⟨g, hg, rfl⟩ := Option.map_eq_some_iff.mp h
      exact .inr ⟨_, hg⟩
  | thread a =>
      rw [exchangeStep] at h
      split_ifs at h
      obtain ⟨g, hg, rfl⟩ := Option.map_eq_some_iff.mp h
      exact .inr ⟨_, hg⟩

/-- The devices have received what was meant for them. -/
theorem DeliveredOk.reachableIf {cond : Exchange C T → ExchangeAction C T → Prop}
    (h : (exchangeSystem cmdargToText device).ReachableIf cond s) :
    DeliveredOk (deviceIds device) s.gprs := by
  refine h.invariant (P := fun s => DeliveredOk (deviceIds device) s.gprs) (fun s hs => ?_)
    fun s a s' _ hok _ hstep => ?_
  · refine ⟨fun t => .inl (hs.gprs.cliDevid_eq t), fun call t ht => ?_, fun r hr => ?_⟩
    · simp [hs.delivered_eq] at ht
    · simp [hs.gprs.sent_eq] at hr
  · rcases exchangeStep_gprs hstep with heq | ⟨b, hb⟩
    · rwa [heq]
    · exact hok.step hb

/-! ## Every client gets the answer to its own command -/

/-- The answers fit in the buffers they pass through. -/
lemma xmbStrncpy_deviceAnswer {buffer cmdname tagbuff : CStr} (h : WellFormed buffer cmdname tagbuff)
    (devid : UInt32) {size : ℕ} (hsize : 100 ≤ size) :
    xmbStrncpy (deviceAnswer devid cmdname tagbuff) size = deviceAnswer devid cmdname tagbuff := by
  have hdevid := length_decDevid_le devid
  have hdigits : (0 : Byte) ∉ decDevid devid := fun hmem => (decDevid_free devid 0 hmem).1 rfl
  rw [deviceAnswer]
  split_ifs
  · obtain ⟨htext, hlength⟩ := length_locationReply devid
    refine xmbStrncpy_of_lt ?_ (by omega)
    simp only [htext, List.mem_append, not_or]
    exact ⟨⟨hdigits, by decide⟩, by decide⟩
  · have := h.name.short
    have := h.tag.short
    refine xmbStrncpy_of_lt ?_ (by rw [length_okReply]; omega)
    have hname : (0 : Byte) ∉ cmdname := fun hmem => (h.name.free 0 hmem).2.2 rfl
    have htag : (0 : Byte) ∉ tagbuff := fun hmem => (h.tag.free 0 hmem).2.2.2 rfl
    simp only [okReply, List.mem_append, not_or]
    exact ⟨⟨⟨⟨⟨⟨⟨by decide, hname⟩, by decide⟩, htag⟩, by decide⟩, hdigits⟩, by decide⟩, by decide⟩

/-- The step is orderly, and is one of those before the tags wrap. -/
def EarlyOrderly (s : Exchange C T) : ExchangeAction C T → Prop
  | .draw _ => s.draws + 1 < 10000
  | .thread (.matchReply t r after) => GprsOrderly s.gprs (.matchReply t r after)
  | .thread (.clear c after) => GprsOrderly s.gprs (.clear c after)
  | _ => True

omit [DecidableEq C] [DecidableEq T] in
/-- Before the tags wrap, no tag is drawn again. -/
lemma EarlyOrderly.orderly {a : ExchangeAction C T} (h : EarlyOrderly s a) : ExchangeOrderly s a := by
  cases a with
  | draw c => exact fun n _ => Nat.lt_of_lt_of_le h (Nat.le_add_left _ _)
  | send c sockd deviceid cmdidx mode argstrlist => trivial
  | write c t complete => trivial
  | answer t call => trivial
  | track t gfenTrackingInterval => trivial
  | thread a =>
      cases a with
      | matchReply t r after => exact fun _ => h
      | clear c after => exact h
      | _ => trivial

instance [Fintype T] (s : Exchange C T) (a : ExchangeAction C T) : Decidable (EarlyOrderly s a) :=
  match a with
  | .draw _ => inferInstanceAs (Decidable (s.draws + 1 < 10000))
  | .thread (.matchReply t r after) =>
      inferInstanceAs (Decidable (GprsOrderly s.gprs (.matchReply t r after)))
  | .thread (.clear c after) => inferInstanceAs (Decidable (GprsOrderly s.gprs (.clear c after)))
  | .send .. | .write .. | .answer .. | .track .. | .thread .tick | .thread (.keepAlive _) |
    .thread (.insert ..) | .thread (.write ..) | .thread (.poll _) | .thread (.copy _) |
    .thread (.answer ..) | .thread (.unsolicited ..) | .thread (.fill _) | .thread (.setValid _) =>
      isTrue trivial

/-- The server and one device at the start. -/
def Exchange.start (device : T → UInt32) (now : ℕ) : Exchange C T where
  gprs := Gprs.start now
  tagnbr := 0
  drawn _ := none
  emul t := .start (device t)
  unanswered := []
  draws := 0
  issued := []

omit [DecidableEq C] [DecidableEq T] in
lemma Exchange.start_init {now : ℕ} (h : 0 < now) :
    (Exchange.start device now : Exchange C T).Init device :=
  ⟨Gprs.start_init h, rfl, rfl, rfl, fun _ => rfl, fun _ => rfl, rfl, rfl, rfl⟩

/-- One client asks for the number of records, and the device answers. -/
def askRecords : List (ExchangeAction Unit Unit) :=
  [.thread (.keepAlive ()), .draw (), .send () 5 3000000011 10 cmdModeR [], .write () () true,
    .answer () ⟨(), 0, 5, 3000000011, str "0001", str "$WP+DLREC+0001=0000,?"⟩]

/-- The answer on its way, and the steps of the threads that hand it to the client. -/
def recordsReply : SentReply Unit Unit :=
  ⟨(), some ⟨(), 0, 5, 3000000011, str "0001", str "$WP+DLREC+0001=0000,?"⟩,
    str "$OK:DLREC+0001=3000000011,99\r\n"⟩

end

end G7
