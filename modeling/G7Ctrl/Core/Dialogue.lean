import Mathlib.Tactic.Common

/-!
# Dialogues

A dialogue takes inputs one after the other and leaves a trace of events.  It ends with a value,
or early with a code, or the inputs are used up and it waits for the next one.

* `Dialogue.retry` — the loop that asks until it has an answer; what a round finds out may be
  carried into the next one.
* `Dialogue.Local` — the inputs behind those a dialogue takes have no influence on it.
* **`Dialogue.Local.bind_append`** — two dialogues one after the other, on the inputs of the first
  one and any others.
* **`Dialogue.retry_value`** — a value that comes out of a loop was accepted in one of its rounds.
-/

namespace G7

/-- Where a dialogue is when it has taken its inputs. -/
inductive Standing (ι ε α : Type*) where
  | waiting
  | ended (code : ε)
  | value (a : α) (rest : List ι)
  deriving DecidableEq

/-- What has happened, and where the dialogue is. -/
structure Turns (ι ω ε α : Type*) where
  trace : List ω
  standing : Standing ι ε α
  deriving DecidableEq

/-- The turns a dialogue takes on some inputs. -/
def Dialogue (ι ω ε α : Type*) := List ι → Turns ι ω ε α

/-- What one round of a loop comes to. -/
inductive Answer (σ ω ε α : Type*) where
  | accept (events : List ω) (a : α)
  | stop (events : List ω) (code : ε)
  | again (events : List ω) (s : σ)

section

variable {ι ω ε σ : Type*} {α β : Type*}

/-- The same turns after some events. -/
def Turns.after (events : List ω) (t : Turns ι ω ε α) : Turns ι ω ε α :=
  ⟨events ++ t.trace, t.standing⟩

@[simp] lemma Turns.after_nil (t : Turns ι ω ε α) : t.after [] = t := rfl

@[simp] lemma Turns.after_after (u v : List ω) (t : Turns ι ω ε α) :
    (t.after v).after u = t.after (u ++ v) := by
  simp [Turns.after]

@[simp] lemma Turns.trace_after (u : List ω) (t : Turns ι ω ε α) :
    (t.after u).trace = u ++ t.trace := rfl

@[simp] lemma Turns.standing_after (u : List ω) (t : Turns ι ω ε α) :
    (t.after u).standing = t.standing := rfl

lemma Turns.after_inj {u : List ω} {t t' : Turns ι ω ε α} : t.after u = t'.after u ↔ t = t' := by
  cases t
  cases t'
  simp [Turns.after]

lemma Turns.after_eq_iff {u trace : List ω} {t : Turns ι ω ε α} {standing : Standing ι ε α} :
    t.after u = ⟨trace, standing⟩ ↔ ∃ later, t = ⟨later, standing⟩ ∧ trace = u ++ later := by
  constructor
  · intro h
    injection h with htrace hstanding
    exact ⟨t.trace, by rw [← hstanding], htrace.symm⟩
  · rintro ⟨later, rfl, rfl⟩
    rfl

namespace Dialogue

/-- Leave some events. -/
def say (events : List ω) (d : Dialogue ι ω ε α) : Dialogue ι ω ε α :=
  fun inputs => (d inputs).after events

/-- End with a value. -/
def value (a : α) : Dialogue ι ω ε α := fun inputs => ⟨[], .value a inputs⟩

/-- End early. -/
def fail (code : ε) : Dialogue ι ω ε α := fun _ => ⟨[], .ended code⟩

/-- One dialogue after the other. -/
def andThen (d : Dialogue ι ω ε α) (f : α → Dialogue ι ω ε β) : Dialogue ι ω ε β :=
  fun inputs =>
    match (d inputs).standing with
    | .waiting => ⟨(d inputs).trace, .waiting⟩
    | .ended code => ⟨(d inputs).trace, .ended code⟩
    | .value a rest => (f a rest).after (d inputs).trace

instance {ι ω ε : Type*} : Monad (Dialogue ι ω ε) where
  pure := value
  bind := andThen

/-- Ask until there is an answer. -/
def retry (prompt : List ω) (answer : σ → ι → Answer σ ω ε α) : σ → Dialogue ι ω ε α
  | _, [] => ⟨prompt, .waiting⟩
  | s, i :: rest =>
      match answer s i with
      | .accept events a => ⟨prompt ++ events, .value a rest⟩
      | .stop events code => ⟨prompt ++ events, .ended code⟩
      | .again events s' => (retry prompt answer s' rest).after (prompt ++ events)

/-- The inputs behind those that are taken have no influence. -/
def Local (d : Dialogue ι ω ε α) : Prop :=
  ∀ inputs more trace a rest, d inputs = ⟨trace, .value a rest⟩ →
    d (inputs ++ more) = ⟨trace, .value a (rest ++ more)⟩

end Dialogue

end

/-! ## What a dialogue that ends with a value has done -/

namespace Dialogue

section

variable {ι ω ε α β σ : Type} {d : Dialogue ι ω ε α} {f : α → Dialogue ι ω ε β}
  {prompt : List ω} {answer : σ → ι → Answer σ ω ε α} {inputs rest : List ι} {trace : List ω}

@[simp] lemma say_apply (events : List ω) (inputs : List ι) :
    say events d inputs = (d inputs).after events := rfl

lemma bind_apply (d : Dialogue ι ω ε α) (f : α → Dialogue ι ω ε β) (inputs : List ι) :
    (d >>= f) inputs =
      match (d inputs).standing with
      | .waiting => ⟨(d inputs).trace, .waiting⟩
      | .ended code => ⟨(d inputs).trace, .ended code⟩
      | .value a rest => (f a rest).after (d inputs).trace := rfl

lemma pure_bind (a : α) : (pure a >>= f) = f a := by
  funext inputs
  exact Turns.after_nil _

/-- Three dialogues one after the other. -/
lemma bind_assoc {γ : Type} (d : Dialogue ι ω ε α) (f : α → Dialogue ι ω ε β)
    (g : β → Dialogue ι ω ε γ) : (d >>= f) >>= g = d >>= fun a => f a >>= g := by
  funext inputs
  rw [bind_apply, bind_apply, bind_apply]
  rcases d inputs with ⟨first, _ | code | ⟨a, mid⟩⟩
  · rfl
  · rfl
  · dsimp only
    rw [bind_apply, Turns.standing_after, Turns.trace_after]
    rcases f a mid with ⟨second, _ | code | ⟨b, rest⟩⟩
    · rfl
    · rfl
    · rw [Turns.after_after]

/-- The second dialogue goes on where the first one has ended. -/
lemma bind_of_value {a : α} (h : d inputs = ⟨trace, .value a rest⟩) :
    (d >>= f) inputs = (f a rest).after trace := by
  rw [bind_apply, h]

/-! A loop, and what comes after it, by what the first round comes to. -/

lemma retry_accept {s : σ} {i : ι} {events : List ω} {a : α} (h : answer s i = .accept events a) :
    retry prompt answer s (i :: inputs) = ⟨prompt ++ events, .value a inputs⟩ := by
  rw [retry, h]

lemma retry_stop {s : σ} {i : ι} {events : List ω} {code : ε}
    (h : answer s i = .stop events code) :
    retry prompt answer s (i :: inputs) = ⟨prompt ++ events, .ended code⟩ := by
  rw [retry, h]

lemma retry_again {s s' : σ} {i : ι} {events : List ω} (h : answer s i = .again events s') :
    retry prompt answer s (i :: inputs)
      = (retry prompt answer s' inputs).after (prompt ++ events) := by
  rw [retry, h]

lemma retry_bind_accept {s : σ} {i : ι} {events : List ω} {a : α}
    (h : answer s i = .accept events a) :
    (retry prompt answer s >>= f) (i :: inputs) = (f a inputs).after (prompt ++ events) :=
  bind_of_value (retry_accept h)

lemma retry_bind_stop {s : σ} {i : ι} {events : List ω} {code : ε}
    (h : answer s i = .stop events code) :
    (retry prompt answer s >>= f) (i :: inputs) = ⟨prompt ++ events, .ended code⟩ := by
  rw [bind_apply, retry_stop h]

lemma retry_bind_again {s s' : σ} {i : ι} {events : List ω} (h : answer s i = .again events s') :
    (retry prompt answer s >>= f) (i :: inputs)
      = ((retry prompt answer s' >>= f) inputs).after (prompt ++ events) := by
  rw [bind_apply, bind_apply, retry_again h]
  rcases retry prompt answer s' inputs with ⟨later, _ | code | ⟨a, rest⟩⟩
  · rfl
  · rfl
  · exact (Turns.after_after _ _ _).symm

/-- Two dialogues that end with a value do so one after the other. -/
lemma bind_value {b : β} (h : (d >>= f) inputs = ⟨trace, .value b rest⟩) :
    ∃ first a mid second, d inputs = ⟨first, .value a mid⟩ ∧
      f a mid = ⟨second, .value b rest⟩ ∧ trace = first ++ second := by
  rw [bind_apply] at h
  rcases hd : d inputs with ⟨first, _ | code | ⟨a, mid⟩⟩
  · rw [hd] at h
    cases h
  · rw [hd] at h
    cases h
  · rw [hd] at h
    obtain ⟨second, hf, htrace⟩ := Turns.after_eq_iff.mp h
    exact ⟨first, a, mid, second, rfl, hf, htrace⟩

/-- **A value was accepted in a round**, and in the rounds before it was asked again; `p` is what
every round leaves as it is. -/
theorem retry_value {p : σ → Prop} {q : List ω → α → Prop} {s : σ} {a : α} (hs : p s)
    (hagain : ∀ s i events s', p s → answer s i = .again events s' → p s' ∧
      ∀ rest, q rest a → q (prompt ++ events ++ rest) a)
    (haccept : ∀ s i events, p s → answer s i = .accept events a → q (prompt ++ events) a)
    (h : retry prompt answer s inputs = ⟨trace, .value a rest⟩) : q trace a := by
  induction inputs generalizing s trace with
  | nil => cases h
  | cons i inputs ih =>
      rw [retry] at h
      cases hanswer : answer s i with
      | accept events a' =>
          rw [hanswer] at h
          cases h
          exact haccept s i events hs hanswer
      | stop events code =>
          rw [hanswer] at h
          cases h
      | again events s' =>
          rw [hanswer] at h
          obtain ⟨hs', hmore⟩ := hagain s i events s' hs hanswer
          obtain ⟨later, hlater, rfl⟩ := Turns.after_eq_iff.mp h
          exact hmore later (ih hs' hlater)

/-! ## Inputs that have no influence -/

lemma local_pure (a : α) : Local (pure a : Dialogue ι ω ε α) := by
  intro inputs more trace b rest h
  cases h
  rfl

lemma local_fail (code : ε) : Local (fail code : Dialogue ι ω ε α) := by
  intro inputs more trace b rest h
  cases h

lemma Local.say (hd : d.Local) (events : List ω) : (say events d).Local := by
  intro inputs more trace a rest h
  obtain ⟨later, hlater, rfl⟩ := Turns.after_eq_iff.mp h
  rw [say_apply, hd inputs more later a rest hlater]
  rfl

lemma local_retry (prompt : List ω) (answer : σ → ι → Answer σ ω ε α) (s : σ) :
    (retry prompt answer s).Local := by
  intro inputs
  induction inputs generalizing s with
  | nil =>
      intro more trace a rest h
      cases h
  | cons i inputs ih =>
      intro more trace a rest h
      rw [retry] at h
      rw [List.cons_append, retry]
      cases hanswer : answer s i with
      | accept events b =>
          rw [hanswer] at h
          cases h
          rfl
      | stop events code =>
          rw [hanswer] at h
          cases h
      | again events s' =>
          rw [hanswer] at h
          obtain ⟨later, hlater, rfl⟩ := Turns.after_eq_iff.mp h
          simp only [ih s' more later a rest hlater]
          rfl

/-- **One dialogue after the other**, when the first one takes all of its inputs. -/
theorem Local.bind_append {a : α} (hd : d.Local) (h : d inputs = ⟨trace, .value a []⟩)
    (more : List ι) : (d >>= f) (inputs ++ more) = (f a more).after trace :=
  bind_of_value (by simpa using hd inputs more trace a [] h)

lemma Local.bind (hd : d.Local) (hf : ∀ a, (f a).Local) : (d >>= f).Local := by
  intro inputs more trace b rest h
  obtain ⟨first, a, mid, second, hfirst, hsecond, rfl⟩ := bind_value h
  rw [bind_of_value (hd inputs more first a mid hfirst), hf a mid more second b rest hsecond]
  rfl

end

end Dialogue

end G7
