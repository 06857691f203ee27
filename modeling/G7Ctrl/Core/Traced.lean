import G7Ctrl.Core.Memory

/-!
# Traced runs

A checked run that performs actions on its way.  What it performs does not depend on what becomes of
the actions, so a run is the list of its actions and how it ends.

* `Traced` — a run with its actions, a monad.
* `Emits` — the run performs some actions and is done.
* **`emits_bind_iff`** — a run in two parts performs the actions of the first and then of the second.
-/

namespace G7

/-- The actions of a run, and how it ends. -/
structure Traced (A α : Type) where
  trace : List A
  result : Checked α

namespace Traced

variable {A α β : Type}

/-- What follows a run that is done. -/
def bind (x : Traced A α) (f : α → Traced A β) : Traced A β :=
  match x.result with
  | .done a => ⟨x.trace ++ (f a).trace, (f a).result⟩
  | .fault => ⟨x.trace, .fault⟩
  | .timeout => ⟨x.trace, .timeout⟩

instance : Monad (Traced A) where
  pure a := ⟨[], .done a⟩
  bind := bind

/-- One action. -/
def emit (a : A) : Traced A Unit := ⟨[a], .done ()⟩

/-- A run without actions. -/
def lift (x : Checked α) : Traced A α := ⟨[], x⟩

/-- The run performs these actions and is done. -/
def Emits (x : Traced A α) (as : List A) (a : α) : Prop := x = ⟨as, .done a⟩

lemma emits_lift_iff {x : Checked α} {as : List A} {a : α} :
    (lift x : Traced A α).Emits as a ↔ as = [] ∧ x = .done a := by
  rw [Emits, lift, mk.injEq, eq_comm (a := [])]

lemma emits_lift {x : Checked α} {a : α} (h : x = .done a) : (lift x : Traced A α).Emits [] a :=
  emits_lift_iff.mpr ⟨rfl, h⟩

/-- **A run in two parts.** -/
theorem emits_bind_iff {x : Traced A α} {f : α → Traced A β} {cs : List A} {b : β} :
    (x >>= f).Emits cs b ↔ ∃ as a bs, x.Emits as a ∧ (f a).Emits bs b ∧ cs = as ++ bs := by
  obtain ⟨trace, result⟩ := x
  cases result with
  | done a =>
      constructor
      · intro h
        have htrace := congrArg Traced.trace h
        have hresult := congrArg Traced.result h
        refine ⟨trace, a, (f a).trace, rfl, ?_, htrace.symm⟩
        rw [Emits]
        exact congrArg (Traced.mk (f a).trace) hresult
      · rintro ⟨as, a', bs, hx, hf, rfl⟩
        cases hx
        rw [Emits] at hf ⊢
        change (⟨trace ++ (f a).trace, (f a).result⟩ : Traced A β) = _
        rw [hf]
  | fault =>
      constructor
      · intro h
        exact nomatch congrArg Traced.result h
      · rintro ⟨as, a', bs, hx, -⟩
        exact nomatch congrArg Traced.result hx
  | timeout =>
      constructor
      · intro h
        exact nomatch congrArg Traced.result h
      · rintro ⟨as, a', bs, hx, -⟩
        exact nomatch congrArg Traced.result hx

lemma Emits.bind {x : Traced A α} {f : α → Traced A β} {as bs : List A} {a : α} {b : β}
    (hx : x.Emits as a) (hf : (f a).Emits bs b) : (x >>= f).Emits (as ++ bs) b :=
  emits_bind_iff.mpr ⟨as, a, bs, hx, hf, rfl⟩

lemma Emits.unique {x : Traced A α} {as bs : List A} {a b : α} (h : x.Emits as a)
    (h' : x.Emits bs b) : as = bs ∧ a = b := by
  have heq := h.symm.trans h'
  cases heq
  exact ⟨rfl, rfl⟩

end Traced

end G7
