import Morons.Library.Attempt

/-!
# Attempts that change a state

A computation of `EStateM` ends with a value or with a failure, and a failure
keeps what was changed before it.  `Ends` says what holds at either end; it is
computed along the steps of a `do`-block by the rules below.
-/

namespace Effect

variable {ε σ α β : Type} {x : EStateM ε σ α} {s : σ} {a : α} {e : ε}
  {returns : α → σ → Prop} {fails : ε → σ → Prop}

/-- From `s` on, a value of `x` satisfies `returns` with the last state, and a
failure satisfies `fails`. -/
def Ends (x : EStateM ε σ α) (s : σ) (returns : α → σ → Prop) (fails : ε → σ → Prop) : Prop :=
  match x.run s with
  | .ok a t => returns a t
  | .error e t => fails e t

@[simp] theorem ends_pure : Ends (pure a : EStateM ε σ α) s returns fails ↔ returns a s := Iff.rfl

@[simp] theorem ends_throw : Ends (throw e : EStateM ε σ α) s returns fails ↔ fails e s := Iff.rfl

@[simp] theorem ends_get {returns : σ → σ → Prop} :
    Ends (get : EStateM ε σ σ) s returns fails ↔ returns s s := Iff.rfl

@[simp] theorem ends_modify {f : σ → σ} {returns : PUnit → σ → Prop} :
    Ends (modify f : EStateM ε σ PUnit) s returns fails ↔ returns ⟨⟩ (f s) := Iff.rfl

/-- A sequence ends as its second part does where the first returns. -/
@[simp] theorem ends_bind {f : α → EStateM ε σ β} {returns : β → σ → Prop} :
    Ends (x >>= f) s returns fails ↔ Ends x s (fun a t => Ends (f a) t returns fails) fails := by
  unfold Ends
  rw [EStateM.run_bind]
  cases x.run s with
  | ok a t => rfl
  | error e t => rfl

/-- A fallible computation that does not look at the state. -/
@[simp] theorem ends_ofExcept {y : Except ε α} :
    Ends (ofExcept y : EStateM ε σ α) s returns fails ↔
      (∀ a, y = .ok a → returns a s) ∧ ∀ e, y = .error e → fails e s := by
  cases y with
  | ok a => simp [ofExcept]
  | error e => simp [ofExcept]

/-- A computation that was shown to end in one way ends in every weaker one. -/
theorem Ends.mono {returns' : α → σ → Prop} {fails' : ε → σ → Prop} (h : Ends x s returns fails)
    (hreturns : ∀ a t, returns a t → returns' a t) (hfails : ∀ e t, fails e t → fails' e t) :
    Ends x s returns' fails' := by
  unfold Ends at h ⊢
  cases hrun : x.run s with
  | ok a t =>
    rw [hrun] at h
    exact hreturns a t h
  | error e t =>
    rw [hrun] at h
    exact hfails e t h

theorem Ends.of_ok {t : σ} (h : Ends x s returns fails) (hrun : x.run s = .ok a t) :
    returns a t := by
  unfold Ends at h
  rwa [hrun] at h

theorem Ends.of_error {t : σ} (h : Ends x s returns fails) (hrun : x.run s = .error e t) :
    fails e t := by
  unfold Ends at h
  rwa [hrun] at h

end Effect
