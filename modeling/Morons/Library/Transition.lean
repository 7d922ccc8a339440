import Mathlib.Data.Int.NatAbs
import Mathlib.Logic.Relation
import Mathlib.Tactic.Common

/-!
# Transition systems

`Reachable start step` holds of the states a run of `step` reaches from a
state that `start` allows.  The rules: an invariant is shown for one step
(`Reachable.invariant`), a step may use invariants already known of the
state it leaves (`Reachable.invariant_using`), a system with fewer steps
reaches fewer states (`Reachable.mono`), and what is shown of a system holds
of every system it simulates (`Reachable.simulates`).
-/

namespace Transition

variable {State State' : Type} {start : State → Prop} {step : State → State → Prop}

def Reachable (start : State → Prop) (step : State → State → Prop) (s : State) : Prop :=
  ∃ s₀, start s₀ ∧ Relation.ReflTransGen step s₀ s

theorem reachable_start {s : State} (h : start s) : Reachable start step s :=
  ⟨s, h, Relation.ReflTransGen.refl⟩

theorem Reachable.next {s t : State} (h : Reachable start step s) (ht : step s t) :
    Reachable start step t := by
  obtain ⟨s₀, hs₀, hrun⟩ := h
  exact ⟨s₀, hs₀, hrun.tail ht⟩

/-- **Invariant rule**, with the reachability of the state the step leaves. -/
theorem Reachable.invariant_using {I : State → Prop} (hstart : ∀ s, start s → I s)
    (hstep : ∀ s t, Reachable start step s → I s → step s t → I t) {s : State}
    (h : Reachable start step s) : I s := by
  obtain ⟨s₀, hs₀, hrun⟩ := h
  induction hrun with
  | refl => exact hstart s₀ hs₀
  | tail hrun hlast ih => exact hstep _ _ ⟨s₀, hs₀, hrun⟩ ih hlast

/-- **Invariant rule.** -/
theorem Reachable.invariant {I : State → Prop} (hstart : ∀ s, start s → I s)
    (hstep : ∀ s t, I s → step s t → I t) {s : State} (h : Reachable start step s) : I s :=
  h.invariant_using hstart fun s t _ => hstep s t

theorem Reachable.mono {start' : State → Prop} {step' : State → State → Prop}
    (hstart : ∀ s, start s → start' s) (hstep : ∀ s t, step s t → step' s t) {s : State}
    (h : Reachable start step s) : Reachable start' step' s := by
  obtain ⟨s₀, hs₀, hrun⟩ := h
  exact ⟨s₀, hstart s₀ hs₀, Relation.ReflTransGen.mono hstep _ _ hrun⟩

/-- **Simulation rule.**  Every step of the first system is matched by any
number of steps of the second. -/
theorem Reachable.simulates {start' : State' → Prop} {step' : State' → State' → Prop}
    (abs : State → State') (hstart : ∀ s, start s → start' (abs s))
    (hstep : ∀ s t, Reachable start step s → step s t →
      Relation.ReflTransGen step' (abs s) (abs t)) {s : State}
    (h : Reachable start step s) : Reachable start' step' (abs s) := by
  refine h.invariant_using (I := fun s => Reachable start' step' (abs s))
    (fun s hs => reachable_start (hstart s hs)) ?_
  rintro s t hreach ⟨s₀, hs₀, hrun⟩ hst
  exact ⟨s₀, hs₀, hrun.trans (hstep s t hreach hst)⟩

end Transition
