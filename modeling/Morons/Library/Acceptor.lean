import Mathlib.Data.Int.NatAbs
import Mathlib.Data.List.Induction
import Mathlib.Tactic.Common

/-!
# Acceptors

A state that takes inputs one after the other until it refuses one.  What holds
between two inputs of a run is shown with `run_keep`: a property that the first
establishes and the inputs in between keep.
-/

namespace Acceptor

variable {σ α : Type} {step : σ → α → Option σ}

/-- The state after a list of inputs, all of them taken. -/
def run (step : σ → α → Option σ) : σ → List α → Option σ
  | s, [] => some s
  | s, a :: as => (step s a).bind fun t => run step t as

/-- The inputs that are taken before the first that is refused. -/
def accepted (step : σ → α → Option σ) : σ → List α → List α
  | _, [] => []
  | s, a :: as =>
    match step s a with
    | some t => a :: accepted step t as
    | none => []

theorem run_nil (s : σ) : run step s [] = some s := rfl

theorem run_cons {s u : σ} {a : α} {as : List α} :
    run step s (a :: as) = some u ↔ ∃ t, step s a = some t ∧ run step t as = some u :=
  Option.bind_eq_some_iff

theorem run_append {s u : σ} {as bs : List α} :
    run step s (as ++ bs) = some u ↔ ∃ t, run step s as = some t ∧ run step t bs = some u := by
  induction as generalizing s with
  | nil => simp [run_nil]
  | cons a as ih =>
    simp only [List.cons_append, run_cons, ih]
    constructor
    · rintro ⟨t, ht, v, hv, hu⟩
      exact ⟨v, ⟨t, ht, hv⟩, hu⟩
    · rintro ⟨v, ⟨t, ht, hv⟩, hu⟩
      exact ⟨t, ht, v, hv, hu⟩

theorem run_singleton {s t : σ} {a : α} : run step s [a] = some t ↔ step s a = some t := by
  simp [run_cons, run_nil]

theorem accepted_prefix (step : σ → α → Option σ) (s : σ) (as : List α) :
    accepted step s as <+: as := by
  induction as generalizing s with
  | nil => exact List.nil_prefix
  | cons a as ih =>
    rw [accepted]
    split
    · exact (List.prefix_cons_inj a).mpr (ih _)
    · exact List.nil_prefix

theorem run_accepted (step : σ → α → Option σ) (s : σ) (as : List α) :
    ∃ t, run step s (accepted step s as) = some t := by
  induction as generalizing s with
  | nil => exact ⟨s, rfl⟩
  | cons a as ih =>
    rw [accepted]
    split
    case h_1 t ht =>
      obtain ⟨u, hu⟩ := ih t
      exact ⟨u, run_cons.mpr ⟨t, ht, hu⟩⟩
    case h_2 => exact ⟨s, rfl⟩

/-- **Run rule.**  What holds of no inputs, and of one input more whenever it holds,
holds of all inputs taken. -/
theorem run_induction {P : List α → σ → Prop} {s t : σ} {as : List α}
    (h : run step s as = some t) (start : P [] s)
    (next : ∀ done t a u, P done t → step t a = some u → P (done ++ [a]) u) : P as t := by
  induction as using List.reverseRecOn generalizing t with
  | nil =>
    obtain rfl := Option.some.inj h
    exact start
  | append_singleton as a ih =>
    obtain ⟨u, hu, hlast⟩ := run_append.mp h
    exact next as u a t (ih hu) (run_singleton.mp hlast)

/-- **Between rule.**  What the inputs keep, apart from exceptions, a run without
exceptions keeps. -/
theorem run_keep {P : σ → Prop} {exception : α → Prop}
    (keep : ∀ s a t, P s → ¬ exception a → step s a = some t → P t) {s t : σ} {as : List α}
    (h : run step s as = some t) (hs : P s) (hnone : ∀ a ∈ as, ¬ exception a) : P t := by
  induction as generalizing s with
  | nil =>
    obtain rfl := Option.some.inj h
    exact hs
  | cons a as ih =>
    obtain ⟨u, hu, hrest⟩ := run_cons.mp h
    rw [List.forall_mem_cons] at hnone
    exact ih hrest (keep s a u hs hnone.1 hu) hnone.2

/-- Between an input that establishes a property and one that refutes it there is an exception. -/
theorem exists_exception {P : σ → Prop} {exception : α → Prop}
    (keep : ∀ s a t, P s → ¬ exception a → step s a = some t → P t) {s u : σ}
    {before between : List α} {first last : α} {after : List α}
    (h : run step s (before ++ first :: (between ++ last :: after)) = some u)
    (hfirst : ∀ s t, step s first = some t → P t)
    (hlast : ∀ s t, P s → step s last = some t → False) : ∃ a ∈ between, exception a := by
  by_contra hnone
  push Not at hnone
  obtain ⟨s₁, -, h₁⟩ := run_append.mp h
  obtain ⟨s₂, hs₂, h₂⟩ := run_cons.mp h₁
  obtain ⟨s₃, hs₃, h₃⟩ := run_append.mp h₂
  obtain ⟨s₄, hs₄, -⟩ := run_cons.mp h₃
  exact hlast s₃ s₄ (run_keep keep hs₃ (hfirst s₁ s₂ hs₂) hnone) hs₄

end Acceptor
