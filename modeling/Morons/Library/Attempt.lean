import Mathlib.Data.Int.NatAbs
import Mathlib.Tactic.Common

/-!
# Attempts

A fallible computation is a value of `Except ε α`.  A run of `do`-steps that
succeeds is taken apart one step at a time: `bind_ok` names the value of the
step, `require_ok` turns a guard into the fact it checked.
-/

namespace Attempt

variable {ε α β : Type}

/-- Succeed when `c` holds, otherwise fail with `e`. -/
def require (c : Prop) [Decidable c] (e : ε) : Except ε Unit :=
  if c then .ok () else .error e

/-- The value of an option, or the failure `e`. -/
def demand (e : ε) : Option α → Except ε α
  | some a => .ok a
  | none => .error e

/-- Fail with the error that was found, if any. -/
def refuse : Option ε → Except ε Unit
  | some e => .error e
  | none => .ok ()

@[simp] theorem bind_ok (x : Except ε α) (f : α → Except ε β) (b : β) :
    (x >>= f) = .ok b ↔ ∃ a, x = .ok a ∧ f a = .ok b := by
  cases x with
  | error e => simp [bind, Except.bind]
  | ok a => simp [bind, Except.bind]

/-- A sequence fails with the failure of its first step, or with that of the rest. -/
theorem bind_error (x : Except ε α) (f : α → Except ε β) (e : ε) :
    (x >>= f) = .error e ↔ x = .error e ∨ ∃ a, x = .ok a ∧ f a = .error e := by
  cases x with
  | error e => simp [bind, Except.bind]
  | ok a => simp [bind, Except.bind]

/-- A sequence of steps succeeds when the first step does and then the rest. -/
theorem bind_succeeds (x : Except ε α) (f : α → Except ε β) :
    (∃ b, (x >>= f) = .ok b) ↔ ∃ a, x = .ok a ∧ ∃ b, f a = .ok b := by
  simp only [bind_ok]
  constructor
  · rintro ⟨b, a, hx, hf⟩
    exact ⟨a, hx, b, hf⟩
  · rintro ⟨a, hx, b, hf⟩
    exact ⟨b, a, hx, hf⟩

theorem pure_succeeds (a : α) : ∃ b, (pure a : Except ε α) = .ok b := ⟨a, rfl⟩

@[simp] theorem pure_ok (a b : α) : (pure a : Except ε α) = .ok b ↔ a = b := by
  simp [pure, Except.pure]

theorem map_ok (x : Except ε α) (f : α → β) (b : β) :
    x.map f = .ok b ↔ ∃ a, x = .ok a ∧ f a = b := by
  cases x <;> simp [Except.map]

@[simp] theorem mapError_ok {ε' : Type} (f : ε → ε') (x : Except ε α) (b : α) :
    x.mapError f = .ok b ↔ x = .ok b := by
  cases x <;> simp [Except.mapError]

@[simp] theorem throw_ok (e : ε) (b : α) : ¬ (throw e : Except ε α) = .ok b := by
  simp [throw, throwThe, MonadExceptOf.throw]

@[simp] theorem require_ok (c : Prop) [Decidable c] (e : ε) (u : Unit) :
    require c e = .ok u ↔ c := by
  unfold require
  split <;> simp_all

theorem require_error (c : Prop) [Decidable c] (e e' : ε) :
    require c e = .error e' ↔ ¬ c ∧ e = e' := by
  unfold require
  split <;> simp_all

theorem demand_error (e e' : ε) (o : Option α) : demand e o = .error e' ↔ o = none ∧ e = e' := by
  cases o <;> simp [demand]

@[simp] theorem demand_ok (e : ε) (o : Option α) (a : α) :
    demand e o = .ok a ↔ o = some a := by
  cases o <;> simp [demand]

@[simp] theorem refuse_ok (o : Option ε) (u : Unit) : refuse o = .ok u ↔ o = none := by
  cases o <;> simp [refuse]

/-- Every failure of a computation is one of `P`. -/
def FailsWith (P : ε → Prop) (x : Except ε α) : Prop := ∀ e, x = .error e → P e

section FailsWith

variable {P Q : ε → Prop} {x y : Except ε α}

@[simp] theorem failsWith_ok (a : α) : FailsWith P (.ok a) := by
  intro e h
  cases h

@[simp] theorem failsWith_pure (a : α) : FailsWith P (pure a : Except ε α) := failsWith_ok a

@[simp] theorem failsWith_error (e : ε) : FailsWith P (.error e : Except ε α) ↔ P e := by
  constructor
  · intro h
    exact h e rfl
  · rintro he _ ⟨⟩
    exact he

@[simp] theorem failsWith_throw (e : ε) : FailsWith P (throw e : Except ε α) ↔ P e :=
  failsWith_error e

/-- The failures of a sequence are those of its first step and those of the rest. -/
@[simp] theorem failsWith_bind (f : α → Except ε β) :
    FailsWith P (x >>= f) ↔ FailsWith P x ∧ ∀ a, x = .ok a → FailsWith P (f a) := by
  cases x with
  | error e => simp [FailsWith, bind, Except.bind]
  | ok a => simp [FailsWith, bind, Except.bind]

@[simp] theorem failsWith_map (f : α → β) : FailsWith P (x.map f) ↔ FailsWith P x := by
  cases x <;> simp [Except.map]

@[simp] theorem failsWith_mapError {ε' : Type} {P : ε' → Prop} (f : ε → ε') :
    FailsWith P (x.mapError f) ↔ FailsWith (fun e => P (f e)) x := by
  cases x <;> simp [Except.mapError]

@[simp] theorem failsWith_functor (f : α → β) : FailsWith P (f <$> x) ↔ FailsWith P x :=
  failsWith_map f

@[simp] theorem failsWith_require (c : Prop) [Decidable c] (e : ε) :
    FailsWith P (require c e) ↔ (¬ c → P e) := by
  unfold require
  split <;> simp_all

@[simp] theorem failsWith_demand (e : ε) (o : Option α) :
    FailsWith P (demand e o) ↔ (o = none → P e) := by
  cases o <;> simp [demand]

@[simp] theorem failsWith_ite (c : Prop) [Decidable c] :
    FailsWith P (if c then x else y) ↔ (c → FailsWith P x) ∧ (¬ c → FailsWith P y) := by
  split <;> simp_all

theorem FailsWith.mono (h : FailsWith P x) (hPQ : ∀ e, P e → Q e) : FailsWith Q x :=
  fun e he => hPQ e (h e he)

end FailsWith

/-- Run `f` over a list from left to right, threading a state. -/
def sweep {σ : Type} (f : σ → α → Except ε σ) : σ → List α → Except ε σ
  | s, [] => .ok s
  | s, a :: as => do
    let s ← f s a
    sweep f s as

@[simp] theorem sweep_nil {σ : Type} (f : σ → α → Except ε σ) (s : σ) :
    sweep f s [] = .ok s := rfl

theorem sweep_cons_ok {σ : Type} (f : σ → α → Except ε σ) (s t : σ) (a : α) (as : List α) :
    sweep f s (a :: as) = .ok t ↔ ∃ u, f s a = .ok u ∧ sweep f u as = .ok t := by
  rw [sweep, bind_ok]

theorem sweep_append_ok {σ : Type} (f : σ → α → Except ε σ) (s t : σ) (as bs : List α) :
    sweep f s (as ++ bs) = .ok t ↔ ∃ u, sweep f s as = .ok u ∧ sweep f u bs = .ok t := by
  induction as generalizing s with
  | nil => simp
  | cons a as ih =>
    rw [List.cons_append, sweep_cons_ok]
    constructor
    · rintro ⟨v, hv, h⟩
      obtain ⟨u, hu, ht⟩ := (ih v).mp h
      exact ⟨u, (sweep_cons_ok f s u a as).mpr ⟨v, hv, hu⟩, ht⟩
    · rintro ⟨u, hu, ht⟩
      obtain ⟨v, hv, hu⟩ := (sweep_cons_ok f s u a as).mp hu
      exact ⟨v, hv, (ih v).mpr ⟨u, hu, ht⟩⟩

theorem sweep_append {σ : Type} (f : σ → α → Except ε σ) (s : σ) (as bs : List α) :
    sweep f s (as ++ bs) = sweep f s as >>= fun t => sweep f t bs := by
  induction as generalizing s with
  | nil => rfl
  | cons a as ih =>
    rw [List.cons_append, sweep, sweep]
    cases f s a with
    | error e => rfl
    | ok t => exact ih t

/-- **Loop rule.**  What every round keeps, the whole sweep keeps. -/
theorem sweep_keeps {σ : Type} (f : σ → α → Except ε σ) (I : σ → Prop) (as : List α)
    (round : ∀ s t, ∀ a ∈ as, I s → f s a = .ok t → I t) (s t : σ) (hs : I s)
    (h : sweep f s as = .ok t) : I t := by
  induction as generalizing s with
  | nil =>
    rw [sweep_nil] at h
    cases h
    exact hs
  | cons a as ih =>
    obtain ⟨u, hu, ht⟩ := (sweep_cons_ok f s t a as).mp h
    have hI : I u := round s u a (List.mem_cons_self ..) hs hu
    exact ih (fun s t b hb => round s t b (List.mem_cons_of_mem _ hb)) u hI ht

/-- **Collecting rule.**  Where each round adds what it collects, the sweep adds all of it. -/
theorem sweep_collects {σ : Type} {f : σ → α → Except ε σ} {I : σ → List β → Prop}
    {collected : α → List β} {as : List α}
    (round : ∀ s t done, ∀ a ∈ as, I s done → f s a = .ok t → I t (done ++ collected a))
    {s t : σ} {done : List β} (hs : I s done) (h : sweep f s as = .ok t) :
    I t (done ++ as.flatMap collected) := by
  induction as generalizing s done with
  | nil =>
    cases h
    rwa [List.flatMap_nil, List.append_nil]
  | cons a as ih =>
    obtain ⟨u, hu, ht⟩ := (sweep_cons_ok f s t a as).mp h
    have hI := round s u done a (List.mem_cons_self ..) hs hu
    rw [List.flatMap_cons, ← List.append_assoc]
    exact ih (fun s t done b hb => round s t done b (List.mem_cons_of_mem _ hb)) hI ht

/-- **Progress rule.**  A sweep succeeds when every round does, from each
state in which the rest of the list is still to come. -/
theorem sweep_succeeds {σ : Type} (f : σ → α → Except ε σ) (I : σ → List α → Prop)
    (round : ∀ s a as, I s (a :: as) → ∃ t, f s a = .ok t ∧ I t as) (s : σ) (as : List α)
    (hs : I s as) : ∃ t, sweep f s as = .ok t ∧ I t [] := by
  induction as generalizing s with
  | nil => exact ⟨s, rfl, hs⟩
  | cons a as ih =>
    obtain ⟨u, hu, hI⟩ := round s a as hs
    obtain ⟨t, ht, hT⟩ := ih u hI
    exact ⟨t, (sweep_cons_ok f s t a as).mpr ⟨u, hu, ht⟩, hT⟩

/-- **Remainder rule.**  What every round keeps of a state and the rest of the list, a sweep
over the front of the list keeps. -/
theorem sweep_remainder {σ : Type} {f : σ → α → Except ε σ} {I : σ → List α → Prop}
    (round : ∀ s t a as, I s (a :: as) → f s a = .ok t → I t as) {s t : σ} {as bs : List α}
    (hs : I s (as ++ bs)) (h : sweep f s as = .ok t) : I t bs := by
  induction as generalizing s with
  | nil =>
    cases h
    exact hs
  | cons a as ih =>
    obtain ⟨u, hu, ht⟩ := (sweep_cons_ok f s t a as).mp h
    exact ih (round s u a _ hs hu) ht

/-- **Totals.**  A sweep that admits each element by itself and adds it to a state that
stays within bounds admits a list when it admits the elements and the end is within bounds. -/
theorem sweep_totals {σ : Type} {f : σ → α → Except ε σ} {admitted : α → Prop} {add : σ → α → σ}
    {within : σ → Prop}
    (round : ∀ s a t, within s → (f s a = .ok t ↔ admitted a ∧ t = add s a ∧ within t))
    (back : ∀ s a, within (add s a) → within s) {s t : σ} {as : List α} (hs : within s) :
    sweep f s as = .ok t ↔ (∀ a ∈ as, admitted a) ∧ t = as.foldl add s ∧ within t := by
  have early : ∀ (as : List α) (s : σ), within (as.foldl add s) → within s := by
    intro as
    induction as with
    | nil => exact fun _ h => h
    | cons a as ih => exact fun s h => back s a (ih _ h)
  induction as generalizing s with
  | nil =>
    rw [sweep_nil, List.foldl_nil]
    constructor
    · intro h
      cases h
      exact ⟨nofun, rfl, hs⟩
    · rintro ⟨-, rfl, -⟩
      rfl
  | cons a as ih =>
    rw [sweep_cons_ok, List.forall_mem_cons, List.foldl_cons]
    constructor
    · rintro ⟨u, hu, ht⟩
      obtain ⟨ha, rfl, hwithin⟩ := (round s a u hs).mp hu
      obtain ⟨has, rfl, hend⟩ := (ih hwithin).mp ht
      exact ⟨⟨ha, has⟩, rfl, hend⟩
    · rintro ⟨⟨ha, has⟩, rfl, hend⟩
      have hwithin : within (add s a) := early as _ hend
      exact ⟨_, (round s a _ hs).mpr ⟨ha, rfl, hwithin⟩, (ih hwithin).mpr ⟨has, rfl, hend⟩⟩

/-- A run over a list fails where one of its elements does. -/
theorem failsWith_sweep {σ : Type} {P : ε → Prop} {f : σ → α → Except ε σ} {s : σ} {as : List α} :
    FailsWith P (sweep f s as) ↔
      ∀ earlier a later t, as = earlier ++ a :: later → sweep f s earlier = .ok t →
        FailsWith P (f t a) := by
  induction as generalizing s with
  | nil => simp
  | cons a as ih =>
    simp only [sweep, failsWith_bind, ih]
    constructor
    · rintro ⟨hfirst, hrest⟩ earlier b later t hsplit hearlier
      cases earlier with
      | nil =>
        obtain ⟨rfl, -⟩ := List.cons.inj hsplit
        obtain rfl := Except.ok.inj hearlier
        exact hfirst
      | cons first earlier =>
        obtain ⟨rfl, htail⟩ := List.cons.inj hsplit
        obtain ⟨u, hu, hmore⟩ := (sweep_cons_ok f s t _ earlier).mp hearlier
        exact hrest u hu earlier b later t htail hmore
    · intro h
      refine ⟨h [] a as s rfl rfl, fun u hu earlier b later t hsplit hearlier => ?_⟩
      exact h (a :: earlier) b later t (congrArg _ hsplit)
        ((sweep_cons_ok f s t a earlier).mpr ⟨u, hu, hearlier⟩)

theorem failsWith_mapM {P : ε → Prop} {f : α → Except ε β} {as : List α}
    (step : ∀ a ∈ as, FailsWith P (f a)) : FailsWith P (as.mapM f) := by
  induction as with
  | nil => simp
  | cons a as ih =>
    obtain ⟨ha, has⟩ := List.forall_mem_cons.mp step
    simp only [List.mapM_cons, failsWith_bind, failsWith_pure, implies_true, and_true]
    exact ⟨ha, fun _ _ => ih has⟩

/-- Elements that are read from what they were written from. -/
theorem mapM_map_ok {f : α → Except ε β} {g : β → α} (h : ∀ b, f (g b) = .ok b) (bs : List β) :
    (bs.map g).mapM f = .ok bs := by
  induction bs with
  | nil => rfl
  | cons b bs ih =>
    rw [List.map_cons, List.mapM_cons, bind_ok]
    refine ⟨b, h b, ?_⟩
    rw [bind_ok]
    exact ⟨bs, ih, rfl⟩

/-- A list is read when each of its elements is. -/
theorem mapM_ok_iff {f : α → Except ε β} {as : List α} {bs : List β} :
    as.mapM f = .ok bs ↔ List.Forall₂ (fun a b => f a = .ok b) as bs := by
  induction as generalizing bs with
  | nil =>
    rw [List.mapM_nil, pure_ok]
    constructor
    · rintro rfl
      exact .nil
    · intro h
      cases h
      rfl
  | cons a as ih =>
    simp only [List.mapM_cons, bind_ok, pure_ok]
    constructor
    · rintro ⟨b, hb, bs', hbs, rfl⟩
      exact .cons hb (ih.mp hbs)
    · intro h
      cases h with
      | cons hb hbs => exact ⟨_, hb, _, ih.mpr hbs, rfl⟩

theorem mapM_succeeds {f : α → Except ε β} {as : List α} (h : ∀ a ∈ as, ∃ b, f a = .ok b) :
    ∃ bs, as.mapM f = .ok bs := by
  induction as with
  | nil => exact ⟨[], rfl⟩
  | cons a as ih =>
    obtain ⟨b, hb⟩ := h a (List.mem_cons_self ..)
    obtain ⟨bs, hbs⟩ := ih fun a ha => h a (List.mem_cons_of_mem _ ha)
    exact ⟨b :: bs, mapM_ok_iff.mpr (.cons hb (mapM_ok_iff.mp hbs))⟩

theorem mapM_congr {f g : α → Except ε β} {as : List α} (h : ∀ a ∈ as, f a = g a) :
    as.mapM f = as.mapM g := by
  induction as with
  | nil => rfl
  | cons a as ih =>
    rw [List.mapM_cons, List.mapM_cons, h a (List.mem_cons_self ..),
      ih fun a ha => h a (List.mem_cons_of_mem _ ha)]

theorem mapM_mem {f : α → Except ε β} {as : List α} {bs : List β} (h : as.mapM f = .ok bs) {b : β}
    (hb : b ∈ bs) : ∃ a ∈ as, f a = .ok b := by
  have hall := mapM_ok_iff.mp h
  clear h
  induction hall with
  | nil => cases hb
  | cons hfirst _ ih =>
    rcases List.mem_cons.mp hb with rfl | hb
    · exact ⟨_, List.mem_cons_self .., hfirst⟩
    · obtain ⟨a, ha, hread⟩ := ih hb
      exact ⟨a, List.mem_cons_of_mem _ ha, hread⟩

theorem mem_mapM {f : α → Except ε β} {as : List α} {bs : List β} (h : as.mapM f = .ok bs) {a : α}
    (ha : a ∈ as) : ∃ b ∈ bs, f a = .ok b := by
  have hall := mapM_ok_iff.mp h
  clear h
  induction hall with
  | nil => cases ha
  | cons hfirst _ ih =>
    rcases List.mem_cons.mp ha with rfl | ha
    · exact ⟨_, List.mem_cons_self .., hfirst⟩
    · obtain ⟨b, hb, hread⟩ := ih ha
      exact ⟨b, List.mem_cons_of_mem _ hb, hread⟩

/-- Elements that are chosen before or after they are read. -/
theorem mapM_filter {f : α → Except ε β} {p : α → Bool} {q : β → Bool}
    (hchosen : ∀ a b, f a = .ok b → q b = p a) {as : List α} {bs : List β}
    (h : as.mapM f = .ok bs) : (as.filter p).mapM f = .ok (bs.filter q) := by
  have hall := mapM_ok_iff.mp h
  clear h
  induction hall with
  | nil => rfl
  | @cons a b _ _ hfirst _ ih =>
    rw [List.filter_cons, List.filter_cons, hchosen a b hfirst]
    split
    · exact mapM_ok_iff.mpr (.cons hfirst (mapM_ok_iff.mp ih))
    · exact ih

theorem mapM_take {f : α → Except ε β} {as : List α} {bs : List β} (h : as.mapM f = .ok bs) (n : Nat) :
    (as.take n).mapM f = .ok (bs.take n) := by
  have hall := mapM_ok_iff.mp h
  clear h
  induction hall generalizing n with
  | nil => simp [pure, Except.pure]
  | cons hfirst _ ih =>
    cases n with
    | zero => rfl
    | succ n => exact mapM_ok_iff.mpr (.cons hfirst (mapM_ok_iff.mp (ih n)))

/-- A check of every element succeeds when each of them passes. -/
theorem forM_ok {as : List α} {f : α → Except ε Unit} :
    as.forM f = .ok () ↔ ∀ a ∈ as, f a = .ok () := by
  induction as with
  | nil => simp [pure, Except.pure]
  | cons a as ih =>
    rw [List.forM_eq_forM, List.forM_cons, ← List.forM_eq_forM, bind_ok, List.forall_mem_cons, ← ih]
    constructor
    · rintro ⟨⟨⟩, ha, has⟩
      exact ⟨ha, has⟩
    · rintro ⟨ha, has⟩
      exact ⟨(), ha, has⟩

/-- A transaction that ends with an error is rolled back. -/
def transact {σ : Type} (s : σ) : Except ε (α × σ) → Except ε α × σ
  | .ok (a, t) => (.ok a, t)
  | .error e => (.error e, s)

theorem transact_error {σ : Type} {s t : σ} {x : Except ε (α × σ)} {e : ε}
    (h : transact s x = (.error e, t)) : t = s := by
  cases x with
  | ok a => cases h
  | error e' =>
    cases h
    rfl

end Attempt
