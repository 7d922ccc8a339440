import Mathlib.Data.List.Induction
import Morons.Library.Attempt

/-!
# Streams cut into chunks

A decoder frames the bytes of a stream into records and processes the records
one after the other.  Where framing two chunks is framing their concatenation,
the way a stream is cut does not show in what the decoder accepts.
-/

namespace Chunked

open Attempt

variable {ε β ρ ν σ τ : Type}

/-- Process records in their order, collecting what each one emits. -/
def processAll (process : τ → ρ → Except ε (τ × List ν)) : τ → List ρ → Except ε (τ × List ν)
  | t, [] => .ok (t, [])
  | t, r :: rest => do
    let (t, first) ← process t r
    let (t, later) ← processAll process t rest
    return (t, first ++ later)

/-- Frame one chunk and process the records that end in it. -/
def push (frame : σ → List β → Except ε (σ × List ρ)) (process : τ → ρ → Except ε (τ × List ν))
    (d : σ × τ) (chunk : List β) : Except ε ((σ × τ) × List ν) := do
  let (framing, records) ← frame d.1 chunk
  let (decoding, emitted) ← processAll process d.2 records
  return ((framing, decoding), emitted)

/-- Push chunk after chunk. -/
def pushAll (frame : σ → List β → Except ε (σ × List ρ))
    (process : τ → ρ → Except ε (τ × List ν)) :
    σ × τ → List (List β) → Except ε ((σ × τ) × List ν)
  | d, [] => .ok (d, [])
  | d, chunk :: rest => do
    let (d, first) ← push frame process d chunk
    let (d, later) ← pushAll frame process d rest
    return (d, first ++ later)

/-- Framing does not depend on where a chunk ends. -/
structure Seamless (frame : σ → List β → Except ε (σ × List ρ)) : Prop where
  nil : ∀ s, frame s [] = .ok (s, [])
  append : ∀ s a b s₂ records, frame s (a ++ b) = .ok (s₂, records) ↔
    ∃ s₁ first later, frame s a = .ok (s₁, first) ∧ frame s₁ b = .ok (s₂, later) ∧
      records = first ++ later

variable {frame : σ → List β → Except ε (σ × List ρ)} {process : τ → ρ → Except ε (τ × List ν)}

theorem processAll_cons {t t₂ : τ} {r : ρ} {rest : List ρ} {emitted : List ν} :
    processAll process t (r :: rest) = .ok (t₂, emitted) ↔
      ∃ t₁ first later, process t r = .ok (t₁, first) ∧
        processAll process t₁ rest = .ok (t₂, later) ∧ emitted = first ++ later := by
  simp only [processAll, bind_ok, pure_ok, Prod.exists, Prod.mk.injEq]
  constructor
  · rintro ⟨t₁, first, hfirst, _, later, hlater, rfl, rfl⟩
    exact ⟨t₁, first, later, hfirst, hlater, rfl⟩
  · rintro ⟨t₁, first, later, hfirst, hlater, rfl⟩
    exact ⟨t₁, first, hfirst, t₂, later, hlater, rfl, rfl⟩

theorem processAll_singleton {t t₂ : τ} {r : ρ} {emitted : List ν} :
    processAll process t [r] = .ok (t₂, emitted) ↔ process t r = .ok (t₂, emitted) := by
  rw [processAll_cons]
  constructor
  · rintro ⟨t₁, first, later, hfirst, hlater, rfl⟩
    obtain ⟨rfl, rfl⟩ := Prod.mk.inj (Except.ok.inj hlater)
    rw [List.append_nil, hfirst]
  · intro h
    exact ⟨t₂, emitted, [], h, rfl, (List.append_nil emitted).symm⟩

theorem processAll_append {t t₂ : τ} {first later : List ρ} {emitted : List ν} :
    processAll process t (first ++ later) = .ok (t₂, emitted) ↔
      ∃ t₁ before after, processAll process t first = .ok (t₁, before) ∧
        processAll process t₁ later = .ok (t₂, after) ∧ emitted = before ++ after := by
  induction first generalizing t emitted with
  | nil =>
    constructor
    · intro h
      exact ⟨t, [], emitted, rfl, h, rfl⟩
    · rintro ⟨_, _, _, ⟨⟩, h, rfl⟩
      exact h
  | cons r rest ih =>
    simp only [List.cons_append, processAll, bind_ok, pure_ok, Prod.exists, Prod.mk.injEq]
    constructor
    · rintro ⟨t₁, one, hone, t₃, all, hall, rfl, rfl⟩
      obtain ⟨t₄, before, after, hbefore, hafter, rfl⟩ := ih.mp hall
      exact ⟨t₄, one ++ before, after, ⟨t₁, one, hone, t₄, before, hbefore, rfl, rfl⟩, hafter,
        by rw [List.append_assoc]⟩
    · rintro ⟨t₄, _, after, ⟨t₁, one, hone, t₃, before, hbefore, rfl, rfl⟩, hafter, rfl⟩
      exact ⟨t₁, one, hone, t₂, before ++ after, ih.mpr ⟨t₃, before, after, hbefore, hafter, rfl⟩,
        rfl, by rw [List.append_assoc]⟩

theorem push_ok {d d₂ : σ × τ} {chunk : List β} {emitted : List ν} :
    push frame process d chunk = .ok (d₂, emitted) ↔
      ∃ records, frame d.1 chunk = .ok (d₂.1, records) ∧
        processAll process d.2 records = .ok (d₂.2, emitted) := by
  simp only [push, bind_ok, pure_ok, Prod.exists, Prod.mk.injEq]
  constructor
  · rintro ⟨s, records, hframe, t, _, hprocess, rfl, rfl⟩
    exact ⟨records, hframe, hprocess⟩
  · rintro ⟨records, hframe, hprocess⟩
    exact ⟨d₂.1, records, hframe, d₂.2, emitted, hprocess, rfl, rfl⟩

/-- Pushing chunks is pushing their concatenation. -/
theorem pushAll_flatten (seamless : Seamless frame) {d d₂ : σ × τ} {chunks : List (List β)}
    {emitted : List ν} :
    pushAll frame process d chunks = .ok (d₂, emitted) ↔
      push frame process d chunks.flatten = .ok (d₂, emitted) := by
  induction chunks generalizing d emitted with
  | nil =>
    simp only [pushAll, List.flatten_nil, push_ok, seamless.nil, Except.ok.injEq, Prod.mk.injEq]
    constructor
    · rintro ⟨rfl, rfl⟩
      exact ⟨[], ⟨rfl, rfl⟩, rfl⟩
    · rintro ⟨_, ⟨hframing, rfl⟩, hdone⟩
      simp only [processAll, Except.ok.injEq, Prod.mk.injEq] at hdone
      exact ⟨Prod.ext hframing hdone.1, hdone.2⟩
  | cons chunk rest ih =>
    simp only [pushAll, List.flatten_cons, bind_ok, pure_ok]
    constructor
    · rintro ⟨⟨d₁, before⟩, hfirst, ⟨d₃, after⟩, hrest, hout⟩
      obtain ⟨rfl, rfl⟩ := Prod.mk.inj hout
      obtain ⟨first, hframe, hprocess⟩ := push_ok.mp hfirst
      obtain ⟨later, hframe', hprocess'⟩ := push_ok.mp (ih.mp hrest)
      exact push_ok.mpr ⟨first ++ later,
        (seamless.append _ _ _ _ _).mpr ⟨_, first, later, hframe, hframe', rfl⟩,
        processAll_append.mpr ⟨_, before, after, hprocess, hprocess', rfl⟩⟩
    · intro h
      obtain ⟨records, hframe, hprocess⟩ := push_ok.mp h
      obtain ⟨s₁, first, later, hfirst, hlater, rfl⟩ := (seamless.append _ _ _ _ _).mp hframe
      obtain ⟨t₁, before, after, hbefore, hafter, rfl⟩ := processAll_append.mp hprocess
      exact ⟨((s₁, t₁), before), push_ok.mpr ⟨first, hfirst, hbefore⟩, (d₂, after),
        ih.mpr (push_ok.mpr ⟨later, hlater, hafter⟩), rfl⟩

/-- A decoder in state `t` comes to the record `r` while chunks are pushed. -/
def Reaches (frame : σ → List β → Except ε (σ × List ρ)) (process : τ → ρ → Except ε (τ × List ν)) :
    σ × τ → List (List β) → τ → ρ → Prop
  | _, [], _, _ => False
  | d, chunk :: rest, t, r =>
    (∃ framing records earlier later emitted, frame d.1 chunk = .ok (framing, records) ∧
      records = earlier ++ r :: later ∧ processAll process d.2 earlier = .ok (t, emitted)) ∨
    ∃ d₁ emitted, push frame process d chunk = .ok (d₁, emitted) ∧
      Reaches frame process d₁ rest t r

theorem failsWith_processAll {P : ε → Prop} {t : τ} {records : List ρ} :
    FailsWith P (processAll process t records) ↔
      ∀ earlier r later t₁ emitted, records = earlier ++ r :: later →
        processAll process t earlier = .ok (t₁, emitted) → FailsWith P (process t₁ r) := by
  induction records generalizing t with
  | nil => simp [processAll]
  | cons r rest ih =>
    simp only [processAll, failsWith_bind, failsWith_pure, implies_true, and_true, Prod.forall, ih]
    constructor
    · rintro ⟨hfirst, hrest⟩ earlier r' later t₁ emitted hsplit hearlier
      cases earlier with
      | nil =>
        obtain ⟨rfl, -⟩ := List.cons.inj hsplit
        obtain ⟨rfl, -⟩ := Prod.mk.inj (Except.ok.inj hearlier)
        exact hfirst
      | cons first earlier =>
        obtain ⟨rfl, htail⟩ := List.cons.inj hsplit
        obtain ⟨t₂, one, more, hone, hmore, -⟩ := processAll_cons.mp hearlier
        exact hrest t₂ one hone earlier r' later t₁ more htail hmore
    · intro h
      refine ⟨h [] r rest t [] rfl rfl, fun t₂ one hone earlier r' later t₁ more hsplit hmore => ?_⟩
      exact h (r :: earlier) r' later t₁ (one ++ more) (congrArg _ hsplit)
        (processAll_cons.mpr ⟨t₂, one, more, hone, hmore, rfl⟩)

/-- Where framing fails with `P` alone, so does the whole if and only if every
record that is reached does. -/
theorem failsWith_pushAll {P : ε → Prop} (framed : ∀ s chunk, FailsWith P (frame s chunk))
    {d : σ × τ} {chunks : List (List β)} :
    FailsWith P (pushAll frame process d chunks) ↔
      ∀ t r, Reaches frame process d chunks t r → FailsWith P (process t r) := by
  induction chunks generalizing d with
  | nil => simp [pushAll, Reaches]
  | cons chunk rest ih =>
    simp only [pushAll, push, failsWith_bind, failsWith_pure, implies_true, and_true, framed,
      true_and, Prod.forall, failsWith_processAll]
    constructor
    · rintro ⟨hnow, hlater⟩ t r (⟨s, _, earlier, later, emitted, hframe, rfl, hearlier⟩ |
        ⟨d₁, emitted, hpush, hreach⟩)
      · exact hnow s _ hframe earlier r later t emitted rfl hearlier
      · exact ih.mp (hlater d₁.1 d₁.2 emitted hpush) t r hreach
    · intro h
      refine ⟨fun s records hframe earlier r later t emitted hsplit hearlier => ?_,
        fun s t emitted hpush => ih.mpr fun t₁ r hreach => ?_⟩
      · exact h t r (.inl ⟨s, records, earlier, later, emitted, hframe, hsplit, hearlier⟩)
      · exact h t₁ r (.inr ⟨(s, t), emitted, hpush, hreach⟩)

/-- What holds of no records, and of one record more whenever it holds, holds of all. -/
theorem processAll_induction {P : List ρ → τ → List ν → Prop} {start t : τ} {records : List ρ}
    {emitted : List ν} (h : processAll process start records = .ok (t, emitted))
    (nil : P [] start [])
    (step : ∀ done t₁ before r t₂ more, P done t₁ before → process t₁ r = .ok (t₂, more) →
      P (done ++ [r]) t₂ (before ++ more)) : P records t emitted := by
  induction records using List.reverseRecOn generalizing t emitted with
  | nil =>
    obtain ⟨rfl, rfl⟩ := Prod.mk.inj (Except.ok.inj h)
    exact nil
  | append_singleton rest r ih =>
    obtain ⟨t₁, before, more, hrest, hlast, rfl⟩ := processAll_append.mp h
    simp only [processAll, bind_ok, pure_ok, Prod.exists, Prod.mk.injEq, Except.ok.injEq] at hlast
    obtain ⟨_, _, hrecord, _, _, ⟨rfl, rfl⟩, rfl, rfl⟩ := hlast
    rw [List.append_nil]
    exact step _ _ _ _ _ _ (ih hrest) hrecord

/-- What every record preserves, the records of a stream preserve. -/
theorem processAll_invariant {P : τ → Prop}
    (step : ∀ t r t₁ emitted, process t r = .ok (t₁, emitted) → P t → P t₁) {t t₂ : τ}
    {records : List ρ} {emitted : List ν} (h : processAll process t records = .ok (t₂, emitted))
    (start : P t) : P t₂ :=
  processAll_induction (P := fun _ t _ => P t) h start
    fun _ t₁ _ r t₂ more hold hstep => step t₁ r t₂ more hstep hold

end Chunked
