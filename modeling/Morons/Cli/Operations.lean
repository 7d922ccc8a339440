import Mathlib.Data.List.Forall2
import Morons.Cli.Represents

/-!
# Editing a prompt

A prompt is edited by its operations, in any order.  `NamedPrompt` keeps next to it the
name that each marker was inserted with: a marker stands for that name as long as it is
kept, wherever the text around it moves it.
-/

namespace Morons.Cli

open Utf8 Pieces

inductive PromptOperation
  | pushCharacter (c : Char)
  | pushPaste (paste : List Char)
  | setCursor (position : Nat)
  | moveLeft | moveRight
  | moveVertical (down : Bool)
  | backspace
  | pushImageMarker (displayName : List Char)
  | truncate (bytes : Nat)
  | completeSkill (name : List Char)
  | clear
  deriving DecidableEq

def PromptOperation.apply (b : PromptBuffer) : PromptOperation → PromptBuffer
  | pushCharacter c => (b.pushCharacter c).1
  | pushPaste paste => b.pushPaste paste
  | setCursor position => b.setCursor position
  | moveLeft => b.moveLeft
  | moveRight => b.moveRight
  | moveVertical down => b.moveVertical down
  | backspace => b.backspace
  | pushImageMarker displayName => ((b.pushImageMarker displayName).map (·.1)).getD b
  | truncate bytes => (b.truncate bytes).1
  | completeSkill name => (b.completeSkill name).1
  | clear => b.clear

/-- A prompt with the names that its markers were inserted with, in their order. -/
structure NamedPrompt where
  prompt : PromptBuffer := {}
  inserted : List (List Char) := []
  deriving DecidableEq

namespace NamedPrompt

/-- The names of the markers that are kept. -/
def keep (p : NamedPrompt) (kept : Nat × Nat → Bool) : List (List Char) :=
  ((p.prompt.markers.zip p.inserted).filter fun m => kept m.1).map (·.2)

def apply (p : NamedPrompt) (operation : PromptOperation) : NamedPrompt where
  prompt := operation.apply p.prompt
  inserted :=
    match operation with
    | .backspace => p.keep fun m =>
        decide (m.2 ≤ p.prompt.moveLeft.cursor) || decide (p.prompt.cursor ≤ m.1)
    | .truncate bytes =>
      if (p.prompt.truncate bytes).2 then p.keep fun m => decide (m.2 ≤ bytes) else p.inserted
    | .pushImageMarker displayName =>
      if (p.prompt.pushImageMarker displayName).isSome then p.inserted ++ [displayName]
      else p.inserted
    | .clear => []
    | _ => p.inserted

/-- What holds of a prompt at any time. -/
structure Sound (p : NamedPrompt) : Prop where
  bounded : size p.prompt.text ≤ maxPromptBytes
  /-- The cursor is a character boundary within the text, and not within a marker. -/
  boundary : (split p.prompt.text p.prompt.cursor).isSome = true
  within : p.prompt.cursor ≤ size p.prompt.text
  outside : ∀ m ∈ p.prompt.markers, ¬ (m.1 < p.prompt.cursor ∧ p.prompt.cursor < m.2)
  /-- The markers are places of the text that do not overlap. -/
  places : ∀ m ∈ p.prompt.markers, m.1 < m.2 ∧ m.2 ≤ size p.prompt.text
  disjoint : p.prompt.markers.Pairwise fun a b => a.2 ≤ b.1 ∨ b.2 ≤ a.1
  /-- A marker covers the characters that were inserted for it. -/
  covers : List.Forall₂ (fun m name => slice p.prompt.text m.1 m.2 = some (PromptBuffer.marker name))
    p.prompt.markers p.inserted
  /-- A marker is looked up within the text, and one that is found is there. -/
  lookedUp : ∀ m ∈ p.prompt.markers,
    m.1 + 1 ≤ m.2 - 1 ∧ (slice p.prompt.text (m.1 + 1) (m.2 - 1)).isSome = true
  found : ∀ name start, p.prompt.markerStart name = some start →
    ∃ stop, (start, stop) ∈ p.prompt.markers ∧
      slice p.prompt.text start stop = some (PromptBuffer.marker name)

end NamedPrompt

/-! ## Markers that are carried along -/

section Carries

variable {b b' b'' : PromptBuffer} {l r : List Piece}

/-- The markers are moved, and cover what they covered. -/
def Carries (b b' : PromptBuffer) : Prop :=
  ∃ move : Nat × Nat → Nat × Nat, b'.markers = b.markers.map move ∧
    ∀ m ∈ b.markers, slice b'.text (move m).1 (move m).2 = slice b.text m.1 m.2

theorem Carries.of_same (htext : b'.text = b.text) (hmarkers : b'.markers = b.markers) :
    Carries b b' :=
  ⟨id, by rw [hmarkers, List.map_id], fun m _ => by rw [htext]; rfl⟩

theorem Carries.refl (b : PromptBuffer) : Carries b b := of_same rfl rfl

theorem Carries.trans (h : Carries b b') (h' : Carries b' b'') : Carries b b'' := by
  obtain ⟨move, hmarkers, hslices⟩ := h
  obtain ⟨move', hmarkers', hslices'⟩ := h'
  refine ⟨move' ∘ move, by rw [hmarkers', hmarkers, List.map_map], fun m hm => ?_⟩
  have hmoved : move m ∈ b'.markers := by
    rw [hmarkers]
    exact List.mem_map_of_mem hm
  exact (hslices' (move m) hmoved).trans (hslices m hm)

theorem carries_pushVisible (h : Represents b l r) (c : Char) : Carries b (b.pushVisible c).1 := by
  by_cases hfits : size b.text + c.utf8Size ≤ maxPromptBytes
  · have hpush := (h.pushVisible_fits hfits).2
    have htext := hpush.written
    rw [PromptBuffer.pushVisible, if_neg (by omega)] at htext ⊢
    refine ⟨_, rfl, fun m hm => ?_⟩
    have hspan := h.marks.mem_iff.mp hm
    rw [spans_append, List.mem_append, Nat.zero_add] at hspan
    simp only at htext
    rcases hspan with hspan | hspan
    · have hbounds := spans_bounds (a := m.1) (b := m.2) hspan
      have hlt := span_lt h.marked.left.solid (a := m.1) (b := m.2) hspan
      have hcursor := h.between
      rw [if_neg (by omega), htext, h.written, List.append_assoc]
      exact slice_left hspan _ _
    · have hbounds := spans_bounds (a := m.1) (b := m.2) hspan
      have hlt := span_lt h.marked.right.solid (a := m.1) (b := m.2) hspan
      have hcursor := h.between
      have hwidth : width (l ++ [.plain c]) = width l + c.utf8Size := by simp [Piece.chars]
      have hstart : m.1 - width l + width (l ++ [.plain c]) = m.1 + c.utf8Size := by omega
      have hstop : m.2 - width l + width (l ++ [.plain c]) = m.2 + c.utf8Size := by omega
      rw [if_pos (by omega), htext, h.written]
      simp only
      rw [← hstart, ← hstop]
      exact slice_right hspan _
  · rw [PromptBuffer.pushVisible, if_pos (by omega)]
    exact Carries.refl b

theorem carries_pushRepeated (h : Represents b l r) (c : Char) (n : Nat) :
    Carries b (b.pushRepeated c n).1 := by
  induction n generalizing b l with
  | zero => exact Carries.refl b
  | succ n ih =>
    have hfirst := carries_pushVisible h c
    obtain ⟨l', h', -⟩ := h.pushVisible c
    rw [PromptBuffer.pushRepeated]
    split
    case h_1 b₁ hpush =>
      rw [hpush] at hfirst h'
      exact hfirst.trans (ih h')
    case h_2 b₁ hpush =>
      rw [hpush] at hfirst
      exact hfirst

theorem carries_pushCharacter (h : Represents b l r) (c : Char) :
    Carries b (b.pushCharacter c).1 := by
  unfold PromptBuffer.pushCharacter
  split
  · exact carries_pushRepeated h ' ' tabWidth
  split
  · exact carries_pushVisible h c
  split
  · exact Carries.refl b
  · exact carries_pushVisible h c

theorem carries_pushPaste (h : Represents b l r) (paste : List Char) :
    Carries b (b.pushPaste paste) := by
  induction paste generalizing b l with
  | nil => exact Carries.refl b
  | cons c rest ih =>
    have hfirst := carries_pushCharacter h c
    obtain ⟨l', h', -⟩ := h.pushCharacter c
    rw [PromptBuffer.pushPaste]
    split
    · exact hfirst
    · exact hfirst.trans (ih h')

theorem carries_pushAll (h : Represents b l r) (cs : List Char) :
    Carries b (cs.foldl (fun b c => (b.pushVisible c).1) b) := by
  induction cs generalizing b l with
  | nil => exact Carries.refl b
  | cons c rest ih =>
    obtain ⟨l', h', -⟩ := h.pushVisible c
    exact (carries_pushVisible h c).trans (ih h')

/-- A marker is pushed character by character. -/
theorem pushImageMarker_some {displayName : List Char} {start : Nat}
    (hpush : b.pushImageMarker displayName = some (b', start)) :
    start = b.cursor ∧
      b'.text = ((PromptBuffer.marker displayName).foldl (fun b c => (b.pushVisible c).1) b).text ∧
      b'.markers = ((PromptBuffer.marker displayName).foldl (fun b c => (b.pushVisible c).1)
        b).markers ++ [(b.cursor, b'.cursor)] := by
  unfold PromptBuffer.pushImageMarker at hpush
  split at hpush
  · cases hpush
  split at hpush
  · cases hpush
  split at hpush
  case isFalse => cases hpush
  case isTrue =>
    obtain ⟨rfl, rfl⟩ := Prod.mk.inj (Option.some.inj hpush)
    exact ⟨rfl, rfl, rfl⟩

/-- Moving the cursor changes neither the text nor the markers. -/
theorem setCursor_same (b : PromptBuffer) (position : Nat) :
    (b.setCursor position).text = b.text ∧ (b.setCursor position).markers = b.markers := by
  unfold PromptBuffer.setCursor
  split <;> exact ⟨rfl, rfl⟩

theorem moveLeft_same (b : PromptBuffer) :
    b.moveLeft.text = b.text ∧ b.moveLeft.markers = b.markers := by
  unfold PromptBuffer.moveLeft
  split <;> exact ⟨rfl, rfl⟩

theorem moveRight_same (b : PromptBuffer) :
    b.moveRight.text = b.text ∧ b.moveRight.markers = b.markers := by
  unfold PromptBuffer.moveRight
  split
  · exact ⟨rfl, rfl⟩
  · exact setCursor_same b _

theorem moveVertical_same (b : PromptBuffer) (down : Bool) :
    (b.moveVertical down).text = b.text ∧ (b.moveVertical down).markers = b.markers := by
  unfold PromptBuffer.moveVertical
  simp only
  split
  · exact ⟨rfl, rfl⟩
  · exact setCursor_same b _

/-- A completion writes behind all markers. -/
theorem carries_completeSkill (h : Represents b l r) (name : List Char) :
    Carries b (b.completeSkill name).1 := by
  rcases h.completeSkill_parts name with hsame | ⟨l₀, r₀, written, hps, -, hspans, -, hwritten, hdone⟩
  · rw [hsame]
    exact Carries.refl b
  · rw [hdone]
    refine ⟨id, by rw [List.map_id], fun m hm => ?_⟩
    have hspan := h.marks.mem_iff.mp hm
    rw [hps, spans_append, Nat.zero_add, hspans, List.append_nil] at hspan
    show slice written m.1 m.2 = slice b.text m.1 m.2
    rw [hwritten, h.written, hps]
    exact slice_left hspan _ _

/-- What is kept by a backspace covers what it covered. -/
theorem backspace_slice (h : Represents b l r) {m : Nat × Nat} (hm : m ∈ b.markers)
    (hkept : m.2 ≤ b.moveLeft.cursor ∨ b.cursor ≤ m.1) :
    (if b.cursor ≤ m.1 then slice b.backspace.text (m.1 - (b.cursor - b.moveLeft.cursor))
        (m.2 - (b.cursor - b.moveLeft.cursor))
      else slice b.backspace.text m.1 m.2) = slice b.text m.1 m.2 := by
  rcases List.eq_nil_or_concat l with rfl | ⟨l, p, rfl⟩
  · rw [h.backspace_start, h.moveLeft_start, Nat.sub_self, Nat.sub_zero, Nat.sub_zero, ite_self]
  rw [List.concat_eq_append] at h
  have hstart : b.moveLeft.cursor = width l := h.moveLeft_piece.between
  have hstop : b.cursor = width (l ++ [p]) := h.between
  have hwidth : width (l ++ [p]) = width l + size p.chars := by simp
  have hpos : 0 < size p.chars :=
    Marked.piece_pos (l := l) (r := r) (by simpa using h.marked)
  have hspan := h.marks.mem_iff.mp hm
  rw [spans_append, List.mem_append, Nat.zero_add] at hspan
  rw [h.backspace_piece.written, h.written]
  rcases hspan with hspan | hspan
  · have hbounds := spans_bounds (a := m.1) (b := m.2) hspan
    have hlt := span_lt h.marked.left.solid (a := m.1) (b := m.2) hspan
    rw [if_neg (by omega)]
    rw [spans_append, List.mem_append, Nat.zero_add] at hspan
    rcases hspan with hspan | hspan
    · rw [List.append_assoc]
      exact slice_left hspan _ _
    · have hinside := spans_bounds (a := m.1) (b := m.2) hspan
      omega
  · have hbounds := spans_bounds (a := m.1) (b := m.2) hspan
    have hlt := span_lt h.marked.right.solid (a := m.1) (b := m.2) hspan
    have hleft : m.1 - (b.cursor - b.moveLeft.cursor) = m.1 - width (l ++ [p]) + width l := by
      omega
    have hright : m.2 - (b.cursor - b.moveLeft.cursor) = m.2 - width (l ++ [p]) + width l := by
      omega
    rw [if_pos (by omega), hleft, hright]
    exact slice_right hspan l

theorem truncate_refused {bytes : Nat} (hcut : (b.truncate bytes).2 = false) :
    (b.truncate bytes).1 = b := by
  unfold PromptBuffer.truncate at hcut ⊢
  split at hcut
  · rfl
  · split at hcut
    · rename_i hinside
      simp only [if_pos hinside]
    · cases hcut

theorem truncate_slice (h : Represents b l r) {bytes : Nat} (hcut : (b.truncate bytes).2 = true)
    {m : Nat × Nat} (hm : m ∈ b.markers) (hkept : m.2 ≤ bytes) :
    slice (b.truncate bytes).1.text m.1 m.2 = slice b.text m.1 m.2 := by
  obtain ⟨l₀, r₀, hps, rfl, hdone⟩ := h.truncate_parts hcut
  have hmarked : Marked (l₀ ++ r₀) := hps ▸ h.marked
  have hspan := h.marks.mem_iff.mp hm
  rw [hps, spans_append, List.mem_append, Nat.zero_add] at hspan
  rcases hspan with hspan | hspan
  · rw [hdone, h.written, hps]
    have hslice := slice_left hspan [] r₀
    rw [List.append_nil] at hslice
    exact hslice
  · have hbounds := spans_bounds (a := m.1) (b := m.2) hspan
    have hlt := span_lt hmarked.right.solid (a := m.1) (b := m.2) hspan
    omega

end Carries

/-! ## Pairs -/

section Pairs

variable {α β γ : Type} {R : α → β → Prop} {S : γ → β → Prop} {as : List α} {bs : List β}

theorem forall₂_map {f : α → γ} (h : List.Forall₂ R as bs)
    (step : ∀ a ∈ as, ∀ b, R a b → S (f a) b) : List.Forall₂ S (as.map f) bs := by
  induction h with
  | nil => exact List.Forall₂.nil
  | cons hfirst hrest ih =>
    rw [List.forall_mem_cons] at step
    exact List.Forall₂.cons (step.1 _ hfirst) (ih step.2)

theorem forall₂_filter (kept : α → Bool) (h : List.Forall₂ R as bs) :
    List.Forall₂ R (as.filter kept) (((as.zip bs).filter fun x => kept x.1).map (·.2)) := by
  induction h with
  | nil => exact List.Forall₂.nil
  | @cons a b as bs hfirst hrest ih =>
    cases hkept : kept a <;> simp [hkept, hfirst, ih]

end Pairs

namespace NamedPrompt

/-! ## One operation -/

/-- Every marker covers what was inserted for it. -/
def Covers (p : NamedPrompt) : Prop :=
  List.Forall₂ (fun m name => slice p.prompt.text m.1 m.2 = some (PromptBuffer.marker name))
    p.prompt.markers p.inserted

variable {p : NamedPrompt} {l r : List Piece}

theorem Covers.carried {b : PromptBuffer} (h : p.Covers) (hcarries : Carries p.prompt b) :
    Covers ⟨b, p.inserted⟩ := by
  obtain ⟨move, hmarkers, hslices⟩ := hcarries
  unfold Covers
  simp only
  rw [hmarkers]
  exact forall₂_map h fun m hm name hcovers => (hslices m hm).trans hcovers

theorem Covers.apply (h : p.Covers) (hr : Represents p.prompt l r) (operation : PromptOperation) :
    (p.apply operation).Covers := by
  cases operation with
  | pushCharacter c => exact h.carried (carries_pushCharacter hr c)
  | pushPaste paste => exact h.carried (carries_pushPaste hr paste)
  | setCursor position =>
    obtain ⟨htext, hmarkers⟩ := setCursor_same p.prompt position
    exact h.carried (Carries.of_same htext hmarkers)
  | moveLeft =>
    obtain ⟨htext, hmarkers⟩ := moveLeft_same p.prompt
    exact h.carried (Carries.of_same htext hmarkers)
  | moveRight =>
    obtain ⟨htext, hmarkers⟩ := moveRight_same p.prompt
    exact h.carried (Carries.of_same htext hmarkers)
  | moveVertical down =>
    obtain ⟨htext, hmarkers⟩ := moveVertical_same p.prompt down
    exact h.carried (Carries.of_same htext hmarkers)
  | backspace =>
    have hmarkers : p.prompt.backspace.markers = (p.prompt.markers.filter fun m =>
        decide (m.2 ≤ p.prompt.moveLeft.cursor) || decide (p.prompt.cursor ≤ m.1)).map fun m =>
          if p.prompt.cursor ≤ m.1 then (m.1 - (p.prompt.cursor - p.prompt.moveLeft.cursor),
            m.2 - (p.prompt.cursor - p.prompt.moveLeft.cursor))
          else m := by
      rw [← (moveLeft_same p.prompt).2]
      rfl
    have hkept := forall₂_filter (fun m : Nat × Nat =>
      decide (m.2 ≤ p.prompt.moveLeft.cursor) || decide (p.prompt.cursor ≤ m.1)) h
    unfold Covers
    simp only [NamedPrompt.apply, PromptOperation.apply, hmarkers]
    refine forall₂_map hkept fun m hm name hcovers => ?_
    obtain ⟨hmem, hplace⟩ := List.mem_filter.mp hm
    simp only [Bool.or_eq_true, decide_eq_true_eq] at hplace
    have hslice := (backspace_slice hr hmem hplace).trans hcovers
    split at hslice
    · rw [if_pos (by assumption)]
      exact hslice
    · rw [if_neg (by assumption)]
      exact hslice
  | pushImageMarker displayName =>
    cases hpush : p.prompt.pushImageMarker displayName with
    | none =>
      have happly : p.apply (.pushImageMarker displayName) = p := by
        simp only [NamedPrompt.apply, PromptOperation.apply, hpush, Option.map_none,
          Option.getD_none, Option.isSome_none, Bool.false_eq_true, if_false]
      rw [happly]
      exact h
    | some pushed =>
      obtain ⟨b', start⟩ := pushed
      have happly : p.apply (.pushImageMarker displayName) =
          ⟨b', p.inserted ++ [displayName]⟩ := by
        simp only [NamedPrompt.apply, PromptOperation.apply, hpush, Option.map_some,
          Option.getD_some, Option.isSome_some, if_true]
      rw [happly]
      have hr' := hr.pushImageMarker hpush
      obtain ⟨-, htext, hmarkers⟩ := pushImageMarker_some hpush
      have hold := h.carried (carries_pushAll hr (PromptBuffer.marker displayName))
      -- The new marker stands where the cursor was.
      have hnew : slice b'.text p.prompt.cursor b'.cursor =
          some (PromptBuffer.marker displayName) := by
        have hcursor : b'.cursor = width l + size (PromptBuffer.marker displayName) := by
          rw [hr'.between]
          simp [Piece.chars]
        rw [hr'.written, hr.between, hcursor, List.append_assoc]
        exact Represents.slice_block _ _ _
      unfold Covers at hold ⊢
      simp only at hold ⊢
      rw [← htext] at hold
      rw [hmarkers]
      exact List.rel_append hold (List.Forall₂.cons hnew List.Forall₂.nil)
  | truncate bytes =>
    cases hcut : (p.prompt.truncate bytes).2 with
    | false =>
      have happly : p.apply (.truncate bytes) = p := by
        simp only [NamedPrompt.apply, PromptOperation.apply, hcut, Bool.false_eq_true, if_false,
          truncate_refused hcut]
      rw [happly]
      exact h
    | true =>
      have hkept := forall₂_filter (fun m : Nat × Nat => decide (m.2 ≤ bytes)) h
      obtain ⟨l₀, r₀, -, -, hdone⟩ := hr.truncate_parts hcut
      have hmarkers : (p.prompt.truncate bytes).1.markers =
          (p.prompt.markers.filter fun m => decide (m.2 ≤ bytes)).map id := by
        rw [hdone, List.map_id]
      unfold Covers
      simp only [NamedPrompt.apply, PromptOperation.apply, hcut, if_true, hmarkers]
      refine forall₂_map hkept fun m hm name hcovers => ?_
      obtain ⟨hmem, hplace⟩ := List.mem_filter.mp hm
      exact (truncate_slice hr hcut hmem (of_decide_eq_true hplace)).trans hcovers
  | completeSkill name => exact h.carried (carries_completeSkill hr name)
  | clear => exact List.Forall₂.nil

/-- Every operation keeps the prompt made of pieces. -/
theorem represents_apply (hr : Represents p.prompt l r) (operation : PromptOperation) :
    ∃ l' r', Represents (p.apply operation).prompt l' r' := by
  cases operation with
  | pushCharacter c =>
    obtain ⟨l', h', -⟩ := hr.pushCharacter c
    exact ⟨l', r, h'⟩
  | pushPaste paste =>
    obtain ⟨l', h', -⟩ := hr.pushPaste paste
    exact ⟨l', r, h'⟩
  | setCursor position =>
    obtain ⟨l', r', -, h'⟩ := hr.setCursor position
    exact ⟨l', r', h'⟩
  | moveLeft =>
    obtain ⟨l', r', -, h'⟩ := hr.moveLeft
    exact ⟨l', r', h'⟩
  | moveRight =>
    obtain ⟨l', r', -, h'⟩ := hr.moveRight
    exact ⟨l', r', h'⟩
  | moveVertical down =>
    obtain ⟨l', r', -, h'⟩ := hr.moveVertical down
    exact ⟨l', r', h'⟩
  | backspace =>
    obtain ⟨l', h', -⟩ := hr.backspace
    exact ⟨l', r, h'⟩
  | pushImageMarker displayName =>
    show ∃ l' r', Represents (((p.prompt.pushImageMarker displayName).map (·.1)).getD p.prompt) l' r'
    cases hpush : p.prompt.pushImageMarker displayName with
    | none => exact ⟨l, r, hr⟩
    | some pushed => exact ⟨_, r, hr.pushImageMarker hpush⟩
  | truncate bytes => exact hr.truncate bytes
  | completeSkill name =>
    obtain ⟨l', r', h', -⟩ := hr.completeSkill name
    exact ⟨l', r', h'⟩
  | clear => exact ⟨[], [], Represents.empty⟩

/-- A prompt made of pieces is sound. -/
theorem Covers.sound (h : p.Covers) (hr : Represents p.prompt l r) : p.Sound where
  bounded := hr.bounded
  boundary := by
    rw [hr.written, hr.between, text_append, width, split_append]
    rfl
  within := by
    rw [hr.between, hr.size_eq, width_append]
    exact Nat.le_add_right _ _
  outside m hm := by
    have hspan := hr.marks.mem_iff.mp hm
    rw [spans_append, List.mem_append, Nat.zero_add] at hspan
    have hbetween := hr.between
    rcases hspan with hspan | hspan
    · have hbounds := spans_bounds (a := m.1) (b := m.2) hspan
      omega
    · have hbounds := spans_bounds (a := m.1) (b := m.2) hspan
      omega
  places m hm := by
    have hspan := hr.marks.mem_iff.mp hm
    have hbounds := spans_bounds (a := m.1) (b := m.2) hspan
    rw [hr.size_eq]
    exact ⟨span_lt hr.marked.solid (a := m.1) (b := m.2) hspan, by omega⟩
  disjoint := by
    have hpairs : (spans 0 (l ++ r)).Pairwise fun a b => a.2 ≤ b.1 ∨ b.2 ≤ a.1 :=
      (spans_pairwise 0 (l ++ r)).imp Or.inl
    exact (hr.marks.pairwise_iff fun hab => hab.symm).mpr hpairs
  covers := h
  lookedUp m hm := by
    obtain ⟨l', name, r', hps, rfl⟩ := hr.marker_piece hm
    rw [hr.written, hps, Represents.slice_marker, size_marker]
    exact ⟨by omega, rfl⟩
  found name start hfound := by
    obtain ⟨l', r', hps, rfl, hm⟩ := hr.marker_found hfound
    refine ⟨_, hm, ?_⟩
    rw [hr.written, hps]
    exact Represents.slice_block _ _ _

/-- **Prompts.**  Whatever operations edit a prompt, it is sound. -/
theorem prompt_sound (operations : List PromptOperation) :
    (operations.foldl apply {}).Sound := by
  have hall : ∀ (operations : List PromptOperation) (p : NamedPrompt), p.Covers →
      (∃ l r, Represents p.prompt l r) → (operations.foldl apply p).Covers ∧
        ∃ l r, Represents (operations.foldl apply p).prompt l r := by
    intro operations
    induction operations with
    | nil => exact fun p hcovers hr => ⟨hcovers, hr⟩
    | cons operation rest ih =>
      rintro p hcovers ⟨l, r, hr⟩
      exact ih _ (hcovers.apply hr operation) (represents_apply hr operation)
  obtain ⟨hcovers, l, r, hr⟩ := hall operations {} List.Forall₂.nil ⟨[], [], Represents.empty⟩
  exact hcovers.sound hr

end NamedPrompt

end Morons.Cli
