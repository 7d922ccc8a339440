import Mathlib.Data.Int.NatAbs
import Mathlib.Data.List.Basic
import Mathlib.Data.List.Perm.Basic
import Mathlib.Tactic.Common

/-!
# Text with blocks

A text is edited by byte positions, which have to be character boundaries.  A
text of pieces consists of single characters and of blocks, which are edited
only as a whole; `spans` are the places of its blocks.
-/

/-! ## Byte positions -/

namespace Utf8

/-- The bytes of some characters. -/
def size (cs : List Char) : Nat := (cs.map Char.utf8Size).sum

/-- The characters before a byte position and those from it on, if it is a character boundary. -/
def split : List Char → Nat → Option (List Char × List Char)
  | cs, 0 => some ([], cs)
  | [], _ + 1 => none
  | c :: cs, n + 1 =>
    if c.utf8Size ≤ n + 1 then
      (split cs (n + 1 - c.utf8Size)).map fun (before, after) => (c :: before, after)
    else none

/-- The characters between two byte positions. -/
def slice (cs : List Char) (start stop : Nat) : Option (List Char) := do
  let (before, _) ← split cs stop
  let (_, middle) ← split before start
  return middle

variable {cs before middle after : List Char} {n start stop : Nat}

@[simp] theorem size_nil : size [] = 0 := rfl

@[simp] theorem size_cons (c : Char) (cs : List Char) : size (c :: cs) = c.utf8Size + size cs := by
  simp [size]

@[simp] theorem size_append (a b : List Char) : size (a ++ b) = size a + size b := by
  simp [size]

theorem size_pos (h : cs ≠ []) : 0 < size cs := by
  cases cs with
  | nil => exact absurd rfl h
  | cons c cs =>
    have := c.utf8Size_pos
    rw [size_cons]
    omega

theorem utf8ByteSize_ofList (cs : List Char) : (String.ofList cs).utf8ByteSize = size cs := by
  induction cs with
  | nil => rfl
  | cons c cs ih =>
    rw [← List.singleton_append, String.ofList_append, String.utf8ByteSize_append, ih, size_append]
    simp

theorem split_eq_some : split cs n = some (before, after) ↔ cs = before ++ after ∧ size before = n := by
  induction cs generalizing n before with
  | nil =>
    cases n with
    | zero =>
      simp only [split, Option.some.injEq, Prod.mk.injEq, List.nil_eq, List.append_eq_nil_iff]
      constructor
      · rintro ⟨rfl, rfl⟩
        exact ⟨⟨rfl, rfl⟩, rfl⟩
      · rintro ⟨⟨rfl, rfl⟩, -⟩
        exact ⟨rfl, rfl⟩
    | succ n =>
      simp only [split, List.nil_eq, List.append_eq_nil_iff, reduceCtorEq, false_iff]
      rintro ⟨⟨rfl, -⟩, hsize⟩
      simp at hsize
  | cons c cs ih =>
    have hpos := c.utf8Size_pos
    cases n with
    | zero =>
      simp only [split, Option.some.injEq, Prod.mk.injEq]
      constructor
      · rintro ⟨rfl, rfl⟩
        exact ⟨rfl, rfl⟩
      · rintro ⟨htext, hsize⟩
        cases before with
        | nil => exact ⟨rfl, htext⟩
        | cons d before =>
          have := d.utf8Size_pos
          rw [size_cons] at hsize
          omega
    | succ n =>
      rw [split]
      split
      case isTrue hfits =>
        simp only [Option.map_eq_some_iff, Prod.mk.injEq, Prod.exists]
        constructor
        · rintro ⟨before', after', hsplit, rfl, rfl⟩
          obtain ⟨rfl, hsize⟩ := ih.mp hsplit
          exact ⟨rfl, by rw [size_cons]; omega⟩
        · rintro ⟨htext, hsize⟩
          cases before with
          | nil => simp at hsize
          | cons d before =>
            obtain ⟨rfl, rfl⟩ := List.cons.inj htext
            rw [size_cons] at hsize
            exact ⟨before, after, ih.mpr ⟨rfl, by omega⟩, rfl, rfl⟩
      case isFalse hlarge =>
        simp only [reduceCtorEq, false_iff]
        rintro ⟨htext, hsize⟩
        cases before with
        | nil => simp at hsize
        | cons d before =>
          obtain ⟨rfl, rfl⟩ := List.cons.inj htext
          rw [size_cons] at hsize
          omega

@[simp] theorem split_append (a b : List Char) : split (a ++ b) (size a) = some (a, b) :=
  split_eq_some.mpr ⟨rfl, rfl⟩

end Utf8

/-! ## Pieces -/

namespace Pieces

open Utf8

inductive Piece
  | plain (c : Char)
  | block (cs : List Char)
  deriving DecidableEq

def Piece.chars : Piece → List Char
  | plain c => [c]
  | block cs => cs

def text (ps : List Piece) : List Char := ps.flatMap Piece.chars

/-- The bytes of some pieces. -/
def width (ps : List Piece) : Nat := size (text ps)

/-- Where the blocks begin and end, when the first piece begins at `n`. -/
def spans : Nat → List Piece → List (Nat × Nat)
  | _, [] => []
  | n, .plain c :: ps => spans (n + c.utf8Size) ps
  | n, .block cs :: ps => (n, n + size cs) :: spans (n + size cs) ps

/-- No block is empty. -/
def Solid (ps : List Piece) : Prop := Piece.block [] ∉ ps

variable {ps l r : List Piece} {p : Piece} {n a b : Nat}

@[simp] theorem text_append (l r : List Piece) : text (l ++ r) = text l ++ text r := by
  simp [text]

@[simp] theorem text_cons (p : Piece) (ps : List Piece) : text (p :: ps) = p.chars ++ text ps := rfl

@[simp] theorem text_nil : text [] = [] := rfl

@[simp] theorem width_append (l r : List Piece) : width (l ++ r) = width l + width r := by
  simp [width]

@[simp] theorem width_cons (p : Piece) (ps : List Piece) :
    width (p :: ps) = size p.chars + width ps := by
  simp [width]

@[simp] theorem width_nil : width [] = 0 := rfl

end Pieces

/-! ## Slices -/

namespace Utf8

variable {cs before middle after : List Char} {n start stop : Nat}

/-- What stands between two positions. -/
theorem slice_append (a b c : List Char) :
    slice (a ++ b ++ c) (size a) (size a + size b) = some b := by
  have houter : split (a ++ b ++ c) (size a + size b) = some (a ++ b, c) :=
    split_eq_some.mpr ⟨rfl, size_append a b⟩
  rw [slice, houter]
  simp

theorem slice_eq_some :
    slice cs start stop = some middle ↔
      ∃ before after, cs = before ++ middle ++ after ∧ size before = start ∧
        start + size middle = stop := by
  constructor
  · intro h
    simp only [slice, Option.bind_eq_bind, Option.bind_eq_some_iff, Prod.exists,
      Option.pure_def, Option.some.injEq] at h
    obtain ⟨front, after, houter, before, m, hinner, rfl⟩ := h
    obtain ⟨rfl, rfl⟩ := split_eq_some.mp houter
    obtain ⟨rfl, rfl⟩ := split_eq_some.mp hinner
    exact ⟨before, after, rfl, rfl, (size_append _ _).symm⟩
  · rintro ⟨before, after, rfl, rfl, rfl⟩
    exact slice_append before middle after

/-- Where the bytes of a text end, its characters do. -/
theorem append_inj_size {a b c d : List Char} (h : a ++ b = c ++ d) (hsize : size a = size c) :
    a = c ∧ b = d := by
  have hleft : split (a ++ b) (size a) = some (a, b) := split_append a b
  have hright : split (c ++ d) (size c) = some (c, d) := split_append c d
  rw [h, hsize, hright] at hleft
  obtain ⟨rfl, rfl⟩ := Prod.mk.inj (Option.some.inj hleft)
  exact ⟨rfl, rfl⟩

/-- A position between two characters, or at an end. -/
def Splits (cs : List Char) (n : Nat) : Prop :=
  ∃ before after, cs = before ++ after ∧ size before = n

theorem split_isSome : (split cs n).isSome = true ↔ Splits cs n := by
  rw [Option.isSome_iff_exists]
  constructor
  · rintro ⟨⟨before, after⟩, h⟩
    exact ⟨before, after, split_eq_some.mp h⟩
  · rintro ⟨before, after, h⟩
    exact ⟨(before, after), split_eq_some.mpr h⟩

theorem splits_zero (cs : List Char) : Splits cs 0 := ⟨[], cs, rfl, rfl⟩

theorem splits_size (cs : List Char) : Splits cs (size cs) :=
  ⟨cs, [], (List.append_nil _).symm, rfl⟩

/-- What stands between two positions in order can be cut out. -/
theorem Splits.slice (hstart : Splits cs start) (hstop : Splits cs stop) (hle : start ≤ stop) :
    ∃ middle, slice cs start stop = some middle := by
  obtain ⟨before, rest, rfl, rfl⟩ := hstart
  obtain ⟨front, after, hsame, rfl⟩ := hstop
  rcases List.append_eq_append_iff.mp hsame with ⟨m, rfl, rfl⟩ | ⟨m, rfl, rfl⟩
  · refine ⟨m, slice_eq_some.mpr ⟨before, after, ?_, rfl, (size_append _ _).symm⟩⟩
    rw [List.append_assoc]
  · have hnone : m = [] := by
      refine not_not.mp fun hne => ?_
      have := size_pos hne
      rw [size_append] at hle
      omega
    subst hnone
    exact ⟨[], slice_eq_some.mpr ⟨front, rest, by simp, by simp, by simp⟩⟩

theorem slice_splits (h : slice cs start stop = some middle) :
    Splits cs start ∧ Splits cs stop ∧ start ≤ stop := by
  obtain ⟨before, after, rfl, rfl, rfl⟩ := slice_eq_some.mp h
  exact ⟨⟨before, middle ++ after, List.append_assoc .., rfl⟩,
    ⟨before ++ middle, after, rfl, size_append _ _⟩, Nat.le_add_right _ _⟩

/-- Two slices that follow one another are one. -/
theorem slice_join {x y : List Char} (hx : slice cs start n = some x)
    (hy : slice cs n stop = some y) : slice cs start stop = some (x ++ y) := by
  obtain ⟨before, rest, rfl, rfl, rfl⟩ := slice_eq_some.mp hx
  obtain ⟨front, after, hsame, hfront, rfl⟩ := slice_eq_some.mp hy
  rw [List.append_assoc front] at hsame
  obtain ⟨rfl, rfl⟩ := append_inj_size hsame (by rw [size_append, hfront])
  exact slice_eq_some.mpr ⟨before, after, by simp, rfl, by rw [size_append]; omega⟩

/-- What stands in a text stands in it however it goes on. -/
theorem slice_extend (h : slice cs start stop = some middle) (more : List Char) :
    slice (cs ++ more) start stop = some middle := by
  obtain ⟨before, after, rfl, hstart, hstop⟩ := slice_eq_some.mp h
  exact slice_eq_some.mpr ⟨before, after ++ more, by simp, hstart, hstop⟩

/-! ## The boundaries next to a position -/

/-- Back from a position to a boundary. -/
def floorBoundary (cs : List Char) : Nat → Nat
  | 0 => 0
  | n + 1 => if (split cs (n + 1)).isSome then n + 1 else floorBoundary cs n

/-- On from a position to a boundary, by at most so many bytes. -/
def ceilBoundary (cs : List Char) : Nat → Nat → Nat
  | 0, n => n
  | steps + 1, n => if (split cs n).isSome then n else ceilBoundary cs steps (n + 1)

theorem floorBoundary_here (h : (split cs (n + 1)).isSome = true) :
    floorBoundary cs (n + 1) = n + 1 := if_pos h

theorem floorBoundary_back (h : ¬ (split cs (n + 1)).isSome = true) :
    floorBoundary cs (n + 1) = floorBoundary cs n := if_neg h

theorem ceilBoundary_here {steps : Nat} (h : (split cs n).isSome = true) :
    ceilBoundary cs (steps + 1) n = n := if_pos h

theorem ceilBoundary_on {steps : Nat} (h : ¬ (split cs n).isSome = true) :
    ceilBoundary cs (steps + 1) n = ceilBoundary cs steps (n + 1) := if_neg h

theorem floorBoundary_le (cs : List Char) (n : Nat) : floorBoundary cs n ≤ n := by
  induction n with
  | zero => exact Nat.le_refl _
  | succ n ih =>
    by_cases hsome : (split cs (n + 1)).isSome = true
    · exact Nat.le_of_eq (floorBoundary_here hsome)
    · rw [floorBoundary_back hsome]
      exact Nat.le_trans ih (Nat.le_succ n)

theorem floorBoundary_splits (cs : List Char) (n : Nat) : Splits cs (floorBoundary cs n) := by
  induction n with
  | zero => exact splits_zero cs
  | succ n ih =>
    by_cases hsome : (split cs (n + 1)).isSome = true
    · rw [floorBoundary_here hsome]
      exact split_isSome.mp hsome
    · rw [floorBoundary_back hsome]
      exact ih

/-- The end of the text is a boundary, so that there is one within reach. -/
theorem ceilBoundary_spec {steps : Nat} (hend : size cs ≤ n + steps) (hn : n ≤ size cs) :
    Splits cs (ceilBoundary cs steps n) ∧ n ≤ ceilBoundary cs steps n ∧
      ceilBoundary cs steps n ≤ size cs := by
  induction steps generalizing n with
  | zero =>
    obtain rfl : n = size cs := by omega
    exact ⟨splits_size cs, Nat.le_refl _, Nat.le_refl _⟩
  | succ steps ih =>
    by_cases hsome : (split cs n).isSome = true
    · rw [ceilBoundary_here hsome]
      exact ⟨split_isSome.mp hsome, Nat.le_refl _, hn⟩
    · rw [ceilBoundary_on hsome]
      have hinside : n ≠ size cs := by
        rintro rfl
        exact hsome (split_isSome.mpr (splits_size cs))
      obtain ⟨hsplits, hle, hsize⟩ := ih (n := n + 1) (by omega) (by omega)
      exact ⟨hsplits, by omega, hsize⟩

end Utf8

/-! ## The places of the blocks -/

namespace Pieces

open Utf8

variable {ps l r : List Piece} {p : Piece} {n a b : Nat}

theorem spans_append (n : Nat) (l r : List Piece) :
    spans n (l ++ r) = spans n l ++ spans (n + width l) r := by
  induction l generalizing n with
  | nil => simp [spans]
  | cons p l ih =>
    cases p with
    | plain c => simp [spans, ih, Piece.chars, Nat.add_assoc]
    | block cs => simp [spans, ih, Piece.chars, Nat.add_assoc]

theorem spans_bounds (h : (a, b) ∈ spans n ps) : n ≤ a ∧ b ≤ n + width ps := by
  induction ps generalizing n with
  | nil => cases h
  | cons p ps ih =>
    cases p with
    | plain c =>
      have := ih h
      simp only [width_cons, Piece.chars, size_cons, size_nil]
      omega
    | block cs =>
      simp only [width_cons, Piece.chars]
      rcases List.mem_cons.mp h with e | h
      · obtain ⟨rfl, rfl⟩ := Prod.mk.inj e
        omega
      · have := ih h
        omega

theorem mem_spans : (a, b) ∈ spans n ps ↔
    ∃ l cs r, ps = l ++ .block cs :: r ∧ a = n + width l ∧ b = a + size cs := by
  induction ps generalizing n with
  | nil => simp [spans]
  | cons p ps ih =>
    constructor
    · intro h
      cases p with
      | plain c =>
        obtain ⟨l, cs, r, rfl, rfl, rfl⟩ := ih.mp h
        exact ⟨.plain c :: l, cs, r, rfl, by simp [Piece.chars]; omega, rfl⟩
      | block bs =>
        rcases List.mem_cons.mp h with e | h
        · obtain ⟨rfl, rfl⟩ := Prod.mk.inj e
          exact ⟨[], bs, ps, rfl, rfl, rfl⟩
        · obtain ⟨l, cs, r, rfl, rfl, rfl⟩ := ih.mp h
          exact ⟨.block bs :: l, cs, r, rfl, by simp [Piece.chars]; omega, rfl⟩
    · rintro ⟨l, cs, r, hps, rfl, rfl⟩
      rw [hps, spans_append]
      exact List.mem_append_right _ (List.mem_cons_self ..)

/-- Blocks are moved along with what stands before them. -/
theorem spans_shift (n k : Nat) (ps : List Piece) :
    spans (n + k) ps = (spans n ps).map fun m => (m.1 + k, m.2 + k) := by
  induction ps generalizing n with
  | nil => rfl
  | cons p ps ih =>
    cases p with
    | plain c => rw [spans, spans, ← ih, Nat.add_right_comm]
    | block cs =>
      rw [spans, spans, List.map_cons, ← ih, Nat.add_right_comm]

/-- A block begins before it ends. -/
theorem span_lt (h : Solid ps) (hspan : (a, b) ∈ spans n ps) : a < b := by
  obtain ⟨l, cs, r, rfl, -, rfl⟩ := mem_spans.mp hspan
  have hpos : 0 < size cs := size_pos fun e => h (by simp [e])
  omega

/-- Only the piece that a position lies in can be a block around it. -/
theorem span_unique {q : Nat} (hspan : (a, b) ∈ spans n (l ++ p :: r)) (ha : a ≤ q) (hb : q < b)
    (hl : n + width l ≤ q) (hr : q < n + width l + size p.chars) :
    ∃ cs, p = .block cs ∧ a = n + width l ∧ b = n + width l + size cs := by
  rw [spans_append] at hspan
  rcases List.mem_append.mp hspan with hspan | hspan
  · have := spans_bounds hspan
    omega
  · cases p with
    | plain c =>
      have hbounds := spans_bounds (n := n + width l + c.utf8Size) hspan
      simp only [Piece.chars, size_cons, size_nil] at hr
      omega
    | block cs =>
      rcases List.mem_cons.mp hspan with e | hspan
      · obtain ⟨rfl, rfl⟩ := Prod.mk.inj e
        exact ⟨cs, rfl, rfl, rfl⟩
      · have hbounds := spans_bounds hspan
        simp only [Piece.chars] at hr
        omega

/-- Blocks follow one another. -/
theorem spans_pairwise (n : Nat) (ps : List Piece) :
    (spans n ps).Pairwise fun a b => a.2 ≤ b.1 := by
  induction ps generalizing n with
  | nil => exact List.Pairwise.nil
  | cons p ps ih =>
    cases p with
    | plain c => exact ih _
    | block cs => exact List.pairwise_cons.mpr ⟨fun m hm => (spans_bounds hm).1, ih _⟩

/-- What stands in a block does not depend on what comes after. -/
theorem slice_left (h : (a, b) ∈ spans 0 l) (x y : List Piece) :
    slice (text (l ++ x)) a b = slice (text (l ++ y)) a b := by
  obtain ⟨front, cs, back, rfl, rfl, rfl⟩ := mem_spans.mp h
  rw [Nat.zero_add]
  have hblock : ∀ rest : List Piece, slice (text (front ++ .block cs :: back ++ rest)) (width front)
      (width front + size cs) = some cs := by
    intro rest
    rw [List.append_assoc, text_append, List.cons_append, text_cons, ← List.append_assoc]
    exact slice_append _ _ _
  rw [hblock x, hblock y]

/-- What stands in a block moves with it. -/
theorem slice_right (h : (a, b) ∈ spans (width l) r) (l' : List Piece) :
    slice (text (l' ++ r)) (a - width l + width l') (b - width l + width l') =
      slice (text (l ++ r)) a b := by
  obtain ⟨front, cs, back, rfl, rfl, rfl⟩ := mem_spans.mp h
  have hblock : ∀ before : List Piece, slice (text (before ++ (front ++ .block cs :: back)))
      (width before + width front) (width before + width front + size cs) = some cs := by
    intro before
    rw [← List.append_assoc, text_append, text_cons, ← List.append_assoc, ← width_append]
    exact slice_append _ _ _
  have hstart : width l + width front - width l + width l' = width l' + width front := by omega
  have hstop : width l + width front + size cs - width l + width l' =
      width l' + width front + size cs := by omega
  rw [hstart, hstop, hblock, hblock]

/-- A position lies between two pieces or within one. -/
theorem locate {q : Nat} (h : q ≤ width ps) :
    (∃ l r, ps = l ++ r ∧ width l = q) ∨
      ∃ l p r, ps = l ++ p :: r ∧ width l < q ∧ q < width l + size p.chars := by
  induction ps generalizing q with
  | nil =>
    obtain rfl : q = 0 := Nat.le_zero.mp h
    exact Or.inl ⟨[], [], rfl, rfl⟩
  | cons p ps ih =>
    rw [width_cons] at h
    by_cases hzero : q = 0
    · exact Or.inl ⟨[], p :: ps, rfl, hzero.symm⟩
    by_cases hinside : q < size p.chars
    · exact Or.inr ⟨[], p, ps, rfl, by rw [width_nil]; omega, by rw [width_nil]; omega⟩
    · rcases ih (q := q - size p.chars) (by omega) with ⟨l, r, rfl, hl⟩ | ⟨l, p', r, rfl, hl, hr⟩
      · exact Or.inl ⟨p :: l, r, rfl, by rw [width_cons]; omega⟩
      · exact Or.inr ⟨p :: l, p', r, rfl, by rw [width_cons]; omega, by rw [width_cons]; omega⟩

/-- A character boundary is not within a plain piece. -/
theorem locate_boundary {q : Nat} {before after : List Char}
    (h : split (text ps) q = some (before, after)) :
    (∃ l r, ps = l ++ r ∧ width l = q) ∨
      ∃ l cs r, ps = l ++ .block cs :: r ∧ width l < q ∧ q < width l + size cs := by
  obtain ⟨htext, rfl⟩ := split_eq_some.mp h
  have hle : size before ≤ width ps := by
    rw [width, htext, size_append]
    omega
  rcases locate hle with hbetween | ⟨l, p, r, rfl, hl, hr⟩
  · exact Or.inl hbetween
  · cases p with
    | block cs => exact Or.inr ⟨l, cs, r, rfl, hl, hr⟩
    | plain c =>
      -- The bytes before the position would end within the character.
      simp only [Piece.chars, size_cons, size_nil] at hr
      rw [width] at hl hr
      rw [text_append, text_cons] at htext
      rcases List.append_eq_append_iff.mp htext with ⟨m, rfl, hrest⟩ | ⟨m, hm, -⟩
      · rw [size_append] at hl hr
        cases m with
        | nil => simp at hl
        | cons d m =>
          obtain ⟨rfl, -⟩ := List.cons.inj hrest
          rw [size_cons] at hr
          omega
      · rw [hm, size_append] at hl
        omega

end Pieces
