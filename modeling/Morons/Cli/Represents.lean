import Morons.Cli.Prompt

/-!
# The pieces of a prompt

A prompt is represented by the pieces before its cursor and those after it; the
blocks among them are its image markers.  Typing and moving keep the markers as
they are, a backspace removes at most one of them, and a new one stands where
the cursor is.
-/

namespace Morons.Cli

open Utf8 Pieces

variable {b b' : PromptBuffer} {l r ps : List Piece} {name : List Char}

/-- The name in a marker. -/
def blockName (cs : List Char) : List Char := cs.tail.dropLast

/-- The names of the markers, in the order of the text. -/
def names (ps : List Piece) : List (List Char) := ps.filterMap fun
  | .plain _ => none
  | .block cs => some (blockName cs)

/-- The markers with their places. -/
def places : Nat → List Piece → List (List Char × Nat)
  | _, [] => []
  | n, .plain c :: ps => places (n + c.utf8Size) ps
  | n, .block cs :: ps => (blockName cs, n) :: places (n + size cs) ps

/-- Every block is the marker of some name. -/
def Marked (ps : List Piece) : Prop := ∀ cs, Piece.block cs ∈ ps → ∃ name, cs = PromptBuffer.marker name

structure Represents (b : PromptBuffer) (l r : List Piece) : Prop where
  written : b.text = text (l ++ r)
  between : b.cursor = width l
  marks : b.markers.Perm (spans 0 (l ++ r))
  marked : Marked (l ++ r)
  bounded : size b.text ≤ maxPromptBytes

@[simp] theorem names_append (l r : List Piece) : names (l ++ r) = names l ++ names r := by
  simp [names]

@[simp] theorem names_nil : names [] = [] := rfl

@[simp] theorem names_plain (c : Char) (ps : List Piece) : names (.plain c :: ps) = names ps := rfl

@[simp] theorem names_block (cs : List Char) (ps : List Piece) :
    names (.block cs :: ps) = blockName cs :: names ps := rfl

@[simp] theorem blockName_marker (name : List Char) :
    blockName (PromptBuffer.marker name) = name := by
  simp [blockName, PromptBuffer.marker]

theorem size_marker (name : List Char) : size (PromptBuffer.marker name) = size name + 2 := by
  have hopen : '['.utf8Size = 1 := by decide
  have hclose : ']'.utf8Size = 1 := by decide
  simp [PromptBuffer.marker, hopen, hclose]
  omega

theorem places_names (n : Nat) (ps : List Piece) : (places n ps).map Prod.fst = names ps := by
  induction ps generalizing n with
  | nil => rfl
  | cons p ps ih =>
    cases p with
    | plain c => exact ih _
    | block cs => simp [places, ih]

/-- A place is that of a block with the name. -/
theorem mem_places {n start : Nat} : (name, start) ∈ places n ps ↔
    ∃ l cs r, ps = l ++ .block cs :: r ∧ start = n + width l ∧ name = blockName cs := by
  induction ps generalizing n with
  | nil => simp [places]
  | cons p ps ih =>
    cases p with
    | plain c =>
      simp only [places, ih]
      constructor
      · rintro ⟨l, cs, r, rfl, rfl, rfl⟩
        exact ⟨.plain c :: l, cs, r, rfl, by simp [Piece.chars]; omega, rfl⟩
      · rintro ⟨l, cs, r, hps, rfl, rfl⟩
        cases l with
        | nil => cases hps
        | cons p l =>
          obtain ⟨rfl, rfl⟩ := List.cons.inj hps
          exact ⟨l, cs, r, rfl, by simp [Piece.chars]; omega, rfl⟩
    | block bs =>
      simp only [places, List.mem_cons, ih, Prod.mk.injEq]
      constructor
      · rintro (⟨rfl, rfl⟩ | ⟨l, cs, r, rfl, rfl, rfl⟩)
        · exact ⟨[], bs, ps, rfl, rfl, rfl⟩
        · exact ⟨.block bs :: l, cs, r, rfl, by simp [Piece.chars]; omega, rfl⟩
      · rintro ⟨l, cs, r, hps, rfl, rfl⟩
        cases l with
        | nil =>
          obtain ⟨hblock, rfl⟩ := List.cons.inj hps
          obtain rfl := Piece.block.inj hblock
          exact Or.inl ⟨rfl, rfl⟩
        | cons p l =>
          obtain ⟨rfl, rfl⟩ := List.cons.inj hps
          exact Or.inr ⟨l, cs, r, rfl, by simp [Piece.chars]; omega, rfl⟩

theorem Marked.solid (h : Marked ps) : Solid ps := by
  intro hempty
  obtain ⟨name, hname⟩ := h [] hempty
  cases hname

theorem Marked.left (h : Marked (l ++ r)) : Marked l :=
  fun cs hcs => h cs (List.mem_append_left _ hcs)

theorem Marked.right (h : Marked (l ++ r)) : Marked r :=
  fun cs hcs => h cs (List.mem_append_right _ hcs)

theorem Marked.append (hl : Marked l) (hr : Marked r) : Marked (l ++ r) := by
  intro cs hcs
  rcases List.mem_append.mp hcs with h | h
  · exact hl cs h
  · exact hr cs h

/-- Every piece takes some bytes. -/
theorem Marked.piece_pos {p : Piece} (h : Marked (l ++ p :: r)) : 0 < size p.chars := by
  cases p with
  | plain c => simp [Piece.chars, c.utf8Size_pos]
  | block cs =>
    refine size_pos fun e => h.solid ?_
    rw [show cs = [] from e]
    simp

namespace Represents

theorem empty : Represents {} [] [] where
  written := rfl
  between := rfl
  marks := List.Perm.refl _
  marked := by simp [Marked]
  bounded := by decide

theorem before_eq (h : Represents b l r) : b.before = text l := by
  rw [PromptBuffer.before, h.written, h.between, text_append, width, split_append]
  rfl

theorem after_eq (h : Represents b l r) : b.after = text r := by
  rw [PromptBuffer.after, h.written, h.between, text_append, width, split_append]
  rfl

theorem size_eq (h : Represents b l r) : size b.text = width (l ++ r) := by
  rw [h.written, width]

/-- Moving the cursor between the pieces. -/
theorem moved (h : Represents b l r) {l' r' : List Piece} (hps : l ++ r = l' ++ r') :
    Represents { b with cursor := width l' } l' r' where
  written := hps ▸ h.written
  between := rfl
  marks := hps ▸ h.marks
  marked := hps ▸ h.marked
  bounded := h.bounded

/-! ## Typing -/

/-- The markers before the cursor stay, those after it are moved. -/
theorem shift_marks (h : Represents b l r) (k : Nat) :
    (b.markers.map fun m => if b.cursor ≤ m.1 then (m.1 + k, m.2 + k) else m).Perm
      (spans 0 l ++ spans (width l + k) r) := by
  refine (h.marks.map _).trans (List.Perm.of_eq ?_)
  rw [spans_append, List.map_append, Nat.zero_add, spans_shift (width l) k r, h.between]
  congr 1
  · refine (List.map_congr_left (g := id) fun m hm => ?_).trans (List.map_id _)
    have hlt := span_lt h.marked.left.solid (a := m.1) (b := m.2) hm
    have hbounds := spans_bounds (a := m.1) (b := m.2) hm
    exact if_neg (by omega)
  · refine List.map_congr_left fun m hm => ?_
    have hbounds := spans_bounds (a := m.1) (b := m.2) hm
    exact if_pos hbounds.1

/-- A character that fits stands before the cursor. -/
theorem pushVisible_fits (h : Represents b l r) {c : Char}
    (hfits : size b.text + c.utf8Size ≤ maxPromptBytes) :
    (b.pushVisible c).2 = true ∧ Represents (b.pushVisible c).1 (l ++ [.plain c]) r := by
  have hwidth : width (l ++ [.plain c]) = width l + c.utf8Size := by simp [Piece.chars]
  rw [PromptBuffer.pushVisible, if_neg (by omega)]
  refine ⟨rfl, ?_, ?_, ?_, ?_, ?_⟩
  · simp [h.before_eq, h.after_eq, Piece.chars]
  · rw [hwidth, ← h.between]
  · have hspans : spans 0 (l ++ [.plain c]) = spans 0 l := by simp [spans_append, spans]
    rw [spans_append, hspans, Nat.zero_add, hwidth]
    exact h.shift_marks c.utf8Size
  · intro cs hcs
    refine h.marked cs ?_
    simpa using hcs
  · show size (b.before ++ c :: b.after) ≤ maxPromptBytes
    rw [h.before_eq, h.after_eq, size_append, size_cons]
    rw [h.written, text_append, size_append] at hfits
    omega

/-- Typing keeps the markers. -/
theorem pushVisible (h : Represents b l r) (c : Char) :
    ∃ l', Represents (b.pushVisible c).1 l' r ∧ names l' = names l := by
  by_cases hfits : size b.text + c.utf8Size ≤ maxPromptBytes
  · exact ⟨_, (h.pushVisible_fits hfits).2, by simp⟩
  · rw [PromptBuffer.pushVisible, if_pos (by omega)]
    exact ⟨l, h, rfl⟩

theorem pushRepeated (h : Represents b l r) (c : Char) (n : Nat) :
    ∃ l', Represents (b.pushRepeated c n).1 l' r ∧ names l' = names l := by
  induction n generalizing b l with
  | zero => exact ⟨l, h, rfl⟩
  | succ n ih =>
    obtain ⟨l₁, h₁, hnames₁⟩ := h.pushVisible c
    rw [PromptBuffer.pushRepeated]
    split
    case h_1 b₁ hpush =>
      rw [hpush] at h₁
      obtain ⟨l₂, h₂, hnames₂⟩ := ih h₁
      exact ⟨l₂, h₂, hnames₂.trans hnames₁⟩
    case h_2 b₁ hpush =>
      rw [hpush] at h₁
      exact ⟨l₁, h₁, hnames₁⟩

theorem pushCharacter (h : Represents b l r) (c : Char) :
    ∃ l', Represents (b.pushCharacter c).1 l' r ∧ names l' = names l := by
  unfold PromptBuffer.pushCharacter
  split
  · exact h.pushRepeated ' ' tabWidth
  split
  · exact h.pushVisible c
  split
  · exact ⟨l, h, rfl⟩
  · exact h.pushVisible c

theorem pushPaste (h : Represents b l r) (paste : List Char) :
    ∃ l', Represents (b.pushPaste paste) l' r ∧ names l' = names l := by
  induction paste generalizing b l with
  | nil => exact ⟨l, h, rfl⟩
  | cons c rest ih =>
    obtain ⟨l₁, h₁, hnames₁⟩ := h.pushCharacter c
    rw [PromptBuffer.pushPaste]
    split
    · exact ⟨l₁, h₁, hnames₁⟩
    · obtain ⟨l₂, h₂, hnames₂⟩ := ih h₁
      exact ⟨l₂, h₂, hnames₂.trans hnames₁⟩

/-! ## Moving -/

/-- The marker around a position, if there is one. -/
theorem find_around (h : Represents b l r) {q : Nat} {inside : Nat × Nat → Bool} {m : Nat × Nat}
    (hfind : b.markers.find? inside = some m) (hinside : inside m = true → m.1 ≤ q ∧ q < m.2) :
    ∃ l' cs r', l ++ r = l' ++ .block cs :: r' ∧ m = (width l', width l' + size cs) ∧
      width l' ≤ q ∧ q < width l' + size cs := by
  have hspan := h.marks.mem_iff.mp (List.mem_of_find?_eq_some hfind)
  obtain ⟨hle, hlt⟩ := hinside (List.find?_some hfind)
  obtain ⟨l', cs, r', hps, hstart, hstop⟩ := mem_spans (a := m.1) (b := m.2) |>.mp hspan
  rw [Nat.zero_add] at hstart
  exact ⟨l', cs, r', hps, Prod.ext hstart (by rw [hstop, hstart]), by omega, by omega⟩

theorem setCursor (h : Represents b l r) (position : Nat) :
    ∃ l' r', l' ++ r' = l ++ r ∧ Represents (b.setCursor position) l' r' := by
  unfold PromptBuffer.setCursor
  split
  case isFalse => exact ⟨l, r, rfl, h⟩
  case isTrue hboundary =>
    obtain ⟨⟨before, after⟩, hsplit⟩ := Option.isSome_iff_exists.mp hboundary.2
    rw [h.written] at hsplit
    split
    case h_1 m hfind =>
      obtain ⟨l', cs, r', hps, rfl, -⟩ := h.find_around (q := position) hfind fun hin => by
        simp only [Bool.and_eq_true, decide_eq_true_eq] at hin
        omega
      refine ⟨l' ++ [.block cs], r', by simp [hps], ?_⟩
      have hmoved : Represents { b with cursor := width (l' ++ [.block cs]) } (l' ++ [.block cs]) r' :=
        h.moved (by simp [hps])
      rwa [width_append, width_cons, width_nil, Nat.add_zero] at hmoved
    case h_2 hnone =>
      rcases locate_boundary hsplit with ⟨l', r', hps, hwidth⟩ | ⟨l', cs, r', hps, hl, hr⟩
      · exact ⟨l', r', hps.symm, hwidth ▸ h.moved hps⟩
      · have hspan : (width l', width l' + size cs) ∈ b.markers :=
          h.marks.mem_iff.mpr (mem_spans.mpr ⟨l', cs, r', hps, (Nat.zero_add _).symm, rfl⟩)
        have hout := List.find?_eq_none.mp hnone _ hspan
        simp only [Bool.and_eq_true, decide_eq_true_eq] at hout
        omega

/-- A step to the left passes one piece. -/
theorem moveLeft_piece {p : Piece} (h : Represents b (l ++ [p]) r) :
    Represents b.moveLeft l (p :: r) := by
  have hps : l ++ [p] ++ r = l ++ p :: r := by simp
  have hpos : 0 < size p.chars := Marked.piece_pos (l := l) (r := r) (hps ▸ h.marked)
  have hbetween : b.cursor = width l + size p.chars := by simpa using h.between
  obtain ⟨front, c, hchars⟩ : ∃ front c, p.chars = front ++ [c] := by
    refine ⟨_, _, (List.dropLast_append_getLast ?_).symm⟩
    intro e
    rw [e] at hpos
    exact absurd hpos (by simp)
  have hlast : b.before.getLast? = some c := by
    rw [h.before_eq, text_append, text_cons, text_nil, List.append_nil, hchars]
    simp
  have hposition : b.cursor - c.utf8Size = width l + size front := by
    rw [hbetween, hchars, size_append, size_cons, size_nil]
    omega
  have hwithin : width l + size front < width l + size p.chars := by
    have := c.utf8Size_pos
    rw [hchars, size_append, size_cons, size_nil]
    omega
  unfold PromptBuffer.moveLeft
  rw [hlast]
  simp only
  split
  case h_1 m hfind =>
    have hspan := h.marks.mem_iff.mp (List.mem_of_find?_eq_some hfind)
    have hin := List.find?_some hfind
    simp only [Bool.and_eq_true, decide_eq_true_eq, hposition] at hin
    rw [hps] at hspan
    obtain ⟨cs, -, hstart, -⟩ := span_unique (a := m.1) (b := m.2) hspan hin.1 hin.2
      (by rw [Nat.zero_add]; omega) (by rw [Nat.zero_add]; omega)
    rw [Nat.zero_add] at hstart
    rw [hstart]
    exact h.moved hps
  case h_2 hnone =>
    cases p with
    | plain d =>
      have hempty : size front = 0 := by
        have hsingle : front = [] := by
          have := congrArg List.length hchars
          simp only [Piece.chars, List.length_singleton, List.length_append] at this
          exact List.length_eq_zero_iff.mp (by omega)
        rw [hsingle, size_nil]
      rw [hposition, hempty, Nat.add_zero]
      exact h.moved hps
    | block cs =>
      have hspan : (width l, width l + size cs) ∈ b.markers :=
        h.marks.mem_iff.mpr (mem_spans.mpr ⟨l, cs, r, hps, (Nat.zero_add _).symm, rfl⟩)
      have hout := List.find?_eq_none.mp hnone _ hspan
      simp only [Piece.chars] at hwithin
      simp only [Bool.and_eq_true, decide_eq_true_eq, hposition] at hout
      omega

theorem moveLeft_start (h : Represents b [] r) : b.moveLeft = b := by
  unfold PromptBuffer.moveLeft
  rw [h.before_eq]
  rfl

theorem moveLeft (h : Represents b l r) :
    ∃ l' r', l' ++ r' = l ++ r ∧ Represents b.moveLeft l' r' := by
  rcases List.eq_nil_or_concat l with rfl | ⟨l', p, rfl⟩
  · exact ⟨[], r, rfl, by rwa [h.moveLeft_start]⟩
  · rw [List.concat_eq_append] at h ⊢
    exact ⟨l', p :: r, by simp, h.moveLeft_piece⟩

theorem moveRight (h : Represents b l r) :
    ∃ l' r', l' ++ r' = l ++ r ∧ Represents b.moveRight l' r' := by
  unfold PromptBuffer.moveRight
  split
  · exact ⟨l, r, rfl, h⟩
  · exact h.setCursor _

theorem moveVertical (h : Represents b l r) (down : Bool) :
    ∃ l' r', l' ++ r' = l ++ r ∧ Represents (b.moveVertical down) l' r' := by
  unfold PromptBuffer.moveVertical
  simp only
  split
  · exact ⟨l, r, rfl, h⟩
  · exact h.setCursor _

/-! ## Backspace -/

theorem backspace_start (h : Represents b [] r) : b.backspace = b := by
  have hbetween : b.cursor = 0 := h.between
  have hmarkers : (b.markers.filter fun m => decide (m.2 ≤ 0) || decide (0 ≤ m.1)) = b.markers :=
    List.filter_eq_self.mpr fun m _ => by simp
  have hkept : (b.markers.map fun m =>
      if 0 ≤ m.1 then (m.1 - (0 - 0), m.2 - (0 - 0)) else m) = b.markers :=
    (List.map_congr_left (g := id) fun m _ => by simp).trans (List.map_id _)
  have hsame : b.backspace = ⟨b.text, 0, b.markers⟩ := by
    simp only [PromptBuffer.backspace, h.moveLeft_start, hbetween, hmarkers, hkept, h.before_eq,
      h.after_eq, h.written, text_nil, List.nil_append]
  rw [hsame, ← hbetween]

/-- A backspace removes the piece before the cursor. -/
theorem backspace_piece {p : Piece} (h : Represents b (l ++ [p]) r) :
    Represents b.backspace l r := by
  have hps : l ++ [p] ++ r = l ++ p :: r := by simp
  have hmarked : Marked (l ++ p :: r) := hps ▸ h.marked
  have hleft := h.moveLeft_piece
  have hstop : b.cursor = width l + size p.chars := by simpa using h.between
  have hstart : b.moveLeft.cursor = width l := hleft.between
  have hright : Marked r := fun cs hcs => hmarked cs (by simp [hcs])
  have hpos : 0 < size p.chars := Marked.piece_pos hmarked
  refine ⟨?_, hstart, ?_, ?_, ?_⟩
  · show b.moveLeft.before ++ b.after = _
    rw [hleft.before_eq, h.after_eq, text_append]
  · -- What is within the piece goes, and what stands after it moves up.
    show (List.map _ (b.moveLeft.markers.filter _)).Perm _
    rw [hstart, hstop]
    refine ((hleft.marks.filter _).map _).trans (List.Perm.of_eq ?_)
    rw [spans_append, spans_append, List.filter_append, List.map_append, Nat.zero_add]
    congr 1
    · have hkeep : (spans 0 l).filter (fun m => decide (m.2 ≤ width l) ||
          decide (width l + size p.chars ≤ m.1)) = spans 0 l := by
        refine List.filter_eq_self.mpr fun m hm => ?_
        have hbounds := spans_bounds (a := m.1) (b := m.2) hm
        simp only [Bool.or_eq_true, decide_eq_true_eq]
        omega
      rw [hkeep]
      refine (List.map_congr_left (g := id) fun m hm => ?_).trans (List.map_id _)
      have hlt := span_lt hmarked.left.solid (a := m.1) (b := m.2) hm
      have hbounds := spans_bounds (a := m.1) (b := m.2) hm
      exact if_neg (by omega)
    · have hrest : (spans (width l) (p :: r)).filter (fun m => decide (m.2 ≤ width l) ||
          decide (width l + size p.chars ≤ m.1)) = spans (width l + size p.chars) r := by
        have hall : (spans (width l + size p.chars) r).filter (fun m => decide (m.2 ≤ width l) ||
            decide (width l + size p.chars ≤ m.1)) = spans (width l + size p.chars) r := by
          refine List.filter_eq_self.mpr fun m hm => ?_
          have hbounds := spans_bounds (a := m.1) (b := m.2) hm
          simp only [Bool.or_eq_true, decide_eq_true_eq]
          omega
        cases p with
        | plain c => simpa [spans, Piece.chars] using hall
        | block cs =>
          have hout : ¬ (width l + size cs ≤ width l ∨ width l + size cs ≤ width l) := by
            simp only [Piece.chars] at hpos
            omega
          rw [spans, List.filter_cons_of_neg (by
            simp only [Bool.or_eq_true, decide_eq_true_eq]
            exact hout)]
          exact hall
      rw [hrest, spans_shift, List.map_map]
      refine (List.map_congr_left (g := id) fun m hm => ?_).trans (List.map_id _)
      have hbounds := spans_bounds (a := m.1) (b := m.2) hm
      simp only [Function.comp_apply, id_eq]
      rw [if_pos (by omega)]
      refine Prod.ext ?_ ?_ <;> simp only <;> omega
  · exact hmarked.left.append hright
  · show size (b.moveLeft.before ++ b.after) ≤ maxPromptBytes
    have hbounded := h.bounded
    rw [h.size_eq] at hbounded
    rw [hleft.before_eq, h.after_eq, size_append]
    simp only [width_append] at hbounded
    exact le_trans (by simp only [width]; omega) hbounded

theorem backspace (h : Represents b l r) :
    ∃ l', Represents b.backspace l' r ∧ (names l').Sublist (names l) := by
  rcases List.eq_nil_or_concat l with rfl | ⟨l', p, rfl⟩
  · exact ⟨[], by rwa [h.backspace_start], List.Sublist.refl _⟩
  · rw [List.concat_eq_append] at h ⊢
    exact ⟨l', h.backspace_piece, by simp⟩

/-! ## Markers -/

theorem names_text (cs : List Char) : names (cs.map Piece.plain) = [] := by
  induction cs with
  | nil => rfl
  | cons c cs ih => exact ih

theorem text_plain (cs : List Char) : text (cs.map Piece.plain) = cs := by
  induction cs with
  | nil => rfl
  | cons c cs ih => rw [List.map_cons, text_cons, ih]; rfl

theorem spans_plain (n : Nat) (cs : List Char) : spans n (cs.map Piece.plain) = [] := by
  induction cs generalizing n with
  | nil => rfl
  | cons c cs ih => exact ih _

/-- Characters that fit stand before the cursor. -/
theorem pushAll (h : Represents b l r) (cs : List Char)
    (hfits : size b.text + size cs ≤ maxPromptBytes) :
    Represents (cs.foldl (fun b c => (b.pushVisible c).1) b) (l ++ cs.map .plain) r := by
  induction cs generalizing b l with
  | nil => simpa using h
  | cons c cs ih =>
    rw [size_cons] at hfits
    obtain ⟨-, hpush⟩ := h.pushVisible_fits (c := c) (by omega)
    have hsize : size (b.pushVisible c).1.text = size b.text + c.utf8Size := by
      rw [hpush.size_eq, h.size_eq]
      simp [Piece.chars]
      omega
    have hrest := ih hpush (by omega)
    simpa using hrest

/-- A new marker stands before the cursor. -/
theorem pushImageMarker (h : Represents b l r) {start : Nat}
    (hpush : b.pushImageMarker name = some (b', start)) :
    Represents b' (l ++ [.block (PromptBuffer.marker name)]) r := by
  unfold PromptBuffer.pushImageMarker at hpush
  split at hpush
  · cases hpush
  split at hpush
  · cases hpush
  split at hpush
  case isFalse => cases hpush
  case isTrue hfits _ =>
    obtain ⟨rfl, -⟩ := Prod.mk.inj (Option.some.inj hpush)
    have hall := h.pushAll (PromptBuffer.marker name) (by rw [size_marker]; omega)
    have hwidth : width (l ++ (PromptBuffer.marker name).map .plain) =
        width (l ++ [.block (PromptBuffer.marker name)]) := by
      simp [width, text_plain, Piece.chars]
    have htext : text (l ++ (PromptBuffer.marker name).map .plain ++ r) =
        text (l ++ [.block (PromptBuffer.marker name)] ++ r) := by
      simp [text_plain, Piece.chars]
    refine ⟨hall.written.trans htext, hall.between.trans hwidth, ?_, ?_, hall.bounded⟩
    · show (_ ++ [_]).Perm _
      rw [hall.between, hwidth, h.between]
      refine (List.perm_append_singleton ..).trans ?_
      refine (List.Perm.cons _ hall.marks).trans ?_
      rw [spans_append, spans_append, spans_plain, List.append_nil, hwidth, spans_append,
        spans_append, List.append_assoc, Nat.zero_add, Nat.zero_add]
      refine List.Perm.trans (List.perm_middle.symm) (List.Perm.of_eq ?_)
      simp [spans, Piece.chars]
    · have hmarked := h.marked
      refine Marked.append (Marked.append hmarked.left ?_) hmarked.right
      intro cs hcs
      have hblock : cs = PromptBuffer.marker name := by simpa using hcs
      exact ⟨name, hblock⟩

/-- What is between the brackets of a marker. -/
theorem slice_marker (l r : List Piece) (name : List Char) :
    slice (text (l ++ .block (PromptBuffer.marker name) :: r)) (width l + 1)
      (width l + size (PromptBuffer.marker name) - 1) = some name := by
  have hopen : '['.utf8Size = 1 := by decide
  have htext : text (l ++ .block (PromptBuffer.marker name) :: r) =
      (text l ++ ['[']) ++ name ++ (']' :: text r) := by
    simp [Piece.chars, PromptBuffer.marker]
  have hstart : width l + 1 = size (text l ++ ['[']) := by
    rw [size_append, size_cons, size_nil, hopen]
    rfl
  rw [htext, size_marker, hstart, show width l + (size name + 2) - 1 =
    size (text l ++ ['[']) + size name by rw [← hstart]; omega]
  exact slice_append _ _ _

/-- A block stands where its span is. -/
theorem slice_block (l r : List Piece) (cs : List Char) :
    slice (text (l ++ .block cs :: r)) (width l) (width l + size cs) = some cs := by
  rw [text_append, text_cons, ← List.append_assoc]
  exact slice_append _ _ _

theorem mem_names (h : Marked ps) :
    name ∈ names ps ↔ ∃ l r, ps = l ++ .block (PromptBuffer.marker name) :: r := by
  rw [names, List.mem_filterMap]
  constructor
  · rintro ⟨p, hp, hname⟩
    cases p with
    | plain c => cases hname
    | block cs =>
      obtain ⟨name', rfl⟩ := h cs hp
      obtain rfl : name' = name := (blockName_marker _).symm.trans (Option.some.inj hname)
      exact List.append_of_mem hp
  · rintro ⟨l, r, rfl⟩
    exact ⟨_, List.mem_append_right _ (List.mem_cons_self ..), congrArg some (blockName_marker name)⟩

/-- The markers are those of the names. -/
theorem marker_of_name (h : Represents b l r) (hname : name ∈ names (l ++ r)) :
    ∃ m ∈ b.markers, slice b.text m.1 m.2 = some (PromptBuffer.marker name) := by
  obtain ⟨l', r', hps⟩ := (mem_names h.marked).mp hname
  refine ⟨(width l', width l' + size (PromptBuffer.marker name)), h.marks.mem_iff.mpr
    (mem_spans.mpr ⟨l', _, r', hps, (Nat.zero_add _).symm, rfl⟩), ?_⟩
  rw [h.written, hps]
  exact slice_block _ _ _

/-- The piece of a marker. -/
theorem marker_piece (h : Represents b l r) {m : Nat × Nat} (hm : m ∈ b.markers) :
    ∃ l' name r', l ++ r = l' ++ .block (PromptBuffer.marker name) :: r' ∧
      m = (width l', width l' + size (PromptBuffer.marker name)) := by
  obtain ⟨l', cs, r', hps, hstart, hstop⟩ :=
    mem_spans (a := m.1) (b := m.2) |>.mp (h.marks.mem_iff.mp hm)
  obtain ⟨name, rfl⟩ := h.marked cs (by simp [hps])
  rw [Nat.zero_add] at hstart
  rw [hstart] at hstop
  exact ⟨l', name, r', hps, Prod.ext hstart hstop⟩

theorem name_of_marker (h : Represents b l r) {m : Nat × Nat} (hm : m ∈ b.markers) :
    ∃ name ∈ names (l ++ r), slice b.text m.1 m.2 = some (PromptBuffer.marker name) := by
  obtain ⟨l', name, r', hps, rfl⟩ := h.marker_piece hm
  refine ⟨name, (mem_names h.marked).mpr ⟨l', r', hps⟩, ?_⟩
  rw [h.written, hps]
  exact slice_block _ _ _

/-- A marker that is found is in the text. -/
theorem marker_found (h : Represents b l r) {start : Nat} (hfound : b.markerStart name = some start) :
    ∃ l' r', l ++ r = l' ++ .block (PromptBuffer.marker name) :: r' ∧ start = width l' ∧
      (start, start + size (PromptBuffer.marker name)) ∈ b.markers := by
  obtain ⟨m, hm, hat⟩ := List.exists_of_findSome?_eq_some hfound
  obtain ⟨l', name', r', hps, rfl⟩ := h.marker_piece hm
  rw [h.written, hps, slice_marker] at hat
  split at hat
  case isFalse => cases hat
  case isTrue hname =>
    split at hat
    case isFalse => cases hat
    case isTrue =>
      obtain rfl := Option.some.inj hat
      obtain rfl := Option.some.inj hname
      exact ⟨l', r', hps, rfl, hm⟩

/-- A marker is found where its name stands. -/
theorem markerStart (h : Represents b l r) (hnodup : (names (l ++ r)).Nodup) {start : Nat} :
    b.markerStart name = some start ↔ (name, start) ∈ places 0 (l ++ r) := by
  have hsound : ∀ {found}, b.markerStart name = some found →
      (name, found) ∈ places 0 (l ++ r) := by
    intro found hfound
    obtain ⟨l', r', hps, rfl, -⟩ := h.marker_found hfound
    exact mem_places.mpr ⟨l', _, r', hps, (Nat.zero_add _).symm, (blockName_marker _).symm⟩
  refine ⟨hsound, fun hplace => ?_⟩
  obtain ⟨l', cs, r', hps, hstart, hname⟩ := mem_places.mp hplace
  obtain ⟨name', rfl⟩ := h.marked cs (by simp [hps])
  rw [blockName_marker] at hname
  subst hname
  rw [Nat.zero_add] at hstart
  have hspan : (width l', width l' + size (PromptBuffer.marker name)) ∈ b.markers :=
    h.marks.mem_iff.mpr (mem_spans.mpr ⟨l', _, r', hps, (Nat.zero_add _).symm, rfl⟩)
  have hsmall : width l' < 2 ^ 32 := by
    have hbounded := h.bounded
    rw [h.size_eq, hps, width_append, maxPromptBytes] at hbounded
    omega
  have hsome : (b.markerStart name).isSome := by
    refine List.findSome?_isSome_iff.mpr ⟨_, hspan, ?_⟩
    rw [h.written, hps, slice_marker, if_pos rfl, if_pos hsmall]
    rfl
  obtain ⟨found, hfound⟩ := Option.isSome_iff_exists.mp hsome
  -- The names differ, so there is only one place with this name.
  have hsame := List.inj_on_of_nodup_map (f := Prod.fst) (by rwa [places_names]) (hsound hfound)
    hplace rfl
  rw [hfound, (Prod.mk.inj hsame).2]

/-- The names of the prompt are those with a marker. -/
theorem markerStart_isSome (h : Represents b l r) (hnodup : (names (l ++ r)).Nodup) :
    (b.markerStart name).isSome ↔ name ∈ names (l ++ r) := by
  rw [Option.isSome_iff_exists, ← places_names 0 (l ++ r)]
  simp only [h.markerStart hnodup, List.mem_map, Prod.exists, exists_and_right,
    exists_eq_right]

/-- The cursor is behind all markers when it is behind their ends. -/
theorem names_after (h : Represents b l r) (hbehind : ∀ m ∈ b.markers, m.2 ≤ b.cursor) :
    names r = [] := by
  refine List.filterMap_eq_nil_iff.mpr fun p hp => ?_
  cases p with
  | plain c => rfl
  | block cs =>
    obtain ⟨r₁, r₂, rfl⟩ := List.append_of_mem hp
    have hspan : (width (l ++ r₁), width (l ++ r₁) + size cs) ∈ b.markers :=
      h.marks.mem_iff.mpr
        (mem_spans.mpr ⟨l ++ r₁, cs, r₂, by simp, (Nat.zero_add _).symm, rfl⟩)
    have hend := hbehind _ hspan
    have hpos : 0 < size cs := size_pos fun e => h.marked.solid (by simp [e])
    rw [h.between, width_append] at hend
    simp only at hend
    omega

/-! ## Truncation -/

/-- No marker ends behind the position between two pieces, apart from those after it. -/
theorem marks_front (hmarked : Marked (l ++ r)) :
    (spans 0 (l ++ r)).filter (fun m => decide (m.2 ≤ width l)) = spans 0 l := by
  rw [spans_append, List.filter_append, Nat.zero_add]
  have hfront : (spans 0 l).filter (fun m => decide (m.2 ≤ width l)) = spans 0 l := by
    refine List.filter_eq_self.mpr fun m hm => ?_
    have hbounds := spans_bounds (a := m.1) (b := m.2) hm
    simp only [decide_eq_true_eq]
    omega
  have hback : (spans (width l) r).filter (fun m => decide (m.2 ≤ width l)) = [] := by
    refine List.filter_eq_nil_iff.mpr fun m hm => ?_
    have hbounds := spans_bounds (a := m.1) (b := m.2) hm
    have hlt := span_lt hmarked.right.solid (a := m.1) (b := m.2) hm
    simp only [decide_eq_true_eq]
    omega
  rw [hfront, hback, List.append_nil]

/-- Two ways to part the pieces: the shorter front is within the longer one. -/
theorem part_within (hmarked : Marked (l ++ r)) {l' r' : List Piece} (hps : l ++ r = l' ++ r')
    (hle : width l ≤ width l') : ∃ x, l' = l ++ x := by
  rcases List.append_eq_append_iff.mp hps with ⟨x, rfl, -⟩ | ⟨x, rfl, rfl⟩
  · exact ⟨x, rfl⟩
  · cases x with
    | nil => exact ⟨[], by simp⟩
    | cons p x =>
      have hpos := Marked.piece_pos (l := l') (p := p) (r := x ++ r) (by simpa using hmarked)
      rw [width_append, width_cons] at hle
      omega

/-- What is cut off are whole pieces. -/
theorem truncate_parts (h : Represents b l r) {bytes : Nat}
    (hcut : (b.truncate bytes).2 = true) :
    ∃ l₀ r₀, l ++ r = l₀ ++ r₀ ∧ width l₀ = bytes ∧ (b.truncate bytes).1 =
      ⟨text l₀, min b.cursor bytes, b.markers.filter fun m => decide (m.2 ≤ bytes)⟩ := by
  unfold PromptBuffer.truncate at hcut ⊢
  split at hcut
  · cases hcut
  rename_i front back hsplit
  split at hcut
  · cases hcut
  rename_i houtside
  simp only [if_neg houtside]
  rw [h.written] at hsplit
  rcases locate_boundary hsplit with ⟨l₀, r₀, hps, hwidth⟩ | ⟨l₀, cs, r₀, hps, hl, hr⟩
  · refine ⟨l₀, r₀, hps, hwidth, ?_⟩
    rw [hps, text_append, ← hwidth, width, split_append] at hsplit
    obtain ⟨hfront, -⟩ := Prod.mk.inj (Option.some.inj hsplit)
    rw [hfront]
  · -- The position would be within a marker.
    refine absurd ?_ houtside
    have hmark : (width l₀, width l₀ + size cs) ∈ b.markers :=
      h.marks.mem_iff.mpr (mem_spans.mpr ⟨l₀, cs, r₀, hps, (Nat.zero_add _).symm, rfl⟩)
    exact List.any_eq_true.mpr ⟨_, hmark, by simp [hl, hr]⟩

theorem truncate (h : Represents b l r) (bytes : Nat) :
    ∃ l' r', Represents (b.truncate bytes).1 l' r' := by
  cases hdone : (b.truncate bytes).2 with
  | false =>
    refine ⟨l, r, ?_⟩
    unfold PromptBuffer.truncate at hdone ⊢
    split
    · exact h
    · split
      · exact h
      · simp_all
  | true =>
    obtain ⟨l₀, r₀, hps, rfl, hcut⟩ := h.truncate_parts hdone
    have hmarked : Marked (l₀ ++ r₀) := hps ▸ h.marked
    have hmarks : (b.markers.filter fun m => decide (m.2 ≤ width l₀)).Perm (spans 0 l₀) := by
      refine (h.marks.filter _).trans (List.Perm.of_eq ?_)
      rw [hps]
      exact marks_front hmarked
    have hbounded : size (text l₀) ≤ maxPromptBytes := by
      have hbounded := h.bounded
      rw [h.size_eq, hps, width_append] at hbounded
      exact le_trans (Nat.le_add_right _ _) hbounded
    rw [hcut, h.between]
    by_cases hle : width l ≤ width l₀
    · obtain ⟨x, rfl⟩ := part_within h.marked hps hle
      exact ⟨l, x, rfl, min_eq_left hle, hmarks, hmarked.left, hbounded⟩
    · refine ⟨l₀, [], ?_, min_eq_right (not_le.mp hle).le, ?_, ?_, hbounded⟩
      · rw [List.append_nil]
      · rw [List.append_nil]
        exact hmarks
      · rw [List.append_nil]
        exact hmarked.left

/-! ## Completion -/

theorem clear : Represents b.clear [] [] := empty

/-- Pieces whose text has no bracket are no markers. -/
theorem plain_of_unbracketed (hmarked : Marked ps) (htext : ']' ∉ text ps) :
    ps = (text ps).map .plain := by
  induction ps with
  | nil => rfl
  | cons p ps ih =>
    rw [text_cons, List.mem_append, not_or] at htext
    have hrest := ih (fun cs hcs => hmarked cs (List.mem_cons_of_mem _ hcs)) htext.2
    cases p with
    | plain c => rw [text_cons, List.map_append, ← hrest]; rfl
    | block cs =>
      obtain ⟨name, rfl⟩ := hmarked cs (List.mem_cons_self ..)
      exact absurd (by simp [Piece.chars, PromptBuffer.marker]) htext.1

/-- The text before unbracketed characters ends with a piece. -/
theorem split_pieces (hmarked : Marked ps) {front token : List Char}
    (htext : text ps = front ++ token) (htoken : ']' ∉ token) :
    ∃ l r, ps = l ++ r ∧ text l = front ∧ text r = token := by
  have hle : size front ≤ width ps := by
    rw [width, htext, size_append]
    omega
  have hsplit : split (text ps) (size front) = some (front, token) :=
    split_eq_some.mpr ⟨htext, rfl⟩
  rcases locate_boundary hsplit with ⟨l, r, rfl, hwidth⟩ | ⟨l, cs, r, rfl, hl, hr⟩
  · rw [text_append] at hsplit
    have hpieces : split (text l ++ text r) (size front) = some (text l, text r) :=
      hwidth ▸ split_append (text l) (text r)
    rw [hsplit] at hpieces
    obtain ⟨rfl, rfl⟩ := Prod.mk.inj (Option.some.inj hpieces)
    exact ⟨l, r, rfl, rfl, rfl⟩
  · -- The marker that the boundary lies in would end with a bracket in the token.
    exfalso
    obtain ⟨name, rfl⟩ := hmarked cs (by simp)
    rw [text_append, text_cons, ← List.append_assoc] at htext
    rcases List.append_eq_append_iff.mp htext with ⟨m, rfl, -⟩ | ⟨m, hm, rfl⟩
    · rw [size_append, size_append] at hr
      simp only [width, Piece.chars] at hr
      omega
    · have hnonempty : m ≠ [] := by
        rintro rfl
        rw [List.append_nil] at hm
        rw [← hm, size_append] at hr
        simp only [width, Piece.chars] at hr
        omega
      have hlast := congrArg List.getLast? hm
      rw [List.getLast?_append_of_ne_nil _ hnonempty] at hlast
      simp only [Piece.chars, PromptBuffer.marker, List.getLast?_append, List.getLast?_cons] at hlast
      refine htoken (List.mem_append_left _ (List.mem_of_getLast? (hlast.symm.trans ?_)))
      simp

/-- What is completed is the end of the text, and has no bracket. -/
theorem skill_token {token : List Char} (h : b.skillCompletionPrefix = some token) :
    b.cursor = size b.text ∧ ∃ front, b.text = front ++ '@' :: token ∧ ']' ∉ '@' :: token := by
  unfold PromptBuffer.skillCompletionPrefix at h
  split at h
  · cases h
  rename_i hcursor
  split at h
  case h_2 => cases h
  case h_1 rest htail =>
    split at h
    case isFalse => cases h
    case isTrue hskill =>
      obtain rfl := Option.some.inj h
      refine ⟨Decidable.not_not.mp hcursor,
        (b.text.reverse.dropWhile fun c => !isWhitespace c).reverse, ?_, ?_⟩
      · rw [← htail, ← List.reverse_append, List.takeWhile_append_dropWhile, List.reverse_reverse]
      · intro hbracket
        rcases List.mem_cons.mp hbracket with e | hbracket
        · exact absurd e (by decide)
        · exact absurd (List.all_eq_true.mp hskill _ hbracket) (by decide)

/-- A completion replaces pieces without a marker at the end. -/
theorem completeSkill_parts (h : Represents b l r) (name : List Char) :
    (b.completeSkill name).1 = b ∨ ∃ l₀ r₀ written, l ++ r = l₀ ++ r₀ ∧ names r₀ = [] ∧
      spans (width l₀) r₀ = [] ∧ size written ≤ maxPromptBytes ∧
      written = text (l₀ ++ ('@' :: name ++ [' ']).map .plain) ∧
      (b.completeSkill name).1 = { b with text := written, cursor := size written } := by
  unfold PromptBuffer.completeSkill
  split
  · exact Or.inl rfl
  rename_i token hprefix
  simp only
  split
  · exact Or.inl rfl
  rename_i hfits
  right
  obtain ⟨-, front, htext, hbracket⟩ := skill_token hprefix
  have hat : '@'.utf8Size = 1 := by decide
  have hspace : ' '.utf8Size = 1 := by decide
  have hstart : size b.text - (size token + 1) = size front := by
    rw [htext, size_append, size_cons, hat]
    omega
  obtain ⟨l₀, r₀, hps, hfront, htoken⟩ := split_pieces h.marked (h.written.symm.trans htext) hbracket
  have hmarked : Marked (l₀ ++ r₀) := hps ▸ h.marked
  have hplain : r₀ = (text r₀).map .plain :=
    plain_of_unbracketed hmarked.right (by rw [htoken]; exact hbracket)
  rw [hstart] at hfits
  rw [hstart, htext, split_append]
  refine ⟨l₀, r₀, front ++ '@' :: name ++ [' '], hps, ?_, ?_, ?_, ?_, rfl⟩
  · rw [hplain]
    exact names_text _
  · rw [hplain]
    exact spans_plain _ _
  · rw [size_append, size_append, size_cons, size_cons, size_nil, hat, hspace]
    omega
  · rw [text_append, text_plain, hfront]
    exact List.append_assoc ..

theorem completeSkill (h : Represents b l r) (name : List Char) :
    ∃ l' r', Represents (b.completeSkill name).1 l' r' ∧ names (l' ++ r') = names (l ++ r) := by
  rcases h.completeSkill_parts name with hsame | ⟨l₀, r₀, written, hps, hnames, hspans, hfits, hwritten,
    hdone⟩
  · rw [hsame]
    exact ⟨l, r, h, rfl⟩
  rw [hdone]
  have hmarked : Marked (l₀ ++ r₀) := hps ▸ h.marked
  refine ⟨l₀ ++ ('@' :: name ++ [' ']).map .plain, [], ⟨?_, ?_, ?_, ?_, hfits⟩, ?_⟩
  · rw [List.append_nil]
    exact hwritten
  · exact congrArg size hwritten
  · rw [List.append_nil, spans_append, spans_plain, List.append_nil]
    have hmarks := h.marks
    rwa [hps, spans_append, Nat.zero_add, hspans, List.append_nil] at hmarks
  · rw [List.append_nil]
    refine hmarked.left.append fun cs hcs => ?_
    simp at hcs
  · rw [List.append_nil, names_append, names_text, hps, names_append, hnames]

end Represents

end Morons.Cli
