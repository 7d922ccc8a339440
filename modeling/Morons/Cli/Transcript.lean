import Morons.Library.Attempt
import Morons.Library.Pieces
import Morons.Cli.Safety

/-!
# Transcript text

An untrusted text is sanitized and cut into parts that are small enough to be shown.
What is cut are its graphemes, as the terminal library finds them in each line: a
grapheme is kept whole, or written in escapes if it is too long.
-/

namespace Morons.Cli

open Attempt Utf8

def maxSourceBytes : Nat := 1024 * 1024
def maxTextBytes : Nat := 6 * maxSourceBytes
def maxPartBytes : Nat := 16 * 1024
def maxPartScalars : Nat := 2048
def maxPartNewlines : Nat := 128
def maxGraphemeBytes : Nat := 128

/-- The graphemes of a line: nonempty pieces of it. -/
structure Segmentation where
  graphemes : List Char → List (List Char)
  joined : ∀ line, (graphemes line).flatten = line
  nonempty : ∀ line, [] ∉ graphemes line

structure TranscriptText where
  text : List Char := []
  parts : List (Nat × Nat) := []
  escapedGraphemes : Bool := false
  deriving DecidableEq

inductive TranscriptTextError
  | sourceTooLarge | representationTooLarge
  deriving DecidableEq

structure PartBuilder where
  value : TranscriptText := {}
  start : Nat := 0
  scalars : Nat := 0
  newlines : Nat := 0
  deriving DecidableEq

/-- `char::escape_unicode`. -/
def escapeUnicode (c : Char) : List Char :=
  '\\' :: 'u' :: '{' :: Nat.toDigits 16 c.toNat ++ ['}']

/-- `str::split_inclusive('\n')`. -/
def splitInclusive : List Char → List (List Char)
  | [] => []
  | c :: rest =>
    if c = '\n' then [c] :: splitInclusive rest
    else
      match splitInclusive rest with
      | [] => [[c]]
      | segment :: more => (c :: segment) :: more

/-- A segment without its line feed. -/
def segmentLine (segment : List Char) : List Char :=
  if segment.getLast? = some '\n' then segment.dropLast else segment

namespace PartBuilder

/-- `usize::from(unit == "\n")`. -/
def unitNewlines (unit : List Char) : Nat := if unit = ['\n'] then 1 else 0

/-- The unit does not fit in the part under way. -/
def exceeds (b : PartBuilder) (unit : List Char) : Prop :=
  size b.value.text + size unit - b.start > maxPartBytes ∨
    b.scalars + unit.length > maxPartScalars ∨ b.newlines + unitNewlines unit > maxPartNewlines

instance (b : PartBuilder) (unit : List Char) : Decidable (b.exceeds unit) :=
  inferInstanceAs (Decidable (_ ∨ _ ∨ _))

def closePart (b : PartBuilder) : PartBuilder where
  value := { b.value with parts := b.value.parts ++ [(b.start, size b.value.text)] }
  start := size b.value.text

def append (b : PartBuilder) (unit : List Char) : PartBuilder :=
  { b with
    value := { b.value with text := b.value.text ++ unit }
    scalars := b.scalars + unit.length
    newlines := b.newlines + unitNewlines unit }

def push (b : PartBuilder) (unit : List Char) : Except TranscriptTextError PartBuilder := do
  require (size b.value.text + size unit ≤ maxTextBytes) .representationTooLarge
  return (if b.exceeds unit then b.closePart else b).append unit

def pushGrapheme (b : PartBuilder) (grapheme : List Char) :
    Except TranscriptTextError PartBuilder :=
  if size grapheme > maxGraphemeBytes then
    sweep (fun b c => b.push (escapeUnicode c))
      { b with value := { b.value with escapedGraphemes := true } } grapheme
  else b.push grapheme

def pushSegment (s : Segmentation) (b : PartBuilder) (segment : List Char) :
    Except TranscriptTextError PartBuilder := do
  let b ← sweep pushGrapheme b (s.graphemes (segmentLine segment))
  if segment.getLast? = some '\n' then b.push ['\n'] else return b

end PartBuilder

namespace TranscriptText

def fromUntrusted (s : Segmentation) (input : List Char) :
    Except TranscriptTextError TranscriptText := do
  require (size input ≤ maxSourceBytes) .sourceTooLarge
  let sanitized := visibleCharacters input
  let builder ← sweep (PartBuilder.pushSegment s) {} (splitInclusive sanitized)
  return { builder.value with
    parts := builder.value.parts ++ [(builder.start, size builder.value.text)] }

end TranscriptText

/-! ## What is presented -/

/-- The graphemes of a segment, and its line feed. -/
def segmentElements (s : Segmentation) (segment : List Char) : List (List Char) :=
  s.graphemes (segmentLine segment) ++ if segment.getLast? = some '\n' then [['\n']] else []

/-- The graphemes and the line feeds of a text. -/
def elements (s : Segmentation) (sanitized : List Char) : List (List Char) :=
  (splitInclusive sanitized).flatMap (segmentElements s)

/-- A grapheme, in escapes if it is too long. -/
def rendered (grapheme : List Char) : List Char :=
  if size grapheme > maxGraphemeBytes then grapheme.flatMap escapeUnicode else grapheme

/-- The places of pieces that follow one another. -/
def ranges : Nat → List (List Char) → List (Nat × Nat)
  | _, [] => []
  | n, piece :: rest => (n, n + size piece) :: ranges (n + size piece) rest

/-- A part is within the bounds. -/
structure Fits (piece : List Char) : Prop where
  bytes : size piece ≤ maxPartBytes
  scalars : piece.length ≤ maxPartScalars
  newlines : piece.count '\n' ≤ maxPartNewlines

structure Presents (s : Segmentation) (sanitized : List Char) (t : TranscriptText) : Prop where
  /-- The text is made of the graphemes of the sanitized text. -/
  source : (elements s sanitized).flatten = sanitized
  text : t.text = (elements s sanitized).flatMap rendered
  /-- The parts follow one another, and are all of the text. -/
  parts : ∃ pieces, t.parts = ranges 0 pieces ∧ pieces.flatten = t.text ∧
    (∀ piece ∈ pieces, Fits piece) ∧ ([] ∈ pieces → t.text = [] ∧ pieces = [[]])
  /-- No part begins or ends within a grapheme that is kept. -/
  whole : ∀ before grapheme after, elements s sanitized = before ++ grapheme :: after →
    size grapheme ≤ maxGraphemeBytes → ∀ part ∈ t.parts, ∀ bound, bound = part.1 ∨ bound = part.2 →
    bound ≤ size (before.flatMap rendered) ∨
      size (before.flatMap rendered) + size grapheme ≤ bound

/-! ## Units -/

/-- What is pushed at once: it is short, and a line feed comes alone. -/
structure IsUnit (unit : List Char) : Prop where
  nonempty : unit ≠ []
  short : size unit ≤ maxGraphemeBytes
  line : unit = ['\n'] ∨ '\n' ∉ unit

/-- The units of a grapheme. -/
def graphemeUnits (grapheme : List Char) : List (List Char) :=
  if size grapheme > maxGraphemeBytes then grapheme.map escapeUnicode else [grapheme]

section Units

variable {segment grapheme unit : List Char}

theorem length_le_size (cs : List Char) : cs.length ≤ size cs := by
  induction cs with
  | nil => exact le_refl _
  | cons c rest ih =>
    have := c.utf8Size_pos
    rw [List.length_cons, size_cons]
    omega

theorem graphemeUnits_flatten (grapheme : List Char) :
    (graphemeUnits grapheme).flatten = rendered grapheme := by
  unfold graphemeUnits rendered
  split
  · rfl
  · exact List.flatten_singleton

theorem units_flatten (graphemes : List (List Char)) :
    (graphemes.flatMap graphemeUnits).flatten = graphemes.flatMap rendered := by
  induction graphemes with
  | nil => rfl
  | cons grapheme rest ih =>
    rw [List.flatMap_cons, List.flatten_append, graphemeUnits_flatten, ih, List.flatMap_cons]

theorem graphemeUnits_kept (h : size grapheme ≤ maxGraphemeBytes) :
    graphemeUnits grapheme = [grapheme] := by
  rw [graphemeUnits, if_neg (by omega)]

theorem mem_toDigits {n : Nat} {c : Char} (h : c ∈ Nat.toDigits 16 n) :
    ∃ d < 16, c = Nat.digitChar d := by
  induction n using Nat.strongRecOn with
  | ind n ih =>
    rw [Nat.toDigits_eq_if (by decide)] at h
    split at h
    case isTrue hsmall => exact ⟨n, hsmall, List.mem_singleton.mp h⟩
    case isFalse hlarge =>
      rcases List.mem_append.mp h with hfront | hlast
      · exact ih (n / 16) (Nat.div_lt_self (by omega) (by decide)) hfront
      · exact ⟨n % 16, Nat.mod_lt _ (by decide), List.mem_singleton.mp hlast⟩

theorem digitChar_plain : ∀ d < 16, (Nat.digitChar d).utf8Size = 1 ∧ Nat.digitChar d ≠ '\n' := by
  decide

theorem size_ascii {cs : List Char} (h : ∀ c ∈ cs, c.utf8Size = 1) : size cs = cs.length := by
  induction cs with
  | nil => rfl
  | cons c rest ih =>
    rw [List.forall_mem_cons] at h
    rw [size_cons, ih h.2, h.1, List.length_cons, Nat.add_comm]

theorem escapeUnicode_unit (c : Char) : IsUnit (escapeUnicode c) := by
  have hdigits : ∀ d ∈ Nat.toDigits 16 c.toNat, d.utf8Size = 1 ∧ d ≠ '\n' := by
    intro d hd
    obtain ⟨n, hn, rfl⟩ := mem_toDigits hd
    exact digitChar_plain n hn
  have hlength : (Nat.toDigits 16 c.toNat).length ≤ 6 := by
    refine (Nat.length_toDigits_le_iff (by decide) (by decide)).mpr ?_
    have := c.valid
    rcases this with hsmall | ⟨-, hlarge⟩
    · exact Nat.lt_trans hsmall (by decide)
    · exact Nat.lt_trans hlarge (by decide)
  have hall : ∀ d ∈ escapeUnicode c, d.utf8Size = 1 ∧ d ≠ '\n' := by
    intro d hd
    simp only [escapeUnicode, List.cons_append, List.mem_cons, List.mem_append,
      List.not_mem_nil, or_false] at hd
    rcases hd with rfl | rfl | rfl | hd | rfl
    · decide
    · decide
    · decide
    · exact hdigits d hd
    · decide
  refine ⟨by simp [escapeUnicode], ?_, Or.inr fun hline => (hall _ hline).2 rfl⟩
  rw [size_ascii fun d hd => (hall d hd).1]
  simp only [escapeUnicode, List.length_cons, List.length_append, List.length_nil,
    maxGraphemeBytes]
  omega

theorem isUnit_line : IsUnit ['\n'] := ⟨by decide, by decide, Or.inl rfl⟩

theorem isUnit_count (h : IsUnit unit) :
    PartBuilder.unitNewlines unit = unit.count '\n' := by
  unfold PartBuilder.unitNewlines
  rcases h.line with rfl | hnone
  · rfl
  · rw [List.count_eq_zero.mpr hnone, if_neg]
    rintro rfl
    exact hnone (List.mem_singleton_self _)

theorem splitInclusive_flatten (cs : List Char) : (splitInclusive cs).flatten = cs := by
  induction cs with
  | nil => rfl
  | cons c rest ih =>
    rw [splitInclusive]
    split
    · rw [List.flatten_cons, ih]
      rfl
    split
    · rename_i hnone
      rw [hnone] at ih
      rw [← ih]
      rfl
    · rename_i segment more hsome
      rw [hsome] at ih
      rw [List.flatten_cons, List.cons_append, ← List.flatten_cons, ih]

theorem segmentLine_cons {c : Char} (hc : c ≠ '\n') :
    segmentLine (c :: segment) = c :: segmentLine segment := by
  cases segment with
  | nil =>
    have hplain : ¬ [c].getLast? = some '\n' := by simpa using hc
    rw [segmentLine, if_neg hplain, segmentLine, if_neg (by simp)]
  | cons d rest =>
    rw [segmentLine, segmentLine, List.getLast?_cons_cons]
    split <;> rfl

/-- A line has no line feed. -/
theorem segmentLine_plain {cs : List Char} (h : segment ∈ splitInclusive cs) :
    '\n' ∉ segmentLine segment := by
  induction cs generalizing segment with
  | nil => cases h
  | cons c rest ih =>
    rw [splitInclusive] at h
    split at h
    case isTrue hline =>
      rcases List.mem_cons.mp h with rfl | hmore
      · rw [hline]
        decide
      · exact ih hmore
    case isFalse hother =>
      split at h
      case h_1 =>
        rw [List.mem_singleton.mp h, segmentLine_cons hother]
        simpa [segmentLine] using Ne.symm hother
      case h_2 first more hrest =>
        rcases List.mem_cons.mp h with rfl | hmore
        · have hfirst := ih (hrest ▸ List.mem_cons_self ..)
          rw [segmentLine_cons hother, List.mem_cons, not_or]
          exact ⟨Ne.symm hother, hfirst⟩
        · exact ih (hrest ▸ List.mem_cons_of_mem _ hmore)

theorem segmentLine_ended (segment : List Char) :
    segmentLine segment ++ (if segment.getLast? = some '\n' then ['\n'] else []) = segment := by
  unfold segmentLine
  split
  · rename_i hended
    exact List.dropLast_append_getLast? _ hended
  · exact List.append_nil _

theorem elements_flatten (s : Segmentation) (sanitized : List Char) :
    (elements s sanitized).flatten = sanitized := by
  have hsegment : ∀ segment, (segmentElements s segment).flatten = segment := by
    intro segment
    rw [segmentElements, List.flatten_append, s.joined]
    conv_rhs => rw [← segmentLine_ended segment]
    split <;> rfl
  have hall : ∀ segments : List (List Char),
      (segments.flatMap (segmentElements s)).flatten = segments.flatten := by
    intro segments
    induction segments with
    | nil => rfl
    | cons segment rest ih =>
      rw [List.flatMap_cons, List.flatten_append, hsegment, ih, List.flatten_cons]
  rw [elements, hall, splitInclusive_flatten]

end Units

/-! ## Pushing units -/

theorem ranges_append (n : Nat) (pieces more : List (List Char)) :
    ranges n (pieces ++ more) = ranges n pieces ++ ranges (n + size pieces.flatten) more := by
  induction pieces generalizing n with
  | nil => rfl
  | cons piece rest ih =>
    rw [List.cons_append, ranges, ih, ranges, List.flatten_cons, size_append, Nat.add_assoc]
    rfl

/-- The units so far, in the groups of the closed parts and of the part under way. -/
structure Grouped (b : PartBuilder) (done : List (List (List Char))) (current : List (List Char)) :
    Prop where
  text : b.value.text = (done.flatten ++ current).flatten
  parts : b.value.parts = ranges 0 (done.map List.flatten)
  start : b.start = size done.flatten.flatten
  scalars : b.scalars = current.flatten.length
  newlines : b.newlines = current.flatten.count '\n'
  closed : ∀ group ∈ done, group ≠ [] ∧ Fits group.flatten
  underway : Fits current.flatten
  begun : done ≠ [] → current ≠ []
  solid : ∀ unit ∈ done.flatten ++ current, unit ≠ []

/-- The units have been pushed. -/
def Built (b : PartBuilder) (units : List (List Char)) : Prop :=
  ∃ done current, units = done.flatten ++ current ∧ Grouped b done current

section Pushing

variable {b b' : PartBuilder} {units : List (List Char)} {unit grapheme : List Char}

theorem built_start : Built {} [] :=
  ⟨[], [], rfl, rfl, rfl, rfl, rfl, rfl, nofun, ⟨by decide, by decide, by decide⟩, fun h => absurd rfl h,
    nofun⟩

theorem isUnit_fits (h : IsUnit unit) : Fits unit := by
  have hlength := length_le_size unit
  have hcount : unit.count '\n' ≤ 1 := by
    rw [← isUnit_count h, PartBuilder.unitNewlines]
    split
    · exact le_refl _
    · exact Nat.zero_le _
  have hshort := h.short
  simp only [maxGraphemeBytes] at hshort
  refine ⟨?_, ?_, ?_⟩
  · simp only [maxPartBytes]
    omega
  · simp only [maxPartScalars]
    omega
  · simp only [maxPartNewlines]
    omega

/-- A unit goes to the part under way, or begins a new one. -/
theorem built_push (hb : Built b units) (hunit : IsUnit unit) (h : b.push unit = .ok b') :
    Built b' (units ++ [unit]) := by
  obtain ⟨done, current, rfl, hg⟩ := hb
  simp only [PartBuilder.push, bind_ok, require_ok, exists_const, pure_ok] at h
  obtain ⟨-, rfl⟩ := h
  have hcount := isUnit_count hunit
  have hfits := isUnit_fits hunit
  have hsize : size b.value.text = size done.flatten.flatten + size current.flatten := by
    rw [hg.text, List.flatten_append, size_append]
  have hsolid : ∀ u ∈ done.flatten ++ current ++ [unit], u ≠ [] := by
    intro u hu
    rcases List.mem_append.mp hu with hold | hnew
    · exact hg.solid u hold
    · rw [List.mem_singleton.mp hnew]
      exact hunit.nonempty
  have hstart := hg.start
  have hscalars := hg.scalars
  have hnewlines := hg.newlines
  split
  case isTrue hfull =>
    -- The part under way is not empty, since a unit alone fits.
    have hcurrent : current ≠ [] := by
      rintro rfl
      have hbytes := hfits.bytes
      have hlength := hfits.scalars
      have hlines := hfits.newlines
      rw [List.flatten_nil, size_nil] at hsize
      rw [List.flatten_nil, List.length_nil] at hscalars
      rw [List.flatten_nil, List.count_nil] at hnewlines
      rw [PartBuilder.exceeds, hcount] at hfull
      omega
    refine ⟨done ++ [current], [unit], by simp, ?_⟩
    refine ⟨?_, ?_, ?_, ?_, ?_, ?_, ?_, fun _ => List.cons_ne_nil _ _, ?_⟩
    · show b.value.text ++ unit = _
      rw [hg.text]
      simp
    · show b.value.parts ++ [(b.start, size b.value.text)] = _
      have hjoined : (done.map List.flatten).flatten = done.flatten.flatten :=
        (List.flatten_flatten ..).symm
      rw [hg.parts, List.map_append, ranges_append, hjoined, Nat.zero_add, hstart, hsize]
      rfl
    · show size b.value.text = _
      rw [hsize, List.flatten_append, List.flatten_append, size_append, List.flatten_singleton]
    · show 0 + unit.length = _
      rw [List.flatten_singleton, Nat.zero_add]
    · show 0 + PartBuilder.unitNewlines unit = _
      rw [List.flatten_singleton, Nat.zero_add, hcount]
    · intro group hgroup
      rcases List.mem_append.mp hgroup with hold | hnew
      · exact hg.closed group hold
      · rw [List.mem_singleton.mp hnew]
        exact ⟨hcurrent, hg.underway⟩
    · rw [List.flatten_singleton]
      exact hfits
    · simpa using hsolid
  case isFalse hroom =>
    simp only [PartBuilder.exceeds, not_or, not_lt, hcount] at hroom
    obtain ⟨hbytes, hlength, hlines⟩ := hroom
    refine ⟨done, current ++ [unit], by simp, ?_⟩
    refine ⟨?_, hg.parts, hstart, ?_, ?_, hg.closed, ⟨?_, ?_, ?_⟩, ?_, ?_⟩
    · show b.value.text ++ unit = _
      rw [hg.text]
      simp
    · show b.scalars + unit.length = _
      rw [hscalars]
      simp
    · show b.newlines + PartBuilder.unitNewlines unit = _
      rw [hnewlines, hcount]
      simp
    · rw [List.flatten_append, List.flatten_singleton, size_append]
      omega
    · rw [List.flatten_append, List.flatten_singleton, List.length_append]
      omega
    · rw [List.flatten_append, List.flatten_singleton, List.count_append]
      omega
    · simp
    · rw [← List.append_assoc]
      exact hsolid

/-- A grapheme without a line feed is pushed in its units. -/
theorem built_pushGrapheme (hb : Built b units) (hne : grapheme ≠ []) (hline : '\n' ∉ grapheme)
    (h : b.pushGrapheme grapheme = .ok b') : Built b' (units ++ graphemeUnits grapheme) := by
  unfold PartBuilder.pushGrapheme at h
  split at h
  case isTrue hlong =>
    have hflag : Built { b with value := { b.value with escapedGraphemes := true } } units := by
      obtain ⟨done, current, rfl, hg⟩ := hb
      exact ⟨done, current, rfl, hg.text, hg.parts, hg.start, hg.scalars, hg.newlines, hg.closed,
        hg.underway, hg.begun, hg.solid⟩
    have hunits : graphemeUnits grapheme = grapheme.flatMap fun c => [escapeUnicode c] := by
      rw [graphemeUnits, if_pos hlong, List.map_eq_flatMap]
    rw [hunits]
    exact sweep_collects (I := Built)
      (fun s t done c _ hs hpush => built_push hs (escapeUnicode_unit c) hpush) hflag h
  case isFalse hshort =>
    rw [graphemeUnits_kept (by omega)]
    exact built_push hb ⟨hne, by omega, Or.inr hline⟩ h

theorem built_pushSegment {s : Segmentation} {segment sanitized : List Char}
    (hb : Built b units) (hsegment : segment ∈ splitInclusive sanitized)
    (h : b.pushSegment s segment = .ok b') :
    Built b' (units ++ (segmentElements s segment).flatMap graphemeUnits) := by
  simp only [PartBuilder.pushSegment, bind_ok] at h
  obtain ⟨b₁, hgraphemes, hline⟩ := h
  have hplain : ∀ grapheme ∈ s.graphemes (segmentLine segment), '\n' ∉ grapheme := by
    intro grapheme hmem hfeed
    refine segmentLine_plain hsegment ?_
    rw [← s.joined (segmentLine segment)]
    exact List.mem_flatten.mpr ⟨grapheme, hmem, hfeed⟩
  have hfirst : Built b₁ (units ++ (s.graphemes (segmentLine segment)).flatMap graphemeUnits) := by
    refine sweep_collects (I := Built) (fun b t done grapheme hmem hs hpush => ?_) hb hgraphemes
    refine built_pushGrapheme hs (fun hnil => ?_) (hplain grapheme hmem) hpush
    exact s.nonempty _ (hnil ▸ hmem)
  rw [segmentElements, List.flatMap_append, ← List.append_assoc]
  split at hline
  case isTrue hended =>
    rw [if_pos hended]
    exact built_push hfirst isUnit_line hline
  case isFalse hended =>
    rw [pure_ok] at hline
    subst hline
    rw [if_neg hended, List.flatMap_nil, List.append_nil]
    exact hfirst

theorem mem_ranges {pieces : List (List Char)} {n : Nat} {part : Nat × Nat}
    (h : part ∈ ranges n pieces) :
    ∃ front piece back, pieces = front ++ piece :: back ∧
      part = (n + size front.flatten, n + size front.flatten + size piece) := by
  induction pieces generalizing n with
  | nil => cases h
  | cons piece rest ih =>
    rcases List.mem_cons.mp h with rfl | hrest
    · exact ⟨[], piece, rest, rfl, rfl⟩
    · obtain ⟨front, other, back, rfl, rfl⟩ := ih hrest
      refine ⟨piece :: front, other, back, rfl, ?_⟩
      rw [List.flatten_cons, size_append, Nat.add_assoc n]

/-- The parts begin and end between units. -/
theorem bound_between {pieces : List (List Char)} {n : Nat} {part : Nat × Nat}
    (h : part ∈ ranges n pieces) {bound : Nat} (hbound : bound = part.1 ∨ bound = part.2) :
    ∃ front back, pieces = front ++ back ∧ bound = n + size front.flatten := by
  obtain ⟨front, piece, back, rfl, rfl⟩ := mem_ranges h
  rcases hbound with rfl | rfl
  · exact ⟨front, piece :: back, rfl, rfl⟩
  · refine ⟨front ++ [piece], back, by simp, ?_⟩
    rw [List.flatten_append, List.flatten_singleton, size_append, Nat.add_assoc]

end Pushing

/-- **Transcript text.**  A text that is accepted is presented in parts. -/
theorem fromUntrusted_presents (s : Segmentation) (input : List Char) (t : TranscriptText)
    (h : TranscriptText.fromUntrusted s input = .ok t) :
    size input ≤ maxSourceBytes ∧ Presents s (visibleCharacters input) t := by
  simp only [TranscriptText.fromUntrusted, bind_ok, require_ok, pure_ok, exists_const] at h
  obtain ⟨hsource, b, hsegments, rfl⟩ := h
  refine ⟨hsource, ?_⟩
  have hbuilt : Built b ((elements s (visibleCharacters input)).flatMap graphemeUnits) := by
    have hcollected := sweep_collects (I := Built)
      (fun b t done segment hmem hs hpush => built_pushSegment hs hmem hpush) built_start hsegments
    rw [List.nil_append, ← List.flatMap_assoc] at hcollected
    exact hcollected
  obtain ⟨done, current, hunits, hg⟩ := hbuilt
  have hrendered : (done.flatten ++ current).flatten =
      (elements s (visibleCharacters input)).flatMap rendered := by
    rw [← hunits, units_flatten]
  have hgroups : (done ++ [current]).flatten = done.flatten ++ current := by
    rw [List.flatten_append, List.flatten_singleton]
  have hjoined : (done.map List.flatten).flatten = done.flatten.flatten :=
    (List.flatten_flatten ..).symm
  have hparts : b.value.parts ++ [(b.start, size b.value.text)] =
      ranges 0 ((done ++ [current]).map List.flatten) := by
    rw [hg.parts, List.map_append, ranges_append, hjoined, Nat.zero_add, hg.start, hg.text,
      List.flatten_append, size_append]
    rfl
  refine ⟨elements_flatten s _, hg.text.trans hrendered,
    ⟨(done ++ [current]).map List.flatten, hparts, ?_, ?_, ?_⟩, ?_⟩
  · rw [← List.flatten_flatten, hgroups]
    exact hg.text.symm
  · intro piece hpiece
    obtain ⟨group, hgroup, rfl⟩ := List.mem_map.mp hpiece
    rcases List.mem_append.mp hgroup with hclosed | hlast
    · exact (hg.closed group hclosed).2
    · rw [List.mem_singleton.mp hlast]
      exact hg.underway
  · intro hempty
    obtain ⟨group, hgroup, hnil⟩ := List.mem_map.mp hempty
    have hnone : group = [] := by
      refine List.eq_nil_iff_forall_not_mem.mpr fun unit hunit => ?_
      refine hg.solid unit ?_ (List.flatten_eq_nil_iff.mp hnil unit hunit)
      rw [← hgroups]
      exact List.mem_flatten.mpr ⟨group, hgroup, hunit⟩
    subst hnone
    have hcurrent : current = [] := by
      rcases List.mem_append.mp hgroup with hclosed | hlast
      · exact absurd rfl (hg.closed [] hclosed).1
      · exact (List.mem_singleton.mp hlast).symm
    have hdone : done = [] := not_not.mp fun hne => hg.begun hne hcurrent
    rw [hcurrent, hdone]
    refine ⟨?_, rfl⟩
    show b.value.text = []
    rw [hg.text, hdone, hcurrent]
    rfl
  · intro before grapheme after hsplit hkept part hpart bound hbound
    obtain ⟨front, back, hpieces, hfront⟩ := bound_between (hparts ▸ hpart) hbound
    obtain ⟨first, later, hsame, rfl, rfl⟩ := List.map_eq_append_iff.mp hpieces
    rw [← List.flatten_flatten, Nat.zero_add] at hfront
    -- The units before the bound against those before the grapheme.
    have hfirst : first.flatten ++ later.flatten =
        before.flatMap graphemeUnits ++ grapheme :: after.flatMap graphemeUnits := by
      rw [← List.flatten_append, ← hsame, hgroups, ← hunits, hsplit, List.flatMap_append,
        List.flatMap_cons, graphemeUnits_kept hkept]
      rfl
    rw [hfront, ← units_flatten]
    rcases List.append_eq_append_iff.mp hfirst with ⟨m, hm, -⟩ | ⟨m, hm, hrest⟩
    · left
      rw [hm, List.flatten_append, size_append]
      exact Nat.le_add_right _ _
    · cases m with
      | nil =>
        left
        rw [hm, List.append_nil]
      | cons unit more =>
        right
        obtain ⟨rfl, -⟩ := List.cons.inj hrest
        rw [hm, List.flatten_append, size_append, List.flatten_cons, size_append]
        omega

/-! ## Short graphemes -/

/-- There is room for some more bytes, and nothing has been escaped. -/
def PartBuilder.Room (b : PartBuilder) (bytes : Nat) : Prop :=
  b.value.escapedGraphemes = false ∧ size b.value.text + bytes ≤ maxTextBytes

section Short

variable {s : Segmentation} {b : PartBuilder} {unit segment : List Char}
  {graphemes : List (List Char)} {bytes : Nat}

theorem push_room (h : b.Room (size unit + bytes)) :
    ∃ b', b.push unit = .ok b' ∧ b'.Room bytes := by
  obtain ⟨hplain, hroom⟩ := h
  have hfits : size b.value.text + size unit ≤ maxTextBytes := by omega
  refine ⟨_, (bind_ok _ _ _).mpr ⟨(), (require_ok _ _ ()).mpr hfits, rfl⟩, ?_⟩
  split
  · refine ⟨hplain, ?_⟩
    show size (b.value.text ++ unit) + bytes ≤ maxTextBytes
    rw [size_append]
    omega
  · refine ⟨hplain, ?_⟩
    show size (b.value.text ++ unit) + bytes ≤ maxTextBytes
    rw [size_append]
    omega

theorem pushGraphemes_room (hshort : ∀ grapheme ∈ graphemes, size grapheme ≤ maxGraphemeBytes)
    (h : b.Room (size graphemes.flatten + bytes)) :
    ∃ b', sweep PartBuilder.pushGrapheme b graphemes = .ok b' ∧ b'.Room bytes := by
  have hround := sweep_succeeds PartBuilder.pushGrapheme
    (fun b rest => (∀ grapheme ∈ rest, size grapheme ≤ maxGraphemeBytes) ∧
      b.Room (size rest.flatten + bytes)) ?_ b graphemes ⟨hshort, h⟩
  · obtain ⟨b', hsweep, -, hroom⟩ := hround
    exact ⟨b', hsweep, by simpa using hroom⟩
  · rintro b grapheme rest ⟨hall, hroom⟩
    obtain ⟨hfirst, hrest⟩ := List.forall_mem_cons.mp hall
    rw [List.flatten_cons, size_append, Nat.add_assoc] at hroom
    obtain ⟨b', hpush, hroom'⟩ := push_room hroom
    refine ⟨b', ?_, hrest, hroom'⟩
    rw [PartBuilder.pushGrapheme, if_neg (by omega), hpush]

theorem pushSegment_room
    (hshort : ∀ line, ∀ grapheme ∈ s.graphemes line, size grapheme ≤ maxGraphemeBytes)
    (h : b.Room (size segment + bytes)) :
    ∃ b', b.pushSegment s segment = .ok b' ∧ b'.Room bytes := by
  rw [← segmentLine_ended segment, size_append, Nat.add_assoc, ← s.joined (segmentLine segment)] at h
  obtain ⟨b₁, hsweep, hroom⟩ := pushGraphemes_room (hshort _) h
  by_cases hended : segment.getLast? = some '\n'
  · rw [if_pos hended] at hroom
    obtain ⟨b', hpush, hroom'⟩ := push_room hroom
    refine ⟨b', (bind_ok _ _ _).mpr ⟨b₁, hsweep, ?_⟩, hroom'⟩
    rw [if_pos hended, hpush]
  · rw [if_neg hended, size_nil, Nat.zero_add] at hroom
    refine ⟨b₁, (bind_ok _ _ _).mpr ⟨b₁, hsweep, ?_⟩, hroom⟩
    rw [if_neg hended]
    rfl

/-- A visible text of short graphemes is presented as it is. -/
theorem fromUntrusted_self
    (hshort : ∀ line, ∀ grapheme ∈ s.graphemes line, size grapheme ≤ maxGraphemeBytes)
    (text : List Char) (hvisible : text.all isVisible = true) (hsize : size text ≤ maxSourceBytes) :
    ∃ t, TranscriptText.fromUntrusted s text = .ok t ∧ t.text = text ∧
      t.escapedGraphemes = false := by
  have hself := visibleCharacters_self hvisible
  have hstart : ({} : PartBuilder).Room (size (splitInclusive text).flatten) := by
    refine ⟨rfl, ?_⟩
    show 0 + size (splitInclusive text).flatten ≤ 6 * maxSourceBytes
    rw [splitInclusive_flatten]
    omega
  have hround : ∀ (b : PartBuilder) segment rest, b.Room (size (segment :: rest).flatten) →
      ∃ b', b.pushSegment s segment = .ok b' ∧ b'.Room (size rest.flatten) := by
    intro b segment rest hroom
    rw [List.flatten_cons, size_append] at hroom
    exact pushSegment_room hshort hroom
  obtain ⟨b, hsweep, hplain, -⟩ := sweep_succeeds (PartBuilder.pushSegment s)
    (fun b rest => b.Room (size rest.flatten)) hround {} _ hstart
  have haccepted : TranscriptText.fromUntrusted s text =
      .ok { b.value with parts := b.value.parts ++ [(b.start, size b.value.text)] } := by
    refine (bind_ok _ _ _).mpr ⟨(), (require_ok _ _ ()).mpr hsize, ?_⟩
    refine (bind_ok _ _ _).mpr ⟨b, ?_, rfl⟩
    rw [hself, hsweep]
  refine ⟨_, haccepted, ?_, hplain⟩
  have hkept : ∀ grapheme ∈ elements s text, rendered grapheme = grapheme := by
    intro grapheme hmem
    have hsmall : size grapheme ≤ maxGraphemeBytes := by
      obtain ⟨segment, -, helement⟩ := List.mem_flatMap.mp hmem
      rcases List.mem_append.mp helement with hline | hfeed
      · exact hshort _ grapheme hline
      · split at hfeed
        · rw [List.mem_singleton.mp hfeed]
          decide
        · cases hfeed
    rw [rendered, if_neg (by omega)]
  rw [(fromUntrusted_presents s text _ haccepted).2.text, hself, List.flatMap_def,
    List.map_congr_left hkept, List.map_id', elements_flatten]

end Short

/-- Every character by itself. -/
def singleCharacters : Segmentation where
  graphemes line := line.map fun c => [c]
  joined line := by
    induction line with
    | nil => rfl
    | cons c rest ih => rw [List.map_cons, List.flatten_cons, ih]; rfl
  nonempty line := by simp

theorem singleCharacters_short (line : List Char) :
    ∀ grapheme ∈ singleCharacters.graphemes line, size grapheme ≤ maxGraphemeBytes := by
  intro grapheme hmem
  obtain ⟨c, -, rfl⟩ := List.mem_map.mp hmem
  have hle : c.utf8Size ≤ 4 := c.utf8Size_le_four
  rw [size_cons, size_nil, maxGraphemeBytes]
  omega

theorem twoLines_presents :
    Presents singleCharacters (visibleCharacters ['a', '\n', 'b'])
      ⟨['a', '\n', 'b'], [(0, 3)], false⟩ := by
  have hvisible : visibleCharacters ['a', '\n', 'b'] = ['a', '\n', 'b'] :=
    visibleCharacters_self (by decide)
  have haccepted : TranscriptText.fromUntrusted singleCharacters ['a', '\n', 'b'] =
      .ok ⟨['a', '\n', 'b'], [(0, 3)], false⟩ := by
    rw [TranscriptText.fromUntrusted, hvisible]
    rfl
  exact (fromUntrusted_presents singleCharacters _ _ haccepted).2

end Morons.Cli
