import Mathlib.Data.Int.NatAbs
import Mathlib.Data.List.Basic
import Mathlib.Data.List.Perm.Basic
import Mathlib.Tactic.Common

/-!
# Finding and replacing

Where a pattern stands in a text, and the text in which some of its ranges are
replaced.  `substitute` says what the new text is without an order of the
ranges; `splice` builds it from left to right, which comes to the same when the
ranges are disjoint.
-/

namespace Splice

variable {α : Type}

/-! ## Occurrences -/

/-- The pattern stands in the text at a position. -/
def OccursAt (pattern text : List α) (p : Nat) : Prop := pattern <+: text.drop p

instance [DecidableEq α] (pattern text : List α) (p : Nat) : Decidable (OccursAt pattern text p) :=
  inferInstanceAs (Decidable (pattern <+: text.drop p))

/-- The disjoint occurrences of a pattern from left to right.  The search goes
on `skip` symbols later, and the text starts at position `start`. -/
def matchIndices [DecidableEq α] (pattern : List α) : Nat → Nat → List α → List Nat
  | _, _, [] => []
  | skip + 1, start, _ :: rest => matchIndices pattern skip (start + 1) rest
  | 0, start, a :: rest =>
    if pattern <+: a :: rest then
      start :: matchIndices pattern (pattern.length - 1) (start + 1) rest
    else matchIndices pattern 0 (start + 1) rest

variable {pattern text : List α} {p : Nat}

theorem OccursAt.lt_length (hpattern : pattern ≠ []) (h : OccursAt pattern text p) :
    p < text.length := by
  by_contra hlate
  rw [OccursAt, List.drop_eq_nil_of_le (Nat.le_of_not_lt hlate), List.prefix_nil] at h
  exact hpattern h

theorem OccursAt.le_length (hpattern : pattern ≠ []) (h : OccursAt pattern text p) :
    p + pattern.length ≤ text.length := by
  have hinside := h.lt_length hpattern
  have hlength := h.length_le
  rw [List.length_drop] at hlength
  omega

@[simp] theorem occursAt_succ (a : α) : OccursAt pattern (a :: text) (p + 1) ↔ OccursAt pattern text p :=
  Iff.rfl

section Search

variable [DecidableEq α]

/-- The search finds nothing when the pattern does not stand behind the skipped symbols. -/
theorem matchIndices_eq_nil (hpattern : pattern ≠ []) {skip start : Nat} :
    matchIndices pattern skip start text = [] ↔ ∀ p, skip ≤ p → ¬ OccursAt pattern text p := by
  induction text generalizing skip start with
  | nil =>
    simp only [matchIndices, true_iff]
    intro p _ hoccurs
    exact absurd (hoccurs.lt_length hpattern) (by simp)
  | cons a rest ih =>
    cases skip with
    | succ skip =>
      rw [matchIndices, ih]
      constructor
      · intro h p hp
        obtain ⟨q, rfl⟩ := Nat.exists_eq_succ_of_ne_zero (by omega : p ≠ 0)
        exact h q (by omega)
      · intro h p hp
        exact h (p + 1) (by omega)
    | zero =>
      rw [matchIndices]
      split
      case isTrue hhere =>
        simp only [reduceCtorEq, false_iff, not_forall, not_not]
        exact ⟨0, Nat.le_refl 0, hhere⟩
      case isFalse hhere =>
        rw [ih]
        constructor
        · intro h p _
          cases p with
          | zero => exact hhere
          | succ p => exact h p (Nat.zero_le p)
        · intro h p _
          exact h (p + 1) (Nat.zero_le _)

/-- The search finds the first occurrence, and goes on behind it. -/
theorem matchIndices_eq_cons (hpattern : pattern ≠ []) {skip start found : Nat} {more : List Nat}
    (h : matchIndices pattern skip start text = found :: more) :
    ∃ p, found = start + p ∧ OccursAt pattern text p ∧
      (∀ q, skip ≤ q → q < p → ¬ OccursAt pattern text q) ∧
      (more = [] ↔ ∀ q, p + pattern.length ≤ q → ¬ OccursAt pattern text q) := by
  have hlength : 0 < pattern.length := List.length_pos_iff.mpr hpattern
  induction text generalizing skip start with
  | nil => cases h
  | cons a rest ih =>
    cases skip with
    | succ skip =>
      obtain ⟨p, rfl, hoccurs, hfirst, hmore⟩ := ih h
      refine ⟨p + 1, by omega, hoccurs, ?_, ?_⟩
      · intro q hskip hbefore
        obtain ⟨q, rfl⟩ := Nat.exists_eq_succ_of_ne_zero (by omega : q ≠ 0)
        exact hfirst q (by omega) (by omega)
      · rw [hmore]
        constructor
        · intro hnone q hq
          obtain ⟨q, rfl⟩ := Nat.exists_eq_succ_of_ne_zero (by omega : q ≠ 0)
          exact hnone q (by omega)
        · intro hnone q hq
          exact hnone (q + 1) (by omega)
    | zero =>
      rw [matchIndices] at h
      split at h
      case isTrue hhere =>
        obtain ⟨rfl, rfl⟩ := List.cons.inj h
        refine ⟨0, rfl, hhere, ?_, ?_⟩
        · intro q _ hbefore
          omega
        · rw [matchIndices_eq_nil hpattern]
          constructor
          · intro hnone q hq
            obtain ⟨q, rfl⟩ := Nat.exists_eq_succ_of_ne_zero (by omega : q ≠ 0)
            exact hnone q (by omega)
          · intro hnone q hq
            exact hnone (q + 1) (by omega)
      case isFalse hhere =>
        obtain ⟨p, rfl, hoccurs, hfirst, hmore⟩ := ih h
        refine ⟨p + 1, by omega, hoccurs, ?_, ?_⟩
        · intro q _ hbefore
          cases q with
          | zero => exact hhere
          | succ q => exact hfirst q (Nat.zero_le q) (by omega)
        · rw [hmore]
          constructor
          · intro hnone q hq
            obtain ⟨q, rfl⟩ := Nat.exists_eq_succ_of_ne_zero (by omega : q ≠ 0)
            exact hnone q (by omega)
          · intro hnone q hq
            exact hnone (q + 1) (by omega)

end Search

/-! ## Ranges -/

/-- A range of a text and what stands there afterwards. -/
structure Edit (α : Type) where
  start : Nat
  stop : Nat
  replacement : List α
  deriving DecidableEq

namespace Edit

/-- The two ranges have no symbol in common. -/
def Disjoint (d e : Edit α) : Prop := d.stop ≤ e.start ∨ e.stop ≤ d.start

/-- The range is within the text and not empty. -/
def Within (text : List α) (e : Edit α) : Prop := e.start < e.stop ∧ e.stop ≤ text.length

def width (e : Edit α) : Nat := e.stop - e.start

theorem Disjoint.symm {d e : Edit α} (h : d.Disjoint e) : e.Disjoint d := Or.symm h

end Edit

/-- What becomes of the symbol at a position: the range that starts there puts
its replacement, and a symbol inside a range is dropped. -/
def symbolsAt (text : List α) (edits : List (Edit α)) (p : Nat) : List α :=
  match edits.find? fun e => e.start = p with
  | some e => e.replacement
  | none => if edits.any fun e => e.start < p && p < e.stop then [] else text[p]?.toList

/-- The text with all ranges replaced at once. -/
def substitute (text : List α) (edits : List (Edit α)) : List α :=
  (List.range text.length).flatMap (symbolsAt text edits)

/-- The text from `cursor` on, with the ranges replaced one after the other. -/
def splice (text : List α) : Nat → List (Edit α) → List α
  | cursor, [] => text.drop cursor
  | cursor, e :: rest =>
    (text.take e.start).drop cursor ++ (e.replacement ++ splice text e.stop rest)

/-- Ranges from left to right, from `cursor` on. -/
def Ordered (text : List α) : Nat → List (Edit α) → Prop
  | cursor, [] => cursor ≤ text.length
  | cursor, e :: rest => cursor ≤ e.start ∧ e.start < e.stop ∧ Ordered text e.stop rest

variable {edits : List (Edit α)} {cursor : Nat}

theorem Ordered.cursor_le (h : Ordered text cursor edits) : cursor ≤ text.length := by
  induction edits generalizing cursor with
  | nil => exact h
  | cons e rest ih =>
    obtain ⟨hstart, hwidth, hrest⟩ := h
    have hstop := ih hrest
    omega

theorem Ordered.le_start (h : Ordered text cursor edits) : ∀ e ∈ edits, cursor ≤ e.start := by
  induction edits generalizing cursor with
  | nil => simp
  | cons e rest ih =>
    obtain ⟨hstart, hwidth, hrest⟩ := h
    intro d hd
    rcases List.mem_cons.mp hd with rfl | hd
    · exact hstart
    · have hlater := ih hrest d hd
      omega

/-- A symbol before every range stays. -/
theorem symbolsAt_of_lt_start (h : ∀ e ∈ edits, p < e.start) :
    symbolsAt text edits p = text[p]?.toList := by
  have hfind : edits.find? (fun e => e.start = p) = none := by
    rw [List.find?_eq_none]
    intro e he
    have := h e he
    simp only [decide_eq_true_eq]
    omega
  have hinside : edits.any (fun e => e.start < p && p < e.stop) = false := by
    rw [List.any_eq_false]
    intro e he
    have := h e he
    simp only [Bool.and_eq_true, decide_eq_true_eq]
    omega
  rw [symbolsAt, hfind, hinside]
  rfl

/-- Inside the first range nothing stays. -/
theorem symbolsAt_inside {e : Edit α} (hstart : e.start < p) (hstop : p < e.stop)
    (hrest : ∀ d ∈ edits, e.stop ≤ d.start) : symbolsAt text (e :: edits) p = [] := by
  have hfind : (e :: edits).find? (fun d => d.start = p) = none := by
    rw [List.find?_eq_none]
    intro d hd
    simp only [decide_eq_true_eq]
    rcases List.mem_cons.mp hd with rfl | hd
    · omega
    · have := hrest d hd
      omega
  rw [symbolsAt, hfind]
  simp [hstart, hstop]

/-- Behind a range it has no say. -/
theorem symbolsAt_behind {e : Edit α} (hwidth : e.start < e.stop) (hstop : e.stop ≤ p) :
    symbolsAt text (e :: edits) p = symbolsAt text edits p := by
  have hne : ¬ e.start = p := by omega
  have hnot : ¬ p < e.stop := by omega
  simp [symbolsAt, hne, hnot]

theorem flatMap_symbols (text : List α) (start count : Nat) :
    (List.range' start count).flatMap (fun p => text[p]?.toList) = (text.drop start).take count := by
  induction count generalizing start with
  | zero => simp
  | succ count ih =>
    rw [List.range'_succ, List.flatMap_cons, ih]
    by_cases hinside : start < text.length
    · rw [List.drop_eq_getElem_cons hinside, List.take_succ_cons, List.getElem?_eq_getElem hinside]
      rfl
    · rw [List.drop_eq_nil_of_le (by omega), List.drop_eq_nil_of_le (by omega),
        List.getElem?_eq_none (by omega)]
      simp

/-- Building the text from left to right replaces the rest of it at once. -/
theorem splice_eq_flatMap (h : Ordered text cursor edits) :
    splice text cursor edits =
      (List.range' cursor (text.length - cursor)).flatMap (symbolsAt text edits) := by
  induction edits generalizing cursor with
  | nil =>
    have hnone : symbolsAt text ([] : List (Edit α)) = fun p => text[p]?.toList := by
      funext p
      exact symbolsAt_of_lt_start (by simp)
    rw [hnone, flatMap_symbols, splice, List.take_of_length_le (by simp)]
  | cons e rest ih =>
    obtain ⟨hstart, hwidth, hrest⟩ := h
    have hlater := hrest.le_start
    have hend := hrest.cursor_le
    have hparts : List.range' cursor (text.length - cursor) =
        List.range' cursor (e.start - cursor) ++
          (e.start :: List.range' (e.start + 1) (e.stop - e.start - 1) ++
            List.range' e.stop (text.length - e.stop)) := by
      rw [← List.range'_succ, show e.stop - e.start - 1 + 1 = e.stop - e.start by omega]
      have hmiddle := @List.range'_append_1 e.start (e.stop - e.start) (text.length - e.stop)
      rw [show e.start + (e.stop - e.start) = e.stop by omega] at hmiddle
      have houter := @List.range'_append_1 cursor (e.start - cursor)
        (e.stop - e.start + (text.length - e.stop))
      rw [show cursor + (e.start - cursor) = e.start by omega] at houter
      rw [hmiddle, houter]
      congr 1
      omega
    have hbefore : (List.range' cursor (e.start - cursor)).flatMap (symbolsAt text (e :: rest)) =
        (text.take e.start).drop cursor := by
      rw [List.drop_take, ← flatMap_symbols]
      apply List.flatMap_congr
      intro p hp
      have hp := List.mem_range'_1.mp hp
      apply symbolsAt_of_lt_start
      intro d hd
      rcases List.mem_cons.mp hd with rfl | hd
      · omega
      · have := hlater d hd
        omega
    have hfirst : symbolsAt text (e :: rest) e.start = e.replacement := by
      simp [symbolsAt]
    have hinside : (List.range' (e.start + 1) (e.stop - e.start - 1)).flatMap
        (symbolsAt text (e :: rest)) = [] := by
      rw [List.flatMap_eq_nil_iff]
      intro p hp
      have hp := List.mem_range'_1.mp hp
      exact symbolsAt_inside (by omega) (by omega) hlater
    have hbehind : (List.range' e.stop (text.length - e.stop)).flatMap (symbolsAt text (e :: rest)) =
        (List.range' e.stop (text.length - e.stop)).flatMap (symbolsAt text rest) := by
      apply List.flatMap_congr
      intro p hp
      have hp := List.mem_range'_1.mp hp
      exact symbolsAt_behind hwidth (by omega)
    rw [hparts, List.flatMap_append, List.flatMap_append, List.flatMap_cons, hbefore, hfirst,
      hinside, hbehind, ← ih hrest, splice, List.append_nil]

/-- From left to right is the same as at once. -/
theorem splice_eq_substitute (h : Ordered text 0 edits) :
    splice text 0 edits = substitute text edits := by
  rw [splice_eq_flatMap h, substitute, List.range_eq_range', Nat.sub_zero]

/-- The length of the new text, with what was taken out. -/
theorem length_splice (h : Ordered text cursor edits) :
    (splice text cursor edits).length + cursor + (edits.map Edit.width).sum =
      text.length + (edits.map (·.replacement.length)).sum := by
  induction edits generalizing cursor with
  | nil =>
    have hcursor := h.cursor_le
    simp only [splice, List.length_drop, List.map_nil, List.sum_nil]
    omega
  | cons e rest ih =>
    obtain ⟨hstart, hwidth, hrest⟩ := h
    have hend := hrest.cursor_le
    have hlater := ih hrest
    simp only [splice, List.length_append, List.length_drop, List.length_take, List.map_cons,
      List.sum_cons, Edit.width]
    omega

/-- Two ranges that follow one another overlap. -/
def overlapping : List (Edit α) → Bool
  | d :: e :: rest => decide (e.start < d.stop) || overlapping (e :: rest)
  | _ => false

/-- In a sorted list it is enough to compare neighbours. -/
theorem overlapping_eq_false (hsorted : edits.Pairwise fun d e => d.start ≤ e.start)
    (hwithin : ∀ e ∈ edits, e.Within text) :
    overlapping edits = false ↔ edits.Pairwise Edit.Disjoint := by
  induction edits with
  | nil => simp [overlapping]
  | cons d rest ih =>
    obtain ⟨hfirst, hsorted⟩ := List.pairwise_cons.mp hsorted
    obtain ⟨hd, hwithin⟩ := List.forall_mem_cons.mp hwithin
    cases rest with
    | nil => simp [overlapping]
    | cons e rest =>
      rw [overlapping, Bool.or_eq_false_iff, decide_eq_false_iff_not, ih hsorted hwithin,
        List.pairwise_cons (a := d)]
      have he := (hwithin e (List.mem_cons_self ..)).1
      have hde := hfirst e (List.mem_cons_self ..)
      constructor
      · rintro ⟨hapart, hrest⟩
        refine ⟨?_, hrest⟩
        intro c hc
        rcases List.mem_cons.mp hc with rfl | hc
        · exact .inl (by omega)
        · have hec := (List.pairwise_cons.mp hsorted).1 c hc
          exact .inl (by omega)
      · rintro ⟨hapart, hrest⟩
        refine ⟨?_, hrest⟩
        rcases hapart e (List.mem_cons_self ..) with h | h
        · omega
        · omega

/-- Sorted disjoint ranges can be replaced from left to right. -/
theorem Ordered.of_disjoint (hsorted : edits.Pairwise fun d e => d.start ≤ e.start)
    (hwithin : ∀ e ∈ edits, e.Within text) (hdisjoint : edits.Pairwise Edit.Disjoint)
    (hcursor : cursor ≤ text.length) (hafter : ∀ e ∈ edits, cursor ≤ e.start) :
    Ordered text cursor edits := by
  induction edits generalizing cursor with
  | nil => exact hcursor
  | cons d rest ih =>
    obtain ⟨hfirst, hsorted⟩ := List.pairwise_cons.mp hsorted
    obtain ⟨hapart, hdisjoint⟩ := List.pairwise_cons.mp hdisjoint
    obtain ⟨hd, hwithin⟩ := List.forall_mem_cons.mp hwithin
    refine ⟨hafter d (List.mem_cons_self ..), hd.1, ih hsorted hwithin hdisjoint hd.2 ?_⟩
    intro e he
    have hde := hfirst e he
    have hwide := (hwithin e he).1
    rcases hapart e he with h | h
    · exact h
    · omega

/-- What is taken out was there. -/
theorem width_le (h : Ordered text cursor edits) :
    cursor + (edits.map Edit.width).sum ≤ text.length := by
  induction edits generalizing cursor with
  | nil => exact h
  | cons e rest ih =>
    obtain ⟨hstart, hwidth, hrest⟩ := h
    have hlater := ih hrest
    simp only [List.map_cons, List.sum_cons, Edit.width]
    omega

/-- Disjoint ranges start at different places. -/
theorem find_start (hdisjoint : edits.Pairwise Edit.Disjoint)
    (hwithin : ∀ e ∈ edits, e.Within text) (e : Edit α) :
    edits.find? (fun d => d.start = p) = some e ↔ e ∈ edits ∧ e.start = p := by
  induction edits with
  | nil => simp
  | cons d rest ih =>
    obtain ⟨hfirst, hrest⟩ := List.pairwise_cons.mp hdisjoint
    obtain ⟨hd, hwithin⟩ := List.forall_mem_cons.mp hwithin
    rw [List.find?_cons]
    by_cases hstart : d.start = p
    · simp only [hstart, decide_true, Option.some.injEq, List.mem_cons]
      constructor
      · rintro rfl
        exact ⟨.inl rfl, hstart⟩
      · rintro ⟨rfl | he, hsame⟩
        · rfl
        · have hapart := hfirst e he
          have hd := hd.1
          have he := (hwithin e he).1
          unfold Edit.Disjoint at hapart
          omega
    · simp only [hstart, decide_false, List.mem_cons]
      rw [ih hrest hwithin]
      constructor
      · rintro ⟨he, hsame⟩
        exact ⟨.inr he, hsame⟩
      · rintro ⟨rfl | he, hsame⟩
        · exact absurd hsame hstart
        · exact ⟨he, hsame⟩

/-- The order of the ranges does not matter. -/
theorem substitute_perm {others : List (Edit α)} (hperm : edits.Perm others)
    (hdisjoint : edits.Pairwise Edit.Disjoint) (hwithin : ∀ e ∈ edits, e.Within text) :
    substitute text edits = substitute text others := by
  have hdisjoint' := (hperm.pairwise_iff Edit.Disjoint.symm).mp hdisjoint
  have hwithin' : ∀ e ∈ others, e.Within text := fun e he => hwithin e (hperm.mem_iff.mpr he)
  have hfind : ∀ p, edits.find? (fun e => e.start = p) = others.find? fun e => e.start = p := by
    intro p
    ext e
    rw [find_start hdisjoint hwithin, find_start hdisjoint' hwithin', hperm.mem_iff]
  have hany : ∀ f : Edit α → Bool, edits.any f = others.any f := by
    intro f
    exact hperm.any_eq
  have hsymbols : symbolsAt text edits = symbolsAt text others := by
    funext p
    rw [symbolsAt, symbolsAt, hfind, hany]
  rw [substitute, substitute, hsymbols]

end Splice
