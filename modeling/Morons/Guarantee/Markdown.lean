import Morons.Cli.Markdown

/-!
# Markdown keeps the message

Whatever the parser makes of a text, the message is shown: rendered, or plain
where the rendering does not fit.  There is one exception, the spaces before a
soft break, which are written by the only emission whose failure is not answered
with the plain text.
-/

namespace Morons.Cli

open Attempt Utf8

/-- Styled pieces of a text: not empty, in order, and apart from one another. -/
structure StylesFit (text : List Char) (styles : List ((Nat × Nat) × Style)) : Prop where
  pieces : ∀ style ∈ styles, style.1.1 < style.1.2 ∧
    ∃ piece, slice text style.1.1 style.1.2 = some piece
  apart : styles.Pairwise fun a b => a.1.2 ≤ b.1.1

/-- What is shown of a presented text. -/
structure Shown (s : Segmentation) (presented : TranscriptText) (t : MarkdownText) : Prop where
  text : t = { presented } ∨ TranscriptText.fromUntrusted s t.presented.text = .ok t.presented
  styles : StylesFit t.presented.text t.styles
  /-- The spans of each line of a part are the line. -/
  lines : ∀ part ∈ t.presented.parts, ∃ piece, slice t.presented.text part.1 part.2 = some piece ∧
    ∀ before line after, piece = before ++ line ++ after →
      ∃ spans, t.line (part.1 + size before) (part.1 + size before + size line) = some spans ∧
        (spans.map Prod.fst).flatten = line

/-- A soft break after spaces that no longer fit behind what has been rendered. -/
def Overflows (s : Segmentation) (plain : List Char) (events : List RangedEvent) : Prop :=
  ∃ earlier e later r r', events = earlier ++ e :: later ∧ e.event = .softBreak ∧
    sweep (Rendering.step s plain) {} earlier = .ok r ∧ r.separate plain e.start = .ok r' ∧
    Rendering.isBlank (r'.gap plain e.start) = true ∧
    ∀ safe, TranscriptText.fromUntrusted s (r'.gap plain e.start) = .ok safe →
      maxSourceBytes < size r'.output + size safe.text

/-! ## Styles -/

section Styles

variable {text more : List Char} {styles : List ((Nat × Nat) × Style)} {style : Style}

theorem stylesFit_nil (text : List Char) : StylesFit text [] := ⟨nofun, List.Pairwise.nil⟩

theorem StylesFit.extend (h : StylesFit text styles) (more : List Char) :
    StylesFit (text ++ more) styles := by
  refine ⟨fun style hstyle => ?_, h.apart⟩
  obtain ⟨hlt, piece, hpiece⟩ := h.pieces style hstyle
  exact ⟨hlt, piece, slice_extend hpiece more⟩

/-- What is written last may be styled as a whole. -/
theorem StylesFit.snoc (h : StylesFit text styles) (hmore : more ≠ []) (style : Style) :
    StylesFit (text ++ more) (styles ++ [((size text, size (text ++ more)), style)]) := by
  have hextended := h.extend more
  have hpos := size_pos hmore
  refine ⟨fun last hlast => ?_, ?_⟩
  · rcases List.mem_append.mp hlast with hold | hnew
    · exact hextended.pieces last hold
    · obtain rfl := List.mem_singleton.mp hnew
      refine ⟨by simpa using hpos, more, ?_⟩
      exact slice_eq_some.mpr ⟨text, [], by simp, rfl, (size_append _ _).symm⟩
  · refine List.pairwise_append.mpr ⟨h.apart, List.pairwise_singleton _ _, ?_⟩
    intro a ha b hb
    obtain rfl := List.mem_singleton.mp hb
    obtain ⟨-, piece, hpiece⟩ := h.pieces a ha
    obtain ⟨before, after, rfl, hstart, hstop⟩ := slice_eq_some.mp hpiece
    show a.1.2 ≤ size (before ++ piece ++ after)
    rw [size_append, size_append, hstart, hstop]
    exact Nat.le_add_right _ _

theorem span_joins {start stop : Nat} (hstart : Splits text start) (hstop : Splits text stop)
    (hle : start ≤ stop) (style : Style) :
    ∃ spans, span text start stop style = some spans ∧
      slice text start stop = some (spans.map Prod.fst).flatten := by
  obtain ⟨piece, hpiece⟩ := hstart.slice hstop hle
  by_cases hlt : start < stop
  · exact ⟨[(piece, style)], by rw [span, if_pos hlt, hpiece]; rfl, by simpa using hpiece⟩
  · obtain rfl : start = stop := by omega
    obtain ⟨before, after, -, -, hsize⟩ := slice_eq_some.mp hpiece
    have hnone : piece = [] := not_not.mp fun hne => by
      have := size_pos hne
      omega
    exact ⟨[], by rw [span, if_neg hlt], by rw [hpiece, hnone]; rfl⟩

/-- The spans from the cursor on are what is left of the line. -/
theorem spansFrom_joins (hfit : StylesFit text styles) {start stop : Nat}
    (hstart : Splits text start) (hstop : Splits text stop) (hle : start ≤ stop)
    (hreach : ∀ style ∈ styles, start < style.1.2) {cursor : Nat} (hcursor : Splits text cursor)
    (hbefore : cursor ≤ stop) (hbehind : ∀ style ∈ styles, cursor ≤ max style.1.1 start) :
    ∃ spans, spansFrom text start stop cursor styles = some spans ∧
      slice text cursor stop = some (spans.map Prod.fst).flatten := by
  induction styles generalizing cursor with
  | nil => exact span_joins hcursor hstop hbefore {}
  | cons head rest ih =>
    obtain ⟨range, style⟩ := head
    rw [spansFrom]
    by_cases hinside : range.1 < stop
    · rw [if_pos hinside]
      obtain ⟨⟨hlt, piece, hpiece⟩, -⟩ := List.forall_mem_cons.mp hfit.pieces
      obtain ⟨hstyled, hrest⟩ := List.forall_mem_cons.mp hreach
      obtain ⟨hahead, -⟩ := List.forall_mem_cons.mp hbehind
      obtain ⟨hfirst, happart⟩ := List.pairwise_cons.mp hfit.apart
      dsimp only at hlt hpiece hstyled hahead
      have hleft : Splits text (max range.1 start) := by
        rcases Nat.le_total range.1 start with h | h
        · rwa [Nat.max_eq_right h]
        · rw [Nat.max_eq_left h]
          exact (slice_splits hpiece).1
      have hright : Splits text (min range.2 stop) := by
        rcases Nat.le_total range.2 stop with h | h
        · rw [Nat.min_eq_left h]
          exact (slice_splits hpiece).2.1
        · rwa [Nat.min_eq_right h]
      obtain ⟨before, hbeforeSpan, hbeforeSlice⟩ := span_joins hcursor hleft hahead {}
      obtain ⟨styled, hstyledSpan, hstyledSlice⟩ :=
        span_joins hleft hright (by omega) style
      obtain ⟨more, hmoreSpan, hmoreSlice⟩ := ih
        ⟨fun s hs => hfit.pieces s (List.mem_cons_of_mem _ hs), happart⟩ hrest hright (by omega)
        (fun s hs => by have := hfirst s hs; dsimp only at this; omega)
      refine ⟨before ++ styled ++ more, ?_, ?_⟩
      · simp only [hbeforeSpan, hstyledSpan, hmoreSpan]
        rfl
      · rw [List.map_append, List.map_append, List.flatten_append, List.flatten_append]
        exact slice_join (slice_join hbeforeSlice hstyledSlice) hmoreSlice
    · rw [if_neg hinside]
      exact span_joins hcursor hstop hbefore {}

/-- The styles that end before a line do not reach into it, and all others do. -/
theorem reach_dropWhile (hfit : StylesFit text styles) (start : Nat) :
    ∀ style ∈ styles.dropWhile (fun style => decide (style.1.2 ≤ start)), start < style.1.2 := by
  intro style hstyle
  have hapart := hfit.apart.sublist (List.dropWhile_sublist fun style => decide (style.1.2 ≤ start))
  cases hdrop : styles.dropWhile fun style => decide (style.1.2 ≤ start) with
  | nil =>
    rw [hdrop] at hstyle
    cases hstyle
  | cons first rest =>
    have hhead : start < first.1.2 := by
      have hstop := List.head?_dropWhile_not
        (fun style : (Nat × Nat) × Style => decide (style.1.2 ≤ start)) styles
      rw [hdrop] at hstop
      simpa using hstop
    rw [hdrop] at hstyle hapart
    rcases List.mem_cons.mp hstyle with rfl | hrest
    · exact hhead
    · have hafter := (List.pairwise_cons.mp hapart).1 style hrest
      have hpiece := (hfit.pieces style ((List.dropWhile_sublist _).subset (hdrop ▸ hstyle))).1
      omega

theorem line_joins {t : MarkdownText} (hfit : StylesFit t.presented.text t.styles)
    {start stop : Nat} {line : List Char} (h : slice t.presented.text start stop = some line) :
    ∃ spans, t.line start stop = some spans ∧ (spans.map Prod.fst).flatten = line := by
  obtain ⟨hstart, hstop, hle⟩ := slice_splits h
  have hsublist := List.dropWhile_sublist (l := t.styles) fun style : (Nat × Nat) × Style =>
    decide (style.1.2 ≤ start)
  obtain ⟨spans, hspans, hslice⟩ := spansFrom_joins
    ⟨fun style hstyle => hfit.pieces style (hsublist.subset hstyle), hfit.apart.sublist hsublist⟩
    hstart hstop hle (reach_dropWhile hfit start) hstart hle (fun _ _ => Nat.le_max_right _ _)
  rw [h] at hslice
  exact ⟨spans, hspans, (Option.some.inj hslice).symm⟩

end Styles

/-! ## What an event changes -/

namespace Rendering

/-- More has been written; the open tags and the end of the last block are as before. -/
structure Writes (r r' : Rendering) : Prop where
  stack : r'.stack = r.stack
  blockEnd : r'.blockEnd = r.blockEnd
  styles : StylesFit r.output r.styles → StylesFit r'.output r'.styles

section Events

variable {s : Segmentation} {plain text : List Char} {style : Style} {r r' r'' : Rendering}
  {e : RangedEvent} {rest : List RangedEvent}

theorem writes_refl (r : Rendering) : r.Writes r := ⟨rfl, rfl, id⟩

theorem Writes.trans (h : r.Writes r') (h' : r'.Writes r'') : r.Writes r'' :=
  ⟨h'.stack.trans h.stack, h'.blockEnd.trans h.blockEnd, fun hfit => h'.styles (h.styles hfit)⟩

theorem writes_output (r : Rendering) (more : List Char) :
    r.Writes { r with output := r.output ++ more } :=
  ⟨rfl, rfl, fun hfit => hfit.extend more⟩

theorem emit_ok :
    r.emit s text style = .ok r' ↔
      ∃ safe, TranscriptText.fromUntrusted s text = .ok safe ∧
        size r.output + size safe.text ≤ maxSourceBytes ∧
        r' = { r with
          output := r.output ++ safe.text
          styles :=
            if safe.text ≠ [] ∧ style ≠ {} then
              r.styles ++ [((size r.output, size (r.output ++ safe.text)), style)]
            else r.styles } := by
  simp only [emit, bind_ok, require_ok, exists_const, pure_ok, size_append]
  constructor
  · rintro ⟨safe, hsafe, hfits, rfl⟩
    exact ⟨safe, hsafe, hfits, rfl⟩
  · rintro ⟨safe, hsafe, hfits, rfl⟩
    exact ⟨safe, hsafe, hfits, rfl⟩

theorem emit_writes (h : r.emit s text style = .ok r') : r.Writes r' := by
  obtain ⟨safe, -, -, rfl⟩ := emit_ok.mp h
  refine ⟨rfl, rfl, fun hfit => ?_⟩
  dsimp only
  split
  case isTrue hstyled => exact hfit.snoc hstyled.1 style
  case isFalse => exact hfit.extend safe.text

theorem emitOrFall_writes (h : r.emitOrFall s text style = .ok r') : r.Writes r' :=
  emit_writes ((mapError_ok _ _ _).mp h)

theorem emitOrFall_falls (s : Segmentation) (r : Rendering) (text : List Char) (style : Style) :
    FailsWith (· = .fallback) (r.emitOrFall s text style) := by
  rw [emitOrFall, failsWith_mapError]
  exact fun _ _ => rfl

theorem separate_writes {start : Nat} (h : r.separate plain start = .ok r') : r.Writes r' := by
  unfold separate at h
  split at h
  · simp only [bind_ok, demand_ok, pure_ok] at h
    obtain ⟨between, -, rfl⟩ := h
    exact writes_output r _
  · rw [pure_ok] at h
    exact h ▸ writes_refl r

theorem writeMarker_writes {tag : Tag} (h : r.writeMarker s style tag = .ok r') : r.Writes r' := by
  unfold writeMarker at h
  split at h
  · dsimp only at h
    split at h
    · obtain ⟨hstack, hend, hstyles⟩ := emitOrFall_writes h
      exact ⟨hstack, hend, hstyles⟩
    · rw [pure_ok] at h
      exact h ▸ ⟨rfl, rfl, id⟩
  · obtain ⟨hstack, hend, hstyles⟩ := emitOrFall_writes h
    exact ⟨hstack, hend, hstyles⟩
  · exact emitOrFall_writes h
  · rw [pure_ok] at h
    exact h ▸ writes_refl r

theorem writeGap_writes {start : Nat} (h : r.writeGap s plain style start = .ok r') :
    r.Writes r' := by
  unfold writeGap at h
  split at h
  · exact emit_writes ((mapError_ok _ _ _).mp h)
  · rw [pure_ok] at h
    exact h ▸ writes_refl r

theorem closeTag_writes {tag : TagEnd} {start stop : Nat}
    (h : r.closeTag plain tag start stop = .ok r') :
    { r with stack := r.stack.tail }.Writes r' := by
  unfold closeTag at h
  dsimp only at h
  split at h
  · simp only [bind_ok, demand_ok, pure_ok] at h
    obtain ⟨source, -, rfl⟩ := h
    split
    · exact ⟨rfl, rfl, fun hfit => hfit.extend _⟩
    · exact ⟨rfl, rfl, id⟩
  · rw [pure_ok] at h
    exact h ▸ ⟨rfl, rfl, id⟩

/-- The open tags after an event. -/
def stackAfter (stack : List Style) (style : Style) : MarkdownEvent → List Style
  | .opens tag => tagStyle style tag :: stack
  | .closes _ => stack.tail
  | _ => stack

theorem apply_writes (h : r.apply s plain style e = .ok r') :
    r'.stack = stackAfter r.stack style e.event ∧ r'.blockEnd = r.blockEnd ∧
      (StylesFit r.output r.styles → StylesFit r'.output r'.styles) := by
  have written : r.Writes r' → r'.stack = r.stack ∧ r'.blockEnd = r.blockEnd ∧
      (StylesFit r.output r.styles → StylesFit r'.output r'.styles) :=
    fun h => ⟨h.stack, h.blockEnd, h.styles⟩
  unfold apply at h
  cases hevent : e.event with
  | opens tag =>
    rw [hevent] at h
    simp only [openTag, bind_ok, pure_ok] at h
    obtain ⟨r₁, hmarker, rfl⟩ := h
    have hwrites := writeMarker_writes hmarker
    exact ⟨by rw [hwrites.stack]; rfl, hwrites.blockEnd, hwrites.styles⟩
  | closes tag =>
    rw [hevent] at h
    have hwrites := closeTag_writes h
    exact ⟨hwrites.stack, hwrites.blockEnd, hwrites.styles⟩
  | text text | html text | inlineHtml text | code text | hardBreak =>
    rw [hevent] at h
    exact written (emitOrFall_writes h)
  | softBreak =>
    rw [hevent] at h
    simp only [softBreak, bind_ok] at h
    obtain ⟨r₁, hgap, hline⟩ := h
    exact written (Writes.trans (writeGap_writes hgap) (emitOrFall_writes hline))
  | rule =>
    rw [hevent] at h
    simp only [bind_ok, demand_ok] at h
    obtain ⟨source, -, hrule⟩ := h
    exact written (emitOrFall_writes hrule)
  | other =>
    rw [hevent] at h
    exact written ((pure_ok _ _).mp h ▸ writes_refl r)

/-- What is left of the events fits the open tags and the text. -/
structure Consistent (plain : List Char) (r : Rendering) (rest : List RangedEvent) : Prop where
  depth : (depthAfter (r.stack.length - 1) rest).isSome = true
  base : r.stack.getLast? = some {}
  ranges : ∀ e ∈ rest, (slice plain e.start e.stop).isSome = true
  blockEnd : Splits plain r.blockEnd
  styles : StylesFit r.output r.styles

theorem consistent_start {events : List RangedEvent} (h : WellFormed plain events) :
    Consistent plain {} events :=
  ⟨h.nested, rfl, h.ranges, splits_zero plain, stylesFit_nil []⟩

theorem range_splits (h : (slice plain e.start e.stop).isSome = true) :
    Splits plain e.start ∧ Splits plain e.stop := by
  obtain ⟨source, hsource⟩ := Option.isSome_iff_exists.mp h
  exact ⟨(slice_splits hsource).1, (slice_splits hsource).2.1⟩

theorem mark_keeps (h : r.mark plain e = .ok r')
    (hrange : (slice plain e.start e.stop).isSome = true) (hend : Splits plain r.blockEnd) :
    r'.stack = r.stack ∧ r'.output = r.output ∧ r'.styles = r.styles ∧
      Splits plain r'.blockEnd := by
  have hstop := (range_splits hrange).2
  unfold mark at h
  split at h
  · split at h
    · simp only [bind_ok, demand_ok, pure_ok, Prod.exists] at h
      obtain ⟨before, after, hsplit, rfl⟩ := h
      refine ⟨rfl, rfl, rfl, ?_⟩
      dsimp only
      split
      case isTrue hline =>
        obtain ⟨htext, hsize⟩ := split_eq_some.mp hsplit
        obtain ⟨tail, rfl⟩ := List.head?_eq_some_iff.mp hline
        refine ⟨before ++ ['\n'], tail, by rw [htext]; simp, ?_⟩
        rw [size_append, hsize]
        rfl
      case isFalse => exact hstop
    · rw [pure_ok] at h
      exact h ▸ ⟨rfl, rfl, rfl, hstop⟩
  · rw [pure_ok] at h
    exact h ▸ ⟨rfl, rfl, rfl, hend⟩

theorem stackAfter_keeps {stack : List Style} (hbase : stack.getLast? = some {})
    (hdepth : (depthAfter (stack.length - 1) (e :: rest)).isSome = true) (style : Style) :
    (depthAfter ((stackAfter stack style e.event).length - 1) rest).isSome = true ∧
      (stackAfter stack style e.event).getLast? = some {} := by
  cases stack with
  | nil => cases hbase
  | cons top below =>
    cases hevent : e.event with
    | opens tag =>
      rw [depthAfter, hevent] at hdepth
      exact ⟨hdepth, by rw [stackAfter, List.getLast?_cons_cons]; exact hbase⟩
    | closes tag =>
      rw [depthAfter, hevent] at hdepth
      cases below with
      | nil => cases hdepth
      | cons next below =>
        exact ⟨hdepth, by rw [List.getLast?_cons_cons] at hbase; exact hbase⟩
    | text _ | html _ | inlineHtml _ | code _ | softBreak | hardBreak | rule | other =>
      rw [depthAfter, hevent] at hdepth
      exact ⟨hdepth, hbase⟩

theorem step_keeps (hr : Consistent plain r (e :: rest)) (h : r.step s plain e = .ok r') :
    Consistent plain r' rest := by
  obtain ⟨hrange, hranges⟩ := List.forall_mem_cons.mp hr.ranges
  simp only [step, bind_ok, demand_ok] at h
  obtain ⟨r₁, hseparate, style, -, r₂, happly, hmark⟩ := h
  have hwrites := separate_writes hseparate
  obtain ⟨hstack, hblock, hstyles⟩ := apply_writes happly
  have hend : Splits plain r₂.blockEnd := by
    rw [hblock, hwrites.blockEnd]
    exact hr.blockEnd
  obtain ⟨hmarkStack, houtput, hmarkStyles, hmarkEnd⟩ := mark_keeps hmark hrange hend
  rw [hwrites.stack] at hstack
  obtain ⟨hdepth, hbase⟩ := stackAfter_keeps hr.base hr.depth style
  rw [← hstack, ← hmarkStack] at hdepth hbase
  refine ⟨hdepth, hbase, hranges, hmarkEnd, ?_⟩
  rw [houtput, hmarkStyles]
  exact hstyles (hwrites.styles hr.styles)

/-- The spaces before a soft break fit behind what has been rendered. -/
def GapFits (s : Segmentation) (plain : List Char) (r : Rendering) (start : Nat) : Prop :=
  isBlank (r.gap plain start) = true →
    ∃ safe, TranscriptText.fromUntrusted s (r.gap plain start) = .ok safe ∧
      size r.output + size safe.text ≤ maxSourceBytes

theorem writeGap_falls {start : Nat} (hfits : GapFits s plain r start) :
    FailsWith (· = .fallback) (r.writeGap s plain style start) := by
  rw [writeGap, failsWith_ite]
  refine ⟨fun hblank => ?_, fun _ => failsWith_pure r⟩
  obtain ⟨safe, hsafe, hroom⟩ := hfits hblank
  rw [(mapError_ok _ _ _).mpr (emit_ok.mpr ⟨safe, hsafe, hroom, rfl⟩)]
  exact failsWith_ok _

theorem apply_falls (hrange : (slice plain e.start e.stop).isSome = true)
    (hgap : e.event = .softBreak → GapFits s plain r e.start) :
    FailsWith (· = .fallback) (r.apply s plain style e) := by
  have hcut : slice plain e.start e.stop ≠ none := Option.isSome_iff_ne_none.mp hrange
  unfold apply
  cases hevent : e.event with
  | opens tag =>
    simp only [openTag, failsWith_bind, failsWith_pure, implies_true, and_true]
    unfold writeMarker
    split
    · dsimp only
      split
      · exact emitOrFall_falls _ _ _ _
      · exact failsWith_pure _
    · exact emitOrFall_falls _ _ _ _
    · exact emitOrFall_falls _ _ _ _
    · exact failsWith_pure r
  | closes tag =>
    simp [closeTag, hcut]
  | text text | html text | inlineHtml text | code text | hardBreak => exact emitOrFall_falls _ _ _ _
  | softBreak =>
    simp only [softBreak, failsWith_bind]
    exact ⟨writeGap_falls (hgap hevent), fun _ _ => emitOrFall_falls _ _ _ _⟩
  | rule =>
    simp only [failsWith_bind, failsWith_demand]
    exact ⟨fun h => absurd h hcut, fun _ _ => emitOrFall_falls _ _ _ _⟩
  | other => exact failsWith_pure r

/-- The rendering of an event ends with it or with the plain text. -/
theorem step_falls (hr : Consistent plain r (e :: rest))
    (hgap : e.event = .softBreak → ∀ r', r.separate plain e.start = .ok r' →
      GapFits s plain r' e.start) :
    FailsWith (· = .fallback) (r.step s plain e) := by
  have hrange := hr.ranges e (List.mem_cons_self ..)
  obtain ⟨hstart, hstop⟩ := range_splits hrange
  simp only [step, failsWith_bind, failsWith_demand]
  refine ⟨?_, fun r₁ hseparate => ⟨?_, fun style _ =>
    ⟨apply_falls hrange fun hevent => hgap hevent r₁ hseparate, fun r₂ happly => ?_⟩⟩⟩
  · unfold separate
    split
    case isTrue hbetween =>
      obtain ⟨between, hslice⟩ := hr.blockEnd.slice hstart hbetween.2
      simp [hslice]
    case isFalse => exact failsWith_pure r
  · intro hnone
    rw [List.head?_eq_none_iff, (separate_writes hseparate).stack] at hnone
    have hbase := hr.base
    rw [hnone] at hbase
    cases hbase
  · unfold mark
    split
    · split
      · simp only [failsWith_bind, failsWith_demand, failsWith_pure, implies_true, and_true]
        intro hnone
        rw [← split_isSome, hnone] at hstop
        cases hstop
      · exact failsWith_pure _
    · exact failsWith_pure _

/-- An overflow is not answered with the plain text. -/
theorem step_overflows (hevent : e.event = .softBreak)
    (hseparate : r.separate plain e.start = .ok r') (hstyle : r'.stack.head? = some style)
    (h : ¬ GapFits s plain r' e.start) :
    ∃ error, r.step s plain e = .error (.error error) := by
  obtain ⟨hblank, hrefused⟩ := Classical.not_imp.mp h
  have hemit : ∃ error, r'.emit s (r'.gap plain e.start) style = .error error := by
    cases hemit : r'.emit s (r'.gap plain e.start) style with
    | error error => exact ⟨error, rfl⟩
    | ok r'' =>
      obtain ⟨safe, hsafe, hroom, -⟩ := emit_ok.mp hemit
      exact absurd ⟨safe, hsafe, hroom⟩ hrefused
  obtain ⟨error, hemit⟩ := hemit
  have hgap : r'.writeGap s plain style e.start = .error (.error error) := by
    rw [writeGap, if_pos hblank, hemit]
    rfl
  have happly : r'.apply s plain style e = .error (.error error) := by
    rw [apply, hevent]
    exact (bind_error _ _ _).mpr (.inl hgap)
  refine ⟨error, (bind_error _ _ _).mpr (.inr ⟨r', hseparate, ?_⟩)⟩
  refine (bind_error _ _ _).mpr (.inr ⟨style, (demand_ok _ _ _).mpr hstyle, ?_⟩)
  exact (bind_error _ _ _).mpr (.inl happly)

theorem sweep_consistent {events earlier later : List RangedEvent} (h : WellFormed plain events)
    (hsplit : events = earlier ++ later) (hearlier : sweep (step s plain) {} earlier = .ok r) :
    Consistent plain r later := by
  refine sweep_remainder (I := Consistent plain) (fun r r' e rest => step_keeps) ?_ hearlier
  exact hsplit ▸ consistent_start h

end Events

end Rendering

/-! ## The whole text -/

section Whole

variable {s : Segmentation} {plain : List Char} {events : List RangedEvent}
  {presented : TranscriptText} {r : Rendering} {t : MarkdownText}

theorem overflows_iff :
    Overflows s plain events ↔
      ∃ earlier e later r r', events = earlier ++ e :: later ∧ e.event = .softBreak ∧
        sweep (Rendering.step s plain) {} earlier = .ok r ∧ r.separate plain e.start = .ok r' ∧
        ¬ Rendering.GapFits s plain r' e.start := by
  simp only [Overflows, Rendering.GapFits, Classical.not_imp, not_exists, not_and, not_le]

/-- Unless a soft break overflows, the rendering ends with the text or with the plain text. -/
theorem sweep_falls (h : WellFormed plain events) :
    FailsWith (· = .fallback) (sweep (Rendering.step s plain) {} events) ↔
      ¬ Overflows s plain events := by
  rw [failsWith_sweep, overflows_iff]
  constructor
  · rintro hfalls ⟨earlier, e, later, r, r', hsplit, hevent, hearlier, hseparate, hgap⟩
    have hr := Rendering.sweep_consistent h hsplit hearlier
    obtain ⟨style, hstyle⟩ : ∃ style, r'.stack.head? = some style := by
      cases hstack : r'.stack with
      | nil =>
        have hbase := hr.base
        rw [← (Rendering.separate_writes hseparate).stack, hstack] at hbase
        cases hbase
      | cons style below => exact ⟨style, rfl⟩
    obtain ⟨error, herror⟩ := Rendering.step_overflows hevent hseparate hstyle hgap
    cases hfalls earlier e later r hsplit hearlier _ herror
  · intro hnone earlier e later r hsplit hearlier
    refine Rendering.step_falls (Rendering.sweep_consistent h hsplit hearlier) ?_
    intro hevent r' hseparate
    refine not_not.mp fun hgap => hnone ?_
    exact ⟨earlier, e, later, r, r', hsplit, hevent, hearlier, hseparate, hgap⟩

theorem parts_splits (h : TranscriptText.fromUntrusted s plain = .ok presented) {part : Nat × Nat}
    (hpart : part ∈ presented.parts) :
    ∃ piece, slice presented.text part.1 part.2 = some piece := by
  obtain ⟨pieces, hparts, htext, -⟩ := (fromUntrusted_presents s plain presented h).2.parts
  obtain ⟨front, piece, back, rfl, rfl⟩ := mem_ranges (hparts ▸ hpart)
  refine ⟨piece, slice_eq_some.mpr ⟨front.flatten, back.flatten, ?_, by simp, rfl⟩⟩
  rw [← htext, List.flatten_append, List.flatten_cons, List.append_assoc]

theorem shown_of (hfit : StylesFit t.presented.text t.styles) {input : List Char}
    (hpresented : TranscriptText.fromUntrusted s input = .ok t.presented)
    (htext : t = { presented } ∨
      TranscriptText.fromUntrusted s t.presented.text = .ok t.presented) :
    Shown s presented t := by
  refine ⟨htext, hfit, fun part hpart => ?_⟩
  obtain ⟨piece, hpiece⟩ := parts_splits hpresented hpart
  refine ⟨piece, hpiece, ?_⟩
  rintro before line after rfl
  obtain ⟨front, back, hwhole, hstart, -⟩ := slice_eq_some.mp hpiece
  refine line_joins hfit (slice_eq_some.mpr ⟨front ++ before, after ++ back, ?_, ?_, rfl⟩)
  · rw [hwhole]
    simp only [List.append_assoc]
  · rw [size_append, hstart]

theorem shown_plain {input : List Char} (h : TranscriptText.fromUntrusted s input = .ok presented) :
    Shown s presented { presented } :=
  shown_of (stylesFit_nil _) h (.inl rfl)

/-- The last check gives the rendering or the plain text. -/
theorem finish_shown {input : List Char} (h : TranscriptText.fromUntrusted s input = .ok presented)
    (hr : r.Consistent plain []) :
    ∃ t, r.finish s plain presented = .ok t ∧ Shown s presented t := by
  obtain ⟨before, rest, rfl, hsize⟩ := hr.blockEnd
  obtain ⟨last, hlast⟩ : ∃ last,
      slice (before ++ rest) r.blockEnd (size (before ++ rest)) = some last := by
    refine hr.blockEnd.slice (splits_size _) ?_
    rw [← hsize, size_append]
    exact Nat.le_add_right _ _
  have hfit := hr.styles.extend (last.filter (· = '\n'))
  unfold Rendering.finish
  rw [hlast]
  simp only [demand, bind, Except.bind]
  split
  case h_1 => exact ⟨_, rfl, shown_plain h⟩
  case h_2 rendered hrendered =>
    split
    case isTrue => exact ⟨_, rfl, shown_plain h⟩
    case isFalse hsame =>
      rw [ne_eq, not_not] at hsame
      refine ⟨_, rfl, shown_of ?_ hrendered (.inr ?_)⟩
      · rw [hsame]
        exact hfit
      · rw [hsame]
        exact hrendered

theorem fromMarkdown_eq {parser : List Char → List RangedEvent} {input : List Char}
    (h : TranscriptText.fromUntrusted s input = .ok presented) :
    fromMarkdown s parser input =
      if presented.escapedGraphemes then .ok { presented }
      else
        match sweep (Rendering.step s presented.text) {} (parser presented.text) with
        | .error .fallback => .ok { presented }
        | .error (.error error) => .error (.error error)
        | .error .panic => .error .panic
        | .ok r => r.finish s presented.text presented := by
  rw [fromMarkdown, h]
  rfl

/-- Only the plain text is shown after an interruption. -/
theorem falls_of_ok {parser : List Char → List RangedEvent} {input : List Char}
    (h : TranscriptText.fromUntrusted s input = .ok presented)
    (hwhole : ¬ presented.escapedGraphemes = true) (hrun : fromMarkdown s parser input = .ok t) :
    FailsWith (· = .fallback)
      (sweep (Rendering.step s presented.text) {} (parser presented.text)) := by
  intro interruption hinterrupted
  rw [fromMarkdown_eq h, if_neg hwhole, hinterrupted] at hrun
  cases interruption with
  | fallback => rfl
  | error error => cases hrun
  | panic => cases hrun

end Whole

/-- **Markdown.**  A message that can be presented is shown, with its styles or plain,
exactly when its graphemes are not kept whole or no soft break overflows. -/
theorem fromMarkdown_shown (s : Segmentation) (parser : List Char → List RangedEvent)
    (input : List Char) (presented : TranscriptText)
    (h : TranscriptText.fromUntrusted s input = .ok presented)
    (hparser : WellFormed presented.text (parser presented.text)) :
    ((∃ t, fromMarkdown s parser input = .ok t ∧ Shown s presented t) ∧
      ∀ earlier later r, parser presented.text = earlier ++ later →
        sweep (Rendering.step s presented.text) {} earlier = .ok r →
        r.stack.getLast? = some {}) ↔
    presented.escapedGraphemes = true ∨ ¬ Overflows s presented.text (parser presented.text) := by
  have hbase : ∀ earlier later r, parser presented.text = earlier ++ later →
      sweep (Rendering.step s presented.text) {} earlier = .ok r → r.stack.getLast? = some {} :=
    fun earlier later r hsplit hearlier =>
      (Rendering.sweep_consistent hparser hsplit hearlier).base
  rw [← sweep_falls hparser]
  by_cases hescaped : presented.escapedGraphemes = true
  · have hrun : fromMarkdown s parser input = .ok { presented } := by
      rw [fromMarkdown_eq h, if_pos hescaped]
    exact ⟨fun _ => .inl hescaped, fun _ => ⟨⟨_, hrun, shown_plain h⟩, hbase⟩⟩
  · constructor
    · rintro ⟨⟨t, hrun, -⟩, -⟩
      exact .inr (falls_of_ok h hescaped hrun)
    · rintro (hflag | hfalls)
      · exact absurd hflag hescaped
      refine ⟨?_, hbase⟩
      rw [fromMarkdown_eq h, if_neg hescaped]
      cases hsweep : sweep (Rendering.step s presented.text) {} (parser presented.text) with
      | error interruption =>
        obtain rfl := hfalls interruption hsweep
        exact ⟨_, rfl, shown_plain h⟩
      | ok r =>
        exact finish_shown h (Rendering.sweep_consistent hparser (List.append_nil _).symm hsweep)

/-! ## Single steps -/

section Steps

variable {s : Segmentation} {plain text : List Char} {style : Style} {r r' : Rendering}
  {e : RangedEvent}

/-- A visible text is written as it is. -/
theorem emit_visible (hvisible : text.all isVisible = true)
    (hroom : size r.output + size text ≤ maxSourceBytes) :
    r.emit singleCharacters text style = .ok { r with
      output := r.output ++ text
      styles :=
        if text ≠ [] ∧ style ≠ {} then
          r.styles ++ [((size r.output, size (r.output ++ text)), style)]
        else r.styles } := by
  obtain ⟨safe, hsafe, rfl, -⟩ :=
    fromUntrusted_self singleCharacters_short text hvisible (by omega)
  exact Rendering.emit_ok.mpr ⟨safe, hsafe, hroom, rfl⟩

theorem separate_inside (h : r.stack.length ≠ 1) (start : Nat) :
    r.separate plain start = .ok r :=
  if_neg fun hbetween => h hbetween.1

theorem separate_start (plain : List Char) :
    ({} : Rendering).separate plain 0 = .ok {} := by
  have hslice : slice plain 0 0 = some [] := slice_eq_some.mpr ⟨[], plain, rfl, rfl, rfl⟩
  rw [Rendering.separate, if_pos ⟨rfl, Nat.le_refl _⟩]
  show (demand Interruption.panic (slice plain 0 0) >>= _) = _
  rw [hslice]
  rfl

/-- An event within a block. -/
theorem step_inside {r₁ : Rendering} (hseparate : r.separate plain e.start = .ok r₁)
    (hstyle : r₁.stack.head? = some style) (happly : r₁.apply s plain style e = .ok r')
    (hinside : r'.stack.length ≠ 1) :
    r.step s plain e = .ok { r' with textEnd := e.stop } := by
  refine (bind_ok _ _ _).mpr ⟨r₁, hseparate, (bind_ok _ _ _).mpr ⟨style, ?_, ?_⟩⟩
  · exact (demand_ok _ _ _).mpr hstyle
  · exact (bind_ok _ _ _).mpr ⟨r', happly, if_neg hinside⟩

/-- A quotation mark is shown in front of what is quoted. -/
theorem step_openQuote {below : List Style} {start stop : Nat}
    (hroom : size r.output + 4 ≤ maxSourceBytes) (hseparate : r.separate plain start = .ok r)
    (hstack : r.stack = style :: below) :
    r.step singleCharacters plain ⟨.opens .blockQuote, start, stop⟩ = .ok { r with
      output := r.output ++ "│ ".toList
      styles := r.styles ++
        [((size r.output, size r.output + 4), { style with fg := some .darkGray })]
      stack := style :: r.stack
      textEnd := stop } := by
  have hfour : size "│ ".toList = 4 := by decide
  have hstyled : "│ ".toList ≠ [] ∧ { style with fg := some Color.darkGray } ≠ {} :=
    ⟨by decide, fun h => by cases congrArg Style.fg h⟩
  have hemit : r.emit singleCharacters "│ ".toList { style with fg := some .darkGray } = _ :=
    emit_visible (by decide) (hfour ▸ hroom)
  rw [if_pos hstyled, size_append, hfour] at hemit
  refine step_inside (e := ⟨.opens .blockQuote, start, stop⟩) hseparate (by rw [hstack]; rfl)
    ((bind_ok _ _ _).mpr ⟨_, (mapError_ok _ _ _).mpr hemit, rfl⟩) ?_
  rw [List.length_cons, hstack, List.length_cons]
  omega

theorem step_text {below : List Style} {start stop : Nat}
    (hseparate : r.separate plain start = .ok r) (hstack : r.stack = style :: below)
    (hemit : r.emit s text style = .ok r') (hinside : r'.stack.length ≠ 1) :
    r.step s plain ⟨.text text, start, stop⟩ = .ok { r' with textEnd := stop } := by
  refine step_inside (e := ⟨.text text, start, stop⟩) hseparate (by rw [hstack]; rfl) ?_ hinside
  exact (mapError_ok _ _ _).mpr hemit

theorem finish_rendered {presented rendered : TranscriptText} {rest : List Char}
    (hrest : slice plain r.blockEnd (size plain) = some rest)
    (hrendered : TranscriptText.fromUntrusted s (r.output ++ rest.filter (· = '\n')) =
      .ok rendered)
    (hsame : rendered.text = r.output ++ rest.filter (· = '\n')) :
    r.finish s plain presented = .ok { presented := rendered, styles := r.styles } := by
  unfold Rendering.finish
  rw [hrest]
  simp only [demand, bind, Except.bind, hrendered]
  rw [if_neg (not_not.mpr hsame)]
  rfl

end Steps

/-! ## A message with styles -/

/-- A strong letter, a space before a soft break, and a piece of code. -/
def styledMessage : List Char := "**a** \n`b`".toList

def styledEvents : List RangedEvent :=
  [⟨.opens .paragraph, 0, 10⟩, ⟨.opens .strong, 0, 5⟩, ⟨.text ['a'], 2, 3⟩, ⟨.closes .other, 0, 5⟩,
    ⟨.softBreak, 6, 7⟩, ⟨.code ['b'], 7, 10⟩, ⟨.closes .paragraph, 0, 10⟩]

def styledText : MarkdownText where
  presented := ⟨"a \nb".toList, [(0, 4)], false⟩
  styles := [((0, 1), { bold := true }), ((3, 4), { fg := some .yellow })]

/-- The state after the strong letter. -/
def afterLetter : Rendering where
  output := ['a']
  styles := [((0, 1), { bold := true })]
  stack := [{}, {}]
  textEnd := 5

/-- The state after the second line. -/
def afterLines : Rendering where
  output := "a \nb".toList
  styles := styledText.styles
  textEnd := 10
  blockEnd := 10

theorem styledEvents_letter :
    sweep (Rendering.step singleCharacters styledMessage) {} (styledEvents.take 4) =
      .ok afterLetter := by
  refine (sweep_cons_ok _ _ _ _ _).mpr ⟨{ stack := [{}, {}], textEnd := 10 }, rfl, ?_⟩
  refine (sweep_cons_ok _ _ _ _ _).mpr
    ⟨{ stack := [{ bold := true }, {}, {}], textEnd := 5 }, rfl, ?_⟩
  refine (sweep_cons_ok _ _ _ _ _).mpr
    ⟨_, step_text rfl rfl (emit_visible (by decide) (by decide)) (by decide), ?_⟩
  rfl

/-- The space and the line feed behind the letter. -/
def afterBreak : Rendering where
  output := "a \n".toList
  styles := [((0, 1), { bold := true })]
  stack := [{}, {}]
  textEnd := 7

theorem styledEvents_break :
    Rendering.step singleCharacters styledMessage afterLetter ⟨.softBreak, 6, 7⟩ =
      .ok afterBreak := by
  have hspace : afterLetter.emit singleCharacters [' '] {} =
      .ok { afterLetter with output := ['a', ' '] } :=
    emit_visible (by decide) (by decide)
  have hfeed : ({ afterLetter with output := ['a', ' '] } : Rendering).emit singleCharacters
      ['\n'] {} = .ok { afterLetter with output := ['a', ' ', '\n'] } :=
    emit_visible (by decide) (by decide)
  have happly : afterLetter.apply singleCharacters styledMessage {} ⟨.softBreak, 6, 7⟩ =
      .ok { afterLetter with output := ['a', ' ', '\n'] } := by
    refine (bind_ok _ _ _).mpr ⟨_, ?_, (mapError_ok _ _ _).mpr hfeed⟩
    exact (mapError_ok _ _ _).mpr hspace
  exact step_inside (e := ⟨.softBreak, 6, 7⟩) rfl rfl happly (by decide)

theorem styledEvents_lines :
    sweep (Rendering.step singleCharacters styledMessage) {} styledEvents = .ok afterLines := by
  have hcode : afterBreak.emit singleCharacters ['b'] { fg := some .yellow } =
      .ok { afterBreak with output := "a \nb".toList, styles := styledText.styles } :=
    emit_visible (by decide) (by decide)
  have happly : afterBreak.apply singleCharacters styledMessage {} ⟨.code ['b'], 7, 10⟩ =
      .ok { afterBreak with output := "a \nb".toList, styles := styledText.styles } :=
    (mapError_ok _ _ _).mpr hcode
  refine (sweep_append_ok _ _ _ (styledEvents.take 4) _).mpr ⟨_, styledEvents_letter, ?_⟩
  refine (sweep_cons_ok _ _ _ _ _).mpr ⟨_, styledEvents_break, ?_⟩
  refine (sweep_cons_ok _ _ _ _ _).mpr
    ⟨_, step_inside (e := ⟨.code ['b'], 7, 10⟩) rfl rfl happly (by decide), ?_⟩
  rfl

theorem styledMessage_accepted : TranscriptText.fromUntrusted singleCharacters styledMessage =
    .ok ⟨styledMessage, [(0, 10)], false⟩ := by
  rw [TranscriptText.fromUntrusted, visibleCharacters_self (by decide)]
  rfl

theorem styledMessage_rendered :
    fromMarkdown singleCharacters (fun _ => styledEvents) styledMessage = .ok styledText := by
  have hrendered : TranscriptText.fromUntrusted singleCharacters "a \nb".toList =
      .ok styledText.presented := by
    rw [TranscriptText.fromUntrusted, visibleCharacters_self (by decide)]
    rfl
  rw [fromMarkdown_eq styledMessage_accepted, if_neg (by decide), styledEvents_lines]
  exact finish_rendered rfl hrendered rfl

/-- The message is shown without its marks, each of the two lines with its styles. -/
theorem styledMessage_shown :
    fromMarkdown singleCharacters (fun _ => styledEvents) styledMessage = .ok styledText ∧
      Shown singleCharacters ⟨styledMessage, [(0, 10)], false⟩ styledText ∧
      styledText.line 0 2 = some [(['a'], { bold := true }), ([' '], {})] ∧
      styledText.line 3 4 = some [(['b'], { fg := some .yellow })] := by
  have hparser : WellFormed styledMessage styledEvents := ⟨by decide, by decide⟩
  have hfits : ¬ Overflows singleCharacters styledMessage styledEvents := by
    refine (sweep_falls hparser).mp ?_
    rw [styledEvents_lines]
    exact failsWith_ok _
  obtain ⟨⟨t, ht, hshown⟩, -⟩ :=
    (fromMarkdown_shown singleCharacters (fun _ => styledEvents) _ _ styledMessage_accepted
      hparser).mpr (.inr hfits)
  obtain rfl := Except.ok.inj (ht.symm.trans styledMessage_rendered)
  exact ⟨styledMessage_rendered, hshown, by decide +kernel, by decide +kernel⟩

/-! ## A quotation that grows -/

@[irreducible] def wordLength : Nat := 1048568

theorem wordLength_room : wordLength + 8 = maxSourceBytes := by
  rw [wordLength]
  rfl

/-- Two quotation marks, a long word with a space behind it, and a second line. -/
def quotedLine : List Char :=
  "> > ".toList ++ (List.replicate wordLength 'x' ++ " \ny".toList)

def quotedEvents : List RangedEvent :=
  [⟨.opens .blockQuote, 0, wordLength + 7⟩, ⟨.opens .blockQuote, 2, wordLength + 7⟩,
    ⟨.opens .paragraph, 4, wordLength + 7⟩,
    ⟨.text (List.replicate wordLength 'x'), 4, wordLength + 4⟩,
    ⟨.softBreak, wordLength + 5, wordLength + 6⟩, ⟨.text ['y'], wordLength + 6, wordLength + 7⟩,
    ⟨.closes .paragraph, 4, wordLength + 7⟩, ⟨.closes .blockQuote, 2, wordLength + 7⟩,
    ⟨.closes .blockQuote, 0, wordLength + 7⟩]

theorem word_size : size (List.replicate wordLength 'x') = wordLength := by
  have hascii : ∀ c ∈ List.replicate wordLength 'x', c.utf8Size = 1 := by
    intro c hc
    rw [List.eq_of_mem_replicate hc]
    decide
  rw [size_ascii hascii, List.length_replicate]

theorem word_visible : (List.replicate wordLength 'x').all isVisible = true := by
  have hletter : isVisible 'x' = true := by decide
  rw [List.all_replicate, hletter, ite_self]

theorem quotedLine_ascii : ∀ c ∈ quotedLine, c.utf8Size = 1 := by
  have hends : ("> > ".toList ++ " \ny".toList).all (fun c => c.utf8Size = 1) = true := by decide
  intro c hc
  simp only [quotedLine, List.mem_append, List.mem_replicate] at hc
  rcases hc with hmarks | ⟨-, rfl⟩ | hrest
  · exact of_decide_eq_true (List.all_eq_true.mp hends c (List.mem_append_left _ hmarks))
  · decide
  · exact of_decide_eq_true (List.all_eq_true.mp hends c (List.mem_append_right _ hrest))

theorem quotedLine_visible : quotedLine.all isVisible = true := by
  have hmarks : "> > ".toList.all isVisible = true := by decide
  have hrest : " \ny".toList.all isVisible = true := by decide
  rw [quotedLine, List.all_append, List.all_append, hmarks, word_visible, hrest]
  rfl

theorem quotedLine_length : quotedLine.length = wordLength + 7 := by
  rw [quotedLine, List.length_append, List.length_append, List.length_replicate]
  show 4 + (wordLength + 3) = wordLength + 7
  omega

theorem quotedLine_size : size quotedLine = wordLength + 7 :=
  (size_ascii quotedLine_ascii).trans quotedLine_length

theorem quotedLine_splits {n : Nat} (hn : n ≤ wordLength + 7) : Splits quotedLine n := by
  refine ⟨quotedLine.take n, quotedLine.drop n, (List.take_append_drop ..).symm, ?_⟩
  rw [size_ascii fun c hc => quotedLine_ascii c (List.mem_of_mem_take hc), List.length_take,
    quotedLine_length]
  omega

theorem quotedEvents_wellFormed : WellFormed quotedLine quotedEvents := by
  refine ⟨rfl, fun e he => ?_⟩
  have hrange : e.start ≤ e.stop ∧ e.stop ≤ wordLength + 7 := by
    simp only [quotedEvents, List.mem_cons, List.not_mem_nil, or_false] at he
    rcases he with rfl | rfl | rfl | rfl | rfl | rfl | rfl | rfl | rfl <;> constructor <;>
      dsimp only <;> omega
  have hstart : Splits quotedLine e.start := quotedLine_splits (Nat.le_trans hrange.1 hrange.2)
  exact Option.isSome_iff_exists.mpr (hstart.slice (quotedLine_splits hrange.2) hrange.1)

/-- The state after both quotation marks. -/
def afterQuotes : Rendering where
  output := "│ │ ".toList
  styles := [((0, 4), { fg := some .darkGray }), ((4, 8), { fg := some .darkGray })]
  stack := [{}, {}, {}, {}]
  textEnd := wordLength + 7

/-- The state after the long word. -/
def afterWord : Rendering :=
  { afterQuotes with
    output := afterQuotes.output ++ List.replicate wordLength 'x'
    textEnd := wordLength + 4 }

theorem afterWord_size :
    size (afterQuotes.output ++ List.replicate wordLength 'x') = maxSourceBytes := by
  have hquotes : size afterQuotes.output = 8 := by decide
  rw [size_append, hquotes, word_size, Nat.add_comm, wordLength_room]

/-- The state after the first quotation mark. -/
def afterQuote : Rendering where
  output := "│ ".toList
  styles := [((0, 4), { fg := some .darkGray })]
  stack := [{}, {}]
  textEnd := wordLength + 7

theorem quotedEvents_quotes :
    sweep (Rendering.step singleCharacters quotedLine) {} (quotedEvents.take 3) =
      .ok afterQuotes := by
  have hfirst : Rendering.step singleCharacters quotedLine {}
      ⟨.opens .blockQuote, 0, wordLength + 7⟩ = .ok afterQuote :=
    step_openQuote (r := {}) (by decide) (separate_start quotedLine) rfl
  have hsecond : Rendering.step singleCharacters quotedLine afterQuote
      ⟨.opens .blockQuote, 2, wordLength + 7⟩ =
        .ok { afterQuotes with stack := [{}, {}, {}] } :=
    step_openQuote (r := afterQuote) (by decide)
      (separate_inside (by decide) 2) rfl
  refine (sweep_cons_ok _ _ _ _ _).mpr ⟨_, hfirst, ?_⟩
  refine (sweep_cons_ok _ _ _ _ _).mpr ⟨_, hsecond, ?_⟩
  rfl

theorem quotedEvents_word :
    sweep (Rendering.step singleCharacters quotedLine) {} (quotedEvents.take 4) =
      .ok afterWord := by
  have hwritten : afterQuotes.emit singleCharacters (List.replicate wordLength 'x') {} =
      .ok { afterQuotes with output := afterQuotes.output ++ List.replicate wordLength 'x' } := by
    have hroom : size afterQuotes.output + size (List.replicate wordLength 'x') ≤ maxSourceBytes := by
      rw [← size_append, afterWord_size]
    rw [emit_visible word_visible hroom, if_neg fun hstyled => hstyled.2 rfl]
  have hstep : Rendering.step singleCharacters quotedLine afterQuotes
      ⟨.text (List.replicate wordLength 'x'), 4, wordLength + 4⟩ = .ok afterWord :=
    step_text (separate_inside (by decide) 4) rfl hwritten (by decide)
  refine (sweep_append_ok _ _ _ (quotedEvents.take 3) _).mpr ⟨_, quotedEvents_quotes, ?_⟩
  exact (sweep_cons_ok _ _ _ _ _).mpr ⟨_, hstep, rfl⟩

theorem quotedEvents_overflow : Overflows singleCharacters quotedLine quotedEvents := by
  refine ⟨quotedEvents.take 4, ⟨.softBreak, wordLength + 5, wordLength + 6⟩, quotedEvents.drop 5,
    afterWord, afterWord, rfl, rfl, quotedEvents_word, separate_inside (by decide) _, ?_⟩
  have hgap : afterWord.gap quotedLine (wordLength + 5) = [' '] := by
    have hslice : slice quotedLine (wordLength + 4) (wordLength + 5) = some [' '] := by
      refine slice_eq_some.mpr
        ⟨"> > ".toList ++ List.replicate wordLength 'x', "\ny".toList, ?_, ?_, ?_⟩
      · have hrest : " \ny".toList = [' '] ++ "\ny".toList := by decide
        rw [quotedLine, hrest, List.append_assoc, List.append_assoc]
      · have hmarks : size "> > ".toList = 4 := by decide
        rw [size_append, word_size, hmarks, Nat.add_comm]
      · have hspace : size [' '] = 1 := by decide
        rw [hspace]
    show (slice quotedLine (wordLength + 4) (wordLength + 5)).getD [] = [' ']
    rw [hslice]
    rfl
  rw [hgap]
  refine ⟨by decide, fun safe hsafe => ?_⟩
  obtain ⟨space, hspace, hspaceText, -⟩ :=
    fromUntrusted_self singleCharacters_short [' '] (by decide) (by decide)
  obtain rfl := Except.ok.inj (hspace.symm.trans hsafe)
  have hspaceSize : size space.text = 1 := by
    rw [hspaceText]
    decide
  have hfull : size afterWord.output = maxSourceBytes := afterWord_size
  omega

/-- The message is lost, although it can be presented. -/
theorem quotedLine_lost :
    (∃ presented, TranscriptText.fromUntrusted singleCharacters quotedLine = .ok presented ∧
      presented.text = quotedLine ∧ WellFormed presented.text quotedEvents) ∧
    ¬ ∃ t, fromMarkdown singleCharacters (fun _ => quotedEvents) quotedLine = .ok t := by
  obtain ⟨presented, haccepted, htext, hwhole⟩ := fromUntrusted_self singleCharacters_short
    quotedLine quotedLine_visible (by rw [quotedLine_size, ← wordLength_room]; omega)
  refine ⟨⟨presented, haccepted, htext, htext ▸ quotedEvents_wellFormed⟩, ?_⟩
  rintro ⟨t, hrun⟩
  have hfalls := falls_of_ok haccepted (by rw [hwhole]; decide) hrun
  rw [htext] at hfalls
  exact (sweep_falls quotedEvents_wellFormed).mp hfalls quotedEvents_overflow

end Morons.Cli
