import Morons.Run.Context

/-!
# Terminal safety

Untrusted text is shown character by character.  Escape sequences, control
characters and bidirectional controls are left out, and a tab becomes spaces.
-/

namespace Morons.Cli

def tabWidth : Nat := 4

/-! ## Escape sequences -/

def escape : Char := '\x1b'
def bell : Char := '\x07'
def stringTerminator : Char := '\u009c'

/-- `'\u{first}'..='\u{last}'` contains the character. -/
def isBetween (first last : Nat) (c : Char) : Bool :=
  decide (first ≤ c.toNat) && decide (c.toNat ≤ last)

/-- Drop the first character if it meets a condition. -/
def skipIf (p : Char → Bool) : List Char → List Char
  | [] => []
  | c :: rest => if p c then rest else c :: rest

def isCsiParameter (c : Char) : Bool := isBetween 0x30 0x3f c || isBetween 0x20 0x2f c

def consumeCsiSequence (characters : List Char) : List Char :=
  skipIf (isBetween 0x40 0x7e) (characters.dropWhile isCsiParameter)

def consumeControlString : List Char → List Char
  | [] => []
  | c :: rest =>
    if c = bell ∨ c = stringTerminator then rest
    else if c = escape ∧ rest.head? = some '\\' then rest.tail
    else consumeControlString rest

/-- The character after an escape that begins a control string. -/
def opensString (c : Char) : Bool :=
  decide (c = 'P') || decide (c = 'X') || decide (c = ']') || decide (c = '^') || decide (c = '_')

/-- The characters that begin a control string themselves. -/
def isStringControl (c : Char) : Bool :=
  decide (c = '\u0090') || decide (c = '\u0098') || decide (c = '\u009d') ||
    decide (c = '\u009e') || decide (c = '\u009f')

def consumeEscapeSequence : List Char → List Char
  | [] => []
  | c :: rest =>
    if c = '[' then consumeCsiSequence rest
    else if opensString c then consumeControlString rest
    else if isBetween 0x20 0x2f c then
      skipIf (isBetween 0x30 0x7e) ((c :: rest).dropWhile (isBetween 0x20 0x2f))
    else if isBetween 0x30 0x7e c then rest
    else c :: rest

theorem skipIf_length (p : Char → Bool) (cs : List Char) : (skipIf p cs).length ≤ cs.length := by
  cases cs with
  | nil => exact Nat.le_refl _
  | cons c rest =>
    rw [skipIf]
    split
    · exact Nat.le_succ _
    · exact Nat.le_refl _

theorem dropWhile_length (p : Char → Bool) (cs : List Char) :
    (cs.dropWhile p).length ≤ cs.length :=
  (List.dropWhile_sublist p).length_le

theorem consumeCsiSequence_length (cs : List Char) : (consumeCsiSequence cs).length ≤ cs.length :=
  Nat.le_trans (skipIf_length _ _) (dropWhile_length _ _)

theorem consumeControlString_length (cs : List Char) :
    (consumeControlString cs).length ≤ cs.length := by
  induction cs with
  | nil => exact Nat.le_refl _
  | cons c rest ih =>
    rw [consumeControlString]
    split
    · exact Nat.le_succ _
    split
    · rw [List.length_tail, List.length_cons]
      omega
    · exact Nat.le_succ_of_le ih

theorem consumeEscapeSequence_length (cs : List Char) :
    (consumeEscapeSequence cs).length ≤ cs.length := by
  cases cs with
  | nil => exact Nat.le_refl _
  | cons c rest =>
    rw [consumeEscapeSequence]
    split
    · exact Nat.le_succ_of_le (consumeCsiSequence_length rest)
    split
    · exact Nat.le_succ_of_le (consumeControlString_length rest)
    split
    · exact Nat.le_trans (skipIf_length _ _) (dropWhile_length _ _)
    split
    · exact Nat.le_succ _
    · exact Nat.le_refl _

/-! ## Visible characters -/

/-- What is shown of the characters, after the spaces that are left of a tab. -/
def visibleAfter (spaces : Nat) (characters : List Char) : List Char :=
  match spaces, characters with
  | spaces + 1, characters => ' ' :: visibleAfter spaces characters
  | 0, [] => []
  | 0, c :: rest =>
    if c = escape then visibleAfter 0 (consumeEscapeSequence rest)
    else if c = '\u009b' then visibleAfter 0 (consumeCsiSequence rest)
    else if isStringControl c then visibleAfter 0 (consumeControlString rest)
    else if c = '\t' then ' ' :: visibleAfter (tabWidth - 1) rest
    else if c = '\n' then c :: visibleAfter 0 rest
    else if isControl c || isBidirectionalControl c then visibleAfter 0 rest
    else c :: visibleAfter 0 rest
  termination_by (characters.length, spaces)
  decreasing_by
  · exact Prod.Lex.right _ (Nat.lt_succ_self _)
  · exact Prod.Lex.left _ _ (Nat.lt_succ_of_le (consumeEscapeSequence_length rest))
  · exact Prod.Lex.left _ _ (Nat.lt_succ_of_le (consumeCsiSequence_length rest))
  · exact Prod.Lex.left _ _ (Nat.lt_succ_of_le (consumeControlString_length rest))
  all_goals exact Prod.Lex.left _ _ (Nat.lt_succ_self _)

def visibleCharacters (input : List Char) : List Char := visibleAfter 0 input

/-! ## What is shown -/

/-- A character that is shown as it is. -/
def isVisible (c : Char) : Bool :=
  decide (c = '\n') || !(isControl c || isBidirectionalControl c)

/-- A complete escape sequence. -/
inductive EscapeSequence : List Char → Prop
  | csi (introducer : List Char) (parameters : List Char) (final : Char) :
    introducer = [escape, '['] ∨ introducer = ['\u009b'] → parameters.all isCsiParameter = true →
    isBetween 0x40 0x7e final = true → EscapeSequence (introducer ++ parameters ++ [final])
  /-- The end of a control string is the first that occurs in it. -/
  | controlString (introducer : List Char) (body : List Char) (terminator : List Char) :
    (∃ c, opensString c = true ∧ introducer = [escape, c]) ∨
      (∃ c, isStringControl c = true ∧ introducer = [c]) →
    bell ∉ body → stringTerminator ∉ body → ¬ [escape, '\\'] <:+: body →
    terminator = [bell] ∨ terminator = [stringTerminator] ∨ terminator = [escape, '\\'] →
    EscapeSequence (introducer ++ body ++ terminator)
  | twoCharacters (final : Char) : final ≠ '[' → opensString final = false →
    isBetween 0x30 0x7e final = true → EscapeSequence [escape, final]
  | intermediate (intermediates : List Char) (final : Char) : intermediates ≠ [] →
    intermediates.all (isBetween 0x20 0x2f) = true → isBetween 0x30 0x7e final = true →
    EscapeSequence ([escape] ++ intermediates ++ [final])

section Visible

variable {p q s characters : List Char} {c : Char}

theorem visibleAfter_visible (spaces : Nat) (characters : List Char) :
    ∀ c ∈ visibleAfter spaces characters, isVisible c = true := by
  fun_induction visibleAfter spaces characters with
  | case1 spaces characters ih => exact List.forall_mem_cons.mpr ⟨rfl, ih⟩
  | case2 => exact nofun
  | case3 rest ih => exact ih
  | case4 rest _ ih => exact ih
  | case5 c rest _ _ _ ih => exact ih
  | case6 rest _ _ _ ih => exact List.forall_mem_cons.mpr ⟨rfl, ih⟩
  | case7 rest _ _ _ _ ih => exact List.forall_mem_cons.mpr ⟨rfl, ih⟩
  | case8 c rest _ _ _ _ _ _ ih => exact ih
  | case9 c rest _ _ _ _ _ hshown ih =>
    refine List.forall_mem_cons.mpr ⟨?_, ih⟩
    rw [isVisible, Bool.or_eq_true, Bool.not_eq_true']
    exact .inr (Bool.eq_false_iff.mpr hshown)

theorem visibleAfter_cons (hc : isVisible c = true) :
    visibleAfter 0 (c :: characters) = c :: visibleAfter 0 characters := by
  have hescape : c ≠ escape := by
    rintro rfl
    exact absurd hc (by decide)
  have hcsi : c ≠ '\u009b' := by
    rintro rfl
    exact absurd hc (by decide)
  have hstring : isStringControl c = false := by
    refine Bool.eq_false_iff.mpr fun hstring => ?_
    simp only [isStringControl, Bool.or_eq_true, decide_eq_true_eq] at hstring
    rcases hstring with (((rfl | rfl) | rfl) | rfl) | rfl <;> exact absurd hc (by decide)
  have htab : c ≠ '\t' := by
    rintro rfl
    exact absurd hc (by decide)
  rw [visibleAfter, if_neg hescape, if_neg hcsi, if_neg (Bool.eq_false_iff.mp hstring), if_neg htab]
  split
  · rfl
  rename_i hline
  rw [isVisible, Bool.or_eq_true, decide_eq_true_eq, Bool.not_eq_true'] at hc
  rw [if_neg (Bool.eq_false_iff.mp (hc.resolve_left hline))]

/-- Visible characters stand as they are. -/
theorem visibleAfter_append (hp : p.all isVisible = true) :
    visibleAfter 0 (p ++ characters) = p ++ visibleAfter 0 characters := by
  induction p with
  | nil => rfl
  | cons c rest ih =>
    rw [List.all_cons, Bool.and_eq_true] at hp
    rw [List.cons_append, visibleAfter_cons hp.1, ih hp.2, List.cons_append]

theorem visibleCharacters_self (hp : p.all isVisible = true) : visibleCharacters p = p := by
  have h : visibleAfter 0 (p ++ []) = p ++ visibleAfter 0 [] := visibleAfter_append hp
  rw [List.append_nil, visibleAfter, List.append_nil] at h
  exact h

theorem dropWhile_stop {p : Char → Bool} {front : List Char} (hfront : front.all p = true)
    (hc : p c = false) : (front ++ c :: q).dropWhile p = c :: q := by
  rw [List.dropWhile_append_of_pos (List.all_eq_true.mp hfront),
    List.dropWhile_cons_of_neg (by simp [hc])]

theorem consumeCsiSequence_complete (hs : s.all isCsiParameter = true)
    (hc : isBetween 0x40 0x7e c = true) : consumeCsiSequence (s ++ c :: q) = q := by
  have hother : isCsiParameter c = false := by
    simp only [isBetween, isCsiParameter, Bool.and_eq_true, decide_eq_true_eq, Bool.or_eq_false_iff,
      Bool.and_eq_false_iff, decide_eq_false_iff_not] at hc ⊢
    omega
  rw [consumeCsiSequence, dropWhile_stop hs hother, skipIf, if_pos hc]

/-- A control string ends with its first terminator. -/
theorem consumeControlString_complete {body terminator : List Char}
    (hbell : bell ∉ body) (hended : stringTerminator ∉ body)
    (hescape : ¬ [escape, '\\'] <:+: body)
    (hterminator : terminator = [bell] ∨ terminator = [stringTerminator] ∨
      terminator = [escape, '\\']) :
    consumeControlString (body ++ terminator ++ q) = q := by
  induction body with
  | nil => rcases hterminator with rfl | rfl | rfl <;> rfl
  | cons c rest ih =>
    obtain ⟨hbell, hrest⟩ := not_or.mp (mt List.mem_cons.mpr hbell)
    obtain ⟨hended, hrest'⟩ := not_or.mp (mt List.mem_cons.mpr hended)
    have hinside : ¬ (c = escape ∧ (rest ++ terminator ++ q).head? = some '\\') := by
      rintro ⟨rfl, hnext⟩
      cases rest with
      | nil =>
        rcases hterminator with rfl | rfl | rfl <;>
          exact absurd hnext (by simp [bell, stringTerminator, escape])
      | cons d more =>
        obtain rfl : d = '\\' := Option.some.inj hnext
        exact hescape ⟨[], more, rfl⟩
    have hlater : ¬ [escape, '\\'] <:+: rest := fun h => hescape (List.infix_cons h)
    rw [List.cons_append, List.cons_append, consumeControlString,
      if_neg (not_or.mpr ⟨Ne.symm hbell, Ne.symm hended⟩), if_neg hinside]
    exact ih hrest hrest' hlater

theorem visibleAfter_escape :
    visibleAfter 0 (escape :: characters) = visibleAfter 0 (consumeEscapeSequence characters) := by
  rw [visibleAfter, if_pos rfl]

theorem isStringControl_other (hc : isStringControl c = true) : c ≠ escape ∧ c ≠ '\u009b' := by
  constructor
  · rintro rfl
    exact absurd hc (by decide)
  · rintro rfl
    exact absurd hc (by decide)

theorem opensString_other (hc : opensString c = true) : c ≠ '[' := by
  rintro rfl
  exact absurd hc (by decide)

/-- A complete sequence is left out, and nothing after it. -/
theorem visibleAfter_escapeSequence (hs : EscapeSequence s) :
    visibleAfter 0 (s ++ q) = visibleAfter 0 q := by
  cases hs with
  | csi introducer parameters final hintroducer hparameters hfinal =>
    have hconsume : consumeCsiSequence (parameters ++ [final] ++ q) = q := by
      rw [List.append_assoc]
      exact consumeCsiSequence_complete hparameters hfinal
    rcases hintroducer with rfl | rfl
    · show visibleAfter 0 (escape :: '[' :: (parameters ++ [final] ++ q)) = _
      rw [visibleAfter_escape, consumeEscapeSequence, if_pos rfl, hconsume]
    · show visibleAfter 0 ('\u009b' :: (parameters ++ [final] ++ q)) = _
      rw [visibleAfter, if_neg (by decide), if_pos rfl, hconsume]
  | controlString introducer body terminator hintroducer hbell hended hescape hterminator =>
    have hconsume := consumeControlString_complete (q := q) hbell hended hescape hterminator
    rcases hintroducer with ⟨c, hc, rfl⟩ | ⟨c, hc, rfl⟩
    · show visibleAfter 0 (escape :: c :: (body ++ terminator ++ q)) = _
      rw [visibleAfter_escape, consumeEscapeSequence, if_neg (opensString_other hc), if_pos hc,
        hconsume]
    · show visibleAfter 0 (c :: (body ++ terminator ++ q)) = _
      obtain ⟨hescape', hcsi⟩ := isStringControl_other hc
      rw [visibleAfter, if_neg hescape', if_neg hcsi, if_pos hc, hconsume]
  | twoCharacters final hcsi hstring hfinal =>
    have hother : isBetween 0x20 0x2f final = false := by
      simp only [isBetween, Bool.and_eq_true, decide_eq_true_eq, Bool.and_eq_false_iff,
        decide_eq_false_iff_not] at hfinal ⊢
      omega
    show visibleAfter 0 (escape :: final :: q) = _
    rw [visibleAfter_escape, consumeEscapeSequence, if_neg hcsi,
      if_neg (Bool.eq_false_iff.mp hstring), if_neg (Bool.eq_false_iff.mp hother), if_pos hfinal]
  | intermediate intermediates final hne hintermediates hfinal =>
    obtain ⟨c, rest, rfl⟩ := List.exists_cons_of_ne_nil hne
    have hc : isBetween 0x20 0x2f c = true := by
      rw [List.all_cons, Bool.and_eq_true] at hintermediates
      exact hintermediates.1
    have hcsi : c ≠ '[' := by
      rintro rfl
      exact absurd hc (by decide)
    have hstring : ¬ opensString c = true := by
      intro hopens
      simp only [opensString, Bool.or_eq_true, decide_eq_true_eq] at hopens
      rcases hopens with (((rfl | rfl) | rfl) | rfl) | rfl <;> exact absurd hc (by decide)
    have hother : isBetween 0x20 0x2f final = false := by
      simp only [isBetween, Bool.and_eq_true, decide_eq_true_eq, Bool.and_eq_false_iff,
        decide_eq_false_iff_not] at hfinal ⊢
      omega
    have hsplit : c :: (rest ++ [final] ++ q) = c :: rest ++ final :: q := by simp
    show visibleAfter 0 (escape :: c :: (rest ++ [final] ++ q)) = _
    rw [visibleAfter_escape, consumeEscapeSequence, if_neg hcsi, if_neg hstring, if_pos hc, hsplit,
      dropWhile_stop hintermediates hother, skipIf, if_pos hfinal]

end Visible

/-- **Terminal safety.**  Nothing that is shown is a control but a line feed, what is shown is
shown again as it is, and a complete escape sequence is left out and nothing else. -/
theorem visibleCharacters_safe (input : List Char) :
    (∀ c ∈ visibleCharacters input, (isControl c = true → c = '\n') ∧
      isBidirectionalControl c = false) ∧
    visibleCharacters (visibleCharacters input) = visibleCharacters input ∧
    ∀ p s q, p.all isVisible = true → q.all isVisible = true → EscapeSequence s →
      input = p ++ s ++ q → visibleCharacters input = p ++ q := by
  have hvisible := visibleAfter_visible 0 input
  refine ⟨fun c hc => ?_, visibleCharacters_self (List.all_eq_true.mpr hvisible), ?_⟩
  · have h := hvisible c hc
    rw [isVisible, Bool.or_eq_true, decide_eq_true_eq, Bool.not_eq_true', Bool.or_eq_false_iff] at h
    rcases h with rfl | ⟨hcontrol, hbidirectional⟩
    · exact ⟨fun _ => rfl, by decide⟩
    · exact ⟨fun h => absurd h (Bool.eq_false_iff.mp hcontrol), hbidirectional⟩
  · rintro p s q hp hq hs rfl
    rw [visibleCharacters, List.append_assoc, visibleAfter_append hp, visibleAfter_escapeSequence hs]
    exact congrArg (p ++ ·) (visibleCharacters_self hq)

/-- A link in a text. -/
theorem link_safe : visibleCharacters "see \x1b]8;;x\x1b\\it".toList = "see it".toList := by
  have hlink : EscapeSequence "\x1b]8;;x\x1b\\".toList :=
    .controlString [escape, ']'] "8;;x".toList [escape, '\\'] (.inl ⟨']', by decide, rfl⟩)
      (by decide) (by decide) (by decide) (.inr (.inr rfl))
  exact (visibleCharacters_safe _).2.2 "see ".toList _ "it".toList (by decide) (by decide) hlink
    (by decide)

end Morons.Cli
