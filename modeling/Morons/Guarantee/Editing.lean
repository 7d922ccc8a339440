import Morons.Guarantee.Reading

/-!
# Edits

An edit replaces texts that occur once.  It takes slices of the file at
character boundaries only, its result is the file with all ranges replaced at
once, and it writes nothing unless every check has passed.  What it takes for
an only occurrence is one that no other occurrence follows without overlapping
it.
-/

namespace Morons

open Attempt Provider Splice

variable {source : String} {replacements others : List TextReplacement}
  {replacement : TextReplacement} {bytes out : List UInt8} {range : Edit UInt8}
  {ranges : List (Edit UInt8)} {cursor p q : Nat}

/-! ## What an edit asks for -/

/-- The text that is to be replaced stands at a byte position of the file. -/
def Occurs (source : String) (replacement : TextReplacement) (p : Nat) : Prop :=
  OccursAt (bytesOf replacement.oldText) (bytesOf source) p

instance (source : String) (replacement : TextReplacement) (p : Nat) :
    Decidable (Occurs source replacement p) :=
  inferInstanceAs (Decidable (OccursAt _ _ p))

/-- The range of the first occurrence. -/
def firstRange (source : String) (replacement : TextReplacement) : Option (Edit UInt8) :=
  ((List.range (bytesOf source).length).find? fun p => Occurs source replacement p).map fun p =>
    { start := p
      stop := p + (bytesOf replacement.oldText).length
      replacement := bytesOf replacement.newText }

def matchedRanges (source : String) (replacements : List TextReplacement) : List (Edit UInt8) :=
  replacements.filterMap (firstRange source)

/-- The text with the ranges of the old texts replaced at once. -/
def substituted (source : String) (replacements : List TextReplacement) : List UInt8 :=
  substitute (bytesOf source) (matchedRanges source replacements)

/-- Every old text occurs at exactly one position, the ranges are disjoint, and
the result fits a file. -/
structure Editable (source : String) (replacements : List TextReplacement) : Prop where
  nonempty : ∀ replacement ∈ replacements, replacement.oldText ≠ ""
  unique : ∀ replacement ∈ replacements, ∃! p, Occurs source replacement p
  disjoint : (matchedRanges source replacements).Pairwise Edit.Disjoint
  small : (substituted source replacements).length ≤ maxFileBytes

/-- The text occurs, and from the end of its first occurrence on it does not occur. -/
def Found (source : String) (replacement : TextReplacement) : Prop :=
  replacement.oldText ≠ "" ∧ ∃ p, Occurs source replacement p ∧
    ∀ q, Occurs source replacement q → p ≤ q ∧ q < p + (bytesOf replacement.oldText).length

/-- Nothing else stands in the way of an edit, and one of its texts occurs again
inside its first occurrence. -/
structure HiddenRepeat (source : String) (replacements : List TextReplacement) : Prop where
  found : ∀ replacement ∈ replacements, Found source replacement
  disjoint : (matchedRanges source replacements).Pairwise Edit.Disjoint
  small : (substituted source replacements).length ≤ maxFileBytes
  repeats : ∃ replacement ∈ replacements, ∃ p q, p < q ∧ Occurs source replacement p ∧
    Occurs source replacement q

/-- An edit does what it is asked for, and nothing when it cannot. -/
structure ExactEdit (source : String) (replacements : List TextReplacement) : Prop where
  succeeds : (∃ out, applyReplacements source replacements = .ok out) ↔
    Editable source replacements
  substitutes : ∀ out, applyReplacements source replacements = .ok out →
    out = substituted source replacements ∧ ∃ text, bytesOf text = out
  unordered : ∀ others, replacements.Perm others → ∀ out,
    applyReplacements source replacements = .ok out → applyReplacements source others = .ok out
  slices : applyReplacements source replacements ≠ .error .slicePanic
  unchanged : ∀ (x : DirectToolExecutor) (disk : Disk) (path : String) (failure : Option FileNode)
    (fault : DirectFault), disk (x.resolve path) = .file (bytesOf source) →
    applyReplacements source replacements = .error fault →
    (∃ fault, (x.edit disk path replacements failure).1 = .error fault) ∧
      (x.edit disk path replacements failure).2 = disk

/-! ## Matches -/

theorem bytesOf_ne_nil {text : String} (h : text ≠ "") : bytesOf text ≠ [] := by
  intro hnil
  rw [bytesOf_eq_encode] at hnil
  have hempty := Utf8.encode_eq_nil (List.length_eq_zero_iff.mpr hnil)
  exact h (String.toList_inj.mp hempty)

/-- The first range is that of the first occurrence. -/
theorem firstRange_eq (hold : replacement.oldText ≠ "") :
    firstRange source replacement = some range ↔ Occurs source replacement range.start ∧
      (∀ q < range.start, ¬ Occurs source replacement q) ∧
      range.stop = range.start + (bytesOf replacement.oldText).length ∧
      range.replacement = bytesOf replacement.newText := by
  obtain ⟨start, stop, text⟩ := range
  simp only [firstRange, Option.map_eq_some_iff, List.find?_range_eq_some, decide_eq_true_eq,
    List.mem_range, Edit.mk.injEq, Bool.not_eq_eq_eq_not, Bool.not_true, decide_eq_false_iff_not]
  constructor
  · rintro ⟨p, ⟨hp, -, hfirst⟩, rfl, rfl, rfl⟩
    exact ⟨hp, hfirst, rfl, rfl⟩
  · rintro ⟨hp, hfirst, rfl, rfl⟩
    exact ⟨start, ⟨hp, hp.lt_length (bytesOf_ne_nil hold), hfirst⟩, rfl, rfl, rfl⟩

theorem firstRange_within (hold : replacement.oldText ≠ "")
    (h : firstRange source replacement = some range) : range.Within (bytesOf source) := by
  obtain ⟨hoccurs, -, hstop, -⟩ := (firstRange_eq hold).mp h
  have hpositive := List.length_pos_iff.mpr (bytesOf_ne_nil hold)
  have hend := hoccurs.le_length (bytesOf_ne_nil hold)
  exact ⟨by omega, by omega⟩

/-- An old text is matched where it occurs first, if nothing follows. -/
theorem matchedRange_ok (hsource : (bytesOf source).length < 2 ^ 63) :
    matchedRange (bytesOf source) replacement = .ok range ↔
      Found source replacement ∧ firstRange source replacement = some range := by
  by_cases hold : replacement.oldText = ""
  · simp [matchedRange, Found, hold, require, bind, Except.bind]
  have hnonempty := bytesOf_ne_nil hold
  rw [firstRange_eq hold]
  simp only [matchedRange, bind_ok, require_ok, exists_const, ne_eq, hold, not_false_eq_true,
    true_and]
  constructor
  · intro h
    split at h
    case h_1 => cases h
    case h_3 => cases h
    case h_2 start hmatch =>
      simp only [bind_ok, demand_ok, pure_ok] at h
      obtain ⟨stop, hstop, rfl⟩ := h
      obtain ⟨-, rfl⟩ : _ ∧ start + (bytesOf replacement.oldText).length = stop := by
        simpa [checkedAdd] using hstop
      obtain ⟨p, hstart, hoccurs, hfirst, hmore⟩ := matchIndices_eq_cons hnonempty hmatch
      obtain rfl : start = p := by omega
      have hnone := hmore.mp rfl
      refine ⟨⟨hold, start, hoccurs, ?_⟩, hoccurs, ?_, rfl, rfl⟩
      · intro q hq
        constructor
        · by_contra hbefore
          exact hfirst q (Nat.zero_le q) (by omega) hq
        · by_contra hbehind
          exact hnone q (by omega) hq
      · intro q hq
        exact hfirst q (Nat.zero_le q) hq
  · rintro ⟨⟨-, p, hp, hnear⟩, hoccurs, hfirst, hstop, htext⟩
    obtain rfl : p = range.start := by
      have hle := (hnear _ hoccurs).1
      by_contra hne
      exact hfirst p (by omega) hp
    have hend := hp.le_length hnonempty
    cases hmatch : matchIndices (bytesOf replacement.oldText) 0 0 (bytesOf source) with
    | nil => exact absurd hp ((matchIndices_eq_nil hnonempty).mp hmatch _ (Nat.zero_le _))
    | cons start more =>
      obtain ⟨p, hstart, hoccurs', hfirst', hmore⟩ := matchIndices_eq_cons hnonempty hmatch
      obtain rfl : p = range.start := by
        have hle := (hnear _ hoccurs').1
        by_contra hne
        exact hfirst' range.start (Nat.zero_le _) (by omega) hp
      obtain rfl : more = [] := by
        apply hmore.mpr
        intro q hq hoccurs
        have := (hnear q hoccurs).2
        omega
      obtain rfl : start = range.start := by omega
      have hadd : checkedAdd range.start (bytesOf replacement.oldText).length =
          some (range.start + (bytesOf replacement.oldText).length) := by
        rw [checkedAdd, if_pos (by omega)]
      simp only [hadd, demand, bind, Except.bind, pure, Except.pure, ← hstop, ← htext]

/-- All old texts are matched when each of them is. -/
theorem matchedRanges_ok (hsource : (bytesOf source).length < 2 ^ 63) :
    replacements.mapM (matchedRange (bytesOf source)) = .ok ranges ↔
      (∀ replacement ∈ replacements, Found source replacement) ∧
        ranges = matchedRanges source replacements := by
  induction replacements generalizing ranges with
  | nil =>
    rw [List.mapM_nil, pure_ok]
    simp [matchedRanges, eq_comm]
  | cons replacement rest ih =>
    simp only [List.mapM_cons, bind_ok, pure_ok, matchedRange_ok hsource, ih, List.forall_mem_cons]
    constructor
    · rintro ⟨range, ⟨hfound, hrange⟩, others, ⟨hrest, rfl⟩, rfl⟩
      refine ⟨⟨hfound, hrest⟩, ?_⟩
      simp only [matchedRanges, List.filterMap_cons, hrange]
    · rintro ⟨⟨hfound, hrest⟩, rfl⟩
      obtain ⟨hold, p, hp, hnear⟩ := hfound
      have hfirst : firstRange source replacement = some
          ⟨p, p + (bytesOf replacement.oldText).length, bytesOf replacement.newText⟩ := by
        refine (firstRange_eq hold).mpr ⟨hp, ?_, rfl, rfl⟩
        intro q hq hoccurs
        exact absurd hq (Nat.not_lt.mpr (hnear q hoccurs).1)
      refine ⟨_, ⟨⟨hold, p, hp, hnear⟩, hfirst⟩, _, ⟨hrest, rfl⟩, ?_⟩
      simp only [matchedRanges, List.filterMap_cons, hfirst]

/-! ## Ranges -/

/-- A range of the file with its ends at characters. -/
def OnBoundaries (bytes : List UInt8) (range : Edit UInt8) : Prop :=
  Utf8.isBoundary bytes range.start ∧ Utf8.isBoundary bytes range.stop ∧
    Utf8.IsText range.replacement

theorem isText_bytesOf (text : String) : Utf8.IsText (bytesOf text) :=
  ⟨text.toList, bytesOf_eq_encode text⟩

/-- What occurs in a text as bytes begins and ends with characters. -/
theorem firstRange_onBoundaries (hold : replacement.oldText ≠ "")
    (h : firstRange source replacement = some range) : OnBoundaries (bytesOf source) range := by
  obtain ⟨hoccurs, -, hstop, htext⟩ := (firstRange_eq hold).mp h
  rw [Occurs, OccursAt, bytesOf_eq_encode, bytesOf_eq_encode] at hoccurs
  have hne : replacement.oldText.toList ≠ [] := by
    intro hnil
    exact hold (String.toList_inj.mp hnil)
  obtain ⟨before, after, hsplit, hstart⟩ := Utf8.split_of_occurs hne hoccurs
  refine ⟨?_, ?_, ?_⟩
  · rw [bytesOf_eq_encode]
    exact Utf8.isBoundary_encode.mpr ⟨before, _, hsplit, hstart⟩
  · rw [bytesOf_eq_encode]
    refine Utf8.isBoundary_encode.mpr ⟨before ++ replacement.oldText.toList, after, ?_, ?_⟩
    · rw [hsplit, List.append_assoc]
    · rw [Utf8.encode_append, List.length_append, hstart, hstop, bytesOf_eq_encode]
  · rw [htext]
    exact isText_bytesOf _

/-- Slices between characters are there, and put together they are the new text. -/
theorem spliceSlices_ok (hbytes : Utf8.IsText bytes) (hordered : Ordered bytes cursor ranges)
    (hcursor : Utf8.isBoundary bytes cursor)
    (hranges : ∀ range ∈ ranges, OnBoundaries bytes range) :
    spliceSlices bytes cursor ranges = .ok (splice bytes cursor ranges) ∧
      Utf8.IsText (splice bytes cursor ranges) := by
  induction ranges generalizing cursor with
  | nil =>
    have hend : Utf8.isBoundary bytes bytes.length = true := by simp [Utf8.isBoundary]
    have hslice : Utf8.sliceBytes bytes cursor bytes.length = some (bytes.drop cursor) := by
      rw [Utf8.sliceBytes, if_pos ⟨hordered, hcursor, hend⟩, List.take_length]
    refine ⟨?_, hbytes.slice hslice⟩
    rw [spliceSlices, hslice]
    rfl
  | cons range rest ih =>
    obtain ⟨hstart, hwidth, hrest⟩ := hordered
    obtain ⟨⟨hfrom, hto, htext⟩, hranges⟩ := List.forall_mem_cons.mp hranges
    obtain ⟨hok, hvalid⟩ := ih hrest hto hranges
    have hslice : Utf8.sliceBytes bytes cursor range.start =
        some ((bytes.take range.start).drop cursor) := by
      rw [Utf8.sliceBytes, if_pos ⟨hstart, hcursor, hfrom⟩]
    refine ⟨?_, (hbytes.slice hslice).append (htext.append hvalid)⟩
    rw [spliceSlices, hslice, hok]
    rfl

theorem mem_matchedRanges (hfound : ∀ replacement ∈ replacements, Found source replacement)
    (hrange : range ∈ matchedRanges source replacements) :
    range.Within (bytesOf source) ∧ OnBoundaries (bytesOf source) range := by
  obtain ⟨replacement, hreplacement, hfirst⟩ := List.mem_filterMap.mp hrange
  have hold := (hfound replacement hreplacement).1
  exact ⟨firstRange_within hold hfirst, firstRange_onBoundaries hold hfirst⟩

/-- The ranges take out the old texts and put the new ones in. -/
theorem matchedRanges_sums (hfound : ∀ replacement ∈ replacements, Found source replacement) :
    ((matchedRanges source replacements).map Edit.width).sum =
      (replacements.map fun replacement => (bytesOf replacement.oldText).length).sum ∧
    ((matchedRanges source replacements).map (·.replacement.length)).sum =
      (replacements.map fun replacement => (bytesOf replacement.newText).length).sum := by
  induction replacements with
  | nil => exact ⟨rfl, rfl⟩
  | cons replacement rest ih =>
    obtain ⟨⟨hold, p, hp, hnear⟩, hrest⟩ := List.forall_mem_cons.mp hfound
    obtain ⟨hwidths, hlengths⟩ := ih hrest
    have hfirst : firstRange source replacement = some
        ⟨p, p + (bytesOf replacement.oldText).length, bytesOf replacement.newText⟩ := by
      refine (firstRange_eq hold).mpr ⟨hp, ?_, rfl, rfl⟩
      intro q hq hoccurs
      exact absurd hq (Nat.not_lt.mpr (hnear q hoccurs).1)
    unfold matchedRanges at hwidths hlengths ⊢
    rw [List.filterMap_cons, hfirst]
    simp only [List.map_cons, List.sum_cons, hwidths, hlengths]
    simp [Edit.width]

theorem foldlM_checkedSub (lengths : List TextReplacement) (total : Nat)
    (h : (lengths.map fun replacement => (bytesOf replacement.oldText).length).sum ≤ total) :
    lengths.foldlM (fun bytes replacement => checkedSub bytes (bytesOf replacement.oldText).length)
      total = some (total - (lengths.map fun r => (bytesOf r.oldText).length).sum) := by
  induction lengths generalizing total with
  | nil => rfl
  | cons replacement rest ih =>
    rw [List.map_cons, List.sum_cons] at h ⊢
    have hsub : checkedSub total (bytesOf replacement.oldText).length =
        some (total - (bytesOf replacement.oldText).length) := by
      rw [checkedSub, if_pos (by omega)]
    rw [List.foldlM_cons, hsub, Option.bind_eq_bind, Option.bind_some, ih _ (by omega)]
    congr 1
    omega

instance : Std.Total fun a b : Edit UInt8 => a.start ≤ b.start :=
  ⟨fun a b => Nat.le_total a.start b.start⟩

instance : IsTrans (Edit UInt8) fun a b => a.start ≤ b.start :=
  ⟨fun _ _ _ => Nat.le_trans⟩

/-- The ranges from left to right. -/
def sortedRanges (source : String) (replacements : List TextReplacement) : List (Edit UInt8) :=
  (matchedRanges source replacements).insertionSort fun a b => a.start ≤ b.start

theorem sortedRanges_perm (source : String) (replacements : List TextReplacement) :
    (sortedRanges source replacements).Perm (matchedRanges source replacements) :=
  List.perm_insertionSort _ _

/-- Comparing neighbours finds every overlap. -/
theorem overlapping_sortedRanges
    (hfound : ∀ replacement ∈ replacements, Found source replacement) :
    overlapping (sortedRanges source replacements) = false ↔
      (matchedRanges source replacements).Pairwise Edit.Disjoint := by
  have hperm := sortedRanges_perm source replacements
  have hsorted : (sortedRanges source replacements).Pairwise fun a b => a.start ≤ b.start :=
    List.pairwise_insertionSort _ _
  have hwithin : ∀ range ∈ sortedRanges source replacements, range.Within (bytesOf source) :=
    fun range hrange => (mem_matchedRanges hfound (hperm.mem_iff.mp hrange)).1
  rw [overlapping_eq_false hsorted hwithin, hperm.pairwise_iff Edit.Disjoint.symm]

theorem sortedRanges_ordered (hfound : ∀ replacement ∈ replacements, Found source replacement)
    (hdisjoint : (matchedRanges source replacements).Pairwise Edit.Disjoint) :
    Ordered (bytesOf source) 0 (sortedRanges source replacements) := by
  have hperm := sortedRanges_perm source replacements
  refine .of_disjoint (List.pairwise_insertionSort _ _) ?_
    ((hperm.pairwise_iff Edit.Disjoint.symm).mpr hdisjoint) (Nat.zero_le _)
    fun _ _ => Nat.zero_le _
  intro range hrange
  exact (mem_matchedRanges hfound (hperm.mem_iff.mp hrange)).1

theorem splice_sortedRanges (hfound : ∀ replacement ∈ replacements, Found source replacement)
    (hdisjoint : (matchedRanges source replacements).Pairwise Edit.Disjoint) :
    splice (bytesOf source) 0 (sortedRanges source replacements) =
      substituted source replacements := by
  rw [splice_eq_substitute (sortedRanges_ordered hfound hdisjoint), substituted]
  exact (substitute_perm (sortedRanges_perm source replacements).symm hdisjoint
    fun range hrange => (mem_matchedRanges hfound hrange).1).symm

/-- The slices of the ranges are there and make the substituted text. -/
theorem spliceSlices_sortedRanges
    (hfound : ∀ replacement ∈ replacements, Found source replacement)
    (hdisjoint : (matchedRanges source replacements).Pairwise Edit.Disjoint) :
    spliceSlices (bytesOf source) 0 (sortedRanges source replacements) =
        .ok (substituted source replacements) ∧
      Utf8.IsText (substituted source replacements) := by
  rw [← splice_sortedRanges hfound hdisjoint]
  refine spliceSlices_ok (isText_bytesOf source) (sortedRanges_ordered hfound hdisjoint)
    (by simp [Utf8.isBoundary]) ?_
  intro range hrange
  exact (mem_matchedRanges hfound ((sortedRanges_perm source replacements).mem_iff.mp hrange)).2

/-- The number of bytes that is checked is that of the result, unless the sum
is so large that the result is too large as well. -/
theorem outputBytes_eq (hsource : (bytesOf source).length < 2 ^ 63)
    (hfound : ∀ replacement ∈ replacements, Found source replacement)
    (hdisjoint : (matchedRanges source replacements).Pairwise Edit.Disjoint) :
    (∃ n, outputBytes (bytesOf source) replacements = some n ∧ n ≤ maxFileBytes) ↔
      (substituted source replacements).length ≤ maxFileBytes := by
  have hperm := sortedRanges_perm source replacements
  obtain ⟨hwidths, hlengths⟩ := matchedRanges_sums hfound
  have hsize := length_splice (sortedRanges_ordered hfound hdisjoint)
  have htaken := width_le (sortedRanges_ordered hfound hdisjoint)
  rw [splice_sortedRanges hfound hdisjoint, (hperm.map Edit.width).sum_nat,
    (hperm.map _).sum_nat, hwidths, hlengths] at hsize
  rw [(hperm.map Edit.width).sum_nat, hwidths] at htaken
  by_cases htotal : (bytesOf source).length +
      (replacements.map fun replacement => (bytesOf replacement.newText).length).sum < 2 ^ 64
  · have hbytes : outputBytes (bytesOf source) replacements =
        some (substituted source replacements).length := by
      rw [outputBytes, checkedAdd, if_pos htotal]
      simp only [Option.bind_eq_bind, Option.bind_some]
      rw [foldlM_checkedSub _ _ (by omega)]
      congr 1
      omega
    simp [hbytes]
  · have hbytes : outputBytes (bytesOf source) replacements = none := by
      rw [outputBytes, checkedAdd, if_neg htotal]
      rfl
    have hlarge : ¬ (substituted source replacements).length ≤ maxFileBytes := by
      unfold maxFileBytes
      omega
    simp [hbytes, hlarge]

/-- An edit succeeds when every old text is found, the ranges are disjoint and
the result is small enough, and then its result is the substituted text. -/
theorem applyReplacements_ok (hsource : (bytesOf source).length < 2 ^ 63) :
    applyReplacements source replacements = .ok out ↔
      (∀ replacement ∈ replacements, Found source replacement) ∧
      (matchedRanges source replacements).Pairwise Edit.Disjoint ∧
      (substituted source replacements).length ≤ maxFileBytes ∧
      out = substituted source replacements := by
  simp only [applyReplacements, bind_ok, require_ok, demand_ok, exists_const,
    matchedRanges_ok hsource]
  constructor
  · rintro ⟨_, ⟨hfound, rfl⟩, hoverlap, n, hbytes, hsmall, hout⟩
    have hdisjoint := (overlapping_sortedRanges hfound).mp hoverlap
    have hresult := (spliceSlices_sortedRanges hfound hdisjoint).1
    rw [sortedRanges, hout] at hresult
    exact ⟨hfound, hdisjoint, (outputBytes_eq hsource hfound hdisjoint).mp ⟨n, hbytes, hsmall⟩,
      Except.ok.inj hresult⟩
  · rintro ⟨hfound, hdisjoint, hsmall, rfl⟩
    obtain ⟨n, hbytes, hfits⟩ := (outputBytes_eq hsource hfound hdisjoint).mpr hsmall
    exact ⟨_, ⟨hfound, rfl⟩, (overlapping_sortedRanges hfound).mpr hdisjoint, n, hbytes, hfits,
      (spliceSlices_sortedRanges hfound hdisjoint).1⟩

theorem matchedRange_fails :
    FailsWith (· ≠ .slicePanic) (matchedRange (bytesOf source) replacement) := by
  simp only [matchedRange, failsWith_bind, failsWith_require]
  refine ⟨fun _ => by simp, fun _ _ => ?_⟩
  split <;> simp

/-- No slice of an edit is out of range or inside a character. -/
theorem applyReplacements_slices (hsource : (bytesOf source).length < 2 ^ 63) :
    FailsWith (· ≠ .slicePanic) (applyReplacements source replacements) := by
  simp only [applyReplacements, failsWith_bind, failsWith_require, failsWith_demand, require_ok,
    matchedRanges_ok hsource]
  refine ⟨failsWith_mapM fun _ _ => matchedRange_fails, ?_⟩
  rintro _ ⟨hfound, rfl⟩
  refine ⟨fun _ => by simp, fun _ hoverlap => ⟨fun _ => by simp, fun _ _ => ⟨fun _ => by simp, ?_⟩⟩⟩
  intro _ _
  have hdisjoint := (overlapping_sortedRanges hfound).mp hoverlap
  have hresult := (spliceSlices_sortedRanges hfound hdisjoint).1
  rw [sortedRanges] at hresult
  rw [hresult]
  exact failsWith_ok _

/-- An edit whose replacements are refused writes nothing. -/
theorem edit_unchanged {x : DirectToolExecutor} {disk : Disk} {path : String} {fault : DirectFault}
    (failure : Option FileNode) (hfile : disk (x.resolve path) = .file (bytesOf source))
    (hfault : applyReplacements source replacements = .error fault) :
    (∃ fault, (x.edit disk path replacements failure).1 = .error fault) ∧
      (x.edit disk path replacements failure).2 = disk := by
  have hrefused : ∀ edited, x.editedBytes disk path replacements ≠ .ok edited := by
    intro edited h
    simp only [DirectToolExecutor.editedBytes, bind_ok, require_ok, demand_ok, exists_const,
      DirectToolExecutor.readBounded, DirectToolExecutor.readBoundedWithLimit, hfile] at h
    obtain ⟨-, bytes, hread, -, text, htext, out, hout, -⟩ := h
    have hbytes : bytesOf source = bytes := by
      simp only [Except.mapError] at hread
      split at hread
      case h_1 => cases hread
      case h_2 content hcontent =>
        simp only [bind_ok, require_ok, exists_const, pure_ok] at hcontent
        obtain ⟨-, -, rfl⟩ := hcontent
        exact Except.ok.inj hread
    rw [← hbytes, decodeUtf8_bytesOf] at htext
    obtain rfl := Option.some.inj htext
    rw [hfault] at hout
    cases hout
  unfold DirectToolExecutor.edit
  cases hedited : x.editedBytes disk path replacements with
  | error fault => exact ⟨⟨fault, rfl⟩, rfl⟩
  | ok edited => exact absurd hedited (hrefused edited)

/-! ## Edits are exact -/

theorem Editable.found (h : Editable source replacements) :
    ∀ replacement ∈ replacements, Found source replacement := by
  intro replacement hmem
  obtain ⟨p, hp, honly⟩ := h.unique replacement hmem
  have hpositive := List.length_pos_iff.mpr (bytesOf_ne_nil (h.nonempty replacement hmem))
  refine ⟨h.nonempty replacement hmem, p, hp, ?_⟩
  intro q hq
  rw [honly q hq]
  omega

/-- An edit the code carries out is one that the text allows, or one with a hidden repeat. -/
theorem editable_or_hiddenRepeat (hfound : ∀ replacement ∈ replacements, Found source replacement)
    (hdisjoint : (matchedRanges source replacements).Pairwise Edit.Disjoint)
    (hsmall : (substituted source replacements).length ≤ maxFileBytes) :
    Editable source replacements ↔ ¬ HiddenRepeat source replacements := by
  constructor
  · intro h hhidden
    obtain ⟨replacement, hmem, p, q, hlt, hp, hq⟩ := hhidden.repeats
    have hsame := (h.unique replacement hmem).unique hp hq
    omega
  · intro hplain
    refine ⟨fun replacement hmem => (hfound replacement hmem).1, ?_, hdisjoint, hsmall⟩
    intro replacement hmem
    obtain ⟨-, p, hp, hnear⟩ := hfound replacement hmem
    refine ⟨p, hp, ?_⟩
    intro q hq
    by_contra hne
    have hle := (hnear q hq).1
    exact hplain ⟨hfound, hdisjoint, hsmall, replacement, hmem, p, q, by omega, hp, hq⟩

/-- An edit is exact unless one of its texts occurs again inside its first occurrence. -/
theorem exactEdit_iff (hsource : (bytesOf source).length < 2 ^ 63) :
    ExactEdit source replacements ↔ ¬ HiddenRepeat source replacements := by
  constructor
  · intro h hhidden
    have hdone : ∃ out, applyReplacements source replacements = .ok out :=
      ⟨_, (applyReplacements_ok hsource).mpr
        ⟨hhidden.found, hhidden.disjoint, hhidden.small, rfl⟩⟩
    have heditable := h.succeeds.mp hdone
    exact (editable_or_hiddenRepeat hhidden.found hhidden.disjoint hhidden.small).mp heditable
      hhidden
  · intro hplain
    refine ⟨?_, ?_, ?_, fun h => applyReplacements_slices hsource _ h rfl, ?_⟩
    · constructor
      · rintro ⟨out, hout⟩
        obtain ⟨hfound, hdisjoint, hsmall, -⟩ := (applyReplacements_ok hsource).mp hout
        exact (editable_or_hiddenRepeat hfound hdisjoint hsmall).mpr hplain
      · intro h
        exact ⟨_, (applyReplacements_ok hsource).mpr ⟨h.found, h.disjoint, h.small, rfl⟩⟩
    · intro out hout
      obtain ⟨hfound, hdisjoint, -, rfl⟩ := (applyReplacements_ok hsource).mp hout
      obtain ⟨cs, hcs⟩ := (spliceSlices_sortedRanges hfound hdisjoint).2
      exact ⟨rfl, String.ofList cs, by rw [bytesOf_eq_encode, String.toList_ofList, hcs]⟩
    · intro others hperm out hout
      obtain ⟨hfound, hdisjoint, hsmall, rfl⟩ := (applyReplacements_ok hsource).mp hout
      have hranges : (matchedRanges source replacements).Perm (matchedRanges source others) :=
        hperm.filterMap _
      have hsame : substituted source replacements = substituted source others :=
        substitute_perm hranges hdisjoint fun range hrange => (mem_matchedRanges hfound hrange).1
      rw [hsame] at hsmall ⊢
      refine (applyReplacements_ok hsource).mpr ⟨?_, ?_, hsmall, rfl⟩
      · intro replacement hmem
        exact hfound replacement (hperm.mem_iff.mpr hmem)
      · exact (hranges.pairwise_iff Edit.Disjoint.symm).mp hdisjoint
    · intro x disk path failure fault hfile hfault
      exact edit_unchanged failure hfile hfault

/-- A text of three equal letters holds two of them twice, and the first two are replaced. -/
theorem aaa_not_exact : ¬ ExactEdit "aaa" [⟨"aa", "b"⟩] := by
  intro h
  have hdone : applyReplacements "aaa" [⟨"aa", "b"⟩] = .ok (bytesOf "ba") := by decide +kernel
  have heditable := h.succeeds.mp ⟨_, hdone⟩
  have hfirst : Occurs "aaa" ⟨"aa", "b"⟩ 0 := by decide +kernel
  have hsecond : Occurs "aaa" ⟨"aa", "b"⟩ 1 := by decide +kernel
  have hsame := (heditable.unique ⟨"aa", "b"⟩ (by simp)).unique hfirst hsecond
  cases hsame

/-- Two letters before a third one of another kind are replaced exactly. -/
theorem exactEdit_iff_aab : (bytesOf "aab").length < 2 ^ 63 ∧
    (ExactEdit "aab" [⟨"aa", "é"⟩] ↔ ¬ HiddenRepeat "aab" [⟨"aa", "é"⟩]) := by
  have hlength : (bytesOf "aab").length < 2 ^ 63 := by decide +kernel
  exact ⟨hlength, exactEdit_iff hlength⟩

end Morons
