import Morons.Cli.Draft
import Morons.Library.Transition

/-!
# Submitted images

The images kept next to a prompt are those whose markers stand in it, and when
each is added behind all markers, in the order the server asks for.
-/

namespace Morons.Cli

open Utf8 Pieces Transition

variable {s t : AppState} {b : PromptBuffer} {l r ps front : List Piece}
  {name base value cs rest : List Char} {existing : List (List Char)} {n : Nat}

/-! ## Names -/

theorem popTo_size (n : Nat) (cs : List Char) : size (popTo n cs) ≤ n := by
  induction cs generalizing n with
  | nil => simp [popTo]
  | cons c cs ih =>
    rw [popTo]
    split
    · have := ih (n - c.utf8Size)
      rw [size_cons]
      omega
    · simp

theorem popTo_subset (n : Nat) (cs : List Char) : popTo n cs ⊆ cs := by
  induction cs generalizing n with
  | nil => simp [popTo]
  | cons c cs ih =>
    rw [popTo]
    split
    · exact List.cons_subset_cons _ (ih _)
    · simp

theorem popTo_append (h : size cs ≤ n) : popTo n (cs ++ rest) = cs ++ popTo (n - size cs) rest := by
  induction cs generalizing n with
  | nil => simp
  | cons c cs ih =>
    rw [size_cons] at h
    rw [List.cons_append, popTo, if_pos (by omega), ih (by omega), size_cons, Nat.sub_sub]
    rfl

/-- A name the server takes, as characters. -/
theorem validDisplayName_ofList : validDisplayName (String.ofList name) = true ↔
    name ≠ [] ∧ size name ≤ maxImageDisplayNameBytes ∧ name ≠ ['.'] ∧ name ≠ ['.', '.'] ∧
      (∀ c ∈ name, isControl c = false ∧ isBidirectionalControl c = false) ∧
      ∀ c ∈ name, c ≠ '/' ∧ c ≠ '\\' ∧ c ≠ '[' ∧ c ≠ ']' := by
  have hempty : (!(String.ofList name).isEmpty) = true ↔ name ≠ [] := by
    rw [Bool.not_eq_true', ← Bool.not_eq_true, String.isEmpty_iff, ← String.ofList_nil,
      String.ofList_inj]
  have hdot : String.ofList name ≠ String.ofList ['.'] ↔ name ≠ ['.'] := not_congr String.ofList_inj
  have hdots : String.ofList name ≠ String.ofList ['.', '.'] ↔ name ≠ ['.', '.'] :=
    not_congr String.ofList_inj
  have hone : ("." : String) = String.ofList ['.'] := rfl
  have htwo : (".." : String) = String.ofList ['.', '.'] := rfl
  simp only [validDisplayName, Bool.and_eq_true, hempty, decide_eq_true_eq, utf8ByteSize_ofList,
    hone, htwo, hdot, hdots, String.toList_ofList, Bool.not_eq_true', List.any_eq_false, Bool.or_eq_true,
    not_or, Bool.not_eq_true, and_assoc]

/-- What a character of a name becomes. -/
def sanitizeCharacter (c : Char) : Char :=
  if isControl c || isBidirectionalControl c || c = '/' || c = '\\' || c = '[' || c = ']' then '_'
  else c

theorem sanitizeImageName_eq (value : List Char) : sanitizeImageName value =
    let name := popTo maxImageDisplayNameBytes (value.map sanitizeCharacter)
    if name = [] ∨ name = ['.'] ∨ name = ['.', '.'] then [] else name := rfl

theorem sanitizeCharacter_valid (c : Char) :
    (isControl (sanitizeCharacter c) = false ∧ isBidirectionalControl (sanitizeCharacter c) = false) ∧
      sanitizeCharacter c ≠ '/' ∧ sanitizeCharacter c ≠ '\\' ∧ sanitizeCharacter c ≠ '[' ∧
      sanitizeCharacter c ≠ ']' := by
  unfold sanitizeCharacter
  split
  case isTrue => decide
  case isFalse hplain =>
    simp only [Bool.or_eq_true, decide_eq_true_eq, not_or, Bool.not_eq_true] at hplain
    obtain ⟨⟨⟨⟨⟨hcontrol, hbidirectional⟩, hslash⟩, hbackslash⟩, hopen⟩, hclose⟩ := hplain
    exact ⟨⟨hcontrol, hbidirectional⟩, hslash, hbackslash, hopen, hclose⟩

theorem sanitizeCharacter_size (c : Char) : (sanitizeCharacter c).utf8Size ≤ c.utf8Size := by
  unfold sanitizeCharacter
  split
  · exact c.utf8Size_pos
  · exact le_refl _

theorem sanitize_size (cs : List Char) : size (cs.map sanitizeCharacter) ≤ size cs := by
  induction cs with
  | nil => exact le_refl _
  | cons c cs ih =>
    have := sanitizeCharacter_size c
    rw [List.map_cons, size_cons, size_cons]
    omega

/-- A sanitized name is valid unless nothing is left of it. -/
theorem sanitizeImageName_valid (h : sanitizeImageName value ≠ []) :
    validDisplayName (String.ofList (sanitizeImageName value)) = true := by
  rw [sanitizeImageName_eq] at h ⊢
  simp only at h ⊢
  split at h
  case isTrue => exact absurd rfl h
  case isFalse hkept =>
    rw [if_neg hkept]
    simp only [not_or] at hkept
    have hcharacter : ∀ c ∈ popTo maxImageDisplayNameBytes (value.map sanitizeCharacter),
        ∃ d, c = sanitizeCharacter d := by
      intro c hc
      obtain ⟨d, -, hd⟩ := List.mem_map.mp (popTo_subset _ _ hc)
      exact ⟨d, hd.symm⟩
    refine validDisplayName_ofList.mpr ⟨hkept.1, popTo_size _ _, hkept.2.1, hkept.2.2, ?_, ?_⟩
    · intro c hc
      obtain ⟨d, rfl⟩ := hcharacter c hc
      exact (sanitizeCharacter_valid d).1
    · intro c hc
      obtain ⟨d, rfl⟩ := hcharacter c hc
      exact (sanitizeCharacter_valid d).2

/-- A blank that fits remains. -/
theorem sanitizeImageName_blank (h : size cs + 1 ≤ maxImageDisplayNameBytes) :
    sanitizeImageName (cs ++ ' ' :: rest) ≠ [] := by
  have hfits := sanitize_size cs
  have hblank : sanitizeCharacter ' ' = ' ' := by decide
  have hone : ' '.utf8Size = 1 := by decide
  have hmem : ' ' ∈ popTo maxImageDisplayNameBytes ((cs ++ ' ' :: rest).map sanitizeCharacter) := by
    rw [List.map_append, List.map_cons, hblank, popTo_append (by omega), popTo,
      if_pos (by rw [hone]; omega)]
    exact List.mem_append_right _ (List.mem_cons_self ..)
  rw [sanitizeImageName_eq]
  simp only
  rw [if_neg]
  · exact List.ne_nil_of_mem hmem
  · rintro (h | h | h) <;> rw [h] at hmem <;> exact absurd hmem (by decide)

theorem numberedName_valid (base : List Char) {digit : Char} (hdigit : digit.utf8Size = 1) :
    validDisplayName (String.ofList (numberedName base digit)) = true := by
  refine sanitizeImageName_valid ?_
  rw [List.append_assoc, List.cons_append]
  refine sanitizeImageName_blank ?_
  refine le_trans (Nat.succ_le_succ (popTo_size _ _)) ?_
  have hblank : ' '.utf8Size = 1 := by decide
  have hopen : '('.utf8Size = 1 := by decide
  have hclose : ')'.utf8Size = 1 := by decide
  simp only [size_cons, size_nil, hblank, hopen, hclose, hdigit, maxImageDisplayNameBytes]
  omega

/-- The name an image gets is valid and is no other's. -/
theorem uniqueImageName_valid (hbase : validDisplayName (String.ofList base) = true)
    (h : uniqueImageName base existing = some name) :
    validDisplayName (String.ofList name) = true ∧ name ∉ existing := by
  unfold uniqueImageName at h
  split at h
  case isTrue hnew =>
    obtain rfl := Option.some.inj h
    exact ⟨hbase, hnew⟩
  case isFalse =>
    have hnew := List.find?_some h
    refine ⟨?_, of_decide_eq_true hnew⟩
    obtain ⟨digit, hdigit, rfl⟩ := List.mem_map.mp (List.mem_of_find?_eq_some h)
    refine numberedName_valid base ?_
    simp only [List.mem_cons, List.not_mem_nil, or_false] at hdigit
    rcases hdigit with rfl | rfl | rfl | rfl <;> decide

theorem pastedName_valid {count : Nat} (hcount : count < maxDraftImages)
    (mediaType : ImageMediaType) :
    validDisplayName (String.ofList (AppState.pastedName count (imageExtension mediaType))) = true := by
  match count, hcount with
  | 0, _ | 1, _ | 2, _ | 3, _ => cases mediaType <;> decide +kernel

theorem baseName_valid (s : AppState) (image : NormalizedImage) (suggestedName : Option (List Char))
    (hfew : s.draftImages.length < maxDraftImages) :
    validDisplayName (String.ofList (s.baseName image suggestedName)) = true := by
  unfold AppState.baseName
  cases hsuggested : (suggestedName.map sanitizeImageName).filter (· ≠ []) with
  | some name =>
    obtain ⟨hname, hkept⟩ := Option.filter_eq_some_iff.mp hsuggested
    obtain ⟨value, -, rfl⟩ := Option.map_eq_some_iff.mp hname
    exact sanitizeImageName_valid (of_decide_eq_true hkept)
  | none =>
    exact pastedName_valid hfew image.mediaType

/-! ## Order -/

/-- The characters between two positions are those of a text between the bytes. -/
theorem extract_ofList (a b c : List Char) :
    (String.ofList (a ++ b ++ c)).toUTF8.extract (size a) (size a + size b) =
      (String.ofList b).toUTF8 := by
  have hsize : ∀ cs : List Char, size cs = (String.ofList cs).toByteArray.size :=
    fun cs => (utf8ByteSize_ofList cs).symm
  rw [String.ofList_append, String.ofList_append]
  simp only [String.toUTF8, String.toByteArray_append, ByteArray.append_assoc]
  have hshift := ByteArray.extract_append_size_add' (a := (String.ofList a).toByteArray)
    (b := (String.ofList b).toByteArray ++ (String.ofList c).toByteArray) (i := 0) (j := size b)
    (hsize a)
  rw [Nat.add_zero] at hshift
  rw [hshift]
  exact ByteArray.extract_append_eq_left (hsize b)

theorem ofList_marker (name : List Char) :
    "[" ++ String.ofList name ++ "]" = String.ofList (PromptBuffer.marker name) := by
  rw [PromptBuffer.marker, String.ofList_append, ← List.singleton_append, String.ofList_append]

theorem markerAt_place (front : List Char) (name after : List Char) :
    markerAt (String.ofList (front ++ PromptBuffer.marker name ++ after)) (String.ofList name)
      (size front) = true := by
  simp only [markerAt, Bool.and_eq_true, decide_eq_true_eq]
  rw [ofList_marker, utf8ByteSize_ofList, utf8ByteSize_ofList, extract_ofList]
  refine ⟨?_, rfl⟩
  rw [size_append, size_append]
  exact Nat.le_add_right _ _

/-- The markers of a prompt are in the order of its text. -/
theorem markersInOrder_places {last : Nat} (hmarked : Marked ps) (hlast : last ≤ width front) :
    markersInOrder (String.ofList (text (front ++ ps))) last
      ((places (width front) ps).map fun m => (String.ofList m.1, m.2)) = true := by
  induction ps generalizing front last with
  | nil => rfl
  | cons p ps ih =>
    have hrest : Marked ps := fun cs hcs => hmarked cs (List.mem_cons_of_mem _ hcs)
    have hmoved : front ++ p :: ps = front ++ [p] ++ ps := by simp
    have hwidth : width (front ++ [p]) = width front + size p.chars := by simp
    cases p with
    | plain c =>
      have hfront : last ≤ width (front ++ [.plain c]) := by
        rw [hwidth]
        omega
      have htail := ih hrest hfront
      rw [hwidth] at htail
      rw [hmoved]
      simpa only [places, Piece.chars, size_cons, size_nil, Nat.add_zero] using htail
    | block bs =>
      obtain ⟨name, rfl⟩ := hmarked bs (List.mem_cons_self ..)
      have htail := ih hrest (le_refl (width (front ++ [.block (PromptBuffer.marker name)])))
      rw [hwidth] at htail
      have hat := markerAt_place (text front) name (text ps)
      rw [← width] at hat
      rw [hmoved]
      simp only [places, List.map_cons, markersInOrder, Bool.and_eq_true, decide_eq_true_eq,
        blockName_marker]
      refine ⟨⟨hlast, ?_⟩, ?_⟩
      · simpa [Piece.chars] using hat
      · rw [ofList_marker, utf8ByteSize_ofList]
        exact htail

/-- What a sublist without repetitions keeps of a list. -/
theorem filter_mem_sublist {as bs : List (List Char)} (h : bs.Nodup) (hsublist : as.Sublist bs) :
    (bs.filter fun b => decide (b ∈ as)) = as := by
  induction hsublist with
  | slnil => rfl
  | cons b hsub ih =>
    rename_i as bs
    obtain ⟨hb, hbs⟩ := List.nodup_cons.mp h
    rw [List.filter_cons_of_neg (by simpa using fun hmem => hb (hsub.subset hmem)), ih hbs]
  | cons_cons b hsub ih =>
    rename_i as bs
    obtain ⟨hb, hbs⟩ := List.nodup_cons.mp h
    rw [List.filter_cons_of_pos (by simp)]
    refine congrArg _ ((List.filter_congr fun c hc => ?_).trans (ih hbs))
    have hne : c ≠ b := fun e => hb (e ▸ hc)
    simp [hne]

/-! ## The invariant -/

/-- The draft images are the markers of the prompt, in the same order. -/
structure Drafted (s : AppState) : Prop where
  represented : ∃ l r, Represents s.prompt l r ∧ names (l ++ r) = s.draftNames
  distinct : s.draftNames.Nodup
  few : s.draftImages.length ≤ maxDraftImages
  valid : ∀ name ∈ s.draftNames, validDisplayName (String.ofList name) = true

/-- The image is taken, and gets a name and a place in the prompt. -/
def adds (s : AppState) (image : NormalizedImage) (suggestedName : Option (List Char)) : Bool :=
  s.acceptsImageInput && !s.draftLimitReached image &&
    ((uniqueImageName (s.baseName image suggestedName) s.draftNames).bind fun name =>
      s.prompt.pushImageMarker name).isSome

/-- The Enter key opens the search for a model. -/
def searches (s : AppState) : Bool :=
  s.sessionKeys && s.pending.isNone && !s.transcriptPageLoading && s.session.isSome &&
    (AppState.modelSearch s.prompt.text).isSome

/-- An image is added behind all markers of the prompt, and while there are
images no model is searched for and no local command is accepted. -/
def careful (s : AppState) : AppState.Action → Bool
  | .image image suggestedName => !adds s image suggestedName ||
      s.prompt.markers.all fun m => decide (m.2 ≤ s.prompt.cursor)
  | .key .enter => !searches s || s.draftImages.isEmpty
  | .localCommandAccepted .. => s.draftImages.isEmpty
  | _ => true

namespace Drafted

/-- The images stay when the names in the prompt do. -/
theorem edited (h : Drafted s) {l r : List Piece} (hprompt : Represents t.prompt l r)
    (hnames : names (l ++ r) = s.draftNames) (himages : t.draftImages = s.draftImages) :
    Drafted t := by
  have hsame : t.draftNames = s.draftNames := by rw [AppState.draftNames, himages]; rfl
  exact ⟨⟨l, r, hprompt, hnames.trans hsame.symm⟩, hsame ▸ h.distinct, himages ▸ h.few,
    hsame ▸ h.valid⟩

theorem same (h : Drafted s) (hprompt : t.prompt = s.prompt)
    (himages : t.draftImages = s.draftImages) : Drafted t := by
  obtain ⟨l, r, hpieces, hnames⟩ := h.represented
  exact h.edited (hprompt ▸ hpieces) hnames himages

theorem cleared (hprompt : t.prompt = {}) (himages : t.draftImages = []) : Drafted t := by
  have hnames : t.draftNames = [] := by rw [AppState.draftNames, himages]; rfl
  refine ⟨⟨[], [], hprompt ▸ Represents.empty, hnames.symm⟩, ?_, ?_, ?_⟩
  · rw [hnames]
    exact List.nodup_nil
  · rw [himages]
    exact Nat.zero_le _
  · rw [hnames]
    exact fun name hname => absurd hname (List.not_mem_nil)

/-- A prompt without a bracket has no images. -/
theorem unbracketed (h : Drafted s) (htext : ']' ∉ s.prompt.text) : s.draftImages = [] := by
  obtain ⟨l, r, hpieces, hnames⟩ := h.represented
  rw [hpieces.written] at htext
  rw [Represents.plain_of_unbracketed hpieces.marked htext, Represents.names_text] at hnames
  exact List.map_eq_nil_iff.mp hnames.symm

/-- Editing the prompt in a way that keeps its names. -/
theorem edit (h : Drafted s) {prompt : PromptBuffer}
    (hkeep : ∀ {l r}, Represents s.prompt l r →
      ∃ l' r', Represents prompt l' r' ∧ names (l' ++ r') = names (l ++ r)) :
    Drafted (s.edit prompt) := by
  unfold AppState.edit
  split
  case isFalse => exact h
  case isTrue =>
    obtain ⟨l, r, hpieces, hnames⟩ := h.represented
    obtain ⟨l', r', hpieces', hkept⟩ := hkeep hpieces
    exact h.edited hpieces' (hkept.trans hnames) rfl

theorem moved (h : Drafted s) {prompt : PromptBuffer}
    (hmove : ∀ {l r}, Represents s.prompt l r →
      ∃ l' r', l' ++ r' = l ++ r ∧ Represents prompt l' r') : Drafted (s.edit prompt) := by
  refine h.edit fun {l r} hpieces => ?_
  obtain ⟨l', r', hps, hpieces'⟩ := hmove hpieces
  exact ⟨l', r', hpieces', by rw [hps]⟩

theorem typed (h : Drafted s) {prompt : PromptBuffer}
    (htype : ∀ {l r}, Represents s.prompt l r →
      ∃ l', Represents prompt l' r ∧ names l' = names l) : Drafted (s.edit prompt) := by
  refine h.edit fun {l r} hpieces => ?_
  obtain ⟨l', hpieces', hnames⟩ := htype hpieces
  exact ⟨l', r, hpieces', by rw [names_append, names_append, hnames]⟩

theorem handlePaste (h : Drafted s) (paste : List Char) : Drafted (s.handlePaste paste) := by
  unfold AppState.handlePaste
  split
  · exact h
  split
  · obtain ⟨l, r, hpieces, hnames⟩ := h.represented
    obtain ⟨l', hpieces', hkept⟩ := hpieces.pushPaste paste
    exact h.edited hpieces' (by rw [names_append, hkept, ← names_append, hnames]) rfl
  · exact h

theorem completeSelectedSkill (h : Drafted s) : Drafted s.completeSelectedSkill := by
  unfold AppState.completeSelectedSkill
  split
  · exact h
  · obtain ⟨l, r, hpieces, hnames⟩ := h.represented
    obtain ⟨l', r', hpieces', hkept⟩ := hpieces.completeSkill (List.getD _ _ [])
    exact h.edited hpieces' (hkept.trans hnames) rfl

theorem cycleSkillCompletion (h : Drafted s) (reverse : Bool) :
    Drafted (s.cycleSkillCompletion reverse).1 := by
  unfold AppState.cycleSkillCompletion
  split
  · exact h
  · exact h.same rfl rfl

/-- A vertical key selects a skill or else moves the cursor. -/
theorem vertical (h : Drafted s) (reverse : Bool) :
    Drafted (match s.cycleSkillCompletion reverse with
      | (s', true) => (s', AppAction.none)
      | (_, false) => (s.edit (s.prompt.moveVertical (!reverse)), AppAction.none)).1 := by
  have hcycled := h.cycleSkillCompletion reverse
  split
  case h_1 s' hcycle =>
    rw [hcycle] at hcycled
    exact hcycled
  case h_2 => exact h.moved fun hpieces => hpieces.moveVertical (!reverse)

/-- A backspace takes the image with its marker. -/
theorem backspacePrompt (h : Drafted s) : Drafted s.backspacePrompt := by
  obtain ⟨l, r, hpieces, hnames⟩ := h.represented
  obtain ⟨l', hpieces', hsublist⟩ := hpieces.backspace
  have hfewer : (names (l' ++ r)).Sublist s.draftNames := by
    rw [← hnames, names_append, names_append]
    exact hsublist.append_right _
  have hdistinct : (names (l' ++ r)).Nodup := h.distinct.sublist hfewer
  have hkept : s.backspacePrompt.draftNames = names (l' ++ r) := by
    have hfound : s.backspacePrompt.draftNames =
        s.draftNames.filter fun name => decide (name ∈ names (l' ++ r)) := by
      simp only [AppState.draftNames, AppState.backspacePrompt, List.filter_map]
      refine congrArg _ (List.filter_congr fun image _ => ?_)
      rw [Function.comp_apply, Bool.eq_iff_iff, decide_eq_true_iff]
      exact hpieces'.markerStart_isSome hdistinct
    rw [hfound]
    exact filter_mem_sublist h.distinct hfewer
  refine ⟨⟨l', r, hpieces', hkept.symm⟩, hkept ▸ hdistinct, ?_, ?_⟩
  · exact le_trans (List.length_filter_le _ _) h.few
  · intro name hname
    rw [hkept] at hname
    exact h.valid name (hfewer.subset hname)

/-- An image added behind the markers is the last of both. -/
theorem addDraftImage (h : Drafted s) (image : NormalizedImage)
    (suggestedName : Option (List Char))
    (hcareful : careful s (.image image suggestedName) = true) :
    Drafted (s.addDraftImage image suggestedName) := by
  unfold AppState.addDraftImage
  split
  · exact h
  rename_i haccepts
  split
  · exact h
  rename_i hlimit
  split
  · exact h
  rename_i displayName hunique
  split
  · exact h
  rename_i prompt markerStart hpush
  have hbehind : ∀ m ∈ s.prompt.markers, m.2 ≤ s.prompt.cursor := by
    have hadds : adds s image suggestedName = true := by
      simp only [Bool.not_eq_true', Bool.not_eq_false, Bool.not_eq_true] at haccepts hlimit
      simp [adds, haccepts, hlimit, hunique, hpush]
    simpa only [careful, hadds, Bool.not_true, Bool.false_or, List.all_eq_true, decide_eq_true_eq]
      using hcareful
  have hfew : s.draftImages.length < maxDraftImages := by
    simp only [AppState.draftLimitReached, Bool.or_eq_true, decide_eq_true_eq, not_or, not_le]
      at hlimit
    exact hlimit.1
  obtain ⟨hvalid, hnew⟩ := uniqueImageName_valid (baseName_valid s image suggestedName hfew) hunique
  obtain ⟨l, r, hpieces, hnames⟩ := h.represented
  have hafter := hpieces.names_after hbehind
  have hpushed := hpieces.pushImageMarker hpush
  have hadded : ∀ start, (s.draftImages ++
      [(⟨⟨displayName, start, image.bytes⟩, image.bytes.length⟩ : DraftImage)]).map
        (·.upload.displayName) = s.draftNames ++ [displayName] :=
    fun start => List.map_append
  refine ⟨⟨_, _, hpushed, ?_⟩, ?_, ?_, ?_⟩
  · rw [AppState.draftNames, hadded, ← hnames, names_append, names_append, names_append, hafter]
    simp
  · rw [AppState.draftNames, hadded]
    refine List.nodup_append.mpr ⟨h.distinct, List.nodup_singleton _, ?_⟩
    rintro a ha b hb rfl
    exact hnew (List.mem_singleton.mp hb ▸ ha)
  · simp only [List.length_append, List.length_singleton]
    exact hfew
  · intro name hname
    rw [AppState.draftNames, hadded, List.mem_append, List.mem_singleton] at hname
    rcases hname with hname | rfl
    · exact h.valid name hname
    · exact hvalid

/-- The commands that clear the prompt leave no image behind. -/
theorem submitAction (h : Drafted s) (hkeys : s.sessionKeys = true) (hpending : s.pending.isNone)
    (hcareful : careful s (.key .enter) = true) : Drafted s.submitAction.1 := by
  have hword : ∀ word : List Char, ']' ∉ word → s.prompt.text = word → s.draftImages = [] :=
    fun word hplain htext => h.unbracketed (htext ▸ hplain)
  unfold AppState.submitAction
  split
  · exact h
  rename_i hloaded
  split
  · exact h
  split
  · exact h
  rename_i session hsession
  simp only
  split
  · rename_i htext
    exact cleared rfl (hword _ (by decide) htext)
  split
  · rename_i htext
    rcases htext with htext | htext
    · exact cleared rfl (hword _ (by decide) htext)
    · exact cleared rfl (hword _ (by decide) htext)
  split
  · rename_i htext
    exact cleared rfl (hword _ (by decide) htext)
  split
  · rename_i hsearch
    refine cleared rfl ?_
    have hsearches : searches s = true := by
      simp [searches, hkeys, hpending, hloaded, hsession, hsearch]
    simpa only [careful, hsearches, Bool.not_true, Bool.false_or, List.isEmpty_iff] using hcareful
  split
  · split <;> exact h
  · exact h

theorem handleSessionKey (h : Drafted s) (hkeys : s.sessionKeys = true) (key : AppState.Key)
    (hcareful : careful s (.key key) = true) : Drafted (s.handleSessionKey key).1 := by
  cases key with
  | tab => exact h.completeSelectedSkill
  | backTab => exact h.cycleSkillCompletion true
  | up => exact h.vertical true
  | down => exact h.vertical false
  | left => exact h.moved fun hpieces => hpieces.moveLeft
  | right => exact h.moved fun hpieces => hpieces.moveRight
  | backspace =>
    show Drafted (if s.pending.isNone then s.backspacePrompt else s)
    split
    · exact h.backspacePrompt
    · exact h
  | newline => exact h.typed fun hpieces => hpieces.pushCharacter '\n'
  | enter =>
    show Drafted (if s.pending.isNone then s.submitAction else (s, .none)).1
    split
    · rename_i hpending
      exact h.submitAction hkeys hpending hcareful
    · exact h
  | character c => exact h.typed fun hpieces => hpieces.pushCharacter c

/-- **One step.** -/
theorem apply (h : Drafted s) (action : AppState.Action) (hcareful : careful s action = true) :
    Drafted (s.apply action).1 := by
  cases action with
  | key key =>
    show Drafted (if s.sessionKeys then s.handleSessionKey key else (s, .none)).1
    split
    · rename_i hkeys
      exact h.handleSessionKey hkeys key hcareful
    · exact h
  | paste paste => exact h.handlePaste paste
  | image image suggestedName => exact h.addDraftImage image suggestedName hcareful
  | openSession session => exact cleared rfl rfl
  | closeSession => exact cleared rfl rfl
  | sessionInputAccepted => exact cleared rfl rfl
  | localCommandAccepted => exact cleared rfl (List.isEmpty_iff.mp hcareful)
  | contextStatusLoaded =>
    show Drafted s.contextStatusLoaded
    unfold AppState.contextStatusLoaded
    split
    · rename_i htext
      exact cleared rfl (h.unbracketed (by rw [htext]; decide))
    · exact h
  | other rest => exact h.same rfl rfl

/-- Every image is uploaded with the place of its marker. -/
theorem imageUploads (h : Drafted s) : ∃ l r, Represents s.prompt l r ∧
    names (l ++ r) = s.draftNames ∧
    s.imageUploads.map (fun upload => (upload.displayName, upload.markerStart)) =
      places 0 (l ++ r) := by
  obtain ⟨l, r, hpieces, hnames⟩ := h.represented
  have hdistinct : (names (l ++ r)).Nodup := hnames ▸ h.distinct
  refine ⟨l, r, hpieces, hnames, ?_⟩
  have hlooked : s.imageUploads.map (fun upload => (upload.displayName, upload.markerStart)) =
      s.draftNames.filterMap fun name =>
        (s.prompt.markerStart name).map fun start => (name, start) := by
    simp only [AppState.imageUploads, AppState.draftNames, List.map_filterMap, List.filterMap_map,
      Option.map_map]
    rfl
  rw [hlooked, ← hnames, ← places_names 0 (l ++ r), List.filterMap_map]
  refine (List.filterMap_congr (g := some) fun place hplace => ?_).trans List.filterMap_some
  rw [Function.comp_apply, (hpieces.markerStart hdistinct).mpr hplace]
  rfl

end Drafted

/-! ## Runs -/

/-- A step of the session view that adds images behind the markers, and is no
search for a model and no acceptance of a local command while there are images. -/
def CarefulStep (s t : AppState) : Prop :=
  ∃ action, careful s action = true ∧ t = (s.apply action).1

theorem reachable_drafted (h : Reachable (· = {}) CarefulStep s) : Drafted s := by
  refine h.invariant (I := Drafted) ?_ ?_
  · rintro _ rfl
    exact Drafted.cleared rfl rfl
  · rintro s t hs ⟨action, hcareful, rfl⟩
    exact hs.apply action hcareful

def run (s : AppState) (actions : List AppState.Action) : AppState :=
  actions.foldl (fun s action => (s.apply action).1) s

def carefulRun (s : AppState) : List AppState.Action → Bool
  | [] => true
  | action :: actions => careful s action && carefulRun (s.apply action).1 actions

theorem reachable_run {actions : List AppState.Action} (h : Reachable (· = {}) CarefulStep s)
    (hcareful : carefulRun s actions = true) : Reachable (· = {}) CarefulStep (run s actions) := by
  induction actions generalizing s with
  | nil => exact h
  | cons action actions ih =>
    rw [carefulRun, Bool.and_eq_true] at hcareful
    exact ih (h.next ⟨action, hcareful.1, rfl⟩) hcareful.2

/-- What is submitted is the prompt with its images. -/
theorem submitAction_submitted {sessionId : SessionId} {text : List Char}
    {attachments : List ImageUpload} {service : RunService} {modelId : String}
    (h : s.submitAction.2 = .submitInput sessionId text attachments service modelId) :
    text = s.prompt.text ∧ attachments = s.imageUploads := by
  have hmessage : ∀ session, s.submitMessage session =
      .submitInput sessionId text attachments service modelId →
      text = s.prompt.text ∧ attachments = s.imageUploads := by
    intro session hmessage
    unfold AppState.submitMessage at hmessage
    split at hmessage
    · cases hmessage
    split at hmessage
    · cases hmessage
    split at hmessage
    · cases hmessage
    · injection hmessage with _ htext hattachments
      exact ⟨htext.symm, hattachments.symm⟩
  have hwork : ∀ session, s.submitWork session =
      .submitInput sessionId text attachments service modelId →
      s.submitMessage session = .submitInput sessionId text attachments service modelId := by
    intro session hwork
    unfold AppState.submitWork at hwork
    simp only at hwork
    repeat' split at hwork
    all_goals first | cases hwork | exact hwork
  unfold AppState.submitAction at h
  simp only at h
  repeat' split at h
  all_goals first | cases h | exact hmessage _ (hwork _ h)

/-- The draft images are exactly those whose marker stands in the prompt. -/
structure ImagesMatch (s : AppState) : Prop where
  marked : ∀ image ∈ s.draftImages, ∃ m ∈ s.prompt.markers,
    slice s.prompt.text m.1 m.2 = some (PromptBuffer.marker image.upload.displayName)
  kept : ∀ m ∈ s.prompt.markers, ∃ image ∈ s.draftImages,
    slice s.prompt.text m.1 m.2 = some (PromptBuffer.marker image.upload.displayName)
  distinct : s.draftNames.Nodup
  few : s.draftImages.length ≤ maxDraftImages

/-- What the server asks of the names, the markers and their order. -/
structure Submittable (text : List Char) (attachments : List ImageUpload) : Prop where
  few : attachments.length ≤ maxImageAttachmentsPerMessage
  valid : ∀ a ∈ attachments, validDisplayName (String.ofList a.displayName) = true
  distinct : (attachments.map (·.displayName)).Nodup
  ordered : markersInOrder (String.ofList text) 0
    (attachments.map fun a => (String.ofList a.displayName, a.markerStart)) = true

theorem Drafted.imagesMatch (h : Drafted s) : ImagesMatch s := by
  obtain ⟨l, r, hpieces, hnames⟩ := h.represented
  refine ⟨fun image himage => ?_, fun m hm => ?_, h.distinct, h.few⟩
  · exact hpieces.marker_of_name (hnames ▸ List.mem_map_of_mem himage)
  · obtain ⟨name, hname, hat⟩ := hpieces.name_of_marker hm
    rw [hnames] at hname
    obtain ⟨image, himage, rfl⟩ := List.mem_map.mp hname
    exact ⟨image, himage, hat⟩

theorem Drafted.submittable (h : Drafted s) : Submittable s.prompt.text s.imageUploads := by
  obtain ⟨l, r, hpieces, hnames, hplaces⟩ := h.imageUploads
  have hsame : s.imageUploads.map (·.displayName) = s.draftNames := by
    have hfirst := congrArg (List.map Prod.fst) hplaces
    rw [places_names, hnames, List.map_map] at hfirst
    exact hfirst
  refine ⟨?_, ?_, hsame ▸ h.distinct, ?_⟩
  · have hlength := congrArg List.length hsame
    rw [List.length_map, AppState.draftNames, List.length_map] at hlength
    exact hlength ▸ h.few
  · intro a ha
    refine h.valid _ ?_
    rw [← hsame]
    exact List.mem_map_of_mem ha
  · have hordered := markersInOrder_places hpieces.marked (Nat.zero_le (width []))
    rw [List.nil_append, ← hpieces.written, width_nil, ← hplaces, List.map_map] at hordered
    exact hordered

theorem head_of_strip {c : Char} {word prompt rest : List Char}
    (h : AppState.strip (c :: word) prompt = some rest) : prompt.head? = some c := by
  unfold AppState.strip at h
  split at h
  · rename_i hprefix
    obtain ⟨after, rfl⟩ := List.isPrefixOf_iff_prefix.mp hprefix
    rfl
  · cases h

section LocalCommand

variable {session : SessionView} {sessionId : SessionId} {command : List Char}
  {contextVisible : Bool}

theorem submitMessage_command :
    s.submitMessage session ≠ .executeLocalCommand sessionId command contextVisible := by
  intro h
  unfold AppState.submitMessage at h
  repeat' split at h
  all_goals cases h

/-- With an image no prompt is a command. -/
theorem submitWork_command
    (h : s.submitWork session = .executeLocalCommand sessionId command contextVisible) :
    s.draftImages = [] := by
  by_contra himages
  unfold AppState.submitWork at h
  simp only at h
  iterate 4
    split at h
    · cases h
  rename_i hrefused
  have hplain : s.prompt.text.head? ≠ some '!' := by
    intro hhead
    exact hrefused (by simp [himages, hhead])
  split at h
  · rename_i hstrip
    exact hplain (head_of_strip hstrip)
  split at h
  · rename_i hstrip
    exact hplain (head_of_strip hstrip)
  split at h
  · cases h
  · exact submitMessage_command h

/-- A local command is submitted only without images. -/
theorem submitAction_command
    (h : s.submitAction.2 = .executeLocalCommand sessionId command contextVisible) :
    s.draftImages = [] := by
  unfold AppState.submitAction at h
  simp only at h
  repeat' split at h
  all_goals first | cases h | exact submitWork_command h

end LocalCommand

/-- **Draft images.**  In every run that adds images behind all markers, and
where no model is searched for and no local command is accepted while there are
images, the images are those of the markers, and what is submitted has the form
that the server accepts. -/
theorem draftImages_submittable (h : Reachable (· = {}) CarefulStep s) :
    ImagesMatch s ∧ ∀ sessionId text attachments service modelId,
      s.submitAction.2 = .submitInput sessionId text attachments service modelId →
        text = s.prompt.text ∧ Submittable text attachments := by
  have hdrafted := reachable_drafted h
  refine ⟨hdrafted.imagesMatch, fun sessionId text attachments service modelId hsubmit => ?_⟩
  obtain ⟨rfl, rfl⟩ := submitAction_submitted hsubmit
  exact ⟨rfl, hdrafted.submittable⟩

def imageModel : PresentedModel := ⟨.go, "model", true, .notUsed, .none⟩

def idleView : SessionView := ⟨1, false, none, none, none, false, []⟩

/-- A session is opened while a model with image input is selected. -/
def openedRun : List AppState.Action :=
  [.other { selectedModel := some imageModel }, .openSession idleView]

/-- A local command is submitted, is pending, and is accepted. -/
def commandRun : List AppState.Action :=
  openedRun ++ [.key (.character '!'), .key (.character 'l'), .key .enter,
    .other { view := .session, session := some idleView, selectedModel := some imageModel,
             pending := some .executeLocalCommand },
    .localCommandAccepted 1 5 true]

def addedImage (name : List Char) : AppState.Action := .image ⟨.png, 1, 1, [0]⟩ (some name)

def imagedRun : List AppState.Action :=
  commandRun ++ [addedImage ['a'], .key (.character 'x'), addedImage ['b']]

theorem imagedRun_submittable :
    (run {} imagedRun).submitAction.2 =
      .submitInput 1 ['[', 'a', ']', 'x', '[', 'b', ']'] [⟨['a'], 0, [0]⟩, ⟨['b'], 4, [0]⟩] .go
        "model" ∧
    Submittable ['[', 'a', ']', 'x', '[', 'b', ']'] [⟨['a'], 0, [0]⟩, ⟨['b'], 4, [0]⟩] := by
  have hsubmit : (run {} imagedRun).submitAction.2 =
      .submitInput 1 ['[', 'a', ']', 'x', '[', 'b', ']'] [⟨['a'], 0, [0]⟩, ⟨['b'], 4, [0]⟩] .go
        "model" := by decide +kernel
  have hreach : Reachable (· = {}) CarefulStep (run {} imagedRun) :=
    reachable_run (reachable_start rfl) (by decide +kernel)
  exact ⟨hsubmit, ((draftImages_submittable hreach).2 _ _ _ _ _ hsubmit).2⟩

/-- The second image is put before the first one. -/
def insertedRun : List AppState.Action :=
  openedRun ++ [addedImage ['a'], .key .left, addedImage ['b']]

/-- A model is searched for with an image in the prompt. -/
def searchedRun : List AppState.Action :=
  openedRun ++ "/model ".toList.map (fun c => .key (.character c)) ++ [addedImage ['a'], .key .enter]

/-- An image put before another is submitted after it, and one that was in the
search for a model stays without its marker. -/
theorem insertedRun_unordered :
    (run {} insertedRun).submitAction.2 =
      .submitInput 1 ['[', 'b', ']', '[', 'a', ']'] [⟨['a'], 3, [0]⟩, ⟨['b'], 0, [0]⟩] .go
        "model" ∧
    ¬ Submittable ['[', 'b', ']', '[', 'a', ']'] [⟨['a'], 3, [0]⟩, ⟨['b'], 0, [0]⟩] ∧
    ¬ ImagesMatch (run {} searchedRun) := by
  refine ⟨by decide +kernel, fun h => ?_, fun h => ?_⟩
  · exact absurd h.ordered (by decide +kernel)
  · have hdraft : (run {} searchedRun).draftImages = [⟨⟨['a'], 7, [0]⟩, 1⟩] := by decide +kernel
    have hprompt : (run {} searchedRun).prompt = {} := by decide +kernel
    obtain ⟨m, hm, -⟩ := h.marked ⟨⟨['a'], 7, [0]⟩, 1⟩ (by rw [hdraft]; exact List.mem_cons_self ..)
    rw [hprompt] at hm
    exact absurd hm (List.not_mem_nil)

end Morons.Cli
