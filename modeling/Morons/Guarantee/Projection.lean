import Morons.Operation
import Morons.Run.Projection

/-!
# Excerpts of a whole prefix

A projection hashes every entry of its prefix.  Its source are the excerpts of
the entries behind the parent checkpoint, the last ones that fit together; a
hidden command adds nothing to them.
-/

namespace Morons.ContextCompaction

open Attempt ContextHistory
open Provider (checkedAdd)
open Utf8 (size size_append utf8ByteSize_ofList)
open Window (Longest Holds weigh)

variable {x : Encodings} {s : Store} {sessionId : SessionId} {entries done : List TranscriptEntry}
  {entry : TranscriptEntry} {text : String} {maximum covered highWater : Nat}

/-! ## Excerpts -/

/-- The text itself where it fits, and otherwise a head and a tail of it around the marker. -/
structure Excerpt (text : String) (maximum : Nat) (excerpt : String) : Prop where
  whole : text.utf8ByteSize ≤ maximum → excerpt = text
  cut : maximum < text.utf8ByteSize → ∃ head middle tail, text = head ++ middle ++ tail ∧
    middle ≠ "" ∧ excerpt = head ++ marker ++ tail ∧
    excerpt.utf8ByteSize ≤ max maximum marker.utf8ByteSize

theorem size_toList (text : String) : size text.toList = text.utf8ByteSize := by
  rw [← utf8ByteSize_ofList, String.ofList_toList]

/-- The two ends of a text, each of at most `half` bytes. -/
theorem ends_split {cs : List Char} {half : Nat} (hhalf : half + half ≤ size cs) :
    ∃ front middle back, cs = front ++ middle ++ back ∧
      Utf8.split cs (Utf8.floorBoundary cs half) = some (front, middle ++ back) ∧
      Utf8.split cs (Utf8.ceilBoundary cs half (size cs - half)) = some (front ++ middle, back) ∧
      size front ≤ half ∧ size back ≤ half := by
  have hhead := Utf8.floorBoundary_le cs half
  have hsteps : size cs ≤ size cs - half + half := by omega
  obtain ⟨hsplits, htail, hend⟩ := Utf8.ceilBoundary_spec hsteps (Nat.sub_le _ _)
  obtain ⟨middle, hmiddle⟩ :=
    (Utf8.floorBoundary_splits cs half).slice hsplits (hhead.trans (by omega))
  obtain ⟨front, back, hcs, hfront, hsize⟩ := Utf8.slice_eq_some.mp hmiddle
  have hwhole : size cs = size front + size middle + size back := by
    rw [← size_append, ← size_append, ← hcs]
  refine ⟨front, middle, back, hcs, Utf8.split_eq_some.mpr ⟨?_, hfront⟩,
    Utf8.split_eq_some.mpr ⟨hcs, ?_⟩, by omega, by omega⟩
  · rw [hcs, List.append_assoc]
  · rw [size_append]
    omega

/-- **An excerpt is a text or its two ends.** -/
theorem boundedExcerpt_excerpt (text : String) (maximum : Nat) :
    Excerpt text maximum (boundedExcerpt text maximum) := by
  refine ⟨fun hfits => if_pos hfits, fun hlarge => ?_⟩
  have hhalf : (maximum - marker.utf8ByteSize) / 2 + (maximum - marker.utf8ByteSize) / 2 ≤
      size text.toList := by
    rw [size_toList]
    omega
  obtain ⟨front, middle, back, htext, hhead, htail, hfront, hback⟩ := ends_split hhalf
  rw [size_toList] at htail
  have hexcerpt : boundedExcerpt text maximum =
      String.ofList front ++ marker ++ String.ofList back := by
    rw [boundedExcerpt, if_neg (by omega)]
    simp only [hhead, htail]
  have hbytes : text.utf8ByteSize = size front + size middle + size back := by
    rw [← size_toList, htext, size_append, size_append]
  refine ⟨String.ofList front, String.ofList middle, String.ofList back, ?_, ?_, hexcerpt, ?_⟩
  · rw [← String.ofList_append, ← String.ofList_append, ← htext, String.ofList_toList]
  · intro hnone
    have hmiddle := congrArg String.utf8ByteSize hnone
    rw [utf8ByteSize_ofList, String.utf8ByteSize_empty] at hmiddle
    omega
  · rw [hexcerpt, String.utf8ByteSize_append, String.utf8ByteSize_append, utf8ByteSize_ofList,
      utf8ByteSize_ofList]
    omega

theorem marker_size : marker.utf8ByteSize = 61 := by decide +kernel

/-- An excerpt of a text that is not empty is not empty. -/
theorem boundedExcerpt_pos (htext : text ≠ "") : 0 < (boundedExcerpt text maximum).utf8ByteSize := by
  by_cases hfits : text.utf8ByteSize ≤ maximum
  · rw [(boundedExcerpt_excerpt text maximum).whole hfits]
    exact Nat.pos_of_ne_zero fun hzero => htext (String.utf8ByteSize_eq_zero_iff.mp hzero)
  · obtain ⟨head, middle, tail, -, -, hexcerpt, -⟩ :=
      (boundedExcerpt_excerpt text maximum).cut (by omega)
    rw [hexcerpt, String.utf8ByteSize_append, String.utf8ByteSize_append, marker_size]
    omega

/-- An excerpt is within its maximum when the marker is. -/
theorem boundedExcerpt_le (hmarker : marker.utf8ByteSize ≤ maximum) :
    (boundedExcerpt text maximum).utf8ByteSize ≤ maximum := by
  by_cases hfits : text.utf8ByteSize ≤ maximum
  · rwa [(boundedExcerpt_excerpt text maximum).whole hfits]
  · obtain ⟨-, -, -, -, -, -, hsize⟩ := (boundedExcerpt_excerpt text maximum).cut (by omega)
    rwa [max_eq_left hmarker] at hsize

/-! ## The entries that are seen -/

def isHidden (entry : TranscriptEntry) : Bool :=
  match entry.body with
  | .localCommand _ _ contextVisible _ _ _ _ _ => !contextVisible
  | _ => false

/-- What an entry is projected to. -/
def visibleText (x : Encodings) (entry : TranscriptEntry) : Option String :=
  (projectEntry x entry).toOption.join

/-- The excerpts of the entries behind a place. -/
def excerptsBehind (x : Encodings) (covered : Nat) (entries : List TranscriptEntry) : List String :=
  ((entries.filter fun entry => decide (covered < entry.entrySequence)).filterMap (visibleText x)).map
    fun text => boundedExcerpt text maxEntryExcerptBytes

theorem projectEntry_visible (hx : x.Prints) (entry : TranscriptEntry) :
    projectEntry x entry = .ok (visibleText x entry) := by
  have hok : ∃ text, projectEntry x entry = .ok text := by
    obtain ⟨place, id, body, created⟩ := entry
    cases body with
    | toolCall runId callId operationId providerOperationId input =>
      obtain ⟨arguments, harguments⟩ := Option.isSome_iff_exists.mp (hx input)
      have hbody : bodyText x (.toolCall runId callId operationId providerOperationId input) =
          .ok (some ("TOOL CALL " ++ input.kind.name ++ ":\n" ++ arguments)) := by
        rw [bodyText, harguments]
        rfl
      exact ⟨_, (bind_ok _ _ _).mpr ⟨_, hbody, rfl⟩⟩
    | localCommand commandId command contextVisible status exitCode signal stdout stderr =>
      cases contextVisible with
      | false => exact ⟨_, rfl⟩
      | true => exact ⟨_, rfl⟩
    | userMessage => exact ⟨_, rfl⟩
    | assistantMessage => exact ⟨_, rfl⟩
    | toolResult => exact ⟨_, rfl⟩
  obtain ⟨text, htext⟩ := hok
  rw [visibleText, htext]
  rfl

/-- A text holds another one as a part of it. -/
def Quotes (text own : String) : Prop := ∃ before after, text = before ++ own ++ after

theorem Quotes.prepend {own : String} (h : Quotes text own) (front : String) :
    Quotes (front ++ text) own := by
  obtain ⟨before, after, rfl⟩ := h
  exact ⟨front ++ before, after, by simp only [String.append_assoc]⟩

theorem Quotes.append {own : String} (h : Quotes text own) (back : String) :
    Quotes (text ++ back) own := by
  obtain ⟨before, after, rfl⟩ := h
  exact ⟨before, after ++ back, by simp only [String.append_assoc]⟩

theorem quotes_self (text : String) : Quotes text text :=
  ⟨"", "", by rw [String.empty_append, String.append_empty]⟩

theorem quotes_join {texts : List String} {own : String} (hmem : text ∈ texts)
    (h : Quotes text own) : Quotes (String.join texts) own := by
  obtain ⟨front, back, rfl⟩ := List.append_of_mem hmem
  rw [String.join_append, String.join_cons]
  exact (h.append _).prepend _

/-- What an entry says in words of its own. -/
def ownTexts (x : Encodings) (entry : TranscriptEntry) : List String :=
  match entry.body with
  | .userMessage _ text attachments => text :: attachments.map (·.displayName)
  | .assistantMessage _ _ _ text _ _ => [text]
  | .toolCall _ _ _ _ input => (x.providerArguments input).toList
  | .toolResult _ _ _ _ result => [result.payload]
  | .localCommand _ command _ _ _ _ stdout stderr => [command, stdout, stderr]

/-- **Whatever is not hidden is seen**, with all that it says. -/
theorem visibleText_seen (hx : x.Prints) (h : isHidden entry = false) :
    ∃ text, visibleText x entry = some text ∧ ∀ own ∈ ownTexts x entry, Quotes text own := by
  obtain ⟨place, id, body, created⟩ := entry
  cases body with
  | userMessage runId text attachments =>
    refine ⟨_, rfl, fun own hown => ?_⟩
    rcases List.mem_cons.mp hown with rfl | himage
    · exact (((quotes_self own).prepend _).append _).append _
    · obtain ⟨image, hmem, rfl⟩ := List.mem_map.mp himage
      have hline : Quotes (imageLine image) image.displayName := by
        unfold imageLine
        exact ((((((((quotes_self _).prepend _).append _).append _).append _).append _).append
          _).append _)
      exact ((quotes_join (List.mem_map_of_mem hmem) hline).prepend _).append _
  | assistantMessage runId service modelId text refusal phase =>
    refine ⟨_, rfl, fun own hown => ?_⟩
    obtain rfl := List.mem_singleton.mp hown
    exact ((quotes_self own).prepend _).append _
  | toolCall runId callId operationId providerOperationId input =>
    obtain ⟨arguments, harguments⟩ := Option.isSome_iff_exists.mp (hx input)
    refine ⟨"TOOL CALL " ++ input.kind.name ++ ":\n" ++ arguments ++ "\n\n", ?_, fun own hown => ?_⟩
    · simp [visibleText, projectEntry, bodyText, harguments, demand, bind, Except.bind, pure,
        Except.pure, Except.toOption]
    · obtain rfl : own = arguments := by simpa [ownTexts, harguments] using hown
      exact ((quotes_self own).prepend _).append _
  | toolResult runId callId operationId tool result =>
    refine ⟨_, rfl, fun own hown => ?_⟩
    obtain rfl := List.mem_singleton.mp hown
    exact ((quotes_self _).prepend _).append _
  | localCommand commandId command contextVisible status exitCode signal stdout stderr =>
    cases contextVisible with
    | false => cases h
    | true =>
      refine ⟨_, rfl, fun own hown => ?_⟩
      have hcases : own = command ∨ own = stdout ∨ own = stderr := by simpa [ownTexts] using hown
      rcases hcases with rfl | rfl | rfl
      · exact ((((((quotes_self own).prepend _).append _).append _).append _).append _).append _
      · exact (((((quotes_self own).prepend _).append _).append _).append _)
      · exact ((quotes_self own).prepend _).append _

theorem visibleText_hidden (h : isHidden entry = true) : visibleText x entry = none := by
  obtain ⟨place, id, body, created⟩ := entry
  cases body with
  | localCommand commandId command contextVisible status exitCode signal stdout stderr =>
    cases contextVisible with
    | false => rfl
    | true => cases h
  | userMessage | assistantMessage | toolCall | toolResult => cases h

/-- **Hidden commands add nothing.** -/
theorem excerptsBehind_visible (entries : List TranscriptEntry) :
    excerptsBehind x covered (entries.filter fun entry => !isHidden entry) =
      excerptsBehind x covered entries := by
  have hsame : ((entries.filter fun entry => !isHidden entry).filter fun entry =>
        decide (covered < entry.entrySequence)).filterMap (visibleText x) =
      (entries.filter fun entry => decide (covered < entry.entrySequence)).filterMap
        (visibleText x) := by
    rw [List.filter_comm, List.filterMap_filter]
    refine List.filterMap_congr fun entry _ => ?_
    by_cases hhidden : isHidden entry = true
    · simp [hhidden, visibleText_hidden hhidden]
    · simp [hhidden]
  rw [excerptsBehind, hsame, excerptsBehind]

/-- The text of an entry ends with an empty line. -/
theorem visibleText_ne (h : visibleText x entry = some text) : text ≠ "" := by
  rw [visibleText] at h
  cases hproject : projectEntry x entry with
  | error e =>
    rw [hproject] at h
    cases h
  | ok projected =>
    rw [hproject] at h
    obtain rfl : projected = some text := h
    simp only [projectEntry, bind_ok, pure_ok] at hproject
    obtain ⟨body, -, hbody⟩ := hproject
    obtain ⟨front, -, rfl⟩ := Option.map_eq_some_iff.mp hbody
    intro hempty
    have hbytes := congrArg String.utf8ByteSize hempty
    have htwo : ("\n\n" : String).utf8ByteSize = 2 := by decide
    rw [String.utf8ByteSize_append, htwo, String.utf8ByteSize_empty] at hbytes
    omega

theorem mem_excerptsBehind {excerpt : String} (h : excerpt ∈ excerptsBehind x covered entries) :
    0 < excerpt.utf8ByteSize ∧ excerpt.utf8ByteSize ≤ maxSourceBytes := by
  obtain ⟨text, htext, rfl⟩ := List.mem_map.mp h
  obtain ⟨entry, -, hentry⟩ := List.mem_filterMap.mp htext
  have hsize : (boundedExcerpt text maxEntryExcerptBytes).utf8ByteSize ≤ maxEntryExcerptBytes :=
    boundedExcerpt_le (by rw [marker_size]; decide)
  exact ⟨boundedExcerpt_pos (visibleText_ne hentry), hsize.trans (by decide)⟩

theorem excerptsBehind_concat (entries : List TranscriptEntry) (entry : TranscriptEntry) :
    excerptsBehind x covered (entries ++ [entry]) = excerptsBehind x covered entries ++
      if entry.entrySequence ≤ covered then []
      else ((visibleText x entry).map (boundedExcerpt · maxEntryExcerptBytes)).toList := by
  rw [excerptsBehind, excerptsBehind, List.filter_append, List.filterMap_append, List.map_append]
  congr 1
  split
  case isTrue hcovered => simp [Nat.not_lt.mpr hcovered]
  case isFalse hbehind =>
    rw [List.filter_cons, if_pos (by simpa using hbehind), List.filter_nil]
    cases htext : visibleText x entry with
    | none => simp [htext]
    | some text => simp [htext]

/-! ## What is hashed of an entry -/

/-- The texts of an entry that are hashed, each after its length. -/
def hashedTexts : TranscriptBody → List String
  | .userMessage _ text _ => [text]
  | .assistantMessage _ _ modelId text _ _ => [modelId, text]
  | .toolCall _ _ _ _ input => [input.payload]
  | .toolResult _ _ _ _ result => [result.payload]
  | .localCommand _ command _ _ _ _ stdout stderr => [command, stdout, stderr]

def hashedImages : TranscriptBody → List ImageAttachment
  | .userMessage _ _ attachments => attachments
  | _ => []

/-- The bytes of an entry hold its place, its identifier, its texts and its images. -/
structure Hashed (x : Encodings) (entry : TranscriptEntry) (bytes : List UInt8) : Prop where
  place : BigEndian.bytes 8 entry.entrySequence <+: bytes
  identifier : x.identifier entry.id <:+: bytes
  texts : ∀ text ∈ hashedTexts entry.body, updateText text <:+: bytes
  images : ∀ image ∈ hashedImages entry.body, attachmentBytes x image <:+: bytes

theorem infix_append_left {α : Type} {part whole : List α} (h : part <:+: whole) (front : List α) :
    part <:+: front ++ whole :=
  h.trans (List.suffix_append ..).isInfix

theorem infix_append_right {α : Type} {part whole : List α} (h : part <:+: whole) (back : List α) :
    part <:+: whole ++ back :=
  h.trans (List.prefix_append ..).isInfix

/-- **Every entry is hashed whole**, a hidden command too. -/
theorem entryBytes_hashed (x : Encodings) (entry : TranscriptEntry) :
    Hashed x entry (entryBytes x entry) := by
  obtain ⟨place, id, body, created⟩ := entry
  refine ⟨List.prefix_append .., infix_append_left ?_ _, fun text htext => infix_append_left ?_ _,
    fun image himage => infix_append_left ?_ _⟩
  · cases body <;> simp only [List.append_assoc] <;>
      exact infix_append_left (List.prefix_append ..).isInfix _
  · cases body with
    | userMessage runId own attachments =>
      obtain rfl := List.mem_singleton.mp htext
      exact infix_append_right (infix_append_right (List.suffix_append ..).isInfix _) _
    | assistantMessage runId service modelId own refusal phase =>
      have hcases : text = modelId ∨ text = own := by simpa [hashedTexts] using htext
      rcases hcases with rfl | rfl
      · exact infix_append_right (infix_append_right (infix_append_right
          (List.suffix_append ..).isInfix _) _) _
      · exact infix_append_right (infix_append_right (List.suffix_append ..).isInfix _) _
    | toolCall runId callId operationId providerOperationId input =>
      obtain rfl := List.mem_singleton.mp htext
      exact (List.suffix_append ..).isInfix
    | toolResult runId callId operationId tool result =>
      obtain rfl := List.mem_singleton.mp htext
      exact (List.suffix_append ..).isInfix
    | localCommand commandId command contextVisible status exitCode signal stdout stderr =>
      have hcases : text = command ∨ text = stdout ∨ text = stderr := by
        simpa [hashedTexts] using htext
      rcases hcases with rfl | rfl | rfl
      · simp only [List.append_assoc]
        exact infix_append_left (infix_append_left (infix_append_left
          (List.prefix_append ..).isInfix _) _) _
      · exact infix_append_right (List.suffix_append ..).isInfix _
      · exact (List.suffix_append ..).isInfix
  · cases body with
    | userMessage runId own attachments =>
      obtain ⟨before, after, rfl⟩ := List.append_of_mem himage
      refine infix_append_left ?_ _
      rw [List.flatMap_append, List.flatMap_cons]
      exact infix_append_left (List.prefix_append ..).isInfix _
    | assistantMessage | toolCall | toolResult | localCommand => cases himage

/-! ## The sweep over a prefix -/

/-- The state of a projection after some entries. -/
structure Projects (x : Encodings) (covered highWater : Nat) (done : List TranscriptEntry)
    (p : Projecting) : Prop where
  digest : p.digest =
    ⟨digestHeader highWater ++ done.flatMap (entryBytes x), highWater, done.length + 1⟩
  excerpts : Holds String.utf8ByteSize maxSourceBytes p.excerpts (excerptsBehind x covered done)

theorem projects_nil : Projects x covered highWater []
    { digest := ContextSourceHasher.new highWater } where
  digest := by rw [List.flatMap_nil, List.append_nil]; rfl
  excerpts := Holds.empty

theorem push_ok (x : Encodings) {h : ContextSourceHasher} (hplace : entry.entrySequence = h.nextSequence)
    (hbelow : h.nextSequence ≤ h.highWater) (hstored : h.highWater ≤ maxInteger) :
    h.push x entry =
      some { h with nextSequence := h.nextSequence + 1, fed := h.fed ++ entryBytes x entry } := by
  have hroom : h.nextSequence + 1 < 2 ^ 64 := by
    have hinteger : maxInteger + 1 < 2 ^ 64 := by decide
    omega
  rw [ContextSourceHasher.push, if_neg (by omega), checkedAdd, if_pos hroom]
  rfl

/-- **Each entry is hashed and, behind the checkpoint, excerpted.** -/
theorem Projects.step (hx : x.Prints) {p : Projecting} (h : Projects x covered highWater done p)
    (hplace : entry.entrySequence = done.length + 1) (hbelow : done.length < highWater)
    (hstored : highWater ≤ maxInteger) :
    ∃ q, projectStep x covered p entry = .ok q ∧
      Projects x covered highWater (done ++ [entry]) q := by
  obtain ⟨digest, excerpts⟩ := p
  obtain ⟨rfl, hexcerpts⟩ := h
  have hpush := push_ok x
    (h := ⟨digestHeader highWater ++ done.flatMap (entryBytes x), highWater, done.length + 1⟩)
    hplace hbelow hstored
  have htake : ∃ taken, takeExcerpt x covered excerpts entry = .ok taken ∧
      Holds String.utf8ByteSize maxSourceBytes taken (excerptsBehind x covered (done ++ [entry])) := by
    rw [takeExcerpt, excerptsBehind_concat]
    split
    case isTrue => exact ⟨excerpts, rfl, by rwa [List.append_nil]⟩
    case isFalse =>
      rw [projectEntry_visible hx]
      cases visibleText x entry with
      | none => exact ⟨excerpts, rfl, by simpa using hexcerpts⟩
      | some text =>
        exact ⟨_, rfl, hexcerpts.push (boundedExcerpt text maxEntryExcerptBytes)⟩
  obtain ⟨taken, htaken, hholds⟩ := htake
  refine ⟨_, (bind_ok _ _ _).mpr ⟨_, (demand_ok _ _ _).mpr hpush, (bind_ok _ _ _).mpr
    ⟨taken, htaken, rfl⟩⟩, ?_, hholds⟩
  rw [List.flatMap_append, List.flatMap_singleton, List.append_assoc, List.length_append,
    List.length_singleton]

/-- **The whole prefix is projected.** -/
theorem sweep_projects (hx : x.Prints) (covered : Nat)
    (hnumbered : entries.map TranscriptEntry.entrySequence = List.range' 1 highWater)
    (hstored : highWater ≤ maxInteger) :
    ∃ p, sweep (projectStep x covered) { digest := ContextSourceHasher.new highWater } entries =
      .ok p ∧ Projects x covered highWater entries p := by
  have hlength : entries.length = highWater := by
    have := congrArg List.length hnumbered
    rwa [List.length_map, List.length_range'] at this
  obtain ⟨p, hp, done, hdone, hprojects⟩ := sweep_succeeds (projectStep x covered)
    (fun p rest => ∃ done, entries = done ++ rest ∧ Projects x covered highWater done p)
    (fun p entry rest hp => by
      obtain ⟨done, hsplit, hprojects⟩ := hp
      have hplace : entry.entrySequence = done.length + 1 := by
        have hat := congrArg (·[done.length]?) hnumbered
        simp only [hsplit, List.map_append, List.map_cons] at hat
        rw [List.getElem?_append_right (by simp), List.length_map, Nat.sub_self,
          List.getElem?_cons_zero] at hat
        have hrange := (List.getElem?_eq_some_iff.mp hat.symm).2
        rw [List.getElem_range'] at hrange
        omega
      have hbelow : done.length < highWater := by
        rw [← hlength, hsplit, List.length_append, List.length_cons]
        omega
      obtain ⟨q, hq, hnext⟩ := hprojects.step hx hplace hbelow hstored
      exact ⟨q, hq, done ++ [entry], by rw [hsplit, List.append_assoc]; rfl, hnext⟩)
    { digest := ContextSourceHasher.new highWater } entries ⟨[], rfl, projects_nil⟩
  rw [List.append_nil] at hdone
  subst hdone
  exact ⟨p, hp, hprojects⟩

/-! ## The source -/

theorem join_size (texts : List String) :
    (String.join texts).utf8ByteSize = weigh String.utf8ByteSize texts := by
  induction texts with
  | nil => rfl
  | cons text texts ih => rw [String.join_cons, String.utf8ByteSize_append, ih, Window.weigh_cons]

/-- Where anything is seen, the last excerpt is kept. -/
theorem longest_ne {kept excerpts : List String}
    (hbounds : ∀ excerpt ∈ excerpts, 0 < excerpt.utf8ByteSize ∧ excerpt.utf8ByteSize ≤ maxSourceBytes)
    (h : Longest String.utf8ByteSize maxSourceBytes kept excerpts) (hsome : excerpts ≠ []) :
    0 < weigh String.utf8ByteSize kept := by
  obtain ⟨before, last, rfl⟩ := (List.eq_nil_or_concat' excerpts).resolve_left hsome
  obtain ⟨hpos, hfits⟩ := hbounds last (by simp)
  obtain ⟨front, rfl⟩ := h.longest [last] ⟨before, rfl⟩ (by simpa using hfits)
  rw [Window.weigh_append, Window.weigh_cons]
  omega

/-- The source of some excerpts: the last ones that fit, after a line that says so if not all do. -/
structure Source (excerpts : List String) (source : String) : Prop where
  unseen : excerpts = [] → source = noVisibleSource
  seen : excerpts ≠ [] → ∃ kept, Longest String.utf8ByteSize maxSourceBytes kept excerpts ∧
    source = (if kept = excerpts then "" else omitted) ++ String.join kept

theorem sourceOf_source {w : Window String} {excerpts : List String}
    (hbounds : ∀ excerpt ∈ excerpts, 0 < excerpt.utf8ByteSize ∧ excerpt.utf8ByteSize ≤ maxSourceBytes)
    (h : Holds String.utf8ByteSize maxSourceBytes w excerpts) : Source excerpts (sourceOf w) := by
  constructor
  · rintro rfl
    have hitems : w.items = [] := List.suffix_nil.mp h.longest.suffix
    have hkept : w.dropped = false := by
      rw [Bool.eq_false_iff, ne_eq, h.dropped, not_not]
      exact hitems
    simp [sourceOf, hitems, hkept]
  · intro hsome
    refine ⟨w.items, h.longest, ?_⟩
    have hmarked : (if w.dropped then omitted else "") =
        if w.items = excerpts then "" else omitted := by
      by_cases hall : w.items = excerpts
      · have hkept : w.dropped = false := by
          rw [Bool.eq_false_iff, ne_eq, h.dropped, not_not]
          exact hall
        simp [hkept, hall]
      · simp [h.dropped.mpr hall, hall]
    have hpos := longest_ne hbounds h.longest hsome
    rw [sourceOf, hmarked]
    refine if_neg fun hempty => ?_
    have hbytes := congrArg String.utf8ByteSize (String.isEmpty_iff.mp hempty)
    rw [String.utf8ByteSize_append, join_size, String.utf8ByteSize_empty] at hbytes
    omega

theorem omitted_size : omitted.utf8ByteSize ≤ 128 := by decide +kernel

theorem sourceOf_size {w : Window String} {excerpts : List String}
    (h : Holds String.utf8ByteSize maxSourceBytes w excerpts) :
    (sourceOf w).utf8ByteSize ≤ maxSourceBytes + 128 := by
  have hfits := h.longest.fits
  rw [← join_size] at hfits
  have homitted := omitted_size
  have hwhole : ((if w.dropped then omitted else "") ++ String.join w.items).utf8ByteSize ≤
      maxSourceBytes + 128 := by
    rw [String.utf8ByteSize_append]
    split
    · omega
    · rw [String.utf8ByteSize_empty]
      omega
  by_cases hempty : ((if w.dropped then omitted else "") ++ String.join w.items).isEmpty = true
  · have hline : sourceOf w = noVisibleSource := if_pos hempty
    rw [hline]
    decide +kernel
  · have hsource : sourceOf w = (if w.dropped then omitted else "") ++ String.join w.items :=
      if_neg hempty
    rw [hsource]
    exact hwhole

/-! ## The plan -/

/-- **The projection of a canonical prefix.** -/
theorem projectCompactionPrefix_ok {checkpoint : Option ContextCheckpoint} (hx : x.Prints)
    (hcanonical : CanonicalPrefix s sessionId highWater entries)
    (hcovered : coveredBy checkpoint < highWater) (userGuidance : Option String) :
    ∃ plan, projectCompactionPrefix x s sessionId checkpoint highWater userGuidance = .ok plan ∧
      plan.sourceDigest = x.sha256 (digestHeader highWater ++ entries.flatMap (entryBytes x)) ∧
      Source (excerptsBehind x (coveredBy checkpoint) entries) plan.source := by
  obtain ⟨p, hp, hprojects⟩ :=
    sweep_projects hx (coveredBy checkpoint) hcanonical.numbered hcanonical.stored
  have hvisit : visitContextEntries s sessionId 0 highWater
      (fun p entry => (projectStep x (coveredBy checkpoint) p entry).map (·, true))
      { digest := ContextSourceHasher.new highWater } =
        sweep (projectStep x (coveredBy checkpoint))
          { digest := ContextSourceHasher.new highWater } entries :=
    visitContextEntries_sweep hcanonical fun _ _ => rfl
  have hlength : entries.length = highWater := by
    have := congrArg List.length hcanonical.numbered
    rwa [List.length_map, List.length_range'] at this
  have hsize := sourceOf_size hprojects.excerpts
  have hsummary : ((checkpoint.map fun checkpoint => boundedExcerpt checkpoint.summary
      maxCompactionSummaryBytes).map String.utf8ByteSize).getD 0 ≤ maxCompactionSummaryBytes := by
    cases checkpoint with
    | none => exact Nat.zero_le _
    | some checkpoint => exact boundedExcerpt_le (by rw [marker_size]; decide)
  have hestimate : maxSourceBytes + 128 + maxCompactionSummaryBytes + 32 ≤ maxTokens := by decide
  have hroom : highWater + 1 < 2 ^ 64 := by
    have hinteger : maxInteger + 1 < 2 ^ 64 := by decide
    have hstored := hcanonical.stored
    omega
  have hfinish : p.digest.finish x =
      some (x.sha256 (digestHeader highWater ++ entries.flatMap (entryBytes x))) := by
    rw [hprojects.digest, ContextSourceHasher.finish, checkedAdd, if_pos hroom, hlength]
    simp only [Option.bind_eq_bind, Option.bind_some, and_true]
    exact if_pos (by omega)
  refine ⟨_, (bind_ok _ _ _).mpr ⟨(), (require_ok _ _ ()).mpr hcovered, (bind_ok _ _ _).mpr
    ⟨p, hvisit.trans hp, (bind_ok _ _ _).mpr ⟨(), (require_ok _ _ ()).mpr (by omega),
      (bind_ok _ _ _).mpr ⟨_, (demand_ok _ _ _).mpr hfinish, rfl⟩⟩⟩⟩, rfl, ?_⟩
  exact sourceOf_source (fun _ => mem_excerptsBehind) hprojects.excerpts

/-! ## A hidden command before an input -/

/-- A hidden command is run, then an input is accepted. -/
def hiddenSteps : List (Environment × Operation) :=
  createSession (.open 10) 1 "/work" ++
    [(.open 10, .acceptLocalCommand 2 1 "ls" false), (.open 10, .activateLocalCommand 4),
      (.open 10, .completeLocalCommand 4 (.ok (.bash (some 0) none "EXCLUDED" ""))),
      submitInput (.open 10) 3 1 "go"]

def hiddenStore : Store := executed hiddenSteps

def hiddenCommand : LocalCommand where
  commandId := 4
  requestId := 2
  fingerprint := .localCommand 1 "ls" false
  sessionId := 1
  commandText := "ls"
  contextVisible := false
  state := .completed
  cancellationRequested := false
  result := some (.ok (.bash (some 0) none "EXCLUDED" ""))
  entrySequence := some 1
  messageId := some 6
  acceptedSequence := 8
  updatedSequence := 12
  acceptedAtMilliseconds := 10
  updatedAtMilliseconds := 10
  acceptedEventId := 5
  deliveryEventId := some 7

def inputEntry : SessionEntry := ⟨14, 1, 2, 9, 8, .user "go", 10, 10⟩

theorem hiddenStore_reachable : Reachable Any hiddenStore :=
  reachable_executed_any (by decide +kernel)

theorem hiddenStore_tables : hiddenStore.localCommands = [hiddenCommand] ∧
    hiddenStore.sessionEntries = [inputEntry] ∧ hiddenStore.imageAttachments = [] ∧
    sessionEventHighWater hiddenStore 1 = 15 := by
  decide +kernel

def hiddenEntry : TranscriptEntry :=
  ⟨1, 6, .localCommand 4 "ls" false .succeeded (some 0) none "EXCLUDED" "", 10⟩

def inputMessage : TranscriptEntry := ⟨2, 9, .userMessage 8 "go" [], 10⟩

theorem hiddenCommand_read :
    readRow hiddenStore 1 (.command hiddenCommand) = .ok hiddenEntry := by
  rfl

theorem inputEntry_read : readRow hiddenStore 1 (.entry inputEntry) = .ok inputMessage := by
  have himages : loadMessageImageAttachments hiddenStore 1 9 = [] := by
    rw [loadMessageImageAttachments, hiddenStore_tables.2.2.1, List.filter_nil, List.mergeSort_nil,
      List.map_nil]
  have hattach : attachImageMetadata hiddenStore 1 inputMessage = .ok inputMessage := by
    refine (bind_ok _ _ _).mpr ⟨(), (require_ok _ _ ()).mpr ?_, ?_⟩
    · rw [show inputMessage.id = 9 from rfl, himages]
      decide +kernel
    · rw [show inputMessage.id = 9 from rfl, himages]
      rfl
  exact hattach

/-- The hidden command alone. -/
theorem hiddenEntry_prefix : CanonicalPrefix hiddenStore 1 1 [hiddenEntry] := by
  obtain ⟨hcommands, hentries, -, hevents⟩ := hiddenStore_tables
  have hrows : prefixRows hiddenStore 1 1 = [.command hiddenCommand] := by
    refine Ledger.ordered_eq (by simp) ?_
    rw [entryRows, commandRows, hcommands, hentries, hevents]
    decide
  refine ⟨by decide, ?_, rfl⟩
  rw [hrows, List.mapM_cons, hiddenCommand_read]
  rfl

/-- The hidden command and the message behind it. -/
theorem inputMessage_prefix : CanonicalPrefix hiddenStore 1 2 [hiddenEntry, inputMessage] := by
  obtain ⟨hcommands, hentries, -, hevents⟩ := hiddenStore_tables
  have hrows : prefixRows hiddenStore 1 2 = [.command hiddenCommand, .entry inputEntry] := by
    refine Ledger.ordered_eq (by decide) ?_
    rw [entryRows, commandRows, hcommands, hentries, hevents]
    decide
  refine ⟨by decide, ?_, rfl⟩
  rw [hrows, List.mapM_cons, List.mapM_cons, hiddenCommand_read, inputEntry_read]
  rfl

/-- The digest is that of the bytes which the two entries of the example feed. -/
def plainEncodings : Encodings where
  sha256 _ := 0x19e27e0be5893517706e750326b1541f5a53042a5b9e009e537a71944c59a08e
  identifier := BigEndian.bytes 16
  imageIdentifier id := BigEndian.bytes 8 id.1 ++ BigEndian.bytes 8 id.2
  digest := BigEndian.bytes 32
  providerArguments input := some input.payload

theorem plainEncodings_prints : plainEncodings.Prints := fun _ => rfl

/-- **The projection hashes the whole prefix and keeps a bounded suffix.**  Every entry from the
first to the last of the prefix feeds the digest, in order and whole.  The source is the
concatenation of the excerpts that fit, the longest suffix of those behind the checkpoint, after a
line that says so exactly when some are left out; where nothing is seen it is a line that says
this.  Whatever is not hidden is seen with all that it says, hidden commands add nothing, and an
excerpt is the text or its two ends around the marker. -/
theorem projection_keeps_suffix {checkpoint : Option ContextCheckpoint} (hx : x.Prints)
    (hcanonical : CanonicalPrefix s sessionId highWater entries)
    (hcovered : coveredBy checkpoint < highWater) (userGuidance : Option String) :
    (∃ plan, projectCompactionPrefix x s sessionId checkpoint highWater userGuidance = .ok plan ∧
      entries.map TranscriptEntry.entrySequence = List.range' 1 highWater ∧
      plan.sourceDigest = x.sha256 (digestHeader highWater ++ entries.flatMap (entryBytes x)) ∧
      Source (excerptsBehind x (coveredBy checkpoint) entries) plan.source) ∧
    (∀ entry, Hashed x entry (entryBytes x entry)) ∧
    (∀ entry, isHidden entry = false →
      ∃ text, visibleText x entry = some text ∧ ∀ own ∈ ownTexts x entry, Quotes text own) ∧
    excerptsBehind x (coveredBy checkpoint) (entries.filter fun entry => !isHidden entry) =
      excerptsBehind x (coveredBy checkpoint) entries ∧
    ∀ text maximum, Excerpt text maximum (boundedExcerpt text maximum) := by
  obtain ⟨plan, hplan, hdigest, hsource⟩ :=
    projectCompactionPrefix_ok hx hcanonical hcovered userGuidance
  exact ⟨⟨plan, hplan, hcanonical.numbered, hdigest, hsource⟩, entryBytes_hashed x,
    fun _ => visibleText_seen hx, excerptsBehind_visible entries, boundedExcerpt_excerpt⟩

/-- The message is all that is seen of the two entries. -/
theorem input_projected : coveredBy none < 2 ∧
    ∃ plan, projectCompactionPrefix plainEncodings hiddenStore 1 none 2 none = .ok plan ∧
      plan.sourceDigest = 0x19e27e0be5893517706e750326b1541f5a53042a5b9e009e537a71944c59a08e ∧
      Source ["USER:\ngo\n\n"] plan.source := by
  obtain ⟨⟨plan, hplan, -, hdigest, hsource⟩, -⟩ :=
    projection_keeps_suffix plainEncodings_prints inputMessage_prefix
      (show coveredBy none < 2 by decide) none
  exact ⟨by decide, plan, hplan, hdigest, hsource⟩

/-- A prefix without anything to see is summarized from a line that is no excerpt, and a maximum
below the marker is not kept. -/
theorem hidden_source_marked : Reachable Any hiddenStore ∧
    CanonicalPrefix hiddenStore 1 1 [hiddenEntry] ∧ coveredBy none < 1 ∧
    (∃ plan, projectCompactionPrefix plainEncodings hiddenStore 1 none 1 none = .ok plan ∧
      ¬ ∃ kept, Longest String.utf8ByteSize maxSourceBytes kept
          (excerptsBehind plainEncodings 0 [hiddenEntry]) ∧
        plan.source = (if kept = excerptsBehind plainEncodings 0 [hiddenEntry] then "" else omitted) ++
          String.join kept) ∧
    1 < (boundedExcerpt "ab" 1).utf8ByteSize := by
  obtain ⟨plan, hplan, -, hsource⟩ := projectCompactionPrefix_ok plainEncodings_prints
    hiddenEntry_prefix (show coveredBy none < 1 by decide) none
  refine ⟨hiddenStore_reachable, hiddenEntry_prefix, by decide, ⟨plan, hplan, ?_⟩, by decide +kernel⟩
  rintro ⟨kept, hlongest, hjoined⟩
  have hnone : excerptsBehind plainEncodings 0 [hiddenEntry] = [] := rfl
  rw [hnone] at hlongest hjoined
  obtain rfl : kept = [] := List.suffix_nil.mp hlongest.suffix
  rw [hsource.unseen hnone] at hjoined
  revert hjoined
  decide +kernel

end Morons.ContextCompaction
