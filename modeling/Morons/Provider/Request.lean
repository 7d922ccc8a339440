import Morons.Provider.Outcome

/-!
# Provider requests

The items of a request, and the check made of them before a request is encoded.
`validateInput_ok` says what the check admits: items that are admitted by
themselves and sums within the limits of a request.
-/

namespace Morons.Provider

open Attempt

inductive ProviderProtocol
  | responses | chatCompletions | anthropicMessages | gemini
  deriving DecidableEq

/-- The capabilities that the items of a request depend on. -/
structure ModelCapabilities where
  imageInput : Bool
  reasoningContinuation : Bool

inductive MessageRole
  | developer | user | assistant
  deriving DecidableEq

structure InputImage where
  mediaType : ImageMediaType
  width : Nat
  height : Nat
  bytes : List UInt8
  deriving DecidableEq

inductive ContentPart
  | text (text : String)
  | image (image : InputImage)
  deriving DecidableEq

inductive InputItem
  | message (role : MessageRole) (text : String) (phase : Option MessagePhase)
  | multimodalMessage (role : MessageRole) (parts : List ContentPart) (phase : Option MessagePhase)
  | functionCall (callId name arguments : String) (opaqueContinuation : Option String)
  | functionCallOutput (callId output : String)
  | reasoning (item : Reasoning)
  deriving DecidableEq

def maxInputItems : Nat := 256
def maxInputTextBytes : Nat := 512 * 1024
def maxAggregateInputBytes : Nat := 12 * 1024 * 1024
def maxInputImages : Nat := 16
def maxInputImageBytes : Nat := 2 * 1024 * 1024
def maxAggregateImageBytes : Nat := 6 * 1024 * 1024
def maxToolResultBytes : Nat := 512 * 1024
def maxReasoningSummaries : Nat := 64
def maxReasoningSummaryBytes : Nat := 256 * 1024
def maxEncryptedReasoningBytes : Nat := 512 * 1024

/-- What the check of a request depends on: the codec, the image decoder, and
the model that is asked. -/
structure RequestModel where
  codec : Codec
  /-- `validate_normalized_image`. -/
  normalizedImage : InputImage → Bool
  protocol : ProviderProtocol
  capabilities : ModelCapabilities

/-! ## `validate_input` -/

structure InputTotals where
  bytes : Nat := 0
  imageCount : Nat := 0
  imageBytes : Nat := 0

/-- The parts of a message seen so far; its bytes are those of the message alone. -/
structure PartTotals extends InputTotals where
  sawImage : Bool := false

def validatePart (m : RequestModel) (t : PartTotals) :
    ContentPart → Except ProviderError PartTotals
  | .text text => do
    require (text ≠ "" ∧ text.utf8ByteSize ≤ maxInputTextBytes) .invalidRequest
    return { t with bytes := t.bytes + text.utf8ByteSize }
  | .image image => do
    require (image.bytes ≠ [] ∧ image.bytes.length ≤ maxInputImageBytes ∧ m.normalizedImage image)
      .invalidRequest
    let imageCount := t.imageCount + 1
    let imageBytes := t.imageBytes + image.bytes.length
    require (imageCount ≤ maxInputImages ∧ imageBytes ≤ maxAggregateImageBytes) .invalidRequest
    return ⟨⟨t.bytes + (image.bytes.length + 2) / 3 * 4, imageCount, imageBytes⟩, true⟩

/-- Add the bytes of an item to those of the items before it. -/
def countItem (t : InputTotals) (itemBytes : Nat) : Except ProviderError InputTotals := do
  require (t.bytes + itemBytes ≤ maxAggregateInputBytes) .invalidRequest
  return { t with bytes := t.bytes + itemBytes }

def validateItem (m : RequestModel) (t : InputTotals) : InputItem → Except ProviderError InputTotals
  | .message role text phase => do
    require (text ≠ "" ∧ text.utf8ByteSize ≤ maxInputTextBytes ∧
      (phase.isSome → role = .assistant)) .invalidRequest
    countItem t text.utf8ByteSize
  | .multimodalMessage role parts phase => do
    require (role = .user ∧ phase = none ∧ m.capabilities.imageInput ∧ parts ≠ [] ∧
      parts.length ≤ maxInputImages * 2 + 1) .invalidRequest
    let u ← sweep (validatePart m) { t with bytes := 0 } parts
    require u.sawImage .invalidRequest
    countItem { u.toInputTotals with bytes := t.bytes } u.bytes
  | .functionCall callId name arguments opaqueContinuation => do
    validateIdentifier callId maxProviderCallIdBytes
    validateToolName name
    require (arguments ≠ "" ∧ arguments.utf8ByteSize ≤ maxToolArgumentBytes ∧
      ∀ continuation ∈ opaqueContinuation, m.protocol = .gemini ∧
        m.capabilities.reasoningContinuation ∧ continuation ≠ "" ∧
        continuation.utf8ByteSize ≤ maxEncryptedReasoningBytes) .invalidRequest
    let decoded ← demand .invalidRequest (m.codec.parse (bytesOf arguments))
    require decoded.isObject .invalidRequest
    countItem t (callId.utf8ByteSize + name.utf8ByteSize + arguments.utf8ByteSize +
      (opaqueContinuation.map String.utf8ByteSize).getD 0)
  | .functionCallOutput callId output => do
    validateIdentifier callId maxProviderCallIdBytes
    require (output.utf8ByteSize ≤ maxToolResultBytes) .invalidRequest
    countItem t (callId.utf8ByteSize + output.utf8ByteSize)
  | .reasoning item => do
    validateIdentifier item.providerItemId maxProviderCallIdBytes
    require (m.protocol = .responses ∧ (item.summaries ≠ [] ∨ item.encryptedContent.isSome) ∧
      (item.encryptedContent.isSome → m.capabilities.reasoningContinuation) ∧
      item.summaries.length ≤ maxReasoningSummaries ∧
      (∀ summary ∈ item.summaries, summary.utf8ByteSize ≤ maxReasoningSummaryBytes) ∧
      ∀ content ∈ item.encryptedContent, content ≠ "" ∧
        content.utf8ByteSize ≤ maxEncryptedReasoningBytes) .invalidRequest
    countItem t (item.providerItemId.utf8ByteSize + (item.summaries.map String.utf8ByteSize).sum +
      (item.encryptedContent.map String.utf8ByteSize).getD 0)

/-- The bytes of a request, when its items may be sent. -/
def validateInput (m : RequestModel) (input : List InputItem) : Except ProviderError Nat := do
  require (input ≠ [] ∧ input.length ≤ maxInputItems) .invalidRequest
  let totals ← sweep (validateItem m) {} input
  return totals.bytes

/-! ## What is admitted -/

def PartAdmitted (m : RequestModel) : ContentPart → Prop
  | .text text => text ≠ "" ∧ text.utf8ByteSize ≤ maxInputTextBytes
  | .image image =>
    image.bytes ≠ [] ∧ image.bytes.length ≤ maxInputImageBytes ∧ m.normalizedImage image

def ContentPart.image? : ContentPart → Option InputImage
  | .text _ => none
  | .image shown => some shown

def partBytes : ContentPart → Nat
  | .text text => text.utf8ByteSize
  | .image image => (image.bytes.length + 2) / 3 * 4

/-- An item that the check admits by itself. -/
def ItemAdmitted (m : RequestModel) : InputItem → Prop
  | .message role text phase =>
    text ≠ "" ∧ text.utf8ByteSize ≤ maxInputTextBytes ∧ (phase.isSome → role = .assistant)
  | .multimodalMessage role parts phase =>
    (role = .user ∧ phase = none ∧ m.capabilities.imageInput ∧ parts ≠ [] ∧
      parts.length ≤ maxInputImages * 2 + 1) ∧
    (∀ part ∈ parts, PartAdmitted m part) ∧ parts.filterMap ContentPart.image? ≠ []
  | .functionCall callId name arguments opaqueContinuation =>
    validIdentifier callId maxProviderCallIdBytes ∧ validToolName name ∧
    (arguments ≠ "" ∧ arguments.utf8ByteSize ≤ maxToolArgumentBytes ∧
      ∀ continuation ∈ opaqueContinuation, m.protocol = .gemini ∧
        m.capabilities.reasoningContinuation ∧ continuation ≠ "" ∧
        continuation.utf8ByteSize ≤ maxEncryptedReasoningBytes) ∧
    ∃ decoded, m.codec.parse (bytesOf arguments) = some decoded ∧ decoded.isObject
  | .functionCallOutput callId output =>
    validIdentifier callId maxProviderCallIdBytes ∧ output.utf8ByteSize ≤ maxToolResultBytes
  | .reasoning item =>
    validIdentifier item.providerItemId maxProviderCallIdBytes ∧ m.protocol = .responses ∧
    (item.summaries ≠ [] ∨ item.encryptedContent.isSome) ∧
    (item.encryptedContent.isSome → m.capabilities.reasoningContinuation) ∧
    item.summaries.length ≤ maxReasoningSummaries ∧
    (∀ summary ∈ item.summaries, summary.utf8ByteSize ≤ maxReasoningSummaryBytes) ∧
    ∀ content ∈ item.encryptedContent, content ≠ "" ∧
      content.utf8ByteSize ≤ maxEncryptedReasoningBytes

def itemBytes : InputItem → Nat
  | .message _ text _ => text.utf8ByteSize
  | .multimodalMessage _ parts _ => (parts.map partBytes).sum
  | .functionCall callId name arguments opaqueContinuation =>
    callId.utf8ByteSize + name.utf8ByteSize + arguments.utf8ByteSize +
      (opaqueContinuation.map String.utf8ByteSize).getD 0
  | .functionCallOutput callId output => callId.utf8ByteSize + output.utf8ByteSize
  | .reasoning item =>
    item.providerItemId.utf8ByteSize + (item.summaries.map String.utf8ByteSize).sum +
      (item.encryptedContent.map String.utf8ByteSize).getD 0

def itemImages : InputItem → List InputImage
  | .multimodalMessage _ parts _ => parts.filterMap ContentPart.image?
  | _ => []

/-- The sums of a request are within its limits. -/
def InputFits (input : List InputItem) : Prop :=
  input.length ≤ maxInputItems ∧ (input.map itemBytes).sum ≤ maxAggregateInputBytes ∧
    (input.flatMap itemImages).length ≤ maxInputImages ∧
    ((input.flatMap itemImages).map fun image => image.bytes.length).sum ≤ maxAggregateImageBytes

instance (input : List InputItem) : Decidable (InputFits input) := by
  unfold InputFits
  infer_instance

/-- The order of the items does not matter for the sums. -/
theorem InputFits.perm {input other : List InputItem} (h : input.Perm other) :
    InputFits input ↔ InputFits other := by
  have himages : (input.flatMap itemImages).Perm (other.flatMap itemImages) := h.flatMap_right _
  rw [InputFits, InputFits, h.length_eq, (h.map itemBytes).sum_nat, himages.length_eq,
    (himages.map fun image => image.bytes.length).sum_nat]

/-! ## The check and what it admits -/

def InputTotals.addImages (t : InputTotals) (images : List InputImage) : InputTotals :=
  { t with
    imageCount := t.imageCount + images.length
    imageBytes := t.imageBytes + (images.map fun image => image.bytes.length).sum }

def InputTotals.Within (t : InputTotals) : Prop :=
  t.bytes ≤ maxAggregateInputBytes ∧ t.imageCount ≤ maxInputImages ∧
    t.imageBytes ≤ maxAggregateImageBytes

def PartTotals.add (t : PartTotals) (part : ContentPart) : PartTotals :=
  ⟨{ t.toInputTotals.addImages part.image?.toList with bytes := t.bytes + partBytes part },
    t.sawImage || part.image?.isSome⟩

/-- The images of a request are within their limits. -/
def InputTotals.ImagesWithin (t : InputTotals) : Prop :=
  t.imageCount ≤ maxInputImages ∧ t.imageBytes ≤ maxAggregateImageBytes

theorem validatePart_ok {m : RequestModel} {t u : PartTotals} {part : ContentPart}
    (ht : t.ImagesWithin) :
    validatePart m t part = .ok u ↔ PartAdmitted m part ∧ u = t.add part ∧ u.ImagesWithin := by
  cases part with
  | text text =>
    have hadd : t.add (.text text) = { t with bytes := t.bytes + text.utf8ByteSize } := by
      simp [PartTotals.add, ContentPart.image?, InputTotals.addImages, partBytes]
    simp only [validatePart, bind_ok, require_ok, pure_ok, exists_const, PartAdmitted, hadd]
    constructor
    · rintro ⟨hadmitted, rfl⟩
      exact ⟨hadmitted, rfl, ht⟩
    · rintro ⟨hadmitted, rfl, -⟩
      exact ⟨hadmitted, rfl⟩
  | image shown =>
    have hadd : t.add (.image shown) =
        ⟨⟨t.bytes + (shown.bytes.length + 2) / 3 * 4, t.imageCount + 1,
          t.imageBytes + shown.bytes.length⟩, true⟩ := by
      simp [PartTotals.add, ContentPart.image?, InputTotals.addImages, partBytes]
    simp only [validatePart, bind_ok, require_ok, pure_ok, exists_const, PartAdmitted, hadd]
    constructor
    · rintro ⟨hadmitted, hwithin, rfl⟩
      exact ⟨hadmitted, rfl, hwithin⟩
    · rintro ⟨hadmitted, rfl, hwithin⟩
      exact ⟨hadmitted, hwithin, rfl⟩

/-- What the parts of a message add. -/
theorem foldl_add (t : PartTotals) (parts : List ContentPart) :
    parts.foldl PartTotals.add t =
      ⟨{ t.toInputTotals.addImages (parts.filterMap ContentPart.image?) with
          bytes := t.bytes + (parts.map partBytes).sum },
        t.sawImage || !(parts.filterMap ContentPart.image?).isEmpty⟩ := by
  induction parts generalizing t with
  | nil => simp [InputTotals.addImages]
  | cons part rest ih =>
    rw [List.foldl_cons, ih]
    cases part with
    | text text =>
      have hnone : (ContentPart.text text).image? = none := rfl
      simp [PartTotals.add, hnone, InputTotals.addImages, Nat.add_assoc]
    | image shown =>
      have hsome : (ContentPart.image shown).image? = some shown := rfl
      simp [PartTotals.add, hsome, InputTotals.addImages, Nat.add_assoc,
        Nat.add_comm 1]

theorem validateParts_ok {m : RequestModel} {t : InputTotals} {u : PartTotals}
    {parts : List ContentPart} (ht : t.ImagesWithin) :
    sweep (validatePart m) { t with bytes := 0 } parts = .ok u ↔
      (∀ part ∈ parts, PartAdmitted m part) ∧
      u = ⟨{ t.addImages (parts.filterMap ContentPart.image?) with
          bytes := (parts.map partBytes).sum },
        !(parts.filterMap ContentPart.image?).isEmpty⟩ ∧ u.ImagesWithin := by
  have hround (s : PartTotals) (part : ContentPart) (u : PartTotals) (hs : s.ImagesWithin) :
      validatePart m s part = .ok u ↔ PartAdmitted m part ∧ u = s.add part ∧ u.ImagesWithin :=
    validatePart_ok hs
  have hback (s : PartTotals) (part : ContentPart) (h : (s.add part).ImagesWithin) :
      s.ImagesWithin := by
    obtain ⟨hcount, hbytes⟩ := h
    simp only [PartTotals.add, InputTotals.addImages] at hcount hbytes
    exact ⟨by omega, by omega⟩
  have hstart : (⟨{ t with bytes := 0 }, false⟩ : PartTotals).ImagesWithin := ht
  rw [sweep_totals hround hback hstart, foldl_add]
  simp [InputTotals.addImages]

/-- An item counted. -/
def InputTotals.add (t : InputTotals) (item : InputItem) : InputTotals :=
  { t.addImages (itemImages item) with bytes := t.bytes + itemBytes item }

theorem countItem_ok {t u : InputTotals} {bytes : Nat} :
    countItem t bytes = .ok u ↔
      t.bytes + bytes ≤ maxAggregateInputBytes ∧ u = { t with bytes := t.bytes + bytes } := by
  simp only [countItem, bind_ok, require_ok, pure_ok, exists_const]
  exact and_congr_right fun _ => eq_comm

/-- An item without images that is admitted is counted. -/
theorem countItem_add {t u : InputTotals} {item : InputItem} (ht : t.Within)
    (himages : itemImages item = []) :
    countItem t (itemBytes item) = .ok u ↔ u = t.add item ∧ u.Within := by
  have hadd : t.add item = { t with bytes := t.bytes + itemBytes item } := by
    simp [InputTotals.add, InputTotals.addImages, himages]
  rw [countItem_ok, hadd]
  constructor
  · rintro ⟨hbytes, rfl⟩
    exact ⟨rfl, hbytes, ht.2⟩
  · rintro ⟨rfl, hwithin⟩
    exact ⟨hwithin.1, rfl⟩

theorem validateItem_ok {m : RequestModel} {t u : InputTotals} {item : InputItem}
    (ht : t.Within) :
    validateItem m t item = .ok u ↔ ItemAdmitted m item ∧ u = t.add item ∧ u.Within := by
  cases item with
  | message role text phase =>
    simp only [validateItem, bind_ok, require_ok, exists_const, ItemAdmitted]
    have hcount := @countItem_add t u (.message role text phase) ht rfl
    exact and_congr_right fun _ => hcount
  | functionCall callId name arguments opaqueContinuation =>
    simp only [validateItem, validateIdentifier, validateToolName, bind_ok, require_ok, demand_ok,
      exists_const, ItemAdmitted]
    have hcount :=
      @countItem_add t u (.functionCall callId name arguments opaqueContinuation) ht rfl
    constructor
    · rintro ⟨hid, hname, harguments, decoded, hdecoded, hobject, hadd⟩
      exact ⟨⟨hid, hname, harguments, decoded, hdecoded, hobject⟩, hcount.mp hadd⟩
    · rintro ⟨⟨hid, hname, harguments, decoded, hdecoded, hobject⟩, hadd⟩
      exact ⟨hid, hname, harguments, decoded, hdecoded, hobject, hcount.mpr hadd⟩
  | functionCallOutput callId output =>
    simp only [validateItem, validateIdentifier, bind_ok, require_ok, exists_const, ItemAdmitted,
      and_assoc]
    have hcount := @countItem_add t u (.functionCallOutput callId output) ht rfl
    exact and_congr_right fun _ => and_congr_right fun _ => hcount
  | reasoning item =>
    simp only [validateItem, validateIdentifier, bind_ok, require_ok, exists_const, ItemAdmitted]
    have hcount := @countItem_add t u (.reasoning item) ht rfl
    constructor
    · rintro ⟨hid, hitem, hadd⟩
      exact ⟨⟨hid, hitem⟩, hcount.mp hadd⟩
    · rintro ⟨⟨hid, hitem⟩, hadd⟩
      exact ⟨hid, hitem, hcount.mpr hadd⟩
  | multimodalMessage role parts phase =>
    simp only [validateItem, bind_ok, require_ok, exists_const, ItemAdmitted,
      validateParts_ok ht.2, countItem_ok]
    constructor
    · rintro ⟨hmessage, _, ⟨hparts, rfl, himages⟩, hsaw, hbytes, rfl⟩
      exact ⟨⟨hmessage, hparts, by simpa using hsaw⟩, rfl, hbytes, himages⟩
    · rintro ⟨⟨hmessage, hparts, hsaw⟩, rfl, hwithin⟩
      exact ⟨hmessage, _, ⟨hparts, rfl, hwithin.2⟩, by simpa using hsaw, hwithin.1, rfl⟩

theorem InputTotals.foldl_add (t : InputTotals) (input : List InputItem) :
    input.foldl InputTotals.add t =
      { t.addImages (input.flatMap itemImages) with
        bytes := t.bytes + (input.map itemBytes).sum } := by
  induction input generalizing t with
  | nil => simp [addImages]
  | cons item rest ih =>
    rw [List.foldl_cons, ih]
    simp [add, addImages, Nat.add_assoc]

/-- **What `validate_input` admits.** -/
theorem validateInput_ok {m : RequestModel} {input : List InputItem} {bytes : Nat} :
    validateInput m input = .ok bytes ↔
      input ≠ [] ∧ (∀ item ∈ input, ItemAdmitted m item) ∧ InputFits input ∧
        bytes = (input.map itemBytes).sum := by
  have hsweep : ∀ totals, sweep (validateItem m) {} input = .ok totals ↔
      (∀ item ∈ input, ItemAdmitted m item) ∧ totals = input.foldl InputTotals.add {} ∧
        totals.Within := by
    intro totals
    have hstart : ({} : InputTotals).Within := ⟨by decide, by decide, by decide⟩
    have hround (s : InputTotals) (item : InputItem) (u : InputTotals) (hs : s.Within) :
        validateItem m s item = .ok u ↔ ItemAdmitted m item ∧ u = s.add item ∧ u.Within :=
      validateItem_ok hs
    refine sweep_totals hround ?_ hstart
    rintro s item ⟨hbytes, hcount, himages⟩
    simp only [InputTotals.add, InputTotals.addImages] at hbytes hcount himages
    exact ⟨by omega, by omega, by omega⟩
  simp only [validateInput, bind_ok, require_ok, pure_ok, exists_const, hsweep,
    InputTotals.foldl_add, InputFits]
  constructor
  · rintro ⟨⟨hsome, hlength⟩, _, ⟨hadmitted, rfl, hbytes, hcount, himages⟩, rfl⟩
    simp only [InputTotals.addImages, Nat.zero_add] at hbytes hcount himages
    exact ⟨hsome, hadmitted, ⟨hlength, hbytes, hcount, himages⟩, Nat.zero_add _⟩
  · rintro ⟨hsome, hadmitted, ⟨hlength, hbytes, hcount, himages⟩, rfl⟩
    refine ⟨⟨hsome, hlength⟩, _, ⟨hadmitted, rfl, ?_⟩, Nat.zero_add _⟩
    simp only [InputTotals.Within, InputTotals.addImages, Nat.zero_add]
    exact ⟨hbytes, hcount, himages⟩

end Morons.Provider
