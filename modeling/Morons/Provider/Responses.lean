import Mathlib.Data.List.Sort
import Morons.Provider.Sse

/-!
# The Responses stream

`ResponsesDecoder` checks the events of a response in their sequence, collects
text and argument deltas, and takes the outcome from the completed event, whose
output has to agree with the deltas seen.  In native mode the output items come
from their own done events.
-/

namespace Morons.Provider

open Attempt

namespace Responses

def maxOutputItems : Nat := 128
def maxMessageContentParts : Nat := 64
def maxReasoningSummaries : Nat := 64
def maxEncryptedReasoningBytes : Nat := 512 * 1024

/-! ## Wire records -/

structure EventEnvelope where
  eventType : String
  sequenceNumber : Nat

def EventEnvelope.read (value : Json) : Option EventEnvelope := do
  let r ← Json.Shape.read { fields := ["type", "sequence_number"], closed := false } value
  return ⟨← r.required "type" Json.asString, ← r.required "sequence_number" Json.asU64⟩

structure LifecycleResponse where
  id : String
  object : String
  status : String
  model : Option String

def LifecycleResponse.read (value : Json) : Option LifecycleResponse := do
  let r ← Json.Shape.read { fields := ["id", "object", "status", "model"], closed := false } value
  return ⟨← r.required "id" Json.asString, ← r.required "object" Json.asString,
    ← r.required "status" Json.asString, ← r.optional "model" Json.asString⟩

/-- `LifecycleEvent`. -/
def readLifecycleEvent (value : Json) : Option LifecycleResponse := do
  let r ← Json.Shape.read { fields := ["response"], closed := false } value
  r.required "response" LifecycleResponse.read

/-- A text or a refusal delta; only the former has log probabilities. -/
structure TextDeltaEvent where
  contentIndex : Nat
  delta : String
  itemId : String
  logprobs : List Json
  outputIndex : Nat
  sequenceNumber : Nat

def TextDeltaEvent.read (value : Json) : Option TextDeltaEvent := do
  let r ← Json.Shape.read
    { fields := ["type", "content_index", "delta", "item_id", "logprobs", "output_index",
        "sequence_number", "obfuscation"]
      defaulted := ["logprobs"] } value
  let _ ← r.required "type" Json.asString
  let _ ← r.optional "obfuscation" Json.asString
  return ⟨← r.required "content_index" Json.asU32, ← r.required "delta" Json.asString,
    ← r.required "item_id" Json.asString, ← r.withDefault "logprobs" (Json.asArray some) [],
    ← r.required "output_index" Json.asU32, ← r.required "sequence_number" Json.asU64⟩

/-- `RefusalDeltaEvent`. -/
def TextDeltaEvent.readRefusal (value : Json) : Option TextDeltaEvent := do
  let r ← Json.Shape.read
    { fields := ["type", "content_index", "delta", "item_id", "output_index", "sequence_number",
        "obfuscation"] } value
  let _ ← r.required "type" Json.asString
  let _ ← r.optional "obfuscation" Json.asString
  return ⟨← r.required "content_index" Json.asU32, ← r.required "delta" Json.asString,
    ← r.required "item_id" Json.asString, [], ← r.required "output_index" Json.asU32,
    ← r.required "sequence_number" Json.asU64⟩

structure FunctionArgumentsDeltaEvent where
  delta : String
  itemId : String
  outputIndex : Nat

def FunctionArgumentsDeltaEvent.read (value : Json) : Option FunctionArgumentsDeltaEvent := do
  let r ← Json.Shape.read
    { fields := ["type", "delta", "item_id", "output_index", "sequence_number",
        "obfuscation"] } value
  let _ ← r.required "type" Json.asString
  let _ ← r.required "sequence_number" Json.asU64
  let _ ← r.optional "obfuscation" Json.asString
  return ⟨← r.required "delta" Json.asString, ← r.required "item_id" Json.asString,
    ← r.required "output_index" Json.asU32⟩

structure CompletedResponse where
  id : String
  object : String
  model : String
  status : String
  output : List Json
  usage : Option Json

def CompletedResponse.read (value : Json) : Option CompletedResponse := do
  let r ← Json.Shape.read
    { fields := ["id", "object", "model", "status", "output", "usage"], closed := false } value
  return ⟨← r.required "id" Json.asString, ← r.required "object" Json.asString,
    ← r.required "model" Json.asString, ← r.required "status" Json.asString,
    ← r.required "output" (Json.asArray some), ← r.optional "usage" some⟩

/-- `CompletedEvent`. -/
def readCompletedEvent (value : Json) : Option CompletedResponse := do
  let r ← Json.Shape.read { fields := ["response"], closed := false } value
  r.required "response" CompletedResponse.read

structure WireUsage where
  inputTokens : Nat
  cachedTokens : Nat
  cacheWriteTokens : Nat
  outputTokens : Nat
  reasoningTokens : Nat
  totalTokens : Nat

/-- `WireInputTokenDetails`. -/
def readInputTokenDetails (value : Json) : Option (Nat × Nat) := do
  let r ← Json.Shape.read
    { fields := ["cached_tokens", "cache_write_tokens"]
      defaulted := ["cached_tokens", "cache_write_tokens"], closed := false } value
  return (← r.withDefault "cached_tokens" Json.asU64 0,
    ← r.withDefault "cache_write_tokens" Json.asU64 0)

/-- `WireOutputTokenDetails`. -/
def readOutputTokenDetails (value : Json) : Option Nat := do
  let r ← Json.Shape.read
    { fields := ["reasoning_tokens"], defaulted := ["reasoning_tokens"], closed := false } value
  r.withDefault "reasoning_tokens" Json.asU64 0

def WireUsage.read (value : Json) : Option WireUsage := do
  let r ← Json.Shape.read
    { fields := ["input_tokens", "input_tokens_details", "output_tokens",
        "output_tokens_details", "total_tokens"]
      closed := false } value
  let (cached, cacheWrite) ← r.required "input_tokens_details" readInputTokenDetails
  return ⟨← r.required "input_tokens" Json.asU64, cached, cacheWrite,
    ← r.required "output_tokens" Json.asU64,
    ← r.required "output_tokens_details" readOutputTokenDetails,
    ← r.required "total_tokens" Json.asU64⟩

def readMessagePhase : Json → Option MessagePhase
  | .string "commentary" | .object [("commentary", .null)] => some .commentary
  | .string "final_answer" | .object [("final_answer", .null)] => some .finalAnswer
  | _ => none

structure WireOutputMessage where
  id : String
  content : List Json
  role : String
  status : String
  phase : Option MessagePhase

def WireOutputMessage.read (value : Json) : Option WireOutputMessage := do
  let r ← Json.Shape.read
    { fields := ["id", "content", "role", "status", "phase"], closed := false } value
  return ⟨← r.required "id" Json.asString, ← r.required "content" (Json.asArray some),
    ← r.required "role" Json.asString, ← r.required "status" Json.asString,
    ← r.optional "phase" readMessagePhase⟩

structure WireOutputText where
  annotations : List Json
  text : String
  logprobs : Option (List Json)

def WireOutputText.read (value : Json) : Option WireOutputText := do
  let r ← Json.Shape.read { fields := ["annotations", "text", "logprobs"], closed := false } value
  return ⟨← r.required "annotations" (Json.asArray some), ← r.required "text" Json.asString,
    ← r.optional "logprobs" (Json.asArray some)⟩

/-- `WireRefusal`. -/
def readRefusal (value : Json) : Option String := do
  let r ← Json.Shape.read { fields := ["refusal"], closed := false } value
  r.required "refusal" Json.asString

/-- `WireReasoningSummary`: its type and its text. -/
def readReasoningSummary (value : Json) : Option (String × String) := do
  let r ← Json.Shape.read { fields := ["type", "text"], closed := false } value
  return (← r.required "type" Json.asString, ← r.required "text" Json.asString)

structure WireReasoning where
  id : String
  summary : List (String × String)
  encryptedContent : Option String
  content : Option (List Json)
  status : Option String

def WireReasoning.read (value : Json) : Option WireReasoning := do
  let r ← Json.Shape.read
    { fields := ["id", "summary", "encrypted_content", "content", "status"]
      closed := false } value
  return ⟨← r.required "id" Json.asString,
    ← r.required "summary" (Json.asArray readReasoningSummary),
    ← r.optional "encrypted_content" Json.asString, ← r.optional "content" (Json.asArray some),
    ← r.optional "status" Json.asString⟩

structure WireFunctionCall where
  arguments : String
  callId : String
  name : String
  id : Option String
  status : Option String

def WireFunctionCall.read (value : Json) : Option WireFunctionCall := do
  let r ← Json.Shape.read
    { fields := ["arguments", "call_id", "name", "id", "status"], closed := false } value
  return ⟨← r.required "arguments" Json.asString, ← r.required "call_id" Json.asString,
    ← r.required "name" Json.asString, ← r.optional "id" Json.asString,
    ← r.optional "status" Json.asString⟩

/-! ## The decoder -/

inductive StreamState
  | awaitingCreated | active | terminal | doneMarker
  deriving DecidableEq

structure DeltaAccumulator where
  itemId : String
  value : String
  refusal : Bool
  deriving DecidableEq

abbrev TextDeltas := AList fun _ : Nat × Nat => DeltaAccumulator
abbrev ArgumentDeltas := AList fun _ : Nat => DeltaAccumulator

/-- The output items of one response in native mode. -/
structure NativeCompletedItems where
  items : AList fun _ : Nat => Json := ∅
  sourceBytes : Nat := 0
  sourceNodes : Nat := 0

/-- `DoneEvent`: the place of an item and the item. -/
def readDoneEvent (value : Json) : Option (Nat × Json) := do
  let r ← Json.Shape.read { fields := ["output_index", "item"], closed := false } value
  return (← r.required "output_index" Json.asU32, ← r.required "item" some)

namespace NativeCompletedItems

def push (n : NativeCompletedItems) (value : Json) (bytes nodes : Nat) :
    Except ProviderError NativeCompletedItems := do
  let (outputIndex, item) ← demand .malformedResponse (readDoneEvent value)
  require (outputIndex < maxOutputItems ∧ item.isObject ∧ outputIndex ∉ n.items)
    .malformedResponse
  require (n.sourceBytes + bytes ≤ maxSseRecordBytes) .responseLimitExceeded
  require (n.sourceNodes + nodes ≤ maxEventNodes) .responseLimitExceeded
  return { items := n.items.insert outputIndex item
           sourceBytes := n.sourceBytes + bytes
           sourceNodes := n.sourceNodes + nodes }

/-- The items in the order of their places, which have to be the first ones. -/
def finish (n : NativeCompletedItems) : Except ProviderError (Option (List Json)) := do
  if n.items.entries = [] then return none
  let ordered := n.items.entries.insertionSort fun a b => a.1 ≤ b.1
  require (ordered.map (·.1) = List.range ordered.length) .malformedResponse
  return some (ordered.map (·.2))

end NativeCompletedItems

inductive StreamEvent
  | created | queued | inProgress | outputTextDelta | refusalDelta | functionCallArgumentsDelta
  | completed | failed | error | incomplete | outputItemDone
  /-- An event that says nothing the completed event does not say. -/
  | redundant
  deriving DecidableEq

def StreamEvent.ofType : String → Option StreamEvent
  | "response.created" => some .created
  | "response.queued" => some .queued
  | "response.in_progress" => some .inProgress
  | "response.output_text.delta" => some .outputTextDelta
  | "response.refusal.delta" => some .refusalDelta
  | "response.function_call_arguments.delta" => some .functionCallArgumentsDelta
  | "response.completed" => some .completed
  | "response.failed" => some .failed
  | "error" => some .error
  | "response.incomplete" => some .incomplete
  | "response.output_item.done" => some .outputItemDone
  | "response.output_item.added" | "response.content_part.added" | "response.content_part.done"
  | "response.output_text.done" | "response.refusal.done" | "response.function_call_arguments.done"
  | "response.reasoning_summary_part.added" | "response.reasoning_summary_part.done"
  | "response.reasoning_summary_text.delta" | "response.reasoning_summary_text.done"
  | "response.reasoning_text.delta" | "response.reasoning_text.done" => some .redundant
  | _ => none

def responseModelAlias (expectedModel : String) : Option String :=
  if expectedModel = "gpt-daybreak-blue-latest" then some "gpt-5.6-sol" else none

end Responses

open Responses in
structure ResponsesDecoder where
  expectedModel : String
  responseModelAlias : Option String := none
  maximumInputTokens : Nat
  maximumOutputTokens : Nat
  expectedSequence : Nat := 0
  state : StreamState := .awaitingCreated
  responseId : Option String := none
  textDeltas : TextDeltas := ∅
  argumentDeltas : ArgumentDeltas := ∅
  terminal : Option (Except ProviderError Outcome) := none
  nativeItems : Option NativeCompletedItems := none

namespace ResponsesDecoder

open Responses

def new (expectedModel : String) (maximumInputTokens maximumOutputTokens : Nat) :
    ResponsesDecoder :=
  { expectedModel, maximumInputTokens, maximumOutputTokens }

def newNative (expectedModel : String) (maximumInputTokens maximumOutputTokens : Nat) :
    ResponsesDecoder :=
  { new expectedModel maximumInputTokens maximumOutputTokens with
    responseModelAlias := Responses.responseModelAlias expectedModel
    nativeItems := some {} }

def matchesResponseModel (d : ResponsesDecoder) (model : String) : Bool :=
  decide (model = d.expectedModel) || decide (d.responseModelAlias = some model)

def requireActive (d : ResponsesDecoder) : Except ProviderError Unit :=
  require (d.state = .active) .malformedResponse

def validateLifecycleResponse (d : ResponsesDecoder) (response : LifecycleResponse)
    (allowedStatuses : List String) : Except ProviderError Unit := do
  validateResponseIdentifier response.id maxProviderIdentifierBytes
  require (response.object = "response" ∧ response.status ∈ allowedStatuses) .malformedResponse
  require (∀ model ∈ response.model, d.matchesResponseModel model) .malformedResponse

def validateMatchingLifecycleResponse (d : ResponsesDecoder) (response : LifecycleResponse)
    (allowedStatuses : List String) : Except ProviderError Unit := do
  d.validateLifecycleResponse response allowedStatuses
  require (d.responseId = some response.id) .malformedResponse

def appendBounded (current next : String) (maximumBytes : Nat) : Except ProviderError String := do
  require (current.utf8ByteSize + next.utf8ByteSize ≤ maximumBytes) .responseLimitExceeded
  return current ++ next

/-- In native mode no delta comes after its item is done. -/
def requireOpenItem (d : ResponsesDecoder) (index : Nat) : Except ProviderError Unit :=
  require (∀ items ∈ d.nativeItems, index ∉ items.items) .malformedResponse

def recordTextDelta (d : ResponsesDecoder) (event : TextDeltaEvent) (refusal : Bool) :
    Except ProviderError (ResponsesDecoder × List TextDelta) := do
  validateResponseIdentifier event.itemId maxProviderIdentifierBytes
  require (event.delta.utf8ByteSize ≤ maxDeltaBytes ∧ event.outputIndex < maxOutputItems ∧
    event.contentIndex < maxMessageContentParts) .responseLimitExceeded
  d.requireOpenItem event.outputIndex
  let key := (event.outputIndex, event.contentIndex)
  let accumulator := (d.textDeltas.lookup key).getD ⟨event.itemId, "", refusal⟩
  require (accumulator.itemId = event.itemId ∧ accumulator.refusal = refusal) .malformedResponse
  let value ← appendBounded accumulator.value event.delta maxAccumulatedTextBytes
  return ({ d with textDeltas := d.textDeltas.insert key { accumulator with value := value } },
    [⟨event.sequenceNumber, event.outputIndex, event.contentIndex, event.delta, refusal⟩])

def recordArgumentDelta (d : ResponsesDecoder) (event : FunctionArgumentsDeltaEvent) :
    Except ProviderError ResponsesDecoder := do
  validateResponseIdentifier event.itemId maxProviderIdentifierBytes
  require (event.delta.utf8ByteSize ≤ maxDeltaBytes ∧ event.outputIndex < maxOutputItems)
    .responseLimitExceeded
  d.requireOpenItem event.outputIndex
  let accumulator := (d.argumentDeltas.lookup event.outputIndex).getD ⟨event.itemId, "", false⟩
  require (accumulator.itemId = event.itemId) .malformedResponse
  let value ← appendBounded accumulator.value event.delta maxToolArgumentBytes
  return { d with
    argumentDeltas :=
      d.argumentDeltas.insert event.outputIndex { accumulator with value := value } }

/-! ## The completed response -/

/-- What has been read of the output, and the deltas not yet met. -/
structure OutputScan where
  textDeltas : TextDeltas
  argumentDeltas : ArgumentDeltas
  output : List OutputItem := []
  itemIds : List String := []
  callIds : List String := []
  totalTextBytes : Nat := 0

/-- The text of a part of a message and whether it is a refusal. -/
def parseMessageContent (content : Json) : Except ProviderError (String × Bool) := do
  let contentType ← demand .malformedResponse ((content.get "type").bind Json.asString)
  if contentType = "output_text" then
    let part ← demand .malformedResponse (WireOutputText.read content)
    require (part.annotations = [] ∧ (∀ logprobs ∈ part.logprobs, logprobs = []) ∧
      part.text.utf8ByteSize ≤ maxAccumulatedTextBytes) .malformedResponse
    return (part.text, false)
  else if contentType = "refusal" then
    let refusal ← demand .malformedResponse (readRefusal content)
    require (refusal.utf8ByteSize ≤ maxAccumulatedTextBytes) .responseLimitExceeded
    return (refusal, true)
  else throw .malformedResponse

def validateTerminalText (s : OutputScan) (outputIndex contentIndex : Nat) (itemId text : String)
    (refusal : Bool) : Except ProviderError OutputScan :=
  match s.textDeltas.lookup (outputIndex, contentIndex) with
  | none => .ok s
  | some delta => do
    require (delta.itemId = itemId ∧ delta.value = text ∧ delta.refusal = refusal)
      .malformedResponse
    return { s with textDeltas := s.textDeltas.erase (outputIndex, contentIndex) }

def validateTerminalArguments (s : OutputScan) (outputIndex : Nat) (itemId : Option String)
    (arguments : String) : Except ProviderError OutputScan :=
  match s.argumentDeltas.lookup outputIndex with
  | none => .ok s
  | some delta => do
    require (itemId = some delta.itemId ∧ delta.value = arguments) .malformedResponse
    return { s with argumentDeltas := s.argumentDeltas.erase outputIndex }

/-- The parts of a message from one place on, after those that gave `text`. -/
def scanParts (s : OutputScan) (outputIndex : Nat) (itemId : String) :
    Nat → String → Bool → List Json → Except ProviderError (OutputScan × String × Bool)
  | _, text, refusal, [] => .ok (s, text, refusal)
  | contentIndex, text, refusal, content :: rest => do
    let (partText, partRefusal) ← parseMessageContent content
    require (text = "" ∨ refusal = partRefusal) .malformedResponse
    let s ← validateTerminalText s outputIndex contentIndex itemId partText partRefusal
    let text ← appendBounded text partText maxAccumulatedTextBytes
    scanParts s outputIndex itemId (contentIndex + 1) text partRefusal rest

/-- Count text against the bound on all of it. -/
def countText (s : OutputScan) (bytes : Nat) : Except ProviderError OutputScan := do
  require (s.totalTextBytes + bytes ≤ maxAccumulatedTextBytes) .responseLimitExceeded
  return { s with totalTextBytes := s.totalTextBytes + bytes }

def scanMessage (s : OutputScan) (outputIndex : Nat) (item : Json) :
    Except ProviderError OutputScan := do
  let message ← demand .malformedResponse (WireOutputMessage.read item)
  validateResponseIdentifier message.id maxProviderIdentifierBytes
  require (message.id ∉ s.itemIds ∧ message.role = "assistant" ∧ message.status = "completed" ∧
    message.content ≠ [] ∧ message.content.length ≤ maxMessageContentParts) .malformedResponse
  let s := { s with itemIds := message.id :: s.itemIds }
  let (s, text, refusal) ← scanParts s outputIndex message.id 0 "" false message.content
  let s ← countText s text.utf8ByteSize
  return { s with
    output := s.output ++ [.assistantMessage ⟨message.id, message.phase, text, refusal⟩] }

def scanSummaries (s : OutputScan) : List (String × String) → Except ProviderError OutputScan
  | [] => .ok s
  | (summaryType, text) :: rest => do
    require (summaryType = "summary_text" ∧ text.utf8ByteSize ≤ maxAccumulatedTextBytes)
      .malformedResponse
    let s ← countText s text.utf8ByteSize
    scanSummaries s rest

def scanReasoning (s : OutputScan) (item : Json) : Except ProviderError OutputScan := do
  let reasoning ← demand .malformedResponse (WireReasoning.read item)
  validateResponseIdentifier reasoning.id maxProviderIdentifierBytes
  require (reasoning.id ∉ s.itemIds ∧ (∀ status ∈ reasoning.status, status = "completed") ∧
    reasoning.summary.length ≤ Responses.maxReasoningSummaries ∧
    (∀ content ∈ reasoning.content, content = []) ∧
    ∀ content ∈ reasoning.encryptedContent,
      content ≠ "" ∧ content.utf8ByteSize ≤ Responses.maxEncryptedReasoningBytes) .malformedResponse
  let s := { s with itemIds := reasoning.id :: s.itemIds }
  let s ← scanSummaries s reasoning.summary
  return { s with
    output := s.output ++
      [.reasoning ⟨reasoning.id, reasoning.summary.map (·.2), reasoning.encryptedContent⟩] }

def isToolCall : OutputItem → Bool
  | .toolCall _ => true
  | _ => false

/-- The arguments of a call parse as a JSON object. -/
def isArguments (codec : Codec) (arguments : String) : Bool :=
  (codec.parse (bytesOf arguments)).any Json.isObject

def scanItemId (s : OutputScan) : Option String → Except ProviderError OutputScan
  | none => .ok s
  | some itemId => do
    validateResponseIdentifier itemId maxProviderIdentifierBytes
    require (itemId ∉ s.itemIds) .malformedResponse
    return { s with itemIds := itemId :: s.itemIds }

def scanFunctionCall (codec : Codec) (s : OutputScan) (outputIndex : Nat) (item : Json) :
    Except ProviderError OutputScan := do
  let call ← demand .malformedResponse (WireFunctionCall.read item)
  validateResponseIdentifier call.callId maxProviderCallIdBytes
  validateResponseToolName call.name
  require (call.status = some "completed" ∧ call.callId ∉ s.callIds ∧
    s.output.countP isToolCall < maxToolCount ∧ call.arguments ≠ "" ∧
    call.arguments.utf8ByteSize ≤ maxToolArgumentBytes) .malformedResponse
  let s := { s with callIds := call.callId :: s.callIds }
  require (isArguments codec call.arguments) .malformedResponse
  let s ← scanItemId s call.id
  let s ← validateTerminalArguments s outputIndex call.id call.arguments
  return { s with
    output := s.output ++ [.toolCall ⟨call.id, call.callId, call.name, call.arguments, none⟩] }

def scanItem (codec : Codec) (s : OutputScan) (outputIndex : Nat) (item : Json) :
    Except ProviderError OutputScan := do
  let itemType ← demand .malformedResponse ((item.get "type").bind Json.asString)
  if itemType = "message" then scanMessage s outputIndex item
  else if itemType = "reasoning" then scanReasoning s item
  else if itemType = "function_call" then scanFunctionCall codec s outputIndex item
  else throw .malformedResponse

def scanItems (codec : Codec) : Nat → OutputScan → List Json → Except ProviderError OutputScan
  | _, s, [] => .ok s
  | outputIndex, s, item :: rest => do
    let s ← scanItem codec s outputIndex item
    scanItems codec (outputIndex + 1) s rest

/-- The output of a response; every delta seen is met by it. -/
def parseOutput (codec : Codec) (textDeltas : TextDeltas) (argumentDeltas : ArgumentDeltas)
    (items : List Json) : Except ProviderError (List OutputItem) := do
  let s ← scanItems codec 0 { textDeltas, argumentDeltas } items
  require (s.textDeltas.entries = [] ∧ s.argumentDeltas.entries = []) .malformedResponse
  return s.output

/-- `validate_usage`. -/
def validateUsage (usage : WireUsage) (maximumInputTokens maximumOutputTokens : Nat) :
    Except ProviderError ProviderUsage := do
  require (usage.inputTokens ≤ maximumInputTokens ∧ usage.outputTokens ≤ maximumOutputTokens ∧
    usage.totalTokens ≤ maxUsageTokens ∧ usage.cachedTokens ≤ usage.inputTokens ∧
    usage.cacheWriteTokens ≤ usage.inputTokens ∧ usage.reasoningTokens ≤ usage.outputTokens ∧
    checkedAdd usage.inputTokens usage.outputTokens = some usage.totalTokens) .malformedResponse
  return ⟨usage.inputTokens, usage.cachedTokens, usage.cacheWriteTokens, usage.outputTokens,
    usage.reasoningTokens, usage.totalTokens⟩

def completedOutput (codec : Codec) (d : ResponsesDecoder) (output : List Json) :
    Except ProviderError (List OutputItem) := do
  let items ← match d.nativeItems with
    | none => pure none
    | some items => items.finish
  match items with
  | none => parseOutput codec d.textDeltas d.argumentDeltas output
  | some items => do
    let parsed ← parseOutput codec d.textDeltas d.argumentDeltas items
    if output = [] then return parsed
    -- The first reading has met every delta.
    let terminal ← parseOutput codec ∅ ∅ output
    require (terminal = parsed) .malformedResponse
    return parsed

def parseCompleted (codec : Codec) (d : ResponsesDecoder) (response : CompletedResponse) :
    Except ProviderError Outcome := do
  validateResponseIdentifier response.id maxProviderIdentifierBytes
  require (d.matchesResponseModel response.model) .malformedResponse
  require (d.responseId = some response.id ∧ response.object = "response" ∧
    response.status = "completed" ∧
    (response.output ≠ [] ∨ ∃ items ∈ d.nativeItems, items.items.entries ≠ []) ∧
    response.output.length ≤ maxOutputItems) .malformedResponse
  let wire ← demand .malformedResponse (response.usage.bind WireUsage.read)
  -- Native input usage is an observation, not a bound on the request.
  let usage ← validateUsage wire
    (if d.nativeItems.isSome then maxUsageTokens else d.maximumInputTokens) d.maximumOutputTokens
  let output ← completedOutput codec d response.output
  return ⟨response.id, output, usage⟩

/-! ## Records -/

def lifecycle (d : ResponsesDecoder) (value : Json) (allowedStatuses : List String) :
    Except ProviderError Unit := do
  d.requireActive
  let response ← demand .malformedResponse (readLifecycleEvent value)
  d.validateMatchingLifecycleResponse response allowedStatuses

/-- The response ends with an error of the provider. -/
def terminate (d : ResponsesDecoder) (error : ProviderError) : ResponsesDecoder :=
  { d with terminal := some (.error error), state := .terminal }

def processEvent (codec : Codec) (d : ResponsesDecoder) (kind : StreamEvent) (value : Json)
    (bytes nodes : Nat) : Except ProviderError (ResponsesDecoder × List TextDelta) :=
  match kind with
  | .created => do
    require (d.state = .awaitingCreated) .malformedResponse
    let response ← demand .malformedResponse (readLifecycleEvent value)
    d.validateLifecycleResponse response ["in_progress", "queued"]
    return ({ d with responseId := some response.id, state := .active }, [])
  | .queued => do
    d.lifecycle value ["queued"]
    return (d, [])
  | .inProgress => do
    d.lifecycle value ["in_progress"]
    return (d, [])
  | .outputTextDelta => do
    d.requireActive
    let event ← demand .malformedResponse (TextDeltaEvent.read value)
    require (event.logprobs = []) .malformedResponse
    d.recordTextDelta event false
  | .refusalDelta => do
    d.requireActive
    let event ← demand .malformedResponse (TextDeltaEvent.readRefusal value)
    d.recordTextDelta event true
  | .functionCallArgumentsDelta => do
    d.requireActive
    let event ← demand .malformedResponse (FunctionArgumentsDeltaEvent.read value)
    let d ← d.recordArgumentDelta event
    return (d, [])
  | .completed => do
    d.requireActive
    let response ← demand .malformedResponse (readCompletedEvent value)
    let outcome ← parseCompleted codec d response
    return ({ d with terminal := some (.ok outcome), state := .terminal }, [])
  | .failed => do
    d.lifecycle value ["failed"]
    return (d.terminate .providerExecutionFailed, [])
  | .error => do
    d.requireActive
    return (d.terminate .providerExecutionFailed, [])
  | .incomplete => do
    d.lifecycle value ["incomplete"]
    return (d.terminate .incompleteResponse, [])
  | .outputItemDone => do
    d.requireActive
    match d.nativeItems with
    | none => return (d, [])
    | some items => do
      let items ← items.push value bytes nodes
      return ({ d with nativeItems := some items }, [])
  | .redundant => do
    d.requireActive
    return (d, [])

def validatePingRecord (codec : Codec) (data : List UInt8) : Except ProviderError Unit := do
  let value ← demand .malformedResponse (codec.parse data)
  let _ ← validateEventValue maxAccumulatedTextBytes value
  match value with
  | .object members => do
    require (members.length ≤ 2 ∧ (value.get "type").bind Json.asString = some "ping" ∧
      ∀ m ∈ members, m.1 = "type" ∨ m.1 = "cost") .malformedResponse
    match value.get "cost" with
    | none => pure ()
    | some (.string cost) =>
      require (cost ≠ "" ∧ cost.utf8ByteSize ≤ 64 ∧ cost.toList.all isGraphic) .malformedResponse
    | some cost => require cost.asNumber.isSome .malformedResponse
  | _ => throw .malformedResponse

def processRecord (codec : Codec) (d : ResponsesDecoder) (record : SseRecord) :
    Except ProviderError (ResponsesDecoder × List TextDelta) :=
  if record.event = some "ping" then do
    validatePingRecord codec record.data
    return (d, [])
  else if record.data = bytesOf "[DONE]" then do
    require (record.event = none ∧ d.state = .terminal) .malformedResponse
    return ({ d with state := .doneMarker }, [])
  else do
    require (d.state ≠ .terminal ∧ d.state ≠ .doneMarker) .malformedResponse
    let value ← demand .malformedResponse (codec.parse record.data)
    let nodes ← validateEventValue maxAccumulatedTextBytes value
    let envelope ← demand .malformedResponse (EventEnvelope.read value)
    require (validIdentifier envelope.eventType 128) .malformedResponse
    require (∀ event ∈ record.event, event = envelope.eventType) .malformedResponse
    require (envelope.sequenceNumber = d.expectedSequence) .malformedResponse
    let expectedSequence ← demand .responseLimitExceeded (checkedAdd d.expectedSequence 1)
    let kind ← demand .malformedResponse (StreamEvent.ofType envelope.eventType)
    processEvent codec { d with expectedSequence := expectedSequence } kind value
      record.data.length nodes

def finish (d : ResponsesDecoder) : Except ProviderError Outcome :=
  match d.state with
  | .terminal | .doneMarker => do
    let result ← demand .incompleteResponse d.terminal
    result
  | .awaitingCreated | .active => .error .incompleteResponse

/-- The decoder of a whole response. -/
def decoding (codec : Codec) (start : ResponsesDecoder) : Decoding ResponsesDecoder where
  start := start
  process := processRecord codec
  finish := finish

end ResponsesDecoder

end Morons.Provider
