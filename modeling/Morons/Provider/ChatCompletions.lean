import Morons.Provider.Sse
import Mathlib.Data.List.Sort

/-!
# The Chat Completions stream

`ChatCompletionsDecoder` joins the deltas of one choice: its text, its tool
calls by their index, the reason it ends with and its usage, which later records
may only refine.
-/

namespace Morons.Provider

open Attempt

namespace Chat

/-! ## Wire records -/

structure ChatFunctionDelta where
  name : Option String
  arguments : Option String

def ChatFunctionDelta.read (value : Json) : Option ChatFunctionDelta := do
  let r ← Json.Shape.read { fields := ["name", "arguments"] } value
  return ⟨← r.optional "name" Json.asString, ← r.optional "arguments" Json.asString⟩

structure ChatToolCallDelta where
  index : Nat
  id : Option String
  callType : Option String
  function : Option ChatFunctionDelta

def ChatToolCallDelta.read (value : Json) : Option ChatToolCallDelta := do
  let r ← Json.Shape.read { fields := ["index", "id", "type", "function"] } value
  return ⟨← r.required "index" Json.asU32, ← r.optional "id" Json.asString,
    ← r.optional "type" Json.asString, ← r.optional "function" ChatFunctionDelta.read⟩

structure ChatDelta where
  role : Option String
  content : Option String
  refusal : Option String
  toolCalls : Option (List ChatToolCallDelta)
  functionCall : Option Json
  reasoning : Option String
  reasoningContent : Option String
  reasoningDetails : Option (List Json)

def ChatDelta.read (value : Json) : Option ChatDelta := do
  let r ← Json.Shape.read
    { fields := ["role", "content", "refusal", "tool_calls", "function_call", "reasoning",
        "reasoning_content", "reasoning_details"] } value
  return ⟨← r.optional "role" Json.asString, ← r.optional "content" Json.asString,
    ← r.optional "refusal" Json.asString,
    ← r.optional "tool_calls" (Json.asArray ChatToolCallDelta.read),
    ← r.optional "function_call" some, ← r.optional "reasoning" Json.asString,
    ← r.optional "reasoning_content" Json.asString,
    ← r.optional "reasoning_details" (Json.asArray some)⟩

def ChatDelta.isTerminalNoop (delta : ChatDelta) : Bool :=
  decide (∀ role ∈ delta.role, role = "assistant") &&
    decide (∀ content ∈ delta.content, content = "") &&
    decide (∀ refusal ∈ delta.refusal, refusal = "") &&
    delta.toolCalls.all List.isEmpty && delta.functionCall.isNone &&
    decide (∀ reasoning ∈ delta.reasoning, reasoning = "") &&
    decide (∀ reasoning ∈ delta.reasoningContent, reasoning = "") &&
    delta.reasoningDetails.all List.isEmpty

structure ChatChoice where
  index : Nat
  delta : ChatDelta
  finishReason : Option String
  logprobs : Option Json

def ChatChoice.read (value : Json) : Option ChatChoice := do
  let r ← Json.Shape.read { fields := ["index", "delta", "finish_reason", "logprobs"] } value
  return ⟨← r.required "index" Json.asU32, ← r.required "delta" ChatDelta.read,
    ← r.optional "finish_reason" Json.asString, ← r.optional "logprobs" some⟩

def ChatChoice.isTerminalUsageNoop (choice : ChatChoice) (expectedFinishReason : String) : Bool :=
  decide (choice.index = 0) && decide (choice.finishReason = some expectedFinishReason) &&
    choice.logprobs.isNone && choice.delta.isTerminalNoop

structure PromptTokenDetails where
  cachedTokens : Option Nat
  cacheWriteTokens : Option Nat
  audioTokens : Option Nat

def PromptTokenDetails.read (value : Json) : Option PromptTokenDetails := do
  let r ← Json.Shape.read
    { fields := ["cached_tokens", "cache_write_tokens", "audio_tokens"] } value
  return ⟨← r.optional "cached_tokens" Json.asU64, ← r.optional "cache_write_tokens" Json.asU64,
    ← r.optional "audio_tokens" Json.asU64⟩

structure CompletionTokenDetails where
  reasoningTokens : Option Nat
  audioTokens : Option Nat
  acceptedPredictionTokens : Option Nat
  rejectedPredictionTokens : Option Nat

def CompletionTokenDetails.read (value : Json) : Option CompletionTokenDetails := do
  let r ← Json.Shape.read
    { fields := ["reasoning_tokens", "audio_tokens", "accepted_prediction_tokens",
        "rejected_prediction_tokens"] } value
  return ⟨← r.optional "reasoning_tokens" Json.asU64, ← r.optional "audio_tokens" Json.asU64,
    ← r.optional "accepted_prediction_tokens" Json.asU64,
    ← r.optional "rejected_prediction_tokens" Json.asU64⟩

structure ChatUsage where
  promptTokens : Nat
  completionTokens : Nat
  totalTokens : Nat
  promptTokensDetails : Option PromptTokenDetails
  completionTokensDetails : Option CompletionTokenDetails
  promptCacheHitTokens : Option Nat
  promptCacheMissTokens : Option Nat

def ChatUsage.read (value : Json) : Option ChatUsage := do
  let r ← Json.Shape.read
    { fields := ["prompt_tokens", "completion_tokens", "total_tokens", "prompt_tokens_details",
        "completion_tokens_details", "prompt_cache_hit_tokens", "prompt_cache_miss_tokens"] } value
  return ⟨← r.required "prompt_tokens" Json.asU64, ← r.required "completion_tokens" Json.asU64,
    ← r.required "total_tokens" Json.asU64,
    ← r.optional "prompt_tokens_details" PromptTokenDetails.read,
    ← r.optional "completion_tokens_details" CompletionTokenDetails.read,
    ← r.optional "prompt_cache_hit_tokens" Json.asU64,
    ← r.optional "prompt_cache_miss_tokens" Json.asU64⟩

structure ChatChunk where
  id : String
  object : Option String
  requestId : Option String
  created : Nat
  model : String
  choices : List ChatChoice
  usage : Option ChatUsage
  systemFingerprint : Option String
  serviceTier : Option String
  webSearch : Option (List Json)

def ChatChunk.read (value : Json) : Option ChatChunk := do
  let r ← Json.Shape.read
    { fields := ["id", "object", "request_id", "created", "model", "choices", "usage",
        "system_fingerprint", "service_tier", "web_search"] } value
  return ⟨← r.required "id" Json.asString, ← r.optional "object" Json.asString,
    ← r.optional "request_id" Json.asString, ← r.required "created" Json.asU64,
    ← r.required "model" Json.asString, ← r.required "choices" (Json.asArray ChatChoice.read),
    ← r.optional "usage" ChatUsage.read, ← r.optional "system_fingerprint" Json.asString,
    ← r.optional "service_tier" Json.asString, ← r.optional "web_search" (Json.asArray some)⟩

/-- A `ChatCostTrailer` without choices and with a cost in its range. -/
def isCostTrailer (codec : Codec) (value : Json) : Bool :=
  let trailer := do
    let r ← Json.Shape.read { fields := ["choices", "cost"] } value
    return (← r.required "choices" (Json.asArray some), ← r.required "cost" some)
  trailer.any fun t => t.1.isEmpty && validCost codec t.2

end Chat

/-! ## The decoder -/

namespace Chat

structure ToolCallAccumulator where
  id : Option String := none
  name : Option String := none
  arguments : String := ""
  deriving DecidableEq

end Chat

structure ChatCompletionsDecoder where
  expectedModel : String
  maximumInputTokens : Nat
  maximumOutputTokens : Nat
  responseId : Option String := none
  roleSeen : Bool := false
  text : String := ""
  refusal : Option Bool := none
  ignoredReasoningBytes : Nat := 0
  toolCalls : AList fun _ : Nat => Chat.ToolCallAccumulator := ∅
  finishReason : Option String := none
  usage : Option ProviderUsage := none
  providerSequence : Nat := 0
  done : Bool := false
  postTerminalEnvelopeSeen : Bool := false

namespace ChatCompletionsDecoder

open Chat

def new (expectedModel : String) (maximumInputTokens maximumOutputTokens : Nat) :
    ChatCompletionsDecoder :=
  { expectedModel, maximumInputTokens, maximumOutputTokens }

def isWhitespaceByte (byte : UInt8) : Bool :=
  byte = 0x20 || byte = 0x09 || byte = 0x0a || byte = 0x0c || byte = 0x0d

/-- The data is `[DONE]` between ASCII white space. -/
def isDoneMarker (data : List UInt8) : Bool :=
  let start := data.dropWhile isWhitespaceByte
  decide ((start.reverse.dropWhile isWhitespaceByte).reverse = bytesOf "[DONE]")

def boundedName (value : Option String) : Bool :=
  value.all fun text => !text.isEmpty && decide (text.utf8ByteSize ≤ maxProviderIdentifierBytes)

def validateChunkIdentity (d : ChatCompletionsDecoder) (chunk : ChatChunk) :
    Except ProviderError ChatCompletionsDecoder := do
  require ((∀ object ∈ chunk.object, object = "chat.completion.chunk") ∧
    chunk.model = d.expectedModel ∧ chunk.created ≠ 0 ∧
    chunk.id.utf8ByteSize ≤ maxProviderIdentifierBytes) .malformedResponse
  validateIdentifier chunk.id maxProviderIdentifierBytes
  require ((∀ id ∈ chunk.requestId, validIdentifier id maxProviderIdentifierBytes) ∧
    boundedName chunk.systemFingerprint ∧ boundedName chunk.serviceTier ∧
    (∀ results ∈ chunk.webSearch, results = [])) .malformedResponse
  match d.responseId with
  | some expected => do
    require (expected = chunk.id) .malformedResponse
    return d
  | none => return { d with responseId := some chunk.id }

def recordTextDelta (d : ChatCompletionsDecoder) (delta : String) (refusal : Bool) :
    Except ProviderError (ChatCompletionsDecoder × List TextDelta) := do
  require (delta.utf8ByteSize ≤ maxDeltaBytes) .responseLimitExceeded
  require (∀ existing ∈ d.refusal, existing = refusal) .malformedResponse
  require (d.text.utf8ByteSize + delta.utf8ByteSize ≤ maxAccumulatedTextBytes)
    .responseLimitExceeded
  let next ← demand .responseLimitExceeded (checkedAdd d.providerSequence 1)
  return ({ d with refusal := some refusal, text := d.text ++ delta, providerSequence := next },
    [⟨d.providerSequence, 0, 0, delta, refusal⟩])

/-- A text delta when there is text. -/
def recordText (d : ChatCompletionsDecoder) (delta : Option String) (refusal : Bool) :
    Except ProviderError (ChatCompletionsDecoder × List TextDelta) :=
  match delta with
  | none | some "" => .ok (d, [])
  | some delta => d.recordTextDelta delta refusal

def recordId (call : ToolCallAccumulator) : Option String →
    Except ProviderError ToolCallAccumulator
  | none => .ok call
  | some id => do
    validateIdentifier id maxProviderCallIdBytes
    require (∀ existing ∈ call.id, existing = id) .malformedResponse
    return { call with id := some id }

def recordName (call : ToolCallAccumulator) : Option String →
    Except ProviderError ToolCallAccumulator
  | none => .ok call
  | some name => do
    validateToolName name
    require (∀ existing ∈ call.name, existing = name) .malformedResponse
    return { call with name := some name }

def recordArguments (call : ToolCallAccumulator) : Option String →
    Except ProviderError ToolCallAccumulator
  | none => .ok call
  | some arguments => do
    require (arguments.utf8ByteSize ≤ maxDeltaBytes ∧
      call.arguments.utf8ByteSize + arguments.utf8ByteSize ≤ maxToolArgumentBytes)
      .responseLimitExceeded
    return { call with arguments := call.arguments ++ arguments }

def recordToolCallDelta (d : ChatCompletionsDecoder) (call : ChatToolCallDelta) :
    Except ProviderError ChatCompletionsDecoder := do
  require (call.index < maxToolCount ∧ ∀ callType ∈ call.callType, callType = "function")
    .malformedResponse
  let accumulator := (d.toolCalls.lookup call.index).getD {}
  let accumulator ← recordId accumulator call.id
  let accumulator ← recordName accumulator (call.function.bind (·.name))
  let accumulator ← recordArguments accumulator (call.function.bind (·.arguments))
  return { d with toolCalls := d.toolCalls.insert call.index accumulator }

def countReasoning (d : ChatCompletionsDecoder) (bytes : Option Nat) :
    Except ProviderError ChatCompletionsDecoder :=
  match bytes with
  | none => .ok d
  | some bytes => do
    require (bytes ≤ maxDeltaBytes ∧ d.ignoredReasoningBytes + bytes ≤ maxAccumulatedTextBytes)
      .responseLimitExceeded
    return { d with ignoredReasoningBytes := d.ignoredReasoningBytes + bytes }

def recordToolCalls (d : ChatCompletionsDecoder) (calls : List ChatToolCallDelta) :
    Except ProviderError ChatCompletionsDecoder := do
  require (calls.length ≤ maxToolCount) .responseLimitExceeded
  sweep recordToolCallDelta d calls

def processDelta (codec : Codec) (d : ChatCompletionsDecoder) (delta : ChatDelta) :
    Except ProviderError (ChatCompletionsDecoder × List TextDelta) := do
  require (∀ role ∈ delta.role, role = "assistant") .malformedResponse
  let d := { d with roleSeen := d.roleSeen || delta.role.isSome }
  require delta.functionCall.isNone .malformedResponse
  let d ← d.countReasoning (delta.reasoning.map String.utf8ByteSize)
  let d ← d.countReasoning (delta.reasoningContent.map String.utf8ByteSize)
  let d ← d.countReasoning
    (delta.reasoningDetails.map fun details => (codec.encode (.array details)).utf8ByteSize)
  let (d, content) ← d.recordText delta.content false
  let (d, refusal) ← d.recordText delta.refusal true
  let d ← d.recordToolCalls (delta.toolCalls.getD [])
  return (d, content ++ refusal)

/-- The cached tokens of a prompt, which two fields may tell if they agree. -/
def cachedTokens (usage : ChatUsage) : Except ProviderError Nat :=
  match usage.promptTokensDetails.bind (·.cachedTokens), usage.promptCacheHitTokens with
  | some detailed, some topLevel => do
    require (detailed = topLevel) .malformedResponse
    return detailed
  | some detailed, none => .ok detailed
  | none, some topLevel => .ok topLevel
  | none, none => .ok 0

def validateUsage (d : ChatCompletionsDecoder) (usage : ChatUsage) :
    Except ProviderError ProviderUsage := do
  let cached ← cachedTokens usage
  let cacheWrite := (usage.promptTokensDetails.bind (·.cacheWriteTokens)).getD 0
  let reasoning := (usage.completionTokensDetails.bind (·.reasoningTokens)).getD 0
  let unsupported := (usage.promptTokensDetails.bind (·.audioTokens)).toList ++
    (usage.completionTokensDetails.map fun details =>
      details.audioTokens.toList ++ details.acceptedPredictionTokens.toList ++
        details.rejectedPredictionTokens.toList).getD []
  require ((∀ tokens ∈ unsupported, tokens = 0) ∧ usage.promptTokens ≠ 0 ∧
    usage.completionTokens ≠ 0 ∧ usage.promptTokens ≤ d.maximumInputTokens ∧
    usage.promptTokens ≤ maxUsageTokens ∧ usage.completionTokens ≤ d.maximumOutputTokens ∧
    usage.completionTokens ≤ maxUsageTokens ∧
    checkedAdd usage.promptTokens usage.completionTokens = some usage.totalTokens ∧
    (∃ cache ∈ checkedAdd cached cacheWrite, cache ≤ usage.promptTokens) ∧
    (∀ miss ∈ usage.promptCacheMissTokens,
      cached ≤ usage.promptTokens ∧ usage.promptTokens - cached = miss) ∧
    reasoning ≤ usage.completionTokens) .malformedResponse
  return ⟨usage.promptTokens, cached, cacheWrite, usage.completionTokens, reasoning,
    usage.totalTokens⟩

def usageRefines (previous next : ProviderUsage) : Bool :=
  decide (previous.inputTokens = next.inputTokens) &&
    decide (previous.outputTokens ≤ next.outputTokens) &&
    decide (previous.totalTokens ≤ next.totalTokens) &&
    decide (previous.cachedInputTokens ≤ next.cachedInputTokens) &&
    decide (previous.cacheWriteInputTokens ≤ next.cacheWriteInputTokens) &&
    decide (previous.reasoningOutputTokens ≤ next.reasoningOutputTokens)

def recordUsage (d : ChatCompletionsDecoder) : Option ChatUsage →
    Except ProviderError ChatCompletionsDecoder
  | none => .ok d
  | some usage => do
    let usage ← d.validateUsage usage
    require (∀ existing ∈ d.usage, usageRefines existing usage) .malformedResponse
    return { d with usage := some usage }

def recordFinish (d : ChatCompletionsDecoder) : Option String →
    Except ProviderError ChatCompletionsDecoder
  | none => .ok d
  | some reason => do
    require (reason ≠ "" ∧ reason.utf8ByteSize ≤ maxProviderIdentifierBytes) .malformedResponse
    return { d with finishReason := some reason }

def processChoice (codec : Codec) (d : ChatCompletionsDecoder) (choice : ChatChoice) :
    Except ProviderError (ChatCompletionsDecoder × List TextDelta) := do
  require (choice.index = 0 ∧ choice.logprobs.isNone) .malformedResponse
  let (d, events) ← d.processDelta codec choice.delta
  let d ← d.recordFinish choice.finishReason
  return (d, events)

/-- A choice that repeats how the response ended, next to its first usage. -/
def terminalUsageChoice (d : ChatCompletionsDecoder) (chunk : ChatChunk) : Bool :=
  match d.finishReason, chunk.choices with
  | some reason, [choice] =>
    chunk.usage.isSome && d.usage.isNone && choice.isTerminalUsageNoop reason
  | _, _ => false

def processChoices (codec : Codec) (d : ChatCompletionsDecoder) (chunk : ChatChunk) :
    Except ProviderError (ChatCompletionsDecoder × List TextDelta) :=
  match chunk.choices with
  | [] => do
    require (chunk.usage.isSome ∧ d.finishReason.isSome) .malformedResponse
    return (d, [])
  | choice :: rest =>
    if d.terminalUsageChoice chunk then .ok (d, [])
    else do
      require (rest = [] ∧ d.finishReason.isNone) .malformedResponse
      d.processChoice codec choice

def processChunk (codec : Codec) (d : ChatCompletionsDecoder) (chunk : ChatChunk) :
    Except ProviderError (ChatCompletionsDecoder × List TextDelta) := do
  let d ← d.validateChunkIdentity chunk
  let (d, events) ← d.processChoices codec chunk
  let d ← d.recordUsage chunk.usage
  return (d, events)

/-- A record after the marker: one more marker, or one envelope that says nothing. -/
def processTrailer (codec : Codec) (d : ChatCompletionsDecoder) (data : List UInt8) :
    Except ProviderError ChatCompletionsDecoder :=
  if isDoneMarker data then .ok d
  else do
    require (d.postTerminalEnvelopeSeen = false) .malformedResponse
    let value ← demand .malformedResponse (codec.parse data)
    let _ ← validateEventValue maxAccumulatedTextBytes value
    if isCostTrailer codec value then return { d with postTerminalEnvelopeSeen := true }
    let chunk ← demand .malformedResponse (ChatChunk.read value)
    let d ← d.validateChunkIdentity chunk
    require (chunk.choices.isEmpty ∧ chunk.usage.isNone) .malformedResponse
    return { d with postTerminalEnvelopeSeen := true }

def processRecord (codec : Codec) (d : ChatCompletionsDecoder) (record : SseRecord) :
    Except ProviderError (ChatCompletionsDecoder × List TextDelta) := do
  require record.event.isNone .malformedResponse
  if d.done then
    let d ← d.processTrailer codec record.data
    return (d, [])
  if isDoneMarker record.data then
    require (d.finishReason.isSome ∧ d.usage.isSome) .incompleteResponse
    return ({ d with done := true }, [])
  let value ← demand .malformedResponse (codec.parse record.data)
  let _ ← validateEventValue maxAccumulatedTextBytes value
  let chunk ← demand .malformedResponse (ChatChunk.read value)
  d.processChunk codec chunk

/-! ## The outcome -/

def checkFinishReason (finishReason : String) (hasToolCalls : Bool) : Except ProviderError Unit :=
  if finishReason = "stop" ∧ !hasToolCalls ∨ finishReason = "tool_calls" ∧ hasToolCalls then .ok ()
  else if finishReason = "length" then .error .incompleteResponse
  else if finishReason ∈ ["content_filter", "sensitive", "network_error"] then
    .error .providerExecutionFailed
  else if finishReason = "model_context_window_exceeded" then .error .incompleteResponse
  else .error .malformedResponse

def finishCall (codec : Codec) (call : ToolCallAccumulator) : Except ProviderError OutputItem := do
  let id ← demand .incompleteResponse call.id
  let name ← demand .incompleteResponse call.name
  validateIdentifier id maxProviderCallIdBytes
  validateToolName name
  require (call.arguments ≠ "" ∧ call.arguments.utf8ByteSize ≤ maxToolArgumentBytes)
    .malformedResponse
  require ((codec.parse (bytesOf call.arguments)).any Json.isObject) .malformedResponse
  return .toolCall ⟨none, id, name, call.arguments, none⟩

/-- The calls in the order of their indexes, which have to be the first ones. -/
def orderedCalls (d : ChatCompletionsDecoder) : List (Nat × ToolCallAccumulator) :=
  (d.toolCalls.entries.map fun e => (e.1, e.2)).insertionSort fun a b => a.1 ≤ b.1

def finish (codec : Codec) (d : ChatCompletionsDecoder) : Except ProviderError Outcome := do
  require d.done .incompleteResponse
  let responseId ← demand .incompleteResponse d.responseId
  let usage ← demand .incompleteResponse d.usage
  let finishReason ← demand .incompleteResponse d.finishReason
  let calls := d.orderedCalls
  checkFinishReason finishReason !calls.isEmpty
  require (d.roleSeen ∧ (d.text ≠ "" ∨ calls ≠ [])) .malformedResponse
  let message : List OutputItem := if d.text = "" then [] else
    [.assistantMessage ⟨responseId, some (if calls = [] then .finalAnswer else .commentary), d.text,
      d.refusal.getD false⟩]
  let output ← (calls.zipIdx).mapM fun ((index, call), expectedIndex) => do
    require (index = expectedIndex) .malformedResponse
    finishCall codec call
  return ⟨responseId, message ++ output, usage⟩

/-- The decoder of a whole response. -/
def decoding (codec : Codec) (expectedModel : String)
    (maximumInputTokens maximumOutputTokens : Nat) : Decoding ChatCompletionsDecoder where
  start := new expectedModel maximumInputTokens maximumOutputTokens
  process := processRecord codec
  finish := finish codec

end ChatCompletionsDecoder

end Morons.Provider
