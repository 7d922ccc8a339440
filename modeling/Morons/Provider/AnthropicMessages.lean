import Morons.Provider.Sse

/-!
# The Anthropic Messages stream

`AnthropicMessagesDecoder` follows a message through its start, its content
blocks, one at a time, its closing delta and its stop.  The input tokens are
the uncached, the cached and the cache-write tokens together.
-/

namespace Morons.Provider

open Attempt

namespace Anthropic

/-! ## Wire records -/

structure CacheCreation where
  ephemeralOneHour : Nat
  ephemeralFiveMinutes : Nat

def CacheCreation.read (value : Json) : Option CacheCreation := do
  let r ← Json.Shape.read
    { fields := ["ephemeral_1h_input_tokens", "ephemeral_5m_input_tokens"] } value
  return ⟨← r.required "ephemeral_1h_input_tokens" Json.asU64,
    ← r.required "ephemeral_5m_input_tokens" Json.asU64⟩

structure ServerToolUsage where
  webFetchRequests : Nat
  webSearchRequests : Nat

def ServerToolUsage.read (value : Json) : Option ServerToolUsage := do
  let r ← Json.Shape.read { fields := ["web_fetch_requests", "web_search_requests"] } value
  return ⟨← r.required "web_fetch_requests" Json.asU64,
    ← r.required "web_search_requests" Json.asU64⟩

structure StartUsage where
  inputTokens : Nat
  cacheCreationInputTokens : Option Nat
  cacheReadInputTokens : Option Nat
  outputTokens : Nat
  cacheCreation : Option CacheCreation
  serverToolUse : Option ServerToolUsage
  serviceTier : Option String
  inferenceGeo : Option String

def StartUsage.read (value : Json) : Option StartUsage := do
  let r ← Json.Shape.read
    { fields := ["input_tokens", "cache_creation_input_tokens", "cache_read_input_tokens",
        "output_tokens", "cache_creation", "server_tool_use", "service_tier", "inference_geo"]
      defaulted := ["cache_creation_input_tokens", "cache_read_input_tokens", "output_tokens",
        "cache_creation", "server_tool_use", "service_tier", "inference_geo"] } value
  return ⟨← r.required "input_tokens" Json.asU64,
    ← r.optional "cache_creation_input_tokens" Json.asU64,
    ← r.optional "cache_read_input_tokens" Json.asU64,
    ← r.withDefault "output_tokens" Json.asU64 0, ← r.optional "cache_creation" CacheCreation.read,
    ← r.optional "server_tool_use" ServerToolUsage.read, ← r.optional "service_tier" Json.asString,
    ← r.optional "inference_geo" Json.asString⟩

structure StartMessage where
  id : String
  messageType : String
  role : String
  model : String
  content : List Json
  container : Option Json
  stopDetails : Option Json
  stopReason : Option String
  stopSequence : Option String
  usage : StartUsage

def StartMessage.read (value : Json) : Option StartMessage := do
  let r ← Json.Shape.read
    { fields := ["id", "type", "role", "model", "content", "container", "stop_details",
        "stop_reason", "stop_sequence", "usage"]
      defaulted := ["container", "stop_details"] } value
  return ⟨← r.required "id" Json.asString, ← r.required "type" Json.asString,
    ← r.required "role" Json.asString, ← r.required "model" Json.asString,
    ← r.required "content" (Json.asArray some), ← r.optional "container" some,
    ← r.optional "stop_details" some, ← r.optional "stop_reason" Json.asString,
    ← r.optional "stop_sequence" Json.asString, ← r.required "usage" StartUsage.read⟩

/-- `MessageStartEvent`. -/
def readMessageStart (value : Json) : Option StartMessage := do
  let r ← Json.Shape.read { fields := ["type", "message"] } value
  let _ ← r.required "type" Json.asString
  r.required "message" StartMessage.read

/-- `ContentBlockStartEvent`: the index and the block. -/
def readContentBlockStart (value : Json) : Option (Nat × Json) := do
  let r ← Json.Shape.read { fields := ["type", "index", "content_block"] } value
  let _ ← r.required "type" Json.asString
  return (← r.required "index" Json.asU32, ← r.required "content_block" some)

/-- `TextBlockStart`: the text and the citations. -/
def readTextBlockStart (value : Json) : Option (String × Option (List Json)) := do
  let r ← Json.Shape.read
    { fields := ["type", "text", "citations"], defaulted := ["citations"] } value
  let _ ← r.required "type" Json.asString
  return (← r.required "text" Json.asString, ← r.optional "citations" (Json.asArray some))

/-- `ToolCaller`. -/
def readToolCaller (value : Json) : Option String := do
  let r ← Json.Shape.read { fields := ["type"] } value
  r.required "type" Json.asString

structure ToolUseBlockStart where
  id : String
  name : String
  input : Json
  callerType : Option String

def ToolUseBlockStart.read (value : Json) : Option ToolUseBlockStart := do
  let r ← Json.Shape.read
    { fields := ["type", "id", "name", "input", "caller"], defaulted := ["caller"] } value
  let _ ← r.required "type" Json.asString
  return ⟨← r.required "id" Json.asString, ← r.required "name" Json.asString,
    ← r.required "input" some, ← r.optional "caller" readToolCaller⟩

/-- `ThinkingBlockStart`: the thinking and the signature. -/
def readThinkingBlockStart (value : Json) : Option (String × Option String) := do
  let r ← Json.Shape.read { fields := ["type", "thinking", "signature"] } value
  let _ ← r.required "type" Json.asString
  return (← r.required "thinking" Json.asString, ← r.optional "signature" Json.asString)

/-- A record of a type and one text: `RedactedThinkingBlockStart`, `TextDelta`,
`InputJsonDelta`, `ThinkingDelta`, `SignatureDelta`. -/
def readTyped (field : String) (value : Json) : Option String := do
  let r ← Json.Shape.read { fields := ["type", field] } value
  let _ ← r.required "type" Json.asString
  r.required field Json.asString

def readRedactedThinkingBlockStart := readTyped "data"
def readTextDelta := readTyped "text"
def readInputJsonDelta := readTyped "partial_json"
def readThinkingDelta := readTyped "thinking"
def readSignatureDelta := readTyped "signature"

/-- `ContentBlockDeltaEvent`: the index and the delta. -/
def readContentBlockDelta (value : Json) : Option (Nat × Json) := do
  let r ← Json.Shape.read { fields := ["type", "index", "delta"] } value
  let _ ← r.required "type" Json.asString
  return (← r.required "index" Json.asU32, ← r.required "delta" some)

/-- `ContentBlockStopEvent`. -/
def readContentBlockStop (value : Json) : Option Nat := do
  let r ← Json.Shape.read { fields := ["type", "index"] } value
  let _ ← r.required "type" Json.asString
  r.required "index" Json.asU32

structure MessageDelta where
  container : Option Json
  stopDetails : Option Json
  stopReason : String
  stopSequence : Option String

def MessageDelta.read (value : Json) : Option MessageDelta := do
  let r ← Json.Shape.read
    { fields := ["container", "stop_details", "stop_reason", "stop_sequence"]
      defaulted := ["container", "stop_details"] } value
  return ⟨← r.optional "container" some, ← r.optional "stop_details" some,
    ← r.required "stop_reason" Json.asString, ← r.optional "stop_sequence" Json.asString⟩

structure DeltaUsage where
  outputTokens : Nat
  inputTokens : Option Nat
  cacheCreationInputTokens : Option Nat
  cacheReadInputTokens : Option Nat
  serverToolUse : Option ServerToolUsage

def DeltaUsage.read (value : Json) : Option DeltaUsage := do
  let r ← Json.Shape.read
    { fields := ["output_tokens", "input_tokens", "cache_creation_input_tokens",
        "cache_read_input_tokens", "server_tool_use"]
      defaulted := ["input_tokens", "cache_creation_input_tokens", "cache_read_input_tokens",
        "server_tool_use"] } value
  return ⟨← r.required "output_tokens" Json.asU64, ← r.optional "input_tokens" Json.asU64,
    ← r.optional "cache_creation_input_tokens" Json.asU64,
    ← r.optional "cache_read_input_tokens" Json.asU64,
    ← r.optional "server_tool_use" ServerToolUsage.read⟩

/-- `MessageDeltaEvent`. -/
def readMessageDelta (value : Json) : Option (MessageDelta × DeltaUsage) := do
  let r ← Json.Shape.read { fields := ["type", "delta", "usage"] } value
  let _ ← r.required "type" Json.asString
  return (← r.required "delta" MessageDelta.read, ← r.required "usage" DeltaUsage.read)

/-- `Cost`: a number or a text. -/
def readCost : Json → Option Json
  | .string cost => some (.string cost)
  | value => if value.asNumber.isSome then some value else none

/-- `MessageStopEvent` and `PingEvent`: the cost. -/
def readCosted (value : Json) : Option (Option Json) := do
  let r ← Json.Shape.read { fields := ["type", "cost"] } value
  let _ ← r.required "type" Json.asString
  r.optional "cost" readCost

/-! ## The decoder -/

inductive StreamState
  | awaitingMessageStart | content | messageDelta | messageStop
  deriving DecidableEq

inductive ActiveBlock
  | text (index : Nat) (text : String)
  | toolUse (index : Nat) (id name arguments : String)
  | thinking (index bytes : Nat)
  deriving DecidableEq

def ActiveBlock.index : ActiveBlock → Nat
  | .text index _ => index
  | .toolUse index _ _ _ => index
  | .thinking index _ => index

end Anthropic

open Anthropic in
structure AnthropicMessagesDecoder where
  expectedModel : String
  maximumInputTokens : Nat
  maximumOutputTokens : Nat
  state : StreamState := .awaitingMessageStart
  responseId : Option String := none
  inputTokens : Option Nat := none
  uncachedInputTokens : Nat := 0
  cachedInputTokens : Nat := 0
  cacheWriteInputTokens : Nat := 0
  outputTokens : Option Nat := none
  stopReason : Option String := none
  activeBlock : Option ActiveBlock := none
  nextBlockIndex : Nat := 0
  output : List OutputItem := []
  providerSequence : Nat := 0
  outputItemIds : List String := []

namespace AnthropicMessagesDecoder

open Anthropic

def new (expectedModel : String) (maximumInputTokens maximumOutputTokens : Nat) :
    AnthropicMessagesDecoder :=
  { expectedModel, maximumInputTokens, maximumOutputTokens }

def noServerToolUse (serverToolUse : Option ServerToolUsage) : Bool :=
  serverToolUse.all fun usage =>
    decide (usage.webFetchRequests = 0) && decide (usage.webSearchRequests = 0)

def validateUsageMetadata (usage : StartUsage) (cacheCreationInputTokens : Nat) :
    Except ProviderError Unit :=
  require ((∀ cache ∈ usage.cacheCreation,
      checkedAdd cache.ephemeralOneHour cache.ephemeralFiveMinutes =
        some cacheCreationInputTokens) ∧
    noServerToolUse usage.serverToolUse ∧
    (∀ tier ∈ usage.serviceTier, tier ∈ ["standard", "priority", "batch"]) ∧
    (∀ geo ∈ usage.inferenceGeo, validIdentifier geo 64)) .malformedResponse

/-- Three counts as a sum that fits a counter. -/
def checkedSum (a b c : Nat) : Except ProviderError Nat := do
  let partialSum ← demand .responseLimitExceeded (checkedAdd a b)
  demand .responseLimitExceeded (checkedAdd partialSum c)

def messageStart (d : AnthropicMessagesDecoder) (value : Json) :
    Except ProviderError AnthropicMessagesDecoder := do
  require (d.state = .awaitingMessageStart) .malformedResponse
  let message ← demand .malformedResponse (readMessageStart value)
  validateIdentifier message.id maxProviderIdentifierBytes
  require (message.messageType = "message" ∧ message.role = "assistant" ∧
    message.model = d.expectedModel ∧ message.content.isEmpty ∧ message.container.isNone ∧
    message.stopDetails.isNone ∧ message.stopReason = none ∧ message.stopSequence = none)
    .malformedResponse
  let cached := message.usage.cacheReadInputTokens.getD 0
  let cacheWrite := message.usage.cacheCreationInputTokens.getD 0
  validateUsageMetadata message.usage cacheWrite
  let inputTokens ← checkedSum message.usage.inputTokens cached cacheWrite
  require (inputTokens ≤ d.maximumInputTokens ∧ inputTokens ≤ maxUsageTokens ∧
    message.usage.outputTokens ≤ d.maximumOutputTokens ∧
    message.usage.outputTokens ≤ maxUsageTokens) .malformedResponse
  return { d with
    responseId := some message.id
    inputTokens := some inputTokens
    uncachedInputTokens := message.usage.inputTokens
    cachedInputTokens := cached
    cacheWriteInputTokens := cacheWrite
    state := .content }

def startBlock (index : Nat) (block : Json) : Except ProviderError ActiveBlock := do
  let blockType ← demand .malformedResponse ((block.get "type").bind Json.asString)
  if blockType = "text" then
    let (text, citations) ← demand .malformedResponse (readTextBlockStart block)
    require (text = "" ∧ ∀ c ∈ citations, c.isEmpty) .malformedResponse
    return .text index ""
  else if blockType = "tool_use" then
    let start ← demand .malformedResponse (ToolUseBlockStart.read block)
    validateIdentifier start.id maxProviderCallIdBytes
    validateToolName start.name
    let empty : Bool := match start.input with
      | .object [] => true
      | _ => false
    require (empty ∧ ∀ caller ∈ start.callerType, caller = "direct") .malformedResponse
    return .toolUse index start.id start.name ""
  else if blockType = "thinking" then
    let (thinking, signature) ← demand .malformedResponse (readThinkingBlockStart block)
    require (thinking = "" ∧ ∀ text ∈ signature, text = "") .malformedResponse
    return .thinking index 0
  else if blockType = "redacted_thinking" then
    let data ← demand .malformedResponse (readRedactedThinkingBlockStart block)
    require (data ≠ "" ∧ data.utf8ByteSize ≤ maxIgnoredReasoningBytes) .malformedResponse
    return .thinking index data.utf8ByteSize
  else throw .malformedResponse

def contentBlockStart (d : AnthropicMessagesDecoder) (value : Json) :
    Except ProviderError AnthropicMessagesDecoder := do
  require (d.state = .content ∧ d.activeBlock = none) .malformedResponse
  let (index, block) ← demand .malformedResponse (readContentBlockStart value)
  require (index = d.nextBlockIndex ∧ index < maxToolCount * 2) .malformedResponse
  let active ← startBlock index block
  return { d with activeBlock := some active }

def appendBounded (target delta : String) (maximum : Nat) : Except ProviderError String := do
  require (delta.utf8ByteSize ≤ maxDeltaBytes ∧
    target.utf8ByteSize + delta.utf8ByteSize ≤ maximum) .responseLimitExceeded
  return target ++ delta

def addIgnoredBytes (total bytes : Nat) : Except ProviderError Nat := do
  require (bytes ≤ maxDeltaBytes ∧ total + bytes ≤ maxIgnoredReasoningBytes)
    .responseLimitExceeded
  return total + bytes

/-- The active block after a delta, and the text it adds when it is one of text. -/
def applyDelta (block : ActiveBlock) (delta : Json) :
    Except ProviderError (ActiveBlock × Option String) := do
  let deltaType ← demand .malformedResponse ((delta.get "type").bind Json.asString)
  match block with
  | .text index text => do
    require (deltaType = "text_delta") .malformedResponse
    let added ← demand .malformedResponse (readTextDelta delta)
    let text ← appendBounded text added maxAccumulatedTextBytes
    return (.text index text, some added)
  | .toolUse index id name arguments => do
    require (deltaType = "input_json_delta") .malformedResponse
    let added ← demand .malformedResponse (readInputJsonDelta delta)
    let arguments ← appendBounded arguments added maxToolArgumentBytes
    return (.toolUse index id name arguments, none)
  | .thinking index bytes => do
    require (deltaType = "thinking_delta" ∨ deltaType = "signature_delta") .malformedResponse
    let added ← demand .malformedResponse
      (if deltaType = "thinking_delta" then readThinkingDelta delta else readSignatureDelta delta)
    let bytes ← addIgnoredBytes bytes added.utf8ByteSize
    return (.thinking index bytes, none)

def contentBlockDelta (d : AnthropicMessagesDecoder) (value : Json) :
    Except ProviderError (AnthropicMessagesDecoder × List TextDelta) := do
  require (d.state = .content) .malformedResponse
  let (index, delta) ← demand .malformedResponse (readContentBlockDelta value)
  let block ← demand .malformedResponse (d.activeBlock.filter fun block => block.index = index)
  let (block, added) ← applyDelta block delta
  let d := { d with activeBlock := some block }
  match added with
  | none => return (d, [])
  | some text => do
    let next ← demand .responseLimitExceeded (checkedAdd d.providerSequence 1)
    return ({ d with providerSequence := next }, [⟨d.providerSequence, index, 0, text, false⟩])

def contentItemId (d : AnthropicMessagesDecoder) (index : Nat) :
    Except ProviderError (AnthropicMessagesDecoder × String) := do
  let responseId ← demand .malformedResponse d.responseId
  let itemId := responseId ++ ":" ++ toString index
  validateIdentifier itemId maxProviderIdentifierBytes
  require (itemId ∉ d.outputItemIds) .malformedResponse
  return ({ d with outputItemIds := itemId :: d.outputItemIds }, itemId)

def isToolCall : OutputItem → Bool
  | .toolCall _ => true
  | _ => false

def finishBlock (codec : Codec) (d : AnthropicMessagesDecoder) :
    ActiveBlock → Except ProviderError AnthropicMessagesDecoder
  | .text index text =>
    if text = "" then .ok d
    else do
      let (d, itemId) ← d.contentItemId index
      return { d with output := d.output ++ [.assistantMessage ⟨itemId, none, text, false⟩] }
  | .toolUse _ id name arguments => do
    let arguments := if arguments = "" then "\x7b\x7d" else arguments
    require ((codec.parse (bytesOf arguments)).any Json.isObject ∧
      d.output.countP isToolCall < maxToolCount) .malformedResponse
    return { d with output := d.output ++ [.toolCall ⟨none, id, name, arguments, none⟩] }
  | .thinking _ _ => .ok d

def contentBlockStop (codec : Codec) (d : AnthropicMessagesDecoder) (value : Json) :
    Except ProviderError AnthropicMessagesDecoder := do
  require (d.state = .content) .malformedResponse
  let index ← demand .malformedResponse (readContentBlockStop value)
  let block ← demand .malformedResponse (d.activeBlock.filter fun block => block.index = index)
  let d ← finishBlock codec { d with activeBlock := none } block
  require (d.nextBlockIndex + 1 < 2 ^ 32) .responseLimitExceeded
  return { d with nextBlockIndex := d.nextBlockIndex + 1 }

def validateInputTokenCount (tokens maximumInputTokens : Nat) : Except ProviderError Unit :=
  require (tokens ≤ maximumInputTokens ∧ tokens ≤ maxUsageTokens) .malformedResponse

/-- `validate_delta_usage`: the uncached, cached, cache-write and all input tokens. -/
def validateDeltaUsage (d : AnthropicMessagesDecoder) (usage : DeltaUsage) :
    Except ProviderError (Nat × Nat × Nat × Nat) := do
  let uncached := usage.inputTokens.getD d.uncachedInputTokens
  let cached := usage.cacheReadInputTokens.getD d.cachedInputTokens
  let cacheWrite := usage.cacheCreationInputTokens.getD d.cacheWriteInputTokens
  require (d.uncachedInputTokens ≤ uncached ∧ d.cachedInputTokens ≤ cached ∧
    d.cacheWriteInputTokens ≤ cacheWrite ∧ noServerToolUse usage.serverToolUse) .malformedResponse
  validateInputTokenCount uncached d.maximumInputTokens
  validateInputTokenCount cached d.maximumInputTokens
  validateInputTokenCount cacheWrite d.maximumInputTokens
  let inputTokens ← checkedSum uncached cached cacheWrite
  validateInputTokenCount inputTokens d.maximumInputTokens
  return (uncached, cached, cacheWrite, inputTokens)

def messageDelta (d : AnthropicMessagesDecoder) (value : Json) :
    Except ProviderError AnthropicMessagesDecoder := do
  require (d.state = .content ∧ d.activeBlock = none) .malformedResponse
  let (delta, usage) ← demand .malformedResponse (readMessageDelta value)
  let (uncached, cached, cacheWrite, inputTokens) ← d.validateDeltaUsage usage
  require (delta.container.isNone ∧ (delta.stopDetails.isNone ∨ delta.stopReason = "refusal") ∧
    delta.stopReason ≠ "" ∧ delta.stopReason.utf8ByteSize ≤ maxProviderIdentifierBytes ∧
    (∀ sequence ∈ delta.stopSequence,
      sequence ≠ "" ∧ sequence.utf8ByteSize ≤ maxProviderIdentifierBytes) ∧
    inputTokens ≠ 0 ∧ usage.outputTokens ≠ 0 ∧ usage.outputTokens ≤ d.maximumOutputTokens ∧
    usage.outputTokens ≤ maxUsageTokens) .malformedResponse
  return { d with
    uncachedInputTokens := uncached
    cachedInputTokens := cached
    cacheWriteInputTokens := cacheWrite
    inputTokens := some inputTokens
    stopReason := some delta.stopReason
    outputTokens := some usage.outputTokens
    state := .messageDelta }

/-- `validate_ping`, and what a stop is checked for too. -/
def validateCosted (codec : Codec) (value : Json) : Except ProviderError Unit := do
  let reported ← demand .malformedResponse (readCosted value)
  require (∀ cost ∈ reported, validCost codec cost) .malformedResponse

def messageStop (codec : Codec) (d : AnthropicMessagesDecoder) (value : Json) :
    Except ProviderError AnthropicMessagesDecoder := do
  require (d.state = .messageDelta) .malformedResponse
  validateCosted codec value
  return { d with state := .messageStop }

inductive StreamEvent
  | ping | messageStart | contentBlockStart | contentBlockDelta | contentBlockStop | messageDelta
  | messageStop | error
  deriving DecidableEq

def StreamEvent.ofType : String → Option StreamEvent
  | "ping" => some .ping
  | "message_start" => some .messageStart
  | "content_block_start" => some .contentBlockStart
  | "content_block_delta" => some .contentBlockDelta
  | "content_block_stop" => some .contentBlockStop
  | "message_delta" => some .messageDelta
  | "message_stop" => some .messageStop
  | "error" => some .error
  | _ => none

def processEvent (codec : Codec) (d : AnthropicMessagesDecoder) (value : Json) :
    StreamEvent → Except ProviderError (AnthropicMessagesDecoder × List TextDelta)
  | .ping => do
    validateCosted codec value
    return (d, [])
  | .messageStart => (d.messageStart value).map (·, [])
  | .contentBlockStart => (d.contentBlockStart value).map (·, [])
  | .contentBlockDelta => d.contentBlockDelta value
  | .contentBlockStop => (d.contentBlockStop codec value).map (·, [])
  | .messageDelta => (d.messageDelta value).map (·, [])
  | .messageStop => (d.messageStop codec value).map (·, [])
  | .error => .error .providerExecutionFailed

def processRecord (codec : Codec) (d : AnthropicMessagesDecoder) (record : SseRecord) :
    Except ProviderError (AnthropicMessagesDecoder × List TextDelta) := do
  let value ← demand .malformedResponse (codec.parse record.data)
  let _ ← validateEventValue maxAccumulatedTextBytes value
  let eventType ← demand .malformedResponse ((value.get "type").bind Json.asString)
  require (record.event = some eventType) .malformedResponse
  let event ← demand .malformedResponse (StreamEvent.ofType eventType)
  d.processEvent codec value event

def checkStopReason (stopReason : String) (hasToolCalls : Bool) : Except ProviderError Unit :=
  if stopReason ∈ ["end_turn", "stop_sequence"] ∧ !hasToolCalls ∨
      stopReason = "tool_use" ∧ hasToolCalls then .ok ()
  else if stopReason ∈ ["max_tokens", "model_context_window_exceeded"] then
    .error .incompleteResponse
  else if stopReason = "refusal" then .error .providerExecutionFailed
  else .error .malformedResponse

def withPhase (phase : MessagePhase) : OutputItem → OutputItem
  | .assistantMessage message => .assistantMessage { message with phase := some phase }
  | item => item

def finish (d : AnthropicMessagesDecoder) : Except ProviderError Outcome := do
  require (d.state = .messageStop ∧ d.activeBlock = none) .incompleteResponse
  let responseId ← demand .incompleteResponse d.responseId
  let inputTokens ← demand .incompleteResponse d.inputTokens
  let outputTokens ← demand .incompleteResponse d.outputTokens
  let stopReason ← demand .incompleteResponse d.stopReason
  let hasToolCalls := d.output.any isToolCall
  checkStopReason stopReason hasToolCalls
  require (d.output ≠ []) .malformedResponse
  let totalTokens ← demand .responseLimitExceeded (checkedAdd inputTokens outputTokens)
  return ⟨responseId,
    d.output.map (withPhase (if hasToolCalls then .commentary else .finalAnswer)),
    ⟨inputTokens, d.cachedInputTokens, d.cacheWriteInputTokens, outputTokens, 0, totalTokens⟩⟩

/-- The decoder of a whole response. -/
def decoding (codec : Codec) (expectedModel : String)
    (maximumInputTokens maximumOutputTokens : Nat) : Decoding AnthropicMessagesDecoder where
  start := new expectedModel maximumInputTokens maximumOutputTokens
  process := processRecord codec
  finish := finish

end AnthropicMessagesDecoder

end Morons.Provider
