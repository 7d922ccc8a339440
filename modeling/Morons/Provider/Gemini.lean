import Morons.Provider.Sse

/-!
# The Gemini stream

`GeminiDecoder` joins the parts of one candidate.  Its records are not in any
order but one after the other; usage comes in components, of which the prompt
may not change and the others only grow.
-/

namespace Morons.Provider

open Attempt

namespace Gemini

def maxSafetyRatings : Nat := 32

/-! ## Wire records -/

structure GeminiSafetyRating where
  category : String
  probability : String
  blocked : Option Bool

def GeminiSafetyRating.read (value : Json) : Option GeminiSafetyRating := do
  let r ← Json.Shape.read { fields := ["category", "probability", "blocked"] } value
  return ⟨← r.required "category" Json.asString, ← r.required "probability" Json.asString,
    ← r.optional "blocked" Json.asBool⟩

structure GeminiPromptFeedback where
  blockReason : Option String
  blockReasonMessage : Option String
  safetyRatings : Option (List GeminiSafetyRating)

def GeminiPromptFeedback.read (value : Json) : Option GeminiPromptFeedback := do
  let r ← Json.Shape.read
    { fields := ["blockReason", "blockReasonMessage", "safetyRatings"] } value
  return ⟨← r.optional "blockReason" Json.asString,
    ← r.optional "blockReasonMessage" Json.asString,
    ← r.optional "safetyRatings" (Json.asArray GeminiSafetyRating.read)⟩

/-- `GeminiContent`: the role and the parts. -/
def readContent (value : Json) : Option (Option String × List Json) := do
  let r ← Json.Shape.read { fields := ["role", "parts"] } value
  return (← r.optional "role" Json.asString, ← r.required "parts" (Json.asArray some))

structure GeminiCandidate where
  content : Option (Option String × List Json)
  finishReason : Option String
  finishMessage : Option String
  safetyRatings : Option (List GeminiSafetyRating)
  citationMetadata : Option Json
  tokenCount : Option Nat
  groundingAttributions : Option (List Json)
  groundingMetadata : Option Json
  avgLogprobs : Option Rat
  logprobsResult : Option Json
  urlContextMetadata : Option Json
  index : Option Nat

def GeminiCandidate.read (value : Json) : Option GeminiCandidate := do
  let r ← Json.Shape.read
    { fields := ["content", "finishReason", "finishMessage", "safetyRatings", "citationMetadata",
        "tokenCount", "groundingAttributions", "groundingMetadata", "avgLogprobs",
        "logprobsResult", "urlContextMetadata", "index"] } value
  return ⟨← r.optional "content" readContent, ← r.optional "finishReason" Json.asString,
    ← r.optional "finishMessage" Json.asString,
    ← r.optional "safetyRatings" (Json.asArray GeminiSafetyRating.read),
    ← r.optional "citationMetadata" some, ← r.optional "tokenCount" Json.asU64,
    ← r.optional "groundingAttributions" (Json.asArray some),
    ← r.optional "groundingMetadata" some, ← r.optional "avgLogprobs" Json.asNumber,
    ← r.optional "logprobsResult" some, ← r.optional "urlContextMetadata" some,
    ← r.optional "index" Json.asU32⟩

/-- `GeminiModalityTokenCount`: the modality and its tokens. -/
def readModalityTokenCount (value : Json) : Option (String × Nat) := do
  let r ← Json.Shape.read { fields := ["modality", "tokenCount"] } value
  return (← r.required "modality" Json.asString, ← r.required "tokenCount" Json.asU64)

structure GeminiUsage where
  cachedContentTokenCount : Option Nat
  thoughtsTokenCount : Option Nat
  promptTokenCount : Option Nat
  candidatesTokenCount : Option Nat
  totalTokenCount : Option Nat
  promptTokensDetails : Option (List (String × Nat))
  cacheTokensDetails : Option (List (String × Nat))
  candidatesTokensDetails : Option (List (String × Nat))
  toolUsePromptTokenCount : Option Nat
  toolUsePromptTokensDetails : Option (List (String × Nat))
  serviceTier : Option String

def GeminiUsage.read (value : Json) : Option GeminiUsage := do
  let r ← Json.Shape.read
    { fields := ["cachedContentTokenCount", "thoughtsTokenCount", "promptTokenCount",
        "candidatesTokenCount", "totalTokenCount", "promptTokensDetails", "cacheTokensDetails",
        "candidatesTokensDetails", "toolUsePromptTokenCount", "toolUsePromptTokensDetails",
        "serviceTier"] } value
  let details := fun name => r.optional name (Json.asArray readModalityTokenCount)
  return ⟨← r.optional "cachedContentTokenCount" Json.asU64,
    ← r.optional "thoughtsTokenCount" Json.asU64, ← r.optional "promptTokenCount" Json.asU64,
    ← r.optional "candidatesTokenCount" Json.asU64, ← r.optional "totalTokenCount" Json.asU64,
    ← details "promptTokensDetails", ← details "cacheTokensDetails",
    ← details "candidatesTokensDetails", ← r.optional "toolUsePromptTokenCount" Json.asU64,
    ← details "toolUsePromptTokensDetails", ← r.optional "serviceTier" Json.asString⟩

structure GeminiEvent where
  candidates : Option (List GeminiCandidate)
  promptFeedback : Option GeminiPromptFeedback
  usageMetadata : Option GeminiUsage
  modelVersion : Option String
  responseId : Option String
  createTime : Option String

def GeminiEvent.read (value : Json) : Option GeminiEvent := do
  let r ← Json.Shape.read
    { fields := ["candidates", "promptFeedback", "usageMetadata", "modelVersion", "responseId",
        "createTime"] } value
  return ⟨← r.optional "candidates" (Json.asArray GeminiCandidate.read),
    ← r.optional "promptFeedback" GeminiPromptFeedback.read,
    ← r.optional "usageMetadata" GeminiUsage.read, ← r.optional "modelVersion" Json.asString,
    ← r.optional "responseId" Json.asString, ← r.optional "createTime" Json.asString⟩

structure GeminiTextPart where
  text : String
  thought : Option Bool
  thoughtSignature : Option String

def GeminiTextPart.read (value : Json) : Option GeminiTextPart := do
  let r ← Json.Shape.read { fields := ["text", "thought", "thoughtSignature"] } value
  return ⟨← r.required "text" Json.asString, ← r.optional "thought" Json.asBool,
    ← r.optional "thoughtSignature" Json.asString⟩

structure GeminiFunctionCall where
  id : Option String
  name : String
  args : Json

def GeminiFunctionCall.read (value : Json) : Option GeminiFunctionCall := do
  let r ← Json.Shape.read { fields := ["id", "name", "args"] } value
  return ⟨← r.optional "id" Json.asString, ← r.required "name" Json.asString,
    ← r.required "args" some⟩

/-- `GeminiFunctionCallPart`: the call and its thought signature. -/
def readFunctionCallPart (value : Json) : Option (GeminiFunctionCall × Option String) := do
  let r ← Json.Shape.read { fields := ["functionCall", "thoughtSignature"] } value
  return (← r.required "functionCall" GeminiFunctionCall.read,
    ← r.optional "thoughtSignature" Json.asString)

/-! ## Usage -/

structure GeminiUsageAccumulator where
  cachedContentTokenCount : Option Nat := none
  thoughtsTokenCount : Option Nat := none
  promptTokenCount : Option Nat := none
  candidatesTokenCount : Option Nat := none
  totalTokenCount : Option Nat := none
  toolUsePromptTokenCount : Option Nat := none
  deriving DecidableEq

def mergeStable : Option Nat → Option Nat → Except ProviderError (Option Nat)
  | some current, some next => do
    require (current = next) .malformedResponse
    return some current
  | none, some next => .ok (some next)
  | current, none => .ok current

def mergeCumulative : Option Nat → Option Nat → Except ProviderError (Option Nat)
  | some current, some next => do
    require (current ≤ next) .malformedResponse
    return some next
  | none, some next => .ok (some next)
  | current, none => .ok current

def GeminiUsageAccumulator.merge (a : GeminiUsageAccumulator) (usage : GeminiUsage) :
    Except ProviderError GeminiUsageAccumulator := do
  let prompt ← mergeStable a.promptTokenCount usage.promptTokenCount
  let cached ← mergeStable a.cachedContentTokenCount usage.cachedContentTokenCount
  let candidates ← mergeCumulative a.candidatesTokenCount usage.candidatesTokenCount
  let thoughts ← mergeCumulative a.thoughtsTokenCount usage.thoughtsTokenCount
  let total ← mergeCumulative a.totalTokenCount usage.totalTokenCount
  let toolUse ← mergeCumulative a.toolUsePromptTokenCount usage.toolUsePromptTokenCount
  require (∀ value ∈ [cached, thoughts, prompt, candidates, total, toolUse],
    ∀ tokens ∈ value, tokens ≤ maxUsageTokens) .responseLimitExceeded
  require (∀ c ∈ cached, ∀ p ∈ prompt, c ≤ p) .malformedResponse
  return ⟨cached, thoughts, prompt, candidates, total, toolUse⟩

def validateUsageDetails (details : Option (List (String × Nat))) : Except ProviderError Unit :=
  require (∀ counts ∈ details, counts.length ≤ 10000 ∧ ∀ detail ∈ counts,
    detail.1 ≠ "" ∧ detail.1.utf8ByteSize ≤ maxProviderIdentifierBytes ∧
      detail.2 ≤ maxUsageTokens) .malformedResponse

end Gemini

/-! ## The decoder -/

open Gemini in
structure GeminiDecoder where
  maximumInputTokens : Nat
  maximumOutputTokens : Nat
  responseId : Option String := none
  modelVersion : Option String := none
  createTime : Option String := none
  text : String := ""
  ignoredReasoningBytes : Nat := 0
  toolCalls : List ToolCall := []
  finishReason : Option String := none
  usageComponents : GeminiUsageAccumulator := {}
  usage : Option ProviderUsage := none
  providerSequence : Nat := 0
  doneMarkerSeen : Bool := false
  costTrailerSeen : Bool := false

namespace GeminiDecoder

open Gemini

def new (maximumInputTokens maximumOutputTokens : Nat) : GeminiDecoder :=
  { maximumInputTokens, maximumOutputTokens }

/-- `YYYY-MM-DDThh:mm:ss` and `Z`, with a fraction of up to nine digits between. -/
def isValidProtobufTimestamp (value : String) : Bool :=
  let chars := value.toList
  let at' := fun i => chars.getD i ' '
  let pair := fun i => ((at' i).toNat - 48) * 10 + ((at' (i + 1)).toNat - 48)
  let fraction := (chars.drop 20).dropLast
  decide (chars.length = value.utf8ByteSize) && decide (20 ≤ chars.length) &&
    decide (chars.length ≤ 30) && at' 4 = '-' && at' 7 = '-' && at' 10 = 'T' && at' 13 = ':' &&
    at' 16 = ':' && decide (chars.getLast? = some 'Z') &&
    ([0, 1, 2, 3, 5, 6, 8, 9, 11, 12, 14, 15, 17, 18].all fun i => (at' i).isDigit) &&
    (decide (chars.length = 20) ||
      (decide (chars.length ≠ 21) && at' 19 = '.' && fraction.all Char.isDigit)) &&
    decide (1 ≤ pair 5) && decide (pair 5 ≤ 12) && decide (1 ≤ pair 8) && decide (pair 8 ≤ 31) &&
    decide (pair 11 ≤ 23) && decide (pair 14 ≤ 59) && decide (pair 17 ≤ 59)

/-- A name that is told once, or again as it was. -/
def settle (current next : Option String) (valid : String → Bool) :
    Except ProviderError (Option String) :=
  match next with
  | none => .ok current
  | some name => do
    require (valid name ∧ ∀ expected ∈ current, expected = name) .malformedResponse
    return some name

def validateIdentity (d : GeminiDecoder) (responseId modelVersion createTime : Option String) :
    Except ProviderError GeminiDecoder := do
  let identifier := fun name => validIdentifier name maxProviderIdentifierBytes
  let responseId ← settle d.responseId responseId identifier
  let modelVersion ← settle d.modelVersion modelVersion identifier
  let createTime ← settle d.createTime createTime isValidProtobufTimestamp
  return { d with responseId := responseId, modelVersion := modelVersion, createTime := createTime }

def safetyCategories : List String :=
  ["HARM_CATEGORY_UNSPECIFIED", "HARM_CATEGORY_HARASSMENT", "HARM_CATEGORY_HATE_SPEECH",
    "HARM_CATEGORY_SEXUALLY_EXPLICIT", "HARM_CATEGORY_DANGEROUS_CONTENT",
    "HARM_CATEGORY_CIVIC_INTEGRITY", "HARM_CATEGORY_JAILBREAK"]

def safetyProbabilities : List String :=
  ["HARM_PROBABILITY_UNSPECIFIED", "NEGLIGIBLE", "LOW", "MEDIUM", "HIGH"]

def checkRatings : List String → List GeminiSafetyRating → Except ProviderError Unit
  | _, [] => .ok ()
  | categories, rating :: rest => do
    require (rating.category ∈ safetyCategories ∧ rating.probability ∈ safetyProbabilities ∧
      rating.category ∉ categories) .malformedResponse
    require (rating.blocked ≠ some true) .providerExecutionFailed
    checkRatings (rating.category :: categories) rest

def validateSafetyRatings : Option (List GeminiSafetyRating) → Except ProviderError Unit
  | none => .ok ()
  | some ratings => do
    require (ratings.length ≤ maxSafetyRatings) .responseLimitExceeded
    checkRatings [] ratings

def validatePromptFeedback : Option GeminiPromptFeedback → Except ProviderError Unit
  | none => .ok ()
  | some feedback => do
    validateSafetyRatings feedback.safetyRatings
    require (feedback.blockReason = none ∧ feedback.blockReasonMessage = none)
      .providerExecutionFailed

/-- A signature is neither empty nor too long. -/
def boundedSignature (signature : Option String) : Bool :=
  signature.all fun text =>
    !text.isEmpty && decide (text.utf8ByteSize ≤ maxIgnoredReasoningBytes)

def processText (d : GeminiDecoder) (part : GeminiTextPart) :
    Except ProviderError (GeminiDecoder × List TextDelta) := do
  require (part.text.utf8ByteSize ≤ maxDeltaBytes ∧ boundedSignature part.thoughtSignature)
    .responseLimitExceeded
  let thought := part.thought.getD false
  let ignored := d.ignoredReasoningBytes + (if thought then part.text.utf8ByteSize else 0) +
    ((part.thoughtSignature.map String.utf8ByteSize).getD 0)
  require (ignored ≤ maxIgnoredReasoningBytes) .responseLimitExceeded
  let d := { d with ignoredReasoningBytes := ignored }
  if thought ∨ part.text = "" then return (d, [])
  require (d.text.utf8ByteSize + part.text.utf8ByteSize ≤ maxAccumulatedTextBytes)
    .responseLimitExceeded
  let next ← demand .responseLimitExceeded (checkedAdd d.providerSequence 1)
  return ({ d with text := d.text ++ part.text, providerSequence := next },
    [⟨d.providerSequence, 0, 0, part.text, false⟩])

def geminiCallId (codec : Codec) (responseId : String) (index : Nat) : String :=
  "gemini_call_" ++ codec.callDigest responseId index

def processFunctionCall (codec : Codec) (d : GeminiDecoder) (call : GeminiFunctionCall)
    (thoughtSignature : Option String) : Except ProviderError GeminiDecoder := do
  validateResponseToolName call.name
  require ((∀ id ∈ call.id, validIdentifier id maxProviderCallIdBytes) ∧
    boundedSignature thoughtSignature ∧ call.args.isObject) .malformedResponse
  let arguments := codec.encode call.args
  require (arguments.utf8ByteSize ≤ maxToolArgumentBytes ∧ d.toolCalls.length < maxToolCount)
    .responseLimitExceeded
  let responseId ← demand .malformedResponse d.responseId
  let providerCallId := geminiCallId codec responseId d.toolCalls.length
  validateResponseIdentifier providerCallId maxProviderCallIdBytes
  return { d with
    toolCalls := d.toolCalls ++ [⟨none, providerCallId, call.name, arguments, thoughtSignature⟩] }

def processPart (codec : Codec) (d : GeminiDecoder) (part : Json) :
    Except ProviderError (GeminiDecoder × List TextDelta) := do
  require part.isObject .malformedResponse
  if (part.get "text").isSome then
    let text ← demand .malformedResponse (GeminiTextPart.read part)
    d.processText text
  else if (part.get "functionCall").isSome then
    let (call, signature) ← demand .malformedResponse (readFunctionCallPart part)
    let d ← d.processFunctionCall codec call signature
    return (d, [])
  else throw .malformedResponse

def recordFinish (d : GeminiDecoder) : Option String → Except ProviderError GeminiDecoder
  | none => .ok d
  | some reason => do
    require (reason ≠ "" ∧ reason.utf8ByteSize ≤ maxProviderIdentifierBytes) .malformedResponse
    return { d with finishReason := some reason }

def processCandidate (codec : Codec) (d : GeminiDecoder) (candidate : GeminiCandidate) :
    Except ProviderError (GeminiDecoder × List TextDelta) := do
  require (d.finishReason = none ∧ (∀ index ∈ candidate.index, index = 0) ∧
    (∀ tokens ∈ candidate.tokenCount,
      tokens ≤ d.maximumOutputTokens ∧ tokens ≤ maxUsageTokens) ∧
    (∀ message ∈ candidate.finishMessage, message ≠ "" ∧ message.utf8ByteSize ≤ maxDeltaBytes) ∧
    (candidate.finishMessage = none ∨ candidate.finishReason ≠ none) ∧
    candidate.citationMetadata.isNone ∧
    (∀ items ∈ candidate.groundingAttributions, items.isEmpty) ∧
    candidate.groundingMetadata.isNone ∧ candidate.logprobsResult.isNone ∧
    candidate.urlContextMetadata.isNone) .malformedResponse
  validateSafetyRatings candidate.safetyRatings
  let d ← d.recordFinish candidate.finishReason
  match candidate.content with
  | none => return (d, [])
  | some (role, parts) => do
    require (role = some "model" ∧ parts.length ≤ maxToolCount * 2 + 1) .malformedResponse
    Chunked.processAll (processPart codec) d parts

/-- The usage that the components make once the prompt, the candidates and the
total are known. -/
def usageOf (d : GeminiDecoder) (a : GeminiUsageAccumulator) :
    Except ProviderError (Option ProviderUsage) :=
  match a.promptTokenCount, a.candidatesTokenCount, a.totalTokenCount with
  | some inputTokens, some visibleOutputTokens, some reportedTotalTokens => do
    let reasoning := a.thoughtsTokenCount.getD 0
    let outputTokens ← demand .responseLimitExceeded (checkedAdd visibleOutputTokens reasoning)
    let cached := a.cachedContentTokenCount.getD 0
    let totalTokens ← demand .responseLimitExceeded (checkedAdd inputTokens outputTokens)
    require (cached ≤ inputTokens ∧ reportedTotalTokens = totalTokens ∧
      inputTokens ≤ d.maximumInputTokens ∧ outputTokens ≤ d.maximumOutputTokens ∧
      totalTokens ≤ maxUsageTokens ∧ ∀ tokens ∈ a.toolUsePromptTokenCount, tokens ≤ inputTokens)
      .malformedResponse
    return some ⟨inputTokens, cached, 0, outputTokens, reasoning, totalTokens⟩
  | _, _, _ => .ok none

def recordUsage (d : GeminiDecoder) : Option GeminiUsage → Except ProviderError GeminiDecoder
  | none => .ok d
  | some usage => do
    require (∀ tier ∈ usage.serviceTier, tier = "standard") .malformedResponse
    validateUsageDetails usage.promptTokensDetails
    validateUsageDetails usage.cacheTokensDetails
    validateUsageDetails usage.candidatesTokensDetails
    validateUsageDetails usage.toolUsePromptTokensDetails
    let components ← d.usageComponents.merge usage
    let usage ← d.usageOf components
    return { d with usageComponents := components, usage := usage.or d.usage }

/-- `validate_ping_value`. -/
def validatePingValue (codec : Codec) (value : Json) : Except ProviderError Unit :=
  match value with
  | .object members => do
    require (members.length = 2 ∧ (∀ m ∈ members, m.1 = "type" ∨ m.1 = "cost") ∧
      ∃ cost ∈ value.get "cost", validCost codec cost) .malformedResponse
  | _ => .error .malformedResponse

def processEvent (codec : Codec) (d : GeminiDecoder) (event : GeminiEvent) :
    Except ProviderError (GeminiDecoder × List TextDelta) := do
  require (event.candidates.isSome ∨ event.promptFeedback.isSome ∨ event.usageMetadata.isSome ∨
    event.modelVersion.isSome ∨ event.responseId.isSome) .malformedResponse
  let d ← d.validateIdentity event.responseId event.modelVersion event.createTime
  validatePromptFeedback event.promptFeedback
  let d ← d.recordUsage event.usageMetadata
  match event.candidates with
  | none | some [] => return (d, [])
  | some [candidate] => d.processCandidate codec candidate
  | some _ => throw .malformedResponse

def processRecord (codec : Codec) (d : GeminiDecoder) (record : SseRecord) :
    Except ProviderError (GeminiDecoder × List TextDelta) := do
  require (record.event = none ∧ d.doneMarkerSeen = false ∧ d.costTrailerSeen = false)
    .malformedResponse
  if record.data = bytesOf "[DONE]" then
    require (d.finishReason.isSome ∧ d.usage.isSome) .incompleteResponse
    return ({ d with doneMarkerSeen := true }, [])
  let value ← demand .malformedResponse (codec.parse record.data)
  let _ ← validateEventValue maxDeltaBytes value
  if (value.get "type").bind Json.asString = some "ping" then
    require (d.finishReason.isSome ∧ d.usage.isSome) .malformedResponse
    validatePingValue codec value
    return ({ d with costTrailerSeen := true }, [])
  let event ← demand .malformedResponse (GeminiEvent.read value)
  d.processEvent codec event

def checkFinishReason (finishReason : String) : Except ProviderError Unit :=
  if finishReason = "STOP" then .ok ()
  else if finishReason = "MAX_TOKENS" then .error .incompleteResponse
  else if finishReason ∈ ["SAFETY", "RECITATION", "LANGUAGE", "BLOCKLIST", "PROHIBITED_CONTENT",
      "SPII", "IMAGE_SAFETY", "IMAGE_PROHIBITED_CONTENT", "NO_IMAGE", "IMAGE_RECITATION",
      "MALFORMED_FUNCTION_CALL", "UNEXPECTED_TOOL_CALL", "TOO_MANY_TOOL_CALLS", "IMAGE_OTHER",
      "OTHER", "FINISH_REASON_UNSPECIFIED"] then .error .providerExecutionFailed
  else .error .malformedResponse

def finish (d : GeminiDecoder) : Except ProviderError Outcome := do
  let responseId ← demand .incompleteResponse d.responseId
  let usage ← demand .incompleteResponse d.usage
  let finishReason ← demand .incompleteResponse d.finishReason
  checkFinishReason finishReason
  require (d.text ≠ "" ∨ d.toolCalls ≠ []) .malformedResponse
  let message : List OutputItem := if d.text = "" then [] else
    [.assistantMessage ⟨responseId, some (if d.toolCalls = [] then .finalAnswer else .commentary),
      d.text, false⟩]
  return ⟨responseId, message ++ d.toolCalls.map .toolCall, usage⟩

/-- The decoder of a whole response. -/
def decoding (codec : Codec) (maximumInputTokens maximumOutputTokens : Nat) :
    Decoding GeminiDecoder where
  start := new maximumInputTokens maximumOutputTokens
  process := processRecord codec
  finish := finish

end GeminiDecoder

end Morons.Provider
