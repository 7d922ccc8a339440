import Mathlib.Data.List.AList
import Morons.Library.Runs
import Morons.Provider.Request

/-!
# Wire messages

The items of a request as the messages of three protocols.  Each encoder walks
the items once; a run of calls, and in two of the protocols a run of outputs,
becomes one message.
-/

namespace Morons.Provider

open Attempt Runs

@[ext]
structure FunctionCall where
  callId : String
  name : String
  arguments : String
  opaqueContinuation : Option String
  deriving DecidableEq

@[ext]
structure FunctionCallOutput where
  callId : String
  output : String
  deriving DecidableEq

namespace InputItem

def call? : InputItem → Option FunctionCall
  | .functionCall callId name arguments opaqueContinuation =>
    some ⟨callId, name, arguments, opaqueContinuation⟩
  | _ => none

def output? : InputItem → Option FunctionCallOutput
  | .functionCallOutput callId output => some ⟨callId, output⟩
  | _ => none

def ofCall (call : FunctionCall) : InputItem :=
  .functionCall call.callId call.name call.arguments call.opaqueContinuation

def ofOutput (output : FunctionCallOutput) : InputItem :=
  .functionCallOutput output.callId output.output

end InputItem

/-- `as_str` of a media type. -/
def mediaTypeText : ImageMediaType → String
  | .png => "image/png"
  | .jpeg => "image/jpeg"
  | .gif => "image/gif"

/-- Texts with a blank line between them, if there are any. -/
def joinParts (parts : List String) : Option String :=
  if parts.isEmpty then none else some ("\n\n".intercalate parts)

section

-- `encode_base64` is code of another package.
variable (encodeBase64 : List UInt8 → String)

/-! ## Chat Completions -/

inductive ChatWireContentPart
  | text (text : String)
  | imageUrl (url : String)
  deriving DecidableEq

inductive ChatWireMessageContent
  | text (text : String)
  | parts (parts : List ChatWireContentPart)
  deriving DecidableEq

/-- A call of the type `function`. -/
structure ChatWireToolCall where
  id : String
  name : String
  arguments : String
  deriving DecidableEq

structure ChatWireMessage where
  role : String
  content : Option ChatWireMessageContent
  toolCalls : Option (List ChatWireToolCall) := none
  toolCallId : Option String := none
  reasoningContent : Option String := none
  deriving DecidableEq

def chatRole : MessageRole → String
  | .developer => "system"
  | .user => "user"
  | .assistant => "assistant"

def chatPart : ContentPart → ChatWireContentPart
  | .text text => .text text
  | .image image =>
    .imageUrl ("data:" ++ mediaTypeText image.mediaType ++ ";base64," ++ encodeBase64 image.bytes)

def chatToolCall (call : FunctionCall) : ChatWireToolCall := ⟨call.callId, call.name, call.arguments⟩

/-- A round of the loop of `chat_messages`. -/
def chatRound (requiresReasoningContent : Bool) (messages : List ChatWireMessage) :
    InputItem → (rest : List InputItem) → Except ProviderError (List ChatWireMessage × Rest rest)
  | .message role text _, rest =>
    let reasoning := if role = .assistant ∧ requiresReasoningContent then some "" else none
    .ok (messages ++ [{ role := chatRole role, content := some (.text text),
                        reasoningContent := reasoning }], .all rest)
  | .multimodalMessage _ parts _, rest =>
    .ok (messages ++ [{ role := "user",
                        content := some (.parts (parts.map (chatPart encodeBase64))) }], .all rest)
  | .functionCall callId name arguments opaqueContinuation, rest =>
    let (calls, left) := leading InputItem.call? rest
    let calls := ⟨callId, name, arguments, opaqueContinuation⟩ :: calls
    .ok (messages ++ [{ role := "assistant", content := none,
                        toolCalls := some (calls.map chatToolCall),
                        reasoningContent := if requiresReasoningContent then some "" else none }],
      left)
  | .functionCallOutput callId output, rest =>
    .ok (messages ++ [{ role := "tool", content := some (.text output),
                        toolCallId := some callId }], .all rest)
  | .reasoning _, _ => .error .invalidRequest

def chatMessages (input : List InputItem) (requiresReasoningContent : Bool) :
    Except ProviderError (List ChatWireMessage) :=
  walk (chatRound encodeBase64 requiresReasoningContent) [] input

/-! ## Anthropic Messages -/

inductive AnthropicWireContent
  | text (text : String)
  /-- An image of the source type `base64`. -/
  | image (mediaType data : String)
  | toolUse (id name : String) (input : Json)
  | toolResult (toolUseId content : String)

structure AnthropicWireMessage where
  role : String
  content : List AnthropicWireContent

structure AnthropicEncoding where
  systemParts : List String := []
  messages : List AnthropicWireMessage := []

def anthropicPart : ContentPart → AnthropicWireContent
  | .text text => .text text
  | .image image => .image (mediaTypeText image.mediaType) (encodeBase64 image.bytes)

def appendAnthropicToolUse (codec : Codec) (content : List AnthropicWireContent)
    (call : FunctionCall) : Except ProviderError (List AnthropicWireContent) := do
  let arguments ← demand .invalidRequest (codec.parse (bytesOf call.arguments))
  return content ++ [.toolUse call.callId call.name arguments]

def appendAnthropicToolUses (codec : Codec) (content : List AnthropicWireContent)
    (calls : List FunctionCall) : Except ProviderError (List AnthropicWireContent) :=
  sweep (appendAnthropicToolUse codec) content calls

/-- A round of the loop of `anthropic_messages`. -/
def anthropicRound (codec : Codec) (s : AnthropicEncoding) :
    InputItem → (rest : List InputItem) → Except ProviderError (AnthropicEncoding × Rest rest)
  | .message .developer text _, rest => do
    require s.messages.isEmpty .invalidRequest
    return ({ s with systemParts := s.systemParts ++ [text] }, .all rest)
  | .message .user text _, rest =>
    .ok ({ s with messages := s.messages ++ [⟨"user", [.text text]⟩] }, .all rest)
  | .message .assistant text _, rest => do
    let (calls, left) := leading InputItem.call? rest
    let content ← appendAnthropicToolUses codec [.text text] calls
    return ({ s with messages := s.messages ++ [⟨"assistant", content⟩] }, left)
  | .multimodalMessage _ parts _, rest =>
    let content := parts.map (anthropicPart encodeBase64)
    .ok ({ s with messages := s.messages ++ [⟨"user", content⟩] }, .all rest)
  | .functionCall callId name arguments opaqueContinuation, rest => do
    let (calls, left) := leading InputItem.call? rest
    let content ← appendAnthropicToolUses codec []
      (⟨callId, name, arguments, opaqueContinuation⟩ :: calls)
    return ({ s with messages := s.messages ++ [⟨"assistant", content⟩] }, left)
  | .functionCallOutput callId output, rest =>
    let (outputs, left) := leading InputItem.output? rest
    let content := (⟨callId, output⟩ :: outputs).map fun (output : FunctionCallOutput) =>
      .toolResult output.callId output.output
    .ok ({ s with messages := s.messages ++ [⟨"user", content⟩] }, left)
  | .reasoning _, _ => .error .invalidRequest

def anthropicMessages (codec : Codec) (input : List InputItem) :
    Except ProviderError (Option String × List AnthropicWireMessage) := do
  let s ← walk (anthropicRound encodeBase64 codec) {} input
  require (!s.messages.isEmpty) .invalidRequest
  return (joinParts s.systemParts, s.messages)

/-! ## Gemini -/

inductive GeminiWirePart
  | text (text : String)
  | inlineData (mimeType data : String)
  | functionCall (name : String) (args : Json) (thoughtSignature : Option String)
  /-- The response names its function twice. -/
  | functionResponse (name bodyName content : String)

structure GeminiWireContent where
  role : String
  parts : List GeminiWirePart

structure GeminiEncoding where
  systemParts : List String := []
  contents : List GeminiWireContent := []
  callNames : AList fun _ : String => String := ∅

def geminiPart : ContentPart → GeminiWirePart
  | .text text => .text text
  | .image image => .inlineData (mediaTypeText image.mediaType) (encodeBase64 image.bytes)

abbrev GeminiCalls := AList (fun _ : String => String) × List GeminiWirePart

def appendGeminiFunctionCall (codec : Codec) (s : GeminiCalls) (call : FunctionCall) :
    Except ProviderError GeminiCalls := do
  require (call.callId ∉ s.1) .invalidRequest
  let args ← demand .invalidRequest (codec.parse (bytesOf call.arguments))
  return (s.1.insert call.callId call.name,
    s.2 ++ [.functionCall call.name args call.opaqueContinuation])

def appendGeminiFunctionCalls (codec : Codec) (s : GeminiCalls) (calls : List FunctionCall) :
    Except ProviderError GeminiCalls :=
  sweep (appendGeminiFunctionCall codec) s calls

/-- A response to a call that has been named. -/
def appendGeminiResponse (callNames : AList fun _ : String => String) (parts : List GeminiWirePart)
    (output : FunctionCallOutput) : Except ProviderError (List GeminiWirePart) := do
  let name ← demand .invalidRequest (callNames.lookup output.callId)
  return parts ++ [.functionResponse name name output.output]

/-- A round of the loop of `gemini_contents`. -/
def geminiRound (codec : Codec) (s : GeminiEncoding) :
    InputItem → (rest : List InputItem) → Except ProviderError (GeminiEncoding × Rest rest)
  | .message .developer text _, rest => do
    require s.contents.isEmpty .invalidRequest
    return ({ s with systemParts := s.systemParts ++ [text] }, .all rest)
  | .message .user text _, rest =>
    .ok ({ s with contents := s.contents ++ [⟨"user", [.text text]⟩] }, .all rest)
  | .message .assistant text _, rest => do
    let (calls, left) := leading InputItem.call? rest
    let (callNames, parts) ← appendGeminiFunctionCalls codec (s.callNames, [.text text]) calls
    return ({ s with contents := s.contents ++ [⟨"model", parts⟩], callNames := callNames }, left)
  | .multimodalMessage _ parts _, rest =>
    let parts := parts.map (geminiPart encodeBase64)
    .ok ({ s with contents := s.contents ++ [⟨"user", parts⟩] }, .all rest)
  | .functionCall callId name arguments opaqueContinuation, rest => do
    let (calls, left) := leading InputItem.call? rest
    let (callNames, parts) ← appendGeminiFunctionCalls codec (s.callNames, [])
      (⟨callId, name, arguments, opaqueContinuation⟩ :: calls)
    return ({ s with contents := s.contents ++ [⟨"model", parts⟩], callNames := callNames }, left)
  | .functionCallOutput callId output, rest => do
    let (outputs, left) := leading InputItem.output? rest
    let parts ← sweep (appendGeminiResponse s.callNames) [] (⟨callId, output⟩ :: outputs)
    return ({ s with contents := s.contents ++ [⟨"user", parts⟩] }, left)
  | .reasoning _, _ => .error .invalidRequest

def geminiContents (codec : Codec) (input : List InputItem) :
    Except ProviderError (Option String × List GeminiWireContent) := do
  let s ← walk (geminiRound encodeBase64 codec) {} input
  require (!s.contents.isEmpty) .invalidRequest
  return (joinParts s.systemParts, s.contents)

end

end Morons.Provider
