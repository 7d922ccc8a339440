import Morons.Guarantee.Usage
import Morons.Provider.Failures

/-!
# What a response is blamed for

A response fails a run as a failure of the provider, except where a decoder
checks a name of the response as one of a request: the Chat Completions decoder
with the identifiers of chunks and the identifiers and names of calls, the
Anthropic Messages decoder with those of messages, calls and texts.
-/

namespace Morons

open Attempt Provider

namespace StreamDecoder

/-- No identifier or name that a decoder checks as one of a request is refused. -/
def WellNamed (codec : Codec) (maximumInputTokens maximumOutputTokens : Nat)
    (chunks : List (List UInt8)) : StreamDecoder → Prop
  | chatCompletions expectedModel =>
    ∀ d record, (ChatCompletionsDecoder.decoding codec expectedModel maximumInputTokens
      maximumOutputTokens).Comes chunks d record → d.WellNamed codec record
  | anthropicMessages expectedModel =>
    ∀ d record, (AnthropicMessagesDecoder.decoding codec expectedModel maximumInputTokens
      maximumOutputTokens).Comes chunks d record → d.WellNamed codec record
  | responses _ | responsesNative _ | gemini => True

end StreamDecoder

/-- A stream fails with an error that tells of the response exactly when no name of it is
checked as one of a request and refused. -/
theorem failures_blame_response (codec : Codec) (maximumInputTokens maximumOutputTokens : Nat)
    (chunks : List (List UInt8)) (decoder : StreamDecoder) :
    BlamesResponse (decoder.decode codec maximumInputTokens maximumOutputTokens chunks) ↔
      decoder.WellNamed codec maximumInputTokens maximumOutputTokens chunks := by
  cases decoder with
  | responses expectedModel =>
    exact iff_of_true (ResponsesDecoder.decode_blames codec ⟨rfl, rfl⟩ chunks) trivial
  | responsesNative expectedModel =>
    exact iff_of_true (ResponsesDecoder.decode_blames codec ⟨rfl, rfl⟩ chunks) trivial
  | chatCompletions expectedModel => exact ChatCompletionsDecoder.decode_blames ..
  | anthropicMessages expectedModel => exact AnthropicMessagesDecoder.decode_blames ..
  | gemini =>
    exact iff_of_true (GeminiDecoder.decode_blames codec maximumInputTokens maximumOutputTokens
      chunks) trivial

/-- A chunk whose identifier is empty. -/
def anonymousChunk : Json :=
  .object [("id", .string ""), ("object", .string "chat.completion.chunk"),
    ("created", .natural 1), ("model", .string "model"),
    ("choices", .array [.object [("index", .natural 0),
      ("delta", .object [("role", .string "assistant"), ("content", .string "done")])]])]

/-- The chunk is taken for a request that is not valid, and so for a failure of the server. -/
theorem anonymousChunk_internal :
    (StreamDecoder.chatCompletions "model").decode (plainCodec [anonymousChunk]) 96000 32000
      [plainStream [anonymousChunk]] = .error .invalidRequest ∧
    mapProviderFailure .invalidRequest = .internal ∧
    ¬ BlamesResponse ((StreamDecoder.chatCompletions "model").decode
      (plainCodec [anonymousChunk]) 96000 32000 [plainStream [anonymousChunk]]) := by
  have hrefused : (StreamDecoder.chatCompletions "model").decode (plainCodec [anonymousChunk])
      96000 32000 [plainStream [anonymousChunk]] = .error .invalidRequest := by decide +kernel
  refine ⟨hrefused, rfl, ?_⟩
  rw [hrefused]
  simp

end Morons
