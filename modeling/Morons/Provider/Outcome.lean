import Mathlib.Data.List.AList
import Morons.Library.Attempt
import Morons.Library.Json
import Morons.Store

/-!
# Provider outcomes

What a stream decoder returns, the errors it fails with, and the checks that the
decoders and the request encoder share.
-/

namespace Morons.Provider

open Attempt

inductive ProviderError
  | invalidRequest | unsupportedModel | dataUseRestricted | credentialGenerationChanged
  | credentialNotConfigured | credentialReauthenticationRequired | credentialStoreUnavailable
  | transport | responseHeaderTimeout | streamInactivityTimeout | totalTimeout | cancelled
  | redirectDenied | unexpectedContentType | authenticationOrEntitlement | rateLimited
  | unavailable | requestRejected | contextWindowRejected | providerExecutionFailed
  | malformedCatalog | malformedResponse | responseLimitExceeded | incompleteResponse
  deriving DecidableEq

inductive MessagePhase
  | commentary | finalAnswer
  deriving DecidableEq

structure AssistantMessage where
  providerItemId : String
  phase : Option MessagePhase
  text : String
  refusal : Bool
  deriving DecidableEq

structure ToolCall where
  providerItemId : Option String
  providerCallId : String
  name : String
  arguments : String
  opaqueContinuation : Option String
  deriving DecidableEq

structure Reasoning where
  providerItemId : String
  summaries : List String
  encryptedContent : Option String
  deriving DecidableEq

inductive OutputItem
  | assistantMessage (message : AssistantMessage)
  | reasoning (item : Reasoning)
  | toolCall (call : ToolCall)
  deriving DecidableEq

structure Outcome where
  providerResponseId : String
  output : List OutputItem
  usage : ProviderUsage
  deriving DecidableEq

/-- The one kind of stream event. -/
structure TextDelta where
  providerSequence : Nat
  outputIndex : Nat
  contentIndex : Nat
  delta : String
  refusal : Bool
  deriving DecidableEq

/-- The parsing and printing of JSON and of decimal fractions, and the digest of
a call identifier: code of other packages. -/
structure Codec where
  /-- `parse_strict_value`. -/
  parse : List UInt8 → Option Json
  /-- `serde_json::to_string`. -/
  encode : Json → String
  /-- A text parses as a number of `0.0..=1_000_000.0`. -/
  costText : String → Bool
  /-- The first half of a digest of a response identifier and an index, in hexadecimal digits. -/
  callDigest : String → Nat → String

/-! ## Limits -/

def maxUsageTokens : Nat := 10000000
def maxProviderIdentifierBytes : Nat := 128
def maxProviderCallIdBytes : Nat := 128
def maxToolNameBytes : Nat := 64
def maxToolCount : Nat := 64
def maxToolArgumentBytes : Nat := 256 * 1024
def maxDeltaBytes : Nat := 64 * 1024
def maxAccumulatedTextBytes : Nat := 1024 * 1024
def maxIgnoredReasoningBytes : Nat := 1024 * 1024

def maxEventNodes : Nat := 100000

/-- The bounds on an event that the decoders share; the strings differ. -/
def eventBounds (stringBytes : Nat) : Json.Bounds where
  depth := 32
  nodes := maxEventNodes
  items := 10000
  fields := 256
  keyBytes := 128
  stringBytes := stringBytes

/-- `validate_event_value` of a whole event, with the number of its nodes. -/
def validateEventValue (stringBytes : Nat) (value : Json) : Except ProviderError Nat :=
  demand .responseLimitExceeded (value.count (eventBounds stringBytes) 0 0)

def bytesOf (text : String) : List UInt8 := text.toUTF8.toList

theorem toList_loop (bytes : ByteArray) (start : Nat) (before : List UInt8) :
    ByteArray.toList.loop bytes start before = before.reverse ++ bytes.data.toList.drop start := by
  fun_induction ByteArray.toList.loop bytes start before with
  | case1 start before hmore ih =>
    have hlength : start < bytes.data.toList.length := by simpa using hmore
    rw [ih, List.drop_eq_getElem_cons hlength]
    simp [ByteArray.get!, hmore]
  | case2 start before hend =>
    rw [List.drop_eq_nil_of_le (by simpa using hend), List.append_nil]

theorem bytesOf_append (a b : String) : bytesOf (a ++ b) = bytesOf a ++ bytesOf b := by
  simp only [bytesOf, ByteArray.toList, toList_loop, List.reverse_nil, List.nil_append,
    List.drop_zero, String.toUTF8, String.toByteArray_append, ByteArray.data_append,
    Array.toList_append]

/-- A byte of `0x21..=0x7e`. -/
def isGraphic (c : Char) : Bool := decide (0x21 ≤ c.toNat) && decide (c.toNat ≤ 0x7e)

def validIdentifier (value : String) (maximumBytes : Nat) : Bool :=
  !value.isEmpty && decide (value.utf8ByteSize ≤ maximumBytes) && value.toList.all isGraphic

def validateIdentifier (value : String) (maximumBytes : Nat) : Except ProviderError Unit :=
  require (validIdentifier value maximumBytes) .invalidRequest

def validToolName (name : String) : Bool :=
  !name.isEmpty && decide (name.utf8ByteSize ≤ maxToolNameBytes) &&
    name.toList.all fun c => c.isAlphanum || c = '_' || c = '-'

def validateToolName (name : String) : Except ProviderError Unit :=
  require (validToolName name) .invalidRequest

/-- Two counts as a sum that fits the 64 bits of a counter. -/
def checkedAdd (a b : Nat) : Option Nat := if a + b < 2 ^ 64 then some (a + b) else none

/-- `validate_response_identifier`. -/
def validateResponseIdentifier (value : String) (maximumBytes : Nat) : Except ProviderError Unit :=
  require (validIdentifier value maximumBytes) .malformedResponse

def validateResponseToolName (name : String) : Except ProviderError Unit :=
  require (validToolName name) .malformedResponse

/-- A cost from a number or from a text, in `0.0..=1_000_000.0`. -/
def validCost (codec : Codec) : Json → Bool
  | .string value =>
    !value.isEmpty && decide (value.utf8ByteSize ≤ 64) && codec.costText value
  | value =>
    match value.asNumber with
    | some cost => decide (0 ≤ cost) && decide (cost ≤ 1000000)
    | none => false

end Morons.Provider
