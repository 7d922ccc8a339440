import Morons.Provider.Responses
import Morons.Tool.Catalog

/-!
# Provider turns

What a run takes from the outcome of a provider: the answer that ends it, or the
calls of a tool turn with its commentary and its reasoning.
-/

namespace Morons

open Attempt Provider

/-- A tool turn before it is stored. -/
structure ProviderToolTurn where
  providerResponseId : String
  usage : ProviderUsage
  commentary : Option (String × Bool)
  calls : List ValidatedProviderCall
  deriving DecidableEq

/-- The turn as `complete_provider_tool_turn` gets it. -/
def ProviderToolTurn.stored (codec : Codec) (turn : ProviderToolTurn) : CompletedToolTurn where
  providerResponseId := turn.providerResponseId
  usage := turn.usage
  commentary := turn.commentary
  calls := turn.calls.map fun call => ⟨call.providerCallId, call.input.stored codec⟩

inductive NormalizedTurn
  | final (assistant : CompletedAssistant)
  | tools (turn : ProviderToolTurn) (reasoning : List Reasoning)
  deriving DecidableEq

/-- What has been taken from the items of a tool turn. -/
structure TurnScan where
  commentary : Option (String × Bool) := none
  calls : List Provider.ToolCall := []
  reasoning : List Reasoning := []
  sawCall : Bool := false

def scanTurnItem (t : TurnScan) : OutputItem → Except RunFailureKind TurnScan
  | .assistantMessage message => do
    require (message.phase ≠ some .finalAnswer ∧ ¬ t.sawCall ∧ message.text ≠ "" ∧
      t.commentary = none) .invalidProviderOutput
    return { t with commentary := some (message.text, message.refusal) }
  | .reasoning item => .ok { t with reasoning := t.reasoning ++ [item] }
  | .toolCall call => .ok { t with sawCall := true, calls := t.calls ++ [call] }

def mapToolValidation : ToolCallValidationError → RunFailureKind
  | .invalidProviderOutput => .invalidProviderOutput
  | .resourceLimit => .resourceLimit

/-- The one message of an answer, if there is one so far. -/
def scanAnswerItem (final : Option AssistantMessage) :
    OutputItem → Except RunFailureKind (Option AssistantMessage)
  | .assistantMessage message =>
    if message.phase = some .commentary then .ok final
    else do
      require (final = none) .invalidProviderOutput
      return some message
  | .reasoning _ => .ok final
  | .toolCall _ => throw .invalidProviderOutput

def completedAssistant (outcome : Outcome) : Except RunFailureKind CompletedAssistant := do
  let final ← sweep scanAnswerItem none outcome.output
  let message ← demand .invalidProviderOutput final
  require (message.text ≠ "") .invalidProviderOutput
  require (message.text.utf8ByteSize ≤ maxTranscriptTextBytes) .resourceLimit
  return ⟨message.text, message.refusal, outcome.providerResponseId, outcome.usage⟩

def normalizeProviderTurn (codec : Codec) (outcome : Outcome) (toolCatalogVersion : Nat) :
    Except RunFailureKind NormalizedTurn :=
  if outcome.output.any ResponsesDecoder.isToolCall then do
    let t ← sweep scanTurnItem {} outcome.output
    -- A run of an earlier catalog is refused before its calls are looked at.
    let calls ← (parseProviderCalls codec t.calls toolCatalogVersion).mapError mapToolValidation
    return .tools ⟨outcome.providerResponseId, outcome.usage, t.commentary, calls⟩ t.reasoning
  else do
    let assistant ← completedAssistant outcome
    return .final assistant

/-! ## What a tool turn takes from its outcome -/

def OutputItem.reasoning? : OutputItem → Option Reasoning
  | .reasoning item => some item
  | _ => none

def OutputItem.toolCall? : OutputItem → Option Provider.ToolCall
  | .toolCall call => some call
  | _ => none

theorem sweep_turnItems {t u : TurnScan} {output : List OutputItem}
    (h : sweep scanTurnItem t output = .ok u) :
    u.reasoning = t.reasoning ++ output.filterMap OutputItem.reasoning? ∧
      u.calls = t.calls ++ output.filterMap OutputItem.toolCall? := by
  induction output generalizing t with
  | nil =>
    rw [sweep_nil] at h
    cases h
    simp
  | cons item rest ih =>
    obtain ⟨v, hitem, hrest⟩ := (sweep_cons_ok _ _ _ _ _).mp h
    obtain ⟨hreasoning, hcalls⟩ := ih hrest
    cases item with
    | assistantMessage message =>
      simp only [scanTurnItem, bind_ok, pure_ok] at hitem
      obtain ⟨-, -, rfl⟩ := hitem
      exact ⟨hreasoning, hcalls⟩
    | reasoning item =>
      obtain rfl := Except.ok.inj hitem
      exact ⟨by rw [hreasoning]; simp [OutputItem.reasoning?], hcalls⟩
    | toolCall call =>
      obtain rfl := Except.ok.inj hitem
      exact ⟨hreasoning, by rw [hcalls]; simp [OutputItem.toolCall?]⟩

theorem parseCallsAfter_ok {codec : Codec} {identifiers : List String}
    {calls : List Provider.ToolCall} {validated : List ValidatedProviderCall}
    (h : parseCallsAfter codec identifiers calls = .ok validated) :
    validated.map (·.opaqueContinuation) = calls.map (·.opaqueContinuation) := by
  induction calls generalizing identifiers validated with
  | nil =>
    obtain rfl := Except.ok.inj h
    rfl
  | cons call rest ih =>
    simp only [parseCallsAfter, parseProviderCall, bind_ok, pure_ok] at h
    obtain ⟨_, ⟨-, -, value, -, input, -, rfl⟩, others, hothers, rfl⟩ := h
    rw [List.map_cons, List.map_cons, ih hothers]

/-- The reasoning of a tool turn is that of the outcome, and its calls keep what
the outcome says of their continuation. -/
theorem normalizeProviderTurn_tools {codec : Codec} {outcome : Outcome} {version : Nat}
    {turn : ProviderToolTurn} {reasoning : List Reasoning}
    (h : normalizeProviderTurn codec outcome version = .ok (.tools turn reasoning)) :
    reasoning = outcome.output.filterMap OutputItem.reasoning? ∧
      turn.calls.map (·.opaqueContinuation) =
        (outcome.output.filterMap OutputItem.toolCall?).map (·.opaqueContinuation) := by
  unfold normalizeProviderTurn at h
  split at h
  · simp only [bind_ok, pure_ok] at h
    obtain ⟨t, ht, calls, hcalls, heq⟩ := h
    obtain ⟨hreasoning, hscanned⟩ := sweep_turnItems ht
    obtain ⟨rfl, rfl⟩ := NormalizedTurn.tools.inj heq
    refine ⟨by simpa using hreasoning, ?_⟩
    cases hparse : parseProviderCalls codec t.calls version with
    | error e =>
      rw [hparse] at hcalls
      cases hcalls
    | ok validated =>
      rw [hparse] at hcalls
      obtain rfl : validated = calls := Except.ok.inj hcalls
      simp only [parseProviderCalls, bind_ok] at hparse
      obtain ⟨-, -, -, -, hparse⟩ := hparse
      rw [parseCallsAfter_ok hparse, hscanned]
      rfl
  · simp only [bind_ok, pure_ok, reduceCtorEq, and_false, exists_false] at h

end Morons
