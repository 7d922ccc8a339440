import Morons.Run.Acceptance

/-!
# The budget of a context

`contextBudget` counts what the entries and shown commands of a session, above
one place of the transcript and up to another, take of a provider request.
-/

namespace Morons

def contextItemReserve : Nat := 24
def maxContextImages : Nat := 16
def maxContextImageBytes : Nat := 6 * 1024 * 1024

structure ContextBudget where
  entries : Nat := 0
  bytes : Nat := 0
  images : Nat := 0
  imageBytes : Nat := 0
  /-- Advisory only; `fits` never reads it. -/
  observedInputTokens : Option Nat := none
  deriving DecidableEq

def maxActiveContextEntries : Nat := 256
def maxCompactionSummaryBytes : Nat := 16 * 1024

/-- An addition that stops at the largest counter. -/
def saturatingAdd (a b : Nat) : Nat := min (a + b) (2 ^ 64 - 1)

def saturatingMul (a b : Nat) : Nat := min (a * b) (2 ^ 64 - 1)

namespace ContextBudget

def tokens (b : ContextBudget) (extraBytes : Nat) : Nat :=
  saturatingAdd
    (saturatingAdd (saturatingAdd (saturatingAdd b.bytes extraBytes) (saturatingMul b.entries 16))
      (saturatingMul b.images 8192)) contextRequestReserve

def fits (b : ContextBudget) (maximumInputTokens extraBytes : Nat) : Bool :=
  decide (b.tokens extraBytes ≤ maximumInputTokens) &&
    decide (saturatingAdd (saturatingAdd b.entries b.images) contextItemReserve ≤
      maxActiveContextEntries) &&
    decide (b.images ≤ maxContextImages) && decide (b.imageBytes ≤ maxContextImageBytes)

end ContextBudget

/-- `CASE entry_kind WHEN 3 THEN length(call.input_payload) WHEN 4 THEN
length(result.result_payload) ELSE length(text) END`. -/
def budgetBytes (s : Store) (entry : SessionEntry) : Option Nat :=
  match entry.body with
  | .toolCall _ _ callId =>
    (Table.find ToolCall.callId callId s.toolCalls).map (·.input.payloadBytes)
  | .toolResult callId =>
    ((s.toolOperationFacts.find? fun f => f.callId = callId && f.factKind.isTerminal).bind
      (·.result)).map (·.payloadBytes)
  | body => body.text.map String.utf8ByteSize

/-- One size for each row; a sum skips the rows without one. -/
def budgetSizes (s : Store) (sessionId : SessionId) (after through : Nat) : List (Option Nat) :=
  let inRange (n : Nat) : Bool := decide (after < n) && decide (n ≤ through)
  (s.sessionEntries.filter fun e => e.sessionId = sessionId && inRange e.entrySequence).map
      (budgetBytes s) ++
    (s.localCommands.filter fun c => c.sessionId = sessionId && c.entrySequence.any inRange &&
      c.contextVisible && c.state.isTerminal).map fun c =>
        c.result.map fun result => c.commandText.utf8ByteSize + result.payloadBytes

def contextBudget (env : Environment) (s : Store) (sessionId : SessionId) (after through : Nat) :
    ContextBudget :=
  let sizes := budgetSizes s sessionId after through
  let images := env.contextImages sessionId after through
  { entries := sizes.length
    bytes := (sizes.filterMap id).sum
    images := images.length
    imageBytes := images.sum }

end Morons
