import Morons.Command.Execution
import Morons.Run.Cancellation

/-!
# Startup checks of commands and cancellations

`validateLocalCommandFacts` compares the registry of mutation requests with
the tables of commands and of their cancellations, and checks each row.
`validateRunCancellations` is the part of `validate_run_request_payloads`
that looks at the recorded cancellation requests of runs.
-/

namespace Morons

open Attempt

/-- A registered request without its row, or of another number or time, or a
row whose request is not registered under the operation. -/
def registryConflict {Row : Type} (operation : MutationOperation)
    (stamp : Row → MutationRequestId × Nat × Nat) (requests : List MutationRequest)
    (rows : List Row) : Bool :=
  (requests.any fun m => m.operation = operation &&
    !(rows.find? fun r => (stamp r).1 = m.requestId).any fun r =>
      (stamp r).2 = (m.acceptedSequence, m.acceptedAtMilliseconds)) ||
  rows.any fun r =>
    (Table.find MutationRequest.requestId (stamp r).1 requests).map (·.operation) ≠ some operation

def LocalCommand.stamp (c : LocalCommand) : MutationRequestId × Nat × Nat :=
  (c.requestId, c.acceptedSequence, c.acceptedAtMilliseconds)

def LocalCommandCancellation.stamp (c : LocalCommandCancellation) : MutationRequestId × Nat × Nat :=
  (c.requestId, c.acceptedSequence, c.acceptedAtMilliseconds)

/-- The number of the state that goes with a result. -/
def expectedCommandState (result : ToolResult) : Nat :=
  match result.errorKind with
  | some .uncertain => 5
  | some .notDispatched | some .interrupted | some .cancelled | some .outputLimit
  | some .timedOut | some .inactivityTimeout => 4
  | some _ | none => 3

def invalidCommandRow (c : LocalCommand) : Bool :=
  (validateLocalCommand c.commandText).isOk = false ||
    c.fingerprint ≠ .localCommand c.sessionId c.commandText c.contextVisible ||
    match c.result with
    | some result =>
      decide (c.state.toRecord < 3) || !validateCanonicalBashResult result ||
        c.state.toRecord ≠ expectedCommandState result
    | none => !(c.state = .accepted || c.state = .active)

def invalidCommandCancellation (c : LocalCommandCancellation) : Bool :=
  c.fingerprint ≠ .cancelLocalCommand c.sessionId c.commandId

def validateLocalCommandFacts (s : Store) : Except PersistenceError Unit := do
  require (¬ (registryConflict .localCommand LocalCommand.stamp s.mutationRequests s.localCommands ∨
      registryConflict .localCommandCancel LocalCommandCancellation.stamp s.mutationRequests
        s.localCommandCancellations))
    (.invalidState "local command mutations conflict with the mutation registry")
  require (¬ s.localCommands.any invalidCommandRow)
    (.invalidState "a canonical local command is invalid")
  require (¬ s.localCommandCancellations.any invalidCommandCancellation)
    (.invalidState "a canonical local command is invalid")

/-- The check and the completion agree on the state of a result. -/
theorem expectedCommandState_eq (result : ToolResult) :
    expectedCommandState result = (terminalCommandState result).toRecord := by
  unfold expectedCommandState terminalCommandState
  cases result.errorKind with
  | none => rfl
  | some e => cases e <;> rfl

/-! ## Cancellations of runs -/

def invalidCancellation (c : RunCancellationRequest) : Bool :=
  c.fingerprint ≠ .cancelRun c.sessionId c.runId ||
    !decide (1 ≤ c.resultState.toRecord ∧ c.resultState.toRecord ≤ 6) ||
    (c.intentApplied && (decide (2 < c.resultState.toRecord) || !c.resultCancellationRequested ||
      c.deliveryEventId.isNone)) ||
    (!c.intentApplied && c.deliveryEventId.isSome)

def validateRunCancellations (s : Store) : Except PersistenceError Unit :=
  require (¬ s.runCancellationRequests.any invalidCancellation)
    (.invalidState "a persisted run cancellation has invalid canonical input")

end Morons
