import Morons.Run.Facts

/-!
# Run execution

The operations of a running run, each one transaction: activating it,
preparing and dispatching a provider operation, committing a final answer,
settling a rejected context, and ending the run with a failure or a stop.
A restart stops every run that it finds accepted or active, together with its
pending provider operation.
-/

namespace Morons

open Attempt

inductive ActivationOutcome
  | active | terminal
  deriving DecidableEq

inductive PrepareOperationOutcome
  | prepared (operationId : ProviderOperationId) | cancelled | terminal
  deriving DecidableEq

inductive DispatchOutcome
  | dispatched | cancelled | terminal
  deriving DecidableEq

inductive ProviderOperationFailureState
  | failed | uncertain
  deriving DecidableEq

inductive FinishKind
  | failed | stopped
  deriving DecidableEq

/-! ## Operations -/

def settleContextRejection (env : Environment) (s : Store) (runId : RunId)
    (operationId : ProviderOperationId) : Except PersistenceError (Bool × Store) := do
  env.contextIntegrity
  let run ← loadRequiredRun s runId
  if run.state ≠ .active ∨ run.cancellationRequested then
    return (false, s)
  let native ← env.nativeUsage runId
  let blocked := s.providerOperationFacts.any fun f =>
    f.runId = runId && (f.factKind = .failed || f.factKind = .uncertain || f.factKind = .abandoned)
  if ¬ native ∨ blocked then
    return (false, s)
  requireProviderFact s runId operationId .dispatched
  ensureProviderNotTerminal s operationId
  let (factSequence, s) ← nextSequence s
  let s ← insertProviderSimpleFact s factSequence operationId runId .failed (some .resourceLimit)
    env.now
  let (auditSequence, s) ← nextSequence s
  return (true, insertRunAudit s auditSequence run (some operationId) .providerFailed env.now)

def activateRun (env : Environment) (s : Store) (runId : RunId) :
    Except PersistenceError (ActivationOutcome × Store) := do
  let run ← loadRequiredRun s runId
  if run.state.isTerminal then
    return (.terminal, s)
  if run.cancellationRequested then
    let s ← (if run.state = .accepted then
      appendRunTransition s run .active none env.now .runActive else .ok s)
    let s ← appendRunTransition s run .cancelled none env.now .runStopped
    return (.terminal, s)
  if run.state = .accepted then
    let s ← appendRunTransition s run .active none env.now .runActive
    return (.active, s)
  return (.active, s)

def prepareProviderOperation (env : Environment) (s : Store) (runId : RunId)
    (sourceEntryHighWater estimatedInputTokens : Nat) :
    Except PersistenceError (PrepareOperationOutcome × Store) := do
  env.contextIntegrity
  let run ← loadRequiredRun s runId
  if run.state.isTerminal then
    return (.terminal, s)
  if run.cancellationRequested then
    let s ← appendRunTransition s run .cancelled none env.now .runStopped
    return (.cancelled, s)
  require (run.state = .active) (.invalidState "a provider operation requires an active run")
  env.admitDataUse run.binding.service run.binding.modelId
  let currentEntryHighWater ← loadEntryHighWater s run.sessionId
  require (currentEntryHighWater = sourceEntryHighWater ∧ estimatedInputTokens ≠ 0 ∧
      estimatedInputTokens ≤ run.binding.maximumInputTokens)
    (.invalidState "a provider operation context changed before preparation")
  let preparedCount := s.providerOperationFacts.countP fun f =>
    f.runId = runId && f.factKind = .prepared
  require (pendingOperation s runId = none)
    (.invalidState "a run cannot prepare another provider operation")
  let operationId := s.nextIdentifier
  let (factSequence, s) ← nextSequence (s.takeIdentifiers 1)
  let (auditSequence, s) ← nextSequence s
  let s := insertProviderPrepared s factSequence operationId run (preparedCount + 1)
    sourceEntryHighWater estimatedInputTokens env.now
  let s := insertRunAudit s auditSequence run (some operationId) .providerPrepared env.now
  return (.prepared operationId, s)

def markProviderDispatched (env : Environment) (s : Store) (runId : RunId)
    (operationId : ProviderOperationId) : Except PersistenceError (DispatchOutcome × Store) := do
  env.contextIntegrity
  let run ← loadRequiredRun s runId
  if run.state.isTerminal then
    return (.terminal, s)
  requireProviderFact s runId operationId .prepared
  if run.cancellationRequested then
    -- Unlike the branch below, this one does not ask for an operation without an outcome.
    let (factSequence, s) ← nextSequence s
    let (auditSequence, s) ← nextSequence s
    let s ← insertProviderSimpleFact s factSequence operationId runId .abandoned none env.now
    let s := insertRunAudit s auditSequence run (some operationId) .providerFailed env.now
    let s ← appendRunTransition s run .cancelled none env.now .runStopped
    return (.cancelled, s)
  require (run.state = .active) (.invalidState "provider dispatch requires an active run")
  ensureProviderNotTerminal s operationId
  env.admitDataUse run.binding.service run.binding.modelId
  let (factSequence, s) ← nextSequence s
  let (auditSequence, s) ← nextSequence s
  let s ← insertProviderSimpleFact s factSequence operationId runId .dispatched none env.now
  return (.dispatched,
    insertRunAudit s auditSequence run (some operationId) .providerDispatched env.now)

def completeRunSuccess (env : Environment) (s : Store) (runId : RunId)
    (operationId : ProviderOperationId) (assistant : CompletedAssistant) :
    Except PersistenceError (Run × Store) := do
  validateCompletedAssistant assistant
  let run ← loadRequiredRun s runId
  if run.state.isTerminal then
    return (run, s)
  requireDispatchedActiveOperation s run operationId
  let (factSequence, s) ← nextSequence s
  let (auditSequence, s) ← nextSequence s
  let s ← insertProviderCompleted s factSequence operationId runId assistant.providerResponseId
    assistant.usage env.now
  let s := insertRunAudit s auditSequence run (some operationId) .providerCompleted env.now
  -- A committed complete response counts even if cancellation discards its text.
  let s := updateRun s runId fun r => { r with providerTurns := run.providerTurns + 1 }
  if run.cancellationRequested then
    let s ← appendRunTransition s run .cancelled none env.now .runStopped
    let run ← loadRequiredRun s runId
    return (run, s)
  let expectedEntryHighWater ← providerSourceHighWater s operationId
  let entryHighWater ← loadEntryHighWater s run.sessionId
  require (entryHighWater = expectedEntryHighWater)
    (.invalidState "a run transcript changed before its assistant outcome committed")
  require (entryHighWater + 1 ≤ maxTranscriptEntries) (.resourceLimit .transcript)
  let messageId := s.nextIdentifier
  let eventId := s.nextIdentifier + 1
  let (entryFactSequence, s) ← nextSequence (s.takeIdentifiers 2)
  let s := { s with
    sessionEntries :=
      ⟨entryFactSequence, run.sessionId, entryHighWater + 1, messageId, run.id,
        .assistant run.binding.service run.binding.modelId assistant.text assistant.refusal .final,
        env.now, eventId⟩ :: s.sessionEntries }
  let s := insertDeliveryEvent s eventId entryFactSequence run.sessionId .assistantMessage env.now
  let s := updateSessionRunState s run.sessionId fun r =>
    { r with entryHighWater := entryHighWater + 1 }
  let s ← appendRunTransition s run .succeeded none env.now .runSucceeded
  let run ← loadRequiredRun s runId
  return (run, s)

/-- The outcome a pending operation gets when its run ends. -/
def finishOperation (s : Store) (operationId : ProviderOperationId)
    (failure : Option RunFailureKind) (operationState : Option ProviderOperationFailureState) :
    FinishKind → Except PersistenceError (ProviderFactKind × Option RunFailureKind)
  | .stopped =>
    if providerHasFact s operationId .dispatched then .ok (.uncertain, none)
    else .ok (.abandoned, none)
  | .failed => do
    let state ← demand (.invalidState "a failed provider operation is missing its outcome state")
      operationState
    match state with
    | .failed => return (.failed, failure)
    | .uncertain => return (.uncertain, failure)

/-- The state a run ends in. -/
def finishState (run : Run) (failure : Option RunFailureKind) :
    FinishKind → Except PersistenceError (RunState × Option RunFailureKind × RunAuditKind)
  | .failed => do
    let failure ← demand (.invalidState "a failed run is missing its failure classification") failure
    return (.failed, some failure, .runFailed)
  | .stopped =>
    if run.cancellationRequested then .ok (.cancelled, none, .runStopped)
    else .ok (.interrupted, none, .runStopped)

/-- Give the pending operation, if one is named, its outcome. -/
def settleOperation (env : Environment) (s : Store) (run : Run) (failure : Option RunFailureKind)
    (operationState : Option ProviderOperationFailureState) (kind : FinishKind) :
    Option ProviderOperationId → Except PersistenceError Store
  | none => .ok s
  | some operationId => do
    requireProviderFact s run.id operationId .prepared
    ensureProviderNotTerminal s operationId
    let (factKind, operationFailure) ← finishOperation s operationId failure operationState kind
    let (factSequence, s) ← nextSequence s
    let (auditSequence, s) ← nextSequence s
    let s ← insertProviderSimpleFact s factSequence operationId run.id factKind operationFailure
      env.now
    return insertRunAudit s auditSequence run (some operationId) .providerFailed env.now

def finishRun (env : Environment) (s : Store) (runId : RunId)
    (operationId : Option ProviderOperationId) (failure : Option RunFailureKind)
    (operationState : Option ProviderOperationFailureState) (kind : FinishKind) :
    Except PersistenceError (Run × Store) := do
  let run ← loadRequiredRun s runId
  if run.state.isTerminal then
    return (run, s)
  let s ← settleOperation env s run failure operationState kind operationId
  let (terminalState, terminalFailure, auditKind) ← finishState run failure kind
  let s ← appendRunTransition s run terminalState terminalFailure env.now auditKind
  let run ← loadRequiredRun s runId
  return (run, s)

def finishRunFailure (env : Environment) (s : Store) (runId : RunId)
    (operationId : Option ProviderOperationId) (failure : RunFailureKind)
    (operationState : ProviderOperationFailureState) : Except PersistenceError (Run × Store) :=
  finishRun env s runId operationId (some failure) (some operationState) .failed

def finishRunStopped (env : Environment) (s : Store) (runId : RunId)
    (operationId : Option ProviderOperationId) : Except PersistenceError (Run × Store) :=
  finishRun env s runId operationId none none .stopped

/-! ## Recovery at startup -/

/-- The runs a restart finds unfinished, in order of acceptance. -/
def nonterminalRuns (s : Store) : List RunId :=
  ((s.runs.filter fun r => !r.state.isTerminal).mergeSort
    fun a b => decide (a.acceptedSequence ≤ b.acceptedSequence)).map (·.id)

def recoverRun (env : Environment) (s : Store) (runId : RunId) : Except PersistenceError Store := do
  let (_, s) ← finishRunStopped env s runId (pendingOperation s runId)
  return s

/-- Each run is stopped in the surroundings that recovery then finds. -/
def recoverNonterminalRuns (env : Environment) (during : RunId → Environment) (s : Store) :
    Except PersistenceError Store := do
  let s ← pause s none none .recovery none env.now
  sweep (fun s runId => recoverRun (during runId) s runId) s (nonterminalRuns s)

end Morons
