import Morons.Records

/-!
# Run facts

The writes that the run operations share: the transition of a run to its next
state, and the facts of a provider operation.  `appendRunTransition_ok` says
everything a transition can do.
-/

namespace Morons

open Attempt

/-! ## Run transitions -/

def eventKindForState : RunState → Option EventKind
  | .accepted => none
  | .active => some .runActive
  | .succeeded => some .runSucceeded
  | .failed => some .runFailed
  | .cancelled => some .runCancelled
  | .interrupted => some .runInterrupted
  | .uncertain => some .runUncertain

/-- The rows a transition writes, once its two sequence numbers are drawn. -/
def writeTransition (s : Store) (run : Run) (state : RunState) (failure : Option RunFailureKind)
    (eventId : DeliveryEventId) (eventKind : EventKind) (now : Nat) (auditKind : RunAuditKind)
    (factSequence auditSequence : Nat) : Store :=
  let s := { s with
    runStateFacts :=
      ⟨factSequence, run.sessionId, run.id, state, failure, now, eventId⟩ :: s.runStateFacts }
  let s := insertDeliveryEvent s eventId factSequence run.sessionId eventKind now
  let s := insertRunAudit s auditSequence run none auditKind now
  let s := updateRun s run.id fun r => { r with
    state := state
    failure := failure
    updatedSequence := factSequence
    updatedAtMilliseconds := now }
  let s := updateSessionRunState s run.sessionId fun r => { r with
    activeRunId := if state.isTerminal then none else some run.id
    updatedSequence := factSequence }
  updateSession s run.sessionId fun r => { r with updatedSequence := factSequence }

/-- A transition draws its own identifier for the event it delivers. -/
def appendRunTransition (s : Store) (run : Run) (state : RunState)
    (failure : Option RunFailureKind) (now : Nat) (auditKind : RunAuditKind) :
    Except PersistenceError Store := do
  require (state ≠ .accepted ∧ (state = .failed ↔ failure.isSome))
    (.invalidState "a run transition has an invalid terminal classification")
  let eventId := s.nextIdentifier
  let (factSequence, s) ← nextSequence (s.takeIdentifiers 1)
  let s ← (if state.isTerminal then
    pause s (some run.sessionId) (some run.id) .terminal (some factSequence) now else .ok s)
  let (auditSequence, s) ← nextSequence s
  let eventKind ← demand (.invalidState "the run state has no supported delivery event")
    (eventKindForState state)
  return writeTransition s run state failure eventId eventKind now auditKind factSequence
    auditSequence

/-- The audit record that goes with each state. -/
def auditKindForState : RunState → RunAuditKind
  | .accepted => .inputAccepted
  | .active => .runActive
  | .succeeded => .runSucceeded
  | .failed => .runFailed
  | .cancelled | .interrupted | .uncertain => .runStopped

/-- The store in which a transition has drawn its number and identifier. -/
def Store.numbered (s : Store) : Store :=
  { s with nextValue := s.nextValue + 1, nextIdentifier := s.nextIdentifier + 1 }

/-- The end of a run pauses the queue that waits for it. -/
def pauseEnded (s : Store) (run : Run) (now : Nat) : Except PersistenceError Store :=
  pause s.numbered (some run.sessionId) (some run.id) .terminal (some s.nextValue) now

/-- Everything a transition can do: it draws its own number and identifier,
pauses queues, draws the audit number and writes. -/
def Transitions (s t : Store) (run : Run) (state : RunState) (failure : Option RunFailureKind)
    (now : Nat) : Prop :=
  state ≠ .accepted ∧ (state = .failed ↔ failure.isSome) ∧
    ∃ u kind, eventKindForState state = some kind ∧
      (if state.isTerminal then pauseEnded s run now else .ok s.numbered) = .ok u ∧
      u.nextValue < maxInteger ∧
      t = writeTransition
        { s with
          nextValue := u.nextValue + 1
          nextIdentifier := s.nextIdentifier + 1
          steeringQueues := u.steeringQueues
          steeringLifecycleFacts := u.steeringLifecycleFacts }
        run state failure s.nextIdentifier kind now (auditKindForState state) s.nextValue
        u.nextValue

theorem appendRunTransition_ok {s t : Store} {run : Run} {state : RunState}
    {failure : Option RunFailureKind} {now : Nat} {auditKind : RunAuditKind}
    (h : appendRunTransition s run state failure now auditKind = .ok t)
    (haudit : auditKind = auditKindForState state) : Transitions s t run state failure now := by
  subst haudit
  simp only [appendRunTransition, bind_ok, require_ok, pure_ok, Prod.exists, nextSequence_ok,
    demand_ok] at h
  obtain ⟨_, hguard, sequence, s₁, ⟨_, rfl, rfl⟩, u, hu, n, u', ⟨hn, rfl, rfl⟩, kind, hkind, rfl⟩ := h
  have hpaused : Paused s.numbered u := by
    split at hu
    · exact pause_paused hu
    · cases hu
      exact Paused.refl _
  refine ⟨hguard.1, hguard.2, u, kind, hkind, hu, hn, ?_⟩
  rw [hpaused.frame]
  rfl

/-! ## Provider operations -/

def insertProviderPrepared (s : Store) (factSequence : Nat) (operationId : ProviderOperationId)
    (run : Run) (turnIndex sourceEntryHighWater estimatedInputTokens now : Nat) : Store :=
  { s with
    providerOperationFacts :=
      { factSequence := factSequence
        operationId := operationId
        runId := run.id
        factKind := .prepared
        preparation := some
          { service := run.binding.service
            modelId := run.binding.modelId
            protocolRevision := run.binding.protocolRevision
            credentialGeneration := run.binding.credentialGeneration
            contextPolicyVersion := run.binding.contextPolicyVersion
            sourceEntryHighWater := sourceEntryHighWater
            turnIndex := turnIndex
            toolCatalogVersion := run.binding.toolCatalogVersion
            toolLimitsVersion := run.binding.toolLimitsVersion
            estimatedInputTokens := estimatedInputTokens }
        completion := none
        failure := none
        createdAtMilliseconds := now } :: s.providerOperationFacts }

def usageToSql (usage : ProviderUsage) : Except PersistenceError Unit :=
  require (usage.inputTokens ≤ maxInteger ∧ usage.cachedInputTokens ≤ maxInteger ∧
      usage.cacheWriteInputTokens ≤ maxInteger ∧ usage.outputTokens ≤ maxInteger ∧
      usage.reasoningOutputTokens ≤ maxInteger ∧ usage.totalTokens ≤ maxInteger)
    (.invalidInput "provider usage exceeds the supported durable range")

def insertProviderCompleted (s : Store) (factSequence : Nat) (operationId : ProviderOperationId)
    (runId : RunId) (providerResponseId : String) (usage : ProviderUsage) (now : Nat) :
    Except PersistenceError Store := do
  usageToSql usage
  return { s with
    providerOperationFacts :=
      { factSequence := factSequence
        operationId := operationId
        runId := runId
        factKind := .completed
        preparation := none
        completion := some ⟨providerResponseId, usage⟩
        failure := none
        createdAtMilliseconds := now } :: s.providerOperationFacts }

/-- The schema admits every failure kind here but the one of a tool. -/
def insertProviderSimpleFact (s : Store) (factSequence : Nat) (operationId : ProviderOperationId)
    (runId : RunId) (factKind : ProviderFactKind) (failure : Option RunFailureKind) (now : Nat) :
    Except PersistenceError Store := do
  require (failure ≠ some .toolExecution) (.sqlite "provider_operation_facts.failure_kind")
  require (¬ s.providerOperationFacts.any fun f =>
      f.operationId = operationId && f.factKind = factKind)
    (.sqlite "UNIQUE provider_operation_facts (operation_id, fact_kind)")
  return { s with
    providerOperationFacts :=
      { factSequence := factSequence
        operationId := operationId
        runId := runId
        factKind := factKind
        preparation := none
        completion := none
        failure := failure
        createdAtMilliseconds := now } :: s.providerOperationFacts }

def providerHasFact (s : Store) (operationId : ProviderOperationId) (factKind : ProviderFactKind) :
    Bool :=
  s.providerOperationFacts.any fun f => f.operationId = operationId && f.factKind = factKind

/-- The operation has a fact of kind 3 to 6. -/
def providerTerminal (s : Store) (operationId : ProviderOperationId) : Bool :=
  s.providerOperationFacts.any fun f => f.operationId = operationId && f.factKind.isTerminal

def requireProviderFact (s : Store) (runId : RunId) (operationId : ProviderOperationId)
    (factKind : ProviderFactKind) : Except PersistenceError Unit :=
  require (s.providerOperationFacts.any fun f =>
      f.operationId = operationId && f.runId = runId && f.factKind = factKind)
    (.invalidState "a provider operation is missing a required durable fact")

def ensureProviderNotTerminal (s : Store) (operationId : ProviderOperationId) :
    Except PersistenceError Unit :=
  require (¬ providerTerminal s operationId)
    (.invalidState "a provider operation already has a terminal fact")

def requireDispatchedActiveOperation (s : Store) (run : Run) (operationId : ProviderOperationId) :
    Except PersistenceError Unit := do
  require (run.state = .active) (.invalidState "a provider outcome requires an active run")
  requireProviderFact s run.id operationId .prepared
  requireProviderFact s run.id operationId .dispatched
  ensureProviderNotTerminal s operationId

/-- A prepared operation of the run without a terminal fact. -/
def pendingOperation (s : Store) (runId : RunId) : Option ProviderOperationId :=
  (s.providerOperationFacts.find? fun prepared =>
    prepared.runId = runId && prepared.factKind = .prepared &&
      !providerTerminal s prepared.operationId).map (·.operationId)

/-- The context an operation was prepared for. -/
def providerSourceHighWater (s : Store) (operationId : ProviderOperationId) :
    Except PersistenceError Nat := do
  let preparation ← demand (.sqlite "no rows")
    ((s.providerOperationFacts.find? fun f =>
      f.operationId = operationId && f.factKind = .prepared).bind (·.preparation))
  return preparation.sourceEntryHighWater

/-! ## Assistant outcomes -/

structure CompletedAssistant where
  text : String
  refusal : Bool
  providerResponseId : String
  usage : ProviderUsage
  deriving DecidableEq

/-- One to 128 visible ASCII characters. -/
def validProviderResponseId (id : String) : Bool :=
  !id.isEmpty && decide (id.utf8ByteSize ≤ 128) &&
    id.toList.all fun c => decide (0x21 ≤ c.toNat) && decide (c.toNat ≤ 0x7e)

def validateCompletedAssistant (assistant : CompletedAssistant) : Except PersistenceError Unit :=
  require (¬ assistant.text.isEmpty ∧ assistant.text.utf8ByteSize ≤ maxTranscriptTextBytes ∧
      validProviderResponseId assistant.providerResponseId)
    (.invalidInput "a completed provider assistant outcome is invalid")

end Morons
