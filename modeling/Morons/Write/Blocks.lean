import Morons.Run.Acceptance
import Morons.Run.Cancellation
import Morons.Tool.Execution
import Morons.Command.Execution
import Morons.Session.Creation
import Morons.Session.Delete
import Morons.Steering.Mutation
import Mathlib.Logic.Relation

/-!
# Writes

Every operation of the persistence layer is a sequence of few kinds of
writes.  A write draws its numbers and identifiers, adds the
rows that belong together and moves the projections along, so that what the
tables say of each other holds again after it.  `Write` lists the kinds with
all that the operations check before them; an invariant is shown once for
each kind of write, and holds of every operation that is made of them.
-/

namespace Morons

/-- Numbers and identifiers up to the given ones are used. -/
def Store.drawn (s : Store) (n i : Nat) : Store := { s with nextValue := n, nextIdentifier := i }

/-- What the callers of some operations take care of, and the operations do
not check: whether sessions are deleted, which operation a run ends with,
which calls are committed, and the recovery plans and results of a call. -/
structure Discipline where
  deletes : Prop
  finishes : List ProviderOperationFact → RunId → Option ProviderOperationId → Prop
  calls : RunBinding → ProviderToolCall → Prop
  plans : ToolCall → Option String → Prop
  results : ToolCall → ToolResult → Bool → Prop

/-- Callers that take care of nothing. -/
def Discipline.none : Discipline := ⟨True, fun _ _ _ => True, fun _ _ => True, fun _ _ => True,
  fun _ _ _ => True⟩

/-- Callers that delete no session. -/
def Discipline.keeping : Discipline := { Discipline.none with deletes := False }

/-! ## Sessions -/

/-- A prepared creation takes two identifiers and one number. -/
def writeCreationRequest (s : Store) (requestId : MutationRequestId) (fingerprint : Fingerprint)
    (displayName : Option String) (workingDirectory : String) (now : Nat) : Store :=
  let t := s.drawn (s.nextValue + 1) (s.nextIdentifier + 2)
  let t := insertMutationRequest t requestId .sessionCreate s.nextValue now
  { t with
    sessionCreationRequests :=
      { requestId := requestId
        fingerprint := fingerprint
        sessionId := s.nextIdentifier
        workspaceId := s.nextIdentifier + 1
        displayName := displayName
        workingDirectory := some workingDirectory
        acceptedSequence := s.nextValue
        acceptedAtMilliseconds := now
        state := .prepared } :: t.sessionCreationRequests }

/-- A prepared archive request takes one number and one identifier; one that
archives pauses the queue of the session. -/
def requestArchive (s : Store) (requestId : MutationRequestId) (fingerprint : Fingerprint)
    (sessionId : SessionId) (archived : Bool) (now : Nat) : Except PersistenceError Store :=
  let t := writeArchiveRequest (s.drawn (s.nextValue + 1) (s.nextIdentifier + 1)) requestId
    fingerprint sessionId archived s.nextIdentifier s.nextValue now
  if archived then pause t (some sessionId) none .archive (some s.nextValue) now else .ok t

theorem requestArchive_paused {s u : Store} {requestId : MutationRequestId}
    {fingerprint : Fingerprint} {sessionId : SessionId} {archived : Bool} {now : Nat}
    (h : requestArchive s requestId fingerprint sessionId archived now = .ok u) :
    Paused (writeArchiveRequest (s.drawn (s.nextValue + 1) (s.nextIdentifier + 1)) requestId
      fingerprint sessionId archived s.nextIdentifier s.nextValue now) u := by
  unfold requestArchive at h
  split at h
  · exact pause_paused h
  · cases h
    exact Paused.refl _

/-! ## Runs -/

/-- A transition draws a number for its fact and, later, one for its audit record. -/
def moveRun (s : Store) (run : Run) (state : RunState) (failure : Option RunFailureKind)
    (kind : EventKind) (now n : Nat) : Store :=
  writeTransition (s.drawn (n + 1) (s.nextIdentifier + 1)) run state failure s.nextIdentifier kind
    now (auditKindForState state) s.nextValue n

/-- The store with the queues, and the records of their pauses, of another one. -/
def Store.steered (s u : Store) : Store :=
  { s with
    steeringQueues := u.steeringQueues
    steeringLifecycleFacts := u.steeringLifecycleFacts }

/-- A transition that ends a run, with the queues as the pause leaves them. -/
def endRun (s u : Store) (run : Run) (state : RunState) (failure : Option RunFailureKind)
    (kind : EventKind) (now : Nat) : Store :=
  (moveRun s run state failure kind now u.nextValue).steered u

theorem pauseEnded_number {s u : Store} {run : Run} {now : Nat} (h : pauseEnded s run now = .ok u) :
    s.nextValue < u.nextValue :=
  (pause_paused h).forward

@[simp] theorem moveRun_runStateFacts (s : Store) (run : Run) (state : RunState)
    (failure : Option RunFailureKind) (kind : EventKind) (now n : Nat) :
    (moveRun s run state failure kind now n).runStateFacts =
      ⟨s.nextValue, run.sessionId, run.id, state, failure, now, s.nextIdentifier⟩ ::
        s.runStateFacts :=
  rfl

/-- What a transition needs. -/
structure Movable (s : Store) (run : Run) (state : RunState) (failure : Option RunFailureKind)
    (kind : EventKind) (n : Nat) : Prop where
  found : ∃ row, loadRun s run.id = some row ∧ row.sessionId = run.sessionId ∧ row.state = run.state
  running : run.state.isTerminal = false
  later : run.state.rank < state.rank
  event : eventKindForState state = some kind
  failed : state = .failed ↔ failure.isSome
  number : s.nextValue < n

/-- The audit record that goes with each fact of a provider operation. -/
def auditKindForFact : ProviderFactKind → RunAuditKind
  | .prepared => .providerPrepared
  | .dispatched => .providerDispatched
  | .completed => .providerCompleted
  | .failed | .uncertain | .abandoned => .providerFailed

/-- A fact of a provider operation with its audit record. -/
def writeProviderFact (s : Store) (run : Run) (fact : ProviderOperationFact) : Store :=
  let t := s.drawn (s.nextValue + 2) s.nextIdentifier
  insertRunAudit { t with providerOperationFacts := fact :: t.providerOperationFacts }
    (s.nextValue + 1) run (some fact.operationId) (auditKindForFact fact.factKind)
    fact.createdAtMilliseconds

/-- An outcome; a completed response counts as a turn of the run. -/
def writeProviderOutcome (s : Store) (run : Run) (fact : ProviderOperationFact) : Store :=
  let t := writeProviderFact s run fact
  { t with
    runs := if fact.factKind = .completed then
        Table.modify Run.id run.id (fun r => { r with providerTurns := run.providerTurns + 1 })
          t.runs
      else t.runs }

/-- What an outcome of an operation needs.  Only a completed one is sure to
find the operation without another outcome. -/
structure OutcomeAdmitted (s : Store) (run : Run) (fact : ProviderOperationFact) : Prop where
  ofRun : fact.runId = run.id
  number : fact.factSequence = s.nextValue
  terminal : fact.factKind.isTerminal = true
  preparation : fact.preparation = none
  completion : fact.completion.isSome ↔ fact.factKind = .completed
  failure : fact.failure ≠ some .toolExecution
  known : ∃ f ∈ s.providerOperationFacts, f.operationId = fact.operationId ∧ f.runId = run.id ∧
    (f.factKind = .prepared ∨ f.factKind = .dispatched)
  fresh : ∀ f ∈ s.providerOperationFacts,
    f.operationId = fact.operationId → f.factKind ≠ fact.factKind
  completed : fact.factKind = .completed → run.state = .active ∧
    (∃ f ∈ s.providerOperationFacts, f.operationId = fact.operationId ∧ f.runId = run.id ∧
      f.factKind = .dispatched) ∧ providerTerminal s fact.operationId = false

/-- The outcome, if any, of the operation a run ends with. -/
def settled (s : Store) (run : Run) : Option ProviderOperationFact → Store
  | none => s
  | some fact => writeProviderOutcome s run fact

/-- The final answer of a run, at its place in the transcript. -/
def writeFinalEntry (s : Store) (run : Run) (assistant : CompletedAssistant)
    (entrySequence now : Nat) : Store :=
  let t := s.drawn (s.nextValue + 1) (s.nextIdentifier + 2)
  let t := { t with
    sessionEntries :=
      ⟨s.nextValue, run.sessionId, entrySequence, s.nextIdentifier, run.id,
        .assistant run.binding.service run.binding.modelId assistant.text assistant.refusal .final,
        now, s.nextIdentifier + 1⟩ :: t.sessionEntries }
  let t := insertDeliveryEvent t (s.nextIdentifier + 1) s.nextValue run.sessionId .assistantMessage
    now
  updateSessionRunState t run.sessionId fun r => { r with entryHighWater := entrySequence }

/-- A recorded request to cancel a run, with its effect if it has one. -/
def writeCancellation (s : Store) (requestId : MutationRequestId) (fingerprint : Fingerprint)
    (run : Run) (now : Nat) : Store :=
  let applied := !run.state.isTerminal && !run.cancellationRequested
  let t := s.drawn (s.nextValue + 2) (s.nextIdentifier + 1)
  let t := insertMutationRequest t requestId .runCancel s.nextValue now
  { t with
    runCancellationRequests :=
      ⟨requestId, fingerprint, run.sessionId, run.id, s.nextValue, now, run.state,
        run.cancellationRequested || applied, applied,
        if applied then some s.nextIdentifier else none⟩ :: t.runCancellationRequests
    runs := if applied then
        Table.modify Run.id run.id
          (fun r => { r with
            cancellationRequested := true
            updatedSequence := s.nextValue
            updatedAtMilliseconds := now }) t.runs
      else t.runs
    sessionRunStates := if applied then
        Table.modify SessionRunState.sessionId run.sessionId
          (fun r => { r with updatedSequence := s.nextValue }) t.sessionRunStates
      else t.sessionRunStates
    sessions := if applied then
        Table.modify Session.id run.sessionId
          (fun r => { r with updatedSequence := s.nextValue }) t.sessions
      else t.sessions
    deliveryEvents := if applied then
        ⟨s.nextIdentifier, s.nextValue, run.sessionId, .cancellationRequested, now⟩ ::
          t.deliveryEvents
      else t.deliveryEvents
    runAuditFacts :=
      ⟨s.nextValue + 1, some requestId, run.sessionId, run.id, none, .client,
        if applied then .cancellationRequested else .cancellationObserved, now⟩ ::
        t.runAuditFacts }

/-- A request that has an effect pauses the queue that waits for the run. -/
def cancelled (s : Store) (requestId : MutationRequestId) (fingerprint : Fingerprint) (run : Run)
    (now : Nat) : Except PersistenceError Store :=
  if !run.state.isTerminal && !run.cancellationRequested then
    pause (writeCancellation s requestId fingerprint run now) (some run.sessionId) (some run.id)
      .cancellation (some s.nextValue) now
  else .ok (writeCancellation s requestId fingerprint run now)

theorem cancelled_paused {s u : Store} {requestId : MutationRequestId} {fingerprint : Fingerprint}
    {run : Run} {now : Nat} (h : cancelled s requestId fingerprint run now = .ok u) :
    Paused (writeCancellation s requestId fingerprint run now) u := by
  unfold cancelled at h
  split at h
  · exact pause_paused h
  · cases h
    exact Paused.refl _

/-- Pausing commutes with the other changes of the request. -/
theorem cancelled_ok {s v : Store} {requestId : MutationRequestId} {fingerprint : Fingerprint}
    {run : Run} {now : Nat} {intent : Bool}
    (hintent : intent = (!run.state.isTerminal && !run.cancellationRequested))
    (h : (if intent = true then
      applyCancellation { insertMutationRequest (s.drawn (s.nextValue + 2) (s.nextIdentifier + 1))
          requestId .runCancel s.nextValue now with
        runCancellationRequests :=
          ⟨requestId, fingerprint, run.sessionId, run.id, s.nextValue, now, run.state,
            run.cancellationRequested || intent, intent,
            if intent then some s.nextIdentifier else none⟩ :: s.runCancellationRequests } run
        s.nextIdentifier s.nextValue now
      else .ok { insertMutationRequest (s.drawn (s.nextValue + 2) (s.nextIdentifier + 1))
          requestId .runCancel s.nextValue now with
        runCancellationRequests :=
          ⟨requestId, fingerprint, run.sessionId, run.id, s.nextValue, now, run.state,
            run.cancellationRequested || intent, intent,
            if intent then some s.nextIdentifier else none⟩ :: s.runCancellationRequests }) =
      .ok v) :
    cancelled s requestId fingerprint run now = .ok { v with
      runAuditFacts :=
        ⟨s.nextValue + 1, some requestId, run.sessionId, run.id, none, .client,
          if intent then .cancellationRequested else .cancellationObserved, now⟩ ::
          v.runAuditFacts } := by
  cases intent with
  | false =>
    cases h
    rw [cancelled, ← hintent]
    simp only [Bool.false_eq_true, if_false, writeCancellation, ← hintent]
    rfl
  | true =>
    simp only [if_true, applyCancellation, Attempt.bind_ok, Attempt.pure_ok] at h
    obtain ⟨u, hu, rfl⟩ := h
    have hframe := (pause_paused hu).frame
    rw [cancelled, ← hintent, if_pos rfl]
    refine (pause_congr ?_ ?_ ?_ hu).trans ?_
    · rfl
    · rfl
    · rfl
    · rw [hframe]
      simp only [writeCancellation, ← hintent]
      rfl

theorem writeCancellation_requests (s : Store) (requestId : MutationRequestId)
    (fingerprint : Fingerprint) (run : Run) (now : Nat) :
    (writeCancellation s requestId fingerprint run now).runCancellationRequests =
      ⟨requestId, fingerprint, run.sessionId, run.id, s.nextValue, now, run.state,
        run.cancellationRequested || (!run.state.isTerminal && !run.cancellationRequested),
        !run.state.isTerminal && !run.cancellationRequested,
        if !run.state.isTerminal && !run.cancellationRequested then some s.nextIdentifier
        else none⟩ :: s.runCancellationRequests :=
  rfl

/-! ## Tools -/

/-- The commentary of a turn, at its place in the transcript. -/
def writeCommentary (s : Store) (run : Run) (entrySequence : Nat) (text : String) (refusal : Bool)
    (now : Nat) : Store :=
  let t := s.drawn (s.nextValue + 1) (s.nextIdentifier + 2)
  let t := { t with
    sessionEntries :=
      ⟨s.nextValue, run.sessionId, entrySequence, s.nextIdentifier, run.id,
        .assistant run.binding.service run.binding.modelId text refusal .commentary, now,
        s.nextIdentifier + 1⟩ :: t.sessionEntries }
  let t := insertDeliveryEvent t (s.nextIdentifier + 1) s.nextValue run.sessionId .assistantMessage
    now
  updateEntryHighWater t run entrySequence s.nextValue

/-- The row of a committed call. -/
def committedCall (s : Store) (run : Run) (providerOperationId : ProviderOperationId)
    (call : ProviderToolCall) (callIndex now : Nat) : ToolCall :=
  { callId := s.nextIdentifier
    operationId := s.nextIdentifier + 1
    providerOperationId := providerOperationId
    providerCallId := call.providerCallId
    sessionId := run.sessionId
    runId := run.id
    callIndex := callIndex
    input := call.input
    pathDigest := call.input.pathText
    factSequence := s.nextValue
    createdAtMilliseconds := now }

/-- A call, at its place in the transcript. -/
def writeToolCall (s : Store) (run : Run) (providerOperationId : ProviderOperationId)
    (call : ProviderToolCall) (callIndex entrySequence now : Nat) : Store :=
  let row := committedCall s run providerOperationId call callIndex now
  let t := s.drawn (s.nextValue + 3) (s.nextIdentifier + 4)
  let t := { t with
    toolCalls := row :: t.toolCalls
    sessionEntries :=
      ⟨s.nextValue + 1, run.sessionId, entrySequence, s.nextIdentifier + 2, run.id,
        .toolCall run.binding.service run.binding.modelId row.callId, now, s.nextIdentifier + 3⟩ ::
        t.sessionEntries }
  let t := insertDeliveryEvent t (s.nextIdentifier + 3) (s.nextValue + 1) run.sessionId .toolCall now
  let t := insertToolAudit t (s.nextValue + 2) row .callCommitted now
  let t := updateRun t run.id fun r => { r with
    toolCalls := run.toolCalls + 1
    toolMutations := run.toolMutations + if call.input.kind.isMutation then 1 else 0
    updatedSequence := s.nextValue + 1
    updatedAtMilliseconds := now }
  updateEntryHighWater t run entrySequence (s.nextValue + 1)

/-- The fact that a call is prepared or dispatched. -/
def writeToolFact (s : Store) (run : Run) (call : ToolCall) (factKind : ToolFactKind)
    (auditKind : ToolAuditKind) (recoveryPlan : Option String) (bindings : List WebModelBinding)
    (now : Nat) : Store :=
  let t := s.drawn (s.nextValue + 2) s.nextIdentifier
  let t := { t with
    webModelBindings := bindings ++ t.webModelBindings
    toolOperationFacts :=
      { factSequence := s.nextValue
        callId := call.callId
        operationId := call.operationId
        sessionId := run.sessionId
        runId := run.id
        factKind := factKind
        recoveryPlan := recoveryPlan
        result := none
        resultStatus := none
        createdAtMilliseconds := now
        workspaceDeliveryEventId := none } :: t.toolOperationFacts }
  insertToolAudit t (s.nextValue + 1) call auditKind now

/-- The result of a call, at its place in the transcript. -/
def recordToolResult (s : Store) (run : Run) (call : ToolCall) (result : ToolResult)
    (factKind : ToolFactKind) (resultStatus : ToolResultStatus) (entrySequence now : Nat) : Store :=
  writeToolResult (s.drawn (s.nextValue + 3) (s.nextIdentifier + 3)) run call call.operationId
    result factKind resultStatus entrySequence now s.nextIdentifier (s.nextIdentifier + 1)
    (if result.isUncertain then some (s.nextIdentifier + 2) else none) s.nextValue (s.nextValue + 1)
    (s.nextValue + 2)

@[simp] theorem recordToolResult_toolOperationFacts (s : Store) (run : Run) (call : ToolCall)
    (result : ToolResult) (factKind : ToolFactKind) (resultStatus : ToolResultStatus)
    (entrySequence now : Nat) :
    (recordToolResult s run call result factKind resultStatus entrySequence now).toolOperationFacts =
      ⟨s.nextValue, call.callId, call.operationId, run.sessionId, run.id, factKind, none,
        some result, some resultStatus, now,
        if result.isUncertain then some (s.nextIdentifier + 2) else none⟩ :: s.toolOperationFacts :=
  rfl

theorem recordToolResult_deliveryEvents (s : Store) (run : Run) (call : ToolCall)
    (result : ToolResult) (factKind : ToolFactKind) (resultStatus : ToolResultStatus)
    (entrySequence now : Nat) :
    (recordToolResult s run call result factKind resultStatus entrySequence now).deliveryEvents =
      ((if result.isUncertain then some (s.nextIdentifier + 2) else none).map fun eventId =>
        DeliveryEvent.mk eventId s.nextValue run.sessionId .toolUncertaintyChanged now).toList ++
        ⟨s.nextIdentifier + 1, s.nextValue + 1, run.sessionId, .toolResult, now⟩ ::
          s.deliveryEvents :=
  rfl

/-- A result is classified as one of the terminal facts. -/
theorem classifyResult_terminal {result : ToolResult} {dispatched : Bool} {factKind : ToolFactKind}
    {resultStatus : ToolResultStatus}
    (h : classifyResult result dispatched = .ok (factKind, resultStatus)) :
    factKind.isTerminal = true := by
  unfold classifyResult at h
  split at h <;> first | (cases h; done) | (cases h; rfl)

/-- A committed call of an active run. -/
structure ActiveCall (s : Store) (run : Run) (call : ToolCall) : Prop where
  found : loadRun s run.id = some run
  active : run.state = .active
  foundCall : Table.find ToolCall.callId call.callId s.toolCalls = some call
  ofRun : call.runId = run.id
  ofSession : call.sessionId = run.sessionId

/-- An active run of a session with room for one more entry. -/
structure EntryAdmitted (s : Store) (run : Run) (state : SessionRunState) : Prop where
  found : loadRun s run.id = some run
  active : run.state = .active
  foundState : loadSessionRunState s run.sessionId = some state
  room : state.entryHighWater + 1 ≤ maxTranscriptEntries

/-- A run that has its answer can succeed. -/
theorem EntryAdmitted.answer_movable {s : Store} {run : Run} {state : SessionRunState}
    {fact : ProviderOperationFact} {assistant : CompletedAssistant} {entrySequence now n : Nat}
    (entry : EntryAdmitted s run state) (completed : fact.factKind = .completed)
    (number : s.nextValue + 3 < n) :
    Movable (writeFinalEntry (writeProviderOutcome s run fact) run assistant entrySequence now) run
      .succeeded none .runSucceeded n := by
  have hruns : (writeProviderOutcome s run fact).runs = Table.modify Run.id run.id
      (fun r => { r with providerTurns := run.providerTurns + 1 }) s.runs := if_pos completed
  have hfound : Table.find Run.id run.id (writeProviderOutcome s run fact).runs =
      some { run with providerTurns := run.providerTurns + 1 } := by
    rw [hruns]
    exact Table.find_rewritten entry.found fun _ => rfl
  exact
    { found := ⟨_, hfound, rfl, rfl⟩
      running := by simp [entry.active, RunState.isTerminal]
      later := by simp [entry.active, RunState.rank]
      event := rfl
      failed := by simp
      number := number }

/-- A run whose call has an unknown effect can end as uncertain. -/
theorem ActiveCall.uncertain_movable {s : Store} {run : Run} {call : ToolCall} {result : ToolResult}
    {factKind : ToolFactKind} {resultStatus : ToolResultStatus} {entrySequence now n : Nat}
    (active : ActiveCall s run call) (number : s.nextValue + 3 < n) :
    Movable (recordToolResult s run call result factKind resultStatus entrySequence now) run
      .uncertain none .runUncertain n where
  found := ⟨_, Table.find_rewritten active.found fun _ => rfl, rfl, rfl⟩
  running := by simp [active.active, RunState.isTerminal]
  later := by simp [active.active, RunState.rank]
  event := rfl
  failed := by simp
  number := number

/-! ## Local commands -/

def writeCommandActivation (s : Store) (row : LocalCommand) (now : Nat) : Store :=
  let t := s.drawn (s.nextValue + 2) s.nextIdentifier
  let t := { t with
    localCommands := Table.modify LocalCommand.commandId row.commandId
      (fun r => { r with
        state := .active
        updatedSequence := s.nextValue
        updatedAtMilliseconds := now }) t.localCommands }
  insertLocalCommandAudit t (s.nextValue + 1) row.commandId none row.sessionId .active now

def writeCommandResult (s : Store) (row : LocalCommand) (result : ToolResult)
    (entrySequence now : Nat) : Store :=
  let t := s.drawn (s.nextValue + 2) (s.nextIdentifier + 2)
  let t := { t with
    localCommands := Table.modify LocalCommand.commandId row.commandId
      (fun r => { r with
        state := terminalCommandState result
        result := some result
        entrySequence := some entrySequence
        messageId := some s.nextIdentifier
        updatedSequence := s.nextValue
        updatedAtMilliseconds := now
        deliveryEventId := some (s.nextIdentifier + 1) }) t.localCommands }
  let t := updateSessionRunState t row.sessionId fun r => { r with
    entryHighWater := entrySequence
    updatedSequence := s.nextValue }
  let t := updateSession t row.sessionId fun r => { r with updatedSequence := s.nextValue }
  let t := insertDeliveryEvent t (s.nextIdentifier + 1) s.nextValue row.sessionId .localCommandEntry
    now
  insertLocalCommandAudit t (s.nextValue + 1) row.commandId none row.sessionId .completed now

def writeCommandCancellation (s : Store) (requestId : MutationRequestId)
    (fingerprint : Fingerprint) (row : LocalCommand) (now : Nat) : Store :=
  let applied := !row.state.isTerminal && !row.cancellationRequested
  let t := s.drawn (s.nextValue + 2) s.nextIdentifier
  let t := insertMutationRequest t requestId .localCommandCancel s.nextValue now
  let t := { t with
    localCommandCancellations :=
      ⟨requestId, fingerprint, row.sessionId, row.commandId, applied, s.nextValue, now⟩ ::
        t.localCommandCancellations
    localCommands := if applied then
        Table.modify LocalCommand.commandId row.commandId
          (fun r => { r with
            cancellationRequested := true
            updatedSequence := s.nextValue
            updatedAtMilliseconds := now }) t.localCommands
      else t.localCommands }
  insertLocalCommandAudit t (s.nextValue + 1) row.commandId (some requestId) row.sessionId
    .cancellationRequested now

/-! ## Steering -/

/-- A change of a queue draws a number, perhaps an identifier, and is registered. -/
theorem steering_frame {s u : Store} {mutation : SteeringMutation} {now : Nat}
    {item : Option SteeringItemId × Option Nat}
    (applied : applySteeringChange (s.drawn (s.nextValue + 1) s.nextIdentifier)
      mutation.sessionId s.nextValue now mutation.change = .ok (item, u)) :
    s.nextIdentifier ≤ u.nextIdentifier ∧
    writeSteeringReceipt u mutation (mutation.request s.nextValue now item) =
      { insertMutationRequest (s.drawn (s.nextValue + 1) u.nextIdentifier) mutation.requestId
          .steering s.nextValue now with
        steeringQueues := (updateSteeringQueue u mutation.sessionId fun q =>
          { q with revision := mutation.expectedRevision + 1 }).steeringQueues
        steeringPendingMessages := u.steeringPendingMessages
        steeringMutationRequests :=
          mutation.request s.nextValue now item :: s.steeringMutationRequests } := by
  obtain ⟨hframe, hidentifier⟩ := applySteeringChange_frame applied
  refine ⟨hidentifier, ?_⟩
  rw [hframe]
  rfl

/-! ## The kinds of writes -/

/-- Neither a run nor a command of the session is under way. -/
structure Idle (s : Store) (sessionId : SessionId) : Prop where
  run : ∃ state, loadSessionRunState s sessionId = some state ∧ state.activeRunId = none
  command : activeLocalCommand s sessionId = none

inductive Write (d : Discipline) (s : Store) : Store → Prop
  /-- Numbers and identifiers are drawn. -/
  | advance (n i : Nat) (number : s.nextValue ≤ n) (identifier : s.nextIdentifier ≤ i) :
      Write d s (s.drawn n i)
  /-- A restart pauses every queue. -/
  | recovery (u : Store) (now : Nat) (paused : pause s none none .recovery none now = .ok u) :
      Write d s u
  | steering (mutation : SteeringMutation) (u : Store)
      (item : Option SteeringItemId × Option Nat) (now : Nat)
      (fresh : loadMutationOperation s mutation.requestId = none)
      (text : ∀ text ∈ mutation.change.text, validateSteeringText text = .ok ())
      (admitted : admitSteeringChange s mutation = .ok ())
      (applied : applySteeringChange (s.drawn (s.nextValue + 1) s.nextIdentifier)
        mutation.sessionId s.nextValue now mutation.change = .ok (item, u))
      (queue : (loadSteeringQueue u mutation.sessionId).isSome) :
      Write d s (writeSteeringReceipt u mutation (mutation.request s.nextValue now item))
  | creationRequest (requestId : MutationRequestId) (fingerprint : Fingerprint)
      (displayName : Option String) (workingDirectory : String) (now : Nat)
      (fresh : loadMutationOperation s requestId = none) :
      Write d s (writeCreationRequest s requestId fingerprint displayName workingDirectory now)
  | workspaceDispatched (request : SessionCreationRequest)
      (found : loadCreationRequest s request.requestId = some request)
      (prepared : request.state = .prepared) :
      Write d s (updateCreationRequest s request.requestId .workspaceDispatched)
  | session (request : SessionCreationRequest)
      (found : loadCreationRequest s request.requestId = some request)
      (dispatched : request.state = .workspaceDispatched) :
      Write d s (writeSession (s.drawn (s.nextValue + 1) (s.nextIdentifier + 1)) request
        s.nextIdentifier s.nextValue)
  | rename (requestId : MutationRequestId) (fingerprint : Fingerprint) (sessionId : SessionId)
      (displayName : String) (now : Nat) (fresh : loadMutationOperation s requestId = none)
      (found : (loadSession s sessionId).isSome) :
      Write d s (writeRename (s.drawn (s.nextValue + 1) (s.nextIdentifier + 1)) requestId
        fingerprint sessionId displayName s.nextIdentifier s.nextValue now)
  | archiveRequest (requestId : MutationRequestId) (fingerprint : Fingerprint)
      (sessionId : SessionId) (archived : Bool) (now : Nat) (u : Store)
      (fresh : loadMutationOperation s requestId = none)
      (found : (loadSession s sessionId).isSome)
      (paused : requestArchive s requestId fingerprint sessionId archived now = .ok u) :
      Write d s u
  | archive (request : SessionArchiveRequest) (state : SessionRunState)
      (found : loadArchiveRequest s request.requestId = some request)
      (pending : request.complete = false)
      (foundState : loadSessionRunState s request.sessionId = some state)
      (idle : state.activeRunId = none) (command : activeLocalCommand s request.sessionId = none)
      (foundSession : (loadSession s request.sessionId).isSome) :
      Write d s (writeArchive s request)
  | deleteRequest (requestId : MutationRequestId) (fingerprint : Fingerprint)
      (sessionId : SessionId) (session : Session) (now : Nat) (rule : d.deletes)
      (fresh : loadMutationOperation s requestId = none)
      (found : loadSession s sessionId = some session) (archived : session.archived = true)
      (idle : Idle s sessionId) (single : ∀ r ∈ s.sessionDeleteRequests, r.sessionId ≠ sessionId)
      (canonical : fingerprint = .deleteSession sessionId) :
      Write d s (writeDeleteRequest (s.drawn (s.nextValue + 1) (s.nextIdentifier + 1)) requestId
        fingerprint sessionId s.nextIdentifier s.nextValue now)
  | cleanup (request : SessionDeleteRequest) (session : Session) (rule : d.deletes)
      (found : loadDeleteRequest s request.requestId = some request)
      (prepared : request.state = .prepared)
      (foundSession : loadSession s request.sessionId = some session)
      (archived : session.archived = true) (idle : Idle s request.sessionId) :
      Write d s (writeCleanup s request)
  | delete (request : SessionDeleteRequest) (rule : d.deletes)
      (found : loadDeleteRequest s request.requestId = some request)
      (cleaned : request.state = .databaseCleaned) :
      Write d s (writeDelete s request)
  | acceptance (requestId : MutationRequestId) (fingerprint : Fingerprint) (sessionId : SessionId)
      (session : Session) (state : SessionRunState) (binding : RunBinding)
      (checkpoint : Option ContextCheckpointId) (text : String) (context : RunInputContext)
      (now : Nat) (fresh : loadMutationOperation s requestId = none)
      (admitted : InputAdmitted s sessionId session state binding)
      (sized : ContextAdmitted s sessionId state.entryHighWater binding checkpoint text context) :
      Write d s (writeAcceptance (s.drawn (s.nextValue + 3) (s.nextIdentifier + 4)) requestId
        fingerprint sessionId s.nextIdentifier (s.nextIdentifier + 1) binding checkpoint text context
        now
        (s.nextIdentifier + 2) (s.nextIdentifier + 3) s.nextValue (s.nextValue + 1)
        (s.nextValue + 2))
  | activate (run : Run) (now n : Nat) (movable : Movable s run .active none .runActive n) :
      Write d s (moveRun s run .active none .runActive now n)
  | prepare (run : Run) (state : SessionRunState) (estimatedInputTokens now : Nat)
      (found : loadRun s run.id = some run) (active : run.state = .active)
      (foundState : loadSessionRunState s run.sessionId = some state)
      (estimate : estimatedInputTokens ≠ 0) (free : pendingOperation s run.id = none) :
      Write d s (writeProviderFact { s with nextIdentifier := s.nextIdentifier + 1 } run
        { factSequence := s.nextValue
          operationId := s.nextIdentifier
          runId := run.id
          factKind := .prepared
          preparation := some
            { service := run.binding.service
              modelId := run.binding.modelId
              protocolRevision := run.binding.protocolRevision
              credentialGeneration := run.binding.credentialGeneration
              contextPolicyVersion := run.binding.contextPolicyVersion
              sourceEntryHighWater := state.entryHighWater
              turnIndex := (s.providerOperationFacts.countP fun f =>
                f.runId = run.id && f.factKind = .prepared) + 1
              toolCatalogVersion := run.binding.toolCatalogVersion
              toolLimitsVersion := run.binding.toolLimitsVersion
              estimatedInputTokens := estimatedInputTokens }
          completion := none
          failure := none
          createdAtMilliseconds := now })
  | dispatch (run : Run) (operationId : ProviderOperationId) (now : Nat)
      (found : loadRun s run.id = some run) (active : run.state = .active)
      (known : ∃ f ∈ s.providerOperationFacts, f.operationId = operationId ∧ f.runId = run.id ∧
        f.factKind = .prepared)
      (open_ : providerTerminal s operationId = false)
      (fresh : ∀ f ∈ s.providerOperationFacts, f.operationId = operationId →
        f.factKind ≠ .dispatched) :
      Write d s (writeProviderFact s run
        { factSequence := s.nextValue
          operationId := operationId
          runId := run.id
          factKind := .dispatched
          preparation := none
          completion := none
          failure := none
          createdAtMilliseconds := now })
  /-- An outcome after which the run goes on. -/
  | outcome (run : Run) (fact : ProviderOperationFact) (found : loadRun s run.id = some run)
      (active : run.state = .active) (admitted : OutcomeAdmitted s run fact)
      (open_ : providerTerminal s fact.operationId = false) :
      Write d s (writeProviderOutcome s run fact)
  /-- The end of a run without an answer. -/
  | finish (run : Run) (outcome : Option ProviderOperationFact) (state : RunState)
      (failure : Option RunFailureKind) (kind : EventKind) (now : Nat) (u : Store)
      (found : loadRun s run.id = some run)
      (admitted : ∀ fact ∈ outcome, OutcomeAdmitted s run fact)
      (stopped : state = .failed ∨ state = .cancelled ∨ state = .interrupted)
      (paused : pauseEnded (settled s run outcome) run now = .ok u)
      (movable : Movable (settled s run outcome) run state failure kind u.nextValue)
      (completed : ∀ fact ∈ outcome, fact.factKind = .completed → state = .cancelled)
      (rule : d.finishes s.providerOperationFacts run.id (outcome.map (·.operationId))) :
      Write d s (endRun (settled s run outcome) u run state failure kind now)
  | answer (run : Run) (state : SessionRunState) (fact : ProviderOperationFact)
      (assistant : CompletedAssistant) (now : Nat) (u : Store) (entry : EntryAdmitted s run state)
      (admitted : OutcomeAdmitted s run fact) (completed : fact.factKind = .completed)
      (paused : pauseEnded (writeFinalEntry (writeProviderOutcome s run fact) run assistant
        (state.entryHighWater + 1) now) run now = .ok u) :
      Write d s (endRun (writeFinalEntry (writeProviderOutcome s run fact) run assistant
        (state.entryHighWater + 1) now) u run .succeeded none .runSucceeded now)
  | cancellation (requestId : MutationRequestId) (fingerprint : Fingerprint) (run : Run) (now : Nat)
      (fresh : loadMutationOperation s requestId = none)
      (foundSession : (loadSession s run.sessionId).isSome)
      (found : loadRun s run.id = some run)
      (room : s.runCancellationRequests.length < maxRunCancellationRequests)
      (recordable : run.state.toRecord ≤ 6)
      (canonical : fingerprint = .cancelRun run.sessionId run.id) (u : Store)
      (paused : cancelled s requestId fingerprint run now = .ok u) :
      Write d s u
  | commentary (run : Run) (state : SessionRunState) (text : String) (refusal : Bool) (now : Nat)
      (entry : EntryAdmitted s run state) :
      Write d s (writeCommentary s run (state.entryHighWater + 1) text refusal now)
  | toolCall (run : Run) (state : SessionRunState) (providerOperationId : ProviderOperationId)
      (call : ProviderToolCall) (callIndex now : Nat) (entry : EntryAdmitted s run state)
      (completed : ∃ f ∈ s.providerOperationFacts, f.operationId = providerOperationId ∧
        f.runId = run.id ∧ f.factKind = .completed)
      (fresh : ∀ c ∈ s.toolCalls, c.runId = run.id → c.providerCallId ≠ call.providerCallId)
      (rule : d.calls run.binding call) :
      Write d s (writeToolCall s run providerOperationId call callIndex (state.entryHighWater + 1)
        now)
  | toolPrepared (run : Run) (call : ToolCall) (recoveryPlan : Option String) (now : Nat)
      (active : ActiveCall s run call) (fresh : ∀ f ∈ s.toolOperationFacts, f.callId ≠ call.callId)
      (rule : d.plans call recoveryPlan) :
      Write d s (writeToolFact s run call .prepared .prepared recoveryPlan [] now)
  | toolDispatched (run : Run) (call : ToolCall) (bindings : List WebModelBinding) (now : Nat)
      (active : ActiveCall s run call) (prepared : toolHasFact s call.callId .prepared = true)
      (open_ : toolTerminal s call.callId = false)
      (fresh : toolHasFact s call.callId .dispatched = false) :
      Write d s (writeToolFact s run call .dispatched .dispatched none bindings now)
  | toolResult (run : Run) (state : SessionRunState) (call : ToolCall) (result : ToolResult)
      (factKind : ToolFactKind) (resultStatus : ToolResultStatus) (now : Nat)
      (active : ActiveCall s run call) (entry : EntryAdmitted s run state)
      (prepared : toolHasFact s call.callId .prepared = true)
      (open_ : toolTerminal s call.callId = false)
      (classified : classifyResult result (toolHasFact s call.callId .dispatched) =
        .ok (factKind, resultStatus))
      (uncertain : factKind = .uncertain ↔ result.isUncertain)
      (payload : result.payloadBytes ≤ maxToolPayloadBytes)
      (goesOn : result.stopsRun run.binding.toolCatalogVersion = false)
      (rule : d.results call result (toolHasFact s call.callId .dispatched)) :
      Write d s (recordToolResult s run call result factKind resultStatus
        (state.entryHighWater + 1) now)
  /-- A result of unknown effect ends the run. -/
  | toolUncertain (run : Run) (state : SessionRunState) (call : ToolCall) (result : ToolResult)
      (factKind : ToolFactKind) (resultStatus : ToolResultStatus) (now : Nat) (u : Store)
      (active : ActiveCall s run call) (entry : EntryAdmitted s run state)
      (prepared : toolHasFact s call.callId .prepared = true)
      (open_ : toolTerminal s call.callId = false)
      (classified : classifyResult result (toolHasFact s call.callId .dispatched) =
        .ok (factKind, resultStatus))
      (uncertain : factKind = .uncertain ↔ result.isUncertain)
      (payload : result.payloadBytes ≤ maxToolPayloadBytes)
      (stops : result.stopsRun run.binding.toolCatalogVersion = true)
      (paused : pauseEnded (recordToolResult s run call result factKind resultStatus
        (state.entryHighWater + 1) now) run now = .ok u)
      (rule : d.results call result (toolHasFact s call.callId .dispatched))
      (ends : d.finishes s.providerOperationFacts run.id none) :
      Write d s (endRun (recordToolResult s run call result factKind resultStatus
        (state.entryHighWater + 1) now) u run .uncertain none .runUncertain now)
  | commandAcceptance (requestId : MutationRequestId) (fingerprint : Fingerprint)
      (sessionId : SessionId) (command : String) (contextVisible : Bool) (session : Session)
      (state : SessionRunState) (now : Nat) (fresh : loadMutationOperation s requestId = none)
      (foundSession : loadSession s sessionId = some session)
      (foundState : loadSessionRunState s sessionId = some state)
      (idle : state.activeRunId = none) (free : activeLocalCommand s sessionId = none)
      (canonical : fingerprint = .localCommand sessionId command contextVisible)
      (text : validateLocalCommand command = .ok ()) :
      Write d s (writeLocalCommand (s.drawn (s.nextValue + 2) (s.nextIdentifier + 2)) requestId
        fingerprint sessionId command contextVisible s.nextIdentifier (s.nextIdentifier + 1)
        s.nextValue (s.nextValue + 1) now)
  | commandActivation (row : LocalCommand) (now : Nat)
      (found : loadLocalCommand s row.commandId = some row) (accepted : row.state = .accepted)
      (kept : row.cancellationRequested = false) (clock : row.acceptedAtMilliseconds ≤ now) :
      Write d s (writeCommandActivation s row now)
  | commandResult (row : LocalCommand) (state : SessionRunState) (result : ToolResult) (now : Nat)
      (found : loadLocalCommand s row.commandId = some row) (running : row.state.isTerminal = false)
      (canonical : validateCanonicalBashResult result = true)
      (payload : result.payloadBytes ≤ maxToolPayloadBytes)
      (foundState : loadSessionRunState s row.sessionId = some state)
      (room : state.entryHighWater + 1 ≤ maxTranscriptEntries)
      (clock : row.acceptedAtMilliseconds ≤ now) :
      Write d s (writeCommandResult s row result (state.entryHighWater + 1) now)
  | commandCancellation (requestId : MutationRequestId) (fingerprint : Fingerprint)
      (row : LocalCommand) (now : Nat) (fresh : loadMutationOperation s requestId = none)
      (found : loadLocalCommand s row.commandId = some row)
      (canonical : fingerprint = .cancelLocalCommand row.sessionId row.commandId)
      (clock : row.state.isTerminal = false → row.cancellationRequested = false →
        row.acceptedAtMilliseconds ≤ now) :
      Write d s (writeCommandCancellation s requestId fingerprint row now)

/-- Any number of writes. -/
def Writes (d : Discipline) : Store → Store → Prop := Relation.ReflTransGen (Write d)

end Morons
