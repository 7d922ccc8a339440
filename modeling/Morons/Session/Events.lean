import Morons.Run.History

/-!
# Reading the events of a session

The events of a session are read again from any cursor: the delivered events of
kinds 2 to 17 in the order of their numbers, each with what it told of.  A run
is shown as its facts up to the number of the event leave it, a transcript
entry and a command from their rows, the workspace from the facts up to the
event.
-/

namespace Morons.SessionEvents

open Attempt Ledger ContextHistory

/-! ## The workspace -/

inductive WorkspaceState
  | empty | importing | ready | blocked
  deriving DecidableEq

inductive WorkspaceBlockReason
  | inconsistentImportState | uncertainToolEffect
  deriving DecidableEq

structure WorkspaceSummary where
  state : WorkspaceState
  fileCount : Nat
  logicalBytes : Nat
  blockReason : Option WorkspaceBlockReason
  blockedRunId : Option RunId
  blockedTool : Option ToolKind
  deriving DecidableEq

/-- The kind of an import fact with the counts that the table allows it. -/
inductive ImportOutcome
  | prepared
  | dispatched
  | completed (fileCount logicalBytes : Nat)
  | notApplied
  | blocked
  deriving DecidableEq

namespace ImportOutcome

/-- `fact_kind IN (1, 3, 4, 5)`. -/
def isSummarized : ImportOutcome → Bool
  | dispatched => false
  | prepared | completed .. | notApplied | blocked => true

end ImportOutcome

structure RepositoryImportFact where
  factSequence : Nat
  sessionId : SessionId
  outcome : ImportOutcome
  deliveryEventId : Option DeliveryEventId
  deriving DecidableEq

structure ToolUncertaintyAcknowledgement where
  sessionId : SessionId
  runId : RunId
  factSequence : Nat
  deliveryEventId : DeliveryEventId
  deriving DecidableEq

/-- Tables of earlier versions.  They are read, but nothing writes them any more. -/
structure WorkspaceTables where
  repositoryImportFacts : List RepositoryImportFact := []
  toolUncertaintyAcknowledgements : List ToolUncertaintyAcknowledgement := []

def emptyWorkspace : WorkspaceSummary := ⟨.empty, 0, 0, none, none, none⟩

def importSummary : Option ImportOutcome → Except PersistenceError WorkspaceSummary
  | none | some .notApplied => .ok emptyWorkspace
  | some .prepared => .ok ⟨.importing, 0, 0, none, none, none⟩
  | some (.completed fileCount logicalBytes) => .ok ⟨.ready, fileCount, logicalBytes, none, none, none⟩
  | some .blocked => .ok ⟨.blocked, 0, 0, some .inconsistentImportState, none, none⟩
  | some .dispatched =>
    .error (.invalidState "repository import facts have an invalid workspace summary")

/-- The uncertain facts of a session up to an event that are not acknowledged up to it, with the
tools of their calls. -/
def unacknowledged (w : WorkspaceTables) (s : Store) (sessionId : SessionId) (eventSequence : Nat) :
    List (ToolOperationFact × ToolKind) :=
  (s.toolOperationFacts.filter fun f =>
    f.sessionId = sessionId && f.factKind = .uncertain && decide (f.factSequence ≤ eventSequence) &&
      !w.toolUncertaintyAcknowledgements.any fun a =>
        a.runId = f.runId && decide (a.factSequence ≤ eventSequence)).filterMap fun f =>
    (Table.find ToolCall.callId f.callId s.toolCalls).map fun call => (f, call.input.kind)

/-- `u64::MAX` stands for the newest event. -/
def workspaceSequence (eventSequence : Nat) : Except PersistenceError Nat :=
  if eventSequence = 2 ^ 64 - 1 then return maxInteger
  else do
    sequenceToSql eventSequence
    return eventSequence

def workspaceSummaryAtSequence (w : WorkspaceTables) (s : Store) (sessionId : SessionId)
    (eventSequence : Nat) : Except PersistenceError WorkspaceSummary := do
  let eventSequence ← workspaceSequence eventSequence
  let record := latest RepositoryImportFact.factSequence (w.repositoryImportFacts.filter fun f =>
    f.sessionId = sessionId && decide (f.factSequence ≤ eventSequence) && f.outcome.isSummarized)
  let summary ← importSummary (record.map (·.outcome))
  if summary.state ≠ .ready then
    return summary
  match latest (·.1.factSequence) (unacknowledged w s sessionId eventSequence) with
  | none => return summary
  | some (uncertain, tool) =>
    return { summary with
      state := .blocked
      blockReason := some .uncertainToolEffect
      blockedRunId := some uncertain.runId
      blockedTool := some tool }

def workspaceSummaryForEvent (w : WorkspaceTables) (s : Store) (sessionId : SessionId)
    (eventId : DeliveryEventId) (eventSequence : Nat) : Except PersistenceError WorkspaceSummary := do
  sequenceToSql eventSequence
  require ((w.repositoryImportFacts.any fun f =>
        f.sessionId = sessionId && f.deliveryEventId = some eventId &&
          f.factSequence = eventSequence && f.outcome.isSummarized) ||
      (s.toolOperationFacts.any fun f =>
        f.sessionId = sessionId && f.workspaceDeliveryEventId = some eventId &&
          f.factSequence = eventSequence && f.factKind = .uncertain) ||
      w.toolUncertaintyAcknowledgements.any fun a =>
        a.sessionId = sessionId && a.deliveryEventId = eventId && a.factSequence = eventSequence)
    (.invalidState "a workspace event is missing its canonical import fact")
  workspaceSummaryAtSequence w s sessionId eventSequence

/-! ## Runs at an event -/

/-- A run as it is shown: its row without the numbers of its changes. -/
structure RunSnapshot where
  id : RunId
  sessionId : SessionId
  userMessageId : MessageId
  binding : RunBinding
  providerTurns : Nat
  toolCalls : Nat
  toolMutations : Nat
  toolResultBytes : Nat
  state : RunState
  cancellationRequested : Bool
  failure : Option RunFailureKind
  acceptedAtMilliseconds : Nat
  updatedAtMilliseconds : Nat
  deriving DecidableEq

/-- The run of an accepted fact. -/
def acceptedSnapshot (f : RunAcceptedFact) : RunSnapshot where
  id := f.runId
  sessionId := f.sessionId
  userMessageId := f.userMessageId
  binding := f.binding
  providerTurns := 0
  toolCalls := 0
  toolMutations := 0
  toolResultBytes := 0
  state := .accepted
  cancellationRequested := false
  failure := none
  acceptedAtMilliseconds := f.acceptedAtMilliseconds
  updatedAtMilliseconds := f.acceptedAtMilliseconds

/-- The newest state fact of a run up to an event. -/
def stateAtSequence (s : Store) (runId : RunId) (eventSequence : Nat) : Option RunStateFact :=
  latest RunStateFact.factSequence (s.runStateFacts.filter fun f =>
    f.runId = runId && decide (f.factSequence ≤ eventSequence))

/-- The newest applied cancellation of a run up to an event. -/
def cancellationAtSequence (s : Store) (runId : RunId) (eventSequence : Nat) :
    Option RunCancellationRequest :=
  latest RunCancellationRequest.factSequence (s.runCancellationRequests.filter fun c =>
    c.runId = runId && c.intentApplied && decide (c.factSequence ≤ eventSequence))

def applyState (run : RunSnapshot) : Option RunStateFact → RunSnapshot
  | none => run
  | some f => { run with
      state := f.state
      failure := f.failure
      updatedAtMilliseconds := f.createdAtMilliseconds }

def applyCancellationAt (run : RunSnapshot) (updatedSequence : Nat) :
    Option RunCancellationRequest → RunSnapshot
  | none => run
  | some c => { run with
      cancellationRequested := true
      updatedAtMilliseconds := if updatedSequence < c.factSequence then c.acceptedAtMilliseconds
        else run.updatedAtMilliseconds }

def loadRunAtSequence (s : Store) (runId : RunId) (eventSequence : Nat) :
    Except PersistenceError RunSnapshot := do
  sequenceToSql eventSequence
  let accepted ← demand (.invalidState "a session event references a run outside its snapshot")
    (s.runAcceptedFacts.find? fun f => f.runId = runId && decide (f.factSequence ≤ eventSequence))
  let state := stateAtSequence s runId eventSequence
  require (∀ f ∈ state, f.state = .failed ↔ f.failure.isSome)
    (.invalidState "a session event run has an invalid failure classification")
  return applyCancellationAt (applyState (acceptedSnapshot accepted) state)
    ((state.map (·.factSequence)).getD 0) (cancellationAtSequence s runId eventSequence)

/-- The runs of a session that are accepted and not over up to an event, the newest first. -/
def nonterminalRuns (s : Store) (sessionId : SessionId) (eventSequence : Nat) :
    List RunAcceptedFact :=
  (ordered RunAcceptedFact.factSequence (s.runAcceptedFacts.filter fun a =>
    a.sessionId = sessionId && decide (a.factSequence ≤ eventSequence) &&
      !s.runStateFacts.any fun f =>
        f.runId = a.runId && decide (f.factSequence ≤ eventSequence) && f.state.isTerminal)).reverse

def activeRunIdAtSequence (s : Store) (sessionId : SessionId) (eventSequence : Nat) :
    Except PersistenceError (Option RunId) := do
  sequenceToSql eventSequence
  match (nonterminalRuns s sessionId eventSequence).take 2 with
  | [] => return none
  | [run] => return some run.runId
  | _ => throw (.invalidState "a session snapshot has multiple nonterminal runs")

/-! ## The rows of an event -/

/-- The kinds of the events that go with an entry. -/
def entryOfKind : TranscriptBody → EventKind → Bool
  | .userMessage .., .userMessage | .assistantMessage .., .assistantMessage
  | .toolCall .., .toolCall | .toolResult .., .toolResult => true
  | _, _ => false

def loadEntryForEvent (s : Store) (sessionId : SessionId) (eventId : DeliveryEventId)
    (eventKind : EventKind) : Except PersistenceError TranscriptEntry := do
  let row ← demand (.invalidState "a transcript delivery event is missing its canonical entry")
    (s.sessionEntries.find? fun e => e.sessionId = sessionId && e.deliveryEventId = eventId)
  let entry ← transcriptEntryFromRow s row
  require (entryOfKind entry.body eventKind)
    (.invalidState "a transcript delivery event conflicts with its entry kind")
  return entry

def attachEventImages (s : Store) (sessionId : SessionId) (entry : TranscriptEntry) :
    Except PersistenceError TranscriptEntry :=
  match entry.body with
  | .userMessage runId text _ => do
    let loaded := loadMessageImageAttachments s sessionId entry.id
    require (validStoredAttachments text loaded)
      (.invalidState "user message event image attachments are invalid")
    return { entry with body := .userMessage runId text loaded }
  | _ => return entry

def loadLocalCommandEntryForEvent (s : Store) (sessionId : SessionId) (eventId : DeliveryEventId) :
    Except PersistenceError TranscriptEntry := do
  let row ← demand (.invalidState "a local command event is missing its transcript entry")
    (s.localCommands.find? fun c =>
      c.sessionId = sessionId && c.deliveryEventId = some eventId && c.state.isTerminal)
  localCommandEntryFromRow row

def loadEventRunId (s : Store) (sessionId : SessionId) (eventId : DeliveryEventId) :
    EventKind → Except PersistenceError RunId
  | .runAccepted =>
    demand missing ((s.runAcceptedFacts.find? fun f =>
      f.sessionId = sessionId && f.deliveryEventId = eventId).map (·.runId))
  | .cancellationRequested =>
    demand missing ((s.runCancellationRequests.find? fun c =>
      c.sessionId = sessionId && c.deliveryEventId = some eventId && c.intentApplied).map (·.runId))
  | .runActive | .runSucceeded | .runFailed | .runCancelled | .runInterrupted | .runUncertain =>
    demand missing ((s.runStateFacts.find? fun f =>
      f.sessionId = sessionId && f.deliveryEventId = eventId).map (·.runId))
  | _ => .error (.invalidState "a run delivery event has an unsupported kind")
where
  missing : PersistenceError := .invalidState "a run delivery event is missing its canonical fact"

/-- What a run event says of the run. -/
def runMatchesEvent (run : RunSnapshot) : EventKind → Bool
  | .runAccepted => run.state = .accepted && !run.cancellationRequested
  | .runActive => run.state = .active
  | .cancellationRequested => run.cancellationRequested && !run.state.isTerminal
  | .runSucceeded => run.state = .succeeded
  | .runFailed => run.state = .failed
  | .runCancelled => run.state = .cancelled
  | .runInterrupted => run.state = .interrupted
  | .runUncertain => run.state = .uncertain
  | _ => false

def validateEventRun (eventKind : EventKind) (run : RunSnapshot) : Except PersistenceError Unit :=
  require (runMatchesEvent run eventKind)
    (.invalidState "a run delivery event conflicts with its run state")

/-! ## Pages -/

structure SessionEventCursor where
  sessionId : SessionId
  sequence : Nat
  deriving DecidableEq

inductive SessionEventPayload
  | transcriptEntry (entry : TranscriptEntry)
  | localCommandChanged (commandId : LocalCommandId) (active : Bool)
  | runChanged (run : RunSnapshot)
  | workspaceChanged (summary : WorkspaceSummary)
  deriving DecidableEq

structure SessionEvent where
  cursor : SessionEventCursor
  payload : SessionEventPayload
  deriving DecidableEq

structure SessionEventPage where
  events : List SessionEvent
  highWater : SessionEventCursor
  deriving DecidableEq

def eventPayload (w : WorkspaceTables) (s : Store) (sessionId : SessionId) (e : DeliveryEvent) :
    Except PersistenceError SessionEventPayload :=
  match e.eventKind with
  | .userMessage | .assistantMessage | .toolCall | .toolResult => do
    let entry ← loadEntryForEvent s sessionId e.eventId e.eventKind
    let entry ← attachEventImages s sessionId entry
    return .transcriptEntry entry
  | .localCommandChanged => do
    let row ← demand (.invalidState "a local command event is missing its accepted command")
      (s.localCommands.find? fun c => c.sessionId = sessionId && c.acceptedEventId = e.eventId)
    return .localCommandChanged row.commandId true
  | .localCommandEntry => do
    let entry ← loadLocalCommandEntryForEvent s sessionId e.eventId
    return .transcriptEntry entry
  | .runAccepted | .runActive | .cancellationRequested | .runSucceeded | .runFailed | .runCancelled
  | .runInterrupted | .runUncertain => do
    let runId ← loadEventRunId s sessionId e.eventId e.eventKind
    let run ← loadRunAtSequence s runId e.eventSequence
    validateEventRun e.eventKind run
    return .runChanged run
  | .workspaceChanged | .toolUncertaintyChanged => do
    let summary ← workspaceSummaryForEvent w s sessionId e.eventId e.eventSequence
    return .workspaceChanged summary
  | _ => .error (.invalidState "a session delivery event has an unsupported kind")

def sessionEvent (w : WorkspaceTables) (s : Store) (sessionId : SessionId) (e : DeliveryEvent) :
    Except PersistenceError SessionEvent := do
  let payload ← eventPayload w s sessionId e
  return ⟨⟨sessionId, e.eventSequence⟩, payload⟩

/-- The events of a session between two numbers, in their order. -/
def eventRecords (s : Store) (sessionId : SessionId) (after through : Nat) : List DeliveryEvent :=
  ordered DeliveryEvent.eventSequence (s.deliveryEvents.filter fun e =>
    e.sessionId = sessionId && decide (after < e.eventSequence) &&
      decide (e.eventSequence ≤ through) &&
      decide (2 ≤ e.eventKind.toRecord ∧ e.eventKind.toRecord ≤ 17))

def readSessionEvents (w : WorkspaceTables) (s : Store) (sessionId : SessionId)
    (cursor : SessionEventCursor) (limit : Nat) : Except PersistenceError SessionEventPage := do
  require (cursor.sessionId = sessionId)
    (.invalidInput "a session event cursor belongs to another session")
  require (loadSession s sessionId).isSome .sessionNotFound
  let highWater := sessionEventHighWater s sessionId
  require (cursor.sequence ≤ highWater)
    (.invalidInput "a session event cursor is ahead of the durable event stream")
  sequenceToSql cursor.sequence
  sequenceToSql highWater
  let records := (eventRecords s sessionId cursor.sequence highWater).take limit
  let events ← records.mapM (sessionEvent w s sessionId)
  return ⟨events, ⟨sessionId, highWater⟩⟩

end Morons.SessionEvents
