import Morons.Startup.Steering

/-!
# Rebuilding the projections

At every start the projections are deleted and written anew from the canonical
facts: the steering queues, the sessions, the runs, the run states and the
delivery events.  The columns are recomputed by formulas of their own: counts,
sums, and the newest of several facts.
-/

namespace Morons

open Attempt Ledger

/-! ## Sessions -/

/-- `canonical_updates`: the numbers of the facts of a session. -/
def canonicalUpdates (s : Store) (sessionId : SessionId) : List Nat :=
  ((s.sessionCreatedFacts.filter fun r => r.sessionId = sessionId).map (·.factSequence)) ++
    ((s.runAcceptedFacts.filter fun r => r.sessionId = sessionId).map (·.factSequence)) ++
    ((s.sessionEntries.filter fun r => r.sessionId = sessionId).map (·.factSequence)) ++
    ((s.runStateFacts.filter fun r => r.sessionId = sessionId).map (·.factSequence)) ++
    ((s.runCancellationRequests.filter fun r =>
      r.sessionId = sessionId && r.intentApplied).map (·.factSequence)) ++
    ((s.toolCalls.filter fun r => r.sessionId = sessionId).map (·.factSequence)) ++
    ((s.toolOperationFacts.filter fun r => r.sessionId = sessionId).map (·.factSequence)) ++
    ((s.localCommands.filter fun r => r.sessionId = sessionId).map (·.updatedSequence)) ++
    ((s.localCommandCancellations.filter fun r =>
      r.sessionId = sessionId).map (·.acceptedSequence)) ++
    ((s.sessionRenameRequests.filter fun r => r.sessionId = sessionId).map (·.acceptedSequence)) ++
    ((s.sessionArchiveRequests.filter fun r =>
      r.sessionId = sessionId && r.complete).map (·.acceptedSequence))

/-- The row of a session, as `INSERT INTO sessions` selects it. -/
def rebuiltSession (s : Store) (f : SessionCreatedFact) : Session where
  id := f.sessionId
  workspaceId := f.workspaceId
  displayName := ((latest SessionRenameRequest.acceptedSequence
    (s.sessionRenameRequests.filter fun r => r.sessionId = f.sessionId)).map
      (·.displayName)).or f.displayName
  workingDirectory := f.workingDirectory
  createdSequence := f.acceptedSequence
  updatedSequence := greatest id (canonicalUpdates s f.sessionId)
  createdAtMilliseconds := f.createdAtMilliseconds
  archived := ((latest SessionArchiveRequest.acceptedSequence
    (s.sessionArchiveRequests.filter fun r => r.sessionId = f.sessionId && r.complete)).map
      (·.archived)).getD false

/-! ## Runs -/

/-- The newest state fact of a run. -/
def newestStateFact (s : Store) (runId : RunId) : Option RunStateFact :=
  latest RunStateFact.factSequence (s.runStateFacts.filter fun r => r.runId = runId)

/-- The numbers and times of the facts that update a run. -/
def runUpdates (s : Store) (runId : RunId) : List (Nat × Nat) :=
  ((s.runStateFacts.filter fun r => r.runId = runId).map fun r =>
      (r.factSequence, r.createdAtMilliseconds)) ++
    ((s.runCancellationRequests.filter fun r => r.runId = runId && r.intentApplied).map fun r =>
      (r.factSequence, r.acceptedAtMilliseconds)) ++
    ((s.toolCalls.filter fun r => r.runId = runId).map fun r =>
      (r.factSequence, r.createdAtMilliseconds)) ++
    ((s.toolOperationFacts.filter fun r => r.runId = runId).map fun r =>
      (r.factSequence, r.createdAtMilliseconds))

/-- The row of a run, as `INSERT INTO runs` selects it. -/
def rebuiltRun (s : Store) (f : RunAcceptedFact) : Run where
  id := f.runId
  sessionId := f.sessionId
  userMessageId := f.userMessageId
  binding := f.binding
  providerTurns := s.providerOperationFacts.countP fun r =>
    r.runId = f.runId && r.factKind = .completed
  toolCalls := s.toolCalls.countP fun r => r.runId = f.runId
  toolMutations := s.toolCalls.countP fun r =>
    r.runId = f.runId && decide (r.input.kind.toRecord ∈ [4, 5, 6, 7, 9, 10, 11, 13, 14])
  toolResultBytes := ((s.toolOperationFacts.filter fun r =>
    r.runId = f.runId && decide (3 ≤ r.factKind.toRecord ∧ r.factKind.toRecord ≤ 6)).map fun r =>
      (r.result.map (·.payloadBytes)).getD 0).sum
  state := ((newestStateFact s f.runId).map (·.state)).getD .accepted
  cancellationRequested := s.runCancellationRequests.any fun r =>
    r.runId = f.runId && r.intentApplied
  failure := (newestStateFact s f.runId).bind (·.failure)
  acceptedSequence := f.factSequence
  updatedSequence := max f.factSequence (greatest Prod.fst (runUpdates s f.runId))
  acceptedAtMilliseconds := f.acceptedAtMilliseconds
  updatedAtMilliseconds :=
    ((latest Prod.fst (runUpdates s f.runId)).map Prod.snd).getD f.acceptedAtMilliseconds

/-! ## Run states -/

/-- The row of a run state, as `INSERT INTO session_run_states` selects it. -/
def rebuiltRunState (s : Store) (f : SessionCreatedFact) : SessionRunState where
  sessionId := f.sessionId
  activeRunId := (s.runs.find? fun r =>
    r.sessionId = f.sessionId && (r.state = .accepted || r.state = .active)).map (·.id)
  entryHighWater := max
    (greatest SessionEntry.entrySequence (s.sessionEntries.filter fun r =>
      r.sessionId = f.sessionId))
    (greatest id ((s.localCommands.filter fun r => r.sessionId = f.sessionId).filterMap
      (·.entrySequence)))
  updatedSequence := greatest id (canonicalUpdates s f.sessionId)

/-! ## Delivery events -/

/-- A row that is selected for `delivery_events`. -/
structure EventRow where
  eventId : Option DeliveryEventId
  eventSequence : Nat
  sessionId : SessionId
  eventKind : Option EventKind
  createdAtMilliseconds : Nat
  deriving DecidableEq

/-- `CASE state WHEN 2 THEN 4 .. WHEN 7 THEN 14 END`. -/
def rebuiltEventKind : RunState → Option EventKind
  | .accepted => none
  | .active => some .runActive
  | .succeeded => some .runSucceeded
  | .failed => some .runFailed
  | .cancelled => some .runCancelled
  | .interrupted => some .runInterrupted
  | .uncertain => some .runUncertain

def createdRows (facts : List SessionCreatedFact) : List EventRow :=
  facts.map fun r => ⟨some r.deliveryEventId, r.factSequence, r.sessionId, some .sessionCreated,
    r.createdAtMilliseconds⟩

def renameRows (requests : List SessionRenameRequest) : List EventRow :=
  requests.map fun r => ⟨some r.deliveryEventId, r.acceptedSequence, r.sessionId,
    some .sessionRenamed, r.acceptedAtMilliseconds⟩

def archiveRows (requests : List SessionArchiveRequest) : List EventRow :=
  requests.filterMap fun r => if r.complete then
    some ⟨some r.deliveryEventId, r.acceptedSequence, r.sessionId, some .sessionArchived,
      r.acceptedAtMilliseconds⟩
  else none

def deleteRows (requests : List SessionDeleteRequest) : List EventRow :=
  requests.filterMap fun r => if r.state = .complete then
    some ⟨some r.deliveryEventId, r.acceptedSequence, r.sessionId, some .sessionDeleted,
      r.acceptedAtMilliseconds⟩
  else none

def entryRows (entries : List SessionEntry) : List EventRow :=
  entries.map fun r => ⟨some r.deliveryEventId, r.factSequence, r.sessionId,
    some r.body.eventKind, r.createdAtMilliseconds⟩

def acceptedCommandRows (commands : List LocalCommand) : List EventRow :=
  commands.map fun r => ⟨some r.acceptedEventId, r.acceptedSequence, r.sessionId,
    some .localCommandChanged, r.acceptedAtMilliseconds⟩

def endedCommandRows (commands : List LocalCommand) : List EventRow :=
  commands.filterMap fun r => if 3 ≤ r.state.toRecord ∧ r.state.toRecord ≤ 5 then
    some ⟨r.deliveryEventId, r.updatedSequence, r.sessionId, some .localCommandEntry,
      r.updatedAtMilliseconds⟩
  else none

def acceptedRows (facts : List RunAcceptedFact) : List EventRow :=
  facts.map fun r => ⟨some r.deliveryEventId, r.factSequence, r.sessionId, some .runAccepted,
    r.acceptedAtMilliseconds⟩

def stateRows (facts : List RunStateFact) : List EventRow :=
  facts.map fun r => ⟨some r.deliveryEventId, r.factSequence, r.sessionId,
    rebuiltEventKind r.state, r.createdAtMilliseconds⟩

def cancellationRows (requests : List RunCancellationRequest) : List EventRow :=
  requests.filterMap fun r => if r.intentApplied then
    some ⟨r.deliveryEventId, r.factSequence, r.sessionId, some .cancellationRequested,
      r.acceptedAtMilliseconds⟩
  else none

def uncertaintyRows (facts : List ToolOperationFact) : List EventRow :=
  facts.filterMap fun r => if r.factKind.toRecord = 6 then
    some ⟨r.workspaceDeliveryEventId, r.factSequence, r.sessionId, some .toolUncertaintyChanged,
      r.createdAtMilliseconds⟩
  else none

/-- The selected rows, in the order of the `UNION ALL`. -/
def eventRows (created : List SessionCreatedFact) (renames : List SessionRenameRequest)
    (archives : List SessionArchiveRequest) (deletes : List SessionDeleteRequest)
    (entries : List SessionEntry) (commands : List LocalCommand) (accepted : List RunAcceptedFact)
    (states : List RunStateFact) (cancellations : List RunCancellationRequest)
    (toolFacts : List ToolOperationFact) : List EventRow :=
  createdRows created ++ renameRows renames ++ archiveRows archives ++ deleteRows deletes ++
    entryRows entries ++ acceptedCommandRows commands ++ endedCommandRows commands ++
    acceptedRows accepted ++ stateRows states ++ cancellationRows cancellations ++
    uncertaintyRows toolFacts

def Store.eventRows (s : Store) : List EventRow :=
  Morons.eventRows s.sessionCreatedFacts s.sessionRenameRequests s.sessionArchiveRequests
    s.sessionDeleteRequests s.sessionEntries s.localCommands s.runAcceptedFacts s.runStateFacts
    s.runCancellationRequests s.toolOperationFacts

/-- The event of a selected row, if no column is `NULL`. -/
def EventRow.event (r : EventRow) : Option DeliveryEvent := do
  let eventId ← r.eventId
  let eventKind ← r.eventKind
  return ⟨eventId, r.eventSequence, r.sessionId, eventKind, r.createdAtMilliseconds⟩

def rebuiltEvents (s : Store) : Except PersistenceError (List DeliveryEvent) := do
  let events ← s.eventRows.mapM fun r => demand (.sqlite "NOT NULL delivery_events") r.event
  require (events.map (·.eventId)).Nodup (.sqlite "PRIMARY KEY delivery_events.event_id")
  require (events.map (·.eventSequence)).Nodup (.sqlite "UNIQUE delivery_events.event_sequence")
  return events

/-! ## The rebuild -/

def rebuild (s : Store) : Except PersistenceError Store := do
  let s ← rebuildSteering s
  let s := { s with sessions := s.sessionCreatedFacts.map (rebuiltSession s) }
  let s := { s with runs := s.runAcceptedFacts.map (rebuiltRun s) }
  let s := { s with sessionRunStates := s.sessionCreatedFacts.map (rebuiltRunState s) }
  let events ← rebuiltEvents s
  let s := { s with deliveryEvents := events }
  validateSteeringMutations s
  return s

end Morons
