import Morons.Session.Mutation

/-!
# Deleting a session

A deletion is prepared, the rows of the session are removed from the database
while the identifiers of its requests stay known as tombstones, and at last
its files and its events go and one event reports the removal.
-/

namespace Morons

open Attempt

def loadDeleteRequest (s : Store) (requestId : MutationRequestId) : Option SessionDeleteRequest :=
  Table.find SessionDeleteRequest.requestId requestId s.sessionDeleteRequests

def updateDeleteRequest (s : Store) (requestId : MutationRequestId) (state : DeleteState) : Store :=
  { s with
    sessionDeleteRequests := Table.modify SessionDeleteRequest.requestId requestId
      (fun r => { r with state := state }) s.sessionDeleteRequests }

def ensureSessionIdle (env : Environment) (s : Store) (sessionId : SessionId) :
    Except PersistenceError Unit := do
  env.ensureDrained sessionId
  let state ← demand .sessionNotFound (loadSessionRunState s sessionId)
  refuse (state.activeRunId.map .sessionBusy)
  refuse ((activeLocalCommand s sessionId).map .sessionCommandBusy)

/-- The requests that belong to a session. -/
def sessionMutations (s : Store) (sessionId : SessionId) : List MutationRequestId :=
  (((s.sessionCreationRequests.filter fun r => r.sessionId = sessionId).map (·.requestId)) ++
    ((s.runInputRequests.filter fun r => r.sessionId = sessionId).map (·.requestId)) ++
    ((s.runCancellationRequests.filter fun r => r.sessionId = sessionId).map (·.requestId)) ++
    ((s.localCommands.filter fun r => r.sessionId = sessionId).map (·.requestId)) ++
    ((s.localCommandCancellations.filter fun r => r.sessionId = sessionId).map (·.requestId)) ++
    ((s.sessionRenameRequests.filter fun r => r.sessionId = sessionId).map (·.requestId)) ++
    ((s.steeringMutationRequests.filter fun r => r.sessionId = sessionId).map (·.requestId)) ++
    ((s.sessionArchiveRequests.filter fun r => r.sessionId = sessionId).map (·.requestId))).dedup

/-! ## Preparation -/

/-- The rows of a prepared deletion, once it is numbered. -/
def writeDeleteRequest (s : Store) (requestId : MutationRequestId) (fingerprint : Fingerprint)
    (sessionId : SessionId) (eventId : DeliveryEventId) (sequence now : Nat) : Store :=
  let s := insertMutationRequest s requestId .sessionDelete sequence now
  { s with
    sessionDeleteRequests :=
      ⟨requestId, fingerprint, sessionId, .prepared, sequence, now, eventId⟩ ::
        s.sessionDeleteRequests }

/-- Whether the deletion is complete already. -/
def prepareSessionDelete (env : Environment) (s : Store) (requestId : MutationRequestId)
    (fingerprint : Fingerprint) (sessionId : SessionId) : Except PersistenceError (Bool × Store) :=
  match loadMutationOperation s requestId, loadDeleteRequest s requestId with
  | some .sessionDelete, some existing => do
    require (existing.fingerprint = fingerprint ∧ existing.sessionId = sessionId) .requestConflict
    return (existing.state = .complete, s)
  | some _, _ | none, some _ => .error .requestConflict
  | none, none => do
    let session ← demand .sessionNotFound (loadSession s sessionId)
    require session.archived .sessionNotArchived
    require (¬ session.workingDirectory.any (env.attachmentDirectoryOverlaps sessionId))
      (.invalidInput "the selected directory overlaps Morons attachment state")
    require (s.sessionDeleteRequests.length < maxSessionDeletions) (.resourceLimit .sessions)
    require (s.deletedMutationTombstones.length + (sessionMutations s sessionId).length ≤
      maxDeletedMutationTombstones) (.resourceLimit .transcript)
    ensureSessionIdle env s sessionId
    let eventId := s.nextIdentifier
    let (sequence, s) ← nextSequence (s.takeIdentifiers 1)
    require (∀ r ∈ s.sessionDeleteRequests, r.sessionId ≠ sessionId)
      (.sqlite "UNIQUE session_delete_requests.session_id")
    return (false,
      writeDeleteRequest s requestId fingerprint sessionId eventId sequence env.now)

/-! ## Cleaning the database -/

/-- The store without the rows of a session. -/
def Store.withoutSession (s : Store) (sessionId : SessionId) : Store :=
  let runs := (s.runAcceptedFacts.filter fun r => r.sessionId = sessionId).map (·.runId)
  { s with
    sessionCreationRequests := s.sessionCreationRequests.filter fun r => r.sessionId ≠ sessionId
    sessionCreatedFacts := s.sessionCreatedFacts.filter fun r => r.sessionId ≠ sessionId
    sessions := s.sessions.filter fun r => r.id ≠ sessionId
    sessionRunStates := s.sessionRunStates.filter fun r => r.sessionId ≠ sessionId
    sessionRenameRequests := s.sessionRenameRequests.filter fun r => r.sessionId ≠ sessionId
    sessionArchiveRequests := s.sessionArchiveRequests.filter fun r => r.sessionId ≠ sessionId
    contextCheckpoints := s.contextCheckpoints.filter fun r => r.sessionId ≠ sessionId
    runInputRequests := s.runInputRequests.filter fun r => r.sessionId ≠ sessionId
    runAcceptedFacts := s.runAcceptedFacts.filter fun r => r.sessionId ≠ sessionId
    runAcceptedCheckpoints := s.runAcceptedCheckpoints.filter fun r => r.runId ∉ runs
    runStateFacts := s.runStateFacts.filter fun r => r.sessionId ≠ sessionId
    runs := s.runs.filter fun r => r.sessionId ≠ sessionId
    runAuditFacts := s.runAuditFacts.filter fun r => r.sessionId ≠ sessionId
    runCancellationRequests := s.runCancellationRequests.filter fun r => r.sessionId ≠ sessionId
    providerOperationFacts := s.providerOperationFacts.filter fun r => r.runId ∉ runs
    runSkillSnapshots := s.runSkillSnapshots.filter fun r => r.runId ∉ runs
    runProjectContexts := s.runProjectContexts.filter fun r => r.runId ∉ runs
    imageAttachments := s.imageAttachments.filter fun r => r.sessionId ≠ sessionId
    sessionEntries := s.sessionEntries.filter fun r => r.sessionId ≠ sessionId
    toolCalls := s.toolCalls.filter fun r => r.sessionId ≠ sessionId
    toolOperationFacts := s.toolOperationFacts.filter fun r => r.sessionId ≠ sessionId
    toolAuditFacts := s.toolAuditFacts.filter fun r => r.sessionId ≠ sessionId
    webModelBindings := s.webModelBindings.filter fun r => r.runId ∉ runs
    localCommands := s.localCommands.filter fun r => r.sessionId ≠ sessionId
    localCommandCancellations := s.localCommandCancellations.filter fun r => r.sessionId ≠ sessionId
    localCommandAuditFacts := s.localCommandAuditFacts.filter fun r => r.sessionId ≠ sessionId
    steeringQueues := s.steeringQueues.filter fun r => r.sessionId ≠ sessionId
    steeringLifecycleFacts := s.steeringLifecycleFacts.filter fun r => r.sessionId ≠ sessionId
    steeringPendingMessages := s.steeringPendingMessages.filter fun r => r.sessionId ≠ sessionId
    steeringMutationRequests := s.steeringMutationRequests.filter fun r => r.sessionId ≠ sessionId }

/-- Turn the registered requests of the session into tombstones and remove its rows. -/
def writeCleanup (s : Store) (request : SessionDeleteRequest) : Store :=
  let mutations := sessionMutations s request.sessionId
  let tombstones := (s.mutationRequests.filter fun m => m.requestId ∈ mutations).map fun m =>
    DeletedMutationTombstone.mk m.requestId request.requestId m.operation m.acceptedSequence
      m.acceptedAtMilliseconds
  let s := { s with deletedMutationTombstones := tombstones ++ s.deletedMutationTombstones }
  let s := s.withoutSession request.sessionId
  let s := { s with
    mutationRequests := s.mutationRequests.filter fun m =>
      ¬ s.deletedMutationTombstones.any fun t =>
        t.deleteRequestId = request.requestId && t.requestId = m.requestId }
  updateDeleteRequest s request.requestId .databaseCleaned

def cleanSessionDatabase (env : Environment) (s : Store) (requestId : MutationRequestId) :
    Except PersistenceError Store := do
  let request ← demand (.invalidState "session deletion has no prepared request")
    (loadDeleteRequest s requestId)
  if request.state ≠ .prepared then
    return s
  ensureSessionIdle env s request.sessionId
  let session ← demand .sessionNotFound (loadSession s request.sessionId)
  require session.archived .sessionNotArchived
  return writeCleanup s request

/-! ## Completion -/

/-- The rows of a completed deletion: of the session's events only the removal is left. -/
def writeDelete (s : Store) (request : SessionDeleteRequest) : Store :=
  let s := { s with
    deliveryEvents := s.deliveryEvents.filter fun e => e.sessionId ≠ request.sessionId }
  let s := insertDeliveryEvent s request.deliveryEventId request.acceptedSequence request.sessionId
    .sessionDeleted request.acceptedAtMilliseconds
  updateDeleteRequest s request.requestId .complete

def completeSessionDelete (env : Environment) (s : Store) (requestId : MutationRequestId) :
    Except PersistenceError (SessionId × Store) := do
  let request ← demand (.sqlite "no rows") (loadDeleteRequest s requestId)
  if request.state = .complete then
    return (request.sessionId, s)
  require (request.state = .databaseCleaned)
    (.invalidState "session deletion files were cleaned before database cleanup")
  env.removeAttachments request.sessionId
  return (request.sessionId, writeDelete s request)

/-! ## Recovery at startup -/

/-- The deletions a restart finds unfinished, in order of acceptance. -/
def pendingDeletes (s : Store) : List (MutationRequestId × DeleteState) :=
  ((s.sessionDeleteRequests.filter fun r => r.state ≠ .complete).mergeSort
    fun a b => decide (a.acceptedSequence ≤ b.acceptedSequence)).map
      fun r => (r.requestId, r.state)

def recoverSessionDelete (env : Environment) (s : Store)
    (deletion : MutationRequestId × DeleteState) : Except PersistenceError Store := do
  let s ← (if deletion.2 = .prepared then cleanSessionDatabase env s deletion.1 else .ok s)
  let (_, s) ← completeSessionDelete env s deletion.1
  return s

def recoverSessionDeletes (env : Environment) (s : Store) : Except PersistenceError Store :=
  sweep (recoverSessionDelete env) s (pendingDeletes s)

end Morons
