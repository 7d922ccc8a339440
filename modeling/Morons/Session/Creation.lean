import Morons.Records

/-!
# Creating a session

A creation is three transactions around the provisioning of the workspace:
the request is prepared, the workspace is dispatched, and the session is
finalized.  A restart, or a repeated call, continues where the last one
stopped, so each transaction is an operation of its own.
-/

namespace Morons

open Attempt

def loadCreationRequest (s : Store) (requestId : MutationRequestId) :
    Option SessionCreationRequest :=
  Table.find SessionCreationRequest.requestId requestId s.sessionCreationRequests

def updateCreationRequest (s : Store) (requestId : MutationRequestId) (state : CreationState) :
    Store :=
  { s with
    sessionCreationRequests := Table.modify SessionCreationRequest.requestId requestId
      (fun r => { r with state := state }) s.sessionCreationRequests }

/-- The request that a repeated call finds. -/
def resolveExistingCreation (s : Store) (requestId : MutationRequestId) (fingerprint : Fingerprint)
    (displayName : Option String) (workingDirectory : String) :
    Except PersistenceError (Option SessionCreationRequest) :=
  match loadCreationRequest s requestId, loadMutationOperation s requestId with
  | some existing, some .sessionCreate => do
    require (existing.fingerprint = fingerprint ∧ existing.displayName = displayName ∧
      existing.workingDirectory = some workingDirectory) .requestConflict
    return some existing
  | some _, _ =>
    .error (.invalidState "a session creation request is missing its mutation registry record")
  | none, some _ => .error .requestConflict
  | none, none => .ok none

def prepareNewCreation (env : Environment) (s : Store) (requestId : MutationRequestId)
    (fingerprint : Fingerprint) (displayName : Option String) (workingDirectory : String) :
    Except PersistenceError (SessionCreationRequest × Store) := do
  require (env.isDirectory workingDirectory)
    (.invalidInput "the session working directory is unavailable")
  let sessionId := s.nextIdentifier
  let workspaceId := s.nextIdentifier + 1
  require (s.sessionCreationRequests.length < maxSessions) (.resourceLimit .sessions)
  let (acceptedSequence, s) ← nextSequence (s.takeIdentifiers 2)
  let (_, s) ← nextSequence s
  let s := insertMutationRequest s requestId .sessionCreate acceptedSequence env.now
  let request : SessionCreationRequest :=
    { requestId := requestId
      fingerprint := fingerprint
      sessionId := sessionId
      workspaceId := workspaceId
      displayName := displayName
      workingDirectory := some workingDirectory
      acceptedSequence := acceptedSequence
      acceptedAtMilliseconds := env.now
      state := .prepared }
  return (request, { s with sessionCreationRequests := request :: s.sessionCreationRequests })

def prepareSessionCreation (env : Environment) (s : Store) (requestId : MutationRequestId)
    (fingerprint : Fingerprint) (displayName : Option String) (workingDirectory : String) :
    Except PersistenceError (SessionCreationRequest × Store) := do
  match ← resolveExistingCreation s requestId fingerprint displayName workingDirectory with
  | some existing => return (existing, s)
  | none => prepareNewCreation env s requestId fingerprint displayName workingDirectory

def dispatchWorkspaceCreation (s : Store) (requestId : MutationRequestId) :
    Except PersistenceError Store := do
  let current ← demand (.invalidState "a prepared session creation request disappeared")
    (loadCreationRequest s requestId)
  if current.state ≠ .prepared then
    return s
  let (_, s) ← nextSequence s
  let (_, s) ← nextSequence s
  return updateCreationRequest s requestId .workspaceDispatched

/-- The rows of a finished creation, once its fact is numbered. -/
def writeSession (s : Store) (request : SessionCreationRequest) (eventId : DeliveryEventId)
    (factSequence : Nat) : Store :=
  let s := { s with
    sessionCreatedFacts :=
      ⟨factSequence, request.requestId, request.sessionId, request.workspaceId,
        request.displayName, request.workingDirectory, request.acceptedSequence,
        request.acceptedAtMilliseconds, eventId⟩ :: s.sessionCreatedFacts
    sessions :=
      { id := request.sessionId
        workspaceId := request.workspaceId
        displayName := request.displayName
        workingDirectory := request.workingDirectory
        createdSequence := request.acceptedSequence
        updatedSequence := factSequence
        createdAtMilliseconds := request.acceptedAtMilliseconds
        archived := false } :: s.sessions
    sessionRunStates := ⟨request.sessionId, none, 0, factSequence⟩ :: s.sessionRunStates }
  let s := insertDeliveryEvent s eventId factSequence request.sessionId .sessionCreated
    request.acceptedAtMilliseconds
  updateCreationRequest s request.requestId .ready

def finalizeSessionCreation (env : Environment) (s : Store) (requestId : MutationRequestId) :
    Except PersistenceError Store := do
  let current ← demand (.invalidState "a prepared session creation request disappeared")
    (loadCreationRequest s requestId)
  if current.state = .ready then
    return s
  require (current.state = .workspaceDispatched)
    (.invalidState "a session creation request has an unknown completion state")
  env.provisionWorkspace current.workspaceId
  let eventId := s.nextIdentifier
  -- The fact of the workspace comes before the fact of the session.
  let (_, s) ← nextSequence (s.takeIdentifiers 1)
  let (sessionFactSequence, s) ← nextSequence s
  let (_, s) ← nextSequence s
  return writeSession s current eventId sessionFactSequence

end Morons
