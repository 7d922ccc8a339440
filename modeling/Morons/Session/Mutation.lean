import Morons.Records

/-!
# Renaming and archiving a session

A rename is one transaction.  An archive request is prepared, which reserves
its place in the sequence, and completed later, when the session is idle; its
event then carries the reserved place.
-/

namespace Morons

open Attempt

def loadRequiredSession (s : Store) (sessionId : SessionId) : Except PersistenceError Session :=
  demand (.invalidState "a completed session is missing its current-state projection")
    (loadSession s sessionId)

/-! ## Renaming -/

/-- The rows of a rename, once it is numbered. -/
def writeRename (s : Store) (requestId : MutationRequestId) (fingerprint : Fingerprint)
    (sessionId : SessionId) (displayName : String) (eventId : DeliveryEventId)
    (sequence now : Nat) : Store :=
  let s := insertMutationRequest s requestId .sessionRename sequence now
  let s := { s with
    sessionRenameRequests :=
      ⟨requestId, fingerprint, sessionId, displayName, sequence, now, eventId⟩ ::
        s.sessionRenameRequests }
  let s := insertDeliveryEvent s eventId sequence sessionId .sessionRenamed now
  updateSession s sessionId fun r => { r with
    displayName := some displayName
    updatedSequence := max r.updatedSequence sequence }

def renameSession (env : Environment) (s : Store) (requestId : MutationRequestId)
    (fingerprint : Fingerprint) (sessionId : SessionId) (displayName : String) :
    Except PersistenceError (Session × Store) :=
  match loadMutationOperation s requestId,
    Table.find SessionRenameRequest.requestId requestId s.sessionRenameRequests with
  | some .sessionRename, some existing => do
    require (existing.fingerprint = fingerprint ∧ existing.sessionId = sessionId ∧
      existing.displayName = displayName) .requestConflict
    let session ← loadRequiredSession s sessionId
    return (session, s)
  | some _, _ | none, some _ => .error .requestConflict
  | none, none => do
    require (loadSession s sessionId).isSome .sessionNotFound
    let eventId := s.nextIdentifier
    let (sequence, s) ← nextSequence (s.takeIdentifiers 1)
    require (1 ≤ displayName.utf8ByteSize ∧ displayName.utf8ByteSize ≤ 256)
      (.sqlite "CHECK session_rename_requests.display_name")
    let s := writeRename s requestId fingerprint sessionId displayName eventId sequence env.now
    let session ← loadRequiredSession s sessionId
    return (session, s)

/-! ## Archiving -/

def loadArchiveRequest (s : Store) (requestId : MutationRequestId) : Option SessionArchiveRequest :=
  Table.find SessionArchiveRequest.requestId requestId s.sessionArchiveRequests

/-- The rows of a prepared request, once it is numbered. -/
def writeArchiveRequest (s : Store) (requestId : MutationRequestId) (fingerprint : Fingerprint)
    (sessionId : SessionId) (archived : Bool) (eventId : DeliveryEventId) (sequence now : Nat) :
    Store :=
  let s := insertMutationRequest s requestId .sessionArchive sequence now
  { s with
    sessionArchiveRequests :=
      ⟨requestId, fingerprint, sessionId, archived, false, sequence, now, eventId⟩ ::
        s.sessionArchiveRequests }

/-- The session, and whether the request is complete already. -/
def prepareSessionArchive (env : Environment) (s : Store) (requestId : MutationRequestId)
    (fingerprint : Fingerprint) (sessionId : SessionId) (archived : Bool) :
    Except PersistenceError ((Session × Bool) × Store) :=
  match loadMutationOperation s requestId, loadArchiveRequest s requestId with
  | some .sessionArchive, some existing => do
    require (existing.fingerprint = fingerprint ∧ existing.sessionId = sessionId ∧
      existing.archived = archived) .requestConflict
    let session ← loadRequiredSession s sessionId
    return ((session, existing.complete), s)
  | some _, _ | none, some _ => .error .requestConflict
  | none, none => do
    let session ← demand .sessionNotFound (loadSession s sessionId)
    let eventId := s.nextIdentifier
    let (sequence, s) ← nextSequence (s.takeIdentifiers 1)
    let s := writeArchiveRequest s requestId fingerprint sessionId archived eventId sequence env.now
    let s ← (if archived then
      pause s (some sessionId) none .archive (some sequence) env.now else .ok s)
    return ((session, false), s)

/-- The rows of a completed request. -/
def writeArchive (s : Store) (request : SessionArchiveRequest) : Store :=
  let s := insertDeliveryEvent s request.deliveryEventId request.acceptedSequence request.sessionId
    .sessionArchived request.acceptedAtMilliseconds
  let s := updateSession s request.sessionId fun r => { r with
    archived := request.archived
    updatedSequence := max r.updatedSequence request.acceptedSequence }
  { s with
    sessionArchiveRequests := Table.modify SessionArchiveRequest.requestId request.requestId
      (fun r => { r with complete := true }) s.sessionArchiveRequests }

def completeSessionArchive (env : Environment) (s : Store) (requestId : MutationRequestId) :
    Except PersistenceError (Session × Store) := do
  let request ← demand (.invalidState "a session archive completion has no prepared request")
    (loadArchiveRequest s requestId)
  if request.complete then
    let session ← loadRequiredSession s request.sessionId
    return (session, s)
  let state ← demand .sessionNotFound (loadSessionRunState s request.sessionId)
  refuse (state.activeRunId.map .sessionBusy)
  refuse ((activeLocalCommand s request.sessionId).map .sessionCommandBusy)
  (if request.archived then env.drainForArchive request.sessionId else .ok ())
  require (loadSession s request.sessionId).isSome
    (.invalidState "a session archive mutation lost its current-state projection")
  let s := writeArchive s request
  let session ← loadRequiredSession s request.sessionId
  return (session, s)

/-! ## Recovery at startup -/

/-- The requests a restart finds prepared, in order of acceptance. -/
def pendingArchives (s : Store) : List MutationRequestId :=
  ((s.sessionArchiveRequests.filter fun r => !r.complete).mergeSort
    fun a b => decide (a.acceptedSequence ≤ b.acceptedSequence)).map (·.requestId)

def recoverSessionArchive (env : Environment) (s : Store) (requestId : MutationRequestId) :
    Except PersistenceError Store := do
  let (_, s) ← completeSessionArchive env s requestId
  return s

def recoverSessionArchives (env : Environment) (s : Store) : Except PersistenceError Store :=
  sweep (recoverSessionArchive env) s (pendingArchives s)

end Morons
