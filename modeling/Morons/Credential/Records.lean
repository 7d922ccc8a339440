import Morons.Records

/-!
# Credential records

Two stores change with a credential: the database, which records each request
with its facts, and one file for each kind of credential.  `Backend` holds
both, and what the running process keeps of the files in memory.

Of a file's content the secret is opaque; a configured content has one.  Left
out are the phases of an access token that is being refreshed, which change
neither the generation nor the marker, and the times of the facts.
-/

namespace Morons

open Attempt

inductive CredentialKind
  | openCode | openAiChatGpt
  deriving DecidableEq

inductive CredentialOperation
  | set | remove
  deriving DecidableEq

/-- The operation a request is registered under. -/
def CredentialOperation.mutation : CredentialOperation → MutationOperation
  | set => .other 2
  | remove => .other 3

inductive CredentialRequestState
  | prepared | dispatched | completed | notApplied
  deriving DecidableEq

inductive CredentialFactKind
  | dispatched | completed | notApplied
  deriving DecidableEq

inductive CredentialAuditKind
  | accepted | dispatched | completed | notApplied
  deriving DecidableEq

structure CredentialIdentityStatus where
  configured : Bool
  generation : Nat
  deriving DecidableEq

structure CredentialMutationRequest where
  requestId : MutationRequestId
  kind : CredentialKind
  operation : CredentialOperation
  expectedGeneration : Nat
  acceptedSequence : Nat
  acceptedAtMilliseconds : Nat
  state : CredentialRequestState
  result : Option CredentialIdentityStatus
  deriving DecidableEq

structure CredentialOperationFact where
  factSequence : Nat
  requestId : MutationRequestId
  factKind : CredentialFactKind
  credentialGeneration : Nat
  deriving DecidableEq

structure CredentialAuditFact where
  auditSequence : Nat
  requestId : MutationRequestId
  auditKind : CredentialAuditKind
  deriving DecidableEq

/-- The content of a credential file.  The marker of all zeroes is 0. -/
structure CredentialState where
  generation : Nat
  mutationMarker : MutationRequestId
  secret : Option String
  deriving DecidableEq

namespace CredentialState

def unconfigured : CredentialState := ⟨0, 0, none⟩

def status (c : CredentialState) : CredentialIdentityStatus := ⟨c.secret.isSome, c.generation⟩

end CredentialState

/-- A credential file as the process knows it. -/
structure CredentialStore where
  state : CredentialState
  consistent : Bool
  deriving DecidableEq

structure Backend where
  store : Store
  credentialMutationRequests : List CredentialMutationRequest := []
  credentialOperationFacts : List CredentialOperationFact := []
  credentialAuditFacts : List CredentialAuditFact := []
  /-- The contents each file has had, newest first; the file holds the newest. -/
  files : CredentialKind → List CredentialState := fun _ => []
  credentials : CredentialKind → CredentialStore := fun _ => ⟨.unconfigured, true⟩

def maxCredentialMutations : Nat := 10000

namespace Backend

/-! ## Files -/

/-- The file, if there is one. -/
def file (b : Backend) (kind : CredentialKind) : Option CredentialState := (b.files kind).head?

/-- What a process reads when it opens the file. -/
def content (b : Backend) (kind : CredentialKind) : CredentialState :=
  (b.file kind).getD .unconfigured

/-- The atomic replacement of a file. -/
def replace (b : Backend) (kind : CredentialKind) (next : CredentialState) : Backend :=
  { b with files := fun k => if k = kind then next :: b.files k else b.files k }

def withStore (b : Backend) (kind : CredentialKind) (s : CredentialStore) : Backend :=
  { b with credentials := fun k => if k = kind then s else b.credentials k }

def credentialIdentity (b : Backend) (kind : CredentialKind) : CredentialIdentityStatus :=
  (b.credentials kind).state.status

def credentialMarker (b : Backend) (kind : CredentialKind) : MutationRequestId :=
  (b.credentials kind).state.mutationMarker

/-- What `ensure_consistent` checks; the file of the second kind is read again. -/
def credentialConsistent (b : Backend) : CredentialKind → Bool
  | .openCode => (b.credentials .openCode).consistent
  | .openAiChatGpt =>
    (b.credentials .openAiChatGpt).consistent &&
      if (b.credentials .openAiChatGpt).state.generation = 0 then (b.file .openAiChatGpt).isNone
      else b.file .openAiChatGpt = some (b.credentials .openAiChatGpt).state

def inconsistent : CredentialKind → PersistenceError
  | .openCode =>
    .invalidState "credential state could not be reconciled after a filesystem error"
  | .openAiChatGpt => .invalidState "OpenAI credential state is invalid or inconsistent"

def ensureConsistent (b : Backend) (kind : CredentialKind) : Except PersistenceError Unit :=
  require (b.credentialConsistent kind = true) (inconsistent kind)

/-! ## Requests -/

def loadCredentialRequest (b : Backend) (requestId : MutationRequestId) :
    Option CredentialMutationRequest :=
  Table.find CredentialMutationRequest.requestId requestId b.credentialMutationRequests

/-- The requests without an outcome, in order of acceptance. -/
def loadIncompleteCredentialRequests (b : Backend) : List CredentialMutationRequest :=
  (b.credentialMutationRequests.filter fun r => r.state = .prepared || r.state = .dispatched).mergeSort
    fun x y => decide (x.acceptedSequence ≤ y.acceptedSequence)

def nextCredentialGeneration (current : Nat) : Except PersistenceError Nat := do
  require (current + 1 ≤ maxInteger) (.resourceLimit .credentialGeneration)
  return current + 1

def validateRequestIdentity (request : CredentialMutationRequest) (kind : CredentialKind)
    (operation : CredentialOperation) (expectedGeneration : Nat) : Except PersistenceError Unit :=
  require (request.kind = kind ∧ request.operation = operation ∧
    request.expectedGeneration = expectedGeneration) .requestConflict

def completedRequestResult (request : CredentialMutationRequest) :
    Except PersistenceError CredentialIdentityStatus :=
  match request.state, request.result with
  | .completed, some result => .ok result
  | .notApplied, none => .error .credentialMutationNotApplied
  | _, _ => .error (.invalidState "a credential mutation did not reach a recoverable outcome")

def validateCurrentRequest (b : Backend) (expected : CredentialMutationRequest)
    (expectedState : CredentialRequestState) : Except PersistenceError Unit := do
  let current ← demand (.invalidState "a credential mutation disappeared during execution")
    (b.loadCredentialRequest expected.requestId)
  require (current.kind = expected.kind ∧ current.operation = expected.operation ∧
      current.expectedGeneration = expected.expectedGeneration ∧
      current.acceptedSequence = expected.acceptedSequence ∧
      current.acceptedAtMilliseconds = expected.acceptedAtMilliseconds ∧
      current.state = expectedState)
    (.invalidState "a credential mutation changed identity during execution")

/-- One fact of a request with its audit record, both numbered. -/
def insertCredentialFact (b : Backend) (requestId : MutationRequestId)
    (factKind : CredentialFactKind) (auditKind : CredentialAuditKind) (generation : Nat) :
    Except PersistenceError Backend := do
  let (factSequence, store) ← nextSequence b.store
  let (auditSequence, store) ← nextSequence store
  require (∀ f ∈ b.credentialOperationFacts, f.requestId = requestId → f.factKind ≠ factKind)
    (.sqlite "UNIQUE credential_operation_facts (request_id, operation_kind)")
  require (∀ a ∈ b.credentialAuditFacts, a.requestId = requestId → a.auditKind ≠ auditKind)
    (.sqlite "UNIQUE credential_audit_facts (request_id, audit_kind)")
  return { b with
    store := store
    credentialOperationFacts :=
      ⟨factSequence, requestId, factKind, generation⟩ :: b.credentialOperationFacts
    credentialAuditFacts := ⟨auditSequence, requestId, auditKind⟩ :: b.credentialAuditFacts }

/-- `UPDATE ... WHERE request_id = ?1 AND state = ?5`, which must change one row. -/
def updateCredentialRequest (b : Backend) (requestId : MutationRequestId)
    (expectedState nextState : CredentialRequestState) (result : Option CredentialIdentityStatus)
    (changed : String) : Except PersistenceError Backend := do
  require (b.credentialMutationRequests.any fun r =>
    r.requestId = requestId && r.state = expectedState) (.invalidState changed)
  return { b with
    credentialMutationRequests := Table.modify CredentialMutationRequest.requestId requestId
      (fun r => if r.state = expectedState then { r with state := nextState, result := result }
        else r) b.credentialMutationRequests }

/-! ## Validation -/

def factCount (b : Backend) (requestId : MutationRequestId) (kind : CredentialFactKind) : Nat :=
  b.credentialOperationFacts.countP fun f => f.requestId = requestId && f.factKind = kind

def auditCount (b : Backend) (requestId : MutationRequestId) (kind : CredentialAuditKind) : Nat :=
  b.credentialAuditFacts.countP fun a => a.requestId = requestId && a.auditKind = kind

/-- The completed requests of the kind that were accepted before. -/
def priorGenerations (b : Backend) (request : CredentialMutationRequest) : Nat :=
  b.credentialMutationRequests.countP fun r =>
    r.kind = request.kind && r.state = .completed &&
      decide (r.acceptedSequence < request.acceptedSequence)

/-- A request is registered with its own number and time. -/
def requestRegistered (b : Backend) (r : CredentialMutationRequest) : Bool :=
  (Table.find MutationRequest.requestId r.requestId b.store.mutationRequests).any fun m =>
    m.operation = r.operation.mutation && m.acceptedSequence = r.acceptedSequence &&
      m.acceptedAtMilliseconds = r.acceptedAtMilliseconds

/-- The facts, the audit records and the result of a request fit its state. -/
structure Recorded (b : Backend) (r : CredentialMutationRequest) : Prop where
  result : r.state = .completed →
    r.result = some ⟨decide (r.operation = .set), r.expectedGeneration + 1⟩
  generations : ∀ f ∈ b.credentialOperationFacts, f.requestId = r.requestId →
    f.credentialGeneration = r.expectedGeneration + 1
  accepted : b.auditCount r.requestId .accepted = 1
  dispatches : b.factCount r.requestId .dispatched = b.auditCount r.requestId .dispatched
  dispatched : r.state = .dispatched ∨ r.state = .completed →
    b.factCount r.requestId .dispatched = 1
  prepared : r.state = .prepared → b.factCount r.requestId .dispatched = 0
  completedFacts : b.factCount r.requestId .completed = if r.state = .completed then 1 else 0
  completedAudits : b.auditCount r.requestId .completed = if r.state = .completed then 1 else 0
  notAppliedFacts : b.factCount r.requestId .notApplied = if r.state = .notApplied then 1 else 0
  notAppliedAudits : b.auditCount r.requestId .notApplied = if r.state = .notApplied then 1 else 0

theorem recorded_iff (b : Backend) (r : CredentialMutationRequest) : Recorded b r ↔
    (r.state = .completed →
      r.result = some ⟨decide (r.operation = .set), r.expectedGeneration + 1⟩) ∧
    (∀ f ∈ b.credentialOperationFacts, f.requestId = r.requestId →
      f.credentialGeneration = r.expectedGeneration + 1) ∧
    b.auditCount r.requestId .accepted = 1 ∧
    b.factCount r.requestId .dispatched = b.auditCount r.requestId .dispatched ∧
    (r.state = .dispatched ∨ r.state = .completed → b.factCount r.requestId .dispatched = 1) ∧
    (r.state = .prepared → b.factCount r.requestId .dispatched = 0) ∧
    b.factCount r.requestId .completed = (if r.state = .completed then 1 else 0) ∧
    b.auditCount r.requestId .completed = (if r.state = .completed then 1 else 0) ∧
    b.factCount r.requestId .notApplied = (if r.state = .notApplied then 1 else 0) ∧
    b.auditCount r.requestId .notApplied = (if r.state = .notApplied then 1 else 0) :=
  ⟨fun ⟨h1, h2, h3, h4, h5, h6, h7, h8, h9, h10⟩ => ⟨h1, h2, h3, h4, h5, h6, h7, h8, h9, h10⟩,
    fun ⟨h1, h2, h3, h4, h5, h6, h7, h8, h9, h10⟩ => ⟨h1, h2, h3, h4, h5, h6, h7, h8, h9, h10⟩⟩

instance (b : Backend) (r : CredentialMutationRequest) : Decidable (Recorded b r) :=
  decidable_of_iff _ (recorded_iff b r).symm

def validateCredentialRequestRecords (b : Backend) : Except PersistenceError Unit := do
  require (b.credentialMutationRequests.length ≤ 10000 ∧
      ∀ r ∈ b.credentialMutationRequests, r.expectedGeneration = b.priorGenerations r)
    (.invalidState "credential identity generations are not source-bound")
  require ((∀ r ∈ b.credentialMutationRequests, b.requestRegistered r = true ∧ Recorded b r) ∧
      ∀ m ∈ b.store.mutationRequests, m.operation = .other 2 ∨ m.operation = .other 3 →
        (b.loadCredentialRequest m.requestId).isSome)
    (.invalidState "credential mutation facts conflict with request state")

/-- The newest completed request of a kind. -/
def latestCompleted (b : Backend) (kind : CredentialKind) : Option CredentialMutationRequest :=
  Ledger.latest (fun r => (r.result.map (·.generation)).getD 0)
    (b.credentialMutationRequests.filter fun r => r.state = .completed && r.kind = kind)

/-- The file of a kind is the one its newest completed request has written. -/
def latestAgrees (b : Backend) (kind : CredentialKind) : Bool :=
  match b.latestCompleted kind with
  | none => b.credentialIdentity kind = ⟨false, 0⟩
  | some r => r.result = some (b.credentialIdentity kind) && r.requestId = b.credentialMarker kind

def validateCredentialKind (b : Backend) (kind : CredentialKind) : Except PersistenceError Unit := do
  require (b.credentialMutationRequests.countP (fun r => r.state = .completed && r.kind = kind) =
      (b.credentialIdentity kind).generation)
    (.invalidState "credential generations are not contiguous")
  require (b.latestAgrees kind = true)
    (.invalidState "credential file state conflicts with durable mutation history")

def validateCredentialState (b : Backend) : Except PersistenceError Unit := do
  b.ensureConsistent .openCode
  b.ensureConsistent .openAiChatGpt
  b.validateCredentialRequestRecords
  b.validateCredentialKind .openCode
  b.validateCredentialKind .openAiChatGpt

end Backend

end Morons
