import Morons.Credential.Records

/-!
# Changing a credential

A request is prepared, dispatched, applied to the file and completed: three
transactions with the replacement of the file between the last two.  Whatever
was left open is settled by `recoverCredentialMutations`, at each start and
before each request, from the file's generation and marker.
-/

namespace Morons

open Attempt

structure OAuthTokens where
  secret : String
  expiresAtSeconds : Nat

inductive CredentialUpdate
  | openCode (key : Option String)
  | openAi (tokens : Option OAuthTokens)

namespace CredentialUpdate

def kind : CredentialUpdate → CredentialKind
  | openCode _ => .openCode
  | openAi _ => .openAiChatGpt

def secret : CredentialUpdate → Option String
  | openCode key => key
  | openAi tokens => tokens.map (·.secret)

def operation (u : CredentialUpdate) : CredentialOperation :=
  if u.secret.isSome then .set else .remove

/-- The new access token is about to expire. -/
def expires (u : CredentialUpdate) (nowSeconds : Nat) : Bool :=
  match u with
  | openAi (some tokens) => decide (tokens.expiresAtSeconds - nowSeconds ≤ 300)
  | _ => false

end CredentialUpdate

structure CredentialMutation where
  requestId : MutationRequestId
  expectedGeneration : Nat
  update : CredentialUpdate

/-- How the replacement of a file ends in a process that lives on.  Where it
fails, the file may hold the new content all the same, and reading it again
may fail, too. -/
inductive Replacement
  | installed
  | failed (installed reloaded : Bool)

structure CredentialEnvironment where
  now : Nat
  replacement : Replacement

namespace Backend

/-! ## Transactions -/

def prepareCredentialMutation (env : CredentialEnvironment) (b : Backend)
    (requestId : MutationRequestId) (kind : CredentialKind) (operation : CredentialOperation)
    (expectedGeneration : Nat) : Except PersistenceError (CredentialMutationRequest × Backend) := do
  require (loadMutationOperation b.store requestId = none) .requestConflict
  require (b.credentialMutationRequests.length < maxCredentialMutations)
    (.resourceLimit .credentialMutations)
  let (acceptedSequence, store) ← nextSequence b.store
  let (auditSequence, store) ← nextSequence store
  let request : CredentialMutationRequest :=
    ⟨requestId, kind, operation, expectedGeneration, acceptedSequence, env.now, .prepared, none⟩
  return (request, { b with
    store := insertMutationRequest store requestId operation.mutation acceptedSequence env.now
    credentialMutationRequests := request :: b.credentialMutationRequests
    credentialAuditFacts := ⟨auditSequence, requestId, .accepted⟩ :: b.credentialAuditFacts })

def dispatchCredentialMutation (b : Backend) (request : CredentialMutationRequest) :
    Except PersistenceError Backend := do
  let generation ← nextCredentialGeneration request.expectedGeneration
  b.validateCurrentRequest request .prepared
  let b ← b.insertCredentialFact request.requestId .dispatched .dispatched generation
  b.updateCredentialRequest request.requestId .prepared .dispatched none
    "a credential mutation changed before dispatch"

/-- The file carries the request's marker at the next generation. -/
def installed (b : Backend) (request : CredentialMutationRequest) (generation : Nat) : Bool :=
  (b.credentialIdentity request.kind).generation = generation &&
    (b.credentialIdentity request.kind).configured = decide (request.operation = .set) &&
    b.credentialMarker request.kind = request.requestId

def completeCredentialMutation (b : Backend) (request : CredentialMutationRequest) :
    Except PersistenceError (CredentialIdentityStatus × Backend) := do
  let status := b.credentialIdentity request.kind
  let generation ← nextCredentialGeneration request.expectedGeneration
  require (b.installed request generation = true)
    (.invalidState "credential state does not match its dispatched mutation")
  b.validateCurrentRequest request .dispatched
  let b ← b.insertCredentialFact request.requestId .completed .completed status.generation
  require (∀ r ∈ b.credentialMutationRequests, r.kind = request.kind →
      r.result.map (·.generation) ≠ some status.generation)
    (.sqlite "UNIQUE credential_mutation_requests (credential_kind, result_generation)")
  let b ← b.updateCredentialRequest request.requestId .dispatched .completed (some status)
    "a credential mutation changed before its outcome"
  return (status, b)

def markCredentialMutationNotApplied (b : Backend) (request : CredentialMutationRequest) :
    Except PersistenceError Backend := do
  let generation ← nextCredentialGeneration request.expectedGeneration
  b.validateCurrentRequest request request.state
  let b ← b.insertCredentialFact request.requestId .notApplied .notApplied generation
  b.updateCredentialRequest request.requestId request.state .notApplied none
    "a credential mutation changed before its outcome"

/-! ## Recovery -/

def recoverCredentialMutation (b : Backend) (request : CredentialMutationRequest) :
    Except PersistenceError Backend :=
  match request.state with
  | .prepared => b.markCredentialMutationNotApplied request
  | .dispatched => do
    let generation ← nextCredentialGeneration request.expectedGeneration
    if b.installed request generation then
      let (_, b) ← b.completeCredentialMutation request
      return b
    else if (b.credentialIdentity request.kind).generation = request.expectedGeneration then
      b.markCredentialMutationNotApplied request
    else
      .error (.invalidState "credential state cannot reconcile its dispatched mutation")
  | _ => .error (.invalidState "an incomplete credential mutation has an invalid state")

/-- Each request is settled in a transaction of its own, which stays when a later one fails. -/
def recoverRequests (b : Backend) : List CredentialMutationRequest →
    Except PersistenceError Unit × Backend
  | [] => (b.validateCredentialState, b)
  | request :: requests =>
    match b.recoverCredentialMutation request with
    | .error e => (.error e, b)
    | .ok b => b.recoverRequests requests

def recoverCredentialMutations (b : Backend) : Except PersistenceError Unit × Backend :=
  let checked : Except PersistenceError Unit := do
    b.ensureConsistent .openCode
    b.ensureConsistent .openAiChatGpt
    b.validateCredentialRequestRecords
  match checked with
  | .error e => (.error e, b)
  | .ok _ => b.recoverRequests b.loadIncompleteCredentialRequests

/-- A new process reads the files and settles what the last one left. -/
def restart (b : Backend) : Except PersistenceError Unit × Backend :=
  recoverCredentialMutations { b with credentials := fun kind => ⟨b.content kind, true⟩ }

/-! ## The file -/

def invalidMarker : CredentialKind → PersistenceError
  | .openCode => .invalidInput "a credential mutation marker must not be all zeroes"
  | .openAiChatGpt => .invalidState "OpenAI credential state is invalid or inconsistent"

/-- The content that a request writes. -/
def nextContent (env : CredentialEnvironment) (b : Backend) (update : CredentialUpdate)
    (expectedGeneration : Nat) (marker : MutationRequestId) :
    Except PersistenceError CredentialState := do
  b.ensureConsistent update.kind
  require (expectedGeneration = (b.credentials update.kind).state.generation)
    .credentialGenerationConflict
  require (marker ≠ 0) (invalidMarker update.kind)
  require (update.expires (env.now / 1000) = false) .credentialReauthenticationRequired
  let generation ← nextCredentialGeneration expectedGeneration
  return ⟨generation, marker, update.secret⟩

/-- After a failure the first store reads its file again; the second does not
trust its memory until the next start. -/
def applyCredential (env : CredentialEnvironment) (b : Backend) (update : CredentialUpdate)
    (expectedGeneration : Nat) (marker : MutationRequestId) :
    Except PersistenceError Unit × Backend :=
  match b.nextContent env update expectedGeneration marker with
  | .error e => (.error e, b)
  | .ok next =>
    match env.replacement with
    | .installed => (.ok (), (b.replace update.kind next).withStore update.kind ⟨next, true⟩)
    | .failed installed reloaded =>
      let b := if installed then b.replace update.kind next else b
      match update.kind with
      | .openCode =>
        (.error .io, b.withStore .openCode
          (if reloaded then ⟨b.content .openCode, true⟩
          else ⟨(b.credentials .openCode).state, false⟩))
      | .openAiChatGpt => (.error .io, b.withStore .openAiChatGpt ⟨next, false⟩)

/-! ## Requests -/

/-- The recorded outcome of a known request, or nothing for a fresh one. -/
def lookupCredentialMutation (b : Backend) (m : CredentialMutation) :
    Except PersistenceError (Option CredentialIdentityStatus) :=
  match loadMutationOperation b.store m.requestId with
  | some existing => do
    require (existing = m.update.operation.mutation) .requestConflict
    let request ← demand (.invalidState "a credential mutation is missing its request record")
      (b.loadCredentialRequest m.requestId)
    validateRequestIdentity request m.update.kind m.update.operation m.expectedGeneration
    let status ← completedRequestResult request
    return some status
  | none => do
    require ((b.credentialIdentity m.update.kind).generation = m.expectedGeneration)
      .credentialGenerationConflict
    let _ ← nextCredentialGeneration m.expectedGeneration
    return none

/-- What is done about a failure before it is returned. -/
def recoverAfter (b : Backend) (e : PersistenceError) :
    Except PersistenceError CredentialIdentityStatus × Backend :=
  match b.recoverCredentialMutations with
  | (.error e, b) => (.error e, b)
  | (.ok _, b) => (.error e, b)

def mutateCredential (env : CredentialEnvironment) (b : Backend) (m : CredentialMutation) :
    Except PersistenceError CredentialIdentityStatus × Backend :=
  match b.recoverCredentialMutations with
  | (.error e, b) => (.error e, b)
  | (.ok _, b) =>
    match b.lookupCredentialMutation m with
    | .error e => (.error e, b)
    | .ok (some status) => (.ok status, b)
    | .ok none =>
      match b.prepareCredentialMutation env m.requestId m.update.kind m.update.operation
        m.expectedGeneration with
      | .error e => (.error e, b)
      | .ok (request, b) =>
        match b.dispatchCredentialMutation request with
        | .error e => b.recoverAfter e
        | .ok b =>
          match b.applyCredential env m.update m.expectedGeneration m.requestId with
          | (.error e, b) =>
            if (b.credentials m.update.kind).consistent then b.recoverAfter e else (.error e, b)
          | (.ok _, b) =>
            match b.completeCredentialMutation request with
            | .error e => b.recoverAfter e
            | .ok (status, b) => (.ok status, b)

/-- Where a process dies: after one of the transactions, or at the replacement
of the file, which then has the old content or the new one. -/
inductive Cut
  | prepare | dispatch | replacement (installed : Bool) | complete
  deriving DecidableEq

/-- What a request leaves when the process dies on the way.  A request that
ends before that point leaves what it has done. -/
def interrupted (env : CredentialEnvironment) (b : Backend) (m : CredentialMutation) (cut : Cut) :
    Backend :=
  match b.recoverCredentialMutations with
  | (.error _, b) => b
  | (.ok _, b) =>
    match b.lookupCredentialMutation m with
    | .error _ | .ok (some _) => b
    | .ok none =>
      match b.prepareCredentialMutation env m.requestId m.update.kind m.update.operation
        m.expectedGeneration with
      | .error _ => b
      | .ok (request, b) =>
        if cut = .prepare then b
        else
          match b.dispatchCredentialMutation request with
          | .error _ => b
          | .ok b =>
            match b.nextContent env m.update m.expectedGeneration m.requestId with
            | .error _ => b
            | .ok next =>
              match cut with
              | .prepare | .dispatch | .replacement false => b
              | .replacement true => b.replace m.update.kind next
              | .complete =>
                let b := (b.replace m.update.kind next).withStore m.update.kind ⟨next, true⟩
                match b.completeCredentialMutation request with
                | .error _ => b
                | .ok (_, b) => b

end Backend

/-! ## Histories -/

inductive CredentialEvent
  /-- A request that runs to its end. -/
  | mutate (env : CredentialEnvironment) (m : CredentialMutation)
  /-- A request that is cut off, and the start after it. -/
  | interrupt (env : CredentialEnvironment) (m : CredentialMutation) (cut : Backend.Cut)
  | restart

def CredentialEvent.run (b : Backend) : CredentialEvent → Backend
  | mutate env m => (b.mutateCredential env m).2
  | interrupt env m cut => (b.interrupted env m cut).restart.2
  | restart => b.restart.2

def runCredentialEvents (b : Backend) (events : List CredentialEvent) : Backend :=
  events.foldl CredentialEvent.run b

end Morons
