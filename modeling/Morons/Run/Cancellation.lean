import Morons.Run.Execution

/-!
# Cancelling a run

`cancelRun` records a request and, when the run can still be stopped, its
intent; a repeated identifier returns the recorded outcome.
-/

namespace Morons

open Attempt

structure RunCancellationResult where
  runId : RunId
  state : RunState
  cancellationRequested : Bool
  intentApplied : Bool
  deriving DecidableEq

def RunCancellationRequest.result (r : RunCancellationRequest) : RunCancellationResult :=
  ⟨r.runId, r.resultState, r.resultCancellationRequested, r.intentApplied⟩

def loadCancellationRequest (s : Store) (requestId : MutationRequestId) :
    Option RunCancellationRequest :=
  Table.find RunCancellationRequest.requestId requestId s.runCancellationRequests

def resolveExistingCancellation (s : Store) (requestId : MutationRequestId)
    (fingerprint : Fingerprint) : Except PersistenceError (Option RunCancellationResult) :=
  match loadCancellationRequest s requestId, loadMutationOperation s requestId with
  | some request, some .runCancel => do
    require (request.fingerprint = fingerprint) .requestConflict
    return some request.result
  | some _, _ =>
    .error (.invalidState "a run cancellation request is missing its mutation registry record")
  | none, some _ => .error .requestConflict
  | none, none => .ok none

/-- What an applied request changes besides its own records. -/
def applyCancellation (s : Store) (run : Run) (eventId : DeliveryEventId)
    (acceptedSequence now : Nat) : Except PersistenceError Store := do
  let s ← pause s (some run.sessionId) (some run.id) .cancellation (some acceptedSequence) now
  let s := updateRun s run.id fun r => { r with
    cancellationRequested := true
    updatedSequence := acceptedSequence
    updatedAtMilliseconds := now }
  let s := updateSessionRunState s run.sessionId fun r =>
    { r with updatedSequence := acceptedSequence }
  let s := updateSession s run.sessionId fun r => { r with updatedSequence := acceptedSequence }
  return insertDeliveryEvent s eventId acceptedSequence run.sessionId .cancellationRequested now

def insertCancellation (env : Environment) (s : Store) (requestId : MutationRequestId)
    (fingerprint : Fingerprint) (sessionId : SessionId) (runId : RunId) :
    Except PersistenceError (RunCancellationResult × Store) := do
  require (loadSession s sessionId).isSome .sessionNotFound
  let run ← demand .runNotFound (loadScopedRun s sessionId runId)
  require (s.runCancellationRequests.length < maxRunCancellationRequests) (.resourceLimit .runs)
  let intentApplied := !run.state.isTerminal && !run.cancellationRequested
  let cancellationRequested := run.cancellationRequested || intentApplied
  let eventId := s.nextIdentifier
  let (acceptedSequence, s) ← nextSequence (s.takeIdentifiers 1)
  let (auditSequence, s) ← nextSequence s
  let s := insertMutationRequest s requestId .runCancel acceptedSequence env.now
  -- The schema knows the states up to Interrupted only.
  require (1 ≤ run.state.toRecord ∧ run.state.toRecord ≤ 6)
    (.sqlite "CHECK run_cancellation_requests.result_state")
  require (intentApplied = true → ∀ c ∈ s.runCancellationRequests, c.runId = runId →
    c.intentApplied = false) (.sqlite "UNIQUE run_cancellation_intent_by_run")
  let s := { s with
    runCancellationRequests :=
      ⟨requestId, fingerprint, sessionId, runId, acceptedSequence, env.now, run.state,
        cancellationRequested, intentApplied, if intentApplied then some eventId else none⟩ ::
        s.runCancellationRequests }
  let s ← (if intentApplied then applyCancellation s run eventId acceptedSequence env.now else .ok s)
  let s := { s with
    runAuditFacts :=
      ⟨auditSequence, some requestId, sessionId, runId, none, .client,
        if intentApplied then .cancellationRequested else .cancellationObserved, env.now⟩ ::
        s.runAuditFacts }
  return (⟨runId, run.state, cancellationRequested, intentApplied⟩, s)

def cancelRun (env : Environment) (s : Store) (requestId : MutationRequestId)
    (fingerprint : Fingerprint) (sessionId : SessionId) (runId : RunId) :
    Except PersistenceError (RunCancellationResult × Store) := do
  match ← resolveExistingCancellation s requestId fingerprint with
  | some existing => return (existing, s)
  | none => insertCancellation env s requestId fingerprint sessionId runId

end Morons
