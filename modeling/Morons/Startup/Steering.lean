import Morons.Steering.Queries
import Morons.Startup.Commands
import Morons.Invariant.Sources

/-!
# Startup checks of the steering queues

The checks recompute the queues from the receipts and the lifecycle facts with
window queries, and `rebuildSteering` writes them anew.  No message has been
delivered.
-/

namespace Morons

open Attempt Ledger

/-! ## The history and its sources -/

/-- The newest value of a column in the history of a session before a number. -/
def priorColumn {Col : Type} (s : Store) (column : SteeringHistoryRow → Option Col)
    (sessionId : SessionId) (n : Nat) : Option Col :=
  (latest SteeringHistoryRow.sequence ((steeringHistory s).filter fun r =>
    r.sessionId = sessionId && (column r).isSome && decide (r.sequence < n))).bind column

/-- Whether a row of a session has a value in a column before a number. -/
def hasPrior {Col : Type} (s : Store) (column : SteeringHistoryRow → Option Col)
    (sessionId : SessionId) (n : Nat) : Bool :=
  (steeringHistory s).any fun r =>
    r.sessionId = sessionId && (column r).isSome && decide (r.sequence < n)

def invalidSteeringReceipt (s : Store) (r : SteeringMutationRequest) : Bool :=
  (r.queueRevision = 1 && r.changeKind ≠ .enqueue) ||
  ((r.changeKind = .enqueue || r.changeKind = .resume) &&
    (!(s.runAcceptedFacts.any fun f =>
        f.sessionId = r.sessionId && some f.runId = r.targetRunId &&
          decide (f.factSequence < r.acceptedSequence)) ||
      (steeringSources s).any fun x =>
        x.sessionId = r.sessionId && x.runId.isSome && x.runId = r.targetRunId &&
          (x.reason = .cancellation || x.reason = .terminal) &&
          decide (x.sequence < r.acceptedSequence))) ||
  archivedBefore s r.sessionId r.acceptedSequence ||
  (r.changeKind = .enqueue &&
    r.targetRunId ≠ priorColumn s SteeringHistoryRow.targetRunId r.sessionId r.acceptedSequence &&
    hasPrior s SteeringHistoryRow.targetRunId r.sessionId r.acceptedSequence)

/-- A source that found its queue running and has no lifecycle fact. -/
def unstoppedQueue (s : Store) (x : SteeringSource) : Bool :=
  priorColumn s SteeringHistoryRow.paused x.sessionId x.sequence = some false &&
  (x.runId = none ||
    x.runId = priorColumn s SteeringHistoryRow.targetRunId x.sessionId x.sequence) &&
  !s.steeringLifecycleFacts.any fun f =>
    f.sessionId = x.sessionId && f.reason = x.reason && f.sourceSequence = some x.sequence

/-- Two successive rows of a session that do not follow one another. -/
def brokenSequence (s : Store) (sessionId : SessionId) : Bool :=
  (lagged (sessionHistory s sessionId)).any fun (row, previous) =>
    row.queueRevision ≠ previous.queueRevision + 1 || decide (row.sequence ≤ previous.sequence)

def repeatedRevision (s : Store) (r : SteeringHistoryRow) : Bool :=
  ((steeringHistory s).countP fun r' =>
    r'.sessionId = r.sessionId && r'.queueRevision = r.queueRevision) ≠ 1

/-- The source that the reason of a lifecycle fact demands. -/
def hasSteeringSource (s : Store) (f : SteeringLifecycleFact) : Bool :=
  match f.reason with
  | .cancellation => s.runCancellationRequests.any fun c =>
      some c.factSequence = f.sourceSequence && c.sessionId = f.sessionId &&
        c.runId = f.targetRunId && c.intentApplied &&
        c.acceptedAtMilliseconds = f.createdAtMilliseconds
  | .terminal => s.runStateFacts.any fun g =>
      some g.factSequence = f.sourceSequence && g.sessionId = f.sessionId &&
        g.runId = f.targetRunId && g.state.isTerminal &&
        g.createdAtMilliseconds = f.createdAtMilliseconds
  | .archive => s.sessionArchiveRequests.any fun r =>
      some r.acceptedSequence = f.sourceSequence && r.sessionId = f.sessionId && r.archived &&
        r.acceptedAtMilliseconds = f.createdAtMilliseconds
  | .recovery => true

/-- No row of the session between two numbers has a value in a column. -/
def noneBetween {Col : Type} (s : Store) (column : SteeringHistoryRow → Option Col)
    (sessionId : SessionId) (low high : Nat) : Bool :=
  !(steeringHistory s).any fun r =>
    r.sessionId = sessionId && (column r).isSome && decide (low < r.sequence) &&
      decide (r.sequence < high)

def invalidLifecycleFact (s : Store) (f : SteeringLifecycleFact) : Bool :=
  ((steeringHistory s).any fun r =>
    r.sessionId = f.sessionId && r.paused = some true && decide (r.sequence < f.factSequence) &&
      noneBetween s SteeringHistoryRow.paused f.sessionId r.sequence f.factSequence) ||
  f.sourceSequence.any (fun n => decide (f.factSequence ≤ n)) ||
  !hasSteeringSource s f ||
  (steeringHistory s).any fun r =>
    r.sessionId = f.sessionId && decide (r.sequence < f.factSequence) && r.targetRunId.isSome &&
      r.targetRunId ≠ some f.targetRunId &&
      noneBetween s SteeringHistoryRow.targetRunId f.sessionId r.sequence f.factSequence

def validateSteeringHistory (s : Store) : Except PersistenceError Unit :=
  require (¬ (s.steeringMutationRequests.any (invalidSteeringReceipt s) ∨
      (steeringSources s).any (unstoppedQueue s) ∨
      ((steeringHistory s).map (·.sessionId)).dedup.any (brokenSequence s) ∨
      (steeringHistory s).any (repeatedRevision s) ∨
      s.steeringLifecycleFacts.any (invalidLifecycleFact s)))
    (.invalidState "steering lifecycle history conflicts with its source or queue")

/-- No later row of the session has a value in a column. -/
def newestWith {Col : Type} (s : Store) (column : SteeringHistoryRow → Option Col)
    (r : SteeringHistoryRow) : Bool :=
  !(steeringHistory s).any fun r' =>
    r'.sessionId = r.sessionId && (column r').isSome && decide (r.sequence < r'.sequence)

def validateSteeringQueues (s : Store) : Except PersistenceError Unit :=
  require (¬ (steeringHistory s).any fun r =>
      let queue := loadSteeringQueue s r.sessionId
      (newestWith s (fun r' => some r'.queueRevision) r &&
        queue.map (·.revision) ≠ some r.queueRevision) ||
      (queue.isSome && r.paused.isSome && queue.map (·.paused) ≠ r.paused &&
        newestWith s SteeringHistoryRow.paused r) ||
      (queue.isSome && r.targetRunId.isSome && queue.map (·.targetRunId) ≠ r.targetRunId &&
        newestWith s SteeringHistoryRow.targetRunId r))
    (.invalidState "steering lifecycle history conflicts with its source or queue")

/-- `steering_lifecycle::validate`. -/
def validateSteeringLifecycle (s : Store) : Except PersistenceError Unit := do
  validateSteeringHistory s
  validateSteeringQueues s

/-- `steering_delivery::validate`, with no delivery: a user entry opens its run. -/
def validateSteeringDelivery (s : Store) : Except PersistenceError Unit :=
  require (¬ s.sessionEntries.any fun e => e.body.isUser && s.runAcceptedFacts.any fun f =>
      f.runId = e.runId && e.messageId ≠ f.userMessageId)
    (.invalidState "steering delivery has invalid canonical provenance or boundary")

/-! ## The receipts -/

/-- `SUM(delta)` over the changes of a session up to one of them. -/
def pendingCount (s : Store) (r : SteeringMutationRequest) : Int :=
  ((s.steeringMutationRequests.filter fun r' =>
    r'.sessionId = r.sessionId && decide (r'.acceptedSequence ≤ r.acceptedSequence)).map
      SteeringMutationRequest.delta).sum

def validateSteeringCapacityHistory (s : Store) : Except PersistenceError Unit :=
  require (¬ s.steeringMutationRequests.any fun r =>
      !(decide (0 ≤ pendingCount s r) && decide (pendingCount s r ≤ 16)))
    (.invalidState "steering history exceeds queue capacity")

def SteeringChangeKind.isOfItem : SteeringChangeKind → Bool
  | enqueue | edit | remove => true
  | pause | resume => false

/-- The changes of an item, oldest first. -/
def itemHistory (s : Store) (sessionId : SessionId) (itemId : Option SteeringItemId) :
    List SteeringMutationRequest :=
  ordered SteeringMutationRequest.acceptedSequence (s.steeringMutationRequests.filter fun r =>
    r.changeKind.isOfItem && r.sessionId = sessionId && r.itemId = itemId)

/-- A change of an item that does not follow the one before it. -/
def brokenItem (r : SteeringMutationRequest) (previous : Option SteeringMutationRequest) : Bool :=
  match r.changeKind with
  | .enqueue => previous.isSome
  | .edit => !(previous.any fun p => p.changeKind = .enqueue || p.changeKind = .edit) ||
      r.itemRevision.map (· - 1) ≠ previous.bind (·.itemRevision)
  | .remove => !(previous.any fun p => p.changeKind = .enqueue || p.changeKind = .edit) ||
      r.itemRevision ≠ previous.bind (·.itemRevision)
  | .pause | .resume => false

def brokenItemHistory (s : Store) (r : SteeringMutationRequest) : Bool :=
  (withPrevious (itemHistory s r.sessionId r.itemId)).any fun (row, previous) =>
    brokenItem row previous

def steeringRevision (n : Nat) : Except PersistenceError Nat := do
  require (0 < n) (.invalidState "a persisted steering mutation has an invalid revision")
  return n

/-- The change in the columns of a receipt. -/
def SteeringMutationRequest.change (r : SteeringMutationRequest) :
    Except PersistenceError SteeringChange := do
  match r.changeKind with
  | .enqueue => do
    let runId ← demand (.sqlite "target_run_id") r.targetRunId
    let text ← demand (.sqlite "text") r.text
    return .enqueue runId text
  | .edit => do
    let itemId ← demand (.sqlite "item_id") r.itemId
    let itemRevision ← demand (.sqlite "item_revision") r.itemRevision
    let itemRevision ← steeringRevision itemRevision
    let text ← demand (.sqlite "text") r.text
    return .edit itemId (itemRevision - 1) text
  | .remove => do
    let itemId ← demand (.sqlite "item_id") r.itemId
    let itemRevision ← demand (.sqlite "item_revision") r.itemRevision
    let itemRevision ← steeringRevision itemRevision
    return .remove itemId itemRevision
  | .pause => return .pause
  | .resume => do
    let runId ← demand (.sqlite "target_run_id") r.targetRunId
    return .resume runId

def validateSteeringReceipt (r : SteeringMutationRequest) : Except PersistenceError Unit := do
  let revision ← steeringRevision r.queueRevision
  let change ← r.change
  require (change.text.all fun text => (validateSteeringText text).isOk)
    (.invalidState "a persisted steering mutation has invalid canonical input")
  require (.steering r.sessionId (revision - 1) change = r.fingerprint)
    (.invalidState "a persisted steering mutation has invalid canonical input")

def validateSteeringMutationHistory (s : Store) : Except PersistenceError Unit := do
  validateSteeringCapacityHistory s
  require (¬ (s.steeringMutationRequests.any (fun r => r.changeKind.isOfItem && brokenItemHistory s r) ∨
      registryConflict .steering SteeringMutationRequest.stamp s.mutationRequests
        s.steeringMutationRequests ∨
      s.steeringMutationRequests.any fun r => s.steeringMutationRequests.any fun earlier =>
        earlier.sessionId = r.sessionId && decide (earlier.queueRevision < r.queueRevision) &&
          decide (r.acceptedSequence ≤ earlier.acceptedSequence)))
    (.invalidState "steering mutation receipts conflict with the registry or queue")
  s.steeringMutationRequests.forM validateSteeringReceipt

/-! ## The queues against the receipts -/

/-- No later receipt of the session is chosen by a predicate. -/
def newestReceipt (s : Store) (p : SteeringMutationRequest → Bool) (r : SteeringMutationRequest) :
    Bool :=
  !s.steeringMutationRequests.any fun r' =>
    r'.sessionId = r.sessionId && p r' && decide (r.acceptedSequence < r'.acceptedSequence)

def SteeringMutationRequest.ofItem (r : SteeringMutationRequest) (r' : SteeringMutationRequest) :
    Bool :=
  r'.itemId.isSome && r'.itemId = r.itemId

/-- The message of an item, as its newest receipt and its enqueue tell it. -/
def pendingAgrees (s : Store) (r : SteeringMutationRequest) (p : SteeringPendingMessage) : Bool :=
  some p.text = r.text && some p.revision = r.itemRevision &&
    s.steeringMutationRequests.any fun e =>
      e.sessionId = r.sessionId && r.ofItem e && e.changeKind = .enqueue &&
        e.acceptedSequence = p.enqueueSequence && e.acceptedAtMilliseconds = p.createdAtMilliseconds

def findPending (s : Store) (r : SteeringMutationRequest) : Option SteeringPendingMessage :=
  s.steeringPendingMessages.find? fun p => p.sessionId = r.sessionId && some p.itemId = r.itemId

def validateSteeringMutationProjection (s : Store) : Except PersistenceError Unit :=
  require (¬ ((s.steeringPendingMessages.any fun p =>
        (s.steeringMutationRequests.any fun r =>
          r.sessionId = p.sessionId && r.queueRevision = 1) &&
        !s.steeringMutationRequests.any fun e =>
          e.sessionId = p.sessionId && e.itemId = some p.itemId && e.changeKind = .enqueue) ∨
      (s.steeringMutationRequests.any fun r =>
        (loadSteeringQueue s r.sessionId).all fun q => decide (q.revision < r.queueRevision)) ∨
      (s.steeringQueues.any fun q => s.steeringMutationRequests.any fun r =>
        r.sessionId = q.sessionId && (r.changeKind = .enqueue || r.changeKind = .resume) &&
          r.targetRunId ≠ some q.targetRunId &&
          newestReceipt s (fun r' => r'.changeKind = .enqueue || r'.changeKind = .resume) r) ∨
      (s.steeringQueues.any fun q => s.steeringMutationRequests.any fun r =>
        r.sessionId = q.sessionId && r.queueRevision = q.revision &&
          ((r.changeKind = .pause && !q.paused) || (r.changeKind = .resume && q.paused) ||
            (r.changeKind = .enqueue && r.queueRevision = 1 && !q.paused))) ∨
      s.steeringMutationRequests.any fun r =>
        r.changeKind.isOfItem && newestReceipt s r.ofItem r &&
          ((r.changeKind = .remove && (findPending s r).isSome) ||
            ((r.changeKind = .enqueue || r.changeKind = .edit) &&
              !(findPending s r).any (pendingAgrees s r)))))
    (.invalidState "steering mutation receipts conflict with the registry or queue")

def validateSteeringMutations (s : Store) : Except PersistenceError Unit := do
  validateSteeringDelivery s
  validateSteeringLifecycle s
  validateSteeringMutationHistory s
  validateSteeringMutationProjection s

/-! ## Rebuilding -/

/-- The sessions with a receipt that opened their queue. -/
def openedSessions (s : Store) : List SessionId :=
  (s.steeringMutationRequests.filter fun r => r.queueRevision = 1).map (·.sessionId)

/-- The row of a queue, as `INSERT INTO steering_queues` selects it. -/
def rebuiltQueue (s : Store) (sessionId : SessionId) : Except PersistenceError SteeringQueue := do
  let history := (steeringHistory s).filter fun r => r.sessionId = sessionId
  let targetRunId ← demand (.sqlite "NOT NULL steering_queues.target_run_id")
    ((latest SteeringHistoryRow.sequence (history.filter fun r => r.targetRunId.isSome)).bind
      (·.targetRunId))
  let paused ← demand (.sqlite "NOT NULL steering_queues.paused")
    ((latest SteeringHistoryRow.sequence (history.filter fun r => r.paused.isSome)).bind (·.paused))
  return ⟨sessionId, targetRunId, greatest SteeringHistoryRow.queueRevision history, paused⟩

def insertRebuiltQueue (s : Store) (sessionId : SessionId) : Except PersistenceError Store := do
  let queue ← rebuiltQueue s sessionId
  require (loadSteeringQueue s sessionId).isNone (.sqlite "UNIQUE steering_queues.session_id")
  require (s.runAcceptedFacts.any fun f =>
      f.sessionId = sessionId && f.runId = queue.targetRunId)
    (.sqlite "FOREIGN KEY steering_queues.target_run_id")
  return { s with steeringQueues := queue :: s.steeringQueues }

/-- The newest receipts of the items of a session that wait, each with its enqueue. -/
def waitingReceipts (s : Store) (sessionId : SessionId) :
    List (SteeringMutationRequest × SteeringMutationRequest) :=
  (s.steeringMutationRequests.filter fun r =>
    r.sessionId = sessionId && (r.changeKind = .enqueue || r.changeKind = .edit) &&
      newestReceipt s r.ofItem r).flatMap fun r =>
    (s.steeringMutationRequests.filter fun e =>
      e.sessionId = r.sessionId && r.ofItem e && e.changeKind = .enqueue).map fun e => (r, e)

/-- `ROW_NUMBER() OVER (PARTITION BY session_id ORDER BY enqueue_sequence)`. -/
def numberedReceipts (s : Store) (sessionId : SessionId) :
    List ((SteeringMutationRequest × SteeringMutationRequest) × Nat) :=
  (ordered (fun r => r.2.acceptedSequence) (waitingReceipts s sessionId)).zipIdx 1

def rebuiltMessage (r : (SteeringMutationRequest × SteeringMutationRequest) × Nat) :
    Option SteeringPendingMessage := do
  let itemId ← r.1.1.itemId
  let revision ← r.1.1.itemRevision
  let text ← r.1.1.text
  return ⟨itemId, r.1.1.sessionId, r.2, r.1.2.acceptedSequence, revision, text,
    r.1.2.acceptedAtMilliseconds⟩

def insertRebuiltMessage (s : Store)
    (r : (SteeringMutationRequest × SteeringMutationRequest) × Nat) :
    Except PersistenceError Store := do
  let p ← demand (.sqlite "NOT NULL steering_pending_messages") (rebuiltMessage r)
  require (loadSteeringQueue s p.sessionId).isSome
    (.sqlite "FOREIGN KEY steering_pending_messages.session_id")
  require (1 ≤ p.slot ∧ p.slot ≤ 16) (.sqlite "CHECK steering_pending_messages.slot")
  require (∀ q ∈ s.steeringPendingMessages, q.itemId ≠ p.itemId ∧ (q.sessionId = p.sessionId →
      q.slot ≠ p.slot ∧ q.enqueueSequence ≠ p.enqueueSequence))
    (.sqlite "UNIQUE steering_pending_messages")
  return { s with steeringPendingMessages := p :: s.steeringPendingMessages }

/-- `steering_rebuild::rebuild`: the queues with an opening receipt are written anew. -/
def rebuildSteering (s : Store) : Except PersistenceError Store := do
  let opened := openedSessions s
  let s := { s with
    steeringPendingMessages := s.steeringPendingMessages.filter fun p => p.sessionId ∉ opened
    steeringQueues := s.steeringQueues.filter fun q => q.sessionId ∉ opened }
  let s ← sweep insertRebuiltQueue s opened
  sweep insertRebuiltMessage s (opened.dedup.flatMap fun sessionId => numberedReceipts s sessionId)

end Morons
