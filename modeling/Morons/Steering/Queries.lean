import Morons.Steering.Queue
import Morons.Steering.Mutation

/-!
# Reading a steering queue

A snapshot shows a queue with its items in the order they came; a replay shows
the numbers and revisions of its history after a cursor.
-/

namespace Morons

open Attempt Ledger

structure SteeringCursor where
  sessionId : SessionId
  sequence : Nat
  deriving DecidableEq

structure SteeringSnapshotItem where
  id : SteeringItemId
  revision : Nat
  enqueueSequence : Nat
  text : String
  deriving DecidableEq

structure SteeringSnapshot where
  cursor : SteeringCursor
  revision : Nat
  targetRunId : Option RunId
  paused : Bool
  items : List SteeringSnapshotItem
  deriving DecidableEq

structure SteeringNotice where
  cursor : SteeringCursor
  revision : Nat
  deriving DecidableEq

structure SteeringPage where
  notices : List SteeringNotice
  highWater : SteeringCursor
  deriving DecidableEq

/-- The receipts and the lifecycle facts in one table. -/
def steeringHistory (s : Store) : List SteeringHistoryRow :=
  s.steeringMutationRequests.map SteeringMutationRequest.historyRow ++
    s.steeringLifecycleFacts.map SteeringLifecycleFact.historyRow

/-- The history of a session, oldest record first. -/
def sessionHistory (s : Store) (sessionId : SessionId) : List SteeringHistoryRow :=
  ordered SteeringHistoryRow.sequence
    ((steeringHistory s).filter fun r => r.sessionId = sessionId)

def steeringHighWater (s : Store) (sessionId : SessionId) :
    Except PersistenceError SteeringCursor := do
  require (loadSession s sessionId).isSome .sessionNotFound
  return ⟨sessionId, greatest SteeringHistoryRow.sequence
    ((steeringHistory s).filter fun r => r.sessionId = sessionId)⟩

def SteeringPendingMessage.snapshot (p : SteeringPendingMessage) : SteeringSnapshotItem :=
  ⟨p.itemId, p.revision, p.enqueueSequence, p.text⟩

def steeringSnapshot (s : Store) (sessionId : SessionId) :
    Except PersistenceError SteeringSnapshot := do
  let cursor ← steeringHighWater s sessionId
  let queue := loadSteeringQueue s sessionId
  let items := ordered SteeringPendingMessage.enqueueSequence
    (s.steeringPendingMessages.filter fun p => p.sessionId = sessionId)
  return {
    cursor
    revision := (queue.map (·.revision)).getD 0
    targetRunId := queue.map (·.targetRunId)
    paused := (queue.map (·.paused)).getD true
    items := (items.take 16).map SteeringPendingMessage.snapshot }

def steeringReplay (s : Store) (cursor : SteeringCursor) (limit : Nat) :
    Except PersistenceError SteeringPage := do
  require (1 ≤ limit ∧ limit ≤ 128)
    (.invalidInput "steering replay requires a limit between 1 and 128")
  let highWater ← steeringHighWater s cursor.sessionId
  require (cursor.sequence ≤ highWater.sequence)
    (.invalidInput "the steering cursor is ahead of durable history")
  let rows := (sessionHistory s cursor.sessionId).filter fun r =>
    decide (cursor.sequence < r.sequence) && decide (r.sequence ≤ highWater.sequence)
  return {
    notices := (rows.take limit).map fun r =>
      ⟨⟨cursor.sessionId, r.sequence⟩, r.queueRevision⟩
    highWater }

end Morons
