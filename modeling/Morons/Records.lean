import Morons.Library.Attempt
import Morons.Library.Ledger
import Morons.Library.Table
import Morons.Store

/-!
# Records

Reading and writing single rows: the logical sequence, the registry of
mutation requests, sessions, runs, delivery events, and the pausing of
steering queues.
-/

namespace Morons

open Attempt

/-! ## Sequences and identifiers -/

def nextSequence (s : Store) : Except PersistenceError (Nat × Store) :=
  if s.nextValue < maxInteger then
    .ok (s.nextValue, { s with nextValue := s.nextValue + 1 })
  else
    .error (.resourceLimit .logicalSequence)

theorem nextSequence_ok {s t : Store} {n : Nat} :
    nextSequence s = .ok (n, t) ↔
      s.nextValue < maxInteger ∧ n = s.nextValue ∧ t = { s with nextValue := s.nextValue + 1 } := by
  unfold nextSequence
  split <;> simp_all [eq_comm]

/-- Mark `k` random identifiers, starting at `s.nextIdentifier`, as used. -/
def Store.takeIdentifiers (s : Store) (k : Nat) : Store :=
  { s with nextIdentifier := s.nextIdentifier + k }

/-! ## Mutation requests -/

/-- The operation of an accepted request, also when its session is deleted. -/
def loadMutationOperation (s : Store) (requestId : MutationRequestId) : Option MutationOperation :=
  ((Table.find MutationRequest.requestId requestId s.mutationRequests).map (·.operation)).or
    ((Table.find DeletedMutationTombstone.requestId requestId s.deletedMutationTombstones).map
      (·.operation))

def insertMutationRequest (s : Store) (requestId : MutationRequestId)
    (operation : MutationOperation) (acceptedSequence now : Nat) : Store :=
  { s with mutationRequests := ⟨requestId, operation, acceptedSequence, now⟩ :: s.mutationRequests }

theorem loadMutationOperation_none {s : Store} {requestId : MutationRequestId} :
    loadMutationOperation s requestId = none ↔
      (∀ m ∈ s.mutationRequests, m.requestId ≠ requestId) ∧
        ∀ m ∈ s.deletedMutationTombstones, m.requestId ≠ requestId := by
  simp [loadMutationOperation, Table.find_none]

/-! ## Sessions -/

def loadSession (s : Store) (sessionId : SessionId) : Option Session :=
  Table.find Session.id sessionId s.sessions

def loadSessionRunState (s : Store) (sessionId : SessionId) : Option SessionRunState :=
  Table.find SessionRunState.sessionId sessionId s.sessionRunStates

def loadEntryHighWater (s : Store) (sessionId : SessionId) : Except PersistenceError Nat := do
  let state ← demand (.invalidState "a run session is missing its run-state projection")
    (loadSessionRunState s sessionId)
  return state.entryHighWater

def updateSession (s : Store) (sessionId : SessionId) (f : Session → Session) : Store :=
  { s with sessions := Table.modify Session.id sessionId f s.sessions }

def updateSessionRunState (s : Store) (sessionId : SessionId)
    (f : SessionRunState → SessionRunState) : Store :=
  { s with
    sessionRunStates := Table.modify SessionRunState.sessionId sessionId f s.sessionRunStates }

/-- The local command of a session that has not finished. -/
def activeLocalCommand (s : Store) (sessionId : SessionId) : Option LocalCommandId :=
  (s.localCommands.find? fun c => c.sessionId = sessionId && !c.state.isTerminal).map (·.commandId)

/-- A prepared request to archive the session. -/
def archivePending (s : Store) (sessionId : SessionId) : Bool :=
  s.sessionArchiveRequests.any fun r => r.sessionId = sessionId && r.archived && !r.complete

/-! ## Runs -/

def loadRun (s : Store) (runId : RunId) : Option Run := Table.find Run.id runId s.runs

def loadScopedRun (s : Store) (sessionId : SessionId) (runId : RunId) : Option Run :=
  (loadRun s runId).filter (fun run => run.sessionId = sessionId)

def loadRequiredRun (s : Store) (runId : RunId) : Except PersistenceError Run :=
  demand (.invalidState "a canonical run is missing its current-state projection") (loadRun s runId)

def updateRun (s : Store) (runId : RunId) (f : Run → Run) : Store :=
  { s with runs := Table.modify Run.id runId f s.runs }

/-! ## Events and audit records -/

def insertDeliveryEvent (s : Store) (eventId : DeliveryEventId) (sequence : Nat)
    (sessionId : SessionId) (eventKind : EventKind) (now : Nat) : Store :=
  { s with deliveryEvents := ⟨eventId, sequence, sessionId, eventKind, now⟩ :: s.deliveryEvents }

def insertRunAudit (s : Store) (auditSequence : Nat) (run : Run)
    (operationId : Option ProviderOperationId) (auditKind : RunAuditKind) (now : Nat) : Store :=
  { s with
    runAuditFacts :=
      ⟨auditSequence, none, run.sessionId, run.id, operationId, .server, auditKind, now⟩ ::
        s.runAuditFacts }

/-! ## Steering queues -/

/-- Pause one queue and record why. -/
def pauseQueue (reason : PauseReason) (sourceSequence : Option Nat) (now : Nat) (s : Store)
    (queue : SteeringQueue) : Except PersistenceError Store := do
  require (queue.revision + 1 ≤ maxInteger) (.invalidState "steering queue revision overflow")
  let (sequence, s) ← nextSequence s
  return { s with
    steeringLifecycleFacts :=
      ⟨sequence, queue.sessionId, queue.targetRunId, queue.revision + 1, reason, sourceSequence,
        now⟩ :: s.steeringLifecycleFacts
    steeringQueues := Table.modify SteeringQueue.sessionId queue.sessionId
      (fun q => { q with paused := true, revision := queue.revision + 1 }) s.steeringQueues }

/-- The running queues of a session and a run, where these are given. -/
def runningQueues (s : Store) (sessionId : Option SessionId) (runId : Option RunId) :
    List SteeringQueue :=
  (s.steeringQueues.filter fun q =>
    !q.paused && sessionId.all (fun id => decide (q.sessionId = id)) &&
      runId.all (fun id => decide (q.targetRunId = id))).mergeSort
    fun a b => decide (a.sessionId ≤ b.sessionId)

def pause (s : Store) (sessionId : Option SessionId) (runId : Option RunId) (reason : PauseReason)
    (sourceSequence : Option Nat) (now : Nat) : Except PersistenceError Store :=
  sweep (pauseQueue reason sourceSequence now) s (runningQueues s sessionId runId)

/-- Pausing moves the sequence and the steering tables, nothing else. -/
structure Paused (s t : Store) : Prop where
  frame : t = { s with
    nextValue := t.nextValue
    steeringQueues := t.steeringQueues
    steeringLifecycleFacts := t.steeringLifecycleFacts }
  forward : s.nextValue ≤ t.nextValue
  limit : s.nextValue ≤ maxInteger → t.nextValue ≤ maxInteger

theorem Paused.refl (s : Store) : Paused s s := ⟨rfl, le_refl _, id⟩

theorem Paused.trans {s t u : Store} (h : Paused s t) (k : Paused t u) : Paused s u := by
  refine ⟨?_, h.forward.trans k.forward, fun hs => k.limit (h.limit hs)⟩
  rw [k.frame, h.frame]

theorem pauseQueue_paused {reason : PauseReason} {source : Option Nat} {now : Nat} {s t : Store}
    {queue : SteeringQueue} (h : pauseQueue reason source now s queue = .ok t) : Paused s t := by
  simp only [pauseQueue, bind_ok, require_ok, pure_ok, Prod.exists, nextSequence_ok] at h
  obtain ⟨_, -, sequence, u, ⟨hlt, rfl, rfl⟩, rfl⟩ := h
  exact ⟨rfl, Nat.le_succ _, fun _ => hlt⟩

theorem pause_paused {sessionId : Option SessionId} {runId : Option RunId} {reason : PauseReason}
    {source : Option Nat} {now : Nat} {s t : Store}
    (h : pause s sessionId runId reason source now = .ok t) : Paused s t :=
  sweep_keeps (pauseQueue reason source now) (Paused s) (runningQueues s sessionId runId)
    (fun _ _ _ _ hs hround => hs.trans (pauseQueue_paused hround)) s t (Paused.refl s) h

/-- What pausing asks for: revisions that can grow and a number for each queue. -/
theorem pause_succeeds {sessionId : Option SessionId} {runId : Option RunId} {reason : PauseReason}
    {source : Option Nat} {now : Nat} {s : Store} :
    (∃ t, pause s sessionId runId reason source now = .ok t) ↔
      (∀ q ∈ runningQueues s sessionId runId, q.revision + 1 ≤ maxInteger) ∧
        (runningQueues s sessionId runId ≠ [] →
          s.nextValue + (runningQueues s sessionId runId).length ≤ maxInteger) := by
  unfold pause
  generalize runningQueues s sessionId runId = queues
  induction queues generalizing s with
  | nil => simp
  | cons queue queues ih =>
    have hround : ∀ u, pauseQueue reason source now s queue = .ok u ↔
        queue.revision + 1 ≤ maxInteger ∧ s.nextValue < maxInteger ∧ u = { s with
          nextValue := s.nextValue + 1
          steeringLifecycleFacts := ⟨s.nextValue, queue.sessionId, queue.targetRunId,
            queue.revision + 1, reason, source, now⟩ :: s.steeringLifecycleFacts
          steeringQueues := Table.modify SteeringQueue.sessionId queue.sessionId
            (fun q => { q with paused := true, revision := queue.revision + 1 })
            s.steeringQueues } := by
      intro u
      simp only [pauseQueue, bind_ok, require_ok, pure_ok, Prod.exists, nextSequence_ok,
        exists_const]
      constructor
      · rintro ⟨hrevision, n, v, ⟨hroom, rfl, rfl⟩, rfl⟩
        exact ⟨hrevision, hroom, rfl⟩
      · rintro ⟨hrevision, hroom, rfl⟩
        exact ⟨hrevision, _, _, ⟨hroom, rfl, rfl⟩, rfl⟩
    simp only [sweep_cons_ok, hround]
    constructor
    · rintro ⟨t, u, ⟨hrevision, hroom, rfl⟩, ht⟩
      obtain ⟨hrest, hnumbers⟩ := ih.mp ⟨t, ht⟩
      refine ⟨List.forall_mem_cons.mpr ⟨hrevision, hrest⟩, fun _ => ?_⟩
      cases queues with
      | nil => exact hroom
      | cons q queues =>
        have hlength := hnumbers (by simp)
        simp only [List.length_cons] at hlength ⊢
        omega
    · rintro ⟨hrevisions, hnumbers⟩
      obtain ⟨hrevision, hrest⟩ := List.forall_mem_cons.mp hrevisions
      have hlength := hnumbers (by simp)
      simp only [List.length_cons] at hlength
      obtain ⟨t, ht⟩ := (ih (s := { s with
          nextValue := s.nextValue + 1
          steeringLifecycleFacts := ⟨s.nextValue, queue.sessionId, queue.targetRunId,
            queue.revision + 1, reason, source, now⟩ :: s.steeringLifecycleFacts
          steeringQueues := Table.modify SteeringQueue.sessionId queue.sessionId
            (fun q => { q with paused := true, revision := queue.revision + 1 })
            s.steeringQueues })).mpr ⟨hrest, fun _ => by
              show s.nextValue + 1 + queues.length ≤ maxInteger
              omega⟩
      exact ⟨t, _, ⟨hrevision, by omega, rfl⟩, ht⟩

/-- Pausing reads nothing but the sequence and the steering tables. -/
theorem pause_congr {sessionId : Option SessionId} {runId : Option RunId} {reason : PauseReason}
    {source : Option Nat} {now : Nat} {s s' t : Store} (hvalue : s'.nextValue = s.nextValue)
    (hqueues : s'.steeringQueues = s.steeringQueues)
    (hfacts : s'.steeringLifecycleFacts = s.steeringLifecycleFacts)
    (h : pause s sessionId runId reason source now = .ok t) :
    pause s' sessionId runId reason source now = .ok { s' with
      nextValue := t.nextValue
      steeringQueues := t.steeringQueues
      steeringLifecycleFacts := t.steeringLifecycleFacts } := by
  have hrunning : runningQueues s' sessionId runId = runningQueues s sessionId runId := by
    rw [runningQueues, runningQueues, hqueues]
  rw [pause] at h ⊢
  rw [hrunning]
  clear hrunning
  generalize runningQueues s sessionId runId = queues at h
  induction queues generalizing s s' with
  | nil =>
    cases h
    rw [← hvalue, ← hqueues, ← hfacts]
    rfl
  | cons queue queues ih =>
    rw [sweep_cons_ok] at h ⊢
    obtain ⟨u, hu, h⟩ := h
    simp only [pauseQueue, bind_ok, require_ok, pure_ok, Prod.exists, nextSequence_ok] at hu
    obtain ⟨_, hrevision, sequence, v, ⟨hroom, rfl, rfl⟩, rfl⟩ := hu
    refine ⟨{ s' with
      nextValue := s.nextValue + 1
      steeringLifecycleFacts := ⟨s.nextValue, queue.sessionId, queue.targetRunId,
        queue.revision + 1, reason, source, now⟩ :: s.steeringLifecycleFacts
      steeringQueues := Table.modify SteeringQueue.sessionId queue.sessionId
        (fun q => { q with paused := true, revision := queue.revision + 1 })
        s.steeringQueues }, ?_, ih (by rfl) (by rfl) (by rfl) h⟩
    simp only [pauseQueue, bind_ok, require_ok, pure_ok, Prod.exists, nextSequence_ok]
    refine ⟨(), hrevision, s.nextValue, _, ⟨hvalue ▸ hroom, hvalue.symm, rfl⟩, ?_⟩
    rw [hvalue, hqueues, hfacts]

end Morons
