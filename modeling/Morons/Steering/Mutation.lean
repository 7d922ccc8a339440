import Morons.Run.Acceptance

/-!
# Changing a steering queue

`mutateSteering` applies one change of the user to the queue of a session: it
resolves retries, checks that the session takes messages and that the queue is
at the revision the user saw, applies the change, advances the revision and
records a receipt.  The queue appears with the first message.
-/

namespace Morons

open Attempt

structure SteeringMutation where
  requestId : MutationRequestId
  sessionId : SessionId
  expectedRevision : Nat
  change : SteeringChange

structure SteeringReceipt where
  sequence : Nat
  queueRevision : Nat
  itemId : Option SteeringItemId
  itemRevision : Option Nat
  deriving DecidableEq

/-- What the change reads of the skills that come with its text. -/
structure SteeringSkills where
  invocationsMatch : Bool
  encodes : Bool

/-! ## Changes -/

namespace SteeringChange

def kind : SteeringChange → SteeringChangeKind
  | enqueue .. => .enqueue
  | edit .. => .edit
  | remove .. => .remove
  | pause => .pause
  | resume _ => .resume

/-- The column `target_run_id` of the receipt. -/
def target : SteeringChange → Option RunId
  | enqueue runId _ | resume runId => some runId
  | _ => none

def text : SteeringChange → Option String
  | enqueue _ text | edit _ _ text => some text
  | _ => none

end SteeringChange

def SteeringMutation.fingerprint (m : SteeringMutation) : Fingerprint :=
  .steering m.sessionId m.expectedRevision m.change

def SteeringMutationRequest.receipt (r : SteeringMutationRequest) : SteeringReceipt :=
  ⟨r.acceptedSequence, r.queueRevision, r.itemId, r.itemRevision⟩

/-! ## Checks -/

/-- The Unicode property White_Space. -/
def isWhiteSpace (c : Char) : Bool :=
  let n := c.toNat
  (decide (9 ≤ n) && decide (n ≤ 13)) || n = 0x20 || n = 0x85 || n = 0xA0 || n = 0x1680 ||
    (decide (0x2000 ≤ n) && decide (n ≤ 0x200A)) || n = 0x2028 || n = 0x2029 || n = 0x202F ||
    n = 0x205F || n = 0x3000

def isCommandText (text : String) : Bool :=
  match text.toList.dropWhile isWhiteSpace with
  | c :: _ => c = '!' || c = '/'
  | [] => false

def validateSteeringText (text : String) : Except PersistenceError Unit := do
  validateUserText text
  require (text.utf8ByteSize ≤ 65536 ∧ ¬ isCommandText text)
    (.invalidInput "steering requires bounded message text, not a command")

def validateSteeringSkills (mutation : SteeringMutation) :
    Option SteeringSkills → Except PersistenceError Unit
  | none => .ok ()
  | some skills => do
    require mutation.change.text.isSome
      (.invalidInput "only steering text mutations accept skills")
    require skills.invocationsMatch
      (.invalidInput "steering skills require explicit invocation")
    require skills.encodes (.invalidState "stored steering skill context is invalid")

/-- The run is accepted or active, was not cancelled and has no uncertain operation. -/
def targetAcceptsSteering (s : Store) (sessionId : SessionId) (runId : RunId) : Bool :=
  (loadScopedRun s sessionId runId).any (fun run =>
    !run.state.isTerminal && !run.cancellationRequested) &&
  !s.providerOperationFacts.any fun f => f.runId = runId && f.factKind = .uncertain

/-- The newest archive request of the session archives it. -/
def archiveRequested (s : Store) (sessionId : SessionId) : Bool :=
  (Ledger.latest SessionArchiveRequest.acceptedSequence
    (s.sessionArchiveRequests.filter fun r => r.sessionId = sessionId)).any (·.archived)

def loadSteeringQueue (s : Store) (sessionId : SessionId) : Option SteeringQueue :=
  Table.find SteeringQueue.sessionId sessionId s.steeringQueues

def loadSteeringRequest (s : Store) (requestId : MutationRequestId) :
    Option SteeringMutationRequest :=
  Table.find SteeringMutationRequest.requestId requestId s.steeringMutationRequests

def lookupSteeringMutation (s : Store) (mutation : SteeringMutation) :
    Except PersistenceError (Option SteeringReceipt) := do
  require (mutation.requestId ≠ 0)
    (.invalidInput "a steering mutation requires a nonzero request identifier")
  match loadMutationOperation s mutation.requestId, loadSteeringRequest s mutation.requestId with
  | some .steering, some stored => do
    require (stored.fingerprint = mutation.fingerprint) .requestConflict
    return some stored.receipt
  | none, none => return none
  | _, _ => .error .requestConflict

/-- No retry is found only when the identifier was never used. -/
theorem lookupSteeringMutation_none {s : Store} {mutation : SteeringMutation}
    (h : lookupSteeringMutation s mutation = .ok none) :
    loadMutationOperation s mutation.requestId = none := by
  simp only [lookupSteeringMutation, bind_ok] at h
  obtain ⟨_, -, h⟩ := h
  split at h
  · simp only [bind_ok, pure_ok, reduceCtorEq, and_false, exists_const] at h
  · assumption
  · cases h

/-! ## The change -/

/-- The least free slot of the sixteen. -/
def freeSlot (s : Store) (sessionId : SessionId) : Option Nat :=
  (List.range' 1 16).find? fun n =>
    !s.steeringPendingMessages.any fun p => p.sessionId = sessionId && p.slot = n

/-- The row of a queue that has no message yet. -/
def insertSteeringQueue (s : Store) (sessionId : SessionId) (runId : RunId) : Store :=
  if (loadSteeringQueue s sessionId).isSome then s
  else { s with steeringQueues := ⟨sessionId, runId, 1, true⟩ :: s.steeringQueues }

def updateSteeringQueue (s : Store) (sessionId : SessionId) (f : SteeringQueue → SteeringQueue) :
    Store :=
  { s with steeringQueues := Table.modify SteeringQueue.sessionId sessionId f s.steeringQueues }

/-- The item as the statement's WHERE clause names it. -/
def namesItem (sessionId : SessionId) (itemId : SteeringItemId) (revision : Nat)
    (p : SteeringPendingMessage) : Bool :=
  p.sessionId = sessionId && p.itemId = itemId && p.revision = revision

/-- The change itself, with the item it made or changed and the item's new revision. -/
def applySteeringChange (s : Store) (sessionId : SessionId) (sequence now : Nat) :
    SteeringChange → Except PersistenceError ((Option SteeringItemId × Option Nat) × Store)
  | .enqueue runId text => do
    let s := insertSteeringQueue s sessionId runId
    let slot ← demand (.invalidInput "the steering queue is full") (freeSlot s sessionId)
    let itemId := s.nextIdentifier
    let s := s.takeIdentifiers 1
    return ((some itemId, some 1), { s with
      steeringPendingMessages :=
        ⟨itemId, sessionId, slot, sequence, 1, text, now⟩ :: s.steeringPendingMessages })
  | .edit itemId revision text => do
    require (revision ≠ maxUnsigned) .requestConflict
    require (revision + 1 ≤ maxInteger)
      (.invalidState "a logical sequence exceeds SQLite's integer range")
    require (s.steeringPendingMessages.any (namesItem sessionId itemId revision)) .requestConflict
    return ((some itemId, some (revision + 1)), { s with
      steeringPendingMessages := s.steeringPendingMessages.map fun p =>
        if namesItem sessionId itemId revision p then
          { p with text := text, revision := revision + 1 } else p })
  | .remove itemId revision => do
    require (revision ≤ maxInteger)
      (.invalidState "a logical sequence exceeds SQLite's integer range")
    require (s.steeringPendingMessages.any (namesItem sessionId itemId revision)) .requestConflict
    return ((some itemId, some revision), { s with
      steeringPendingMessages :=
        s.steeringPendingMessages.filter fun p => !namesItem sessionId itemId revision p })
  | .pause =>
    return ((none, none), updateSteeringQueue s sessionId fun q => { q with paused := true })
  | .resume runId =>
    return ((none, none), updateSteeringQueue s sessionId fun q =>
      { q with paused := false, targetRunId := runId })

/-- A change touches the queues, the pending messages and an identifier. -/
theorem applySteeringChange_frame {s u : Store} {sessionId : SessionId} {sequence now : Nat}
    {change : SteeringChange} {item : Option SteeringItemId × Option Nat}
    (h : applySteeringChange s sessionId sequence now change = .ok (item, u)) :
    u = { s with
      nextIdentifier := u.nextIdentifier
      steeringQueues := u.steeringQueues
      steeringPendingMessages := u.steeringPendingMessages } ∧
      s.nextIdentifier ≤ u.nextIdentifier := by
  cases change with
  | enqueue runId text =>
    simp only [applySteeringChange, bind_ok, demand_ok, pure_ok, Prod.mk.injEq] at h
    obtain ⟨slot, -, -, rfl⟩ := h
    unfold insertSteeringQueue
    split
    · exact ⟨rfl, Nat.le_succ _⟩
    · exact ⟨rfl, Nat.le_succ _⟩
  | edit itemId revision text =>
    simp only [applySteeringChange, bind_ok, require_ok, pure_ok, Prod.mk.injEq] at h
    obtain ⟨_, -, _, -, _, -, -, rfl⟩ := h
    exact ⟨rfl, le_rfl⟩
  | remove itemId revision =>
    simp only [applySteeringChange, bind_ok, require_ok, pure_ok, Prod.mk.injEq] at h
    obtain ⟨_, -, _, -, -, rfl⟩ := h
    exact ⟨rfl, le_rfl⟩
  | pause =>
    simp only [applySteeringChange, pure_ok, Prod.mk.injEq] at h
    obtain ⟨-, rfl⟩ := h
    exact ⟨rfl, le_rfl⟩
  | resume runId =>
    simp only [applySteeringChange, pure_ok, Prod.mk.injEq] at h
    obtain ⟨-, rfl⟩ := h
    exact ⟨rfl, le_rfl⟩

/-- The receipt's row. -/
def SteeringMutation.request (m : SteeringMutation) (sequence now : Nat)
    (item : Option SteeringItemId × Option Nat) : SteeringMutationRequest where
  requestId := m.requestId
  sessionId := m.sessionId
  fingerprint := m.fingerprint
  acceptedSequence := sequence
  acceptedAtMilliseconds := now
  queueRevision := m.expectedRevision + 1
  itemId := item.1
  itemRevision := item.2
  changeKind := m.change.kind
  targetRunId := m.change.target
  text := m.change.text

/-- The rows next to the change: the queue's revision, the registry and the receipt. -/
def writeSteeringReceipt (s : Store) (mutation : SteeringMutation)
    (request : SteeringMutationRequest) : Store :=
  let s := updateSteeringQueue s mutation.sessionId fun q =>
    { q with revision := request.queueRevision }
  let s := insertMutationRequest s mutation.requestId .steering request.acceptedSequence
    request.acceptedAtMilliseconds
  { s with steeringMutationRequests := request :: s.steeringMutationRequests }

/-- What a fresh change is checked for. -/
def admitSteeringChange (s : Store) (mutation : SteeringMutation) : Except PersistenceError Unit := do
  let session ← demand .sessionNotFound (loadSession s mutation.sessionId)
  require (¬ session.archived) .sessionArchived
  require (¬ archiveRequested s mutation.sessionId) .sessionArchived
  let queue := loadSteeringQueue s mutation.sessionId
  require ((queue.map (·.revision)).getD 0 = mutation.expectedRevision) .requestConflict
  require (mutation.expectedRevision + 1 ≤ maxInteger)
    (.invalidState "a logical sequence exceeds SQLite's integer range")
  match mutation.change with
  | .enqueue runId _ => do
    require (targetAcceptsSteering s mutation.sessionId runId) .requestConflict
    require (queue.all fun q => q.targetRunId = runId) .requestConflict
  | .resume runId => require (targetAcceptsSteering s mutation.sessionId runId) .requestConflict
  | _ => return

def mutateSteering (env : Environment) (s : Store) (mutation : SteeringMutation)
    (skills : Option SteeringSkills) : Except PersistenceError (SteeringReceipt × Store) := do
  match ← lookupSteeringMutation s mutation with
  | some receipt => return (receipt, s)
  | none =>
    validateSteeringSkills mutation skills
    (match mutation.change.text with
      | some text => validateSteeringText text
      | none => .ok ())
    admitSteeringChange s mutation
    let (sequence, s) ← nextSequence s
    let (item, s) ← applySteeringChange s mutation.sessionId sequence env.now mutation.change
    require (loadSteeringQueue s mutation.sessionId).isSome .requestConflict
    let request := mutation.request sequence env.now item
    return (request.receipt, writeSteeringReceipt s mutation request)

end Morons
