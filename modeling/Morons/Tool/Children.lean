import Morons.Library.BigEndian
import Morons.Operation
import Morons.Provider.Outcome
import Morons.Run.Compaction

/-!
# Child journals

The journal that every child of a task call has: entries that name the digest of
the entry before them, and the row of the child, which says how it ended.
-/

namespace Morons

open Attempt

def maxChildEntryBytes : Nat := 16 * 1024 * 1024

inductive ChildEntryKind
  | start | providerDispatch | providerResult | toolDispatch | toolResult | batch | checkpoint
  | terminal | interrupted
  deriving DecidableEq

namespace ChildEntryKind

def toRecord : ChildEntryKind → Nat
  | start => 1
  | providerDispatch => 2
  | providerResult => 3
  | toolDispatch => 4
  | toolResult => 5
  | batch => 6
  | checkpoint => 7
  | terminal => 8
  | interrupted => 9

end ChildEntryKind

/-- The bytes of a digest. -/
abbrev ChildDigest := List UInt8

def zeroDigest : ChildDigest := List.replicate 32 0

structure ChildRun where
  callId : ToolCallId
  child : Nat
  state : Nat
  deriving DecidableEq

def ChildRun.key (run : ChildRun) : ToolCallId × Nat := (run.callId, run.child)

structure ChildEntry where
  callId : ToolCallId
  child : Nat
  ordinal : Nat
  kind : Nat
  payload : List UInt8
  previousDigest : ChildDigest
  digest : ChildDigest
  deriving DecidableEq

def ChildEntry.key (entry : ChildEntry) : ToolCallId × Nat := (entry.callId, entry.child)

structure TaskModelBinding where
  callId : ToolCallId
  runId : RunId
  deriving DecidableEq

/-- The tables of the children next to those of the store, the newest row first. -/
structure ChildStore where
  store : Store
  taskModelBindings : List TaskModelBinding
  childRuns : List ChildRun
  childJournal : List ChildEntry

def childJournalInvalid : PersistenceError :=
  .invalidState "child journal integrity or lifecycle is invalid; nothing was retried"

def validTransition (previous next : Nat) : Bool :=
  (previous, next) = (0, 1) ||
  ((1 ≤ previous && previous ≤ 7) && (next = 8 || next = 9)) ||
  ((previous = 1 || previous = 3 || previous = 6 || previous = 7) && next = 2) ||
  (previous, next) = (2, 3) ||
  ((previous = 3 || previous = 5) && next = 4) ||
  (previous, next) = (4, 5) ||
  (previous, next) = (5, 6) ||
  (previous, next) = (3, 7)

/-- The digest of an entry, with the hash function that is used. -/
def entryDigest (sha256 : List UInt8 → ChildDigest) (callId : ToolCallId) (child ordinal kind : Nat)
    (payload : List UInt8) (previous : ChildDigest) : ChildDigest :=
  sha256 (Provider.bytesOf "morons.dev/child-journal/v1\x00" ++ BigEndian.bytes 16 callId ++
    BigEndian.bytes 2 child ++ BigEndian.bytes 8 ordinal ++ BigEndian.bytes 8 kind ++ previous ++
    payload)

namespace ChildStore

variable (sha256 : List UInt8 → ChildDigest)

/-- The rows of one child, the newest first. -/
def entries (s : ChildStore) (callId : ToolCallId) (child : Nat) : List ChildEntry :=
  s.childJournal.filter fun entry => entry.key = (callId, child)

/-- The run of the task call is active and the call has no result yet. -/
def startable (s : ChildStore) (callId : ToolCallId) : Bool :=
  s.taskModelBindings.any fun binding => binding.callId = callId &&
    (s.store.runs.any fun run => run.id = binding.runId && run.state = .active) &&
    !toolTerminal s.store callId

/-- The child row for an entry: a new one for the first, an open one otherwise. -/
def admitEntry (s : ChildStore) (callId : ToolCallId) (child : Nat) (kind : ChildEntryKind) :
    Except PersistenceError ChildStore :=
  if kind = .start then do
    require (s.startable callId) childJournalInvalid
    require ((Table.find ChildRun.key (callId, child) s.childRuns).isNone)
      (.sqlite "UNIQUE constraint failed: child_runs.call_id, child_runs.child")
    return { s with childRuns := ⟨callId, child, 1⟩ :: s.childRuns }
  else do
    let run ← demand (.sqlite "Query returned no rows")
      (Table.find ChildRun.key (callId, child) s.childRuns)
    require (run.state = 1) childJournalInvalid
    return s

/-- What the last kind of an entry makes of the row of its child. -/
def closeChild (s : ChildStore) (callId : ToolCallId) (child : Nat) (kind : ChildEntryKind) :
    ChildStore :=
  if kind = .terminal ∨ kind = .interrupted then
    { s with
      childRuns := Table.modify ChildRun.key (callId, child)
        (fun run => { run with state := if kind = .terminal then 2 else 3 }) s.childRuns }
  else s

/-- One entry more, as a transaction. -/
def appended (s : ChildStore) (callId : ToolCallId) (child ordinal : Nat) (kind : ChildEntryKind)
    (payload : List UInt8) (previous : ChildDigest) :
    Except PersistenceError (ChildDigest × ChildStore) := do
  require (1 ≤ child ∧ child ≤ 3 ∧ payload ≠ [] ∧ payload.length ≤ maxChildEntryBytes)
    childJournalInvalid
  let head := Ledger.latest ChildEntry.ordinal (s.entries callId child)
  let (last, lastKind, digest) :=
    (head.map fun entry => (entry.ordinal, entry.kind, entry.digest)).getD (0, 0, zeroDigest)
  sequenceToSql ordinal
  require (last + 1 = ordinal ∧ previous = digest ∧ validTransition lastKind kind.toRecord = true)
    childJournalInvalid
  let s ← s.admitEntry callId child kind
  let digest := entryDigest sha256 callId child ordinal kind.toRecord payload previous
  let entry : ChildEntry :=
    { callId, child, ordinal, kind := kind.toRecord, payload, previousDigest := previous, digest }
  return (digest, closeChild { s with childJournal := entry :: s.childJournal } callId child kind)

/-- `append_child_entry`. -/
def appendChildEntry (s : ChildStore) (callId : ToolCallId) (child ordinal : Nat)
    (kind : ChildEntryKind) (payload : List UInt8) (previous : ChildDigest) :
    Except PersistenceError ChildDigest × ChildStore :=
  transact s (s.appended sha256 callId child ordinal kind payload previous)

/-! ## Recovery -/

/-- The rows of a journal in order, checked against the ones before them. -/
def checkJournal (callId : ToolCallId) (child : Nat) :
    Nat → ChildDigest → Nat → List ChildEntry → Except PersistenceError (Nat × ChildDigest × Nat)
  | ordinal, previous, lastKind, [] => .ok (ordinal, previous, lastKind)
  | ordinal, previous, lastKind, entry :: rest => do
    require (ordinal + 1 = entry.ordinal ∧ previous = entry.previousDigest ∧
      validTransition lastKind entry.kind = true ∧ entry.payload ≠ [] ∧
      entry.payload.length ≤ maxChildEntryBytes ∧
      entryDigest sha256 callId child entry.ordinal entry.kind entry.payload entry.previousDigest =
        entry.digest) childJournalInvalid
    checkJournal callId child entry.ordinal entry.digest entry.kind rest

def impliedState (lastKind : Nat) : Nat :=
  match lastKind with
  | 8 => 2
  | 9 => 3
  | _ => 1

def interruption : List UInt8 :=
  Provider.bytesOf "Interrupted on server recovery; effects may remain; nothing was retried"

/-- The recovery of one child. -/
def recoverChild (s : ChildStore) (run : ChildRun) : Except PersistenceError Unit × ChildStore :=
  let journal := Ledger.ordered ChildEntry.ordinal (s.entries run.callId run.child)
  let check := do
    let (ordinal, previous, lastKind) ←
      checkJournal sha256 run.callId run.child 0 zeroDigest 0 journal
    require (ordinal ≠ 0 ∧ run.state = impliedState lastKind) childJournalInvalid
    let next ← demand childJournalInvalid (Provider.checkedAdd ordinal 1)
    return (next, previous)
  match check with
  | .error error => (.error error, s)
  | .ok (next, previous) =>
    if run.state = 1 then
      let (result, s) := s.appendChildEntry sha256 run.callId run.child next .interrupted
        interruption previous
      (result.map fun _ => (), s)
    else (.ok (), s)

/-- The children one after the other.  What was appended before a failure stays. -/
def recoverChildren : ChildStore → List ChildRun → Except PersistenceError Unit × ChildStore
  | s, [] => (.ok (), s)
  | s, run :: rest =>
    match s.recoverChild sha256 run with
    | (.ok (), s) => recoverChildren s rest
    | (.error error, s) => (.error error, s)

/-- `recover_child_journals`, which takes the children in the order of their keys. -/
def recoverChildJournals (s : ChildStore) : Except PersistenceError Unit × ChildStore :=
  s.recoverChildren sha256 (s.childRuns.insertionSort fun a b =>
    a.callId < b.callId ∨ (a.callId = b.callId ∧ a.child ≤ b.child))

/-- A run that was accepted in a session. -/
def runOfSession (s : ChildStore) (sessionId : SessionId) (runId : RunId) : Bool :=
  s.store.runAcceptedFacts.any fun fact => fact.runId = runId && fact.sessionId = sessionId

/-- A task call that is bound to a run of a session. -/
def ofSession (s : ChildStore) (sessionId : SessionId) (callId : ToolCallId) : Bool :=
  s.taskModelBindings.any fun binding =>
    binding.callId = callId && s.runOfSession sessionId binding.runId

/-- The rows that stay when a session is deleted. -/
def withoutSession (s : ChildStore) (sessionId : SessionId) : ChildStore :=
  { s with
    taskModelBindings := s.taskModelBindings.filter fun binding =>
      !s.runOfSession sessionId binding.runId
    childRuns := s.childRuns.filter fun run => !s.ofSession sessionId run.callId
    childJournal := s.childJournal.filter fun entry => !s.ofSession sessionId entry.callId }

end ChildStore

/-! ## Runs of the system -/

/-- What happens to the tables: entries are appended, the store goes on, task
calls are bound, a session is deleted with its rows, and the server restarts. -/
inductive ChildStep (sha256 : List UInt8 → ChildDigest) (s : ChildStore) : ChildStore → Prop
  | append (callId : ToolCallId) (child ordinal : Nat) (kind : ChildEntryKind)
      (payload : List UInt8) (previous : ChildDigest) :
      ChildStep sha256 s
        (s.appendChildEntry sha256 callId child ordinal kind payload previous).2
  | operate {env : Environment} {op : Operation} {store : Store} (hop : op.isDeletion = false)
      (h : execute env s.store op = .ok store) : ChildStep sha256 s { s with store }
  | bind (binding : TaskModelBinding) :
      ChildStep sha256 s { s with taskModelBindings := binding :: s.taskModelBindings }
  | delete {env : Environment} {op : Operation} {store : Store} (sessionId : SessionId)
      (hop : op.isDeletion = true) (h : execute env s.store op = .ok store) :
      ChildStep sha256 s { s.withoutSession sessionId with store }
  | restart : ChildStep sha256 s (s.recoverChildJournals sha256).2

/-- The states that a run reaches from the empty tables. -/
def ChildReachable (sha256 : List UInt8 → ChildDigest) : ChildStore → Prop :=
  Transition.Reachable (· = ⟨Store.empty, [], [], []⟩) (ChildStep sha256)

end Morons
