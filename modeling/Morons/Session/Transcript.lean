import Morons.Session.Events

/-!
# Windows of a transcript

The transcript of a session is listed in windows, towards older or newer
entries.  A window is cut from a snapshot: the entries up to a place that were
there at an event.  The cursors of a window carry its snapshot, so that the next
window is of the same transcript.
-/

namespace Morons.SessionEvents

open Attempt Ledger ContextHistory

/-! ## Cursors -/

structure TranscriptCursor where
  sessionId : SessionId
  snapshotEntrySequence : Nat
  snapshotEventSequence : Nat
  afterEntrySequence : Nat
  deriving DecidableEq

inductive TranscriptPageDirection
  | older | newer
  deriving DecidableEq

/-- The part of a transcript that is listed: what is up to a place at an event. -/
structure TranscriptSnapshot where
  entrySequence : Nat
  eventSequence : Nat
  deriving DecidableEq

namespace TranscriptPageDirection

/-- Whether a place is on the side of the boundary that is listed. -/
def beyond (boundary : Nat) : TranscriptPageDirection → Nat → Bool
  | older, place => decide (place < boundary)
  | newer, place => decide (boundary < place)

/-- `ORDER BY entry_sequence`, descending towards older entries. -/
def arrange {Row : Type} (place : Row → Nat) (rows : List Row) : TranscriptPageDirection → List Row
  | older => (ordered place rows).reverse
  | newer => ordered place rows

/-- Entries in the order of a window, oldest first. -/
def restore {Row : Type} (rows : List Row) : TranscriptPageDirection → List Row
  | older => rows.reverse
  | newer => rows

end TranscriptPageDirection

/-! ## Rows of a snapshot -/

/-- The highest place of an entry or of a finished command at an event. -/
def snapshotEntryHighWater (s : Store) (sessionId : SessionId) (eventSequence : Nat) : Nat :=
  max
    (greatest SessionEntry.entrySequence (s.sessionEntries.filter fun e =>
      e.sessionId = sessionId && decide (e.factSequence ≤ eventSequence)))
    (greatest (fun c : LocalCommand => c.entrySequence.getD 0) (s.localCommands.filter fun c =>
      c.sessionId = sessionId && decide (c.updatedSequence ≤ eventSequence) && c.state.isTerminal))

/-- An entry of the snapshot is of a run that was accepted after its event. -/
def cutsRunAcceptance (s : Store) (sessionId : SessionId) (snapshot : TranscriptSnapshot) : Bool :=
  s.sessionEntries.any fun e =>
    e.sessionId = sessionId && decide (e.entrySequence ≤ snapshot.entrySequence) &&
      s.runAcceptedFacts.any fun f =>
        f.runId = e.runId && decide (snapshot.eventSequence < f.factSequence)

def snapshotEntryRows (s : Store) (sessionId : SessionId) (snapshot : TranscriptSnapshot)
    (boundary : Nat) (direction : TranscriptPageDirection) : List SessionEntry :=
  s.sessionEntries.filter fun e =>
    e.sessionId = sessionId && direction.beyond boundary e.entrySequence &&
      decide (e.entrySequence ≤ snapshot.entrySequence) &&
      decide (e.factSequence ≤ snapshot.eventSequence)

def snapshotCommandRows (s : Store) (sessionId : SessionId) (snapshot : TranscriptSnapshot)
    (boundary : Nat) (direction : TranscriptPageDirection) : List LocalCommand :=
  s.localCommands.filter fun c =>
    c.sessionId = sessionId &&
      (c.entrySequence.any fun place =>
        direction.beyond boundary place && decide (place ≤ snapshot.entrySequence)) &&
      decide (c.updatedSequence ≤ snapshot.eventSequence) && c.state.isTerminal

def listLocalCommandEntriesWindow (s : Store) (sessionId : SessionId) (snapshot : TranscriptSnapshot)
    (boundary : Nat) (direction : TranscriptPageDirection) (limit : Nat) :
    Except PersistenceError (List TranscriptEntry) :=
  ((direction.arrange (fun c : LocalCommand => c.entrySequence.getD 0)
    (snapshotCommandRows s sessionId snapshot boundary direction)).take limit).mapM
      localCommandEntryFromRow

/-- The rows of a window with one more, in the order of the query. -/
def windowRows (s : Store) (sessionId : SessionId) (snapshot : TranscriptSnapshot) (boundary : Nat)
    (direction : TranscriptPageDirection) (limit : Nat) :
    Except PersistenceError (List TranscriptEntry) := do
  sequenceToSql boundary
  sequenceToSql snapshot.entrySequence
  sequenceToSql snapshot.eventSequence
  let entries ← ((direction.arrange SessionEntry.entrySequence
    (snapshotEntryRows s sessionId snapshot boundary direction)).take (limit + 1)).mapM
      (transcriptEntryFromRow s)
  let commands ← listLocalCommandEntriesWindow s sessionId snapshot boundary direction
    (min (limit + 1) (2 ^ 16 - 1))
  return (direction.arrange TranscriptEntry.entrySequence (entries ++ commands)).take (limit + 1)

/-! ## Windows -/

/-- What a window shows of its snapshot. -/
structure TranscriptWindow where
  workspace : WorkspaceSummary
  entries : List TranscriptEntry
  runs : List RunSnapshot
  activeRunId : Option RunId
  olderCursor : Option TranscriptCursor
  newerCursor : Option TranscriptCursor
  deriving DecidableEq

structure TranscriptWindowPage where
  session : Session
  window : TranscriptWindow
  activeCommandId : Option LocalCommandId
  eventCursor : SessionEventCursor
  deriving DecidableEq

/-- `TranscriptEntry::run_id`. -/
def runIdOf (entry : TranscriptEntry) : Option RunId :=
  match entry.body with
  | .userMessage runId .. | .assistantMessage runId .. | .toolCall runId .. | .toolResult runId .. =>
    some runId
  | .localCommand .. => none

/-- The runs of the entries, and the active run if it is none of them. -/
def windowRunIds (entries : List TranscriptEntry) (activeRunId : Option RunId) : List RunId :=
  let runIds := entries.filterMap runIdOf
  runIds ++ (activeRunId.filter fun runId => runId ∉ runIds).toList

def cursorAt (sessionId : SessionId) (snapshot : TranscriptSnapshot) (available : Bool)
    (entry : Option TranscriptEntry) : Option TranscriptCursor :=
  if available then
    entry.map fun e =>
      ⟨sessionId, snapshot.entrySequence, snapshot.eventSequence, e.entrySequence⟩
  else none

/-- The window of a snapshot behind a boundary. -/
def transcriptWindow (w : WorkspaceTables) (s : Store) (sessionId : SessionId)
    (snapshot : TranscriptSnapshot) (boundary : Nat) (continued : Bool)
    (direction : TranscriptPageDirection) (limit : Nat) :
    Except PersistenceError TranscriptWindow := do
  let found ← windowRows s sessionId snapshot boundary direction limit
  let hasMore := decide (limit < found.length)
  let entries ← (direction.restore (found.take limit)).mapM (attachImageMetadata s sessionId)
  let activeRunId ← activeRunIdAtSequence s sessionId snapshot.eventSequence
  let runs ← (windowRunIds entries activeRunId).mapM fun runId =>
    loadRunAtSequence s runId snapshot.eventSequence
  let workspace ← workspaceSummaryAtSequence w s sessionId snapshot.eventSequence
  return {
    workspace := workspace
    entries := entries
    runs := runs
    activeRunId := activeRunId
    olderCursor := cursorAt sessionId snapshot
      (match direction with | .older => hasMore | .newer => continued) entries.head?
    newerCursor := cursorAt sessionId snapshot
      (match direction with | .older => continued | .newer => hasMore) entries.getLast? }

/-- The snapshot and the boundary of a window, from its cursor or from the newest ones. -/
def windowPlace (entryHighWater eventHighWater : Nat) (direction : TranscriptPageDirection) :
    Option TranscriptCursor → TranscriptSnapshot × Nat
  | some c => (⟨c.snapshotEntrySequence, c.snapshotEventSequence⟩, c.afterEntrySequence)
  | none => (⟨entryHighWater, eventHighWater⟩,
      match direction with | .older => entryHighWater + 1 | .newer => 0)

def listSessionTranscriptWindow (w : WorkspaceTables) (s : Store) (sessionId : SessionId)
    (cursor : Option TranscriptCursor) (direction : TranscriptPageDirection) (limit : Nat) :
    Except PersistenceError TranscriptWindowPage := do
  let session ← demand .sessionNotFound (loadSession s sessionId)
  let state ← demand (.sqlite "no rows") (loadSessionRunState s sessionId)
  let eventHighWater := sessionEventHighWater s sessionId
  require (∀ c ∈ cursor, c.sessionId = sessionId)
    (.invalidInput "a transcript cursor belongs to another session")
  let (snapshot, boundary) := windowPlace state.entryHighWater eventHighWater direction cursor
  require (snapshot.entrySequence ≤ state.entryHighWater ∧ snapshot.eventSequence ≤ eventHighWater ∧
      boundary ≤ snapshot.entrySequence + 1)
    (.invalidInput "a transcript cursor is outside the available snapshot")
  sequenceToSql snapshot.eventSequence
  require (snapshotEntryHighWater s sessionId snapshot.eventSequence = snapshot.entrySequence)
    (.invalidInput "a transcript cursor has inconsistent snapshot high waters")
  sequenceToSql snapshot.entrySequence
  require (cutsRunAcceptance s sessionId snapshot = false)
    (.invalidInput "a transcript cursor cuts an atomic run acceptance")
  let window ← transcriptWindow w s sessionId snapshot boundary cursor.isSome direction limit
  return {
    session := session
    window := window
    activeCommandId := activeLocalCommand s sessionId
    eventCursor := ⟨sessionId, snapshot.eventSequence⟩ }

end Morons.SessionEvents
