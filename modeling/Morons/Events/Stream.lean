import Morons.Events.Subscription
import Morons.Library.Transition

/-!
# Streaming the events of a session

One subscription of a session: the durable events, the transient channels with
what is still queued in them, the loop of the server and the client.  Events
are committed and published at any time; what the loop does next is up to it.
-/

namespace Morons.Events

open Transition

/-! ## Histories -/

def eventsUpTo (sequence : Nat) (history : List SessionEvent) : List SessionEvent :=
  history.filter fun e => decide (e.sequence ≤ sequence)

/-- The run of an event. -/
def SessionEvent.run (e : SessionEvent) : Option RunSummary :=
  match e.payload with
  | .runChanged run => some run
  | _ => none

/-- The run without a terminal state after one more event. -/
def opened (before : Option RunId) (e : SessionEvent) : Option RunId :=
  match e.run with
  | some run => if run.state.isTerminal then none else some run.id
  | none => before

/-- The run that the events leave without a terminal state. -/
def openRun (history : List SessionEvent) : Option RunId := history.foldl opened none

/-- The runs whose terminal event is among the events. -/
def endedRuns (history : List SessionEvent) : List RunId :=
  history.filterMap fun e => (e.run.filter (·.state.isTerminal)).map (·.id)

/-- An event that can be committed next: at most one run has no terminal state,
and a run that has one does not change any more. -/
def admits (sessionId : SessionId) (history : List SessionEvent) (e : SessionEvent) : Bool :=
  history.all (fun earlier => decide (earlier.sequence < e.sequence)) &&
    e.run.all fun run => decide (run.sessionId = sessionId) &&
      decide (run.id ∉ endedRuns history) && (openRun history).all fun r => decide (r = run.id)

/-- Every event of the history could be committed when it was. -/
def Sequential (sessionId : SessionId) (history : List SessionEvent) : Prop :=
  ∀ before e after, history = before ++ e :: after → admits sessionId before e = true

/-- The run that the next run event after the delivered ones is of. -/
def nextRun (delivered undelivered : List SessionEvent) : Option RunId :=
  (openRun delivered).or (undelivered.findSome? fun e => e.run.map (·.id))

/-! ## The loop -/

inductive Phase
  | reading | presenting | selecting | ended
  deriving DecidableEq

structure Streaming where
  history : List SessionEvent
  /-- The highest sequence of an event of the session. -/
  highWater : Nat
  /-- All deltas that were published, and those still in the queue of the subscription. -/
  published : List AssistantDelta
  deltas : List AssistantDelta
  /-- The run that compacts the session, in the watch channel. -/
  compaction : Option RunId
  /-- The runs with a diagnostic, and the diagnostics still in the queue. -/
  diagnosed : List RunId
  diagnostics : List NativeResponseDiagnostic
  server : SessionSubscription
  pendingDiagnostic : Option NativeResponseDiagnostic
  presentedCompaction : Option RunId
  phase : Phase
  client : ClientSubscription
  deriving DecidableEq

namespace Streaming

def delivered (s : Streaming) : List SessionEvent := eventsUpTo s.server.cursor.sequence s.history

def undelivered (s : Streaming) : List SessionEvent := eventsAfter s.server.cursor.sequence s.history

/-- The client takes what the server writes. -/
def write (s : Streaming) (event : ApplicationEvent) : Streaming :=
  { s with client := (s.client.validateEvent event).1 }

def deliver (s : Streaming) (event : DeliveredSessionEvent) : Streaming :=
  let s := { s with server := s.server.advance event }
  match event.event with
  | some e => s.write e
  | none => s

def read (s : Streaming) : Streaming :=
  match readSessionEvents s.history s.highWater s.server.sessionId s.server.cursor with
  | none => { s with phase := .ended }
  | some [] => { s with phase := .presenting }
  | some (event :: events) => (event :: events).foldl deliver s

def presentStopped (s : Streaming) (run : Option RunId) (active : Bool) : Streaming :=
  match run with
  | some run => s.write (.compactionActivity s.server.sessionId run active)
  | none => s

def presentCompaction (s : Streaming) : Streaming :=
  let compacting := s.compaction.filter s.server.acceptsCompaction
  if compacting = s.presentedCompaction then s
  else
    { (s.presentStopped (s.presentedCompaction.filter s.server.acceptsCompaction) false).presentStopped
        compacting true with
      presentedCompaction := compacting }

def presentDiagnostic (s : Streaming) : Streaming :=
  match s.pendingDiagnostic with
  | none => s
  | some diagnostic =>
    let s := { s with pendingDiagnostic := none }
    if s.server.acceptsNativeDiagnostic diagnostic then
      s.write (.nativeResponseDiagnostic diagnostic.sessionId diagnostic.runId)
    else s

def receiveDiagnostic (s : Streaming) : Streaming :=
  match s.diagnostics with
  | [] => s
  | diagnostic :: rest =>
    { s with
      diagnostics := rest
      pendingDiagnostic :=
        if diagnostic.sessionId = s.server.sessionId then some diagnostic else s.pendingDiagnostic
      phase := .reading }

def receiveDelta (s : Streaming) : Streaming :=
  match s.deltas with
  | [] => s
  | delta :: rest =>
    let (server, accepted) := s.server.acceptsDelta delta
    let s := { s with deltas := rest, server, phase := .reading }
    if accepted then
      s.write (.assistantDelta delta.sessionId delta.runId delta.sequence delta.delta delta.refusal)
    else s

/-! ## Steps -/

inductive Move
  | commit (e : SessionEvent)
  | publishDelta (delta : AssistantDelta)
  /-- The oldest deltas are dropped. -/
  | lag (dropped : Nat)
  | setCompaction (run : Option RunId)
  | publishDiagnostic (diagnostic : NativeResponseDiagnostic)
  | read
  | present
  /-- A notification, which has the loop read again. -/
  | wake
  | receiveDiagnostic
  | receiveDelta
  /-- The stream ends: the client leaves or diagnostics were lost. -/
  | leave

/-- What the publishers and the loop do.  The deltas of a run come in rising
order and while the run is active; a run has one diagnostic, published after
its terminal event. -/
def allows (s : Streaming) : Move → Bool
  | .commit e => decide (s.highWater < e.sequence) && admits s.server.sessionId s.history e
  | .publishDelta delta => decide (delta.sessionId ≠ s.server.sessionId) ||
      (decide (openRun s.history = some delta.runId) && decide (0 < delta.sequence) &&
        s.published.all fun p => decide (p.runId ≠ delta.runId) || decide (p.sequence < delta.sequence))
  | .publishDiagnostic diagnostic => decide (diagnostic.sessionId ≠ s.server.sessionId) ||
      (decide (diagnostic.runId ∈ endedRuns s.history) && decide (diagnostic.runId ∉ s.diagnosed))
  | .lag _ | .setCompaction _ | .leave => true
  | .read => s.phase = .reading
  | .present => s.phase = .presenting
  | .wake => s.phase = .presenting || s.phase = .selecting
  | .receiveDiagnostic | .receiveDelta => s.phase = .selecting

def move (s : Streaming) : Move → Streaming
  | .commit e => { s with history := s.history ++ [e], highWater := e.sequence }
  | .publishDelta delta =>
    { s with
      published := if delta.sessionId = s.server.sessionId then s.published ++ [delta] else s.published
      deltas := s.deltas ++ [delta] }
  | .lag dropped => { s with deltas := s.deltas.drop dropped }
  | .setCompaction run => { s with compaction := run }
  | .publishDiagnostic diagnostic =>
    { s with
      diagnosed := if diagnostic.sessionId = s.server.sessionId then diagnostic.runId :: s.diagnosed
        else s.diagnosed
      diagnostics := s.diagnostics ++ [diagnostic] }
  | .read => s.read
  | .present => { s.presentCompaction.presentDiagnostic with phase := .selecting }
  | .wake => { s with phase := .reading }
  | .receiveDiagnostic => s.receiveDiagnostic
  | .receiveDelta => s.receiveDelta
  | .leave => { s with phase := .ended }

/-- A subscription just made, whose channels have nothing for it yet. -/
structure Started (s : Streaming) : Prop where
  sequential : Sequential s.server.sessionId s.history
  events : ∀ e ∈ s.history, e.sequence ≤ s.highWater
  server : s.server = { sessionId := s.server.sessionId, cursor := s.server.cursor }
  cursor : s.server.cursor.sessionId = s.server.sessionId
  known : s.server.cursor.sequence ≤ s.highWater
  client : s.client = { sessionId := s.server.sessionId, cursor := s.server.cursor }
  deltas : s.deltas = []
  diagnostics : s.diagnostics = []
  pending : s.pendingDiagnostic = none
  presented : s.presentedCompaction = none
  phase : s.phase = .reading

def Step (s t : Streaming) : Prop := ∃ m, s.allows m = true ∧ t = s.move m

/-- A delta taken while the subscription knows no active run is of the run
that the durable events come to next. -/
def timely (s : Streaming) : Move → Bool
  | .receiveDelta => s.deltas.head?.all fun delta =>
      !(s.server.acceptsDelta delta).2 || s.server.activeRun.isSome ||
        decide (nextRun s.delivered s.undelivered = some delta.runId)
  | _ => true

def TimelyStep (s t : Streaming) : Prop := ∃ m, s.allows m = true ∧ s.timely m = true ∧ t = s.move m

end Streaming

end Morons.Events
