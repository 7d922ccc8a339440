import Morons.Cli.Transcript
import Morons.Events.Subscription
import Morons.Provider.Outcome

/-!
# The open session

What the client keeps of the session it shows: a window of transcript entries
with their bytes, the runs, the active run, and the preview of the answer that
is being written.  Events come from the subscription, and a lost connection
pauses the preview.
-/

namespace Morons.OpenSession

open Attempt Events Cli

def maxClientTranscriptEntries : Nat := 64 * 2
def maxClientRuns : Nat := 512
def maxTransientDeltaBytes : Nat := 128 * 1024
def entryEnvelopeBytes : Nat := 128

inductive UiStateError
  | resourceScopeMismatch | resourceLimitExceeded | invalidRunTransition
  deriving DecidableEq

/-! ## Entries -/

inductive TranscriptEntry
  | userMessage (id : MessageId) (runId : RunId) (text : String)
  | assistantMessage (id : MessageId) (runId : RunId) (text : String) (refusal : Bool)
  | toolCall (id : MessageId) (runId : RunId) (tool : ToolKind) (path : String)
  | toolResult (id : MessageId) (runId : RunId) (tool : ToolKind) (summary : String)
  | localCommand (id : MessageId) (commandId : LocalCommandId) (contextVisible : Bool)
      (command stdout stderr : String)
  deriving DecidableEq

namespace TranscriptEntry

def id : TranscriptEntry → MessageId
  | userMessage id .. | assistantMessage id .. | toolCall id .. | toolResult id ..
  | localCommand id .. => id

/-- `transcript_entry_run_id`. -/
def runId : TranscriptEntry → Option RunId
  | userMessage _ runId _ | assistantMessage _ runId .. | toolCall _ runId ..
  | toolResult _ runId .. => some runId
  | localCommand .. => none

def commandId : TranscriptEntry → Option LocalCommandId
  | localCommand _ commandId .. => some commandId
  | _ => none

/-- The run whose answer the entry is. -/
def answeredRun : TranscriptEntry → Option RunId
  | assistantMessage _ runId .. => some runId
  | _ => none

def role : TranscriptEntry → String
  | userMessage .. => "You"
  | assistantMessage .. => "Moron"
  | toolCall .. => "Tool call"
  | toolResult .. => "Tool result"
  | localCommand _ _ contextVisible .. => if contextVisible then "Command !" else "Command !!"

def refusal : TranscriptEntry → Bool
  | assistantMessage _ _ _ refusal => refusal
  | _ => false

end TranscriptEntry

def entrySourceBytes (entry : TranscriptEntry) : Option Nat := do
  let bytes ← match entry with
    | .userMessage _ _ text | .assistantMessage _ _ text _ => some text.utf8ByteSize
    | .toolCall _ _ _ path => Provider.checkedAdd path.utf8ByteSize entryEnvelopeBytes
    | .toolResult _ _ _ summary => Provider.checkedAdd summary.utf8ByteSize entryEnvelopeBytes
    | .localCommand _ _ _ command stdout stderr => do
      let bytes ← Provider.checkedAdd command.utf8ByteSize stdout.utf8ByteSize
      let bytes ← Provider.checkedAdd bytes stderr.utf8ByteSize
      Provider.checkedAdd bytes entryEnvelopeBytes
  if bytes ≤ maxSourceBytes then some bytes else none

def windowSourceBytes (entries : List TranscriptEntry) : Option Nat :=
  entries.foldlM (fun total entry => do
    let bytes ← Provider.checkedAdd total (← entrySourceBytes entry)
    if bytes ≤ maxSourceBytes then some bytes else none) 0

/-- How the client turns entries and previews into shown text. -/
structure Presenter where
  entryText : TranscriptEntry → Except TranscriptTextError TranscriptText
  fromMarkdown : String → Except TranscriptTextError TranscriptText

structure PresentedTranscriptEntry where
  id : MessageId
  runId : Option RunId
  commandId : Option LocalCommandId
  role : String
  text : TranscriptText
  refusal : Bool
  /-- The entry that is shown, whose bytes the window counts. -/
  source : TranscriptEntry
  deriving DecidableEq

/-- `PresentedTranscriptEntry::new`. -/
def Presenter.entry (p : Presenter) (entry : TranscriptEntry) :
    Except UiStateError PresentedTranscriptEntry := do
  let _ ← demand .resourceLimitExceeded (entrySourceBytes entry)
  let text ← (p.entryText entry).mapError fun _ => .resourceLimitExceeded
  return {
    id := entry.id
    runId := entry.runId
    commandId := entry.commandId
    role := entry.role
    text
    refusal := entry.refusal
    source := entry }

structure TransientAssistant where
  runId : RunId
  text : String := ""
  presented : TranscriptText := {}
  refusal : Bool
  truncated : Bool := false
  deriving DecidableEq

/-- A place in the transcript of a session. -/
structure TranscriptCursor where
  sessionId : SessionId
  sequence : Nat
  deriving DecidableEq

structure TranscriptWindowData where
  sessionId : SessionId
  entries : List TranscriptEntry
  runs : List RunSummary
  activeRunId : Option RunId
  activeCommandId : Option LocalCommandId
  olderCursor : Option TranscriptCursor
  newerCursor : Option TranscriptCursor

structure SessionView where
  sessionId : SessionId
  entries : List PresentedTranscriptEntry
  sourceBytes : Nat
  deltaSequence : Option (RunId × Nat)
  runs : List RunSummary
  compactingRun : Option RunId
  activeRunId : Option RunId
  activeCommandId : Option LocalCommandId
  olderCursor : Option TranscriptCursor
  newerCursor : Option TranscriptCursor
  deferredNewerOutput : Bool
  tailRefreshRequired : Bool
  transient : Option TransientAssistant
  deriving DecidableEq

def validRunTransition (previous next : RunState) : Bool :=
  match previous with
  | .accepted => true
  | .active => next ≠ .accepted
  | .succeeded => next = .succeeded
  | .failed => next = .failed
  | .cancelled => next = .cancelled
  | .interrupted => next = .interrupted
  | .uncertain => next = .uncertain

namespace SessionView

variable (p : Presenter)

def new (window : TranscriptWindowData) : Except UiStateError SessionView := do
  require (window.entries.length ≤ maxClientTranscriptEntries ∧
    window.runs.length ≤ maxClientRuns) .resourceLimitExceeded
  require (¬ (window.runs.any (fun run => run.sessionId ≠ window.sessionId) ||
    (window.olderCursor.toList ++ window.newerCursor.toList).any (fun cursor =>
      cursor.sessionId ≠ window.sessionId) ||
    window.entries.any (fun entry => entry.runId.any fun runId =>
      !window.runs.any fun run => run.id = runId) ||
    window.activeRunId.any (fun activeRunId =>
      !window.runs.any fun run => run.id = activeRunId && !run.state.isTerminal) ||
    (window.activeRunId.isSome && window.activeCommandId.isSome))) .resourceScopeMismatch
  let sourceBytes ← demand .resourceLimitExceeded (windowSourceBytes window.entries)
  let entries ← window.entries.mapM p.entry
  return {
    sessionId := window.sessionId
    entries
    sourceBytes
    deltaSequence := none
    runs := window.runs
    compactingRun := none
    activeRunId := window.activeRunId
    activeCommandId := window.activeCommandId
    olderCursor := window.olderCursor
    newerCursor := window.newerCursor
    deferredNewerOutput := false
    tailRefreshRequired := false
    transient := none }

def isHistoricalWindow (v : SessionView) : Bool := v.newerCursor.isSome || v.deferredNewerOutput

/-- The preview and the command that an entry stands for are over. -/
def settle (v : SessionView) (entry : TranscriptEntry) : SessionView :=
  { v with
    activeCommandId :=
      if entry.commandId.isSome ∧ v.activeCommandId = entry.commandId then none
      else v.activeCommandId
    transient :=
      if entry.answeredRun.isSome ∧ v.transient.map (·.runId) = entry.answeredRun then none
      else v.transient }

def deferTranscriptEntry (v : SessionView) (entry : TranscriptEntry) : SessionView :=
  { v.settle entry with deferredNewerOutput := true }

def appendTranscriptEntry (v : SessionView) (entry : TranscriptEntry) :
    Except UiStateError (Bool × SessionView) := do
  let bytes ← demand .resourceLimitExceeded (entrySourceBytes entry)
  if v.entries.any fun existing => existing.id = entry.id then return (false, v)
  else do
    let nextBytes ← demand .resourceLimitExceeded (Provider.checkedAdd v.sourceBytes bytes)
    if maxClientTranscriptEntries ≤ v.entries.length ∨ maxSourceBytes < nextBytes then
      return (true, { v.deferTranscriptEntry entry with tailRefreshRequired := true })
    else do
      let presented ← p.entry entry
      return (true,
        { v.settle entry with entries := v.entries ++ [presented], sourceBytes := nextBytes })

/-- The list of runs with the news of one of them. -/
def placeRun (v : SessionView) (run : RunSummary) : Except UiStateError SessionView :=
  match v.runs.find? fun existing => existing.id = run.id with
  | some existing => do
    require (validRunTransition existing.state run.state) .invalidRunTransition
    -- The ids are distinct, so only the run that was found is replaced.
    return { v with runs := Table.modify RunSummary.id run.id (fun _ => run) v.runs }
  | none => do
    require (v.runs.length < maxClientRuns) .resourceLimitExceeded
    return { v with runs := v.runs ++ [run] }

def applyRun (v : SessionView) (run : RunSummary) : Except UiStateError SessionView := do
  require (run.sessionId = v.sessionId) .resourceScopeMismatch
  let v ← v.placeRun run
  if run.state.isTerminal then
    return { v with
      deltaSequence := v.deltaSequence.filter fun (runId, _) => runId ≠ run.id
      activeRunId := v.activeRunId.filter fun runId => runId ≠ run.id
      transient := v.transient.filter fun transient => transient.runId ≠ run.id
      runs :=
        if v.isHistoricalWindow && !v.entries.any fun entry => entry.runId = some run.id then
          v.runs.filter fun existing => existing.id ≠ run.id
        else v.runs }
  else do
    require (v.activeRunId.all fun activeRun => activeRun = run.id) .invalidRunTransition
    return { v with activeRunId := some run.id }

def pausePreview (v : SessionView) : SessionView :=
  { v with
    deltaSequence := none
    transient := v.transient.map fun transient => { transient with truncated := true } }

/-- The preview with one delta more, as far as there is room. -/
def extendTransient (transient : TransientAssistant) (delta : String) :
    Except UiStateError TransientAssistant :=
  if transient.truncated then return transient
  else
    match Provider.checkedAdd transient.text.utf8ByteSize delta.utf8ByteSize with
    | none => return { transient with truncated := true }
    | some nextLength =>
      if maxTransientDeltaBytes < nextLength then return { transient with truncated := true }
      else do
        let presented ← (p.fromMarkdown (transient.text ++ delta)).mapError fun _ =>
          UiStateError.resourceLimitExceeded
        return { transient with text := transient.text ++ delta, presented }

def appendDelta (v : SessionView) (runId : RunId) (sequence : Nat) (delta : String)
    (refusal : Bool) : Except UiStateError SessionView := do
  require (v.activeRunId = some runId) .invalidRunTransition
  let previous := ((v.deltaSequence.filter fun (id, _) => id = runId).map (·.2)).getD 0
  require (previous < sequence) .invalidRunTransition
  let contiguous := decide (Provider.checkedAdd previous 1 = some sequence)
  let transient := v.transient.getD { runId, refusal }
  require (transient.runId = runId ∧ transient.refusal = refusal) .invalidRunTransition
  let transient ← extendTransient p
    { transient with truncated := transient.truncated || !contiguous } delta
  return { v with deltaSequence := some (runId, sequence), transient := some transient }

end SessionView

/-! ## Events -/

/-- What reaches the open session: the events of its subscription, and the loss
of the connection. -/
inductive ViewEvent
  | transcriptEntryCommitted (entry : TranscriptEntry)
  | runChanged (run : RunSummary)
  | localCommandChanged (commandId : LocalCommandId) (active : Bool)
  | compactionActivity (runId : RunId) (active : Bool)
  | assistantDelta (runId : RunId) (sequence : Nat) (delta : String) (refusal : Bool)
  | connectionLost
  deriving DecidableEq

/-- `apply_event` of an event of the open session. -/
def SessionView.applyEvent (p : Presenter) (v : SessionView) :
    ViewEvent → Except UiStateError SessionView
  | .transcriptEntryCommitted entry => do
    let _ ← demand .resourceLimitExceeded (entrySourceBytes entry)
    if v.isHistoricalWindow then return v.deferTranscriptEntry entry
    else do
      let (_, v) ← v.appendTranscriptEntry p entry
      return v
  | .runChanged run => do
    let historical := v.isHistoricalWindow
    let v ← v.applyRun run
    let v := { v with
      compactingRun := if v.compactingRun ≠ v.activeRunId then none else v.compactingRun }
    return if historical then { v with deferredNewerOutput := true } else v
  | .localCommandChanged commandId active =>
    return { v with activeCommandId := if active then some commandId else none }
  | .compactionActivity runId active =>
    return { v with
      compactingRun :=
        if active && v.activeRunId = some runId then some runId
        else if !active && v.compactingRun = some runId then none
        else v.compactingRun }
  | .assistantDelta runId sequence delta refusal =>
    if v.isHistoricalWindow then return { v with deferredNewerOutput := true }
    else v.appendDelta p runId sequence delta refusal
  | .connectionLost => return v.pausePreview

end Morons.OpenSession
