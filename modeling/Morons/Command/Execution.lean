import Morons.Records

/-!
# Local commands

A local command is accepted, activated and completed in one row that is
updated in place; its completion takes the next place in the transcript.
A repeated request identifier returns the recorded outcome.
-/

namespace Morons

open Attempt

structure AcceptedLocalCommand where
  id : LocalCommandId
  sessionId : SessionId
  command : String
  contextVisible : Bool
  newlyAccepted : Bool
  deriving DecidableEq

structure LocalCommandCancellationResult where
  commandId : LocalCommandId
  cancellationRequested : Bool
  intentApplied : Bool
  deriving DecidableEq

/-! ## Rows -/

def loadLocalCommandByRequest (s : Store) (requestId : MutationRequestId) : Option LocalCommand :=
  Table.find LocalCommand.requestId requestId s.localCommands

def loadLocalCommand (s : Store) (commandId : LocalCommandId) : Option LocalCommand :=
  Table.find LocalCommand.commandId commandId s.localCommands

/-- Rewrite a row; the schema refuses an update time before the acceptance. -/
def updateLocalCommand (s : Store) (row : LocalCommand) (now : Nat)
    (f : LocalCommand → LocalCommand) : Except PersistenceError Store := do
  require (row.acceptedAtMilliseconds ≤ now)
    (.sqlite "CHECK local_commands.updated_at_milliseconds")
  return { s with
    localCommands := Table.modify LocalCommand.commandId row.commandId f s.localCommands }

def insertLocalCommandAudit (s : Store) (auditSequence : Nat) (commandId : LocalCommandId)
    (requestId : Option MutationRequestId) (sessionId : SessionId)
    (auditKind : LocalCommandAuditKind) (now : Nat) : Store :=
  { s with
    localCommandAuditFacts :=
      ⟨auditSequence, commandId, requestId, sessionId, auditKind, now⟩ ::
        s.localCommandAuditFacts }

/-! ## Acceptance -/

/-- Checked before the command is handed to the worker. -/
def validateLocalCommand (command : String) : Except PersistenceError Unit := do
  require (¬ command.isEmpty ∧ command.utf8ByteSize ≤ maxBashCommandBytes ∧
      command.toList.all fun c => c.toNat ≠ 0)
    (.invalidInput "a local command must be nonempty and within the command limit")
  require (command.utf8ByteSize ≤ maxTranscriptTextBytes) (.resourceLimit .transcript)

def findLocalCommandRetry (s : Store) (requestId : MutationRequestId) (fingerprint : Fingerprint)
    (sessionId : SessionId) (command : String) (contextVisible : Bool) :
    Except PersistenceError (Option AcceptedLocalCommand) :=
  match loadLocalCommandByRequest s requestId, loadMutationOperation s requestId with
  | some existing, some .localCommand =>
    if existing.sessionId = sessionId ∧ existing.commandText = command ∧
        existing.contextVisible = contextVisible ∧
        fingerprint = .localCommand sessionId command contextVisible then
      .ok (some
        ⟨existing.commandId, existing.sessionId, existing.commandText, existing.contextVisible,
          false⟩)
    else .error .requestConflict
  | some _, _ | none, some _ => .error .requestConflict
  | none, none => .ok none

/-- The rows of an accepted command, once its numbers are drawn. -/
def writeLocalCommand (s : Store) (requestId : MutationRequestId) (fingerprint : Fingerprint)
    (sessionId : SessionId) (command : String) (contextVisible : Bool)
    (commandId : LocalCommandId) (acceptedEventId : DeliveryEventId)
    (sequence auditSequence now : Nat) : Store :=
  let s := insertMutationRequest s requestId .localCommand sequence now
  let s := { s with
    localCommands :=
      { commandId := commandId
        requestId := requestId
        fingerprint := fingerprint
        sessionId := sessionId
        commandText := command
        contextVisible := contextVisible
        state := .accepted
        cancellationRequested := false
        result := none
        entrySequence := none
        messageId := none
        acceptedSequence := sequence
        updatedSequence := sequence
        acceptedAtMilliseconds := now
        updatedAtMilliseconds := now
        acceptedEventId := acceptedEventId
        deliveryEventId := none } :: s.localCommands }
  let s := updateSession s sessionId fun r => { r with updatedSequence := sequence }
  let s := updateSessionRunState s sessionId fun r => { r with updatedSequence := sequence }
  let s := insertDeliveryEvent s acceptedEventId sequence sessionId .localCommandChanged now
  insertLocalCommandAudit s auditSequence commandId (some requestId) sessionId .accepted now

def acceptNewCommand (env : Environment) (s : Store) (requestId : MutationRequestId)
    (fingerprint : Fingerprint) (sessionId : SessionId) (command : String)
    (contextVisible : Bool) : Except PersistenceError (AcceptedLocalCommand × Store) := do
  let session ← demand .sessionNotFound (loadSession s sessionId)
  require (¬ (session.archived ∨ archivePending s sessionId)) .sessionArchived
  require (session.workingDirectory.any env.isDirectory) .workingDirectoryUnavailable
  let state ← demand (.sqlite "no rows") (loadSessionRunState s sessionId)
  refuse (state.activeRunId.map .sessionBusy)
  refuse ((activeLocalCommand s sessionId).map .sessionCommandBusy)
  require (fingerprint = .localCommand sessionId command contextVisible)
    (.invalidInput "a local command fingerprint is invalid")
  let commandId := s.nextIdentifier
  let acceptedEventId := s.nextIdentifier + 1
  let (sequence, s) ← nextSequence (s.takeIdentifiers 2)
  let (auditSequence, s) ← nextSequence s
  require (1 ≤ command.utf8ByteSize ∧ command.utf8ByteSize ≤ maxBashCommandBytes)
    (.sqlite "CHECK local_commands.command_text")
  return (⟨commandId, sessionId, command, contextVisible, true⟩,
    writeLocalCommand s requestId fingerprint sessionId command contextVisible commandId
      acceptedEventId sequence auditSequence env.now)

def acceptLocalCommand (env : Environment) (s : Store) (requestId : MutationRequestId)
    (fingerprint : Fingerprint) (sessionId : SessionId) (command : String)
    (contextVisible : Bool) : Except PersistenceError (AcceptedLocalCommand × Store) := do
  match ← findLocalCommandRetry s requestId fingerprint sessionId command contextVisible with
  | some existing => return (existing, s)
  | none => acceptNewCommand env s requestId fingerprint sessionId command contextVisible

/-! ## Activation -/

/-- Whether the command is to be run. -/
def activateLocalCommand (env : Environment) (s : Store) (commandId : LocalCommandId) :
    Except PersistenceError (Bool × Store) := do
  let row ← demand (.invalidState "an accepted local command is missing")
    (loadLocalCommand s commandId)
  if row.state.isTerminal ∨ row.cancellationRequested then
    return (false, s)
  require (row.state = .accepted)
    (.invalidState "a local command has an invalid activation state")
  let (sequence, s) ← nextSequence s
  let (auditSequence, s) ← nextSequence s
  -- The session's own update positions stay where they are.
  let s ← updateLocalCommand s row env.now fun r => { r with
    state := .active
    updatedSequence := sequence
    updatedAtMilliseconds := env.now }
  return (true,
    insertLocalCommandAudit s auditSequence commandId none row.sessionId .active env.now)

/-! ## Completion -/

def terminalCommandState (result : ToolResult) : LocalCommandState :=
  match result.errorKind with
  | some .uncertain => .uncertain
  | some .notDispatched | some .interrupted | some .cancelled | some .outputLimit
  | some .timedOut | some .inactivityTimeout => .interrupted
  | some _ | none => .completed

def completeLocalCommand (env : Environment) (s : Store) (commandId : LocalCommandId)
    (result : ToolResult) : Except PersistenceError Store := do
  require (validateCanonicalBashResult result)
    (.invalidInput "a local command result is invalid")
  let row ← demand (.invalidState "a local command completion is missing its accepted command")
    (loadLocalCommand s commandId)
  require (row.state = .accepted ∨ row.state = .active)
    (.invalidState "a local command is already terminal")
  require (result.payloadBytes ≤ maxToolPayloadBytes) (.resourceLimit .transcript)
  let messageId := s.nextIdentifier
  let eventId := s.nextIdentifier + 1
  let s := s.takeIdentifiers 2
  let state ← demand (.sqlite "no rows") (loadSessionRunState s row.sessionId)
  require (state.entryHighWater + 1 ≤ maxTranscriptEntries) (.resourceLimit .transcript)
  let (sequence, s) ← nextSequence s
  let (auditSequence, s) ← nextSequence s
  let s ← updateLocalCommand s row env.now fun r => { r with
    state := terminalCommandState result
    result := some result
    entrySequence := some (state.entryHighWater + 1)
    messageId := some messageId
    updatedSequence := sequence
    updatedAtMilliseconds := env.now
    deliveryEventId := some eventId }
  let s := updateSessionRunState s row.sessionId fun r => { r with
    entryHighWater := state.entryHighWater + 1
    updatedSequence := sequence }
  let s := updateSession s row.sessionId fun r => { r with updatedSequence := sequence }
  let s := insertDeliveryEvent s eventId sequence row.sessionId .localCommandEntry env.now
  return insertLocalCommandAudit s auditSequence commandId none row.sessionId .completed env.now

/-! ## Cancellation -/

def cancelNewCommand (env : Environment) (s : Store) (requestId : MutationRequestId)
    (fingerprint : Fingerprint) (sessionId : SessionId) (commandId : LocalCommandId) :
    Except PersistenceError (LocalCommandCancellationResult × Store) := do
  require (loadMutationOperation s requestId = none ∧
    fingerprint = .cancelLocalCommand sessionId commandId) .requestConflict
  let row ← demand .localCommandNotFound (loadLocalCommand s commandId)
  require (row.sessionId = sessionId) .localCommandNotFound
  let applied := !row.state.isTerminal && !row.cancellationRequested
  let (sequence, s) ← nextSequence s
  let (auditSequence, s) ← nextSequence s
  let s := insertMutationRequest s requestId .localCommandCancel sequence env.now
  let s := { s with
    localCommandCancellations :=
      ⟨requestId, fingerprint, sessionId, commandId, applied, sequence, env.now⟩ ::
        s.localCommandCancellations }
  let s ← (if applied then
    updateLocalCommand s row env.now fun r => { r with
      cancellationRequested := true
      updatedSequence := sequence
      updatedAtMilliseconds := env.now }
    else .ok s)
  return (⟨commandId, applied || row.cancellationRequested, applied⟩,
    insertLocalCommandAudit s auditSequence commandId (some requestId) sessionId
      .cancellationRequested env.now)

def cancelLocalCommand (env : Environment) (s : Store) (requestId : MutationRequestId)
    (fingerprint : Fingerprint) (sessionId : SessionId) (commandId : LocalCommandId) :
    Except PersistenceError (LocalCommandCancellationResult × Store) :=
  match Table.find LocalCommandCancellation.requestId requestId s.localCommandCancellations with
  | some stored => do
    require (stored.fingerprint = fingerprint ∧ stored.sessionId = sessionId ∧
      stored.commandId = commandId) .requestConflict
    return (⟨commandId, stored.intentApplied, false⟩, s)
  | none => cancelNewCommand env s requestId fingerprint sessionId commandId

/-! ## Recovery at startup -/

/-- The commands a restart finds unfinished, in order of acceptance. -/
def unfinishedCommands (s : Store) : List (LocalCommandId × LocalCommandState) :=
  ((s.localCommands.filter fun c => !c.state.isTerminal).mergeSort
    fun a b => decide (a.acceptedSequence ≤ b.acceptedSequence)).map
      fun c => (c.commandId, c.state)

def recoverLocalCommand (env : Environment) (s : Store)
    (command : LocalCommandId × LocalCommandState) : Except PersistenceError Store :=
  completeLocalCommand env s command.1
    (.error (if command.2 = .active then .uncertain else .notDispatched) none)

/-- Each command is completed in the surroundings that recovery then finds. -/
def recoverLocalCommands (during : LocalCommandId → Environment) (s : Store) :
    Except PersistenceError Store :=
  sweep (fun s command => recoverLocalCommand (during command.1) s command) s
    (unfinishedCommands s)

end Morons
