import Mathlib.Data.Int.NatAbs
import Mathlib.Tactic.Common

/-!
# Identifiers, states and errors

The vocabulary of the persistence layer: identifiers, the states of a run,
the kinds of facts, events and audit records, and the errors an operation
returns.  Every enumeration carries the number that the database stores for
it (`toRecord`), since the startup checks compare these numbers.
-/

namespace Morons

/-! ## Identifiers -/

abbrev MutationRequestId := Nat
abbrev SessionId := Nat
abbrev RunId := Nat
abbrev MessageId := Nat
abbrev ProviderOperationId := Nat
abbrev ToolCallId := Nat
abbrev ToolOperationId := Nat
abbrev LocalCommandId := Nat
abbrev DeliveryEventId := Nat
abbrev ContextCheckpointId := Nat
abbrev SteeringItemId := Nat
abbrev CompactionOperationId := Nat

/-- An image is named after its message or call and its place there: its
identifier is random in the source, and never given twice. -/
abbrev ImageAttachmentId := Nat × Nat

/-- A SHA-256 digest. -/
abbrev Digest := Nat

/-! ## Limits -/

def maxTranscriptEntries : Nat := 100000
def maxRuns : Nat := 100000
def maxRunCancellationRequests : Nat := 200000
def maxSessions : Nat := 10000
def maxSessionDeletions : Nat := 100000
def maxDeletedMutationTombstones : Nat := 1000000
def maxTranscriptTextBytes : Nat := 128 * 1024
def maxUserMessageBytes : Nat := 64 * 1024
def maxModelIdBytes : Nat := 128
def maxContextEntries : Nat := 256
def maxBashCommandBytes : Nat := 64 * 1024
def contextItemOverheadTokens : Nat := 16
def contextRequestReserve : Nat := 8192
def contextPolicyVersion : Nat := 4

/-- The largest value of a database integer. -/
def maxInteger : Nat := 9223372036854775807

/-- The largest value of a 64-bit number of the program. -/
def maxUnsigned : Nat := 18446744073709551615

/-- The largest value of a 32-bit token count. -/
def maxTokens : Nat := 4294967295

/-! ## Runs -/

inductive RunState
  | accepted | active | succeeded | failed | cancelled | interrupted | uncertain
  deriving DecidableEq

namespace RunState

def toRecord : RunState → Nat
  | accepted => 1
  | active => 2
  | succeeded => 3
  | failed => 4
  | cancelled => 5
  | interrupted => 6
  | uncertain => 7

def isTerminal : RunState → Bool
  | accepted | active => false
  | succeeded | failed | cancelled | interrupted | uncertain => true

/-- Accepted, then active, then over. -/
def rank : RunState → Nat
  | accepted => 0
  | active => 1
  | succeeded | failed | cancelled | interrupted | uncertain => 2

theorem isTerminal_iff_rank (s : RunState) : s.isTerminal = true ↔ s.rank = 2 := by
  cases s <;> simp [isTerminal, rank]

theorem isTerminal_iff_record (s : RunState) :
    s.isTerminal = true ↔ 3 ≤ s.toRecord ∧ s.toRecord ≤ 7 := by
  cases s <;> simp [isTerminal, toRecord]

theorem rank_le (s : RunState) : s.rank ≤ 2 := by
  cases s <;> simp [rank]

end RunState

inductive RunFailureKind
  | credentialChanged | credentialNotConfigured | credentialReauthenticationRequired
  | authenticationOrEntitlement | dataUseRestricted | rateLimited | providerUnavailable
  | providerRejected | providerProtocol | invalidProviderOutput | toolExecution
  | resourceLimit | internal
  deriving DecidableEq

def RunFailureKind.toRecord : RunFailureKind → Nat
  | .credentialChanged => 1
  | .credentialNotConfigured => 2
  | .authenticationOrEntitlement => 3
  | .rateLimited => 4
  | .providerUnavailable => 5
  | .providerRejected => 6
  | .providerProtocol => 7
  | .invalidProviderOutput => 8
  | .resourceLimit => 9
  | .internal => 10
  | .toolExecution => 11
  | .dataUseRestricted => 12
  | .credentialReauthenticationRequired => 13

inductive RunService
  | zen | go | openAiChatGpt
  deriving DecidableEq

/-! ## Facts of provider operations and tool operations -/

inductive ProviderFactKind
  | prepared | dispatched | completed | failed | uncertain | abandoned
  deriving DecidableEq

namespace ProviderFactKind

def toRecord : ProviderFactKind → Nat
  | prepared => 1
  | dispatched => 2
  | completed => 3
  | failed => 4
  | uncertain => 5
  | abandoned => 6

/-- `fact_kind IN (3, 4, 5, 6)`. -/
def isTerminal : ProviderFactKind → Bool
  | prepared | dispatched => false
  | completed | failed | uncertain | abandoned => true

def rank : ProviderFactKind → Nat
  | prepared => 0
  | dispatched => 1
  | completed | failed | uncertain | abandoned => 2

end ProviderFactKind

inductive ToolFactKind
  | prepared | dispatched | completed | notDispatched | interrupted | uncertain
  deriving DecidableEq

namespace ToolFactKind

def toRecord : ToolFactKind → Nat
  | prepared => 1
  | dispatched => 2
  | completed => 3
  | notDispatched => 4
  | interrupted => 5
  | uncertain => 6

/-- `fact_kind BETWEEN 3 AND 6`. -/
def isTerminal : ToolFactKind → Bool
  | prepared | dispatched => false
  | completed | notDispatched | interrupted | uncertain => true

def rank : ToolFactKind → Nat
  | prepared => 0
  | dispatched => 1
  | completed | notDispatched | interrupted | uncertain => 2

end ToolFactKind

inductive ToolResultStatus
  | succeeded | failed | interrupted | uncertain
  deriving DecidableEq

def ToolResultStatus.toRecord : ToolResultStatus → Nat
  | .succeeded => 1
  | .failed => 2
  | .interrupted => 3
  | .uncertain => 4

/-! ## Local commands -/

inductive LocalCommandState
  | accepted | active | completed | interrupted | uncertain
  deriving DecidableEq

namespace LocalCommandState

def toRecord : LocalCommandState → Nat
  | accepted => 1
  | active => 2
  | completed => 3
  | interrupted => 4
  | uncertain => 5

/-- `state BETWEEN 3 AND 5`. -/
def isTerminal : LocalCommandState → Bool
  | accepted | active => false
  | completed | interrupted | uncertain => true

theorem isTerminal_iff_record (s : LocalCommandState) : s.isTerminal = true ↔ 3 ≤ s.toRecord := by
  cases s <;> simp [isTerminal, toRecord]

end LocalCommandState

/-! ## Events, audit records and mutations -/

inductive EventKind
  | sessionCreated | userMessage | runAccepted | runActive | cancellationRequested
  | assistantMessage | runSucceeded | runFailed | runCancelled | runInterrupted
  | workspaceChanged | toolCall | toolResult | runUncertain | toolUncertaintyChanged
  | localCommandChanged | localCommandEntry | sessionRenamed | sessionArchived | sessionDeleted
  deriving DecidableEq

def EventKind.toRecord : EventKind → Nat
  | .sessionCreated => 1
  | .userMessage => 2
  | .runAccepted => 3
  | .runActive => 4
  | .cancellationRequested => 5
  | .assistantMessage => 6
  | .runSucceeded => 7
  | .runFailed => 8
  | .runCancelled => 9
  | .runInterrupted => 10
  | .workspaceChanged => 11
  | .toolCall => 12
  | .toolResult => 13
  | .runUncertain => 14
  | .toolUncertaintyChanged => 15
  | .localCommandChanged => 16
  | .localCommandEntry => 17
  | .sessionRenamed => 18
  | .sessionArchived => 19
  | .sessionDeleted => 20

/-- Who an audit record names: the client (1) or the server (2). -/
inductive ActorKind
  | client | server
  deriving DecidableEq

inductive RunAuditKind
  | inputAccepted | runActive | providerPrepared | providerDispatched | providerCompleted
  | providerFailed | cancellationRequested | runSucceeded | runFailed | runStopped
  | cancellationObserved
  deriving DecidableEq

inductive ToolAuditKind
  | callCommitted | prepared | dispatched | completed | uncertain
  deriving DecidableEq

inductive LocalCommandAuditKind
  | accepted | active | completed | cancellationRequested
  deriving DecidableEq

inductive MutationOperation
  | sessionCreate | runInput | runCancel | localCommand | localCommandCancel
  | sessionRename | sessionArchive | sessionDelete | steering | other (record : Nat)
  deriving DecidableEq

inductive PauseReason
  | cancellation | terminal | archive | recovery
  deriving DecidableEq

/-- A change of a steering queue; `edit` and `remove` name the revision of the item they expect. -/
inductive SteeringChange
  | enqueue (runId : RunId) (text : String)
  | edit (itemId : SteeringItemId) (revision : Nat) (text : String)
  | remove (itemId : SteeringItemId) (revision : Nat)
  | pause
  | resume (runId : RunId)
  deriving DecidableEq

/-- The column `change_kind`. -/
inductive SteeringChangeKind
  | enqueue | edit | remove | pause | resume
  deriving DecidableEq

/-- The request fingerprints.  Each stands for the digest of a tagged
encoding of the values it carries; different tags or values give different
digests. -/
inductive Fingerprint
  | createSession (displayName workingDirectory : Option String)
  | submitSessionInput (session : SessionId) (text : String) (service : RunService)
      (modelId : String) (images : List Nat)
  | cancelRun (session : SessionId) (run : RunId)
  | renameSession (session : SessionId) (displayName : String)
  | archiveSession (session : SessionId) (archived : Bool)
  | deleteSession (session : SessionId)
  | localCommand (session : SessionId) (command : String) (contextVisible : Bool)
  | cancelLocalCommand (session : SessionId) (command : LocalCommandId)
  | steering (session : SessionId) (expectedRevision : Nat) (change : SteeringChange)
  deriving DecidableEq

/-! ## Errors -/

inductive PersistenceResourceLimit
  | sessions | runs | context | transcript | logicalSequence
  | credentialMutations | credentialGeneration
  deriving DecidableEq

inductive PersistenceError
  /-- A statement broke a constraint of the schema. -/
  | sqlite (constraint : String)
  | io
  | invalidInput (reason : String)
  | invalidState (reason : String)
  | requestConflict
  | sessionNotFound
  | sessionArchived
  | sessionNotArchived
  | runNotFound
  | localCommandNotFound
  | sessionBusy (activeRunId : RunId)
  | sessionCommandBusy (activeCommandId : LocalCommandId)
  | workingDirectoryUnavailable
  | credentialGenerationConflict
  | credentialNotConfigured
  | credentialMutationNotApplied
  | openAiCredentialNotConfigured
  | credentialReauthenticationRequired
  | dataUseRestricted
  | imageInputUnsupported
  | resourceLimit (resource : PersistenceResourceLimit)
  deriving DecidableEq

end Morons
