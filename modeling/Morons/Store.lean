import Morons.Tools

/-!
# The store

One structure for the durable database, with a list of rows for each table.
Rows are put at the head of their table, so that a table that is only ever
appended to lists its newest row first.

Left out are columns that no modelled operation and no startup check reads
(the identifiers of facts and audit records) and the tables of the subsystems
that are not modelled; what an operation reads of those is part of its
`Environment`.  `nextIdentifier` stands for the source of random identifiers:
it never gives the same identifier twice.
-/

namespace Morons

/-! ## Sessions and mutations -/

structure MutationRequest where
  requestId : MutationRequestId
  operation : MutationOperation
  acceptedSequence : Nat
  acceptedAtMilliseconds : Nat
  deriving DecidableEq

structure DeletedMutationTombstone where
  requestId : MutationRequestId
  deleteRequestId : MutationRequestId
  operation : MutationOperation
  acceptedSequence : Nat
  acceptedAtMilliseconds : Nat
  deriving DecidableEq

inductive CreationState
  | prepared | workspaceDispatched | ready
  deriving DecidableEq

structure SessionCreationRequest where
  requestId : MutationRequestId
  fingerprint : Fingerprint
  sessionId : SessionId
  workspaceId : Nat
  displayName : Option String
  workingDirectory : Option String
  acceptedSequence : Nat
  acceptedAtMilliseconds : Nat
  state : CreationState
  deriving DecidableEq

structure SessionCreatedFact where
  factSequence : Nat
  requestId : MutationRequestId
  sessionId : SessionId
  workspaceId : Nat
  displayName : Option String
  workingDirectory : Option String
  acceptedSequence : Nat
  createdAtMilliseconds : Nat
  deliveryEventId : DeliveryEventId
  deriving DecidableEq

structure Session where
  id : SessionId
  workspaceId : Nat
  displayName : Option String
  workingDirectory : Option String
  createdSequence : Nat
  updatedSequence : Nat
  createdAtMilliseconds : Nat
  archived : Bool
  deriving DecidableEq

structure SessionRunState where
  sessionId : SessionId
  activeRunId : Option RunId
  entryHighWater : Nat
  updatedSequence : Nat
  deriving DecidableEq

structure SessionRenameRequest where
  requestId : MutationRequestId
  fingerprint : Fingerprint
  sessionId : SessionId
  displayName : String
  acceptedSequence : Nat
  acceptedAtMilliseconds : Nat
  deliveryEventId : DeliveryEventId
  deriving DecidableEq

structure SessionArchiveRequest where
  requestId : MutationRequestId
  fingerprint : Fingerprint
  sessionId : SessionId
  archived : Bool
  /-- State 2 of the request; a prepared one is in state 1. -/
  complete : Bool
  acceptedSequence : Nat
  acceptedAtMilliseconds : Nat
  deliveryEventId : DeliveryEventId
  deriving DecidableEq

inductive DeleteState
  | prepared | databaseCleaned | complete
  deriving DecidableEq

structure SessionDeleteRequest where
  requestId : MutationRequestId
  fingerprint : Fingerprint
  sessionId : SessionId
  state : DeleteState
  acceptedSequence : Nat
  acceptedAtMilliseconds : Nat
  deliveryEventId : DeliveryEventId
  deriving DecidableEq

structure ContextCheckpoint where
  checkpointId : ContextCheckpointId
  sessionId : SessionId
  parentCheckpointId : Option ContextCheckpointId
  sourceEntryHighWater : Nat
  sourceDigest : Digest
  summary : String
  estimatedSummaryTokens : Nat
  factSequence : Nat
  createdAtMilliseconds : Nat
  deriving DecidableEq

structure SessionTables where
  mutationRequests : List MutationRequest := []
  deletedMutationTombstones : List DeletedMutationTombstone := []
  sessionCreationRequests : List SessionCreationRequest := []
  sessionCreatedFacts : List SessionCreatedFact := []
  sessions : List Session := []
  sessionRunStates : List SessionRunState := []
  sessionRenameRequests : List SessionRenameRequest := []
  sessionArchiveRequests : List SessionArchiveRequest := []
  sessionDeleteRequests : List SessionDeleteRequest := []
  contextCheckpoints : List ContextCheckpoint := []

/-! ## Runs -/

/-- The columns of a run that acceptance fixes. -/
structure RunBinding where
  service : RunService
  modelId : String
  protocolRevision : Nat
  credentialGeneration : Nat
  contextPolicyVersion : Nat
  toolCatalogVersion : Nat
  toolLimitsVersion : Nat
  executionImageGeneration : Option Nat
  sourceEntryHighWater : Nat
  estimatedInputTokens : Nat
  maximumInputTokens : Nat
  maximumOutputTokens : Nat
  deriving DecidableEq

structure RunInputRequest where
  requestId : MutationRequestId
  fingerprint : Fingerprint
  sessionId : SessionId
  runId : RunId
  userMessageId : MessageId
  acceptedSequence : Nat
  acceptedAtMilliseconds : Nat
  deriving DecidableEq

structure RunAcceptedFact where
  factSequence : Nat
  requestId : MutationRequestId
  sessionId : SessionId
  runId : RunId
  userMessageId : MessageId
  binding : RunBinding
  acceptedAtMilliseconds : Nat
  deliveryEventId : DeliveryEventId
  deriving DecidableEq

structure RunAcceptedCheckpoint where
  runId : RunId
  checkpointId : ContextCheckpointId
  deriving DecidableEq

structure RunStateFact where
  factSequence : Nat
  sessionId : SessionId
  runId : RunId
  state : RunState
  failure : Option RunFailureKind
  createdAtMilliseconds : Nat
  deliveryEventId : DeliveryEventId
  deriving DecidableEq

structure Run where
  id : RunId
  sessionId : SessionId
  userMessageId : MessageId
  binding : RunBinding
  providerTurns : Nat
  toolCalls : Nat
  toolMutations : Nat
  toolResultBytes : Nat
  state : RunState
  cancellationRequested : Bool
  failure : Option RunFailureKind
  acceptedSequence : Nat
  updatedSequence : Nat
  acceptedAtMilliseconds : Nat
  updatedAtMilliseconds : Nat
  deriving DecidableEq

structure RunAuditFact where
  auditSequence : Nat
  requestId : Option MutationRequestId
  sessionId : SessionId
  runId : RunId
  operationId : Option ProviderOperationId
  actor : ActorKind
  auditKind : RunAuditKind
  createdAtMilliseconds : Nat
  deriving DecidableEq

structure RunCancellationRequest where
  requestId : MutationRequestId
  fingerprint : Fingerprint
  sessionId : SessionId
  runId : RunId
  factSequence : Nat
  acceptedAtMilliseconds : Nat
  resultState : RunState
  resultCancellationRequested : Bool
  intentApplied : Bool
  deliveryEventId : Option DeliveryEventId
  deriving DecidableEq

structure ProviderUsage where
  inputTokens : Nat
  cachedInputTokens : Nat
  cacheWriteInputTokens : Nat
  outputTokens : Nat
  reasoningOutputTokens : Nat
  totalTokens : Nat
  deriving DecidableEq

/-- The columns that only a prepared fact fills. -/
structure ProviderPreparation where
  service : RunService
  modelId : String
  protocolRevision : Nat
  credentialGeneration : Nat
  contextPolicyVersion : Nat
  sourceEntryHighWater : Nat
  turnIndex : Nat
  toolCatalogVersion : Nat
  toolLimitsVersion : Nat
  estimatedInputTokens : Nat
  deriving DecidableEq

/-- The columns that only a completed fact fills. -/
structure ProviderCompletion where
  providerResponseId : String
  usage : ProviderUsage
  deriving DecidableEq

structure ProviderOperationFact where
  factSequence : Nat
  operationId : ProviderOperationId
  runId : RunId
  factKind : ProviderFactKind
  preparation : Option ProviderPreparation
  completion : Option ProviderCompletion
  failure : Option RunFailureKind
  createdAtMilliseconds : Nat
  deriving DecidableEq

structure RunTables where
  runInputRequests : List RunInputRequest := []
  runAcceptedFacts : List RunAcceptedFact := []
  runAcceptedCheckpoints : List RunAcceptedCheckpoint := []
  runStateFacts : List RunStateFact := []
  runs : List Run := []
  runAuditFacts : List RunAuditFact := []
  runCancellationRequests : List RunCancellationRequest := []
  providerOperationFacts : List ProviderOperationFact := []

/-! ## The context of a run -/

inductive SkillSource
  | bundled | user | project
  deriving DecidableEq

structure SkillSnapshot where
  name : String
  description : String
  skillFile : String
  source : SkillSource
  active : Bool
  instructions : Option String
  /-- The JSON object of the skill's metadata. -/
  metadata : String
  /-- The JSON strings of its name and of its file. -/
  quotedName : String
  quotedFile : String
  /-- Whether the instructions parse as a skill of this name and description. -/
  parses : Bool
  deriving DecidableEq

structure RunSkillSnapshot where
  runId : RunId
  skillIndex : Nat
  skill : SkillSnapshot
  deriving DecidableEq

structure ProjectFile where
  path : String
  global : Bool
  content : String
  deriving DecidableEq

structure RunProjectContext where
  enabled : Bool := true
  files : List ProjectFile := []
  warnings : List String := []
  /-- The JSON text of the other fields. -/
  snapshot : String := "\x7b\"enabled\":true,\"files\":[],\"warnings\":[]\x7d"
  deriving DecidableEq

structure RunProjectSnapshot where
  runId : RunId
  context : RunProjectContext
  deriving DecidableEq

inductive ImageMediaType
  | png | jpeg | gif
  deriving DecidableEq

structure ImageAttachment where
  id : ImageAttachmentId
  displayName : String
  markerStart : Nat
  mediaType : ImageMediaType
  width : Nat
  height : Nat
  bytes : Nat
  digest : Digest
  deriving DecidableEq

structure MessageImage where
  image : ImageAttachment
  sessionId : SessionId
  runId : RunId
  userMessageId : MessageId
  attachmentIndex : Nat
  createdAtMilliseconds : Nat
  deriving DecidableEq

structure ContextTables where
  runSkillSnapshots : List RunSkillSnapshot := []
  runProjectContexts : List RunProjectSnapshot := []
  imageAttachments : List MessageImage := []

/-! ## Transcript and events -/

inductive AssistantMessagePhase
  | commentary | final
  deriving DecidableEq

inductive EntryBody
  | user (text : String)
  | assistant (service : RunService) (modelId text : String) (refusal : Bool)
      (phase : AssistantMessagePhase)
  | toolCall (service : RunService) (modelId : String) (callId : ToolCallId)
  | toolResult (callId : ToolCallId)
  deriving DecidableEq

namespace EntryBody

/-- `CASE entry_kind WHEN 1 THEN 2 WHEN 2 THEN 6 WHEN 3 THEN 12 ELSE 13 END`. -/
def eventKind : EntryBody → EventKind
  | user _ => .userMessage
  | assistant .. => .assistantMessage
  | toolCall .. => .toolCall
  | toolResult _ => .toolResult

def isUser : EntryBody → Bool
  | user _ => true
  | _ => false

/-- The call of an entry of kind 3. -/
def calledTool : EntryBody → Option ToolCallId
  | toolCall _ _ callId => some callId
  | _ => none

/-- The call of an entry of kind 4. -/
def finishedTool : EntryBody → Option ToolCallId
  | toolResult callId => some callId
  | _ => none

/-- The column `tool_call_id`. -/
def toolCallId : EntryBody → Option ToolCallId
  | toolCall _ _ callId | toolResult callId => some callId
  | _ => none

/-- The column `text`. -/
def text : EntryBody → Option String
  | user text | assistant _ _ text _ _ => some text
  | _ => none

end EntryBody

structure SessionEntry where
  factSequence : Nat
  sessionId : SessionId
  entrySequence : Nat
  messageId : MessageId
  runId : RunId
  body : EntryBody
  createdAtMilliseconds : Nat
  deliveryEventId : DeliveryEventId
  deriving DecidableEq

structure DeliveryEvent where
  eventId : DeliveryEventId
  eventSequence : Nat
  sessionId : SessionId
  eventKind : EventKind
  createdAtMilliseconds : Nat
  deriving DecidableEq

structure TranscriptTables where
  sessionEntries : List SessionEntry := []
  deliveryEvents : List DeliveryEvent := []

/-! ## Tools -/

structure ToolCall where
  callId : ToolCallId
  operationId : ToolOperationId
  providerOperationId : ProviderOperationId
  providerCallId : String
  sessionId : SessionId
  runId : RunId
  callIndex : Nat
  input : ToolInput
  /-- The digest of the path text stands for the text. -/
  pathDigest : String
  factSequence : Nat
  createdAtMilliseconds : Nat
  deriving DecidableEq

structure ToolOperationFact where
  factSequence : Nat
  callId : ToolCallId
  operationId : ToolOperationId
  sessionId : SessionId
  runId : RunId
  factKind : ToolFactKind
  recoveryPlan : Option String
  result : Option ToolResult
  resultStatus : Option ToolResultStatus
  createdAtMilliseconds : Nat
  workspaceDeliveryEventId : Option DeliveryEventId
  deriving DecidableEq

structure ToolAuditFact where
  auditSequence : Nat
  callId : ToolCallId
  sessionId : SessionId
  runId : RunId
  operationId : ToolOperationId
  toolKind : ToolKind
  auditKind : ToolAuditKind
  pathDigest : String
  createdAtMilliseconds : Nat
  deriving DecidableEq

structure WebModelBinding where
  callId : ToolCallId
  runId : RunId
  dispatchSequence : Nat
  deriving DecidableEq

structure ToolTables where
  toolCalls : List ToolCall := []
  toolOperationFacts : List ToolOperationFact := []
  toolAuditFacts : List ToolAuditFact := []
  webModelBindings : List WebModelBinding := []

/-! ## Local commands -/

structure LocalCommand where
  commandId : LocalCommandId
  requestId : MutationRequestId
  fingerprint : Fingerprint
  sessionId : SessionId
  commandText : String
  contextVisible : Bool
  state : LocalCommandState
  cancellationRequested : Bool
  result : Option ToolResult
  entrySequence : Option Nat
  messageId : Option MessageId
  acceptedSequence : Nat
  updatedSequence : Nat
  acceptedAtMilliseconds : Nat
  updatedAtMilliseconds : Nat
  acceptedEventId : DeliveryEventId
  deliveryEventId : Option DeliveryEventId
  deriving DecidableEq

structure LocalCommandCancellation where
  requestId : MutationRequestId
  fingerprint : Fingerprint
  sessionId : SessionId
  commandId : LocalCommandId
  intentApplied : Bool
  acceptedSequence : Nat
  acceptedAtMilliseconds : Nat
  deriving DecidableEq

structure LocalCommandAuditFact where
  auditSequence : Nat
  commandId : LocalCommandId
  requestId : Option MutationRequestId
  sessionId : SessionId
  auditKind : LocalCommandAuditKind
  createdAtMilliseconds : Nat
  deriving DecidableEq

structure CommandTables where
  localCommands : List LocalCommand := []
  localCommandCancellations : List LocalCommandCancellation := []
  localCommandAuditFacts : List LocalCommandAuditFact := []

/-! ## Steering queues -/

structure SteeringQueue where
  sessionId : SessionId
  targetRunId : RunId
  revision : Nat
  paused : Bool
  deriving DecidableEq

structure SteeringLifecycleFact where
  factSequence : Nat
  sessionId : SessionId
  targetRunId : RunId
  queueRevision : Nat
  reason : PauseReason
  sourceSequence : Option Nat
  createdAtMilliseconds : Nat
  deriving DecidableEq

structure SteeringPendingMessage where
  itemId : SteeringItemId
  sessionId : SessionId
  slot : Nat
  enqueueSequence : Nat
  revision : Nat
  text : String
  createdAtMilliseconds : Nat
  deriving DecidableEq

/-- The receipt of an accepted change, without the skills that came with its text. -/
structure SteeringMutationRequest where
  requestId : MutationRequestId
  sessionId : SessionId
  fingerprint : Fingerprint
  acceptedSequence : Nat
  acceptedAtMilliseconds : Nat
  queueRevision : Nat
  itemId : Option SteeringItemId
  itemRevision : Option Nat
  changeKind : SteeringChangeKind
  targetRunId : Option RunId
  text : Option String
  deriving DecidableEq

structure SteeringTables where
  steeringQueues : List SteeringQueue := []
  steeringLifecycleFacts : List SteeringLifecycleFact := []
  steeringPendingMessages : List SteeringPendingMessage := []
  steeringMutationRequests : List SteeringMutationRequest := []

/-! ## The database and its surroundings -/

structure Counters where
  /-- `logical_sequences.next_value`. -/
  nextValue : Nat := 1
  nextIdentifier : Nat := 1

structure Store extends Counters, SessionTables, RunTables, ContextTables, TranscriptTables,
  ToolTables, CommandTables, SteeringTables

def Store.empty : Store := {}

/-- What an operation reads outside the modelled tables: the clock, the
credential and data-use subsystems, the maintenance jobs and the file system. -/
structure Environment where
  /-- The clock in milliseconds, within the range of a database integer. -/
  now : Nat
  contextIntegrity : Except PersistenceError Unit
  admitDataUse : RunService → String → Except PersistenceError Unit
  requireModelCredential : RunService → Except PersistenceError Nat
  nativeUsage : RunId → Except PersistenceError Bool
  /-- Whether a dispatched call of a web tool gets a web model binding. -/
  webBindingCandidate : ToolCallId → Except PersistenceError Bool
  /-- Whether the recorded attempts and receipts of a bound call back a web result. -/
  webEvidence : ToolCallId → ToolResult → Bool
  toolImageAdmitted : ToolCallId → ToolResult → Bool
  imageContextCapacity : SessionId → Nat → Nat → Bool
  /-- The sizes of the images that entries of a session above one place and up to another show. -/
  contextImages : SessionId → Nat → Nat → List Nat
  attachmentStorage : Nat → Bool
  sessionHasImageContext : SessionId → Bool
  isDirectory : String → Bool
  attachmentDirectoryOverlaps : SessionId → String → Bool
  /-- Decode the binding of an interrupted legacy command and remove its files. -/
  removeCommandArtifacts : String → Except PersistenceError Unit
  cleanupCommandArtifacts : Except PersistenceError Unit
  provisionWorkspace : Nat → Except PersistenceError Unit
  removeAttachments : SessionId → Except PersistenceError Unit
  drainForArchive : SessionId → Except PersistenceError Unit
  ensureDrained : SessionId → Except PersistenceError Unit

/-- Surroundings in which nothing is refused, at a given time. -/
def Environment.open (now : Nat) : Environment where
  now := now
  contextIntegrity := .ok ()
  admitDataUse _ _ := .ok ()
  requireModelCredential _ := .ok 1
  nativeUsage _ := .ok true
  webBindingCandidate _ := .ok true
  webEvidence _ _ := true
  toolImageAdmitted _ _ := true
  imageContextCapacity _ _ _ := true
  contextImages _ _ _ := []
  attachmentStorage _ := true
  sessionHasImageContext _ := false
  isDirectory _ := true
  attachmentDirectoryOverlaps _ _ := false
  removeCommandArtifacts _ := .ok ()
  cleanupCommandArtifacts := .ok ()
  provisionWorkspace _ := .ok ()
  removeAttachments _ := .ok ()
  drainForArchive _ := .ok ()
  ensureDrained _ := .ok ()

end Morons
