import Morons.Run.Execution

/-!
# Tool execution

Committing a provider turn with tool calls, preparing, dispatching and
completing each call in turn, and recovering the calls a crash left behind.
-/

namespace Morons

open Attempt

structure ProviderToolCall where
  providerCallId : String
  input : ToolInput

structure CompletedToolTurn where
  providerResponseId : String
  usage : ProviderUsage
  commentary : Option (String × Bool)
  calls : List ProviderToolCall

structure CommittedToolCall where
  callId : ToolCallId
  operationId : ToolOperationId
  input : ToolInput
  deriving DecidableEq

/-! ## Reading tool rows -/

def loadToolCallIdentity (s : Store) (callId : ToolCallId) : Except PersistenceError ToolCall :=
  demand (.invalidState "a tool operation is missing its committed call")
    (Table.find ToolCall.callId callId s.toolCalls)

def toolHasFact (s : Store) (callId : ToolCallId) (factKind : ToolFactKind) : Bool :=
  s.toolOperationFacts.any fun f => f.callId = callId && f.factKind = factKind

/-- The call has a fact of kind 3 to 6. -/
def toolTerminal (s : Store) (callId : ToolCallId) : Bool :=
  s.toolOperationFacts.any fun f => f.callId = callId && f.factKind.isTerminal

def requireToolFact (s : Store) (callId : ToolCallId) (factKind : ToolFactKind) :
    Except PersistenceError Unit :=
  require (toolHasFact s callId factKind)
    (.invalidState "a tool operation is missing a required fact")

def ensureToolNotTerminal (s : Store) (callId : ToolCallId) : Except PersistenceError Unit :=
  require (¬ toolTerminal s callId)
    (.invalidState "a tool operation already has a terminal result")

def requireActiveToolCall (s : Store) (run : Run) (callId : ToolCallId)
    (operationId : ToolOperationId) : Except PersistenceError Unit := do
  require (run.state = .active) (.invalidState "a tool operation requires an active run")
  let call ← loadToolCallIdentity s callId
  require (call.runId = run.id ∧ call.sessionId = run.sessionId ∧ call.operationId = operationId)
    (.invalidState "a tool operation identity conflicts with its run")

def requirePriorCallsTerminal (s : Store) (runId : RunId) (callId : ToolCallId) :
    Except PersistenceError Unit :=
  require (¬ s.toolCalls.any fun prior => s.toolCalls.any fun current =>
      current.providerOperationId = prior.providerOperationId && current.callId = callId &&
        prior.runId = runId && decide (prior.callIndex < current.callIndex) &&
        !toolTerminal s prior.callId)
    (.invalidState "tool calls must execute in committed provider order")

/-! ## Writing tool rows -/

def insertToolAudit (s : Store) (auditSequence : Nat) (call : ToolCall) (auditKind : ToolAuditKind)
    (now : Nat) : Store :=
  { s with
    toolAuditFacts :=
      ⟨auditSequence, call.callId, call.sessionId, call.runId, call.operationId, call.input.kind,
        auditKind, call.pathDigest, now⟩ :: s.toolAuditFacts }

def updateEntryHighWater (s : Store) (run : Run) (entryHighWater updateSequence : Nat) : Store :=
  let s := updateSessionRunState s run.sessionId fun r => { r with
    entryHighWater := entryHighWater
    updatedSequence := updateSequence }
  updateSession s run.sessionId fun r => { r with updatedSequence := updateSequence }

/-- `encode_payload`: two bytes at least, and no more than the limit. -/
def checkPayload (bytes : Nat) : Except PersistenceError Unit :=
  require (2 ≤ bytes ∧ bytes ≤ maxToolPayloadBytes) (.resourceLimit .context)

/-! ## A provider turn with tool calls -/

def validateToolTurn (turn : CompletedToolTurn) : Except PersistenceError Unit :=
  require (validProviderResponseId turn.providerResponseId ∧ turn.calls ≠ [] ∧
      turn.calls.length ≤ maxToolCallsPerTurn ∧
      ∀ commentary ∈ turn.commentary, ¬ commentary.1.isEmpty ∧
        commentary.1.utf8ByteSize ≤ maxTranscriptTextBytes)
    (.invalidInput "a completed provider tool turn is invalid")

/-- The commentary of a turn, and the sequence number of the last fact. -/
def insertAssistantCommentary (env : Environment) (s : Store) (run : Run) (entrySequence : Nat)
    (text : String) (refusal : Bool) : Except PersistenceError (Nat × Store) := do
  let messageId := s.nextIdentifier
  let eventId := s.nextIdentifier + 1
  let (factSequence, s) ← nextSequence (s.takeIdentifiers 2)
  let s := { s with
    sessionEntries :=
      ⟨factSequence, run.sessionId, entrySequence, messageId, run.id,
        .assistant run.binding.service run.binding.modelId text refusal .commentary, env.now,
        eventId⟩ :: s.sessionEntries }
  return (factSequence,
    insertDeliveryEvent s eventId factSequence run.sessionId .assistantMessage env.now)

/-- One call of a turn with its entry, its event and its audit record. -/
def commitToolCall (env : Environment) (s : Store) (run : Run)
    (providerOperationId : ProviderOperationId) (call : ProviderToolCall)
    (callIndex entrySequence : Nat) : Except PersistenceError (CommittedToolCall × Nat × Store) := do
  let callId := s.nextIdentifier
  let operationId := s.nextIdentifier + 1
  let messageId := s.nextIdentifier + 2
  let eventId := s.nextIdentifier + 3
  let (callFactSequence, s) ← nextSequence (s.takeIdentifiers 4)
  let (entryFactSequence, s) ← nextSequence s
  let (auditSequence, s) ← nextSequence s
  checkPayload call.input.payloadBytes
  require (1 ≤ call.providerCallId.utf8ByteSize ∧ call.providerCallId.utf8ByteSize ≤ 128)
    (.sqlite "CHECK tool_calls.provider_call_id")
  require (¬ s.toolCalls.any fun c =>
      c.runId = run.id && c.providerCallId = call.providerCallId)
    (.sqlite "UNIQUE tool_calls (run_id, provider_call_id)")
  let row : ToolCall :=
    { callId := callId
      operationId := operationId
      providerOperationId := providerOperationId
      providerCallId := call.providerCallId
      sessionId := run.sessionId
      runId := run.id
      callIndex := callIndex
      input := call.input
      pathDigest := call.input.pathText
      factSequence := callFactSequence
      createdAtMilliseconds := env.now }
  let s := { s with
    toolCalls := row :: s.toolCalls
    sessionEntries :=
      ⟨entryFactSequence, run.sessionId, entrySequence, messageId, run.id,
        .toolCall run.binding.service run.binding.modelId callId, env.now, eventId⟩ ::
        s.sessionEntries }
  let s := insertDeliveryEvent s eventId entryFactSequence run.sessionId .toolCall env.now
  let s := insertToolAudit s auditSequence row .callCommitted env.now
  return (⟨callId, operationId, call.input⟩, entryFactSequence, s)

/-- The calls of a turn from the given index on; `lastSequence` is the number
of the last entry written before them. -/
def commitToolCalls (env : Environment) (run : Run) (providerOperationId : ProviderOperationId) :
    List ProviderToolCall → Nat → Nat → Nat → Store →
      Except PersistenceError (List CommittedToolCall × Nat × Store)
  | [], _, _, lastSequence, s => .ok ([], lastSequence, s)
  | call :: calls, callIndex, entryHighWater, _, s => do
    let (committed, sequence, s) ←
      commitToolCall env s run providerOperationId call callIndex (entryHighWater + 1)
    let (rest, lastSequence, s) ←
      commitToolCalls env run providerOperationId calls (callIndex + 1) (entryHighWater + 1)
        sequence s
    return (committed :: rest, lastSequence, s)

def completeProviderToolTurn (env : Environment) (s : Store) (runId : RunId)
    (operationId : ProviderOperationId) (turn : CompletedToolTurn) :
    Except PersistenceError (List CommittedToolCall × Store) := do
  validateToolTurn turn
  let run ← loadRequiredRun s runId
  require (run.binding.toolCatalogVersion < 15 ∨ ∀ call ∈ turn.calls, call.input.kind ≠ .task)
    (.invalidInput "task delegation is not supported by this run's tool catalog")
  requireDispatchedActiveOperation s run operationId
  let expectedHighWater ← providerSourceHighWater s operationId
  let entryHighWater ← loadEntryHighWater s run.sessionId
  require (expectedHighWater = entryHighWater)
    (.invalidState "a tool turn transcript changed before its provider outcome committed")
  require (∀ call ∈ turn.calls, ¬ s.toolCalls.any fun c =>
      c.runId = run.id && c.providerCallId = call.providerCallId)
    (.invalidInput "a provider tool call identifier was already used in this run")
  let mutations := turn.calls.countP fun call => call.input.kind.isMutation
  let additionalEntries := turn.calls.length + (if turn.commentary.isSome then 1 else 0)
  require (entryHighWater + additionalEntries ≤ maxTranscriptEntries) (.resourceLimit .transcript)
  let (factSequence, s) ← nextSequence s
  let (auditSequence, s) ← nextSequence s
  let s ← insertProviderCompleted s factSequence operationId runId turn.providerResponseId
    turn.usage env.now
  let s := insertRunAudit s auditSequence run (some operationId) .providerCompleted env.now
  let (callHighWater, lastSequence, s) ← (match turn.commentary with
    | some (text, refusal) => do
      let (sequence, s) ← insertAssistantCommentary env s run (entryHighWater + 1) text refusal
      return (entryHighWater + 1, sequence, s)
    | none => .ok (entryHighWater, factSequence, s))
  let (committed, lastSequence, s) ←
    commitToolCalls env run operationId turn.calls 1 callHighWater lastSequence s
  let s := updateRun s run.id fun r => { r with
    providerTurns := run.providerTurns + 1
    toolCalls := run.toolCalls + turn.calls.length
    toolMutations := run.toolMutations + mutations
    updatedSequence := lastSequence
    updatedAtMilliseconds := env.now }
  return (committed, updateEntryHighWater s run (entryHighWater + additionalEntries) lastSequence)

/-! ## One tool operation -/

def prepareToolOperation (env : Environment) (s : Store) (runId : RunId) (callId : ToolCallId)
    (operationId : ToolOperationId) (recoveryPlan : Option String) :
    Except PersistenceError Store := do
  require (∀ plan ∈ recoveryPlan, plan.utf8ByteSize ≤ maxToolPayloadBytes) (.resourceLimit .context)
  let run ← loadRequiredRun s runId
  requireActiveToolCall s run callId operationId
  requirePriorCallsTerminal s runId callId
  require (¬ s.toolOperationFacts.any fun f => f.callId = callId)
    (.invalidState "a tool operation was already prepared")
  let (sequence, s) ← nextSequence s
  let (auditSequence, s) ← nextSequence s
  let call ← loadToolCallIdentity s callId
  let s := { s with
    toolOperationFacts :=
      { factSequence := sequence
        callId := callId
        operationId := operationId
        sessionId := run.sessionId
        runId := run.id
        factKind := .prepared
        recoveryPlan := recoveryPlan
        result := none
        resultStatus := none
        createdAtMilliseconds := env.now
        workspaceDeliveryEventId := none } :: s.toolOperationFacts }
  return insertToolAudit s auditSequence call .prepared env.now

def markToolDispatched (env : Environment) (s : Store) (runId : RunId) (callId : ToolCallId)
    (operationId : ToolOperationId) : Except PersistenceError Store := do
  env.contextIntegrity
  let run ← loadRequiredRun s runId
  let call ← loadToolCallIdentity s callId
  -- The credentials and policies that bind a web call are read before the transaction.
  let bound ← (if call.input.kind = .webSearch ∨ call.input.kind = .task then
    env.webBindingCandidate callId else .ok false)
  requireActiveToolCall s run callId operationId
  requireToolFact s callId .prepared
  ensureToolNotTerminal s callId
  let (sequence, s) ← nextSequence s
  let (auditSequence, s) ← nextSequence s
  require (¬ toolHasFact s callId .dispatched)
    (.sqlite "UNIQUE tool_operation_facts (operation_id, fact_kind)")
  let s := { s with
    webModelBindings :=
      (if bound then [⟨callId, runId, sequence⟩] else []) ++ s.webModelBindings
    toolOperationFacts :=
      { factSequence := sequence
        callId := callId
        operationId := operationId
        sessionId := run.sessionId
        runId := run.id
        factKind := .dispatched
        recoveryPlan := none
        result := none
        resultStatus := none
        createdAtMilliseconds := env.now
        workspaceDeliveryEventId := none } :: s.toolOperationFacts }
  return insertToolAudit s auditSequence call .dispatched env.now

def webBound (s : Store) (callId : ToolCallId) : Bool :=
  s.webModelBindings.any fun b => b.callId = callId

/-- A result that speaks of a web search. -/
def ToolResult.isWeb : ToolResult → Bool
  | .ok (.encoded .exaWeb _) | .ok (.encoded .openAiWeb _) | .ok (.encoded .webSearch _)
  | .ok (.encoded .task _) | .error (.webSearchUncertain _) _ | .error .exaSearchUncertain _ => true
  | _ => false

/-- A result that only a bound call can have. -/
def ToolResult.needsBinding : ToolResult → Bool
  | .ok (.encoded .exaWeb _) | .error (.webSearchUncertain _) _ | .error .exaSearchUncertain _ =>
    true
  | _ => false

/-- `web_binding::validate_result`; for a bound call the evidence decides. -/
def validateWebResult (env : Environment) (s : Store) (callId : ToolCallId) (result : ToolResult) :
    Except PersistenceError Unit :=
  require (if webBound s callId then result.isWeb → env.webEvidence callId result
      else ¬ result.needsBinding)
    (.invalidState "web model binding is invalid or inconsistent")

def classifyResult (result : ToolResult) (dispatched : Bool) :
    Except PersistenceError (ToolFactKind × ToolResultStatus) :=
  match result, dispatched with
  | .ok _, true => .ok (.completed, .succeeded)
  | .error .uncertain _, true | .error (.webSearchUncertain _) _, true
  | .error .exaSearchUncertain _, true => .ok (.uncertain, .uncertain)
  | .error .interrupted _, true | .error .cancelled _, true => .ok (.interrupted, .interrupted)
  | .error .notDispatched _, false | .error .interrupted _, false | .error .cancelled _, false =>
    .ok (.notDispatched, .interrupted)
  | .error _ _, _ => .ok (.completed, .failed)
  | .ok _, false => .error (.invalidState "a successful tool result was not dispatched")

/-- The rows of a tool result, once its numbers and identifiers are drawn. -/
def writeToolResult (s : Store) (run : Run) (call : ToolCall) (operationId : ToolOperationId)
    (result : ToolResult) (factKind : ToolFactKind) (resultStatus : ToolResultStatus)
    (entrySequence now : Nat) (entryId : MessageId) (entryEventId : DeliveryEventId)
    (workspaceEventId : Option DeliveryEventId)
    (factSequence entryFactSequence auditSequence : Nat) : Store :=
  let s := { s with
    toolOperationFacts :=
      { factSequence := factSequence
        callId := call.callId
        operationId := operationId
        sessionId := run.sessionId
        runId := run.id
        factKind := factKind
        recoveryPlan := none
        result := some result
        resultStatus := some resultStatus
        createdAtMilliseconds := now
        workspaceDeliveryEventId := workspaceEventId } :: s.toolOperationFacts
    sessionEntries :=
      ⟨entryFactSequence, run.sessionId, entrySequence, entryId, run.id, .toolResult call.callId, now,
        entryEventId⟩ :: s.sessionEntries }
  let s := insertDeliveryEvent s entryEventId entryFactSequence run.sessionId .toolResult now
  -- An uncertain outcome delivers a second event.
  let s := { s with
    deliveryEvents := (workspaceEventId.map fun eventId =>
      ⟨eventId, factSequence, run.sessionId, .toolUncertaintyChanged, now⟩).toList ++
        s.deliveryEvents }
  let s := insertToolAudit s auditSequence call
    (if result.isUncertain then .uncertain else .completed) now
  let s := updateRun s run.id fun r => { r with
    toolResultBytes := run.toolResultBytes + result.payloadBytes
    updatedSequence := entryFactSequence
    updatedAtMilliseconds := now }
  updateEntryHighWater s run entrySequence entryFactSequence

def completeToolResult (env : Environment) (s : Store) (runId : RunId) (callId : ToolCallId)
    (operationId : ToolOperationId) (result : ToolResult) : Except PersistenceError Store := do
  let result :=
    if result.hasImage && !env.toolImageAdmitted callId result then
      .error .resourceLimit none
    else result
  checkPayload result.payloadBytes
  let run ← loadRequiredRun s runId
  requireActiveToolCall s run callId operationId
  requireToolFact s callId .prepared
  ensureToolNotTerminal s callId
  let dispatched := toolHasFact s callId .dispatched
  validateWebResult env s callId result
  let (factKind, resultStatus) ← classifyResult result dispatched
  require (run.toolResultBytes + result.payloadBytes ≤ maxInteger) (.resourceLimit .context)
  let entryHighWater ← loadEntryHighWater s run.sessionId
  require (entryHighWater + 1 ≤ maxTranscriptEntries) (.resourceLimit .transcript)
  let entryId := s.nextIdentifier
  let entryEventId := s.nextIdentifier + 1
  let workspaceEventId := if result.isUncertain then some (s.nextIdentifier + 2) else none
  require (factKind = .uncertain ↔ result.isUncertain)
    (.sqlite "CHECK tool_operation_facts.workspace_delivery_event_id")
  let (factSequence, s) ← nextSequence (s.takeIdentifiers 3)
  let (entryFactSequence, s) ← nextSequence s
  let (auditSequence, s) ← nextSequence s
  let call ← loadToolCallIdentity s callId
  let s := writeToolResult s run call operationId result factKind resultStatus (entryHighWater + 1)
    env.now entryId entryEventId workspaceEventId factSequence entryFactSequence auditSequence
  if result.stopsRun run.binding.toolCatalogVersion then
    appendRunTransition s run .uncertain none env.now .runStopped
  else
    return s

end Morons
