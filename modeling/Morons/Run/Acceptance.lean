import Morons.Run.Context
import Morons.Run.Facts

/-!
# Accepting a session input

`acceptSessionInput` turns a user message into an accepted run: it resolves
retries, checks that the session is free, reserves room for the message and
an answer, estimates the context and writes the request, the canonical fact,
the transcript entry, the projections and two events.
-/

namespace Morons

open Attempt

structure RunModelSelection where
  service : RunService
  modelId : String
  protocolRevision : Nat
  maximumInputTokens : Nat
  maximumOutputTokens : Nat
  supportsToolCalls : Bool
  supportsImageInput : Bool

/-- The discovered skills, the project guidance and the attached images. -/
structure RunInputContext where
  skills : List SkillSnapshot := []
  project : RunProjectContext := {}
  attachments : List PreparedImageAttachment := []

def RunInputContext.attachmentBytes (context : RunInputContext) : Nat :=
  (context.attachments.map (·.bytes)).sum

structure AcceptedRun where
  userMessageId : MessageId
  run : Run
  newlyAccepted : Bool
  deriving DecidableEq

/-! ## Checks of the input -/

def validateUserText (text : String) : Except PersistenceError Unit :=
  require (¬ text.isEmpty ∧ text.utf8ByteSize ≤ maxUserMessageBytes)
    (.invalidInput "session input must contain between 1 and 65536 UTF-8 bytes")

def validModelCharacter (c : Char) : Bool :=
  c.isLower || c.isDigit || c = '.' || c = '-' || c = '_'

def validateModelIdentifier (modelId : String) : Except PersistenceError Unit :=
  require (¬ modelId.isEmpty ∧ modelId.utf8ByteSize ≤ maxModelIdBytes ∧
      modelId.toList.all validModelCharacter)
    (.invalidInput "the run model identifier is invalid")

def validateModelSelection (selection : RunModelSelection) : Except PersistenceError Unit := do
  validateModelIdentifier selection.modelId
  require (selection.protocolRevision ≠ 0 ∧ selection.maximumInputTokens ≠ 0 ∧
      selection.maximumOutputTokens ≠ 0)
    (.invalidInput "the run model selection is invalid")

/-! ## Context estimate -/

def conservativeInputTokenEstimate (textBytes entryCount : Nat) : Option Nat :=
  let value := textBytes + entryCount * contextItemOverheadTokens
  if 0 < value ∧ value ≤ maxTokens then some value else none

def newestCheckpoint (s : Store) (sessionId : SessionId) (highWater : Nat) :
    Option ContextCheckpoint :=
  Ledger.latest ContextCheckpoint.sourceEntryHighWater
    (s.contextCheckpoints.filter fun c =>
      c.sessionId = sessionId && decide (c.sourceEntryHighWater ≤ highWater))

/-- The length of an entry's text, or else of its call's input, or else of its
call's result. -/
def entryBytes (s : Store) (entry : SessionEntry) : Nat :=
  let call := entry.body.toolCallId.bind fun id => Table.find ToolCall.callId id s.toolCalls
  let result := entry.body.toolCallId.bind fun id =>
    (s.toolOperationFacts.find? fun f => f.callId = id && f.factKind.isTerminal).bind (·.result)
  (((entry.body.text.map String.utf8ByteSize).or (call.map (·.input.payloadBytes))).or
    (result.map (·.payloadBytes))).getD 0

/-- The sizes of the entries and shown commands above a checkpoint. -/
def contextSizes (s : Store) (sessionId : SessionId) (highWater checkpointHighWater : Nat) :
    List Nat :=
  let inRange (n : Nat) : Bool := decide (n ≤ highWater) && decide (checkpointHighWater < n)
  (s.sessionEntries.filter fun e => e.sessionId = sessionId && inRange e.entrySequence).map
      (entryBytes s) ++
    (s.localCommands.filter fun c => c.sessionId = sessionId && c.entrySequence.any inRange &&
      c.contextVisible && c.state.isTerminal).map fun c =>
        (c.result.map fun result => c.commandText.utf8ByteSize + result.payloadBytes).getD 0

structure NewContextSize where
  textBytes : Nat
  instructionBytes : Nat
  instructionItems : Nat
  imageCount : Nat
  maximumInputTokens : Nat

def estimateContextTokens (s : Store) (sessionId : SessionId) (entryHighWater : Nat)
    (size : NewContextSize) : Except PersistenceError (Nat × Option ContextCheckpointId) := do
  let checkpoint := newestCheckpoint s sessionId entryHighWater
  let checkpointHighWater := (checkpoint.map (·.sourceEntryHighWater)).getD 0
  let checkpointBytes := (checkpoint.map (·.summary.utf8ByteSize)).getD 0
  let sizes := contextSizes s sessionId entryHighWater checkpointHighWater
  let checkpointCount := if checkpoint.isSome then 1 else 0
  let entryCount := sizes.length + checkpointCount
  let canCompact := decide (checkpointCount < entryCount)
  require (canCompact ∨ entryCount + 1 + size.instructionItems + size.imageCount ≤ maxContextEntries)
    (.resourceLimit .context)
  let totalEntries := entryCount + 1 + size.instructionItems + size.imageCount
  let totalTextBytes :=
    sizes.sum + checkpointBytes + size.textBytes + size.instructionBytes + size.imageCount * 8192
  let estimate ← demand (.resourceLimit .context)
    (conservativeInputTokenEstimate totalTextBytes totalEntries)
  let newInputEstimate :=
    (conservativeInputTokenEstimate
      (size.textBytes + size.instructionBytes + size.imageCount * 8192)
      (1 + size.instructionItems + size.imageCount)).getD maxTokens
  require (estimate ≠ 0 ∧ (canCompact ∨ estimate ≤ size.maximumInputTokens) ∧
      newInputEstimate + contextRequestReserve ≤ size.maximumInputTokens)
    (.resourceLimit .context)
  return (min estimate size.maximumInputTokens, checkpoint.map (·.checkpointId))

def hasUncompactedHistory (s : Store) (sessionId : SessionId) : Bool :=
  let highWater := Ledger.greatest ContextCheckpoint.sourceEntryHighWater
    (s.contextCheckpoints.filter fun c => c.sessionId = sessionId)
  (s.sessionEntries.any fun e => e.sessionId = sessionId && decide (highWater < e.entrySequence)) ||
    s.localCommands.any fun c => c.sessionId = sessionId &&
      c.entrySequence.any (fun n => decide (highWater < n)) && c.state.isTerminal &&
      c.contextVisible

/-! ## Retries -/

def acceptedRunFromRequest (s : Store) (request : RunInputRequest) (newlyAccepted : Bool) :
    Except PersistenceError AcceptedRun := do
  let fact ← demand (.invalidState "an accepted run input is missing its canonical run fact")
    (Table.find RunAcceptedFact.runId request.runId s.runAcceptedFacts)
  require (fact.sessionId = request.sessionId ∧ fact.userMessageId = request.userMessageId)
    (.invalidState "an accepted run input conflicts with its canonical run fact")
  return {
    userMessageId := request.userMessageId
    run :=
      { id := request.runId
        sessionId := fact.sessionId
        userMessageId := fact.userMessageId
        binding := fact.binding
        providerTurns := 0
        toolCalls := 0
        toolMutations := 0
        toolResultBytes := 0
        state := .accepted
        cancellationRequested := false
        failure := none
        acceptedSequence := fact.factSequence
        updatedSequence := fact.factSequence
        acceptedAtMilliseconds := fact.acceptedAtMilliseconds
        updatedAtMilliseconds := fact.acceptedAtMilliseconds }
    newlyAccepted := newlyAccepted }

def resolveExistingInput (s : Store) (requestId : MutationRequestId) (fingerprint : Fingerprint) :
    Except PersistenceError (Option AcceptedRun) :=
  match Table.find RunInputRequest.requestId requestId s.runInputRequests,
    loadMutationOperation s requestId with
  | some request, some .runInput => do
    require (request.fingerprint = fingerprint) .requestConflict
    let accepted ← acceptedRunFromRequest s request false
    return some accepted
  | some _, _ =>
    .error (.invalidState "a run input request is missing its mutation registry record")
  | none, some _ => .error .requestConflict
  | none, none => .ok none

/-- No retry is found only when the identifier was never used. -/
theorem resolveExistingInput_none {s : Store} {requestId : MutationRequestId}
    {fingerprint : Fingerprint} (h : resolveExistingInput s requestId fingerprint = .ok none) :
    loadMutationOperation s requestId = none := by
  unfold resolveExistingInput at h
  split at h
  · simp only [bind_ok, pure_ok] at h
    obtain ⟨-, -, _, -, h⟩ := h
    cases h
  · cases h
  · cases h
  · assumption

/-! ## Acceptance -/

/-- The models with the long context, under protocol revision 5. -/
def longContextModels : List String :=
  ["gpt-5.5", "gpt-6-astra", "gpt-5.6-sol", "gpt-5.6-luna", "gpt-5.6-terra",
    "gpt-daybreak-blue-latest"]

/-- The schema's bounds on the columns of an accepted run. -/
def RunBinding.admitted (b : RunBinding) : Prop :=
  let limit :=
    if b.service = .openAiChatGpt ∧ b.protocolRevision = 5 ∧ b.modelId ∈ longContextModels then
      258400 else 96000
  0 < b.credentialGeneration ∧ 0 < b.protocolRevision ∧ b.protocolRevision ≤ 65535 ∧
    0 < b.sourceEntryHighWater ∧
    0 < b.estimatedInputTokens ∧ b.estimatedInputTokens ≤ limit ∧
    0 < b.maximumInputTokens ∧ b.maximumInputTokens ≤ limit ∧
    0 < b.maximumOutputTokens ∧ b.maximumOutputTokens ≤ 32000

instance (b : RunBinding) : Decidable b.admitted := by unfold RunBinding.admitted; infer_instance

/-- The rows of an acceptance, once its three sequence numbers are drawn. -/
def writeAcceptance (s : Store) (requestId : MutationRequestId) (fingerprint : Fingerprint)
    (sessionId : SessionId) (runId : RunId) (userMessageId : MessageId) (binding : RunBinding)
    (checkpoint : Option ContextCheckpointId) (text : String) (context : RunInputContext) (now : Nat)
    (inputEventId runEventId : DeliveryEventId)
    (inputFactSequence runFactSequence auditSequence : Nat) : Store :=
  let s := insertMutationRequest s requestId .runInput runFactSequence now
  let s := { s with
    runInputRequests :=
      ⟨requestId, fingerprint, sessionId, runId, userMessageId, runFactSequence, now⟩ ::
        s.runInputRequests
    runAcceptedFacts :=
      ⟨runFactSequence, requestId, sessionId, runId, userMessageId, binding, now, runEventId⟩ ::
        s.runAcceptedFacts
    runAcceptedCheckpoints :=
      (checkpoint.map (RunAcceptedCheckpoint.mk runId)).toList ++ s.runAcceptedCheckpoints
    runSkillSnapshots := skillRows runId context.skills ++ s.runSkillSnapshots
    runProjectContexts := if binding.toolCatalogVersion = toolCatalogVersion then
        ⟨runId, context.project⟩ :: s.runProjectContexts
      else s.runProjectContexts
    sessionEntries :=
      ⟨inputFactSequence, sessionId, binding.sourceEntryHighWater, userMessageId, runId, .user text,
        now, inputEventId⟩ :: s.sessionEntries
    imageAttachments :=
      imageRows sessionId runId userMessageId now (stageAttachments userMessageId context.attachments) ++
        s.imageAttachments
    runs :=
      { id := runId
        sessionId := sessionId
        userMessageId := userMessageId
        binding := binding
        providerTurns := 0
        toolCalls := 0
        toolMutations := 0
        toolResultBytes := 0
        state := .accepted
        cancellationRequested := false
        failure := none
        acceptedSequence := runFactSequence
        updatedSequence := runFactSequence
        acceptedAtMilliseconds := now
        updatedAtMilliseconds := now } :: s.runs }
  let s := { s with
    sessionRunStates := s.sessionRunStates.map fun (r : SessionRunState) =>
      if r.sessionId = sessionId ∧ r.activeRunId = none then
        { r with
          activeRunId := some runId
          entryHighWater := binding.sourceEntryHighWater
          updatedSequence := runFactSequence }
      else r }
  let s := updateSession s sessionId fun r => { r with updatedSequence := runFactSequence }
  let s := insertDeliveryEvent s inputEventId inputFactSequence sessionId .userMessage now
  let s := insertDeliveryEvent s runEventId runFactSequence sessionId .runAccepted now
  { s with
    runAuditFacts :=
      ⟨auditSequence, some requestId, sessionId, runId, none, .client, .inputAccepted, now⟩ ::
        s.runAuditFacts }

def acceptNewInput (env : Environment) (s : Store) (requestId : MutationRequestId)
    (fingerprint : Fingerprint) (sessionId : SessionId) (text : String)
    (selection : RunModelSelection) (context : RunInputContext) :
    Except PersistenceError (AcceptedRun × Store) := do
  env.admitDataUse selection.service selection.modelId
  require (skillsValid context.skills ∧ context.project.isValid ∧
      (selection.supportsToolCalls ∨ context.project = {}))
    (.invalidInput "the accepted instruction context is invalid or incompatible")
  require (validatePreparedAttachments text context.attachments)
    (.invalidInput "the accepted image attachments are invalid")
  let session ← demand .sessionNotFound (loadSession s sessionId)
  let workingDirectory ← demand .workingDirectoryUnavailable session.workingDirectory
  require (env.isDirectory workingDirectory) .workingDirectoryUnavailable
  require (selection.supportsImageInput ∨
      (context.attachments.isEmpty ∧ ¬ env.sessionHasImageContext sessionId))
    .imageInputUnsupported
  let credentialGeneration ← env.requireModelCredential selection.service
  require ((env.imageContextCapacity sessionId context.attachments.length
        context.attachmentBytes ∨ hasUncompactedHistory s sessionId) ∧
      env.attachmentStorage context.attachmentBytes)
    (.resourceLimit .context)
  require (s.runAcceptedFacts.length < maxRuns) (.resourceLimit .runs)
  require (¬ (session.archived ∨ archivePending s sessionId)) .sessionArchived
  let state ← demand .sessionNotFound (loadSessionRunState s sessionId)
  refuse (state.activeRunId.map .sessionBusy)
  refuse ((activeLocalCommand s sessionId).map .sessionCommandBusy)
  -- One entry for the message and one for the final answer.
  require (state.entryHighWater + 2 ≤ maxTranscriptEntries) (.resourceLimit .transcript)
  let skillBytes ← demand (.resourceLimit .context) (skillsContextBytes context.skills)
  let (estimatedInputTokens, checkpoint) ← estimateContextTokens s sessionId state.entryHighWater
    { textBytes := text.utf8ByteSize
      instructionBytes := skillBytes + context.project.contextBytes
      instructionItems :=
        context.skills.length + (if 0 < context.project.contextBytes then 1 else 0)
      imageCount := context.attachments.length
      maximumInputTokens := selection.maximumInputTokens }
  let binding : RunBinding :=
    { service := selection.service
      modelId := selection.modelId
      protocolRevision := selection.protocolRevision
      credentialGeneration := credentialGeneration
      contextPolicyVersion := contextPolicyVersion
      toolCatalogVersion := if selection.supportsToolCalls then toolCatalogVersion else 0
      toolLimitsVersion := if selection.supportsToolCalls then toolLimitsVersion else 0
      executionImageGeneration := none
      sourceEntryHighWater := state.entryHighWater + 1
      estimatedInputTokens := estimatedInputTokens
      maximumInputTokens := selection.maximumInputTokens
      maximumOutputTokens := selection.maximumOutputTokens }
  require binding.admitted (.sqlite "CHECK run_accepted_facts")
  let runId := s.nextIdentifier
  let userMessageId := s.nextIdentifier + 1
  let inputEventId := s.nextIdentifier + 2
  let runEventId := s.nextIdentifier + 3
  let (inputFactSequence, s) ← nextSequence (s.takeIdentifiers 4)
  let (runFactSequence, s) ← nextSequence s
  let (auditSequence, s) ← nextSequence s
  let s := writeAcceptance s requestId fingerprint sessionId runId userMessageId binding checkpoint
    text context env.now inputEventId runEventId inputFactSequence runFactSequence auditSequence
  let accepted ← acceptedRunFromRequest s
    ⟨requestId, fingerprint, sessionId, runId, userMessageId, runFactSequence, env.now⟩ true
  return (accepted, s)

def acceptSessionInput (env : Environment) (s : Store) (requestId : MutationRequestId)
    (fingerprint : Fingerprint) (sessionId : SessionId) (text : String)
    (selection : RunModelSelection) (context : RunInputContext) :
    Except PersistenceError (AcceptedRun × Store) := do
  validateUserText text
  validateModelSelection selection
  env.contextIntegrity
  match ← resolveExistingInput s requestId fingerprint with
  | some existing => return (existing, s)
  | none => acceptNewInput env s requestId fingerprint sessionId text selection context

/-- What a new input finds: a free session with room for two entries. -/
structure InputAdmitted (s : Store) (sessionId : SessionId) (session : Session)
    (state : SessionRunState) (binding : RunBinding) : Prop where
  foundSession : loadSession s sessionId = some session
  directory : session.workingDirectory.isSome
  unarchived : session.archived = false
  archivePending : archivePending s sessionId = false
  foundState : loadSessionRunState s sessionId = some state
  idle : state.activeRunId = none
  command : activeLocalCommand s sessionId = none
  runs : s.runAcceptedFacts.length < maxRuns
  room : state.entryHighWater + 2 ≤ maxTranscriptEntries
  highWater : binding.sourceEntryHighWater = state.entryHighWater + 1
  admitted : binding.admitted
  policy : binding.contextPolicyVersion = contextPolicyVersion
  image : binding.executionImageGeneration = none
  catalog :
    (binding.toolCatalogVersion = toolCatalogVersion ∧ binding.toolLimitsVersion = toolLimitsVersion) ∨
      (binding.toolCatalogVersion = 0 ∧ binding.toolLimitsVersion = 0)
  sequence : s.nextValue + 2 < maxInteger

/-- What is checked of the text and of the context of a new input. -/
structure ContextAdmitted (s : Store) (sessionId : SessionId) (entryHighWater : Nat)
    (binding : RunBinding) (checkpoint : Option ContextCheckpointId) (text : String)
    (context : RunInputContext) : Prop where
  userText : validateUserText text = .ok ()
  skills : skillsValid context.skills = true
  project : context.project.isValid = true
  guided : binding.toolCatalogVersion = toolCatalogVersion ∨ context.project = {}
  attachments : validatePreparedAttachments text context.attachments = true
  estimate : ∃ skillBytes, skillsContextBytes context.skills = some skillBytes ∧
    estimateContextTokens s sessionId entryHighWater
      { textBytes := text.utf8ByteSize
        instructionBytes := skillBytes + context.project.contextBytes
        instructionItems :=
          context.skills.length + (if 0 < context.project.contextBytes then 1 else 0)
        imageCount := context.attachments.length
        maximumInputTokens := binding.maximumInputTokens } =
      .ok (binding.estimatedInputTokens, checkpoint)

/-- A new input draws three numbers and four identifiers. -/
theorem acceptNewInput_ok {env : Environment} {s t : Store} {requestId : MutationRequestId}
    {fingerprint : Fingerprint} {sessionId : SessionId} {text : String}
    {selection : RunModelSelection} {context : RunInputContext} {accepted : AcceptedRun}
    (htext : validateUserText text = .ok ())
    (h : acceptNewInput env s requestId fingerprint sessionId text selection context =
      .ok (accepted, t)) :
    ∃ session state binding checkpoint, InputAdmitted s sessionId session state binding ∧
      ContextAdmitted s sessionId state.entryHighWater binding checkpoint text context ∧
      t = writeAcceptance
        { s with nextValue := s.nextValue + 3, nextIdentifier := s.nextIdentifier + 4 }
        requestId fingerprint sessionId s.nextIdentifier (s.nextIdentifier + 1) binding checkpoint
        text context env.now (s.nextIdentifier + 2) (s.nextIdentifier + 3) s.nextValue (s.nextValue + 1)
        (s.nextValue + 2) := by
  simp only [acceptNewInput, bind_ok, require_ok, demand_ok, refuse_ok, pure_ok, Prod.exists,
    nextSequence_ok, Option.map_eq_none_iff, exists_const] at h
  obtain ⟨-, -, ⟨hskills, hproject, hguided⟩, hattachments, session, hsession, directory, hdirectory,
    -, -, generation, -, -, hruns, harchived, state, hstate, hactive, hcommand, hroom, skillBytes,
    hskillBytes, tokens, checkpoint, hestimate, hbinding, n₁, s₁, ⟨-, rfl, rfl⟩, n₂, s₂,
    ⟨-, rfl, rfl⟩, n₃, s₃, ⟨h₃, rfl, rfl⟩, run, -, hfinal⟩ := h
  obtain ⟨harchived, hpending⟩ := not_or.mp harchived
  refine ⟨session, state, _, checkpoint, ?_, ?_, (Prod.mk.inj hfinal).2.symm⟩
  rotate_left
  · exact
      { userText := htext
        skills := hskills
        project := hproject
        guided := hguided.imp_left fun htools => if_pos htools
        attachments := hattachments
        estimate := ⟨skillBytes, hskillBytes, hestimate⟩ }
  exact
    { foundSession := hsession
      directory := by simp [hdirectory]
      unarchived := Bool.eq_false_iff.mpr harchived
      archivePending := Bool.eq_false_iff.mpr hpending
      foundState := hstate
      idle := hactive
      command := hcommand
      runs := hruns
      room := hroom
      highWater := rfl
      admitted := hbinding
      policy := rfl
      image := rfl
      catalog := by cases selection.supportsToolCalls <;> simp
      sequence := h₃ }

/-- An acceptance is new, or it repeats a recorded one and changes nothing. -/
theorem acceptSessionInput_ok {env : Environment} {s t : Store} {requestId : MutationRequestId}
    {fingerprint : Fingerprint} {sessionId : SessionId} {text : String}
    {selection : RunModelSelection} {context : RunInputContext} {accepted : AcceptedRun}
    (h : acceptSessionInput env s requestId fingerprint sessionId text selection context =
      .ok (accepted, t)) :
    t = s ∨ (loadMutationOperation s requestId = none ∧ validateUserText text = .ok () ∧
      acceptNewInput env s requestId fingerprint sessionId text selection context =
        .ok (accepted, t)) := by
  simp only [acceptSessionInput, bind_ok] at h
  obtain ⟨_, htext, -, -, -, -, existing, hexisting, h⟩ := h
  cases existing with
  | some existing =>
    simp only [pure_ok, Prod.mk.injEq] at h
    exact Or.inl h.2.symm
  | none => exact Or.inr ⟨resolveExistingInput_none hexisting, htext, h⟩

end Morons
