import Morons.Provider.Usage

/-!
# The failures of a response

Every error of a decoder is meant to say what is wrong with the response.  The
checks of identifiers and tool names that the request encoder makes fail with
`InvalidRequest`, which `map_provider_failure` takes for a failure of the
server, and two of the decoders make them on what the provider sent.
-/

namespace Morons.Provider

open Attempt

def mapProviderFailure : ProviderError → RunFailureKind
  | .credentialGenerationChanged => .credentialChanged
  | .credentialNotConfigured => .credentialNotConfigured
  | .credentialReauthenticationRequired => .credentialReauthenticationRequired
  | .authenticationOrEntitlement => .authenticationOrEntitlement
  | .rateLimited => .rateLimited
  | .unavailable | .transport | .responseHeaderTimeout | .streamInactivityTimeout
  | .totalTimeout => .providerUnavailable
  | .requestRejected | .providerExecutionFailed => .providerRejected
  | .unexpectedContentType | .redirectDenied | .malformedResponse | .incompleteResponse =>
    .providerProtocol
  | .responseLimitExceeded | .contextWindowRejected => .resourceLimit
  | .dataUseRestricted => .dataUseRestricted
  | .invalidRequest | .unsupportedModel => .internal
  | .malformedCatalog | .cancelled | .credentialStoreUnavailable => .internal

/-- The errors that tell of the response. -/
def ProviderError.ofResponse : ProviderError → Bool
  | .malformedResponse | .responseLimitExceeded | .incompleteResponse
  | .providerExecutionFailed => true
  | _ => false

/-- An error that tells of the response and is not mapped to a failure of the server. -/
def ProviderError.Blames (error : ProviderError) : Prop :=
  error.ofResponse ∧ mapProviderFailure error ≠ .internal

theorem blames_iff {error : ProviderError} : error.Blames ↔ error.ofResponse := by
  cases error <;> simp [ProviderError.Blames, ProviderError.ofResponse, mapProviderFailure]

/-- Every failure tells of the response. -/
abbrev BlamesResponse {α : Type} (x : Except ProviderError α) : Prop :=
  FailsWith ProviderError.Blames x

@[simp] theorem malformedResponse_blames : ProviderError.malformedResponse.Blames :=
  blames_iff.mpr rfl

@[simp] theorem responseLimitExceeded_blames : ProviderError.responseLimitExceeded.Blames :=
  blames_iff.mpr rfl

@[simp] theorem incompleteResponse_blames : ProviderError.incompleteResponse.Blames :=
  blames_iff.mpr rfl

@[simp] theorem providerExecutionFailed_blames : ProviderError.providerExecutionFailed.Blames :=
  blames_iff.mpr rfl

@[simp] theorem invalidRequest_blames : ¬ ProviderError.invalidRequest.Blames :=
  fun h => Bool.false_ne_true (blames_iff.mp h)

@[simp] theorem validateIdentifier_blames {value : String} {maximumBytes : Nat} :
    BlamesResponse (validateIdentifier value maximumBytes) ↔ validIdentifier value maximumBytes := by
  simp [validateIdentifier]

@[simp] theorem validateToolName_blames {name : String} :
    BlamesResponse (validateToolName name) ↔ validToolName name := by
  simp [validateToolName]

@[simp] theorem validateResponseIdentifier_blames {value : String} {maximumBytes : Nat} :
    BlamesResponse (validateResponseIdentifier value maximumBytes) := by
  simp [validateResponseIdentifier]

@[simp] theorem validateResponseToolName_blames {name : String} :
    BlamesResponse (validateResponseToolName name) := by
  simp [validateResponseToolName]

@[simp] theorem validateEventValue_blames {stringBytes : Nat} {value : Json} :
    BlamesResponse (validateEventValue stringBytes value) := by
  simp [validateEventValue]

/-! ## Framing -/

theorem SseBuffer.processLine_blames (d : SseBuffer) (line : List UInt8) :
    BlamesResponse (SseBuffer.processLine d line) := by
  unfold SseBuffer.processLine
  split
  · split
    · simp
    · split <;> simp
  · simp
  · simp [SseBuffer.processField]

theorem SseBuffer.pushByte_blames (d : SseBuffer) (byte : UInt8) :
    BlamesResponse (SseBuffer.pushByte d byte) := by
  simp [SseBuffer.pushByte, SseBuffer.processLine_blames]

theorem SseDecoder.push_blames (d : SseDecoder) (chunk : List UInt8) :
    BlamesResponse (d.push chunk) := by
  unfold SseDecoder.push
  split
  · simp only [failsWith_bind, failsWith_pure, implies_true, and_true,
      Chunked.failsWith_processAll, SseBuffer.pushByte_blames]
  · simp

/-! ## Whole responses -/

variable {τ : Type}

/-- The decoder comes to a record in state `d` while the chunks of a response are pushed. -/
def Decoding.Comes (decoder : Decoding τ) (chunks : List (List UInt8)) (d : τ)
    (record : SseRecord) : Prop :=
  Chunked.Reaches SseDecoder.push decoder.process ({}, decoder.start) chunks d record

/-- What holds at the start and is kept by every record holds when a response has been pushed. -/
theorem Decoding.pushed_invariant {decoder : Decoding τ} {P : τ → Prop} (start : P decoder.start)
    (step : ∀ d record d' events, decoder.process d record = .ok (d', events) → P d → P d')
    {chunks : List (List UInt8)} {sse : SseDecoder} {d : τ} {events : List TextDelta}
    (h : Chunked.pushAll SseDecoder.push decoder.process ({}, decoder.start) chunks =
      .ok ((sse, d), events)) : P d := by
  obtain ⟨records, -, hprocess⟩ :=
    Chunked.push_ok.mp ((Chunked.pushAll_flatten SseDecoder.seamless).mp h)
  exact Chunked.processAll_invariant step hprocess start

/-- A response fails for what it says when each of its records does. -/
theorem Decoding.decode_blames {decoder : Decoding τ} {P : τ → Prop} (start : P decoder.start)
    (step : ∀ d record d' events, decoder.process d record = .ok (d', events) → P d → P d')
    (finish : ∀ d, P d → BlamesResponse (decoder.finish d)) {chunks : List (List UInt8)} :
    BlamesResponse (decoder.decode chunks) ↔
      ∀ d record, decoder.Comes chunks d record → BlamesResponse (decoder.process d record) := by
  unfold BlamesResponse Decoding.decode
  rw [failsWith_bind, Chunked.failsWith_pushAll SseDecoder.push_blames]
  refine and_iff_left fun pushed hpushed => ?_
  have hend : P pushed.1.2 := pushed_invariant start step hpushed
  simp [SseDecoder.finish, finish _ hend]

/-! ## The Gemini stream -/

namespace GeminiDecoder

open Gemini

theorem checkRatings_blames (categories : List String) (ratings : List GeminiSafetyRating) :
    BlamesResponse (checkRatings categories ratings) := by
  induction ratings generalizing categories with
  | nil => simp [checkRatings]
  | cons rating rest ih => simp [checkRatings, ih]

theorem validateSafetyRatings_blames (ratings : Option (List GeminiSafetyRating)) :
    BlamesResponse (validateSafetyRatings ratings) := by
  cases ratings <;> simp [validateSafetyRatings, checkRatings_blames]

theorem settle_blames (current next : Option String) (valid : String → Bool) :
    BlamesResponse (settle current next valid) := by
  cases next <;> simp [settle]

theorem processPart_blames (codec : Codec) (d : GeminiDecoder) (part : Json) :
    BlamesResponse (d.processPart codec part) := by
  simp [processPart, processText, processFunctionCall]

theorem processCandidate_blames (codec : Codec) (d : GeminiDecoder) (candidate : GeminiCandidate) :
    BlamesResponse (d.processCandidate codec candidate) := by
  have hfinish (reason : Option String) : BlamesResponse (d.recordFinish reason) := by
    cases reason <;> simp [recordFinish]
  unfold processCandidate
  simp only [failsWith_bind, failsWith_require, malformedResponse_blames, implies_true, true_and,
    validateSafetyRatings_blames, hfinish]
  intro _ _ _ _ d' _
  split
  · simp
  · simp [Chunked.failsWith_processAll, processPart_blames]

theorem merge_blames (a : GeminiUsageAccumulator) (usage : GeminiUsage) :
    BlamesResponse (a.merge usage) := by
  have hstable (current next : Option Nat) : BlamesResponse (mergeStable current next) := by
    cases current <;> cases next <;> simp [mergeStable]
  have hcumulative (current next : Option Nat) : BlamesResponse (mergeCumulative current next) := by
    cases current <;> cases next <;> simp [mergeCumulative]
  simp [GeminiUsageAccumulator.merge, hstable, hcumulative]

theorem recordUsage_blames (d : GeminiDecoder) (usage : Option GeminiUsage) :
    BlamesResponse (d.recordUsage usage) := by
  have husage (a : GeminiUsageAccumulator) : BlamesResponse (d.usageOf a) := by
    unfold usageOf
    split <;> simp
  cases usage with
  | none => simp [recordUsage]
  | some usage => simp [recordUsage, validateUsageDetails, merge_blames, husage]

theorem processEvent_blames (codec : Codec) (d : GeminiDecoder) (event : GeminiEvent) :
    BlamesResponse (d.processEvent codec event) := by
  have hfeedback : BlamesResponse (validatePromptFeedback event.promptFeedback) := by
    cases event.promptFeedback <;> simp [validatePromptFeedback, validateSafetyRatings_blames]
  unfold processEvent validateIdentity
  simp only [failsWith_bind, failsWith_require, malformedResponse_blames, implies_true, true_and,
    settle_blames, failsWith_pure, hfeedback, recordUsage_blames]
  intro _ _ _ _ _ _ d' _
  split <;> simp [processCandidate_blames]

theorem processRecord_blames (codec : Codec) (d : GeminiDecoder) (record : SseRecord) :
    BlamesResponse (d.processRecord codec record) := by
  have hping (value : Json) : BlamesResponse (validatePingValue codec value) := by
    unfold validatePingValue
    split <;> simp
  simp [processRecord, hping, processEvent_blames]

theorem finish_blames (d : GeminiDecoder) : BlamesResponse d.finish := by
  simp [finish, checkFinishReason]

theorem decode_blames (codec : Codec) (maximumInputTokens maximumOutputTokens : Nat)
    (chunks : List (List UInt8)) :
    BlamesResponse ((decoding codec maximumInputTokens maximumOutputTokens).decode chunks) :=
  (Decoding.decode_blames (P := fun _ => True) trivial (fun _ _ _ _ _ _ => trivial)
    fun d _ => finish_blames d).mpr fun d record _ => processRecord_blames codec d record

end GeminiDecoder

/-! ## The Responses stream -/

namespace ResponsesDecoder

open Responses

/-- An error that the response ended with tells of it. -/
def Ended (d : ResponsesDecoder) : Prop := ∀ result ∈ d.terminal, BlamesResponse result

@[simp] theorem validateLifecycleResponse_blames (d : ResponsesDecoder)
    (response : LifecycleResponse) (allowedStatuses : List String) :
    BlamesResponse (d.validateLifecycleResponse response allowedStatuses) := by
  simp [validateLifecycleResponse]

@[simp] theorem lifecycle_blames (d : ResponsesDecoder) (value : Json)
    (allowedStatuses : List String) : BlamesResponse (d.lifecycle value allowedStatuses) := by
  simp [lifecycle, requireActive, validateMatchingLifecycleResponse]

@[simp] theorem recordTextDelta_blames (d : ResponsesDecoder) (event : TextDeltaEvent)
    (refusal : Bool) : BlamesResponse (d.recordTextDelta event refusal) := by
  simp [recordTextDelta, requireOpenItem, appendBounded]

@[simp] theorem recordArgumentDelta_blames (d : ResponsesDecoder)
    (event : FunctionArgumentsDeltaEvent) : BlamesResponse (d.recordArgumentDelta event) := by
  simp [recordArgumentDelta, requireOpenItem, appendBounded]

theorem scanParts_blames (s : OutputScan) (outputIndex : Nat) (itemId : String)
    (contentIndex : Nat) (text : String) (refusal : Bool) (parts : List Json) :
    BlamesResponse (scanParts s outputIndex itemId contentIndex text refusal parts) := by
  induction parts generalizing s contentIndex text refusal with
  | nil => simp [scanParts]
  | cons content rest ih =>
    have hterminal (text : String) (refusal : Bool) : BlamesResponse
        (validateTerminalText s outputIndex contentIndex itemId text refusal) := by
      unfold validateTerminalText
      split <;> simp
    simp [scanParts, parseMessageContent, appendBounded, hterminal, ih]

theorem scanSummaries_blames (s : OutputScan) (summaries : List (String × String)) :
    BlamesResponse (scanSummaries s summaries) := by
  induction summaries generalizing s with
  | nil => simp [scanSummaries]
  | cons summary rest ih => simp [scanSummaries, countText, ih]

theorem scanItem_blames (codec : Codec) (s : OutputScan) (outputIndex : Nat) (item : Json) :
    BlamesResponse (scanItem codec s outputIndex item) := by
  have hitem (s : OutputScan) (itemId : Option String) : BlamesResponse (scanItemId s itemId) := by
    cases itemId <;> simp [scanItemId]
  have harguments (s : OutputScan) (itemId : Option String) (arguments : String) :
      BlamesResponse (validateTerminalArguments s outputIndex itemId arguments) := by
    unfold validateTerminalArguments
    split <;> simp
  simp [scanItem, scanMessage, scanReasoning, scanFunctionCall, countText, scanParts_blames,
    scanSummaries_blames, hitem, harguments]

theorem scanItems_blames (codec : Codec) (outputIndex : Nat) (s : OutputScan) (items : List Json) :
    BlamesResponse (scanItems codec outputIndex s items) := by
  induction items generalizing outputIndex s with
  | nil => simp [scanItems]
  | cons item rest ih => simp [scanItems, scanItem_blames, ih]

theorem parseOutput_blames (codec : Codec) (textDeltas : TextDeltas)
    (argumentDeltas : ArgumentDeltas) (items : List Json) :
    BlamesResponse (parseOutput codec textDeltas argumentDeltas items) := by
  simp [parseOutput, scanItems_blames]

theorem parseCompleted_blames (codec : Codec) (d : ResponsesDecoder)
    (response : CompletedResponse) : BlamesResponse (d.parseCompleted codec response) := by
  have houtput : BlamesResponse (d.completedOutput codec response.output) := by
    unfold completedOutput
    cases d.nativeItems with
    | none => simp [parseOutput_blames]
    | some items =>
      have hfinish : BlamesResponse items.finish := by simp [NativeCompletedItems.finish]
      refine (failsWith_bind _).mpr ⟨hfinish, fun items _ => ?_⟩
      cases items <;> simp [parseOutput_blames]
  simp [parseCompleted, validateUsage, houtput]

theorem processEvent_blames (codec : Codec) (d : ResponsesDecoder) (kind : StreamEvent)
    (value : Json) (bytes nodes : Nat) :
    BlamesResponse (d.processEvent codec kind value bytes nodes) := by
  cases kind with
  | outputItemDone =>
    simp only [processEvent, requireActive, failsWith_bind, failsWith_require,
      malformedResponse_blames, implies_true, true_and]
    intro _ _
    split <;> simp [NativeCompletedItems.push]
  | _ => simp [processEvent, requireActive, parseCompleted_blames]

theorem processRecord_blames (codec : Codec) (d : ResponsesDecoder) (record : SseRecord) :
    BlamesResponse (d.processRecord codec record) := by
  have hping : BlamesResponse (validatePingRecord codec record.data) := by
    unfold validatePingRecord
    simp only [failsWith_bind, failsWith_demand, malformedResponse_blames, implies_true, true_and,
      validateEventValue_blames]
    intro value _ _ _
    split
    · simp only [failsWith_bind, failsWith_require, malformedResponse_blames, implies_true,
        true_and]
      intro _ _
      split <;> simp
    · simp
  simp [processRecord, hping, processEvent_blames]

theorem Ended.step {codec : Codec} {d d' : ResponsesDecoder} {record : SseRecord}
    {events : List TextDelta} (h : d.processRecord codec record = .ok (d', events))
    (hended : d.Ended) : d'.Ended := by
  unfold processRecord at h
  split at h
  case isTrue =>
    simp only [bind_ok, pure_ok, Prod.mk.injEq] at h
    obtain ⟨-, -, rfl, -⟩ := h
    exact hended
  case isFalse =>
  split at h
  case isTrue =>
    simp only [bind_ok, pure_ok, Prod.mk.injEq] at h
    obtain ⟨-, -, rfl, -⟩ := h
    exact hended
  case isFalse =>
  simp only [bind_ok] at h
  obtain ⟨_, -, _, -, _, -, _, -, _, -, _, -, _, -, _, -, kind, -, hevent⟩ := h
  intro result hresult
  rw [Option.mem_def] at hresult
  rcases processEvent_ok hevent with ⟨-, hsame, -⟩ | ⟨-, -, error, herror, hterminal⟩ |
    ⟨-, -, -, outcome, -, -, hterminal⟩
  · exact hended result (hsame.symm.trans hresult)
  · obtain rfl := Option.some.inj (hterminal.symm.trans hresult)
    rw [BlamesResponse, failsWith_error]
    simp only [List.mem_cons, List.not_mem_nil, or_false] at herror
    rcases herror with rfl | rfl <;> simp
  · obtain rfl := Option.some.inj (hterminal.symm.trans hresult)
    exact failsWith_ok outcome

theorem finish_blames {d : ResponsesDecoder} (h : d.Ended) : BlamesResponse d.finish := by
  unfold finish
  split
  case h_1 | h_2 => simpa [Ended] using h
  case h_3 | h_4 => simp

theorem decode_blames (codec : Codec) {start : ResponsesDecoder} (hfresh : Fresh start)
    (chunks : List (List UInt8)) : BlamesResponse ((decoding codec start).decode chunks) := by
  refine (Decoding.decode_blames (P := Ended) ?_ (fun _ _ _ _ h => Ended.step h)
    fun d => finish_blames).mpr fun d record _ => processRecord_blames codec d record
  intro result hresult
  rw [Option.mem_def] at hresult
  exact absurd (hfresh.1.symm.trans hresult) (by simp)

end ResponsesDecoder

/-! ## The Chat Completions stream -/

namespace ChatCompletionsDecoder

open Chat

/-- What the decoder takes for a chunk of the response. -/
def Takes (codec : Codec) (d : ChatCompletionsDecoder) (record : SseRecord) (chunk : ChatChunk) :
    Prop :=
  record.event = none ∧ isDoneMarker record.data = false ∧
    (d.done = true → d.postTerminalEnvelopeSeen = false) ∧
    ∃ value, codec.parse record.data = some value ∧
      (value.count (eventBounds maxAccumulatedTextBytes) 0 0).isSome ∧
      (d.done = true → isCostTrailer codec value = false) ∧ ChatChunk.read value = some chunk

/-- Where it is checked, the identifier of a chunk is valid. -/
def IdentifiesChunk (d : ChatCompletionsDecoder) (chunk : ChatChunk) : Prop :=
  (∀ object ∈ chunk.object, object = "chat.completion.chunk") → chunk.model = d.expectedModel →
    chunk.created ≠ 0 → chunk.id.utf8ByteSize ≤ maxProviderIdentifierBytes →
    validIdentifier chunk.id maxProviderIdentifierBytes

/-- Where they are checked, the identifier and the name of a call are valid. -/
def NamesCall (d : ChatCompletionsDecoder) (call : ChatToolCallDelta) : Prop :=
  call.index < maxToolCount → (∀ callType ∈ call.callType, callType = "function") →
    (∀ id ∈ call.id, validIdentifier id maxProviderCallIdBytes) ∧
    ((∀ id ∈ call.id, ∀ existing ∈ ((d.toolCalls.lookup call.index).getD {}).id, existing = id) →
      ∀ name ∈ call.function.bind (·.name), validToolName name)

/-- The decoder comes to the calls of a chunk in state `d'`. -/
def ComesToCalls (codec : Codec) (d : ChatCompletionsDecoder) (chunk : ChatChunk)
    (d' : ChatCompletionsDecoder) (calls : List ChatToolCallDelta) : Prop :=
  ∃ d₁ choice events, d.validateChunkIdentity chunk = .ok d₁ ∧
    d₁.terminalUsageChoice chunk = false ∧ chunk.choices = [choice] ∧ d₁.finishReason = none ∧
    choice.index = 0 ∧ choice.logprobs = none ∧
    d₁.processDelta codec { choice.delta with toolCalls := none } = .ok (d', events) ∧
    calls = choice.delta.toolCalls.getD [] ∧ calls.length ≤ maxToolCount

/-- No identifier or name that the decoder checks in a record is refused. -/
def WellNamed (codec : Codec) (d : ChatCompletionsDecoder) (record : SseRecord) : Prop :=
  ∀ chunk, d.Takes codec record chunk → d.IdentifiesChunk chunk ∧
    (d.done = false → ∀ d₁ calls, d.ComesToCalls codec chunk d₁ calls →
      ∀ earlier call later d₂, calls = earlier ++ call :: later →
        sweep recordToolCallDelta d₁ earlier = .ok d₂ → d₂.NamesCall call)

theorem validateChunkIdentity_blames {d : ChatCompletionsDecoder} {chunk : ChatChunk} :
    BlamesResponse (d.validateChunkIdentity chunk) ↔ d.IdentifiesChunk chunk := by
  simp only [validateChunkIdentity, failsWith_bind, failsWith_require, malformedResponse_blames,
    implies_true, true_and, validateIdentifier_blames, require_ok, IdentifiesChunk]
  constructor
  · intro h hobject hmodel hcreated hsize
    exact (h () ⟨hobject, hmodel, hcreated, hsize⟩).1
  · rintro h ⟨⟩ ⟨hobject, hmodel, hcreated, hsize⟩
    refine ⟨h hobject hmodel hcreated hsize, fun _ _ _ _ => ?_⟩
    split <;> simp

theorem recordId_blames {call : ToolCallAccumulator} {id : Option String} :
    BlamesResponse (recordId call id) ↔ ∀ name ∈ id, validIdentifier name maxProviderCallIdBytes := by
  cases id <;> simp [recordId]

theorem recordName_blames {call : ToolCallAccumulator} {name : Option String} :
    BlamesResponse (recordName call name) ↔ ∀ text ∈ name, validToolName text := by
  cases name <;> simp [recordName]

theorem recordArguments_blames (call : ToolCallAccumulator) (arguments : Option String) :
    BlamesResponse (recordArguments call arguments) := by
  cases arguments <;> simp [recordArguments]

theorem recordId_ok {call call' : ToolCallAccumulator} {id : Option String} :
    recordId call id = .ok call' ↔ (∀ name ∈ id, validIdentifier name maxProviderCallIdBytes) ∧
      (∀ name ∈ id, ∀ existing ∈ call.id, existing = name) ∧
      call' = { call with id := id.or call.id } := by
  cases id with
  | none =>
    simp only [recordId, Except.ok.injEq, Option.not_mem_none, false_implies, implies_true,
      Option.none_or, true_and]
    exact eq_comm
  | some name =>
    simp only [recordId, validateIdentifier, bind_ok, require_ok, pure_ok, exists_const,
      Option.mem_some_iff, forall_eq', Option.some_or, eq_comm (b := call')]

theorem recordName_ok {call call' : ToolCallAccumulator} {name : Option String} :
    recordName call name = .ok call' ↔ (∀ text ∈ name, validToolName text) ∧
      (∀ text ∈ name, ∀ existing ∈ call.name, existing = text) ∧
      call' = { call with name := name.or call.name } := by
  cases name with
  | none =>
    simp only [recordName, Except.ok.injEq, Option.not_mem_none, false_implies, implies_true,
      Option.none_or, true_and]
    exact eq_comm
  | some text =>
    simp only [recordName, validateToolName, bind_ok, require_ok, pure_ok, exists_const,
      Option.mem_some_iff, forall_eq', Option.some_or, eq_comm (b := call')]

theorem recordArguments_kept {call call' : ToolCallAccumulator} {arguments : Option String}
    (h : recordArguments call arguments = .ok call') :
    call'.id = call.id ∧ call'.name = call.name := by
  cases arguments with
  | none =>
    obtain rfl := Except.ok.inj h
    exact ⟨rfl, rfl⟩
  | some text =>
    simp only [recordArguments, bind_ok, pure_ok] at h
    obtain ⟨-, -, rfl⟩ := h
    exact ⟨rfl, rfl⟩

theorem recordToolCallDelta_blames {d : ChatCompletionsDecoder} {call : ChatToolCallDelta} :
    BlamesResponse (d.recordToolCallDelta call) ↔ d.NamesCall call := by
  simp only [recordToolCallDelta, failsWith_bind, failsWith_require, malformedResponse_blames,
    implies_true, true_and, require_ok, recordId_blames, recordName_blames, recordArguments_blames,
    failsWith_pure, and_true, recordId_ok, NamesCall]
  constructor
  · intro h hindex htype
    obtain ⟨hid, hname⟩ := h () ⟨hindex, htype⟩
    exact ⟨hid, fun hsame => hname _ ⟨hid, hsame, rfl⟩⟩
  · rintro h ⟨⟩ ⟨hindex, htype⟩
    obtain ⟨hid, hname⟩ := h hindex htype
    exact ⟨hid, fun _ hrecorded => hname hrecorded.2.1⟩

/-- The deltas before the calls are what they are when there are none. -/
theorem processDelta_blames {codec : Codec} {d : ChatCompletionsDecoder} {delta : ChatDelta} :
    BlamesResponse (d.processDelta codec delta) ↔
      ∀ d₁ events, d.processDelta codec { delta with toolCalls := none } = .ok (d₁, events) →
        BlamesResponse (d₁.recordToolCalls (delta.toolCalls.getD [])) := by
  have htext (d : ChatCompletionsDecoder) (text : Option String) (refusal : Bool) :
      BlamesResponse (d.recordText text refusal) := by
    unfold recordText
    split <;> simp [recordTextDelta]
  have hcount (d : ChatCompletionsDecoder) (bytes : Option Nat) :
      BlamesResponse (d.countReasoning bytes) := by
    cases bytes <;> simp [countReasoning]
  have hnone (d : ChatCompletionsDecoder) : d.recordToolCalls (Option.getD none []) = .ok d := rfl
  simp only [processDelta, failsWith_bind, failsWith_require, malformedResponse_blames,
    implies_true, true_and, hcount, htext, failsWith_pure, and_true, bind_ok, pure_ok, hnone,
    Except.ok.injEq, Prod.mk.injEq]
  constructor
  · rintro h d₁ events ⟨_, hrole, _, hcall, a, ha, b, hb, c, hc, ⟨e, content⟩, he, ⟨f, refused⟩, hf,
      _, rfl, rfl, -⟩
    exact h _ hrole _ hcall a ha b hb c hc _ he _ hf
  · rintro h _ hrole _ hcall a ha b hb c hc ⟨e, content⟩ he ⟨f, refused⟩ hf
    exact h f _ ⟨(), hrole, (), hcall, a, ha, b, hb, c, hc, _, he, _, hf, _, rfl, rfl, rfl⟩

theorem processChoices_blames {codec : Codec} {d : ChatCompletionsDecoder} {chunk : ChatChunk} :
    BlamesResponse (d.processChoices codec chunk) ↔
      ∀ choice, d.terminalUsageChoice chunk = false → chunk.choices = [choice] →
        d.finishReason = none → choice.index = 0 → choice.logprobs = none →
        BlamesResponse (d.processDelta codec choice.delta) := by
  have hfinish (d : ChatCompletionsDecoder) (reason : Option String) :
      BlamesResponse (d.recordFinish reason) := by
    cases reason <;> simp [recordFinish]
  unfold processChoices
  cases chunk.choices with
  | nil => simp
  | cons choice rest =>
    simp only [processChoice, failsWith_ite, failsWith_ok, failsWith_bind, failsWith_require,
      malformedResponse_blames, implies_true, true_and, require_ok, hfinish, failsWith_pure,
      and_true, Bool.not_eq_true, Option.isNone_iff_eq_none]
    constructor
    · rintro h choice' hother hchoices hopen hindex hlogprobs
      obtain ⟨rfl, rfl⟩ := List.cons.inj hchoices
      exact h hother () ⟨rfl, hopen⟩ () ⟨hindex, hlogprobs⟩
    · rintro h hother ⟨⟩ ⟨rfl, hopen⟩ ⟨⟩ ⟨hindex, hlogprobs⟩
      exact h choice hother rfl hopen hindex hlogprobs

theorem processChunk_blames {codec : Codec} {d : ChatCompletionsDecoder} {chunk : ChatChunk} :
    BlamesResponse (d.processChunk codec chunk) ↔ d.IdentifiesChunk chunk ∧
      ∀ d₁ calls, d.ComesToCalls codec chunk d₁ calls →
        ∀ earlier call later d₂, calls = earlier ++ call :: later →
          sweep recordToolCallDelta d₁ earlier = .ok d₂ → d₂.NamesCall call := by
  have husage (d : ChatCompletionsDecoder) (usage : Option ChatUsage) :
      BlamesResponse (d.recordUsage usage) := by
    have hcached (usage : ChatUsage) : BlamesResponse (cachedTokens usage) := by
      unfold cachedTokens
      split <;> simp
    cases usage <;> simp [recordUsage, validateUsage, hcached]
  simp only [processChunk, failsWith_bind, validateChunkIdentity_blames, processChoices_blames,
    processDelta_blames, recordToolCalls, failsWith_require, responseLimitExceeded_blames,
    implies_true, true_and, failsWith_sweep, recordToolCallDelta_blames, require_ok, husage,
    failsWith_pure, and_true]
  refine and_congr_right fun _ => ⟨?_, ?_⟩
  · rintro h d₂ _ ⟨d₁, choice, events, hidentity, hother, hchoices, hopen, hindex, hlogprobs,
      hdelta, rfl, hfew⟩
    exact h d₁ hidentity choice hother hchoices hopen hindex hlogprobs d₂ events hdelta () hfew
  · intro h d₁ hidentity choice hother hchoices hopen hindex hlogprobs d₂ events hdelta _ hfew
    exact h d₂ _ ⟨d₁, choice, events, hidentity, hother, hchoices, hopen, hindex, hlogprobs,
      hdelta, rfl, hfew⟩

theorem processTrailer_blames {codec : Codec} {d : ChatCompletionsDecoder} {record : SseRecord}
    (hevent : record.event = none) (hdone : d.done = true) :
    BlamesResponse (d.processTrailer codec record.data) ↔
      ∀ chunk, d.Takes codec record chunk → d.IdentifiesChunk chunk := by
  simp only [processTrailer, failsWith_ite, failsWith_ok, failsWith_bind, failsWith_require,
    failsWith_demand, malformedResponse_blames, responseLimitExceeded_blames, implies_true,
    true_and, require_ok, demand_ok, validateEventValue, failsWith_pure,
    validateChunkIdentity_blames, and_true, Bool.not_eq_true]
  constructor
  · rintro h chunk ⟨-, hmarker, hopen, value, hvalue, hbounds, htrailer, hread⟩
    obtain ⟨nodes, hnodes⟩ := Option.isSome_iff_exists.mp hbounds
    exact h hmarker () (hopen hdone) value hvalue nodes hnodes (htrailer hdone) chunk hread
  · intro h hmarker _ hopen value hvalue nodes hnodes htrailer chunk hread
    exact h chunk ⟨hevent, hmarker, fun _ => hopen, value, hvalue,
      Option.isSome_iff_exists.mpr ⟨nodes, hnodes⟩, fun _ => htrailer, hread⟩

theorem processRecord_blames {codec : Codec} {d : ChatCompletionsDecoder} {record : SseRecord} :
    BlamesResponse (d.processRecord codec record) ↔ d.WellNamed codec record := by
  by_cases hevent : record.event = none
  case neg =>
    refine iff_of_true ?_ fun chunk htakes => absurd htakes.1 hevent
    simp [processRecord, hevent, require]
  case pos =>
  cases hdone : d.done with
  | true =>
    have hrecord : BlamesResponse (d.processRecord codec record) ↔
        BlamesResponse (d.processTrailer codec record.data) := by
      simp [processRecord, hdone, hevent]
    rw [hrecord, processTrailer_blames hevent hdone]
    exact forall₂_congr fun chunk _ => (and_iff_left fun hopen => by simp [hdone] at hopen).symm
  | false =>
    simp only [processRecord, hdone, Bool.false_eq_true, if_false, failsWith_bind,
      failsWith_require, failsWith_demand, failsWith_ite, malformedResponse_blames,
      responseLimitExceeded_blames, incompleteResponse_blames, implies_true, true_and, require_ok,
      demand_ok, validateEventValue, failsWith_pure, processChunk_blames, Bool.not_eq_true]
    constructor
    · rintro h chunk ⟨-, hmarker, -, value, hvalue, hbounds, -, hread⟩
      obtain ⟨nodes, hnodes⟩ := Option.isSome_iff_exists.mp hbounds
      obtain ⟨hidentity, hcalls⟩ :=
        h () (Option.isNone_iff_eq_none.mpr hevent) hmarker value hvalue nodes hnodes chunk hread
      exact ⟨hidentity, fun _ => hcalls⟩
    · intro h _ _ hmarker value hvalue nodes hnodes chunk hread
      obtain ⟨hidentity, hcalls⟩ := h chunk ⟨hevent, hmarker, fun hclosed => by simp [hdone] at hclosed,
        value, hvalue, Option.isSome_iff_exists.mpr ⟨nodes, hnodes⟩,
        fun hclosed => by simp [hdone] at hclosed, hread⟩
      exact ⟨hidentity, hcalls hdone⟩

/-- The identifiers and names that have been recorded are valid. -/
def Named (d : ChatCompletionsDecoder) : Prop :=
  ∀ index call, d.toolCalls.lookup index = some call →
    (∀ id ∈ call.id, validIdentifier id maxProviderCallIdBytes) ∧
      ∀ name ∈ call.name, validToolName name

theorem Named.of_toolCalls {d d' : ChatCompletionsDecoder} (hnamed : d.Named)
    (h : d'.toolCalls = d.toolCalls) : d'.Named := by
  unfold Named
  rw [h]
  exact hnamed

theorem Named.recordToolCallDelta {d d' : ChatCompletionsDecoder} {call : ChatToolCallDelta}
    (hnamed : d.Named) (h : d.recordToolCallDelta call = .ok d') : d'.Named := by
  simp only [ChatCompletionsDecoder.recordToolCallDelta, bind_ok, pure_ok, recordId_ok,
    recordName_ok] at h
  obtain ⟨-, -, _, ⟨hid, -, rfl⟩, _, ⟨hname, -, rfl⟩, final, harguments, rfl⟩ := h
  obtain ⟨hfinalId, hfinalName⟩ := recordArguments_kept harguments
  have hbefore : (∀ id ∈ ((d.toolCalls.lookup call.index).getD {}).id,
        validIdentifier id maxProviderCallIdBytes) ∧
      ∀ name ∈ ((d.toolCalls.lookup call.index).getD {}).name, validToolName name := by
    cases hlookup : d.toolCalls.lookup call.index with
    | none => simp
    | some before => exact hnamed call.index before hlookup
  intro index entry hentry
  by_cases hindex : index = call.index
  case neg => exact hnamed index entry (by rwa [AList.lookup_insert_ne hindex] at hentry)
  case pos =>
  subst hindex
  rw [AList.lookup_insert] at hentry
  obtain rfl := Option.some.inj hentry
  rw [hfinalId, hfinalName]
  refine ⟨fun id hmem => ?_, fun name hmem => ?_⟩
  · rcases Option.or_eq_some_iff.mp hmem with hnow | ⟨-, hthen⟩
    · exact hid id hnow
    · exact hbefore.1 id hthen
  · rcases Option.or_eq_some_iff.mp hmem with hnow | ⟨-, hthen⟩
    · exact hname name hnow
    · exact hbefore.2 name hthen

theorem Named.processDelta {codec : Codec} {d d' : ChatCompletionsDecoder} {delta : ChatDelta}
    {events : List TextDelta} (hnamed : d.Named)
    (h : d.processDelta codec delta = .ok (d', events)) : d'.Named := by
  simp only [ChatCompletionsDecoder.processDelta, recordToolCalls, bind_ok, pure_ok, Prod.exists,
    Prod.mk.injEq] at h
  obtain ⟨-, -, -, -, d₁, h₁, d₂, h₂, d₃, h₃, d₄, _, h₄, d₅, _, h₅, d₆, ⟨-, -, h₆⟩, rfl, -⟩ := h
  refine sweep_keeps _ Named _ (fun _ _ _ _ hs ht => hs.recordToolCallDelta ht) d₅ d₆ ?_ h₆
  refine hnamed.of_toolCalls ?_
  rw [(recordText_kept h₅).2, (recordText_kept h₄).2, (countReasoning_kept h₃).2,
    (countReasoning_kept h₂).2, (countReasoning_kept h₁).2]

theorem Named.processChunk {codec : Codec} {d d' : ChatCompletionsDecoder} {chunk : ChatChunk}
    {events : List TextDelta} (hnamed : d.Named)
    (h : d.processChunk codec chunk = .ok (d', events)) : d'.Named := by
  simp only [ChatCompletionsDecoder.processChunk, bind_ok, pure_ok, Prod.exists,
    Prod.mk.injEq] at h
  obtain ⟨d₁, hidentity, d₂, _, hchoices, d₃, husage, rfl, -⟩ := h
  have hnamed₁ : d₁.Named := hnamed.of_toolCalls (validateChunkIdentity_kept hidentity).2
  have hnamed₂ : d₂.Named := by
    unfold processChoices at hchoices
    split at hchoices
    · simp only [bind_ok, pure_ok, Prod.mk.injEq] at hchoices
      obtain ⟨-, -, rfl, -⟩ := hchoices
      exact hnamed₁
    split at hchoices
    · obtain ⟨rfl, -⟩ := Prod.mk.inj (Except.ok.inj hchoices)
      exact hnamed₁
    · simp only [processChoice, bind_ok, pure_ok, Prod.exists, Prod.mk.injEq] at hchoices
      obtain ⟨-, -, -, -, d₄, _, hdelta, d₅, hfinish, rfl, -⟩ := hchoices
      refine (hnamed₁.processDelta hdelta).of_toolCalls ?_
      unfold recordFinish at hfinish
      split at hfinish
      · obtain rfl := Except.ok.inj hfinish
        rfl
      · simp only [bind_ok, pure_ok] at hfinish
        obtain ⟨-, -, rfl⟩ := hfinish
        rfl
  refine hnamed₂.of_toolCalls ?_
  unfold recordUsage at husage
  split at husage
  · obtain rfl := Except.ok.inj husage
    rfl
  · simp only [bind_ok, pure_ok] at husage
    obtain ⟨-, -, -, -, rfl⟩ := husage
    rfl

theorem Named.step {codec : Codec} {d d' : ChatCompletionsDecoder} {record : SseRecord}
    {events : List TextDelta} (hnamed : d.Named)
    (h : processRecord codec d record = .ok (d', events)) : d'.Named := by
  simp only [processRecord, bind_ok] at h
  obtain ⟨-, -, h⟩ := h
  split at h
  · simp only [bind_ok, pure_ok, Prod.mk.injEq] at h
    obtain ⟨d₁, htrailer, rfl, -⟩ := h
    exact hnamed.of_toolCalls (processTrailer_kept htrailer).2
  split at h
  · simp only [bind_ok, pure_ok, Prod.mk.injEq] at h
    obtain ⟨-, -, rfl, -⟩ := h
    exact hnamed
  · simp only [bind_ok] at h
    obtain ⟨value, -, nodes, -, chunk, -, hchunk⟩ := h
    exact hnamed.processChunk hchunk

theorem finish_blames {codec : Codec} {d : ChatCompletionsDecoder} (hnamed : d.Named) :
    BlamesResponse (d.finish codec) := by
  have hreason (reason : String) (calls : Bool) : BlamesResponse (checkFinishReason reason calls) := by
    simp [checkFinishReason]
  have hcalls : ∀ call ∈ d.orderedCalls.zipIdx, BlamesResponse (finishCall codec call.1.2) := by
    rintro ⟨⟨index, call⟩, place⟩ hmem
    have hordered : (index, call) ∈ d.toolCalls.entries.map fun e => (e.1, e.2) :=
      (List.mem_insertionSort _).mp (List.fst_mem_of_mem_zipIdx hmem)
    obtain ⟨⟨_, _⟩, hentry, heq⟩ := List.mem_map.mp hordered
    obtain ⟨rfl, rfl⟩ := Prod.mk.inj heq
    obtain ⟨hid, hname⟩ := hnamed _ _ (AList.mem_lookup_iff.mpr hentry)
    simp only [finishCall, failsWith_bind, failsWith_demand, failsWith_require,
      incompleteResponse_blames, malformedResponse_blames, implies_true, true_and, demand_ok,
      validateIdentifier_blames, validateToolName_blames, failsWith_pure, and_true]
    exact fun id hsome name hnamed => ⟨hid id hsome, fun _ _ => hname name hnamed⟩
  simp only [finish, failsWith_bind, failsWith_demand, failsWith_require,
    incompleteResponse_blames, malformedResponse_blames, implies_true, true_and, hreason,
    failsWith_pure, and_true]
  intro _ _ _ _ _ _ _ _ _ _ _ _
  refine failsWith_mapM fun call hcall => ?_
  simpa using fun _ => hcalls call hcall

theorem decode_blames (codec : Codec) (expectedModel : String)
    (maximumInputTokens maximumOutputTokens : Nat) (chunks : List (List UInt8)) :
    BlamesResponse
        ((decoding codec expectedModel maximumInputTokens maximumOutputTokens).decode chunks) ↔
      ∀ d record, (decoding codec expectedModel maximumInputTokens maximumOutputTokens).Comes
        chunks d record → d.WellNamed codec record := by
  rw [Decoding.decode_blames (P := Named) (fun _ _ h => by cases h)
    (fun _ _ _ _ h hnamed => hnamed.step h) fun _ => finish_blames]
  exact forall₂_congr fun d record => forall_congr' fun _ => processRecord_blames

end ChatCompletionsDecoder

/-! ## The Anthropic Messages stream -/

namespace AnthropicMessagesDecoder

open Anthropic

/-- The identifier that a message starts with is valid. -/
def NamesMessage (d : AnthropicMessagesDecoder) (value : Json) : Prop :=
  d.state = .awaitingMessageStart → ∀ message, readMessageStart value = some message →
    validIdentifier message.id maxProviderIdentifierBytes

/-- The identifier and the name of a call that a block starts with are valid. -/
def NamesCall (d : AnthropicMessagesDecoder) (value : Json) : Prop :=
  d.state = .content → d.activeBlock = none →
    ∀ block start, readContentBlockStart value = some (d.nextBlockIndex, block) →
      d.nextBlockIndex < maxToolCount * 2 → (block.get "type").bind Json.asString = some "tool_use" →
      ToolUseBlockStart.read block = some start →
      validIdentifier start.id maxProviderCallIdBytes ∧ validToolName start.name

/-- The identifier made for a text that ends is valid. -/
def NamesText (d : AnthropicMessagesDecoder) (value : Json) : Prop :=
  d.state = .content → ∀ index text responseId, readContentBlockStop value = some index →
    d.activeBlock = some (.text index text) → text ≠ "" → d.responseId = some responseId →
    validIdentifier (responseId ++ ":" ++ toString index) maxProviderIdentifierBytes

/-- No identifier or name that the decoder checks in a record is refused. -/
def WellNamed (codec : Codec) (d : AnthropicMessagesDecoder) (record : SseRecord) : Prop :=
  ∀ value, codec.parse record.data = some value →
    (value.count (eventBounds maxAccumulatedTextBytes) 0 0).isSome →
    (value.get "type").bind Json.asString = record.event →
    (record.event = some "message_start" → d.NamesMessage value) ∧
    (record.event = some "content_block_start" → d.NamesCall value) ∧
    (record.event = some "content_block_stop" → d.NamesText value)

theorem checkedSum_blames (a b c : Nat) : BlamesResponse (checkedSum a b c) := by
  simp [checkedSum]

theorem messageStart_blames {d : AnthropicMessagesDecoder} {value : Json} :
    BlamesResponse (d.messageStart value) ↔ d.NamesMessage value := by
  simp only [messageStart, failsWith_bind, failsWith_require, failsWith_demand,
    malformedResponse_blames, implies_true, true_and, require_ok, demand_ok,
    validateIdentifier_blames, validateUsageMetadata, checkedSum_blames, failsWith_pure, and_true,
    NamesMessage]
  exact ⟨fun h hstate => h () hstate, fun h _ => h⟩

theorem startBlock_blames {index : Nat} {block : Json} :
    BlamesResponse (startBlock index block) ↔
      ∀ start, (block.get "type").bind Json.asString = some "tool_use" →
        ToolUseBlockStart.read block = some start →
        validIdentifier start.id maxProviderCallIdBytes ∧ validToolName start.name := by
  simp only [startBlock, failsWith_bind, failsWith_require, failsWith_demand, failsWith_ite,
    failsWith_throw, malformedResponse_blames, implies_true, true_and, demand_ok, and_true,
    validateIdentifier_blames, validateToolName_blames, failsWith_pure]
  constructor
  · intro h start htype hread
    obtain ⟨hid, hname⟩ := h _ htype (by decide) rfl start hread
    exact ⟨hid, hname () ((require_ok _ _ _).mpr hid)⟩
  · rintro h _ htype _ rfl start hread
    exact ⟨(h start htype hread).1, fun _ _ => (h start htype hread).2⟩

theorem contentBlockStart_blames {d : AnthropicMessagesDecoder} {value : Json} :
    BlamesResponse (d.contentBlockStart value) ↔ d.NamesCall value := by
  simp only [contentBlockStart, failsWith_bind, failsWith_require, failsWith_demand,
    malformedResponse_blames, implies_true, true_and, require_ok, demand_ok, startBlock_blames,
    failsWith_pure, and_true, NamesCall, Prod.forall]
  constructor
  · intro h hstate hactive block start hread hfew
    exact h () ⟨hstate, hactive⟩ _ block hread () ⟨rfl, hfew⟩ start
  · rintro h _ ⟨hstate, hactive⟩ index block hread _ ⟨rfl, hfew⟩ start
    exact h hstate hactive block start hread hfew

theorem contentBlockStop_blames {codec : Codec} {d : AnthropicMessagesDecoder} {value : Json} :
    BlamesResponse (d.contentBlockStop codec value) ↔ d.NamesText value := by
  have hblock (d : AnthropicMessagesDecoder) (block : ActiveBlock) :
      BlamesResponse (d.finishBlock codec block) ↔
        ∀ index text responseId, block = .text index text → text ≠ "" →
          d.responseId = some responseId →
          validIdentifier (responseId ++ ":" ++ toString index) maxProviderIdentifierBytes := by
    cases block with
    | text index text =>
      simp only [finishBlock, contentItemId, failsWith_ite, failsWith_ok, failsWith_bind,
        failsWith_demand, failsWith_require, malformedResponse_blames, implies_true, true_and,
        demand_ok, validateIdentifier_blames, failsWith_pure, and_true, ActiveBlock.text.injEq]
      constructor
      · rintro h _ _ responseId ⟨rfl, rfl⟩ htext hid
        exact h htext responseId hid
      · intro h htext responseId hid
        exact h index text responseId ⟨rfl, rfl⟩ htext hid
    | toolUse index id name arguments => simp [finishBlock]
    | thinking index bytes => simp [finishBlock]
  simp only [contentBlockStop, failsWith_bind, failsWith_require, failsWith_demand,
    malformedResponse_blames, responseLimitExceeded_blames, implies_true, true_and, require_ok,
    demand_ok, hblock, failsWith_pure, and_true, NamesText, Option.filter_eq_some_iff,
    decide_eq_true_eq]
  constructor
  · intro h hstate index text responseId hread hactive htext hid
    exact h () hstate index hread _ ⟨hactive, rfl⟩ index text responseId rfl htext hid
  · rintro h _ hstate index hread _ ⟨hactive, hindex⟩ _ text responseId rfl htext hid
    obtain rfl : _ = index := hindex
    exact h hstate _ text responseId hread hactive htext hid

theorem contentBlockDelta_blames (d : AnthropicMessagesDecoder) (value : Json) :
    BlamesResponse (d.contentBlockDelta value) := by
  have hdelta (block : ActiveBlock) (delta : Json) : BlamesResponse (applyDelta block delta) := by
    cases block <;> simp [applyDelta, appendBounded, addIgnoredBytes]
  simp only [contentBlockDelta, failsWith_bind, failsWith_require, failsWith_demand,
    malformedResponse_blames, implies_true, true_and, hdelta]
  intro _ _ _ _ _ _ step _
  split <;> simp

theorem messageDelta_blames (d : AnthropicMessagesDecoder) (value : Json) :
    BlamesResponse (d.messageDelta value) := by
  simp [messageDelta, validateDeltaUsage, validateInputTokenCount, checkedSum_blames]

theorem finish_blames (d : AnthropicMessagesDecoder) : BlamesResponse d.finish := by
  simp [finish, checkStopReason]

theorem processEvent_blames {codec : Codec} {d : AnthropicMessagesDecoder} {value : Json}
    {event : StreamEvent} :
    BlamesResponse (d.processEvent codec value event) ↔
      (event = .messageStart → d.NamesMessage value) ∧
      (event = .contentBlockStart → d.NamesCall value) ∧
      (event = .contentBlockStop → d.NamesText value) := by
  cases event <;>
    simp [processEvent, validateCosted, messageStart_blames, contentBlockStart_blames,
      contentBlockDelta_blames, contentBlockStop_blames, messageDelta_blames, messageStop]

theorem StreamEvent.ofType_named {eventType : String} {event : StreamEvent}
    (h : StreamEvent.ofType eventType = some event) :
    (event = .messageStart ↔ eventType = "message_start") ∧
      (event = .contentBlockStart ↔ eventType = "content_block_start") ∧
      (event = .contentBlockStop ↔ eventType = "content_block_stop") := by
  unfold StreamEvent.ofType at h
  split at h
  case h_9 => cases h
  all_goals
    obtain rfl := Option.some.inj h
    decide

theorem processRecord_blames {codec : Codec} {d : AnthropicMessagesDecoder} {record : SseRecord} :
    BlamesResponse (d.processRecord codec record) ↔ d.WellNamed codec record := by
  simp only [processRecord, failsWith_bind, failsWith_require, failsWith_demand,
    malformedResponse_blames, responseLimitExceeded_blames, implies_true, true_and, require_ok,
    demand_ok, validateEventValue, processEvent_blames, WellNamed]
  constructor
  · intro h value hvalue hbounds htype
    obtain ⟨nodes, hnodes⟩ := Option.isSome_iff_exists.mp hbounds
    have hevent (eventType : String) (hrecord : record.event = some eventType) :=
      h value hvalue nodes hnodes eventType (htype.trans hrecord) () hrecord
    exact ⟨fun hrecord => (hevent _ hrecord .messageStart rfl).1 rfl,
      fun hrecord => (hevent _ hrecord .contentBlockStart rfl).2.1 rfl,
      fun hrecord => (hevent _ hrecord .contentBlockStop rfl).2.2 rfl⟩
  · intro h value hvalue nodes hnodes eventType htype _ hrecord event hevent
    obtain ⟨hstart, hcall, hstop⟩ := StreamEvent.ofType_named hevent
    rw [hstart, hcall, hstop]
    have := h value hvalue (Option.isSome_iff_exists.mpr ⟨nodes, hnodes⟩) (htype.trans hrecord.symm)
    simpa [hrecord] using this

theorem decode_blames (codec : Codec) (expectedModel : String)
    (maximumInputTokens maximumOutputTokens : Nat) (chunks : List (List UInt8)) :
    BlamesResponse
        ((decoding codec expectedModel maximumInputTokens maximumOutputTokens).decode chunks) ↔
      ∀ d record, (decoding codec expectedModel maximumInputTokens maximumOutputTokens).Comes
        chunks d record → d.WellNamed codec record := by
  rw [Decoding.decode_blames (P := fun _ => True) trivial (fun _ _ _ _ _ _ => trivial)
    fun d _ => finish_blames d]
  exact forall₂_congr fun d record => forall_congr' fun _ => processRecord_blames

end AnthropicMessagesDecoder

end Morons.Provider
