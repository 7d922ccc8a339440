import Morons.Operation
import Morons.Provider.Usage
import Morons.Run.Usage

/-!
# Accepted usage is observable

What a decoder accepts is written with the operation and read back as the usage
of a context.  The reader asks more than the Responses decoder does: there
`usage_observable` holds exactly when the cached and the written tokens that the
response reports fit its input together.
-/

namespace Morons

open Attempt Provider

/-! ## Decoders -/

/-- A stream decoder for a model, native or not where that matters. -/
inductive StreamDecoder
  | responses (expectedModel : String)
  | responsesNative (expectedModel : String)
  | chatCompletions (expectedModel : String)
  | anthropicMessages (expectedModel : String)
  | gemini

namespace StreamDecoder

def decode (codec : Codec) (maximumInputTokens maximumOutputTokens : Nat)
    (chunks : List (List UInt8)) :
    StreamDecoder → Except ProviderError (Outcome × List TextDelta)
  | responses expectedModel =>
    (ResponsesDecoder.decoding codec
      (.new expectedModel maximumInputTokens maximumOutputTokens)).decode chunks
  | responsesNative expectedModel =>
    (ResponsesDecoder.decoding codec
      (.newNative expectedModel maximumInputTokens maximumOutputTokens)).decode chunks
  | chatCompletions expectedModel =>
    (ChatCompletionsDecoder.decoding codec expectedModel maximumInputTokens
      maximumOutputTokens).decode chunks
  | anthropicMessages expectedModel =>
    (AnthropicMessagesDecoder.decoding codec expectedModel maximumInputTokens
      maximumOutputTokens).decode chunks
  | gemini =>
    (GeminiDecoder.decoding codec maximumInputTokens maximumOutputTokens).decode chunks

def isResponses : StreamDecoder → Bool
  | responses _ | responsesNative _ => true
  | _ => false

/-- The records of a stream. -/
def recordsOf (chunks : List (List UInt8)) : List SseRecord :=
  match SseDecoder.push {} chunks.flatten with
  | .ok (_, records) => records
  | .error _ => []

/-- What the records of a Responses stream report as cached and as written fits
the input they report. -/
def ReportsFitting (codec : Codec) (chunks : List (List UInt8)) (decoder : StreamDecoder) : Prop :=
  decoder.isResponses = true →
    ∀ wire ∈ (recordsOf chunks).filterMap (ResponsesDecoder.completedUsage codec),
      wire.cachedTokens + wire.cacheWriteTokens ≤ wire.inputTokens

end StreamDecoder

theorem responses_fitting {codec : Codec} {start : ResponsesDecoder}
    (hfresh : ResponsesDecoder.Fresh start) {chunks : List (List UInt8)} {outcome : Outcome}
    {events : List TextDelta}
    (h : (ResponsesDecoder.decoding codec start).decode chunks = .ok (outcome, events)) :
    Coherent outcome.usage ∧ (Fitting outcome.usage ↔
      ∀ wire ∈ (StreamDecoder.recordsOf chunks).filterMap (ResponsesDecoder.completedUsage codec),
        wire.cachedTokens + wire.cacheWriteTokens ≤ wire.inputTokens) := by
  obtain ⟨sse, records, wire, hframe, hreported, hcoherent, hcached, hwrite, hinput⟩ :=
    ResponsesDecoder.decode_usage hfresh h
  have hrecords : StreamDecoder.recordsOf chunks = records := by
    rw [StreamDecoder.recordsOf, hframe]
  refine ⟨hcoherent, ?_⟩
  rw [hrecords, hreported, Fitting, hcached, hwrite, hinput]
  simp

/-- **What a decoder accepts.**  The counts are coherent, and fit but for what a
Responses stream reports. -/
theorem decoded_usage {codec : Codec} {maximumInput maximumOutput : Nat}
    {chunks : List (List UInt8)} {decoder : StreamDecoder} {outcome : Outcome}
    {events : List TextDelta}
    (h : decoder.decode codec maximumInput maximumOutput chunks = .ok (outcome, events)) :
    Coherent outcome.usage ∧ (Fitting outcome.usage ↔ decoder.ReportsFitting codec chunks) := by
  have hother : decoder.isResponses = false → Coherent outcome.usage ∧ Fitting outcome.usage →
      Coherent outcome.usage ∧ (Fitting outcome.usage ↔ decoder.ReportsFitting codec chunks) := by
    rintro hkind ⟨hcoherent, hfitting⟩
    refine ⟨hcoherent, fun _ hresponses => ?_, fun _ => hfitting⟩
    rw [hkind] at hresponses
    cases hresponses
  cases decoder with
  | responses expectedModel =>
    obtain ⟨hcoherent, hfitting⟩ := responses_fitting ⟨rfl, rfl⟩ h
    exact ⟨hcoherent, hfitting.trans ⟨fun hreport _ => hreport, fun hreport => hreport rfl⟩⟩
  | responsesNative expectedModel =>
    obtain ⟨hcoherent, hfitting⟩ := responses_fitting ⟨rfl, rfl⟩ h
    exact ⟨hcoherent, hfitting.trans ⟨fun hreport _ => hreport, fun hreport => hreport rfl⟩⟩
  | chatCompletions expectedModel => exact hother rfl (ChatCompletionsDecoder.decode_usage h)
  | anthropicMessages expectedModel => exact hother rfl (AnthropicMessagesDecoder.decode_usage h)
  | gemini => exact hother rfl (GeminiDecoder.decode_usage h)

/-! ## Rows -/

/-- A usage commits, and no context is unreadable for its row. -/
structure Observable (usage : ProviderUsage) : Prop where
  committed : ∀ s factSequence operationId runId responseId now, ∃ t,
    insertProviderCompleted s factSequence operationId runId responseId usage now = .ok t
  readable : ∀ s, Reachable Any s → ∀ factSequence operationId runId responseId now t,
    insertProviderCompleted s factSequence operationId runId responseId usage now = .ok t →
    ∀ env sessionId selection checkpoint through skills project prepared completed,
      sampleContextUsage t sessionId selection checkpoint through = some (prepared, completed) →
      completed.completion = some ⟨responseId, usage⟩ →
      observeContextUsage env t sessionId selection checkpoint through skills project ≠
        .error inconsistentObservation

theorem Provider.Coherent.committed {usage : ProviderUsage} (h : Coherent usage) (s : Store)
    (factSequence : Nat) (operationId : ProviderOperationId) (runId : RunId) (responseId : String)
    (now : Nat) : ∃ t,
      insertProviderCompleted s factSequence operationId runId responseId usage now = .ok t := by
  have hmax : 2 * maxUsageTokens ≤ maxInteger := by decide
  have := h.total
  have := h.bounded
  have := h.cached
  have := h.cacheWrite
  have := h.reasoning
  have hsql : usageToSql usage = .ok () := by
    rw [usageToSql, require_ok]
    omega
  simp [insertProviderCompleted, hsql]

theorem insertProviderCompleted_row {s t : Store} {factSequence : Nat}
    {operationId : ProviderOperationId} {runId : RunId} {responseId : String}
    {usage : ProviderUsage} {now : Nat}
    (h : insertProviderCompleted s factSequence operationId runId responseId usage now = .ok t) :
    ∃ row, t = { s with providerOperationFacts := row :: s.providerOperationFacts } ∧
      row.factKind = .completed ∧ row.runId = runId ∧ row.operationId = operationId ∧
      row.completion = some ⟨responseId, usage⟩ := by
  simp only [insertProviderCompleted, bind_ok, pure_ok] at h
  obtain ⟨-, -, rfl⟩ := h
  exact ⟨_, rfl, rfl, rfl, rfl, rfl⟩

/-- A run whose first model operation is under way. -/
def askedRun : Store := executed <|
  createSession (.open 10) 1 "/work" ++
    [submitInput (.open 10) 2 1 "go", (.open 10, .activateRun 4),
      (.open 10, .prepareProviderOperation 4 1 100), (.open 10, .markProviderDispatched 4 9)]

theorem askedRun_reachable : Reachable Any askedRun := reachable_executed_any (by decide +kernel)

/-- The model that run asks. -/
def askedModel : ContextModel := ⟨.go, "model", 1⟩

/-- Nothing has completed the one operation prepared for that model. -/
theorem askedRun_prepared : ∃ prepared,
    askedRun.providerOperationFacts.filter (fun f => decide (f.runId ∈ recentRuns askedRun 1) &&
      observes askedModel 0 3 f) = [prepared] ∧ prepared.preparation.isSome = true ∧
      prepared.runId = 4 ∧ prepared.operationId = 9 ∧
      ∀ f ∈ askedRun.providerOperationFacts, f.operationId = 9 → f.factKind ≠ .completed := by
  refine ⟨(askedRun.providerOperationFacts.find? fun f => f.factKind = .prepared).get ?_, ?_⟩
  · decide +kernel
  · decide +kernel

/-- What is committed of counts that agree, but do not fit, is unreadable in the run's context. -/
theorem unreadable_of_unfitting {usage : ProviderUsage} (hcoherent : Coherent usage)
    (hunfit : ¬ Fitting usage) : ∃ t skills project prepared completed,
      insertProviderCompleted askedRun 100 9 4 "response" usage 10 = .ok t ∧
      sampleContextUsage t 1 askedModel none 3 = some (prepared, completed) ∧
      completed.completion = some ⟨"response", usage⟩ ∧
      observeContextUsage (.open 10) t 1 askedModel none 3 skills project =
        .error inconsistentObservation := by
  have hmax : 2 * maxUsageTokens ≤ maxInteger := by decide
  have hbounded := hcoherent.bounded
  obtain ⟨t, ht⟩ := hcoherent.committed askedRun 100 9 4 "response" 10
  obtain ⟨row, rfl, hkind, hrow, hrowOperation, hcompletion⟩ := insertProviderCompleted_row ht
  obtain ⟨prepared, hprepared, hbound, hrun, hoperation, hnone⟩ := askedRun_prepared
  obtain ⟨binding, hbinding⟩ := Option.isSome_iff_exists.mp hbound
  obtain ⟨skills, hskills⟩ : ∃ skills, loadRunSkills askedRun 4 = .ok skills :=
    ⟨[], by decide +kernel⟩
  obtain ⟨project, hproject⟩ : ∃ project, loadRunProject askedRun 4 = .ok project :=
    ⟨some {}, by decide +kernel⟩
  have hread := sampleContextUsage_insert (t := { askedRun with
    providerOperationFacts := row :: askedRun.providerOperationFacts }) (c := none) hkind
    (hrow.trans hrun.symm) (hrowOperation.trans hoperation.symm) rfl hprepared
    (hoperation ▸ hnone)
  refine ⟨_, skills, project, prepared, row, ht, hread, hcompletion, ?_⟩
  refine observeContextUsage_inconsistent hread ?_ ?_ hbinding hcompletion ?_
  · rw [hrun]
    exact hskills
  · rw [hrun]
    exact hproject
  · rw [Ne, checkUsage_ok (by simp only; omega)]
    exact fun h => hunfit h.2

theorem Provider.Coherent.observable {usage : ProviderUsage} (h : Coherent usage) :
    Observable usage ↔ Fitting usage := by
  have hmax : 2 * maxUsageTokens ≤ maxInteger := by decide
  have hbounded := h.bounded
  constructor
  · intro hobservable
    by_contra hunfit
    obtain ⟨t, skills, project, prepared, completed, ht, hsample, hcompletion, hread⟩ :=
      unreadable_of_unfitting h hunfit
    exact hobservable.readable askedRun askedRun_reachable _ _ _ _ _ t ht _ _ _ _ _ _ _ _ _
      hsample hcompletion hread
  · intro hfitting
    refine ⟨h.committed, fun s _ _ _ _ _ _ t _ env _ _ _ _ _ _ _ _ hsample hcompletion => ?_⟩
    refine observeContextUsage_consistent hsample hcompletion ?_
    rw [checkUsage_ok (by simp only; omega)]
    exact ⟨h.total, hfitting⟩

/-- **Accepted usage is observable**, unless a Responses stream reports cached
and written tokens that exceed its input together. -/
theorem usage_observable {codec : Codec} {maximumInput maximumOutput : Nat}
    {chunks : List (List UInt8)} {decoder : StreamDecoder} {outcome : Outcome}
    {events : List TextDelta}
    (h : decoder.decode codec maximumInput maximumOutput chunks = .ok (outcome, events)) :
    Observable outcome.usage ↔ decoder.ReportsFitting codec chunks := by
  obtain ⟨hcoherent, hreports⟩ := decoded_usage h
  rw [hcoherent.observable, hreports]

/-! ## A response that is accepted and cannot be read -/

/-- The text of a value without fractions and without characters to escape. -/
def plainBytes : Json → List UInt8
  | .null => bytesOf "null"
  | .bool value => bytesOf (toString value)
  | .natural value => bytesOf (toString value)
  | .negative magnitude => bytesOf "-" ++ bytesOf (toString magnitude)
  | .fraction _ => []
  | .string value => bytesOf "\"" ++ bytesOf value ++ bytesOf "\""
  | .array values => bytesOf "[" ++ plainItems values ++ bytesOf "]"
  | .object members => bytesOf "\x7b" ++ plainMembers members ++ bytesOf "\x7d"
where
  plainItems : List Json → List UInt8
    | [] => []
    | [value] => plainBytes value
    | value :: rest => plainBytes value ++ bytesOf "," ++ plainItems rest
  plainMembers : List (String × Json) → List UInt8
    | [] => []
    | [(name, value)] => bytesOf "\"" ++ bytesOf name ++ bytesOf "\":" ++ plainBytes value
    | (name, value) :: rest =>
      bytesOf "\"" ++ bytesOf name ++ bytesOf "\":" ++ plainBytes value ++ bytesOf "," ++
        plainMembers rest

/-- A codec that knows the texts of some values. -/
def plainCodec (values : List Json) : Codec where
  parse bytes := values.find? fun value => plainBytes value = bytes
  encode value := String.ofList ((plainBytes value).map fun byte => Char.ofNat byte.toNat)
  costText _ := false
  callDigest _ _ := "0123456789abcdef0123456789abcdef"

/-- The events as data lines of a stream. -/
def plainStream (values : List Json) : List UInt8 :=
  (values.map plainBytes).flatMap SseBuffer.dataRecord

/-- A response to a request of 100 tokens, with what was read from a cache and written to it. -/
def cachingResponse (cached written : Nat) : List Json :=
  let identity (status : String) : List (String × Json) :=
    [("id", .string "resp_1"), ("object", .string "response"), ("status", .string status)]
  [.object [("type", .string "response.created"), ("sequence_number", .natural 0),
      ("response", .object (identity "in_progress"))],
    .object [("type", .string "response.completed"), ("sequence_number", .natural 1),
      ("response", .object (identity "completed" ++ [("model", .string "model"),
        ("output", .array [.object [("type", .string "message"), ("id", .string "msg_1"),
          ("role", .string "assistant"), ("status", .string "completed"),
          ("content", .array [.object [("type", .string "output_text"),
            ("text", .string "done"), ("annotations", .array [])]])]]),
        ("usage", .object [("input_tokens", .natural 100),
          ("input_tokens_details", .object [("cached_tokens", .natural cached),
            ("cache_write_tokens", .natural written)]),
          ("output_tokens", .natural 10),
          ("output_tokens_details", .object [("reasoning_tokens", .natural 0)]),
          ("total_tokens", .natural 110)])]))]]

/-- The outcome of that response. -/
def cachingOutcome (cached written : Nat) : Outcome :=
  ⟨"resp_1", [.assistantMessage ⟨"msg_1", none, "done", false⟩],
    ⟨100, cached, written, 10, 0, 110⟩⟩

/-- A response of cached and written tokens that fit the input together, to which
`usage_observable` applies. -/
theorem usage_observable_fitting :
    (StreamDecoder.responses "model").decode (plainCodec (cachingResponse 60 30)) 96000 32000
      [plainStream (cachingResponse 60 30)] = .ok (cachingOutcome 60 30, []) ∧
    Observable (cachingOutcome 60 30).usage := by
  have haccepted : (StreamDecoder.responses "model").decode (plainCodec (cachingResponse 60 30))
      96000 32000 [plainStream (cachingResponse 60 30)] = .ok (cachingOutcome 60 30, []) :=
    Decoding.decode_lines (by decide +kernel) (by decide +kernel) (by decide +kernel)
  refine ⟨haccepted, (usage_observable haccepted).mpr ?_⟩
  exact (decoded_usage haccepted).2.mp (by simp [Fitting, cachingOutcome])

/-- The run succeeds with 60 tokens read from a cache and 60 written to it. -/
def overlappingRun : Store := executed <|
  createSession (.open 10) 1 "/work" ++
    [submitInput (.open 10) 2 1 "go", (.open 10, .activateRun 4),
      (.open 10, .prepareProviderOperation 4 1 100), (.open 10, .markProviderDispatched 4 9),
      (.open 10, .completeRunSuccess 4 9
        ⟨"done", false, "resp_1", (cachingOutcome 60 60).usage⟩)]

/-- The decoder accepts that response, the run succeeds with it, and from then on the usage of
the session is unreadable. -/
theorem overlapping_unreadable :
    (StreamDecoder.responses "model").decode (plainCodec (cachingResponse 60 60)) 96000 32000
      [plainStream (cachingResponse 60 60)] = .ok (cachingOutcome 60 60, []) ∧
    Reachable Any overlappingRun ∧
    (sampleContextUsage overlappingRun 1 askedModel none 3).map (·.2.completion) =
      some (some ⟨"resp_1", (cachingOutcome 60 60).usage⟩) ∧
    observeContextUsage (.open 10) overlappingRun 1 askedModel none 3 [] (some {}) =
      .error inconsistentObservation ∧
    ¬ Observable (cachingOutcome 60 60).usage := by
  have haccepted : (StreamDecoder.responses "model").decode (plainCodec (cachingResponse 60 60))
      96000 32000 [plainStream (cachingResponse 60 60)] = .ok (cachingOutcome 60 60, []) :=
    Decoding.decode_lines (by decide +kernel) (by decide +kernel) (by decide +kernel)
  refine ⟨haccepted, reachable_executed_any (by decide +kernel), by decide +kernel,
    by decide +kernel, ?_⟩
  rw [(decoded_usage haccepted).1.observable]
  simp [Fitting, cachingOutcome]

end Morons
