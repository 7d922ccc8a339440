import Morons.Provider.AnthropicMessages
import Morons.Provider.ChatCompletions
import Morons.Provider.Gemini
import Morons.Provider.Responses

/-!
# The usage of an outcome

Each decoder takes the usage of its outcome from other fields of its records.
What the four have in common is `Coherent`; that the cached and the written
tokens fit the input together is `Fitting`, which the Responses decoder alone
does not check.
-/

namespace Morons.Provider

open Attempt

/-- The counts of a usage agree, but for the cached and written tokens together. -/
structure Coherent (u : ProviderUsage) : Prop where
  total : u.inputTokens + u.outputTokens = u.totalTokens
  bounded : u.totalTokens ≤ 2 * maxUsageTokens
  cached : u.cachedInputTokens ≤ u.inputTokens
  cacheWrite : u.cacheWriteInputTokens ≤ u.inputTokens
  reasoning : u.reasoningOutputTokens ≤ u.outputTokens

/-- The cached and written tokens are of the input, both together. -/
def Fitting (u : ProviderUsage) : Prop :=
  u.cachedInputTokens + u.cacheWriteInputTokens ≤ u.inputTokens

theorem checkedAdd_eq {a b c : Nat} (h : checkedAdd a b = some c) : a + b = c := by
  unfold checkedAdd at h
  split at h
  · exact Option.some.inj h
  · cases h

/-! ## Responses -/

namespace ResponsesDecoder

open Responses

/-- The usage that a record of a completed response reports. -/
def completedUsage (codec : Codec) (record : SseRecord) : Option WireUsage :=
  if record.event = some "ping" ∨ record.data = bytesOf "[DONE]" then none
  else do
    let value ← codec.parse record.data
    let envelope ← EventEnvelope.read value
    if envelope.eventType = "response.completed" then
      let response ← readCompletedEvent value
      response.usage.bind WireUsage.read
    else none

theorem validateUsage_ok {wire : WireUsage} {maximumInput maximumOutput : Nat}
    {usage : ProviderUsage} (h : validateUsage wire maximumInput maximumOutput = .ok usage) :
    Coherent usage ∧ usage.cachedInputTokens = wire.cachedTokens ∧
      usage.cacheWriteInputTokens = wire.cacheWriteTokens ∧
      usage.inputTokens = wire.inputTokens := by
  simp only [validateUsage, bind_ok, require_ok, pure_ok] at h
  obtain ⟨-, ⟨-, -, htotal, hcached, hwrite, hreasoning, hsum⟩, rfl⟩ := h
  exact ⟨⟨checkedAdd_eq hsum, by simp only; omega, hcached, hwrite, hreasoning⟩, rfl, rfl, rfl⟩

theorem parseCompleted_usage {codec : Codec} {d : ResponsesDecoder} {response : CompletedResponse}
    {outcome : Outcome} (h : parseCompleted codec d response = .ok outcome) :
    ∃ wire maximumInput, response.usage.bind WireUsage.read = some wire ∧
      validateUsage wire maximumInput d.maximumOutputTokens = .ok outcome.usage := by
  simp only [parseCompleted, bind_ok, demand_ok, pure_ok] at h
  obtain ⟨-, -, -, -, -, -, wire, hwire, usage, husage, output, -, rfl⟩ := h
  exact ⟨wire, _, hwire, husage⟩

/-- What an event does to the end of the response. -/
theorem processEvent_ok {codec : Codec} {d d' : ResponsesDecoder} {kind : StreamEvent}
    {value : Json} {bytes nodes : Nat} {events : List TextDelta}
    (h : processEvent codec d kind value bytes nodes = .ok (d', events)) :
    (kind ≠ .completed ∧ d'.terminal = d.terminal ∧ (d'.state = d.state ∨ d'.state = .active)) ∨
      (kind ≠ .completed ∧ d'.state = .terminal ∧
        ∃ error ∈ [.providerExecutionFailed, .incompleteResponse],
          d'.terminal = some (.error error)) ∨
      (kind = .completed ∧ d'.state = .terminal ∧ ∃ response outcome,
        readCompletedEvent value = some response ∧ parseCompleted codec d response = .ok outcome ∧
        d'.terminal = some (.ok outcome)) := by
  cases kind with
  | created =>
    simp only [processEvent, bind_ok, pure_ok, Prod.mk.injEq] at h
    obtain ⟨-, -, response, -, -, -, rfl, -⟩ := h
    exact .inl ⟨by simp, rfl, .inr rfl⟩
  | queued | inProgress | redundant =>
    simp only [processEvent, bind_ok, pure_ok, Prod.mk.injEq] at h
    obtain ⟨-, -, rfl, -⟩ := h
    exact .inl ⟨by simp, rfl, .inl rfl⟩
  | outputTextDelta =>
    simp only [processEvent, recordTextDelta, bind_ok, pure_ok, Prod.mk.injEq] at h
    obtain ⟨-, -, -, -, -, -, -, -, -, -, -, -, -, -, -, -, rfl, -⟩ := h
    exact .inl ⟨by simp, rfl, .inl rfl⟩
  | refusalDelta =>
    simp only [processEvent, recordTextDelta, bind_ok, pure_ok, Prod.mk.injEq] at h
    obtain ⟨-, -, -, -, -, -, -, -, -, -, -, -, -, -, rfl, -⟩ := h
    exact .inl ⟨by simp, rfl, .inl rfl⟩
  | functionCallArgumentsDelta =>
    simp only [processEvent, recordArgumentDelta, bind_ok, pure_ok, Prod.mk.injEq] at h
    obtain ⟨-, -, -, -, -, ⟨-, -, -, -, -, -, -, -, -, -, rfl⟩, rfl, -⟩ := h
    exact .inl ⟨by simp, rfl, .inl rfl⟩
  | completed =>
    simp only [processEvent, bind_ok, demand_ok, pure_ok, Prod.mk.injEq] at h
    obtain ⟨-, -, response, hresponse, outcome, houtcome, rfl, -⟩ := h
    exact .inr (.inr ⟨rfl, rfl, response, outcome, hresponse, houtcome, rfl⟩)
  | failed | error | incomplete =>
    simp only [processEvent, bind_ok, pure_ok, Prod.mk.injEq] at h
    obtain ⟨-, -, rfl, -⟩ := h
    exact .inr (.inl ⟨by simp, rfl, _, by decide, rfl⟩)
  | outputItemDone =>
    simp only [processEvent, bind_ok] at h
    obtain ⟨-, -, h⟩ := h
    split at h
    · simp only [pure_ok, Prod.mk.injEq] at h
      obtain ⟨rfl, -⟩ := h
      exact .inl ⟨by simp, rfl, .inl rfl⟩
    · simp only [bind_ok, pure_ok, Prod.mk.injEq] at h
      obtain ⟨items, -, rfl, -⟩ := h
      exact .inl ⟨by simp, rfl, .inl rfl⟩

/-- A response that has ended well has reported the usage of its outcome, once. -/
structure Reported (codec : Codec) (done : List SseRecord) (d : ResponsesDecoder) : Prop where
  ended : d.terminal ≠ none ↔ d.state = .terminal ∨ d.state = .doneMarker
  open' : d.terminal = none → done.filterMap (completedUsage codec) = []
  outcome : ∀ outcome, d.terminal = some (.ok outcome) →
    ∃ wire maximumInput maximumOutput, done.filterMap (completedUsage codec) = [wire] ∧
      validateUsage wire maximumInput maximumOutput = .ok outcome.usage

theorem Reported.keep {codec : Codec} {done : List SseRecord} {d : ResponsesDecoder}
    {record : SseRecord} (h : Reported codec done d) (hnone : completedUsage codec record = none) :
    Reported codec (done ++ [record]) d where
  ended := h.ended
  open' hopen := by
    rw [List.filterMap_append, h.open' hopen]
    simp [hnone]
  outcome o ho := by
    obtain ⟨wire, maximumInput, maximumOutput, hreported, hvalid⟩ := h.outcome o ho
    refine ⟨wire, maximumInput, maximumOutput, ?_, hvalid⟩
    rw [List.filterMap_append, hreported]
    simp [hnone]

theorem StreamEvent.ofType_completed {eventType : String} :
    StreamEvent.ofType eventType = some .completed ↔ eventType = "response.completed" := by
  constructor
  · intro h
    unfold StreamEvent.ofType at h
    split at h <;> first | rfl | cases h
  · rintro rfl
    rfl

theorem completedUsage_event {codec : Codec} {record : SseRecord} {value : Json}
    {envelope : EventEnvelope} (hping : record.event ≠ some "ping")
    (hdone : record.data ≠ bytesOf "[DONE]") (hvalue : codec.parse record.data = some value)
    (henvelope : EventEnvelope.read value = some envelope) :
    completedUsage codec record =
      if envelope.eventType = "response.completed" then
        (readCompletedEvent value).bind fun response => response.usage.bind WireUsage.read
      else none := by
  unfold completedUsage
  rw [if_neg (not_or.mpr ⟨hping, hdone⟩), hvalue]
  simp only [bind, Option.bind, henvelope]

theorem Reported.step {codec : Codec} {done : List SseRecord} {d d' : ResponsesDecoder}
    {record : SseRecord} {events : List TextDelta} (h : Reported codec done d)
    (hstep : processRecord codec d record = .ok (d', events)) :
    Reported codec (done ++ [record]) d' := by
  unfold processRecord at hstep
  split at hstep
  case isTrue hping =>
    simp only [bind_ok, pure_ok, Prod.mk.injEq] at hstep
    obtain ⟨-, -, rfl, -⟩ := hstep
    exact h.keep (by rw [completedUsage, if_pos (.inl hping)])
  case isFalse hping =>
  split at hstep
  case isTrue hmarker =>
    simp only [bind_ok, require_ok, pure_ok, Prod.mk.injEq] at hstep
    obtain ⟨-, ⟨-, hstate⟩, rfl, -⟩ := hstep
    have hkept : Reported codec (done ++ [record]) d :=
      h.keep (by rw [completedUsage, if_pos (.inr hmarker)])
    exact { hkept with ended := ⟨fun _ => .inr rfl, fun _ => h.ended.mpr (.inl hstate)⟩ }
  case isFalse hmarker =>
  simp only [bind_ok, require_ok, demand_ok] at hstep
  obtain ⟨-, hopen, value, hvalue, nodes, -, envelope, henvelope, -, -, -, -, -, -, expected, -,
    kind, hkind, hevent⟩ := hstep
  have hnone : d.terminal = none := by
    by_contra hterminal
    exact (h.ended.mp hterminal).elim hopen.1 hopen.2
  have hused := completedUsage_event hping hmarker hvalue henvelope
  rcases processEvent_ok hevent with ⟨hother, hterminal, hstate⟩ |
    ⟨hother, hstate, error, -, herror⟩ | ⟨rfl, hstate, response, outcome, hresponse, houtcome, hterminal⟩
  · have hsilent : completedUsage codec record = none := by
      rw [hused, if_neg]
      rintro htype
      rw [StreamEvent.ofType_completed.mpr htype] at hkind
      exact hother (Option.some.inj hkind).symm
    have hkept := h.keep hsilent
    rw [hnone] at hterminal
    refine ⟨⟨fun hended => absurd hterminal hended, ?_⟩, fun _ => hkept.open' hnone, ?_⟩
    · rintro hended
      rcases hstate with hsame | hactive
      · rw [hsame] at hended
        exact absurd hended (not_or.mpr hopen)
      · rw [hactive] at hended
        rcases hended with hended | hended <;> cases hended
    · intro outcome ho
      rw [hterminal] at ho
      cases ho
  · refine ⟨⟨fun _ => .inl hstate, fun _ => ?_⟩, fun hended => ?_, fun outcome ho => ?_⟩
    · rw [herror]
      exact Option.some_ne_none _
    · rw [herror] at hended
      cases hended
    · rw [herror] at ho
      cases ho
  · obtain ⟨wire, maximumInput, hwire, hvalid⟩ := parseCompleted_usage houtcome
    refine ⟨⟨fun _ => .inl hstate, fun _ => ?_⟩, fun hended => ?_, fun reported ho => ?_⟩
    · rw [hterminal]
      exact Option.some_ne_none _
    · rw [hterminal] at hended
      cases hended
    · rw [hterminal] at ho
      obtain rfl : outcome = reported := Except.ok.inj (Option.some.inj ho)
      refine ⟨wire, maximumInput, _, ?_, hvalid⟩
      rw [List.filterMap_append, h.open' hnone, List.nil_append]
      have hcompleted : completedUsage codec record = some wire := by
        rw [hused, if_pos (StreamEvent.ofType_completed.mp hkind), hresponse]
        exact hwire
      simp [hcompleted]

/-- The decoder of a response that has not begun. -/
def Fresh (start : ResponsesDecoder) : Prop :=
  start.terminal = none ∧ start.state = .awaitingCreated

theorem finish_ok {d : ResponsesDecoder} {outcome : Outcome} (h : finish d = .ok outcome) :
    d.terminal = some (.ok outcome) := by
  unfold finish at h
  split at h
  case h_1 | h_2 =>
    obtain ⟨result, hresult, rfl⟩ := (bind_ok _ _ _).mp h
    exact (demand_ok _ _ _).mp hresult
  case h_3 | h_4 => cases h

/-- What an accepted response reports is what its outcome tells. -/
theorem decode_usage {codec : Codec} {start : ResponsesDecoder} (hfresh : Fresh start)
    {chunks : List (List UInt8)} {outcome : Outcome} {events : List TextDelta}
    (h : (decoding codec start).decode chunks = .ok (outcome, events)) :
    ∃ sse records wire, SseDecoder.push {} chunks.flatten = .ok (sse, records) ∧
      records.filterMap (completedUsage codec) = [wire] ∧ Coherent outcome.usage ∧
      outcome.usage.cachedInputTokens = wire.cachedTokens ∧
      outcome.usage.cacheWriteInputTokens = wire.cacheWriteTokens ∧
      outcome.usage.inputTokens = wire.inputTokens := by
  obtain ⟨sse, records, d, hframe, -, hprocess, hfinish⟩ := Decoding.decode_ok.mp h
  have hreported : Reported codec records d := by
    refine Chunked.processAll_induction (P := fun done d _ => Reported codec done d) hprocess ?_
      fun done d₁ _ record d₂ more hheld hstep => hheld.step hstep
    refine ⟨⟨fun hended => absurd hfresh.1 hended, fun hended => ?_⟩, fun _ => rfl, fun o ho => ?_⟩
    · have hstate : start.state = .awaitingCreated := hfresh.2
      change start.state = .terminal ∨ start.state = .doneMarker at hended
      rw [hstate] at hended
      rcases hended with hended | hended <;> cases hended
    · have hterminal : start.terminal = none := hfresh.1
      change start.terminal = some (.ok o) at ho
      rw [hterminal] at ho
      cases ho
  have hterminal : d.terminal = some (.ok outcome) := finish_ok hfinish
  obtain ⟨wire, maximumInput, maximumOutput, hwire, hvalid⟩ := hreported.outcome outcome hterminal
  exact ⟨sse, records, wire, hframe, hwire, validateUsage_ok hvalid⟩

end ResponsesDecoder

/-! ## Chat Completions -/

namespace ChatCompletionsDecoder

open Chat

theorem validateUsage_ok {d : ChatCompletionsDecoder} {wire : ChatUsage} {usage : ProviderUsage}
    (h : d.validateUsage wire = .ok usage) : Coherent usage ∧ Fitting usage := by
  simp only [validateUsage, bind_ok, require_ok, pure_ok] at h
  obtain ⟨cached, -, -, ⟨-, -, -, -, hinput, -, houtput, hsum, ⟨cache, hcache, hfits⟩, -,
    hreasoning⟩, rfl⟩ := h
  have htotal := checkedAdd_eq hsum
  have hcached := checkedAdd_eq (Option.mem_def.mp hcache)
  exact ⟨⟨htotal, by simp only; omega, by simp only; omega, by simp only; omega, hreasoning⟩,
    by simp only [Fitting]; omega⟩

/-- A usage, once known, is coherent and fits. -/
def Sound (d : ChatCompletionsDecoder) : Prop := ∀ u ∈ d.usage, Coherent u ∧ Fitting u

theorem validateChunkIdentity_kept {d d' : ChatCompletionsDecoder} {chunk : ChatChunk}
    (h : d.validateChunkIdentity chunk = .ok d') :
    d'.usage = d.usage ∧ d'.toolCalls = d.toolCalls := by
  simp only [validateChunkIdentity, bind_ok] at h
  obtain ⟨-, -, -, -, -, -, h⟩ := h
  split at h
  · simp only [bind_ok, pure_ok] at h
    obtain ⟨-, -, rfl⟩ := h
    exact ⟨rfl, rfl⟩
  · cases h
    exact ⟨rfl, rfl⟩

theorem recordText_kept {d d' : ChatCompletionsDecoder} {delta : Option String} {refusal : Bool}
    {events : List TextDelta} (h : d.recordText delta refusal = .ok (d', events)) :
    d'.usage = d.usage ∧ d'.toolCalls = d.toolCalls := by
  unfold recordText at h
  split at h
  · cases h
    exact ⟨rfl, rfl⟩
  · cases h
    exact ⟨rfl, rfl⟩
  · simp only [recordTextDelta, bind_ok, pure_ok, Prod.mk.injEq] at h
    obtain ⟨-, -, -, -, -, -, -, -, rfl, -⟩ := h
    exact ⟨rfl, rfl⟩

theorem countReasoning_kept {d d' : ChatCompletionsDecoder} {bytes : Option Nat}
    (h : d.countReasoning bytes = .ok d') :
    d'.usage = d.usage ∧ d'.toolCalls = d.toolCalls := by
  unfold countReasoning at h
  split at h
  · cases h
    exact ⟨rfl, rfl⟩
  · simp only [bind_ok, pure_ok] at h
    obtain ⟨-, -, rfl⟩ := h
    exact ⟨rfl, rfl⟩

theorem recordToolCalls_usage {d d' : ChatCompletionsDecoder} {calls : List ChatToolCallDelta}
    (h : d.recordToolCalls calls = .ok d') : d'.usage = d.usage := by
  simp only [recordToolCalls, bind_ok] at h
  obtain ⟨-, -, h⟩ := h
  refine sweep_keeps _ (fun t => t.usage = d.usage) calls (fun s t call _ hs ht => ?_) d d' rfl h
  simp only [recordToolCallDelta, bind_ok, pure_ok] at ht
  obtain ⟨-, -, _, -, _, -, _, -, rfl⟩ := ht
  exact hs

theorem processDelta_usage {codec : Codec} {d d' : ChatCompletionsDecoder} {delta : ChatDelta}
    {events : List TextDelta} (h : d.processDelta codec delta = .ok (d', events)) :
    d'.usage = d.usage := by
  simp only [processDelta, bind_ok, pure_ok, Prod.exists, Prod.mk.injEq] at h
  obtain ⟨-, -, -, -, d₁, h₁, d₂, h₂, d₃, h₃, d₄, _, h₄, d₅, _, h₅, d₆, h₆, rfl, -⟩ := h
  rw [recordToolCalls_usage h₆, (recordText_kept h₅).1, (recordText_kept h₄).1,
    (countReasoning_kept h₃).1, (countReasoning_kept h₂).1, (countReasoning_kept h₁).1]

theorem processChoice_usage {codec : Codec} {d d' : ChatCompletionsDecoder} {choice : ChatChoice}
    {events : List TextDelta} (h : d.processChoice codec choice = .ok (d', events)) :
    d'.usage = d.usage := by
  simp only [processChoice, bind_ok, pure_ok, Prod.exists, Prod.mk.injEq] at h
  obtain ⟨-, -, d₁, _, hdelta, d₂, hfinish, rfl, -⟩ := h
  rw [← processDelta_usage hdelta]
  unfold recordFinish at hfinish
  split at hfinish
  · cases hfinish
    rfl
  · simp only [bind_ok, pure_ok] at hfinish
    obtain ⟨-, -, rfl⟩ := hfinish
    rfl

theorem processChoices_usage {codec : Codec} {d d' : ChatCompletionsDecoder} {chunk : ChatChunk}
    {events : List TextDelta} (h : d.processChoices codec chunk = .ok (d', events)) :
    d'.usage = d.usage := by
  unfold processChoices at h
  split at h
  · simp only [bind_ok, pure_ok, Prod.mk.injEq] at h
    obtain ⟨-, -, rfl, -⟩ := h
    rfl
  split at h
  · cases h
    rfl
  · simp only [bind_ok] at h
    obtain ⟨-, -, h⟩ := h
    exact processChoice_usage h

theorem Sound.recordUsage {d d' : ChatCompletionsDecoder} {wire : Option ChatUsage}
    (hsound : Sound d) (h : d.recordUsage wire = .ok d') : Sound d' := by
  unfold ChatCompletionsDecoder.recordUsage at h
  split at h
  · cases h
    exact hsound
  · simp only [bind_ok, pure_ok] at h
    obtain ⟨usage, husage, -, -, rfl⟩ := h
    intro u hu
    obtain rfl : usage = u := Option.some.inj hu
    exact validateUsage_ok husage

theorem Sound.of_usage {d d' : ChatCompletionsDecoder} (hsound : Sound d)
    (h : d'.usage = d.usage) : Sound d' := by
  intro u hu
  exact hsound u (h ▸ hu)

theorem Sound.processChunk {codec : Codec} {d d' : ChatCompletionsDecoder} {chunk : ChatChunk}
    {events : List TextDelta} (hsound : Sound d)
    (h : d.processChunk codec chunk = .ok (d', events)) : Sound d' := by
  simp only [ChatCompletionsDecoder.processChunk, bind_ok, pure_ok, Prod.exists,
    Prod.mk.injEq] at h
  obtain ⟨d₁, hidentity, d₂, _, hchoice, d₃, husage, rfl, -⟩ := h
  refine Sound.recordUsage (hsound.of_usage ?_) husage
  rw [processChoices_usage hchoice, (validateChunkIdentity_kept hidentity).1]

theorem processTrailer_kept {codec : Codec} {d d' : ChatCompletionsDecoder} {data : List UInt8}
    (h : d.processTrailer codec data = .ok d') :
    d'.usage = d.usage ∧ d'.toolCalls = d.toolCalls := by
  unfold processTrailer at h
  split at h
  · cases h
    exact ⟨rfl, rfl⟩
  · simp only [bind_ok] at h
    obtain ⟨-, -, value, -, nodes, -, h⟩ := h
    split at h
    · cases h
      exact ⟨rfl, rfl⟩
    · simp only [bind_ok, pure_ok] at h
      obtain ⟨chunk, -, d₁, hidentity, -, -, rfl⟩ := h
      have hkept := validateChunkIdentity_kept hidentity
      exact hkept

theorem Sound.step {codec : Codec} {d d' : ChatCompletionsDecoder} {record : SseRecord}
    {events : List TextDelta} (hsound : Sound d)
    (h : processRecord codec d record = .ok (d', events)) : Sound d' := by
  simp only [processRecord, bind_ok] at h
  obtain ⟨-, -, h⟩ := h
  split at h
  · simp only [bind_ok, pure_ok, Prod.mk.injEq] at h
    obtain ⟨d₁, htrailer, rfl, -⟩ := h
    exact hsound.of_usage (processTrailer_kept htrailer).1
  split at h
  · simp only [bind_ok, pure_ok, Prod.mk.injEq] at h
    obtain ⟨-, -, rfl, -⟩ := h
    exact hsound
  · simp only [bind_ok] at h
    obtain ⟨value, -, nodes, -, chunk, -, hchunk⟩ := h
    exact hsound.processChunk hchunk

theorem decode_usage {codec : Codec} {expectedModel : String} {maximumInput maximumOutput : Nat}
    {chunks : List (List UInt8)} {outcome : Outcome} {events : List TextDelta}
    (h : (decoding codec expectedModel maximumInput maximumOutput).decode chunks =
      .ok (outcome, events)) : Coherent outcome.usage ∧ Fitting outcome.usage := by
  obtain ⟨sse, records, d, -, -, hprocess, hfinish⟩ := Decoding.decode_ok.mp h
  have hsound : Sound d := Chunked.processAll_invariant (P := Sound)
    (fun t record t₁ emitted hstep hheld => hheld.step hstep) hprocess fun u hu => nomatch hu
  change finish codec d = .ok outcome at hfinish
  simp only [finish, bind_ok, demand_ok, pure_ok] at hfinish
  obtain ⟨-, -, responseId, -, usage, husage, reason, -, -, -, -, -, output, -, rfl⟩ := hfinish
  exact hsound usage husage

end ChatCompletionsDecoder

/-! ## Anthropic Messages -/

namespace AnthropicMessagesDecoder

open Anthropic

/-- The input is the sum of its kinds, and what is known is within the bounds. -/
structure Sound (d : AnthropicMessagesDecoder) : Prop where
  input : ∀ input ∈ d.inputTokens,
    d.uncachedInputTokens + d.cachedInputTokens + d.cacheWriteInputTokens = input ∧
      input ≤ maxUsageTokens
  output : ∀ output ∈ d.outputTokens, output ≤ maxUsageTokens

theorem checkedSum_ok {a b c sum : Nat} (h : checkedSum a b c = .ok sum) : a + b + c = sum := by
  simp only [checkedSum, bind_ok, demand_ok] at h
  obtain ⟨partialSum, hpartial, hsum⟩ := h
  rw [checkedAdd_eq hpartial]
  exact checkedAdd_eq hsum

/-- What an event leaves alone that says nothing of usage. -/
def SameUsage (d d' : AnthropicMessagesDecoder) : Prop :=
  d'.inputTokens = d.inputTokens ∧ d'.uncachedInputTokens = d.uncachedInputTokens ∧
    d'.cachedInputTokens = d.cachedInputTokens ∧
    d'.cacheWriteInputTokens = d.cacheWriteInputTokens ∧ d'.outputTokens = d.outputTokens

theorem Sound.of_same {d d' : AnthropicMessagesDecoder} (hsound : Sound d) (h : SameUsage d d') :
    Sound d' := by
  obtain ⟨hinput, huncached, hcached, hwrite, houtput⟩ := h
  refine ⟨fun input hin => ?_, fun output hout => hsound.output output (houtput ▸ hout)⟩
  rw [huncached, hcached, hwrite]
  exact hsound.input input (hinput ▸ hin)

theorem contentBlockStart_same {d d' : AnthropicMessagesDecoder} {value : Json}
    (h : d.contentBlockStart value = .ok d') : SameUsage d d' := by
  simp only [contentBlockStart, bind_ok, pure_ok] at h
  obtain ⟨-, -, -, -, -, -, block, -, rfl⟩ := h
  exact ⟨rfl, rfl, rfl, rfl, rfl⟩

theorem contentBlockDelta_same {d d' : AnthropicMessagesDecoder} {value : Json}
    {events : List TextDelta} (h : d.contentBlockDelta value = .ok (d', events)) :
    SameUsage d d' := by
  simp only [contentBlockDelta, bind_ok, Prod.exists] at h
  obtain ⟨-, -, index, delta, -, block, -, block', added, -, h⟩ := h
  split at h
  · simp only [pure_ok, Prod.mk.injEq] at h
    obtain ⟨rfl, -⟩ := h
    exact ⟨rfl, rfl, rfl, rfl, rfl⟩
  · simp only [bind_ok, pure_ok, Prod.mk.injEq] at h
    obtain ⟨-, -, rfl, -⟩ := h
    exact ⟨rfl, rfl, rfl, rfl, rfl⟩

theorem finishBlock_same {codec : Codec} {d d' : AnthropicMessagesDecoder} {block : ActiveBlock}
    (h : finishBlock codec d block = .ok d') : SameUsage d d' := by
  cases block with
  | text index text =>
    simp only [finishBlock] at h
    split at h
    · cases h
      exact ⟨rfl, rfl, rfl, rfl, rfl⟩
    · simp only [contentItemId, bind_ok, pure_ok, Prod.exists, Prod.mk.injEq] at h
      obtain ⟨_, _, ⟨-, -, -, -, -, -, rfl, rfl⟩, rfl⟩ := h
      exact ⟨rfl, rfl, rfl, rfl, rfl⟩
  | toolUse index id name arguments =>
    simp only [finishBlock, bind_ok, pure_ok] at h
    obtain ⟨-, -, rfl⟩ := h
    exact ⟨rfl, rfl, rfl, rfl, rfl⟩
  | thinking index bytes =>
    cases h
    exact ⟨rfl, rfl, rfl, rfl, rfl⟩

theorem contentBlockStop_same {codec : Codec} {d d' : AnthropicMessagesDecoder} {value : Json}
    (h : d.contentBlockStop codec value = .ok d') : SameUsage d d' := by
  simp only [contentBlockStop, bind_ok, pure_ok] at h
  obtain ⟨-, -, index, -, block, -, d₁, hblock, -, -, rfl⟩ := h
  obtain ⟨hinput, huncached, hcached, hwrite, houtput⟩ := finishBlock_same hblock
  exact ⟨hinput, huncached, hcached, hwrite, houtput⟩

theorem Sound.messageStart {d d' : AnthropicMessagesDecoder} {value : Json} (hsound : Sound d)
    (h : d.messageStart value = .ok d') : Sound d' := by
  simp only [AnthropicMessagesDecoder.messageStart, bind_ok, require_ok, pure_ok] at h
  obtain ⟨-, -, message, -, -, -, -, -, -, -, input, hinput, -, ⟨-, hbound, -, -⟩, rfl⟩ := h
  refine ⟨fun sum hsum => ?_, hsound.output⟩
  obtain rfl : input = sum := Option.some.inj hsum
  exact ⟨checkedSum_ok hinput, hbound⟩

theorem Sound.messageDelta {d d' : AnthropicMessagesDecoder} {value : Json}
    (h : d.messageDelta value = .ok d') : Sound d' := by
  simp only [AnthropicMessagesDecoder.messageDelta, bind_ok, require_ok, pure_ok, Prod.exists] at h
  obtain ⟨-, -, delta, usage, -, uncached, cached, cacheWrite, input, husage, -,
    ⟨-, -, -, -, -, -, -, -, houtput⟩, rfl⟩ := h
  simp only [validateDeltaUsage, validateInputTokenCount, bind_ok, require_ok, pure_ok,
    Prod.mk.injEq] at husage
  obtain ⟨-, -, -, -, -, -, -, -, sum, hsum, -, ⟨-, hbound⟩, rfl, rfl, rfl, rfl⟩ := husage
  refine ⟨fun input hin => ?_, fun output hout => ?_⟩
  · obtain rfl : sum = input := Option.some.inj hin
    exact ⟨checkedSum_ok hsum, hbound⟩
  · obtain rfl : usage.outputTokens = output := Option.some.inj hout
    exact houtput

theorem Sound.step {codec : Codec} {d d' : AnthropicMessagesDecoder} {record : SseRecord}
    {events : List TextDelta} (hsound : Sound d)
    (h : processRecord codec d record = .ok (d', events)) : Sound d' := by
  simp only [processRecord, bind_ok] at h
  obtain ⟨value, -, -, -, eventType, -, -, -, event, -, h⟩ := h
  cases event with
  | ping =>
    simp only [processEvent, bind_ok, pure_ok, Prod.mk.injEq] at h
    obtain ⟨-, -, rfl, -⟩ := h
    exact hsound
  | messageStart =>
    obtain ⟨d₁, hstart, hpair⟩ := (map_ok _ _ _).mp h
    obtain ⟨rfl, -⟩ := Prod.mk.inj hpair
    exact hsound.messageStart hstart
  | contentBlockStart =>
    obtain ⟨d₁, hstart, hpair⟩ := (map_ok _ _ _).mp h
    obtain ⟨rfl, -⟩ := Prod.mk.inj hpair
    exact hsound.of_same (contentBlockStart_same hstart)
  | contentBlockDelta => exact hsound.of_same (contentBlockDelta_same h)
  | contentBlockStop =>
    obtain ⟨d₁, hstop, hpair⟩ := (map_ok _ _ _).mp h
    obtain ⟨rfl, -⟩ := Prod.mk.inj hpair
    exact hsound.of_same (contentBlockStop_same hstop)
  | messageDelta =>
    obtain ⟨d₁, hdelta, hpair⟩ := (map_ok _ _ _).mp h
    obtain ⟨rfl, -⟩ := Prod.mk.inj hpair
    exact Sound.messageDelta hdelta
  | messageStop =>
    obtain ⟨d₁, hstop, hpair⟩ := (map_ok _ _ _).mp h
    obtain ⟨rfl, -⟩ := Prod.mk.inj hpair
    simp only [messageStop, bind_ok, pure_ok] at hstop
    obtain ⟨-, -, -, -, rfl⟩ := hstop
    exact hsound.of_same ⟨rfl, rfl, rfl, rfl, rfl⟩
  | error => cases h

theorem decode_usage {codec : Codec} {expectedModel : String} {maximumInput maximumOutput : Nat}
    {chunks : List (List UInt8)} {outcome : Outcome} {events : List TextDelta}
    (h : (decoding codec expectedModel maximumInput maximumOutput).decode chunks =
      .ok (outcome, events)) : Coherent outcome.usage ∧ Fitting outcome.usage := by
  obtain ⟨sse, records, d, -, -, hprocess, hfinish⟩ := Decoding.decode_ok.mp h
  have hsound : Sound d := Chunked.processAll_invariant (P := Sound)
    (fun t record t₁ emitted hstep hheld => hheld.step hstep) hprocess
    ⟨fun input hin => (nomatch hin), fun output hout => (nomatch hout)⟩
  change finish d = .ok outcome at hfinish
  simp only [finish, bind_ok, demand_ok, pure_ok] at hfinish
  obtain ⟨-, -, id, -, input, hinput, output, houtput, reason, -, -, -, -, -, total, htotal,
    rfl⟩ := hfinish
  obtain ⟨hsum, hbound⟩ := hsound.input input hinput
  have houtput := hsound.output output houtput
  have htotal := checkedAdd_eq htotal
  exact ⟨⟨htotal, by simp only; omega, by simp only; omega, by simp only; omega, by simp only; omega⟩,
    by simp only [Fitting]; omega⟩

end AnthropicMessagesDecoder

/-! ## Gemini -/

namespace GeminiDecoder

open Gemini

/-- A usage, once known, is coherent and fits. -/
def Sound (d : GeminiDecoder) : Prop := ∀ u ∈ d.usage, Coherent u ∧ Fitting u

theorem usageOf_ok {d : GeminiDecoder} {a : GeminiUsageAccumulator} {usage : Option ProviderUsage}
    (h : d.usageOf a = .ok usage) : ∀ u ∈ usage, Coherent u ∧ Fitting u := by
  unfold usageOf at h
  split at h
  · simp only [bind_ok, require_ok, demand_ok, pure_ok] at h
    obtain ⟨output, houtput, total, htotal, -, ⟨hcached, -, -, -, hbound, -⟩, rfl⟩ := h
    intro u hu
    obtain rfl := Option.some.inj hu
    have houtput := checkedAdd_eq houtput
    have htotal := checkedAdd_eq htotal
    exact ⟨⟨htotal, by simp only; omega, hcached, Nat.zero_le _, by simp only; omega⟩, hcached⟩
  · cases h
    intro u hu
    cases hu

theorem Sound.of_usage {d d' : GeminiDecoder} (hsound : Sound d) (h : d'.usage = d.usage) :
    Sound d' := by
  intro u hu
  exact hsound u (h ▸ hu)

theorem Sound.recordUsage {d d' : GeminiDecoder} {wire : Option GeminiUsage} (hsound : Sound d)
    (h : d.recordUsage wire = .ok d') : Sound d' := by
  unfold GeminiDecoder.recordUsage at h
  split at h
  · cases h
    exact hsound
  · simp only [bind_ok, pure_ok] at h
    obtain ⟨-, -, -, -, -, -, -, -, -, -, components, -, usage, husage, rfl⟩ := h
    intro u hu
    cases usage with
    | none => exact hsound u hu
    | some known =>
      obtain rfl : known = u := Option.some.inj hu
      exact usageOf_ok husage known rfl

theorem validateIdentity_usage {d d' : GeminiDecoder} {responseId model created : Option String}
    (h : d.validateIdentity responseId model created = .ok d') : d'.usage = d.usage := by
  simp only [validateIdentity, bind_ok, pure_ok] at h
  obtain ⟨_, -, _, -, _, -, rfl⟩ := h
  rfl

theorem processPart_usage {codec : Codec} {d d' : GeminiDecoder} {part : Json}
    {events : List TextDelta} (h : processPart codec d part = .ok (d', events)) :
    d'.usage = d.usage := by
  simp only [processPart, bind_ok] at h
  obtain ⟨-, -, h⟩ := h
  split at h
  · simp only [bind_ok, processText] at h
    obtain ⟨text, -, -, -, -, -, h⟩ := h
    split at h
    · simp only [pure_ok, Prod.mk.injEq] at h
      obtain ⟨rfl, -⟩ := h
      rfl
    · simp only [bind_ok, pure_ok, Prod.mk.injEq] at h
      obtain ⟨-, -, -, -, rfl, -⟩ := h
      rfl
  split at h
  · simp only [bind_ok, processFunctionCall, pure_ok, Prod.exists, Prod.mk.injEq] at h
    obtain ⟨call, signature, -, d₁, ⟨-, -, -, -, -, -, -, -, -, -, rfl⟩, rfl, -⟩ := h
    rfl
  · exact absurd h (throw_ok _ _)

theorem processCandidate_usage {codec : Codec} {d d' : GeminiDecoder} {candidate : GeminiCandidate}
    {events : List TextDelta} (h : d.processCandidate codec candidate = .ok (d', events)) :
    d'.usage = d.usage := by
  simp only [processCandidate, bind_ok] at h
  obtain ⟨-, -, -, -, d₁, hfinish, h⟩ := h
  have hkept : d₁.usage = d.usage := by
    unfold recordFinish at hfinish
    split at hfinish
    · cases hfinish
      rfl
    · simp only [bind_ok, pure_ok] at hfinish
      obtain ⟨-, -, rfl⟩ := hfinish
      rfl
  rw [← hkept]
  split at h
  · simp only [pure_ok, Prod.mk.injEq] at h
    obtain ⟨rfl, -⟩ := h
    rfl
  · simp only [bind_ok] at h
    obtain ⟨-, -, h⟩ := h
    exact Chunked.processAll_invariant (P := fun t => t.usage = d₁.usage)
      (fun t part t₁ emitted hstep hheld => (processPart_usage hstep).trans hheld) h rfl

theorem Sound.processEvent {codec : Codec} {d d' : GeminiDecoder} {event : GeminiEvent}
    {events : List TextDelta} (hsound : Sound d)
    (h : d.processEvent codec event = .ok (d', events)) : Sound d' := by
  simp only [GeminiDecoder.processEvent, bind_ok] at h
  obtain ⟨-, -, d₁, hidentity, -, -, d₂, husage, h⟩ := h
  have hsound₂ : Sound d₂ :=
    (hsound.of_usage (validateIdentity_usage hidentity)).recordUsage husage
  split at h
  · cases h
    exact hsound₂
  · cases h
    exact hsound₂
  · exact hsound₂.of_usage (processCandidate_usage h)
  · exact absurd h (throw_ok _ _)

theorem Sound.step {codec : Codec} {d d' : GeminiDecoder} {record : SseRecord}
    {events : List TextDelta} (hsound : Sound d)
    (h : processRecord codec d record = .ok (d', events)) : Sound d' := by
  simp only [processRecord, bind_ok] at h
  obtain ⟨-, -, h⟩ := h
  split at h
  · simp only [bind_ok, pure_ok, Prod.mk.injEq] at h
    obtain ⟨-, -, rfl, -⟩ := h
    exact hsound
  simp only [bind_ok] at h
  obtain ⟨value, -, nodes, -, h⟩ := h
  split at h
  · simp only [bind_ok, pure_ok, Prod.mk.injEq] at h
    obtain ⟨-, -, -, -, rfl, -⟩ := h
    exact hsound
  · simp only [bind_ok] at h
    obtain ⟨event, -, hevent⟩ := h
    exact hsound.processEvent hevent

theorem decode_usage {codec : Codec} {maximumInput maximumOutput : Nat}
    {chunks : List (List UInt8)} {outcome : Outcome} {events : List TextDelta}
    (h : (decoding codec maximumInput maximumOutput).decode chunks = .ok (outcome, events)) :
    Coherent outcome.usage ∧ Fitting outcome.usage := by
  obtain ⟨sse, records, d, -, -, hprocess, hfinish⟩ := Decoding.decode_ok.mp h
  have hsound : Sound d := Chunked.processAll_invariant (P := Sound)
    (fun t record t₁ emitted hstep hheld => hheld.step hstep) hprocess fun u hu => nomatch hu
  change finish d = .ok outcome at hfinish
  simp only [finish, bind_ok, demand_ok, pure_ok] at hfinish
  obtain ⟨id, -, usage, husage, reason, -, -, -, -, -, rfl⟩ := hfinish
  exact hsound usage husage

end GeminiDecoder

end Morons.Provider
