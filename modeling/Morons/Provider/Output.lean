import Morons.Provider.Usage

/-!
# The output of a Responses stream

What the decoder has checked of every item of an outcome it accepts.
-/

namespace Morons.Provider

open Attempt

namespace ResponsesDecoder

open Responses

/-- What has been checked of an item of the output. -/
def Checked : OutputItem → Prop
  | .assistantMessage _ => True
  | .reasoning item =>
    validIdentifier item.providerItemId maxProviderIdentifierBytes ∧
    item.summaries.length ≤ Responses.maxReasoningSummaries ∧
    ∀ content ∈ item.encryptedContent,
      content ≠ "" ∧ content.utf8ByteSize ≤ Responses.maxEncryptedReasoningBytes
  | .toolCall call => call.opaqueContinuation = none

theorem validateTerminalText_output {s t : OutputScan} {outputIndex contentIndex : Nat}
    {itemId text : String} {refusal : Bool}
    (h : validateTerminalText s outputIndex contentIndex itemId text refusal = .ok t) :
    t.output = s.output := by
  unfold validateTerminalText at h
  split at h
  · cases h
    rfl
  · simp only [bind_ok, pure_ok] at h
    obtain ⟨-, -, rfl⟩ := h
    rfl

theorem countText_output {s t : OutputScan} {bytes : Nat} (h : countText s bytes = .ok t) :
    t.output = s.output := by
  simp only [countText, bind_ok, pure_ok] at h
  obtain ⟨-, -, rfl⟩ := h
  rfl

theorem scanParts_output {outputIndex : Nat} {itemId : String} {content : List Json}
    {s t : OutputScan} {contentIndex : Nat} {text text' : String} {refusal refusal' : Bool}
    (h : scanParts s outputIndex itemId contentIndex text refusal content =
      .ok (t, text', refusal')) : t.output = s.output := by
  induction content generalizing s contentIndex text refusal with
  | nil =>
    cases h
    rfl
  | cons part rest ih =>
    simp only [scanParts, bind_ok, Prod.exists] at h
    obtain ⟨_, _, -, -, -, u, hu, _, -, hrest⟩ := h
    rw [ih hrest, validateTerminalText_output hu]

theorem scanSummaries_output {summaries : List (String × String)} {s t : OutputScan}
    (h : scanSummaries s summaries = .ok t) : t.output = s.output := by
  induction summaries generalizing s with
  | nil =>
    cases h
    rfl
  | cons summary rest ih =>
    simp only [scanSummaries, bind_ok] at h
    obtain ⟨-, -, u, hu, hrest⟩ := h
    rw [ih hrest, countText_output hu]

theorem scanItemId_output {s t : OutputScan} {itemId : Option String}
    (h : scanItemId s itemId = .ok t) : t.output = s.output := by
  cases itemId with
  | none =>
    cases h
    rfl
  | some itemId =>
    simp only [scanItemId, bind_ok, pure_ok] at h
    obtain ⟨-, -, -, -, rfl⟩ := h
    rfl

theorem validateTerminalArguments_output {s t : OutputScan} {outputIndex : Nat}
    {itemId : Option String} {arguments : String}
    (h : validateTerminalArguments s outputIndex itemId arguments = .ok t) :
    t.output = s.output := by
  unfold validateTerminalArguments at h
  split at h
  · cases h
    rfl
  · simp only [bind_ok, pure_ok] at h
    obtain ⟨-, -, rfl⟩ := h
    rfl

/-- An item is read to one item of the output, which has been checked. -/
theorem scanItem_output {codec : Codec} {s t : OutputScan} {outputIndex : Nat} {item : Json}
    (h : scanItem codec s outputIndex item = .ok t) :
    ∃ read, t.output = s.output ++ [read] ∧ Checked read := by
  simp only [scanItem, bind_ok] at h
  obtain ⟨itemType, -, h⟩ := h
  split at h
  · simp only [scanMessage, bind_ok, pure_ok, Prod.exists] at h
    obtain ⟨message, -, -, -, -, -, u, text, refusal, hu, v, hv, rfl⟩ := h
    refine ⟨.assistantMessage ⟨message.id, message.phase, text, refusal⟩, ?_, trivial⟩
    rw [countText_output hv, scanParts_output hu]
  split at h
  · simp only [scanReasoning, validateResponseIdentifier, bind_ok, require_ok, pure_ok] at h
    obtain ⟨reasoning, -, -, hid, -, ⟨-, -, hsummaries, -, hencrypted⟩, u, hu, rfl⟩ := h
    refine ⟨.reasoning _, by rw [scanSummaries_output hu], hid, ?_, hencrypted⟩
    rw [List.length_map]
    exact hsummaries
  split at h
  · simp only [scanFunctionCall, bind_ok, pure_ok] at h
    obtain ⟨call, -, -, -, -, -, -, -, -, -, u, hu, v, hv, rfl⟩ := h
    refine ⟨.toolCall ⟨call.id, call.callId, call.name, call.arguments, none⟩, ?_, rfl⟩
    rw [validateTerminalArguments_output hv, scanItemId_output hu]
  · cases h

theorem scanItems_checked {codec : Codec} {items : List Json} {outputIndex : Nat}
    {s t : OutputScan} (h : scanItems codec outputIndex s items = .ok t)
    (hs : ∀ item ∈ s.output, Checked item) : ∀ item ∈ t.output, Checked item := by
  induction items generalizing outputIndex s with
  | nil =>
    cases h
    exact hs
  | cons item rest ih =>
    simp only [scanItems, bind_ok] at h
    obtain ⟨u, hu, hrest⟩ := h
    obtain ⟨read, hread, hchecked⟩ := scanItem_output hu
    refine ih hrest ?_
    rw [hread]
    exact List.forall_mem_append.mpr ⟨hs, by simpa using hchecked⟩

theorem parseOutput_checked {codec : Codec} {textDeltas : TextDeltas}
    {argumentDeltas : ArgumentDeltas} {items : List Json} {output : List OutputItem}
    (h : parseOutput codec textDeltas argumentDeltas items = .ok output) :
    ∀ item ∈ output, Checked item := by
  simp only [parseOutput, bind_ok, pure_ok] at h
  obtain ⟨s, hs, -, -, rfl⟩ := h
  refine scanItems_checked hs fun item hin => ?_
  cases hin

theorem completedOutput_checked {codec : Codec} {d : ResponsesDecoder} {output : List Json}
    {items : List OutputItem} (h : completedOutput codec d output = .ok items) :
    ∀ item ∈ items, Checked item := by
  have hnative : ∀ native, (do
      let parsed ← parseOutput codec d.textDeltas d.argumentDeltas native
      if output = [] then return parsed
      let terminal ← parseOutput codec ∅ ∅ output
      require (terminal = parsed) .malformedResponse
      return parsed) = .ok items → ∀ item ∈ items, Checked item := by
    intro native h
    simp only [bind_ok] at h
    obtain ⟨parsed, hparsed, h⟩ := h
    split at h
    · obtain rfl := (pure_ok _ _).mp h
      exact parseOutput_checked hparsed
    · simp only [bind_ok, pure_ok] at h
      obtain ⟨-, -, -, -, rfl⟩ := h
      exact parseOutput_checked hparsed
  unfold completedOutput at h
  cases hitems : d.nativeItems with
  | none =>
    simp only [hitems, bind_ok, pure_ok] at h
    obtain ⟨_, rfl, h⟩ := h
    exact parseOutput_checked h
  | some native =>
    simp only [hitems] at h
    obtain ⟨done, -, h⟩ := (bind_ok _ _ _).mp h
    cases done with
    | none => exact parseOutput_checked h
    | some done => exact hnative done h

theorem parseCompleted_checked {codec : Codec} {d : ResponsesDecoder}
    {response : CompletedResponse} {outcome : Outcome}
    (h : parseCompleted codec d response = .ok outcome) :
    ∀ item ∈ outcome.output, Checked item := by
  simp only [parseCompleted, bind_ok, pure_ok] at h
  obtain ⟨-, -, -, -, -, -, wire, -, usage, -, output, houtput, rfl⟩ := h
  exact completedOutput_checked houtput

/-- An outcome comes from a completed response. -/
def Completed (codec : Codec) (d : ResponsesDecoder) : Prop :=
  ∀ outcome, d.terminal = some (.ok outcome) → ∃ d₀ response,
    parseCompleted codec d₀ response = .ok outcome

theorem Completed.step {codec : Codec} {d d' : ResponsesDecoder} {record : SseRecord}
    {events : List TextDelta} (hstep : processRecord codec d record = .ok (d', events))
    (h : Completed codec d) : Completed codec d' := by
  unfold processRecord at hstep
  split at hstep
  · simp only [bind_ok, pure_ok, Prod.mk.injEq] at hstep
    obtain ⟨-, -, rfl, -⟩ := hstep
    exact h
  split at hstep
  · simp only [bind_ok, pure_ok, Prod.mk.injEq] at hstep
    obtain ⟨-, -, rfl, -⟩ := hstep
    exact h
  simp only [bind_ok] at hstep
  obtain ⟨-, -, value, -, nodes, -, envelope, -, -, -, -, -, -, -, expected, -, kind, -,
    hevent⟩ := hstep
  intro outcome ho
  rcases processEvent_ok hevent with ⟨-, hterminal, -⟩ | ⟨-, -, error, -, herror⟩ |
    ⟨-, -, response, completed, -, hcompleted, hterminal⟩
  · rw [hterminal] at ho
    exact h outcome ho
  · rw [herror] at ho
    cases ho
  · rw [hterminal] at ho
    obtain rfl : completed = outcome := Except.ok.inj (Option.some.inj ho)
    exact ⟨_, response, hcompleted⟩

/-- **What an accepted stream has been checked for.** -/
theorem decode_checked {codec : Codec} {start : ResponsesDecoder} (hfresh : Fresh start)
    {chunks : List (List UInt8)} {outcome : Outcome} {events : List TextDelta}
    (h : (decoding codec start).decode chunks = .ok (outcome, events)) :
    ∀ item ∈ outcome.output, Checked item := by
  obtain ⟨sse, records, d, -, -, hprocess, hfinish⟩ := Decoding.decode_ok.mp h
  have hcompleted : Completed codec d := by
    refine Chunked.processAll_invariant (fun d record d' emitted hstep hd => hd.step hstep)
      hprocess fun outcome ho => ?_
    rw [show (decoding codec start).start.terminal = none from hfresh.1] at ho
    cases ho
  obtain ⟨d₀, response, hparsed⟩ := hcompleted outcome (finish_ok hfinish)
  exact parseCompleted_checked hparsed

end ResponsesDecoder

end Morons.Provider
