import Morons.Guarantee.Usage
import Morons.Provider.Output
import Morons.Run.Continuation

/-!
# An accepted tool turn can be sent back

The input of the request that follows a tool turn passes the checks of the
request encoder, and for a native turn its reasoning is known, exactly when the
turn is `Resendable`: the decoder admits reasoning items without content, longer
summaries and encrypted content for any model, which the encoder refuses.
-/

namespace Morons

open Attempt Provider

variable {δ : Type}

/-- The arguments printed of an input are the text of an object. -/
structure Prints (codec : Codec) : Prop where
  object : ∀ input : CatalogInput, ∃ value,
    codec.parse (bytesOf (input.providerArguments codec)) = some value ∧ value.isObject
  empty : codec.parse [] = none

/-- A tool turn that was decoded from a Responses stream, accepted and committed. -/
structure ToolTurn (codec : Codec) where
  start : ResponsesDecoder
  fresh : start.Fresh
  chunks : List (List UInt8)
  outcome : Outcome
  events : List TextDelta
  decoded : (ResponsesDecoder.decoding codec start).decode chunks = .ok (outcome, events)
  toolCatalogVersion : Nat
  turn : ProviderToolTurn
  reasoning : List Reasoning
  normalized :
    normalizeProviderTurn codec outcome toolCatalogVersion = .ok (.tools turn reasoning)
  env : Environment
  store : Store
  runId : RunId
  operationId : ProviderOperationId
  committed : List CommittedToolCall
  stored : Store
  commits : completeProviderToolTurn env store runId operationId (turn.stored codec) =
    .ok (committed, stored)

namespace ToolTurn

variable {codec : Codec}

/-- The calls with the identifiers they are committed under. -/
def calls (T : ToolTurn codec) : List (ToolCallId × ValidatedProviderCall) :=
  (T.committed.map (·.callId)).zip T.turn.calls

def continuation (T : ToolTurn codec) (before : Option ProviderTurnContinuation) :
    Option ProviderTurnContinuation :=
  continueTurn before T.operationId T.reasoning T.calls

/-- The results of the calls in their order, each with the parts of a message for its image. -/
def results (T : ToolTurn codec) (results : List (ToolResult × Option (List ContentPart))) :
    List ContextEntry :=
  (T.committed.zip results).map fun call => .toolResult call.1.callId call.2.1 call.2.2

end ToolTurn

/-! ## The turns of a run -/

/-- One turn of a run, or a new beginning after a compaction or a rejected context.
`request` is the reasoning that the answered request has sent. -/
inductive TurnStep (codec : Codec) (fingerprint : Reasoning → δ) :
    LoopState δ → LoopState δ → Prop
  | restart (s : LoopState δ) : TurnStep codec fingerprint s {}
  | tools (s : LoopState δ) (T : ToolTurn codec) (request : List δ) :
    TurnStep codec fingerprint s
      ⟨T.continuation s.continuation, seenAfter fingerprint request T.outcome⟩

/-- The states of a run between its turns. -/
def TurnsReached (codec : Codec) (fingerprint : Reasoning → δ) : LoopState δ → Prop :=
  Transition.Reachable (· = {}) (TurnStep codec fingerprint)

/-- The next request is built, passes `validate_input`, and sends no reasoning that
its turn has not seen. -/
def Replays [DecidableEq δ] (m : RequestModel) (fingerprint : Reasoning → δ) (s : LoopState δ)
    (developer : List String) (entries : List ContextEntry) : Prop :=
  ∃ input, buildProviderInput m.codec developer entries s.continuation = .ok input ∧
    (∃ bytes, validateInput m input = .ok bytes) ∧
    ∃ fingerprints, requestReasoning fingerprint s.seen input = .ok fingerprints

/-- What the encoder asks of a reasoning item and the decoder does not. -/
def ReasoningSendable (capabilities : ModelCapabilities) (item : Reasoning) : Prop :=
  (item.summaries ≠ [] ∨ item.encryptedContent.isSome) ∧
    (item.encryptedContent.isSome → capabilities.reasoningContinuation) ∧
    ∀ summary ∈ item.summaries, summary.utf8ByteSize ≤ maxReasoningSummaryBytes

/-- A turn whose items the encoder takes back: its reasoning can be sent, its arguments
are within their limit when they are printed again, and the sums of the request fit. -/
structure Resendable (m : RequestModel) (T : ToolTurn m.codec) (developer : List String)
    (entries : List ContextEntry) : Prop where
  reasoning : ∀ item ∈ T.outcome.output.filterMap OutputItem.reasoning?,
    ReasoningSendable m.capabilities item
  arguments : ∀ call ∈ T.turn.calls,
    (call.input.providerArguments m.codec).utf8ByteSize ≤ maxToolArgumentBytes
  fits : InputFits (developerItems developer ++
    (T.outcome.output.filterMap OutputItem.reasoning?).map InputItem.reasoning ++
    entries.flatMap (entryItems m.codec none))

/-! ## What a committed turn is -/

theorem commitToolCalls_length {env : Environment} {run : Run} {operationId : ProviderOperationId}
    {calls : List ProviderToolCall} {callIndex highWater last lastSequence : Nat} {s t : Store}
    {committed : List CommittedToolCall}
    (h : commitToolCalls env run operationId calls callIndex highWater last s =
      .ok (committed, lastSequence, t)) : committed.length = calls.length := by
  induction calls generalizing callIndex highWater last lastSequence s t committed with
  | nil =>
    cases h
    rfl
  | cons call rest ih =>
    simp only [commitToolCalls, bind_ok, pure_ok, Prod.exists, Prod.mk.injEq] at h
    obtain ⟨_, _, _, -, others, _, _, hrest, rfl, -, -⟩ := h
    rw [List.length_cons, List.length_cons, ih hrest]

namespace ToolTurn

variable {codec : Codec}

/-- The commentary of a committed turn is a message of the encoder's size, and each
of its calls has an identifier. -/
theorem committed_ok (T : ToolTurn codec) :
    T.committed.length = T.turn.calls.length ∧ T.turn.calls ≠ [] ∧
      ∀ commentary ∈ T.turn.commentary, commentary.1 ≠ "" ∧
        commentary.1.utf8ByteSize ≤ maxInputTextBytes := by
  have h := T.commits
  simp only [completeProviderToolTurn, validateToolTurn, bind_ok, require_ok, pure_ok, Prod.exists,
    Prod.mk.injEq] at h
  obtain ⟨-, ⟨-, hcalls, -, hcommentary⟩, run, -, -, -, -, -, _, -, _, -, -, -, -, -, -, -, _, _, -,
    _, _, -, _, -, _, _, _, -, _, _, _, hcommit, rfl, -⟩ := h
  have hlength := commitToolCalls_length hcommit
  have hmax : maxTranscriptTextBytes ≤ maxInputTextBytes := by decide
  refine ⟨?_, ?_, fun commentary hc => ?_⟩
  · rw [hlength, ProviderToolTurn.stored, List.length_map]
  · simpa [ProviderToolTurn.stored] using hcalls
  · obtain ⟨hsome, hsize⟩ := hcommentary commentary hc
    exact ⟨by simpa using hsome, hsize.trans hmax⟩

theorem calls_snd (T : ToolTurn codec) : T.calls.map (·.2) = T.turn.calls := by
  refine List.map_snd_zip ?_
  rw [List.length_map, T.committed_ok.1]

/-- No call of a Responses stream has a continuation of its own. -/
theorem calls_closed (T : ToolTurn codec) :
    ∀ call ∈ T.calls, call.2.opaqueContinuation = none := by
  intro call hcall
  have hchecked := ResponsesDecoder.decode_checked T.fresh T.decoded
  obtain ⟨-, hkept⟩ := normalizeProviderTurn_tools T.normalized
  have hmem : call.2.opaqueContinuation ∈ T.turn.calls.map (·.opaqueContinuation) :=
    List.mem_map_of_mem (T.calls_snd ▸ List.mem_map_of_mem hcall)
  rw [hkept, List.mem_map] at hmem
  obtain ⟨read, hread, heq⟩ := hmem
  obtain ⟨item, hitem, hcallItem⟩ := List.mem_filterMap.mp hread
  cases item with
  | toolCall read' =>
    obtain rfl : read' = read := Option.some.inj hcallItem
    rw [← heq]
    exact hchecked _ hitem
  | assistantMessage | reasoning => cases hcallItem

theorem reasoning_eq (T : ToolTurn codec) :
    T.reasoning = T.outcome.output.filterMap OutputItem.reasoning? :=
  (normalizeProviderTurn_tools T.normalized).1

/-- What a turn leaves when the turns before it have left no continuation of a call. -/
theorem continuation_eq (T : ToolTurn codec) {before : Option ProviderTurnContinuation}
    (h : ∀ c ∈ before, c.toolCalls = []) :
    T.continuation before = if T.reasoning = [] then none
      else some ⟨some (T.operationId, T.reasoning.map InputItem.reasoning), []⟩ := by
  have hbefore : (before.map (·.toolCalls)).getD [] = [] := by
    cases before with
    | none => rfl
    | some c => exact h c rfl
  have hcalls : (T.calls.filterMap fun call =>
      call.2.opaqueContinuation.map fun text => (call.1, text)) = [] := by
    rw [List.filterMap_eq_nil_iff]
    intro call hcall
    rw [T.calls_closed call hcall]
    rfl
  rw [continuation, continueTurn, hbefore, hcalls]
  by_cases hreasoning : T.reasoning = [] <;> simp [hreasoning]

/-- A call of the turn is among its entries. -/
theorem exists_call (T : ToolTurn codec) (commentary : Option (String × Bool)) :
    ∃ call ∈ T.calls, ContextEntry.toolCall call.1 T.operationId call.2.input ∈
      turnEntries T.operationId commentary T.calls := by
  obtain ⟨-, hsome, -⟩ := T.committed_ok
  obtain ⟨call, hcall⟩ : ∃ call, call ∈ T.calls := by
    refine List.exists_mem_of_ne_nil _ fun hnil => hsome ?_
    rw [← T.calls_snd, hnil, List.map_nil]
  exact ⟨call, hcall, List.mem_append_right _ (List.mem_map_of_mem hcall)⟩

end ToolTurn

/-! ## The turns before -/

/-- No turn of a Responses run leaves the continuation of a call. -/
theorem TurnsReached.toolCalls_nil {codec : Codec} {fingerprint : Reasoning → δ}
    {s : LoopState δ} (h : TurnsReached codec fingerprint s) :
    ∀ c ∈ s.continuation, c.toolCalls = [] := by
  refine Transition.Reachable.invariant (I := fun s : LoopState δ =>
    ∀ c ∈ s.continuation, c.toolCalls = []) ?_ ?_ h
  · rintro s rfl
    exact nofun
  · rintro s t hs (_ | ⟨T, request⟩)
    · exact nofun
    · intro c hc
      simp only [T.continuation_eq hs] at hc
      split at hc
      · cases hc
      · obtain rfl := Option.some.inj hc
        rfl

/-- The reasoning found in front of the calls of an operation. -/
theorem findSome_reasoning {operationId : ProviderOperationId} {reasoning : List InputItem}
    {entries : List ContextEntry} {callId : ToolCallId} {input : CatalogInput}
    (h : ContextEntry.toolCall callId operationId input ∈ entries) :
    entries.findSome? (reasoningBefore (some ⟨some (operationId, reasoning), []⟩)) =
      some reasoning := by
  have hall : ∀ entry found,
      reasoningBefore (some ⟨some (operationId, reasoning), []⟩) entry = some found →
        found = reasoning := by
    intro entry found hfound
    cases entry with
    | toolCall callId otherId input =>
      simp only [reasoningBefore, Option.bind_some] at hfound
      split at hfound
      · exact (Option.some.inj hfound).symm
      · cases hfound
    | userMessage | userImages | assistantMessage | toolResult => cases hfound
  have hsome : (entries.findSome?
      (reasoningBefore (some ⟨some (operationId, reasoning), []⟩))).isSome := by
    rw [List.findSome?_isSome_iff]
    exact ⟨_, h, by simp [reasoningBefore]⟩
  obtain ⟨found, hfound⟩ := Option.isSome_iff_exists.mp hsome
  obtain ⟨entry, -, hentry⟩ := List.exists_of_findSome?_eq_some hfound
  rw [hfound, hall entry found hentry]

/-! ## The turn sent back -/

variable {m : RequestModel}

/-- The items of an entry hold no reasoning. -/
theorem entryItems_reasoning (codec : Codec) (entry : ContextEntry) :
    (entryItems codec none entry).filterMap InputItem.reasoning? = [] := by
  cases entry with
  | toolResult callId result image => cases image <;> rfl
  | userMessage | userImages | assistantMessage | toolCall => rfl

/-- The input after a turn: its reasoning with the items of the entries. -/
theorem ToolTurn.builds [DecidableEq δ] (T : ToolTurn m.codec) {fingerprint : Reasoning → δ}
    {s : LoopState δ} (hs : TurnsReached m.codec fingerprint s) (request : List δ)
    (developer : List String)
    {entries : List ContextEntry}
    (hentries : turnEntries T.operationId T.turn.commentary T.calls ⊆ entries) :
    ∃ input, buildProviderInput m.codec developer entries (T.continuation s.continuation) =
        .ok input ∧
      input.Perm (developerItems developer ++
        (T.outcome.output.filterMap OutputItem.reasoning?).map InputItem.reasoning ++
        entries.flatMap (entryItems m.codec none)) ∧
      ∃ fingerprints, requestReasoning fingerprint (seenAfter fingerprint request T.outcome) input =
        .ok fingerprints := by
  rw [← T.reasoning_eq, T.continuation_eq hs.toolCalls_nil]
  obtain ⟨call, -, hcall⟩ := T.exists_call T.turn.commentary
  obtain ⟨input, hbuilt, hperm⟩ : ∃ input, buildProviderInput m.codec developer entries
      (if T.reasoning = [] then none
        else some ⟨some (T.operationId, T.reasoning.map InputItem.reasoning), []⟩) = .ok input ∧
      input.Perm (developerItems developer ++ T.reasoning.map InputItem.reasoning ++
        entries.flatMap (entryItems m.codec none)) := by
    by_cases hnone : T.reasoning = []
    · rw [if_pos hnone, hnone]
      have hbefore : reasoningBefore none = fun _ => none := by
        funext entry
        cases entry <;> rfl
      refine buildProviderInput_ok (fun c hc => by cases hc) ?_ (fun c hc => by cases hc)
      rw [hbefore, List.findSome?_eq_none_iff.mpr fun _ _ => rfl]
      rfl
    · rw [if_neg hnone]
      refine buildProviderInput_ok ?_ ?_ ?_
      · intro c hc
        obtain rfl := Option.some.inj hc
        rfl
      · rw [findSome_reasoning (hentries hcall)]
        rfl
      · intro c hc _
        rw [findSome_reasoning (hentries hcall)]
        rfl
  refine ⟨input, hbuilt, hperm, (input.filterMap InputItem.reasoning?).map fingerprint, ?_⟩
  simp only [requestReasoning, bind_ok, require_ok, pure_ok, exists_const]
  refine ⟨fun f hf => ?_, trivial⟩
  -- What the request says of reasoning is the reasoning of the answer.
  have hfound : (input.filterMap InputItem.reasoning?).Perm T.reasoning := by
    refine (hperm.filterMap _).trans (List.Perm.of_eq ?_)
    have hdeveloper : (developerItems developer).filterMap InputItem.reasoning? = [] := by
      simp [developerItems, List.filterMap_map, Function.comp_def, InputItem.reasoning?]
    have hcontext : (entries.flatMap (entryItems m.codec none)).filterMap InputItem.reasoning? =
        [] := by
      simp [List.filterMap_flatMap, entryItems_reasoning]
    rw [List.filterMap_append, List.filterMap_append, hdeveloper, hcontext, List.nil_append,
      List.append_nil, List.filterMap_map]
    exact List.filterMap_some
  rw [(hfound.map fingerprint).mem_iff, T.reasoning_eq] at hf
  exact List.mem_append_right _ hf

/-- The entries of the context after a turn: what came before it, its commentary and its
calls, their results, and what came since. -/
def ToolTurn.context {codec : Codec} (T : ToolTurn codec) (before after : List ContextEntry)
    (results : List (ToolResult × Option (List ContentPart))) : List ContextEntry :=
  before ++ turnEntries T.operationId T.turn.commentary T.calls ++ T.results results ++ after

/-- What the encoder asks of a call and its commit does not. -/
theorem callItem_admitted (hprints : Prints m.codec) (callId : ToolCallId) (input : CatalogInput) :
    ItemAdmitted m (.functionCall (deterministicProviderCallId callId) input.kind.name
      (input.providerArguments m.codec) none) ↔
      (input.providerArguments m.codec).utf8ByteSize ≤ maxToolArgumentBytes := by
  obtain ⟨value, hvalue, hobject⟩ := hprints.object input
  have hsome : input.providerArguments m.codec ≠ "" := by
    intro hnone
    rw [hnone, show bytesOf "" = [] by decide +kernel, hprints.empty] at hvalue
    cases hvalue
  simp only [ItemAdmitted, validIdentifier_callId, input.kind.validToolName_name, hsome, ne_eq,
    not_false_eq_true, true_and, Option.mem_def, reduceCtorEq, false_implies, implies_true, and_true]
  exact and_iff_left ⟨value, hvalue, hobject⟩

/-- What the encoder asks of reasoning and the decoder has not checked. -/
theorem reasoningItem_admitted (hprotocol : m.protocol = .responses) {item : Reasoning}
    (hchecked : ResponsesDecoder.Checked (.reasoning item)) :
    ItemAdmitted m (.reasoning item) ↔ ReasoningSendable m.capabilities item := by
  obtain ⟨hid, hsummaries, hencrypted⟩ := hchecked
  constructor
  · rintro ⟨-, -, hsome, hcapable, -, hsizes, -⟩
    exact ⟨hsome, hcapable, hsizes⟩
  · rintro ⟨hsome, hcapable, hsizes⟩
    exact ⟨hid, hprotocol, hsome, hcapable, hsummaries, hsizes, hencrypted⟩

/-- The items of the entries of a turn and of its results. -/
theorem ToolTurn.context_admitted (T : ToolTurn m.codec) (hprints : Prints m.codec)
    {before after : List ContextEntry} {results : List (ToolResult × Option (List ContentPart))}
    (hcontext : ∀ entry ∈ before ++ after, ∀ item ∈ entryItems m.codec none entry,
      ItemAdmitted m item)
    (hresults : ∀ result ∈ results, checkPayload result.1.payloadBytes = .ok () ∧
      ∀ parts ∈ result.2, ItemAdmitted m (.multimodalMessage .user parts none)) :
    (∀ item ∈ (T.context before after results).flatMap (entryItems m.codec none),
        ItemAdmitted m item) ↔
      ∀ call ∈ T.turn.calls,
        (call.input.providerArguments m.codec).utf8ByteSize ≤ maxToolArgumentBytes := by
  constructor
  · intro h call hcall
    rw [← T.calls_snd, List.mem_map] at hcall
    obtain ⟨⟨callId, call⟩, hmem, rfl⟩ := hcall
    refine (callItem_admitted hprints callId call.input).mp (h _ (List.mem_flatMap.mpr
      ⟨.toolCall callId T.operationId call.input, ?_, List.mem_singleton.mpr rfl⟩))
    refine List.mem_append_left _ (List.mem_append_left _ (List.mem_append_right _
      (List.mem_append_right _ (List.mem_map.mpr ⟨_, hmem, rfl⟩))))
  · intro h item hitem
    obtain ⟨entry, hentry, hitem⟩ := List.mem_flatMap.mp hitem
    simp only [context, turnEntries, List.mem_append] at hentry
    rcases hentry with ((hbefore | hcommentary | hcall) | hresult) | hafter
    · exact hcontext entry (List.mem_append_left _ hbefore) item hitem
    · rw [Option.mem_toList, Option.map_eq_some_iff] at hcommentary
      obtain ⟨commentary, hcommentary, rfl⟩ := hcommentary
      obtain ⟨-, -, hsize⟩ := T.committed_ok
      obtain rfl := List.mem_singleton.mp hitem
      obtain ⟨hsome, hbytes⟩ := hsize commentary hcommentary
      exact ⟨hsome, hbytes, fun _ => rfl⟩
    · obtain ⟨call, hmem, rfl⟩ := List.mem_map.mp hcall
      obtain rfl := List.mem_singleton.mp hitem
      refine (callItem_admitted hprints call.1 call.2.input).mpr (h call.2 ?_)
      rw [← T.calls_snd]
      exact List.mem_map_of_mem hmem
    · obtain ⟨⟨call, result⟩, hmem, rfl⟩ := List.mem_map.mp hresult
      obtain ⟨hpayload, himage⟩ := hresults result (List.of_mem_zip hmem).2
      simp only [checkPayload, require_ok] at hpayload
      rcases List.mem_cons.mp hitem with rfl | hshown
      · exact ⟨validIdentifier_callId call.callId, hpayload.2⟩
      · rw [Option.mem_toList, Option.map_eq_some_iff] at hshown
        obtain ⟨parts, hparts, rfl⟩ := hshown
        exact himage parts hparts
    · exact hcontext entry (List.mem_append_right _ hafter) item hitem

/-- **An accepted tool turn can be sent back**, exactly when its reasoning can be sent, its
arguments are within their limit when they are printed again, and the request fits. -/
theorem toolTurn_replays [DecidableEq δ] (hprints : Prints m.codec)
    (hprotocol : m.protocol = .responses) {fingerprint : Reasoning → δ} {s : LoopState δ}
    (hs : TurnsReached m.codec fingerprint s)
    (T : ToolTurn m.codec) (request : List δ) {developer : List String}
    {before after : List ContextEntry} {results : List (ToolResult × Option (List ContentPart))}
    (hdeveloper : ∀ item ∈ developerItems developer, ItemAdmitted m item)
    (hcontext : ∀ entry ∈ before ++ after, ∀ item ∈ entryItems m.codec none entry,
      ItemAdmitted m item)
    (hresults : ∀ result ∈ results, checkPayload result.1.payloadBytes = .ok () ∧
      ∀ parts ∈ result.2, ItemAdmitted m (.multimodalMessage .user parts none)) :
    Replays m fingerprint ⟨T.continuation s.continuation, seenAfter fingerprint request T.outcome⟩
        developer (T.context before after results) ↔
      Resendable m T developer (T.context before after results) := by
  have hentries : turnEntries T.operationId T.turn.commentary T.calls ⊆
      T.context before after results := fun entry hentry =>
    List.mem_append_left _ (List.mem_append_left _ (List.mem_append_right _ hentry))
  obtain ⟨input, hbuilt, hperm, hknown⟩ := T.builds hs request developer hentries
  have hchecked : ∀ item ∈ T.outcome.output.filterMap OutputItem.reasoning?,
      ResponsesDecoder.Checked (.reasoning item) := by
    intro item hitem
    obtain ⟨read, hread, hreasoning⟩ := List.mem_filterMap.mp hitem
    cases read with
    | reasoning read' =>
      obtain rfl : read' = item := Option.some.inj hreasoning
      exact ResponsesDecoder.decode_checked T.fresh T.decoded _ hread
    | assistantMessage | toolCall => cases hreasoning
  have hsome : input ≠ [] := by
    obtain ⟨call, -, hcall⟩ := T.exists_call T.turn.commentary
    have hmem : InputItem.functionCall (deterministicProviderCallId call.1) call.2.input.kind.name
        (call.2.input.providerArguments m.codec) none ∈ input :=
      hperm.mem_iff.mpr (List.mem_append_right _ (List.mem_flatMap.mpr
        ⟨_, hentries hcall, List.mem_singleton.mpr rfl⟩))
    exact List.ne_nil_of_mem hmem
  have hadmitted : (∀ item ∈ input, ItemAdmitted m item) ↔
      (∀ item ∈ T.outcome.output.filterMap OutputItem.reasoning?,
        ReasoningSendable m.capabilities item) ∧
      ∀ call ∈ T.turn.calls,
        (call.input.providerArguments m.codec).utf8ByteSize ≤ maxToolArgumentBytes := by
    rw [← T.context_admitted hprints hcontext hresults]
    simp only [hperm.mem_iff, List.forall_mem_append, List.forall_mem_map]
    rw [and_iff_right hdeveloper]
    exact and_congr_left fun _ => forall₂_congr fun item hitem =>
      reasoningItem_admitted hprotocol (hchecked item hitem)
  constructor
  · rintro ⟨input', hbuilt', ⟨bytes, hvalid⟩, -⟩
    obtain rfl : input = input' := Except.ok.inj (hbuilt.symm.trans hbuilt')
    obtain ⟨-, hitems, hfits, -⟩ := validateInput_ok.mp hvalid
    obtain ⟨hreasoning, harguments⟩ := hadmitted.mp hitems
    exact ⟨hreasoning, harguments, (InputFits.perm hperm).mp hfits⟩
  · rintro ⟨hreasoning, harguments, hfits⟩
    exact ⟨input, hbuilt, ⟨_, validateInput_ok.mpr ⟨hsome, hadmitted.mpr ⟨hreasoning, harguments⟩,
      (InputFits.perm hperm).mpr hfits, rfl⟩⟩, hknown⟩

/-! ## A turn that cannot be sent back -/

/-- The text of a value without fractions. -/
def jsonBytes : Json → List UInt8
  | .null => bytesOf "null"
  | .bool value => bytesOf (toString value)
  | .natural value => bytesOf (toString value)
  | .negative magnitude => bytesOf "-" ++ bytesOf (toString magnitude)
  | .fraction _ => []
  | .string value => stringBytes value
  | .array values => bytesOf "[" ++ items values ++ bytesOf "]"
  | .object fields => bytesOf "\x7b" ++ members fields ++ bytesOf "\x7d"
where
  stringBytes (value : String) : List UInt8 :=
    bytesOf "\"" ++ value.toList.flatMap (fun c => bytesOf (jsonCharacter c)) ++ bytesOf "\""
  items : List Json → List UInt8
    | [] => []
    | [value] => jsonBytes value
    | value :: rest => jsonBytes value ++ bytesOf "," ++ items rest
  members : List (String × Json) → List UInt8
    | [] => []
    | [(name, value)] => stringBytes name ++ bytesOf ":" ++ jsonBytes value
    | (name, value) :: rest =>
      stringBytes name ++ bytesOf ":" ++ jsonBytes value ++ bytesOf "," ++ members rest

/-- The text of bytes that are all ASCII. -/
def asciiText (bytes : List UInt8) : String := String.ofList (bytes.map fun b => Char.ofNat b.toNat)

/-- A codec that knows the texts of some values, and of every other object that it is one. -/
def turnCodec (values : List Json) : Codec where
  parse bytes :=
    match values.find? fun value => jsonBytes value = bytes with
    | some value => some value
    | none => if bytes.head? = some 0x7b then some (.object []) else none
  encode
    | .object fields => "\x7b" ++ asciiText (jsonBytes.members fields ++ bytesOf "\x7d")
    | value => asciiText (jsonBytes value)
  costText _ := false
  callDigest _ _ := "0123456789abcdef0123456789abcdef"

theorem turnCodec_prints {values : List Json} (hobjects : values.all Json.isObject = true)
    (hempty : values.find? (fun value => jsonBytes value = []) = none) :
    Prints (turnCodec values) where
  object input := by
    have hhead : (bytesOf (input.providerArguments (turnCodec values))).head? = some 0x7b := by
      have hbrace : (bytesOf "\x7b").head? = some 0x7b := by decide +kernel
      rw [CatalogInput.providerArguments, turnCodec, bytesOf_append, List.head?_append, hbrace]
      rfl
    simp only [turnCodec]
    split
    case h_1 value hvalue =>
      exact ⟨value, rfl, List.all_eq_true.mp hobjects value (List.mem_of_find?_eq_some hvalue)⟩
    case h_2 =>
      exact ⟨.object [], if_pos hhead, rfl⟩
  empty := by
    simp only [turnCodec]
    rw [hempty]
    rfl

/-- A response that calls Bash after a reasoning item with the given summary. -/
def callingResponse (summary : List String) : List Json :=
  let identity (status : String) : List (String × Json) :=
    [("id", .string "resp_1"), ("object", .string "response"), ("status", .string status)]
  [.object [("type", .string "response.created"), ("sequence_number", .natural 0),
      ("response", .object (identity "in_progress"))],
    .object [("type", .string "response.completed"), ("sequence_number", .natural 1),
      ("response", .object (identity "completed" ++ [("model", .string "model"),
        ("output", .array [.object [("type", .string "reasoning"), ("id", .string "rs_1"),
            ("summary", .array (summary.map fun text =>
              .object [("type", .string "summary_text"), ("text", .string text)]))],
          .object [("type", .string "function_call"), ("id", .string "fc_1"),
            ("call_id", .string "call_1"), ("name", .string "bash"),
            ("arguments", .string "\x7b\"command\":\"ls\"\x7d"),
            ("status", .string "completed")]]),
        ("usage", .object [("input_tokens", .natural 100),
          ("input_tokens_details", .object [("cached_tokens", .natural 0)]),
          ("output_tokens", .natural 10),
          ("output_tokens_details", .object [("reasoning_tokens", .natural 0)]),
          ("total_tokens", .natural 110)])]))]]

/-- The events of that response and the arguments of its call. -/
def callingCodec (summary : List String) : Codec :=
  turnCodec (.object [("command", .string "ls")] :: callingResponse summary)

def callingModel (summary : List String) : RequestModel where
  codec := callingCodec summary
  normalizedImage _ := false
  protocol := .responses
  capabilities := ⟨false, true⟩

def callingOutcome (summary : List String) : Outcome :=
  ⟨"resp_1", [.reasoning ⟨"rs_1", summary, none⟩,
    .toolCall ⟨some "fc_1", "call_1", "bash", "\x7b\"command\":\"ls\"\x7d", none⟩],
    ⟨100, 0, 0, 10, 0, 110⟩⟩

def callingTurn : ProviderToolTurn :=
  ⟨"resp_1", ⟨100, 0, 0, 10, 0, 110⟩, none, [⟨"call_1", .bash "ls", none⟩]⟩

/-- The calls that turn is committed with in the run that has asked. -/
def callingCommit (summary : List String) : Except PersistenceError (List CommittedToolCall × Store) :=
  completeProviderToolTurn (.open 10) askedRun 4 9 (callingTurn.stored (callingCodec summary))

/-- The turn of that response. -/
theorem exists_callingTurn {summary : List String} {committed : List CommittedToolCall}
    {stored : Store}
    (hdecode : (ResponsesDecoder.decoding (callingCodec summary) (.new "model" 96000 32000)).decode
      [((callingResponse summary).map jsonBytes).flatMap SseBuffer.dataRecord] =
        .ok (callingOutcome summary, []))
    (hnormalize : normalizeProviderTurn (callingCodec summary) (callingOutcome summary) 16 =
      .ok (.tools callingTurn [⟨"rs_1", summary, none⟩]))
    (hcommit : callingCommit summary = .ok (committed, stored)) :
    ∃ T : ToolTurn (callingModel summary).codec, T.outcome = callingOutcome summary ∧
      T.turn = callingTurn ∧ T.operationId = 9 ∧ T.committed = committed :=
  ⟨⟨.new "model" 96000 32000, ⟨rfl, rfl⟩, _, _, _, hdecode, 16, _, _, hnormalize, .open 10, askedRun,
    4, 9, committed, stored, hcommit⟩, rfl, rfl, rfl, rfl⟩

theorem callingCommit_calls {summary : List String}
    (h : (callingCommit summary).toOption.map (fun result => result.1.map (·.callId)) = some [10]) :
    ∃ committed stored, callingCommit summary = .ok (committed, stored) ∧
      committed.map (·.callId) = [10] := by
  cases hcommit : callingCommit summary with
  | error e =>
    rw [hcommit] at h
    cases h
  | ok result => exact ⟨result.1, result.2, rfl, by rw [hcommit] at h; exact Option.some.inj h⟩

/-- The context after that turn: the user's message, the call and its result. -/
def callingContext : List ContextEntry :=
  [.userMessage "go", .toolCall 10 9 (.bash "ls"),
    .toolResult 10 (.ok (.bash (some 0) none "" "")) none]

theorem callingTurn_context {codec : Codec} {T : ToolTurn codec} (hturn : T.turn = callingTurn)
    (hoperation : T.operationId = 9) (hcalls : T.committed.map (·.callId) = [10]) :
    T.context [.userMessage "go"] [] [(.ok (.bash (some 0) none "" ""), none)] =
      callingContext := by
  obtain ⟨call, hcommitted, hid⟩ := List.map_eq_singleton_iff.mp hcalls
  simp only [ToolTurn.context, ToolTurn.calls, ToolTurn.results, turnEntries, hturn,
    hoperation, hcommitted, callingTurn]
  simp [callingContext, hid]

/-- A response with a summary of its reasoning is sent back. -/
theorem summary_replays : ∃ T : ToolTurn (callingModel ["why"]).codec,
    T.outcome = callingOutcome ["why"] ∧
    Replays (callingModel ["why"]) id ⟨T.continuation none, seenAfter id [] T.outcome⟩ ["core"]
      (T.context [.userMessage "go"] [] [(.ok (.bash (some 0) none "" ""), none)]) := by
  obtain ⟨committed, stored, hcommit, hcalls⟩ := @callingCommit_calls ["why"] (by decide +kernel)
  obtain ⟨T, houtcome, hturn, hoperation, hcommitted⟩ := exists_callingTurn
    (Decoding.decode_lines (by decide +kernel) (by decide +kernel) (by decide +kernel))
    (by decide +kernel) hcommit
  have hprints : Prints (callingModel ["why"]).codec :=
    turnCodec_prints (by decide +kernel) (by decide +kernel)
  refine ⟨T, houtcome, (toolTurn_replays hprints rfl (Transition.reachable_start rfl) T []
    ?_ ?_ ?_).mpr ⟨?_, ?_, ?_⟩⟩
  · intro item hitem
    obtain rfl := List.mem_singleton.mp hitem
    exact ⟨by decide, by decide, nofun⟩
  · intro entry hentry item hitem
    obtain rfl := List.mem_singleton.mp hentry
    obtain rfl := List.mem_singleton.mp hitem
    exact ⟨by decide, by decide, nofun⟩
  · intro result hresult
    obtain rfl := List.mem_singleton.mp hresult
    exact ⟨(require_ok _ _ _).mpr (by decide +kernel), nofun⟩
  · intro item hitem
    rw [houtcome] at hitem
    obtain rfl := List.mem_singleton.mp hitem
    refine ⟨.inl (List.cons_ne_nil _ _), nofun, fun summary hsummary => ?_⟩
    obtain rfl := List.mem_singleton.mp hsummary
    decide +kernel
  · intro call hcall
    rw [hturn] at hcall
    obtain rfl := List.mem_singleton.mp hcall
    decide +kernel
  · rw [callingTurn_context hturn hoperation (hcommitted ▸ hcalls), houtcome]
    decide +kernel

/-- A response whose reasoning has neither a summary nor encrypted content is accepted and
committed, and what follows it is refused by the encoder. -/
theorem emptyReasoning_refused : ∃ T : ToolTurn (callingModel []).codec,
    T.outcome = callingOutcome [] ∧
    ¬ Replays (callingModel []) id ⟨T.continuation none, seenAfter id [] T.outcome⟩ ["core"]
      (T.context [.userMessage "go"] [] [(.ok (.bash (some 0) none "" ""), none)]) := by
  obtain ⟨committed, stored, hcommit, hcalls⟩ := @callingCommit_calls [] (by decide +kernel)
  obtain ⟨T, houtcome, hturn, hoperation, hcommitted⟩ := exists_callingTurn
    (Decoding.decode_lines (by decide +kernel) (by decide +kernel) (by decide +kernel))
    (by decide +kernel) hcommit
  refine ⟨T, houtcome, ?_⟩
  rintro ⟨input, hbuilt, ⟨bytes, hvalid⟩, -⟩
  have hentries : turnEntries T.operationId T.turn.commentary T.calls ⊆
      T.context [.userMessage "go"] [] [(.ok (.bash (some 0) none "" ""), none)] :=
    fun entry hentry => List.mem_append_left _ (List.mem_append_left _
      (List.mem_append_right _ hentry))
  have hstart : TurnsReached (callingModel []).codec id {} := Transition.reachable_start rfl
  obtain ⟨input', hbuilt', hperm, -⟩ := T.builds hstart [] ["core"] hentries
  obtain rfl : input' = input := Except.ok.inj (hbuilt'.symm.trans hbuilt)
  have hitem : InputItem.reasoning ⟨"rs_1", [], none⟩ ∈ input' := by
    refine hperm.mem_iff.mpr (List.mem_append_left _ (List.mem_append_right _ ?_))
    rw [houtcome]
    exact List.mem_singleton.mpr rfl
  obtain ⟨-, -, hcontent, -⟩ := (validateInput_ok.mp hvalid).2.1 _ hitem
  exact hcontent.elim (fun hsummary => hsummary rfl) nofun

end Morons
