import Morons.Invariant.Transcript

/-!
# Tool calls

A committed call has one entry in the transcript; its facts climb from
prepared over dispatched to one outcome, and the outcome, which carries the
result, has one entry too.
-/

namespace Morons

open Ledger

variable {d : Discipline} {s t : Store}

/-- What the entry of a call and the call itself agree on. -/
structure CallPlace where
  callId : ToolCallId
  runId : RunId
  sessionId : SessionId
  deriving DecidableEq

def ToolCall.place (c : ToolCall) : CallPlace := ⟨c.callId, c.runId, c.sessionId⟩

def ToolOperationFact.place (f : ToolOperationFact) : CallPlace := ⟨f.callId, f.runId, f.sessionId⟩

def SessionEntry.calledPlace (e : SessionEntry) : Option CallPlace :=
  e.body.calledTool.map fun callId => ⟨callId, e.runId, e.sessionId⟩

def SessionEntry.finishedPlace (e : SessionEntry) : Option CallPlace :=
  e.body.finishedTool.map fun callId => ⟨callId, e.runId, e.sessionId⟩

structure Called (s : Store) : Prop where
  entries : s.sessionEntries.filterMap SessionEntry.calledPlace = s.toolCalls.map ToolCall.place
  answers : s.sessionEntries.filterMap SessionEntry.finishedPlace =
    (s.toolOperationFacts.filter (·.factKind.isTerminal)).map ToolOperationFact.place
  staged : ∀ callId, Staged (fun f : ToolOperationFact => f.factKind.rank)
    (s.toolOperationFacts.filter fun f => f.callId = callId)
  known : ∀ f ∈ s.toolOperationFacts, ∃ c ∈ s.toolCalls,
    c.place = f.place ∧ c.operationId = f.operationId
  results : ∀ f ∈ s.toolOperationFacts, f.result.isSome = f.factKind.isTerminal

theorem called_empty : Called Store.empty := by
  constructor <;> simp [Store.empty, staged_nil]

/-- An entry that is no part of a call. -/
theorem finishedPlace_none {e : SessionEntry} (h : e.body.toolCallId = none) :
    e.calledPlace = none ∧ e.finishedPlace = none := by
  unfold SessionEntry.calledPlace SessionEntry.finishedPlace
  cases hbody : e.body with
  | user text => exact ⟨rfl, rfl⟩
  | assistant service modelId text refusal phase => exact ⟨rfl, rfl⟩
  | toolCall service modelId callId =>
    rw [hbody] at h
    cases h
  | toolResult callId =>
    rw [hbody] at h
    cases h

namespace Called

theorem move (h : Called s) {run : Run} {state : RunState} {failure : Option RunFailureKind}
    {kind : EventKind} {now n : Nat} : Called (moveRun s run state failure kind now n) :=
  { h with }

theorem paused (h : Called s) (p : Paused s t) : Called t := by
  rw [p.frame]
  exact { h with }

theorem ended (h : Called s) {run : Run} {state : RunState} {failure : Option RunFailureKind}
    {kind : EventKind} {now : Nat} {u : Store} : Called (endRun s u run state failure kind now) :=
  { h with }

theorem outcome (h : Called s) {run : Run} {fact : ProviderOperationFact} :
    Called (writeProviderOutcome s run fact) :=
  { h with }

/-- Entries without a call change nothing here. -/
theorem plain (h : Called s) {entry : SessionEntry} {entries : List SessionEntry}
    (hentries : entries = entry :: s.sessionEntries) (hplain : entry.body.toolCallId = none) :
    entries.filterMap SessionEntry.calledPlace = s.toolCalls.map ToolCall.place ∧
      entries.filterMap SessionEntry.finishedPlace =
        (s.toolOperationFacts.filter (·.factKind.isTerminal)).map ToolOperationFact.place := by
  subst hentries
  obtain ⟨hcalled, hfinished⟩ := finishedPlace_none hplain
  rw [List.filterMap_cons_none hcalled, List.filterMap_cons_none hfinished]
  exact ⟨h.entries, h.answers⟩

theorem finalEntry (h : Called s) {run : Run} {assistant : CompletedAssistant}
    {entrySequence now : Nat} : Called (writeFinalEntry s run assistant entrySequence now) :=
  { h with
    entries := (h.plain rfl rfl).1
    answers := (h.plain rfl rfl).2 }

/-- One more fact of a call, of a higher stage than the ones it has. -/
theorem fact (h : Called s) (call : ToolCall) {fact : ToolOperationFact}
    (hcall : fact.callId = call.callId)
    (hstage : ∀ f ∈ s.toolOperationFacts, f.callId = call.callId →
      f.factKind.rank < fact.factKind.rank) (callId : ToolCallId) :
    Staged (fun f : ToolOperationFact => f.factKind.rank)
      ((fact :: s.toolOperationFacts).filter fun f => f.callId = callId) := by
  by_cases e : fact.callId = callId
  · rw [List.filter_cons_of_pos (by simpa using e)]
    refine staged_cons.mpr ⟨fun f hf => ?_, h.staged callId⟩
    obtain ⟨hf, hid⟩ := List.mem_filter.mp hf
    have hid : f.callId = callId := by simpa using hid
    exact hstage f hf (hid.trans (e.symm.trans hcall))
  · rw [List.filter_cons_of_neg (by simpa using e)]
    exact h.staged callId

/-- A call that is under way has facts of lower stages only. -/
theorem stage_open {callId : ToolCallId} (hopen : toolTerminal s callId = false) :
    ∀ f ∈ s.toolOperationFacts, f.callId = callId → f.factKind.rank < 2 := by
  intro f hf hid
  have hterminal := List.any_eq_false.mp hopen f hf
  cases hkind : f.factKind <;> simp_all [ToolFactKind.rank, ToolFactKind.isTerminal]

theorem toolResult (h : Called s) {run : Run} {call : ToolCall} {result : ToolResult}
    {factKind : ToolFactKind} {resultStatus : ToolResultStatus} {entrySequence now : Nat}
    (active : ActiveCall s run call) (hopen : toolTerminal s call.callId = false)
    (hterminal : factKind.isTerminal = true) :
    Called (recordToolResult s run call result factKind resultStatus entrySequence now) := by
  have hplace : call.place = ⟨call.callId, run.id, run.sessionId⟩ := by
    rw [ToolCall.place, active.ofRun, active.ofSession]
  have hrank : factKind.rank = 2 := by
    cases factKind <;> first | rfl | cases hterminal
  exact
    { entries := h.entries
      answers := by
        rw [recordToolResult_toolOperationFacts, List.filter_cons_of_pos (by simpa using hterminal),
          List.map_cons, ← h.answers]
        rfl
      staged := by
        rw [recordToolResult_toolOperationFacts]
        refine h.fact call rfl fun f hf hid => ?_
        rw [hrank]
        exact stage_open hopen f hf hid
      known := by
        rw [recordToolResult_toolOperationFacts]
        intro f hf
        rcases List.mem_cons.mp hf with rfl | hf
        · exact ⟨call, Table.find_mem active.foundCall, hplace, rfl⟩
        · exact h.known f hf
      results := by
        rw [recordToolResult_toolOperationFacts]
        intro f hf
        rcases List.mem_cons.mp hf with rfl | hf
        · exact hterminal.symm
        · exact h.results f hf }

/-- A prepared or dispatched fact. -/
theorem toolFact (h : Called s) {run : Run} {call : ToolCall} {factKind : ToolFactKind}
    {auditKind : ToolAuditKind} {recoveryPlan : Option String} {bindings : List WebModelBinding}
    {now : Nat} (active : ActiveCall s run call) (hopen : factKind.isTerminal = false)
    (hstage : ∀ f ∈ s.toolOperationFacts, f.callId = call.callId →
      f.factKind.rank < factKind.rank) :
    Called (writeToolFact s run call factKind auditKind recoveryPlan bindings now) := by
  have hplace : call.place = ⟨call.callId, run.id, run.sessionId⟩ := by
    rw [ToolCall.place, active.ofRun, active.ofSession]
  exact
    { entries := h.entries
      answers := by
        show _ = ((_ :: s.toolOperationFacts).filter _).map _
        rw [List.filter_cons_of_neg (by simpa using hopen)]
        exact h.answers
      staged := h.fact call rfl hstage
      known := by
        intro f hf
        rcases List.mem_cons.mp hf with rfl | hf
        · exact ⟨call, Table.find_mem active.foundCall, hplace, rfl⟩
        · exact h.known f hf
      results := by
        intro f hf
        rcases List.mem_cons.mp hf with rfl | hf
        · exact hopen.symm
        · exact h.results f hf }

/-- The entries, calls and facts of a session go together. -/
theorem cleanup (h : Called s) (request : SessionDeleteRequest) :
    Called (writeCleanup s request) where
  entries := by
    have hkept : ∀ e : SessionEntry, (if decide (e.sessionId ≠ request.sessionId) = true then
        e.calledPlace else none) =
          e.calledPlace.filter fun p => decide (p.sessionId ≠ request.sessionId) := by
      intro e
      unfold SessionEntry.calledPlace
      cases e.body.calledTool with
      | none => simp
      | some callId => simp [Option.filter]
    show (s.sessionEntries.filter _).filterMap _ = (s.toolCalls.filter _).map _
    rw [List.filterMap_filter, funext hkept, ← List.filter_filterMap, h.entries, List.filter_map]
    rfl
  answers := by
    have hkept : ∀ e : SessionEntry, (if decide (e.sessionId ≠ request.sessionId) = true then
        e.finishedPlace else none) =
          e.finishedPlace.filter fun p => decide (p.sessionId ≠ request.sessionId) := by
      intro e
      unfold SessionEntry.finishedPlace
      cases e.body.finishedTool with
      | none => simp
      | some callId => simp [Option.filter]
    show (s.sessionEntries.filter _).filterMap _ = ((s.toolOperationFacts.filter _).filter _).map _
    rw [List.filterMap_filter, funext hkept, ← List.filter_filterMap, h.answers, List.filter_map,
      List.filter_comm]
    rfl
  staged callId := (h.staged callId).sublist (List.filter_sublist.filter _)
  known f hf := by
    obtain ⟨hf, hother⟩ := List.mem_filter.mp hf
    obtain ⟨c, hc, hplace, hoperation⟩ := h.known f hf
    have hsession : c.sessionId = f.sessionId := congrArg CallPlace.sessionId hplace
    exact ⟨c, List.mem_filter.mpr ⟨hc, hsession ▸ hother⟩, hplace, hoperation⟩
  results f hf := h.results f (List.mem_of_mem_filter hf)

theorem write (h : Called s) (w : Write d s t) : Called t := by
  cases w with
  | recovery u now paused => exact h.paused (pause_paused paused)
  | steering mutation u item now fresh text admitted applied =>
    rw [(steering_frame applied).2]
    exact { h with }
  | archiveRequest requestId fingerprint sessionId archived now u fresh found paused =>
    refine Called.paused ?_ (requestArchive_paused paused)
    exact { h with }
  | cancellation requestId fingerprint run now fresh foundSession found room recordable canonical u
      paused =>
    refine Called.paused ?_ (cancelled_paused paused)
    exact { h with }
  | cleanup request => exact h.cleanup request
  | acceptance =>
    exact { h with
      entries := (h.plain rfl rfl).1
      answers := (h.plain rfl rfl).2 }
  | activate => exact h.move
  | outcome => exact h.outcome
  | finish run outcome =>
    cases outcome with
    | none => exact h.ended
    | some fact => exact h.outcome.ended
  | answer => exact h.outcome.finalEntry.ended
  | commentary =>
    exact { h with
      entries := (h.plain rfl rfl).1
      answers := (h.plain rfl rfl).2 }
  | toolCall run state providerOperationId call callIndex now entry =>
    exact
      { entries := by
          show (_ :: s.sessionEntries).filterMap _ = (_ :: s.toolCalls).map _
          rw [List.map_cons, ← h.entries]
          rfl
        answers := h.answers
        staged := h.staged
        known := fun f hf => by
          obtain ⟨c, hc, hplace⟩ := h.known f hf
          exact ⟨c, List.mem_cons_of_mem _ hc, hplace⟩
        results := h.results }
  | toolPrepared run call recoveryPlan now active fresh =>
    exact h.toolFact active rfl fun f hf hid => absurd hid (fresh f hf)
  | toolDispatched run call bindings now active prepared open_ fresh =>
    refine h.toolFact active rfl fun f hf hid => ?_
    have hlow := stage_open open_ f hf hid
    have hkind := List.any_eq_false.mp fresh f hf
    cases e : f.factKind <;> simp_all [ToolFactKind.rank]
  | toolResult run state call result factKind resultStatus now active entry prepared open_
      classified =>
    exact h.toolResult active open_ (classifyResult_terminal classified)
  | toolUncertain run state call result factKind resultStatus now u active entry prepared open_
      classified =>
    exact (h.toolResult active open_ (classifyResult_terminal classified)).ended
  | _ => exact { h with }

/-! ## The call and the outcome of an entry -/

/-- An entry of a call finds it. -/
theorem call_of_entry (h : Called s) (hid : Identified s) {e : SessionEntry}
    (he : e ∈ s.sessionEntries) {callId : ToolCallId} (hcall : e.body.toolCallId = some callId) :
    ∃ c, Table.find ToolCall.callId callId s.toolCalls = some c ∧
      c.place = ⟨callId, e.runId, e.sessionId⟩ := by
  have hkeyed : Table.Keyed ToolCall.callId s.toolCalls := hid.toolCalls.nodup
  have hfind : ∀ c ∈ s.toolCalls, c.place = ⟨callId, e.runId, e.sessionId⟩ →
      Table.find ToolCall.callId callId s.toolCalls = some c := by
    intro c hc hplace
    exact (Table.find_iff hkeyed).mpr ⟨hc, congrArg CallPlace.callId hplace⟩
  cases hbody : e.body with
  | user text =>
    rw [hbody] at hcall
    cases hcall
  | assistant service modelId text refusal phase =>
    rw [hbody] at hcall
    cases hcall
  | toolCall service modelId callId' =>
    rw [hbody] at hcall
    obtain rfl : callId' = callId := Option.some.inj hcall
    have hplace : e.calledPlace = some ⟨callId', e.runId, e.sessionId⟩ := by
      rw [SessionEntry.calledPlace, hbody]
      rfl
    have hmem := List.mem_filterMap.mpr ⟨e, he, hplace⟩
    rw [h.entries] at hmem
    obtain ⟨c, hc, hcplace⟩ := List.mem_map.mp hmem
    exact ⟨c, hfind c hc hcplace, hcplace⟩
  | toolResult callId' =>
    rw [hbody] at hcall
    obtain rfl : callId' = callId := Option.some.inj hcall
    have hplace : e.finishedPlace = some ⟨callId', e.runId, e.sessionId⟩ := by
      rw [SessionEntry.finishedPlace, hbody]
      rfl
    have hmem := List.mem_filterMap.mpr ⟨e, he, hplace⟩
    rw [h.answers] at hmem
    obtain ⟨f, hf, hfplace⟩ := List.mem_map.mp hmem
    obtain ⟨c, hc, hcplace, -⟩ := h.known f (List.mem_of_mem_filter hf)
    exact ⟨c, hfind c hc (hcplace.trans hfplace), hcplace.trans hfplace⟩

end Called

end Morons
