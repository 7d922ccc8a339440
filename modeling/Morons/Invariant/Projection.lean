import Morons.Invariant.Run

/-!
# Runs and their projection

The row of a run repeats what its facts say: the newest state fact gives the
state and the failure, an applied request sets the cancellation flag, and the
counters count the completed responses, the calls and the bytes of the results.
-/

namespace Morons

open Ledger

variable {d : Discipline} {s t : Store}

/-- `length(result_payload)`. -/
def ToolOperationFact.resultBytes (f : ToolOperationFact) : Nat :=
  (f.result.map (·.payloadBytes)).getD 0

/-- The columns of a run that its facts determine. -/
structure Recounted (s : Store) (run : Run) : Prop where
  state : run.state =
    ((Table.find RunStateFact.runId run.id s.runStateFacts).map (·.state)).getD .accepted
  failure : run.failure = (Table.find RunStateFact.runId run.id s.runStateFacts).bind (·.failure)
  cancelled : run.cancellationRequested =
    s.runCancellationRequests.any fun c => c.runId = run.id && c.intentApplied
  turns : run.providerTurns =
    s.providerOperationFacts.countP fun f => f.runId = run.id && f.factKind = .completed
  calls : run.toolCalls = s.toolCalls.countP fun c => c.runId = run.id
  mutations : run.toolMutations =
    s.toolCalls.countP fun c => c.runId = run.id && c.input.kind.isMutation
  bytes : run.toolResultBytes =
    ((s.toolOperationFacts.filter fun f => f.runId = run.id && f.factKind.isTerminal).map
      ToolOperationFact.resultBytes).sum

def Projected (s : Store) : Prop := ∀ run ∈ s.runs, Recounted s run

theorem projected_empty : Projected Store.empty := by simp [Projected, Store.empty]

namespace Projected

/-- A transition puts its fact on top of the state facts of the run. -/
theorem move (h : Projected s) {run : Run} {state : RunState} {failure : Option RunFailureKind}
    {kind : EventKind} {now n : Nat} : Projected (moveRun s run state failure kind now n) := by
  intro r' hr'
  obtain ⟨r, hr, rfl⟩ := Table.mem_modify.mp hr'
  have hold := h r hr
  by_cases hid : r.id = run.id
  · rw [if_pos hid]
    exact { hold with
      state := by simp [hid]
      failure := by simp [hid] }
  · rw [if_neg hid]
    have hne : ¬ run.id = r.id := fun e => hid e.symm
    exact { hold with
      state := by simpa [hne] using hold.state
      failure := by simpa [hne] using hold.failure }

theorem paused (h : Projected s) (p : Paused s t) : Projected t := by
  rw [p.frame]
  exact fun r hr => { h r hr with }

theorem ended (h : Projected s) {run : Run} {state : RunState} {failure : Option RunFailureKind}
    {kind : EventKind} {now : Nat} {u : Store} :
    Projected (endRun s u run state failure kind now) :=
  fun r hr => { h.move (n := u.nextValue) r hr with }

/-- A completed response is a turn. -/
theorem outcome (h : Projected s) (hkeyed : Table.Keyed Run.id s.runs) {run : Run}
    {fact : ProviderOperationFact} (found : loadRun s run.id = some run)
    (hrun : fact.runId = run.id) : Projected (writeProviderOutcome s run fact) := by
  have hturns : ∀ id, (fact :: s.providerOperationFacts).countP
      (fun f => f.runId = id && f.factKind = .completed) =
      (s.providerOperationFacts.countP fun f => f.runId = id && f.factKind = .completed) +
        if run.id = id ∧ fact.factKind = .completed then 1 else 0 := by
    intro id
    simp [List.countP_cons, hrun]
  intro r' hr'
  by_cases hkind : fact.factKind = .completed
  · have hruns : (writeProviderOutcome s run fact).runs = Table.modify Run.id run.id
        (fun r => { r with providerTurns := run.providerTurns + 1 }) s.runs := if_pos hkind
    rw [hruns] at hr'
    obtain ⟨r, hr, rfl⟩ := Table.mem_modify.mp hr'
    have hold := h r hr
    by_cases hid : r.id = run.id
    · have hsame : r = run := Table.eq_of_key hkeyed hr (Table.find_mem found) hid
      subst hsame
      rw [if_pos rfl]
      exact { hold with
        turns := by
          have hone := hturns r.id
          rw [if_pos ⟨rfl, hkind⟩, ← hold.turns] at hone
          exact hone.symm }
    · rw [if_neg hid]
      have hne : ¬ run.id = r.id := fun e => hid e.symm
      exact { hold with
        turns := by
          have hone := hturns r.id
          rw [if_neg (fun e => hne e.1), ← hold.turns] at hone
          exact hone.symm }
  · have hruns : (writeProviderOutcome s run fact).runs = s.runs := if_neg hkind
    rw [hruns] at hr'
    have hold := h r' hr'
    exact { hold with
      turns := by
        have hone := hturns r'.id
        rw [if_neg (fun e => hkind e.2), ← hold.turns] at hone
        exact hone.symm }

theorem finalEntry (h : Projected s) {run : Run} {assistant : CompletedAssistant}
    {entrySequence now : Nat} : Projected (writeFinalEntry s run assistant entrySequence now) :=
  fun r hr => { h r hr with }

/-- The bytes of a result count once it is terminal. -/
theorem toolResult (h : Projected s) (hkeyed : Table.Keyed Run.id s.runs) {run : Run}
    {call : ToolCall} {result : ToolResult} {factKind : ToolFactKind}
    {resultStatus : ToolResultStatus} {entrySequence now : Nat}
    (found : loadRun s run.id = some run) (hkind : factKind.isTerminal = true) :
    Projected (recordToolResult s run call result factKind resultStatus entrySequence now) := by
  intro r' hr'
  obtain ⟨r, hr, rfl⟩ := Table.mem_modify.mp hr'
  have hold := h r hr
  by_cases hid : r.id = run.id
  · have hsame : r = run := Table.eq_of_key hkeyed hr (Table.find_mem found) hid
    subst hsame
    rw [if_pos rfl]
    exact { hold with
      bytes := by
        simp [hkind, ToolOperationFact.resultBytes, hold.bytes]
        omega }
  · rw [if_neg hid]
    have hne : ¬ run.id = r.id := fun e => hid e.symm
    exact { hold with
      bytes := by
        simpa [hne] using hold.bytes }

/-- A request that is applied sets the flag. -/
theorem cancellation (h : Projected s) {requestId : MutationRequestId} {fingerprint : Fingerprint}
    {run : Run} {now : Nat} : Projected (writeCancellation s requestId fingerprint run now) := by
  have hcancelled : ∀ (r : Run) (applied : Bool) (c : RunCancellationRequest), c.runId = run.id →
      c.intentApplied = applied → ((c :: s.runCancellationRequests).any fun c =>
        c.runId = r.id && c.intentApplied) = ((decide (run.id = r.id) && applied) ||
          s.runCancellationRequests.any fun c => c.runId = r.id && c.intentApplied) := by
    intro r applied c hrun happlied
    simp [hrun, happlied]
  intro r' hr'
  by_cases happlied : (!run.state.isTerminal && !run.cancellationRequested) = true
  · simp only [writeCancellation, happlied, if_true] at hr'
    obtain ⟨r, hr, rfl⟩ := Table.mem_modify.mp hr'
    have hold := h r hr
    by_cases hrid : r.id = run.id
    · rw [if_pos hrid]
      exact { hold with
        cancelled := by
          show true = _
          rw [writeCancellation_requests, hcancelled _ true _ rfl happlied]
          simp [hrid] }
    · rw [if_neg hrid]
      have hne : ¬ run.id = r.id := fun e => hrid e.symm
      exact { hold with
        cancelled := by
          rw [writeCancellation_requests, hcancelled _ true _ rfl happlied, hold.cancelled]
          simp [hne] }
  · have hno := Bool.eq_false_iff.mpr happlied
    simp only [writeCancellation, hno, Bool.false_eq_true, if_false] at hr'
    have hold := h r' hr'
    exact { hold with
      cancelled := by
        rw [writeCancellation_requests, hcancelled _ false _ rfl hno, hold.cancelled]
        simp }

/-- Rows of another run do not count. -/
theorem acceptance (h : Projected s) (hscoped : Scoped s) (hid : Identified s)
    {requestId : MutationRequestId} {fingerprint : Fingerprint} {sessionId : SessionId}
    {binding : RunBinding} {checkpoint : Option ContextCheckpointId} {text : String}
    {context : RunInputContext} {now : Nat} :
    Projected (writeAcceptance (s.drawn (s.nextValue + 3) (s.nextIdentifier + 4)) requestId
      fingerprint sessionId s.nextIdentifier (s.nextIdentifier + 1) binding checkpoint text context now
      (s.nextIdentifier + 2) (s.nextIdentifier + 3) s.nextValue (s.nextValue + 1)
      (s.nextValue + 2)) := by
  have hfresh : ∀ f ∈ s.runAcceptedFacts, f.runId ≠ s.nextIdentifier :=
    fun f hf => (hid.acceptedFacts.bounded f hf).ne
  have hstate : Table.find RunStateFact.runId s.nextIdentifier s.runStateFacts = none := by
    refine Table.find_none.mpr fun r hr => ?_
    obtain ⟨f, hf, e, -⟩ := hscoped.stateFacts r hr
    exact e ▸ hfresh f hf
  have hcancelled : ∀ r ∈ s.runCancellationRequests, r.runId ≠ s.nextIdentifier := by
    intro r hr
    obtain ⟨f, hf, e, -⟩ := hscoped.cancellations r hr
    exact e ▸ hfresh f hf
  have hproviders : ∀ r ∈ s.providerOperationFacts, r.runId ≠ s.nextIdentifier := by
    intro r hr
    obtain ⟨f, hf, e, -⟩ := hscoped.providerFacts r hr
    exact e ▸ hfresh f hf
  have hcalls : ∀ r ∈ s.toolCalls, r.runId ≠ s.nextIdentifier := by
    intro r hr
    obtain ⟨f, hf, e, -⟩ := hscoped.toolCalls r hr
    exact e ▸ hfresh f hf
  have hfacts : ∀ r ∈ s.toolOperationFacts, r.runId ≠ s.nextIdentifier := by
    intro r hr
    obtain ⟨f, hf, e, -⟩ := hscoped.toolFacts r hr
    exact e ▸ hfresh f hf
  intro r hr
  rcases List.mem_cons.mp hr with rfl | hr
  · constructor
    · show RunState.accepted = ((Table.find RunStateFact.runId s.nextIdentifier s.runStateFacts).map
        (·.state)).getD .accepted
      rw [hstate]
      rfl
    · show none = (Table.find RunStateFact.runId s.nextIdentifier s.runStateFacts).bind (·.failure)
      rw [hstate]
      rfl
    · exact (List.any_eq_false.mpr fun c hc => by simp [hcancelled c hc]).symm
    · exact (List.countP_eq_zero.mpr fun f hf => by simp [hproviders f hf]).symm
    · exact (List.countP_eq_zero.mpr fun c hc => by simp [hcalls c hc]).symm
    · exact (List.countP_eq_zero.mpr fun c hc => by simp [hcalls c hc]).symm
    · have hnone : (s.toolOperationFacts.filter fun f =>
          f.runId = s.nextIdentifier && f.factKind.isTerminal) = [] :=
        List.filter_eq_nil_iff.mpr fun f hf => by simp [hfacts f hf]
      show 0 = ((s.toolOperationFacts.filter fun f =>
        f.runId = s.nextIdentifier && f.factKind.isTerminal).map ToolOperationFact.resultBytes).sum
      rw [hnone]
      rfl
  · exact { h r hr with }

/-- The rows of a run that stays, stay. -/
theorem cleanup (h : Projected s) (hbound : Bound s) (hscoped : Scoped s) (hid : Identified s)
    (request : SessionDeleteRequest) : Projected (writeCleanup s request) := by
  intro run hrun
  obtain ⟨hrun, hother⟩ := List.mem_filter.mp hrun
  have hold := h run hrun
  have hkept : ∀ {runId sessionId f}, f ∈ s.runAcceptedFacts → f.runId = runId →
      f.sessionId = sessionId → runId = run.id →
        decide (sessionId ≠ request.sessionId) = true := by
    intro runId sessionId f hf hrunId hsession e
    rw [← hsession, hbound.session_eq hid hrun hf (hrunId.trans e)]
    exact hother
  have hstates : Table.find RunStateFact.runId run.id (s.runStateFacts.filter fun r =>
      decide (r.sessionId ≠ request.sessionId)) =
        Table.find RunStateFact.runId run.id s.runStateFacts := by
    refine Table.find_kept fun r hr e => ?_
    obtain ⟨f, hf, hrunId, hsession, -⟩ := hscoped.stateFacts r hr
    exact hkept hf hrunId hsession e
  have hcalls : ∀ r ∈ s.toolCalls, r.runId = run.id →
      decide (r.sessionId ≠ request.sessionId) = true := by
    intro r hr e
    obtain ⟨f, hf, hrunId, hsession, -⟩ := hscoped.toolCalls r hr
    exact hkept hf hrunId hsession e
  constructor
  · rw [hold.state, ← hstates]
    rfl
  · rw [hold.failure, ← hstates]
    rfl
  · rw [hold.cancelled]
    refine (Table.any_kept fun r hr e => ?_).symm
    obtain ⟨f, hf, hrunId, hsession, -⟩ := hscoped.cancellations r hr
    exact hkept hf hrunId hsession (by simpa using (Bool.and_eq_true_iff.mp e).1)
  · rw [hold.turns]
    refine (Table.countP_kept fun r hr e => ?_).symm
    refine decide_eq_true fun hin => ?_
    obtain ⟨f, hf, hrunId⟩ := List.mem_map.mp hin
    obtain ⟨hf, hsession⟩ := List.mem_filter.mp hf
    have hne := hkept hf hrunId rfl (by simpa using (Bool.and_eq_true_iff.mp e).1)
    exact of_decide_eq_true hne (of_decide_eq_true hsession)
  · rw [hold.calls]
    exact (Table.countP_kept fun r hr e => hcalls r hr (by simpa using e)).symm
  · rw [hold.mutations]
    exact (Table.countP_kept fun r hr e =>
      hcalls r hr (by simpa using (Bool.and_eq_true_iff.mp e).1)).symm
  · rw [hold.bytes]
    refine congrArg (fun l => (l.map ToolOperationFact.resultBytes).sum)
      (Table.filter_kept fun r hr e => ?_).symm
    obtain ⟨f, hf, hrunId, hsession, -⟩ := hscoped.toolFacts r hr
    exact hkept hf hrunId hsession (by simpa using (Bool.and_eq_true_iff.mp e).1)

theorem write (h : Projected s) (hbound : Bound s) (hscoped : Scoped s) (hid : Identified s)
    (w : Write d s t) : Projected t := by
  have hkeyed := hbound.keyed hid
  cases w with
  | recovery u now paused => exact h.paused (pause_paused paused)
  | steering mutation u item now fresh text admitted applied =>
    rw [(steering_frame applied).2]
    exact fun r hr => { h r hr with }
  | archiveRequest requestId fingerprint sessionId archived now u fresh found paused =>
    refine Projected.paused ?_ (requestArchive_paused paused)
    exact fun r hr => { h r hr with }
  | acceptance => exact h.acceptance hscoped hid
  | cleanup request => exact h.cleanup hbound hscoped hid request
  | activate => exact h.move
  | prepare | dispatch =>
    intro r hr
    exact { h r hr with
      turns := by
        rw [(h r hr).turns]
        simp [writeProviderFact, insertRunAudit, Store.drawn] }
  | outcome run fact found active admitted => exact h.outcome hkeyed found admitted.ofRun
  | finish run outcome state failure kind now u found admitted =>
    cases outcome with
    | none => exact h.ended
    | some fact => exact (h.outcome hkeyed found (admitted fact rfl).ofRun).ended
  | answer run state fact assistant now u entry admitted =>
    have hfact := h.outcome hkeyed entry.found admitted.ofRun
    exact hfact.finalEntry.ended
  | cancellation requestId fingerprint run now fresh foundSession found room recordable canonical u
      paused =>
    exact h.cancellation.paused (cancelled_paused paused)
  | toolCall run state providerOperationId call callIndex now entry =>
    intro r' hr'
    obtain ⟨r, hr, rfl⟩ := Table.mem_modify.mp hr'
    have hold := h r hr
    by_cases hrid : r.id = run.id
    · have hsame : r = run := Table.eq_of_key hkeyed hr (Table.find_mem entry.found) hrid
      subst hsame
      rw [if_pos rfl]
      exact { hold with
        calls := by
          show r.toolCalls + 1 = (_ :: s.toolCalls).countP _
          rw [List.countP_cons, hold.calls]
          simp [committedCall]
        mutations := by
          show r.toolMutations + _ = (_ :: s.toolCalls).countP _
          rw [List.countP_cons, hold.mutations]
          simp [committedCall] }
    · have hne : ¬ run.id = r.id := fun e => hrid e.symm
      rw [if_neg hrid]
      exact { hold with
        calls := by
          show r.toolCalls = (_ :: s.toolCalls).countP _
          rw [List.countP_cons, hold.calls]
          simp [committedCall, hne]
        mutations := by
          show r.toolMutations = (_ :: s.toolCalls).countP _
          rw [List.countP_cons, hold.mutations]
          simp [committedCall, hne] }
  | toolPrepared | toolDispatched =>
    intro r hr
    exact { h r hr with
      bytes := by
        rw [(h r hr).bytes]
        simp [writeToolFact, insertToolAudit, Store.drawn, ToolFactKind.isTerminal] }
  | toolResult run state call result factKind resultStatus now active entry prepared open_
      classified =>
    exact h.toolResult hkeyed active.found (classifyResult_terminal classified)
  | toolUncertain run state call result factKind resultStatus now u active entry prepared open_
      classified =>
    exact (h.toolResult hkeyed active.found (classifyResult_terminal classified)).ended
  | _ => exact fun r hr => { h r hr with }

end Projected

end Morons
