import Morons.Invariant.Projection

/-!
# The history of a run

The state facts of a run climb from accepted over active to one terminal
state, which is its newest fact; no row of the run is written after it.  A
run has at most one applied cancellation, recorded while the run was running.
-/

namespace Morons

open Ledger

variable {d : Discipline} {s t : Store}

/-! ## State facts -/

structure Chronicled (s : Store) : Prop where
  classified : ∀ f ∈ s.runStateFacts, f.state ≠ .accepted ∧ (f.state = .failed ↔ f.failure.isSome)
  staged : ∀ runId, Staged (fun f : RunStateFact => f.state.rank)
    (s.runStateFacts.filter fun f => f.runId = runId)

theorem chronicled_empty : Chronicled Store.empty :=
  ⟨by simp [Store.empty], fun _ => staged_nil⟩

/-- The run has not ended. -/
def Running (facts : List RunStateFact) (runId : RunId) : Prop :=
  ∀ f ∈ facts, f.runId = runId → f.state.isTerminal = false

namespace Chronicled

/-- The row of a run has reached the last of its stages. -/
theorem rank_le (h : Chronicled s) (hp : Projected s) {row : Run} (hrow : row ∈ s.runs) :
    ∀ f ∈ s.runStateFacts, f.runId = row.id → f.state.rank ≤ row.state.rank := by
  intro f hf hid
  have hin : f ∈ s.runStateFacts.filter fun f => f.runId = row.id :=
    List.mem_filter.mpr ⟨hf, by simp [hid]⟩
  have hstaged := h.staged row.id
  have hstate := (hp row hrow).state
  rw [Table.find, ← List.head?_filter] at hstate
  cases hfacts : s.runStateFacts.filter fun f => f.runId = row.id with
  | nil => rw [hfacts] at hin; cases hin
  | cons g facts =>
    rw [hfacts] at hin hstaged hstate
    have hhead : row.state = g.state := hstate
    rw [hhead]
    rcases List.mem_cons.mp hin with rfl | hin
    · exact le_rfl
    · exact ((staged_cons.mp hstaged).1 f hin).le

theorem running (h : Chronicled s) (hp : Projected s) {row : Run} (hrow : row ∈ s.runs)
    (hrunning : row.state.isTerminal = false) : Running s.runStateFacts row.id := by
  intro f hf hid
  have hle := h.rank_le hp hrow f hf hid
  by_contra hterminal
  have htwo := (RunState.isTerminal_iff_rank f.state).mp (by simpa using hterminal)
  have hrow2 : row.state.rank = 2 := by
    have := row.state.rank_le
    omega
  rw [(RunState.isTerminal_iff_rank row.state).mpr hrow2] at hrunning
  cases hrunning

theorem move (h : Chronicled s) (hp : Projected s) {run : Run} {state : RunState}
    {failure : Option RunFailureKind} {kind : EventKind} {now n : Nat}
    (movable : Movable s run state failure kind n) :
    Chronicled (moveRun s run state failure kind now n) := by
  obtain ⟨row, found, -, hstate⟩ := movable.found
  have hid : row.id = run.id := Table.find_key found
  constructor
  · intro f hf
    rw [moveRun_runStateFacts] at hf
    rcases List.mem_cons.mp hf with rfl | hf
    · refine ⟨?_, movable.failed⟩
      rintro rfl
      exact absurd movable.event (by simp [eventKindForState])
    · exact h.classified f hf
  · intro runId
    rw [moveRun_runStateFacts]
    by_cases hrun : run.id = runId
    · rw [List.filter_cons_of_pos (by simpa using hrun)]
      refine staged_cons.mpr ⟨fun f hf => ?_, h.staged runId⟩
      obtain ⟨hf, hfid⟩ := List.mem_filter.mp hf
      have hle := h.rank_le hp (Table.find_mem found) f hf (by
        rw [hid, hrun]
        simpa using hfid)
      rw [hstate] at hle
      exact lt_of_le_of_lt hle movable.later
    · rw [List.filter_cons_of_neg (by simpa using hrun)]
      exact h.staged runId

theorem paused (h : Chronicled s) (p : Paused s t) : Chronicled t := by
  rw [p.frame]
  exact { h with }

theorem ended (h : Chronicled s) (hp : Projected s) {run : Run} {state : RunState}
    {failure : Option RunFailureKind} {kind : EventKind} {now : Nat} {u : Store}
    (movable : Movable s run state failure kind u.nextValue) :
    Chronicled (endRun s u run state failure kind now) :=
  { h.move hp movable with }

theorem cleanup (h : Chronicled s) (request : SessionDeleteRequest) :
    Chronicled (writeCleanup s request) where
  classified f hf := h.classified f (List.mem_of_mem_filter hf)
  staged runId := (h.staged runId).sublist (List.filter_sublist.filter _)

theorem write (h : Chronicled s) (hp : Projected s) (hbound : Bound s) (hid : Identified s)
    (w : Write d s t) : Chronicled t := by
  cases w with
  | recovery u now paused => exact h.paused (pause_paused paused)
  | steering mutation u item now fresh text admitted applied =>
    rw [(steering_frame applied).2]
    exact { h with }
  | archiveRequest requestId fingerprint sessionId archived now u fresh found paused =>
    refine Chronicled.paused ?_ (requestArchive_paused paused)
    exact { h with }
  | cleanup request => exact h.cleanup request
  | activate run now n movable => exact h.move hp movable
  | finish run outcome state failure kind now u found admitted stopped paused movable =>
    cases outcome with
    | none => exact h.ended hp movable
    | some fact =>
      have hsettled : Chronicled (writeProviderOutcome s run fact) := { h with }
      exact hsettled.ended (hp.outcome (hbound.keyed hid) found (admitted fact rfl).ofRun) movable
  | answer run state fact assistant now u entry admitted completed paused =>
    have hfact := hp.outcome (hbound.keyed hid) entry.found admitted.ofRun
    have hentry : Chronicled (writeFinalEntry (writeProviderOutcome s run fact) run assistant
        (state.entryHighWater + 1) now) := { h with }
    exact hentry.ended hfact.finalEntry
      (entry.answer_movable completed (pauseEnded_number paused))
  | toolUncertain run state call result factKind resultStatus now u active entry prepared open_
      classified uncertain payload stops paused =>
    have hprojected : Projected (recordToolResult s run call result factKind resultStatus
        (state.entryHighWater + 1) now) :=
      hp.toolResult (hbound.keyed hid) active.found (classifyResult_terminal classified)
    have hresult : Chronicled (recordToolResult s run call result factKind resultStatus
        (state.entryHighWater + 1) now) := { h with }
    exact hresult.ended hprojected (active.uncertain_movable (pauseEnded_number paused))
  | cancellation requestId fingerprint run now fresh foundSession found room recordable canonical u
      paused =>
    refine Chronicled.paused ?_ (cancelled_paused paused)
    exact { h with }
  | _ => exact { h with }

end Chronicled

/-! ## The end of a run -/

/-- No counted row of an ended run comes after its end. -/
def Before {Row : Type} (runOf : Row → Option RunId) (seq : Row → Nat) (facts : List RunStateFact)
    (rows : List Row) : Prop :=
  ∀ f ∈ facts, f.state.isTerminal = true → ∀ row ∈ rows, runOf row = some f.runId →
    seq row < f.factSequence

section Before

variable {Row : Type} {runOf : Row → Option RunId} {seq : Row → Nat} {facts : List RunStateFact}
  {rows : List Row}

theorem Before.row (h : Before runOf seq facts rows) {row : Row}
    (hrunning : ∀ runId, runOf row = some runId → Running facts runId) :
    Before runOf seq facts (row :: rows) := by
  intro f hf hterminal row' hrow' hrun
  rcases List.mem_cons.mp hrow' with rfl | hrow'
  · have := hrunning f.runId hrun f hf rfl
    rw [hterminal] at this
    cases this
  · exact h f hf hterminal row' hrow' hrun

theorem Before.fact (h : Before runOf seq facts rows) {f : RunStateFact}
    (hnumber : ∀ row ∈ rows, seq row < f.factSequence) : Before runOf seq (f :: facts) rows := by
  intro f' hf' hterminal row hrow hrun
  rcases List.mem_cons.mp hf' with rfl | hf'
  · exact hnumber row hrow
  · exact h f' hf' hterminal row hrow hrun

/-- Facts and rows are removed. -/
theorem Before.filter (h : Before runOf seq facts rows) (p : RunStateFact → Bool)
    (q : Row → Bool) : Before runOf seq (facts.filter p) (rows.filter q) :=
  fun f hf hterminal row hrow =>
    h f (List.mem_of_mem_filter hf) hterminal row (List.mem_of_mem_filter hrow)

end Before

structure Closed (s : Store) : Prop where
  entries : Before (fun e => some e.runId) SessionEntry.factSequence s.runStateFacts
    s.sessionEntries
  toolCalls : Before (fun c => some c.runId) ToolCall.factSequence s.runStateFacts s.toolCalls
  toolFacts : Before (fun f => some f.runId) ToolOperationFact.factSequence s.runStateFacts
    s.toolOperationFacts
  providerFacts : Before (fun f => some f.runId) ProviderOperationFact.factSequence s.runStateFacts
    s.providerOperationFacts
  cancellations : Before (fun c => if c.intentApplied then some c.runId else none)
    RunCancellationRequest.factSequence s.runStateFacts s.runCancellationRequests
  updated : ∀ run ∈ s.runs, run.state.isTerminal = true → ∃ f ∈ s.runStateFacts,
    f.runId = run.id ∧ f.state = run.state ∧ f.factSequence = run.updatedSequence

theorem closed_empty : Closed Store.empty := by
  constructor <;> simp [Before, Store.empty]

namespace Closed

theorem move (h : Closed s) (hn : Numbered s) {run : Run} {state : RunState}
    {failure : Option RunFailureKind} {kind : EventKind} {now n : Nat} :
    Closed (moveRun s run state failure kind now n) where
  entries := h.entries.fact hn.entries.bounded
  toolCalls := h.toolCalls.fact hn.toolCalls.bounded
  toolFacts := h.toolFacts.fact hn.toolFacts.bounded
  providerFacts := h.providerFacts.fact hn.providerFacts.bounded
  cancellations := h.cancellations.fact hn.cancellations.bounded
  updated := by
    intro r' hr' hterminal
    obtain ⟨r, hr, rfl⟩ := Table.mem_modify.mp hr'
    by_cases hid : r.id = run.id
    · rw [if_pos hid]
      exact ⟨_, List.mem_cons_self .., hid.symm, rfl, rfl⟩
    · rw [if_neg hid] at hterminal ⊢
      obtain ⟨f, hf, hrow⟩ := h.updated r hr hterminal
      exact ⟨f, List.mem_cons_of_mem _ hf, hrow⟩

theorem paused (h : Closed s) (p : Paused s t) : Closed t := by
  rw [p.frame]
  exact { h with }

theorem ended (h : Closed s) (hn : Numbered s) {run : Run} {state : RunState}
    {failure : Option RunFailureKind} {kind : EventKind} {now : Nat} {u : Store} :
    Closed (endRun s u run state failure kind now) :=
  { h.move (n := u.nextValue) hn with }

theorem outcome (h : Closed s) {run : Run} {fact : ProviderOperationFact}
    (hrunning : Running s.runStateFacts run.id) (hrun : fact.runId = run.id) :
    Closed (writeProviderOutcome s run fact) :=
  { h with
    providerFacts := h.providerFacts.row fun runId e => by
      rw [← Option.some.inj e, hrun]
      exact hrunning
    updated := by
      intro r' hr' hterminal
      by_cases hkind : fact.factKind = .completed
      · have hruns : (writeProviderOutcome s run fact).runs = Table.modify Run.id run.id
            (fun r => { r with providerTurns := run.providerTurns + 1 }) s.runs := if_pos hkind
        rw [hruns] at hr'
        obtain ⟨r, hr, rfl⟩ := Table.mem_modify.mp hr'
        by_cases hid : r.id = run.id
        · rw [if_pos hid] at hterminal ⊢
          exact h.updated r hr hterminal
        · rw [if_neg hid] at hterminal ⊢
          exact h.updated r hr hterminal
      · have hruns : (writeProviderOutcome s run fact).runs = s.runs := if_neg hkind
        rw [hruns] at hr'
        exact h.updated r' hr' hterminal }

theorem finalEntry (h : Closed s) {run : Run} {assistant : CompletedAssistant}
    {entrySequence now : Nat} (hrunning : Running s.runStateFacts run.id) :
    Closed (writeFinalEntry s run assistant entrySequence now) :=
  { h with entries := h.entries.row fun _ e => Option.some.inj e ▸ hrunning }

/-- Rewriting the row of a running run does not end it. -/
theorem rewritten (h : Closed s) (hkeyed : Table.Keyed Run.id s.runs) {run : Run} {f : Run → Run}
    (found : loadRun s run.id = some run) (hrunning : run.state.isTerminal = false)
    (hf : ∀ r, (f r).state = r.state) : ∀ r ∈ Table.modify Run.id run.id f s.runs,
      r.state.isTerminal = true → ∃ f ∈ s.runStateFacts,
        f.runId = r.id ∧ f.state = r.state ∧ f.factSequence = r.updatedSequence := by
  intro r' hr' hterminal
  obtain ⟨r, hr, rfl⟩ := Table.mem_modify.mp hr'
  by_cases hid : r.id = run.id
  · have hsame : r = run := Table.eq_of_key hkeyed hr (Table.find_mem found) hid
    rw [if_pos hid, hf, hsame, hrunning] at hterminal
    cases hterminal
  · rw [if_neg hid] at hterminal ⊢
    exact h.updated r hr hterminal

theorem toolResult (h : Closed s) (hkeyed : Table.Keyed Run.id s.runs) {run : Run}
    {call : ToolCall} {result : ToolResult} {factKind : ToolFactKind}
    {resultStatus : ToolResultStatus} {entrySequence now : Nat}
    (found : loadRun s run.id = some run) (active : run.state = .active)
    (hrunning : Running s.runStateFacts run.id) :
    Closed (recordToolResult s run call result factKind resultStatus entrySequence now) :=
  { h with
    entries := h.entries.row fun _ e => Option.some.inj e ▸ hrunning
    toolFacts := h.toolFacts.row fun _ e => Option.some.inj e ▸ hrunning
    updated := h.rewritten hkeyed found (by simp [active, RunState.isTerminal]) fun _ => rfl }

theorem cleanup (h : Closed s) (hbound : Bound s) (hscoped : Scoped s) (hid : Identified s)
    (request : SessionDeleteRequest) : Closed (writeCleanup s request) where
  entries := h.entries.filter _ _
  toolCalls := h.toolCalls.filter _ _
  toolFacts := h.toolFacts.filter _ _
  providerFacts := h.providerFacts.filter _ _
  cancellations := h.cancellations.filter _ _
  updated := by
    intro run hrun hterminal
    obtain ⟨hrun, hother⟩ := List.mem_filter.mp hrun
    obtain ⟨f, hf, hrunId, hrow⟩ := h.updated run hrun hterminal
    obtain ⟨a, ha, harunId, hsession, -⟩ := hscoped.stateFacts f hf
    have hsame := hbound.session_eq hid hrun ha (harunId.trans hrunId)
    exact ⟨f, List.mem_filter.mpr ⟨hf, by rw [← hsession, hsame]; exact hother⟩, hrunId, hrow⟩

theorem write (h : Closed s) (hc : Chronicled s) (hp : Projected s) (hbound : Bound s)
    (hscoped : Scoped s) (hid : Identified s) (hn : Numbered s) (w : Write d s t) : Closed t := by
  have hkeyed := hbound.keyed hid
  have hrunning : ∀ run : Run, loadRun s run.id = some run → run.state.isTerminal = false →
      Running s.runStateFacts run.id :=
    fun run found => hc.running hp (Table.find_mem found)
  have hactive : ∀ run : Run, loadRun s run.id = some run → run.state = .active →
      Running s.runStateFacts run.id :=
    fun run found active => hrunning run found (by simp [active, RunState.isTerminal])
  cases w with
  | recovery u now paused => exact h.paused (pause_paused paused)
  | steering mutation u item now fresh text admitted applied =>
    rw [(steering_frame applied).2]
    exact { h with }
  | archiveRequest requestId fingerprint sessionId archived now u fresh found paused =>
    refine Closed.paused ?_ (requestArchive_paused paused)
    exact { h with }
  | cleanup request => exact h.cleanup hbound hscoped hid request
  | acceptance =>
    exact { h with
      entries := by
        refine h.entries.row fun runId e f hf hrun => ?_
        obtain ⟨a, ha, haid, -⟩ := hscoped.stateFacts f hf
        have hlt := hid.acceptedFacts.bounded a ha
        rw [haid, hrun, ← Option.some.inj e] at hlt
        exact absurd hlt (lt_irrefl _)
      updated := by
        intro r hr hterminal
        rcases List.mem_cons.mp hr with rfl | hr
        · cases hterminal
        · exact h.updated r hr hterminal }
  | activate => exact h.move hn
  | prepare run state estimatedInputTokens now found active =>
    exact { h with
      providerFacts := h.providerFacts.row fun _ e => Option.some.inj e ▸ hactive run found active }
  | dispatch run operationId now found active =>
    exact { h with
      providerFacts := h.providerFacts.row fun _ e => Option.some.inj e ▸ hactive run found active }
  | outcome run fact found active admitted =>
    exact h.outcome (hactive run found active) admitted.ofRun
  | finish run outcome state failure kind now u found admitted stopped paused movable =>
    cases outcome with
    | none => exact h.ended hn
    | some fact =>
      have hadmitted := admitted fact rfl
      have hstate : run.state.isTerminal = false := movable.running
      exact (h.outcome (hrunning run found hstate) hadmitted.ofRun).ended
        (hn.outcome hadmitted.number)
  | answer run state fact assistant now u entry admitted =>
    have hrun := hactive run entry.found entry.active
    exact ((h.outcome hrun admitted.ofRun).finalEntry hrun).ended
      (hn.outcome admitted.number).finalEntry
  | cancellation requestId fingerprint run now fresh foundSession found room recordable canonical u
      paused =>
    refine Closed.paused ?_ (cancelled_paused paused)
    exact { h with
      cancellations := by
        rw [writeCancellation_requests]
        refine h.cancellations.row fun runId e => ?_
        split at e
        · rename_i happlied
          have hstate : run.state.isTerminal = false := by
            simp only [Bool.and_eq_true, Bool.not_eq_true'] at happlied
            exact happlied.1
          exact Option.some.inj e ▸ hrunning run found hstate
        · cases e
      updated := by
        intro r hr
        by_cases happlied : (!run.state.isTerminal && !run.cancellationRequested) = true
        · simp only [writeCancellation, happlied, if_true] at hr
          have hstate : run.state.isTerminal = false := by
            simp only [Bool.and_eq_true, Bool.not_eq_true'] at happlied
            exact happlied.1
          exact h.rewritten (f := fun r => { r with
            cancellationRequested := true
            updatedSequence := s.nextValue
            updatedAtMilliseconds := now }) hkeyed found hstate (fun _ => rfl) r hr
        · simp only [writeCancellation, Bool.eq_false_iff.mpr happlied, Bool.false_eq_true,
            if_false] at hr
          exact h.updated r hr }
  | commentary run state text refusal now entry =>
    exact { h with
      entries := h.entries.row fun _ e =>
        Option.some.inj e ▸ hactive run entry.found entry.active }
  | toolCall run state providerOperationId call callIndex now entry =>
    have hrun := hactive run entry.found entry.active
    exact { h with
      entries := h.entries.row fun _ e => Option.some.inj e ▸ hrun
      toolCalls := h.toolCalls.row fun _ e => Option.some.inj e ▸ hrun
      updated := h.rewritten hkeyed entry.found (by simp [entry.active, RunState.isTerminal])
        fun _ => rfl }
  | toolPrepared run call recoveryPlan now active =>
    exact { h with
      toolFacts := h.toolFacts.row fun _ e =>
        Option.some.inj e ▸ hactive run active.found active.active }
  | toolDispatched run call bindings now active =>
    exact { h with
      toolFacts := h.toolFacts.row fun _ e =>
        Option.some.inj e ▸ hactive run active.found active.active }
  | toolResult run state call result factKind resultStatus now active =>
    exact h.toolResult hkeyed active.found active.active (hactive run active.found active.active)
  | toolUncertain run state call result factKind resultStatus now u active =>
    exact (h.toolResult hkeyed active.found active.active
      (hactive run active.found active.active)).ended hn.toolResult
  | _ => exact { h with }

end Closed

/-! ## Cancellations -/

structure Cancellations (s : Store) : Prop where
  recordable : ∀ c ∈ s.runCancellationRequests, c.resultState.toRecord ≤ 6
  canonical : ∀ c ∈ s.runCancellationRequests, c.fingerprint = .cancelRun c.sessionId c.runId
  event : ∀ c ∈ s.runCancellationRequests, c.deliveryEventId.isSome = c.intentApplied
  running : ∀ c ∈ s.runCancellationRequests, c.intentApplied = true →
    c.resultState.isTerminal = false ∧ c.resultCancellationRequested = true
  once : ∀ runId, (s.runCancellationRequests.countP fun c => c.runId = runId && c.intentApplied) ≤ 1

theorem cancellations_empty : Cancellations Store.empty := by
  constructor <;> simp [Store.empty]

theorem Cancellations.paused (h : Cancellations s) (p : Paused s t) : Cancellations t := by
  rw [p.frame]
  exact { h with }

theorem Cancellations.cleanup (h : Cancellations s) (request : SessionDeleteRequest) :
    Cancellations (writeCleanup s request) where
  recordable c hc := h.recordable c (List.mem_of_mem_filter hc)
  canonical c hc := h.canonical c (List.mem_of_mem_filter hc)
  event c hc := h.event c (List.mem_of_mem_filter hc)
  running c hc := h.running c (List.mem_of_mem_filter hc)
  once runId := (List.filter_sublist.countP_le).trans (h.once runId)

theorem Cancellations.write (h : Cancellations s) (hp : Projected s) (w : Write d s t) :
    Cancellations t := by
  cases w with
  | recovery u now paused => exact h.paused (pause_paused paused)
  | steering mutation u item now fresh text admitted applied =>
    rw [(steering_frame applied).2]
    exact { h with }
  | archiveRequest requestId fingerprint sessionId archived now u fresh found paused =>
    refine Cancellations.paused ?_ (requestArchive_paused paused)
    exact { h with }
  | cleanup request => exact h.cleanup request
  | cancellation requestId fingerprint run now fresh foundSession found room recordable canonical u
      paused =>
    refine Cancellations.paused ?_ (cancelled_paused paused)
    constructor
    · intro c hc
      rcases List.mem_cons.mp hc with rfl | hc
      · exact recordable
      · exact h.recordable c hc
    · intro c hc
      rcases List.mem_cons.mp hc with rfl | hc
      · exact canonical
      · exact h.canonical c hc
    · intro c hc
      rcases List.mem_cons.mp hc with rfl | hc
      · show (if (!run.state.isTerminal && !run.cancellationRequested) = true then
          some s.nextIdentifier else none).isSome =
            (!run.state.isTerminal && !run.cancellationRequested)
        split
        · rename_i happlied
          exact happlied.symm
        · rename_i happlied
          exact (Bool.eq_false_iff.mpr happlied).symm
      · exact h.event c hc
    · intro c hc happlied
      rcases List.mem_cons.mp hc with rfl | hc
      · have happlied' : (!run.state.isTerminal && !run.cancellationRequested) = true := happlied
        refine ⟨by simpa using (Bool.and_eq_true_iff.mp happlied').1, ?_⟩
        show (run.cancellationRequested || (!run.state.isTerminal && !run.cancellationRequested)) =
          true
        rw [happlied', Bool.or_true]
      · exact h.running c hc happlied
    · intro runId
      rw [writeCancellation_requests]
      by_cases hcounted : run.id = runId ∧ (!run.state.isTerminal && !run.cancellationRequested) = true
      · obtain ⟨hrun, happlied⟩ := hcounted
        have hnone := (hp run (Table.find_mem found)).cancelled
        have hflag : run.cancellationRequested = false := by
          simpa using (Bool.and_eq_true_iff.mp happlied).2
        rw [hflag] at hnone
        have hzero : (s.runCancellationRequests.countP fun c =>
            c.runId = runId && c.intentApplied) = 0 := by
          rw [List.countP_eq_zero, ← hrun]
          exact fun c hc => List.any_eq_false.mp hnone.symm c hc
        rw [List.countP_cons_of_pos (by simp only [hrun, happlied, decide_true, Bool.true_and]), hzero]
      · rw [List.countP_cons_of_neg (by simpa only [Bool.and_eq_true, decide_eq_true_eq] using hcounted)]
        exact h.once runId
  | finish run outcome => cases outcome <;> exact { h with }
  | _ => exact { h with }

end Morons
