import Morons.Invariant.Numbering
import Morons.Invariant.Session

/-!
# Runs and their facts

A run has one row and one accepted fact, and what its acceptance fixed is the
same in both.  Every row that names a run names an accepted one, of the same
session, and was written after its acceptance.
-/

namespace Morons

open Ledger

variable {d : Discipline} {s t : Store}

/-- What the acceptance of a run fixes. -/
structure RunOrigin where
  id : RunId
  sessionId : SessionId
  userMessageId : MessageId
  binding : RunBinding
  acceptedSequence : Nat
  acceptedAtMilliseconds : Nat
  deriving DecidableEq

def Run.origin (r : Run) : RunOrigin :=
  ⟨r.id, r.sessionId, r.userMessageId, r.binding, r.acceptedSequence, r.acceptedAtMilliseconds⟩

def RunAcceptedFact.origin (f : RunAcceptedFact) : RunOrigin :=
  ⟨f.runId, f.sessionId, f.userMessageId, f.binding, f.factSequence, f.acceptedAtMilliseconds⟩

/-! ## One row and one fact -/

structure Bound (s : Store) : Prop where
  runs : s.runs.map Run.origin = s.runAcceptedFacts.map RunAcceptedFact.origin
  sessions : ∀ f ∈ s.runAcceptedFacts, f.sessionId ∈ s.sessions.map Session.id

theorem bound_empty : Bound Store.empty := ⟨rfl, by simp [Store.empty]⟩

namespace Bound

theorem runIds (h : Bound s) : s.runs.map Run.id = s.runAcceptedFacts.map RunAcceptedFact.runId := by
  have hids := congrArg (List.map RunOrigin.id) h.runs
  rwa [List.map_map, List.map_map] at hids

theorem keyed (h : Bound s) (hid : Identified s) : Table.Keyed Run.id s.runs := by
  rw [Table.Keyed, h.runIds]
  exact hid.acceptedFacts.nodup

theorem drawnId (h : Bound s) (hid : Identified s) {run : Run} (hrun : run ∈ s.runs) :
    run.id < s.nextIdentifier := by
  have hin : run.id ∈ s.runs.map Run.id := List.mem_map_of_mem hrun
  rw [h.runIds] at hin
  obtain ⟨f, hf, e⟩ := List.mem_map.mp hin
  rw [← e]
  exact hid.acceptedFacts.bounded f hf

theorem outcome_keyed (h : Table.Keyed Run.id s.runs) {run : Run} {fact : ProviderOperationFact} :
    Table.Keyed Run.id (writeProviderOutcome s run fact).runs := by
  simp only [writeProviderOutcome]
  split
  · exact h.modify fun _ => rfl
  · exact h

/-- The accepted fact of a run. -/
theorem fact (h : Bound s) {run : Run} (hrun : run ∈ s.runs) :
    ∃ f ∈ s.runAcceptedFacts, f.origin = run.origin := by
  have hin : run.origin ∈ s.runs.map Run.origin := List.mem_map_of_mem hrun
  rw [h.runs] at hin
  exact List.mem_map.mp hin

/-- The run of an accepted fact. -/
theorem run (h : Bound s) {f : RunAcceptedFact} (hf : f ∈ s.runAcceptedFacts) :
    ∃ run ∈ s.runs, run.origin = f.origin := by
  have hin : f.origin ∈ s.runAcceptedFacts.map RunAcceptedFact.origin := List.mem_map_of_mem hf
  rw [← h.runs] at hin
  exact List.mem_map.mp hin

/-- A run belongs to a session. -/
theorem session (h : Bound s) {run : Run} (hrun : run ∈ s.runs) :
    (loadSession s run.sessionId).isSome := by
  obtain ⟨f, hf, e⟩ := h.fact hrun
  have hsession : f.sessionId = run.sessionId := congrArg RunOrigin.sessionId e
  rw [loadSession, Table.find_isSome, ← hsession]
  exact h.sessions f hf

/-- A run and its accepted fact agree on the session. -/
theorem session_eq (h : Bound s) (hid : Identified s) {run : Run} {f : RunAcceptedFact}
    (hrun : run ∈ s.runs) (hf : f ∈ s.runAcceptedFacts) (e : f.runId = run.id) :
    f.sessionId = run.sessionId := by
  obtain ⟨g, hg, horigin⟩ := h.fact hrun
  have hsame : f = g :=
    hid.acceptedFacts.eq_of_seq hf hg (e.trans (congrArg RunOrigin.id horigin).symm)
  rw [hsame]
  exact congrArg RunOrigin.sessionId horigin

/-- The rows of the runs change, but not what their acceptance fixed. -/
theorem kept (h : Bound s) (hfacts : t.runAcceptedFacts = s.runAcceptedFacts)
    (hruns : t.runs.map Run.origin = s.runs.map Run.origin)
    (hsessions : t.sessions.map Session.id = s.sessions.map Session.id) : Bound t where
  runs := by
    rw [hfacts, hruns]
    exact h.runs
  sessions := by
    rw [hfacts, hsessions]
    exact h.sessions

theorem move (h : Bound s) {run : Run} {state : RunState} {failure : Option RunFailureKind}
    {kind : EventKind} {now n : Nat} : Bound (moveRun s run state failure kind now n) :=
  h.kept rfl (Table.modify_column _ fun _ => rfl) (Table.modify_column _ fun _ => rfl)

theorem paused (h : Bound s) (p : Paused s t) : Bound t := by
  rw [p.frame]
  exact { h with }

theorem ended (h : Bound s) {run : Run} {state : RunState} {failure : Option RunFailureKind}
    {kind : EventKind} {now : Nat} {u : Store} : Bound (endRun s u run state failure kind now) :=
  { h.move (n := u.nextValue) with }

theorem outcome (h : Bound s) {run : Run} {fact : ProviderOperationFact} :
    Bound (writeProviderOutcome s run fact) := by
  refine h.kept rfl ?_ rfl
  simp only [writeProviderOutcome]
  split
  · exact Table.modify_column _ fun _ => rfl
  · rfl

theorem finalEntry (h : Bound s) {run : Run} {assistant : CompletedAssistant}
    {entrySequence now : Nat} : Bound (writeFinalEntry s run assistant entrySequence now) :=
  h.kept rfl rfl rfl

theorem toolResult (h : Bound s) {run : Run} {call : ToolCall} {result : ToolResult}
    {factKind : ToolFactKind} {resultStatus : ToolResultStatus} {entrySequence now : Nat} :
    Bound (recordToolResult s run call result factKind resultStatus entrySequence now) :=
  h.kept rfl (Table.modify_column _ fun _ => rfl) (Table.modify_column _ fun _ => rfl)

theorem cleanup (h : Bound s) (request : SessionDeleteRequest) :
    Bound (writeCleanup s request) where
  runs := Table.filter_column (fun o : RunOrigin => decide (o.sessionId ≠ request.sessionId)) h.runs
  sessions := by
    intro f hf
    obtain ⟨hf, hother⟩ := List.mem_filter.mp hf
    obtain ⟨session, hsession, e⟩ := List.mem_map.mp (h.sessions f hf)
    exact List.mem_map.mpr ⟨session, List.mem_filter.mpr ⟨hsession, e ▸ hother⟩, e⟩

theorem write (h : Bound s) (w : Write d s t) : Bound t := by
  cases w with
  | recovery u now paused => exact h.paused (pause_paused paused)
  | steering mutation u item now fresh text admitted applied =>
    rw [(steering_frame applied).2]
    exact { h with }
  | archiveRequest requestId fingerprint sessionId archived now u fresh found paused =>
    refine Bound.paused ?_ (requestArchive_paused paused)
    exact { h with }
  | session =>
    exact ⟨h.runs, fun f hf => List.mem_cons_of_mem _ (h.sessions f hf)⟩
  | acceptance requestId fingerprint sessionId session state binding checkpoint text context now fresh
      admitted =>
    have hsame : ∀ n : Nat, (Table.modify Session.id sessionId
        (fun r => { r with updatedSequence := n }) s.sessions).map Session.id =
          s.sessions.map Session.id := fun n => Table.modify_column _ fun _ => rfl
    constructor
    · exact congrArg (List.cons _) h.runs
    · intro f hf
      show f.sessionId ∈ (Table.modify Session.id sessionId
        (fun r => { r with updatedSequence := s.nextValue + 1 }) s.sessions).map Session.id
      rw [hsame]
      rcases List.mem_cons.mp hf with rfl | hf
      · exact Table.find_isSome.mp (Option.isSome_iff_exists.mpr ⟨session, admitted.foundSession⟩)
      · exact h.sessions f hf
  | activate => exact h.move
  | outcome => exact h.outcome
  | finish run outcome =>
    cases outcome with
    | none => exact h.ended
    | some fact => exact h.outcome.ended
  | answer => exact h.outcome.finalEntry.ended
  | cancellation requestId fingerprint run now fresh foundSession found room recordable canonical u
      paused =>
    refine Bound.paused ?_ (cancelled_paused paused)
    refine h.kept rfl ?_ ?_
    · simp only [writeCancellation]
      split
      · exact Table.modify_column _ fun _ => rfl
      · rfl
    · simp only [writeCancellation]
      split
      · exact Table.modify_column _ fun _ => rfl
      · rfl
  | toolCall =>
    exact h.kept rfl (Table.modify_column _ fun _ => rfl) (Table.modify_column _ fun _ => rfl)
  | rename | archive | commentary | commandAcceptance | commandResult =>
    exact h.kept rfl rfl (Table.modify_column _ fun _ => rfl)
  | cleanup request => exact h.cleanup request
  | toolResult => exact h.toolResult
  | toolUncertain => exact h.toolResult.ended
  | _ => exact { h with }

end Bound

/-! ## Rows of a run -/

/-- Every row has an accepted fact that agrees with it. -/
def Within {Row : Type} (agrees : Row → RunAcceptedFact → Prop) (facts : List RunAcceptedFact)
    (rows : List Row) : Prop :=
  ∀ row ∈ rows, ∃ f ∈ facts, agrees row f

section Within

variable {Row : Type} {agrees : Row → RunAcceptedFact → Prop} {facts : List RunAcceptedFact}
  {rows : List Row}

theorem Within.accept (h : Within agrees facts rows) (f : RunAcceptedFact) :
    Within agrees (f :: facts) rows := by
  intro row hrow
  obtain ⟨f', hf', hagrees⟩ := h row hrow
  exact ⟨f', List.mem_cons_of_mem _ hf', hagrees⟩

theorem Within.cons (h : Within agrees facts rows) {row : Row} (hrow : ∃ f ∈ facts, agrees row f) :
    Within agrees facts (row :: rows) := by
  intro row' hrow'
  rcases List.mem_cons.mp hrow' with rfl | hrow'
  · exact hrow
  · exact h row' hrow'

/-- Rows are removed with their accepted facts. -/
theorem Within.filter (h : Within agrees facts rows) {p : RunAcceptedFact → Bool} {q : Row → Bool}
    (hp : ∀ row f, f ∈ facts → agrees row f → q row = true → p f = true) :
    Within agrees (facts.filter p) (rows.filter q) := by
  intro row hrow
  obtain ⟨hrow, hq⟩ := List.mem_filter.mp hrow
  obtain ⟨f, hf, hagrees⟩ := h row hrow
  exact ⟨f, List.mem_filter.mpr ⟨hf, hp row f hf hagrees hq⟩, hagrees⟩

end Within

/-- The run was accepted, and all numbers so far are below the next one. -/
def Known (s : Store) (run : Run) : Prop :=
  ∃ f ∈ s.runAcceptedFacts, f.runId = run.id ∧ f.sessionId = run.sessionId ∧
    f.factSequence < s.nextValue

theorem known_of_found (hbound : Bound s) (hn : Numbered s) {run row : Run}
    (found : loadRun s run.id = some row) (hsession : row.sessionId = run.sessionId) :
    Known s run := by
  obtain ⟨f, hf, e⟩ := hbound.fact (Table.find_mem found)
  have hid : row.id = run.id := Table.find_key found
  exact ⟨f, hf, (congrArg RunOrigin.id e).trans hid, (congrArg RunOrigin.sessionId e).trans hsession,
    hn.acceptedFacts.bounded f hf⟩

theorem Movable.known (hbound : Bound s) (hn : Numbered s) {run : Run} {state : RunState}
    {failure : Option RunFailureKind} {kind : EventKind} {n : Nat}
    (h : Movable s run state failure kind n) : Known s run := by
  obtain ⟨row, found, hsession, -⟩ := h.found
  exact known_of_found hbound hn found hsession

/-- The rows of the runs. -/
structure Scoped (s : Store) : Prop where
  stateFacts : Within (fun (r : RunStateFact) f => f.runId = r.runId ∧ f.sessionId = r.sessionId ∧
    f.factSequence < r.factSequence) s.runAcceptedFacts s.runStateFacts
  cancellations : Within (fun (r : RunCancellationRequest) f => f.runId = r.runId ∧
    f.sessionId = r.sessionId ∧ f.factSequence < r.factSequence) s.runAcceptedFacts
    s.runCancellationRequests
  providerFacts : Within (fun (r : ProviderOperationFact) f => f.runId = r.runId ∧
    f.factSequence < r.factSequence) s.runAcceptedFacts s.providerOperationFacts
  entries : Within (fun (r : SessionEntry) f => f.runId = r.runId ∧ f.sessionId = r.sessionId)
    s.runAcceptedFacts s.sessionEntries
  toolCalls : Within (fun (r : ToolCall) f => f.runId = r.runId ∧ f.sessionId = r.sessionId ∧
    f.factSequence < r.factSequence) s.runAcceptedFacts s.toolCalls
  toolFacts : Within (fun (r : ToolOperationFact) f => f.runId = r.runId ∧
    f.sessionId = r.sessionId ∧ f.factSequence < r.factSequence) s.runAcceptedFacts
    s.toolOperationFacts

theorem scoped_empty : Scoped Store.empty := by
  constructor <;> simp [Within, Store.empty]

namespace Scoped

theorem move (h : Scoped s) {run : Run} {state : RunState} {failure : Option RunFailureKind}
    {kind : EventKind} {now n : Nat} (known : Known s run) :
    Scoped (moveRun s run state failure kind now n) :=
  { h with stateFacts := h.stateFacts.cons known }

theorem paused (h : Scoped s) (p : Paused s t) : Scoped t := by
  rw [p.frame]
  exact { h with }

theorem ended (h : Scoped s) {run : Run} {state : RunState} {failure : Option RunFailureKind}
    {kind : EventKind} {now : Nat} {u : Store} (known : Known s run) :
    Scoped (endRun s u run state failure kind now) :=
  { h.move (n := u.nextValue) known with }

theorem outcome (h : Scoped s) {run : Run} {fact : ProviderOperationFact} (known : Known s run)
    (hrun : fact.runId = run.id) (hnumber : fact.factSequence = s.nextValue) :
    Scoped (writeProviderOutcome s run fact) := by
  obtain ⟨f, hf, hid, -, hlt⟩ := known
  exact { h with
    providerFacts := h.providerFacts.cons ⟨f, hf, hid.trans hrun.symm, hnumber ▸ hlt⟩ }

theorem finalEntry (h : Scoped s) {run : Run} {assistant : CompletedAssistant}
    {entrySequence now : Nat} (known : Known s run) :
    Scoped (writeFinalEntry s run assistant entrySequence now) := by
  obtain ⟨f, hf, hid, hsession, -⟩ := known
  exact { h with entries := h.entries.cons ⟨f, hf, hid, hsession⟩ }

theorem toolResult (h : Scoped s) {run : Run} {call : ToolCall} {result : ToolResult}
    {factKind : ToolFactKind} {resultStatus : ToolResultStatus} {entrySequence now : Nat}
    (known : Known s run) :
    Scoped (recordToolResult s run call result factKind resultStatus entrySequence now) := by
  obtain ⟨f, hf, hid, hsession, hlt⟩ := known
  exact { h with
    entries := h.entries.cons ⟨f, hf, hid, hsession⟩
    toolFacts := h.toolFacts.cons ⟨f, hf, hid, hsession, hlt⟩ }

theorem cleanup (h : Scoped s) (request : SessionDeleteRequest) :
    Scoped (writeCleanup s request) where
  stateFacts := h.stateFacts.filter fun _ _ _ hagrees hq => hagrees.2.1 ▸ hq
  cancellations := h.cancellations.filter fun _ _ _ hagrees hq => hagrees.2.1 ▸ hq
  providerFacts := h.providerFacts.filter fun row f hf hagrees hq => by
    refine decide_eq_true fun e => of_decide_eq_true hq ?_
    rw [← hagrees.1]
    exact List.mem_map_of_mem (List.mem_filter.mpr ⟨hf, decide_eq_true e⟩)
  entries := h.entries.filter fun _ _ _ hagrees hq => hagrees.2 ▸ hq
  toolCalls := h.toolCalls.filter fun _ _ _ hagrees hq => hagrees.2.1 ▸ hq
  toolFacts := h.toolFacts.filter fun _ _ _ hagrees hq => hagrees.2.1 ▸ hq

theorem write (h : Scoped s) (hbound : Bound s) (hn : Numbered s) (w : Write d s t) :
    Scoped t := by
  have known : ∀ run : Run, loadRun s run.id = some run → Known s run :=
    fun run found => known_of_found hbound hn found rfl
  cases w with
  | recovery u now paused => exact h.paused (pause_paused paused)
  | steering mutation u item now fresh text admitted applied =>
    rw [(steering_frame applied).2]
    exact { h with }
  | archiveRequest requestId fingerprint sessionId archived now u fresh found paused =>
    refine Scoped.paused ?_ (requestArchive_paused paused)
    exact { h with }
  | acceptance =>
    exact
      { stateFacts := h.stateFacts.accept _
        cancellations := h.cancellations.accept _
        providerFacts := h.providerFacts.accept _
        entries := (h.entries.accept _).cons ⟨_, List.mem_cons_self .., rfl, rfl⟩
        toolCalls := h.toolCalls.accept _
        toolFacts := h.toolFacts.accept _ }
  | activate run now n movable => exact h.move (movable.known hbound hn)
  | prepare run state estimatedInputTokens now found =>
    obtain ⟨f, hf, hid, -, hlt⟩ := known run found
    exact { h with providerFacts := h.providerFacts.cons ⟨f, hf, hid, hlt⟩ }
  | dispatch run operationId now found =>
    obtain ⟨f, hf, hid, -, hlt⟩ := known run found
    exact { h with providerFacts := h.providerFacts.cons ⟨f, hf, hid, hlt⟩ }
  | outcome run fact found active admitted =>
    exact h.outcome (known run found) admitted.ofRun admitted.number
  | finish run outcome state failure kind now u found admitted stopped paused movable =>
    cases outcome with
    | none => exact h.ended (known run found)
    | some fact =>
      have hadmitted := admitted fact rfl
      exact (h.outcome (known run found) hadmitted.ofRun hadmitted.number).ended
        (movable.known hbound.outcome (hn.outcome hadmitted.number))
  | answer run state fact assistant now u entry admitted =>
    have hfact := h.outcome (known run entry.found) admitted.ofRun admitted.number
    obtain ⟨f, hf, hid, hsession, hlt⟩ := known run entry.found
    exact (hfact.finalEntry ⟨f, hf, hid, hsession, Nat.lt_add_right 2 hlt⟩).ended
      ⟨f, hf, hid, hsession, Nat.lt_add_right 3 hlt⟩
  | cancellation requestId fingerprint run now fresh foundSession found room recordable canonical u
      paused =>
    refine Scoped.paused ?_ (cancelled_paused paused)
    exact { h with cancellations := h.cancellations.cons (known run found) }
  | commentary run state text refusal now entry =>
    obtain ⟨f, hf, hid, hsession, -⟩ := known run entry.found
    exact { h with entries := h.entries.cons ⟨f, hf, hid, hsession⟩ }
  | toolCall run state providerOperationId call callIndex now entry =>
    obtain ⟨f, hf, hid, hsession, hlt⟩ := known run entry.found
    exact { h with
      entries := h.entries.cons ⟨f, hf, hid, hsession⟩
      toolCalls := h.toolCalls.cons ⟨f, hf, hid, hsession, hlt⟩ }
  | toolPrepared run call recoveryPlan now active =>
    exact { h with toolFacts := h.toolFacts.cons (known run active.found) }
  | toolDispatched run call bindings now active =>
    exact { h with toolFacts := h.toolFacts.cons (known run active.found) }
  | cleanup request => exact h.cleanup request
  | toolResult run state call result factKind resultStatus now active =>
    exact h.toolResult (known run active.found)
  | toolUncertain run state call result factKind resultStatus now u active =>
    obtain ⟨f, hf, hid, hsession, hlt⟩ := known run active.found
    exact (h.toolResult (known run active.found)).ended
      ⟨f, hf, hid, hsession, Nat.lt_add_right 3 hlt⟩
  | _ => exact { h with }

end Scoped

end Morons
