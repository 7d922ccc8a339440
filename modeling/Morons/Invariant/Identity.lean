import Morons.Write.Blocks
import Mathlib.Data.List.Dedup

/-!
# Identifiers and registered requests

Every identifier in the tables was drawn from its counter and names one row;
every request with rows of its own is registered under its operation, and a
registered identifier is not given to a second request.
-/

namespace Morons

open Ledger

variable {d : Discipline} {s t : Store}

/-! ## Drawn identifiers -/

/-- The identifiers of the rows. -/
structure Identified (s : Store) : Prop where
  creations : Below SessionCreationRequest.sessionId s.nextIdentifier s.sessionCreationRequests
  acceptedFacts : Below RunAcceptedFact.runId s.nextIdentifier s.runAcceptedFacts
  operations : ∀ f ∈ s.providerOperationFacts, f.operationId < s.nextIdentifier
  toolCalls : Below ToolCall.callId s.nextIdentifier s.toolCalls
  commands : Below LocalCommand.commandId s.nextIdentifier s.localCommands

theorem identified_empty : Identified Store.empty := by
  constructor <;> first | exact below_nil | simp [Store.empty]

theorem Identified.drawn (h : Identified s) {n i : Nat} (hi : s.nextIdentifier ≤ i) :
    Identified (s.drawn n i) where
  creations := h.creations.mono hi
  acceptedFacts := h.acceptedFacts.mono hi
  operations f hf := lt_of_lt_of_le (h.operations f hf) hi
  toolCalls := h.toolCalls.mono hi
  commands := h.commands.mono hi

theorem Identified.paused (h : Identified s) (p : Paused s t) : Identified t := by
  rw [p.frame]
  exact { h with }

theorem Identified.move (h : Identified s) {run : Run} {state : RunState}
    {failure : Option RunFailureKind} {kind : EventKind} {now n : Nat} :
    Identified (moveRun s run state failure kind now n) :=
  { h.drawn (n := n + 1) (Nat.le_succ s.nextIdentifier) with }

theorem Identified.ended (h : Identified s) {run : Run} {state : RunState}
    {failure : Option RunFailureKind} {kind : EventKind} {now : Nat} {u : Store} :
    Identified (endRun s u run state failure kind now) :=
  { h.move (n := u.nextValue) with }

theorem Identified.outcome (h : Identified s) (run : Run) {fact : ProviderOperationFact}
    (hknown : fact.operationId < s.nextIdentifier) :
    Identified (writeProviderOutcome s run fact) :=
  { h.drawn (n := s.nextValue + 2) le_rfl with
    operations := by
      intro f hf
      rcases List.mem_cons.mp hf with rfl | hf
      · exact hknown
      · exact h.operations f hf }

theorem OutcomeAdmitted.drawn {run : Run} {fact : ProviderOperationFact}
    (h : OutcomeAdmitted s run fact) (hs : Identified s) : fact.operationId < s.nextIdentifier := by
  obtain ⟨f, hf, hop, -⟩ := h.known
  rw [← hop]
  exact hs.operations f hf

theorem Identified.write (h : Identified s) (w : Write d s t) : Identified t := by
  cases w with
  | advance n i number identifier => exact h.drawn identifier
  | recovery u now paused => exact h.paused (pause_paused paused)
  | steering mutation u item now fresh text admitted applied =>
    obtain ⟨hidentifier, hframe⟩ := steering_frame applied
    rw [hframe]
    exact { h.drawn (n := s.nextValue + 1) hidentifier with }
  | creationRequest =>
    exact { h.drawn (n := s.nextValue + 1) (Nat.le_add_right s.nextIdentifier 2) with
      creations := h.creations.cons le_rfl (Nat.lt_add_of_pos_right (by decide)) }
  | workspaceDispatched =>
    exact { h with creations := h.creations.map _ fun r => by split <;> rfl }
  | session =>
    exact { h.drawn (n := s.nextValue + 1) (Nat.le_succ s.nextIdentifier) with
      creations := (h.creations.mono (Nat.le_succ _)).map _ fun r => by split <;> rfl }
  | rename => exact { h.drawn (n := s.nextValue + 1) (Nat.le_succ s.nextIdentifier) with }
  | archiveRequest requestId fingerprint sessionId archived now u fresh found paused =>
    refine Identified.paused ?_ (requestArchive_paused paused)
    exact { h.drawn (n := s.nextValue + 1) (Nat.le_succ s.nextIdentifier) with }
  | archive => exact { h with }
  | deleteRequest => exact { h.drawn (n := s.nextValue + 1) (Nat.le_succ s.nextIdentifier) with }
  | cleanup request =>
    exact
      { creations := h.creations.filter _
        acceptedFacts := h.acceptedFacts.filter _
        operations := fun f hf => h.operations f (List.mem_of_mem_filter hf)
        toolCalls := h.toolCalls.filter _
        commands := h.commands.filter _ }
  | delete => exact { h with }
  | acceptance =>
    exact { h.drawn (n := s.nextValue + 3) (Nat.le_add_right s.nextIdentifier 4) with
      acceptedFacts := h.acceptedFacts.cons le_rfl (Nat.lt_add_of_pos_right (by decide)) }
  | activate => exact h.move
  | prepare =>
    exact { h.drawn (n := s.nextValue + 2) (Nat.le_succ s.nextIdentifier) with
      operations := by
        intro f hf
        rcases List.mem_cons.mp hf with rfl | hf
        · exact Nat.lt_succ_self s.nextIdentifier
        · exact Nat.lt_succ_of_lt (h.operations f hf) }
  | dispatch run operationId now found active known =>
    have hop : operationId < s.nextIdentifier := by
      obtain ⟨f, hf, rfl, -⟩ := known
      exact h.operations f hf
    have hfact : Identified (writeProviderOutcome s run
        ⟨s.nextValue, operationId, run.id, .dispatched, none, none, none, now⟩) :=
      h.outcome run hop
    exact { hfact with }
  | outcome run fact found active admitted => exact h.outcome run (admitted.drawn h)
  | finish run outcome state failure kind now u found admitted =>
    cases outcome with
    | none => exact h.ended
    | some fact => exact (h.outcome run ((admitted fact rfl).drawn h)).ended
  | answer run state fact assistant now u entry admitted =>
    have hfact := h.outcome run (admitted.drawn h)
    have hentry : Identified (writeFinalEntry (writeProviderOutcome s run fact) run assistant
        (state.entryHighWater + 1) now) :=
      { hfact.drawn (n := s.nextValue + 3) (Nat.le_add_right s.nextIdentifier 2) with }
    exact hentry.ended
  | cancellation requestId fingerprint run now fresh foundSession found room recordable canonical u
      paused =>
    refine Identified.paused ?_ (cancelled_paused paused)
    exact { h.drawn (n := s.nextValue + 2) (Nat.le_succ s.nextIdentifier) with }
  | commentary =>
    exact { h.drawn (n := s.nextValue + 1) (Nat.le_add_right s.nextIdentifier 2) with }
  | toolCall =>
    exact { h.drawn (n := s.nextValue + 3) (Nat.le_add_right s.nextIdentifier 4) with
      toolCalls := h.toolCalls.cons le_rfl (Nat.lt_add_of_pos_right (by decide)) }
  | toolPrepared | toolDispatched => exact { h with }
  | toolResult =>
    exact { h.drawn (n := s.nextValue + 3) (Nat.le_add_right s.nextIdentifier 3) with }
  | toolUncertain run state call result factKind resultStatus now u =>
    have hresult : Identified (recordToolResult s run call result factKind resultStatus
        (state.entryHighWater + 1) now) :=
      { h.drawn (n := s.nextValue + 3) (Nat.le_add_right s.nextIdentifier 3) with }
    exact hresult.ended
  | commandAcceptance =>
    exact { h.drawn (n := s.nextValue + 2) (Nat.le_add_right s.nextIdentifier 2) with
      commands := h.commands.cons le_rfl (Nat.lt_add_of_pos_right (by decide)) }
  | commandActivation =>
    exact { h with commands := h.commands.map _ fun r => by split <;> rfl }
  | commandResult =>
    exact { h.drawn (n := s.nextValue + 2) (Nat.le_add_right s.nextIdentifier 2) with
      commands := (h.commands.mono (Nat.le_add_right _ 2)).map _ fun r => by split <;> rfl }
  | commandCancellation =>
    exact { h with
      commands := by
        simp only [writeCommandCancellation]
        split
        · exact h.commands.map _ fun r => by split <;> rfl
        · exact h.commands }

/-! ## Registered requests -/

/-- The requests of a table are registered under their operation, each once. -/
structure RegisteredAs {Row : Type} (key : Row → MutationRequestId) (operation : MutationOperation)
    (requests : List MutationRequest) (rows : List Row) : Prop where
  keyed : Table.Keyed key rows
  registered : ∀ row ∈ rows, ∃ m ∈ requests, m.requestId = key row ∧ m.operation = operation

namespace RegisteredAs

variable {Row : Type} {key : Row → MutationRequestId} {operation : MutationOperation}
  {requests : List MutationRequest} {rows : List Row}

theorem nil : RegisteredAs key operation requests [] :=
  ⟨List.nodup_nil, by simp⟩

/-- One more request is registered. -/
theorem weaken (h : RegisteredAs key operation requests rows) (m : MutationRequest) :
    RegisteredAs key operation (m :: requests) rows := by
  refine ⟨h.keyed, fun row hrow => ?_⟩
  obtain ⟨m', hm', hkey⟩ := h.registered row hrow
  exact ⟨m', List.mem_cons_of_mem _ hm', hkey⟩

/-- A fresh request with its row. -/
theorem add (h : RegisteredAs key operation requests rows) {row : Row} {m : MutationRequest}
    (fresh : ∀ m' ∈ requests, m'.requestId ≠ key row) (hkey : m.requestId = key row)
    (hop : m.operation = operation) : RegisteredAs key operation (m :: requests) (row :: rows) := by
  constructor
  · refine List.nodup_cons.mpr ⟨fun hin => ?_, h.keyed⟩
    obtain ⟨row', hrow', e⟩ := List.mem_map.mp hin
    obtain ⟨m', hm', hkey', -⟩ := h.registered row' hrow'
    exact fresh m' hm' (hkey'.trans e)
  · intro row' hrow'
    rcases List.mem_cons.mp hrow' with rfl | hrow'
    · exact ⟨m, List.mem_cons_self .., hkey, hop⟩
    · exact (h.weaken m).registered row' hrow'

/-- The rows are rewritten under their requests. -/
theorem map (h : RegisteredAs key operation requests rows) (f : Row → Row)
    (hf : ∀ r, key (f r) = key r) : RegisteredAs key operation requests (rows.map f) := by
  constructor
  · have hcolumn : (rows.map f).map key = rows.map key := by
      rw [List.map_map]
      exact List.map_congr_left fun r _ => hf r
    rw [Table.Keyed, hcolumn]
    exact h.keyed
  · intro row hrow
    obtain ⟨r, hr, rfl⟩ := List.mem_map.mp hrow
    rw [hf r]
    exact h.registered r hr

/-- The operation of the request of a row. -/
theorem operation_of (h : RegisteredAs key operation requests rows)
    (hkeyed : Table.Keyed MutationRequest.requestId requests) {p : Row → Prop}
    {m : MutationRequest} (hm : m ∈ requests) (hrow : ∃ row ∈ rows, p row ∧ key row = m.requestId) :
    m.operation = operation := by
  obtain ⟨row, hrow, -, hkey⟩ := hrow
  obtain ⟨m', hm', hkey', hop⟩ := h.registered row hrow
  have hsame : m' = m := Table.eq_of_key hkeyed hm' hm (hkey'.trans hkey)
  exact hsame ▸ hop

/-- Rows are removed with their requests. -/
theorem filter (h : RegisteredAs key operation requests rows) {p : MutationRequest → Bool}
    {q : Row → Bool} (hp : ∀ row ∈ rows, q row = true → ∀ m ∈ requests, m.requestId = key row →
      p m = true) : RegisteredAs key operation (requests.filter p) (rows.filter q) := by
  refine ⟨h.keyed.filter q, fun row hrow => ?_⟩
  obtain ⟨hrow, hq⟩ := List.mem_filter.mp hrow
  obtain ⟨m, hm, hkey, hop⟩ := h.registered row hrow
  exact ⟨m, List.mem_filter.mpr ⟨hm, hp row hrow hq m hm hkey⟩, hkey, hop⟩

theorem modify {Key : Type} [DecidableEq Key] (h : RegisteredAs key operation requests rows)
    {column : Row → Key} {k : Key} {f : Row → Row} (hf : ∀ r, key (f r) = key r) :
    RegisteredAs key operation requests (Table.modify column k f rows) :=
  h.map _ fun r => by split <;> simp [hf]

end RegisteredAs

/-- Every registered request of an operation has its row, of the same number and time. -/
def Backed {Row : Type} (stamp : Row → MutationRequestId × Nat × Nat)
    (operation : MutationOperation) (requests : List MutationRequest) (rows : List Row) : Prop :=
  ∀ m ∈ requests, m.operation = operation →
    ∃ row ∈ rows, stamp row = (m.requestId, m.acceptedSequence, m.acceptedAtMilliseconds)

section Backed

variable {Row : Type} {stamp : Row → MutationRequestId × Nat × Nat} {operation : MutationOperation}
  {requests : List MutationRequest} {rows : List Row}

theorem Backed.other (h : Backed stamp operation requests rows) {m : MutationRequest}
    (hne : m.operation ≠ operation) : Backed stamp operation (m :: requests) rows := by
  intro m' hm' hop
  rcases List.mem_cons.mp hm' with rfl | hm'
  · exact absurd hop hne
  · exact h m' hm' hop

theorem Backed.add (h : Backed stamp operation requests rows) {m : MutationRequest} {row : Row}
    (hstamp : stamp row = (m.requestId, m.acceptedSequence, m.acceptedAtMilliseconds)) :
    Backed stamp operation (m :: requests) (row :: rows) := by
  intro m' hm' hop
  rcases List.mem_cons.mp hm' with rfl | hm'
  · exact ⟨row, List.mem_cons_self .., hstamp⟩
  · obtain ⟨row', hrow', hstamp'⟩ := h m' hm' hop
    exact ⟨row', List.mem_cons_of_mem _ hrow', hstamp'⟩

theorem Backed.modify {Key : Type} [DecidableEq Key] (h : Backed stamp operation requests rows)
    {column : Row → Key} {k : Key} {f : Row → Row} (hf : ∀ r, stamp (f r) = stamp r) :
    Backed stamp operation requests (Table.modify column k f rows) := by
  intro m hm hop
  obtain ⟨row, hrow, hstamp⟩ := h m hm hop
  refine ⟨_, Table.mem_modify.mpr ⟨row, hrow, rfl⟩, ?_⟩
  split
  · exact (hf row).trans hstamp
  · exact hstamp

/-- Rows are removed with their requests. -/
theorem Backed.filter (h : Backed stamp operation requests rows) {p : MutationRequest → Bool}
    {q : Row → Bool} (hq : ∀ row ∈ rows, ∀ m ∈ requests, p m = true →
      (stamp row).1 = m.requestId → q row = true) :
    Backed stamp operation (requests.filter p) (rows.filter q) := by
  intro m hm hop
  obtain ⟨hm, hp⟩ := List.mem_filter.mp hm
  obtain ⟨row, hrow, hstamp⟩ := h m hm hop
  exact ⟨row, List.mem_filter.mpr ⟨hrow, hq row hrow m hm hp (by rw [hstamp])⟩, hstamp⟩

end Backed

structure Registered (s : Store) : Prop where
  requests : Table.Keyed MutationRequest.requestId s.mutationRequests
  creations : RegisteredAs SessionCreationRequest.requestId .sessionCreate s.mutationRequests
    s.sessionCreationRequests
  renames : RegisteredAs SessionRenameRequest.requestId .sessionRename s.mutationRequests
    s.sessionRenameRequests
  archives : RegisteredAs SessionArchiveRequest.requestId .sessionArchive s.mutationRequests
    s.sessionArchiveRequests
  inputs : RegisteredAs RunInputRequest.requestId .runInput s.mutationRequests s.runInputRequests
  cancellations : RegisteredAs RunCancellationRequest.requestId .runCancel s.mutationRequests
    s.runCancellationRequests
  commands : RegisteredAs LocalCommand.requestId .localCommand s.mutationRequests s.localCommands
  commandCancellations : RegisteredAs LocalCommandCancellation.requestId .localCommandCancel
    s.mutationRequests s.localCommandCancellations
  steering : RegisteredAs SteeringMutationRequest.requestId .steering s.mutationRequests
    s.steeringMutationRequests
  deletes : RegisteredAs SessionDeleteRequest.requestId .sessionDelete s.mutationRequests
    s.sessionDeleteRequests
  buried : ∀ b ∈ s.deletedMutationTombstones, ∀ m ∈ s.mutationRequests,
    m.requestId ≠ b.requestId

theorem registered_empty : Registered Store.empty := by
  constructor <;> first | exact RegisteredAs.nil | exact List.nodup_nil | simp [Store.empty]

/-- A fresh request is registered. -/
theorem Registered.request (h : Registered s) {requestId : MutationRequestId}
    (operation : MutationOperation) (n now : Nat)
    (fresh : loadMutationOperation s requestId = none) :
    Registered (insertMutationRequest s requestId operation n now) where
  requests := by
    refine List.nodup_cons.mpr ⟨fun hin => ?_, h.requests⟩
    obtain ⟨m, hm, e⟩ := List.mem_map.mp hin
    exact (loadMutationOperation_none.mp fresh).1 m hm e
  creations := h.creations.weaken _
  renames := h.renames.weaken _
  archives := h.archives.weaken _
  inputs := h.inputs.weaken _
  cancellations := h.cancellations.weaken _
  commands := h.commands.weaken _
  commandCancellations := h.commandCancellations.weaken _
  steering := h.steering.weaken _
  deletes := h.deletes.weaken _
  buried := by
    intro b hb m hm
    rcases List.mem_cons.mp hm with rfl | hm
    · exact fun e => (loadMutationOperation_none.mp fresh).2 b hb e.symm
    · exact h.buried b hb m hm

/-! ## The requests of a deleted session -/

/-- A deletion removes the registered requests of its session. -/
theorem Registered.cleanup_requests (h : Registered s) (request : SessionDeleteRequest) :
    (writeCleanup s request).mutationRequests = s.mutationRequests.filter fun m =>
      decide (m.requestId ∉ sessionMutations s request.sessionId) := by
  refine List.filter_congr fun m hm => ?_
  have hburied : ∀ b ∈ s.deletedMutationTombstones, b.requestId ≠ m.requestId :=
    fun b hb e => h.buried b hb m hm e.symm
  have hnew : ((((s.mutationRequests.filter fun m =>
      m.requestId ∈ sessionMutations s request.sessionId).map fun m =>
        DeletedMutationTombstone.mk m.requestId request.requestId m.operation m.acceptedSequence
          m.acceptedAtMilliseconds) ++ s.deletedMutationTombstones).any fun b =>
            b.deleteRequestId = request.requestId && b.requestId = m.requestId) = true ↔
      m.requestId ∈ sessionMutations s request.sessionId := by
    rw [List.any_eq_true]
    constructor
    · rintro ⟨b, hb, hkey⟩
      simp only [Bool.and_eq_true, decide_eq_true_eq] at hkey
      rcases List.mem_append.mp hb with hb | hb
      · obtain ⟨m', hm', rfl⟩ := List.mem_map.mp hb
        have hin := (List.mem_filter.mp hm').2
        rw [← hkey.2]
        simpa using hin
      · exact absurd hkey.2 (hburied b hb)
    · intro hin
      refine ⟨_, List.mem_append_left _ (List.mem_map_of_mem
        (List.mem_filter.mpr ⟨hm, decide_eq_true hin⟩)), ?_⟩
      simp
  exact decide_eq_decide.mpr (not_congr hnew)

theorem mem_sessionMutations {sessionId : SessionId} {requestId : MutationRequestId} :
    requestId ∈ sessionMutations s sessionId ↔
      (∃ r ∈ s.sessionCreationRequests, r.sessionId = sessionId ∧ r.requestId = requestId) ∨
      (∃ r ∈ s.runInputRequests, r.sessionId = sessionId ∧ r.requestId = requestId) ∨
      (∃ r ∈ s.runCancellationRequests, r.sessionId = sessionId ∧ r.requestId = requestId) ∨
      (∃ r ∈ s.localCommands, r.sessionId = sessionId ∧ r.requestId = requestId) ∨
      (∃ r ∈ s.localCommandCancellations, r.sessionId = sessionId ∧ r.requestId = requestId) ∨
      (∃ r ∈ s.sessionRenameRequests, r.sessionId = sessionId ∧ r.requestId = requestId) ∨
      (∃ r ∈ s.steeringMutationRequests, r.sessionId = sessionId ∧ r.requestId = requestId) ∨
      (∃ r ∈ s.sessionArchiveRequests, r.sessionId = sessionId ∧ r.requestId = requestId) := by
  simp only [sessionMutations, List.mem_dedup, List.mem_append, List.mem_map, List.mem_filter,
    decide_eq_true_eq, or_assoc, and_assoc]

/-- The requests of a session are of the operations with rows of their own. -/
theorem Registered.mutation (h : Registered s) (sessionId : SessionId) (m : MutationRequest)
    (hm : m ∈ s.mutationRequests) (hin : m.requestId ∈ sessionMutations s sessionId) :
    (m.operation = .sessionCreate ∧
      ∃ r ∈ s.sessionCreationRequests, r.sessionId = sessionId ∧ r.requestId = m.requestId) ∨
    (m.operation = .runInput ∧
      ∃ r ∈ s.runInputRequests, r.sessionId = sessionId ∧ r.requestId = m.requestId) ∨
    (m.operation = .runCancel ∧
      ∃ r ∈ s.runCancellationRequests, r.sessionId = sessionId ∧ r.requestId = m.requestId) ∨
    (m.operation = .localCommand ∧
      ∃ r ∈ s.localCommands, r.sessionId = sessionId ∧ r.requestId = m.requestId) ∨
    (m.operation = .localCommandCancel ∧
      ∃ r ∈ s.localCommandCancellations, r.sessionId = sessionId ∧ r.requestId = m.requestId) ∨
    (m.operation = .sessionRename ∧
      ∃ r ∈ s.sessionRenameRequests, r.sessionId = sessionId ∧ r.requestId = m.requestId) ∨
    (m.operation = .steering ∧
      ∃ r ∈ s.steeringMutationRequests, r.sessionId = sessionId ∧ r.requestId = m.requestId) ∨
    (m.operation = .sessionArchive ∧
      ∃ r ∈ s.sessionArchiveRequests, r.sessionId = sessionId ∧ r.requestId = m.requestId) := by
  rcases mem_sessionMutations.mp hin with h' | h' | h' | h' | h' | h' | h' | h'
  · exact Or.inl ⟨h.creations.operation_of h.requests hm h', h'⟩
  · exact Or.inr (Or.inl ⟨h.inputs.operation_of h.requests hm h', h'⟩)
  · exact Or.inr (Or.inr (Or.inl ⟨h.cancellations.operation_of h.requests hm h', h'⟩))
  · exact Or.inr (Or.inr (Or.inr (Or.inl ⟨h.commands.operation_of h.requests hm h', h'⟩)))
  · exact Or.inr (Or.inr (Or.inr (Or.inr
      (Or.inl ⟨h.commandCancellations.operation_of h.requests hm h', h'⟩))))
  · exact Or.inr (Or.inr (Or.inr (Or.inr
      (Or.inr (Or.inl ⟨h.renames.operation_of h.requests hm h', h'⟩)))))
  · exact Or.inr (Or.inr (Or.inr (Or.inr
      (Or.inr (Or.inr (Or.inl ⟨h.steering.operation_of h.requests hm h', h'⟩))))))
  · exact Or.inr (Or.inr (Or.inr (Or.inr
      (Or.inr (Or.inr (Or.inr ⟨h.archives.operation_of h.requests hm h', h'⟩))))))

/-- The request of a row that stays, stays. -/
theorem RegisteredAs.kept {Row : Type} {key : Row → MutationRequestId}
    {operation : MutationOperation} {requests : List MutationRequest} {rows : List Row}
    (h : RegisteredAs key operation requests rows) (session : Row → SessionId)
    {sessionId : SessionId} {mutations : List MutationRequestId}
    (hown : ∀ m ∈ requests, m.requestId ∈ mutations → m.operation = operation →
      ∃ r ∈ rows, session r = sessionId ∧ key r = m.requestId) :
    RegisteredAs key operation (requests.filter fun m => decide (m.requestId ∉ mutations))
      (rows.filter fun r => decide (session r ≠ sessionId)) := by
  refine ⟨h.keyed.filter _, fun row hrow => ?_⟩
  obtain ⟨hrow, hsession⟩ := List.mem_filter.mp hrow
  obtain ⟨m, hm, hkey, hop⟩ := h.registered row hrow
  refine ⟨m, List.mem_filter.mpr ⟨hm, decide_eq_true fun hin => ?_⟩, hkey, hop⟩
  obtain ⟨r, hr, hs, hk⟩ := hown m hm hin hop
  have hsame : r = row := Table.eq_of_key h.keyed hr hrow (hk.trans hkey)
  exact of_decide_eq_true hsession (hsame ▸ hs)

theorem Registered.cleanup (h : Registered s) (request : SessionDeleteRequest) :
    Registered (writeCleanup s request) := by
  have hown := h.mutation request.sessionId
  have hrequests := h.cleanup_requests request
  constructor
  · rw [hrequests]
    exact h.requests.filter _
  · rw [hrequests]
    exact h.creations.kept (·.sessionId) fun m hm hin hop => by simpa [hop] using hown m hm hin
  · rw [hrequests]
    exact h.renames.kept (·.sessionId) fun m hm hin hop => by simpa [hop] using hown m hm hin
  · rw [hrequests]
    exact h.archives.kept (·.sessionId) fun m hm hin hop => by simpa [hop] using hown m hm hin
  · rw [hrequests]
    exact h.inputs.kept (·.sessionId) fun m hm hin hop => by simpa [hop] using hown m hm hin
  · rw [hrequests]
    exact h.cancellations.kept (·.sessionId) fun m hm hin hop => by
      simpa [hop] using hown m hm hin
  · rw [hrequests]
    exact h.commands.kept (·.sessionId) fun m hm hin hop => by simpa [hop] using hown m hm hin
  · rw [hrequests]
    exact h.commandCancellations.kept (·.sessionId) fun m hm hin hop => by
      simpa [hop] using hown m hm hin
  · rw [hrequests]
    exact h.steering.kept (·.sessionId) fun m hm hin hop => by simpa [hop] using hown m hm hin
  · rw [hrequests]
    have hdeletes := h.deletes.filter (q := fun _ => true)
      (p := fun m => decide (m.requestId ∉ sessionMutations s request.sessionId))
      fun row hrow _ m hm hkey => decide_eq_true fun hin => ?_
    · rw [List.filter_true] at hdeletes
      exact hdeletes.modify fun _ => rfl
    · obtain ⟨m', hm', hkey', hop⟩ := h.deletes.registered row hrow
      have hsame : m' = m := Table.eq_of_key h.requests hm' hm (hkey'.trans hkey.symm)
      simpa [← hsame, hop] using hown m hm hin
  · rw [hrequests]
    intro b hb m hm
    obtain ⟨hm, hout⟩ := List.mem_filter.mp hm
    rcases List.mem_append.mp hb with hb | hb
    · obtain ⟨m', hm', rfl⟩ := List.mem_map.mp hb
      have hin := of_decide_eq_true (List.mem_filter.mp hm').2
      exact fun e => of_decide_eq_true hout (e ▸ hin)
    · exact h.buried b hb m hm

theorem Registered.paused (h : Registered s) (p : Paused s t) : Registered t := by
  rw [p.frame]
  exact { h with }

theorem Registered.write (h : Registered s) (w : Write d s t) : Registered t := by
  cases w with
  | recovery u now paused => exact h.paused (pause_paused paused)
  | steering mutation u item now fresh text admitted applied =>
    obtain ⟨-, hframe⟩ := steering_frame applied
    rw [hframe]
    exact { h.request .steering s.nextValue now fresh with
      steering := h.steering.add (loadMutationOperation_none.mp fresh).1 rfl rfl }
  | creationRequest requestId fingerprint displayName workingDirectory now fresh =>
    exact { h.request .sessionCreate s.nextValue now fresh with
      creations := h.creations.add (loadMutationOperation_none.mp fresh).1 rfl rfl }
  | workspaceDispatched => exact { h with creations := h.creations.modify fun _ => rfl }
  | session => exact { h with creations := h.creations.modify fun _ => rfl }
  | rename requestId fingerprint sessionId displayName now fresh =>
    exact { h.request .sessionRename s.nextValue now fresh with
      renames := h.renames.add (loadMutationOperation_none.mp fresh).1 rfl rfl }
  | archiveRequest requestId fingerprint sessionId archived now u fresh found paused =>
    refine Registered.paused ?_ (requestArchive_paused paused)
    exact { h.request .sessionArchive s.nextValue now fresh with
      archives := h.archives.add (loadMutationOperation_none.mp fresh).1 rfl rfl }
  | archive => exact { h with archives := h.archives.modify fun _ => rfl }
  | deleteRequest requestId fingerprint sessionId session now rule fresh =>
    exact { h.request .sessionDelete s.nextValue now fresh with
      deletes := h.deletes.add (loadMutationOperation_none.mp fresh).1 rfl rfl }
  | cleanup request => exact h.cleanup request
  | delete => exact { h with deletes := h.deletes.modify fun _ => rfl }
  | acceptance requestId fingerprint sessionId session state binding checkpoint text context now fresh =>
    exact { h.request .runInput (s.nextValue + 1) now fresh with
      inputs := h.inputs.add (loadMutationOperation_none.mp fresh).1 rfl rfl }
  | cancellation requestId fingerprint run now fresh foundSession found room recordable canonical u
      paused =>
    refine Registered.paused ?_ (cancelled_paused paused)
    exact { h.request .runCancel s.nextValue now fresh with
      cancellations := h.cancellations.add (loadMutationOperation_none.mp fresh).1 rfl rfl }
  | commandAcceptance requestId fingerprint sessionId command contextVisible session state now
      fresh =>
    exact { h.request .localCommand s.nextValue now fresh with
      commands := h.commands.add (loadMutationOperation_none.mp fresh).1 rfl rfl }
  | commandActivation => exact { h with commands := h.commands.modify fun _ => rfl }
  | commandResult => exact { h with commands := h.commands.modify fun _ => rfl }
  | commandCancellation requestId fingerprint row now fresh =>
    have hrequest := h.request .localCommandCancel s.nextValue now fresh
    exact { hrequest with
      commandCancellations := h.commandCancellations.add (loadMutationOperation_none.mp fresh).1 rfl
        rfl
      commands := by
        simp only [writeCommandCancellation]
        split
        · exact hrequest.commands.modify fun _ => rfl
        · exact hrequest.commands }
  | finish run outcome => cases outcome <;> exact { h with }
  | _ => exact { h with }

end Morons
