import Morons.Invariant.Identity

/-!
# Sessions and their facts

A session has one row, one run state and one canonical fact, and what its
creation fixed is the same in all of them.
-/

namespace Morons

variable {d : Discipline} {s t : Store}

/-- What the creation of a session fixes. -/
structure SessionOrigin where
  id : SessionId
  workspaceId : Nat
  workingDirectory : Option String
  createdSequence : Nat
  createdAtMilliseconds : Nat
  deriving DecidableEq

def Session.origin (r : Session) : SessionOrigin :=
  ⟨r.id, r.workspaceId, r.workingDirectory, r.createdSequence, r.createdAtMilliseconds⟩

def SessionCreatedFact.origin (f : SessionCreatedFact) : SessionOrigin :=
  ⟨f.sessionId, f.workspaceId, f.workingDirectory, f.acceptedSequence, f.createdAtMilliseconds⟩

structure Aligned (s : Store) : Prop where
  ready : ∀ f ∈ s.sessionCreatedFacts, ∃ r ∈ s.sessionCreationRequests,
    r.sessionId = f.sessionId ∧ r.state = .ready
  created : Table.Keyed SessionCreatedFact.sessionId s.sessionCreatedFacts
  sessions : s.sessions.map Session.origin = s.sessionCreatedFacts.map SessionCreatedFact.origin
  runStates : s.sessionRunStates.map SessionRunState.sessionId =
    s.sessionCreatedFacts.map SessionCreatedFact.sessionId

theorem aligned_empty : Aligned Store.empty := by
  constructor
  · simp [Store.empty]
  · exact List.nodup_nil
  · rfl
  · rfl

namespace Aligned

theorem sessionIds (h : Aligned s) :
    s.sessions.map Session.id = s.sessionCreatedFacts.map SessionCreatedFact.sessionId := by
  have hids := congrArg (List.map SessionOrigin.id) h.sessions
  rwa [List.map_map, List.map_map] at hids

theorem keyedRunStates (h : Aligned s) :
    Table.Keyed SessionRunState.sessionId s.sessionRunStates := by
  rw [Table.Keyed, h.runStates]
  exact h.created

/-- A session has a run state. -/
theorem runState_isSome (h : Aligned s) {sessionId : SessionId} :
    (loadSessionRunState s sessionId).isSome ↔ (loadSession s sessionId).isSome := by
  rw [loadSessionRunState, loadSession, Table.find_isSome, Table.find_isSome, h.runStates,
    h.sessionIds]

/-- The rows of the sessions change, but not what their creation fixed. -/
theorem kept (h : Aligned s) (hfacts : t.sessionCreatedFacts = s.sessionCreatedFacts)
    (hrequests : t.sessionCreationRequests = s.sessionCreationRequests)
    (hsessions : t.sessions.map Session.origin = s.sessions.map Session.origin)
    (hstates : t.sessionRunStates.map SessionRunState.sessionId =
      s.sessionRunStates.map SessionRunState.sessionId) : Aligned t where
  ready := by
    rw [hfacts, hrequests]
    exact h.ready
  created := by
    rw [hfacts]
    exact h.created
  sessions := by
    rw [hfacts, hsessions]
    exact h.sessions
  runStates := by
    rw [hfacts, hstates]
    exact h.runStates

theorem move (h : Aligned s) {run : Run} {state : RunState} {failure : Option RunFailureKind}
    {kind : EventKind} {now n : Nat} : Aligned (moveRun s run state failure kind now n) :=
  h.kept rfl rfl (Table.modify_column _ fun _ => rfl) (Table.modify_column _ fun _ => rfl)

theorem paused (h : Aligned s) (p : Paused s t) : Aligned t := by
  rw [p.frame]
  exact { h with }

theorem ended (h : Aligned s) {run : Run} {state : RunState} {failure : Option RunFailureKind}
    {kind : EventKind} {now : Nat} {u : Store} : Aligned (endRun s u run state failure kind now) :=
  { h.move (n := u.nextValue) with }

theorem outcome (h : Aligned s) {run : Run} {fact : ProviderOperationFact} :
    Aligned (writeProviderOutcome s run fact) :=
  h.kept rfl rfl rfl rfl

theorem finalEntry (h : Aligned s) {run : Run} {assistant : CompletedAssistant}
    {entrySequence now : Nat} : Aligned (writeFinalEntry s run assistant entrySequence now) :=
  h.kept rfl rfl rfl (Table.modify_column _ fun _ => rfl)

theorem toolResult (h : Aligned s) {run : Run} {call : ToolCall} {result : ToolResult}
    {factKind : ToolFactKind} {resultStatus : ToolResultStatus} {entrySequence now : Nat} :
    Aligned (recordToolResult s run call result factKind resultStatus entrySequence now) :=
  h.kept rfl rfl (Table.modify_column _ fun _ => rfl) (Table.modify_column _ fun _ => rfl)

/-- A dispatched request has no session yet. -/
theorem uncreated (h : Aligned s) (hid : Identified s) {request : SessionCreationRequest}
    (hin : request ∈ s.sessionCreationRequests) (hstate : request.state ≠ .ready) :
    ∀ f ∈ s.sessionCreatedFacts, f.sessionId ≠ request.sessionId := by
  intro f hf e
  obtain ⟨r, hr, hsession, hready⟩ := h.ready f hf
  have hsame : r = request := hid.creations.eq_of_seq hr hin (hsession.trans e)
  exact hstate (hsame ▸ hready)

theorem cleanup (h : Aligned s) (request : SessionDeleteRequest) :
    Aligned (writeCleanup s request) where
  ready := by
    intro f hf
    obtain ⟨hf, hother⟩ := List.mem_filter.mp hf
    obtain ⟨r, hr, hsession, hready⟩ := h.ready f hf
    exact ⟨r, List.mem_filter.mpr ⟨hr, hsession ▸ hother⟩, hsession, hready⟩
  created := h.created.filter _
  sessions := Table.filter_column (fun o : SessionOrigin => decide (o.id ≠ request.sessionId)) h.sessions
  runStates := Table.filter_column (fun id : SessionId => decide (id ≠ request.sessionId)) h.runStates

theorem write (h : Aligned s) (hid : Identified s) (hreg : Registered s) (w : Write d s t) :
    Aligned t := by
  cases w with
  | recovery u now paused => exact h.paused (pause_paused paused)
  | steering mutation u item now fresh text admitted applied =>
    rw [(steering_frame applied).2]
    exact { h with }
  | archiveRequest requestId fingerprint sessionId archived now u fresh found paused =>
    refine Aligned.paused ?_ (requestArchive_paused paused)
    exact { h with }
  | creationRequest =>
    exact { h with
      ready := by
        intro f hf
        obtain ⟨r, hr, hready⟩ := h.ready f hf
        exact ⟨r, List.mem_cons_of_mem _ hr, hready⟩ }
  | workspaceDispatched request found prepared =>
    exact { h with
      ready := by
        intro f hf
        obtain ⟨r, hr, hsession, hready⟩ := h.ready f hf
        refine ⟨r, Table.mem_modify.mpr ⟨r, hr, if_neg fun e => ?_⟩, hsession, hready⟩
        have hsame : r = request :=
          Table.eq_of_key hreg.creations.keyed hr (Table.find_mem found) e
        rw [hsame, prepared] at hready
        cases hready }
  | session request found dispatched =>
    have hin : request ∈ s.sessionCreationRequests := Table.find_mem found
    constructor
    · intro f hf
      rcases List.mem_cons.mp hf with rfl | hf
      · exact ⟨_, Table.mem_modify.mpr ⟨request, hin, if_pos rfl⟩, rfl, rfl⟩
      · obtain ⟨r, hr, hsession, hready⟩ := h.ready f hf
        refine ⟨_, Table.mem_modify.mpr ⟨r, hr, rfl⟩, ?_, ?_⟩
        · split
          · exact hsession
          · exact hsession
        · split
          · rfl
          · exact hready
    · refine List.nodup_cons.mpr ⟨fun hmem => ?_, h.created⟩
      obtain ⟨f, hf, e⟩ := List.mem_map.mp hmem
      exact h.uncreated hid hin (by simp [dispatched]) f hf e
    · exact congrArg (List.cons _) h.sessions
    · exact congrArg (List.cons _) h.runStates
  | rename => exact h.kept rfl rfl (Table.modify_column _ fun _ => rfl) rfl
  | archive => exact h.kept rfl rfl (Table.modify_column _ fun _ => rfl) rfl
  | cleanup request => exact h.cleanup request
  | acceptance =>
    refine h.kept rfl rfl (Table.modify_column _ fun _ => rfl) ?_
    refine (List.map_map ..).trans (List.map_congr_left fun r _ => ?_)
    simp only [Function.comp_apply]
    split <;> rfl
  | activate => exact h.move
  | outcome => exact h.outcome
  | finish run outcome =>
    cases outcome with
    | none => exact h.ended
    | some fact => exact h.outcome.ended
  | answer => exact h.outcome.finalEntry.ended
  | cancellation requestId fingerprint run now fresh foundSession found room recordable canonical u
      paused =>
    refine Aligned.paused ?_ (cancelled_paused paused)
    refine h.kept rfl rfl ?_ ?_
    · simp only [writeCancellation]
      split
      · exact Table.modify_column _ fun _ => rfl
      · rfl
    · simp only [writeCancellation]
      split
      · exact Table.modify_column _ fun _ => rfl
      · rfl
  | commentary | toolCall | commandAcceptance | commandResult =>
    exact h.kept rfl rfl (Table.modify_column _ fun _ => rfl) (Table.modify_column _ fun _ => rfl)
  | toolResult => exact h.toolResult
  | toolUncertain => exact h.toolResult.ended
  | _ => exact { h with }

end Aligned

end Morons
