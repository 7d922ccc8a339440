import Morons.Invariant.Sound

/-!
# The runs of a session

A session has one run after the other: before the next one is accepted, the one
before it has ended.
-/

namespace Morons

open Ledger

variable {s t : Store} {d : Discipline}

/-- Every run but the last one of a session ended before the next was accepted. -/
def Successive (s : Store) : Prop :=
  ∀ a ∈ s.runAcceptedFacts, ∀ b ∈ s.runAcceptedFacts, a.sessionId = b.sessionId →
    a.factSequence < b.factSequence → ∃ f ∈ s.runStateFacts, f.runId = a.runId ∧
      f.state.isTerminal = true ∧ f.factSequence < b.factSequence

theorem successive_empty : Successive Store.empty := by simp [Successive, Store.empty]

namespace Successive

/-- No run is accepted, and no fact of a run is lost. -/
theorem kept (h : Successive s) (haccepted : t.runAcceptedFacts = s.runAcceptedFacts)
    (hstates : s.runStateFacts ⊆ t.runStateFacts) : Successive t := by
  intro a ha b hb hsession hlt
  rw [haccepted] at ha hb
  obtain ⟨f, hf, hended⟩ := h a ha b hb hsession hlt
  exact ⟨f, hstates hf, hended⟩

theorem paused (h : Successive s) (p : Paused s t) : Successive t := by
  rw [p.frame]
  exact h

theorem ended (h : Successive s) {u : Store} {run : Run} {state : RunState}
    {failure : Option RunFailureKind} {kind : EventKind} {now : Nat} :
    Successive (endRun s u run state failure kind now) :=
  h.kept rfl (List.subset_cons_self ..)

/-- Neither the acceptance nor the state facts of a run are touched. -/
theorem same (h : Successive s) (haccepted : t.runAcceptedFacts = s.runAcceptedFacts)
    (hstates : t.runStateFacts = s.runStateFacts) : Successive t :=
  h.kept haccepted (hstates ▸ List.Subset.refl _)

/-- In a session without an active run every run has ended. -/
theorem all_ended (hs : Sound s) {sessionId : SessionId} {state : SessionRunState}
    (found : loadSessionRunState s sessionId = some state) (idle : state.activeRunId = none)
    {a : RunAcceptedFact} (ha : a ∈ s.runAcceptedFacts) (hsession : a.sessionId = sessionId) :
    ∃ f ∈ s.runStateFacts, f.runId = a.runId ∧ f.state.isTerminal = true := by
  have horigin : a.origin ∈ s.runs.map Run.origin := by
    rw [hs.bound.runs]
    exact List.mem_map_of_mem ha
  obtain ⟨run, hrun, hsame⟩ := List.mem_map.mp horigin
  have hid : run.id = a.runId := congrArg RunOrigin.id hsame
  have hrunSession : run.sessionId = state.sessionId :=
    (congrArg RunOrigin.sessionId hsame).trans (hsession.trans (Table.find_key found).symm)
  have hterminal : run.state.isTerminal = true := by
    refine Bool.eq_true_of_not_eq_false fun hgoing => ?_
    have hactive := (hs.occupied.active state (Table.find_mem found) run hrun hrunSession).mp hgoing
    rw [idle] at hactive
    cases hactive
  obtain ⟨f, hf, hfrun, hfstate, -⟩ := hs.closed.updated run hrun hterminal
  exact ⟨f, hf, hfrun.trans hid, hfstate ▸ hterminal⟩

/-- The next run is accepted in an idle session. -/
theorem acceptance (h : Successive s) (hs : Sound s) {b : RunAcceptedFact} {state : SessionRunState}
    (haccepted : t.runAcceptedFacts = b :: s.runAcceptedFacts)
    (hstates : t.runStateFacts = s.runStateFacts) (hnew : s.nextValue ≤ b.factSequence)
    (found : loadSessionRunState s b.sessionId = some state) (idle : state.activeRunId = none) :
    Successive t := by
  intro a ha c hc hsession hlt
  rw [haccepted] at ha hc
  rw [hstates]
  have hold : ∀ f ∈ s.runAcceptedFacts, f.factSequence < b.factSequence :=
    fun f hf => lt_of_lt_of_le (hs.numbered.acceptedFacts.bounded f hf) hnew
  rcases List.mem_cons.mp ha with rfl | ha'
  · rcases List.mem_cons.mp hc with rfl | hc'
    · exact absurd hlt (lt_irrefl _)
    · exact absurd hlt (hold c hc').le.not_gt
  · rcases List.mem_cons.mp hc with rfl | hc'
    · obtain ⟨f, hf, hrun, hterminal⟩ := all_ended hs found idle ha' hsession
      exact ⟨f, hf, hrun, hterminal, lt_of_lt_of_le (hs.numbered.stateFacts.bounded f hf) hnew⟩
    · exact h a ha' c hc' hsession hlt

/-- The facts of a cleaned session go all at once. -/
theorem cleanup (h : Successive s) (hs : Sound s) (request : SessionDeleteRequest) :
    Successive (writeCleanup s request) := by
  intro a ha b hb hsession hlt
  obtain ⟨ha, hother⟩ := List.mem_filter.mp ha
  obtain ⟨f, hf, hrun, hended⟩ := h a ha b (List.mem_of_mem_filter hb) hsession hlt
  refine ⟨f, List.mem_filter.mpr ⟨hf, ?_⟩, hrun, hended⟩
  obtain ⟨c, hc, hcrun, hcsession, -⟩ := hs.scope.stateFacts f hf
  have hsame := hs.identified.acceptedFacts.eq_of_seq hc ha (hcrun.trans hrun)
  rw [← hcsession, hsame]
  exact hother

theorem write (h : Successive s) (hs : Sound s) (w : Write d s t) : Successive t := by
  cases w with
  | recovery u now paused => exact h.paused (pause_paused paused)
  | steering mutation u item now fresh text admitted applied =>
    rw [(steering_frame applied).2]
    exact h.same rfl rfl
  | archiveRequest requestId fingerprint sessionId archived now u fresh found paused =>
    refine Successive.paused ?_ (requestArchive_paused paused)
    exact h.same rfl rfl
  | cleanup request => exact h.cleanup hs request
  | acceptance requestId fingerprint sessionId session state binding checkpoint text context now fresh
      admitted =>
    exact h.acceptance hs rfl rfl (Nat.le_succ _) admitted.foundState admitted.idle
  | activate => exact h.kept rfl (List.subset_cons_self ..)
  | finish run outcome =>
    cases outcome with
    | none => exact h.ended
    | some fact =>
      have hsettled : Successive (writeProviderOutcome s run fact) := h.same rfl rfl
      exact hsettled.ended
  | answer run state fact assistant now =>
    have hanswered : Successive (writeFinalEntry (writeProviderOutcome s run fact) run assistant
        (state.entryHighWater + 1) now) := h.same rfl rfl
    exact hanswered.ended
  | toolUncertain run state call result factKind resultStatus now =>
    have hrecorded : Successive (recordToolResult s run call result factKind resultStatus
        (state.entryHighWater + 1) now) := h.same rfl rfl
    exact hrecorded.ended
  | cancellation requestId fingerprint run now fresh foundSession found room recordable canonical u
      paused =>
    refine Successive.paused ?_ (cancelled_paused paused)
    exact h.same rfl rfl
  | commandCancellation requestId fingerprint row now =>
    refine h.same ?_ ?_ <;> simp only [writeCommandCancellation] <;> split <;> rfl
  | _ => exact h.same rfl rfl

end Successive

/-- **One run after the other**, in every reachable store. -/
theorem Reachable.successive {allowed : Environment → Store → Operation → Prop}
    (h : Reachable allowed s) : Successive s := by
  have hboth : Sound s ∧ Successive s := by
    refine h.obeying_none.writes.invariant (I := fun s => Sound s ∧ Successive s) ?_ ?_
    · rintro _ rfl
      exact ⟨sound_empty, successive_empty⟩
    · rintro _ _ ⟨hsound, hsuccessive⟩ w
      exact ⟨hsound.write w, hsuccessive.write hsound w⟩
  exact hboth.2

end Morons
