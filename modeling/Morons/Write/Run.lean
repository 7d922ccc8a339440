import Morons.Write.Session

/-!
# The writes of the run operations
-/

namespace Morons

open Attempt

variable {d : Discipline} {env : Environment} {s t : Store}

/-! ## Acceptance -/

theorem acceptSessionInput_writes {requestId : MutationRequestId} {fingerprint : Fingerprint}
    {sessionId : SessionId} {text : String} {selection : RunModelSelection}
    {context : RunInputContext} {accepted : AcceptedRun}
    (h : acceptSessionInput env s requestId fingerprint sessionId text selection context =
      .ok (accepted, t)) : Writes d s t := by
  rcases acceptSessionInput_ok h with rfl | ⟨hfresh, htext, h⟩
  · exact Writes.none
  · obtain ⟨session, state, binding, checkpoint, hadmitted, hsized, rfl⟩ :=
      acceptNewInput_ok htext h
    exact (Write.acceptance requestId fingerprint sessionId session state binding checkpoint text
      context env.now hfresh hadmitted hsized).writes

/-! ## Transitions -/

/-- A transition depends on the run by its identifier and its session only. -/
theorem writeTransition_congr {run run' : Run} (hid : run.id = run'.id)
    (hsession : run.sessionId = run'.sessionId) (s : Store) (state : RunState)
    (failure : Option RunFailureKind) (eventId : DeliveryEventId) (kind : EventKind) (now : Nat)
    (audit : RunAuditKind) (n m : Nat) :
    writeTransition s run state failure eventId kind now audit n m =
      writeTransition s run' state failure eventId kind now audit n m := by
  unfold writeTransition insertRunAudit insertDeliveryEvent
  rw [hid, hsession]

theorem Transitions.congr {run run' : Run} {state : RunState} {failure : Option RunFailureKind}
    {now : Nat} (h : Transitions s t run state failure now) (hid : run.id = run'.id)
    (hsession : run.sessionId = run'.sessionId) : Transitions s t run' state failure now := by
  obtain ⟨hstate, hfailure, u, kind, hkind, hu, hlimit, rfl⟩ := h
  refine ⟨hstate, hfailure, u, kind, hkind, ?_, hlimit, writeTransition_congr hid hsession ..⟩
  rw [pauseEnded, ← hid, ← hsession]
  exact hu

/-- A run that becomes active pauses nothing. -/
theorem Transitions.activates {run : Run} {failure : Option RunFailureKind} {now : Nat}
    (h : Transitions s t run .active failure now) :
    t = moveRun s run .active failure .runActive now (s.nextValue + 1) := by
  obtain ⟨-, -, u, kind, hkind, hu, -, rfl⟩ := h
  cases hkind
  cases hu
  rfl

/-- The end of a run. -/
theorem Transitions.ends {run : Run} {state : RunState} {failure : Option RunFailureKind}
    {now : Nat} (h : Transitions s t run state failure now) (hterminal : state.isTerminal = true) :
    (state = .failed ↔ failure.isSome) ∧ ∃ u kind, eventKindForState state = some kind ∧
      pauseEnded s run now = .ok u ∧ t = endRun s u run state failure kind now := by
  obtain ⟨-, hfailure, u, kind, hkind, hu, -, rfl⟩ := h
  rw [if_pos hterminal] at hu
  exact ⟨hfailure, u, kind, hkind, hu, rfl⟩

theorem loadRun_key {runId : RunId} {run : Run} (h : loadRun s runId = some run) :
    run.id = runId := Table.find_key h

/-- An update of a run is found again. -/
theorem loadRun_update {runId : RunId} {run : Run} (h : loadRun s runId = some run)
    (f : Run → Run) (hf : ∀ r, (f r).id = r.id) :
    loadRun (updateRun s runId f) runId = some (f run) :=
  Table.find_rewritten h hf

/-- A run leaves the accepted state. -/
theorem activation_writes {run : Run} {now : Nat} (hfound : loadRun s run.id = some run)
    (haccepted : run.state = .accepted) (h : Transitions s t run .active none now) :
    Writes d s t ∧ t.providerOperationFacts = s.providerOperationFacts ∧
      loadRun t run.id = some { run with
        state := .active
        failure := none
        updatedSequence := s.nextValue
        updatedAtMilliseconds := now } := by
  obtain rfl := h.activates
  refine ⟨(Write.activate run now (s.nextValue + 1) ?_).writes, rfl, ?_⟩
  · exact
      { found := ⟨run, hfound, rfl, rfl⟩
        running := by rw [haccepted]; rfl
        later := by rw [haccepted]; decide
        event := rfl
        failed := by simp
        number := Nat.lt_succ_self _ }
  · exact loadRun_update hfound _ fun _ => rfl

/-- A run ends, after the outcome of an operation, if any. -/
theorem finish_writes {run : Run} (outcome : Option ProviderOperationFact) {state : RunState}
    {failure : Option RunFailureKind} {now : Nat} (hfound : loadRun s run.id = some run)
    (hrunning : run.state.isTerminal = false)
    (hadmitted : ∀ fact ∈ outcome, OutcomeAdmitted s run fact)
    (hstate : state = .failed ∨ state = .cancelled ∨ state = .interrupted)
    (hcompleted : ∀ fact ∈ outcome, fact.factKind = .completed → state = .cancelled)
    (rule : d.finishes s.providerOperationFacts run.id (outcome.map (·.operationId)))
    (h : Transitions (settled s run outcome) t run state failure now) : Writes d s t := by
  have hterminal : state.isTerminal = true := by
    rcases hstate with rfl | rfl | rfl <;> rfl
  obtain ⟨hfailure, u, kind, hkind, hpaused, rfl⟩ := h.ends hterminal
  have hrow : ∃ row, loadRun (settled s run outcome) run.id = some row ∧
      row.sessionId = run.sessionId ∧ row.state = run.state := by
    cases outcome with
    | none => exact ⟨run, hfound, rfl, rfl⟩
    | some fact =>
      simp only [settled, writeProviderOutcome]
      split
      · exact ⟨_, loadRun_update (s := writeProviderFact s run fact) hfound _ fun _ => rfl, rfl, rfl⟩
      · exact ⟨run, hfound, rfl, rfl⟩
  have hlater : run.state.rank < state.rank := by
    rcases hstate with rfl | rfl | rfl <;> revert hrunning <;> cases run.state <;> decide
  exact (Write.finish run outcome state failure kind now u hfound hadmitted hstate hpaused
    { found := hrow
      running := hrunning
      later := hlater
      event := hkind
      failed := hfailure
      number := pauseEnded_number hpaused } hcompleted rule).writes

theorem cancelled_writes {run : Run} {now : Nat} (hfound : loadRun s run.id = some run)
    (hrunning : run.state.isTerminal = false)
    (rule : d.finishes s.providerOperationFacts run.id none)
    (h : appendRunTransition s run .cancelled none now .runStopped = .ok t) : Writes d s t :=
  finish_writes none hfound hrunning (by simp) (Or.inr (Or.inl rfl)) (by simp) rule
    (appendRunTransition_ok h rfl)

/-! ## Activation -/

theorem activateRun_writes {runId : RunId} {outcome : ActivationOutcome}
    (rule : ∀ run, loadRun s runId = some run → run.state.isTerminal = false →
      run.cancellationRequested = true → d.finishes s.providerOperationFacts runId none)
    (h : activateRun env s runId = .ok (outcome, t)) : Writes d s t := by
  simp only [activateRun, bind_ok, loadRequiredRun, demand_ok] at h
  obtain ⟨run, hfound, h⟩ := h
  have hid := loadRun_key hfound
  subst hid
  split at h
  · simp only [pure_ok, Prod.mk.injEq] at h
    exact h.2 ▸ Writes.none
  · rename_i hrunning
    have hrunning := Bool.eq_false_iff.mpr hrunning
    split at h
    · rename_i hcancelled
      have hrule := rule run hfound hrunning hcancelled
      simp only [bind_ok, pure_ok, Prod.mk.injEq] at h
      obtain ⟨u, hu, v, hv, -, rfl⟩ := h
      split at hu
      · rename_i haccepted
        obtain ⟨hwrites, hfacts, hrow⟩ :=
          activation_writes (d := d) hfound haccepted (appendRunTransition_ok hu rfl)
        have hmoved : Transitions u v
            { run with
              state := .active
              failure := none
              updatedSequence := s.nextValue
              updatedAtMilliseconds := env.now } .cancelled none env.now :=
          (appendRunTransition_ok hv rfl).congr rfl rfl
        exact hwrites.trans (finish_writes none hrow rfl (by simp)
          (Or.inr (Or.inl rfl)) (by simp) (by rw [hfacts]; exact hrule) hmoved)
      · cases hu
        exact cancelled_writes hfound hrunning hrule hv
    · split at h
      · rename_i haccepted
        simp only [bind_ok, pure_ok, Prod.mk.injEq] at h
        obtain ⟨u, hu, -, rfl⟩ := h
        exact (activation_writes hfound haccepted (appendRunTransition_ok hu rfl)).1
      · simp only [pure_ok, Prod.mk.injEq] at h
        exact h.2 ▸ Writes.none

/-! ## Provider operations -/

theorem requireProviderFact_ok {runId : RunId} {operationId : ProviderOperationId}
    {factKind : ProviderFactKind} {u : Unit} :
    requireProviderFact s runId operationId factKind = .ok u ↔
      ∃ f ∈ s.providerOperationFacts, f.operationId = operationId ∧ f.runId = runId ∧
        f.factKind = factKind := by
  simp [requireProviderFact, and_assoc]

theorem ensureProviderNotTerminal_ok {operationId : ProviderOperationId} {u : Unit} :
    ensureProviderNotTerminal s operationId = .ok u ↔ providerTerminal s operationId = false := by
  simp [ensureProviderNotTerminal]

theorem providerTerminal_false {operationId : ProviderOperationId} :
    providerTerminal s operationId = false ↔
      ∀ f ∈ s.providerOperationFacts, f.operationId = operationId → f.factKind.isTerminal = false := by
  simp [providerTerminal]

theorem insertProviderSimpleFact_ok {n : Nat} {operationId : ProviderOperationId} {runId : RunId}
    {factKind : ProviderFactKind} {failure : Option RunFailureKind} {now : Nat} :
    insertProviderSimpleFact s n operationId runId factKind failure now = .ok t ↔
      failure ≠ some .toolExecution ∧
      (∀ f ∈ s.providerOperationFacts, f.operationId = operationId → f.factKind ≠ factKind) ∧
      t = { s with
        providerOperationFacts :=
          ⟨n, operationId, runId, factKind, none, none, failure, now⟩ ::
            s.providerOperationFacts } := by
  simp only [insertProviderSimpleFact, bind_ok, require_ok, pure_ok, exists_const, List.any_eq_true,
    Bool.and_eq_true, decide_eq_true_eq, not_exists, not_and]
  exact and_congr_right fun _ => and_congr_right fun _ => eq_comm

theorem prepareProviderOperation_writes {runId : RunId}
    {sourceEntryHighWater estimatedInputTokens : Nat} {outcome : PrepareOperationOutcome}
    (rule : ∀ run, loadRun s runId = some run → run.state.isTerminal = false →
      run.cancellationRequested = true → d.finishes s.providerOperationFacts runId none)
    (h : prepareProviderOperation env s runId sourceEntryHighWater estimatedInputTokens =
      .ok (outcome, t)) : Writes d s t := by
  simp only [prepareProviderOperation, bind_ok, loadRequiredRun, demand_ok] at h
  obtain ⟨-, -, run, hfound, h⟩ := h
  have hid := loadRun_key hfound
  subst hid
  split at h
  · simp only [pure_ok, Prod.mk.injEq] at h
    exact h.2 ▸ Writes.none
  · rename_i hrunning
    have hrunning := Bool.eq_false_iff.mpr hrunning
    split at h
    · rename_i hcancelled
      simp only [bind_ok, pure_ok, Prod.mk.injEq] at h
      obtain ⟨u, hu, -, rfl⟩ := h
      exact cancelled_writes hfound hrunning (rule run hfound hrunning hcancelled) hu
    · simp only [bind_ok, require_ok, loadEntryHighWater, demand_ok, pure_ok, Prod.exists,
        nextSequence_ok, exists_const] at h
      obtain ⟨hactive, -, -, highWater, ⟨state, hstate, rfl⟩, ⟨rfl, hestimate, -⟩, hfree, n, s₁,
        ⟨-, rfl, rfl⟩, m, s₂, ⟨-, rfl, rfl⟩, h⟩ := h
      rw [← (Prod.mk.inj h).2]
      exact (Write.prepare run state estimatedInputTokens env.now hfound hactive hstate hestimate
        hfree).writes

theorem settleContextRejection_writes {runId : RunId} {operationId : ProviderOperationId}
    {settled : Bool} (h : settleContextRejection env s runId operationId = .ok (settled, t)) :
    Writes d s t := by
  simp only [settleContextRejection, bind_ok, loadRequiredRun, demand_ok] at h
  obtain ⟨-, -, run, hfound, h⟩ := h
  have hid := loadRun_key hfound
  subst hid
  split at h
  · simp only [pure_ok, Prod.mk.injEq] at h
    exact h.2 ▸ Writes.none
  · rename_i hactive
    obtain ⟨hactive, -⟩ := not_or.mp hactive
    simp only [bind_ok] at h
    obtain ⟨native, -, h⟩ := h
    split at h
    · simp only [pure_ok, Prod.mk.injEq] at h
      exact h.2 ▸ Writes.none
    · simp only [bind_ok, requireProviderFact_ok, ensureProviderNotTerminal_ok,
        insertProviderSimpleFact_ok, pure_ok, Prod.exists, nextSequence_ok, exists_const] at h
      obtain ⟨⟨f, hf, hop, hrun, hkind⟩, hopen, n, s₁, ⟨-, rfl, rfl⟩, u, ⟨hfailure, hfresh, rfl⟩, m,
        s₂, ⟨-, rfl, rfl⟩, h⟩ := h
      rw [← (Prod.mk.inj h).2]
      exact (Write.outcome run
        ⟨s.nextValue, operationId, run.id, .failed, none, none, some .resourceLimit, env.now⟩ hfound
        (not_not.mp hactive)
        { ofRun := rfl
          number := rfl
          terminal := rfl
          preparation := rfl
          completion := by simp
          failure := hfailure
          known := ⟨f, hf, hop, hrun, Or.inr hkind⟩
          fresh := hfresh
          completed := by simp } hopen).writes

theorem markProviderDispatched_writes {runId : RunId} {operationId : ProviderOperationId}
    {outcome : DispatchOutcome}
    (rule : ∀ run, loadRun s runId = some run → run.state.isTerminal = false →
      run.cancellationRequested = true →
      d.finishes s.providerOperationFacts runId (some operationId))
    (h : markProviderDispatched env s runId operationId = .ok (outcome, t)) : Writes d s t := by
  simp only [markProviderDispatched, bind_ok, loadRequiredRun, demand_ok] at h
  obtain ⟨-, -, run, hfound, h⟩ := h
  have hid := loadRun_key hfound
  subst hid
  split at h
  · simp only [pure_ok, Prod.mk.injEq] at h
    exact h.2 ▸ Writes.none
  · rename_i hrunning
    have hrunning := Bool.eq_false_iff.mpr hrunning
    simp only [bind_ok, requireProviderFact_ok, exists_const] at h
    obtain ⟨⟨f, hf, hop, hrun, hkind⟩, h⟩ := h
    split at h
    · rename_i hcancelled
      simp only [bind_ok, insertProviderSimpleFact_ok, pure_ok, Prod.exists, nextSequence_ok,
        Prod.mk.injEq] at h
      obtain ⟨n, s₁, ⟨-, rfl, rfl⟩, m, s₂, ⟨-, rfl, rfl⟩, u, ⟨hfailure, hfresh, rfl⟩, v, hv, -,
        rfl⟩ := h
      refine finish_writes (some
        ⟨s.nextValue, operationId, run.id, .abandoned, none, none, none, env.now⟩) hfound hrunning
        ?_ (Or.inr (Or.inl rfl)) (by simp) (rule run hfound hrunning hcancelled)
        (appendRunTransition_ok hv rfl)
      rintro _ ⟨⟩
      exact
        { ofRun := rfl
          number := rfl
          terminal := rfl
          preparation := rfl
          completion := by simp
          failure := hfailure
          known := ⟨f, hf, hop, hrun, Or.inl hkind⟩
          fresh := hfresh
          completed := by simp }
    · simp only [bind_ok, require_ok, ensureProviderNotTerminal_ok, insertProviderSimpleFact_ok,
        pure_ok, Prod.exists, nextSequence_ok, exists_const] at h
      obtain ⟨hactive, hopen, -, -, n, s₁, ⟨-, rfl, rfl⟩, m, s₂, ⟨-, rfl, rfl⟩, u,
        ⟨hfailure, hfresh, rfl⟩, h⟩ := h
      rw [← (Prod.mk.inj h).2]
      exact (Write.dispatch run operationId env.now hfound hactive ⟨f, hf, hop, hrun, hkind⟩ hopen
        hfresh).writes

/-- What the completed response of an operation needs. -/
theorem completed_admitted {run : Run} {operationId : ProviderOperationId}
    (completion : ProviderCompletion) (now : Nat) {u : Unit}
    (h : requireDispatchedActiveOperation s run operationId = .ok u) :
    run.state = .active ∧ providerTerminal s operationId = false ∧
      OutcomeAdmitted s run
        ⟨s.nextValue, operationId, run.id, .completed, none, some completion, none, now⟩ := by
  simp only [requireDispatchedActiveOperation, bind_ok, require_ok, requireProviderFact_ok,
    ensureProviderNotTerminal_ok, exists_const] at h
  obtain ⟨hactive, ⟨f, hf, hop, hrun, hkind⟩, hdispatched, hopen⟩ := h
  refine ⟨hactive, hopen, ?_⟩
  exact
    { ofRun := rfl
      number := rfl
      terminal := rfl
      preparation := rfl
      completion := by simp
      failure := by simp
      known := ⟨f, hf, hop, hrun, Or.inl hkind⟩
      fresh := by
        intro g hg hgop hgkind
        have := providerTerminal_false.mp hopen g hg hgop
        rw [hgkind] at this
        cases this
      completed := fun _ => ⟨hactive, hdispatched, hopen⟩ }

/-- The state a response completes an operation of, with its turn counted. -/
theorem insertProviderCompleted_ok {n : Nat} {operationId : ProviderOperationId} {runId : RunId}
    {responseId : String} {usage : ProviderUsage} {now : Nat} :
    insertProviderCompleted s n operationId runId responseId usage now = .ok t →
      t = { s with
        providerOperationFacts :=
          ⟨n, operationId, runId, .completed, none, some ⟨responseId, usage⟩, none, now⟩ ::
            s.providerOperationFacts } := by
  intro h
  simp only [insertProviderCompleted, bind_ok, pure_ok] at h
  obtain ⟨-, -, rfl⟩ := h
  rfl

theorem completeRunSuccess_writes {runId : RunId} {operationId : ProviderOperationId}
    {assistant : CompletedAssistant} {result : Run}
    (rule : ∀ run, loadRun s runId = some run → run.state.isTerminal = false →
      run.cancellationRequested = true →
      d.finishes s.providerOperationFacts runId (some operationId))
    (h : completeRunSuccess env s runId operationId assistant = .ok (result, t)) :
    Writes d s t := by
  simp only [completeRunSuccess, bind_ok, loadRequiredRun, demand_ok] at h
  obtain ⟨-, -, run, hfound, h⟩ := h
  have hid := loadRun_key hfound
  subst hid
  split at h
  · simp only [pure_ok, Prod.mk.injEq] at h
    exact h.2 ▸ Writes.none
  · rename_i hrunning
    have hrunning := Bool.eq_false_iff.mpr hrunning
    simp only [bind_ok, Prod.exists, nextSequence_ok] at h
    obtain ⟨_, hdispatched, n, s₁, ⟨-, rfl, rfl⟩, m, s₂, ⟨-, rfl, rfl⟩, u, hu, h⟩ := h
    obtain ⟨hactive, hopen, hadmitted⟩ := completed_admitted
      ⟨assistant.providerResponseId, assistant.usage⟩ env.now hdispatched
    have hu := insertProviderCompleted_ok hu
    subst hu
    split at h
    · rename_i hcancelled
      simp only [bind_ok, pure_ok, Prod.mk.injEq] at h
      obtain ⟨v, hv, _, -, -, rfl⟩ := h
      refine finish_writes (some
        ⟨s.nextValue, operationId, run.id, .completed, none,
          some ⟨assistant.providerResponseId, assistant.usage⟩, none, env.now⟩) hfound hrunning
        ?_ (Or.inr (Or.inl rfl)) (fun _ _ _ => rfl) (rule run hfound hrunning hcancelled)
        (appendRunTransition_ok hv rfl)
      rintro _ ⟨⟩
      exact hadmitted
    · simp only [bind_ok, require_ok, loadEntryHighWater, demand_ok, pure_ok, Prod.exists,
        nextSequence_ok, exists_const, Prod.mk.injEq] at h
      obtain ⟨expected, -, highWater, ⟨state, hstate, rfl⟩, -, hroom, k, s₃, ⟨-, rfl, rfl⟩, v, hv, _,
        -, -, rfl⟩ := h
      obtain ⟨-, u, kind, hkind, hpaused, rfl⟩ := (appendRunTransition_ok hv rfl).ends rfl
      cases hkind
      exact (Write.answer run state
        ⟨s.nextValue, operationId, run.id, .completed, none,
          some ⟨assistant.providerResponseId, assistant.usage⟩, none, env.now⟩ assistant env.now u
        { found := hfound
          active := hactive
          foundState := hstate
          room := hroom } hadmitted rfl hpaused).writes

/-! ## The end of a run -/

theorem finishOperation_ok {operationId : ProviderOperationId} {failure : Option RunFailureKind}
    {operationState : Option ProviderOperationFailureState} {kind : FinishKind}
    {factKind : ProviderFactKind} {operationFailure : Option RunFailureKind}
    (h : finishOperation s operationId failure operationState kind =
      .ok (factKind, operationFailure)) :
    factKind.isTerminal = true ∧ factKind ≠ .completed := by
  cases kind with
  | failed =>
    simp only [finishOperation, bind_ok, demand_ok] at h
    obtain ⟨state, -, h⟩ := h
    cases state <;> (simp only [pure_ok, Prod.mk.injEq] at h; obtain ⟨rfl, -⟩ := h; decide)
  | stopped =>
    simp only [finishOperation] at h
    split at h <;> (cases h; decide)

theorem finishState_ok {run : Run} {failure : Option RunFailureKind} {kind : FinishKind}
    {state : RunState} {stateFailure : Option RunFailureKind} {audit : RunAuditKind}
    (h : finishState run failure kind = .ok (state, stateFailure, audit)) :
    (state = .failed ∨ state = .cancelled ∨ state = .interrupted) ∧
      audit = auditKindForState state := by
  cases kind with
  | failed =>
    simp only [finishState, bind_ok, demand_ok, pure_ok, Prod.mk.injEq] at h
    obtain ⟨_, -, rfl, -, rfl⟩ := h
    exact ⟨Or.inl rfl, rfl⟩
  | stopped =>
    simp only [finishState] at h
    split at h <;> (cases h; simp [auditKindForState])

/-- Settling an operation is an admitted outcome. -/
theorem settleOperation_ok {run : Run} {failure : Option RunFailureKind}
    {operationState : Option ProviderOperationFailureState} {kind : FinishKind}
    {operationId : Option ProviderOperationId}
    (h : settleOperation env s run failure operationState kind operationId = .ok t) :
    ∃ outcome : Option ProviderOperationFact, t = settled s run outcome ∧
      outcome.map (·.operationId) = operationId ∧
      ∀ fact ∈ outcome, OutcomeAdmitted s run fact ∧ fact.factKind ≠ .completed ∧
        providerTerminal s fact.operationId = false := by
  cases operationId with
  | none =>
    cases h
    exact ⟨none, rfl, rfl, by simp⟩
  | some operationId =>
    simp only [settleOperation, bind_ok, requireProviderFact_ok, ensureProviderNotTerminal_ok,
      insertProviderSimpleFact_ok, pure_ok, Prod.exists, nextSequence_ok, exists_const] at h
    obtain ⟨⟨f, hf, hop, hrun, hkind⟩, hopen, factKind, operationFailure, hfinish, n, s₁,
      ⟨-, rfl, rfl⟩, m, s₂, ⟨-, rfl, rfl⟩, u, ⟨hfailure, hfresh, rfl⟩, rfl⟩ := h
    obtain ⟨hterminal, hkind'⟩ := finishOperation_ok hfinish
    refine ⟨some ⟨s.nextValue, operationId, run.id, factKind, none, none, operationFailure,
      env.now⟩, ?_, rfl, ?_⟩
    · have haudit : auditKindForFact factKind = .providerFailed := by
        revert hterminal hkind'
        cases factKind <;> decide
      simp only [settled, writeProviderOutcome, writeProviderFact, hkind', if_false, haudit]
      rfl
    · rintro _ ⟨⟩
      refine ⟨?_, hkind', hopen⟩
      exact
        { ofRun := rfl
          number := rfl
          terminal := hterminal
          preparation := rfl
          completion := by simp [hkind']
          failure := hfailure
          known := ⟨f, hf, hop, hrun, Or.inl hkind⟩
          fresh := hfresh
          completed := fun h => absurd h hkind' }

theorem finishRun_writes {runId : RunId} {operationId : Option ProviderOperationId}
    {failure : Option RunFailureKind} {operationState : Option ProviderOperationFailureState}
    {kind : FinishKind} {result : Run}
    (rule : ∀ run, loadRun s runId = some run → run.state.isTerminal = false →
      d.finishes s.providerOperationFacts runId operationId)
    (h : finishRun env s runId operationId failure operationState kind = .ok (result, t)) :
    Writes d s t := by
  simp only [finishRun, bind_ok, loadRequiredRun, demand_ok] at h
  obtain ⟨run, hfound, h⟩ := h
  have hid := loadRun_key hfound
  subst hid
  split at h
  · simp only [pure_ok, Prod.mk.injEq] at h
    exact h.2 ▸ Writes.none
  · rename_i hrunning
    have hrunning := Bool.eq_false_iff.mpr hrunning
    simp only [bind_ok, pure_ok, Prod.exists, Prod.mk.injEq] at h
    obtain ⟨u, hu, state, stateFailure, audit, hstate, v, hv, _, -, -, rfl⟩ := h
    obtain ⟨outcome, rfl, rfl, hadmitted⟩ := settleOperation_ok hu
    obtain ⟨hstopped, haudit⟩ := finishState_ok hstate
    exact finish_writes _ hfound hrunning (fun fact hfact => (hadmitted fact hfact).1) hstopped
      (fun fact hfact hkind => absurd hkind (hadmitted fact hfact).2.1) (rule run hfound hrunning)
      (appendRunTransition_ok hv haudit)

/-- Recovery ends every run with its pending operation. -/
theorem recoverNonterminalRuns_writes {during : RunId → Environment}
    (rule : ∀ u runId, d.finishes u.providerOperationFacts runId (pendingOperation u runId))
    (h : recoverNonterminalRuns env during s = .ok t) : Writes d s t := by
  simp only [recoverNonterminalRuns, bind_ok] at h
  obtain ⟨u, hu, h⟩ := h
  refine sweep_keeps _ (Writes d s) _ ?_ u t (Write.recovery u env.now hu).writes h
  intro v w runId _ hv hround
  simp only [recoverRun, finishRunStopped, bind_ok, pure_ok, Prod.exists] at hround
  obtain ⟨_, _, hround, rfl⟩ := hround
  exact hv.trans (finishRun_writes (fun _ _ _ => rule v runId) hround)

/-! ## Cancellation -/

theorem resolveExistingCancellation_none {requestId : MutationRequestId}
    {fingerprint : Fingerprint}
    (h : resolveExistingCancellation s requestId fingerprint = .ok none) :
    loadMutationOperation s requestId = none := by
  unfold resolveExistingCancellation at h
  split at h
  · simp only [bind_ok, pure_ok] at h
    obtain ⟨_, -, h⟩ := h
    cases h
  · cases h
  · cases h
  · assumption

theorem loadScopedRun_some {sessionId : SessionId} {runId : RunId} {run : Run} :
    loadScopedRun s sessionId runId = some run ↔
      loadRun s runId = some run ∧ run.sessionId = sessionId := by
  simp [loadScopedRun]

theorem insertCancellation_writes {requestId : MutationRequestId} {sessionId : SessionId}
    {runId : RunId} {result : RunCancellationResult}
    (hfresh : loadMutationOperation s requestId = none)
    (h : insertCancellation env s requestId (.cancelRun sessionId runId) sessionId runId =
      .ok (result, t)) : Writes d s t := by
  simp only [insertCancellation, bind_ok, require_ok, demand_ok, pure_ok, Prod.exists,
    nextSequence_ok, exists_const, loadScopedRun_some] at h
  obtain ⟨hsession, run, ⟨hfound, hscope⟩, hroom, n, s₁, ⟨-, rfl, rfl⟩, m, s₂, ⟨-, rfl, rfl⟩,
    ⟨-, hrecord⟩, -, u, hu, h⟩ := h
  rw [← (Prod.mk.inj h).2]
  have hid := loadRun_key hfound
  subst hid hscope
  have hpaused : cancelled s requestId (.cancelRun run.sessionId run.id) run env.now = .ok _ :=
    cancelled_ok rfl hu
  exact (Write.cancellation requestId (.cancelRun run.sessionId run.id) run env.now hfresh hsession
    hfound hroom hrecord rfl _ hpaused).writes

theorem cancelRun_writes {requestId : MutationRequestId} {sessionId : SessionId} {runId : RunId}
    {result : RunCancellationResult}
    (h : cancelRun env s requestId (.cancelRun sessionId runId) sessionId runId = .ok (result, t)) :
    Writes d s t := by
  simp only [cancelRun, bind_ok] at h
  obtain ⟨existing, hexisting, h⟩ := h
  cases existing with
  | some existing =>
    simp only [pure_ok, Prod.mk.injEq] at h
    exact h.2 ▸ Writes.none
  | none => exact insertCancellation_writes (resolveExistingCancellation_none hexisting) h

end Morons
