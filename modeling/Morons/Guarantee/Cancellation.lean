import Morons.Invariant.Sound
import Morons.Startup.Commands

/-!
# The protocol of cancellation requests

A recorded request answers its repetitions, at most one request of a run has
its intent applied, and the startup check accepts every row.  A fresh request
for an existing run is recorded unless the run is uncertain, a state that the
table of requests does not know, or a limit is reached.
-/

namespace Morons

open Attempt

variable {env : Environment} {s t : Store}

/-! ## Repetitions -/

/-- A recorded request answers what it answered, or conflicts. -/
theorem Sound.retry (h : Sound s) {c : RunCancellationRequest}
    (hc : c ∈ s.runCancellationRequests) (fingerprint : Fingerprint) (sessionId : SessionId)
    (runId : RunId) :
    cancelRun env s c.requestId fingerprint sessionId runId =
      if c.fingerprint = fingerprint then .ok (c.result, s) else .error .requestConflict := by
  have hfound : loadCancellationRequest s c.requestId = some c :=
    Table.find_of_mem h.registered.cancellations.keyed hc
  obtain ⟨m, hm, hkey, hop⟩ := h.registered.cancellations.registered c hc
  have hoperation : loadMutationOperation s c.requestId = some .runCancel := by
    have hregistry : Table.find MutationRequest.requestId c.requestId s.mutationRequests = some m :=
      (Table.find_iff h.registered.requests).mpr ⟨hm, hkey⟩
    simp [loadMutationOperation, hregistry, hop]
  simp only [cancelRun, resolveExistingCancellation, hfound, hoperation, require]
  split
  · rfl
  · rfl

/-- The identifier of another operation, or of a deleted request, conflicts. -/
theorem cancelRun_conflict {requestId : MutationRequestId} {operation : MutationOperation}
    (hnone : ∀ c ∈ s.runCancellationRequests, c.requestId ≠ requestId)
    (hoperation : loadMutationOperation s requestId = some operation) (fingerprint : Fingerprint)
    (sessionId : SessionId) (runId : RunId) :
    cancelRun env s requestId fingerprint sessionId runId = .error .requestConflict := by
  have habsent : loadCancellationRequest s requestId = none := Table.find_none.mpr hnone
  simp only [cancelRun, resolveExistingCancellation, habsent, hoperation]
  rfl

/-! ## Recorded rows -/

theorem Sound.validateRunCancellations_ok (h : Sound s) :
    validateRunCancellations s = .ok () := by
  have hvalid : ∀ c ∈ s.runCancellationRequests, invalidCancellation c = false := by
    intro c hc
    have hrecord := h.cancellations.recordable c hc
    have hpositive : 1 ≤ c.resultState.toRecord := by
      cases c.resultState <;> simp [RunState.toRecord]
    have hevent := h.cancellations.event c hc
    cases happlied : c.intentApplied with
    | false =>
      rw [happlied] at hevent
      simp [invalidCancellation, h.cancellations.canonical c hc, hpositive, hrecord, happlied,
        hevent]
    | true =>
      obtain ⟨hrunning, hrequested⟩ := h.cancellations.running c hc happlied
      rw [happlied] at hevent
      have hlow : ¬ 2 < c.resultState.toRecord := by
        intro hhigh
        have hterminal := (RunState.isTerminal_iff_record c.resultState).mpr (by omega)
        rw [hterminal] at hrunning
        cases hrunning
      have hsome : c.deliveryEventId.isNone = false := by simpa using hevent
      simp [invalidCancellation, h.cancellations.canonical c hc, hpositive, hrecord, happlied,
        hrequested, hsome, hlow]
  have hnone : s.runCancellationRequests.any invalidCancellation = false :=
    List.any_eq_false.mpr fun c hc => by simp [hvalid c hc]
  simp [validateRunCancellations, require, hnone]

/-- An operation, a deletion apart, leaves recorded requests alone. -/
theorem Write.recorded (w : Write .keeping s t) {c : RunCancellationRequest}
    (hc : c ∈ s.runCancellationRequests) : c ∈ t.runCancellationRequests := by
  cases w with
  | recovery u now paused =>
    rw [(pause_paused paused).frame]
    exact hc
  | steering mutation u item now fresh text admitted applied =>
    rw [(steering_frame applied).2]
    exact hc
  | archiveRequest requestId fingerprint sessionId archived now u fresh found paused =>
    rw [(requestArchive_paused paused).frame]
    exact hc
  | cleanup request session rule => exact False.elim rule
  | cancellation requestId fingerprint run now fresh foundSession found room recordable canonical u
      paused =>
    rw [(cancelled_paused paused).frame]
    exact List.mem_cons_of_mem _ hc
  | finish run outcome => cases outcome <;> exact hc
  | _ => exact hc

theorem recorded_kept (hrun : Relation.ReflTransGen (Step Undeleting) s t)
    {c : RunCancellationRequest} (hc : c ∈ s.runCancellationRequests) :
    c ∈ t.runCancellationRequests := by
  have hwrites := undeleting_writes hrun
  clear hrun
  induction hwrites with
  | refl => exact hc
  | tail _ w ih => exact w.recorded ih

/-! ## Fresh requests -/

/-- The request is answered and its row is there. -/
def Recorded (env : Environment) (s : Store) (requestId : MutationRequestId)
    (sessionId : SessionId) (runId : RunId) : Prop :=
  ∃ result t, cancelRun env s requestId (.cancelRun sessionId runId) sessionId runId =
      .ok (result, t) ∧
    ∃ c ∈ t.runCancellationRequests, c.requestId = requestId ∧ c.sessionId = sessionId ∧
      c.runId = runId ∧ c.fingerprint = .cancelRun sessionId runId ∧ c.result = result

/-- The intent of a request can still be applied. -/
def Run.stoppable (run : Run) : Bool := !run.state.isTerminal && !run.cancellationRequested

/-- What a fresh request for the run needs. -/
structure Cancellable (s : Store) (run : Run) : Prop where
  recordable : run.state ≠ .uncertain
  room : s.runCancellationRequests.length < maxRunCancellationRequests
  sequence : s.nextValue + 2 ≤ maxInteger
  pausable : run.stoppable = true →
    (∀ q ∈ runningQueues s (some run.sessionId) (some run.id), q.revision + 1 ≤ maxInteger) ∧
      s.nextValue + 2 + (runningQueues s (some run.sessionId) (some run.id)).length ≤ maxInteger

theorem recordable_iff {state : RunState} :
    (1 ≤ state.toRecord ∧ state.toRecord ≤ 6) ↔ state ≠ .uncertain := by
  cases state <;> simp [RunState.toRecord]

/-- Recording a request asks for no more. -/
theorem insertCancellation_succeeds (env : Environment) (requestId : MutationRequestId)
    (fingerprint : Fingerprint) {run : Run} (hrun : loadRun s run.id = some run)
    (hsession : (loadSession s run.sessionId).isSome)
    (hsingle : run.stoppable = true → ∀ c ∈ s.runCancellationRequests, c.runId = run.id →
      c.intentApplied = false) :
    (∃ r, insertCancellation env s requestId fingerprint run.sessionId run.id = .ok r) ↔
      Cancellable s run := by
  have hscoped : loadScopedRun s run.sessionId run.id = some run :=
    loadScopedRun_some.mpr ⟨hrun, rfl⟩
  by_cases happlied : run.stoppable = true
  · have happlied' : (!run.state.isTerminal && !run.cancellationRequested) = true := happlied
    simp only [insertCancellation, applyCancellation, happlied', if_true, bind_succeeds, require_ok,
      demand_ok, Prod.exists, nextSequence_ok, exists_const, hscoped, Option.some.injEq,
      exists_eq_left', pure_succeeds, and_true, pause_succeeds]
    constructor
    · rintro ⟨-, hroom, n, u, ⟨-, rfl, rfl⟩, m, v, ⟨hsequence, rfl, rfl⟩, hrecord, -, hrevisions,
        hnumbers⟩
      refine ⟨recordable_iff.mp hrecord, hroom, hsequence, fun _ => ⟨hrevisions, ?_⟩⟩
      by_cases hqueues : runningQueues s (some run.sessionId) (some run.id) = []
      · rw [hqueues]
        exact hsequence
      · exact hnumbers hqueues
    · intro h
      obtain ⟨hrevisions, hnumbers⟩ := h.pausable happlied
      exact ⟨hsession, h.room, _, _, ⟨Nat.lt_of_succ_lt h.sequence, rfl, rfl⟩, _, _,
        ⟨h.sequence, rfl, rfl⟩, recordable_iff.mpr h.recordable, fun _ => hsingle happlied,
        hrevisions, fun _ => hnumbers⟩
  · have hno : (!run.state.isTerminal && !run.cancellationRequested) = false :=
      Bool.eq_false_iff.mpr happlied
    simp only [insertCancellation, hno, Bool.false_eq_true, if_false, bind_succeeds, require_ok,
      demand_ok, Prod.exists, nextSequence_ok, exists_const, hscoped, Option.some.injEq,
      exists_eq_left', pure_succeeds, and_true, Except.ok.injEq, false_imp_iff, exists_eq']
    constructor
    · rintro ⟨-, hroom, n, u, ⟨-, rfl, rfl⟩, m, v, ⟨hsequence, rfl, rfl⟩, hrecord⟩
      exact ⟨recordable_iff.mp hrecord, hroom, hsequence, fun h => absurd h happlied⟩
    · intro h
      exact ⟨hsession, h.room, _, _, ⟨Nat.lt_of_succ_lt h.sequence, rfl, rfl⟩, _, _,
        ⟨h.sequence, rfl, rfl⟩, recordable_iff.mpr h.recordable⟩

theorem insertCancellation_records {requestId : MutationRequestId} {fingerprint : Fingerprint}
    {sessionId : SessionId} {runId : RunId} {result : RunCancellationResult}
    (h : insertCancellation env s requestId fingerprint sessionId runId = .ok (result, t)) :
    ∃ c ∈ t.runCancellationRequests, c.requestId = requestId ∧ c.sessionId = sessionId ∧
      c.runId = runId ∧ c.fingerprint = fingerprint ∧ c.result = result := by
  simp only [insertCancellation, bind_ok, require_ok, demand_ok, pure_ok, Prod.exists,
    nextSequence_ok, exists_const] at h
  obtain ⟨-, run, -, -, n, s₁, ⟨-, rfl, rfl⟩, m, s₂, ⟨-, rfl, rfl⟩, -, -, u, hu, h⟩ := h
  obtain ⟨rfl, rfl⟩ := Prod.mk.inj h
  split at hu
  · simp only [applyCancellation, bind_ok, pure_ok] at hu
    obtain ⟨v, hv, rfl⟩ := hu
    rw [(pause_paused hv).frame]
    exact ⟨_, List.mem_cons_self .., rfl, rfl, rfl, rfl, rfl⟩
  · cases hu
    exact ⟨_, List.mem_cons_self .., rfl, rfl, rfl, rfl, rfl⟩

/-- **A fresh request is recorded exactly when it can be.** -/
theorem Sound.recorded_iff (h : Sound s) {requestId : MutationRequestId} {sessionId : SessionId}
    {runId : RunId} {run : Run} (hfound : loadScopedRun s sessionId runId = some run)
    (hfresh : loadMutationOperation s requestId = none) :
    Recorded env s requestId sessionId runId ↔ Cancellable s run := by
  obtain ⟨hrun, rfl⟩ := loadScopedRun_some.mp hfound
  obtain rfl := loadRun_key hrun
  have habsent : loadCancellationRequest s requestId = none := by
    refine Table.find_none.mpr fun c hc e => ?_
    obtain ⟨m, hm, hkey, -⟩ := h.registered.cancellations.registered c hc
    exact (loadMutationOperation_none.mp hfresh).1 m hm (hkey.trans e)
  have hnew : ∀ fingerprint, cancelRun env s requestId fingerprint run.sessionId run.id =
      insertCancellation env s requestId fingerprint run.sessionId run.id := by
    intro fingerprint
    simp only [cancelRun, resolveExistingCancellation, habsent, hfresh]
    rfl
  have hsingle : run.stoppable = true → ∀ c ∈ s.runCancellationRequests, c.runId = run.id →
      c.intentApplied = false := by
    intro hstoppable c hc e
    have hflag := (h.projected run (Table.find_mem hrun)).cancelled
    simp only [Run.stoppable, Bool.and_eq_true, Bool.not_eq_true'] at hstoppable
    rw [hstoppable.2] at hflag
    have hno := List.any_eq_false.mp hflag.symm c hc
    simpa [e] using hno
  rw [← insertCancellation_succeeds env requestId (.cancelRun run.sessionId run.id) hrun
    (h.bound.session (Table.find_mem hrun)) hsingle]
  constructor
  · rintro ⟨result, t, hcancel, -⟩
    rw [hnew] at hcancel
    exact ⟨_, hcancel⟩
  · rintro ⟨⟨result, t⟩, hcancel⟩
    exact ⟨result, t, (hnew _).trans hcancel, insertCancellation_records hcancel⟩

/-! ## The protocol -/

structure CancellationProtocol (s : Store) : Prop where
  once : ∀ runId,
    (s.runCancellationRequests.countP fun c => c.runId = runId && c.intentApplied) ≤ 1
  running : ∀ c ∈ s.runCancellationRequests, c.intentApplied = true →
    c.resultState.isTerminal = false ∧ ∀ f ∈ s.runStateFacts, f.runId = c.runId →
      f.factSequence < c.factSequence → f.state.isTerminal = false
  retry : ∀ c ∈ s.runCancellationRequests, ∀ env fingerprint sessionId runId,
    cancelRun env s c.requestId fingerprint sessionId runId =
      if c.fingerprint = fingerprint then .ok (c.result, s) else .error .requestConflict
  conflict : ∀ requestId operation, (∀ c ∈ s.runCancellationRequests, c.requestId ≠ requestId) →
    loadMutationOperation s requestId = some operation → ∀ env fingerprint sessionId runId,
      cancelRun env s requestId fingerprint sessionId runId = .error .requestConflict
  stable : ∀ t, Relation.ReflTransGen (Step Undeleting) s t →
    ∀ c ∈ s.runCancellationRequests, c ∈ t.runCancellationRequests
  rows : validateRunCancellations s = .ok ()

theorem Sound.cancellationProtocol (h : Sound s) : CancellationProtocol s where
  once := h.cancellations.once
  running c hc happlied := by
    refine ⟨(h.cancellations.running c hc happlied).1, fun f hf hrun hlt => ?_⟩
    by_contra hterminal
    have hafter := h.closed.cancellations f hf (by simpa using hterminal) c hc
      (by simp [happlied, hrun])
    omega
  retry _ hc _ fingerprint sessionId runId := h.retry hc fingerprint sessionId runId
  conflict _ _ hnone hoperation _ fingerprint sessionId runId :=
    cancelRun_conflict hnone hoperation fingerprint sessionId runId
  stable _ hrun _ hc := recorded_kept hrun hc
  rows := h.validateRunCancellations_ok

/-- **Cancellations are recorded once and answered alike**, and a fresh one is
recorded exactly when the run's state and the limits allow it. -/
theorem run_cancellation_protocol (h : Reachable Any s) :
    CancellationProtocol s ∧ ∀ env requestId sessionId runId run,
      loadScopedRun s sessionId runId = some run → loadMutationOperation s requestId = none →
        (Recorded env s requestId sessionId runId ↔ Cancellable s run) :=
  ⟨h.sound.cancellationProtocol, fun _ _ _ _ _ hfound hfresh => h.sound.recorded_iff hfound hfresh⟩

/-- A run is accepted and started, and its one call ends uncertain. -/
def uncertainRunSteps : List (Environment × Operation) :=
  createSession (.open 10) 1 "/work" ++
    [submitInput (.open 10) 2 1 "go", (.open 10, .activateRun 4)] ++
    toolTurn (.open 10) 4 9 1 [bashCall "a" "ls"] ++
    executeTool (.open 10) 4 10 11 (.error .uncertain none)

def uncertainRun : Store := executed uncertainRunSteps

/-- The run before its call is prepared. -/
def callingRun : Store := executed (uncertainRunSteps.take 8)

theorem uncertainRun_reachable : Reachable Any uncertainRun :=
  reachable_executed_any (by decide +kernel)

theorem callingRun_reachable : Reachable Any callingRun :=
  reachable_executed_any (by decide +kernel)

theorem uncertainRun_run :
    (loadScopedRun uncertainRun 1 4).map (·.state) = some .uncertain := by
  decide +kernel

theorem callingRun_run : (loadScopedRun callingRun 1 4).map (·.state) = some .active := by
  decide +kernel

theorem callingRun_fresh : loadMutationOperation callingRun 3 = none ∧
    callingRun.runCancellationRequests.length = 0 ∧ callingRun.nextValue < 100 ∧
      callingRun.steeringQueues.length = 0 := by
  decide +kernel

theorem uncertainRun_fresh : loadMutationOperation uncertainRun 3 = none := by
  decide +kernel

/-- The active run can be cancelled. -/
theorem calling_run_cancelled : Recorded (.open 12) callingRun 3 1 4 := by
  obtain ⟨run, hfound, hactive⟩ := Option.map_eq_some_iff.mp callingRun_run
  obtain ⟨hfresh, hcount, hnumber, hqueues⟩ := callingRun_fresh
  refine ((run_cancellation_protocol callingRun_reachable).2 (.open 12) 3 1 4 run hfound
    hfresh).mpr ⟨?_, ?_, ?_, fun _ => ?_⟩
  · rw [hactive]
    decide
  · rw [hcount]
    decide
  · simp only [maxInteger]
    omega
  · have hnone : ∀ sessionId runId, runningQueues callingRun sessionId runId = [] := by
      intro sessionId runId
      simp [runningQueues, List.length_eq_zero_iff.mp hqueues]
    rw [hnone]
    simp only [List.length_nil, maxInteger]
    exact ⟨by simp, by omega⟩

/-- The uncertain run cannot: its state has no place in the table of requests. -/
theorem uncertain_run_refuses_cancellation :
    Reachable Any uncertainRun ∧ (loadScopedRun uncertainRun 1 4).isSome ∧
      loadMutationOperation uncertainRun 3 = none ∧
        ¬ Recorded (.open 12) uncertainRun 3 1 4 := by
  obtain ⟨run, hfound, huncertain⟩ := Option.map_eq_some_iff.mp uncertainRun_run
  refine ⟨uncertainRun_reachable, by rw [hfound]; rfl, uncertainRun_fresh, fun hrecorded => ?_⟩
  have hcancellable :=
    (uncertainRun_reachable.sound.recorded_iff hfound uncertainRun_fresh).mp hrecorded
  exact hcancellable.recordable huncertain

end Morons
