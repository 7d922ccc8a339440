import Morons.Invariant.Steering
import Morons.Invariant.Sound

/-!
# What stops a steering queue

An applied cancellation, the end of a run and an archive request stop the
running queue they concern, and every stop in the history has its source.  A
receipt was given while its session was not archived and the run it names was
running.
-/

namespace Morons

open Attempt Ledger

variable {d : Discipline} {s t : Store} {log newer : List SteeringRecord}

/-! ## Sources -/

/-- A row that stops queues, as the queries union it from its tables. -/
structure SteeringSource where
  sessionId : SessionId
  runId : Option RunId
  sequence : Nat
  reason : PauseReason
  milliseconds : Nat

def RunCancellationRequest.source (c : RunCancellationRequest) : SteeringSource :=
  ⟨c.sessionId, some c.runId, c.factSequence, .cancellation, c.acceptedAtMilliseconds⟩

def RunStateFact.source (f : RunStateFact) : SteeringSource :=
  ⟨f.sessionId, some f.runId, f.factSequence, .terminal, f.createdAtMilliseconds⟩

def SessionArchiveRequest.source (r : SessionArchiveRequest) : SteeringSource :=
  ⟨r.sessionId, none, r.acceptedSequence, .archive, r.acceptedAtMilliseconds⟩

def steeringSources (s : Store) : List SteeringSource :=
  (s.runCancellationRequests.filter fun c => c.intentApplied).map RunCancellationRequest.source ++
    (s.runStateFacts.filter fun f => f.state.isTerminal).map RunStateFact.source ++
    (s.sessionArchiveRequests.filter fun r => r.archived).map SessionArchiveRequest.source

theorem mem_steeringSources {x : SteeringSource} : x ∈ steeringSources s ↔
    (∃ c ∈ s.runCancellationRequests, c.intentApplied = true ∧ c.source = x) ∨
    (∃ f ∈ s.runStateFacts, f.state.isTerminal = true ∧ f.source = x) ∨
    ∃ r ∈ s.sessionArchiveRequests, r.archived = true ∧ r.source = x := by
  simp only [steeringSources, List.mem_append, List.mem_map, List.mem_filter, or_assoc, and_assoc]

/-- The sources have numbers that were drawn. -/
theorem source_lt (h : Numbered s) {x : SteeringSource} (hx : x ∈ steeringSources s) :
    x.sequence < s.nextValue := by
  rcases mem_steeringSources.mp hx with ⟨c, hc, -, rfl⟩ | ⟨f, hf, -, rfl⟩ | ⟨r, hr, -, rfl⟩
  · exact h.cancellations.bounded c hc
  · exact h.stateFacts.bounded f hf
  · exact h.archives.bounded r hr

/-- The newest archive request of a session before a number archives it. -/
def archivedBefore (s : Store) (sessionId : SessionId) (n : Nat) : Bool :=
  (latest SessionArchiveRequest.acceptedSequence (s.sessionArchiveRequests.filter fun r =>
    r.sessionId = sessionId && decide (r.acceptedSequence < n))).any (·.archived)

/-- The records of a session before a number. -/
def recordsBefore (log : List SteeringRecord) (sessionId : SessionId) (n : Nat) :
    List SteeringRecord :=
  (ofSession sessionId log).filter fun r => decide (r.sequence < n)

/-! ## Records and their sources -/

/-- What a receipt owes to the tables of its time. -/
structure Admissible (s : Store) (r : SteeringMutationRequest) : Prop where
  accepted : ∀ runId, r.targetRunId = some runId → ∃ f ∈ s.runAcceptedFacts,
    f.sessionId = r.sessionId ∧ f.runId = runId ∧ f.factSequence < r.acceptedSequence
  running : ∀ x ∈ steeringSources s, x.sessionId = r.sessionId → x.runId.isSome →
    x.runId = r.targetRunId → r.acceptedSequence ≤ x.sequence
  unarchived : archivedBefore s r.sessionId r.acceptedSequence = false

/-- The item of a change in the columns of its receipt. -/
def Itemized (r : SteeringMutationRequest) : SteeringChange → Prop
  | .enqueue .. => True
  | .edit itemId revision _ => r.itemId = some itemId ∧ r.itemRevision = some (revision + 1)
  | .remove itemId revision => r.itemId = some itemId ∧ r.itemRevision = some revision
  | .pause | .resume _ => r.itemId = none

/-- A receipt repeats the change that its fingerprint stands for. -/
structure Canonical (r : SteeringMutationRequest) (change : SteeringChange)
    (expectedRevision : Nat) : Prop where
  revision : r.queueRevision = expectedRevision + 1
  fingerprint : r.fingerprint = .steering r.sessionId expectedRevision change
  kind : r.changeKind = change.kind
  target : r.targetRunId = change.target
  written : r.text = change.text
  valid : ∀ text, change.text = some text → validateSteeringText text = .ok ()
  item : Itemized r change

/-- A stop has its source, or comes from a restart. -/
def Founded (s : Store) (f : SteeringLifecycleFact) : Prop :=
  match f.sourceSequence with
  | none => f.reason = .recovery
  | some n => n < f.factSequence ∧ ∃ x ∈ steeringSources s, x.reason = f.reason ∧ x.sequence = n ∧
      x.sessionId = f.sessionId ∧ x.milliseconds = f.createdAtMilliseconds ∧
      ∀ runId, x.runId = some runId → runId = f.targetRunId

/-- A source stops the running queue it concerns. -/
def Covered (log : List SteeringRecord) (x : SteeringSource) : Prop :=
  (recordsBefore log x.sessionId x.sequence).findSome? (·.row.paused) = some false →
  (x.runId = none ∨
    x.runId = (recordsBefore log x.sessionId x.sequence).findSome? (·.row.targetRunId)) →
  ∃ f, .lifecycle f ∈ log ∧ f.sessionId = x.sessionId ∧ f.reason = x.reason ∧
    f.sourceSequence = some x.sequence

def SteeringMutationRequest.stamp (r : SteeringMutationRequest) : MutationRequestId × Nat × Nat :=
  (r.requestId, r.acceptedSequence, r.acceptedAtMilliseconds)

structure Sourced (s : Store) (log : List SteeringRecord) : Prop where
  receipts : ∀ r, .receipt r ∈ log → Admissible s r
  canonical : ∀ r, .receipt r ∈ log → ∃ change n, Canonical r change n
  facts : ∀ f, .lifecycle f ∈ log → Founded s f
  covered : ∀ x ∈ steeringSources s, Covered log x
  backed : Backed SteeringMutationRequest.stamp .steering s.mutationRequests
    s.steeringMutationRequests

theorem sourced_empty : Sourced Store.empty [] where
  receipts _ hr := by cases hr
  canonical _ hr := by cases hr
  facts _ hf := by cases hf
  covered _ hx := by cases hx
  backed := by simp [Backed, Store.empty]

/-- Newer records are not among those before an old number. -/
theorem recordsBefore_append {sessionId : SessionId} {n : Nat}
    (hnewer : ∀ r ∈ newer, n ≤ r.sequence) :
    recordsBefore (newer ++ log) sessionId n = recordsBefore log sessionId n := by
  have hnone : (ofSession sessionId newer).filter (fun r => decide (r.sequence < n)) = [] := by
    refine List.filter_eq_nil_iff.mpr fun r hr => ?_
    have hle := hnewer r (List.mem_of_mem_filter hr)
    simpa using hle
  rw [recordsBefore, ofSession, List.filter_append, List.filter_append]
  exact (congrArg (· ++ _) hnone).trans (List.nil_append _)

/-- All records are before a number that is still to be drawn. -/
theorem recordsBefore_eq (h : Steered s log) {sessionId : SessionId} {n : Nat}
    (hn : s.nextValue ≤ n) : recordsBefore log sessionId n = ofSession sessionId log := by
  refine List.filter_eq_self.mpr fun r hr => ?_
  have hlt := h.numbered.bounded r (List.mem_of_mem_filter hr)
  simpa using lt_of_lt_of_le hlt hn

theorem Covered.append {x : SteeringSource} (h : Covered log x)
    (hnewer : ∀ r ∈ newer, x.sequence ≤ r.sequence) : Covered (newer ++ log) x := by
  unfold Covered
  rw [recordsBefore_append hnewer]
  intro hpaused htarget
  obtain ⟨f, hf, hsession, hreason, hsource⟩ := h hpaused htarget
  exact ⟨f, List.mem_append_right _ hf, hsession, hreason, hsource⟩

/-- A source that has just stopped its queue. -/
theorem covered_of_stopped (h : Steered s log) {x : SteeringSource} {n : Nat}
    (hn : s.nextValue ≤ x.sequence) (hlt : x.sequence < n)
    (hstopped : StoppedAll x.reason (some x.sequence) x.milliseconds n
      (runningQueues s (some x.sessionId) x.runId) newer) : Covered (newer ++ log) x := by
  have hnewer : ∀ r ∈ newer, x.sequence ≤ r.sequence := by
    intro r hr
    obtain ⟨f, rfl, hf, -⟩ := hstopped.only r hr
    exact hlt.le.trans hf
  have hreplay := h.replay x.sessionId
  intro hpaused htarget
  rw [recordsBefore_append hnewer, recordsBefore_eq h hn] at hpaused htarget
  rw [hreplay.paused] at hpaused
  rw [hreplay.target] at htarget
  obtain ⟨q, hq, hrunning⟩ : ∃ q, loadSteeringQueue s x.sessionId = some q ∧ q.paused = false := by
    rw [steeringState] at hpaused
    cases hq : loadSteeringQueue s x.sessionId with
    | none => simp [hq] at hpaused
    | some q => exact ⟨q, rfl, by simpa [hq] using hpaused⟩
  have hin : q ∈ runningQueues s (some x.sessionId) x.runId := by
    refine mem_runningQueues.mpr ⟨Table.find_mem hq, hrunning, ?_, ?_⟩
    · intro id hid
      rw [← Option.some.inj hid]
      exact Table.find_key hq
    · intro id hid
      rcases htarget with htarget | htarget
      · rw [htarget] at hid
        cases hid
      · rw [steeringState, hq, hid] at htarget
        exact (Option.some.inj htarget).symm
  obtain ⟨f, hf, hstop⟩ := hstopped.every q hin
  have hsession : q.sessionId = x.sessionId := Table.find_key hq
  exact ⟨f, List.mem_append_left _ hf, hstop.session.trans hsession, hstop.reason_eq,
    hstop.source_eq⟩

/-- The stops that a source brings are founded on it. -/
theorem founded_of_stopped {x : SteeringSource} {n : Nat} (hx : x ∈ steeringSources t)
    (hlt : x.sequence < n)
    (hstopped : StoppedAll x.reason (some x.sequence) x.milliseconds n
      (runningQueues s (some x.sessionId) x.runId) newer) :
    ∀ f, .lifecycle f ∈ newer → Founded t f := by
  intro f hf
  obtain ⟨f', heq, hn, q, hq, hstop⟩ := hstopped.only _ hf
  obtain rfl : f = f' := by simpa using heq
  obtain ⟨-, -, hsession, hrun⟩ := mem_runningQueues.mp hq
  rw [Founded, hstop.source_eq]
  refine ⟨lt_of_lt_of_le hlt hn, x, hx, hstop.reason_eq.symm, rfl, ?_, hstop.clock.symm, ?_⟩
  · rw [hstop.session]
    exact (hsession _ rfl).symm
  · intro runId hid
    rw [hstop.target]
    exact (hrun runId hid).symm

namespace Sourced

/-- Newer records and sources have no bearing on older ones. -/
theorem grow (h : Sourced s log) (hsteered : Steered s log) (hn : Numbered s)
    (hnewer : ∀ r ∈ newer, s.nextValue ≤ r.sequence)
    (haccepted : ∀ f ∈ s.runAcceptedFacts, f ∈ t.runAcceptedFacts)
    (hadded : ∀ x ∈ steeringSources t, x ∈ steeringSources s ∨
      s.nextValue ≤ x.sequence ∧ Covered (newer ++ log) x)
    (hsources : ∀ x ∈ steeringSources s, x ∈ steeringSources t)
    (harchived : ∀ sessionId n, n ≤ s.nextValue →
      archivedBefore t sessionId n = archivedBefore s sessionId n)
    (hreceipts : ∀ r, .receipt r ∈ newer → Admissible t r ∧ ∃ change n, Canonical r change n)
    (hfacts : ∀ f, .lifecycle f ∈ newer → Founded t f)
    (hbacked : Backed SteeringMutationRequest.stamp .steering t.mutationRequests
      t.steeringMutationRequests) : Sourced t (newer ++ log) where
  receipts r hr := by
    rcases List.mem_append.mp hr with hr | hr
    · exact (hreceipts r hr).1
    · have hold := h.receipts r hr
      have hbound : r.acceptedSequence < s.nextValue := hsteered.numbered.bounded _ hr
      refine ⟨fun runId hrun => ?_, fun x hx hsession hsome hrun => ?_, ?_⟩
      · obtain ⟨f, hf, hrest⟩ := hold.accepted runId hrun
        exact ⟨f, haccepted f hf, hrest⟩
      · rcases hadded x hx with hx | ⟨hlow, -⟩
        · exact hold.running x hx hsession hsome hrun
        · exact hbound.le.trans hlow
      · rw [harchived r.sessionId r.acceptedSequence hbound.le]
        exact hold.unarchived
  canonical r hr := by
    rcases List.mem_append.mp hr with hr | hr
    · exact (hreceipts r hr).2
    · exact h.canonical r hr
  facts f hf := by
    rcases List.mem_append.mp hf with hf | hf
    · exact hfacts f hf
    · have hold := h.facts f hf
      unfold Founded at hold ⊢
      split
      · rename_i hnone
        rw [hnone] at hold
        exact hold
      · rename_i n hsome
        rw [hsome] at hold
        obtain ⟨hlt, x, hx, hrest⟩ := hold
        exact ⟨hlt, x, hsources x hx, hrest⟩
  covered x hx := by
    rcases hadded x hx with hx | ⟨-, hcovered⟩
    · refine (h.covered x hx).append fun r hr => ?_
      exact (source_lt hn hx).le.trans (hnewer r hr)
    · exact hcovered
  backed := hbacked

/-- A write that neither records a change nor stops a queue. -/
theorem kept (h : Sourced s log) (hsteered : Steered s log) (hn : Numbered s)
    (haccepted : ∀ f ∈ s.runAcceptedFacts, f ∈ t.runAcceptedFacts)
    (hsources : ∀ x, x ∈ steeringSources t ↔ x ∈ steeringSources s)
    (harchived : ∀ sessionId n, n ≤ s.nextValue →
      archivedBefore t sessionId n = archivedBefore s sessionId n)
    (hbacked : Backed SteeringMutationRequest.stamp .steering t.mutationRequests
      t.steeringMutationRequests) : Sourced t log :=
  have hnone : ∀ r ∈ ([] : List SteeringRecord), s.nextValue ≤ r.sequence := by simp
  h.grow hsteered hn hnone haccepted (fun x hx => Or.inl ((hsources x).mp hx))
    (fun x hx => (hsources x).mpr hx) harchived (by simp) (by simp) hbacked

/-- A write that stops the queue it concerns. -/
theorem stop (h : Sourced s log) (hsteered : Steered s log) (hn : Numbered s) {x : SteeringSource}
    {n : Nat} (haccepted : ∀ f ∈ s.runAcceptedFacts, f ∈ t.runAcceptedFacts)
    (hsources : ∀ y, y ∈ steeringSources t ↔ y = x ∨ y ∈ steeringSources s)
    (hx : s.nextValue ≤ x.sequence) (hlt : x.sequence < n)
    (hstopped : StoppedAll x.reason (some x.sequence) x.milliseconds n
      (runningQueues s (some x.sessionId) x.runId) newer)
    (harchived : ∀ sessionId n, n ≤ s.nextValue →
      archivedBefore t sessionId n = archivedBefore s sessionId n)
    (hbacked : Backed SteeringMutationRequest.stamp .steering t.mutationRequests
      t.steeringMutationRequests) : Sourced t (newer ++ log) := by
  refine h.grow hsteered hn ?_ haccepted ?_ (fun y hy => (hsources y).mpr (Or.inr hy)) harchived ?_
    (founded_of_stopped ((hsources x).mpr (Or.inl rfl)) hlt hstopped) hbacked
  · intro r hr
    obtain ⟨f, rfl, hf, -⟩ := hstopped.only r hr
    exact (hx.trans hlt.le).trans hf
  · intro y hy
    rcases (hsources y).mp hy with rfl | hy
    · exact Or.inr ⟨hx, covered_of_stopped hsteered hx hlt hstopped⟩
    · exact Or.inl hy
  · intro r hr
    obtain ⟨f, hf, -⟩ := hstopped.only _ hr
    cases hf

/-! ## Ends, cancellations and archive requests -/

/-- A run that ends stops the queue that waits for it. -/
theorem ended (h : Sourced s log) (hsteered : Steered s log) (hn : Numbered s) {run : Run}
    {state : RunState} {failure : Option RunFailureKind} {kind : EventKind} {now : Nat} {u : Store}
    (hterminal : state.isTerminal = true) (paused : pauseEnded s run now = .ok u) :
    ∃ log', Steered (endRun s u run state failure kind now) log' ∧
      Sourced (endRun s u run state failure kind now) log' := by
  obtain ⟨newer, hafter, hstopped⟩ := hsteered.ended state failure kind paused
  refine ⟨_, hafter, h.stop hsteered hn
    (x := ⟨run.sessionId, some run.id, s.nextValue, .terminal, now⟩) (fun _ hf => hf) ?_ le_rfl
    (Nat.lt_succ_self _) hstopped (fun _ _ _ => rfl) h.backed⟩
  intro y
  rw [mem_steeringSources, mem_steeringSources]
  constructor
  · rintro (hc | ⟨f, hf, hstate, rfl⟩ | hr)
    · exact Or.inr (Or.inl hc)
    · rcases List.mem_cons.mp hf with rfl | hf
      · exact Or.inl rfl
      · exact Or.inr (Or.inr (Or.inl ⟨f, hf, hstate, rfl⟩))
    · exact Or.inr (Or.inr (Or.inr hr))
  · rintro (rfl | hc | ⟨f, hf, hstate, rfl⟩ | hr)
    · exact Or.inr (Or.inl ⟨_, List.mem_cons_self .., hterminal, rfl⟩)
    · exact Or.inl hc
    · exact Or.inr (Or.inl ⟨f, List.mem_cons_of_mem _ hf, hstate, rfl⟩)
    · exact Or.inr (Or.inr hr)

/-- A cancellation with an effect stops the queue that waits for the run. -/
theorem cancellation (h : Sourced s log) (hsteered : Steered s log) (hn : Numbered s)
    {requestId : MutationRequestId} {fingerprint : Fingerprint} {run : Run} {now : Nat} {u : Store}
    (paused : cancelled s requestId fingerprint run now = .ok u) :
    ∃ log', Steered u log' ∧ Sourced u log' := by
  have hwritten : Steered (writeCancellation s requestId fingerprint run now) log :=
    hsteered.kept rfl (Nat.le_add_right _ 2) (Nat.le_succ _)
  have hbacked : Backed SteeringMutationRequest.stamp .steering
      (writeCancellation s requestId fingerprint run now).mutationRequests
      (writeCancellation s requestId fingerprint run now).steeringMutationRequests :=
    Backed.other h.backed (by simp)
  unfold cancelled at paused
  split at paused
  · rename_i happlied
    obtain ⟨newer, hafter, hstopped⟩ := hwritten.pause paused
    have hframe := (pause_paused paused).frame
    refine ⟨_, hafter, h.stop hsteered hn
      (x := ⟨run.sessionId, some run.id, s.nextValue, .cancellation, now⟩) ?_ ?_ le_rfl
      (Nat.lt_add_of_pos_right (by decide)) hstopped ?_ ?_⟩
    · rw [hframe]
      exact fun _ hf => hf
    · intro y
      rw [hframe, mem_steeringSources, mem_steeringSources]
      constructor
      · rintro (⟨c, hc, hintent, rfl⟩ | hrest)
        · rcases List.mem_cons.mp hc with rfl | hc
          · exact Or.inl rfl
          · exact Or.inr (Or.inl ⟨c, hc, hintent, rfl⟩)
        · exact Or.inr (Or.inr hrest)
      · rintro (rfl | ⟨c, hc, hintent, rfl⟩ | hrest)
        · exact Or.inl ⟨_, List.mem_cons_self .., happlied, rfl⟩
        · exact Or.inl ⟨c, List.mem_cons_of_mem _ hc, hintent, rfl⟩
        · exact Or.inr hrest
    · rw [hframe]
      exact fun _ _ _ => rfl
    · rw [hframe]
      exact hbacked
  · rename_i hidle
    cases paused
    refine ⟨log, hwritten, h.kept hsteered hn (fun _ hf => hf) (fun y => ?_) (fun _ _ _ => rfl)
      hbacked⟩
    rw [mem_steeringSources, mem_steeringSources]
    refine or_congr_left ⟨?_, ?_⟩
    · rintro ⟨c, hc, hintent, rfl⟩
      rcases List.mem_cons.mp hc with rfl | hc
      · exact absurd hintent hidle
      · exact ⟨c, hc, hintent, rfl⟩
    · rintro ⟨c, hc, hintent, rfl⟩
      exact ⟨c, List.mem_cons_of_mem _ hc, hintent, rfl⟩

/-- A new archive request is not before the numbers that were drawn. -/
theorem archivedBefore_cons {r : SessionArchiveRequest}
    (harchives : t.sessionArchiveRequests = r :: s.sessionArchiveRequests)
    (hr : s.nextValue ≤ r.acceptedSequence) : ∀ sessionId n, n ≤ s.nextValue →
      archivedBefore t sessionId n = archivedBefore s sessionId n := by
  intro sessionId n hn
  rw [archivedBefore, archivedBefore, harchives, List.filter_cons_of_neg]
  have hle : ¬ r.acceptedSequence < n := Nat.not_lt.mpr (hn.trans hr)
  simp [hle]

/-- A request that archives stops the queue of its session. -/
theorem archiveRequest (h : Sourced s log) (hsteered : Steered s log) (hn : Numbered s)
    {requestId : MutationRequestId} {fingerprint : Fingerprint} {sessionId : SessionId}
    {archived : Bool} {now : Nat} {u : Store}
    (paused : requestArchive s requestId fingerprint sessionId archived now = .ok u) :
    ∃ log', Steered u log' ∧ Sourced u log' := by
  have hwritten : Steered (writeArchiveRequest (s.drawn (s.nextValue + 1) (s.nextIdentifier + 1))
      requestId fingerprint sessionId archived s.nextIdentifier s.nextValue now) log :=
    hsteered.kept rfl (Nat.le_succ _) (Nat.le_succ _)
  have hbacked : Backed SteeringMutationRequest.stamp .steering
      (writeArchiveRequest (s.drawn (s.nextValue + 1) (s.nextIdentifier + 1)) requestId fingerprint
        sessionId archived s.nextIdentifier s.nextValue now).mutationRequests
      s.steeringMutationRequests :=
    Backed.other h.backed (by simp)
  unfold requestArchive at paused
  split at paused
  · rename_i harchived
    obtain ⟨newer, hafter, hstopped⟩ := hwritten.pause paused
    have hframe := (pause_paused paused).frame
    refine ⟨_, hafter, h.stop hsteered hn
      (x := ⟨sessionId, none, s.nextValue, .archive, now⟩) ?_ ?_ le_rfl
      (Nat.lt_succ_self _) hstopped ?_ ?_⟩
    · rw [hframe]
      exact fun _ hf => hf
    · intro y
      rw [hframe, mem_steeringSources, mem_steeringSources]
      constructor
      · rintro (hc | hf | ⟨r, hr, hset, rfl⟩)
        · exact Or.inr (Or.inl hc)
        · exact Or.inr (Or.inr (Or.inl hf))
        · rcases List.mem_cons.mp hr with rfl | hr
          · exact Or.inl rfl
          · exact Or.inr (Or.inr (Or.inr ⟨r, hr, hset, rfl⟩))
      · rintro (rfl | hc | hf | ⟨r, hr, hset, rfl⟩)
        · exact Or.inr (Or.inr ⟨_, List.mem_cons_self .., harchived, rfl⟩)
        · exact Or.inl hc
        · exact Or.inr (Or.inl hf)
        · exact Or.inr (Or.inr ⟨r, List.mem_cons_of_mem _ hr, hset, rfl⟩)
    · rw [hframe]
      exact archivedBefore_cons rfl le_rfl
    · rw [hframe]
      exact hbacked
  · rename_i hkept
    cases paused
    refine ⟨log, hwritten, h.kept hsteered hn (fun _ hf => hf) (fun y => ?_)
      (archivedBefore_cons rfl le_rfl) hbacked⟩
    rw [mem_steeringSources, mem_steeringSources]
    refine or_congr_right (or_congr_right ⟨?_, ?_⟩)
    · rintro ⟨r, hr, hset, rfl⟩
      rcases List.mem_cons.mp hr with rfl | hr
      · exact absurd hset hkept
      · exact ⟨r, hr, hset, rfl⟩
    · rintro ⟨r, hr, hset, rfl⟩
      exact ⟨r, List.mem_cons_of_mem _ hr, hset, rfl⟩

/-- A restart stops every running queue. -/
theorem recovery (h : Sourced s log) (hsteered : Steered s log) (hn : Numbered s) {now : Nat}
    {u : Store} (paused : pause s none none .recovery none now = .ok u) :
    ∃ log', Steered u log' ∧ Sourced u log' := by
  obtain ⟨newer, hafter, hstopped⟩ := hsteered.pause paused
  have hframe := (pause_paused paused).frame
  refine ⟨_, hafter, h.grow hsteered hn ?_ ?_ ?_ ?_ ?_ ?_ ?_ ?_⟩
  · intro r hr
    obtain ⟨f, rfl, hf, -⟩ := hstopped.only r hr
    exact hf
  · rw [hframe]
    exact fun _ hf => hf
  · rw [hframe]
    exact fun _ hx => Or.inl hx
  · rw [hframe]
    exact fun _ hx => hx
  · rw [hframe]
    exact fun _ _ _ => rfl
  · intro r hr
    obtain ⟨f, hf, -⟩ := hstopped.only _ hr
    cases hf
  · intro f hf
    obtain ⟨f', heq, -, q, hq, hstop⟩ := hstopped.only _ hf
    obtain rfl : f = f' := by simpa using heq
    rw [Founded, hstop.source_eq]
    exact hstop.reason_eq
  · rw [hframe]
    exact h.backed

/-! ## Changes -/

/-- A run that takes messages has neither ended nor been cancelled. -/
theorem target_running (sound : Sound s) {sessionId : SessionId} {runId : RunId}
    (haccepts : targetAcceptsSteering s sessionId runId = true) :
    (∃ f ∈ s.runAcceptedFacts, f.sessionId = sessionId ∧ f.runId = runId ∧
      f.factSequence < s.nextValue) ∧
    ∀ x ∈ steeringSources s, x.runId ≠ some runId := by
  rw [targetAcceptsSteering, Bool.and_eq_true] at haccepts
  obtain ⟨run, hfound, hopen⟩ := (Option.any_eq_true _ _).mp haccepts.1
  obtain ⟨hrow, hsession⟩ := Option.filter_eq_some_iff.mp hfound
  have hin : run ∈ s.runs := Table.find_mem hrow
  have hid : run.id = runId := Table.find_key hrow
  simp only [Bool.and_eq_true, Bool.not_eq_true'] at hopen
  obtain ⟨f, hf, horigin⟩ := sound.bound.fact hin
  refine ⟨⟨f, hf, ?_, ?_, sound.numbered.acceptedFacts.bounded f hf⟩, fun x hx hrun => ?_⟩
  · exact (congrArg RunOrigin.sessionId horigin).trans (of_decide_eq_true hsession)
  · exact (congrArg RunOrigin.id horigin).trans hid
  · rcases mem_steeringSources.mp hx with ⟨c, hc, hintent, rfl⟩ | ⟨g, hg, hterminal, rfl⟩ |
      ⟨r, -, -, rfl⟩
    · have hflag := (sound.projected run hin).cancelled
      rw [hopen.2] at hflag
      have hnone := List.any_eq_false.mp hflag.symm c hc
      have hc' : c.runId = run.id := (Option.some.inj hrun).trans hid.symm
      simp [hc', hintent] at hnone
    · have hrunning := sound.chronicled.running sound.projected hin hopen.1 g hg
        ((Option.some.inj hrun).trans hid.symm)
      rw [hterminal] at hrunning
      cases hrunning
    · cases hrun

/-- Every request of a session is before the next number. -/
theorem archivedBefore_next (hn : Numbered s) (sessionId : SessionId) :
    archivedBefore s sessionId s.nextValue = archiveRequested s sessionId := by
  rw [archivedBefore, archiveRequested]
  have hall : (s.sessionArchiveRequests.filter fun r =>
      r.sessionId = sessionId && decide (r.acceptedSequence < s.nextValue)) =
      s.sessionArchiveRequests.filter fun r => r.sessionId = sessionId := by
    refine List.filter_congr fun r hr => ?_
    simp [hn.archives.bounded r hr]
  rw [hall]

/-- What is checked of a change admits its receipt. -/
theorem admissible (sound : Sound s) {mutation : SteeringMutation} {now : Nat}
    {item : Option SteeringItemId × Option Nat}
    (admitted : admitSteeringChange s mutation = .ok ()) :
    Admissible s (mutation.request s.nextValue now item) := by
  simp only [admitSteeringChange, bind_ok, demand_ok, require_ok, exists_const] at admitted
  obtain ⟨session, hsession, -, hopen, -, -, htarget⟩ := admitted
  have hrunning : ∀ runId, mutation.change.target = some runId →
      targetAcceptsSteering s mutation.sessionId runId = true := by
    intro runId hid
    cases hchange : mutation.change with
    | enqueue target text =>
      rw [hchange] at hid htarget
      obtain rfl : target = runId := Option.some.inj hid
      simp only [bind_ok, require_ok, exists_const] at htarget
      exact htarget.1
    | resume target =>
      rw [hchange] at hid htarget
      obtain rfl : target = runId := Option.some.inj hid
      simpa only [require_ok] using htarget
    | edit | remove | pause => simp [hchange, SteeringChange.target] at hid
  refine ⟨fun runId hid => ?_, fun x hx hin hsome hrun => ?_, ?_⟩
  · exact (target_running sound (hrunning runId hid)).1
  · obtain ⟨runId, hid⟩ := Option.isSome_iff_exists.mp hsome
    have htarget : mutation.change.target = some runId := hrun.symm.trans hid
    exact absurd hid ((target_running sound (hrunning runId htarget)).2 x hx)
  · show archivedBefore s mutation.sessionId s.nextValue = false
    rw [archivedBefore_next sound.numbered]
    exact Bool.eq_false_iff.mpr hopen

/-- A receipt is written from its change. -/
theorem canonical_request {mutation : SteeringMutation} {u : Store} {now : Nat}
    {item : Option SteeringItemId × Option Nat}
    (text : ∀ text ∈ mutation.change.text, validateSteeringText text = .ok ())
    (applied : applySteeringChange (s.drawn (s.nextValue + 1) s.nextIdentifier)
      mutation.sessionId s.nextValue now mutation.change = .ok (item, u)) :
    Canonical (mutation.request s.nextValue now item) mutation.change mutation.expectedRevision where
  revision := rfl
  fingerprint := rfl
  kind := rfl
  target := rfl
  written := rfl
  valid := text
  item := by
    cases hchange : mutation.change with
    | enqueue => trivial
    | edit itemId revision =>
      simp only [hchange, applySteeringChange, bind_ok, require_ok, pure_ok, Prod.mk.injEq,
        exists_const] at applied
      obtain ⟨-, -, -, rfl, -⟩ := applied
      exact ⟨rfl, rfl⟩
    | remove itemId revision =>
      simp only [hchange, applySteeringChange, bind_ok, require_ok, pure_ok, Prod.mk.injEq,
        exists_const] at applied
      obtain ⟨-, -, rfl, -⟩ := applied
      exact ⟨rfl, rfl⟩
    | pause | resume =>
      simp only [hchange, applySteeringChange, pure_ok, Prod.mk.injEq] at applied
      obtain ⟨rfl, -⟩ := applied
      rfl

/-- A change goes on the history with a receipt that its target admits. -/
theorem change (h : Sourced s log) (hsteered : Steered s log) (sound : Sound s)
    {mutation : SteeringMutation} {u : Store} {now : Nat}
    {item : Option SteeringItemId × Option Nat}
    (text : ∀ text ∈ mutation.change.text, validateSteeringText text = .ok ())
    (admitted : admitSteeringChange s mutation = .ok ())
    (applied : applySteeringChange (s.drawn (s.nextValue + 1) s.nextIdentifier)
      mutation.sessionId s.nextValue now mutation.change = .ok (item, u))
    (queue : (loadSteeringQueue u mutation.sessionId).isSome) :
    ∃ log', Steered (writeSteeringReceipt u mutation (mutation.request s.nextValue now item)) log' ∧
      Sourced (writeSteeringReceipt u mutation (mutation.request s.nextValue now item)) log' := by
  refine ⟨_, hsteered.change admitted applied queue, ?_⟩
  have hcanonical := canonical_request text applied
  rw [(steering_frame applied).2]
  have hnewer : ∀ r ∈ [SteeringRecord.receipt (mutation.request s.nextValue now item)],
      s.nextValue ≤ r.sequence := by
    intro r hr
    obtain rfl := List.mem_singleton.mp hr
    exact le_rfl
  refine h.grow hsteered sound.numbered hnewer (fun _ hf => hf) (fun _ hx => Or.inl hx)
    (fun _ hx => hx) (fun _ _ _ => rfl) ?_ ?_ ?_
  · intro r hr
    obtain rfl : r = mutation.request s.nextValue now item := by simpa using hr
    exact ⟨{ admissible sound admitted with }, _, _, hcanonical⟩
  · intro f hf
    simp at hf
  · exact Backed.add h.backed rfl

/-! ## Completions and deletions -/

/-- Completing an archive request leaves what it asked for. -/
theorem archive (h : Sourced s log) (hsteered : Steered s log) (hn : Numbered s)
    (request : SessionArchiveRequest) : Sourced (writeArchive s request) log := by
  refine h.kept hsteered hn (fun _ hf => hf) (fun x => ?_) (fun sessionId n _ => ?_) h.backed
  · rw [mem_steeringSources, mem_steeringSources]
    refine or_congr_right (or_congr_right ⟨?_, ?_⟩)
    · rintro ⟨r, hr, hset, rfl⟩
      obtain ⟨row, hrow, rfl⟩ := Table.mem_modify.mp hr
      split at hset
      · rename_i hid
        exact ⟨row, hrow, hset, by rw [if_pos hid]; rfl⟩
      · rename_i hid
        exact ⟨row, hrow, hset, by rw [if_neg hid]⟩
    · rintro ⟨r, hr, hset, rfl⟩
      refine ⟨_, Table.mem_modify.mpr ⟨r, hr, rfl⟩, ?_, ?_⟩
      · split <;> exact hset
      · split <;> rfl
  · have hmodified : Below SessionArchiveRequest.acceptedSequence s.nextValue
        (writeArchive s request).sessionArchiveRequests :=
      hn.archives.map _ fun r => by split <;> rfl
    rw [archivedBefore, archivedBefore, hmodified.latest_filter, hn.archives.latest_filter]
    show Option.any _ (List.find? _ (Table.modify _ _ _ s.sessionArchiveRequests)) = _
    rw [Table.modify_eq_map, List.find?_map, Option.any_map]
    have hcolumns : ∀ r : SessionArchiveRequest,
        (if r.requestId = request.requestId then { r with complete := true } else r).sessionId =
          r.sessionId ∧
        (if r.requestId = request.requestId then { r with complete := true } else r).acceptedSequence =
          r.acceptedSequence ∧
        (if r.requestId = request.requestId then { r with complete := true } else r).archived =
          r.archived := by
      intro r
      split <;> exact ⟨rfl, rfl, rfl⟩
    simp only [Function.comp_def, (hcolumns _).1, (hcolumns _).2.1, (hcolumns _).2.2]

theorem mem_sources_cleanup {request : SessionDeleteRequest} {x : SteeringSource} :
    x ∈ steeringSources (writeCleanup s request) ↔
      x ∈ steeringSources s ∧ x.sessionId ≠ request.sessionId := by
  rw [mem_steeringSources, mem_steeringSources]
  constructor
  · rintro (⟨c, hc, hset, rfl⟩ | ⟨f, hf, hset, rfl⟩ | ⟨r, hr, hset, rfl⟩)
    · obtain ⟨hc, hne⟩ := List.mem_filter.mp hc
      exact ⟨Or.inl ⟨c, hc, hset, rfl⟩, of_decide_eq_true hne⟩
    · obtain ⟨hf, hne⟩ := List.mem_filter.mp hf
      exact ⟨Or.inr (Or.inl ⟨f, hf, hset, rfl⟩), of_decide_eq_true hne⟩
    · obtain ⟨hr, hne⟩ := List.mem_filter.mp hr
      exact ⟨Or.inr (Or.inr ⟨r, hr, hset, rfl⟩), of_decide_eq_true hne⟩
  · rintro ⟨⟨c, hc, hset, rfl⟩ | ⟨f, hf, hset, rfl⟩ | ⟨r, hr, hset, rfl⟩, hne⟩
    · exact Or.inl ⟨c, List.mem_filter.mpr ⟨hc, decide_eq_true hne⟩, hset, rfl⟩
    · exact Or.inr (Or.inl ⟨f, List.mem_filter.mpr ⟨hf, decide_eq_true hne⟩, hset, rfl⟩)
    · exact Or.inr (Or.inr ⟨r, List.mem_filter.mpr ⟨hr, decide_eq_true hne⟩, hset, rfl⟩)

/-- A session that is deleted takes its records and their sources along. -/
theorem cleanup (h : Sourced s log) (hreg : Registered s) (request : SessionDeleteRequest) :
    Sourced (writeCleanup s request)
      (log.filter fun r => decide (r.row.sessionId ≠ request.sessionId)) where
  receipts r hr := by
    obtain ⟨hr, hne⟩ := List.mem_filter.mp hr
    have hne : r.sessionId ≠ request.sessionId := of_decide_eq_true hne
    have hold := h.receipts r hr
    refine ⟨fun runId hrun => ?_, fun x hx => ?_, ?_⟩
    · obtain ⟨f, hf, hsession, hrest⟩ := hold.accepted runId hrun
      exact ⟨f, List.mem_filter.mpr ⟨hf, by simpa [hsession] using hne⟩, hsession, hrest⟩
    · exact hold.running x (mem_sources_cleanup.mp hx).1
    · have hsame : (writeCleanup s request).sessionArchiveRequests.filter (fun a =>
          a.sessionId = r.sessionId && decide (a.acceptedSequence < r.acceptedSequence)) =
          s.sessionArchiveRequests.filter fun a =>
            a.sessionId = r.sessionId && decide (a.acceptedSequence < r.acceptedSequence) := by
        refine Table.filter_kept fun a _ ha => ?_
        simp only [Bool.and_eq_true, decide_eq_true_eq] at ha
        simpa [ha.1] using hne
      rw [archivedBefore, hsame]
      exact hold.unarchived
  canonical r hr := h.canonical r (List.mem_of_mem_filter hr)
  facts f hf := by
    obtain ⟨hf, hne⟩ := List.mem_filter.mp hf
    have hne : f.sessionId ≠ request.sessionId := of_decide_eq_true hne
    have hold := h.facts f hf
    unfold Founded at hold ⊢
    split
    · rename_i hnone
      rw [hnone] at hold
      exact hold
    · rename_i n hsome
      rw [hsome] at hold
      obtain ⟨hlt, x, hx, hreason, hsequence, hsession, hrest⟩ := hold
      exact ⟨hlt, x, mem_sources_cleanup.mpr ⟨hx, hsession ▸ hne⟩, hreason, hsequence, hsession,
        hrest⟩
  covered x hx := by
    obtain ⟨hx, hne⟩ := mem_sources_cleanup.mp hx
    have hold := h.covered x hx
    unfold Covered recordsBefore at hold ⊢
    rw [Steered.ofSession_filter_ne hne]
    intro hpaused htarget
    obtain ⟨f, hf, hsession, hrest⟩ := hold hpaused htarget
    refine ⟨f, List.mem_filter.mpr ⟨hf, decide_eq_true ?_⟩, hsession, hrest⟩
    show f.sessionId ≠ request.sessionId
    rw [hsession]
    exact hne
  backed := by
    rw [hreg.cleanup_requests]
    refine h.backed.filter fun r hr m hm hp hkey => decide_eq_true fun hsession => ?_
    exact of_decide_eq_true hp (mem_sessionMutations.mpr (Or.inr (Or.inr (Or.inr (Or.inr
      (Or.inr (Or.inr (Or.inl ⟨r, hr, hsession, hkey⟩))))))))

end Sourced

/-! ## Every write -/

/-- The steering tables are those of a history with its sources. -/
def Rooted (s : Store) : Prop := ∃ log, Steered s log ∧ Sourced s log

theorem rooted_empty : Rooted Store.empty := ⟨[], steered_empty, sourced_empty⟩

namespace Rooted

/-- A write that has nothing to do with steering. -/
theorem kept (h : Rooted s) (hn : Numbered s)
    (hforward : s.nextValue ≤ t.nextValue ∧ s.nextIdentifier ≤ t.nextIdentifier)
    (hsteering : t.toSteeringTables = s.toSteeringTables)
    (haccepted : ∀ f ∈ s.runAcceptedFacts, f ∈ t.runAcceptedFacts)
    (hsources : steeringSources t = steeringSources s)
    (harchives : t.sessionArchiveRequests = s.sessionArchiveRequests)
    (hbacked : Backed SteeringMutationRequest.stamp .steering s.mutationRequests
      s.steeringMutationRequests → Backed SteeringMutationRequest.stamp .steering
      t.mutationRequests s.steeringMutationRequests) : Rooted t := by
  obtain ⟨log, hsteered, hsourced⟩ := h
  have hrequests : t.steeringMutationRequests = s.steeringMutationRequests :=
    congrArg SteeringTables.steeringMutationRequests hsteering
  refine ⟨log, hsteered.kept hsteering hforward.1 hforward.2,
    hsourced.kept hsteered hn haccepted (fun x => by rw [hsources]) (fun sessionId n _ => ?_) ?_⟩
  · rw [archivedBefore, harchives]
    rfl
  · rw [hrequests]
    exact hbacked hsourced.backed

/-- The end of a run, after what was recorded before it. -/
theorem ended (h : Rooted s) (hn : Numbered s) {run : Run} {state : RunState}
    {failure : Option RunFailureKind} {kind : EventKind} {now : Nat} {u : Store}
    (hterminal : state.isTerminal = true) (paused : pauseEnded s run now = .ok u) :
    Rooted (endRun s u run state failure kind now) := by
  obtain ⟨log, hsteered, hsourced⟩ := h
  exact hsourced.ended hsteered hn hterminal paused

/-- **Every write keeps a history with its sources.** -/
theorem write (h : Rooted s) (sound : Sound s) (w : Write d s t) : Rooted t := by
  have hn := sound.numbered
  have hforward := w.forward
  obtain ⟨log, hsteered, hsourced⟩ := h
  have h : Rooted s := ⟨log, hsteered, hsourced⟩
  cases w with
  | recovery u now paused => exact hsourced.recovery hsteered hn paused
  | steering mutation u item now fresh text admitted applied queue =>
    exact hsourced.change hsteered sound text admitted applied queue
  | archiveRequest requestId fingerprint sessionId archived now u fresh found paused =>
    exact hsourced.archiveRequest hsteered hn paused
  | cancellation requestId fingerprint run now fresh foundSession found room recordable canonical u
      paused =>
    exact hsourced.cancellation hsteered hn paused
  | archive request =>
    exact ⟨log, hsteered.kept rfl le_rfl le_rfl, hsourced.archive hsteered hn request⟩
  | cleanup request =>
    exact ⟨_, hsteered.cleanup request, hsourced.cleanup sound.registered request⟩
  | finish run outcome state failure kind now u found admitted stopped paused =>
    have hterminal : state.isTerminal = true := by
      rcases stopped with rfl | rfl | rfl <;> rfl
    cases outcome with
    | none => exact h.ended hn hterminal paused
    | some fact =>
      have hsettled : Rooted (writeProviderOutcome s run fact) :=
        h.kept hn ⟨Nat.le_add_right _ 2, le_rfl⟩ rfl (fun _ hf => hf) rfl rfl id
      exact hsettled.ended (hn.outcome (admitted fact rfl).number) hterminal paused
  | answer run state fact assistant now u entry admitted completed paused =>
    have hanswered : Rooted (writeFinalEntry (writeProviderOutcome s run fact) run assistant
        (state.entryHighWater + 1) now) :=
      h.kept hn ⟨Nat.le_add_right _ 3, Nat.le_add_right _ 2⟩ rfl (fun _ hf => hf) rfl rfl id
    exact hanswered.ended (hn.outcome admitted.number).finalEntry rfl paused
  | toolUncertain run state call result factKind resultStatus now u active entry prepared open_
      classified uncertain payload stops paused =>
    have hresult : Rooted (recordToolResult s run call result factKind resultStatus
        (state.entryHighWater + 1) now) :=
      h.kept hn ⟨Nat.le_add_right _ 3, Nat.le_add_right _ 3⟩ rfl (fun _ hf => hf) rfl rfl id
    exact hresult.ended hn.toolResult rfl paused
  | acceptance requestId fingerprint sessionId session state binding checkpoint text context now =>
    exact h.kept hn hforward rfl (fun _ hf => List.mem_cons_of_mem _ hf) rfl rfl
      fun hbacked => hbacked.other (by simp)
  | creationRequest | rename | deleteRequest | commandAcceptance | commandCancellation =>
    exact h.kept hn hforward rfl (fun _ hf => hf) rfl rfl fun hbacked => hbacked.other (by simp)
  | _ => exact h.kept hn hforward rfl (fun _ hf => hf) rfl rfl id

end Rooted

/-- **The steering tables of a reachable store are those of a history with its sources.** -/
theorem Reachable.rooted {allowed : Environment → Store → Operation → Prop}
    (h : Reachable allowed s) : Rooted s := by
  have hboth : Sound s ∧ Rooted s := by
    refine h.obeying_none.writes.invariant (I := fun s => Sound s ∧ Rooted s) ?_ ?_
    · rintro _ rfl
      exact ⟨sound_empty, rooted_empty⟩
    · rintro _ _ ⟨hsound, hrooted⟩ w
      exact ⟨hsound.write w, hrooted.write hsound w⟩
  exact hboth.2

end Morons
