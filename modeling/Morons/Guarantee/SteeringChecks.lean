import Morons.Startup.Steering
import Morons.Guarantee.Commands

/-!
# The startup checks of the steering queues

A store whose steering tables are those of a history with its sources passes
every check: what the window queries find before a row is what the history
says at that row.
-/

namespace Morons

open Attempt Ledger

variable {s t : Store} {log newer older : List SteeringRecord} {sessionId : SessionId}

/-- The steering tables without the slots of the messages. -/
structure Replayed (s : Store) (log : List SteeringRecord) : Prop where
  receipts : log.filterMap SteeringRecord.receipt? = s.steeringMutationRequests
  facts : log.filterMap SteeringRecord.lifecycle? = s.steeringLifecycleFacts
  numbered : Below SteeringRecord.sequence s.nextValue log
  queues : Table.Keyed SteeringQueue.sessionId s.steeringQueues
  replay : ∀ sessionId, Replay (ofSession sessionId log) (steeringState s sessionId)
  owned : ∀ p ∈ s.steeringPendingMessages, (loadSteeringQueue s p.sessionId).isSome

theorem Steered.replayed (h : Steered s log) : Replayed s log := { h with }

/-! ## The history -/

theorem mem_receipts (h : Replayed s log) {r : SteeringMutationRequest} :
    r ∈ s.steeringMutationRequests ↔ .receipt r ∈ log := by
  rw [← h.receipts, List.mem_filterMap]
  constructor
  · rintro ⟨r', hr', heq⟩
    cases r' with
    | receipt r' =>
      obtain rfl : r' = r := by simpa [SteeringRecord.receipt?] using heq
      exact hr'
    | lifecycle f => simp [SteeringRecord.receipt?] at heq
  · intro hr
    exact ⟨_, hr, rfl⟩

theorem mem_facts (h : Replayed s log) {f : SteeringLifecycleFact} :
    f ∈ s.steeringLifecycleFacts ↔ .lifecycle f ∈ log := by
  rw [← h.facts, List.mem_filterMap]
  constructor
  · rintro ⟨r', hr', heq⟩
    cases r' with
    | receipt r => simp [SteeringRecord.lifecycle?] at heq
    | lifecycle f' =>
      obtain rfl : f' = f := by simpa [SteeringRecord.lifecycle?] using heq
      exact hr'
  · intro hf
    exact ⟨_, hf, rfl⟩

/-- The rows of the two tables are those of the records, in another order. -/
theorem rows_perm (log : List SteeringRecord) :
    ((log.filterMap SteeringRecord.receipt?).map SteeringMutationRequest.historyRow ++
      (log.filterMap SteeringRecord.lifecycle?).map SteeringLifecycleFact.historyRow).Perm
      (log.map SteeringRecord.row) := by
  induction log with
  | nil => exact List.Perm.refl _
  | cons r log ih =>
    cases r with
    | receipt r => exact ih.cons _
    | lifecycle f => exact List.perm_middle.trans (ih.cons _)

theorem history_perm (h : Replayed s log) :
    (steeringHistory s).Perm (log.map SteeringRecord.row) := by
  rw [steeringHistory, ← h.receipts, ← h.facts]
  exact rows_perm log

theorem rows_below (h : Replayed s log) :
    Below SteeringHistoryRow.sequence s.nextValue (log.map SteeringRecord.row) :=
  ⟨List.pairwise_map.mpr h.numbered.decreasing, by
    intro r hr
    obtain ⟨r', hr', rfl⟩ := List.mem_map.mp hr
    exact h.numbered.bounded r' hr'⟩

theorem mem_history (h : Replayed s log) {r : SteeringHistoryRow} :
    r ∈ steeringHistory s ↔ ∃ r' ∈ log, r'.row = r :=
  (history_perm h).mem_iff.trans List.mem_map

/-- The history of a session, as the queries order it. -/
theorem sessionHistory_eq (h : Replayed s log) :
    sessionHistory s sessionId = ((ofSession sessionId log).map SteeringRecord.row).reverse := by
  have hperm : ((steeringHistory s).filter fun r => r.sessionId = sessionId).Perm
      ((ofSession sessionId log).map SteeringRecord.row) := by
    have hfilter := (history_perm h).filter fun r => decide (r.sessionId = sessionId)
    rwa [List.filter_map] at hfilter
  have hbelow := (rows_below h).filter fun r => decide (r.sessionId = sessionId)
  rw [List.filter_map] at hbelow
  exact hbelow.ordered_perm hperm

/-! ## What a query finds before a row -/

/-- The first row with a value in a column has the first value. -/
theorem find_bind_column {Row Col : Type} (column : Row → Option Col) (q : Row → Bool)
    (rows : List Row) :
    (rows.find? fun r => q r && (column r).isSome).bind column =
      (rows.filter q).findSome? column := by
  induction rows with
  | nil => rfl
  | cons r rows ih =>
    cases hq : q r with
    | false => rw [List.find?_cons_of_neg (by simp [hq]), List.filter_cons_of_neg (by simp [hq]), ih]
    | true =>
      rw [List.filter_cons_of_pos hq]
      cases hcolumn : column r with
      | none =>
        rw [List.find?_cons_of_neg (by simp [hcolumn]), List.findSome?_cons_of_isNone (by simp [hcolumn]),
          ih]
      | some c =>
        rw [List.find?_cons_of_pos (by simp [hq, hcolumn]),
          List.findSome?_cons_of_isSome (by simp [hcolumn])]
        rfl

theorem priorColumn_eq (h : Replayed s log) {Col : Type} (column : SteeringHistoryRow → Option Col)
    (n : Nat) : priorColumn s column sessionId n =
      (recordsBefore log sessionId n).findSome? fun r => column r.row := by
  have hlatest := (rows_below h).latest_perm (history_perm h) fun r =>
    r.sessionId = sessionId && (column r).isSome && decide (r.sequence < n)
  have hpredicate : (fun r : SteeringHistoryRow =>
      decide (r.sessionId = sessionId) && (column r).isSome && decide (r.sequence < n)) =
      fun r => (decide (r.sessionId = sessionId) && decide (r.sequence < n)) && (column r).isSome := by
    funext r
    exact Bool.and_right_comm ..
  rw [priorColumn, hlatest, hpredicate, find_bind_column, List.filter_map, List.findSome?_map,
    recordsBefore, ofSession, List.filter_filter]
  refine congrArg _ (List.filter_congr fun r _ => ?_)
  exact Bool.and_comm ..

theorem hasPrior_iff (h : Replayed s log) {Col : Type} (column : SteeringHistoryRow → Option Col)
    (n : Nat) : hasPrior s column sessionId n = true ↔
      ∃ r ∈ recordsBefore log sessionId n, (column r.row).isSome = true := by
  simp only [hasPrior, List.any_eq_true, Bool.and_eq_true, decide_eq_true_eq]
  constructor
  · rintro ⟨r, hr, ⟨hsession, hcolumn⟩, hlt⟩
    obtain ⟨r', hr', rfl⟩ := (mem_history h).mp hr
    exact ⟨r', List.mem_filter.mpr ⟨List.mem_filter.mpr ⟨hr', decide_eq_true hsession⟩,
      decide_eq_true hlt⟩, hcolumn⟩
  · rintro ⟨r, hr, hcolumn⟩
    obtain ⟨hr, hlt⟩ := List.mem_filter.mp hr
    obtain ⟨hr, hsession⟩ := List.mem_filter.mp hr
    exact ⟨_, (mem_history h).mpr ⟨r, hr, rfl⟩, ⟨of_decide_eq_true hsession, hcolumn⟩,
      of_decide_eq_true hlt⟩

/-- A row that is the newest with a value in a column is the one the query finds. -/
theorem prior_of_noneBetween (h : Replayed s log) {Col : Type}
    (column : SteeringHistoryRow → Option Col) {n : Nat} {r : SteeringHistoryRow}
    (hr : r ∈ steeringHistory s) (hsession : r.sessionId = sessionId)
    (hcolumn : (column r).isSome = true) (hlt : r.sequence < n)
    (hnone : noneBetween s column sessionId r.sequence n = true) :
    priorColumn s column sessionId n = column r := by
  have hchosen : r ∈ (steeringHistory s).filter fun r =>
      r.sessionId = sessionId && (column r).isSome && decide (r.sequence < n) :=
    List.mem_filter.mpr ⟨hr, by simp [hsession, hcolumn, hlt]⟩
  obtain ⟨m, hm⟩ : ∃ m, latest SteeringHistoryRow.sequence ((steeringHistory s).filter fun r =>
      r.sessionId = sessionId && (column r).isSome && decide (r.sequence < n)) = some m := by
    cases hlatest : latest SteeringHistoryRow.sequence ((steeringHistory s).filter fun r =>
        r.sessionId = sessionId && (column r).isSome && decide (r.sequence < n)) with
    | none =>
      rw [List.argmax_eq_none.mp hlatest] at hchosen
      cases hchosen
    | some m => exact ⟨m, rfl⟩
  obtain ⟨hin, hm'⟩ := List.mem_filter.mp (List.argmax_mem hm)
  have hle : r.sequence ≤ m.sequence := List.le_of_mem_argmax hchosen hm
  have hge : m.sequence ≤ r.sequence := by
    simp only [Bool.and_eq_true, decide_eq_true_eq] at hm'
    by_contra hgt
    simp only [noneBetween, Bool.not_eq_true', List.any_eq_false] at hnone
    have hno := hnone m hin
    simp [hm'.1.1, hm'.1.2, hm'.2, Nat.lt_of_not_le hgt] at hno
  have hsame : m = r :=
    (rows_below h).eq_of_seq ((history_perm h).mem_iff.mp hin) ((history_perm h).mem_iff.mp hr)
      (Nat.le_antisymm hge hle)
  rw [priorColumn, hm, hsame]
  rfl

/-! ## The place of a record -/

/-- A record of a session splits the history of the session. -/
theorem split_session {r : SteeringRecord} (hr : r ∈ log) (hsession : r.row.sessionId = sessionId) :
    ∃ newer older, ofSession sessionId log = newer ++ r :: older :=
  List.append_of_mem (List.mem_filter.mpr ⟨hr, decide_eq_true hsession⟩)

/-- The records before a record are the older ones. -/
theorem recordsBefore_split (h : Replayed s log) {r : SteeringRecord}
    (hsplit : ofSession sessionId log = newer ++ r :: older) :
    recordsBefore log sessionId r.sequence = older := by
  have hbelow : Below SteeringRecord.sequence s.nextValue (ofSession sessionId log) :=
    h.numbered.filter _
  rw [recordsBefore, hsplit]
  rw [hsplit] at hbelow
  exact hbelow.filter_lt

/-- The history up to a record leaves a queue. -/
theorem replay_split (h : Replayed s log) {r : SteeringRecord}
    (hsplit : ofSession sessionId log = newer ++ r :: older) :
    ∃ q st, Replay older q ∧ Advances q r st ∧ Replay (r :: older) (some st) := by
  have hreplay := h.replay sessionId
  rw [hsplit] at hreplay
  obtain ⟨q', hsuffix⟩ := hreplay.suffix
  cases hsuffix with
  | @cons _ q _ st before advances fresh => exact ⟨q, st, before, advances, before.cons advances fresh⟩

/-- The number of the next record is after all. -/
theorem recordsBefore_next (h : Replayed s log) :
    recordsBefore log sessionId s.nextValue = ofSession sessionId log :=
  List.filter_eq_self.mpr fun r hr =>
    decide_eq_true (h.numbered.bounded r (List.mem_of_mem_filter hr))

/-! ## The lifecycle checks -/

/-- A first record is an enqueue. -/
theorem first_enqueue {q : Option SteeringState} {r : SteeringMutationRequest} {st : SteeringState}
    (before : Replay older q) (advances : Advances q (.receipt r) st) (hfirst : r.queueRevision = 1) :
    r.changeKind = .enqueue := by
  have hsome : ∀ st, q = some st → st.revision ≠ 0 := by
    rintro st rfl
    rw [before.revision_eq]
    have hempty : older ≠ [] := fun e => by simpa using before.nil_iff.mpr e
    exact (List.length_pos_iff.mpr hempty).ne'
  cases advances with
  | enqueue kind => exact kind
  | edit kind revision | remove kind revision | pause kind revision | resume kind revision =>
    have hne := hsome _ rfl
    omega

/-- The target of an enqueue is that of the queue, if there is one. -/
theorem enqueue_target {q : Option SteeringState} {r : SteeringMutationRequest} {st : SteeringState}
    (advances : Advances q (.receipt r) st) (hkind : r.changeKind = .enqueue) :
    ∀ st', q = some st' → r.targetRunId = some st'.targetRunId := by
  rintro st' rfl
  cases advances with
  | enqueue kind revision target waits =>
    rw [target]
    exact congrArg some waits.symm
  | edit kind | remove kind | pause kind | resume kind => simp [kind] at hkind

theorem valid_receipt (h : Replayed s log) (hs : Sourced s log) {r : SteeringMutationRequest}
    (hr : r ∈ s.steeringMutationRequests) : invalidSteeringReceipt s r = false := by
  have hin : .receipt r ∈ log := (mem_receipts h).mp hr
  obtain ⟨newer, older, hsplit⟩ := split_session hin rfl
  obtain ⟨q, st, before, advances, -⟩ := replay_split h hsplit
  have hrecords : recordsBefore log r.sessionId r.acceptedSequence = older :=
    recordsBefore_split h hsplit
  have hadmissible := hs.receipts r hin
  obtain ⟨change, n, hcanonical⟩ := hs.canonical r hin
  simp only [invalidSteeringReceipt, Bool.or_eq_false_iff]
  refine ⟨⟨⟨?_, ?_⟩, hadmissible.unarchived⟩, ?_⟩
  · by_cases hfirst : r.queueRevision = 1
    · simp [first_enqueue before advances hfirst]
    · simp [hfirst]
  · by_cases hkind : r.changeKind = .enqueue ∨ r.changeKind = .resume
    · obtain ⟨runId, htarget⟩ : ∃ runId, r.targetRunId = some runId := by
        cases advances with
        | enqueue kind revision target | resume kind revision target => exact ⟨_, target⟩
        | edit kind | remove kind | pause kind => simp [kind] at hkind
      obtain ⟨f, hf, hsession, hrun, hlt⟩ := hadmissible.accepted runId htarget
      have haccepted : (s.runAcceptedFacts.any fun f => f.sessionId = r.sessionId &&
          some f.runId = r.targetRunId && decide (f.factSequence < r.acceptedSequence)) = true :=
        List.any_eq_true.mpr ⟨f, hf, by simp [hsession, hrun, htarget, hlt]⟩
      have hopen : ((steeringSources s).any fun x => x.sessionId = r.sessionId && x.runId.isSome &&
          x.runId = r.targetRunId && (x.reason = .cancellation || x.reason = .terminal) &&
          decide (x.sequence < r.acceptedSequence)) = false := by
        refine List.any_eq_false.mpr fun x hx hbad => ?_
        simp only [Bool.and_eq_true, decide_eq_true_eq] at hbad
        obtain ⟨⟨⟨⟨hsession, hsome⟩, hsame⟩, -⟩, hlt⟩ := hbad
        exact absurd (hadmissible.running x hx hsession hsome hsame) (Nat.not_le.mpr hlt)
      rw [haccepted, hopen]
      simp
    · have hneither : (decide (r.changeKind = .enqueue) || decide (r.changeKind = .resume)) =
          false := by
        simpa using hkind
      rw [hneither]
      rfl
  · by_cases hkind : r.changeKind = .enqueue
    · cases q with
      | none =>
        have hnone : older = [] := before.nil_iff.mp rfl
        have hno : hasPrior s SteeringHistoryRow.targetRunId r.sessionId r.acceptedSequence =
            false := by
          refine Bool.eq_false_iff.mpr fun hprior => ?_
          obtain ⟨r', hr', -⟩ := (hasPrior_iff h _ _).mp hprior
          rw [hrecords, hnone] at hr'
          cases hr'
        rw [hno, Bool.and_false]
      | some st' =>
        have htarget : priorColumn s SteeringHistoryRow.targetRunId r.sessionId r.acceptedSequence =
            r.targetRunId := by
          rw [priorColumn_eq h, hrecords, before.target, enqueue_target advances hkind st' rfl]
          rfl
        simp [htarget]
    · simp [hkind]

theorem stopped_source (h : Replayed s log) (hs : Sourced s log) {x : SteeringSource}
    (hx : x ∈ steeringSources s) : unstoppedQueue s x = false := by
  refine Bool.eq_false_iff.mpr fun hbad => ?_
  simp only [unstoppedQueue, Bool.and_eq_true, decide_eq_true_eq, Bool.or_eq_true,
    Bool.not_eq_true', List.any_eq_false, priorColumn_eq h] at hbad
  obtain ⟨⟨hpaused, htarget⟩, hnone⟩ := hbad
  obtain ⟨f, hf, hsession, hreason, hsource⟩ := hs.covered x hx hpaused htarget
  exact hnone f ((mem_facts h).mpr hf) ⟨⟨hsession, hreason⟩, hsource⟩

theorem unbroken_sequence (h : Replayed s log) (sessionId : SessionId) :
    brokenSequence s sessionId = false := by
  refine List.any_eq_false.mpr ?_
  rintro ⟨row, previous⟩ hin
  rw [sessionHistory_eq h] at hin
  obtain ⟨newer, older, hsplit⟩ := mem_lagged_reverse hin
  obtain ⟨newer, rest, hlog, -, hrest⟩ := List.map_eq_append_iff.mp hsplit
  obtain ⟨a, tail, rfl, rfl, htail⟩ := List.map_eq_cons_iff.mp hrest
  obtain ⟨b, oldest, rfl, rfl, -⟩ := List.map_eq_cons_iff.mp htail
  obtain ⟨_, _, before, -, hreplay⟩ := replay_split h hlog
  have hbelow : Below SteeringRecord.sequence s.nextValue (ofSession sessionId log) :=
    h.numbered.filter _
  rw [hlog] at hbelow
  have hlt : b.row.sequence < a.row.sequence :=
    hbelow.append_right.head_gt b (List.mem_cons_self ..)
  have hnext : a.row.queueRevision = b.row.queueRevision + 1 := by
    rw [hreplay.queueRevision, before.queueRevision, List.length_cons]
  simp [hnext, hlt]

theorem unrepeated_revision (h : Replayed s log) {r : SteeringHistoryRow}
    (hr : r ∈ steeringHistory s) : repeatedRevision s r = false := by
  obtain ⟨r, hin, rfl⟩ := (mem_history h).mp hr
  have hnodup : ((ofSession r.row.sessionId log).map (·.row.queueRevision)).Nodup := by
    rw [← List.nodup_reverse, ← List.map_reverse, (h.replay r.row.sessionId).revisions]
    exact List.nodup_range'
  have hmem : r.row.queueRevision ∈ (ofSession r.row.sessionId log).map (·.row.queueRevision) :=
    List.mem_map_of_mem (List.mem_filter.mpr ⟨hin, decide_eq_true rfl⟩)
  have hcount : (steeringHistory s).countP (fun r' => r'.sessionId = r.row.sessionId &&
      r'.queueRevision = r.row.queueRevision) = 1 := by
    rw [(history_perm h).countP_eq, List.countP_map]
    have hone := List.count_eq_one_of_mem hnodup hmem
    rw [List.count, List.countP_map, ofSession, List.countP_filter] at hone
    refine Eq.trans (List.countP_congr fun r' _ => ?_) hone
    simp [and_comm]
  simp [repeatedRevision, hcount]

/-- A stop finds its queue running, under its target. -/
theorem stop_running {q : Option SteeringState} {f : SteeringLifecycleFact} {st : SteeringState}
    (advances : Advances q (.lifecycle f) st) :
    ∃ st', q = some st' ∧ st'.paused = false ∧ st'.targetRunId = f.targetRunId := by
  cases advances with
  | stop running revision target => exact ⟨_, rfl, running, target.symm⟩

theorem sourced_stop (hs : Sourced s log) {f : SteeringLifecycleFact} (hf : .lifecycle f ∈ log) :
    f.sourceSequence.any (fun n => decide (f.factSequence ≤ n)) = false ∧
      hasSteeringSource s f = true := by
  have hfounded := hs.facts f hf
  unfold Founded at hfounded
  cases hsource : f.sourceSequence with
  | none =>
    rw [hsource] at hfounded
    have hreason : f.reason = .recovery := hfounded
    exact ⟨rfl, by simp [hasSteeringSource, hreason]⟩
  | some n =>
    rw [hsource] at hfounded
    obtain ⟨hlt, x, hx, hreason, rfl, hsession, hclock, hrun⟩ := hfounded
    refine ⟨by simpa using hlt, ?_⟩
    rcases mem_steeringSources.mp hx with ⟨c, hc, hset, rfl⟩ | ⟨g, hg, hset, rfl⟩ | ⟨r, hr, hset, rfl⟩
    · have hreason : f.reason = .cancellation := hreason.symm
      have hrun : c.runId = f.targetRunId := hrun c.runId rfl
      simp only [hasSteeringSource, hreason]
      refine List.any_eq_true.mpr ⟨c, hc, ?_⟩
      simp only [Bool.and_eq_true, decide_eq_true_eq]
      exact ⟨⟨⟨⟨hsource.symm, hsession⟩, hrun⟩, hset⟩, hclock⟩
    · have hreason : f.reason = .terminal := hreason.symm
      have hrun : g.runId = f.targetRunId := hrun g.runId rfl
      simp only [hasSteeringSource, hreason]
      refine List.any_eq_true.mpr ⟨g, hg, ?_⟩
      simp only [Bool.and_eq_true, decide_eq_true_eq]
      exact ⟨⟨⟨⟨hsource.symm, hsession⟩, hrun⟩, hset⟩, hclock⟩
    · have hreason : f.reason = .archive := hreason.symm
      simp only [hasSteeringSource, hreason]
      refine List.any_eq_true.mpr ⟨r, hr, ?_⟩
      simp only [Bool.and_eq_true, decide_eq_true_eq]
      exact ⟨⟨⟨hsource.symm, hsession⟩, hset⟩, hclock⟩

theorem valid_fact (h : Replayed s log) (hs : Sourced s log) {f : SteeringLifecycleFact}
    (hf : f ∈ s.steeringLifecycleFacts) : invalidLifecycleFact s f = false := by
  have hin : .lifecycle f ∈ log := (mem_facts h).mp hf
  obtain ⟨newer, older, hsplit⟩ := split_session hin rfl
  obtain ⟨q, st, before, advances, -⟩ := replay_split h hsplit
  obtain ⟨st', rfl, hrunning, htarget⟩ := stop_running advances
  have hrecords : recordsBefore log f.sessionId f.factSequence = older :=
    recordsBefore_split h hsplit
  obtain ⟨hsource, hfounded⟩ := sourced_stop hs hin
  simp only [invalidLifecycleFact, Bool.or_eq_false_iff]
  refine ⟨⟨⟨List.any_eq_false.mpr fun r hr hbad => ?_, hsource⟩, by rw [hfounded]; rfl⟩,
    List.any_eq_false.mpr fun r hr hbad => ?_⟩
  · simp only [Bool.and_eq_true, decide_eq_true_eq] at hbad
    obtain ⟨⟨⟨hsession, hpaused⟩, hlt⟩, hnone⟩ := hbad
    have hprior := prior_of_noneBetween h SteeringHistoryRow.paused hr hsession
      (by simp [hpaused]) hlt hnone
    rw [priorColumn_eq h, hrecords, before.paused, hpaused] at hprior
    simp [hrunning] at hprior
  · simp only [Bool.and_eq_true, decide_eq_true_eq] at hbad
    obtain ⟨⟨⟨⟨hsession, hlt⟩, hsome⟩, hother⟩, hnone⟩ := hbad
    have hprior := prior_of_noneBetween h SteeringHistoryRow.targetRunId hr hsession
      hsome hlt hnone
    rw [priorColumn_eq h, hrecords, before.target] at hprior
    exact hother (hprior.symm.trans (congrArg some htarget))

/-- **The history of a reachable store goes with its sources.** -/
theorem validateSteeringHistory_ok (h : Replayed s log) (hs : Sourced s log) :
    validateSteeringHistory s = .ok () := by
  rw [validateSteeringHistory, require_ok]
  rintro (hbad | hbad | hbad | hbad | hbad)
  · obtain ⟨r, hr, hbad⟩ := List.any_eq_true.mp hbad
    rw [valid_receipt h hs hr] at hbad
    cases hbad
  · obtain ⟨x, hx, hbad⟩ := List.any_eq_true.mp hbad
    rw [stopped_source h hs hx] at hbad
    cases hbad
  · obtain ⟨sessionId, -, hbad⟩ := List.any_eq_true.mp hbad
    rw [unbroken_sequence h] at hbad
    cases hbad
  · obtain ⟨r, hr, hbad⟩ := List.any_eq_true.mp hbad
    rw [unrepeated_revision h hr] at hbad
    cases hbad
  · obtain ⟨f, hf, hbad⟩ := List.any_eq_true.mp hbad
    rw [valid_fact h hs hf] at hbad
    cases hbad

/-- The newest value of a column is the one that the history ends with. -/
theorem newest_column (h : Replayed s log) {Col : Type} (column : SteeringHistoryRow → Option Col)
    {r : SteeringHistoryRow} (hr : r ∈ steeringHistory s) (hcolumn : (column r).isSome = true)
    (hnewest : newestWith s column r = true) :
    column r = (ofSession r.sessionId log).findSome? fun r' => column r'.row := by
  have hlt : r.sequence < s.nextValue :=
    (rows_below h).bounded r ((history_perm h).mem_iff.mp hr)
  have hnone : noneBetween s column r.sessionId r.sequence s.nextValue = true := by
    simp only [newestWith, Bool.not_eq_true', List.any_eq_false] at hnewest
    simp only [noneBetween, Bool.not_eq_true', List.any_eq_false]
    intro r' hr' hbad
    simp only [Bool.and_eq_true] at hbad
    exact hnewest r' hr' (by simp only [Bool.and_eq_true]; exact hbad.1)
  rw [← prior_of_noneBetween h column hr rfl hcolumn hlt hnone, priorColumn_eq h, recordsBefore_next h]

/-- **The queues are those that the history leaves.** -/
theorem validateSteeringQueues_ok (h : Replayed s log) : validateSteeringQueues s = .ok () := by
  rw [validateSteeringQueues, require_ok]
  intro hbad
  obtain ⟨r, hr, hbad⟩ := List.any_eq_true.mp hbad
  have hreplay := h.replay r.sessionId
  have hempty : ofSession r.sessionId log ≠ [] := by
    obtain ⟨r', hr', rfl⟩ := (mem_history h).mp hr
    exact List.ne_nil_of_mem (List.mem_filter.mpr ⟨hr', decide_eq_true rfl⟩)
  cases hq : loadSteeringQueue s r.sessionId with
  | none =>
    have hstate : steeringState s r.sessionId = none := by
      rw [steeringState, hq]
      rfl
    exact hempty (hreplay.nil_iff.mp hstate)
  | some q =>
    have hstate := Steered.state_of_queue hq
    simp only [hq, Option.map_some, Option.isSome_some, Bool.true_and, Bool.or_eq_true,
      Bool.and_eq_true, decide_eq_true_eq] at hbad
    rw [hstate] at hreplay
    rcases hbad with (⟨hnewest, hne⟩ | ⟨⟨hsome, hne⟩, hnewest⟩) | ⟨⟨hsome, hne⟩, hnewest⟩
    · have hrevision := newest_column h (fun r' => some r'.queueRevision) hr rfl hnewest
      obtain ⟨a, rest, hlog⟩ := List.exists_cons_of_ne_nil hempty
      rw [hlog] at hrevision hreplay
      have hhead : r.queueRevision = a.row.queueRevision := Option.some.inj hrevision
      refine hne (congrArg some ?_)
      rw [hhead, hreplay.queueRevision]
      exact hreplay.revision_eq
    · have hpaused := newest_column h SteeringHistoryRow.paused hr hsome hnewest
      rw [hreplay.paused] at hpaused
      exact hne hpaused.symm
    · have htarget := newest_column h SteeringHistoryRow.targetRunId hr hsome hnewest
      rw [hreplay.target] at htarget
      exact hne htarget.symm

/-! ## The checks of the receipts -/

/-- A record of a session before another one, in the order of the receipts. -/
theorem receipts_upto (h : Replayed s log) {r : SteeringMutationRequest}
    (hsplit : ofSession r.sessionId log = newer ++ .receipt r :: older) :
    (s.steeringMutationRequests.filter fun r' => r'.sessionId = r.sessionId &&
      decide (r'.acceptedSequence ≤ r.acceptedSequence)) =
      (SteeringRecord.receipt r :: older).filterMap SteeringRecord.receipt? := by
  have hbelow : Below SteeringRecord.sequence s.nextValue (ofSession r.sessionId log) :=
    h.numbered.filter _
  rw [hsplit] at hbelow
  have hupto : (ofSession r.sessionId log).filter (fun r' =>
      decide (r'.sequence ≤ r.acceptedSequence)) = .receipt r :: older := by
    rw [hsplit]
    exact hbelow.filter_le
  rw [← hupto, ofSession, List.filter_filter, ← h.receipts, List.filter_filterMap,
    List.filterMap_filter]
  refine List.filterMap_congr fun r' _ => ?_
  cases r' with
  | receipt r' =>
    show Option.filter _ (some r') = if (decide (r'.acceptedSequence ≤ r.acceptedSequence) &&
      decide (r'.sessionId = r.sessionId)) = true then some r' else none
    rw [Bool.and_comm]
    rfl
  | lifecycle f => simp [SteeringRecord.receipt?]

/-- The deltas of the records are those of the receipts among them. -/
theorem delta_receipts (log : List SteeringRecord) :
    ((log.filterMap SteeringRecord.receipt?).map SteeringMutationRequest.delta).sum =
      (log.map SteeringRecord.delta).sum := by
  induction log with
  | nil => rfl
  | cons r log ih =>
    cases r with
    | receipt r => exact congrArg (r.delta + ·) ih
    | lifecycle f =>
      refine ih.trans ?_
      rw [List.map_cons, List.sum_cons]
      exact (Int.zero_add _).symm

/-- **No prefix of the history leaves more than sixteen messages.** -/
theorem validateSteeringCapacityHistory_ok (h : Replayed s log) :
    validateSteeringCapacityHistory s = .ok () := by
  rw [validateSteeringCapacityHistory, require_ok]
  intro hbad
  obtain ⟨r, hr, hbad⟩ := List.any_eq_true.mp hbad
  obtain ⟨newer, older, hsplit⟩ := split_session ((mem_receipts h).mp hr) rfl
  obtain ⟨_, st, -, -, hreplay⟩ := replay_split h hsplit
  have hbelow : Below SteeringRecord.sequence s.nextValue (ofSession r.sessionId log) :=
    h.numbered.filter _
  have hsplit : ofSession r.sessionId log = newer ++ .receipt r :: older := hsplit
  rw [hsplit] at hbelow
  have hcount : pendingCount s r = ((itemsOf (some st)).length : Int) := by
    rw [pendingCount, receipts_upto h hsplit, delta_receipts]
    exact hreplay.occupancy hbelow.append_right
  have hroom : (itemsOf (some st)).length ≤ 16 := hreplay.room
  rw [hcount] at hbad
  simp only [Bool.not_eq_true', Bool.and_eq_false_iff, decide_eq_false_iff_not] at hbad
  omega

/-- A record with an item is a receipt of a change of that item. -/
theorem item_receipt {q : Option SteeringState} {r : SteeringRecord} {st : SteeringState}
    {itemId : SteeringItemId} (advances : Advances q r st) (hitem : r.itemId = some itemId) :
    ∃ e, r = .receipt e ∧ e.changeKind.isOfItem = true := by
  cases advances with
  | @enqueue _ e runId itemId text kind | @edit _ e i text kind | @remove _ e i kind =>
    exact ⟨e, rfl, by rw [kind]; rfl⟩
  | @pause _ e kind revision target item | @resume _ e runId kind revision target item =>
    have hnone : (SteeringRecord.receipt e).itemId = none := item
    rw [hnone] at hitem
    cases hitem
  | stop => cases hitem

/-- A change of an item names it. -/
theorem receipt_item {q : Option SteeringState} {r : SteeringMutationRequest} {st : SteeringState}
    (advances : Advances q (.receipt r) st) (hkind : r.changeKind.isOfItem = true) :
    ∃ itemId, r.itemId = some itemId := by
  cases advances with
  | enqueue kind revision target waits item => exact ⟨_, item⟩
  | edit kind revision target waiting item | remove kind revision target waiting item =>
    exact ⟨_, item⟩
  | pause kind | resume kind =>
    rw [kind] at hkind
    cases hkind

/-- The records of an item in the history of a session. -/
def ofItem (sessionId : SessionId) (itemId : SteeringItemId) (log : List SteeringRecord) :
    List SteeringRecord :=
  (ofSession sessionId log).filter fun r => decide (r.itemId = some itemId)

theorem mem_ofItem_receipt (h : Replayed s log) {itemId : SteeringItemId} {r : SteeringRecord}
    (hr : r ∈ ofItem sessionId itemId log) : ∃ e, r = .receipt e ∧ e.changeKind.isOfItem = true := by
  obtain ⟨hr, hitem⟩ := List.mem_filter.mp hr
  obtain ⟨hin, hsession⟩ := List.mem_filter.mp hr
  obtain ⟨newer, older, hsplit⟩ := split_session hin (of_decide_eq_true hsession)
  obtain ⟨_, _, -, advances, -⟩ := replay_split h hsplit
  exact item_receipt advances (of_decide_eq_true hitem)

theorem itemHistory_eq (h : Replayed s log) (itemId : SteeringItemId) :
    itemHistory s sessionId (some itemId) =
      ((ofItem sessionId itemId log).filterMap SteeringRecord.receipt?).reverse := by
  have hrows : (s.steeringMutationRequests.filter fun r => r.changeKind.isOfItem &&
      r.sessionId = sessionId && r.itemId = some itemId) =
      (ofItem sessionId itemId log).filterMap SteeringRecord.receipt? := by
    rw [← h.receipts, List.filter_filterMap, ofItem, ofSession, List.filter_filter,
      List.filterMap_filter]
    refine List.filterMap_congr fun r' hr' => ?_
    cases r' with
    | lifecycle f => simp [SteeringRecord.receipt?]
    | receipt e =>
      show Option.filter _ (some e) = if (decide (e.itemId = some itemId) &&
        decide (e.sessionId = sessionId)) = true then some e else none
      by_cases hchosen : e.itemId = some itemId ∧ e.sessionId = sessionId
      · have hin : .receipt e ∈ ofItem sessionId itemId log :=
          List.mem_filter.mpr ⟨List.mem_filter.mpr ⟨hr', decide_eq_true hchosen.2⟩,
            decide_eq_true hchosen.1⟩
        obtain ⟨e', heq, hkind⟩ := mem_ofItem_receipt h hin
        obtain rfl : e = e' := by simpa using heq
        simp [hkind, hchosen.1, hchosen.2]
      · rw [if_neg (by simpa using hchosen), Option.filter_some, if_neg]
        simp only [Bool.and_eq_true, decide_eq_true_eq, not_and]
        intro hleft hitem
        exact hchosen ⟨hitem, hleft.2⟩
  have hbelow : Below SteeringMutationRequest.acceptedSequence s.nextValue
      ((ofItem sessionId itemId log).filterMap SteeringRecord.receipt?) := by
    have hnumbered : Below SteeringRecord.sequence s.nextValue (ofItem sessionId itemId log) :=
      (h.numbered.filter _).filter _
    refine ⟨hnumbered.decreasing.filterMap _ fun a b hab a' ha b' hb => ?_, fun e he => ?_⟩
    · cases a with
      | lifecycle f => cases ha
      | receipt a =>
        cases b with
        | lifecycle f => cases hb
        | receipt b =>
          obtain rfl := Option.some.inj ha
          obtain rfl := Option.some.inj hb
          exact hab
    · obtain ⟨r, hr, heq⟩ := List.mem_filterMap.mp he
      cases r with
      | lifecycle f => cases heq
      | receipt e' =>
        obtain rfl := Option.some.inj heq
        exact hnumbered.bounded _ hr
  rw [itemHistory, hrows]
  exact hbelow.ordered_perm (List.Perm.refl _)

/-- What the window shows of an item: a change with the newest one before it. -/
theorem item_window (h : Replayed s log) {itemId : SteeringItemId} {r : SteeringMutationRequest}
    {previous : Option SteeringMutationRequest}
    (hin : (r, previous) ∈ withPrevious (itemHistory s sessionId (some itemId))) :
    ∃ q st older, Replay older q ∧ Advances q (.receipt r) st ∧
      Replay (.receipt r :: older) (some st) ∧ r.itemId = some itemId ∧
      previous = (newestOf older itemId).bind SteeringRecord.receipt? := by
  rw [itemHistory_eq h] at hin
  obtain ⟨newer, older, hsplit, hprevious⟩ := mem_withPrevious_reverse hin
  obtain ⟨first, rest, hrecords, -, hrest⟩ := List.filterMap_eq_append_iff.mp hsplit
  obtain ⟨skipped, x, tail, rfl, -, hx, htail⟩ := List.filterMap_eq_cons_iff.mp hrest
  have hxr : x = .receipt r := by
    cases x with
    | lifecycle f => cases hx
    | receipt e => rw [Option.some.inj hx]
  subst hxr
  have hitem : r.itemId = some itemId := by
    have hmem : .receipt r ∈ ofItem sessionId itemId log := by
      rw [hrecords]
      simp
    exact of_decide_eq_true (List.mem_filter.mp hmem).2
  -- The split of the item's records comes from one of the session's.
  rw [ofItem, ← List.append_assoc] at hrecords
  obtain ⟨before, after, hlog, -, hafter⟩ := List.filter_eq_append_iff.mp hrecords
  obtain ⟨skipped', after', rfl, -, -, hafter'⟩ := List.filter_eq_cons_iff.mp hafter
  rw [← List.append_assoc] at hlog
  obtain ⟨q, st, hreplay, hadvances, hwhole⟩ := replay_split h hlog
  refine ⟨q, st, after', hreplay, hadvances, hwhole, hitem, ?_⟩
  rw [hprevious, ← htail, ← hafter', newestOf, ← List.head?_filter]
  cases hrest' : after'.filter fun r => decide (r.itemId = some itemId) with
  | nil => rfl
  | cons y ys =>
    have hy : y ∈ ofItem sessionId itemId log := by
      have hmem : y ∈ after'.filter fun r => decide (r.itemId = some itemId) := by
        rw [hrest']
        exact List.mem_cons_self ..
      obtain ⟨hin', hyitem⟩ := List.mem_filter.mp hmem
      refine List.mem_filter.mpr ⟨?_, hyitem⟩
      rw [hlog]
      exact List.mem_append_right _ (List.mem_cons_of_mem _ hin')
    obtain ⟨e, rfl, -⟩ := mem_ofItem_receipt h hy
    rfl

theorem unbroken_item (h : Replayed s log) {r : SteeringMutationRequest}
    (hr : r ∈ s.steeringMutationRequests) (hkind : r.changeKind.isOfItem = true) :
    brokenItemHistory s r = false := by
  obtain ⟨newer, older, hsplit⟩ := split_session ((mem_receipts h).mp hr) rfl
  obtain ⟨_, _, -, advances, -⟩ := replay_split h hsplit
  obtain ⟨itemId, hitem⟩ := receipt_item advances hkind
  refine List.any_eq_false.mpr ?_
  rintro ⟨row, previous⟩ hin hbad
  rw [hitem] at hin
  obtain ⟨q, st, older, -, -, hreplay, hrow, rfl⟩ := item_window h hin
  simp only [brokenItem] at hbad
  split at hbad
  · rename_i hkind
    have hnone : newestOf older itemId = none := by
      refine List.find?_eq_none.mpr fun r' hr' hsame => ?_
      exact hreplay.enqueue_first hkind r' hr' ((of_decide_eq_true hsame).trans hrow.symm)
    rw [hnone] at hbad
    cases hbad
  · rename_i hkind
    obtain ⟨itemId', l, n, hid, hnewest, hkinds, hrevision, hnext⟩ := hreplay.edit_follows hkind
    obtain rfl : itemId = itemId' := Option.some.inj (hrow.symm.trans hid)
    rw [hnewest] at hbad
    rcases hkinds with hl | hl <;> simp [SteeringRecord.receipt?, hl, hrevision, hnext] at hbad
  · rename_i hkind
    obtain ⟨itemId', l, hid, hnewest, hkinds, hrevision⟩ := hreplay.remove_follows hkind
    obtain rfl : itemId = itemId' := Option.some.inj (hrow.symm.trans hid)
    rw [hnewest] at hbad
    rcases hkinds with hl | hl <;> simp [SteeringRecord.receipt?, hl, hrevision] at hbad
  · cases hbad
  · cases hbad

/-- The revisions of a session rise with its history. -/
theorem Replayed.staged (h : Replayed s log) (sessionId : SessionId) :
    Staged (fun r' : SteeringRecord => r'.row.queueRevision) (ofSession sessionId log) := by
  have hsorted : ((ofSession sessionId log).reverse.map (·.row.queueRevision)).Pairwise
      (· < ·) := by
    rw [(h.replay sessionId).revisions]
    exact List.pairwise_lt_range'
  exact List.pairwise_reverse.mp (List.pairwise_map.mp hsorted)

/-- The numbers of the receipts follow the revisions. -/
theorem receipts_inOrder (h : Replayed s log) {e r : SteeringMutationRequest}
    (he : e ∈ s.steeringMutationRequests) (hr : r ∈ s.steeringMutationRequests)
    (hsession : e.sessionId = r.sessionId) (hlt : e.queueRevision < r.queueRevision) :
    e.acceptedSequence < r.acceptedSequence := by
  have hbelow : Below SteeringRecord.sequence s.nextValue (ofSession r.sessionId log) :=
    h.numbered.filter _
  exact (h.staged r.sessionId).seq_lt hbelow (a := .receipt e) (b := .receipt r)
    (List.mem_filter.mpr ⟨(mem_receipts h).mp he, decide_eq_true hsession⟩)
    (List.mem_filter.mpr ⟨(mem_receipts h).mp hr, decide_eq_true rfl⟩) hlt

theorem validateSteeringText_isOk {text : String} (h : validateSteeringText text = .ok ()) :
    (validateSteeringText text).isOk = true := by
  rw [h]
  rfl

/-- A receipt holds the change that its fingerprint stands for. -/
theorem validateSteeringReceipt_ok {r : SteeringMutationRequest} {change : SteeringChange} {n : Nat}
    (h : Canonical r change n)
    (hremoved : ∀ itemId revision, change = .remove itemId revision → 0 < revision) :
    validateSteeringReceipt r = .ok () := by
  have hchange : r.change = .ok change := by
    have hkind := h.kind
    have htarget := h.target
    have hwritten := h.written
    have hiteming := h.item
    unfold SteeringMutationRequest.change
    cases change with
    | enqueue runId text =>
      have hkind : r.changeKind = .enqueue := hkind
      have htarget : r.targetRunId = some runId := htarget
      have hwritten : r.text = some text := hwritten
      simp only [hkind, htarget, hwritten]
      rfl
    | edit itemId revision text =>
      have hkind : r.changeKind = .edit := hkind
      have hwritten : r.text = some text := hwritten
      simp only [hkind, hiteming.1, hiteming.2, hwritten]
      rfl
    | remove itemId revision =>
      have hkind : r.changeKind = .remove := hkind
      have hpositive := hremoved itemId revision rfl
      simp only [hkind, hiteming.1, hiteming.2, bind_ok, demand_ok, pure_ok, steeringRevision,
        require_ok]
      exact ⟨itemId, rfl, revision, rfl, revision, ⟨(), hpositive, rfl⟩, rfl⟩
    | pause =>
      have hkind : r.changeKind = .pause := hkind
      simp only [hkind]
      rfl
    | resume runId =>
      have hkind : r.changeKind = .resume := hkind
      have htarget : r.targetRunId = some runId := htarget
      simp only [hkind, htarget]
      rfl
  have hpositive : 0 < r.queueRevision := by
    rw [h.revision]
    exact Nat.succ_pos _
  simp only [validateSteeringReceipt, bind_ok, require_ok, steeringRevision, pure_ok]
  refine ⟨r.queueRevision, ⟨(), hpositive, rfl⟩, change, hchange, (), ?_, ?_⟩
  · rw [Option.all_eq_true]
    intro text htext
    exact validateSteeringText_isOk (h.valid text htext)
  · rw [h.fingerprint, h.revision]
    rfl

/-- The revision of an item that is removed is positive. -/
theorem removed_revision {q : Option SteeringState} {r : SteeringMutationRequest}
    {st : SteeringState} (before : Replay older q) (advances : Advances q (.receipt r) st)
    {change : SteeringChange} {n : Nat} (hcanonical : Canonical r change n) :
    ∀ itemId revision, change = .remove itemId revision → 0 < revision := by
  rintro itemId revision rfl
  have hkind : r.changeKind = .remove := hcanonical.kind
  have hrevision : r.itemRevision = some revision := hcanonical.item.2
  cases advances with
  | @remove _ _ i kind _ target waiting item itemRevision =>
    have hcount := before.edits i waiting
    have hsame : revision = i.revision := Option.some.inj (hrevision.symm.trans itemRevision)
    omega
  | enqueue kind | edit kind | pause kind | resume kind => simp [kind] at hkind

/-- **The receipts are canonical, registered and in order.** -/
theorem validateSteeringMutationHistory_ok (h : Replayed s log) (hs : Sourced s log)
    (hregistered : Registered s) : validateSteeringMutationHistory s = .ok () := by
  have hregistry : registryConflict .steering SteeringMutationRequest.stamp s.mutationRequests
      s.steeringMutationRequests = false :=
    registryConflict_false SteeringMutationRequest.stamp hregistered.requests hregistered.steering
      hs.backed
  have hreceipts : s.steeringMutationRequests.forM validateSteeringReceipt = .ok () := by
    refine forM_ok.mpr fun r hr => ?_
    obtain ⟨change, n, hcanonical⟩ := hs.canonical r ((mem_receipts h).mp hr)
    obtain ⟨newer, older, hsplit⟩ := split_session ((mem_receipts h).mp hr) rfl
    obtain ⟨_, _, before, advances, -⟩ := replay_split h hsplit
    exact validateSteeringReceipt_ok hcanonical (removed_revision before advances hcanonical)
  simp only [validateSteeringMutationHistory, bind_ok, require_ok, exists_const]
  refine ⟨(), validateSteeringCapacityHistory_ok h, ?_, hreceipts⟩
  rintro (hbad | hbad | hbad)
  · obtain ⟨r, hr, hbad⟩ := List.any_eq_true.mp hbad
    simp only [Bool.and_eq_true] at hbad
    rw [unbroken_item h hr hbad.1] at hbad
    cases hbad.2
  · rw [hregistry] at hbad
    cases hbad
  · obtain ⟨r, hr, hbad⟩ := List.any_eq_true.mp hbad
    obtain ⟨e, he, hbad⟩ := List.any_eq_true.mp hbad
    simp only [Bool.and_eq_true, decide_eq_true_eq] at hbad
    have hlt := receipts_inOrder h he hr hbad.1.1 hbad.1.2
    omega

/-! ## The queues against the receipts -/

/-- A message is an item of the queue of its session. -/
theorem message_item (h : Replayed s log) {p : SteeringPendingMessage}
    (hp : p ∈ s.steeringPendingMessages) : p.item ∈ itemsOf (steeringState s p.sessionId) := by
  obtain ⟨q, hq⟩ := Option.isSome_iff_exists.mp (h.owned p hp)
  rw [Steered.state_of_queue hq]
  exact Steered.item_of_row hp rfl

/-- An item of the queue of a session is one of its messages. -/
theorem item_message {i : SteeringItem} (hi : i ∈ itemsOf (steeringState s sessionId)) :
    ∃ p ∈ s.steeringPendingMessages, p.sessionId = sessionId ∧ p.item = i := by
  rw [steeringState] at hi
  cases hq : loadSteeringQueue s sessionId with
  | none =>
    rw [hq] at hi
    cases hi
  | some q =>
    rw [hq] at hi
    obtain ⟨p, hp, rfl⟩ := List.mem_map.mp (show i ∈ steeringItems s sessionId from hi)
    obtain ⟨hp, hsession⟩ := List.mem_filter.mp hp
    exact ⟨p, hp, of_decide_eq_true hsession, rfl⟩

theorem mem_ofSession {r : SteeringRecord} :
    r ∈ ofSession sessionId log ↔ r ∈ log ∧ r.row.sessionId = sessionId := by
  rw [ofSession, List.mem_filter, decide_eq_true_eq]

/-- A session with receipts has a queue, whose revision is the newest. -/
theorem queue_revision (h : Replayed s log) {r : SteeringMutationRequest}
    (hr : r ∈ s.steeringMutationRequests) :
    ∃ q, loadSteeringQueue s r.sessionId = some q ∧ r.queueRevision ≤ q.revision := by
  obtain ⟨newer, older, hsplit⟩ := split_session ((mem_receipts h).mp hr) rfl
  have hreplay := h.replay r.sessionId
  have hsplit : ofSession r.sessionId log = newer ++ .receipt r :: older := hsplit
  obtain ⟨_, _, -, -, hupto⟩ := replay_split h hsplit
  cases hq : loadSteeringQueue s r.sessionId with
  | none =>
    have hstate : steeringState s r.sessionId = none := by
      rw [steeringState, hq]
      rfl
    have hempty := hreplay.nil_iff.mp hstate
    rw [hsplit] at hempty
    simp at hempty
  | some q =>
    rw [Steered.state_of_queue hq] at hreplay
    have hlength : q.revision = (newer ++ .receipt r :: older).length := by
      rw [← hsplit]
      exact hreplay.revision_eq
    have hplace : r.queueRevision = older.length + 1 := hupto.queueRevision
    refine ⟨q, rfl, ?_⟩
    rw [hlength, hplace, List.length_append, List.length_cons]
    omega

/-- Only an enqueue and a resumption name a target. -/
theorem target_kind {q : Option SteeringState} {r : SteeringMutationRequest} {st : SteeringState}
    (advances : Advances q (.receipt r) st) :
    r.targetRunId.isSome = true ↔ r.changeKind = .enqueue ∨ r.changeKind = .resume := by
  cases advances with
  | enqueue kind revision target | resume kind revision target => simp [kind, target]
  | edit kind revision target | remove kind revision target | pause kind revision target =>
    simp [kind, target]

/-- The queue waits for the target of the newest receipt that names one. -/
theorem newest_target (h : Replayed s log) {q : SteeringQueue} {r : SteeringMutationRequest}
    (hq : loadSteeringQueue s r.sessionId = some q) (hr : r ∈ s.steeringMutationRequests)
    (hkind : r.changeKind = .enqueue ∨ r.changeKind = .resume)
    (hnewest : newestReceipt s (fun r' => r'.changeKind = .enqueue || r'.changeKind = .resume) r) :
    r.targetRunId = some q.targetRunId := by
  obtain ⟨newer, older, hsplit⟩ := split_session ((mem_receipts h).mp hr) rfl
  have hsplit : ofSession r.sessionId log = newer ++ .receipt r :: older := hsplit
  obtain ⟨_, _, -, advances, -⟩ := replay_split h hsplit
  have hsome := (target_kind advances).mpr hkind
  have hbelow : Below SteeringRecord.sequence s.nextValue (ofSession r.sessionId log) :=
    h.numbered.filter _
  have hnone : newer.findSome? (fun r' => r'.receipt?.bind (·.targetRunId)) = none := by
    refine List.findSome?_eq_none_iff.mpr fun r' hr' => ?_
    cases r' with
    | lifecycle f => rfl
    | receipt e =>
      by_contra htarget
      have hin : .receipt e ∈ ofSession r.sessionId log := by
        rw [hsplit]
        exact List.mem_append_left _ hr'
      obtain ⟨hlog, hsession⟩ := mem_ofSession.mp hin
      obtain ⟨before, after, hsplit'⟩ := split_session hlog hsession
      obtain ⟨_, _, -, advances', -⟩ := replay_split h hsplit'
      have hkind' := (target_kind advances').mp (Option.isSome_iff_ne_none.mpr htarget)
      have hlt : r.acceptedSequence < e.acceptedSequence := by
        rw [hsplit] at hbelow
        exact (List.pairwise_append.mp hbelow.decreasing).2.2 _ hr' _ (List.mem_cons_self ..)
      have hsession : e.sessionId = r.sessionId := hsession
      simp only [newestReceipt, Bool.not_eq_true', List.any_eq_false] at hnewest
      refine hnewest e ((mem_receipts h).mpr hlog) ?_
      simp [hsession, hkind', hlt]
  have htarget := (h.replay r.sessionId).receipt_target
  rw [Steered.state_of_queue hq, hsplit, List.findSome?_append, hnone, Option.none_or,
    List.findSome?_cons_of_isSome (by exact hsome)] at htarget
  exact htarget

/-- The newest receipt says whether the queue is paused, if it says so at all. -/
theorem newest_paused (h : Replayed s log) {q : SteeringQueue} {r : SteeringMutationRequest}
    (hq : loadSteeringQueue s r.sessionId = some q) (hr : r ∈ s.steeringMutationRequests)
    (hrevision : r.queueRevision = q.revision) :
    (r.changeKind = .pause → q.paused = true) ∧ (r.changeKind = .resume → q.paused = false) ∧
      (r.changeKind = .enqueue → r.queueRevision = 1 → q.paused = true) := by
  obtain ⟨newer, older, hsplit⟩ := split_session ((mem_receipts h).mp hr) rfl
  have hsplit : ofSession r.sessionId log = newer ++ .receipt r :: older := hsplit
  obtain ⟨_, _, -, -, hupto⟩ := replay_split h hsplit
  have hreplay := h.replay r.sessionId
  rw [Steered.state_of_queue hq, hsplit] at hreplay
  have hlength : q.revision = (newer ++ .receipt r :: older).length := hreplay.revision_eq
  have hplace : r.queueRevision = older.length + 1 := hupto.queueRevision
  have hnewer : newer = [] := by
    rw [List.length_append, List.length_cons] at hlength
    exact List.length_eq_zero_iff.mp (by omega)
  rw [hnewer, List.nil_append] at hreplay
  have hpaused := hreplay.paused
  have htold : ∀ b, r.historyRow.paused = some b → q.paused = b := by
    intro b hb
    have hrow : (SteeringRecord.receipt r).row.paused = some b := hb
    rw [List.findSome?_cons_of_isSome (by rw [hrow]; rfl), hrow] at hpaused
    exact (Option.some.inj hpaused).symm
  refine ⟨fun hkind => htold true ?_, fun hkind => htold false ?_, fun hkind hone => htold true ?_⟩
  · simp [SteeringMutationRequest.historyRow, hkind]
  · simp [SteeringMutationRequest.historyRow, hkind]
  · simp [SteeringMutationRequest.historyRow, hkind, hone]

/-- The newest receipt of an item is the one that the history ends with. -/
theorem newest_of_item (h : Replayed s log) {r : SteeringMutationRequest} {itemId : SteeringItemId}
    (hr : r ∈ s.steeringMutationRequests) (hitem : r.itemId = some itemId)
    (hnewest : newestReceipt s r.ofItem r = true) :
    newestOf (ofSession r.sessionId log) itemId = some (.receipt r) := by
  obtain ⟨newer, older, hsplit⟩ := split_session ((mem_receipts h).mp hr) rfl
  have hsplit : ofSession r.sessionId log = newer ++ .receipt r :: older := hsplit
  have hbelow : Below SteeringRecord.sequence s.nextValue (ofSession r.sessionId log) :=
    h.numbered.filter _
  have hnone : newer.find? (fun r' => decide (r'.itemId = some itemId)) = none := by
    refine List.find?_eq_none.mpr fun r' hr' hsame => ?_
    cases r' with
    | lifecycle f => simp [SteeringRecord.itemId] at hsame
    | receipt e =>
      have hin : .receipt e ∈ ofSession r.sessionId log := by
        rw [hsplit]
        exact List.mem_append_left _ hr'
      obtain ⟨hlog, hsession⟩ := mem_ofSession.mp hin
      have hlt : r.acceptedSequence < e.acceptedSequence := by
        rw [hsplit] at hbelow
        exact (List.pairwise_append.mp hbelow.decreasing).2.2 _ hr' _ (List.mem_cons_self ..)
      have hsession : e.sessionId = r.sessionId := hsession
      have hsame : e.itemId = some itemId := of_decide_eq_true hsame
      simp only [newestReceipt, Bool.not_eq_true', List.any_eq_false] at hnewest
      refine hnewest e ((mem_receipts h).mpr hlog) ?_
      simp [SteeringMutationRequest.ofItem, hsession, hsame, hitem, hlt]
  rw [newestOf, hsplit, List.find?_append, hnone, Option.none_or,
    List.find?_cons_of_pos (by exact decide_eq_true hitem)]

/-- The message of an item, found by its newest receipt. -/
theorem findPending_item {r : SteeringMutationRequest} {p : SteeringPendingMessage}
    (hp : findPending s r = some p) :
    p ∈ s.steeringPendingMessages ∧ p.sessionId = r.sessionId ∧ r.itemId = some p.itemId := by
  have hchosen := List.find?_some hp
  simp only [Bool.and_eq_true, decide_eq_true_eq] at hchosen
  exact ⟨List.mem_of_find?_eq_some hp, hchosen.1, hchosen.2.symm⟩

/-- An item whose newest receipt removes it does not wait. -/
theorem removed_absent (h : Replayed s log) {r : SteeringMutationRequest}
    (hr : r ∈ s.steeringMutationRequests) (hkind : r.changeKind = .remove)
    (hnewest : newestReceipt s r.ofItem r = true) : findPending s r = none := by
  cases hp : findPending s r with
  | none => rfl
  | some p =>
    obtain ⟨hin, hsession, hitem⟩ := findPending_item hp
    have hwaits := message_item h hin
    rw [hsession] at hwaits
    obtain ⟨-, l, hl, hwritten⟩ := ((h.replay r.sessionId).waiting p.item).mp hwaits
    have hself := newest_of_item h hr hitem hnewest
    have hsame : l = r := by
      rw [show p.item.itemId = p.itemId from rfl, hself] at hl
      simpa using hl.symm
    rw [hsame] at hwritten
    simp [WrittenBy, hkind] at hwritten

/-- The message of an item agrees with the receipts of the item. -/
theorem waiting_agrees (h : Replayed s log) {r : SteeringMutationRequest}
    (hr : r ∈ s.steeringMutationRequests) (hkind : r.changeKind = .enqueue ∨ r.changeKind = .edit)
    (hnewest : newestReceipt s r.ofItem r = true) :
    (findPending s r).any (pendingAgrees s r) = true := by
  obtain ⟨newer, older, hsplit⟩ := split_session ((mem_receipts h).mp hr) rfl
  obtain ⟨_, _, -, advances, -⟩ := replay_split h hsplit
  obtain ⟨itemId, hitem⟩ := receipt_item advances (by rcases hkind with hk | hk <;> rw [hk] <;> rfl)
  have hself := newest_of_item h hr hitem hnewest
  have hreplay := h.replay r.sessionId
  obtain ⟨i, hi, hid⟩ := hreplay.newest_waits hself hkind
  obtain ⟨p, hp, hsession, rfl⟩ := item_message hi
  -- The message that is found is the one of the item.
  obtain ⟨p', hp'⟩ : ∃ p', findPending s r = some p' := by
    refine Option.isSome_iff_exists.mp (List.find?_isSome.mpr ⟨p, hp, ?_⟩)
    have hid : p.itemId = itemId := hid
    simp [hsession, hid, hitem]
  obtain ⟨hin, hsession', hitem'⟩ := findPending_item hp'
  have hwaits := message_item h hin
  rw [hsession'] at hwaits
  obtain ⟨⟨e, he, hkind', hid', hsequence, hclock⟩, l, hl, -, hrevision, htext⟩ :=
    (hreplay.waiting p'.item).mp hwaits
  have hsame : l = r := by
    have hp'' : p'.item.itemId = itemId := Option.some.inj (hitem'.symm.trans hitem)
    rw [hp'', hself] at hl
    simpa using hl.symm
  subst hsame
  obtain ⟨hlog, hesession⟩ := mem_ofSession.mp he
  have hesession : e.sessionId = l.sessionId := hesession
  have hid' : e.itemId = some p'.itemId := hid'
  rw [hp', Option.any_some, pendingAgrees, Bool.and_eq_true, Bool.and_eq_true]
  refine ⟨⟨decide_eq_true htext.symm, decide_eq_true hrevision.symm⟩,
    List.any_eq_true.mpr ⟨e, (mem_receipts h).mpr hlog, ?_⟩⟩
  simp only [Bool.and_eq_true, decide_eq_true_eq, SteeringMutationRequest.ofItem]
  exact ⟨⟨⟨⟨hesession, by rw [hid']; rfl, hid'.trans hitem'.symm⟩, hkind'⟩, hsequence⟩, hclock⟩

/-- **The queues and the messages are those of the receipts.** -/
theorem validateSteeringMutationProjection_ok (h : Replayed s log) :
    validateSteeringMutationProjection s = .ok () := by
  rw [validateSteeringMutationProjection, require_ok]
  rintro (hbad | hbad | hbad | hbad | hbad)
  · obtain ⟨p, hp, hbad⟩ := List.any_eq_true.mp hbad
    simp only [Bool.and_eq_true, Bool.not_eq_true', List.any_eq_false, decide_eq_true_eq] at hbad
    obtain ⟨⟨e, he, hkind, hid, -⟩, -⟩ :=
      ((h.replay p.sessionId).waiting p.item).mp (message_item h hp)
    obtain ⟨hlog, hsession⟩ := mem_ofSession.mp he
    exact hbad.2 e ((mem_receipts h).mpr hlog) ⟨⟨hsession, hid⟩, hkind⟩
  · obtain ⟨r, hr, hbad⟩ := List.any_eq_true.mp hbad
    obtain ⟨q, hq, hle⟩ := queue_revision h hr
    rw [hq, Option.all_some, decide_eq_true_eq] at hbad
    omega
  · obtain ⟨q, hq, hbad⟩ := List.any_eq_true.mp hbad
    obtain ⟨r, hr, hbad⟩ := List.any_eq_true.mp hbad
    simp only [Bool.and_eq_true, Bool.or_eq_true, decide_eq_true_eq] at hbad
    obtain ⟨⟨⟨hsession, hkind⟩, hne⟩, hnewest⟩ := hbad
    have hfound : loadSteeringQueue s r.sessionId = some q := by
      rw [hsession]
      exact Table.find_of_mem h.queues hq
    exact hne (newest_target h hfound hr hkind hnewest)
  · obtain ⟨q, hq, hbad⟩ := List.any_eq_true.mp hbad
    obtain ⟨r, hr, hbad⟩ := List.any_eq_true.mp hbad
    simp only [Bool.and_eq_true, Bool.or_eq_true, decide_eq_true_eq, Bool.not_eq_true'] at hbad
    obtain ⟨⟨hsession, hrevision⟩, hbad⟩ := hbad
    have hfound : loadSteeringQueue s r.sessionId = some q := by
      rw [hsession]
      exact Table.find_of_mem h.queues hq
    obtain ⟨hpause, hresume, hfirst⟩ := newest_paused h hfound hr hrevision
    rcases hbad with (⟨hkind, hno⟩ | ⟨hkind, hyes⟩) | ⟨⟨hkind, hone⟩, hno⟩
    · simp [hpause hkind] at hno
    · simp [hresume hkind] at hyes
    · simp [hfirst hkind hone] at hno
  · obtain ⟨r, hr, hbad⟩ := List.any_eq_true.mp hbad
    simp only [Bool.and_eq_true, Bool.or_eq_true, decide_eq_true_eq, Bool.not_eq_true'] at hbad
    obtain ⟨⟨-, hnewest⟩, ⟨hkind, hsome⟩ | ⟨hkind, hno⟩⟩ := hbad
    · rw [removed_absent h hr hkind hnewest] at hsome
      cases hsome
    · rw [waiting_agrees h hr hkind hnewest] at hno
      cases hno

/-- With no delivery every user entry opens its run. -/
theorem validateSteeringDelivery_ok (h : Prompted s) : validateSteeringDelivery s = .ok () := by
  rw [validateSteeringDelivery, require_ok]
  intro hbad
  obtain ⟨e, he, hbad⟩ := List.any_eq_true.mp hbad
  obtain ⟨huser, hbad⟩ := (Bool.and_eq_true _ _).mp hbad
  obtain ⟨f, hf, hbad⟩ := List.any_eq_true.mp hbad
  simp only [Bool.and_eq_true, decide_eq_true_eq] at hbad
  exact hbad.2 (h e he huser f hf hbad.1).symm

theorem validateSteeringMutations_ok (h : Replayed s log) (hs : Sourced s log)
    (hregistered : Registered s) (hprompted : Prompted s) :
    validateSteeringMutations s = .ok () := by
  simp only [validateSteeringMutations, validateSteeringLifecycle, bind_ok]
  exact ⟨(), validateSteeringDelivery_ok hprompted, (), ⟨(), validateSteeringHistory_ok h hs,
    validateSteeringQueues_ok h⟩, (), validateSteeringMutationHistory_ok h hs hregistered,
    validateSteeringMutationProjection_ok h⟩

end Morons
