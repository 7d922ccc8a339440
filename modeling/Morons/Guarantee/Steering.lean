import Morons.Guarantee.SteeringChecks

/-!
# Steering queues and their history

In every store that operations reach the queues are consistent with the
recorded history, the startup checks accept it, and a rebuild from it gives
the same queues.
-/

namespace Morons

open Attempt Ledger

variable {s t : Store} {log newer older : List SteeringRecord} {sessionId : SessionId}

/-! ## Revisions and items -/

/-- The revision that a user sees: zero without a queue. -/
def queueRevision (s : Store) (sessionId : SessionId) : Nat :=
  ((loadSteeringQueue s sessionId).map (·.revision)).getD 0

/-- The messages of a session. -/
def sessionMessages (s : Store) (sessionId : SessionId) : List SteeringPendingMessage :=
  s.steeringPendingMessages.filter fun p => p.sessionId = sessionId

/-- The accepted edits of a message. -/
def acceptedEdits (s : Store) (p : SteeringPendingMessage) : Nat :=
  s.steeringMutationRequests.countP fun r =>
    r.sessionId = p.sessionId && r.changeKind = .edit && r.itemId = some p.itemId

/-- The items of a session are those of its queue. -/
theorem itemsOf_state (h : Replayed s log) (sessionId : SessionId) :
    itemsOf (steeringState s sessionId) = steeringItems s sessionId := by
  cases hq : loadSteeringQueue s sessionId with
  | some q =>
    rw [Steered.state_of_queue hq]
    rfl
  | none =>
    rw [steeringState, hq]
    refine (List.map_eq_nil_iff.mpr (List.filter_eq_nil_iff.mpr fun p hp hsession => ?_)).symm
    have hsome := h.owned p hp
    rw [of_decide_eq_true hsession, hq] at hsome
    cases hsome

theorem queueRevision_eq (h : Replayed s log) :
    queueRevision s sessionId = (ofSession sessionId log).length := by
  have hreplay := h.replay sessionId
  cases hq : loadSteeringQueue s sessionId with
  | none =>
    have hstate : steeringState s sessionId = none := by
      rw [steeringState, hq]
      rfl
    rw [queueRevision, hq, hreplay.nil_iff.mp hstate]
    rfl
  | some q =>
    rw [Steered.state_of_queue hq] at hreplay
    rw [queueRevision, hq]
    exact hreplay.revision_eq

/-- A session has as many records as receipts and lifecycle facts. -/
theorem records_count (h : Replayed s log) : (ofSession sessionId log).length =
    s.steeringMutationRequests.countP (fun r => r.sessionId = sessionId) +
      s.steeringLifecycleFacts.countP (fun f => f.sessionId = sessionId) := by
  calc (ofSession sessionId log).length
      = (log.map SteeringRecord.row).countP (fun r => r.sessionId = sessionId) := by
        rw [List.countP_map, ofSession, ← List.countP_eq_length_filter]
        rfl
    _ = (steeringHistory s).countP (fun r => r.sessionId = sessionId) :=
        ((history_perm h).countP_eq _).symm
    _ = _ := by
        rw [steeringHistory, List.countP_append, List.countP_map, List.countP_map]
        rfl

theorem sessionHistory_revisions (h : Replayed s log) :
    (sessionHistory s sessionId).map (·.queueRevision) =
      List.range' 1 (queueRevision s sessionId) := by
  rw [sessionHistory_eq h, ← List.map_reverse, List.map_map, queueRevision_eq h]
  exact (h.replay sessionId).revisions

/-- The history of a session ascends in numbers and revisions. -/
theorem sessionHistory_ascends (h : Replayed s log) :
    (sessionHistory s sessionId).Pairwise fun a b =>
      a.sequence < b.sequence ∧ a.queueRevision < b.queueRevision := by
  have hbelow : Below SteeringRecord.sequence s.nextValue (ofSession sessionId log) :=
    h.numbered.filter _
  have hsequences : (sessionHistory s sessionId).Pairwise fun a b => a.sequence < b.sequence := by
    rw [sessionHistory_eq h, List.pairwise_reverse, List.pairwise_map]
    exact hbelow.decreasing
  have hrevisions : (sessionHistory s sessionId).Pairwise fun a b =>
      a.queueRevision < b.queueRevision := by
    rw [← List.pairwise_map, sessionHistory_revisions h]
    exact List.pairwise_lt_range'
  exact hsequences.and hrevisions

/-- The revision of a message counts its edits. -/
theorem message_revision (h : Replayed s log) {p : SteeringPendingMessage}
    (hp : p ∈ s.steeringPendingMessages) : p.revision = 1 + acceptedEdits s p := by
  have hedits := (h.replay p.sessionId).edits p.item (message_item h hp)
  have hcount : acceptedEdits s p = (ofSession p.sessionId log).countP fun r =>
      r.receipt?.any fun e => e.changeKind = .edit && e.itemId = some p.itemId := by
    rw [acceptedEdits, ← h.receipts, List.countP_filterMap, ofSession, List.countP_filter]
    refine List.countP_congr fun r _ => ?_
    cases r with
    | receipt e =>
      have hsession : decide ((SteeringRecord.receipt e).row.sessionId = p.sessionId) =
        decide (e.sessionId = p.sessionId) := rfl
      simp only [SteeringRecord.receipt?, Option.any_some, hsession]
      simp [and_assoc, and_comm]
    | lifecycle f => simp [SteeringRecord.receipt?]
  rw [hcount]
  exact hedits

theorem messages_room (h : Replayed s log) : (sessionMessages s sessionId).length ≤ 16 := by
  have hroom := (h.replay sessionId).room
  rwa [itemsOf_state h, steeringItems, List.length_map] at hroom

/-- **The queues are consistent with their history**, and a change that fails is rolled back. -/
theorem steering_queue_consistent (h : Reachable Any s) (sessionId : SessionId) :
    queueRevision s sessionId =
        s.steeringMutationRequests.countP (fun r => r.sessionId = sessionId) +
          s.steeringLifecycleFacts.countP (fun f => f.sessionId = sessionId) ∧
      ((sessionHistory s sessionId).Pairwise fun a b =>
        a.sequence < b.sequence ∧ a.queueRevision < b.queueRevision) ∧
      (sessionHistory s sessionId).map (·.queueRevision) =
        List.range' 1 (queueRevision s sessionId) ∧
      (sessionMessages s sessionId).length ≤ 16 ∧
      ((sessionMessages s sessionId).map (·.slot)).Nodup ∧
      (∀ p ∈ sessionMessages s sessionId, 1 ≤ p.slot ∧ p.slot ≤ 16 ∧
        p.revision = 1 + acceptedEdits s p) ∧
      ∀ env mutation skills e t,
        transact s (mutateSteering env s mutation skills) = (.error e, t) → t = s := by
  obtain ⟨log, hsteered, -⟩ := h.rooted
  have hreplayed := hsteered.replayed
  refine ⟨(queueRevision_eq hreplayed).trans (records_count hreplayed),
    sessionHistory_ascends hreplayed, sessionHistory_revisions hreplayed, messages_room hreplayed,
    hsteered.distinct sessionId, fun p hp => ?_, fun _ _ _ _ _ => transact_error⟩
  have hp := List.mem_of_mem_filter hp
  obtain ⟨hlow, hhigh⟩ := hsteered.slots p hp
  exact ⟨hlow, hhigh, message_revision hreplayed hp⟩

/-- Two messages wait, one is rewritten, the queue is resumed and its run is cancelled. -/
def cancelledQueueSteps : List (Environment × Operation) :=
  createSession (.open 10) 1 "/work" ++ [submitInput (.open 10) 2 1 "go",
    (.open 10, .mutateSteering ⟨3, 1, 0, .enqueue 4 "then this"⟩ none),
    (.open 10, .mutateSteering ⟨4, 1, 1, .enqueue 4 "last"⟩ none),
    (.open 10, .mutateSteering ⟨5, 1, 2, .edit 8 1 "then that"⟩ none),
    (.open 10, .mutateSteering ⟨6, 1, 3, .resume 4⟩ none),
    (.open 10, .cancelRun 7 1 4)]

def cancelledQueue : Store := executed cancelledQueueSteps

theorem cancelledQueue_reachable : Reachable Any cancelledQueue :=
  reachable_executed_any (by decide +kernel)

theorem cancelledQueue_queue : loadSteeringQueue cancelledQueue 1 = some ⟨1, 4, 5, true⟩ := by
  decide +kernel

/-- The cancellation is the fifth revision. -/
theorem cancelled_queue_consistent :
    (sessionHistory cancelledQueue 1).map (·.queueRevision) = [1, 2, 3, 4, 5] ∧
      (sessionMessages cancelledQueue 1).length ≤ 16 := by
  obtain ⟨-, -, hrevisions, hroom, -⟩ := steering_queue_consistent cancelledQueue_reachable 1
  have hrevision : queueRevision cancelledQueue 1 = 5 := by
    rw [queueRevision, cancelledQueue_queue]
    rfl
  rw [hrevision] at hrevisions
  exact ⟨hrevisions, hroom⟩

/-! ## Rebuilding the queues -/

/-- A session with a record has a receipt that opened its queue. -/
theorem opened_of_record (h : Replayed s log) (hrecord : ofSession sessionId log ≠ []) :
    sessionId ∈ openedSessions s := by
  obtain ⟨newer, r, hsplit⟩ : ∃ newer r, ofSession sessionId log = newer ++ [r] :=
    ⟨_, _, (List.dropLast_append_getLast hrecord).symm⟩
  obtain ⟨q, st, before, advances, -⟩ := replay_split h hsplit
  obtain rfl : q = none := before.nil_iff.mpr rfl
  cases advances with
  | @enqueue _ r runId itemId text kind revision =>
    have hin : .receipt r ∈ ofSession sessionId log := by
      rw [hsplit]
      exact List.mem_append_right _ (List.mem_singleton_self _)
    obtain ⟨hlog, hsession⟩ := mem_ofSession.mp hin
    have hone : r.queueRevision = 1 := revision
    exact List.mem_map.mpr ⟨r, List.mem_filter.mpr ⟨(mem_receipts h).mpr hlog, by simp [hone]⟩,
      hsession⟩

/-- The sessions with a queue are those with an opening receipt. -/
theorem mem_openedSessions (h : Replayed s log) :
    sessionId ∈ openedSessions s ↔ (loadSteeringQueue s sessionId).isSome = true := by
  constructor
  · intro hin
    obtain ⟨r, hr, rfl⟩ := List.mem_map.mp hin
    obtain ⟨q, hq, -⟩ := queue_revision h (List.mem_of_mem_filter hr)
    rw [hq]
    rfl
  · intro hsome
    refine opened_of_record h fun hempty => ?_
    have hnone := (h.replay sessionId).nil_iff.mpr hempty
    obtain ⟨q, hq⟩ := Option.isSome_iff_exists.mp hsome
    rw [Steered.state_of_queue hq] at hnone
    cases hnone

theorem receipts_nodup (h : Replayed s log) : s.steeringMutationRequests.Nodup := by
  have hlog : log.Nodup := List.Nodup.of_map _ h.numbered.nodup
  rw [← h.receipts]
  refine hlog.filterMap fun a b r ha hb => ?_
  cases a <;> cases b <;> simp_all [SteeringRecord.receipt?]

/-- A queue is opened once. -/
theorem openedSessions_nodup (h : Replayed s log) : (openedSessions s).Nodup := by
  refine ((receipts_nodup h).filter _).map_on fun a ha b hb hsession => ?_
  obtain ⟨ha, hone⟩ := List.mem_filter.mp ha
  obtain ⟨hb, hone'⟩ := List.mem_filter.mp hb
  have hone : a.queueRevision = 1 := by simpa using hone
  have hone' : b.queueRevision = 1 := by simpa using hone'
  have hstaged : Staged (fun r' : SteeringRecord => r'.row.queueRevision)
      (ofSession b.sessionId log) := h.staged b.sessionId
  have hsame := hstaged.eq_of_rank (a := .receipt a) (b := .receipt b)
    (mem_ofSession.mpr ⟨(mem_receipts h).mp ha, hsession⟩)
    (mem_ofSession.mpr ⟨(mem_receipts h).mp hb, rfl⟩) (hone.trans hone'.symm)
  simpa using hsame

/-- The accepted fact of the run that a queue waits for. -/
theorem target_accepted (h : Replayed s log) (hs : Sourced s log) {q : SteeringQueue}
    (hq : loadSteeringQueue s sessionId = some q) :
    ∃ f ∈ s.runAcceptedFacts, f.sessionId = sessionId ∧ f.runId = q.targetRunId := by
  have htarget := (h.replay sessionId).receipt_target
  rw [Steered.state_of_queue hq] at htarget
  obtain ⟨before, r, after, hsplit, hr, -⟩ := List.findSome?_eq_some_iff.mp htarget
  cases r with
  | lifecycle f => cases hr
  | receipt r =>
    have hin : .receipt r ∈ ofSession sessionId log := by
      rw [hsplit]
      simp
    obtain ⟨hlog, hsession⟩ := mem_ofSession.mp hin
    obtain ⟨f, hf, hfsession, hrun, -⟩ := (hs.receipts r hlog).accepted q.targetRunId hr
    exact ⟨f, hf, hfsession.trans hsession, hrun⟩

theorem greatest_revision (h : Replayed s log) {q : SteeringQueue}
    (hq : loadSteeringQueue s sessionId = some q) :
    greatest SteeringHistoryRow.queueRevision
      ((steeringHistory s).filter fun r => r.sessionId = sessionId) = q.revision := by
  have hreplay := h.replay sessionId
  rw [Steered.state_of_queue hq] at hreplay
  have hlength : q.revision = (ofSession sessionId log).length := hreplay.revision_eq
  apply Nat.le_antisymm
  · refine greatest_le fun r hr => ?_
    obtain ⟨hr, hsession⟩ := List.mem_filter.mp hr
    obtain ⟨r, hlog, rfl⟩ := (mem_history h).mp hr
    obtain ⟨newer, older, hsplit⟩ := split_session hlog (of_decide_eq_true hsession)
    obtain ⟨_, _, -, -, hupto⟩ := replay_split h hsplit
    rw [hlength, hupto.queueRevision, hsplit, List.length_append, List.length_cons]
    omega
  · obtain ⟨r, rest, hsplit⟩ : ∃ r rest, ofSession sessionId log = r :: rest := by
      refine List.exists_cons_of_ne_nil fun hempty => ?_
      have hnone := (h.replay sessionId).nil_iff.mpr hempty
      rw [Steered.state_of_queue hq] at hnone
      cases hnone
    have hin : r ∈ ofSession sessionId log := by
      rw [hsplit]
      exact List.mem_cons_self ..
    obtain ⟨hlog, hsession⟩ := mem_ofSession.mp hin
    rw [hsplit] at hreplay hlength
    rw [hlength, List.length_cons, ← hreplay.queueRevision]
    exact le_greatest (List.mem_filter.mpr ⟨(mem_history h).mpr ⟨r, hlog, rfl⟩,
      decide_eq_true hsession⟩)

/-- The newest value of a column in the history of a session. -/
theorem latest_column (h : Replayed s log) (sessionId : SessionId) {Col : Type}
    (column : SteeringHistoryRow → Option Col) :
    (latest SteeringHistoryRow.sequence (((steeringHistory s).filter fun r =>
      r.sessionId = sessionId).filter fun r => (column r).isSome)).bind column =
      (ofSession sessionId log).findSome? fun r => column r.row := by
  have hprior : priorColumn s column sessionId s.nextValue = _ := priorColumn_eq h column s.nextValue
  rw [recordsBefore_next h] at hprior
  rw [← hprior, priorColumn, List.filter_filter]
  refine congrArg (fun rows => (latest SteeringHistoryRow.sequence rows).bind column)
    (List.filter_congr fun r hr => ?_)
  have hlt : r.sequence < s.nextValue :=
    (rows_below h).bounded r ((history_perm h).mem_iff.mp hr)
  simp [hlt, Bool.and_comm]

/-- A queue is rebuilt as it is. -/
theorem rebuiltQueue_ok (h : Replayed s log) {q : SteeringQueue}
    (hq : loadSteeringQueue s sessionId = some q) : rebuiltQueue s sessionId = .ok q := by
  have hreplay := h.replay sessionId
  have htarget := latest_column h sessionId SteeringHistoryRow.targetRunId
  have hpaused := latest_column h sessionId SteeringHistoryRow.paused
  rw [hreplay.target, Steered.state_of_queue hq] at htarget
  rw [hreplay.paused, Steered.state_of_queue hq] at hpaused
  simp only [rebuiltQueue, bind_ok, demand_ok, pure_ok]
  refine ⟨q.targetRunId, htarget, q.paused, hpaused, ?_⟩
  rw [greatest_revision h hq, ← Table.find_key hq]

/-- The store with other queues and messages. -/
def withSteering (s : Store) (queues : List SteeringQueue) (messages : List SteeringPendingMessage) :
    Store :=
  { s with steeringQueues := queues, steeringPendingMessages := messages }

/-- The queues of the sessions that are still to come are missing, the others are there. -/
structure QueuesRebuilt (s t : Store) (rest : List SessionId) : Prop where
  frame : t = withSteering s t.steeringQueues []
  keyed : Table.Keyed SteeringQueue.sessionId t.steeringQueues
  missing : ∀ sessionId ∈ rest, loadSteeringQueue t sessionId = none
  present : ∀ sessionId, sessionId ∉ rest → loadSteeringQueue t sessionId =
    loadSteeringQueue s sessionId
  nodup : rest.Nodup
  opened : ∀ sessionId ∈ rest, (loadSteeringQueue s sessionId).isSome = true

theorem queues_rebuilt (h : Replayed s log) (hs : Sourced s log) :
    ∃ t, sweep insertRebuiltQueue (withSteering s [] []) (openedSessions s) = .ok t ∧
      QueuesRebuilt s t [] := by
  refine sweep_succeeds _ (QueuesRebuilt s) ?_ _ _ ?_
  · intro t sessionId rest hbefore
    obtain ⟨hhead, htail⟩ := List.nodup_cons.mp hbefore.nodup
    obtain ⟨q, hq⟩ := Option.isSome_iff_exists.mp (hbefore.opened sessionId (List.mem_cons_self ..))
    have hsession : q.sessionId = sessionId := Table.find_key hq
    have hmissing := hbefore.missing sessionId (List.mem_cons_self ..)
    obtain ⟨f, hf, hfsession, hrun⟩ := target_accepted h hs hq
    refine ⟨{ t with steeringQueues := q :: t.steeringQueues }, ?_, ?_⟩
    · have hrebuilt : rebuiltQueue t sessionId = .ok q := by
        rw [hbefore.frame]
        exact rebuiltQueue_ok h hq
      have haccepted : (t.runAcceptedFacts.any fun f =>
          f.sessionId = sessionId && f.runId = q.targetRunId) = true := by
        rw [hbefore.frame]
        exact List.any_eq_true.mpr ⟨f, hf, by simp [hfsession, hrun]⟩
      simp only [insertRebuiltQueue, bind_ok, require_ok, pure_ok, exists_const]
      exact ⟨q, hrebuilt, by rw [hmissing]; rfl, haccepted, rfl⟩
    · have hload : ∀ other, loadSteeringQueue { t with steeringQueues := q :: t.steeringQueues }
          other = if sessionId = other then some q else loadSteeringQueue t other := by
        intro other
        rw [← hsession]
        exact Table.find_cons
      refine ⟨?_, ?_, ?_, ?_, htail, fun other ho => hbefore.opened other (List.mem_cons_of_mem _ ho)⟩
      · conv_lhs => rw [hbefore.frame]
        rfl
      · refine List.nodup_cons.mpr ⟨fun hin => ?_, hbefore.keyed⟩
        obtain ⟨q', hq', heq⟩ := List.mem_map.mp hin
        exact Table.find_none.mp hmissing q' hq' (heq.trans hsession)
      · intro other ho
        have hne : sessionId ≠ other := fun e => hhead (e ▸ ho)
        rw [hload, if_neg hne]
        exact hbefore.missing other (List.mem_cons_of_mem _ ho)
      · intro other ho
        rw [hload]
        split
        · rename_i e
          rw [← e, hq]
        · rename_i hne
          exact hbefore.present other fun hin =>
            (List.mem_cons.mp hin).elim (fun e => hne e.symm) ho
  · refine ⟨rfl, List.nodup_nil, fun _ _ => rfl, fun sessionId hno => ?_, openedSessions_nodup h,
      fun sessionId hin => (mem_openedSessions h).mp hin⟩
    have hnone := fun hsome => hno ((mem_openedSessions h).mpr hsome)
    exact (Option.not_isSome_iff_eq_none.mp hnone).symm

/-! ## Rebuilding the messages -/

/-- The item that a newest receipt and an enqueue make. -/
def rebuiltItem (r : SteeringMutationRequest × SteeringMutationRequest) : SteeringItem where
  itemId := r.1.itemId.getD 0
  enqueueSequence := r.2.acceptedSequence
  revision := r.1.itemRevision.getD 0
  text := r.1.text.getD ""
  createdAtMilliseconds := r.2.acceptedAtMilliseconds

theorem mem_waitingReceipts (h : Replayed s log)
    {r : SteeringMutationRequest × SteeringMutationRequest} :
    r ∈ waitingReceipts s sessionId ↔ ∃ itemId,
      r.1.itemId = some itemId ∧ newestOf (ofSession sessionId log) itemId = some (.receipt r.1) ∧
      (r.1.changeKind = .enqueue ∨ r.1.changeKind = .edit) ∧
      .receipt r.2 ∈ ofSession sessionId log ∧ r.2.itemId = some itemId ∧
      r.2.changeKind = .enqueue := by
  obtain ⟨l, e⟩ := r
  simp only [waitingReceipts, List.mem_flatMap, List.mem_filter, List.mem_map, Bool.and_eq_true,
    Bool.or_eq_true, decide_eq_true_eq, SteeringMutationRequest.ofItem]
  constructor
  · rintro ⟨l', ⟨hl, ⟨hsession, hkind⟩, hnewest⟩, e', ⟨he, ⟨hesession, hsome, hitem⟩, hekind⟩, heq⟩
    obtain ⟨rfl, rfl⟩ := Prod.mk.inj heq
    obtain ⟨itemId, hid⟩ := Option.isSome_iff_exists.mp hsome
    have hlid : l'.itemId = some itemId := hitem.symm.trans hid
    have hself := newest_of_item h hl hlid hnewest
    rw [hsession] at hself
    exact ⟨itemId, hlid, hself, hkind, mem_ofSession.mpr ⟨(mem_receipts h).mp he,
      hesession.trans hsession⟩, hid, hekind⟩
  · rintro ⟨itemId, hlid, hself, hkind, he, hid, hekind⟩
    have hl : .receipt l ∈ ofSession sessionId log := List.mem_of_find?_eq_some hself
    obtain ⟨hllog, hlsession⟩ := mem_ofSession.mp hl
    obtain ⟨helog, hesession⟩ := mem_ofSession.mp he
    have hlsession : l.sessionId = sessionId := hlsession
    have hesession : e.sessionId = sessionId := hesession
    refine ⟨l, ⟨(mem_receipts h).mpr hllog, ⟨hlsession, hkind⟩, ?_⟩, e,
      ⟨(mem_receipts h).mpr helog, ⟨hesession.trans hlsession.symm, by rw [hid]; rfl,
        hid.trans hlid.symm⟩, hekind⟩, rfl⟩
    simp only [newestReceipt, Bool.not_eq_true', List.any_eq_false]
    intro r' hr' hbad
    simp only [Bool.and_eq_true, decide_eq_true_eq, SteeringMutationRequest.ofItem] at hbad
    obtain ⟨⟨hsession, -, hitem⟩, hlt⟩ := hbad
    have hin : .receipt r' ∈ (ofSession sessionId log).filter fun r =>
        decide (r.itemId = some itemId) :=
      List.mem_filter.mpr ⟨mem_ofSession.mpr ⟨(mem_receipts h).mp hr', hsession.trans hlsession⟩,
        decide_eq_true (hitem.trans hlid)⟩
    have hbelow : Below SteeringRecord.sequence s.nextValue (ofSession sessionId log) :=
      h.numbered.filter _
    have hlatest := hbelow.latest_filter fun r => decide (r.itemId = some itemId)
    rw [← newestOf, hself] at hlatest
    exact absurd (List.le_of_mem_argmax hin hlatest) (Nat.not_le.mpr hlt)

/-- A newest receipt with its enqueue makes an item that waits. -/
theorem rebuiltItem_waits (h : Replayed s log)
    {r : SteeringMutationRequest × SteeringMutationRequest} (hr : r ∈ waitingReceipts s sessionId) :
    rebuiltItem r ∈ itemsOf (steeringState s sessionId) ∧
      rebuiltMessage (r, 0) = some ⟨(rebuiltItem r).itemId, sessionId, 0,
        (rebuiltItem r).enqueueSequence, (rebuiltItem r).revision, (rebuiltItem r).text,
        (rebuiltItem r).createdAtMilliseconds⟩ := by
  obtain ⟨itemId, hlid, hself, hkind, he, hid, hekind⟩ := (mem_waitingReceipts h).mp hr
  have hreplay := h.replay sessionId
  obtain ⟨i, hi, hitem⟩ := hreplay.newest_waits hself hkind
  obtain ⟨⟨e, he', hekind', heid', hsequence, hclock⟩, l, hl, -, hrevision, htext⟩ :=
    (hreplay.waiting i).mp hi
  have hsame : e = r.2 :=
    hreplay.enqueue_unique he' he hekind' hekind (heid'.trans ((congrArg some hitem).trans hid.symm))
  have hnewest : l = r.1 := by
    rw [hitem, hself] at hl
    simpa using hl.symm
  rw [hnewest] at hrevision htext
  rw [hsame] at hsequence hclock
  have hrebuilt : rebuiltItem r = i := by
    cases i
    simp_all [rebuiltItem]
  refine ⟨hrebuilt ▸ hi, ?_⟩
  have hl : .receipt r.1 ∈ ofSession sessionId log := List.mem_of_find?_eq_some hself
  have hsession : r.1.sessionId = sessionId := (mem_ofSession.mp hl).2
  simp only [rebuiltMessage, rebuiltItem, hlid, hrevision, htext, hsession]
  rfl

/-- **The receipts that wait make the items of the queue.** -/
theorem waitingReceipts_perm (h : Replayed s log) :
    ((waitingReceipts s sessionId).map rebuiltItem).Perm (itemsOf (steeringState s sessionId)) := by
  have hreplay := h.replay sessionId
  have hbelow : Below SteeringRecord.sequence s.nextValue (ofSession sessionId log) :=
    h.numbered.filter _
  have hreceipts : s.steeringMutationRequests.Nodup := receipts_nodup h
  have hpairs : (waitingReceipts s sessionId).Nodup := by
    refine List.nodup_flatMap.mpr ⟨fun r _ => ?_, ?_⟩
    · exact (hreceipts.filter _).map fun a b e => (Prod.mk.inj e).2
    · refine (hreceipts.filter _).imp fun {a b} hne => ?_
      rintro ⟨l, e⟩ ha hb
      obtain ⟨_, -, heq⟩ := List.mem_map.mp ha
      obtain ⟨_, -, heq'⟩ := List.mem_map.mp hb
      exact hne ((Prod.mk.inj heq).1.trans (Prod.mk.inj heq').1.symm)
  have hnodup : ((waitingReceipts s sessionId).map rebuiltItem).Nodup := by
    refine hpairs.map_on fun a ha b hb heq => ?_
    obtain ⟨itemId, hlid, hself, -, he, hid, hekind⟩ := (mem_waitingReceipts h).mp ha
    obtain ⟨itemId', hlid', hself', -, he', hid', hekind'⟩ := (mem_waitingReceipts h).mp hb
    have hitem : itemId = itemId' := by
      have hcolumn := congrArg SteeringItem.itemId heq
      simpa [rebuiltItem, hlid, hlid'] using hcolumn
    subst hitem
    refine Prod.ext ?_ (hreplay.enqueue_unique he he' hekind hekind' (hid.trans hid'.symm))
    rw [hself] at hself'
    simpa using hself'
  refine (List.perm_ext_iff_of_nodup hnodup ?_).mpr fun i => ?_
  · exact List.Nodup.of_map _ (hreplay.items_below hbelow).2
  · constructor
    · intro hi
      obtain ⟨r, hr, rfl⟩ := List.mem_map.mp hi
      exact (rebuiltItem_waits h hr).1
    · intro hi
      obtain ⟨⟨e, he, hekind, hid, hsequence, hclock⟩, l, hl, hkind, hrevision, htext⟩ :=
        (hreplay.waiting i).mp hi
      have hchosen := hl
      rw [newestOf] at hchosen
      have hmatches := List.find?_some hchosen
      have hlid : l.itemId = some i.itemId := of_decide_eq_true hmatches
      refine List.mem_map.mpr ⟨(l, e), (mem_waitingReceipts h).mpr ⟨i.itemId, hlid, hl, hkind, he,
        hid, hekind⟩, ?_⟩
      cases i
      simp_all [rebuiltItem]

/-- The message of an item in a slot. -/
def slotted (sessionId : SessionId) (i : SteeringItem × Nat) : SteeringPendingMessage :=
  ⟨i.1.itemId, sessionId, i.2, i.1.enqueueSequence, i.1.revision, i.1.text,
    i.1.createdAtMilliseconds⟩

/-- The messages that a rebuild gives a session: its items in order, numbered from one. -/
def slottedItems (s : Store) (sessionId : SessionId) : List SteeringPendingMessage :=
  ((itemsOf (steeringState s sessionId)).reverse.zipIdx 1).map (slotted sessionId)

theorem rebuilt_items (h : Replayed s log) :
    (ordered (fun r : SteeringMutationRequest × SteeringMutationRequest => r.2.acceptedSequence)
      (waitingReceipts s sessionId)).map rebuiltItem =
      (itemsOf (steeringState s sessionId)).reverse := by
  have hbelow : Below SteeringRecord.sequence s.nextValue (ofSession sessionId log) :=
    h.numbered.filter _
  have hitems := ((h.replay sessionId).items_below hbelow).1
  refine hitems.sorted_perm (List.pairwise_map.mpr (ordered_sorted _)) ?_
  exact ((List.mergeSort_perm _ _).map rebuiltItem).trans (waitingReceipts_perm h)

theorem numberedReceipts_messages (h : Replayed s log) :
    ∀ r ∈ numberedReceipts s sessionId,
      rebuiltMessage r = some (slotted sessionId (rebuiltItem r.1, r.2)) := by
  rintro ⟨r, n⟩ hr
  have hin : r ∈ waitingReceipts s sessionId :=
    (List.mergeSort_perm _ _).mem_iff.mp (List.fst_mem_of_mem_zipIdx hr)
  obtain ⟨-, hmessage⟩ := rebuiltItem_waits h hin
  simp only [rebuiltMessage, Option.bind_eq_bind, Option.bind_eq_some_iff] at hmessage ⊢
  obtain ⟨itemId, hid, revision, hrevision, text, htext, heq⟩ := hmessage
  refine ⟨itemId, hid, revision, hrevision, text, htext, ?_⟩
  simp_all [slotted]

theorem numberedReceipts_eq (h : Replayed s log) :
    (numberedReceipts s sessionId).map (fun r => slotted sessionId (rebuiltItem r.1, r.2)) =
      slottedItems s sessionId := by
  rw [slottedItems, ← rebuilt_items h, List.zipIdx_map, List.map_map]
  rfl

/-- Messages that the constraints of their table tell apart. -/
def Apart (p q : SteeringPendingMessage) : Prop :=
  p.itemId ≠ q.itemId ∧ (p.sessionId = q.sessionId →
    p.slot ≠ q.slot ∧ p.enqueueSequence ≠ q.enqueueSequence)

theorem Apart.symm {p q : SteeringPendingMessage} (h : Apart p q) : Apart q p :=
  ⟨h.1.symm, fun hsession => ⟨(h.2 hsession.symm).1.symm, (h.2 hsession.symm).2.symm⟩⟩

/-- Messages of known queues in free slots are inserted one after another. -/
theorem messages_inserted {rs : List ((SteeringMutationRequest × SteeringMutationRequest) × Nat)}
    {ms : List SteeringPendingMessage}
    (hms : List.Forall₂ (fun r p => rebuiltMessage r = some p) rs ms)
    (hslots : ∀ p ∈ ms, 1 ≤ p.slot ∧ p.slot ≤ 16)
    (hqueues : ∀ p ∈ ms, (loadSteeringQueue s p.sessionId).isSome = true)
    (hapart : (ms.reverse ++ s.steeringPendingMessages).Pairwise Apart) :
    sweep insertRebuiltMessage s rs =
      .ok { s with steeringPendingMessages := ms.reverse ++ s.steeringPendingMessages } := by
  induction hms generalizing s with
  | nil => rfl
  | @cons r p rs ms hr hms ih =>
    rw [List.reverse_cons, List.append_assoc, List.singleton_append] at hapart ⊢
    have hsplit := List.pairwise_append.mp hapart
    have hfresh : ∀ q ∈ s.steeringPendingMessages, Apart p q :=
      (List.pairwise_cons.mp hsplit.2.1).1
    have hinsert : insertRebuiltMessage s r =
        .ok { s with steeringPendingMessages := p :: s.steeringPendingMessages } := by
      simp only [insertRebuiltMessage, bind_ok, demand_ok, require_ok, pure_ok, exists_const]
      refine ⟨p, hr, hqueues p (List.mem_cons_self ..), hslots p (List.mem_cons_self ..),
        fun q hq => ⟨(hfresh q hq).1.symm, fun hsession => ?_⟩, rfl⟩
      obtain ⟨hslot, hsequence⟩ := (hfresh q hq).2 hsession.symm
      exact ⟨hslot.symm, hsequence.symm⟩
    rw [sweep_cons_ok]
    exact ⟨_, hinsert, ih (fun q hq => hslots q (List.mem_cons_of_mem _ hq))
      (fun q hq => hqueues q (List.mem_cons_of_mem _ hq)) hapart⟩

theorem slottedItems_items : (slottedItems s sessionId).map (·.item) =
    (itemsOf (steeringState s sessionId)).reverse := by
  rw [slottedItems, List.map_map]
  conv_rhs => rw [← List.zipIdx_map_fst 1 (itemsOf (steeringState s sessionId)).reverse]
  rfl

theorem mem_slottedItems (h : Replayed s log) {p : SteeringPendingMessage}
    (hp : p ∈ slottedItems s sessionId) :
    p.sessionId = sessionId ∧ p.item ∈ itemsOf (steeringState s sessionId) ∧
      1 ≤ p.slot ∧ p.slot ≤ 16 := by
  have hitem : p.item ∈ (slottedItems s sessionId).map (·.item) := List.mem_map.mpr ⟨p, hp, rfl⟩
  rw [slottedItems_items, List.mem_reverse] at hitem
  obtain ⟨⟨i, n⟩, hi, rfl⟩ := List.mem_map.mp hp
  obtain ⟨hlow, hhigh, -⟩ := List.mem_zipIdx hi
  have hroom : (itemsOf (steeringState s sessionId)).length ≤ 16 := (h.replay sessionId).room
  rw [List.length_reverse] at hhigh
  refine ⟨rfl, hitem, hlow, ?_⟩
  show n ≤ 16
  omega

theorem slottedItems_apart (h : Replayed s log) : (slottedItems s sessionId).Pairwise Apart := by
  have hbelow : Below SteeringRecord.sequence s.nextValue (ofSession sessionId log) :=
    h.numbered.filter _
  obtain ⟨hitems, hids⟩ := (h.replay sessionId).items_below hbelow
  have hsequences := List.pairwise_reverse.mpr hitems.decreasing
  have hdistinct := List.pairwise_reverse.mpr (List.pairwise_map.mp hids)
  rw [List.pairwise_iff_getElem] at hsequences hdistinct
  rw [List.pairwise_iff_getElem]
  intro i j hi hj hlt
  simp only [slottedItems, List.length_map, List.length_zipIdx] at hi hj
  have hsequence := hsequences i j hi hj hlt
  have hid := hdistinct i j hi hj hlt
  simp only [slottedItems, List.getElem_map, List.getElem_zipIdx]
  refine ⟨fun heq => hid heq.symm, fun _ => ⟨?_, fun heq => ?_⟩⟩
  · show 1 + i ≠ 1 + j
    omega
  · have heq : (itemsOf (steeringState s sessionId)).reverse[i].enqueueSequence =
      (itemsOf (steeringState s sessionId)).reverse[j].enqueueSequence := heq
    omega

/-- The messages that a rebuild inserts. -/
def rebuiltMessages (s : Store) : List SteeringPendingMessage :=
  (openedSessions s).flatMap (slottedItems s)

theorem rebuiltMessages_apart (h : Steered s log) : (rebuiltMessages s).Pairwise Apart := by
  refine List.pairwise_flatMap.mpr ⟨fun _ _ => slottedItems_apart h.replayed, ?_⟩
  refine (openedSessions_nodup h.replayed).imp fun {a b} hne p hp q hq => ?_
  obtain ⟨hsession, hitem, -⟩ := mem_slottedItems h.replayed hp
  obtain ⟨hsession', hitem', -⟩ := mem_slottedItems h.replayed hq
  refine ⟨fun hid => ?_, fun heq => absurd (hsession.symm.trans (heq.trans hsession')) hne⟩
  obtain ⟨p', hp', howner, hsame⟩ := item_message hitem
  obtain ⟨q', hq', howner', hsame'⟩ := item_message hitem'
  have hids : p'.itemId = q'.itemId := by
    have hleft : p'.itemId = p.itemId := congrArg SteeringItem.itemId hsame
    have hright : q'.itemId = q.itemId := congrArg SteeringItem.itemId hsame'
    rw [hleft, hright, hid]
  have hrow : p' = q' := h.pending.eq_of_seq hp' hq' hids
  rw [hrow] at howner
  exact hne (howner.symm.trans howner')

theorem rebuiltMessages_items (h : Replayed s log) :
    ((rebuiltMessages s).reverse.filter fun p => p.sessionId = sessionId).map (·.item) =
      itemsOf (steeringState s sessionId) := by
  have hkeys : ∀ other, ∀ p ∈ slottedItems s other, p.sessionId = other :=
    fun other p hp => (mem_slottedItems h hp).1
  rw [List.filter_reverse, List.map_reverse, rebuiltMessages,
    Table.filter_flatMap_key (openedSessions_nodup h) hkeys]
  split
  · rw [slottedItems_items, List.reverse_reverse]
  · rename_i hnot
    rw [mem_openedSessions h, Bool.not_eq_true, Option.isSome_eq_false_iff,
      Option.isNone_iff_eq_none] at hnot
    rw [steeringState, hnot]
    rfl

/-! ## The rebuilt store -/

/-- A store with the same queues and items; slots may differ. -/
structure Rebuilt (s t : Store) : Prop where
  frame : t = withSteering s t.steeringQueues t.steeringPendingMessages
  keyed : Table.Keyed SteeringQueue.sessionId t.steeringQueues
  owned : ∀ p ∈ t.steeringPendingMessages, (loadSteeringQueue t p.sessionId).isSome
  queue : ∀ sessionId, loadSteeringQueue t sessionId = loadSteeringQueue s sessionId
  items : ∀ sessionId, steeringItems t sessionId = steeringItems s sessionId

/-- What a rebuild deletes is all there is. -/
theorem cleared (h : Replayed s log) :
    { s with
      steeringPendingMessages := s.steeringPendingMessages.filter fun p =>
        p.sessionId ∉ openedSessions s
      steeringQueues := s.steeringQueues.filter fun q => q.sessionId ∉ openedSessions s } =
      withSteering s [] [] := by
  have hqueues : (s.steeringQueues.filter fun q => q.sessionId ∉ openedSessions s) = [] := by
    refine List.filter_eq_nil_iff.mpr fun q hq => ?_
    have hload : loadSteeringQueue s q.sessionId = some q := Table.find_of_mem h.queues hq
    simpa using (mem_openedSessions h).mpr (by rw [hload]; rfl)
  have hmessages : (s.steeringPendingMessages.filter fun p =>
      p.sessionId ∉ openedSessions s) = [] := by
    refine List.filter_eq_nil_iff.mpr fun p hp => ?_
    simpa using (mem_openedSessions h).mpr (h.owned p hp)
  rw [hqueues, hmessages]
  rfl

/-- The numbered receipts make the messages of the opened sessions. -/
theorem numberedReceipts_rebuilt (h : Replayed s log) (sessions : List SessionId) :
    List.Forall₂ (fun r p => rebuiltMessage r = some p) (sessions.flatMap (numberedReceipts s))
      (sessions.flatMap (slottedItems s)) := by
  have hsession : ∀ sessionId, List.Forall₂ (fun r p => rebuiltMessage r = some p)
      (numberedReceipts s sessionId) (slottedItems s sessionId) := by
    intro sessionId
    rw [← numberedReceipts_eq h, List.forall₂_map_right_iff, List.forall₂_same]
    exact numberedReceipts_messages h
  induction sessions with
  | nil => exact .nil
  | cons sessionId sessions ih => exact List.rel_append (hsession sessionId) ih

/-- **A rebuild brings the queues back.** -/
theorem rebuildSteering_ok (h : Steered s log) (hs : Sourced s log) :
    ∃ t, rebuildSteering s = .ok t ∧ Rebuilt s t := by
  have hreplayed := h.replayed
  obtain ⟨u, hsweep, hqueues⟩ := queues_rebuilt hreplayed hs
  have hload : ∀ sessionId, loadSteeringQueue u sessionId = loadSteeringQueue s sessionId :=
    fun sessionId => hqueues.present sessionId (List.not_mem_nil)
  have hframe := hqueues.frame
  have hpending : u.steeringPendingMessages = [] := by rw [hframe]; rfl
  have hmembers : ∀ p ∈ rebuiltMessages s, p.sessionId ∈ openedSessions s ∧
      1 ≤ p.slot ∧ p.slot ≤ 16 := by
    intro p hp
    obtain ⟨sessionId, hin, hp⟩ := List.mem_flatMap.mp hp
    obtain ⟨hsession, -, hslot⟩ := mem_slottedItems hreplayed hp
    exact ⟨hsession ▸ hin, hslot⟩
  have hknown : ∀ p ∈ rebuiltMessages s, (loadSteeringQueue u p.sessionId).isSome = true := by
    intro p hp
    rw [hload]
    exact (mem_openedSessions hreplayed).mp (hmembers p hp).1
  have hnumbered : numberedReceipts u = numberedReceipts s := by
    rw [hframe]
    rfl
  have hapart : ((rebuiltMessages s).reverse ++ u.steeringPendingMessages).Pairwise Apart := by
    rw [hpending, List.append_nil]
    exact List.pairwise_reverse.mpr ((rebuiltMessages_apart h).imp Apart.symm)
  have hinserted : sweep insertRebuiltMessage u ((openedSessions s).flatMap (numberedReceipts s)) =
      .ok { u with steeringPendingMessages := (rebuiltMessages s).reverse ++
        u.steeringPendingMessages } :=
    messages_inserted (numberedReceipts_rebuilt hreplayed (openedSessions s))
      (fun p hp => (hmembers p hp).2) hknown hapart
  rw [hpending, List.append_nil] at hinserted
  refine ⟨{ u with steeringPendingMessages := (rebuiltMessages s).reverse }, ?_, ?_, hqueues.keyed,
    fun p hp => hknown p (List.mem_reverse.mp hp), hload, fun sessionId => ?_⟩
  · simp only [rebuildSteering, bind_ok]
    refine ⟨u, ?_, ?_⟩
    · rw [cleared hreplayed]
      exact hsweep
    · rw [(openedSessions_nodup hreplayed).dedup, hnumbered]
      exact hinserted
  · conv_lhs => rw [hframe]
    rfl
  · rw [← itemsOf_state hreplayed, ← rebuiltMessages_items hreplayed]
    rfl

theorem Rebuilt.state (h : Rebuilt s t) (sessionId : SessionId) :
    steeringState t sessionId = steeringState s sessionId := by
  rw [steeringState, steeringState, h.queue, h.items]

theorem Rebuilt.replayed (h : Rebuilt s t) (hs : Replayed s log) : Replayed t log where
  receipts := by
    rw [h.frame]
    exact hs.receipts
  facts := by
    rw [h.frame]
    exact hs.facts
  numbered := by
    rw [h.frame]
    exact hs.numbered
  queues := h.keyed
  replay sessionId := by
    rw [h.state]
    exact hs.replay sessionId
  owned := h.owned

theorem Rebuilt.sourced (h : Rebuilt s t) (hs : Sourced s log) : Sourced t log := by
  rw [h.frame]
  exact { hs with receipts := fun r hr => { hs.receipts r hr with } }

theorem Rebuilt.registered (h : Rebuilt s t) (hs : Registered s) : Registered t := by
  rw [h.frame]
  exact { hs with }

theorem Rebuilt.prompted (h : Rebuilt s t) (hs : Prompted s) : Prompted t := by
  rw [h.frame]
  exact hs

/-- **The recorded history replays to the live queues.** -/
theorem steering_history_replays (h : Reachable Any s) :
    validateSteeringHistory s = .ok () ∧ validateSteeringMutationHistory s = .ok () ∧
      validateSteeringCapacityHistory s = .ok () ∧
      ∃ t, rebuildSteering s = .ok t ∧ validateSteeringMutations t = .ok () ∧
        t = withSteering s t.steeringQueues t.steeringPendingMessages ∧
        ∀ sessionId, loadSteeringQueue t sessionId = loadSteeringQueue s sessionId ∧
          steeringItems t sessionId = steeringItems s sessionId := by
  obtain ⟨log, hsteered, hsourced⟩ := h.rooted
  have hreplayed := hsteered.replayed
  obtain ⟨t, hrebuild, hrebuilt⟩ := rebuildSteering_ok hsteered hsourced
  refine ⟨validateSteeringHistory_ok hreplayed hsourced,
    validateSteeringMutationHistory_ok hreplayed hsourced h.sound.registered,
    validateSteeringCapacityHistory_ok hreplayed, t, hrebuild, ?_, hrebuilt.frame,
    fun sessionId => ⟨hrebuilt.queue sessionId, hrebuilt.items sessionId⟩⟩
  exact validateSteeringMutations_ok (hrebuilt.replayed hreplayed) (hrebuilt.sourced hsourced)
    (hrebuilt.registered h.sound.registered) (hrebuilt.prompted h.sound.prompted)

/-- The stopped queue is rebuilt. -/
theorem cancelled_queue_replays : ∃ t, rebuildSteering cancelledQueue = .ok t ∧
    validateSteeringMutations t = .ok () ∧ loadSteeringQueue t 1 = some ⟨1, 4, 5, true⟩ := by
  obtain ⟨-, -, -, t, hrebuild, hvalid, -, hsame⟩ :=
    steering_history_replays cancelledQueue_reachable
  exact ⟨t, hrebuild, hvalid, (hsame 1).1.trans cancelledQueue_queue⟩

end Morons
