import Morons.Steering.Queue
import Morons.Write.Blocks
import Mathlib.Data.List.Perm.Subperm

/-!
# The history of the steering queues

The receipts and the lifecycle facts are one history, in the order of their
numbers, and the queue of every session is the one that its part of the
history leaves.
-/

namespace Morons

open Attempt Ledger

variable {d : Discipline} {s t : Store} {log : List SteeringRecord}

/-! ## The queue of a session -/

def SteeringPendingMessage.item (p : SteeringPendingMessage) : SteeringItem :=
  ⟨p.itemId, p.enqueueSequence, p.revision, p.text, p.createdAtMilliseconds⟩

def steeringItems (s : Store) (sessionId : SessionId) : List SteeringItem :=
  (s.steeringPendingMessages.filter fun p => p.sessionId = sessionId).map (·.item)

def steeringState (s : Store) (sessionId : SessionId) : Option SteeringState :=
  (loadSteeringQueue s sessionId).map fun q =>
    ⟨q.targetRunId, q.revision, q.paused, steeringItems s sessionId⟩

/-- The part of a history that belongs to a session. -/
def ofSession (sessionId : SessionId) (log : List SteeringRecord) : List SteeringRecord :=
  log.filter fun r => r.row.sessionId = sessionId

theorem ofSession_cons_self {sessionId : SessionId} {r : SteeringRecord}
    (h : r.row.sessionId = sessionId) : ofSession sessionId (r :: log) = r :: ofSession sessionId log :=
  List.filter_cons_of_pos (by simpa using h)

theorem ofSession_cons_ne {sessionId : SessionId} {r : SteeringRecord}
    (h : r.row.sessionId ≠ sessionId) : ofSession sessionId (r :: log) = ofSession sessionId log :=
  List.filter_cons_of_neg (by simpa using h)

structure Steered (s : Store) (log : List SteeringRecord) : Prop where
  receipts : log.filterMap SteeringRecord.receipt? = s.steeringMutationRequests
  facts : log.filterMap SteeringRecord.lifecycle? = s.steeringLifecycleFacts
  numbered : Below SteeringRecord.sequence s.nextValue log
  queues : Table.Keyed SteeringQueue.sessionId s.steeringQueues
  replay : ∀ sessionId, Replay (ofSession sessionId log) (steeringState s sessionId)
  pending : Below SteeringPendingMessage.itemId s.nextIdentifier s.steeringPendingMessages
  owned : ∀ p ∈ s.steeringPendingMessages, (loadSteeringQueue s p.sessionId).isSome
  slots : ∀ p ∈ s.steeringPendingMessages, 1 ≤ p.slot ∧ p.slot ≤ maxSteeringItems
  distinct : ∀ sessionId, ((s.steeringPendingMessages.filter fun p =>
    p.sessionId = sessionId).map (·.slot)).Nodup
  items : ∀ r ∈ log, ∀ itemId, r.itemId = some itemId → itemId < s.nextIdentifier

theorem steered_empty : Steered Store.empty [] where
  receipts := rfl
  facts := rfl
  numbered := below_nil
  queues := List.nodup_nil
  replay _ := Replay.nil
  pending := below_nil
  owned := by simp [Store.empty]
  slots := by simp [Store.empty]
  distinct _ := List.nodup_nil
  items := by simp

namespace Steered

/-- The steering tables stay, the counters go on. -/
theorem kept (h : Steered s log) (hsteering : t.toSteeringTables = s.toSteeringTables)
    (hn : s.nextValue ≤ t.nextValue) (hi : s.nextIdentifier ≤ t.nextIdentifier) :
    Steered t log := by
  have hqueues : t.steeringQueues = s.steeringQueues :=
    congrArg SteeringTables.steeringQueues hsteering
  have hpending : t.steeringPendingMessages = s.steeringPendingMessages :=
    congrArg SteeringTables.steeringPendingMessages hsteering
  have hstate : ∀ sessionId, steeringState t sessionId = steeringState s sessionId := by
    intro sessionId
    rw [steeringState, steeringState, loadSteeringQueue, loadSteeringQueue, steeringItems,
      steeringItems, hqueues, hpending]
  exact
    { receipts := h.receipts.trans (congrArg SteeringTables.steeringMutationRequests hsteering).symm
      facts := h.facts.trans (congrArg SteeringTables.steeringLifecycleFacts hsteering).symm
      numbered := h.numbered.mono hn
      queues := hqueues ▸ h.queues
      replay := fun sessionId => hstate sessionId ▸ h.replay sessionId
      pending := hpending ▸ h.pending.mono hi
      owned := by
        rw [hpending]
        intro p hp
        rw [loadSteeringQueue, hqueues]
        exact h.owned p hp
      slots := hpending ▸ h.slots
      distinct := hpending ▸ h.distinct
      items := fun r hr itemId hitem => lt_of_lt_of_le (h.items r hr itemId hitem) hi }

/-! ## Pauses -/

/-- One more record of a session. -/
theorem replay_cons (h : Steered s log) {r : SteeringRecord} {sessionId : SessionId}
    {st : SteeringState} (hsession : r.row.sessionId = sessionId)
    (hadvances : Advances (steeringState s sessionId) r st)
    (hstate : steeringState t sessionId = some st)
    (hothers : ∀ other, other ≠ sessionId → steeringState t other = steeringState s other)
    (hfresh : ∀ e, r = .receipt e → e.changeKind = .enqueue → ∀ r' ∈ log,
      r'.itemId ≠ e.itemId) :
    ∀ other, Replay (ofSession other (r :: log)) (steeringState t other) := by
  intro other
  by_cases e : other = sessionId
  · rw [e, ofSession_cons_self hsession, hstate]
    exact Replay.cons (h.replay sessionId) hadvances fun e he hkind r' hr' =>
      hfresh e he hkind r' (List.mem_of_mem_filter hr')
  · rw [ofSession_cons_ne fun k => e (k.symm.trans hsession), hothers other e]
    exact h.replay other

/-- The queues change, but not which sessions have one. -/
theorem owned_modify (h : Steered s log) {sessionId : SessionId} {f : SteeringQueue → SteeringQueue}
    (hf : ∀ q, (f q).sessionId = q.sessionId) : ∀ p ∈ s.steeringPendingMessages,
      (Table.find SteeringQueue.sessionId p.sessionId
        (Table.modify SteeringQueue.sessionId sessionId f s.steeringQueues)).isSome := by
  intro p hp
  rw [Table.isSome_modify hf]
  exact h.owned p hp

/-! ## Pauses -/

/-- A running queue is paused, and the history says so. -/
theorem pauseQueue (h : Steered s log) {reason : PauseReason} {source : Option Nat} {now : Nat}
    {queue : SteeringQueue} (hqueue : queue ∈ s.steeringQueues) (hrunning : queue.paused = false)
    (ht : Morons.pauseQueue reason source now s queue = .ok t) :
    Steered t (.lifecycle ⟨s.nextValue, queue.sessionId, queue.targetRunId, queue.revision + 1,
      reason, source, now⟩ :: log) ∧
    t.steeringQueues = Table.modify SteeringQueue.sessionId queue.sessionId
      (fun q => { q with paused := true, revision := queue.revision + 1 }) s.steeringQueues := by
  simp only [Morons.pauseQueue, bind_ok, require_ok, pure_ok, Prod.exists, nextSequence_ok] at ht
  obtain ⟨_, -, sequence, u, ⟨-, rfl, rfl⟩, ht⟩ := ht
  have hfound : loadSteeringQueue s queue.sessionId = some queue :=
    Table.find_of_mem h.queues hqueue
  have hstate : steeringState s queue.sessionId = some ⟨queue.targetRunId, queue.revision,
      queue.paused, steeringItems s queue.sessionId⟩ := by
    rw [steeringState, hfound]
    rfl
  have hpaused : loadSteeringQueue t queue.sessionId =
      some { queue with paused := true, revision := queue.revision + 1 } := by
    rw [← ht]
    exact Table.find_rewritten hfound fun _ => rfl
  have hothers : ∀ other, other ≠ queue.sessionId → steeringState t other = steeringState s other := by
    intro other hne
    have hsame : loadSteeringQueue t other = loadSteeringQueue s other := by
      rw [← ht]
      exact Table.find_modify_ne (fun _ => rfl) hne
    rw [steeringState, steeringState, hsame, ← ht]
    rfl
  have hadvances : Advances (steeringState s queue.sessionId) (.lifecycle ⟨s.nextValue,
      queue.sessionId, queue.targetRunId, queue.revision + 1, reason, source, now⟩)
      ⟨queue.targetRunId, queue.revision + 1, true, steeringItems s queue.sessionId⟩ := by
    rw [hstate]
    exact Advances.stop hrunning rfl rfl
  have hafter : steeringState t queue.sessionId =
      some ⟨queue.targetRunId, queue.revision + 1, true, steeringItems s queue.sessionId⟩ := by
    rw [steeringState, hpaused, ← ht]
    rfl
  have hreplay := h.replay_cons (by rfl) hadvances hafter hothers (by simp)
  subst ht
  refine ⟨?_, rfl⟩
  exact
    { receipts := h.receipts
      facts := congrArg (List.cons _) h.facts
      numbered := h.numbered.cons le_rfl (Nat.lt_succ_self _)
      queues := h.queues.modify fun _ => rfl
      replay := hreplay
      pending := h.pending
      owned := h.owned_modify fun _ => rfl
      slots := h.slots
      distinct := h.distinct
      items := by
        intro r hr itemId hitem
        rcases List.mem_cons.mp hr with rfl | hr
        · cases hitem
        · exact h.items r hr itemId hitem }

end Steered

/-- The fact that the pause of a queue records. -/
structure Stopped (reason : PauseReason) (source : Option Nat) (now : Nat) (queue : SteeringQueue)
    (f : SteeringLifecycleFact) : Prop where
  session : f.sessionId = queue.sessionId
  target : f.targetRunId = queue.targetRunId
  reason_eq : f.reason = reason
  source_eq : f.sourceSequence = source
  clock : f.createdAtMilliseconds = now

/-- The records of a pause: one for each queue. -/
structure StoppedAll (reason : PauseReason) (source : Option Nat) (now n : Nat)
    (queues : List SteeringQueue) (newer : List SteeringRecord) : Prop where
  only : ∀ r ∈ newer, ∃ f, r = .lifecycle f ∧ n ≤ f.factSequence ∧
    ∃ q ∈ queues, Stopped reason source now q f
  every : ∀ q ∈ queues, ∃ f, .lifecycle f ∈ newer ∧ Stopped reason source now q f

theorem mem_runningQueues {sessionId : Option SessionId} {runId : Option RunId}
    {q : SteeringQueue} : q ∈ runningQueues s sessionId runId ↔
      q ∈ s.steeringQueues ∧ q.paused = false ∧ (∀ id ∈ sessionId, q.sessionId = id) ∧
        ∀ id ∈ runId, q.targetRunId = id := by
  unfold runningQueues
  rw [(List.mergeSort_perm _ _).mem_iff, List.mem_filter]
  cases sessionId <;> cases runId <;> simp [and_assoc]

namespace Steered

theorem sweep_pauseQueue (h : Steered s log) {reason : PauseReason} {source : Option Nat}
    {now : Nat} {queues : List SteeringQueue}
    (hqueues : ∀ q ∈ queues, q ∈ s.steeringQueues ∧ q.paused = false)
    (hnodup : (queues.map SteeringQueue.sessionId).Nodup)
    (ht : sweep (Morons.pauseQueue reason source now) s queues = .ok t) :
    ∃ newer, Steered t (newer ++ log) ∧ StoppedAll reason source now s.nextValue queues newer := by
  induction queues generalizing s log with
  | nil =>
    cases ht
    exact ⟨[], h, by simp, by simp⟩
  | cons queue queues ih =>
    obtain ⟨u, hu, ht⟩ := (sweep_cons_ok ..).mp ht
    obtain ⟨hqueue, hrunning⟩ := hqueues queue (List.mem_cons_self ..)
    obtain ⟨hhead, htail⟩ := List.nodup_cons.mp hnodup
    obtain ⟨hfirst, htable⟩ := h.pauseQueue hqueue hrunning hu
    have hrest : ∀ q ∈ queues, q ∈ u.steeringQueues ∧ q.paused = false := by
      intro q hq
      obtain ⟨hin, hopen⟩ := hqueues q (List.mem_cons_of_mem _ hq)
      have hne : q.sessionId ≠ queue.sessionId := fun e => hhead (e ▸ List.mem_map_of_mem hq)
      refine ⟨?_, hopen⟩
      rw [htable, Table.mem_modify]
      exact ⟨q, hin, if_neg hne⟩
    obtain ⟨newer, hafter, hstopped⟩ := ih hfirst hrest htail ht
    have hforward : s.nextValue ≤ u.nextValue := (pauseQueue_paused hu).forward
    refine ⟨newer ++ [.lifecycle ⟨s.nextValue, queue.sessionId, queue.targetRunId,
      queue.revision + 1, reason, source, now⟩], by rwa [List.append_assoc], ?_, ?_⟩
    · intro r hr
      rcases List.mem_append.mp hr with hr | hr
      · obtain ⟨f, hf, hn, q, hq, hstop⟩ := hstopped.only r hr
        exact ⟨f, hf, hforward.trans hn, q, List.mem_cons_of_mem _ hq, hstop⟩
      · obtain rfl := List.mem_singleton.mp hr
        exact ⟨_, rfl, le_rfl, queue, List.mem_cons_self .., rfl, rfl, rfl, rfl, rfl⟩
    · intro q hq
      rcases List.mem_cons.mp hq with rfl | hq
      · exact ⟨_, List.mem_append_right _ (List.mem_singleton_self _), rfl, rfl, rfl, rfl, rfl⟩
      · obtain ⟨f, hf, hstop⟩ := hstopped.every q hq
        exact ⟨f, List.mem_append_left _ hf, hstop⟩

/-- **A pause records a fact for every running queue it is meant for.** -/
theorem pause (h : Steered s log) {sessionId : Option SessionId} {runId : Option RunId}
    {reason : PauseReason} {source : Option Nat} {now : Nat}
    (ht : Morons.pause s sessionId runId reason source now = .ok t) :
    ∃ newer, Steered t (newer ++ log) ∧
      StoppedAll reason source now s.nextValue (runningQueues s sessionId runId) newer := by
  refine h.sweep_pauseQueue (fun q hq => ?_) ?_ ht
  · obtain ⟨hin, hrunning, -⟩ := mem_runningQueues.mp hq
    exact ⟨hin, hrunning⟩
  · refine ((List.mergeSort_perm _ _).map SteeringQueue.sessionId).nodup_iff.mpr ?_
    exact h.queues.sublist (List.filter_sublist.map _)

/-! ## Receipts -/

/-- The rows of the items. -/
structure Queued (s : Store) : Prop where
  pending : Below SteeringPendingMessage.itemId s.nextIdentifier s.steeringPendingMessages
  owned : ∀ p ∈ s.steeringPendingMessages, (loadSteeringQueue s p.sessionId).isSome
  slots : ∀ p ∈ s.steeringPendingMessages, 1 ≤ p.slot ∧ p.slot ≤ maxSteeringItems
  distinct : ∀ sessionId, ((s.steeringPendingMessages.filter fun p =>
    p.sessionId = sessionId).map (·.slot)).Nodup

/-- The queue's row after the change: its revision is the receipt's. -/
theorem receipt_queue {u : Store} {mutation : SteeringMutation} {request : SteeringMutationRequest}
    {q : SteeringQueue} (hq : loadSteeringQueue u mutation.sessionId = some q) :
    loadSteeringQueue (writeSteeringReceipt u mutation request) mutation.sessionId =
      some { q with revision := request.queueRevision } :=
  Table.find_rewritten hq fun _ => rfl

theorem receipt_queue_ne {u : Store} {mutation : SteeringMutation}
    {request : SteeringMutationRequest} {other : SessionId} (hne : other ≠ mutation.sessionId) :
    loadSteeringQueue (writeSteeringReceipt u mutation request) other = loadSteeringQueue u other :=
  Table.find_modify_ne (fun _ => rfl) hne

theorem receipt_queue_isSome {u : Store} {mutation : SteeringMutation}
    {request : SteeringMutationRequest} {other : SessionId} :
    (loadSteeringQueue (writeSteeringReceipt u mutation request) other).isSome =
      (loadSteeringQueue u other).isSome :=
  Table.isSome_modify fun _ => rfl

/-- A receipt goes on with what the change itself made of the tables. -/
theorem receipt (h : Steered s log) {u : Store} {mutation : SteeringMutation} {now : Nat}
    {item : Option SteeringItemId × Option Nat} {q : SteeringQueue}
    (hrequests : u.steeringMutationRequests = s.steeringMutationRequests)
    (hfacts : u.steeringLifecycleFacts = s.steeringLifecycleFacts)
    (hn : u.nextValue = s.nextValue + 1) (hi : s.nextIdentifier ≤ u.nextIdentifier)
    (hkeyed : Table.Keyed SteeringQueue.sessionId u.steeringQueues) (hqueued : Queued u)
    (hitem : ∀ itemId, item.1 = some itemId → itemId < u.nextIdentifier)
    (hqueue : loadSteeringQueue u mutation.sessionId = some q)
    (hadvances : Advances (steeringState s mutation.sessionId)
      (.receipt (mutation.request s.nextValue now item))
      ⟨q.targetRunId, mutation.expectedRevision + 1, q.paused, steeringItems u mutation.sessionId⟩)
    (hothers : ∀ other, other ≠ mutation.sessionId →
      loadSteeringQueue u other = loadSteeringQueue s other ∧
        steeringItems u other = steeringItems s other)
    (hfresh : mutation.change.kind = .enqueue → ∀ r' ∈ log, r'.itemId ≠ item.1) :
    Steered (writeSteeringReceipt u mutation (mutation.request s.nextValue now item))
      (.receipt (mutation.request s.nextValue now item) :: log) where
  receipts := by
    show _ = _ :: u.steeringMutationRequests
    rw [hrequests]
    exact congrArg (List.cons _) h.receipts
  facts := h.facts.trans hfacts.symm
  numbered := by
    refine h.numbered.cons le_rfl ?_
    show s.nextValue < u.nextValue
    omega
  queues := hkeyed.modify fun _ => rfl
  replay := by
    refine h.replay_cons (by rfl) hadvances ?_ ?_ ?_
    · show (loadSteeringQueue _ mutation.sessionId).map _ = _
      rw [receipt_queue hqueue]
      rfl
    · intro other hne
      show (loadSteeringQueue _ other).map _ = (loadSteeringQueue s other).map _
      rw [receipt_queue_ne hne, (hothers other hne).1]
      refine congrArg (fun items => (loadSteeringQueue s other).map fun q : SteeringQueue =>
        SteeringState.mk q.targetRunId q.revision q.paused items) (hothers other hne).2
    · intro e he hkind
      obtain rfl : mutation.request s.nextValue now item = e := by simpa using he
      exact hfresh hkind
  pending := hqueued.pending
  owned := by
    intro p hp
    rw [receipt_queue_isSome]
    exact hqueued.owned p hp
  slots := hqueued.slots
  distinct := hqueued.distinct
  items := by
    intro r' hr' itemId hid
    rcases List.mem_cons.mp hr' with rfl | hr'
    · exact hitem itemId hid
    · exact lt_of_lt_of_le (h.items r' hr' itemId hid) hi

/-- The item that a change names is the one with its identifier. -/
theorem namesItem_iff (h : Steered s log) {sessionId : SessionId} {itemId : SteeringItemId}
    {revision : Nat} (hnamed : s.steeringPendingMessages.any (namesItem sessionId itemId revision)) :
    (∃ p ∈ s.steeringPendingMessages, p.sessionId = sessionId ∧ p.itemId = itemId ∧
      p.revision = revision) ∧
    ∀ p ∈ s.steeringPendingMessages, namesItem sessionId itemId revision p = true ↔
      p.itemId = itemId := by
  obtain ⟨p, hp, hname⟩ := List.any_eq_true.mp hnamed
  simp only [namesItem, Bool.and_eq_true, decide_eq_true_eq] at hname
  refine ⟨⟨p, hp, hname.1.1, hname.1.2, hname.2⟩, fun k hk => ?_⟩
  simp only [namesItem, Bool.and_eq_true, decide_eq_true_eq]
  constructor
  · exact fun hk => hk.1.2
  · intro e
    have hsame : k = p := h.pending.eq_of_seq hk hp (e.trans hname.1.2.symm)
    rw [hsame]
    exact hname

/-- A free slot leaves room in the queue. -/
theorem freeSlot_room (h : Steered s log) {sessionId : SessionId} {slot : Nat}
    (hslot : freeSlot s sessionId = some slot) :
    (1 ≤ slot ∧ slot ≤ maxSteeringItems) ∧
    (∀ p ∈ s.steeringPendingMessages, p.sessionId = sessionId → p.slot ≠ slot) ∧
    (steeringItems s sessionId).length < maxSteeringItems := by
  have hin := List.mem_of_find?_eq_some hslot
  rw [List.mem_range'_1] at hin
  have hfree := List.find?_some hslot
  simp only [Bool.not_eq_true', List.any_eq_false, Bool.and_eq_true, decide_eq_true_eq,
    not_and] at hfree
  refine ⟨⟨hin.1, by show slot ≤ 16; omega⟩, hfree, ?_⟩
  have hnodup : (slot :: (s.steeringPendingMessages.filter fun p =>
      p.sessionId = sessionId).map (·.slot)).Nodup := by
    refine List.nodup_cons.mpr ⟨fun hmem => ?_, h.distinct sessionId⟩
    obtain ⟨p, hp, e⟩ := List.mem_map.mp hmem
    obtain ⟨hp, hsession⟩ := List.mem_filter.mp hp
    exact hfree p hp (by simpa using hsession) e
  have hsubset : (slot :: (s.steeringPendingMessages.filter fun p =>
      p.sessionId = sessionId).map (·.slot)) ⊆ List.range' 1 16 := by
    intro n hn
    rw [List.mem_range'_1]
    rcases List.mem_cons.mp hn with rfl | hn
    · exact hin
    · obtain ⟨p, hp, rfl⟩ := List.mem_map.mp hn
      obtain ⟨hlow, hhigh⟩ := h.slots p (List.mem_of_mem_filter hp)
      exact ⟨hlow, Nat.lt_succ_of_le hhigh⟩
  have hlength := (List.subperm_of_subset hnodup hsubset).length_le
  simp only [List.length_cons, List.length_map, List.length_range'] at hlength
  show (List.map _ _).length < 16
  rw [List.length_map]
  omega

theorem steeringItems_cons {sessionId other : SessionId} {p : SteeringPendingMessage}
    {rows : List SteeringPendingMessage} (hp : p.sessionId = sessionId) :
    ((p :: rows).filter fun p => p.sessionId = other).map (·.item) =
      if sessionId = other then
        p.item :: (rows.filter fun p => p.sessionId = other).map (·.item)
      else (rows.filter fun p => p.sessionId = other).map (·.item) := by
  by_cases e : sessionId = other
  · rw [List.filter_cons_of_pos (by simp [hp, e]), if_pos e, List.map_cons]
  · rw [List.filter_cons_of_neg (by simp [hp, e]), if_neg e]

theorem insertSteeringQueue_frame (s : Store) (sessionId : SessionId) (runId : RunId) :
    insertSteeringQueue s sessionId runId =
      { s with steeringQueues := (insertSteeringQueue s sessionId runId).steeringQueues } := by
  unfold insertSteeringQueue
  split <;> rfl

/-- A session without a queue gets a paused one. -/
theorem insertSteeringQueue_queues (sessionId : SessionId) (runId : RunId)
    (hkeyed : Table.Keyed SteeringQueue.sessionId s.steeringQueues) :
    Table.Keyed SteeringQueue.sessionId (insertSteeringQueue s sessionId runId).steeringQueues ∧
    loadSteeringQueue (insertSteeringQueue s sessionId runId) sessionId =
      some ((loadSteeringQueue s sessionId).getD ⟨sessionId, runId, 1, true⟩) ∧
    ∀ other, other ≠ sessionId → loadSteeringQueue (insertSteeringQueue s sessionId runId) other =
      loadSteeringQueue s other := by
  unfold insertSteeringQueue
  split
  · rename_i hsome
    obtain ⟨q, hq⟩ := Option.isSome_iff_exists.mp hsome
    exact ⟨hkeyed, by rw [hq]; rfl, fun _ _ => rfl⟩
  · rename_i hnone
    have hnone : loadSteeringQueue s sessionId = none := Option.not_isSome_iff_eq_none.mp hnone
    refine ⟨List.nodup_cons.mpr ⟨fun hin => ?_, hkeyed⟩, ?_, fun other hne => ?_⟩
    · obtain ⟨q, hq, e⟩ := List.mem_map.mp hin
      exact Table.find_none.mp hnone q hq e
    · rw [hnone]
      simp [loadSteeringQueue]
    · have hne' : ¬ sessionId = other := fun e => hne e.symm
      simp [loadSteeringQueue, hne']

/-- The queue a first message finds, in the columns of the store. -/
theorem opened_state (h : Steered s log) (sessionId : SessionId) (runId : RunId) :
    SteeringState.opened runId (steeringState s sessionId) =
      ⟨((loadSteeringQueue s sessionId).getD ⟨sessionId, runId, 1, true⟩).targetRunId,
        ((loadSteeringQueue s sessionId).map (·.revision)).getD 0,
        ((loadSteeringQueue s sessionId).getD ⟨sessionId, runId, 1, true⟩).paused,
        steeringItems s sessionId⟩ := by
  cases hq : loadSteeringQueue s sessionId with
  | some q =>
    rw [steeringState, hq]
    rfl
  | none =>
    have hnone : steeringItems s sessionId = [] := by
      refine List.map_eq_nil_iff.mpr (List.filter_eq_nil_iff.mpr fun p hp => ?_)
      have howned := h.owned p hp
      simp only [decide_eq_true_eq]
      rintro e
      rw [e, hq] at howned
      cases howned
    rw [steeringState, hq, hnone]
    rfl

/-- A message joins the queue, which appears if there is none. -/
theorem enqueue (h : Steered s log) {u : Store} {mutation : SteeringMutation} {runId : RunId}
    {text : String} {slot now : Nat} (hchange : mutation.change = .enqueue runId text)
    (hrevision : ((loadSteeringQueue s mutation.sessionId).map (·.revision)).getD 0 =
      mutation.expectedRevision)
    (htarget : (loadSteeringQueue s mutation.sessionId).all fun q => q.targetRunId = runId)
    (hslot : freeSlot s mutation.sessionId = some slot)
    (hrequests : u.steeringMutationRequests = s.steeringMutationRequests)
    (hfacts : u.steeringLifecycleFacts = s.steeringLifecycleFacts)
    (hn : u.nextValue = s.nextValue + 1) (hi : u.nextIdentifier = s.nextIdentifier + 1)
    (hpending : u.steeringPendingMessages = ⟨s.nextIdentifier, mutation.sessionId, slot,
      s.nextValue, 1, text, now⟩ :: s.steeringPendingMessages)
    (hkeyed : Table.Keyed SteeringQueue.sessionId u.steeringQueues)
    (hself : loadSteeringQueue u mutation.sessionId =
      some ((loadSteeringQueue s mutation.sessionId).getD ⟨mutation.sessionId, runId, 1, true⟩))
    (hothers : ∀ other, other ≠ mutation.sessionId →
      loadSteeringQueue u other = loadSteeringQueue s other) :
    Steered (writeSteeringReceipt u mutation
        (mutation.request s.nextValue now (some s.nextIdentifier, some 1)))
      (.receipt (mutation.request s.nextValue now (some s.nextIdentifier, some 1)) :: log) := by
  obtain ⟨hbounds, hunused, hroom⟩ := h.freeSlot_room hslot
  have hopened := h.opened_state mutation.sessionId runId
  have hwaits : ((loadSteeringQueue s mutation.sessionId).getD
      ⟨mutation.sessionId, runId, 1, true⟩).targetRunId = runId := by
    cases hq : loadSteeringQueue s mutation.sessionId with
    | none => rfl
    | some q =>
      rw [hq] at htarget
      simpa using htarget
  have hitems : ∀ other, steeringItems u other = if mutation.sessionId = other then
      ⟨s.nextIdentifier, s.nextValue, 1, text, now⟩ :: steeringItems s other
      else steeringItems s other := by
    intro other
    rw [steeringItems, hpending]
    exact steeringItems_cons rfl
  have hkind : mutation.change.kind = .enqueue := by
    rw [hchange]
    rfl
  have hrunId : mutation.change.target = some runId := by
    rw [hchange]
    rfl
  have hwritten : mutation.change.text = some text := by
    rw [hchange]
    rfl
  have hadvances : Advances (steeringState s mutation.sessionId)
      (.receipt (mutation.request s.nextValue now (some s.nextIdentifier, some 1)))
      ⟨((loadSteeringQueue s mutation.sessionId).getD
          ⟨mutation.sessionId, runId, 1, true⟩).targetRunId, mutation.expectedRevision + 1,
        ((loadSteeringQueue s mutation.sessionId).getD ⟨mutation.sessionId, runId, 1, true⟩).paused,
        steeringItems u mutation.sessionId⟩ := by
    have hstep := Advances.enqueue (q := steeringState s mutation.sessionId)
      (r := mutation.request s.nextValue now (some s.nextIdentifier, some 1)) hkind
      (by
        rw [hopened, hrevision]
        rfl) hrunId
      (by
        rw [hopened]
        exact hwaits) rfl rfl hwritten
      (by
        rw [hopened]
        exact hroom)
    rw [hitems, if_pos rfl]
    rw [hopened] at hstep
    exact hstep
  refine h.receipt hrequests hfacts hn (by omega) hkeyed ⟨?_, ?_, ?_, ?_⟩ ?_ hself hadvances ?_ ?_
  · rw [hpending, hi]
    exact h.pending.cons le_rfl (Nat.lt_succ_self _)
  · rw [hpending]
    intro p hp
    by_cases e : p.sessionId = mutation.sessionId
    · rw [e, hself]
      rfl
    · rw [hothers _ e]
      rcases List.mem_cons.mp hp with rfl | hp
      · exact absurd rfl e
      · exact h.owned p hp
  · rw [hpending]
    intro p hp
    rcases List.mem_cons.mp hp with rfl | hp
    · exact hbounds
    · exact h.slots p hp
  · intro other
    rw [hpending]
    by_cases e : mutation.sessionId = other
    · rw [List.filter_cons_of_pos (by simpa using e), List.map_cons]
      refine List.nodup_cons.mpr ⟨fun hin => ?_, h.distinct other⟩
      obtain ⟨p, hp, hp'⟩ := List.mem_map.mp hin
      obtain ⟨hp, hsession⟩ := List.mem_filter.mp hp
      exact hunused p hp ((of_decide_eq_true hsession).trans e.symm) hp'
    · rw [List.filter_cons_of_neg (by simpa using e)]
      exact h.distinct other
  · intro itemId hitem
    obtain rfl := Option.some.inj hitem
    rw [hi]
    exact Nat.lt_succ_self _
  · intro other hne
    refine ⟨hothers other hne, ?_⟩
    rw [hitems, if_neg fun e => hne e.symm]
  · intro _ r hr hitem
    exact absurd (h.items r hr _ hitem) (lt_irrefl _)

/-- The queue that a change other than an enqueue finds. -/
theorem state_of_queue {sessionId : SessionId} {q : SteeringQueue}
    (hq : loadSteeringQueue s sessionId = some q) : steeringState s sessionId =
      some ⟨q.targetRunId, q.revision, q.paused, steeringItems s sessionId⟩ := by
  rw [steeringState, hq]
  rfl

/-- A row of a session is an item of its queue. -/
theorem item_of_row {sessionId : SessionId} {p : SteeringPendingMessage}
    (hp : p ∈ s.steeringPendingMessages) (hsession : p.sessionId = sessionId) :
    p.item ∈ steeringItems s sessionId :=
  List.mem_map_of_mem (List.mem_filter.mpr ⟨hp, by simpa using hsession⟩)

/-- Rewriting a message leaves it in its session. -/
theorem filter_edited {itemId : SteeringItemId} {sessionId : SessionId} {text : String}
    {revision : Nat} {rows : List SteeringPendingMessage} :
    (Table.modify SteeringPendingMessage.itemId itemId
        (fun p => { p with text := text, revision := revision }) rows).filter
        (fun p => p.sessionId = sessionId) =
      Table.modify SteeringPendingMessage.itemId itemId
        (fun p => { p with text := text, revision := revision })
        (rows.filter fun p => p.sessionId = sessionId) :=
  Table.filter_modify fun _ => rfl

theorem slots_edited {itemId : SteeringItemId} {sessionId : SessionId} {text : String}
    {revision : Nat} {rows : List SteeringPendingMessage} :
    ((Table.modify SteeringPendingMessage.itemId itemId
        (fun p => { p with text := text, revision := revision }) rows).filter
        (fun p => p.sessionId = sessionId)).map (·.slot) =
      (rows.filter fun p => p.sessionId = sessionId).map (·.slot) := by
  rw [filter_edited]
  exact Table.modify_column _ fun _ => rfl

/-- An edit rewrites the item it names. -/
theorem edit (h : Steered s log) {mutation : SteeringMutation} {itemId : SteeringItemId}
    {revision now : Nat} {text : String} {q : SteeringQueue}
    (hchange : mutation.change = .edit itemId revision text)
    (hq : loadSteeringQueue s mutation.sessionId = some q)
    (hrevision : q.revision = mutation.expectedRevision)
    (hnamed : s.steeringPendingMessages.any (namesItem mutation.sessionId itemId revision)) :
    Steered (writeSteeringReceipt { s.drawn (s.nextValue + 1) s.nextIdentifier with
        steeringPendingMessages := s.steeringPendingMessages.map fun p =>
          if namesItem mutation.sessionId itemId revision p then
            { p with text := text, revision := revision + 1 } else p } mutation
        (mutation.request s.nextValue now (some itemId, some (revision + 1))))
      (.receipt (mutation.request s.nextValue now (some itemId, some (revision + 1))) :: log) := by
  obtain ⟨⟨p, hp, hsession, hid, hold⟩, hnames⟩ := h.namesItem_iff hnamed
  have hrows : (s.steeringPendingMessages.map fun p =>
      if namesItem mutation.sessionId itemId revision p then
        { p with text := text, revision := revision + 1 } else p) =
      Table.modify SteeringPendingMessage.itemId itemId
        (fun p => { p with text := text, revision := revision + 1 }) s.steeringPendingMessages := by
    refine List.map_congr_left fun k hk => ?_
    simp only [hnames k hk]
  rw [hrows]
  generalize hu : ({ s.drawn (s.nextValue + 1) s.nextIdentifier with
    steeringPendingMessages := Table.modify SteeringPendingMessage.itemId itemId
      (fun p => { p with text := text, revision := revision + 1 })
      s.steeringPendingMessages } : Store) = u
  have hpending : u.steeringPendingMessages = Table.modify SteeringPendingMessage.itemId itemId
      (fun p => { p with text := text, revision := revision + 1 }) s.steeringPendingMessages := by
    rw [← hu]
  have hqueues : ∀ other, loadSteeringQueue u other = loadSteeringQueue s other := by
    intro other
    rw [← hu]
    rfl
  have hitems : ∀ other, steeringItems u other = Table.modify SteeringItem.itemId itemId
      (fun i => { i with text := text, revision := revision + 1 }) (steeringItems s other) := by
    intro other
    rw [steeringItems, hpending, filter_edited]
    exact Table.map_modify _ (fun _ => rfl) fun _ => rfl
  have hkind : mutation.change.kind = .edit ∧ mutation.change.target = none ∧
      mutation.change.text = some text := by
    rw [hchange]
    exact ⟨rfl, rfl, rfl⟩
  have hadvances : Advances (steeringState s mutation.sessionId)
      (.receipt (mutation.request s.nextValue now (some itemId, some (revision + 1))))
      ⟨q.targetRunId, mutation.expectedRevision + 1, q.paused,
        steeringItems u mutation.sessionId⟩ := by
    have hstep := Advances.edit (q := ⟨q.targetRunId, q.revision, q.paused,
        steeringItems s mutation.sessionId⟩)
      (r := mutation.request s.nextValue now (some itemId, some (revision + 1))) (i := p.item)
      hkind.1 (by rw [hrevision]; rfl) hkind.2.1 (item_of_row hp hsession)
      (congrArg some hid.symm) (congrArg (fun n => some (n + 1)) hold.symm) hkind.2.2
    have hname : p.item.itemId = itemId := hid
    have hbefore : p.item.revision = revision := hold
    rw [hname, hbefore] at hstep
    rw [state_of_queue hq, hitems]
    exact hstep
  refine h.receipt (by rw [← hu]; rfl) (by rw [← hu]; rfl) (by rw [← hu]; rfl) (by rw [← hu]; rfl)
    (by rw [← hu]; exact h.queues) ⟨?_, ?_, ?_, ?_⟩ ?_ ((hqueues _).trans hq) hadvances ?_ ?_
  · rw [hpending, ← hu]
    exact h.pending.map _ fun k => by split <;> rfl
  · rw [hpending]
    intro k hk
    rw [hqueues]
    obtain ⟨row, hrow, rfl⟩ := Table.mem_modify.mp hk
    split
    · exact h.owned row hrow
    · exact h.owned row hrow
  · rw [hpending]
    intro k hk
    obtain ⟨row, hrow, rfl⟩ := Table.mem_modify.mp hk
    split
    · exact h.slots row hrow
    · exact h.slots row hrow
  · intro other
    rw [hpending, slots_edited]
    exact h.distinct other
  · intro id hid'
    obtain rfl := Option.some.inj hid'
    have hbound := h.pending.bounded p hp
    rw [← hu, ← hid]
    exact hbound
  · intro other hne
    refine ⟨hqueues other, ?_⟩
    rw [hitems, Table.modify_absent]
    intro i hi e
    obtain ⟨k, hk, rfl⟩ := List.mem_map.mp hi
    obtain ⟨hk, hother⟩ := List.mem_filter.mp hk
    have hsame : k = p := h.pending.eq_of_seq hk hp (e.trans hid.symm)
    exact hne ((of_decide_eq_true hother).symm.trans (hsame ▸ hsession))
  · intro hkind'
    rw [hkind.1] at hkind'
    cases hkind'

/-- A removal drops the item it names. -/
theorem remove (h : Steered s log) {mutation : SteeringMutation} {itemId : SteeringItemId}
    {revision now : Nat} {q : SteeringQueue} (hchange : mutation.change = .remove itemId revision)
    (hq : loadSteeringQueue s mutation.sessionId = some q)
    (hrevision : q.revision = mutation.expectedRevision)
    (hnamed : s.steeringPendingMessages.any (namesItem mutation.sessionId itemId revision)) :
    Steered (writeSteeringReceipt { s.drawn (s.nextValue + 1) s.nextIdentifier with
        steeringPendingMessages := s.steeringPendingMessages.filter fun p =>
          !namesItem mutation.sessionId itemId revision p } mutation
        (mutation.request s.nextValue now (some itemId, some revision)))
      (.receipt (mutation.request s.nextValue now (some itemId, some revision)) :: log) := by
  obtain ⟨⟨p, hp, hsession, hid, hold⟩, hnames⟩ := h.namesItem_iff hnamed
  have hrows : (s.steeringPendingMessages.filter fun p =>
      !namesItem mutation.sessionId itemId revision p) =
      s.steeringPendingMessages.filter fun p => decide (p.itemId ≠ itemId) := by
    refine List.filter_congr fun k hk => ?_
    rw [Bool.eq_iff_iff, Bool.not_eq_true', Bool.eq_false_iff, decide_eq_true_eq, Ne, Ne,
      hnames k hk]
  rw [hrows]
  generalize hu : ({ s.drawn (s.nextValue + 1) s.nextIdentifier with
    steeringPendingMessages := s.steeringPendingMessages.filter fun p =>
      decide (p.itemId ≠ itemId) } : Store) = u
  have hpending : u.steeringPendingMessages =
      s.steeringPendingMessages.filter fun p => decide (p.itemId ≠ itemId) := by
    rw [← hu]
  have hqueues : ∀ other, loadSteeringQueue u other = loadSteeringQueue s other := by
    intro other
    rw [← hu]
    rfl
  have hitems : ∀ other, steeringItems u other =
      (steeringItems s other).filter fun i => decide (i.itemId ≠ itemId) := by
    intro other
    rw [steeringItems, steeringItems, hpending, List.filter_comm, List.filter_map]
    rfl
  have hkind : mutation.change.kind = .remove ∧ mutation.change.target = none := by
    rw [hchange]
    exact ⟨rfl, rfl⟩
  have hadvances : Advances (steeringState s mutation.sessionId)
      (.receipt (mutation.request s.nextValue now (some itemId, some revision)))
      ⟨q.targetRunId, mutation.expectedRevision + 1, q.paused,
        steeringItems u mutation.sessionId⟩ := by
    have hstep := Advances.remove (q := ⟨q.targetRunId, q.revision, q.paused,
        steeringItems s mutation.sessionId⟩)
      (r := mutation.request s.nextValue now (some itemId, some revision)) (i := p.item)
      hkind.1 (by rw [hrevision]; rfl) hkind.2 (item_of_row hp hsession)
      (congrArg some hid.symm) (congrArg some hold.symm)
    have hname : p.item.itemId = itemId := hid
    rw [hname] at hstep
    rw [state_of_queue hq, hitems]
    exact hstep
  refine h.receipt (by rw [← hu]; rfl) (by rw [← hu]; rfl) (by rw [← hu]; rfl) (by rw [← hu]; rfl)
    (by rw [← hu]; exact h.queues) ⟨?_, ?_, ?_, ?_⟩ ?_ ((hqueues _).trans hq) hadvances ?_ ?_
  · rw [hpending, ← hu]
    exact h.pending.filter _
  · rw [hpending]
    intro k hk
    rw [hqueues]
    exact h.owned k (List.mem_of_mem_filter hk)
  · rw [hpending]
    intro k hk
    exact h.slots k (List.mem_of_mem_filter hk)
  · intro other
    rw [hpending, List.filter_comm]
    exact (h.distinct other).sublist (List.filter_sublist.map _)
  · intro id hid'
    obtain rfl := Option.some.inj hid'
    have hbound := h.pending.bounded p hp
    rw [← hu, ← hid]
    exact hbound
  · intro other hne
    refine ⟨hqueues other, ?_⟩
    rw [hitems, List.filter_eq_self]
    intro i hi
    obtain ⟨k, hk, rfl⟩ := List.mem_map.mp hi
    obtain ⟨hk, hother⟩ := List.mem_filter.mp hk
    rw [decide_eq_true_eq]
    intro e
    have hsame : k = p := h.pending.eq_of_seq hk hp (e.trans hid.symm)
    exact hne ((of_decide_eq_true hother).symm.trans (hsame ▸ hsession))
  · intro hkind'
    rw [hkind.1] at hkind'
    cases hkind'

/-- A change of the queue's row alone: a pause or a resumption. -/
theorem switch (h : Steered s log) {mutation : SteeringMutation} {now : Nat} {q : SteeringQueue}
    {f : SteeringQueue → SteeringQueue} (hq : loadSteeringQueue s mutation.sessionId = some q)
    (hf : ∀ q, (f q).sessionId = q.sessionId) (hkind : mutation.change.kind ≠ .enqueue)
    (hadvances : Advances (some ⟨q.targetRunId, q.revision, q.paused,
        steeringItems s mutation.sessionId⟩)
      (.receipt (mutation.request s.nextValue now (none, none)))
      ⟨(f q).targetRunId, mutation.expectedRevision + 1, (f q).paused,
        steeringItems s mutation.sessionId⟩) :
    Steered (writeSteeringReceipt
        (updateSteeringQueue (s.drawn (s.nextValue + 1) s.nextIdentifier) mutation.sessionId f)
        mutation (mutation.request s.nextValue now (none, none)))
      (.receipt (mutation.request s.nextValue now (none, none)) :: log) := by
  rw [← state_of_queue hq] at hadvances
  refine h.receipt rfl rfl rfl le_rfl (h.queues.modify hf)
    ⟨h.pending, h.owned_modify hf, h.slots, h.distinct⟩ (by simp) (Table.find_rewritten hq hf)
    hadvances ?_ fun hkind' => absurd hkind' hkind
  intro other hne
  exact ⟨Table.find_modify_ne hf hne, rfl⟩

theorem queue_of_switched {sessionId : SessionId} {f : SteeringQueue → SteeringQueue}
    (queue : (loadSteeringQueue (updateSteeringQueue s sessionId f) sessionId).isSome)
    (hf : ∀ q, (f q).sessionId = q.sessionId) : ∃ q, loadSteeringQueue s sessionId = some q := by
  have hsome : (loadSteeringQueue s sessionId).isSome := (Table.isSome_modify hf).symm.trans queue
  exact Option.isSome_iff_exists.mp hsome

/-- Every change starts at the revision it expects. -/
theorem admitted_revision {mutation : SteeringMutation}
    (admitted : admitSteeringChange s mutation = .ok ()) :
    ((loadSteeringQueue s mutation.sessionId).map (·.revision)).getD 0 =
      mutation.expectedRevision := by
  simp only [admitSteeringChange, bind_ok, demand_ok, require_ok, exists_const] at admitted
  obtain ⟨_, -, -, -, hrevision, -⟩ := admitted
  exact hrevision

/-- **An accepted change puts its receipt on the history.** -/
theorem change (h : Steered s log) {mutation : SteeringMutation} {u : Store} {now : Nat}
    {item : Option SteeringItemId × Option Nat}
    (admitted : admitSteeringChange s mutation = .ok ())
    (applied : applySteeringChange (s.drawn (s.nextValue + 1) s.nextIdentifier)
      mutation.sessionId s.nextValue now mutation.change = .ok (item, u))
    (queue : (loadSteeringQueue u mutation.sessionId).isSome) :
    Steered (writeSteeringReceipt u mutation (mutation.request s.nextValue now item))
      (.receipt (mutation.request s.nextValue now item) :: log) := by
  have hrevision := admitted_revision admitted
  -- A queue without a message is not touched by another change than an enqueue.
  have hfound : loadSteeringQueue u mutation.sessionId = loadSteeringQueue s mutation.sessionId →
      ∃ q, loadSteeringQueue s mutation.sessionId = some q ∧
        q.revision = mutation.expectedRevision := by
    intro e
    rw [e] at queue
    obtain ⟨q, hq⟩ := Option.isSome_iff_exists.mp queue
    rw [hq] at hrevision
    exact ⟨q, hq, hrevision⟩
  cases hchange : mutation.change with
  | enqueue runId text =>
    rw [hchange] at applied
    simp only [admitSteeringChange, hchange, bind_ok, demand_ok, require_ok, exists_const]
      at admitted
    obtain ⟨_, -, -, -, -, -, -, htarget⟩ := admitted
    simp only [applySteeringChange, bind_ok, demand_ok, pure_ok, Prod.mk.injEq] at applied
    obtain ⟨slot, hslot, rfl, rfl⟩ := applied
    obtain ⟨hkeyed, hself, hothers⟩ := insertSteeringQueue_queues
      (s := s.drawn (s.nextValue + 1) s.nextIdentifier) mutation.sessionId runId h.queues
    rw [insertSteeringQueue_frame] at hslot ⊢
    exact h.enqueue hchange hrevision htarget hslot rfl rfl rfl rfl rfl hkeyed hself hothers
  | edit itemId revision text =>
    rw [hchange] at applied
    simp only [applySteeringChange, bind_ok, require_ok, pure_ok, Prod.mk.injEq, exists_const]
      at applied
    obtain ⟨-, -, hnamed, rfl, rfl⟩ := applied
    obtain ⟨q, hq, hrevision⟩ := hfound rfl
    exact h.edit hchange hq hrevision hnamed
  | remove itemId revision =>
    rw [hchange] at applied
    simp only [applySteeringChange, bind_ok, require_ok, pure_ok, Prod.mk.injEq, exists_const]
      at applied
    obtain ⟨-, hnamed, rfl, rfl⟩ := applied
    obtain ⟨q, hq, hrevision⟩ := hfound rfl
    exact h.remove hchange hq hrevision hnamed
  | pause =>
    rw [hchange] at applied
    simp only [applySteeringChange, pure_ok, Prod.mk.injEq] at applied
    obtain ⟨rfl, rfl⟩ := applied
    obtain ⟨q, hq⟩ := queue_of_switched queue fun _ => rfl
    have hq : loadSteeringQueue s mutation.sessionId = some q := hq
    rw [hq] at hrevision
    have hrevision : q.revision = mutation.expectedRevision := hrevision
    refine h.switch hq (fun _ => rfl) (by simp [hchange, SteeringChange.kind]) ?_
    refine Advances.pause (r := mutation.request s.nextValue now (none, none)) ?_ ?_ ?_ rfl
    · exact congrArg SteeringChange.kind hchange
    · exact congrArg (· + 1) hrevision.symm
    · exact congrArg SteeringChange.target hchange
  | resume runId =>
    rw [hchange] at applied
    simp only [applySteeringChange, pure_ok, Prod.mk.injEq] at applied
    obtain ⟨rfl, rfl⟩ := applied
    obtain ⟨q, hq⟩ := queue_of_switched queue fun _ => rfl
    have hq : loadSteeringQueue s mutation.sessionId = some q := hq
    rw [hq] at hrevision
    have hrevision : q.revision = mutation.expectedRevision := hrevision
    refine h.switch hq (fun _ => rfl) (by simp [hchange, SteeringChange.kind]) ?_
    refine Advances.resume (r := mutation.request s.nextValue now (none, none)) ?_ ?_ ?_ rfl
    · exact congrArg SteeringChange.kind hchange
    · exact congrArg (· + 1) hrevision.symm
    · exact congrArg SteeringChange.target hchange

/-! ## Ends and deletions -/

/-- The end of a run pauses the queue that waits for it. -/
theorem ended (h : Steered s log) {run : Run} (state : RunState) (failure : Option RunFailureKind)
    (kind : EventKind) {now : Nat} {u : Store} (paused : pauseEnded s run now = .ok u) :
    ∃ newer, Steered (endRun s u run state failure kind now) (newer ++ log) ∧
      StoppedAll .terminal (some s.nextValue) now (s.nextValue + 1)
        (runningQueues s (some run.sessionId) (some run.id)) newer := by
  have hnumbered : Steered s.numbered log := h.kept rfl (Nat.le_succ _) (Nat.le_succ _)
  obtain ⟨newer, hafter, hstopped⟩ := hnumbered.pause paused
  have hframe := (pause_paused paused).frame
  refine ⟨newer, hafter.kept ?_ (Nat.le_succ _) ?_, hstopped⟩
  · rw [hframe]
    rfl
  · rw [hframe]
    exact le_rfl

theorem ofSession_filter_self (sessionId : SessionId) :
    ofSession sessionId (log.filter fun r => decide (r.row.sessionId ≠ sessionId)) = [] := by
  refine List.filter_eq_nil_iff.mpr fun r hr => ?_
  simpa using (List.mem_filter.mp hr).2

theorem ofSession_filter_ne {sessionId other : SessionId} (hne : other ≠ sessionId) :
    ofSession other (log.filter fun r => decide (r.row.sessionId ≠ sessionId)) =
      ofSession other log := by
  refine Table.filter_kept fun r _ h => ?_
  have hother : r.row.sessionId = other := by simpa using h
  simpa [hother] using hne

/-- A deleted session leaves no record. -/
theorem cleanup (h : Steered s log) (request : SessionDeleteRequest) :
    Steered (writeCleanup s request)
      (log.filter fun r => decide (r.row.sessionId ≠ request.sessionId)) := by
  have hqueue : ∀ other, other ≠ request.sessionId →
      loadSteeringQueue (writeCleanup s request) other = loadSteeringQueue s other := by
    intro other hne
    exact Table.find_kept fun q _ hq => by simpa [hq] using hne
  have hitems : ∀ other, other ≠ request.sessionId →
      steeringItems (writeCleanup s request) other = steeringItems s other := by
    intro other hne
    refine congrArg (List.map _) (Table.filter_kept fun p _ hp => ?_)
    have hsession : p.sessionId = other := by simpa using hp
    simpa [hsession] using hne
  refine
    { receipts := ?_
      facts := ?_
      numbered := h.numbered.filter _
      queues := h.queues.filter _
      replay := fun other => ?_
      pending := h.pending.filter _
      owned := fun p hp => ?_
      slots := fun p hp => h.slots p (List.mem_of_mem_filter hp)
      distinct := fun other => ?_
      items := fun r hr => h.items r (List.mem_of_mem_filter hr) }
  · show _ = s.steeringMutationRequests.filter _
    rw [← h.receipts, List.filterMap_filter, List.filter_filterMap]
    refine List.filterMap_congr fun r _ => ?_
    cases r with
    | receipt r => rfl
    | lifecycle f => simp [SteeringRecord.receipt?]
  · show _ = s.steeringLifecycleFacts.filter _
    rw [← h.facts, List.filterMap_filter, List.filter_filterMap]
    refine List.filterMap_congr fun r _ => ?_
    cases r with
    | receipt r => simp [SteeringRecord.lifecycle?]
    | lifecycle f => rfl
  · by_cases e : other = request.sessionId
    · have hnone : loadSteeringQueue (writeCleanup s request) other = none := by
        refine Table.find_none.mpr fun q hq => ?_
        simpa [e] using (List.mem_filter.mp hq).2
      rw [e, ofSession_filter_self, ← e, steeringState, hnone]
      exact Replay.nil
    · rw [ofSession_filter_ne e, steeringState, hqueue other e, hitems other e]
      exact h.replay other
  · obtain ⟨hp, hne⟩ := List.mem_filter.mp hp
    rw [hqueue p.sessionId (by simpa using hne)]
    exact h.owned p hp
  · refine (h.distinct other).sublist (List.Sublist.map _ ?_)
    exact List.filter_sublist.filter _

end Steered

end Morons
