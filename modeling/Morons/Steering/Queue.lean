import Morons.Store
import Morons.Library.Ledger
import Morons.Library.Table

/-!
# Steering queues and their history

A queue holds messages that wait for a run, in the order they came, under one
revision that every change advances by one.  The records of its changes,
newest first, are its history; `Replay` says which queue a history leaves.
Every column of the queue can be read off the history: the newest target, the
newest pause, the newest text of each item.
-/

namespace Morons

open Ledger

/-! ## Records -/

/-- A row of the history, as the queries union it from its tables. -/
structure SteeringHistoryRow where
  sessionId : SessionId
  queueRevision : Nat
  sequence : Nat
  paused : Option Bool
  targetRunId : Option RunId
  deriving DecidableEq

def SteeringMutationRequest.historyRow (r : SteeringMutationRequest) : SteeringHistoryRow where
  sessionId := r.sessionId
  queueRevision := r.queueRevision
  sequence := r.acceptedSequence
  paused := if r.changeKind = .resume then some false
    else if r.changeKind = .pause ∨ r.queueRevision = 1 then some true else none
  targetRunId := r.targetRunId

/-- A later receipt that neither pauses nor resumes says nothing of it. -/
theorem SteeringMutationRequest.paused_none {r : SteeringMutationRequest}
    (hresume : r.changeKind ≠ .resume) (hpause : r.changeKind ≠ .pause)
    (hlater : r.queueRevision ≠ 1) : r.historyRow.paused = none := by
  show (if r.changeKind = .resume then _ else _) = _
  rw [if_neg hresume, if_neg]
  rintro (h | h)
  · exact hpause h
  · exact hlater h

def SteeringLifecycleFact.historyRow (f : SteeringLifecycleFact) : SteeringHistoryRow where
  sessionId := f.sessionId
  queueRevision := f.queueRevision
  sequence := f.factSequence
  paused := some true
  targetRunId := some f.targetRunId

/-- A change of the user, or a pause that the run's life brings. -/
inductive SteeringRecord
  | receipt (r : SteeringMutationRequest)
  | lifecycle (f : SteeringLifecycleFact)

namespace SteeringRecord

def row : SteeringRecord → SteeringHistoryRow
  | receipt r => r.historyRow
  | lifecycle f => f.historyRow

def sequence (r : SteeringRecord) : Nat := r.row.sequence

def receipt? : SteeringRecord → Option SteeringMutationRequest
  | receipt r => some r
  | lifecycle _ => none

def lifecycle? : SteeringRecord → Option SteeringLifecycleFact
  | receipt _ => none
  | lifecycle f => some f

def itemId : SteeringRecord → Option SteeringItemId
  | receipt r => r.itemId
  | lifecycle _ => none

end SteeringRecord

/-! ## Queues -/

/-- A message that waits. -/
structure SteeringItem where
  itemId : SteeringItemId
  enqueueSequence : Nat
  revision : Nat
  text : String
  createdAtMilliseconds : Nat
  deriving DecidableEq

/-- A queue with its items, newest first. -/
structure SteeringState where
  targetRunId : RunId
  revision : Nat
  paused : Bool
  items : List SteeringItem

/-- The queue that the first message of a run finds. -/
def SteeringState.opened (runId : RunId) (q : Option SteeringState) : SteeringState :=
  q.getD ⟨runId, 0, true, []⟩

/-- The item of an enqueue. -/
def SteeringMutationRequest.enqueued (r : SteeringMutationRequest) (itemId : SteeringItemId)
    (text : String) : SteeringItem :=
  ⟨itemId, r.acceptedSequence, 1, text, r.acceptedAtMilliseconds⟩

def maxSteeringItems : Nat := 16

/-- What a record makes of a queue. -/
inductive Advances : Option SteeringState → SteeringRecord → SteeringState → Prop
  | enqueue {q : Option SteeringState} {r : SteeringMutationRequest} {runId : RunId}
      {itemId : SteeringItemId} {text : String} (kind : r.changeKind = .enqueue)
      (revision : r.queueRevision = (SteeringState.opened runId q).revision + 1)
      (target : r.targetRunId = some runId)
      (waits : (SteeringState.opened runId q).targetRunId = runId)
      (item : r.itemId = some itemId) (itemRevision : r.itemRevision = some 1)
      (written : r.text = some text)
      (room : (SteeringState.opened runId q).items.length < maxSteeringItems) :
      Advances q (.receipt r) { SteeringState.opened runId q with
        revision := r.queueRevision
        items := r.enqueued itemId text :: (SteeringState.opened runId q).items }
  | edit {q : SteeringState} {r : SteeringMutationRequest} {i : SteeringItem} {text : String}
      (kind : r.changeKind = .edit) (revision : r.queueRevision = q.revision + 1)
      (target : r.targetRunId = none) (waiting : i ∈ q.items) (item : r.itemId = some i.itemId)
      (itemRevision : r.itemRevision = some (i.revision + 1)) (written : r.text = some text) :
      Advances (some q) (.receipt r) { q with
        revision := r.queueRevision
        items := Table.modify SteeringItem.itemId i.itemId
          (fun j => { j with text := text, revision := i.revision + 1 }) q.items }
  | remove {q : SteeringState} {r : SteeringMutationRequest} {i : SteeringItem}
      (kind : r.changeKind = .remove) (revision : r.queueRevision = q.revision + 1)
      (target : r.targetRunId = none) (waiting : i ∈ q.items) (item : r.itemId = some i.itemId)
      (itemRevision : r.itemRevision = some i.revision) :
      Advances (some q) (.receipt r) { q with
        revision := r.queueRevision
        items := q.items.filter fun j => decide (j.itemId ≠ i.itemId) }
  | pause {q : SteeringState} {r : SteeringMutationRequest} (kind : r.changeKind = .pause)
      (revision : r.queueRevision = q.revision + 1) (target : r.targetRunId = none)
      (item : r.itemId = none) :
      Advances (some q) (.receipt r) { q with revision := r.queueRevision, paused := true }
  | resume {q : SteeringState} {r : SteeringMutationRequest} {runId : RunId}
      (kind : r.changeKind = .resume) (revision : r.queueRevision = q.revision + 1)
      (target : r.targetRunId = some runId) (item : r.itemId = none) :
      Advances (some q) (.receipt r)
        { q with revision := r.queueRevision, paused := false, targetRunId := runId }
  | stop {q : SteeringState} {f : SteeringLifecycleFact} (running : q.paused = false)
      (revision : f.queueRevision = q.revision + 1) (target : f.targetRunId = q.targetRunId) :
      Advances (some q) (.lifecycle f) { q with revision := f.queueRevision, paused := true }

/-- The queue that a history, newest record first, leaves.  No item is
enqueued twice. -/
inductive Replay : List SteeringRecord → Option SteeringState → Prop
  | nil : Replay [] none
  | cons {log : List SteeringRecord} {q : Option SteeringState} {r : SteeringRecord}
      {q' : SteeringState} (before : Replay log q) (advances : Advances q r q')
      (fresh : ∀ e, r = .receipt e → e.changeKind = .enqueue → ∀ r' ∈ log,
        r'.itemId ≠ e.itemId) :
      Replay (r :: log) (some q')

namespace Replay

variable {log newer older : List SteeringRecord} {q : Option SteeringState} {r : SteeringRecord}
  {st : SteeringState}

theorem suffix (h : Replay (newer ++ older) q) : ∃ q', Replay older q' := by
  induction newer generalizing q with
  | nil => exact ⟨q, h⟩
  | cons r newer ih =>
    cases h with
    | cons before advances fresh => exact ih before

theorem nil_iff (h : Replay log q) : q = none ↔ log = [] := by
  cases h with
  | nil => simp
  | cons before advances fresh => simp

/-! ## Revisions -/

/-- The revision of a queue counts its records. -/
theorem revision (h : Replay log q) (runId : RunId) :
    (SteeringState.opened runId q).revision = log.length := by
  induction h generalizing runId with
  | nil => rfl
  | @cons log q r q' before advances fresh ih =>
    have hbefore := ih
    cases advances with
    | @enqueue _ r runId' itemId text kind revision =>
      show r.queueRevision = log.length + 1
      rw [revision, ih runId']
    | edit kind revision | remove kind revision | pause kind revision | resume kind revision
    | stop running revision =>
      refine Eq.trans revision ?_
      rw [List.length_cons, ← ih runId]
      rfl

theorem revision_eq (h : Replay log (some st)) : st.revision = log.length :=
  h.revision 0

/-- Every record has the revision that its place gives it. -/
theorem queueRevision (h : Replay (r :: log) q) : r.row.queueRevision = log.length + 1 := by
  have hlength : ∀ runId, (SteeringState.opened runId q).revision = log.length + 1 := h.revision
  cases h with
  | cons before advances fresh =>
    cases advances with
    | enqueue => exact hlength 0
    | edit | remove | pause | resume | stop => exact hlength 0

/-- The revisions of a history are the numbers from one on. -/
theorem revisions (h : Replay log q) :
    log.reverse.map (·.row.queueRevision) = List.range' 1 log.length := by
  induction h with
  | nil => rfl
  | @cons log q r q' before advances fresh ih =>
    have hhead := queueRevision (Replay.cons before advances fresh)
    rw [List.reverse_cons, List.map_append, ih, List.length_cons, List.range'_concat, List.map_cons,
      List.map_nil, hhead, Nat.one_mul, Nat.add_comm 1]

/-! ## Targets and pauses -/

/-- A queue waits for the newest target of its history. -/
theorem target (h : Replay log q) :
    log.findSome? (·.row.targetRunId) = q.map (·.targetRunId) := by
  induction h with
  | nil => rfl
  | @cons log q r q' before advances fresh ih =>
    cases advances with
    | @enqueue _ r runId itemId text kind revision target waits =>
      have hrow : (SteeringRecord.receipt r).row.targetRunId = some runId := target
      rw [List.findSome?_cons_of_isSome (by simp [hrow]), hrow]
      exact congrArg some waits.symm
    | @edit q r i text kind revision target | @remove q r i kind revision target
    | @pause q r kind revision target =>
      have hrow : (SteeringRecord.receipt r).row.targetRunId = none := target
      rw [List.findSome?_cons_of_isNone (by simp [hrow]), ih]
      rfl
    | @resume q r runId kind revision target =>
      have hrow : (SteeringRecord.receipt r).row.targetRunId = some runId := target
      rw [List.findSome?_cons_of_isSome (by simp [hrow]), hrow]
      rfl
    | @stop q f running revision target =>
      rw [List.findSome?_cons_of_isSome rfl]
      exact congrArg some target

/-- A queue waits for the newest target of its receipts: a stop leaves the target alone. -/
theorem receipt_target (h : Replay log q) :
    log.findSome? (fun r => r.receipt?.bind (·.targetRunId)) = q.map (·.targetRunId) := by
  induction h with
  | nil => rfl
  | @cons log q r q' before advances fresh ih =>
    cases advances with
    | @enqueue _ r runId itemId text kind revision target waits =>
      have hrow : (SteeringRecord.receipt r).receipt?.bind (·.targetRunId) = some runId := target
      rw [List.findSome?_cons_of_isSome (by rw [hrow]; rfl), hrow]
      exact congrArg some waits.symm
    | @edit q r i text kind revision target | @remove q r i kind revision target
    | @pause q r kind revision target =>
      have hrow : (SteeringRecord.receipt r).receipt?.bind (·.targetRunId) = none := target
      rw [List.findSome?_cons_of_isNone (by rw [hrow]; rfl), ih]
      rfl
    | @resume q r runId kind revision target =>
      have hrow : (SteeringRecord.receipt r).receipt?.bind (·.targetRunId) = some runId := target
      rw [List.findSome?_cons_of_isSome (by rw [hrow]; rfl), hrow]
      rfl
    | stop =>
      rw [List.findSome?_cons_of_isNone rfl, ih]
      rfl

/-- A queue is paused as the newest record that says so. -/
theorem paused (h : Replay log q) : log.findSome? (·.row.paused) = q.map (·.paused) := by
  induction h with
  | nil => rfl
  | @cons log q r q' before advances fresh ih =>
    have hlater : ∀ st, q = some st → st.revision + 1 ≠ 1 := by
      rintro st rfl
      have hempty : log ≠ [] := fun e => by simpa using (nil_iff before).mpr e
      have hlength : 0 < log.length := List.length_pos_iff.mpr hempty
      rw [revision_eq before]
      omega
    cases advances with
    | @enqueue _ r runId itemId text kind revision target waits =>
      cases q with
      | none =>
        have hone : r.queueRevision = 1 := revision
        have hrow : (SteeringRecord.receipt r).row.paused = some true := by
          show (if r.changeKind = .resume then _ else _) = _
          rw [if_neg (by simp [kind]), if_pos (Or.inr hone)]
        rw [List.findSome?_cons_of_isSome (by simp [hrow]), hrow]
        rfl
      | some st =>
        have hrow : (SteeringRecord.receipt r).row.paused = none :=
          SteeringMutationRequest.paused_none (by simp [kind]) (by simp [kind])
            (revision ▸ hlater st rfl)
        rw [List.findSome?_cons_of_isNone (by simp [hrow]), ih]
        rfl
    | @edit q r i text kind revision | @remove q r i kind revision =>
      have hrow : (SteeringRecord.receipt r).row.paused = none :=
        SteeringMutationRequest.paused_none (by simp [kind]) (by simp [kind])
          (revision ▸ hlater q rfl)
      rw [List.findSome?_cons_of_isNone (by simp [hrow]), ih]
      rfl
    | @pause q r kind revision =>
      have hrow : (SteeringRecord.receipt r).row.paused = some true := by
        show (if r.changeKind = .resume then _ else _) = _
        rw [if_neg (by simp [kind]), if_pos (Or.inl kind)]
      rw [List.findSome?_cons_of_isSome (by simp [hrow]), hrow]
      rfl
    | @resume q r runId kind revision =>
      have hrow : (SteeringRecord.receipt r).row.paused = some false := if_pos kind
      rw [List.findSome?_cons_of_isSome (by simp [hrow]), hrow]
      rfl
    | stop => rfl

end Replay

/-! ## Items -/

def itemsOf (q : Option SteeringState) : List SteeringItem := (q.map (·.items)).getD []

theorem opened_items (runId : RunId) (q : Option SteeringState) :
    (SteeringState.opened runId q).items = itemsOf q := by
  cases q <;> rfl

/-- What a change adds to the number of items. -/
def SteeringMutationRequest.delta (r : SteeringMutationRequest) : Int :=
  match r.changeKind with
  | .enqueue => 1
  | .remove => -1
  | _ => 0

def SteeringRecord.delta : SteeringRecord → Int
  | receipt r => r.delta
  | lifecycle _ => 0

/-- The newest receipt of an item. -/
def newestOf (log : List SteeringRecord) (itemId : SteeringItemId) : Option SteeringRecord :=
  log.find? fun r => decide (r.itemId = some itemId)

theorem newestOf_cons_self {log : List SteeringRecord} {r : SteeringRecord}
    {itemId : SteeringItemId} (h : r.itemId = some itemId) :
    newestOf (r :: log) itemId = some r :=
  List.find?_cons_of_pos (by simp [h])

theorem newestOf_cons_ne {log : List SteeringRecord} {r : SteeringRecord} {itemId : SteeringItemId}
    (h : r.itemId ≠ some itemId) : newestOf (r :: log) itemId = newestOf log itemId :=
  List.find?_cons_of_neg (by simpa using h)

/-- The enqueue of an item. -/
def EnqueuedBy (i : SteeringItem) (e : SteeringMutationRequest) : Prop :=
  e.changeKind = .enqueue ∧ e.itemId = some i.itemId ∧ e.acceptedSequence = i.enqueueSequence ∧
    e.acceptedAtMilliseconds = i.createdAtMilliseconds

/-- The receipt that gave an item its text and its revision. -/
def WrittenBy (i : SteeringItem) (l : SteeringMutationRequest) : Prop :=
  (l.changeKind = .enqueue ∨ l.changeKind = .edit) ∧ l.itemRevision = some i.revision ∧
    l.text = some i.text

/-- What a history says of an item that waits. -/
def Waiting (log : List SteeringRecord) (i : SteeringItem) : Prop :=
  (∃ e, .receipt e ∈ log ∧ EnqueuedBy i e) ∧
    ∃ l, newestOf log i.itemId = some (.receipt l) ∧ WrittenBy i l

/-- A record of another item, or of none, that enqueues nothing of this one. -/
theorem waiting_cons_ne {log : List SteeringRecord} {r : SteeringRecord} {i : SteeringItem}
    (h : r.itemId ≠ some i.itemId) : Waiting (r :: log) i ↔ Waiting log i := by
  unfold Waiting
  rw [newestOf_cons_ne h]
  refine and_congr_left fun _ => ⟨?_, ?_⟩
  · rintro ⟨e, he, hitem⟩
    rcases List.mem_cons.mp he with heq | he
    · rw [← heq] at h
      exact absurd hitem.2.1 h
    · exact ⟨e, he, hitem⟩
  · rintro ⟨e, he, hitem⟩
    exact ⟨e, List.mem_cons_of_mem _ he, hitem⟩

namespace Replay

variable {log newer older : List SteeringRecord} {q : Option SteeringState} {r : SteeringRecord}
  {st : SteeringState}

/-- **The items of a queue can be read off its history.** -/
theorem waiting (h : Replay log q) (i : SteeringItem) : i ∈ itemsOf q ↔ Waiting log i := by
  induction h generalizing i with
  | nil => simp [itemsOf, Waiting]
  | @cons log q r q' before advances fresh ih =>
    cases advances with
    | @enqueue _ r runId itemId text kind revision target waits item itemRevision written room =>
      have hfresh : ∀ r' ∈ log, r'.itemId ≠ some itemId :=
        fun r' hr' => item ▸ fresh r rfl kind r' hr'
      show i ∈ r.enqueued itemId text :: (SteeringState.opened runId q).items ↔ _
      rw [opened_items, List.mem_cons]
      by_cases hitem : i.itemId = itemId
      · have hself : newestOf (.receipt r :: log) i.itemId = some (.receipt r) :=
          newestOf_cons_self (item.trans (congrArg some hitem.symm))
        constructor
        · rintro (rfl | hi)
          · exact ⟨⟨r, List.mem_cons_self .., kind, item, rfl, rfl⟩, r, hself, Or.inl kind,
              itemRevision, written⟩
          · obtain ⟨⟨e, he, -, hid, -⟩, -⟩ := (ih i).mp hi
            exact absurd (hid.trans (congrArg some hitem)) (hfresh _ he)
        · rintro ⟨⟨e, he, -, hid, hsequence, htime⟩, l, hl, -, hrevision, htext⟩
          rw [hself] at hl
          obtain rfl : r = l := by simpa using hl
          have hsame : e = r := by
            rcases List.mem_cons.mp he with heq | he
            · simpa using heq
            · exact absurd (hid.trans (congrArg some hitem)) (hfresh _ he)
          subst hsame
          refine Or.inl ?_
          rw [itemRevision] at hrevision
          rw [written] at htext
          cases i
          simp_all [SteeringMutationRequest.enqueued]
      · have hne : (SteeringRecord.receipt r).itemId ≠ some i.itemId := by
          show r.itemId ≠ _
          rw [item]
          exact fun e => hitem (Option.some.inj e).symm
        rw [waiting_cons_ne hne, ← ih i]
        refine or_iff_right fun e => hitem ?_
        rw [e]
        rfl
    | @edit st r j text kind revision target wait item itemRevision written =>
      show i ∈ Table.modify _ _ _ st.items ↔ _
      rw [Table.mem_modify]
      by_cases hitem : i.itemId = j.itemId
      · have hself : newestOf (.receipt r :: log) i.itemId = some (.receipt r) :=
          newestOf_cons_self (item.trans (congrArg some hitem.symm))
        constructor
        · rintro ⟨k, hk, rfl⟩
          by_cases hkey : k.itemId = j.itemId
          · rw [if_pos hkey] at hself ⊢
            obtain ⟨⟨e, he, henqueued⟩, -⟩ := (ih k).mp hk
            exact ⟨⟨e, List.mem_cons_of_mem _ he, henqueued⟩, r, hself, Or.inr kind, itemRevision,
              written⟩
          · rw [if_neg hkey] at hitem
            exact absurd hitem hkey
        · rintro ⟨⟨e, he, henqueued⟩, l, hl, -, hrevision, htext⟩
          rw [hself] at hl
          obtain rfl : r = l := by simpa using hl
          have hin : .receipt e ∈ log := by
            rcases List.mem_cons.mp he with heq | he
            · obtain rfl : e = r := by simpa using heq
              have hkind := henqueued.1
              rw [kind] at hkind
              cases hkind
            · exact he
          obtain ⟨-, l, hl, hwritten⟩ := (ih j).mp wait
          refine ⟨⟨j.itemId, i.enqueueSequence, j.revision, j.text, i.createdAtMilliseconds⟩,
            (ih _).mpr ⟨⟨e, hin, henqueued.1, ?_, henqueued.2.2⟩, l, hl, hwritten⟩, ?_⟩
          · exact henqueued.2.1.trans (congrArg some hitem)
          · rw [if_pos rfl]
            rw [itemRevision] at hrevision
            rw [written] at htext
            cases i
            simp_all
      · have hne : (SteeringRecord.receipt r).itemId ≠ some i.itemId := by
          show r.itemId ≠ _
          rw [item]
          exact fun e => hitem (Option.some.inj e).symm
        rw [waiting_cons_ne hne, ← ih i]
        constructor
        · rintro ⟨k, hk, rfl⟩
          by_cases hkey : k.itemId = j.itemId
          · rw [if_pos hkey] at hitem
            exact absurd hkey hitem
          · rw [if_neg hkey]
            exact hk
        · intro hi
          exact ⟨i, hi, if_neg hitem⟩
    | @remove st r j kind revision target wait item itemRevision =>
      show i ∈ st.items.filter _ ↔ _
      rw [List.mem_filter, decide_eq_true_eq]
      by_cases hitem : i.itemId = j.itemId
      · have hself : newestOf (.receipt r :: log) i.itemId = some (.receipt r) :=
          newestOf_cons_self (item.trans (congrArg some hitem.symm))
        refine ⟨fun hi => absurd hitem hi.2, ?_⟩
        rintro ⟨-, l, hl, hkind, -⟩
        rw [hself] at hl
        obtain rfl : r = l := by simpa using hl
        simp [kind] at hkind
      · have hne : (SteeringRecord.receipt r).itemId ≠ some i.itemId := by
          show r.itemId ≠ _
          rw [item]
          exact fun e => hitem (Option.some.inj e).symm
        rw [waiting_cons_ne hne, ← ih i]
        exact and_iff_left hitem
    | @pause st r kind revision target item | @resume st r runId kind revision target item =>
      rw [waiting_cons_ne (by show r.itemId ≠ _; rw [item]; simp), ← ih i]
      rfl
    | @stop st f running =>
      rw [waiting_cons_ne (by show (none : Option SteeringItemId) ≠ _; simp), ← ih i]
      rfl

/-- The items come in the order of their enqueues, each once. -/
theorem items_below (h : Replay log q) {n : Nat} (hlog : Below SteeringRecord.sequence n log) :
    Below SteeringItem.enqueueSequence n (itemsOf q) ∧
      ((itemsOf q).map SteeringItem.itemId).Nodup := by
  induction h generalizing n with
  | nil => exact ⟨below_nil, List.nodup_nil⟩
  | @cons log q r q' before advances fresh ih =>
    obtain ⟨hbelow, hnodup⟩ := ih (n := r.sequence)
      ⟨hlog.tail.decreasing, hlog.head_gt⟩
    have hhead : r.sequence < n := hlog.bounded r (List.mem_cons_self ..)
    cases advances with
    | @enqueue _ r runId itemId text kind revision target waits item =>
      show Below _ n (r.enqueued itemId text :: (SteeringState.opened runId q).items) ∧
        ((r.enqueued itemId text :: (SteeringState.opened runId q).items).map _).Nodup
      rw [opened_items]
      refine ⟨hbelow.cons le_rfl hhead, List.nodup_cons.mpr ⟨fun hin => ?_, hnodup⟩⟩
      obtain ⟨i, hi, hid⟩ := List.mem_map.mp hin
      obtain ⟨⟨e, he, -, hitem, -⟩, -⟩ := (before.waiting i).mp hi
      refine fresh r rfl kind _ he (hitem.trans ?_)
      rw [hid]
      exact item.symm
    | @edit st r j text =>
      refine ⟨(hbelow.mono hhead.le).map _ fun k => by split <;> rfl, ?_⟩
      have hsame : (Table.modify SteeringItem.itemId j.itemId
          (fun k => { k with text := text, revision := j.revision + 1 }) st.items).map
            SteeringItem.itemId = st.items.map SteeringItem.itemId :=
        Table.modify_column _ fun _ => rfl
      exact hsame ▸ hnodup
    | @remove st r j =>
      exact ⟨(hbelow.mono hhead.le).filter _, hnodup.sublist (List.filter_sublist.map _)⟩
    | pause | resume | stop => exact ⟨hbelow.mono hhead.le, hnodup⟩

/-- No queue holds more than sixteen items. -/
theorem room (h : Replay log q) : (itemsOf q).length ≤ maxSteeringItems := by
  induction h with
  | nil => exact Nat.zero_le _
  | @cons log q r q' before advances fresh ih =>
    cases advances with
    | @enqueue _ r runId itemId text kind revision target waits item itemRevision written room =>
      exact room
    | edit =>
      show (Table.modify ..).length ≤ _
      rw [Table.length_modify]
      exact ih
    | remove => exact (List.length_filter_le ..).trans ih
    | pause | resume | stop => exact ih

/-- The revision of an item counts its edits. -/
theorem edits (h : Replay log q) : ∀ i ∈ itemsOf q, i.revision = 1 + log.countP fun r =>
    r.receipt?.any fun e => e.changeKind = .edit && e.itemId = some i.itemId := by
  induction h with
  | nil => simp [itemsOf]
  | @cons log q r q' before advances fresh ih =>
    have hother : ∀ (i : SteeringItem), i ∈ itemsOf q → (r.receipt?.any fun e =>
        e.changeKind = .edit && e.itemId = some i.itemId) = false →
        i.revision = 1 + (r :: log).countP fun r =>
          r.receipt?.any fun e => e.changeKind = .edit && e.itemId = some i.itemId := by
      intro i hi hno
      rw [List.countP_cons_of_neg (by simp [hno])]
      exact ih i hi
    intro i hi
    cases advances with
    | @enqueue _ r runId itemId text kind revision target waits item =>
      change i ∈ r.enqueued itemId text :: (SteeringState.opened runId q).items at hi
      rw [opened_items] at hi
      rcases List.mem_cons.mp hi with rfl | hi
      · rw [List.countP_cons_of_neg (by simp [SteeringRecord.receipt?, kind]),
          List.countP_eq_zero.mpr]
        · rfl
        · intro r' hr'
          have hne := fresh r rfl kind r' hr'
          rw [item] at hne
          cases r' with
          | lifecycle f => simp [SteeringRecord.receipt?]
          | receipt e =>
            have hne : e.itemId ≠ some itemId := hne
            simp [SteeringRecord.receipt?, SteeringMutationRequest.enqueued, hne]
      · exact hother i hi (by simp [SteeringRecord.receipt?, kind])
    | @edit st r j text kind revision target wait item itemRevision =>
      obtain ⟨k, hk, rfl⟩ := Table.mem_modify.mp hi
      by_cases hkey : k.itemId = j.itemId
      · rw [if_pos hkey]
        have hcount := ih j wait
        rw [List.countP_cons_of_pos (by simp [SteeringRecord.receipt?, kind, item, hkey])]
        show j.revision + 1 = _
        rw [hcount, hkey]
        omega
      · rw [if_neg hkey]
        refine hother k hk ?_
        have hne : ¬ j.itemId = k.itemId := fun e => hkey e.symm
        simp [SteeringRecord.receipt?, kind, item, hne]
    | @remove st r j kind =>
      exact hother i (List.mem_of_mem_filter hi) (by simp [SteeringRecord.receipt?, kind])
    | @pause st r kind | @resume st r runId kind =>
      exact hother i hi (by simp [SteeringRecord.receipt?, kind])
    | stop => exact hother i hi rfl

/-- Removing the one row with a key shortens the list by one. -/
theorem length_filter_key {items : List SteeringItem} {i : SteeringItem}
    (hnodup : (items.map SteeringItem.itemId).Nodup) (hi : i ∈ items) :
    (items.filter fun j => decide (j.itemId ≠ i.itemId)).length + 1 = items.length := by
  induction items with
  | nil => cases hi
  | cons j items ih =>
    obtain ⟨hhead, htail⟩ := List.nodup_cons.mp hnodup
    rcases List.mem_cons.mp hi with rfl | hi
    · have hall : items.filter (fun j => decide (j.itemId ≠ i.itemId)) = items := by
        refine List.filter_eq_self.mpr fun j hj => decide_eq_true fun e => hhead ?_
        exact e ▸ List.mem_map_of_mem hj
      rw [List.filter_cons_of_neg (by simp), hall, List.length_cons]
    · have hne : j.itemId ≠ i.itemId := fun e => hhead (e ▸ List.mem_map_of_mem hi)
      rw [List.filter_cons_of_pos (by simpa using hne), List.length_cons, List.length_cons,
        ih htail hi]

/-- The enqueues and removals of a history add up to the items of its queue. -/
theorem occupancy (h : Replay log q) {n : Nat} (hlog : Below SteeringRecord.sequence n log) :
    (log.map SteeringRecord.delta).sum = (itemsOf q).length := by
  induction h generalizing n with
  | nil => rfl
  | @cons log q r q' before advances fresh ih =>
    have hsum := ih hlog.tail
    rw [List.map_cons, List.sum_cons, hsum]
    cases advances with
    | @enqueue _ r runId itemId text kind =>
      have hdelta : (SteeringRecord.receipt r).delta = 1 := by
        simp [SteeringRecord.delta, SteeringMutationRequest.delta, kind]
      show _ = ((r.enqueued itemId text :: (SteeringState.opened runId q).items).length : Int)
      rw [hdelta, opened_items, List.length_cons]
      omega
    | @edit st r j text kind =>
      have hdelta : (SteeringRecord.receipt r).delta = 0 := by
        simp [SteeringRecord.delta, SteeringMutationRequest.delta, kind]
      show _ = ((Table.modify _ _ _ st.items).length : Int)
      rw [hdelta, Table.length_modify, Int.zero_add]
      rfl
    | @remove st r j kind revision target wait =>
      have hdelta : (SteeringRecord.receipt r).delta = -1 := by
        simp [SteeringRecord.delta, SteeringMutationRequest.delta, kind]
      have hlength : (st.items.filter fun k => decide (k.itemId ≠ j.itemId)).length + 1 =
          st.items.length := length_filter_key (before.items_below hlog.tail).2 wait
      show _ + (st.items.length : Int) =
        ((st.items.filter fun k => decide (k.itemId ≠ j.itemId)).length : Int)
      rw [hdelta]
      omega
    | @pause st r kind | @resume st r runId kind =>
      have hdelta : (SteeringRecord.receipt r).delta = 0 := by
        simp [SteeringRecord.delta, SteeringMutationRequest.delta, kind]
      rw [hdelta, Int.zero_add]
      rfl
    | stop => exact Int.zero_add _

/-! ## The receipts of an item -/

/-- An enqueue is the first receipt of its item. -/
theorem enqueue_first {e : SteeringMutationRequest} (h : Replay (.receipt e :: log) q)
    (kind : e.changeKind = .enqueue) : ∀ r ∈ log, r.itemId ≠ e.itemId := by
  cases h with
  | cons before advances fresh => exact fresh e rfl kind

/-- An item is enqueued once. -/
theorem enqueue_unique (h : Replay log q) {e e' : SteeringMutationRequest}
    (he : .receipt e ∈ log) (he' : .receipt e' ∈ log) (hkind : e.changeKind = .enqueue)
    (hkind' : e'.changeKind = .enqueue) (hitem : e.itemId = e'.itemId) : e = e' := by
  induction h with
  | nil => cases he
  | @cons log q r q' before advances fresh ih =>
    rcases List.mem_cons.mp he with heq | he <;> rcases List.mem_cons.mp he' with heq' | he'
    · simpa using heq.trans heq'.symm
    · exact absurd hitem.symm (fresh e heq.symm hkind _ he')
    · exact absurd hitem (fresh e' heq'.symm hkind' _ he)
    · exact ih he he'

/-- An edit follows the receipt that wrote the revision before. -/
theorem edit_follows {e : SteeringMutationRequest} (h : Replay (.receipt e :: log) q)
    (kind : e.changeKind = .edit) : ∃ itemId l n, e.itemId = some itemId ∧
      newestOf log itemId = some (.receipt l) ∧ (l.changeKind = .enqueue ∨ l.changeKind = .edit) ∧
      l.itemRevision = some n ∧ e.itemRevision = some (n + 1) := by
  cases h with
  | cons before advances fresh =>
    cases advances with
    | @edit st r i text kind revision target wait item itemRevision =>
      obtain ⟨-, l, hl, hkind, hrevision, -⟩ := (before.waiting i).mp wait
      exact ⟨i.itemId, l, i.revision, item, hl, hkind, hrevision, itemRevision⟩
    | enqueue kind' | remove kind' | pause kind' | resume kind' => simp [kind] at kind'

/-- A removal follows the receipt that wrote the revision it removes. -/
theorem remove_follows {e : SteeringMutationRequest} (h : Replay (.receipt e :: log) q)
    (kind : e.changeKind = .remove) : ∃ itemId l, e.itemId = some itemId ∧
      newestOf log itemId = some (.receipt l) ∧ (l.changeKind = .enqueue ∨ l.changeKind = .edit) ∧
      e.itemRevision = l.itemRevision := by
  cases h with
  | cons before advances fresh =>
    cases advances with
    | @remove st r i kind revision target wait item itemRevision =>
      obtain ⟨-, l, hl, hkind, hrevision, -⟩ := (before.waiting i).mp wait
      exact ⟨i.itemId, l, item, hl, hkind, itemRevision.trans hrevision.symm⟩
    | enqueue kind' | edit kind' | pause kind' | resume kind' => simp [kind] at kind'

/-- An item waits as long as its newest receipt does not remove it. -/
theorem newest_waits (h : Replay log q) {itemId : SteeringItemId} {l : SteeringMutationRequest}
    (hnewest : newestOf log itemId = some (.receipt l))
    (hkind : l.changeKind = .enqueue ∨ l.changeKind = .edit) :
    ∃ i ∈ itemsOf q, i.itemId = itemId := by
  induction h with
  | nil => cases hnewest
  | @cons log q r q' before advances fresh ih =>
    by_cases hself : r.itemId = some itemId
    · rw [newestOf_cons_self hself] at hnewest
      obtain rfl := Option.some.inj hnewest
      cases advances with
      | @enqueue _ _ runId itemId' text kind revision target waits item =>
        exact ⟨l.enqueued itemId' text, List.mem_cons_self ..,
          Option.some.inj (item.symm.trans hself)⟩
      | @edit st r i text kind revision target waiting item =>
        refine ⟨_, Table.mem_modify.mpr ⟨i, waiting, rfl⟩, ?_⟩
        rw [if_pos rfl]
        exact Option.some.inj (item.symm.trans hself)
      | remove kind | pause kind | resume kind => simp [kind] at hkind
    · rw [newestOf_cons_ne hself] at hnewest
      obtain ⟨i, hi, hid⟩ := ih hnewest
      cases advances with
      | @enqueue _ r runId itemId' text =>
        refine ⟨i, List.mem_cons_of_mem _ ?_, hid⟩
        rw [opened_items]
        exact hi
      | @edit st r j text =>
        refine ⟨_, Table.mem_modify.mpr ⟨i, hi, rfl⟩, ?_⟩
        split <;> exact hid
      | @remove st r j kind revision target waiting item =>
        refine ⟨i, List.mem_filter.mpr ⟨hi, decide_eq_true fun e => hself ?_⟩, hid⟩
        exact item.trans (congrArg some (e.symm.trans hid))
      | pause | resume | stop => exact ⟨i, hi, hid⟩

end Replay

end Morons
