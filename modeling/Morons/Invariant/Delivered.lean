import Morons.Invariant.Claims
import Morons.Startup.Rebuild

/-!
# Delivered events

Every row that a rebuild selects has been delivered once, and nothing else has:
the selected rows are, in some order, the events of the sessions that were not
cleaned, and the removals.  Each write adds an event with its row.
-/

namespace Morons

open Ledger

variable {d : Discipline} {s t : Store}

/-! ## One more row -/

section Rows

variable {created : List SessionCreatedFact} {renames : List SessionRenameRequest}
  {archives archives' : List SessionArchiveRequest} {deletes deletes' : List SessionDeleteRequest}
  {entries : List SessionEntry} {commands commands' : List LocalCommand}
  {accepted : List RunAcceptedFact} {states : List RunStateFact}
  {cancellations : List RunCancellationRequest} {toolFacts : List ToolOperationFact} {row : EventRow}

theorem eventRows_created (f : SessionCreatedFact) :
    (eventRows (f :: created) renames archives deletes entries commands accepted states
      cancellations toolFacts).Perm
      (⟨some f.deliveryEventId, f.factSequence, f.sessionId, some .sessionCreated,
        f.createdAtMilliseconds⟩ :: eventRows created renames archives deletes entries commands
          accepted states cancellations toolFacts) :=
  List.Perm.refl _

theorem eventRows_rename (r : SessionRenameRequest) :
    (eventRows created (r :: renames) archives deletes entries commands accepted states
      cancellations toolFacts).Perm
      (⟨some r.deliveryEventId, r.acceptedSequence, r.sessionId, some .sessionRenamed,
        r.acceptedAtMilliseconds⟩ :: eventRows created renames archives deletes entries commands
          accepted states cancellations toolFacts) := by
  simp only [eventRows, renameRows, List.map_cons, List.append_assoc, List.cons_append]
  exact List.perm_middle

theorem eventRows_archive (h : (archiveRows archives').Perm (row :: archiveRows archives)) :
    (eventRows created renames archives' deletes entries commands accepted states cancellations
      toolFacts).Perm (row :: eventRows created renames archives deletes entries commands accepted
        states cancellations toolFacts) := by
  rw [List.perm_iff_count] at h ⊢
  intro a
  have hone := h a
  simp only [eventRows, List.count_append, List.count_cons] at hone ⊢
  omega

theorem eventRows_delete (h : (deleteRows deletes').Perm (row :: deleteRows deletes)) :
    (eventRows created renames archives deletes' entries commands accepted states cancellations
      toolFacts).Perm (row :: eventRows created renames archives deletes entries commands accepted
        states cancellations toolFacts) := by
  rw [List.perm_iff_count] at h ⊢
  intro a
  have hone := h a
  simp only [eventRows, List.count_append, List.count_cons] at hone ⊢
  omega

theorem eventRows_entry (e : SessionEntry) :
    (eventRows created renames archives deletes (e :: entries) commands accepted states
      cancellations toolFacts).Perm
      (⟨some e.deliveryEventId, e.factSequence, e.sessionId, some e.body.eventKind,
        e.createdAtMilliseconds⟩ :: eventRows created renames archives deletes entries commands
          accepted states cancellations toolFacts) := by
  rw [List.perm_iff_count]
  intro a
  simp only [eventRows, entryRows, List.map_cons, List.count_append, List.count_cons]
  omega

theorem eventRows_commands (haccepted : acceptedCommandRows commands' = acceptedCommandRows commands)
    (hended : (endedCommandRows commands').Perm (row :: endedCommandRows commands)) :
    (eventRows created renames archives deletes entries commands' accepted states cancellations
      toolFacts).Perm (row :: eventRows created renames archives deletes entries commands accepted
        states cancellations toolFacts) := by
  rw [List.perm_iff_count] at hended ⊢
  intro a
  have hone := hended a
  simp only [eventRows, haccepted, List.count_append, List.count_cons] at hone ⊢
  omega

/-- A command that goes on is not selected. -/
theorem endedCommandRow_going {r : LocalCommand} (hopen : r.state.isTerminal = false)
    {row : EventRow} :
    (if 3 ≤ r.state.toRecord ∧ r.state.toRecord ≤ 5 then some row else none) = none := by
  refine if_neg fun hstate => ?_
  rw [(LocalCommandState.isTerminal_iff_record r.state).mpr hstate.1] at hopen
  cases hopen

/-- A command that was accepted has not ended. -/
theorem eventRows_command (c : LocalCommand) (hopen : c.state.isTerminal = false) :
    (eventRows created renames archives deletes entries (c :: commands) accepted states
      cancellations toolFacts).Perm
      (⟨some c.acceptedEventId, c.acceptedSequence, c.sessionId, some .localCommandChanged,
        c.acceptedAtMilliseconds⟩ :: eventRows created renames archives deletes entries commands
          accepted states cancellations toolFacts) := by
  have hended : endedCommandRows (c :: commands) = endedCommandRows commands :=
    List.filterMap_cons_none (endedCommandRow_going hopen)
  rw [List.perm_iff_count]
  intro a
  simp only [eventRows, hended, acceptedCommandRows, List.map_cons, List.count_append,
    List.count_cons]
  omega

theorem eventRows_accepted (f : RunAcceptedFact) :
    (eventRows created renames archives deletes entries commands (f :: accepted) states
      cancellations toolFacts).Perm
      (⟨some f.deliveryEventId, f.factSequence, f.sessionId, some .runAccepted,
        f.acceptedAtMilliseconds⟩ :: eventRows created renames archives deletes entries commands
          accepted states cancellations toolFacts) := by
  rw [List.perm_iff_count]
  intro a
  simp only [eventRows, acceptedRows, List.map_cons, List.count_append, List.count_cons]
  omega

theorem eventRows_state (f : RunStateFact) :
    (eventRows created renames archives deletes entries commands accepted (f :: states)
      cancellations toolFacts).Perm
      (⟨some f.deliveryEventId, f.factSequence, f.sessionId, rebuiltEventKind f.state,
        f.createdAtMilliseconds⟩ :: eventRows created renames archives deletes entries commands
          accepted states cancellations toolFacts) := by
  rw [List.perm_iff_count]
  intro a
  simp only [eventRows, stateRows, List.map_cons, List.count_append, List.count_cons]
  omega

theorem eventRows_cancellation (c : RunCancellationRequest) (happlied : c.intentApplied = true) :
    (eventRows created renames archives deletes entries commands accepted states
      (c :: cancellations) toolFacts).Perm
      (⟨c.deliveryEventId, c.factSequence, c.sessionId, some .cancellationRequested,
        c.acceptedAtMilliseconds⟩ :: eventRows created renames archives deletes entries commands
          accepted states cancellations toolFacts) := by
  have hrow : cancellationRows (c :: cancellations) = ⟨c.deliveryEventId, c.factSequence,
      c.sessionId, some .cancellationRequested, c.acceptedAtMilliseconds⟩ ::
        cancellationRows cancellations := List.filterMap_cons_some (if_pos happlied)
  rw [List.perm_iff_count]
  intro a
  simp only [eventRows, hrow, List.count_append, List.count_cons]
  omega

theorem eventRows_uncertainty (f : ToolOperationFact) (hkind : f.factKind.toRecord = 6) :
    (eventRows created renames archives deletes entries commands accepted states cancellations
      (f :: toolFacts)).Perm
      (⟨f.workspaceDeliveryEventId, f.factSequence, f.sessionId, some .toolUncertaintyChanged,
        f.createdAtMilliseconds⟩ :: eventRows created renames archives deletes entries commands
          accepted states cancellations toolFacts) := by
  have hrow : uncertaintyRows (f :: toolFacts) = ⟨f.workspaceDeliveryEventId, f.factSequence,
      f.sessionId, some .toolUncertaintyChanged, f.createdAtMilliseconds⟩ ::
        uncertaintyRows toolFacts := List.filterMap_cons_some (if_pos hkind)
  rw [List.perm_iff_count]
  intro a
  simp only [eventRows, hrow, List.count_append, List.count_cons]
  omega

end Rows

/-! ## The rows of a session -/

/-- Whether a row outlasts the cleanup of a session. -/
def EventRow.outlasts (sessionId : SessionId) (x : EventRow) : Bool :=
  x.eventKind = some .sessionDeleted || x.sessionId ≠ sessionId

/-- Rows of a session that is cleaned are selected no more. -/
theorem filterMap_session {Row : Type} (session : Row → SessionId) (row : Row → Option EventRow)
    (sessionId : SessionId) (rows : List Row)
    (hrow : ∀ r x, row r = some x → x.sessionId = session r ∧ x.eventKind ≠ some .sessionDeleted) :
    (rows.filter fun r => session r ≠ sessionId).filterMap row =
      (rows.filterMap row).filter (EventRow.outlasts sessionId) := by
  rw [List.filterMap_filter, List.filter_filterMap]
  refine List.filterMap_congr fun r _ => ?_
  cases hx : row r with
  | none => simp
  | some x =>
    obtain ⟨hsession, hkind⟩ := hrow r x hx
    by_cases hsame : session r = sessionId
    · simp [EventRow.outlasts, hsame, hsession, hkind, Option.filter]
    · simp [EventRow.outlasts, hsame, hsession, Option.filter]

theorem map_session {Row : Type} (session : Row → SessionId) (row : Row → EventRow)
    (sessionId : SessionId) (rows : List Row)
    (hrow : ∀ r, (row r).sessionId = session r ∧ (row r).eventKind ≠ some .sessionDeleted) :
    (rows.filter fun r => session r ≠ sessionId).map row =
      (rows.map row).filter (EventRow.outlasts sessionId) := by
  rw [← List.filterMap_eq_map]
  refine filterMap_session session _ sessionId rows fun r x hx => ?_
  obtain rfl : row r = x := Option.some.inj hx
  exact hrow r

/-- Removals are selected from the requests that are complete. -/
theorem mem_deleteRows {deletes : List SessionDeleteRequest} {x : EventRow} :
    x ∈ deleteRows deletes ↔ ∃ r ∈ deletes, r.state = .complete ∧
      x = ⟨some r.deliveryEventId, r.acceptedSequence, r.sessionId, some .sessionDeleted,
        r.acceptedAtMilliseconds⟩ := by
  rw [deleteRows, List.mem_filterMap]
  constructor
  · rintro ⟨r, hr, hx⟩
    split at hx
    case isTrue hstate => exact ⟨r, hr, hstate, (Option.some.inj hx).symm⟩
    case isFalse => cases hx
  · rintro ⟨r, hr, hstate, rfl⟩
    exact ⟨r, hr, if_pos hstate⟩

/-- What is selected without the facts of a session. -/
theorem eventRows_session (sessionId : SessionId) {created : List SessionCreatedFact}
    {renames : List SessionRenameRequest} {archives : List SessionArchiveRequest}
    {deletes deletes' : List SessionDeleteRequest} {entries : List SessionEntry}
    {commands : List LocalCommand} {accepted : List RunAcceptedFact} {states : List RunStateFact}
    {cancellations : List RunCancellationRequest} {toolFacts : List ToolOperationFact}
    (hdeletes : deleteRows deletes' = deleteRows deletes) :
    eventRows (created.filter fun r => r.sessionId ≠ sessionId)
      (renames.filter fun r => r.sessionId ≠ sessionId)
      (archives.filter fun r => r.sessionId ≠ sessionId) deletes'
      (entries.filter fun r => r.sessionId ≠ sessionId)
      (commands.filter fun r => r.sessionId ≠ sessionId)
      (accepted.filter fun r => r.sessionId ≠ sessionId)
      (states.filter fun r => r.sessionId ≠ sessionId)
      (cancellations.filter fun r => r.sessionId ≠ sessionId)
      (toolFacts.filter fun r => r.sessionId ≠ sessionId) =
    (eventRows created renames archives deletes entries commands accepted states cancellations
      toolFacts).filter (EventRow.outlasts sessionId) := by
  have hkept : (deleteRows deletes).filter (EventRow.outlasts sessionId) = deleteRows deletes := by
    refine List.filter_eq_self.mpr fun x hx => ?_
    obtain ⟨r, -, -, rfl⟩ := mem_deleteRows.mp hx
    rfl
  simp only [eventRows, List.filter_append, hdeletes, hkept]
  congr 1
  · congr 1
    · congr 1
      · congr 1
        · congr 1
          · congr 1
            · congr 1
              · congr 1
                congr 1
                · congr 1
                  · exact map_session _ _ sessionId created fun r => ⟨rfl, by simp⟩
                  · exact map_session _ _ sessionId renames fun r => ⟨rfl, by simp⟩
                · refine filterMap_session _ _ sessionId archives fun r x hx => ?_
                  split at hx <;> cases hx
                  exact ⟨rfl, by simp⟩
              · refine map_session _ _ sessionId entries fun r => ⟨rfl, ?_⟩
                cases r.body <;> simp [EntryBody.eventKind]
            · exact map_session _ _ sessionId commands fun r => ⟨rfl, by simp⟩
          · refine filterMap_session _ _ sessionId commands fun r x hx => ?_
            split at hx <;> cases hx
            exact ⟨rfl, by simp⟩
        · exact map_session _ _ sessionId accepted fun r => ⟨rfl, by simp⟩
      · refine map_session _ _ sessionId states fun r => ⟨rfl, ?_⟩
        cases r.state <;> simp [rebuiltEventKind]
    · refine filterMap_session _ _ sessionId cancellations fun r x hx => ?_
      split at hx <;> cases hx
      exact ⟨rfl, by simp⟩
  · refine filterMap_session _ _ sessionId toolFacts fun r x hx => ?_
    split at hx <;> cases hx
    exact ⟨rfl, by simp⟩

/-- Of the selected rows only the removals have their kind. -/
theorem mem_deleteRows_of_kind {x : EventRow} (hx : x ∈ s.eventRows)
    (hkind : x.eventKind = some .sessionDeleted) : x ∈ deleteRows s.sessionDeleteRequests := by
  simp only [Store.eventRows, eventRows, List.mem_append] at hx
  rcases hx with (((((((((hx | hx) | hx) | hx) | hx) | hx) | hx) | hx) | hx) | hx) | hx
  · obtain ⟨r, -, rfl⟩ := List.mem_map.mp hx
    simp at hkind
  · obtain ⟨r, -, rfl⟩ := List.mem_map.mp hx
    simp at hkind
  · obtain ⟨r, -, hrow⟩ := List.mem_filterMap.mp hx
    split at hrow <;> cases hrow
    simp at hkind
  · exact hx
  · obtain ⟨r, -, rfl⟩ := List.mem_map.mp hx
    cases hbody : r.body <;> simp [hbody, EntryBody.eventKind] at hkind
  · obtain ⟨r, -, rfl⟩ := List.mem_map.mp hx
    simp at hkind
  · obtain ⟨r, -, hrow⟩ := List.mem_filterMap.mp hx
    split at hrow <;> cases hrow
    simp at hkind
  · obtain ⟨r, -, rfl⟩ := List.mem_map.mp hx
    simp at hkind
  · obtain ⟨r, -, rfl⟩ := List.mem_map.mp hx
    cases hstate : r.state <;> simp [hstate, rebuiltEventKind] at hkind
  · obtain ⟨r, -, hrow⟩ := List.mem_filterMap.mp hx
    split at hrow <;> cases hrow
    simp at hkind
  · obtain ⟨r, -, hrow⟩ := List.mem_filterMap.mp hx
    split at hrow <;> cases hrow
    simp at hkind

theorem rebuiltEventKind_eq (state : RunState) :
    rebuiltEventKind state = eventKindForState state := by
  cases state <;> rfl

/-! ## The invariant -/

/-- The row of an event. -/
def DeliveryEvent.row (e : DeliveryEvent) : EventRow :=
  ⟨some e.eventId, e.eventSequence, e.sessionId, some e.eventKind, e.createdAtMilliseconds⟩

/-- A removal, or an event of a session whose facts are there. -/
def Store.lasts (s : Store) (e : DeliveryEvent) : Bool :=
  e.eventKind = .sessionDeleted || s.sessionCreatedFacts.any fun f => f.sessionId = e.sessionId

/-- The events that a rebuild keeps. -/
def Store.lasting (s : Store) : List DeliveryEvent := s.deliveryEvents.filter s.lasts

/-- The facts of the session are deleted. -/
def Cleaned (s : Store) (sessionId : SessionId) : Prop :=
  ∃ r ∈ s.sessionDeleteRequests, r.sessionId = sessionId ∧ r.state ≠ .prepared

structure Delivered (s : Store) : Prop where
  rows : s.eventRows.Perm (s.lasting.map DeliveryEvent.row)
  known : ∀ e ∈ s.deliveryEvents, Created s e.sessionId ∨ Cleaned s e.sessionId
  deletes : Table.Keyed SessionDeleteRequest.sessionId s.sessionDeleteRequests

theorem delivered_empty : Delivered Store.empty :=
  ⟨List.Perm.refl _, fun _ he => absurd he List.not_mem_nil, List.nodup_nil⟩

theorem Created.lasts {e : DeliveryEvent} (h : Created s e.sessionId) : s.lasts e = true := by
  obtain ⟨f, hf, hsession⟩ := h
  refine Bool.or_eq_true_iff.mpr (.inr (List.any_eq_true.mpr ⟨f, hf, ?_⟩))
  exact decide_eq_true hsession

/-- The session of a run was created. -/
theorem created_of_run (hs : Sound s) {runId : RunId} {run : Run} (found : loadRun s runId = some run) :
    Created s run.sessionId := by
  obtain ⟨f, hf, e⟩ := hs.bound.fact (Table.find_mem found)
  have hsession : f.sessionId = run.sessionId := congrArg RunOrigin.sessionId e
  have hin := hs.bound.sessions f hf
  rw [hs.aligned.sessionIds, hsession] at hin
  exact List.mem_map.mp hin

theorem created_of_state (hs : Sound s) {sessionId : SessionId} {state : SessionRunState}
    (found : loadSessionRunState s sessionId = some state) : Created s sessionId := by
  refine hs.aligned.created_of_session (hs.aligned.runState_isSome.mp ?_)
  rw [found]
  rfl

namespace Delivered

/-- Events are delivered together with their rows. -/
theorem grow (h : Delivered s) (events : List DeliveryEvent)
    (hcreated : t.sessionCreatedFacts = s.sessionCreatedFacts)
    (hdeletes : t.sessionDeleteRequests = s.sessionDeleteRequests)
    (hevents : t.deliveryEvents = events ++ s.deliveryEvents)
    (hknown : ∀ e ∈ events, Created s e.sessionId)
    (hrows : t.eventRows.Perm (events.map DeliveryEvent.row ++ s.eventRows)) : Delivered t where
  rows := by
    have hlasting : t.lasting = events ++ s.lasting := by
      have hsame : t.lasts = s.lasts := by
        funext e
        rw [Store.lasts, Store.lasts, hcreated]
      rw [Store.lasting, hsame, hevents, List.filter_append,
        List.filter_eq_self.mpr fun e he => (hknown e he).lasts]
      rfl
    rw [hlasting, List.map_append]
    exact hrows.trans (h.rows.append_left _)
  known := by
    intro e he
    rw [Created, Cleaned, hcreated, hdeletes]
    rw [hevents] at he
    rcases List.mem_append.mp he with he | he
    · exact .inl (hknown e he)
    · exact h.known e he
  deletes := by
    rw [hdeletes]
    exact h.deletes

theorem paused (h : Delivered s) (p : Paused s t) : Delivered t := by
  rw [p.frame]
  exact { h with }

/-- A transition delivers the event of its state. -/
theorem move (h : Delivered s) {run : Run} {state : RunState} {failure : Option RunFailureKind}
    {kind : EventKind} {now n : Nat} (hcreated : Created s run.sessionId)
    (hkind : eventKindForState state = some kind) :
    Delivered (moveRun s run state failure kind now n) := by
  refine h.grow [⟨s.nextIdentifier, s.nextValue, run.sessionId, kind, now⟩] rfl rfl rfl
    (by simpa using hcreated) ?_
  have hrow : rebuiltEventKind state = some kind := (rebuiltEventKind_eq state).trans hkind
  refine (eventRows_state ⟨s.nextValue, run.sessionId, run.id, state, failure, now,
    s.nextIdentifier⟩).trans ?_
  rw [hrow]
  exact List.Perm.refl _

theorem ended (h : Delivered s) {run : Run} {state : RunState} {failure : Option RunFailureKind}
    {kind : EventKind} {now : Nat} {u : Store} (hcreated : Created s run.sessionId)
    (hkind : eventKindForState state = some kind) :
    Delivered (endRun s u run state failure kind now) :=
  { h.move (n := u.nextValue) hcreated hkind with }

/-- An entry of the transcript delivers its event. -/
theorem entry (h : Delivered s) {e : SessionEntry} (hcreated : Created s e.sessionId)
    (hentries : t.sessionEntries = e :: s.sessionEntries)
    (hevents : t.deliveryEvents = ⟨e.deliveryEventId, e.factSequence, e.sessionId,
      e.body.eventKind, e.createdAtMilliseconds⟩ :: s.deliveryEvents)
    (hframe : t.sessionCreatedFacts = s.sessionCreatedFacts ∧
      t.sessionRenameRequests = s.sessionRenameRequests ∧
      t.sessionArchiveRequests = s.sessionArchiveRequests ∧
      t.sessionDeleteRequests = s.sessionDeleteRequests ∧ t.localCommands = s.localCommands ∧
      t.runAcceptedFacts = s.runAcceptedFacts ∧ t.runStateFacts = s.runStateFacts ∧
      t.runCancellationRequests = s.runCancellationRequests ∧
      t.toolOperationFacts = s.toolOperationFacts) : Delivered t := by
  obtain ⟨hfacts, hrenames, harchives, hdeletes, hcommands, haccepted, hstates, hcancellations,
    htools⟩ := hframe
  refine h.grow [_] hfacts hdeletes hevents (by simpa using hcreated) ?_
  rw [Store.eventRows, hfacts, hrenames, harchives, hdeletes, hentries, hcommands, haccepted,
    hstates, hcancellations, htools]
  exact eventRows_entry e

/-- A cleanup loses the events of its session together with their rows. -/
theorem cleanup (h : Delivered s) {request : SessionDeleteRequest}
    (hrequest : request ∈ s.sessionDeleteRequests)
    (hprepared : ∀ r ∈ s.sessionDeleteRequests, r.requestId = request.requestId →
      r.state = .prepared) : Delivered (writeCleanup s request) where
  known := by
    intro e he
    by_cases hsession : e.sessionId = request.sessionId
    · exact .inr ⟨_, Table.mem_modify.mpr ⟨request, hrequest, if_pos rfl⟩, hsession.symm, by simp⟩
    · rcases h.known e he with ⟨f, hf, hcreated⟩ | ⟨r, hr, hremoved, hstate⟩
      · refine .inl ⟨f, List.mem_filter.mpr ⟨hf, ?_⟩, hcreated⟩
        simpa [hcreated] using hsession
      · refine .inr ⟨_, Table.mem_modify.mpr ⟨r, hr, if_neg fun hkey => ?_⟩, hremoved, hstate⟩
        exact hstate (hprepared r hr hkey)
  rows := by
    have hdeletes : deleteRows (writeCleanup s request).sessionDeleteRequests =
        deleteRows s.sessionDeleteRequests := by
      refine Table.modify_filterMap _ fun r hr hkey => ?_
      simp [hprepared r hr hkey]
    have hlasting : (writeCleanup s request).lasting = s.lasting.filter fun e =>
        e.row.outlasts request.sessionId := by
      rw [Store.lasting, Store.lasting, List.filter_filter]
      refine List.filter_congr fun e _ => ?_
      have hfacts : (writeCleanup s request).sessionCreatedFacts =
          s.sessionCreatedFacts.filter fun r => r.sessionId ≠ request.sessionId := rfl
      rw [Store.lasts, Store.lasts, hfacts, List.any_filter]
      by_cases hkind : e.eventKind = .sessionDeleted
      · simp [EventRow.outlasts, DeliveryEvent.row, hkind]
      · by_cases hsession : e.sessionId = request.sessionId
        · simp [EventRow.outlasts, DeliveryEvent.row, hkind, hsession]
        · have hother : ∀ f : SessionCreatedFact, f.sessionId = e.sessionId →
              f.sessionId ≠ request.sessionId := fun f hf => hf ▸ hsession
          rw [Bool.eq_iff_iff]
          simp only [EventRow.outlasts, DeliveryEvent.row, hkind, hsession, decide_false,
            Bool.false_or, List.any_eq_true, Bool.and_eq_true, decide_eq_true_eq, ne_eq,
            not_false_eq_true, decide_true, Bool.or_true, true_and]
          constructor
          · rintro ⟨f, hf, -, hfound⟩
            exact ⟨f, hf, hfound⟩
          · rintro ⟨f, hf, hfound⟩
            exact ⟨f, hf, hother f hfound, hfound⟩
    have hrows : (writeCleanup s request).eventRows =
        s.eventRows.filter (EventRow.outlasts request.sessionId) :=
      eventRows_session request.sessionId hdeletes
    have hperm := h.rows.filter (EventRow.outlasts request.sessionId)
    rw [List.filter_map] at hperm
    rw [hrows, hlasting]
    exact hperm
  deletes := by
    have hsame : (writeCleanup s request).sessionDeleteRequests.map SessionDeleteRequest.sessionId =
        s.sessionDeleteRequests.map SessionDeleteRequest.sessionId :=
      Table.modify_column _ fun _ => rfl
    rw [Table.Keyed, hsame]
    exact h.deletes

/-- A deletion that is complete delivers the removal. -/
theorem delete (h : Delivered s) (hs : Sound s) (hl : Lodged s) {request : SessionDeleteRequest}
    (found : loadDeleteRequest s request.requestId = some request)
    (cleaned : request.state = .databaseCleaned) : Delivered (writeDelete s request) := by
  have hrequest := Table.find_mem found
  have hkeyed := hs.registered.deletes.keyed
  have hrows : (deleteRows (writeDelete s request).sessionDeleteRequests).Perm
      (⟨some request.deliveryEventId, request.acceptedSequence, request.sessionId,
        some .sessionDeleted, request.acceptedAtMilliseconds⟩ ::
        deleteRows s.sessionDeleteRequests) := by
    refine Table.modify_filterMap_perm _ hkeyed found ?_ ?_
    · simp [cleaned]
    · simp
  have hgone : ∀ e ∈ s.lasting, e.sessionId ≠ request.sessionId := by
    intro e he hsession
    obtain ⟨hin, hlasts⟩ := List.mem_filter.mp he
    rcases Bool.or_eq_true_iff.mp hlasts with hkind | hcreated
    · have hx := h.rows.mem_iff.mpr (List.mem_map_of_mem he)
      obtain ⟨r, hr, hstate, e'⟩ := mem_deleteRows.mp
        (mem_deleteRows_of_kind hx (congrArg some (of_decide_eq_true hkind)))
      have hsame : r.sessionId = request.sessionId :=
        (congrArg EventRow.sessionId e').symm.trans hsession
      rw [Table.eq_of_key h.deletes hr hrequest hsame, cleaned] at hstate
      cases hstate
    · obtain ⟨f, hf, hfound⟩ := List.any_eq_true.mp hcreated
      obtain ⟨c, hc, hcreation, -⟩ := hs.aligned.ready f hf
      refine hl.cleaned request hrequest (by simp [cleaned]) c hc ?_
      rw [hcreation, of_decide_eq_true hfound, hsession]
  have hlasting : (writeDelete s request).lasting =
      ⟨request.deliveryEventId, request.acceptedSequence, request.sessionId, .sessionDeleted,
        request.acceptedAtMilliseconds⟩ :: s.lasting := by
    refine congrArg (List.cons _) ?_
    refine List.filter_filter.trans (List.filter_congr fun e he => ?_)
    change (s.lasts e && decide (e.sessionId ≠ request.sessionId)) = s.lasts e
    cases hlasts : s.lasts e with
    | false => rfl
    | true => simpa using hgone e (List.mem_filter.mpr ⟨he, hlasts⟩)
  constructor
  · rw [hlasting]
    exact (eventRows_delete hrows).trans (h.rows.cons _)
  · have hremoved : ∀ {sessionId : SessionId}, Cleaned s sessionId →
        Cleaned (writeDelete s request) sessionId := by
      rintro sessionId ⟨r, hr, hsession, hstate⟩
      refine ⟨_, Table.mem_modify.mpr ⟨r, hr, rfl⟩, ?_⟩
      split
      case isTrue => exact ⟨hsession, by simp⟩
      case isFalse => exact ⟨hsession, hstate⟩
    intro e he
    rcases List.mem_cons.mp he with rfl | he
    · exact .inr (hremoved ⟨request, hrequest, rfl, by simp [cleaned]⟩)
    · exact (h.known e (List.mem_filter.mp he).1).imp id hremoved
  · have hsame : (writeDelete s request).sessionDeleteRequests.map SessionDeleteRequest.sessionId =
        s.sessionDeleteRequests.map SessionDeleteRequest.sessionId :=
      Table.modify_column _ fun _ => rfl
    rw [Table.Keyed, hsame]
    exact h.deletes

/-- A result delivers the event of its entry and, if its effect is unknown, one more. -/
theorem toolResult (h : Delivered s) {run : Run} {call : ToolCall} {result : ToolResult}
    {factKind : ToolFactKind} {resultStatus : ToolResultStatus} {entrySequence now : Nat}
    (hcreated : Created s run.sessionId)
    (huncertain : factKind = .uncertain ↔ result.isUncertain) :
    Delivered (recordToolResult s run call result factKind resultStatus entrySequence now) := by
  have hrow : ∀ {facts : List ToolOperationFact} {f : ToolOperationFact}, f.factKind.toRecord ≠ 6 →
      uncertaintyRows (f :: facts) = uncertaintyRows facts :=
    fun hkind => List.filterMap_cons_none (if_neg hkind)
  have hevents := recordToolResult_deliveryEvents s run call result factKind resultStatus
    entrySequence now
  cases hresult : result.isUncertain with
  | false =>
    have hcertain : factKind.toRecord ≠ 6 := by
      intro hsix
      have hne : factKind ≠ .uncertain := by simp [huncertain, hresult]
      cases factKind <;> simp [ToolFactKind.toRecord] at hsix hne
    rw [hresult] at hevents
    refine h.grow [⟨s.nextIdentifier + 1, s.nextValue + 1, run.sessionId, .toolResult,
      now⟩] rfl rfl hevents (by simpa using hcreated) ?_
    rw [Store.eventRows, eventRows, recordToolResult_toolOperationFacts, hrow hcertain]
    exact eventRows_entry _
  | true =>
    obtain rfl := huncertain.mpr hresult
    rw [hresult] at hevents
    refine h.grow [⟨s.nextIdentifier + 2, s.nextValue, run.sessionId,
      .toolUncertaintyChanged, now⟩, ⟨s.nextIdentifier + 1, s.nextValue + 1, run.sessionId,
      .toolResult, now⟩] rfl rfl hevents (by simpa using hcreated) ?_
    rw [Store.eventRows, recordToolResult_toolOperationFacts, hresult]
    exact (eventRows_uncertainty _ rfl).trans ((eventRows_entry _).cons _)

/-- The first event of a session comes with its fact. -/
theorem session (h : Delivered s) (hl : Lodged s) {request : SessionCreationRequest}
    (hrequest : request ∈ s.sessionCreationRequests) :
    Delivered (writeSession (s.drawn (s.nextValue + 1) (s.nextIdentifier + 1)) request
      s.nextIdentifier s.nextValue) := by
  have hgrown : ∀ {sessionId : SessionId}, Created s sessionId → Created (writeSession (s.drawn
      (s.nextValue + 1) (s.nextIdentifier + 1)) request s.nextIdentifier s.nextValue) sessionId :=
    fun ⟨f, hf, hsession⟩ => ⟨f, List.mem_cons_of_mem _ hf, hsession⟩
  have hnew : Created (writeSession (s.drawn (s.nextValue + 1) (s.nextIdentifier + 1)) request
      s.nextIdentifier s.nextValue) request.sessionId := ⟨_, List.mem_cons_self .., rfl⟩
  -- What was delivered before is not of this session, or its facts are there already.
  have hother : ∀ e ∈ s.deliveryEvents, Created s e.sessionId ∨ e.sessionId ≠ request.sessionId := by
    intro e he
    refine (h.known e he).imp id fun ⟨r, hr, hsession, hstate⟩ hsame => ?_
    exact hl.cleaned r hr hstate request hrequest (hsame.symm.trans hsession.symm)
  have hlasting : (writeSession (s.drawn (s.nextValue + 1) (s.nextIdentifier + 1)) request
      s.nextIdentifier s.nextValue).lasting =
      ⟨s.nextIdentifier, s.nextValue, request.sessionId, .sessionCreated,
        request.acceptedAtMilliseconds⟩ :: s.lasting := by
    refine (List.filter_cons_of_pos (Created.lasts hnew)).trans (congrArg (List.cons _) ?_)
    refine List.filter_congr fun e he => ?_
    rcases hother e he with hcreated | hne
    · exact (Created.lasts (hgrown hcreated)).trans hcreated.lasts.symm
    · refine congrArg (Bool.or _) ?_
      refine (List.any_cons ..).trans ?_
      rw [decide_eq_false hne.symm, Bool.false_or]
      rfl
  constructor
  · rw [hlasting]
    exact (eventRows_created _).trans (h.rows.cons _)
  · intro e he
    rcases List.mem_cons.mp he with rfl | he
    · exact .inl hnew
    · exact (h.known e he).imp hgrown id
  · exact h.deletes

/-- A command that goes on is rewritten. -/
theorem command (h : Delivered s) (hs : Sound s) {row : LocalCommand}
    {f : LocalCommand → LocalCommand} (found : loadLocalCommand s row.commandId = some row)
    (running : row.state.isTerminal = false) (going : (f row).state.isTerminal = false)
    (haccepted : ∀ r, acceptedCommandRows [f r] = acceptedCommandRows [r])
    (hcommands : t.localCommands = Table.modify LocalCommand.commandId row.commandId f
      s.localCommands)
    (hframe : t.sessionCreatedFacts = s.sessionCreatedFacts ∧
      t.sessionRenameRequests = s.sessionRenameRequests ∧
      t.sessionArchiveRequests = s.sessionArchiveRequests ∧
      t.sessionDeleteRequests = s.sessionDeleteRequests ∧ t.sessionEntries = s.sessionEntries ∧
      t.runAcceptedFacts = s.runAcceptedFacts ∧ t.runStateFacts = s.runStateFacts ∧
      t.runCancellationRequests = s.runCancellationRequests ∧
      t.toolOperationFacts = s.toolOperationFacts ∧ t.deliveryEvents = s.deliveryEvents) :
    Delivered t := by
  obtain ⟨hfacts, hrenames, harchives, hdeletes, hentries, hruns, hstates, hcancellations, htools,
    hevents⟩ := hframe
  have hsame : acceptedCommandRows t.localCommands = acceptedCommandRows s.localCommands := by
    rw [hcommands]
    exact Table.modify_column _ fun r => List.head_eq_of_cons_eq (haccepted r)
  have hended : endedCommandRows t.localCommands = endedCommandRows s.localCommands := by
    rw [hcommands]
    refine Table.modify_filterMap _ fun r hr hkey => ?_
    obtain rfl := Table.eq_of_key hs.identified.commands.nodup hr (Table.find_mem found) hkey
    exact (endedCommandRow_going going).trans (endedCommandRow_going running).symm
  refine h.grow [] hfacts hdeletes hevents (by simp) ?_
  rw [Store.eventRows, eventRows, hfacts, hrenames, harchives, hdeletes, hentries, hsame, hended,
    hruns, hstates, hcancellations, htools]
  exact List.Perm.refl _

theorem write (h : Delivered s) (hs : Sound s) (hl : Lodged s) (w : Write d s t) : Delivered t := by
  cases w with
  | recovery u now paused => exact h.paused (pause_paused paused)
  | steering mutation u item now fresh text admitted applied =>
    obtain ⟨-, hframe⟩ := steering_frame applied
    rw [hframe]
    exact { h with }
  | session request found dispatched => exact h.session hl (Table.find_mem found)
  | rename requestId fingerprint sessionId displayName now fresh found =>
    refine h.grow [⟨s.nextIdentifier, s.nextValue, sessionId, .sessionRenamed, now⟩]
      rfl rfl rfl ?_ (eventRows_rename _)
    simpa using hs.aligned.created_of_session found
  | archiveRequest requestId fingerprint sessionId archived now u fresh found paused =>
    refine Delivered.paused ?_ (requestArchive_paused paused)
    exact { h with }
  | archive request state found pending foundState =>
    refine h.grow [⟨request.deliveryEventId, request.acceptedSequence,
      request.sessionId, .sessionArchived, request.acceptedAtMilliseconds⟩] rfl rfl rfl ?_
      (eventRows_archive ?_)
    · simpa using created_of_state hs foundState
    · refine Table.modify_filterMap_perm _ hs.registered.archives.keyed found ?_ ?_
      · simp [pending]
      · simp [DeliveryEvent.row]
  | deleteRequest requestId fingerprint sessionId session now rule fresh found archived idle single =>
    refine { h with known := fun e he => ?_, deletes := List.nodup_cons.mpr ⟨?_, h.deletes⟩ }
    · exact (h.known e he).imp id fun ⟨r, hr, hremoved⟩ => ⟨r, List.mem_cons_of_mem _ hr, hremoved⟩
    · rw [List.mem_map]
      rintro ⟨r, hr, hsession⟩
      exact single r hr hsession
  | cleanup request session rule found prepared =>
    refine h.cleanup (Table.find_mem found) fun r hr hkey => ?_
    rw [Table.eq_of_key hs.registered.deletes.keyed hr (Table.find_mem found) hkey]
    exact prepared
  | delete request rule found cleaned => exact h.delete hs hl found cleaned
  | acceptance requestId fingerprint sessionId session state binding checkpoint text context now
      fresh admitted =>
    have hcreated := created_of_state hs admitted.foundState
    refine h.grow [⟨s.nextIdentifier + 3, s.nextValue + 1, sessionId, .runAccepted, now⟩,
      ⟨s.nextIdentifier + 2, s.nextValue, sessionId, .userMessage, now⟩] rfl rfl rfl
      (by simpa using hcreated) ?_
    exact (eventRows_accepted _).trans ((eventRows_entry _).cons _)
  | activate run now n movable =>
    obtain ⟨row, found, hsession, -⟩ := movable.found
    exact h.move (hsession ▸ created_of_run hs found) rfl
  | finish run outcome state failure kind now u found admitted stopped paused movable =>
    have hcreated := created_of_run hs found
    have hsettled : Delivered (settled s run outcome) := by
      cases outcome
      · exact h
      · exact { h with }
    refine hsettled.ended ?_ movable.event
    cases outcome <;> exact hcreated
  | answer run state fact assistant now u entry =>
    have hcreated := created_of_run hs entry.found
    have hentry : Delivered (writeFinalEntry (writeProviderOutcome s run fact) run assistant
        (state.entryHighWater + 1) now) :=
      h.entry hcreated rfl rfl ⟨rfl, rfl, rfl, rfl, rfl, rfl, rfl, rfl, rfl⟩
    exact hentry.ended hcreated rfl
  | cancellation requestId fingerprint run now fresh foundSession found room recordable canonical u
      paused =>
    refine Delivered.paused ?_ (cancelled_paused paused)
    cases happlied : !run.state.isTerminal && !run.cancellationRequested with
    | false =>
      have hevents : (writeCancellation s requestId fingerprint run now).deliveryEvents =
          s.deliveryEvents := by
        rw [writeCancellation, happlied]
        rfl
      refine h.grow [] rfl rfl hevents (by simp) ?_
      rw [Store.eventRows, eventRows, writeCancellation_requests, happlied]
      exact List.Perm.refl _
    | true =>
      have hevents : (writeCancellation s requestId fingerprint run now).deliveryEvents =
          ⟨s.nextIdentifier, s.nextValue, run.sessionId, .cancellationRequested, now⟩ ::
            s.deliveryEvents := by
        rw [writeCancellation, happlied]
        rfl
      refine h.grow [_] rfl rfl hevents (by simpa using created_of_run hs found) ?_
      rw [Store.eventRows, writeCancellation_requests, happlied]
      exact eventRows_cancellation _ rfl
  | commentary run state text refusal now entry =>
    exact h.entry (created_of_run hs entry.found) rfl rfl ⟨rfl, rfl, rfl, rfl, rfl, rfl, rfl, rfl, rfl⟩
  | toolCall run state providerOperationId call callIndex now entry =>
    exact h.entry (created_of_run hs entry.found) rfl rfl ⟨rfl, rfl, rfl, rfl, rfl, rfl, rfl, rfl, rfl⟩
  | toolResult run state call result factKind resultStatus now active entry prepared open_
      classified uncertain =>
    exact h.toolResult (created_of_run hs entry.found) uncertain
  | toolUncertain run state call result factKind resultStatus now u active entry prepared open_
      classified uncertain =>
    have hcreated := created_of_run hs entry.found
    exact (h.toolResult hcreated uncertain).ended hcreated rfl
  | commandAcceptance requestId fingerprint sessionId command contextVisible session state now fresh
      foundSession foundState =>
    refine h.grow [⟨s.nextIdentifier + 1, s.nextValue, sessionId, .localCommandChanged,
      now⟩] rfl rfl rfl ?_ (eventRows_command _ rfl)
    simpa using created_of_state hs foundState
  | commandActivation row now found accepted =>
    have hopen : row.state.isTerminal = false := by
      rw [accepted]
      rfl
    exact h.command hs (f := fun r => { r with
      state := .active
      updatedSequence := s.nextValue
      updatedAtMilliseconds := now }) found hopen rfl (fun _ => rfl) rfl
      ⟨rfl, rfl, rfl, rfl, rfl, rfl, rfl, rfl, rfl, rfl⟩
  | commandResult row state result now found running canonical payload foundState =>
    have hterminal : 3 ≤ (terminalCommandState result).toRecord ∧
        (terminalCommandState result).toRecord ≤ 5 := by
      unfold terminalCommandState
      split <;> decide
    refine h.grow [⟨s.nextIdentifier + 1, s.nextValue, row.sessionId, .localCommandEntry,
      now⟩] rfl rfl rfl (by simpa using created_of_state hs foundState)
      (eventRows_commands ?_ ?_)
    · exact Table.modify_column _ fun _ => rfl
    · refine Table.modify_filterMap_perm _ hs.identified.commands.nodup found ?_ ?_
      · exact endedCommandRow_going running
      · exact if_pos hterminal
  | commandCancellation requestId fingerprint row now fresh found =>
    cases happlied : !row.state.isTerminal && !row.cancellationRequested with
    | false =>
      have hcommands : (writeCommandCancellation s requestId fingerprint row now).localCommands =
          s.localCommands := by
        simp [writeCommandCancellation, happlied, insertMutationRequest, insertLocalCommandAudit,
          Store.drawn]
      refine h.grow [] rfl rfl rfl (by simp) ?_
      rw [Store.eventRows, hcommands]
      exact List.Perm.refl _
    | true =>
      have hopen : row.state.isTerminal = false := by
        simpa using (Bool.and_eq_true_iff.mp happlied).1
      refine h.command hs (f := fun r => { r with
        cancellationRequested := true
        updatedSequence := s.nextValue
        updatedAtMilliseconds := now }) found hopen hopen (fun _ => rfl) ?_
        ⟨rfl, rfl, rfl, rfl, rfl, rfl, rfl, rfl, rfl, rfl⟩
      exact if_pos happlied
  | _ => exact { h with }

end Delivered

/-- **A rebuild selects what was delivered**, of every reachable store. -/
theorem Reachable.delivered {allowed : Environment → Store → Operation → Prop}
    (h : Reachable allowed s) : Delivered s := by
  have hall : (Sound s ∧ Lodged s) ∧ Delivered s := by
    refine h.obeying_none.writes.invariant (I := fun s => (Sound s ∧ Lodged s) ∧ Delivered s) ?_ ?_
    · rintro _ rfl
      exact ⟨⟨sound_empty, lodged_empty⟩, delivered_empty⟩
    · rintro _ _ ⟨⟨hsound, hlodged⟩, hdelivered⟩ w
      exact ⟨⟨hsound.write w, hlodged.write hsound w⟩, hdelivered.write hsound hlodged w⟩
  exact hall.2

end Morons
