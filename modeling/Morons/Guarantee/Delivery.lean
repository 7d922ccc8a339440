import Morons.Invariant.Delivered
import Morons.Invariant.Growth
import Morons.Invariant.Images
import Morons.Invariant.Places
import Morons.Session.Events

/-!
# The rows of events

Every event of a session tells of one row, which is there and can be read.  A
run is shown at an event as its facts up to it leave it, in the state that the
event stands for.
-/

namespace Morons.SessionEvents

open Attempt Ledger ContextHistory

variable {s t : Store} {w : WorkspaceTables} {sessionId : SessionId} {e : DeliveryEvent}

/-! ## The row of an event -/

theorem mem_eventRows {r : EventRow} : r ∈ s.eventRows ↔
    r ∈ createdRows s.sessionCreatedFacts ∨ r ∈ renameRows s.sessionRenameRequests ∨
    r ∈ archiveRows s.sessionArchiveRequests ∨ r ∈ deleteRows s.sessionDeleteRequests ∨
    r ∈ Morons.entryRows s.sessionEntries ∨ r ∈ acceptedCommandRows s.localCommands ∨
    r ∈ endedCommandRows s.localCommands ∨ r ∈ acceptedRows s.runAcceptedFacts ∨
    r ∈ stateRows s.runStateFacts ∨ r ∈ cancellationRows s.runCancellationRequests ∨
    r ∈ uncertaintyRows s.toolOperationFacts := by
  simp only [Store.eventRows, eventRows, List.mem_append, or_assoc]

/-- Where the identifier, the number and the session of an event come from. -/
structure Origin (e : DeliveryEvent) (eventId : Option DeliveryEventId) (eventSequence : Nat)
    (sessionId : SessionId) : Prop where
  eventId : eventId = some e.eventId
  sequence : eventSequence = e.eventSequence
  session : sessionId = e.sessionId

/-- The row that an event tells of. -/
inductive Told (s : Store) (e : DeliveryEvent) : Prop
  | entry (row : SessionEntry) (mem : row ∈ s.sessionEntries)
      (origin : Origin e (some row.deliveryEventId) row.factSequence row.sessionId)
      (kind : e.eventKind = row.body.eventKind)
  | command (row : LocalCommand) (mem : row ∈ s.localCommands)
      (origin : Origin e (some row.acceptedEventId) row.acceptedSequence row.sessionId)
      (kind : e.eventKind = .localCommandChanged)
  | commandEntry (row : LocalCommand) (mem : row ∈ s.localCommands)
      (terminal : row.state.isTerminal = true)
      (origin : Origin e row.deliveryEventId row.updatedSequence row.sessionId)
      (kind : e.eventKind = .localCommandEntry)
  | accepted (f : RunAcceptedFact) (mem : f ∈ s.runAcceptedFacts)
      (origin : Origin e (some f.deliveryEventId) f.factSequence f.sessionId)
      (kind : e.eventKind = .runAccepted)
  | state (f : RunStateFact) (mem : f ∈ s.runStateFacts)
      (origin : Origin e (some f.deliveryEventId) f.factSequence f.sessionId)
      (kind : rebuiltEventKind f.state = some e.eventKind)
  | cancellation (c : RunCancellationRequest) (mem : c ∈ s.runCancellationRequests)
      (applied : c.intentApplied = true)
      (origin : Origin e c.deliveryEventId c.factSequence c.sessionId)
      (kind : e.eventKind = .cancellationRequested)
  | uncertainty (f : ToolOperationFact) (mem : f ∈ s.toolOperationFacts)
      (uncertain : f.factKind = .uncertain)
      (origin : Origin e f.workspaceDeliveryEventId f.factSequence f.sessionId)
      (kind : e.eventKind = .toolUncertaintyChanged)

theorem origin_of_row {eventId : Option DeliveryEventId} {n now : Nat} {kind : Option EventKind}
    (h : EventRow.mk eventId n sessionId kind now = e.row) :
    Origin e eventId n sessionId ∧ kind = some e.eventKind := by
  obtain ⟨heventId, hsequence, hsession, hkind, -⟩ := EventRow.mk.inj h
  exact ⟨⟨heventId, hsequence, hsession⟩, hkind⟩

/-- **Every streamed event of a session that was created tells of a row.** -/
theorem told (hd : Delivered s) (he : e ∈ s.deliveryEvents) (hcreated : Created s e.sessionId)
    (hstreamed : e.eventKind.isStreamed = true) : Told s e := by
  have hrow : e.row ∈ s.eventRows :=
    hd.rows.mem_iff.mpr (List.mem_map_of_mem (List.mem_filter.mpr ⟨he, hcreated.lasts⟩))
  have hother : ∀ {k : EventKind}, k.isStreamed = false → some k ≠ some e.eventKind := by
    rintro k hk heq
    rw [Option.some.inj heq, hstreamed] at hk
    cases hk
  rcases mem_eventRows.mp hrow with h | h | h | h | h | h | h | h | h | h | h
  · obtain ⟨r, -, heq⟩ := List.mem_map.mp h
    exact absurd (origin_of_row heq).2 (hother rfl)
  · obtain ⟨r, -, heq⟩ := List.mem_map.mp h
    exact absurd (origin_of_row heq).2 (hother rfl)
  · obtain ⟨r, -, heq⟩ := List.mem_filterMap.mp h
    split at heq
    · exact absurd (origin_of_row (Option.some.inj heq)).2 (hother rfl)
    · cases heq
  · obtain ⟨r, -, heq⟩ := List.mem_filterMap.mp h
    split at heq
    · exact absurd (origin_of_row (Option.some.inj heq)).2 (hother rfl)
    · cases heq
  · obtain ⟨r, hr, heq⟩ := List.mem_map.mp h
    obtain ⟨origin, kind⟩ := origin_of_row heq
    exact .entry r hr origin (Option.some.inj kind).symm
  · obtain ⟨r, hr, heq⟩ := List.mem_map.mp h
    obtain ⟨origin, kind⟩ := origin_of_row heq
    exact .command r hr origin (Option.some.inj kind).symm
  · obtain ⟨r, hr, heq⟩ := List.mem_filterMap.mp h
    split at heq
    case isFalse => cases heq
    case isTrue hstate =>
      obtain ⟨origin, kind⟩ := origin_of_row (Option.some.inj heq)
      exact .commandEntry r hr ((LocalCommandState.isTerminal_iff_record _).mpr hstate.1) origin
        (Option.some.inj kind).symm
  · obtain ⟨r, hr, heq⟩ := List.mem_map.mp h
    obtain ⟨origin, kind⟩ := origin_of_row heq
    exact .accepted r hr origin (Option.some.inj kind).symm
  · obtain ⟨r, hr, heq⟩ := List.mem_map.mp h
    obtain ⟨origin, kind⟩ := origin_of_row heq
    exact .state r hr origin kind
  · obtain ⟨r, hr, heq⟩ := List.mem_filterMap.mp h
    split at heq
    case isFalse => cases heq
    case isTrue happlied =>
      obtain ⟨origin, kind⟩ := origin_of_row (Option.some.inj heq)
      exact .cancellation r hr happlied origin (Option.some.inj kind).symm
  · obtain ⟨r, hr, heq⟩ := List.mem_filterMap.mp h
    split at heq
    case isFalse => cases heq
    case isTrue hkind =>
      obtain ⟨origin, kind⟩ := origin_of_row (Option.some.inj heq)
      have huncertain : r.factKind = .uncertain := by
        cases hfact : r.factKind <;> simp_all [ToolFactKind.toRecord]
      exact .uncertainty r hr huncertain origin (Option.some.inj kind).symm

/-- The identifiers of the rows are distinct. -/
theorem eventRow_ids (hd : Delivered s) (hp : Placed s) :
    (s.eventRows.map EventRow.eventId).Nodup := by
  have hids : (s.lasting.map DeliveryEvent.eventId).Nodup := by
    have hplaces := List.sublist_append_left (s.deliveryEvents.map DeliveryEvent.place)
      (s.sessionArchiveRequests.filterMap SessionArchiveRequest.kept ++
        s.sessionDeleteRequests.filterMap SessionDeleteRequest.kept)
    rw [← List.append_assoc] at hplaces
    have hnodup := hp.identifiers.nodup.sublist (hplaces.map Prod.fst)
    rw [List.map_map] at hnodup
    exact hnodup.sublist (List.filter_sublist.map _)
  rw [(hd.rows.map EventRow.eventId).nodup_iff, List.map_map]
  have hsome := hids.map (Option.some_injective _)
  rwa [List.map_map] at hsome

/-! ## The rows that an event finds -/

/-- Only one row of a table has the identifier of an event. -/
theorem find_told {Row : Type} {rows : List Row} {rowOf : Row → Option EventRow} (hd : Delivered s)
    (hp : Placed s) (eventId : DeliveryEventId) (hrows : (rows.filterMap rowOf).Sublist s.eventRows)
    {p : Row → Bool} {row : Row} (hrow : row ∈ rows) (hchosen : p row = true)
    (hevent : ∀ r ∈ rows, p r = true → ∃ x, rowOf r = some x ∧ x.eventId = some eventId) :
    rows.find? p = some row := by
  have hnodup : (rows.filterMap fun r => (rowOf r).map EventRow.eventId).Nodup := by
    have hids := (eventRow_ids hd hp).sublist (hrows.map EventRow.eventId)
    rwa [List.map_filterMap] at hids
  have hcolumn : ∀ r ∈ rows, p r = true →
      (rowOf r).map EventRow.eventId = some (some eventId) := by
    intro r hr hpr
    obtain ⟨x, hx, hid⟩ := hevent r hr hpr
    rw [hx, Option.map_some, hid]
  refine find?_unique hrow hchosen fun r hr hpr => ?_
  exact Table.eq_of_column hnodup hr hrow (hcolumn r hr hpr) (hcolumn row hrow hchosen)

/-- The rows of each table are selected. -/
structure Selected (s : Store) : Prop where
  entries : (Morons.entryRows s.sessionEntries).Sublist s.eventRows
  commands : (acceptedCommandRows s.localCommands).Sublist s.eventRows
  commandEntries : (endedCommandRows s.localCommands).Sublist s.eventRows
  accepted : (acceptedRows s.runAcceptedFacts).Sublist s.eventRows
  states : (stateRows s.runStateFacts).Sublist s.eventRows
  cancellations : (cancellationRows s.runCancellationRequests).Sublist s.eventRows

theorem selected (s : Store) : Selected s := by
  have hright : ∀ {xs ys rows : List EventRow}, (xs ++ ys).Sublist rows → ys.Sublist rows :=
    (List.sublist_append_right ..).trans
  have hleft : ∀ {xs ys rows : List EventRow}, (xs ++ ys).Sublist rows → xs.Sublist rows :=
    (List.sublist_append_left ..).trans
  have hcancellations := hleft (List.Sublist.refl s.eventRows)
  have hstates := hleft hcancellations
  have haccepted := hleft hstates
  have hended := hleft haccepted
  have hcommands := hleft hended
  exact
    { entries := hright (hleft hcommands)
      commands := hright hcommands
      commandEntries := hright hended
      accepted := hright haccepted
      states := hright hstates
      cancellations := hright hcancellations }

theorem find_entry (hd : Delivered s) (hp : Placed s) {row : SessionEntry}
    (hrow : row ∈ s.sessionEntries)
    (origin : Origin e (some row.deliveryEventId) row.factSequence row.sessionId) :
    (s.sessionEntries.find? fun r =>
      r.sessionId = e.sessionId && r.deliveryEventId = e.eventId) = some row := by
  have hrows := (selected s).entries
  rw [Morons.entryRows, ← List.filterMap_eq_map] at hrows
  refine find_told hd hp e.eventId hrows hrow ?_ fun r _ hfound => ?_
  · simp [origin.session, Option.some.inj origin.eventId]
  · exact ⟨_, rfl, congrArg some (of_decide_eq_true (Bool.and_eq_true_iff.mp hfound).2)⟩

theorem find_command (hd : Delivered s) (hp : Placed s) {row : LocalCommand}
    (hrow : row ∈ s.localCommands)
    (origin : Origin e (some row.acceptedEventId) row.acceptedSequence row.sessionId) :
    (s.localCommands.find? fun r =>
      r.sessionId = e.sessionId && r.acceptedEventId = e.eventId) = some row := by
  have hrows := (selected s).commands
  rw [acceptedCommandRows, ← List.filterMap_eq_map] at hrows
  refine find_told hd hp e.eventId hrows hrow ?_ fun r _ hfound => ?_
  · simp [origin.session, Option.some.inj origin.eventId]
  · exact ⟨_, rfl, congrArg some (of_decide_eq_true (Bool.and_eq_true_iff.mp hfound).2)⟩

theorem find_commandEntry (hd : Delivered s) (hp : Placed s) {row : LocalCommand}
    (hrow : row ∈ s.localCommands) (hterminal : row.state.isTerminal = true)
    (origin : Origin e row.deliveryEventId row.updatedSequence row.sessionId) :
    (s.localCommands.find? fun r => r.sessionId = e.sessionId &&
      r.deliveryEventId = some e.eventId && r.state.isTerminal) = some row := by
  refine find_told hd hp e.eventId (selected s).commandEntries hrow ?_ fun r _ hfound => ?_
  · simp [origin.session, origin.eventId, hterminal]
  · simp only [Bool.and_eq_true, decide_eq_true_eq] at hfound
    have hrecord := (LocalCommandState.isTerminal_iff_record r.state).mp hfound.2
    exact ⟨_, if_pos ⟨hrecord, by cases r.state <;> decide⟩, hfound.1.2⟩

theorem find_accepted (hd : Delivered s) (hp : Placed s) {f : RunAcceptedFact}
    (hf : f ∈ s.runAcceptedFacts)
    (origin : Origin e (some f.deliveryEventId) f.factSequence f.sessionId) :
    (s.runAcceptedFacts.find? fun r =>
      r.sessionId = e.sessionId && r.deliveryEventId = e.eventId) = some f := by
  have hrows := (selected s).accepted
  rw [acceptedRows, ← List.filterMap_eq_map] at hrows
  refine find_told hd hp e.eventId hrows hf ?_ fun r _ hfound => ?_
  · simp [origin.session, Option.some.inj origin.eventId]
  · exact ⟨_, rfl, congrArg some (of_decide_eq_true (Bool.and_eq_true_iff.mp hfound).2)⟩

theorem find_state (hd : Delivered s) (hp : Placed s) {f : RunStateFact} (hf : f ∈ s.runStateFacts)
    (origin : Origin e (some f.deliveryEventId) f.factSequence f.sessionId) :
    (s.runStateFacts.find? fun r =>
      r.sessionId = e.sessionId && r.deliveryEventId = e.eventId) = some f := by
  have hrows := (selected s).states
  rw [stateRows, ← List.filterMap_eq_map] at hrows
  refine find_told hd hp e.eventId hrows hf ?_ fun r _ hfound => ?_
  · simp [origin.session, Option.some.inj origin.eventId]
  · exact ⟨_, rfl, congrArg some (of_decide_eq_true (Bool.and_eq_true_iff.mp hfound).2)⟩

theorem find_cancellation (hd : Delivered s) (hp : Placed s) {c : RunCancellationRequest}
    (hc : c ∈ s.runCancellationRequests) (happlied : c.intentApplied = true)
    (origin : Origin e c.deliveryEventId c.factSequence c.sessionId) :
    (s.runCancellationRequests.find? fun r => r.sessionId = e.sessionId &&
      r.deliveryEventId = some e.eventId && r.intentApplied) = some c := by
  refine find_told hd hp e.eventId (selected s).cancellations hc ?_ fun r _ hfound => ?_
  · simp [origin.session, origin.eventId, happlied]
  · simp only [Bool.and_eq_true, decide_eq_true_eq] at hfound
    exact ⟨_, if_pos hfound.2, hfound.1.2⟩

/-! ## Rows can be read -/

theorem callOf_ok (hs : Sound s) {place : CallPlace}
    (hplace : place ∈ s.toolCalls.map ToolCall.place) : ∃ call, callOf s place.callId = .ok call := by
  obtain ⟨call, hcall, rfl⟩ := List.mem_map.mp hplace
  exact ⟨call, (demand_ok ..).mpr (Table.find_of_mem hs.identified.toolCalls.nodup hcall)⟩

/-- A call that was answered has a fact with its result. -/
theorem resultOf_ok (hs : Sound s) {f : ToolOperationFact} (hf : f ∈ s.toolOperationFacts)
    (hterminal : f.factKind.isTerminal = true) : ∃ result, resultOf s f.callId = .ok result := by
  have hfound : (s.toolOperationFacts.find? fun r =>
      r.callId = f.callId && r.factKind.isTerminal).isSome :=
    List.find?_isSome.mpr ⟨f, hf, by simp [hterminal]⟩
  obtain ⟨g, hg⟩ := Option.isSome_iff_exists.mp hfound
  have hsome : g.result.isSome := by
    rw [hs.called.results g (List.mem_of_find?_eq_some hg)]
    have hchosen := List.find?_some hg
    simp only [Bool.and_eq_true] at hchosen
    exact hchosen.2
  obtain ⟨result, hresult⟩ := Option.isSome_iff_exists.mp hsome
  refine ⟨result, (demand_ok ..).mpr ?_⟩
  rw [hg, Option.bind_some, hresult]

/-- **Every entry can be read**, as one of its kind. -/
theorem transcriptBody_ok (hs : Sound s) {row : SessionEntry} (hrow : row ∈ s.sessionEntries) :
    ∃ body, transcriptBodyFromRow s row.runId row.body = .ok body ∧
      entryOfKind body row.body.eventKind = true := by
  cases hbody : row.body with
  | user text => exact ⟨_, rfl, rfl⟩
  | assistant service modelId text refusal phase => exact ⟨_, rfl, rfl⟩
  | toolCall service modelId callId =>
    have hcalled : row.calledPlace = some ⟨callId, row.runId, row.sessionId⟩ := by
      rw [SessionEntry.calledPlace, hbody]
      rfl
    have hplace := List.mem_filterMap.mpr ⟨row, hrow, hcalled⟩
    rw [hs.called.entries] at hplace
    obtain ⟨call, hcall⟩ := callOf_ok hs hplace
    refine ⟨.toolCall row.runId callId call.operationId call.providerOperationId call.input, ?_, rfl⟩
    simp only [transcriptBodyFromRow, bind_ok, pure_ok]
    exact ⟨call, hcall, rfl⟩
  | toolResult callId =>
    have hfinished : row.finishedPlace = some ⟨callId, row.runId, row.sessionId⟩ := by
      rw [SessionEntry.finishedPlace, hbody]
      rfl
    have hplace := List.mem_filterMap.mpr ⟨row, hrow, hfinished⟩
    rw [hs.called.answers] at hplace
    obtain ⟨f, hf, hsame⟩ := List.mem_map.mp hplace
    obtain ⟨hf, hterminal⟩ := List.mem_filter.mp hf
    obtain ⟨c, hc, hcplace, -⟩ := hs.called.known f hf
    have hcallId : f.callId = callId := congrArg CallPlace.callId hsame
    obtain ⟨call, hcall⟩ := callOf_ok hs (List.mem_map_of_mem hc)
    obtain ⟨result, hresult⟩ := resultOf_ok hs hf hterminal
    rw [hcplace.trans hsame] at hcall
    rw [hcallId] at hresult
    refine ⟨.toolResult row.runId callId call.operationId call.input.kind result, ?_, rfl⟩
    simp only [transcriptBodyFromRow, bind_ok, pure_ok]
    exact ⟨call, hcall, result, hresult, rfl⟩

/-- A canonical result has the fields that are shown. -/
theorem commandResultFields_isSome {result : ToolResult}
    (h : validateCanonicalBashResult result = true) : (commandResultFields result).isSome := by
  have hencoded : ∀ {requireExit : Bool} {form : ToolOutputForm} {payload : String},
      validateBashOutput requireExit (.encoded form payload) ≠ true := by simp [validateBashOutput]
  rw [commandResultFields, if_pos h, Option.isSome_map]
  cases result with
  | ok output =>
    cases output with
    | bash => rfl
    | encoded => exact absurd (Bool.and_eq_true_iff.mp h).2 hencoded
  | error err output =>
    cases output with
    | none => rfl
    | some output =>
      cases output with
      | bash => rfl
      | encoded => cases err <;> simp [validateCanonicalBashResult, validateBashOutput] at h

theorem localCommandEntry_ok (hs : Sound s) {row : LocalCommand} (hrow : row ∈ s.localCommands)
    (hterminal : row.state.isTerminal = true) : ∃ entry, localCommandEntryFromRow row = .ok entry := by
  rcases (hs.commanded.formed row hrow).stage with ⟨hopen, -⟩ |
    ⟨result, hresult, -, hcanonical, hplace, hmessage, -⟩
  · rw [hterminal] at hopen
    cases hopen
  · obtain ⟨fields, hfields⟩ := Option.isSome_iff_exists.mp (commandResultFields_isSome hcanonical)
    obtain ⟨place, hplace⟩ := Option.isSome_iff_exists.mp hplace
    obtain ⟨message, hmessage⟩ := Option.isSome_iff_exists.mp hmessage
    obtain ⟨status, exitCode, signal, stdout, stderr⟩ := fields
    refine ⟨⟨place, message, .localCommand row.commandId row.commandText row.contextVisible status
      exitCode signal stdout stderr, row.updatedAtMilliseconds⟩, ?_⟩
    simp only [localCommandEntryFromRow, bind_ok, demand_ok, pure_ok]
    exact ⟨result, hresult, _, hfields, place, hplace, message, hmessage, rfl⟩

/-! ## Runs at an event -/

/-- What a run is shown as at an event. -/
def runAt (s : Store) (f : RunAcceptedFact) (n : Nat) : RunSnapshot :=
  applyCancellationAt (applyState (acceptedSnapshot f) (stateAtSequence s f.runId n))
    (((stateAtSequence s f.runId n).map (·.factSequence)).getD 0)
    (cancellationAtSequence s f.runId n)

theorem stateAtSequence_mem {runId : RunId} {n : Nat} {f : RunStateFact}
    (h : stateAtSequence s runId n = some f) :
    f ∈ s.runStateFacts ∧ f.runId = runId ∧ f.factSequence ≤ n := by
  obtain ⟨hf, hchosen⟩ := List.mem_filter.mp (List.argmax_mem h)
  simp only [Bool.and_eq_true, decide_eq_true_eq] at hchosen
  exact ⟨hf, hchosen⟩

/-- **A run can be shown at every event from its acceptance on.** -/
theorem loadRunAtSequence_ok (hs : Sound s) {f : RunAcceptedFact} (hf : f ∈ s.runAcceptedFacts) {n : Nat}
    (hn : f.factSequence ≤ n) (hstored : n ≤ maxInteger) :
    loadRunAtSequence s f.runId n = .ok (runAt s f n) := by
  have hfound : (s.runAcceptedFacts.find? fun r =>
      r.runId = f.runId && decide (r.factSequence ≤ n)) = some f := by
    refine find?_unique hf (by simp [hn]) fun r hr hchosen => ?_
    simp only [Bool.and_eq_true, decide_eq_true_eq] at hchosen
    exact hs.identified.acceptedFacts.eq_of_seq hr hf hchosen.1
  simp only [loadRunAtSequence, bind_ok, require_ok, demand_ok, pure_ok, sequenceToSql]
  refine ⟨(), hstored, f, hfound, (), fun g hg => ?_, rfl⟩
  exact (hs.chronicled.classified g (stateAtSequence_mem hg).1).2

/-- No fact of a run comes before its acceptance. -/
theorem after_acceptance (hs : Sound s) {f a : RunAcceptedFact} (hf : f ∈ s.runAcceptedFacts)
    (ha : a ∈ s.runAcceptedFacts) {runId : RunId} (hfrun : f.runId = runId) (harun : a.runId = runId)
    {n : Nat} (hn : a.factSequence < n) : f.factSequence < n := by
  rwa [hs.identified.acceptedFacts.eq_of_seq hf ha (hfrun.trans harun.symm)]

theorem stateAtSequence_acceptance (hs : Sound s) {f : RunAcceptedFact} (hf : f ∈ s.runAcceptedFacts) :
    stateAtSequence s f.runId f.factSequence = none := by
  refine Option.eq_none_iff_forall_ne_some.mpr fun g hg => ?_
  obtain ⟨hg, hrun, hle⟩ := stateAtSequence_mem hg
  obtain ⟨a, ha, harun, -, hlt⟩ := hs.scope.stateFacts g hg
  exact absurd (after_acceptance hs hf ha rfl (harun.trans hrun) hlt) (Nat.not_lt.mpr hle)

theorem cancellationAtSequence_acceptance (hs : Sound s) {f : RunAcceptedFact}
    (hf : f ∈ s.runAcceptedFacts) : cancellationAtSequence s f.runId f.factSequence = none := by
  refine Option.eq_none_iff_forall_ne_some.mpr fun c hc => ?_
  obtain ⟨hc, hchosen⟩ := List.mem_filter.mp (List.argmax_mem hc)
  simp only [Bool.and_eq_true, decide_eq_true_eq] at hchosen
  obtain ⟨a, ha, harun, -, hlt⟩ := hs.scope.cancellations c hc
  exact absurd (after_acceptance hs hf ha rfl (harun.trans hchosen.1.1) hlt)
    (Nat.not_lt.mpr hchosen.2)

/-- At its own number a fact is the newest. -/
theorem stateAtSequence_self (hs : Sound s) {f : RunStateFact} (hf : f ∈ s.runStateFacts) :
    stateAtSequence s f.runId f.factSequence = some f := by
  refine latest_eq (List.mem_filter.mpr ⟨hf, by simp⟩) fun r hr => ?_
  obtain ⟨hr, hchosen⟩ := List.mem_filter.mp hr
  simp only [Bool.and_eq_true, decide_eq_true_eq] at hchosen
  rcases hchosen.2.eq_or_lt with hsame | hlt
  · exact .inl (hs.numbered.stateFacts.eq_of_seq hr hf hsame)
  · exact .inr hlt

theorem cancellationAtSequence_self (hs : Sound s) {c : RunCancellationRequest}
    (hc : c ∈ s.runCancellationRequests) (happlied : c.intentApplied = true) :
    cancellationAtSequence s c.runId c.factSequence = some c := by
  refine latest_eq (List.mem_filter.mpr ⟨hc, by simp [happlied]⟩) fun r hr => ?_
  obtain ⟨hr, hchosen⟩ := List.mem_filter.mp hr
  simp only [Bool.and_eq_true, decide_eq_true_eq] at hchosen
  rcases hchosen.2.eq_or_lt with hsame | hlt
  · exact .inl (hs.numbered.cancellations.eq_of_seq hr hc hsame)
  · exact .inr hlt

/-- A cancellation that was applied comes before the end of its run. -/
theorem stateAtSequence_going (hs : Sound s) {c : RunCancellationRequest}
    (hc : c ∈ s.runCancellationRequests) (happlied : c.intentApplied = true) :
    (((stateAtSequence s c.runId c.factSequence).map RunStateFact.state).getD
      RunState.accepted).isTerminal = false := by
  cases hfound : stateAtSequence s c.runId c.factSequence with
  | none => rfl
  | some f =>
    obtain ⟨hf, hrun, hle⟩ := stateAtSequence_mem hfound
    refine Bool.eq_false_iff.mpr fun hterminal => ?_
    have hlt := hs.closed.cancellations f hf hterminal c hc (by simp [happlied, hrun])
    exact absurd hlt (Nat.not_lt.mpr hle)

theorem runAt_state (s : Store) (f : RunAcceptedFact) (n : Nat) :
    (runAt s f n).state = ((stateAtSequence s f.runId n).map (·.state)).getD .accepted := by
  unfold runAt
  cases stateAtSequence s f.runId n <;> cases cancellationAtSequence s f.runId n <;> rfl

theorem runAt_cancellationRequested (s : Store) (f : RunAcceptedFact) (n : Nat) :
    (runAt s f n).cancellationRequested = (cancellationAtSequence s f.runId n).isSome := by
  unfold runAt
  cases stateAtSequence s f.runId n <;> cases cancellationAtSequence s f.runId n <;> rfl

/-- A run in the state of a transition is what its event says. -/
theorem runMatchesEvent_state {run : RunSnapshot} {state : RunState} {kind : EventKind}
    (hkind : rebuiltEventKind state = some kind) (hstate : run.state = state) :
    runMatchesEvent run kind = true := by
  subst hstate
  cases hrun : run.state <;> rw [hrun] at hkind <;> cases hkind <;> simp [runMatchesEvent, hrun]

/-! ## Every event can be read -/

/-- The kinds of the events that tell of an entry. -/
theorem eventPayload_entry {row : SessionEntry} (hkind : e.eventKind = row.body.eventKind) :
    eventPayload w s sessionId e = (do
      let entry ← loadEntryForEvent s sessionId e.eventId e.eventKind
      let entry ← attachEventImages s sessionId entry
      return .transcriptEntry entry) := by
  unfold eventPayload
  rw [hkind]
  cases row.body <;> rfl

/-- A transition tells the state that it leads to. -/
theorem eventPayload_state {f : RunStateFact} (hkind : rebuiltEventKind f.state = some e.eventKind) :
    eventPayload w s sessionId e = (do
      let runId ← demand (.invalidState "a run delivery event is missing its canonical fact")
        ((s.runStateFacts.find? fun f =>
          f.sessionId = sessionId && f.deliveryEventId = e.eventId).map (·.runId))
      let run ← loadRunAtSequence s runId e.eventSequence
      validateEventRun e.eventKind run
      return .runChanged run) := by
  unfold eventPayload
  cases hstate : f.state <;> rw [hstate] at hkind <;> cases hkind' : e.eventKind <;>
    rw [hkind'] at hkind <;> first | (cases hkind; done) | rfl

theorem workspaceSequence_ok {n : Nat} (hstored : n ≤ maxInteger) : workspaceSequence n = .ok n := by
  have hother : n ≠ 2 ^ 64 - 1 := by
    have hmax : maxInteger < 2 ^ 64 - 1 := by decide
    omega
  rw [workspaceSequence, if_neg hother]
  exact (bind_ok ..).mpr ⟨(), (require_ok ..).mpr hstored, rfl⟩

theorem importSummary_ok (outcome : Option ImportOutcome) (h : ∀ o ∈ outcome, o.isSummarized = true) :
    ∃ summary, importSummary outcome = .ok summary := by
  rcases outcome with _ | outcome
  · exact ⟨_, rfl⟩
  · cases outcome with
    | dispatched => cases h _ rfl
    | _ => exact ⟨_, rfl⟩

theorem workspaceSummaryAtSequence_ok (w : WorkspaceTables) (s : Store) (sessionId : SessionId)
    {n : Nat} (hstored : n ≤ maxInteger) :
    ∃ summary, workspaceSummaryAtSequence w s sessionId n = .ok summary := by
  obtain ⟨summary, hsummary⟩ := importSummary_ok ((latest RepositoryImportFact.factSequence
    (w.repositoryImportFacts.filter fun f => f.sessionId = sessionId &&
      decide (f.factSequence ≤ n) && f.outcome.isSummarized)).map (·.outcome)) fun o ho => by
    obtain ⟨f, hf, rfl⟩ := Option.map_eq_some_iff.mp ho
    have hchosen := (List.mem_filter.mp (List.argmax_mem hf)).2
    exact (Bool.and_eq_true_iff.mp hchosen).2
  refine (bind_succeeds ..).mpr ⟨n, workspaceSequence_ok hstored,
    (bind_succeeds ..).mpr ⟨summary, hsummary, ?_⟩⟩
  split
  · exact ⟨_, rfl⟩
  · split <;> exact ⟨_, rfl⟩

/-- The images of a message of a user can be attached. -/
theorem attachEventImages_ok (hi : Illustrated s) {row : SessionEntry} (hrow : row ∈ s.sessionEntries)
    {body : TranscriptBody} (hbody : transcriptBodyFromRow s row.runId row.body = .ok body) :
    ∃ entry, attachEventImages s row.sessionId
      ⟨row.entrySequence, row.messageId, body, row.createdAtMilliseconds⟩ = .ok entry := by
  cases hkind : row.body with
  | user text =>
    rw [hkind] at hbody
    obtain rfl := (pure_ok _ _).mp hbody
    have hvalid := hi.valid row hrow text hkind
    refine ⟨_, (bind_ok ..).mpr ⟨(), (require_ok ..).mpr hvalid, rfl⟩⟩
  | assistant service modelId text refusal phase =>
    rw [hkind] at hbody
    obtain rfl := (pure_ok _ _).mp hbody
    exact ⟨_, rfl⟩
  | toolCall service modelId callId =>
    rw [hkind] at hbody
    simp only [transcriptBodyFromRow, bind_ok, pure_ok] at hbody
    obtain ⟨call, -, rfl⟩ := hbody
    exact ⟨_, rfl⟩
  | toolResult callId =>
    rw [hkind] at hbody
    simp only [transcriptBodyFromRow, bind_ok, pure_ok] at hbody
    obtain ⟨call, -, result, -, rfl⟩ := hbody
    exact ⟨_, rfl⟩

/-- An event finds its entry. -/
theorem loadEntryForEvent_ok (hs : Sound s) (hd : Delivered s) (hp : Placed s) {row : SessionEntry}
    (hrow : row ∈ s.sessionEntries)
    (origin : Origin e (some row.deliveryEventId) row.factSequence row.sessionId)
    (hkind : e.eventKind = row.body.eventKind) {body : TranscriptBody}
    (hbody : transcriptBodyFromRow s row.runId row.body = .ok body) :
    loadEntryForEvent s e.sessionId e.eventId e.eventKind =
      .ok ⟨row.entrySequence, row.messageId, body, row.createdAtMilliseconds⟩ := by
  obtain ⟨body', hbody', hshown⟩ := transcriptBody_ok hs hrow
  obtain rfl := Except.ok.inj (hbody.symm.trans hbody')
  simp only [loadEntryForEvent, transcriptEntryFromRow, bind_ok, demand_ok, require_ok, pure_ok]
  exact ⟨row, find_entry hd hp hrow origin, _, ⟨body, hbody, rfl⟩, (), hkind ▸ hshown, rfl⟩

/-- The event of an uncertain fact finds it. -/
theorem workspaceSummaryForEvent_eq {f : ToolOperationFact} (hf : f ∈ s.toolOperationFacts)
    (huncertain : f.factKind = .uncertain)
    (origin : Origin e f.workspaceDeliveryEventId f.factSequence f.sessionId)
    (hstored : e.eventSequence ≤ maxInteger) :
    workspaceSummaryForEvent w s e.sessionId e.eventId e.eventSequence =
      workspaceSummaryAtSequence w s e.sessionId e.eventSequence := by
  have hfound : (s.toolOperationFacts.any fun r => r.sessionId = e.sessionId &&
      r.workspaceDeliveryEventId = some e.eventId && r.factSequence = e.eventSequence &&
      r.factKind = .uncertain) = true := by
    refine List.any_eq_true.mpr ⟨f, hf, ?_⟩
    simp [origin.session, origin.eventId, origin.sequence, huncertain]
  simp only [workspaceSummaryForEvent, sequenceToSql, require, hstored, hfound, Bool.or_true,
    Bool.true_or, if_true, bind, Except.bind]

/-- **Every event that tells of a row can be read.** -/
theorem eventPayload_ok (hs : Sound s) (hd : Delivered s) (hp : Placed s) (hi : Illustrated s)
    (he : Told s e) (hstored : e.eventSequence ≤ maxInteger) :
    ∃ payload, eventPayload w s e.sessionId e = .ok payload := by
  cases he with
  | entry row mem origin kind =>
    obtain ⟨body, hbody, -⟩ := transcriptBody_ok hs mem
    obtain ⟨entry, hentry⟩ := attachEventImages_ok hi mem hbody
    rw [origin.session] at hentry
    rw [eventPayload_entry kind, loadEntryForEvent_ok hs hd hp mem origin kind hbody]
    exact ⟨_, (bind_ok ..).mpr ⟨_, rfl, (bind_ok ..).mpr ⟨entry, hentry, rfl⟩⟩⟩
  | command row mem origin kind =>
    unfold eventPayload
    rw [kind]
    simp only [bind_ok, demand_ok, pure_ok]
    exact ⟨_, row, find_command hd hp mem origin, rfl⟩
  | commandEntry row mem terminal origin kind =>
    obtain ⟨entry, hentry⟩ := localCommandEntry_ok hs mem terminal
    unfold eventPayload
    rw [kind]
    simp only [loadLocalCommandEntryForEvent, bind_ok, demand_ok, pure_ok]
    exact ⟨_, entry, ⟨row, find_commandEntry hd hp mem terminal origin, hentry⟩, rfl⟩
  | accepted f mem origin kind =>
    have hrun := loadRunAtSequence_ok hs mem origin.sequence.le hstored
    have hmatches : runMatchesEvent (runAt s f e.eventSequence) .runAccepted = true := by
      rw [runMatchesEvent, runAt_state, runAt_cancellationRequested, ← origin.sequence,
        stateAtSequence_acceptance hs mem, cancellationAtSequence_acceptance hs mem]
      rfl
    unfold eventPayload
    rw [kind]
    simp only [loadEventRunId, validateEventRun, bind_ok, demand_ok, require_ok, pure_ok]
    exact ⟨_, f.runId, by rw [find_accepted hd hp mem origin]; rfl, _, hrun, (), hmatches, rfl⟩
  | state f mem origin kind =>
    obtain ⟨a, ha, harun, -, hlt⟩ := hs.scope.stateFacts f mem
    have hrun := loadRunAtSequence_ok hs ha (hlt.le.trans origin.sequence.le) hstored
    have hmatches : runMatchesEvent (runAt s a e.eventSequence) e.eventKind = true := by
      have hstate : (runAt s a e.eventSequence).state = f.state := by
        rw [runAt_state, harun, ← origin.sequence, stateAtSequence_self hs mem]
        rfl
      exact runMatchesEvent_state kind hstate
    rw [eventPayload_state kind]
    simp only [validateEventRun, bind_ok, demand_ok, require_ok, pure_ok]
    exact ⟨_, f.runId, by rw [find_state hd hp mem origin]; rfl, _, harun ▸ hrun, (), hmatches, rfl⟩
  | cancellation c mem applied origin kind =>
    obtain ⟨a, ha, harun, -, hlt⟩ := hs.scope.cancellations c mem
    have hrun := loadRunAtSequence_ok hs ha (hlt.le.trans origin.sequence.le) hstored
    have hmatches : runMatchesEvent (runAt s a e.eventSequence) .cancellationRequested = true := by
      have hrequested : (runAt s a e.eventSequence).cancellationRequested = true := by
        rw [runAt_cancellationRequested, harun, ← origin.sequence,
          cancellationAtSequence_self hs mem applied]
        rfl
      have hgoing : (runAt s a e.eventSequence).state.isTerminal = false := by
        rw [runAt_state, harun, ← origin.sequence]
        exact stateAtSequence_going hs mem applied
      rw [runMatchesEvent, hrequested, hgoing]
      rfl
    unfold eventPayload
    rw [kind]
    simp only [loadEventRunId, validateEventRun, bind_ok, demand_ok, require_ok, pure_ok]
    exact ⟨_, c.runId, by rw [find_cancellation hd hp mem applied origin]; rfl, _, harun ▸ hrun, (),
      hmatches, rfl⟩
  | uncertainty f mem uncertain origin kind =>
    obtain ⟨summary, hsummary⟩ := workspaceSummaryAtSequence_ok w s e.sessionId hstored
    unfold eventPayload
    rw [kind, workspaceSummaryForEvent_eq mem uncertain origin hstored, hsummary]
    exact ⟨_, rfl⟩

end Morons.SessionEvents
