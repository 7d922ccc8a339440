import Morons.Guarantee.Cancellation
import Morons.Guarantee.Delivery
import Morons.Guarantee.Retries

/-!
# The events of a session, read again

A page of events never fails, and what it tells is told again by every later
page: the record of a session is only added to, so that its stream only grows
at its end.  Pages that are read one after the other, with any operations
between them, are the pages of one stream.
-/

namespace Morons.SessionEvents

open Attempt Ledger ContextHistory

variable {s t : Store} {w : WorkspaceTables} {sessionId : SessionId} {e : DeliveryEvent}

/-! ## What is read stays as it is -/

section Kept

variable (hs : Sound s) (ht : Sound t) (hext : Extends sessionId s t)
include hs ht hext

theorem callOf_kept {call : ToolCall} (hcall : call ∈ s.toolCalls)
    (hsession : call.sessionId = sessionId) :
    Table.find ToolCall.callId call.callId t.toolCalls =
      Table.find ToolCall.callId call.callId s.toolCalls := by
  have hin : call ∈ t.toolCalls := List.mem_of_mem_filter
    (hext.calls.subset (List.mem_filter.mpr ⟨hcall, decide_eq_true hsession⟩))
  rw [Table.find_of_mem hs.identified.toolCalls.nodup hcall,
    Table.find_of_mem ht.identified.toolCalls.nodup hin]

/-- The call of a fact of the session. -/
theorem factCall_kept {f : ToolOperationFact} (hf : f ∈ s.toolOperationFacts)
    (hsession : f.sessionId = sessionId) :
    Table.find ToolCall.callId f.callId t.toolCalls =
      Table.find ToolCall.callId f.callId s.toolCalls := by
  obtain ⟨c, hc, hplace, -⟩ := hs.called.known f hf
  have hcallId : c.callId = f.callId := congrArg CallPlace.callId hplace
  rw [← hcallId]
  exact callOf_kept hs ht hext hc ((congrArg CallPlace.sessionId hplace).trans hsession)

/-- A call has one outcome. -/
theorem outcome_kept {f : ToolOperationFact} (hf : f ∈ s.toolOperationFacts)
    (hterminal : f.factKind.isTerminal = true) (hsession : f.sessionId = sessionId) :
    resultOf t f.callId = resultOf s f.callId := by
  have hin : f ∈ t.toolOperationFacts := List.mem_of_mem_filter
    (hext.toolFacts.subset (List.mem_filter.mpr ⟨hf, decide_eq_true hsession⟩))
  have hrank : ∀ {kind : ToolFactKind}, kind.isTerminal = true → kind.rank = 2 := by
    intro kind hkind
    cases kind <;> first | rfl | cases hkind
  have hfound : ∀ {u : Store}, Sound u → f ∈ u.toolOperationFacts →
      (u.toolOperationFacts.find? fun r => r.callId = f.callId && r.factKind.isTerminal) = some f := by
    intro u hu hfu
    refine find?_unique hfu (by simp [hterminal]) fun r hr hchosen => ?_
    simp only [Bool.and_eq_true, decide_eq_true_eq] at hchosen
    refine (hu.called.staged f.callId).eq_of_rank (List.mem_filter.mpr ⟨hr, by simp [hchosen.1]⟩)
      (List.mem_filter.mpr ⟨hfu, by simp⟩) ?_
    rw [hrank hchosen.2, hrank hterminal]
  rw [resultOf, resultOf, hfound hs hf, hfound ht hin]

theorem transcriptBody_kept {row : SessionEntry} (hrow : row ∈ s.sessionEntries)
    (hsession : row.sessionId = sessionId) :
    transcriptBodyFromRow t row.runId row.body = transcriptBodyFromRow s row.runId row.body := by
  cases hbody : row.body with
  | user text => rfl
  | assistant service modelId text refusal phase => rfl
  | toolCall service modelId callId =>
    have hcalled : row.calledPlace = some ⟨callId, row.runId, row.sessionId⟩ := by
      rw [SessionEntry.calledPlace, hbody]
      rfl
    have hplace := List.mem_filterMap.mpr ⟨row, hrow, hcalled⟩
    rw [hs.called.entries] at hplace
    obtain ⟨call, hcall, hsame⟩ := List.mem_map.mp hplace
    obtain rfl : call.callId = callId := congrArg CallPlace.callId hsame
    have hfind := callOf_kept hs ht hext hcall ((congrArg CallPlace.sessionId hsame).trans hsession)
    simp only [transcriptBodyFromRow, callOf, hfind]
  | toolResult callId =>
    have hfinished : row.finishedPlace = some ⟨callId, row.runId, row.sessionId⟩ := by
      rw [SessionEntry.finishedPlace, hbody]
      rfl
    have hplace := List.mem_filterMap.mpr ⟨row, hrow, hfinished⟩
    rw [hs.called.answers] at hplace
    obtain ⟨f, hf, hsame⟩ := List.mem_map.mp hplace
    obtain ⟨hf, hterminal⟩ := List.mem_filter.mp hf
    obtain rfl : f.callId = callId := congrArg CallPlace.callId hsame
    have hfsession : f.sessionId = sessionId := (congrArg CallPlace.sessionId hsame).trans hsession
    simp only [transcriptBodyFromRow, callOf, factCall_kept hs ht hext hf hfsession,
      outcome_kept hs ht hext hf hterminal hfsession]

omit hs ht in
/-- Images of later messages do not join those of an earlier one. -/
theorem images_kept {messageId : MessageId} (hold : messageId < s.nextIdentifier) :
    loadMessageImageAttachments t sessionId messageId =
      loadMessageImageAttachments s sessionId messageId := by
  refine loadMessageImageAttachments_congr ?_
  have hkept := hext.images.filter_old (p := fun r => decide (r.userMessageId = messageId))
    fun r hr => by rwa [of_decide_eq_true hr]
  rw [List.filter_filter, List.filter_filter] at hkept
  simpa only [Bool.and_comm] using hkept

/-- The facts of a run are facts of its session. -/
theorem runRows_kept {Row : Type} {seq : Row → Nat} {runOf : Row → RunId} {sessionOf : Row → SessionId}
    {rows rows' : List Row} {f : RunAcceptedFact} (hf : f ∈ s.runAcceptedFacts)
    (hsession : f.sessionId = sessionId)
    (hgrown : Accrued seq s.nextValue (rows.filter fun r => sessionOf r = sessionId)
      (rows'.filter fun r => sessionOf r = sessionId))
    (hrows : ∀ r ∈ rows, ∃ a ∈ s.runAcceptedFacts, a.runId = runOf r ∧ a.sessionId = sessionOf r)
    (hrows' : ∀ r ∈ rows', ∃ a ∈ t.runAcceptedFacts, a.runId = runOf r ∧ a.sessionId = sessionOf r)
    {p : Row → Bool} (hrun : ∀ r, p r = true → runOf r = f.runId)
    (hold : ∀ r, p r = true → seq r < s.nextValue) : rows'.filter p = rows.filter p := by
  have hin : f ∈ t.runAcceptedFacts := List.mem_of_mem_filter
    (hext.accepted.subset (List.mem_filter.mpr ⟨hf, decide_eq_true hsession⟩))
  have hmine : ∀ r ∈ rows, p r = true → decide (sessionOf r = sessionId) = true := by
    intro r hr hp
    obtain ⟨a, ha, harun, hasession⟩ := hrows r hr
    have hsame := hs.identified.acceptedFacts.eq_of_seq ha hf (harun.trans (hrun r hp))
    exact decide_eq_true (hasession.symm.trans (hsame ▸ hsession))
  have hmine' : ∀ r ∈ rows', p r = true → decide (sessionOf r = sessionId) = true := by
    intro r hr hp
    obtain ⟨a, ha, harun, hasession⟩ := hrows' r hr
    have hsame := ht.identified.acceptedFacts.eq_of_seq ha hin (harun.trans (hrun r hp))
    exact decide_eq_true (hasession.symm.trans (hsame ▸ hsession))
  rw [← Table.filter_kept hmine, ← Table.filter_kept hmine', hgrown.filter_old hold]

/-- **A run is shown at an event as it was.** -/
theorem runAt_kept {f : RunAcceptedFact} (hf : f ∈ s.runAcceptedFacts)
    (hsession : f.sessionId = sessionId) {n : Nat} (hn : n < s.nextValue) :
    runAt t f n = runAt s f n := by
  have hstates : ∀ {u : Store}, Sound u → ∀ r ∈ u.runStateFacts,
      ∃ a ∈ u.runAcceptedFacts, a.runId = r.runId ∧ a.sessionId = r.sessionId := by
    intro u hu r hr
    obtain ⟨a, ha, hrun, hsame, -⟩ := hu.scope.stateFacts r hr
    exact ⟨a, ha, hrun, hsame⟩
  have hcancellations : ∀ {u : Store}, Sound u → ∀ r ∈ u.runCancellationRequests,
      ∃ a ∈ u.runAcceptedFacts, a.runId = r.runId ∧ a.sessionId = r.sessionId := by
    intro u hu r hr
    obtain ⟨a, ha, hrun, hsame, -⟩ := hu.scope.cancellations r hr
    exact ⟨a, ha, hrun, hsame⟩
  have hstate : stateAtSequence t f.runId n = stateAtSequence s f.runId n := by
    unfold stateAtSequence
    rw [runRows_kept hs ht hext hf hsession hext.states (hstates hs) (hstates ht)]
    · intro r hr
      simp only [Bool.and_eq_true, decide_eq_true_eq] at hr
      exact hr.1
    · intro r hr
      simp only [Bool.and_eq_true, decide_eq_true_eq] at hr
      exact lt_of_le_of_lt hr.2 hn
  have hcancellation : cancellationAtSequence t f.runId n = cancellationAtSequence s f.runId n := by
    unfold cancellationAtSequence
    rw [runRows_kept hs ht hext hf hsession hext.cancellations (hcancellations hs)
      (hcancellations ht)]
    · intro r hr
      simp only [Bool.and_eq_true, decide_eq_true_eq] at hr
      exact hr.1.1
    · intro r hr
      simp only [Bool.and_eq_true, decide_eq_true_eq] at hr
      exact lt_of_le_of_lt hr.2 hn
  rw [runAt, runAt, hstate, hcancellation]

theorem loadRunAtSequence_kept {f : RunAcceptedFact} (hf : f ∈ s.runAcceptedFacts)
    (hsession : f.sessionId = sessionId) {n : Nat} (hfn : f.factSequence ≤ n) (hn : n < s.nextValue)
    (hstored : n ≤ maxInteger) : loadRunAtSequence t f.runId n = loadRunAtSequence s f.runId n := by
  have hin : f ∈ t.runAcceptedFacts := List.mem_of_mem_filter
    (hext.accepted.subset (List.mem_filter.mpr ⟨hf, decide_eq_true hsession⟩))
  rw [loadRunAtSequence_ok hs hf hfn hstored, loadRunAtSequence_ok ht hin hfn hstored,
    runAt_kept hs ht hext hf hsession hn]

theorem unacknowledged_kept {n : Nat} (hn : n < s.nextValue) :
    unacknowledged w t sessionId n = unacknowledged w s sessionId n := by
  have hfacts : ∀ p : ToolOperationFact → Bool, (∀ f, p f = true → f.sessionId = sessionId) →
      (∀ f, p f = true → f.factSequence < s.nextValue) →
      t.toolOperationFacts.filter p = s.toolOperationFacts.filter p := by
    intro p hmine hold
    have hsession : ∀ f, p f = true → decide (f.sessionId = sessionId) = true :=
      fun f hf => decide_eq_true (hmine f hf)
    rw [← Table.filter_kept fun f _ => hsession f, hext.toolFacts.filter_old hold,
      Table.filter_kept fun f _ => hsession f]
  unfold unacknowledged
  rw [hfacts]
  · refine List.filterMap_congr fun f hf => ?_
    obtain ⟨hf, hchosen⟩ := List.mem_filter.mp hf
    simp only [Bool.and_eq_true, decide_eq_true_eq] at hchosen
    rw [factCall_kept hs ht hext hf hchosen.1.1.1]
  · intro f hf
    simp only [Bool.and_eq_true, decide_eq_true_eq] at hf
    exact hf.1.1.1
  · intro f hf
    simp only [Bool.and_eq_true, decide_eq_true_eq] at hf
    exact lt_of_le_of_lt hf.1.2 hn

theorem workspaceSummary_kept {n : Nat} (hn : n < s.nextValue) (hstored : n ≤ maxInteger) :
    workspaceSummaryAtSequence w t sessionId n = workspaceSummaryAtSequence w s sessionId n := by
  simp only [workspaceSummaryAtSequence, workspaceSequence_ok hstored, bind, Except.bind,
    unacknowledged_kept hs ht hext hn]

end Kept

/-- **What an event tells is what it told.** -/
theorem eventPayload_kept (hs : Sound s) (hd : Delivered s) (hp : Placed s) (hi : Illustrated s)
    (ht : Sound t) (hd' : Delivered t) (hp' : Placed t) (hext : Extends sessionId s t)
    (he : Told s e) (hsession : e.sessionId = sessionId) (hold : e.eventSequence < s.nextValue)
    (hstored : e.eventSequence ≤ maxInteger) :
    eventPayload w t sessionId e = eventPayload w s sessionId e := by
  subst hsession
  cases he with
  | entry row mem origin kind =>
    have hin : row ∈ t.sessionEntries := List.mem_of_mem_filter
      (hext.entries.subset (List.mem_filter.mpr ⟨mem, decide_eq_true origin.session⟩))
    obtain ⟨body, hbody, -⟩ := transcriptBody_ok hs mem
    have hkept := (transcriptBody_kept hs ht hext mem origin.session).trans hbody
    have himages : attachEventImages t e.sessionId
        ⟨row.entrySequence, row.messageId, body, row.createdAtMilliseconds⟩ =
        attachEventImages s e.sessionId
          ⟨row.entrySequence, row.messageId, body, row.createdAtMilliseconds⟩ := by
      rw [attachEventImages, attachEventImages, images_kept hext (hi.messages.bounded row mem)]
    rw [eventPayload_entry kind, eventPayload_entry kind,
      loadEntryForEvent_ok hs hd hp mem origin kind hbody,
      loadEntryForEvent_ok ht hd' hp' hin origin kind hkept]
    simp only [bind, Except.bind, himages]
  | command row mem origin kind =>
    have hplace : row.acceptance ∈ (t.localCommands.map LocalCommand.acceptance).filter
        fun c => c.sessionId = e.sessionId :=
      hext.commands.subset (List.mem_filter.mpr
        ⟨List.mem_map_of_mem mem, decide_eq_true origin.session⟩)
    obtain ⟨row', mem', hsame⟩ := List.mem_map.mp (List.mem_of_mem_filter hplace)
    have hcommandId : row'.commandId = row.commandId := congrArg CommandPlace.commandId hsame
    have origin' : Origin e (some row'.acceptedEventId) row'.acceptedSequence row'.sessionId := by
      rw [show row'.acceptedEventId = row.acceptedEventId from
          congrArg CommandPlace.acceptedEventId hsame,
        show row'.acceptedSequence = row.acceptedSequence from
          congrArg CommandPlace.acceptedSequence hsame,
        show row'.sessionId = row.sessionId from congrArg CommandPlace.sessionId hsame]
      exact origin
    unfold eventPayload
    rw [kind, find_command hd hp mem origin, find_command hd' hp' mem' origin']
    simp only [demand, bind, Except.bind, hcommandId]
  | commandEntry row mem terminal origin kind =>
    have hin := hext.ended row mem origin.session terminal
    unfold eventPayload
    rw [kind]
    simp only [loadLocalCommandEntryForEvent, find_commandEntry hd hp mem terminal origin,
      find_commandEntry hd' hp' hin terminal origin]
  | accepted f mem origin kind =>
    have hin : f ∈ t.runAcceptedFacts := List.mem_of_mem_filter
      (hext.accepted.subset (List.mem_filter.mpr ⟨mem, decide_eq_true origin.session⟩))
    have hrun := loadRunAtSequence_kept hs ht hext mem origin.session origin.sequence.le hold hstored
    unfold eventPayload
    rw [kind]
    simp only [loadEventRunId, find_accepted hd hp mem origin, find_accepted hd' hp' hin origin,
      Option.map_some, demand, bind, Except.bind, hrun]
  | state f mem origin kind =>
    have hin : f ∈ t.runStateFacts := List.mem_of_mem_filter
      (hext.states.subset (List.mem_filter.mpr ⟨mem, decide_eq_true origin.session⟩))
    obtain ⟨a, ha, harun, hasession, hlt⟩ := hs.scope.stateFacts f mem
    have hrun := loadRunAtSequence_kept hs ht hext ha (hasession.trans origin.session)
      (hlt.le.trans origin.sequence.le) hold hstored
    rw [harun] at hrun
    rw [eventPayload_state kind, eventPayload_state kind, find_state hd hp mem origin,
      find_state hd' hp' hin origin]
    simp only [Option.map_some, demand, bind, Except.bind, hrun]
  | cancellation c mem applied origin kind =>
    have hin : c ∈ t.runCancellationRequests := List.mem_of_mem_filter
      (hext.cancellations.subset (List.mem_filter.mpr ⟨mem, decide_eq_true origin.session⟩))
    obtain ⟨a, ha, harun, hasession, hlt⟩ := hs.scope.cancellations c mem
    have hrun := loadRunAtSequence_kept hs ht hext ha (hasession.trans origin.session)
      (hlt.le.trans origin.sequence.le) hold hstored
    rw [harun] at hrun
    unfold eventPayload
    rw [kind]
    simp only [loadEventRunId, find_cancellation hd hp mem applied origin,
      find_cancellation hd' hp' hin applied origin, Option.map_some, demand, bind, Except.bind, hrun]
  | uncertainty f mem uncertain origin kind =>
    have hin : f ∈ t.toolOperationFacts := List.mem_of_mem_filter
      (hext.toolFacts.subset (List.mem_filter.mpr ⟨mem, decide_eq_true origin.session⟩))
    unfold eventPayload
    rw [kind, workspaceSummaryForEvent_eq mem uncertain origin hstored,
      workspaceSummaryForEvent_eq hin uncertain origin hstored,
      workspaceSummary_kept hs ht hext hold hstored]

/-! ## The stream of a session -/

/-- The streamed events of a session in the order of their numbers. -/
def streamed (s : Store) (sessionId : SessionId) : List DeliveryEvent :=
  ordered DeliveryEvent.eventSequence (s.deliveryEvents.filter fun e =>
    e.sessionId = sessionId && e.eventKind.isStreamed)

theorem mem_streamed : e ∈ streamed s sessionId ↔
    e ∈ s.deliveryEvents ∧ e.sessionId = sessionId ∧ e.eventKind.isStreamed = true := by
  rw [streamed, ordered, (List.mergeSort_perm ..).mem_iff, List.mem_filter, Bool.and_eq_true,
    decide_eq_true_eq]

theorem eventSequences_nodup (hp : Placed s) :
    (s.deliveryEvents.map DeliveryEvent.eventSequence).Nodup := by
  have hplaces := List.sublist_append_left (s.deliveryEvents.map DeliveryEvent.place)
    (s.sessionArchiveRequests.filterMap SessionArchiveRequest.kept ++
      s.sessionDeleteRequests.filterMap SessionDeleteRequest.kept)
  rw [← List.append_assoc] at hplaces
  have hnodup := hp.sequences.nodup.sublist (hplaces.map Prod.snd)
  rwa [List.map_map] at hnodup

/-- Rows with numbers of their own are ordered strictly. -/
theorem ordered_rising {events : List DeliveryEvent}
    (h : (events.map DeliveryEvent.eventSequence).Nodup) :
    (ordered DeliveryEvent.eventSequence events).Pairwise
      fun a b => a.eventSequence < b.eventSequence := by
  have hperm : (ordered DeliveryEvent.eventSequence events).Perm events := List.mergeSort_perm ..
  have hnodup := (hperm.map DeliveryEvent.eventSequence).nodup_iff.mpr h
  exact ((ordered_sorted events).and (List.pairwise_map.mp hnodup)).imp
    fun hboth => lt_of_le_of_ne hboth.1 hboth.2

theorem streamed_rising (hp : Placed s) (sessionId : SessionId) :
    (streamed s sessionId).Pairwise fun a b => a.eventSequence < b.eventSequence :=
  ordered_rising ((eventSequences_nodup hp).sublist (List.filter_sublist.map _))

/-- A page is cut from the stream. -/
theorem eventRecords_eq (hp : Placed s) (after : Nat) :
    eventRecords s sessionId after (sessionEventHighWater s sessionId) =
      (streamed s sessionId).filter fun e => after < e.eventSequence := by
  refine ordered_eq ((streamed_rising hp sessionId).filter _) ?_
  refine ((List.mergeSort_perm ..).filter _).trans (List.Perm.of_eq ?_)
  rw [List.filter_filter]
  refine List.filter_congr fun e he => Bool.eq_iff_iff.mpr ?_
  simp only [Bool.and_eq_true, decide_eq_true_eq, EventKind.isStreamed]
  constructor
  · rintro ⟨hafter, hsession, hkind⟩
    exact ⟨⟨⟨hsession, hafter⟩, le_greatest (List.mem_filter.mpr ⟨he, decide_eq_true hsession⟩)⟩,
      hkind⟩
  · rintro ⟨⟨⟨hsession, hafter⟩, -⟩, hkind⟩
    exact ⟨hafter, hsession, hkind⟩

/-- **The stream of a session only grows at its end.** -/
theorem streamed_grows (hn : Numbered s) (hp : Placed s) (hp' : Placed t)
    (hext : Extends sessionId s t) : ∃ later, streamed t sessionId = streamed s sessionId ++ later ∧
      ∀ e ∈ later, s.nextValue ≤ e.eventSequence := by
  obtain ⟨fresh, hfresh, hnew⟩ := hext.events
  have hnodup : (fresh.map DeliveryEvent.eventSequence).Nodup := by
    have hsub := List.sublist_append_left fresh (s.deliveryEvents.filter fun e =>
      e.sessionId = sessionId && e.eventKind.isStreamed)
    rw [← hfresh] at hsub
    exact (eventSequences_nodup hp').sublist ((hsub.trans List.filter_sublist).map _)
  refine ⟨ordered DeliveryEvent.eventSequence fresh, ordered_eq ?_ ?_, fun e he => ?_⟩
  · refine List.pairwise_append.mpr ⟨streamed_rising hp sessionId, ordered_rising hnodup, ?_⟩
    intro a ha b hb
    have hlow := hn.events a (mem_streamed.mp ha).1
    exact lt_of_lt_of_le hlow (hnew b ((List.mergeSort_perm ..).mem_iff.mp hb))
  · rw [hfresh]
    refine List.perm_append_comm.trans ?_
    exact (List.mergeSort_perm ..).append (List.mergeSort_perm ..)
  · exact hnew e ((List.mergeSort_perm ..).mem_iff.mp he)

/-! ## Pages -/

/-- What is known of a session whose events are read. -/
structure Readable (s : Store) (sessionId : SessionId) : Prop where
  sound : Sound s
  delivered : Delivered s
  placed : Placed s
  illustrated : Illustrated s
  found : (loadSession s sessionId).isSome
  stored : s.nextValue ≤ maxInteger

theorem readable (h : Reachable Any s) (hfound : (loadSession s sessionId).isSome)
    (hstored : s.nextValue ≤ maxInteger) : Readable s sessionId :=
  ⟨h.sound, h.delivered, h.placed, h.illustrated, hfound, hstored⟩

namespace Readable

theorem told (h : Readable s sessionId) (he : e ∈ streamed s sessionId) : Told s e := by
  obtain ⟨he, hsession, hstreamed⟩ := mem_streamed.mp he
  refine SessionEvents.told h.delivered he ?_ hstreamed
  rw [hsession]
  exact h.sound.aligned.created_of_session h.found

theorem number_lt (h : Readable s sessionId) (he : e ∈ streamed s sessionId) :
    e.eventSequence < s.nextValue :=
  h.sound.numbered.events e (mem_streamed.mp he).1

theorem event_ok (h : Readable s sessionId) (he : e ∈ streamed s sessionId) :
    ∃ event, sessionEvent w s sessionId e = .ok event := by
  obtain ⟨payload, hpayload⟩ := eventPayload_ok h.sound h.delivered h.placed h.illustrated
    (h.told he) ((h.number_lt he).le.trans h.stored)
  rw [(mem_streamed.mp he).2.1] at hpayload
  exact ⟨_, (bind_ok ..).mpr ⟨payload, hpayload, rfl⟩⟩

theorem highWater_le (h : Readable s sessionId) : sessionEventHighWater s sessionId ≤ maxInteger := by
  refine greatest_le fun e he => ?_
  exact (h.sound.numbered.events e (List.mem_of_mem_filter he)).le.trans h.stored

theorem number_le (he : e ∈ streamed s sessionId) :
    e.eventSequence ≤ sessionEventHighWater s sessionId := by
  obtain ⟨he, hsession, -⟩ := mem_streamed.mp he
  exact le_greatest (List.mem_filter.mpr ⟨he, decide_eq_true hsession⟩)

/-- The events of a page. -/
theorem page_iff (h : Readable s sessionId) {n limit : Nat} {page : SessionEventPage}
    (hcursor : n ≤ sessionEventHighWater s sessionId) :
    readSessionEvents w s sessionId ⟨sessionId, n⟩ limit = .ok page ↔
      page.highWater = ⟨sessionId, sessionEventHighWater s sessionId⟩ ∧
      (((streamed s sessionId).filter fun e => n < e.eventSequence).take limit).mapM
        (sessionEvent w s sessionId) = .ok page.events := by
  simp only [readSessionEvents, sequenceToSql, eventRecords_eq h.placed, bind_ok, require_ok, pure_ok]
  constructor
  · rintro ⟨-, -, -, -, -, -, -, -, -, -, events, hevents, rfl⟩
    exact ⟨rfl, hevents⟩
  · rintro ⟨hhigh, hevents⟩
    exact ⟨(), trivial, (), h.found, (), hcursor, (), hcursor.trans h.highWater_le, (), h.highWater_le,
      page.events, hevents, by rw [← hhigh]⟩

/-- A page never fails. -/
theorem page_ok (h : Readable s sessionId) {n : Nat} (limit : Nat)
    (hcursor : n ≤ sessionEventHighWater s sessionId) :
    ∃ page, readSessionEvents w s sessionId ⟨sessionId, n⟩ limit = .ok page := by
  have hrecords : ∀ e ∈ ((streamed s sessionId).filter fun e => n < e.eventSequence).take limit,
      ∃ event, sessionEvent w s sessionId e = .ok event :=
    fun e he => h.event_ok (List.mem_of_mem_filter (List.mem_of_mem_take he))
  obtain ⟨events, hevents⟩ := mapM_succeeds hrecords
  exact ⟨⟨events, _⟩, (h.page_iff hcursor).mpr ⟨rfl, hevents⟩⟩

end Readable

/-- The cursors of events that were read are their numbers. -/
theorem mapM_cursors {records : List DeliveryEvent} {events : List SessionEvent}
    (h : records.mapM (sessionEvent w s sessionId) = .ok events) :
    events.map (·.cursor) = records.map fun e => ⟨sessionId, e.eventSequence⟩ := by
  have hall := mapM_ok_iff.mp h
  clear h
  induction hall with
  | nil => rfl
  | cons hevent _ ih =>
    obtain ⟨payload, -, hsame⟩ := (bind_ok ..).mp hevent
    obtain rfl := (pure_ok _ _).mp hsame
    rw [List.map_cons, List.map_cons, ih]

/-! ## Pages one after the other -/

/-- Where the next page begins: behind the last event of a page. -/
def SessionEventPage.resume (page : SessionEventPage) (cursor : SessionEventCursor) :
    SessionEventCursor :=
  (page.events.getLast?.map (·.cursor)).getD cursor

/-- A session that can be read again later. -/
structure Continues (sessionId : SessionId) (s t : Store) : Prop where
  before : Readable s sessionId
  after : Readable t sessionId
  record : Extends sessionId s t

theorem continues (h : Reachable Any s) (hrun : Relation.ReflTransGen (Step Any) s t)
    (hbefore : (loadSession s sessionId).isSome) (hafter : (loadSession t sessionId).isSome)
    (hstored : t.nextValue ≤ maxInteger) : Continues sessionId s t := by
  have hreach := h.run hrun
  have hwrites := any_writes hrun
  have hkept := not_cleaned_of_found hreach.sound hreach.lodged hafter
  exact ⟨readable h hbefore (hwrites.forward.1.trans hstored), readable hreach hafter hstored,
    hwrites.extends h.sound hkept⟩

/-- A page that was read begins within the stream. -/
theorem readSessionEvents_cursor {cursor : SessionEventCursor} {limit : Nat} {page : SessionEventPage}
    (h : readSessionEvents w s sessionId cursor limit = .ok page) :
    cursor.sequence ≤ sessionEventHighWater s sessionId := by
  simp only [readSessionEvents, bind_ok, require_ok] at h
  obtain ⟨-, -, -, -, -, hcursor, -⟩ := h
  exact hcursor

/-- A page has the events that were asked for, or fewer. -/
theorem readSessionEvents_length {cursor : SessionEventCursor} {limit : Nat} {page : SessionEventPage}
    (h : readSessionEvents w s sessionId cursor limit = .ok page) :
    page.events.length ≤ limit ∧
      readSessionEvents w s sessionId cursor page.events.length = .ok page := by
  simp only [readSessionEvents, sequenceToSql, bind_ok, require_ok, pure_ok] at h ⊢
  obtain ⟨-, hscope, -, hfound, -, hcursor, -, hsql, -, hsql', events, hevents, rfl⟩ := h
  have hlength : _ = events.length := (mapM_ok_iff.mp hevents).length_eq
  rw [List.length_take] at hlength
  refine ⟨hlength ▸ Nat.min_le_left .., (), hscope, (), hfound, (), hcursor, (), hsql, (), hsql',
    events, ?_, rfl⟩
  rw [← hlength, List.take_eq_take_min, Nat.min_assoc, Nat.min_self, ← List.take_eq_take_min]
  exact hevents

namespace Continues

variable {n limit : Nat} {page : SessionEventPage}

/-- What was read is read again. -/
theorem event_kept (h : Continues sessionId s t) (he : e ∈ streamed s sessionId) :
    sessionEvent w t sessionId e = sessionEvent w s sessionId e := by
  have hold := h.before.number_lt he
  rw [sessionEvent, sessionEvent, eventPayload_kept h.before.sound h.before.delivered h.before.placed
    h.before.illustrated h.after.sound h.after.delivered h.after.placed h.record (h.before.told he)
    (mem_streamed.mp he).2.1 hold (hold.le.trans h.before.stored)]

theorem events_kept (h : Continues sessionId s t) {records : List DeliveryEvent}
    (hrecords : records ⊆ streamed s sessionId) :
    records.mapM (sessionEvent w t sessionId) = records.mapM (sessionEvent w s sessionId) :=
  mapM_congr fun _ he => h.event_kept (hrecords he)

theorem highWater_le (h : Continues sessionId s t) :
    sessionEventHighWater s sessionId ≤ sessionEventHighWater t sessionId := by
  refine greatest_le fun e he => ?_
  obtain ⟨he, hsession⟩ := List.mem_filter.mp he
  exact le_greatest (List.mem_filter.mpr
    ⟨h.record.delivered e he (of_decide_eq_true hsession), hsession⟩)

/-- **Pages join**: a page and the page behind it are one page of the later store. -/
theorem join (h : Continues sessionId s t)
    (hpage : readSessionEvents w s sessionId ⟨sessionId, n⟩ limit = .ok page) (more : Nat) :
    ∃ next, readSessionEvents w t sessionId (page.resume ⟨sessionId, n⟩) more = .ok next ∧
      readSessionEvents w t sessionId ⟨sessionId, n⟩ (page.events.length + more) =
        .ok ⟨page.events ++ next.events, next.highWater⟩ := by
  have hcursor : n ≤ sessionEventHighWater s sessionId := readSessionEvents_cursor hpage
  have hcursor' := hcursor.trans h.highWater_le
  obtain ⟨-, hevents⟩ := (h.before.page_iff hcursor).mp hpage
  have hcursors := mapM_cursors hevents
  rcases List.eq_nil_or_concat (((streamed s sessionId).filter fun e =>
    n < e.eventSequence).take limit) with hnone | ⟨front, row, hcut⟩
  · have hempty : page.events = [] := by
      rw [hnone] at hcursors
      exact List.map_eq_nil_iff.mp hcursors
    obtain ⟨next, hnext⟩ := h.after.page_ok more hcursor'
    refine ⟨next, ?_, ?_⟩
    · rw [SessionEventPage.resume, hempty]
      exact hnext
    · rw [hempty, List.length_nil, Nat.zero_add]
      exact hnext
  · -- the later stream, cut behind the last event of the page
    obtain ⟨back, hstream⟩ : ∃ back, (streamed t sessionId).filter (fun e => n < e.eventSequence) =
        front ++ row :: back := by
      obtain ⟨later, hlater, -⟩ := streamed_grows h.before.sound.numbered h.before.placed
        h.after.placed h.record
      refine ⟨((streamed s sessionId).filter fun e => n < e.eventSequence).drop limit ++
        later.filter fun e => n < e.eventSequence, ?_⟩
      rw [hlater, List.filter_append]
      conv_lhs => rw [← List.take_append_drop limit ((streamed s sessionId).filter _), hcut]
      simp
    rw [hcut] at hevents hcursors
    have hrow : row ∈ (streamed t sessionId).filter fun e => n < e.eventSequence := by
      rw [hstream]
      exact List.mem_append_right _ (List.mem_cons_self ..)
    obtain ⟨hrow, hbehind⟩ := List.mem_filter.mp hrow
    have hbehind : n < row.eventSequence := of_decide_eq_true hbehind
    have hlength : page.events.length = front.length + 1 := by
      simpa using congrArg List.length hcursors
    have hresume : page.resume ⟨sessionId, n⟩ = ⟨sessionId, row.eventSequence⟩ := by
      rw [SessionEventPage.resume, ← List.getLast?_map, hcursors]
      simp
    -- the next page is what lies behind the cut
    have hback : (streamed t sessionId).filter (fun e => row.eventSequence < e.eventSequence) =
        back := by
      have hrising := (streamed_rising h.after.placed sessionId).filter fun e => n < e.eventSequence
      rw [hstream] at hrising
      rw [← filter_behind hrising, ← hstream, List.filter_filter]
      refine List.filter_congr fun e _ => Bool.eq_iff_iff.mpr ?_
      simp only [Bool.and_eq_true, decide_eq_true_eq]
      exact ⟨fun he => ⟨he, hbehind.trans he⟩, And.left⟩
    have hrowCursor : row.eventSequence ≤ sessionEventHighWater t sessionId :=
      Readable.number_le hrow
    obtain ⟨next, hnext⟩ := h.after.page_ok more hrowCursor
    obtain ⟨hhigh, hmore⟩ := (h.after.page_iff hrowCursor).mp hnext
    refine ⟨next, hresume ▸ hnext, (h.after.page_iff hcursor').mpr ⟨hhigh, ?_⟩⟩
    rw [hback] at hmore
    have hfront : (front ++ [row]).mapM (sessionEvent w t sessionId) = .ok page.events := by
      rw [← List.concat_eq_append, h.events_kept, hevents]
      rw [← hcut]
      exact fun e he => List.mem_of_mem_filter (List.mem_of_mem_take he)
    have htake : (front ++ row :: back).take (page.events.length + more) =
        (front ++ [row]) ++ back.take more := by
      rw [List.append_cons, hlength, List.take_append, List.take_of_length_le (by simp)]
      simp
    rw [hstream, htake, List.mapM_append, hfront, hmore]
    rfl

theorem refl (h : Readable s sessionId) : Continues sessionId s s := ⟨h, h, .refl sessionId s⟩

/-- What was read up to an event is read up to it later on. -/
theorem page_kept (h : Continues sessionId s t) {events : List SessionEvent}
    {high : SessionEventCursor}
    (hpage : readSessionEvents w s sessionId ⟨sessionId, n⟩ events.length = .ok ⟨events, high⟩) :
    ∃ high', readSessionEvents w t sessionId ⟨sessionId, n⟩ events.length = .ok ⟨events, high'⟩ := by
  obtain ⟨next, hnext, hjoined⟩ := h.join hpage 0
  have hnone : next.events = [] :=
    List.eq_nil_of_length_eq_zero (Nat.le_zero.mp (readSessionEvents_length hnext).1)
  refine ⟨next.highWater, ?_⟩
  rwa [hnone, List.append_nil] at hjoined

end Continues

/-- **A page is complete up to its end.**  Of a session that can be loaded the events behind a
cursor are always read, in the order of their numbers, and none of those up to the last one
that was read is left out. -/
theorem readSessionEvents_complete (h : Reachable Any s) (hfound : (loadSession s sessionId).isSome)
    (hstored : s.nextValue ≤ maxInteger) {n : Nat} (hcursor : n ≤ sessionEventHighWater s sessionId)
    (limit : Nat) :
    ∃ page, readSessionEvents w s sessionId ⟨sessionId, n⟩ limit = .ok page ∧
      page.events.length ≤ limit ∧
      (page.events.map (·.cursor.sequence)).Pairwise (· < ·) ∧
      ∀ m, m ∈ page.events.map (·.cursor.sequence) ↔
        (n < m ∧ ∃ e ∈ s.deliveryEvents, e.sessionId = sessionId ∧ e.eventKind.isStreamed = true ∧
          e.eventSequence = m) ∧
        (page.events.length < limit ∨
          ∃ last ∈ (page.events.map (·.cursor.sequence)).getLast?, m ≤ last) := by
  have hreadable := readable h hfound hstored
  obtain ⟨page, hpage⟩ := hreadable.page_ok limit hcursor
  have hnumbers : page.events.map (·.cursor.sequence) = (((streamed s sessionId).filter fun e =>
      n < e.eventSequence).map DeliveryEvent.eventSequence).take limit := by
    have hcursors := congrArg (List.map SessionEventCursor.sequence)
      (mapM_cursors ((hreadable.page_iff hcursor).mp hpage).2)
    rw [List.map_map, List.map_map] at hcursors
    rw [← List.map_take]
    exact hcursors
  have hrising : (((streamed s sessionId).filter fun e => n < e.eventSequence).map
      DeliveryEvent.eventSequence).Pairwise (· < ·) :=
    List.pairwise_map.mpr ((streamed_rising hreadable.placed sessionId).filter _)
  have hlength : page.events.length = (page.events.map (·.cursor.sequence)).length := by
    rw [List.length_map]
  refine ⟨page, hpage, ?_, ?_, fun m => ?_⟩
  · rw [hlength, hnumbers]
    exact List.length_take_le ..
  · rw [hnumbers]
    exact hrising.sublist (List.take_sublist ..)
  · rw [hlength, hnumbers, mem_take_rising hrising]
    refine and_congr_left fun _ => ?_
    simp only [List.mem_map, List.mem_filter, decide_eq_true_eq, mem_streamed]
    constructor
    · rintro ⟨e, ⟨⟨he, hsession, hkind⟩, hbehind⟩, rfl⟩
      exact ⟨hbehind, e, he, hsession, hkind, rfl⟩
    · rintro ⟨hbehind, e, he, hsession, hkind, rfl⟩
      exact ⟨e, ⟨⟨he, hsession, hkind⟩, hbehind⟩, rfl⟩

/-- The first three events of a run whose tool failed. -/
theorem uncertainRun_events : ∃ page, readSessionEvents {} uncertainRun 1 ⟨1, 0⟩ 3 = .ok page ∧
    page.events.length ≤ 3 ∧ (page.events.map (·.cursor.sequence)).Pairwise (· < ·) ∧
    ∀ m, m ∈ page.events.map (·.cursor.sequence) ↔
      (0 < m ∧ ∃ e ∈ uncertainRun.deliveryEvents, e.sessionId = 1 ∧ e.eventKind.isStreamed = true ∧
        e.eventSequence = m) ∧
      (page.events.length < 3 ∨
        ∃ last ∈ (page.events.map (·.cursor.sequence)).getLast?, m ≤ last) :=
  readSessionEvents_complete uncertainRun_reachable (by decide +kernel) (by decide +kernel)
    (Nat.zero_le _) 3

/-! ## Reading on -/

/-- Pages of a session that are read one after the other from an event on, with any operations
between them: what was read so far, and the store at that time. -/
inductive Polled (w : WorkspaceTables) (sessionId : SessionId) (n : Nat) (s : Store) :
    Store → List SessionEvent → Prop
  | start : Polled w sessionId n s s []
  | operation {t u : Store} {events : List SessionEvent} (polled : Polled w sessionId n s t events)
      (step : Step Any t u) : Polled w sessionId n s u events
  | page {t : Store} {events : List SessionEvent} {limit : Nat} {page : SessionEventPage}
      (polled : Polled w sessionId n s t events)
      (read : readSessionEvents w t sessionId
        ((events.getLast?.map (·.cursor)).getD ⟨sessionId, n⟩) limit = .ok page) :
      Polled w sessionId n s t (events ++ page.events)

theorem Polled.run {events : List SessionEvent} {n : Nat} (h : Polled w sessionId n s t events) :
    Relation.ReflTransGen (Step Any) s t := by
  induction h with
  | start => exact .refl
  | operation _ step ih => exact ih.tail step
  | page _ _ ih => exact ih

theorem Polled.operations {events : List SessionEvent} {n : Nat} {u : Store}
    (h : Polled w sessionId n s t events) (hrun : Relation.ReflTransGen (Step Any) t u) :
    Polled w sessionId n s u events := by
  induction hrun with
  | refl => exact h
  | tail _ step ih => exact ih.operation step

/-- **No event is lost, repeated or changed between pages.**  Whatever operations came between
the pages, what was read is one page of the last store, and the next page can be read. -/
theorem polled_page (h : Reachable Any s) (hbefore : (loadSession s sessionId).isSome) {n : Nat}
    (hcursor : n ≤ sessionEventHighWater s sessionId) {events : List SessionEvent}
    (hpolled : Polled w sessionId n s t events) (hafter : (loadSession t sessionId).isSome)
    (hstored : t.nextValue ≤ maxInteger) :
    (∃ high, readSessionEvents w t sessionId ⟨sessionId, n⟩ events.length = .ok ⟨events, high⟩) ∧
      ∀ limit, ∃ page, readSessionEvents w t sessionId
        ((events.getLast?.map (·.cursor)).getD ⟨sessionId, n⟩) limit = .ok page := by
  have hpage : ∃ high, readSessionEvents w t sessionId ⟨sessionId, n⟩ events.length =
      .ok ⟨events, high⟩ := by
    induction hpolled with
    | start =>
      obtain ⟨page, hpage⟩ := (readable h hafter hstored).page_ok 0 hcursor
      have hnone : page.events = [] :=
        List.eq_nil_of_length_eq_zero (Nat.le_zero.mp (readSessionEvents_length hpage).1)
      refine ⟨page.highWater, hpage.trans ?_⟩
      rw [← hnone]
    | @operation u v events polled step ih =>
      have hreach := h.run polled.run
      have hsound := hreach.sound
      have hlater : Reachable Any v := h.run (polled.run.tail step)
      have hwrites := any_writes (Relation.ReflTransGen.single step)
      have hkept := not_cleaned_of_found hlater.sound hlater.lodged hafter
      have hfound : (loadSession u sessionId).isSome :=
        ((any_writes polled.run).extends h.sound (hwrites.cleaned_mono hsound hkept)).found
          h.sound.aligned hsound.aligned hbefore
      obtain ⟨high, hpage⟩ := ih hfound (hwrites.forward.1.trans hstored)
      exact (continues hreach (.single step) hfound hafter hstored).page_kept hpage
    | @page u events limit page polled read ih =>
      obtain ⟨high, hpage⟩ := ih hafter hstored
      have hreadable := readable (h.run polled.run) hafter hstored
      obtain ⟨next, hnext, hjoined⟩ := (Continues.refl hreadable).join hpage page.events.length
      obtain rfl := Except.ok.inj (hnext.symm.trans (readSessionEvents_length read).2)
      rw [List.length_append]
      exact ⟨_, hjoined⟩
  refine ⟨hpage, fun limit => ?_⟩
  obtain ⟨high, hpage⟩ := hpage
  have hreadable := readable (h.run hpolled.run) hafter hstored
  obtain ⟨next, hnext, -⟩ := (Continues.refl hreadable).join hpage limit
  exact ⟨next, hnext⟩

theorem uncertainRun_later : Relation.ReflTransGen (Step Any) callingRun uncertainRun := by
  have hall : (executeAll Store.empty (uncertainRunSteps.take 8 ++ uncertainRunSteps.drop 8)).isOk =
      true := by decide +kernel
  have hrun := run_executed hall
  rwa [List.take_append_drop] at hrun

/-- What was read before a tool was called is read again when its run is over. -/
theorem uncertainRun_polled : ∃ page, readSessionEvents {} callingRun 1 ⟨1, 0⟩ 2 = .ok page ∧
    ∃ high, readSessionEvents {} uncertainRun 1 ⟨1, 0⟩ page.events.length =
      .ok ⟨page.events, high⟩ := by
  have hfound : (loadSession callingRun 1).isSome := by decide +kernel
  obtain ⟨page, hpage⟩ := (readable callingRun_reachable hfound (by decide +kernel)).page_ok
    (w := {}) 2 (Nat.zero_le _)
  have hpolled : Polled {} 1 0 callingRun uncertainRun ([] ++ page.events) :=
    (Polled.start.page hpage).operations uncertainRun_later
  exact ⟨page, hpage, (polled_page callingRun_reachable hfound (Nat.zero_le _) hpolled
    (by decide +kernel) (by decide +kernel)).1⟩

end Morons.SessionEvents
