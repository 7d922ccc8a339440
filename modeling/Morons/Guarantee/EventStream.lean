import Morons.Guarantee.EventPages
import Morons.Guarantee.Events
import Morons.Invariant.Succession

/-!
# The events that subscriptions follow

The events of a session, as the server tells them, are such as a subscription
relies on: the runs come one after the other, and none changes after its end.
What operations add to the store is committed to the history of the
subscription, and what its loop reads of the history is a page of the store.
-/

namespace Morons.SessionEvents

open Attempt Ledger ContextHistory

variable {s t : Store} {w : WorkspaceTables} {sessionId : SessionId} {e e' : DeliveryEvent}

/-! ## What the server tells -/

def RunSnapshot.summary (run : RunSnapshot) : Events.RunSummary :=
  ⟨run.id, run.sessionId, run.state, run.binding.service, run.failure⟩

/-- The entry of an event, of which the client checks the images only. -/
def toProtocolTranscriptEntry (entry : ContextHistory.TranscriptEntry) : Events.TranscriptEntry :=
  match entry.body with
  | .userMessage _ text attachments => .userMessage text attachments
  | _ => .other

def SessionEvent.toProtocol (event : SessionEvent) : Events.SessionEvent :=
  ⟨event.cursor.sequence, match event.payload with
    | .transcriptEntry entry => .transcriptEntry (toProtocolTranscriptEntry entry)
    | .runChanged run => .runChanged run.summary
    | .localCommandChanged commandId active => .localCommandChanged commandId active
    | .workspaceChanged _ => .workspaceChanged⟩

/-- The events of a session that can be delivered. -/
def eventHistory (w : WorkspaceTables) (s : Store) (sessionId : SessionId) :
    List Events.SessionEvent :=
  (((streamed s sessionId).mapM (sessionEvent w s sessionId)).toOption.getD []).map
    SessionEvent.toProtocol

/-! ## Run events -/

/-- A fact of the run has this number. -/
inductive Marked (s : Store) (f : RunAcceptedFact) (n : Nat) : Prop
  | accepted (number : f.factSequence = n)
  | state (g : RunStateFact) (mem : g ∈ s.runStateFacts) (run : g.runId = f.runId)
      (number : g.factSequence = n)
  | cancellation (c : RunCancellationRequest) (mem : c ∈ s.runCancellationRequests)
      (applied : c.intentApplied = true) (run : c.runId = f.runId) (number : c.factSequence = n)

@[simp] theorem runAt_id (s : Store) (f : RunAcceptedFact) (n : Nat) : (runAt s f n).id = f.runId := by
  unfold runAt
  cases stateAtSequence s f.runId n <;> cases cancellationAtSequence s f.runId n <;> rfl

@[simp] theorem runAt_sessionId (s : Store) (f : RunAcceptedFact) (n : Nat) :
    (runAt s f n).sessionId = f.sessionId := by
  unfold runAt
  cases stateAtSequence s f.runId n <;> cases cancellationAtSequence s f.runId n <;> rfl

/-- A run event shows the run of a fact with its number. -/
theorem runChanged_marked (hs : Sound s) (hd : Delivered s) (hp : Placed s) (he : Told s e)
    (hstored : e.eventSequence ≤ maxInteger) {run : RunSnapshot}
    (hpayload : eventPayload w s e.sessionId e = .ok (.runChanged run)) :
    ∃ f ∈ s.runAcceptedFacts, f.sessionId = e.sessionId ∧ run = runAt s f e.eventSequence ∧
      Marked s f e.eventSequence := by
  cases he with
  | entry row mem origin kind =>
    rw [eventPayload_entry kind] at hpayload
    simp only [bind_ok, pure_ok] at hpayload
    obtain ⟨_, _, _, _, hpayload⟩ := hpayload
    cases hpayload
  | command row mem origin kind =>
    unfold eventPayload at hpayload
    rw [kind] at hpayload
    simp only [bind_ok, pure_ok] at hpayload
    obtain ⟨_, _, hpayload⟩ := hpayload
    cases hpayload
  | commandEntry row mem terminal origin kind =>
    unfold eventPayload at hpayload
    rw [kind] at hpayload
    simp only [bind_ok, pure_ok] at hpayload
    obtain ⟨_, _, hpayload⟩ := hpayload
    cases hpayload
  | uncertainty f mem uncertain origin kind =>
    unfold eventPayload at hpayload
    rw [kind] at hpayload
    simp only [bind_ok, pure_ok] at hpayload
    obtain ⟨_, _, hpayload⟩ := hpayload
    cases hpayload
  | accepted f mem origin kind =>
    unfold eventPayload at hpayload
    rw [kind] at hpayload
    simp only [loadEventRunId, find_accepted hd hp mem origin, Option.map_some, bind_ok, demand_ok,
      pure_ok] at hpayload
    obtain ⟨runId, hrunId, shown, hshown, -, -, hpayload⟩ := hpayload
    cases hrunId
    cases hpayload
    rw [loadRunAtSequence_ok hs mem origin.sequence.le hstored] at hshown
    exact ⟨f, mem, origin.session, (Except.ok.inj hshown).symm, .accepted origin.sequence⟩
  | state f mem origin kind =>
    obtain ⟨a, ha, harun, hasession, hlt⟩ := hs.scope.stateFacts f mem
    rw [eventPayload_state kind, find_state hd hp mem origin] at hpayload
    simp only [Option.map_some, bind_ok, demand_ok, pure_ok] at hpayload
    obtain ⟨runId, hrunId, shown, hshown, -, -, hpayload⟩ := hpayload
    cases hrunId
    cases hpayload
    rw [← harun, loadRunAtSequence_ok hs ha (hlt.le.trans origin.sequence.le) hstored] at hshown
    exact ⟨a, ha, hasession.trans origin.session, (Except.ok.inj hshown).symm,
      .state f mem harun.symm origin.sequence⟩
  | cancellation c mem applied origin kind =>
    obtain ⟨a, ha, harun, hasession, hlt⟩ := hs.scope.cancellations c mem
    unfold eventPayload at hpayload
    rw [kind] at hpayload
    simp only [loadEventRunId, find_cancellation hd hp mem applied origin, Option.map_some, bind_ok,
      demand_ok, pure_ok] at hpayload
    obtain ⟨runId, hrunId, shown, hshown, -, -, hpayload⟩ := hpayload
    cases hrunId
    cases hpayload
    rw [← harun, loadRunAtSequence_ok hs ha (hlt.le.trans origin.sequence.le) hstored] at hshown
    exact ⟨a, ha, hasession.trans origin.session, (Except.ok.inj hshown).symm,
      .cancellation c mem applied harun.symm origin.sequence⟩

theorem Marked.after_acceptance (hs : Sound s) {f : RunAcceptedFact} (hf : f ∈ s.runAcceptedFacts)
    {n : Nat} (h : Marked s f n) : f.factSequence ≤ n := by
  cases h with
  | accepted number => exact number.le
  | state g mem run number =>
    obtain ⟨a, ha, harun, -, hlt⟩ := hs.scope.stateFacts g mem
    exact (number ▸ SessionEvents.after_acceptance hs hf ha run.symm harun hlt).le
  | cancellation c mem applied run number =>
    obtain ⟨a, ha, harun, -, hlt⟩ := hs.scope.cancellations c mem
    exact (number ▸ SessionEvents.after_acceptance hs hf ha run.symm harun hlt).le

/-- Nothing marks a run after its end. -/
theorem Marked.before_end (hs : Sound s) {f : RunAcceptedFact} (hf : f ∈ s.runAcceptedFacts) {n : Nat}
    (h : Marked s f n) {g : RunStateFact} (hg : g ∈ s.runStateFacts) (hrun : g.runId = f.runId)
    (hterminal : g.state.isTerminal = true) : n ≤ g.factSequence := by
  cases h with
  | accepted number =>
    obtain ⟨a, ha, harun, -, hlt⟩ := hs.scope.stateFacts g hg
    rw [← number, hs.identified.acceptedFacts.eq_of_seq hf ha (hrun.symm.trans harun.symm)]
    exact hlt.le
  | state g' mem run number =>
    subst number
    have hrank : g.state.rank = 2 := (RunState.isTerminal_iff_rank _).mp hterminal
    have hmem : g ∈ s.runStateFacts.filter fun r => r.runId = f.runId :=
      List.mem_filter.mpr ⟨hg, decide_eq_true hrun⟩
    have hmem' : g' ∈ s.runStateFacts.filter fun r => r.runId = f.runId :=
      List.mem_filter.mpr ⟨mem, decide_eq_true run⟩
    have hstaged := hs.chronicled.staged f.runId
    rcases (RunState.rank_le g'.state).eq_or_lt with hsame | hlt
    · rw [hstaged.eq_of_rank hmem' hmem (hsame.trans hrank.symm)]
    · exact (hstaged.seq_lt (hs.numbered.stateFacts.filter _) hmem' hmem (hrank ▸ hlt)).le
  | cancellation c mem applied run number =>
    rw [← number]
    exact (hs.closed.cancellations g hg hterminal c mem (by simp [applied, run, hrun])).le

/-- The end of a run that is shown. -/
theorem runAt_ended {f : RunAcceptedFact} {n : Nat} (h : (runAt s f n).state.isTerminal = true) :
    ∃ g ∈ s.runStateFacts, g.runId = f.runId ∧ g.state.isTerminal = true ∧ g.factSequence ≤ n := by
  rw [runAt_state] at h
  cases hfound : stateAtSequence s f.runId n with
  | none =>
    rw [hfound] at h
    cases h
  | some g =>
    rw [hfound] at h
    obtain ⟨hg, hrun, hle⟩ := stateAtSequence_mem hfound
    exact ⟨g, hg, hrun, h, hle⟩

/-- A run that is shown before its end goes on. -/
theorem runAt_going (hs : Sound s) {f : RunAcceptedFact} (hf : f ∈ s.runAcceptedFacts) {n : Nat}
    (h : (runAt s f n).state.isTerminal = false) {g : RunStateFact} (hg : g ∈ s.runStateFacts)
    (hrun : g.runId = f.runId) (hterminal : g.state.isTerminal = true) : n < g.factSequence := by
  by_contra hle
  have hfound : stateAtSequence s f.runId n = some g := by
    refine latest_eq (List.mem_filter.mpr ⟨hg, by simp [hrun, Nat.not_lt.mp hle]⟩) fun r hr => ?_
    obtain ⟨hr, hchosen⟩ := List.mem_filter.mp hr
    simp only [Bool.and_eq_true, decide_eq_true_eq] at hchosen
    have hbefore := Marked.before_end hs hf (.state r hr hchosen.1 rfl) hg hrun hterminal
    rcases hbefore.eq_or_lt with hsame | hlt
    · exact .inl (hs.numbered.stateFacts.eq_of_seq hr hg hsame)
    · exact .inr hlt
  rw [runAt_state, hfound] at h
  exact absurd (hterminal.symm.trans h) Bool.noConfusion

/-- Every transition has its event. -/
theorem event_of_state (hd : Delivered s) {g : RunStateFact} (hg : g ∈ s.runStateFacts) :
    ∃ e ∈ streamed s g.sessionId, e.eventSequence = g.factSequence ∧
      rebuiltEventKind g.state = some e.eventKind ∧
      Origin e (some g.deliveryEventId) g.factSequence g.sessionId := by
  have hrow : EventRow.mk (some g.deliveryEventId) g.factSequence g.sessionId
      (rebuiltEventKind g.state) g.createdAtMilliseconds ∈ s.eventRows := by
    refine mem_eventRows.mpr ?_
    exact Or.inr (.inr (.inr (.inr (.inr (.inr (.inr (.inr (.inl (List.mem_map_of_mem hg)))))))))
  obtain ⟨e, he, hsame⟩ := List.mem_map.mp (hd.rows.mem_iff.mp hrow)
  obtain ⟨origin, hkind⟩ := origin_of_row hsame.symm
  have hstreamed : e.eventKind.isStreamed = true := by
    cases hstate : g.state <;> rw [hstate] at hkind <;> cases hkind' : e.eventKind <;>
      rw [hkind'] at hkind <;> first | rfl | cases hkind
  exact ⟨e, mem_streamed.mpr ⟨List.mem_of_mem_filter he, origin.session.symm, hstreamed⟩,
    origin.sequence.symm, hkind, origin⟩

/-! ## The history of a session -/

/-- What the server tells of an event. -/
def Tells (w : WorkspaceTables) (s : Store) (sessionId : SessionId) (e : DeliveryEvent)
    (x : Events.SessionEvent) : Prop :=
  ∃ event, sessionEvent w s sessionId e = .ok event ∧ event.toProtocol = x

theorem Tells.sequence {x : Events.SessionEvent} (h : Tells w s sessionId e x) :
    x.sequence = e.eventSequence := by
  obtain ⟨event, hevent, rfl⟩ := h
  obtain ⟨payload, -, hsame⟩ := (bind_ok ..).mp hevent
  obtain rfl := (pure_ok _ _).mp hsame
  rfl

namespace Readable

theorem history_eq (h : Readable s sessionId) : ∃ events,
    (streamed s sessionId).mapM (sessionEvent w s sessionId) = .ok events ∧
      eventHistory w s sessionId = events.map SessionEvent.toProtocol := by
  obtain ⟨events, hevents⟩ := mapM_succeeds (f := sessionEvent w s sessionId) fun e he => h.event_ok he
  exact ⟨events, hevents, by rw [eventHistory, hevents]; rfl⟩

theorem told_of_history (h : Readable s sessionId) {x : Events.SessionEvent}
    (hx : x ∈ eventHistory w s sessionId) : ∃ e ∈ streamed s sessionId, Tells w s sessionId e x := by
  obtain ⟨events, hevents, hhistory⟩ := h.history_eq (w := w)
  rw [hhistory] at hx
  obtain ⟨event, hevent, rfl⟩ := List.mem_map.mp hx
  obtain ⟨e, he, hread⟩ := mapM_mem hevents hevent
  exact ⟨e, he, event, hread, rfl⟩

theorem history_of_told (h : Readable s sessionId) (he : e ∈ streamed s sessionId) :
    ∃ x ∈ eventHistory w s sessionId, Tells w s sessionId e x := by
  obtain ⟨events, hevents, hhistory⟩ := h.history_eq (w := w)
  obtain ⟨event, hevent, hread⟩ := mem_mapM hevents he
  rw [hhistory]
  exact ⟨_, List.mem_map_of_mem hevent, event, hread, rfl⟩

theorem history_rising (h : Readable s sessionId) :
    (eventHistory w s sessionId).Pairwise fun x y => x.sequence < y.sequence := by
  obtain ⟨events, hevents, hhistory⟩ := h.history_eq (w := w)
  have hcursors := congrArg (List.map SessionEventCursor.sequence) (mapM_cursors hevents)
  rw [List.map_map, List.map_map] at hcursors
  have hrising : (events.map fun event => event.cursor.sequence).Pairwise (· < ·) := by
    refine Eq.subst hcursors.symm ?_
    exact List.pairwise_map.mpr (streamed_rising h.placed sessionId)
  rw [hhistory]
  exact List.pairwise_map.mpr (List.pairwise_map.mp hrising)

/-- A run event of the history. -/
theorem history_run (h : Readable s sessionId) {x : Events.SessionEvent}
    (hx : x ∈ eventHistory w s sessionId) {run : Events.RunSummary} (hrun : x.run = some run) :
    ∃ f ∈ s.runAcceptedFacts, f.sessionId = sessionId ∧ run = (runAt s f x.sequence).summary ∧
      Marked s f x.sequence := by
  obtain ⟨e, he, htells⟩ := h.told_of_history hx
  rw [htells.sequence]
  obtain ⟨event, hevent, rfl⟩ := htells
  obtain ⟨payload, hpayload, hsame⟩ := (bind_ok ..).mp hevent
  obtain rfl := (pure_ok _ _).mp hsame
  have hsession := (mem_streamed.mp he).2.1
  cases payload with
  | runChanged shown =>
    obtain rfl := Option.some.inj hrun
    rw [← hsession] at hpayload
    obtain ⟨f, hf, hfsession, rfl, hmarked⟩ := runChanged_marked h.sound h.delivered h.placed
      (h.told he) ((h.number_lt he).le.trans h.stored) hpayload
    exact ⟨f, hf, hfsession.trans hsession, rfl, hmarked⟩
  | transcriptEntry | localCommandChanged | workspaceChanged => cases hrun

/-- Every transition is in the history. -/
theorem history_state (h : Readable s sessionId) {g : RunStateFact} (hg : g ∈ s.runStateFacts)
    (hsession : g.sessionId = sessionId) :
    ∃ x ∈ eventHistory w s sessionId, x.sequence = g.factSequence ∧ x.run.isSome = true := by
  obtain ⟨e, he, hnumber, hkind, -⟩ := event_of_state h.delivered hg
  rw [hsession] at he
  obtain ⟨x, hx, htells⟩ := h.history_of_told (w := w) he
  refine ⟨x, hx, htells.sequence.trans hnumber, ?_⟩
  obtain ⟨event, hevent, rfl⟩ := htells
  obtain ⟨payload, hpayload, hsame⟩ := (bind_ok ..).mp hevent
  obtain rfl := (pure_ok _ _).mp hsame
  rw [eventPayload_state hkind] at hpayload
  simp only [bind_ok, pure_ok] at hpayload
  obtain ⟨-, -, run, -, -, -, rfl⟩ := hpayload
  rfl

/-- A run is not shown after its end. -/
theorem fresh_after_end (h : Readable s sessionId) {x y : Events.SessionEvent}
    (hx : x ∈ eventHistory w s sessionId) (hy : y ∈ eventHistory w s sessionId)
    (hlt : y.sequence < x.sequence) {run ended : Events.RunSummary} (hrun : x.run = some run)
    (hended : y.run = some ended) (hterminal : ended.state.isTerminal = true) : ended.id ≠ run.id := by
  intro hsame
  obtain ⟨f, hf, -, rfl, hmarked⟩ := h.history_run hx hrun
  obtain ⟨f', -, -, rfl, -⟩ := h.history_run hy hended
  have hid : f'.runId = f.runId := (runAt_id ..).symm.trans (hsame.trans (runAt_id ..))
  obtain ⟨g, hg, hgrun, hgterminal, hle⟩ := runAt_ended hterminal
  have hlast := hmarked.before_end h.sound hf hg (hgrun.trans hid) hgterminal
  omega

/-- Between the events of two runs, the first of which goes on, its end is shown. -/
theorem end_between (h : Readable s sessionId) (hsuccessive : Successive s)
    {x y : Events.SessionEvent} (hx : x ∈ eventHistory w s sessionId)
    (hy : y ∈ eventHistory w s sessionId) (hlt : y.sequence < x.sequence)
    {run going : Events.RunSummary} (hrun : x.run = some run) (hgoing : y.run = some going)
    (hstate : going.state.isTerminal = false) (hother : going.id ≠ run.id) :
    ∃ z ∈ eventHistory w s sessionId, y.sequence < z.sequence ∧ z.sequence < x.sequence ∧
      z.run.isSome = true := by
  have hs := h.sound
  obtain ⟨f, hf, hsession, rfl, hmarked⟩ := h.history_run hx hrun
  obtain ⟨f', hf', hsession', rfl, hmarked'⟩ := h.history_run hy hgoing
  have hfx := hmarked.after_acceptance hs hf
  have hfy := hmarked'.after_acceptance hs hf'
  rcases Nat.lt_trichotomy f'.factSequence f.factSequence with hfirst | hsame | hfirst
  · obtain ⟨g, hg, hgrun, hgterminal, hglt⟩ := hsuccessive f' hf' f hf
      (hsession'.trans hsession.symm) hfirst
    have hafter := runAt_going hs hf' hstate hg hgrun hgterminal
    obtain ⟨a, ha, harun, hasession, -⟩ := hs.scope.stateFacts g hg
    have hsame := hs.identified.acceptedFacts.eq_of_seq ha hf' (harun.trans hgrun)
    obtain ⟨z, hz, hznumber, hzrun⟩ := h.history_state (w := w) hg
      (hasession.symm.trans (hsame ▸ hsession'))
    exact ⟨z, hz, by omega, by omega, hzrun⟩
  · refine absurd ?_ hother
    rw [hs.numbered.acceptedFacts.eq_of_seq hf' hf hsame]
    exact (runAt_id ..).trans (runAt_id ..).symm
  · -- the second run would be shown after its end
    obtain ⟨g, hg, hgrun, hgterminal, hglt⟩ := hsuccessive f hf f' hf'
      (hsession.trans hsession'.symm) hfirst
    have hlast := hmarked.before_end hs hf hg hgrun hgterminal
    omega

end Readable

/-- What lies between two events of a rising history. -/
theorem mem_between {front back after : List Events.SessionEvent} {x y z : Events.SessionEvent}
    (h : (front ++ y :: back ++ x :: after).Pairwise fun a b => a.sequence < b.sequence)
    (hz : z ∈ front ++ y :: back ++ x :: after) (hyz : y.sequence < z.sequence)
    (hzx : z.sequence < x.sequence) : z ∈ back := by
  obtain ⟨hbefore, hrest, -⟩ := List.pairwise_append.mp h
  rcases List.mem_append.mp hz with hz | hz
  · rcases List.mem_append.mp hz with hz | hz
    · have hlt := (List.pairwise_append.mp hbefore).2.2 z hz y (List.mem_cons_self ..)
      omega
    · rcases List.mem_cons.mp hz with rfl | hz
      · omega
      · exact hz
  · rcases List.mem_cons.mp hz with rfl | hz
    · omega
    · have hlt := (List.pairwise_cons.mp hrest).1 z hz
      omega

/-- The event that left a run open. -/
theorem openRun_last {history : List Events.SessionEvent} {r : RunId}
    (h : Events.openRun history = some r) : ∃ before x after run, history = before ++ x :: after ∧
      x.run = some run ∧ run.id = r ∧ run.state.isTerminal = false ∧ ∀ y ∈ after, y.run = none := by
  induction history using List.reverseRecOn with
  | nil => cases h
  | append_singleton history x ih =>
    rw [Events.openRun_snoc] at h
    cases hrun : x.run with
    | none =>
      rw [Events.opened_of_none hrun] at h
      obtain ⟨before, y, after, run, rfl, hyrun, hid, hgoing, hnone⟩ := ih h
      refine ⟨before, y, after ++ [x], run, by simp, hyrun, hid, hgoing, fun z hz => ?_⟩
      rcases List.mem_append.mp hz with hz | hz
      · exact hnone z hz
      · rwa [List.mem_singleton.mp hz]
    | some run =>
      rw [Events.opened_of_some hrun] at h
      split at h
      · cases h
      · rename_i hgoing
        exact ⟨history, x, [], run, rfl, hrun, Option.some.inj h, Bool.eq_false_iff.mpr hgoing, by simp⟩

/-- **The history of a session is sequential.** -/
theorem Readable.sequential (h : Readable s sessionId) (hsuccessive : Successive s) :
    Events.Sequential sessionId (eventHistory w s sessionId) := by
  intro before x after hsplit
  have hrising := h.history_rising (w := w)
  rw [hsplit] at hrising
  have hearlier : ∀ y ∈ before, y.sequence < x.sequence :=
    fun y hy => (List.pairwise_append.mp hrising).2.2 y hy x (List.mem_cons_self ..)
  have hbefore : ∀ y ∈ before, y ∈ eventHistory w s sessionId :=
    fun y hy => hsplit ▸ List.mem_append_left _ hy
  have hx : x ∈ eventHistory w s sessionId :=
    hsplit ▸ List.mem_append_right _ (List.mem_cons_self ..)
  simp only [Events.admits, Bool.and_eq_true, List.all_eq_true, decide_eq_true_eq,
    Option.all_eq_true]
  refine ⟨hearlier, fun run hrun => ⟨⟨?_, fun hended => ?_⟩, fun r hopen => ?_⟩⟩
  · obtain ⟨f, -, hsession, rfl, -⟩ := h.history_run hx hrun
    exact (runAt_sessionId ..).trans hsession
  · obtain ⟨y, hy, hended⟩ := List.mem_filterMap.mp hended
    obtain ⟨ended, hended, hid⟩ := Option.map_eq_some_iff.mp hended
    obtain ⟨hended, hterminal⟩ := Option.filter_eq_some_iff.mp hended
    exact h.fresh_after_end hx (hbefore y hy) (hearlier y hy) hrun hended hterminal hid
  · obtain ⟨front, y, back, going, rfl, hgoing, rfl, hstate, hnone⟩ := openRun_last hopen
    by_contra hother
    have hy : y ∈ front ++ y :: back := List.mem_append_right _ (List.mem_cons_self ..)
    obtain ⟨z, hz, hyz, hzx, hzrun⟩ := h.end_between hsuccessive hx (hbefore y hy) (hearlier y hy)
      hrun hgoing hstate hother
    rw [hsplit] at hz
    rw [hnone z (mem_between hrising hz hyz hzx)] at hzrun
    cases hzrun

/-- **The events of a session are sequential**, in every reachable store: at most one run is open
at any event, and none is shown again after its end. -/
theorem eventHistory_sequential (h : Reachable Any s) (hfound : (loadSession s sessionId).isSome)
    (hstored : s.nextValue ≤ maxInteger) :
    Events.Sequential sessionId (eventHistory w s sessionId) :=
  (readable h hfound hstored).sequential h.successive

theorem uncertainRun_sequential : Events.Sequential 1 (eventHistory {} uncertainRun 1) :=
  eventHistory_sequential uncertainRun_reachable (by decide +kernel) (by decide +kernel)

/-- **The history of a session only grows**, by later events. -/
theorem Continues.history_grows (h : Continues sessionId s t) :
    ∃ later, eventHistory w t sessionId = eventHistory w s sessionId ++ later ∧
      ∀ x ∈ later, s.nextValue ≤ x.sequence := by
  obtain ⟨events, hevents, hhistory⟩ := h.before.history_eq (w := w)
  obtain ⟨events', hevents', hhistory'⟩ := h.after.history_eq (w := w)
  obtain ⟨later, hlater, hnew⟩ := streamed_grows h.before.sound.numbered h.before.placed
    h.after.placed h.record
  rw [hlater, List.mapM_append, h.events_kept (List.Subset.refl _), hevents] at hevents'
  obtain ⟨first, hfirst, hevents'⟩ := (bind_ok ..).mp hevents'
  obtain ⟨rest, hrest, hsame⟩ := (bind_ok ..).mp hevents'
  obtain rfl := Except.ok.inj hfirst
  obtain rfl := (pure_ok _ _).mp hsame
  refine ⟨rest.map SessionEvent.toProtocol, by rw [hhistory', hhistory, List.map_append], ?_⟩
  intro x hx
  obtain ⟨event, hevent, rfl⟩ := List.mem_map.mp hx
  obtain ⟨e, he, hread⟩ := mapM_mem hrest hevent
  rw [Tells.sequence ⟨event, hread, rfl⟩]
  exact hnew e he

/-! ## Subscriptions of a store -/

/-- A subscription of a session from an event on, with what its channels carried so far. -/
def subscribeSession (w : WorkspaceTables) (s : Store) (sessionId : SessionId) (n : Nat)
    (published : List Events.AssistantDelta) (compaction : Option RunId) (diagnosed : List RunId) :
    Events.Streaming where
  history := eventHistory w s sessionId
  highWater := sessionEventHighWater s sessionId
  published := published
  deltas := []
  compaction := compaction
  diagnosed := diagnosed
  diagnostics := []
  server := { sessionId := sessionId, cursor := ⟨sessionId, n⟩ }
  pendingDiagnostic := none
  presentedCompaction := none
  phase := .reading
  client := { sessionId := sessionId, cursor := ⟨sessionId, n⟩ }

/-- The events that an operation left are committed one after the other. -/
def commitAll (x : Events.Streaming) (later : List Events.SessionEvent) : Events.Streaming :=
  later.foldl (fun x e => x.move (.commit e)) x

/-- A subscription of a session while operations change the store.  The loop and the channels
move at any time; a delta that is taken while no run is known to be active is of the run that
the events come to next. -/
inductive Attended (w : WorkspaceTables) (sessionId : SessionId) : Store → Events.Streaming → Prop
  | subscribed {s : Store} (n : Nat) (published : List Events.AssistantDelta)
      (compaction : Option RunId) (diagnosed : List RunId) (reachable : Reachable Any s)
      (found : (loadSession s sessionId).isSome) (cursor : n ≤ sessionEventHighWater s sessionId) :
      Attended w sessionId s (subscribeSession w s sessionId n published compaction diagnosed)
  | operation {s t : Store} {x : Events.Streaming} (attended : Attended w sessionId s x)
      (step : Step Any s t) :
      Attended w sessionId t (commitAll x ((eventHistory w t sessionId).drop x.history.length))
  | loop {s : Store} {x : Events.Streaming} (attended : Attended w sessionId s x)
      (m : Events.Streaming.Move) (own : ∀ e, m ≠ .commit e) (allows : x.allows m = true)
      (timely : x.timely m = true) : Attended w sessionId s (x.move m)

theorem Attended.operations {x : Events.Streaming} (h : Attended w sessionId s x)
    (hrun : Relation.ReflTransGen (Step Any) s t) : ∃ y, Attended w sessionId t y := by
  induction hrun with
  | refl => exact ⟨x, h⟩
  | tail _ step ih =>
    obtain ⟨y, hy⟩ := ih
    exact ⟨_, hy.operation step⟩

theorem commitAll_followed {x : Events.Streaming} {later : List Events.SessionEvent}
    (h : Events.Followed x) (hsession : x.server.sessionId = sessionId)
    (hsequential : Events.Sequential sessionId (x.history ++ later))
    (hnew : ∀ e ∈ later, x.highWater < e.sequence) :
    Events.Followed (commitAll x later) ∧ (commitAll x later).history = x.history ++ later ∧
      (commitAll x later).server = x.server ∧
      ∀ n, x.highWater ≤ n → (∀ e ∈ later, e.sequence ≤ n) → (commitAll x later).highWater ≤ n := by
  induction later generalizing x with
  | nil => exact ⟨h, (List.append_nil _).symm, rfl, fun n hn _ => hn⟩
  | cons e later ih =>
    have hadmits := hsequential x.history e later rfl
    have hallows : x.allows (.commit e) = true := by
      rw [Events.Streaming.allows, hsession, hadmits, Bool.and_true, decide_eq_true_eq]
      exact hnew e (List.mem_cons_self ..)
    rw [List.append_cons] at hsequential
    have hlater : ∀ y ∈ later, e.sequence < y.sequence := by
      have hrising := hsequential.rising
      rw [List.append_assoc, List.singleton_append] at hrising
      exact (List.pairwise_cons.mp (List.pairwise_append.mp hrising).2.1).1
    obtain ⟨hfollowed, hhistory, hserver, hhigh⟩ := ih (h.move _ hallows rfl) hsession hsequential hlater
    refine ⟨hfollowed, hhistory.trans (List.append_cons ..).symm, hserver, fun n _ hle => ?_⟩
    exact hhigh n (hle e (List.mem_cons_self ..)) fun y hy => hle y (List.mem_cons_of_mem _ hy)

/-- What a subscription knows of the store. -/
structure Attending (w : WorkspaceTables) (sessionId : SessionId) (s : Store) (x : Events.Streaming) :
    Prop where
  followed : Events.Followed x
  session : x.server.sessionId = sessionId
  history : x.history = eventHistory w s sessionId
  highWater : x.highWater ≤ sessionEventHighWater s sessionId

theorem Attended.origin {x : Events.Streaming} (h : Attended w sessionId s x) :
    ∃ s₀, Reachable Any s₀ ∧ (loadSession s₀ sessionId).isSome ∧
      Relation.ReflTransGen (Step Any) s₀ s := by
  induction h with
  | subscribed _ _ _ _ reachable found => exact ⟨_, reachable, found, .refl⟩
  | operation _ step ih =>
    obtain ⟨s₀, hreach, hfound, hrun⟩ := ih
    exact ⟨s₀, hreach, hfound, hrun.tail step⟩
  | loop _ _ _ _ _ ih => exact ih

/-- The history, as a subscription and its session see it. -/
structure Unmoved (x y : Events.Streaming) : Prop where
  history : y.history = x.history
  highWater : y.highWater = x.highWater
  session : y.server.sessionId = x.server.sessionId

theorem deliver_unmoved (x : Events.Streaming) (event : Events.DeliveredSessionEvent) :
    Unmoved x (x.deliver event) := by
  have hsession := Events.advance_session x.server event
  unfold Events.Streaming.deliver
  cases event.event <;> exact ⟨rfl, rfl, hsession⟩

theorem deliverAll_unmoved (x : Events.Streaming) (page : List Events.DeliveredSessionEvent) :
    Unmoved x (page.foldl Events.Streaming.deliver x) := by
  induction page generalizing x with
  | nil => exact ⟨rfl, rfl, rfl⟩
  | cons event page ih =>
    have hfirst := deliver_unmoved x event
    have hrest := ih (x.deliver event)
    exact ⟨hrest.history.trans hfirst.history, hrest.highWater.trans hfirst.highWater,
      hrest.session.trans hfirst.session⟩

theorem presentStopped_unmoved (x : Events.Streaming) (run : Option RunId) (active : Bool) :
    Unmoved x (x.presentStopped run active) := by
  cases run <;> exact ⟨rfl, rfl, rfl⟩

theorem presentCompaction_unmoved (x : Events.Streaming) : Unmoved x x.presentCompaction := by
  unfold Events.Streaming.presentCompaction
  simp only
  split
  · exact ⟨rfl, rfl, rfl⟩
  · have hstopped := presentStopped_unmoved x
      (x.presentedCompaction.filter x.server.acceptsCompaction) false
    have hstarted := presentStopped_unmoved (x.presentStopped
      (x.presentedCompaction.filter x.server.acceptsCompaction) false)
      (x.compaction.filter x.server.acceptsCompaction) true
    exact ⟨hstarted.history.trans hstopped.history, hstarted.highWater.trans hstopped.highWater,
      hstarted.session.trans hstopped.session⟩

theorem presentDiagnostic_unmoved (x : Events.Streaming) : Unmoved x x.presentDiagnostic := by
  unfold Events.Streaming.presentDiagnostic
  split
  · exact ⟨rfl, rfl, rfl⟩
  · simp only
    split <;> exact ⟨rfl, rfl, rfl⟩

/-- A loop that does not commit leaves the history. -/
theorem move_own (x : Events.Streaming) {m : Events.Streaming.Move} (own : ∀ e, m ≠ .commit e) :
    Unmoved x (x.move m) := by
  cases m with
  | commit e => exact absurd rfl (own e)
  | read =>
    show Unmoved x x.read
    unfold Events.Streaming.read
    split
    · exact ⟨rfl, rfl, rfl⟩
    · exact ⟨rfl, rfl, rfl⟩
    · exact deliverAll_unmoved x _
  | present =>
    have hcompaction := presentCompaction_unmoved x
    have hdiagnostic := presentDiagnostic_unmoved x.presentCompaction
    exact ⟨hdiagnostic.history.trans hcompaction.history,
      hdiagnostic.highWater.trans hcompaction.highWater,
      hdiagnostic.session.trans hcompaction.session⟩
  | receiveDiagnostic =>
    show Unmoved x x.receiveDiagnostic
    unfold Events.Streaming.receiveDiagnostic
    split <;> exact ⟨rfl, rfl, rfl⟩
  | receiveDelta =>
    show Unmoved x x.receiveDelta
    unfold Events.Streaming.receiveDelta
    split
    · exact ⟨rfl, rfl, rfl⟩
    · simp only [Events.SessionSubscription.acceptsDelta]
      split <;> exact ⟨rfl, rfl, rfl⟩
  | _ => exact ⟨rfl, rfl, rfl⟩

/-- The next event of a session is not told of yet. -/
theorem highWater_lt (h : Reachable Any s) (sessionId : SessionId) :
    sessionEventHighWater s sessionId < s.nextValue := by
  have hpos : 0 < s.nextValue := by
    obtain ⟨s₀, rfl, hrun⟩ := h
    exact (any_writes hrun).forward.1
  exact greatest_lt hpos fun e he => h.sound.numbered.events e (List.mem_of_mem_filter he)

theorem subscribeSession_followed (h : Readable s sessionId) (hsuccessive : Successive s) {n : Nat}
    (hcursor : n ≤ sessionEventHighWater s sessionId) (published : List Events.AssistantDelta)
    (compaction : Option RunId) (diagnosed : List RunId) :
    Events.Followed (subscribeSession w s sessionId n published compaction diagnosed) := by
  refine .started ⟨h.sequential hsuccessive, fun x hx => ?_, rfl, rfl, hcursor, rfl, rfl, rfl, rfl,
    rfl, rfl⟩
  obtain ⟨e, he, htells⟩ := h.told_of_history hx
  rw [htells.sequence]
  exact Readable.number_le he

theorem Attended.attending {x : Events.Streaming} (h : Attended w sessionId s x)
    (hfound : (loadSession s sessionId).isSome) (hstored : s.nextValue ≤ maxInteger) :
    Attending w sessionId s x := by
  induction h with
  | subscribed n published compaction diagnosed reachable found cursor =>
    exact ⟨subscribeSession_followed (readable reachable hfound hstored) reachable.successive cursor
      published compaction diagnosed, rfl, rfl, le_rfl⟩
  | @operation s t x attended step ih =>
    obtain ⟨s₀, hreach₀, hfound₀, hrun⟩ := attended.origin
    have hreach := hreach₀.run hrun
    have hlater : Reachable Any t := hreach₀.run (hrun.tail step)
    have hwrites := any_writes (Relation.ReflTransGen.single step)
    have hkept := not_cleaned_of_found hlater.sound hlater.lodged hfound
    have hbefore : (loadSession s sessionId).isSome :=
      ((any_writes hrun).extends hreach₀.sound (hwrites.cleaned_mono hreach.sound hkept)).found
        hreach₀.sound.aligned hreach.sound.aligned hfound₀
    have h := ih hbefore (hwrites.forward.1.trans hstored)
    have hcontinues := continues hreach (.single step) hbefore hfound hstored
    obtain ⟨later, hgrown, hnew⟩ := hcontinues.history_grows (w := w)
    have hdrop : (eventHistory w t sessionId).drop x.history.length = later := by
      rw [hgrown, h.history, List.drop_left]
    have hhigh : ∀ e ∈ later, x.highWater < e.sequence := by
      intro e he
      exact lt_of_lt_of_le (lt_of_le_of_lt h.highWater (highWater_lt hreach sessionId)) (hnew e he)
    have hsequential : Events.Sequential sessionId (x.history ++ later) := by
      rw [h.history, ← hgrown]
      exact hcontinues.after.sequential hlater.successive
    obtain ⟨hfollowed, hhistory, hserver, hmost⟩ :=
      commitAll_followed h.followed h.session hsequential hhigh
    rw [hdrop]
    refine ⟨hfollowed, hserver ▸ h.session, by rw [hhistory, h.history, hgrown], ?_⟩
    refine hmost _ (h.highWater.trans hcontinues.highWater_le) fun e he => ?_
    obtain ⟨d, hd, htells⟩ := hcontinues.after.told_of_history (w := w)
      (hgrown ▸ List.mem_append_right _ he)
    rw [htells.sequence]
    exact Readable.number_le hd
  | @loop s x attended m own allows timely ih =>
    have h := ih hfound hstored
    have hown := move_own x own
    exact ⟨h.followed.move m allows timely, hown.session.trans h.session,
      hown.history.trans h.history, hown.highWater.le.trans h.highWater⟩

/-- The images of a message were checked when it was read. -/
theorem attachEventImages_readable {entry shown : ContextHistory.TranscriptEntry}
    (h : attachEventImages s sessionId entry = .ok shown) (n : Nat) :
    Events.SessionEvent.readable ⟨n, .transcriptEntry (toProtocolTranscriptEntry shown)⟩ = true := by
  unfold attachEventImages at h
  split at h
  · simp only [bind_ok, require_ok, pure_ok] at h
    obtain ⟨-, hvalid, rfl⟩ := h
    exact hvalid
  · rename_i hother
    obtain rfl := (pure_ok _ _).mp h
    unfold toProtocolTranscriptEntry
    split
    · rename_i runId text attachments hbody
      exact absurd hbody (hother runId text attachments)
    · rfl

theorem sessionEvent_readable (he : Told s e) {event : SessionEvent}
    (h : sessionEvent w s e.sessionId e = .ok event) : event.toProtocol.readable = true := by
  obtain ⟨payload, hpayload, hsame⟩ := (bind_ok ..).mp h
  obtain rfl := (pure_ok _ _).mp hsame
  cases he with
  | entry row mem origin kind =>
    rw [eventPayload_entry kind] at hpayload
    simp only [bind_ok, pure_ok] at hpayload
    obtain ⟨_, _, shown, hshown, rfl⟩ := hpayload
    exact attachEventImages_readable hshown _
  | commandEntry row mem terminal origin kind =>
    unfold eventPayload at hpayload
    rw [kind] at hpayload
    simp only [loadLocalCommandEntryForEvent, localCommandEntryFromRow, bind_ok, pure_ok] at hpayload
    obtain ⟨_, ⟨_, _, _, _, _, _, _, _, _, _, rfl⟩, rfl⟩ := hpayload
    rfl
  | command row mem origin kind | uncertainty f mem _ origin kind =>
    unfold eventPayload at hpayload
    rw [kind] at hpayload
    simp only [bind_ok, pure_ok] at hpayload
    obtain ⟨_, _, rfl⟩ := hpayload
    rfl
  | accepted f mem origin kind | cancellation f mem _ origin kind =>
    unfold eventPayload at hpayload
    rw [kind] at hpayload
    simp only [bind_ok, pure_ok] at hpayload
    obtain ⟨_, _, _, _, _, _, rfl⟩ := hpayload
    rfl
  | state f mem origin kind =>
    rw [eventPayload_state kind] at hpayload
    simp only [bind_ok, pure_ok] at hpayload
    obtain ⟨_, _, _, _, _, _, rfl⟩ := hpayload
    rfl

/-- The loop reads a page of the store. -/
theorem Attending.page {x : Events.Streaming} (h : Attending w sessionId s x)
    (hreadable : Readable s sessionId) :
    ∃ page, readSessionEvents w s sessionId ⟨sessionId, x.server.cursor.sequence⟩
        Events.sessionReplayPageSize = .ok page ∧
      Events.readSessionEvents x.history x.highWater sessionId x.server.cursor =
        some (page.events.map fun event => event.toProtocol.deliver sessionId) := by
  have hcursor := h.followed.known.trans h.highWater
  obtain ⟨page, hpage⟩ := hreadable.page_ok (w := w) Events.sessionReplayPageSize hcursor
  refine ⟨page, hpage, ?_⟩
  obtain ⟨-, hevents⟩ := (hreadable.page_iff hcursor).mp hpage
  obtain ⟨events, hall, hhistory⟩ := hreadable.history_eq (w := w)
  have hread := mapM_take (mapM_filter (p := fun e => decide (x.server.cursor.sequence < e.eventSequence))
    (q := fun event => decide (x.server.cursor.sequence < event.cursor.sequence))
    (fun e event hevent => by rw [← Tells.sequence ⟨event, hevent, rfl⟩]; rfl) hall)
    Events.sessionReplayPageSize
  have hsame := Except.ok.inj (hevents.symm.trans hread)
  have hrecords : (Events.eventsAfter x.server.cursor.sequence x.history).take
      Events.sessionReplayPageSize = page.events.map SessionEvent.toProtocol := by
    rw [h.history, hhistory, Events.eventsAfter, List.filter_map, ← List.map_take, hsame]
    rfl
  have hshown : (page.events.map SessionEvent.toProtocol).all Events.SessionEvent.readable = true := by
    refine List.all_eq_true.mpr fun y hy => ?_
    obtain ⟨event, hevent, rfl⟩ := List.mem_map.mp hy
    obtain ⟨e, he, hread⟩ := mapM_mem hevents hevent
    have hstream := List.mem_of_mem_filter (List.mem_of_mem_take he)
    rw [← (mem_streamed.mp hstream).2.1] at hread
    exact sessionEvent_readable (hreadable.told hstream) hread
  simp only [Events.readSessionEvents, hrecords]
  rw [if_pos ⟨h.session ▸ h.followed.following.serverCursor, h.followed.known, hshown⟩, List.map_map]
  rfl

/-- **A subscription follows the store.**  Whatever operations come between the turns of the loop,
the client takes every event, its history is that of the store, and what the loop reads next
is the page of the store behind its cursor. -/
theorem subscription_follows {x : Events.Streaming} (h : Attended w sessionId s x)
    (hfound : (loadSession s sessionId).isSome) (hstored : s.nextValue ≤ maxInteger) :
    x.client.usable = true ∧ x.history = eventHistory w s sessionId ∧
      ∃ page, readSessionEvents w s sessionId ⟨sessionId, x.server.cursor.sequence⟩
          Events.sessionReplayPageSize = .ok page ∧
        Events.readSessionEvents x.history x.highWater sessionId x.server.cursor =
          some (page.events.map fun event => event.toProtocol.deliver sessionId) := by
  have hattending := h.attending hfound hstored
  obtain ⟨s₀, hreach, -, hrun⟩ := h.origin
  exact ⟨hattending.followed.following.usable, hattending.history,
    hattending.page (readable (hreach.run hrun) hfound hstored)⟩

/-- A subscription that has read a page before a tool is called, when the run is over. -/
theorem uncertainRun_followed : ∃ x, Attended {} 1 uncertainRun x ∧ x.client.usable = true ∧
    x.history = eventHistory {} uncertainRun 1 := by
  have hsubscribed : Attended {} 1 callingRun (subscribeSession {} callingRun 1 0 [] none []) :=
    .subscribed 0 [] none [] callingRun_reachable (by decide +kernel) (Nat.zero_le _)
  have hread := hsubscribed.loop .read (fun e h => by cases h) rfl rfl
  obtain ⟨x, hx⟩ := hread.operations uncertainRun_later
  have hfollows := subscription_follows hx (by decide +kernel) (by decide +kernel)
  exact ⟨x, hx, hfollows.1, hfollows.2.1⟩

end Morons.SessionEvents
