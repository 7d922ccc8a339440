import Mathlib.Data.List.Find
import Morons.Guarantee.EventStream

/-!
# Runs at an event

What is shown of the runs of a session at an event: at the newest event it is
what the rows say, and at any event it stays as it is.  No two runs are active
at one event.
-/

namespace Morons.SessionEvents

open Attempt Ledger ContextHistory

variable {s t : Store} {w : WorkspaceTables} {sessionId : SessionId} {n : Nat}

/-! ## The newest event -/

/-- The newest event of a session is not before any of its facts. -/
theorem row_le_highWater (hd : Delivered s) {r : EventRow} (hr : r ∈ s.eventRows) :
    r.eventSequence ≤ sessionEventHighWater s r.sessionId := by
  obtain ⟨e, he, rfl⟩ := List.mem_map.mp (hd.rows.mem_iff.mp hr)
  have hmem : e ∈ s.deliveryEvents.filter fun d => d.sessionId = e.sessionId :=
    List.mem_filter.mpr ⟨List.mem_of_mem_filter he, decide_eq_true rfl⟩
  have hle : DeliveryEvent.eventSequence e ≤ sessionEventHighWater s e.sessionId := le_greatest hmem
  exact hle

theorem accepted_le_highWater (hd : Delivered s) {f : RunAcceptedFact} (hf : f ∈ s.runAcceptedFacts) :
    f.factSequence ≤ sessionEventHighWater s f.sessionId := by
  refine row_le_highWater hd (r := ⟨some f.deliveryEventId, f.factSequence, f.sessionId,
    some .runAccepted, f.acceptedAtMilliseconds⟩) ((selected s).accepted.subset ?_)
  exact List.mem_map_of_mem hf

theorem state_le_highWater (hd : Delivered s) {g : RunStateFact} (hg : g ∈ s.runStateFacts) :
    g.factSequence ≤ sessionEventHighWater s g.sessionId := by
  refine row_le_highWater hd (r := ⟨some g.deliveryEventId, g.factSequence, g.sessionId,
    rebuiltEventKind g.state, g.createdAtMilliseconds⟩) ((selected s).states.subset ?_)
  exact List.mem_map_of_mem hg

theorem cancellation_le_highWater (hd : Delivered s) {c : RunCancellationRequest}
    (hc : c ∈ s.runCancellationRequests) (happlied : c.intentApplied = true) :
    c.factSequence ≤ sessionEventHighWater s c.sessionId := by
  refine row_le_highWater hd (r := ⟨c.deliveryEventId, c.factSequence, c.sessionId,
    some .cancellationRequested, c.acceptedAtMilliseconds⟩) ((selected s).cancellations.subset ?_)
  exact List.mem_filterMap.mpr ⟨c, hc, if_pos happlied⟩

/-- The numbers of a session are stored. -/
theorem highWater_stored (hn : Numbered s) (hstored : s.nextValue ≤ maxInteger)
    (sessionId : SessionId) : sessionEventHighWater s sessionId ≤ maxInteger := by
  refine greatest_le fun e he => ?_
  exact (hn.events e (List.mem_of_mem_filter he)).le.trans hstored

/-- At the newest event the newest state fact is that of the row. -/
theorem stateAtSequence_current (hs : Sound s) (hd : Delivered s) {f : RunAcceptedFact}
    (hf : f ∈ s.runAcceptedFacts) :
    stateAtSequence s f.runId (sessionEventHighWater s f.sessionId) =
      Table.find RunStateFact.runId f.runId s.runStateFacts := by
  rw [stateAtSequence, hs.numbered.stateFacts.latest_filter, Table.find]
  refine List.find?_congr fun g hg => Bool.eq_iff_iff.mpr ?_
  simp only [Bool.and_eq_true, decide_eq_true_eq, and_iff_left_iff_imp]
  intro hrun
  obtain ⟨a, ha, harun, hasession, -⟩ := hs.scope.stateFacts g hg
  have hsame := hs.identified.acceptedFacts.eq_of_seq ha hf (harun.trans hrun)
  rw [← hsame, hasession]
  exact state_le_highWater hd hg

theorem cancellationAtSequence_current (hs : Sound s) (hd : Delivered s) {f : RunAcceptedFact}
    (hf : f ∈ s.runAcceptedFacts) :
    (cancellationAtSequence s f.runId (sessionEventHighWater s f.sessionId)).isSome =
      s.runCancellationRequests.any fun c => c.runId = f.runId && c.intentApplied := by
  rw [cancellationAtSequence, hs.numbered.cancellations.latest_filter, List.isSome_find?]
  refine Bool.eq_iff_iff.mpr ?_
  simp only [List.any_eq_true, Bool.and_eq_true, decide_eq_true_eq]
  refine exists_congr fun c => and_congr_right fun hc => and_iff_left_of_imp ?_
  rintro ⟨hrun, happlied⟩
  obtain ⟨a, ha, harun, hasession, -⟩ := hs.scope.cancellations c hc
  have hsame := hs.identified.acceptedFacts.eq_of_seq ha hf (harun.trans hrun)
  rw [← hsame, hasession]
  exact cancellation_le_highWater hd hc happlied

theorem runAt_failure (s : Store) (f : RunAcceptedFact) (n : Nat) :
    (runAt s f n).failure = (stateAtSequence s f.runId n).bind (·.failure) := by
  unfold runAt
  cases stateAtSequence s f.runId n <;> cases cancellationAtSequence s f.runId n <;> rfl

theorem runAt_origin (s : Store) (f : RunAcceptedFact) (n : Nat) :
    (runAt s f n).userMessageId = f.userMessageId ∧ (runAt s f n).binding = f.binding ∧
      (runAt s f n).acceptedAtMilliseconds = f.acceptedAtMilliseconds := by
  unfold runAt
  cases stateAtSequence s f.runId n <;> cases cancellationAtSequence s f.runId n <;>
    exact ⟨rfl, rfl, rfl⟩

/-- **At the newest event a run is shown as its row has it**, though it is read from the facts. -/
theorem loadRunAtSequence_current (h : Reachable Any s) (hstored : s.nextValue ≤ maxInteger)
    {run : Run} (hrun : run ∈ s.runs) :
    ∃ shown, loadRunAtSequence s run.id (sessionEventHighWater s run.sessionId) = .ok shown ∧
      shown.id = run.id ∧ shown.sessionId = run.sessionId ∧ shown.state = run.state ∧
      shown.failure = run.failure ∧ shown.cancellationRequested = run.cancellationRequested ∧
      shown.userMessageId = run.userMessageId ∧ shown.binding = run.binding ∧
      shown.acceptedAtMilliseconds = run.acceptedAtMilliseconds := by
  have hs := h.sound
  have horigin : run.origin ∈ s.runAcceptedFacts.map RunAcceptedFact.origin := by
    rw [← hs.bound.runs]
    exact List.mem_map_of_mem hrun
  obtain ⟨f, hf, hsame⟩ := List.mem_map.mp horigin
  have hid : f.runId = run.id := congrArg RunOrigin.id hsame
  have hsession : f.sessionId = run.sessionId := congrArg RunOrigin.sessionId hsame
  have hload := loadRunAtSequence_ok hs hf (accepted_le_highWater h.delivered hf)
    (highWater_stored hs.numbered hstored f.sessionId)
  have hrecounted := hs.projected run hrun
  have hstate := stateAtSequence_current hs h.delivered hf
  obtain ⟨hmessage, hbinding, haccepted⟩ :=
    runAt_origin s f (sessionEventHighWater s f.sessionId)
  rw [← hid, ← hsession]
  refine ⟨_, hload, runAt_id .., runAt_sessionId .., ?_, ?_, ?_, ?_, ?_, ?_⟩
  · rw [runAt_state, hstate, hrecounted.state, hid]
  · rw [runAt_failure, hstate, hrecounted.failure, hid]
  · rw [runAt_cancellationRequested, cancellationAtSequence_current hs h.delivered hf,
      hrecounted.cancelled, hid]
  · exact hmessage.trans (congrArg RunOrigin.userMessageId hsame)
  · exact hbinding.trans (congrArg RunOrigin.binding hsame)
  · exact haccepted.trans (congrArg RunOrigin.acceptedAtMilliseconds hsame)

theorem uncertainRun_current : ∃ run ∈ uncertainRun.runs, ∃ shown,
    loadRunAtSequence uncertainRun run.id (sessionEventHighWater uncertainRun run.sessionId) =
      .ok shown ∧ shown.state = run.state ∧ shown.failure = run.failure := by
  have hfound : (loadRun uncertainRun 4).isSome = true := by decide +kernel
  obtain ⟨run, hrun⟩ := Option.isSome_iff_exists.mp hfound
  have hmem : run ∈ uncertainRun.runs := Table.find_mem hrun
  obtain ⟨shown, hshown, -, -, hstate, hfailure, -⟩ :=
    loadRunAtSequence_current uncertainRun_reachable (by decide +kernel) hmem
  exact ⟨run, hmem, shown, hshown, hstate, hfailure⟩

/-! ## The active run -/

/-- A run of the session that is accepted and not over at an event. -/
structure Nonterminal (s : Store) (sessionId : SessionId) (n : Nat) (a : RunAcceptedFact) : Prop where
  mem : a ∈ s.runAcceptedFacts
  session : a.sessionId = sessionId
  accepted : a.factSequence ≤ n
  going : ∀ g ∈ s.runStateFacts, g.runId = a.runId → g.state.isTerminal = true → n < g.factSequence

theorem mem_nonterminalRuns {a : RunAcceptedFact} :
    a ∈ nonterminalRuns s sessionId n ↔ Nonterminal s sessionId n a := by
  rw [nonterminalRuns, List.mem_reverse, ordered, (List.mergeSort_perm ..).mem_iff, List.mem_filter]
  simp only [Bool.and_eq_true, decide_eq_true_eq, Bool.not_eq_true', List.any_eq_false, not_and]
  constructor
  · rintro ⟨hmem, ⟨hsession, haccepted⟩, hgoing⟩
    refine ⟨hmem, hsession, haccepted, fun g hg hrun hterminal => ?_⟩
    by_contra hle
    exact hgoing g hg ⟨hrun, Nat.not_lt.mp hle⟩ hterminal
  · rintro ⟨hmem, hsession, haccepted, hgoing⟩
    refine ⟨hmem, ⟨hsession, haccepted⟩, fun g hg hchosen hterminal => ?_⟩
    exact absurd hchosen.2 (Nat.not_le.mpr (hgoing g hg hchosen.1 hterminal))

/-- Of two runs of a session the earlier one has ended. -/
theorem Nonterminal.unique (hs : Sound s) (hsuccessive : Successive s) {a b : RunAcceptedFact}
    (ha : Nonterminal s sessionId n a) (hb : Nonterminal s sessionId n b) : a = b := by
  have hnone : ∀ {a b : RunAcceptedFact}, Nonterminal s sessionId n a → Nonterminal s sessionId n b →
      ¬ a.factSequence < b.factSequence := by
    intro a b ha hb hlt
    obtain ⟨g, hg, hrun, hterminal, hglt⟩ := hsuccessive a ha.mem b hb.mem
      (ha.session.trans hb.session.symm) hlt
    have hafter := ha.going g hg hrun hterminal
    have haccepted := hb.accepted
    omega
  refine hs.numbered.acceptedFacts.eq_of_seq ha.mem hb.mem ?_
  have hab := hnone ha hb
  have hba := hnone hb ha
  omega

theorem nonterminalRuns_nodup (hs : Sound s) : (nonterminalRuns s sessionId n).Nodup := by
  have hfacts : s.runAcceptedFacts.Nodup := List.Nodup.of_map _ hs.numbered.acceptedFacts.nodup
  rw [nonterminalRuns, List.nodup_reverse, ordered, (List.mergeSort_perm ..).nodup_iff]
  exact hfacts.filter _

/-- **No two runs are active at one event**, so that the active run can be told. -/
theorem activeRun_cases (sessionId : SessionId) (hs : Sound s) (hsuccessive : Successive s)
    (hstored : n ≤ maxInteger) :
    (activeRunIdAtSequence s sessionId n = .ok none ∧ ∀ a, ¬ Nonterminal s sessionId n a) ∨
      ∃ a, activeRunIdAtSequence s sessionId n = .ok (some a.runId) ∧ Nonterminal s sessionId n a := by
  have hsql : sequenceToSql n = .ok () := (require_ok ..).mpr hstored
  have hnodup : (nonterminalRuns s sessionId n).Nodup := nonterminalRuns_nodup hs
  have hmem : ∀ a, a ∈ nonterminalRuns s sessionId n ↔ Nonterminal s sessionId n a :=
    fun _ => mem_nonterminalRuns
  unfold activeRunIdAtSequence
  rw [hsql]
  cases hruns : nonterminalRuns s sessionId n with
  | nil =>
    rw [hruns] at hmem
    exact .inl ⟨rfl, fun a ha => absurd ((hmem a).mpr ha) List.not_mem_nil⟩
  | cons a rest =>
    rw [hruns] at hmem hnodup
    have ha := (hmem a).mp (List.mem_cons_self ..)
    cases rest with
    | nil => exact .inr ⟨a, rfl, ha⟩
    | cons b rest =>
      have hb := (hmem b).mp (List.mem_cons_of_mem _ (List.mem_cons_self ..))
      have hsame := Nonterminal.unique hs hsuccessive ha hb
      exact absurd (hsame ▸ List.mem_cons_self ..) (List.nodup_cons.mp hnodup).1

theorem runOf_accepted (hs : Sound s) {a : RunAcceptedFact} (ha : a ∈ s.runAcceptedFacts) :
    ∃ run ∈ s.runs, run.id = a.runId ∧ run.sessionId = a.sessionId := by
  have horigin : a.origin ∈ s.runs.map Run.origin := by
    rw [hs.bound.runs]
    exact List.mem_map_of_mem ha
  obtain ⟨run, hrun, hsame⟩ := List.mem_map.mp horigin
  exact ⟨run, hrun, congrArg RunOrigin.id hsame, congrArg RunOrigin.sessionId hsame⟩

/-- **The active run of a session at an event** is the only one that is accepted and not over, and
at the newest event it is the one of its run state. -/
theorem activeRunIdAtSequence_iff (h : Reachable Any s) (hstored : s.nextValue ≤ maxInteger)
    (sessionId : SessionId) :
    (∀ n ≤ maxInteger, ∃ active, activeRunIdAtSequence s sessionId n = .ok active ∧
      ∀ runId, active = some runId ↔ ∃ a, Nonterminal s sessionId n a ∧ a.runId = runId) ∧
    ∀ state, loadSessionRunState s sessionId = some state →
      activeRunIdAtSequence s sessionId (sessionEventHighWater s sessionId) =
        .ok state.activeRunId := by
  have hs := h.sound
  have hall : ∀ n ≤ maxInteger, ∃ active, activeRunIdAtSequence s sessionId n = .ok active ∧
      ∀ runId, active = some runId ↔ ∃ a, Nonterminal s sessionId n a ∧ a.runId = runId := by
    intro n hn
    rcases activeRun_cases sessionId hs h.successive hn with
      ⟨hactive, hnone⟩ | ⟨a, hactive, ha⟩
    · refine ⟨none, hactive, fun runId => ⟨fun hsome => (by cases hsome), ?_⟩⟩
      rintro ⟨a, ha, -⟩
      exact absurd ha (hnone a)
    · refine ⟨some a.runId, hactive, fun runId => ⟨fun hsome => ?_, ?_⟩⟩
      · exact ⟨a, ha, Option.some.inj hsome⟩
      · rintro ⟨b, hb, rfl⟩
        rw [Nonterminal.unique hs h.successive ha hb]
  refine ⟨hall, fun state hstate => ?_⟩
  obtain ⟨active, hactive, hiff⟩ := hall _ (highWater_stored hs.numbered hstored sessionId)
  rw [hactive]
  refine congrArg Except.ok (Option.ext fun runId => ?_)
  have hkey : state.sessionId = sessionId := Table.find_key hstate
  refine (hiff runId).trans ⟨?_, fun hnamed => ?_⟩
  · rintro ⟨a, ha, rfl⟩
    obtain ⟨run, hrun, hid, hsession⟩ := runOf_accepted hs ha.mem
    refine hid ▸ (hs.occupied.active state (Table.find_mem hstate) run hrun
      (hsession.trans (ha.session.trans hkey.symm))).mp (Bool.eq_false_iff.mpr fun hterminal => ?_)
    obtain ⟨g, hg, hgrun, hgstate, -⟩ := hs.closed.updated run hrun hterminal
    obtain ⟨b, hb, hbrun, hbsession, -⟩ := hs.scope.stateFacts g hg
    have hsame := hs.identified.acceptedFacts.eq_of_seq hb ha.mem (hbrun.trans (hgrun.trans hid))
    have hafter := ha.going g hg (hgrun.trans hid) (hgstate ▸ hterminal)
    have hbefore := state_le_highWater h.delivered hg
    rw [← hbsession, hsame, ha.session] at hbefore
    exact absurd hafter (Nat.not_lt.mpr hbefore)
  · obtain ⟨run, hrun, rfl, hsession⟩ := hs.occupied.named state (Table.find_mem hstate) runId hnamed
    have hgoing := (hs.occupied.active state (Table.find_mem hstate) run hrun hsession).mpr hnamed
    have horigin : run.origin ∈ s.runAcceptedFacts.map RunAcceptedFact.origin := by
      rw [← hs.bound.runs]
      exact List.mem_map_of_mem hrun
    obtain ⟨a, ha, hsame⟩ := List.mem_map.mp horigin
    have hid : a.runId = run.id := congrArg RunOrigin.id hsame
    have hasession : a.sessionId = sessionId :=
      (congrArg RunOrigin.sessionId hsame).trans (hsession.trans hkey)
    refine ⟨a, ⟨ha, hasession, hasession ▸ accepted_le_highWater h.delivered ha, ?_⟩, hid⟩
    intro g hg hgrun hterminal
    have hrank := hs.chronicled.rank_le hs.projected hrun g hg (hgrun.trans hid)
    rw [(RunState.isTerminal_iff_rank _).mp hterminal] at hrank
    have hended := (RunState.isTerminal_iff_rank _).mpr ((RunState.rank_le run.state).antisymm hrank)
    exact absurd (hended.symm.trans hgoing) Bool.noConfusion

/-- The run is active while its tool is called, and none is after its end. -/
theorem uncertainRun_active :
    activeRunIdAtSequence callingRun 1 (sessionEventHighWater callingRun 1) = .ok (some 4) ∧
      activeRunIdAtSequence uncertainRun 1 (sessionEventHighWater uncertainRun 1) = .ok none := by
  have hcalling : (loadSessionRunState callingRun 1).map (·.activeRunId) = some (some 4) := by
    decide +kernel
  have hended : (loadSessionRunState uncertainRun 1).map (·.activeRunId) = some none := by
    decide +kernel
  obtain ⟨calling, hfound, hactive⟩ := Option.map_eq_some_iff.mp hcalling
  obtain ⟨ended, hfound', hnone⟩ := Option.map_eq_some_iff.mp hended
  rw [← hactive, ← hnone]
  exact ⟨(activeRunIdAtSequence_iff callingRun_reachable (by decide +kernel) 1).2 calling hfound,
    (activeRunIdAtSequence_iff uncertainRun_reachable (by decide +kernel) 1).2 ended hfound'⟩

/-! ## Later on -/

/-- What was active at an event is active at it later on. -/
theorem Continues.nonterminal_iff (h : Continues sessionId s t) (hn : n < s.nextValue)
    {a : RunAcceptedFact} : Nonterminal t sessionId n a ↔ Nonterminal s sessionId n a := by
  constructor
  · intro ha
    have hmem := h.record.accepted.mem (List.mem_filter.mpr ⟨ha.mem, decide_eq_true ha.session⟩)
      (lt_of_le_of_lt ha.accepted hn)
    refine ⟨List.mem_of_mem_filter hmem, ha.session, ha.accepted, fun g hg hrun hterminal => ?_⟩
    obtain ⟨b, hb, hbrun, hbsession, -⟩ := h.before.sound.scope.stateFacts g hg
    have hsame := h.before.sound.identified.acceptedFacts.eq_of_seq hb (List.mem_of_mem_filter hmem)
      (hbrun.trans hrun)
    have hgsession : g.sessionId = sessionId := hbsession.symm.trans (hsame ▸ ha.session)
    exact ha.going g (List.mem_of_mem_filter (h.record.states.subset
      (List.mem_filter.mpr ⟨hg, decide_eq_true hgsession⟩))) hrun hterminal
  · intro ha
    have hmem := List.mem_of_mem_filter (h.record.accepted.subset
      (List.mem_filter.mpr ⟨ha.mem, decide_eq_true ha.session⟩))
    refine ⟨hmem, ha.session, ha.accepted, fun g hg hrun hterminal => ?_⟩
    obtain ⟨b, hb, hbrun, hbsession, -⟩ := h.after.sound.scope.stateFacts g hg
    have hsame := h.after.sound.identified.acceptedFacts.eq_of_seq hb hmem (hbrun.trans hrun)
    have hgsession : g.sessionId = sessionId := hbsession.symm.trans (hsame ▸ ha.session)
    by_contra hle
    have hold := h.record.states.mem (List.mem_filter.mpr ⟨hg, decide_eq_true hgsession⟩)
      (lt_of_le_of_lt (Nat.not_lt.mp hle) hn)
    exact hle (ha.going g (List.mem_of_mem_filter hold) hrun hterminal)

theorem Continues.activeRun_kept (h : Continues sessionId s t) (hsuccessive : Successive s)
    (hsuccessive' : Successive t) (hn : n < s.nextValue) :
    activeRunIdAtSequence t sessionId n = activeRunIdAtSequence s sessionId n := by
  have hs := h.before.sound
  have ht := h.after.sound
  have hstored : n ≤ maxInteger := hn.le.trans h.before.stored
  rcases activeRun_cases sessionId hs hsuccessive hstored with
    ⟨hactive, hnone⟩ | ⟨a, hactive, ha⟩ <;>
  rcases activeRun_cases sessionId ht hsuccessive' hstored with
    ⟨hactive', hnone'⟩ | ⟨b, hactive', hb⟩
  · rw [hactive, hactive']
  · exact absurd ((h.nonterminal_iff hn).mp hb) (hnone b)
  · exact absurd ((h.nonterminal_iff hn).mpr ha) (hnone' a)
  · rw [hactive, hactive', Nonterminal.unique hs hsuccessive ha ((h.nonterminal_iff hn).mp hb)]

/-- **What is shown of a session at an event is shown of it later on**, whatever operations come
between: its active run, its runs and its workspace. -/
theorem snapshot_kept (h : Reachable Any s) (hrun : Relation.ReflTransGen (Step Any) s t)
    (hbefore : (loadSession s sessionId).isSome) (hafter : (loadSession t sessionId).isSome)
    (hstored : t.nextValue ≤ maxInteger) (hn : n < s.nextValue) :
    activeRunIdAtSequence t sessionId n = activeRunIdAtSequence s sessionId n ∧
      workspaceSummaryAtSequence w t sessionId n = workspaceSummaryAtSequence w s sessionId n ∧
      ∀ f ∈ s.runAcceptedFacts, f.sessionId = sessionId → f.factSequence ≤ n →
        loadRunAtSequence t f.runId n = loadRunAtSequence s f.runId n := by
  have hcontinues := continues h hrun hbefore hafter hstored
  have hs := hcontinues.before.sound
  have ht := hcontinues.after.sound
  have hn' : n ≤ maxInteger := hn.le.trans hcontinues.before.stored
  exact ⟨hcontinues.activeRun_kept h.successive (h.run hrun).successive hn,
    workspaceSummary_kept hs ht hcontinues.record hn hn', fun f hf hsession hfn =>
      loadRunAtSequence_kept hs ht hcontinues.record hf hsession hfn hn hn'⟩

theorem uncertainRun_snapshot :
    activeRunIdAtSequence uncertainRun 1 5 = activeRunIdAtSequence callingRun 1 5 ∧
      workspaceSummaryAtSequence {} uncertainRun 1 5 = workspaceSummaryAtSequence {} callingRun 1 5 ∧
      ∀ f ∈ callingRun.runAcceptedFacts, f.sessionId = 1 → f.factSequence ≤ 5 →
        loadRunAtSequence uncertainRun f.runId 5 = loadRunAtSequence callingRun f.runId 5 :=
  snapshot_kept callingRun_reachable uncertainRun_later (by decide +kernel) (by decide +kernel)
    (by decide +kernel) (by decide +kernel)

end Morons.SessionEvents
