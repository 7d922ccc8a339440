import Mathlib.Data.Set.List
import Morons.Guarantee.Steering
import Morons.Invariant.Columns
import Morons.Invariant.Delivered
import Morons.Invariant.Places

/-!
# The rebuilt projections

A rebuild of a reachable store succeeds.  It brings back the events that
outlast the cleanups, the names of the sessions, the runs as their facts have
left them, the places that are taken and the queues.
-/

namespace Morons

open Attempt Ledger

variable {s t : Store}

/-! ## What is kept of a row -/

/-- A session without its last change and its archive flag. -/
def Session.unmarked (r : Session) : Session := { r with updatedSequence := 0, archived := false }

/-- A run without its last change. -/
def Run.undated (r : Run) : Run := { r with updatedSequence := 0, updatedAtMilliseconds := 0 }

/-- A run state without its last change. -/
def SessionRunState.undated (r : SessionRunState) : SessionRunState := { r with updatedSequence := 0 }

/-! ## Sessions -/

/-- The row that the origin and the title of a session make. -/
def titledSession (x : SessionOrigin × SessionId × Option String) : Session where
  id := x.1.id
  workspaceId := x.1.workspaceId
  displayName := x.2.2
  workingDirectory := x.1.workingDirectory
  createdSequence := x.1.createdSequence
  updatedSequence := 0
  createdAtMilliseconds := x.1.createdAtMilliseconds
  archived := false

theorem rebuiltSession_title (hn : Numbered s) (f : SessionCreatedFact) :
    (rebuiltSession s f).unmarked =
      titledSession (f.origin, f.title s.sessionRenameRequests) := by
  have hnewest : latest SessionRenameRequest.acceptedSequence
      (s.sessionRenameRequests.filter fun r => r.sessionId = f.sessionId) =
      Table.find SessionRenameRequest.sessionId f.sessionId s.sessionRenameRequests :=
    hn.renames.latest_filter _
  simp only [rebuiltSession, Session.unmarked, titledSession, SessionCreatedFact.title, hnewest]
  rfl

theorem sessions_rebuilt (hs : Sound s) (ht : Titled s) :
    (s.sessionCreatedFacts.map (rebuiltSession s)).map Session.unmarked =
      s.sessions.map Session.unmarked := by
  have hcolumns : s.sessions.map (fun r => (r.origin, r.title)) =
      s.sessionCreatedFacts.map fun f => (f.origin, f.title s.sessionRenameRequests) := by
    have hlive : (s.sessions.map Session.origin).zip (s.sessions.map Session.title) =
        s.sessions.map fun r => (r.origin, r.title) := List.zip_map'
    rw [hs.aligned.sessions, ht, List.zip_map'] at hlive
    exact hlive.symm
  have hlive : s.sessions.map Session.unmarked =
      (s.sessions.map fun r => (r.origin, r.title)).map titledSession := by
    rw [List.map_map]
    rfl
  rw [hlive, hcolumns, List.map_map, List.map_map]
  exact List.map_congr_left fun f _ => rebuiltSession_title hs.numbered f

/-! ## Runs -/

/-- The row of a run as its facts determine it. -/
def recountedRun (s : Store) (o : RunOrigin) : Run where
  id := o.id
  sessionId := o.sessionId
  userMessageId := o.userMessageId
  binding := o.binding
  providerTurns := s.providerOperationFacts.countP fun f => f.runId = o.id && f.factKind = .completed
  toolCalls := s.toolCalls.countP fun c => c.runId = o.id
  toolMutations := s.toolCalls.countP fun c => c.runId = o.id && c.input.kind.isMutation
  toolResultBytes := ((s.toolOperationFacts.filter fun f =>
    f.runId = o.id && f.factKind.isTerminal).map ToolOperationFact.resultBytes).sum
  state := ((Table.find RunStateFact.runId o.id s.runStateFacts).map (·.state)).getD .accepted
  cancellationRequested := s.runCancellationRequests.any fun c => c.runId = o.id && c.intentApplied
  failure := (Table.find RunStateFact.runId o.id s.runStateFacts).bind (·.failure)
  acceptedSequence := o.acceptedSequence
  updatedSequence := 0
  acceptedAtMilliseconds := o.acceptedAtMilliseconds
  updatedAtMilliseconds := 0

/-- The live row. -/
theorem Recounted.undated {run : Run} (h : Recounted s run) :
    run.undated = recountedRun s run.origin := by
  simp only [Run.undated, recountedRun, Run.origin, Run.mk.injEq, true_and, and_true]
  exact ⟨h.turns, h.calls, h.mutations, h.bytes, h.state, h.cancelled, h.failure⟩

/-- The kinds that end an operation, by their records. -/
theorem ToolFactKind.isTerminal_iff_record (k : ToolFactKind) :
    k.isTerminal = true ↔ 3 ≤ k.toRecord ∧ k.toRecord ≤ 6 := by
  cases k <;> simp [isTerminal, toRecord]

theorem newestStateFact_eq (hn : Numbered s) (runId : RunId) :
    newestStateFact s runId = Table.find RunStateFact.runId runId s.runStateFacts :=
  hn.stateFacts.latest_filter _

/-- The rebuilt row. -/
theorem rebuiltRun_undated (hn : Numbered s) (f : RunAcceptedFact) :
    (rebuiltRun s f).undated = recountedRun s f.origin := by
  have hmutations : ∀ c : ToolCall,
      decide (c.input.kind.toRecord ∈ [4, 5, 6, 7, 9, 10, 11, 13, 14]) = c.input.kind.isMutation :=
    fun c => Bool.eq_iff_iff.mpr (decide_eq_true_iff.trans (ToolKind.isMutation_iff_record _).symm)
  have hterminal : ∀ r : ToolOperationFact,
      decide (3 ≤ r.factKind.toRecord ∧ r.factKind.toRecord ≤ 6) = r.factKind.isTerminal :=
    fun r => Bool.eq_iff_iff.mpr
      (decide_eq_true_iff.trans (ToolFactKind.isTerminal_iff_record _).symm)
  simp only [rebuiltRun, Run.undated, recountedRun, newestStateFact_eq hn, hmutations, hterminal]
  rfl

theorem runs_rebuilt (hs : Sound s) :
    (s.runAcceptedFacts.map (rebuiltRun s)).map Run.undated = s.runs.map Run.undated := by
  have hlive : s.runs.map Run.undated = (s.runs.map Run.origin).map (recountedRun s) := by
    rw [List.map_map]
    exact List.map_congr_left fun run hrun => (hs.projected run hrun).undated
  rw [hlive, hs.bound.runs, List.map_map, List.map_map]
  exact List.map_congr_left fun f _ => rebuiltRun_undated hs.numbered f

/-- The fact that ended a run is the newest of its updates. -/
theorem runUpdates_ended (hs : Sound s) {f : RunStateFact} (hf : f ∈ s.runStateFacts)
    (hterminal : f.state.isTerminal = true) :
    ∀ x ∈ runUpdates s f.runId, x = (f.factSequence, f.createdAtMilliseconds) ∨
      x.1 < f.factSequence := by
  intro x hx
  simp only [runUpdates, List.mem_append, List.mem_map, List.mem_filter, Bool.and_eq_true,
    decide_eq_true_eq] at hx
  rcases hx with ((⟨g, ⟨hg, hrun⟩, rfl⟩ | ⟨c, ⟨hc, hrun, happlied⟩, rfl⟩) |
    ⟨c, ⟨hc, hrun⟩, rfl⟩) | ⟨g, ⟨hg, hrun⟩, rfl⟩
  · have hstaged := hs.chronicled.staged f.runId
    have hin : f ∈ s.runStateFacts.filter fun r => r.runId = f.runId :=
      List.mem_filter.mpr ⟨hf, by simp⟩
    have hother : g ∈ s.runStateFacts.filter fun r => r.runId = f.runId :=
      List.mem_filter.mpr ⟨hg, by simpa using hrun⟩
    have htop := (RunState.isTerminal_iff_rank f.state).mp hterminal
    rcases Nat.lt_or_eq_of_le g.state.rank_le with hlow | hsame
    · refine .inr (hstaged.seq_lt (hs.numbered.stateFacts.filter _) hother hin ?_)
      rw [htop]
      exact hlow
    · obtain rfl := hstaged.eq_of_rank hother hin (hsame.trans htop.symm)
      exact .inl rfl
  · exact .inr (hs.closed.cancellations f hf hterminal c hc (by simp [happlied, hrun]))
  · exact .inr (hs.closed.toolCalls f hf hterminal c hc (congrArg some hrun))
  · exact .inr (hs.closed.toolFacts f hf hterminal g hg (congrArg some hrun))

/-- A run that has ended is rebuilt with its last change. -/
theorem rebuiltRun_ended (hs : Sound s) (hstamped : Stamped s) {run : Run} (hrun : run ∈ s.runs)
    (hterminal : run.state.isTerminal = true) {f : RunAcceptedFact} (hf : f ∈ s.runAcceptedFacts)
    (horigin : f.origin = run.origin) : rebuiltRun s f = run := by
  have hid : f.runId = run.id := congrArg RunOrigin.id horigin
  obtain ⟨g, hg, hstamp⟩ := hstamped run hrun hterminal
  obtain ⟨g', hg', hrunId, hstate, hnumber⟩ := hs.closed.updated run hrun hterminal
  obtain rfl := hs.numbered.stateFacts.eq_of_seq hg hg'
    ((congrArg RunStamp.updatedSequence hstamp).trans hnumber.symm)
  have hended : g.state.isTerminal = true := hstate ▸ hterminal
  have hnewest := runUpdates_ended hs hg hended
  rw [hrunId] at hnewest
  have hin : (g.factSequence, g.createdAtMilliseconds) ∈ runUpdates s run.id := by
    simp only [runUpdates, List.mem_append, List.mem_map, List.mem_filter]
    exact .inl (.inl (.inl ⟨g, ⟨hg, decide_eq_true hrunId⟩, rfl⟩))
  have hlater : f.factSequence < g.factSequence := by
    obtain ⟨a, ha, haid, -, hlt⟩ := hs.scope.stateFacts g hg
    obtain rfl := hs.identified.acceptedFacts.eq_of_seq ha hf (haid.trans (hrunId.trans hid.symm))
    exact hlt
  have hundated : (rebuiltRun s f).undated = run.undated := by
    rw [rebuiltRun_undated hs.numbered, (hs.projected run hrun).undated, horigin]
  have hsequence : (rebuiltRun s f).updatedSequence = run.updatedSequence := by
    rw [rebuiltRun, hid]
    change max f.factSequence (greatest Prod.fst (runUpdates s run.id)) = run.updatedSequence
    rw [greatest_eq hin hnewest, ← hnumber]
    exact max_eq_right hlater.le
  have htime : (rebuiltRun s f).updatedAtMilliseconds = run.updatedAtMilliseconds := by
    rw [rebuiltRun, hid]
    change ((latest Prod.fst (runUpdates s run.id)).map Prod.snd).getD f.acceptedAtMilliseconds =
      run.updatedAtMilliseconds
    rw [latest_eq hin hnewest]
    exact congrArg RunStamp.updatedAtMilliseconds hstamp
  have hrestored : ∀ r : Run, r = { r.undated with
      updatedSequence := r.updatedSequence
      updatedAtMilliseconds := r.updatedAtMilliseconds } := fun _ => rfl
  rw [hrestored (rebuiltRun s f), hundated, hsequence, htime, ← hrestored run]

/-! ## Run states -/

/-- The run that keeps a session busy, by its row. -/
def busyRun (runs : List Run) (sessionId : SessionId) : Option RunId :=
  (runs.find? fun r =>
    r.sessionId = sessionId && (r.state = .accepted || r.state = .active)).map (·.id)

theorem busyRun_undated (runs : List Run) (sessionId : SessionId) :
    busyRun (runs.map Run.undated) sessionId = busyRun runs sessionId := by
  rw [busyRun, List.find?_map, Option.map_map]
  rfl

/-- The run of a run state is the one that keeps the session busy. -/
theorem Occupied.busyRun_eq (h : Occupied s) {r : SessionRunState} (hr : r ∈ s.sessionRunStates) :
    busyRun s.runs r.sessionId = r.activeRunId := by
  have hbusy : ∀ run : Run, (run.state = .accepted || run.state = .active) =
      !run.state.isTerminal := by
    intro run
    cases run.state <;> rfl
  cases hfind : s.runs.find? fun run =>
      run.sessionId = r.sessionId && (run.state = .accepted || run.state = .active) with
  | some run =>
    have hrun := List.mem_of_find?_eq_some hfind
    have hfound := List.find?_some hfind
    rw [hbusy, Bool.and_eq_true, decide_eq_true_eq, Bool.not_eq_true'] at hfound
    rw [busyRun, hfind]
    exact ((h.active r hr run hrun hfound.1).mp hfound.2).symm
  | none =>
    rw [busyRun, hfind]
    cases hactive : r.activeRunId with
    | none => rfl
    | some runId =>
      obtain ⟨run, hrun, rfl, hsession⟩ := h.named r hr runId hactive
      have hrunning := (h.active r hr run hrun hsession).mpr hactive
      have hnot := List.find?_eq_none.mp hfind run hrun
      rw [hbusy, hsession, hrunning] at hnot
      simp at hnot

/-- The places that are taken, as the rebuild finds the highest. -/
def highestPlace (s : Store) (sessionId : SessionId) : Nat :=
  max (greatest SessionEntry.entrySequence (s.sessionEntries.filter fun r =>
      r.sessionId = sessionId))
    (greatest id ((s.localCommands.filter fun r => r.sessionId = sessionId).filterMap
      (·.entrySequence)))

theorem highestPlace_eq (h : Transcribed s.sessionRunStates s.sessionEntries s.localCommands)
    {r : SessionRunState} (hr : r ∈ s.sessionRunStates) :
    highestPlace s r.sessionId = r.entryHighWater := by
  have hplaces := (h r hr).2
  have hmem : ∀ n, n ∈ entryPlaces r.sessionId s.sessionEntries ++
      commandPlaces r.sessionId s.localCommands ↔ 1 ≤ n ∧ n ≤ r.entryHighWater := by
    intro n
    rw [hplaces.mem_iff, List.mem_range'_1]
    omega
  have hentry : ∀ e ∈ s.sessionEntries.filter fun e => e.sessionId = r.sessionId,
      e.entrySequence ∈ entryPlaces r.sessionId s.sessionEntries := by
    intro e he
    obtain ⟨he, hsession⟩ := List.mem_filter.mp he
    exact List.mem_filterMap.mpr ⟨e, he, if_pos (of_decide_eq_true hsession)⟩
  have hcommand : ∀ n ∈ (s.localCommands.filter fun c => c.sessionId = r.sessionId).filterMap
      (·.entrySequence), n ∈ commandPlaces r.sessionId s.localCommands := by
    intro n hn
    obtain ⟨c, hc, hplace⟩ := List.mem_filterMap.mp hn
    obtain ⟨hc, hsession⟩ := List.mem_filter.mp hc
    exact List.mem_filterMap.mpr ⟨c, hc, (if_pos (of_decide_eq_true hsession)).trans hplace⟩
  apply le_antisymm
  · refine max_le (greatest_le fun e he => ?_) (greatest_le fun n hn => ?_)
    · exact ((hmem _).mp (List.mem_append_left _ (hentry e he))).2
    · exact ((hmem _).mp (List.mem_append_right _ (hcommand n hn))).2
  · rcases Nat.eq_zero_or_pos r.entryHighWater with hzero | hpos
    · rw [hzero]
      exact Nat.zero_le _
    · rcases List.mem_append.mp ((hmem r.entryHighWater).mpr ⟨hpos, le_rfl⟩) with hin | hin
      · obtain ⟨e, he, hplace⟩ := List.mem_filterMap.mp hin
        split at hplace
        case isFalse => cases hplace
        case isTrue hsession =>
          rw [← Option.some.inj hplace]
          exact le_max_of_le_left
            (le_greatest (List.mem_filter.mpr ⟨he, decide_eq_true hsession⟩))
      · obtain ⟨c, hc, hplace⟩ := List.mem_filterMap.mp hin
        split at hplace
        case isFalse => cases hplace
        case isTrue hsession =>
          refine le_max_of_le_right (@le_greatest _ id _ _ (List.mem_filterMap.mpr ⟨c, ?_, hplace⟩))
          exact List.mem_filter.mpr ⟨hc, decide_eq_true hsession⟩

theorem runStates_rebuilt (hs : Sound s) {u : Store} (hruns : u.runs.map Run.undated =
      s.runs.map Run.undated) (hentries : u.sessionEntries = s.sessionEntries)
    (hcommands : u.localCommands = s.localCommands) :
    (s.sessionCreatedFacts.map (rebuiltRunState u)).map SessionRunState.undated =
      s.sessionRunStates.map SessionRunState.undated := by
  have hbusy : ∀ sessionId, busyRun u.runs sessionId = busyRun s.runs sessionId := fun sessionId => by
    rw [← busyRun_undated u.runs, hruns, busyRun_undated]
  have hlive : s.sessionRunStates.map SessionRunState.undated =
      (s.sessionRunStates.map SessionRunState.sessionId).map fun sessionId =>
        ⟨sessionId, busyRun s.runs sessionId, highestPlace s sessionId, 0⟩ := by
    rw [List.map_map]
    refine List.map_congr_left fun r hr => ?_
    simp only [SessionRunState.undated, Function.comp_apply, hs.occupied.busyRun_eq hr,
      highestPlace_eq hs.transcribed hr]
  rw [hlive, hs.aligned.runStates, List.map_map, List.map_map]
  refine List.map_congr_left fun f _ => ?_
  have hhighest : highestPlace u f.sessionId = highestPlace s f.sessionId := by
    rw [highestPlace, highestPlace, hentries, hcommands]
  rw [Function.comp_apply, Function.comp_apply, ← hbusy, ← hhighest]
  rfl

/-! ## Events -/

theorem DeliveryEvent.row_event (e : DeliveryEvent) : e.row.event = some e := rfl

/-- Every selected row is an event, and no two events clash. -/
theorem rebuiltEvents_ok (hd : Delivered s) (hp : Placed s) {u : Store}
    (hrows : u.eventRows = s.eventRows) :
    ∃ events, rebuiltEvents u = .ok events ∧ events.Perm s.lasting := by
  have hevents : s.eventRows ∈ Set.range (List.map DeliveryEvent.row) := by
    rw [Set.range_list_map]
    intro x hx
    obtain ⟨e, -, rfl⟩ := List.mem_map.mp (hd.rows.mem_iff.mp hx)
    exact ⟨e, rfl⟩
  obtain ⟨events, hselected⟩ := hevents
  replace hselected := hselected.symm
  have hperm : events.Perm s.lasting := by
    have hmapped := hd.rows.filterMap EventRow.event
    rw [hselected, List.filterMap_map, List.filterMap_map] at hmapped
    have hsome : EventRow.event ∘ DeliveryEvent.row = some := rfl
    rwa [hsome, List.filterMap_some, List.filterMap_some] at hmapped
  have hplaces : (events.map DeliveryEvent.place).Subperm s.eventPlaces := by
    refine (hperm.map _).subperm.trans (List.Sublist.subperm ?_)
    refine (List.filter_sublist.map _).trans ?_
    rw [Store.eventPlaces, eventPlaces, List.append_assoc]
    exact List.sublist_append_left _ _
  have hids := (hp.identifiers.subperm hplaces).nodup
  have hnumbers := (hp.sequences.subperm hplaces).nodup
  rw [List.map_map] at hids hnumbers
  refine ⟨events, ?_, hperm⟩
  simp only [rebuiltEvents, bind_ok, require_ok, pure_ok, hrows, hselected]
  refine ⟨events, mapM_map_ok (fun e => ?_) events, (), hids, (), hnumbers, rfl⟩
  exact (demand_ok ..).mpr e.row_event

/-! ## The rebuild -/

/-- What a rebuild brings back. -/
structure Restored (s t : Store) : Prop where
  events : t.deliveryEvents.Perm s.lasting
  sessions : t.sessions.map Session.unmarked = s.sessions.map Session.unmarked
  runs : t.runs.map Run.undated = s.runs.map Run.undated
  ended : ∀ run ∈ s.runs, run.state.isTerminal = true → run ∈ t.runs
  runStates : t.sessionRunStates.map SessionRunState.undated =
    s.sessionRunStates.map SessionRunState.undated
  queue : ∀ sessionId, loadSteeringQueue t sessionId = loadSteeringQueue s sessionId
  items : ∀ sessionId, steeringItems t sessionId = steeringItems s sessionId

theorem rebuild_restores (h : Reachable Any s) : ∃ t, rebuild s = .ok t ∧ Restored s t := by
  have hs := h.sound
  obtain ⟨log, hsteered, hsourced⟩ := h.rooted
  obtain ⟨u, hsteering, hrebuilt⟩ := rebuildSteering_ok hsteered hsourced
  have hframe := hrebuilt.frame
  let withSessions := { u with sessions := u.sessionCreatedFacts.map (rebuiltSession u) }
  let withRuns := { withSessions with
    runs := withSessions.runAcceptedFacts.map (rebuiltRun withSessions) }
  let withStates := { withRuns with
    sessionRunStates := withRuns.sessionCreatedFacts.map (rebuiltRunState withRuns) }
  have hrows : withStates.eventRows = s.eventRows := by
    change u.eventRows = s.eventRows
    rw [hframe]
    rfl
  obtain ⟨events, hevents, hperm⟩ := rebuiltEvents_ok h.delivered h.placed hrows
  have hvalid : validateSteeringMutations { withStates with deliveryEvents := events } = .ok () := by
    have hreplayed := hrebuilt.replayed hsteered.replayed
    have hsources := hrebuilt.sourced hsourced
    have hregistered := hrebuilt.registered hs.registered
    have hreceipts : Sourced { withStates with deliveryEvents := events } log :=
      { hsources with receipts := fun r hr => { hsources.receipts r hr with } }
    exact validateSteeringMutations_ok { hreplayed with } hreceipts { hregistered with }
      (hrebuilt.prompted hs.prompted)
  have hsessions : withSessions.sessions = s.sessionCreatedFacts.map (rebuiltSession s) := by
    change u.sessionCreatedFacts.map (rebuiltSession u) = _
    rw [hframe]
    rfl
  have hruns : withRuns.runs = s.runAcceptedFacts.map (rebuiltRun s) := by
    change u.runAcceptedFacts.map (rebuiltRun u) = _
    rw [hframe]
    rfl
  refine ⟨{ withStates with deliveryEvents := events }, ?_, ?_⟩
  · simp only [rebuild, bind_ok, pure_ok]
    exact ⟨u, hsteering, events, hevents, (), hvalid, rfl⟩
  · have hundated : withRuns.runs.map Run.undated = s.runs.map Run.undated := by
      rw [hruns]
      exact runs_rebuilt hs
    exact
      { events := hperm
        sessions := by
          change withSessions.sessions.map Session.unmarked = _
          rw [hsessions]
          exact sessions_rebuilt hs h.titled
        runs := hundated
        ended := by
          intro run hrun hterminal
          obtain ⟨f, hf, horigin⟩ := hs.bound.fact hrun
          change run ∈ withRuns.runs
          rw [hruns, ← rebuiltRun_ended hs h.stamped hrun hterminal hf horigin]
          exact List.mem_map_of_mem hf
        runStates := by
          have hfacts : withRuns.sessionCreatedFacts = s.sessionCreatedFacts := by
            change u.sessionCreatedFacts = _
            rw [hframe]
            rfl
          change (withRuns.sessionCreatedFacts.map (rebuiltRunState withRuns)).map
            SessionRunState.undated = _
          rw [hfacts]
          refine runStates_rebuilt hs hundated ?_ ?_
          · change u.sessionEntries = _
            rw [hframe]
            rfl
          · change u.localCommands = _
            rw [hframe]
            rfl
        queue := hrebuilt.queue
        items := hrebuilt.items }

/-- **A rebuild succeeds, and delivers what was delivered.**  Its events are those of the
sessions that were not cleaned and the removals, each once. -/
theorem rebuild_delivers (h : Reachable Any s) : ∃ t, rebuild s = .ok t ∧
    t.deliveryEvents.Perm (s.deliveryEvents.filter s.lasts) := by
  obtain ⟨t, hrebuild, hrestored⟩ := rebuild_restores h
  exact ⟨t, hrebuild, hrestored.events⟩

/-- The events of the cancelled run are rebuilt. -/
theorem cancelledQueue_rebuild_delivers : ∃ t, rebuild cancelledQueue = .ok t ∧
    t.deliveryEvents.Perm (cancelledQueue.deliveryEvents.filter cancelledQueue.lasts) :=
  rebuild_delivers cancelledQueue_reachable

/-- **A rebuild keeps the runs.**  Only the last change of a run that goes on may differ. -/
theorem rebuild_keeps_runs (h : Reachable Any s) : ∃ t, rebuild s = .ok t ∧
    t.runs.map Run.undated = s.runs.map Run.undated ∧
    ∀ run ∈ s.runs, run.state.isTerminal = true → run ∈ t.runs := by
  obtain ⟨t, hrebuild, hrestored⟩ := rebuild_restores h
  exact ⟨t, hrebuild, hrestored.runs, hrestored.ended⟩

/-- The run of the cancelled request is rebuilt. -/
theorem cancelledQueue_rebuild_keeps_runs : ∃ t, rebuild cancelledQueue = .ok t ∧
    t.runs.map Run.undated = cancelledQueue.runs.map Run.undated ∧
    ∀ run ∈ cancelledQueue.runs, run.state.isTerminal = true → run ∈ t.runs :=
  rebuild_keeps_runs cancelledQueue_reachable

/-- **A rebuild keeps the sessions**: their names, the runs that occupy them, the places that are
taken and the queues. -/
theorem rebuild_keeps_sessions (h : Reachable Any s) : ∃ t, rebuild s = .ok t ∧
    t.sessions.map Session.unmarked = s.sessions.map Session.unmarked ∧
    t.sessionRunStates.map SessionRunState.undated =
      s.sessionRunStates.map SessionRunState.undated ∧
    ∀ sessionId, loadSteeringQueue t sessionId = loadSteeringQueue s sessionId ∧
      steeringItems t sessionId = steeringItems s sessionId := by
  obtain ⟨t, hrebuild, hrestored⟩ := rebuild_restores h
  exact ⟨t, hrebuild, hrestored.sessions, hrestored.runStates,
    fun sessionId => ⟨hrestored.queue sessionId, hrestored.items sessionId⟩⟩

/-- The session of the cancelled request is rebuilt. -/
theorem cancelledQueue_rebuild_keeps_sessions : ∃ t, rebuild cancelledQueue = .ok t ∧
    t.sessions.map Session.unmarked = cancelledQueue.sessions.map Session.unmarked ∧
    t.sessionRunStates.map SessionRunState.undated =
      cancelledQueue.sessionRunStates.map SessionRunState.undated ∧
    ∀ sessionId, loadSteeringQueue t sessionId = loadSteeringQueue cancelledQueue sessionId ∧
      steeringItems t sessionId = steeringItems cancelledQueue sessionId :=
  rebuild_keeps_sessions cancelledQueue_reachable

end Morons
