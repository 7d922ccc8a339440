import Morons.Invariant.History

/-!
# What occupies a session

A session is free, or one of its runs or one of its local commands is under
way: the run state names the one run that has not ended, and no command of
the session is unfinished while it names one.
-/

namespace Morons

variable {d : Discipline} {s t : Store}

/-- A row with the same column was there before. -/
theorem mem_of_column {Row Col : Type} {column : Row → Col} {rows rows' : List Row}
    (h : rows'.map column = rows.map column) {row : Row} (hrow : row ∈ rows') :
    ∃ r ∈ rows, column r = column row := by
  have hin : column row ∈ rows'.map column := List.mem_map_of_mem hrow
  rw [h] at hin
  exact List.mem_map.mp hin

theorem activeLocalCommand_none {sessionId : SessionId} : activeLocalCommand s sessionId = none ↔
    ∀ c ∈ s.localCommands, c.sessionId = sessionId → c.state.isTerminal = true := by
  simp [activeLocalCommand]

theorem terminalCommandState_isTerminal (result : ToolResult) :
    (terminalCommandState result).isTerminal = true := by
  unfold terminalCommandState
  split <;> rfl

structure Occupied (s : Store) : Prop where
  active : ∀ r ∈ s.sessionRunStates, ∀ run ∈ s.runs, run.sessionId = r.sessionId →
    (run.state.isTerminal = false ↔ r.activeRunId = some run.id)
  named : ∀ r ∈ s.sessionRunStates, ∀ runId, r.activeRunId = some runId →
    ∃ run ∈ s.runs, run.id = runId ∧ run.sessionId = r.sessionId
  exclusive : ∀ r ∈ s.sessionRunStates, r.activeRunId.isSome → ∀ c ∈ s.localCommands,
    c.sessionId = r.sessionId → c.state.isTerminal = true
  single : ∀ a ∈ s.localCommands, ∀ b ∈ s.localCommands, a.sessionId = b.sessionId →
    a.state.isTerminal = false → b.state.isTerminal = false → a.commandId = b.commandId
  commands : ∀ c ∈ s.localCommands, c.sessionId ∈ s.sessions.map Session.id

theorem occupied_empty : Occupied Store.empty := by
  constructor <;> simp [Store.empty]

namespace Occupied

/-- Only columns that say nothing of the occupation change. -/
theorem kept (h : Occupied s)
    (hstates : t.sessionRunStates.map (fun r => (r.sessionId, r.activeRunId)) =
      s.sessionRunStates.map fun r => (r.sessionId, r.activeRunId))
    (hruns : t.runs.map (fun r => (r.id, r.sessionId, r.state)) =
      s.runs.map fun r => (r.id, r.sessionId, r.state))
    (hcommands : t.localCommands.map (fun c => (c.commandId, c.sessionId, c.state)) =
      s.localCommands.map fun c => (c.commandId, c.sessionId, c.state))
    (hsessions : t.sessions.map Session.id = s.sessions.map Session.id) : Occupied t where
  active := by
    intro r hr run hrun hsession
    obtain ⟨r₀, hr₀, er⟩ := mem_of_column hstates hr
    obtain ⟨run₀, hrun₀, erun⟩ := mem_of_column hruns hrun
    simp only [Prod.mk.injEq] at er erun
    rw [← erun.1, ← erun.2.2, ← er.2]
    exact h.active r₀ hr₀ run₀ hrun₀ (by rw [erun.2.1, er.1, hsession])
  named := by
    intro r hr runId hactive
    obtain ⟨r₀, hr₀, er⟩ := mem_of_column hstates hr
    simp only [Prod.mk.injEq] at er
    obtain ⟨run₀, hrun₀, hid, hsession⟩ := h.named r₀ hr₀ runId (er.2.trans hactive)
    obtain ⟨run, hrun, erun⟩ := mem_of_column hruns.symm hrun₀
    simp only [Prod.mk.injEq] at erun
    exact ⟨run, hrun, erun.1.trans hid, by rw [erun.2.1, hsession, er.1]⟩
  exclusive := by
    intro r hr hactive c hc hsession
    obtain ⟨r₀, hr₀, er⟩ := mem_of_column hstates hr
    obtain ⟨c₀, hc₀, ec⟩ := mem_of_column hcommands hc
    simp only [Prod.mk.injEq] at er ec
    rw [← ec.2.2]
    exact h.exclusive r₀ hr₀ (by rw [er.2]; exact hactive) c₀ hc₀ (by rw [ec.2.1, er.1, hsession])
  single := by
    intro a ha b hb hsession hna hnb
    obtain ⟨a₀, ha₀, ea⟩ := mem_of_column hcommands ha
    obtain ⟨b₀, hb₀, eb⟩ := mem_of_column hcommands hb
    simp only [Prod.mk.injEq] at ea eb
    rw [← ea.1, ← eb.1]
    exact h.single a₀ ha₀ b₀ hb₀ (by rw [ea.2.1, eb.2.1, hsession]) (by rw [ea.2.2]; exact hna)
      (by rw [eb.2.2]; exact hnb)
  commands := by
    intro c hc
    obtain ⟨c₀, hc₀, ec⟩ := mem_of_column hcommands hc
    simp only [Prod.mk.injEq] at ec
    rw [hsessions, ← ec.2.1]
    exact h.commands c₀ hc₀

/-- The run that moves is the one the session names. -/
theorem move (h : Occupied s) (hkeyed : Table.Keyed Run.id s.runs) {run : Run} {state : RunState}
    {failure : Option RunFailureKind} {kind : EventKind} {now n : Nat}
    (movable : Movable s run state failure kind n) :
    Occupied (moveRun s run state failure kind now n) := by
  obtain ⟨row, found, hsession, hstate⟩ := movable.found
  have hrow : row ∈ s.runs := Table.find_mem found
  have hid : row.id = run.id := Table.find_key found
  have hrunning : row.state.isTerminal = false := by
    rw [hstate]
    exact movable.running
  constructor
  · intro r' hr' run' hrun' hscope
    obtain ⟨r, hr, rfl⟩ := Table.mem_modify.mp hr'
    obtain ⟨q, hq, rfl⟩ := Table.mem_modify.mp hrun'
    have hkeep : (if r.sessionId = run.sessionId then
        ({ r with
          activeRunId := if state.isTerminal then none else some run.id
          updatedSequence := s.nextValue } : SessionRunState) else r).sessionId = r.sessionId := by
      split <;> rfl
    have hqkeep : (if q.id = run.id then
        ({ q with
          state := state
          failure := failure
          updatedSequence := s.nextValue
          updatedAtMilliseconds := now } : Run) else q).sessionId = q.sessionId := by
      split <;> rfl
    rw [hkeep, hqkeep] at hscope
    by_cases hqid : q.id = run.id
    · have hsame : q = row := Table.eq_of_key hkeyed hq hrow (hqid.trans hid.symm)
      have hrs : r.sessionId = run.sessionId := by rw [← hscope, hsame, hsession]
      rw [if_pos hqid, if_pos hrs]
      cases hterminal : state.isTerminal with
      | true => simp
      | false => simp [hqid]
    · rw [if_neg hqid]
      by_cases hrs : r.sessionId = run.sessionId
      · rw [if_pos hrs]
        have hnamed := (h.active r hr row hrow (hsession.trans hrs.symm)).mp hrunning
        have hq' := h.active r hr q hq hscope
        rw [hnamed] at hq'
        have hne : ¬ run.id = q.id := fun e => hqid e.symm
        have hqterminal : ¬ q.state.isTerminal = false := by
          rw [hq', hid]
          simpa using hne
        cases hterminal : state.isTerminal with
        | true => simpa using hqterminal
        | false => simpa [hne] using hqterminal
      · rw [if_neg hrs]
        exact h.active r hr q hq hscope
  · intro r' hr' runId hactive
    obtain ⟨r, hr, rfl⟩ := Table.mem_modify.mp hr'
    by_cases hrs : r.sessionId = run.sessionId
    · rw [if_pos hrs] at hactive ⊢
      cases hterminal : state.isTerminal with
      | true => simp [hterminal] at hactive
      | false =>
        have hrunId : run.id = runId := by simpa [hterminal] using hactive
        refine ⟨_, Table.mem_modify.mpr ⟨row, hrow, if_pos hid⟩, ?_, ?_⟩
        · exact hid.trans hrunId
        · exact hsession.trans hrs.symm
    · rw [if_neg hrs] at hactive ⊢
      obtain ⟨q, hq, hqid, hqs⟩ := h.named r hr runId hactive
      refine ⟨_, Table.mem_modify.mpr ⟨q, hq, rfl⟩, ?_, ?_⟩
      · split
        · exact hqid
        · exact hqid
      · split
        · exact hqs
        · exact hqs
  · intro r' hr' hactive c hc hscope
    obtain ⟨r, hr, rfl⟩ := Table.mem_modify.mp hr'
    by_cases hrs : r.sessionId = run.sessionId
    · rw [if_pos hrs] at hscope
      have hnamed := (h.active r hr row hrow (hsession.trans hrs.symm)).mp hrunning
      exact h.exclusive r hr (by simp [hnamed]) c hc hscope
    · rw [if_neg hrs] at hactive hscope
      exact h.exclusive r hr hactive c hc hscope
  · exact h.single
  · intro c hc
    have hsame : (moveRun s run state failure kind now n).sessions.map Session.id =
        s.sessions.map Session.id := Table.modify_column _ fun _ => rfl
    rw [hsame]
    exact h.commands c hc

theorem paused (h : Occupied s) (p : Paused s t) : Occupied t := by
  rw [p.frame]
  exact { h with }

theorem ended (h : Occupied s) (hkeyed : Table.Keyed Run.id s.runs) {run : Run} {state : RunState}
    {failure : Option RunFailureKind} {kind : EventKind} {now : Nat} {u : Store}
    (movable : Movable s run state failure kind u.nextValue) :
    Occupied (endRun s u run state failure kind now) :=
  { h.move hkeyed movable with }

theorem outcome (h : Occupied s) {run : Run} {fact : ProviderOperationFact} :
    Occupied (writeProviderOutcome s run fact) := by
  refine h.kept rfl ?_ rfl rfl
  simp only [writeProviderOutcome]
  split
  · exact Table.modify_column _ fun _ => rfl
  · rfl

theorem finalEntry (h : Occupied s) {run : Run} {assistant : CompletedAssistant}
    {entrySequence now : Nat} : Occupied (writeFinalEntry s run assistant entrySequence now) :=
  h.kept (Table.modify_column _ fun _ => rfl) rfl rfl rfl

theorem toolResult (h : Occupied s) {run : Run} {call : ToolCall} {result : ToolResult}
    {factKind : ToolFactKind} {resultStatus : ToolResultStatus} {entrySequence now : Nat} :
    Occupied (recordToolResult s run call result factKind resultStatus entrySequence now) :=
  h.kept (Table.modify_column _ fun _ => rfl) (Table.modify_column _ fun _ => rfl) rfl
    (Table.modify_column _ fun _ => rfl)

/-- A new run takes a free session. -/
theorem acceptance (h : Occupied s) (hbound : Bound s) (hid : Identified s)
    {requestId : MutationRequestId} {fingerprint : Fingerprint} {sessionId : SessionId}
    {session : Session} {state : SessionRunState} {binding : RunBinding}
    {checkpoint : Option ContextCheckpointId} {text : String} {context : RunInputContext} {now : Nat}
    (hkeyed : Table.Keyed SessionRunState.sessionId s.sessionRunStates)
    (admitted : InputAdmitted s sessionId session state binding) :
    Occupied (writeAcceptance (s.drawn (s.nextValue + 3) (s.nextIdentifier + 4)) requestId
      fingerprint sessionId s.nextIdentifier (s.nextIdentifier + 1) binding checkpoint text context now
      (s.nextIdentifier + 2) (s.nextIdentifier + 3) s.nextValue (s.nextValue + 1)
      (s.nextValue + 2)) := by
  have hstate : ∀ r ∈ s.sessionRunStates, r.sessionId = sessionId → r = state := by
    intro r hr e
    have hin := Table.find_mem admitted.foundState
    exact Table.eq_of_key hkeyed hr hin (e.trans (Table.find_key admitted.foundState).symm)
  have hterminal : ∀ run ∈ s.runs, run.sessionId = sessionId → run.state.isTerminal = true := by
    intro run hrun e
    have hkey := Table.find_key admitted.foundState
    have hiff := h.active state (Table.find_mem admitted.foundState) run hrun (e.trans hkey.symm)
    rw [admitted.idle] at hiff
    simpa using hiff
  have hmem : ∀ r' ∈ (s.sessionRunStates.map fun (r : SessionRunState) =>
      if r.sessionId = sessionId ∧ r.activeRunId = none then
        { r with
          activeRunId := some s.nextIdentifier
          entryHighWater := binding.sourceEntryHighWater
          updatedSequence := s.nextValue + 1 }
      else r),
      (r'.sessionId = sessionId ∧ r'.activeRunId = some s.nextIdentifier) ∨
        (r'.sessionId ≠ sessionId ∧ r' ∈ s.sessionRunStates) := by
    intro r' hr'
    obtain ⟨r, hr, rfl⟩ := List.mem_map.mp hr'
    by_cases e : r.sessionId = sessionId
    · have hfree : r.activeRunId = none := by
        rw [hstate r hr e]
        exact admitted.idle
      rw [if_pos ⟨e, hfree⟩]
      exact Or.inl ⟨e, rfl⟩
    · rw [if_neg (fun k => e k.1)]
      exact Or.inr ⟨e, hr⟩
  constructor
  · intro r' hr' run hrun hscope
    rcases hmem r' hr' with ⟨e, hactive⟩ | ⟨e, hr⟩
    · rw [hactive]
      rcases List.mem_cons.mp hrun with rfl | hrun
      · simp [RunState.isTerminal]
      · have hne : ¬ s.nextIdentifier = run.id := (hbound.drawnId hid hrun).ne'
        simp [hterminal run hrun (hscope.trans e), hne]
    · rcases List.mem_cons.mp hrun with rfl | hrun
      · exact absurd hscope.symm e
      · exact h.active r' hr run hrun hscope
  · intro r' hr' runId hactive
    rcases hmem r' hr' with ⟨e, hnamed⟩ | ⟨e, hr⟩
    · rw [hnamed] at hactive
      exact ⟨_, List.mem_cons_self .., Option.some.inj hactive, e.symm⟩
    · obtain ⟨run, hrun, hrow⟩ := h.named r' hr runId hactive
      exact ⟨run, List.mem_cons_of_mem _ hrun, hrow⟩
  · intro r' hr' hactive c hc hscope
    rcases hmem r' hr' with ⟨e, -⟩ | ⟨e, hr⟩
    · exact activeLocalCommand_none.mp admitted.command c hc (hscope.trans e)
    · exact h.exclusive r' hr hactive c hc hscope
  · exact h.single
  · intro c hc
    have hsame : (Table.modify Session.id sessionId
        (fun r => { r with updatedSequence := s.nextValue + 1 }) s.sessions).map Session.id =
        s.sessions.map Session.id := Table.modify_column _ fun _ => rfl
    exact hsame ▸ h.commands c hc

/-- A new command takes a free session. -/
theorem commandAcceptance (h : Occupied s) {sessionId : SessionId} {session : Session}
    {state : SessionRunState} {c : LocalCommand}
    (hkeyed : Table.Keyed SessionRunState.sessionId s.sessionRunStates)
    (foundSession : loadSession s sessionId = some session)
    (foundState : loadSessionRunState s sessionId = some state) (idle : state.activeRunId = none)
    (free : activeLocalCommand s sessionId = none) (hc : c.sessionId = sessionId) :
    Occupied { s with localCommands := c :: s.localCommands } := by
  have hfree := activeLocalCommand_none.mp free
  constructor
  · exact h.active
  · exact h.named
  · intro r hr hactive c' hc' hscope
    rcases List.mem_cons.mp hc' with rfl | hc'
    · have hsame : r = state := Table.eq_of_key hkeyed hr (Table.find_mem foundState)
        ((hscope.symm.trans hc).trans (Table.find_key foundState).symm)
      rw [hsame, idle] at hactive
      cases hactive
    · exact h.exclusive r hr hactive c' hc' hscope
  · intro a ha b hb hscope hna hnb
    rcases List.mem_cons.mp ha with ea | ha' <;> rcases List.mem_cons.mp hb with eb | hb'
    · rw [ea, eb]
    · rw [hfree b hb' (hscope.symm.trans (ea ▸ hc))] at hnb
      cases hnb
    · rw [hfree a ha' (hscope.trans (eb ▸ hc))] at hna
      cases hna
    · exact h.single a ha' b hb' hscope hna hnb
  · intro c' hc'
    rcases List.mem_cons.mp hc' with rfl | hc'
    · rw [hc]
      exact Table.find_isSome.mp (Option.isSome_iff_exists.mpr ⟨session, foundSession⟩)
    · exact h.commands c' hc'

/-- A command that moves stays in its session and does not start over. -/
theorem commandMove (h : Occupied s) (commandId : LocalCommandId) {f : LocalCommand → LocalCommand}
    (hkey : ∀ c, (f c).commandId = c.commandId) (hscope : ∀ c, (f c).sessionId = c.sessionId)
    (hstate : ∀ c ∈ s.localCommands, c.commandId = commandId → (f c).state.isTerminal = false →
      c.state.isTerminal = false) :
    Occupied { s with
      localCommands := Table.modify LocalCommand.commandId commandId f s.localCommands } := by
  have hmem : ∀ c' ∈ Table.modify LocalCommand.commandId commandId f s.localCommands,
      ∃ c ∈ s.localCommands, c.commandId = c'.commandId ∧ c.sessionId = c'.sessionId ∧
        (c'.state.isTerminal = false → c.state.isTerminal = false) := by
    intro c' hc'
    obtain ⟨c, hc, rfl⟩ := Table.mem_modify.mp hc'
    refine ⟨c, hc, ?_⟩
    split
    · rename_i e
      exact ⟨(hkey c).symm, (hscope c).symm, hstate c hc e⟩
    · exact ⟨rfl, rfl, id⟩
  constructor
  · exact h.active
  · exact h.named
  · intro r hr hactive c' hc' e
    obtain ⟨c, hc, -, hs, hrunning⟩ := hmem c' hc'
    by_contra hn
    have hover := h.exclusive r hr hactive c hc (hs.trans e)
    rw [hrunning (by simpa using hn)] at hover
    cases hover
  · intro a' ha' b' hb' e hna hnb
    obtain ⟨a, ha, hka, hsa, hra⟩ := hmem a' ha'
    obtain ⟨b, hb, hkb, hsb, hrb⟩ := hmem b' hb'
    rw [← hka, ← hkb]
    exact h.single a ha b hb (by rw [hsa, hsb, e]) (hra hna) (hrb hnb)
  · intro c' hc'
    obtain ⟨c, hc, -, hs, -⟩ := hmem c' hc'
    exact hs ▸ h.commands c hc

theorem cleanup (h : Occupied s) (request : SessionDeleteRequest) :
    Occupied (writeCleanup s request) where
  active r hr run hrun :=
    h.active r (List.mem_of_mem_filter hr) run (List.mem_of_mem_filter hrun)
  named r hr runId hactive := by
    obtain ⟨hr, hother⟩ := List.mem_filter.mp hr
    obtain ⟨run, hrun, hid, hsession⟩ := h.named r hr runId hactive
    exact ⟨run, List.mem_filter.mpr ⟨hrun, hsession ▸ hother⟩, hid, hsession⟩
  exclusive r hr hactive c hc :=
    h.exclusive r (List.mem_of_mem_filter hr) hactive c (List.mem_of_mem_filter hc)
  single a ha b hb := h.single a (List.mem_of_mem_filter ha) b (List.mem_of_mem_filter hb)
  commands c hc := by
    obtain ⟨hc, hother⟩ := List.mem_filter.mp hc
    obtain ⟨session, hsession, e⟩ := List.mem_map.mp (h.commands c hc)
    exact List.mem_map.mpr ⟨session, List.mem_filter.mpr ⟨hsession, e ▸ hother⟩, e⟩

theorem write (h : Occupied s) (ha : Aligned s) (hbound : Bound s) (hid : Identified s)
    (w : Write d s t) : Occupied t := by
  have hkeyed := hbound.keyed hid
  cases w with
  | recovery u now paused => exact h.paused (pause_paused paused)
  | steering mutation u item now fresh text admitted applied =>
    rw [(steering_frame applied).2]
    exact { h with }
  | archiveRequest requestId fingerprint sessionId archived now u fresh found paused =>
    refine Occupied.paused ?_ (requestArchive_paused paused)
    exact { h with }
  | session request found dispatched =>
    have hnone : ∀ sessionId ∈ s.sessions.map Session.id, sessionId ≠ request.sessionId := by
      intro sessionId hsession
      rw [ha.sessionIds] at hsession
      obtain ⟨f, hf, rfl⟩ := List.mem_map.mp hsession
      exact ha.uncreated hid (Table.find_mem found) (by simp [dispatched]) f hf
    have hruns : ∀ run ∈ s.runs, run.sessionId ≠ request.sessionId := by
      intro run hrun
      exact hnone _ (Table.find_isSome.mp (hbound.session hrun))
    constructor
    · intro r hr run hrun hscope
      rcases List.mem_cons.mp hr with rfl | hr
      · exact absurd hscope (hruns run hrun)
      · exact h.active r hr run hrun hscope
    · intro r hr runId hactive
      rcases List.mem_cons.mp hr with rfl | hr
      · cases hactive
      · exact h.named r hr runId hactive
    · intro r hr hactive c hc hscope
      rcases List.mem_cons.mp hr with rfl | hr
      · cases hactive
      · exact h.exclusive r hr hactive c hc hscope
    · exact h.single
    · exact fun c hc => List.mem_cons_of_mem _ (h.commands c hc)
  | acceptance requestId fingerprint sessionId session state binding checkpoint text context now fresh
      admitted =>
    exact h.acceptance hbound hid ha.keyedRunStates admitted
  | activate run now n movable => exact h.move hkeyed movable
  | outcome => exact h.outcome
  | finish run outcome state failure kind now u found admitted stopped paused movable =>
    cases outcome with
    | none => exact h.ended hkeyed movable
    | some fact => exact h.outcome.ended (Bound.outcome_keyed hkeyed) movable
  | answer run state fact assistant now u entry admitted completed paused =>
    exact h.outcome.finalEntry.ended (Bound.outcome_keyed hkeyed)
      (entry.answer_movable completed (pauseEnded_number paused))
  | cancellation requestId fingerprint run now fresh foundSession found room recordable canonical u
      paused =>
    refine Occupied.paused ?_ (cancelled_paused paused)
    refine h.kept ?_ ?_ rfl ?_
    · simp only [writeCancellation]
      split
      · exact Table.modify_column _ fun _ => rfl
      · rfl
    · simp only [writeCancellation]
      split
      · exact Table.modify_column _ fun _ => rfl
      · rfl
    · simp only [writeCancellation]
      split
      · exact Table.modify_column _ fun _ => rfl
      · rfl
  | rename | archive => exact h.kept rfl rfl rfl (Table.modify_column _ fun _ => rfl)
  | commentary =>
    exact h.kept (Table.modify_column _ fun _ => rfl) rfl rfl (Table.modify_column _ fun _ => rfl)
  | toolCall =>
    exact h.kept (Table.modify_column _ fun _ => rfl) (Table.modify_column _ fun _ => rfl) rfl
      (Table.modify_column _ fun _ => rfl)
  | toolResult => exact h.toolResult
  | toolUncertain run state call result factKind resultStatus now u active entry prepared open_
      classified uncertain payload stops paused =>
    exact h.toolResult.ended (hkeyed.modify fun _ => rfl)
      (active.uncertain_movable (pauseEnded_number paused))
  | commandAcceptance requestId fingerprint sessionId command contextVisible session state now fresh
      foundSession foundState idle free =>
    have htaken := h.commandAcceptance (c :=
      { commandId := s.nextIdentifier
        requestId := requestId
        fingerprint := fingerprint
        sessionId := sessionId
        commandText := command
        contextVisible := contextVisible
        state := .accepted
        cancellationRequested := false
        result := none
        entrySequence := none
        messageId := none
        acceptedSequence := s.nextValue
        updatedSequence := s.nextValue
        acceptedAtMilliseconds := now
        updatedAtMilliseconds := now
        acceptedEventId := s.nextIdentifier + 1
        deliveryEventId := none }) ha.keyedRunStates foundSession foundState idle free rfl
    exact htaken.kept (Table.modify_column _ fun _ => rfl) rfl rfl
      (Table.modify_column _ fun _ => rfl)
  | cleanup request => exact h.cleanup request
  | commandActivation row now found accepted =>
    have hmoved := h.commandMove row.commandId (f := fun r => { r with
        state := .active
        updatedSequence := s.nextValue
        updatedAtMilliseconds := now }) (fun _ => rfl) (fun _ => rfl) (by
      intro c hc e _
      have hsame : c = row := Table.eq_of_key hid.commands.nodup hc (Table.find_mem found) e
      rw [hsame, accepted]
      rfl)
    exact { hmoved with }
  | commandResult row state result now found running =>
    have hmoved := h.commandMove row.commandId (f := fun r => { r with
        state := terminalCommandState result
        result := some result
        entrySequence := some (state.entryHighWater + 1)
        messageId := some s.nextIdentifier
        updatedSequence := s.nextValue
        updatedAtMilliseconds := now
        deliveryEventId := some (s.nextIdentifier + 1) }) (fun _ => rfl) (fun _ => rfl) (by
      intro c hc e hrunning
      rw [terminalCommandState_isTerminal] at hrunning
      cases hrunning)
    exact hmoved.kept (Table.modify_column _ fun _ => rfl) rfl rfl
      (Table.modify_column _ fun _ => rfl)
  | commandCancellation =>
    refine h.kept rfl rfl ?_ rfl
    simp only [writeCommandCancellation]
    split
    · exact Table.modify_column _ fun _ => rfl
    · rfl
  | _ => exact { h with }

end Occupied

end Morons
