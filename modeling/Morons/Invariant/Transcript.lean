import Morons.Invariant.Occupancy

/-!
# The transcript of a session

The places of a session's transcript are taken one after the other, by the
entries of its runs and by its finished commands: they are the numbers from
one to the high water, each once.
-/

namespace Morons

variable {d : Discipline} {s t : Store}

/-- The places that entries take. -/
def entryPlaces (sessionId : SessionId) (entries : List SessionEntry) : List Nat :=
  entries.filterMap fun e => if e.sessionId = sessionId then some e.entrySequence else none

/-- The places that commands take. -/
def commandPlaces (sessionId : SessionId) (commands : List LocalCommand) : List Nat :=
  commands.filterMap fun c => if c.sessionId = sessionId then c.entrySequence else none

/-- A command without a place takes none. -/
theorem commandPlaces_unplaced {sessionId : SessionId} {c : LocalCommand}
    {commands : List LocalCommand} (h : c.entrySequence = none) :
    commandPlaces sessionId (c :: commands) = commandPlaces sessionId commands :=
  List.filterMap_cons_none (by simp [h])

/-- The places of every session are filled up to its high water. -/
def Transcribed (states : List SessionRunState) (entries : List SessionEntry)
    (commands : List LocalCommand) : Prop :=
  ∀ r ∈ states, r.entryHighWater ≤ maxTranscriptEntries ∧
    (entryPlaces r.sessionId entries ++ commandPlaces r.sessionId commands).Perm
      (List.range' 1 r.entryHighWater)

/-- The next place is taken. -/
theorem next_place {places : List Nat} {n : Nat} (h : places.Perm (List.range' 1 n)) :
    ((n + 1) :: places).Perm (List.range' 1 (n + 1)) := by
  rw [List.range'_concat, Nat.one_mul, Nat.add_comm 1 n]
  exact (h.cons (n + 1)).trans (List.perm_append_singleton (n + 1) _).symm

/-- The run states after one session took its next place. -/
def Raised (sessionId : SessionId) (highWater : Nat) (states states' : List SessionRunState) : Prop :=
  ∀ r' ∈ states', ∃ r ∈ states, r.sessionId = r'.sessionId ∧
    r'.entryHighWater = if r.sessionId = sessionId then highWater else r.entryHighWater

theorem raised_modify {sessionId : SessionId} {highWater : Nat} {states : List SessionRunState}
    {f : SessionRunState → SessionRunState} (hkey : ∀ r, (f r).sessionId = r.sessionId)
    (hwater : ∀ r, (f r).entryHighWater = highWater) :
    Raised sessionId highWater states
      (Table.modify SessionRunState.sessionId sessionId f states) := by
  intro r' hr'
  obtain ⟨r, hr, rfl⟩ := Table.mem_modify.mp hr'
  refine ⟨r, hr, ?_⟩
  by_cases e : r.sessionId = sessionId
  · simp [e, hkey, hwater]
  · simp [e]

namespace Transcribed

variable {states states' : List SessionRunState} {entries : List SessionEntry}
  {commands commands' : List LocalCommand}

/-- The run states change, but not their high water. -/
theorem kept (h : Transcribed states entries commands)
    (hstates : states'.map (fun r => (r.sessionId, r.entryHighWater)) =
      states.map fun r => (r.sessionId, r.entryHighWater)) :
    Transcribed states' entries commands := by
  intro r' hr'
  obtain ⟨r, hr, e⟩ := mem_of_column hstates hr'
  simp only [Prod.mk.injEq] at e
  rw [← e.1, ← e.2]
  exact h r hr

/-- One more place of one session. -/
theorem raise {sessionId : SessionId} {state : SessionRunState} {entries' : List SessionEntry}
    (h : Transcribed states entries commands)
    (hkeyed : Table.Keyed SessionRunState.sessionId states)
    (found : Table.find SessionRunState.sessionId sessionId states = some state)
    (room : state.entryHighWater + 1 ≤ maxTranscriptEntries)
    (hraised : Raised sessionId (state.entryHighWater + 1) states states')
    (hplace : (entryPlaces sessionId entries' ++ commandPlaces sessionId commands').Perm
      ((state.entryHighWater + 1) ::
        (entryPlaces sessionId entries ++ commandPlaces sessionId commands)))
    (hothers : ∀ other, other ≠ sessionId → entryPlaces other entries' = entryPlaces other entries ∧
      commandPlaces other commands' = commandPlaces other commands) :
    Transcribed states' entries' commands' := by
  intro r' hr'
  obtain ⟨r, hr, hsession, hwater⟩ := hraised r' hr'
  by_cases e : r.sessionId = sessionId
  · rw [if_pos e] at hwater
    have hsame : r = state := Table.eq_of_key hkeyed hr (Table.find_mem found)
      (e.trans (Table.find_key found).symm)
    have hold := (h r hr).2
    rw [hwater, ← hsession, e]
    refine ⟨room, hplace.trans (next_place ?_)⟩
    rw [← hsame, ← e]
    exact hold
  · rw [if_neg e] at hwater
    obtain ⟨hentries, hcommands⟩ := hothers r.sessionId e
    rw [hwater, ← hsession, hentries, hcommands]
    exact h r hr

/-- An entry at the next place of its session. -/
theorem entry {state : SessionRunState} {e : SessionEntry}
    (h : Transcribed states entries commands)
    (hkeyed : Table.Keyed SessionRunState.sessionId states)
    (found : Table.find SessionRunState.sessionId e.sessionId states = some state)
    (room : state.entryHighWater + 1 ≤ maxTranscriptEntries)
    (hplace : e.entrySequence = state.entryHighWater + 1)
    (hraised : Raised e.sessionId (state.entryHighWater + 1) states states') :
    Transcribed states' (e :: entries) commands := by
  refine h.raise hkeyed found room hraised ?_ fun other hne => ⟨?_, rfl⟩
  · simp [entryPlaces, hplace]
  · have hne' : ¬ e.sessionId = other := fun k => hne k.symm
    simp [entryPlaces, hne']

/-- Commands change, but not their places. -/
theorem commands_kept (h : Transcribed states entries commands)
    (hcommands : ∀ sessionId, commandPlaces sessionId commands' = commandPlaces sessionId commands) :
    Transcribed states entries commands' := by
  intro r hr
  rw [hcommands]
  exact h r hr

theorem cleanup (h : Transcribed s.sessionRunStates s.sessionEntries s.localCommands)
    (request : SessionDeleteRequest) : Transcribed (writeCleanup s request).sessionRunStates
      (writeCleanup s request).sessionEntries (writeCleanup s request).localCommands := by
  intro r hr
  obtain ⟨hr, hother⟩ := List.mem_filter.mp hr
  have hne : r.sessionId ≠ request.sessionId := of_decide_eq_true hother
  have hentries : entryPlaces r.sessionId (writeCleanup s request).sessionEntries =
      entryPlaces r.sessionId s.sessionEntries := by
    refine Table.filterMap_kept fun e _ he => ?_
    exact decide_eq_true fun k => he (if_neg fun k' => hne (k'.symm.trans k))
  have hcommands : commandPlaces r.sessionId (writeCleanup s request).localCommands =
      commandPlaces r.sessionId s.localCommands := by
    refine Table.filterMap_kept fun c _ hc => ?_
    exact decide_eq_true fun k => hc (if_neg fun k' => hne (k'.symm.trans k))
  rw [hentries, hcommands]
  exact h r hr

theorem paused (h : Transcribed s.sessionRunStates s.sessionEntries s.localCommands)
    (p : Paused s t) : Transcribed t.sessionRunStates t.sessionEntries t.localCommands := by
  rw [p.frame]
  exact h

theorem write (h : Transcribed s.sessionRunStates s.sessionEntries s.localCommands)
    (ha : Aligned s) (hid : Identified s) (hbound : Bound s) (hscoped : Scoped s)
    (hoccupied : Occupied s)
    (hopen : ∀ c ∈ s.localCommands, c.state.isTerminal = false → c.entrySequence = none)
    (w : Write d s t) : Transcribed t.sessionRunStates t.sessionEntries t.localCommands := by
  have hstates := ha.keyedRunStates
  cases w with
  | recovery u now paused => exact Transcribed.paused h (pause_paused paused)
  | steering mutation u item now fresh text admitted applied =>
    rw [(steering_frame applied).2]
    exact h
  | archiveRequest requestId fingerprint sessionId archived now u fresh found paused =>
    refine Transcribed.paused ?_ (requestArchive_paused paused)
    exact h
  | session request found dispatched =>
    have hnone : ∀ sessionId ∈ s.sessions.map Session.id, sessionId ≠ request.sessionId := by
      intro sessionId hsession
      rw [ha.sessionIds] at hsession
      obtain ⟨f, hf, rfl⟩ := List.mem_map.mp hsession
      exact ha.uncreated hid (Table.find_mem found) (by simp [dispatched]) f hf
    intro r hr
    rcases List.mem_cons.mp hr with rfl | hr
    · refine ⟨Nat.zero_le _, ?_⟩
      have hentries : entryPlaces request.sessionId s.sessionEntries = [] := by
        refine List.filterMap_eq_nil_iff.mpr fun e he => if_neg fun k => ?_
        obtain ⟨f, hf, -, hs⟩ := hscoped.entries e he
        exact hnone _ (hbound.sessions f hf) (hs.trans k)
      have hcommands : commandPlaces request.sessionId s.localCommands = [] :=
        List.filterMap_eq_nil_iff.mpr fun c hc => if_neg (hnone _ (hoccupied.commands c hc))
      show (entryPlaces request.sessionId s.sessionEntries ++
        commandPlaces request.sessionId s.localCommands).Perm []
      rw [hentries, hcommands]
      exact List.Perm.refl _
    · exact h r hr
  | acceptance requestId fingerprint sessionId session state binding checkpoint text context now fresh
      admitted =>
    refine h.entry hstates admitted.foundState (Nat.le_of_succ_le admitted.room) admitted.highWater ?_
    intro r' hr'
    obtain ⟨r, hr, rfl⟩ := List.mem_map.mp hr'
    refine ⟨r, hr, ?_⟩
    by_cases e : r.sessionId = sessionId
    · have hsame : r = state := Table.eq_of_key hstates hr (Table.find_mem admitted.foundState)
        (e.trans (Table.find_key admitted.foundState).symm)
      have hfree : r.activeRunId = none := by
        rw [hsame]
        exact admitted.idle
      simp [e, hfree, admitted.highWater]
    · simp [e]
  | activate => exact h.kept (Table.modify_column _ fun _ => rfl)
  | finish run outcome =>
    cases outcome with
    | none => exact h.kept (Table.modify_column _ fun _ => rfl)
    | some fact => exact h.kept (Table.modify_column _ fun _ => rfl)
  | answer run state fact assistant now u entry =>
    have hentry : Transcribed
        (writeFinalEntry (writeProviderOutcome s run fact) run assistant
          (state.entryHighWater + 1) now).sessionRunStates
        (writeFinalEntry (writeProviderOutcome s run fact) run assistant
          (state.entryHighWater + 1) now).sessionEntries s.localCommands :=
      h.entry hstates entry.foundState entry.room rfl (raised_modify (fun _ => rfl) fun _ => rfl)
    exact hentry.kept (Table.modify_column _ fun _ => rfl)
  | cancellation requestId fingerprint run now fresh foundSession found room recordable canonical u
      paused =>
    refine Transcribed.paused ?_ (cancelled_paused paused)
    refine h.kept ?_
    simp only [writeCancellation]
    split
    · exact Table.modify_column _ fun _ => rfl
    · rfl
  | commentary run state text refusal now entry =>
    exact h.entry hstates entry.foundState entry.room rfl
      (raised_modify (fun _ => rfl) fun _ => rfl)
  | toolCall run state providerOperationId call callIndex now entry =>
    exact h.entry hstates entry.foundState entry.room rfl
      (raised_modify (fun _ => rfl) fun _ => rfl)
  | toolResult run state call result factKind resultStatus now active entry =>
    exact h.entry hstates entry.foundState entry.room rfl
      (raised_modify (fun _ => rfl) fun _ => rfl)
  | toolUncertain run state call result factKind resultStatus now u active entry =>
    have hentry : Transcribed
        (recordToolResult s run call result factKind resultStatus (state.entryHighWater + 1)
          now).sessionRunStates
        (recordToolResult s run call result factKind resultStatus (state.entryHighWater + 1)
          now).sessionEntries s.localCommands :=
      h.entry hstates entry.foundState entry.room rfl (raised_modify (fun _ => rfl) fun _ => rfl)
    exact hentry.kept (Table.modify_column _ fun _ => rfl)
  | cleanup request => exact h.cleanup request
  | commandAcceptance =>
    exact (h.commands_kept fun other => commandPlaces_unplaced rfl).kept
      (Table.modify_column _ fun _ => rfl)
  | commandActivation =>
    exact h.commands_kept fun other => Table.modify_filterMap _ fun _ _ _ => rfl
  | commandResult row state result now found running canonical payload foundState room =>
    refine h.raise hstates foundState room (raised_modify (fun _ => rfl) fun _ => rfl) ?_ ?_
    · have hrow := Table.find_mem found
      have hperm := Table.modify_filterMap_perm (c := state.entryHighWater + 1)
        (fun c : LocalCommand => if c.sessionId = row.sessionId then c.entrySequence else none)
        (f := fun r => { r with
          state := terminalCommandState result
          result := some result
          entrySequence := some (state.entryHighWater + 1)
          messageId := some s.nextIdentifier
          updatedSequence := s.nextValue
          updatedAtMilliseconds := now
          deliveryEventId := some (s.nextIdentifier + 1) })
        hid.commands.nodup found (by simp [hopen row hrow running]) (by simp)
      exact (hperm.append_left _).trans List.perm_middle
    · intro other hne
      refine ⟨rfl, Table.modify_filterMap _ fun c hc e => ?_⟩
      have hsame : c = row := Table.eq_of_key hid.commands.nodup hc (Table.find_mem found) e
      have hne' : ¬ row.sessionId = other := fun k => hne k.symm
      simp [hsame, hne']
  | commandCancellation =>
    refine h.commands_kept fun other => ?_
    simp only [writeCommandCancellation]
    split
    · exact Table.modify_filterMap _ fun _ _ _ => rfl
    · rfl
  | _ => exact h

end Transcribed

/-! ## The entries of users -/

/-- The entry of a user is the one that its run was accepted with. -/
def Prompted (s : Store) : Prop := ∀ e ∈ s.sessionEntries, e.body.isUser = true →
  ∀ f ∈ s.runAcceptedFacts, f.runId = e.runId → f.userMessageId = e.messageId

theorem prompted_empty : Prompted Store.empty := by simp [Prompted, Store.empty]

namespace Prompted

theorem paused (h : Prompted s) (p : Paused s t) : Prompted t := by
  rw [p.frame]
  exact h

/-- An entry of another kind. -/
theorem entry (h : Prompted s) {entry : SessionEntry} (hother : entry.body.isUser = false)
    (hentries : t.sessionEntries = entry :: s.sessionEntries)
    (hfacts : t.runAcceptedFacts = s.runAcceptedFacts) : Prompted t := by
  intro e he huser
  rw [hentries] at he
  rw [hfacts]
  rcases List.mem_cons.mp he with rfl | he
  · rw [hother] at huser
    cases huser
  · exact h e he huser

theorem write (h : Prompted s) (hid : Identified s) (hscoped : Scoped s) (w : Write d s t) :
    Prompted t := by
  cases w with
  | recovery u now paused => exact h.paused (pause_paused paused)
  | steering mutation u item now fresh text admitted applied =>
    rw [(steering_frame applied).2]
    exact h
  | archiveRequest requestId fingerprint sessionId archived now u fresh found paused =>
    refine Prompted.paused ?_ (requestArchive_paused paused)
    exact h
  | cancellation requestId fingerprint run now fresh foundSession found room recordable canonical u
      paused =>
    refine Prompted.paused ?_ (cancelled_paused paused)
    exact h
  | cleanup request =>
    intro e he huser f hf
    exact h e (List.mem_of_mem_filter he) huser f (List.mem_of_mem_filter hf)
  | acceptance =>
    intro e he huser f hf hrun
    rcases List.mem_cons.mp he with rfl | he <;> rcases List.mem_cons.mp hf with rfl | hf
    · rfl
    · exact absurd hrun (hid.acceptedFacts.bounded f hf).ne
    · -- An older entry belongs to a run with an older identifier.
      obtain ⟨g, hg, hsame, -⟩ := hscoped.entries e he
      have hlt := hid.acceptedFacts.bounded g hg
      exact absurd (hrun.trans hsame.symm) hlt.ne'
    · exact h e he huser f hf hrun
  | finish run outcome => cases outcome <;> exact h
  | answer => exact h.entry rfl rfl rfl
  | commentary => exact h.entry rfl rfl rfl
  | toolCall => exact h.entry rfl rfl rfl
  | toolResult => exact h.entry rfl rfl rfl
  | toolUncertain => exact h.entry rfl rfl rfl
  | _ => exact h

end Prompted

end Morons
