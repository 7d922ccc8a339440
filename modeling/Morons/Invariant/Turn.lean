import Morons.Invariant.Sound

/-!
# The turns of a session

A run opens its turn with the message of its user, and every other entry of the
run follows before the next run is accepted.  So the entries of one run never
straddle the message of another.
-/

namespace Morons

open Attempt

variable {d : Discipline} {s t u : Store}

/-- The place of the message that a run was accepted with. -/
def RunAcceptedFact.place (f : RunAcceptedFact) : Nat := f.binding.sourceEntryHighWater

def Run.place (r : Run) : Nat := r.binding.sourceEntryHighWater

structure Turned (s : Store) : Prop where
  begun : ∀ e ∈ s.sessionEntries, ∀ own ∈ s.runAcceptedFacts, own.runId = e.runId →
    own.place ≤ e.entrySequence ∧ (e.body.isUser = true → e.entrySequence = own.place)
  /-- A message that an entry follows is not later than the one of the entry's own run. -/
  apart : ∀ e ∈ s.sessionEntries, ∀ own ∈ s.runAcceptedFacts, own.runId = e.runId →
    ∀ f ∈ s.runAcceptedFacts, f.sessionId = e.sessionId → f.place ≤ e.entrySequence →
      f.place ≤ own.place
  latest : ∀ run ∈ s.runs, run.state.isTerminal = false →
    ∀ f ∈ s.runAcceptedFacts, f.sessionId = run.sessionId → f.place ≤ run.place
  reached : ∀ f ∈ s.runAcceptedFacts, ∀ r ∈ s.sessionRunStates, r.sessionId = f.sessionId →
    f.place ≤ r.entryHighWater

theorem turned_empty : Turned Store.empty := by
  constructor <;> simp [Store.empty]

/-! ## Steady writes -/

/-- No run starts over. -/
def Rested (runs runs' : List Run) : Prop := ∀ r' ∈ runs', ∃ r ∈ runs, r.origin = r'.origin ∧
  (r'.state.isTerminal = false → r.state.isTerminal = false)

/-- No transcript shrinks. -/
def Grown (states states' : List SessionRunState) : Prop := ∀ r' ∈ states', ∃ r ∈ states,
  r.sessionId = r'.sessionId ∧ r.entryHighWater ≤ r'.entryHighWater

theorem rested_columns {runs runs' : List Run}
    (h : runs'.map (fun r => (r.origin, r.state)) = runs.map fun r => (r.origin, r.state)) :
    Rested runs runs' := by
  intro r' hr'
  obtain ⟨r, hr, e⟩ := mem_of_column h hr'
  simp only [Prod.mk.injEq] at e
  exact ⟨r, hr, e.1, fun hrunning => e.2 ▸ hrunning⟩

theorem grown_columns {states states' : List SessionRunState}
    (h : states'.map (fun r => (r.sessionId, r.entryHighWater)) =
      states.map fun r => (r.sessionId, r.entryHighWater)) : Grown states states' := by
  intro r' hr'
  obtain ⟨r, hr, e⟩ := mem_of_column h hr'
  simp only [Prod.mk.injEq] at e
  exact ⟨r, hr, e.1, e.2.le⟩

/-- The transcript of one session takes its next place. -/
theorem grown_raised {states states' : List SessionRunState} {sessionId : SessionId}
    {state : SessionRunState} (hkeyed : Table.Keyed SessionRunState.sessionId states)
    (found : Table.find SessionRunState.sessionId sessionId states = some state)
    (hraised : Raised sessionId (state.entryHighWater + 1) states states') :
    Grown states states' := by
  intro r' hr'
  obtain ⟨r, hr, hsession, hwater⟩ := hraised r' hr'
  refine ⟨r, hr, hsession, ?_⟩
  rw [hwater]
  split
  case isTrue e =>
    have hsame : r = state := Table.eq_of_key hkeyed hr (Table.find_mem found)
      (e.trans (Table.find_key found).symm)
    rw [hsame]
    exact Nat.le_succ _
  case isFalse => exact le_rfl

/-- A write after which the runs are those there were, none of them started over. -/
structure Steady (s t : Store) : Prop where
  facts : t.runAcceptedFacts = s.runAcceptedFacts
  runs : Rested s.runs t.runs
  states : Grown s.sessionRunStates t.sessionRunStates

namespace Steady

theorem trans (h : Steady s t) (k : Steady t u) : Steady s u where
  facts := k.facts.trans h.facts
  runs r'' hr'' := by
    obtain ⟨r', hr', horigin', hrests'⟩ := k.runs r'' hr''
    obtain ⟨r, hr, horigin, hrests⟩ := h.runs r' hr'
    exact ⟨r, hr, horigin.trans horigin', hrests ∘ hrests'⟩
  states r'' hr'' := by
    obtain ⟨r', hr', hsession', hwater'⟩ := k.states r'' hr''
    obtain ⟨r, hr, hsession, hwater⟩ := h.states r' hr'
    exact ⟨r, hr, hsession.trans hsession', hwater.trans hwater'⟩

/-- Only columns that say nothing of the turns change. -/
theorem columns (hfacts : t.runAcceptedFacts = s.runAcceptedFacts)
    (hruns : t.runs.map (fun r => (r.origin, r.state)) = s.runs.map fun r => (r.origin, r.state))
    (hstates : t.sessionRunStates.map (fun r => (r.sessionId, r.entryHighWater)) =
      s.sessionRunStates.map fun r => (r.sessionId, r.entryHighWater)) : Steady s t :=
  ⟨hfacts, rested_columns hruns, grown_columns hstates⟩

theorem paused (p : Paused s t) : Steady s t := by
  rw [p.frame]
  exact columns rfl rfl rfl

theorem outcome {run : Run} {fact : ProviderOperationFact} :
    Steady s (writeProviderOutcome s run fact) := by
  refine columns rfl ?_ rfl
  simp only [writeProviderOutcome]
  split
  · exact Table.modify_column _ fun _ => rfl
  · rfl

/-- A run that moves was under way. -/
theorem move (hkeyed : Table.Keyed Run.id s.runs) {run : Run} {state : RunState}
    {failure : Option RunFailureKind} {kind : EventKind} {now n : Nat}
    (movable : Movable s run state failure kind n) :
    Steady s (moveRun s run state failure kind now n) where
  facts := rfl
  runs := by
    intro r' hr'
    obtain ⟨r, hr, rfl⟩ := Table.mem_modify.mp hr'
    refine ⟨r, hr, ?_⟩
    split
    case isTrue e =>
      obtain ⟨row, found, -, hstate⟩ := movable.found
      have hsame : r = row := Table.eq_of_key hkeyed hr (Table.find_mem found)
        (e.trans (Table.find_key found).symm)
      refine ⟨rfl, fun _ => ?_⟩
      rw [hsame, hstate]
      exact movable.running
    case isFalse => exact ⟨rfl, id⟩
  states := grown_columns (Table.modify_column _ fun _ => rfl)

/-- The end of a run. -/
theorem ended (hkeyed : Table.Keyed Run.id s.runs) {run : Run} {state : RunState}
    {failure : Option RunFailureKind} {kind : EventKind} {now : Nat}
    (movable : Movable s run state failure kind u.nextValue) :
    Steady s (endRun s u run state failure kind now) :=
  have moved : Steady s (moveRun s run state failure kind now u.nextValue) := move hkeyed movable
  ⟨moved.facts, moved.runs, moved.states⟩

end Steady

/-- The entries of a session lie within its transcript. -/
theorem Transcribed.place_le {states : List SessionRunState} {entries : List SessionEntry}
    {commands : List LocalCommand} (h : Transcribed states entries commands) {e : SessionEntry}
    (he : e ∈ entries) {r : SessionRunState} (hr : r ∈ states)
    (hsession : e.sessionId = r.sessionId) : e.entrySequence ≤ r.entryHighWater := by
  have hplace : e.entrySequence ∈ entryPlaces r.sessionId entries :=
    List.mem_filterMap.mpr ⟨e, he, if_pos hsession⟩
  have hrange := ((h r hr).2.mem_iff).mp (List.mem_append_left _ hplace)
  rw [List.mem_range'_1] at hrange
  omega

namespace Turned

theorem steady (h : Turned s) (k : Steady s t) (hentries : t.sessionEntries = s.sessionEntries) :
    Turned t where
  begun := by
    rw [hentries, k.facts]
    exact h.begun
  apart := by
    rw [hentries, k.facts]
    exact h.apart
  latest := by
    intro run' hrun' hrunning f hf hsession
    rw [k.facts] at hf
    obtain ⟨run, hrun, horigin, hrests⟩ := k.runs run' hrun'
    have hplace : run.place = run'.place := congrArg (·.binding.sourceEntryHighWater) horigin
    rw [← hplace]
    exact h.latest run hrun (hrests hrunning) f hf
      (hsession.trans (congrArg RunOrigin.sessionId horigin).symm)
  reached := by
    intro f hf r' hr' hsession
    rw [k.facts] at hf
    obtain ⟨r, hr, hsame, hwater⟩ := k.states r' hr'
    exact (h.reached f hf r hr (hsame.trans hsession)).trans hwater

theorem paused (h : Turned s) (p : Paused s t) : Turned t :=
  h.steady (.paused p) (by rw [p.frame])

/-- An entry of a run that is under way. -/
theorem entry (h : Turned s) (hid : Identified s) (hbound : Bound s) (k : Steady s t)
    {run : Run} {state : SessionRunState} {e : SessionEntry} (found : EntryAdmitted s run state)
    (hentries : t.sessionEntries = e :: s.sessionEntries) (hrun : e.runId = run.id)
    (hsession : e.sessionId = run.sessionId) (hplace : e.entrySequence = state.entryHighWater + 1)
    (hother : e.body.isUser = false) : Turned t := by
  have hstate := Table.find_mem found.foundState
  have hstateSession := Table.find_key found.foundState
  have hown : ∀ own ∈ s.runAcceptedFacts, own.runId = e.runId →
      own.place = run.place ∧ own.sessionId = run.sessionId := by
    intro own hmem hsame
    obtain ⟨f, hf, horigin⟩ := hbound.fact (Table.find_mem found.found)
    have heq : own = f := hid.acceptedFacts.eq_of_seq hmem hf
      ((hsame.trans hrun).trans (congrArg RunOrigin.id horigin).symm)
    rw [heq]
    exact ⟨congrArg (·.binding.sourceEntryHighWater) horigin, congrArg RunOrigin.sessionId horigin⟩
  have hlatest := h.latest run (Table.find_mem found.found) (by rw [found.active]; rfl)
  have hkept := h.steady (k := ⟨k.facts, k.runs, k.states⟩) (t := { t with
    sessionEntries := s.sessionEntries }) rfl
  refine ⟨?_, ?_, hkept.latest, hkept.reached⟩
  · intro x hx own hmem hsame
    rw [k.facts] at hmem
    rw [hentries] at hx
    rcases List.mem_cons.mp hx with rfl | hx
    · have hreached := h.reached own hmem state hstate
        (hstateSession.trans (hown own hmem hsame).2.symm)
      refine ⟨by omega, fun huser => ?_⟩
      rw [hother] at huser
      cases huser
    · exact h.begun x hx own hmem hsame
  · intro x hx own hmem hsame f hf hscope hle
    rw [k.facts] at hmem hf
    rw [hentries] at hx
    rcases List.mem_cons.mp hx with rfl | hx
    · rw [(hown own hmem hsame).1]
      exact hlatest f hf (hscope.trans hsession)
    · exact h.apart x hx own hmem hsame f hf hscope hle

/-- A run opens its turn above all that there is of its session. -/
theorem acceptance (h : Turned s) (hs : Sound s) {sessionId : SessionId} {session : Session}
    {state : SessionRunState} {binding : RunBinding} {f : RunAcceptedFact} {e : SessionEntry}
    {run : Run} (admitted : InputAdmitted s sessionId session state binding)
    (hfacts : t.runAcceptedFacts = f :: s.runAcceptedFacts)
    (hentries : t.sessionEntries = e :: s.sessionEntries) (hruns : t.runs = run :: s.runs)
    (hstates : Raised sessionId (state.entryHighWater + 1) s.sessionRunStates t.sessionRunStates)
    (hf : f.runId = s.nextIdentifier ∧ f.sessionId = sessionId ∧ f.place = state.entryHighWater + 1)
    (he : e.runId = s.nextIdentifier ∧ e.sessionId = sessionId ∧
      e.entrySequence = state.entryHighWater + 1)
    (hrun : run.sessionId = sessionId ∧ run.place = state.entryHighWater + 1) : Turned t := by
  obtain ⟨hrunId, hscope, hplace⟩ := hf
  obtain ⟨heRun, heSession, heSequence⟩ := he
  have hstate := Table.find_mem admitted.foundState
  have hstateSession := Table.find_key admitted.foundState
  have hold : ∀ g ∈ s.runAcceptedFacts, g.runId ≠ s.nextIdentifier :=
    fun g hg => (hs.identified.acceptedFacts.bounded g hg).ne
  have holdEntry : ∀ x ∈ s.sessionEntries, x.runId ≠ s.nextIdentifier := by
    intro x hx
    obtain ⟨g, hg, hsame, -⟩ := hs.scope.entries x hx
    exact hsame ▸ hold g hg
  have hbelow : ∀ g ∈ s.runAcceptedFacts, g.sessionId = sessionId →
      g.place ≤ state.entryHighWater :=
    fun g hg hsame => h.reached g hg state hstate (hstateSession.trans hsame.symm)
  constructor
  · intro x hx own hown hsame
    rw [hentries] at hx
    rw [hfacts] at hown
    rcases List.mem_cons.mp hx with rfl | hx <;> rcases List.mem_cons.mp hown with rfl | hown
    · exact ⟨by omega, fun _ => by omega⟩
    · exact absurd (hsame.trans heRun) (hold own hown)
    · exact absurd (hsame.symm.trans hrunId) (holdEntry x hx)
    · exact h.begun x hx own hown hsame
  · intro x hx own hown hsame g hg hsession hle
    rw [hentries] at hx
    rw [hfacts] at hown hg
    rcases List.mem_cons.mp hown with rfl | hown
    · rcases List.mem_cons.mp hx with rfl | hx
      · rcases List.mem_cons.mp hg with rfl | hg
        · exact le_rfl
        · have := hbelow g hg (hsession.trans heSession)
          omega
      · exact absurd (hsame.symm.trans hrunId) (holdEntry x hx)
    · rcases List.mem_cons.mp hx with rfl | hx
      · exact absurd (hsame.trans heRun) (hold own hown)
      · rcases List.mem_cons.mp hg with rfl | hg
        · have hinside := hs.transcribed.place_le hx hstate
            (hsession.symm.trans (hscope.trans hstateSession.symm))
          omega
        · exact h.apart x hx own hown hsame g hg hsession hle
  · intro r hr hrunning g hg hsession
    rw [hruns] at hr
    rw [hfacts] at hg
    rcases List.mem_cons.mp hr with rfl | hr
    · rcases List.mem_cons.mp hg with rfl | hg
      · omega
      · have := hbelow g hg (hsession.trans hrun.1)
        omega
    · rcases List.mem_cons.mp hg with rfl | hg
      · -- The session has no other run under way.
        have hactive := (hs.occupied.active state hstate r hr
          (hsession.symm.trans (hscope.trans hstateSession.symm))).mp hrunning
        rw [admitted.idle] at hactive
        cases hactive
      · exact h.latest r hr hrunning g hg hsession
  · intro g hg r' hr' hsession
    rw [hfacts] at hg
    obtain ⟨r, hr, hsame, hwater⟩ := hstates r' hr'
    rcases List.mem_cons.mp hg with rfl | hg
    · rw [hwater, if_pos (hsame.trans (hsession.trans hscope)), hplace]
    · refine (h.reached g hg r hr (hsame.trans hsession)).trans ?_
      obtain ⟨k, hk, hkSession, hkWater⟩ := grown_raised hs.aligned.keyedRunStates
        admitted.foundState hstates r' hr'
      have hrk : r = k := Table.eq_of_key hs.aligned.keyedRunStates hr hk
        (hsame.trans hkSession.symm)
      exact hrk ▸ hkWater

theorem cleanup (h : Turned s) (request : SessionDeleteRequest) :
    Turned (writeCleanup s request) where
  begun e he own hown := h.begun e (List.mem_of_mem_filter he) own (List.mem_of_mem_filter hown)
  apart e he own hown hsame f hf :=
    h.apart e (List.mem_of_mem_filter he) own (List.mem_of_mem_filter hown) hsame f
      (List.mem_of_mem_filter hf)
  latest run hrun hrunning f hf :=
    h.latest run (List.mem_of_mem_filter hrun) hrunning f (List.mem_of_mem_filter hf)
  reached f hf r hr := h.reached f (List.mem_of_mem_filter hf) r (List.mem_of_mem_filter hr)

theorem write (h : Turned s) (hs : Sound s) (w : Write d s t) : Turned t := by
  have hkeyed := hs.bound.keyed hs.identified
  have hstates := hs.aligned.keyedRunStates
  cases w with
  | recovery u now paused => exact h.paused (pause_paused paused)
  | steering mutation u item now fresh text admitted applied =>
    rw [(steering_frame applied).2]
    exact h.steady (.columns rfl rfl rfl) rfl
  | archiveRequest requestId fingerprint sessionId archived now u fresh found paused =>
    refine Turned.paused ?_ (requestArchive_paused paused)
    exact h.steady (.columns rfl rfl rfl) rfl
  | session request found dispatched =>
    have hnone : ∀ f ∈ s.runAcceptedFacts, f.sessionId ≠ request.sessionId := by
      intro f hf e
      have hsession := hs.bound.sessions f hf
      rw [hs.aligned.sessionIds] at hsession
      obtain ⟨g, hg, hsame⟩ := List.mem_map.mp hsession
      exact hs.aligned.uncreated hs.identified (Table.find_mem found) (by simp [dispatched]) g hg
        (hsame.trans e)
    refine ⟨h.begun, h.apart, h.latest, fun f hf r hr hsession => ?_⟩
    rcases List.mem_cons.mp hr with rfl | hr
    · exact absurd hsession.symm (hnone f hf)
    · exact h.reached f hf r hr hsession
  | acceptance requestId fingerprint sessionId session state binding checkpoint text context now fresh
      admitted =>
    refine h.acceptance hs admitted rfl rfl rfl ?_ ⟨rfl, rfl, admitted.highWater⟩
      ⟨rfl, rfl, admitted.highWater⟩ ⟨rfl, admitted.highWater⟩
    intro r' hr'
    obtain ⟨r, hr, rfl⟩ := List.mem_map.mp hr'
    refine ⟨r, hr, ?_⟩
    by_cases e : r.sessionId = sessionId
    · have hsame : r = state := Table.eq_of_key hstates hr (Table.find_mem admitted.foundState)
        (e.trans (Table.find_key admitted.foundState).symm)
      have hfree : r.activeRunId = none := by
        rw [hsame]
        exact admitted.idle
      simp [e, hfree, admitted.highWater]
    · simp [e]
  | activate run now n movable => exact h.steady (.move hkeyed movable) rfl
  | outcome => exact h.steady .outcome rfl
  | finish run outcome state failure kind now u found admitted stopped paused movable =>
    cases outcome with
    | none => exact h.steady (.ended hkeyed movable) rfl
    | some fact =>
      exact h.steady (Steady.outcome.trans (.ended (Bound.outcome_keyed hkeyed) movable)) rfl
  | answer run state fact assistant now u entry admitted completed paused =>
    have hanswered : Steady s (writeFinalEntry (writeProviderOutcome s run fact) run assistant
        (state.entryHighWater + 1) now) :=
      Steady.outcome.trans ⟨rfl, rested_columns rfl, grown_raised hstates entry.foundState
        (raised_modify (fun _ => rfl) fun _ => rfl)⟩
    have hwritten : Table.Keyed Run.id (writeFinalEntry (writeProviderOutcome s run fact) run
        assistant (state.entryHighWater + 1) now).runs := Bound.outcome_keyed hkeyed
    exact h.entry hs.identified hs.bound (hanswered.trans (Steady.ended hwritten
      (entry.answer_movable completed (pauseEnded_number paused)))) entry rfl rfl rfl rfl rfl
  | cancellation requestId fingerprint run now fresh foundSession found room recordable canonical u
      paused =>
    refine Turned.paused (s := writeCancellation s requestId fingerprint run now)
      (h.steady (.columns rfl ?_ ?_) rfl) (cancelled_paused paused)
    · simp only [writeCancellation]
      split
      · exact Table.modify_column _ fun _ => rfl
      · rfl
    · simp only [writeCancellation]
      split
      · exact Table.modify_column _ fun _ => rfl
      · rfl
  | commentary run state text refusal now entry =>
    exact h.entry hs.identified hs.bound ⟨rfl, rested_columns rfl,
      grown_raised hstates entry.foundState (raised_modify (fun _ => rfl) fun _ => rfl)⟩ entry rfl
      rfl rfl rfl rfl
  | toolCall run state providerOperationId call callIndex now entry =>
    exact h.entry hs.identified hs.bound ⟨rfl, rested_columns (Table.modify_column _ fun _ => rfl),
      grown_raised hstates entry.foundState (raised_modify (fun _ => rfl) fun _ => rfl)⟩ entry rfl
      rfl rfl rfl rfl
  | toolResult run state call result factKind resultStatus now active entry =>
    exact h.entry hs.identified hs.bound ⟨rfl, rested_columns (Table.modify_column _ fun _ => rfl),
      grown_raised hstates entry.foundState (raised_modify (fun _ => rfl) fun _ => rfl)⟩ entry rfl
      rfl rfl rfl rfl
  | toolUncertain run state call result factKind resultStatus now u active entry prepared open_
      classified uncertain payload stops paused =>
    have hrecorded : Steady s (recordToolResult s run call result factKind resultStatus
        (state.entryHighWater + 1) now) :=
      ⟨rfl, rested_columns (Table.modify_column _ fun _ => rfl),
        grown_raised hstates entry.foundState (raised_modify (fun _ => rfl) fun _ => rfl)⟩
    have hwritten : Table.Keyed Run.id (recordToolResult s run call result factKind resultStatus
        (state.entryHighWater + 1) now).runs := hkeyed.modify fun _ => rfl
    exact h.entry hs.identified hs.bound (hrecorded.trans (Steady.ended hwritten
      (active.uncertain_movable (pauseEnded_number paused)))) entry rfl rfl rfl rfl rfl
  | commandAcceptance =>
    exact h.steady (.columns rfl rfl (Table.modify_column _ fun _ => rfl)) rfl
  | commandResult row state result now found running canonical payload foundState =>
    exact h.steady ⟨rfl, rested_columns rfl,
      grown_raised hstates foundState (raised_modify (fun _ => rfl) fun _ => rfl)⟩ rfl
  | cleanup request => exact h.cleanup request
  | _ => exact h.steady (.columns rfl rfl rfl) rfl

end Turned

/-! ## The calls of a provider turn -/

/-- A provider operation is of one run, and so are the calls it answered with. -/
structure Batched (s : Store) : Prop where
  owned : ∀ f ∈ s.providerOperationFacts, ∀ g ∈ s.providerOperationFacts,
    f.operationId = g.operationId → f.runId = g.runId
  called : ∀ c ∈ s.toolCalls, ∃ f ∈ s.providerOperationFacts,
    f.operationId = c.providerOperationId ∧ f.runId = c.runId

theorem batched_empty : Batched Store.empty := by
  constructor <;> simp [Store.empty]

namespace Batched

/-- The calls of one operation are of one run. -/
theorem shared (h : Batched s) {a b : ToolCall} (ha : a ∈ s.toolCalls) (hb : b ∈ s.toolCalls)
    (e : b.providerOperationId = a.providerOperationId) : b.runId = a.runId := by
  obtain ⟨f, hf, hfOperation, hfRun⟩ := h.called a ha
  obtain ⟨g, hg, hgOperation, hgRun⟩ := h.called b hb
  rw [← hgRun, ← hfRun]
  exact h.owned g hg f hf (hgOperation.trans (e.trans hfOperation.symm))

theorem kept (h : Batched s) (hfacts : t.providerOperationFacts = s.providerOperationFacts)
    (hcalls : t.toolCalls = s.toolCalls) : Batched t := by
  constructor
  · rw [hfacts]
    exact h.owned
  · rw [hfacts, hcalls]
    exact h.called

/-- A fact of an operation that is new, or of the same run. -/
theorem fact (h : Batched s) {fact : ProviderOperationFact}
    (hfacts : t.providerOperationFacts = fact :: s.providerOperationFacts)
    (hcalls : t.toolCalls = s.toolCalls)
    (hown : ∀ f ∈ s.providerOperationFacts, f.operationId = fact.operationId →
      f.runId = fact.runId) : Batched t := by
  constructor
  · rw [hfacts]
    intro f hf g hg e
    rcases List.mem_cons.mp hf with rfl | holdF <;> rcases List.mem_cons.mp hg with rfl | holdG
    · rfl
    · exact (hown g holdG e.symm).symm
    · exact hown f holdF e
    · exact h.owned f holdF g holdG e
  · rw [hfacts, hcalls]
    intro c hc
    obtain ⟨f, hf, hsame⟩ := h.called c hc
    exact ⟨f, List.mem_cons_of_mem _ hf, hsame⟩

theorem outcome (h : Batched s) {run : Run} {fact : ProviderOperationFact}
    (admitted : OutcomeAdmitted s run fact) : Batched (writeProviderOutcome s run fact) := by
  obtain ⟨g, hg, hoperation, hrun, -⟩ := admitted.known
  have hcalls : (writeProviderOutcome s run fact).toolCalls = s.toolCalls := rfl
  refine h.fact rfl hcalls fun f hf e => ?_
  rw [h.owned f hf g hg (e.trans hoperation.symm), hrun, admitted.ofRun]

theorem cleanup (h : Batched s) (hs : Sound s) (request : SessionDeleteRequest) :
    Batched (writeCleanup s request) where
  owned f hf g hg := h.owned f (List.mem_of_mem_filter hf) g (List.mem_of_mem_filter hg)
  called c hc := by
    obtain ⟨hc, hother⟩ := List.mem_filter.mp hc
    obtain ⟨f, hf, hoperation, hrun⟩ := h.called c hc
    refine ⟨f, List.mem_filter.mpr ⟨hf, decide_eq_true fun hgone => ?_⟩, hoperation, hrun⟩
    obtain ⟨g, hg, hsame⟩ := List.mem_map.mp hgone
    obtain ⟨hg, hgSession⟩ := List.mem_filter.mp hg
    obtain ⟨own, hown, hownRun, hownSession, -⟩ := hs.scope.toolCalls c hc
    have heq : g = own := hs.identified.acceptedFacts.eq_of_seq hg hown
      (hsame.trans (hrun.trans hownRun.symm))
    refine of_decide_eq_true hother ?_
    rw [← hownSession, ← heq]
    exact of_decide_eq_true hgSession

theorem write (h : Batched s) (hs : Sound s) (w : Write d s t) : Batched t := by
  cases w with
  | recovery u now paused =>
    rw [(pause_paused paused).frame]
    exact h.kept rfl rfl
  | steering mutation u item now fresh text admitted applied =>
    rw [(steering_frame applied).2]
    exact h.kept rfl rfl
  | archiveRequest requestId fingerprint sessionId archived now u fresh found paused =>
    rw [(requestArchive_paused paused).frame]
    exact h.kept rfl rfl
  | cancellation requestId fingerprint run now fresh foundSession found room recordable canonical u
      paused =>
    rw [(cancelled_paused paused).frame]
    exact h.kept rfl rfl
  | prepare run state =>
    exact h.fact (t := writeProviderFact _ _ _) rfl rfl fun f hf e =>
      absurd e (hs.identified.operations f hf).ne
  | dispatch run operationId now found active known =>
    obtain ⟨g, hg, hoperation, hrun, -⟩ := known
    refine h.fact (t := writeProviderFact _ _ _) rfl rfl fun f hf e => ?_
    exact (h.owned f hf g hg (e.trans hoperation.symm)).trans hrun
  | outcome run fact found active admitted => exact h.outcome admitted
  | finish run outcome state failure kind now u found admitted =>
    cases outcome with
    | none => exact h.kept rfl rfl
    | some fact => exact (h.outcome (admitted fact rfl)).kept rfl rfl
  | answer run state fact assistant now u entry admitted =>
    exact (h.outcome admitted).kept rfl rfl
  | toolCall run state providerOperationId call callIndex now entry completed =>
    refine ⟨h.owned, fun c hc => ?_⟩
    rcases List.mem_cons.mp hc with rfl | hc
    · obtain ⟨f, hf, hoperation, hrun, -⟩ := completed
      exact ⟨f, hf, hoperation, hrun⟩
    · exact h.called c hc
  | cleanup request => exact h.cleanup hs request
  | _ => exact h.kept rfl rfl

end Batched

theorem Reachable.turned {allowed : Environment → Store → Operation → Prop}
    (h : Reachable allowed s) : Turned s ∧ Batched s := by
  have hall : Sound s ∧ Turned s ∧ Batched s := by
    refine h.obeying_none.writes.invariant (I := fun s => Sound s ∧ Turned s ∧ Batched s) ?_ ?_
    · rintro _ rfl
      exact ⟨sound_empty, turned_empty, batched_empty⟩
    · rintro _ _ ⟨hsound, hturned, hbatched⟩ w
      exact ⟨hsound.write w, hturned.write hsound w, hbatched.write hsound w⟩
  exact hall.2

end Morons
