import Morons.Invariant.Claims

/-!
# Columns of the projections

A session is shown under the name of its newest rename, or under the name it was
created with.  A run that has ended keeps the number and the time of the fact
that ended it.
-/

namespace Morons

variable {d : Discipline} {s t : Store}

/-! ## Display names -/

def Session.title (r : Session) : SessionId × Option String := (r.id, r.displayName)

/-- The name the facts give a session. -/
def SessionCreatedFact.title (renames : List SessionRenameRequest) (f : SessionCreatedFact) :
    SessionId × Option String :=
  (f.sessionId,
    ((Table.find SessionRenameRequest.sessionId f.sessionId renames).map (·.displayName)).or
      f.displayName)

def Titled (s : Store) : Prop :=
  s.sessions.map Session.title =
    s.sessionCreatedFacts.map (SessionCreatedFact.title s.sessionRenameRequests)

theorem titled_empty : Titled Store.empty := rfl

namespace Titled

/-- The rows of the sessions change, but not their names. -/
theorem kept (h : Titled s) (hfacts : t.sessionCreatedFacts = s.sessionCreatedFacts)
    (hrenames : t.sessionRenameRequests = s.sessionRenameRequests)
    (hsessions : t.sessions.map Session.title = s.sessions.map Session.title) : Titled t := by
  rw [Titled, hfacts, hrenames, hsessions]
  exact h

theorem paused (h : Titled s) (p : Paused s t) : Titled t := by
  rw [p.frame]
  exact h

theorem move (h : Titled s) {run : Run} {state : RunState} {failure : Option RunFailureKind}
    {kind : EventKind} {now n : Nat} : Titled (moveRun s run state failure kind now n) :=
  h.kept rfl rfl (Table.modify_column _ fun _ => rfl)

theorem ended (h : Titled s) {run : Run} {state : RunState} {failure : Option RunFailureKind}
    {kind : EventKind} {now : Nat} {u : Store} : Titled (endRun s u run state failure kind now) :=
  h.move (n := u.nextValue)

theorem outcome (h : Titled s) {run : Run} {fact : ProviderOperationFact} :
    Titled (writeProviderOutcome s run fact) :=
  h

theorem finalEntry (h : Titled s) {run : Run} {assistant : CompletedAssistant}
    {entrySequence now : Nat} : Titled (writeFinalEntry s run assistant entrySequence now) :=
  h

theorem toolResult (h : Titled s) {run : Run} {call : ToolCall} {result : ToolResult}
    {factKind : ToolFactKind} {resultStatus : ToolResultStatus} {entrySequence now : Nat} :
    Titled (recordToolResult s run call result factKind resultStatus entrySequence now) :=
  h.kept rfl rfl (Table.modify_column _ fun _ => rfl)

/-- A new session has not been renamed. -/
theorem session (h : Titled s) (hs : Sound s) (hl : Lodged s) {request : SessionCreationRequest}
    (hrequest : request ∈ s.sessionCreationRequests)
    (dispatched : request.state = .workspaceDispatched) :
    Titled (writeSession (s.drawn (s.nextValue + 1) (s.nextIdentifier + 1)) request
      s.nextIdentifier s.nextValue) := by
  have hnone : Table.find SessionRenameRequest.sessionId request.sessionId
      s.sessionRenameRequests = none := by
    refine Table.find_none.mpr fun r hr hsession => ?_
    obtain ⟨f, hf, hfact⟩ := hl.renames r hr
    exact hs.aligned.uncreated hs.identified hrequest (by simp [dispatched]) f hf
      (hfact.trans hsession)
  have htitle : SessionCreatedFact.title s.sessionRenameRequests
      ⟨s.nextValue, request.requestId, request.sessionId, request.workspaceId,
        request.displayName, request.workingDirectory, request.acceptedSequence,
        request.acceptedAtMilliseconds, s.nextIdentifier⟩ =
      (request.sessionId, request.displayName) := by
    rw [SessionCreatedFact.title, hnone]
    rfl
  refine (congrArg (List.cons _) h).trans ?_
  exact congrArg (fun x => x :: _) htitle.symm

/-- A rename gives the session its name. -/
theorem rename (h : Titled s) {requestId : MutationRequestId} {fingerprint : Fingerprint}
    {sessionId : SessionId} {displayName : String} {now n i : Nat} {eventId : DeliveryEventId}
    {sequence : Nat} :
    Titled (writeRename (s.drawn n i) requestId fingerprint sessionId displayName eventId sequence
      now) := by
  let renamed := fun x : SessionId × Option String =>
    if x.1 = sessionId then (x.1, some displayName) else x
  have hsessions : (writeRename (s.drawn n i) requestId fingerprint sessionId displayName eventId
      sequence now).sessions.map Session.title = (s.sessions.map Session.title).map renamed := by
    refine (List.map_map ..).trans (Eq.trans ?_ (List.map_map ..).symm)
    refine List.map_congr_left fun r _ => ?_
    by_cases hid : r.id = sessionId <;> simp [Session.title, renamed, hid]
  have hfacts : s.sessionCreatedFacts.map (SessionCreatedFact.title
      (⟨requestId, fingerprint, sessionId, displayName, sequence, now, eventId⟩ ::
        s.sessionRenameRequests)) =
      (s.sessionCreatedFacts.map
        (SessionCreatedFact.title s.sessionRenameRequests)).map renamed := by
    refine Eq.trans ?_ (List.map_map ..).symm
    refine List.map_congr_left fun f _ => ?_
    by_cases hid : f.sessionId = sessionId
    · simp [SessionCreatedFact.title, renamed, hid, Table.find_cons]
    · have hne : sessionId ≠ f.sessionId := fun e => hid e.symm
      simp [SessionCreatedFact.title, renamed, hid, hne, Table.find_cons]
  exact hsessions.trans ((congrArg (List.map renamed) h).trans hfacts.symm)

theorem cleanup (h : Titled s) (request : SessionDeleteRequest) :
    Titled (writeCleanup s request) := by
  have hfiltered := Table.filter_column
    (fun x : SessionId × Option String => decide (x.1 ≠ request.sessionId)) h
  refine hfiltered.trans (List.map_congr_left fun f hf => ?_)
  have hother : f.sessionId ≠ request.sessionId := of_decide_eq_true (List.mem_filter.mp hf).2
  have hfind : Table.find SessionRenameRequest.sessionId f.sessionId
      (s.sessionRenameRequests.filter fun r => r.sessionId ≠ request.sessionId) =
      Table.find SessionRenameRequest.sessionId f.sessionId s.sessionRenameRequests :=
    Table.find_kept fun r _ hkey => by simpa [hkey] using hother
  have hrenames : (writeCleanup s request).sessionRenameRequests =
      s.sessionRenameRequests.filter fun r => r.sessionId ≠ request.sessionId := rfl
  rw [SessionCreatedFact.title, SessionCreatedFact.title, hrenames, hfind]

theorem write (h : Titled s) (hs : Sound s) (hl : Lodged s) (w : Write d s t) : Titled t := by
  cases w with
  | recovery u now paused => exact h.paused (pause_paused paused)
  | steering mutation u item now fresh text admitted applied =>
    rw [(steering_frame applied).2]
    exact h
  | archiveRequest requestId fingerprint sessionId archived now u fresh found paused =>
    refine Titled.paused ?_ (requestArchive_paused paused)
    exact h
  | session request found dispatched => exact h.session hs hl (Table.find_mem found) dispatched
  | rename => exact h.rename
  | archive => exact h.kept rfl rfl (Table.modify_column _ fun _ => rfl)
  | cleanup request => exact h.cleanup request
  | acceptance => exact h.kept rfl rfl (Table.modify_column _ fun _ => rfl)
  | activate => exact h.move
  | finish run outcome =>
    cases outcome with
    | none => exact h.ended
    | some fact => exact h.outcome.ended
  | outcome => exact h.outcome
  | answer => exact h.outcome.finalEntry.ended
  | cancellation requestId fingerprint run now fresh foundSession found room recordable canonical u
      paused =>
    refine Titled.paused ?_ (cancelled_paused paused)
    refine h.kept rfl rfl ?_
    simp only [writeCancellation]
    split
    · exact Table.modify_column _ fun _ => rfl
    · rfl
  | commentary | toolCall | commandAcceptance | commandResult =>
    exact h.kept rfl rfl (Table.modify_column _ fun _ => rfl)
  | toolResult => exact h.toolResult
  | toolUncertain => exact h.toolResult.ended
  | _ => exact h

end Titled

/-- **Sessions go by the name of their newest rename**, in every reachable store. -/
theorem Reachable.titled {allowed : Environment → Store → Operation → Prop}
    (h : Reachable allowed s) : Titled s := by
  have hall : (Sound s ∧ Lodged s) ∧ Titled s := by
    refine h.obeying_none.writes.invariant (I := fun s => (Sound s ∧ Lodged s) ∧ Titled s) ?_ ?_
    · rintro _ rfl
      exact ⟨⟨sound_empty, lodged_empty⟩, titled_empty⟩
    · rintro _ _ ⟨⟨hsound, hlodged⟩, htitled⟩ w
      exact ⟨⟨hsound.write w, hlodged.write hsound w⟩, htitled.write hsound hlodged w⟩
  exact hall.2

/-! ## Last changes -/

/-- The last change of a run. -/
structure RunStamp where
  runId : RunId
  updatedSequence : Nat
  updatedAtMilliseconds : Nat

def Run.stamp (r : Run) : RunStamp := ⟨r.id, r.updatedSequence, r.updatedAtMilliseconds⟩

def RunStateFact.stamp (f : RunStateFact) : RunStamp :=
  ⟨f.runId, f.factSequence, f.createdAtMilliseconds⟩

def Stamped (s : Store) : Prop := ∀ run ∈ s.runs, run.state.isTerminal = true →
  ∃ f ∈ s.runStateFacts, f.stamp = run.stamp

theorem stamped_empty : Stamped Store.empty := by simp [Stamped, Store.empty]

namespace Stamped

/-- Runs that have ended stay as they are. -/
theorem kept (h : Stamped s) (hfacts : s.runStateFacts ⊆ t.runStateFacts)
    (hruns : ∀ r' ∈ t.runs, r'.state.isTerminal = true →
      ∃ r ∈ s.runs, r.state.isTerminal = true ∧ r.stamp = r'.stamp) : Stamped t := by
  intro r' hr' hterminal
  obtain ⟨r, hr, hbefore, hstamp⟩ := hruns r' hr' hterminal
  obtain ⟨f, hf, hfact⟩ := h r hr hbefore
  exact ⟨f, hfacts hf, hfact.trans hstamp⟩

/-- The row of a running run is rewritten. -/
theorem rewritten (h : Stamped s) (hkeyed : Table.Keyed Run.id s.runs) {run : Run} {f : Run → Run}
    (found : loadRun s run.id = some run) (hrunning : run.state.isTerminal = false)
    (hf : ∀ r, (f r).state = r.state) (hfacts : t.runStateFacts = s.runStateFacts)
    (hruns : t.runs = Table.modify Run.id run.id f s.runs) : Stamped t := by
  refine h.kept (by simp [hfacts]) fun r' hr' hterminal => ?_
  rw [hruns] at hr'
  obtain ⟨r, hr, rfl⟩ := Table.mem_modify.mp hr'
  by_cases hid : r.id = run.id
  · have hsame : r = run := Table.eq_of_key hkeyed hr (Table.find_mem found) hid
    rw [if_pos hid, hf, hsame, hrunning] at hterminal
    cases hterminal
  · rw [if_neg hid] at hterminal ⊢
    exact ⟨r, hr, hterminal, rfl⟩

theorem paused (h : Stamped s) (p : Paused s t) : Stamped t := by
  rw [p.frame]
  exact h

/-- A transition puts its number and its time in the row. -/
theorem move (h : Stamped s) {run : Run} {state : RunState} {failure : Option RunFailureKind}
    {kind : EventKind} {now n : Nat} : Stamped (moveRun s run state failure kind now n) := by
  intro r' hr' hterminal
  obtain ⟨r, hr, rfl⟩ := Table.mem_modify.mp hr'
  by_cases hid : r.id = run.id
  · rw [if_pos hid]
    exact ⟨_, List.mem_cons_self .., by simp [RunStateFact.stamp, Run.stamp, hid]⟩
  · rw [if_neg hid] at hterminal ⊢
    obtain ⟨f, hf, hstamp⟩ := h r hr hterminal
    exact ⟨f, List.mem_cons_of_mem _ hf, hstamp⟩

theorem ended (h : Stamped s) {run : Run} {state : RunState} {failure : Option RunFailureKind}
    {kind : EventKind} {now : Nat} {u : Store} : Stamped (endRun s u run state failure kind now) :=
  h.move (n := u.nextValue)

/-- A turn is counted whether or not the run has ended. -/
theorem outcome (h : Stamped s) {run : Run} {fact : ProviderOperationFact} :
    Stamped (writeProviderOutcome s run fact) := by
  by_cases hkind : fact.factKind = .completed
  · have hruns : (writeProviderOutcome s run fact).runs = Table.modify Run.id run.id
        (fun r => { r with providerTurns := run.providerTurns + 1 }) s.runs := if_pos hkind
    refine h.kept (List.Subset.refl _) fun r' hr' hterminal => ?_
    rw [hruns] at hr'
    obtain ⟨r, hr, rfl⟩ := Table.mem_modify.mp hr'
    refine ⟨r, hr, ?_, ?_⟩
    · split at hterminal <;> exact hterminal
    · split <;> rfl
  · have hruns : (writeProviderOutcome s run fact).runs = s.runs := if_neg hkind
    refine h.kept (List.Subset.refl _) fun r' hr' hterminal => ?_
    rw [hruns] at hr'
    exact ⟨r', hr', hterminal, rfl⟩

theorem toolResult (h : Stamped s) (hkeyed : Table.Keyed Run.id s.runs) {run : Run}
    {call : ToolCall} {result : ToolResult} {factKind : ToolFactKind}
    {resultStatus : ToolResultStatus} {entrySequence now : Nat}
    (found : loadRun s run.id = some run) (active : run.state = .active) :
    Stamped (recordToolResult s run call result factKind resultStatus entrySequence now) :=
  h.rewritten (f := fun r => { r with
    toolResultBytes := run.toolResultBytes + result.payloadBytes
    updatedSequence := s.nextValue + 1
    updatedAtMilliseconds := now }) hkeyed found (by simp [active, RunState.isTerminal])
    (fun _ => rfl) rfl rfl

theorem finalEntry (h : Stamped s) {run : Run} {assistant : CompletedAssistant}
    {entrySequence now : Nat} : Stamped (writeFinalEntry s run assistant entrySequence now) :=
  h

theorem cleanup (h : Stamped s) (hs : Sound s) (request : SessionDeleteRequest) :
    Stamped (writeCleanup s request) := by
  intro run hrun hterminal
  obtain ⟨hrun, hother⟩ := List.mem_filter.mp hrun
  obtain ⟨f, hf, hstamp⟩ := h run hrun hterminal
  obtain ⟨a, ha, hid, hsession, -⟩ := hs.scope.stateFacts f hf
  have hsame := hs.bound.session_eq hs.identified hrun ha
    (hid.trans (congrArg RunStamp.runId hstamp))
  exact ⟨f, List.mem_filter.mpr ⟨hf, by rw [← hsession, hsame]; exact hother⟩, hstamp⟩

theorem write (h : Stamped s) (hs : Sound s) (w : Write d s t) : Stamped t := by
  have hkeyed := hs.bound.keyed hs.identified
  cases w with
  | recovery u now paused => exact h.paused (pause_paused paused)
  | steering mutation u item now fresh text admitted applied =>
    rw [(steering_frame applied).2]
    exact h
  | archiveRequest requestId fingerprint sessionId archived now u fresh found paused =>
    refine Stamped.paused ?_ (requestArchive_paused paused)
    exact h
  | cleanup request => exact h.cleanup hs request
  | acceptance =>
    refine h.kept (List.Subset.refl _) fun r hr hterminal => ?_
    rcases List.mem_cons.mp hr with rfl | hr
    · cases hterminal
    · exact ⟨r, hr, hterminal, rfl⟩
  | activate => exact h.move
  | outcome => exact h.outcome
  | finish run outcome =>
    cases outcome with
    | none => exact h.ended
    | some fact => exact h.outcome.ended
  | answer => exact h.outcome.finalEntry.ended
  | cancellation requestId fingerprint run now fresh foundSession found room recordable canonical u
      paused =>
    refine Stamped.paused ?_ (cancelled_paused paused)
    cases happlied : !run.state.isTerminal && !run.cancellationRequested with
    | false =>
      have hruns : (writeCancellation s requestId fingerprint run now).runs = s.runs := by
        rw [writeCancellation, happlied]
        rfl
      refine h.kept (List.Subset.refl _) fun r hr hterminal => ?_
      rw [hruns] at hr
      exact ⟨r, hr, hterminal, rfl⟩
    | true =>
      refine h.rewritten (f := fun r => { r with
        cancellationRequested := true
        updatedSequence := s.nextValue
        updatedAtMilliseconds := now }) hkeyed found ?_ (fun _ => rfl) rfl (if_pos happlied)
      simpa using (Bool.and_eq_true_iff.mp happlied).1
  | toolCall run state providerOperationId call callIndex now entry =>
    exact h.rewritten (f := fun r => { r with
      toolCalls := run.toolCalls + 1
      toolMutations := run.toolMutations + if call.input.kind.isMutation then 1 else 0
      updatedSequence := s.nextValue + 1
      updatedAtMilliseconds := now }) hkeyed entry.found
      (by simp [entry.active, RunState.isTerminal]) (fun _ => rfl) rfl rfl
  | toolResult run state call result factKind resultStatus now active =>
    exact h.toolResult hkeyed active.found active.active
  | toolUncertain run state call result factKind resultStatus now u active =>
    exact (h.toolResult hkeyed active.found active.active).ended
  | _ => exact h

end Stamped

theorem Reachable.stamped {allowed : Environment → Store → Operation → Prop}
    (h : Reachable allowed s) : Stamped s := by
  have hboth : Sound s ∧ Stamped s := by
    refine h.obeying_none.writes.invariant (I := fun s => Sound s ∧ Stamped s) ?_ ?_
    · rintro _ rfl
      exact ⟨sound_empty, stamped_empty⟩
    · rintro _ _ ⟨hsound, hstamped⟩ w
      exact ⟨hsound.write w, hstamped.write hsound w⟩
  exact hboth.2

end Morons
