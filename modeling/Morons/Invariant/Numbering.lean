import Morons.Write.Blocks

/-!
# Numbers and identifiers

Every number and every identifier in the tables was drawn from its counter,
and a table that is only added to lists its rows newest first.
-/

namespace Morons

open Ledger

variable {d : Discipline} {s t : Store}

/-- The numbers of the rows. -/
structure Numbered (s : Store) : Prop where
  positive : 0 < s.nextValue
  mutationRequests : Below MutationRequest.acceptedSequence s.nextValue s.mutationRequests
  creationRequests : Below SessionCreationRequest.acceptedSequence s.nextValue
    s.sessionCreationRequests
  createdFacts : Below SessionCreatedFact.factSequence s.nextValue s.sessionCreatedFacts
  renames : Below SessionRenameRequest.acceptedSequence s.nextValue s.sessionRenameRequests
  archives : Below SessionArchiveRequest.acceptedSequence s.nextValue s.sessionArchiveRequests
  deletes : Below SessionDeleteRequest.acceptedSequence s.nextValue s.sessionDeleteRequests
  acceptedFacts : Below RunAcceptedFact.factSequence s.nextValue s.runAcceptedFacts
  stateFacts : Below RunStateFact.factSequence s.nextValue s.runStateFacts
  cancellations : Below RunCancellationRequest.factSequence s.nextValue s.runCancellationRequests
  providerFacts : Below ProviderOperationFact.factSequence s.nextValue s.providerOperationFacts
  entries : Below SessionEntry.factSequence s.nextValue s.sessionEntries
  toolCalls : Below ToolCall.factSequence s.nextValue s.toolCalls
  toolFacts : Below ToolOperationFact.factSequence s.nextValue s.toolOperationFacts
  commands : Below LocalCommand.acceptedSequence s.nextValue s.localCommands
  commandUpdates : ∀ c ∈ s.localCommands, c.updatedSequence < s.nextValue
  commandCancellations : Below LocalCommandCancellation.acceptedSequence s.nextValue
    s.localCommandCancellations
  events : ∀ e ∈ s.deliveryEvents, e.eventSequence < s.nextValue

theorem numbered_empty : Numbered Store.empty := by
  constructor <;> first | exact below_nil | simp [Store.empty]

theorem Numbered.drawn (h : Numbered s) {n i : Nat} (hn : s.nextValue ≤ n) :
    Numbered (s.drawn n i) where
  positive := lt_of_lt_of_le h.positive hn
  mutationRequests := h.mutationRequests.mono hn
  creationRequests := h.creationRequests.mono hn
  createdFacts := h.createdFacts.mono hn
  renames := h.renames.mono hn
  archives := h.archives.mono hn
  deletes := h.deletes.mono hn
  acceptedFacts := h.acceptedFacts.mono hn
  stateFacts := h.stateFacts.mono hn
  cancellations := h.cancellations.mono hn
  providerFacts := h.providerFacts.mono hn
  entries := h.entries.mono hn
  toolCalls := h.toolCalls.mono hn
  toolFacts := h.toolFacts.mono hn
  commands := h.commands.mono hn
  commandUpdates c hc := lt_of_lt_of_le (h.commandUpdates c hc) hn
  commandCancellations := h.commandCancellations.mono hn
  events e he := lt_of_lt_of_le (h.events e he) hn

theorem Numbered.paused (h : Numbered s) (p : Paused s t) : Numbered t := by
  rw [p.frame]
  exact { h.drawn (i := s.nextIdentifier) p.forward with }

/-- One more event, with a number that is drawn. -/
theorem events_cons {event : DeliveryEvent} {events : List DeliveryEvent} {n m : Nat}
    (h : ∀ e ∈ events, e.eventSequence < n) (hn : n ≤ m) (hevent : event.eventSequence < m) :
    ∀ e ∈ event :: events, e.eventSequence < m := by
  intro e he
  rcases List.mem_cons.mp he with rfl | he
  · exact hevent
  · exact lt_of_lt_of_le (h e he) hn

theorem Numbered.move (h : Numbered s) {run : Run} {state : RunState}
    {failure : Option RunFailureKind} {kind : EventKind} {now n : Nat} (hn : s.nextValue < n) :
    Numbered (moveRun s run state failure kind now n) :=
  { h.drawn (i := s.nextIdentifier + 1) (Nat.le_succ_of_le hn.le) with
    stateFacts := h.stateFacts.cons le_rfl (Nat.lt_succ_of_lt hn)
    events := events_cons h.events (Nat.le_succ_of_le hn.le) (Nat.lt_succ_of_lt hn) }

theorem Numbered.ended (h : Numbered s) {run : Run} {state : RunState}
    {failure : Option RunFailureKind} {kind : EventKind} {now : Nat} {u : Store}
    (hu : s.nextValue < u.nextValue) : Numbered (endRun s u run state failure kind now) :=
  { h.move hu with }

theorem Numbered.providerFact (h : Numbered s) (run : Run) {fact : ProviderOperationFact}
    (hfact : fact.factSequence = s.nextValue) : Numbered (writeProviderFact s run fact) :=
  { h.drawn (i := s.nextIdentifier) (Nat.le_add_right s.nextValue 2) with
    providerFacts := h.providerFacts.cons (by omega) (by
      show _ < s.nextValue + 2
      omega) }

theorem Numbered.outcome (h : Numbered s) {run : Run} {fact : ProviderOperationFact}
    (hfact : fact.factSequence = s.nextValue) : Numbered (writeProviderOutcome s run fact) :=
  { h.providerFact run hfact with }

theorem Numbered.finalEntry (h : Numbered s) {run : Run} {assistant : CompletedAssistant}
    {entrySequence now : Nat} : Numbered (writeFinalEntry s run assistant entrySequence now) :=
  { h.drawn (i := s.nextIdentifier + 2) (Nat.le_succ s.nextValue) with
    entries := h.entries.cons le_rfl (Nat.lt_succ_self _)
    events := events_cons h.events (Nat.le_succ _) (Nat.lt_succ_self _) }

theorem Numbered.toolResult (h : Numbered s) {run : Run} {call : ToolCall}
    {result : ToolResult} {factKind : ToolFactKind} {resultStatus : ToolResultStatus}
    {entrySequence now : Nat} :
    Numbered (recordToolResult s run call result factKind resultStatus entrySequence now) :=
  { h.drawn (i := s.nextIdentifier + 3) (Nat.le_add_right s.nextValue 3) with
    toolFacts := h.toolFacts.cons le_rfl (Nat.lt_add_of_pos_right (by decide))
    entries := h.entries.cons (Nat.le_succ _) (by
      show s.nextValue + 1 < s.nextValue + 3
      omega)
    events := by
      have hone : ∀ e ∈ DeliveryEvent.mk (s.nextIdentifier + 1) (s.nextValue + 1) run.sessionId
          .toolResult now :: s.deliveryEvents, e.eventSequence < s.nextValue + 3 :=
        events_cons h.events (by omega) (by
          show s.nextValue + 1 < s.nextValue + 3
          omega)
      intro e he
      rcases List.mem_append.mp he with he | he
      · simp only [Option.mem_toList, Option.map_eq_some_iff] at he
        obtain ⟨_, -, rfl⟩ := he
        show s.nextValue < s.nextValue + 3
        omega
      · exact hone e he }

theorem updates_modify {rows : List LocalCommand} {id : LocalCommandId}
    {f : LocalCommand → LocalCommand} {n m : Nat} (h : ∀ c ∈ rows, c.updatedSequence < n)
    (hn : n ≤ m) (hf : ∀ c, (f c).updatedSequence < m) :
    ∀ c ∈ Table.modify LocalCommand.commandId id f rows, c.updatedSequence < m := by
  intro c hc
  obtain ⟨r, hr, rfl⟩ := Table.mem_modify.mp hc
  split
  · exact hf r
  · exact lt_of_lt_of_le (h r hr) hn

theorem Numbered.cleanup (h : Numbered s) (request : SessionDeleteRequest) :
    Numbered (writeCleanup s request) where
  positive := h.positive
  mutationRequests := h.mutationRequests.filter _
  creationRequests := h.creationRequests.filter _
  createdFacts := h.createdFacts.filter _
  renames := h.renames.filter _
  archives := h.archives.filter _
  deletes := h.deletes.map _ fun r => by split <;> rfl
  acceptedFacts := h.acceptedFacts.filter _
  stateFacts := h.stateFacts.filter _
  cancellations := h.cancellations.filter _
  providerFacts := h.providerFacts.filter _
  entries := h.entries.filter _
  toolCalls := h.toolCalls.filter _
  toolFacts := h.toolFacts.filter _
  commands := h.commands.filter _
  commandUpdates c hc := h.commandUpdates c (List.mem_of_mem_filter hc)
  commandCancellations := h.commandCancellations.filter _
  events := h.events

/-- **Every write keeps the numbers in order.** -/
theorem Numbered.write (h : Numbered s) (w : Write d s t) : Numbered t := by
  cases w with
  | advance n i number identifier => exact h.drawn number
  | recovery u now paused => exact h.paused (pause_paused paused)
  | steering mutation u item now fresh text admitted applied =>
    rw [(steering_frame applied).2]
    exact { h.drawn (i := u.nextIdentifier) (Nat.le_succ s.nextValue) with
      mutationRequests := h.mutationRequests.cons le_rfl (Nat.lt_succ_self _) }
  | creationRequest =>
    exact { h.drawn (i := s.nextIdentifier + 2) (Nat.le_add_right s.nextValue 1) with
      mutationRequests := h.mutationRequests.cons le_rfl (Nat.lt_succ_self _)
      creationRequests := h.creationRequests.cons le_rfl (Nat.lt_succ_self _) }
  | workspaceDispatched =>
    exact { h with creationRequests := h.creationRequests.map _ fun r => by split <;> rfl }
  | session request =>
    exact { h.drawn (i := s.nextIdentifier + 1) (Nat.le_add_right s.nextValue 1) with
      creationRequests := (h.creationRequests.mono (Nat.le_succ _)).map _ fun r => by split <;> rfl
      createdFacts := h.createdFacts.cons le_rfl (Nat.lt_succ_self _)
      events := events_cons h.events (Nat.le_succ _) (Nat.lt_succ_self _) }
  | rename =>
    exact { h.drawn (i := s.nextIdentifier + 1) (Nat.le_add_right s.nextValue 1) with
      mutationRequests := h.mutationRequests.cons le_rfl (Nat.lt_succ_self _)
      renames := h.renames.cons le_rfl (Nat.lt_succ_self _)
      events := events_cons h.events (Nat.le_succ _) (Nat.lt_succ_self _) }
  | archiveRequest requestId fingerprint sessionId archived now u fresh found paused =>
    refine Numbered.paused ?_ (requestArchive_paused paused)
    exact { h.drawn (i := s.nextIdentifier + 1) (Nat.le_add_right s.nextValue 1) with
      mutationRequests := h.mutationRequests.cons le_rfl (Nat.lt_succ_self _)
      archives := h.archives.cons le_rfl (Nat.lt_succ_self _) }
  | archive request state found =>
    exact { h with
      archives := h.archives.map _ fun r => by split <;> rfl
      events := events_cons h.events le_rfl (h.archives.bounded _ (Table.find_mem found)) }
  | deleteRequest =>
    exact { h.drawn (i := s.nextIdentifier + 1) (Nat.le_add_right s.nextValue 1) with
      mutationRequests := h.mutationRequests.cons le_rfl (Nat.lt_succ_self _)
      deletes := h.deletes.cons le_rfl (Nat.lt_succ_self _) }
  | cleanup request => exact h.cleanup request
  | delete request rule found =>
    exact { h with
      deletes := h.deletes.map _ fun r => by split <;> rfl
      events := events_cons (fun e he => h.events e (List.mem_of_mem_filter he)) le_rfl
        (h.deletes.bounded _ (Table.find_mem found)) }
  | acceptance =>
    exact { h.drawn (i := s.nextIdentifier + 4) (Nat.le_add_right s.nextValue 3) with
      mutationRequests := h.mutationRequests.cons (Nat.le_succ _) (by
        show s.nextValue + 1 < s.nextValue + 3
        omega)
      acceptedFacts := h.acceptedFacts.cons (Nat.le_succ _) (by
        show s.nextValue + 1 < s.nextValue + 3
        omega)
      entries := h.entries.cons le_rfl (Nat.lt_add_of_pos_right (by decide))
      events := events_cons (events_cons h.events (Nat.le_add_right _ 3)
        (Nat.lt_add_of_pos_right (by decide))) le_rfl (by
          show s.nextValue + 1 < s.nextValue + 3
          omega) }
  | activate run now n movable => exact h.move movable.number
  | prepare run => exact { h.providerFact run rfl with }
  | dispatch run => exact h.providerFact run rfl
  | outcome run fact found active admitted => exact h.outcome admitted.number
  | finish run outcome state failure kind now u found admitted stopped paused =>
    have hnumber := pauseEnded_number paused
    cases outcome with
    | none => exact h.ended hnumber
    | some fact => exact (h.outcome (admitted fact rfl).number).ended hnumber
  | answer run state fact assistant now u entry admitted completed paused =>
    exact ((h.outcome admitted.number).finalEntry).ended (pauseEnded_number paused)
  | cancellation requestId fingerprint run now fresh foundSession found room recordable canonical u
      paused =>
    refine Numbered.paused ?_ (cancelled_paused paused)
    exact { h.drawn (i := s.nextIdentifier + 1) (Nat.le_add_right s.nextValue 2) with
      mutationRequests := h.mutationRequests.cons le_rfl (Nat.lt_add_of_pos_right (by decide))
      cancellations := h.cancellations.cons le_rfl (Nat.lt_add_of_pos_right (by decide))
      events := by
        simp only [writeCancellation]
        split
        · exact events_cons h.events (Nat.le_add_right _ 2) (Nat.lt_add_of_pos_right (by decide))
        · exact (h.drawn (i := s.nextIdentifier) (Nat.le_add_right s.nextValue 2)).events }
  | commentary =>
    exact { h.drawn (i := s.nextIdentifier + 2) (Nat.le_add_right s.nextValue 1) with
      entries := h.entries.cons le_rfl (Nat.lt_succ_self _)
      events := events_cons h.events (Nat.le_succ _) (Nat.lt_succ_self _) }
  | toolCall =>
    exact { h.drawn (i := s.nextIdentifier + 4) (Nat.le_add_right s.nextValue 3) with
      toolCalls := h.toolCalls.cons le_rfl (Nat.lt_add_of_pos_right (by decide))
      entries := h.entries.cons (Nat.le_succ _) (by
        show s.nextValue + 1 < s.nextValue + 3
        omega)
      events := events_cons h.events (Nat.le_add_right _ 3) (by
        show s.nextValue + 1 < s.nextValue + 3
        omega) }
  | toolPrepared =>
    exact { h.drawn (i := s.nextIdentifier) (Nat.le_add_right s.nextValue 2) with
      toolFacts := h.toolFacts.cons le_rfl (Nat.lt_add_of_pos_right (by decide)) }
  | toolDispatched =>
    exact { h.drawn (i := s.nextIdentifier) (Nat.le_add_right s.nextValue 2) with
      toolFacts := h.toolFacts.cons le_rfl (Nat.lt_add_of_pos_right (by decide)) }
  | toolResult => exact h.toolResult
  | toolUncertain run state call result factKind resultStatus now u active entry prepared open_
      classified uncertain payload stops paused =>
    exact h.toolResult.ended (pauseEnded_number paused)
  | commandAcceptance =>
    exact { h.drawn (i := s.nextIdentifier + 2) (Nat.le_add_right s.nextValue 2) with
      mutationRequests := h.mutationRequests.cons le_rfl (Nat.lt_add_of_pos_right (by decide))
      commands := h.commands.cons le_rfl (Nat.lt_add_of_pos_right (by decide))
      commandUpdates := by
        intro c hc
        rcases List.mem_cons.mp hc with rfl | hc
        · exact Nat.lt_add_of_pos_right (by decide)
        · exact lt_of_lt_of_le (h.commandUpdates c hc) (Nat.le_add_right _ 2)
      events := events_cons h.events (Nat.le_add_right _ 2) (Nat.lt_add_of_pos_right (by decide)) }
  | commandActivation row =>
    exact { h.drawn (i := s.nextIdentifier) (Nat.le_add_right s.nextValue 2) with
      commands := (h.commands.mono (Nat.le_add_right _ 2)).map _ fun r => by split <;> rfl
      commandUpdates := updates_modify h.commandUpdates (Nat.le_add_right _ 2)
        (fun _ => Nat.lt_add_of_pos_right (by decide)) }
  | commandResult row =>
    exact { h.drawn (i := s.nextIdentifier + 2) (Nat.le_add_right s.nextValue 2) with
      commands := (h.commands.mono (Nat.le_add_right _ 2)).map _ fun r => by split <;> rfl
      commandUpdates := updates_modify h.commandUpdates (Nat.le_add_right _ 2)
        (fun _ => Nat.lt_add_of_pos_right (by decide))
      events := events_cons h.events (Nat.le_add_right _ 2) (Nat.lt_add_of_pos_right (by decide)) }
  | commandCancellation requestId fingerprint row now =>
    exact { h.drawn (i := s.nextIdentifier) (Nat.le_add_right s.nextValue 2) with
      mutationRequests := h.mutationRequests.cons le_rfl (Nat.lt_add_of_pos_right (by decide))
      commandCancellations :=
        h.commandCancellations.cons le_rfl (Nat.lt_add_of_pos_right (by decide))
      commands := by
        simp only [writeCommandCancellation]
        split
        · exact (h.commands.mono (Nat.le_add_right _ 2)).map _ fun r => by split <;> rfl
        · exact h.commands.mono (Nat.le_add_right _ 2)
      commandUpdates := by
        simp only [writeCommandCancellation]
        split
        · exact updates_modify h.commandUpdates (Nat.le_add_right _ 2)
            (fun _ => Nat.lt_add_of_pos_right (by decide))
        · exact (h.drawn (i := s.nextIdentifier) (Nat.le_add_right s.nextValue 2)).commandUpdates }

/-- The counters only go on. -/
theorem Write.forward (w : Write d s t) :
    s.nextValue ≤ t.nextValue ∧ s.nextIdentifier ≤ t.nextIdentifier := by
  have hended : ∀ {v u : Store} {run : Run} {state : RunState} {failure : Option RunFailureKind}
      {kind : EventKind} {now : Nat}, s.nextValue ≤ v.nextValue →
      s.nextIdentifier ≤ v.nextIdentifier → pauseEnded v run now = .ok u →
      s.nextValue ≤ (endRun v u run state failure kind now).nextValue ∧
        s.nextIdentifier ≤ (endRun v u run state failure kind now).nextIdentifier := by
    intro v u run state failure kind now hn hi paused
    have hnumber := pauseEnded_number paused
    exact ⟨(hn.trans hnumber.le).trans (Nat.le_succ _), hi.trans (Nat.le_succ _)⟩
  have hpaused : ∀ {v : Store}, s.nextValue ≤ v.nextValue → s.nextIdentifier ≤ v.nextIdentifier →
      Paused v t → s.nextValue ≤ t.nextValue ∧ s.nextIdentifier ≤ t.nextIdentifier := by
    intro v hn hi p
    refine ⟨hn.trans p.forward, ?_⟩
    rw [p.frame]
    exact hi
  cases w with
  | advance n i number identifier => exact ⟨number, identifier⟩
  | recovery u now paused => exact hpaused le_rfl le_rfl (pause_paused paused)
  | steering mutation u item now fresh text admitted applied =>
    obtain ⟨hidentifier, hframe⟩ := steering_frame applied
    rw [hframe]
    exact ⟨Nat.le_succ _, hidentifier⟩
  | archiveRequest requestId fingerprint sessionId archived now u fresh found paused =>
    exact hpaused (Nat.le_succ _) (Nat.le_succ _) (requestArchive_paused paused)
  | cancellation requestId fingerprint run now fresh foundSession found room recordable canonical u
      paused =>
    exact hpaused (Nat.le_add_right _ 2) (Nat.le_add_right _ 1) (cancelled_paused paused)
  | finish run outcome state failure kind now u found admitted stopped paused =>
    cases outcome with
    | none => exact hended le_rfl le_rfl paused
    | some fact => exact hended (Nat.le_add_right _ 2) le_rfl paused
  | answer run state fact assistant now u entry admitted completed paused =>
    exact hended (Nat.le_add_right _ 3) (Nat.le_add_right _ 2) paused
  | toolUncertain run state call result factKind resultStatus now u active entry prepared open_
      classified uncertain payload stops paused =>
    exact hended (Nat.le_add_right _ 3) (Nat.le_add_right _ 3) paused
  | activate run now n movable =>
    exact ⟨movable.number.le.trans (Nat.le_succ _), Nat.le_succ _⟩
  | workspaceDispatched | archive | cleanup | delete => exact ⟨le_rfl, le_rfl⟩
  | dispatch | outcome => exact ⟨Nat.le_add_right _ 2, le_rfl⟩
  | prepare => exact ⟨Nat.le_add_right _ 2, Nat.le_succ _⟩
  | creationRequest => exact ⟨Nat.le_succ _, Nat.le_add_right _ 2⟩
  | session | rename | deleteRequest => exact ⟨Nat.le_succ _, Nat.le_succ _⟩
  | acceptance => exact ⟨Nat.le_add_right _ 3, Nat.le_add_right _ 4⟩
  | commentary => exact ⟨Nat.le_succ _, Nat.le_add_right _ 2⟩
  | toolCall => exact ⟨Nat.le_add_right _ 3, Nat.le_add_right _ 4⟩
  | toolPrepared | toolDispatched | commandActivation | commandCancellation =>
    exact ⟨Nat.le_add_right _ 2, le_rfl⟩
  | toolResult => exact ⟨Nat.le_add_right _ 3, Nat.le_add_right _ 3⟩
  | commandAcceptance | commandResult => exact ⟨Nat.le_add_right _ 2, Nat.le_add_right _ 2⟩

end Morons
