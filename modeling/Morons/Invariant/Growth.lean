import Morons.Invariant.Claims

/-!
# The record of a session

What is recorded of a session is only ever added to: facts, entries, calls,
images and events come with new numbers before the old ones, a command that
has ended stays as it is, and an accepted one keeps its place.  Only a cleanup
of the session takes its record away.  A run of operations extends the record
as one write does.
-/

namespace Morons

open Ledger

variable {d : Discipline} {s t u : Store} {sessionId : SessionId}

/-- The events that a session tells of its runs, its transcript and its commands. -/
def EventKind.isStreamed (k : EventKind) : Bool := decide (2 ≤ k.toRecord ∧ k.toRecord ≤ 17)

/-- What stays of a command from its acceptance on. -/
structure CommandPlace where
  commandId : LocalCommandId
  sessionId : SessionId
  acceptedSequence : Nat
  acceptedEventId : DeliveryEventId

def LocalCommand.acceptance (c : LocalCommand) : CommandPlace :=
  ⟨c.commandId, c.sessionId, c.acceptedSequence, c.acceptedEventId⟩

/-- The record of a session in a later store, by that in an earlier one. -/
structure Extends (sessionId : SessionId) (s t : Store) : Prop where
  accepted : Accrued RunAcceptedFact.factSequence s.nextValue
    (s.runAcceptedFacts.filter fun r => r.sessionId = sessionId)
    (t.runAcceptedFacts.filter fun r => r.sessionId = sessionId)
  states : Accrued RunStateFact.factSequence s.nextValue
    (s.runStateFacts.filter fun r => r.sessionId = sessionId)
    (t.runStateFacts.filter fun r => r.sessionId = sessionId)
  cancellations : Accrued RunCancellationRequest.factSequence s.nextValue
    (s.runCancellationRequests.filter fun r => r.sessionId = sessionId)
    (t.runCancellationRequests.filter fun r => r.sessionId = sessionId)
  entries : Accrued SessionEntry.factSequence s.nextValue
    (s.sessionEntries.filter fun r => r.sessionId = sessionId)
    (t.sessionEntries.filter fun r => r.sessionId = sessionId)
  calls : Accrued ToolCall.factSequence s.nextValue
    (s.toolCalls.filter fun r => r.sessionId = sessionId)
    (t.toolCalls.filter fun r => r.sessionId = sessionId)
  toolFacts : Accrued ToolOperationFact.factSequence s.nextValue
    (s.toolOperationFacts.filter fun r => r.sessionId = sessionId)
    (t.toolOperationFacts.filter fun r => r.sessionId = sessionId)
  images : Accrued MessageImage.userMessageId s.nextIdentifier
    (s.imageAttachments.filter fun r => r.sessionId = sessionId)
    (t.imageAttachments.filter fun r => r.sessionId = sessionId)
  events : Accrued DeliveryEvent.eventSequence s.nextValue
    (s.deliveryEvents.filter fun e => e.sessionId = sessionId && e.eventKind.isStreamed)
    (t.deliveryEvents.filter fun e => e.sessionId = sessionId && e.eventKind.isStreamed)
  delivered : ∀ e ∈ s.deliveryEvents, e.sessionId = sessionId → e ∈ t.deliveryEvents
  commands : Accrued CommandPlace.acceptedSequence s.nextValue
    ((s.localCommands.map LocalCommand.acceptance).filter fun c => c.sessionId = sessionId)
    ((t.localCommands.map LocalCommand.acceptance).filter fun c => c.sessionId = sessionId)
  ended : ∀ c ∈ s.localCommands, c.sessionId = sessionId → c.state.isTerminal = true →
    c ∈ t.localCommands
  old : ∀ c ∈ t.localCommands, c.sessionId = sessionId → c.state.isTerminal = true →
    c.updatedSequence < s.nextValue → c ∈ s.localCommands
  created : ∀ f ∈ s.sessionCreatedFacts, f.sessionId = sessionId → f ∈ t.sessionCreatedFacts

namespace Extends

theorem refl (sessionId : SessionId) (s : Store) : Extends sessionId s s where
  accepted := .refl ..
  states := .refl ..
  cancellations := .refl ..
  entries := .refl ..
  calls := .refl ..
  toolFacts := .refl ..
  images := .refl ..
  events := .refl ..
  delivered _ he _ := he
  commands := .refl ..
  ended _ hc _ _ := hc
  old _ hc _ _ _ := hc
  created _ hf _ := hf

theorem trans (h : Extends sessionId s t) (h' : Extends sessionId t u)
    (hle : s.nextValue ≤ t.nextValue ∧ s.nextIdentifier ≤ t.nextIdentifier) :
    Extends sessionId s u where
  accepted := h.accepted.trans h'.accepted hle.1
  states := h.states.trans h'.states hle.1
  cancellations := h.cancellations.trans h'.cancellations hle.1
  entries := h.entries.trans h'.entries hle.1
  calls := h.calls.trans h'.calls hle.1
  toolFacts := h.toolFacts.trans h'.toolFacts hle.1
  images := h.images.trans h'.images hle.2
  events := h.events.trans h'.events hle.1
  delivered e he hsession := h'.delivered e (h.delivered e he hsession) hsession
  commands := h.commands.trans h'.commands hle.1
  ended c hc hsession hstate := h'.ended c (h.ended c hc hsession hstate) hsession hstate
  old c hc hsession hstate hold :=
    h.old c (h'.old c hc hsession hstate (lt_of_lt_of_le hold hle.1)) hsession hstate hold
  created f hf hsession := h'.created f (h.created f hf hsession) hsession

theorem paused (h : Extends sessionId s t) (p : Paused t u) : Extends sessionId s u := by
  rw [p.frame]
  exact { h with }

/-- What is put before the rows is not of the record. -/
theorem filter_unstreamed {events : List DeliveryEvent} {e : DeliveryEvent}
    (h : e.eventKind.isStreamed = false) :
    (e :: events).filter (fun e => e.sessionId = sessionId && e.eventKind.isStreamed) =
      events.filter fun e => e.sessionId = sessionId && e.eventKind.isStreamed :=
  List.filter_cons_of_neg (by simp [h])

/-! ## The parts of a write -/

/-- A transition records its fact and tells its event. -/
theorem move (h : Extends sessionId s t) (hle : s.nextValue ≤ t.nextValue) {run : Run}
    {state : RunState} {failure : Option RunFailureKind} {kind : EventKind} {now n : Nat} :
    Extends sessionId s (moveRun t run state failure kind now n) :=
  { h with
    states := h.states.trans (Accrued.head _ (le_refl t.nextValue)) hle
    events := h.events.trans (Accrued.head _ (le_refl t.nextValue)) hle
    delivered := fun e he hsession => List.mem_cons_of_mem _ (h.delivered e he hsession) }

theorem ended_run (h : Extends sessionId s t) (hle : s.nextValue ≤ t.nextValue) {run : Run}
    {state : RunState} {failure : Option RunFailureKind} {kind : EventKind} {now : Nat} :
    Extends sessionId s (endRun t u run state failure kind now) :=
  { h.move hle (n := u.nextValue) with }

/-- A result of a call is recorded with its entry. -/
theorem toolResult {run : Run} {call : ToolCall} {result : ToolResult} {factKind : ToolFactKind}
    {resultStatus : ToolResultStatus} {entrySequence now : Nat} :
    Extends sessionId s
      (recordToolResult s run call result factKind resultStatus entrySequence now) :=
  { refl sessionId s with
    toolFacts := Accrued.head _ (le_refl s.nextValue)
    entries := Accrued.head _ (Nat.le_succ s.nextValue)
    events := by
      rw [recordToolResult_deliveryEvents]
      refine Accrued.filter ⟨_ ++ [_], (List.append_assoc ..).symm, fun e he => ?_⟩ _
      split at he
      · simp only [Option.map_some, Option.toList_some, List.mem_append, List.mem_singleton] at he
        rcases he with rfl | rfl
        · exact le_refl s.nextValue
        · exact Nat.le_succ s.nextValue
      · obtain rfl := List.mem_singleton.mp he
        exact Nat.le_succ s.nextValue
    delivered := by
      intro e he _
      rw [recordToolResult_deliveryEvents]
      exact List.mem_append_right _ (List.mem_cons_of_mem _ he) }

/-- A command that goes on is rewritten; if it ends, the change has a new number. -/
theorem command {row : LocalCommand} {f : LocalCommand → LocalCommand}
    (hkeyed : Table.Keyed LocalCommand.commandId s.localCommands)
    (found : loadLocalCommand s row.commandId = some row) (running : row.state.isTerminal = false)
    (hplace : ∀ c, (f c).acceptance = c.acceptance) (hnew : s.nextValue ≤ (f row).updatedSequence) :
    Extends sessionId s { s with
      localCommands := Table.modify LocalCommand.commandId row.commandId f s.localCommands } :=
  { refl sessionId s with
    commands := Accrued.of_eq (by rw [Table.modify_column _ hplace])
    ended := by
      intro c hc _ hstate
      refine Table.mem_modify.mpr ⟨c, hc, if_neg fun hkey => ?_⟩
      obtain rfl := Table.eq_of_key hkeyed hc (Table.find_mem found) hkey
      rw [running] at hstate
      cases hstate
    old := by
      intro c hc _ _ hold
      obtain ⟨r, hr, rfl⟩ := Table.mem_modify.mp hc
      by_cases hkey : r.commandId = row.commandId
      · obtain rfl := Table.eq_of_key hkeyed hr (Table.find_mem found) hkey
        simp only [if_true] at hold
        exact absurd hnew (Nat.not_le.mpr hold)
      · simpa only [hkey, if_false] using hr }

/-- The removal of another session leaves the record as it is. -/
theorem cleanup {request : SessionDeleteRequest} (hother : request.sessionId ≠ sessionId) :
    Extends sessionId s (writeCleanup s request) := by
  have hkept : ∀ {Row : Type} {rows : List Row} (sessionOf : Row → SessionId),
      (rows.filter fun r => sessionOf r ≠ request.sessionId).filter
        (fun r => sessionOf r = sessionId) = rows.filter fun r => sessionOf r = sessionId := by
    intro Row rows sessionOf
    refine Table.filter_kept fun r _ hr => ?_
    exact decide_eq_true fun h => hother (h.symm.trans (of_decide_eq_true hr))
  constructor
  · exact .of_eq (hkept RunAcceptedFact.sessionId)
  · exact .of_eq (hkept RunStateFact.sessionId)
  · exact .of_eq (hkept RunCancellationRequest.sessionId)
  · exact .of_eq (hkept SessionEntry.sessionId)
  · exact .of_eq (hkept ToolCall.sessionId)
  · exact .of_eq (hkept ToolOperationFact.sessionId)
  · exact .of_eq (hkept MessageImage.sessionId)
  · exact .refl ..
  · exact fun e he _ => he
  · refine .of_eq ?_
    rw [List.filter_map, List.filter_map]
    exact congrArg (List.map LocalCommand.acceptance) (hkept LocalCommand.sessionId)
  · intro c hc hsession _
    exact List.mem_filter.mpr ⟨hc, decide_eq_true fun h => hother (h.symm.trans hsession)⟩
  · intro c hc _ _ _
    exact List.mem_of_mem_filter hc
  · intro f hf hsession
    exact List.mem_filter.mpr ⟨hf, decide_eq_true fun h => hother (h.symm.trans hsession)⟩

/-- A session that is not cleaned is still there. -/
theorem found (h : Extends sessionId s t) (hs : Aligned s) (ht : Aligned t)
    (hfound : (loadSession s sessionId).isSome) : (loadSession t sessionId).isSome := by
  obtain ⟨f, hf, hsession⟩ := hs.created_of_session hfound
  rw [loadSession, Table.find_isSome, ht.sessionIds]
  exact List.mem_map.mpr ⟨f, h.created f hf hsession, hsession⟩

end Extends

/-! ## Writes -/

/-- Cleaned sessions stay cleaned. -/
theorem Write.cleaned_mono (w : Write d s t) (hreg : Registered s)
    (hkept : sessionCleaned t sessionId = false) : sessionCleaned s sessionId = false := by
  rcases w.keepsClaims hreg with hkeeps | ⟨request, hfound, rfl⟩
  · rw [← hkeeps.cleaned]
    exact hkept
  · rw [cleanup_cleaned hreg (Table.find_mem hfound), Bool.or_eq_false_iff] at hkept
    exact hkept.2

/-- **A write extends the record of every session that it does not clean.** -/
theorem Write.extends (w : Write d s t) (hs : Sound s) (hkept : sessionCleaned t sessionId = false) :
    Extends sessionId s t := by
  have hsame : Extends sessionId s s := .refl sessionId s
  have hbefore := w.cleaned_mono hs.registered hkept
  cases w with
  | recovery u now paused => exact hsame.paused (pause_paused paused)
  | steering mutation u item now fresh text admitted applied =>
    rw [(steering_frame applied).2]
    exact { hsame with }
  | archiveRequest requestId fingerprint sessionId archived now u fresh found paused =>
    refine Extends.paused ?_ (requestArchive_paused paused)
    exact { hsame with }
  | cleanup request session rule found =>
    rw [cleanup_cleaned hs.registered (Table.find_mem found), Bool.or_eq_false_iff] at hkept
    exact .cleanup (of_decide_eq_false hkept.1)
  | delete request rule found cleaned =>
    have hother : request.sessionId ≠ sessionId := by
      rintro rfl
      have hnone := List.any_eq_false.mp hbefore request (Table.find_mem found)
      simp [cleaned] at hnone
    refine { hsame with
      events := .of_eq ((Extends.filter_unstreamed rfl).trans ?_)
      delivered := fun e he hsession => List.mem_cons_of_mem _ (List.mem_filter.mpr
        ⟨he, decide_eq_true fun h => hother (h.symm.trans hsession)⟩) }
    refine Table.filter_kept fun e _ he => decide_eq_true fun hsession => hother ?_
    exact hsession.symm.trans (of_decide_eq_true (Bool.and_eq_true_iff.mp he).1)
  | acceptance =>
    refine { hsame with
      accepted := Accrued.head _ (Nat.le_succ s.nextValue)
      entries := Accrued.head _ (le_refl s.nextValue)
      images := Accrued.filter ⟨_, rfl, fun image himage => ?_⟩ _
      events := ?_
      delivered := fun _ he _ => List.mem_cons_of_mem _ (List.mem_cons_of_mem _ he) }
    · obtain ⟨⟨attachment, index⟩, -, rfl⟩ := List.mem_map.mp himage
      exact Nat.le_succ s.nextIdentifier
    · refine Accrued.filter ⟨[_, _], rfl, fun e he => ?_⟩ _
      simp only [List.mem_cons, List.not_mem_nil, or_false] at he
      rcases he with rfl | rfl
      · exact Nat.le_succ s.nextValue
      · exact le_refl s.nextValue
  | activate => exact hsame.move le_rfl
  | finish run outcome =>
    cases outcome with
    | none => exact hsame.ended_run le_rfl
    | some fact =>
      have hsettled : Extends sessionId s (writeProviderOutcome s run fact) := { hsame with }
      exact hsettled.ended_run (Nat.le_add_right ..)
  | answer run state fact assistant now u entry admitted completed paused =>
    have hentry : Extends sessionId s (writeFinalEntry (writeProviderOutcome s run fact) run assistant
        (state.entryHighWater + 1) now) :=
      { hsame with
        entries := Accrued.head _ (Nat.le_add_right s.nextValue 2)
        events := Accrued.head _ (Nat.le_add_right s.nextValue 2)
        delivered := fun _ he _ => List.mem_cons_of_mem _ he }
    exact hentry.ended_run (Nat.le_add_right s.nextValue 3)
  | cancellation requestId fingerprint run now fresh foundSession found room recordable canonical u
      paused =>
    refine Extends.paused ?_ (cancelled_paused paused)
    refine { hsame with
      cancellations := Accrued.head _ (le_refl s.nextValue), events := ?_, delivered := ?_ }
    · simp only [writeCancellation]
      split
      · exact Accrued.head _ (le_refl s.nextValue)
      · exact .refl ..
    · intro e he _
      simp only [writeCancellation]
      split
      · exact List.mem_cons_of_mem _ he
      · exact he
  | commentary =>
    exact { hsame with
      entries := Accrued.head _ (le_refl s.nextValue)
      events := Accrued.head _ (le_refl s.nextValue)
      delivered := fun _ he _ => List.mem_cons_of_mem _ he }
  | toolCall =>
    exact { hsame with
      calls := Accrued.head _ (le_refl s.nextValue)
      entries := Accrued.head _ (Nat.le_succ s.nextValue)
      events := Accrued.head _ (Nat.le_succ s.nextValue)
      delivered := fun _ he _ => List.mem_cons_of_mem _ he }
  | toolPrepared | toolDispatched =>
    exact { hsame with toolFacts := Accrued.head _ (le_refl s.nextValue) }
  | toolResult => exact .toolResult
  | toolUncertain => exact Extends.toolResult.ended_run (Nat.le_add_right ..)
  | commandAcceptance =>
    exact { hsame with
      commands := Accrued.head _ (le_refl s.nextValue)
      events := Accrued.head _ (le_refl s.nextValue)
      delivered := fun _ he _ => List.mem_cons_of_mem _ he
      ended := fun c hc _ _ => List.mem_cons_of_mem _ hc
      old := fun c hc _ hstate _ => by
        rcases List.mem_cons.mp hc with rfl | hc
        · cases hstate
        · exact hc }
  | commandActivation row now found accepted =>
    have hrow : Extends sessionId s _ := Extends.command hs.identified.commands.nodup found
      (f := fun r => { r with
        state := .active
        updatedSequence := s.nextValue
        updatedAtMilliseconds := now })
      (by simp [accepted, LocalCommandState.isTerminal]) (fun _ => rfl) le_rfl
    exact { hrow with }
  | commandResult row state result now found running =>
    have hrow : Extends sessionId s _ := Extends.command hs.identified.commands.nodup found
      (f := fun r => { r with
        state := terminalCommandState result
        result := some result
        entrySequence := some (state.entryHighWater + 1)
        messageId := some s.nextIdentifier
        updatedSequence := s.nextValue
        updatedAtMilliseconds := now
        deliveryEventId := some (s.nextIdentifier + 1) }) running (fun _ => rfl) le_rfl
    exact { hrow with
      events := Accrued.head _ (le_refl s.nextValue)
      delivered := fun _ he _ => List.mem_cons_of_mem _ he }
  | commandCancellation requestId fingerprint row now fresh found =>
    by_cases happlied : (!row.state.isTerminal && !row.cancellationRequested) = true
    · have hrow : Extends sessionId s _ := Extends.command hs.identified.commands.nodup found
        (f := fun r => { r with
          cancellationRequested := true
          updatedSequence := s.nextValue
          updatedAtMilliseconds := now })
        (by simpa using (Bool.and_eq_true_iff.mp happlied).1) (fun _ => rfl) le_rfl
      simp only [writeCommandCancellation, happlied, if_true]
      exact { hrow with }
    · simp only [writeCommandCancellation, happlied]
      exact { hsame with }
  | session =>
    exact { hsame with
      events := .of_eq (Extends.filter_unstreamed rfl)
      delivered := fun _ he _ => List.mem_cons_of_mem _ he
      created := fun _ hf _ => List.mem_cons_of_mem _ hf }
  | rename | archive =>
    exact { hsame with
      events := .of_eq (Extends.filter_unstreamed rfl)
      delivered := fun _ he _ => List.mem_cons_of_mem _ he }
  | _ => exact { hsame with }

theorem Writes.forward (w : Writes d s t) :
    s.nextValue ≤ t.nextValue ∧ s.nextIdentifier ≤ t.nextIdentifier := by
  induction w with
  | refl => exact ⟨le_rfl, le_rfl⟩
  | tail _ w ih => exact ⟨ih.1.trans w.forward.1, ih.2.trans w.forward.2⟩

theorem Writes.cleaned_mono (w : Writes d s t) (hs : Sound s)
    (hkept : sessionCleaned t sessionId = false) : sessionCleaned s sessionId = false := by
  have hall : Sound t ∧ (sessionCleaned t sessionId = false → sessionCleaned s sessionId = false) := by
    clear hkept
    induction w with
    | refl => exact ⟨hs, id⟩
    | tail _ w ih => exact ⟨ih.1.write w, fun hkept => ih.2 (w.cleaned_mono ih.1.registered hkept)⟩
  exact hall.2 hkept

/-- **Any number of writes extend the record of a session that is not cleaned.** -/
theorem Writes.extends (w : Writes d s t) (hs : Sound s) (hkept : sessionCleaned t sessionId = false) :
    Extends sessionId s t := by
  have hall : Sound t ∧ (sessionCleaned t sessionId = false → Extends sessionId s t) := by
    clear hkept
    induction w with
    | refl => exact ⟨hs, fun _ => .refl sessionId s⟩
    | tail hbefore w ih =>
      refine ⟨ih.1.write w, fun hkept => ?_⟩
      exact (ih.2 (w.cleaned_mono ih.1.registered hkept)).trans (w.extends ih.1 hkept)
        (Writes.forward hbefore)
  exact hall.2 hkept

end Morons
