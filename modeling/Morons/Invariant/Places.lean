import Morons.Invariant.Claims
import Morons.Session.Delete
import Mathlib.Data.List.Perm.Subperm

/-!
# The places of events

An event has an identifier and a number of its own.  Archive and delete requests
take both when they are prepared and deliver the event when they are complete,
so that the places they keep meanwhile count as well.
-/

namespace Morons

open Ledger

variable {d : Discipline} {s t : Store}

/-- The identifier and the number of an event. -/
abbrev EventPlace := DeliveryEventId × Nat

def DeliveryEvent.place (e : DeliveryEvent) : EventPlace := (e.eventId, e.eventSequence)

/-- What an archive request that is not complete keeps. -/
def SessionArchiveRequest.kept (r : SessionArchiveRequest) : Option EventPlace :=
  if r.complete then none else some (r.deliveryEventId, r.acceptedSequence)

/-- What a delete request that is not complete keeps. -/
def SessionDeleteRequest.kept (r : SessionDeleteRequest) : Option EventPlace :=
  if r.state = .complete then none else some (r.deliveryEventId, r.acceptedSequence)

/-- The places of the events that are delivered, or are still to come. -/
def eventPlaces (events : List DeliveryEvent) (archives : List SessionArchiveRequest)
    (deletes : List SessionDeleteRequest) : List EventPlace :=
  events.map DeliveryEvent.place ++ archives.filterMap SessionArchiveRequest.kept ++
    deletes.filterMap SessionDeleteRequest.kept

def Store.eventPlaces (s : Store) : List EventPlace :=
  Morons.eventPlaces s.deliveryEvents s.sessionArchiveRequests s.sessionDeleteRequests

structure Placed (s : Store) : Prop where
  identifiers : Taken Prod.fst s.nextIdentifier s.eventPlaces
  sequences : Taken Prod.snd s.nextValue s.eventPlaces

theorem placed_empty : Placed Store.empty := ⟨taken_nil, taken_nil⟩

namespace Placed

/-- Events, and requests for events, take the next places. -/
theorem grow (h : Placed s) (fresh : List EventPlace)
    (hplaces : t.eventPlaces.Subperm (fresh ++ s.eventPlaces))
    (hidentifiers : (fresh.map Prod.fst).Nodup) (hsequences : (fresh.map Prod.snd).Nodup)
    (hdrawn : ∀ p ∈ fresh, (s.nextIdentifier ≤ p.1 ∧ p.1 < t.nextIdentifier) ∧
      s.nextValue ≤ p.2 ∧ p.2 < t.nextValue)
    (hforward : s.nextValue ≤ t.nextValue ∧ s.nextIdentifier ≤ t.nextIdentifier) : Placed t where
  identifiers := (h.identifiers.append hidentifiers (fun p hp => (hdrawn p hp).1)
    hforward.2).subperm hplaces
  sequences := (h.sequences.append hsequences (fun p hp => (hdrawn p hp).2)
    hforward.1).subperm hplaces

theorem keep (h : Placed s) (hplaces : t.eventPlaces.Subperm s.eventPlaces)
    (hforward : s.nextValue ≤ t.nextValue ∧ s.nextIdentifier ≤ t.nextIdentifier) : Placed t :=
  h.grow [] hplaces List.nodup_nil List.nodup_nil (by simp) hforward

theorem one (h : Placed s) (place : EventPlace)
    (hplaces : t.eventPlaces.Subperm (place :: s.eventPlaces))
    (hdrawn : (s.nextIdentifier ≤ place.1 ∧ place.1 < t.nextIdentifier) ∧
      s.nextValue ≤ place.2 ∧ place.2 < t.nextValue) : Placed t := by
  obtain ⟨⟨hlow, hhigh⟩, hfrom, hto⟩ := hdrawn
  refine h.grow [place] hplaces (List.nodup_singleton _) (List.nodup_singleton _)
    ?_ ⟨hfrom.trans hto.le, hlow.trans hhigh.le⟩
  intro p hp
  obtain rfl := List.mem_singleton.mp hp
  exact ⟨⟨hlow, hhigh⟩, hfrom, hto⟩

/-- The next place is taken. -/
theorem next (h : Placed s) (hplaces : t.eventPlaces.Subperm
      ((s.nextIdentifier, s.nextValue) :: s.eventPlaces))
    (hidentifier : s.nextIdentifier < t.nextIdentifier) (hnumber : s.nextValue < t.nextValue) :
    Placed t :=
  h.one _ hplaces ⟨⟨le_rfl, hidentifier⟩, le_rfl, hnumber⟩

theorem paused (h : Placed s) (p : Paused s t) : Placed t := by
  have hforward := p.forward
  rw [p.frame] at hforward ⊢
  exact h.keep (List.Subperm.refl _) ⟨hforward, le_rfl⟩

theorem move (h : Placed s) {run : Run} {state : RunState} {failure : Option RunFailureKind}
    {kind : EventKind} {now n : Nat} (hnumber : s.nextValue < n) :
    Placed (moveRun s run state failure kind now n) :=
  h.next (List.Subperm.refl _) (Nat.lt_succ_self _) (Nat.lt_succ_of_lt hnumber)

theorem ended (h : Placed s) {run : Run} {state : RunState} {failure : Option RunFailureKind}
    {kind : EventKind} {now : Nat} {u : Store} (paused : pauseEnded s run now = .ok u) :
    Placed (endRun s u run state failure kind now) :=
  { h.move (pauseEnded_number paused) with }

/-- A result takes two places if its effect is unknown. -/
theorem toolResult (h : Placed s) {run : Run} {call : ToolCall} {result : ToolResult}
    {factKind : ToolFactKind} {resultStatus : ToolResultStatus} {entrySequence now : Nat} :
    Placed (recordToolResult s run call result factKind resultStatus entrySequence now) := by
  cases hresult : result.isUncertain with
  | false =>
    refine h.one (s.nextIdentifier + 1, s.nextValue + 1) ?_
      ⟨⟨Nat.le_succ _, Nat.lt_succ_of_lt (Nat.lt_succ_self _)⟩, Nat.le_succ _,
        Nat.lt_succ_of_lt (Nat.lt_succ_self _)⟩
    rw [Store.eventPlaces, recordToolResult_deliveryEvents, hresult]
    exact List.Subperm.refl _
  | true =>
    refine h.grow [(s.nextIdentifier + 2, s.nextValue),
      (s.nextIdentifier + 1, s.nextValue + 1)] ?_ (by simp) (by simp) ?_
      ⟨Nat.le_add_right _ 3, Nat.le_add_right _ 3⟩
    · rw [Store.eventPlaces, recordToolResult_deliveryEvents, hresult]
      exact List.Subperm.refl _
    · have hcounters : (recordToolResult s run call result factKind resultStatus entrySequence
          now).nextIdentifier = s.nextIdentifier + 3 ∧ (recordToolResult s run call result factKind
          resultStatus entrySequence now).nextValue = s.nextValue + 3 := ⟨rfl, rfl⟩
      rw [hcounters.1, hcounters.2]
      intro p hp
      simp only [List.mem_cons, List.not_mem_nil, or_false] at hp
      rcases hp with rfl | rfl <;> simp

/-- The event of a complete archive request has its place already. -/
theorem archive (h : Placed s) {request : SessionArchiveRequest}
    (hkeyed : Table.Keyed SessionArchiveRequest.requestId s.sessionArchiveRequests)
    (found : loadArchiveRequest s request.requestId = some request)
    (pending : request.complete = false) : Placed (writeArchive s request) := by
  refine h.keep (List.Perm.subperm ?_) ⟨le_rfl, le_rfl⟩
  have hkept := Table.modify_filterMap_loses (f := fun r => { r with complete := true })
    SessionArchiveRequest.kept (c := (request.deliveryEventId, request.acceptedSequence)) hkeyed
    found (by simp [SessionArchiveRequest.kept, pending]) (by simp [SessionArchiveRequest.kept])
  rw [List.perm_iff_count] at hkept ⊢
  intro p
  have hone := hkept p
  simp only [Store.eventPlaces, eventPlaces, writeArchive, insertDeliveryEvent, updateSession,
    List.map_cons, List.count_append, List.count_cons, DeliveryEvent.place] at hone ⊢
  omega

/-- The removal has its place already; the other events of its session lose theirs. -/
theorem delete (h : Placed s) {request : SessionDeleteRequest}
    (hkeyed : Table.Keyed SessionDeleteRequest.requestId s.sessionDeleteRequests)
    (found : loadDeleteRequest s request.requestId = some request)
    (cleaned : request.state = .databaseCleaned) : Placed (writeDelete s request) := by
  refine h.keep ?_ ⟨le_rfl, le_rfl⟩
  have hkept := Table.modify_filterMap_loses (f := fun r => { r with state := .complete })
    SessionDeleteRequest.kept (c := (request.deliveryEventId, request.acceptedSequence)) hkeyed
    found (by simp [SessionDeleteRequest.kept, cleaned]) (by simp [SessionDeleteRequest.kept])
  have hperm : (writeDelete s request).eventPlaces.Perm
      ((s.deliveryEvents.filter fun e => e.sessionId ≠ request.sessionId).map DeliveryEvent.place ++
        s.sessionArchiveRequests.filterMap SessionArchiveRequest.kept ++
        s.sessionDeleteRequests.filterMap SessionDeleteRequest.kept) :=
    List.perm_middle.symm.trans (hkept.symm.append_left _)
  refine hperm.subperm.trans (List.Sublist.subperm ?_)
  exact ((List.filter_sublist.map _).append_right _).append_right _

theorem write (h : Placed s) (hreg : Registered s) (w : Write d s t) : Placed t := by
  have hforward := w.forward
  cases w with
  | recovery u now paused => exact h.paused (pause_paused paused)
  | steering mutation u item now fresh text admitted applied =>
    obtain ⟨-, hframe⟩ := steering_frame applied
    rw [hframe] at hforward ⊢
    exact h.keep (List.Subperm.refl _) hforward
  | session =>
    exact h.next (List.Subperm.refl _) (Nat.lt_succ_self _) (Nat.lt_succ_self _)
  | rename =>
    exact h.next (List.Subperm.refl _) (Nat.lt_succ_self _) (Nat.lt_succ_self _)
  | archiveRequest requestId fingerprint sessionId archived now u fresh found paused =>
    refine Placed.paused ?_ (requestArchive_paused paused)
    refine h.next (List.Perm.subperm ?_) (Nat.lt_succ_self _) (Nat.lt_succ_self _)
    rw [List.perm_iff_count]
    intro p
    simp only [Store.eventPlaces, eventPlaces, writeArchiveRequest, insertMutationRequest,
      Store.drawn, SessionArchiveRequest.kept, List.filterMap_cons, Bool.false_eq_true, if_false,
      List.count_append, List.count_cons]
    omega
  | archive request state found pending => exact h.archive hreg.archives.keyed found pending
  | deleteRequest =>
    refine h.next (List.Perm.subperm ?_) (Nat.lt_succ_self _) (Nat.lt_succ_self _)
    exact List.perm_middle
  | cleanup request session rule found prepared =>
    refine h.keep ?_ hforward
    have hdeletes : (writeCleanup s request).sessionDeleteRequests.filterMap
        SessionDeleteRequest.kept =
        s.sessionDeleteRequests.filterMap SessionDeleteRequest.kept := by
      refine Table.modify_filterMap _ fun r hr hkey => ?_
      rw [Table.eq_of_key hreg.deletes.keyed hr (Table.find_mem found) hkey]
      simp [SessionDeleteRequest.kept, prepared]
    rw [Store.eventPlaces, eventPlaces, hdeletes]
    refine List.Sublist.subperm (List.Sublist.append_right (List.Sublist.append_left ?_ _) _)
    exact List.filter_sublist.filterMap _
  | delete request rule found cleaned => exact h.delete hreg.deletes.keyed found cleaned
  | acceptance =>
    refine h.grow [(s.nextIdentifier + 3, s.nextValue + 1),
      (s.nextIdentifier + 2, s.nextValue)] (List.Subperm.refl _) (by simp) (by simp) ?_ hforward
    intro p hp
    simp only [List.mem_cons, List.not_mem_nil, or_false] at hp
    rcases hp with rfl | rfl <;>
      simp [writeAcceptance, insertMutationRequest, insertDeliveryEvent, updateSession, Store.drawn]
  | activate run now n movable => exact h.move movable.number
  | finish run outcome state failure kind now u found admitted stopped paused movable =>
    have hsettled : Placed (settled s run outcome) := by
      cases outcome
      · exact h
      · exact h.keep (List.Subperm.refl _) ⟨Nat.le_add_right _ 2, le_rfl⟩
    exact hsettled.ended paused
  | answer run state fact assistant now u entry admitted completed paused =>
    have hentry : Placed (writeFinalEntry (writeProviderOutcome s run fact) run assistant
        (state.entryHighWater + 1) now) :=
      h.one (s.nextIdentifier + 1, s.nextValue + 2) (List.Subperm.refl _)
        ⟨⟨Nat.le_succ _, Nat.lt_succ_self _⟩, Nat.le_add_right _ 2, Nat.lt_succ_self _⟩
    exact hentry.ended paused
  | cancellation requestId fingerprint run now fresh foundSession found room recordable canonical u
      paused =>
    refine Placed.paused ?_ (cancelled_paused paused)
    cases happlied : !run.state.isTerminal && !run.cancellationRequested with
    | false =>
      refine h.keep ?_ ⟨Nat.le_add_right _ 2, Nat.le_succ _⟩
      simp only [Store.eventPlaces, writeCancellation, happlied]
      exact List.Subperm.refl _
    | true =>
      refine h.next ?_ (Nat.lt_succ_self _) (Nat.lt_succ_of_lt (Nat.lt_succ_self _))
      simp only [Store.eventPlaces, writeCancellation, happlied]
      exact List.Subperm.refl _
  | commentary =>
    exact h.one (s.nextIdentifier + 1, s.nextValue) (List.Subperm.refl _)
      ⟨⟨Nat.le_succ _, Nat.lt_succ_self _⟩, le_rfl, Nat.lt_succ_self _⟩
  | toolCall =>
    exact h.one (s.nextIdentifier + 3, s.nextValue + 1) (List.Subperm.refl _)
      ⟨⟨Nat.le_add_right _ 3, Nat.lt_succ_self _⟩, Nat.le_succ _,
        Nat.lt_succ_of_lt (Nat.lt_succ_self _)⟩
  | toolResult => exact h.toolResult
  | toolUncertain run state call result factKind resultStatus now u active entry prepared open_
      classified uncertain payload stops paused => exact h.toolResult.ended paused
  | commandAcceptance =>
    exact h.one (s.nextIdentifier + 1, s.nextValue) (List.Subperm.refl _)
      ⟨⟨Nat.le_succ _, Nat.lt_succ_self _⟩, le_rfl, Nat.lt_succ_of_lt (Nat.lt_succ_self _)⟩
  | commandResult =>
    exact h.one (s.nextIdentifier + 1, s.nextValue) (List.Subperm.refl _)
      ⟨⟨Nat.le_succ _, Nat.lt_succ_self _⟩, le_rfl, Nat.lt_succ_of_lt (Nat.lt_succ_self _)⟩
  | _ => exact h.keep (List.Subperm.refl _) hforward

end Placed

/-- **No two events share an identifier or a number**, in every reachable store. -/
theorem Reachable.placed {allowed : Environment → Store → Operation → Prop}
    (h : Reachable allowed s) : Placed s := by
  have hboth : Sound s ∧ Placed s := by
    refine h.obeying_none.writes.invariant (I := fun s => Sound s ∧ Placed s) ?_ ?_
    · rintro _ rfl
      exact ⟨sound_empty, placed_empty⟩
    · rintro _ _ ⟨hsound, hplaced⟩ w
      exact ⟨hsound.write w, hplaced.write hsound.registered w⟩
  exact hboth.2

end Morons
