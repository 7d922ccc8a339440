import Morons.Events.Stream

/-!
# Subscriptions that last

When no delta of a run comes after the terminal event of a later one, the
client takes every event that the server writes: its copies of the active and
of the terminal run follow those of the server.
-/

namespace Morons.Events

open Transition

variable {sessionId : SessionId} {history before after : List SessionEvent} {e : SessionEvent}
  {n : Nat} {r : RunId} {run : RunSummary}

/-! ## Sequential histories -/

theorem admits_run (h : admits sessionId history e = true) (hrun : e.run = some run) :
    run.sessionId = sessionId ∧ run.id ∉ endedRuns history ∧
      ∀ r, openRun history = some r → r = run.id := by
  simp only [admits, hrun, Option.all_some, Bool.and_eq_true, decide_eq_true_eq, Option.all_eq_true]
    at h
  exact ⟨h.2.1.1, h.2.1.2, h.2.2⟩

theorem admits_later (h : admits sessionId history e = true) :
    ∀ earlier ∈ history, earlier.sequence < e.sequence := by
  simp only [admits, Bool.and_eq_true, List.all_eq_true, decide_eq_true_eq] at h
  exact h.1

theorem Sequential.front (h : Sequential sessionId (before ++ after)) :
    Sequential sessionId before := by
  rintro b e a rfl
  exact h b e (a ++ after) (by simp)

theorem Sequential.commit (h : Sequential sessionId history)
    (hadmits : admits sessionId history e = true) : Sequential sessionId (history ++ [e]) := by
  intro b x a hsplit
  rcases List.eq_nil_or_concat a with rfl | ⟨a', y, rfl⟩
  · obtain ⟨rfl, hx⟩ := List.append_inj' hsplit rfl
    rw [← List.singleton_inj.mp hx]
    exact hadmits
  · rw [List.concat_eq_append, ← List.cons_append, ← List.append_assoc] at hsplit
    obtain ⟨hfront, -⟩ := List.append_inj' hsplit rfl
    exact h b x a' hfront

/-- The events rise. -/
theorem Sequential.rising (h : Sequential sessionId history) :
    history.Pairwise fun a b => a.sequence < b.sequence := by
  induction history using List.reverseRecOn with
  | nil => exact List.Pairwise.nil
  | append_singleton history e ih =>
    refine List.pairwise_append.mpr ⟨ih h.front, List.pairwise_singleton .., fun a ha b hb => ?_⟩
    rw [List.mem_singleton.mp hb]
    exact admits_later (h history e [] rfl) a ha

/-- A cursor divides the events. -/
theorem Sequential.divided (h : Sequential sessionId history) (n : Nat) :
    history = eventsUpTo n history ++ eventsAfter n history := by
  have hrising := h.rising
  clear h
  unfold eventsUpTo eventsAfter
  induction history with
  | nil => rfl
  | cons e history ih =>
    obtain ⟨hlater, hrest⟩ := List.pairwise_cons.mp hrising
    by_cases hle : e.sequence ≤ n
    · rw [List.filter_cons_of_pos (by simpa using hle),
        List.filter_cons_of_neg (by simpa using hle), List.cons_append]
      exact congrArg _ (ih hrest)
    · have hnone : history.filter (fun e => decide (e.sequence ≤ n)) = [] :=
        List.filter_eq_nil_iff.mpr fun a ha => by
          have := hlater a ha
          simp only [decide_eq_true_eq]
          omega
      have hall : history.filter (fun e => decide (n < e.sequence)) = history :=
        List.filter_eq_self.mpr fun a ha => by
          have := hlater a ha
          simp only [decide_eq_true_eq]
          omega
      rw [List.filter_cons_of_neg (by simpa using hle),
        List.filter_cons_of_pos (by simpa using hle), hnone, hall]
      rfl

/-- The next event moves over the cursor. -/
theorem Sequential.crossed (h : Sequential sessionId history)
    (hafter : eventsAfter n history = e :: after) :
    eventsUpTo e.sequence history = eventsUpTo n history ++ [e] ∧
      eventsAfter e.sequence history = after := by
  have hdivided := h.divided n
  have hrising := h.rising
  rw [hafter] at hdivided
  generalize hbefore : eventsUpTo n history = before at hdivided
  rw [hdivided] at hrising ⊢
  obtain ⟨-, hrest, hcross⟩ := List.pairwise_append.mp hrising
  have hlater := (List.pairwise_cons.mp hrest).1
  have hearlier : ∀ a ∈ before, a.sequence < e.sequence :=
    fun a ha => hcross a ha e (List.mem_cons_self ..)
  constructor
  · rw [eventsUpTo, List.filter_append, List.filter_cons_of_pos (by simp),
      List.filter_eq_self.mpr fun a ha => by simpa using (hearlier a ha).le,
      List.filter_eq_nil_iff.mpr fun a ha => by simpa using hlater a ha]
  · rw [eventsAfter, List.filter_append, List.filter_cons_of_neg (by simp),
      List.filter_eq_nil_iff.mpr fun a ha => by simpa using (hearlier a ha).le,
      List.filter_eq_self.mpr fun a ha => by simpa using hlater a ha, List.nil_append]

theorem event_new (hafter : eventsAfter n history = e :: after) : n < e.sequence := by
  have hmem : e ∈ eventsAfter n history := by
    rw [hafter]
    exact List.mem_cons_self ..
  exact of_decide_eq_true (List.mem_filter.mp hmem).2

/-! ## Open and ended runs -/

theorem openRun_snoc (history : List SessionEvent) (e : SessionEvent) :
    openRun (history ++ [e]) = opened (openRun history) e := by
  simp [openRun, List.foldl_append]

theorem endedRuns_snoc (history : List SessionEvent) (e : SessionEvent) :
    endedRuns (history ++ [e]) =
      endedRuns history ++ ((e.run.filter (·.state.isTerminal)).map (·.id)).toList := by
  rw [endedRuns, List.filterMap_append, List.filterMap_cons, List.filterMap_nil]
  cases (e.run.filter (·.state.isTerminal)).map (·.id) <;> rfl

theorem opened_of_none (hrun : e.run = none) (r : Option RunId) : opened r e = r := by
  rw [opened, hrun]

theorem opened_of_some (hrun : e.run = some run) (r : Option RunId) :
    opened r e = if run.state.isTerminal then none else some run.id := by
  rw [opened, hrun]

/-- An open run has not ended. -/
theorem Sequential.open_fresh (h : Sequential sessionId history) (hopen : openRun history = some r) :
    r ∉ endedRuns history := by
  induction history using List.reverseRecOn with
  | nil => cases hopen
  | append_singleton history e ih =>
    rw [openRun_snoc] at hopen
    rw [endedRuns_snoc]
    cases hrun : e.run with
    | none =>
      rw [opened_of_none hrun] at hopen
      simpa using ih h.front hopen
    | some run =>
      rw [opened_of_some hrun] at hopen
      split at hopen
      · cases hopen
      · rename_i hactive
        obtain rfl := Option.some.inj hopen
        have hfresh := (admits_run (h history e [] rfl) hrun).2.1
        simpa [Option.filter, hactive] using hfresh

/-- The next run has not ended. -/
theorem Sequential.next_fresh (h : Sequential sessionId (before ++ after))
    (hnext : nextRun before after = some r) : r ∉ endedRuns before := by
  rw [nextRun] at hnext
  cases hopen : openRun before with
  | some r' =>
    rw [hopen, Option.some_or] at hnext
    obtain rfl := Option.some.inj hnext
    exact h.front.open_fresh hopen
  | none =>
    rw [hopen, Option.none_or] at hnext
    obtain ⟨b, e, a, rfl, hfound, -⟩ := List.findSome?_eq_some_iff.mp hnext
    obtain ⟨run, hrun, rfl⟩ := Option.map_eq_some_iff.mp hfound
    have hadmits := h (before ++ b) e a (by simp)
    have hfresh := (admits_run hadmits hrun).2.1
    intro hended
    refine hfresh ?_
    rw [endedRuns, List.filterMap_append]
    exact List.mem_append_left _ hended

theorem nextRun_commit (hnext : nextRun before after = some r) :
    nextRun before (after ++ [e]) = some r := by
  rw [nextRun] at hnext ⊢
  cases hopen : openRun before with
  | some r' =>
    rw [hopen, Option.some_or] at hnext
    rw [Option.some_or, hnext]
  | none =>
    rw [hopen, Option.none_or] at hnext
    rw [Option.none_or, List.findSome?_append, hnext, Option.some_or]

/-- The run of the next run event. -/
theorem Sequential.next_run (h : Sequential sessionId (before ++ e :: after))
    (hrun : e.run = some run) : nextRun before (e :: after) = some run.id := by
  rw [nextRun]
  cases hopen : openRun before with
  | some r =>
    rw [Option.some_or, (admits_run (h before e after rfl) hrun).2.2 r hopen]
  | none =>
    rw [Option.none_or, List.findSome?_cons, hrun]
    rfl

theorem nextRun_other (hrun : e.run = none) :
    nextRun (before ++ [e]) after = nextRun before (e :: after) := by
  rw [nextRun, nextRun, openRun_snoc, opened_of_none hrun, List.findSome?_cons, hrun]
  rfl

/-! ## Both ends -/

variable {server : SessionSubscription} {client : ClientSubscription}
  {published deltas rest : List AssistantDelta} {delta : AssistantDelta} {active : Option RunId}
  {diagnosed waiting waiting' : List RunId} {s t : Streaming}

/-- The client has the active run of the server, and the terminal run too while
none is active. -/
structure Following (history : List SessionEvent) (server : SessionSubscription)
    (client : ClientSubscription) : Prop where
  sequential : Sequential server.sessionId history
  usable : client.usable = true
  scope : client.sessionId = server.sessionId
  serverCursor : server.cursor.sessionId = server.sessionId
  clientCursor : client.cursor.sessionId = server.sessionId
  behind : client.cursor.sequence ≤ server.cursor.sequence
  active : client.activeDeltaRun = server.activeRun
  next : ∀ r, server.activeRun = some r →
    nextRun (eventsUpTo server.cursor.sequence history)
      (eventsAfter server.cursor.sequence history) = some r
  ended : ∀ r, client.terminalDeltaRun = some r →
    r ∈ endedRuns (eventsUpTo server.cursor.sequence history)
  agreed : server.activeRun = none → server.terminalRun = client.terminalDeltaRun

/-- The queued deltas of the active run come after the last one that was sent. -/
structure Queued (sessionId : SessionId) (published deltas : List AssistantDelta)
    (active : Option RunId) (sequence : Nat) : Prop where
  resting : active = none → sequence = 0
  sent : ∀ r, active = some r → sequence = 0 ∨ ∃ p ∈ published, p.runId = r ∧ p.sequence = sequence
  queued : ∀ d ∈ deltas, d.sessionId = sessionId →
    d ∈ published ∧ 0 < d.sequence ∧ (active = some d.runId → sequence < d.sequence)
  rising : deltas.Pairwise fun d e => d.sessionId = sessionId → e.sessionId = sessionId →
    d.runId = e.runId → d.sequence < e.sequence

/-- The client waits for the diagnostic of the run that failed, until it was sent. -/
structure Noted (diagnosed waiting : List RunId) (server : SessionSubscription)
    (client : ClientSubscription) : Prop where
  known : ∀ r ∈ waiting, r ∈ diagnosed
  distinct : waiting.Nodup
  native : server.activeRun = none → server.nativeProtocolFailure = true →
    ∀ r, server.terminalRun = some r →
      client.nativeFailureRun = some r ∨ (r ∈ diagnosed ∧ r ∉ waiting)

namespace Following

theorem terminal_fresh (h : Following history server client) (hactive : server.activeRun = some r) :
    client.terminalDeltaRun ≠ some r := by
  intro hterminal
  have hsequential := h.sequential
  rw [hsequential.divided server.cursor.sequence] at hsequential
  exact hsequential.next_fresh (h.next r hactive) (h.ended r hterminal)

theorem commit (h : Following history server client)
    (hadmits : admits server.sessionId history e = true)
    (hnew : server.cursor.sequence < e.sequence) : Following (history ++ [e]) server client := by
  have hupTo : eventsUpTo server.cursor.sequence (history ++ [e]) =
      eventsUpTo server.cursor.sequence history := by
    rw [eventsUpTo, List.filter_append, List.filter_cons_of_neg (by simpa using hnew)]
    simp [eventsUpTo]
  have hafter : eventsAfter server.cursor.sequence (history ++ [e]) =
      eventsAfter server.cursor.sequence history ++ [e] := by
    rw [eventsAfter, List.filter_append, List.filter_cons_of_pos (by simpa using hnew)]
    rfl
  refine { h with sequential := h.sequential.commit hadmits, next := fun r hr => ?_, ended := ?_ }
  · rw [hupTo, hafter]
    exact nextRun_commit (h.next r hr)
  · rw [hupTo]
    exact h.ended

/-- What the client has to take for the next event. -/
theorem advanceCursor (h : Following history server client)
    (hnew : server.cursor.sequence < n) :
    client.advanceCursor ⟨server.sessionId, n⟩ =
      ({ client with cursor := ⟨server.sessionId, n⟩ }, none) := by
  have hbehind := h.behind
  rw [ClientSubscription.advanceCursor, if_neg (not_not.mpr h.scope.symm), if_neg]
  · rfl
  · simp only [EventCursor.notAfter, h.clientCursor, Bool.or_eq_true, Bool.and_eq_true,
      decide_eq_true_eq, lt_self_iff_false, true_and, false_or]
    omega

/-- An event without a run only moves the cursors. -/
theorem passed (h : Following history server client)
    (hafter : eventsAfter server.cursor.sequence history = e :: after) (hrun : e.run = none)
    {cursor : EventCursor} (hscope : cursor.sessionId = server.sessionId)
    (hcursor : cursor.sequence ≤ e.sequence) :
    Following history { server with cursor := ⟨server.sessionId, e.sequence⟩ }
      { client with cursor } := by
  obtain ⟨hupTo, hrest⟩ := h.sequential.crossed hafter
  refine { h with
    serverCursor := rfl, clientCursor := hscope, behind := hcursor, next := fun r hr => ?_,
    ended := fun r hr => ?_ }
  · rw [hupTo, hrest, nextRun_other hrun, ← hafter]
    exact h.next r hr
  · rw [hupTo, endedRuns_snoc]
    exact List.mem_append_left _ (h.ended r hr)

/-- The run of the next run event is the active one, if there is one. -/
theorem active_run (h : Following history server client)
    (hafter : eventsAfter server.cursor.sequence history = e :: after) (hrun : e.run = some run) :
    ∀ r, server.activeRun = some r → r = run.id := by
  intro r hr
  have hsequential := h.sequential
  rw [hsequential.divided server.cursor.sequence, hafter] at hsequential
  have hnext := h.next r hr
  rw [hafter, hsequential.next_run hrun] at hnext
  exact (Option.some.inj hnext).symm

theorem run_admitted (h : Following history server client)
    (hafter : eventsAfter server.cursor.sequence history = e :: after) (hrun : e.run = some run) :
    run.sessionId = server.sessionId ∧
      run.id ∉ endedRuns (eventsUpTo server.cursor.sequence history) := by
  have hadmits := h.sequential _ e after (by rw [← hafter]; exact h.sequential.divided _)
  exact ⟨(admits_run hadmits hrun).1, (admits_run hadmits hrun).2.1⟩

/-- The client takes the end of a run. -/
theorem validate_ended (h : Following history server client)
    (hafter : eventsAfter server.cursor.sequence history = e :: after) (hrun : e.run = some run)
    (hterminal : run.state.isTerminal = true) :
    client.validateEvent (.runChanged ⟨server.sessionId, e.sequence⟩ run) =
      ({ client with
        cursor := ⟨server.sessionId, e.sequence⟩
        activeDeltaRun := none
        deltaSequence := if server.activeRun = some run.id then 0 else client.deltaSequence
        nativeFailureRun := if nativeProtocolFailed run then some run.id else none
        terminalDeltaRun := some run.id }, none) := by
  obtain ⟨hscope, hfresh⟩ := h.run_admitted hafter hrun
  have hactive : (client.activeDeltaRun.any fun active => decide (active ≠ run.id)) = false := by
    rw [h.active]
    cases hserver : server.activeRun with
    | none => rfl
    | some r => simp [h.active_run hafter hrun r hserver]
  have hended : client.terminalDeltaRun ≠ some run.id := fun e => hfresh (h.ended _ e)
  rw [ClientSubscription.validateEvent, if_neg (by rw [hscope, h.scope]; simp),
    h.advanceCursor (event_new hafter)]
  simp only [ClientSubscription.validateRun]
  rw [if_pos hterminal, hactive]
  simp [ClientSubscription.ok, hended, h.active]

/-- The client takes a run that has not ended. -/
theorem validate_open (h : Following history server client)
    (hafter : eventsAfter server.cursor.sequence history = e :: after) (hrun : e.run = some run)
    (hopen : run.state.isTerminal = false) :
    client.validateEvent (.runChanged ⟨server.sessionId, e.sequence⟩ run) =
      ({ client with
        cursor := ⟨server.sessionId, e.sequence⟩
        activeDeltaRun := some run.id
        nativeFailureRun := none
        terminalDeltaRun := if server.activeRun = none then none else client.terminalDeltaRun },
        none) := by
  obtain ⟨hscope, hfresh⟩ := h.run_admitted hafter hrun
  have hended : client.terminalDeltaRun ≠ some run.id := fun e => hfresh (h.ended _ e)
  rw [ClientSubscription.validateEvent, if_neg (by rw [hscope, h.scope]; simp),
    h.advanceCursor (event_new hafter)]
  simp only [ClientSubscription.validateRun]
  rw [hopen, if_neg Bool.false_ne_true, if_neg hended, h.active]
  cases hserver : server.activeRun with
  | none => simp [ClientSubscription.ok]
  | some r =>
    obtain rfl := h.active_run hafter hrun r hserver
    simp [ClientSubscription.ok]

/-- The terminal event of a run. -/
theorem runEnded (h : Following history server client)
    (hafter : eventsAfter server.cursor.sequence history = e :: after) (hrun : e.run = some run)
    (hterminal : run.state.isTerminal = true) {deltaSequence : Nat} :
    Following history
      { server with
        cursor := ⟨server.sessionId, e.sequence⟩
        nativeProtocolFailure := nativeProtocolFailed run
        activeRun := none
        terminalRun := some run.id }
      { client with
        cursor := ⟨server.sessionId, e.sequence⟩
        activeDeltaRun := none
        deltaSequence
        nativeFailureRun := if nativeProtocolFailed run then some run.id else none
        terminalDeltaRun := some run.id } where
  sequential := h.sequential
  usable := h.usable
  scope := h.scope
  serverCursor := rfl
  clientCursor := rfl
  behind := le_refl _
  active := rfl
  next r hr := by cases hr
  ended r hr := by
    obtain ⟨hupTo, -⟩ := h.sequential.crossed hafter
    obtain rfl := Option.some.inj hr
    rw [hupTo, endedRuns_snoc, hrun]
    exact List.mem_append_right _ (by simp [Option.filter, hterminal])
  agreed _ := rfl

/-- An event of a run that has not ended. -/
theorem runOpen (h : Following history server client)
    (hafter : eventsAfter server.cursor.sequence history = e :: after) (hrun : e.run = some run)
    (hopen : run.state.isTerminal = false) :
    Following history
      { server with
        cursor := ⟨server.sessionId, e.sequence⟩
        nativeProtocolFailure := nativeProtocolFailed run
        activeRun := some run.id
        terminalRun := none }
      { client with
        cursor := ⟨server.sessionId, e.sequence⟩
        activeDeltaRun := some run.id
        nativeFailureRun := none
        terminalDeltaRun := if server.activeRun = none then none else client.terminalDeltaRun } where
  sequential := h.sequential
  usable := h.usable
  scope := h.scope
  serverCursor := rfl
  clientCursor := rfl
  behind := le_refl _
  active := rfl
  next r hr := by
    obtain ⟨hupTo, -⟩ := h.sequential.crossed hafter
    obtain rfl := Option.some.inj hr
    simp only
    rw [hupTo, nextRun, openRun_snoc, opened_of_some hrun, hopen, if_neg Bool.false_ne_true,
      Option.some_or]
  ended r hr := by
    obtain ⟨hupTo, -⟩ := h.sequential.crossed hafter
    simp only at hr ⊢
    split at hr
    · cases hr
    · rw [hupTo, endedRuns_snoc]
      exact List.mem_append_left _ (h.ended r hr)
  agreed hnone := by cases hnone

end Following

namespace Queued

theorem rested (h : Queued sessionId published deltas active n) :
    Queued sessionId published deltas none 0 where
  resting _ := rfl
  sent _ hr := by cases hr
  queued d hd hown := ⟨(h.queued d hd hown).1, (h.queued d hd hown).2.1, fun hr => by cases hr⟩
  rising := h.rising

/-- The run becomes active, or is. -/
theorem opened (h : Queued sessionId published deltas active n)
    (hactive : ∀ r', active = some r' → r' = r) : Queued sessionId published deltas (some r) n := by
  cases active with
  | none =>
    obtain rfl := h.resting rfl
    exact ⟨fun _ => rfl, fun _ _ => Or.inl rfl, fun d hd hown =>
      ⟨(h.queued d hd hown).1, (h.queued d hd hown).2.1, fun _ => (h.queued d hd hown).2.1⟩,
      h.rising⟩
  | some r' =>
    obtain rfl := hactive r' rfl
    exact h

theorem lag (h : Queued sessionId published deltas active n) (dropped : Nat) :
    Queued sessionId published (deltas.drop dropped) active n :=
  ⟨h.resting, h.sent, fun d hd => h.queued d (List.mem_of_mem_drop hd),
    h.rising.sublist (List.drop_sublist ..)⟩

/-- A delta of another session. -/
theorem foreign (h : Queued sessionId published deltas active n)
    (hforeign : delta.sessionId ≠ sessionId) :
    Queued sessionId published (deltas ++ [delta]) active n := by
  refine ⟨h.resting, h.sent, fun d hd hown => ?_, ?_⟩
  · rcases List.mem_append.mp hd with hd | hd
    · exact h.queued d hd hown
    · rw [List.mem_singleton.mp hd] at hown
      exact absurd hown hforeign
  · refine List.pairwise_append.mpr ⟨h.rising, List.pairwise_singleton .., fun d _ x hx _ hown => ?_⟩
    rw [List.mem_singleton.mp hx] at hown
    exact absurd hown hforeign

/-- A delta of the session comes after those of its run. -/
theorem publish (h : Queued sessionId published deltas active n) (hpositive : 0 < delta.sequence)
    (hlater : ∀ p ∈ published, p.runId = delta.runId → p.sequence < delta.sequence) :
    Queued sessionId (published ++ [delta]) (deltas ++ [delta]) active n := by
  refine ⟨h.resting, fun r hr => ?_, fun d hd hown => ?_, ?_⟩
  · rcases h.sent r hr with hzero | ⟨p, hp, hsame⟩
    · exact Or.inl hzero
    · exact Or.inr ⟨p, List.mem_append_left _ hp, hsame⟩
  · rcases List.mem_append.mp hd with hd | hd
    · obtain ⟨hmem, hrest⟩ := h.queued d hd hown
      exact ⟨List.mem_append_left _ hmem, hrest⟩
    · obtain rfl := List.mem_singleton.mp hd
      refine ⟨List.mem_append_right _ (List.mem_singleton_self _), hpositive, fun hr => ?_⟩
      rcases h.sent _ hr with rfl | ⟨p, hp, hrun, rfl⟩
      · exact hpositive
      · exact hlater p hp hrun
  · refine List.pairwise_append.mpr
      ⟨h.rising, List.pairwise_singleton .., fun d hd x hx hown _ hrun => ?_⟩
    rw [List.mem_singleton.mp hx] at hrun ⊢
    exact hlater d (h.queued d hd hown).1 hrun

theorem skip (h : Queued sessionId published (delta :: rest) active n) :
    Queued sessionId published rest active n :=
  ⟨h.resting, h.sent, fun d hd => h.queued d (List.mem_cons_of_mem _ hd),
    (List.pairwise_cons.mp h.rising).2⟩

/-- The oldest delta is sent. -/
theorem send (h : Queued sessionId published (delta :: rest) active n)
    (hown : delta.sessionId = sessionId) :
    Queued sessionId published rest (some delta.runId) delta.sequence := by
  refine ⟨fun hnone => (by cases hnone), fun r hr => ?_, fun d hd hsession => ?_, ?_⟩
  · exact Or.inr ⟨delta, (h.queued delta (List.mem_cons_self ..) hown).1, Option.some.inj hr, rfl⟩
  · obtain ⟨hmem, hpositive, -⟩ := h.queued d (List.mem_cons_of_mem _ hd) hsession
    exact ⟨hmem, hpositive, fun hr =>
      (List.pairwise_cons.mp h.rising).1 d hd hown hsession (Option.some.inj hr)⟩
  · exact (List.pairwise_cons.mp h.rising).2

end Queued

namespace Noted

/-- A run that is active has no diagnostic. -/
theorem running (h : Noted diagnosed waiting server client) {server' : SessionSubscription}
    {client' : ClientSubscription} (hactive : server'.activeRun = some r) :
    Noted diagnosed waiting server' client' :=
  ⟨h.known, h.distinct, fun hnone => by rw [hactive] at hnone; cases hnone⟩

theorem runEnded (h : Noted diagnosed waiting server client) {server' : SessionSubscription}
    {client' : ClientSubscription}
    (hfailure : server'.nativeProtocolFailure = nativeProtocolFailed run)
    (hterminal : server'.terminalRun = some run.id)
    (hnative : client'.nativeFailureRun =
      if nativeProtocolFailed run then some run.id else none) :
    Noted diagnosed waiting server' client' := by
  refine ⟨h.known, h.distinct, fun _ hfailed r hr => Or.inl ?_⟩
  rw [hfailure] at hfailed
  rw [hnative, hfailed, if_pos rfl, ← hterminal, hr]

/-- Diagnostics are only lost. -/
theorem lose (h : Noted diagnosed waiting server client) (hsublist : waiting'.Sublist waiting) :
    Noted diagnosed waiting' server client := by
  refine ⟨fun r hr => h.known r (hsublist.subset hr), h.distinct.sublist hsublist,
    fun hnone hfailed r hr => ?_⟩
  rcases h.native hnone hfailed r hr with hnative | ⟨hknown, hsent⟩
  · exact Or.inl hnative
  · exact Or.inr ⟨hknown, fun hmem => hsent (hsublist.subset hmem)⟩

theorem publish (h : Noted diagnosed waiting server client) (hnew : r ∉ diagnosed) :
    Noted (r :: diagnosed) (waiting ++ [r]) server client := by
  refine ⟨fun x hx => ?_, ?_, fun hnone hfailed x hx => ?_⟩
  · rcases List.mem_append.mp hx with hx | hx
    · exact List.mem_cons_of_mem _ (h.known x hx)
    · rw [List.mem_singleton.mp hx]
      exact List.mem_cons_self ..
  · refine List.nodup_append.mpr ⟨h.distinct, List.nodup_singleton _, ?_⟩
    rintro x hx y hy rfl
    exact hnew (List.mem_singleton.mp hy ▸ h.known x hx)
  · rcases h.native hnone hfailed x hx with hnative | ⟨hknown, hsent⟩
    · exact Or.inl hnative
    · refine Or.inr ⟨List.mem_cons_of_mem _ hknown, fun hmem => ?_⟩
      rcases List.mem_append.mp hmem with hmem | hmem
      · exact hsent hmem
      · exact hnew (List.mem_singleton.mp hmem ▸ hknown)

/-- The diagnostic that is sent is the one the client waits for. -/
theorem expected (h : Noted diagnosed (r :: waiting) server client)
    (hnone : server.activeRun = none) (hfailed : server.nativeProtocolFailure = true)
    (hterminal : server.terminalRun = some r) : client.nativeFailureRun = some r := by
  rcases h.native hnone hfailed r hterminal with hnative | ⟨-, hsent⟩
  · exact hnative
  · exact absurd (List.mem_cons_self ..) hsent

theorem send (h : Noted diagnosed (r :: waiting) server client)
    (hterminal : server.terminalRun = some r) {client' : ClientSubscription} :
    Noted diagnosed waiting server client' := by
  obtain ⟨hnew, hdistinct⟩ := List.nodup_cons.mp h.distinct
  refine ⟨fun x hx => h.known x (List.mem_cons_of_mem _ hx), hdistinct, fun _ _ x hx => ?_⟩
  obtain rfl := Option.some.inj (hterminal.symm.trans hx)
  exact Or.inr ⟨h.known r (List.mem_cons_self ..), hnew⟩

end Noted

/-! ## The system -/

/-- The runs of the session whose diagnostics are still to be sent. -/
def Streaming.unsent (s : Streaming) : List RunId :=
  ((s.pendingDiagnostic.toList ++ s.diagnostics).filter fun d =>
    decide (d.sessionId = s.server.sessionId)).map (·.runId)

theorem advance_cursor (server : SessionSubscription) (event : DeliveredSessionEvent) :
    (server.advance event).cursor = event.cursor := by
  unfold SessionSubscription.advance
  simp only
  split
  · split <;> rfl
  · rfl

theorem advance_session (server : SessionSubscription) (event : DeliveredSessionEvent) :
    (server.advance event).sessionId = server.sessionId := by
  unfold SessionSubscription.advance
  simp only
  split
  · split <;> rfl
  · rfl

theorem Streaming.deliver_server (s : Streaming) (event : DeliveredSessionEvent) :
    (s.deliver event).server = s.server.advance event := by
  unfold Streaming.deliver
  simp only
  split <;> rfl

theorem Streaming.deliver_history (s : Streaming) (event : DeliveredSessionEvent) :
    (s.deliver event).history = s.history := by
  unfold Streaming.deliver
  simp only
  split <;> rfl

structure Followed (s : Streaming) : Prop where
  following : Following s.history s.server s.client
  queued : Queued s.server.sessionId s.published s.deltas s.server.activeRun s.client.deltaSequence
  noted : Noted s.diagnosed s.unsent s.server s.client
  known : s.server.cursor.sequence ≤ s.highWater
  events : ∀ e ∈ s.history, e.sequence ≤ s.highWater

namespace Followed

theorem started (h : s.Started) : Followed s := by
  have hactive : s.server.activeRun = none := by rw [h.server]
  have hfailure : s.server.nativeProtocolFailure = false := by rw [h.server]
  have hwaiting : s.unsent = [] := by simp [Streaming.unsent, h.pending, h.diagnostics]
  refine ⟨?_, ?_, ?_, h.known, h.events⟩
  · refine ⟨h.sequential, ?_, ?_, h.cursor, ?_, ?_, ?_, fun r hr => ?_, fun r hr => ?_, fun _ => ?_⟩
    · rw [h.client]
    · rw [h.client]
    · rw [h.client]
      exact h.cursor
    · rw [h.client]
    · rw [h.client, hactive]
    · rw [hactive] at hr
      cases hr
    · rw [h.client] at hr
      cases hr
    · rw [h.client, h.server]
  · rw [h.deltas, hactive, h.client]
    exact ⟨fun _ => rfl, fun _ hr => (by cases hr), fun d hd => absurd hd List.not_mem_nil,
      List.Pairwise.nil⟩
  · rw [hwaiting]
    refine ⟨fun r hr => absurd hr List.not_mem_nil, List.nodup_nil, fun _ hfailed => ?_⟩
    rw [hfailure] at hfailed
    cases hfailed

theorem unread (h : Followed s) (hafter : s.undelivered = e :: after) :
    e.sequence ≤ s.highWater := by
  refine h.events e ?_
  have hmem : e ∈ s.undelivered := by
    rw [hafter]
    exact List.mem_cons_self ..
  exact (List.mem_filter.mp hmem).1

/-- An event without a run moves the cursors. -/
theorem passed (h : Followed s) (hafter : s.undelivered = e :: after) (hrun : e.run = none)
    {cursor : EventCursor} (hscope : cursor.sessionId = s.server.sessionId)
    (hcursor : cursor.sequence ≤ e.sequence) :
    Followed { s with
      server := { s.server with cursor := ⟨s.server.sessionId, e.sequence⟩ }
      client := { s.client with cursor } } :=
  ⟨h.following.passed hafter hrun hscope hcursor, h.queued,
    ⟨h.noted.known, h.noted.distinct, h.noted.native⟩, h.unread hafter, h.events⟩

theorem runChanged (h : Followed s) (hafter : s.undelivered = e :: after)
    (hrun : e.run = some run) :
    Followed { s with
      server := s.server.advance
        ⟨⟨s.server.sessionId, e.sequence⟩, some (.runChanged ⟨s.server.sessionId, e.sequence⟩ run)⟩
      client := (s.client.validateEvent
        (.runChanged ⟨s.server.sessionId, e.sequence⟩ run)).1 } := by
  have hactive := h.following.active_run hafter hrun
  cases hterminal : run.state.isTerminal with
  | true =>
    have hnone : (if s.server.activeRun = some run.id then none else s.server.activeRun) = none := by
      cases hserver : s.server.activeRun with
      | none => simp
      | some r => simp [hactive r hserver]
    rw [h.following.validate_ended hafter hrun hterminal]
    simp only [SessionSubscription.advance, hterminal, if_true, hnone]
    refine ⟨h.following.runEnded hafter hrun hterminal, ?_, h.noted.runEnded rfl rfl rfl,
      h.unread hafter, h.events⟩
    have hsequence : (if s.server.activeRun = some run.id then 0 else s.client.deltaSequence) = 0 := by
      split
      · rfl
      · rename_i hother
        refine h.queued.resting ?_
        cases hserver : s.server.activeRun with
        | none => rfl
        | some r => exact absurd (by rw [hserver, hactive r hserver]) hother
    simp only [hsequence]
    exact h.queued.rested
  | false =>
    rw [h.following.validate_open hafter hrun hterminal]
    simp only [SessionSubscription.advance, hterminal, Bool.false_eq_true, if_false]
    exact ⟨h.following.runOpen hafter hrun hterminal, h.queued.opened hactive,
      h.noted.running rfl, h.unread hafter, h.events⟩

/-- The next event reaches both ends. -/
theorem deliver (h : Followed s) (hafter : s.undelivered = e :: after)
    (hreadable : e.readable = true) : Followed (s.deliver (e.deliver s.server.sessionId)) := by
  have htaken := h.following.advanceCursor (event_new hafter)
  have hscope := h.following.scope
  obtain ⟨sequence, payload⟩ := e
  cases payload with
  | transcriptEntry entry =>
    have hvalid : entry.valid = true := by
      cases entry with
      | userMessage text attachments => exact validImageAttachments_stored hreadable
      | other => rfl
    have hclient : s.client.validateEvent
        (.transcriptEntryCommitted ⟨s.server.sessionId, sequence⟩ s.server.sessionId entry) =
          ({ s.client with cursor := ⟨s.server.sessionId, sequence⟩ }, none) := by
      rw [ClientSubscription.validateEvent, if_neg (by simp [hscope, hvalid]), htaken]
    show Followed { s with server := _, client := (s.client.validateEvent _).1 }
    rw [hclient]
    exact h.passed hafter rfl rfl (le_refl _)
  | runChanged run => exact h.runChanged hafter rfl
  | localCommandChanged commandId active =>
    have hclient : s.client.validateEvent (.localCommandChanged ⟨s.server.sessionId, sequence⟩
        s.server.sessionId commandId active) =
          ({ s.client with cursor := ⟨s.server.sessionId, sequence⟩ }, none) := by
      rw [ClientSubscription.validateEvent, if_neg (by simp [hscope]), htaken]
    show Followed { s with server := _, client := (s.client.validateEvent _).1 }
    rw [hclient]
    exact h.passed hafter rfl rfl (le_refl _)
  | workspaceChanged =>
    have hbehind : s.client.cursor.sequence ≤ sequence :=
      le_trans h.following.behind (event_new hafter).le
    exact h.passed hafter rfl h.following.clientCursor hbehind

theorem deliver_rest (h : Followed s) (hafter : s.undelivered = e :: after) :
    (s.deliver (e.deliver s.server.sessionId)).undelivered = after ∧
      (s.deliver (e.deliver s.server.sessionId)).server.sessionId = s.server.sessionId := by
  obtain ⟨-, hrest⟩ := h.following.sequential.crossed hafter
  rw [Streaming.undelivered, Streaming.deliver_history, Streaming.deliver_server, advance_cursor,
    advance_session]
  exact ⟨hrest, rfl⟩

/-- A page of events. -/
theorem deliverAll (h : Followed s) {page : List SessionEvent} (hafter : s.undelivered = page ++ after)
    (hreadable : ∀ e ∈ page, e.readable = true) :
    Followed ((page.map (SessionEvent.deliver s.server.sessionId)).foldl Streaming.deliver s) := by
  induction page generalizing s with
  | nil => exact h
  | cons e page ih =>
    obtain ⟨hrest, hsame⟩ := h.deliver_rest hafter
    have hfirst := h.deliver hafter (hreadable e (List.mem_cons_self ..))
    rw [List.map_cons, List.foldl_cons]
    have hpage := ih hfirst hrest fun e he => hreadable e (List.mem_cons_of_mem _ he)
    rwa [hsame] at hpage

theorem read (h : Followed s) : Followed s.read := by
  unfold Streaming.read
  split
  · exact ⟨h.following, h.queued, h.noted, h.known, h.events⟩
  · exact ⟨h.following, h.queued, h.noted, h.known, h.events⟩
  · rename_i event events hread
    unfold readSessionEvents at hread
    simp only at hread
    split at hread
    case isFalse => cases hread
    case isTrue hpage =>
      rw [← Option.some.inj hread]
      exact h.deliverAll (List.take_append_drop sessionReplayPageSize s.undelivered).symm
        fun e he => List.all_eq_true.mp hpage.2.2 e he

/-- A compaction that the server accepts does not change the client. -/
theorem compaction_taken (h : Following history server client)
    (haccepts : server.acceptsCompaction r = true) (active : Bool) :
    (client.validateEvent (.compactionActivity server.sessionId r active)).1 = client := by
  simp only [SessionSubscription.acceptsCompaction, Bool.and_eq_true, decide_eq_true_eq,
    Option.all_eq_true] at haccepts
  have hother : (client.activeDeltaRun.any fun run => decide (run ≠ r)) = false := by
    rw [h.active]
    cases hserver : server.activeRun with
    | none => rfl
    | some r' => simp [haccepts.2 r' hserver]
  have hterminal : client.terminalDeltaRun ≠ some r := by
    cases hserver : server.activeRun with
    | none => exact h.agreed hserver ▸ haccepts.1
    | some r' =>
      obtain rfl := haccepts.2 r' hserver
      exact h.terminal_fresh hserver
  rw [ClientSubscription.validateEvent, hother, if_neg]
  · rfl
  · rintro (hscope | hrun | ⟨-, hended⟩)
    · exact hscope h.scope.symm
    · cases hrun
    · exact hterminal hended

theorem presentStopped (h : Followed s) {found : Option RunId}
    (hfound : ∀ r, found = some r → s.server.acceptsCompaction r = true) (active : Bool) :
    s.presentStopped found active = s := by
  cases found with
  | none => rfl
  | some r =>
    show { s with client := (s.client.validateEvent _).1 } = s
    rw [compaction_taken h.following (hfound r rfl) active]

theorem presentCompaction (h : Followed s) : Followed s.presentCompaction := by
  unfold Streaming.presentCompaction
  simp only
  split
  · exact h
  · rw [h.presentStopped (fun r hr => (Option.filter_eq_some_iff.mp hr).2),
      h.presentStopped (fun r hr => (Option.filter_eq_some_iff.mp hr).2)]
    exact ⟨h.following, h.queued, h.noted, h.known, h.events⟩

/-- A diagnostic that is not sent is lost. -/
theorem withoutPending (h : Followed s) : Followed { s with pendingDiagnostic := none } := by
  refine ⟨h.following, h.queued, h.noted.lose ?_, h.known, h.events⟩
  exact (List.Sublist.filter _ (List.sublist_append_right _ _)).map _

theorem presentDiagnostic (h : Followed s) : Followed s.presentDiagnostic := by
  unfold Streaming.presentDiagnostic
  split
  · exact h
  rename_i diagnostic hpending
  simp only
  split
  case isFalse => exact h.withoutPending
  case isTrue haccepts =>
    simp only [SessionSubscription.acceptsNativeDiagnostic, Bool.and_eq_true, decide_eq_true_eq,
      Option.isNone_iff_eq_none] at haccepts
    obtain ⟨⟨⟨hscope, hfailed⟩, hnone⟩, hterminal⟩ := haccepts
    have hunsent : s.unsent =
        diagnostic.runId :: Streaming.unsent { s with pendingDiagnostic := none } := by
      simp [Streaming.unsent, hpending, hscope]
    have hnoted := h.noted
    rw [hunsent] at hnoted
    have hexpected := hnoted.expected hnone hfailed hterminal
    have hclient : s.client.validateEvent
        (.nativeResponseDiagnostic diagnostic.sessionId diagnostic.runId) =
          ({ s.client with nativeFailureRun := none }, none) := by
      have hclientTerminal : s.client.terminalDeltaRun = some diagnostic.runId :=
        (h.following.agreed hnone).symm.trans hterminal
      have hclientActive : s.client.activeDeltaRun = none := h.following.active.trans hnone
      rw [ClientSubscription.validateEvent, if_neg (by
        simp [hscope, h.following.scope, hexpected, hclientTerminal, hclientActive])]
      rfl
    show Followed { s with pendingDiagnostic := none, client := (s.client.validateEvent _).1 }
    rw [hclient]
    have hf := h.following
    exact ⟨⟨hf.sequential, hf.usable, hf.scope, hf.serverCursor, hf.clientCursor, hf.behind,
      hf.active, hf.next, hf.ended, hf.agreed⟩, h.queued, hnoted.send hterminal, h.known, h.events⟩

theorem receiveDiagnostic (h : Followed s) : Followed s.receiveDiagnostic := by
  unfold Streaming.receiveDiagnostic
  split
  · exact h
  rename_i diagnostic rest hqueue
  refine ⟨h.following, h.queued, h.noted.lose ?_, h.known, h.events⟩
  simp only [Streaming.unsent, hqueue]
  refine (List.Sublist.filter _ ?_).map _
  split
  · exact List.sublist_append_right _ _
  · exact (List.sublist_cons_self _ _).append_left _

/-- A timely delta is of the active run, or of the next one. -/
theorem receiveDelta (h : Followed s) (htimely : s.timely .receiveDelta = true) :
    Followed s.receiveDelta := by
  unfold Streaming.receiveDelta
  split
  · exact h
  rename_i delta rest hqueue
  have hqueued := h.queued
  rw [hqueue] at hqueued
  simp only [Streaming.timely, hqueue, List.head?_cons, Option.all_some, Bool.or_eq_true,
    Bool.not_eq_true', decide_eq_true_eq] at htimely
  by_cases haccepts : delta.sessionId = s.server.sessionId ∧
      s.server.terminalRun ≠ some delta.runId ∧ ∀ r, s.server.activeRun = some r → r = delta.runId
  · obtain ⟨hscope, hterminal, hactive⟩ := haccepts
    have haccepted : s.server.acceptsDelta delta =
        ({ s.server with activeRun := some delta.runId }, true) := by
      rw [SessionSubscription.acceptsDelta, if_neg]
      rintro (hforeign | hended | hother)
      · exact hforeign hscope
      · exact hterminal hended
      · obtain ⟨r, hr, hne⟩ := Option.any_eq_true _ _ |>.mp hother
        exact of_decide_eq_true hne (hactive r hr)
    rw [haccepted] at htimely
    have hnext : nextRun s.delivered s.undelivered = some delta.runId := by
      rcases htimely with (hrefused | hsome) | hnext
      · cases hrefused
      · obtain ⟨r, hr⟩ := Option.isSome_iff_exists.mp hsome
        exact hactive r hr ▸ h.following.next r hr
      · exact hnext
    have hfresh : s.client.terminalDeltaRun ≠ some delta.runId := by
      cases hserver : s.server.activeRun with
      | none => exact h.following.agreed hserver ▸ hterminal
      | some r =>
        obtain rfl := hactive r hserver
        exact h.following.terminal_fresh hserver
    have hsequence : s.client.deltaSequence < delta.sequence := by
      obtain ⟨-, hpositive, hlater⟩ := hqueued.queued delta (List.mem_cons_self ..) hscope
      cases hserver : s.server.activeRun with
      | none => exact hqueued.resting hserver ▸ hpositive
      | some r =>
        obtain rfl := hactive r hserver
        exact hlater hserver
    have hother : (s.client.activeDeltaRun.any fun active => decide (active ≠ delta.runId)) =
        false := by
      rw [h.following.active]
      cases hserver : s.server.activeRun with
      | none => rfl
      | some r => simp [hactive r hserver]
    have hclient : s.client.validateEvent (.assistantDelta delta.sessionId delta.runId
        delta.sequence delta.delta delta.refusal) =
          ({ s.client with
            activeDeltaRun := some delta.runId, deltaSequence := delta.sequence }, none) := by
      rw [ClientSubscription.validateEvent, hother,
        if_neg (by simp [hscope, h.following.scope, hfresh]), if_neg Bool.false_ne_true,
        ClientSubscription.validateDelta, if_neg (by omega)]
      rfl
    rw [haccepted]
    show Followed { s with
      deltas := rest
      server := { s.server with activeRun := some delta.runId }
      phase := .reading
      client := (s.client.validateEvent _).1 }
    rw [hclient]
    have hf := h.following
    refine ⟨⟨hf.sequential, hf.usable, hf.scope, hf.serverCursor, hf.clientCursor, hf.behind, rfl,
      fun r hr => ?_, hf.ended, fun hnone => by cases hnone⟩, hqueued.send hscope,
      h.noted.running rfl, h.known, h.events⟩
    exact Option.some.inj hr ▸ hnext
  · have hrefused : s.server.acceptsDelta delta = (s.server, false) := by
      rw [SessionSubscription.acceptsDelta, if_pos]
      by_contra hnone
      simp only [not_or, not_not] at hnone
      refine haccepts ⟨hnone.1, hnone.2.1, fun r hr => ?_⟩
      have hany := hnone.2.2
      rw [hr] at hany
      simpa using hany
    rw [hrefused]
    exact ⟨h.following, hqueued.skip, h.noted, h.known, h.events⟩

/-- **One step.** -/
theorem move (h : Followed s) (m : Streaming.Move) (hallows : s.allows m = true)
    (htimely : s.timely m = true) : Followed (s.move m) := by
  cases m with
  | commit e =>
    simp only [Streaming.allows, Bool.and_eq_true, decide_eq_true_eq] at hallows
    obtain ⟨hnew, hadmits⟩ := hallows
    refine ⟨h.following.commit hadmits (lt_of_le_of_lt h.known hnew), h.queued, h.noted,
      le_trans h.known hnew.le, fun x hx => ?_⟩
    rcases List.mem_append.mp hx with hx | hx
    · exact le_trans (h.events x hx) hnew.le
    · rw [List.mem_singleton.mp hx]
      exact le_refl _
  | publishDelta delta =>
    simp only [Streaming.allows, Bool.or_eq_true, Bool.and_eq_true, decide_eq_true_eq,
      List.all_eq_true] at hallows
    refine ⟨h.following, ?_, h.noted, h.known, h.events⟩
    rcases hallows with hforeign | ⟨⟨-, hpositive⟩, hlater⟩
    · simp only [Streaming.move, if_neg hforeign]
      exact h.queued.foreign hforeign
    · by_cases hscope : delta.sessionId = s.server.sessionId
      · simp only [Streaming.move, if_pos hscope]
        refine h.queued.publish hpositive fun p hp hrun => ?_
        exact (hlater p hp).resolve_left (not_not.mpr hrun)
      · simp only [Streaming.move, if_neg hscope]
        exact h.queued.foreign hscope
  | lag dropped => exact ⟨h.following, h.queued.lag dropped, h.noted, h.known, h.events⟩
  | setCompaction run => exact ⟨h.following, h.queued, h.noted, h.known, h.events⟩
  | publishDiagnostic diagnostic =>
    simp only [Streaming.allows, Bool.or_eq_true, Bool.and_eq_true, decide_eq_true_eq] at hallows
    refine ⟨h.following, h.queued, ?_, h.known, h.events⟩
    by_cases hscope : diagnostic.sessionId = s.server.sessionId
    · have hnew := (hallows.resolve_left (not_not.mpr hscope)).2
      have hunsent : (s.move (.publishDiagnostic diagnostic)).unsent =
          s.unsent ++ [diagnostic.runId] := by
        simp [Streaming.unsent, Streaming.move, hscope]
      rw [hunsent]
      simp only [Streaming.move, if_pos hscope]
      exact h.noted.publish hnew
    · have hunsent : (s.move (.publishDiagnostic diagnostic)).unsent = s.unsent := by
        simp [Streaming.unsent, Streaming.move, hscope]
      rw [hunsent]
      simp only [Streaming.move, if_neg hscope]
      exact h.noted
  | read => exact h.read
  | present =>
    have hpresented := h.presentCompaction.presentDiagnostic
    exact ⟨hpresented.following, hpresented.queued, hpresented.noted, hpresented.known,
      hpresented.events⟩
  | wake => exact ⟨h.following, h.queued, h.noted, h.known, h.events⟩
  | receiveDiagnostic => exact h.receiveDiagnostic
  | receiveDelta => exact h.receiveDelta htimely
  | leave => exact ⟨h.following, h.queued, h.noted, h.known, h.events⟩

end Followed

/-- **Lasting subscriptions.**  When every delta that is taken while no run is
known to be active is of the run that the durable events come to next, the
client takes every event, which is what keeps it usable. -/
theorem subscription_usable (h : Reachable Streaming.Started Streaming.TimelyStep s) :
    s.client.usable = true ∧
      ∀ c event, c.usable = true → ((ClientSubscription.validateEvent c event).2 = none ↔
        (c.validateEvent event).1.usable = true) := by
  have hfollowed : Followed s := by
    refine h.invariant (I := Followed) (fun s hs => Followed.started hs) ?_
    rintro s t hs ⟨m, hallows, htimely, rfl⟩
    exact hs.move m hallows htimely
  refine ⟨hfollowed.following.usable, fun c event husable => ?_⟩
  have hkept := ClientSubscription.validateEvent_kept (c := c) event
  rw [ClientSubscription.Kept, husable] at hkept
  simp [hkept]

/-! ## Runs of the system -/

namespace Streaming

def runAll (s : Streaming) (moves : List Move) : Streaming := moves.foldl move s

/-- All moves are allowed, and meet a condition. -/
def permits (condition : Streaming → Move → Bool) (s : Streaming) : List Move → Bool
  | [] => true
  | m :: moves => s.allows m && condition s m && permits condition (s.move m) moves

theorem reachable_run {step : Streaming → Streaming → Prop} {condition : Streaming → Move → Bool}
    (hstep : ∀ s m, s.allows m = true → condition s m = true → step s (s.move m))
    {s : Streaming} (h : Reachable Started step s) {moves : List Move}
    (hpermits : permits condition s moves = true) : Reachable Started step (s.runAll moves) := by
  induction moves generalizing s with
  | nil => exact h
  | cons m moves ih =>
    simp only [permits, Bool.and_eq_true] at hpermits
    exact ih (h.next (hstep s m hpermits.1.1 hpermits.1.2)) hpermits.2

/-- A subscription from the beginning of a session. -/
def fresh : Streaming :=
  ⟨[], 0, [], [], none, [], [], ⟨1, ⟨1, 0⟩, false, none, none⟩, none, none, .reading,
    ⟨1, ⟨1, 0⟩, none, none, none, 0, true⟩⟩

theorem fresh_started : Started fresh where
  sequential := by
    intro before e after hsplit
    exact absurd hsplit (by simp [fresh])
  events e he := absurd he List.not_mem_nil
  server := rfl
  cursor := rfl
  known := le_refl _
  client := rfl
  deltas := rfl
  diagnostics := rfl
  pending := rfl
  presented := rfl
  phase := rfl

def runEvent (sequence : Nat) (id : RunId) (state : RunState) : SessionEvent :=
  ⟨sequence, .runChanged ⟨id, 1, state, .go, none⟩⟩

/-- A delta is sent while its run is active. -/
def promptRun : Streaming := fresh.runAll
  [.commit (runEvent 1 1 .accepted), .publishDelta ⟨1, 1, 1, "a", false⟩, .read, .read, .present,
    .receiveDelta, .commit (runEvent 2 1 .succeeded), .read]

theorem promptRun_usable :
    promptRun.client.usable = true ∧ promptRun.client.terminalDeltaRun = some 1 := by
  have hreach : Reachable Started TimelyStep promptRun :=
    reachable_run (fun s m hallows htimely => ⟨m, hallows, htimely, rfl⟩)
      (reachable_start fresh_started)
      (show permits timely fresh _ = true by decide +kernel)
  exact ⟨(subscription_usable hreach).1, by decide +kernel⟩

/-- Two runs end while a delta of the first is still queued. -/
def staleRun : Streaming := fresh.runAll
  [.commit (runEvent 1 1 .accepted), .publishDelta ⟨1, 1, 1, "a", false⟩,
    .commit (runEvent 2 1 .succeeded), .commit (runEvent 3 2 .accepted),
    .commit (runEvent 4 2 .succeeded), .read, .read, .present, .receiveDelta,
    .commit (runEvent 5 3 .accepted), .read]

/-- The client takes the delta and then rejects the next run. -/
theorem staleRun_rejected : Reachable Started Step staleRun ∧ staleRun.client.usable = false := by
  refine ⟨?_, by decide +kernel⟩
  exact reachable_run (fun s m hallows _ => ⟨m, hallows, rfl⟩) (reachable_start fresh_started)
    (show permits (fun _ _ => true) fresh _ = true by decide +kernel)

end Streaming

end Morons.Events
