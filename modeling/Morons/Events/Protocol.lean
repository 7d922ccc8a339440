import Morons.Events.Subscription
import Morons.Library.Acceptor

/-!
# What a client takes of a stream

`nextEvent` refuses every event after the first it refused, so the events that are
taken are a prefix of the stream.  `Orderly` is what holds of that prefix, whatever the
server sends.  The client remembers one run that has ended: another run that ends makes
it forget the first.
-/

namespace Morons.Events

namespace ClientSubscription

/-- The client after an event that it takes; a client that has refused one takes none. -/
def take (c : ClientSubscription) (event : ApplicationEvent) : Option ClientSubscription :=
  if c.usable = false then none
  else
    match c.validateEvent event with
    | (c, none) => some c
    | (_, some _) => none

/-- The events of a stream that `next_event` returns, and the client then. -/
def feed (c : ClientSubscription) : List ApplicationEvent → List ApplicationEvent × ClientSubscription
  | [] => ([], c)
  | event :: rest =>
    if c.usable = false then
      -- The connection is unusable: the event is not read.
      feed c rest
    else
      match c.validateEvent event with
      | (c, none) => (event :: (feed c rest).1, (feed c rest).2)
      | (c, some _) => feed c rest

end ClientSubscription

/-! ## What the events say -/

namespace ApplicationEvent

/-- The cursor of a durable event. -/
def cursor? : ApplicationEvent → Option EventCursor
  | transcriptEntryCommitted cursor _ _ | runChanged cursor _ | localCommandChanged cursor _ _ _ =>
    some cursor
  | _ => none

/-- The event is of a run that has not ended. -/
def continues (run : RunId) : ApplicationEvent → Prop
  | runChanged _ summary => summary.id = run ∧ summary.state.isTerminal = false
  | assistantDelta _ runId _ _ _ => runId = run
  | _ => False

/-- The terminal event of a run. -/
def ends (run : RunId) : ApplicationEvent → Prop
  | runChanged _ summary => summary.id = run ∧ summary.state.isTerminal = true
  | _ => False

/-- The terminal event of a run that failed because of what ChatGPT answered. -/
def failsNatively (run : RunId) : ApplicationEvent → Prop
  | runChanged _ summary => summary.id = run ∧ nativeProtocolFailed summary = true
  | _ => False

/-- A change of a run other than the given one. -/
def changesOther (run : RunId) : ApplicationEvent → Prop
  | runChanged _ summary => summary.id ≠ run
  | _ => False

/-- A delta of a run with its sequence number. -/
def deltaOf (run : RunId) (sequence : Nat) : ApplicationEvent → Prop
  | assistantDelta _ runId n _ _ => runId = run ∧ n = sequence
  | _ => False

/-- The native diagnostic of a run. -/
def diagnoses (run : RunId) : ApplicationEvent → Prop
  | nativeResponseDiagnostic _ runId => runId = run
  | _ => False

/-- An event that leaves what the client knows of a run that has ended as it is: no event of
a run, unless the terminal event once more, no delta and no diagnostic. -/
def leaves (run : RunId) : ApplicationEvent → Prop
  | runChanged _ summary => summary.id = run ∧ summary.state.isTerminal = true
  | assistantDelta .. | nativeResponseDiagnostic .. => False
  | _ => True

end ApplicationEvent

open ApplicationEvent

/-- What holds of the events that are taken. -/
structure Orderly (sessionId : SessionId) (start : EventCursor) (taken : List ApplicationEvent) :
    Prop where
  /-- The cursors are of the session and increase. -/
  ofSession : ∀ cursor ∈ taken.filterMap cursor?, cursor.sessionId = sessionId
  increasing : (start :: taken.filterMap cursor?).Pairwise fun a b => b.notAfter a = false
  /-- The deltas of a run increase until its terminal event. -/
  deltas : ∀ before first between last after run m n,
    taken = before ++ first :: (between ++ last :: after) → first.deltaOf run m →
    last.deltaOf run n → (∀ e ∈ between, ¬ e.ends run) → m < n
  /-- No delta of a run comes after its terminal event before another run changes. -/
  ended : ∀ before first between last after run n,
    taken = before ++ first :: (between ++ last :: after) → first.ends run → last.deltaOf run n →
    ∃ e ∈ between, e.changesOther run
  /-- At most one run has not ended. -/
  single : ∀ before first after before' first' after' run run',
    taken = before ++ first :: after → first.continues run → (∀ e ∈ after, ¬ e.ends run) →
    taken = before' ++ first' :: after' → first'.continues run' → (∀ e ∈ after', ¬ e.ends run') →
    run = run'
  /-- A diagnostic comes after the terminal event of its failed run, and what comes between the
  two leaves that run as it is. -/
  diagnosed : ∀ before last after run, taken = before ++ last :: after → last.diagnoses run →
    ∃ earlier first between, before = earlier ++ first :: between ∧ first.failsNatively run ∧
      ∀ e ∈ between, e.leaves run
  /-- There is one diagnostic of a run before another run changes. -/
  once : ∀ before first between last after run,
    taken = before ++ first :: (between ++ last :: after) → first.diagnoses run →
    last.diagnoses run → ∃ e ∈ between, e.changesOther run

/-! ## One event -/

namespace ClientSubscription

/-- What taking an event asks of the client and what it does to it. -/
def Takes (c : ClientSubscription) : ApplicationEvent → ClientSubscription → Prop
  | .transcriptEntryCommitted cursor _ _, d | .localCommandChanged cursor _ _ _, d =>
    cursor.sessionId = c.sessionId ∧ cursor.notAfter c.cursor = false ∧
      d = { c with cursor := cursor }
  | .runChanged cursor run, d =>
    cursor.sessionId = c.sessionId ∧ cursor.notAfter c.cursor = false ∧ d.cursor = cursor ∧
    d.sessionId = c.sessionId ∧ (∀ active ∈ c.activeDeltaRun, active = run.id) ∧
    if run.state.isTerminal then
      d.activeDeltaRun = none ∧ d.terminalDeltaRun = some run.id ∧
      d.nativeFailureRun =
        if c.terminalDeltaRun = some run.id then c.nativeFailureRun
        else if nativeProtocolFailed run then some run.id else none
    else
      c.terminalDeltaRun ≠ some run.id ∧ d.activeDeltaRun = some run.id ∧
      d.terminalDeltaRun ≠ some run.id ∧ d.nativeFailureRun = none ∧
      d.deltaSequence = c.deltaSequence
  | .compactionActivity .., d => d = c
  | .nativeResponseDiagnostic _ runId, d =>
    c.nativeFailureRun = some runId ∧ c.terminalDeltaRun = some runId ∧
      c.activeDeltaRun = none ∧ d = { c with nativeFailureRun := none }
  | .assistantDelta _ runId sequence _ _, d =>
    c.terminalDeltaRun ≠ some runId ∧ (∀ active ∈ c.activeDeltaRun, active = runId) ∧
      c.deltaSequence < sequence ∧
      d = { c with activeDeltaRun := some runId, deltaSequence := sequence }
  | .sessionCreated, _ | .sessionChanged, _ | .sessionRemoved, _ => False

variable {c d : ClientSubscription} {event : ApplicationEvent}

theorem take_some : c.take event = some d ↔
    c.usable = true ∧ c.validateEvent event = (d, none) := by
  unfold take
  cases c.usable with
  | false => simp
  | true =>
    simp only [Bool.true_eq_false, if_false, true_and]
    split
    case h_1 c' hok =>
      rw [hok]
      simp
    case h_2 error hrejected =>
      rw [hrejected]
      simp

theorem advanceCursor_ok {next : EventCursor} (h : c.advanceCursor next = (d, none)) :
    next.sessionId = c.sessionId ∧ next.notAfter c.cursor = false ∧
      d = { c with cursor := next } := by
  unfold advanceCursor at h
  split at h
  · cases h
  rename_i hsession
  split at h
  · cases h
  rename_i hlater
  cases h
  exact ⟨not_not.mp hsession, Bool.eq_false_iff.mpr hlater, rfl⟩

/-- Without another active run, the active run is the given one. -/
theorem sameRun {active : Option RunId} {run : RunId}
    (h : ¬ (active.any fun other => decide (other ≠ run)) = true) : ∀ a ∈ active, a = run := by
  rintro a rfl
  simpa using h

theorem validateRun_ok {run : RunSummary} (h : c.validateRun run = (d, none)) :
    d.cursor = c.cursor ∧ d.sessionId = c.sessionId ∧ (∀ active ∈ c.activeDeltaRun, active = run.id) ∧
    if run.state.isTerminal then
      d.activeDeltaRun = none ∧ d.terminalDeltaRun = some run.id ∧
      d.nativeFailureRun =
        if c.terminalDeltaRun = some run.id then c.nativeFailureRun
        else if nativeProtocolFailed run then some run.id else none
    else
      c.terminalDeltaRun ≠ some run.id ∧ d.activeDeltaRun = some run.id ∧
      d.terminalDeltaRun ≠ some run.id ∧ d.nativeFailureRun = none ∧
      d.deltaSequence = c.deltaSequence := by
  unfold validateRun at h
  split at h
  case isTrue hterminal =>
    rw [if_pos hterminal]
    split at h
    · cases h
    rename_i hactive
    cases h
    refine ⟨rfl, rfl, sameRun hactive, rfl, rfl, ?_⟩
    by_cases hended : c.terminalDeltaRun = some run.id <;> simp [hended]
  case isFalse hopen =>
    rw [if_neg hopen]
    simp only at h
    split at h
    · cases h
    rename_i hended
    split at h
    case h_1 hnone =>
      cases h
      have hidle : c.activeDeltaRun = none := hnone
      refine ⟨rfl, rfl, fun active hmem => ?_, hended, rfl, nofun, rfl, rfl⟩
      rw [hidle] at hmem
      cases hmem
    case h_2 active hactive =>
      split at h
      case isFalse => cases h
      case isTrue hsame =>
        cases h
        have hactive' : c.activeDeltaRun = some run.id := hsame ▸ hactive
        refine ⟨rfl, rfl, fun other hmem => ?_, hended, hactive', hended, rfl, rfl⟩
        rw [hactive'] at hmem
        exact (Option.some.inj hmem).symm

/-- **What a taken event does.** -/
theorem takes (h : c.validateEvent event = (d, none)) : c.Takes event d := by
  cases event with
  | transcriptEntryCommitted cursor sessionId entry =>
    simp only [validateEvent] at h
    split at h
    · cases h
    · exact advanceCursor_ok h
  | localCommandChanged cursor sessionId commandId active =>
    simp only [validateEvent] at h
    split at h
    · cases h
    · exact advanceCursor_ok h
  | runChanged cursor run =>
    simp only [validateEvent] at h
    split at h
    · cases h
    split at h
    case h_2 => cases h
    case h_1 c₁ hcursor =>
      obtain ⟨hsession, hlater, rfl⟩ := advanceCursor_ok hcursor
      obtain ⟨hcursor', hsession', hactive, hrun⟩ := validateRun_ok h
      exact ⟨hsession, hlater, hcursor', hsession', hactive, hrun⟩
  | compactionActivity sessionId runId active =>
    simp only [validateEvent] at h
    split at h
    · cases h
    · cases h
      rfl
  | nativeResponseDiagnostic sessionId runId =>
    simp only [validateEvent] at h
    split at h
    · cases h
    rename_i hguard
    simp only [not_or, not_not, Option.isSome_iff_ne_none] at hguard
    cases h
    exact ⟨hguard.2.1, hguard.2.2.1, hguard.2.2.2, rfl⟩
  | assistantDelta sessionId runId sequence delta refusal =>
    simp only [validateEvent] at h
    split at h
    · cases h
    rename_i hguard
    split at h
    · cases h
    rename_i hactive
    simp only [validateDelta] at h
    split at h
    · cases h
    rename_i hsequence
    cases h
    exact ⟨fun hterminal => hguard (.inr hterminal), sameRun hactive, Nat.not_le.mp hsequence, rfl⟩
  | sessionCreated | sessionChanged | sessionRemoved => cases h

theorem take_takes (h : c.take event = some d) : c.Takes event d := takes (take_some.mp h).2

end ClientSubscription

open ClientSubscription

/-! ## Between two events -/

section Between

variable {c d : ClientSubscription} {event : ApplicationEvent} {run : RunId}

/-- A run goes on until its terminal event. -/
theorem keeps_active (hactive : c.activeDeltaRun = some run) (hopen : ¬ event.ends run)
    (h : c.take event = some d) : d.activeDeltaRun = some run := by
  have htakes := take_takes h
  cases event with
  | transcriptEntryCommitted | localCommandChanged =>
    obtain ⟨-, -, rfl⟩ := htakes
    exact hactive
  | runChanged cursor summary =>
    obtain ⟨-, -, -, -, hsame, hrun⟩ := htakes
    have hid : run = summary.id := hsame run hactive
    split at hrun
    · rename_i hterminal
      exact absurd ⟨hid.symm, hterminal⟩ hopen
    · rw [hrun.2.1, hid]
  | compactionActivity =>
    obtain rfl := htakes
    exact hactive
  | nativeResponseDiagnostic =>
    obtain ⟨-, -, -, rfl⟩ := htakes
    exact hactive
  | assistantDelta sessionId runId =>
    obtain ⟨-, hsame, -, rfl⟩ := htakes
    rw [hsame run hactive]
  | sessionCreated | sessionChanged | sessionRemoved => exact htakes.elim

/-- An event of a run that has not ended makes it the active one. -/
theorem active_of_continues (hevent : event.continues run) (h : c.take event = some d) :
    d.activeDeltaRun = some run := by
  have htakes := take_takes h
  cases event with
  | runChanged cursor summary =>
    obtain ⟨rfl, hopen⟩ := hevent
    obtain ⟨-, -, -, -, -, hrun⟩ := htakes
    rw [if_neg (Bool.eq_false_iff.mp hopen)] at hrun
    exact hrun.2.1
  | assistantDelta =>
    obtain rfl : _ = run := hevent
    obtain ⟨-, -, -, rfl⟩ := htakes
    rfl
  | _ => exact hevent.elim

/-- The deltas of a run that goes on only grow. -/
theorem keeps_sequence {m : Nat} (hstate : c.activeDeltaRun = some run ∧ m ≤ c.deltaSequence)
    (hopen : ¬ event.ends run) (h : c.take event = some d) :
    d.activeDeltaRun = some run ∧ m ≤ d.deltaSequence := by
  refine ⟨keeps_active hstate.1 hopen h, ?_⟩
  have htakes := take_takes h
  cases event with
  | transcriptEntryCommitted | localCommandChanged =>
    obtain ⟨-, -, rfl⟩ := htakes
    exact hstate.2
  | runChanged cursor summary =>
    obtain ⟨-, -, -, -, hsame, hrun⟩ := htakes
    have hid : run = summary.id := hsame run hstate.1
    split at hrun
    · rename_i hterminal
      exact absurd ⟨hid.symm, hterminal⟩ hopen
    · rw [hrun.2.2.2.2]
      exact hstate.2
  | compactionActivity =>
    obtain rfl := htakes
    exact hstate.2
  | nativeResponseDiagnostic =>
    obtain ⟨-, -, -, rfl⟩ := htakes
    exact hstate.2
  | assistantDelta sessionId runId sequence =>
    obtain ⟨-, -, hlater, rfl⟩ := htakes
    exact hstate.2.trans hlater.le
  | sessionCreated | sessionChanged | sessionRemoved => exact htakes.elim

/-- The run that has ended last stays so until another run changes. -/
theorem keeps_terminal (hended : c.terminalDeltaRun = some run) (hother : ¬ event.changesOther run)
    (h : c.take event = some d) : d.terminalDeltaRun = some run := by
  have htakes := take_takes h
  cases event with
  | transcriptEntryCommitted | localCommandChanged =>
    obtain ⟨-, -, rfl⟩ := htakes
    exact hended
  | runChanged cursor summary =>
    obtain ⟨-, -, -, -, -, hrun⟩ := htakes
    have hid : summary.id = run := not_not.mp hother
    split at hrun
    · rw [hrun.2.1, hid]
    · exact absurd (hid ▸ hended) hrun.1
  | compactionActivity =>
    obtain rfl := htakes
    exact hended
  | nativeResponseDiagnostic =>
    obtain ⟨-, -, -, rfl⟩ := htakes
    exact hended
  | assistantDelta =>
    obtain ⟨-, -, -, rfl⟩ := htakes
    exact hended
  | sessionCreated | sessionChanged | sessionRemoved => exact htakes.elim

/-- A run that has been diagnosed is not diagnosed again until another run changes. -/
theorem keeps_diagnosed
    (hstate : c.terminalDeltaRun = some run ∧ c.nativeFailureRun ≠ some run)
    (hother : ¬ event.changesOther run) (h : c.take event = some d) :
    d.terminalDeltaRun = some run ∧ d.nativeFailureRun ≠ some run := by
  refine ⟨keeps_terminal hstate.1 hother h, ?_⟩
  have htakes := take_takes h
  cases event with
  | transcriptEntryCommitted | localCommandChanged =>
    obtain ⟨-, -, rfl⟩ := htakes
    exact hstate.2
  | runChanged cursor summary =>
    obtain ⟨-, -, -, -, -, hrun⟩ := htakes
    have hid : summary.id = run := not_not.mp hother
    split at hrun
    · rw [hrun.2.2, if_pos (hid ▸ hstate.1)]
      exact hstate.2
    · rw [hrun.2.2.2.1]
      exact nofun
  | compactionActivity =>
    obtain rfl := htakes
    exact hstate.2
  | nativeResponseDiagnostic =>
    obtain ⟨-, -, -, rfl⟩ := htakes
    exact nofun
  | assistantDelta =>
    obtain ⟨-, -, -, rfl⟩ := htakes
    exact hstate.2
  | sessionCreated | sessionChanged | sessionRemoved => exact htakes.elim

/-- A delta is of a run that has not just ended, and is later than the one before. -/
theorem delta_takes {n : Nat} (hdelta : event.deltaOf run n) (h : c.take event = some d) :
    c.terminalDeltaRun ≠ some run ∧ c.deltaSequence < n ∧ d.activeDeltaRun = some run ∧
      d.deltaSequence = n := by
  have htakes := take_takes h
  cases event with
  | assistantDelta =>
    obtain ⟨rfl, rfl⟩ := hdelta
    obtain ⟨hterminal, -, hlater, rfl⟩ := htakes
    exact ⟨hterminal, hlater, rfl, rfl⟩
  | _ => exact hdelta.elim

theorem ends_takes (hends : event.ends run) (h : c.take event = some d) :
    d.terminalDeltaRun = some run := by
  have htakes := take_takes h
  cases event with
  | runChanged cursor summary =>
    obtain ⟨rfl, hterminal⟩ := hends
    obtain ⟨-, -, -, -, -, hrun⟩ := htakes
    rw [if_pos hterminal] at hrun
    exact hrun.2.1
  | _ => exact hends.elim

theorem diagnoses_takes (hdiagnoses : event.diagnoses run) (h : c.take event = some d) :
    c.nativeFailureRun = some run ∧ c.activeDeltaRun = none ∧ d.terminalDeltaRun = some run ∧
      d.nativeFailureRun = none := by
  have htakes := take_takes h
  cases event with
  | nativeResponseDiagnostic =>
    obtain rfl : _ = run := hdiagnoses
    obtain ⟨hfailure, hterminal, hidle, rfl⟩ := htakes
    exact ⟨hfailure, hidle, hterminal, rfl⟩
  | _ => exact hdiagnoses.elim

/-- The session stays, and the cursor is that of the last durable event. -/
theorem cursor_takes (h : c.take event = some d) :
    d.sessionId = c.sessionId ∧
      match event.cursor? with
      | some cursor => cursor.sessionId = c.sessionId ∧ cursor.notAfter c.cursor = false ∧
          d.cursor = cursor
      | none => d.cursor = c.cursor := by
  have htakes := take_takes h
  cases event with
  | transcriptEntryCommitted | localCommandChanged =>
    obtain ⟨hsession, hlater, rfl⟩ := htakes
    exact ⟨rfl, hsession, hlater, rfl⟩
  | runChanged =>
    obtain ⟨hsession, hlater, hcursor, hsame, -, -⟩ := htakes
    exact ⟨hsame, hsession, hlater, hcursor⟩
  | compactionActivity =>
    obtain rfl := htakes
    exact ⟨rfl, rfl⟩
  | nativeResponseDiagnostic | assistantDelta =>
    obtain ⟨-, -, -, rfl⟩ := htakes
    exact ⟨rfl, rfl⟩
  | sessionCreated | sessionChanged | sessionRemoved => exact htakes.elim

end Between

/-! ## The invariants of a run -/

theorem EventCursor.later_trans {a b c : EventCursor} (hab : b.notAfter a = false)
    (hbc : c.notAfter b = false) : c.notAfter a = false := by
  simp only [EventCursor.notAfter, Bool.or_eq_false_iff, Bool.and_eq_false_iff,
    decide_eq_false_iff_not, not_lt, not_le] at hab hbc ⊢
  refine ⟨hab.1.trans hbc.1, Classical.or_iff_not_imp_left.mpr fun hsame => ?_⟩
  have hca : c.sessionId = a.sessionId := not_not.mp hsame
  have hba : b.sessionId = a.sessionId := le_antisymm (hca ▸ hbc.1) hab.1
  have hcb : c.sessionId = b.sessionId := hca.trans hba.symm
  exact (hab.2.resolve_left (not_not.mpr hba)).trans (hbc.2.resolve_left (not_not.mpr hcb))

/-- The cursors that have been taken, up to that of the client. -/
structure Scoped (sessionId : SessionId) (start : EventCursor) (taken : List ApplicationEvent)
    (c : ClientSubscription) : Prop where
  scope : c.sessionId = sessionId
  ofSession : ∀ cursor ∈ taken.filterMap cursor?, cursor.sessionId = sessionId
  increasing : (start :: taken.filterMap cursor?).Pairwise fun a b => b.notAfter a = false
  latest : ∀ next : EventCursor, next.notAfter c.cursor = false →
    ∀ cursor ∈ start :: taken.filterMap cursor?, next.notAfter cursor = false

/-- What the client knows of a run that failed natively. -/
structure Expecting (taken : List ApplicationEvent) (c : ClientSubscription) : Prop where
  fresh : ∀ run, c.activeDeltaRun = some run → c.terminalDeltaRun ≠ some run
  terminal : ∀ run, c.nativeFailureRun = some run → c.terminalDeltaRun = some run
  /-- No run is active: nothing else came after the terminal event. -/
  failed : ∀ run, c.nativeFailureRun = some run → c.activeDeltaRun = none →
    ∃ earlier first between, taken = earlier ++ first :: between ∧ first.failsNatively run ∧
      ∀ e ∈ between, e.leaves run

section Invariants

variable {c d : ClientSubscription} {event : ApplicationEvent} {taken : List ApplicationEvent}
  {sessionId : SessionId} {start : EventCursor}

theorem Scoped.next (hs : Scoped sessionId start taken c) (h : c.take event = some d) :
    Scoped sessionId start (taken ++ [event]) d := by
  obtain ⟨hsame, hcursor⟩ := cursor_takes h
  rw [hs.scope] at hsame
  cases hevent : event.cursor? with
  | none =>
    rw [hevent] at hcursor
    have hkept : (taken ++ [event]).filterMap cursor? = taken.filterMap cursor? := by
      simp [hevent]
    refine ⟨hsame, ?_, ?_, ?_⟩
    · rw [hkept]
      exact hs.ofSession
    · rw [hkept]
      exact hs.increasing
    · rw [hkept, hcursor]
      exact hs.latest
  | some cursor =>
    rw [hevent, hs.scope] at hcursor
    obtain ⟨hsession, hlater, hnow⟩ := hcursor
    have hadded : (taken ++ [event]).filterMap cursor? = taken.filterMap cursor? ++ [cursor] := by
      simp [hevent]
    refine ⟨hsame, fun other hmem => ?_, ?_, fun next hnext other hmem => ?_⟩
    · rw [hadded, List.mem_append, List.mem_singleton] at hmem
      rcases hmem with hold | rfl
      · exact hs.ofSession other hold
      · exact hsession
    · rw [hadded, ← List.cons_append, List.pairwise_append]
      refine ⟨hs.increasing, List.pairwise_singleton .., fun a ha b hb => ?_⟩
      rw [List.mem_singleton.mp hb]
      exact hs.latest cursor hlater a ha
    · rw [hadded, ← List.cons_append, List.mem_append, List.mem_singleton] at hmem
      rw [hnow] at hnext
      rcases hmem with hold | rfl
      · exact EventCursor.later_trans (hs.latest cursor hlater other hold) hnext
      · exact hnext

/-- An event that leaves a failed run as it is comes after its terminal event as well. -/
theorem failed_leaves {run : RunId}
    (h : ∃ earlier first between, taken = earlier ++ first :: between ∧
      first.failsNatively run ∧ ∀ e ∈ between, e.leaves run) (hleaves : event.leaves run) :
    ∃ earlier first between, taken ++ [event] = earlier ++ first :: between ∧
      first.failsNatively run ∧ ∀ e ∈ between, e.leaves run := by
  obtain ⟨earlier, first, between, rfl, hfirst, hbetween⟩ := h
  refine ⟨earlier, first, between ++ [event], by simp, hfirst, fun e he => ?_⟩
  rw [List.mem_append, List.mem_singleton] at he
  rcases he with he | rfl
  · exact hbetween e he
  · exact hleaves

theorem Expecting.next (he : Expecting taken c) (h : c.take event = some d) :
    Expecting (taken ++ [event]) d := by
  have htakes := take_takes h
  cases event with
  | transcriptEntryCommitted | localCommandChanged =>
    obtain ⟨-, -, rfl⟩ := htakes
    exact ⟨he.fresh, he.terminal,
      fun run hfailure hidle => failed_leaves (he.failed run hfailure hidle) trivial⟩
  | compactionActivity =>
    obtain rfl := htakes
    exact ⟨he.fresh, he.terminal,
      fun run hfailure hidle => failed_leaves (he.failed run hfailure hidle) trivial⟩
  | nativeResponseDiagnostic =>
    obtain ⟨-, -, -, rfl⟩ := htakes
    exact ⟨he.fresh, nofun, nofun⟩
  | assistantDelta =>
    obtain ⟨hterminal, -, -, rfl⟩ := htakes
    refine ⟨fun run hactive => ?_, he.terminal, nofun⟩
    obtain rfl := Option.some.inj hactive
    exact hterminal
  | runChanged cursor summary =>
    obtain ⟨-, -, -, -, hsame, hrun⟩ := htakes
    split at hrun
    case isFalse =>
      obtain ⟨-, hactive, hterminal, hfailure, -⟩ := hrun
      refine ⟨fun run hrun => ?_, fun run hfailed => ?_, fun run hfailed => ?_⟩
      · rw [hactive] at hrun
        obtain rfl := Option.some.inj hrun
        exact hterminal
      · rw [hfailure] at hfailed
        cases hfailed
      · rw [hfailure] at hfailed
        cases hfailed
    case isTrue hterminal =>
      obtain ⟨hactive, hended, hfailure⟩ := hrun
      by_cases hagain : c.terminalDeltaRun = some summary.id
      · -- The terminal event once more: no run was active, and the failure is kept.
        rw [if_pos hagain] at hfailure
        have hidle : c.activeDeltaRun = none := by
          cases hrunning : c.activeDeltaRun with
          | none => rfl
          | some other =>
            obtain rfl := hsame other hrunning
            exact absurd hagain (he.fresh summary.id hrunning)
        refine ⟨fun run hrun => ?_, fun run hfailed => ?_, fun run hfailed _ => ?_⟩
        · rw [hactive] at hrun
          cases hrun
        · rw [hfailure] at hfailed
          rw [hended, ← hagain]
          exact he.terminal run hfailed
        · rw [hfailure] at hfailed
          have hrun : run = summary.id :=
            Option.some.inj ((he.terminal run hfailed).symm.trans hagain)
          exact failed_leaves (he.failed run hfailed hidle) ⟨hrun.symm, hterminal⟩
      · rw [if_neg hagain] at hfailure
        have hnew : ∀ run, d.nativeFailureRun = some run →
            run = summary.id ∧ nativeProtocolFailed summary = true := by
          intro run hfailed
          rw [hfailure] at hfailed
          split at hfailed
          case isTrue hnative => exact ⟨(Option.some.inj hfailed).symm, hnative⟩
          case isFalse => cases hfailed
        refine ⟨fun run hrun => ?_, fun run hfailed => ?_, fun run hfailed _ => ?_⟩
        · rw [hactive] at hrun
          cases hrun
        · rw [hended, (hnew run hfailed).1]
        · obtain ⟨rfl, hnative⟩ := hnew run hfailed
          exact ⟨taken, .runChanged cursor summary, [], rfl, ⟨rfl, hnative⟩, nofun⟩
  | sessionCreated | sessionChanged | sessionRemoved => exact htakes.elim

end Invariants

/-! ## The stream -/

section Streams

variable {c d : ClientSubscription} {events : List ApplicationEvent}

theorem feed_unusable (h : c.usable = false) (events : List ApplicationEvent) :
    c.feed events = ([], c) := by
  induction events with
  | nil => rfl
  | cons event rest ih => rw [feed, if_pos h, ih]

/-- A refusal is lasting: `next_event` returns what is taken before it. -/
theorem feed_accepted (c : ClientSubscription) (events : List ApplicationEvent) :
    (c.feed events).1 = Acceptor.accepted take c events := by
  induction events generalizing c with
  | nil => rfl
  | cons event rest ih =>
    cases husable : c.usable with
    | false =>
      rw [feed_unusable husable, Acceptor.accepted, take, if_pos husable]
    | true =>
      have hkept := validateEvent_kept (c := c) event
      rw [feed, Acceptor.accepted, take, if_neg (by simp [husable]), if_neg (by simp [husable])]
      rcases hverdict : c.validateEvent event with ⟨c', _ | error⟩
      · exact congrArg (event :: ·) (ih c')
      · have hrefused : c'.usable = false := by
          rw [hverdict, Kept] at hkept
          simpa using hkept
        simp only [feed_unusable hrefused]

theorem feed_append (c : ClientSubscription) (events later : List ApplicationEvent) :
    (c.feed (events ++ later)).1 = (c.feed events).1 ++ ((c.feed events).2.feed later).1 := by
  induction events generalizing c with
  | nil => rfl
  | cons event rest ih =>
    rw [List.cons_append, feed, feed]
    split
    · exact ih c
    rcases c.validateEvent event with ⟨c', _ | error⟩
    · exact congrArg (event :: ·) (ih c')
    · exact ih c'

/-- What holds of the events that a client takes. -/
theorem orderly_run {sessionId : SessionId} {start : EventCursor} {taken : List ApplicationEvent}
    (h : Acceptor.run take { sessionId, cursor := start } taken = some d) :
    Orderly sessionId start taken := by
  have hscoped : Scoped sessionId start taken d := by
    refine Acceptor.run_induction (P := fun taken c => Scoped sessionId start taken c) h ?_
      fun done c event c' hc hevent => hc.next hevent
    exact ⟨rfl, nofun, List.pairwise_singleton .., fun next hnext cursor hcursor => by
      rw [List.mem_singleton.mp hcursor]
      exact hnext⟩
  refine ⟨hscoped.ofSession, hscoped.increasing, ?_, ?_, ?_, ?_, ?_⟩
  · intro before first between last after run m n hsplit hfirst hlast hopen
    rw [hsplit] at h
    obtain ⟨c₁, -, h₁⟩ := Acceptor.run_append.mp h
    obtain ⟨c₂, hm, h₂⟩ := Acceptor.run_cons.mp h₁
    obtain ⟨c₃, hbetween, h₃⟩ := Acceptor.run_append.mp h₂
    obtain ⟨c₄, hn, -⟩ := Acceptor.run_cons.mp h₃
    obtain ⟨-, -, hactive, hsequence⟩ := delta_takes hfirst hm
    have hkept := Acceptor.run_keep
      (P := fun c : ClientSubscription => c.activeDeltaRun = some run ∧ m ≤ c.deltaSequence)
      (fun c event c' hc hevent htake => keeps_sequence hc hevent htake) hbetween
      ⟨hactive, hsequence.ge⟩ hopen
    exact lt_of_le_of_lt hkept.2 (delta_takes hlast hn).2.1
  · intro before first between last after run n hsplit hfirst hlast
    rw [hsplit] at h
    exact Acceptor.exists_exception
      (P := fun c : ClientSubscription => c.terminalDeltaRun = some run)
      (fun c event c' hc hevent htake => keeps_terminal hc hevent htake) h
      (fun c c' htake => ends_takes hfirst htake)
      (fun c c' hended htake => (delta_takes hlast htake).1 hended)
  · -- Each of the two runs is the active one in the end.
    have hactive : ∀ before first after run, taken = before ++ first :: after →
        first.continues run → (∀ e ∈ after, ¬ e.ends run) → d.activeDeltaRun = some run := by
      intro before first after run hsplit hfirst hopen
      rw [hsplit] at h
      obtain ⟨c₁, -, h₁⟩ := Acceptor.run_append.mp h
      obtain ⟨c₂, htake, h₂⟩ := Acceptor.run_cons.mp h₁
      exact Acceptor.run_keep (P := fun c : ClientSubscription => c.activeDeltaRun = some run)
        (fun c event c' hc hevent htake => keeps_active hc hevent htake) h₂
        (active_of_continues hfirst htake) hopen
    intro before first after before' first' after' run run' hsplit hfirst hopen hsplit' hfirst'
      hopen'
    have hrun := hactive before first after run hsplit hfirst hopen
    have hrun' := hactive before' first' after' run' hsplit' hfirst' hopen'
    exact Option.some.inj (hrun.symm.trans hrun')
  · intro before last after run hsplit hlast
    rw [hsplit] at h
    obtain ⟨c₁, hbefore, h₁⟩ := Acceptor.run_append.mp h
    obtain ⟨c₂, htake, -⟩ := Acceptor.run_cons.mp h₁
    have hexpecting : Expecting before c₁ :=
      Acceptor.run_induction (P := Expecting) hbefore ⟨nofun, nofun, nofun⟩
        fun done c event c' hc hevent => hc.next hevent
    obtain ⟨hfailure, hidle, -, -⟩ := diagnoses_takes hlast htake
    exact hexpecting.failed run hfailure hidle
  · intro before first between last after run hsplit hfirst hlast
    rw [hsplit] at h
    refine Acceptor.exists_exception
      (P := fun c : ClientSubscription =>
        c.terminalDeltaRun = some run ∧ c.nativeFailureRun ≠ some run)
      (fun c event c' hc hevent htake => keeps_diagnosed hc hevent htake) h
      (fun c c' htake => ?_) (fun c c' hstate htake => ?_)
    · obtain ⟨-, -, hterminal, hfailure⟩ := diagnoses_takes hfirst htake
      exact ⟨hterminal, by rw [hfailure]; exact nofun⟩
    · exact hstate.2 (diagnoses_takes hlast htake).1

/-- **The protocol of a subscription.**  The events that are taken of a stream are in order, and
nothing is taken after a refusal. -/
theorem subscription_orderly (sessionId : SessionId) (start : EventCursor)
    (events : List ApplicationEvent) :
    let client : ClientSubscription := { sessionId, cursor := start }
    (client.feed events).1 <+: events ∧ Orderly sessionId start (client.feed events).1 ∧
      ∀ before event after, events = before ++ event :: after →
        (client.feed before).2.take event = none →
        (client.feed events).1 = (client.feed before).1 := by
  intro client
  refine ⟨?_, ?_, ?_⟩
  · rw [feed_accepted]
    exact Acceptor.accepted_prefix take client events
  · obtain ⟨d, hrun⟩ := Acceptor.run_accepted take client events
    rw [feed_accepted]
    exact orderly_run hrun
  · rintro before event after rfl hrefused
    rw [feed_append, feed_accepted (client.feed before).2, Acceptor.accepted, hrefused,
      List.append_nil]

/-- The run has failed because of what ChatGPT answered. -/
def failedNatively (sequence : Nat) (run : RunId) : ApplicationEvent :=
  .runChanged ⟨1, sequence⟩ ⟨run, 1, .failed, .openAiChatGpt, some .providerProtocol⟩

/-- Another run that ends makes the client forget that a run has been diagnosed. -/
def diagnosedTwice : List ApplicationEvent :=
  [failedNatively 1 1, .transcriptEntryCommitted ⟨1, 2⟩ 1 .other, .nativeResponseDiagnostic 1 1,
    failedNatively 3 2, failedNatively 4 1, .nativeResponseDiagnostic 1 1]

/-- A run is diagnosed twice, and not directly after its terminal event. -/
theorem diagnosedTwice_taken :
    let client : ClientSubscription := { sessionId := 1, cursor := ⟨1, 0⟩ }
    (client.feed diagnosedTwice).1 = diagnosedTwice ∧
      diagnosedTwice.count (.nativeResponseDiagnostic 1 1) = 2 ∧
      diagnosedTwice[1]? = some (.transcriptEntryCommitted ⟨1, 2⟩ 1 .other) ∧
      diagnosedTwice[2]? = some (.nativeResponseDiagnostic 1 1) := by
  decide +kernel

end Streams

end Morons.Events
