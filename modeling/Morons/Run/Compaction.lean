import Morons.Run.Budget

/-!
# Whole-turn cuts

A compaction replaces a prefix of a session's transcript by a summary.  The
prefix ends before the protected entry or, while what is left is accepted,
before one of the last two messages of users.
-/

namespace Morons

open Attempt

def sequenceToSql (sequence : Nat) : Except PersistenceError Unit :=
  require (sequence ≤ maxInteger)
    (.invalidState "a logical sequence exceeds SQLite's integer range")

/-- `context_budget` with the conversions of its parameters. -/
def requireContextBudget (env : Environment) (s : Store) (sessionId : SessionId)
    (after through : Nat) : Except PersistenceError ContextBudget := do
  sequenceToSql after
  sequenceToSql through
  return contextBudget env s sessionId after through

/-- The places of the users' messages above one place and below another. -/
def userPlaces (s : Store) (sessionId : SessionId) (after before : Nat) : List Nat :=
  (s.sessionEntries.filter fun e => e.sessionId = sessionId && e.body.isUser &&
    decide (after < e.entrySequence) && decide (e.entrySequence < before)).map (·.entrySequence)

/-- The loop over the boundaries. -/
def selectBoundary (env : Environment) (s : Store) (sessionId : SessionId) (covered through : Nat)
    (acceptsTail : ContextBudget → Bool) : List Nat → Except PersistenceError (Option Nat)
  | [] => .ok none
  | boundary :: rest =>
    let highWater := boundary - 1
    if covered < highWater then do
      let tail ← requireContextBudget env s sessionId highWater through
      if acceptsTail tail then return some highWater
      else selectBoundary env s sessionId covered through acceptsTail rest
    else selectBoundary env s sessionId covered through acceptsTail rest

def selectCompactionPrefixFitting (env : Environment) (s : Store) (sessionId : SessionId)
    (covered protectedFrom through : Nat) (acceptsTail : ContextBudget → Bool) :
    Except PersistenceError (Option Nat) :=
  if protectedFrom ≤ saturatingAdd covered 1 ∨ through < protectedFrom then .ok none
  else do
    sequenceToSql covered
    sequenceToSql protectedFrom
    let boundaries := (Ledger.newest 2 (userPlaces s sessionId covered protectedFrom)).reverse
    selectBoundary env s sessionId covered through acceptsTail (boundaries ++ [protectedFrom])

def selectCompactionPrefix (env : Environment) (s : Store) (sessionId : SessionId)
    (covered protectedFrom through maximumInputTokens instructionBytes : Nat) :
    Except PersistenceError (Option Nat) :=
  selectCompactionPrefixFitting env s sessionId covered protectedFrom through fun tail =>
    tail.fits maximumInputTokens (instructionBytes + maxCompactionSummaryBytes)

/-- `INSERT INTO context_checkpoints`. -/
def insertContextCheckpoint (s : Store) (checkpoint : ContextCheckpoint) : Store :=
  { s with contextCheckpoints := checkpoint :: s.contextCheckpoints }

/-- The places of the entries with the result of a call. -/
def resultPlaces (s : Store) (callId : ToolCallId) : List Nat :=
  (s.sessionEntries.filter fun e => e.body.finishedTool = some callId).map (·.entrySequence)

/-- `finish.entry_sequence IS NULL OR finish.entry_sequence > cut`, of some row of the join. -/
def resultAbove (s : Store) (callId : ToolCallId) (cut : Nat) : Bool :=
  (resultPlaces s callId).isEmpty || (resultPlaces s callId).any fun n => decide (cut < n)

/-- No completed batch cut may leave a call without its result in the same prefix. -/
def completeCut (s : Store) (runId : RunId) (cut : Nat) : Bool :=
  !(s.toolCalls.any fun call => decide (call.runId = runId) &&
      (s.sessionEntries.any fun start => decide (start.body.calledTool = some call.callId) &&
        decide (start.entrySequence ≤ cut)) && resultAbove s call.callId cut) &&
    !(s.toolCalls.any fun a => decide (a.runId = runId) &&
      ((resultPlaces s a.callId).any fun n => decide (n ≤ cut)) &&
      s.toolCalls.any fun b => decide (b.providerOperationId = a.providerOperationId) &&
        resultAbove s b.callId cut)

/-! ## The choice of a boundary -/

variable {env : Environment} {s : Store} {sessionId : SessionId} {covered protectedFrom through : Nat}
  {acceptsTail : ContextBudget → Bool}

/-- What the loop asks of a boundary. -/
def boundaryAccepted (env : Environment) (s : Store) (sessionId : SessionId) (covered through : Nat)
    (acceptsTail : ContextBudget → Bool) (boundary : Nat) : Bool :=
  decide (covered < boundary - 1) &&
    acceptsTail (contextBudget env s sessionId (boundary - 1) through)

theorem requireContextBudget_ok {after : Nat} {budget : ContextBudget} :
    requireContextBudget env s sessionId after through = .ok budget ↔
      after ≤ maxInteger ∧ through ≤ maxInteger ∧
        contextBudget env s sessionId after through = budget := by
  simp only [requireContextBudget, sequenceToSql, bind_ok, require_ok, pure_ok, exists_const]

/-- The loop finds the first boundary it accepts. -/
theorem selectBoundary_ok {boundaries : List Nat} {cut : Option Nat}
    (h : selectBoundary env s sessionId covered through acceptsTail boundaries = .ok cut) :
    cut = (boundaries.find? (boundaryAccepted env s sessionId covered through acceptsTail)).map
      (· - 1) := by
  induction boundaries with
  | nil => exact (Except.ok.inj h).symm
  | cons boundary rest ih =>
    rw [selectBoundary] at h
    split at h
    case isTrue hcovered =>
      simp only [bind_ok, requireContextBudget_ok] at h
      obtain ⟨tail, ⟨-, -, rfl⟩, h⟩ := h
      split at h
      case isTrue haccepted =>
        rw [List.find?_cons_of_pos (by simp [boundaryAccepted, hcovered, haccepted])]
        exact (Except.ok.inj h).symm
      case isFalse hrefused =>
        rw [List.find?_cons_of_neg (by simp [boundaryAccepted, hrefused])]
        exact ih h
    case isFalse hcovered =>
      rw [List.find?_cons_of_neg (by simp [boundaryAccepted, hcovered])]
      exact ih h

/-- The loop fails for no boundary that SQLite can hold. -/
theorem selectBoundary_total {boundaries : List Nat}
    (hboundaries : ∀ boundary ∈ boundaries, boundary ≤ through) (hthrough : through ≤ maxInteger) :
    ∃ cut, selectBoundary env s sessionId covered through acceptsTail boundaries = .ok cut := by
  induction boundaries with
  | nil => exact ⟨none, rfl⟩
  | cons boundary rest ih =>
    obtain ⟨cut, hrest⟩ := ih fun b hb => hboundaries b (List.mem_cons_of_mem _ hb)
    have hle := hboundaries boundary (List.mem_cons_self ..)
    have hbudget : requireContextBudget env s sessionId (boundary - 1) through =
        .ok (contextBudget env s sessionId (boundary - 1) through) :=
      requireContextBudget_ok.mpr ⟨show boundary - 1 ≤ maxInteger by omega, hthrough, rfl⟩
    rw [selectBoundary]
    split
    · rw [hbudget]
      by_cases haccepted :
          acceptsTail (contextBudget env s sessionId (boundary - 1) through) = true
      · exact ⟨some (boundary - 1), by simp [bind, Except.bind, haccepted, pure, Except.pure]⟩
      · exact ⟨cut, by simpa [bind, Except.bind, haccepted] using hrest⟩
    · exact ⟨cut, hrest⟩

/-! ## Budgets -/

theorem saturatingAdd_mono {a b c d : Nat} (hab : a ≤ b) (hcd : c ≤ d) :
    saturatingAdd a c ≤ saturatingAdd b d := by
  unfold saturatingAdd
  omega

/-- A budget that fits with a longer summary fits with a shorter one. -/
theorem ContextBudget.fits_mono {b : ContextBudget} {maximumInputTokens small large : Nat}
    (hle : small ≤ large) (h : b.fits maximumInputTokens large = true) :
    b.fits maximumInputTokens small = true := by
  simp only [ContextBudget.fits, Bool.and_eq_true, decide_eq_true_eq] at h ⊢
  obtain ⟨⟨⟨htokens, hentries⟩, himages⟩, hbytes⟩ := h
  refine ⟨⟨⟨le_trans ?_ htokens, hentries⟩, himages⟩, hbytes⟩
  have hextra := saturatingAdd_mono (le_refl b.bytes) hle
  exact saturatingAdd_mono (saturatingAdd_mono (saturatingAdd_mono hextra le_rfl) le_rfl) le_rfl

end Morons
