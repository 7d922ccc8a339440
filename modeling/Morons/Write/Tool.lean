import Morons.Write.Run
import Morons.Tool.Recovery

/-!
# The writes of the tool operations

A provider turn with tool calls writes its rows first and moves the
projections once, at the end.  `commitToolCalls_writes` shows that this is
the same as moving them along with each call.
-/

namespace Morons

open Attempt

variable {d : Discipline} {env : Environment} {s t : Store}

/-! ## A provider turn with tool calls -/

/-- The store with other projections of runs and sessions. -/
def Store.projected (s : Store) (runs : List Run) (sessions : List Session)
    (states : List SessionRunState) : Store :=
  { s with runs := runs, sessions := sessions, sessionRunStates := states }

/-- What the calls of a turn do to the row of their run. -/
def countCalls (row : Run) (calls : List ProviderToolCall) (last now : Nat) (r : Run) : Run :=
  { r with
    toolCalls := row.toolCalls + calls.length
    toolMutations := row.toolMutations + calls.countP fun call => call.input.kind.isMutation
    updatedSequence := last
    updatedAtMilliseconds := now }

theorem countCalls_one (row : Run) (call : ProviderToolCall) (last now : Nat) :
    countCalls row [call] last now = fun r => { r with
      toolCalls := row.toolCalls + 1
      toolMutations := row.toolMutations + if call.input.kind.isMutation then 1 else 0
      updatedSequence := last
      updatedAtMilliseconds := now } := by
  funext r
  simp [countCalls, List.countP_singleton]

/-- Counting one call and then the others counts them all. -/
theorem countCalls_cons (row : Run) (call : ProviderToolCall) (calls : List ProviderToolCall)
    (m n now : Nat) (runId : RunId) (runs : List Run) :
    Table.modify Run.id runId (countCalls (countCalls row [call] m now row) calls n now)
        (Table.modify Run.id runId (countCalls row [call] m now) runs) =
      Table.modify Run.id runId (countCalls row (call :: calls) n now) runs := by
  have hcalls : ∀ r, countCalls (countCalls row [call] m now row) calls n now
      (countCalls row [call] m now r) = countCalls row (call :: calls) n now r := by
    intro r
    simp only [countCalls, List.length_cons, List.length_nil, List.countP_cons, List.countP_nil]
    congr 1 <;> omega
  rw [Table.modify_modify (g := countCalls row [call] m now) fun _ => rfl]
  exact congrArg (fun f => Table.modify Run.id runId f runs) (funext hcalls)

/-- Counting the turn and then its calls. -/
theorem countCalls_turn (run : Run) (calls : List ProviderToolCall) (n now : Nat) (runId : RunId)
    (runs : List Run) :
    Table.modify Run.id runId
        (countCalls { run with providerTurns := run.providerTurns + 1 } calls n now)
        (Table.modify Run.id runId (fun r => { r with providerTurns := run.providerTurns + 1 })
          runs) =
      Table.modify Run.id runId (fun r => { r with
        providerTurns := run.providerTurns + 1
        toolCalls := run.toolCalls + calls.length
        toolMutations := run.toolMutations + calls.countP fun call => call.input.kind.isMutation
        updatedSequence := n
        updatedAtMilliseconds := now }) runs :=
  Table.modify_modify (g := fun r : Run => { r with providerTurns := run.providerTurns + 1 })
    fun _ => rfl

def moveState (entryHighWater last : Nat) (r : SessionRunState) : SessionRunState :=
  { r with entryHighWater := entryHighWater, updatedSequence := last }

def moveSession (last : Nat) (r : Session) : Session := { r with updatedSequence := last }

theorem moveState_twice (highWater entryHighWater m n : Nat) (sessionId : SessionId)
    (states : List SessionRunState) :
    Table.modify SessionRunState.sessionId sessionId (moveState entryHighWater n)
        (Table.modify SessionRunState.sessionId sessionId (moveState highWater m) states) =
      Table.modify SessionRunState.sessionId sessionId (moveState entryHighWater n) states :=
  Table.modify_modify (g := moveState highWater m) fun _ => rfl

theorem moveSession_twice (m n : Nat) (sessionId : SessionId) (sessions : List Session) :
    Table.modify Session.id sessionId (moveSession n)
        (Table.modify Session.id sessionId (moveSession m) sessions) =
      Table.modify Session.id sessionId (moveSession n) sessions :=
  Table.modify_modify (g := moveSession m) fun _ => rfl

/-- Where the projections of a turn stand. -/
structure TurnState (s : Store) (run : Run) (operationId : ProviderOperationId) (row : Run)
    (highWater : Nat) (runs : List Run) (states : List SessionRunState) : Prop where
  found : Table.find Run.id run.id runs = some row
  ofSession : row.sessionId = run.sessionId
  binding : row.binding = run.binding
  active : row.state = .active
  state : ∃ st, Table.find SessionRunState.sessionId run.sessionId states = some st ∧
    st.entryHighWater = highWater
  completed : ∃ f ∈ s.providerOperationFacts, f.operationId = operationId ∧ f.runId = run.id ∧
    f.factKind = .completed

/-- One call is one write of the projected store. -/
theorem commitToolCall_write {run row : Run} {operationId : ProviderOperationId}
    {call : ProviderToolCall} {callIndex highWater n : Nat} {committed : CommittedToolCall}
    {runs : List Run} (sessions : List Session) {states : List SessionRunState}
    (h : commitToolCall env s run operationId call callIndex (highWater + 1) =
      .ok (committed, n, t))
    (hstate : TurnState s run operationId row highWater runs states)
    (hroom : highWater + 1 ≤ maxTranscriptEntries) (rule : d.calls run.binding call) :
    Write d (s.projected runs sessions states)
      (t.projected (Table.modify Run.id run.id (countCalls row [call] n env.now) runs)
        (Table.modify Session.id run.sessionId (moveSession n) sessions)
        (Table.modify SessionRunState.sessionId run.sessionId (moveState (highWater + 1) n) states)) ∧
    t.providerOperationFacts = s.providerOperationFacts ∧ t.runs = s.runs ∧
      t.sessions = s.sessions ∧ t.sessionRunStates = s.sessionRunStates := by
  simp only [commitToolCall, bind_ok, require_ok, pure_ok, Prod.exists, nextSequence_ok,
    exists_const, Prod.mk.injEq] at h
  obtain ⟨n₁, s₁, ⟨-, rfl, rfl⟩, n₂, s₂, ⟨-, rfl, rfl⟩, n₃, s₃, ⟨-, rfl, rfl⟩, -, -, -, hfresh, -,
    rfl, rfl⟩ := h
  obtain ⟨st, hst, hhigh⟩ := hstate.state
  have hid : row.id = run.id := Table.find_key hstate.found
  refine ⟨?_, rfl, rfl, rfl, rfl⟩
  have hwrite := Write.toolCall (d := d) (s := s.projected runs sessions states) row st operationId
    call callIndex env.now
    { found := hid ▸ hstate.found
      active := hstate.active
      foundState := hstate.ofSession ▸ hst
      room := hhigh ▸ hroom }
    (by rw [hid]; exact hstate.completed)
    (by
      intro c hc hrun hcall
      refine hfresh ?_
      rw [List.any_eq_true]
      exact ⟨c, hc, by simp [hrun, hid, hcall]⟩)
    (hstate.binding ▸ rule)
  convert hwrite using 1
  unfold writeToolCall committedCall updateEntryHighWater
  rw [hid, hstate.ofSession, hstate.binding, hhigh, countCalls_one]
  rfl

theorem commitToolCalls_writes {run : Run} {operationId : ProviderOperationId}
    (calls : List ProviderToolCall) :
    ∀ {callIndex highWater last n : Nat} {s t : Store} {row : Run}
      {committed : List CommittedToolCall} {runs : List Run} (sessions : List Session)
      {states : List SessionRunState},
      calls ≠ [] →
      commitToolCalls env run operationId calls callIndex highWater last s =
        .ok (committed, n, t) →
      TurnState s run operationId row highWater runs states →
      highWater + calls.length ≤ maxTranscriptEntries →
      (∀ call ∈ calls, d.calls run.binding call) →
      Writes d (s.projected runs sessions states)
        (t.projected (Table.modify Run.id run.id (countCalls row calls n env.now) runs)
          (Table.modify Session.id run.sessionId (moveSession n) sessions)
          (Table.modify SessionRunState.sessionId run.sessionId
            (moveState (highWater + calls.length) n) states)) ∧
      t.runs = s.runs ∧ t.sessions = s.sessions ∧ t.sessionRunStates = s.sessionRunStates := by
  induction calls with
  | nil => exact fun _ _ h => absurd rfl h
  | cons call calls ih =>
    intro callIndex highWater last n s t row committed runs sessions states _ h hstate hroom rule
    simp only [commitToolCalls, bind_ok, Prod.exists, pure_ok, Prod.mk.injEq] at h
    obtain ⟨one, m, u, hone, rest, k, v, hrest, -, rfl, rfl⟩ := h
    have hlength : highWater + 1 ≤ maxTranscriptEntries := by
      rw [List.length_cons] at hroom
      omega
    obtain ⟨hwrite, hfacts, hruns, hsessions, hstates⟩ := commitToolCall_write
      sessions hone hstate hlength (rule call (List.mem_cons_self ..))
    by_cases hnil : calls = []
    · subst hnil
      cases hrest
      exact ⟨hwrite.writes, hruns, hsessions, hstates⟩
    · -- The rest of the turn starts from the projections this call has moved.
      have hnext : TurnState u run operationId (countCalls row [call] m env.now row)
          (highWater + 1) (Table.modify Run.id run.id (countCalls row [call] m env.now) runs)
          (Table.modify SessionRunState.sessionId run.sessionId (moveState (highWater + 1) m)
            states) := by
        obtain ⟨st, hst, -⟩ := hstate.state
        exact
          { found := Table.find_rewritten hstate.found fun _ => rfl
            ofSession := hstate.ofSession
            binding := hstate.binding
            active := hstate.active
            state := ⟨_, Table.find_rewritten hst fun _ => rfl, rfl⟩
            completed := hfacts ▸ hstate.completed }
      have hlengths : highWater + 1 + calls.length = highWater + (call :: calls).length := by
        rw [List.length_cons]
        omega
      obtain ⟨hwrites, hruns', hsessions', hstates'⟩ := ih
        (Table.modify Session.id run.sessionId (moveSession m) sessions) hnil hrest
        hnext (hlengths ▸ hroom) (fun c hc => rule c (List.mem_cons_of_mem _ hc))
      refine ⟨?_, hruns'.trans hruns, hsessions'.trans hsessions, hstates'.trans hstates⟩
      rw [hlengths, countCalls_cons, moveSession_twice, moveState_twice] at hwrites
      exact hwrite.writes.trans hwrites

theorem completeProviderToolTurn_writes {runId : RunId} {operationId : ProviderOperationId}
    {turn : CompletedToolTurn} {committed : List CommittedToolCall}
    (rule : ∀ run, loadRun s runId = some run → ∀ call ∈ turn.calls, d.calls run.binding call)
    (h : completeProviderToolTurn env s runId operationId turn = .ok (committed, t)) :
    Writes d s t := by
  simp only [completeProviderToolTurn, bind_ok, loadRequiredRun, demand_ok, require_ok,
    loadEntryHighWater, pure_ok, Prod.exists, nextSequence_ok, exists_const, validateToolTurn,
    Prod.mk.injEq] at h
  obtain ⟨⟨-, hcalls, -⟩, run, hfound, -, _, hdispatched, expected, -, highWater, ⟨state, hstate, rfl⟩,
    -, -, hroom, n₁, s₁, ⟨-, rfl, rfl⟩, n₂, s₂, ⟨-, rfl, rfl⟩, u, hu, callHighWater, last, v, hv,
    rest, m, w, hw, -, rfl⟩ := h
  have hid := loadRun_key hfound
  subst hid
  obtain ⟨hactive, hopen, hadmitted⟩ := completed_admitted
    ⟨turn.providerResponseId, turn.usage⟩ env.now hdispatched
  have hu := insertProviderCompleted_ok hu
  subst hu
  have houtcome := (Write.outcome (d := d) run _ hfound hactive hadmitted hopen).writes
  have hrow := loadRun_update hfound (fun r => { r with providerTurns := run.providerTurns + 1 })
    fun _ => rfl
  -- The run as the outcome leaves it.
  have hturn : TurnState (writeProviderOutcome s run
      ⟨s.nextValue, operationId, run.id, .completed, none,
        some ⟨turn.providerResponseId, turn.usage⟩, none, env.now⟩) run operationId
      { run with providerTurns := run.providerTurns + 1 } state.entryHighWater
      (Table.modify Run.id run.id (fun r => { r with providerTurns := run.providerTurns + 1 })
        s.runs) s.sessionRunStates :=
    { found := hrow
      ofSession := rfl
      binding := rfl
      active := hactive
      state := ⟨state, hstate, rfl⟩
      completed := ⟨_, List.mem_cons_self .., rfl, rfl, rfl⟩ }
  have hrule := rule run hfound
  cases hcommentary : turn.commentary with
  | none =>
    simp only [hcommentary, Option.isSome_none, Bool.false_eq_true, if_false, Nat.add_zero,
      Except.ok.injEq, Prod.mk.injEq] at hv hroom ⊢
    obtain ⟨rfl, rfl, rfl⟩ := hv
    obtain ⟨hwrites, hruns, hsessions, hstates⟩ := commitToolCalls_writes (d := d)
      (s := insertRunAudit _ _ run (some operationId) .providerCompleted env.now) turn.calls
      s.sessions hcalls
      hw { hturn with } hroom hrule
    rw [countCalls_turn] at hwrites
    refine houtcome.trans ?_
    unfold updateEntryHighWater updateSession updateSessionRunState updateRun
    simp only [hruns, hsessions, hstates]
    exact hwrites
  | some commentary =>
    obtain ⟨text, refusal⟩ := commentary
    simp only [hcommentary, Option.isSome_some, if_true, insertAssistantCommentary, bind_ok,
      pure_ok, Prod.exists, nextSequence_ok, Prod.mk.injEq] at hv hroom ⊢
    obtain ⟨k, x, ⟨n₃, s₃, ⟨-, rfl, rfl⟩, rfl, rfl⟩, rfl, rfl, rfl⟩ := hv
    have hcommentary := Write.commentary (d := d) (s := writeProviderOutcome s run
      ⟨s.nextValue, operationId, run.id, .completed, none,
        some ⟨turn.providerResponseId, turn.usage⟩, none, env.now⟩)
      { run with providerTurns := run.providerTurns + 1 } state text refusal env.now
      { found := hrow
        active := hactive
        foundState := hstate
        room := by omega }
    have hnext : TurnState (writeCommentary (writeProviderOutcome s run
        ⟨s.nextValue, operationId, run.id, .completed, none,
          some ⟨turn.providerResponseId, turn.usage⟩, none, env.now⟩)
        { run with providerTurns := run.providerTurns + 1 } (state.entryHighWater + 1) text refusal
        env.now) run operationId { run with providerTurns := run.providerTurns + 1 }
        (state.entryHighWater + 1)
        (Table.modify Run.id run.id (fun r => { r with providerTurns := run.providerTurns + 1 })
          s.runs)
        (Table.modify SessionRunState.sessionId run.sessionId
          (moveState (state.entryHighWater + 1) (s.nextValue + 2)) s.sessionRunStates) :=
      { hturn with state := ⟨_, Table.find_rewritten hstate fun _ => rfl, rfl⟩ }
    obtain ⟨hwrites, hruns, hsessions, hstates⟩ := commitToolCalls_writes (d := d)
      turn.calls
      (Table.modify Session.id run.sessionId (moveSession (s.nextValue + 2)) s.sessions) hcalls hw
      { hnext with } (by omega) hrule
    have hlength : state.entryHighWater + 1 + turn.calls.length =
        state.entryHighWater + (turn.calls.length + 1) := by omega
    rw [countCalls_turn, moveSession_twice, moveState_twice, hlength] at hwrites
    refine (houtcome.then hcommentary).trans ?_
    unfold updateEntryHighWater updateSession updateSessionRunState updateRun
    simp only [hruns, hsessions, hstates]
    exact hwrites

/-! ## One tool operation -/

theorem requireActiveToolCall_ok {run : Run} {callId : ToolCallId} {operationId : ToolOperationId}
    {u : Unit} (hfound : loadRun s run.id = some run) :
    requireActiveToolCall s run callId operationId = .ok u ↔
      ∃ call, Table.find ToolCall.callId callId s.toolCalls = some call ∧ ActiveCall s run call ∧
        call.callId = callId ∧ call.operationId = operationId := by
  simp only [requireActiveToolCall, loadToolCallIdentity, bind_ok, require_ok, demand_ok,
    exists_const]
  constructor
  · rintro ⟨hactive, call, hcall, hrun, hsession, hop⟩
    have hkey : call.callId = callId := Table.find_key hcall
    exact ⟨call, hcall, ⟨hfound, hactive, by rw [hkey]; exact hcall, hrun, hsession⟩, hkey, hop⟩
  · rintro ⟨call, hcall, hactive, -, hop⟩
    exact ⟨hactive.active, call, hcall, hactive.ofRun, hactive.ofSession, hop⟩

theorem prepareToolOperation_writes {runId : RunId} {callId : ToolCallId}
    {operationId : ToolOperationId} {recoveryPlan : Option String}
    (rule : ∀ call, Table.find ToolCall.callId callId s.toolCalls = some call →
      d.plans call recoveryPlan)
    (h : prepareToolOperation env s runId callId operationId recoveryPlan = .ok t) :
    Writes d s t := by
  simp only [prepareToolOperation, bind_ok, loadRequiredRun, demand_ok, require_ok, pure_ok,
    Prod.exists, nextSequence_ok, exists_const, loadToolCallIdentity] at h
  obtain ⟨-, run, hfound, _, hrequired, _, -, hfresh, n, s₁, ⟨-, rfl, rfl⟩, m, s₂, ⟨-, rfl, rfl⟩,
    call', hcall', rfl⟩ := h
  have hid := loadRun_key hfound
  subst hid
  obtain ⟨call, hcall, hactive, rfl, rfl⟩ := (requireActiveToolCall_ok hfound).mp hrequired
  obtain rfl : call' = call := Option.some.inj (hcall'.symm.trans hcall)
  refine (Write.toolPrepared run call' recoveryPlan env.now hactive ?_ (rule call' hcall)).writes
  intro f hf hfcall
  exact hfresh (List.any_eq_true.mpr ⟨f, hf, decide_eq_true hfcall⟩)

theorem markToolDispatched_writes {runId : RunId} {callId : ToolCallId}
    {operationId : ToolOperationId} (h : markToolDispatched env s runId callId operationId = .ok t) :
    Writes d s t := by
  simp only [markToolDispatched, bind_ok, loadRequiredRun, demand_ok, require_ok, pure_ok,
    Prod.exists, nextSequence_ok, exists_const, loadToolCallIdentity, requireToolFact,
    ensureToolNotTerminal] at h
  obtain ⟨_, -, run, hfound, call', hcall', bound, -, _, hrequired, hprepared, hopen, n, s₁,
    ⟨-, rfl, rfl⟩, m, s₂, ⟨-, rfl, rfl⟩, hfresh, rfl⟩ := h
  have hid := loadRun_key hfound
  subst hid
  obtain ⟨call, hcall, hactive, rfl, rfl⟩ := (requireActiveToolCall_ok hfound).mp hrequired
  obtain rfl : call' = call := Option.some.inj (hcall'.symm.trans hcall)
  exact (Write.toolDispatched run call' _ env.now hactive hprepared (Bool.eq_false_iff.mpr hopen)
    (Bool.eq_false_iff.mpr hfresh)).writes

/-- The result that is recorded: an image that is not admitted counts as an error. -/
def admittedResult (env : Environment) (callId : ToolCallId) (result : ToolResult) : ToolResult :=
  if result.hasImage && !env.toolImageAdmitted callId result then .error .resourceLimit none
  else result

theorem completeToolResult_writes {runId : RunId} {callId : ToolCallId}
    {operationId : ToolOperationId} {result : ToolResult}
    (rule : ∀ call, Table.find ToolCall.callId callId s.toolCalls = some call →
      d.results call (admittedResult env callId result) (toolHasFact s callId .dispatched))
    (ends : ∀ run, loadRun s runId = some run →
      (admittedResult env callId result).stopsRun run.binding.toolCatalogVersion = true →
        d.finishes s.providerOperationFacts runId none)
    (h : completeToolResult env s runId callId operationId result = .ok t) : Writes d s t := by
  unfold completeToolResult at h
  change _ = Except.ok t at h
  generalize hresult : (if (result.hasImage && !env.toolImageAdmitted callId result) = true then
    ToolResult.error .resourceLimit none else result) = recorded at h
  have hrecorded : admittedResult env callId result = recorded := hresult
  rw [hrecorded] at rule ends
  simp only [bind_ok, loadRequiredRun, demand_ok, require_ok, pure_ok,
    Prod.exists, nextSequence_ok, exists_const, loadToolCallIdentity, requireToolFact,
    ensureToolNotTerminal, checkPayload, loadEntryHighWater] at h
  obtain ⟨⟨-, hpayload⟩, run, hfound, _, hrequired, hprepared, hopen, _, -, factKind, resultStatus,
    hclassified, -, highWater, ⟨state, hstate, rfl⟩, hroom, huncertain, n₁, s₁, ⟨-, rfl, rfl⟩, n₂,
    s₂, ⟨-, rfl, rfl⟩, n₃, s₃, ⟨-, rfl, rfl⟩, call', hcall', h⟩ := h
  have hid := loadRun_key hfound
  subst hid
  obtain ⟨call, hcall, hactive, rfl, rfl⟩ := (requireActiveToolCall_ok hfound).mp hrequired
  obtain rfl : call' = call := Option.some.inj (hcall'.symm.trans hcall)
  have hentry : EntryAdmitted s run state := ⟨hfound, hactive.active, hstate, hroom⟩
  have hopen := Bool.eq_false_iff.mpr hopen
  split at h
  · rename_i hstops
    obtain ⟨-, u, kind, hkind, hpaused, rfl⟩ := (appendRunTransition_ok h rfl).ends rfl
    cases hkind
    exact (Write.toolUncertain run state call' recorded factKind resultStatus env.now u hactive
      hentry hprepared hopen hclassified huncertain hpayload hstops hpaused (rule call' hcall)
      (ends run hfound hstops)).writes
  · rename_i hgoesOn
    cases h
    exact (Write.toolResult run state call' recorded factKind resultStatus env.now hactive hentry
      hprepared hopen hclassified huncertain hpayload (Bool.eq_false_iff.mpr hgoesOn)
      (rule call' hcall)).writes

/-! ## Every operation -/

/-- What the discipline asks of the caller of an operation. -/
def Operation.obeys (d : Discipline) (env : Environment) (s : Store) : Operation → Prop
  | .prepareSessionDelete .. | .cleanSessionDatabase .. | .completeSessionDelete .. => d.deletes
  | .activateRun runId | .prepareProviderOperation runId _ _ =>
    ∀ run, loadRun s runId = some run → run.state.isTerminal = false →
      run.cancellationRequested = true → d.finishes s.providerOperationFacts runId none
  | .markProviderDispatched runId operationId | .completeRunSuccess runId operationId _ =>
    ∀ run, loadRun s runId = some run → run.state.isTerminal = false →
      run.cancellationRequested = true →
      d.finishes s.providerOperationFacts runId (some operationId)
  | .finishRunFailure runId operationId _ _ | .finishRunStopped runId operationId =>
    ∀ run, loadRun s runId = some run → run.state.isTerminal = false →
      d.finishes s.providerOperationFacts runId operationId
  | .recoverNonterminalRuns _ =>
    ∀ u runId, d.finishes u.providerOperationFacts runId (pendingOperation u runId)
  | .completeProviderToolTurn runId _ turn =>
    ∀ run, loadRun s runId = some run → ∀ call ∈ turn.calls, d.calls run.binding call
  | .prepareToolOperation _ callId _ recoveryPlan =>
    ∀ call, Table.find ToolCall.callId callId s.toolCalls = some call → d.plans call recoveryPlan
  | .completeToolResult runId callId _ result =>
    (∀ call, Table.find ToolCall.callId callId s.toolCalls = some call →
      d.results call (admittedResult env callId result) (toolHasFact s callId .dispatched)) ∧
    ∀ run, loadRun s runId = some run →
      (admittedResult env callId result).stopsRun run.binding.toolCatalogVersion = true →
        d.finishes s.providerOperationFacts runId none
  | _ => True

theorem Operation.obeys_none (op : Operation) : op.obeys Discipline.none env s := by
  cases op <;> simp [Operation.obeys, Discipline.none]

theorem Operation.obeys_keeping {op : Operation} (hop : op.isDeletion = false) :
    op.obeys Discipline.keeping env s := by
  cases op <;> simp_all [Operation.obeys, Discipline.keeping, Discipline.none, isDeletion]

/-- **Refinement.**  Every operation is a sequence of writes. -/
theorem execute_writes {op : Operation} (hrule : op.obeys d env s)
    (h : execute env s op = .ok t) : Writes d s t := by
  cases op with
  | prepareSessionCreation =>
    obtain ⟨_, h⟩ := map_snd_ok.mp h
    exact prepareSessionCreation_writes h
  | dispatchWorkspaceCreation => exact dispatchWorkspaceCreation_writes h
  | finalizeSessionCreation => exact finalizeSessionCreation_writes h
  | renameSession =>
    obtain ⟨_, h⟩ := map_snd_ok.mp h
    exact renameSession_writes h
  | prepareSessionArchive =>
    obtain ⟨_, h⟩ := map_snd_ok.mp h
    exact prepareSessionArchive_writes h
  | completeSessionArchive =>
    obtain ⟨_, h⟩ := map_snd_ok.mp h
    exact completeSessionArchive_writes h
  | prepareSessionDelete =>
    obtain ⟨_, h⟩ := map_snd_ok.mp h
    exact prepareSessionDelete_writes hrule h
  | cleanSessionDatabase => exact cleanSessionDatabase_writes hrule h
  | completeSessionDelete =>
    obtain ⟨_, h⟩ := map_snd_ok.mp h
    exact completeSessionDelete_writes hrule h
  | acceptSessionInput =>
    obtain ⟨_, h⟩ := map_snd_ok.mp h
    exact acceptSessionInput_writes h
  | settleContextRejection =>
    obtain ⟨_, h⟩ := map_snd_ok.mp h
    exact settleContextRejection_writes h
  | activateRun =>
    obtain ⟨_, h⟩ := map_snd_ok.mp h
    exact activateRun_writes hrule h
  | prepareProviderOperation =>
    obtain ⟨_, h⟩ := map_snd_ok.mp h
    exact prepareProviderOperation_writes hrule h
  | markProviderDispatched =>
    obtain ⟨_, h⟩ := map_snd_ok.mp h
    exact markProviderDispatched_writes hrule h
  | completeProviderToolTurn =>
    obtain ⟨_, h⟩ := map_snd_ok.mp h
    exact completeProviderToolTurn_writes hrule h
  | completeRunSuccess =>
    obtain ⟨_, h⟩ := map_snd_ok.mp h
    exact completeRunSuccess_writes hrule h
  | cancelRun =>
    obtain ⟨_, h⟩ := map_snd_ok.mp h
    exact cancelRun_writes h
  | finishRunFailure =>
    obtain ⟨_, h⟩ := map_snd_ok.mp h
    exact finishRun_writes hrule h
  | finishRunStopped =>
    obtain ⟨_, h⟩ := map_snd_ok.mp h
    exact finishRun_writes hrule h
  | recoverNonterminalRuns => exact recoverNonterminalRuns_writes hrule h
  | prepareToolOperation => exact prepareToolOperation_writes hrule h
  | markToolDispatched => exact markToolDispatched_writes h
  | completeToolResult => exact completeToolResult_writes hrule.1 hrule.2 h
  | acceptLocalCommand =>
    obtain ⟨_, htext, h⟩ := (bind_ok _ _ _).mp h
    obtain ⟨_, h⟩ := map_snd_ok.mp h
    exact acceptLocalCommand_writes htext h
  | activateLocalCommand =>
    obtain ⟨_, h⟩ := map_snd_ok.mp h
    exact activateLocalCommand_writes h
  | completeLocalCommand => exact completeLocalCommand_writes h
  | cancelLocalCommand =>
    obtain ⟨_, h⟩ := map_snd_ok.mp h
    exact cancelLocalCommand_writes h
  | mutateSteering =>
    obtain ⟨_, h⟩ := map_snd_ok.mp h
    exact mutateSteering_writes h

/-- Operations that obey a discipline. -/
def Obeying (d : Discipline) (env : Environment) (s : Store) (op : Operation) : Prop :=
  op.obeys d env s

/-- Any number of operations that delete nothing. -/
theorem undeleting_writes (hrun : Relation.ReflTransGen (Step Undeleting) s t) :
    Writes .keeping s t := by
  induction hrun with
  | refl => exact .refl
  | tail _ hstep ih =>
    obtain ⟨env, op, hop, hexecute⟩ := hstep
    exact ih.trans (execute_writes (op.obeys_keeping hop) hexecute)

/-- **Simulation.**  What disciplined operations reach, writes reach. -/
theorem Reachable.writes (h : Reachable (Obeying d) s) :
    Transition.Reachable (· = Store.empty) (Write d) s :=
  Transition.Reachable.simulates id (fun _ h => h)
    (fun _ _ _ ⟨_, _, hrule, hstep⟩ => execute_writes hrule hstep) h

theorem Reachable.obeying_none {allowed : Environment → Store → Operation → Prop}
    (h : Reachable allowed s) : Reachable (Obeying Discipline.none) s :=
  Transition.Reachable.mono (fun _ h => h)
    (fun _ _ ⟨env, op, _, hstep⟩ => ⟨env, op, op.obeys_none, hstep⟩) h

end Morons
