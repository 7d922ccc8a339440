import Morons.Invariant.Sound

/-!
# The life of a local command

A command excludes the runs and the other commands of its session, takes the
next place of the transcript when it finishes and is then left alone.  A
restart finishes every command it finds under way, unless the clock went back
behind an acceptance or a transcript has no place left: acceptance looks at
neither.
-/

namespace Morons

open Attempt

variable {env : Environment} {s t : Store}

/-! ## The registry and the rows -/

/-- A table that is registered and backed agrees with the registry. -/
theorem registryConflict_false {Row : Type} {operation : MutationOperation}
    (stamp : Row → MutationRequestId × Nat × Nat) {requests : List MutationRequest}
    {rows : List Row} (hkeyed : Table.Keyed MutationRequest.requestId requests)
    (hregistered : RegisteredAs (fun r => (stamp r).1) operation requests rows)
    (hbacked : Backed stamp operation requests rows) :
    registryConflict operation stamp requests rows = false := by
  simp only [registryConflict, Bool.or_eq_false_iff, List.any_eq_false]
  constructor
  · intro m hm hconflict
    simp only [Bool.and_eq_true, decide_eq_true_eq, Bool.not_eq_true'] at hconflict
    obtain ⟨row, hrow, hstamp⟩ := hbacked m hm hconflict.1
    have hfound : rows.find? (fun r => (stamp r).1 = m.requestId) = some row :=
      (Table.find_iff hregistered.keyed).mpr ⟨hrow, by rw [hstamp]⟩
    have hno := hconflict.2
    rw [hfound] at hno
    simp [hstamp] at hno
  · intro row hrow hconflict
    obtain ⟨m, hm, hkey, hop⟩ := hregistered.registered row hrow
    have hfound : Table.find MutationRequest.requestId (stamp row).1 requests = some m :=
      (Table.find_iff hkeyed).mpr ⟨hm, hkey⟩
    simp [hfound, hop] at hconflict

theorem invalidCommandRow_false {c : LocalCommand} (h : WellFormed c) :
    invalidCommandRow c = false := by
  have htext : (validateLocalCommand c.commandText).isOk = true := by
    rw [h.text]
    rfl
  rcases h.stage with ⟨hstate, hresult, -⟩ | ⟨result, hresult, hstate, hcanonical, -⟩
  · have hopen : (c.state = .accepted || c.state = .active) = true := by
      cases hc : c.state <;> simp_all [LocalCommandState.isTerminal]
    simp [invalidCommandRow, htext, h.canonical, hresult, hopen]
  · have hthree : ¬ c.state.toRecord < 3 := by
      have hterminal := terminalCommandState_isTerminal result
      rw [← hstate, LocalCommandState.isTerminal_iff_record] at hterminal
      omega
    simp [invalidCommandRow, htext, h.canonical, hresult, hcanonical, hthree,
      expectedCommandState_eq, ← hstate]

/-- The startup check accepts the commands of a sound store. -/
theorem Sound.validateLocalCommandFacts_ok (h : Sound s) : validateLocalCommandFacts s = .ok () := by
  have hcommands := registryConflict_false LocalCommand.stamp h.registered.requests
    h.registered.commands h.commanded.backed
  have hcancellations := registryConflict_false LocalCommandCancellation.stamp
    h.registered.requests h.registered.commandCancellations h.commanded.backedCancellations
  have hrows : s.localCommands.any invalidCommandRow = false :=
    List.any_eq_false.mpr fun c hc => by simp [invalidCommandRow_false (h.commanded.formed c hc)]
  have hrequests : s.localCommandCancellations.any invalidCommandCancellation = false :=
    List.any_eq_false.mpr fun k hk => by
      simp [invalidCommandCancellation, h.commanded.cancellations k hk]
  simp [validateLocalCommandFacts, require, hcommands, hcancellations, hrows, hrequests, bind,
    Except.bind]

/-! ## Completing a command -/

/-- What a completion needs. -/
structure Completable (env : Environment) (s : Store) (row : LocalCommand) (state : SessionRunState)
    (result : ToolResult) : Prop where
  canonical : validateCanonicalBashResult result = true
  found : loadLocalCommand s row.commandId = some row
  running : row.state.isTerminal = false
  payload : result.payloadBytes ≤ maxToolPayloadBytes
  foundState : loadSessionRunState s row.sessionId = some state
  room : state.entryHighWater + 1 ≤ maxTranscriptEntries
  sequence : s.nextValue + 1 < maxInteger
  clock : row.acceptedAtMilliseconds ≤ env.now

/-- Everything a completion can do, and all it asks for. -/
theorem completeLocalCommand_ok {commandId : LocalCommandId} {result : ToolResult} :
    completeLocalCommand env s commandId result = .ok t ↔
      ∃ row state, row.commandId = commandId ∧ Completable env s row state result ∧
        t = writeCommandResult s row result (state.entryHighWater + 1) env.now := by
  have hopen : ∀ state : LocalCommandState,
      (state = .accepted ∨ state = .active) ↔ state.isTerminal = false := by
    intro state
    cases state <;> simp [LocalCommandState.isTerminal]
  constructor
  · intro h
    simp only [completeLocalCommand, bind_ok, require_ok, demand_ok, pure_ok, Prod.exists,
      nextSequence_ok, exists_const, updateLocalCommand] at h
    obtain ⟨hcanonical, row, hfound, hstate, hpayload, state, hfoundState, hroom, n, s₁,
      ⟨-, rfl, rfl⟩, m, s₂, ⟨hsequence, rfl, rfl⟩, u, ⟨hclock, rfl⟩, rfl⟩ := h
    have hid : row.commandId = commandId := Table.find_key hfound
    subst hid
    exact ⟨row, state, rfl, ⟨hcanonical, hfound, (hopen _).mp hstate, hpayload, hfoundState, hroom,
      hsequence, hclock⟩, rfl⟩
  · rintro ⟨row, state, rfl, h, rfl⟩
    simp only [completeLocalCommand, bind_ok, require_ok, demand_ok, pure_ok, Prod.exists,
      nextSequence_ok, exists_const, updateLocalCommand]
    exact ⟨h.canonical, row, h.found, (hopen _).mpr h.running, h.payload, state, h.foundState,
      h.room, _, _, ⟨Nat.lt_of_succ_lt h.sequence, rfl, rfl⟩, _, _, ⟨h.sequence, rfl, rfl⟩, _,
      ⟨h.clock, rfl⟩, rfl⟩

theorem Completable.write {d : Discipline} {row : LocalCommand} {state : SessionRunState}
    {result : ToolResult} (h : Completable env s row state result) :
    Write d s (writeCommandResult s row result (state.entryHighWater + 1) env.now) :=
  .commandResult row state result env.now h.found h.running h.canonical h.payload h.foundState
    h.room h.clock

/-! ## Recovery -/

/-- The list holds the commands under way, each once. -/
structure Unfinished (s : Store) (commands : List LocalCommand) : Prop where
  sound : Sound s
  listed : ∀ c, c ∈ commands ↔ c ∈ s.localCommands ∧ c.state.isTerminal = false
  nodup : (commands.map LocalCommand.commandId).Nodup

/-- The clock has not gone back behind an acceptance, and every transcript and
the sequence have room. -/
structure Finishable (during : LocalCommandId → Environment) (s : Store)
    (commands : List LocalCommand) : Prop where
  clock : ∀ c ∈ commands, c.acceptedAtMilliseconds ≤ (during c.commandId).now
  room : ∀ c ∈ commands, ∀ state, loadSessionRunState s c.sessionId = some state →
    state.entryHighWater < maxTranscriptEntries
  sequence : commands ≠ [] → s.nextValue + 2 * commands.length ≤ maxInteger

/-- The result that recovery gives a command. -/
def recoveryResult (c : LocalCommand) : ToolResult :=
  .error (if c.state = .active then .uncertain else .notDispatched) none

theorem recoveryResult_canonical (c : LocalCommand) :
    validateCanonicalBashResult (recoveryResult c) = true ∧
      (recoveryResult c).payloadBytes ≤ maxToolPayloadBytes := by
  unfold recoveryResult
  split
  · exact ⟨rfl, by decide⟩
  · exact ⟨rfl, by decide⟩

namespace Unfinished

variable {c : LocalCommand} {commands : List LocalCommand} {state : SessionRunState}
  {during : LocalCommandId → Environment}

theorem found (h : Unfinished s (c :: commands)) : loadLocalCommand s c.commandId = some c :=
  Table.find_of_mem h.sound.identified.commands.nodup
    ((h.listed c).mp (List.mem_cons_self ..)).1

/-- The other commands belong to other sessions. -/
theorem apart (h : Unfinished s (c :: commands)) : ∀ c' ∈ commands,
    c'.commandId ≠ c.commandId ∧ c'.sessionId ≠ c.sessionId := by
  intro c' hc'
  have hne : c'.commandId ≠ c.commandId := by
    intro e
    exact (List.nodup_cons.mp h.nodup).1 (e ▸ List.mem_map_of_mem hc')
  obtain ⟨hin, hrunning⟩ := (h.listed c).mp (List.mem_cons_self ..)
  obtain ⟨hin', hrunning'⟩ := (h.listed c').mp (List.mem_cons_of_mem _ hc')
  exact ⟨hne, fun e => hne (h.sound.occupied.single c' hin' c hin e hrunning' hrunning)⟩

/-- One command is finished, the others are left. -/
theorem rest (h : Unfinished s (c :: commands)) {result : ToolResult}
    (hc : Completable env s c state result) :
    Unfinished (writeCommandResult s c result (state.entryHighWater + 1) env.now) commands where
  sound := h.sound.write (d := .none) hc.write
  listed := by
    intro c'
    constructor
    · intro hc'
      obtain ⟨hin, hrunning⟩ := (h.listed c').mp (List.mem_cons_of_mem _ hc')
      exact ⟨Table.mem_modify.mpr ⟨c', hin, if_neg (h.apart c' hc').1⟩, hrunning⟩
    · rintro ⟨hin, hrunning⟩
      obtain ⟨r, hr, rfl⟩ := Table.mem_modify.mp hin
      by_cases e : r.commandId = c.commandId
      · rw [if_pos e, terminalCommandState_isTerminal] at hrunning
        cases hrunning
      · rw [if_neg e] at hrunning ⊢
        rcases List.mem_cons.mp ((h.listed r).mpr ⟨hr, hrunning⟩) with rfl | hrest
        · exact absurd rfl e
        · exact hrest
  nodup := (List.nodup_cons.mp h.nodup).2

/-- Finishing one command takes nothing from the others. -/
theorem finishable_rest (h : Unfinished s (c :: commands)) {result : ToolResult} {now : Nat} :
    Finishable during (writeCommandResult s c result (state.entryHighWater + 1) now) commands ↔
      (∀ c' ∈ commands, c'.acceptedAtMilliseconds ≤ (during c'.commandId).now) ∧
      (∀ c' ∈ commands, ∀ state, loadSessionRunState s c'.sessionId = some state →
        state.entryHighWater < maxTranscriptEntries) ∧
      (commands ≠ [] → s.nextValue + 2 * (c :: commands).length ≤ maxInteger) := by
  have hsame : ∀ c' ∈ commands, loadSessionRunState
      (writeCommandResult s c result (state.entryHighWater + 1) now) c'.sessionId =
        loadSessionRunState s c'.sessionId :=
    fun c' hc' => Table.find_modify_ne (fun _ => rfl) (h.apart c' hc').2
  have hnumber : (writeCommandResult s c result (state.entryHighWater + 1) now).nextValue =
      s.nextValue + 2 := rfl
  constructor
  · intro hrest
    refine ⟨hrest.clock, fun c' hc' state' e => hrest.room c' hc' state' ?_, fun hne => ?_⟩
    · rw [hsame c' hc', e]
    · have hseq := hrest.sequence hne
      rw [hnumber] at hseq
      simp only [List.length_cons]
      omega
  · rintro ⟨hclock, hroom, hseq⟩
    refine ⟨hclock, fun c' hc' state' e => hroom c' hc' state' ?_, fun hne => ?_⟩
    · rw [← hsame c' hc', e]
    · have hlen := hseq hne
      simp only [List.length_cons] at hlen
      rw [hnumber]
      omega

/-- A recovery that succeeds could finish every command. -/
theorem finishable (h : Unfinished s commands)
    (hsweep : sweep (fun s c => recoverLocalCommand (during c.1) s c) s
      (commands.map fun c => (c.commandId, c.state)) = .ok t) : Finishable during s commands := by
  induction commands generalizing s with
  | nil => exact ⟨by simp, by simp, by simp⟩
  | cons c commands ih =>
    obtain ⟨u, hu, hrest⟩ := (sweep_cons_ok _ _ _ _ _).mp hsweep
    obtain ⟨row, state, hid, hc, rfl⟩ := completeLocalCommand_ok.mp hu
    have hrow : row = c := by
      have hfound := h.found
      rw [← show row.commandId = c.commandId from hid, hc.found] at hfound
      exact Option.some.inj hfound
    subst hrow
    obtain ⟨hclock, hroom, hseq⟩ := h.finishable_rest.mp (ih (h.rest hc) hrest)
    refine ⟨?_, ?_, fun _ => ?_⟩
    · intro c' hc'
      rcases List.mem_cons.mp hc' with rfl | hc'
      · exact hc.clock
      · exact hclock c' hc'
    · intro c' hc' state' e
      rcases List.mem_cons.mp hc' with rfl | hc'
      · rw [hc.foundState] at e
        exact Option.some.inj e ▸ hc.room
      · exact hroom c' hc' state' e
    · cases commands with
      | nil => exact hc.sequence
      | cons c' commands => exact hseq (by simp)

/-- When every command can be finished, recovery succeeds and leaves none under way. -/
theorem recovers (h : Unfinished s commands) (hfinish : Finishable during s commands) :
    ∃ t, sweep (fun s c => recoverLocalCommand (during c.1) s c) s
      (commands.map fun c => (c.commandId, c.state)) = .ok t ∧ Unfinished t [] := by
  induction commands generalizing s with
  | nil => exact ⟨s, rfl, h⟩
  | cons c commands ih =>
    obtain ⟨hin, hrunning⟩ := (h.listed c).mp (List.mem_cons_self ..)
    obtain ⟨state, hstate⟩ := Option.isSome_iff_exists.mp
      (h.sound.aligned.runState_isSome.mpr
        (Table.find_isSome.mpr (h.sound.occupied.commands c hin)))
    have hlen := hfinish.sequence (by simp)
    simp only [List.length_cons] at hlen
    obtain ⟨hcanonical, hpayload⟩ := recoveryResult_canonical c
    have hc : Completable (during c.commandId) s c state (recoveryResult c) :=
      { canonical := hcanonical
        found := h.found
        running := hrunning
        payload := hpayload
        foundState := hstate
        room := hfinish.room c (List.mem_cons_self ..) state hstate
        sequence := by omega
        clock := hfinish.clock c (List.mem_cons_self ..) }
    have hrest : Finishable during (writeCommandResult s c (recoveryResult c)
        (state.entryHighWater + 1) (during c.commandId).now) commands := h.finishable_rest.mpr
      ⟨fun c' hc' => hfinish.clock c' (List.mem_cons_of_mem _ hc'),
        fun c' hc' => hfinish.room c' (List.mem_cons_of_mem _ hc'),
        fun _ => hfinish.sequence (by simp)⟩
    obtain ⟨t, hsweep, ht⟩ := ih (h.rest hc) hrest
    exact ⟨t, (sweep_cons_ok _ _ _ _ _).mpr
      ⟨_, completeLocalCommand_ok.mpr ⟨c, state, rfl, hc, rfl⟩, hsweep⟩, ht⟩

end Unfinished

def commandsUnderWay (s : Store) : List LocalCommand :=
  s.localCommands.filter fun c => !c.state.isTerminal

theorem Finishable.perm {during : LocalCommandId → Environment} {l l' : List LocalCommand}
    (hperm : l.Perm l') (h : Finishable during s l) : Finishable during s l' where
  clock c hc := h.clock c (hperm.mem_iff.mpr hc)
  room c hc := h.room c (hperm.mem_iff.mpr hc)
  sequence hne := by
    have hlen := h.sequence fun e => hne (by simpa [e] using hperm)
    rwa [hperm.length_eq] at hlen

/-- A restart goes through the commands under way. -/
theorem Sound.unfinished (h : Sound s) : Unfinished s
    ((commandsUnderWay s).mergeSort fun a b => decide (a.acceptedSequence ≤ b.acceptedSequence)) where
  sound := h
  listed c := by
    rw [List.mem_mergeSort, commandsUnderWay, List.mem_filter]
    simp
  nodup := by
    refine ((List.mergeSort_perm _ _).map LocalCommand.commandId).nodup_iff.mpr ?_
    exact h.identified.commands.nodup.sublist (List.filter_sublist.map _)

/-! ## Finished commands -/

/-- A write leaves finished commands alone. -/
theorem Write.finished (w : Write .keeping s t) (h : Identified s) {c : LocalCommand}
    (hc : c ∈ s.localCommands) (hfinished : c.state.isTerminal = true) : c ∈ t.localCommands := by
  have hkeep : ∀ (row : LocalCommand) (f : LocalCommand → LocalCommand),
      loadLocalCommand s row.commandId = some row → row.state.isTerminal = false →
        c ∈ Table.modify LocalCommand.commandId row.commandId f s.localCommands := by
    intro row f found hrunning
    refine Table.mem_modify.mpr ⟨c, hc, if_neg fun e => ?_⟩
    have hsame : c = row := Table.eq_of_key h.commands.nodup hc (Table.find_mem found) e
    rw [hsame, hrunning] at hfinished
    cases hfinished
  cases w with
  | recovery u now paused =>
    rw [(pause_paused paused).frame]
    exact hc
  | steering mutation u item now fresh text admitted applied =>
    rw [(steering_frame applied).2]
    exact hc
  | archiveRequest requestId fingerprint sessionId archived now u fresh found paused =>
    rw [(requestArchive_paused paused).frame]
    exact hc
  | cancellation requestId fingerprint run now fresh foundSession found room recordable canonical u
      paused =>
    rw [(cancelled_paused paused).frame]
    exact hc
  | cleanup request session rule => exact False.elim rule
  | commandAcceptance => exact List.mem_cons_of_mem _ hc
  | commandActivation row now found accepted =>
    exact hkeep row _ found (by simp [accepted, LocalCommandState.isTerminal])
  | commandResult row state result now found running => exact hkeep row _ found running
  | commandCancellation requestId fingerprint row now fresh found =>
    simp only [writeCommandCancellation]
    split
    · rename_i happlied
      simp only [Bool.and_eq_true, Bool.not_eq_true'] at happlied
      exact hkeep row _ found happlied.1
    · exact hc
  | finish run outcome => cases outcome <;> exact hc
  | _ => exact hc

/-- No operation changes a finished command. -/
theorem Sound.finished (h : Sound s) (hrun : Relation.ReflTransGen (Step Undeleting) s t)
    {c : LocalCommand} (hc : c ∈ s.localCommands) (hfinished : c.state.isTerminal = true) :
    c ∈ t.localCommands := by
  have hwrites := undeleting_writes hrun
  clear hrun
  have hboth : Sound t ∧ c ∈ t.localCommands := by
    induction hwrites with
    | refl => exact ⟨h, hc⟩
    | tail _ w ih => exact ⟨ih.1.write w, w.finished ih.1.identified ih.2 hfinished⟩
  exact hboth.2

/-! ## The life of a command -/

structure CommandLifecycle (s : Store) : Prop where
  exclusive : ∀ c ∈ s.localCommands, c.state.isTerminal = false →
    ∀ run ∈ s.runs, run.sessionId = c.sessionId → run.state.isTerminal = true
  single : ∀ a ∈ s.localCommands, ∀ b ∈ s.localCommands, a.sessionId = b.sessionId →
    a.state.isTerminal = false → b.state.isTerminal = false → a = b
  final : ∀ t, Relation.ReflTransGen (Step Undeleting) s t →
    ∀ c ∈ s.localCommands, c.state.isTerminal = true → c ∈ t.localCommands
  places : ∀ r ∈ s.sessionRunStates,
    (entryPlaces r.sessionId s.sessionEntries ++ commandPlaces r.sessionId s.localCommands).Perm
      (List.range' 1 r.entryHighWater)
  next : ∀ env commandId result t, completeLocalCommand env s commandId result = .ok t →
    ∃ c ∈ t.localCommands, ∃ r r', c.commandId = commandId ∧ c.state.isTerminal = true ∧
      loadSessionRunState s c.sessionId = some r ∧ loadSessionRunState t c.sessionId = some r' ∧
      c.entrySequence = some (r.entryHighWater + 1) ∧ r'.entryHighWater = r.entryHighWater + 1

theorem Sound.commandLifecycle (h : Sound s) : CommandLifecycle s where
  exclusive := by
    intro c hc hrunning run hrun hsession
    by_contra hn
    have hrunningRun : run.state.isTerminal = false := by simpa using hn
    obtain ⟨r, hr⟩ := Option.isSome_iff_exists.mp
      (h.aligned.runState_isSome.mpr (h.bound.session hrun))
    have hkey := Table.find_key hr
    have hnamed := (h.occupied.active r (Table.find_mem hr) run hrun hkey.symm).mp hrunningRun
    have hover := h.occupied.exclusive r (Table.find_mem hr) (by simp [hnamed]) c hc
      (hsession.symm.trans hkey.symm)
    rw [hrunning] at hover
    cases hover
  single := by
    intro a ha b hb hsession hna hnb
    exact Table.eq_of_key h.identified.commands.nodup ha hb
      (h.occupied.single a ha b hb hsession hna hnb)
  final t hrun c hc hfinished := h.finished hrun hc hfinished
  places r hr := (h.transcribed r hr).2
  next := by
    intro env commandId result t hcomplete
    obtain ⟨row, state, hid, hc, rfl⟩ := completeLocalCommand_ok.mp hcomplete
    refine ⟨_, Table.mem_modify.mpr ⟨row, Table.find_mem hc.found, if_pos rfl⟩, state, _, hid,
      terminalCommandState_isTerminal result, hc.foundState,
      Table.find_rewritten hc.foundState fun _ => rfl, rfl, rfl⟩

/-- A restart finishes every command, and the startup check then accepts them all. -/
def RecoversCommands (during : LocalCommandId → Environment) (s : Store) : Prop :=
  ∃ t, recoverLocalCommands during s = .ok t ∧
    (∀ c ∈ t.localCommands, c.state.isTerminal = true) ∧ validateLocalCommandFacts t = .ok ()

theorem Sound.finishable (h : Sound s) {during : LocalCommandId → Environment}
    (hrecovers : RecoversCommands during s) : Finishable during s (commandsUnderWay s) := by
  obtain ⟨t, hrecover, -, -⟩ := hrecovers
  exact (h.unfinished.finishable hrecover).perm (List.mergeSort_perm _ _)

/-- **Local commands keep to themselves and are recovered** exactly when each
one under way can be finished. -/
theorem local_command_lifecycle (h : Reachable Undeleting s)
    (during : LocalCommandId → Environment) :
    CommandLifecycle s ∧
      (RecoversCommands during s ↔ Finishable during s (commandsUnderWay s)) := by
  have hsound := h.sound
  refine ⟨hsound.commandLifecycle, hsound.finishable, fun hfinishable => ?_⟩
  obtain ⟨t, hsweep, ht⟩ :=
    hsound.unfinished.recovers (hfinishable.perm (List.mergeSort_perm _ _).symm)
  refine ⟨t, hsweep, fun c hc => ?_, ht.sound.validateLocalCommandFacts_ok⟩
  by_contra hn
  have hin := (ht.listed c).mpr ⟨hc, by simpa using hn⟩
  cases hin

/-- A session is created and a command accepted at time 10. -/
def acceptedCommandSteps : List (Environment × Operation) :=
  createSession (.open 10) 1 "/work" ++ [(.open 10, .acceptLocalCommand 2 1 "ls" true)]

def acceptedCommand : Store := executed acceptedCommandSteps

theorem acceptedCommand_reachable : Reachable Undeleting acceptedCommand :=
  reachable_executed_undeleting rfl (by decide +kernel)

theorem acceptedCommand_underWay :
    (commandsUnderWay acceptedCommand).map (·.acceptedAtMilliseconds) = [10] := by
  decide +kernel

theorem acceptedCommand_room :
    acceptedCommand.sessionRunStates.map (·.entryHighWater) = [0] := by
  decide +kernel

theorem acceptedCommand_sequence : acceptedCommand.nextValue < 100 := by
  decide +kernel

/-- A restart at time 12 finishes the command. -/
theorem accepted_command_recovers :
    RecoversCommands (fun _ => .open 12) acceptedCommand := by
  refine (local_command_lifecycle acceptedCommand_reachable fun _ => .open 12).2.mpr ⟨?_, ?_, ?_⟩
  · intro c hc
    have hat := List.mem_map_of_mem (f := (·.acceptedAtMilliseconds)) hc
    rw [acceptedCommand_underWay, List.mem_singleton] at hat
    rw [hat]
    decide
  · intro c _ state hstate
    have hin := List.mem_map_of_mem (f := (·.entryHighWater)) (Table.find_mem hstate)
    rw [acceptedCommand_room, List.mem_singleton] at hin
    rw [hin]
    decide
  · intro _
    have hone : (commandsUnderWay acceptedCommand).length = 1 := by
      simpa using congrArg List.length acceptedCommand_underWay
    have hsequence := acceptedCommand_sequence
    rw [hone]
    simp only [maxInteger]
    omega

/-- A restart at time 9 cannot: the row would be updated before it was accepted. -/
theorem clock_behind_acceptance_blocks_recovery :
    Reachable Undeleting acceptedCommand ∧
      ¬ RecoversCommands (fun _ => .open 9) acceptedCommand := by
  refine ⟨acceptedCommand_reachable, fun hrecovers => ?_⟩
  have hmem : 10 ∈ (commandsUnderWay acceptedCommand).map (·.acceptedAtMilliseconds) := by
    rw [acceptedCommand_underWay]
    exact List.mem_singleton_self 10
  obtain ⟨c, hc, hat⟩ := List.mem_map.mp hmem
  have hclock := (acceptedCommand_reachable.sound.finishable hrecovers).clock c hc
  rw [hat] at hclock
  exact absurd hclock (by decide)

end Morons
