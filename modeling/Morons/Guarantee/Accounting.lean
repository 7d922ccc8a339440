import Morons.Invariant.Sound
import Morons.Run.Budget

/-!
# The sizes of a context

A run is admitted with the sizes that `estimateContextTokens` adds up and
dispatched with the ones of `contextBudget`.  Both count the same rows.  They
differ at the answer of a call: admission keeps the encoding under which
estimates are stored and checked again, and charges it the arguments of the call
once more; dispatch charges it its result.
-/

namespace Morons

variable {s : Store}

/-- The answers of calls above one place and up to another. -/
def answersBetween (s : Store) (sessionId : SessionId) (after through : Nat) : List SessionEntry :=
  s.sessionEntries.filter fun e => e.sessionId = sessionId &&
    (decide (after < e.entrySequence) && decide (e.entrySequence ≤ through)) &&
      e.body.finishedTool.isSome

/-- The length of the arguments of the call an entry belongs to. -/
def argumentBytes (s : Store) (entry : SessionEntry) : Nat :=
  ((entry.body.toolCallId.bind fun id => Table.find ToolCall.callId id s.toolCalls).map
    (·.input.payloadBytes)).getD 0

/-- The length of the result of the call an entry belongs to. -/
def resultBytes (s : Store) (entry : SessionEntry) : Nat :=
  ((entry.body.toolCallId.bind fun id =>
    (s.toolOperationFacts.find? fun f => f.callId = id && f.factKind.isTerminal).bind
      (·.result)).map (·.payloadBytes)).getD 0

/-- What `contextBudget` charges an entry. -/
def chargedBytes (s : Store) (entry : SessionEntry) : Nat :=
  if entry.body.finishedTool.isSome then resultBytes s entry else entryBytes s entry

/-! ## One entry -/

theorem Called.outcome_found (h : Called s) {e : SessionEntry} (he : e ∈ s.sessionEntries)
    {callId : ToolCallId} (hfinished : e.body.finishedTool = some callId) :
    ∃ result, (s.toolOperationFacts.find? fun f => f.callId = callId && f.factKind.isTerminal).bind
      (·.result) = some result := by
  have hplace : e.finishedPlace = some ⟨callId, e.runId, e.sessionId⟩ := by
    rw [SessionEntry.finishedPlace, hfinished]
    rfl
  have hmem := List.mem_filterMap.mpr ⟨e, he, hplace⟩
  rw [h.answers] at hmem
  obtain ⟨f, hf, hfplace⟩ := List.mem_map.mp hmem
  obtain ⟨hf, hterminal⟩ := List.mem_filter.mp hf
  have hcall : f.callId = callId := congrArg CallPlace.callId hfplace
  have hsome : (s.toolOperationFacts.find? fun f =>
      f.callId = callId && f.factKind.isTerminal).isSome := by
    rw [List.find?_isSome]
    exact ⟨f, hf, by simp [hcall, hterminal]⟩
  obtain ⟨g, hg⟩ := Option.isSome_iff_exists.mp hsome
  have hgterminal : g.factKind.isTerminal = true := by
    have := List.find?_some hg
    simp only [Bool.and_eq_true] at this
    exact this.2
  have hresult := h.results g (List.mem_of_find?_eq_some hg)
  rw [hgterminal] at hresult
  obtain ⟨result, hresult⟩ := Option.isSome_iff_exists.mp hresult
  exact ⟨result, by rw [hg, Option.bind_some, hresult]⟩

/-- Admission charges the answer of a call the arguments of the call. -/
theorem Called.entryBytes_answer (h : Called s) (hid : Identified s) {e : SessionEntry}
    (he : e ∈ s.sessionEntries) (hfinished : e.body.finishedTool.isSome) :
    entryBytes s e = argumentBytes s e := by
  cases hbody : e.body with
  | toolResult callId =>
    obtain ⟨c, hc, -⟩ := h.call_of_entry hid he (by rw [hbody]; rfl)
    simp [entryBytes, argumentBytes, hbody, EntryBody.toolCallId, EntryBody.text, hc]
  | user | assistant | toolCall =>
    rw [hbody] at hfinished
    cases hfinished

theorem Called.budgetBytes_eq (h : Called s) (hid : Identified s) {e : SessionEntry}
    (he : e ∈ s.sessionEntries) : budgetBytes s e = some (chargedBytes s e) := by
  cases hbody : e.body with
  | user text =>
    simp [budgetBytes, chargedBytes, entryBytes, hbody, EntryBody.finishedTool, EntryBody.text]
  | assistant service modelId text refusal phase =>
    simp [budgetBytes, chargedBytes, entryBytes, hbody, EntryBody.finishedTool, EntryBody.text]
  | toolCall service modelId callId =>
    obtain ⟨c, hc, -⟩ := h.call_of_entry hid he (by rw [hbody]; rfl)
    simp [budgetBytes, chargedBytes, entryBytes, hbody, EntryBody.finishedTool, EntryBody.text,
      EntryBody.toolCallId, hc]
  | toolResult callId =>
    have hfinished : e.body.finishedTool = some callId := by
      rw [hbody]
      rfl
    obtain ⟨result, hresult⟩ := h.outcome_found he hfinished
    simp [budgetBytes, chargedBytes, resultBytes, hbody, EntryBody.finishedTool,
      EntryBody.toolCallId, hresult]

/-! ## A range -/

/-- The entries of a session in a range. -/
def entriesBetween (s : Store) (sessionId : SessionId) (after through : Nat) : List SessionEntry :=
  s.sessionEntries.filter fun e => e.sessionId = sessionId &&
    (decide (after < e.entrySequence) && decide (e.entrySequence ≤ through))

/-- The sizes of the shown commands of a session in a range. -/
def commandSizesBetween (s : Store) (sessionId : SessionId) (after through : Nat) :
    List (Option Nat) :=
  (s.localCommands.filter fun c => c.sessionId = sessionId &&
    c.entrySequence.any (fun n => decide (after < n) && decide (n ≤ through)) &&
      c.contextVisible && c.state.isTerminal).map fun c =>
        c.result.map fun result => c.commandText.utf8ByteSize + result.payloadBytes

theorem contextSizes_eq (s : Store) (sessionId : SessionId) (after through : Nat) :
    contextSizes s sessionId through after =
      (entriesBetween s sessionId after through).map (entryBytes s) ++
        (commandSizesBetween s sessionId after through).map (·.getD 0) := by
  have hrange : (fun n : Nat => decide (n ≤ through) && decide (after < n)) =
      fun n => decide (after < n) && decide (n ≤ through) :=
    funext fun n => Bool.and_comm ..
  have hcommands : (commandSizesBetween s sessionId after through).map (·.getD 0) =
      (s.localCommands.filter fun c => c.sessionId = sessionId &&
        c.entrySequence.any (fun n => decide (n ≤ through) && decide (after < n)) &&
          c.contextVisible && c.state.isTerminal).map fun c =>
            (c.result.map fun result => c.commandText.utf8ByteSize + result.payloadBytes).getD 0 := by
    rw [commandSizesBetween, List.map_map, hrange]
    rfl
  have hentries : entriesBetween s sessionId after through =
      s.sessionEntries.filter fun e => e.sessionId = sessionId &&
        (decide (e.entrySequence ≤ through) && decide (after < e.entrySequence)) :=
    List.filter_congr fun e _ => by rw [Bool.and_comm (decide (after < e.entrySequence))]
  rw [hcommands, hentries]
  rfl

theorem budgetSizes_eq (h : Called s) (hid : Identified s) (sessionId : SessionId)
    (after through : Nat) :
    budgetSizes s sessionId after through =
      (entriesBetween s sessionId after through).map (fun e => some (chargedBytes s e)) ++
        commandSizesBetween s sessionId after through := by
  have hentries : (entriesBetween s sessionId after through).map (budgetBytes s) =
      (entriesBetween s sessionId after through).map fun e => some (chargedBytes s e) :=
    List.map_congr_left fun e he => h.budgetBytes_eq hid (List.mem_of_mem_filter he)
  rw [← hentries]
  rfl

theorem sum_present (sizes : List (Option Nat)) :
    (sizes.filterMap id).sum = (sizes.map (·.getD 0)).sum := by
  induction sizes with
  | nil => rfl
  | cons size sizes ih =>
    cases size with
    | none => simpa using ih
    | some n => simpa using ih

theorem contextBudget_bytes (h : Called s) (hid : Identified s) (env : Environment)
    (sessionId : SessionId) (after through : Nat) :
    (contextBudget env s sessionId after through).bytes =
      ((entriesBetween s sessionId after through).map (chargedBytes s)).sum +
        ((commandSizesBetween s sessionId after through).map (·.getD 0)).sum := by
  show ((budgetSizes s sessionId after through).filterMap id).sum = _
  rw [sum_present, budgetSizes_eq h hid, List.map_append, List.sum_append, List.map_map]
  rfl

theorem contextBudget_entries (h : Called s) (hid : Identified s) (env : Environment)
    (sessionId : SessionId) (after through : Nat) :
    (contextBudget env s sessionId after through).entries =
      (contextSizes s sessionId through after).length := by
  show (budgetSizes s sessionId after through).length = _
  rw [budgetSizes_eq h hid, contextSizes_eq]
  simp

/-- Over a range the charges differ by what the answers are charged. -/
theorem Called.entries_balance (h : Called s) (hid : Identified s) (sessionId : SessionId)
    (after through : Nat) :
    ((entriesBetween s sessionId after through).map (entryBytes s)).sum +
        ((answersBetween s sessionId after through).map (resultBytes s)).sum =
      ((entriesBetween s sessionId after through).map (chargedBytes s)).sum +
        ((answersBetween s sessionId after through).map (argumentBytes s)).sum := by
  have hanswers : answersBetween s sessionId after through =
      (entriesBetween s sessionId after through).filter fun e => e.body.finishedTool.isSome := by
    rw [entriesBetween, List.filter_filter, answersBetween]
    exact List.filter_congr fun e _ => (Bool.and_comm ..)
  have hplain : ∀ e ∈ entriesBetween s sessionId after through,
      e.body.finishedTool.isSome = false → entryBytes s e = chargedBytes s e :=
    fun e _ hplain => by simp [chargedBytes, hplain]
  have hsums := Table.sum_balance hplain
  rw [← hanswers] at hsums
  have hcharged : (answersBetween s sessionId after through).map (chargedBytes s) =
      (answersBetween s sessionId after through).map (resultBytes s) :=
    List.map_congr_left fun e he => if_pos (Bool.and_eq_true_iff.mp (List.mem_filter.mp he).2).2
  have harguments : (answersBetween s sessionId after through).map (entryBytes s) =
      (answersBetween s sessionId after through).map (argumentBytes s) :=
    List.map_congr_left fun e he => h.entryBytes_answer hid (List.mem_of_mem_filter he)
      (Bool.and_eq_true_iff.mp (List.mem_filter.mp he).2).2
  rwa [hcharged, harguments] at hsums

/-- **Admission and dispatch count alike, but for the answers of calls.**  For every range of every
reachable transcript they agree on the entries.  Of the bytes admission keeps its historical
encoding: an answer is charged the arguments of its call, where dispatch charges its result, and
nothing else differs.  So both agree on the bytes just when the calls answered in the range have
arguments that add up to as many bytes as their results. -/
theorem context_accounting {allowed : Environment → Store → Operation → Prop}
    (h : Reachable allowed s) (env : Environment) (sessionId : SessionId) (after through : Nat) :
    (contextSizes s sessionId through after).length =
        (contextBudget env s sessionId after through).entries ∧
      (contextSizes s sessionId through after).sum +
          ((answersBetween s sessionId after through).map (resultBytes s)).sum =
        (contextBudget env s sessionId after through).bytes +
          ((answersBetween s sessionId after through).map (argumentBytes s)).sum ∧
      ((contextSizes s sessionId through after).sum =
          (contextBudget env s sessionId after through).bytes ↔
        ((answersBetween s sessionId after through).map (argumentBytes s)).sum =
          ((answersBetween s sessionId after through).map (resultBytes s)).sum) ∧
      ∀ e ∈ entriesBetween s sessionId after through,
        if e.body.finishedTool.isSome then
          entryBytes s e = argumentBytes s e ∧ budgetBytes s e = some (resultBytes s e)
        else budgetBytes s e = some (entryBytes s e) := by
  have hcalled := h.sound.called
  have hid := h.sound.identified
  have hbalance : (contextSizes s sessionId through after).sum +
      ((answersBetween s sessionId after through).map (resultBytes s)).sum =
        (contextBudget env s sessionId after through).bytes +
          ((answersBetween s sessionId after through).map (argumentBytes s)).sum := by
    have hentries := hcalled.entries_balance hid sessionId after through
    rw [contextSizes_eq, List.sum_append, contextBudget_bytes hcalled hid]
    omega
  refine ⟨(contextBudget_entries hcalled hid env sessionId after through).symm, hbalance, ?_, ?_⟩
  · omega
  · intro e he
    have hmem := List.mem_of_mem_filter he
    have hbudget := hcalled.budgetBytes_eq hid hmem
    split
    case isTrue hfinished =>
      rw [chargedBytes, if_pos hfinished] at hbudget
      exact ⟨hcalled.entryBytes_answer hid hmem hfinished, hbudget⟩
    case isFalse hplain => rwa [chargedBytes, if_neg hplain] at hbudget

/-- A run whose one call runs a command and prints what it did. -/
def answeringSteps (command : String) : List (Environment × Operation) :=
  createSession (.open 10) 1 "/work" ++
    [submitInput (.open 10) 2 1 "go", (.open 10, .activateRun 4)] ++
    toolTurn (.open 10) 4 9 1 [bashCall "a" command] ++
    executeTool (.open 10) 4 10 11 (.ok (.bash (some 0) none "done" ""))

/-- The call is asked in thirty bytes and answered in ninety-eight. -/
def answeredRun : Store := executed (answeringSteps "ls")

theorem answeredRun_reachable : Reachable Any answeredRun :=
  reachable_executed_any (by decide +kernel)

/-- The answer of the other run is as long as its call. -/
def evenRun : Store := executed
  (answeringSteps "find src -name mod.rs -newer build.log -print0 | xargs -0 wc -l | sort")

theorem evenRun_reachable : Reachable Any evenRun :=
  reachable_executed_any (by decide +kernel)

/-- Over a whole turn both count the same bytes when its answer is as long as its call. -/
theorem even_run_accounting :
    ((answersBetween evenRun 1 0 3).map (argumentBytes evenRun)) = [98] ∧
      (contextSizes evenRun 1 3 0).length =
        (contextBudget (.open 10) evenRun 1 0 3).entries ∧
      (contextSizes evenRun 1 3 0).sum = (contextBudget (.open 10) evenRun 1 0 3).bytes :=
  have accounting := context_accounting evenRun_reachable (.open 10) 1 0 3
  ⟨by decide +kernel, accounting.1, accounting.2.2.1.mpr (by decide +kernel)⟩

/-- Admission charges the answer the thirty bytes of its call again, and dispatch its own. -/
theorem answer_charged_as_arguments :
    Reachable Any answeredRun ∧
      (answersBetween answeredRun 1 0 3).map (entryBytes answeredRun) = [30] ∧
      (answersBetween answeredRun 1 0 3).map (budgetBytes answeredRun) = [some 98] ∧
      (contextSizes answeredRun 1 3 0).sum = 2 + 30 + 30 ∧
      (contextBudget (.open 10) answeredRun 1 0 3).bytes = 2 + 30 + 98 ∧
      (contextSizes answeredRun 1 3 0).sum ≠ (contextBudget (.open 10) answeredRun 1 0 3).bytes := by
  refine ⟨answeredRun_reachable, ?_⟩
  decide +kernel

end Morons
