import Morons.Run.Budget
import Morons.Run.Context

/-!
# The observed usage of a context

`observeContextUsage` reads the usage that the provider reported last for a
session with the same model and policies, and predicts from it what the context
takes now.  A row whose counts contradict each other makes the session's usage
unreadable.
-/

namespace Morons

open Attempt

structure ContextModel where
  service : RunService
  modelId : String
  protocolRevision : Nat

structure RecentProviderUsage where
  inputTokens : Nat
  cachedInputTokens : Nat
  cacheWriteInputTokens : Nat
  outputTokens : Nat
  elapsedMilliseconds : Option Nat
  deriving DecidableEq

structure ContextObservation where
  runId : RunId
  preparedSequence : Nat
  credentialGeneration : Nat
  estimatedTokens : Nat
  usage : RecentProviderUsage
  deriving DecidableEq

/-- The runs of a session accepted last, eight at most. -/
def recentRuns (s : Store) (sessionId : SessionId) : List RunId :=
  (((s.runAcceptedFacts.filter fun f => f.sessionId = sessionId).mergeSort
    fun a b => decide (b.factSequence ≤ a.factSequence)).take 8).map (·.runId)

/-- The preparation was made for the model, under the policies in force, above
the checkpoint and of entries up to `through`. -/
def observes (selection : ContextModel) (after through : Nat) (fact : ProviderOperationFact) :
    Bool :=
  decide (fact.factKind = .prepared) && decide (after < fact.factSequence) &&
    fact.preparation.any fun p =>
      decide (p.service = selection.service) && decide (p.modelId = selection.modelId) &&
        decide (p.protocolRevision = selection.protocolRevision) &&
        decide (p.contextPolicyVersion = contextPolicyVersion) &&
        decide (p.toolCatalogVersion = toolCatalogVersion) &&
        decide (p.toolLimitsVersion = toolLimitsVersion) &&
        decide (p.sourceEntryHighWater ≤ through)

/-- The prepared and the completed fact of the operation that completed last. -/
def sampleContextUsage (s : Store) (sessionId : SessionId) (selection : ContextModel)
    (checkpoint : Option ContextCheckpoint) (through : Nat) :
    Option (ProviderOperationFact × ProviderOperationFact) :=
  let after := (checkpoint.map (·.factSequence)).getD 0
  let prepared := s.providerOperationFacts.filter fun f =>
    decide (f.runId ∈ recentRuns s sessionId) && observes selection after through f
  let pairs := prepared.flatMap fun p =>
    (s.providerOperationFacts.filter fun c => c.factKind = .completed && c.runId = p.runId &&
      c.operationId = p.operationId).map (p, ·)
  (pairs.mergeSort fun a b => decide (b.2.factSequence ≤ a.2.factSequence)).head?

def inconsistentObservation : PersistenceError :=
  .invalidState "a context usage observation is inconsistent"

/-- What is checked of the counts of a row. -/
def checkUsage (usage : ProviderUsage) : Except PersistenceError Unit :=
  require (usage.inputTokens + usage.outputTokens < 2 ^ 64 ∧
    usage.inputTokens + usage.outputTokens = usage.totalTokens ∧
    usage.cachedInputTokens + usage.cacheWriteInputTokens < 2 ^ 64 ∧
    usage.cachedInputTokens + usage.cacheWriteInputTokens ≤ usage.inputTokens)
    inconsistentObservation

def observeContextUsage (env : Environment) (s : Store) (sessionId : SessionId)
    (selection : ContextModel) (checkpoint : Option ContextCheckpoint) (through : Nat)
    (skills : List SkillSnapshot) (project : Option RunProjectContext) :
    Except PersistenceError (Option ContextObservation) := do
  match sampleContextUsage s sessionId selection checkpoint through with
  | none => return none
  | some (prepared, completed) => do
    let storedSkills ← loadRunSkills s prepared.runId
    if storedSkills ≠ skills then return none
    let storedProject ← loadRunProject s prepared.runId
    if storedProject ≠ project then return none
    let binding ← demand (.sqlite "provider_operation_facts") prepared.preparation
    let completion ← demand (.sqlite "provider_operation_facts") completed.completion
    let usage := completion.usage
    checkUsage usage
    if usage.inputTokens = 0 then return none
    let tail := contextBudget env s sessionId binding.sourceEntryHighWater through
    return some
      { runId := prepared.runId
        preparedSequence := prepared.factSequence
        credentialGeneration := binding.credentialGeneration
        estimatedTokens := saturatingAdd (saturatingAdd usage.inputTokens usage.outputTokens)
          (tail.tokens 0)
        usage :=
          { inputTokens := usage.inputTokens
            cachedInputTokens := usage.cachedInputTokens
            cacheWriteInputTokens := usage.cacheWriteInputTokens
            outputTokens := usage.outputTokens
            elapsedMilliseconds :=
              if prepared.createdAtMilliseconds ≤ completed.createdAtMilliseconds then
                some (completed.createdAtMilliseconds - prepared.createdAtMilliseconds)
              else none } }

theorem checkUsage_ok {usage : ProviderUsage} (hbound : usage.totalTokens ≤ maxInteger) :
    checkUsage usage = .ok () ↔
      usage.inputTokens + usage.outputTokens = usage.totalTokens ∧
        usage.cachedInputTokens + usage.cacheWriteInputTokens ≤ usage.inputTokens := by
  have hmax : maxInteger < 2 ^ 64 := by decide
  simp only [checkUsage, require_ok]
  constructor
  · rintro ⟨-, htotal, -, hcache⟩
    exact ⟨htotal, hcache⟩
  · rintro ⟨htotal, hcache⟩
    exact ⟨by omega, htotal, by omega, hcache⟩

theorem checkUsage_error {usage : ProviderUsage} {e : PersistenceError} :
    checkUsage usage = .error e ↔ checkUsage usage ≠ .ok () ∧ inconsistentObservation = e := by
  rw [checkUsage, require_error, Ne, require_ok]

theorem loadRunSkills_error {s : Store} {runId : RunId} :
    loadRunSkills s runId ≠ .error inconsistentObservation := by
  intro h
  simp only [loadRunSkills, bind_error, require_error, require_ok] at h
  rcases h with ⟨-, h⟩ | ⟨-, -, ⟨-, h⟩ | ⟨-, -, h⟩⟩
  · exact absurd h (by decide)
  · exact absurd h (by decide)
  · cases h

theorem loadRunProject_error {s : Store} {runId : RunId} :
    loadRunProject s runId ≠ .error inconsistentObservation := by
  intro h
  simp only [loadRunProject, bind_error, demand_error] at h
  rcases h with ⟨-, h⟩ | ⟨fact, -, h⟩
  · exact absurd h (by decide)
  split at h
  · simp only [bind_error, require_error] at h
    rcases h with ⟨-, h⟩ | ⟨-, -, h⟩
    · exact absurd h (by decide)
    · cases h
  · simp only [bind_error, demand_error, require_error] at h
    rcases h with ⟨-, h⟩ | ⟨row, -, ⟨-, h⟩ | ⟨-, -, h⟩⟩
    · exact absurd h (by decide)
    · exact absurd h (by decide)
    · cases h

section Observation

variable {env : Environment} {s : Store} {sessionId : SessionId} {selection : ContextModel}
  {checkpoint : Option ContextCheckpoint} {through : Nat} {skills : List SkillSnapshot}
  {project : Option RunProjectContext} {prepared completed : ProviderOperationFact}
  {binding : ProviderPreparation} {completion : ProviderCompletion}

/-- A row whose counts agree is never reported as inconsistent. -/
theorem observeContextUsage_consistent
    (hsample : sampleContextUsage s sessionId selection checkpoint through =
      some (prepared, completed))
    (hcompletion : completed.completion = some completion)
    (hcheck : checkUsage completion.usage = .ok ()) :
    observeContextUsage env s sessionId selection checkpoint through skills project ≠
      .error inconsistentObservation := by
  intro h
  simp only [observeContextUsage, hsample, bind_error] at h
  rcases h with h | ⟨stored, -, h⟩
  · exact loadRunSkills_error h
  split at h
  · cases h
  simp only [bind_error] at h
  rcases h with h | ⟨guidance, -, h⟩
  · exact loadRunProject_error h
  split at h
  · cases h
  simp only [bind_error, demand_error, demand_ok, hcompletion] at h
  rcases h with ⟨-, h⟩ | ⟨_, -, ⟨h, -⟩ | ⟨_, hcompletion, h⟩⟩
  · cases h
  · cases h
  obtain rfl := Option.some.inj hcompletion
  rcases h with h | ⟨-, -, h⟩
  · rw [hcheck] at h
    cases h
  · split at h <;> cases h

/-- A row whose counts contradict each other is, when the context it was observed in is the
one asked for. -/
theorem observeContextUsage_inconsistent
    (hsample : sampleContextUsage s sessionId selection checkpoint through =
      some (prepared, completed))
    (hskills : loadRunSkills s prepared.runId = .ok skills)
    (hproject : loadRunProject s prepared.runId = .ok project)
    (hbinding : prepared.preparation = some binding)
    (hcompletion : completed.completion = some completion)
    (hcheck : checkUsage completion.usage ≠ .ok ()) :
    observeContextUsage env s sessionId selection checkpoint through skills project =
      .error inconsistentObservation := by
  have herror : checkUsage completion.usage = .error inconsistentObservation :=
    checkUsage_error.mpr ⟨hcheck, rfl⟩
  simp [observeContextUsage, hsample, hskills, hproject, hbinding, hcompletion, herror, demand,
    bind, Except.bind]

end Observation

/-- A row that completes the one operation prepared, which had none before, is the sample. -/
theorem sampleContextUsage_insert {t : Store} {sessionId : SessionId} {selection : ContextModel}
    {c : Option ContextCheckpoint} {through : Nat} {facts : List ProviderOperationFact}
    {prepared row : ProviderOperationFact}
    (hcompleted : row.factKind = .completed) (hrun : row.runId = prepared.runId)
    (hoperation : row.operationId = prepared.operationId)
    (hfacts : t.providerOperationFacts = row :: facts)
    (hprepared : facts.filter (fun f => decide (f.runId ∈ recentRuns t sessionId) &&
      observes selection ((c.map (·.factSequence)).getD 0) through f) = [prepared])
    (hnone : ∀ f ∈ facts, f.operationId = prepared.operationId → f.factKind ≠ .completed) :
    sampleContextUsage t sessionId selection c through = some (prepared, row) := by
  have hrow : observes selection ((c.map (·.factSequence)).getD 0) through row = false := by
    simp [observes, hcompleted]
  have hlone : facts.filter (fun c => c.factKind = .completed && c.runId = prepared.runId &&
      c.operationId = prepared.operationId) = [] := by
    rw [List.filter_eq_nil_iff]
    intro f hf
    simp only [Bool.and_eq_true, decide_eq_true_eq, not_and, and_imp]
    exact fun hkind _ hsame => hnone f hf hsame hkind
  simp only [sampleContextUsage, hfacts, List.filter_cons, hrow, Bool.and_false,
    Bool.false_eq_true, if_false, hprepared, List.flatMap_cons, List.flatMap_nil, List.append_nil,
    hcompleted, hrun, hoperation, decide_true, Bool.and_self, if_true, hlone, List.map_cons,
    List.map_nil, List.mergeSort_singleton, List.head?_cons]

end Morons
