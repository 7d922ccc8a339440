import Morons.Run.Acceptance
import Morons.Run.Cancellation
import Morons.Tool.Recovery
import Morons.Command.Execution
import Morons.Session.Creation
import Morons.Session.Delete
import Morons.Steering.Mutation
import Morons.Library.Transition

/-!
# Operations

What the worker of the store is asked for: one constructor for each
transaction, and for the recovery of interrupted runs, which a restart makes
as a whole.  The fingerprint of a request is computed from what it asks for;
the one of an input covers its images too and comes with it.
`Step` is an operation that succeeds; one that fails leaves the store as it is.
-/

namespace Morons

open Attempt

inductive Operation
  | prepareSessionCreation (requestId : MutationRequestId) (displayName : Option String)
      (workingDirectory : String)
  | dispatchWorkspaceCreation (requestId : MutationRequestId)
  | finalizeSessionCreation (requestId : MutationRequestId)
  | renameSession (requestId : MutationRequestId) (sessionId : SessionId) (displayName : String)
  | prepareSessionArchive (requestId : MutationRequestId) (sessionId : SessionId) (archived : Bool)
  | completeSessionArchive (requestId : MutationRequestId)
  | prepareSessionDelete (requestId : MutationRequestId) (sessionId : SessionId)
  | cleanSessionDatabase (requestId : MutationRequestId)
  | completeSessionDelete (requestId : MutationRequestId)
  | acceptSessionInput (requestId : MutationRequestId) (fingerprint : Fingerprint)
      (sessionId : SessionId) (text : String) (selection : RunModelSelection)
      (context : RunInputContext)
  | settleContextRejection (runId : RunId) (operationId : ProviderOperationId)
  | activateRun (runId : RunId)
  | prepareProviderOperation (runId : RunId) (sourceEntryHighWater estimatedInputTokens : Nat)
  | markProviderDispatched (runId : RunId) (operationId : ProviderOperationId)
  | completeProviderToolTurn (runId : RunId) (operationId : ProviderOperationId)
      (turn : CompletedToolTurn)
  | completeRunSuccess (runId : RunId) (operationId : ProviderOperationId)
      (assistant : CompletedAssistant)
  | cancelRun (requestId : MutationRequestId) (sessionId : SessionId) (runId : RunId)
  | finishRunFailure (runId : RunId) (operationId : Option ProviderOperationId)
      (failure : RunFailureKind) (operationState : ProviderOperationFailureState)
  | finishRunStopped (runId : RunId) (operationId : Option ProviderOperationId)
  | recoverNonterminalRuns (during : RunId → Environment)
  | prepareToolOperation (runId : RunId) (callId : ToolCallId) (operationId : ToolOperationId)
      (recoveryPlan : Option String)
  | markToolDispatched (runId : RunId) (callId : ToolCallId) (operationId : ToolOperationId)
  | completeToolResult (runId : RunId) (callId : ToolCallId) (operationId : ToolOperationId)
      (result : ToolResult)
  | acceptLocalCommand (requestId : MutationRequestId) (sessionId : SessionId) (command : String)
      (contextVisible : Bool)
  | activateLocalCommand (commandId : LocalCommandId)
  | completeLocalCommand (commandId : LocalCommandId) (result : ToolResult)
  | cancelLocalCommand (requestId : MutationRequestId) (sessionId : SessionId)
      (commandId : LocalCommandId)
  | mutateSteering (mutation : SteeringMutation) (skills : Option SteeringSkills)

/-- The store that an operation without a result, or next to its result, leaves. -/
def execute (env : Environment) (s : Store) : Operation → Except PersistenceError Store
  | .prepareSessionCreation requestId displayName workingDirectory =>
    (prepareSessionCreation env s requestId (.createSession displayName workingDirectory)
      displayName workingDirectory).map (·.2)
  | .dispatchWorkspaceCreation requestId => dispatchWorkspaceCreation s requestId
  | .finalizeSessionCreation requestId => finalizeSessionCreation env s requestId
  | .renameSession requestId sessionId displayName =>
    (renameSession env s requestId (.renameSession sessionId displayName) sessionId
      displayName).map (·.2)
  | .prepareSessionArchive requestId sessionId archived =>
    (prepareSessionArchive env s requestId (.archiveSession sessionId archived) sessionId
      archived).map (·.2)
  | .completeSessionArchive requestId => (completeSessionArchive env s requestId).map (·.2)
  | .prepareSessionDelete requestId sessionId =>
    (prepareSessionDelete env s requestId (.deleteSession sessionId) sessionId).map (·.2)
  | .cleanSessionDatabase requestId => cleanSessionDatabase env s requestId
  | .completeSessionDelete requestId => (completeSessionDelete env s requestId).map (·.2)
  | .acceptSessionInput requestId fingerprint sessionId text selection context =>
    (acceptSessionInput env s requestId fingerprint sessionId text selection context).map (·.2)
  | .settleContextRejection runId operationId =>
    (settleContextRejection env s runId operationId).map (·.2)
  | .activateRun runId => (activateRun env s runId).map (·.2)
  | .prepareProviderOperation runId sourceEntryHighWater estimatedInputTokens =>
    (prepareProviderOperation env s runId sourceEntryHighWater estimatedInputTokens).map (·.2)
  | .markProviderDispatched runId operationId =>
    (markProviderDispatched env s runId operationId).map (·.2)
  | .completeProviderToolTurn runId operationId turn =>
    (completeProviderToolTurn env s runId operationId turn).map (·.2)
  | .completeRunSuccess runId operationId assistant =>
    (completeRunSuccess env s runId operationId assistant).map (·.2)
  | .cancelRun requestId sessionId runId =>
    (cancelRun env s requestId (.cancelRun sessionId runId) sessionId runId).map (·.2)
  | .finishRunFailure runId operationId failure operationState =>
    (finishRunFailure env s runId operationId failure operationState).map (·.2)
  | .finishRunStopped runId operationId => (finishRunStopped env s runId operationId).map (·.2)
  | .recoverNonterminalRuns during => recoverNonterminalRuns env during s
  | .prepareToolOperation runId callId operationId recoveryPlan =>
    prepareToolOperation env s runId callId operationId recoveryPlan
  | .markToolDispatched runId callId operationId => markToolDispatched env s runId callId operationId
  | .completeToolResult runId callId operationId result =>
    completeToolResult env s runId callId operationId result
  | .acceptLocalCommand requestId sessionId command contextVisible => do
    validateLocalCommand command
    (acceptLocalCommand env s requestId (.localCommand sessionId command contextVisible) sessionId
      command contextVisible).map (·.2)
  | .activateLocalCommand commandId => (activateLocalCommand env s commandId).map (·.2)
  | .completeLocalCommand commandId result => completeLocalCommand env s commandId result
  | .cancelLocalCommand requestId sessionId commandId =>
    (cancelLocalCommand env s requestId (.cancelLocalCommand sessionId commandId) sessionId
      commandId).map (·.2)
  | .mutateSteering mutation skills => (mutateSteering env s mutation skills).map (·.2)

namespace Operation

/-- The steps of a deletion. -/
def isDeletion : Operation → Bool
  | prepareSessionDelete .. | cleanSessionDatabase .. | completeSessionDelete .. => true
  | _ => false

end Operation

/-! ## Runs of the system -/

/-- One operation that `allowed` admits, in any surroundings. -/
def Step (allowed : Environment → Store → Operation → Prop) (s t : Store) : Prop :=
  ∃ env op, allowed env s op ∧ execute env s op = .ok t

/-- The states that a run of such operations reaches from the empty store.  The recoveries of a
restart are operations.  The rebuild of its projections is none: in these states it finds the rows
that they hold already. -/
def Reachable (allowed : Environment → Store → Operation → Prop) : Store → Prop :=
  Transition.Reachable (· = Store.empty) (Step allowed)

/-- Operations one after the other, each in its surroundings. -/
def executeAll (s : Store) (steps : List (Environment × Operation)) :
    Except PersistenceError Store :=
  sweep (fun s step => execute step.1 s step.2) s steps

/-- The three transactions of a creation. -/
def createSession (env : Environment) (requestId : MutationRequestId) (workingDirectory : String) :
    List (Environment × Operation) :=
  [(env, .prepareSessionCreation requestId none workingDirectory),
    (env, .dispatchWorkspaceCreation requestId), (env, .finalizeSessionCreation requestId)]

/-- An input of a session, for a model with tools. -/
def submitInput (env : Environment) (requestId : MutationRequestId) (sessionId : SessionId)
    (text : String) : Environment × Operation :=
  (env, .acceptSessionInput requestId (.submitSessionInput sessionId text .go "model" [])
    sessionId text ⟨.go, "model", 1, 90000, 8000, true, false⟩ {})

/-- The model of a run is asked and answers with calls. -/
def toolTurn (env : Environment) (runId : RunId) (operationId : ProviderOperationId)
    (sourceEntryHighWater : Nat) (calls : List ProviderToolCall) :
    List (Environment × Operation) :=
  [(env, .prepareProviderOperation runId sourceEntryHighWater 100),
    (env, .markProviderDispatched runId operationId),
    (env, .completeProviderToolTurn runId operationId ⟨"response", ⟨1, 0, 0, 1, 0, 2⟩, none, calls⟩)]

/-- A call is prepared, dispatched and answered. -/
def executeTool (env : Environment) (runId : RunId) (callId : ToolCallId)
    (operationId : ToolOperationId) (result : ToolResult) : List (Environment × Operation) :=
  [(env, .prepareToolOperation runId callId operationId none),
    (env, .markToolDispatched runId callId operationId),
    (env, .completeToolResult runId callId operationId result)]

/-- A call of the Bash tool, for a command that JSON prints as it is. -/
def bashCall (providerCallId command : String) : ProviderToolCall :=
  ⟨providerCallId, ⟨.bash, command, "\x7b\"tool\":\"bash\",\"command\":\"" ++ command ++ "\"\x7d"⟩⟩

theorem Reachable.operations {allowed : Environment → Store → Operation → Prop} {s t : Store}
    {steps : List (Environment × Operation)} (hs : Reachable allowed s)
    (hallowed : ∀ s, ∀ step ∈ steps, allowed step.1 s step.2)
    (h : executeAll s steps = .ok t) : Reachable allowed t := by
  refine sweep_keeps _ (Reachable allowed) steps (fun s t step hstep hreach hexecute => ?_) s t hs h
  exact hreach.next ⟨step.1, step.2, hallowed s step hstep, hexecute⟩

theorem reachable_empty {allowed : Environment → Store → Operation → Prop} :
    Reachable allowed Store.empty :=
  Transition.reachable_start rfl

/-- Operations of any kind. -/
def Any (_ : Environment) (_ : Store) (_ : Operation) : Prop := True

/-- Operations of any kind but a deletion. -/
def Undeleting (_ : Environment) (_ : Store) (op : Operation) : Prop := op.isDeletion = false

/-- The store that operations leave, from the empty one on. -/
def executed (steps : List (Environment × Operation)) : Store :=
  (executeAll Store.empty steps).toOption.getD .empty

theorem reachable_executed {allowed : Environment → Store → Operation → Prop}
    {steps : List (Environment × Operation)}
    (hallowed : ∀ s, ∀ step ∈ steps, allowed step.1 s step.2)
    (h : (executeAll Store.empty steps).isOk = true) : Reachable allowed (executed steps) := by
  unfold executed
  cases hall : executeAll Store.empty steps with
  | error e =>
    rw [hall] at h
    cases h
  | ok t => exact reachable_empty.operations hallowed hall

theorem reachable_executed_any {steps : List (Environment × Operation)}
    (h : (executeAll Store.empty steps).isOk = true) : Reachable Any (executed steps) :=
  reachable_executed (fun _ _ _ => trivial) h

theorem reachable_executed_undeleting {steps : List (Environment × Operation)}
    (hsteps : (steps.all fun step => !step.2.isDeletion) = true)
    (h : (executeAll Store.empty steps).isOk = true) : Reachable Undeleting (executed steps) := by
  refine reachable_executed (fun s step hstep => ?_) h
  have hkind := List.all_eq_true.mp hsteps step hstep
  show step.2.isDeletion = false
  simpa using hkind

/-- An operation with a result leaves the store that comes with the result. -/
theorem map_snd_ok {α : Type} {x : Except PersistenceError (α × Store)} {t : Store} :
    x.map (·.2) = .ok t ↔ ∃ a, x = .ok (a, t) := by
  rw [map_ok]
  exact ⟨fun ⟨⟨a, _⟩, h, e⟩ => ⟨a, e ▸ h⟩, fun ⟨a, h⟩ => ⟨(a, t), h, rfl⟩⟩

/-- What further operations leave of an executed store. -/
theorem executeAll_executed {steps further : List (Environment × Operation)}
    (h : (executeAll Store.empty (steps ++ further)).isOk = true) :
    executeAll (executed steps) further = .ok (executed (steps ++ further)) := by
  cases hall : executeAll Store.empty (steps ++ further) with
  | error e =>
    rw [hall] at h
    contradiction
  | ok t =>
    obtain ⟨u, hu, ht⟩ := (sweep_append_ok _ _ _ _ _).mp hall
    have hstart : executed steps = u := by
      have hu : executeAll Store.empty steps = .ok u := hu
      rw [executed, hu]
      rfl
    have hend : executed (steps ++ further) = t := by
      rw [executed, hall]
      rfl
    rw [hstart, hend]
    exact ht

/-- Executed stores are reached from one another. -/
theorem run_executed {steps further : List (Environment × Operation)}
    (h : (executeAll Store.empty (steps ++ further)).isOk = true) :
    Relation.ReflTransGen (Step Any) (executed steps) (executed (steps ++ further)) := by
  refine sweep_keeps _ (Relation.ReflTransGen (Step Any) (executed steps)) further
    (fun s t step _ hrun hexecute => ?_) _ _ .refl (executeAll_executed h)
  exact hrun.tail ⟨step.1, step.2, trivial, hexecute⟩

end Morons
