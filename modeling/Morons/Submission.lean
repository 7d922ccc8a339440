import Morons.Operation

/-!
# Submissions

The operations that carry a request identifier, with their whole answers, and
what a repetition tells of the answer that it repeats.
-/

namespace Morons

open Attempt

inductive Submission
  | acceptSessionInput (requestId : MutationRequestId) (fingerprint : Fingerprint)
      (sessionId : SessionId) (text : String) (selection : RunModelSelection)
      (context : RunInputContext)
  | cancelRun (requestId : MutationRequestId) (sessionId : SessionId) (runId : RunId)
  | acceptLocalCommand (requestId : MutationRequestId) (sessionId : SessionId) (command : String)
      (contextVisible : Bool)
  | cancelLocalCommand (requestId : MutationRequestId) (sessionId : SessionId)
      (commandId : LocalCommandId)
  | renameSession (requestId : MutationRequestId) (sessionId : SessionId) (displayName : String)
  | prepareSessionArchive (requestId : MutationRequestId) (sessionId : SessionId) (archived : Bool)
  | prepareSessionDelete (requestId : MutationRequestId) (sessionId : SessionId)
  | mutateSteering (mutation : SteeringMutation) (skills : Option SteeringSkills)

/-- What an operation answers. -/
inductive Outcome
  | input (accepted : AcceptedRun)
  | runCancellation (result : RunCancellationResult)
  | command (accepted : AcceptedLocalCommand)
  | commandCancellation (result : LocalCommandCancellationResult)
  | rename (session : Session)
  | archive (session : Session) (complete : Bool)
  | deletion (complete : Bool)
  | steering (receipt : SteeringReceipt)
  deriving DecidableEq

namespace Submission

def requestId : Submission → MutationRequestId
  | acceptSessionInput requestId .. | cancelRun requestId .. | acceptLocalCommand requestId ..
  | cancelLocalCommand requestId .. | renameSession requestId .. | prepareSessionArchive requestId ..
  | prepareSessionDelete requestId .. => requestId
  | mutateSteering mutation _ => mutation.requestId

def sessionId : Submission → SessionId
  | acceptSessionInput _ _ sessionId .. | cancelRun _ sessionId _ | acceptLocalCommand _ sessionId ..
  | cancelLocalCommand _ sessionId _ | renameSession _ sessionId _
  | prepareSessionArchive _ sessionId _ | prepareSessionDelete _ sessionId => sessionId
  | mutateSteering mutation _ => mutation.sessionId

/-- The operation under which the identifier is registered. -/
def kind : Submission → MutationOperation
  | acceptSessionInput .. => .runInput
  | cancelRun .. => .runCancel
  | acceptLocalCommand .. => .localCommand
  | cancelLocalCommand .. => .localCommandCancel
  | renameSession .. => .sessionRename
  | prepareSessionArchive .. => .sessionArchive
  | prepareSessionDelete .. => .sessionDelete
  | mutateSteering .. => .steering

def fingerprint : Submission → Fingerprint
  | acceptSessionInput _ fingerprint .. => fingerprint
  | cancelRun _ sessionId runId => .cancelRun sessionId runId
  | acceptLocalCommand _ sessionId command contextVisible =>
    .localCommand sessionId command contextVisible
  | cancelLocalCommand _ sessionId commandId => .cancelLocalCommand sessionId commandId
  | renameSession _ sessionId displayName => .renameSession sessionId displayName
  | prepareSessionArchive _ sessionId archived => .archiveSession sessionId archived
  | prepareSessionDelete _ sessionId => .deleteSession sessionId
  | mutateSteering mutation _ => mutation.fingerprint

/-- What an operation checks of its arguments before it looks its identifier up. -/
def check (env : Environment) : Submission → Except PersistenceError Unit
  | acceptSessionInput _ _ _ text selection _ => do
    validateUserText text
    validateModelSelection selection
    env.contextIntegrity
  | acceptLocalCommand _ _ command _ => validateLocalCommand command
  | mutateSteering mutation _ => require (mutation.requestId ≠ 0)
      (.invalidInput "a steering mutation requires a nonzero request identifier")
  | _ => .ok ()

/-- The same operation with the same arguments. -/
def Repeats (m' m : Submission) : Prop := m'.kind = m.kind ∧ m'.fingerprint = m.fingerprint

instance (m' m : Submission) : Decidable (m'.Repeats m) := by unfold Repeats; infer_instance

def operation : Submission → Operation
  | acceptSessionInput requestId fingerprint sessionId text selection context =>
    .acceptSessionInput requestId fingerprint sessionId text selection context
  | cancelRun requestId sessionId runId => .cancelRun requestId sessionId runId
  | acceptLocalCommand requestId sessionId command contextVisible =>
    .acceptLocalCommand requestId sessionId command contextVisible
  | cancelLocalCommand requestId sessionId commandId =>
    .cancelLocalCommand requestId sessionId commandId
  | renameSession requestId sessionId displayName => .renameSession requestId sessionId displayName
  | prepareSessionArchive requestId sessionId archived =>
    .prepareSessionArchive requestId sessionId archived
  | prepareSessionDelete requestId sessionId => .prepareSessionDelete requestId sessionId
  | mutateSteering mutation skills => .mutateSteering mutation skills

end Submission

/-- The operation with its answer. -/
def submit (env : Environment) (s : Store) :
    Submission → Except PersistenceError (Outcome × Store)
  | .acceptSessionInput requestId fingerprint sessionId text selection context =>
    (acceptSessionInput env s requestId fingerprint sessionId text selection context).map
      fun (accepted, t) => (.input accepted, t)
  | .cancelRun requestId sessionId runId =>
    (cancelRun env s requestId (.cancelRun sessionId runId) sessionId runId).map
      fun (result, t) => (.runCancellation result, t)
  | .acceptLocalCommand requestId sessionId command contextVisible => do
    validateLocalCommand command
    (acceptLocalCommand env s requestId (.localCommand sessionId command contextVisible) sessionId
      command contextVisible).map fun (accepted, t) => (.command accepted, t)
  | .cancelLocalCommand requestId sessionId commandId =>
    (cancelLocalCommand env s requestId (.cancelLocalCommand sessionId commandId) sessionId
      commandId).map fun (result, t) => (.commandCancellation result, t)
  | .renameSession requestId sessionId displayName =>
    (renameSession env s requestId (.renameSession sessionId displayName) sessionId
      displayName).map fun (session, t) => (.rename session, t)
  | .prepareSessionArchive requestId sessionId archived =>
    (prepareSessionArchive env s requestId (.archiveSession sessionId archived) sessionId
      archived).map fun ((session, complete), t) => (.archive session complete, t)
  | .prepareSessionDelete requestId sessionId =>
    (prepareSessionDelete env s requestId (.deleteSession sessionId) sessionId).map
      fun (complete, t) => (.deletion complete, t)
  | .mutateSteering mutation skills =>
    (mutateSteering env s mutation skills).map fun (receipt, t) => (.steering receipt, t)

namespace Outcome

/-- What a first answer tells of the store that the operation leaves. -/
def Shows (t : Store) : Outcome → Prop
  | input accepted => accepted.newlyAccepted = true ∧ loadRun t accepted.run.id = some accepted.run
  | command accepted => accepted.newlyAccepted = true
  | commandCancellation result =>
    (loadLocalCommand t result.commandId).map (·.cancellationRequested) =
      some result.cancellationRequested
  | rename session => loadSession t session.id = some session
  | archive session complete => loadSession t session.id = some session ∧ complete = false
  | deletion complete => complete = false
  | runCancellation _ | steering _ => True

/-- What a repetition answers.  Acceptances, receipts and the cancellation of a
run are told as the first time, a session and the progress of an archive or of
a deletion as they stand; the flag of a cancelled command is left open where
an earlier request had cancelled the command. -/
def Retold (u : Store) (requestId : MutationRequestId) : Outcome → Outcome → Prop
  | input first, again => again = input { first with newlyAccepted := false }
  | runCancellation first, again => again = runCancellation first
  | command first, again => again = command { first with newlyAccepted := false }
  | commandCancellation first, again => ∃ requested : Bool,
      again = commandCancellation ⟨first.commandId, requested, false⟩ ∧
      (first.intentApplied = first.cancellationRequested → requested = first.cancellationRequested)
  | rename first, again => ∃ session, loadSession u first.id = some session ∧ again = rename session
  | archive first _, again => ∃ session request, loadSession u first.id = some session ∧
      loadArchiveRequest u requestId = some request ∧ again = archive session request.complete
  | deletion _, again => ∃ request, loadDeleteRequest u requestId = some request ∧
      again = deletion (request.state = .complete)
  | steering first, again => again = steering first

end Outcome

/-- A submission leaves the store that its operation leaves. -/
theorem submit_execute {env : Environment} {s t : Store} {m : Submission} {outcome : Outcome}
    (h : submit env s m = .ok (outcome, t)) : execute env s m.operation = .ok t := by
  cases m with
  | acceptLocalCommand =>
    simp only [submit, bind_ok, map_ok] at h
    obtain ⟨u, hvalid, ⟨accepted, v⟩, haccept, heq⟩ := h
    simp only [Submission.operation, execute, bind_ok, map_ok]
    exact ⟨u, hvalid, _, haccept, (Prod.mk.inj heq).2⟩
  | _ =>
    simp only [submit, map_ok] at h
    obtain ⟨⟨answer, v⟩, hrun, heq⟩ := h
    simp only [Submission.operation, execute, map_ok]
    exact ⟨_, hrun, (Prod.mk.inj heq).2⟩

end Morons
