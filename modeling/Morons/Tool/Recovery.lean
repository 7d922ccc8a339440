import Morons.Tool.Execution

/-!
# Recovering tool operations at startup

Every call that a restart finds without an outcome gets one: a call that was
never prepared is prepared and reported as not dispatched, and a prepared one
is reported by what is known of its effects.
-/

namespace Morons

open Attempt

structure ToolOperationRecovery where
  runId : RunId
  callId : ToolCallId
  operationId : ToolOperationId
  input : ToolInput
  prepared : Bool
  dispatched : Bool
  recoveryPlan : Option String
  deriving DecidableEq

def toolOperationRecovery (s : Store) (call : ToolCall) : ToolOperationRecovery :=
  let prepared := s.toolOperationFacts.find? fun f =>
    f.callId = call.callId && f.factKind = .prepared
  { runId := call.runId
    callId := call.callId
    operationId := call.operationId
    input := call.input
    prepared := prepared.isSome
    dispatched := toolHasFact s call.callId .dispatched
    recoveryPlan := prepared.bind (·.recoveryPlan) }

/-- The calls a restart finds without an outcome, in the order they were committed. -/
def incompleteToolOperations (s : Store) : List ToolOperationRecovery :=
  ((s.toolCalls.filter fun c => !toolTerminal s c.callId).mergeSort
    fun a b => decide (a.factSequence ≤ b.factSequence)).map (toolOperationRecovery s)

/-- The outcome of a prepared call that a restart finds. -/
def recoveredResult (env : Environment) (s : Store) (operation : ToolOperationRecovery) :
    Except PersistenceError ToolResult := do
  let kind := operation.input.kind
  let hostedWeb := kind = .webSearch ∧ webBound s operation.callId
  if kind = .runCommand then
    let binding ← demand (.invalidState "an incomplete command is missing its durable binding")
      operation.recoveryPlan
    env.removeCommandArtifacts binding
    return .error (if operation.dispatched then .interrupted else .notDispatched) none
  else if kind.isMutation ∨ hostedWeb then
    return .error (if operation.dispatched then .uncertain else .notDispatched) none
  else
    return .error (if operation.dispatched then .interrupted else .notDispatched) none

def recoverToolOperation (env : Environment) (s : Store) (operation : ToolOperationRecovery) :
    Except PersistenceError Store :=
  if operation.prepared then do
    let result ← recoveredResult env s operation
    completeToolResult env s operation.runId operation.callId operation.operationId result
  else do
    let s ← prepareToolOperation env s operation.runId operation.callId operation.operationId none
    completeToolResult env s operation.runId operation.callId operation.operationId
      (.error .notDispatched none)

/-- Each call is settled in the surroundings that recovery then finds. -/
def recoverToolOperations (env : Environment) (during : ToolCallId → Environment) (s : Store) :
    Except PersistenceError Store := do
  let s ← sweep (fun s operation => recoverToolOperation (during operation.callId) s operation) s
    (incompleteToolOperations s)
  env.cleanupCommandArtifacts
  return s

end Morons
