import SteamAgent.Execution.Executor.Calls

/-!
# Policy reads and endings

The policy reads of a content run, and the ways to restore the client and to
end an operation.

There are two groups.

* The policy callback.
* `restoreClient` and the endings that use it.
-/

namespace SteamAgent.Execution

open Effects
open Ledger (Row OperationState transition)

variable {ρ α : Type}

/-! ## The policy callback -/

/-- The `dispatch_policy` callback, with its exception as a value. -/
def dispatchPolicy (operation : Row) : Body ρ (Except Exn (Option String)) :=
  Prog.ask (S := BrokerSig) (.dispatchPolicy operation)

/-- `_content_policy_denial`. -/
def contentPolicyDenial (cfg : Config) (operation : Row) : Body ρ (Option String) := do
  if cfg.hasDispatchPolicy then
    match ← dispatchPolicy operation with
    | .error _ => return some "content policy unreadable"
    | .ok none => return none
    | .ok (some denial) =>
      if denial = "policy unreadable before dispatch" then
        return some "content policy unreadable"
      else
        return some "content policy denied"
  else
    return none

/-! ## Restoring and ending -/

/-- `_restore_client`. -/
def restoreClient (id : Nat) (priorRunning : Option Bool) : Body ρ Bool := do
  let probed : Except Exn Bool ← Prog.ask (S := BrokerSig) (.session id .steamcmdRunning)
  match probed with
  | .error _ => return false
  | .ok true => return false
  | .ok false => if priorRunning = some true then startClient id else return true

/-- `_finish_failure`, with the outcome and the state it ends in. -/
def finishFailureAs (id : Nat) (priorRunning : Option Bool) (detail message : String)
    (outcome : ExecuteOutcome) (toState : OperationState) : Body ExecutionReport α := do
  if ← restoreClient id priorRunning then
    ledger (transition id toState (some detail) none none)
    finish ⟨id, outcome, message⟩
  else
    finish ⟨id, .deferred, message ++ "; client restore failed; state left for reconcile"⟩

/-- `_finish_failure` with its defaults. -/
def finishFailure (id : Nat) (priorRunning : Option Bool) (detail message : String) :
    Body ExecutionReport α :=
  finishFailureAs id priorRunning detail message .failed .failed

/-- `_abort_intake`, and `_finish_failure` with `outcome` and `to_state`
aborted. -/
def finishAborted (id : Nat) (priorRunning : Option Bool) (detail message : String) :
    Body ExecutionReport α :=
  finishFailureAs id priorRunning detail message .aborted .aborted

/-- The steamcmd probe of an operation with a client to restore. -/
def steamcmdBlocks (operation : Row) : Body ρ Bool :=
  if operation.priorClientRunning = some true then steamcmdRunning operation.operationId
  else return false

/-- `_defer_content_policy`. -/
def deferContentPolicy (operation : Row) (denial : String) : Body ExecutionReport α := do
  if ← steamcmdBlocks operation then
    finish ⟨operation.operationId, .deferred,
      denial ++ "; steamcmd may still be running; client restore deferred"⟩
  else if ← restoreClient operation.operationId operation.priorClientRunning then
    finish ⟨operation.operationId, .deferred, denial⟩
  else
    finish ⟨operation.operationId, .deferred,
      denial ++ "; client restore failed; state left for retry"⟩

/-- Read the policy again and leave by `onDenial` when it denies. -/
def unlessDenied (cfg : Config) (operation : Row) (onDenial : String → Body ρ Unit) :
    Body ρ Unit := do
  match ← contentPolicyDenial cfg operation with
  | none => return ()
  | some denial => onDenial denial

end SteamAgent.Execution
