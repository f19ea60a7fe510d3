import SteamAgent.Execution.Executor.Reconcile

/-!
# The entry points of the broker

`ClientExecutor`, which stops games itself and leaves everything else to
`Executor`, and the execution lock.

There are two groups.

* `ClientExecutor._execute_locked`.
* The methods that take the lock.
-/

namespace SteamAgent.Execution

open Effects
open Ledger (Row OperationState transition windowValid expireLapsed planDocument)

variable {α : Type}

/-! ## Stopping a game -/

/-- The body of `before_request`. -/
def dispatchGate (id : Nat) (operation : Row) (force : Bool) : Body ExecutionReport Bool := do
  let policy ← orRaise (← loadPolicy)
  if policy.grantFor .stop ≠ "deny" ∧ policy.stopPermitted operation.appid force then
    ledger (windowValid id)
  else
    return false

/-- One look at `before_request`, with an exception it lets through as `none`. -/
def lookAtGate (id : Nat) (operation : Row) (force : Bool) :
    Body ExecutionReport (Option Bool) := do
  match ← (dispatchGate id operation force).attempt with
  | .ok permitted => return some permitted
  | .error (.done report) => finish report
  | .error (.exn x) =>
    if x.isPolicyError || x.isLedgerError || x.isSqliteError || x.isOSError then return some false
    else return none

/-- The looks of `stop_app` at the gate. -/
def looksAtGate (id : Nat) (operation : Row) (force : Bool) :
    Nat → Body ExecutionReport (List (Option Bool))
  | 0 => return []
  | n + 1 => do
    let permitted ← lookAtGate id operation force
    let rest ← looksAtGate id operation force n
    return permitted :: rest

/-- `RuntimeObserver.stop_app`. -/
def stopApp (id : Nat) (operation : Row) (force : Bool) : Body ExecutionReport StopResult := do
  let looks : Except Exn Nat ← Prog.ask (S := BrokerSig) (.stopApp id operation.appid force)
  let permitted ← looksAtGate id operation force (← orRaise looks)
  let result : Except Exn StopResult ← Prog.ask (S := BrokerSig) (.stopResult permitted)
  orRaise result

def observe (appid : Nat) : Body ExecutionReport RuntimeObservation := do
  let a : Except Exn RuntimeObservation ← Prog.ask (S := BrokerSig) (.observe appid)
  orRaise a

/-- The checks of a stop before its dispatch.  The result is `force`. -/
def checkStop (id : Nat) (operation : Row) : Body ExecutionReport Bool := do
  if ← ledger (windowValid id) then
    let plan ← ledger (planDocument id)
    match (Content.item plan "force").getD (.bool false) with
    | .bool force =>
      let observed ← observe operation.appid
      if observed.unknown = true ∧ observed.processes = 0 then
        finish ⟨id, .deferred, "runtime observation unknown"⟩
      else
        let policy ← handling (do orRaise (← loadPolicy)) Exn.isPolicyError fun _ =>
          finish ⟨id, .deferred, "policy unreadable before stop"⟩
        if policy.grantFor .stop = "deny" ∨ policy.stopPermitted operation.appid force = false then
          ledger (transition id .aborted (some "stop policy revoked") none none)
          finish ⟨id, .aborted, "stop policy revoked"⟩
        else if ← ledger (windowValid id) then
          return force
        else
          let _ ← ledger expireLapsed
          finish ⟨id, .aborted, "execution window lapsed"⟩
    | _ => finish ⟨id, .deferred, "malformed force request"⟩
  else
    let _ ← ledger expireLapsed
    finish ⟨id, .aborted, "execution window lapsed"⟩

/-- The stop of a game, in `ClientExecutor._execute_locked`. -/
def stopGame (id : Nat) (operation : Row) : Body ExecutionReport ExecutionReport := do
  if operation.state ≠ .authorized then
    return ⟨id, .aborted, "not executable: " ++ operation.state.text⟩
  else
    let force ← checkStop id operation
    ledger (transition id .dispatchPending none none (some .authorized))
    let result ← stopApp id operation force
    let detail := "stop " ++ result.state ++ ": " ++ result.reasonCode ++ "; requested "
      ++ toString result.requestedCount ++ " attributed processes"
    if result.state = "stopped" ∨ result.state = "absent" then
      ledger (transition id .dispatched (some detail) none none)
      return ⟨id, .dispatched, detail⟩
    else
      ledger (transition id .unconfirmed (some detail) none none)
      return ⟨id, .unconfirmed, detail⟩

/-- `ClientExecutor._execute_locked`. -/
def clientExecuteLocked (cfg : Config) (id : Nat) : Body ExecutionReport ExecutionReport := do
  let operation ← ledger (Ledger.get id)
  if operation.operation = .launch ∧ cfg.platform = .other then
    return ⟨id, .deferred, "client execution requires Windows or Linux"⟩
  else if operation.operation = .stop then
    stopGame id operation
  else if cfg.platform ≠ .linux ∧ isContent operation then
    return ⟨id, .deferred, "content execution requires a qualified Linux host"⟩
  else
    executeLocked cfg id

/-! ## The execution lock -/

/-- `with self.execution_lock(): …`. -/
def underLock (p : Broker α) : Broker α := do
  let locked : Except Exn Unit ← Prog.ask (S := BrokerSig) .acquireLock
  match locked with
  | .error x => .raise x
  | .ok () =>
    let result ← p.attempt
    let _ : Unit ← Prog.ask (S := BrokerSig) .releaseLock
    Prog.ofExcept result

/-- `Executor.execute`. -/
def execute (cfg : Config) (id : Nat) : Broker ExecutionReport :=
  underLock (leave (executeLocked cfg id))

/-- `ClientExecutor.execute`. -/
def clientExecute (cfg : Config) (id : Nat) : Broker ExecutionReport :=
  underLock (leave (clientExecuteLocked cfg id))

/-- `Executor.reconcile`. -/
def reconcile (cfg : Config) : Broker (List String) :=
  underLock (leave (reconcileLocked cfg))

end SteamAgent.Execution
