import SteamAgent.Execution.Executor.Execute

/-!
# `Executor._reconcile_locked`

Recovery of the active operation under the lock, one definition for each
group of states.  The result is the list of the actions taken.
-/

namespace SteamAgent.Execution

open Effects
open Content
open Ledger (Row OperationState transition windowValid expireLapsed)

variable {α : Type}

/-- One line of the action list. -/
def action (id : Nat) (text : String) : String :=
  toString id ++ ": " ++ text

/-- `if not restore(): return actions`. -/
def restoreOrLeave (operation : Row) : Body (List String) Unit := do
  if ← restoreClient operation.operationId operation.priorClientRunning then
    return ()
  else
    finish [action operation.operationId "client restore failed; state left for retry"]

/-- `restore()`, then one more action and the end. -/
def restoreAndLeave (operation : Row) (text : String) : Body (List String) α := do
  if ← restoreClient operation.operationId operation.priorClientRunning then
    finish [action operation.operationId text]
  else
    finish [action operation.operationId "client restore failed; state left for retry",
      action operation.operationId text]

/-- `_verified_outcome`. -/
def verifiedOutcome (appid : Nat) (priorRunning : Option Bool) :
    FsProg (OperationState × String) := do
  if (← manifestAppidAt (.manifest appid)) ≠ some appid then
    return (.unconfirmed, "manifest appid mismatch")
  else
    let flags ← manifestStateFlagsAt (.manifest appid)
    if flags ≠ some 4 then
      return (.unconfirmed, flagsText flags)
    else if ← pathExists (.downloading appid) then
      return (.contradicted, "client re-downloading after adoption")
    else if priorRunning = some true then
      return (.confirmed, "client_adopted")
    else
      return (.confirmed, "content_present; client validation deferred to next client start")

/-- The state `dispatch_pending`. -/
def recoverDispatch (operation : Row) : Body (List String) (List String) := do
  ledger (transition operation.operationId .unconfirmed
    (some "reconciled: dispatch acceptance unknown; not replayable") none (some .dispatchPending))
  return [action operation.operationId "dispatch acceptance unknown -> unconfirmed"]

/-- The states before the content run. -/
def recoverLease (operation : Row) : Body (List String) (List String) := do
  restoreOrLeave operation
  ledger (transition operation.operationId .aborted (some "reconciled: no side effects") none none)
  return [action operation.operationId "aborted (died before content ran)"]

/-- The state `content_running`. -/
def recoverContent (operation : Row) : Body (List String) (List String) := do
  if ← steamcmdRunning operation.operationId then
    return [action operation.operationId "steamcmd may still be running; deferred"]
  else if ← ledger (windowValid operation.operationId) then
    ledger (transition operation.operationId .interrupted (some "resume candidate") none none)
    return [action operation.operationId "resume via execute()"]
  else
    restoreOrLeave operation
    ledger (transition operation.operationId .failed (some "window lapsed mid-download") none none)
    return [action operation.operationId "failed (window lapsed; partial dir invisible)"]

/-- The state `interrupted`. -/
def recoverInterrupted (operation : Row) : Body (List String) (List String) := do
  if ← ledger (windowValid operation.operationId) then
    return [action operation.operationId "resume via execute()"]
  else
    restoreOrLeave operation
    ledger (transition operation.operationId .failed (some "window lapsed before resume") none none)
    return [action operation.operationId "failed (window lapsed before resume)"]

/-- The lease of a repair: clear gates and an absent client. -/
def leaseForRepair (operation : Row) : Body (List String) Unit := do
  let id := operation.operationId
  if (← gates id).allClear then
    if ← clientPossiblyRunning id then
      if ← stopClient id then
        let g ← gates id
        if g.allClear = false ∨ g.clientRunning ≠ .pass then
          restoreAndLeave operation "lease regressed during stop; adoption reconcile deferred"
        else
          return ()
      else
        restoreAndLeave operation "client running; adoption reconcile deferred"
    else
      return ()
  else
    finish [action id "lease gates not clear; adoption reconcile deferred"]

/-- The journal and the marker are retired, and the client is restored. -/
def retireAndRestore (operation : Row) : Body (List String) Unit := do
  handling (fs (retireRecords operation.appid)) Exn.isOSError fun _ =>
    restoreAndLeave operation "journal cleanup failed; deferred"
  restoreOrLeave operation

/-- The verdict of a recovery, and its last action. -/
def recoverVerdict (operation : Row) (what : String) : Body (List String) (List String) := do
  let (outcome, why) ← fs (verifiedOutcome operation.appid operation.priorClientRunning)
  ledger (transition operation.operationId outcome (some ("reconciled: " ++ why)) none none)
  return [action operation.operationId (what ++ " -> " ++ outcome.text)]

/-- The state `adopting`. -/
def recoverAdopting (cfg : Config) (operation : Row) : Body (List String) (List String) := do
  let id := operation.operationId
  leaseForRepair operation
  let verdict ←
    handling (recovering id (reconcileAdoption cfg.paths operation.appid (some id)))
      Exn.isAdoptionOrOSError fun _ =>
        restoreAndLeave operation "adoption journal unreadable; deferred"
  if verdict ≠ .completed then
    restoreOrLeave operation
    ledger (transition id .failed (some ("reconciled: adoption " ++ verdict.text)) none none)
    return [action id ("adoption " ++ verdict.text ++ " -> failed")]
  else
    ledger (transition id .clientRestartPending (some ("adoption " ++ verdict.text)) none none)
    retireAndRestore operation
    ledger (transition id .verifying (some ("adoption " ++ verdict.text)) none none)
    recoverVerdict operation ("adoption " ++ verdict.text)

/-- The step to `verifying`, unless the row is there. -/
def enterVerifying (operation : Row) : Body (List String) Unit :=
  if operation.state = .verifying then return ()
  else ledger (transition operation.operationId .verifying (some "reconciled") none none)

/-- The states after adoption. -/
def recoverAdopted (operation : Row) : Body (List String) (List String) := do
  retireAndRestore operation
  enterVerifying operation
  recoverVerdict operation operation.state.text

/-- The recovery of one active operation. -/
def recover (cfg : Config) (operation : Row) : Body (List String) (List String) :=
  match operation.state with
  | .dispatchPending => recoverDispatch operation
  | .leaseAcquired => recoverLease operation
  | .clientStopping => recoverLease operation
  | .contentRunning => recoverContent operation
  | .interrupted => recoverInterrupted operation
  | .adopting => recoverAdopting cfg operation
  | .clientRestartPending => recoverAdopted operation
  | .verifying => recoverAdopted operation
  | _ => return []

/-- Whether an operation is an install or a verify. -/
def isContent (operation : Row) : Bool :=
  operation.operation == .install || operation.operation == .verify

/-- `_reconcile_locked`. -/
def reconcileLocked (cfg : Config) : Body (List String) (List String) := do
  let operation ← ledger Ledger.active
  match operation.filter fun r => decide (cfg.platform = .win32) && isContent r with
  | some r => return [action r.operationId "Windows content recovery unqualified; deferred"]
  | none =>
    let _ ← ledger expireLapsed
    match ← ledger Ledger.active with
    | none => return []
    | some r => recover cfg r

end SteamAgent.Execution
