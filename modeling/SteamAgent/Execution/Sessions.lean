import SteamAgent.Execution.Ledger.State

/-!
# The session, the policy and the reports

The values that pass between the executor and what it drives: the lease gates
of a session, the owner's policy, what a steamcmd run came to, and the report
of an execution.

An answer of a session is a value of `GateState` or a Boolean, or an
exception.  Nothing here says which answers a session gives.
-/

namespace SteamAgent.Execution

open Ledger (Operation PlanValue)

/-- `GateState`. -/
inductive GateState where
  | pass
  | fail
  | unknown
deriving DecidableEq, Repr

def GateState.text : GateState → String
  | .pass => "pass"
  | .fail => "fail"
  | .unknown => "unknown"

/-- `LeaseGates`. -/
structure LeaseGates where
  gameRunning : GateState
  remotePlay : GateState
  downloadInFlight : GateState
  clientRunning : GateState
deriving DecidableEq, Repr

/-- `LeaseGates.all_clear`. -/
def LeaseGates.allClear (g : LeaseGates) : Bool :=
  g.gameRunning == .pass && g.remotePlay == .pass && g.downloadInFlight == .pass

/-- `sys.platform`, as far as the executor looks at it. -/
inductive Platform where
  | linux
  | win32
  | other
deriving DecidableEq, Repr

/-! ## The policy -/

/-- `ExecutionPolicy`, without the fields that only intake reads. -/
structure ExecutionPolicy where
  grants : List (Operation × String)
  launchAllowlist : List Nat
  stopAllowlist : List Nat
  stopAllowForce : Bool
deriving DecidableEq, Repr

/-- `grant_for`.  Every stored operation is a supported one. -/
def ExecutionPolicy.grantFor (p : ExecutionPolicy) (operation : Operation) : String :=
  ((p.grants.find? fun g => g.1 == operation).map Prod.snd).getD "deny"

/-- `launch_permitted`. -/
def ExecutionPolicy.launchPermitted (p : ExecutionPolicy) (appid : Nat) : Bool :=
  p.launchAllowlist.contains appid

/-- `stop_permitted`. -/
def ExecutionPolicy.stopPermitted (p : ExecutionPolicy) (appid : Nat) (force : Bool) : Bool :=
  p.stopAllowlist.contains appid && (!force || p.stopAllowForce)

/-! ## Results and reports -/

/-- `ContentOutcome`. -/
inductive ContentOutcome where
  | installed
  | authRequired
  | failed
deriving DecidableEq, Repr

/-- `ContentResult`, with the name of the log file. -/
structure ContentResult where
  outcome : ContentOutcome
  logName : String
deriving DecidableEq, Repr

/-- What a finished steamcmd leaves behind: its return code, and whether the
captured output matches `_AUTH_FAILURE` and `_SUCCESS`. -/
structure Finished where
  returncode : Option Int
  authFailure : Bool
  success : Bool
deriving DecidableEq, Repr

/-- `RuntimeObservation`, as far as the executor reads it. -/
structure RuntimeObservation where
  unknown : Bool
  processes : Nat
deriving DecidableEq, Repr

/-- `StopResult`, as far as the executor reads it. -/
structure StopResult where
  state : String
  reasonCode : String
  requestedCount : Nat
deriving DecidableEq, Repr

/-- `ExecuteOutcome`. -/
inductive ExecuteOutcome where
  | confirmed
  | unconfirmed
  | contradicted
  | aborted
  | failed
  | authRequired
  | deferred
  | dispatched
deriving DecidableEq, Repr

/-- `ExecutionReport`. -/
structure ExecutionReport where
  operationId : Nat
  outcome : ExecuteOutcome
  detail : String
deriving DecidableEq, Repr

end SteamAgent.Execution
