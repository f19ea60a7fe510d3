import SteamAgent.Execution.Content.Adoption
import SteamAgent.Execution.Ledger.Calls
import SteamAgent.Execution.Sessions

/-!
# What the executor calls

An execution is a program over the ledger, the filesystem, the session, the
owner's policy, steamcmd, the processes of a game, and the execution lock.

A filesystem call carries the function it is made in: `adopt` inside
`adopt_manifest`, `recover` inside `reconcile_adoption`, `fs` anywhere else.  A
session or steamcmd call carries the operation it is made for.  The
surroundings do not read these tags.

There are three groups.

* `Call` and its answers.
* `Body`, a program with early returns: `return` in the middle of a method is
  an exception `Halt.done`, and `leave` ends the method.
* One call each, and the methods of the ledger and of the content plane as
  bodies.
-/

namespace SteamAgent.Execution

open Effects
open Content (FsCall FsSig FsProg Paths)
open Ledger (LedgerCall LedgerSig Method Row)

/-- The methods of `SessionProtocol`. -/
inductive SessionCall where
  | gates
  | clientPossiblyRunning
  | steamcmdRunning
  | stopClient
  | startClient
  | launchApp (appid : Nat)
deriving DecidableEq

abbrev SessionCall.Ans : SessionCall → Type
  | .gates => Except Exn LeaseGates
  | _ => Except Exn Bool

/-- How a wait for steamcmd ends. -/
inductive Waited where
  | exited
  | running
  /-- The capture failed, or the wait raised. -/
  | failed
deriving DecidableEq, Repr

/-- The calls of `SteamcmdAdapter.install`. -/
inductive ContentCall where
  /-- `_prepare_directories`, and the rest of the log name: time and process. -/
  | prepare
  /-- `_spawn`.  The answer is the number of abort polls before the deadline. -/
  | spawn (account : String) (appid : Nat) (installDir : String) (validate : Bool)
  | wait
  | terminate
  /-- `process.returncode` and `capture.finish`. -/
  | finish
  | writeLog (name : String)
deriving DecidableEq

abbrev ContentCall.Ans : ContentCall → Type
  | .prepare => Except Exn String
  | .spawn .. => Except Exn Nat
  | .wait => Waited
  | .finish => Except Exn Finished
  | _ => Except Exn Unit

inductive Call where
  | ledger (c : LedgerCall)
  | fs (c : FsCall)
  | adopt (id : Nat) (c : FsCall)
  | recover (id : Nat) (c : FsCall)
  | session (id : Nat) (c : SessionCall)
  /-- The `dispatch_policy` callback. -/
  | dispatchPolicy (operation : Row)
  /-- The `account_login` callback. -/
  | accountLogin (name : String)
  | content (id : Nat) (c : ContentCall)
  /-- `RuntimeObserver.observe`. -/
  | observe (appid : Nat)
  /-- `RuntimeObserver.stop_app`, up to its last look at the gate.  The answer
  is the number of times it looks. -/
  | stopApp (id appid : Nat) (force : Bool)
  /-- The end of `stop_app`, after what the gate said.  `none` is a gate that
  raised. -/
  | stopResult (permitted : List (Option Bool))
  /-- `load_policy(state_dir / "policy.toml")`. -/
  | loadPolicy
  | acquireLock
  | releaseLock
deriving DecidableEq

abbrev Call.Ans : Call → Type
  | .ledger c => c.Ans
  | .fs c => c.Ans
  | .adopt _ c => c.Ans
  | .recover _ c => c.Ans
  | .session _ c => c.Ans
  | .dispatchPolicy _ => Except Exn (Option String)
  | .accountLogin _ => Except Exn (Option String)
  | .content _ c => c.Ans
  | .observe _ => Except Exn RuntimeObservation
  | .stopApp .. => Except Exn Nat
  | .stopResult _ => Except Exn StopResult
  | .loadPolicy => Except Exn ExecutionPolicy
  | .acquireLock => Except Exn Unit
  | .releaseLock => Unit

/-- The signature of the broker. -/
abbrev BrokerSig : Sig :=
  ⟨Call, Call.Ans⟩

/-- A program of the broker. -/
abbrev Broker := Prog BrokerSig Exn

/-! ## Early returns -/

/-- How a method ends before its last line. -/
inductive Halt (ρ : Type) where
  /-- `return`. -/
  | done (result : ρ)
  | exn (x : Exn)

/-- The body of a method that returns a `ρ`. -/
abbrev Body (ρ : Type) := Prog BrokerSig (Halt ρ)

/-- The method with the given body. -/
def leave {ρ : Type} (p : Body ρ ρ) : Broker ρ := do
  match ← p.attempt with
  | .ok result => return result
  | .error (.done result) => return result
  | .error (.exn x) => .raise x

variable {ρ α : Type}

/-- `return`. -/
def finish (result : ρ) : Body ρ α :=
  .raise (.done result)

/-- The value of an answer, or its exception. -/
def orRaise : Except Exn α → Body ρ α
  | .ok a => .ret a
  | .error x => .raise (.exn x)

/-- `try: … except`, for the exceptions that `catches` names. -/
def handling (p : Body ρ α) (catches : Exn → Bool) (handler : Exn → Body ρ α) : Body ρ α := do
  match ← p.attempt with
  | .ok a => return a
  | .error (.done result) => finish result
  | .error (.exn x) => if catches x then handler x else .raise (.exn x)

/-! ## Single calls -/

/-- A method of the ledger. -/
def ledger (p : Method α) : Body ρ α :=
  p.lift (T := BrokerSig) Call.ledger (fun _ a => a) Halt.exn

/-- A program over the filesystem. -/
def fs (p : FsProg α) : Body ρ α :=
  p.lift (T := BrokerSig) Call.fs (fun _ a => a) Halt.exn

/-- A program over the filesystem, made in `adopt_manifest`. -/
def adopting (id : Nat) (p : FsProg α) : Body ρ α :=
  p.lift (T := BrokerSig) (Call.adopt id) (fun _ a => a) Halt.exn

/-- A program over the filesystem, made in `reconcile_adoption`. -/
def recovering (id : Nat) (p : FsProg α) : Body ρ α :=
  p.lift (T := BrokerSig) (Call.recover id) (fun _ a => a) Halt.exn

def gates (id : Nat) : Body ρ LeaseGates := do
  let a : Except Exn LeaseGates ← Prog.ask (S := BrokerSig) (.session id .gates)
  orRaise a

def clientPossiblyRunning (id : Nat) : Body ρ Bool := do
  let a : Except Exn Bool ← Prog.ask (S := BrokerSig) (.session id .clientPossiblyRunning)
  orRaise a

def steamcmdRunning (id : Nat) : Body ρ Bool := do
  let a : Except Exn Bool ← Prog.ask (S := BrokerSig) (.session id .steamcmdRunning)
  orRaise a

def stopClient (id : Nat) : Body ρ Bool := do
  let a : Except Exn Bool ← Prog.ask (S := BrokerSig) (.session id .stopClient)
  orRaise a

def startClient (id : Nat) : Body ρ Bool := do
  let a : Except Exn Bool ← Prog.ask (S := BrokerSig) (.session id .startClient)
  orRaise a

def launchApp (id appid : Nat) : Body ρ Bool := do
  let a : Except Exn Bool ← Prog.ask (S := BrokerSig) (.session id (.launchApp appid))
  orRaise a

def accountLogin (name : String) : Body ρ (Option String) := do
  let a : Except Exn (Option String) ← Prog.ask (S := BrokerSig) (.accountLogin name)
  orRaise a

def loadPolicy : Body ρ (Except Exn ExecutionPolicy) :=
  Prog.ask (S := BrokerSig) .loadPolicy

/-! ## The configuration of a broker -/

/-- The arguments of `Executor` that do not change.  `casefold` is
`str.casefold`. -/
structure Config where
  platform : Platform
  paths : Paths
  hasContent : Bool
  hasAccountLogin : Bool
  hasDispatchPolicy : Bool
  casefold : String → String

end SteamAgent.Execution
