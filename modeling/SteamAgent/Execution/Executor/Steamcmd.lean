import SteamAgent.Execution.Executor.Calls

/-!
# One steamcmd run

`SteamcmdAdapter.install` on POSIX.  The loop waits for steamcmd and polls the
caller's `abort_when` each time the wait runs out.  The deadline bounds the
number of polls, and the surroundings choose that number when steamcmd starts.

The caller keeps a latch between its polls, so a poll takes the latch and
returns it with its answer.  A poll that raises still moves the latch.

The captured output and the redacted log text are left out: of the output only
the two searches matter, and nothing reads the log.
-/

namespace SteamAgent.Execution

open Effects

variable {ρ : Type}

/-- An `abort_when` callback with the latch it closes over. -/
abbrev Poll (ρ : Type) := Option String → Body ρ (Except (Halt ρ) Bool × Option String)

/-- How the loop of `install` ended. -/
inductive Ended where
  | exited
  | timedOut
  | aborted
  | pollFailed
deriving DecidableEq, Repr

/-- `ContentProcessError`, a subclass of `OSError`. -/
def contentProcessError : Exn :=
  .osError "ContentProcessError"

def contentWait (id : Nat) : Body ρ Waited :=
  Prog.ask (S := BrokerSig) (.content id .wait)

/-- `_terminate`. -/
def contentTerminate (id : Nat) : Body ρ (Except Exn Unit) :=
  Prog.ask (S := BrokerSig) (.content id .terminate)

def contentFinish (id : Nat) : Body ρ (Except Exn Finished) :=
  Prog.ask (S := BrokerSig) (.content id .finish)

/-- The way out of the loop by an exception: end the process, unless that was
tried before. -/
def pollingFailed {α : Type} (id : Nat) (cleanupAttempted : Bool) : Body ρ α := do
  if cleanupAttempted then
    .raise (.exn contentProcessError)
  else
    match ← contentTerminate id with
    | .ok () => .raise (.exn contentProcessError)
    | .error x => .raise (.exn x)

/-- The loop, with `n` polls left before the deadline. -/
def pollLoop (id : Nat) (poll : Poll ρ) : Nat → Option String → Body ρ (Ended × Option String)
  | n, latch => do
    match ← contentWait id with
    | .failed => pollingFailed id false
    | .exited => return (.exited, latch)
    | .running =>
      match n with
      | 0 => return (.timedOut, latch)
      | n + 1 =>
        match ← poll latch with
        | (.ok false, latch) => pollLoop id poll n latch
        | (.ok true, latch) => return (.aborted, latch)
        | (.error _, latch) => return (.pollFailed, latch)

/-- The end of a started process. -/
def collect (id : Nat) (ended : Ended) : Body ρ Finished := do
  if ended = .exited then
    match ← contentFinish id with
    | .ok f => return f
    | .error _ => pollingFailed id false
  else
    match ← contentTerminate id with
    | .error _ => pollingFailed id true
    | .ok () =>
      match ← contentFinish id with
      | .ok f => return f
      | .error _ => pollingFailed id true

/-- The classification of a run. -/
def classify (ended : Ended) (f : Finished) : ContentOutcome :=
  if ended = .pollFailed then .failed
  else if f.authFailure then .authRequired
  else if ended = .exited ∧ f.returncode = some 0 ∧ f.success then .installed
  else .failed

/-- What an unavailable steamcmd leaves behind. -/
def unavailable : Finished :=
  ⟨none, false, false⟩

/-- The process part of `install`. -/
def runSteamcmd (id : Nat) (account : String) (appid : Nat) (installDir : String)
    (validate : Bool) (poll : Poll ρ) (latch : Option String) :
    Body ρ (ContentOutcome × Option String) := do
  let spawned : Except Exn Nat ←
    Prog.ask (S := BrokerSig) (.content id (.spawn account appid installDir validate))
  match spawned with
  | .error x =>
    if x.isOSError then return (classify .exited unavailable, latch)
    else .raise (.exn x)
  | .ok n =>
    let (ended, latch) ← pollLoop id poll n latch
    let finished ← collect id ended
    return (classify ended finished, latch)

/-- `SteamcmdAdapter.install`.  It returns the latch of the last poll too. -/
def install (id : Nat) (account : String) (appid : Nat) (installDir : String) (validate : Bool)
    (poll : Poll ρ) (latch : Option String) : Body ρ (ContentResult × Option String) := do
  let prepared : Except Exn String ← Prog.ask (S := BrokerSig) (.content id .prepare)
  let stamp ← orRaise prepared
  let logName := (if validate then "verify-" else "install-") ++ toString appid ++ "-op"
    ++ toString id ++ "-" ++ stamp ++ ".log"
  let (outcome, latch) ← runSteamcmd id account appid installDir validate poll latch
  let written : Except Exn Unit ← Prog.ask (S := BrokerSig) (.content id (.writeLog logName))
  orRaise written
  return (⟨outcome, logName⟩, latch)

end SteamAgent.Execution
