import SteamAgent.Execution.Executor.Intake
import SteamAgent.Execution.Executor.Steamcmd

/-!
# `Executor._execute_locked`

One execution under the lock, cut into the stretches between the points where
the source re-checks its lease.  Every stretch either goes on or ends the
method with a report.

There are six groups.

* `contentGate` and `admitContent`: what is checked before anything happens.
* The client stop, fresh and resumed, and the checks after it.
* The content run with its abort poll.
* The checks between the run and adoption.
* Adoption with its repair, the retirement of the journal, and the verdict.
* `launch` and `executeLocked`.
-/

namespace SteamAgent.Execution

open Effects
open Content
open Ledger (Row OperationState PlanValue transition windowValid expireLapsed planDocument)

variable {ρ α : Type}

/-- `_library_identity`. -/
def libraryIdentity : Body ρ (Option Identity) :=
  fs (orNone (lstat .steamapps))

/-! ## Before the client stop -/

/-- The end of an execution whose window has lapsed. -/
def windowLapsed (id : Nat) (operation : Row) (resuming : Bool) :
    Body ExecutionReport α := do
  let _ ← ledger expireLapsed
  if resuming then
    if ← restoreClient id operation.priorClientRunning then
      ledger (transition id .failed (some "window lapsed before resume") none none)
      finish ⟨id, .aborted, "execution window lapsed"⟩
    else
      finish ⟨id, .deferred, "window lapsed; client restore failed; state left for retry"⟩
  else
    finish ⟨id, .aborted, "execution window lapsed"⟩

/-- `WindowsContentBackend.release_denial`. -/
def windowsReleaseDenial : String :=
  "Windows content backend is a candidate; authentication and content recovery are unqualified"

/-- The Steam login of an operation's account. -/
def resolveLogin (cfg : Config) (operation : Row) : Body ρ (Option String) :=
  if cfg.hasAccountLogin then accountLogin operation.accountAlias
  else return some operation.accountAlias

/-- The account, the window and the library of a content operation.  The result
is the Steam login and the identity of the library. -/
def contentGate (cfg : Config) (id : Nat) (operation : Row) (resuming : Bool) :
    Body ExecutionReport (String × Identity) := do
  if cfg.platform = .win32 then
    finish ⟨id, .deferred, windowsReleaseDenial⟩
  else if cfg.hasContent = false then
    finish ⟨id, .deferred, "content execution is not provisioned"⟩
  else
    unlessDenied cfg operation (deferContentPolicy operation)
    match (← resolveLogin cfg operation).filter (· != "") with
    | none => finish ⟨id, .deferred, "account has no provisioned Steam login"⟩
    | some steamLogin =>
      if ← ledger (windowValid id) then
        if ← fs (isDir .steamapps) then
          match ← libraryIdentity with
          | none =>
            finish ⟨id, .deferred, "library steamapps directory unavailable; deferred"⟩
          | some identity => return (steamLogin, identity)
        else
          finish ⟨id, .deferred, "library steamapps directory unavailable; deferred"⟩
      else
        windowLapsed id operation resuming

/-- The plan document and the intake checks. -/
def admitContent (cfg : Config) (id : Nat) (operation : Row) :
    Body ExecutionReport String := do
  let plan ← ledger (planDocument id)
  match ← ((intake cfg operation plan).lift (T := BrokerSig) Call.fs (fun _ a => a) fun h => h).attempt
    with
  | .ok name => return name
  | .error (.done refusal) =>
    finishAborted id operation.priorClientRunning refusal.detail refusal.message
  | .error (.exn x) => .raise (.exn x)

/-- The probe for a surviving steamcmd and the lease gates. -/
def leaseGates (id : Nat) : Body ExecutionReport LeaseGates := do
  if ← steamcmdRunning id then
    finish ⟨id, .deferred, "a steamcmd process is already running; deferred"⟩
  else
    let g ← gates id
    if g.allClear then
      return g
    else
      finish ⟨id, .deferred, "lease gates not clear: " ++
        "game=" ++ g.gameRunning.text ++ " remote_play=" ++ g.remotePlay.text ++
        " download=" ++ g.downloadInFlight.text⟩

/-! ## The client stop -/

/-- `running and not session.stop_client()`, negated. -/
def stopIfRunning (id : Nat) (running : Bool) : Body ρ Bool :=
  if running then stopClient id else return true

/-- Stop the client for a resumed operation.  The result is the run state to
restore. -/
def stopForResume (cfg : Config) (id : Nat) (operation : Row) : Body ExecutionReport Bool := do
  let priorRunning := operation.priorClientRunning.getD false
  let running ← clientPossiblyRunning id
  unlessDenied cfg operation (deferContentPolicy operation)
  if ← stopIfRunning id running then
    return priorRunning
  else
    let _ ← restoreClient id (some priorRunning)
    finish ⟨id, .deferred, "client would not exit for resume"⟩

/-- Stop the client for a fresh operation, after the lease is recorded. -/
def stopForLease (cfg : Config) (id : Nat) (operation : Row) (g : LeaseGates) :
    Body ExecutionReport Bool := do
  if g.clientRunning = .unknown then
    finish ⟨id, .deferred, "client presence unknown (probe error); deferred"⟩
  else
    let priorRunning := g.clientRunning == .fail
    unlessDenied cfg operation (deferContentPolicy operation)
    ledger (transition id .leaseAcquired none (some priorRunning) none)
    ledger (transition id .clientStopping none none none)
    unlessDenied cfg operation fun denial => finishAborted id (some priorRunning) denial denial
    if ← stopIfRunning id priorRunning then
      return priorRunning
    else
      finishAborted id (some priorRunning) "client would not exit cleanly"
        "client would not exit cleanly"

/-- The client stop before the content run. -/
def stopForContent (cfg : Config) (id : Nat) (operation : Row) (resuming : Bool) (g : LeaseGates) :
    Body ExecutionReport Bool :=
  if resuming then stopForResume cfg id operation else stopForLease cfg id operation g

/-- The checks between the client stop and the content run. -/
def startContent (cfg : Config) (id : Nat) (operation : Row) (resuming : Bool) (priorRunning : Bool)
    (identity : Identity) : Body ExecutionReport Unit := do
  let g ← gates id
  if g.allClear = false ∨ g.clientRunning ≠ .pass then
    finishAborted id (some priorRunning) "lease gates regressed during client stop"
      "lease gates regressed during client stop"
  else if ← ledger (windowValid id) then
    if (← libraryIdentity) ≠ some identity then
      finishAborted id (some priorRunning) "library mount changed before content start"
        "library mount changed before content start"
    else
      unlessDenied cfg operation fun denial => finishAborted id (some priorRunning) denial denial
      ledger (transition id .contentRunning (if resuming then some "resume" else none) none none)
  else
    finishAborted id (some priorRunning) "window lapsed before content start"
      "execution window lapsed before content start"

/-! ## The content run -/

/-- The reasons to abort besides the policy. -/
def abortReason (id : Nat) (identity : Identity) (latch : Option String) : Body ρ Bool := do
  if latch.isSome then
    return true
  else if ← clientPossiblyRunning id then
    return true
  else if ← ledger (windowValid id) then
    return (← libraryIdentity) != some identity
  else
    return true

/-- `abort_content`. -/
def abortContent (cfg : Config) (id : Nat) (operation : Row) (identity : Identity) : Poll ρ :=
  fun latch => do
    let denial ← contentPolicyDenial cfg operation
    let latch := denial.or latch
    let answer ← (abortReason id identity latch).attempt
    return (answer, latch)

/-- `_target_contained`. -/
def targetContained (name : String) : FsProg Bool := do
  let inside ← orNone do
    if ← isSymlink (.target name) then return false
    else contained (.target name)
  return inside == some true

/-- `_record_owned_dir`. -/
def recordOwnedDir (appid : Nat) (name : String) : FsProg Unit := do
  if ← targetContained name then
    mkdir (.target name)
    if ← targetContained name then
      let identity ← lstat (.target name)
      mkdir .ownedDir
      fsyncDir .stateDir
      writeRecord (.owned appid)
        [("install_dir_name", .str name), ("dev", .int identity.dev), ("ino", .int identity.ino)]
    else
      .raise .targetEscaped
  else
    .raise .targetEscaped

/-- `str` of the install target. -/
def targetPath (cfg : Config) (name : String) : String :=
  cfg.paths.steamapps ++ "/common/" ++ name

/-- The body of the `try` block around the content run. -/
def ownAndInstall (cfg : Config) (id : Nat) (operation : Row) (priorRunning : Bool)
    (steamLogin name : String) (identity : Identity) :
    Body ExecutionReport (ContentResult × Option String) := do
  unlessDenied cfg operation fun denial => finishAborted id (some priorRunning) denial denial
  fs (recordOwnedDir operation.appid name)
  unlessDenied cfg operation fun denial => finishAborted id (some priorRunning) denial denial
  install id steamLogin operation.appid (targetPath cfg name) (operation.operation == .verify)
    (abortContent cfg id operation identity) none

/-- The content run.  The result carries the latched denial of its polls. -/
def runContent (cfg : Config) (id : Nat) (operation : Row) (priorRunning : Bool)
    (steamLogin name : String) (identity : Identity) :
    Body ExecutionReport (ContentResult × Option String) :=
  handling (ownAndInstall cfg id operation priorRunning steamLogin name identity) Exn.isOSError
    fun x =>
      if x = .targetEscaped then
        finishAborted id (some priorRunning) "install target escaped containment during stop"
          "install target changed during client stop"
      else
        finishFailure id (some priorRunning) ("content adapter error: " ++ x.className)
          "content adapter failed before completing"

/-! ## Between the run and adoption -/

/-- A denial, latched or read now, ends the operation as failed. -/
def unlessLatched (cfg : Config) (id : Nat) (operation : Row) (priorRunning : Bool)
    (latch : Option String) : Body ExecutionReport Unit :=
  match latch with
  | some denial => finishFailure id (some priorRunning) denial denial
  | none =>
    unlessDenied cfg operation fun denial => finishFailure id (some priorRunning) denial denial

/-- The result, the window and the manifest that steamcmd wrote. -/
def checkResult (cfg : Config) (id : Nat) (operation : Row) (priorRunning : Bool) (name : String)
    (result : ContentResult) (latch : Option String) : Body ExecutionReport Loc := do
  unlessLatched cfg id operation priorRunning latch
  if result.outcome = .authRequired then
    finishFailureAs id (some priorRunning) "auth_required: owner re-seed"
      "steamcmd needs re-authentication" .authRequired .failed
  else if result.outcome ≠ .installed then
    finishFailure id (some priorRunning) ("steamcmd failed: " ++ result.logName)
      ("steamcmd failed; see " ++ result.logName)
  else if ← ledger (windowValid id) then
    match ← fs (locateManifest name operation.appid) with
    | none =>
      finishFailure id (some priorRunning) "no steamcmd-written manifest"
        "steamcmd produced no manifest"
    | some source =>
      if (← fs (manifestAppidAt source)) ≠ some operation.appid then
        finishFailure id (some priorRunning) "manifest appid mismatch"
          "steamcmd manifest does not match the requested appid"
      else
        return source
  else
    finishFailure id (some priorRunning) "window lapsed during content run"
      "execution window lapsed during download"

/-- `not stopped or client_possibly_running()`, negated. -/
def stopForGood (id : Nat) : Body ρ Bool := do
  if ← stopClient id then
    return !(← clientPossiblyRunning id)
  else
    return false

/-- Stop a client that came back during the run. -/
def stopLateClient (cfg : Config) (id : Nat) (operation : Row) (priorRunning : Bool) :
    Body ExecutionReport Unit := do
  if ← clientPossiblyRunning id then
    unlessDenied cfg operation fun denial => finishFailure id (some priorRunning) denial denial
    if ← stopForGood id then
      return ()
    else
      finishFailure id (some priorRunning) "client restarted mid-operation; adoption skipped"
        "client restarted mid-operation; adoption skipped"
  else
    return ()

/-- The lease before adoption. -/
def lateLease (cfg : Config) (id : Nat) (operation : Row) (priorRunning : Bool)
    (identity : Identity) : Body ExecutionReport Unit := do
  if (← libraryIdentity) ≠ some identity then
    finishFailure id (some priorRunning) "library mount changed during content run"
      "library mount changed during content run; adoption skipped"
  else
    let g ← gates id
    if g.allClear = false then
      finishFailure id (some priorRunning) "lease gates regressed before adoption"
        "lease gates regressed before adoption; adoption skipped"
    else
      stopLateClient cfg id operation priorRunning
      unlessDenied cfg operation fun denial => finishFailure id (some priorRunning) denial denial
      ledger (transition id .adopting none none none)

/-! ## Adoption and verdict -/

/-- The text of an adoption failure in the ledger. -/
def adoptionReason : Exn → String
  | .adoptionError message => message
  | x => "filesystem error: " ++ x.className

/-- The repair after an adoption error. -/
def repairAdoption (cfg : Config) (id : Nat) (operation : Row) (priorRunning : Bool) (x : Exn) :
    Body ExecutionReport Unit := do
  let verdict ←
    handling (recovering id (reconcileAdoption cfg.paths operation.appid (some id)))
      Exn.isAdoptionOrOSError fun _ => do
        let _ ← restoreClient id (some priorRunning)
        finish ⟨id, .aborted, "adoption journal unreadable; state left for reconcile"⟩
  if verdict = .completed then
    return ()
  else
    finishFailure id (some priorRunning)
      ("adoption failed: " ++ adoptionReason x ++ "; journal " ++ verdict.text)
      ("adoption failed: " ++ adoptionReason x)

/-- Adoption.  The destination is the location it returns on every path. -/
def adoptContent (cfg : Config) (id : Nat) (operation : Row) (priorRunning : Bool) (name : String)
    (source : Loc) : Body ExecutionReport Unit :=
  handling (do let _ ← adopting id (adoptManifest cfg.paths source operation.appid name id))
    Exn.isAdoptionOrOSError (repairAdoption cfg id operation priorRunning)

/-- The journal and the ownership marker are no longer needed. -/
def retireRecords (appid : Nat) : FsProg Unit := do
  clearAdoptionJournal appid
  unlink (.owned appid) true

/-- From adoption to the restored client. -/
def finishAdoption (id : Nat) (operation : Row) (priorRunning : Bool) :
    Body ExecutionReport Unit := do
  ledger (transition id .clientRestartPending none none none)
  handling (fs (retireRecords operation.appid)) Exn.isOSError fun _ => do
    let _ ← restoreClient id (some priorRunning)
    finish ⟨id, .aborted, "journal cleanup failed; state left for reconcile retry"⟩
  if ← restoreClient id (some priorRunning) then
    ledger (transition id .verifying none none none)
  else
    finish ⟨id, .aborted, "client restore failed; state left for reconcile retry"⟩

/-- `f"manifest StateFlags={flags}"`. -/
def flagsText (flags : Option Nat) : String :=
  "manifest StateFlags=" ++ (flags.elim "None" toString)

/-- The verdict of an execution. -/
def verdictOf (id : Nat) (operation : Row) (priorRunning : Bool) :
    Body ExecutionReport ExecutionReport := do
  if (← fs (manifestAppidAt (.manifest operation.appid))) ≠ some operation.appid then
    ledger (transition id .unconfirmed (some "manifest appid mismatch") none none)
    return ⟨id, .unconfirmed, "adopted manifest no longer matches the requested appid"⟩
  else
    let flags ← fs (manifestStateFlagsAt (.manifest operation.appid))
    if flags = some 4 then
      if ← fs (pathExists (.downloading operation.appid)) then
        ledger (transition id .contradicted (some "client re-downloading after adoption") none none)
        return ⟨id, .contradicted, "client rejected the adopted manifest and is re-downloading"⟩
      else if priorRunning then
        ledger (transition id .confirmed (some "client_adopted; first_run_required") none none)
        return ⟨id, .confirmed, "content present and adopted; first run still required"⟩
      else
        ledger (transition id .confirmed
          (some "content_present; client validation deferred to next client start") none none)
        return ⟨id, .confirmed, "content present and adopted; client validation deferred" ++
          " to next client start; first run still required"⟩
    else
      ledger (transition id .unconfirmed (some (flagsText flags)) none none)
      return ⟨id, .unconfirmed,
        "adoption not confirmed (StateFlags=" ++ flags.elim "None" toString ++ ")"⟩

/-! ## The method -/

/-- An install or a verify, from the first check to the verdict. -/
def executeContent (cfg : Config) (id : Nat) (operation : Row) (resuming : Bool) :
    Body ExecutionReport ExecutionReport := do
  let (steamLogin, identity) ← contentGate cfg id operation resuming
  let name ← admitContent cfg id operation
  let g ← leaseGates id
  let priorRunning ← stopForContent cfg id operation resuming g
  startContent cfg id operation resuming priorRunning identity
  let (result, latch) ← runContent cfg id operation priorRunning steamLogin name identity
  let source ← checkResult cfg id operation priorRunning name result latch
  lateLease cfg id operation priorRunning identity
  adoptContent cfg id operation priorRunning name source
  finishAdoption id operation priorRunning
  verdictOf id operation priorRunning

/-- Whether a game or a Remote Play session is running. -/
def LeaseGates.busy (g : LeaseGates) : Bool :=
  g.gameRunning != .pass || g.remotePlay != .pass

/-- Start the client for a launch, unless it is there. -/
def startIfAbsent (id : Nat) (g : LeaseGates) : Body ρ Bool :=
  if g.clientRunning = .fail then return true else startClient id

/-- The checks of a launch before its dispatch. -/
def checkLaunch (cfg : Config) (id : Nat) (operation : Row) : Body ExecutionReport Unit := do
  if ← ledger (windowValid id) then
    let g ← gates id
    if g.busy then
      finish ⟨id, .deferred, "session busy: " ++
        "game=" ++ g.gameRunning.text ++ " remote_play=" ++ g.remotePlay.text⟩
    else if g.clientRunning = .unknown then
      finish ⟨id, .deferred, "client presence unknown (probe error); deferred"⟩
    else
      if (← startIfAbsent id g) = false then
        finish ⟨id, .deferred, "client would not start; deferred"⟩
      else
        let g ← gates id
        if g.busy then
          finish ⟨id, .deferred, "session became busy before launch; deferred"⟩
        else if g.clientRunning ≠ .fail then
          finish ⟨id, .deferred, "client presence not confirmed before launch"⟩
        else if ← ledger (windowValid id) then
          if cfg.hasDispatchPolicy then
            match ← orRaise (← dispatchPolicy operation) with
            | none => return ()
            | some denial =>
              ledger (transition id .aborted (some denial) none (some .authorized))
              finish ⟨id, .aborted, denial⟩
          else
            return ()
        else
          let _ ← ledger expireLapsed
          finish ⟨id, .aborted, "execution window lapsed before launch dispatch"⟩
  else
    let _ ← ledger expireLapsed
    finish ⟨id, .aborted, "execution window lapsed"⟩

/-- `_launch`. -/
def launch (cfg : Config) (id : Nat) (operation : Row) :
    Body ExecutionReport ExecutionReport := do
  if operation.state ≠ .authorized then
    return ⟨id, .aborted, "not executable: " ++ operation.state.text⟩
  else
    checkLaunch cfg id operation
    ledger (transition id .dispatchPending (some "launch dispatch intent recorded") none
      (some .authorized))
    if ← launchApp id operation.appid then
      ledger (transition id .dispatched (some "launch requested; playability not observed") none
        (some .dispatchPending))
      return ⟨id, .dispatched, "launch requested; this broker does not observe whether the" ++
        " game became playable"⟩
    else
      ledger (transition id .unconfirmed
        (some "launch command did not acknowledge acceptance; not replayable") none
        (some .dispatchPending))
      return ⟨id, .unconfirmed, "launch acceptance unknown; request will not be replayed"⟩

/-- `Executor._execute_locked`. -/
def executeLocked (cfg : Config) (id : Nat) : Body ExecutionReport ExecutionReport := do
  let operation ← ledger (Ledger.get id)
  if operation.state ≠ .authorized ∧ operation.state ≠ .interrupted then
    return ⟨id, .aborted, "not executable: " ++ operation.state.text⟩
  else if operation.operation = .launch then
    launch cfg id operation
  else if operation.operation = .stop then
    return ⟨id, .aborted, "operation requires a different executor"⟩
  else
    executeContent cfg id operation (operation.state == .interrupted)

end SteamAgent.Execution
