import SteamAgent.Storage.Installed

/-!
# The system-profile methods

`begin_system_profile_sync` and `complete_system_profile_sync`, each as one
transaction, and `finish_system_profile_sync_failed`, which checks the run before
its transaction begins.

`validate` stands for what `validate_system_profile` returns or raises, and
`evidence` for the id that `_insert_evidence` answers in a transaction.
-/

namespace SteamAgent.Storage

open Datetime (Aware)

/-! ## Beginning -/

/-- `get_system_profile_consent`, checked against a version. -/
def requireProfileConsent (db : Db) (machineId disclosureVersion : String) : Except Exn Unit :=
  require ((db.machineConsents.find? fun c => c.machineId == machineId).any fun c =>
      c.disclosureVersion == disclosureVersion)
    (.invalidSyncTransition "current system-profile consent is required")

/-- A run of a machine. -/
def SyncRun.ofMachine (capability machineId : String) (r : SyncRun) : Bool :=
  r.capability == capability && r.machineId == some machineId

/-- A profile sync that was given up. -/
def abandonedProfileSync (machineId cutoff : String) (r : SyncRun) : Bool :=
  r.ofMachine "system_profile.read" machineId && r.status == .running &&
    pastCutoff r.startedAt cutoff

/-- A profile sync whose history has expired, and which is not promoted. -/
def expiredProfileSync (db : Db) (machineId cutoff : String) (r : SyncRun) : Bool :=
  r.ofMachine "system_profile.read" machineId &&
    (r.completedAt.any fun completedAt => pastCutoff completedAt cutoff) &&
    !db.profileCurrent.any fun c => c.subject == machineId && c.promotedSyncRunId == r.id

/-- `begin_system_profile_sync`. -/
def beginSystemProfileSync (machineId disclosureVersion : String) (startedAt : Aware) (db : Db) :
    Except Exn (Nat × Db) := do
  let timestamp ← timestamp startedAt
  requireProfileConsent db machineId disclosureVersion
  let abandonedCutoff ← cutoffMinutes timestamp 15
  let db := { db with
    runs := db.runs.update (abandonedProfileSync machineId abandonedCutoff)
      (SyncRun.finish .failed timestamp false (some "SYNC_ABANDONED") none) }
  let cutoff ← cutoffDays timestamp 30
  let db := db.deleteRuns (expiredProfileSync db machineId cutoff)
  let runs := db.runs.insert
    (runningSync "local_system" "system_profile.read" (some machineId) none timestamp)
  return (runs.last, { db with runs })

/-! ## Completing -/

/-- `str.casefold` and `str.strip`. -/
structure TextLibrary where
  casefold : String → String
  strip : String → String

/-- A profile that passed its checks: whether it is complete, the values that
are compared with the machine, and its canonical text. -/
structure ValidatedProfile where
  complete : Bool
  family : String
  architecture : String
  json : String

/-- `canonical_architecture`. -/
def canonicalArchitecture (text : TextLibrary) (value : Option String) : Option String :=
  match value with
  | none => none
  | some "" => none
  | some value =>
    let folded := text.casefold (text.strip value)
    let normalized := String.ofList (folded.toList.map fun c => if c = '-' then '_' else c)
    [("amd64", "x86_64"), ("x64", "x86_64"), ("x86_64", "x86_64"), ("i386", "x86"),
      ("i486", "x86"), ("i586", "x86"), ("i686", "x86"), ("x86", "x86"), ("aarch64", "arm64"),
      ("arm64", "arm64"), ("armv7l", "armv7"), ("armv7", "armv7"), ("ppc64le", "ppc64le"),
      ("riscv64", "riscv64")].lookup normalized

/-- The family of a configured platform. -/
def storedFamily (text : TextLibrary) (machine : Machine) (profileFamily : String) :
    Option String :=
  [("darwin", "macos"), ("macos", "macos"), ("win32", "windows"), ("windows", "windows"),
    ("linux", "linux"), ("unknown", profileFamily)].lookup (text.casefold machine.platform)

/-- Whether a profile is of another machine than the configured one. -/
def profileConflicts (text : TextLibrary) (machine : Machine) (profile : ValidatedProfile) : Bool :=
  storedFamily text machine profile.family != some profile.family ||
    (machine.architecture.isSome &&
      canonicalArchitecture text machine.architecture != some profile.architecture)

/-- A profile sync that is running, with its machine. -/
def requireRunningProfileSync (db : Db) (id : Nat) : Except Exn (SyncRun × String) := do
  let run ← getSyncRun db.runs id
  match run.machineId with
  | some machineId =>
    require (run.capability = "system_profile.read" ∧ run.status = .running)
      (.invalidSyncTransition "system-profile sync is not running")
    return (run, machineId)
  | none => .error (.invalidSyncTransition "system-profile sync is not running")

/-- `get_machine`, which finds the machine of a run. -/
def requireKnownMachine (db : Db) (machineId : String) : Except Exn Machine :=
  match db.machines.find? fun m => m.id == machineId with
  | some machine => .ok machine
  | none => .error (.storageError "AssertionError")

/-- The promotion of a profile, unless a newer one is complete, and its end. -/
def settleProfile (db : Db) (machineId : String) (id : Nat)
    (row : Observation String Unit ProfileFacts) (completed : String) : Db :=
  let promoted := !newerCompleteOnMachine db.runs "system_profile.read" machineId id
  { db with
    profileCurrent :=
      if promoted then
        upsert sameCurrent (fun row _ => row) (row.promoted fun facts => facts) db.profileCurrent
      else db.profileCurrent
    runs := db.runs.set id (SyncRun.completeClean promoted 1 completed) }

/-- `complete_system_profile_sync`. -/
def completeSystemProfileSync (text : TextLibrary) (evidence : Nat) (id : Nat)
    (validate : Except Exn ValidatedProfile) (observedAt completedAt : Aware)
    (disclosureVersion : String) (db : Db) : Except Exn Db := do
  let profile ← validate
  require profile.complete (.valueError "only a complete system profile can be promoted")
  let observed ← timestamp observedAt
  let completed ← timestamp completedAt
  let (_, machineId) ← requireRunningProfileSync db id
  requireProfileConsent db machineId disclosureVersion
  let machine ← requireKnownMachine db machineId
  require (!profileConflicts text machine profile)
    (.invalidSyncTransition "system profile conflicts with the configured machine")
  -- the primary key of `system_profile_observations`
  require (!db.profileObservations.any fun o => o.syncRunId == id) .integrityError
  let row : Observation String Unit ProfileFacts :=
    ⟨id, machineId, (), ⟨evidence, "system-profile/0.1", profile.json, observed⟩⟩
  let db := { db with profileObservations := db.profileObservations ++ [row] }
  return settleProfile db machineId id row completed

/-! ## Failing -/

/-- What `finish_system_profile_sync_failed` writes. -/
structure ProfileFailure where
  status : SyncStatus
  errorCode : String
  completedAt : Aware
  completed : String
  failed : status = .partialRun ∨ status = .failed
  stamp : timestamp completedAt = .ok completed

/-- The checks of `finish_system_profile_sync_failed`.  The connection opens a
transaction with its first `UPDATE` only, so the run is read outside of it. -/
def checkSystemProfileSyncFailed (id : Nat) (status : SyncStatus) (errorCode : String)
    (completedAt : Aware) (db : Db) : Except Exn ProfileFailure :=
  if h : (status = .partialRun ∨ status = .failed) ∧ errorCode ≠ "" then
    match stamp : timestamp completedAt with
    | .error x => .error x
    | .ok completed => do
      let run ← getSyncRun db.runs id
      require (run.capability = "system_profile.read" ∧ run.status = .running)
        (.invalidSyncTransition "system-profile sync is not running")
      return ⟨status, errorCode, completedAt, completed, h.1, stamp⟩
  else
    .error (.valueError "system-profile failure is invalid")

/-- The `UPDATE` of `finish_system_profile_sync_failed`.  It has no condition on the
status, so it takes the run as it is by then. -/
def finishSystemProfileSyncFailed (id : Nat) (failure : ProfileFailure) (db : Db) : Db :=
  { db with
    runs := db.runs.set id
      (SyncRun.finish failure.status failure.completed false (some failure.errorCode) none) }

end SteamAgent.Storage
