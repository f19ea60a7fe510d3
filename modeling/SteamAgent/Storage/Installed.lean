import SteamAgent.Storage.Wishlist

/-!
# The installed methods

`record_installed_observation` and `finish_installed_sync`, each as one
transaction.

`evidence` stands for what `_insert_evidence` answers or raises in it.
-/

namespace SteamAgent.Storage

open Datetime (Aware)

/-! ## Terminal runs -/

/-- The text of a status in a message. -/
def SyncStatus.text : SyncStatus → String
  | running => "running"
  | complete => "complete"
  | partialRun => "partial"
  | failed => "failed"

/-- `UPDATE sync_runs SET status = ?, completed_at = ?, …`. -/
def SyncRun.finish (status : SyncStatus) (completedAt : String) (promoted : Bool)
    (errorCode errorDetail : Option String) (r : SyncRun) : SyncRun :=
  { r with status, completedAt := some completedAt, promoted, errorCode, errorDetail }

/-- Whether a terminal run ended in the way that a call asks for. -/
def SyncRun.finishedAs (status : SyncStatus) (completedAt : String)
    (errorCode errorDetail : Option String) (r : SyncRun) : Bool :=
  r.status == status && r.completedAt == some completedAt && r.errorCode == errorCode &&
    r.errorDetail == errorDetail

/-- `sync run … is already …`. -/
def alreadyTerminal (run : SyncRun) : Exn :=
  .invalidSyncTransition ("sync run " ++ toString run.id ++ " is already " ++ run.status.text)

/-! ## Recording -/

/-- `InstalledObservation`. -/
structure InstalledObservation where
  appid : Int
  libraryRoot : String
  installDir : String
  observedAt : Aware
  name : Option String
  appType : String
  state : String
  buildId : Option String
  sizeBytes : Option Int
  manifestPath : Option String
  manifestMtime : Option Aware
  residualState : Option String
  residualCompatdataBytes : Option Int
  residualShadercacheBytes : Option Int
  residualWorkshopBytes : Option Int

/-- The `CHECK` constraints on the residual columns. -/
def InstalledObservation.residualsChecked (observation : InstalledObservation) : Bool :=
  (observation.residualState.all fun state => ["measured", "partial", "unknown"].contains state) &&
    [observation.residualCompatdataBytes, observation.residualShadercacheBytes,
      observation.residualWorkshopBytes].all fun bytes => bytes.all fun n => 0 ≤ n

/-- `INSERT INTO … ON CONFLICT DO UPDATE SET …`.  `same` is the conflict and
`merge` the update of the row that is there. -/
def upsert {α : Type} (same : α → α → Bool) (merge : α → α → α) (row : α) (rows : List α) :
    List α :=
  if rows.any (same row) then
    rows.map fun r => if same row r then merge row r else r
  else
    rows ++ [row]

/-- `ON CONFLICT(sync_run_id, appid)`. -/
def sameObservation {σ φ : Type} (o o' : Observation σ Int φ) : Bool :=
  o'.syncRunId == o.syncRunId && o'.key == o.key

/-- `_require_running_installed_sync`. -/
def requireRunningInstalledSync (runs : Runs) (id : Nat) : Except Exn SyncRun := do
  let run ← getSyncRun runs id
  require (run.capability = "installed")
    (.invalidSyncTransition "sync run is not an installed scan")
  require (run.status = .running) (alreadyTerminal run)
  return run

/-- The machine of an installed sync. -/
def requireMachine (run : SyncRun) : Except Exn String :=
  match run.machineId with
  | some machineId => .ok machineId
  | none => .error (.invalidSyncTransition "installed sync requires a machine_id")

/-- The row of an observation. -/
def installedRow (id : Nat) (machineId : String) (observation : InstalledObservation)
    (evidenceId : Nat) (observedAt : String) (manifestMtime : Option String) :
    Observation String Int InstalledRecord :=
  ⟨id, machineId, observation.appid,
    { name := observation.name
      appType := observation.appType
      facts :=
        { evidenceId
          libraryRoot := observation.libraryRoot
          installDir := observation.installDir
          state := observation.state
          buildId := observation.buildId
          sizeBytes := observation.sizeBytes
          manifestPath := observation.manifestPath
          manifestMtime
          observedAt
          residualState := observation.residualState
          residualCompatdataBytes := observation.residualCompatdataBytes
          residualShadercacheBytes := observation.residualShadercacheBytes
          residualWorkshopBytes := observation.residualWorkshopBytes } }⟩

/-- `record_installed_observation`. -/
def recordInstalledObservation (id : Nat) (observation : InstalledObservation)
    (evidenceCapability : String) (evidence : Except Exn Nat) (db : Db) :
    Except Exn (Nat × Db) := do
  let observedAt ← timestamp observation.observedAt
  let manifestMtime ← observation.manifestMtime.mapM timestamp
  require (0 < observation.appid) (.valueError "appid must be positive")
  require (observation.sizeBytes.all fun size => 0 ≤ size)
    (.valueError "size_bytes cannot be negative")
  let run ← requireRunningInstalledSync db.runs id
  let machineId ← requireMachine run
  require (evidenceCapability = "installed")
    (.valueError "installed observations require installed evidence")
  let evidenceId ← evidence
  require observation.residualsChecked .integrityError
  let observations := upsert sameObservation (fun row o => { o with facts := row.facts })
    (installedRow id machineId observation evidenceId observedAt manifestMtime)
    db.installedObservations
  return (evidenceId, { db with
    installedObservations := observations
    runs := db.runs.set id fun r =>
      { r with recordsSeen := (observations.filter fun o => o.syncRunId == id).length } })

/-! ## Finishing -/

/-- Whether a newer run of the machine is complete. -/
def newerCompleteOnMachine (runs : Runs) (capability machineId : String) (id : Nat) : Bool :=
  runs.rows.any fun r => r.capability == capability && r.machineId == some machineId &&
    id < r.id && r.status == .complete

/-- `ON CONFLICT(machine_id, appid)`. -/
def sameCurrent {κ φ : Type} [BEq κ] (c c' : Current String κ φ) : Bool :=
  c'.subject == c.subject && c'.key == c.key

/-- `_promote_installed`: the rows of the run are upserted, and the other rows of
the machine deleted. -/
def promoteInstalled (machineId : String) (id : Nat) (db : Db) : Db :=
  let rows := (db.installedObservations.filter fun o => o.syncRunId == id).map
    (Observation.promoted InstalledRecord.facts)
  let current := rows.foldl (fun current row => upsert sameCurrent (fun row _ => row) row current)
    db.installedCurrent
  { db with
    installedCurrent := current.filter fun c =>
      !(c.subject == machineId && !rows.any fun row => row.key == c.key) }

/-- `finish_installed_sync`.  It answers the run where it was finished before. -/
def finishInstalledSync (id : Nat) (status : SyncStatus) (completedAt : Aware)
    (errorCode errorDetail : Option String) (db : Db) : Except Exn (Option SyncRun × Db) := do
  require (status ≠ .running) (.valueError "status must be complete, partial, or failed")
  let timestamp ← timestamp completedAt
  let existing ← getSyncRun db.runs id
  require (existing.capability = "installed")
    (.invalidSyncTransition "sync run is not an installed scan")
  if existing.status ≠ .running then
    require (existing.finishedAs status timestamp errorCode errorDetail) (alreadyTerminal existing)
    return (some existing, db)
  else
    let machineId ← requireMachine existing
    let promoted := status == .complete &&
      !newerCompleteOnMachine db.runs "installed" machineId id
    let db := if promoted then promoteInstalled machineId id db else db
    return (none, { db with
      runs := db.runs.set id (SyncRun.finish status timestamp promoted errorCode errorDetail) })

end SteamAgent.Storage
