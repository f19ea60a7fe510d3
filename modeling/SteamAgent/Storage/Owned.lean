import SteamAgent.Storage.Installed

/-!
# The owned-library methods

`record_owned_snapshot`, `complete_owned_snapshot` and `finish_owned_sync`, each
as one transaction.

`evidence` stands for the ids that `_insert_evidence` answers in a transaction.
-/

namespace SteamAgent.Storage

open Datetime (Aware)

/-! ## The snapshot -/

/-- `OwnedObservation`. -/
structure OwnedObservation where
  appid : Int
  playtimeForeverMinutes : Option Int
  inclusionBasis : String
  observedAt : Aware
  name : Option String

/-- The arguments of `record_owned_snapshot`. -/
structure OwnedSnapshot where
  observations : List OwnedObservation
  baseRetrievedAt : Aware
  expandedRetrievedAt : Aware
  baseReportedCount : Int
  expandedReportedCount : Int
  supportLevel : String

/-- The checks on the observations of a snapshot, and their times.  `seen` is
the AppIDs before them. -/
def normalizeOwned : List Int → List OwnedObservation →
    Except Exn (List (OwnedObservation × String))
  | _, [] => return []
  | seen, observation :: rest => do
    require (0 < observation.appid ∧ observation.appid ∉ seen)
      (.valueError "owned AppIDs must be positive and unique")
    require (observation.playtimeForeverMinutes.all fun minutes => 0 ≤ minutes)
      (.valueError "owned playtime cannot be negative")
    require (observation.inclusionBasis = "visible_owned" ∨
        observation.inclusionBasis = "played_free")
      (.valueError "unsupported owned inclusion basis")
    require (observation.name.all fun name =>
        name.length ≤ 512 && name.toList.all fun c => 32 ≤ c.toNat)
      (.valueError "owned name is invalid")
    let observed ← timestamp observation.observedAt
    let rest ← normalizeOwned (observation.appid :: seen) rest
    return (observation, observed) :: rest

/-- Whether the reported counts are those of the observations. -/
def OwnedSnapshot.countsMatch (s : OwnedSnapshot) : Bool :=
  s.baseReportedCount ==
      (s.observations.filter fun o => o.inclusionBasis == "visible_owned").length &&
    s.expandedReportedCount == s.observations.length

/-- The row of an observation. -/
def ownedRow (evidence : Int → Nat) (id accountId : Nat) (item : OwnedObservation × String) :
    Observation Nat Int OwnedFacts :=
  ⟨id, accountId, item.1.appid,
    ⟨evidence item.1.appid, item.1.name, item.1.playtimeForeverMinutes, item.1.inclusionBasis,
      item.2⟩⟩

/-- `_require_owned_sync`, with the account. -/
def requireOwnedSync (runs : Runs) (id : Nat) : Except Exn (SyncRun × Nat) := do
  let run ← getSyncRun runs id
  require (run.capability = "owned.visible.read")
    (.invalidSyncTransition "sync run is not an owned-library sync")
  match run.accountId, run.machineId with
  | some accountId, none => return (run, accountId)
  | _, _ => .error (.invalidSyncTransition "owned sync requires only an account_id")

/-- `_require_running_owned_sync`, with the account. -/
def requireRunningOwnedSync (runs : Runs) (id : Nat) : Except Exn (SyncRun × Nat) := do
  let (run, accountId) ← requireOwnedSync runs id
  require (run.status = .running) (alreadyTerminal run)
  return (run, accountId)

/-- Whether the snapshot of a run is recorded. -/
def ownedRecorded (db : Db) (id : Nat) : Bool :=
  db.ownedMetadata.any fun m => m.syncRunId == id

/-- `record_owned_snapshot`. -/
def recordOwnedSnapshot (evidence : Int → Nat) (id : Nat) (s : OwnedSnapshot) (db : Db) :
    Except Exn (List Nat × Db) := do
  let baseRetrieved ← timestamp s.baseRetrievedAt
  let expandedRetrieved ← timestamp s.expandedRetrievedAt
  require (s.supportLevel ≠ "" ∧ s.supportLevel.length ≤ 128)
    (.valueError "support_level must be between 1 and 128 characters")
  require (0 ≤ s.baseReportedCount ∧ 0 ≤ s.expandedReportedCount)
    (.valueError "owned reported counts must be nonnegative integers")
  let normalized ← normalizeOwned [] s.observations
  require s.countsMatch (.valueError "owned reported counts do not match normalized records")
  let (run, accountId) ← requireRunningOwnedSync db.runs id
  require (!ownedRecorded db id) (.invalidSyncTransition "owned snapshot is already recorded")
  require (accountConsent db accountId "owned_persistence").isSome
    (.invalidSyncTransition "owned persistence consent is required")
  return (normalized.map fun item => evidence item.1.appid, { db with
    ownedMetadata := db.ownedMetadata ++ [⟨id, accountId, run.provider, s.supportLevel,
      baseRetrieved, s.baseReportedCount, expandedRetrieved, s.expandedReportedCount⟩]
    ownedObservations := db.ownedObservations ++ normalized.map (ownedRow evidence id accountId)
    runs := db.runs.set id fun r => { r with recordsSeen := normalized.length } })

/-! ## Promoting -/

/-- `_promote_owned`. -/
def promoteOwned (accountId id : Nat) (db : Db) : Db :=
  { db with
    ownedCurrent := db.ownedCurrent.filter (fun c => !(c.subject == accountId)) ++
      (db.ownedObservations.filter fun o => o.syncRunId == id && o.subject == accountId).map
        (Observation.promoted (φ := OwnedFacts) fun facts => facts) }

/-- `_prune_owned_payloads`, for every other terminal run or for one run only. -/
def pruneOwnedPayloads (accountId selected : Nat) (keepSelected : Bool) (db : Db) : Db :=
  let gone := fun subject id =>
    subject == accountId && if keepSelected then id != selected && db.terminal id else id == selected
  { db with
    ownedObservations := db.ownedObservations.filter fun o => !gone o.subject o.syncRunId
    ownedMetadata := db.ownedMetadata.filter fun m => !gone m.accountId m.syncRunId }

/-- The promotion of a complete run, unless a newer one is complete, with the
pruning: whether it was promoted, and the database. -/
def settleOwned (accountId id : Nat) (db : Db) : Bool × Db :=
  let promoted := !newerComplete db.runs "owned.visible.read" accountId id
  let db := if promoted then promoteOwned accountId id db else db
  (promoted, pruneOwnedPayloads accountId id promoted db)

/-- `complete_owned_snapshot`. -/
def completeOwnedSnapshot (evidence : Int → Nat) (id : Nat) (s : OwnedSnapshot)
    (completedAt : Aware) (db : Db) : Except Exn Db := do
  let completed ← timestamp completedAt
  let (_, accountId) ← requireRunningOwnedSync db.runs id
  let (_, db) ← recordOwnedSnapshot evidence id s db
  let (promoted, db) := settleOwned accountId id db
  return { db with runs := db.runs.set id (SyncRun.finish .complete completed promoted none none) }

/-- `finish_owned_sync`.  It answers the run where it was finished before. -/
def finishOwnedSync (id : Nat) (status : SyncStatus) (completedAt : Aware)
    (errorCode errorDetail : Option String) (db : Db) : Except Exn (Option SyncRun × Db) := do
  require (status ≠ .running) (.valueError "status must be complete, partial, or failed")
  let timestamp ← timestamp completedAt
  let (existing, accountId) ← requireOwnedSync db.runs id
  if existing.status ≠ .running then
    require (existing.finishedAs status timestamp errorCode errorDetail) (alreadyTerminal existing)
    return (some existing, db)
  else
    require (status = .complete → ownedRecorded db id)
      (.invalidSyncTransition "a complete owned sync requires a recorded snapshot")
    let (promoted, db) :=
      if status = .complete then settleOwned accountId id db
      else (false, pruneOwnedPayloads accountId id false db)
    return (none, { db with
      runs := db.runs.set id (SyncRun.finish status timestamp promoted errorCode errorDetail) })

end SteamAgent.Storage
