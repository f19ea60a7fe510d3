import SteamAgent.Storage.Reviews

/-!
# The achievement methods

`begin_achievement_sync`, `record_achievement_result`, `finish_achievement_sync`,
`mark_remaining_achievements_unevaluated` and `read_achievement_snapshot`, each
as one transaction.
-/

namespace SteamAgent.Storage

open Datetime (Aware)

/-! ## Beginning -/

/-- The row of a candidate. -/
def achievementDemandRow (id accountId : Nat) (targeted : List Int) (candidate : Int × Nat) :
    SyncDemand where
  syncRunId := id
  accountId := accountId
  appid := candidate.1
  ordinal := candidate.2
  targeted := candidate.1 ∈ targeted
  evaluated := false
  state := if candidate.1 ∈ targeted then "running" else "unevaluated"
  errorCode := none
  observedAt := none

/-- `begin_achievement_sync`. -/
def beginAchievementSync (accountId : Nat) (candidates targeted : List Int) (startedAt : Aware)
    (disclosureVersion : String) (db : Db) : Except Exn (Nat × Db) := do
  let timestamp ← timestamp startedAt
  require (candidates.Nodup ∧ targeted.all fun appid => appid ∈ candidates)
    (.valueError "achievement demand is invalid")
  requireActivityConsent db accountId disclosureVersion
  let db ← pruneBehavioral accountId timestamp db
  require (candidates.all fun appid => 0 < appid) .integrityError
  let runs := db.runs.insert
    (runningSync "steam_web_api" "achievements.read" none (some accountId) timestamp)
  return (runs.last, { db with
    runs
    achievementDemand := db.achievementDemand ++
      candidates.zipIdx.map (achievementDemandRow runs.last accountId targeted) })

/-! ## Recording -/

/-- An item of `player`. -/
structure PlayerItem where
  apiName : String
  achieved : Bool
  unlockTimeUnix : Option Int

/-- An item of `schema`. -/
structure SchemaItem where
  apiName : String
  displayName : Option String
  description : Option String
  hidden : Bool

/-- The arguments of `record_achievement_result`. -/
structure AchievementResult where
  accountId : Nat
  appid : Int
  state : String
  player : List PlayerItem
  schemaState : String
  schema : List SchemaItem
  observedAt : Aware
  errorCode : Option String
  writeSchema : Bool
  disclosureVersion : String

/-- The keys and the `CHECK`s of the player tables. -/
def playerChecked (player : List PlayerItem) : Bool :=
  (player.map PlayerItem.apiName).Nodup && player.all fun item =>
    item.unlockTimeUnix.all fun time => 0 ≤ time

/-- The keys and the `CHECK`s of the schema tables. -/
def schemaChecked (schemaState : String) (schema : List SchemaItem) : Bool :=
  (schema.map SchemaItem.apiName).Nodup &&
    ["ready", "achievements_not_supported"].contains schemaState

/-- The demand of a target, and when its run started. -/
def achievementTarget (db : Db) (id accountId : Nat) (appid : Int) : Option (SyncDemand × String) :=
  match db.achievementDemand.find? fun d =>
      d.syncRunId == id && d.accountId == accountId && d.appid == appid && d.targeted,
    db.runs.get? id with
  | some demand, some run => some (demand, run.startedAt)
  | _, _ => none

/-- Whether a result replaces the current achievements of its app. -/
def promotesPlayer (db : Db) (accountId : Nat) (appid : Int) (startedAt : String) (id : Nat) :
    Bool :=
  match (db.playerProjection.find? fun c => c.accountId == accountId && c.appid == appid).bind
      fun c => db.runs.get? c.promotedSyncRunId with
  | none => true
  | some run => startedLater startedAt id run.startedAt run.id

/-- The row of an item of `player`. -/
def playerRow (q : AchievementResult) (id : Nat) (timestamp : String) (item : PlayerItem) :
    Observation Nat Int PlayerAchievement :=
  ⟨id, q.accountId, q.appid, ⟨item.apiName, item.achieved, item.unlockTimeUnix, timestamp⟩⟩

/-- The rows of the player, current if the result is promoted. -/
def recordPlayer (q : AchievementResult) (id : Nat) (timestamp startedAt : String) (db : Db) : Db :=
  let rows := q.player.map (playerRow q id timestamp)
  let db' := { db with playerObservations := db.playerObservations ++ rows }
  if promotesPlayer db q.accountId q.appid startedAt id then
    { db' with
      playerCurrent := db.playerCurrent.filter
          (fun c => !(c.subject == q.accountId && c.key == q.appid)) ++
        rows.map (Observation.promoted (φ := PlayerAchievement) fun facts => facts)
      playerProjection := db.playerProjection.filter
          (fun c => !(c.accountId == q.accountId && c.appid == q.appid)) ++
        [⟨q.accountId, q.appid, timestamp, id⟩] }
  else
    db'

/-- `existing_schema is None or existing_schema["observed_at"] <= timestamp`. -/
def replacesSchema (db : Db) (appid : Int) (timestamp : String) : Bool :=
  (db.schemaStatus.find? fun c => c.appid == appid).all fun c => c.observedAt ≤ timestamp

/-- The row of an item of `schema`. -/
def schemaRow (q : AchievementResult) (timestamp : String) (item : SchemaItem) :
    SchemaAchievement where
  appid := q.appid
  apiName := item.apiName
  state := q.schemaState
  displayName := item.displayName
  description := item.description
  hidden := item.hidden
  observedAt := timestamp

/-- The rows of the schema, unless a later one is stored. -/
def recordSchema (q : AchievementResult) (timestamp : String) (db : Db) : Db :=
  if replacesSchema db q.appid timestamp then
    { db with
      schemaCurrent := db.schemaCurrent.filter (fun c => c.appid != q.appid) ++
        q.schema.map (schemaRow q timestamp)
      schemaStatus := db.schemaStatus.filter (fun c => c.appid != q.appid) ++
        [⟨q.appid, q.schemaState, timestamp⟩] }
  else
    db

/-- `record_achievement_result`. -/
def recordAchievementResult (id : Nat) (q : AchievementResult) (db : Db) : Except Exn Db := do
  require (["ready", "profile_not_public", "achievements_not_supported", "failed"].contains q.state)
    (.valueError "achievement state is invalid")
  let timestamp ← timestamp q.observedAt
  requireActivityConsent db q.accountId q.disclosureVersion
  match achievementTarget db id q.accountId q.appid with
  | none => .error (.invalidSyncTransition "achievement target is not running")
  | some (demand, startedAt) =>
    require (demand.state = "running")
      (.invalidSyncTransition "achievement target is not running")
    require (q.state = "ready" → playerChecked q.player) .integrityError
    let db := if q.state = "ready" then recordPlayer q id timestamp startedAt db else db
    let writes := q.writeSchema && q.state != "failed"
    require (writes = true → replacesSchema db q.appid timestamp →
      schemaChecked q.schemaState q.schema) .integrityError
    let db := if writes then recordSchema q timestamp db else db
    return { db with
      achievementDemand := db.achievementDemand.map fun d =>
        if d.syncRunId == id && d.appid == q.appid then
          { d with evaluated := true, state := q.state, errorCode := q.errorCode,
                   observedAt := some timestamp }
        else d }

/-! ## Finishing -/

/-- `finish_achievement_sync`. -/
def finishAchievementSync (id : Nat) (completedAt : Aware) (db : Db) : Except Exn Db := do
  let completed ← timestamp completedAt
  match (db.runs.get? id).filter fun r =>
    r.capability == "achievements.read" && r.status == .running with
  | none => .error (.invalidSyncTransition "achievement sync run is not active")
  | some run =>
    let demand := db.achievementDemand.map fun d =>
      if d.syncRunId == id && d.state == "running" then
        { d with state := "failed", evaluated := true, errorCode := some "SYNC_INTERRUPTED",
                 observedAt := some completed }
      else d
    let db := { db with
      achievementDemand := demand
      runs := db.runs.set id (SyncRun.completeAt true (evaluatedCount demand id) completed) }
    match run.accountId with
    | some accountId => pruneBehavioral accountId completed db
    | none => .error (.storageError "TypeError")

/-- `mark_remaining_achievements_unevaluated`. -/
def markRemainingAchievementsUnevaluated (id : Nat) (observedAt : Aware) (errorCode : String)
    (db : Db) : Except Exn Db := do
  let timestamp ← timestamp observedAt
  return { db with
    achievementDemand := db.achievementDemand.map fun d =>
      if d.syncRunId == id && d.targeted && d.state == "running" then
        { d with state := "unevaluated", evaluated := false, errorCode := some errorCode,
                 observedAt := some timestamp }
      else d }

/-! ## The reader -/

/-- A row of `achievements`, with the columns of its schema. -/
structure AchievementView where
  player : PlayerAchievement
  displayName : Option String
  description : Option String
  hidden : Bool

/-- A row of a snapshot.  The name of the app is left out. -/
structure AchievementItem where
  demand : SyncDemand
  projectionObservedAt : Option String
  projectionSyncRunId : Option Nat
  achievements : List AchievementView

/-- What the reader reports of the achievements of an account. -/
structure AchievementSnapshot where
  items : List AchievementItem
  latest : Option SyncRun

/-- The run of the latest demand for an app. -/
def latestDemandRun (db : Db) (accountId : Nat) (appid : Int) : Option SyncRun :=
  limitOne byStart (db.runs.rows.filter fun r => db.achievementDemand.any fun d =>
    d.syncRunId == r.id && d.accountId == accountId && d.appid == appid)

/-- The demand that a snapshot selects, in the order of its AppIDs. -/
def selectedDemand (db : Db) (accountId : Nat) (appid : Option Int) : List SyncDemand :=
  (db.achievementDemand.filter fun d => d.accountId == accountId &&
    appid.all (fun appid => d.appid == appid) &&
    (latestDemandRun db accountId d.appid).any fun r => r.id == d.syncRunId).insertionSort
      fun d d' => d.appid ≤ d'.appid

/-- `LEFT JOIN achievement_schema_current`. -/
def achievementView (db : Db) (row : Current Nat Int PlayerAchievement) : AchievementView :=
  let schema := db.schemaCurrent.find? fun s => s.appid == row.key && s.apiName == row.facts.apiName
  ⟨row.facts, schema.bind SchemaAchievement.displayName, schema.bind SchemaAchievement.description,
    schema.any SchemaAchievement.hidden⟩

/-- The row of a snapshot for a demand. -/
def achievementItem (db : Db) (accountId : Nat) (demand : SyncDemand) : AchievementItem :=
  let projection := db.playerProjection.find? fun c =>
    c.accountId == accountId && c.appid == demand.appid
  let rows := (db.playerCurrent.filter fun c =>
    c.subject == accountId && c.key == demand.appid).insertionSort fun c c' =>
      c.facts.apiName ≤ c'.facts.apiName
  ⟨demand, projection.map PlayerProjection.observedAt,
    projection.map PlayerProjection.promotedSyncRunId, rows.map (achievementView db)⟩

/-- `read_achievement_snapshot`. -/
def readAchievementSnapshot (accountId : Nat) (appid : Option Int) (now : Option Aware) (db : Db) :
    Except Exn (AchievementSnapshot × Db) := do
  let db ← pruneAt accountId now db
  match limitOne byStart (db.runs.rows.filter fun r => r.ofAccount "achievements.read" accountId) with
  | none => return (⟨[], none⟩, db)
  | some latest =>
    return (⟨(selectedDemand db accountId appid).map (achievementItem db accountId), some latest⟩, db)

end SteamAgent.Storage
