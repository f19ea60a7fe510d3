import Mathlib.Data.List.Sort
import SteamAgent.Storage.Tables

/-!
# The activity methods

`begin_activity_sync`, `complete_activity_snapshot`, `finish_activity_sync_failed`
and the two readers of the activity that is current.

Each definition is one transaction.  It raises, and then the database stays as
it was, or it returns the database that it commits.  The `get_sync_run` after a
commit is not part of it.
-/

namespace SteamAgent.Storage

open Datetime (Instant Aware)

/-! ## Consents and retention -/

/-- `_require_steam_account`. -/
def requireSteamAccount (db : Db) (accountId : Nat) : Except Exn Unit :=
  require (db.accounts.any fun a => a.id == accountId && a.provider == "steam")
    (.valueError "Steam account is not configured")

/-- The consent of an account to keep data of a kind. -/
def accountConsent (db : Db) (accountId : Nat) (kind : String) : Option AccountDataConsent :=
  db.consents.find? fun c => c.accountId == accountId && c.consentKind == kind

/-- `_require_activity_consent`. -/
def requireActivityConsent (db : Db) (accountId : Nat) (disclosureVersion : String) :
    Except Exn Unit := do
  requireSteamAccount db accountId
  require ((accountConsent db accountId "activity_persistence").any fun c =>
      c.disclosureVersion == disclosureVersion && c.backupsAcknowledged)
    (.invalidSyncTransition "current activity persistence consent is required")

/-- `_timestamp(datetime.fromisoformat(now) - timedelta(days=days))`. -/
def cutoffDays (now : String) (days : Nat) : Except Exn String := do
  let evaluated ← readInstant now
  let cutoff ← earlier evaluated (days * Datetime.dayMicroseconds)
  return cutoff.text

/-- `_timestamp(datetime.fromisoformat(now) - timedelta(minutes=minutes))`. -/
def cutoffMinutes (now : String) (minutes : Nat) : Except Exn String := do
  let evaluated ← readInstant now
  let cutoff ← earlier evaluated (minutes * 60000000)
  return cutoff.text

/-- `observed_at < ?`, `started_at < ?`: whether a retention cutoff takes a row. -/
def pastCutoff (stored cutoff : String) : Bool :=
  stored < cutoff

/-- A run of an account. -/
def SyncRun.ofAccount (capability : String) (accountId : Nat) (r : SyncRun) : Bool :=
  r.capability == capability && r.accountId == some accountId

/-- `_prune_activity`. -/
def pruneActivity (accountId : Nat) (now : String) (db : Db) : Except Exn Db := do
  let cutoff ← cutoffDays now 7
  let db := db.deleteRuns fun r =>
    r.ofAccount "activity.read" accountId && pastCutoff r.startedAt cutoff
  return { db with
    activityCurrent := db.activityCurrent.filter fun c =>
      !(c.subject == accountId && pastCutoff c.facts.observedAt cutoff) }

/-- `_prune_achievements`. -/
def pruneAchievements (accountId : Nat) (now : String) (db : Db) : Except Exn Db := do
  let cutoff ← cutoffDays now 7
  let schemaCutoff ← cutoffDays now 30
  let db := db.deleteRuns fun r =>
    r.ofAccount "achievements.read" accountId && pastCutoff r.startedAt cutoff
  return { db with
    playerCurrent := db.playerCurrent.filter fun c =>
      !(c.subject == accountId && pastCutoff c.facts.observedAt cutoff)
    playerProjection := db.playerProjection.filter fun c =>
      !(c.accountId == accountId && pastCutoff c.observedAt cutoff)
    schemaCurrent := db.schemaCurrent.filter fun c => !pastCutoff c.observedAt schemaCutoff
    schemaStatus := (db.schemaStatus.filter fun c =>
      !(c.state == "ready" && pastCutoff c.observedAt schemaCutoff)).filter fun c =>
        !(c.state == "achievements_not_supported" && pastCutoff c.observedAt cutoff) }

/-- `_prune_behavioral`. -/
def pruneBehavioral (accountId : Nat) (now : String) (db : Db) : Except Exn Db := do
  let db ← pruneActivity accountId now db
  pruneAchievements accountId now db

/-! ## The methods -/

/-- The row that begins a sync. -/
def runningSync (provider capability : String) (machineId : Option String)
    (accountId : Option Nat) (startedAt : String) : SyncRun where
  id := 0
  provider := provider
  capability := capability
  machineId := machineId
  accountId := accountId
  startedAt := startedAt
  completedAt := none
  status := .running
  promoted := false
  recordsSeen := 0
  errorCode := none
  errorDetail := none

/-- `begin_activity_sync`. -/
def beginActivitySync (accountId : Nat) (disclosureVersion : String) (startedAt : Aware)
    (db : Db) : Except Exn (Nat × Db) := do
  let timestamp ← timestamp startedAt
  requireActivityConsent db accountId disclosureVersion
  let db ← pruneBehavioral accountId timestamp db
  let runs := db.runs.insert
    (runningSync "steam_web_api" "activity.read" none (some accountId) timestamp)
  return (runs.last, { db with runs })

/-- A game of `complete_activity_snapshot`. -/
structure ActivityGame where
  appid : Int
  playtimes : Playtimes

/-- The `CHECK`s of the columns. -/
def Playtimes.valid (p : Playtimes) : Bool :=
  [p.playtimeForeverMinutes, p.playtime2weeksMinutes, p.playtimeWindowsForeverMinutes,
    p.playtimeMacForeverMinutes, p.playtimeLinuxForeverMinutes, p.playtimeDeckForeverMinutes,
    p.playtimeDisconnectedMinutes, p.lastPlayedUnix, p.recentWindowMinutes].all fun v =>
      v.all (0 ≤ ·)

/-- The rows of `activity_observations` for the games of a run.  `seen` is the
AppIDs before them. -/
def observeGames (id accountId : Nat) (observed recentObserved : String) :
    List Int → List ActivityGame → Except Exn (List (Observation Nat Int ActivityFacts))
  | _, [] => return []
  | seen, game :: games => do
    require (game.appid ∉ seen) (.valueError "duplicate activity AppID")
    require (0 < game.appid ∧ game.playtimes.valid) .integrityError
    let facts := ⟨game.playtimes, observed, game.playtimes.recentWindowMinutes.map fun _ =>
      recentObserved⟩
    let rest ← observeGames id accountId observed recentObserved (game.appid :: seen) games
    return ⟨id, accountId, game.appid, facts⟩ :: rest

/-- `(started_at, id) > (?, ?)`, on the texts. -/
def startedAfter (startedAt : String) (id : Nat) (r : SyncRun) : Bool :=
  startedAt < r.startedAt || (r.startedAt == startedAt && id < r.id)

/-- `newer_success`. -/
def newerSuccess (runs : Runs) (accountId : Nat) (run : SyncRun) : Bool :=
  runs.rows.any fun r => r.ofAccount "activity.read" accountId && r.status == .complete &&
    r.promoted && startedAfter run.startedAt run.id r

/-- The run that `complete_activity_snapshot` may complete. -/
def activeActivityRun (runs : Runs) (id accountId : Nat) : Except Exn SyncRun :=
  match (runs.get? id).filter fun r => r.ofAccount "activity.read" accountId &&
    r.status == .running with
  | some run => .ok run
  | none => .error (.invalidSyncTransition "activity sync run is not active")

/-- `DELETE FROM activity_current WHERE account_id = ?` and the `INSERT` of the
observations of a run. -/
def promoteActivity (db : Db) (accountId id : Nat) : Db :=
  { db with
    activityCurrent := db.activityCurrent.filter (fun c => !(c.subject == accountId)) ++
      (db.activityObservations.filter fun o => o.syncRunId == id).map
        (Observation.promoted (φ := ActivityFacts) fun facts => facts) }

/-- `UPDATE sync_runs SET status = 'complete', …`. -/
def SyncRun.completeAt (promoted : Bool) (recordsSeen : Nat) (completedAt : String)
    (r : SyncRun) : SyncRun :=
  { r with status := .complete, promoted, recordsSeen, completedAt := some completedAt }

/-- The promotion of a run, unless a newer one succeeded, and its end. -/
def settleActivity (db : Db) (accountId : Nat) (run : SyncRun) (recordsSeen : Nat)
    (completed : String) : Db :=
  let promoted := !newerSuccess db.runs accountId run
  let db := if promoted then promoteActivity db accountId run.id else db
  { db with runs := db.runs.set run.id (SyncRun.completeAt promoted recordsSeen completed) }

/-- `complete_activity_snapshot`. -/
def completeActivitySnapshot (id accountId : Nat) (games : List ActivityGame)
    (observedAt recentObservedAt completedAt : Aware) (disclosureVersion : String) (db : Db) :
    Except Exn Db := do
  let observed ← timestamp observedAt
  let recentObserved ← timestamp recentObservedAt
  let completed ← timestamp completedAt
  let run ← activeActivityRun db.runs id accountId
  requireActivityConsent db accountId disclosureVersion
  let observations ← observeGames id accountId observed recentObserved [] games
  let db := { db with activityObservations := db.activityObservations ++ observations }
  pruneBehavioral accountId completed (settleActivity db accountId run games.length completed)

/-- `_finish_simple_sync`. -/
def finishSimpleSync (id : Nat) (capability errorCode : String) (completedAt : Aware) (db : Db) :
    Except Exn Db := do
  let timestamp ← timestamp completedAt
  let matches? := fun (r : SyncRun) =>
    r.id == id && r.capability == capability && r.status == .running
  require (db.runs.rows.any matches?) (.invalidSyncTransition "sync run is not active")
  return { db with
    runs := db.runs.update matches? fun r =>
      { r with status := .failed, completedAt := some timestamp, errorCode := some errorCode,
               errorDetail := none } }

/-! ## The readers -/

/-- `ORDER BY started_at DESC, id DESC`. -/
def byStart (r r' : SyncRun) : Bool :=
  startedAfter r'.startedAt r'.id r

/-- `text > text'`, where `NULL` comes before every text. -/
def textAfter : Option String → Option String → Bool
  | some text, some text' => text' < text
  | some _, none => true
  | none, _ => false

/-- `ORDER BY completed_at DESC, id DESC`. -/
def byCompletion (r r' : SyncRun) : Bool :=
  textAfter r.completedAt r'.completedAt ||
    (r.completedAt == r'.completedAt && r'.id < r.id)

/-- What the readers report of the activity of an account.  The names of the
apps are left out. -/
structure ActivitySnapshot where
  items : List (Current Nat Int ActivityFacts)
  latest : Option SyncRun
  latestComplete : Option SyncRun

/-- The rows of an account, in the order of their AppIDs. -/
def activityItems (db : Db) (accountId : Nat) : List (Current Nat Int ActivityFacts) :=
  (db.activityCurrent.filter fun c => c.subject == accountId).insertionSort fun c c' =>
    c.key ≤ c'.key

/-- The pruning of a reader that is given the time. -/
def pruneAt (accountId : Nat) : Option Aware → Db → Except Exn Db
  | none, db => return db
  | some now, db => do
    let timestamp ← timestamp now
    pruneBehavioral accountId timestamp db

/-- `read_activity_snapshot`. -/
def readActivitySnapshot (accountId : Nat) (now : Option Aware) (db : Db) :
    Except Exn (ActivitySnapshot × Db) := do
  let db ← pruneAt accountId now db
  let runs := db.runs.rows.filter fun r => r.ofAccount "activity.read" accountId
  let good := runs.filter fun r => r.status == .complete && r.promoted
  return (⟨activityItems db accountId, limitOne byStart runs, limitOne byCompletion good⟩, db)

/-- `read_recommendation_snapshot`, its activity. -/
def readRecommendationActivity (accountId : Nat) (now : Aware) (db : Db) :
    Except Exn (ActivitySnapshot × Db) := do
  requireSteamAccount db accountId
  let timestamp ← timestamp now
  let db ← pruneActivity accountId timestamp db
  let db ← pruneAchievements accountId timestamp db
  return (⟨activityItems db accountId, latestAccountSync db.runs "activity.read" accountId none,
    latestAccountSync db.runs "activity.read" accountId (some .complete)⟩, db)

end SteamAgent.Storage
