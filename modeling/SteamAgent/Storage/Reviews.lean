import SteamAgent.Storage.Prices

/-!
# The review methods

`begin_review_sync`, `record_review_result`, `mark_remaining_reviews_unevaluated`
and `finish_review_sync`, each as one transaction.
-/

namespace SteamAgent.Storage

open Datetime (Aware)

/-! ## Retention -/

/-- Whether the current review of some app came from a run. -/
def Db.reviewedBy (db : Db) (id : Nat) : Bool :=
  db.reviewCurrent.any fun c => c.promotedSyncRunId == some id

/-- `_prune_reviews`. -/
def pruneReviews (now : String) (db : Db) : Except Exn Db := do
  let cutoff ← cutoffDays now 7
  let db := { db with
    reviewCurrent := db.reviewCurrent.filter fun c => !pastCutoff c.observedAt cutoff }
  let db := pruneReviewsToWishlists db
  return db.deleteRuns fun r => r.capability == "reviews.aggregate.read" &&
    pastCutoff r.startedAt cutoff && !db.reviewedBy r.id

/-! ## Beginning -/

/-- `MAX(observed_at)` of the demand of a run, or when the run started. -/
def lastProgress (db : Db) (run : SyncRun) : String :=
  match (db.reviewDemand.filter fun d => d.syncRunId == run.id).filterMap
      SyncDemand.observedAt with
  | [] => run.startedAt
  | text :: texts => texts.foldl laterText text

/-- A review sync of the account that made no progress since a cutoff. -/
def staleReviewSync (db : Db) (accountId : Nat) (cutoff : String) (run : SyncRun) : Bool :=
  run.ofAccount "reviews.aggregate.read" accountId && run.status == .running &&
    pastCutoff run.startedAt cutoff && pastCutoff (lastProgress db run) cutoff

/-- The demand that is still running becomes unevaluated. -/
def interruptDemand (id : Nat) (timestamp errorCode : String) (demand : List SyncDemand) :
    List SyncDemand :=
  demand.map fun d =>
    if d.syncRunId == id && d.state == "running" then
      { d with state := "unevaluated", evaluated := false, errorCode := some errorCode,
               observedAt := some timestamp }
    else d

/-- `SELECT COUNT(*) FROM review_sync_demand WHERE sync_run_id=? AND evaluated=1`. -/
def evaluatedCount (demand : List SyncDemand) (id : Nat) : Nat :=
  (demand.filter fun d => d.syncRunId == id && d.evaluated).length

/-- The end of one stale review sync. -/
def interruptReviewSync (timestamp : String) (db : Db) (run : SyncRun) : Db :=
  let demand := interruptDemand run.id timestamp "SYNC_INTERRUPTED" db.reviewDemand
  { db with
    reviewDemand := demand
    runs := db.runs.set run.id fun r =>
      { r with status := .failed, promoted := false, completedAt := some timestamp,
               errorCode := some "SYNC_INTERRUPTED", errorDetail := none,
               recordsSeen := evaluatedCount demand run.id } }

/-- Whether a sync of the app is under way. -/
def reviewUnderWay (db : Db) (accountId : Nat) (appid : Int) : Bool :=
  db.reviewDemand.any fun d => d.accountId == accountId && d.appid == appid && d.targeted &&
    d.state == "running" &&
    db.runs.rows.any fun r => r.id == d.syncRunId && r.status == .running

/-- Whether the app has an outcome since a cutoff. -/
def reviewFresh (db : Db) (accountId : Nat) (appid : Int) (cutoff : String) : Bool :=
  db.reviewDemand.any fun d => d.accountId == accountId && d.appid == appid && d.evaluated &&
    (d.state == "ready" ||
      (d.state == "failed" && d.errorCode == some "PROVIDER_RESPONSE_INVALID")) &&
    d.observedAt.any (fun text => !pastCutoff text cutoff) &&
    (d.state == "failed" || db.reviewCurrent.any fun c => c.appid == d.appid)

/-- `review_sync_candidates`. -/
def reviewSyncCandidates (db : Db) (accountId : Nat) (now : String) (skipFreshTerminal : Bool) :
    Except Exn (List Int) := do
  let cutoff ← cutoffMinutes now (24 * 60)
  requireSteamAccount db accountId
  let rows := db.wishlistCurrent.filter fun c =>
    c.subject == accountId && !reviewUnderWay db accountId c.key &&
      (!skipFreshTerminal || !reviewFresh db accountId c.key cutoff)
  let sorted := (rows.map fun c => (c.facts.priority, c.facts.dateAdded, c.key)).insertionSort
    fun o o' => byPriority o o'
  return sorted.map fun o => o.2.2

/-- The row of a candidate. -/
def reviewDemandRow (id accountId : Nat) (targeted : List Int) (candidate : Int × Nat) :
    SyncDemand where
  syncRunId := id
  accountId := accountId
  appid := candidate.1
  ordinal := candidate.2
  targeted := candidate.1 ∈ targeted
  evaluated := false
  state := if candidate.1 ∈ targeted then "running" else "unevaluated"
  errorCode := none
  observedAt := none

/-- `begin_review_sync`. -/
def beginReviewSync (accountId : Nat) (maxItems : Int) (skipFreshTerminal : Bool)
    (startedAt : Aware) (disclosureVersion : String) (db : Db) :
    Except Exn ((Nat × List Int × List Int) × Db) := do
  let timestamp ← timestamp startedAt
  require (1 ≤ maxItems ∧ maxItems ≤ 100) (.valueError "review scheduling inputs are invalid")
  requireSteamAccount db accountId
  require (accountConsent db accountId "wishlist_persistence").isSome
    (.invalidSyncTransition "wishlist persistence consent is required")
  require ((accountConsent db accountId "review_persistence").any fun c =>
      c.disclosureVersion == disclosureVersion)
    (.invalidSyncTransition "current review persistence consent is required")
  let db ← pruneReviews timestamp db
  let staleCutoff ← cutoffMinutes timestamp 15
  let stale := db.runs.rows.filter (staleReviewSync db accountId staleCutoff)
  let db := stale.foldl (interruptReviewSync timestamp) db
  let candidates ← reviewSyncCandidates db accountId timestamp skipFreshTerminal
  let targeted := candidates.take maxItems.toNat
  let runs := db.runs.insert
    (runningSync "steam_store" "reviews.aggregate.read" none (some accountId) timestamp)
  return ((runs.last, candidates, targeted), { db with
    runs
    reviewDemand := db.reviewDemand ++
      candidates.zipIdx.map (reviewDemandRow runs.last accountId targeted) })

/-! ## Recording -/

/-- `_validate_review_summary`. -/
def validReviewSummary (urls : UrlLibrary) (appid summaryAppid : Int) (value : ReviewSummary) :
    Bool :=
  summaryAppid == appid && 0 ≤ value.reviewScore && value.reviewScore ≤ 10 &&
    [value.totalPositive, value.totalNegative, value.totalReviews].all isAmount &&
    value.totalPositive + value.totalNegative == value.totalReviews &&
    value.requestFilter == "all" && value.language == "all" && value.dayRange == 365 &&
    value.reviewType == "all" && value.purchaseType == "all" && value.numPerPage == 1 &&
    value.offTopicActivityFiltered && value.sourceLocator == "steam_store_appreviews" &&
    (urls.urlsplit value.humanReferenceUrl).any fun parsed =>
      parsed.scheme == "https" && parsed.hostname == some "store.steampowered.com" &&
        parsed.port.all (· == 443) && parsed.username.isNone && parsed.password.isNone &&
        parsed.query == "" && parsed.fragment == "app_reviews_hash" &&
        parsed.path == "/app/" ++ toString appid ++ "/"

/-- The demand of a target, and when its run started. -/
def reviewTarget (db : Db) (id accountId : Nat) (appid : Int) : Option (SyncDemand × String) :=
  match db.reviewDemand.find? fun d =>
      d.syncRunId == id && d.accountId == accountId && d.appid == appid && d.targeted,
    db.runs.get? id with
  | some demand, some run => some (demand, run.startedAt)
  | _, _ => none

/-- `(started_at, id) > (started_at, id)`, on the texts. -/
def startedLater (startedAt : String) (id : Nat) (startedAt' : String) (id' : Nat) : Bool :=
  startedAt' < startedAt || (startedAt == startedAt' && id' < id)

/-- Whether a summary replaces the current one of its app. -/
def promotesReview (db : Db) (appid : Int) (timestamp startedAt : String) (id : Nat) : Bool :=
  match db.reviewCurrent.find? fun c => c.appid == appid with
  | none => true
  | some current =>
    current.observedAt ≤ timestamp &&
      match current.promotedSyncRunId.bind db.runs.get? with
      | none => true
      | some run => startedLater startedAt id run.startedAt run.id

/-- The rows of a summary. -/
def recordReviewSummary (db : Db) (id : Nat) (appid : Int) (timestamp startedAt : String)
    (summary : ReviewSummary) : Db :=
  let promote := promotesReview db appid timestamp startedAt id
  { db with
    reviewObservations := db.reviewObservations ++ [⟨id, appid, summary, timestamp⟩]
    reviewCurrent :=
      if promote then
        db.reviewCurrent.filter (fun c => c.appid != appid) ++
          [⟨appid, summary, timestamp, some id⟩]
      else db.reviewCurrent }

/-- `record_review_result`.  A summary comes with the AppID that it names. -/
def recordReviewResult (urls : UrlLibrary) (id accountId : Nat) (appid : Int) (state : String)
    (observedAt : Aware) (summary : Option (Int × ReviewSummary)) (errorCode : Option String)
    (db : Db) : Except Exn Db := do
  require ((state = "ready" ∨ state = "failed") ∧ (state = "ready" ↔ summary.isSome))
    (.valueError "review result is invalid")
  let timestamp ← timestamp observedAt
  require (summary.all fun summary => validReviewSummary urls appid summary.1 summary.2)
    (.valueError "review summary is invalid")
  match reviewTarget db id accountId appid with
  | none => .error (.invalidSyncTransition "review target is not running")
  | some (demand, startedAt) =>
    require (demand.state = "running") (.invalidSyncTransition "review target is not running")
    let db := match summary with
      | none => db
      | some summary => recordReviewSummary db id appid timestamp startedAt summary.2
    return { db with
      reviewDemand := db.reviewDemand.map fun d =>
        if d.syncRunId == id && d.appid == appid then
          { d with evaluated := true, state, errorCode, observedAt := some timestamp }
        else d }

/-- `mark_remaining_reviews_unevaluated`. -/
def markRemainingReviewsUnevaluated (id : Nat) (observedAt : Aware) (errorCode : String)
    (db : Db) : Except Exn Db := do
  let timestamp ← timestamp observedAt
  return { db with reviewDemand := interruptDemand id timestamp errorCode db.reviewDemand }

/-- `finish_review_sync`. -/
def finishReviewSync (id : Nat) (completedAt : Aware) (db : Db) : Except Exn Db := do
  let timestamp ← timestamp completedAt
  let active := (db.runs.get? id).any fun r =>
    r.capability == "reviews.aggregate.read" && r.status == .running
  require active (.invalidSyncTransition "review sync run is not active")
  let demand := interruptDemand id timestamp "SYNC_INTERRUPTED" db.reviewDemand
  pruneReviews timestamp { db with
    reviewDemand := demand
    runs := db.runs.set id (SyncRun.completeAt true (evaluatedCount demand id) timestamp) }

end SteamAgent.Storage
