import SteamAgent.Storage.Runs

/-!
# The tables of the sync methods

The rows follow the migrations.  An observation belongs to the run that recorded
it, and a current row names the run it was promoted from, so the pairs of tables
`…_observations` and `…_current` are instances of `Observation` and `Current`.
Their subject is the `account_id` or the `machine_id`, and their key the `appid`
where the table has one.

`evidence`, `steam_apps` and the identities of an app are left out.  An evidence
id is what `_insert_evidence` answered.
-/

namespace SteamAgent.Storage

/-! ## Rows -/

/-- A row of an `…_observations` table. -/
structure Observation (σ κ φ : Type) where
  syncRunId : Nat
  subject : σ
  key : κ
  facts : φ

/-- A row of a `…_current` table. -/
structure Current (σ κ φ : Type) where
  subject : σ
  key : κ
  promotedSyncRunId : Nat
  facts : φ

/-- The current row that `INSERT INTO … SELECT` makes of an observation. -/
def Observation.promoted {σ κ φ ψ : Type} (f : φ → ψ) (o : Observation σ κ φ) : Current σ κ ψ :=
  ⟨o.subject, o.key, o.syncRunId, f o.facts⟩

/-- The columns that `installed_observations` and `installed_current` share. -/
structure InstalledFacts where
  evidenceId : Nat
  libraryRoot : String
  installDir : String
  state : String
  buildId : Option String
  sizeBytes : Option Int
  manifestPath : Option String
  manifestMtime : Option String
  observedAt : String
  residualState : Option String
  residualCompatdataBytes : Option Int
  residualShadercacheBytes : Option Int
  residualWorkshopBytes : Option Int

/-- The columns of `installed_observations`. -/
structure InstalledRecord where
  name : Option String
  appType : String
  facts : InstalledFacts

/-- The columns of `owned_observations` and `owned_current`. -/
structure OwnedFacts where
  evidenceId : Nat
  name : Option String
  playtimeForeverMinutes : Option Int
  inclusionBasis : String
  observedAt : String

/-- The columns of `owned_sync_metadata` that a call gives. -/
structure OwnedMetadata where
  syncRunId : Nat
  accountId : Nat
  provider : String
  supportLevel : String
  baseRetrievedAt : String
  baseReportedCount : Int
  expandedRetrievedAt : String
  expandedReportedCount : Int

/-- The columns of `wishlist_observations` and `wishlist_current`. -/
structure WishlistFacts where
  evidenceId : Nat
  priority : Int
  dateAdded : Int
  observedAt : String

/-- The columns of `wishlist_sync_metadata` that a call gives. -/
structure WishlistMetadata where
  syncRunId : Nat
  accountId : Nat
  provider : String
  supportLevel : String
  itemListRetrievedAt : String
  itemListReportedCount : Int
  itemCountRetrievedAt : String
  itemCountReportedCount : Int

/-- The columns of `system_profile_observations` and `system_profile_current`. -/
structure ProfileFacts where
  evidenceId : Nat
  schemaId : String
  profileJson : String
  observedAt : String

/-- The figures of a game, as `activity_observations` and `activity_current` keep
them. -/
structure Playtimes where
  playtimeForeverMinutes : Option Int
  playtime2weeksMinutes : Option Int
  playtimeWindowsForeverMinutes : Option Int
  playtimeMacForeverMinutes : Option Int
  playtimeLinuxForeverMinutes : Option Int
  playtimeDeckForeverMinutes : Option Int
  playtimeDisconnectedMinutes : Option Int
  lastPlayedUnix : Option Int
  recentWindowMinutes : Option Int

/-- The columns of `activity_observations` and `activity_current`. -/
structure ActivityFacts where
  playtimes : Playtimes
  observedAt : String
  recentObservedAt : Option String

/-- `account_data_consents`. -/
structure AccountDataConsent where
  accountId : Nat
  consentKind : String
  disclosureVersion : String
  backupsAcknowledged : Bool

/-- `machine_data_consents`, for the one kind that there is. -/
structure MachineDataConsent where
  machineId : String
  disclosureVersion : String

/-- `accounts`. -/
structure Account where
  id : Nat
  provider : String

/-- `machines`. -/
structure Machine where
  id : String
  platform : String
  architecture : Option String

/-- `achievement_sync_demand` and `review_sync_demand`. -/
structure SyncDemand where
  syncRunId : Nat
  accountId : Nat
  appid : Int
  ordinal : Nat
  targeted : Bool
  evaluated : Bool
  state : String
  errorCode : Option String
  observedAt : Option String

/-- `achievement_player_observations` and `achievement_player_current`, for one
achievement. -/
structure PlayerAchievement where
  apiName : String
  achieved : Bool
  unlockTimeUnix : Option Int
  observedAt : String

/-- `achievement_player_projection`. -/
structure PlayerProjection where
  accountId : Nat
  appid : Int
  observedAt : String
  promotedSyncRunId : Nat

/-- `achievement_schema_current`, in the one language. -/
structure SchemaAchievement where
  appid : Int
  apiName : String
  state : String
  displayName : Option String
  description : Option String
  hidden : Bool
  observedAt : String

/-- `achievement_schema_status`, in the one language. -/
structure SchemaStatus where
  appid : Int
  state : String
  observedAt : String

/-- `price_sync_metadata`. -/
structure PriceMetadata where
  syncRunId : Nat
  accountId : Nat
  country : String
  provider : String
  wishlistSyncRunId : Nat
  demandCount : Nat
  evaluatedCount : Nat
  requestedLimit : Option Int
  rateLimit : Option Int
  rateRemaining : Option Int
  rateResetValue : Option Int
  retryAfterSeconds : Option Int

/-- `price_sync_demand`. -/
structure PriceDemand where
  syncRunId : Nat
  accountId : Nat
  country : String
  appid : Int
  demandOrder : Nat
  wishlistPriority : Int
  wishlistDateAdded : Int
  targeted : Bool
  evaluated : Bool
  outcome : Option String

/-- The columns that `price_observations` and `price_current` share. -/
structure PriceFacts where
  country : String
  provider : String
  factKind : String
  ordinal : Int
  evidenceId : Nat
  providerProductId : String
  amountMinor : Int
  currency : String
  regularAmountMinor : Option Int
  discountPercent : Option Int
  storeClass : String
  comparability : String
  lowScope : Option String
  effectiveAt : Option String
  observedAt : String
  freshUntil : String
  hardExpiresAt : String
  providerUrl : String
  sellerId : Option String

/-- `price_subject_current`. -/
structure PriceSubject where
  accountId : Nat
  country : String
  provider : String
  appid : Int
  outcome : String
  observedAt : String
  freshUntil : String
  hardExpiresAt : String
  promotedSyncRunId : Nat

/-- The columns that `review_observations` and `review_current` share. -/
structure ReviewSummary where
  reviewScore : Int
  totalPositive : Int
  totalNegative : Int
  totalReviews : Int
  requestFilter : String
  language : String
  dayRange : Int
  reviewType : String
  purchaseType : String
  numPerPage : Int
  offTopicActivityFiltered : Bool
  sourceLocator : String
  humanReferenceUrl : String

/-- `review_observations`. -/
structure ReviewObservation where
  syncRunId : Nat
  appid : Int
  summary : ReviewSummary
  observedAt : String

/-- `review_current`.  A deleted run leaves its row without one. -/
structure ReviewCurrent where
  appid : Int
  summary : ReviewSummary
  observedAt : String
  promotedSyncRunId : Option Nat

/-! ## The database -/

/-- The database. -/
structure Db where
  runs : Runs
  accounts : List Account
  machines : List Machine
  consents : List AccountDataConsent
  machineConsents : List MachineDataConsent
  installedObservations : List (Observation String Int InstalledRecord)
  installedCurrent : List (Current String Int InstalledFacts)
  ownedMetadata : List OwnedMetadata
  ownedObservations : List (Observation Nat Int OwnedFacts)
  ownedCurrent : List (Current Nat Int OwnedFacts)
  wishlistMetadata : List WishlistMetadata
  wishlistObservations : List (Observation Nat Int WishlistFacts)
  wishlistCurrent : List (Current Nat Int WishlistFacts)
  profileObservations : List (Observation String Unit ProfileFacts)
  profileCurrent : List (Current String Unit ProfileFacts)
  activityObservations : List (Observation Nat Int ActivityFacts)
  activityCurrent : List (Current Nat Int ActivityFacts)
  achievementDemand : List SyncDemand
  playerObservations : List (Observation Nat Int PlayerAchievement)
  playerCurrent : List (Current Nat Int PlayerAchievement)
  playerProjection : List PlayerProjection
  schemaCurrent : List SchemaAchievement
  schemaStatus : List SchemaStatus
  priceMetadata : List PriceMetadata
  priceDemand : List PriceDemand
  priceObservations : List (Observation Nat Int PriceFacts)
  priceCurrent : List (Current Nat Int PriceFacts)
  priceSubjects : List PriceSubject
  reviewDemand : List SyncDemand
  reviewObservations : List ReviewObservation
  reviewCurrent : List ReviewCurrent

namespace Db

/-- No runs, no rows. -/
def empty (accounts : List Account) (machines : List Machine)
    (consents : List AccountDataConsent) (machineConsents : List MachineDataConsent) : Db where
  runs := .empty
  accounts := accounts
  machines := machines
  consents := consents
  machineConsents := machineConsents
  installedObservations := []
  installedCurrent := []
  ownedMetadata := []
  ownedObservations := []
  ownedCurrent := []
  wishlistMetadata := []
  wishlistObservations := []
  wishlistCurrent := []
  profileObservations := []
  profileCurrent := []
  activityObservations := []
  activityCurrent := []
  achievementDemand := []
  playerObservations := []
  playerCurrent := []
  playerProjection := []
  schemaCurrent := []
  schemaStatus := []
  priceMetadata := []
  priceDemand := []
  priceObservations := []
  priceCurrent := []
  priceSubjects := []
  reviewDemand := []
  reviewObservations := []
  reviewCurrent := []

/-- Whether `DELETE FROM sync_runs WHERE p` takes the run with an id. -/
def drops (db : Db) (p : SyncRun → Bool) (id : Nat) : Bool :=
  db.runs.rows.any fun r => r.id == id && p r

/-- `DELETE FROM sync_runs WHERE …`.  The deletion cascades to the rows of a
run, and a row of `review_current` forgets it. -/
def deleteRuns (db : Db) (p : SyncRun → Bool) : Db :=
  { db with
    runs := db.runs.delete p
    installedObservations := db.installedObservations.filter fun o => !db.drops p o.syncRunId
    ownedMetadata := db.ownedMetadata.filter fun m => !db.drops p m.syncRunId
    ownedObservations := db.ownedObservations.filter fun o => !db.drops p o.syncRunId
    ownedCurrent := db.ownedCurrent.filter fun c => !db.drops p c.promotedSyncRunId
    wishlistMetadata := db.wishlistMetadata.filter fun m => !db.drops p m.syncRunId
    wishlistObservations := db.wishlistObservations.filter fun o => !db.drops p o.syncRunId
    wishlistCurrent := db.wishlistCurrent.filter fun c => !db.drops p c.promotedSyncRunId
    profileObservations := db.profileObservations.filter fun o => !db.drops p o.syncRunId
    profileCurrent := db.profileCurrent.filter fun c => !db.drops p c.promotedSyncRunId
    activityObservations := db.activityObservations.filter fun o => !db.drops p o.syncRunId
    activityCurrent := db.activityCurrent.filter fun c => !db.drops p c.promotedSyncRunId
    achievementDemand := db.achievementDemand.filter fun d => !db.drops p d.syncRunId
    playerObservations := db.playerObservations.filter fun o => !db.drops p o.syncRunId
    playerCurrent := db.playerCurrent.filter fun c => !db.drops p c.promotedSyncRunId
    playerProjection := db.playerProjection.filter fun c => !db.drops p c.promotedSyncRunId
    priceMetadata := db.priceMetadata.filter fun m =>
      !db.drops p m.syncRunId && !db.drops p m.wishlistSyncRunId
    priceDemand := db.priceDemand.filter fun d => !db.drops p d.syncRunId
    priceObservations := db.priceObservations.filter fun o => !db.drops p o.syncRunId
    priceCurrent := db.priceCurrent.filter fun c => !db.drops p c.promotedSyncRunId
    priceSubjects := db.priceSubjects.filter fun c => !db.drops p c.promotedSyncRunId
    reviewDemand := db.reviewDemand.filter fun d => !db.drops p d.syncRunId
    reviewObservations := db.reviewObservations.filter fun o => !db.drops p o.syncRunId
    reviewCurrent := db.reviewCurrent.map fun c =>
      if c.promotedSyncRunId.any (db.drops p) then { c with promotedSyncRunId := none } else c }

theorem drops_eq_true {db : Db} {p : SyncRun → Bool} {id : Nat} :
    db.drops p id = true ↔ ∃ r ∈ db.runs.rows, r.id = id ∧ p r = true := by
  simp [drops]

theorem drops_eq_false {db : Db} {p : SyncRun → Bool} {id : Nat} :
    db.drops p id = false ↔ ∀ r ∈ db.runs.rows, r.id = id → p r = false := by
  simp [drops]

end Db

end SteamAgent.Storage
