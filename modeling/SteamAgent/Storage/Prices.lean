import SteamAgent.Storage.Wishlist

/-!
# The price methods

`begin_price_sync` and `complete_price_sync`, each as one transaction,
`finish_price_sync`, which checks the run before its transaction begins, and the
expiry of price data that a reader does first.

`UrlLibrary` stands for `urllib.parse`, and `evidence` for the ids that
`_insert_evidence` answers in a transaction.

There are four groups.

* `beginPriceSync`, with the checks on its demand.
* `validatePriceFact` and the rows of the facts.
* Expiry and pruning.
* `completePriceSync` and `finishPriceSync`.
-/

namespace SteamAgent.Storage

open Datetime (Instant Aware)

/-! ## Beginning -/

/-- `PriceDemandSubject`. -/
structure PriceDemandSubject where
  appid : Int
  demandOrder : Int
  wishlistPriority : Int
  wishlistDateAdded : Int
deriving DecidableEq

/-- The arguments of `begin_price_sync`. -/
structure PriceRequest where
  provider : String
  accountId : Nat
  country : String
  wishlistSyncRunId : Nat
  demand : List PriceDemandSubject
  targetedAppids : Option (List Int)
  requestedLimit : Option Int
  startedAt : Aware

/-- The demand, in its order. -/
def PriceRequest.ordered (q : PriceRequest) : List PriceDemandSubject :=
  q.demand.insertionSort fun item item' => item.demandOrder ≤ item'.demandOrder

/-- The AppIDs that the sync will look up. -/
def PriceRequest.targeted (q : PriceRequest) : List Int :=
  match q.targetedAppids with
  | some appids => appids
  | none =>
    let first := match q.requestedLimit with
      | none => q.ordered
      | some limit => q.ordered.take limit.toNat
    first.map PriceDemandSubject.appid

/-- `0, 1, …` -/
def countUp (n : Nat) : List Int :=
  (List.range n).map fun i => (i : Int)

/-- A two-letter code. -/
def isCountry (country : String) : Bool :=
  country.length == 2 && country.toList.all Char.isAlpha

/-- The checks of `begin_price_sync` before its transaction. -/
def checkPriceRequest (q : PriceRequest) : Except Exn Unit := do
  require (q.provider = "gg-deals" ∨ q.provider = "cheapshark")
    (.valueError "unsupported price provider")
  require (isCountry q.country) (.valueError "country must be a two-letter code")
  require (q.requestedLimit.all fun limit => 1 ≤ limit && limit ≤ 10000)
    (.valueError "requested_limit must be positive")
  require (q.ordered.all fun item =>
      isAppid item.appid && isUint32 item.wishlistPriority && isUint32 item.wishlistDateAdded)
    (.valueError "price demand subject is invalid")
  require (q.ordered.map PriceDemandSubject.demandOrder = countUp q.ordered.length)
    (.valueError "price demand order must be contiguous")
  require (q.ordered.map PriceDemandSubject.appid).Nodup
    (.valueError "price demand AppIDs must be unique")
  require (q.targeted.all isAppid) (.valueError "targeted price AppIDs are invalid")
  require q.targeted.Nodup (.valueError "targeted price AppIDs must be unique")
  require (q.targeted =
      (q.ordered.map PriceDemandSubject.appid).filter fun appid => appid ∈ q.targeted)
    (.valueError "targeted price AppIDs must be an ordered subset of demand")
  require (q.requestedLimit.all fun limit => (q.targeted.length : Int) ≤ limit)
    (.valueError "targeted price AppIDs exceed requested_limit")

/-- `ORDER BY priority, date_added, appid`. -/
def byPriority (o o' : Int × Int × Int) : Bool :=
  o.1 < o'.1 || (o.1 == o'.1 && (o.2.1 < o'.2.1 || (o.2.1 == o'.2.1 && o.2.2 ≤ o'.2.2)))

/-- The demand that a wishlist snapshot makes. -/
def expectedDemand (db : Db) (wishlistSyncRunId : Nat) : List PriceDemandSubject :=
  let rows := (db.wishlistObservations.filter fun o => o.syncRunId == wishlistSyncRunId).map
    fun o => (o.facts.priority, o.facts.dateAdded, o.key)
  (rows.insertionSort fun o o' => byPriority o o').zipIdx.map fun (o, i) =>
    ⟨o.2.2, i, o.1, o.2.1⟩

/-- The wishlist snapshot of a price demand. -/
def requireCurrentWishlist (q : PriceRequest) (db : Db) : Except Exn Unit := do
  let wishlist ← getSyncRun db.runs q.wishlistSyncRunId
  require (wishlist.capability = "wishlist.read" ∧ wishlist.accountId = some q.accountId ∧
      wishlist.status = .complete ∧ wishlist.promoted)
    (.valueError "price demand requires a promoted wishlist snapshot")
  require ((latestAccountSync db.runs "wishlist.read" q.accountId (some .complete)).map SyncRun.id =
      some q.wishlistSyncRunId)
    (.valueError "price demand requires the current wishlist snapshot")
  require ((latestAccountSync db.runs "wishlist.read" q.accountId none).map SyncRun.id =
      some q.wishlistSyncRunId)
    (.valueError "latest wishlist attempt is not ready for price demand")
  require (q.ordered = expectedDemand db q.wishlistSyncRunId)
    (.valueError "price demand does not match the wishlist snapshot")

/-- The row of a demanded subject. -/
def priceDemandRow (q : PriceRequest) (id : Nat) (country : String) (item : PriceDemandSubject) :
    PriceDemand where
  syncRunId := id
  accountId := q.accountId
  country := country
  appid := item.appid
  demandOrder := item.demandOrder.toNat
  wishlistPriority := item.wishlistPriority
  wishlistDateAdded := item.wishlistDateAdded
  targeted := item.appid ∈ q.targeted
  evaluated := false
  outcome := none

/-- `begin_price_sync`. -/
def beginPriceSync (q : PriceRequest) (db : Db) : Except Exn (Nat × Db) := do
  checkPriceRequest q
  let country := q.country.toUpper
  let timestamp ← timestamp q.startedAt
  requireCurrentWishlist q db
  let runs := db.runs.insert
    (runningSync q.provider "prices.wishlist.read" none (some q.accountId) timestamp)
  return (runs.last, { db with
    runs
    priceMetadata := db.priceMetadata ++ [⟨runs.last, q.accountId, country, q.provider,
      q.wishlistSyncRunId, q.ordered.length, 0, q.requestedLimit, none, none, none, none⟩]
    priceDemand := db.priceDemand ++ q.ordered.map (priceDemandRow q runs.last country) })

/-! ## Facts -/

/-- The result of `urlsplit` and its attributes. -/
structure SplitUrl where
  scheme : String
  username : Option String
  password : Option String
  hostname : Option String
  port : Option Nat
  path : String
  query : String
  fragment : String

/-- `urllib.parse`, with `none` where it raises, and the value of a text that
`isdecimal` accepts. -/
structure UrlLibrary where
  urlsplit : String → Option SplitUrl
  parseQs : String → List (String × List String)
  decimal : String → Option Nat

/-- `PriceFactObservation`. -/
structure PriceFactObservation where
  appid : Int
  ordinal : Int
  factKind : String
  providerProductId : String
  amountMinor : Int
  currency : String
  regularAmountMinor : Option Int
  discountPercent : Option Int
  storeClass : String
  comparability : String
  lowScope : Option String
  effectiveAt : Option Aware
  observedAt : Aware
  providerUrl : String
  sellerId : Option String

/-- Text of a bounded length without control characters. -/
def isIdentity (text : String) : Bool :=
  1 ≤ text.length && text.length ≤ 512 && text.toList.all fun c => 32 ≤ c.toNat

/-- `0 <= value <= (1 << 63) - 1`. -/
def isAmount (value : Int) : Bool :=
  0 ≤ value && value ≤ 9223372036854775807

/-- The fields of a fact that do not depend on its kind. -/
def PriceFactObservation.wellFormed (fact : PriceFactObservation) (country : String) : Bool :=
  isAppid fact.appid && 0 ≤ fact.ordinal && fact.ordinal ≤ 10000 &&
    ["offer", "historical_low"].contains fact.factKind && isIdentity fact.providerProductId &&
    isAmount fact.amountMinor && fact.currency == "USD" && country == "US" &&
    ["official", "keyshop", "unknown"].contains fact.storeClass &&
    ["exact_product", "normalized_game", "unknown"].contains fact.comparability

/-- The value of the one key of a query. -/
def onlyValue (query : List (String × List String)) (key : String) : Option String :=
  match query with
  | [(key', [value])] => if key' = key then some value else none
  | _ => none

/-- The URLs that a provider may link to. -/
def isProviderUrl (urls : UrlLibrary) (provider : String) (parsed : SplitUrl) : Bool :=
  if provider = "gg-deals" then
    parsed.hostname == some "gg.deals" && parsed.query == "" &&
      ["/game/", "/dlc/", "/pack/", "/steam/app/"].any fun p => p.isPrefixOf parsed.path
  else if provider = "cheapshark" then
    let query := urls.parseQs parsed.query
    parsed.hostname == some "www.cheapshark.com" &&
      ((parsed.path == "/redirect" && (onlyValue query "dealID").any fun value => value != "") ||
        (parsed.path == "/search" &&
          ((onlyValue query "steamAppID").bind urls.decimal).any fun n => isAppid n))
  else
    false

/-- `_validate_price_fact`: the observation and the effective time. -/
def validatePriceFact (urls : UrlLibrary) (provider country : String)
    (fact : PriceFactObservation) : Except Exn (Instant × Option String) := do
  require (fact.wellFormed country) (.valueError "price fact is invalid")
  require (fact.regularAmountMinor.all isAmount) (.valueError "price regular amount is invalid")
  require (fact.sellerId.all isIdentity) (.valueError "price seller identity is invalid")
  require (fact.discountPercent.all fun value => 0 ≤ value && value ≤ 100)
    (.valueError "price discount is invalid")
  if fact.factKind = "offer" then
    require (fact.lowScope = none ∧ fact.effectiveAt.isNone)
      (.valueError "offer cannot carry historical-low fields")
  else
    require ((fact.lowScope.any fun scope =>
        ["all_time_official_stores", "all_time_keyshops", "all_time_any_store"].contains scope) ∧
        fact.regularAmountMinor = none ∧ fact.discountPercent = none)
      (.valueError "historical-low fact is invalid")
  let observed ← instantOf fact.observedAt
  let effective ← fact.effectiveAt.mapM instantOf
  require (effective.all fun effective => effective ≤ observed)
    (.valueError "price effective time cannot follow observation")
  let valid := (urls.urlsplit fact.providerUrl).any fun parsed =>
    parsed.scheme == "https" && parsed.username.isNone && parsed.password.isNone &&
      parsed.fragment == "" && parsed.port.all (· == 443) && isProviderUrl urls provider parsed
  require valid (.valueError "price provider URL is invalid")
  return (observed, effective.map Instant.text)

/-- Microseconds in an hour. -/
def hourUs : Nat :=
  3600000000

/-- The row of a fact, with its times of expiry. -/
def priceRow (urls : UrlLibrary) (evidence : PriceFactObservation → Nat) (run : SyncRun)
    (accountId : Nat) (country : String) (completed : Instant) (fact : PriceFactObservation) :
    Except Exn (Observation Nat Int PriceFacts) := do
  let (observed, effective) ← validatePriceFact urls run.provider country fact
  let started ← readInstant run.startedAt
  require (started ≤ observed ∧ observed ≤ completed)
    (.valueError "price observation is outside its sync run")
  let freshUntil ← later observed ((if fact.factKind = "offer" then 6 else 24) * hourUs)
  let hardExpires ← later observed (7 * Datetime.dayMicroseconds)
  return ⟨run.id, accountId, fact.appid,
    { country
      provider := run.provider
      factKind := fact.factKind
      ordinal := fact.ordinal
      evidenceId := evidence fact
      providerProductId := fact.providerProductId
      amountMinor := fact.amountMinor
      currency := fact.currency
      regularAmountMinor := fact.regularAmountMinor
      discountPercent := fact.discountPercent
      storeClass := fact.storeClass
      comparability := fact.comparability
      lowScope := fact.lowScope
      effectiveAt := effective
      observedAt := observed.text
      freshUntil := freshUntil.text
      hardExpiresAt := hardExpires.text
      providerUrl := fact.providerUrl
      sellerId := fact.sellerId }⟩

/-- The rows of the facts.  `seen` is the keys before them. -/
def priceRows (urls : UrlLibrary) (evidence : PriceFactObservation → Nat) (run : SyncRun)
    (accountId : Nat) (country : String) (completed : Instant) :
    List (Int × String × Int) → List PriceFactObservation →
      Except Exn (List (Observation Nat Int PriceFacts))
  | _, [] => return []
  | seen, fact :: facts => do
    let key := (fact.appid, fact.factKind, fact.ordinal)
    require (key ∉ seen) (.valueError "duplicate price fact ordinal")
    let row ← priceRow urls evidence run accountId country completed fact
    let rest ← priceRows urls evidence run accountId country completed (key :: seen) facts
    return row :: rest

/-! ## Expiry -/

/-- `hard_expires_at <= ?` and `COALESCE(completed_at, started_at) <= ?`. -/
def hasExpired (stored now : String) : Bool :=
  stored ≤ now

/-- `_expire_price_data`. -/
def expirePriceData (now : String) (db : Db) : Except Exn Db := do
  let lineageCutoff ← cutoffDays now 7
  let db := { db with
    priceCurrent := db.priceCurrent.filter fun c => !hasExpired c.facts.hardExpiresAt now
    priceSubjects := db.priceSubjects.filter fun c => !hasExpired c.hardExpiresAt now
    priceObservations := db.priceObservations.filter fun o => !hasExpired o.facts.hardExpiresAt now }
  return db.deleteRuns fun r => r.capability == "prices.wishlist.read" &&
    hasExpired (r.completedAt.getD r.startedAt) lineageCutoff

/-- `_prune_superseded_price_observations`. -/
def pruneSupersededPriceObservations (accountId : Nat) (country provider : String) (db : Db) : Db :=
  { db with priceObservations := db.priceObservations.filter fun o =>
      !(o.subject == accountId && o.facts.country == country && o.facts.provider == provider &&
        !db.priceCurrent.any fun c => c.facts.evidenceId == o.facts.evidenceId) }

/-! ## Completing -/

/-- Whether a price row is of a subject. -/
def isSubject (accountId : Nat) (country provider : String) (appid : Int)
    (c : Current Nat Int PriceFacts) : Bool :=
  c.subject == accountId && c.facts.country == country && c.facts.provider == provider &&
    c.key == appid

/-- The same for the row of the subject itself. -/
def isSubjectRow (accountId : Nat) (country provider : String) (appid : Int)
    (c : PriceSubject) : Bool :=
  c.accountId == accountId && c.country == country && c.provider == provider && c.appid == appid

/-- The larger of two texts. -/
def laterText (text text' : String) : String :=
  if text < text' then text' else text

/-- `MAX(observed_at)`, or the time of completion where there is no fact. -/
def subjectObserved (completed : String) (facts : List (Observation Nat Int PriceFacts)) : String :=
  match facts.map fun o => o.facts.observedAt with
  | [] => completed
  | text :: texts => texts.foldl laterText text

/-- Whether the promotion of an outcome is left to a newer run. -/
def superseded (run : SyncRun) (accountId : Nat) (country : String) (db : Db)
    (outcome : Int × String) : Bool :=
  db.priceSubjects.any fun c =>
    isSubjectRow accountId country run.provider outcome.1 c && run.id < c.promotedSyncRunId

/-- The promotion of one outcome, unless a newer run promoted its subject. -/
def promoteOutcome (run : SyncRun) (accountId : Nat) (country completed : String)
    (rows : List (Observation Nat Int PriceFacts)) (db : Db) (outcome : Int × String) :
    Except Exn Db := do
  if superseded run accountId country db outcome then
    return db
  else
    let facts := rows.filter fun o => o.key == outcome.1
    let observedAt := subjectObserved completed facts
    let observed ← readInstant observedAt
    let expires ← later observed (7 * Datetime.dayMicroseconds)
    let freshUntil ← later observed (6 * hourUs)
    return { db with
      priceCurrent := db.priceCurrent.filter
          (fun c => !isSubject accountId country run.provider outcome.1 c) ++
        facts.map (Observation.promoted (φ := PriceFacts) fun facts => facts)
      priceSubjects := db.priceSubjects.filter
          (fun c => !isSubjectRow accountId country run.provider outcome.1 c) ++
        [⟨accountId, country, run.provider, outcome.1, outcome.2, observedAt, freshUntil.text,
          expires.text, run.id⟩] }

/-- The arguments of `complete_price_sync`.  A mapping has each AppID once. -/
structure PriceResult where
  outcomes : List (Int × String)
  facts : List PriceFactObservation
  completedAt : Aware
  status : SyncStatus
  rateLimit : Option Int
  rateRemaining : Option Int
  rateResetValue : Option Int
  errorCode : Option String
  retryAfterSeconds : Option Int
  nodup : (outcomes.map Prod.fst).Nodup

/-- The outcome of an AppID. -/
def PriceResult.outcome? (q : PriceResult) (appid : Int) : Option String :=
  (q.outcomes.find? fun outcome => outcome.1 == appid).map Prod.snd

/-- The checks of `complete_price_sync` before its transaction. -/
def checkPriceResult (q : PriceResult) : Except Exn Unit := do
  require (q.status = .complete ∨ q.status = .partialRun)
    (.valueError "price sync status must be complete or partial")
  require (q.errorCode.all fun code =>
      1 ≤ code.length && code.length ≤ 128 && code.toList.all fun c => 32 ≤ c.toNat)
    (.valueError "price sync error code is invalid")
  require (q.retryAfterSeconds.all fun value => 0 ≤ value && value ≤ 86400)
    (.valueError "price retry delay is invalid")
  require (([q.rateLimit, q.rateRemaining, q.rateResetValue].all fun value => value.all isAmount) ∧
      q.rateLimit.all fun limit => q.rateRemaining.all fun remaining => remaining ≤ limit)
    (.valueError "price rate metadata is invalid")
  require (q.outcomes.all fun outcome =>
      isAppid outcome.1 && ["observed", "not_found"].contains outcome.2)
    (.valueError "price outcomes are invalid")
  require (q.facts.all fun fact => (q.outcome? fact.appid).isSome)
    (.valueError "price facts require an evaluated outcome")
  require (q.facts.all fun fact => q.outcome? fact.appid == some "observed")
    (.valueError "price facts require an observed outcome")

/-- The AppIDs that a run was to look up. -/
def demandedAppids (db : Db) (id : Nat) : List Int :=
  (db.priceDemand.filter fun d => d.syncRunId == id && d.targeted).map PriceDemand.appid

/-- The run, the metadata and the account of a price sync that is running. -/
def runningPriceSync (db : Db) (id : Nat) : Except Exn (SyncRun × PriceMetadata × Nat) := do
  let run ← getSyncRun db.runs id
  require (run.capability = "prices.wishlist.read" ∧ run.status = .running)
    (.invalidSyncTransition "price sync is not running")
  match db.priceMetadata.find? fun m => m.syncRunId == id, run.accountId with
  | some metadata, some accountId => return (run, metadata, accountId)
  | none, _ => .error (.invalidSyncTransition "price sync metadata is missing")
  | some _, none => .error .integrityError

/-- The end of a price sync: its demand, its metadata and its run. -/
def closePriceSync (q : PriceResult) (id : Nat) (promoted : Bool) (completed : String) (db : Db) :
    Db :=
  { db with
    priceDemand := db.priceDemand.map fun d =>
      match q.outcome? d.appid with
      | some outcome =>
        if d.syncRunId == id then { d with evaluated := true, outcome := some outcome } else d
      | none => d
    priceMetadata := db.priceMetadata.map fun m =>
      if m.syncRunId == id then
        { m with
          evaluatedCount := q.outcomes.length
          rateLimit := q.rateLimit
          rateRemaining := q.rateRemaining
          rateResetValue := q.rateResetValue
          retryAfterSeconds := q.retryAfterSeconds }
      else m
    runs := db.runs.set id fun r =>
      { r with status := q.status, completedAt := some completed, promoted,
               recordsSeen := q.facts.length, errorCode := q.errorCode, errorDetail := none } }

/-- `complete_price_sync`. -/
def completePriceSync (urls : UrlLibrary) (evidence : PriceFactObservation → Nat) (id : Nat)
    (q : PriceResult) (db : Db) : Except Exn Db := do
  let completed ← instantOf q.completedAt
  checkPriceResult q
  let (run, metadata, accountId) ← runningPriceSync db id
  let demanded := demandedAppids db id
  require (q.outcomes.all fun outcome => outcome.1 ∈ demanded)
    (.valueError "evaluated price subject was not targeted")
  require (q.status = .complete →
      (demanded.all fun appid => (q.outcome? appid).isSome) ∧ q.errorCode = none)
    (.valueError "complete price sync must evaluate all demand")
  let sorted := q.facts.insertionSort fun fact fact' => fact.appid ≤ fact'.appid
  let rows ← priceRows urls evidence run accountId metadata.country completed [] sorted
  let db := { db with priceObservations := db.priceObservations ++ rows }
  let outcomes := q.outcomes.insertionSort fun outcome outcome' => outcome.1 ≤ outcome'.1
  let promoted := outcomes.any fun outcome => !superseded run accountId metadata.country db outcome
  let db ← outcomes.foldlM (promoteOutcome run accountId metadata.country completed.text rows) db
  let db ← expirePriceData completed.text (closePriceSync q id promoted completed.text db)
  return pruneSupersededPriceObservations accountId metadata.country run.provider db

/-- What `finish_price_sync` writes. -/
structure PriceFailure where
  completedAt : Aware
  completed : String
  errorCode : String
  retryAfterSeconds : Option Int
  stamp : timestamp completedAt = .ok completed

/-- The checks of `finish_price_sync`.  The connection opens a transaction with its
first `UPDATE` only, so the run is read outside of it. -/
def checkPriceSyncRunning (id : Nat) (completedAt : Aware) (errorCode : String)
    (retryAfterSeconds : Option Int) (db : Db) : Except Exn PriceFailure := do
  require (retryAfterSeconds.all fun value => 0 ≤ value && value ≤ 86400)
    (.valueError "retry_after_seconds must be between 0 and 86400")
  match stamp : timestamp completedAt with
  | .error x => .error x
  | .ok completed => do
    let run ← getSyncRun db.runs id
    require (run.capability = "prices.wishlist.read" ∧ run.status = .running)
      (.invalidSyncTransition "price sync is not running")
    return ⟨completedAt, completed, errorCode, retryAfterSeconds, stamp⟩

/-- The two `UPDATE`s of `finish_price_sync`, on the run as it is by then. -/
def finishPriceSync (id : Nat) (failure : PriceFailure) (db : Db) : Db :=
  { db with
    runs := db.runs.set id fun r =>
      { r with status := .failed, completedAt := some failure.completed, promoted := false,
               recordsSeen := 0, errorCode := some failure.errorCode, errorDetail := none }
    priceMetadata := db.priceMetadata.map fun m =>
      if m.syncRunId == id then { m with retryAfterSeconds := failure.retryAfterSeconds } else m }

/-- The expiry with which `read_price_snapshot` and the other readers begin. -/
def expireAt (now : Aware) (db : Db) : Except Exn Db := do
  let evaluated ← timestamp now
  expirePriceData evaluated db

end SteamAgent.Storage
