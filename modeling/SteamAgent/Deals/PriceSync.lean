import Mathlib.Data.Finset.Card
import Mathlib.Data.List.ReduceOption
import SteamAgent.Deals.GgDeals
import SteamAgent.Stdlib.Choice

/-!
# The price sync

`sync_wishlist_prices` of `price_library.py`.

The two clients are parameters, and so are the snapshots that the storage reads.  What the
sync records is part of its output: a run as the storage gets it at its end.  The times of
the runs are left out.  An instant is a number of microseconds.

There are five groups.

* What the sync reads.
* What the sync records: `factsOf`.
* The GG.deals rung.
* The CheapShark rung.
* `syncWishlistPrices`.
-/

namespace SteamAgent.Deals

/-! ## What the sync reads -/

inductive Selection where
  | auto
  | ggDeals
  | cheapshark
deriving DecidableEq, Repr

/-- The arguments.  Of the key it matters only whether there is one. -/
structure SyncRequest where
  country : String
  provider : Selection
  hasKey : Bool
  maxItems : Option Int
deriving DecidableEq, Repr

structure WishlistGame where
  appid : Nat
  priority : Nat
  dateAdded : Nat
deriving DecidableEq, Repr

structure WishlistRun where
  id : Nat
  running : Bool
  errorCode : Option String
  completedAt : Option Int
deriving DecidableEq, Repr

/-- `WishlistSnapshot`.  The storage keeps one row for an AppID. -/
structure WishlistSnapshot where
  games : List WishlistGame
  latest : Option WishlistRun
  latestComplete : Option WishlistRun
  distinct : (games.map WishlistGame.appid).Nodup

inductive RunStatus where
  | running
  | complete
  | partly
  | failed
deriving DecidableEq, Repr

structure CachedSubject where
  appid : Nat
  freshUntil : Int
deriving DecidableEq, Repr

/-- A row of the demand of a run, with the status of the run. -/
structure DemandRow where
  syncRunId : Nat
  status : RunStatus
  appid : Nat
  targeted : Bool
  evaluated : Bool
deriving DecidableEq, Repr

/-- The CheapShark part of a price snapshot.  The rows are in the order of their runs. -/
structure PriceCache where
  subjects : List CachedSubject
  demandRows : List DemandRow
deriving DecidableEq, Repr

/-- `latest_relevant_attempts`: for an AppID, its last row. -/
def PriceCache.latestRelevant (cache : PriceCache) (appid : Nat) : Option DemandRow :=
  cache.demandRows.reverse.find? fun row => row.appid == appid

/-- An error of a client, or the sync's own `PriceSyncError`. -/
inductive Failure where
  | client (code : String) (retryable : Bool) (retryAfterSeconds : Option Nat)
  | sync (code : String) (retryable : Bool)
deriving DecidableEq, Repr

namespace Failure

def code : Failure → String
  | client code .. => code
  | sync code _ => code

def retryable : Failure → Bool
  | client _ retryable _ => retryable
  | sync _ retryable => retryable

/-- `getattr(failure, "retry_after_seconds", None)`. -/
def retryAfterSeconds : Failure → Option Nat
  | client _ _ seconds => seconds
  | sync .. => none

/-- `isinstance(failure, PriceSyncError)`. -/
def isSync : Failure → Bool
  | sync .. => true
  | client .. => false

end Failure

structure ClientError where
  code : String
  retryable : Bool
  retryAfterSeconds : Option Nat
deriving DecidableEq, Repr

def ClientError.failure (e : ClientError) : Failure :=
  .client e.code e.retryable e.retryAfterSeconds

/-- What `fetch_app_price_summaries` returns. -/
structure GgBatch where
  snapshots : List DealEvidenceSnapshot
  notFoundAppids : List Nat
  rateLimit : RateLimitMetadata

structure Clients where
  fetchAppPriceSummaries : List Nat → Except ClientError GgBatch
  lookupSteamApp : Nat → Except ClientError DealEvidenceSnapshot

/-! ## What the sync records -/

inductive FactKind where
  | offer
  | historicalLow
deriving DecidableEq, Repr

/-- `PriceFactObservation`. -/
structure PriceFact where
  appid : Nat
  ordinal : Nat
  factKind : FactKind
  providerProductId : String
  amountMinor : Nat
  currency : String
  regularAmountMinor : Option Nat
  discountPercent : Option Int
  storeClass : StoreClass
  comparability : Comparability
  lowScope : Option String
  effectiveAt : Option String
  observedAt : String
  providerUrl : String
  sellerId : Option String
deriving DecidableEq, Repr

inductive Outcome where
  | observed
  | notFound
deriving DecidableEq, Repr

/-- A price run, as it stands at its end. -/
structure RecordedRun where
  provider : String
  targeted : List Nat
  requestedLimit : Option Nat
  outcomes : List (Nat × Outcome)
  facts : List PriceFact
  status : RunStatus
  rateLimit : RateLimitMetadata
  errorCode : Option String
  retryAfterSeconds : Option Nat

/-- `_validate_context`. -/
def validateContext (price : Money) : Except Failure Unit :=
  if price.country ≠ "US" ∨ price.currency ≠ "USD" then
    .error (.sync "PROVIDER_CONTEXT_MISMATCH" false)
  else .ok ()

def invalidResponse : Failure :=
  .sync "PROVIDER_RESPONSE_INVALID" false

/-- The fact of an offer. -/
def offerFact (snapshot : DealEvidenceSnapshot) (item : OfferEvidence × Nat) :
    Except Failure PriceFact := do
  let (offer, ordinal) := item
  if offer.provider ≠ snapshot.provider ∨ offer.product ≠ snapshot.product then
    .error invalidResponse
  else do
    validateContext offer.price
    if let some price := offer.regularPrice then validateContext price
    return {
      appid := snapshot.product.steamAppid
      ordinal := ordinal
      factKind := .offer
      providerProductId := offer.product.providerProductId
      amountMinor := offer.price.amountMinor
      currency := offer.price.currency
      regularAmountMinor := offer.regularPrice.map Money.amountMinor
      discountPercent := offer.discountPercent
      storeClass := offer.storeClass
      comparability := offer.comparability
      lowScope := none
      effectiveAt := none
      observedAt := offer.observedAt
      providerUrl := offer.providerUrl.url
      sellerId := offer.sellerId }

/-- The fact of a historical low. -/
def lowFact (snapshot : DealEvidenceSnapshot) (item : HistoricalLowSummary × Nat) :
    Except Failure PriceFact := do
  let (low, ordinal) := item
  if low.provider ≠ snapshot.provider ∨ low.product ≠ snapshot.product then
    .error invalidResponse
  else do
    validateContext low.price
    return {
      appid := snapshot.product.steamAppid
      ordinal := ordinal
      factKind := .historicalLow
      providerProductId := low.product.providerProductId
      amountMinor := low.price.amountMinor
      currency := low.price.currency
      regularAmountMinor := none
      discountPercent := none
      storeClass := .unknown
      comparability := low.comparability
      lowScope := some low.scope
      effectiveAt := low.effectiveAt
      observedAt := low.observedAt
      providerUrl := low.providerUrl.url
      sellerId := none }

/-- `_facts`. -/
def factsOf (snapshot : DealEvidenceSnapshot) : Except Failure (List PriceFact) :=
  if snapshot.provider ≠ "gg-deals" ∧ snapshot.provider ≠ "cheapshark" then
    .error invalidResponse
  else do
    let offers ← snapshot.offers.zipIdx.mapM (offerFact snapshot)
    let lows ← snapshot.historyLows.zipIdx.mapM (lowFact snapshot)
    return offers ++ lows

/-- `outcomes[appid] = outcome`. -/
def setOutcome (outcomes : List (Nat × Outcome)) (appid : Nat) (outcome : Outcome) :
    List (Nat × Outcome) :=
  if outcomes.any fun entry => entry.1 == appid then
    outcomes.map fun entry => if entry.1 = appid then (appid, outcome) else entry
  else outcomes ++ [(appid, outcome)]

/-- `set(outcomes)`. -/
def keysOf (outcomes : List (Nat × Outcome)) : Finset Nat :=
  (outcomes.map Prod.fst).toFinset

/-! ## The GG.deals rung -/

def maxGgBatch : Nat :=
  50

/-- `selected[offset : offset + MAX_GG_BATCH]`, for each offset. -/
def batchesOf : Nat → List Nat → List (List Nat)
  | 0, _ => []
  | _ + 1, [] => []
  | fuel + 1, appids => appids.take maxGgBatch :: batchesOf fuel (appids.drop maxGgBatch)

structure GgState where
  outcomes : List (Nat × Outcome)
  facts : List PriceFact
  candidates : List Nat
  observed : Finset Nat
  evaluated : Finset Nat
  rate : RateLimitMetadata
  failure : Option Failure

def GgState.initial : GgState :=
  ⟨[], [], [], ∅, ∅, ⟨none, none, none⟩, none⟩

/-- The loop over the snapshots of a batch. -/
def takeSnapshots : GgState → List DealEvidenceSnapshot → GgState
  | state, [] => state
  | state, snapshot :: snapshots =>
    let appid := snapshot.product.steamAppid
    match factsOf snapshot with
    | .error failure => { state with failure := some failure }
    | .ok [] => takeSnapshots { state with
        outcomes := setOutcome state.outcomes appid .notFound
        candidates := state.candidates ++ [appid] } snapshots
    | .ok facts => takeSnapshots { state with
        outcomes := setOutcome state.outcomes appid .observed
        observed := insert appid state.observed
        facts := state.facts ++ facts
        candidates := state.candidates ++
          if facts.any fun fact => fact.factKind == .offer then [] else [appid] } snapshots

/-- The loop over the AppIDs of a batch that were not found, and the end of the turn. -/
def takeNotFound (state : GgState) (appids : List Nat) : GgState :=
  let outcomes := appids.foldl (fun outcomes appid => setOutcome outcomes appid .notFound)
    state.outcomes
  { state with
    outcomes := outcomes
    candidates := state.candidates ++ appids
    evaluated := state.evaluated ∪ keysOf outcomes }

/-- The loop over the batches. -/
def ggLoop (clients : Clients) : GgState → List (List Nat) → GgState
  | state, [] => state
  | state, appids :: batches =>
    match clients.fetchAppPriceSummaries appids with
    | .error e => { state with
        failure := some e.failure
        candidates := state.candidates ++ (appids :: batches).flatten }
    | .ok batch =>
      let state := takeSnapshots { state with rate := batch.rateLimit } batch.snapshots
      if state.failure.any Failure.isSync then state
      else ggLoop clients (takeNotFound state batch.notFoundAppids) batches

/-- The run that the storage gets: completed when there are outcomes, finished as failed
otherwise. -/
def recordRun (provider : String) (targeted : List Nat) (requestedLimit : Option Nat)
    (outcomes : List (Nat × Outcome)) (facts : List PriceFact) (rate : RateLimitMetadata)
    (failure : Option Failure) : RecordedRun where
  provider := provider
  targeted := targeted
  requestedLimit := requestedLimit
  outcomes := outcomes
  facts := if outcomes = [] then [] else facts
  status :=
    if outcomes = [] then .failed
    else if failure = none ∧ keysOf outcomes = targeted.toFinset then .complete
    else .partly
  rateLimit := if outcomes = [] then ⟨none, none, none⟩ else rate
  errorCode :=
    if outcomes = [] then some ((failure.map Failure.code).getD "PROVIDER_UNAVAILABLE")
    else failure.map Failure.code
  retryAfterSeconds := failure.bind Failure.retryAfterSeconds

/-! ## The CheapShark rung -/

def defaultCheapsharkLimit : Nat :=
  20

structure CheapState where
  outcomes : List (Nat × Outcome)
  facts : List PriceFact
  observed : Finset Nat
  failure : Option Failure

/-- The loop over the targets. -/
def cheapLoop (clients : Clients) : CheapState → List Nat → CheapState
  | state, [] => state
  | state, appid :: targets =>
    match clients.lookupSteamApp appid with
    | .error e =>
      if e.code = "GAME_NOT_FOUND" then
        cheapLoop clients { state with outcomes := setOutcome state.outcomes appid .notFound }
          targets
      else { state with failure := some e.failure }
    | .ok snapshot =>
      match factsOf snapshot with
      | .error failure => { state with failure := some failure }
      | .ok [] => cheapLoop clients
          { state with outcomes := setOutcome state.outcomes appid .notFound } targets
      | .ok facts => cheapLoop clients { state with
          outcomes := setOutcome state.outcomes appid .observed
          observed := insert appid state.observed
          facts := state.facts ++ facts } targets

/-! ## The sync -/

/-- What the sync raises. -/
inductive SyncError where
  | priceSync (code : String) (retryable : Bool)
  | valueError
  | assertion
deriving DecidableEq, Repr

/-- `PriceSyncResult`. -/
structure PriceSyncResult where
  runs : List RecordedRun
  totalItems : Nat
  evaluatedItems : Nat
  observedItems : Nat
  fallbackTotal : Nat
  fallbackEvaluated : Nat
  complete : Bool
  providersUsed : List String
  providersAttempted : List String

/-- The runs that the sync records, and how it ends. -/
structure SyncOutput where
  runs : List RecordedRun
  ending : Except SyncError PriceSyncResult

/-- The checks on the arguments and on the wishlist. -/
def checkSync (request : SyncRequest) (wishlist : WishlistSnapshot) (evaluatedAt : Int) :
    Except SyncError Unit :=
  if request.country ≠ "US" then .error (.priceSync "UNSUPPORTED_COUNTRY" false)
  else if request.maxItems.any fun n => ¬(1 ≤ n ∧ n ≤ 10000) then .error .valueError
  else
    match wishlist.latestComplete, wishlist.latest with
    | none, _ | _, none => .error (.priceSync "NOT_SYNCED" false)
    | some latestComplete, some latest =>
      if latest.running then .error (.priceSync "SYNC_IN_PROGRESS" true)
      else if latest.id ≠ latestComplete.id then
        let code := match latest.errorCode with
          | some code => if code = "" then "WISHLIST_REFRESH_FAILED" else code
          | none => "WISHLIST_REFRESH_FAILED"
        .error (.priceSync code true)
      else
        match latestComplete.completedAt with
        | none => .error (.priceSync "NOT_SYNCED" false)
        | some completed =>
          if completed + 24 * 60 * 60 * 1000000 < evaluatedAt then
            .error (.priceSync "STALE_LAST_GOOD" true)
          else .ok ()

/-- The AppIDs of the wishlist, in its order. -/
def demandOf (wishlist : WishlistSnapshot) : List Nat :=
  (Choice.sortBy (fun game : WishlistGame =>
    toLex (game.priority, toLex (game.dateAdded, game.appid))) wishlist.games).map
      WishlistGame.appid

/-- The latest attempt was to look the AppID up, and it ended without an answer. -/
def isUnresolved (cache : PriceCache) (appid : Nat) : Bool :=
  (cache.latestRelevant appid).any fun row =>
    row.targeted && !row.evaluated && (row.status == .failed || row.status == .partly)

/-- `fresh_fallback_appids`. -/
def freshFallbackAppids (request : SyncRequest) (cache : PriceCache) (evaluatedAt : Int) :
    Finset Nat :=
  match request.maxItems with
  | some _ => ∅
  | none =>
    ((cache.subjects.filter fun subject =>
      evaluatedAt < subject.freshUntil && !isUnresolved cache subject.appid).map
        CachedSubject.appid).toFinset

/-- `selected`. -/
def selectedOf (request : SyncRequest) (demand : List Nat) : List Nat :=
  match request.maxItems with
  | none => demand
  | some limit => demand.take limit.toNat

/-- What the first rung leaves to the rest of the sync. -/
structure Ladder where
  runs : List RecordedRun
  used : List String
  candidates : List Nat
  observed : Finset Nat
  evaluated : Finset Nat

/-- `tuple(dict.fromkeys(...))`. -/
def firsts (names : List String) : List String :=
  names.foldl (fun seen name => if seen.contains name then seen else seen ++ [name]) []

/-- The first rung, where it is used. -/
def ggRung (clients : Clients) (request : SyncRequest) (selected : List Nat) :
    List RecordedRun × Except SyncError Ladder :=
  let state := ggLoop clients .initial (batchesOf selected.length selected)
  let run := recordRun "gg-deals" selected (request.maxItems.map Int.toNat) state.outcomes
    state.facts state.rate state.failure
  let ladder : Ladder := ⟨[run], if state.outcomes = [] then [] else ["gg-deals"],
    state.candidates, state.observed, state.evaluated⟩
  if state.outcomes = [] ∧ request.provider = .ggDeals then
    match state.failure with
    | none => ([run], .error .assertion)
    | some failure => ([run], .error (.priceSync failure.code failure.retryable))
  else
    match state.failure with
    | some (.sync code retryable) => ([run], .error (.priceSync code retryable))
    | _ => ([run], .ok ladder)

/-- `fallback_candidates` after the first rung. -/
def fallbackCandidates (request : SyncRequest) (selected : List Nat) (ladder : Ladder) :
    List Nat :=
  match request.provider with
  | .cheapshark => selected
  | .auto => if request.hasKey then ladder.candidates else ladder.candidates ++ selected
  | .ggDeals => ladder.candidates

/-- `targets`. -/
def cheapTargets (request : SyncRequest) (demand : List Nat) (fallbackSet fresh : Finset Nat) :
    List Nat :=
  if request.provider = .cheapshark ∨ request.provider = .auto ∧ 0 < fallbackSet.card then
    (demand.filter fun appid =>
      appid ∈ fallbackSet ∧ (request.maxItems ≠ none ∨ appid ∉ fresh)).take
        ((request.maxItems.map Int.toNat).getD defaultCheapsharkLimit)
  else []

/-- The second rung, and the end of the sync. -/
def cheapRung (clients : Clients) (request : SyncRequest) (demand selected : List Nat)
    (fresh : Finset Nat) (ladder : Ladder) : SyncOutput :=
  let fallbackSet := (fallbackCandidates request selected ladder).toFinset
  let targets := cheapTargets request demand fallbackSet fresh
  let state := cheapLoop clients ⟨[], [], ladder.observed, none⟩ targets
  let limit := (request.maxItems.map Int.toNat).getD defaultCheapsharkLimit
  let runs := if targets = [] then ladder.runs
    else ladder.runs ++ [recordRun "cheapshark" targets (some limit) state.outcomes state.facts
      ⟨none, none, none⟩ state.failure]
  let evaluated := ladder.evaluated ∪ keysOf state.outcomes
  let satisfied := (fresh ∩ fallbackSet) ∪ (keysOf state.outcomes ∩ fallbackSet)
  let result : PriceSyncResult := {
    runs := runs
    totalItems := demand.length
    evaluatedItems := evaluated.card
    observedItems := state.observed.card
    fallbackTotal := fallbackSet.card
    fallbackEvaluated := state.outcomes.length
    complete := (evaluated ∪ (fresh ∩ fallbackSet)).card = demand.length ∧
      fallbackSet ⊆ satisfied
    providersUsed := firsts (ladder.used ++ if state.outcomes = [] then [] else ["cheapshark"])
    providersAttempted := firsts (runs.map RecordedRun.provider) }
  match state.failure with
  | none => ⟨runs, .ok result⟩
  | some failure =>
    if failure.isSync ∨ state.outcomes = [] ∧ request.provider = .cheapshark then
      ⟨runs, .error (.priceSync failure.code failure.retryable)⟩
    else ⟨runs, .ok result⟩

/-- `sync_wishlist_prices`. -/
def syncWishlistPrices (clients : Clients) (request : SyncRequest) (wishlist : WishlistSnapshot)
    (cache : PriceCache) (evaluatedAt : Int) : SyncOutput :=
  match checkSync request wishlist evaluatedAt with
  | .error e => ⟨[], .error e⟩
  | .ok _ =>
    let demand := demandOf wishlist
    let selected := selectedOf request demand
    let fresh := freshFallbackAppids request cache evaluatedAt
    if demand = [] then ⟨[], .ok ⟨[], 0, 0, 0, 0, 0, true, [], []⟩⟩
    else if request.provider = .ggDeals ∧ request.hasKey = false then
      ⟨[], .error (.priceSync "AUTH_REQUIRED" false)⟩
    else if request.provider ≠ .cheapshark ∧ request.hasKey = true then
      match ggRung clients request selected with
      | (runs, .error e) => ⟨runs, .error e⟩
      | (_, .ok ladder) => cheapRung clients request demand selected fresh ladder
    else cheapRung clients request demand selected fresh ⟨[], [], [], ∅, ∅⟩

end SteamAgent.Deals
