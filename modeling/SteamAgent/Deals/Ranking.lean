import SteamAgent.Deals.Evidence
import SteamAgent.Stdlib.Choice

/-!
# Deal ranking

`deal_ranking.py`: the pair of an offer and a historical low that a candidate is
judged by, its bucket and grade, and the order of the candidates.

There are four groups.

* Candidates and ranked candidates.
* The evidence that matches a context.
* Discounts and distances.
* `rankCandidate` and `rankDeals`.
-/

namespace SteamAgent.Deals

open Choice (sortBy)

/-! ## Records -/

inductive AttemptStatus where
  | ready
  | notFound
  | failed
  | unavailable
deriving DecidableEq, Repr

/-- The checks of `ProviderAttempt.__post_init__`. -/
def validAttempt (provider : String) (fallbackRung : Nat) (status : AttemptStatus)
    (errorCode : Option String) : Bool :=
  provider ≠ "" && provider.length ≤ 128 && fallbackRung ≤ maxSigned64 &&
    (errorCode.all fun code => code.length ≤ 128) &&
    match status with
    | .ready => errorCode.isNone
    | .failed | .unavailable => errorCode.any (· ≠ "")
    | .notFound => true

/-- `ProviderAttempt`. -/
structure ProviderAttempt where
  provider : String
  fallbackRung : Nat
  status : AttemptStatus
  errorCode : Option String
  valid : validAttempt provider fallbackRung status errorCode = true
deriving DecidableEq

/-- `DealCandidate`. -/
structure DealCandidate where
  steamAppid : Nat
  snapshots : List DealEvidenceSnapshot
  providerAttempts : List ProviderAttempt
  positive : 1 ≤ steamAppid
  bounded : steamAppid ≤ maxUnsigned32
  uniqueProviders : (providerAttempts.map (·.provider)).Nodup
  attempted : ∀ snapshot ∈ snapshots, snapshot.provider ∈ providerAttempts.map (·.provider)
  products : ∀ snapshot ∈ snapshots, snapshot.product.steamAppid = steamAppid

/-- `DealComparisonContext`. -/
structure DealComparisonContext where
  country : String
  currency : String
  storeClass : StoreClass
  historyScope : String
  currencyCode : isCode 3 currency = true
  countryCode : isCode 2 country = true
  scopeLength : historyScope ≠ "" ∧ historyScope.length ≤ 128

inductive EvidenceGrade where
  | exact
  | normalized
  | degraded
  | unknown
deriving DecidableEq, Repr

inductive DealBucket where
  | atOrBelowLow
  | within5Percent
  | discounted
  | currentOnly
  | noncomparable
  | unknown
deriving DecidableEq, Repr

/-- `RankedDealCandidate`. -/
structure RankedDealCandidate where
  steamAppid : Nat
  bucket : DealBucket
  evidenceGrade : EvidenceGrade
  currentOffer : Option OfferEvidence
  historicalLow : Option HistoricalLowSummary
  discountBps : Option Nat
  distanceAboveLowBps : Option Nat
  reasons : List String
  tradeoffs : List String
  fallbackRung : Option Nat
  attemptedProviders : List ProviderAttempt
  usedProviders : List String
deriving DecidableEq

/-- `DealRanking`. -/
structure DealRanking where
  context : DealComparisonContext
  candidates : List RankedDealCandidate

/-- Why a ranking raises. -/
inductive RankingError where
  /-- `ValueError`. -/
  | duplicateAppids
  /-- `KeyError`: an offer of a provider without an attempt. -/
  | unknownProvider (name : String)
deriving DecidableEq, Repr

/-! ## Matching evidence -/

/-- `_product_matches`. -/
def productMatches (appid evidenceAppid : Nat) (mapping : String) : Bool :=
  mapping == "exact" && evidenceAppid == appid

/-- `_money_dimensions_match`. -/
def moneyDimensionsMatch (money : Money) (context : DealComparisonContext) : Bool :=
  money.country == context.country && money.currency == context.currency

/-- `_scope_matches_store_class`. -/
def scopeMatchesStoreClass (scope : String) (storeClass : StoreClass) : Bool :=
  [(StoreClass.official, "all_time_official_stores"), (.keyshop, "all_time_keyshops"),
    (.unknown, "all_time_any_store")].contains (storeClass, scope)

/-- The condition of `_pairs`. -/
def comparable (appid : Nat) (context : DealComparisonContext) (exact : Bool)
    (offer : OfferEvidence) (low : HistoricalLowSummary) : Bool :=
  let expected := if exact then Comparability.exactProduct else .normalizedGame
  offer.provider == low.provider && offer.comparability == expected &&
    low.comparability == expected &&
    productMatches appid offer.product.steamAppid offer.product.mapping &&
    productMatches appid low.product.steamAppid low.product.mapping &&
    offer.product.providerProductId == low.product.providerProductId &&
    moneyDimensionsMatch offer.price context && moneyDimensionsMatch low.price context &&
    offer.storeClass == context.storeClass && low.scope == context.historyScope &&
    scopeMatchesStoreClass low.scope offer.storeClass

/-- `_pairs`. -/
def pairs (appid : Nat) (offers : List OfferEvidence) (lows : List HistoricalLowSummary)
    (context : DealComparisonContext) (exact : Bool) :
    List (OfferEvidence × HistoricalLowSummary) :=
  offers.flatMap fun offer =>
    (lows.filter (comparable appid context exact offer)).map fun low => (offer, low)

/-- `_pair_choice_key`. -/
def pairChoiceKey (pair : OfferEvidence × HistoricalLowSummary) : Nat ×ₗ Nat ×ₗ String ×ₗ String :=
  toLex (pair.1.price.amountMinor, toLex (pair.2.price.amountMinor,
    toLex (pair.1.provider, pair.1.observedAt)))

/-- The grade of `_offer_choice_key`. -/
def Comparability.rank : Comparability → Nat
  | exactProduct => 0
  | normalizedGame => 1
  | unknown => 2

/-- `_offer_choice_key`. -/
def offerChoiceKey (offer : OfferEvidence) : Nat ×ₗ Nat ×ₗ String ×ₗ String :=
  toLex (offer.comparability.rank, toLex (offer.price.amountMinor,
    toLex (offer.provider, offer.observedAt)))

/-- The condition of `_best_current`. -/
def eligible (appid : Nat) (context : DealComparisonContext) (offer : OfferEvidence) : Bool :=
  productMatches appid offer.product.steamAppid offer.product.mapping &&
    moneyDimensionsMatch offer.price context && offer.storeClass == context.storeClass

/-- The offers that `_best_current` chooses from. -/
def currentOffers (appid : Nat) (offers : List OfferEvidence) (context : DealComparisonContext) :
    List OfferEvidence :=
  offers.filter (eligible appid context)

/-- `_best_current`. -/
def bestCurrent (appid : Nat) (offers : List OfferEvidence) (context : DealComparisonContext) :
    Option OfferEvidence :=
  (currentOffers appid offers context).argmin offerChoiceKey

/-! ## Discounts and distances -/

/-- `_discount_bps`. -/
def discountBps (offer : OfferEvidence) : Option Nat :=
  match offer.regularPrice with
  | none => none
  | some regular =>
    if regular.currency ≠ offer.price.currency ∨ regular.country ≠ offer.price.country then none
    else if regular.amountMinor = 0 then if offer.price.amountMinor = 0 then some 0 else none
    else if offer.price.amountMinor ≥ regular.amountMinor then some 0
    else some ((regular.amountMinor - offer.price.amountMinor) * 10000 / regular.amountMinor)

/-- `_distance_above_low`. -/
def distanceAboveLow (current low : Money) : Option Nat :=
  if current.amountMinor ≤ low.amountMinor then some 0
  else if low.amountMinor = 0 then none
  else
    some (min ((current.amountMinor - low.amountMinor) * 10000 / low.amountMinor) maxSigned64)

/-- `_within_five_percent`. -/
def withinFivePercent (current low : Money) : Bool :=
  if low.amountMinor = 0 then current.amountMinor == 0
  else current.amountMinor * 10000 ≤ low.amountMinor * 10500

/-! ## Ranking -/

def DealCandidate.offers (candidate : DealCandidate) : List OfferEvidence :=
  candidate.snapshots.flatMap (·.offers)

def DealCandidate.lows (candidate : DealCandidate) : List HistoricalLowSummary :=
  candidate.snapshots.flatMap (·.historyLows)

/-- What a candidate is judged by. -/
structure ChosenEvidence where
  offer : Option OfferEvidence
  low : Option HistoricalLowSummary
  grade : EvidenceGrade
deriving DecidableEq

/-- The grade of a current offer. -/
def Comparability.grade : Comparability → EvidenceGrade
  | exactProduct => .exact
  | normalizedGame => .normalized
  | unknown => .degraded

/-- The choice of `_rank_candidate`. -/
def choose (candidate : DealCandidate) (context : DealComparisonContext) :
    ChosenEvidence :=
  let found (exact : Bool) :=
    (pairs candidate.steamAppid candidate.offers candidate.lows context exact).argmin pairChoiceKey
  match found true with
  | some (offer, low) => ⟨some offer, some low, .exact⟩
  | none =>
    match found false with
    | some (offer, low) => ⟨some offer, some low, .normalized⟩
    | none =>
      match bestCurrent candidate.steamAppid candidate.offers context with
      | some offer => ⟨some offer, none, offer.comparability.grade⟩
      | none =>
        ⟨none, none, if candidate.offers ≠ [] ∨ candidate.lows ≠ [] then .degraded else .unknown⟩

/-- The bucket of a choice, with its reason. -/
def bucketOf (candidate : DealCandidate) (choice : ChosenEvidence) : DealBucket × String :=
  match choice.offer with
  | none =>
    if candidate.offers ≠ [] ∨ candidate.lows ≠ [] then
      (.noncomparable, "available_evidence_does_not_match_requested_dimensions")
    else (.unknown, "no_current_or_historical_evidence")
  | some offer =>
    if choice.low.any fun low => offer.price.amountMinor ≤ low.price.amountMinor then
      (.atOrBelowLow, "current_price_is_at_or_below_supported_low")
    else if choice.low.any fun low => withinFivePercent offer.price low.price then
      (.within5Percent, "current_price_is_within_5_percent_of_supported_low")
    else if (discountBps offer).any (0 < ·) then
      (.discounted, "current_price_is_below_comparable_regular_price")
    else (.currentOnly, "current_price_has_no_stronger_comparable_signal")

/-- The tradeoffs of a choice. -/
def tradeoffsOf (choice : ChosenEvidence) : List String :=
  (match choice.grade with
    | .exact => []
    | .normalized => ["product_or_offer_evidence_is_game_level_normalized"]
    | .degraded => ["requested_comparison_dimensions_are_not_fully_supported"]
    | .unknown => ["no_provider_evidence_was_available"]) ++
  match choice.low, choice.offer with
  | some low, some offer =>
    if low.price.amountMinor = 0 ∧ 0 < offer.price.amountMinor then
      ["historical_low_was_free_so_relative_distance_is_undefined"]
    else []
  | _, _ => []

/-- The providers of a choice. -/
def usedProviders (choice : ChosenEvidence) : List String :=
  sortBy id ((choice.offer.map (·.provider)).toList ++ (choice.low.map (·.provider)).toList).dedup

/-- The order of the attempts. -/
def attemptKey (attempt : ProviderAttempt) : Nat ×ₗ String :=
  toLex (attempt.fallbackRung, attempt.provider)

/-- `rung_by_provider[name]`. -/
def rungOf (attempts : List ProviderAttempt) (name : String) : Except RankingError Nat :=
  match attempts.find? (·.provider == name) with
  | some attempt => .ok attempt.fallbackRung
  | none => .error (.unknownProvider name)

/-- `_rank_candidate`. -/
def rankCandidate (context : DealComparisonContext) (candidate : DealCandidate) :
    Except RankingError RankedDealCandidate := do
  let choice := choose candidate context
  let bucket := bucketOf candidate choice
  let free := choice.offer.any fun offer => offer.price.amountMinor = 0
  let attempts := sortBy attemptKey candidate.providerAttempts
  let rungs ← (usedProviders choice).mapM (rungOf attempts)
  return {
    steamAppid := candidate.steamAppid
    bucket := bucket.1
    evidenceGrade := choice.grade
    currentOffer := choice.offer
    historicalLow := choice.low
    discountBps := choice.offer.bind discountBps
    distanceAboveLowBps :=
      choice.offer.bind fun offer => choice.low.bind fun low => distanceAboveLow offer.price low.price
    reasons := [bucket.2] ++ if free then ["current_price_is_explicitly_free"] else []
    tradeoffs := tradeoffsOf choice
    fallbackRung := rungs.min?
    attemptedProviders := attempts
    usedProviders := usedProviders choice }

def EvidenceGrade.rank : EvidenceGrade → Nat
  | exact => 0
  | normalized => 1
  | degraded => 2
  | unknown => 3

def DealBucket.rank : DealBucket → Nat
  | atOrBelowLow => 0
  | within5Percent => 1
  | discounted => 2
  | currentOnly => 3
  | noncomparable => 4
  | unknown => 5

/-- `_sort_key`. -/
def sortKey (candidate : RankedDealCandidate) : Nat ×ₗ Nat ×ₗ Int ×ₗ Nat ×ₗ Nat :=
  toLex (candidate.evidenceGrade.rank, toLex (candidate.bucket.rank,
    toLex (-(candidate.discountBps.elim (-1) Int.ofNat),
      toLex (candidate.distanceAboveLowBps.getD maxSigned64, candidate.steamAppid))))

/-- `rank_deals`. -/
def rankDeals (candidates : List DealCandidate) (context : DealComparisonContext) :
    Except RankingError DealRanking :=
  if ¬(candidates.map (·.steamAppid)).Nodup then .error .duplicateAppids
  else do
    let ranked ← candidates.mapM (rankCandidate context)
    return ⟨context, sortBy sortKey ranked⟩

end SteamAgent.Deals
