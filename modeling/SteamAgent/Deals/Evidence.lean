import Mathlib.Data.List.Basic

/-!
# Deal evidence

The records of `deal_evidence.py`, with the checks of their `__post_init__` as
fields.
-/

namespace SteamAgent.Deals

/-- The largest signed 64-bit integer. -/
def maxSigned64 : Nat :=
  9223372036854775807

/-- The largest unsigned 32-bit integer. -/
def maxUnsigned32 : Nat :=
  4294967295

/-- A code of this many uppercase ASCII letters. -/
def isCode (length : Nat) (value : String) : Bool :=
  value.length == length && value.toList.all fun c => 'A' ≤ c && c ≤ 'Z'

inductive Comparability where
  | exactProduct
  | normalizedGame
  | unknown
deriving DecidableEq, Repr

inductive StoreClass where
  | official
  | keyshop
  | unknown
deriving DecidableEq, Repr

/-- `ProductIdentity`. -/
structure ProductIdentity where
  providerProductId : String
  steamAppid : Nat
  mapping : String
  positive : 1 ≤ steamAppid
  bounded : steamAppid ≤ maxUnsigned32
  named : providerProductId ≠ ""
deriving DecidableEq

/-- `Money`. -/
structure Money where
  amountMinor : Nat
  currency : String
  country : String
  bounded : amountMinor ≤ maxSigned64
  currencyCode : isCode 3 currency = true
  countryCode : isCode 2 country = true
deriving DecidableEq

/-- `Money` in US dollars. -/
def usd (amountMinor : Nat) (h : amountMinor ≤ maxSigned64) : Money where
  amountMinor := amountMinor
  currency := "USD"
  country := "US"
  bounded := h
  currencyCode := rfl
  countryCode := rfl

/-- `ManualReference`. -/
structure ManualReference where
  url : String
  purpose : String
  https : "https://".toList.isPrefixOf url.toList = true
  described : purpose ≠ ""
deriving DecidableEq

/-- `OfferEvidence`. -/
structure OfferEvidence where
  provider : String
  product : ProductIdentity
  price : Money
  regularPrice : Option Money
  discountPercent : Option Int
  storeClass : StoreClass
  observedAt : String
  providerUrl : ManualReference
  comparability : Comparability
  sellerId : Option String
deriving DecidableEq

/-- `HistoricalLowSummary`. -/
structure HistoricalLowSummary where
  provider : String
  product : ProductIdentity
  price : Money
  observedAt : String
  effectiveAt : Option String
  scope : String
  providerUrl : ManualReference
  comparability : Comparability
deriving DecidableEq

/-- `DealEvidenceSnapshot`. -/
structure DealEvidenceSnapshot where
  provider : String
  product : ProductIdentity
  offers : List OfferEvidence
  historyLows : List HistoricalLowSummary
  observedAt : String
  limitations : List String
deriving DecidableEq

end SteamAgent.Deals
