import SteamAgent.Deals.Evidence
import SteamAgent.Stdlib.DecimalText
import SteamAgent.Stdlib.JsonValue
import SteamAgent.Storage.Prices

/-!
# The GG.deals decoder

`_interpret_batch_response` of `gg_deals.py`.

`Library` stands for `json.loads` with `parse_float=Decimal`, for `urlsplit` and
for `str.lower`.  `json.loads` hands each number with a fraction or an exponent to
`Decimal` as soon as it reads it, so that `scan` answers with the texts of these
numbers as well, up to the end of the body or to its first error.

There are four groups.

* Errors and headers.
* Prices: `optionalUsd`.
* `interpretItem`.
* `interpretBatchResponse`.
-/

namespace SteamAgent.Deals

open Decimal (Number ofText defaultContext)
open Storage (SplitUrl)

/-- `json.loads` on bytes, `urlsplit` with its attributes, where `none` is an error, and
`str.lower`. -/
structure Library where
  scan : List UInt8 → List String × Option JsonValue
  urlsplit : String → Option SplitUrl
  lower : String → String

/-! ## Errors and headers -/

/-- What the decoder raises: a `GgDealsError`, or an exception that nothing catches. -/
inductive Raised where
  | ggDeals (code : String) (retryable : Bool) (retryAfterSeconds : Option Nat)
  | invalidOperation
  | overflow
  | valueError
deriving DecidableEq, Repr

def responseInvalid : Raised :=
  .ggDeals "PROVIDER_RESPONSE_INVALID" false none

structure HttpResponse where
  status : Int
  body : List UInt8
  headers : List (String × String)

def maxResponseBytes : Nat :=
  1024 * 1024

def maxJsonDepth : Nat :=
  12

def maxJsonNodes : Nat :=
  1000

/-- `_bounded_header_int`. -/
def boundedHeaderInt (value : Option String) (maximum : Nat) : Option Nat :=
  match value with
  | none => none
  | some text =>
    if text = "" ∨ ¬text.toList.all Char.isDigit then none
    else
      let stripped := text.toList.dropWhile (· = '0')
      let normalized := if stripped = [] then ['0'] else stripped
      let upper := Nat.toDigits 10 maximum
      if upper.length < normalized.length ∨
          (normalized.length = upper.length ∧ upper < normalized) then none
      else some (Decimal.valueOf normalized)

/-- `_retry_after`. -/
def retryAfter (headers : List (String × String)) : Option Nat :=
  let value := match headers.lookup "retry-after" with
    | some text => if text = "" then headers.lookup "Retry-After" else some text
    | none => headers.lookup "Retry-After"
  boundedHeaderInt value 86400

structure RateLimitMetadata where
  limit : Option Nat
  remaining : Option Nat
  resetValue : Option Nat
deriving DecidableEq, Repr

/-- `lowered.get(key)`: of several headers with one name, the last one. -/
def lowered (lib : Library) (headers : List (String × String)) (key : String) : Option String :=
  (headers.reverse.map fun header => (lib.lower header.1, header.2)).lookup key

/-- `_rate_limit_metadata`. -/
def rateLimitMetadata (lib : Library) (headers : List (String × String)) : RateLimitMetadata :=
  let limit := boundedHeaderInt (lowered lib headers "x-ratelimit-limit") maxSigned64
  let remaining := boundedHeaderInt (lowered lib headers "x-ratelimit-remaining") maxSigned64
  let resetValue := boundedHeaderInt (lowered lib headers "x-ratelimit-reset") maxSigned64
  ⟨limit, if remaining.any fun n => limit.any (· < n) then none else remaining, resetValue⟩

/-- `_raise_for_status`. -/
def raiseForStatus (response : HttpResponse) : Except Raised Unit :=
  if response.status = 401 ∨ response.status = 403 then
    .error (.ggDeals "AUTHENTICATION_FAILED" false none)
  else if response.status = 429 then
    .error (.ggDeals "PROVIDER_RATE_LIMITED" true (retryAfter response.headers))
  else if response.status ≥ 500 then .error (.ggDeals "PROVIDER_UNAVAILABLE" true none)
  else if response.status ≠ 200 then .error responseInvalid
  else .ok ()

/-! ## Prices -/

/-- `Decimal(str(value))`, of the values that `_optional_usd` lets through.  The constants
`NaN`, `Infinity` and `-Infinity` are floats. -/
def numberOf : JsonValue → Option Number
  | .str text => if text = "" ∨ 64 < text.length then none else ofText text.toList
  | .int n => if 0 ≤ n ∧ n ≤ maxSigned64 then some (.finite false ⟨n.toNat, 0⟩) else none
  | .float text =>
    if text ∈ ["NaN", "Infinity", "-Infinity"] then none else ofText text.toList
  | _ => none

/-- The amount of a number of hundredths, unless it is no integer, negative or too large. -/
def amountOf (negative : Bool) (minor : Decimal) : Except Raised Money :=
  if minor.equal minor.toIntegralValue = true ∧ ¬(negative = true ∧ minor.coefficient ≠ 0) then
    if h : minor.toInt ≤ maxSigned64 then .ok (usd minor.toInt h) else .error responseInvalid
  else .error responseInvalid

/-- `_optional_usd`. -/
def optionalUsd : Option JsonValue → Except Raised (Option Money)
  | none | some .null => .ok none
  | some value =>
    match numberOf value with
    | none | some .special => .error responseInvalid
    | some (.finite negative magnitude) =>
      match (magnitude.scale 100).finalize defaultContext with
      | none => .error .overflow
      | some minor => (amountOf negative minor).map some

/-! ## Items -/

/-- `_SAFE_PAGE_SLUG`. -/
def safePageSlug (text : List Char) : Bool :=
  let inSlug (c : Char) : Bool := ('a' ≤ c && c ≤ 'z') || ('0' ≤ c && c ≤ '9')
  match text with
  | [] => false
  | c :: rest => inSlug c && rest.length ≤ 255 && rest.all fun c => inSlug c || c == '-'

/-- `_safe_provider_url`, of a string. -/
def safeProviderUrl (lib : Library) (value : String) : Bool :=
  match lib.urlsplit value with
  | none => false
  | some parsed =>
    let path := parsed.path.toList.dropWhile (· = '/')
    let segments := (path.reverse.dropWhile (· = '/')).reverse.splitOn '/'
    parsed.scheme == "https" && parsed.hostname == some "gg.deals" && parsed.username.isNone &&
      parsed.password.isNone && (parsed.port.all (· = 443)) && parsed.query == "" &&
      parsed.fragment == "" &&
      match segments with
      | [category, slug] =>
        ["game".toList, "dlc".toList, "pack".toList].contains category && safePageSlug slug
      | _ => false

/-- `ManualReference(...)`. -/
def manualReference (url : String) : Except Raised ManualReference :=
  if h : "https://".toList.isPrefixOf url.toList = true then
    .ok ⟨url, "GG.deals attributed product and offer details", h, of_decide_eq_true rfl⟩
  else .error .valueError

/-- The fields of current prices. -/
def currentFields : List (String × StoreClass) :=
  [("currentRetail", .official), ("currentKeyshops", .keyshop)]

/-- The fields of historical prices, with their scopes. -/
def historyFields : List (String × String) :=
  [("historicalRetail", "all_time_official_stores"), ("historicalKeyshops", "all_time_keyshops")]

def offerOf (product : ProductIdentity) (url : ManualReference) (observedAt : String)
    (storeClass : StoreClass) (price : Money) : OfferEvidence where
  provider := "gg-deals"
  product := product
  price := price
  regularPrice := none
  discountPercent := none
  storeClass := storeClass
  observedAt := observedAt
  providerUrl := url
  comparability := .normalizedGame
  sellerId := none

def lowOf (product : ProductIdentity) (url : ManualReference) (observedAt : String)
    (scope : String) (price : Money) : HistoricalLowSummary where
  provider := "gg-deals"
  product := product
  price := price
  observedAt := observedAt
  effectiveAt := none
  scope := scope
  providerUrl := url
  comparability := .normalizedGame

/-- The prices under some fields. -/
def readPrices {α β : Type} (prices : List (String × JsonValue)) (fields : List (String × α))
    (make : α → Money → β) : Except Raised (List β) := do
  let read ← fields.mapM fun field => do
    let price ← optionalUsd (JsonValue.get prices field.1)
    return price.map (make field.2)
  return read.reduceOption

def limitations : List String :=
  ["historical_low_summary_not_price_event_history",
    "individual_store_and_drm_details_not_exposed",
    "country_region_and_activation_eligibility_may_differ", "provider_page_is_manual_only"]

/-- The prices and the URL of an item, where both are allowed. -/
def partsOf (lib : Library) : JsonValue → Option (List (String × JsonValue) × String)
  | .obj fields =>
    match JsonValue.get fields "prices", JsonValue.get fields "url" with
    | some (.obj prices), some (.str url) =>
      if safeProviderUrl lib url then some (prices, url) else none
    | _, _ => none
  | _ => none

/-- `_interpret_item`. -/
def interpretItem (lib : Library) (item : JsonValue) (product : ProductIdentity)
    (observedAt : String) : Except Raised DealEvidenceSnapshot :=
  match partsOf lib item with
  | none => .error responseInvalid
  | some (prices, url) => do
    let url ← manualReference url
    let offers ← readPrices prices currentFields (offerOf product url observedAt)
    let historyLows ← readPrices prices historyFields (lowOf product url observedAt)
    return ⟨"gg-deals", product, offers, historyLows, observedAt, limitations⟩

/-! ## Batches -/

/-- An AppID. -/
structure AppId where
  value : Nat
  positive : 1 ≤ value
  bounded : value ≤ maxUnsigned32

theorem AppId.value_eq_iff (a b : AppId) : a.value = b.value ↔ a = b := by
  cases a
  cases b
  simp

instance : DecidableEq AppId :=
  fun a b => decidable_of_iff (a.value = b.value) (AppId.value_eq_iff a b)

/-- `str(appid)`. -/
def AppId.text (appid : AppId) : String :=
  toString appid.value

structure GgDealsBatch where
  requestedAppids : List AppId
  snapshots : List DealEvidenceSnapshot
  notFoundAppids : List AppId
  rateLimit : RateLimitMetadata

/-- `Decimal` holds the number that `json.loads` hands to it. -/
def holdsLiteral (literal : String) : Bool :=
  (ofText literal.toList).isSome

/-- The children of a value. -/
def children : JsonValue → List JsonValue
  | .obj fields => fields.map (·.2)
  | .arr items => items
  | _ => []

/-- The loop over the nodes of a payload, with so many more nodes allowed. -/
def withinBounds : Nat → List (JsonValue × Nat) → Bool
  | _, [] => true
  | 0, _ :: _ => false
  | nodes + 1, (value, depth) :: stack =>
    depth ≤ maxJsonDepth &&
      withinBounds nodes (((children value).map fun child => (child, depth + 1)).reverse ++ stack)

/-- `_decode_bounded_json`. -/
def decodeBoundedJson (lib : Library) (body : List UInt8) : Except Raised JsonValue :=
  let scanned := lib.scan body
  if ¬scanned.1.all holdsLiteral then .error .invalidOperation
  else
    match scanned.2 with
    | none => .error responseInvalid
    | some payload =>
      if withinBounds maxJsonNodes [(payload, 1)] then .ok payload else .error responseInvalid

/-- The object under `data`, where the payload is one of a success and names requested
AppIDs only. -/
def dataOf (requested : List AppId) : JsonValue → Option (List (String × JsonValue))
  | .obj payload =>
    match JsonValue.get payload "success", JsonValue.get payload "data" with
    | some (.bool true), some (.obj data) =>
      if data.length ≤ requested.length ∧ ∀ field ∈ data, field.1 ∈ requested.map AppId.text then
        some data
      else none
    | _, _ => none
  | _ => none

/-- `data.get(str(appid))`, where `null` is none. -/
def itemOf (data : List (String × JsonValue)) (appid : AppId) : Option JsonValue :=
  match JsonValue.get data appid.text with
  | none | some .null => none
  | some item => some item

theorem productId_ne_empty (text : String) : "steam/app/" ++ text ≠ "" := by
  intro h
  have hlist := congrArg String.toList h
  rw [String.toList_append] at hlist
  cases hlist

/-- The product of an AppID. -/
def productOf (appid : AppId) : ProductIdentity where
  providerProductId := "steam/app/" ++ appid.text
  steamAppid := appid.value
  mapping := "exact"
  positive := appid.positive
  bounded := appid.bounded
  named := productId_ne_empty _

/-- One turn of the loop over the requested AppIDs. -/
def interpretAppid (lib : Library) (data : List (String × JsonValue)) (observedAt : String)
    (appid : AppId) : Except Raised (Option DealEvidenceSnapshot) :=
  match itemOf data appid with
  | none => .ok none
  | some item => (interpretItem lib item (productOf appid) observedAt).map some

/-- `_interpret_batch_response`. -/
def interpretBatchResponse (lib : Library) (response : HttpResponse) (requested : List AppId)
    (observedAt : String) : Except Raised GgDealsBatch := do
  raiseForStatus response
  if maxResponseBytes < response.body.length then .error responseInvalid
  else do
    let payload ← decodeBoundedJson lib response.body
    match dataOf requested payload with
    | none => .error responseInvalid
    | some data => do
      let found ← requested.mapM (interpretAppid lib data observedAt)
      return {
        requestedAppids := requested
        snapshots := found.reduceOption
        notFoundAppids := requested.filter fun appid => (itemOf data appid).isNone
        rateLimit := rateLimitMetadata lib response.headers }

end SteamAgent.Deals
