import SteamAgent.Stdlib.Choice
import SteamAgent.Stdlib.Datetime
import SteamAgent.Stdlib.JsonValue

/-!
# The catalog scan

`steam_store_catalog.py`: pages of `GetAppList`, read in AppID order until the
demand is passed, the stream ends or the provider fails.

The provider answers request `n` with a response or a `CatalogApiError`, in any
way.  `loads` stands for `json.loads` on the bytes of a body, with `none` for an
error.  A clock shows an instant, or a time without a time zone.

There are four groups.

* Scans and pages.
* `interpretPage`.
* The loop.
* `scanDemandedApps`.
-/

namespace SteamAgent.Catalog

open Choice (sortBy)
open Datetime (Instant)

/-! ## Records -/

def maxUnsigned32 : Nat :=
  4294967295

def maxUnsigned64 : Nat :=
  18446744073709551615

def defaultMaxResults : Nat :=
  50000

inductive CatalogStream where
  | games
  | nonGames
deriving DecidableEq, Repr

/-- The value of a `CatalogStream`. -/
def CatalogStream.value : CatalogStream → String
  | games => "games"
  | nonGames => "non_games"

structure CatalogApiError where
  code : String
  retryable : Bool
deriving DecidableEq, Repr

/-- What `scan_demanded_apps` raises. -/
inductive ScanError where
  | valueError (message : String)
  | api (e : CatalogApiError)
deriving DecidableEq, Repr

structure HttpResponse where
  status : Int
  body : List UInt8

structure CatalogApp where
  appid : Nat
  stream : CatalogStream
  lastModified : Option Nat
  priceChangeNumber : Option Nat
deriving DecidableEq, Repr

structure CatalogPageProvenance where
  pageNumber : Nat
  requestedLastAppid : Nat
  firstAppid : Option Nat
  lastAppid : Nat
  itemCount : Nat
  haveMoreResults : Bool
  retrievedAt : String
deriving DecidableEq, Repr

inductive ScanState where
  | complete
  | unfinished
deriving DecidableEq, Repr

inductive Termination where
  | noDemand
  | demandBoundary
  | endOfStream
  | providerError
deriving DecidableEq, Repr

/-- The value of a termination. -/
def Termination.value : Termination → String
  | noDemand => "no_demand"
  | demandBoundary => "demand_boundary"
  | endOfStream => "end_of_stream"
  | providerError => "provider_error"

structure CatalogScan where
  stream : CatalogStream
  maxResults : Nat
  state : ScanState
  termination : Termination
  demandedAppids : List Nat
  hits : List CatalogApp
  confirmedAbsentAppids : List Nat
  unresolvedAppids : List Nat
  pages : List CatalogPageProvenance
  scannedThroughAppid : Nat
  errorCode : Option String
  retryable : Bool
deriving DecidableEq, Repr

/-- An application of a page. -/
structure PageApp where
  appid : Nat
  lastModified : Option Nat
  priceChangeNumber : Option Nat
deriving DecidableEq, Repr

/-- `_Page`. -/
structure Page where
  apps : List PageApp
  lastAppid : Nat
  haveMoreResults : Bool
deriving DecidableEq, Repr

/-! ## Pages -/

def responseInvalid : CatalogApiError :=
  ⟨"PROVIDER_RESPONSE_INVALID", false⟩

/-- `_raise_for_status`. -/
def raiseForStatus (status : Int) : Except CatalogApiError Unit :=
  if status = 401 ∨ status = 403 then .error ⟨"AUTHENTICATION_FAILED", false⟩
  else if status = 400 then .error ⟨"INVALID_REQUEST", false⟩
  else if status = 429 then .error ⟨"RATE_LIMITED", true⟩
  else if status ≥ 500 then .error ⟨"PROVIDER_UNAVAILABLE", true⟩
  else if status ≠ 200 then .error responseInvalid
  else .ok ()

/-- `_optional_unsigned`. -/
def optionalUnsigned (fields : List (String × JsonValue)) (key : String) (maximum : Nat) :
    Except CatalogApiError (Option Nat) :=
  match JsonValue.get fields key with
  | none => .ok none
  | some value =>
    match value.unsigned maximum with
    | some n => .ok (some n)
    | none => .error responseInvalid

/-- The AppID of an application, which is larger than the one before it. -/
def readAppid (fields : List (String × JsonValue)) (previous : Nat) : Option Nat :=
  match (JsonValue.get fields "appid").bind (JsonValue.unsigned maxUnsigned32) with
  | some appid => if 0 < appid ∧ previous < appid then some appid else none
  | none => none

/-- One turn of the loop over the applications. -/
def readApp (previous : Nat) : JsonValue → Except CatalogApiError PageApp
  | .obj fields =>
    match readAppid fields previous with
    | none => .error responseInvalid
    | some appid => do
      let lastModified ← optionalUnsigned fields "last_modified" maxUnsigned32
      let priceChange ← optionalUnsigned fields "price_change_number" maxUnsigned64
      return ⟨appid, lastModified, priceChange⟩
  | _ => .error responseInvalid

/-- The loop over the applications of a page. -/
def readApps (previous : Nat) : List JsonValue → Except CatalogApiError (List PageApp)
  | [] => .ok []
  | value :: values => do
    let app ← readApp previous value
    let apps ← readApps app.appid values
    return app :: apps

/-- `supplied_last`: the value under `last_appid`, where `null` is none. -/
def readLast (fields : List (String × JsonValue)) : Except CatalogApiError (Option Nat) :=
  match JsonValue.get fields "last_appid" with
  | none | some .null => .ok none
  | some value =>
    match value.unsigned maxUnsigned32 with
    | some n => .ok (some n)
    | none => .error responseInvalid

/-- The last AppID of a page. -/
def lastAppidOf (apps : List PageApp) (supplied : Option Nat) (haveMore : Bool)
    (requested : Nat) : Except CatalogApiError Nat :=
  match apps.getLast? with
  | some app =>
    if supplied.any (· ≠ app.appid) then .error responseInvalid else .ok app.appid
  | none =>
    if haveMore then .error responseInvalid
    else if supplied.any (· ≠ requested) then .error responseInvalid
    else .ok requested

/-- The array under `apps`. -/
def appsValue (fields : List (String × JsonValue)) : Option (List JsonValue) :=
  match JsonValue.get fields "apps" with
  | none => some []
  | some (.arr values) => some values
  | some _ => none

/-- The boolean under `have_more_results`. -/
def haveMoreValue (fields : List (String × JsonValue)) : Option Bool :=
  match JsonValue.get fields "have_more_results" with
  | none => some false
  | some (.bool b) => some b
  | some _ => none

/-- A page, from the object under `response`. -/
def interpretBody (fields : List (String × JsonValue)) (requested : Nat) :
    Except CatalogApiError Page :=
  match appsValue fields, haveMoreValue fields with
  | some values, some haveMore => do
    let apps ← readApps requested values
    let supplied ← readLast fields
    let lastAppid ← lastAppidOf apps supplied haveMore requested
    if haveMore = true ∧ lastAppid ≤ requested then .error responseInvalid
    else .ok ⟨apps, lastAppid, haveMore⟩
  | _, _ => .error responseInvalid

/-- `_interpret_page`. -/
def interpretPage (loads : List UInt8 → Option JsonValue) (response : HttpResponse)
    (requested : Nat) : Except CatalogApiError Page := do
  raiseForStatus response.status
  match loads response.body with
  | some (.obj payload) =>
    match JsonValue.get payload "response" with
    | some (.obj fields) => interpretBody fields requested
    | _ => .error responseInvalid
  | _ => .error responseInvalid

/-! ## The loop -/

/-- The query of a request, as `_request_path` builds it. -/
structure Request where
  stream : CatalogStream
  lastAppid : Nat
  maxResults : Nat
deriving DecidableEq, Repr

/-- What a scan runs against: the answer to request `n`, with what the request gate and the
transport do, `json.loads`, and the clock after request `n`. -/
structure World where
  answer : Nat → Request → Except CatalogApiError HttpResponse
  loads : List UInt8 → Option JsonValue
  clock : Nat → Option Instant

/-- `value.replace(microsecond=0)`. -/
def wholeSecond (i : Instant) : Instant :=
  ⟨i.second * 1000000, i.second_mul_lt⟩

/-- `_timestamp`. -/
def timestamp : Option Instant → Except CatalogApiError String
  | none => .error responseInvalid
  | some i => .ok (wholeSecond i).text

/-- `SteamStoreCatalogClient`. -/
structure Client where
  maxResults : Nat
  valid : 1 ≤ maxResults ∧ maxResults ≤ defaultMaxResults

/-- The request of one turn: the page, and when it was retrieved. -/
def Client.turn (client : Client) (w : World) (stream : CatalogStream) (n cursor : Nat) :
    Except CatalogApiError (Page × String) := do
  let response ← w.answer n ⟨stream, cursor, client.maxResults⟩
  let page ← interpretPage w.loads response cursor
  let retrievedAt ← timestamp (w.clock n)
  return (page, retrievedAt)

/-- The variables of the loop. -/
structure LoopState where
  hits : List CatalogApp
  pages : List CatalogPageProvenance
  cursor : Nat

/-- `hits[app.appid] = app`. -/
def putHit (hits : List CatalogApp) (app : CatalogApp) : List CatalogApp :=
  hits.filter (·.appid ≠ app.appid) ++ [app]

/-- The loop over the applications of an accepted page. -/
def collectHits (stream : CatalogStream) (demanded : List Nat) (hits : List CatalogApp)
    (apps : List PageApp) : List CatalogApp :=
  apps.foldl (fun hits app =>
    if demanded.contains app.appid then
      putHit hits ⟨app.appid, stream, app.lastModified, app.priceChangeNumber⟩
    else hits) hits

/-- An accepted page. -/
def LoopState.accept (state : LoopState) (stream : CatalogStream) (demanded : List Nat)
    (page : Page) (retrievedAt : String) : LoopState where
  hits := collectHits stream demanded state.hits page.apps
  pages := state.pages ++ [{
    pageNumber := state.pages.length + 1
    requestedLastAppid := state.cursor
    firstAppid := page.apps.head?.map (·.appid)
    lastAppid := page.lastAppid
    itemCount := page.apps.length
    haveMoreResults := page.haveMoreResults
    retrievedAt := retrievedAt }]
  cursor := page.lastAppid

/-- `_scan_result`. -/
def scanResult (client : Client) (stream : CatalogStream) (demanded : List Nat)
    (scanState : ScanState) (termination : Termination) (e : Option CatalogApiError)
    (state : LoopState) : CatalogScan where
  stream := stream
  maxResults := client.maxResults
  state := scanState
  termination := termination
  demandedAppids := demanded
  hits := sortBy (·.appid) state.hits
  confirmedAbsentAppids :=
    if termination = .endOfStream then
      demanded.filter fun appid => !(state.hits.map (·.appid)).contains appid
    else demanded.filter fun appid =>
      appid ≤ min state.cursor (demanded.getLastD 0) && !(state.hits.map (·.appid)).contains appid
  unresolvedAppids :=
    if termination = .endOfStream then [] else demanded.filter fun appid => state.cursor < appid
  pages := state.pages
  scannedThroughAppid := state.cursor
  errorCode := e.map (·.code)
  retryable := e.any (·.retryable)

/-- The loop of `scan_demanded_apps`, for at most so many requests. -/
def scanLoop (client : Client) (w : World) (stream : CatalogStream) (demanded : List Nat) :
    Nat → LoopState → Option (Except ScanError CatalogScan)
  | 0, _ => none
  | requests + 1, state =>
    match client.turn w stream state.pages.length state.cursor with
    | .error e =>
      if state.pages = [] then some (.error (.api e))
      else some (.ok (scanResult client stream demanded .unfinished .providerError (some e) state))
    | .ok (page, retrievedAt) =>
      let state := state.accept stream demanded page retrievedAt
      if page.haveMoreResults = false then
        some (.ok (scanResult client stream demanded .complete .endOfStream none state))
      else if demanded.getLastD 0 ≤ state.cursor then
        some (.ok (scanResult client stream demanded .complete .demandBoundary none state))
      else scanLoop client w stream demanded requests state

/-! ## A scan -/

/-- `_normalize_demanded_appids`, of a set of numbers. -/
def normalizeDemandedAppids (values : List Int) : Except ScanError (List Nat) :=
  if values.Nodup ∧ ∀ value ∈ values, 0 < value ∧ value ≤ maxUnsigned32 then
    .ok (sortBy id (values.map Int.toNat))
  else .error (.valueError "demanded AppIDs must be positive unique uint32 values")

/-- The scan of an empty demand. -/
def noDemandScan (client : Client) (stream : CatalogStream) : CatalogScan where
  stream := stream
  maxResults := client.maxResults
  state := .complete
  termination := .noDemand
  demandedAppids := []
  hits := []
  confirmedAbsentAppids := []
  unresolvedAppids := []
  pages := []
  scannedThroughAppid := 0
  errorCode := none
  retryable := false

/-- `scan_demanded_apps`, for at most so many requests. -/
def scanDemandedApps (client : Client) (w : World) (hasKey : Bool) (values : List Int)
    (stream : CatalogStream) (requests : Nat) : Option (Except ScanError CatalogScan) :=
  match normalizeDemandedAppids values with
  | .error e => some (.error e)
  | .ok demanded =>
    if demanded = [] then some (.ok (noDemandScan client stream))
    else if hasKey = false then some (.error (.api ⟨"AUTHENTICATION_FAILED", false⟩))
    else scanLoop client w stream demanded requests ⟨[], [], 0⟩

end SteamAgent.Catalog
