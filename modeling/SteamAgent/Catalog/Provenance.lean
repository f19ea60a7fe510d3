import SteamAgent.Catalog.Scan
import SteamAgent.Storage.Feedback

/-!
# The provenance of a catalog snapshot

The checks that `complete_catalog_snapshot` makes on a scan before it stores it,
and `_stream_input` of `catalog_inventory.py`, which passes the scan to it.

There are three groups.

* The records that storage takes.
* `catalogStream`.
* `checkDemandBoundary`.
-/

namespace SteamAgent.Catalog

open Storage (Exn require)
open Storage.Feedback (Stamp FromIsoFormat)

/-! ## Records -/

structure CatalogPageInput where
  pageNumber : Int
  requestedLastAppid : Int
  firstAppid : Option Int
  lastAppid : Int
  itemCount : Int
  haveMoreResults : Bool
  retrievedAt : Stamp

structure CatalogStreamInput where
  stream : String
  termination : String
  scannedThroughAppid : Int
  filterContext : List (String × JsonValue)
  pages : List CatalogPageInput

/-- The page of `_stream_input`. -/
def pageInput (page : CatalogPageProvenance) : CatalogPageInput where
  pageNumber := page.pageNumber
  requestedLastAppid := page.requestedLastAppid
  firstAppid := page.firstAppid.map Int.ofNat
  lastAppid := page.lastAppid
  itemCount := page.itemCount
  haveMoreResults := page.haveMoreResults
  retrievedAt := .text page.retrievedAt

/-- The filters of `_stream_input`. -/
def filterContext (stream : CatalogStream) (maxResults : Nat) : List (String × JsonValue) :=
  let games := stream == .games
  [("include_games", .bool games), ("include_dlc", .bool !games),
    ("include_software", .bool !games), ("include_videos", .bool !games),
    ("include_hardware", .bool !games), ("max_results", .int maxResults)]

/-- `_stream_input`. -/
def streamInput (scan : CatalogScan) : CatalogStreamInput where
  stream := scan.stream.value
  termination := scan.termination.value
  scannedThroughAppid := scan.scannedThroughAppid
  filterContext := filterContext scan.stream scan.maxResults
  pages := scan.pages.map pageInput

/-! ## Streams -/

def booleanKeys : List String :=
  ["include_games", "include_dlc", "include_software", "include_videos", "include_hardware"]

/-- `context[key]`, as a boolean. -/
def filterOf (context : List (String × JsonValue)) (key : String) : Option Bool :=
  match JsonValue.get context key with
  | some (.bool b) => some b
  | _ => none

/-- The value under `max_results` is allowed. -/
def maxResultsAllowed (context : List (String × JsonValue)) : Bool :=
  match JsonValue.get context "max_results" with
  | none => true
  | some (.int n) => 1 ≤ n && n ≤ 50000
  | some _ => false

/-- `_validate_catalog_filter_context`. -/
def validateCatalogFilterContext (stream : String) (context : List (String × JsonValue)) :
    Except Exn Unit := do
  require ((∀ key ∈ booleanKeys, (JsonValue.get context key).isSome) ∧
      ∀ field ∈ context, field.1 ∈ booleanKeys ∨ field.1 = "max_results")
    (.valueError "catalog filter context contains unsupported fields")
  require (∀ key ∈ booleanKeys, (filterOf context key).isSome)
    (.valueError "catalog include filters must be boolean")
  require (∀ key ∈ booleanKeys,
      filterOf context key = some ((stream == "games") == (key == "include_games")))
    (.valueError "catalog filter context does not match its stream")
  require (maxResultsAllowed context) (.valueError "catalog max_results filter is invalid")

/-- The checks of one page. -/
def checkPage (page : CatalogPageInput) (number : Nat) (previousLast : Int) : Except Exn Unit := do
  require (page.pageNumber = number) (.valueError "catalog page numbers must be contiguous")
  require (page.requestedLastAppid = previousLast)
    (.valueError "catalog page cursor chain is inconsistent")
  require (∀ first ∈ page.firstAppid, 1 ≤ first ∧ first ≤ page.lastAppid)
    (.valueError "catalog first AppID is invalid")
  require (0 ≤ page.lastAppid ∧ page.lastAppid ≤ maxUnsigned32 ∧ 0 ≤ page.itemCount)
    (.valueError "catalog page bounds are invalid")

/-- The loop over the pages of a stream: the normalized pages, and the last AppID. -/
def normalizePages (iso : FromIsoFormat) (number : Nat) (previousLast : Int) :
    List CatalogPageInput → Except Exn (List (CatalogPageInput × String) × Int)
  | [] => .ok ([], previousLast)
  | page :: pages => do
    checkPage page number previousLast
    let retrievedAt ← page.retrievedAt.timestamp iso
    let (normalized, last) ← normalizePages iso (number + 1) page.lastAppid pages
    return ((page, retrievedAt) :: normalized, last)

/-- One turn of the loop of `_catalog_streams`. -/
def catalogStream (iso : FromIsoFormat) (stream : CatalogStreamInput) :
    Except Exn (CatalogStreamInput × List (CatalogPageInput × String)) := do
  require (stream.termination ∈ ["no_demand", "demand_boundary", "end_of_stream"])
    (.valueError "catalog stream must be complete before persistence")
  require (0 ≤ stream.scannedThroughAppid ∧ stream.scannedThroughAppid ≤ maxUnsigned32)
    (.valueError "catalog scan boundary is invalid")
  validateCatalogFilterContext stream.stream stream.filterContext
  let (normalized, previousLast) ← normalizePages iso 1 0 stream.pages
  require (previousLast = stream.scannedThroughAppid)
    (.valueError "catalog scan boundary does not match its final page")
  return (stream, normalized)

/-! ## The demand -/

/-- The checks of `complete_catalog_snapshot` on a stream. -/
def checkDemandBoundary (demanded : List Nat) (stream : CatalogStreamInput) : Except Exn Unit := do
  require (¬(demanded ≠ [] ∧ stream.termination = "no_demand"))
    (.valueError "nonempty catalog demand cannot use no-demand provenance")
  require (¬(demanded ≠ [] ∧ stream.termination = "demand_boundary" ∧
      stream.scannedThroughAppid < demanded.getLastD 0))
    (.valueError "catalog demand boundary does not cover demand")

end SteamAgent.Catalog
