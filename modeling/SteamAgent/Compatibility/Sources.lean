import Mathlib.Data.List.Dedup
import Mathlib.Data.List.DropRight
import SteamAgent.Compatibility.Assess
import SteamAgent.Requirements.Parser
import SteamAgent.Stdlib.JsonValue

/-!
# The sources of a compatibility query

What `compatibility_query.py` is given, and how fresh it says each part is: the
declared facts with the row of the latest attempt at them, the system profile,
and what is installed and owned.

There are four groups.

* Values and identifiers.
* The records of the sources.
* Ages, and the rules by which a later attempt supersedes what is retained.
* The facts that count, `compatibility_declared_facts` and `_declared`.
-/

namespace SteamAgent.Compatibility

open Choice (sortBy)
open Datetime (Instant)

/-! ## Values -/

/-- What a query asks of the standard library. -/
structure QueryLibrary where
  chars : CharLibrary
  requirementChars : Requirements.CharLibrary
  casefold : String → String
  isAlnum : Char → Bool
  /-- `datetime.fromisoformat(value.replace("Z", "+00:00"))` of an aware text, in UTC. -/
  fromIsoFormat : String → Option Instant
  isoformat : Instant → String
  /-- `json.dumps`, canonical. -/
  dumps : JsonValue → String
  /-- The first 24 digits of the SHA-256 of a text. -/
  digest : String → String

/-- `fields.get(key)`, with nothing for a key that is missing. -/
def field (fields : List (String × JsonValue)) (key : String) : JsonValue :=
  (JsonValue.get fields key).getD .null

/-- `value.get(key)`, if the value is a mapping. -/
def nestedField (value : JsonValue) (key : String) : JsonValue :=
  match value with
  | .obj fields => field fields key
  | _ => .null

/-- `_nested`. -/
def nested (value : JsonValue) (keys : List String) : JsonValue :=
  keys.foldl nestedField value

/-- `value == text`. -/
def isText (value : JsonValue) (text : String) : Bool :=
  match value with
  | .str s => s == text
  | _ => false

/-- `_fact_value`. -/
def factValue (value : JsonValue) : JsonValue :=
  if isText (nestedField value "state") "known" then nestedField value "value" else .null

/-- A value that a set can be asked for; a `TypeError` otherwise. -/
def hashable : JsonValue → Except ValueError Unit
  | .arr _ => .error ⟨"unhashable type: 'list'"⟩
  | .obj _ => .error ⟨"unhashable type: 'dict'"⟩
  | _ => .ok ()

/-- An identifier of a row: an integer, which a boolean is too, or a text. -/
inductive Identity where
  | num (n : Int)
  | flag (b : Bool)
  | text (s : String)
deriving DecidableEq

namespace Identity

/-- The number that `==` compares. -/
def number : Identity → Option Int
  | num n => some n
  | flag b => some (if b then 1 else 0)
  | text _ => none

/-- An integer that is no boolean. -/
def order : Option Identity → Option Int
  | some (num n) => some n
  | _ => none

/-- `a == b`. -/
def same : Option Identity → Option Identity → Bool
  | none, none => true
  | some (text s), some (text t) => s == t
  | some a, some b => a.number.isSome && a.number == b.number
  | _, _ => false

/-- `str(value)`. -/
def str : Option Identity → String
  | none => "None"
  | some (num n) => toString n
  | some (flag b) => if b then "True" else "False"
  | some (text s) => s

end Identity

/-- `str(value)` of a boolean. -/
def boolText (b : Bool) : String :=
  if b then "True" else "False"

/-! ## Records -/

inductive AttemptStatus where
  | complete
  | incomplete
  | failed
  | running
deriving DecidableEq, Repr

inductive LocalSource where
  | installedProjection
  | visibleOwned
deriving DecidableEq, Repr

def LocalSource.value : LocalSource → String
  | .installedProjection => "installed_projection"
  | .visibleOwned => "visible_owned"

structure LocalObservation where
  presence : Presence
  observedAt : Option Instant
  source : LocalSource
  snapshotId : Option Identity
  latestAttemptAt : Option Instant
  latestAttemptStatus : Option AttemptStatus
  promotedSyncRunId : Option Identity
  latestAttemptId : Option Identity
deriving DecidableEq

def LocalObservation.make (value : LocalObservation) : Except ValueError LocalObservation := do
  require (value.presence ≠ .unknown → value.observedAt ≠ none)
    "known local observations require observed_at"
  require (value.latestAttemptAt = none ↔ value.latestAttemptStatus = none)
    "latest attempt time and status must be supplied together"
  return { value with
    observedAt := value.observedAt.map Instant.wholeSecond
    latestAttemptAt := value.latestAttemptAt.map Instant.wholeSecond }

structure SystemSnapshot where
  targetKey : String
  profile : Option (List (String × JsonValue))
  observedAt : Option Instant
  snapshotId : Option Identity
  latestAttemptAt : Option Instant
  latestAttemptStatus : Option AttemptStatus
  latestAttemptId : Option Identity
  promotedSyncRunId : Option Identity

def SystemSnapshot.make (system : SystemSnapshot) : Except ValueError SystemSnapshot := do
  require (isMachineKey system.targetKey) "target key is invalid"
  require (system.profile.isSome → system.observedAt ≠ none)
    "a system profile requires observed_at"
  require (system.latestAttemptAt = none ↔ system.latestAttemptStatus = none)
    "latest system attempt time and status must be supplied together"
  return { system with
    observedAt := system.observedAt.map Instant.wholeSecond
    latestAttemptAt := system.latestAttemptAt.map Instant.wholeSecond }

/-- A row of `declared_snapshot["items"]`. -/
structure DeclaredItem where
  facts : JsonValue
  observedAt : Option String
  promotedSyncRunId : Option Int
  projectionIdentity : Option Identity

/-- A row of `declared_snapshot["latest_demand"]`: the latest attempt at an AppID. -/
structure DeclaredDemand where
  targeted : Bool
  evaluated : Bool
  state : Option String
  errorCode : Option String
  observedAt : Option String
  startedAt : Option String
  syncRunId : Option Int
deriving DecidableEq

/-! ## Ages -/

def secondsUs (n : Nat) : Nat :=
  n * 1000000

/-- `DECLARED_FRESH`. -/
def declaredFresh : Nat :=
  secondsUs (7 * 86400)

/-- `DECLARED_EXPIRES`. -/
def declaredExpires : Nat :=
  secondsUs (30 * 86400)

/-- `SYSTEM_FRESH`. -/
def systemFresh : Nat :=
  secondsUs (30 * 86400)

/-- `INSTALLED_FRESH`. -/
def installedFresh : Nat :=
  secondsUs (15 * 60)

/-- `OWNED_FRESH`. -/
def ownedFresh : Nat :=
  secondsUs (24 * 3600)

/-- `_age`, in microseconds. -/
def age (observedAt now : Instant) : Option Nat :=
  if now < observedAt then none else some (now.us - observedAt.us)

/-- `_declared_freshness`. -/
def declaredFreshness (observedAt now : Instant) : Freshness :=
  match age observedAt now with
  | none => .unknown
  | some age => if age ≤ declaredFresh then .fresh else if age ≤ declaredExpires then .stale
    else .expired

/-- `_incomplete_attempt_supersedes`. -/
def incompleteAttemptSupersedes (observedAt : Instant) (promotedRunId : Option Identity)
    (latestAttemptAt : Option Instant) (latestAttemptId : Option Identity)
    (latestAttemptStatus : Option AttemptStatus) : Bool :=
  match latestAttemptAt with
  | none => false
  | some latest =>
    if latestAttemptStatus = none ∨ latestAttemptStatus = some .complete then false
    else if latest > observedAt then true
    else if latest < observedAt then false
    else if Identity.same latestAttemptId promotedRunId ∧ latestAttemptId ≠ none then false
    else
      match Identity.order latestAttemptId, Identity.order promotedRunId with
      | some attempt, some promoted => attempt > promoted
      -- Equal times with identifiers that have no order are ambiguous.
      | _, _ => true

/-- The attempt of a system profile that is later than the profile. -/
def SystemSnapshot.superseded (system : SystemSnapshot) (observedAt : Instant) : Bool :=
  incompleteAttemptSupersedes observedAt system.promotedSyncRunId system.latestAttemptAt
    system.latestAttemptId system.latestAttemptStatus

/-- The attempt of a local source that is later than the observation. -/
def LocalObservation.superseded (value : LocalObservation) (observedAt : Instant) : Bool :=
  incompleteAttemptSupersedes observedAt value.promotedSyncRunId value.latestAttemptAt
    value.latestAttemptId value.latestAttemptStatus

/-- `_system_freshness`. -/
def systemFreshness (system : Option SystemSnapshot) (now : Instant) (policy : Nat) : Freshness :=
  match system with
  | none => .unknown
  | some system =>
    match system.observedAt with
    | none => .unknown
    | some observedAt =>
      match age observedAt now with
      | none => .unknown
      | some age =>
        if age ≤ policy then if system.superseded observedAt then .stale else .fresh
        else .expired

/-- The age up to which a local source is fresh. -/
def localPolicy (installedKind : Bool) : Nat :=
  if installedKind then installedFresh else ownedFresh

/-- `_local_freshness`. -/
def localFreshness (value : Option LocalObservation) (now : Instant) (installedKind : Bool) :
    Freshness :=
  match value with
  | none => .unknown
  | some value =>
    match value.observedAt with
    | none => .unknown
    | some observedAt =>
      match age observedAt now with
      | none => .unknown
      | some age =>
        if value.superseded observedAt then .stale
        else if age ≤ localPolicy installedKind then .fresh else .stale

def Freshness.order : Freshness → Nat
  | .fresh => 0
  | .stale => 1
  | .expired => 2
  | .unknown => 3

/-- `_worst_freshness`. -/
def worstFreshness (a b : Freshness) : Freshness :=
  if a.order < b.order then b else a

/-! ## Declared facts -/

def inputFeatureSlugs : List String :=
  ["partial_controller_support", "full_controller_support", "tracked_controller_support",
    "dualshock_usb_support", "dualshock_bluetooth_support", "dualsense_usb_support",
    "dualsense_bluetooth_support", "steam_input_api_support", "gamepad_preferred",
    "keyboard_only_option", "mouse_only_option", "touch_only_option"]

def accessibilityFeatureSlugs : List String :=
  ["adjustable_text_size", "subtitle_options", "color_alternatives", "camera_comfort",
    "custom_volume_controls", "stereo_sound", "surround_sound", "narrated_game_menus",
    "chat_speech_to_text", "chat_text_to_speech", "playable_without_timed_input",
    "adjustable_difficulty", "save_anytime", "playable_at_your_own_pace",
    "playable_without_vision", "contrast_controls"]

/-- The slug of a category that counts. -/
def allowedSlug : JsonValue → Option String
  | .str s => if s ∈ inputFeatureSlugs ++ accessibilityFeatureSlugs then some s else none
  | _ => none

/-- The slugs of the categories that count, sorted. -/
def allowedSlugs : JsonValue → List String
  | .arr items => sortBy id (items.filterMap allowedSlug).dedup
  | _ => []

/-- The keys that `compatibility_declared_facts` copies. -/
def projectedKeys : List String :=
  ["appid", "context", "platforms", "requirements", "languages", "controller_support",
    "external_account_notice", "drm_notice"]

/-- The categories of `compatibility_declared_facts`. -/
def projectedCategories : JsonValue → JsonValue
  | .obj categories => .obj [("state", field categories "state"),
      ("known_slugs", .arr ((allowedSlugs (field categories "known_slugs")).map .str))]
  | _ => .null

/-- `compatibility_declared_facts`. -/
def compatibilityDeclaredFacts (facts : List (String × JsonValue)) : List (String × JsonValue) :=
  (projectedKeys.map fun key => (key, field facts key)) ++
    [("categories", projectedCategories (field facts "categories"))]

/-- `_parse_time`. -/
def parseTime (lib : QueryLibrary) (value : Option String) : Option Instant :=
  (value.bind lib.fromIsoFormat).map Instant.wholeSecond

namespace DeclaredDemand

/-- A skipped row for an AppID that is known not to exist. -/
def cachedNotFound (demand : DeclaredDemand) : Bool :=
  !demand.evaluated && demand.errorCode == some "NOT_FOUND_CACHE"

/-- The provider says, or has said, that the AppID does not exist. -/
def notFound (demand : DeclaredDemand) : Bool :=
  (demand.evaluated && demand.state == some "not_found") || demand.cachedNotFound

/-- `superseding_failure`. -/
def supersedingFailure (demand : DeclaredDemand) : Bool :=
  !demand.notFound &&
    ((demand.evaluated && !([none, some "ready", some "not_found"].contains demand.state)) ||
      (demand.targeted && !demand.evaluated && demand.state == some "unevaluated" &&
        demand.errorCode.isSome))

/-- The time of an attempt that failed. -/
def failedAt (lib : QueryLibrary) (demand : DeclaredDemand) : Option Instant :=
  (parseTime lib demand.observedAt).orElse fun _ => parseTime lib demand.startedAt

end DeclaredDemand

/-- An attempt at a time is later than facts observed at a time, or may be. -/
def attemptIsLater (attemptAt observedAt : Instant) (attemptId promotedId : Option Int) : Bool :=
  attemptAt > observedAt ||
    (attemptAt == observedAt &&
      match promotedId, attemptId with
      | some promoted, some attempt => attempt > promoted
      | _, _ => true)

/-- The row contradicts the facts that are retained. -/
def contradicts (lib : QueryLibrary) (demand : Option DeclaredDemand) (observed : Option Instant) :
    Bool :=
  match demand with
  | none => false
  | some demand =>
    demand.notFound &&
      match parseTime lib demand.observedAt, observed with
      | none, _ => false
      | some _, none => true
      | some demandAt, some observed => demandAt ≥ observed

/-- The row is a failed attempt that is later than the facts that are retained. -/
def failedLater (lib : QueryLibrary) (item : DeclaredItem) (demand : Option DeclaredDemand)
    (observed : Option Instant) : Bool :=
  match demand with
  | none => false
  | some demand =>
    demand.supersedingFailure &&
      match demand.failedAt lib, observed with
      | some demandAt, some observed =>
        attemptIsLater demandAt observed demand.syncRunId item.promotedSyncRunId
      | _, _ => false

/-- `value == appid`.  No number with a fraction or an exponent is an AppID here. -/
def isAppid (value : JsonValue) (appid : Int) : Bool :=
  match value with
  | .int n => n == appid
  | .bool b => (if b then 1 else 0) == appid
  | _ => false

/-- What `_declared` returns. -/
structure Declared where
  facts : Option (List (String × JsonValue))
  observedAt : Option Instant
  freshness : Freshness
  conflict : Bool

/-- `_declared`, of facts that are a mapping. -/
def declaredOfFacts (lib : QueryLibrary) (item : DeclaredItem) (demand : Option DeclaredDemand)
    (appid : Int) (now : Instant) (facts : List (String × JsonValue)) : Declared :=
  let observed := parseTime lib item.observedAt
  let freshness := observed.elim .unknown (declaredFreshness · now)
  { facts := some (compatibilityDeclaredFacts facts)
    observedAt := observed
    freshness :=
      if failedLater lib item demand observed ∧ freshness = .fresh then .stale else freshness
    conflict := !isAppid (field facts "appid") appid || contradicts lib demand observed }

/-- `_declared`. -/
def declared (lib : QueryLibrary) (item : Option DeclaredItem) (demand : Option DeclaredDemand)
    (appid : Int) (now : Instant) : Declared :=
  match item with
  | none => ⟨none, none, .unknown, false⟩
  | some item =>
    match item.facts with
    | .null => ⟨none, none, .unknown, false⟩
    | .obj facts => declaredOfFacts lib item demand appid now facts
    | _ => ⟨none, none, .unknown, true⟩

end SteamAgent.Compatibility
