import SteamAgent.Compatibility.Reconstruct

/-!
# Compatibility queries

`reconstruct_compatibility`, and `assess_compatibility_snapshot`, which reads its
sources from one snapshot of the storage.

There are three groups.

* What the sources leave open.
* `reconstruct_compatibility`.
* The snapshot of the storage.
-/

namespace SteamAgent.Compatibility

open Choice (sortBy)
open Datetime (Instant)

/-! ## Completeness -/

structure SubjectSourceGaps where
  appid : Int
  missing : List String
  stale : List String
  conflicts : List String
deriving DecidableEq

structure ReconstructionCompleteness where
  missingCapabilities : List String
  staleCapabilities : List String
  subjects : List SubjectSourceGaps
deriving DecidableEq

def systemCapability : String :=
  "system_profile.read"

def declaredCapability : String :=
  "compatibility.declared.read"

def installedCapability : String :=
  "library.installed.read"

def ownedCapability : String :=
  "account.visible_owned.read"

/-- `tuple(sorted(set))`. -/
def sortedSet (values : List String) : List String :=
  sortBy id values.dedup

/-- `[name]` if a condition holds. -/
def naming (p : Prop) [Decidable p] (name : String) : List String :=
  if p then [name] else []

/-- There is no system profile. -/
def systemMissing (system : Option SystemSnapshot) : Bool :=
  (system.bind (·.profile)).isNone

/-- A local source was not observed. -/
def localMissing (value : Option LocalObservation) : Bool :=
  (value.bind (·.observedAt)).isNone

/-- The gaps of an AppID. -/
def subjectGaps (lib : QueryLibrary) (now : Instant) (sourcesOf : Int → Sources) (appid : Int) :
    SubjectSourceGaps :=
  let sources := sourcesOf appid
  let declared := declared lib sources.item sources.demand appid now
  let systemState := systemFreshness sources.system now systemFresh
  let installedState := localFreshness sources.installed now true
  let ownedState := localFreshness sources.owned now false
  { appid := appid
    missing := sortedSet ("operations.ready.read" ::
      naming (systemMissing sources.system) systemCapability ++
      naming (declared.facts = none) declaredCapability ++
      naming (localMissing sources.installed) installedCapability ++
      naming (localMissing sources.owned) ownedCapability)
    stale := sortedSet (
      naming (systemMissing sources.system = false ∧ systemState ≠ .fresh) systemCapability ++
      naming (declared.facts ≠ none ∧ declared.conflict = false ∧ declared.freshness ≠ .fresh)
        declaredCapability ++
      naming (localMissing sources.installed = false ∧ installedState ≠ .fresh)
        installedCapability ++
      naming (localMissing sources.owned = false ∧ ownedState ≠ .fresh) ownedCapability)
    conflicts := naming (declared.facts ≠ none ∧ declared.conflict = true) declaredCapability }

/-! ## Queries -/

/-- The arguments of `reconstruct_compatibility`, with the rows of the snapshot by AppID. -/
structure Query where
  requestedAppids : List Int
  target : CompatibilityTarget
  generatedAt : Instant
  system : Option SystemSnapshot
  items : List (Int × DeclaredItem)
  demand : List (Int × DeclaredDemand)
  installed : List (Int × LocalObservation)
  owned : List (Int × LocalObservation)
  requirements : List FeatureRequirement
  overrides : List GateOverride

/-- The sources of an AppID. -/
def Query.sources (query : Query) (appid : Int) : Sources :=
  ⟨query.system, query.items.lookup appid, query.demand.lookup appid,
    query.installed.lookup appid, query.owned.lookup appid⟩

/-- `_reconstruction_completeness`. -/
def reconstructionCompleteness (lib : QueryLibrary) (query : Query) (requested : List Int)
    (now : Instant) : ReconstructionCompleteness :=
  let subjects := requested.map (subjectGaps lib now query.sources)
  let systemState := systemFreshness query.system now systemFresh
  let bySubject := [declaredCapability, installedCapability, ownedCapability]
  { missingCapabilities := sortedSet ("operations.ready.read" ::
      naming (systemMissing query.system) systemCapability ++
      naming query.items.isEmpty declaredCapability ++
      naming query.installed.isEmpty installedCapability ++
      naming query.owned.isEmpty ownedCapability ++
      bySubject.filter fun name => subjects.any (·.missing.contains name))
    staleCapabilities := sortedSet (
      naming (systemMissing query.system = false ∧ systemState ≠ .fresh) systemCapability ++
      bySubject.filter fun name => subjects.any fun item =>
        item.stale.contains name || (name == declaredCapability && item.conflicts.contains name))
    subjects := subjects }

structure ManualCompatibilityReference where
  appid : Int
  provider : String
  purpose : String
  url : String
deriving DecidableEq

/-- `manual_references`. -/
def manualReferences (appid : Int) : List ManualCompatibilityReference :=
  let encoded := toString appid
  [⟨appid, "steam", "view_store_page", "https://store.steampowered.com/app/" ++ encoded ++ "/"⟩,
    ⟨appid, "steamdb", "inspect_price_history", "https://steamdb.info/app/" ++ encoded ++ "/"⟩,
    ⟨appid, "protondb", "inspect_linux_reports", "https://www.protondb.com/app/" ++ encoded⟩,
    ⟨appid, "pcgamingwiki", "inspect_pc_compatibility_notes",
      "https://www.pcgamingwiki.com/w/index.php?search=" ++ encoded⟩]

structure CompatibilityQueryResult where
  generatedAt : Instant
  assessment : CompatibilityBatch
  references : List (Int × List ManualCompatibilityReference)
  completeness : ReconstructionCompleteness
deriving DecidableEq

/-- `_indexed_rows` and `_local_map`: one row at most for each requested AppID. -/
def indexedRows {α : Type} (rows : List (Int × α)) (requested : List Int) (name : String) :
    Except ValueError Unit := do
  require (rows.length ≤ maxItems) (name ++ " must be a bounded sequence")
  require ((rows.map Prod.fst).Nodup ∧ ∀ row ∈ rows, row.1 ∈ requested)
    (name ++ " has an unexpected or duplicate AppID")

/-- `_appids`. -/
def requestedAppids (values : List Int) : Except ValueError (List Int) := do
  values.forM (checkInt "requested AppID" 1 maxAppid)
  require values.Nodup "requested AppIDs must be unique"
  return sortBy id values

/-- `reconstruct_compatibility`, on records that are made. -/
def reconstructCompatibility (lib : QueryLibrary) (query : Query) :
    Except ValueError CompatibilityQueryResult := do
  let now := query.generatedAt.wholeSecond
  let requested ← requestedAppids query.requestedAppids
  require (requested.length ≤ maxItems) "requested AppID set exceeds the supported bound"
  indexedRows query.installed requested "installed observations"
  indexedRows query.owned requested "owned observations"
  indexedRows query.items requested "declared items"
  indexedRows query.demand requested "declared demand"
  let candidates ← requested.mapM (candidate lib query.target now query.sources)
  let assessment ← assessCompatibility lib.chars requested candidates query.target
    query.requirements query.overrides
  return ⟨now, assessment, requested.map fun appid => (appid, manualReferences appid),
    reconstructionCompleteness lib query requested now⟩

/-! ## Snapshots -/

/-- A run of a sync. -/
structure SyncRun where
  id : Int
  status : AttemptStatus
  startedAt : String
  completedAt : Option String

structure SystemProfileProjection where
  profile : List (String × JsonValue)
  observedAt : String
  promotedSyncRunId : Int
  evidenceId : Int

structure DeclaredAppProjection where
  facts : List (String × JsonValue)
  observedAt : String
  promotedSyncRunId : Option Int

structure DeclaredAppSubject where
  appid : Int
  current : Option DeclaredAppProjection
  latestDemand : DeclaredDemand

/-- A game of a local projection. -/
structure LocalGame where
  appid : Int
  observedAt : String
  evidenceId : Int
  promotedSyncRunId : Int

/-- A local projection with its latest runs. -/
structure LocalProjection where
  games : List LocalGame
  latest : Option SyncRun
  latestComplete : Option SyncRun

/-- What `assess_compatibility_snapshot` reads of a `CompatibilitySnapshot`. -/
structure CompatibilitySnapshot where
  asOf : String
  machineId : String
  requested : List Int
  systemCurrent : Option SystemProfileProjection
  systemLatest : Option SyncRun
  declaredApps : List DeclaredAppSubject
  installed : LocalProjection
  owned : LocalProjection

/-- `_time`. -/
def snapshotTime (lib : QueryLibrary) (value : String) : Except ValueError Instant :=
  match lib.fromIsoFormat value with
  | some time => .ok time.wholeSecond
  | none => .error ⟨"snapshot timestamps must include a timezone"⟩

/-- `_run_time`. -/
def runTime (lib : QueryLibrary) : Option SyncRun → Except ValueError (Option Instant)
  | none => .ok none
  | some run => (snapshotTime lib (run.completedAt.getD run.startedAt)).map some

/-- `_system`. -/
def systemOfSnapshot (lib : QueryLibrary) (snapshot : CompatibilitySnapshot)
    (target : CompatibilityTarget) : Except ValueError (Option SystemSnapshot) :=
  match target.kind with
  | .valveDeck => .ok none
  | .machine => do
    let current := snapshot.systemCurrent
    let observedAt ← current.elim (.ok none) fun c => (snapshotTime lib c.observedAt).map some
    let latestAt ← runTime lib snapshot.systemLatest
    let system ← SystemSnapshot.make {
      targetKey := snapshot.machineId
      profile := current.map (·.profile)
      observedAt := observedAt
      snapshotId := current.map fun c => .num c.evidenceId
      latestAttemptAt := latestAt
      latestAttemptStatus := snapshot.systemLatest.map (·.status)
      latestAttemptId := snapshot.systemLatest.map fun run => .num run.id
      promotedSyncRunId := current.map fun c => .num c.promotedSyncRunId }
    return some system

/-- The observation of an AppID in `_installed_observations` and `_owned_observations`. -/
def localObservation (lib : QueryLibrary) (source : LocalSource) (projection : LocalProjection)
    (appid : Int) : Except ValueError (Option (Int × LocalObservation)) := do
  let latestAt ← runTime lib projection.latest
  let status := projection.latest.map (·.status)
  let latestId := projection.latest.map fun run => Identity.num run.id
  match projection.games.find? (·.appid = appid), projection.latestComplete with
  | some game, _ =>
    let observedAt ← snapshotTime lib game.observedAt
    let value ← LocalObservation.make ⟨.present, some observedAt, source, some (.num game.evidenceId),
      latestAt, status, some (.num game.promotedSyncRunId), latestId⟩
    return some (appid, value)
  | none, some complete =>
    let observedAt ← runTime lib (some complete)
    let value ← LocalObservation.make ⟨.absent, observedAt, source, some (.num complete.id),
      latestAt, status, some (.num complete.id), latestId⟩
    return some (appid, value)
  | none, none => return none

/-- `_installed_observations` and `_owned_observations`. -/
def localObservations (lib : QueryLibrary) (source : LocalSource) (projection : LocalProjection)
    (requested : List Int) : Except ValueError (List (Int × LocalObservation)) := do
  let values ← requested.mapM (localObservation lib source projection)
  return values.filterMap id

/-- The row of `items` of a subject. -/
def declaredItem (lib : QueryLibrary) (subject : DeclaredAppSubject) : Option (Int × DeclaredItem) :=
  subject.current.map fun current =>
    let promoted := current.promotedSyncRunId.elim .null JsonValue.int
    (subject.appid,
      { facts := .obj current.facts
        observedAt := some current.observedAt
        promotedSyncRunId := current.promotedSyncRunId
        projectionIdentity := some (.text ("declared-projection:" ++ lib.digest (lib.dumps (.obj
          [("facts", .obj (compatibilityDeclaredFacts current.facts)),
            ("promoted_sync_run_id", promoted)])))) })

/-- `assess_compatibility_snapshot`. -/
def assessCompatibilitySnapshot (lib : QueryLibrary) (snapshot : CompatibilitySnapshot)
    (target : CompatibilityTarget) (requirements : List FeatureRequirement)
    (overrides : List GateOverride) : Except ValueError CompatibilityQueryResult := do
  let generatedAt ← snapshotTime lib snapshot.asOf
  let system ← systemOfSnapshot lib snapshot target
  let installed ← match target.kind with
    | .machine => localObservations lib .installedProjection snapshot.installed snapshot.requested
    | .valveDeck => .ok []
  let owned ← localObservations lib .visibleOwned snapshot.owned snapshot.requested
  reconstructCompatibility lib
    { requestedAppids := snapshot.requested
      target := target
      generatedAt := generatedAt
      system := system
      items := snapshot.declaredApps.filterMap (declaredItem lib)
      demand := snapshot.declaredApps.map fun subject => (subject.appid, subject.latestDemand)
      installed := installed
      owned := owned
      requirements := requirements
      overrides := overrides }

end SteamAgent.Compatibility
