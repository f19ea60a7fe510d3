import SteamAgent.Compatibility.Sources

/-!
# The reconstruction of a compatibility query

`reconstruct_compatibility`: the candidate of every requested AppID from its
sources, the assessment of the candidates, and what the sources leave open.  The
minimum evaluator is the default one.

There are five groups.

* Evidence and its lineage.
* The declared requirements against the system, `ConservativeMinimumEvaluator`.
* The parts of a candidate.
* What is missing, stale or in conflict.
* The query.
-/

namespace SteamAgent.Compatibility

open Choice (sortBy)
open Datetime (Instant)

/-! ## Evidence -/

/-- `_slug`. -/
def slug (lib : QueryLibrary) (value : String) : String :=
  let normalized := (lib.casefold value).toList.map fun c => if lib.isAlnum c then c else '-'
  let joined := ['-'].intercalate ((normalized.splitOn '-').filter (· ≠ []))
  let bounded := (if joined = [] then "unknown".toList else joined).take 63
  String.ofList (bounded.rdropWhile (· = '-'))

/-- `_lineage`. -/
def lineage (lib : QueryLibrary) (kind : String) (appid : Int) (observedAt : Instant)
    (parts : List String) : String :=
  let material := "\x1f".intercalate (kind :: toString appid :: lib.isoformat observedAt :: parts)
  "lineage:" ++ slug lib kind ++ ":" ++ lib.digest material

/-- Where evidence is from, and how fresh it is. -/
structure Attribution where
  source : String
  supportLevel : SupportLevel
  observedAt : Instant
  freshness : Freshness
  evidenceId : String

/-- `_attributed_unknown`. -/
def attributedUnknown (lib : QueryLibrary) (reason : String) (origin : Attribution)
    (conflict : Bool) : Except ValueError PrimitiveEvidence :=
  PrimitiveEvidence.make lib.chars ⟨.unknown, some origin.source, origin.supportLevel,
    some origin.observedAt, origin.freshness, [origin.evidenceId], conflict, some reason, none⟩

/-- `_known`. -/
def known (lib : QueryLibrary) (state : GateState) (origin : Attribution) :
    Except ValueError PrimitiveEvidence :=
  if origin.freshness = .unknown then
    attributedUnknown lib "observation_time_in_future" origin false
  else
    PrimitiveEvidence.make lib.chars ⟨state, some origin.source, origin.supportLevel,
      some origin.observedAt, origin.freshness, [origin.evidenceId], false, none, none⟩

/-- The sources of evidence that rests on the declaration. -/
def storeSource : String :=
  "steam_store_appdetails"

def layeredSource : String :=
  "layered_declared_and_local_target"

def parserSource : String :=
  "bounded_minimum_parser"

/-- Evidence from the declared facts. -/
def storeAttribution (observedAt : Instant) (freshness : Freshness) (evidenceId : String) :
    Attribution :=
  ⟨storeSource, .provisional, observedAt, freshness, evidenceId⟩

/-! ## Declared requirements -/

/-- `item.get("platform") == platform`, for an entry that is a mapping. -/
def isFor (key value : String) (item : JsonValue) : Bool :=
  match item with
  | .obj fields => isText (field fields key) value
  | _ => false

/-- `_minimum_text`. -/
def minimumText (facts : List (String × JsonValue)) (platform : String) : Option String :=
  if isText (nestedField (field facts "context") "language") "english" then
    match field facts "requirements" with
    | .arr requirements =>
      match requirements.filter (isFor "platform" platform) with
      | [item] =>
        if isText (nestedField item "state") "declared" then
          match nestedField item "minimum" with
          | .str text => some text
          | _ => none
        else none
      | _ => none
    | _ => none
  else none

theorem toNat_le_maxBytes {value : Int} (h : 0 ≤ value ∧ value ≤ Requirements.maxBytes) :
    value.toNat ≤ Requirements.maxBytes := by
  omega

/-- A field of `SystemCapacity` with a number of bytes. -/
def checkBytes (name : String) (value : Option Int) :
    Except ValueError (Option {n : Nat // n ≤ Requirements.maxBytes}) :=
  match value with
  | none => .ok none
  | some value =>
    if h : 0 ≤ value ∧ value ≤ Requirements.maxBytes then
      .ok (some ⟨value.toNat, toNat_le_maxBytes h⟩)
    else .error ⟨name ++ " must be a bounded non-negative integer or None"⟩

/-- The storage entries of a role. -/
def storageOf (role : String) (storage : List JsonValue) : List JsonValue :=
  storage.filter (isFor "role" role)

/-- The free space of the storage that Steam uses. -/
def storageAvailable (storage : JsonValue) : Except ValueError (Option Int) :=
  match storage with
  | .arr storage =>
    let ofSteam := storageOf "steam_primary" storage
    let primary := if ofSteam.isEmpty then storageOf "system" storage else ofSteam
    match primary.map (nestedField · "available_bytes") with
    | [.int n] => .ok (some n)
    | [.bool _] =>
      .error ⟨"storage_available_bytes must be a bounded non-negative integer or None"⟩
    | _ => .ok none
  | _ => .ok none

/-- The architecture of a profile, if it is one that the parser knows. -/
def profileArchitecture (value : JsonValue) : Option Requirements.Architecture :=
  match value with
  | .str "x86" => some .x86
  | .str "x86_64" => some .x8664
  | .str "arm64" => some .arm64
  | _ => none

/-- `_system_capacity`. -/
def systemCapacity (profile : Option (List (String × JsonValue))) :
    Except ValueError Requirements.SystemCapacity := do
  let profile := profile.getD []
  let memory := match factValue (nested (field profile "memory") ["total_bytes"]) with
    | .int n => some n
    | _ => none
  let architecture := factValue (nested (field profile "cpu") ["architecture"])
  let storage ← storageAvailable (factValue (field profile "storage"))
  hashable architecture
  let memory ← checkBytes "memory_bytes" memory
  let storage ← checkBytes "storage_available_bytes" storage
  return {
    bytes := fun
      | .memory => memory.map Subtype.val
      | .storage => storage.map Subtype.val
    architecture := profileArchitecture architecture
    supportedArchitectures := []
    bounded := fun
      | .memory, _, h => by
        obtain ⟨n, -, rfl⟩ := Option.map_eq_some_iff.mp h
        exact n.2
      | .storage, _, h => by
        obtain ⟨n, -, rfl⟩ := Option.map_eq_some_iff.mp h
        exact n.2
    unique := List.nodup_nil }

def ofComparison : Requirements.GateState → GateState
  | .pass => .pass
  | .fail => .fail
  | .unknown => .unknown

/-- `_overall_reason`. -/
def overallReason (comparison : Requirements.MinimumRequirementsComparison) : String :=
  let states := [(comparison.capacity .memory).state, (comparison.capacity .storage).state,
    comparison.architecture.state, (comparison.model .cpu).state, (comparison.model .gpu).state]
  match comparison.overall with
  | .pass => "all_safely_comparable_minimum_components_passed"
  | .fail => "at_least_one_minimum_capacity_component_failed"
  | .unknown =>
    if states.contains .fail then "at_least_one_minimum_capacity_component_failed"
    else "minimum_components_not_all_safely_comparable"

/-- `_minimum_overall`, without the storage. -/
def overallWithoutStorage (comparison : Requirements.MinimumRequirementsComparison) :
    GateState × String :=
  let states := [(comparison.capacity .memory).state, comparison.architecture.state,
    (comparison.model .cpu).state, (comparison.model .gpu).state]
  if states.contains .fail then (.fail, "at_least_one_non_storage_minimum_component_failed")
  else if states.contains .unknown then
    (.unknown, "non_storage_minimum_components_not_all_safely_comparable")
  else (.pass, "installed_app_storage_is_readiness_not_compatibility")

/-- What the evaluator is told besides the facts and the profile. -/
structure MinimumContext where
  appid : Int
  declaredObservedAt : Instant
  declaredProjectionIdentity : String
  systemObservedAt : Option Instant
  systemSnapshotId : Option Identity
  systemPromotedRunId : Option Identity
  systemLatestAttemptId : Option Identity
  systemProfileFreshness : Freshness
  storageAvailableFreshness : Freshness
  generatedAt : Instant

/-- `_comparison_evidence`. -/
def comparisonEvidence (lib : QueryLibrary) (context : MinimumContext) (kind : String)
    (state : GateState) (reason : String) (freshness : Freshness) :
    Except ValueError PrimitiveEvidence :=
  let observed := context.systemObservedAt.elim context.declaredObservedAt fun system =>
    if system < context.declaredObservedAt then system else context.declaredObservedAt
  let stateText := match state with
    | .pass => "pass"
    | .fail => "fail"
    | .unknown => "unknown"
  let origin : Attribution := ⟨parserSource, .provisional, observed, freshness,
    lineage lib kind context.appid observed [stateText, reason, context.declaredProjectionIdentity,
      Identity.str context.systemSnapshotId, Identity.str context.systemPromotedRunId,
      Identity.str context.systemLatestAttemptId]⟩
  if state = .unknown then attributedUnknown lib reason origin false
  else known lib state origin

structure MinimumEvaluation where
  architecture : PrimitiveEvidence
  meetsMinimum : PrimitiveEvidence
  meetsMinimumWithoutStorage : PrimitiveEvidence
deriving DecidableEq

/-- `ConservativeMinimumEvaluator.evaluate`. -/
def evaluateMinimum (lib : QueryLibrary) (context : MinimumContext) (platform : String)
    (facts : List (String × JsonValue)) (profile : Option (List (String × JsonValue))) :
    Except ValueError MinimumEvaluation := do
  let parsed := Requirements.parseDeclaredMinimum lib.requirementChars
    ⟨.minimum, (minimumText facts platform).map String.toList⟩
  let capacity ← systemCapacity profile
  let comparison := Requirements.compareDeclaredMinimum capacity parsed
  -- The age of the declaration alone: an attempt that supersedes it does not count here.
  let declaredFreshness := declaredFreshness context.declaredObservedAt context.generatedAt
  let profileFreshness := worstFreshness declaredFreshness context.systemProfileFreshness
  let architecture ← comparisonEvidence lib context "minimum-architecture"
    (ofComparison comparison.architecture.state) comparison.architecture.reason profileFreshness
  let (stateWithout, reasonWithout) := overallWithoutStorage comparison
  let decisive :=
    if stateWithout = .fail then context.systemProfileFreshness
    else if (comparison.capacity .storage).state ≠ .fail then context.systemProfileFreshness
    else context.storageAvailableFreshness
  let minimum ← comparisonEvidence lib context "minimum-overall" (ofComparison comparison.overall)
    (overallReason comparison) (worstFreshness declaredFreshness decisive)
  let without ← comparisonEvidence lib context "minimum-overall-without-storage" stateWithout
    reasonWithout profileFreshness
  return ⟨architecture, minimum, without⟩

/-- `_declared_projection_identity`. -/
def declaredProjectionIdentity (lib : QueryLibrary) (item : DeclaredItem)
    (facts : List (String × JsonValue)) : String :=
  let promoted := item.promotedSyncRunId.elim .null JsonValue.int
  match item.projectionIdentity with
  | some (.num n) => toString n
  | some (.text s) => s
  | _ => "declared-projection:" ++ lib.digest (lib.dumps (.obj
      [("facts", .obj (compatibilityDeclaredFacts facts)), ("promoted_sync_run_id", promoted)]))

/-! ## The parts of a candidate -/

/-- The platform whose facts count. -/
def factsPlatform : Platform → Platform
  | .steamos => .linux
  | platform => platform

/-- `_target_platform`. -/
def targetPlatform (system : Option SystemSnapshot) (target : CompatibilityTarget) :
    Platform × Bool :=
  let platform := factsPlatform target.platform
  match target.kind, system.bind (·.profile) with
  | .machine, some profile =>
    match factValue (nested (field profile "os") ["family"]) with
    | .null => (platform, false)
    | family => (platform, !isText family platform.value)
  | _, _ => (platform, false)

/-- `_native`. -/
def native (lib : QueryLibrary) (declared : Declared) (platform : Platform) (appid : Int)
    (conflict : Bool) : Except ValueError PrimitiveEvidence :=
  match declared.facts, declared.observedAt with
  | some facts, some observedAt =>
    if conflict then
      attributedUnknown lib "target_or_subject_identity_conflict"
        (storeAttribution observedAt declared.freshness
          (lineage lib "declared-identity-conflict" appid observedAt [platform.value])) true
    else
      let platforms := field facts "platforms"
      match isText (nestedField platforms "state") "declared", nestedField platforms platform.value with
      | true, .bool value =>
        known lib (if value then .pass else .fail) (storeAttribution observedAt declared.freshness
          (lineage lib "declared-platform" appid observedAt [platform.value, boolText value]))
      | _, _ => unknown lib.chars "declared_platform_evidence_unavailable" false
  | _, _ =>
    if conflict then unknown lib.chars "target_or_subject_identity_conflict" true
    else unknown lib.chars "declared_platform_evidence_unavailable" false

/-- The combined freshness of `_effective_execution`. -/
def combinedFreshness (a b : Freshness) : Freshness :=
  if a = .expired ∨ b = .expired then .expired
  else if a = .unknown ∨ b = .unknown then .unknown
  else if a = .stale ∨ b = .stale then .stale
  else .fresh

/-- The last step of `_effective_execution`: the declaration and the system agree. -/
def layeredEvidence (lib : QueryLibrary) (native : PrimitiveEvidence) (target : CompatibilityTarget)
    (system : SystemSnapshot) (systemObservedAt now : Instant) (appid : Int) :
    Except ValueError PrimitiveEvidence :=
  let freshness := combinedFreshness native.freshness (systemFreshness (some system) now systemFresh)
  let observed := native.observedAt.elim systemObservedAt fun nativeObservedAt =>
    if systemObservedAt < nativeObservedAt then systemObservedAt else nativeObservedAt
  let ids := sortBy id (native.evidenceIds ++ [lineage lib "system-target" appid systemObservedAt
    [target.key, Identity.str system.snapshotId, Identity.str system.promotedSyncRunId,
      Identity.str system.latestAttemptId]])
  if freshness = .unknown then
    PrimitiveEvidence.make lib.chars ⟨.unknown, some layeredSource, .provisional, some observed,
      freshness, ids, false, some "observation_time_in_future", none⟩
  else
    PrimitiveEvidence.make lib.chars ⟨.pass, some layeredSource, .provisional, some observed,
      freshness, ids, false, none, none⟩

/-- `_effective_execution`. -/
def effectiveExecution (lib : QueryLibrary) (native : PrimitiveEvidence) (platform : Platform)
    (target : CompatibilityTarget) (system : Option SystemSnapshot) (now : Instant) (appid : Int) :
    Except ValueError PrimitiveEvidence :=
  if native.conflict ∨ native.state = .unknown then .ok native
  else if native.state = .fail then
    if platform = .linux then unknown lib.chars "proton_route_not_evaluated" false else .ok native
  else if target.kind = .valveDeck then .ok native
  else
    match system with
    | none => unknown lib.chars "target_system_profile_unavailable" false
    | some system =>
      match system.profile, system.observedAt with
      | some profile, some systemObservedAt =>
        match factValue (nested (field profile "os") ["family"]) with
        | .str family =>
          if family ≠ platform.value then
            unknown lib.chars "target_or_subject_identity_conflict" true
          else layeredEvidence lib native target system systemObservedAt now appid
        | _ => unknown lib.chars "target_operating_system_not_observed" false
      | _, _ => unknown lib.chars "target_system_profile_unavailable" false

/-- A feature that the declared facts name. -/
structure DeclaredFeature where
  kind : FeatureKind
  name : String
  evidenceKind : String
  parts : List String

/-- The feature of a category. -/
def categoryFeature (lib : QueryLibrary) (raw : String) : DeclaredFeature :=
  let kind : FeatureKind := if raw ∈ inputFeatureSlugs then .input else .accessibility
  let name := slug lib raw
  ⟨kind, name, "feature", [kind.value, name]⟩

/-- The features of a language. -/
def languageFeatures (lib : QueryLibrary) (value : JsonValue) : List DeclaredFeature :=
  match nestedField value "code" with
  | .str code =>
    let code := slug lib code
    let spoken : DeclaredFeature := ⟨.language, code, "language", [code]⟩
    match nestedField value "full_audio" with
    | .bool true => [spoken, ⟨.language, code ++ "-full-audio", "full-audio", [code]⟩]
    | _ => [spoken]
  | _ => []

/-- The entries of a list that the facts declare. -/
def declaredEntries (value : JsonValue) (key : String) : List JsonValue :=
  if isText (nestedField value "state") "declared" then
    match nestedField value key with
    | .arr items => items
    | _ => []
  else []

/-- The features that the declared facts name, in order. -/
def declaredFeatures (lib : QueryLibrary) (facts : List (String × JsonValue)) :
    List DeclaredFeature :=
  let categories := (declaredEntries (field facts "categories") "known_slugs").filterMap allowedSlug
  let controller := ["full", "partial"].filter (isText (field facts "controller_support"))
  categories.map (categoryFeature lib) ++
    controller.map (fun value => (⟨.input, value ++ "-controller-support", "controller", [value]⟩ :
      DeclaredFeature)) ++
    (declaredEntries (field facts "languages") "items").flatMap (languageFeatures lib)

/-- What a dictionary by kind and name keeps: the last feature of a name. -/
def lastFeatures : List FeatureEvidence → List FeatureEvidence
  | [] => []
  | item :: rest =>
    if rest.any fun other => other.kind = item.kind ∧ other.name = item.name then lastFeatures rest
    else item :: lastFeatures rest

/-- `_features`. -/
def features (lib : QueryLibrary) (declared : Declared) (appid : Int) (conflict : Bool) :
    Except ValueError (List FeatureEvidence) :=
  match declared.facts, declared.observedAt, conflict with
  | some facts, some observedAt, false => do
    hashable (field facts "controller_support")
    let items ← (declaredFeatures lib facts).mapM fun item => do
      let support ← known lib .pass (storeAttribution observedAt declared.freshness
        (lineage lib item.evidenceKind appid observedAt item.parts))
      FeatureEvidence.make lib.chars ⟨item.kind, item.name, support⟩
    return sortBy (fun item => featureKey item.kind item.name) (lastFeatures items)
  | _, _, _ => .ok []

/-- A risk that a notice of the declared facts tells of. -/
def noticeRisk (lib : QueryLibrary) (facts : List (String × JsonValue)) (observedAt : Instant)
    (freshness : Freshness) (appid : Int) (key name : String) (impact : Impact) :
    Except ValueError RuntimeRisk := do
  let state := nestedField (field facts key) "state"
  let origin := fun kind =>
    storeAttribution observedAt freshness (lineage lib kind appid observedAt [name])
  if isText state "declared" then
    let evidence ← known lib .pass (origin "runtime")
    RuntimeRisk.make lib.chars
      ⟨name, if evidence.state = .pass then .present else .unknown, impact, evidence⟩
  else if isText state "undeclared" then
    let evidence ← known lib .fail (origin "runtime-undeclared")
    RuntimeRisk.make lib.chars
      ⟨name, if evidence.state = .fail then .absent else .unknown, impact, evidence⟩
  else
    let evidence ← attributedUnknown lib "runtime_notice_state_unknown" (origin "runtime-unknown") false
    RuntimeRisk.make lib.chars ⟨name, .unknown, impact, evidence⟩

/-- `_risks`. -/
def risks (lib : QueryLibrary) (declared : Declared) (appid : Int) (conflict : Bool) :
    Except ValueError (List RuntimeRisk) :=
  match declared.facts, declared.observedAt, conflict with
  | some facts, some observedAt, false => do
    let account ← noticeRisk lib facts observedAt declared.freshness appid "external_account_notice"
      "external-account" .manual
    let drm ← noticeRisk lib facts observedAt declared.freshness appid "drm_notice" "declared-drm"
      .runtime
    return [account, drm]
  | _, _, _ => .ok []

/-- `_local_evidence`. -/
def localEvidence (lib : QueryLibrary) (value : Option LocalObservation) (appid : Int)
    (now : Instant) (installedKind : Bool) : Except ValueError PrimitiveEvidence :=
  match value with
  | none => unknown lib.chars "local_membership_not_observed" false
  | some value =>
    match value.observedAt with
    | none => unknown lib.chars "local_membership_not_observed" false
    | some observedAt =>
      let origin := fun freshness => (⟨value.source.value, .ofMachine, observedAt, freshness,
        lineage lib value.source.value appid observedAt [Identity.str value.snapshotId,
          Identity.str value.promotedSyncRunId, Identity.str value.latestAttemptId]⟩ : Attribution)
      let freshness := localFreshness (some value) now installedKind
      match value.presence with
      | .unknown =>
        attributedUnknown lib "local_membership_not_observed"
          (origin (if (age observedAt now).isNone then .unknown else .stale)) false
      | .present => known lib .pass (origin freshness)
      | .absent =>
        if installedKind then known lib .fail (origin freshness)
        else attributedUnknown lib "visible_owned_absence_is_not_nonownership" (origin freshness) false

/-- The sources of an AppID. -/
structure Sources where
  system : Option SystemSnapshot
  item : Option DeclaredItem
  demand : Option DeclaredDemand
  installed : Option LocalObservation
  owned : Option LocalObservation

/-- The conflict of `_candidate`. -/
def candidateConflict (sources : Sources) (target : CompatibilityTarget) (declared : Declared) :
    Bool :=
  (match target.kind, sources.system with
    | .machine, some system => system.targetKey ≠ target.key
    | _, _ => false) ||
  (targetPlatform sources.system target).2 || declared.conflict

/-- The evaluation of the declared requirements, if there are any. -/
def candidateMinimum (lib : QueryLibrary) (appid : Int) (target : CompatibilityTarget)
    (now : Instant) (sources : Sources) (item : DeclaredItem) (facts : List (String × JsonValue))
    (declaredAt : Instant) : Except ValueError MinimumEvaluation :=
  let system := sources.system
  evaluateMinimum lib
    { appid := appid
      declaredObservedAt := declaredAt
      declaredProjectionIdentity := declaredProjectionIdentity lib item facts
      systemObservedAt := system.bind (·.observedAt)
      systemSnapshotId := system.bind (·.snapshotId)
      systemPromotedRunId := system.bind (·.promotedSyncRunId)
      systemLatestAttemptId := system.bind (·.latestAttemptId)
      systemProfileFreshness := systemFreshness system now systemFresh
      storageAvailableFreshness := systemFreshness system now installedFresh
      generatedAt := now }
    (targetPlatform system target).1.value facts (system.bind (·.profile))

/-- The gates `architecture` and `meets_minimum` of `_candidate`. -/
def candidateRequirements (lib : QueryLibrary) (appid : Int) (target : CompatibilityTarget)
    (now : Instant) (sources : Sources) (declared : Declared) (native : PrimitiveEvidence) :
    Except ValueError (PrimitiveEvidence × PrimitiveEvidence) :=
  if candidateConflict sources target declared then .ok (native, native)
  else
    match sources.item, declared.facts, declared.observedAt with
    | some item, some facts, some declaredAt => do
      let evaluated ← candidateMinimum lib appid target now sources item facts declaredAt
      let isInstalled := sources.installed.any (·.presence = .present) &&
        localFreshness sources.installed now true == .fresh
      return (evaluated.architecture,
        if isInstalled then evaluated.meetsMinimumWithoutStorage else evaluated.meetsMinimum)
    | _, _, _ => do
      let architecture ← unknown lib.chars "minimum_architecture_not_normalized" false
      let minimum ← unknown lib.chars "minimum_requirements_not_safely_comparable" false
      return (architecture, minimum)

/-- `_candidate`. -/
def candidate (lib : QueryLibrary) (target : CompatibilityTarget) (now : Instant)
    (sourcesOf : Int → Sources) (appid : Int) : Except ValueError CompatibilityCandidate := do
  let sources := sourcesOf appid
  let declared := declared lib sources.item sources.demand appid now
  let conflict := candidateConflict sources target declared
  let platform := (targetPlatform sources.system target).1
  let native ← native lib declared platform appid conflict
  let effective ← effectiveExecution lib native platform target sources.system now appid
  let (architecture, minimum) ← candidateRequirements lib appid target now sources declared native
  let features ← features lib declared appid conflict
  let risks ← risks lib declared appid conflict
  let experience ← unknown lib.chars "performance_not_benchmarked" false
  let installed ← localEvidence lib sources.installed appid now true
  let owned ← localEvidence lib sources.owned appid now false
  CompatibilityCandidate.check ⟨appid, target, native, effective, architecture, minimum, none,
    experience, installed, owned, risks, features⟩

end SteamAgent.Compatibility
