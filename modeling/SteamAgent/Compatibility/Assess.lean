import SteamAgent.Compatibility.Evidence

/-!
# The assessment of a target

`assess_compatibility`: every requested AppID is judged by its gates, seven that
are always there, one for each runtime risk and one for each required feature.
-/

namespace SteamAgent.Compatibility

open Choice (sortBy)
open Datetime (Instant)

structure GateResult where
  name : String
  original : GateState
  effective : GateState
  mandatory : Bool
  originalCondition : Option String
  originalSource : Option String
  originalSupportLevel : SupportLevel
  originalObservedAt : Option Instant
  originalFreshness : Freshness
  originalConflict : Bool
  originalUnknownReason : Option String
  originalEvidenceIds : List String
  overrideName : Option String
  overrideEvidenceIds : List String
  effectiveCondition : Option String
  effectiveUnknownReason : Option String
  effectiveSource : Option String
  effectiveSupportLevel : SupportLevel
  effectiveObservedAt : Option Instant
  effectiveFreshness : Freshness
  effectiveEvidenceIds : List String
deriving DecidableEq

/-- `"complete"` and `"partial"`. -/
inductive Completeness where
  | complete
  | incomplete
deriving DecidableEq, Repr

structure CompatibilityAssessment where
  appid : Int
  target : CompatibilityTarget
  compatibility : CompatibilityState
  playableNow : GateState
  likelyGoodExperienceOriginal : PrimitiveEvidence
  likelyGoodExperience : PrimitiveEvidence
  gates : List GateResult
  runtimeRisks : List RuntimeRisk
  accessibility : List FeatureEvidence
  input : List FeatureEvidence
  language : List FeatureEvidence
  reasons : List String
  unknowns : List String
  conflicts : List String
  completeness : Completeness
deriving DecidableEq

structure CompatibilityBatch where
  target : CompatibilityTarget
  requestedAppids : List Int
  results : List CompatibilityAssessment
  completeness : Completeness
deriving DecidableEq

/-! ## Gates -/

/-- A gate before it is judged. -/
structure RawGate where
  name : String
  evidence : PrimitiveEvidence
  mandatory : Bool
deriving DecidableEq

/-- A gate of what the machine or the account has at the moment. -/
def isReadiness (name : String) : Bool :=
  "readiness:".toList.isPrefixOf name.toList

/-- The evidence is known but too old for the gate. -/
def isDegraded (name : String) (evidence : PrimitiveEvidence) : Bool :=
  evidence.state != .unknown &&
    (evidence.freshness == .expired || (isReadiness name && evidence.freshness == .stale))

/-- A gate with no override. -/
def plainGate (gate : RawGate) : GateResult :=
  let evidence := gate.evidence
  let degraded := isDegraded gate.name evidence
  { name := gate.name
    original := evidence.state
    effective := if degraded then .unknown else evidence.state
    mandatory := gate.mandatory
    originalCondition := evidence.condition
    originalSource := evidence.source
    originalSupportLevel := evidence.supportLevel
    originalObservedAt := evidence.observedAt
    originalFreshness := evidence.freshness
    originalConflict := evidence.conflict
    originalUnknownReason := evidence.unknownReason
    originalEvidenceIds := evidence.evidenceIds
    overrideName := none
    overrideEvidenceIds := []
    effectiveCondition := evidence.condition
    effectiveUnknownReason :=
      if degraded then
        some (if evidence.freshness = .expired then "evidence_expired"
          else "evidence_stale_for_ready_now")
      else evidence.unknownReason
    effectiveSource := evidence.source
    effectiveSupportLevel := evidence.supportLevel
    effectiveObservedAt := evidence.observedAt
    effectiveFreshness := evidence.freshness
    effectiveEvidenceIds := evidence.evidenceIds }

/-- `_gate`. -/
def gateResult (gate : RawGate) : Option GateOverride → GateResult
  | none => plainGate gate
  | some override =>
    { plainGate gate with
      effective := override.effective
      overrideName := some override.name
      overrideEvidenceIds := override.evidenceIds
      effectiveCondition := none
      effectiveUnknownReason :=
        if override.effective = .unknown then some "query_override_selected_unknown" else none
      effectiveSource := some ("query_override:" ++ override.name)
      effectiveSupportLevel := .ofMachine
      effectiveObservedAt := some override.appliedAt
      effectiveFreshness := .fresh
      effectiveEvidenceIds := override.evidenceIds }

/-- `_exact_review_for_target`. -/
def exactReviewForTarget (lib : CharLibrary) (target : CompatibilityTarget) :
    Option TargetReview → Except ValueError PrimitiveEvidence
  | none => unknown lib "exact_target_review_not_observed" false
  | some review =>
    if review.target ≠ target then unknown lib "target_review_is_for_a_different_target" false
    else .ok review.evidence

/-- The fields of the evidence of a risk that is known, as a gate. -/
def riskEvidence (risk : RuntimeRisk) (state : GateState) (condition : Option String) :
    PrimitiveEvidence :=
  ⟨state, risk.evidence.source, risk.evidence.supportLevel, risk.evidence.observedAt,
    risk.evidence.freshness, risk.evidence.evidenceIds, false, none, condition⟩

/-- The gate of a runtime risk. -/
def riskGate (lib : CharLibrary) (risk : RuntimeRisk) : Except ValueError RawGate := do
  let name := "runtime:" ++ risk.name
  match risk.presence with
  | .present =>
    let evidence ← (match risk.impact with
      | .blocking => riskEvidence risk .fail none
      | .manual | .runtime => riskEvidence risk .pass (some ("runtime_risk:" ++ risk.name))).make lib
    return ⟨name, evidence, true⟩
  | .absent =>
    let evidence ← (riskEvidence risk .pass none).make lib
    return ⟨name, evidence, true⟩
  -- Missing notice metadata is no blocker by itself.
  | .unknown => return ⟨name, risk.evidence, false⟩

/-- `feature_map.get((kind, name))`. -/
def featureSupport (features : List FeatureEvidence) (requirement : FeatureRequirement) :
    Option PrimitiveEvidence :=
  (features.find? fun item => item.kind = requirement.kind ∧ item.name = requirement.name).map
    (·.support)

/-- The gate of a required feature. -/
def featureGate (lib : CharLibrary) (features : List FeatureEvidence)
    (requirement : FeatureRequirement) : Except ValueError RawGate := do
  let missing ← unknown lib "required_feature_not_observed" false
  return ⟨requirement.kind.value ++ ":" ++ requirement.name,
    (featureSupport features requirement).getD missing, true⟩

/-- The seven gates that are always there. -/
def fixedGates (candidate : CompatibilityCandidate) (kind : TargetKind)
    (review : PrimitiveEvidence) : List RawGate :=
  let ofMachine := kind = .machine
  [⟨"declared_native_build", candidate.declaredNativeBuild, false⟩,
    ⟨"effective_execution_support", candidate.effectiveExecutionSupport, ofMachine⟩,
    ⟨"architecture", candidate.architecture, ofMachine⟩,
    ⟨"meets_minimum", candidate.meetsMinimum, ofMachine⟩,
    ⟨"exact_target_review", review, kind = .valveDeck⟩,
    ⟨"readiness:installed", candidate.installed, false⟩,
    ⟨"readiness:visible_owned", candidate.owned, false⟩]

/-- The list `raw` of `_assess`. -/
def rawGates (lib : CharLibrary) (candidate : CompatibilityCandidate)
    (target : CompatibilityTarget) (requirements : List FeatureRequirement) :
    Except ValueError (List RawGate) := do
  let review ← exactReviewForTarget lib target candidate.exactTargetReview
  let risks ← candidate.runtimeRisks.mapM (riskGate lib)
  let features ← requirements.mapM (featureGate lib candidate.features)
  return fixedGates candidate target.kind review ++ risks ++ features

/-! ## One AppID -/

/-- The verdict over the mandatory gates. -/
def verdict (gates : List GateResult) : CompatibilityState :=
  let mandatory := gates.filter (·.mandatory)
  if mandatory.any (·.effective = .fail) then .incompatible
  else if mandatory.any (·.effective = .unknown) then .unknown
  else if mandatory.any fun gate => gate.effective = .pass ∧ gate.effectiveCondition ≠ none then
    .conditional
  else .compatible

/-- `_effective_fact`. -/
def effectiveFact (lib : CharLibrary) (evidence : PrimitiveEvidence) :
    Except ValueError PrimitiveEvidence :=
  if evidence.state = .unknown ∨ evidence.freshness ≠ .expired then .ok evidence
  else
    PrimitiveEvidence.make lib ⟨.unknown, evidence.source, evidence.supportLevel,
      evidence.observedAt, evidence.freshness, evidence.evidenceIds, false, some "evidence_expired",
      none⟩

/-- `reasons`. -/
def assessmentReasons (state : CompatibilityState) (playable installed : GateState) :
    List String :=
  sortBy id ((if state = .incompatible then ["decisive_compatibility_gate_failed"] else []) ++
    (if state = .conditional then ["known_manual_or_runtime_condition"] else []) ++
    (if state = .unknown then ["required_compatibility_evidence_unknown"] else []) ++
    (if state = .compatible then ["all_mandatory_compatibility_gates_passed"] else []) ++
    (if playable = .unknown then ["playable_now_requires_m7_operational_facts"] else []) ++
    (if installed = .fail then ["known_not_installed"] else []))

def Freshness.isIncomplete (freshness : Freshness) : Bool :=
  freshness != .fresh

/-- The result of an AppID whose gates are judged. -/
def assessGates (candidate : CompatibilityCandidate) (target : CompatibilityTarget)
    (experience : PrimitiveEvidence) (gates : List GateResult) : CompatibilityAssessment :=
  let state := verdict gates
  let installed := (gates.find? (·.name = "readiness:installed")).elim .unknown (·.effective)
  -- An installed, owned and compatible title is not playable now by this alone.
  let playable : GateState :=
    if installed = .fail ∨ state = .incompatible then .fail else .unknown
  let unknowns := sortBy id ((gates.filter (·.effective = .unknown)).map (·.name))
  let conflicts := sortBy id ((gates.filter (·.originalConflict)).map (·.name))
  let likely := candidate.likelyGoodExperience
  let isPartial := !unknowns.isEmpty || !conflicts.isEmpty ||
    gates.any (fun gate => gate.mandatory && gate.originalFreshness.isIncomplete) ||
    likely.state == .unknown || likely.freshness.isIncomplete || playable == .unknown
  { appid := candidate.appid
    target := target
    compatibility := state
    playableNow := playable
    likelyGoodExperienceOriginal := likely
    likelyGoodExperience := experience
    gates := gates
    runtimeRisks := candidate.runtimeRisks
    accessibility := candidate.features.filter (·.kind = .accessibility)
    input := candidate.features.filter (·.kind = .input)
    language := candidate.features.filter (·.kind = .language)
    reasons := assessmentReasons state playable installed
    unknowns := unknowns
    conflicts := conflicts
    completeness := if isPartial then .incomplete else .complete }

/-- `_assess`. -/
def assess (lib : CharLibrary) (target : CompatibilityTarget)
    (requirements : List FeatureRequirement) (overrides : List GateOverride)
    (candidate : CompatibilityCandidate) : Except ValueError CompatibilityAssessment := do
  let raw ← rawGates lib candidate target requirements
  require (∀ override ∈ overrides, override.gate ∈ raw.map (·.name))
    "override names a gate that was not evaluated"
  let gates := raw.map fun gate => gateResult gate (overrides.find? (·.gate = gate.name))
  let experience ← effectiveFact lib candidate.likelyGoodExperience
  return assessGates candidate target experience gates

/-! ## All AppIDs -/

/-- `_missing_candidate`. -/
def missingCandidate (lib : CharLibrary) (target : CompatibilityTarget) (appid : Int) :
    Except ValueError CompatibilityCandidate := do
  let missing ← unknown lib "candidate_evidence_unavailable" false
  CompatibilityCandidate.check ⟨appid, target, missing, missing, missing, missing, none, missing,
    missing, missing, [], []⟩

/-- `validate_compatibility_request`, with no candidate gate capacity. -/
def validateCompatibilityRequest (requestedAppids : List Int)
    (requirements : List FeatureRequirement) (overrides : List GateOverride) :
    Except ValueError Unit := do
  require (requestedAppids.length ≤ maxItems) "requested AppID set exceeds the supported bound"
  require (requirements.length ≤ maxComponents ∧ overrides.length ≤ maxItems)
    "requirements or overrides exceed the supported bound"
  requestedAppids.forM (checkInt "requested appid" 1 maxAppid)
  require requestedAppids.Nodup "requested AppIDs must be unique"
  require (requirements.map fun item => (item.kind, item.name)).Nodup
    "feature requirements must be unique"
  require (overrides.map fun item => (item.appid, item.gate)).Nodup
    "overrides must be unique by AppID and gate"
  require (∀ override ∈ overrides, override.appid ∈ requestedAppids)
    "override AppID was not requested"
  require (requestedAppids.length * (7 + requirements.length) ≤ maxTotalGates)
    "assessment output exceeds the supported total-work bound"

/-- The candidate of an AppID, a missing one if it has none. -/
def candidateFor (lib : CharLibrary) (target : CompatibilityTarget)
    (candidates : List CompatibilityCandidate) (appid : Int) :
    Except ValueError CompatibilityCandidate :=
  match candidates.find? (·.appid = appid) with
  | some candidate => .ok candidate
  | none => missingCandidate lib target appid

/-- `assess_compatibility`, on records that are made. -/
def assessCompatibility (lib : CharLibrary) (requestedAppids : List Int)
    (candidates : List CompatibilityCandidate) (target : CompatibilityTarget)
    (requirements : List FeatureRequirement) (overrides : List GateOverride) :
    Except ValueError CompatibilityBatch := do
  validateCompatibilityRequest requestedAppids requirements overrides
  require (candidates.map (·.appid)).Nodup "candidate AppIDs must be unique"
  require (∀ candidate ∈ candidates, candidate.appid ∈ requestedAppids)
    "candidate AppIDs must be explicitly requested"
  require (∀ candidate ∈ candidates, candidate.target = target)
    "candidate evidence target does not match the assessed target"
  let componentGates := (candidates.map fun item =>
    item.runtimeRisks.length + item.features.length).foldr (· + ·) 0
  require (requestedAppids.length * (7 + requirements.length) + componentGates ≤ maxTotalGates)
    "assessment output exceeds the supported total-work bound"
  let sortedAppids := sortBy id requestedAppids
  let sortedRequirements := sortBy (fun item => featureKey item.kind item.name) requirements
  let results ← sortedAppids.mapM fun appid => do
    let candidate ← candidateFor lib target candidates appid
    assess lib target sortedRequirements (overrides.filter (·.appid = appid)) candidate
  return {
    target := target
    requestedAppids := sortedAppids
    results := results
    completeness :=
      if results.all (·.completeness = .complete) then .complete else .incomplete }

/-! ## Requests -/

/-- What a caller asks. -/
structure Request where
  requestedAppids : List Int
  candidates : List CompatibilityCandidate
  target : CompatibilityTarget
  requirements : List FeatureRequirement
  overrides : List GateOverride

/-- The records of a request are made. -/
def Request.make (lib : CharLibrary) (request : Request) : Except ValueError Request := do
  let target ← request.target.make
  let candidates ← request.candidates.mapM (CompatibilityCandidate.make lib)
  let requirements ← request.requirements.mapM FeatureRequirement.make
  let overrides ← request.overrides.mapM (GateOverride.make lib)
  return ⟨request.requestedAppids, candidates, target, requirements, overrides⟩

/-- `assess_compatibility`, on a request whose records are made. -/
def Request.assess (lib : CharLibrary) (request : Request) :
    Except ValueError CompatibilityBatch :=
  assessCompatibility lib request.requestedAppids request.candidates request.target
    request.requirements request.overrides

end SteamAgent.Compatibility
