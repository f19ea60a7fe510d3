import SteamAgent.Evals.Acceptance
import SteamAgent.Stdlib.Datetime

/-!
# The finalization of a screen

`finalize_screen` and `load_finalized_screen` of `acceptance.py`, with the parts
of the manifest and of the inspection that they rest on, and the imports beside
them.

The run evidence of the matrix and the repository do not change, so what is
computed from them is a parameter of `ScreenLibrary`, which also holds the
standard library's part: digests, sizes and times.  A file of the matrix is the
canonical text of its document.

There are five groups.

* The manifest and the acceptance result.
* The matrix directory.
* The inspection and the evaluation.
* `loadFinalizedScreen` and `finalizeScreen`.
* The calls, each of which can be killed between its writes.
-/

namespace SteamAgent.Evals

open Datetime (Instant)

/-! ## Documents -/

/-- The part of `MatrixManifest` that an acceptance does not change. -/
structure ManifestCore where
  matrixId : String
  completed : Bool
  campaignKind : CampaignKind
  configSha256 : String
  campaignSha256 : String
  planSha256 : String
  sourceScreenManifestSha256 : Option String
  sourceScreenAcceptanceSha256 : Option String
  finishedAt : Option String
deriving DecidableEq, Repr

/-- `MatrixManifest`. -/
structure MatrixManifest where
  core : ManifestCore
  acceptanceSha256 : Option String
  acceptanceFinalizedAt : Option String
deriving DecidableEq, Repr

structure MatrixRoute where
  model : Option String
  reasoningEffort : Option String
deriving DecidableEq, Repr

inductive RouteOutcome where
  | survivor
  | qualified
  | rejected
  | unavailable
  | unresolved
deriving DecidableEq, Repr

structure RouteDecision where
  route : MatrixRoute
  outcome : RouteOutcome
  reasons : List String
  workItemIds : List String
deriving DecidableEq, Repr

inductive Status where
  | complete
  | pending
deriving DecidableEq, Repr

structure AcceptanceResult where
  campaignKind : CampaignKind
  matrixId : String
  manifestSha256 : String
  configSha256 : String
  campaignSha256 : String
  planSha256 : String
  status : Status
  routes : List RouteDecision
  survivors : List MatrixRoute
  qualifiedRoutes : List MatrixRoute
  sourceScreenManifestSha256 : Option String
  qualitativeEvidenceSha256 : Option String
  sourceScreenAcceptanceSha256 : Option String
  attemptHistorySha256 : String
  finalizedAt : Option String
deriving DecidableEq, Repr

/-- The pattern `[0-9a-f]{64}`. -/
def isSha256 (value : String) : Bool :=
  value.toList.length = 64 && value.toList.all fun c => c.isDigit || ('a' ≤ c && c ≤ 'f')

/-- What is computed from the evidence, and the standard library. -/
structure ScreenLibrary where
  judge : JudgeLibrary
  /-- The evidence as the imports see it. -/
  matrix : Matrix
  /-- The checks of the rest of the manifest by `from_dict`. -/
  validCore : ManifestCore → Bool
  /-- The inspection in front of the layout, and behind it. -/
  inspectInputs : ManifestCore → Except String Unit
  inspectEvidence : ManifestCore → Except String Unit
  /-- `structurally_complete`. -/
  structurallyComplete : ManifestCore → Bool
  /-- `_policy_shape` and `_verify_unique_child_runs`. -/
  policyShape : ManifestCore → Except String Unit
  /-- `_verify_screen_config` and `_verify_screen_corpus`. -/
  screenCorpus : ManifestCore → Except String Unit
  /-- `_verify_campaign_chronology`. -/
  chronology : ManifestCore → Except String Unit
  /-- `_pending_decisions`. -/
  pendingDecisions : ManifestCore → List RouteDecision
  /-- `_decide_routes`, on the outcomes of the work items. -/
  decideRoutes : ManifestCore → List (String × List (String × Outcome)) →
    Except String (List RouteDecision)
  /-- `_attempt_history_sha256`. -/
  attemptHistorySha256 : String
  /-- `QualitativeEvidence.sha256`. -/
  evidenceDigest : QualitativeEvidence → String
  manifestDigest : MatrixManifest → String
  acceptanceDigest : AcceptanceResult → String
  manifestSize : MatrixManifest → Nat
  acceptanceSize : AcceptanceResult → Nat
  /-- The instant of a time stamp. -/
  parseTime : String → Option Instant
  /-- The time stamp of an instant. -/
  formatTime : Instant → String
  parse_format : ∀ time, parseTime (formatTime time) = some time
  isSha256_acceptanceDigest : ∀ result, isSha256 (acceptanceDigest result) = true

/-- `MatrixManifest.__post_init__`. -/
def MatrixManifest.check (lib : ScreenLibrary) (manifest : MatrixManifest) : Except String Unit :=
  if !lib.validCore manifest.core then throw "invalid matrix manifest"
  else
    match manifest.acceptanceSha256, manifest.acceptanceFinalizedAt with
    | none, none => return ()
    | some digest, some finalizedAt =>
      match lib.parseTime finalizedAt, manifest.core.finishedAt.bind lib.parseTime with
      | some finalized, some finished =>
        if !manifest.core.completed || manifest.core.campaignKind ≠ .screen || !isSha256 digest ||
            finalized ≤ finished then throw "matrix acceptance finalization is invalid"
        else return ()
      | _, _ => throw "invalid manifest time"
    | _, _ => throw "matrix acceptance finalization is incomplete"

/-- `AcceptanceResult.__post_init__`. -/
def AcceptanceResult.check (lib : ScreenLibrary) (result : AcceptanceResult) :
    Except String Unit :=
  if !([result.manifestSha256, result.configSha256, result.campaignSha256, result.planSha256,
      result.attemptHistorySha256].all isSha256) then throw "invalid acceptance identity"
  else if result.campaignKind = .benchmark then throw "invalid campaign kind"
  else if result.status = .pending && (result.survivors ≠ [] || result.qualifiedRoutes ≠ []) then
    throw "pending acceptance exposes a positive decision"
  else if result.finalizedAt.isSome &&
      (result.campaignKind ≠ .screen || result.status ≠ .complete) then
    throw "invalid acceptance finalization time"
  else if result.finalizedAt.any fun value => (lib.parseTime value).isNone then
    throw "campaign time is invalid"
  else if result.campaignKind = .screen then
    if result.qualifiedRoutes ≠ [] || result.sourceScreenManifestSha256.isSome ||
        result.sourceScreenAcceptanceSha256.isSome then
      throw "screen result contains qualification state"
    else return ()
  else if result.survivors ≠ [] || result.sourceScreenManifestSha256.isNone ||
      !result.sourceScreenAcceptanceSha256.any isSha256 ||
      (result.status = .complete && !result.qualitativeEvidenceSha256.any isSha256) then
    throw "qualification result lacks evidence provenance"
  else return ()

/-! ## The directory -/

/-- The files of a matrix that the commands change. -/
structure Disk where
  manifest : MatrixManifest
  /-- `acceptance.json`. -/
  acceptance : Option AcceptanceResult
  artifacts : Artifacts
deriving DecidableEq, Repr

/-- `MATRIX_MANIFEST_MAX_BYTES`. -/
def maxManifestBytes : Nat :=
  67108864

/-- `_MAX_ACCEPTANCE_BYTES`. -/
def maxAcceptanceBytes : Nat :=
  16777216

/-- `_frozen_acceptance_bytes`. -/
def frozenAcceptance (lib : ScreenLibrary) (disk : Disk) : Except String AcceptanceResult :=
  match disk.acceptance with
  | none => throw "finalized screen acceptance is unavailable"
  | some result =>
    if lib.acceptanceSize result > maxAcceptanceBytes then
      throw "finalized screen acceptance is invalid"
    else
      match result.check lib with
      | .error _ => throw "finalized screen acceptance is invalid"
      | .ok _ => return result

/-- `_validate_bound_acceptance_artifact`. -/
def validateBoundAcceptance (lib : ScreenLibrary) (disk : Disk) : Except String Unit :=
  match disk.manifest.acceptanceSha256 with
  | none => return ()
  | some digest =>
    match disk.acceptance with
    | none => throw "matrix acceptance finalization is invalid"
    | some result =>
      if lib.acceptanceSize result > maxAcceptanceBytes || lib.acceptanceDigest result ≠ digest ||
          result.campaignKind ≠ .screen || result.status ≠ .complete ||
          result.finalizedAt ≠ disk.manifest.acceptanceFinalizedAt then
        throw "matrix acceptance finalization is invalid"
      else return ()

/-- The part of `_verify_matrix_layout` on the files that the commands change. -/
def verifyMatrixLayout (lib : ScreenLibrary) (disk : Disk) : Except String Unit :=
  if disk.manifest.acceptanceSha256.isSome && disk.acceptance.isNone ||
      disk.acceptance.isSome && disk.manifest.core.campaignKind ≠ .screen then
    throw "matrix directory contains unexpected nodes"
  else do
    validateBoundAcceptance lib disk
    inspectArtifacts disk.artifacts

/-! ## Inspection and evaluation -/

/-- `inspect_matrix`. -/
def inspectMatrix (lib : ScreenLibrary) (disk : Disk) : Except String MatrixManifest :=
  if lib.manifestSize disk.manifest > maxManifestBytes then throw "matrix manifest is invalid"
  else do
    disk.manifest.check lib
    lib.inspectInputs disk.manifest.core
    verifyMatrixLayout lib disk
    lib.inspectEvidence disk.manifest.core
    return disk.manifest

/-- `MatrixManifest.acceptance_source_sha256`. -/
def MatrixManifest.acceptanceSourceSha256 (lib : ScreenLibrary) (manifest : MatrixManifest) :
    String :=
  lib.manifestDigest { manifest with acceptanceSha256 := none, acceptanceFinalizedAt := none }

/-- A new `AcceptanceResult`, which checks itself. -/
def AcceptanceResult.checked (lib : ScreenLibrary) (result : AcceptanceResult) :
    Except String AcceptanceResult := do
  result.check lib
  return result

/-- The result on an open matrix. -/
def pendingResult (lib : ScreenLibrary) (core : ManifestCore) (manifestSha256 : String) :
    AcceptanceResult where
  campaignKind := core.campaignKind
  matrixId := core.matrixId
  manifestSha256 := manifestSha256
  configSha256 := core.configSha256
  campaignSha256 := core.campaignSha256
  planSha256 := core.planSha256
  status := .pending
  routes := lib.pendingDecisions core
  survivors := []
  qualifiedRoutes := []
  sourceScreenManifestSha256 := core.sourceScreenManifestSha256
  qualitativeEvidenceSha256 := none
  sourceScreenAcceptanceSha256 := core.sourceScreenAcceptanceSha256
  attemptHistorySha256 := lib.attemptHistorySha256
  finalizedAt := none

/-- The result on a completed screen. -/
def completeResult (lib : ScreenLibrary) (core : ManifestCore) (manifestSha256 : String)
    (evidence : QualitativeEvidence) (decisions : List RouteDecision) : AcceptanceResult where
  campaignKind := core.campaignKind
  matrixId := core.matrixId
  manifestSha256 := manifestSha256
  configSha256 := core.configSha256
  campaignSha256 := core.campaignSha256
  planSha256 := core.planSha256
  status := .complete
  routes := decisions
  survivors := (decisions.filter (·.outcome = .survivor)).map (·.route)
  qualifiedRoutes := (decisions.filter (·.outcome = .qualified)).map (·.route)
  sourceScreenManifestSha256 := none
  qualitativeEvidenceSha256 := some (lib.evidenceDigest evidence)
  sourceScreenAcceptanceSha256 := core.sourceScreenAcceptanceSha256
  attemptHistorySha256 := lib.attemptHistorySha256
  finalizedAt := none

/-- The digest of the manifest without its acceptance. -/
def sourceManifestSha256 (lib : ScreenLibrary) (manifest : MatrixManifest) : String :=
  if manifest.acceptanceSha256.isSome then manifest.acceptanceSourceSha256 lib
  else lib.manifestDigest manifest

/-- `_evaluate_inspected` without a source screen. -/
def evaluateInspected (lib : ScreenLibrary) (manifest : MatrixManifest) (artifacts : Artifacts) :
    Except String AcceptanceResult :=
  let core := manifest.core
  if core.campaignKind = .benchmark then
    throw "benchmark campaigns are diagnostic and cannot be accepted or finalized"
  else do
    lib.policyShape core
    if core.campaignKind = .screen then lib.screenCorpus core
    if !core.completed then
      AcceptanceResult.checked lib (pendingResult lib core (sourceManifestSha256 lib manifest))
    else if !lib.structurallyComplete core then
      throw "completed campaign is not structurally complete"
    else if core.campaignKind ≠ .screen then throw "qualification requires its source screen"
    else
      lib.chronology core
      let evidence ← qualitativeOutcomes lib.judge lib.matrix artifacts true
      let decisions ← lib.decideRoutes core evidence.outcomes
      AcceptanceResult.checked lib
        (completeResult lib core (sourceManifestSha256 lib manifest) evidence decisions)

/-! ## Finalization -/

/-- `replace(result, finalized_at=None)`. -/
def AcceptanceResult.unfinalized (result : AcceptanceResult) : AcceptanceResult :=
  { result with finalizedAt := none }

/-- `_load_finalized_screen_locked`. -/
def loadFinalizedScreen (lib : ScreenLibrary) (disk : Disk) : Except String AcceptanceResult := do
  let manifest ← inspectMatrix lib disk
  if manifest.acceptanceSha256.isNone || manifest.acceptanceFinalizedAt.isNone then
    throw "screen acceptance is not finalized"
  else
    let frozen ← frozenAcceptance lib disk
    let current ← evaluateInspected lib manifest disk.artifacts
    if frozen.campaignKind ≠ .screen || frozen.status ≠ .complete || frozen.finalizedAt.isNone ||
        frozen.finalizedAt ≠ manifest.acceptanceFinalizedAt ||
        some (lib.acceptanceDigest frozen) ≠ manifest.acceptanceSha256 ||
        frozen.unfinalized ≠ current then
      throw "finalized screen acceptance does not match evidence"
    else return frozen

/-- `MatrixManifest.bind_acceptance`. -/
def MatrixManifest.bindAcceptance (lib : ScreenLibrary) (manifest : MatrixManifest)
    (digest finalizedAt : String) : Except String MatrixManifest :=
  if !manifest.core.completed || manifest.core.campaignKind ≠ .screen ||
      manifest.acceptanceSha256.isSome || !isSha256 digest then
    throw "matrix acceptance cannot be finalized"
  else if (lib.parseTime finalizedAt).isNone then throw "invalid manifest time"
  else do
    let bound : MatrixManifest :=
      { manifest with acceptanceSha256 := some digest, acceptanceFinalizedAt := some finalizedAt }
    bound.check lib
    return bound

/-- `MatrixManifest.persist` of a completed manifest over the existing one. -/
def MatrixManifest.persist (lib : ScreenLibrary) (existing manifest : MatrixManifest) :
    Except String MatrixManifest :=
  if lib.manifestSize existing > maxManifestBytes then throw "existing matrix manifest is invalid"
  else do
    existing.check lib
    if existing.acceptanceSha256.isNone && existing.acceptanceFinalizedAt.isNone &&
        manifest.acceptanceSha256.isSome && existing.core = manifest.core then return manifest
    else throw "matrix manifest history does not match"

/-- The writes of a call, as the directories after each, and what it returns. -/
abbrev Writes (α : Type) :=
  List Disk × Except String α

/-- The decision with the time of the clock. -/
def finalizedAt (lib : ScreenLibrary) (now : Instant) (manifest : MatrixManifest)
    (decision : AcceptanceResult) : Except String AcceptanceResult :=
  match manifest.core.finishedAt with
  | none => throw "campaign completion time is unavailable"
  | some value =>
    match lib.parseTime value with
    | none => throw "campaign time is invalid"
    | some finished =>
      if now ≤ finished then throw "screen finalization chronology is invalid"
      else AcceptanceResult.checked lib { decision with finalizedAt := some (lib.formatTime now) }

/-- The end of `finalize_screen`: the manifest is bound to the published decision. -/
def bindDecision (lib : ScreenLibrary) (disk : Disk) (decision : AcceptanceResult)
    (time : String) : Writes AcceptanceResult :=
  match disk.manifest.bindAcceptance lib (lib.acceptanceDigest decision) time >>=
      disk.manifest.persist lib with
  | .error _ => ([], throw "screen acceptance finalization checkpoint failed")
  | .ok manifest => ([{ disk with manifest := manifest }], return decision)

/-- The part of `finalize_screen` in front of its writes. -/
def screenDecision (lib : ScreenLibrary) (disk : Disk) :
    Except String (MatrixManifest × AcceptanceResult) := do
  let manifest ← inspectMatrix lib disk
  let decision ← evaluateInspected lib manifest disk.artifacts
  if decision.campaignKind ≠ .screen || decision.status ≠ .complete then
    throw "screen is not complete and finalizable"
  else return (manifest, decision)

/-- `finalize_screen`, with this time on its clock. -/
def finalizeScreen (lib : ScreenLibrary) (now : Instant) (disk : Disk) : Writes AcceptanceResult :=
  match screenDecision lib disk with
  | .error message => ([], throw message)
  | .ok (manifest, decision) =>
    if manifest.acceptanceSha256.isSome then ([], loadFinalizedScreen lib disk)
    else
      match frozenAcceptance lib disk with
      | .ok frozen =>
        match frozen.finalizedAt with
        | none => ([], throw "finalized screen acceptance does not match evidence")
        | some time =>
          if frozen.unfinalized ≠ decision then
            ([], throw "finalized screen acceptance does not match evidence")
          else bindDecision lib disk frozen time
      | .error message =>
        if message ≠ "finalized screen acceptance is unavailable" then ([], throw message)
        else
          match finalizedAt lib now manifest decision with
          | .error message => ([], throw message)
          | .ok published =>
            if disk.acceptance.isSome then ([], throw "finalized screen acceptance raced")
            else
              let after := { disk with acceptance := some published }
              let binding := bindDecision lib after published (lib.formatTime now)
              (after :: binding.1, binding.2)

/-! ## Calls -/

/-- The matrix that an import inspects. -/
def Disk.matrix (lib : ScreenLibrary) (disk : Disk) : Matrix :=
  { lib.matrix with
    finalized := disk.manifest.acceptanceSha256.isSome || disk.acceptance.isSome }

/-- A call on the matrix. -/
inductive ScreenCall where
  | finalize (now : Instant)
  | load
  | importJudgment (source : Option JudgmentDocument)
  | importAdjudication (source : Option AdjudicationDocument)
deriving DecidableEq

/-- An import, which inspects the matrix too. -/
def importInspected (lib : ScreenLibrary) (disk : Disk) (imported : Except String Artifacts) :
    Except String Disk := do
  let artifacts ← imported
  let _ ← inspectMatrix lib disk
  return { disk with artifacts := artifacts }

/-- `import_judgment`. -/
def importScreenJudgment (lib : ScreenLibrary) (disk : Disk) (source : Option JudgmentDocument) :
    Except String Disk :=
  importInspected lib disk (importJudgment lib.judge (disk.matrix lib) disk.artifacts source)

/-- `import_adjudication`. -/
def importScreenAdjudication (lib : ScreenLibrary) (disk : Disk)
    (source : Option AdjudicationDocument) : Except String Disk :=
  importInspected lib disk (importAdjudication lib.judge (disk.matrix lib) disk.artifacts source)

/-- The directories after each write of the call. -/
def ScreenCall.writes (lib : ScreenLibrary) (disk : Disk) : ScreenCall → List Disk
  | .finalize now => (finalizeScreen lib now disk).1
  | .load => []
  | .importJudgment source => (importScreenJudgment lib disk source).toOption.toList
  | .importAdjudication source => (importScreenAdjudication lib disk source).toOption.toList

/-- A call under the lock, which is killed before its first write, after one of them,
or not at all. -/
def ScreenStep (lib : ScreenLibrary) (disk disk' : Disk) : Prop :=
  disk' = disk ∨ ∃ call : ScreenCall, disk' ∈ call.writes lib disk

/-- A screen: its texts stay below the limits of their readers, as its corpus bounds the
scenarios and its plan the work items. -/
structure Screen extends ScreenLibrary where
  core : ManifestCore
  manifestFits : ∀ digest time, isSha256 digest = true →
    manifestSize ⟨core, some digest, some (formatTime time)⟩ ≤ maxManifestBytes
  acceptanceFits : ∀ artifacts decision,
    evaluateInspected toScreenLibrary ⟨core, none, none⟩ artifacts = .ok decision →
      ∀ time, acceptanceSize { decision with finalizedAt := some (formatTime time) } ≤
        maxAcceptanceBytes

/-- The screen before its finalization, with these artifacts. -/
def Screen.start (screen : Screen) (artifacts : Artifacts) : Disk :=
  ⟨⟨screen.core, none, none⟩, none, artifacts⟩

end SteamAgent.Evals
