import SteamAgent.Stdlib.Choice
import SteamAgent.Stdlib.Datetime

/-!
# Compatibility evidence

The records that `assess_compatibility` reads.  Each has a `make`, which is its
`__post_init__`: it checks the fields and puts them into their canonical form.
The `isinstance` checks hold by type.
-/

namespace SteamAgent.Compatibility

open Choice (sortBy)
open Datetime (Instant)

/-- `MAX_APPID`. -/
def maxAppid : Int :=
  4294967295

/-- `MAX_ITEMS`. -/
def maxItems : Nat :=
  100000

/-- `MAX_COMPONENTS`. -/
def maxComponents : Nat :=
  256

/-- `MAX_TOTAL_GATES`. -/
def maxTotalGates : Nat :=
  1000000

/-- `MAX_EVIDENCE_IDS`. -/
def maxEvidenceIds : Nat :=
  64

/-- `MAX_TEXT`. -/
def maxText : Nat :=
  256

structure ValueError where
  message : String
deriving DecidableEq, Repr

/-- Raise unless a condition holds. -/
def require (p : Prop) [Decidable p] (message : String) : Except ValueError Unit :=
  if p then .ok () else .error ⟨message⟩

@[simp] theorem require_eq_ok {p : Prop} [Decidable p] {message : String} {u : Unit} :
    require p message = .ok u ↔ p := by
  unfold require
  split <;> simp_all

/-- What Unicode says of a character. -/
structure CharLibrary where
  isPrintable : Char → Bool

inductive GateState where
  | pass
  | fail
  | unknown
deriving DecidableEq, Repr

inductive Freshness where
  | fresh
  | stale
  | expired
  | unknown
deriving DecidableEq, Repr

inductive SupportLevel where
  | official
  | documented
  | provisional
  | community
  | ofMachine
  | unknown
deriving DecidableEq, Repr

inductive CompatibilityState where
  | compatible
  | incompatible
  | conditional
  | unknown
deriving DecidableEq, Repr

inductive TargetKind where
  | machine
  | valveDeck
deriving DecidableEq, Repr

inductive Platform where
  | windows
  | macos
  | linux
  | steamos
deriving DecidableEq, Repr

def Platform.value : Platform → String
  | .windows => "windows"
  | .macos => "macos"
  | .linux => "linux"
  | .steamos => "steamos"

inductive FeatureKind where
  | accessibility
  | input
  | language
deriving DecidableEq, Repr

def FeatureKind.value : FeatureKind → String
  | .accessibility => "accessibility"
  | .input => "input"
  | .language => "language"

theorem FeatureKind.value_injective {a b : FeatureKind} (h : a.value = b.value) : a = b := by
  cases a <;> cases b <;> first | rfl | exact absurd h (by decide)

/-! ## Texts -/

def isSlugEnd (c : Char) : Bool :=
  ('a' ≤ c && c ≤ 'z') || ('0' ≤ c && c ≤ '9')

def isSlugInside (c : Char) : Bool :=
  isSlugEnd c || c == '.' || c == '_' || c == '-'

/-- A text of one class of characters, at most `limit` of them, that starts and ends with
characters of another class. -/
def fullmatch (first inside last : Char → Bool) (limit : Nat) (text : String) : Bool :=
  let chars := text.toList
  chars.length ≤ limit && chars.all inside && chars.head?.any first && chars.getLast?.any last

/-- `_SLUG`. -/
def isSlug (text : String) : Bool :=
  fullmatch isSlugEnd isSlugInside isSlugEnd 64 text

/-- `_GATE`. -/
def isGate (text : String) : Bool :=
  fullmatch isSlugEnd (fun c => isSlugInside c || c == ':') isSlugEnd 128 text

def isKeyStart (c : Char) : Bool :=
  isSlugEnd c || ('A' ≤ c && c ≤ 'Z')

/-- `_MACHINE_KEY`. -/
def isMachineKey (text : String) : Bool :=
  let inside := fun c => isKeyStart c || c == '.' || c == '_' || c == '-'
  fullmatch isKeyStart inside inside 64 text

/-- `_int`. -/
def checkInt (name : String) (minimum maximum value : Int) : Except ValueError Unit :=
  require (minimum ≤ value ∧ value ≤ maximum)
    (name ++ " must be an integer between " ++ toString minimum ++ " and " ++ toString maximum)

/-- `_text`. -/
def checkText (lib : CharLibrary) (name value : String) : Except ValueError Unit :=
  require (value.toList ≠ [] ∧ value.toList.length ≤ maxText ∧ value.toList.all lib.isPrintable)
    (name ++ " must be a bounded printable string")

/-- `_text`, of a field that may be missing. -/
def checkOptional (lib : CharLibrary) (name : String) : Option String → Except ValueError Unit
  | none => .ok ()
  | some value => checkText lib name value

/-- `_ids`. -/
def checkIds (lib : CharLibrary) (values : List String) : Except ValueError (List String) := do
  require (values.length ≤ maxEvidenceIds) "evidence_ids must be a bounded tuple"
  values.forM (checkText lib "evidence_id")
  require values.Nodup "evidence_ids must be unique"
  return sortBy id values

/-! ## Records -/

structure CompatibilityTarget where
  kind : TargetKind
  key : String
  platform : Platform
deriving DecidableEq

def CompatibilityTarget.make (target : CompatibilityTarget) :
    Except ValueError CompatibilityTarget := do
  let keyPattern := match target.kind with
    | .machine => isMachineKey
    | .valveDeck => isSlug
  require (keyPattern target.key) "target key is invalid"
  require (target.kind = .valveDeck → target.platform = .steamos)
    "Valve Deck targets must use steamos"
  return target

/-- A three-valued fact with its lineage and its uncertainty. -/
structure PrimitiveEvidence where
  state : GateState
  source : Option String
  supportLevel : SupportLevel
  observedAt : Option Instant
  freshness : Freshness
  evidenceIds : List String
  conflict : Bool
  unknownReason : Option String
  condition : Option String
deriving DecidableEq

/-- The checks of `PrimitiveEvidence` on the state. -/
def PrimitiveEvidence.checkState (evidence : PrimitiveEvidence) : Except ValueError Unit :=
  match evidence.state with
  | .unknown => do
    require (evidence.unknownReason ≠ none) "unknown evidence requires an explanation"
    require (evidence.condition = none) "unknown evidence cannot assert a known condition"
  | .pass | .fail => do
    require (evidence.unknownReason = none) "known evidence cannot carry an unknown explanation"
    require (evidence.source ≠ none ∧ evidence.observedAt ≠ none ∧ evidence.evidenceIds ≠ [])
      "known evidence requires source, observation time, and lineage"
    require (evidence.freshness ≠ .unknown) "known evidence requires known freshness"

def PrimitiveEvidence.make (lib : CharLibrary) (evidence : PrimitiveEvidence) :
    Except ValueError PrimitiveEvidence := do
  checkOptional lib "source" evidence.source
  let ids ← checkIds lib evidence.evidenceIds
  checkOptional lib "unknown_reason" evidence.unknownReason
  checkOptional lib "condition" evidence.condition
  require (evidence.conflict = true → evidence.state = .unknown)
    "conflicting evidence must remain unknown"
  evidence.checkState
  require (evidence.state = .fail → evidence.condition = none)
    "failed evidence cannot also be a pass condition"
  return { evidence with
    observedAt := evidence.observedAt.map Instant.wholeSecond
    evidenceIds := ids }

/-- The fields of `unknown(reason, conflict=conflict)`. -/
def unknownEvidence (reason : String) (conflict : Bool) : PrimitiveEvidence :=
  ⟨.unknown, none, .unknown, none, .unknown, [], conflict, some reason, none⟩

/-- `unknown`. -/
def unknown (lib : CharLibrary) (reason : String) (conflict : Bool) :
    Except ValueError PrimitiveEvidence :=
  (unknownEvidence reason conflict).make lib

inductive Presence where
  | present
  | absent
  | unknown
deriving DecidableEq, Repr

inductive Impact where
  | blocking
  | manual
  | runtime
deriving DecidableEq, Repr

structure RuntimeRisk where
  name : String
  presence : Presence
  impact : Impact
  evidence : PrimitiveEvidence
deriving DecidableEq

def Presence.expected : Presence → GateState
  | .present => .pass
  | .absent => .fail
  | .unknown => .unknown

def RuntimeRisk.make (lib : CharLibrary) (risk : RuntimeRisk) : Except ValueError RuntimeRisk := do
  let evidence ← risk.evidence.make lib
  require (isSlug risk.name) "runtime risk name must be a bounded slug"
  require (evidence.state = risk.presence.expected)
    "runtime risk presence and evidence disagree"
  return { risk with evidence := evidence }

structure FeatureEvidence where
  kind : FeatureKind
  name : String
  support : PrimitiveEvidence
deriving DecidableEq

def FeatureEvidence.make (lib : CharLibrary) (feature : FeatureEvidence) :
    Except ValueError FeatureEvidence := do
  let support ← feature.support.make lib
  require (isSlug feature.name) "feature name must be a bounded slug"
  return { feature with support := support }

structure FeatureRequirement where
  kind : FeatureKind
  name : String
deriving DecidableEq

def FeatureRequirement.make (requirement : FeatureRequirement) :
    Except ValueError FeatureRequirement := do
  require (isSlug requirement.name) "feature requirement name must be a bounded slug"
  return requirement

inductive Rating where
  | verified
  | playable
  | unsupported
  | unknown
deriving DecidableEq, Repr

def Rating.expected : Rating → GateState
  | .verified => .pass
  | .playable => .pass
  | .unsupported => .fail
  | .unknown => .unknown

structure TargetReview where
  target : CompatibilityTarget
  rating : Rating
  evidence : PrimitiveEvidence
deriving DecidableEq

def TargetReview.make (lib : CharLibrary) (review : TargetReview) :
    Except ValueError TargetReview := do
  let target ← review.target.make
  let evidence ← review.evidence.make lib
  require (evidence.state = review.rating.expected)
    "target review rating and evidence disagree"
  require (review.rating = .playable → evidence.condition ≠ none)
    "Playable target reviews require a condition"
  require (review.rating ≠ .playable → evidence.condition = none)
    "only Playable target reviews may carry a condition"
  return ⟨target, review.rating, evidence⟩

structure CompatibilityCandidate where
  appid : Int
  target : CompatibilityTarget
  declaredNativeBuild : PrimitiveEvidence
  effectiveExecutionSupport : PrimitiveEvidence
  architecture : PrimitiveEvidence
  meetsMinimum : PrimitiveEvidence
  exactTargetReview : Option TargetReview
  likelyGoodExperience : PrimitiveEvidence
  installed : PrimitiveEvidence
  owned : PrimitiveEvidence
  runtimeRisks : List RuntimeRisk
  features : List FeatureEvidence
deriving DecidableEq

/-- The key that `features` and requirements are sorted by. -/
def featureKey (kind : FeatureKind) (name : String) : String ×ₗ String :=
  toLex (kind.value, name)

def makeReview (lib : CharLibrary) : Option TargetReview → Except ValueError (Option TargetReview)
  | none => .ok none
  | some review => (review.make lib).map some

/-- The checks of `CompatibilityCandidate` itself. -/
def CompatibilityCandidate.check (candidate : CompatibilityCandidate) :
    Except ValueError CompatibilityCandidate := do
  checkInt "appid" 1 maxAppid candidate.appid
  require (candidate.runtimeRisks.length ≤ maxComponents ∧
      candidate.features.length ≤ maxComponents)
    "candidate risks and features exceed the supported bound"
  require ((candidate.runtimeRisks.map (·.name)).Nodup ∧
      (candidate.features.map fun item => (item.kind, item.name)).Nodup)
    "risk and feature names must be unique"
  return { candidate with
    runtimeRisks := sortBy (·.name) candidate.runtimeRisks
    features := sortBy (fun item => featureKey item.kind item.name) candidate.features }

/-- A candidate from its parts, each of them made first. -/
def CompatibilityCandidate.make (lib : CharLibrary) (candidate : CompatibilityCandidate) :
    Except ValueError CompatibilityCandidate := do
  let target ← candidate.target.make
  let declaredNativeBuild ← candidate.declaredNativeBuild.make lib
  let effectiveExecutionSupport ← candidate.effectiveExecutionSupport.make lib
  let architecture ← candidate.architecture.make lib
  let meetsMinimum ← candidate.meetsMinimum.make lib
  let exactTargetReview ← makeReview lib candidate.exactTargetReview
  let likelyGoodExperience ← candidate.likelyGoodExperience.make lib
  let installed ← candidate.installed.make lib
  let owned ← candidate.owned.make lib
  let runtimeRisks ← candidate.runtimeRisks.mapM (RuntimeRisk.make lib)
  let features ← candidate.features.mapM (FeatureEvidence.make lib)
  CompatibilityCandidate.check ⟨candidate.appid, target, declaredNativeBuild,
    effectiveExecutionSupport, architecture, meetsMinimum, exactTargetReview, likelyGoodExperience,
    installed, owned, runtimeRisks, features⟩

structure GateOverride where
  name : String
  appid : Int
  gate : String
  effective : GateState
  evidenceIds : List String
  appliedAt : Instant
deriving DecidableEq

def GateOverride.make (lib : CharLibrary) (override : GateOverride) :
    Except ValueError GateOverride := do
  require (isSlug override.name) "override name must be a bounded slug"
  checkInt "override appid" 1 maxAppid override.appid
  require (isGate override.gate) "override gate is invalid"
  let ids ← checkIds lib override.evidenceIds
  require (ids ≠ []) "override requires evidence lineage"
  return { override with
    evidenceIds := ids
    appliedAt := override.appliedAt.wholeSecond }

end SteamAgent.Compatibility
