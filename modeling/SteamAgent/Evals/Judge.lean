import Mathlib.Data.List.Sort
import SteamAgent.Stdlib.Text

/-!
# Qualitative imports

The imports of `judge.py`: a judgment or an adjudication is checked against the
inspected matrix and published under its ID.

A document is one that its JSON schema accepts; the schema library, the file
system and the text checks of the metadata are parameters of `JudgeLibrary`.
The evidence of the matrix does not change, so it is one value.  Of the
artifacts only the documents are kept: a file is the canonical text of its
document, under its ID.

There are four groups.

* The documents.
* The matrix.
* The checks of an import.
* `importJudgment` and `importAdjudication`.
-/

namespace SteamAgent.Evals

open Text (isSpace)

/-! ## Documents -/

/-- The `target` of a document. -/
structure Target where
  matrixId : String
  workItemId : String
  reportSha256 : String
  scenarioSha256 : String
  rubricSha256 : String
  projectionSha256 : String
deriving DecidableEq, Repr

structure VersionedDigest where
  version : String
  sha256 : String
deriving DecidableEq, Repr

/-- `MatrixJudgeConfiguration`, and the `judge` of a judgment. -/
structure JudgeConfiguration where
  identifier : String
  kind : String
  model : String
  reasoningEffort : String
  settingsIdentity : String
  settingsSha256 : String
deriving DecidableEq, Repr

inductive Verdict where
  | pass
  | fail
  | uncertain
deriving DecidableEq, Repr

inductive Outcome where
  | pass
  | fail
  | unresolved
deriving DecidableEq, Repr

structure VerdictItem where
  criterionId : String
  verdict : Verdict
  rationale : String
deriving DecidableEq, Repr

structure OutcomeItem where
  criterionId : String
  outcome : Outcome
deriving DecidableEq, Repr

structure Presentation where
  blindedLabel : String
  order : Nat
deriving DecidableEq, Repr

structure JudgmentDocument where
  judgmentId : String
  target : Target
  judge : JudgeConfiguration
  prompt : VersionedDigest
  parser : VersionedDigest
  presentation : Presentation
  verdicts : List VerdictItem
  createdAt : String
deriving DecidableEq, Repr

inductive Method where
  | agreement
  | humanAdjudication
deriving DecidableEq, Repr

structure AdjudicationDocument where
  adjudicationId : String
  target : Target
  method : Method
  adjudicator : String
  judgmentSha256s : List String
  outcomes : List OutcomeItem
  createdAt : String
deriving DecidableEq, Repr

/-! ## The matrix -/

inductive CampaignKind where
  | screen
  | qualification
  | benchmark
deriving DecidableEq, Repr

/-- The judge policy of a campaign. -/
structure Campaign where
  kind : CampaignKind
  prompt : VersionedDigest
  parser : VersionedDigest
  judges : List JudgeConfiguration
  adjudicationMethod : Method
  adjudicator : String
deriving DecidableEq, Repr

structure Scenario where
  scenarioId : String
  sourceSha256 : String
  rubricSha256 : String
  criterionIds : List String
  /-- The sources of the qualitative criteria. -/
  criterionSources : List String
deriving DecidableEq, Repr

structure Observation where
  matrixId : String
  workItemId : String
  scenarioId : String
  /-- The privacy metric is a mapping with `passed` true. -/
  privacyPassed : Bool
  reportSha256 : Option String
deriving DecidableEq, Repr

/-- What the code takes from elsewhere. -/
structure JudgeLibrary where
  /-- `_projection_digest`. -/
  projectionDigest : Observation → Scenario → Except String String
  /-- `_reject_unsafe_metadata`, with its message. -/
  rejectsJudgment : JudgmentDocument → Observation → Option String
  rejectsAdjudication : AdjudicationDocument → Observation → Option String
  /-- `_STEAM_ID64_TOKEN.search`. -/
  hasSteamId : String → Bool
  /-- SHA-256 of the canonical bytes. -/
  judgmentDigest : JudgmentDocument → String
  adjudicationDigest : AdjudicationDocument → String
  /-- The number of canonical bytes. -/
  judgmentSize : JudgmentDocument → Nat
  adjudicationSize : AdjudicationDocument → Nat

/-- An inspected matrix.  `inspect_matrix` gives every observation the ID of the
matrix. -/
structure Matrix where
  matrixId : String
  campaign : Campaign
  observations : List Observation
  scenarios : List Scenario
  /-- The manifest is bound to an acceptance, or the acceptance is published. -/
  finalized : Bool
  matrixIds : ∀ observation ∈ observations, observation.matrixId = matrixId

/-- The artifacts of a matrix. -/
structure Artifacts where
  judgments : List JudgmentDocument
  adjudications : List AdjudicationDocument
deriving DecidableEq, Repr

/-- `dict.get` on a dictionary built from the list: the last one counts. -/
def Matrix.observation (m : Matrix) (workItemId : String) : Option Observation :=
  m.observations.reverse.find? fun observation => observation.workItemId = workItemId

def Matrix.scenario (m : Matrix) (scenarioId : String) : Option Scenario :=
  m.scenarios.reverse.find? fun scenario => scenario.scenarioId = scenarioId

/-! ## Checks -/

/-- `_MAX_ARTIFACT_BYTES`. -/
def maxArtifactBytes : Nat :=
  16777216

/-- A character of a token. -/
def isTokenChar (c : Char) : Bool :=
  c.isAlphanum || c == '.' || c == '_' || c == '+' || c == '-'

/-- `[A-Za-z0-9][A-Za-z0-9._+-]{0,127}`, which is `_SAFE_TOKEN`, and what
`_QUALITATIVE_ARTIFACT` asks of an ID. -/
def isToken (value : String) : Bool :=
  match value.toList with
  | [] => false
  | first :: others => first.isAlphanum && others.all isTokenChar && others.length ≤ 127

/-- The target of a document with this observation and scenario. -/
def expectedTarget (matrixId : String) (observation : Observation) (scenario : Scenario)
    (report projection : String) : Target :=
  ⟨matrixId, observation.workItemId, report, scenario.sourceSha256, scenario.rubricSha256,
    projection⟩

/-- `_target_observation` of an import. -/
def targetObservation (lib : JudgeLibrary) (m : Matrix) (target : Target) :
    Except String (Observation × Scenario) :=
  if target.matrixId ≠ m.matrixId then throw "qualitative target matrix does not match"
  else
    match m.observation target.workItemId with
    | none => throw "qualitative target work item is unavailable"
    | some observation =>
      if !observation.privacyPassed then throw "qualitative target is not privacy-cleared"
      else
        match m.scenario observation.scenarioId with
        | none => throw "qualitative target scenario is unavailable"
        | some scenario =>
          match observation.reportSha256 with
          | none => throw "qualitative target report is unavailable"
          | some report =>
            match lib.projectionDigest observation scenario with
            | .error message => throw message
            | .ok projection =>
              if target ≠ expectedTarget m.matrixId observation scenario report projection then
                throw "qualitative target digest does not match"
              else return (observation, scenario)

/-- `len(value.split())`, in front of a word or inside of one. -/
def wordCount : Bool → List Char → Nat
  | _, [] => 0
  | inside, c :: rest =>
    if isSpace c then wordCount false rest
    else (if inside then 0 else 1) + wordCount true rest

/-- `_criterion_map` of the verdicts, after those seen. -/
def verdictMap (seen : List String) : List VerdictItem → Except String (List (String × Verdict))
  | [] => return []
  | item :: items =>
    let words := wordCount false item.rationale.toList
    if words < 1 ∨ words > 12 then throw "judgment rationale is invalid"
    else if seen.contains item.criterionId then throw "qualitative criterion is duplicated"
    else return (item.criterionId, item.verdict) :: (← verdictMap (item.criterionId :: seen) items)

/-- `_criterion_map` of the outcomes, after those seen. -/
def outcomeMap (seen : List String) : List OutcomeItem → Except String (List (String × Outcome))
  | [] => return []
  | item :: items =>
    if seen.contains item.criterionId then throw "qualitative criterion is duplicated"
    else return (item.criterionId, item.outcome) :: (← outcomeMap (item.criterionId :: seen) items)

/-- The file that a document is published as. -/
def artifactName (id : String) : String :=
  id ++ ".json"

/-- `sorted`, by a text. -/
def sortedBy {α : Type} (key : α → String) (documents : List α) : List α :=
  documents.insertionSort fun a b => ¬key b < key a

/-- Equality of sets. -/
def sameSet {α : Type} [BEq α] (a b : List α) : Bool :=
  a.all b.contains && b.all a.contains

/-- `_requires_calibrated_policy`. -/
def requiresCalibratedPolicy (campaign : Campaign) (scenario : Scenario) : Bool :=
  campaign.kind == .qualification || campaign.kind == .benchmark ||
    scenario.criterionSources.contains "fact_rubric.criteria.hard_fail"

/-- `_configured_judge`: the schema leaves the tokens to check. -/
def configuredJudge (document : JudgmentDocument) : Except String JudgeConfiguration :=
  if isToken document.judge.identifier && isToken document.judge.model &&
      isToken document.judge.settingsIdentity then return document.judge
  else throw "judgment judge configuration is invalid"

/-- `_validate_judgment_policy`. -/
def validateJudgmentPolicy (campaign : Campaign) (document : JudgmentDocument) :
    Except String Unit := do
  let configured ← configuredJudge document
  if !campaign.judges.contains configured || document.prompt ≠ campaign.prompt ||
      document.parser ≠ campaign.parser then
    throw "judgment does not match campaign judge policy"

/-- `_validate_adjudication_policy`. -/
def validateAdjudicationPolicy (campaign : Campaign) (document : AdjudicationDocument)
    (judgments : List JudgmentDocument) : Except String Unit := do
  let configured ← judgments.mapM configuredJudge
  if document.method ≠ campaign.adjudicationMethod ||
      document.adjudicator ≠ campaign.adjudicator ||
      configured.length ≠ campaign.judges.length || !configured.Nodup ||
      !sameSet configured campaign.judges then
    throw "adjudication does not match campaign judge policy"

/-- The outcome of a verdict that all judges gave. -/
def Verdict.outcome : Verdict → Outcome
  | pass => .pass
  | fail => .fail
  | uncertain => .unresolved

/-- The outcome that the verdicts on a criterion lead to. -/
def expectedOutcome : List Verdict → Outcome
  | [] => .unresolved
  | verdict :: verdicts => if verdicts.all (· = verdict) then verdict.outcome else .unresolved

/-- The check of an agreement, on the verdicts of each judgment. -/
def checkAgreement (maps : List (List (String × Verdict))) (outcomes : List (String × Outcome)) :
    Except String Unit :=
  if maps.length < 2 then throw "agreement requires at least two judgments"
  else if outcomes.all fun entry =>
      entry.2 = expectedOutcome (maps.filterMap (·.lookup entry.1)) then return ()
  else throw "agreement outcome does not match judgments"

/-! ## Imports -/

/-- The check of a judgment, with the message for its coverage. -/
def validateJudgment (lib : JudgeLibrary) (m : Matrix) (coverage : String)
    (document : JudgmentDocument) : Except String Unit := do
  let (observation, scenario) ← targetObservation lib m document.target
  match lib.rejectsJudgment document observation with
  | some message => throw message
  | none =>
    let verdicts ← verdictMap [] document.verdicts
    if !sameSet (verdicts.map Prod.fst) scenario.criterionIds then throw coverage
    else if requiresCalibratedPolicy m.campaign scenario then
      validateJudgmentPolicy m.campaign document

/-- `_validate_judgment_document`. -/
def validateJudgmentDocument (lib : JudgeLibrary) (m : Matrix) :
    JudgmentDocument → Except String Unit :=
  validateJudgment lib m "judgment does not cover the exact rubric"

/-- One artifact of `_retained_judgments`. -/
def validateRetained (lib : JudgeLibrary) (m : Matrix) (document : JudgmentDocument) :
    Except String Unit :=
  if lib.judgmentSize document > maxArtifactBytes then throw "retained judgment is invalid"
  else validateJudgment lib m "retained judgment does not cover the exact rubric" document

/-- The judgments by their digests: a later one of the same digest replaces an
earlier one. -/
def lookupJudgment (lib : JudgeLibrary) (judgments : List JudgmentDocument) (digest : String) :
    Option JudgmentDocument :=
  judgments.reverse.find? fun judgment => lib.judgmentDigest judgment = digest

/-- The referenced judgments, which all have the target. -/
def referencedJudgments (lib : JudgeLibrary) (judgments : List JudgmentDocument)
    (document : AdjudicationDocument) : Except String (List JudgmentDocument) := do
  let referenced ← document.judgmentSha256s.mapM fun digest =>
    match lookupJudgment lib judgments digest with
    | none => throw "adjudication references an unavailable judgment"
    | some judgment => return judgment
  if referenced.all (·.target = document.target) then return referenced
  else throw "adjudication judgments target different reports"

/-- The checks of an adjudication against the judgments it references, the same
for an import and an acceptance. -/
def checkReferenced (lib : JudgeLibrary) (m : Matrix) (scenario : Scenario)
    (judgments : List JudgmentDocument) (document : AdjudicationDocument)
    (outcomes : List (String × Outcome)) : Except String Unit := do
  let referenced ← referencedJudgments lib judgments document
  let maps ← referenced.mapM fun judgment => verdictMap [] judgment.verdicts
  if requiresCalibratedPolicy m.campaign scenario then
    validateAdjudicationPolicy m.campaign document referenced
  if document.method = .agreement then checkAgreement maps outcomes

/-- `_validate_adjudication_document`, on the retained judgments. -/
def validateAdjudicationDocument (lib : JudgeLibrary) (m : Matrix)
    (judgments : List JudgmentDocument) (document : AdjudicationDocument) : Except String Unit := do
  let (observation, scenario) ← targetObservation lib m document.target
  match lib.rejectsAdjudication document observation with
  | some message => throw message
  | none =>
    let outcomes ← outcomeMap [] document.outcomes
    if !sameSet (outcomes.map Prod.fst) scenario.criterionIds then
      throw "adjudication does not cover the exact rubric"
    else
      judgments.forM (validateRetained lib m)
      checkReferenced lib m scenario judgments document outcomes

/-- The part of `inspect_matrix` that looks at the artifacts: their names. -/
def inspectArtifacts (s : Artifacts) : Except String Unit :=
  if s.judgments.all (fun judgment => isToken judgment.judgmentId) &&
      s.adjudications.all (fun adjudication => isToken adjudication.adjudicationId) then return ()
  else throw "qualitative artifact directory contains unexpected nodes"

/-- `_target_index`. -/
def checkTargetIndex (m : Matrix) (s : Artifacts) : Except String Unit := do
  inspectArtifacts s
  if (m.observations.map (·.workItemId)).Nodup ∧ (m.scenarios.map (·.scenarioId)).Nodup then
    return ()
  else throw "qualitative target index is invalid"

/-- `import_judgment`: the source is a document, or it cannot be read as one. -/
def importJudgment (lib : JudgeLibrary) (m : Matrix) (s : Artifacts)
    (source : Option JudgmentDocument) : Except String Artifacts :=
  if m.finalized then throw "finalized screen cannot accept qualitative artifacts"
  else
    match source with
    | none => throw "qualitative artifact input is invalid"
    | some document => do
      checkTargetIndex m s
      validateJudgmentDocument lib m document
      if lib.hasSteamId document.judgmentId then throw "qualitative artifact ID is invalid"
      else if (s.judgments.map (·.judgmentId)).contains document.judgmentId then
        throw "qualitative artifact already exists or is unavailable"
      else return { s with judgments := s.judgments ++ [document] }

/-- `import_adjudication`. -/
def importAdjudication (lib : JudgeLibrary) (m : Matrix) (s : Artifacts)
    (source : Option AdjudicationDocument) : Except String Artifacts :=
  if m.finalized then throw "finalized screen cannot accept qualitative artifacts"
  else
    match source with
    | none => throw "qualitative artifact input is invalid"
    | some document => do
      checkTargetIndex m s
      validateAdjudicationDocument lib m (sortedBy (artifactName ·.judgmentId) s.judgments) document
      if lib.hasSteamId document.adjudicationId then throw "qualitative artifact ID is invalid"
      else if (s.adjudications.map (·.adjudicationId)).contains document.adjudicationId then
        throw "qualitative artifact already exists or is unavailable"
      else return { s with adjudications := s.adjudications ++ [document] }

end SteamAgent.Evals
