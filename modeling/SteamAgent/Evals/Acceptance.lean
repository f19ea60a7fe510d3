import SteamAgent.Evals.Judge

/-!
# Qualitative outcomes

`_qualitative_outcomes` of `acceptance.py`, which reads the artifacts of a matrix
for a decision, by rules of its own.

There are three groups.

* The check of a target.
* The loops over the judgments and the adjudications.
* `qualitativeOutcomes`.
-/

namespace SteamAgent.Evals

/-! ## The target -/

/-- `_target_observation` of an acceptance. -/
def acceptedTarget (lib : JudgeLibrary) (m : Matrix) (target : Target) :
    Except String (Observation × Scenario) :=
  match m.observation target.workItemId with
  | none => throw "qualitative target is unavailable"
  | some observation =>
    if target.matrixId ≠ observation.matrixId then throw "qualitative target is unavailable"
    else if !observation.privacyPassed then throw "qualitative target is not privacy-cleared"
    else
      match m.scenario observation.scenarioId with
      | none => throw "KeyError"
      | some scenario =>
        match lib.projectionDigest observation scenario with
        | .error message => throw message
        | .ok projection =>
          match observation.reportSha256 with
          | none => throw "KeyError"
          | some report =>
            if target ≠ expectedTarget observation.matrixId observation scenario report projection then
              throw "qualitative target digest does not match"
            else return (observation, scenario)

/-! ## The loops -/

/-- The checks of one judgment. -/
def acceptJudgment (lib : JudgeLibrary) (m : Matrix) (document : JudgmentDocument) :
    Except String Unit :=
  if lib.judgmentSize document > maxArtifactBytes then throw "qualitative artifact input is invalid"
  else do
    let (observation, scenario) ← acceptedTarget lib m document.target
    match lib.rejectsJudgment document observation with
    | some message => throw message
    | none =>
      let verdicts ← verdictMap [] document.verdicts
      if requiresCalibratedPolicy m.campaign scenario then
        validateJudgmentPolicy m.campaign document
      if !sameSet (verdicts.map Prod.fst) scenario.criterionIds ||
          document.prompt ≠ m.campaign.prompt || document.parser ≠ m.campaign.parser then
        throw "judgment does not match campaign policy"

/-- The loop over the judgments, after those loaded. -/
def loadJudgments (lib : JudgeLibrary) (m : Matrix) (loaded : List JudgmentDocument) :
    List JudgmentDocument → Except String (List JudgmentDocument)
  | [] => return loaded
  | document :: documents => do
    acceptJudgment lib m document
    if (loaded.map lib.judgmentDigest).contains (lib.judgmentDigest document) then
      throw "judgment content is duplicated"
    else loadJudgments lib m (loaded ++ [document]) documents

/-- The checks of one adjudication, after those of these work items. -/
def acceptAdjudication (lib : JudgeLibrary) (m : Matrix) (judgments : List JudgmentDocument)
    (workItemIds : List String) (document : AdjudicationDocument) :
    Except String (List (String × Outcome)) :=
  if lib.adjudicationSize document > maxArtifactBytes then
    throw "qualitative artifact input is invalid"
  else do
    let (observation, scenario) ← acceptedTarget lib m document.target
    match lib.rejectsAdjudication document observation with
    | some message => throw message
    | none =>
      let outcomes ← outcomeMap [] document.outcomes
      if workItemIds.contains observation.workItemId ||
          !sameSet (outcomes.map Prod.fst) scenario.criterionIds ||
          !document.judgmentSha256s.all fun digest =>
            (judgments.map lib.judgmentDigest).contains digest then
        throw "adjudication is ambiguous or incomplete"
      else
        checkReferenced lib m scenario judgments document outcomes
        return outcomes

/-- The adjudications loaded so far: their documents with the outcomes. -/
abbrev LoadedAdjudications :=
  List (AdjudicationDocument × List (String × Outcome))

/-- The loop over the adjudications, after those loaded. -/
def loadAdjudications (lib : JudgeLibrary) (m : Matrix) (judgments : List JudgmentDocument)
    (loaded : LoadedAdjudications) :
    List AdjudicationDocument → Except String LoadedAdjudications
  | [] => return loaded
  | document :: documents => do
    let outcomes ← acceptAdjudication lib m judgments
      (loaded.map fun entry => entry.1.target.workItemId) document
    loadAdjudications lib m judgments (loaded ++ [(document, outcomes)]) documents

/-! ## The evidence -/

/-- `QualitativeEvidence`. -/
structure QualitativeEvidence where
  outcomes : List (String × List (String × Outcome))
  judgmentSha256s : List String
  adjudicationSha256s : List String
deriving DecidableEq, Repr

/-- `_qualitative_outcomes`, on the artifacts of an inspected matrix. -/
def qualitativeOutcomes (lib : JudgeLibrary) (m : Matrix) (s : Artifacts)
    (requireAllJudgmentsAdjudicated : Bool) : Except String QualitativeEvidence := do
  let judgments ← loadJudgments lib m [] (sortedBy (artifactName ·.judgmentId) s.judgments)
  let adjudications ← loadAdjudications lib m judgments []
    (sortedBy (artifactName ·.adjudicationId) s.adjudications)
  let referenced := adjudications.flatMap fun entry => entry.1.judgmentSha256s
  let unreferenced := judgments.filter fun judgment =>
    !referenced.contains (lib.judgmentDigest judgment)
  let workItemIds := adjudications.map fun entry => entry.1.target.workItemId
  if requireAllJudgmentsAdjudicated && unreferenced ≠ [] then
    throw "retained judgment selection is ambiguous"
  else if !requireAllJudgmentsAdjudicated &&
      unreferenced.any fun judgment => workItemIds.contains judgment.target.workItemId then
    throw "retained judgment selection is ambiguous"
  else if ¬(adjudications.map fun entry => lib.adjudicationDigest entry.1).Nodup then
    throw "adjudication evidence is not canonical"
  else
    return {
      outcomes := sortedBy Prod.fst (adjudications.map fun entry =>
        (entry.1.target.workItemId, sortedBy Prod.fst entry.2))
      judgmentSha256s := sortedBy id (judgments.map lib.judgmentDigest)
      adjudicationSha256s := sortedBy id
        (adjudications.map fun entry => lib.adjudicationDigest entry.1) }

/-- The inspection of the artifacts, and the outcomes. -/
def decideOutcomes (lib : JudgeLibrary) (m : Matrix) (s : Artifacts) :
    Except String QualitativeEvidence := do
  inspectArtifacts s
  qualitativeOutcomes lib m s false

end SteamAgent.Evals
