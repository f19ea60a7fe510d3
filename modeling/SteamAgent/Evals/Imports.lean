import Mathlib.Data.List.Induction
import SteamAgent.Evals.Rules

/-!
# Import histories

When the imports leave artifacts on which a decision returns.

There are two groups.

* One import, which keeps the artifacts settled when it meets what a decision asks.
* Histories, and a screen that an import leaves undecidable.
-/

namespace SteamAgent.Evals

open Result (bind_eq_ok)

variable {lib : JudgeLibrary} {m : Matrix} {s : Artifacts}

/-! ## One import -/

/-- What an import of a judgment must meet for the decision to return after it. -/
structure JudgmentMeets (lib : JudgeLibrary) (m : Matrix) (s : Artifacts)
    (document : JudgmentDocument) : Prop where
  name : isToken document.judgmentId = true
  size : lib.judgmentSize document ≤ maxArtifactBytes
  prompt : document.prompt = m.campaign.prompt
  parser : document.parser = m.campaign.parser
  digest : lib.judgmentDigest document ∉ s.judgments.map lib.judgmentDigest
  /-- The work item is not adjudicated yet. -/
  unadjudicated : document.target.workItemId ∉ s.adjudications.map (·.target.workItemId)

/-- What an import of an adjudication must meet for the decision to return after it. -/
structure AdjudicationMeets (lib : JudgeLibrary) (s : Artifacts)
    (document : AdjudicationDocument) : Prop where
  name : isToken document.adjudicationId = true
  size : lib.adjudicationSize document ≤ maxArtifactBytes
  digest : lib.adjudicationDigest document ∉ s.adjudications.map lib.adjudicationDigest
  /-- The work item is not adjudicated yet. -/
  unadjudicated : document.target.workItemId ∉ s.adjudications.map (·.target.workItemId)
  /-- It references every judgment of its work item. -/
  complete : ∀ judgment ∈ s.judgments,
    judgment.target.workItemId = document.target.workItemId →
      lib.judgmentDigest judgment ∈ document.judgmentSha256s

theorem inspectArtifacts_eq_ok :
    inspectArtifacts s = .ok () ↔
      (∀ document ∈ s.judgments, isToken document.judgmentId = true) ∧
        ∀ document ∈ s.adjudications, isToken document.adjudicationId = true := by
  rw [inspectArtifacts]
  split
  next h => exact iff_of_true rfl (by simpa using h)
  next h => exact iff_of_false (by simp [throw, throwThe, MonadExceptOf.throw]) (by simpa using h)

theorem importJudgment_eq_ok {s' : Artifacts} {source : Option JudgmentDocument}
    (h : importJudgment lib m s source = .ok s') :
    ∃ document, source = some document ∧
      validateJudgmentDocument lib m document = .ok () ∧
      s' = { s with judgments := s.judgments ++ [document] } := by
  rw [importJudgment.eq_def, unless_eq_ok] at h
  cases source with
  | none => simp [throw, throwThe, MonadExceptOf.throw] at h
  | some document =>
    simp only [bind_eq_ok, unless_eq_ok] at h
    obtain ⟨-, _, -, _, hvalid, -, -, heq⟩ := h
    exact ⟨document, rfl, hvalid, (Except.ok.inj heq).symm⟩

theorem importAdjudication_eq_ok {s' : Artifacts} {source : Option AdjudicationDocument}
    (h : importAdjudication lib m s source = .ok s') :
    ∃ document, source = some document ∧
      validateAdjudicationDocument lib m (sortedBy (artifactName ·.judgmentId) s.judgments)
        document = .ok () ∧
      s' = { s with adjudications := s.adjudications ++ [document] } := by
  rw [importAdjudication.eq_def, unless_eq_ok] at h
  cases source with
  | none => simp [throw, throwThe, MonadExceptOf.throw] at h
  | some document =>
    simp only [bind_eq_ok, unless_eq_ok] at h
    obtain ⟨-, _, -, _, hvalid, -, -, heq⟩ := h
    exact ⟨document, rfl, hvalid, (Except.ok.inj heq).symm⟩

/-- A judgment that an import accepts leaves the artifacts settled exactly when it
meets what the decision asks. -/
theorem settled_judgment_iff {document : JudgmentDocument} (hs : Settled lib m s)
    (hvalid : validateJudgmentDocument lib m document = .ok ()) :
    Settled lib m { s with judgments := s.judgments ++ [document] } ↔
      JudgmentMeets lib m s document := by
  constructor
  · intro h
    have hnames := (inspectArtifacts_eq_ok.mp h.names).1 document (by simp)
    obtain ⟨hsize, hprompt, hparser, -⟩ := acceptJudgment_eq_ok.mp (h.judgments document (by simp))
    have hdigests := h.judgmentDigests
    rw [List.map_append, List.map_singleton, nodup_append_singleton] at hdigests
    refine ⟨hnames, hsize, hprompt, hparser, hdigests.1, ?_⟩
    intro hmem
    obtain ⟨adjudication, hadjudication, hsame⟩ := List.mem_map.mp hmem
    -- the new judgment is not one that the adjudication of its work item references
    obtain ⟨judgment, hjudgment, hdigest, -⟩ := target_of_reference
      (hs.adjudications adjudication hadjudication)
      (h.complete adjudication hadjudication document (by simp) hsame.symm)
    exact hdigests.1 (List.mem_map.mpr ⟨judgment, hjudgment, hdigest⟩)
  · intro h
    obtain ⟨observation, scenario, htarget, hchecks⟩ := validateJudgment_eq_ok.mp hvalid
    have haccept : acceptJudgment lib m document = .ok () :=
      acceptJudgment_eq_ok.mpr ⟨h.size, h.prompt, h.parser, observation, scenario,
        acceptedTarget_of_targetObservation htarget, hchecks⟩
    have hdigests : ((s.judgments ++ [document]).map lib.judgmentDigest).Nodup := by
      rw [List.map_append, List.map_singleton]
      exact nodup_append_singleton.mpr ⟨h.digest, hs.judgmentDigests⟩
    obtain ⟨hjudgmentNames, hadjudicationNames⟩ := inspectArtifacts_eq_ok.mp hs.names
    constructor
    case names =>
      refine inspectArtifacts_eq_ok.mpr ⟨?_, hadjudicationNames⟩
      simpa [or_imp, forall_and] using ⟨hjudgmentNames, h.name⟩
    case judgments => simpa [or_imp, forall_and] using ⟨hs.judgments, haccept⟩
    case judgmentDigests => exact hdigests
    case adjudicationDigests => exact hs.adjudicationDigests
    case workItems => exact hs.workItems
    case adjudications =>
      intro adjudication hadjudication
      have haccepted := hs.adjudications adjudication hadjudication
      refine acceptAdjudication_congr hs.judgmentDigests hdigests ?_ haccepted
      intro judgment hreference
      obtain ⟨found, hfound, hdigest, -⟩ := target_of_reference haccepted hreference
      constructor
      · exact List.mem_append_left _
      · intro hmem
        rwa [List.inj_on_of_nodup_map hdigests hmem (List.mem_append_left _ hfound) hdigest.symm]
    case complete =>
      intro adjudication hadjudication judgment hjudgment hsame
      rcases List.mem_append.mp hjudgment with hold | hnew
      · exact hs.complete adjudication hadjudication judgment hold hsame
      · rw [List.mem_singleton.mp hnew] at hsame
        exact absurd (List.mem_map.mpr ⟨adjudication, hadjudication, hsame.symm⟩) h.unadjudicated

/-- An adjudication that an import accepts leaves the artifacts settled exactly when it
meets what the decision asks. -/
theorem settled_adjudication_iff {document : AdjudicationDocument} (hs : Settled lib m s)
    (hvalid : validateAdjudicationDocument lib m
      (sortedBy (artifactName ·.judgmentId) s.judgments) document = .ok ()) :
    Settled lib m { s with adjudications := s.adjudications ++ [document] } ↔
      AdjudicationMeets lib s document := by
  constructor
  · intro h
    have hnames := (inspectArtifacts_eq_ok.mp h.names).2 document (by simp)
    obtain ⟨hsize, -⟩ := acceptAdjudication_eq_ok.mp (h.adjudications document (by simp))
    have hdigests := h.adjudicationDigests
    have hworkItems := h.workItems
    rw [List.map_append, List.map_singleton, nodup_append_singleton] at hdigests hworkItems
    exact ⟨hnames, hsize, hdigests.1, hworkItems.1, h.complete document (by simp)⟩
  · intro h
    obtain ⟨observation, scenario, htarget, hchecks⟩ :=
      checks_of_validateAdjudicationDocument hvalid
    have hsorted : ((sortedBy (artifactName ·.judgmentId) s.judgments).map lib.judgmentDigest).Nodup :=
      nodup_map_sortedBy.mpr hs.judgmentDigests
    have haccept : acceptAdjudication lib m s.judgments [] document = .ok document.pairs :=
      acceptAdjudication_eq_ok.mpr ⟨h.size, List.not_mem_nil, rfl, observation, scenario,
        acceptedTarget_of_targetObservation htarget,
        hchecks.congr hsorted hs.judgmentDigests fun _ _ => mem_sortedBy⟩
    obtain ⟨hjudgmentNames, hadjudicationNames⟩ := inspectArtifacts_eq_ok.mp hs.names
    constructor
    case names =>
      refine inspectArtifacts_eq_ok.mpr ⟨hjudgmentNames, ?_⟩
      simpa [or_imp, forall_and] using ⟨hadjudicationNames, h.name⟩
    case judgments => exact hs.judgments
    case judgmentDigests => exact hs.judgmentDigests
    case adjudications => simpa [or_imp, forall_and] using ⟨hs.adjudications, haccept⟩
    case adjudicationDigests =>
      rw [List.map_append, List.map_singleton]
      exact nodup_append_singleton.mpr ⟨h.digest, hs.adjudicationDigests⟩
    case workItems =>
      rw [List.map_append, List.map_singleton]
      exact nodup_append_singleton.mpr ⟨h.unadjudicated, hs.workItems⟩
    case complete => simpa [or_imp, forall_and] using ⟨hs.complete, h.complete⟩

/-! ## Histories -/

/-- A call of one of the imports, whose source is a document or cannot be read. -/
inductive Import where
  | judgment (source : Option JudgmentDocument)
  | adjudication (source : Option AdjudicationDocument)
deriving DecidableEq, Repr

/-- What the call returns, with the artifacts after it. -/
def Import.call (lib : JudgeLibrary) (m : Matrix) (s : Artifacts) : Import → Except String Artifacts
  | .judgment source => importJudgment lib m s source
  | .adjudication source => importAdjudication lib m s source

/-- The artifacts after a call: one that is rejected publishes nothing. -/
def afterImport (lib : JudgeLibrary) (m : Matrix) (s : Artifacts) (call : Import) : Artifacts :=
  (call.call lib m s).toOption.getD s

/-- The artifacts after a history of calls. -/
def afterImports (lib : JudgeLibrary) (m : Matrix) (s : Artifacts) (calls : List Import) :
    Artifacts :=
  calls.foldl (afterImport lib m) s

/-- The document of the call meets what the decision asks. -/
def Import.Meets (lib : JudgeLibrary) (m : Matrix) (s : Artifacts) : Import → Prop
  | .judgment source => ∀ document, source = some document → JudgmentMeets lib m s document
  | .adjudication source => ∀ document, source = some document → AdjudicationMeets lib s document

/-- Every call of the history that is accepted meets what the decision asks. -/
def AllMeet (lib : JudgeLibrary) (m : Matrix) (s : Artifacts) (calls : List Import) : Prop :=
  ∀ before call rest, calls = before ++ call :: rest → ∀ s',
    call.call lib m (afterImports lib m s before) = .ok s' →
      call.Meets lib m (afterImports lib m s before)

/-- One call keeps the artifacts settled exactly when it is rejected or meets what the
decision asks. -/
theorem settled_afterImport_iff (hs : Settled lib m s) (call : Import) :
    Settled lib m (afterImport lib m s call) ↔
      ∀ s', call.call lib m s = .ok s' → call.Meets lib m s := by
  rw [afterImport]
  cases hcall : call.call lib m s with
  | error message =>
    simp only [reduceCtorEq, false_implies, implies_true, iff_true]
    exact hs
  | ok s' =>
    have hmeets : Settled lib m s' ↔ call.Meets lib m s := by
      cases call with
      | judgment source =>
        obtain ⟨document, rfl, hvalid, rfl⟩ := importJudgment_eq_ok hcall
        rw [settled_judgment_iff hs hvalid]
        exact ⟨fun h other heq => Option.some.inj heq ▸ h, fun h => h document rfl⟩
      | adjudication source =>
        obtain ⟨document, rfl, hvalid, rfl⟩ := importAdjudication_eq_ok hcall
        rw [settled_adjudication_iff hs hvalid]
        exact ⟨fun h other heq => Option.some.inj heq ▸ h, fun h => h document rfl⟩
    exact hmeets.trans ⟨fun h _ _ => h, fun h => h s' rfl⟩

theorem settled_afterImports (hs : Settled lib m s) {calls : List Import}
    (h : AllMeet lib m s calls) : Settled lib m (afterImports lib m s calls) := by
  induction calls using List.reverseRecOn with
  | nil => exact hs
  | append_singleton calls call ih =>
    have hbefore : Settled lib m (afterImports lib m s calls) := by
      apply ih
      intro before call' rest heq
      exact h before call' (rest ++ [call]) (by rw [heq, List.append_assoc, List.cons_append])
    rw [afterImports, List.foldl_append]
    exact (settled_afterImport_iff hbefore call).mpr (h calls call [] rfl)

/-- In a history of imports, the decision returns after every prefix, with the
outcomes of the one adjudication of each work item, exactly when every import that
is accepted meets what the decision asks. -/
theorem imports_decide_iff (start : Artifacts) (hstart : Decides lib m start)
    (calls : List Import) :
    (∀ before rest, calls = before ++ rest → Decides lib m (afterImports lib m start before)) ↔
      AllMeet lib m start calls := by
  rw [decides_iff_settled] at hstart
  constructor
  · intro h before call rest heq
    have hbefore := decides_iff_settled.mp (h before (call :: rest) heq)
    have hafter := decides_iff_settled.mp (h (before ++ [call]) rest (by simp [heq]))
    rw [afterImports, List.foldl_append] at hafter
    exact (settled_afterImport_iff hbefore call).mp hafter
  · intro h before rest heq
    rw [decides_iff_settled]
    apply settled_afterImports hstart
    intro before' call rest' heq'
    exact h before' call (rest' ++ rest) (by rw [heq, heq', List.append_assoc, List.cons_append])

/-! A screen with one work item, whose scenario has no hard failure criterion. -/

/-- A configuration of `CALIBRATED_JUDGE_CONFIGURATIONS`. -/
def calibratedJudge (identifier : String) : JudgeConfiguration where
  identifier := identifier
  kind := "model"
  model := "gpt-5.6-sol"
  reasoningEffort := "xhigh"
  settingsIdentity := "matrix-judge-settings-0.1"
  settingsSha256 := "6cac1d14d272fb781f743ff687442db6c34278fe1ca91a2f9fe80b1a7e17d2a7"

def screenCampaign : Campaign where
  kind := .screen
  prompt := ⟨"matrix-judge/0.1", "671449c1329475b3753ffe30a017ad60152603efe6def833872eff8c428deec7"⟩
  parser := ⟨"matrix-parser/0.1", "658a8acdf97c7d681c2b78e68c853b73fe010c49631595c7f69f67575931be49"⟩
  judges := ["judge-1", "judge-2", "judge-3"].map calibratedJudge
  adjudicationMethod := .agreement
  adjudicator := "configured-agreement-0.1"

def screenScenario : Scenario where
  scenarioId := "m5-c01"
  sourceSha256 := "41d3a5a3b2a4a4a39d1b8a1b27b22d3c5ff62df0f8d5bc2ddf1a1d25f5e6d104"
  rubricSha256 := "51d3a5a3b2a4a4a39d1b8a1b27b22d3c5ff62df0f8d5bc2ddf1a1d25f5e6d105"
  criterionIds := ["fact-1"]
  criterionSources := ["fact_rubric.must_mention"]

def screenMatrix : Matrix where
  matrixId := "matrix-1"
  campaign := screenCampaign
  observations := [⟨"matrix-1", "work-1", "m5-c01", true,
    some "61d3a5a3b2a4a4a39d1b8a1b27b22d3c5ff62df0f8d5bc2ddf1a1d25f5e6d106"⟩]
  scenarios := [screenScenario]
  finalized := false
  matrixIds := fun _ h => List.mem_singleton.mp h ▸ rfl

/-- A judgment of the work item, with a prompt of this version. -/
def screenJudgment (id judge version : String) : JudgmentDocument where
  judgmentId := id
  target := ⟨"matrix-1", "work-1",
    "61d3a5a3b2a4a4a39d1b8a1b27b22d3c5ff62df0f8d5bc2ddf1a1d25f5e6d106",
    "41d3a5a3b2a4a4a39d1b8a1b27b22d3c5ff62df0f8d5bc2ddf1a1d25f5e6d104",
    "51d3a5a3b2a4a4a39d1b8a1b27b22d3c5ff62df0f8d5bc2ddf1a1d25f5e6d105",
    "71d3a5a3b2a4a4a39d1b8a1b27b22d3c5ff62df0f8d5bc2ddf1a1d25f5e6d107"⟩
  judge := calibratedJudge judge
  prompt := { screenCampaign.prompt with version := version }
  parser := screenCampaign.parser
  presentation := ⟨"candidate-A", 0⟩
  verdicts := [⟨"fact-1", .pass, "mentions the fact"⟩]
  createdAt := "2026-01-01T00:00:00Z"

/-- The agreement of the judgments with these digests. -/
def screenAdjudication (judgmentSha256s : List String) : AdjudicationDocument where
  adjudicationId := "adjudication-1"
  target := (screenJudgment "judgment-1" "judge-1" "matrix-judge/0.1").target
  method := .agreement
  adjudicator := "configured-agreement-0.1"
  judgmentSha256s := judgmentSha256s
  outcomes := [⟨"fact-1", .pass⟩]
  createdAt := "2026-01-01T00:00:00Z"

/-- The digests and sizes of the judgments and of the adjudication of the screen. -/
def screenLibrary : JudgeLibrary where
  projectionDigest _ _ := .ok "71d3a5a3b2a4a4a39d1b8a1b27b22d3c5ff62df0f8d5bc2ddf1a1d25f5e6d107"
  rejectsJudgment _ _ := none
  rejectsAdjudication _ _ := none
  hasSteamId _ := false
  judgmentDigest document :=
    if document.prompt.version = "matrix-judge/0.2" then
      "fcb5d5230e546fe6d1981fe91e65ee9ec64482dafaf846a502f602a014e0d892"
    else if document.judgmentId = "judgment-1" then
      "b429951fb658ecaf6cb449328e30b2326197a0357e1de733f8b114301b8512e2"
    else "46168d4f4e93e01936b617e2cf8a4be3afd8a9daa8bd099323c49d887be24350"
  adjudicationDigest _ := "5b9bd13d712526b7ae8ac1ed8286521b17b28f185ca66b2ff24579c31bf74ce4"
  judgmentSize _ := 1110
  adjudicationSize _ := 787

/-- A file that is no JSON, two judgments, and their agreement. -/
def screenImports : List Import :=
  [.judgment none,
    .judgment (some (screenJudgment "judgment-1" "judge-1" "matrix-judge/0.1")),
    .judgment (some (screenJudgment "judgment-2" "judge-2" "matrix-judge/0.1")),
    .adjudication (some (screenAdjudication
      ["b429951fb658ecaf6cb449328e30b2326197a0357e1de733f8b114301b8512e2",
        "46168d4f4e93e01936b617e2cf8a4be3afd8a9daa8bd099323c49d887be24350"]))]

theorem settled_empty : Settled lib m ⟨[], []⟩ := by
  constructor <;> simp [inspectArtifacts, pure, Except.pure]

theorem allMeet_nil : AllMeet lib m s [] := by
  intro before call rest heq
  simp at heq

theorem allMeet_cons {call : Import} {calls : List Import}
    (hcall : ∀ s', call.call lib m s = .ok s' → call.Meets lib m s)
    (h : AllMeet lib m (afterImport lib m s call) calls) : AllMeet lib m s (call :: calls) := by
  intro before other rest heq
  cases before with
  | nil =>
    obtain ⟨rfl, -⟩ := List.cons.inj heq
    exact hcall
  | cons first before =>
    obtain ⟨rfl, htail⟩ := List.cons.inj heq
    exact h before other rest htail

theorem allMeet_screen : AllMeet screenLibrary screenMatrix ⟨[], []⟩ screenImports := by
  refine allMeet_cons ?_ (allMeet_cons ?_ (allMeet_cons ?_ (allMeet_cons ?_ allMeet_nil)))
  · rintro s' - _ ⟨⟩
  · rintro s' - _ ⟨⟩
    constructor <;> decide +kernel
  · rintro s' - _ ⟨⟩
    constructor <;> decide +kernel
  · rintro s' - _ ⟨⟩
    constructor <;> decide +kernel

/-- The decision returns after all of the imports, and the work item is adjudicated. -/
theorem imports_decide_iff_screen :
    Decides screenLibrary screenMatrix
      (afterImports screenLibrary screenMatrix ⟨[], []⟩ screenImports) ∧
    (afterImports screenLibrary screenMatrix ⟨[], []⟩ screenImports).adjudications.map reported =
      [("work-1", [("fact-1", .pass)])] :=
  ⟨(imports_decide_iff ⟨[], []⟩ (decides_iff_settled.mpr settled_empty) screenImports).mpr
    allMeet_screen screenImports [] (List.append_nil _).symm, by decide +kernel⟩

/-- The import takes a judgment with a prompt that the campaign does not have. -/
theorem imports_decide_not :
    ¬∀ (lib : JudgeLibrary) (m : Matrix) (start : Artifacts), Decides lib m start →
      ∀ calls : List Import, Decides lib m (afterImports lib m start calls) := by
  intro h
  obtain ⟨evidence, hdecides, -⟩ := h screenLibrary screenMatrix ⟨[], []⟩
    (decides_iff_settled.mpr settled_empty)
    [.judgment (some (screenJudgment "judgment-1" "judge-1" "matrix-judge/0.2"))]
  have herror : (decideOutcomes screenLibrary screenMatrix
      (afterImports screenLibrary screenMatrix ⟨[], []⟩
        [.judgment (some (screenJudgment "judgment-1" "judge-1" "matrix-judge/0.2"))])).toOption =
      none := by
    decide +kernel
  rw [hdecides] at herror
  cases herror

end SteamAgent.Evals
