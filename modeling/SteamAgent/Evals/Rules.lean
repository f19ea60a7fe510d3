import SteamAgent.Evals.Acceptance
import SteamAgent.Stdlib.Result

/-!
# The rules of a decision

On which artifacts `_qualitative_outcomes` returns, and what an import checks of
them.

There are six groups.

* Exceptions and lists.
* The two rules for a target.
* What an accepted judgment is.
* The judgments that an adjudication references.
* What an accepted adjudication is.
* The artifacts on which the decision returns: `Settled`.
-/

namespace SteamAgent.Evals

open Result (bind_eq_ok)

variable {lib : JudgeLibrary} {m : Matrix} {s : Artifacts}

/-! ## Exceptions and lists -/

theorem unless_eq_ok {α : Type} {message : String} {p : Prop} [Decidable p]
    {x : Except String α} {a : α} :
    (if p then throw message else x) = .ok a ↔ ¬p ∧ x = .ok a := by
  by_cases h : p
  · simp [h, throw, throwThe, MonadExceptOf.throw]
  · simp [h]

theorem when_eq_ok {α : Type} {p : Prop} [Decidable p] {x : Except String PUnit}
    {y : Except String α} {a : α} :
    (if p then x >>= fun _ => y else y) = .ok a ↔ (p → x = .ok PUnit.unit) ∧ y = .ok a := by
  by_cases h : p
  · rw [if_pos h, bind_eq_ok]
    exact ⟨fun ⟨⟨⟩, hx, hy⟩ => ⟨fun _ => hx, hy⟩, fun ⟨hx, hy⟩ => ⟨⟨⟩, hx h, hy⟩⟩
  · simp [h]

theorem nodup_append_singleton {α : Type} {xs : List α} {x : α} :
    (xs ++ [x]).Nodup ↔ x ∉ xs ∧ xs.Nodup := by
  rw [List.nodup_append_comm, List.singleton_append, List.nodup_cons]

/-! ## Targets -/

theorem workItemId_of_observation {workItemId : String} {observation : Observation}
    (h : m.observation workItemId = some observation) :
    observation ∈ m.observations ∧ observation.workItemId = workItemId := by
  have hmem := List.mem_of_find?_eq_some h
  have heq := List.find?_some h
  exact ⟨List.mem_reverse.mp hmem, by simpa using heq⟩

/-- A target that an import accepts, an acceptance finds with the same observation
and scenario. -/
theorem acceptedTarget_of_targetObservation {target : Target} {observation : Observation}
    {scenario : Scenario} (h : targetObservation lib m target = .ok (observation, scenario)) :
    acceptedTarget lib m target = .ok (observation, scenario) := by
  rw [targetObservation, unless_eq_ok] at h
  obtain ⟨hmatrix, h⟩ := h
  cases hfound : m.observation target.workItemId with
  | none => simp [hfound, throw, throwThe, MonadExceptOf.throw] at h
  | some found =>
    have hid : found.matrixId = m.matrixId := m.matrixIds found (workItemId_of_observation hfound).1
    rw [hfound] at h
    dsimp only at h
    rw [unless_eq_ok] at h
    obtain ⟨hprivacy, h⟩ := h
    rw [acceptedTarget, hfound]
    dsimp only
    rw [unless_eq_ok, unless_eq_ok, hid]
    refine ⟨hmatrix, hprivacy, ?_⟩
    cases hscenario : m.scenario found.scenarioId with
    | none => simp [hscenario, throw, throwThe, MonadExceptOf.throw] at h
    | some sc =>
      cases hreport : found.reportSha256 with
      | none => simp [hscenario, hreport, throw, throwThe, MonadExceptOf.throw] at h
      | some report =>
        cases hprojection : lib.projectionDigest found sc with
        | error message =>
          simp [hscenario, hreport, hprojection, throw, throwThe, MonadExceptOf.throw] at h
        | ok projection => simpa [hscenario, hreport, hprojection] using h

theorem workItemId_of_acceptedTarget {target : Target} {observation : Observation}
    {scenario : Scenario} (h : acceptedTarget lib m target = .ok (observation, scenario)) :
    observation.workItemId = target.workItemId := by
  rw [acceptedTarget] at h
  cases hfound : m.observation target.workItemId with
  | none => simp [hfound, throw, throwThe, MonadExceptOf.throw] at h
  | some found =>
    rw [hfound] at h
    dsimp only at h
    rw [unless_eq_ok, unless_eq_ok] at h
    obtain ⟨-, -, h⟩ := h
    -- the checks that are left return this observation or throw
    have hsame : found = observation := by
      cases hscenario : m.scenario found.scenarioId with
      | none => simp [hscenario, throw, throwThe, MonadExceptOf.throw] at h
      | some sc =>
        cases hprojection : lib.projectionDigest found sc with
        | error message => simp [hscenario, hprojection, throw, throwThe, MonadExceptOf.throw] at h
        | ok projection =>
          cases hreport : found.reportSha256 with
          | none =>
            simp [hscenario, hreport, hprojection, throw, throwThe, MonadExceptOf.throw] at h
          | some report =>
            simp only [hscenario, hreport, hprojection, unless_eq_ok] at h
            exact congrArg Prod.fst (Except.ok.inj h.2)
    rw [← hsame]
    exact (workItemId_of_observation hfound).2

/-! ## Accepted judgments -/

/-- The outcomes of an adjudication, as pairs. -/
def AdjudicationDocument.pairs (document : AdjudicationDocument) : List (String × Outcome) :=
  document.outcomes.map fun item => (item.criterionId, item.outcome)

theorem eq_map_of_outcomeMap {seen : List String} {items : List OutcomeItem}
    {outcomes : List (String × Outcome)} (h : outcomeMap seen items = .ok outcomes) :
    outcomes = items.map fun item => (item.criterionId, item.outcome) := by
  induction items generalizing seen outcomes with
  | nil => exact (Except.ok.inj h).symm
  | cons item items ih =>
    rw [outcomeMap, unless_eq_ok, bind_eq_ok] at h
    obtain ⟨-, rest, hrest, heq⟩ := h
    rw [List.map_cons, ← ih hrest]
    exact (Except.ok.inj heq).symm

/-- What both rules ask of a judgment with this observation and scenario. -/
structure JudgmentChecks (lib : JudgeLibrary) (m : Matrix) (document : JudgmentDocument)
    (observation : Observation) (scenario : Scenario) : Prop where
  metadata : lib.rejectsJudgment document observation = none
  criteria : ∃ verdicts, verdictMap [] document.verdicts = .ok verdicts ∧
    sameSet (verdicts.map Prod.fst) scenario.criterionIds = true
  policy : requiresCalibratedPolicy m.campaign scenario = true →
    validateJudgmentPolicy m.campaign document = .ok ()

theorem validateJudgment_eq_ok {coverage : String} {document : JudgmentDocument} :
    validateJudgment lib m coverage document = .ok () ↔
      ∃ observation scenario, targetObservation lib m document.target = .ok (observation, scenario) ∧
        JudgmentChecks lib m document observation scenario := by
  rw [validateJudgment, bind_eq_ok]
  constructor
  · rintro ⟨⟨observation, scenario⟩, htarget, h⟩
    refine ⟨observation, scenario, htarget, ?_⟩
    cases hmetadata : lib.rejectsJudgment document observation with
    | some message => simp [hmetadata, throw, throwThe, MonadExceptOf.throw] at h
    | none =>
      simp only [hmetadata, bind_eq_ok, unless_eq_ok, Bool.not_eq_true', Bool.not_eq_false] at h
      obtain ⟨verdicts, hverdicts, hsame, hpolicy⟩ := h
      refine ⟨hmetadata, ⟨verdicts, hverdicts, hsame⟩, ?_⟩
      intro hrequired
      rwa [if_pos hrequired] at hpolicy
  · rintro ⟨observation, scenario, htarget, hchecks⟩
    obtain ⟨verdicts, hverdicts, hsame⟩ := hchecks.criteria
    refine ⟨(observation, scenario), htarget, ?_⟩
    simp only [hchecks.metadata, bind_eq_ok, unless_eq_ok, Bool.not_eq_true', Bool.not_eq_false]
    refine ⟨verdicts, hverdicts, hsame, ?_⟩
    split
    next hrequired => exact hchecks.policy hrequired
    next => rfl

theorem acceptJudgment_eq_ok {document : JudgmentDocument} :
    acceptJudgment lib m document = .ok () ↔
      lib.judgmentSize document ≤ maxArtifactBytes ∧
      document.prompt = m.campaign.prompt ∧ document.parser = m.campaign.parser ∧
      ∃ observation scenario, acceptedTarget lib m document.target = .ok (observation, scenario) ∧
        JudgmentChecks lib m document observation scenario := by
  rw [acceptJudgment, unless_eq_ok, bind_eq_ok, Nat.not_lt]
  constructor
  · rintro ⟨hsize, ⟨observation, scenario⟩, htarget, h⟩
    cases hmetadata : lib.rejectsJudgment document observation with
    | some message => simp [hmetadata, throw, throwThe, MonadExceptOf.throw] at h
    | none =>
      simp only [hmetadata, bind_eq_ok, when_eq_ok, unless_eq_ok, Bool.or_eq_true,
        Bool.not_eq_true', decide_eq_true_eq, not_or, Bool.not_eq_false, Decidable.not_not] at h
      obtain ⟨verdicts, hverdicts, hpolicy, ⟨⟨hsame, hprompt⟩, hparser⟩, -⟩ := h
      exact ⟨hsize, hprompt, hparser, observation, scenario, htarget, hmetadata,
        ⟨verdicts, hverdicts, hsame⟩, hpolicy⟩
  · rintro ⟨hsize, hprompt, hparser, observation, scenario, htarget, hchecks⟩
    obtain ⟨verdicts, hverdicts, hsame⟩ := hchecks.criteria
    refine ⟨hsize, (observation, scenario), htarget, ?_⟩
    simp only [hchecks.metadata, bind_eq_ok, when_eq_ok, unless_eq_ok, Bool.or_eq_true,
      Bool.not_eq_true', decide_eq_true_eq, not_or, Bool.not_eq_false, Decidable.not_not]
    exact ⟨verdicts, hverdicts, hchecks.policy, ⟨⟨hsame, hprompt⟩, hparser⟩, rfl⟩

/-! ## References -/

theorem mem_of_lookupJudgment {judgments : List JudgmentDocument} {digest : String}
    {judgment : JudgmentDocument} (h : lookupJudgment lib judgments digest = some judgment) :
    judgment ∈ judgments ∧ lib.judgmentDigest judgment = digest := by
  have hmem := List.mem_of_find?_eq_some h
  have heq := List.find?_some h
  exact ⟨List.mem_reverse.mp hmem, by simpa using heq⟩

/-- Without two judgments of one digest, every judgment is found under its own. -/
theorem lookupJudgment_of_mem {judgments : List JudgmentDocument} {judgment : JudgmentDocument}
    (hnodup : (judgments.map lib.judgmentDigest).Nodup) (hmem : judgment ∈ judgments) :
    lookupJudgment lib judgments (lib.judgmentDigest judgment) = some judgment := by
  cases hfound : lookupJudgment lib judgments (lib.judgmentDigest judgment) with
  | none =>
    have hnone := List.find?_eq_none.mp hfound judgment (List.mem_reverse.mpr hmem)
    simp at hnone
  | some found =>
    obtain ⟨hfoundMem, hdigest⟩ := mem_of_lookupJudgment hfound
    rw [List.inj_on_of_nodup_map hnodup hfoundMem hmem hdigest]

theorem lookupJudgment_congr {judgments others : List JudgmentDocument} {digest : String}
    (hnodup : (judgments.map lib.judgmentDigest).Nodup)
    (hothers : (others.map lib.judgmentDigest).Nodup)
    (h : ∀ judgment, lib.judgmentDigest judgment = digest →
      (judgment ∈ judgments ↔ judgment ∈ others)) :
    lookupJudgment lib judgments digest = lookupJudgment lib others digest := by
  ext judgment
  constructor
  · intro hfound
    obtain ⟨hmem, rfl⟩ := mem_of_lookupJudgment hfound
    exact lookupJudgment_of_mem hothers ((h judgment rfl).mp hmem)
  · intro hfound
    obtain ⟨hmem, rfl⟩ := mem_of_lookupJudgment hfound
    exact lookupJudgment_of_mem hnodup ((h judgment rfl).mpr hmem)

theorem mapM_congr {α β : Type} {f g : α → Except String β} {xs : List α}
    (h : ∀ x ∈ xs, f x = g x) : xs.mapM f = xs.mapM g := by
  induction xs with
  | nil => rfl
  | cons x xs ih =>
    rw [List.mapM_cons, List.mapM_cons, h x List.mem_cons_self,
      ih fun y hy => h y (List.mem_cons_of_mem _ hy)]

theorem exists_of_mapM {α β : Type} {f : α → Except String β} {xs : List α} {ys : List β}
    (h : xs.mapM f = .ok ys) {x : α} (hmem : x ∈ xs) : ∃ y ∈ ys, f x = .ok y := by
  induction xs generalizing ys with
  | nil => cases hmem
  | cons x' xs ih =>
    rw [List.mapM_cons, bind_eq_ok] at h
    obtain ⟨y, hy, h⟩ := h
    obtain ⟨ys', hys', heq⟩ := bind_eq_ok.mp h
    rw [← Except.ok.inj heq]
    rcases List.mem_cons.mp hmem with rfl | hmem
    · exact ⟨y, List.mem_cons_self, hy⟩
    · obtain ⟨z, hz, hfz⟩ := ih hys' hmem
      exact ⟨z, List.mem_cons_of_mem _ hz, hfz⟩

/-- The checks look at no other judgment than those referenced. -/
theorem checkReferenced_congr {scenario : Scenario} {judgments others : List JudgmentDocument}
    {document : AdjudicationDocument} {outcomes : List (String × Outcome)}
    (h : ∀ digest ∈ document.judgmentSha256s,
      lookupJudgment lib judgments digest = lookupJudgment lib others digest) :
    checkReferenced lib m scenario judgments document outcomes =
      checkReferenced lib m scenario others document outcomes := by
  have hreferenced : referencedJudgments lib judgments document =
      referencedJudgments lib others document := by
    rw [referencedJudgments, referencedJudgments]
    congr 1
    apply mapM_congr
    intro digest hdigest
    rw [h digest hdigest]
  rw [checkReferenced, checkReferenced, hreferenced]

theorem exists_of_checkReferenced {scenario : Scenario} {judgments : List JudgmentDocument}
    {document : AdjudicationDocument} {outcomes : List (String × Outcome)}
    (h : checkReferenced lib m scenario judgments document outcomes = .ok ()) {digest : String}
    (hdigest : digest ∈ document.judgmentSha256s) :
    ∃ judgment ∈ judgments, lib.judgmentDigest judgment = digest ∧
      judgment.target = document.target := by
  rw [checkReferenced, bind_eq_ok] at h
  obtain ⟨referenced, hreferenced, -⟩ := h
  rw [referencedJudgments, bind_eq_ok] at hreferenced
  obtain ⟨found, hfound, htargets⟩ := hreferenced
  obtain ⟨judgment, hjudgment, hlookup⟩ := exists_of_mapM hfound hdigest
  cases hcase : lookupJudgment lib judgments digest with
  | none => simp [hcase, throw, throwThe, MonadExceptOf.throw] at hlookup
  | some other =>
    rw [hcase] at hlookup
    have hsame : other = judgment := Except.ok.inj hlookup
    obtain ⟨hmem, heq⟩ := mem_of_lookupJudgment hcase
    split at htargets
    next hall =>
      refine ⟨other, hmem, heq, ?_⟩
      rw [hsame]
      simpa using List.all_eq_true.mp hall judgment hjudgment
    next => cases htargets

/-! ## Accepted adjudications -/

/-- What both rules ask of an adjudication with this observation and scenario. -/
structure AdjudicationChecks (lib : JudgeLibrary) (m : Matrix) (judgments : List JudgmentDocument)
    (document : AdjudicationDocument) (observation : Observation) (scenario : Scenario) : Prop where
  metadata : lib.rejectsAdjudication document observation = none
  criteria : outcomeMap [] document.outcomes = .ok document.pairs
  covers : sameSet (document.pairs.map Prod.fst) scenario.criterionIds = true
  referenced : checkReferenced lib m scenario judgments document document.pairs = .ok ()

theorem AdjudicationChecks.references {judgments : List JudgmentDocument}
    {document : AdjudicationDocument} {observation : Observation} {scenario : Scenario}
    (h : AdjudicationChecks lib m judgments document observation scenario) :
    ∀ digest ∈ document.judgmentSha256s, ∃ judgment ∈ judgments,
      lib.judgmentDigest judgment = digest := by
  intro digest hdigest
  obtain ⟨judgment, hmem, heq, -⟩ := exists_of_checkReferenced h.referenced hdigest
  exact ⟨judgment, hmem, heq⟩

theorem checks_of_validateAdjudicationDocument {judgments : List JudgmentDocument}
    {document : AdjudicationDocument}
    (h : validateAdjudicationDocument lib m judgments document = .ok ()) :
    ∃ observation scenario, targetObservation lib m document.target = .ok (observation, scenario) ∧
      AdjudicationChecks lib m judgments document observation scenario := by
  rw [validateAdjudicationDocument, bind_eq_ok] at h
  obtain ⟨⟨observation, scenario⟩, htarget, h⟩ := h
  refine ⟨observation, scenario, htarget, ?_⟩
  cases hmetadata : lib.rejectsAdjudication document observation with
  | some message => simp [hmetadata, throw, throwThe, MonadExceptOf.throw] at h
  | none =>
    simp only [hmetadata, bind_eq_ok, unless_eq_ok, Bool.not_eq_true', Bool.not_eq_false] at h
    obtain ⟨outcomes, houtcomes, hsame, ⟨⟩, -, hreferenced⟩ := h
    have hpairs : outcomes = document.pairs := eq_map_of_outcomeMap houtcomes
    rw [hpairs] at houtcomes hsame hreferenced
    exact ⟨hmetadata, houtcomes, hsame, hreferenced⟩

theorem acceptAdjudication_eq_ok {judgments : List JudgmentDocument} {workItemIds : List String}
    {document : AdjudicationDocument} {outcomes : List (String × Outcome)} :
    acceptAdjudication lib m judgments workItemIds document = .ok outcomes ↔
      lib.adjudicationSize document ≤ maxArtifactBytes ∧
      document.target.workItemId ∉ workItemIds ∧ outcomes = document.pairs ∧
      ∃ observation scenario, acceptedTarget lib m document.target = .ok (observation, scenario) ∧
        AdjudicationChecks lib m judgments document observation scenario := by
  rw [acceptAdjudication, unless_eq_ok, bind_eq_ok, Nat.not_lt]
  constructor
  · rintro ⟨hsize, ⟨observation, scenario⟩, htarget, h⟩
    cases hmetadata : lib.rejectsAdjudication document observation with
    | some message => simp [hmetadata, throw, throwThe, MonadExceptOf.throw] at h
    | none =>
      simp only [hmetadata, bind_eq_ok, unless_eq_ok, Bool.or_eq_true, Bool.not_eq_true',
        not_or, Bool.not_eq_false, List.all_eq_true, List.contains_iff_mem,
        workItemId_of_acceptedTarget htarget] at h
      obtain ⟨found, houtcomes, ⟨⟨hnew, hsame⟩, -⟩, ⟨⟩, hreferenced, heq⟩ := h
      have hpairs : found = document.pairs := eq_map_of_outcomeMap houtcomes
      rw [hpairs] at houtcomes hsame hreferenced heq
      exact ⟨hsize, by simpa using hnew, (Except.ok.inj heq).symm, observation, scenario, htarget,
        hmetadata, houtcomes, hsame, hreferenced⟩
  · rintro ⟨hsize, hnew, heq, observation, scenario, htarget, hchecks⟩
    refine ⟨hsize, (observation, scenario), htarget, ?_⟩
    simp only [hchecks.metadata, bind_eq_ok, unless_eq_ok, Bool.or_eq_true, Bool.not_eq_true',
      not_or, Bool.not_eq_false, List.all_eq_true, List.contains_iff_mem,
      workItemId_of_acceptedTarget htarget]
    exact ⟨document.pairs, hchecks.criteria, ⟨⟨by simpa using hnew, hchecks.covers⟩,
      by simpa using hchecks.references⟩, ⟨⟩, hchecks.referenced, congrArg Except.ok heq.symm⟩

theorem AdjudicationChecks.congr {judgments others : List JudgmentDocument}
    {document : AdjudicationDocument} {observation : Observation} {scenario : Scenario}
    (hnodup : (judgments.map lib.judgmentDigest).Nodup)
    (hothers : (others.map lib.judgmentDigest).Nodup)
    (hmem : ∀ judgment, lib.judgmentDigest judgment ∈ document.judgmentSha256s →
      (judgment ∈ judgments ↔ judgment ∈ others))
    (h : AdjudicationChecks lib m judgments document observation scenario) :
    AdjudicationChecks lib m others document observation scenario := by
  refine ⟨h.metadata, h.criteria, h.covers, ?_⟩
  refine (checkReferenced_congr ?_).symm.trans h.referenced
  intro digest hdigest
  apply lookupJudgment_congr hnodup hothers
  rintro judgment rfl
  exact hmem judgment hdigest

theorem acceptAdjudication_congr {judgments others : List JudgmentDocument}
    {workItemIds : List String} {document : AdjudicationDocument} {outcomes : List (String × Outcome)}
    (hnodup : (judgments.map lib.judgmentDigest).Nodup)
    (hothers : (others.map lib.judgmentDigest).Nodup)
    (hmem : ∀ judgment, lib.judgmentDigest judgment ∈ document.judgmentSha256s →
      (judgment ∈ judgments ↔ judgment ∈ others))
    (h : acceptAdjudication lib m judgments workItemIds document = .ok outcomes) :
    acceptAdjudication lib m others workItemIds document = .ok outcomes := by
  rw [acceptAdjudication_eq_ok] at h ⊢
  obtain ⟨hsize, hnew, heq, observation, scenario, htarget, hchecks⟩ := h
  exact ⟨hsize, hnew, heq, observation, scenario, htarget, hchecks.congr hnodup hothers hmem⟩

theorem acceptAdjudication_cons {judgments : List JudgmentDocument} {workItemIds : List String}
    {document : AdjudicationDocument} {outcomes : List (String × Outcome)} :
    acceptAdjudication lib m judgments workItemIds document = .ok outcomes ↔
      document.target.workItemId ∉ workItemIds ∧ outcomes = document.pairs ∧
        acceptAdjudication lib m judgments [] document = .ok document.pairs := by
  rw [acceptAdjudication_eq_ok, acceptAdjudication_eq_ok]
  simp only [List.not_mem_nil, not_false_eq_true, true_and]
  tauto

/-! ## Artifacts on which the decision returns -/

theorem loadJudgments_eq_ok {loaded documents result : List JudgmentDocument}
    (hloaded : (loaded.map lib.judgmentDigest).Nodup) :
    loadJudgments lib m loaded documents = .ok result ↔
      result = loaded ++ documents ∧ (∀ document ∈ documents, acceptJudgment lib m document = .ok ()) ∧
        ((loaded ++ documents).map lib.judgmentDigest).Nodup := by
  induction documents generalizing loaded with
  | nil =>
    rw [loadJudgments]
    simp only [List.append_nil, List.not_mem_nil, false_implies, implies_true, hloaded,
      and_true]
    exact ⟨fun h => (Except.ok.inj h).symm, fun h => congrArg Except.ok h.symm⟩
  | cons document documents ih =>
    rw [loadJudgments, bind_eq_ok]
    simp only [unless_eq_ok, List.contains_iff_mem, List.mem_cons, forall_eq_or_imp]
    constructor
    · rintro ⟨⟨⟩, haccept, hnew, h⟩
      have hnodup : ((loaded ++ [document]).map lib.judgmentDigest).Nodup := by
        rw [List.map_append, List.map_singleton]
        exact nodup_append_singleton.mpr ⟨hnew, hloaded⟩
      obtain ⟨hresult, hall, hdigests⟩ := (ih hnodup).mp h
      rw [List.append_assoc, List.singleton_append] at hresult hdigests
      exact ⟨hresult, ⟨haccept, hall⟩, hdigests⟩
    · rintro ⟨hresult, ⟨haccept, hall⟩, hdigests⟩
      have hnodup : ((loaded ++ [document]).map lib.judgmentDigest).Nodup := by
        refine hdigests.sublist (List.Sublist.map _ ?_)
        exact List.Sublist.append_left (List.singleton_sublist.mpr List.mem_cons_self) loaded
      refine ⟨⟨⟩, haccept, ?_, (ih hnodup).mpr ⟨?_, hall, ?_⟩⟩
      · rw [List.map_append, List.map_singleton] at hnodup
        exact (nodup_append_singleton.mp hnodup).1
      · rw [hresult, List.append_assoc, List.singleton_append]
      · rw [List.append_assoc, List.singleton_append]
        exact hdigests

theorem loadJudgments_nil {documents result : List JudgmentDocument} :
    loadJudgments lib m [] documents = .ok result ↔
      result = documents ∧ (∀ document ∈ documents, acceptJudgment lib m document = .ok ()) ∧
        (documents.map lib.judgmentDigest).Nodup :=
  @loadJudgments_eq_ok lib m [] documents result List.nodup_nil

/-- What is loaded of an adjudication. -/
def loadedAs (document : AdjudicationDocument) : AdjudicationDocument × List (String × Outcome) :=
  (document, document.pairs)

theorem loadAdjudications_eq_ok {judgments : List JudgmentDocument} {loaded : LoadedAdjudications}
    {documents : List AdjudicationDocument} {result : LoadedAdjudications}
    (hloaded : (loaded.map fun entry => entry.1.target.workItemId).Nodup) :
    loadAdjudications lib m judgments loaded documents = .ok result ↔
      result = loaded ++ documents.map loadedAs ∧
        (∀ document ∈ documents,
          acceptAdjudication lib m judgments [] document = .ok document.pairs) ∧
        ((loaded.map fun entry => entry.1.target.workItemId) ++
          documents.map (·.target.workItemId)).Nodup := by
  induction documents generalizing loaded with
  | nil =>
    rw [loadAdjudications]
    simp only [List.map_nil, List.append_nil, List.not_mem_nil, false_implies, implies_true,
      hloaded, and_true]
    exact ⟨fun h => (Except.ok.inj h).symm, fun h => congrArg Except.ok h.symm⟩
  | cons document documents ih =>
    have hkeys : ∀ outcomes : List (String × Outcome),
        ((loaded ++ [(document, outcomes)]).map fun entry => entry.1.target.workItemId) =
          (loaded.map fun entry => entry.1.target.workItemId) ++ [document.target.workItemId] := by
      intro outcomes
      rw [List.map_append, List.map_singleton]
    rw [loadAdjudications, bind_eq_ok]
    simp only [List.mem_cons, forall_eq_or_imp, List.map_cons]
    constructor
    · rintro ⟨outcomes, haccept, h⟩
      obtain ⟨hnew, rfl, hfirst⟩ := acceptAdjudication_cons.mp haccept
      have hnodup : ((loaded ++ [(document, document.pairs)]).map
          fun entry => entry.1.target.workItemId).Nodup := by
        rw [hkeys]
        exact nodup_append_singleton.mpr ⟨hnew, hloaded⟩
      obtain ⟨hresult, hall, hdistinct⟩ := (ih hnodup).mp h
      rw [hkeys, List.append_assoc, List.singleton_append] at hdistinct
      rw [List.append_assoc, List.singleton_append] at hresult
      exact ⟨hresult, ⟨hfirst, hall⟩, hdistinct⟩
    · rintro ⟨hresult, ⟨hfirst, hall⟩, hdistinct⟩
      have hnodup : ((loaded ++ [(document, document.pairs)]).map
          fun entry => entry.1.target.workItemId).Nodup := by
        rw [hkeys]
        refine hdistinct.sublist ?_
        exact List.Sublist.append_left (List.singleton_sublist.mpr List.mem_cons_self) _
      refine ⟨document.pairs, acceptAdjudication_cons.mpr ⟨?_, rfl, hfirst⟩,
        (ih hnodup).mpr ⟨?_, hall, ?_⟩⟩
      · rw [hkeys] at hnodup
        exact (nodup_append_singleton.mp hnodup).1
      · rw [hresult, List.append_assoc, List.singleton_append]
        rfl
      · rw [hkeys, List.append_assoc, List.singleton_append]
        exact hdistinct

theorem loadAdjudications_nil {judgments : List JudgmentDocument}
    {documents : List AdjudicationDocument} {result : LoadedAdjudications} :
    loadAdjudications lib m judgments [] documents = .ok result ↔
      result = documents.map loadedAs ∧
        (∀ document ∈ documents,
          acceptAdjudication lib m judgments [] document = .ok document.pairs) ∧
        (documents.map (·.target.workItemId)).Nodup :=
  @loadAdjudications_eq_ok lib m judgments [] documents result List.nodup_nil

/-- The artifacts that every rule of a decision accepts. -/
structure Settled (lib : JudgeLibrary) (m : Matrix) (s : Artifacts) : Prop where
  names : inspectArtifacts s = .ok ()
  judgments : ∀ document ∈ s.judgments, acceptJudgment lib m document = .ok ()
  judgmentDigests : (s.judgments.map lib.judgmentDigest).Nodup
  adjudications : ∀ document ∈ s.adjudications,
    acceptAdjudication lib m s.judgments [] document = .ok document.pairs
  adjudicationDigests : (s.adjudications.map lib.adjudicationDigest).Nodup
  workItems : (s.adjudications.map (·.target.workItemId)).Nodup
  /-- An adjudication references every judgment of its work item. -/
  complete : ∀ document ∈ s.adjudications, ∀ judgment ∈ s.judgments,
    judgment.target.workItemId = document.target.workItemId →
      lib.judgmentDigest judgment ∈ document.judgmentSha256s

/-- What is reported of an adjudication. -/
def reported (document : AdjudicationDocument) : String × List (String × Outcome) :=
  (document.target.workItemId, sortedBy Prod.fst document.pairs)

/-- The decision returns, and the outcomes it reports are those of the
adjudications, of which there is at most one for a work item. -/
def Decides (lib : JudgeLibrary) (m : Matrix) (s : Artifacts) : Prop :=
  ∃ evidence, decideOutcomes lib m s = .ok evidence ∧
    evidence.outcomes.Perm (s.adjudications.map reported) ∧
    (s.adjudications.map (·.target.workItemId)).Nodup

theorem perm_sortedBy {α : Type} (id : α → String) (documents : List α) :
    (sortedBy id documents).Perm documents :=
  List.perm_insertionSort _ _

theorem mem_sortedBy {α : Type} {id : α → String} {documents : List α} {document : α} :
    document ∈ sortedBy id documents ↔ document ∈ documents :=
  (perm_sortedBy id documents).mem_iff

theorem nodup_map_sortedBy {α β : Type} {id : α → String} {documents : List α} {f : α → β} :
    ((sortedBy id documents).map f).Nodup ↔ (documents.map f).Nodup :=
  ((perm_sortedBy id documents).map f).nodup_iff

theorem target_of_reference {judgments : List JudgmentDocument} {document : AdjudicationDocument}
    {outcomes : List (String × Outcome)}
    (h : acceptAdjudication lib m judgments [] document = .ok outcomes) {digest : String}
    (hdigest : digest ∈ document.judgmentSha256s) :
    ∃ judgment ∈ judgments, lib.judgmentDigest judgment = digest ∧
      judgment.target = document.target := by
  obtain ⟨-, -, -, _, _, -, hchecks⟩ := acceptAdjudication_eq_ok.mp h
  exact exists_of_checkReferenced hchecks.referenced hdigest

/-- No judgment of an adjudicated work item is left unreferenced exactly when each
adjudication references every judgment of its work item. -/
theorem unreferenced_iff {judgments : List JudgmentDocument}
    {adjudications : List AdjudicationDocument}
    (hdigests : (judgments.map lib.judgmentDigest).Nodup)
    (haccepted : ∀ document ∈ adjudications,
      acceptAdjudication lib m judgments [] document = .ok document.pairs)
    (hworkItems : (adjudications.map (·.target.workItemId)).Nodup) :
    (∀ judgment ∈ judgments,
      lib.judgmentDigest judgment ∉ adjudications.flatMap (·.judgmentSha256s) →
        judgment.target.workItemId ∉ adjudications.map (·.target.workItemId)) ↔
      ∀ document ∈ adjudications, ∀ judgment ∈ judgments,
        judgment.target.workItemId = document.target.workItemId →
          lib.judgmentDigest judgment ∈ document.judgmentSha256s := by
  constructor
  · intro h document hdocument judgment hjudgment hsame
    have hreferenced : lib.judgmentDigest judgment ∈ adjudications.flatMap (·.judgmentSha256s) := by
      by_contra hnot
      apply h judgment hjudgment hnot
      exact List.mem_map.mpr ⟨document, hdocument, hsame.symm⟩
    obtain ⟨other, hother, hmem⟩ := List.mem_flatMap.mp hreferenced
    -- the adjudication that references the judgment has its target
    obtain ⟨found, hfound, hdigest, htarget⟩ := target_of_reference (haccepted other hother) hmem
    rw [List.inj_on_of_nodup_map hdigests hfound hjudgment hdigest] at htarget
    have heq : other = document := by
      apply List.inj_on_of_nodup_map hworkItems hother hdocument
      rw [← hsame, htarget]
    exact heq ▸ hmem
  · intro h judgment hjudgment hnot hmem
    obtain ⟨document, hdocument, hsame⟩ := List.mem_map.mp hmem
    apply hnot
    exact List.mem_flatMap.mpr ⟨document, hdocument, h document hdocument judgment hjudgment hsame.symm⟩

theorem adjudications_sorted_iff (hdigests : (s.judgments.map lib.judgmentDigest).Nodup) :
    (∀ document ∈ sortedBy (artifactName ·.adjudicationId) s.adjudications,
      acceptAdjudication lib m (sortedBy (artifactName ·.judgmentId) s.judgments) [] document =
        .ok document.pairs) ↔
      ∀ document ∈ s.adjudications,
        acceptAdjudication lib m s.judgments [] document = .ok document.pairs := by
  have hsorted : ((sortedBy (artifactName ·.judgmentId) s.judgments).map lib.judgmentDigest).Nodup :=
    nodup_map_sortedBy.mpr hdigests
  constructor
  · intro h document hdocument
    refine acceptAdjudication_congr hsorted hdigests ?_ (h document (mem_sortedBy.mpr hdocument))
    intro judgment _
    exact mem_sortedBy
  · intro h document hdocument
    refine acceptAdjudication_congr hdigests hsorted ?_ (h document (mem_sortedBy.mp hdocument))
    intro judgment _
    exact mem_sortedBy.symm

/-- The evidence of judgments and adjudications. -/
def evidenceOf (lib : JudgeLibrary) (judgments : List JudgmentDocument)
    (adjudications : List AdjudicationDocument) : QualitativeEvidence where
  outcomes := sortedBy Prod.fst (adjudications.map reported)
  judgmentSha256s := sortedBy id (judgments.map lib.judgmentDigest)
  adjudicationSha256s := sortedBy id (adjudications.map lib.adjudicationDigest)

theorem qualitativeOutcomes_eq_ok {evidence : QualitativeEvidence}
    {judgments : List JudgmentDocument} {adjudications : List AdjudicationDocument}
    (hjudgments : judgments = sortedBy (artifactName ·.judgmentId) s.judgments)
    (hadjudications : adjudications = sortedBy (artifactName ·.adjudicationId) s.adjudications) :
    qualitativeOutcomes lib m s false = .ok evidence ↔
      (∀ document ∈ judgments, acceptJudgment lib m document = .ok ()) ∧
      (judgments.map lib.judgmentDigest).Nodup ∧
      (∀ document ∈ adjudications,
        acceptAdjudication lib m judgments [] document = .ok document.pairs) ∧
      (adjudications.map (·.target.workItemId)).Nodup ∧
      (∀ judgment ∈ judgments,
        lib.judgmentDigest judgment ∉ adjudications.flatMap (·.judgmentSha256s) →
          judgment.target.workItemId ∉ adjudications.map (·.target.workItemId)) ∧
      (adjudications.map lib.adjudicationDigest).Nodup ∧
      evidence = evidenceOf lib judgments adjudications := by
  rw [qualitativeOutcomes, ← hjudgments, ← hadjudications]
  simp only [bind_eq_ok, loadJudgments_nil, loadAdjudications_nil, unless_eq_ok, Bool.false_and,
    Bool.not_false, Bool.true_and, Decidable.not_not]
  have hkeys : ((adjudications.map loadedAs).map fun entry => entry.1.target.workItemId) =
      adjudications.map (·.target.workItemId) := List.map_map
  have hdigests : ((adjudications.map loadedAs).map fun entry => lib.adjudicationDigest entry.1) =
      adjudications.map lib.adjudicationDigest := List.map_map
  have hreported : ((adjudications.map loadedAs).map fun entry =>
      (entry.1.target.workItemId, sortedBy Prod.fst entry.2)) = adjudications.map reported :=
    List.map_map
  have hreferences : ((adjudications.map loadedAs).flatMap fun entry => entry.1.judgmentSha256s) =
      adjudications.flatMap (·.judgmentSha256s) := List.flatMap_map _ _ _
  constructor
  · rintro ⟨_, ⟨rfl, hall, hnodup⟩, _, ⟨rfl, haccepted, hworkItems⟩, -, hopen, hdistinct, heq⟩
    rw [hkeys, hreferences] at hopen
    rw [hdigests] at hdistinct
    refine ⟨hall, hnodup, haccepted, hworkItems, ?_, hdistinct, ?_⟩
    · simpa using hopen
    · rw [hdigests, hreported] at heq
      exact (Except.ok.inj heq).symm
  · rintro ⟨hall, hnodup, haccepted, hworkItems, hopen, hdistinct, heq⟩
    refine ⟨judgments, ⟨rfl, hall, hnodup⟩, adjudications.map loadedAs,
      ⟨rfl, haccepted, hworkItems⟩, Bool.false_ne_true, ?_, ?_, ?_⟩
    · rw [hkeys, hreferences]
      simpa using hopen
    · rw [hdigests]
      exact hdistinct
    · rw [hdigests, hreported, heq]
      rfl

/-- The decision returns on the settled artifacts, and on no others. -/
theorem decides_iff_settled : Decides lib m s ↔ Settled lib m s := by
  have hjudgmentDigests :
      ((sortedBy (artifactName ·.judgmentId) s.judgments).map lib.judgmentDigest).Nodup ↔
        (s.judgments.map lib.judgmentDigest).Nodup := nodup_map_sortedBy
  have hworkItems : ((sortedBy (artifactName ·.adjudicationId) s.adjudications).map
      (·.target.workItemId)).Nodup ↔ (s.adjudications.map (·.target.workItemId)).Nodup :=
    nodup_map_sortedBy
  have hadjudicationDigests : ((sortedBy (artifactName ·.adjudicationId) s.adjudications).map
      lib.adjudicationDigest).Nodup ↔ (s.adjudications.map lib.adjudicationDigest).Nodup :=
    nodup_map_sortedBy
  constructor
  · rintro ⟨evidence, h, -, -⟩
    rw [decideOutcomes, bind_eq_ok] at h
    obtain ⟨⟨⟩, hnames, h⟩ := h
    obtain ⟨hall, hnodup, haccepted, hdistinct, hopen, hdigests, -⟩ :=
      (qualitativeOutcomes_eq_ok rfl rfl).mp h
    have hcomplete := (unreferenced_iff hnodup haccepted hdistinct).mp hopen
    simp only [mem_sortedBy] at hall hcomplete
    rw [hjudgmentDigests] at hnodup
    exact ⟨hnames, hall, hnodup, (adjudications_sorted_iff hnodup).mp haccepted,
      hadjudicationDigests.mp hdigests, hworkItems.mp hdistinct, hcomplete⟩
  · intro h
    have haccepted := (adjudications_sorted_iff h.judgmentDigests).mpr h.adjudications
    have hnodup := hjudgmentDigests.mpr h.judgmentDigests
    have hdistinct := hworkItems.mpr h.workItems
    refine ⟨evidenceOf lib (sortedBy (artifactName ·.judgmentId) s.judgments)
      (sortedBy (artifactName ·.adjudicationId) s.adjudications), ?_, ?_, h.workItems⟩
    · rw [decideOutcomes, bind_eq_ok]
      refine ⟨⟨⟩, h.names, (qualitativeOutcomes_eq_ok rfl rfl).mpr
        ⟨?_, hnodup, haccepted, hdistinct, ?_, hadjudicationDigests.mpr h.adjudicationDigests, rfl⟩⟩
      · simpa only [mem_sortedBy] using h.judgments
      · rw [unreferenced_iff hnodup haccepted hdistinct]
        simpa only [mem_sortedBy] using h.complete
    · exact (perm_sortedBy _ _).trans ((perm_sortedBy _ _).map _)

end SteamAgent.Evals
