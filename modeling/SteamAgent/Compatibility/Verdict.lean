import SteamAgent.Compatibility.Assess
import SteamAgent.Stdlib.Result

/-!
# What a verdict says

There are four groups.

* What `make` keeps of the evidence.
* The gates of an AppID, and the verdict over them.
* The batch: one result for each requested AppID.
* Requests that ask the same in another order.
-/

namespace SteamAgent.Compatibility

open Choice (sortBy sortBy_perm sortBy_eq sortBy_pairwise)
open Result (bind_eq_ok mapM_eq_ok_iff forM_eq_ok_iff mapM_perm mapM_related exists_of_mem_left
  exists_of_mem_right)

variable {lib : CharLibrary} {target : CompatibilityTarget} {candidate : CompatibilityCandidate}
  {requirements : List FeatureRequirement} {overrides : List GateOverride}

/-! ## Evidence that is made -/

/-- The canonical form changes the time and the order of the identifiers only. -/
theorem PrimitiveEvidence.make_eq_ok {evidence made : PrimitiveEvidence}
    (h : evidence.make lib = .ok made) :
    evidence.checkState = .ok () ∧ (evidence.state = .fail → evidence.condition = none) ∧
      (evidence.conflict = true → evidence.state = .unknown) ∧
      made = { evidence with
        observedAt := evidence.observedAt.map Datetime.Instant.wholeSecond
        evidenceIds := sortBy id evidence.evidenceIds } := by
  unfold PrimitiveEvidence.make at h
  obtain ⟨_, -, h⟩ := bind_eq_ok.mp h
  obtain ⟨ids, hids, h⟩ := bind_eq_ok.mp h
  obtain ⟨_, -, h⟩ := bind_eq_ok.mp h
  obtain ⟨_, -, h⟩ := bind_eq_ok.mp h
  obtain ⟨_, hconflict, h⟩ := bind_eq_ok.mp h
  obtain ⟨_, hstate, h⟩ := bind_eq_ok.mp h
  obtain ⟨_, hfail, h⟩ := bind_eq_ok.mp h
  have hsorted : ids = sortBy id evidence.evidenceIds := by
    unfold checkIds at hids
    obtain ⟨_, -, hids⟩ := bind_eq_ok.mp hids
    obtain ⟨_, -, hids⟩ := bind_eq_ok.mp hids
    obtain ⟨_, -, hids⟩ := bind_eq_ok.mp hids
    exact (Except.ok.inj hids).symm
  rw [require_eq_ok] at hconflict hfail
  refine ⟨hstate, hfail, hconflict, ?_⟩
  rw [← Except.ok.inj h, hsorted]

theorem state_of_make {evidence made : PrimitiveEvidence} (h : evidence.make lib = .ok made) :
    made.state = evidence.state := by
  rw [(PrimitiveEvidence.make_eq_ok h).2.2.2]

theorem freshness_of_make {evidence made : PrimitiveEvidence} (h : evidence.make lib = .ok made) :
    made.freshness = evidence.freshness := by
  rw [(PrimitiveEvidence.make_eq_ok h).2.2.2]

theorem state_of_unknown {reason : String} {conflict : Bool} {made : PrimitiveEvidence}
    (h : unknown lib reason conflict = .ok made) : made.state = .unknown :=
  state_of_make h

/-! ## Gates -/

section Gate

variable {gate : RawGate} {override : Option GateOverride}

@[simp] theorem gateResult_name : (gateResult gate override).name = gate.name := by
  cases override <;> rfl

@[simp] theorem gateResult_mandatory : (gateResult gate override).mandatory = gate.mandatory := by
  cases override <;> rfl

@[simp] theorem gateResult_original : (gateResult gate override).original = gate.evidence.state := by
  cases override <;> rfl

@[simp] theorem gateResult_overrideName :
    (gateResult gate override).overrideName = override.map (·.name) := by
  cases override <;> rfl

@[simp] theorem gateResult_effective_some {o : GateOverride} :
    (gateResult gate (some o)).effective = o.effective := rfl

/-- What a gate passes on, with no override. -/
theorem plainGate_eq_pass :
    (plainGate gate).effective = .pass ↔ gate.evidence.state = .pass ∧
      gate.evidence.freshness ≠ .expired ∧
      (isReadiness gate.name = true → gate.evidence.freshness ≠ .stale) := by
  show (if isDegraded gate.name gate.evidence then GateState.unknown else gate.evidence.state) =
    .pass ↔ _
  unfold isDegraded
  cases hstate : gate.evidence.state <;> cases hfresh : gate.evidence.freshness <;>
    cases hready : isReadiness gate.name <;> decide

/-- A gate that is no readiness gate fails on evidence that is not expired. -/
theorem plainGate_eq_fail (hready : isReadiness gate.name = false)
    (hstate : gate.evidence.state = .fail) (hfresh : gate.evidence.freshness ≠ .expired) :
    (plainGate gate).effective = .fail := by
  show (if isDegraded gate.name gate.evidence then GateState.unknown else gate.evidence.state) = .fail
  have hfalse : isDegraded gate.name gate.evidence = false := by
    unfold isDegraded
    rw [hready, Bool.false_and, Bool.or_false, Bool.and_eq_false_iff]
    right
    exact beq_eq_false_iff_ne.mpr hfresh
  rw [hfalse]
  exact hstate

end Gate

theorem passes_of_verdict {gates : List GateResult}
    (h : verdict gates = .compatible ∨ verdict gates = .conditional) :
    ∀ gate ∈ gates, gate.mandatory = true → gate.effective = .pass := by
  intro gate hgate hmandatory
  have hmem : gate ∈ gates.filter (·.mandatory) := List.mem_filter.mpr ⟨hgate, hmandatory⟩
  unfold verdict at h
  by_cases hfail : (gates.filter (·.mandatory)).any (·.effective = .fail) = true
  · simp [hfail] at h
  · by_cases hunknown : (gates.filter (·.mandatory)).any (·.effective = .unknown) = true
    · simp [hfail, hunknown] at h
    · have hne := List.any_eq_false.mp (Bool.eq_false_iff.mpr hfail) gate hmem
      have hne' := List.any_eq_false.mp (Bool.eq_false_iff.mpr hunknown) gate hmem
      rw [decide_eq_true_iff] at hne hne'
      cases heffective : gate.effective with
      | pass => rfl
      | fail => exact absurd heffective hne
      | unknown => exact absurd heffective hne'

theorem verdict_eq_incompatible {gates : List GateResult} {gate : GateResult} (hgate : gate ∈ gates)
    (hmandatory : gate.mandatory = true) (hfail : gate.effective = .fail) :
    verdict gates = .incompatible := by
  have hmem : gate ∈ gates.filter (·.mandatory) := List.mem_filter.mpr ⟨hgate, hmandatory⟩
  unfold verdict
  exact if_pos (List.any_eq_true.mpr ⟨gate, hmem, decide_eq_true hfail⟩)

/-- The evidence that a gate of a candidate can pass on. -/
inductive JudgedOn (lib : CharLibrary) (candidate : CompatibilityCandidate)
    (target : CompatibilityTarget) : String → PrimitiveEvidence → Prop
  | nativeBuild :
      JudgedOn lib candidate target "declared_native_build" candidate.declaredNativeBuild
  | execution :
      JudgedOn lib candidate target "effective_execution_support"
        candidate.effectiveExecutionSupport
  | architecture : JudgedOn lib candidate target "architecture" candidate.architecture
  | minimum : JudgedOn lib candidate target "meets_minimum" candidate.meetsMinimum
  | review {review : TargetReview} (hreview : candidate.exactTargetReview = some review)
      (htarget : review.target = target) :
      JudgedOn lib candidate target "exact_target_review" review.evidence
  | installed : JudgedOn lib candidate target "readiness:installed" candidate.installed
  | owned : JudgedOn lib candidate target "readiness:visible_owned" candidate.owned
  | present {risk : RuntimeRisk} {evidence : PrimitiveEvidence} {condition : String}
      (hrisk : risk ∈ candidate.runtimeRisks) (hpresence : risk.presence = .present)
      (himpact : risk.impact ≠ .blocking)
      (hmake : (riskEvidence risk .pass (some condition)).make lib = .ok evidence) :
      JudgedOn lib candidate target ("runtime:" ++ risk.name) evidence
  | absent {risk : RuntimeRisk} {evidence : PrimitiveEvidence}
      (hrisk : risk ∈ candidate.runtimeRisks) (hpresence : risk.presence = .absent)
      (hmake : (riskEvidence risk .pass none).make lib = .ok evidence) :
      JudgedOn lib candidate target ("runtime:" ++ risk.name) evidence
  | feature {feature : FeatureEvidence} (hfeature : feature ∈ candidate.features) :
      JudgedOn lib candidate target (feature.kind.value ++ ":" ++ feature.name) feature.support

theorem rawGates_eq_ok {raw : List RawGate}
    (h : rawGates lib candidate target requirements = .ok raw) :
    ∃ review risks features,
      exactReviewForTarget lib target candidate.exactTargetReview = .ok review ∧
      List.Forall₂ (fun risk gate => riskGate lib risk = .ok gate) candidate.runtimeRisks risks ∧
      List.Forall₂ (fun requirement gate => featureGate lib candidate.features requirement = .ok gate)
        requirements features ∧
      raw = fixedGates candidate target.kind review ++ risks ++ features := by
  unfold rawGates at h
  obtain ⟨review, hreview, h⟩ := bind_eq_ok.mp h
  obtain ⟨risks, hrisks, h⟩ := bind_eq_ok.mp h
  obtain ⟨features, hfeatures, h⟩ := bind_eq_ok.mp h
  exact ⟨review, risks, features, hreview, mapM_eq_ok_iff.mp hrisks, mapM_eq_ok_iff.mp hfeatures,
    (Except.ok.inj h).symm⟩

/-- A review counts for the target it was made for. -/
theorem review_of_pass {review : Option TargetReview} {evidence : PrimitiveEvidence}
    (h : exactReviewForTarget lib target review = .ok evidence) (hpass : evidence.state = .pass) :
    ∃ r, review = some r ∧ r.target = target ∧ r.evidence = evidence := by
  cases review with
  | none =>
    have hunknown := state_of_unknown h
    rw [hpass] at hunknown
    cases hunknown
  | some r =>
    by_cases htarget : r.target = target
    · have hevidence := (if_neg (not_not.mpr htarget)).symm.trans h
      exact ⟨r, rfl, htarget, Except.ok.inj hevidence⟩
    · have hunknown := state_of_unknown ((if_pos htarget).symm.trans h)
      rw [hpass] at hunknown
      cases hunknown

theorem isReadiness_runtime (name : String) : isReadiness ("runtime:" ++ name) = false := by
  unfold isReadiness
  rw [String.toList_append]
  rfl

/-- The three gates that a runtime risk can give. -/
theorem riskGate_cases {risk : RuntimeRisk} {gate : RawGate} (h : riskGate lib risk = .ok gate) :
    gate.name = "runtime:" ++ risk.name ∧
      ((risk.presence = .present ∧ risk.impact = .blocking ∧ gate.mandatory = true ∧
          (riskEvidence risk .fail none).make lib = .ok gate.evidence) ∨
        (risk.presence = .present ∧ risk.impact ≠ .blocking ∧ gate.mandatory = true ∧
          (riskEvidence risk .pass (some ("runtime_risk:" ++ risk.name))).make lib =
            .ok gate.evidence) ∨
        (risk.presence = .absent ∧ gate.mandatory = true ∧
          (riskEvidence risk .pass none).make lib = .ok gate.evidence) ∨
        (risk.presence = .unknown ∧ gate.mandatory = false ∧ gate.evidence = risk.evidence)) := by
  unfold riskGate at h
  cases hpresence : risk.presence with
  | present =>
    rw [hpresence] at h
    obtain ⟨evidence, hmake, h⟩ := bind_eq_ok.mp h
    cases h
    refine ⟨rfl, ?_⟩
    cases himpact : risk.impact with
    | blocking =>
      rw [himpact] at hmake
      exact Or.inl ⟨rfl, rfl, rfl, hmake⟩
    | manual =>
      rw [himpact] at hmake
      exact Or.inr (Or.inl ⟨rfl, (nomatch ·), rfl, hmake⟩)
    | runtime =>
      rw [himpact] at hmake
      exact Or.inr (Or.inl ⟨rfl, (nomatch ·), rfl, hmake⟩)
  | absent =>
    rw [hpresence] at h
    obtain ⟨evidence, hmake, h⟩ := bind_eq_ok.mp h
    cases h
    exact ⟨rfl, Or.inr (Or.inr (Or.inl ⟨rfl, rfl, hmake⟩))⟩
  | unknown =>
    rw [hpresence] at h
    cases h
    exact ⟨rfl, Or.inr (Or.inr (Or.inr ⟨rfl, rfl, rfl⟩))⟩

theorem featureGate_eq_ok {features : List FeatureEvidence} {requirement : FeatureRequirement}
    {gate : RawGate} (h : featureGate lib features requirement = .ok gate) :
    gate.name = requirement.kind.value ++ ":" ++ requirement.name ∧ gate.mandatory = true ∧
      ((∃ feature ∈ features, feature.kind = requirement.kind ∧ feature.name = requirement.name ∧
          gate.evidence = feature.support) ∨
        gate.evidence.state = .unknown) := by
  unfold featureGate at h
  obtain ⟨missing, hmissing, h⟩ := bind_eq_ok.mp h
  cases h
  refine ⟨rfl, rfl, ?_⟩
  unfold featureSupport
  cases hfind : features.find? fun item => item.kind = requirement.kind ∧
      item.name = requirement.name with
  | none => exact Or.inr (state_of_unknown hmissing)
  | some feature =>
    have hsame : feature.kind = requirement.kind ∧ feature.name = requirement.name := by
      simpa using List.find?_some hfind
    exact Or.inl ⟨feature, List.mem_of_find?_eq_some hfind, hsame.1, hsame.2, rfl⟩

/-- The presence of every risk is what its evidence says. -/
def RisksAgree (candidate : CompatibilityCandidate) : Prop :=
  ∀ risk ∈ candidate.runtimeRisks, risk.evidence.state = risk.presence.expected

/-- A gate whose evidence is in state `pass` is judged on it. -/
theorem judgedOn_of_pass {raw : List RawGate} {gate : RawGate} (hagree : RisksAgree candidate)
    (h : rawGates lib candidate target requirements = .ok raw) (hgate : gate ∈ raw)
    (hpass : gate.evidence.state = .pass) : JudgedOn lib candidate target gate.name gate.evidence := by
  obtain ⟨review, risks, features, hreview, hrisks, hfeatures, rfl⟩ := rawGates_eq_ok h
  rcases List.mem_append.mp hgate with hgate | hgate
  · rcases List.mem_append.mp hgate with hgate | hgate
    · simp only [fixedGates, List.mem_cons, List.not_mem_nil, or_false] at hgate
      rcases hgate with rfl | rfl | rfl | rfl | rfl | rfl | rfl
      · exact .nativeBuild
      · exact .execution
      · exact .architecture
      · exact .minimum
      · obtain ⟨r, hsome, htarget, rfl⟩ := review_of_pass hreview hpass
        exact .review hsome htarget
      · exact .installed
      · exact .owned
    · obtain ⟨risk, hrisk, hrun⟩ := exists_of_mem_right hrisks hgate
      obtain ⟨hname, hcases⟩ := riskGate_cases hrun
      rw [hname]
      rcases hcases with ⟨-, -, -, hmake⟩ | ⟨hpresence, himpact, -, hmake⟩ | ⟨hpresence, -, hmake⟩ |
        ⟨hpresence, -, hevidence⟩
      · have hfail := state_of_make hmake
        rw [hpass] at hfail
        cases hfail
      · exact .present hrisk hpresence himpact hmake
      · exact .absent hrisk hpresence hmake
      · have hunknown := hagree risk hrisk
        rw [← hevidence, hpass, hpresence] at hunknown
        cases hunknown
  · obtain ⟨requirement, -, hrun⟩ := exists_of_mem_right hfeatures hgate
    obtain ⟨hname, -, hcases⟩ := featureGate_eq_ok hrun
    rcases hcases with ⟨feature, hfeature, hkind, hsame, hevidence⟩ | hunknown
    · rw [hname, ← hkind, ← hsame, hevidence]
      exact .feature hfeature
    · rw [hpass] at hunknown
      cases hunknown

/-! ## One AppID -/

theorem assess_eq_ok {result : CompatibilityAssessment}
    (h : assess lib target requirements overrides candidate = .ok result) :
    ∃ raw experience, rawGates lib candidate target requirements = .ok raw ∧
      result = assessGates candidate target experience
        (raw.map fun gate => gateResult gate (overrides.find? (·.gate = gate.name))) := by
  unfold assess at h
  obtain ⟨raw, hraw, h⟩ := bind_eq_ok.mp h
  obtain ⟨_, -, h⟩ := bind_eq_ok.mp h
  obtain ⟨experience, -, h⟩ := bind_eq_ok.mp h
  exact ⟨raw, experience, hraw, (Except.ok.inj h).symm⟩

/-- The gates that count on a target whatever the request asks. -/
def mandatoryGates : TargetKind → List String
  | .machine => ["effective_execution_support", "architecture", "meets_minimum"]
  | .valveDeck => ["exact_target_review"]

theorem mem_fixedGates {review : PrimitiveEvidence} {kind : TargetKind} {name : String}
    (h : name ∈ mandatoryGates kind) :
    ∃ gate ∈ fixedGates candidate kind review, gate.name = name ∧ gate.mandatory = true := by
  cases kind with
  | machine =>
    simp only [mandatoryGates, List.mem_cons, List.not_mem_nil, or_false] at h
    rcases h with rfl | rfl | rfl
    · exact ⟨⟨_, candidate.effectiveExecutionSupport, true⟩, by simp [fixedGates], rfl, rfl⟩
    · exact ⟨⟨_, candidate.architecture, true⟩, by simp [fixedGates], rfl, rfl⟩
    · exact ⟨⟨_, candidate.meetsMinimum, true⟩, by simp [fixedGates], rfl, rfl⟩
  | valveDeck =>
    simp only [mandatoryGates, List.mem_cons, List.not_mem_nil, or_false] at h
    subst h
    exact ⟨⟨_, review, true⟩, by simp [fixedGates], rfl, rfl⟩

/-- What a result says about the evidence for its AppID. -/
structure Sound (lib : CharLibrary) (request : Request) (result : CompatibilityAssessment) :
    Prop where
  /-- The gates of the target and the required features are there and count. -/
  counted : ∀ name, (name ∈ mandatoryGates request.target.kind ∨
      ∃ requirement ∈ request.requirements,
        name = requirement.kind.value ++ ":" ++ requirement.name) →
    ∃ gate ∈ result.gates, gate.name = name ∧ gate.mandatory = true
  /-- A positive result needs every mandatory gate. -/
  passes : (result.compatibility = .compatible ∨ result.compatibility = .conditional) →
    ∀ gate ∈ result.gates, gate.mandatory = true → gate.effective = .pass
  /-- A gate passes on an override that says so. -/
  overridden : ∀ gate ∈ result.gates, gate.overrideName ≠ none →
    ∃ override ∈ request.overrides, override.appid = result.appid ∧ override.gate = gate.name ∧
      gate.effective = override.effective
  /-- Without an override it passes on the evidence of the candidate. -/
  judged : ∀ gate ∈ result.gates, gate.overrideName = none → gate.effective = .pass →
    ∃ candidate ∈ request.candidates, candidate.appid = result.appid ∧
      ∃ evidence, JudgedOn lib candidate request.target gate.name evidence ∧
        evidence.state = .pass ∧ evidence.freshness ≠ .expired ∧
        (isReadiness gate.name = true → evidence.freshness ≠ .stale)
  /-- A blocking risk decides. -/
  blocked : ∀ candidate ∈ request.candidates, candidate.appid = result.appid →
    ∀ risk ∈ candidate.runtimeRisks, risk.presence = .present → risk.impact = .blocking →
      risk.evidence.freshness ≠ .expired →
      (∀ override ∈ request.overrides, override.appid = result.appid →
        override.gate ≠ "runtime:" ++ risk.name) →
      result.compatibility = .incompatible
  /-- Without a candidate every mandatory gate needs an override. -/
  missing : (∀ candidate ∈ request.candidates, candidate.appid ≠ result.appid) →
    (result.compatibility = .compatible ∨ result.compatibility = .conditional) →
    ∀ gate ∈ result.gates, gate.mandatory = true →
      ∃ override ∈ request.overrides, override.appid = result.appid ∧
        override.gate = gate.name ∧ override.effective = .pass

/-- The candidate of an AppID that has none. -/
def IsMissing (candidate : CompatibilityCandidate) : Prop :=
  (∀ evidence ∈ [candidate.declaredNativeBuild, candidate.effectiveExecutionSupport,
      candidate.architecture, candidate.meetsMinimum, candidate.installed, candidate.owned],
    evidence.state = .unknown) ∧
  candidate.exactTargetReview = none ∧ candidate.runtimeRisks = [] ∧ candidate.features = []

theorem isMissing_of_missingCandidate {appid : Int}
    (h : missingCandidate lib target appid = .ok candidate) :
    candidate.appid = appid ∧ IsMissing candidate := by
  unfold missingCandidate at h
  obtain ⟨missing, hmissing, h⟩ := bind_eq_ok.mp h
  unfold CompatibilityCandidate.check at h
  obtain ⟨_, -, h⟩ := bind_eq_ok.mp h
  obtain ⟨_, -, h⟩ := bind_eq_ok.mp h
  obtain ⟨_, -, h⟩ := bind_eq_ok.mp h
  cases h
  refine ⟨rfl, ?_, rfl, rfl, rfl⟩
  intro evidence hevidence
  have hsame : evidence = missing := by
    simpa using hevidence
  rw [hsame]
  exact state_of_unknown hmissing

theorem not_judgedOn_of_missing {name : String} {evidence : PrimitiveEvidence}
    (hmissing : IsMissing candidate) (h : JudgedOn lib candidate target name evidence) :
    evidence.state = .unknown := by
  obtain ⟨hunknown, hreview, hrisks, hfeatures⟩ := hmissing
  cases h with
  | nativeBuild => exact hunknown _ (by simp)
  | execution => exact hunknown _ (by simp)
  | architecture => exact hunknown _ (by simp)
  | minimum => exact hunknown _ (by simp)
  | review hsome => exact absurd (hreview.symm.trans hsome) nofun
  | installed => exact hunknown _ (by simp)
  | owned => exact hunknown _ (by simp)
  | present hrisk =>
    rw [hrisks] at hrisk
    exact absurd hrisk List.not_mem_nil
  | absent hrisk =>
    rw [hrisks] at hrisk
    exact absurd hrisk List.not_mem_nil
  | feature hfeature =>
    rw [hfeatures] at hfeature
    exact absurd hfeature List.not_mem_nil

/-- The candidate that an AppID is judged by. -/
theorem candidateFor_cases {candidates : List CompatibilityCandidate} {appid : Int}
    (h : candidateFor lib target candidates appid = .ok candidate) :
    candidate.appid = appid ∧ (candidate ∈ candidates ∨
      IsMissing candidate ∧ ∀ other ∈ candidates, other.appid ≠ appid) := by
  unfold candidateFor at h
  cases hfind : candidates.find? (·.appid = appid) with
  | some found =>
    rw [hfind] at h
    cases h
    exact ⟨by simpa using List.find?_some hfind, Or.inl (List.mem_of_find?_eq_some hfind)⟩
  | none =>
    rw [hfind] at h
    obtain ⟨happid, hmissing⟩ := isMissing_of_missingCandidate h
    refine ⟨happid, Or.inr ⟨hmissing, ?_⟩⟩
    intro other hother
    simpa using List.find?_eq_none.mp hfind other hother

theorem mem_sorted {α β : Type} [LinearOrder β] {key : α → β} {values : List α} {a : α} :
    a ∈ sortBy key values ↔ a ∈ values :=
  (sortBy_perm key values).mem_iff

theorem sound_of_assess {request : Request} {appid : Int} {result : CompatibilityAssessment}
    (hnodup : (request.candidates.map (·.appid)).Nodup)
    (hagree : ∀ candidate ∈ request.candidates, RisksAgree candidate)
    (hcandidate : candidateFor lib request.target request.candidates appid = .ok candidate)
    (h : assess lib request.target
      (sortBy (fun item => featureKey item.kind item.name) request.requirements)
      (request.overrides.filter (·.appid = appid)) candidate = .ok result) :
    result.appid = appid ∧ Sound lib request result := by
  obtain ⟨raw, experience, hraw, rfl⟩ := assess_eq_ok h
  obtain ⟨happid, hwhich⟩ := candidateFor_cases hcandidate
  obtain ⟨review, risks, features, hreview, hrisks, hfeatures, hsplit⟩ := rawGates_eq_ok hraw
  have hagrees : RisksAgree candidate := by
    rcases hwhich with hmem | hmissing
    · exact hagree candidate hmem
    · intro risk hrisk
      rw [hmissing.1.2.2.1] at hrisk
      exact absurd hrisk List.not_mem_nil
  -- The override of a gate is one of the request, for this AppID.
  have hfound : ∀ {name : String} {o : GateOverride},
      (request.overrides.filter (·.appid = appid)).find? (·.gate = name) = some o →
      o ∈ request.overrides ∧ o.appid = appid ∧ o.gate = name := by
    intro name o ho
    have hmem := List.mem_filter.mp (List.mem_of_find?_eq_some ho)
    exact ⟨hmem.1, of_decide_eq_true hmem.2, by simpa using List.find?_some ho⟩
  have hjudged : ∀ gate ∈ raw,
      (request.overrides.filter (·.appid = appid)).find? (·.gate = gate.name) = none →
      (plainGate gate).effective = .pass →
      JudgedOn lib candidate request.target gate.name gate.evidence ∧ gate.evidence.state = .pass ∧
        gate.evidence.freshness ≠ .expired ∧
        (isReadiness gate.name = true → gate.evidence.freshness ≠ .stale) := by
    intro gate hgate _ hpass
    obtain ⟨hstate, hfresh⟩ := plainGate_eq_pass.mp hpass
    exact ⟨judgedOn_of_pass hagrees hraw hgate hstate, hstate, hfresh⟩
  refine ⟨happid, ⟨?_, ?_, ?_, ?_, ?_, ?_⟩⟩
  · intro name hname
    have hthere : ∃ gate ∈ raw, gate.name = name ∧ gate.mandatory = true := by
      rcases hname with hname | ⟨requirement, hrequirement, rfl⟩
      · obtain ⟨gate, hgate, hgates⟩ := mem_fixedGates hname
        refine ⟨gate, ?_, hgates⟩
        rw [hsplit]
        exact List.mem_append_left _ (List.mem_append_left _ hgate)
      · obtain ⟨gate, hgate, hrun⟩ := exists_of_mem_left hfeatures (mem_sorted.mpr hrequirement)
        obtain ⟨hgatename, hmandatory, -⟩ := featureGate_eq_ok hrun
        refine ⟨gate, ?_, hgatename, hmandatory⟩
        rw [hsplit]
        exact List.mem_append_right _ hgate
    obtain ⟨gate, hgate, hgatename, hmandatory⟩ := hthere
    exact ⟨_, List.mem_map_of_mem hgate, gateResult_name.trans hgatename,
      gateResult_mandatory.trans hmandatory⟩
  · exact passes_of_verdict
  · intro result hresult hname
    obtain ⟨gate, hgate, rfl⟩ := List.mem_map.mp hresult
    cases hfind : (request.overrides.filter (·.appid = appid)).find? (·.gate = gate.name) with
    | none =>
      rw [hfind] at hname
      exact absurd rfl hname
    | some o =>
      obtain ⟨hmem, hsame, hgatename⟩ := hfound hfind
      exact ⟨o, hmem, hsame.trans happid.symm, hgatename.trans gateResult_name.symm, rfl⟩
  · intro result hresult hname hpass
    obtain ⟨gate, hgate, rfl⟩ := List.mem_map.mp hresult
    cases hfind : (request.overrides.filter (·.appid = appid)).find? (·.gate = gate.name) with
    | some o =>
      rw [hfind] at hname
      exact absurd hname nofun
    | none =>
      rw [hfind] at hpass
      obtain ⟨hon, hstate, hfresh⟩ := hjudged gate hgate hfind hpass
      rcases hwhich with hmem | hmissing
      · exact ⟨candidate, hmem, rfl, gate.evidence, hon, hstate, hfresh⟩
      · have hunknown := not_judgedOn_of_missing hmissing.1 hon
        rw [hstate] at hunknown
        cases hunknown
  · intro other hother hsame risk hrisk hpresence himpact hfresh hfree
    have heq : other = candidate := by
      rcases hwhich with hmem | hmissing
      · exact List.inj_on_of_nodup_map hnodup hother hmem hsame
      · exact absurd (hsame.trans happid) (hmissing.2 other hother)
    subst heq
    obtain ⟨gate, hgate, hrun⟩ := exists_of_mem_left hrisks hrisk
    obtain ⟨hname, hcases⟩ := riskGate_cases hrun
    have hblocking : gate.mandatory = true ∧
        (riskEvidence risk .fail none).make lib = .ok gate.evidence := by
      rcases hcases with ⟨-, -, hcase⟩ | ⟨-, hne, -⟩ | ⟨habsent, -⟩ | ⟨hunknown, -⟩
      · exact hcase
      · exact absurd himpact hne
      · exact absurd (hpresence.symm.trans habsent) nofun
      · exact absurd (hpresence.symm.trans hunknown) nofun
    have hraw' : gate ∈ raw := by
      rw [hsplit]
      exact List.mem_append_left _ (List.mem_append_right _ hgate)
    have hnone : (request.overrides.filter (·.appid = appid)).find? (·.gate = gate.name) = none := by
      rw [List.find?_eq_none]
      intro o ho hgateo
      have hmem := List.mem_filter.mp ho
      exact hfree o hmem.1 ((of_decide_eq_true hmem.2).trans happid.symm)
        ((of_decide_eq_true hgateo).trans hname)
    refine verdict_eq_incompatible (List.mem_map_of_mem hraw') ?_ ?_
    · exact gateResult_mandatory.trans hblocking.1
    · rw [hnone]
      refine plainGate_eq_fail ?_ (state_of_make hblocking.2) ?_
      · rw [hname]
        exact isReadiness_runtime risk.name
      · rw [freshness_of_make hblocking.2]
        exact hfresh
  · intro hnone hpositive result hresult hmandatory
    have hpass := passes_of_verdict hpositive result hresult hmandatory
    obtain ⟨gate, hgate, rfl⟩ := List.mem_map.mp hresult
    cases hfind : (request.overrides.filter (·.appid = appid)).find? (·.gate = gate.name) with
    | some o =>
      rw [hfind] at hpass
      obtain ⟨hmem, hsame, hgatename⟩ := hfound hfind
      exact ⟨o, hmem, hsame.trans happid.symm, hgatename.trans gateResult_name.symm, hpass⟩
    | none =>
      rw [hfind] at hpass
      obtain ⟨hon, hstate, -⟩ := hjudged gate hgate hfind hpass
      rcases hwhich with hmem | hmissing
      · exact absurd rfl (hnone candidate hmem)
      · have hunknown := not_judgedOn_of_missing hmissing.1 hon
        rw [hstate] at hunknown
        cases hunknown

/-! ## The batch -/

/-- What `validate_compatibility_request` asks. -/
structure Valid (requestedAppids : List Int) (requirements : List FeatureRequirement)
    (overrides : List GateOverride) : Prop where
  items : requestedAppids.length ≤ maxItems
  lengths : requirements.length ≤ maxComponents ∧ overrides.length ≤ maxItems
  range : ∀ appid ∈ requestedAppids, checkInt "requested appid" 1 maxAppid appid = .ok ()
  nodup : requestedAppids.Nodup
  features : (requirements.map fun item => (item.kind, item.name)).Nodup
  keys : (overrides.map fun item => (item.appid, item.gate)).Nodup
  requested : ∀ override ∈ overrides, override.appid ∈ requestedAppids
  gates : requestedAppids.length * (7 + requirements.length) ≤ maxTotalGates

theorem validate_eq_ok {requestedAppids : List Int} :
    validateCompatibilityRequest requestedAppids requirements overrides = .ok () ↔
      Valid requestedAppids requirements overrides := by
  unfold validateCompatibilityRequest
  simp only [bind_eq_ok, require_eq_ok]
  constructor
  · intro h
    obtain ⟨_, h₁, _, h₂, _, h₃, _, h₄, _, h₅, _, h₆, _, h₇, h₈⟩ := h
    exact ⟨h₁, h₂, forM_eq_ok_iff.mp h₃, h₄, h₅, h₆, h₇, h₈⟩
  · intro h
    exact ⟨(), h.items, (), h.lengths, (), forM_eq_ok_iff.mpr h.range, (), h.nodup, (), h.features, (),
      h.keys, (), h.requested, h.gates⟩

/-- The number of gates that the candidates bring. -/
def componentGates (candidates : List CompatibilityCandidate) : Nat :=
  (candidates.map fun item => item.runtimeRisks.length + item.features.length).foldr (· + ·) 0

/-- The results of the requested AppIDs, in order. -/
def results (lib : CharLibrary) (request : Request) :
    Except ValueError (List CompatibilityAssessment) :=
  (sortBy id request.requestedAppids).mapM fun appid =>
    candidateFor lib request.target request.candidates appid >>= assess lib request.target
      (sortBy (fun item => featureKey item.kind item.name) request.requirements)
      (request.overrides.filter (·.appid = appid))

theorem assess_request_eq_ok {request : Request} {batch : CompatibilityBatch} :
    request.assess lib = .ok batch ↔
      Valid request.requestedAppids request.requirements request.overrides ∧
      (request.candidates.map (·.appid)).Nodup ∧
      (∀ candidate ∈ request.candidates, candidate.appid ∈ request.requestedAppids) ∧
      (∀ candidate ∈ request.candidates, candidate.target = request.target) ∧
      request.requestedAppids.length * (7 + request.requirements.length) +
        componentGates request.candidates ≤ maxTotalGates ∧
      ∃ values, results lib request = .ok values ∧
        batch = ⟨request.target, sortBy id request.requestedAppids, values,
          if values.all (·.completeness = .complete) then .complete else .incomplete⟩ := by
  unfold Request.assess assessCompatibility
  simp only [bind_eq_ok, require_eq_ok]
  constructor
  · intro h
    obtain ⟨_, hvalid, _, hnodup, _, hrequested, _, htarget, _, hbound, values, hvalues, h⟩ := h
    exact ⟨validate_eq_ok.mp hvalid, hnodup, hrequested, htarget, hbound, values, hvalues,
      (Except.ok.inj h).symm⟩
  · intro h
    obtain ⟨hvalid, hnodup, hrequested, htarget, hbound, values, hvalues, rfl⟩ := h
    exact ⟨(), validate_eq_ok.mpr hvalid, (), hnodup, (), hrequested, (), htarget, (), hbound,
      values, hvalues, rfl⟩

/-! ## The same request in another order -/

/-- The risks and the features of a candidate are permuted. -/
structure CandidateRearranged (candidate candidate' : CompatibilityCandidate) : Prop where
  risks : candidate.runtimeRisks.Perm candidate'.runtimeRisks
  features : candidate.features.Perm candidate'.features
  others : candidate' = { candidate with
    runtimeRisks := candidate'.runtimeRisks, features := candidate'.features }

/-- The collections of a request are permuted. -/
structure Request.Rearranged (request request' : Request) : Prop where
  appids : request.requestedAppids.Perm request'.requestedAppids
  candidates : ∃ middle, List.Forall₂ CandidateRearranged request.candidates middle ∧
    middle.Perm request'.candidates
  target : request'.target = request.target
  requirements : request.requirements.Perm request'.requirements
  overrides : request.overrides.Perm request'.overrides

theorem featureKey_injective {kind kind' : FeatureKind} {name name' : String}
    (h : featureKey kind name = featureKey kind' name') : (kind, name) = (kind', name') := by
  have hpair := Prod.mk.inj (toLex.injective h)
  rw [FeatureKind.value_injective hpair.1, hpair.2]

theorem check_rearranged {candidate' made : CompatibilityCandidate}
    (h : CandidateRearranged candidate candidate') (hcheck : candidate.check = .ok made) :
    candidate'.check = .ok made := by
  unfold CompatibilityCandidate.check at hcheck ⊢
  obtain ⟨_, happid, hcheck⟩ := bind_eq_ok.mp hcheck
  obtain ⟨_, hlength, hcheck⟩ := bind_eq_ok.mp hcheck
  obtain ⟨_, hnodup, hcheck⟩ := bind_eq_ok.mp hcheck
  rw [require_eq_ok] at hlength hnodup
  have hsame := h.others
  have hrisks : sortBy (·.name) candidate.runtimeRisks = sortBy (·.name) candidate'.runtimeRisks :=
    sortBy_eq h.risks fun a ha b hb => List.inj_on_of_nodup_map hnodup.1 ha hb
  have hfeatures : sortBy (fun item => featureKey item.kind item.name) candidate.features =
      sortBy (fun item => featureKey item.kind item.name) candidate'.features :=
    sortBy_eq h.features fun a ha b hb heq =>
      List.inj_on_of_nodup_map hnodup.2 ha hb (featureKey_injective heq)
  refine bind_eq_ok.mpr ⟨(), ?_, bind_eq_ok.mpr ⟨(), ?_, bind_eq_ok.mpr ⟨(), ?_, ?_⟩⟩⟩
  · rw [hsame]
    exact happid
  · rw [require_eq_ok, ← h.risks.length_eq, ← h.features.length_eq]
    exact hlength
  · rw [require_eq_ok]
    exact ⟨(h.risks.map _).nodup_iff.mp hnodup.1, (h.features.map _).nodup_iff.mp hnodup.2⟩
  · rw [← hrisks, ← hfeatures, hsame]
    exact hcheck

theorem make_rearranged {candidate' made : CompatibilityCandidate}
    (h : CandidateRearranged candidate candidate') (hmake : candidate.make lib = .ok made) :
    candidate'.make lib = .ok made := by
  have hsame := h.others
  unfold CompatibilityCandidate.make at hmake ⊢
  simp only [bind_eq_ok] at hmake ⊢
  obtain ⟨target, h₁, native, h₂, effective, h₃, architecture, h₄, minimum, h₅, review, h₆, likely,
    h₇, installed, h₈, owned, h₉, risks, hrisks, features, hfeatures, hcheck⟩ := hmake
  obtain ⟨risks', hrisks', hriskperm⟩ := mapM_perm hrisks h.risks
  obtain ⟨features', hfeatures', hfeatureperm⟩ := mapM_perm hfeatures h.features
  have happid : candidate'.appid = candidate.appid := by
    rw [hsame]
  refine ⟨target, ?_, native, ?_, effective, ?_, architecture, ?_, minimum, ?_, review, ?_, likely,
    ?_, installed, ?_, owned, ?_, risks', hrisks', features', hfeatures', ?_⟩
  · rw [hsame]; exact h₁
  · rw [hsame]; exact h₂
  · rw [hsame]; exact h₃
  · rw [hsame]; exact h₄
  · rw [hsame]; exact h₅
  · rw [hsame]; exact h₆
  · rw [hsame]; exact h₇
  · rw [hsame]; exact h₈
  · rw [hsame]; exact h₉
  · rw [happid]
    exact check_rearranged ⟨hriskperm, hfeatureperm, rfl⟩ hcheck

/-- The records of a rearranged request are the same, in another order. -/
structure SameRecords (made made' : Request) : Prop where
  appids : made.requestedAppids.Perm made'.requestedAppids
  candidates : made.candidates.Perm made'.candidates
  target : made'.target = made.target
  requirements : made.requirements.Perm made'.requirements
  overrides : made.overrides.Perm made'.overrides

theorem sameRecords_of_rearranged {request request' made : Request}
    (h : request.Rearranged request') (hmade : request.make lib = .ok made) :
    ∃ made', request'.make lib = .ok made' ∧ SameRecords made made' := by
  unfold Request.make at hmade ⊢
  simp only [bind_eq_ok] at hmade ⊢
  obtain ⟨target, htarget, candidates, hcandidates, requirements, hrequirements, overrides,
    hoverrides, hmade⟩ := hmade
  cases hmade
  obtain ⟨middle, hforall, hperm⟩ := h.candidates
  have hmiddle := mapM_related hforall (fun a c b => make_rearranged) hcandidates
  obtain ⟨candidates', hcandidates', hcandidateperm⟩ := mapM_perm hmiddle hperm
  obtain ⟨requirements', hrequirements', hrequirementperm⟩ := mapM_perm hrequirements h.requirements
  obtain ⟨overrides', hoverrides', hoverrideperm⟩ := mapM_perm hoverrides h.overrides
  rw [h.target]
  exact ⟨_, ⟨target, htarget, candidates', hcandidates', requirements', hrequirements', overrides',
    hoverrides', rfl⟩, h.appids, hcandidateperm, rfl, hrequirementperm, hoverrideperm⟩

theorem Valid.perm {requestedAppids requestedAppids' : List Int}
    {requirements' : List FeatureRequirement} {overrides' : List GateOverride}
    (h : Valid requestedAppids requirements overrides)
    (happids : requestedAppids.Perm requestedAppids') (hrequirements : requirements.Perm requirements')
    (hoverrides : overrides.Perm overrides') : Valid requestedAppids' requirements' overrides' := by
  constructor
  · rw [← happids.length_eq]
    exact h.items
  · rw [← hrequirements.length_eq, ← hoverrides.length_eq]
    exact h.lengths
  · intro appid hmem
    exact h.range appid (happids.mem_iff.mpr hmem)
  · exact happids.nodup_iff.mp h.nodup
  · exact (hrequirements.map _).nodup_iff.mp h.features
  · exact (hoverrides.map _).nodup_iff.mp h.keys
  · intro override hmem
    exact happids.mem_iff.mp (h.requested override (hoverrides.mem_iff.mpr hmem))
  · rw [← happids.length_eq, ← hrequirements.length_eq]
    exact h.gates

/-- The first value with a key, among values with different keys. -/
theorem find?_perm {α β : Type} [DecidableEq β] {key : α → β} {values values' : List α} (k : β)
    (hperm : values.Perm values') (hnodup : (values.map key).Nodup) :
    values.find? (key · = k) = values'.find? (key · = k) := by
  cases hfind : values.find? (key · = k) with
  | none =>
    symm
    rw [List.find?_eq_none] at hfind ⊢
    exact fun a ha => hfind a (hperm.mem_iff.mpr ha)
  | some a =>
    have hmem := hperm.mem_iff.mp (List.mem_of_find?_eq_some hfind)
    have hkey : key a = k := by simpa using List.find?_some hfind
    cases hfind' : values'.find? (key · = k) with
    | none => exact absurd (decide_eq_true hkey) (List.find?_eq_none.mp hfind' a hmem)
    | some b =>
      have hkey' : key b = k := by simpa using List.find?_some hfind'
      have hmem' := hperm.mem_iff.mpr (List.mem_of_find?_eq_some hfind')
      rw [List.inj_on_of_nodup_map hnodup (hperm.mem_iff.mpr hmem) hmem' (hkey.trans hkey'.symm)]

/-- An AppID is judged the same whatever the order of its overrides. -/
theorem assess_perm {overrides' : List GateOverride} (hperm : overrides.Perm overrides')
    (hnodup : (overrides.map (·.gate)).Nodup) :
    assess lib target requirements overrides candidate =
      assess lib target requirements overrides' candidate := by
  unfold assess
  cases rawGates lib candidate target requirements with
  | error e => rfl
  | ok raw =>
    have hnamed : (∀ override ∈ overrides, override.gate ∈ raw.map (·.name)) ↔
        ∀ override ∈ overrides', override.gate ∈ raw.map (·.name) :=
      forall_congr' fun override => by rw [hperm.mem_iff]
    have hgates : (raw.map fun gate => gateResult gate (overrides.find? (·.gate = gate.name))) =
        raw.map fun gate => gateResult gate (overrides'.find? (·.gate = gate.name)) := by
      apply List.map_congr_left
      intro gate _
      rw [find?_perm gate.name hperm hnodup]
    show (require _ _ >>= fun _ => _) = (require _ _ >>= fun _ => _)
    rw [hgates]
    by_cases hall : ∀ override ∈ overrides, override.gate ∈ raw.map (·.name)
    · rw [require, if_pos hall, require, if_pos (hnamed.mp hall)]
    · rw [require, if_neg hall, require, if_neg (hall ∘ hnamed.mpr)]

theorem results_perm {made made' : Request} (h : SameRecords made made')
    (hvalid : Valid made.requestedAppids made.requirements made.overrides)
    (hnodup : (made.candidates.map (·.appid)).Nodup) :
    results lib made = results lib made' := by
  have happids : sortBy id made.requestedAppids = sortBy id made'.requestedAppids :=
    sortBy_eq h.appids fun a _ b _ heq => heq
  have hrequirements : sortBy (fun item => featureKey item.kind item.name) made.requirements =
      sortBy (fun item => featureKey item.kind item.name) made'.requirements :=
    sortBy_eq h.requirements fun a ha b hb heq =>
      List.inj_on_of_nodup_map hvalid.features ha hb (featureKey_injective heq)
  unfold results
  rw [happids, hrequirements, h.target]
  congr 1
  funext appid
  have hfor : candidateFor lib made.target made.candidates appid =
      candidateFor lib made.target made'.candidates appid := by
    unfold candidateFor
    rw [find?_perm appid h.candidates hnodup]
  rw [hfor]
  congr 1
  funext candidate
  refine assess_perm (h.overrides.filter _) ?_
  rw [List.nodup_iff_pairwise_ne, List.pairwise_map]
  have hpairs := List.pairwise_map.mp (List.nodup_iff_pairwise_ne.mp hvalid.keys)
  refine List.Pairwise.imp_of_mem ?_ (hpairs.filter _)
  intro a b ha hb hne hgate
  have happid : a.appid = b.appid :=
    (of_decide_eq_true (List.mem_filter.mp ha).2).trans
      (of_decide_eq_true (List.mem_filter.mp hb).2).symm
  exact hne (by rw [happid, hgate])

theorem assess_sameRecords {made made' : Request} {batch : CompatibilityBatch}
    (h : SameRecords made made') (hassess : made.assess lib = .ok batch) :
    made'.assess lib = .ok batch := by
  rw [assess_request_eq_ok] at hassess ⊢
  obtain ⟨hvalid, hnodup, hrequested, htarget, hbound, values, hvalues, hbatch⟩ := hassess
  have hsum : componentGates made.candidates = componentGates made'.candidates :=
    haveI : LeftCommutative (HAdd.hAdd : Nat → Nat → Nat) := ⟨Nat.add_left_comm⟩
    (h.candidates.map _).foldr_eq 0
  have happids : sortBy id made.requestedAppids = sortBy id made'.requestedAppids :=
    sortBy_eq h.appids fun a _ b _ heq => heq
  refine ⟨hvalid.perm h.appids h.requirements h.overrides,
    (h.candidates.map _).nodup_iff.mp hnodup, ?_, ?_, ?_, values, ?_, ?_⟩
  · intro candidate hmem
    exact h.appids.mem_iff.mp (hrequested candidate (h.candidates.mem_iff.mpr hmem))
  · intro candidate hmem
    rw [h.target]
    exact htarget candidate (h.candidates.mem_iff.mpr hmem)
  · rw [← h.appids.length_eq, ← h.requirements.length_eq, ← hsum]
    exact hbound
  · rw [← results_perm h hvalid hnodup]
    exact hvalues
  · rw [h.target, ← happids]
    exact hbatch

theorem agree_of_make {made : CompatibilityCandidate} (h : candidate.make lib = .ok made) :
    RisksAgree made := by
  unfold CompatibilityCandidate.make at h
  simp only [bind_eq_ok] at h
  obtain ⟨_, -, _, -, _, -, _, -, _, -, _, -, _, -, _, -, _, -, risks, hrisks, features, -, h⟩ := h
  unfold CompatibilityCandidate.check at h
  obtain ⟨_, -, h⟩ := bind_eq_ok.mp h
  obtain ⟨_, -, h⟩ := bind_eq_ok.mp h
  obtain ⟨_, -, h⟩ := bind_eq_ok.mp h
  cases h
  intro risk hrisk
  obtain ⟨raw, -, hmake⟩ := exists_of_mem_right (mapM_eq_ok_iff.mp hrisks) (mem_sorted.mp hrisk)
  unfold RuntimeRisk.make at hmake
  obtain ⟨evidence, -, hmake⟩ := bind_eq_ok.mp hmake
  obtain ⟨_, -, hmake⟩ := bind_eq_ok.mp hmake
  obtain ⟨_, hagree, hmake⟩ := bind_eq_ok.mp hmake
  cases hmake
  exact require_eq_ok.mp hagree

/-- An accepted request has one sound result for each requested AppID, in ascending order,
and the same batch in every order of its parts. -/
theorem compatibility_sound (lib : CharLibrary) {request made : Request} {batch : CompatibilityBatch}
    (hmade : request.make lib = .ok made) (h : made.assess lib = .ok batch) :
    (batch.results.map (·.appid)).Perm made.requestedAppids ∧
      (batch.results.map (·.appid)).Pairwise (· < ·) ∧
      (∀ result ∈ batch.results, Sound lib made result) ∧
      ∀ request' made' : Request, request.Rearranged request' → request'.make lib = .ok made' →
        made'.assess lib = .ok batch := by
  have hagree : ∀ candidate ∈ made.candidates, RisksAgree candidate := by
    unfold Request.make at hmade
    simp only [bind_eq_ok] at hmade
    obtain ⟨_, -, candidates, hcandidates, _, -, _, -, hmade⟩ := hmade
    cases hmade
    intro candidate hmem
    obtain ⟨raw, -, hmake⟩ := exists_of_mem_right (mapM_eq_ok_iff.mp hcandidates) hmem
    exact agree_of_make hmake
  obtain ⟨hvalid, hnodup, -, -, -, values, hvalues, hbatch⟩ := assess_request_eq_ok.mp h
  have hforall := mapM_eq_ok_iff.mp hvalues
  have hsound : List.Forall₂ (fun appid result => result.appid = appid ∧ Sound lib made result)
      (sortBy id made.requestedAppids) values := by
    refine hforall.imp ?_
    intro appid result hrun
    obtain ⟨candidate, hcandidate, hassess⟩ := bind_eq_ok.mp hrun
    exact sound_of_assess hnodup hagree hcandidate hassess
  have happids : values.map (·.appid) = sortBy id made.requestedAppids := by
    have hsame : List.Forall₂ (· = ·) (values.map (·.appid)) (sortBy id made.requestedAppids) := by
      rw [List.forall₂_map_left_iff]
      exact hsound.flip.imp fun _ _ hpair => hpair.1
    rwa [List.forall₂_eq_eq_eq] at hsame
  rw [hbatch]
  refine ⟨?_, ?_, ?_, ?_⟩
  · show (values.map (·.appid)).Perm made.requestedAppids
    rw [happids]
    exact sortBy_perm id _
  · show (values.map (·.appid)).Pairwise (· < ·)
    rw [happids]
    have hle := sortBy_pairwise id made.requestedAppids
    have hne : (sortBy id made.requestedAppids).Pairwise (· ≠ ·) :=
      List.nodup_iff_pairwise_ne.mp ((sortBy_perm id _).nodup_iff.mpr hvalid.nodup)
    exact (hle.and hne).imp fun hpair => lt_of_le_of_ne hpair.1 hpair.2
  · intro result hresult
    obtain ⟨_, -, hpair⟩ := exists_of_mem_right hsound hresult
    exact hpair.2
  · intro request' made' hrearranged hmade'
    obtain ⟨made'', hmade'', hsame⟩ := sameRecords_of_rearranged hrearranged hmade
    rw [hmade'] at hmade''
    cases hmade''
    rw [← hbatch]
    exact assess_sameRecords hsame h

/-! ## Four AppIDs -/

def CompatibilityCandidate.reversed (candidate : CompatibilityCandidate) :
    CompatibilityCandidate :=
  { candidate with
    runtimeRisks := candidate.runtimeRisks.reverse
    features := candidate.features.reverse }

/-- The collections of a request, each read backwards. -/
def Request.reversed (request : Request) : Request where
  requestedAppids := request.requestedAppids.reverse
  candidates := (request.candidates.map (·.reversed)).reverse
  target := request.target
  requirements := request.requirements.reverse
  overrides := request.overrides.reverse

theorem rearranged_reversed (request : Request) : request.Rearranged request.reversed where
  appids := (List.reverse_perm _).symm
  candidates := by
    refine ⟨request.candidates.map (·.reversed), ?_, (List.reverse_perm _).symm⟩
    rw [List.forall₂_map_right_iff, List.forall₂_same]
    intro candidate _
    exact ⟨(List.reverse_perm _).symm, (List.reverse_perm _).symm, rfl⟩
  target := rfl
  requirements := (List.reverse_perm _).symm
  overrides := (List.reverse_perm _).symm

def asciiLibrary : CharLibrary :=
  ⟨fun c => 32 ≤ c.toNat && c.toNat < 127⟩

def deskTarget : CompatibilityTarget :=
  ⟨.machine, "desk", .linux⟩

/-- Evidence in this state. -/
def observed (state : GateState) (evidenceId : String) : PrimitiveEvidence :=
  ⟨state, some "steam_store_appdetails", .provisional, some ⟨0, of_decide_eq_true rfl⟩, .fresh,
    [evidenceId], false, none, none⟩

/-- A native build with a controller and these risks. -/
def deskCandidate (appid : Int) (runtimeRisks : List RuntimeRisk) : CompatibilityCandidate :=
  let likely := unknownEvidence "performance_not_benchmarked" false
  ⟨appid, deskTarget, observed .pass "native", observed .pass "execution",
    observed .pass "architecture", observed .pass "minimum", none, likely,
    observed .pass "installed", likely, runtimeRisks,
    [⟨.input, "controller", observed .pass "controller"⟩,
      ⟨.language, "english", observed .pass "english"⟩]⟩

/-- One title needs a launcher, two a driver that is blocked; for one of those a
test on the machine overrides that. -/
def deskRequest : Request where
  requestedAppids := [57, 10, 20, 99]
  candidates := [
    deskCandidate 57 [⟨"driver", .absent, .blocking, observed .fail "driver"⟩,
      ⟨"launcher", .present, .manual, observed .pass "launcher"⟩],
    deskCandidate 10 [⟨"driver", .present, .blocking, observed .pass "driver"⟩],
    deskCandidate 20 [⟨"driver", .present, .blocking, observed .pass "driver"⟩]]
  target := deskTarget
  requirements := [⟨.input, "controller"⟩, ⟨.language, "english"⟩]
  overrides := [⟨"tested", 20, "runtime:driver", .pass, ["run"], ⟨0, of_decide_eq_true rfl⟩⟩,
    ⟨"measured", 57, "meets_minimum", .pass, ["benchmark"], ⟨0, of_decide_eq_true rfl⟩⟩]

theorem make_deskRequest : deskRequest.make asciiLibrary = .ok deskRequest := by
  rfl

/-- Each title is judged by its risks and overrides, in any order of the rows,
and the AppID without a candidate is unknown. -/
theorem compatibility_sound_desk :
    ∃ batch, deskRequest.assess asciiLibrary = .ok batch ∧
      batch.results.map (fun result => (result.appid, result.compatibility)) =
        [(10, .incompatible), (20, .compatible), (57, .conditional), (99, .unknown)] ∧
      (∀ result ∈ batch.results, Sound asciiLibrary deskRequest result) ∧
      ∃ made, deskRequest.reversed.make asciiLibrary = .ok made ∧
        made.assess asciiLibrary = .ok batch := by
  have hparts : (deskRequest.assess asciiLibrary).toOption.map (fun batch =>
      batch.results.map fun result => (result.appid, result.compatibility)) =
        some [(10, .incompatible), (20, .compatible), (57, .conditional), (99, .unknown)] := by
    decide +kernel
  cases h : deskRequest.assess asciiLibrary with
  | error e =>
    rw [h] at hparts
    cases hparts
  | ok batch =>
    rw [h] at hparts
    obtain ⟨-, -, hsound, horder⟩ := compatibility_sound asciiLibrary make_deskRequest h
    obtain ⟨made, hmade, -⟩ :=
      sameRecords_of_rearranged (rearranged_reversed deskRequest) make_deskRequest
    exact ⟨batch, rfl, Option.some.inj hparts, hsound, made, hmade,
      horder deskRequest.reversed made (rearranged_reversed deskRequest) hmade⟩

end SteamAgent.Compatibility
