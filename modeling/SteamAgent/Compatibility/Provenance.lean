import SteamAgent.Compatibility.Query
import SteamAgent.Compatibility.Verdict

/-!
# What the evidence of a candidate rests on

Every piece of evidence that `_candidate` makes names a source, and its
freshness is that of the source.

There are three groups.

* The evidence of one step.
* The evidence of a candidate, and its gates.
* The results of a query.
-/

namespace SteamAgent.Compatibility

open Choice (sortBy sortBy_perm)
open Datetime (Instant)
open Result (bind_eq_ok mapM_eq_ok_iff forM_eq_ok_iff exists_of_mem_left exists_of_mem_right)

variable {lib : QueryLibrary} {appid : Int} {now : Instant} {sources : Sources}
  {d : Declared} {conflict : Bool} {target : CompatibilityTarget}

/-! ## Evidence -/

section Evidence

variable {evidence made : PrimitiveEvidence} {origin : Attribution} {reason : String}
  {state : GateState}

theorem source_of_make {lib : CharLibrary} (h : evidence.make lib = .ok made) :
    made.source = evidence.source := by
  rw [(PrimitiveEvidence.make_eq_ok h).2.2.2]

theorem conflict_of_make {lib : CharLibrary} (h : evidence.make lib = .ok made) :
    made.conflict = evidence.conflict := by
  rw [(PrimitiveEvidence.make_eq_ok h).2.2.2]

/-- Evidence with no source is not fresh. -/
theorem unknown_eq_ok {lib : CharLibrary} (h : unknown lib reason conflict = .ok made) :
    made.source = none ∧ made.freshness = .unknown ∧ made.conflict = conflict :=
  ⟨source_of_make h, freshness_of_make h, conflict_of_make h⟩

theorem attributedUnknown_eq_ok (h : attributedUnknown lib reason origin conflict = .ok made) :
    made.source = some origin.source ∧ made.freshness = origin.freshness ∧
      made.conflict = conflict ∧ made.state = .unknown :=
  ⟨source_of_make h, freshness_of_make h, conflict_of_make h, state_of_make h⟩

theorem known_eq_ok (h : known lib state origin = .ok made) :
    made.source = some origin.source ∧ made.freshness = origin.freshness := by
  unfold known at h
  split at h
  · exact ⟨(attributedUnknown_eq_ok h).1, (attributedUnknown_eq_ok h).2.1⟩
  · exact ⟨source_of_make h, freshness_of_make h⟩

end Evidence

theorem installedFresh_le : installedFresh ≤ systemFresh := by
  unfold installedFresh systemFresh secondsUs
  omega

/-- The source that evidence names, and the freshness that this gives it. -/
inductive RestsOn (sources : Sources) (d : Declared) (now : Instant) (conflict : Bool) :
    Option String → Freshness → Prop
  | nothing : RestsOn sources d now conflict none .unknown
  | store : RestsOn sources d now conflict (some storeSource) d.freshness
  | layered : RestsOn sources d now conflict (some layeredSource)
      (combinedFreshness d.freshness (systemFreshness sources.system now systemFresh))
  | parser {observedAt : Instant} {policy : Nat} (hconflict : conflict = false)
      (hobserved : d.observedAt = some observedAt) (hpolicy : policy ≤ systemFresh) :
      RestsOn sources d now conflict (some parserSource)
        (worstFreshness (declaredFreshness observedAt now)
          (systemFreshness sources.system now policy))
  | observed (source : LocalSource) (freshness : Freshness) :
      RestsOn sources d now conflict (some source.value) freshness

/-- The evidence rests on a source of its candidate. -/
def Rests (sources : Sources) (d : Declared) (now : Instant) (conflict : Bool)
    (evidence : PrimitiveEvidence) : Prop :=
  RestsOn sources d now conflict evidence.source evidence.freshness

section Rests

variable {evidence made : PrimitiveEvidence} {reason : String} {state : GateState}

theorem rests_unknown {lib : CharLibrary} {c : Bool} (h : unknown lib reason c = .ok made) :
    Rests sources d now conflict made := by
  obtain ⟨hsource, hfresh, -⟩ := unknown_eq_ok h
  unfold Rests
  rw [hsource, hfresh]
  exact .nothing

theorem rests_of_store {observedAt : Instant} {id : String}
    (h : made.source = some (storeAttribution observedAt d.freshness id).source ∧
      made.freshness = (storeAttribution observedAt d.freshness id).freshness) :
    Rests sources d now conflict made := by
  unfold Rests
  rw [h.1, h.2]
  exact .store

theorem rests_known {observedAt : Instant} {id : String}
    (h : known lib state (storeAttribution observedAt d.freshness id) = .ok made) :
    Rests sources d now conflict made :=
  rests_of_store (known_eq_ok h)

theorem rests_attributed {observedAt : Instant} {id : String} {c : Bool}
    (h : attributedUnknown lib reason (storeAttribution observedAt d.freshness id) c =
      .ok made) : Rests sources d now conflict made :=
  rests_of_store ⟨(attributedUnknown_eq_ok h).1, (attributedUnknown_eq_ok h).2.1⟩

/-- `_native` tells of the declaration, and of a conflict. -/
theorem native_eq_ok {platform : Platform} (h : native lib d platform appid conflict =
    .ok made) :
    Rests sources d now conflict made ∧
      (conflict = true → made.state = .unknown ∧ made.conflict = true) ∧
      (made.state ≠ .unknown → made.freshness = d.freshness) := by
  unfold native at h
  split at h
  · rename_i facts observedAt _ _
    split at h
    · rename_i hconflict
      have hmade := attributedUnknown_eq_ok h
      exact ⟨rests_attributed h, fun _ => ⟨hmade.2.2.2, hmade.2.2.1⟩, fun _ => hmade.2.1⟩
    · rename_i hconflict
      simp only at h
      refine ⟨?_, fun htrue => absurd htrue hconflict, ?_⟩
      · split at h
        · exact rests_known h
        · exact rests_unknown h
      · intro hstate
        split at h
        · exact (known_eq_ok h).2
        · exact absurd (state_of_unknown h) hstate
  · split at h
    · exact ⟨rests_unknown h, fun _ => ⟨state_of_unknown h, (unknown_eq_ok h).2.2⟩,
        fun hstate => absurd (state_of_unknown h) hstate⟩
    · rename_i hconflict
      exact ⟨rests_unknown h, fun htrue => absurd htrue hconflict,
        fun hstate => absurd (state_of_unknown h) hstate⟩

theorem layeredEvidence_eq_ok {system : SystemSnapshot} {systemObservedAt : Instant}
    (h : layeredEvidence lib evidence target system systemObservedAt now appid = .ok made) :
    made.source = some layeredSource ∧ made.freshness =
      combinedFreshness evidence.freshness (systemFreshness (some system) now systemFresh) := by
  unfold layeredEvidence at h
  simp only at h
  split at h
  · exact ⟨source_of_make h, freshness_of_make h⟩
  · exact ⟨source_of_make h, freshness_of_make h⟩

theorem effectiveExecution_eq_ok {platform : Platform}
    (hrests : Rests sources d now conflict evidence)
    (hfresh : evidence.state ≠ .unknown → evidence.freshness = d.freshness)
    (h : effectiveExecution lib evidence platform target sources.system now appid = .ok made) :
    Rests sources d now conflict made ∧
      (evidence.conflict = true → made = evidence) := by
  unfold effectiveExecution at h
  split at h
  · cases h
    exact ⟨hrests, fun _ => rfl⟩
  · rename_i hknown
    obtain ⟨hconflict, hstate⟩ := not_or.mp hknown
    refine ⟨?_, fun htrue => absurd htrue hconflict⟩
    split at h
    · split at h
      · exact rests_unknown h
      · cases h
        exact hrests
    · split at h
      · cases h
        exact hrests
      · split at h
        · exact rests_unknown h
        · rename_i system hsystem
          split at h
          · split at h
            · split at h
              · exact rests_unknown h
              · obtain ⟨hsource, hcombined⟩ := layeredEvidence_eq_ok h
                unfold Rests
                rw [hsource, hcombined, hfresh hstate, ← hsystem]
                exact .layered
            · exact rests_unknown h
          · exact rests_unknown h

theorem comparisonEvidence_eq_ok {context : MinimumContext} {kind : String} {freshness : Freshness}
    (h : comparisonEvidence lib context kind state reason freshness = .ok made) :
    made.source = some parserSource ∧ made.freshness = freshness := by
  unfold comparisonEvidence at h
  simp only at h
  split at h
  · exact ⟨(attributedUnknown_eq_ok h).1, (attributedUnknown_eq_ok h).2.1⟩
  · exact known_eq_ok h

/-- The parser judges by the age of the declaration and by the system. -/
theorem evaluateMinimum_eq_ok {context : MinimumContext} {platform : String}
    {facts : List (String × JsonValue)} {profile : Option (List (String × JsonValue))}
    {evaluated : MinimumEvaluation}
    (h : evaluateMinimum lib context platform facts profile = .ok evaluated) :
    (evaluated.architecture.source = some parserSource ∧ evaluated.architecture.freshness =
        worstFreshness (declaredFreshness context.declaredObservedAt context.generatedAt)
          context.systemProfileFreshness) ∧
      ∀ evidence ∈ [evaluated.meetsMinimum, evaluated.meetsMinimumWithoutStorage],
        evidence.source = some parserSource ∧ (evidence.freshness =
            worstFreshness (declaredFreshness context.declaredObservedAt context.generatedAt)
              context.systemProfileFreshness ∨
          evidence.freshness =
            worstFreshness (declaredFreshness context.declaredObservedAt context.generatedAt)
              context.storageAvailableFreshness) := by
  unfold evaluateMinimum at h
  simp only at h
  obtain ⟨capacity, -, h⟩ := bind_eq_ok.mp h
  obtain ⟨architecture, harchitecture, h⟩ := bind_eq_ok.mp h
  obtain ⟨minimum, hminimum, h⟩ := bind_eq_ok.mp h
  obtain ⟨without, hwithout, h⟩ := bind_eq_ok.mp h
  cases h
  refine ⟨comparisonEvidence_eq_ok harchitecture, ?_⟩
  intro evidence hevidence
  obtain ⟨hsource, hfresh⟩ := comparisonEvidence_eq_ok hminimum
  simp only [List.mem_cons, List.not_mem_nil, or_false] at hevidence
  rcases hevidence with rfl | rfl
  · refine ⟨hsource, ?_⟩
    rw [hfresh]
    split
    · exact Or.inl rfl
    · split
      · exact Or.inl rfl
      · exact Or.inr rfl
  · exact ⟨(comparisonEvidence_eq_ok hwithout).1, Or.inl (comparisonEvidence_eq_ok hwithout).2⟩

theorem rests_parserField {observedAt : Instant} (hconflict : conflict = false)
    (hobserved : d.observedAt = some observedAt) {policy : Nat} (hpolicy : policy ≤ systemFresh)
    (hsource : made.source = some parserSource)
    (hfresh : made.freshness = worstFreshness (declaredFreshness observedAt now)
      (systemFreshness sources.system now policy)) : Rests sources d now conflict made := by
  unfold Rests
  rw [hsource, hfresh]
  exact .parser hconflict hobserved hpolicy

/-- Evidence of an observation names its source, if there is one. -/
theorem source_of_localEvidence {value : Option LocalObservation} {installedKind : Bool}
    (h : localEvidence lib value appid now installedKind = .ok made) :
    made.source = none ∧ made.freshness = .unknown ∨
      ∃ source : LocalSource, made.source = some source.value := by
  unfold localEvidence at h
  split at h
  · exact Or.inl ⟨(unknown_eq_ok h).1, (unknown_eq_ok h).2.1⟩
  · rename_i value
    split at h
    · exact Or.inl ⟨(unknown_eq_ok h).1, (unknown_eq_ok h).2.1⟩
    · refine Or.inr ⟨value.source, ?_⟩
      simp only at h
      split at h
      · exact (attributedUnknown_eq_ok h).1
      · exact (known_eq_ok h).1
      · split at h
        · exact (known_eq_ok h).1
        · exact (attributedUnknown_eq_ok h).1

theorem localEvidence_eq_ok {value : Option LocalObservation} {installedKind : Bool}
    (h : localEvidence lib value appid now installedKind = .ok made) :
    Rests sources d now conflict made := by
  unfold Rests
  rcases source_of_localEvidence h with ⟨hsource, hfresh⟩ | ⟨source, hsource⟩
  · rw [hsource, hfresh]
    exact .nothing
  · rw [hsource]
    exact .observed source _

/-- The freshness of what was observed. -/
def observedFreshness (value : LocalObservation) (observedAt now : Instant)
    (installedKind : Bool) : Freshness :=
  if value.presence = .unknown then if (age observedAt now).isNone then .unknown else .stale
  else localFreshness (some value) now installedKind

theorem freshness_of_localEvidence {value : LocalObservation} {observedAt : Instant}
    {installedKind : Bool} (hobserved : value.observedAt = some observedAt)
    (h : localEvidence lib (some value) appid now installedKind = .ok made) :
    made.freshness = observedFreshness value observedAt now installedKind := by
  unfold localEvidence at h
  simp only [hobserved] at h
  unfold observedFreshness
  cases hpresence : value.presence with
  | unknown =>
    rw [hpresence] at h
    exact (attributedUnknown_eq_ok h).2.1
  | present =>
    rw [hpresence] at h
    exact (known_eq_ok h).2
  | absent =>
    rw [hpresence] at h
    simp only at h
    split at h
    · exact (known_eq_ok h).2
    · exact (attributedUnknown_eq_ok h).2.1

/-! ## Candidates -/

theorem mem_lastFeatures {items : List FeatureEvidence} {item : FeatureEvidence}
    (h : item ∈ lastFeatures items) : item ∈ items := by
  induction items with
  | nil => exact absurd h List.not_mem_nil
  | cons first rest ih =>
    unfold lastFeatures at h
    split at h
    · exact List.mem_cons_of_mem _ (ih h)
    · rcases List.mem_cons.mp h with rfl | h
      · exact List.mem_cons_self
      · exact List.mem_cons_of_mem _ (ih h)

theorem features_eq_ok {items : List FeatureEvidence} (h : features lib d appid conflict =
    .ok items) : (conflict = true → items = []) ∧
      ∀ item ∈ items, Rests sources d now conflict item.support := by
  unfold features at h
  split at h
  · obtain ⟨_, -, h⟩ := bind_eq_ok.mp h
    obtain ⟨made, hmade, h⟩ := bind_eq_ok.mp h
    cases h
    refine ⟨nofun, ?_⟩
    intro item hitem
    have hmem := mem_lastFeatures (mem_sorted.mp hitem)
    obtain ⟨source, -, hrun⟩ := exists_of_mem_right (mapM_eq_ok_iff.mp hmade) hmem
    obtain ⟨support, hsupport, hrun⟩ := bind_eq_ok.mp hrun
    unfold FeatureEvidence.make at hrun
    obtain ⟨remade, hremade, hrun⟩ := bind_eq_ok.mp hrun
    obtain ⟨_, -, hrun⟩ := bind_eq_ok.mp hrun
    cases hrun
    show Rests sources d now _ remade
    unfold Rests
    rw [source_of_make hremade, freshness_of_make hremade]
    exact rests_known hsupport
  · cases h
    exact ⟨fun _ => rfl, fun item hitem => absurd hitem List.not_mem_nil⟩

theorem noticeRisk_eq_ok {facts : List (String × JsonValue)} {observedAt : Instant}
    {key name : String} {impact : Impact} {risk : RuntimeRisk}
    (h : noticeRisk lib facts observedAt d.freshness appid key name impact = .ok risk) :
    Rests sources d now conflict risk.evidence := by
  have hmade : ∀ {evidence : PrimitiveEvidence} {presence : Presence},
      Rests sources d now conflict evidence →
      RuntimeRisk.make lib.chars ⟨name, presence, impact, evidence⟩ = .ok risk →
        Rests sources d now conflict risk.evidence := by
    intro evidence presence hrests hrun
    unfold RuntimeRisk.make at hrun
    obtain ⟨remade, hremade, hrun⟩ := bind_eq_ok.mp hrun
    obtain ⟨_, -, hrun⟩ := bind_eq_ok.mp hrun
    obtain ⟨_, -, hrun⟩ := bind_eq_ok.mp hrun
    cases hrun
    show Rests sources d now _ remade
    unfold Rests
    rw [source_of_make hremade, freshness_of_make hremade]
    exact hrests
  unfold noticeRisk at h
  simp only at h
  split at h
  · obtain ⟨evidence, hevidence, h⟩ := bind_eq_ok.mp h
    exact hmade (rests_known hevidence) h
  · split at h
    · obtain ⟨evidence, hevidence, h⟩ := bind_eq_ok.mp h
      exact hmade (rests_known hevidence) h
    · obtain ⟨evidence, hevidence, h⟩ := bind_eq_ok.mp h
      exact hmade (rests_attributed hevidence) h

theorem risks_eq_ok {items : List RuntimeRisk} (h : risks lib d appid conflict = .ok items) :
    (conflict = true → items = []) ∧
      ∀ item ∈ items, Rests sources d now conflict item.evidence := by
  unfold risks at h
  split at h
  · obtain ⟨account, haccount, h⟩ := bind_eq_ok.mp h
    obtain ⟨drm, hdrm, h⟩ := bind_eq_ok.mp h
    cases h
    refine ⟨nofun, ?_⟩
    intro item hitem
    simp only [List.mem_cons, List.not_mem_nil, or_false] at hitem
    rcases hitem with rfl | rfl
    · exact noticeRisk_eq_ok haccount
    · exact noticeRisk_eq_ok hdrm
  · cases h
    exact ⟨fun _ => rfl, fun item hitem => absurd hitem List.not_mem_nil⟩

theorem candidateMinimum_eq_ok {item : DeclaredItem} {facts : List (String × JsonValue)}
    {declaredAt : Instant} {evaluated : MinimumEvaluation} (hconflict : conflict = false)
    (hobserved : d.observedAt = some declaredAt)
    (h : candidateMinimum lib appid target now sources item facts declaredAt = .ok evaluated) :
    (evaluated.architecture.source = some parserSource ∧ evaluated.architecture.freshness =
        worstFreshness (declaredFreshness declaredAt now)
          (systemFreshness sources.system now systemFresh)) ∧
      ∀ evidence ∈ [evaluated.architecture, evaluated.meetsMinimum,
        evaluated.meetsMinimumWithoutStorage], Rests sources d now conflict evidence := by
  unfold candidateMinimum at h
  simp only at h
  obtain ⟨harchitecture, hminimum⟩ := evaluateMinimum_eq_ok h
  refine ⟨harchitecture, ?_⟩
  intro evidence hevidence
  rcases List.mem_cons.mp hevidence with rfl | hevidence
  · exact rests_parserField hconflict hobserved le_rfl harchitecture.1 harchitecture.2
  · obtain ⟨hsource, hfresh | hfresh⟩ := hminimum evidence hevidence
    · exact rests_parserField hconflict hobserved le_rfl hsource hfresh
    · exact rests_parserField hconflict hobserved installedFresh_le hsource hfresh

theorem candidateRequirements_eq_ok {native architecture minimum : PrimitiveEvidence}
    (hnative : Rests sources d now (candidateConflict sources target d) native)
    (h : candidateRequirements lib appid target now sources d native =
      .ok (architecture, minimum)) :
    (candidateConflict sources target d = true → architecture = native ∧ minimum = native) ∧
      Rests sources d now (candidateConflict sources target d) architecture ∧
      Rests sources d now (candidateConflict sources target d) minimum := by
  unfold candidateRequirements at h
  split at h
  · cases h
    exact ⟨fun _ => ⟨rfl, rfl⟩, hnative, hnative⟩
  · rename_i hconflict
    refine ⟨fun htrue => absurd htrue hconflict, ?_⟩
    split at h
    · rename_i declaredAt _ _ hobserved
      obtain ⟨evaluated, hevaluated, h⟩ := bind_eq_ok.mp h
      cases h
      obtain ⟨-, hrests⟩ := candidateMinimum_eq_ok (Bool.eq_false_iff.mpr hconflict) hobserved
        hevaluated
      refine ⟨hrests _ (by simp), ?_⟩
      split
      · exact hrests _ (by simp)
      · exact hrests _ (by simp)
    · obtain ⟨made, hmade, h⟩ := bind_eq_ok.mp h
      obtain ⟨made', hmade', h⟩ := bind_eq_ok.mp h
      cases h
      exact ⟨rests_unknown hmade, rests_unknown hmade'⟩

/-- With no conflict the architecture is judged by the age of the declaration and by the system. -/
theorem architecture_of_requirements {native architecture minimum : PrimitiveEvidence}
    {item : DeclaredItem} {facts : List (String × JsonValue)} {declaredAt : Instant}
    (hconflict : candidateConflict sources target d = false) (hitem : sources.item = some item)
    (hfacts : d.facts = some facts) (hobserved : d.observedAt = some declaredAt)
    (h : candidateRequirements lib appid target now sources d native =
      .ok (architecture, minimum)) :
    architecture.source = some parserSource ∧ architecture.freshness =
      worstFreshness (declaredFreshness declaredAt now)
        (systemFreshness sources.system now systemFresh) := by
  unfold candidateRequirements at h
  simp only [hconflict, Bool.false_eq_true, if_false, hitem, hfacts, hobserved] at h
  obtain ⟨evaluated, hevaluated, h⟩ := bind_eq_ok.mp h
  cases h
  exact (candidateMinimum_eq_ok rfl hobserved hevaluated).1

end Rests

/-- What a candidate says of its sources. -/
structure Founded (lib : QueryLibrary) (target : CompatibilityTarget) (now : Instant)
    (sources : Sources) (appid : Int) (made : CompatibilityCandidate) : Prop where
  appid_eq : made.appid = appid
  review : made.exactTargetReview = none
  /-- The pieces of evidence, except for what was observed. -/
  rests : ∀ evidence ∈ [made.declaredNativeBuild, made.effectiveExecutionSupport,
      made.architecture, made.meetsMinimum, made.installed, made.owned] ++
      made.runtimeRisks.map (·.evidence) ++ made.features.map (·.support),
    Rests sources (declared lib sources.item sources.demand appid now) now
      (candidateConflict sources target (declared lib sources.item sources.demand appid now)) evidence
  /-- A conflict counts against the four gates of the declaration. -/
  conflicting : candidateConflict sources target
      (declared lib sources.item sources.demand appid now) = true →
    (∀ evidence ∈ [made.declaredNativeBuild, made.effectiveExecutionSupport, made.architecture,
        made.meetsMinimum], evidence.state = .unknown ∧ evidence.conflict = true) ∧
      made.runtimeRisks = [] ∧ made.features = []
  requirements : candidateRequirements lib appid target now sources
      (declared lib sources.item sources.demand appid now) made.declaredNativeBuild =
    .ok (made.architecture, made.meetsMinimum)
  installed : localEvidence lib sources.installed appid now true = .ok made.installed
  owned : localEvidence lib sources.owned appid now false = .ok made.owned

theorem check_eq_ok {raw made : CompatibilityCandidate} (h : raw.check = .ok made) :
    made = { raw with
      runtimeRisks := sortBy (·.name) raw.runtimeRisks
      features := sortBy (fun item => featureKey item.kind item.name) raw.features } := by
  unfold CompatibilityCandidate.check at h
  obtain ⟨_, -, h⟩ := bind_eq_ok.mp h
  obtain ⟨_, -, h⟩ := bind_eq_ok.mp h
  obtain ⟨_, -, h⟩ := bind_eq_ok.mp h
  exact (Except.ok.inj h).symm

theorem founded_of_candidate {sourcesOf : Int → Sources} {made : CompatibilityCandidate}
    (h : candidate lib target now sourcesOf appid = .ok made) :
    Founded lib target now (sourcesOf appid) appid made := by
  unfold candidate at h
  simp only at h
  generalize hdeclared : declared lib (sourcesOf appid).item (sourcesOf appid).demand appid now = d
    at h
  generalize hconflict : candidateConflict (sourcesOf appid) target d = c at h
  obtain ⟨native, hnative, h⟩ := bind_eq_ok.mp h
  obtain ⟨effective, heffective, h⟩ := bind_eq_ok.mp h
  obtain ⟨⟨architecture, minimum⟩, hrequirements, h⟩ := bind_eq_ok.mp h
  obtain ⟨features, hfeatures, h⟩ := bind_eq_ok.mp h
  obtain ⟨risks, hrisks, h⟩ := bind_eq_ok.mp h
  obtain ⟨experience, -, h⟩ := bind_eq_ok.mp h
  obtain ⟨installed, hinstalled, h⟩ := bind_eq_ok.mp h
  obtain ⟨owned, howned, h⟩ := bind_eq_ok.mp h
  obtain ⟨hnativeRests, hnativeConflict, hnativeFresh⟩ :
      Rests (sourcesOf appid) d now c native ∧ _ := native_eq_ok hnative
  obtain ⟨heffectiveRests, heffectiveSame⟩ :=
    effectiveExecution_eq_ok hnativeRests hnativeFresh heffective
  obtain ⟨hsame, harchitecture, hminimum⟩ :=
    candidateRequirements_eq_ok (by rw [hconflict]; exact hnativeRests) hrequirements
  rw [hconflict] at hsame harchitecture hminimum
  obtain ⟨hfeatureNone, hfeatureRests⟩ : _ ∧ ∀ item ∈ features,
      Rests (sourcesOf appid) d now c item.support := features_eq_ok hfeatures
  obtain ⟨hriskNone, hriskRests⟩ : _ ∧ ∀ item ∈ risks,
      Rests (sourcesOf appid) d now c item.evidence := risks_eq_ok hrisks
  have hmade := check_eq_ok h
  subst hmade
  refine ⟨rfl, rfl, ?_, ?_, ?_, hinstalled, howned⟩
  · rw [hdeclared, hconflict]
    intro evidence hevidence
    rcases List.mem_append.mp hevidence with hevidence | hevidence
    · rcases List.mem_append.mp hevidence with hevidence | hevidence
      · simp only [List.mem_cons, List.not_mem_nil, or_false] at hevidence
        rcases hevidence with rfl | rfl | rfl | rfl | rfl | rfl
        · exact hnativeRests
        · exact heffectiveRests
        · exact harchitecture
        · exact hminimum
        · exact localEvidence_eq_ok hinstalled
        · exact localEvidence_eq_ok howned
      · obtain ⟨risk, hrisk, rfl⟩ := List.mem_map.mp hevidence
        exact hriskRests risk (mem_sorted.mp hrisk)
    · obtain ⟨feature, hfeature, rfl⟩ := List.mem_map.mp hevidence
      exact hfeatureRests feature (mem_sorted.mp hfeature)
  · rw [hdeclared, hconflict]
    intro htrue
    have hboth := hnativeConflict htrue
    have heffective := heffectiveSame hboth.2
    obtain ⟨rfl, rfl⟩ := hsame htrue
    refine ⟨?_, ?_, ?_⟩
    · intro evidence hevidence
      simp only [List.mem_cons, List.not_mem_nil, or_false] at hevidence
      rcases hevidence with rfl | rfl | rfl | rfl
      · exact hboth
      · rw [heffective]
        exact hboth
      · exact hboth
      · exact hboth
    · show sortBy _ risks = []
      rw [hriskNone htrue]
      rfl
    · show sortBy _ features = []
      rw [hfeatureNone htrue]
      rfl
  · rw [hdeclared]
    exact hrequirements

/-! ## Results -/

theorem isReadiness_feature (kind : FeatureKind) (name : String) :
    isReadiness (kind.value ++ ":" ++ name) = false := by
  unfold isReadiness
  rw [String.toList_append, String.toList_append]
  cases kind <;> rfl

theorem not_isReadiness : ∀ name ∈ ["declared_native_build", "effective_execution_support",
    "architecture", "meets_minimum", "exact_target_review"], isReadiness name = false := by
  decide

/-- The source and the freshness of a gate are those of its evidence. -/
structure Shows (gate : GateResult) (evidence : PrimitiveEvidence) : Prop where
  original : gate.original = evidence.state
  source : gate.originalSource = evidence.source
  freshness : gate.originalFreshness = evidence.freshness
  conflict : gate.originalConflict = evidence.conflict
  /-- What counts is the evidence or an override. -/
  effective : gate.effectiveSource = evidence.source ∧ gate.effectiveFreshness = evidence.freshness ∨
    ∃ name, gate.effectiveSource = some ("query_override:" ++ name)

theorem shows_gateResult (gate : RawGate) (override : Option GateOverride) :
    Shows (gateResult gate override) gate.evidence := by
  cases override with
  | none => exact ⟨rfl, rfl, rfl, rfl, Or.inl ⟨rfl, rfl⟩⟩
  | some override => exact ⟨rfl, rfl, rfl, rfl, Or.inr ⟨override.name, rfl⟩⟩

section Gates

variable {made : CompatibilityCandidate} {requirements : List FeatureRequirement}
  {raw : List RawGate}

theorem rests_of_riskGate {risk : RuntimeRisk} {gate : RawGate}
    (hrests : Rests sources d now conflict risk.evidence)
    (h : riskGate lib.chars risk = .ok gate) : Rests sources d now conflict gate.evidence := by
  have hmade : ∀ {state : GateState} {condition : Option String},
      (riskEvidence risk state condition).make lib.chars = .ok gate.evidence →
        Rests sources d now conflict gate.evidence := by
    intro state condition hmake
    unfold Rests
    rw [source_of_make hmake, freshness_of_make hmake]
    exact hrests
  obtain ⟨-, ⟨-, -, -, hmake⟩ | ⟨-, -, -, hmake⟩ | ⟨-, -, hmake⟩ | ⟨-, -, hevidence⟩⟩ :=
    riskGate_cases h
  · exact hmade hmake
  · exact hmade hmake
  · exact hmade hmake
  · rw [hevidence]
    exact hrests

theorem rests_of_featureGate {items : List FeatureEvidence} {requirement : FeatureRequirement}
    {gate : RawGate} (hrests : ∀ item ∈ items, Rests sources d now conflict item.support)
    (h : featureGate lib.chars items requirement = .ok gate) :
    Rests sources d now conflict gate.evidence := by
  unfold featureGate at h
  obtain ⟨missing, hmissing, h⟩ := bind_eq_ok.mp h
  cases h
  show Rests sources d now conflict ((featureSupport items requirement).getD missing)
  unfold featureSupport
  cases hfind : items.find? fun item => item.kind = requirement.kind ∧
      item.name = requirement.name with
  | none => exact rests_unknown hmissing
  | some item => exact hrests item (List.mem_of_find?_eq_some hfind)

/-- The gates of a candidate rest on its sources. -/
theorem rests_of_rawGates (hfounded : Founded lib target now sources appid made)
    (h : rawGates lib.chars made target requirements = .ok raw) : ∀ gate ∈ raw,
    Rests sources (declared lib sources.item sources.demand appid now) now
      (candidateConflict sources target (declared lib sources.item sources.demand appid now))
      gate.evidence ∧
    (gate.name = "readiness:installed" → gate.evidence = made.installed) ∧
    (gate.name = "readiness:visible_owned" → gate.evidence = made.owned) := by
  intro gate hgate
  have hrests := hfounded.rests
  simp only [List.mem_append, List.mem_map] at hrests
  obtain ⟨review, risks, features, hreview, hrisks, hfeatures, rfl⟩ := rawGates_eq_ok h
  have hready : isReadiness gate.name = false →
      (gate.name = "readiness:installed" → gate.evidence = made.installed) ∧
      (gate.name = "readiness:visible_owned" → gate.evidence = made.owned) := by
    intro hfalse
    constructor
    · intro hname
      rw [hname] at hfalse
      exact absurd hfalse (by decide)
    · intro hname
      rw [hname] at hfalse
      exact absurd hfalse (by decide)
  rcases List.mem_append.mp hgate with hgate | hgate
  · rcases List.mem_append.mp hgate with hgate | hgate
    · simp only [fixedGates, List.mem_cons, List.not_mem_nil, or_false] at hgate
      rcases hgate with rfl | rfl | rfl | rfl | rfl | rfl | rfl
      · exact ⟨hrests _ (by simp), hready (not_isReadiness _ (by simp))⟩
      · exact ⟨hrests _ (by simp), hready (not_isReadiness _ (by simp))⟩
      · exact ⟨hrests _ (by simp), hready (not_isReadiness _ (by simp))⟩
      · exact ⟨hrests _ (by simp), hready (not_isReadiness _ (by simp))⟩
      · rw [hfounded.review] at hreview
        exact ⟨rests_unknown hreview, hready (not_isReadiness _ (by simp))⟩
      · refine ⟨hrests _ (by simp), fun _ => rfl, fun hname => ?_⟩
        have hne : "readiness:installed" ≠ "readiness:visible_owned" := by decide
        exact absurd hname hne
      · refine ⟨hrests _ (by simp), fun hname => ?_, fun _ => rfl⟩
        have hne : "readiness:visible_owned" ≠ "readiness:installed" := by decide
        exact absurd hname hne
    · obtain ⟨risk, hrisk, hrun⟩ := exists_of_mem_right hrisks hgate
      refine ⟨rests_of_riskGate (hrests _ (Or.inl (Or.inr ⟨risk, hrisk, rfl⟩))) hrun, hready ?_⟩
      rw [(riskGate_cases hrun).1]
      exact isReadiness_runtime risk.name
  · obtain ⟨requirement, -, hrun⟩ := exists_of_mem_right hfeatures hgate
    refine ⟨rests_of_featureGate (fun item hitem => hrests _ (Or.inr ⟨item, hitem, rfl⟩)) hrun,
      hready ?_⟩
    rw [(featureGate_eq_ok hrun).1]
    exact isReadiness_feature _ _

end Gates

/-- The candidate and the gates behind a result. -/
structure Explained (lib : QueryLibrary) (query : Query) (result : CompatibilityAssessment)
    (made : CompatibilityCandidate) (raw : List RawGate) : Prop where
  requested : result.appid ∈ query.requestedAppids
  founded : Founded lib query.target query.generatedAt.wholeSecond (query.sources result.appid)
    result.appid made
  gates : rawGates lib.chars made query.target
    (sortBy (fun item => featureKey item.kind item.name) query.requirements) = .ok raw
  result_eq : ∃ experience, result = assessGates made query.target experience
    (raw.map fun gate => gateResult gate
      ((query.overrides.filter (·.appid = result.appid)).find? (·.gate = gate.name)))

theorem candidateFor_mem {lib : CharLibrary} {target : CompatibilityTarget} {appid : Int}
    {candidates : List CompatibilityCandidate} {made other : CompatibilityCandidate}
    (hother : other ∈ candidates) (happid : other.appid = appid)
    (h : candidateFor lib target candidates appid = .ok made) :
    made ∈ candidates ∧ made.appid = appid := by
  obtain ⟨hsame, hmem | ⟨-, hnone⟩⟩ := candidateFor_cases h
  · exact ⟨hmem, hsame⟩
  · exact absurd happid (hnone other hother)

/-- Every requested AppID has a result, and every result an explanation. -/
theorem explained_of_reconstruct {query : Query} {result : CompatibilityQueryResult}
    (h : reconstructCompatibility lib query = .ok result) :
    result.completeness = reconstructionCompleteness lib query (sortBy id query.requestedAppids)
      query.generatedAt.wholeSecond ∧
    (∀ appid ∈ query.requestedAppids, ∃ a ∈ result.assessment.results, a.appid = appid) ∧
    ∀ a ∈ result.assessment.results, ∃ made raw, Explained lib query a made raw := by
  unfold reconstructCompatibility at h
  simp only at h
  obtain ⟨requested, hrequested, h⟩ := bind_eq_ok.mp h
  obtain ⟨_, -, h⟩ := bind_eq_ok.mp h
  obtain ⟨_, -, h⟩ := bind_eq_ok.mp h
  obtain ⟨_, -, h⟩ := bind_eq_ok.mp h
  obtain ⟨_, -, h⟩ := bind_eq_ok.mp h
  obtain ⟨_, -, h⟩ := bind_eq_ok.mp h
  obtain ⟨candidates, hcandidates, h⟩ := bind_eq_ok.mp h
  obtain ⟨batch, hbatch, h⟩ := bind_eq_ok.mp h
  cases h
  have hsorted : requested = sortBy id query.requestedAppids := by
    unfold requestedAppids at hrequested
    obtain ⟨_, -, hrequested⟩ := bind_eq_ok.mp hrequested
    obtain ⟨_, -, hrequested⟩ := bind_eq_ok.mp hrequested
    exact (Except.ok.inj hrequested).symm
  subst hsorted
  have hforall := mapM_eq_ok_iff.mp hcandidates
  obtain ⟨-, -, -, -, -, values, hvalues, rfl⟩ := assess_request_eq_ok.mp
    (show Request.assess lib.chars ⟨_, candidates, query.target, query.requirements,
      query.overrides⟩ = .ok batch from hbatch)
  have hresults := mapM_eq_ok_iff.mp hvalues
  have hexplained : ∀ {appid : Int} {a : CompatibilityAssessment},
      appid ∈ query.requestedAppids →
      (candidateFor lib.chars query.target candidates appid >>= assess lib.chars query.target
        (sortBy (fun item => featureKey item.kind item.name) query.requirements)
        (query.overrides.filter (·.appid = appid))) = .ok a →
      a.appid = appid ∧ ∃ made raw, Explained lib query a made raw := by
    intro appid a hmem hrun
    obtain ⟨made, hmade, hassess⟩ := bind_eq_ok.mp hrun
    obtain ⟨other, hother, hbuilt⟩ := exists_of_mem_left hforall (mem_sorted.mpr hmem)
    obtain ⟨hmade, hsame⟩ :=
      candidateFor_mem hother (founded_of_candidate hbuilt).appid_eq hmade
    obtain ⟨appid', -, hbuilt'⟩ := exists_of_mem_right hforall hmade
    have hfounded := founded_of_candidate hbuilt'
    have happid : appid' = appid := hfounded.appid_eq.symm.trans hsame
    rw [happid] at hfounded
    obtain ⟨raw, experience, hraw, rfl⟩ := assess_eq_ok hassess
    have hresult : made.appid = appid := hsame
    refine ⟨hresult, made, raw, ?_, ?_, hraw, experience, ?_⟩
    · show made.appid ∈ query.requestedAppids
      rw [hresult]
      exact hmem
    · show Founded lib query.target _ (query.sources made.appid) made.appid made
      rw [hresult]
      exact hfounded
    · show _ = assessGates made query.target experience (raw.map fun gate => gateResult gate
        ((query.overrides.filter (·.appid = made.appid)).find? (·.gate = gate.name)))
      rw [hresult]
  refine ⟨rfl, ?_, ?_⟩
  · intro appid hmem
    obtain ⟨a, ha, hrun⟩ := exists_of_mem_left hresults
      (mem_sorted.mpr (mem_sorted.mpr hmem))
    exact ⟨a, ha, (hexplained hmem hrun).1⟩
  · intro a ha
    obtain ⟨appid, hmem, hrun⟩ := exists_of_mem_right hresults ha
    exact (hexplained (mem_sorted.mp (mem_sorted.mp hmem)) hrun).2

end SteamAgent.Compatibility
