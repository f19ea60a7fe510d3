import SteamAgent.Compatibility.Provenance

/-!
# Evidence that a later attempt supersedes

Evidence counts as current until a later attempt at its source says otherwise.
An attempt that is known to have found nothing contradicts a declaration; one
that failed, or is not finished, makes what is retained stale.

The default evaluator judges the declared minimum by the age of the declaration
alone, and a running attempt at a declaration is not looked at, so this holds of
a query if and only if neither can be seen in it.

There are four groups.

* Which attempt is later.
* The law, for one result.
* The freshness of the sources.
* The result, and a query that breaks the law.
-/

namespace SteamAgent.Compatibility

open Choice (sortBy sortBy_perm)
open Datetime (Instant)
open Result (bind_eq_ok exists_of_mem_right)

/-! ## Later attempts -/

/-- An attempt is later than what is retained: by time, at one time by its run, and at one time
if the runs have no order and are not known to be the same. -/
def IsLater (attemptAt observedAt : Instant) (attemptId promotedId : Option Identity) : Prop :=
  observedAt < attemptAt ∨ observedAt = attemptAt ∧
    ¬ (Identity.same attemptId promotedId = true ∧ attemptId ≠ none) ∧
    ∀ attempt promoted, Identity.order attemptId = some attempt →
      Identity.order promotedId = some promoted → promoted < attempt

theorem Instant.trichotomy (a b : Instant) : a < b ∨ a = b ∨ b < a := by
  rcases lt_trichotomy a.us b.us with h | h | h
  · exact Or.inl h
  · exact Or.inr (Or.inl (Instant.ext_us h))
  · exact Or.inr (Or.inr h)

theorem Instant.lt_irrefl (a : Instant) : ¬ a < a :=
  Nat.lt_irrefl a.us

theorem Instant.lt_asymm {a b : Instant} (h : a < b) : ¬ b < a :=
  Nat.lt_asymm h

/-- `_incomplete_attempt_supersedes` asks for a later attempt that is not complete. -/
theorem supersedes_iff {observedAt latest : Instant} {promoted attempt : Option Identity}
    {status : AttemptStatus} (hstatus : status ≠ .complete) :
    incompleteAttemptSupersedes observedAt promoted (some latest) attempt (some status) = true ↔
      IsLater latest observedAt attempt promoted := by
  unfold incompleteAttemptSupersedes IsLater
  simp only [reduceCtorEq, Option.some.injEq, hstatus, or_self, if_false]
  rcases Instant.trichotomy observedAt latest with hlt | rfl | hgt
  · simp [hlt]
  · simp only [gt_iff_lt, Instant.lt_irrefl, if_false, false_or, true_and]
    split
    · rename_i hsame
      simp [hsame]
    · rename_i hsame
      cases hattempt : Identity.order attempt with
      | none => simpa using hsame
      | some a =>
        cases hpromoted : Identity.order promoted with
        | none => simpa using hsame
        | some p => simpa using fun _ => by simpa using hsame
  · have hne : observedAt ≠ latest := by
      rintro rfl
      exact Instant.lt_irrefl _ hgt
    simp [hgt, hne, Instant.lt_asymm hgt]

theorem attemptIsLater_iff {attemptAt observedAt : Instant} {attempt promoted : Option Int} :
    attemptIsLater attemptAt observedAt attempt promoted = true ↔
      IsLater attemptAt observedAt (attempt.map .num) (promoted.map .num) := by
  unfold attemptIsLater IsLater
  rcases Instant.trichotomy observedAt attemptAt with hlt | rfl | hgt
  · simp [hlt]
  · cases attempt with
    | none => simp [Instant.lt_irrefl, Identity.order]
    | some a =>
      cases promoted with
      | none => simp [Instant.lt_irrefl, Identity.same, Identity.order]
      | some p =>
        simp only [gt_iff_lt, Instant.lt_irrefl, decide_false, beq_self_eq_true, Bool.true_and,
          Bool.false_or, decide_eq_true_eq, Option.map_some, Identity.same, Identity.number,
          Identity.order, Option.isSome_some, Option.some.injEq, false_or, true_and, ne_eq,
          reduceCtorEq, not_false_eq_true, and_true, beq_iff_eq]
        constructor
        · intro hlt
          refine ⟨by omega, ?_⟩
          intro a' p' ha hp
          omega
        · intro h
          exact h.2 a p rfl rfl
  · have hne : attemptAt ≠ observedAt := by
      rintro rfl
      exact Instant.lt_irrefl _ hgt
    simp [hne, hne.symm, Instant.lt_asymm hgt]

/-- The freshness that an age alone gives. -/
def ageFreshness (observedAt now : Instant) (policy : Nat) (late : Freshness) : Freshness :=
  match age observedAt now with
  | none => .unknown
  | some age => if age ≤ policy then .fresh else late

namespace DeclaredDemand

/-- The answer, evaluated or cached, is that the AppID does not exist. -/
def AnswersNotFound (demand : DeclaredDemand) : Prop :=
  (demand.evaluated = true ∧ demand.state = some "not_found") ∨
    (demand.evaluated = false ∧ demand.errorCode = some "NOT_FOUND_CACHE")

/-- The attempt was evaluated without facts to show for it, or its target was
given up with an error. -/
structure Failed (demand : DeclaredDemand) : Prop where
  other : ¬demand.AnswersNotFound
  failed : (demand.evaluated = true ∧
      ∃ state, demand.state = some state ∧ state ≠ "ready" ∧ state ≠ "not_found") ∨
    (demand.targeted = true ∧ demand.evaluated = false ∧ demand.state = some "unevaluated" ∧
      demand.errorCode ≠ none)

/-- The attempt is not finished. -/
structure Running (demand : DeclaredDemand) : Prop where
  other : ¬demand.AnswersNotFound
  targeted : demand.targeted = true
  evaluated : demand.evaluated = false
  state : demand.state = some "running"

end DeclaredDemand

/-! ## The law -/

/-- The sources of evidence that is built from the declaration. -/
def declaredSources : List String :=
  [storeSource, layeredSource, parserSource]

/-- The sources of evidence that is built from the system profile. -/
def systemSources : List String :=
  [layeredSource, parserSource]

/-- The gates that are built from the declaration whatever it says. -/
def declaredGates : List String :=
  ["declared_native_build", "effective_execution_support", "architecture", "meets_minimum"]

/-- No gate with one of the sources is fresh. -/
def NoneFresh (a : CompatibilityAssessment) (names : List String) : Prop :=
  ∀ gate ∈ a.gates, ∀ name ∈ names,
    (gate.originalSource = some name → gate.originalFreshness ≠ .fresh) ∧
    (gate.effectiveSource = some name → gate.effectiveFreshness ≠ .fresh)

/-- A capability is stale for an AppID. -/
def StaleFor (result : CompatibilityQueryResult) (appid : Int) (name : String) : Prop :=
  ∃ gaps ∈ result.completeness.subjects, gaps.appid = appid ∧ name ∈ gaps.stale

/-- A capability is listed as stale, for an AppID and for the query. -/
def Listed (result : CompatibilityQueryResult) (appid : Int) (name : String) : Prop :=
  StaleFor result appid name ∧ name ∈ result.completeness.staleCapabilities

/-- The facts that are retained for an AppID, and the time they were observed at. -/
structure Retained (lib : QueryLibrary) (sources : Sources) (item : DeclaredItem)
    (facts : List (String × JsonValue)) (demand : DeclaredDemand) : Prop where
  item_eq : sources.item = some item
  facts_eq : item.facts = .obj facts
  demand_eq : sources.demand = some demand

/-- An attempt at the declaration that failed or is not finished. -/
structure DeclaredAttempt (lib : QueryLibrary) (sources : Sources) (appid : Int)
    (item : DeclaredItem) (facts : List (String × JsonValue)) (demand : DeclaredDemand)
    (observedAt attemptAt : Instant) : Prop extends Retained lib sources item facts demand where
  /-- The facts are about the AppID. -/
  appid_eq : isAppid (field facts "appid") appid = true
  incomplete : demand.Failed ∨ demand.Running
  attempted : demand.failedAt lib = some attemptAt
  observed : parseTime lib item.observedAt = some observedAt

/-- The attempt is later than the facts. -/
def DeclaredIsLater (item : DeclaredItem) (demand : DeclaredDemand)
    (observedAt attemptAt : Instant) : Prop :=
  IsLater attemptAt observedAt (demand.syncRunId.map .num) (item.promotedSyncRunId.map .num)

/-- An attempt at the system profile that is not complete. -/
structure SystemAttempt (query : Query) (system : SystemSnapshot) (observedAt attemptAt : Instant) :
    Prop where
  system_eq : query.system = some system
  profile : system.profile ≠ none
  observed : system.observedAt = some observedAt
  attempted : system.latestAttemptAt = some attemptAt
  incomplete : ∃ status, system.latestAttemptStatus = some status ∧ status ≠ .complete

/-- The observation of a local source. -/
def Sources.locally (sources : Sources) (installedKind : Bool) : Option LocalObservation :=
  if installedKind then sources.installed else sources.owned

/-- An attempt at a local source that is not complete. -/
structure LocalAttempt (sources : Sources) (installedKind : Bool) (value : LocalObservation)
    (observedAt attemptAt : Instant) : Prop where
  value_eq : sources.locally installedKind = some value
  observed : value.observedAt = some observedAt
  attempted : value.latestAttemptAt = some attemptAt
  incomplete : ∃ status, value.latestAttemptStatus = some status ∧ status ≠ .complete

def localGate (installedKind : Bool) : String :=
  if installedKind then "readiness:installed" else "readiness:visible_owned"

def localCapability (installedKind : Bool) : String :=
  if installedKind then installedCapability else ownedCapability

/-- The freshness that its age alone gives an observation.  One that could not tell is never
fresh. -/
def localAgeFreshness (value : LocalObservation) (observedAt now : Instant) (installedKind : Bool) :
    Freshness :=
  if value.presence = .unknown then if (age observedAt now).isNone then .unknown else .stale
  else ageFreshness observedAt now (localPolicy installedKind) .stale

/-- Superseded evidence does not count as current, and other evidence is as fresh as its age says. -/
structure NeverCurrent (lib : QueryLibrary) (query : Query) (result : CompatibilityQueryResult)
    (a : CompatibilityAssessment) : Prop where
  /-- A later `not_found` contradicts the declaration. -/
  contradicted : ∀ item facts demand demandAt,
    Retained lib (query.sources a.appid) item facts demand → demand.AnswersNotFound →
    parseTime lib demand.observedAt = some demandAt →
    (∀ observedAt, parseTime lib item.observedAt = some observedAt → observedAt ≤ demandAt) →
    (∀ gate ∈ a.gates, (gate.name ∈ declaredGates ∨
        ∃ name ∈ declaredSources, gate.originalSource = some name) →
      gate.original = .unknown ∧ gate.originalConflict = true) ∧
    (∃ gaps ∈ result.completeness.subjects, gaps.appid = a.appid ∧
      declaredCapability ∈ gaps.conflicts) ∧
    ((∀ override ∈ query.overrides, override.appid ≠ a.appid) →
      a.compatibility ≠ .compatible ∧ a.compatibility ≠ .conditional)
  declaredLater : ∀ item facts demand observedAt attemptAt,
    DeclaredAttempt lib (query.sources a.appid) a.appid item facts demand observedAt attemptAt →
    DeclaredIsLater item demand observedAt attemptAt →
    NoneFresh a declaredSources ∧ Listed result a.appid declaredCapability
  declaredKept : ∀ item facts demand observedAt attemptAt,
    DeclaredAttempt lib (query.sources a.appid) a.appid item facts demand observedAt attemptAt →
    ¬ DeclaredIsLater item demand observedAt attemptAt →
    (∀ gate ∈ a.gates, gate.originalSource = some storeSource →
      gate.originalFreshness = declaredFreshness observedAt query.generatedAt.wholeSecond) ∧
    (StaleFor result a.appid declaredCapability ↔
      declaredFreshness observedAt query.generatedAt.wholeSecond ≠ .fresh)
  systemLater : ∀ system observedAt attemptAt, SystemAttempt query system observedAt attemptAt →
    IsLater attemptAt observedAt system.latestAttemptId system.promotedSyncRunId →
    NoneFresh a systemSources ∧ Listed result a.appid systemCapability
  systemKept : ∀ system observedAt attemptAt, SystemAttempt query system observedAt attemptAt →
    ¬ IsLater attemptAt observedAt system.latestAttemptId system.promotedSyncRunId →
    (∀ policy, systemFreshness query.system query.generatedAt.wholeSecond policy =
      ageFreshness observedAt query.generatedAt.wholeSecond policy .expired) ∧
    (StaleFor result a.appid systemCapability ↔
      ageFreshness observedAt query.generatedAt.wholeSecond systemFresh .expired ≠ .fresh)
  localLater : ∀ installedKind value observedAt attemptAt,
    LocalAttempt (query.sources a.appid) installedKind value observedAt attemptAt →
    IsLater attemptAt observedAt value.latestAttemptId value.promotedSyncRunId →
    (∀ gate ∈ a.gates, gate.name = localGate installedKind → gate.originalFreshness ≠ .fresh) ∧
    Listed result a.appid (localCapability installedKind)
  localKept : ∀ installedKind value observedAt attemptAt,
    LocalAttempt (query.sources a.appid) installedKind value observedAt attemptAt →
    ¬ IsLater attemptAt observedAt value.latestAttemptId value.promotedSyncRunId →
    (∀ gate ∈ a.gates, gate.name = localGate installedKind → gate.originalFreshness =
      localAgeFreshness value observedAt query.generatedAt.wholeSecond installedKind) ∧
    (StaleFor result a.appid (localCapability installedKind) ↔
      ageFreshness observedAt query.generatedAt.wholeSecond (localPolicy installedKind) .stale ≠
        .fresh)

/-! ## The freshness of the sources -/

section Freshness

variable {lib : QueryLibrary} {query : Query} {result : CompatibilityQueryResult}
  {a : CompatibilityAssessment} {now observedAt attemptAt : Instant} {policy : Nat}

theorem combinedFreshness_eq_fresh {a b : Freshness} :
    combinedFreshness a b = .fresh ↔ a = .fresh ∧ b = .fresh := by
  cases a <;> cases b <;> decide

theorem worstFreshness_eq_fresh {a b : Freshness} :
    worstFreshness a b = .fresh ↔ a = .fresh ∧ b = .fresh := by
  cases a <;> cases b <;> decide

theorem declaredFreshness_eq_fresh : declaredFreshness observedAt now = .fresh ↔
    ¬ now < observedAt ∧ now.us - observedAt.us ≤ declaredFresh := by
  unfold declaredFreshness age
  by_cases hfuture : now < observedAt
  · simp [hfuture]
  · by_cases hpolicy : now.us - observedAt.us ≤ declaredFresh
    · simp [hfuture, hpolicy]
    · simp only [hfuture, if_false, hpolicy, not_false_eq_true, and_false, iff_false]
      split <;> nofun

theorem systemFreshness_later {system : SystemSnapshot}
    (h : SystemAttempt query system observedAt attemptAt)
    (hlater : IsLater attemptAt observedAt system.latestAttemptId system.promotedSyncRunId) :
    systemFreshness query.system now policy ≠ .fresh := by
  obtain ⟨status, hstatus, hincomplete⟩ := h.incomplete
  have hsuperseded : system.superseded observedAt = true := by
    unfold SystemSnapshot.superseded
    rw [h.attempted, hstatus]
    exact (supersedes_iff hincomplete).mpr hlater
  unfold systemFreshness
  simp only [h.system_eq, h.observed, hsuperseded, if_true]
  split
  · intro h
    cases h
  · split
    · intro h
      cases h
    · intro h
      cases h

theorem systemFreshness_kept {system : SystemSnapshot}
    (h : SystemAttempt query system observedAt attemptAt)
    (hkept : ¬ IsLater attemptAt observedAt system.latestAttemptId system.promotedSyncRunId) :
    systemFreshness query.system now policy = ageFreshness observedAt now policy .expired := by
  obtain ⟨status, hstatus, hincomplete⟩ := h.incomplete
  have hsuperseded : system.superseded observedAt = false := by
    unfold SystemSnapshot.superseded
    rw [h.attempted, hstatus]
    exact Bool.eq_false_iff.mpr fun htrue => hkept ((supersedes_iff hincomplete).mp htrue)
  unfold systemFreshness ageFreshness
  rw [h.system_eq]
  dsimp only
  rw [h.observed]
  dsimp only
  rw [hsuperseded]
  cases age observedAt now <;> rfl

theorem systemFreshness_mono {system : Option SystemSnapshot} {policy' : Nat}
    (hpolicy : policy ≤ policy') (h : systemFreshness system now policy = .fresh) :
    systemFreshness system now policy' = .fresh := by
  unfold systemFreshness at h ⊢
  split at h
  · cases h
  · split at h
    · cases h
    · split at h
      · cases h
      · rename_i system _ _ _ _ _ _ hage
        split at h
        · rename_i hle
          rw [if_pos (Nat.le_trans hle hpolicy)]
          exact h
        · cases h

theorem localFreshness_later {sources : Sources} {installedKind : Bool} {value : LocalObservation}
    (h : LocalAttempt sources installedKind value observedAt attemptAt)
    (hlater : IsLater attemptAt observedAt value.latestAttemptId value.promotedSyncRunId) :
    localFreshness (some value) now installedKind ≠ .fresh := by
  obtain ⟨status, hstatus, hincomplete⟩ := h.incomplete
  have hsuperseded : value.superseded observedAt = true := by
    unfold LocalObservation.superseded
    rw [h.attempted, hstatus]
    exact (supersedes_iff hincomplete).mpr hlater
  unfold localFreshness
  simp only [h.observed, hsuperseded, if_true]
  split
  · intro hfresh
    cases hfresh
  · intro hfresh
    cases hfresh

theorem localFreshness_kept {sources : Sources} {installedKind : Bool} {value : LocalObservation}
    (h : LocalAttempt sources installedKind value observedAt attemptAt)
    (hkept : ¬ IsLater attemptAt observedAt value.latestAttemptId value.promotedSyncRunId) :
    localFreshness (some value) now installedKind =
      ageFreshness observedAt now (localPolicy installedKind) .stale := by
  obtain ⟨status, hstatus, hincomplete⟩ := h.incomplete
  have hsuperseded : value.superseded observedAt = false := by
    unfold LocalObservation.superseded
    rw [h.attempted, hstatus]
    exact Bool.eq_false_iff.mpr fun htrue => hkept ((supersedes_iff hincomplete).mp htrue)
  unfold localFreshness ageFreshness
  dsimp only
  rw [h.observed]
  dsimp only
  rw [hsuperseded]
  cases age observedAt now <;> rfl

end Freshness

/-! ## What is listed -/

section Listing

variable {lib : QueryLibrary} {query : Query} {result : CompatibilityQueryResult} {appid : Int}
  {now : Instant} {sourcesOf : Int → Sources} {name : String}

theorem mem_sortedSet {values : List String} : name ∈ sortedSet values ↔ name ∈ values := by
  unfold sortedSet
  rw [mem_sorted, List.mem_dedup]

theorem mem_naming {p : Prop} [Decidable p] {other : String} :
    name ∈ naming p other ↔ p ∧ name = other := by
  unfold naming
  split <;> simp_all

theorem mem_stale_declared : declaredCapability ∈ (subjectGaps lib now sourcesOf appid).stale ↔
    (declared lib (sourcesOf appid).item (sourcesOf appid).demand appid now).facts ≠ none ∧
    (declared lib (sourcesOf appid).item (sourcesOf appid).demand appid now).conflict = false ∧
    (declared lib (sourcesOf appid).item (sourcesOf appid).demand appid now).freshness ≠ .fresh := by
  have hsystem : declaredCapability ≠ systemCapability := by decide
  have hinstalled : declaredCapability ≠ installedCapability := by decide
  have howned : declaredCapability ≠ ownedCapability := by decide
  unfold subjectGaps
  simp only [mem_sortedSet, List.mem_append, mem_naming, hsystem, hinstalled, howned, and_false,
    false_or, or_false, and_true]

theorem mem_stale_system : systemCapability ∈ (subjectGaps lib now sourcesOf appid).stale ↔
    systemMissing (sourcesOf appid).system = false ∧
      systemFreshness (sourcesOf appid).system now systemFresh ≠ .fresh := by
  have hdeclared : systemCapability ≠ declaredCapability := by decide
  have hinstalled : systemCapability ≠ installedCapability := by decide
  have howned : systemCapability ≠ ownedCapability := by decide
  unfold subjectGaps
  simp only [mem_sortedSet, List.mem_append, mem_naming, hdeclared, hinstalled, howned, and_false,
    or_false, and_true]

theorem mem_stale_local {installedKind : Bool} :
    localCapability installedKind ∈ (subjectGaps lib now sourcesOf appid).stale ↔
      localMissing ((sourcesOf appid).locally installedKind) = false ∧
        localFreshness ((sourcesOf appid).locally installedKind) now installedKind ≠ .fresh := by
  cases installedKind with
  | true =>
    have hsystem : installedCapability ≠ systemCapability := by decide
    have hdeclared : installedCapability ≠ declaredCapability := by decide
    have howned : installedCapability ≠ ownedCapability := by decide
    show installedCapability ∈ _ ↔ localMissing (sourcesOf appid).installed = false ∧
      localFreshness (sourcesOf appid).installed now true ≠ .fresh
    unfold subjectGaps
    simp only [mem_sortedSet, List.mem_append, mem_naming, hsystem, hdeclared, howned, and_false,
      false_or, or_false, and_true]
  | false =>
    have hsystem : ownedCapability ≠ systemCapability := by decide
    have hdeclared : ownedCapability ≠ declaredCapability := by decide
    have hinstalled : ownedCapability ≠ installedCapability := by decide
    show ownedCapability ∈ _ ↔ localMissing (sourcesOf appid).owned = false ∧
      localFreshness (sourcesOf appid).owned now false ≠ .fresh
    unfold subjectGaps
    simp only [mem_sortedSet, List.mem_append, mem_naming, hsystem, hdeclared, hinstalled,
      and_false, false_or, and_true]

/-- The report of a query, as `explained_of_reconstruct` gives it. -/
def IsReport (lib : QueryLibrary) (query : Query) (result : CompatibilityQueryResult) : Prop :=
  result.completeness = reconstructionCompleteness lib query (sortBy id query.requestedAppids)
    query.generatedAt.wholeSecond

theorem mem_subjects (hreport : IsReport lib query result) {gaps : SubjectSourceGaps} :
    gaps ∈ result.completeness.subjects ↔ ∃ appid ∈ query.requestedAppids,
      subjectGaps lib query.generatedAt.wholeSecond query.sources appid = gaps := by
  rw [hreport]
  show gaps ∈ (sortBy id query.requestedAppids).map _ ↔ _
  rw [List.mem_map]
  simp only [mem_sorted]

theorem staleFor_iff (hreport : IsReport lib query result) (hmem : appid ∈ query.requestedAppids) :
    StaleFor result appid name ↔
      name ∈ (subjectGaps lib query.generatedAt.wholeSecond query.sources appid).stale := by
  constructor
  · rintro ⟨gaps, hgaps, happid, hname⟩
    obtain ⟨appid', -, rfl⟩ := (mem_subjects hreport).mp hgaps
    have hsame : appid' = appid := happid
    rw [← hsame]
    exact hname
  · intro hname
    exact ⟨_, (mem_subjects hreport).mpr ⟨appid, hmem, rfl⟩, rfl, hname⟩

/-- What is stale for an AppID is stale for the query. -/
theorem listed_of_staleFor (hreport : IsReport lib query result)
    (hname : name ∈ [declaredCapability, installedCapability, ownedCapability])
    (hstale : StaleFor result appid name) : Listed result appid name := by
  refine ⟨hstale, ?_⟩
  obtain ⟨gaps, hgaps, -, hmem⟩ := hstale
  rw [hreport] at hgaps ⊢
  show name ∈ sortedSet _
  rw [mem_sortedSet, List.mem_append]
  right
  refine List.mem_filter.mpr ⟨hname, List.any_eq_true.mpr ⟨gaps, hgaps, ?_⟩⟩
  rw [Bool.or_eq_true]
  left
  exact List.contains_iff_mem.mpr hmem

theorem listed_system (hreport : IsReport lib query result) (hmem : appid ∈ query.requestedAppids)
    (hmissing : systemMissing query.system = false)
    (hfresh : systemFreshness query.system query.generatedAt.wholeSecond systemFresh ≠ .fresh) :
    Listed result appid systemCapability := by
  refine ⟨(staleFor_iff hreport hmem).mpr (mem_stale_system.mpr ⟨hmissing, hfresh⟩), ?_⟩
  rw [hreport]
  show systemCapability ∈ sortedSet _
  rw [mem_sortedSet, List.mem_append]
  left
  exact mem_naming.mpr ⟨⟨hmissing, hfresh⟩, rfl⟩

end Listing

/-! ## One result -/

section Result

variable {lib : QueryLibrary} {query : Query} {result : CompatibilityQueryResult}
  {a : CompatibilityAssessment} {made : CompatibilityCandidate} {raw : List RawGate}

/-- What the declaration of a result says. -/
def declaredOf (lib : QueryLibrary) (query : Query) (appid : Int) : Declared :=
  declared lib (query.sources appid).item (query.sources appid).demand appid
    query.generatedAt.wholeSecond

/-- The conflict of the candidate of a result. -/
def conflictOf (lib : QueryLibrary) (query : Query) (appid : Int) : Bool :=
  candidateConflict (query.sources appid) query.target (declaredOf lib query appid)

/-- The sources behind the evidence of a result. -/
abbrev RestsFor (lib : QueryLibrary) (query : Query) (appid : Int) : Option String → Freshness → Prop :=
  RestsOn (query.sources appid) (declaredOf lib query appid) query.generatedAt.wholeSecond
    (conflictOf lib query appid)

theorem gate_of_mem (h : Explained lib query a made raw) {gate : GateResult} (hgate : gate ∈ a.gates) :
    ∃ rawGate ∈ raw, gate.name = rawGate.name ∧ gate.mandatory = rawGate.mandatory ∧
      Shows gate rawGate.evidence ∧
      RestsFor lib query a.appid gate.originalSource gate.originalFreshness := by
  obtain ⟨experience, hresult⟩ := h.result_eq
  rw [hresult] at hgate
  obtain ⟨rawGate, hmem, rfl⟩ := List.mem_map.mp hgate
  have hshows := shows_gateResult rawGate
    ((query.overrides.filter (·.appid = a.appid)).find? (·.gate = rawGate.name))
  refine ⟨rawGate, hmem, gateResult_name, gateResult_mandatory, hshows, ?_⟩
  rw [hshows.source, hshows.freshness]
  exact (rests_of_rawGates h.founded h.gates rawGate hmem).1

theorem override_ne {name other : String} (h : name ∈ declaredSources) :
    "query_override:" ++ other ≠ name := by
  intro heq
  have hhead : ("query_override:" ++ other).toList.head? = some 'q' := by
    rw [String.toList_append]
    rfl
  rw [heq] at hhead
  simp only [declaredSources, List.mem_cons, List.not_mem_nil, or_false] at h
  rcases h with rfl | rfl | rfl <;> exact absurd hhead (by decide)

/-- No gate is fresh if nothing that its evidence rests on is. -/
theorem noneFresh_of_rests (h : Explained lib query a made raw) {names : List String}
    (hnames : ∀ name ∈ names, name ∈ declaredSources)
    (hfresh : ∀ name ∈ names, ¬ RestsFor lib query a.appid (some name) .fresh) :
    NoneFresh a names := by
  intro gate hgate name hname
  obtain ⟨rawGate, -, -, -, hshows, hrests⟩ := gate_of_mem h hgate
  have horiginal : gate.originalSource = some name → gate.originalFreshness ≠ .fresh := by
    intro hsource hcontra
    rw [hsource, hcontra] at hrests
    exact hfresh name hname hrests
  refine ⟨horiginal, ?_⟩
  intro hsource
  rcases hshows.effective with ⟨hsame, heffective⟩ | ⟨override, hoverride⟩
  · rw [heffective, ← hshows.freshness]
    exact horiginal (hshows.source.trans (hsame.symm.trans hsource))
  · rw [hoverride] at hsource
    exact absurd (Option.some.inj hsource) (override_ne (hnames name hname))

/-- Evidence from the store is as fresh as the declaration. -/
theorem restsFor_store {freshness : Freshness}
    (h : RestsFor lib query a.appid (some storeSource) freshness) :
    freshness = (declaredOf lib query a.appid).freshness := by
  generalize hname : some storeSource = name at h
  cases h with
  | nothing => cases hname
  | store => rfl
  | layered => exact absurd (Option.some.inj hname) (by decide)
  | parser => exact absurd (Option.some.inj hname) (by decide)
  | observed source => cases source <;> exact absurd (Option.some.inj hname) (by decide)

theorem restsFor_layered {freshness : Freshness}
    (h : RestsFor lib query a.appid (some layeredSource) freshness) (hfresh : freshness = .fresh) :
    (declaredOf lib query a.appid).freshness = .fresh ∧
      systemFreshness query.system query.generatedAt.wholeSecond systemFresh = .fresh := by
  generalize hname : some layeredSource = name at h
  cases h with
  | nothing => cases hname
  | store => exact absurd (Option.some.inj hname) (by decide)
  | layered => exact combinedFreshness_eq_fresh.mp hfresh
  | parser => exact absurd (Option.some.inj hname) (by decide)
  | observed source => cases source <;> exact absurd (Option.some.inj hname) (by decide)

theorem restsFor_parserField {freshness : Freshness}
    (h : RestsFor lib query a.appid (some parserSource) freshness) (hfresh : freshness = .fresh) :
    conflictOf lib query a.appid = false ∧
      (∃ observedAt, (declaredOf lib query a.appid).observedAt = some observedAt ∧
        declaredFreshness observedAt query.generatedAt.wholeSecond = .fresh) ∧
      systemFreshness query.system query.generatedAt.wholeSecond systemFresh = .fresh := by
  generalize hname : some parserSource = name at h
  cases h with
  | nothing => cases hname
  | store => exact absurd (Option.some.inj hname) (by decide)
  | layered => exact absurd (Option.some.inj hname) (by decide)
  | parser hconflict hobserved hpolicy =>
    obtain ⟨hdeclared, hsystem⟩ := worstFreshness_eq_fresh.mp hfresh
    exact ⟨hconflict, ⟨_, hobserved, hdeclared⟩, systemFreshness_mono hpolicy hsystem⟩
  | observed source => cases source <;> exact absurd (Option.some.inj hname) (by decide)

/-- The gate of a local source shows the observation. -/
theorem freshness_of_localGate (h : Explained lib query a made raw) {installedKind : Bool}
    {value : LocalObservation} {observedAt : Instant}
    (hvalue : (query.sources a.appid).locally installedKind = some value)
    (hobserved : value.observedAt = some observedAt) {gate : GateResult} (hgate : gate ∈ a.gates)
    (hname : gate.name = localGate installedKind) : gate.originalFreshness =
      observedFreshness value observedAt query.generatedAt.wholeSecond installedKind := by
  obtain ⟨rawGate, hmem, hraw, -, hshows, -⟩ := gate_of_mem h hgate
  obtain ⟨-, hinstalled, howned⟩ := rests_of_rawGates h.founded h.gates rawGate hmem
  rw [hshows.freshness]
  cases installedKind with
  | true =>
    have hlocal := h.founded.installed
    have hsame : (query.sources a.appid).installed = some value := hvalue
    rw [hinstalled (hraw.symm.trans hname)]
    rw [hsame] at hlocal
    exact freshness_of_localEvidence hobserved hlocal
  | false =>
    have hlocal := h.founded.owned
    have hsame : (query.sources a.appid).owned = some value := hvalue
    rw [howned (hraw.symm.trans hname)]
    rw [hsame] at hlocal
    exact freshness_of_localEvidence hobserved hlocal

end Result

/-! ## Declarations -/

section Attempt

variable {lib : QueryLibrary} {query : Query} {appid : Int} {item : DeclaredItem}
  {facts : List (String × JsonValue)} {demand : DeclaredDemand} {observedAt attemptAt : Instant}

theorem declaredOf_eq (h : Retained lib (query.sources appid) item facts demand) :
    declaredOf lib query appid =
      declaredOfFacts lib item (some demand) appid query.generatedAt.wholeSecond facts := by
  unfold declaredOf declared
  rw [h.item_eq, h.demand_eq]
  simp only [h.facts_eq]

theorem notFound_iff : demand.notFound = true ↔ demand.AnswersNotFound := by
  unfold DeclaredDemand.notFound DeclaredDemand.cachedNotFound DeclaredDemand.AnswersNotFound
  simp

theorem supersedingFailure_iff : demand.supersedingFailure = true ↔ demand.Failed := by
  have hother : (!demand.notFound) = true ↔ ¬demand.AnswersNotFound := by
    rw [← notFound_iff, Bool.not_eq_true', Bool.not_eq_true]
  have hstate : (!([none, some "ready", some "not_found"].contains demand.state)) = true ↔
      ∃ state, demand.state = some state ∧ state ≠ "ready" ∧ state ≠ "not_found" := by
    cases demand.state <;> simp
  unfold DeclaredDemand.supersedingFailure
  rw [Bool.and_eq_true, hother, Bool.or_eq_true, Bool.and_eq_true, hstate]
  simp only [Bool.and_eq_true, Bool.not_eq_true', beq_iff_eq, Option.isSome_iff_ne_none, and_assoc]
  exact ⟨fun h => ⟨h.1, h.2⟩, fun h => ⟨h.other, h.failed⟩⟩

theorem notFound_of_incomplete (h : demand.Failed ∨ demand.Running) : demand.notFound = false := by
  rw [← Bool.not_eq_true, notFound_iff]
  exact h.elim (·.other) (·.other)

theorem not_failed_of_running (h : demand.Running) : ¬demand.Failed := by
  intro hfailed
  rcases hfailed.failed with ⟨hevaluated, -⟩ | ⟨-, -, hstate, -⟩
  · exact absurd (hevaluated.symm.trans h.evaluated) (by decide)
  · exact absurd (hstate.symm.trans h.state) (by decide)

/-- A failed attempt is looked at, a running one is not. -/
theorem failedLater_iff
    (h : DeclaredAttempt lib (query.sources appid) appid item facts demand observedAt attemptAt) :
    failedLater lib item (some demand) (parseTime lib item.observedAt) = true ↔
      demand.Failed ∧ DeclaredIsLater item demand observedAt attemptAt := by
  unfold failedLater DeclaredIsLater
  simp only [h.observed, h.attempted, Bool.and_eq_true, supersedingFailure_iff,
    attemptIsLater_iff]

theorem declaredOf_attempt
    (h : DeclaredAttempt lib (query.sources appid) appid item facts demand observedAt attemptAt) :
    (declaredOf lib query appid).facts ≠ none ∧ (declaredOf lib query appid).conflict = false ∧
      (declaredOf lib query appid).observedAt = some observedAt := by
  rw [declaredOf_eq h.toRetained]
  refine ⟨nofun, ?_, h.observed⟩
  show (!isAppid (field facts "appid") appid || contradicts lib (some demand) _) = false
  unfold contradicts
  rw [h.appid_eq]
  simp only [notFound_of_incomplete h.incomplete]
  rfl

theorem freshness_declaredOfFacts {demand : Option DeclaredDemand} {now : Instant}
    (h : parseTime lib item.observedAt = some observedAt) :
    (declaredOfFacts lib item demand appid now facts).freshness =
      if failedLater lib item demand (some observedAt) = true ∧
        declaredFreshness observedAt now = .fresh then .stale
      else declaredFreshness observedAt now := by
  unfold declaredOfFacts
  rw [h]
  rfl

/-- A later failure takes away that facts are fresh, and nothing else. -/
theorem stale_if_failed {failed : Bool} {freshness : Freshness} :
    (failed = true → (if failed = true ∧ freshness = .fresh then Freshness.stale else freshness) ≠
      .fresh) ∧
    (¬ failed = true → (if failed = true ∧ freshness = .fresh then Freshness.stale else freshness) =
      freshness) := by
  cases failed <;> cases freshness <;> decide

theorem freshness_of_attempt
    (h : DeclaredAttempt lib (query.sources appid) appid item facts demand observedAt attemptAt) :
    (demand.Failed ∧ DeclaredIsLater item demand observedAt attemptAt →
      (declaredOf lib query appid).freshness ≠ .fresh) ∧
    (¬ (demand.Failed ∧ DeclaredIsLater item demand observedAt attemptAt) →
      (declaredOf lib query appid).freshness =
        declaredFreshness observedAt query.generatedAt.wholeSecond) := by
  rw [declaredOf_eq h.toRetained, ← failedLater_iff h, freshness_declaredOfFacts h.observed,
    h.observed]
  exact stale_if_failed

/-- The machine of the profile is the target, and runs its platform. -/
def TargetAgrees (query : Query) : Prop :=
  (query.target.kind = .machine → ∀ system, query.system = some system →
    system.targetKey = query.target.key) ∧
  (targetPlatform query.system query.target).2 = false

theorem conflictOf_eq_false (h : (declaredOf lib query appid).conflict = false) :
    conflictOf lib query appid = false ↔ TargetAgrees query := by
  unfold conflictOf candidateConflict TargetAgrees
  rw [h, Bool.or_false, Bool.or_eq_false_iff]
  refine and_congr_left fun _ => ?_
  rw [show (query.sources appid).system = query.system from rfl]
  cases query.target.kind with
  | machine =>
    cases query.system with
    | none => simp
    | some system => simp
  | valveDeck => simp

/-- The system profile counts as current up to an age. -/
def CurrentWithin (system : Option SystemSnapshot) (now : Instant) (policy : Nat) : Prop :=
  ∃ snapshot observedAt, system = some snapshot ∧ snapshot.observedAt = some observedAt ∧
    ¬ now < observedAt ∧ now.us - observedAt.us ≤ policy ∧
    ∀ attemptAt status, snapshot.latestAttemptAt = some attemptAt →
      snapshot.latestAttemptStatus = some status → status ≠ .complete →
      ¬ IsLater attemptAt observedAt snapshot.latestAttemptId snapshot.promotedSyncRunId

/-- The system profile counts as current. -/
def SystemCurrent (query : Query) : Prop :=
  CurrentWithin query.system query.generatedAt.wholeSecond systemFresh

theorem superseded_eq_false {system : SystemSnapshot} :
    system.superseded observedAt = false ↔ ∀ attemptAt status,
      system.latestAttemptAt = some attemptAt → system.latestAttemptStatus = some status →
      status ≠ .complete →
      ¬ IsLater attemptAt observedAt system.latestAttemptId system.promotedSyncRunId := by
  unfold SystemSnapshot.superseded
  cases hattempt : system.latestAttemptAt with
  | none => exact ⟨fun _ _ _ h => (nomatch h), fun _ => rfl⟩
  | some attemptAt =>
    cases hstatus : system.latestAttemptStatus with
    | none => exact ⟨fun _ _ _ _ h => (nomatch h), fun _ => rfl⟩
    | some status =>
      by_cases hcomplete : status = .complete
      · subst hcomplete
        constructor
        · intro _ _ _ _ hsame hne
          exact absurd (Option.some.inj hsame).symm hne
        · intro _
          rfl
      · rw [← Bool.not_eq_true, supersedes_iff hcomplete]
        constructor
        · intro hkept _ _ hsame hsame' _
          cases hsame
          exact hkept
        · intro hkept
          exact hkept attemptAt status rfl rfl hcomplete

theorem systemFreshness_eq_fresh {system : Option SystemSnapshot} {now : Instant} {policy : Nat} :
    systemFreshness system now policy = .fresh ↔ CurrentWithin system now policy := by
  unfold systemFreshness CurrentWithin age
  cases system with
  | none => simp
  | some snapshot =>
    cases hobserved : snapshot.observedAt with
    | none => simp [hobserved]
    | some observedAt =>
      simp only [hobserved, Option.some.injEq, exists_and_left, exists_eq_left',
        ← superseded_eq_false]
      by_cases hfuture : now < observedAt
      · simp [hfuture]
      · by_cases hpolicy : now.us - observedAt.us ≤ policy
        · simp [hfuture, hpolicy]
        · simp [hfuture, hpolicy]

/-- A later attempt at a declaration that is still fresh by its age is not seen: it is running, or
the declared minimum is judged by the age alone. -/
def Unseen (lib : QueryLibrary) (query : Query) (appid : Int) : Prop :=
  ∃ item facts demand observedAt attemptAt,
    DeclaredAttempt lib (query.sources appid) appid item facts demand observedAt attemptAt ∧
    DeclaredIsLater item demand observedAt attemptAt ∧
    ¬ query.generatedAt.wholeSecond < observedAt ∧
    query.generatedAt.wholeSecond.us - observedAt.us ≤ declaredFresh ∧
    (demand.Running ∨ SystemCurrent query ∧ TargetAgrees query)

end Attempt

/-! ## Every law -/

section Laws

variable {lib : QueryLibrary} {query : Query} {result : CompatibilityQueryResult}
  {a : CompatibilityAssessment} {made : CompatibilityCandidate} {raw : List RawGate}

/-- The names of the gates of the declaration have no colon, those of a required feature do. -/
theorem featureName_ne {kind : FeatureKind} {name : String} :
    kind.value ++ ":" ++ name ∉ declaredGates := by
  intro hmem
  have hcolon : ':' ∈ (kind.value ++ ":" ++ name).toList := by
    rw [String.toList_append, String.toList_append]
    exact List.mem_append_left _ (List.mem_append_right _ (by decide))
  have hnone : ∀ gate ∈ declaredGates, ':' ∉ gate.toList := by decide
  exact hnone _ hmem hcolon

theorem localValue_ne (source : LocalSource) : source.value ∉ declaredSources := by
  cases source <;> decide

/-- In a conflict the gates of the declaration are unknown, and say so. -/
theorem unknown_of_conflict (h : Explained lib query a made raw)
    (hconflict : conflictOf lib query a.appid = true) : ∀ gate ∈ a.gates,
    (gate.name ∈ declaredGates ∨ ∃ name ∈ declaredSources, gate.originalSource = some name) →
      gate.original = .unknown ∧ gate.originalConflict = true := by
  intro gate hgate hwhich
  obtain ⟨rawGate, hmem, hname, -, hshows, -⟩ := gate_of_mem h hgate
  obtain ⟨hfour, hrisksNil, hfeaturesNil⟩ := h.founded.conflicting hconflict
  have hshown : ∀ evidence ∈ [made.declaredNativeBuild, made.effectiveExecutionSupport,
      made.architecture, made.meetsMinimum], rawGate.evidence = evidence →
        gate.original = .unknown ∧ gate.originalConflict = true := by
    intro evidence hevidence hsame
    rw [hshows.original, hshows.conflict, hsame]
    exact hfour evidence hevidence
  have hother : rawGate.name ∉ declaredGates →
      (∀ name ∈ declaredSources, rawGate.evidence.source ≠ some name) →
        gate.original = .unknown ∧ gate.originalConflict = true := by
    intro hgateName hsource
    rcases hwhich with hgateMem | ⟨name, hnameMem, heq⟩
    · exact absurd (hname ▸ hgateMem) hgateName
    · exact absurd (hshows.source.symm.trans heq) (hsource name hnameMem)
  have hlocal : ∀ {value : Option LocalObservation} {kind : Bool} {evidence : PrimitiveEvidence},
      localEvidence lib value a.appid query.generatedAt.wholeSecond kind = .ok evidence →
        ∀ name ∈ declaredSources, evidence.source ≠ some name := by
    intro value kind evidence hrun name hnameMem heq
    rcases source_of_localEvidence hrun with ⟨hnone, -⟩ | ⟨source, hsource⟩
    · exact absurd (hnone.symm.trans heq) nofun
    · rw [← Option.some.inj (hsource.symm.trans heq)] at hnameMem
      exact localValue_ne source hnameMem
  obtain ⟨review, risks, features, hreview, hrisks, hfeatures, rfl⟩ := rawGates_eq_ok h.gates
  rw [hrisksNil] at hrisks
  cases hrisks
  rw [List.append_nil] at hmem
  rcases List.mem_append.mp hmem with hmem | hmem
  · simp only [fixedGates, List.mem_cons, List.not_mem_nil, or_false] at hmem
    rcases hmem with rfl | rfl | rfl | rfl | rfl | rfl | rfl
    · exact hshown _ (by simp) rfl
    · exact hshown _ (by simp) rfl
    · exact hshown _ (by simp) rfl
    · exact hshown _ (by simp) rfl
    · rw [h.founded.review] at hreview
      refine hother (by decide : "exact_target_review" ∉ declaredGates) fun name _ heq => ?_
      exact absurd ((unknown_eq_ok hreview).1.symm.trans heq) nofun
    · exact hother (by decide : "readiness:installed" ∉ declaredGates) (hlocal h.founded.installed)
    · exact hother (by decide : "readiness:visible_owned" ∉ declaredGates) (hlocal h.founded.owned)
  · obtain ⟨requirement, -, hrun⟩ := exists_of_mem_right hfeatures hmem
    rw [hfeaturesNil] at hrun
    refine hother ?_ ?_
    · rw [(featureGate_eq_ok hrun).1]
      exact featureName_ne
    · unfold featureGate at hrun
      obtain ⟨missing, hmissing, hrun⟩ := bind_eq_ok.mp hrun
      cases hrun
      intro name _ heq
      exact absurd ((unknown_eq_ok hmissing).1.symm.trans heq) nofun

/-- Without overrides a conflict keeps a result from being positive. -/
theorem not_positive_of_conflict (h : Explained lib query a made raw)
    (hconflict : conflictOf lib query a.appid = true)
    (hfree : ∀ override ∈ query.overrides, override.appid ≠ a.appid) :
    a.compatibility ≠ .compatible ∧ a.compatibility ≠ .conditional := by
  rw [← not_or]
  intro hpositive
  obtain ⟨experience, hresult⟩ := h.result_eq
  have hnone : query.overrides.filter (·.appid = a.appid) = [] := by
    rw [List.filter_eq_nil_iff]
    intro override hoverride happid
    exact hfree override hoverride (of_decide_eq_true happid)
  rw [hnone] at hresult
  obtain ⟨review, risks, features, hreview, -, -, hraw⟩ := rawGates_eq_ok h.gates
  have hpasses : ∀ rawGate ∈ raw, rawGate.mandatory = true → rawGate.evidence.state = .pass := by
    intro rawGate hmem hmandatory
    rw [hresult] at hpositive
    have hpass := passes_of_verdict hpositive (plainGate rawGate)
      (List.mem_map.mpr ⟨rawGate, hmem, rfl⟩) hmandatory
    exact (plainGate_eq_pass.mp hpass).1
  cases hkind : query.target.kind with
  | machine =>
    have hgate := hpasses ⟨"effective_execution_support", made.effectiveExecutionSupport, true⟩
      (by rw [hraw]; simp [fixedGates, hkind]) rfl
    have hunknown := ((h.founded.conflicting hconflict).1 made.effectiveExecutionSupport (by simp)).1
    have hsame := hgate.symm.trans hunknown
    cases hsame
  | valveDeck =>
    have hgate := hpasses ⟨"exact_target_review", review, true⟩
      (by rw [hraw]; simp [fixedGates, hkind]) rfl
    rw [h.founded.review] at hreview
    have hsame := hgate.symm.trans (state_of_unknown hreview)
    cases hsame

theorem contradicted_of_explained (hreport : IsReport lib query result)
    (h : Explained lib query a made raw) {item : DeclaredItem} {facts : List (String × JsonValue)}
    {demand : DeclaredDemand} {demandAt : Instant}
    (hretained : Retained lib (query.sources a.appid) item facts demand)
    (hnotFound : demand.AnswersNotFound)
    (hdemandAt : parseTime lib demand.observedAt = some demandAt)
    (hlater : ∀ observedAt, parseTime lib item.observedAt = some observedAt → observedAt ≤ demandAt) :
    (∀ gate ∈ a.gates, (gate.name ∈ declaredGates ∨
        ∃ name ∈ declaredSources, gate.originalSource = some name) →
      gate.original = .unknown ∧ gate.originalConflict = true) ∧
    (∃ gaps ∈ result.completeness.subjects, gaps.appid = a.appid ∧
      declaredCapability ∈ gaps.conflicts) ∧
    ((∀ override ∈ query.overrides, override.appid ≠ a.appid) →
      a.compatibility ≠ .compatible ∧ a.compatibility ≠ .conditional) := by
  have hcontradicts : contradicts lib (some demand) (parseTime lib item.observedAt) = true := by
    unfold contradicts
    simp only [notFound_iff.mpr hnotFound, hdemandAt, Bool.true_and]
    cases hobserved : parseTime lib item.observedAt with
    | none => rfl
    | some observedAt => exact decide_eq_true (hlater observedAt hobserved)
  have hdeclared : (declaredOf lib query a.appid).facts ≠ none ∧
      (declaredOf lib query a.appid).conflict = true := by
    rw [declaredOf_eq hretained]
    refine ⟨nofun, ?_⟩
    show (_ || contradicts lib (some demand) _) = true
    rw [hcontradicts, Bool.or_true]
  have hconflict : conflictOf lib query a.appid = true := by
    unfold conflictOf candidateConflict
    rw [hdeclared.2, Bool.or_true]
  refine ⟨unknown_of_conflict h hconflict, ?_, not_positive_of_conflict h hconflict⟩
  exact ⟨_, (mem_subjects hreport).mpr ⟨a.appid, h.requested, rfl⟩, rfl,
    mem_naming.mpr ⟨hdeclared, rfl⟩⟩

theorem mem_declaredSources {name : String} (h : name ∈ declaredSources) :
    name = storeSource ∨ name = layeredSource ∨ name = parserSource := by
  simpa [declaredSources] using h

theorem mem_systemSources {name : String} (h : name ∈ systemSources) :
    name = layeredSource ∨ name = parserSource := by
  simpa [systemSources] using h

/-- A later attempt that can be seen makes the declaration stale. -/
theorem declaredLater_of_explained (hreport : IsReport lib query result)
    (h : Explained lib query a made raw) {item : DeclaredItem} {facts : List (String × JsonValue)}
    {demand : DeclaredDemand} {observedAt attemptAt : Instant}
    (hattempt : DeclaredAttempt lib (query.sources a.appid) a.appid item facts demand observedAt
      attemptAt)
    (hlater : DeclaredIsLater item demand observedAt attemptAt)
    (hseen : ¬ Unseen lib query a.appid) :
    NoneFresh a declaredSources ∧ Listed result a.appid declaredCapability := by
  obtain ⟨hfacts, hconflict, hobserved⟩ := declaredOf_attempt hattempt
  obtain ⟨hfailed, hkept⟩ := freshness_of_attempt hattempt
  have hunseen : ∀ hwhich : demand.Running ∨ SystemCurrent query ∧ TargetAgrees query,
      declaredFreshness observedAt query.generatedAt.wholeSecond ≠ .fresh := by
    intro hwhich hfresh
    obtain ⟨hpast, hage⟩ := declaredFreshness_eq_fresh.mp hfresh
    exact hseen ⟨item, facts, demand, observedAt, attemptAt, hattempt, hlater, hpast, hage, hwhich⟩
  have hstale : (declaredOf lib query a.appid).freshness ≠ .fresh := by
    rcases hattempt.incomplete with hfailure | hrunning
    · exact hfailed ⟨hfailure, hlater⟩
    · rw [hkept fun hboth => by simp [not_failed_of_running hrunning] at hboth]
      exact hunseen (Or.inl hrunning)
  refine ⟨noneFresh_of_rests h (fun name hname => hname) ?_, listed_of_staleFor hreport (by simp)
    ((staleFor_iff hreport h.requested).mpr (mem_stale_declared.mpr ⟨hfacts, hconflict, hstale⟩))⟩
  intro name hname hrests
  rcases mem_declaredSources hname with rfl | rfl | rfl
  · exact hstale (restsFor_store hrests).symm
  · exact hstale (restsFor_layered hrests rfl).1
  · obtain ⟨hagrees, ⟨observedAt', hobserved', hfresh⟩, hsystem⟩ := restsFor_parserField hrests rfl
    rw [hobserved] at hobserved'
    rw [← Option.some.inj hobserved'] at hfresh
    exact hunseen (Or.inr ⟨systemFreshness_eq_fresh.mp hsystem,
      (conflictOf_eq_false hconflict).mp hagrees⟩) hfresh

theorem declaredKept_of_explained (hreport : IsReport lib query result)
    (h : Explained lib query a made raw) {item : DeclaredItem} {facts : List (String × JsonValue)}
    {demand : DeclaredDemand} {observedAt attemptAt : Instant}
    (hattempt : DeclaredAttempt lib (query.sources a.appid) a.appid item facts demand observedAt
      attemptAt)
    (hkept : ¬ DeclaredIsLater item demand observedAt attemptAt) :
    (∀ gate ∈ a.gates, gate.originalSource = some storeSource →
      gate.originalFreshness = declaredFreshness observedAt query.generatedAt.wholeSecond) ∧
    (StaleFor result a.appid declaredCapability ↔
      declaredFreshness observedAt query.generatedAt.wholeSecond ≠ .fresh) := by
  obtain ⟨hfacts, hconflict, -⟩ := declaredOf_attempt hattempt
  have hage := (freshness_of_attempt hattempt).2 fun hboth => hkept hboth.2
  rw [← hage]
  constructor
  · intro gate hgate hsource
    obtain ⟨rawGate, -, -, -, -, hrests⟩ := gate_of_mem h hgate
    rw [hsource] at hrests
    exact restsFor_store hrests
  · rw [staleFor_iff hreport h.requested, mem_stale_declared]
    exact ⟨fun hstale => hstale.2.2, fun hstale => ⟨hfacts, hconflict, hstale⟩⟩

theorem systemMissing_of_attempt {system : SystemSnapshot} {observedAt attemptAt : Instant}
    (hattempt : SystemAttempt query system observedAt attemptAt) :
    systemMissing query.system = false := by
  unfold systemMissing
  rw [hattempt.system_eq]
  cases hprofile : system.profile with
  | none => exact absurd hprofile hattempt.profile
  | some profile => simp [hprofile]

theorem systemLater_of_explained (hreport : IsReport lib query result)
    (h : Explained lib query a made raw) {system : SystemSnapshot} {observedAt attemptAt : Instant}
    (hattempt : SystemAttempt query system observedAt attemptAt)
    (hlater : IsLater attemptAt observedAt system.latestAttemptId system.promotedSyncRunId) :
    NoneFresh a systemSources ∧ Listed result a.appid systemCapability := by
  have hstale : systemFreshness query.system query.generatedAt.wholeSecond systemFresh ≠ .fresh :=
    systemFreshness_later hattempt hlater
  refine ⟨noneFresh_of_rests h ?_ ?_, listed_system hreport h.requested
    (systemMissing_of_attempt hattempt) hstale⟩
  · intro name hname
    rcases mem_systemSources hname with rfl | rfl <;> decide
  · intro name hname hrests
    rcases mem_systemSources hname with rfl | rfl
    · exact hstale (restsFor_layered hrests rfl).2
    · exact hstale (restsFor_parserField hrests rfl).2.2

theorem systemKept_of_explained (hreport : IsReport lib query result)
    (h : Explained lib query a made raw) {system : SystemSnapshot} {observedAt attemptAt : Instant}
    (hattempt : SystemAttempt query system observedAt attemptAt)
    (hkept : ¬ IsLater attemptAt observedAt system.latestAttemptId system.promotedSyncRunId) :
    (∀ policy, systemFreshness query.system query.generatedAt.wholeSecond policy =
      ageFreshness observedAt query.generatedAt.wholeSecond policy .expired) ∧
    (StaleFor result a.appid systemCapability ↔
      ageFreshness observedAt query.generatedAt.wholeSecond systemFresh .expired ≠ .fresh) := by
  refine ⟨fun policy => systemFreshness_kept hattempt hkept, ?_⟩
  rw [staleFor_iff hreport h.requested, mem_stale_system, ← systemFreshness_kept hattempt hkept]
  exact ⟨fun hstale => hstale.2, fun hstale => ⟨systemMissing_of_attempt hattempt, hstale⟩⟩

theorem localMissing_of_attempt {sources : Sources} {installedKind : Bool} {value : LocalObservation}
    {observedAt attemptAt : Instant}
    (hattempt : LocalAttempt sources installedKind value observedAt attemptAt) :
    localMissing (sources.locally installedKind) = false := by
  unfold localMissing
  rw [hattempt.value_eq]
  simp [hattempt.observed]

theorem localLater_of_explained (hreport : IsReport lib query result)
    (h : Explained lib query a made raw) {installedKind : Bool} {value : LocalObservation}
    {observedAt attemptAt : Instant}
    (hattempt : LocalAttempt (query.sources a.appid) installedKind value observedAt attemptAt)
    (hlater : IsLater attemptAt observedAt value.latestAttemptId value.promotedSyncRunId) :
    (∀ gate ∈ a.gates, gate.name = localGate installedKind → gate.originalFreshness ≠ .fresh) ∧
    Listed result a.appid (localCapability installedKind) := by
  have hstale : localFreshness (some value) query.generatedAt.wholeSecond installedKind ≠ .fresh :=
    localFreshness_later hattempt hlater
  constructor
  · intro gate hgate hname
    rw [freshness_of_localGate h hattempt.value_eq hattempt.observed hgate hname]
    unfold observedFreshness
    split
    · split <;> nofun
    · exact hstale
  · refine listed_of_staleFor hreport (by cases installedKind <;> decide)
      ((staleFor_iff hreport h.requested).mpr (mem_stale_local.mpr ?_))
    refine ⟨localMissing_of_attempt hattempt, ?_⟩
    rw [hattempt.value_eq]
    exact hstale

theorem localKept_of_explained (hreport : IsReport lib query result)
    (h : Explained lib query a made raw) {installedKind : Bool} {value : LocalObservation}
    {observedAt attemptAt : Instant}
    (hattempt : LocalAttempt (query.sources a.appid) installedKind value observedAt attemptAt)
    (hkept : ¬ IsLater attemptAt observedAt value.latestAttemptId value.promotedSyncRunId) :
    (∀ gate ∈ a.gates, gate.name = localGate installedKind → gate.originalFreshness =
      localAgeFreshness value observedAt query.generatedAt.wholeSecond installedKind) ∧
    (StaleFor result a.appid (localCapability installedKind) ↔
      ageFreshness observedAt query.generatedAt.wholeSecond (localPolicy installedKind) .stale ≠
        .fresh) := by
  constructor
  · intro gate hgate hname
    rw [freshness_of_localGate h hattempt.value_eq hattempt.observed hgate hname]
    unfold observedFreshness localAgeFreshness
    rw [localFreshness_kept hattempt hkept]
  · rw [staleFor_iff hreport h.requested, mem_stale_local, hattempt.value_eq,
      localFreshness_kept hattempt hkept]
    refine ⟨fun hstale => hstale.2, fun hstale => ⟨?_, hstale⟩⟩
    rw [← hattempt.value_eq]
    exact localMissing_of_attempt hattempt

/-- A later attempt that cannot be seen leaves fresh evidence behind. -/
theorem fresh_of_unseen (hreport : IsReport lib query result) (h : Explained lib query a made raw)
    (hunseen : Unseen lib query a.appid) : ∃ item facts demand observedAt attemptAt,
    DeclaredAttempt lib (query.sources a.appid) a.appid item facts demand observedAt attemptAt ∧
    DeclaredIsLater item demand observedAt attemptAt ∧
    ¬ (NoneFresh a declaredSources ∧ Listed result a.appid declaredCapability) := by
  obtain ⟨item, facts, demand, observedAt, attemptAt, hattempt, hlater, hpast, hage, hwhich⟩ := hunseen
  refine ⟨item, facts, demand, observedAt, attemptAt, hattempt, hlater, ?_⟩
  rintro ⟨hnone, hlisted⟩
  obtain ⟨-, hconflict, hobserved⟩ := declaredOf_attempt hattempt
  have hfresh := declaredFreshness_eq_fresh.mpr ⟨hpast, hage⟩
  rcases hwhich with hrunning | ⟨hsystem, hagrees⟩
  · -- A running attempt leaves the declaration as fresh as its age.
    have hstale := (mem_stale_declared.mp ((staleFor_iff hreport h.requested).mp hlisted.1)).2.2
    refine hstale (((freshness_of_attempt hattempt).2 fun hboth => ?_).trans hfresh)
    simp [not_failed_of_running hrunning] at hboth
  · -- The evaluator judges by the age alone.
    have hdeclared := declaredOf_eq hattempt.toRetained
    obtain ⟨hsource, harchitecture⟩ := architecture_of_requirements
      ((conflictOf_eq_false hconflict).mpr hagrees) hattempt.item_eq
      (show (declaredOf lib query a.appid).facts = _ by rw [hdeclared]; rfl) hobserved
      h.founded.requirements
    have hsystemFresh : systemFreshness query.system query.generatedAt.wholeSecond systemFresh =
        .fresh := systemFreshness_eq_fresh.mpr hsystem
    have hboth : made.architecture.freshness = .fresh :=
      harchitecture.trans (worstFreshness_eq_fresh.mpr ⟨hfresh, hsystemFresh⟩)
    obtain ⟨review, risks, features, -, -, -, hraw⟩ := rawGates_eq_ok h.gates
    obtain ⟨experience, hresult⟩ := h.result_eq
    have hmem : ⟨"architecture", made.architecture, decide (query.target.kind = .machine)⟩ ∈ raw := by
      rw [hraw]
      simp [fixedGates]
    have hshows := shows_gateResult
      ⟨"architecture", made.architecture, decide (query.target.kind = .machine)⟩
      ((query.overrides.filter (·.appid = a.appid)).find? (·.gate = "architecture"))
    have hgate := List.mem_map_of_mem (f := fun gate : RawGate => gateResult gate
      ((query.overrides.filter (·.appid = a.appid)).find? (·.gate = gate.name))) hmem
    refine (hnone _ ?_ parserSource (by decide)).1 (hshows.source.trans hsource)
      (hshows.freshness.trans hboth)
    rw [show a.gates = raw.map _ from congrArg CompatibilityAssessment.gates hresult]
    exact hgate

end Laws

/-! ## The result -/

/-- Superseded evidence never counts as current if and only if no later attempt at a declaration
that is fresh by its age goes unseen. -/
theorem superseded_never_current (lib : QueryLibrary) (query : Query)
    (result : CompatibilityQueryResult) (h : reconstructCompatibility lib query = .ok result) :
    (∀ a ∈ result.assessment.results, NeverCurrent lib query result a) ↔
      ∀ appid ∈ query.requestedAppids, ¬ Unseen lib query appid := by
  obtain ⟨hreport, hresults, hexplained⟩ := explained_of_reconstruct h
  constructor
  · intro hnever appid hmem hunseen
    obtain ⟨a, ha, rfl⟩ := hresults appid hmem
    obtain ⟨made, raw, hexplain⟩ := hexplained a ha
    obtain ⟨item, facts, demand, observedAt, attemptAt, hattempt, hlater, hbad⟩ :=
      fresh_of_unseen hreport hexplain hunseen
    exact hbad ((hnever a ha).declaredLater item facts demand observedAt attemptAt hattempt hlater)
  · intro hseen a ha
    obtain ⟨made, raw, hexplain⟩ := hexplained a ha
    exact
      { contradicted := fun _ _ _ _ hretained hnotFound hdemandAt hlater =>
          contradicted_of_explained hreport hexplain hretained hnotFound hdemandAt hlater
        declaredLater := fun _ _ _ _ _ hattempt hlater =>
          declaredLater_of_explained hreport hexplain hattempt hlater
            (hseen a.appid hexplain.requested)
        declaredKept := fun _ _ _ _ _ hattempt hkept =>
          declaredKept_of_explained hreport hexplain hattempt hkept
        systemLater := fun _ _ _ hattempt hlater =>
          systemLater_of_explained hreport hexplain hattempt hlater
        systemKept := fun _ _ _ hattempt hkept =>
          systemKept_of_explained hreport hexplain hattempt hkept
        localLater := fun _ _ _ _ hattempt hlater =>
          localLater_of_explained hreport hexplain hattempt hlater
        localKept := fun _ _ _ _ hattempt hkept =>
          localKept_of_explained hreport hexplain hattempt hkept }

/-! ## Two queries -/

/-- A day of January 2020. -/
def january (day : Nat) (h : 737423 + day < 3652059) : Instant :=
  ⟨(737423 + day) * 86400 * 1000000, by
    unfold Datetime.maxMicroseconds
    omega⟩

def eighth : Instant :=
  january 8 (by decide)

def ninth : Instant :=
  january 9 (by decide)

/-- A text in quotes, for one that needs no escape. -/
def quoted (s : String) : String :=
  "\"" ++ s ++ "\""

mutual

/-- `json.dumps` with sorted keys, of texts that need no escape. -/
def canonical : JsonValue → String
  | .null => "null"
  | .bool b => if b then "true" else "false"
  | .int n => toString n
  | .float text => text
  | .str s => quoted s
  | .arr items => "[" ++ ",".intercalate (canonicalItems items) ++ "]"
  | .obj fields =>
    "\x7b" ++ ",".intercalate ((sortBy Prod.fst (canonicalFields fields)).map fun entry =>
      quoted entry.1 ++ ":" ++ entry.2) ++ "\x7d"

def canonicalItems : List JsonValue → List String
  | [] => []
  | item :: items => canonical item :: canonicalItems items

def canonicalFields : List (String × JsonValue) → List (String × String)
  | [] => []
  | (key, value) :: fields => (key, canonical value) :: canonicalFields fields

end

/-- The material of the lineages below, after its digest. -/
def lineageDigests : List (String × List String) :=
  [("150cd66fb1d5dc903c05e51b", ["declared-platform", "57", "2020-01-08T00:00:00+00:00",
      "linux", "True"]),
    ("926f5704e30b95d021a5b8c3", ["system-target", "57", "2020-01-09T00:00:00+00:00", "desk",
      "4", "3", "None"]),
    ("3d8e9363b51f3a619b873d43", ["minimum-architecture", "57", "2020-01-08T00:00:00+00:00",
      "unknown", "minimum_text_missing", "projection", "4", "3", "None"]),
    ("8c9fae08984c9a0c3096c9e7", ["minimum-overall", "57", "2020-01-08T00:00:00+00:00",
      "unknown", "minimum_components_not_all_safely_comparable", "projection", "4", "3", "None"]),
    ("204913af6734338ea7fdd15f", ["minimum-overall-without-storage", "57",
      "2020-01-08T00:00:00+00:00", "unknown",
      "non_storage_minimum_components_not_all_safely_comparable", "projection", "4", "3", "None"]),
    ("5bfeba13c602ef014b3d338c", ["runtime-unknown", "57", "2020-01-08T00:00:00+00:00",
      "external-account"]),
    ("b6db8331436eb56e88c6e3ad", ["runtime-unknown", "57", "2020-01-08T00:00:00+00:00",
      "declared-drm"]),
    ("c1ea1a2178bd23de50959230", ["feature", "57", "2020-01-08T00:00:00+00:00", "input",
      "full-controller-support"]),
    ("a1c4522b9e1885e26d72a980", ["minimum-architecture", "57", "2020-01-08T00:00:00+00:00",
      "unknown", "minimum_text_missing", "declared-projection:981f65c4e8d166b80bb8606f", "None",
      "None", "None"]),
    ("58ec329e30e8ba367e685f8c", ["minimum-overall", "57", "2020-01-08T00:00:00+00:00",
      "unknown", "minimum_components_not_all_safely_comparable",
      "declared-projection:981f65c4e8d166b80bb8606f", "None", "None", "None"]),
    ("6cd0110759dabc6f89790b15", ["minimum-overall-without-storage", "57",
      "2020-01-08T00:00:00+00:00", "unknown",
      "non_storage_minimum_components_not_all_safely_comparable",
      "declared-projection:981f65c4e8d166b80bb8606f", "None", "None", "None"])]

/-- The declared facts that are hashed below, with their run. -/
def projectionText : String :=
  "\x7b\"facts\":\x7b\"appid\":57,\"categories\":\x7b\"known_slugs\":" ++
    "[\"full_controller_support\"],\"state\":\"declared\"\x7d,\"context\":null," ++
    "\"controller_support\":null,\"drm_notice\":null,\"external_account_notice\":null," ++
    "\"languages\":null,\"platforms\":null,\"requirements\":null\x7d," ++
    "\"promoted_sync_run_id\":1\x7d"

/-- SHA-256, of the texts that are hashed below. -/
def digestOf (text : String) : String :=
  match lineageDigests.find? fun entry => text = "\x1f".intercalate entry.2 with
  | some (digest, _) => digest
  | none => if text = projectionText then "981f65c4e8d166b80bb8606f" else ""

/-- The standard library, on ASCII texts. -/
def asciiQueryLibrary : QueryLibrary where
  chars := asciiLibrary
  requirementChars := ⟨asciiLibrary.isPrintable, fun c => c.isAlphanum || c == '_'⟩
  casefold s := String.ofList (s.toList.map Char.toLower)
  isAlnum := Char.isAlphanum
  fromIsoFormat := Instant.parse
  isoformat t := String.ofList (Datetime.secondText t.second ++
    (if t.micro = 0 then [] else '.' :: Datetime.pad 6 t.micro) ++ "+00:00".toList)
  dumps := canonical
  digest := digestOf

def deskFacts : List (String × JsonValue) :=
  [("appid", .int 57), ("platforms", .obj [("state", .str "declared"), ("linux", .bool true)])]

def deskProfile : List (String × JsonValue) :=
  [("os", .obj [("family", .obj [("state", .str "known"), ("value", .str "linux")])])]

def deskItem : DeclaredItem :=
  ⟨.obj deskFacts, some "2020-01-08T00:00:00Z", some 1, some (.text "projection")⟩

/-- An attempt that failed. -/
def failedDemand : DeclaredDemand :=
  ⟨true, true, some "failed", some "PROVIDER_UNAVAILABLE", some "2020-01-09T00:00:00Z",
    some "2020-01-09T00:00:00Z", some 2⟩

/-- A declaration of the eighth, and a system profile and a failed attempt of the ninth. -/
def deskQuery : Query where
  requestedAppids := [57]
  target := deskTarget
  generatedAt := january 10 (by decide)
  system := some ⟨"desk", some deskProfile, some ninth, some (.num 4), none, none, none,
    some (.num 3)⟩
  items := [(57, deskItem)]
  demand := [(57, failedDemand)]
  installed := []
  owned := []
  requirements := []
  overrides := []

theorem deskQuery_eq_ok : ∃ result, reconstructCompatibility asciiQueryLibrary deskQuery =
    .ok result := by
  have hok : (reconstructCompatibility asciiQueryLibrary deskQuery).isOk = true := by
    decide +kernel
  cases hrun : reconstructCompatibility asciiQueryLibrary deskQuery with
  | ok result => exact ⟨result, rfl⟩
  | error e =>
    rw [hrun] at hok
    cases hok

theorem unseen_deskQuery : Unseen asciiQueryLibrary deskQuery 57 := by
  refine ⟨deskItem, deskFacts, failedDemand, eighth, ninth,
    ⟨⟨rfl, rfl, rfl⟩, rfl, Or.inl (supersedingFailure_iff.mp rfl), ?_, ?_⟩, Or.inl ?_, ?_, ?_,
    Or.inr ⟨?_, ?_, ?_⟩⟩
  · decide +kernel
  · decide +kernel
  · decide +kernel
  · decide +kernel
  · decide +kernel
  · refine ⟨_, ninth, rfl, rfl, ?_, ?_, fun _ _ h => ?_⟩
    · decide +kernel
    · decide +kernel
    · cases h
  · intro _ system hsystem
    cases hsystem
    rfl
  · decide +kernel

/-- A later failure leaves the architecture gate fresh. -/
theorem superseded_counts_as_current : ∃ result,
    reconstructCompatibility asciiQueryLibrary deskQuery = .ok result ∧
      ¬ ∀ a ∈ result.assessment.results, NeverCurrent asciiQueryLibrary deskQuery result a := by
  obtain ⟨result, hrun⟩ := deskQuery_eq_ok
  obtain ⟨hreport, hresults, hexplained⟩ := explained_of_reconstruct hrun
  refine ⟨result, hrun, fun hnever => ?_⟩
  obtain ⟨a, ha, happid⟩ := hresults 57 (by decide)
  obtain ⟨made, raw, hexplain⟩ := hexplained a ha
  obtain ⟨item, facts, demand, observedAt, attemptAt, hattempt, hlater, hbad⟩ :=
    fresh_of_unseen hreport hexplain (happid ▸ unseen_deskQuery)
  exact hbad ((hnever a ha).declaredLater item facts demand observedAt attemptAt hattempt hlater)

theorem superseded_never_current_desk : ∃ result,
    reconstructCompatibility asciiQueryLibrary deskQuery = .ok result ∧
      ((∀ a ∈ result.assessment.results, NeverCurrent asciiQueryLibrary deskQuery result a) ↔
        ∀ appid ∈ deskQuery.requestedAppids, ¬ Unseen asciiQueryLibrary deskQuery appid) := by
  obtain ⟨result, hrun⟩ := deskQuery_eq_ok
  exact ⟨result, hrun, superseded_never_current asciiQueryLibrary deskQuery result hrun⟩

end SteamAgent.Compatibility
