import SteamAgent.Compatibility.Supersession
import SteamAgent.Queries.Evidence

/-!
# Freshness decays

A grade of evidence that was observed before a query is no `unknown`, and it
does not get better.  Readers that cut the time of the query to whole seconds,
and not the time of the observation, break this for evidence of the second the
query is in: they take it for evidence of the future.

There are four groups.

* Grades in order.
* The readers that subtract instants of one resolution.
* The readers that cut the time of the query.
* The result, and an observation of the second of its query.
-/

namespace SteamAgent.Queries

open Datetime (Instant)
open Compatibility (Freshness DeclaredItem DeclaredDemand LocalObservation QueryLibrary
  SystemSnapshot)
open Result (bind_eq_ok)

/-! ## Grades in order -/

/-- The place of a grade in the order fresh, stale, expired. -/
def Grade.place : Grade → Nat
  | .fresh => 0
  | .stale => 1
  | .expired => 2
  | .unknown => 3

/-- A grade is known, and the next one is not better. -/
def Decays (first second : Grade) : Prop :=
  first ≠ .unknown ∧ first.place ≤ second.place

/-- The same of a freshness of a compatibility query. -/
def FreshnessDecays (first second : Freshness) : Prop :=
  first ≠ .unknown ∧ first.order ≤ second.order

/-- A claim that evidence is fresh does not come back. -/
def FreshDecays (first second : Bool) : Prop :=
  second = true → first = true

/-- A longer age has no better grade. -/
theorem decays_gradeOf {a b freshFor retainedFor : Int} (ha : 0 ≤ a) (hab : a ≤ b) :
    Decays (gradeOf a freshFor retainedFor) (gradeOf b freshFor retainedFor) := by
  have hb : ¬ b < 0 := by omega
  unfold Decays gradeOf
  rw [if_neg (show ¬ a < 0 by omega), if_neg hb]
  by_cases hfresh : a ≤ freshFor
  · rw [if_pos hfresh]
    exact ⟨nofun, Nat.zero_le _⟩
  · rw [if_neg hfresh, if_neg (show ¬ b ≤ freshFor by omega)]
    by_cases hretained : a ≤ retainedFor
    · rw [if_pos hretained]
      refine ⟨nofun, ?_⟩
      split <;> decide
    · rw [if_neg hretained, if_neg (show ¬ b ≤ retainedFor by omega)]
      exact ⟨nofun, Nat.le_refl _⟩

theorem gradeOf_eq_unknown {a freshFor retainedFor : Int} :
    gradeOf a freshFor retainedFor = .unknown ↔ a < 0 := by
  unfold gradeOf
  by_cases ha : a < 0
  · rw [if_pos ha]
    exact ⟨fun _ => ha, fun _ => rfl⟩
  · rw [if_neg ha]
    refine ⟨fun h => ?_, fun h => absurd h ha⟩
    split at h
    · cases h
    · split at h <;> cases h

theorem le_wholeSecond {a b : Instant} (h : a ≤ b) : a.wholeSecond ≤ b.wholeSecond := by
  have hus : a.us ≤ b.us := h
  show a.us / 1000000 * 1000000 ≤ b.us / 1000000 * 1000000
  omega

theorem elapsed_le {observed t₁ t₂ : Instant} (h : t₁ ≤ t₂) :
    elapsed observed t₁ ≤ elapsed observed t₂ := by
  have hus : t₁.us ≤ t₂.us := h
  unfold elapsed
  omega

theorem elapsed_nonneg {observed now : Instant} : 0 ≤ elapsed observed now ↔ observed ≤ now := by
  unfold elapsed
  rw [Instant.le_iff]
  omega

/-! ## Readers of one resolution -/

/-- The grades that the readers of one resolution give evidence observed at an instant, at two
query instants. -/
structure SteadyReaders (observed t₁ t₂ : Instant) : Prop where
  activityItem : ∀ row : ActivityRow, row.observedAt = observed →
    Decays (activityItem row t₁).activity (activityItem row t₂).activity
  achievementItem : ∀ row : AchievementRow, row.observedAt = some observed →
    ∃ first second, achievementItemFreshness row t₁ = some first ∧
      achievementItemFreshness row t₂ = some second ∧ Decays first second
  declared : ∀ (lib : QueryLibrary) (item : DeclaredItem) (demand : Option DeclaredDemand)
    (appid : Int) (facts : List (String × JsonValue)),
    item.observedAt.bind lib.fromIsoFormat = some observed →
    FreshnessDecays
      (Compatibility.declaredOfFacts lib item demand appid t₁.wholeSecond facts).freshness
      (Compatibility.declaredOfFacts lib item demand appid t₂.wholeSecond facts).freshness
  system : ∀ (system made : SystemSnapshot) (policy : Nat), system.make = .ok made →
    system.observedAt = some observed →
    FreshnessDecays (Compatibility.systemFreshness (some made) t₁.wholeSecond policy)
      (Compatibility.systemFreshness (some made) t₂.wholeSecond policy)
  locally : ∀ (value made : LocalObservation) (installedKind : Bool), value.make = .ok made →
    value.observedAt = some observed →
    FreshnessDecays (Compatibility.localFreshness (some made) t₁.wholeSecond installedKind)
      (Compatibility.localFreshness (some made) t₂.wholeSecond installedKind) ∧
    FreshnessDecays
      (Compatibility.observedFreshness made observed.wholeSecond t₁.wholeSecond installedKind)
      (Compatibility.observedFreshness made observed.wholeSecond t₂.wholeSecond installedKind)

/-- The age of what was observed before. -/
theorem age_eq_some {observed now : Instant} (h : observed ≤ now) :
    Compatibility.age observed now = some (now.us - observed.us) := by
  have hus : observed.us ≤ now.us := h
  unfold Compatibility.age
  exact if_neg (show ¬ now.us < observed.us by omega)

section Compatibility

variable {observed t₁ t₂ : Instant}

theorem declaredFreshness_decays (h₁ : observed ≤ t₁) (h₂ : t₁ ≤ t₂) :
    FreshnessDecays (Compatibility.declaredFreshness observed t₁)
      (Compatibility.declaredFreshness observed t₂) := by
  have hus : t₁.us ≤ t₂.us := h₂
  have hus₁ : observed.us ≤ t₁.us := h₁
  have hexpires : Compatibility.declaredFresh ≤ Compatibility.declaredExpires := by decide
  unfold FreshnessDecays Compatibility.declaredFreshness
  rw [age_eq_some h₁, age_eq_some (show observed ≤ t₂ from Nat.le_trans h₁ h₂)]
  generalize Compatibility.declaredFresh = fresh at hexpires ⊢
  generalize Compatibility.declaredExpires = expires at hexpires ⊢
  by_cases hfresh : t₁.us - observed.us ≤ fresh
  · simp [hfresh, Freshness.order]
  · simp only [hfresh, if_false, show ¬ t₂.us - observed.us ≤ fresh by omega]
    by_cases hexpired : t₁.us - observed.us ≤ expires
    · simp only [hexpired, if_true]
      refine ⟨nofun, ?_⟩
      split <;> decide
    · simp only [hexpired, if_false, show ¬ t₂.us - observed.us ≤ expires by omega]
      exact ⟨nofun, Nat.le_refl _⟩

/-- An attempt that supersedes the evidence does so at both instants. -/
theorem FreshnessDecays.staleIf {first second : Freshness} (h : FreshnessDecays first second)
    (failed : Bool) : FreshnessDecays
      (if failed = true ∧ first = .fresh then .stale else first)
      (if failed = true ∧ second = .fresh then .stale else second) := by
  cases failed with
  | false => simpa using h
  | true =>
    unfold FreshnessDecays at h ⊢
    revert h
    cases first <;> cases second <;> decide

theorem systemFreshness_decays {system : SystemSnapshot} {policy : Nat}
    (hobserved : system.observedAt = some observed) (h₁ : observed ≤ t₁) (h₂ : t₁ ≤ t₂) :
    FreshnessDecays (Compatibility.systemFreshness (some system) t₁ policy)
      (Compatibility.systemFreshness (some system) t₂ policy) := by
  have hus : t₁.us ≤ t₂.us := h₂
  unfold FreshnessDecays Compatibility.systemFreshness
  simp only [hobserved, age_eq_some h₁, age_eq_some (show observed ≤ t₂ from Nat.le_trans h₁ h₂)]
  by_cases hpolicy : t₁.us - observed.us ≤ policy
  · simp only [hpolicy, if_true]
    cases system.superseded observed with
    | false => exact ⟨nofun, Nat.zero_le _⟩
    | true =>
      refine ⟨nofun, ?_⟩
      simp only [if_true]
      split <;> decide
  · simp only [hpolicy, if_false, show ¬ t₂.us - observed.us ≤ policy by omega]
    exact ⟨nofun, Nat.le_refl _⟩

theorem localFreshness_decays {value : LocalObservation} {installedKind : Bool}
    (hobserved : value.observedAt = some observed) (h₁ : observed ≤ t₁) (h₂ : t₁ ≤ t₂) :
    FreshnessDecays (Compatibility.localFreshness (some value) t₁ installedKind)
      (Compatibility.localFreshness (some value) t₂ installedKind) := by
  have hus : t₁.us ≤ t₂.us := h₂
  unfold FreshnessDecays Compatibility.localFreshness
  simp only [hobserved, age_eq_some h₁, age_eq_some (show observed ≤ t₂ from Nat.le_trans h₁ h₂)]
  cases value.superseded observed with
  | true => exact ⟨nofun, Nat.le_refl _⟩
  | false =>
    simp only [Bool.false_eq_true, if_false]
    generalize Compatibility.localPolicy installedKind = policy
    by_cases hpolicy : t₁.us - observed.us ≤ policy
    · simp only [hpolicy, if_true]
      exact ⟨nofun, Nat.zero_le _⟩
    · simp only [hpolicy, if_false, show ¬ t₂.us - observed.us ≤ policy by omega]
      exact ⟨nofun, Nat.le_refl _⟩

end Compatibility

/-- Readers that subtract instants of one resolution let evidence decay. -/
theorem steadyReaders {observed t₁ t₂ : Instant} (h₁ : observed ≤ t₁) (h₂ : t₁ ≤ t₂) :
    SteadyReaders observed t₁ t₂ := by
  have hw₁ := le_wholeSecond h₁
  have hw₂ := le_wholeSecond h₂
  refine ⟨?_, ?_, ?_, ?_, ?_⟩
  · rintro row rfl
    exact decays_gradeOf (elapsed_nonneg.mpr h₁) (elapsed_le h₂)
  · intro row hrow
    have hgrade : ∀ now, achievementItemFreshness row now =
        some (gradeOf (elapsed observed now) achievementFresh hardRetention) := by
      intro now
      unfold achievementItemFreshness evidenceFreshness
      rw [hrow]
      rfl
    exact ⟨_, _, hgrade t₁, hgrade t₂, decays_gradeOf (elapsed_nonneg.mpr h₁) (elapsed_le h₂)⟩
  · intro lib item demand appid facts hitem
    have hparse : Compatibility.parseTime lib item.observedAt = some observed.wholeSecond := by
      unfold Compatibility.parseTime
      rw [hitem]
      rfl
    rw [Compatibility.freshness_declaredOfFacts hparse,
      Compatibility.freshness_declaredOfFacts hparse]
    exact (declaredFreshness_decays hw₁ hw₂).staleIf _
  · intro system made policy hmake hobserved
    unfold SystemSnapshot.make at hmake
    obtain ⟨_, -, hmake⟩ := bind_eq_ok.mp hmake
    obtain ⟨_, -, hmake⟩ := bind_eq_ok.mp hmake
    obtain ⟨_, -, hmake⟩ := bind_eq_ok.mp hmake
    cases hmake
    refine systemFreshness_decays ?_ hw₁ hw₂
    show system.observedAt.map Instant.wholeSecond = some observed.wholeSecond
    rw [hobserved]
    rfl
  · intro value made installedKind hmake hobserved
    have hmade : made.observedAt = some observed.wholeSecond := by
      unfold LocalObservation.make at hmake
      obtain ⟨_, -, hmake⟩ := bind_eq_ok.mp hmake
      obtain ⟨_, -, hmake⟩ := bind_eq_ok.mp hmake
      cases hmake
      show value.observedAt.map Instant.wholeSecond = some observed.wholeSecond
      rw [hobserved]
      rfl
    have hlocal : FreshnessDecays
        (Compatibility.localFreshness (some made) t₁.wholeSecond installedKind)
        (Compatibility.localFreshness (some made) t₂.wholeSecond installedKind) :=
      localFreshness_decays hmade hw₁ hw₂
    refine ⟨hlocal, ?_⟩
    unfold Compatibility.observedFreshness
    rw [age_eq_some hw₁, age_eq_some (show observed.wholeSecond ≤ t₂.wholeSecond from
      Nat.le_trans hw₁ hw₂)]
    by_cases hpresence : made.presence = .unknown
    · simp only [hpresence, if_true, Option.isNone_some, Bool.false_eq_true, if_false]
      exact ⟨nofun, Nat.le_refl _⟩
    · simp only [hpresence, if_false]
      exact hlocal

/-! ## Readers that cut the time of the query -/

/-- The grades that the readers of the recommendation queries give evidence observed at an instant,
at two query instants. -/
structure CuttingReaders (observed t₁ t₂ : Instant) : Prop where
  activity : ∀ row : ActivityRow, row.observedAt = observed →
    Decays (activityEvidence row t₁).freshness (activityEvidence row t₂).freshness
  recent : ∀ row : ActivityRow, row.recentObservedAt = some observed →
    Decays (activityEvidence row t₁).recentFreshness (activityEvidence row t₂).recentFreshness
  achievement : ∀ row : AchievementRow, (achievementEvidence row t₁).observedAt = some observed →
    Decays (achievementEvidence row t₁).freshness (achievementEvidence row t₂).freshness
  classification : ∀ fact : ClassificationFact, fact.observedAt = observed →
    FreshDecays (classificationFresh fact t₁) (classificationFresh fact t₂)
  review : ∀ row : ReviewRow, row.observedAt = observed →
    Decays (reviewFreshness row t₁) (reviewFreshness row t₂)
  counters : ∀ rows : List ReviewRow, (∀ row ∈ rows, row.observedAt ≤ observed) →
    (reviewCounters rows t₁).futureCurrentCount = 0 ∧
      (reviewCounters rows t₁).staleCurrentCount ≤ (reviewCounters rows t₂).staleCurrentCount

section Counters

variable {rows : List ReviewRow} {now t₁ t₂ : Instant} {counters counters' : ReviewCounters}

/-- The loop counts the rows of the future. -/
theorem future_foldl : (rows.foldl (countReview now) counters).futureCurrentCount =
    counters.futureCurrentCount + rows.countP fun row => elapsed row.observedAt now < 0 := by
  induction rows generalizing counters with
  | nil => rfl
  | cons row rows ih =>
    rw [List.foldl_cons, ih, List.countP_cons]
    show counters.futureCurrentCount + (if _ then 1 else 0) + _ = _
    by_cases h : elapsed row.observedAt now < 0
    · simp [h]
      omega
    · simp [h]

theorem stale_foldl : (rows.foldl (countReview now) counters).staleCurrentCount =
    counters.staleCurrentCount + rows.countP fun row => elapsed row.observedAt now > hours 24 := by
  induction rows generalizing counters with
  | nil => rfl
  | cons row rows ih =>
    rw [List.foldl_cons, ih, List.countP_cons]
    show counters.staleCurrentCount + (if _ then 1 else 0) + _ = _
    by_cases h : elapsed row.observedAt now > hours 24
    · simp [h]
      omega
    · simp [h]

theorem future_eq_zero : (reviewCounters rows now).futureCurrentCount = 0 ↔
    ∀ row ∈ rows, row.observedAt ≤ queryTime now := by
  unfold reviewCounters
  rw [future_foldl, Nat.zero_add, List.countP_eq_zero]
  refine forall₂_congr fun row _ => ?_
  rw [decide_eq_true_iff, Int.not_lt, elapsed_nonneg]

theorem stale_le (h : t₁ ≤ t₂) :
    (reviewCounters rows t₁).staleCurrentCount ≤ (reviewCounters rows t₂).staleCurrentCount := by
  unfold reviewCounters
  rw [stale_foldl, stale_foldl, Nat.zero_add, Nat.zero_add]
  refine List.countP_mono_left fun row _ hrow => ?_
  have hle : elapsed row.observedAt (queryTime t₁) ≤ elapsed row.observedAt (queryTime t₂) :=
    elapsed_le (le_wholeSecond h)
  rw [decide_eq_true_iff] at hrow ⊢
  omega

end Counters

/-- A review has two grades. -/
theorem decays_review {row : ReviewRow} {t₁ t₂ : Instant} (h₁ : row.observedAt ≤ queryTime t₁)
    (h₂ : t₁ ≤ t₂) : Decays (reviewFreshness row t₁) (reviewFreshness row t₂) := by
  have hage : 0 ≤ elapsed row.observedAt (queryTime t₁) := elapsed_nonneg.mpr h₁
  have hle : elapsed row.observedAt (queryTime t₁) ≤ elapsed row.observedAt (queryTime t₂) :=
    elapsed_le (le_wholeSecond h₂)
  unfold Decays reviewFreshness
  simp only
  rw [if_neg (show ¬ elapsed row.observedAt (queryTime t₁) < 0 by omega),
    if_neg (show ¬ elapsed row.observedAt (queryTime t₂) < 0 by omega)]
  by_cases hfresh : elapsed row.observedAt (queryTime t₁) ≤ hours 24
  · rw [if_pos hfresh]
    exact ⟨nofun, Nat.zero_le _⟩
  · rw [if_neg hfresh, if_neg (show ¬ elapsed row.observedAt (queryTime t₂) ≤ hours 24 by omega)]
    exact ⟨nofun, Nat.le_refl _⟩

/-- Evidence of a whole second that is over decays in the recommendation queries too. -/
theorem cuttingReaders {observed t₁ t₂ : Instant} (h₁ : observed ≤ queryTime t₁) (h₂ : t₁ ≤ t₂) :
    CuttingReaders observed t₁ t₂ := by
  have hage : 0 ≤ elapsed observed (queryTime t₁) := elapsed_nonneg.mpr h₁
  have hle : elapsed observed (queryTime t₁) ≤ elapsed observed (queryTime t₂) :=
    elapsed_le (le_wholeSecond h₂)
  refine ⟨?_, ?_, ?_, ?_, ?_, ?_⟩
  · rintro row rfl
    exact decays_gradeOf hage hle
  · intro row hrow
    show Decays (recentFreshness row.recentObservedAt _) (recentFreshness row.recentObservedAt _)
    rw [hrow]
    exact decays_gradeOf hage hle
  · intro row hrow
    have hsame : (achievementEvidence row t₁).freshness =
        freshness (some observed) (queryTime t₁) achievementFresh := by
      rw [← hrow]
      rfl
    have hsame' : (achievementEvidence row t₂).freshness =
        freshness (some observed) (queryTime t₂) achievementFresh := by
      rw [← hrow]
      rfl
    rw [hsame, hsame']
    exact decays_gradeOf hage hle
  · rintro fact rfl hfresh
    unfold classificationFresh at hfresh ⊢
    simp only [Bool.and_eq_true, decide_eq_true_eq] at hfresh ⊢
    exact ⟨Int.le_trans hle hfresh.1, h₁⟩
  · rintro row rfl
    exact decays_review h₁ h₂
  · intro rows hrows
    exact ⟨future_eq_zero.mpr fun row hrow => Nat.le_trans (hrows row hrow) h₁, stale_le h₂⟩

/-! ## The result -/

/-- What every reader says of evidence observed at an instant, at two query instants. -/
structure FreshnessOnlyDecays (observed t₁ t₂ : Instant) : Prop where
  steady : SteadyReaders observed t₁ t₂
  cutting : CuttingReaders observed t₁ t₂

/-- Freshness only decays, and past evidence is no evidence of the future, if and only if the
evidence is not of the second that the query is in, unless that second has just begun. -/
theorem freshness_only_decays (observed t₁ t₂ : Instant) (h₁ : observed ≤ t₁) (h₂ : t₁ ≤ t₂) :
    FreshnessOnlyDecays observed t₁ t₂ ↔ observed ≤ t₁.wholeSecond := by
  constructor
  · intro h
    have hknown := (h.cutting.activity ⟨observed, none, none, none⟩ rfl).1
    have hage : ¬ elapsed observed (queryTime t₁) < 0 := fun hneg =>
      hknown (gradeOf_eq_unknown.mpr hneg)
    exact elapsed_nonneg.mp (Int.not_lt.mp hage)
  · intro h
    exact ⟨steadyReaders h₁ h₂, cuttingReaders h h₂⟩

/-- A number of milliseconds. -/
def milliseconds (n : Nat) (h : n * 1000 < 1000000000) : Instant :=
  ⟨n * 1000, Nat.lt_trans h (by decide)⟩

/-- Activity observed half a second before a query of the same second is of the future. -/
theorem future_in_one_second : ¬ ∀ observed t₁ t₂ : Instant, observed ≤ t₁ → t₁ ≤ t₂ →
    FreshnessOnlyDecays observed t₁ t₂ := by
  intro h
  have hreaders := h (milliseconds 1250 (by decide)) (milliseconds 1750 (by decide))
    (milliseconds 1750 (by decide)) (by decide) (by decide)
  exact (hreaders.cutting.activity ⟨milliseconds 1250 (by decide), none, none, none⟩ rfl).1
    (by decide)

theorem freshness_only_decays_later :
    FreshnessOnlyDecays (milliseconds 1250 (by decide)) (milliseconds 2250 (by decide))
      (milliseconds 2750 (by decide)) :=
  (freshness_only_decays (milliseconds 1250 (by decide)) (milliseconds 2250 (by decide))
    (milliseconds 2750 (by decide)) (by decide) (by decide)).mpr (by decide)

end SteamAgent.Queries
