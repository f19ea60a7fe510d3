import SteamAgent.Stdlib.Datetime

/-!
# Evidence of cached rows

How old the queries say a cached row is.  `build_recommendation_query` and
`build_wishlist_recommendation_query` cut the time of the query to whole seconds
before they subtract; `query_activity` and `query_achievements` do not.  A row
holds the instants that its texts are read as.

There are three groups.

* Grades of an age.
* The evidence of `build_recommendation_query`, and the reviews of
  `build_wishlist_recommendation_query`.
* The items of `query_activity` and `query_achievements`.
-/

namespace SteamAgent.Queries

open Datetime (Instant)

/-! ## Grades -/

inductive Grade where
  | fresh
  | stale
  | expired
  | unknown
deriving DecidableEq, Repr

/-- `timedelta(hours=n)`, in microseconds. -/
def hours (n : Nat) : Int :=
  n * 3600 * 1000000

/-- `ACTIVITY_FRESH`. -/
def activityFresh : Int :=
  hours 6

/-- `RECENT_FRESH`. -/
def recentFresh : Int :=
  hours 1

/-- `RECENT_CURRENT_USE`. -/
def recentCurrentUse : Int :=
  hours 24

/-- `ACHIEVEMENT_FRESH`. -/
def achievementFresh : Int :=
  hours 6

/-- `HARD_RETENTION`. -/
def hardRetention : Int :=
  hours (7 * 24)

/-- `now - observed`, in microseconds. -/
def elapsed (observed now : Instant) : Int :=
  now.us - observed.us

/-- The grade of an age: fresh up to one bound, and stale up to another. -/
def gradeOf (age freshFor retainedFor : Int) : Grade :=
  if age < 0 then .unknown
  else if age ≤ freshFor then .fresh
  else if age ≤ retainedFor then .stale
  else .expired

/-! ## Recommendations -/

/-- `_freshness`. -/
def freshness (observedAt : Option Instant) (now : Instant) (freshFor : Int) : Grade :=
  match observedAt with
  | none => .unknown
  | some observed => gradeOf (elapsed observed now) freshFor hardRetention

/-- `_recent_freshness`. -/
def recentFreshness (observedAt : Option Instant) (now : Instant) : Grade :=
  match observedAt with
  | none => .unknown
  | some observed => gradeOf (elapsed observed now) (hours 1) (hours 24)

/-- A row of `activity_items`, as far as the queries read its times. -/
structure ActivityRow where
  observedAt : Instant
  recentObservedAt : Option Instant
  recentWindowMinutes : Option Nat
  playtimeForeverMinutes : Option Nat
deriving DecidableEq

/-- `ActivityEvidence`. -/
structure ActivityEvidence where
  freshness : Grade
  observedAt : Instant
  lifetimeMinutes : Option Nat
  recentWindowMinutes : Option Nat
  recentFreshness : Grade
deriving DecidableEq

/-- `now` of `build_recommendation_query` and `build_wishlist_recommendation_query`. -/
def queryTime (now : Instant) : Instant :=
  now.wholeSecond

/-- The activity of a candidate. -/
def activityEvidence (row : ActivityRow) (now : Instant) : ActivityEvidence :=
  let now := queryTime now
  { freshness := freshness (some row.observedAt) now activityFresh
    observedAt := row.observedAt
    lifetimeMinutes := row.playtimeForeverMinutes
    recentWindowMinutes :=
      if row.recentObservedAt.all fun observed => elapsed observed now > hours 24 then none
      else row.recentWindowMinutes
    recentFreshness := recentFreshness row.recentObservedAt now }

/-- A row of `achievement_items`. -/
structure AchievementRow where
  state : String
  errorCode : Option String
  observedAt : Option Instant
  playerObservedAt : Option Instant
  unlocked : Option Nat
  total : Option Nat
deriving DecidableEq

/-- `_achievement_state`. -/
def achievementState (row : AchievementRow) : String :=
  if row.state = "ready" then "ready"
  else if row.state = "profile_not_public" then "profile_private"
  else if row.state = "achievements_not_supported" then "unsupported"
  else if row.state = "unevaluated" ∨ row.state = "running" then "unevaluated"
  else if row.errorCode = some "AUTHENTICATION_FAILED" then "authentication_failed"
  else if row.errorCode = some "PROVIDER_RATE_LIMITED" ∨ row.errorCode = some "REQUEST_THROTTLED" then
    "rate_limited"
  else if row.errorCode = some "PROVIDER_RESPONSE_INVALID" ∨
      row.errorCode = some "INVALID_RESPONSE" then "invalid_response"
  else "provider_failed"

/-- `AchievementEvidence`. -/
structure AchievementEvidence where
  state : String
  freshness : Grade
  observedAt : Option Instant
  unlocked : Option Nat
  total : Option Nat
deriving DecidableEq

/-- The achievements of a candidate: the last good projection, or the latest attempt. -/
def achievementEvidence (row : AchievementRow) (now : Instant) : AchievementEvidence :=
  let state := if row.playerObservedAt.isSome then "ready" else achievementState row
  let observed := if row.playerObservedAt.isSome then row.playerObservedAt else row.observedAt
  { state := state
    freshness := freshness observed (queryTime now) achievementFresh
    observedAt := observed
    unlocked := if state = "ready" then some (row.unlocked.getD 0) else none
    total := if state = "ready" then some (row.total.getD 0) else none }

/-- A classification of the catalog. -/
structure ClassificationFact where
  classification : String
  observedAt : Instant
deriving DecidableEq

/-- `classification_fresh`. -/
def classificationFresh (fact : ClassificationFact) (now : Instant) : Bool :=
  let now := queryTime now
  elapsed fact.observedAt now ≤ hours 24 && now ≥ fact.observedAt

/-! ## Reviews -/

/-- A row of `reviews`. -/
structure ReviewRow where
  appid : Int
  observedAt : Instant
deriving DecidableEq

/-- `freshness` of `_review`. -/
def reviewFreshness (row : ReviewRow) (now : Instant) : Grade :=
  let age := elapsed row.observedAt (queryTime now)
  if age < 0 then .unknown else if age ≤ hours 24 then .fresh else .stale

/-- The counters of `_review_snapshot` about the rows that are there. -/
structure ReviewCounters where
  currentCount : Nat
  staleCurrentCount : Nat
  futureCurrentCount : Nat
deriving DecidableEq

/-- One row in the loop of `_review_snapshot`. -/
def countReview (now : Instant) (counters : ReviewCounters) (row : ReviewRow) : ReviewCounters :=
  let age := elapsed row.observedAt now
  { currentCount := counters.currentCount + 1
    staleCurrentCount := counters.staleCurrentCount + if age > hours 24 then 1 else 0
    futureCurrentCount := counters.futureCurrentCount + if age < 0 then 1 else 0 }

/-- The counters of `_review_snapshot`. -/
def reviewCounters (rows : List ReviewRow) (now : Instant) : ReviewCounters :=
  rows.foldl (countReview (queryTime now)) ⟨0, 0, 0⟩

/-! ## Activity and achievements -/

/-- The freshness of an item of `query_activity`, and the minutes that count. -/
structure ActivityItem where
  activity : Grade
  recentWindow : Grade
  recentWindowMinutes : Option Nat
deriving DecidableEq

/-- `_evidence_freshness`. -/
def evidenceFreshness (age : Option Int) (freshFor retainedFor : Int) : Option Grade :=
  age.map fun age => gradeOf age freshFor retainedFor

/-- An item of `query_activity`. -/
def activityItem (row : ActivityRow) (now : Instant) : ActivityItem :=
  let recent := match row.recentWindowMinutes, row.recentObservedAt with
    | some _, some observed => gradeOf (elapsed observed now) recentFresh recentCurrentUse
    | _, _ => .unknown
  { activity := gradeOf (elapsed row.observedAt now) activityFresh hardRetention
    recentWindow := recent
    recentWindowMinutes := if recent = .expired then none else row.recentWindowMinutes }

/-- The freshness of an item of `query_achievements`. -/
def achievementItemFreshness (row : AchievementRow) (now : Instant) : Option Grade :=
  evidenceFreshness (row.observedAt.map (elapsed · now)) achievementFresh hardRetention

end SteamAgent.Queries
