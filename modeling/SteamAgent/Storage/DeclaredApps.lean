import SteamAgent.Storage.RequestLimits
import SteamAgent.Storage.Reviews

/-!
# The declared-app methods

`begin_declared_app_sync`, `record_declared_app_result`,
`mark_remaining_declared_apps_unevaluated` and `finish_declared_app_sync`, each as
one transaction.

The validation of the facts of an app, `validate_declared_facts_payload`, is a
parameter: whatever it accepts, the methods store.  The identities of the apps
are left out.
-/

namespace SteamAgent.Storage

open Datetime (Aware)

/-! ## The tables -/

/-- The columns that `declared_app_observations` and `declared_app_current` share. -/
structure DeclaredFacts where
  schemaId : String
  factsJson : String
  provider : String
  supportLevel : String
  sourceLocator : String
  humanReferenceUrl : String
deriving DecidableEq

/-- What the facts of an app are about. -/
structure DeclaredKey where
  appid : Int
  country : String
  language : String
deriving DecidableEq

/-- `declared_app_sync_demand`. -/
structure DeclaredDemand where
  syncRunId : Nat
  accountId : Nat
  machineId : String
  key : DeclaredKey
  ordinal : Nat
  targeted : Bool
  evaluated : Bool
  state : String
  errorCode : Option String
  retryAt : Option String
  observedAt : Option String
  explicit : Bool

/-- `declared_app_observations`. -/
structure DeclaredObservation where
  syncRunId : Nat
  key : DeclaredKey
  facts : DeclaredFacts
  observedAt : String
  promoted : Bool

/-- `declared_app_current`.  A deleted run leaves its row without one. -/
structure DeclaredCurrent where
  key : DeclaredKey
  facts : DeclaredFacts
  observedAt : String
  promotedSyncRunId : Option Nat

/-- The part of the database that the methods use. -/
structure DeclaredDb where
  runs : Runs
  accounts : List Account
  machines : List Machine
  consents : List AccountDataConsent
  limits : Limits
  demand : List DeclaredDemand
  observations : List DeclaredObservation
  current : List DeclaredCurrent

namespace DeclaredDb

/-- No runs, no rows. -/
def empty (accounts : List Account) (machines : List Machine) (consents : List AccountDataConsent)
    (limits : Limits) : DeclaredDb :=
  ⟨.empty, accounts, machines, consents, limits, [], [], []⟩

/-- Whether `DELETE FROM sync_runs WHERE p` takes the run with an id. -/
def drops (db : DeclaredDb) (p : SyncRun → Bool) (id : Nat) : Bool :=
  db.runs.rows.any fun r => r.id == id && p r

/-- `DELETE FROM sync_runs WHERE …`.  The deletion cascades to the demand and the
observations, and a current row forgets its run. -/
def deleteRuns (db : DeclaredDb) (p : SyncRun → Bool) : DeclaredDb :=
  { db with
    runs := db.runs.delete p
    demand := db.demand.filter fun d => !db.drops p d.syncRunId
    observations := db.observations.filter fun o => !db.drops p o.syncRunId
    current := db.current.map fun c =>
      if c.promotedSyncRunId.any (db.drops p) then { c with promotedSyncRunId := none } else c }

/-- The current facts about an app. -/
def current? (db : DeclaredDb) (key : DeclaredKey) : Option DeclaredCurrent :=
  db.current.find? fun c => c.key == key && c.facts.provider == "steam_store"

/-- Whether a run is under way. -/
def running (db : DeclaredDb) (id : Nat) : Bool :=
  db.runs.rows.any fun r => r.id == id && r.status == .running

end DeclaredDb

def declaredCapability : String :=
  "compatibility.declared.read"

/-! ## Retention -/

/-- `_prune_declared_apps`. -/
def pruneDeclaredApps (now : String) (db : DeclaredDb) : Except Exn DeclaredDb := do
  let cutoff ← cutoffDays now 30
  let db := { db with current := db.current.filter fun c => !pastCutoff c.observedAt cutoff }
  return db.deleteRuns fun r => r.capability == declaredCapability && pastCutoff r.startedAt cutoff

/-- `COALESCE((SELECT MAX(d.observed_at) …), started_at)`. -/
def lastDeclaredProgress (db : DeclaredDb) (run : SyncRun) : String :=
  match (db.demand.filter fun d => d.syncRunId == run.id).filterMap DeclaredDemand.observedAt with
  | [] => run.startedAt
  | text :: texts => texts.foldl laterText text

/-- A sync that made no progress since a cutoff. -/
def staleDeclaredSync (db : DeclaredDb) (cutoff : String) (run : SyncRun) : Bool :=
  run.capability == declaredCapability && run.status == .running &&
    pastCutoff run.startedAt cutoff && pastCutoff (lastDeclaredProgress db run) cutoff

/-- The demand of a run that is still running becomes unevaluated. -/
def interruptDeclared (id : Nat) (timestamp errorCode : String) (demand : List DeclaredDemand) :
    List DeclaredDemand :=
  demand.map fun d =>
    if d.syncRunId == id && d.state == "running" then
      { d with state := "unevaluated", evaluated := false, errorCode := some errorCode,
               observedAt := some timestamp }
    else d

/-- `SELECT COUNT(*) FROM declared_app_sync_demand WHERE sync_run_id=? AND evaluated=1`. -/
def evaluatedDeclared (demand : List DeclaredDemand) (id : Nat) : Nat :=
  (demand.filter fun d => d.syncRunId == id && d.evaluated).length

/-- The end of one stale sync. -/
def reclaimDeclaredSync (timestamp : String) (db : DeclaredDb) (run : SyncRun) : DeclaredDb :=
  let demand := interruptDeclared run.id timestamp "SYNC_INTERRUPTED" db.demand
  { db with
    demand := demand
    runs := db.runs.set run.id fun r =>
      if r.status == .running then
        { r with status := .failed, promoted := false, completedAt := some timestamp,
                 errorCode := some "SYNC_INTERRUPTED", errorDetail := none,
                 recordsSeen := evaluatedDeclared demand run.id }
      else r }

/-- Retention, and the end of the stale syncs. -/
def reclaimDeclaredSyncs (timestamp : String) (db : DeclaredDb) : Except Exn DeclaredDb := do
  let db ← pruneDeclaredApps timestamp db
  let cutoff ← cutoffMinutes timestamp 15
  return (db.runs.rows.filter (staleDeclaredSync db cutoff)).foldl (reclaimDeclaredSync timestamp) db

/-! ## Eligibility -/

/-- The subjects and the times of one scheduling. -/
structure DeclaredScope where
  demanded : List Int
  country : String
  language : String
  timestamp : String
  wallClock : String
  freshCutoff : String
  negativeCutoff : String
  skipFreshTerminal : Bool

namespace DeclaredScope

/-- The key of a demanded app. -/
def key (scope : DeclaredScope) (appid : Int) : DeclaredKey :=
  ⟨appid, scope.country, scope.language⟩

/-- `… IN (demanded) AND country=? AND language=?`. -/
def covers (scope : DeclaredScope) (key : DeclaredKey) : Bool :=
  scope.demanded.contains key.appid && key == scope.key key.appid

/-- `observed_at>? AND observed_at>?`, after both readings of the clock. -/
def future (scope : DeclaredScope) (text : String) : Bool :=
  scope.timestamp < text && scope.wallClock < text

/-- A current row that is quarantined. -/
def quarantines (scope : DeclaredScope) (c : DeclaredCurrent) : Bool :=
  scope.covers c.key && c.facts.provider == "steam_store" && scope.future c.observedAt

/-- Whether demand is of the lineage of a quarantined row. -/
def inLineage (scope : DeclaredScope) (db : DeclaredDb) (d : DeclaredDemand) : Bool :=
  db.current.any fun c => scope.quarantines c && c.key == d.key &&
    (c.promotedSyncRunId == some d.syncRunId || d.observedAt.any scope.future ||
      db.observations.any fun o => o.syncRunId == d.syncRunId && o.key.appid == d.key.appid &&
        scope.future o.observedAt)

/-- The deletion of one demand of the lineage, with what it leads to. -/
def dropDemand (db : DeclaredDb) (lost : DeclaredDemand) : DeclaredDb :=
  let demand := db.demand.filter fun d => !(d.syncRunId == lost.syncRunId && d.key == lost.key)
  let db := { db with
    demand := demand
    observations := db.observations.filter fun o =>
      !(o.syncRunId == lost.syncRunId && o.key == lost.key) }
  db.deleteRuns fun r => r.id == lost.syncRunId && r.capability == declaredCapability &&
    !demand.any fun d => d.syncRunId == r.id

/-- The future rows are deleted first, then their lineage. -/
def quarantine (scope : DeclaredScope) (db : DeclaredDb) : DeclaredDb :=
  (db.demand.filter (scope.inLineage db)).foldl dropDemand
    { db with current := db.current.filter fun c => !scope.quarantines c }

/-- A target for the app is running in a run that is. -/
def active (scope : DeclaredScope) (db : DeclaredDb) (appid : Int) : Bool :=
  db.demand.any fun d => d.key == scope.key appid && d.targeted && d.state == "running" &&
    db.running d.syncRunId

/-- The app has fresh facts. -/
def fresh (scope : DeclaredScope) (db : DeclaredDb) (appid : Int) : Bool :=
  scope.skipFreshTerminal && db.current.any fun c => c.key == scope.key appid &&
    c.facts.provider == "steam_store" && c.facts.schemaId == "declared-app-facts/0.2" &&
    scope.freshCutoff ≤ c.observedAt && c.observedAt ≤ scope.timestamp

/-- The provider said lately that it does not know the app. -/
def negative (scope : DeclaredScope) (db : DeclaredDb) (appid : Int) : Bool :=
  scope.skipFreshTerminal && db.demand.any fun d => d.key == scope.key appid && d.evaluated &&
    d.observedAt.any (fun text => scope.negativeCutoff ≤ text && text ≤ scope.timestamp) &&
    d.state == "not_found" && db.runs.rows.any fun r => r.id == d.syncRunId

/-- The code of an app that is not a candidate. -/
def skipCode (scope : DeclaredScope) (db : DeclaredDb) (cooldownUntil : Option String)
    (appid : Int) : Option String :=
  if scope.active db appid then some "ACTIVE_REQUEST"
  else if scope.fresh db appid then some "FRESH_LAST_GOOD"
  else if scope.negative db appid then some "NOT_FOUND_CACHE"
  else if cooldownUntil.isSome then some "PROVIDER_COOLDOWN"
  else none

end DeclaredScope

/-! ## Beginning -/

/-- `_catalog_appids`. -/
def catalogAppids (values : List Int) : Except Exn (List Int) := do
  require (values.all fun value => 1 ≤ value ∧ value ≤ 2 ^ 32 - 1)
    (.valueError "catalog AppIDs must be positive unsigned 32-bit integers")
  require values.Nodup (.valueError "catalog demanded AppIDs must be unique")
  return values.insertionSort (· ≤ ·)

/-- `SUPPORTED_REQUEST_LANGUAGES`. -/
def supportedRequestLanguages : List String :=
  ["arabic", "brazilian", "bulgarian", "czech", "danish", "dutch", "english", "finnish", "french",
    "german", "greek", "hungarian", "indonesian", "italian", "japanese", "koreana", "latam", "malay",
    "norwegian", "polish", "portuguese", "romanian", "russian", "schinese", "spanish", "swedish",
    "tchinese", "thai", "turkish", "ukrainian", "vietnamese"]

/-- `SteamDeclaredFactsRequestContext(country, language)`. -/
def checkRequestContext (country language : String) : Except Exn Unit := do
  require (country.toList.length = 2 ∧ country.toList.all Char.isUpper)
    (.valueError "country must be uppercase ISO-like alpha-2")
  require (language ∈ supportedRequestLanguages)
    (.valueError "unsupported Steam request language")

/-- The arguments of `begin_declared_app_sync`. -/
structure DeclaredRequest where
  accountId : Nat
  machineId : String
  demandedAppids : List Int
  country : String
  language : String
  maxItems : Int
  skipFreshTerminal : Bool
  startedAt : Aware
  disclosureVersion : String
  explicitAppids : List Int

/-- `('steam-store-appdetails', 'global')`. -/
def appdetailsLimit : LimitKey :=
  ("steam-store-appdetails", "global")

/-- The cooldown of the provider, unless it is over. -/
def declaredCooldown (limits : Limits) (timestamp : String) : Option String :=
  ((limits appdetailsLimit).bind LimitRow.cooldownUntil).filter fun ends =>
    !(ends ≤ timestamp)

/-- What is known when the eligibility is read. -/
structure DeclaredPlan where
  scope : DeclaredScope
  explicit : List Int
  cooldownUntil : Option String

/-- The checks of `begin_declared_app_sync`, and its scope. -/
def declaredScope (q : DeclaredRequest) (now : Aware) (db : DeclaredDb) :
    Except Exn (DeclaredScope × List Int) := do
  let demanded ← catalogAppids q.demandedAppids
  let explicit ← catalogAppids q.explicitAppids
  require (demanded ≠ []) (.valueError "declared-app demand cannot be empty")
  require (demanded.length ≤ 10000) (.valueError "declared-app demand exceeds the bounded maximum")
  require (explicit.all fun appid => appid ∈ demanded)
    (.valueError "explicit declared-app demand must be selected")
  checkRequestContext q.country q.language
  require (1 ≤ q.maxItems ∧ q.maxItems ≤ 100 ∧ q.disclosureVersion ≠ "")
    (.valueError "declared-app scheduling inputs are invalid")
  let text ← timestamp q.startedAt
  let freshCutoff ← cutoffDays text 7
  let negativeCutoff ← cutoffMinutes text (24 * 60)
  require (db.accounts.any fun a => a.id == q.accountId && a.provider == "steam")
    (.valueError "Steam account is not configured")
  require (db.machines.any fun m => m.id == q.machineId)
    (.valueError "declared-app machine is not configured")
  require ((db.consents.find? fun c => c.accountId == q.accountId &&
      c.consentKind == "compatibility_persistence").any fun c =>
        c.disclosureVersion == q.disclosureVersion)
    (.invalidSyncTransition "current compatibility persistence consent is required")
  let wallClock ← timestamp now
  return (⟨demanded, q.country, q.language, text, wallClock, freshCutoff, negativeCutoff,
    q.skipFreshTerminal⟩, explicit)

/-- The state in which the eligibility is read. -/
def planDeclaredAppSync (q : DeclaredRequest) (now : Aware) (db : DeclaredDb) :
    Except Exn (DeclaredPlan × DeclaredDb) := do
  let (scope, explicit) ← declaredScope q now db
  let db ← reclaimDeclaredSyncs scope.timestamp db
  let cooldownUntil := declaredCooldown db.limits scope.timestamp
  return (⟨scope, explicit, cooldownUntil⟩, scope.quarantine db)

/-- The apps that may be asked for. -/
def DeclaredPlan.candidates (plan : DeclaredPlan) (db : DeclaredDb) : List Int :=
  plan.scope.demanded.filter fun appid =>
    (plan.scope.skipCode db plan.cooldownUntil appid).isNone

/-- The row of a demanded app. -/
def declaredDemandRow (q : DeclaredRequest) (plan : DeclaredPlan) (db : DeclaredDb)
    (targeted : List Int) (demanded : Int × Nat) : DeclaredDemand :=
  let skip := plan.scope.skipCode db plan.cooldownUntil demanded.1
  let target := demanded.1 ∈ targeted
  let code := if target then none else some (skip.getD "MAX_ITEMS_LIMIT")
  { syncRunId := db.runs.last + 1
    accountId := q.accountId
    machineId := q.machineId
    key := plan.scope.key demanded.1
    ordinal := demanded.2
    targeted := target
    evaluated := false
    state := if target then "running" else "unevaluated"
    errorCode := code
    retryAt := if code = some "PROVIDER_COOLDOWN" then plan.cooldownUntil else none
    observedAt := if target then none else some plan.scope.timestamp
    explicit := demanded.1 ∈ plan.explicit }

/-- `begin_declared_app_sync`, with what `_now` reads. -/
def beginDeclaredAppSync (q : DeclaredRequest) (now : Aware) (db : DeclaredDb) :
    Except Exn ((Nat × List Int × List Int) × DeclaredDb) := do
  let (plan, db) ← planDeclaredAppSync q now db
  let candidates := plan.candidates db
  let targeted := candidates.take q.maxItems.toNat
  let runs := db.runs.insert
    (runningSync "steam_store" declaredCapability none (some q.accountId) plan.scope.timestamp)
  return ((runs.last, candidates, targeted), { db with
    runs
    demand := db.demand ++
      plan.scope.demanded.zipIdx.map (declaredDemandRow q plan db targeted) })

/-! ## Recording -/

/-- The arguments of `record_declared_app_result`.  `F` is what a payload is. -/
structure DeclaredResult (F : Type) where
  accountId : Nat
  appid : Int
  state : String
  observedAt : Aware
  facts : Option F
  errorCode : Option String

/-- The `CHECK`s of the tables. -/
def declaredFactsChecked (facts : DeclaredFacts) : Bool :=
  ["declared-app-facts/0.1", "declared-app-facts/0.2"].contains facts.schemaId &&
    facts.provider == "steam_store" && facts.supportLevel == "provisional" &&
    facts.sourceLocator == "steam_store_appdetails"

/-- The demand of a target, and when its run started. -/
def declaredTarget (db : DeclaredDb) (id accountId : Nat) (appid : Int) :
    Option (DeclaredDemand × String) :=
  match db.demand.find? fun d =>
      d.syncRunId == id && d.accountId == accountId && d.key.appid == appid && d.targeted,
    db.runs.get? id with
  | some demand, some run => some (demand, run.startedAt)
  | _, _ => none

/-- Whether facts replace the current ones of their key. -/
def promotesDeclared (db : DeclaredDb) (key : DeclaredKey) (timestamp startedAt : String)
    (id : Nat) : Bool :=
  match db.current? key with
  | none => true
  | some current =>
    current.observedAt ≤ timestamp &&
      match current.promotedSyncRunId.bind db.runs.get? with
      | none => true
      | some run => startedLater startedAt id run.startedAt run.id

/-- The rows of the facts of a result. -/
def recordDeclaredFacts (db : DeclaredDb) (id : Nat) (key : DeclaredKey)
    (timestamp startedAt : String) (facts : DeclaredFacts) : DeclaredDb :=
  let promote := promotesDeclared db key timestamp startedAt id
  { db with
    observations := db.observations ++ [⟨id, key, facts, timestamp, promote⟩]
    current :=
      if promote then
        db.current.filter (fun c => !(c.key == key && c.facts.provider == "steam_store")) ++
          [⟨key, facts, timestamp, some id⟩]
      else db.current }

/-- The error code that a result stores. -/
def storedDeclaredError (db : DeclaredDb) (key : DeclaredKey) (state : String)
    (errorCode : Option String) : Option String :=
  if state = "not_found" ∧ (db.current? key).isSome then some "NOT_FOUND_LAST_GOOD_PRESERVED"
  else errorCode

/-- A malformed response stops the requests of a day. -/
def deferDeclared (limits : Limits) (timestamp : String) (state : String)
    (errorCode : Option String) : Except Exn Limits :=
  if state = "failed" ∧ errorCode = some "PROVIDER_RESPONSE_INVALID" then do
    let now ← readInstant timestamp
    let cooldown ← later now (24 * 3600000000)
    return limits.set appdetailsLimit (deferRow (limits appdetailsLimit) timestamp cooldown.text)
  else
    return limits

/-- The facts of a result, validated for the app of its demand. -/
def storeDeclaredFacts {F : Type} (validate : F → Int → String → String → Except Exn DeclaredFacts)
    (id : Nat) (key : DeclaredKey) (timestamp startedAt : String) (facts : Option F)
    (db : DeclaredDb) : Except Exn DeclaredDb :=
  match facts with
  | none => return db
  | some facts => do
    let canonical ← validate facts key.appid key.country key.language
    require (declaredFactsChecked canonical ∧
      !db.observations.any fun o => o.syncRunId == id && o.key.appid == key.appid) .integrityError
    return recordDeclaredFacts db id key timestamp startedAt canonical

/-- `record_declared_app_result`. -/
def recordDeclaredAppResult {F : Type}
    (validate : F → Int → String → String → Except Exn DeclaredFacts) (id : Nat)
    (q : DeclaredResult F) (db : DeclaredDb) : Except Exn DeclaredDb := do
  require ((q.state = "ready" ∨ q.state = "not_found" ∨ q.state = "failed") ∧
      (q.state = "ready" ↔ q.facts.isSome)) (.valueError "declared-app result is invalid")
  require (q.state = "failed" → q.errorCode.any (· != ""))
    (.valueError "failed declared-app result requires an error code")
  require (q.state ≠ "failed" → q.errorCode.isNone)
    (.valueError "successful declared-app result cannot carry an error")
  let timestamp ← timestamp q.observedAt
  match declaredTarget db id q.accountId q.appid with
  | none => .error (.invalidSyncTransition "declared-app target is not running")
  | some (demand, startedAt) =>
    require (demand.state = "running")
      (.invalidSyncTransition "declared-app target is not running")
    let db ← storeDeclaredFacts validate id demand.key timestamp startedAt q.facts db
    let limits ← deferDeclared db.limits timestamp q.state q.errorCode
    return { db with
      limits
      demand := db.demand.map fun d =>
        if d.syncRunId == id && d.key.appid == q.appid then
          { d with evaluated := true, state := q.state,
                   errorCode := storedDeclaredError db demand.key q.state q.errorCode,
                   observedAt := some timestamp }
        else d }

/-- `mark_remaining_declared_apps_unevaluated`. -/
def markRemainingDeclaredAppsUnevaluated (id : Nat) (observedAt : Aware) (errorCode : String)
    (db : DeclaredDb) : Except Exn DeclaredDb := do
  require (errorCode ≠ "") (.valueError "declared-app interruption requires an error code")
  let timestamp ← timestamp observedAt
  return { db with demand := interruptDeclared id timestamp errorCode db.demand }

/-! ## Finishing -/

/-- What `valid` counts. -/
def DeclaredDemand.valid (d : DeclaredDemand) : Bool :=
  (d.targeted && d.evaluated && (d.state == "ready" || (d.state == "not_found" && d.errorCode.isNone)))
    || (!d.targeted && d.errorCode.any fun code =>
      code == "FRESH_LAST_GOOD" || code == "NOT_FOUND_CACHE")
    || d.errorCode == some "NOT_FOUND_LAST_GOOD_PRESERVED"

/-- What `unresolved` counts. -/
def DeclaredDemand.unresolved (d : DeclaredDemand) : Bool :=
  (d.targeted && (d.state == "failed" || !d.evaluated ||
      d.errorCode == some "NOT_FOUND_LAST_GOOD_PRESERVED"))
    || (!d.targeted && d.errorCode.any fun code =>
      code == "ACTIVE_REQUEST" || code == "MAX_ITEMS_LIMIT" || code == "PROVIDER_COOLDOWN")

/-- The status and the error code of a finished run. -/
def declaredOutcome (demand : List DeclaredDemand) : SyncStatus × Option String :=
  let coded := fun code => demand.any fun d => d.errorCode == some code
  if !demand.any DeclaredDemand.unresolved then (.complete, none)
  else
    let status := if demand.any DeclaredDemand.valid then SyncStatus.partialRun else .failed
    if coded "PROVIDER_COOLDOWN" then (status, some "PROVIDER_COOLDOWN")
    else if coded "ACTIVE_REQUEST" then (status, some "ACTIVE_REQUEST")
    else if coded "MAX_ITEMS_LIMIT" then (status, some "MAX_ITEMS_LIMIT")
    else if status = .partialRun then (status, some "DECLARED_APP_SYNC_PARTIAL")
    else (status, some "DECLARED_APP_SYNC_FAILED")

/-- The row of a finished run. -/
def SyncRun.finishDeclared (db : DeclaredDb) (demand : List DeclaredDemand) (timestamp : String)
    (r : SyncRun) : SyncRun :=
  let outcome := declaredOutcome (demand.filter fun d => d.syncRunId == r.id)
  { r with
    status := outcome.1
    promoted := db.observations.any fun o => o.syncRunId == r.id && o.promoted
    recordsSeen := evaluatedDeclared demand r.id
    completedAt := some timestamp
    errorCode := outcome.2
    errorDetail := none }

/-- `finish_declared_app_sync`. -/
def finishDeclaredAppSync (id : Nat) (completedAt : Aware) (db : DeclaredDb) :
    Except Exn (SyncRun × DeclaredDb) := do
  let timestamp ← timestamp completedAt
  match (db.runs.get? id).filter fun r =>
    r.capability == declaredCapability && r.status == .running with
  | none => .error (.invalidSyncTransition "declared-app sync is not active")
  | some run =>
    let demand := interruptDeclared id timestamp "SYNC_INTERRUPTED" db.demand
    let finished := run.finishDeclared db demand timestamp
    let db ← pruneDeclaredApps timestamp { db with
      demand
      runs := db.runs.set id (SyncRun.finishDeclared db demand timestamp) }
    return (finished, db)

end SteamAgent.Storage
