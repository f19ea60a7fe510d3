import SteamAgent.Storage.Activity

/-!
# The wishlist methods

`begin_sync`, `complete_wishlist_snapshot` and `finish_wishlist_sync`, each as one
transaction, and the pruning of the price and review caches that a promotion
does.

`evidence` stands for the ids that `_insert_evidence` answers in a transaction.
-/

namespace SteamAgent.Storage

open Datetime (Aware)

/-! ## Beginning a sync -/

/-- The foreign keys of `sync_runs`. -/
def subjectExists (db : Db) (machineId : Option String) (accountId : Option Nat) : Bool :=
  machineId.all (fun id => db.machines.any fun m => m.id == id) &&
    accountId.all fun id => db.accounts.any fun a => a.id == id

/-- `begin_sync`. -/
def beginSync (provider capability : String) (startedAt : Aware) (machineId : Option String)
    (accountId : Option Nat) (db : Db) : Except Exn (Nat × Db) := do
  let timestamp ← timestamp startedAt
  require (machineId = none ∨ accountId = none)
    (.valueError "a sync cannot target both a machine and an account")
  require (subjectExists db machineId accountId) .integrityError
  let runs := db.runs.insert (runningSync provider capability machineId accountId timestamp)
  return (runs.last, { db with runs })

/-! ## Membership -/

/-- `1 <= value <= (1 << 32) - 1`. -/
def isAppid (value : Int) : Bool :=
  1 ≤ value && value ≤ 4294967295

/-- `0 <= value <= (1 << 32) - 1`. -/
def isUint32 (value : Int) : Bool :=
  0 ≤ value && value ≤ 4294967295

/-- Whether an AppID is on the current wishlist of an account. -/
def Db.wishes (db : Db) (accountId : Nat) (appid : Int) : Bool :=
  db.wishlistCurrent.any fun c => c.subject == accountId && c.key == appid

/-- Whether an AppID is on some current wishlist. -/
def Db.wished (db : Db) (appid : Int) : Bool :=
  db.wishlistCurrent.any fun c => c.key == appid

/-- Whether a run is terminal. -/
def Db.terminal (db : Db) (id : Nat) : Bool :=
  db.runs.rows.any fun r => r.id == id && r.status != .running

/-- `_prune_price_cache_to_wishlist`. -/
def prunePriceCacheToWishlist (accountId : Nat) (db : Db) : Db :=
  { db with
    priceCurrent := db.priceCurrent.filter fun c =>
      !(c.subject == accountId && !db.wishes c.subject c.key)
    priceSubjects := db.priceSubjects.filter fun c =>
      !(c.accountId == accountId && !db.wishes c.accountId c.appid)
    priceObservations := db.priceObservations.filter fun o =>
      !(o.subject == accountId && !db.wishes o.subject o.key)
    priceDemand := db.priceDemand.filter fun d =>
      !(d.accountId == accountId && db.terminal d.syncRunId && !db.wishes d.accountId d.appid) }

/-- `DELETE FROM review_current WHERE NOT EXISTS (…)`. -/
def pruneReviewsToWishlists (db : Db) : Db :=
  { db with reviewCurrent := db.reviewCurrent.filter fun c => db.wished c.appid }

/-- `_prune_wishlist_payloads`. -/
def pruneWishlistPayloads (accountId selected : Nat) (keepSelected : Bool) (db : Db) : Db :=
  let gone := fun subject id =>
    subject == accountId && (if keepSelected then id != selected else id == selected) &&
      db.terminal id
  { db with
    wishlistObservations := db.wishlistObservations.filter fun o => !gone o.subject o.syncRunId
    wishlistMetadata := db.wishlistMetadata.filter fun m => !gone m.accountId m.syncRunId }

/-! ## The snapshot -/

/-- `WishlistObservation`. -/
structure WishlistObservation where
  appid : Int
  priority : Int
  dateAdded : Int
  observedAt : Aware

/-- The checks on the observations of a snapshot, and their times.  `seen` is
the AppIDs before them. -/
def normalizeWishlist : List Int → List WishlistObservation →
    Except Exn (List (WishlistObservation × String))
  | _, [] => return []
  | seen, observation :: rest => do
    require (isAppid observation.appid ∧ observation.appid ∉ seen ∧
        isUint32 observation.priority ∧ isUint32 observation.dateAdded)
      (.valueError "wishlist observations are invalid")
    let observedAt ← timestamp observation.observedAt
    let rest ← normalizeWishlist (observation.appid :: seen) rest
    return (observation, observedAt) :: rest

/-- The row of an observation. -/
def wishlistRow (evidence : Int → Nat) (id accountId : Nat)
    (item : WishlistObservation × String) : Observation Nat Int WishlistFacts :=
  ⟨id, accountId, item.1.appid,
    ⟨evidence item.1.appid, item.1.priority, item.1.dateAdded, item.2⟩⟩

/-- `_require_wishlist_sync`. -/
def requireWishlistSync (runs : Runs) (id : Nat) : Except Exn (SyncRun × Nat) := do
  let run ← getSyncRun runs id
  require (run.capability = "wishlist.read")
    (.invalidSyncTransition "sync run is not a wishlist sync")
  match run.accountId, run.machineId with
  | some accountId, none => return (run, accountId)
  | _, _ => .error (.invalidSyncTransition "wishlist sync requires only an account_id")

theorem requireWishlistSync_eq_ok {runs : Runs} {run : SyncRun} {id accountId : Nat}
    (h : requireWishlistSync runs id = .ok (run, accountId)) :
    run ∈ runs.rows ∧ run.id = id ∧ run.capability = "wishlist.read" ∧
      run.accountId = some accountId := by
  obtain ⟨run', hget, h⟩ := bind_eq_ok.mp h
  obtain ⟨_, hcap, h⟩ := bind_eq_ok.mp h
  obtain ⟨hmem, hid⟩ := getSyncRun_eq_ok.mp hget
  rw [require_eq_ok] at hcap
  split at h
  · rename_i hacc _
    obtain ⟨rfl, rfl⟩ := Prod.mk.inj (Except.ok.inj h)
    exact ⟨hmem, hid, hcap, hacc⟩
  · cases h

/-- Whether a newer run of the account is complete. -/
def newerComplete (runs : Runs) (capability : String) (accountId id : Nat) : Bool :=
  runs.rows.any fun r => r.ofAccount capability accountId && id < r.id && r.status == .complete

/-- `DELETE FROM wishlist_current WHERE account_id = ?` and the `INSERT` of the
observations of a run. -/
def promoteWishlist (db : Db) (accountId id : Nat) : Db :=
  { db with
    wishlistCurrent := db.wishlistCurrent.filter (fun c => !(c.subject == accountId)) ++
      (db.wishlistObservations.filter fun o => o.syncRunId == id).map
        (Observation.promoted (φ := WishlistFacts) fun facts => facts) }

/-- The end of a run that completes: no error. -/
def SyncRun.completeClean (promoted : Bool) (recordsSeen : Nat) (completedAt : String)
    (r : SyncRun) : SyncRun :=
  { r.completeAt promoted recordsSeen completedAt with errorCode := none, errorDetail := none }

/-- The promotion of a wishlist, unless a newer one is complete, and its end. -/
def settleWishlist (db : Db) (accountId id recordsSeen : Nat) (completed : String) : Db :=
  let promoted := !newerComplete db.runs "wishlist.read" accountId id
  let db :=
    if promoted then
      pruneReviewsToWishlists (prunePriceCacheToWishlist accountId (promoteWishlist db accountId id))
    else
      db
  let db := { db with runs := db.runs.set id (SyncRun.completeClean promoted recordsSeen completed) }
  pruneWishlistPayloads accountId id promoted db

/-- The arguments of `complete_wishlist_snapshot`. -/
structure WishlistSnapshot where
  observations : List WishlistObservation
  itemListRetrievedAt : Aware
  itemCountRetrievedAt : Aware
  itemListReportedCount : Int
  itemCountReportedCount : Int
  completedAt : Aware
  supportLevel : String

/-- The checks on the counts of a snapshot. -/
def WishlistSnapshot.countsMatch (s : WishlistSnapshot) : Bool :=
  0 ≤ s.itemListReportedCount && 0 ≤ s.itemCountReportedCount &&
    s.itemListReportedCount == s.itemCountReportedCount &&
    s.itemListReportedCount == s.observations.length

/-- `complete_wishlist_snapshot`. -/
def completeWishlistSnapshot (evidence : Int → Nat) (id : Nat) (s : WishlistSnapshot) (db : Db) :
    Except Exn Db := do
  let listAt ← timestamp s.itemListRetrievedAt
  let countAt ← timestamp s.itemCountRetrievedAt
  let completed ← timestamp s.completedAt
  require (s.supportLevel ≠ "" ∧ s.supportLevel.length ≤ 128)
    (.valueError "support_level must be between 1 and 128 characters")
  require s.countsMatch (.valueError "wishlist list and count must match")
  let normalized ← normalizeWishlist [] s.observations
  let (run, accountId) ← requireWishlistSync db.runs id
  require (run.status = .running) (.invalidSyncTransition "wishlist sync is already terminal")
  require (accountConsent db accountId "wishlist_persistence").isSome
    (.invalidSyncTransition "wishlist persistence consent is required")
  let db := { db with
    wishlistMetadata := db.wishlistMetadata ++ [⟨id, accountId, run.provider, s.supportLevel,
      listAt, s.itemListReportedCount, countAt, s.itemCountReportedCount⟩]
    wishlistObservations := db.wishlistObservations ++
      normalized.map (wishlistRow evidence id accountId) }
  return settleWishlist db accountId id normalized.length completed

/-- `finish_wishlist_sync`. -/
def finishWishlistSync (id : Nat) (completedAt : Aware) (errorCode : String) (db : Db) :
    Except Exn Db := do
  let completed ← timestamp completedAt
  let (run, accountId) ← requireWishlistSync db.runs id
  require (run.status = .running) (.invalidSyncTransition "wishlist sync is already terminal")
  let db := { db with
    runs := db.runs.set id fun r =>
      { r with status := .failed, completedAt := some completed, promoted := false,
               errorCode := some errorCode, errorDetail := none } }
  return pruneWishlistPayloads accountId id false db

end SteamAgent.Storage
