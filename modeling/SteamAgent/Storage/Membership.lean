import SteamAgent.Storage.Reviews
import SteamAgent.Storage.Transactions

/-!
# The caches follow the wishlists

Wishlist, price and review syncs as processes on one database, and the AppIDs of
the price and review caches.

There are four groups.

* The transactions.
* `Member`, the invariant: what is cached is on a wishlist.
* `Shrinks`: a step that caches nothing and leaves the wishlists alone.
* The steps that cache something, the result, and two runs.
-/

namespace SteamAgent.Storage

open Datetime (Instant Aware)
open Effects (Prog Move System)

/-! ## Transactions -/

/-- The transactions of the wishlist, price and review methods. -/
inductive CacheTxn where
  | beginWishlist (provider : String) (accountId : Nat) (startedAt : Aware)
  | completeWishlist (evidence : Int → Nat) (id : Nat) (s : WishlistSnapshot)
  | finishWishlist (id : Nat) (completedAt : Aware) (errorCode : String)
  | beginPrice (q : PriceRequest)
  | completePrice (evidence : PriceFactObservation → Nat) (id : Nat) (q : PriceResult)
  | checkPrice (id : Nat) (completedAt : Aware) (errorCode : String)
      (retryAfterSeconds : Option Int)
  | finishPrice (id : Nat) (failure : PriceFailure)
  | expirePrice (now : Aware)
  | beginReview (accountId : Nat) (maxItems : Int) (skipFreshTerminal : Bool) (startedAt : Aware)
      (disclosureVersion : String)
  | recordReview (id accountId : Nat) (appid : Int) (state : String) (observedAt : Aware)
      (summary : Option (Int × ReviewSummary)) (errorCode : Option String)
  | markReviews (id : Nat) (observedAt : Aware) (errorCode : String)
  | finishReview (id : Nat) (completedAt : Aware)
  | getSyncRun (id : Nat)

namespace CacheTxn

def Reply : CacheTxn → Type
  | beginWishlist .. => Nat
  | beginPrice .. => Nat
  | checkPrice .. => PriceFailure
  | beginReview .. => Nat × List Int × List Int
  | getSyncRun _ => SyncRun
  | _ => Unit

/-- A transaction that returns nothing. -/
def done (db : Except Exn Db) : Except Exn (Unit × Db) :=
  db.map fun db => ((), db)

def run (urls : UrlLibrary) : (t : CacheTxn) → Db → Except Exn (t.Reply × Db)
  | beginWishlist provider accountId startedAt, db =>
    beginSync provider "wishlist.read" startedAt none (some accountId) db
  | completeWishlist evidence id s, db => done (completeWishlistSnapshot evidence id s db)
  | finishWishlist id completedAt errorCode, db =>
    done (finishWishlistSync id completedAt errorCode db)
  | beginPrice q, db => beginPriceSync q db
  | completePrice evidence id q, db => done (completePriceSync urls evidence id q db)
  | checkPrice id completedAt errorCode retryAfterSeconds, db =>
    (checkPriceSyncRunning id completedAt errorCode retryAfterSeconds db).map fun failure =>
      (failure, db)
  | finishPrice id failure, db => .ok ((), finishPriceSync id failure db)
  | expirePrice now, db => done (expireAt now db)
  | beginReview accountId maxItems skipFreshTerminal startedAt disclosureVersion, db =>
    beginReviewSync accountId maxItems skipFreshTerminal startedAt disclosureVersion db
  | recordReview id accountId appid state observedAt summary errorCode, db =>
    done (recordReviewResult urls id accountId appid state observedAt summary errorCode db)
  | markReviews id observedAt errorCode, db =>
    done (markRemainingReviewsUnevaluated id observedAt errorCode db)
  | finishReview id completedAt, db => done (finishReviewSync id completedAt db)
  | getSyncRun id, db => (Storage.getSyncRun db.runs id).map fun run => (run, db)

end CacheTxn

/-- The transactions of the wishlist, price and review methods, as a family. -/
def cacheTransactions (urls : UrlLibrary) : Transactions :=
  ⟨CacheTxn, CacheTxn.Reply, CacheTxn.run urls⟩

/-! ## The invariant -/

/-- What is cached is on a wishlist, and a wishlist came from a wishlist run. -/
structure Member (db : Db) : Prop where
  prices : ∀ c ∈ db.priceCurrent, db.wishes c.subject c.key = true
  subjects : ∀ c ∈ db.priceSubjects, db.wishes c.accountId c.appid = true
  observations : ∀ o ∈ db.priceObservations, db.wishes o.subject o.key = true
  reviews : ∀ c ∈ db.reviewCurrent, db.wished c.appid = true
  wishlists : ∀ c ∈ db.wishlistCurrent, c.promotedSyncRunId ≤ db.runs.last ∧
    ∀ r ∈ db.runs.rows, r.id = c.promotedSyncRunId → r.capability = "wishlist.read"

/-- A step that caches nothing and leaves the wishlists alone. -/
structure Shrinks (db db' : Db) : Prop where
  wishlist : db'.wishlistCurrent = db.wishlistCurrent
  prices : ∀ c ∈ db'.priceCurrent, c ∈ db.priceCurrent
  subjects : ∀ c ∈ db'.priceSubjects, c ∈ db.priceSubjects
  observations : ∀ o ∈ db'.priceObservations, o ∈ db.priceObservations
  reviews : ∀ c ∈ db'.reviewCurrent, ∃ c' ∈ db.reviewCurrent, c'.appid = c.appid
  runs : db.runs.Extends db'.runs

section Shrinks

variable {db db' db'' : Db}

theorem wishes_congr (h : db'.wishlistCurrent = db.wishlistCurrent) (accountId : Nat) (appid : Int) :
    db'.wishes accountId appid = db.wishes accountId appid := by
  rw [Db.wishes, Db.wishes, h]

theorem wished_congr (h : db'.wishlistCurrent = db.wishlistCurrent) (appid : Int) :
    db'.wished appid = db.wished appid := by
  rw [Db.wished, Db.wished, h]

theorem Shrinks.refl (db : Db) : Shrinks db db :=
  ⟨rfl, fun _ h => h, fun _ h => h, fun _ h => h, fun c h => ⟨c, h, rfl⟩, .refl _⟩

theorem Shrinks.trans (h : Shrinks db db') (h' : Shrinks db' db'') : Shrinks db db'' where
  wishlist := h'.wishlist.trans h.wishlist
  prices c hc := h.prices c (h'.prices c hc)
  subjects c hc := h.subjects c (h'.subjects c hc)
  observations o ho := h.observations o (h'.observations o ho)
  reviews c hc := by
    obtain ⟨c', hc', heq⟩ := h'.reviews c hc
    obtain ⟨c'', hc'', heq'⟩ := h.reviews c' hc'
    exact ⟨c'', hc'', heq'.trans heq⟩
  runs := h.runs.trans h'.runs

/-- A capability that an old id has kept. -/
theorem Runs.Extends.capability {runs runs' : Runs} (h : runs.Extends runs') {id : Nat}
    {capability : String} (hid : id ≤ runs.last)
    (hcap : ∀ r ∈ runs.rows, r.id = id → r.capability = capability) :
    ∀ r ∈ runs'.rows, r.id = id → r.capability = capability := by
  intro r hr hrid
  obtain ⟨r', hr', horigin⟩ := h.origin_eq hr (hrid ▸ hid)
  simp only [SyncRun.origin, Prod.mk.injEq] at horigin
  rw [← horigin.2.1]
  exact hcap r' hr' (horigin.1.trans hrid)

theorem Member.shrinks (h : Member db) (hs : Shrinks db db') : Member db' where
  prices c hc := by
    rw [wishes_congr hs.wishlist]
    exact h.prices c (hs.prices c hc)
  subjects c hc := by
    rw [wishes_congr hs.wishlist]
    exact h.subjects c (hs.subjects c hc)
  observations o ho := by
    rw [wishes_congr hs.wishlist]
    exact h.observations o (hs.observations o ho)
  reviews c hc := by
    obtain ⟨c', hc', heq⟩ := hs.reviews c hc
    rw [wished_congr hs.wishlist, ← heq]
    exact h.reviews c' hc'
  wishlists c hc := by
    rw [hs.wishlist] at hc
    obtain ⟨hle, hcap⟩ := h.wishlists c hc
    exact ⟨Nat.le_trans hle hs.runs.last, hs.runs.capability hle hcap⟩

/-- Deleting runs that are no wishlist syncs. -/
theorem shrinks_deleteRuns (h : Member db) {p : SyncRun → Bool}
    (hp : ∀ r, p r = true → r.capability ≠ "wishlist.read") : Shrinks db (db.deleteRuns p) where
  wishlist := by
    refine List.filter_eq_self.mpr fun c hc => ?_
    have hdrop : db.drops p c.promotedSyncRunId = false := by
      refine Db.drops_eq_false.mpr fun r hr hid => ?_
      cases hpr : p r with
      | false => rfl
      | true => exact absurd ((h.wishlists c hc).2 r hr hid) (hp r hpr)
    rw [hdrop]
    rfl
  prices _ hc := List.mem_of_mem_filter hc
  subjects _ hc := List.mem_of_mem_filter hc
  observations _ ho := List.mem_of_mem_filter ho
  reviews c hc := by
    obtain ⟨c', hc', rfl⟩ := List.mem_map.mp hc
    exact ⟨c', hc', by split <;> rfl⟩
  runs := .delete _ _

/-- A step on the runs and on tables that are no caches. -/
theorem Shrinks.of_runs (hw : db'.wishlistCurrent = db.wishlistCurrent)
    (hp : db'.priceCurrent = db.priceCurrent) (hs : db'.priceSubjects = db.priceSubjects)
    (ho : db'.priceObservations = db.priceObservations)
    (hr : db'.reviewCurrent = db.reviewCurrent) (hruns : db.runs.Extends db'.runs) :
    Shrinks db db' :=
  ⟨hw, fun _ hc => hp ▸ hc, fun _ hc => hs ▸ hc, fun _ h => ho ▸ h,
    fun c hc => ⟨c, hr ▸ hc, rfl⟩, hruns⟩

theorem shrinks_beginSync {provider capability : String} {startedAt : Aware}
    {machineId : Option String} {accountId : Option Nat} {id : Nat}
    (h : beginSync provider capability startedAt machineId accountId db = .ok (id, db')) :
    Shrinks db db' := by
  obtain ⟨timestamp, _, h⟩ := bind_eq_ok.mp h
  obtain ⟨_, _, h⟩ := bind_eq_ok.mp h
  obtain ⟨_, _, h⟩ := bind_eq_ok.mp h
  obtain ⟨_, rfl⟩ := Prod.mk.inj (Except.ok.inj h)
  exact .of_runs rfl rfl rfl rfl rfl (.insert _ _)

theorem shrinks_finishWishlistSync {id : Nat} {completedAt : Aware} {errorCode : String}
    (h : finishWishlistSync id completedAt errorCode db = .ok db') : Shrinks db db' := by
  obtain ⟨completed, _, h⟩ := bind_eq_ok.mp h
  obtain ⟨⟨run, accountId⟩, _, h⟩ := bind_eq_ok.mp h
  obtain ⟨_, _, h⟩ := bind_eq_ok.mp h
  obtain rfl := Except.ok.inj h
  exact .of_runs rfl rfl rfl rfl rfl (.set _ _ fun _ => rfl)

theorem shrinks_beginPriceSync {q : PriceRequest} {id : Nat}
    (h : beginPriceSync q db = .ok (id, db')) : Shrinks db db' := by
  obtain ⟨_, _, h⟩ := bind_eq_ok.mp h
  obtain ⟨timestamp, _, h⟩ := bind_eq_ok.mp h
  obtain ⟨_, _, h⟩ := bind_eq_ok.mp h
  obtain ⟨_, rfl⟩ := Prod.mk.inj (Except.ok.inj h)
  exact .of_runs rfl rfl rfl rfl rfl (.insert _ _)

theorem shrinks_closePriceSync (q : PriceResult) (id : Nat) (promoted : Bool) (completed : String) :
    Shrinks db (closePriceSync q id promoted completed db) :=
  .of_runs rfl rfl rfl rfl rfl (.set _ _ fun _ => rfl)

theorem shrinks_finishPriceSync {id : Nat} {failure : PriceFailure} :
    Shrinks db (finishPriceSync id failure db) :=
  .of_runs rfl rfl rfl rfl rfl (.set _ _ fun _ => rfl)

theorem shrinks_expirePriceData (h : Member db) {now : String}
    (hok : expirePriceData now db = .ok db') : Shrinks db db' := by
  obtain ⟨cutoff, _, hok⟩ := bind_eq_ok.mp hok
  obtain rfl := Except.ok.inj hok
  have hfilter : Shrinks db { db with
      priceCurrent := db.priceCurrent.filter fun c => !hasExpired c.facts.hardExpiresAt now
      priceSubjects := db.priceSubjects.filter fun c => !hasExpired c.hardExpiresAt now
      priceObservations :=
        db.priceObservations.filter fun o => !hasExpired o.facts.hardExpiresAt now } :=
    ⟨rfl, fun _ hc => List.mem_of_mem_filter hc, fun _ hc => List.mem_of_mem_filter hc,
      fun _ ho => List.mem_of_mem_filter ho, fun c hc => ⟨c, hc, rfl⟩, .refl _⟩
  refine hfilter.trans (shrinks_deleteRuns (h.shrinks hfilter) fun r hr => ?_)
  simp only [Bool.and_eq_true, beq_iff_eq] at hr
  rw [hr.1]
  decide

theorem shrinks_pruneReviews (h : Member db) {now : String} (hok : pruneReviews now db = .ok db') :
    Shrinks db db' := by
  obtain ⟨cutoff, _, hok⟩ := bind_eq_ok.mp hok
  obtain rfl := Except.ok.inj hok
  have hfilter : Shrinks db (pruneReviewsToWishlists { db with
      reviewCurrent := db.reviewCurrent.filter fun c => !pastCutoff c.observedAt cutoff }) :=
    ⟨rfl, fun _ hc => hc, fun _ hc => hc, fun _ ho => ho,
      fun c hc => ⟨c, List.mem_of_mem_filter (List.mem_of_mem_filter hc), rfl⟩, .refl _⟩
  refine hfilter.trans (shrinks_deleteRuns (h.shrinks hfilter) fun r hr => ?_)
  simp only [Bool.and_eq_true, beq_iff_eq] at hr
  rw [hr.1.1]
  decide

theorem shrinks_interrupt (timestamp : String) (stale : List SyncRun) (db : Db) :
    Shrinks db (stale.foldl (interruptReviewSync timestamp) db) := by
  induction stale generalizing db with
  | nil => exact .refl db
  | cons run stale ih =>
    have hstep : Shrinks db (interruptReviewSync timestamp db run) :=
      .of_runs rfl rfl rfl rfl rfl (.set _ _ fun _ => rfl)
    exact hstep.trans (ih _)

theorem shrinks_beginReviewSync (h : Member db) {accountId : Nat} {maxItems : Int}
    {skipFreshTerminal : Bool} {startedAt : Aware} {disclosureVersion : String}
    {reply : Nat × List Int × List Int}
    (hok : beginReviewSync accountId maxItems skipFreshTerminal startedAt disclosureVersion db
      = .ok (reply, db')) : Shrinks db db' := by
  obtain ⟨timestamp, _, hok⟩ := bind_eq_ok.mp hok
  obtain ⟨_, _, hok⟩ := bind_eq_ok.mp hok
  obtain ⟨_, _, hok⟩ := bind_eq_ok.mp hok
  obtain ⟨_, _, hok⟩ := bind_eq_ok.mp hok
  obtain ⟨_, _, hok⟩ := bind_eq_ok.mp hok
  obtain ⟨db₁, h₁, hok⟩ := bind_eq_ok.mp hok
  obtain ⟨staleCutoff, _, hok⟩ := bind_eq_ok.mp hok
  obtain ⟨candidates, _, hok⟩ := bind_eq_ok.mp hok
  obtain ⟨_, rfl⟩ := Prod.mk.inj (Except.ok.inj hok)
  have hstale := shrinks_interrupt timestamp
    (db₁.runs.rows.filter (staleReviewSync db₁ accountId staleCutoff)) db₁
  exact ((shrinks_pruneReviews h h₁).trans hstale).trans
    (.of_runs rfl rfl rfl rfl rfl (.insert _ _))

theorem shrinks_markRemainingReviewsUnevaluated {id : Nat} {observedAt : Aware}
    {errorCode : String}
    (hok : markRemainingReviewsUnevaluated id observedAt errorCode db = .ok db') :
    Shrinks db db' := by
  obtain ⟨timestamp, _, hok⟩ := bind_eq_ok.mp hok
  obtain rfl := Except.ok.inj hok
  exact .of_runs rfl rfl rfl rfl rfl (.refl _)

theorem shrinks_finishReviewSync (h : Member db) {id : Nat} {completedAt : Aware}
    (hok : finishReviewSync id completedAt db = .ok db') : Shrinks db db' := by
  obtain ⟨timestamp, _, hok⟩ := bind_eq_ok.mp hok
  obtain ⟨_, _, hok⟩ := bind_eq_ok.mp hok
  have hstep : Shrinks db { db with
      reviewDemand := interruptDemand id timestamp "SYNC_INTERRUPTED" db.reviewDemand
      runs := db.runs.set id (SyncRun.completeAt true (evaluatedCount
        (interruptDemand id timestamp "SYNC_INTERRUPTED" db.reviewDemand) id) timestamp) } :=
    .of_runs rfl rfl rfl rfl rfl (.set _ _ fun _ => rfl)
  exact hstep.trans (shrinks_pruneReviews (h.shrinks hstep) hok)

end Shrinks

/-! ## Steps that cache something -/

section Records

variable {db db' : Db} {accountId id : Nat}

theorem wishes_eq_true {appid : Int} :
    db.wishes accountId appid = true ↔
      ∃ c ∈ db.wishlistCurrent, c.subject = accountId ∧ c.key = appid := by
  simp [Db.wishes]

/-- A promotion keeps the wishlists of the other accounts. -/
theorem wishes_promoteWishlist {b : Nat} {appid : Int} (hne : b ≠ accountId)
    (h : db.wishes b appid = true) : (promoteWishlist db accountId id).wishes b appid = true := by
  obtain ⟨c, hc, rfl, rfl⟩ := wishes_eq_true.mp h
  refine wishes_eq_true.mpr ⟨c, List.mem_append_left _ ?_, rfl, rfl⟩
  exact List.mem_filter.mpr ⟨hc, by simpa using hne⟩

/-- A promoted wishlist, with the caches pruned to it. -/
theorem Member.promote (h : Member db) {run : SyncRun} (hrun : run ∈ db.runs.rows)
    (hcap : run.capability = "wishlist.read") :
    Member (pruneReviewsToWishlists
      (prunePriceCacheToWishlist accountId (promoteWishlist db accountId run.id))) where
  prices c hc := by
    obtain ⟨hc, hkeep⟩ := List.mem_filter.mp hc
    show (promoteWishlist db accountId run.id).wishes c.subject c.key = true
    by_cases hsub : c.subject = accountId
    · simpa [hsub] using hkeep
    · exact wishes_promoteWishlist hsub (h.prices c hc)
  subjects c hc := by
    obtain ⟨hc, hkeep⟩ := List.mem_filter.mp hc
    show (promoteWishlist db accountId run.id).wishes c.accountId c.appid = true
    by_cases hsub : c.accountId = accountId
    · simpa [hsub] using hkeep
    · exact wishes_promoteWishlist hsub (h.subjects c hc)
  observations o ho := by
    obtain ⟨ho, hkeep⟩ := List.mem_filter.mp ho
    show (promoteWishlist db accountId run.id).wishes o.subject o.key = true
    by_cases hsub : o.subject = accountId
    · simpa [hsub] using hkeep
    · exact wishes_promoteWishlist hsub (h.observations o ho)
  reviews c hc := (List.mem_filter.mp hc).2
  wishlists c hc := by
    rcases List.mem_append.mp hc with hc | hc
    · exact h.wishlists c (List.mem_of_mem_filter hc)
    · obtain ⟨o, ho, rfl⟩ := List.mem_map.mp hc
      have hid : o.syncRunId = run.id := by simpa using (List.mem_filter.mp ho).2
      refine ⟨by rw [Observation.promoted, hid]; exact db.runs.bound run hrun, fun r hr hrid => ?_⟩
      rw [Runs.eq_of_id hr hrun (hrid.trans hid)]
      exact hcap

theorem Member.settleWishlist (h : Member db) {run : SyncRun} (hrun : run ∈ db.runs.rows)
    (hcap : run.capability = "wishlist.read") (recordsSeen : Nat) (completed : String) :
    Member (settleWishlist db accountId run.id recordsSeen completed) := by
  unfold Storage.settleWishlist
  cases newerComplete db.runs "wishlist.read" accountId run.id with
  | true => exact h.shrinks (.of_runs rfl rfl rfl rfl rfl (.set _ _ fun _ => rfl))
  | false =>
    exact (h.promote hrun hcap).shrinks (.of_runs rfl rfl rfl rfl rfl (.set _ _ fun _ => rfl))

theorem Member.completeWishlistSnapshot (h : Member db) {evidence : Int → Nat}
    {s : WishlistSnapshot} (hok : completeWishlistSnapshot evidence id s db = .ok db') :
    Member db' := by
  obtain ⟨listAt, _, hok⟩ := bind_eq_ok.mp hok
  obtain ⟨countAt, _, hok⟩ := bind_eq_ok.mp hok
  obtain ⟨completed, _, hok⟩ := bind_eq_ok.mp hok
  obtain ⟨_, _, hok⟩ := bind_eq_ok.mp hok
  obtain ⟨_, _, hok⟩ := bind_eq_ok.mp hok
  obtain ⟨normalized, _, hok⟩ := bind_eq_ok.mp hok
  obtain ⟨⟨run, a⟩, hrun, hok⟩ := bind_eq_ok.mp hok
  obtain ⟨hmem, rfl, hcap, _⟩ := requireWishlistSync_eq_ok hrun
  obtain ⟨_, _, hok⟩ := bind_eq_ok.mp hok
  obtain ⟨_, _, hok⟩ := bind_eq_ok.mp hok
  obtain rfl := Except.ok.inj hok
  have hrecorded : Member { db with
      wishlistMetadata := db.wishlistMetadata ++ [⟨run.id, a, run.provider, s.supportLevel,
        listAt, s.itemListReportedCount, countAt, s.itemCountReportedCount⟩]
      wishlistObservations := db.wishlistObservations ++
        normalized.map (wishlistRow evidence run.id a) } :=
    h.shrinks (.of_runs rfl rfl rfl rfl rfl (.refl _))
  exact hrecorded.settleWishlist hmem hcap normalized.length completed

/-- The rows of facts are of the account, and of apps with an outcome. -/
theorem priceRows_spec {urls : UrlLibrary} {evidence : PriceFactObservation → Nat} {run : SyncRun}
    {country : String} {completed : Instant} {seen : List (Int × String × Int)}
    {facts : List PriceFactObservation} {rows : List (Observation Nat Int PriceFacts)}
    (h : priceRows urls evidence run accountId country completed seen facts = .ok rows) :
    ∀ o ∈ rows, o.subject = accountId ∧ ∃ fact ∈ facts, o.key = fact.appid := by
  induction facts generalizing seen rows with
  | nil =>
    obtain rfl := Except.ok.inj h
    simp
  | cons fact facts ih =>
    obtain ⟨_, _, h⟩ := bind_eq_ok.mp h
    obtain ⟨row, hrow, h⟩ := bind_eq_ok.mp h
    obtain ⟨rest, hrest, h⟩ := bind_eq_ok.mp h
    obtain rfl := Except.ok.inj h
    intro o ho
    rcases List.mem_cons.mp ho with rfl | ho
    · obtain ⟨⟨observed, effective⟩, _, hrow⟩ := bind_eq_ok.mp hrow
      obtain ⟨started, _, hrow⟩ := bind_eq_ok.mp hrow
      obtain ⟨_, _, hrow⟩ := bind_eq_ok.mp hrow
      obtain ⟨freshUntil, _, hrow⟩ := bind_eq_ok.mp hrow
      obtain ⟨hardExpires, _, hrow⟩ := bind_eq_ok.mp hrow
      obtain rfl := Except.ok.inj hrow
      exact ⟨rfl, fact, List.mem_cons_self, rfl⟩
    · obtain ⟨hsub, fact', hfact, hkey⟩ := ih hrest o ho
      exact ⟨hsub, fact', List.mem_cons_of_mem _ hfact, hkey⟩

/-- The promotion of an outcome whose AppID is on the wishlist. -/
theorem Member.promoteOutcome (h : Member db) {run : SyncRun} {country completed : String}
    {rows : List (Observation Nat Int PriceFacts)} {outcome : Int × String}
    (hrows : ∀ o ∈ rows, o.subject = accountId)
    (hw : db.wishes accountId outcome.1 = true)
    (hok : promoteOutcome run accountId country completed rows db outcome = .ok db') :
    Member db' ∧ db'.wishlistCurrent = db.wishlistCurrent := by
  unfold Storage.promoteOutcome at hok
  split at hok
  · obtain rfl := Except.ok.inj hok
    exact ⟨h, rfl⟩
  · obtain ⟨observed, _, hok⟩ := bind_eq_ok.mp hok
    obtain ⟨expires, _, hok⟩ := bind_eq_ok.mp hok
    obtain ⟨freshUntil, _, hok⟩ := bind_eq_ok.mp hok
    obtain rfl := Except.ok.inj hok
    refine ⟨⟨fun c hc => ?_, fun c hc => ?_, h.observations, h.reviews, h.wishlists⟩, rfl⟩
    · rcases List.mem_append.mp hc with hc | hc
      · exact h.prices c (List.mem_of_mem_filter hc)
      · obtain ⟨o, ho, rfl⟩ := List.mem_map.mp hc
        obtain ⟨ho, hkey⟩ := List.mem_filter.mp ho
        rw [Observation.promoted, hrows o ho, beq_iff_eq.mp hkey]
        exact hw
    · rcases List.mem_append.mp hc with hc | hc
      · exact h.subjects c (List.mem_of_mem_filter hc)
      · rw [List.mem_singleton.mp hc]
        exact hw

theorem Member.promoteOutcomes {run : SyncRun} {country completed : String}
    {rows : List (Observation Nat Int PriceFacts)} {outcomes : List (Int × String)}
    (hrows : ∀ o ∈ rows, o.subject = accountId) {db : Db} (h : Member db)
    (hw : ∀ outcome ∈ outcomes, db.wishes accountId outcome.1 = true)
    (hok : outcomes.foldlM (Storage.promoteOutcome run accountId country completed rows) db
      = Except.ok db') : Member db' := by
  induction outcomes generalizing db with
  | nil =>
    obtain rfl := Except.ok.inj hok
    exact h
  | cons outcome outcomes ih =>
    rw [List.foldlM_cons] at hok
    obtain ⟨db₁, h₁, hok⟩ := bind_eq_ok.mp hok
    obtain ⟨hmember, hsame⟩ := h.promoteOutcome hrows (hw outcome List.mem_cons_self) h₁
    refine ih hmember (fun outcome' ho => ?_) hok
    rw [wishes_congr hsame]
    exact hw outcome' (List.mem_cons_of_mem _ ho)

/-- A fact that passes the checks is of an app with an outcome. -/
theorem outcome_of_checkPriceResult {q : PriceResult} {reply : Unit}
    (h : checkPriceResult q = .ok reply) :
    ∀ fact ∈ q.facts, ∃ outcome ∈ q.outcomes, outcome.1 = fact.appid := by
  obtain ⟨_, _, h⟩ := bind_eq_ok.mp h
  obtain ⟨_, _, h⟩ := bind_eq_ok.mp h
  obtain ⟨_, _, h⟩ := bind_eq_ok.mp h
  obtain ⟨_, _, h⟩ := bind_eq_ok.mp h
  obtain ⟨_, _, h⟩ := bind_eq_ok.mp h
  obtain ⟨_, hfacts, h⟩ := bind_eq_ok.mp h
  rw [require_eq_ok] at hfacts
  intro fact hfact
  have hsome := List.all_eq_true.mp hfacts fact hfact
  rw [PriceResult.outcome?, Option.isSome_map, List.find?_isSome] at hsome
  obtain ⟨outcome, ho, heq⟩ := hsome
  exact ⟨outcome, ho, beq_iff_eq.mp heq⟩

/-- A result for AppIDs that are all on the wishlist of the account. -/
theorem Member.completePriceSync (h : Member db) {urls : UrlLibrary}
    {evidence : PriceFactObservation → Nat} {q : PriceResult}
    (hw : ∀ run metadata accountId, runningPriceSync db id = .ok (run, metadata, accountId) →
      ∀ outcome ∈ q.outcomes, db.wishes accountId outcome.1 = true)
    (hok : completePriceSync urls evidence id q db = .ok db') : Member db' := by
  obtain ⟨completed, _, hok⟩ := bind_eq_ok.mp hok
  obtain ⟨_, hcheck, hok⟩ := bind_eq_ok.mp hok
  obtain ⟨⟨run, metadata, accountId⟩, hrun, hok⟩ := bind_eq_ok.mp hok
  obtain ⟨_, _, hok⟩ := bind_eq_ok.mp hok
  obtain ⟨_, _, hok⟩ := bind_eq_ok.mp hok
  obtain ⟨rows, hrows, hok⟩ := bind_eq_ok.mp hok
  obtain ⟨db₁, hpromote, hok⟩ := bind_eq_ok.mp hok
  obtain ⟨db₂, hexpire, hok⟩ := bind_eq_ok.mp hok
  obtain rfl := Except.ok.inj hok
  have hwished := hw run metadata accountId hrun
  have hspec := priceRows_spec hrows
  have hrecorded : Member { db with priceObservations := db.priceObservations ++ rows } := by
    refine ⟨h.prices, h.subjects, fun o ho => ?_, h.reviews, h.wishlists⟩
    rcases List.mem_append.mp ho with ho | ho
    · exact h.observations o ho
    · obtain ⟨hsub, fact, hfact, hkey⟩ := hspec o ho
      obtain ⟨outcome, houtcome, heq⟩ := outcome_of_checkPriceResult hcheck fact
        ((List.mem_insertionSort _).mp hfact)
      show db.wishes o.subject o.key = true
      rw [hsub, hkey, ← heq]
      exact hwished outcome houtcome
  have hpromoted : Member db₁ :=
    hrecorded.promoteOutcomes (fun o ho => (hspec o ho).1)
      (fun outcome ho => hwished outcome ((List.mem_insertionSort _).mp ho)) hpromote
  have hexpired : Member db₂ := by
    have hclosed := fun promoted =>
      hpromoted.shrinks (shrinks_closePriceSync q id promoted completed.text)
    exact (hclosed _).shrinks (shrinks_expirePriceData (hclosed _) hexpire)
  refine hexpired.shrinks ?_
  exact ⟨rfl, fun _ hc => hc, fun _ hc => hc, fun _ ho => List.mem_of_mem_filter ho,
    fun c hc => ⟨c, hc, rfl⟩, .refl _⟩

/-- A result for an app that is on some wishlist, or without a summary. -/
theorem Member.recordReviewResult (h : Member db) {urls : UrlLibrary} {appid : Int}
    {state : String} {observedAt : Aware} {summary : Option (Int × ReviewSummary)}
    {errorCode : Option String}
    (hw : summary.isSome → ∀ target, reviewTarget db id accountId appid = some target →
      target.1.state = "running" → db.wished appid = true)
    (hok : recordReviewResult urls id accountId appid state observedAt summary errorCode db
      = .ok db') : Member db' := by
  obtain ⟨_, _, hok⟩ := bind_eq_ok.mp hok
  obtain ⟨timestamp, _, hok⟩ := bind_eq_ok.mp hok
  obtain ⟨_, _, hok⟩ := bind_eq_ok.mp hok
  cases htarget : reviewTarget db id accountId appid with
  | none =>
    rw [htarget] at hok
    cases hok
  | some target =>
    obtain ⟨demand, startedAt⟩ := target
    rw [htarget] at hok
    obtain ⟨_, hrunning, hok⟩ := bind_eq_ok.mp hok
    obtain rfl := Except.ok.inj hok
    cases summary with
    | none => exact h.shrinks (.of_runs rfl rfl rfl rfl rfl (.refl _))
    | some summary =>
      refine ⟨h.prices, h.subjects, h.observations, fun c hc => ?_, h.wishlists⟩
      show db.wished c.appid = true
      simp only [recordReviewSummary] at hc
      split at hc
      · rcases List.mem_append.mp hc with hc | hc
        · exact h.reviews c (List.mem_of_mem_filter hc)
        · rw [List.mem_singleton.mp hc]
          exact hw rfl _ htarget (require_eq_ok.mp hrunning)
      · exact h.reviews c hc

end Records

/-! ## The result -/

/-- What is recorded is still on the wishlist: of the account of a price sync,
and of any account for a review. -/
def recordsWished (db : Db) : CacheTxn → Bool
  | .completePrice _ id q =>
    (runningPriceSync db id).toOption.all fun (_, _, accountId) =>
      q.outcomes.all fun outcome => db.wishes accountId outcome.1
  | .recordReview id accountId appid _ _ summary _ =>
    summary.isNone || db.wished appid ||
      (reviewTarget db id accountId appid).all fun (demand, _) => demand.state != "running"
  | _ => true

/-- A transaction that returns nothing. -/
theorem CacheTxn.done_eq_ok {result : Except Exn Db} {reply : Unit} {db' : Db}
    (h : CacheTxn.done result = .ok (reply, db')) : result = .ok db' := by
  cases result with
  | error x => cases h
  | ok db => rw [(Prod.mk.inj (Except.ok.inj h)).2]

theorem member_run {urls : UrlLibrary} (t : CacheTxn) (db : Db) (reply : t.Reply) (db' : Db)
    (h : Member db) (hw : recordsWished db t = true) (hok : t.run urls db = .ok (reply, db')) :
    Member db' := by
  cases t with
  | beginWishlist => exact h.shrinks (shrinks_beginSync hok)
  | completeWishlist => exact h.completeWishlistSnapshot (CacheTxn.done_eq_ok hok)
  | finishWishlist => exact h.shrinks (shrinks_finishWishlistSync (CacheTxn.done_eq_ok hok))
  | beginPrice => exact h.shrinks (shrinks_beginPriceSync hok)
  | completePrice evidence id q =>
    refine h.completePriceSync (fun run metadata accountId hrun outcome ho => ?_)
      (CacheTxn.done_eq_ok hok)
    simp only [recordsWished, hrun, Except.toOption, Option.all_some] at hw
    exact List.all_eq_true.mp hw outcome ho
  | checkPrice =>
    rw [eq_of_map_eq_ok hok]
    exact h
  | finishPrice =>
    obtain ⟨_, rfl⟩ := Prod.mk.inj (Except.ok.inj hok)
    exact h.shrinks shrinks_finishPriceSync
  | expirePrice =>
    obtain ⟨_, _, hok⟩ := bind_eq_ok.mp (CacheTxn.done_eq_ok hok)
    exact h.shrinks (shrinks_expirePriceData h hok)
  | beginReview => exact h.shrinks (shrinks_beginReviewSync h hok)
  | recordReview id accountId appid state observedAt summary errorCode =>
    refine h.recordReviewResult (fun hsummary target htarget hrunning => ?_)
      (CacheTxn.done_eq_ok hok)
    simpa [recordsWished, Option.isSome_iff_ne_none.mp hsummary, htarget, hrunning] using hw
  | markReviews =>
    exact h.shrinks (shrinks_markRemainingReviewsUnevaluated (CacheTxn.done_eq_ok hok))
  | finishReview => exact h.shrinks (shrinks_finishReviewSync h (CacheTxn.done_eq_ok hok))
  | getSyncRun id =>
    rw [eq_of_map_eq_ok hok]
    exact h

theorem member_empty (accounts : List Account) (machines : List Machine)
    (consents : List AccountDataConsent) (machineConsents : List MachineDataConsent) :
    Member (Db.empty accounts machines consents machineConsents) := by
  constructor <;> intro c hc <;> simp [Db.empty] at hc

/-! ## Processes -/

/-- A process of wishlist, price and review transactions. -/
abbrev CacheProg (urls : UrlLibrary) := Prog (cacheTransactions urls).sig Exn Unit

/-- One transaction after the other. -/
def inTurn (urls : UrlLibrary) : List CacheTxn → CacheProg urls
  | [] => return ()
  | t :: ts => do
    let _ ← (cacheTransactions urls).transact t
    inTurn urls ts

/-- A system of such processes. -/
abbrev CacheSystem (urls : UrlLibrary) := System (cacheTransactions urls).sig Stored Exn Unit

/-- No process on a database without runs. -/
def blankCache (urls : UrlLibrary) (accounts : List Account) (consents : List AccountDataConsent)
    (clock : Instant) : CacheSystem urls :=
  ⟨⟨Db.empty accounts [] consents [], clock⟩, []⟩

/-- While no process records an AppID that has left the wishlist, the price cache
of an account is on its wishlist and the review cache on some wishlist. -/
theorem caches_follow_wishlists {urls : UrlLibrary} {accounts : List Account}
    {consents : List AccountDataConsent} {clock : Instant} {s : CacheSystem urls}
    (h : System.Reach ((cacheTransactions urls).dynamics fun _ => True)
      (blankCache urls accounts consents clock) s)
    (hwished : ∀ m ∈ s.allMoves,
      Transactions.meets (T := cacheTransactions urls) recordsWished m = true) :
    (∀ c ∈ s.world.db.priceCurrent, s.world.db.wishes c.subject c.key = true) ∧
    (∀ c ∈ s.world.db.priceSubjects, s.world.db.wishes c.accountId c.appid = true) ∧
    (∀ o ∈ s.world.db.priceObservations, s.world.db.wishes o.subject o.key = true) ∧
    ∀ c ∈ s.world.db.reviewCurrent, s.world.db.wished c.appid = true := by
  have hmember : Member s.world.db :=
    Transactions.reach_inv Member member_run h (member_empty ..) hwished
  exact ⟨hmember.prices, hmember.subjects, hmember.observations, hmember.reviews⟩

/-! ## Two runs -/

/-- No URL is well formed. -/
def noUrls : UrlLibrary :=
  ⟨fun _ => none, fun _ => [], fun _ => none⟩

/-- Noon of 2024-01-01. -/
def priceNoon : Instant :=
  ⟨63839707200000000, by decide⟩

/-- One account that agreed to keep its wishlist. -/
def wishing : CacheSystem noUrls :=
  blankCache noUrls [⟨1, "steam"⟩] [⟨1, "wishlist_persistence", "1", true⟩] priceNoon

/-- A wishlist of the given AppIDs. -/
def wishlistOf (appids : List Int) : WishlistSnapshot where
  observations := appids.map fun appid => ⟨appid, 0, 0, Aware.ofInstant priceNoon⟩
  itemListRetrievedAt := Aware.ofInstant priceNoon
  itemCountRetrievedAt := Aware.ofInstant priceNoon
  itemListReportedCount := appids.length
  itemCountReportedCount := appids.length
  completedAt := Aware.ofInstant priceNoon
  supportLevel := "public"

/-- A wishlist sync, whose run has the given id. -/
def wishlistSync (id : Nat) (appids : List Int) : CacheProg noUrls :=
  inTurn noUrls
    [.beginWishlist "steam_web_api" 1 (Aware.ofInstant priceNoon),
      .completeWishlist (fun _ => 1) id (wishlistOf appids)]

/-- A price sync of one AppID, whose run has the given id. -/
def priceSync (id : Nat) (appid : Int) : CacheProg noUrls :=
  inTurn noUrls
    [.beginPrice
        ⟨"gg-deals", 1, "US", 1, [⟨appid, 0, 0, 0⟩], none, none, Aware.ofInstant priceNoon⟩,
      .completePrice (fun _ => 1) id
        ⟨[(appid, "not_found")], [], Aware.ofInstant priceNoon, .complete, none, none, none, none, none,
          by simp⟩]

/-- Moves of process `i`. -/
def turn (i n : Nat) (s : CacheSystem noUrls) : CacheSystem noUrls :=
  s.moves (Transactions.answers priceNoon) i n

theorem reach_turn {s : CacheSystem noUrls}
    (h : System.Reach ((cacheTransactions noUrls).dynamics fun _ => True) wishing s) (i n : Nat) :
    System.Reach ((cacheTransactions noUrls).dynamics fun _ => True) wishing (turn i n s) :=
  h.moves (fun w c => Transactions.perform_answers _ i w c) n

/-- A wishlist, and a price sync that has begun. -/
def begunPrices : CacheSystem noUrls :=
  turn 1 1 ((turn 0 2 (wishing.start (wishlistSync 1 [10]))).start (priceSync 2 10))

theorem reach_begunPrices :
    System.Reach ((cacheTransactions noUrls).dynamics fun _ => True) wishing begunPrices := by
  have hsync : System.Reach ((cacheTransactions noUrls).dynamics fun _ => True) wishing
      (wishing.start (wishlistSync 1 [10])) := .start .refl trivial
  exact reach_turn ((reach_turn hsync 0 2).start trivial) 1 1

/-- AppID 10 leaves the wishlist before the price sync completes. -/
def crossedSyncs : CacheSystem noUrls :=
  turn 1 1 (turn 2 2 (begunPrices.start (wishlistSync 3 [20])))

/-- The price sync brings the removed AppID back. -/
theorem caches_follow_wishlists_crossed :
    ∃ s, System.Reach ((cacheTransactions noUrls).dynamics fun _ => True) wishing s ∧
      ∃ c ∈ s.world.db.priceSubjects, s.world.db.wishes c.accountId c.appid = false := by
  refine ⟨crossedSyncs, reach_turn (reach_turn (reach_begunPrices.start trivial) 2 2) 1 1, ?_⟩
  have hback : (crossedSyncs.world.db.priceSubjects.any fun c =>
      !crossedSyncs.world.db.wishes c.accountId c.appid) = true := by
    decide +kernel
  obtain ⟨c, hc, hw⟩ := List.any_eq_true.mp hback
  exact ⟨c, hc, by simpa using hw⟩

/-- The price sync completes first. -/
theorem caches_follow_wishlists_apart :
    (turn 1 1 begunPrices).world.db.priceSubjects.map PriceSubject.appid = [10] ∧
      ∀ c ∈ (turn 1 1 begunPrices).world.db.priceSubjects,
        (turn 1 1 begunPrices).world.db.wishes c.accountId c.appid = true :=
  ⟨by decide +kernel,
    (caches_follow_wishlists (reach_turn reach_begunPrices 1 1) (by decide +kernel)).2.1⟩

end SteamAgent.Storage
