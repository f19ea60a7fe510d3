import SteamAgent.Storage.Achievements
import SteamAgent.Storage.ActivityRuns
import SteamAgent.Storage.Membership
import SteamAgent.Storage.Pacing
import SteamAgent.Storage.ProjectionRuns

/-!
# Stored times and real time

Storage compares the texts of times.  `Agrees` says of two instants that every
decision on their texts is the decision on the instants.

There are four groups.

* `Agrees`, which holds of all instants that are not confusable, and no others.
* `Stamped`, the invariant: every stored time is the text of an instant.
* Every transaction of the storage methods keeps it.
* The result, and a pair of times that are out of order.
-/

namespace SteamAgent.Storage

open Datetime (Instant Aware)
open Effects (Prog System)

/-! ## Decisions -/

/-- The decisions on the texts of two instants are the decisions on the instants.
`i` is stored, and `j` is what it is compared with. -/
structure Agrees (i j : Instant) : Prop where
  before : i.text < j.text ↔ i < j
  equal : i.text = j.text ↔ i = j
  cooldown : ∀ requested (row : LimitRow), row.cooldownUntil = some i.text →
    (deferRow (some row) requested j.text).cooldownUntil
      = some (if i < j then j else i).text
  newer : ∀ id r, r.startedAt = i.text →
    (startedAfter j.text id r = true ↔ j < i ∨ (i = j ∧ id < r.id))
  promotion : ∀ (db : Db) accountId appid id run, run.startedAt = j.text →
    (db.playerProjection.find? fun c => c.accountId == accountId && c.appid == appid).bind
      (fun c => db.runs.get? c.promotedSyncRunId) = some run →
    (promotesPlayer db accountId appid i.text id = true ↔ j < i ∨ (i = j ∧ run.id < id))
  schema : ∀ (db : Db) appid c, c.observedAt = i.text →
    (db.schemaStatus.find? fun c => c.appid == appid) = some c →
    (replacesSchema db appid j.text = true ↔ i ≤ j)
  expiry : hasExpired i.text j.text = true ↔ i ≤ j
  retention : pastCutoff i.text j.text = true ↔ i < j

/-- Every decision on the texts is right exactly when the two instants are not
confusable. -/
theorem agrees_iff {i j : Instant} : Agrees i j ↔ ¬i.Confusable j := by
  constructor
  · intro h
    exact Instant.text_lt_iff_lt.mp h.before
  · intro h
    have hlt := Instant.text_lt_of_not_confusable h
    have hgt : j.text < i.text ↔ j < i :=
      Instant.text_lt_of_not_confusable fun hc => h hc.symm
    have hle := Instant.text_le_iff_le.mpr h
    refine ⟨hlt, Instant.text_inj, fun requested row hrow => ?_, fun id r hr => ?_,
      fun db accountId appid id run hrun hfind => ?_, fun db appid c hc hfind => ?_, ?_, ?_⟩
    · simp only [deferRow, hrow, laterCooldown]
      by_cases hij : i < j
      · rw [if_pos (hlt.mpr hij), if_pos hij]
      · rw [if_neg fun hc => hij (hlt.mp hc), if_neg hij]
    · simp [startedAfter, hr, hgt, Instant.text_inj]
    · simp [promotesPlayer, hfind, startedLater, hrun, hgt, Instant.text_inj]
    · simp [replacesSchema, hfind, hc, hle]
    · simp [hasExpired, hle]
    · simp [pastCutoff, hlt]

/-! ## Stored times -/

/-- The text of an instant, as `_timestamp` writes it. -/
def IsStamp (text : String) : Prop :=
  ∃ i : Instant, text = i.text

theorem timestamp_eq_ok {a : Aware} {text : String} (h : timestamp a = .ok text) :
    ∃ i, instantOf a = .ok i ∧ text = i.text := by
  unfold timestamp at h
  cases ha : instantOf a with
  | error x => simp [ha, Except.map] at h
  | ok i =>
    simp only [ha, Except.map, Except.ok.injEq] at h
    exact ⟨i, rfl, h.symm⟩

theorem isStamp_timestamp {a : Aware} {text : String} (h : timestamp a = .ok text) :
    IsStamp text := by
  obtain ⟨i, _, htext⟩ := timestamp_eq_ok h
  exact ⟨i, htext⟩

theorem isStamp_cutoffDays {now cutoff : String} {days : Nat}
    (h : cutoffDays now days = .ok cutoff) : IsStamp cutoff := by
  obtain ⟨_, _, h⟩ := bind_eq_ok.mp h
  obtain ⟨i, _, h⟩ := bind_eq_ok.mp h
  exact ⟨i, (Except.ok.inj h).symm⟩

theorem isStamp_cutoffMinutes {now cutoff : String} {minutes : Nat}
    (h : cutoffMinutes now minutes = .ok cutoff) : IsStamp cutoff := by
  obtain ⟨_, _, h⟩ := bind_eq_ok.mp h
  obtain ⟨i, _, h⟩ := bind_eq_ok.mp h
  exact ⟨i, (Except.ok.inj h).symm⟩

/-- The times that decisions compare. -/
structure Stamped (db : Db) : Prop where
  started : ∀ r ∈ db.runs.rows, IsStamp r.startedAt
  completed : ∀ r ∈ db.runs.rows, ∀ text, r.completedAt = some text → IsStamp text
  observations : ∀ o ∈ db.activityObservations, IsStamp o.facts.observedAt
  activity : ∀ c ∈ db.activityCurrent, IsStamp c.facts.observedAt
  player : ∀ c ∈ db.playerCurrent, IsStamp c.facts.observedAt
  projection : ∀ c ∈ db.playerProjection, IsStamp c.observedAt
  schema : ∀ c ∈ db.schemaCurrent, IsStamp c.observedAt
  status : ∀ c ∈ db.schemaStatus, IsStamp c.observedAt
  priceObservations : ∀ o ∈ db.priceObservations, IsStamp o.facts.hardExpiresAt
  prices : ∀ c ∈ db.priceCurrent, IsStamp c.facts.hardExpiresAt
  subjects : ∀ c ∈ db.priceSubjects, IsStamp c.hardExpiresAt

section Stamped

variable {db db' : Db}

/-- The runs after a step were there, or their times are stamps. -/
structure Runs.StampsTo (runs runs' : Runs) : Prop where
  started : ∀ r ∈ runs'.rows, IsStamp r.startedAt ∨ ∃ r' ∈ runs.rows, r'.startedAt = r.startedAt
  completed : ∀ r ∈ runs'.rows, ∀ text, r.completedAt = some text →
    IsStamp text ∨ ∃ r' ∈ runs.rows, r'.completedAt = some text

namespace Runs.StampsTo

variable {runs : Runs}

theorem insert {provider capability timestamp : String} {machineId : Option String}
    {accountId : Option Nat} (h : IsStamp timestamp) :
    runs.StampsTo (runs.insert (runningSync provider capability machineId accountId timestamp)) where
  started r hr := by
    rcases mem_insert.mp hr with hr | rfl
    · exact Or.inr ⟨r, hr, rfl⟩
    · exact Or.inl h
  completed r hr text htext := by
    rcases mem_insert.mp hr with hr | rfl
    · exact Or.inr ⟨r, hr, htext⟩
    · cases htext

/-- An update of other columns. -/
theorem keep {p : SyncRun → Bool} {g : SyncRun → SyncRun}
    (hstarted : ∀ r, (g r).startedAt = r.startedAt)
    (hcompleted : ∀ r, (g r).completedAt = r.completedAt) : runs.StampsTo (runs.update p g) where
  started r hr := by
    obtain ⟨r', hr', rfl⟩ := mem_update.mp hr
    refine Or.inr ⟨r', hr', ?_⟩
    split
    · exact (hstarted r').symm
    · rfl
  completed r hr text htext := by
    obtain ⟨r', hr', rfl⟩ := mem_update.mp hr
    refine Or.inr ⟨r', hr', ?_⟩
    rw [← htext]
    split
    · exact (hcompleted r').symm
    · rfl

/-- An update that writes a stamp to `completed_at`. -/
theorem update {p : SyncRun → Bool} {g : SyncRun → SyncRun} {timestamp : String}
    (h : IsStamp timestamp) (hstarted : ∀ r, (g r).startedAt = r.startedAt)
    (hcompleted : ∀ r, (g r).completedAt = some timestamp) : runs.StampsTo (runs.update p g) where
  started r hr := by
    obtain ⟨r', hr', rfl⟩ := mem_update.mp hr
    refine Or.inr ⟨r', hr', ?_⟩
    split
    · exact (hstarted r').symm
    · rfl
  completed r hr text htext := by
    obtain ⟨r', hr', rfl⟩ := mem_update.mp hr
    cases hp : p r' with
    | true =>
      rw [if_pos hp] at htext
      rw [← Option.some.inj ((hcompleted r').symm.trans htext)]
      exact Or.inl h
    | false =>
      rw [hp] at htext
      exact Or.inr ⟨r', hr', htext⟩

end Runs.StampsTo

/-- A step on the runs, after which no table of times has grown. -/
theorem Stamped.runs (h : Stamped db) (hruns : db.runs.StampsTo db'.runs)
    (hobs : db'.activityObservations = db.activityObservations)
    (hact : db'.activityCurrent = db.activityCurrent) (hplayer : db'.playerCurrent = db.playerCurrent)
    (hproj : db'.playerProjection = db.playerProjection)
    (hschema : db'.schemaCurrent = db.schemaCurrent) (hstatus : db'.schemaStatus = db.schemaStatus)
    (hpobs : db'.priceObservations = db.priceObservations)
    (hprices : db'.priceCurrent = db.priceCurrent) (hsub : db'.priceSubjects = db.priceSubjects) :
    Stamped db' where
  started r hr := by
    rcases hruns.started r hr with hs | ⟨r', hr', heq⟩
    · exact hs
    · exact heq ▸ h.started r' hr'
  completed r hr text htext := by
    rcases hruns.completed r hr text htext with hs | ⟨r', hr', heq⟩
    · exact hs
    · exact h.completed r' hr' text heq
  observations := hobs ▸ h.observations
  activity := hact ▸ h.activity
  player := hplayer ▸ h.player
  projection := hproj ▸ h.projection
  schema := hschema ▸ h.schema
  status := hstatus ▸ h.status
  priceObservations := hpobs ▸ h.priceObservations
  prices := hprices ▸ h.prices
  subjects := hsub ▸ h.subjects

theorem Stamped.deleteRuns (h : Stamped db) (p : SyncRun → Bool) : Stamped (db.deleteRuns p) where
  started r hr := h.started r (Runs.mem_delete.mp hr).1
  completed r hr := h.completed r (Runs.mem_delete.mp hr).1
  observations o ho := h.observations o (List.mem_of_mem_filter ho)
  activity c hc := h.activity c (List.mem_of_mem_filter hc)
  player c hc := h.player c (List.mem_of_mem_filter hc)
  projection c hc := h.projection c (List.mem_of_mem_filter hc)
  schema := h.schema
  status := h.status
  priceObservations o ho := h.priceObservations o (List.mem_of_mem_filter ho)
  prices c hc := h.prices c (List.mem_of_mem_filter hc)
  subjects c hc := h.subjects c (List.mem_of_mem_filter hc)

theorem Stamped.pruneActivity (h : Stamped db) {accountId : Nat} {now : String}
    (hok : pruneActivity accountId now db = .ok db') : Stamped db' := by
  obtain ⟨cutoff, _, hok⟩ := bind_eq_ok.mp hok
  obtain rfl := Except.ok.inj hok
  have hdel := h.deleteRuns fun r =>
    r.ofAccount "activity.read" accountId && pastCutoff r.startedAt cutoff
  exact { hdel with activity := fun c hc => hdel.activity c (List.mem_of_mem_filter hc) }

theorem Stamped.pruneAchievements (h : Stamped db) {accountId : Nat} {now : String}
    (hok : pruneAchievements accountId now db = .ok db') : Stamped db' := by
  obtain ⟨cutoff, _, hok⟩ := bind_eq_ok.mp hok
  obtain ⟨schemaCutoff, _, hok⟩ := bind_eq_ok.mp hok
  obtain rfl := Except.ok.inj hok
  have hdel := h.deleteRuns fun r =>
    r.ofAccount "achievements.read" accountId && pastCutoff r.startedAt cutoff
  exact { hdel with
    player := fun c hc => hdel.player c (List.mem_of_mem_filter hc)
    projection := fun c hc => hdel.projection c (List.mem_of_mem_filter hc)
    schema := fun c hc => hdel.schema c (List.mem_of_mem_filter hc)
    status := fun c hc => hdel.status c (List.mem_of_mem_filter (List.mem_of_mem_filter hc)) }

theorem Stamped.pruneBehavioral (h : Stamped db) {accountId : Nat} {now : String}
    (hok : pruneBehavioral accountId now db = .ok db') : Stamped db' := by
  obtain ⟨db₁, h₁, hok⟩ := bind_eq_ok.mp hok
  exact (h.pruneActivity h₁).pruneAchievements hok

/-! ## Activity and achievements -/

theorem Stamped.beginActivitySync (h : Stamped db) {accountId reply : Nat}
    {disclosureVersion : String} {startedAt : Aware}
    (hok : beginActivitySync accountId disclosureVersion startedAt db = .ok (reply, db')) :
    Stamped db' := by
  obtain ⟨timestamp, ht, hok⟩ := bind_eq_ok.mp hok
  obtain ⟨_, _, hok⟩ := bind_eq_ok.mp hok
  obtain ⟨db₁, h₁, hok⟩ := bind_eq_ok.mp hok
  obtain ⟨_, rfl⟩ := Prod.mk.inj (Except.ok.inj hok)
  exact (h.pruneBehavioral h₁).runs (.insert (isStamp_timestamp ht)) rfl rfl rfl rfl rfl rfl rfl rfl
    rfl

theorem observeGames_stamped {id accountId : Nat} {observed recentObserved : String}
    (hs : IsStamp observed) {seen : List Int} {games : List ActivityGame}
    {rows : List (Observation Nat Int ActivityFacts)}
    (h : observeGames id accountId observed recentObserved seen games = .ok rows) :
    ∀ o ∈ rows, IsStamp o.facts.observedAt := by
  induction games generalizing seen rows with
  | nil =>
    obtain rfl := Except.ok.inj h
    simp
  | cons game games ih =>
    obtain ⟨_, _, h⟩ := bind_eq_ok.mp h
    obtain ⟨_, _, h⟩ := bind_eq_ok.mp h
    obtain ⟨rest, hrest, h⟩ := bind_eq_ok.mp h
    obtain rfl := Except.ok.inj h
    intro o ho
    rcases List.mem_cons.mp ho with rfl | ho
    · exact hs
    · exact ih hrest o ho

theorem Stamped.settleActivity (h : Stamped db) (accountId : Nat) (run : SyncRun)
    (recordsSeen : Nat) {completed : String} (hs : IsStamp completed) :
    Stamped (settleActivity db accountId run recordsSeen completed) := by
  have hpromoted : ∀ promoted, Stamped { db with
      runs := db.runs.set run.id (SyncRun.completeAt promoted recordsSeen completed) } :=
    fun promoted => h.runs (.update hs (fun _ => rfl) fun _ => rfl) rfl rfl rfl rfl rfl rfl rfl rfl
      rfl
  unfold Storage.settleActivity
  cases newerSuccess db.runs accountId run with
  | true => exact hpromoted false
  | false =>
    refine { hpromoted true with activity := fun c hc => ?_ }
    rcases List.mem_append.mp hc with hc | hc
    · exact h.activity c (List.mem_of_mem_filter hc)
    · obtain ⟨o, ho, rfl⟩ := List.mem_map.mp hc
      exact h.observations o (List.mem_of_mem_filter ho)

theorem Stamped.completeActivitySnapshot (h : Stamped db) {id accountId : Nat}
    {games : List ActivityGame} {observedAt recentObservedAt completedAt : Aware}
    {disclosureVersion : String}
    (hok : completeActivitySnapshot id accountId games observedAt recentObservedAt completedAt
      disclosureVersion db = .ok db') : Stamped db' := by
  obtain ⟨observed, hobs, hok⟩ := bind_eq_ok.mp hok
  obtain ⟨recentObserved, _, hok⟩ := bind_eq_ok.mp hok
  obtain ⟨completed, hcomp, hok⟩ := bind_eq_ok.mp hok
  obtain ⟨run, _, hok⟩ := bind_eq_ok.mp hok
  obtain ⟨_, _, hok⟩ := bind_eq_ok.mp hok
  obtain ⟨rows, hrows, hok⟩ := bind_eq_ok.mp hok
  have hobserved : Stamped { db with activityObservations := db.activityObservations ++ rows } := by
    refine { h with observations := fun o ho => ?_ }
    rcases List.mem_append.mp ho with ho | ho
    · exact h.observations o ho
    · exact observeGames_stamped (isStamp_timestamp hobs) hrows o ho
  exact (hobserved.settleActivity accountId run games.length (isStamp_timestamp hcomp)).pruneBehavioral
    hok

theorem Stamped.finishSimpleSync (h : Stamped db) {id : Nat} {capability errorCode : String}
    {completedAt : Aware} (hok : finishSimpleSync id capability errorCode completedAt db = .ok db') :
    Stamped db' := by
  obtain ⟨timestamp, ht, hok⟩ := bind_eq_ok.mp hok
  obtain ⟨_, _, hok⟩ := bind_eq_ok.mp hok
  obtain rfl := Except.ok.inj hok
  exact h.runs (.update (isStamp_timestamp ht) (fun _ => rfl) fun _ => rfl) rfl rfl rfl rfl rfl rfl
    rfl rfl rfl

theorem Stamped.pruneAt (h : Stamped db) {accountId : Nat} {now : Option Aware}
    (hok : pruneAt accountId now db = .ok db') : Stamped db' := by
  cases now with
  | none =>
    obtain rfl := Except.ok.inj hok
    exact h
  | some now =>
    obtain ⟨_, _, hok⟩ := bind_eq_ok.mp hok
    exact h.pruneBehavioral hok

theorem stamped_activity (t : ActivityTxn) (reply : t.Reply) (h : Stamped db)
    (hok : t.run db = .ok (reply, db')) : Stamped db' := by
  cases t with
  | begin => exact h.beginActivitySync hok
  | complete =>
    obtain ⟨db₁, h₁, hok⟩ := bind_eq_ok.mp hok
    obtain ⟨_, rfl⟩ := Prod.mk.inj (Except.ok.inj hok)
    exact h.completeActivitySnapshot h₁
  | fail =>
    obtain ⟨db₁, h₁, hok⟩ := bind_eq_ok.mp hok
    obtain ⟨_, rfl⟩ := Prod.mk.inj (Except.ok.inj hok)
    exact h.finishSimpleSync h₁
  | prune =>
    obtain ⟨_, _, hok⟩ := bind_eq_ok.mp hok
    obtain ⟨db₁, h₁, hok⟩ := bind_eq_ok.mp hok
    obtain ⟨_, rfl⟩ := Prod.mk.inj (Except.ok.inj hok)
    exact h.pruneBehavioral h₁
  | getSyncRun =>
    obtain ⟨_, _, hok⟩ := bind_eq_ok.mp hok
    obtain ⟨_, rfl⟩ := Prod.mk.inj (Except.ok.inj hok)
    exact h
  | read =>
    obtain ⟨db₁, h₁, hok⟩ := bind_eq_ok.mp hok
    obtain ⟨_, rfl⟩ := Prod.mk.inj (Except.ok.inj hok)
    exact h.pruneAt h₁
  | recommend =>
    obtain ⟨_, _, hok⟩ := bind_eq_ok.mp hok
    obtain ⟨_, _, hok⟩ := bind_eq_ok.mp hok
    obtain ⟨db₁, h₁, hok⟩ := bind_eq_ok.mp hok
    obtain ⟨db₂, h₂, hok⟩ := bind_eq_ok.mp hok
    obtain ⟨_, rfl⟩ := Prod.mk.inj (Except.ok.inj hok)
    exact (h.pruneActivity h₁).pruneAchievements h₂

/-- The transactions of the achievement methods. -/
inductive AchievementTxn where
  | begin (accountId : Nat) (candidates targeted : List Int) (startedAt : Aware)
      (disclosureVersion : String)
  | record (id : Nat) (q : AchievementResult)
  | finish (id : Nat) (completedAt : Aware)
  | markRemaining (id : Nat) (observedAt : Aware) (errorCode : String)

namespace AchievementTxn

def Reply : AchievementTxn → Type
  | begin .. => Nat
  | _ => Unit

def run : (t : AchievementTxn) → Db → Except Exn (t.Reply × Db)
  | begin accountId candidates targeted startedAt disclosureVersion, db =>
    beginAchievementSync accountId candidates targeted startedAt disclosureVersion db
  | record id q, db => CacheTxn.done (recordAchievementResult id q db)
  | finish id completedAt, db => CacheTxn.done (finishAchievementSync id completedAt db)
  | markRemaining id observedAt errorCode, db =>
    CacheTxn.done (markRemainingAchievementsUnevaluated id observedAt errorCode db)

end AchievementTxn

/-- The transactions of the achievement methods, as a family. -/
def achievementTransactions : Transactions :=
  ⟨AchievementTxn, AchievementTxn.Reply, AchievementTxn.run⟩

theorem Stamped.recordPlayer (h : Stamped db) (q : AchievementResult) (id : Nat)
    {timestamp : String} (hs : IsStamp timestamp) (startedAt : String) :
    Stamped (recordPlayer q id timestamp startedAt db) := by
  unfold Storage.recordPlayer
  dsimp only
  split
  · refine { h with player := fun c hc => ?_, projection := fun c hc => ?_ }
    · rcases List.mem_append.mp hc with hc | hc
      · exact h.player c (List.mem_of_mem_filter hc)
      · obtain ⟨o, ho, rfl⟩ := List.mem_map.mp hc
        obtain ⟨item, _, rfl⟩ := List.mem_map.mp ho
        exact hs
    · rcases List.mem_append.mp hc with hc | hc
      · exact h.projection c (List.mem_of_mem_filter hc)
      · rw [List.mem_singleton.mp hc]
        exact hs
  · exact { h with }

theorem Stamped.recordSchema (h : Stamped db) (q : AchievementResult) {timestamp : String}
    (hs : IsStamp timestamp) : Stamped (recordSchema q timestamp db) := by
  unfold Storage.recordSchema
  split
  · refine { h with schema := fun c hc => ?_, status := fun c hc => ?_ }
    · rcases List.mem_append.mp hc with hc | hc
      · exact h.schema c (List.mem_of_mem_filter hc)
      · obtain ⟨item, _, rfl⟩ := List.mem_map.mp hc
        exact hs
    · rcases List.mem_append.mp hc with hc | hc
      · exact h.status c (List.mem_of_mem_filter hc)
      · rw [List.mem_singleton.mp hc]
        exact hs
  · exact h

theorem Stamped.recordAchievementResult (h : Stamped db) {id : Nat} {q : AchievementResult}
    (hok : recordAchievementResult id q db = .ok db') : Stamped db' := by
  obtain ⟨_, _, hok⟩ := bind_eq_ok.mp hok
  obtain ⟨timestamp, ht, hok⟩ := bind_eq_ok.mp hok
  obtain ⟨_, _, hok⟩ := bind_eq_ok.mp hok
  have hs := isStamp_timestamp ht
  cases htarget : achievementTarget db id q.accountId q.appid with
  | none =>
    rw [htarget] at hok
    cases hok
  | some target =>
    obtain ⟨demand, startedAt⟩ := target
    rw [htarget] at hok
    obtain ⟨_, _, hok⟩ := bind_eq_ok.mp hok
    obtain ⟨_, _, hok⟩ := bind_eq_ok.mp hok
    obtain ⟨_, _, hok⟩ := bind_eq_ok.mp hok
    obtain rfl := Except.ok.inj hok
    have hplayer : Stamped
        (if q.state = "ready" then Storage.recordPlayer q id timestamp startedAt db else db) := by
      split
      · exact h.recordPlayer q id hs startedAt
      · exact h
    have hschema : Stamped (if (q.writeSchema && q.state != "failed") = true then
        Storage.recordSchema q timestamp
          (if q.state = "ready" then Storage.recordPlayer q id timestamp startedAt db else db)
        else (if q.state = "ready" then Storage.recordPlayer q id timestamp startedAt db else db)) := by
      split
      · exact hplayer.recordSchema q hs
      · exact hplayer
    exact { hschema with }

theorem Stamped.finishAchievementSync (h : Stamped db) {id : Nat} {completedAt : Aware}
    (hok : finishAchievementSync id completedAt db = .ok db') : Stamped db' := by
  obtain ⟨completed, ht, hok⟩ := bind_eq_ok.mp hok
  split at hok
  · cases hok
  · dsimp only at hok
    split at hok
    · refine Stamped.pruneBehavioral ?_ hok
      exact h.runs (.update (isStamp_timestamp ht) (fun _ => rfl) fun _ => rfl) rfl rfl rfl rfl rfl
        rfl rfl rfl rfl
    · cases hok

theorem stamped_achievement (t : AchievementTxn) (reply : t.Reply) (h : Stamped db)
    (hok : t.run db = .ok (reply, db')) : Stamped db' := by
  cases t with
  | begin =>
    obtain ⟨timestamp, ht, hok⟩ := bind_eq_ok.mp hok
    obtain ⟨_, _, hok⟩ := bind_eq_ok.mp hok
    obtain ⟨_, _, hok⟩ := bind_eq_ok.mp hok
    obtain ⟨db₁, h₁, hok⟩ := bind_eq_ok.mp hok
    obtain ⟨_, _, hok⟩ := bind_eq_ok.mp hok
    obtain ⟨_, rfl⟩ := Prod.mk.inj (Except.ok.inj hok)
    exact (h.pruneBehavioral h₁).runs (.insert (isStamp_timestamp ht)) rfl rfl rfl rfl rfl rfl rfl
      rfl rfl
  | record => exact h.recordAchievementResult (CacheTxn.done_eq_ok hok)
  | finish => exact h.finishAchievementSync (CacheTxn.done_eq_ok hok)
  | markRemaining =>
    obtain ⟨_, _, hok⟩ := bind_eq_ok.mp (CacheTxn.done_eq_ok hok)
    obtain rfl := Except.ok.inj hok
    exact { h with }

/-! ## Wishlists and prices -/

theorem Stamped.promotedWishlist (h : Stamped db) (accountId id : Nat) :
    Stamped (pruneReviewsToWishlists
      (prunePriceCacheToWishlist accountId (promoteWishlist db accountId id))) :=
  { h with
    priceObservations := fun o ho => h.priceObservations o (List.mem_of_mem_filter ho)
    prices := fun c hc => h.prices c (List.mem_of_mem_filter hc)
    subjects := fun c hc => h.subjects c (List.mem_of_mem_filter hc) }

theorem Stamped.settleWishlist (h : Stamped db) (accountId id recordsSeen : Nat)
    {completed : String} (hs : IsStamp completed) :
    Stamped (settleWishlist db accountId id recordsSeen completed) := by
  unfold Storage.settleWishlist
  cases newerComplete db.runs "wishlist.read" accountId id with
  | true =>
    exact h.runs (.update hs (fun _ => rfl) fun _ => rfl) rfl rfl rfl rfl rfl rfl rfl rfl rfl
  | false =>
    exact (h.promotedWishlist accountId id).runs (.update hs (fun _ => rfl) fun _ => rfl) rfl rfl rfl
      rfl rfl rfl rfl rfl rfl

theorem Stamped.completeWishlistSnapshot (h : Stamped db) {evidence : Int → Nat} {id : Nat}
    {s : WishlistSnapshot} (hok : completeWishlistSnapshot evidence id s db = .ok db') :
    Stamped db' := by
  obtain ⟨listAt, _, hok⟩ := bind_eq_ok.mp hok
  obtain ⟨countAt, _, hok⟩ := bind_eq_ok.mp hok
  obtain ⟨completed, ht, hok⟩ := bind_eq_ok.mp hok
  obtain ⟨_, _, hok⟩ := bind_eq_ok.mp hok
  obtain ⟨_, _, hok⟩ := bind_eq_ok.mp hok
  obtain ⟨normalized, _, hok⟩ := bind_eq_ok.mp hok
  obtain ⟨⟨run, accountId⟩, _, hok⟩ := bind_eq_ok.mp hok
  obtain ⟨_, _, hok⟩ := bind_eq_ok.mp hok
  obtain ⟨_, _, hok⟩ := bind_eq_ok.mp hok
  obtain rfl := Except.ok.inj hok
  have hrecorded : Stamped { db with
      wishlistMetadata := db.wishlistMetadata ++ [⟨id, accountId, run.provider, s.supportLevel,
        listAt, s.itemListReportedCount, countAt, s.itemCountReportedCount⟩]
      wishlistObservations := db.wishlistObservations ++
        normalized.map (wishlistRow evidence id accountId) } := { h with }
  exact hrecorded.settleWishlist accountId id normalized.length (isStamp_timestamp ht)

theorem Stamped.finishWishlistSync (h : Stamped db) {id : Nat} {completedAt : Aware}
    {errorCode : String} (hok : finishWishlistSync id completedAt errorCode db = .ok db') :
    Stamped db' := by
  obtain ⟨completed, ht, hok⟩ := bind_eq_ok.mp hok
  obtain ⟨_, _, hok⟩ := bind_eq_ok.mp hok
  obtain ⟨_, _, hok⟩ := bind_eq_ok.mp hok
  obtain rfl := Except.ok.inj hok
  exact h.runs (.update (isStamp_timestamp ht) (fun _ => rfl) fun _ => rfl) rfl rfl rfl rfl rfl rfl
    rfl rfl rfl

theorem isStamp_priceRow {urls : UrlLibrary} {evidence : PriceFactObservation → Nat} {run : SyncRun}
    {accountId : Nat} {country : String} {completed : Instant} {fact : PriceFactObservation}
    {row : Observation Nat Int PriceFacts}
    (h : priceRow urls evidence run accountId country completed fact = .ok row) :
    IsStamp row.facts.hardExpiresAt := by
  obtain ⟨⟨observed, effective⟩, _, h⟩ := bind_eq_ok.mp h
  obtain ⟨_, _, h⟩ := bind_eq_ok.mp h
  obtain ⟨_, _, h⟩ := bind_eq_ok.mp h
  obtain ⟨_, _, h⟩ := bind_eq_ok.mp h
  obtain ⟨hardExpires, _, h⟩ := bind_eq_ok.mp h
  obtain rfl := Except.ok.inj h
  exact ⟨hardExpires, rfl⟩

theorem priceRows_stamped {urls : UrlLibrary} {evidence : PriceFactObservation → Nat}
    {run : SyncRun} {accountId : Nat} {country : String} {completed : Instant}
    {seen : List (Int × String × Int)} {facts : List PriceFactObservation}
    {rows : List (Observation Nat Int PriceFacts)}
    (h : priceRows urls evidence run accountId country completed seen facts = .ok rows) :
    ∀ o ∈ rows, IsStamp o.facts.hardExpiresAt := by
  induction facts generalizing seen rows with
  | nil =>
    obtain rfl := Except.ok.inj h
    simp
  | cons fact facts ih =>
    obtain ⟨_, _, h⟩ := bind_eq_ok.mp h
    obtain ⟨row, hrow, h⟩ := bind_eq_ok.mp h
    obtain ⟨rest, hrest, h⟩ := bind_eq_ok.mp h
    obtain rfl := Except.ok.inj h
    intro o ho
    rcases List.mem_cons.mp ho with rfl | ho
    · exact isStamp_priceRow hrow
    · exact ih hrest o ho

theorem Stamped.promoteOutcomes {run : SyncRun} {accountId : Nat} {country completed : String}
    {rows : List (Observation Nat Int PriceFacts)} {outcomes : List (Int × String)}
    (hrows : ∀ o ∈ rows, IsStamp o.facts.hardExpiresAt) {db : Db} (h : Stamped db)
    (hok : outcomes.foldlM (promoteOutcome run accountId country completed rows) db = .ok db') :
    Stamped db' := by
  induction outcomes generalizing db with
  | nil =>
    obtain rfl := Except.ok.inj hok
    exact h
  | cons outcome outcomes ih =>
    rw [List.foldlM_cons] at hok
    obtain ⟨db₁, h₁, hok⟩ := bind_eq_ok.mp hok
    refine ih ?_ hok
    unfold promoteOutcome at h₁
    split at h₁
    · obtain rfl := Except.ok.inj h₁
      exact h
    · obtain ⟨observed, _, h₁⟩ := bind_eq_ok.mp h₁
      obtain ⟨expires, _, h₁⟩ := bind_eq_ok.mp h₁
      obtain ⟨freshUntil, _, h₁⟩ := bind_eq_ok.mp h₁
      obtain rfl := Except.ok.inj h₁
      refine { h with prices := fun c hc => ?_, subjects := fun c hc => ?_ }
      · rcases List.mem_append.mp hc with hc | hc
        · exact h.prices c (List.mem_of_mem_filter hc)
        · obtain ⟨o, ho, rfl⟩ := List.mem_map.mp hc
          exact hrows o (List.mem_of_mem_filter ho)
      · rcases List.mem_append.mp hc with hc | hc
        · exact h.subjects c (List.mem_of_mem_filter hc)
        · rw [List.mem_singleton.mp hc]
          exact ⟨expires, rfl⟩

theorem Stamped.expirePriceData (h : Stamped db) {now : String}
    (hok : expirePriceData now db = .ok db') : Stamped db' := by
  obtain ⟨cutoff, _, hok⟩ := bind_eq_ok.mp hok
  obtain rfl := Except.ok.inj hok
  refine Stamped.deleteRuns ?_ _
  exact { h with
    priceObservations := fun o ho => h.priceObservations o (List.mem_of_mem_filter ho)
    prices := fun c hc => h.prices c (List.mem_of_mem_filter hc)
    subjects := fun c hc => h.subjects c (List.mem_of_mem_filter hc) }

theorem Stamped.completePriceSync (h : Stamped db) {urls : UrlLibrary}
    {evidence : PriceFactObservation → Nat} {id : Nat} {q : PriceResult}
    (hok : completePriceSync urls evidence id q db = .ok db') : Stamped db' := by
  obtain ⟨completed, _, hok⟩ := bind_eq_ok.mp hok
  obtain ⟨_, _, hok⟩ := bind_eq_ok.mp hok
  obtain ⟨⟨run, metadata, accountId⟩, _, hok⟩ := bind_eq_ok.mp hok
  obtain ⟨_, _, hok⟩ := bind_eq_ok.mp hok
  obtain ⟨_, _, hok⟩ := bind_eq_ok.mp hok
  obtain ⟨rows, hrows, hok⟩ := bind_eq_ok.mp hok
  obtain ⟨db₁, hpromote, hok⟩ := bind_eq_ok.mp hok
  obtain ⟨db₂, hexpire, hok⟩ := bind_eq_ok.mp hok
  obtain rfl := Except.ok.inj hok
  have hspec := priceRows_stamped hrows
  have hrecorded : Stamped { db with priceObservations := db.priceObservations ++ rows } := by
    refine { h with priceObservations := fun o ho => ?_ }
    rcases List.mem_append.mp ho with ho | ho
    · exact h.priceObservations o ho
    · exact hspec o ho
  have hpromoted : Stamped db₁ := Stamped.promoteOutcomes hspec hrecorded hpromote
  have hclosed : ∀ promoted, Stamped (closePriceSync q id promoted completed.text db₁) :=
    fun promoted => hpromoted.runs (.update ⟨completed, rfl⟩ (fun _ => rfl) fun _ => rfl) rfl rfl rfl
      rfl rfl rfl rfl rfl rfl
  have hexpired : Stamped db₂ := (hclosed _).expirePriceData hexpire
  exact { hexpired with
    priceObservations := fun o ho => hexpired.priceObservations o (List.mem_of_mem_filter ho) }

/-! ## Reviews -/

theorem Stamped.pruneReviews (h : Stamped db) {now : String}
    (hok : pruneReviews now db = .ok db') : Stamped db' := by
  obtain ⟨cutoff, _, hok⟩ := bind_eq_ok.mp hok
  obtain rfl := Except.ok.inj hok
  have hfilter : Stamped (pruneReviewsToWishlists { db with
      reviewCurrent := db.reviewCurrent.filter fun c => !pastCutoff c.observedAt cutoff }) :=
    { h with }
  exact hfilter.deleteRuns _

theorem Stamped.interrupt {timestamp : String} (hs : IsStamp timestamp) (stale : List SyncRun)
    {db : Db} (h : Stamped db) : Stamped (stale.foldl (interruptReviewSync timestamp) db) := by
  induction stale generalizing db with
  | nil => exact h
  | cons run stale ih =>
    refine ih ?_
    exact h.runs (.update hs (fun _ => rfl) fun _ => rfl) rfl rfl rfl rfl rfl rfl rfl rfl rfl

theorem Stamped.beginReviewSync (h : Stamped db) {accountId : Nat} {maxItems : Int}
    {skipFreshTerminal : Bool} {startedAt : Aware} {disclosureVersion : String}
    {reply : Nat × List Int × List Int}
    (hok : beginReviewSync accountId maxItems skipFreshTerminal startedAt disclosureVersion db
      = .ok (reply, db')) : Stamped db' := by
  obtain ⟨timestamp, ht, hok⟩ := bind_eq_ok.mp hok
  obtain ⟨_, _, hok⟩ := bind_eq_ok.mp hok
  obtain ⟨_, _, hok⟩ := bind_eq_ok.mp hok
  obtain ⟨_, _, hok⟩ := bind_eq_ok.mp hok
  obtain ⟨_, _, hok⟩ := bind_eq_ok.mp hok
  obtain ⟨db₁, h₁, hok⟩ := bind_eq_ok.mp hok
  obtain ⟨staleCutoff, _, hok⟩ := bind_eq_ok.mp hok
  obtain ⟨candidates, _, hok⟩ := bind_eq_ok.mp hok
  obtain ⟨_, rfl⟩ := Prod.mk.inj (Except.ok.inj hok)
  have hs := isStamp_timestamp ht
  exact (Stamped.interrupt hs _ (h.pruneReviews h₁)).runs (.insert hs) rfl rfl rfl rfl rfl rfl rfl
    rfl rfl

theorem Stamped.recordReviewResult (h : Stamped db) {urls : UrlLibrary} {id accountId : Nat}
    {appid : Int} {state : String} {observedAt : Aware} {summary : Option (Int × ReviewSummary)}
    {errorCode : Option String}
    (hok : recordReviewResult urls id accountId appid state observedAt summary errorCode db
      = .ok db') : Stamped db' := by
  obtain ⟨_, _, hok⟩ := bind_eq_ok.mp hok
  obtain ⟨timestamp, _, hok⟩ := bind_eq_ok.mp hok
  obtain ⟨_, _, hok⟩ := bind_eq_ok.mp hok
  cases htarget : reviewTarget db id accountId appid with
  | none =>
    rw [htarget] at hok
    cases hok
  | some target =>
    obtain ⟨demand, startedAt⟩ := target
    rw [htarget] at hok
    obtain ⟨_, _, hok⟩ := bind_eq_ok.mp hok
    obtain rfl := Except.ok.inj hok
    cases summary <;> exact { h with }

theorem stamped_cache {urls : UrlLibrary} (t : CacheTxn) (reply : t.Reply) (h : Stamped db)
    (hok : t.run urls db = .ok (reply, db')) : Stamped db' := by
  cases t with
  | beginWishlist =>
    obtain ⟨timestamp, ht, hok⟩ := bind_eq_ok.mp hok
    obtain ⟨_, _, hok⟩ := bind_eq_ok.mp hok
    obtain ⟨_, _, hok⟩ := bind_eq_ok.mp hok
    obtain ⟨_, rfl⟩ := Prod.mk.inj (Except.ok.inj hok)
    exact h.runs (.insert (isStamp_timestamp ht)) rfl rfl rfl rfl rfl rfl rfl rfl rfl
  | completeWishlist => exact h.completeWishlistSnapshot (CacheTxn.done_eq_ok hok)
  | finishWishlist => exact h.finishWishlistSync (CacheTxn.done_eq_ok hok)
  | beginPrice =>
    obtain ⟨_, _, hok⟩ := bind_eq_ok.mp hok
    obtain ⟨timestamp, ht, hok⟩ := bind_eq_ok.mp hok
    obtain ⟨_, _, hok⟩ := bind_eq_ok.mp hok
    obtain ⟨_, rfl⟩ := Prod.mk.inj (Except.ok.inj hok)
    exact h.runs (.insert (isStamp_timestamp ht)) rfl rfl rfl rfl rfl rfl rfl rfl rfl
  | completePrice => exact h.completePriceSync (CacheTxn.done_eq_ok hok)
  | checkPrice =>
    rw [eq_of_map_eq_ok hok]
    exact h
  | finishPrice id failure =>
    obtain ⟨_, rfl⟩ := Prod.mk.inj (Except.ok.inj hok)
    exact h.runs (.update (isStamp_timestamp failure.stamp) (fun _ => rfl) fun _ => rfl) rfl rfl rfl
      rfl rfl rfl rfl rfl rfl
  | expirePrice =>
    obtain ⟨_, _, hok⟩ := bind_eq_ok.mp (CacheTxn.done_eq_ok hok)
    exact h.expirePriceData hok
  | beginReview => exact h.beginReviewSync hok
  | recordReview => exact h.recordReviewResult (CacheTxn.done_eq_ok hok)
  | markReviews =>
    obtain ⟨_, _, hok⟩ := bind_eq_ok.mp (CacheTxn.done_eq_ok hok)
    obtain rfl := Except.ok.inj hok
    exact { h with }
  | finishReview =>
    obtain ⟨timestamp, ht, hok⟩ := bind_eq_ok.mp (CacheTxn.done_eq_ok hok)
    obtain ⟨_, _, hok⟩ := bind_eq_ok.mp hok
    refine Stamped.pruneReviews ?_ hok
    exact h.runs (.update (isStamp_timestamp ht) (fun _ => rfl) fun _ => rfl) rfl rfl rfl rfl rfl
      rfl rfl rfl rfl
  | getSyncRun id =>
    cases hget : Storage.getSyncRun db.runs id with
    | error x => simp [CacheTxn.run, hget, Except.map] at hok
    | ok run =>
      simp only [CacheTxn.run, hget, Except.map] at hok
      obtain ⟨_, rfl⟩ := Prod.mk.inj (Except.ok.inj hok)
      exact h

/-! ## Installed, owned and system profile -/

theorem Stamped.finishInstalledSync (h : Stamped db) {id : Nat} {status : SyncStatus}
    {completedAt : Aware} {errorCode errorDetail : Option String} {reply : Option SyncRun}
    (hok : finishInstalledSync id status completedAt errorCode errorDetail db = .ok (reply, db')) :
    Stamped db' := by
  obtain ⟨_, _, hok⟩ := bind_eq_ok.mp hok
  obtain ⟨timestamp, ht, hok⟩ := bind_eq_ok.mp hok
  obtain ⟨existing, _, hok⟩ := bind_eq_ok.mp hok
  obtain ⟨_, _, hok⟩ := bind_eq_ok.mp hok
  split at hok
  · obtain ⟨_, _, hok⟩ := bind_eq_ok.mp hok
    obtain ⟨_, rfl⟩ := Prod.mk.inj (Except.ok.inj hok)
    exact h
  · obtain ⟨machineId, _, hok⟩ := bind_eq_ok.mp hok
    obtain ⟨_, rfl⟩ := Prod.mk.inj (Except.ok.inj hok)
    have hpromoted : ∀ promoted : Bool,
        Stamped (if promoted then promoteInstalled machineId id db else db) := by
      intro promoted
      cases promoted with
      | false => exact h
      | true => exact { h with }
    exact (hpromoted _).runs (.update (isStamp_timestamp ht) (fun _ => rfl) fun _ => rfl) rfl rfl rfl
      rfl rfl rfl rfl rfl rfl

theorem Stamped.recordOwnedSnapshot (h : Stamped db) {evidence : Int → Nat} {id : Nat}
    {s : OwnedSnapshot} {reply : List Nat}
    (hok : recordOwnedSnapshot evidence id s db = .ok (reply, db')) : Stamped db' := by
  obtain ⟨_, _, hok⟩ := bind_eq_ok.mp hok
  obtain ⟨_, _, hok⟩ := bind_eq_ok.mp hok
  obtain ⟨_, _, hok⟩ := bind_eq_ok.mp hok
  obtain ⟨_, _, hok⟩ := bind_eq_ok.mp hok
  obtain ⟨normalized, _, hok⟩ := bind_eq_ok.mp hok
  obtain ⟨_, _, hok⟩ := bind_eq_ok.mp hok
  obtain ⟨⟨run, accountId⟩, _, hok⟩ := bind_eq_ok.mp hok
  obtain ⟨_, _, hok⟩ := bind_eq_ok.mp hok
  obtain ⟨_, _, hok⟩ := bind_eq_ok.mp hok
  obtain ⟨_, rfl⟩ := Prod.mk.inj (Except.ok.inj hok)
  exact h.runs (.keep (fun _ => rfl) fun _ => rfl) rfl rfl rfl rfl rfl rfl rfl rfl rfl

theorem Stamped.settleOwned (h : Stamped db) (accountId id : Nat) :
    Stamped (settleOwned accountId id db).2 := by
  unfold Storage.settleOwned
  dsimp only
  split
  · exact { h with }
  · exact { h with }

theorem Stamped.completeOwnedSnapshot (h : Stamped db) {evidence : Int → Nat} {id : Nat}
    {s : OwnedSnapshot} {completedAt : Aware}
    (hok : completeOwnedSnapshot evidence id s completedAt db = .ok db') : Stamped db' := by
  obtain ⟨completed, ht, hok⟩ := bind_eq_ok.mp hok
  obtain ⟨⟨_, accountId⟩, _, hok⟩ := bind_eq_ok.mp hok
  obtain ⟨⟨_, db₁⟩, h₁, hok⟩ := bind_eq_ok.mp hok
  obtain rfl := Except.ok.inj hok
  exact ((h.recordOwnedSnapshot h₁).settleOwned accountId id).runs
    (.update (isStamp_timestamp ht) (fun _ => rfl) fun _ => rfl) rfl rfl rfl rfl rfl rfl rfl rfl rfl

theorem Stamped.finishOwnedSync (h : Stamped db) {id : Nat} {status : SyncStatus}
    {completedAt : Aware} {errorCode errorDetail : Option String} {reply : Option SyncRun}
    (hok : finishOwnedSync id status completedAt errorCode errorDetail db = .ok (reply, db')) :
    Stamped db' := by
  obtain ⟨_, _, hok⟩ := bind_eq_ok.mp hok
  obtain ⟨timestamp, ht, hok⟩ := bind_eq_ok.mp hok
  obtain ⟨⟨existing, accountId⟩, _, hok⟩ := bind_eq_ok.mp hok
  dsimp only at hok
  split at hok
  · obtain ⟨_, _, hok⟩ := bind_eq_ok.mp hok
    obtain ⟨_, rfl⟩ := Prod.mk.inj (Except.ok.inj hok)
    exact h
  · obtain ⟨_, _, hok⟩ := bind_eq_ok.mp hok
    obtain ⟨_, rfl⟩ := Prod.mk.inj (Except.ok.inj hok)
    have hsettled : Stamped (if status = .complete then Storage.settleOwned accountId id db
        else (false, pruneOwnedPayloads accountId id false db)).2 := by
      split
      · exact h.settleOwned accountId id
      · exact { h with }
    exact hsettled.runs (.update (isStamp_timestamp ht) (fun _ => rfl) fun _ => rfl) rfl rfl rfl rfl
      rfl rfl rfl rfl rfl

theorem Stamped.beginSystemProfileSync (h : Stamped db) {machineId disclosureVersion : String}
    {startedAt : Aware} {reply : Nat}
    (hok : beginSystemProfileSync machineId disclosureVersion startedAt db = .ok (reply, db')) :
    Stamped db' := by
  obtain ⟨timestamp, ht, hok⟩ := bind_eq_ok.mp hok
  obtain ⟨_, _, hok⟩ := bind_eq_ok.mp hok
  obtain ⟨abandonedCutoff, _, hok⟩ := bind_eq_ok.mp hok
  obtain ⟨cutoff, _, hok⟩ := bind_eq_ok.mp hok
  obtain ⟨_, rfl⟩ := Prod.mk.inj (Except.ok.inj hok)
  have hs := isStamp_timestamp ht
  have habandoned : Stamped { db with
      runs := db.runs.update (abandonedProfileSync machineId abandonedCutoff)
        (SyncRun.finish .failed timestamp false (some "SYNC_ABANDONED") none) } :=
    h.runs (.update hs (fun _ => rfl) fun _ => rfl) rfl rfl rfl rfl rfl rfl rfl rfl rfl
  exact (habandoned.deleteRuns _).runs (.insert hs) rfl rfl rfl rfl rfl rfl rfl rfl rfl

theorem Stamped.completeSystemProfileSync (h : Stamped db) {text : TextLibrary} {evidence id : Nat}
    {validate : Except Exn ValidatedProfile} {observedAt completedAt : Aware}
    {disclosureVersion : String}
    (hok : completeSystemProfileSync text evidence id validate observedAt completedAt
      disclosureVersion db = .ok db') : Stamped db' := by
  obtain ⟨profile, _, hok⟩ := bind_eq_ok.mp hok
  obtain ⟨_, _, hok⟩ := bind_eq_ok.mp hok
  obtain ⟨observed, _, hok⟩ := bind_eq_ok.mp hok
  obtain ⟨completed, ht, hok⟩ := bind_eq_ok.mp hok
  obtain ⟨⟨_, machineId⟩, _, hok⟩ := bind_eq_ok.mp hok
  obtain ⟨_, _, hok⟩ := bind_eq_ok.mp hok
  obtain ⟨machine, _, hok⟩ := bind_eq_ok.mp hok
  obtain ⟨_, _, hok⟩ := bind_eq_ok.mp hok
  obtain ⟨_, _, hok⟩ := bind_eq_ok.mp hok
  obtain rfl := Except.ok.inj hok
  exact h.runs (.update (isStamp_timestamp ht) (fun _ => rfl) fun _ => rfl) rfl rfl rfl rfl rfl rfl
    rfl rfl rfl

theorem stamped_projection {text : TextLibrary} (t : ProjectionTxn) (reply : t.Reply)
    (h : Stamped db) (hok : t.run text db = .ok (reply, db')) : Stamped db' := by
  cases t with
  | beginSync =>
    obtain ⟨timestamp, ht, hok⟩ := bind_eq_ok.mp hok
    obtain ⟨_, _, hok⟩ := bind_eq_ok.mp hok
    obtain ⟨_, _, hok⟩ := bind_eq_ok.mp hok
    obtain ⟨_, rfl⟩ := Prod.mk.inj (Except.ok.inj hok)
    exact h.runs (.insert (isStamp_timestamp ht)) rfl rfl rfl rfl rfl rfl rfl rfl rfl
  | recordInstalled =>
    obtain ⟨_, _, hok⟩ := bind_eq_ok.mp hok
    obtain ⟨_, _, hok⟩ := bind_eq_ok.mp hok
    obtain ⟨_, _, hok⟩ := bind_eq_ok.mp hok
    obtain ⟨_, _, hok⟩ := bind_eq_ok.mp hok
    obtain ⟨_, _, hok⟩ := bind_eq_ok.mp hok
    obtain ⟨_, _, hok⟩ := bind_eq_ok.mp hok
    obtain ⟨_, _, hok⟩ := bind_eq_ok.mp hok
    obtain ⟨_, _, hok⟩ := bind_eq_ok.mp hok
    obtain ⟨_, _, hok⟩ := bind_eq_ok.mp hok
    obtain ⟨_, rfl⟩ := Prod.mk.inj (Except.ok.inj hok)
    exact h.runs (.keep (fun _ => rfl) fun _ => rfl) rfl rfl rfl rfl rfl rfl rfl rfl rfl
  | finishInstalled => exact h.finishInstalledSync hok
  | recordOwned => exact h.recordOwnedSnapshot hok
  | completeOwned => exact h.completeOwnedSnapshot (ProjectionTxn.done_eq_ok hok)
  | finishOwned => exact h.finishOwnedSync hok
  | completeWishlist => exact h.completeWishlistSnapshot (ProjectionTxn.done_eq_ok hok)
  | finishWishlist => exact h.finishWishlistSync (ProjectionTxn.done_eq_ok hok)
  | beginProfile => exact h.beginSystemProfileSync hok
  | completeProfile => exact h.completeSystemProfileSync (ProjectionTxn.done_eq_ok hok)
  | checkProfile =>
    rw [eq_of_map_eq_ok hok]
    exact h
  | failProfile id failure =>
    obtain ⟨_, rfl⟩ := Prod.mk.inj (Except.ok.inj hok)
    exact h.runs (.update (isStamp_timestamp failure.stamp) (fun _ => rfl) fun _ => rfl) rfl rfl rfl
      rfl rfl rfl rfl rfl rfl
  | getSyncRun id =>
    rw [eq_of_map_eq_ok hok]
    exact h

end Stamped

/-! ## The result -/

/-- The transactions of the storage methods, as a family. -/
def storageTransactions (urls : UrlLibrary) (text : TextLibrary) : Transactions :=
  (activityTransactions.sum achievementTransactions).sum
    ((cacheTransactions urls).sum (projectionTransactions text))

/-- A system of processes that call any of them. -/
abbrev StorageSystem (urls : UrlLibrary) (text : TextLibrary) :=
  System (storageTransactions urls text).sig Stored Exn Unit

/-- No process on a database without runs. -/
def blankStorage (urls : UrlLibrary) (text : TextLibrary) (accounts : List Account)
    (machines : List Machine) (consents : List AccountDataConsent)
    (machineConsents : List MachineDataConsent) (clock : Instant) : StorageSystem urls text :=
  ⟨⟨Db.empty accounts machines consents machineConsents, clock⟩, []⟩

theorem stamped_run {urls : UrlLibrary} {text : TextLibrary}
    (t : (storageTransactions urls text).Txn) (db : Db)
    (reply : (storageTransactions urls text).Reply t) (db' : Db) (h : Stamped db)
    (hok : (storageTransactions urls text).run t db = .ok (reply, db')) : Stamped db' := by
  rcases t with (t | t) | (t | t)
  · exact stamped_activity t reply h hok
  · exact stamped_achievement t reply h hok
  · exact stamped_cache t reply h hok
  · exact stamped_projection t reply h hok

theorem stamped_empty (accounts : List Account) (machines : List Machine)
    (consents : List AccountDataConsent) (machineConsents : List MachineDataConsent) :
    Stamped (Db.empty accounts machines consents machineConsents) := by
  constructor <;> intro c hc <;> simp [Db.empty, Runs.empty] at hc

/-- The texts that decisions compare: stored times, readings of the clock, and
the cutoffs before a reading. -/
inductive Compared (db : Db) (limits : Limits) : String → Prop
  | reading {a : Aware} {text : String} (h : timestamp a = .ok text) : Compared db limits text
  | days {now text : String} {n : Nat} (h : cutoffDays now n = .ok text) : Compared db limits text
  | minutes {now text : String} {n : Nat} (h : cutoffMinutes now n = .ok text) :
    Compared db limits text
  | started {r : SyncRun} (h : r ∈ db.runs.rows) : Compared db limits r.startedAt
  | completed {r : SyncRun} (h : r ∈ db.runs.rows) {text : String} (ht : r.completedAt = some text) :
    Compared db limits text
  | activity {c : Current Nat Int ActivityFacts} (h : c ∈ db.activityCurrent) :
    Compared db limits c.facts.observedAt
  | player {c : Current Nat Int PlayerAchievement} (h : c ∈ db.playerCurrent) :
    Compared db limits c.facts.observedAt
  | projection {c : PlayerProjection} (h : c ∈ db.playerProjection) :
    Compared db limits c.observedAt
  | schema {c : SchemaAchievement} (h : c ∈ db.schemaCurrent) : Compared db limits c.observedAt
  | status {c : SchemaStatus} (h : c ∈ db.schemaStatus) : Compared db limits c.observedAt
  | priceObservation {o : Observation Nat Int PriceFacts} (h : o ∈ db.priceObservations) :
    Compared db limits o.facts.hardExpiresAt
  | price {c : Current Nat Int PriceFacts} (h : c ∈ db.priceCurrent) :
    Compared db limits c.facts.hardExpiresAt
  | subject {c : PriceSubject} (h : c ∈ db.priceSubjects) : Compared db limits c.hardExpiresAt
  | next {key : LimitKey} {row : LimitRow} (h : limits key = some row) :
    Compared db limits row.nextAllowedAt
  | cooldown {key : LimitKey} {row : LimitRow} (h : limits key = some row) {text : String}
    (ht : row.cooldownUntil = some text) : Compared db limits text

theorem Compared.isStamp {db : Db} {limits : Limits} {text : String} (hdb : Stamped db)
    (hlimits : limits.Stored) (h : Compared db limits text) : IsStamp text := by
  cases h with
  | reading h => exact isStamp_timestamp h
  | days h => exact isStamp_cutoffDays h
  | minutes h => exact isStamp_cutoffMinutes h
  | started h => exact hdb.started _ h
  | completed h ht => exact hdb.completed _ h _ ht
  | activity h => exact hdb.activity _ h
  | player h => exact hdb.player _ h
  | projection h => exact hdb.projection _ h
  | schema h => exact hdb.schema _ h
  | status h => exact hdb.status _ h
  | priceObservation h => exact hdb.priceObservations _ h
  | price h => exact hdb.prices _ h
  | subject h => exact hdb.subjects _ h
  | next h =>
    obtain ⟨current, _, hstored⟩ := hlimits _ _ h
    exact ⟨current, hstored.next_eq⟩
  | cooldown h ht =>
    obtain ⟨_, cooldown, hstored⟩ := hlimits _ _ h
    rw [hstored.cooldown_eq] at ht
    obtain ⟨c, _, hc⟩ := Option.map_eq_some_iff.mp ht
    exact ⟨c, hc.symm⟩

/-- Of two datetimes, and of two texts that a reachable database compares, every
decision on the texts is the decision on the instants, exactly when the two do
not lie in one second with one of them a whole second. -/
theorem stored_time_order {urls : UrlLibrary} {text : TextLibrary} {accounts : List Account}
    {machines : List Machine} {consents : List AccountDataConsent}
    {machineConsents : List MachineDataConsent} {clock : Instant} {s : StorageSystem urls text}
    (h : System.Reach ((storageTransactions urls text).dynamics fun _ => True)
      (blankStorage urls text accounts machines consents machineConsents clock) s)
    (calls : List LimitCall) :
    (∀ (a b : Aware) (x y : String), timestamp a = .ok x → timestamp b = .ok y →
      ∃ i j : Instant, x = i.text ∧ y = j.text ∧ (i < j ↔ a.position < b.position) ∧
        (i = j ↔ a.position = b.position) ∧ (Agrees i j ↔ ¬i.Confusable j)) ∧
    ∀ x y, Compared s.world.db (replay calls) x → Compared s.world.db (replay calls) y →
      ∃ i j : Instant, x = i.text ∧ y = j.text ∧ (Agrees i j ↔ ¬i.Confusable j) := by
  constructor
  · intro a b x y hx hy
    obtain ⟨i, hi, rfl⟩ := timestamp_eq_ok hx
    obtain ⟨j, hj, rfl⟩ := timestamp_eq_ok hy
    have hia := us_of_instantOf hi
    have hjb := us_of_instantOf hj
    refine ⟨i, j, rfl, rfl, ?_, ?_, agrees_iff⟩
    · rw [Instant.lt_iff]
      omega
    · constructor
      · intro heq
        rw [← hia, ← hjb, heq]
      · intro heq
        exact Instant.ext_us (by omega)
  · intro x y hx hy
    have hstamped : Stamped s.world.db :=
      Transactions.reach_always Stamped stamped_run h (stamped_empty ..)
    obtain ⟨i, rfl⟩ := hx.isStamp hstamped (stored_replay calls)
    obtain ⟨j, rfl⟩ := hy.isStamp hstamped (stored_replay calls)
    exact ⟨i, j, rfl, rfl, agrees_iff⟩

/-- Noon comes before half a second past noon, and its text comes after. -/
theorem stored_time_order_half_second :
    ¬∀ (a b : Aware) (x y : String), timestamp a = .ok x → timestamp b = .ok y →
      (x < y ↔ a.position < b.position) ∧ (x = y ↔ a.position = b.position) := by
  intro h
  have horder := (h (noon 0) (noon 500000) "2024-01-01T12:00:00Z" "2024-01-01T12:00:00.500000Z"
    (by decide +kernel) (by decide +kernel)).1
  exact absurd (horder.mpr (by decide)) (by decide +kernel)

/-- One process, which has begun an activity sync at noon. -/
def begunAtNoon : StorageSystem noUrls ⟨id, id⟩ :=
  ((blankStorage noUrls ⟨id, id⟩ [⟨1, "steam"⟩] [] [⟨1, "activity_persistence", "1", true⟩] []
    priceNoon).start do
      let _ ← (storageTransactions noUrls ⟨id, id⟩).transact
        (.inl (.inl (.begin 1 "1" (Aware.ofInstant priceNoon))))
      return ()).moves (Transactions.answers priceNoon) 0 1

theorem stored_time_order_begun :
    begunAtNoon.world.db.runs.rows.map SyncRun.startedAt = ["2024-01-01T12:00:00Z"] ∧
      ∀ x, Compared begunAtNoon.world.db (replay [.defer webApi (noon 0) 10]) x →
        ∃ i : Instant, x = i.text := by
  refine ⟨by decide +kernel, fun x hx => ?_⟩
  have hreach : System.Reach ((storageTransactions noUrls ⟨id, id⟩).dynamics fun _ => True)
      (blankStorage noUrls ⟨id, id⟩ [⟨1, "steam"⟩] [] [⟨1, "activity_persistence", "1", true⟩] []
        priceNoon) begunAtNoon :=
    System.Reach.moves (.start .refl trivial) (fun w c => Transactions.perform_answers _ 0 w c) 1
  obtain ⟨i, _, hx, _⟩ := (stored_time_order hreach [.defer webApi (noon 0) 10]).2 x x hx hx
  exact ⟨i, hx⟩

end SteamAgent.Storage
