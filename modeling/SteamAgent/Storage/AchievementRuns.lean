import Mathlib.Data.Prod.Lex
import Mathlib.Data.String.Basic
import SteamAgent.Storage.Achievements
import SteamAgent.Storage.Transactions

/-!
# The run that an achievement summary came from

The achievement methods as processes on one database, and which run the player
rows of an app belong to.

There are five groups.

* The transactions and the methods.
* `Unmixed`, the result: the rows of an app are those of the newest run that has
  a ready result for it.
* What deleting runs, beginning, recording and ending do to the rows.
* Retention.  `prunesTogether` is the condition under which it takes a
  projection only with its run.
* The results, and two runs.
-/

namespace SteamAgent.Storage

open Datetime (Instant Aware)
open Effects (Prog Move System)

/-! ## Processes -/

/-- The transactions of the achievement methods. -/
inductive SummaryTxn where
  | begin (accountId : Nat) (candidates targeted : List Int) (startedAt : Aware)
      (disclosureVersion : String)
  | record (id : Nat) (result : AchievementResult)
  | mark (id : Nat) (observedAt : Aware) (errorCode : String)
  | finish (id : Nat) (completedAt : Aware)
  | getSyncRun (id : Nat)
  | read (accountId : Nat) (appid : Option Int) (now : Option Aware)

namespace SummaryTxn

def Reply : SummaryTxn → Type
  | begin .. => Nat
  | record .. => Unit
  | mark .. => Unit
  | finish .. => Unit
  | getSyncRun _ => SyncRun
  | read .. => AchievementSnapshot

def run : (t : SummaryTxn) → Db → Except Exn (t.Reply × Db)
  | begin accountId candidates targeted startedAt disclosureVersion, db =>
    beginAchievementSync accountId candidates targeted startedAt disclosureVersion db
  | record id result, db => do
    let db ← recordAchievementResult id result db
    return ((), db)
  | mark id observedAt errorCode, db => do
    let db ← markRemainingAchievementsUnevaluated id observedAt errorCode db
    return ((), db)
  | finish id completedAt, db => do
    let db ← finishAchievementSync id completedAt db
    return ((), db)
  | getSyncRun id, db => do
    let run ← Storage.getSyncRun db.runs id
    return (run, db)
  | read accountId appid now, db => readAchievementSnapshot accountId appid now db

end SummaryTxn

/-- The transactions of the achievement methods, as a family. -/
def summaryTransactions : Transactions :=
  ⟨SummaryTxn, SummaryTxn.Reply, SummaryTxn.run⟩

/-- What a method returns. -/
inductive AchievementReply where
  | run (run : SyncRun)
  | done
  | snapshot (snapshot : AchievementSnapshot)

/-- A method, in a process of its own. -/
abbrev AchievementProg := Prog summaryTransactions.sig Exn AchievementReply

/-- The run that a method returns after its commit. -/
def returnAchievementRun (id : Nat) : AchievementProg := do
  let run ← summaryTransactions.transact (.getSyncRun id)
  return .run run

/-- `begin_achievement_sync`, started at what the clock reads. -/
def beginAchievements (accountId : Nat) (candidates targeted : List Int)
    (disclosureVersion : String) : AchievementProg := do
  let startedAt ← summaryTransactions.now
  let id ← summaryTransactions.transact
    (.begin accountId candidates targeted startedAt disclosureVersion)
  returnAchievementRun id

/-- `record_achievement_result`, observed at what the clock reads. -/
def recordAchievements (id : Nat) (result : AchievementResult) : AchievementProg := do
  let observedAt ← summaryTransactions.now
  let _ ← summaryTransactions.transact (.record id { result with observedAt })
  return .done

/-- `mark_remaining_achievements_unevaluated`. -/
def markAchievements (id : Nat) (errorCode : String) : AchievementProg := do
  let observedAt ← summaryTransactions.now
  let _ ← summaryTransactions.transact (.mark id observedAt errorCode)
  return .done

/-- `finish_achievement_sync`. -/
def finishAchievements (id : Nat) : AchievementProg := do
  let completedAt ← summaryTransactions.now
  let _ ← summaryTransactions.transact (.finish id completedAt)
  returnAchievementRun id

/-- `read_achievement_snapshot`, with or without the time. -/
def readAchievements (accountId : Nat) (appid : Option Int) (timed : Bool) : AchievementProg := do
  let now ← summaryTransactions.now
  let snapshot ← summaryTransactions.transact
    (.read accountId appid (if timed then some now else none))
  return .snapshot snapshot

/-- The achievement methods. -/
inductive AchievementMethod : AchievementProg → Prop
  | begin (accountId : Nat) (candidates targeted : List Int) (disclosureVersion : String) :
    AchievementMethod (beginAchievements accountId candidates targeted disclosureVersion)
  | record (id : Nat) (result : AchievementResult) :
    AchievementMethod (recordAchievements id result)
  | mark (id : Nat) (errorCode : String) : AchievementMethod (markAchievements id errorCode)
  | finish (id : Nat) : AchievementMethod (finishAchievements id)
  | read (accountId : Nat) (appid : Option Int) (timed : Bool) :
    AchievementMethod (readAchievements accountId appid timed)

/-! ## The rows of one run -/

/-- What `ORDER BY started_at, id` orders by. -/
def SyncRun.start (r : SyncRun) : String ×ₗ Nat :=
  toLex (r.startedAt, r.id)

/-- The starts of the runs with a ready result for an app. -/
def Db.readyStarts (db : Db) (accountId : Nat) (appid : Int) : Set (String ×ₗ Nat) :=
  { start | ∃ r ∈ db.runs.rows, r.start = start ∧ ∃ d ∈ db.achievementDemand,
      d.syncRunId = r.id ∧ d.accountId = accountId ∧ d.appid = appid ∧ d.state = "ready" }

/-- The player rows of an app are those that one run recorded.  Its projection
names the run, which is the newest with a ready result for the app. -/
structure Unmixed (db : Db) : Prop where
  newest : ∀ c ∈ db.playerProjection, ∃ r ∈ db.runs.rows, r.id = c.promotedSyncRunId ∧
    IsGreatest (db.readyStarts c.accountId c.appid) r.start
  projected : ∀ accountId appid, (db.readyStarts accountId appid).Nonempty →
    ∃ c ∈ db.playerProjection, c.accountId = accountId ∧ c.appid = appid
  rows : ∀ row, row ∈ db.playerCurrent ↔ ∃ c ∈ db.playerProjection, ∃ o ∈ db.playerObservations,
    o.syncRunId = c.promotedSyncRunId ∧ o.subject = c.accountId ∧ o.key = c.appid ∧
      row = o.promoted fun facts => facts

/-- A selected demand that is ready belongs to the run of the rows. -/
def AchievementSnapshot.Paired (snapshot : AchievementSnapshot) : Prop :=
  ∀ item ∈ snapshot.items, item.demand.state = "ready" →
    item.projectionSyncRunId = some item.demand.syncRunId

/-- A finished run has no demand that is running, and counts what it evaluated. -/
def Db.AchievementsCounted (db : Db) : Prop :=
  ∀ r ∈ db.runs.rows, r.capability = "achievements.read" → r.status = .complete →
    (∀ d ∈ db.achievementDemand, d.syncRunId = r.id → d.state ≠ "running") ∧
    r.recordsSeen = evaluatedCount db.achievementDemand r.id

/-! ## The order of the runs -/

theorem byStart_iff {r r' : SyncRun} : byStart r r' = true ↔ r'.start < r.start := by
  unfold byStart startedAfter SyncRun.start
  rw [Prod.Lex.toLex_lt_toLex]
  simp only [Bool.or_eq_true, Bool.and_eq_true, decide_eq_true_eq, beq_iff_eq]
  rw [eq_comm (a := r.startedAt)]

theorem byStart_eq_false {r r' : SyncRun} : byStart r r' = false ↔ r.start ≤ r'.start := by
  rw [← Bool.not_eq_true, byStart_iff, not_lt]

theorem startedLater_iff {r r' : SyncRun} :
    startedLater r.startedAt r.id r'.startedAt r'.id = true ↔ r'.start < r.start := by
  unfold startedLater SyncRun.start
  rw [Prod.Lex.toLex_lt_toLex]
  simp only [Bool.or_eq_true, Bool.and_eq_true, decide_eq_true_eq, beq_iff_eq]
  rw [eq_comm (a := r.startedAt)]

theorem id_of_start {r r' : SyncRun} (h : r.start = r'.start) : r.id = r'.id :=
  congrArg (fun start => (ofLex start).2) h

/-! ## The invariant -/

/-- What the achievement methods keep. -/
structure AchievementInv (db : Db) : Prop extends Unmixed db where
  counted : db.AchievementsCounted
  owned : ∀ d ∈ db.achievementDemand, ∃ r ∈ db.runs.rows, r.id = d.syncRunId ∧
    r.ofAccount "achievements.read" d.accountId = true
  distinct : ∀ d ∈ db.achievementDemand, ∀ d' ∈ db.achievementDemand,
    d.syncRunId = d'.syncRunId → d.appid = d'.appid → d = d'
  dated : ∀ c ∈ db.playerProjection, ∀ o ∈ db.playerObservations,
    o.syncRunId = c.promotedSyncRunId → o.subject = c.accountId → o.key = c.appid →
      o.facts.observedAt = c.observedAt
  fresh : ∀ d ∈ db.achievementDemand, d.state = "running" → ∀ o ∈ db.playerObservations,
    o.syncRunId = d.syncRunId → o.key ≠ d.appid
  bound : ∀ o ∈ db.playerObservations, o.syncRunId ≤ db.runs.last

theorem achievementInv_empty (accounts : List Account) (machines : List Machine)
    (consents : List AccountDataConsent) (machineConsents : List MachineDataConsent) :
    AchievementInv (Db.empty accounts machines consents machineConsents) where
  newest c hc := absurd hc List.not_mem_nil
  projected _ _ h := by
    obtain ⟨_, _, _, _, d, hd, _⟩ := h
    exact absurd hd List.not_mem_nil
  rows row := by simp [Db.empty]
  counted r hr := absurd hr List.not_mem_nil
  owned d hd := absurd hd List.not_mem_nil
  distinct d hd := absurd hd List.not_mem_nil
  dated c hc := absurd hc List.not_mem_nil
  fresh d hd := absurd hd List.not_mem_nil
  bound o ho := absurd ho List.not_mem_nil

section Invariant

variable {db db' : Db} {accountId id : Nat} {appid : Int}

/-- The runs of the ready results of an account are its own. -/
theorem AchievementInv.ofAccount (h : AchievementInv db) {r : SyncRun} (hr : r ∈ db.runs.rows)
    (hready : r.start ∈ db.readyStarts accountId appid) :
    r.ofAccount "achievements.read" accountId = true := by
  obtain ⟨r', hr', hstart, d, hd, hid, rfl, _, _⟩ := hready
  obtain ⟨r'', hr'', hid', hof⟩ := h.owned d hd
  rwa [Runs.eq_of_id hr hr'' (by rw [hid', hid, id_of_start hstart])]

/-- A step that leaves the tables of the achievements alone. -/
theorem AchievementInv.congr (h : AchievementInv db) (hruns : db'.runs = db.runs)
    (hdemand : db'.achievementDemand = db.achievementDemand)
    (hobservations : db'.playerObservations = db.playerObservations)
    (hcurrent : db'.playerCurrent = db.playerCurrent)
    (hprojection : db'.playerProjection = db.playerProjection) : AchievementInv db' := by
  have hready : ∀ accountId appid,
      db'.readyStarts accountId appid = db.readyStarts accountId appid := by
    intro accountId appid
    unfold Db.readyStarts
    rw [hruns, hdemand]
  constructor
  · constructor
    · rw [hprojection, hruns]
      intro c hc
      rw [hready]
      exact h.newest c hc
    · intro accountId appid
      rw [hready, hprojection]
      exact h.projected accountId appid
    · rw [hcurrent, hprojection, hobservations]
      exact h.rows
  · unfold Db.AchievementsCounted
    rw [hruns, hdemand]
    exact h.counted
  · rw [hdemand, hruns]
    exact h.owned
  · rw [hdemand]
    exact h.distinct
  · rw [hprojection, hobservations]
    exact h.dated
  · rw [hdemand, hobservations]
    exact h.fresh
  · rw [hobservations, hruns]
    exact h.bound

/-! ## Deleting runs -/

theorem drops_id {p : SyncRun → Bool} {r : SyncRun} (hr : r ∈ db.runs.rows) :
    db.drops p r.id = p r := by
  cases hp : p r with
  | true => exact Db.drops_eq_true.mpr ⟨r, hr, rfl, hp⟩
  | false =>
    refine Db.drops_eq_false.mpr fun r' hr' hid => ?_
    rwa [Runs.eq_of_id hr' hr hid]

theorem mem_readyStarts_deleteRuns {p : SyncRun → Bool} {r : SyncRun} (hr : r ∈ db.runs.rows) :
    r.start ∈ (db.deleteRuns p).readyStarts accountId appid ↔
      r.start ∈ db.readyStarts accountId appid ∧ p r = false := by
  constructor
  · rintro ⟨r', hr', hstart, d, hd, hid, hrest⟩
    obtain ⟨hr', hp⟩ := Runs.mem_delete.mp hr'
    obtain rfl := Runs.eq_of_id hr' hr (id_of_start hstart)
    exact ⟨⟨r', hr', rfl, d, List.mem_of_mem_filter hd, hid, hrest⟩, hp⟩
  · rintro ⟨⟨r', hr', hstart, d, hd, hid, hrest⟩, hp⟩
    obtain rfl := Runs.eq_of_id hr' hr (id_of_start hstart)
    refine ⟨r', Runs.mem_delete.mpr ⟨hr', hp⟩, rfl, d, List.mem_filter.mpr ⟨hd, ?_⟩, hid, hrest⟩
    rw [hid, drops_id hr', hp]
    rfl

theorem evaluatedCount_deleteRuns {p : SyncRun → Bool} {r : SyncRun} (hr : r ∈ db.runs.rows)
    (hp : p r = false) :
    evaluatedCount (db.deleteRuns p).achievementDemand r.id =
      evaluatedCount db.achievementDemand r.id := by
  unfold evaluatedCount Db.deleteRuns
  rw [List.filter_filter]
  congr 1
  refine List.filter_congr fun d _ => ?_
  by_cases hid : d.syncRunId = r.id
  · rw [hid, drops_id hr, hp]
    simp
  · simp [hid]

/-- Deleting the oldest runs of an account.  An app keeps its newest run, or it
loses all of them. -/
theorem AchievementInv.deleteRuns (h : AchievementInv db) (p : SyncRun → Bool)
    (hp : ∀ accountId, ∀ r ∈ db.runs.rows, ∀ r' ∈ db.runs.rows,
      r.ofAccount "achievements.read" accountId = true →
      r'.ofAccount "achievements.read" accountId = true → p r = true → r'.start ≤ r.start →
        p r' = true) : AchievementInv (db.deleteRuns p) := by
  constructor
  · constructor
    · intro c hc
      obtain ⟨hc, hdrop⟩ := List.mem_filter.mp hc
      obtain ⟨r, hr, hid, hgreatest⟩ := h.newest c hc
      have hkept : p r = false := by
        rw [← drops_id (p := p) hr, hid]
        simpa using hdrop
      refine ⟨r, Runs.mem_delete.mpr ⟨hr, hkept⟩, hid,
        (mem_readyStarts_deleteRuns hr).mpr ⟨hgreatest.1, hkept⟩, ?_⟩
      rintro start ⟨r', hr', rfl, hready⟩
      have hr' := (Runs.mem_delete.mp hr').1
      exact hgreatest.2 ((mem_readyStarts_deleteRuns hr').mp ⟨r', ‹_›, rfl, hready⟩).1
    · rintro accountId appid ⟨start, r', hr', rfl, hready⟩
      obtain ⟨hmem', hkept'⟩ := Runs.mem_delete.mp hr'
      have hstart' := ((mem_readyStarts_deleteRuns hmem').mp ⟨r', hr', rfl, hready⟩).1
      obtain ⟨c, hc, rfl, rfl⟩ := h.projected accountId appid ⟨_, hstart'⟩
      obtain ⟨r, hr, hid, hgreatest⟩ := h.newest c hc
      refine ⟨c, List.mem_filter.mpr ⟨hc, ?_⟩, rfl, rfl⟩
      rw [← hid, drops_id hr]
      cases hpr : p r with
      | false => rfl
      | true =>
        have hpr' := hp c.accountId r hr r' hmem' (h.ofAccount hr hgreatest.1)
          (h.ofAccount hmem' hstart') hpr (hgreatest.2 hstart')
        rw [hpr'] at hkept'
        exact absurd hkept' (by simp)
    · intro row
      simp only [Db.deleteRuns, List.mem_filter, h.rows row]
      constructor
      · rintro ⟨⟨c, hc, o, ho, hid, hsubject, hkey, rfl⟩, hdrop⟩
        have hdrop' : (!db.drops p o.syncRunId) = true := hdrop
        exact ⟨c, ⟨hc, hid ▸ hdrop'⟩, o, ⟨ho, hdrop'⟩, hid, hsubject, hkey, rfl⟩
      · rintro ⟨c, ⟨hc, _⟩, o, ⟨ho, hdrop⟩, hid, hsubject, hkey, rfl⟩
        exact ⟨⟨c, hc, o, ho, hid, hsubject, hkey, rfl⟩, hdrop⟩
  · intro r hr hcapability hstatus
    obtain ⟨hr, hkept⟩ := Runs.mem_delete.mp hr
    obtain ⟨hended, hcount⟩ := h.counted r hr hcapability hstatus
    refine ⟨fun d hd => hended d (List.mem_of_mem_filter hd), ?_⟩
    rw [evaluatedCount_deleteRuns hr hkept, hcount]
  · intro d hd
    obtain ⟨hd, hdrop⟩ := List.mem_filter.mp hd
    obtain ⟨r, hr, hid, hof⟩ := h.owned d hd
    refine ⟨r, Runs.mem_delete.mpr ⟨hr, ?_⟩, hid, hof⟩
    rw [← drops_id (p := p) hr, hid]
    simpa using hdrop
  · intro d hd d' hd'
    exact h.distinct d (List.mem_of_mem_filter hd) d' (List.mem_of_mem_filter hd')
  · intro c hc o ho
    exact h.dated c (List.mem_of_mem_filter hc) o (List.mem_of_mem_filter ho)
  · intro d hd hs o ho
    exact h.fresh d (List.mem_of_mem_filter hd) hs o (List.mem_of_mem_filter ho)
  · intro o ho
    exact h.bound o (List.mem_of_mem_filter ho)

/-! ## Retention -/

/-- Retention takes the projections of an account only with their runs: a
projection is past the cutoff only if its run is. -/
def prunesTogether (db : Db) (accountId : Nat) (now : Aware) : Bool :=
  match timestamp now >>= fun now => cutoffDays now 7 with
  | .error _ => true
  | .ok cutoff => db.playerProjection.all fun c =>
    !(c.accountId == accountId && pastCutoff c.observedAt cutoff) ||
      db.runs.rows.any fun r => r.id == c.promotedSyncRunId && pastCutoff r.startedAt cutoff

/-- `prunesTogether`, for a text. -/
def Db.PrunesTogether (db : Db) (accountId : Nat) (now : String) : Prop :=
  ∀ cutoff, cutoffDays now 7 = .ok cutoff → ∀ c ∈ db.playerProjection,
    c.accountId = accountId → pastCutoff c.observedAt cutoff = true →
      ∃ r ∈ db.runs.rows, r.id = c.promotedSyncRunId ∧ pastCutoff r.startedAt cutoff = true

theorem prunesTogether_text {now : Aware} {text : String} (h : prunesTogether db accountId now = true)
    (htext : timestamp now = .ok text) : db.PrunesTogether accountId text := by
  intro cutoff hcutoff c hc hsubject hpast
  have hnow : (timestamp now >>= fun now => cutoffDays now 7) = .ok cutoff :=
    bind_eq_ok.mpr ⟨text, htext, hcutoff⟩
  unfold prunesTogether at h
  rw [hnow] at h
  have hc := List.all_eq_true.mp h c hc
  simpa [hsubject, hpast] using hc

/-- A cutoff takes the runs of an account from the oldest on. -/
theorem pastCutoff_of_le {r r' : SyncRun} {cutoff : String} (hle : r'.start ≤ r.start)
    (h : pastCutoff r.startedAt cutoff = true) : pastCutoff r'.startedAt cutoff = true := by
  have hle' : r'.startedAt ≤ r.startedAt := Prod.Lex.monotone_fst r'.start r.start hle
  unfold pastCutoff at h ⊢
  exact decide_eq_true (lt_of_le_of_lt hle' (of_decide_eq_true h))

theorem AchievementInv.pruneActivity (h : AchievementInv db) {now : String}
    (hok : Storage.pruneActivity accountId now db = .ok db') : AchievementInv db' := by
  obtain ⟨cutoff, _, hok⟩ := bind_eq_ok.mp hok
  obtain rfl := Except.ok.inj hok
  have hkept := h.deleteRuns
    (fun r => r.ofAccount "activity.read" accountId && pastCutoff r.startedAt cutoff)
    fun accountId' r hr r' hr' hof hof' hp hle => by
      simp only [SyncRun.ofAccount, Bool.and_eq_true, beq_iff_eq] at hof hp
      rw [hof.1] at hp
      exact absurd hp.1.1 (by decide)
  exact hkept.congr rfl rfl rfl rfl rfl

/-- After the runs, the cutoff takes no more rows. -/
theorem AchievementInv.pruneAchievements (h : AchievementInv db) {now : String}
    (htogether : db.PrunesTogether accountId now)
    (hok : Storage.pruneAchievements accountId now db = .ok db') : AchievementInv db' := by
  obtain ⟨cutoff, hcutoff, hok⟩ := bind_eq_ok.mp hok
  obtain ⟨schemaCutoff, _, hok⟩ := bind_eq_ok.mp hok
  obtain rfl := Except.ok.inj hok
  set p : SyncRun → Bool := fun r =>
    r.ofAccount "achievements.read" accountId && pastCutoff r.startedAt cutoff with hp
  have hkept := h.deleteRuns p fun accountId' r hr r' hr' hof hof' hpr hle => by
    simp only [hp, SyncRun.ofAccount, Bool.and_eq_true, beq_iff_eq] at hof hof' hpr ⊢
    exact ⟨⟨hof'.1, by rw [hof'.2, ← hof.2, hpr.1.2]⟩, pastCutoff_of_le hle hpr.2⟩
  have hprojection : ∀ c ∈ (db.deleteRuns p).playerProjection, c.accountId = accountId →
      pastCutoff c.observedAt cutoff = false := by
    intro c hc hsubject
    obtain ⟨r, hr, hid, hgreatest⟩ := hkept.newest c hc
    have hof := hkept.ofAccount hr hgreatest.1
    obtain ⟨hr, hpr⟩ := Runs.mem_delete.mp hr
    cases hpast : pastCutoff c.observedAt cutoff with
    | false => rfl
    | true =>
      obtain ⟨r', hr', hid', hpast'⟩ :=
        htogether cutoff hcutoff c (List.mem_of_mem_filter hc) hsubject hpast
      obtain rfl := Runs.eq_of_id hr hr' (hid.trans hid'.symm)
      simp [hp, ← hsubject, hof, hpast'] at hpr
  have hcurrent : ∀ row ∈ (db.deleteRuns p).playerCurrent, row.subject = accountId →
      pastCutoff row.facts.observedAt cutoff = false := by
    intro row hrow hsubject
    obtain ⟨c, hc, o, ho, hid, hsubject', hkey, rfl⟩ := (hkept.rows row).mp hrow
    have hdated : o.facts.observedAt = c.observedAt := hkept.dated c hc o ho hid hsubject' hkey
    show pastCutoff o.facts.observedAt cutoff = false
    rw [hdated]
    exact hprojection c hc (hsubject'.symm.trans hsubject)
  refine hkept.congr rfl rfl rfl (List.filter_eq_self.mpr fun row hrow => ?_)
    (List.filter_eq_self.mpr fun c hc => ?_)
  · by_cases hsubject : row.subject = accountId
    · rw [hcurrent row hrow hsubject]
      simp
    · simp [hsubject]
  · by_cases hsubject : c.accountId = accountId
    · rw [hprojection c hc hsubject]
      simp
    · simp [hsubject]

theorem AchievementInv.pruneBehavioral (h : AchievementInv db) {now : String}
    (htogether : db.PrunesTogether accountId now)
    (hok : Storage.pruneBehavioral accountId now db = .ok db') : AchievementInv db' := by
  obtain ⟨db₁, h₁, hok⟩ := bind_eq_ok.mp hok
  have hinv := h.pruneActivity h₁
  refine hinv.pruneAchievements (fun cutoff hcutoff c hc hsubject hpast => ?_) hok
  obtain ⟨activityCutoff, _, h₁⟩ := bind_eq_ok.mp h₁
  obtain rfl := Except.ok.inj h₁
  obtain ⟨r, hr, hid, _⟩ := hinv.newest c hc
  obtain ⟨r', hr', hid', hpast'⟩ :=
    htogether cutoff hcutoff c (List.mem_of_mem_filter hc) hsubject hpast
  obtain rfl := Runs.eq_of_id (Runs.mem_delete.mp hr).1 hr' (hid.trans hid'.symm)
  exact ⟨r, hr, hid, hpast'⟩

/-! ## Beginning -/

/-- A new run, with demand of its own. -/
theorem AchievementInv.insertRun (h : AchievementInv db) {run : SyncRun} {rows : List SyncDemand}
    (hstatus : run.status ≠ .complete)
    (hrows : ∀ d ∈ rows, d.syncRunId = db.runs.last + 1 ∧
      run.ofAccount "achievements.read" d.accountId = true ∧ d.state ≠ "ready")
    (hdistinct : ∀ d ∈ rows, ∀ d' ∈ rows, d.appid = d'.appid → d = d') :
    AchievementInv { db with
      runs := db.runs.insert run
      achievementDemand := db.achievementDemand ++ rows } := by
  have hlast : ∀ d ∈ db.achievementDemand, d.syncRunId ≤ db.runs.last := by
    intro d hd
    obtain ⟨r, hr, hid, _⟩ := h.owned d hd
    exact hid ▸ db.runs.bound r hr
  have hready : ∀ accountId appid, Db.readyStarts { db with
      runs := db.runs.insert run
      achievementDemand := db.achievementDemand ++ rows } accountId appid =
        db.readyStarts accountId appid := by
    intro accountId appid
    ext start
    constructor
    · rintro ⟨r, hr, rfl, d, hd, hid, hsubject, hkey, hs⟩
      rcases List.mem_append.mp hd with hd | hd
      · rcases Runs.mem_insert.mp hr with hr | rfl
        · exact ⟨r, hr, rfl, d, hd, hid, hsubject, hkey, hs⟩
        · have hle := hlast d hd
          have hid' : d.syncRunId = db.runs.last + 1 := hid
          omega
      · exact absurd hs (hrows d hd).2.2
    · rintro ⟨r, hr, rfl, d, hd, hrest⟩
      exact ⟨r, Runs.mem_insert.mpr (Or.inl hr), rfl, d, List.mem_append_left rows hd, hrest⟩
  constructor
  · constructor
    · intro c hc
      obtain ⟨r, hr, hid, hgreatest⟩ := h.newest c hc
      rw [hready]
      exact ⟨r, Runs.mem_insert.mpr (Or.inl hr), hid, hgreatest⟩
    · intro accountId appid
      rw [hready]
      exact h.projected accountId appid
    · exact h.rows
  · intro r hr hcapability hcomplete
    rcases Runs.mem_insert.mp hr with hr | rfl
    · obtain ⟨hended, hcount⟩ := h.counted r hr hcapability hcomplete
      have hle := db.runs.bound r hr
      have hother : ∀ d ∈ rows, d.syncRunId ≠ r.id := by
        intro d hd
        have hid := (hrows d hd).1
        omega
      constructor
      · intro d hd hid
        rcases List.mem_append.mp hd with hd | hd
        · exact hended d hd hid
        · exact absurd hid (hother d hd)
      · have hnone : rows.filter (fun d => d.syncRunId == r.id && d.evaluated) = [] := by
          refine List.filter_eq_nil_iff.mpr fun d hd => ?_
          simp [hother d hd]
        rw [hcount]
        simp only [evaluatedCount, List.filter_append, hnone, List.append_nil]
    · exact absurd hcomplete hstatus
  · intro d hd
    rcases List.mem_append.mp hd with hd | hd
    · obtain ⟨r, hr, hid, hof⟩ := h.owned d hd
      exact ⟨r, Runs.mem_insert.mpr (Or.inl hr), hid, hof⟩
    · exact ⟨_, Runs.mem_insert.mpr (Or.inr rfl), (hrows d hd).1.symm, (hrows d hd).2.1⟩
  · intro d hd d' hd' hid hkey
    rcases List.mem_append.mp hd with hd | hd <;> rcases List.mem_append.mp hd' with hd' | hd'
    · exact h.distinct d hd d' hd' hid hkey
    · have hle := hlast d hd
      have hnew := (hrows d' hd').1
      omega
    · have hle := hlast d' hd'
      have hnew := (hrows d hd).1
      omega
    · exact hdistinct d hd d' hd' hkey
  · exact h.dated
  · intro d hd hs o ho hid
    rcases List.mem_append.mp hd with hd | hd
    · exact h.fresh d hd hs o ho hid
    · have hle := h.bound o ho
      have hnew := (hrows d hd).1
      omega
  · intro o ho
    exact Nat.le_succ_of_le (h.bound o ho)

theorem achievementDemandRow_distinct {candidates targeted : List Int} (hnodup : candidates.Nodup) :
    ∀ d ∈ candidates.zipIdx.map (achievementDemandRow id accountId targeted),
    ∀ d' ∈ candidates.zipIdx.map (achievementDemandRow id accountId targeted),
      d.appid = d'.appid → d = d' := by
  intro d hd d' hd' hkey
  obtain ⟨⟨a, i⟩, hi, rfl⟩ := List.mem_map.mp hd
  obtain ⟨⟨b, j⟩, hj, rfl⟩ := List.mem_map.mp hd'
  have hab : a = b := hkey
  have hi := List.mem_zipIdx_iff_getElem?.mp hi
  have hj := List.mem_zipIdx_iff_getElem?.mp hj
  obtain ⟨hli, hvi⟩ := List.getElem?_eq_some_iff.mp hi
  obtain ⟨hlj, hvj⟩ := List.getElem?_eq_some_iff.mp hj
  have hij : i = j := hnodup.getElem_inj_iff.mp (hvi.trans (hab.trans hvj.symm))
  rw [hab, hij]

theorem AchievementInv.beginAchievementSync (h : AchievementInv db) {candidates targeted : List Int}
    {startedAt : Aware} {disclosureVersion : String}
    (htogether : prunesTogether db accountId startedAt = true)
    (hok : Storage.beginAchievementSync accountId candidates targeted startedAt disclosureVersion db
      = .ok (id, db')) : AchievementInv db' := by
  obtain ⟨text, htext, hok⟩ := bind_eq_ok.mp hok
  obtain ⟨_, hdemand, hok⟩ := bind_eq_ok.mp hok
  obtain ⟨hnodup, _⟩ := require_eq_ok.mp hdemand
  obtain ⟨_, _, hok⟩ := bind_eq_ok.mp hok
  obtain ⟨db₁, h₁, hok⟩ := bind_eq_ok.mp hok
  obtain ⟨_, _, hok⟩ := bind_eq_ok.mp hok
  obtain ⟨rfl, rfl⟩ := Prod.mk.inj (Except.ok.inj hok)
  refine (h.pruneBehavioral (prunesTogether_text htogether htext) h₁).insertRun (by simp [runningSync])
    (fun d hd => ?_) (achievementDemandRow_distinct hnodup)
  obtain ⟨candidate, _, rfl⟩ := List.mem_map.mp hd
  refine ⟨rfl, by simp [SyncRun.ofAccount, runningSync, achievementDemandRow], ?_⟩
  show (if candidate.1 ∈ targeted then "running" else "unevaluated") ≠ "ready"
  split <;> simp

/-! ## Answers -/

/-- A statement that ends demand of a run that is running. -/
structure Answers (db : Db) (id : Nat) (f : SyncDemand → SyncDemand) : Prop where
  keys : ∀ d ∈ db.achievementDemand, (f d).syncRunId = d.syncRunId ∧
    (f d).accountId = d.accountId ∧ (f d).appid = d.appid
  ends : ∀ d ∈ db.achievementDemand, f d = d ∨
    d.syncRunId = id ∧ d.state = "running" ∧ (f d).state ≠ "running"

section Answered

variable {f : SyncDemand → SyncDemand}

/-- Counting the demand of a run that the statement leaves alone. -/
theorem Answers.evaluatedCount (ha : Answers db id f) {runId : Nat}
    (hsame : ∀ d ∈ db.achievementDemand, d.syncRunId = runId → f d = d) :
    Storage.evaluatedCount (db.achievementDemand.map f) runId =
      Storage.evaluatedCount db.achievementDemand runId := by
  unfold Storage.evaluatedCount
  rw [List.filter_map, List.length_map]
  congr 1
  refine List.filter_congr fun d hd => ?_
  by_cases hid : d.syncRunId = runId
  · simp [hsame d hd hid]
  · have hid' : (f d).syncRunId ≠ runId := by rwa [(ha.keys d hd).1]
    simp only [Function.comp, beq_false_of_ne hid, beq_false_of_ne hid', Bool.false_and]

/-- A run that is finished keeps its demand. -/
theorem Answers.eq_of_ended (ha : Answers db id f) {runId : Nat}
    (hended : ∀ d ∈ db.achievementDemand, d.syncRunId = runId → d.state ≠ "running") :
    ∀ d ∈ db.achievementDemand, d.syncRunId = runId → f d = d := by
  intro d hd hid
  rcases ha.ends d hd with hsame | ⟨_, hrunning, _⟩
  · exact hsame
  · exact absurd hrunning (hended d hd hid)

theorem Answers.counted (ha : Answers db id f) (h : db.AchievementsCounted) :
    Db.AchievementsCounted { db with achievementDemand := db.achievementDemand.map f } := by
  intro r hr hcapability hstatus
  obtain ⟨hended, hcount⟩ := h r hr hcapability hstatus
  have hsame := ha.eq_of_ended hended
  refine ⟨fun d hd hid => ?_, ?_⟩
  · obtain ⟨d₀, hd₀, rfl⟩ := List.mem_map.mp hd
    rw [(ha.keys d₀ hd₀).1] at hid
    rw [hsame d₀ hd₀ hid]
    exact hended d₀ hd₀ hid
  · exact hcount.trans (ha.evaluatedCount hsame).symm

theorem Answers.owned (ha : Answers db id f) (h : AchievementInv db) :
    ∀ d ∈ db.achievementDemand.map f, ∃ r ∈ db.runs.rows, r.id = d.syncRunId ∧
      r.ofAccount "achievements.read" d.accountId = true := by
  intro d hd
  obtain ⟨d₀, hd₀, rfl⟩ := List.mem_map.mp hd
  obtain ⟨hid, hsubject, _⟩ := ha.keys d₀ hd₀
  rw [hid, hsubject]
  exact h.owned d₀ hd₀

theorem Answers.distinct (ha : Answers db id f) (h : AchievementInv db) :
    ∀ d ∈ db.achievementDemand.map f, ∀ d' ∈ db.achievementDemand.map f,
      d.syncRunId = d'.syncRunId → d.appid = d'.appid → d = d' := by
  intro d hd d' hd' hid hkey
  obtain ⟨d₀, hd₀, rfl⟩ := List.mem_map.mp hd
  obtain ⟨d₁, hd₁, rfl⟩ := List.mem_map.mp hd'
  rw [(ha.keys d₀ hd₀).1, (ha.keys d₁ hd₁).1] at hid
  rw [(ha.keys d₀ hd₀).2.2, (ha.keys d₁ hd₁).2.2] at hkey
  rw [h.distinct d₀ hd₀ d₁ hd₁ hid hkey]

/-- Demand that is running still was running. -/
theorem Answers.running (ha : Answers db id f) {d : SyncDemand} (hd : d ∈ db.achievementDemand)
    (hs : (f d).state = "running") : f d = d := by
  rcases ha.ends d hd with hsame | ⟨_, _, hended⟩
  · exact hsame
  · exact absurd hs hended

/-- A result that was ready stays ready. -/
theorem Answers.ready (ha : Answers db id f) {d : SyncDemand} (hd : d ∈ db.achievementDemand)
    (hs : d.state = "ready") : f d = d := by
  rcases ha.ends d hd with hsame | ⟨_, hrunning, _⟩
  · exact hsame
  · rw [hs] at hrunning
    exact absurd hrunning (by decide)

/-- A statement without new ready results. -/
theorem AchievementInv.answers (h : AchievementInv db) (ha : Answers db id f)
    (hnone : ∀ d ∈ db.achievementDemand, (f d).state = "ready" → d.state = "ready") :
    AchievementInv { db with achievementDemand := db.achievementDemand.map f } := by
  have hready : ∀ accountId appid, Db.readyStarts
      { db with achievementDemand := db.achievementDemand.map f } accountId appid =
        db.readyStarts accountId appid := by
    intro accountId appid
    ext start
    constructor
    · rintro ⟨r, hr, rfl, d, hd, hid, hsubject, hkey, hs⟩
      obtain ⟨d₀, hd₀, rfl⟩ := List.mem_map.mp hd
      rw [ha.ready hd₀ (hnone d₀ hd₀ hs)] at hid hsubject hkey hs
      exact ⟨r, hr, rfl, d₀, hd₀, hid, hsubject, hkey, hs⟩
    · rintro ⟨r, hr, rfl, d, hd, hrest⟩
      refine ⟨r, hr, rfl, d, List.mem_map.mpr ⟨d, hd, ha.ready hd hrest.2.2.2⟩, hrest⟩
  constructor
  · constructor
    · intro c hc
      rw [hready]
      exact h.newest c hc
    · intro accountId appid
      rw [hready]
      exact h.projected accountId appid
    · exact h.rows
  · exact ha.counted h.counted
  · exact ha.owned h
  · exact ha.distinct h
  · exact h.dated
  · intro d hd hs o ho
    obtain ⟨d₀, hd₀, rfl⟩ := List.mem_map.mp hd
    have hsame := ha.running hd₀ hs
    rw [hsame] at hs ⊢
    exact h.fresh d₀ hd₀ hs o ho
  · exact h.bound

end Answered

/-! ## Marking and finishing -/

theorem AchievementInv.markRemainingAchievementsUnevaluated (h : AchievementInv db)
    {observedAt : Aware} {errorCode : String}
    (hok : Storage.markRemainingAchievementsUnevaluated id observedAt errorCode db = .ok db') :
    AchievementInv db' := by
  obtain ⟨text, _, hok⟩ := bind_eq_ok.mp hok
  obtain rfl := Except.ok.inj hok
  refine h.answers (⟨fun d _ => ?_, fun d _ => ?_⟩ : Answers db id _) fun d _ hs => ?_
  · split <;> exact ⟨rfl, rfl, rfl⟩
  · split
    · rename_i hcond
      simp only [Bool.and_eq_true, beq_iff_eq] at hcond
      exact Or.inr ⟨hcond.1.1, hcond.2, by simp⟩
    · exact Or.inl rfl
  · split at hs
    · simp at hs
    · exact hs

/-- The end of a run without demand that is running. -/
theorem AchievementInv.completeRun (h : AchievementInv db) (id : Nat) (completed : String)
    (hended : ∀ d ∈ db.achievementDemand, d.syncRunId = id → d.state ≠ "running") :
    AchievementInv { db with runs := db.runs.set id (SyncRun.completeAt true
      (evaluatedCount db.achievementDemand id) completed) } := by
  have hmem : ∀ r ∈ db.runs.rows, ∃ r' ∈ (db.runs.set id (SyncRun.completeAt true
      (evaluatedCount db.achievementDemand id) completed)).rows, r'.origin = r.origin := by
    intro r hr
    by_cases hid : r.id = id
    · subst hid
      exact ⟨_, Runs.mem_set_self hr, rfl⟩
    · exact ⟨r, (Runs.mem_set_of_ne hid).mpr hr, rfl⟩
  have hmem' : ∀ r' ∈ (db.runs.set id (SyncRun.completeAt true
      (evaluatedCount db.achievementDemand id) completed)).rows, ∃ r ∈ db.runs.rows,
        r.id = r'.id ∧ r.start = r'.start := by
    intro r' hr'
    rcases Runs.mem_set.mp hr' with ⟨hr', _⟩ | ⟨r, hr, rfl, rfl⟩
    · exact ⟨r', hr', rfl, rfl⟩
    · exact ⟨r, hr, rfl, rfl⟩
  have hstart : ∀ {r r' : SyncRun}, r'.origin = r.origin →
      r'.id = r.id ∧ r'.start = r.start ∧ ∀ accountId,
        r'.ofAccount "achievements.read" accountId = r.ofAccount "achievements.read" accountId := by
    intro r r' horigin
    simp only [SyncRun.origin, Prod.mk.injEq] at horigin
    obtain ⟨hid, hcapability, _, haccount, hstarted⟩ := horigin
    refine ⟨hid, by rw [SyncRun.start, SyncRun.start, hid, hstarted], fun accountId => ?_⟩
    rw [SyncRun.ofAccount, SyncRun.ofAccount, hcapability, haccount]
  have hready : ∀ accountId appid, Db.readyStarts { db with
      runs := db.runs.set id (SyncRun.completeAt true
        (evaluatedCount db.achievementDemand id) completed) } accountId appid =
        db.readyStarts accountId appid := by
    intro accountId appid
    ext start
    constructor
    · rintro ⟨r', hr', rfl, d, hd, hid, hrest⟩
      obtain ⟨r, hr, hid', hstart'⟩ := hmem' r' hr'
      exact ⟨r, hr, hstart', d, hd, hid.trans hid'.symm, hrest⟩
    · rintro ⟨r, hr, rfl, d, hd, hid, hrest⟩
      obtain ⟨r', hr', horigin⟩ := hmem r hr
      obtain ⟨hid', hstart', _⟩ := hstart horigin
      exact ⟨r', hr', hstart', d, hd, hid.trans hid'.symm, hrest⟩
  constructor
  · constructor
    · intro c hc
      obtain ⟨r, hr, hid, hgreatest⟩ := h.newest c hc
      obtain ⟨r', hr', horigin⟩ := hmem r hr
      obtain ⟨hid', hstart', _⟩ := hstart horigin
      rw [hready]
      exact ⟨r', hr', hid'.trans hid, hstart' ▸ hgreatest⟩
    · intro accountId appid
      rw [hready]
      exact h.projected accountId appid
    · exact h.rows
  · intro r hr hcapability hstatus
    rcases Runs.mem_set.mp hr with ⟨hr, _⟩ | ⟨r, hr, rfl, rfl⟩
    · exact h.counted r hr hcapability hstatus
    · exact ⟨hended, rfl⟩
  · intro d hd
    obtain ⟨r, hr, hid, hof⟩ := h.owned d hd
    obtain ⟨r', hr', horigin⟩ := hmem r hr
    obtain ⟨hid', _, hof'⟩ := hstart horigin
    exact ⟨r', hr', hid'.trans hid, (hof' d.accountId).trans hof⟩
  · exact h.distinct
  · exact h.dated
  · exact h.fresh
  · exact h.bound

theorem AchievementInv.finishAchievementSync (h : AchievementInv db) {completedAt : Aware}
    (htogether : ((db.runs.get? id).bind SyncRun.accountId).all
      (fun accountId => prunesTogether db accountId completedAt) = true)
    (hok : Storage.finishAchievementSync id completedAt db = .ok db') : AchievementInv db' := by
  obtain ⟨completed, htext, hok⟩ := bind_eq_ok.mp hok
  cases hfind : (db.runs.get? id).filter fun r =>
      r.capability == "achievements.read" && r.status == .running with
  | none =>
    simp only [hfind] at hok
    exact absurd hok (by simp)
  | some run =>
    simp only [hfind] at hok
    obtain ⟨hrun, _⟩ := Option.filter_eq_some_iff.mp hfind
    cases haccount : run.accountId with
    | none =>
      simp only [haccount] at hok
      exact absurd hok (by simp)
    | some accountId =>
      simp only [haccount] at hok
      rw [hrun, Option.bind_some, haccount, Option.all_some] at htogether
      have hinv := h.answers (⟨fun d _ => ?_, fun d _ => ?_⟩ : Answers db id fun d =>
        if d.syncRunId == id && d.state == "running" then
          { d with state := "failed", evaluated := true, errorCode := some "SYNC_INTERRUPTED",
                   observedAt := some completed }
        else d) fun d _ hs => ?_
      · have hended := hinv.completeRun id completed ?_
        · refine hended.pruneBehavioral (fun cutoff hcutoff c hc hsubject hpast => ?_) hok
          obtain ⟨r, hr, hid, hpast'⟩ :=
            prunesTogether_text htogether htext cutoff hcutoff c hc hsubject hpast
          by_cases hrid : r.id = id
          · subst hrid
            exact ⟨_, Runs.mem_set_self hr, hid, hpast'⟩
          · exact ⟨r, (Runs.mem_set_of_ne hrid).mpr hr, hid, hpast'⟩
        · intro d hd hid
          obtain ⟨d₀, _, rfl⟩ := List.mem_map.mp hd
          by_cases hcond : (d₀.syncRunId == id && d₀.state == "running") = true
          · rw [if_pos hcond]
            simp
          · rw [if_neg hcond] at hid ⊢
            exact fun hs => hcond (by simp [hid, hs])
      · split <;> exact ⟨rfl, rfl, rfl⟩
      · split
        · rename_i hcond
          simp only [Bool.and_eq_true, beq_iff_eq] at hcond
          exact Or.inr ⟨hcond.1, hcond.2, by simp⟩
        · exact Or.inl rfl
      · split at hs
        · simp at hs
        · exact hs

/-! ## Recording -/

/-- The demand that a result answers. -/
theorem achievementTarget_eq_some {demand : SyncDemand} {startedAt : String}
    (h : achievementTarget db id accountId appid = some (demand, startedAt)) :
    demand ∈ db.achievementDemand ∧ demand.syncRunId = id ∧ demand.accountId = accountId ∧
      demand.appid = appid ∧ ∃ run ∈ db.runs.rows, run.id = id ∧ run.startedAt = startedAt := by
  unfold achievementTarget at h
  split at h
  · rename_i d run hfind hget
    obtain ⟨rfl, rfl⟩ := Prod.mk.inj (Option.some.inj h)
    obtain ⟨hrun, hid⟩ := Runs.get?_eq_some.mp hget
    have hkeys := List.find?_some hfind
    simp only [Bool.and_eq_true, beq_iff_eq] at hkeys
    exact ⟨List.mem_of_find?_eq_some hfind, hkeys.1.1.1, hkeys.1.1.2, hkeys.1.2, run, hrun, hid, rfl⟩
  · simp at h

/-- A result that replaces the projection of its app is of the newest run. -/
theorem AchievementInv.newest_of_promotes (h : AchievementInv db) {run : SyncRun}
    (hpromotes : promotesPlayer db accountId appid run.startedAt run.id = true) :
    ∀ start ∈ db.readyStarts accountId appid, start ≤ run.start := by
  intro start hstart
  obtain ⟨c, hc, hsubject, hkey⟩ := h.projected accountId appid ⟨start, hstart⟩
  unfold promotesPlayer at hpromotes
  cases hfind : db.playerProjection.find? fun c => c.accountId == accountId && c.appid == appid with
  | none =>
    have hnone := List.find?_eq_none.mp hfind c hc
    simp [hsubject, hkey] at hnone
  | some c' =>
    have hkeys := List.find?_some hfind
    simp only [Bool.and_eq_true, beq_iff_eq] at hkeys
    obtain ⟨r, hr, hid, hgreatest⟩ := h.newest c' (List.mem_of_find?_eq_some hfind)
    rw [hkeys.1, hkeys.2] at hgreatest
    rw [hfind, Option.bind_some, Runs.get?_eq_some.mpr ⟨hr, hid⟩] at hpromotes
    exact (hgreatest.2 hstart).trans (startedLater_iff.mp hpromotes).le

/-- A result that does not is of a run with a newer one. -/
theorem AchievementInv.newer_of_not_promotes (h : AchievementInv db) {run : SyncRun}
    (hpromotes : promotesPlayer db accountId appid run.startedAt run.id ≠ true) :
    ∃ start ∈ db.readyStarts accountId appid, run.start ≤ start := by
  unfold promotesPlayer at hpromotes
  cases hfind : db.playerProjection.find? fun c => c.accountId == accountId && c.appid == appid with
  | none =>
    rw [hfind] at hpromotes
    simp at hpromotes
  | some c' =>
    have hkeys := List.find?_some hfind
    simp only [Bool.and_eq_true, beq_iff_eq] at hkeys
    obtain ⟨r, hr, hid, hgreatest⟩ := h.newest c' (List.mem_of_find?_eq_some hfind)
    rw [hkeys.1, hkeys.2] at hgreatest
    rw [hfind, Option.bind_some, Runs.get?_eq_some.mpr ⟨hr, hid⟩] at hpromotes
    refine ⟨r.start, hgreatest.1, not_lt.mp fun hlt => hpromotes ?_⟩
    exact startedLater_iff.mpr hlt

/-- A result for demand that is running. -/
structure Recorded (db : Db) (q : AchievementResult) (run : SyncRun) (d : SyncDemand)
    (f : SyncDemand → SyncDemand) : Prop where
  ran : run ∈ db.runs.rows
  mem : d ∈ db.achievementDemand
  key : d.syncRunId = run.id ∧ d.accountId = q.accountId ∧ d.appid = q.appid
  running : d.state = "running"
  answers : Answers db run.id f
  ready : (f d).state = "ready"
  others : ∀ d' ∈ db.achievementDemand, d' ≠ d → f d' = d'

namespace Recorded

variable {q : AchievementResult} {run : SyncRun} {d : SyncDemand} {f : SyncDemand → SyncDemand}

/-- Demand that is running has no rows of the player. -/
theorem not_observed (hrec : Recorded db q run d f) (h : AchievementInv db) :
    ∀ o ∈ db.playerObservations, o.syncRunId = run.id → o.key ≠ q.appid := by
  intro o ho hid
  rw [← hrec.key.2.2]
  exact h.fresh d hrec.mem hrec.running o ho (hid.trans hrec.key.1.symm)

/-- The run had no ready result for the app. -/
theorem not_ready (hrec : Recorded db q run d f) (h : AchievementInv db) :
    run.start ∉ db.readyStarts q.accountId q.appid := by
  rintro ⟨r, hr, hstart, d', hd', hid, _, hkey, hs⟩
  have hrid : r.id = run.id := id_of_start hstart
  have heq := h.distinct d' hd' d hrec.mem (by rw [hid, hrid, hrec.key.1])
    (by rw [hkey, hrec.key.2.2])
  rw [heq, hrec.running] at hs
  exact absurd hs (by decide)

theorem mem_readyStarts (hrec : Recorded db q run d f) {start : String ×ₗ Nat} :
    start ∈ Db.readyStarts { db with achievementDemand := db.achievementDemand.map f }
        accountId appid ↔
      start ∈ db.readyStarts accountId appid ∨
        start = run.start ∧ accountId = q.accountId ∧ appid = q.appid := by
  constructor
  · rintro ⟨r, hr, rfl, d', hd', hid, hsubject, hkey, hs⟩
    obtain ⟨d₀, hd₀, rfl⟩ := List.mem_map.mp hd'
    obtain ⟨hid', hsubject', hkey'⟩ := hrec.answers.keys d₀ hd₀
    by_cases heq : d₀ = d
    · subst heq
      refine Or.inr ⟨?_, ?_, ?_⟩
      · rw [Runs.eq_of_id hr hrec.ran (by rw [← hid, hid', hrec.key.1])]
      · rw [← hsubject, hsubject', hrec.key.2.1]
      · rw [← hkey, hkey', hrec.key.2.2]
    · rw [hrec.others d₀ hd₀ heq] at hid hsubject hkey hs
      exact Or.inl ⟨r, hr, rfl, d₀, hd₀, hid, hsubject, hkey, hs⟩
  · rintro (⟨r, hr, rfl, d', hd', hrest⟩ | ⟨rfl, rfl, rfl⟩)
    · exact ⟨r, hr, rfl, d', List.mem_map.mpr ⟨d', hd', hrec.answers.ready hd' hrest.2.2.2⟩, hrest⟩
    · obtain ⟨hid, hsubject, hkey⟩ := hrec.answers.keys d hrec.mem
      exact ⟨run, hrec.ran, rfl, f d, List.mem_map_of_mem hrec.mem, hid.trans hrec.key.1,
        hsubject.trans hrec.key.2.1, hkey.trans hrec.key.2.2, hrec.ready⟩

/-- Demand that is running still has no rows of the player. -/
theorem fresh (hrec : Recorded db q run d f) (h : AchievementInv db) {text : String} :
    ∀ d' ∈ db.achievementDemand.map f, d'.state = "running" →
      ∀ o ∈ db.playerObservations ++ q.player.map (playerRow q run.id text),
        o.syncRunId = d'.syncRunId → o.key ≠ d'.appid := by
  intro d' hd' hs o ho hid hkey
  obtain ⟨d₀, hd₀, rfl⟩ := List.mem_map.mp hd'
  have hsame := hrec.answers.running hd₀ hs
  rw [hsame] at hs hid hkey
  rcases List.mem_append.mp ho with ho | ho
  · exact h.fresh d₀ hd₀ hs o ho hid hkey
  · obtain ⟨item, _, rfl⟩ := List.mem_map.mp ho
    have heq := h.distinct d₀ hd₀ d hrec.mem (hid.symm.trans hrec.key.1.symm)
      (hkey.symm.trans hrec.key.2.2.symm)
    have hready := hrec.ready
    rw [← heq, hsame, hs] at hready
    simp at hready

theorem bound (hrec : Recorded db q run d f) (h : AchievementInv db) {text : String} :
    ∀ o ∈ db.playerObservations ++ q.player.map (playerRow q run.id text),
      o.syncRunId ≤ db.runs.last := by
  intro o ho
  rcases List.mem_append.mp ho with ho | ho
  · exact h.bound o ho
  · obtain ⟨item, _, rfl⟩ := List.mem_map.mp ho
    exact db.runs.bound run hrec.ran

/-- A result that is promoted. -/
theorem promote (hrec : Recorded db q run d f) (h : AchievementInv db) {text : String}
    (hnewest : ∀ start ∈ db.readyStarts q.accountId q.appid, start ≤ run.start) :
    AchievementInv { db with
      playerObservations := db.playerObservations ++ q.player.map (playerRow q run.id text)
      playerCurrent := db.playerCurrent.filter
          (fun c => !(c.subject == q.accountId && c.key == q.appid)) ++
        (q.player.map (playerRow q run.id text)).map
          (Observation.promoted (φ := PlayerAchievement) fun facts => facts)
      playerProjection := db.playerProjection.filter
          (fun c => !(c.accountId == q.accountId && c.appid == q.appid)) ++
        [⟨q.accountId, q.appid, text, run.id⟩]
      achievementDemand := db.achievementDemand.map f } := by
  have hobserved := hrec.not_observed h
  constructor
  · constructor
    · intro c hc
      rcases List.mem_append.mp hc with hc | hc
      · obtain ⟨hc, hother⟩ := List.mem_filter.mp hc
        obtain ⟨r, hr, hid, hgreatest⟩ := h.newest c hc
        have hsame : ∀ start, start ∈ Db.readyStarts
            { db with achievementDemand := db.achievementDemand.map f } c.accountId c.appid ↔
              start ∈ db.readyStarts c.accountId c.appid := by
          intro start
          rw [hrec.mem_readyStarts]
          refine or_iff_left fun hnew => ?_
          simp [hnew.2.1, hnew.2.2] at hother
        exact ⟨r, hr, hid, (hsame _).mpr hgreatest.1, fun start hs =>
          hgreatest.2 ((hsame start).mp hs)⟩
      · obtain rfl := List.mem_singleton.mp hc
        refine ⟨run, hrec.ran, rfl, hrec.mem_readyStarts.mpr (Or.inr ⟨rfl, rfl, rfl⟩), ?_⟩
        intro start hs
        rcases hrec.mem_readyStarts.mp hs with hs | ⟨rfl, _, _⟩
        · exact hnewest start hs
        · exact le_refl _
    · rintro accountId appid ⟨start, hs⟩
      by_cases hkey : accountId = q.accountId ∧ appid = q.appid
      · exact ⟨_, List.mem_append_right _ (List.mem_singleton_self _), hkey.1.symm, hkey.2.symm⟩
      · rcases hrec.mem_readyStarts.mp hs with hs | ⟨_, hnew⟩
        · obtain ⟨c, hc, rfl, rfl⟩ := h.projected accountId appid ⟨start, hs⟩
          refine ⟨c, List.mem_append_left _ (List.mem_filter.mpr ⟨hc, ?_⟩), rfl, rfl⟩
          simpa using not_and_or.mp hkey
        · exact absurd hnew hkey
    · intro row
      rw [List.mem_append, List.mem_filter, h.rows row]
      constructor
      · rintro (⟨⟨c, hc, o, ho, hid, hsubject, hkey, rfl⟩, hother⟩ | hnew)
        · refine ⟨c, List.mem_append_left _ (List.mem_filter.mpr ⟨hc, ?_⟩), o,
            List.mem_append_left _ ho, hid, hsubject, hkey, rfl⟩
          simpa [Observation.promoted, hsubject, hkey] using hother
        · obtain ⟨o, ho, rfl⟩ := List.mem_map.mp hnew
          obtain ⟨item, hitem, rfl⟩ := List.mem_map.mp ho
          exact ⟨_, List.mem_append_right _ (List.mem_singleton_self _), _,
            List.mem_append_right _ ho, rfl, rfl, rfl, rfl⟩
      · rintro ⟨c, hc, o, ho, hid, hsubject, hkey, rfl⟩
        rcases List.mem_append.mp ho with ho | ho
        · rcases List.mem_append.mp hc with hc | hc
          · obtain ⟨hc, hother⟩ := List.mem_filter.mp hc
            refine Or.inl ⟨⟨c, hc, o, ho, hid, hsubject, hkey, rfl⟩, ?_⟩
            simpa [Observation.promoted, hsubject, hkey] using hother
          · obtain rfl := List.mem_singleton.mp hc
            exact absurd hkey (hobserved o ho hid)
        · exact Or.inr (List.mem_map_of_mem ho)
  · exact hrec.answers.counted h.counted
  · exact hrec.answers.owned h
  · exact hrec.answers.distinct h
  · intro c hc o ho hid hsubject hkey
    rcases List.mem_append.mp hc with hc | hc
    · obtain ⟨hc, hother⟩ := List.mem_filter.mp hc
      rcases List.mem_append.mp ho with ho | ho
      · exact h.dated c hc o ho hid hsubject hkey
      · obtain ⟨item, _, rfl⟩ := List.mem_map.mp ho
        simp [← hsubject, ← hkey, playerRow] at hother
    · obtain rfl := List.mem_singleton.mp hc
      rcases List.mem_append.mp ho with ho | ho
      · exact absurd hkey (hobserved o ho hid)
      · obtain ⟨item, _, rfl⟩ := List.mem_map.mp ho
        rfl
  · exact hrec.fresh h
  · exact hrec.bound h

/-- A result of a run that a newer one with a result has overtaken. -/
theorem overtaken (hrec : Recorded db q run d f) (h : AchievementInv db) {text : String}
    (hnewer : ∃ start ∈ db.readyStarts q.accountId q.appid, run.start ≤ start) :
    AchievementInv { db with
      playerObservations := db.playerObservations ++ q.player.map (playerRow q run.id text)
      achievementDemand := db.achievementDemand.map f } := by
  obtain ⟨newer, hready, hle⟩ := hnewer
  -- no projection names the run
  have hother : ∀ c ∈ db.playerProjection, ∀ o ∈ q.player.map (playerRow q run.id text),
      o.syncRunId = c.promotedSyncRunId → o.subject = c.accountId → o.key ≠ c.appid := by
    intro c hc o ho hid hsubject hkey
    obtain ⟨item, _, rfl⟩ := List.mem_map.mp ho
    obtain ⟨r, hr, hrid, hgreatest⟩ := h.newest c hc
    obtain rfl := Runs.eq_of_id hr hrec.ran (hrid.trans hid.symm)
    rw [← hsubject, ← hkey] at hgreatest
    exact hrec.not_ready h hgreatest.1
  constructor
  · constructor
    · intro c hc
      obtain ⟨r, hr, hid, hgreatest⟩ := h.newest c hc
      refine ⟨r, hr, hid, hrec.mem_readyStarts.mpr (Or.inl hgreatest.1), fun start hs => ?_⟩
      rcases hrec.mem_readyStarts.mp hs with hs | ⟨rfl, hsubject, hkey⟩
      · exact hgreatest.2 hs
      · rw [hsubject, hkey] at hgreatest
        exact hle.trans (hgreatest.2 hready)
    · rintro accountId appid ⟨start, hs⟩
      rcases hrec.mem_readyStarts.mp hs with hs | ⟨_, rfl, rfl⟩
      · exact h.projected accountId appid ⟨start, hs⟩
      · exact h.projected q.accountId q.appid ⟨newer, hready⟩
    · intro row
      rw [h.rows row]
      constructor
      · rintro ⟨c, hc, o, ho, hrest⟩
        exact ⟨c, hc, o, List.mem_append_left _ ho, hrest⟩
      · rintro ⟨c, hc, o, ho, hid, hsubject, hkey, hrow⟩
        rcases List.mem_append.mp ho with ho | ho
        · exact ⟨c, hc, o, ho, hid, hsubject, hkey, hrow⟩
        · exact absurd hkey (hother c hc o ho hid hsubject)
  · exact hrec.answers.counted h.counted
  · exact hrec.answers.owned h
  · exact hrec.answers.distinct h
  · intro c hc o ho hid hsubject hkey
    rcases List.mem_append.mp ho with ho | ho
    · exact h.dated c hc o ho hid hsubject hkey
    · exact absurd hkey (hother c hc o ho hid hsubject)
  · exact hrec.fresh h
  · exact hrec.bound h

end Recorded

/-- The tables of the player, as `recordSchema` leaves them. -/
theorem recordSchema_tables (q : AchievementResult) (text : String) (db : Db) :
    (recordSchema q text db).runs = db.runs ∧
    (recordSchema q text db).achievementDemand = db.achievementDemand ∧
    (recordSchema q text db).playerObservations = db.playerObservations ∧
    (recordSchema q text db).playerCurrent = db.playerCurrent ∧
    (recordSchema q text db).playerProjection = db.playerProjection := by
  unfold recordSchema
  split <;> exact ⟨rfl, rfl, rfl, rfl, rfl⟩

/-- The demand that a result leaves. -/
def answered (id : Nat) (q : AchievementResult) (text : String) (d : SyncDemand) : SyncDemand :=
  if d.syncRunId == id && d.appid == q.appid then
    { d with evaluated := true, state := q.state, errorCode := q.errorCode,
             observedAt := some text }
  else d

theorem answers_answered (h : AchievementInv db) {q : AchievementResult} (text : String)
    {demand : SyncDemand} (hmem : demand ∈ db.achievementDemand) (hid : demand.syncRunId = id)
    (hkey : demand.appid = q.appid) (hrunning : demand.state = "running")
    (hstate : q.state ≠ "running") : Answers db id (answered id q text) where
  keys d _ := by
    unfold answered
    split <;> exact ⟨rfl, rfl, rfl⟩
  ends d hd := by
    unfold answered
    split
    · rename_i hcond
      simp only [Bool.and_eq_true, beq_iff_eq] at hcond
      have heq := h.distinct d hd demand hmem (hcond.1.trans hid.symm) (hcond.2.trans hkey.symm)
      exact Or.inr ⟨hcond.1, heq ▸ hrunning, hstate⟩
    · exact Or.inl rfl

theorem AchievementInv.recordAchievementResult (h : AchievementInv db) {q : AchievementResult}
    (hok : Storage.recordAchievementResult id q db = .ok db') : AchievementInv db' := by
  obtain ⟨_, hvalid, hok⟩ := bind_eq_ok.mp hok
  obtain ⟨text, _, hok⟩ := bind_eq_ok.mp hok
  obtain ⟨_, _, hok⟩ := bind_eq_ok.mp hok
  have hstate : q.state ≠ "running" := by
    intro hs
    rw [hs] at hvalid
    exact absurd (require_eq_ok.mp hvalid) (by decide)
  cases htarget : achievementTarget db id q.accountId q.appid with
  | none =>
    simp only [htarget] at hok
    exact absurd hok (by simp)
  | some target =>
    obtain ⟨demand, startedAt⟩ := target
    obtain ⟨hmem, hid, hsubject, hkey, run, hrun, rfl, rfl⟩ := achievementTarget_eq_some htarget
    simp only [htarget] at hok
    obtain ⟨_, hrunning, hok⟩ := bind_eq_ok.mp hok
    have hrunning := require_eq_ok.mp hrunning
    obtain ⟨_, _, hok⟩ := bind_eq_ok.mp hok
    obtain ⟨_, _, hok⟩ := bind_eq_ok.mp hok
    obtain rfl := Except.ok.inj hok
    have hanswers := answers_answered h text hmem hid hkey hrunning hstate
    have hplayer : AchievementInv { (if q.state = "ready" then
        recordPlayer q run.id text run.startedAt db else db) with
          achievementDemand := db.achievementDemand.map (answered run.id q text) } := by
      split
      · rename_i hs
        have hrec : Recorded db q run demand (answered run.id q text) := {
          ran := hrun
          mem := hmem
          key := ⟨hid, hsubject, hkey⟩
          running := hrunning
          answers := hanswers
          ready := by simp [answered, hid, hkey, hs]
          others := by
            intro d hd hne
            rcases hanswers.ends d hd with hsame | ⟨hdid, _, _⟩
            · exact hsame
            · by_cases hdkey : d.appid = q.appid
              · exact absurd (h.distinct d hd demand hmem (hdid.trans hid.symm)
                  (hdkey.trans hkey.symm)) hne
              · simp [answered, hdkey] }
        unfold recordPlayer
        split
        · rename_i hpromotes
          exact hrec.promote h (h.newest_of_promotes hpromotes)
        · rename_i hpromotes
          exact hrec.overtaken h (h.newer_of_not_promotes hpromotes)
      · rename_i hs
        refine h.answers hanswers fun d _ hready => ?_
        unfold answered at hready
        split at hready
        · exact absurd hready hs
        · exact hready
    have hdemand : (if q.state = "ready" then recordPlayer q run.id text run.startedAt db
        else db).achievementDemand = db.achievementDemand := by
      unfold recordPlayer
      split
      · split <;> rfl
      · rfl
    generalize (if q.state = "ready" then recordPlayer q run.id text run.startedAt db else db) = db₁
      at hplayer hdemand ⊢
    obtain ⟨hruns', hdemand', hobservations', hcurrent', hprojection'⟩ := recordSchema_tables q text db₁
    split
    · refine hplayer.congr hruns' ?_ hobservations' hcurrent' hprojection'
      show (recordSchema q text db₁).achievementDemand.map (answered run.id q text) = _
      rw [hdemand', hdemand]
    · refine hplayer.congr rfl ?_ rfl rfl rfl
      show db₁.achievementDemand.map (answered run.id q text) = _
      rw [hdemand]

/-! ## The reader -/

theorem AchievementInv.pruneAt (h : AchievementInv db) {now : Option Aware}
    (htogether : now.all (prunesTogether db accountId) = true)
    (hok : Storage.pruneAt accountId now db = .ok db') : AchievementInv db' := by
  cases now with
  | none =>
    obtain rfl := Except.ok.inj hok
    exact h
  | some now =>
    obtain ⟨text, htext, hok⟩ := bind_eq_ok.mp hok
    exact h.pruneBehavioral (prunesTogether_text htogether htext) hok

/-- The run of a ready demand that is selected is the one that the projection
names. -/
theorem AchievementInv.paired (h : AchievementInv db) {d : SyncDemand}
    (hd : d ∈ selectedDemand db accountId none) (hs : d.state = "ready") :
    (achievementItem db accountId d).projectionSyncRunId = some d.syncRunId := by
  unfold selectedDemand at hd
  simp only [List.mem_insertionSort, List.mem_filter, Bool.and_eq_true, beq_iff_eq,
    Option.any_eq_true] at hd
  obtain ⟨hd, ⟨hsubject, _⟩, r, hlatest, hid⟩ := hd
  obtain ⟨hr, _⟩ := List.mem_filter.mp (mem_of_limitOne hlatest)
  have hready : r.start ∈ db.readyStarts accountId d.appid :=
    ⟨r, hr, rfl, d, hd, hid.symm, hsubject, rfl, hs⟩
  obtain ⟨c, hc, hcsubject, hckey⟩ := h.projected accountId d.appid ⟨_, hready⟩
  cases hfind : db.playerProjection.find? fun c => c.accountId == accountId && c.appid == d.appid with
  | none =>
    have hnone := List.find?_eq_none.mp hfind c hc
    simp [hcsubject, hckey] at hnone
  | some c' =>
    have hkeys := List.find?_some hfind
    simp only [Bool.and_eq_true, beq_iff_eq] at hkeys
    obtain ⟨r', hr', hid', hgreatest⟩ := h.newest c' (List.mem_of_find?_eq_some hfind)
    rw [hkeys.1, hkeys.2] at hgreatest
    have hmem' : r' ∈ db.runs.rows.filter fun r => db.achievementDemand.any fun d' =>
        d'.syncRunId == r.id && d'.accountId == accountId && d'.appid == d.appid := by
      obtain ⟨r'', _, hstart, d', hd', hdid, hdsubject, hdkey, _⟩ := hgreatest.1
      refine List.mem_filter.mpr ⟨hr', List.any_eq_true.mpr ⟨d', hd', ?_⟩⟩
      simp [hdid, id_of_start hstart, hdsubject, hdkey]
    have hle := byStart_eq_false.mp (before_of_limitOne hlatest hmem')
    have heq : r'.id = r.id := id_of_start (le_antisymm hle (hgreatest.2 hready))
    show (db.playerProjection.find? _).map PlayerProjection.promotedSyncRunId = _
    rw [hfind, Option.map_some, ← hid', heq, hid]

theorem selectedDemand_subset {d : SyncDemand} {appid : Option Int}
    (hd : d ∈ selectedDemand db accountId appid) : d ∈ selectedDemand db accountId none := by
  unfold selectedDemand at hd ⊢
  simp only [List.mem_insertionSort, List.mem_filter, Bool.and_eq_true, Option.all_none,
    and_true] at hd ⊢
  exact ⟨hd.1, hd.2.1.1, hd.2.2⟩

theorem AchievementInv.readAchievementSnapshot (h : AchievementInv db) {app : Option Int}
    {now : Option Aware} {snapshot : AchievementSnapshot}
    (htogether : now.all (prunesTogether db accountId) = true)
    (hok : Storage.readAchievementSnapshot accountId app now db = .ok (snapshot, db')) :
    snapshot.Paired ∧ AchievementInv db' := by
  obtain ⟨db₁, h₁, hok⟩ := bind_eq_ok.mp hok
  have hinv := h.pruneAt htogether h₁
  split at hok
  · obtain ⟨rfl, rfl⟩ := Prod.mk.inj (Except.ok.inj hok)
    exact ⟨fun item hitem => absurd hitem List.not_mem_nil, hinv⟩
  · obtain ⟨rfl, rfl⟩ := Prod.mk.inj (Except.ok.inj hok)
    refine ⟨fun item hitem hs => ?_, hinv⟩
    obtain ⟨d, hd, rfl⟩ := List.mem_map.mp hitem
    exact hinv.paired (selectedDemand_subset hd) hs

/-! ## The results -/

/-- Whether the retention of a transaction takes projections only with their
runs. -/
def prunesOnlyTogether (db : Db) : SummaryTxn → Bool
  | .begin accountId _ _ startedAt _ => prunesTogether db accountId startedAt
  | .finish id completedAt => ((db.runs.get? id).bind SyncRun.accountId).all fun accountId =>
    prunesTogether db accountId completedAt
  | .read accountId _ now => now.all (prunesTogether db accountId)
  | _ => true

theorem achievementInv_run {t : SummaryTxn} {reply : t.Reply} (h : AchievementInv db)
    (htogether : prunesOnlyTogether db t = true) (hok : t.run db = .ok (reply, db')) :
    AchievementInv db' := by
  cases t with
  | begin => exact h.beginAchievementSync htogether hok
  | record =>
    obtain ⟨db₁, h₁, hok⟩ := bind_eq_ok.mp hok
    obtain ⟨_, rfl⟩ := Prod.mk.inj (Except.ok.inj hok)
    exact h.recordAchievementResult h₁
  | mark =>
    obtain ⟨db₁, h₁, hok⟩ := bind_eq_ok.mp hok
    obtain ⟨_, rfl⟩ := Prod.mk.inj (Except.ok.inj hok)
    exact h.markRemainingAchievementsUnevaluated h₁
  | finish =>
    obtain ⟨db₁, h₁, hok⟩ := bind_eq_ok.mp hok
    obtain ⟨_, rfl⟩ := Prod.mk.inj (Except.ok.inj hok)
    exact h.finishAchievementSync htogether h₁
  | getSyncRun =>
    obtain ⟨_, _, hok⟩ := bind_eq_ok.mp hok
    obtain ⟨_, rfl⟩ := Prod.mk.inj (Except.ok.inj hok)
    exact h
  | read => exact (h.readAchievementSnapshot htogether hok).2

end Invariant

/-- A system of achievement methods. -/
abbrev AchievementSystem := System summaryTransactions.sig Stored Exn AchievementReply

/-- No process on a database without runs. -/
def blankAchievements (accounts : List Account) (consents : List AccountDataConsent)
    (clock : Instant) : AchievementSystem :=
  ⟨⟨Db.empty accounts [] consents [], clock⟩, []⟩

/-- While retention takes projections only with their runs, the rows of an app are
those of the newest run with a ready result, a selected demand that is ready
belongs to that run, and finished runs count what they evaluated. -/
theorem achievement_rows_one_run {accounts : List Account} {consents : List AccountDataConsent}
    {clock : Instant} {s : AchievementSystem}
    (h : System.Reach (summaryTransactions.dynamics AchievementMethod)
      (blankAchievements accounts consents clock) s)
    (htogether : ∀ m ∈ s.allMoves,
      Transactions.meets (T := summaryTransactions) prunesOnlyTogether m = true) :
    Unmixed s.world.db ∧ s.world.db.AchievementsCounted ∧
    ∀ accountId appid now snapshot db', now.all (prunesTogether s.world.db accountId) = true →
      readAchievementSnapshot accountId appid now s.world.db = .ok (snapshot, db') →
        snapshot.Paired := by
  have hinv : AchievementInv s.world.db :=
    Transactions.reach_inv AchievementInv
      (fun t db reply db' hinv hm hok => achievementInv_run hinv hm hok) h
      (achievementInv_empty ..) htogether
  exact ⟨hinv.toUnmixed, hinv.counted, fun accountId appid now snapshot db' hnow hok =>
    (hinv.readAchievementSnapshot hnow hok).1⟩

/-! ## Two runs -/

/-- One account that agreed to keep activity. -/
def trophies : AchievementSystem :=
  blankAchievements [⟨1, "steam"⟩] [⟨1, "activity_persistence", "1", true⟩] (sinceNoon 0)

/-- One achievement of a game. -/
def oneTrophy : AchievementResult where
  accountId := 1
  appid := 620
  state := "ready"
  player := [⟨"A", true, none⟩]
  schemaState := "ready"
  schema := []
  observedAt := Aware.ofInstant (sinceNoon 0)
  errorCode := none
  writeSchema := false
  disclosureVersion := "1"

/-- A process that starts and runs for `n` moves, `us` after noon. -/
def proceed (p : AchievementProg) (i n us : Nat) (s : AchievementSystem) : AchievementSystem :=
  (s.start p).moves (Transactions.answers (sinceNoon us)) i n

theorem reach_proceed {s : AchievementSystem} {p : AchievementProg} (hp : AchievementMethod p)
    (h : System.Reach (summaryTransactions.dynamics AchievementMethod) trophies s)
    (i n us : Nat) : System.Reach (summaryTransactions.dynamics AchievementMethod) trophies
      (proceed p i n us s) :=
  (h.start hp).moves (fun w c => Transactions.perform_answers _ i w c) n

/-- A sync of one app that starts at noon and ends a second later. -/
def trophySync : AchievementSystem :=
  proceed (finishAchievements 1) 2 3 1000000 (proceed (recordAchievements 1 oneTrophy) 1 2 500000
    (proceed (beginAchievements 1 [620] [620] "1") 0 3 0 trophies))

theorem reach_trophySync :
    System.Reach (summaryTransactions.dynamics AchievementMethod) trophies trophySync := by
  have hbegun := reach_proceed (.begin 1 [620] [620] "1") .refl 0 3 0
  have hrecorded := reach_proceed (.record 1 oneTrophy) hbegun 1 2 500000
  exact reach_proceed (.finish 1) hrecorded 2 3 1000000

/-- A reader, a week later. -/
def agedSync : AchievementSystem :=
  proceed (readAchievements 1 none true) 3 2 604800700000 trophySync

/-- A run that started on a whole second outlives its own rows. -/
theorem achievement_rows_one_run_whole_second :
    ∃ s, System.Reach (summaryTransactions.dynamics AchievementMethod) trophies s ∧
      ¬Unmixed s.world.db ∧
      ∃ snapshot db', readAchievementSnapshot 1 none none s.world.db = .ok (snapshot, db') ∧
        ¬snapshot.Paired := by
  refine ⟨agedSync, reach_proceed (.read 1 none true) reach_trophySync 3 2 604800700000,
    fun h => ?_, ?_⟩
  · have hgone : agedSync.world.db.playerProjection.isEmpty = true := by decide +kernel
    have hkept : (agedSync.world.db.runs.rows.any fun r => agedSync.world.db.achievementDemand.any
        fun d => d.syncRunId == r.id && d.accountId == 1 && d.appid == 620 && d.state == "ready")
          = true := by decide +kernel
    obtain ⟨r, hr, hkept⟩ := List.any_eq_true.mp hkept
    obtain ⟨d, hd, hkeys⟩ := List.any_eq_true.mp hkept
    simp only [Bool.and_eq_true, beq_iff_eq] at hkeys
    obtain ⟨c, hc, _⟩ := h.projected 1 620
      ⟨r.start, r, hr, rfl, d, hd, hkeys.1.1.1, hkeys.1.1.2, hkeys.1.2, hkeys.2⟩
    rw [List.isEmpty_iff.mp hgone] at hc
    exact absurd hc List.not_mem_nil
  · have hread : (readAchievementSnapshot 1 none none agedSync.world.db).toOption.any (fun r =>
        r.1.items.any fun item =>
          item.demand.state == "ready" && item.projectionSyncRunId.isNone) = true := by
      decide +kernel
    cases hok : readAchievementSnapshot 1 none none agedSync.world.db with
    | error x => simp [hok, Except.toOption] at hread
    | ok r =>
      rw [hok] at hread
      obtain ⟨item, hitem, hbad⟩ := List.any_eq_true.mp hread
      simp only [Bool.and_eq_true, beq_iff_eq, Option.isNone_iff_eq_none] at hbad
      refine ⟨r.1, r.2, rfl, fun hpaired => ?_⟩
      have hnamed := hpaired item hitem hbad.1
      rw [hbad.2] at hnamed
      simp at hnamed

theorem achievement_rows_one_run_trophy :
    trophySync.world.db.playerProjection.map PlayerProjection.promotedSyncRunId = [1] ∧
      Unmixed trophySync.world.db :=
  ⟨by decide +kernel, (achievement_rows_one_run reach_trophySync (by decide +kernel)).1⟩

end SteamAgent.Storage
