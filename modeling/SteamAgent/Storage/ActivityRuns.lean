import SteamAgent.Storage.Activity
import SteamAgent.Storage.Transactions

/-!
# The run that the current activity came from

The activity methods as processes on one database, and which run the readers
name for the rows of an account.

There are four groups.

* The transactions and the methods.
* `Keeps`: what pruning, beginning and failing do to the runs and the rows.
* `Coherent`, the invariant: the run of the current rows is the latest for both
  readers.  `inOrder` is the condition under which a completion keeps it.
* The results, and two runs.
-/

namespace SteamAgent.Storage

open Datetime (Instant Aware)
open Effects (Prog Move System)

/-! ## Processes -/

/-- The transactions of the activity methods. -/
inductive ActivityTxn where
  | begin (accountId : Nat) (disclosureVersion : String) (startedAt : Aware)
  | complete (id accountId : Nat) (games : List ActivityGame)
      (observedAt recentObservedAt completedAt : Aware) (disclosureVersion : String)
  | fail (id : Nat) (errorCode : String) (completedAt : Aware)
  | prune (accountId : Nat) (now : Aware)
  | getSyncRun (id : Nat)
  | read (accountId : Nat) (now : Option Aware)
  | recommend (accountId : Nat) (now : Aware)

namespace ActivityTxn

def Reply : ActivityTxn → Type
  | begin .. => Nat
  | complete .. => Unit
  | fail .. => Unit
  | prune .. => Unit
  | getSyncRun _ => SyncRun
  | read .. => ActivitySnapshot
  | recommend .. => ActivitySnapshot

def run : (t : ActivityTxn) → Db → Except Exn (t.Reply × Db)
  | begin accountId disclosureVersion startedAt, db =>
    beginActivitySync accountId disclosureVersion startedAt db
  | complete id accountId games observedAt recentObservedAt completedAt disclosureVersion, db => do
    let db ← completeActivitySnapshot id accountId games observedAt recentObservedAt completedAt
      disclosureVersion db
    return ((), db)
  | fail id errorCode completedAt, db => do
    let db ← finishSimpleSync id "activity.read" errorCode completedAt db
    return ((), db)
  | prune accountId now, db => do
    let timestamp ← timestamp now
    let db ← pruneBehavioral accountId timestamp db
    return ((), db)
  | getSyncRun id, db => do
    let run ← Storage.getSyncRun db.runs id
    return (run, db)
  | read accountId now, db => readActivitySnapshot accountId now db
  | recommend accountId now, db => readRecommendationActivity accountId now db

end ActivityTxn

/-- The transactions of the activity methods, as a family. -/
def activityTransactions : Transactions :=
  ⟨ActivityTxn, ActivityTxn.Reply, ActivityTxn.run⟩

/-- What a method returns. -/
inductive ActivityResult where
  | run (run : SyncRun)
  | snapshot (snapshot : ActivitySnapshot)

/-- A method, in a process of its own. -/
abbrev ActivityProg := Prog activityTransactions.sig Exn ActivityResult

/-- The run that a method returns after its commit. -/
def returnRun (id : Nat) : ActivityProg := do
  let run ← activityTransactions.transact (.getSyncRun id)
  return .run run

/-- `begin_activity_sync`, started at what the clock reads. -/
def beginActivity (accountId : Nat) (disclosureVersion : String) : ActivityProg := do
  let startedAt ← activityTransactions.now
  let id ← activityTransactions.transact
    (.begin accountId disclosureVersion startedAt)
  returnRun id

/-- `complete_activity_snapshot`, on readings of the clock. -/
def completeActivity (id accountId : Nat) (games : List ActivityGame)
    (disclosureVersion : String) : ActivityProg := do
  let observedAt ← activityTransactions.now
  let recentObservedAt ← activityTransactions.now
  let completedAt ← activityTransactions.now
  let _ ← activityTransactions.transact
    (.complete id accountId games observedAt recentObservedAt completedAt disclosureVersion)
  returnRun id

/-- `finish_activity_sync_failed`. -/
def failActivity (id : Nat) (errorCode : String) : ActivityProg := do
  let completedAt ← activityTransactions.now
  let _ ← activityTransactions.transact (.fail id errorCode completedAt)
  let run ← activityTransactions.transact (.getSyncRun id)
  match run.accountId with
  | some accountId =>
    let _ ← activityTransactions.transact (.prune accountId completedAt)
    return .run run
  | none => .raise (.storageError "AssertionError")

/-- `read_activity_snapshot`, with or without the time. -/
def readActivity (accountId : Nat) (timed : Bool) : ActivityProg := do
  let now ← activityTransactions.now
  let snapshot ← activityTransactions.transact
    (.read accountId (if timed then some now else none))
  return .snapshot snapshot

/-- `read_recommendation_snapshot`. -/
def readRecommendation (accountId : Nat) : ActivityProg := do
  let now ← activityTransactions.now
  let snapshot ← activityTransactions.transact (.recommend accountId now)
  return .snapshot snapshot

/-- The activity methods. -/
inductive ActivityMethod : ActivityProg → Prop
  | begin (accountId : Nat) (disclosureVersion : String) :
    ActivityMethod (beginActivity accountId disclosureVersion)
  | complete (id accountId : Nat) (games : List ActivityGame) (disclosureVersion : String) :
    ActivityMethod (completeActivity id accountId games disclosureVersion)
  | fail (id : Nat) (errorCode : String) : ActivityMethod (failActivity id errorCode)
  | read (accountId : Nat) (timed : Bool) : ActivityMethod (readActivity accountId timed)
  | recommend (accountId : Nat) : ActivityMethod (readRecommendation accountId)

/-! ## Runs and rows that stay -/

/-- The complete activity runs and the current rows after a step were there
before it, and a row keeps its run. -/
structure Keeps (db db' : Db) : Prop where
  runs : db.runs.Extends db'.runs
  completed : ∀ r ∈ db'.runs.rows, r.status = .complete → r ∈ db.runs.rows
  observed : ∀ o ∈ db'.activityObservations, o ∈ db.activityObservations
  current : ∀ c ∈ db'.activityCurrent, c ∈ db.activityCurrent ∧
    ∀ r ∈ db.runs.rows, r.id = c.promotedSyncRunId → r.status = .complete → r ∈ db'.runs.rows

namespace Keeps

variable {db db' db'' : Db}

theorem refl (db : Db) : Keeps db db where
  runs := .refl _
  completed _ hr _ := hr
  observed _ ho := ho
  current _ hc := ⟨hc, fun _ hr _ _ => hr⟩

theorem trans (h : Keeps db db') (h' : Keeps db' db'') : Keeps db db'' where
  runs := h.runs.trans h'.runs
  completed r hr hs := h.completed r (h'.completed r hr hs) hs
  observed o ho := h.observed o (h'.observed o ho)
  current c hc := by
    obtain ⟨hc', hrun'⟩ := h'.current c hc
    obtain ⟨hc'', hrun⟩ := h.current c hc'
    exact ⟨hc'', fun r hr hid hs => hrun' r (hrun r hr hid hs) hid hs⟩

/-- Deleting runs takes their rows with them. -/
theorem deleteRuns (db : Db) (p : SyncRun → Bool) : Keeps db (db.deleteRuns p) where
  runs := .delete _ _
  completed r hr _ := (Runs.mem_delete.mp hr).1
  observed o ho := List.mem_of_mem_filter ho
  current c hc := by
    obtain ⟨hc, hdrop⟩ := List.mem_filter.mp hc
    refine ⟨hc, fun r hr hid _ => Runs.mem_delete.mpr ⟨hr, ?_⟩⟩
    exact Db.drops_eq_false.mp (by simpa using hdrop) r hr hid

/-- A step that leaves the runs alone and only drops rows. -/
theorem of_sublist (hruns : db'.runs = db.runs)
    (hobs : ∀ o ∈ db'.activityObservations, o ∈ db.activityObservations)
    (hcur : ∀ c ∈ db'.activityCurrent, c ∈ db.activityCurrent) : Keeps db db' where
  runs := hruns ▸ .refl _
  completed _ hr _ := hruns ▸ hr
  observed := hobs
  current c hc := ⟨hcur c hc, fun _ hr _ _ => hruns ▸ hr⟩

end Keeps

section Steps

variable {db db' : Db} {accountId : Nat} {now : String}

theorem keeps_pruneActivity (h : pruneActivity accountId now db = .ok db') : Keeps db db' := by
  obtain ⟨cutoff, _, h⟩ := bind_eq_ok.mp h
  obtain rfl := Except.ok.inj h
  refine (Keeps.deleteRuns db _).trans (Keeps.of_sublist rfl (fun o ho => ho) fun c hc => ?_)
  exact List.mem_of_mem_filter hc

theorem keeps_pruneAchievements (h : pruneAchievements accountId now db = .ok db') :
    Keeps db db' := by
  obtain ⟨cutoff, _, h⟩ := bind_eq_ok.mp h
  obtain ⟨schemaCutoff, _, h⟩ := bind_eq_ok.mp h
  obtain rfl := Except.ok.inj h
  exact (Keeps.deleteRuns db _).trans (Keeps.of_sublist rfl (fun o ho => ho) fun c hc => hc)

theorem keeps_pruneBehavioral (h : pruneBehavioral accountId now db = .ok db') : Keeps db db' := by
  obtain ⟨db₁, h₁, h⟩ := bind_eq_ok.mp h
  exact (keeps_pruneActivity h₁).trans (keeps_pruneAchievements h)

theorem keeps_insert (db : Db) {run : SyncRun} (h : run.status = .running) :
    Keeps db { db with runs := db.runs.insert run } where
  runs := .insert _ _
  completed r hr hs := by
    rcases Runs.mem_insert.mp hr with hr | rfl
    · exact hr
    · rw [h] at hs
      simp at hs
  observed o ho := ho
  current c hc := ⟨hc, fun r hr _ _ => Runs.mem_insert.mpr (Or.inl hr)⟩

theorem keeps_beginActivitySync {disclosureVersion : String} {startedAt : Aware} {id : Nat}
    (h : beginActivitySync accountId disclosureVersion startedAt db = .ok (id, db')) :
    Keeps db db' := by
  obtain ⟨timestamp, _, h⟩ := bind_eq_ok.mp h
  obtain ⟨_, _, h⟩ := bind_eq_ok.mp h
  obtain ⟨db₁, h₁, h⟩ := bind_eq_ok.mp h
  obtain ⟨_, rfl⟩ := Prod.mk.inj (Except.ok.inj h)
  exact (keeps_pruneBehavioral h₁).trans (keeps_insert db₁ rfl)

theorem keeps_finishSimpleSync {id : Nat} {capability errorCode : String} {completedAt : Aware}
    (h : finishSimpleSync id capability errorCode completedAt db = .ok db') : Keeps db db' := by
  obtain ⟨timestamp, _, h⟩ := bind_eq_ok.mp h
  obtain ⟨_, _, h⟩ := bind_eq_ok.mp h
  obtain rfl := Except.ok.inj h
  refine ⟨.update _ _ fun r => rfl, fun r hr hs => ?_, fun o ho => ho,
    fun c hc => ⟨hc, fun r hr _ hs => ?_⟩⟩
  · obtain ⟨r', hr', rfl⟩ := Runs.mem_update.mp hr
    split at hs
    · simp at hs
    · rename_i hp
      rw [if_neg hp]
      exact hr'
  · exact Runs.mem_update.mpr ⟨r, hr, if_neg (by simp [hs])⟩

theorem keeps_readActivitySnapshot {at? : Option Aware} {snapshot : ActivitySnapshot}
    (h : readActivitySnapshot accountId at? db = .ok (snapshot, db')) : Keeps db db' := by
  obtain ⟨db₁, h₁, h⟩ := bind_eq_ok.mp h
  obtain ⟨_, rfl⟩ := Prod.mk.inj (Except.ok.inj h)
  cases at? with
  | none =>
    obtain rfl := Except.ok.inj h₁
    exact Keeps.refl db
  | some now =>
    obtain ⟨_, _, h₁⟩ := bind_eq_ok.mp h₁
    exact keeps_pruneBehavioral h₁

theorem keeps_readRecommendationActivity {now : Aware} {snapshot : ActivitySnapshot}
    (h : readRecommendationActivity accountId now db = .ok (snapshot, db')) : Keeps db db' := by
  obtain ⟨_, _, h⟩ := bind_eq_ok.mp h
  obtain ⟨_, _, h⟩ := bind_eq_ok.mp h
  obtain ⟨db₁, h₁, h⟩ := bind_eq_ok.mp h
  obtain ⟨db₂, h₂, h⟩ := bind_eq_ok.mp h
  obtain ⟨_, rfl⟩ := Prod.mk.inj (Except.ok.inj h)
  exact (keeps_pruneActivity h₁).trans (keeps_pruneAchievements h₂)

end Steps

/-! ## The latest run -/

/-- The complete activity runs of an account. -/
def completedRuns (runs : Runs) (accountId : Nat) : List SyncRun :=
  runs.rows.filter fun r => r.ofAccount "activity.read" accountId && r.status == .complete

/-- The completion of `run` at the text `completed` comes in order: it is
promoted exactly if no complete run has a larger id, and then no promoted run
was completed at a later text. -/
def inOrder (runs : Runs) (accountId : Nat) (run : SyncRun) (completed : String) : Bool :=
  if newerSuccess runs accountId run then
    (completedRuns runs accountId).any fun r => run.id < r.id
  else
    (completedRuns runs accountId).all fun r =>
      r.id < run.id && (!r.promoted || r.completedAt.all fun text => text ≤ completed)

/-- The run that both readers take for the latest one. -/
structure LatestRun (runs : Runs) (accountId : Nat) (run : SyncRun) : Prop where
  mem : run ∈ completedRuns runs accountId
  promoted : run.promoted = true
  largest : ∀ r ∈ completedRuns runs accountId, r.id ≤ run.id
  latest : ∀ r ∈ completedRuns runs accountId, r.promoted = true → byCompletion r run = false

/-- The current rows of an account come from its latest run. -/
structure Coherent (db : Db) : Prop where
  latest : ∀ c ∈ db.activityCurrent, ∃ run, run.id = c.promotedSyncRunId ∧
    LatestRun db.runs c.subject run
  observed : ∀ o ∈ db.activityObservations, o.syncRunId ≤ db.runs.last ∧
    ∀ r ∈ db.runs.rows, r.id = o.syncRunId → r.accountId = some o.subject

section Coherent

variable {db db' : Db} {runs : Runs} {accountId : Nat} {run r : SyncRun}

theorem mem_completedRuns : r ∈ completedRuns runs accountId ↔
    r ∈ runs.rows ∧ r.ofAccount "activity.read" accountId = true ∧ r.status = .complete := by
  simp [completedRuns]

theorem accountId_of_ofAccount {capability : String} (h : r.ofAccount capability accountId = true) :
    r.accountId = some accountId := by
  simp only [SyncRun.ofAccount, Bool.and_eq_true, beq_iff_eq] at h
  exact h.2

theorem Coherent.keeps (h : Coherent db) (hk : Keeps db db') : Coherent db' where
  latest c hc := by
    obtain ⟨hc, hrun⟩ := hk.current c hc
    obtain ⟨run, hid, hlatest⟩ := h.latest c hc
    have hold : ∀ r ∈ completedRuns db'.runs c.subject, r ∈ completedRuns db.runs c.subject := by
      intro r hr
      obtain ⟨hr, hof, hs⟩ := mem_completedRuns.mp hr
      exact mem_completedRuns.mpr ⟨hk.completed r hr hs, hof, hs⟩
    obtain ⟨hmem, hof, hs⟩ := mem_completedRuns.mp hlatest.mem
    exact ⟨run, hid, mem_completedRuns.mpr ⟨hrun run hmem hid hs, hof, hs⟩, hlatest.promoted,
      fun r hr => hlatest.largest r (hold r hr), fun r hr => hlatest.latest r (hold r hr)⟩
  observed o ho := by
    obtain ⟨hle, hacc⟩ := h.observed o (hk.observed o ho)
    refine ⟨Nat.le_trans hle hk.runs.last, fun r hr hid => ?_⟩
    obtain ⟨r', hr', horigin⟩ := hk.runs.origin_eq hr (hid ▸ hle)
    simp only [SyncRun.origin, Prod.mk.injEq] at horigin
    rw [← horigin.2.2.2.1]
    exact hacc r' hr' (horigin.1.trans hid)

theorem observeGames_spec {id : Nat} {observed recentObserved : String} {seen : List Int}
    {games : List ActivityGame} {rows : List (Observation Nat Int ActivityFacts)}
    (h : observeGames id accountId observed recentObserved seen games = .ok rows) :
    ∀ o ∈ rows, o.syncRunId = id ∧ o.subject = accountId := by
  induction games generalizing seen rows with
  | nil =>
    obtain rfl := Except.ok.inj h
    simp
  | cons game games ih =>
    obtain ⟨_, _, h⟩ := bind_eq_ok.mp h
    obtain ⟨_, _, h⟩ := bind_eq_ok.mp h
    obtain ⟨rest, hrest, h⟩ := bind_eq_ok.mp h
    obtain rfl := Except.ok.inj h
    intro o ho
    rcases List.mem_cons.mp ho with rfl | ho
    · exact ⟨rfl, rfl⟩
    · exact ih hrest o ho

theorem activeActivityRun_eq_ok {id : Nat} (h : activeActivityRun runs id accountId = .ok run) :
    run ∈ runs.rows ∧ run.id = id ∧ run.ofAccount "activity.read" accountId = true ∧
      run.status = .running := by
  unfold activeActivityRun at h
  split at h
  · rename_i hget
    obtain rfl := Except.ok.inj h
    obtain ⟨hget, hp⟩ := Option.filter_eq_some_iff.mp hget
    obtain ⟨hmem, hid⟩ := Runs.get?_eq_some.mp hget
    simp only [Bool.and_eq_true, beq_iff_eq] at hp
    exact ⟨hmem, hid, hp⟩
  · simp at h

/-- The completed runs after a completion: the ones before it, and the run. -/
theorem mem_completedRuns_set {f : SyncRun → SyncRun} (hrun : run ∈ runs.rows)
    (hs : run.status = .running) {b : Nat} :
    r ∈ completedRuns (runs.set run.id f) b →
      (r ∈ completedRuns runs b ∧ r.id ≠ run.id) ∨
        (r = { f run with id := run.id } ∧ r.ofAccount "activity.read" b = true) := by
  intro hr
  obtain ⟨hr, hof, hc⟩ := mem_completedRuns.mp hr
  rcases Runs.mem_set.mp hr with ⟨hr, hne⟩ | ⟨r', hr', hid, rfl⟩
  · exact Or.inl ⟨mem_completedRuns.mpr ⟨hr, hof, hc⟩, hne⟩
  · obtain rfl := Runs.eq_of_id hr' hrun hid
    exact Or.inr ⟨rfl, hof⟩

/-- A complete run stays complete while another one is completed. -/
theorem mem_completedRuns_of_ne {f : SyncRun → SyncRun} {b : Nat}
    (hr : r ∈ completedRuns runs b) (hne : r.id ≠ run.id) :
    r ∈ completedRuns (runs.set run.id f) b := by
  obtain ⟨hr, hof, hc⟩ := mem_completedRuns.mp hr
  exact mem_completedRuns.mpr ⟨(Runs.mem_set_of_ne hne).mpr hr, hof, hc⟩

/-- The latest run of an account stays while a run of another one completes. -/
theorem LatestRun.other {b : Nat} (h : LatestRun runs b r) (hrun : run ∈ runs.rows)
    (hs : run.status = .running) (hof : run.ofAccount "activity.read" accountId = true)
    (hne : b ≠ accountId) {promoted : Bool} {recordsSeen : Nat} {completed : String} :
    LatestRun (runs.set run.id (SyncRun.completeAt promoted recordsSeen completed)) b r := by
  have hold : ∀ r ∈ completedRuns
      (runs.set run.id (SyncRun.completeAt promoted recordsSeen completed)) b,
      r ∈ completedRuns runs b := by
    intro r' hr'
    rcases mem_completedRuns_set hrun hs hr' with ⟨hr', _⟩ | ⟨rfl, hof'⟩
    · exact hr'
    · have hb := accountId_of_ofAccount hof'
      have ha := accountId_of_ofAccount hof
      exact absurd (Option.some.inj (hb.symm.trans ha)) hne
  have hid : r.id ≠ run.id := by
    intro hid
    obtain ⟨hr, _, hc⟩ := mem_completedRuns.mp h.mem
    rw [Runs.eq_of_id hr hrun hid, hs] at hc
    simp at hc
  exact ⟨mem_completedRuns_of_ne h.mem hid, h.promoted, fun r' hr' => h.largest r' (hold r' hr'),
    fun r' hr' => h.latest r' (hold r' hr')⟩

/-- A run that completes in order behind a newer one leaves the latest run. -/
theorem LatestRun.skip (h : LatestRun runs accountId r) (hrun : run ∈ runs.rows)
    (hs : run.status = .running) {recordsSeen : Nat} {completed : String}
    (hnewer : newerSuccess runs accountId run = true)
    (horder : inOrder runs accountId run completed = true) :
    LatestRun (runs.set run.id (SyncRun.completeAt false recordsSeen completed)) accountId r := by
  rw [inOrder, if_pos hnewer, List.any_eq_true] at horder
  obtain ⟨later, hlater, hlt⟩ := horder
  have hle := h.largest later hlater
  have hlt' : run.id < r.id := Nat.lt_of_lt_of_le (by simpa using hlt) hle
  refine ⟨mem_completedRuns_of_ne h.mem (by omega), h.promoted, fun r' hr' => ?_, fun r' hr' hp => ?_⟩
  · rcases mem_completedRuns_set hrun hs hr' with ⟨hr', _⟩ | ⟨rfl, _⟩
    · exact h.largest r' hr'
    · exact Nat.le_of_lt hlt'
  · rcases mem_completedRuns_set hrun hs hr' with ⟨hr', _⟩ | ⟨rfl, _⟩
    · exact h.latest r' hr' hp
    · simp [SyncRun.completeAt] at hp

/-- A run that completes in order with no newer one is the latest. -/
theorem latestRun_completed (hrun : run ∈ runs.rows) (hs : run.status = .running)
    (hof : run.ofAccount "activity.read" accountId = true) (recordsSeen : Nat)
    {completed : String} (hnewer : newerSuccess runs accountId run = false)
    (horder : inOrder runs accountId run completed = true) :
    LatestRun (runs.set run.id (SyncRun.completeAt true recordsSeen completed)) accountId
      (run.completeAt true recordsSeen completed) := by
  rw [inOrder, if_neg (by simp [hnewer]), List.all_eq_true] at horder
  have hmem : run.completeAt true recordsSeen completed ∈
      (runs.set run.id (SyncRun.completeAt true recordsSeen completed)).rows :=
    Runs.mem_set_self hrun
  refine ⟨mem_completedRuns.mpr ⟨hmem, hof, rfl⟩, rfl, fun r' hr' => ?_, fun r' hr' hp => ?_⟩
  · rcases mem_completedRuns_set hrun hs hr' with ⟨hr', _⟩ | ⟨rfl, _⟩
    · have hlt := horder r' hr'
      simp only [Bool.and_eq_true, decide_eq_true_eq] at hlt
      exact Nat.le_of_lt hlt.1
    · exact Nat.le_refl _
  · rcases mem_completedRuns_set hrun hs hr' with ⟨hr', _⟩ | ⟨rfl, _⟩
    · have hlt := horder r' hr'
      simp only [hp, Bool.and_eq_true, decide_eq_true_eq, Bool.not_true, Bool.false_or] at hlt
      have hid : ¬run.id < r'.id := by omega
      unfold byCompletion SyncRun.completeAt
      cases hdone : r'.completedAt with
      | none => simp [textAfter]
      | some text =>
        rw [hdone] at hlt
        have hle : ¬completed < text := String.not_lt.mpr (by simpa using hlt.2)
        simp [textAfter, hle, hid]
    · simp [byCompletion, SyncRun.completeAt, textAfter]

/-- The current rows after a promotion: those of the other accounts, and the
observations of the run. -/
theorem mem_promoteActivity {id : Nat} {c : Current Nat Int ActivityFacts} :
    c ∈ (promoteActivity db accountId id).activityCurrent ↔
      (c ∈ db.activityCurrent ∧ c.subject ≠ accountId) ∨
        ∃ o ∈ db.activityObservations, o.syncRunId = id ∧ c = ⟨o.subject, o.key, id, o.facts⟩ := by
  simp only [promoteActivity, List.mem_append, List.mem_filter, List.mem_map,
    Observation.promoted, Bool.not_eq_true', beq_eq_false_iff_ne, beq_iff_eq, ne_eq]
  constructor
  · rintro (h | ⟨o, ⟨ho, rfl⟩, rfl⟩)
    · exact Or.inl h
    · exact Or.inr ⟨o, ho, rfl, rfl⟩
  · rintro (h | ⟨o, ho, rfl, rfl⟩)
    · exact Or.inl h
    · exact Or.inr ⟨o, ⟨ho, rfl⟩, rfl⟩

/-- The observations of the run that completes. -/
theorem Coherent.observe (h : Coherent db) (hrun : run ∈ db.runs.rows)
    (hof : run.ofAccount "activity.read" accountId = true)
    {observations : List (Observation Nat Int ActivityFacts)}
    (ho : ∀ o ∈ observations, o.syncRunId = run.id ∧ o.subject = accountId) :
    Coherent { db with activityObservations := db.activityObservations ++ observations } where
  latest := h.latest
  observed o hmem := by
    rcases List.mem_append.mp hmem with hmem | hmem
    · exact h.observed o hmem
    · obtain ⟨hid, rfl⟩ := ho o hmem
      refine ⟨hid ▸ db.runs.bound run hrun, fun r hr hrid => ?_⟩
      obtain rfl := Runs.eq_of_id hr hrun (hrid.trans hid)
      exact accountId_of_ofAccount hof

theorem observed_set (h : Coherent db) {id : Nat} {promoted : Bool} {recordsSeen : Nat}
    {completed : String} {o : Observation Nat Int ActivityFacts}
    (ho : o ∈ db.activityObservations) : ∀ r ∈ (db.runs.set id
      (SyncRun.completeAt promoted recordsSeen completed)).rows,
      r.id = o.syncRunId → r.accountId = some o.subject := by
  intro r hr hid
  rcases Runs.mem_set.mp hr with ⟨hr, _⟩ | ⟨r', hr', rfl, rfl⟩
  · exact (h.observed o ho).2 r hr hid
  · exact (h.observed o ho).2 r' hr' hid

/-- The row of a run that completes in order, and the promotion of its
observations if no newer run succeeded. -/
theorem Coherent.settle (h : Coherent db) (hrun : run ∈ db.runs.rows)
    (hs : run.status = .running) (hof : run.ofAccount "activity.read" accountId = true)
    (recordsSeen : Nat) {completed : String}
    (horder : inOrder db.runs accountId run completed = true) :
    Coherent (settleActivity db accountId run recordsSeen completed) := by
  unfold settleActivity
  cases hnewer : newerSuccess db.runs accountId run with
  | true =>
    refine ⟨fun c hc => ?_, fun o ho => ⟨(h.observed o ho).1, observed_set h ho⟩⟩
    obtain ⟨r, hid, hlatest⟩ := h.latest c hc
    by_cases hsub : c.subject = accountId
    · rw [hsub] at hlatest ⊢
      exact ⟨r, hid, hlatest.skip hrun hs hnewer horder⟩
    · exact ⟨r, hid, hlatest.other hrun hs hof hsub⟩
  | false =>
    refine ⟨fun c hc => ?_, fun o ho => ⟨(h.observed o ho).1, observed_set h ho⟩⟩
    rcases mem_promoteActivity.mp hc with ⟨hc, hsub⟩ | ⟨o, ho, hid, rfl⟩
    · obtain ⟨r, hid, hlatest⟩ := h.latest c hc
      exact ⟨r, hid, hlatest.other hrun hs hof hsub⟩
    · have hacc := (h.observed o ho).2 run hrun hid.symm
      obtain rfl := Option.some.inj ((accountId_of_ofAccount hof).symm.trans hacc)
      exact ⟨run.completeAt true recordsSeen completed, rfl,
        latestRun_completed hrun hs hof recordsSeen hnewer horder⟩

/-- A completion that commits is in order, as a condition on the transaction. -/
def completesInOrder (db : Db) : ActivityTxn → Bool
  | .complete id accountId games observedAt recentObservedAt completedAt disclosureVersion =>
    match db.runs.get? id, timestamp completedAt, completeActivitySnapshot id accountId games
        observedAt recentObservedAt completedAt disclosureVersion db with
    | some run, .ok completed, .ok _ => inOrder db.runs accountId run completed
    | _, _, _ => true
  | _ => true

theorem Coherent.completeActivitySnapshot (h : Coherent db) {id : Nat} {games : List ActivityGame}
    {observedAt recentObservedAt completedAt : Aware} {disclosureVersion : String}
    (hok : Storage.completeActivitySnapshot id accountId games observedAt recentObservedAt
      completedAt disclosureVersion db = .ok db')
    (horder : completesInOrder db (.complete id accountId games observedAt recentObservedAt
      completedAt disclosureVersion) = true) : Coherent db' := by
  have hcommit := hok
  obtain ⟨observed, _, hok⟩ := bind_eq_ok.mp hok
  obtain ⟨recentObserved, _, hok⟩ := bind_eq_ok.mp hok
  obtain ⟨completed, htime, hok⟩ := bind_eq_ok.mp hok
  obtain ⟨run, hactive, hok⟩ := bind_eq_ok.mp hok
  obtain ⟨hrun, rfl, hof, hs⟩ := activeActivityRun_eq_ok hactive
  obtain ⟨_, _, hok⟩ := bind_eq_ok.mp hok
  obtain ⟨observations, hobs, hok⟩ := bind_eq_ok.mp hok
  rw [completesInOrder, Runs.get?_eq_some.mpr ⟨hrun, rfl⟩, htime, hcommit] at horder
  have hdb := h.observe hrun hof (observeGames_spec hobs)
  exact (hdb.settle hrun hs hof games.length horder).keeps (keeps_pruneBehavioral hok)

/-- Every transaction of the activity methods, with completions in order. -/
theorem coherent_run {t : ActivityTxn} {reply : t.Reply} (h : Coherent db)
    (horder : completesInOrder db t = true) (hok : t.run db = .ok (reply, db')) :
    Coherent db' := by
  cases t with
  | begin => exact h.keeps (keeps_beginActivitySync hok)
  | complete =>
    obtain ⟨db₁, h₁, hok⟩ := bind_eq_ok.mp hok
    obtain ⟨_, rfl⟩ := Prod.mk.inj (Except.ok.inj hok)
    exact h.completeActivitySnapshot h₁ horder
  | fail =>
    obtain ⟨db₁, h₁, hok⟩ := bind_eq_ok.mp hok
    obtain ⟨_, rfl⟩ := Prod.mk.inj (Except.ok.inj hok)
    exact h.keeps (keeps_finishSimpleSync h₁)
  | prune =>
    obtain ⟨_, _, hok⟩ := bind_eq_ok.mp hok
    obtain ⟨db₁, h₁, hok⟩ := bind_eq_ok.mp hok
    obtain ⟨_, rfl⟩ := Prod.mk.inj (Except.ok.inj hok)
    exact h.keeps (keeps_pruneBehavioral h₁)
  | getSyncRun =>
    obtain ⟨_, _, hok⟩ := bind_eq_ok.mp hok
    obtain ⟨_, rfl⟩ := Prod.mk.inj (Except.ok.inj hok)
    exact h
  | read => exact h.keeps (keeps_readActivitySnapshot hok)
  | recommend => exact h.keeps (keeps_readRecommendationActivity hok)

/-! ## The readers -/

theorem byCompletion_self (r : SyncRun) : byCompletion r r = false := by
  unfold byCompletion
  cases r.completedAt <;> simp [textAfter]

/-- Of two runs, one comes first. -/
theorem byCompletion_total {r' : SyncRun} (hid : r'.id < r.id)
    (h : byCompletion r' r = false) : byCompletion r r' = true := by
  unfold byCompletion at h ⊢
  cases hr : r.completedAt <;> cases hr' : r'.completedAt <;>
    simp only [hr, hr', textAfter, Bool.or_eq_false_iff, Bool.or_eq_true] at h ⊢
  · simp [hid]
  · simp at h
  · simp
  · rename_i text text'
    have hle : text' ≤ text := String.not_lt.mp (of_decide_eq_false h.1)
    by_cases hlt : text' < text
    · exact Or.inl (by simpa using hlt)
    · have heq := String.le_antisymm hle (String.not_lt.mp hlt)
      exact Or.inr (by simp [heq, hid])

/-- `latest_complete` of `read_activity_snapshot`. -/
theorem LatestRun.good (h : LatestRun runs accountId run) :
    limitOne byCompletion ((runs.rows.filter fun r => r.ofAccount "activity.read" accountId).filter
      fun r => r.status == .complete && r.promoted) = some run := by
  obtain ⟨hmem, hof, hs⟩ := mem_completedRuns.mp h.mem
  refine limitOne_eq_some (by simp [hmem, hof, hs, h.promoted]) (byCompletion_self run)
    fun r hr hne => ?_
  simp only [List.mem_filter, Bool.and_eq_true, beq_iff_eq] at hr
  obtain ⟨⟨hr, hrof⟩, hrs, hrp⟩ := hr
  have hrc := mem_completedRuns.mpr ⟨hr, hrof, hrs⟩
  have hlast := h.latest r hrc hrp
  have hle := h.largest r hrc
  have hid : r.id ≠ run.id := fun hid => hne (Runs.eq_of_id hr hmem hid)
  exact ⟨byCompletion_total (by omega) hlast, hlast⟩

/-- The complete run of `read_recommendation_snapshot`. -/
theorem LatestRun.largestId (h : LatestRun runs accountId run) :
    latestAccountSync runs "activity.read" accountId (some .complete) = some run := by
  obtain ⟨hmem, hof, hs⟩ := mem_completedRuns.mp h.mem
  simp only [SyncRun.ofAccount, Bool.and_eq_true, beq_iff_eq] at hof
  refine limitOne_eq_some (by simp [hmem, hof, hs, ofStatus]) (by simp [byId]) fun r hr hne => ?_
  simp only [List.mem_filter, ofStatus, Bool.and_eq_true, decide_eq_true_eq, Option.all_some] at hr
  obtain ⟨hr, hrof, hrs⟩ := hr
  have hle := h.largest r (mem_completedRuns.mpr ⟨hr, by simp [SyncRun.ofAccount, hrof], hrs⟩)
  have hid : r.id ≠ run.id := fun hid => hne (Runs.eq_of_id hr hmem hid)
  simp only [byId, decide_eq_true_eq, decide_eq_false_iff_not]
  omega

/-- The rows of a snapshot come from the run that it reports. -/
def ActivitySnapshot.Dated (snapshot : ActivitySnapshot) : Prop :=
  ∀ c ∈ snapshot.items, ∃ run, snapshot.latestComplete = some run ∧ run.id = c.promotedSyncRunId

theorem mem_activityItems {c : Current Nat Int ActivityFacts} :
    c ∈ activityItems db accountId ↔ c ∈ db.activityCurrent ∧ c.subject = accountId := by
  simp [activityItems]

theorem Coherent.dated (h : Coherent db) {at? : Option Aware} {snapshot : ActivitySnapshot}
    (hok : readActivitySnapshot accountId at? db = .ok (snapshot, db')) : snapshot.Dated := by
  have hkeeps := h.keeps (keeps_readActivitySnapshot hok)
  obtain ⟨db₁, _, hok⟩ := bind_eq_ok.mp hok
  obtain ⟨rfl, rfl⟩ := Prod.mk.inj (Except.ok.inj hok)
  intro c hitem
  obtain ⟨hc, rfl⟩ := mem_activityItems.mp hitem
  obtain ⟨run, hid, hlatest⟩ := hkeeps.latest c hc
  exact ⟨run, hlatest.good, hid⟩

theorem Coherent.dated_recommendation (h : Coherent db) {now : Aware}
    {snapshot : ActivitySnapshot}
    (hok : readRecommendationActivity accountId now db = .ok (snapshot, db')) :
    snapshot.Dated := by
  have hkeeps := h.keeps (keeps_readRecommendationActivity hok)
  obtain ⟨_, _, hok⟩ := bind_eq_ok.mp hok
  obtain ⟨_, _, hok⟩ := bind_eq_ok.mp hok
  obtain ⟨_, _, hok⟩ := bind_eq_ok.mp hok
  obtain ⟨db₂, _, hok⟩ := bind_eq_ok.mp hok
  obtain ⟨rfl, rfl⟩ := Prod.mk.inj (Except.ok.inj hok)
  intro c hitem
  obtain ⟨hc, rfl⟩ := mem_activityItems.mp hitem
  obtain ⟨run, hid, hlatest⟩ := hkeeps.latest c hc
  exact ⟨run, hlatest.largestId, hid⟩

end Coherent

/-! ## The results -/

/-- A system of activity methods. -/
abbrev ActivitySystem := System activityTransactions.sig Stored Exn ActivityResult

/-- No process on a database without runs. -/
def blankActivity (accounts : List Account) (consents : List AccountDataConsent)
    (clock : Instant) : ActivitySystem :=
  ⟨⟨Db.empty accounts [] consents [], clock⟩, []⟩

theorem coherent_empty (accounts : List Account) (machines : List Machine)
    (consents : List AccountDataConsent) (machineConsents : List MachineDataConsent) :
    Coherent (Db.empty accounts machines consents machineConsents) :=
  ⟨fun c hc => by simp [Db.empty] at hc, fun o ho => by simp [Db.empty] at ho⟩

/-- While every completion is in order, the current rows of an account carry one
run, and both readers report that run with them. -/
theorem activity_last_good {accounts : List Account} {consents : List AccountDataConsent}
    {clock : Instant} {s : ActivitySystem}
    (h : System.Reach (activityTransactions.dynamics ActivityMethod)
      (blankActivity accounts consents clock) s)
    (horder : ∀ m ∈ s.allMoves,
      Transactions.meets (T := activityTransactions) completesInOrder m = true)
    (accountId : Nat) :
    (∀ c ∈ s.world.db.activityCurrent, ∀ c' ∈ s.world.db.activityCurrent,
      c.subject = accountId → c'.subject = accountId →
        c.promotedSyncRunId = c'.promotedSyncRunId) ∧
    (∀ now snapshot db', readActivitySnapshot accountId now s.world.db = .ok (snapshot, db') →
      snapshot.Dated) ∧
    ∀ now snapshot db',
      readRecommendationActivity accountId now s.world.db = .ok (snapshot, db') →
        snapshot.Dated := by
  have hcoherent : Coherent s.world.db :=
    Transactions.reach_inv Coherent (fun t db reply db' hinv hm hok => coherent_run hinv hm hok) h
      (coherent_empty ..) horder
  refine ⟨fun c hc c' hc' hs hs' => ?_, fun _ _ _ => hcoherent.dated,
    fun _ _ _ => hcoherent.dated_recommendation⟩
  obtain ⟨run, hid, hlatest⟩ := hcoherent.latest c hc
  obtain ⟨run', hid', hlatest'⟩ := hcoherent.latest c' hc'
  rw [hs] at hlatest
  rw [hs'] at hlatest'
  rw [← hid, ← hid']
  exact Nat.le_antisymm (hlatest'.largest run hlatest.mem) (hlatest.largest run' hlatest'.mem)

/-! ## Two runs -/

/-- Seconds after noon of 2024-01-01. -/
def afternoon (seconds : Fin 3600) : Instant :=
  ⟨63839707200000000 + seconds * 1000000, by
    have h := seconds.isLt
    unfold Datetime.maxMicroseconds
    omega⟩

/-- One account that agreed to keep activity. -/
def consenting : ActivitySystem :=
  blankActivity [⟨1, "steam"⟩] [⟨1, "activity_persistence", "1", true⟩] (afternoon 0)

/-- A game that was played for an hour. -/
def playedGame : ActivityGame :=
  ⟨10, ⟨some 60, none, none, none, none, none, none, none, none⟩⟩

/-- Moves of process `i` from `seconds` after noon. -/
def onward (i n : Nat) (seconds : Fin 3600) (s : ActivitySystem) : ActivitySystem :=
  s.moves (Transactions.answers (afternoon seconds)) i n

/-- The first of two syncs reads its clock first and begins last. -/
def overlappedBegins : ActivitySystem :=
  onward 0 2 3 (onward 1 3 2
    ((onward 0 1 1 (consenting.start (beginActivity 1 "1"))).start (beginActivity 1 "1")))

/-- Both syncs complete. -/
def overlappedSyncs : ActivitySystem :=
  onward 3 5 5 ((onward 2 5 4 (overlappedBegins.start (completeActivity 1 1 [playedGame] "1"))).start
    (completeActivity 2 1 [playedGame] "1"))

theorem reach_onward {s : ActivitySystem}
    (h : System.Reach (activityTransactions.dynamics ActivityMethod) consenting s) (i n : Nat)
    (seconds : Fin 3600) :
    System.Reach (activityTransactions.dynamics ActivityMethod) consenting
      (onward i n seconds s) :=
  h.moves (fun w c => Transactions.perform_answers _ i w c) n

theorem reach_overlappedSyncs :
    System.Reach (activityTransactions.dynamics ActivityMethod) consenting overlappedSyncs := by
  have hfirst := reach_onward (.start .refl (.begin 1 "1")) 0 1 1
  have hbegun := reach_onward (reach_onward (hfirst.start (.begin 1 "1")) 1 3 2) 0 2 3
  have hone := reach_onward (hbegun.start (.complete 1 1 [playedGame] "1")) 2 5 4
  exact reach_onward (hone.start (.complete 2 1 [playedGame] "1")) 3 5 5

/-- The rows of the first run are dated by the second, which was not promoted. -/
theorem activity_last_good_overlap : ∃ s, System.Reach
    (activityTransactions.dynamics ActivityMethod) consenting s ∧
      ∃ snapshot db', readRecommendationActivity 1 (Aware.ofInstant (afternoon 6)) s.world.db
        = .ok (snapshot, db') ∧ ¬snapshot.Dated := by
  have hread : (readRecommendationActivity 1 (Aware.ofInstant (afternoon 6))
      overlappedSyncs.world.db).toOption.any (fun r => r.1.items.any fun c =>
        r.1.latestComplete.all fun run => run.id != c.promotedSyncRunId) = true := by
    decide +kernel
  refine ⟨overlappedSyncs, reach_overlappedSyncs, ?_⟩
  cases hok : readRecommendationActivity 1 (Aware.ofInstant (afternoon 6))
      overlappedSyncs.world.db with
  | error x => simp [hok, Except.toOption] at hread
  | ok r =>
    rw [hok] at hread
    obtain ⟨c, hc, hne⟩ := List.any_eq_true.mp hread
    refine ⟨r.1, r.2, rfl, fun hdated => ?_⟩
    obtain ⟨run, hrun, hid⟩ := hdated c hc
    rw [hrun] at hne
    simp [hid] at hne

/-- One sync that begins and completes. -/
def orderedSync : ActivitySystem :=
  onward 1 5 2 ((onward 0 3 1 (consenting.start (beginActivity 1 "1"))).start
    (completeActivity 1 1 [playedGame] "1"))

theorem reach_orderedSync :
    System.Reach (activityTransactions.dynamics ActivityMethod) consenting orderedSync := by
  have hbegun := reach_onward (.start .refl (.begin 1 "1")) 0 3 1
  exact reach_onward (hbegun.start (.complete 1 1 [playedGame] "1")) 1 5 2

theorem activity_last_good_ordered :
    orderedSync.world.db.activityCurrent.map Current.promotedSyncRunId = [1] ∧
      ∀ now snapshot db', readActivitySnapshot 1 now orderedSync.world.db = .ok (snapshot, db') →
        snapshot.Dated :=
  ⟨by decide +kernel, (activity_last_good reach_orderedSync (by decide +kernel) 1).2.1⟩

end SteamAgent.Storage
