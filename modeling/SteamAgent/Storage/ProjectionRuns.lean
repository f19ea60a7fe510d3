import SteamAgent.Storage.Projections
import SteamAgent.Storage.Transactions

/-!
# Projections over whole runs

The installed, owned, wishlist and profile methods as processes on one database.

There are three groups.

* The transactions, and the methods that wrap them.  A method commits its
  transaction and then reads the run back.  `finish_system_profile_sync_failed`
  has two of them: the run is checked in the first and written in the second.
* `undisturbed`, the condition on a transaction, and what holds of every database
  that a run reaches whose transactions all meet it.
* Three runs.
-/

namespace SteamAgent.Storage

open Datetime (Instant Aware)
open Effects (Prog Move Proc System Safe NewestView)

/-! ## Transactions -/

/-- The transactions of the methods. -/
inductive ProjectionTxn where
  | beginSync (provider capability : String) (startedAt : Aware) (machineId : Option String)
      (accountId : Option Nat)
  | recordInstalled (id : Nat) (observation : InstalledObservation) (evidenceCapability : String)
      (evidence : Except Exn Nat)
  | finishInstalled (id : Nat) (status : SyncStatus) (completedAt : Aware)
      (errorCode errorDetail : Option String)
  | recordOwned (evidence : Int → Nat) (id : Nat) (s : OwnedSnapshot)
  | completeOwned (evidence : Int → Nat) (id : Nat) (s : OwnedSnapshot) (completedAt : Aware)
  | finishOwned (id : Nat) (status : SyncStatus) (completedAt : Aware)
      (errorCode errorDetail : Option String)
  | completeWishlist (evidence : Int → Nat) (id : Nat) (s : WishlistSnapshot)
  | finishWishlist (id : Nat) (completedAt : Aware) (errorCode : String)
  | beginProfile (machineId disclosureVersion : String) (startedAt : Aware)
  | completeProfile (evidence : Nat) (id : Nat) (validate : Except Exn ValidatedProfile)
      (observedAt completedAt : Aware) (disclosureVersion : String)
  | checkProfile (id : Nat) (status : SyncStatus) (errorCode : String) (completedAt : Aware)
  | failProfile (id : Nat) (failure : ProfileFailure)
  | getSyncRun (id : Nat)

namespace ProjectionTxn

def Reply : ProjectionTxn → Type
  | beginSync .. => Nat
  | recordInstalled .. => Nat
  | finishInstalled .. => Option SyncRun
  | recordOwned .. => List Nat
  | finishOwned .. => Option SyncRun
  | beginProfile .. => Nat
  | checkProfile .. => ProfileFailure
  | getSyncRun _ => SyncRun
  | _ => Unit

/-- The transactions with which a method begins. -/
def opens : ProjectionTxn → Bool
  | failProfile .. => false
  | getSyncRun _ => false
  | _ => true

/-- A transaction that returns nothing. -/
def done (db : Except Exn Db) : Except Exn (Unit × Db) :=
  db.map fun db => ((), db)

theorem done_eq_ok {result : Except Exn Db} {reply : Unit} {db : Db}
    (h : done result = .ok (reply, db)) : result = .ok db := by
  cases result with
  | error x => cases h
  | ok db => rw [(Prod.mk.inj (Except.ok.inj h)).2]

def run (text : TextLibrary) : (t : ProjectionTxn) → Db → Except Exn (t.Reply × Db)
  | beginSync provider capability startedAt machineId accountId, db =>
    Storage.beginSync provider capability startedAt machineId accountId db
  | recordInstalled id observation evidenceCapability evidence, db =>
    recordInstalledObservation id observation evidenceCapability evidence db
  | finishInstalled id status completedAt errorCode errorDetail, db =>
    finishInstalledSync id status completedAt errorCode errorDetail db
  | recordOwned evidence id s, db => recordOwnedSnapshot evidence id s db
  | completeOwned evidence id s completedAt, db =>
    done (completeOwnedSnapshot evidence id s completedAt db)
  | finishOwned id status completedAt errorCode errorDetail, db =>
    finishOwnedSync id status completedAt errorCode errorDetail db
  | completeWishlist evidence id s, db => done (completeWishlistSnapshot evidence id s db)
  | finishWishlist id completedAt errorCode, db =>
    done (finishWishlistSync id completedAt errorCode db)
  | beginProfile machineId disclosureVersion startedAt, db =>
    beginSystemProfileSync machineId disclosureVersion startedAt db
  | completeProfile evidence id validate observedAt completedAt disclosureVersion, db =>
    done (completeSystemProfileSync text evidence id validate observedAt completedAt
      disclosureVersion db)
  | checkProfile id status errorCode completedAt, db =>
    (checkSystemProfileSyncFailed id status errorCode completedAt db).map fun failure =>
      (failure, db)
  | failProfile id failure, db => .ok ((), finishSystemProfileSyncFailed id failure db)
  | getSyncRun id, db => (Storage.getSyncRun db.runs id).map fun run => (run, db)

end ProjectionTxn

/-- The transactions of the methods, as a family. -/
def projectionTransactions (text : TextLibrary) : Transactions :=
  ⟨ProjectionTxn, ProjectionTxn.Reply, ProjectionTxn.run text⟩

/-- What a method returns. -/
inductive ProjectionResult where
  | run (run : SyncRun)
  | evidence (ids : List Nat)

/-- A method, in a process of its own. -/
abbrev ProjectionProg (text : TextLibrary) :=
  Prog (projectionTransactions text).sig Exn ProjectionResult

/-- `get_sync_run`, with which most methods end. -/
def readBack (text : TextLibrary) (id : Nat) : ProjectionProg text := do
  let run ← (projectionTransactions text).transact (.getSyncRun id)
  return .run run

/-- What a method does after its transaction. -/
def afterwards (text : TextLibrary) : (t : ProjectionTxn) → t.Reply → ProjectionProg text
  | .beginSync .., id => readBack text id
  | .recordInstalled .., id => return .evidence [id]
  | .finishInstalled id .., existing => match existing with
    | some run => return .run run
    | none => readBack text id
  | .recordOwned .., ids => return .evidence ids
  | .completeOwned _ id .., _ => readBack text id
  | .finishOwned id .., existing => match existing with
    | some run => return .run run
    | none => readBack text id
  | .completeWishlist _ id .., _ => readBack text id
  | .finishWishlist id .., _ => readBack text id
  | .beginProfile .., id => readBack text id
  | .completeProfile _ id .., _ => readBack text id
  | .checkProfile id .., failure => do
    let _ ← (projectionTransactions text).transact (.failProfile id failure)
    readBack text id
  | .failProfile id .., _ => readBack text id
  | .getSyncRun _, run => return .run run

/-- The method that begins with a transaction. -/
def projectionMethod (text : TextLibrary) (t : ProjectionTxn) : ProjectionProg text := do
  let reply ← (projectionTransactions text).transact t
  afterwards text t reply

/-- The programs that are methods. -/
def IsProjectionMethod (text : TextLibrary) (p : ProjectionProg text) : Prop :=
  ∃ t, t.opens = true ∧ p = projectionMethod text t

/-- The condition on a transaction: the `UPDATE` of a failed profile sync does not
find a run that has ended, and a run that is read back is there. -/
def undisturbed (db : Db) : ProjectionTxn → Bool
  | .failProfile id _ => (db.runs.get? id).all fun run => run.status == .running
  | .getSyncRun id => (db.runs.get? id).isSome
  | _ => true

/-! ## The results -/

/-- A system of methods. -/
abbrev ProjectionSystem (text : TextLibrary) :=
  System (projectionTransactions text).sig Stored Exn ProjectionResult

/-- No process on a database without runs. -/
def blankProjections (text : TextLibrary) (accounts : List Account) (machines : List Machine)
    (consents : List AccountDataConsent) (machineConsents : List MachineDataConsent)
    (clock : Instant) : ProjectionSystem text :=
  ⟨⟨Db.empty accounts machines consents machineConsents, clock⟩, []⟩

variable {text : TextLibrary}

/-- A transaction that meets the condition is a step. -/
theorem advance_run (t : ProjectionTxn) (db : Db) (reply : t.Reply) (db' : Db) (h : Projected db)
    (hmeets : undisturbed db t = true) (hok : t.run text db = .ok (reply, db')) :
    Advance db db' := by
  cases t with
  | beginSync =>
    obtain ⟨timestamp, _, hok⟩ := bind_eq_ok.mp hok
    obtain ⟨_, _, hok⟩ := bind_eq_ok.mp hok
    obtain ⟨_, _, hok⟩ := bind_eq_ok.mp hok
    obtain ⟨_, rfl⟩ := Prod.mk.inj (Except.ok.inj hok)
    exact ⟨h.insert nofun, .insert _ _, Or.inl rfl⟩
  | recordInstalled => exact h.recordInstalledObservation hok
  | finishInstalled => exact h.finishInstalledSync hok
  | recordOwned => exact h.recordOwnedSnapshot hok
  | completeOwned => exact h.completeOwnedSnapshot (ProjectionTxn.done_eq_ok hok)
  | finishOwned => exact h.finishOwnedSync hok
  | completeWishlist => exact h.completeWishlistSnapshot (ProjectionTxn.done_eq_ok hok)
  | finishWishlist => exact h.finishWishlistSync (ProjectionTxn.done_eq_ok hok)
  | beginProfile => exact h.beginSystemProfileSync hok
  | completeProfile => exact h.completeSystemProfileSync (ProjectionTxn.done_eq_ok hok)
  | checkProfile =>
    rw [eq_of_map_eq_ok hok]
    exact .refl h
  | failProfile =>
    obtain ⟨_, rfl⟩ := Prod.mk.inj (Except.ok.inj hok)
    refine h.finishSystemProfileSyncFailed fun run hget => ?_
    simpa [undisturbed, hget] using hmeets
  | getSyncRun id =>
    rw [eq_of_map_eq_ok hok]
    exact .refl h

theorem projected_empty (accounts : List Account) (machines : List Machine)
    (consents : List AccountDataConsent) (machineConsents : List MachineDataConsent) :
    Projected (Db.empty accounts machines consents machineConsents) := by
  have hboard : ∀ {σ κ φ ψ : Type} (S : Subject σ) (f : φ → ψ),
      Board S f .empty ([] : List (Observation σ κ φ)) ([] : List (Current σ κ ψ)) := by
    intro σ κ φ ψ S f
    refine ⟨fun o ho => by simp at ho, fun s c => ?_⟩
    constructor
    · rintro ⟨hc, _⟩
      simp at hc
    · rintro ⟨_, _, o, ho, _⟩
      simp at ho
  refine ⟨hboard _ _, hboard _ _, hboard _ _, hboard _ _, .nil, fun r hr => ?_⟩
  simp [Db.empty, Runs.empty] at hr

/-- What a method that raised has done: nothing, or some transaction of it did not
meet the condition. -/
def RaisedClean (text : TextLibrary) (l : List (Move (projectionTransactions text).sig Stored)) :
    Prop :=
  (∀ m ∈ l, m.after.db = m.before.db) ∨ ∃ m ∈ l, Transactions.meets undisturbed m = false

/-- What a method that raised has done is safe to raise. -/
abbrev RaisesClean {α : Type} (p : Prog (projectionTransactions text).sig Exn α)
    (l : List (Move (projectionTransactions text).sig Stored)) (w : Stored) : Prop :=
  Safe (projectionTransactions text).solitary (fun _ _ _ => True)
    (fun _ l _ => RaisedClean text l) p l w

theorem safe_readBack (id : Nat) (l : List (Move (projectionTransactions text).sig Stored))
    (w : Stored) : RaisesClean (readBack text id) l w := by
  refine Transactions.safe_transact (fun w x hrun => Or.inr ⟨_, List.mem_cons_self, ?_⟩)
    fun _ _ _ _ _ _ => trivial
  cases hget : w.db.runs.get? id with
  | none => simp [Transactions.meets, undisturbed, hget]
  | some run => simp [projectionTransactions, ProjectionTxn.run, getSyncRun, hget, Except.map] at hrun

theorem safe_projectionMethod (t : ProjectionTxn) (w : Stored) :
    RaisesClean (projectionMethod text t) [] w := by
  refine Transactions.safe_transact (fun w x _ => Or.inl fun m hm => ?_) fun w reply w' _ => ?_
  · rw [List.mem_singleton.mp hm]
  · cases t with
    | recordInstalled => exact fun _ _ => trivial
    | recordOwned => exact fun _ _ => trivial
    | getSyncRun => exact fun _ _ => trivial
    | finishInstalled =>
      cases reply with
      | none => exact safe_readBack _ _ _
      | some run => exact fun _ _ => trivial
    | finishOwned =>
      cases reply with
      | none => exact safe_readBack _ _ _
      | some run => exact fun _ _ => trivial
    | checkProfile =>
      refine Transactions.safe_transact (fun w x hrun => ?_) fun w _ w' _ => safe_readBack _ _ _
      cases hrun
    | _ => exact safe_readBack _ _ _

/-- A move that meets the condition changes current rows only when a run completes. -/
theorem currents_of_perform {m : Move (projectionTransactions text).sig Stored}
    (h : Projected m.before.db) (hmeets : Transactions.meets undisturbed m = true)
    (hperform : (projectionTransactions text).perform 0 m.before m.call m.ans m.after) :
    m.after.db.currents = m.before.db.currents ∨
      ∃ run ∈ m.before.db.runs.rows, run.status = .running ∧
        ∃ r ∈ m.after.db.runs.rows, r.id = run.id ∧ r.status = .complete := by
  obtain ⟨w, c, a, w'⟩ := m
  cases c with
  | now =>
    have hw : w' = { w with clock := a } := hperform.2
    exact Or.inl (by rw [hw])
  | transact t =>
    have hdb : w'.db = ((projectionTransactions text).commit t w.db).2 :=
      congrArg Prod.snd hperform.1
    rcases Transactions.commit_cases t w.db with hsame | ⟨reply, hok⟩
    · exact Or.inl (by rw [hdb, hsame])
    · rw [← hdb] at hok
      exact (advance_run t w.db reply w'.db h hmeets hok).currents

/-- In every run whose transactions all meet the condition: the current rows of each
capability are the newest complete run of their subject, a move changes them only
when a run completes, terminal runs keep their outcome, and a method that raised
has changed nothing. -/
theorem projections_newest {accounts : List Account} {machines : List Machine}
    {consents : List AccountDataConsent} {machineConsents : List MachineDataConsent}
    {clock : Instant} {s : ProjectionSystem text}
    (h : System.Reach ((projectionTransactions text).dynamics (IsProjectionMethod text))
      (blankProjections text accounts machines consents machineConsents clock) s)
    (hmeets : ∀ m ∈ s.allMoves, Transactions.meets undisturbed m = true) :
    (NewestView ((Subject.machine "installed").complete s.world.db.runs)
        (promotedRows InstalledRecord.facts s.world.db.installedObservations)
        (currentRows s.world.db.installedCurrent) ∧
      NewestView ((Subject.account "owned.visible.read").complete s.world.db.runs)
        (promotedRows (fun facts => facts) s.world.db.ownedObservations)
        (currentRows s.world.db.ownedCurrent) ∧
      NewestView ((Subject.account "wishlist.read").complete s.world.db.runs)
        (promotedRows (fun facts => facts) s.world.db.wishlistObservations)
        (currentRows s.world.db.wishlistCurrent) ∧
      NewestView ((Subject.machine "system_profile.read").complete s.world.db.runs)
        (promotedRows (fun facts => facts) s.world.db.profileObservations)
        (currentRows s.world.db.profileCurrent)) ∧
    (∀ m ∈ s.allMoves, m.after.db.currents = m.before.db.currents ∨
      ∃ run ∈ m.before.db.runs.rows, run.status = .running ∧
        ∃ r ∈ m.after.db.runs.rows, r.id = run.id ∧ r.status = .complete) ∧
    (∀ s', System.Reach ((projectionTransactions text).dynamics (IsProjectionMethod text)) s s' →
      (∀ m ∈ s'.allMoves, Transactions.meets undisturbed m = true) →
      ∀ r ∈ s.world.db.runs.rows, r.status ≠ .running →
        ∀ r' ∈ s'.world.db.runs.rows, r'.id = r.id → r'.outcome = r.outcome) ∧
    ∀ (i : Nat) (p : Proc (projectionTransactions text).sig Stored Exn ProjectionResult) (x : Exn),
      s.procs[i]? = some p → p.killed = false → p.prog = .raise x →
        ∀ m ∈ p.log, m.after.db = m.before.db := by
  have hinv : ∀ t db reply db', Projected db → undisturbed db t = true →
      ProjectionTxn.run text t db = .ok (reply, db') → Projected db' :=
    fun t db reply db' hp hm hok => (advance_run t db reply db' hp hm hok).projected
  have hempty := projected_empty accounts machines consents machineConsents
  have hprojected : Projected s.world.db := Transactions.reach_inv Projected hinv h hempty hmeets
  refine ⟨⟨hprojected.installed.newest, hprojected.owned.newest, hprojected.wishlist.newest,
    hprojected.profile.newest⟩, fun m hm => ?_, fun s' hs' hmeets' r hr hs r' hr' hid => ?_,
    fun i p x hi halive hx => ?_⟩
  · obtain ⟨hbefore, hperform⟩ := Transactions.moves_inv hinv h hempty hmeets m hm
    exact currents_of_perform hbefore (hmeets m hm) hperform
  · have hsettles : Projected s'.world.db ∧ s.world.db.runs.Settles s'.world.db.runs :=
      Transactions.reach_inv
        (fun db => Projected db ∧ s.world.db.runs.Settles db.runs)
        (fun t db reply db' hp hm hok =>
          have hadvance := advance_run t db reply db' hp.1 hm hok
          ⟨hadvance.projected, hp.2.trans hadvance.settles⟩)
        hs' ⟨hprojected, .refl _⟩ hmeets'
    exact hsettles.2.outcome_eq hr hs hr' hid
  · have hraised : RaisedClean text p.log := by
      refine Transactions.raised_of_safe (X := fun _ l => RaisedClean text l) ?_ h hi halive hx
      rintro p w ⟨t, _, rfl⟩
      exact safe_projectionMethod t w
    rcases hraised with hclean | ⟨m, hm, hnot⟩
    · exact hclean
    · have hmade := hmeets m (System.mem_allMoves.mpr ⟨i, p, hi, hm⟩)
      rw [hnot] at hmade
      cases hmade

/-! ## Three runs -/

/-- Text that is folded and stripped already. -/
def plainText : TextLibrary :=
  ⟨id, id⟩

/-- Noon of 2024-01-01, and some days later. -/
def daysAfter (days : Fin 100) : Instant :=
  ⟨63839707200000000 + days * 86400000000, by
    have h := days.isLt
    unfold Datetime.maxMicroseconds
    omega⟩

/-- One machine that agreed to keep its profile. -/
def profiling : ProjectionSystem plainText :=
  blankProjections plainText [] [⟨"m", "linux", none⟩] [] [⟨"m", "1"⟩] (daysAfter 0)

/-- A profile sync that begins. -/
def profileBegin (days : Fin 100) : ProjectionProg plainText :=
  projectionMethod plainText (.beginProfile "m" "1" (Aware.ofInstant (daysAfter days)))

/-- A profile sync that completes. -/
def profileComplete (id : Nat) : ProjectionProg plainText :=
  projectionMethod plainText (.completeProfile 1 id (.ok ⟨true, "linux", "x86_64", "{}"⟩)
    (Aware.ofInstant (daysAfter 0)) (Aware.ofInstant (daysAfter 0)) "1")

/-- A profile sync that ends without a profile. -/
def profileFail (id : Nat) (days : Fin 100) : ProjectionProg plainText :=
  projectionMethod plainText
    (.checkProfile id .partialRun "SYSTEM_PROFILE_PARTIAL" (Aware.ofInstant (daysAfter days)))

/-- Moves of process `i`. -/
def advance (i n : Nat) (s : ProjectionSystem plainText) : ProjectionSystem plainText :=
  s.moves (Transactions.answers (daysAfter 0)) i n

theorem reach_advance {s : ProjectionSystem plainText}
    (h : System.Reach ((projectionTransactions plainText).dynamics (IsProjectionMethod plainText))
      profiling s) (i n : Nat) :
    System.Reach ((projectionTransactions plainText).dynamics (IsProjectionMethod plainText))
      profiling (advance i n s) :=
  h.moves (fun w c => Transactions.perform_answers _ i w c) n

theorem reach_method {s : ProjectionSystem plainText}
    (h : System.Reach ((projectionTransactions plainText).dynamics (IsProjectionMethod plainText))
      profiling s) {t : ProjectionTxn} (ht : t.opens = true) :
    System.Reach ((projectionTransactions plainText).dynamics (IsProjectionMethod plainText))
      profiling (s.start (projectionMethod plainText t)) :=
  h.start ⟨t, ht, rfl⟩

/-- A sync completes, and a later one of the same machine ends without a profile. -/
def profiledOnce : ProjectionSystem plainText :=
  advance 3 3 ((advance 2 2 ((advance 1 2 ((advance 0 2 (profiling.start (profileBegin 0))).start
    (profileComplete 1))).start (profileBegin 0))).start (profileFail 2 0))

theorem reach_profiledOnce :
    System.Reach ((projectionTransactions plainText).dynamics (IsProjectionMethod plainText))
      profiling profiledOnce :=
  reach_advance (reach_method (reach_advance (reach_method (reach_advance (reach_method
    (reach_advance (reach_method .refl rfl) 0 2) rfl) 1 2) rfl) 2 2) rfl) 3 3

theorem projections_newest_profiled :
    profiledOnce.world.db.runs.rows.map SyncRun.status = [.complete, .partialRun] ∧
      profiledOnce.world.db.profileCurrent.map Current.promotedSyncRunId = [1] ∧
      NewestView ((Subject.machine "system_profile.read").complete profiledOnce.world.db.runs)
        (promotedRows (fun facts => facts) profiledOnce.world.db.profileObservations)
        (currentRows profiledOnce.world.db.profileCurrent) :=
  ⟨by decide +kernel, by decide +kernel,
    (projections_newest reach_profiledOnce
      (List.all_eq_true.mp (by decide +kernel))).1.2.2.2⟩

/-- A sync is checked, completes, and is then written as one without a profile. -/
def overwritten : ProjectionSystem plainText :=
  advance 1 2 (advance 2 2 ((advance 1 1 ((advance 0 2 (profiling.start (profileBegin 0))).start
    (profileFail 1 0))).start (profileComplete 1)))

theorem reach_overwritten :
    System.Reach ((projectionTransactions plainText).dynamics (IsProjectionMethod plainText))
      profiling overwritten :=
  reach_advance (reach_advance (reach_method (reach_advance (reach_method
    (reach_advance (reach_method .refl rfl) 0 2) rfl) 1 1) rfl) 2 2) 1 2

/-- A sync ends, and forty days later another one begins before the first has
read its run back. -/
def prunedReadBack : ProjectionSystem plainText :=
  advance 1 1 (advance 2 1 ((advance 1 2 ((advance 0 2 (profiling.start (profileBegin 0))).start
    (profileFail 1 0))).start (profileBegin 40)))

theorem reach_prunedReadBack :
    System.Reach ((projectionTransactions plainText).dynamics (IsProjectionMethod plainText))
      profiling prunedReadBack :=
  reach_advance (reach_advance (reach_method (reach_advance (reach_method
    (reach_advance (reach_method .refl rfl) 0 2) rfl) 1 2) rfl) 2 1) 1 1

/-- The current row of the first machine is of no complete run.  In the other run
the call that ended the first sync raises, and it has changed the runs. -/
theorem projections_newest_overwritten :
    (∃ s, System.Reach ((projectionTransactions plainText).dynamics (IsProjectionMethod plainText))
      profiling s ∧
      ¬NewestView ((Subject.machine "system_profile.read").complete s.world.db.runs)
        (promotedRows (fun facts => facts) s.world.db.profileObservations)
        (currentRows s.world.db.profileCurrent)) ∧
    ∃ s, System.Reach ((projectionTransactions plainText).dynamics (IsProjectionMethod plainText))
      profiling s ∧
      ∃ (i : Nat) (p : Proc (projectionTransactions plainText).sig Stored Exn ProjectionResult)
        (x : Exn), s.procs[i]? = some p ∧ p.killed = false ∧ p.prog = .raise x ∧
          ∃ m ∈ p.log, m.after.db ≠ m.before.db := by
  constructor
  · refine ⟨overwritten, reach_overwritten, fun hview => ?_⟩
    have hrows : (overwritten.world.db.profileCurrent.any fun c => c.subject == "m") = true := by
      decide +kernel
    have hnone : (overwritten.world.db.runs.rows.all fun r => r.status != .complete) = true := by
      decide +kernel
    obtain ⟨c, hc, hsubject⟩ := List.any_eq_true.mp hrows
    obtain ⟨k, hgreatest, _⟩ := (hview "m" c).mp ⟨hc, beq_iff_eq.mp hsubject⟩
    obtain ⟨r, hr, _, _, _, hcomplete⟩ := hgreatest.1
    have hne := List.all_eq_true.mp hnone r hr
    simp [hcomplete] at hne
  · have hraised : (prunedReadBack.procs[1]?.any fun p => !p.killed &&
        (match p.prog with | .raise _ => true | _ => false) &&
        p.log.any fun m => m.after.db.runs.rows != m.before.db.runs.rows) = true := by
      decide +kernel
    refine ⟨prunedReadBack, reach_prunedReadBack, 1, ?_⟩
    cases hp : prunedReadBack.procs[1]? with
    | none => simp [hp] at hraised
    | some p =>
      obtain ⟨prog, log, killed⟩ := p
      simp only [hp, Option.any_some, Bool.and_eq_true, Bool.not_eq_true'] at hraised
      obtain ⟨⟨hkilled, hprog⟩, hlog⟩ := hraised
      cases prog with
      | ret => simp at hprog
      | call => simp at hprog
      | raise x =>
        obtain ⟨m, hm, hne⟩ := List.any_eq_true.mp hlog
        refine ⟨_, x, rfl, hkilled, rfl, m, hm, fun heq => ?_⟩
        simp [heq] at hne

end SteamAgent.Storage
