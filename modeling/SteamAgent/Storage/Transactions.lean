import SteamAgent.Effects.System
import SteamAgent.Storage.Tables

/-!
# Processes on one database

Any number of processes call storage methods on one database.  A process reads
its clock, runs transactions and may be killed at any point.  A transaction is
atomic: it commits as a whole, or it raises and changes nothing.

`Transactions.reach_inv` is the induction over all interleavings, and
`Transactions.raised_of_safe` says what a process has done once it raised.
-/

namespace SteamAgent.Storage

open Datetime (Instant Aware)
open Effects (Sig Prog Move Dynamics System Oracle Proc Rules Safe Discipline)

/-- A family of transactions, each with what it returns. -/
structure Transactions where
  Txn : Type
  Reply : Txn → Type
  run : (t : Txn) → Db → Except Exn (Reply t × Db)

/-- The database, and the last reading of the clock. -/
structure Stored where
  db : Db
  clock : Instant

/-- Two families side by side. -/
def Transactions.sum (T U : Transactions) : Transactions where
  Txn := T.Txn ⊕ U.Txn
  Reply := Sum.elim T.Reply U.Reply
  run
    | .inl t => T.run t
    | .inr u => U.run u

/-- A transaction that replies with what it has read. -/
theorem eq_of_map_eq_ok {α : Type} {result : Except Exn α} {db db' : Db} {reply : α}
    (h : (result.map fun a => (a, db)) = .ok (reply, db')) : db' = db := by
  cases result with
  | error x => cases h
  | ok a => exact (Prod.mk.inj (Except.ok.inj h)).2.symm

namespace Transactions

variable (T : Transactions)

inductive Call where
  | now
  | transact (t : T.Txn)

def Ans : T.Call → Type
  | .now => Instant
  | .transact t => Except Exn (T.Reply t)

/-- The calls of a storage method. -/
abbrev sig : Sig := ⟨T.Call, T.Ans⟩

/-- Read the clock. -/
def now : Prog T.sig Exn Aware := do
  let reading ← Prog.ask (S := T.sig) Call.now
  return Aware.ofInstant reading

/-- Run a transaction, and raise what it raises. -/
def transact (t : T.Txn) : Prog T.sig Exn (T.Reply t) := do
  let reply ← Prog.ask (S := T.sig) (Call.transact t)
  Prog.ofExcept reply

/-- What a transaction answers, and the database after it. -/
def commit (t : T.Txn) (db : Db) : Except Exn (T.Reply t) × Db :=
  match T.run t db with
  | .ok (reply, db') => (.ok reply, db')
  | .error x => (.error x, db)

/-- Readings of the clock never go back. -/
def perform (_ : Nat) (w : Stored) : (c : T.Call) → T.Ans c → Stored → Prop
  | .now, reading, w' => w.clock ≤ reading ∧ w' = { w with clock := reading }
  | .transact t, reply, w' => (reply, w'.db) = T.commit t w.db ∧ w'.clock = w.clock

/-- Processes of the given methods. -/
def dynamics {α : Type} (methods : Prog T.sig Exn α → Prop) : Dynamics T.sig Stored Exn α where
  perform := T.perform
  mayStart _ p := methods p
  drift _ _ := False
  onKill _ w := w

variable {T}

/-- After a transaction the database is the old one, or the one it committed. -/
theorem commit_cases (t : T.Txn) (db : Db) :
    (T.commit t db).2 = db ∨ ∃ reply, T.run t db = .ok (reply, (T.commit t db).2) := by
  unfold commit
  split
  · rename_i reply db' h
    exact Or.inr ⟨reply, h⟩
  · exact Or.inl rfl

/-- The condition on a move that a condition on transactions gives. -/
def meets (condition : Db → T.Txn → Bool) (m : Move T.sig Stored) : Bool :=
  match m.call with
  | .now => true
  | .transact t => condition m.before.db t

/-- A property of the database that every transaction keeps, where it meets a
condition, holds along every run whose transactions all meet the condition. -/
theorem reach_inv {α : Type} {methods : Prog T.sig Exn α → Prop} (Inv : Db → Prop)
    {condition : Db → T.Txn → Bool}
    (hrun : ∀ t db reply db', Inv db → condition db t = true → T.run t db = .ok (reply, db') → Inv db')
    {s s' : System T.sig Stored Exn α} (h : System.Reach (T.dynamics methods) s s')
    (hs : Inv s.world.db) (hmeets : ∀ m ∈ s'.allMoves, meets condition m = true) : Inv s'.world.db := by
  refine System.Reach.world_inv (fun w => Inv w.db) (fun m => meets condition m = true) ?_ ?_ ?_
    h hs hmeets
  · rintro i ⟨w, c, a, w'⟩ hinv hp hm
    cases c with
    | now =>
      have hw : w' = { w with clock := a } := hp.2
      show Inv w'.db
      rw [hw]
      exact hinv
    | transact t =>
      obtain ⟨hcommit, _⟩ := hp
      have hdb : w'.db = (T.commit t w.db).2 := congrArg Prod.snd hcommit
      rcases commit_cases t w.db with hsame | ⟨reply, hok⟩
      · exact (hdb.trans hsame) ▸ hinv
      · rw [← hdb] at hok
        exact hrun t w.db reply w'.db hinv hm hok
  · intro s w' _ hd
    exact hd.elim
  · intro i w hinv
    exact hinv

theorem meets_true (m : Move T.sig Stored) : meets (fun _ _ => true) m = true := by
  unfold meets
  split <;> rfl

/-- A property of the database that every transaction keeps holds along every run. -/
theorem reach_always {α : Type} {methods : Prog T.sig Exn α → Prop} (Inv : Db → Prop)
    (hrun : ∀ t db reply db', Inv db → T.run t db = .ok (reply, db') → Inv db')
    {s s' : System T.sig Stored Exn α} (h : System.Reach (T.dynamics methods) s s')
    (hs : Inv s.world.db) : Inv s'.world.db :=
  reach_inv Inv (fun t db reply db' hinv _ hok => hrun t db reply db' hinv hok) h hs
    fun m _ => meets_true m

/-- Along every run whose transactions all meet the condition, the property held
before each move on record. -/
theorem moves_inv {α : Type} {methods : Prog T.sig Exn α → Prop} {Inv : Db → Prop}
    {condition : Db → T.Txn → Bool}
    (hrun : ∀ t db reply db', Inv db → condition db t = true → T.run t db = .ok (reply, db') → Inv db')
    {w : Stored} {s : System T.sig Stored Exn α}
    (h : System.Reach (T.dynamics methods) ⟨w, []⟩ s) (hw : Inv w.db)
    (hmeets : ∀ m ∈ s.allMoves, meets condition m = true) :
    ∀ m ∈ s.allMoves, Inv m.before.db ∧ T.perform 0 m.before m.call m.ans m.after := by
  induction h with
  | refl =>
    intro m hm
    simp [System.allMoves] at hm
  | @tail s₁ s₂ hr hstep ih =>
    rcases hstep.allMoves with ⟨hsame, _⟩ | ⟨_, _, m, _, hperm, hbefore, _, hp, _⟩
    · rw [hsame] at hmeets ⊢
      exact ih hmeets
    · have hmeets₁ : ∀ m ∈ s₁.allMoves, meets condition m = true := fun m' hm' =>
        hmeets m' (hperm.mem_iff.mpr (List.mem_cons_of_mem _ hm'))
      intro m' hm'
      rcases List.mem_cons.mp (hperm.mem_iff.mp hm') with rfl | hm'
      · refine ⟨?_, hp⟩
        rw [hbefore]
        exact reach_inv Inv hrun hr hw hmeets₁
      · exact ih hmeets₁ m' hm'

/-! ## What a process raises -/

variable (T) in
/-- A process that assumes nothing of the others. -/
def solitary : Rules T.sig Stored where
  perform := T.perform 0
  rely _ _ := True
  guar _ _ := True
  rely_refl _ := trivial
  rely_trans _ _ := trivial

/-- What every method guarantees of its exceptions, alone, holds in every
interleaving. -/
theorem raised_of_safe {α : Type} {methods : Prog T.sig Exn α → Prop}
    {X : Exn → List (Move T.sig Stored) → Prop}
    (hsafe : ∀ p w, methods p → Safe T.solitary (fun _ _ _ => True) (fun x l _ => X x l) p [] w)
    {w : Stored} {s : System T.sig Stored Exn α}
    (h : System.Reach (T.dynamics methods) ⟨w, []⟩ s) {i : Nat} {p : Proc T.sig Stored Exn α}
    (hi : s.procs[i]? = some p) (halive : p.killed = false) {x : Exn} (hx : p.prog = .raise x) :
    X x p.log := by
  let D : Discipline (T.dynamics methods) :=
    { Inv := fun _ => True
      rules := fun _ => T.solitary
      onReturn := fun _ _ _ _ => True
      onRaise := fun _ x l _ => X x l
      performs := fun _ hp => hp
      inv_move := fun _ _ _ => trivial
      rely_move := fun _ _ _ _ => trivial
      inv_drift := fun _ _ => trivial
      rely_drift := fun _ _ _ _ => trivial
      inv_kill := fun _ => trivial
      rely_kill := fun _ _ => trivial
      starts := fun _ hp => hsafe _ _ hp }
  have hgood : D.Good s := Discipline.reach (D := D) trivial h
  obtain ⟨_, hX⟩ := (hgood.kept i p hi).raised x halive hx
  exact hX

/-- A transaction and the rest of a method: it raises and changes nothing, or
commits. -/
theorem safe_transact {α : Type} {X : Exn → List (Move T.sig Stored) → Prop} {t : T.Txn}
    {k : T.Reply t → Prog T.sig Exn α} {l : List (Move T.sig Stored)} {w : Stored}
    (herror : ∀ w x, T.run t w.db = .error x → X x (⟨w, .transact t, .error x, w⟩ :: l))
    (hok : ∀ w reply w', T.run t w.db = .ok (reply, w'.db) →
      Safe T.solitary (fun _ _ _ => True) (fun x l _ => X x l) (k reply)
        (⟨w, .transact t, .ok reply, w'⟩ :: l) w') :
    Safe T.solitary (fun _ _ _ => True) (fun x l _ => X x l) (T.transact t >>= k) l w := by
  unfold transact
  rw [Prog.bind_assoc]
  refine Safe.ask fun w₁ _ reply w₂ hperform => ⟨trivial, ?_⟩
  obtain ⟨hcommit, hclock⟩ := hperform
  unfold commit at hcommit
  cases hrun : T.run t w₁.db with
  | error x =>
    rw [hrun] at hcommit
    obtain ⟨rfl, hdb⟩ := Prod.mk.inj hcommit
    have hw : w₂ = w₁ := by
      cases w₁
      cases w₂
      simp_all
    subst hw
    exact fun w' _ => herror w₂ x hrun
  | ok r =>
    rw [hrun] at hcommit
    obtain ⟨rfl, hdb⟩ := Prod.mk.inj hcommit
    exact hok w₁ r.1 w₂ (by rw [hrun, hdb])

/-! ## Concrete runs -/

/-- Every transaction runs, and the clock reads `reading` or what it read last,
whichever is later. -/
def answers (reading : Instant) : Oracle T.sig Stored
  | w, .now =>
    let reading := if w.clock ≤ reading then reading else w.clock
    (reading, { w with clock := reading })
  | w, .transact t => ((T.commit t w.db).1, { w with db := (T.commit t w.db).2 })

theorem perform_answers (reading : Instant) (i : Nat) (w : Stored) (c : T.Call) :
    T.perform i w c (answers reading w c).1 (answers reading w c).2 := by
  cases c with
  | now =>
    refine ⟨?_, rfl⟩
    show w.clock ≤ if w.clock ≤ reading then reading else w.clock
    split
    · assumption
    · exact Nat.le_refl _
  | transact t => exact ⟨rfl, rfl⟩

end Transactions

end SteamAgent.Storage
