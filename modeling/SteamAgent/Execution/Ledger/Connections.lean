import SteamAgent.Execution.Ledger.History

/-!
# Any number of connections

Every method of the ledger, run by any number of connections in any order,
keeps the invariant.

There are four groups.

* `Rely`, what a connection may assume of the others: an opened ledger stays
  open, its nonces stay its own, and a nonce it has not inserted yet is
  inserted by nobody.
* `ledgerRules`, and one lemma for each method: its blocks are legal.
* `discipline`, the obligations of the rule for parallel processes.
* `quietRules`, what a method that raises leaves behind, and
  `ledger_invariants`.
-/

namespace SteamAgent.Execution.Ledger

open Effects

/-- No row carries the nonce. -/
def Unused (nonce : String) (w : LedgerWorld) : Prop :=
  ∀ r ∈ w.db.operations, r.nonce ≠ some nonce

/-- What connection `i` may assume of the others. -/
structure Rely (i : Nat) (w w' : LedgerWorld) : Prop where
  opened : w.db.opened = true → w'.db.opened = true
  minted : ∀ n, (n, i) ∈ w.minted → (n, i) ∈ w'.minted
  unused : ∀ n, (n, i) ∈ w.minted → Unused n w → Unused n w'

theorem Rely.refl (i : Nat) (w : LedgerWorld) : Rely i w w :=
  ⟨fun h => h, fun _ h => h, fun _ _ h => h⟩

theorem Rely.trans {i : Nat} {u v w : LedgerWorld} (h : Rely i u v) (h' : Rely i v w) :
    Rely i u w where
  opened ho := h'.opened (h.opened ho)
  minted n hn := h'.minted n (h.minted n hn)
  unused n hn hu := h'.unused n (h.minted n hn) (h.unused n hn hu)

/-- The move is an insert, committed or not. -/
def inserts (m : Move LedgerSig LedgerWorld) : Bool :=
  match m.call with
  | .transaction (.insert ..) => true
  | _ => false

/-- What connection `i` assumes and keeps: every block it enters is legal, and
it enters the insert once at most. -/
def ledgerRules (i : Nat) : Rules LedgerSig LedgerWorld where
  perform w c a w' := Inv w ∧ LedgerCall.perform i w c a w'
  rely := Rely i
  guar l m := (∀ t, m.call = .transaction t → t.Legal i m.before) ∧
    (inserts m = true → l.countP inserts = 0)
  rely_refl := Rely.refl i
  rely_trans := Rely.trans

/-! ## One call -/

/-- An opened ledger stays open. -/
theorem Outcome.opened {i : Nat} {w : LedgerWorld} {db : Db} (ho : Outcome i w db)
    (h : w.db.opened = true) : db.opened = true := by
  cases ho with
  | same _ _ hopened _ => exact hopened h
  | amend _ _ _ _ _ hopened _ => exact hopened.trans h
  | insert _ _ _ _ _ _ _ _ hopened _ => exact hopened.trans h

/-- A connection inserts its own nonces only. -/
theorem Outcome.unused {i j : Nat} {w : LedgerWorld} {db : Db} {n : String} (h : Inv w)
    (ho : Outcome i w db) (hij : i ≠ j) (hn : (n, j) ∈ w.minted) (hu : Unused n w) :
    Unused n ⟨db, w.minted⟩ := by
  cases ho with
  | same hops => simpa only [Unused, hops] using hu
  | amend g es ha hops =>
    intro r hr
    simp only [hops] at hr
    obtain ⟨q, hq, rfl⟩ := List.mem_map.mp hr
    rcases ha.nonce q hq with hg | hg <;> rw [hg]
    · exact hu q hq
    · simp
  | insert args operation nonce expires hlegal hfree hops =>
    intro r hr
    simp only [hops, List.mem_append, List.mem_singleton] at hr
    rcases hr with hr | rfl
    · exact hu r hr
    · rintro heq
      obtain rfl : nonce = n := Option.some.inj heq
      have hsame := List.inj_on_of_nodup_map h.minted hlegal.2.1 hn rfl
      exact hij (Prod.mk.inj hsame).2

/-- What a call may do to the database: a legal block, or nothing. -/
theorem perform_outcome {i : Nat} {w w' : LedgerWorld} {c : LedgerCall} {a : c.Ans} (h : Inv w)
    (hc : LedgerCall.perform i w c a w') (hl : ∀ t, c = .transaction t → t.Legal i w) :
    Outcome i w w'.db := by
  cases c with
  | utcnow =>
    obtain rfl : w' = w := hc
    exact .unchanged h
  | tokenHex =>
    obtain ⟨hn, rfl⟩ := hc
    exact .unchanged h
  | selectOperation id =>
    obtain ⟨rfl, _⟩ := hc
    exact .unchanged h
  | selectActive =>
    obtain ⟨rfl, _⟩ := hc
    exact .unchanged h
  | transaction t =>
    rcases hc with ⟨_, rfl⟩ | ⟨_, rfl⟩
    · exact Txn.outcome h (hl t rfl)
    · exact .unchanged h

/-- A call mints one nonce or none. -/
theorem perform_minted {i : Nat} {w w' : LedgerWorld} {c : LedgerCall} {a : c.Ans}
    (hc : LedgerCall.perform i w c a w') :
    w'.minted = w.minted ∨
      w'.db = w.db ∧ ∃ n, n ∉ w.minted.map Prod.fst ∧ w'.minted = (n, i) :: w.minted := by
  cases c with
  | utcnow =>
    obtain rfl : w' = w := hc
    exact Or.inl rfl
  | tokenHex =>
    obtain ⟨hn, rfl⟩ := hc
    exact Or.inr ⟨rfl, a, hn, rfl⟩
  | selectOperation id =>
    obtain ⟨rfl, _⟩ := hc
    exact Or.inl rfl
  | selectActive =>
    obtain ⟨rfl, _⟩ := hc
    exact Or.inl rfl
  | transaction t =>
    rcases hc with ⟨_, rfl⟩ | ⟨_, rfl⟩ <;> exact Or.inl rfl

/-- Every call keeps the invariant when the blocks are legal. -/
theorem Inv.perform {i : Nat} {w w' : LedgerWorld} {c : LedgerCall} {a : c.Ans} (h : Inv w)
    (hc : LedgerCall.perform i w c a w') (hl : ∀ t, c = .transaction t → t.Legal i w) :
    Inv w' := by
  have hout := h.outcome (perform_outcome h hc hl)
  rcases perform_minted hc with hm | ⟨hdb, n, hn, hm⟩
  · rw [← hm] at hout
    exact hout
  · have heq : w' = { w with minted := (n, i) :: w.minted } := by
      rw [← hdb, ← hm]
    rw [heq]
    exact h.mint hn

/-- The others may assume a legal call. -/
theorem rely_perform {i j : Nat} (hij : i ≠ j) {w w' : LedgerWorld} {c : LedgerCall} {a : c.Ans}
    (h : Inv w) (hc : LedgerCall.perform i w c a w')
    (hl : ∀ t, c = .transaction t → t.Legal i w) : Rely j w w' where
  opened := (perform_outcome h hc hl).opened
  minted n hn := by
    rcases perform_minted hc with hm | ⟨_, m, _, hm⟩ <;> rw [hm]
    · exact hn
    · exact List.mem_cons_of_mem _ hn
  unused n hn hu := by
    have hout := (perform_outcome h hc hl).unused h hij hn hu
    exact fun r hr => hout r hr

/-! ## The methods are legal -/

variable {i : Nat} {l : List (Move LedgerSig LedgerWorld)} {w : LedgerWorld}

/-- A method without an insert, all of whose blocks are legal wherever they
run. -/
theorem safe_of_legal {α : Type} {p : Method α}
    (hp : p.Calls fun c : LedgerCall => ∀ t, c = .transaction t →
      (∀ w, Txn.Legal i w t) ∧ ∀ args operation nonce expires,
        t ≠ .insert args operation nonce expires) :
    Safe (ledgerRules i) (fun _ _ _ => True) (fun _ _ _ => True) p l w := by
  refine Safe.of_calls (P := fun _ _ => True) (fun _ _ _ _ _ => trivial) ?_ hp trivial
  refine fun l w c a w' hc _ _ => ⟨⟨fun t ht => (hc t ht).1 w, fun hins => ?_⟩, trivial⟩
  unfold inserts at hins
  split at hins
  · rename_i heq
    exact absurd rfl ((hc _ heq).2 _ _ _ _)
  · simp at hins

theorem calls_transaction {t : Txn} {D : LedgerCall → Prop} (h : D (.transaction t)) :
    (transaction t).Calls D := by
  refine Prog.Calls.bind ((Prog.calls_ask _).mpr h) fun a => ?_
  cases a <;> trivial

theorem calls_get {id : Nat} {D : LedgerCall → Prop} (h : D (.selectOperation id)) :
    (get id).Calls D := by
  refine Prog.Calls.bind ((Prog.calls_ask _).mpr h) fun a => ?_
  rcases a with x | _ | r <;> trivial

theorem calls_expireLapsed {D : LedgerCall → Prop} (hnow : D .utcnow)
    (h : ∀ now, D (.transaction (.expire now))) : expireLapsed.Calls D :=
  Prog.Calls.bind ((Prog.calls_ask _).mpr hnow) fun now => calls_transaction (h now)

theorem calls_transition {id : Nat} {toState : OperationState} {detail : Option String}
    {prior : Option Bool} {expectedFrom : Option OperationState} {D : LedgerCall → Prop}
    (hget : D (.selectOperation id))
    (h : ∀ s, toState ∈ transitions s → D (.transaction (.update id s toState detail prior))) :
    (transition id toState detail prior expectedFrom).Calls D := by
  refine Prog.Calls.bind (calls_get hget) fun r => ?_
  split
  · trivial
  · split
    · trivial
    · rename_i hc
      refine calls_transaction (h _ ?_)
      simpa using hc

/-- The connection holds a nonce that is in no row yet. -/
def Ready (i : Nat) (nonce : String) (w : LedgerWorld) : Prop :=
  w.db.opened = true ∧ (nonce, i) ∈ w.minted ∧ Unused nonce w

theorem Ready.rely {nonce : String} {w' : LedgerWorld} (h : Ready i nonce w) (hw : Rely i w w') :
    Ready i nonce w' :=
  ⟨hw.opened h.1, hw.minted _ h.2.1, hw.unused _ h.2.1 h.2.2⟩

/-- Expiring rows leaves their nonces as they are. -/
theorem Ready.expire {nonce : String} (h : Ready i nonce w) (hinv : Inv w) (now : Stamp) :
    Ready i nonce { w with db := (Txn.run w.db (.expire now)).2 } := by
  refine ⟨(Txn.outcome (i := i) (t := .expire now) hinv trivial).opened h.1, h.2.1, ?_⟩
  have htables : w.db.tables = true := by
    have ho := h.1
    simp only [Db.opened, Bool.and_eq_true] at ho
    exact ho.1.1
  intro r hr
  simp only [Txn.run, htables, if_true, Txn.runExpire] at hr
  rcases Db.commit_cases w.db _ _ with ⟨_, h2, _⟩ | ⟨_, h2⟩ <;> rw [h2] at hr
  · obtain ⟨q, hq, rfl⟩ := List.mem_map.mp hr
    have hnonce := h.2.2 q hq
    split <;> exact hnonce
  · exact h.2.2 r hr

theorem safe_expire_ready {nonce : String} (h : Ready i nonce w) (hl : l.countP inserts = 0) :
    Safe (ledgerRules i) (fun _ l v => Ready i nonce v ∧ l.countP inserts = 0)
      (fun _ _ _ => True) expireLapsed l w := by
  refine Safe.mono (fun _ _ _ hr => hr) (fun _ _ _ _ => trivial)
    (Safe.of_calls (D := fun c : LedgerCall => c = .utcnow ∨ ∃ now, c = .transaction (.expire now))
      (P := fun l v => Ready i nonce v ∧ l.countP inserts = 0)
      (fun _ _ _ hr hw => ⟨hr.1.rely hw, hr.2⟩) ?_
      (calls_expireLapsed (Or.inl rfl) fun now => Or.inr ⟨now, rfl⟩) ⟨h, hl⟩)
  rintro l v c a v' (rfl | ⟨now, rfl⟩) ⟨hr, hl⟩ ⟨hinv, hc⟩
  · obtain rfl : v' = v := hc
    exact ⟨⟨fun t ht => by simp at ht, fun hi => by simp [inserts] at hi⟩, hr,
      (List.countP_cons_of_neg (by simp [inserts])).trans hl⟩
  · refine ⟨⟨fun t ht => ?_, fun hi => by simp [inserts] at hi⟩, ?_,
      (List.countP_cons_of_neg (by simp [inserts])).trans hl⟩
    · obtain rfl : Txn.expire now = t := LedgerCall.transaction.inj ht
      trivial
    · rcases hc with ⟨_, rfl⟩ | ⟨_, rfl⟩
      · exact hr.expire hinv now
      · exact hr

/-- `request` inserts the nonce it minted, on an opened ledger. -/
theorem safe_request (args : RequestArgs) (hw : w.db.opened = true) (hl : l.countP inserts = 0) :
    Safe (ledgerRules i) (fun _ _ _ => True) (fun _ _ _ => True) (request args) l w := by
  unfold request
  split
  · exact fun _ _ => trivial
  rename_i operation _
  refine Safe.ask fun w₁ hw₁ nonce w₂ hmint =>
    ⟨⟨fun t ht => by simp at ht, fun hi => by simp [inserts] at hi⟩, ?_⟩
  obtain ⟨hinv, hnew, rfl⟩ := hmint
  have hready : Ready i nonce { w₁ with minted := (nonce, i) :: w₁.minted } :=
    ⟨hw₁.opened hw, List.mem_cons_self, fun r hr he => hnew (hinv.nonceMinted r hr nonce he)⟩
  refine Safe.seq (safe_expire_ready hready
    ((List.countP_cons_of_neg (by simp [inserts])).trans hl)) fun _ l w₃ ⟨h₃, hl₃⟩ => ?_
  refine Safe.ask fun w₄ hw₄ now w₅ hnow =>
    ⟨⟨fun t ht => by simp at ht, fun hi => by simp [inserts] at hi⟩, ?_⟩
  obtain ⟨_, rfl : w₅ = w₄⟩ := hnow
  refine Safe.bind (Safe.attempt (Safe.ask fun w₆ hw₆ a w₇ _ =>
    ⟨⟨fun t ht => ?_, fun _ => ?_⟩, ?_⟩))
  · obtain rfl := LedgerCall.transaction.inj ht
    exact (h₃.rely hw₄).rely hw₆
  · exact (List.countP_cons_of_neg (by simp [inserts])).trans hl₃
  · cases a with
    | ok id => exact fun _ _ _ _ => trivial
    | error x => cases x <;> exact fun _ _ _ _ => trivial

/-- Every call that a connection issues is legal. -/
theorem safe_program {m : LedgerMethod} (hm : m = .connect ∨ w.db.opened = true) :
    Safe (ledgerRules i) (fun _ _ _ => True) (fun _ _ _ => True) m.program [] w := by
  cases m with
  | connect =>
    refine safe_of_legal (Prog.Calls.bind (calls_transaction fun t ht => ?_) fun _ =>
      Prog.Calls.bind (calls_transaction fun t ht => ?_) fun _ =>
      calls_transaction fun t ht => ?_) <;>
    · obtain rfl := LedgerCall.transaction.inj ht
      exact ⟨fun _ => trivial, fun _ _ _ _ => Txn.noConfusion⟩
  | request args =>
    refine Safe.bind (Safe.imp (fun _ _ _ _ => ?_) (safe_request args ?_ rfl))
    · exact fun _ _ => trivial
    · simpa using hm
  | confirm nonce actor window =>
    refine safe_of_legal (Prog.Calls.bind (Prog.Calls.bind ((Prog.calls_ask _).mpr ?_) fun now =>
      calls_transaction fun t ht => ?_) fun _ => trivial)
    · exact fun t ht => by simp at ht
    · obtain rfl := LedgerCall.transaction.inj ht
      exact ⟨fun _ => trivial, fun _ _ _ _ => Txn.noConfusion⟩
  | transition id toState detail prior expectedFrom =>
    refine safe_of_legal (calls_transition (fun t ht => by simp at ht) fun s hs t ht => ?_)
    obtain rfl := LedgerCall.transaction.inj ht
    exact ⟨fun _ => hs, fun _ _ _ _ => Txn.noConfusion⟩
  | expireLapsed =>
    refine safe_of_legal (Prog.Calls.bind (calls_expireLapsed (fun t ht => by simp at ht)
      fun now t ht => ?_) fun _ => trivial)
    obtain rfl := LedgerCall.transaction.inj ht
    exact ⟨fun _ => trivial, fun _ _ _ _ => Txn.noConfusion⟩

/-! ## Interleavings -/

/-- The rule for parallel processes, for the connections of one ledger. -/
def discipline : Discipline connections where
  Inv := Inv
  rules := ledgerRules
  onReturn _ _ _ _ := True
  onRaise _ _ _ _ := True
  performs h hc := ⟨h, hc⟩
  inv_move h hc hg := h.perform hc hg.1
  rely_move hij h hc hg := rely_perform hij h hc hg.1
  inv_drift _ hd := hd.elim
  rely_drift _ hd _ _ := hd.elim
  inv_kill h := h
  rely_kill _ _ := Rely.refl _ _
  starts _ hp := by
    obtain ⟨m, rfl, hm⟩ := hp
    exact safe_program hm

theorem good_of_reach {s : System LedgerSig LedgerWorld Exn Unit}
    (h : System.Reach connections noLedger s) : discipline.Good s :=
  Discipline.reach inv_empty h

/-! ## Methods that raise -/

/-- A result that leaves the database as it was, if it is an exception. -/
def RollsBack {α : Type} (db : Db) (r : Except Exn α × Db) : Prop :=
  ∀ x, r.1 = .error x → r.2 = db

theorem rollsBack_error {α : Type} (db : Db) (x : Exn) :
    RollsBack (α := α) db (.error x, db) :=
  fun _ _ => rfl

theorem rollsBack_commit {α : Type} (db db' : Db) (a : α) : RollsBack db (db.commit db' a) := by
  intro x hx
  rcases Db.commit_cases db db' a with ⟨h1, _⟩ | ⟨_, h2⟩
  · rw [h1] at hx
    simp at hx
  · exact h2

/-- A block that raises rolls back. -/
theorem Txn.rollsBack (t : Txn) (db : Db) : RollsBack db (t.run db) := by
  cases t with
  | createTables => exact fun x hx => by simp [Txn.run] at hx
  | rebuildActiveIndex =>
    simp only [Txn.run]
    split
    · exact rollsBack_commit _ _ _
    · exact rollsBack_error _ _
  | createPlanKeyIndex =>
    simp only [Txn.run]
    split
    · exact rollsBack_commit _ _ _
    · exact rollsBack_error _ _
  | insert args operation nonce expires =>
    simp only [Txn.run, Txn.runInsert]
    split
    · split
      · exact rollsBack_error _ _
      · exact rollsBack_commit _ _ _
    · exact rollsBack_error _ _
  | consume nonce actor window now =>
    simp only [Txn.run, Txn.runConsume]
    split
    · split
      · exact rollsBack_error _ _
      · exact rollsBack_commit _ _ _
    · exact rollsBack_error _ _
  | update id s t detail prior =>
    simp only [Txn.run, Txn.runUpdate]
    split
    · split
      · exact rollsBack_error _ _
      · exact rollsBack_commit _ _ _
    · exact rollsBack_error _ _
  | expire now =>
    simp only [Txn.run, Txn.runExpire]
    split
    · exact rollsBack_commit _ _ _
    · exact rollsBack_error _ _

/-- The move left rows and events alone, or is the expiry inside `request`. -/
def Quiet (m : LedgerMethod) (mv : Move LedgerSig LedgerWorld) : Prop :=
  mv.after.db.operations = mv.before.db.operations ∧ mv.after.db.events = mv.before.db.events ∨
    ∃ args now, m = .request args ∧ mv.call = .transaction (.expire now)

theorem Quiet.of_db {m : LedgerMethod} {mv : Move LedgerSig LedgerWorld}
    (h : mv.after.db = mv.before.db) : Quiet m mv :=
  Or.inl ⟨by rw [h], by rw [h]⟩

theorem quiet_of_not_transaction {m : LedgerMethod} {v v' : LedgerWorld} {c : LedgerCall}
    {a : c.Ans} (h : LedgerCall.perform i v c a v') (hc : ∀ t, c ≠ .transaction t) :
    Quiet m ⟨v, c, a, v'⟩ := by
  refine .of_db ?_
  cases c with
  | utcnow => exact congrArg LedgerWorld.db h
  | tokenHex =>
    obtain ⟨_, rfl⟩ := h
    rfl
  | selectOperation id => exact congrArg LedgerWorld.db h.1
  | selectActive => exact congrArg LedgerWorld.db h.1
  | transaction t => exact absurd rfl (hc t)

/-- Nothing is assumed of the other connections, and nothing is kept. -/
def quietRules (i : Nat) : Rules LedgerSig LedgerWorld where
  perform := LedgerCall.perform i
  rely _ _ := True
  guar _ _ := True
  rely_refl _ := trivial
  rely_trans _ _ := trivial

/-- All moves so far are quiet. -/
def AllQuiet (m : LedgerMethod) (l : List (Move LedgerSig LedgerWorld)) : Prop :=
  ∀ mv ∈ l, Quiet m mv

theorem AllQuiet.cons {m : LedgerMethod} {mv : Move LedgerSig LedgerWorld} (hl : AllQuiet m l)
    (h : Quiet m mv) : AllQuiet m (mv :: l) :=
  List.forall_mem_cons.mpr ⟨h, hl⟩

/-- A block that raises is quiet. -/
theorem safe_quiet_transaction {m : LedgerMethod} (t : Txn) (hl : AllQuiet m l) :
    Safe (quietRules i) (fun _ _ _ => True) (fun _ l _ => AllQuiet m l) (transaction t) l w := by
  refine Safe.ask fun w₁ _ a w₂ hc => ⟨trivial, ?_⟩
  cases a with
  | ok a => exact fun _ _ => trivial
  | error x =>
    refine fun _ _ => hl.cons (.of_db ?_)
    rcases hc with ⟨ha, rfl⟩ | ⟨_, rfl⟩
    · exact t.rollsBack w₁.db x ha.symm
    · rfl

/-- A program whose blocks are quiet, raising or not. -/
theorem safe_quiet_of_calls {m : LedgerMethod} {α : Type} {p : Method α}
    (hp : p.Calls fun c : LedgerCall => ∀ t, c = .transaction t →
      (∃ args now, m = .request args ∧ t = .expire now) ∨
        ∀ db, (Txn.run db t).2.operations = db.operations ∧ (Txn.run db t).2.events = db.events)
    (hl : AllQuiet m l) :
    Safe (quietRules i) (fun _ l _ => AllQuiet m l) (fun _ l _ => AllQuiet m l) p l w := by
  refine Safe.of_calls (P := fun l _ => AllQuiet m l) (fun _ _ _ h _ => h) ?_ hp hl
  refine fun l v c a v' hD hl hc => ⟨trivial, hl.cons ?_⟩
  by_cases ht : ∃ t, c = .transaction t
  · obtain ⟨t, rfl⟩ := ht
    rcases hD t rfl with ⟨args, now, rfl, rfl⟩ | hsame
    · exact Or.inr ⟨args, now, rfl, rfl⟩
    · rcases hc with ⟨_, rfl⟩ | ⟨_, rfl⟩
      · exact Or.inl (hsame v.db)
      · exact .of_db rfl
  · exact quiet_of_not_transaction hc fun t h => ht ⟨t, h⟩

/-- The three blocks of `_migrate` touch neither rows nor events. -/
theorem run_migrate (db : Db) {t : Txn}
    (ht : t = .createTables ∨ t = .rebuildActiveIndex ∨ t = .createPlanKeyIndex) :
    (Txn.run db t).2.operations = db.operations ∧ (Txn.run db t).2.events = db.events := by
  rcases ht with rfl | rfl | rfl
  · exact ⟨rfl, rfl⟩
  · simp only [Txn.run, Db.commit]
    split
    · split <;> exact ⟨rfl, rfl⟩
    · exact ⟨rfl, rfl⟩
  · simp only [Txn.run, Db.commit]
    split
    · split <;> exact ⟨rfl, rfl⟩
    · exact ⟨rfl, rfl⟩

theorem safe_quiet (m : LedgerMethod) :
    Safe (quietRules i) (fun _ _ _ => True) (fun _ l _ => AllQuiet m l) m.program [] w := by
  have hnil : AllQuiet m [] := fun mv hmv => by simp at hmv
  cases m with
  | connect =>
    refine Safe.imp (fun _ _ _ _ => trivial) (safe_quiet_of_calls
      (Prog.Calls.bind (calls_transaction fun t ht => ?_) fun _ =>
        Prog.Calls.bind (calls_transaction fun t ht => ?_) fun _ =>
        calls_transaction fun t ht => ?_) hnil) <;>
    · obtain rfl := LedgerCall.transaction.inj ht
      exact Or.inr fun db => run_migrate db (by simp)
  | request args =>
    refine Safe.bind (Safe.imp (Q := fun _ _ _ => True) (fun _ _ _ _ => fun _ _ => trivial) ?_)
    unfold request
    split
    · exact fun _ _ => hnil
    refine Safe.ask fun w₁ _ nonce w₂ hc => ⟨trivial, ?_⟩
    have h₁ : AllQuiet (.request args) [⟨w₁, .tokenHex, nonce, w₂⟩] :=
      hnil.cons (quiet_of_not_transaction (i := i) hc fun t ht => by simp at ht)
    refine Safe.seq (safe_quiet_of_calls (calls_expireLapsed (fun t ht => by simp at ht)
      fun now t ht => Or.inl ⟨args, now, rfl, (LedgerCall.transaction.inj ht).symm⟩) h₁)
      fun _ l _ h₂ => ?_
    refine Safe.ask fun w₃ _ now w₄ hc => ⟨trivial, ?_⟩
    have h₃ := h₂.cons (quiet_of_not_transaction (i := i) (c := .utcnow) (a := now) hc
      fun t ht => by simp at ht)
    refine Safe.bind (Safe.attempt (Safe.mono (fun _ _ _ _ => fun _ _ => trivial) ?_
      (safe_quiet_transaction _ h₃)))
    intro x l w hl
    cases x <;> exact fun _ _ => hl
  | confirm nonce actor window =>
    refine Safe.bind (Safe.imp (Q := fun _ _ _ => True) (fun _ _ _ _ => fun _ _ => trivial) ?_)
    refine Safe.ask fun w₁ _ now w₂ hc => ⟨trivial, safe_quiet_transaction _ ?_⟩
    exact hnil.cons (quiet_of_not_transaction (i := i) hc fun t ht => by simp at ht)
  | transition id toState detail prior expectedFrom =>
    refine Safe.seq (safe_quiet_of_calls (calls_get fun t ht => by simp at ht) hnil)
      fun r l w hl => ?_
    split
    · exact fun _ _ => hl
    · split
      · exact fun _ _ => hl
      · exact safe_quiet_transaction _ hl
  | expireLapsed =>
    refine Safe.bind (Safe.imp (Q := fun _ _ _ => True) (fun _ _ _ _ => fun _ _ => trivial) ?_)
    refine Safe.ask fun w₁ _ now w₂ hc => ⟨trivial, safe_quiet_transaction _ ?_⟩
    exact hnil.cons (quiet_of_not_transaction (i := i) hc fun t ht => by simp at ht)

/-! ## The ledger over every run -/

/-- A step of the connections makes one legal call, or none. -/
theorem Step.outcome {s s' : System LedgerSig LedgerWorld Exn Unit}
    (h : System.Reach connections noLedger s) (hs : System.Step connections s s') :
    ∃ i, Outcome i s.world s'.world.db := by
  have hgood := good_of_reach h
  cases hs with
  | start _ => exact ⟨0, .unchanged hgood.inv⟩
  | @move i c k l a w' hi hc =>
    have hg := (hgood.kept i _ hi).safe rfl s.world (Rely.refl _ _) a w' ⟨hgood.inv, hc⟩
    exact ⟨i, perform_outcome hgood.inv hc hg.1.1⟩
  | kill _ _ => exact ⟨0, .unchanged hgood.inv⟩
  | drift hd => exact hd.elim

/-- Whatever the connections do, the ledger evolves. -/
theorem evolves_of_reach {s s' : System LedgerSig LedgerWorld Exn Unit}
    (h : System.Reach connections noLedger s) (hr : System.Reach connections s s') :
    Evolves s.world.db s'.world.db := by
  induction hr with
  | refl => exact .refl _
  | tail hr hs ih =>
    obtain ⟨i, ho⟩ := Step.outcome (h.trans hr) hs
    exact ih.trans ho.evolves

/-- Every reachable ledger: one active row for a machine, one live row for a
plan key, and for each row a path of recorded changes that ends in its state.
Every step records the change it makes, terminal rows stay as they are, and a
call that raises changed nothing but what the expiry inside `request`
committed. -/
theorem ledger_invariants {s : System LedgerSig LedgerWorld Exn Unit}
    (h : System.Reach connections noLedger s) :
    OneActivePerMachine s.world.db ∧ OneLivePerPlanKey s.world.db ∧
    (∀ r ∈ s.world.db.operations, EventPath (s.world.db.eventsOf r.operationId) r.state) ∧
    (∀ s', System.Step connections s s' → Records s.world.db s'.world.db) ∧
    (∀ s', System.Reach connections s s' → ∀ r ∈ s.world.db.operations,
      r.state.terminal = true → r ∈ s'.world.db.operations) ∧
    ∀ i (m : LedgerMethod) l x w w',
      Run (LedgerCall.perform i) (fun _ _ => True) m.program w l (.raise x) w' →
        ∀ mv ∈ l, Quiet m mv := by
  have hinv := (good_of_reach h).inv
  refine ⟨hinv.active, hinv.live, hinv.paths, fun s' hs => ?_, fun s' hr => ?_,
    fun i m l x w w' hrun => ?_⟩
  · obtain ⟨i, ho⟩ := Step.outcome h hs
    exact hinv.records ho
  · exact (evolves_of_reach h hr).terminal
  · have hsafe := ((safe_quiet (i := i) (w := w) m).run hrun).of_raise
    rwa [List.append_nil] at hsafe

/-! ## A run -/

/-- A nonce longer than all nonces before it. -/
def freshNonce (used : List String) : String :=
  String.ofList (List.replicate ((used.map String.length).foldr max 0 + 1) '0')

theorem freshNonce_not_mem (used : List String) : freshNonce used ∉ used := by
  intro h
  have hle := le_foldr_max (List.mem_map_of_mem (f := String.length) h)
  simp only [freshNonce, String.length_ofList, List.length_replicate] at hle
  omega

/-- A ledger that answers every call of connection `i`, at a fixed time. -/
def answers (i : Nat) (clock : Stamp) : Oracle LedgerSig LedgerWorld
  | w, .utcnow => (clock, w)
  | w, .tokenHex =>
    let nonce := freshNonce (w.minted.map Prod.fst)
    (nonce, { w with minted := (nonce, i) :: w.minted })
  | w, .selectOperation id => (.ok (w.db.find id), w)
  | w, .selectActive =>
    (.ok ((w.db.operations.find? fun r => !r.state.terminal).map Row.operationId), w)
  | w, .transaction t => ((t.run w.db).1, { w with db := (t.run w.db).2 })

theorem perform_answers (i : Nat) (clock : Stamp) (w : LedgerWorld) (c : LedgerCall) :
    LedgerCall.perform i w c (answers i clock w c).1 (answers i clock w c).2 := by
  cases c with
  | utcnow => exact rfl
  | tokenHex => exact ⟨freshNonce_not_mem _, rfl⟩
  | selectOperation id => exact ⟨rfl, Or.inl rfl⟩
  | selectActive =>
    refine ⟨rfl, ?_⟩
    cases hf : w.db.operations.find? fun r => !r.state.terminal with
    | none =>
      refine Or.inr (Or.inl ⟨fun r hr => ?_, by simp [answers, hf]⟩)
      simpa using List.find?_eq_none.mp hf r hr
    | some r =>
      refine Or.inl ⟨r, List.mem_of_find?_eq_some hf, ?_, by simp [answers, hf]⟩
      simpa using List.find?_some hf
  | transaction t => exact Or.inl ⟨rfl, rfl⟩

/-- Start one more connection with the call `m` and let it finish. -/
def callNext (clock : Stamp) (m : LedgerMethod) (s : System LedgerSig LedgerWorld Exn Unit) :
    System LedgerSig LedgerWorld Exn Unit :=
  (s.start m.program).moves (answers s.procs.length clock) s.procs.length 5

theorem reach_callNext {s₀ s : System LedgerSig LedgerWorld Exn Unit}
    (h : System.Reach connections s₀ s) (clock : Stamp) {m : LedgerMethod}
    (hm : m = .connect ∨ s.world.db.opened = true) :
    System.Reach connections s₀ (callNext clock m s) :=
  (h.start ⟨m, rfl, hm⟩).moves (perform_answers _ clock) 5

/-- An install of the app 620. -/
def portal : RequestArgs where
  planKey := "key"
  planDocument := []
  operation := "install"
  appid := 620
  accountAlias := "main"
  machineId := "machine"
  policyVersion := "1"
  nonceTtlSeconds := 600

/-- An opened ledger with one requested operation. -/
def requested : System LedgerSig LedgerWorld Exn Unit :=
  callNext 1000 (.request portal) (callNext 1000 .connect noLedger)

theorem reach_requested : System.Reach connections noLedger requested :=
  reach_callNext (reach_callNext .refl 1000 (Or.inl rfl)) 1000 (Or.inr (by decide))

/-- The requested operation after its confirmation. -/
def confirmed : System LedgerSig LedgerWorld Exn Unit :=
  callNext 1000 (.confirm "0" "owner" 900) requested

theorem reach_confirmed : System.Reach connections requested confirmed :=
  reach_callNext .refl 1000 (Or.inr (by decide))

theorem ledger_invariants_requested :
    requested.world.db.operations.map Row.state = [.pendingConfirmation] ∧
    OneActivePerMachine requested.world.db ∧
    EventPath (requested.world.db.eventsOf 1) .pendingConfirmation ∧
    ∀ s', System.Step connections requested s' → Records requested.world.db s'.world.db := by
  have h := ledger_invariants reach_requested
  exact ⟨by decide, h.1, h.2.2.1 (portal.row .install 1 "0" 1600) (by decide), h.2.2.2.1⟩

end SteamAgent.Execution.Ledger
