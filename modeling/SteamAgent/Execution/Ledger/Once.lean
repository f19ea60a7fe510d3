import SteamAgent.Execution.Ledger.Connections

/-!
# At most one execution for a plan key

The safety of idempotency keys and confirmation nonces over whole runs of any
number of connections.

There are three groups.

* Nonces.  Each nonce is inserted once, by the connection that minted it.  A
  row carries it or a `confirm` consumed it, never both
  (`NonceLedger`, carried along every run).
* Requesting an expired key again: the run of `request` that does it.
* `one_execution_per_plan_key`.
-/

namespace SteamAgent.Execution.Ledger

open Effects

/-- The move inserts, or tries to insert, this nonce. -/
def insertsNonce (n : String) (m : Move LedgerSig LedgerWorld) : Bool :=
  match m.call with
  | .transaction (.insert _ _ nonce _) => nonce == n
  | _ => false

/-- The move is a `confirm` that consumed this nonce. -/
def consumes (n : String) : Move LedgerSig LedgerWorld → Bool
  | ⟨_, .transaction (.consume nonce _ _ _), .ok _, _⟩ => nonce == n
  | _ => false

/-- The operation went from `pending_confirmation` to `authorized`. -/
def Authorizes (db db' : Db) (id : Nat) : Prop :=
  db.stateOf id = some .pendingConfirmation ∧ db'.stateOf id = some .authorized

/-- The number of rows that carry a nonce. -/
def carriers (n : String) (db : Db) : Nat :=
  db.operations.countP fun r => r.nonce == some n

/-! ## Nonces -/

/-- A map that keeps a predicate false and makes it false once. -/
theorem countP_map_lt {α : Type} {p : α → Bool} {f : α → α} {l : List α}
    (hle : ∀ a ∈ l, p (f a) = true → p a = true) {a : α} (ha : a ∈ l) (hp : p a = true)
    (hf : p (f a) = false) : (l.map f).countP p + 1 ≤ l.countP p := by
  obtain ⟨s, t, rfl⟩ := List.append_of_mem ha
  have hs := List.countP_mono_left (l := s) (p := p ∘ f) (q := p) fun b hb =>
    hle b (List.mem_append_left _ hb)
  have ht := List.countP_mono_left (l := t) (p := p ∘ f) (q := p) fun b hb =>
    hle b (List.mem_append_right _ (List.mem_cons_of_mem _ hb))
  simp only [List.map_append, List.map_cons, List.countP_append, List.countP_cons, hp, hf,
    List.countP_map, if_true, if_false, Bool.false_eq_true]
  omega

theorem consumable_nonce {nonce : String} {now : Stamp} {r : Row}
    (h : consumable nonce now r = true) : r.nonce = some nonce ∧ r.state = .pendingConfirmation := by
  simp only [consumable, Bool.and_eq_true, beq_iff_eq] at h
  exact h.1

theorem carriers_map_le {n : String} {db db' : Db} {g : Row → Row}
    (hops : db'.operations = db.operations.map g)
    (hg : ∀ r, (g r).nonce = r.nonce ∨ (g r).nonce = none) : carriers n db' ≤ carriers n db := by
  rw [carriers, hops, List.countP_map]
  refine List.countP_mono_left fun r _ hr => ?_
  rcases hg r with h | h
  · simpa [h] using hr
  · simp [h] at hr

/-- An update clears nonces and moves none. -/
theorem carriers_commit_modify_le {α : Type} {n : String} {db : Db} {hit : Row → Bool}
    {change : Row → Row} {es : List Event} {a : α}
    (h : ∀ r, (change r).nonce = r.nonce ∨ (change r).nonce = none) :
    carriers n (db.commit ((db.modify hit change).record es) a).2 ≤ carriers n db := by
  rcases Db.commit_cases db ((db.modify hit change).record es) a with ⟨_, h2, _⟩ | ⟨_, h2⟩ <;>
    rw [h2]
  refine carriers_map_le rfl fun r => ?_
  split
  · exact h r
  · exact Or.inl rfl

theorem carriers_insert_le (n : String) (db : Db) (args : RequestArgs) (operation : Operation)
    (nonce : String) (expires : Stamp) :
    carriers n (Txn.runInsert db args operation nonce expires).2
      ≤ carriers n db + if nonce == n then 1 else 0 := by
  unfold Txn.runInsert
  split
  · exact Nat.le_add_right _ _
  · rcases Db.commit_cases db
      (({ db with operations := db.operations ++ [args.row operation db.nextId nonce expires] }
        : Db).record [⟨db.nextId, none, .pendingConfirmation, none⟩])
      db.nextId with ⟨_, h2, _⟩ | ⟨_, h2⟩ <;> rw [h2]
    · simp [carriers, Db.record, RequestArgs.row, List.countP_append, List.countP_singleton]
    · exact Nat.le_add_right _ _

theorem carriers_consume_le (n : String) (db : Db) (nonce actor : String) (window now : Stamp) :
    carriers n (Txn.runConsume db nonce actor window now).2 ≤ carriers n db := by
  unfold Txn.runConsume
  split
  · exact Nat.le_refl _
  · exact carriers_commit_modify_le fun _ => Or.inr rfl

/-- A `confirm` that succeeds hit a row with its nonce. -/
theorem runConsume_ok {n actor : String} {window now : Stamp} {db : Db} {id : Nat}
    (h : (Txn.runConsume db n actor window now).1 = .ok id) :
    ∃ r ∈ db.operations, consumable n now r = true ∧
      (Txn.runConsume db n actor window now).2 =
        ((db.modify (consumable n now) fun r =>
          { r with
            state := .authorized, nonce := none, nonceExpiresAt := none,
            confirmationActor := some actor, executionWindowExpiresAt := some window }).record
        [⟨r.operationId, some .pendingConfirmation, .authorized, some actor⟩]) ∧
      (Txn.runConsume db n actor window now).2.unique = true := by
  unfold Txn.runConsume at h ⊢
  split at h
  · simp at h
  · rename_i r hfind
    rcases Db.commit_cases db _ r.operationId with ⟨_, h2, hu⟩ | ⟨h1, _⟩
    · exact ⟨r, List.mem_of_find?_eq_some hfind, List.find?_some hfind, h2, by rwa [h2]⟩
    · rw [h1] at h
      simp at h

theorem carriers_consume_lt {n actor : String} {window now : Stamp} {db : Db} {id : Nat}
    (h : (Txn.runConsume db n actor window now).1 = .ok id) :
    carriers n (Txn.runConsume db n actor window now).2 + 1 ≤ carriers n db := by
  obtain ⟨r, hr, hc, h2, _⟩ := runConsume_ok h
  rw [h2]
  refine countP_map_lt (fun q _ hq => ?_) hr ?_ ?_
  · split at hq
    · simp at hq
    · exact hq
  · simp [(consumable_nonce hc).1]
  · simp [hc]

/-- A call adds a carrier of a nonce only by an insert, and a call that
consumes a nonce leaves it one carrier less. -/
theorem carriers_perform {i : Nat} {w w' : LedgerWorld} {c : LedgerCall} {a : c.Ans}
    (hc : LedgerCall.perform i w c a w') (n : String) :
    carriers n w'.db + (if consumes n ⟨w, c, a, w'⟩ then 1 else 0)
      ≤ carriers n w.db + if insertsNonce n ⟨w, c, a, w'⟩ then 1 else 0 := by
  cases c with
  | utcnow =>
    obtain rfl : w' = w := hc
    exact Nat.le_refl _
  | tokenHex =>
    obtain ⟨_, rfl⟩ := hc
    exact Nat.le_refl _
  | selectOperation id =>
    obtain ⟨rfl, _⟩ := hc
    exact Nat.le_refl _
  | selectActive =>
    obtain ⟨rfl, _⟩ := hc
    exact Nat.le_refl _
  | transaction t =>
    rcases hc with ⟨rfl, rfl⟩ | ⟨rfl, rfl⟩
    · cases t with
      | createTables => exact Nat.le_refl _
      | rebuildActiveIndex =>
        simp only [carriers, run_migrate w.db (t := .rebuildActiveIndex) (by simp)]
        exact Nat.le_refl _
      | createPlanKeyIndex =>
        simp only [carriers, run_migrate w.db (t := .createPlanKeyIndex) (by simp)]
        exact Nat.le_refl _
      | insert args operation nonce expires =>
        simp only [Txn.run, consumes, insertsNonce, Bool.false_eq_true, if_false, Nat.add_zero]
        split
        · exact carriers_insert_le n w.db args operation nonce expires
        · exact Nat.le_add_right _ _
      | consume nonce actor window now =>
        simp only [Txn.run, insertsNonce, Bool.false_eq_true, if_false, Nat.add_zero]
        split
        · cases hr : (Txn.runConsume w.db nonce actor window now).1 with
          | ok id =>
            by_cases hn : nonce = n
            · subst hn
              simpa [consumes] using carriers_consume_lt hr
            · simpa [consumes, hn] using carriers_consume_le n w.db nonce actor window now
          | error x => exact carriers_consume_le n w.db nonce actor window now
        · exact Nat.le_refl _
      | update id s t detail prior =>
        simp only [Txn.run, Txn.runUpdate, consumes, insertsNonce, Bool.false_eq_true, if_false,
          Nat.add_zero]
        split
        · split
          · exact Nat.le_refl _
          · exact carriers_commit_modify_le fun _ => Or.inl rfl
        · exact Nat.le_refl _
      | expire now =>
        simp only [Txn.run, Txn.runExpire, consumes, insertsNonce, Bool.false_eq_true, if_false,
          Nat.add_zero]
        split
        · exact carriers_commit_modify_le fun _ => Or.inl rfl
        · exact Nat.le_refl _
    · cases t <;> simp [consumes]

/-- What holds of nonces along every run.  `balance` says that the rows which
carry a nonce and the confirmations that consumed it are together no more than
its inserts. -/
structure NonceLedger (s : System LedgerSig LedgerWorld Exn Unit) : Prop where
  minted : ∀ i m, s.Made i m → ∀ e ∈ m.before.minted, e ∈ s.world.minted
  balance : ∀ n, carriers n s.world.db + s.allMoves.countP (consumes n)
    ≤ s.allMoves.countP (insertsNonce n)

theorem minted_step {s s' : System LedgerSig LedgerWorld Exn Unit}
    (hs : System.Step connections s s') {e : String × Nat} (he : e ∈ s.world.minted) :
    e ∈ s'.world.minted := by
  cases hs with
  | start _ => exact he
  | move _ hc =>
    rcases perform_minted hc with hm | ⟨_, n, _, hm⟩ <;> rw [hm]
    · exact he
    · exact List.mem_cons_of_mem _ he
  | kill _ _ => exact he
  | drift hd => exact hd.elim

theorem NonceLedger.step {s s' : System LedgerSig LedgerWorld Exn Unit} (h : NonceLedger s)
    (hs : System.Step connections s s') : NonceLedger s' where
  minted i m hm e he := by
    rcases hs.made hm with hm | ⟨hb, _⟩
    · exact minted_step hs (h.minted i m hm e he)
    · rw [hb] at he
      exact minted_step hs he
  balance n := by
    have hold := h.balance n
    rcases hs.allMoves with ⟨hsame, hw | ⟨_, hw⟩ | hd⟩ | ⟨i, p, m, _, hperm, hb, ha, hc, _⟩
    · rwa [hsame, hw]
    · rwa [hsame, hw]
    · exact hd.elim
    · have hone := carriers_perform hc n
      rw [hb, ha] at hone
      rw [hperm.countP_eq, hperm.countP_eq, List.countP_cons, List.countP_cons]
      have hm : (⟨s.world, m.call, m.ans, s'.world⟩ : Move LedgerSig LedgerWorld) = m := by
        rw [← hb, ← ha]
      rw [hm] at hone
      omega

theorem nonceLedger_of_reach {s : System LedgerSig LedgerWorld Exn Unit}
    (h : System.Reach connections noLedger s) : NonceLedger s := by
  induction h with
  | refl =>
    refine ⟨fun i m ⟨p, hi, _⟩ => by simp [noLedger] at hi, fun n => ?_⟩
    simp [noLedger, carriers, Db.empty, System.allMoves]
  | tail _ hs ih => exact ih.step hs

/-- A connection inserts one nonce at most. -/
theorem countP_inserts_le_one {i : Nat} {l : List (Move LedgerSig LedgerWorld)}
    (h : ∀ m l', m :: l' <:+ l → (ledgerRules i).guar l' m) : l.countP inserts ≤ 1 := by
  induction l with
  | nil => exact Nat.zero_le 1
  | cons m l ih =>
    rw [List.countP_cons]
    have hl := ih fun m' l' hm => h m' l' (hm.trans (List.suffix_cons _ _))
    split
    · rename_i hm
      have hzero := (h m l List.suffix_rfl).2 hm
      omega
    · exact hl

theorem inserts_of_insertsNonce {n : String} {m : Move LedgerSig LedgerWorld}
    (h : insertsNonce n m = true) : inserts m = true := by
  unfold insertsNonce at h
  split at h
  · rename_i heq
    rw [inserts, heq]
  · cases h

/-- A nonce is inserted at most once in a run: only the connection that minted
it inserts it, and that one inserts once. -/
theorem countP_insertsNonce_le_one {s : System LedgerSig LedgerWorld Exn Unit}
    (h : System.Reach connections noLedger s) (n : String) :
    s.allMoves.countP (insertsNonce n) ≤ 1 := by
  have hgood := good_of_reach h
  have hnonce := nonceLedger_of_reach h
  have hown : ∀ i m, s.Made i m → insertsNonce n m = true → (n, i) ∈ s.world.minted := by
    intro i m hm hn
    obtain ⟨l, hg, _, _⟩ := hgood.made hm
    refine (nonceLedger_of_reach h).minted i m hm (n, i) ?_
    unfold insertsNonce at hn
    split at hn
    · rename_i heq
      obtain rfl := beq_iff_eq.mp hn
      exact (hg.1 _ heq).2.1
    · simp at hn
  refine System.countP_allMoves_le_one (fun p hp => ?_) fun i j m m' hm hm' hn hn' => ?_
  · obtain ⟨i, hi⟩ := List.getElem?_of_mem hp
    exact Nat.le_trans (List.countP_mono_left fun m _ hm => inserts_of_insertsNonce hm)
      (countP_inserts_le_one fun m l hml => ((hgood.kept i p hi).guar m l hml).1)
  · have heq := List.inj_on_of_nodup_map hgood.inv.minted (hown i m hm hn) (hown j m' hm' hn') rfl
    exact (Prod.mk.inj heq).2

/-- A `confirm` that succeeds authorizes one row, the one with its nonce. -/
theorem authorizes_runConsume {w : LedgerWorld} (h : Inv w) {n actor : String}
    {window now : Stamp} {hit : Nat}
    (hok : (Txn.runConsume w.db n actor window now).1 = .ok hit) :
    ∃ r ∈ w.db.operations, r.nonce = some n ∧
      ∀ id, Authorizes w.db (Txn.runConsume w.db n actor window now).2 id ↔
        id = r.operationId := by
  obtain ⟨r, hr, hhit, hdb, hu⟩ := runConsume_ok hok
  obtain ⟨hnonce, hstate⟩ := consumable_nonce hhit
  have hamends := amends_consume h actor hr hhit
    (fun r => { r with
      state := .authorized, nonce := none, nonceExpiresAt := none,
      confirmationActor := some actor, executionWindowExpiresAt := some window })
    fun _ => ⟨rfl, rfl, rfl, rfl⟩
  rw [hdb] at hu ⊢
  have h' := h.outcome (i := 0) (.modify hamends hu)
  refine ⟨r, hr, hnonce, fun id => ⟨fun ⟨hbefore, hafter⟩ => ?_, fun hid => ?_⟩⟩
  · obtain ⟨q, hq, hqs⟩ := Option.map_eq_some_iff.mp hbefore
    obtain ⟨hmem, rfl⟩ := Db.mem_of_find hq
    rw [Db.stateOf, hamends.find h' rfl hmem, Option.map_some, Option.some.injEq] at hafter
    split at hafter
    · rename_i hc
      rw [h.nonces q hmem r hr n (consumable_nonce hc).1 hnonce]
    · rw [hqs] at hafter
      simp at hafter
  · subst hid
    refine ⟨by rw [Db.stateOf, h.find_eq hr, Option.map_some, hstate], ?_⟩
    rw [Db.stateOf, hamends.find h' rfl hr, if_pos hhit]
    rfl

theorem authorizes_of_consumes {i : Nat} {n : String} {m : Move LedgerSig LedgerWorld}
    (h : Inv m.before) (hc : LedgerCall.perform i m.before m.call m.ans m.after)
    (hn : consumes n m = true) :
    ∃ r ∈ m.before.db.operations, r.nonce = some n ∧
      ∀ id, Authorizes m.before.db m.after.db id ↔ id = r.operationId := by
  obtain ⟨w, c, a, w'⟩ := m
  unfold consumes at hn
  split at hn
  case h_2 => simp at hn
  rename_i v nonce actor window now hit v' heq
  obtain ⟨rfl, rfl, hans, rfl⟩ := Move.mk.inj heq
  obtain rfl := eq_of_heq hans
  obtain rfl := beq_iff_eq.mp hn
  rcases hc with ⟨ha, hw⟩ | ⟨ha, _⟩
  case inr => exact absurd ha (by simp)
  simp only [Txn.run] at ha hw
  split at ha
  case isFalse => simp at ha
  rename_i htables
  rw [if_pos htables] at hw
  simp only [hw]
  exact authorizes_runConsume h ha.symm

/-! ## Requesting an expired key again -/

theorem exists_lt_all (l : List Stamp) : ∃ now, ∀ e ∈ l, now < e := by
  induction l with
  | nil => exact ⟨0, fun e he => by simp at he⟩
  | cons a l ih =>
    obtain ⟨now, h⟩ := ih
    refine ⟨min now (a - 1), List.forall_mem_cons.mpr ⟨?_, fun e he => ?_⟩⟩
    · simp only [Stamp] at *
      omega
    · have hlt := h e he
      simp only [Stamp] at *
      omega

theorem lapsed_eq_false {state : OperationState} {column : Row → Option Stamp} {now : Stamp}
    {r : Row} (h : ∀ e, column r = some e → now < e) : lapsed state column now r = false := by
  unfold lapsed
  cases hc : column r with
  | none => simp
  | some e => simp [h e hc]

/-- Before every deadline `expire_lapsed` does nothing. -/
theorem exists_early (db : Db) (ht : db.tables = true) (hu : db.unique = true) :
    ∃ now, Txn.run db (.expire now) = (.ok [], db) := by
  obtain ⟨now, hnow⟩ := exists_lt_all
    (db.operations.filterMap Row.nonceExpiresAt ++
      db.operations.filterMap Row.executionWindowExpiresAt)
  have hp : ∀ r ∈ db.operations, lapsedPending now r = false := fun r hr =>
    lapsed_eq_false fun e he =>
      hnow e (List.mem_append_left _ (List.mem_filterMap.mpr ⟨r, hr, he⟩))
  have ha : ∀ r ∈ db.operations, lapsedAuthorized now r = false := fun r hr =>
    lapsed_eq_false fun e he =>
      hnow e (List.mem_append_right _ (List.mem_filterMap.mpr ⟨r, hr, he⟩))
  have hpnil : db.operations.filter (lapsedPending now) = [] :=
    List.filter_eq_nil_iff.mpr fun r hr => by simp [hp r hr]
  have hanil : db.operations.filter (lapsedAuthorized now) = [] :=
    List.filter_eq_nil_iff.mpr fun r hr => by simp [ha r hr]
  have hmod : (db.modify (fun r => lapsedPending now r || lapsedAuthorized now r)
      fun r => { r with state := .expired }) = db := by
    have hid : db.operations.map (fun r => if lapsedPending now r || lapsedAuthorized now r then
        { r with state := .expired } else r) = db.operations := by
      refine (List.map_congr_left fun r hr => ?_).trans (List.map_id _)
      simp [hp r hr, ha r hr]
    rw [Db.modify, hid]
  refine ⟨now, ?_⟩
  have hrec : db.record [] = db := by
    rw [Db.record, List.append_nil]
  rw [Txn.run, if_pos ht, Txn.runExpire, hpnil, hanil, hmod, List.map_nil, List.map_nil,
    List.append_nil, hrec, Db.commit, if_pos hu]
  rfl

theorem nodup_concat {α : Type} {l : List α} {a : α} (h : l.Nodup) (ha : a ∉ l) :
    (l ++ [a]).Nodup :=
  List.nodup_append.mpr ⟨h, List.nodup_singleton a, fun b hb c hc => by
    rw [List.mem_singleton] at hc
    rintro rfl
    exact ha (hc ▸ hb)⟩

/-- The insert of `request` goes through when every row of the key is expired
and the machine has no active row. -/
theorem runInsert_ok {w : LedgerWorld} (h : Inv w) (ho : w.db.opened = true)
    {args : RequestArgs} (operation : Operation) (nonce : String) (expires : Stamp)
    (hkey : ∀ r ∈ w.db.operations, r.planKey = args.planKey → r.state = .expired)
    (hmachine : ∀ r ∈ w.db.operations, r.machineId = args.machineId → r.state.terminal = true) :
    Txn.runInsert w.db args operation nonce expires = (.ok w.db.nextId,
      ({ w.db with operations := w.db.operations ++ [args.row operation w.db.nextId nonce expires] }
        : Db).record [⟨w.db.nextId, none, .pendingConfirmation, none⟩]) := by
  have hnone : w.db.operations.find? (fun r => r.planKey == args.planKey && r.state != .expired)
      = none := by
    refine List.find?_eq_none.mpr fun r hr hc => ?_
    simp only [Bool.and_eq_true, beq_iff_eq, bne_iff_ne] at hc
    exact hc.2 (hkey r hr hc.1)
  have hu := h.unique
  have hopen := ho
  simp only [Db.opened, Bool.and_eq_true, beq_iff_eq] at hopen
  simp only [Db.unique, hopen.1.2, hopen.2, Bool.not_true, Bool.false_or, Bool.and_eq_true,
    decide_eq_true_eq] at hu
  simp only [Txn.runInsert, hnone, Db.commit]
  refine if_pos ?_
  simp only [Db.unique, Db.record, hopen.1.2, hopen.2, Bool.not_true, Bool.false_or,
    Bool.and_eq_true, decide_eq_true_eq, List.filter_append, List.map_append]
  refine ⟨nodup_concat hu.1 fun hmem => ?_, nodup_concat hu.2 fun hmem => ?_⟩
  · obtain ⟨r, hr, hm⟩ := List.mem_map.mp hmem
    obtain ⟨hr, hs⟩ := List.mem_filter.mp hr
    have ht : terminalStates.contains r.state = true := hmachine r hr hm
    rw [ht] at hs
    simp at hs
  · obtain ⟨r, hr, hk⟩ := List.mem_map.mp hmem
    obtain ⟨hr, hs⟩ := List.mem_filter.mp hr
    rw [hkey r hr hk] at hs
    simp at hs

/-- The end of `request`, after its insert. -/
def requestEnd (nonce : String) (inserted : Except Exn Nat) : Method (Nat × String) :=
  match inserted with
  | .ok id => return (id, nonce)
  | .error .integrityError =>
    .raise (.ledgerError "another operation is already active for this machine")
  | .error x => .raise x

/-- The calls of `request` on an operation it supports. -/
theorem request_eq {args : RequestArgs} {operation : Operation}
    (hop : Operation.parse args.operation = some operation) :
    request args =
      .call .tokenHex fun nonce => .call .utcnow fun now =>
        .call (.transaction (.expire now)) fun a => Prog.ofExcept a >>= fun _ =>
          .call .utcnow fun now' =>
            .call (.transaction (.insert args operation nonce (now' + args.nonceTtlSeconds)))
              fun b => requestEnd nonce b := by
  rw [request, hop]
  refine congrArg (Prog.call (S := LedgerSig) .tokenHex) (funext fun nonce => ?_)
  refine congrArg (Prog.call (S := LedgerSig) .utcnow) (funext fun now => ?_)
  refine congrArg (Prog.call (S := LedgerSig) (.transaction (.expire now))) (funext fun a => ?_)
  refine congrArg (Prog.bind (Prog.ofExcept a)) (funext fun _ => ?_)
  refine congrArg (Prog.call (S := LedgerSig) .utcnow) (funext fun now => ?_)
  refine congrArg (Prog.call (S := LedgerSig)
    (.transaction (.insert args operation nonce (now + args.nonceTtlSeconds)))) (funext fun b => ?_)
  cases b with
  | ok id => rfl
  | error x => cases x <;> rfl

/-- A key whose rows all expired may be requested again. -/
theorem exists_request {s : System LedgerSig LedgerWorld Exn Unit}
    (h : System.Reach connections noLedger s) (ho : s.world.db.opened = true)
    {args : RequestArgs} {operation : Operation}
    (hop : Operation.parse args.operation = some operation)
    (hkey : ∀ r ∈ s.world.db.operations, r.planKey = args.planKey → r.state = .expired)
    (hmachine : ∀ r ∈ s.world.db.operations,
      r.machineId = args.machineId → r.state.terminal = true) :
    ∃ s', System.Reach connections s s' ∧ ∃ r ∈ s'.world.db.operations,
      r ∉ s.world.db.operations ∧ r.planKey = args.planKey ∧ r.state = .pendingConfirmation := by
  have hinv := (good_of_reach h).inv
  have htables : s.world.db.tables = true := by
    have hopen := ho
    simp only [Db.opened, Bool.and_eq_true] at hopen
    exact hopen.1.1
  obtain ⟨now, hexpire⟩ := exists_early s.world.db htables hinv.unique
  refine ⟨callNext now (.request args) s, reach_callNext .refl now (Or.inr ho), ?_⟩
  let nonce := freshNonce (s.world.minted.map Prod.fst)
  let row := args.row operation s.world.db.nextId nonce (now + args.nonceTtlSeconds)
  have hinsert := runInsert_ok hinv ho operation nonce (now + args.nonceTtlSeconds) hkey hmachine
  have hworld : (callNext now (.request args) s).world.db.operations
      = s.world.db.operations ++ [row] := by
    rw [callNext, System.world_moves_start]
    have htail := request_eq hop
    simp only [LedgerMethod.program, htail, Prog.call_bind, Prog.moves_call, Prog.moves_zero,
      answers, hexpire, Prog.ofExcept, Prog.ret_bind]
    rw [Txn.run, if_pos htables, hinsert]
    rfl
  rw [hworld]
  refine ⟨row, List.mem_append_right _ (List.mem_singleton_self _), fun hmem => ?_, rfl, rfl⟩
  exact Nat.lt_irrefl _ (Db.lt_nextId hmem)
/-! ## Whole runs -/

/-- The states in which an operation is being executed for the first time. -/
def OperationState.executing (s : OperationState) : Prop :=
  s = .leaseAcquired ∨ s = .dispatchPending

theorem OperationState.executing.started {s : OperationState} (h : s.executing) : s.started := by
  rcases h with rfl | rfl <;> exact ⟨by decide, by decide, by decide⟩

/-- Rows of one plan key that are executed, now or later, are one row. -/
theorem same_of_executing {s s' : System LedgerSig LedgerWorld Exn Unit}
    (h : System.Reach connections noLedger s) (hr : System.Reach connections s s') {r r' : Row}
    (hmem : r ∈ s.world.db.operations) (hmem' : r' ∈ s'.world.db.operations)
    (hkey : r.planKey = r'.planKey) (hs : r.state.started) (hs' : r'.state.started) :
    r.operationId = r'.operationId := by
  obtain ⟨q, hq, hid, hqkey, hqs⟩ := (evolves_of_reach h hr).rows r hmem
  have hinv := (good_of_reach (h.trans hr)).inv
  rw [← hid, hinv.eq_of_planKey hq hmem' (hqkey.trans hkey) (hqs hs).2.2 hs'.2.2]

/-- At most one row of a plan key is ever executed, each nonce authorizes one
row once, an expired key may be requested again, and a key with a started row
may not. -/
theorem one_execution_per_plan_key {s s' : System LedgerSig LedgerWorld Exn Unit}
    (h : System.Reach connections noLedger s) (hr : System.Reach connections s s') :
    (∀ r ∈ s.world.db.operations, ∀ r' ∈ s'.world.db.operations, r.planKey = r'.planKey →
      r.state.executing → r'.state.executing → r.operationId = r'.operationId) ∧
    (∀ n, s.allMoves.countP (consumes n) ≤ 1) ∧
    (∀ n, ∀ m ∈ s.allMoves, consumes n m = true →
      ∃ r ∈ m.before.db.operations, r.nonce = some n ∧
        ∀ id, Authorizes m.before.db m.after.db id ↔ id = r.operationId) ∧
    (∀ (args : RequestArgs) operation, Operation.parse args.operation = some operation →
      s.world.db.opened = true →
      (∀ r ∈ s.world.db.operations, r.planKey = args.planKey → r.state = .expired) →
      (∀ r ∈ s.world.db.operations, r.machineId = args.machineId → r.state.terminal = true) →
      ∃ s'', System.Reach connections s s'' ∧ ∃ r ∈ s''.world.db.operations,
        r ∉ s.world.db.operations ∧ r.planKey = args.planKey ∧ r.state = .pendingConfirmation) ∧
    ∀ key, Spent s.world.db key → ∀ r' ∈ s'.world.db.operations, r'.planKey = key →
      ∃ r ∈ s.world.db.operations, r.operationId = r'.operationId ∧ r.planKey = key := by
  refine ⟨fun r hmem r' hmem' hkey hs hs' => ?_, fun n => ?_, fun n m hm hn => ?_,
    fun args operation hop ho hkey hmachine => ?_, fun key hspent => ?_⟩
  · exact same_of_executing h hr hmem hmem' hkey hs.started hs'.started
  · have hbalance := (nonceLedger_of_reach h).balance n
    have hinserts := countP_insertsNonce_le_one h n
    omega
  · obtain ⟨i, hm⟩ := System.mem_allMoves.mp hm
    obtain ⟨_, _, hc, hinv⟩ := (good_of_reach h).made hm
    exact authorizes_of_consumes hinv hc hn
  · exact exists_request h ho hop hkey hmachine
  · exact (evolves_of_reach h hr).frozen key hspent

theorem one_execution_per_plan_key_confirmed :
    confirmed.world.db.operations.map Row.state = [.authorized] ∧
    confirmed.allMoves.countP (consumes "0") = 1 ∧
    ∀ n, confirmed.allMoves.countP (consumes n) ≤ 1 := by
  have h := one_execution_per_plan_key (reach_requested.trans reach_confirmed) .refl
  exact ⟨by decide, by decide, h.2.1⟩

end SteamAgent.Execution.Ledger
