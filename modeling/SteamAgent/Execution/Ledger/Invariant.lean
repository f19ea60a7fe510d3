import Mathlib.Data.List.Count
import SteamAgent.Execution.Ledger.Calls

/-!
# The invariant of the ledger

What holds of the database after every committed block, from the first opener
on.

There are four groups.

* `OneActivePerMachine`, `OneLivePerPlanKey` and `EventPath`, the statements
  about one database, and `Inv`, which adds what the induction needs: the row
  ids, the nonces and the schema.
* `Amends`: what a block that updates rows does to each of them.  The three
  updating blocks are instances (`amends_consume`, `amends_update`,
  `amends_expire`), and `Inv.amend` is the one proof that the invariant
  survives them.
* `Inv.insert`, the same for the inserted row.
* `Txn.Legal`, what the methods know when they enter a block, and
  `Inv.transaction`: every legal block keeps the invariant.
-/

namespace SteamAgent.Execution.Ledger

open Effects

/-! ## Statements about one database -/

/-- At most one row of a machine is in a non-terminal state. -/
def OneActivePerMachine (db : Db) : Prop :=
  ∀ machine, (db.operations.filter fun r => r.machineId == machine && !r.state.terminal).length ≤ 1

/-- At most one row with a given plan key is not expired. -/
def OneLivePerPlanKey (db : Db) : Prop :=
  ∀ key, (db.operations.filter fun r => r.planKey == key && r.state != .expired).length ≤ 1

/-- A list of state changes that starts with the pending state, follows
`transitions` step by step, and ends in the given state. -/
inductive EventPath : List (Option OperationState × OperationState) → OperationState → Prop
  | request : EventPath [(none, .pendingConfirmation)] .pendingConfirmation
  | change {path : List (Option OperationState × OperationState)} {s t : OperationState}
      (h : EventPath path s) (ht : t ∈ transitions s) : EventPath (path ++ [(some s, t)]) t

/-- The invariant of the ledger. -/
structure Inv (w : LedgerWorld) : Prop where
  opened : w.db.operations ≠ [] → w.db.opened = true
  unique : w.db.unique = true
  ids : (w.db.operations.map Row.operationId).Nodup
  nonces : ∀ r ∈ w.db.operations, ∀ r' ∈ w.db.operations, ∀ n,
    r.nonce = some n → r'.nonce = some n → r = r'
  minted : (w.minted.map Prod.fst).Nodup
  nonceMinted : ∀ r ∈ w.db.operations, ∀ n, r.nonce = some n → n ∈ w.minted.map Prod.fst
  paths : ∀ r ∈ w.db.operations, EventPath (w.db.eventsOf r.operationId) r.state
  stray : ∀ e ∈ w.db.events, ∃ r ∈ w.db.operations, r.operationId = e.operationId

theorem inv_empty : Inv ⟨.empty, []⟩ where
  opened h := absurd rfl h
  unique := rfl
  ids := List.nodup_nil
  nonces _ hr := by simp [Db.empty] at hr
  minted := List.nodup_nil
  nonceMinted _ hr := by simp [Db.empty] at hr
  paths _ hr := by simp [Db.empty] at hr
  stray _ he := by simp [Db.empty] at he

/-! ## Indexes and lookups -/

/-- A projection without duplicates on the kept elements has at most one kept
element for each value. -/
theorem filter_length_le_one {α β : Type} [DecidableEq β] {l : List α} {p : α → Bool} {f : α → β}
    (h : ((l.filter p).map f).Nodup) (b : β) :
    (l.filter fun a => f a == b && p a).length ≤ 1 := by
  have hcount := List.nodup_iff_count_le_one.mp h b
  rw [List.count, List.countP_map, List.countP_filter] at hcount
  rw [← List.countP_eq_length_filter]
  exact hcount

/-- Two elements that a filter keeps are the same if it keeps at most one. -/
theorem eq_of_filter_length_le_one {α : Type} {l : List α} {p : α → Bool}
    (h : (l.filter p).length ≤ 1) {a b : α} (ha : a ∈ l) (hb : b ∈ l) (hpa : p a = true)
    (hpb : p b = true) : a = b := by
  have ha' : a ∈ l.filter p := List.mem_filter.mpr ⟨ha, hpa⟩
  have hb' : b ∈ l.filter p := List.mem_filter.mpr ⟨hb, hpb⟩
  rcases hl : l.filter p with _ | ⟨x, _ | ⟨y, rest⟩⟩
  · rw [hl] at ha'
    simp at ha'
  · rw [hl, List.mem_singleton] at ha' hb'
    rw [ha', hb']
  · rw [hl] at h
    simp at h

/-- The single-active index, once it carries the current terminal set. -/
theorem Inv.active {w : LedgerWorld} (h : Inv w) : OneActivePerMachine w.db := by
  intro machine
  by_cases hne : w.db.operations = []
  · rw [hne]
    exact Nat.zero_le 1
  · have ho := h.opened hne
    have hu := h.unique
    simp only [Db.opened, Bool.and_eq_true, beq_iff_eq] at ho
    simp only [Db.unique, ho.1.2, Bool.and_eq_true, decide_eq_true_eq] at hu
    exact filter_length_le_one hu.1 machine

/-- The plan-key index. -/
theorem Inv.live {w : LedgerWorld} (h : Inv w) : OneLivePerPlanKey w.db := by
  intro key
  by_cases hne : w.db.operations = []
  · rw [hne]
    exact Nat.zero_le 1
  · have ho := h.opened hne
    have hu := h.unique
    simp only [Db.opened, Bool.and_eq_true, beq_iff_eq] at ho
    simp only [Db.unique, ho.2, Bool.not_true, Bool.false_or, Bool.and_eq_true,
      decide_eq_true_eq] at hu
    exact filter_length_le_one hu.2 key

/-- Rows with one plan key that are not expired are the same row. -/
theorem Inv.eq_of_planKey {w : LedgerWorld} (h : Inv w) {r r' : Row} (hr : r ∈ w.db.operations)
    (hr' : r' ∈ w.db.operations) (hkey : r.planKey = r'.planKey) (hs : r.state ≠ .expired)
    (hs' : r'.state ≠ .expired) : r = r' :=
  eq_of_filter_length_le_one (h.live r'.planKey) hr hr' (by simp [hkey, hs]) (by simp [hs'])

theorem le_foldr_max {n : Nat} {l : List Nat} (h : n ∈ l) : n ≤ l.foldr max 0 := by
  induction l with
  | nil => simp at h
  | cons a l ih =>
    rcases List.mem_cons.mp h with rfl | h
    · exact Nat.le_max_left _ _
    · exact Nat.le_trans (ih h) (Nat.le_max_right _ _)

/-- A new row's id is larger than every id in use. -/
theorem Db.lt_nextId {db : Db} {r : Row} (hr : r ∈ db.operations) : r.operationId < db.nextId :=
  Nat.lt_succ_of_le (le_foldr_max (List.mem_map_of_mem hr))

/-- Rows are determined by their id. -/
theorem Inv.eq_of_id {w : LedgerWorld} (h : Inv w) {r r' : Row} (hr : r ∈ w.db.operations)
    (hr' : r' ∈ w.db.operations) (hid : r.operationId = r'.operationId) : r = r' :=
  List.inj_on_of_nodup_map h.ids hr hr' hid

theorem changesAt_append (id : Nat) (es es' : List Event) :
    changesAt id (es ++ es') = changesAt id es ++ changesAt id es' := by
  simp [changesAt]

theorem changesAt_eq_nil {id : Nat} {es : List Event} (h : ∀ e ∈ es, e.operationId ≠ id) :
    changesAt id es = [] := by
  have hf : es.filter (fun e => e.operationId == id) = [] :=
    List.filter_eq_nil_iff.mpr fun e he => by simpa using h e he
  rw [changesAt, hf, List.map_nil]

/-! ## Blocks that update rows -/

/-- What an updating block does: each row stays as it is and gets no event, or
moves along `transitions` and gets one event for it. -/
structure Amends (rows : List Row) (g : Row → Row) (es : List Event) : Prop where
  id : ∀ r ∈ rows, (g r).operationId = r.operationId
  planKey : ∀ r ∈ rows, (g r).planKey = r.planKey
  nonce : ∀ r ∈ rows, (g r).nonce = r.nonce ∨ (g r).nonce = none
  moves : ∀ r ∈ rows, g r = r ∧ changesAt r.operationId es = [] ∨
    (g r).state ∈ transitions r.state ∧
      changesAt r.operationId es = [(some r.state, (g r).state)]
  stray : ∀ e ∈ es, ∃ r ∈ rows, r.operationId = e.operationId

/-- An updating block keeps the invariant when the indexes accept its result. -/
theorem Inv.amend {w : LedgerWorld} (h : Inv w) {db : Db} {g : Row → Row} {es : List Event}
    (ha : Amends w.db.operations g es) (hops : db.operations = w.db.operations.map g)
    (hev : db.events = w.db.events ++ es) (ho : db.opened = w.db.opened)
    (hu : db.unique = true) : Inv ⟨db, w.minted⟩ := by
  have hopened : db.operations ≠ [] → db.opened = true := by
    rw [hops, ho]
    intro hne
    exact h.opened fun hnil => hne (by rw [hnil, List.map_nil])
  refine ⟨hopened, hu, ?_, ?_, h.minted, ?_, ?_, ?_⟩
  · have hids : (w.db.operations.map g).map Row.operationId
        = w.db.operations.map Row.operationId := by
      rw [List.map_map]
      exact List.map_congr_left ha.id
    simp only [hops, hids]
    exact h.ids
  · simp only [hops]
    intro r hr r' hr' n hn hn'
    obtain ⟨a, ha', rfl⟩ := List.mem_map.mp hr
    obtain ⟨b, hb', rfl⟩ := List.mem_map.mp hr'
    have hna : a.nonce = some n := by
      rcases ha.nonce a ha' with he | he <;> rw [he] at hn
      · exact hn
      · simp at hn
    have hnb : b.nonce = some n := by
      rcases ha.nonce b hb' with he | he <;> rw [he] at hn'
      · exact hn'
      · simp at hn'
    rw [h.nonces a ha' b hb' n hna hnb]
  · simp only [hops]
    intro r hr n hn
    obtain ⟨a, ha', rfl⟩ := List.mem_map.mp hr
    rcases ha.nonce a ha' with he | he <;> rw [he] at hn
    · exact h.nonceMinted a ha' n hn
    · simp at hn
  · simp only [hops, Db.eventsOf, hev]
    intro r hr
    obtain ⟨a, ha', rfl⟩ := List.mem_map.mp hr
    rw [ha.id a ha', changesAt_append]
    rcases ha.moves a ha' with ⟨hg, hes⟩ | ⟨ht, hes⟩
    · rw [hg, hes, List.append_nil]
      exact h.paths a ha'
    · rw [hes]
      exact .change (h.paths a ha') ht
  · simp only [hops, hev]
    intro e he
    have hold : ∃ r ∈ w.db.operations, r.operationId = e.operationId := by
      rcases List.mem_append.mp he with he | he
      · exact h.stray e he
      · exact ha.stray e he
    obtain ⟨r, hr, hid⟩ := hold
    exact ⟨g r, List.mem_map_of_mem hr, by rw [ha.id r hr, hid]⟩

/-- The rows hit by the update of `confirm` are one row, the one that the
nonce was minted for. -/
theorem amends_consume {w : LedgerWorld} (h : Inv w) {nonce : String} (actor : String) {now : Stamp}
    {hit : Row}
    (hmem : hit ∈ w.db.operations) (hhit : consumable nonce now hit = true)
    (change : Row → Row)
    (hchange : ∀ r, (change r).operationId = r.operationId ∧ (change r).planKey = r.planKey ∧
      (change r).nonce = none ∧ (change r).state = .authorized) :
    Amends w.db.operations (fun r => if consumable nonce now r then change r else r)
      [⟨hit.operationId, some .pendingConfirmation, .authorized, some actor⟩] where
  id r _ := by
    split
    · exact (hchange r).1
    · rfl
  planKey r _ := by
    split
    · exact (hchange r).2.1
    · rfl
  nonce r _ := by
    split
    · exact Or.inr (hchange r).2.2.1
    · exact Or.inl rfl
  moves r hr := by
    split
    · rename_i hc
      simp only [consumable, Bool.and_eq_true, beq_iff_eq] at hc hhit
      have heq : r = hit := h.nonces r hr hit hmem nonce hc.1.1 hhit.1.1
      refine Or.inr ⟨?_, ?_⟩
      · rw [(hchange r).2.2.2, hc.1.2]
        decide
      · simp [changesAt, heq, hhit.1.2, (hchange hit).2.2.2]
    · rename_i hc
      refine Or.inl ⟨rfl, changesAt_eq_nil fun e he => ?_⟩
      rw [List.mem_singleton] at he
      subst he
      intro hid
      rw [← h.eq_of_id hmem hr hid] at hc
      exact hc hhit
  stray e he := by
    rw [List.mem_singleton] at he
    subst he
    exact ⟨hit, hmem, rfl⟩

theorem exists_expected {rows : List Row} {id : Nat} {s : OperationState}
    (hcount : rows.countP (expected id s) = 1) : ∃ r ∈ rows, expected id s r = true :=
  List.countP_pos_iff.mp (by omega)

/-- The compare-and-set of `transition` hits at most the row it names. -/
theorem amends_update {w : LedgerWorld} (h : Inv w) {id : Nat} {s t : OperationState}
    {detail : Option String} (ht : t ∈ transitions s)
    (hcount : w.db.operations.countP (expected id s) = 1) (change : Row → Row)
    (hchange : ∀ r, (change r).operationId = r.operationId ∧ (change r).planKey = r.planKey ∧
      (change r).nonce = r.nonce ∧ (change r).state = t) :
    Amends w.db.operations (fun r => if expected id s r then change r else r)
      [⟨id, some s, t, detail⟩] where
  id r _ := by
    split
    · exact (hchange r).1
    · rfl
  planKey r _ := by
    split
    · exact (hchange r).2.1
    · rfl
  nonce r _ := by
    split
    · exact Or.inl (hchange r).2.2.1
    · exact Or.inl rfl
  moves r hr := by
    split
    · rename_i he
      simp only [expected, Bool.and_eq_true, beq_iff_eq] at he
      refine Or.inr ⟨?_, ?_⟩
      · rw [(hchange r).2.2.2, he.2]
        exact ht
      · simp [changesAt, he.1, he.2, (hchange r).2.2.2]
    · rename_i he
      refine Or.inl ⟨rfl, changesAt_eq_nil fun e hmem => ?_⟩
      rw [List.mem_singleton] at hmem
      subst hmem
      intro hid
      obtain ⟨r', hr', he'⟩ := exists_expected hcount
      have hid' : r'.operationId = id := by
        simp only [expected, Bool.and_eq_true, beq_iff_eq] at he'
        exact he'.1
      rw [h.eq_of_id hr hr' (hid.symm.trans hid'.symm)] at he
      exact he he'
  stray e he := by
    rw [List.mem_singleton] at he
    subst he
    obtain ⟨r, hr, he⟩ := exists_expected hcount
    simp only [expected, Bool.and_eq_true, beq_iff_eq] at he
    exact ⟨r, hr, he.1⟩

/-- The expiry events of one row: one if the row is hit, none otherwise. -/
theorem changesAt_expiry {w : LedgerWorld} (h : Inv w) {r : Row} (hr : r ∈ w.db.operations)
    (hit : Row → Bool) (state : OperationState) :
    changesAt r.operationId ((w.db.operations.filter hit).map (expiry state))
      = if hit r then [(some state, .expired)] else [] := by
  have hone : w.db.operations.filter (fun q => q.operationId == r.operationId) = [r] := by
    have hnodup := h.ids.of_map
    refine List.perm_singleton.mp ((List.perm_ext_iff_of_nodup (hnodup.filter _) (by simp)).mpr ?_)
    intro q
    simp only [List.mem_filter, beq_iff_eq, List.mem_singleton]
    constructor
    · rintro ⟨hq, hid⟩
      exact h.eq_of_id hq hr hid
    · rintro rfl
      exact ⟨hr, rfl⟩
  have hfilter : ((w.db.operations.filter hit).filter fun q => q.operationId == r.operationId)
      = [r].filter hit := by
    rw [List.filter_filter, ← hone, List.filter_filter]
    congr 1
    funext q
    exact Bool.and_comm _ _
  have hexpiry : (fun e : Event => e.operationId == r.operationId) ∘ expiry state
      = fun q : Row => q.operationId == r.operationId := rfl
  rw [changesAt, List.filter_map, hexpiry, hfilter]
  cases hh : hit r <;> simp [hh, expiry]

/-- The updates of `expire_lapsed`. -/
theorem amends_expire {w : LedgerWorld} (h : Inv w) (now : Stamp) :
    Amends w.db.operations
      (fun r => if lapsedPending now r || lapsedAuthorized now r then { r with state := .expired }
        else r)
      ((w.db.operations.filter (lapsedPending now)).map (expiry .pendingConfirmation) ++
        (w.db.operations.filter (lapsedAuthorized now)).map (expiry .authorized)) where
  id r _ := by
    split <;> rfl
  planKey r _ := by
    split <;> rfl
  nonce r _ := by
    split <;> exact Or.inl rfl
  moves r hr := by
    simp only [changesAt_append, changesAt_expiry h hr]
    by_cases hp : lapsedPending now r = true
    · have hstate : r.state = .pendingConfirmation := by
        simp only [lapsedPending, lapsed, Bool.and_eq_true, beq_iff_eq] at hp
        exact hp.1
      have hna : lapsedAuthorized now r = false := by
        simp [lapsedAuthorized, lapsed, hstate]
      refine Or.inr ⟨?_, ?_⟩ <;> simp [hp, hna, hstate, transitions]
    · simp only [Bool.not_eq_true] at hp
      by_cases hauth : lapsedAuthorized now r = true
      · have hstate : r.state = .authorized := by
          simp only [lapsedAuthorized, lapsed, Bool.and_eq_true, beq_iff_eq] at hauth
          exact hauth.1
        refine Or.inr ⟨?_, ?_⟩ <;> simp [hp, hauth, hstate, transitions]
      · simp only [Bool.not_eq_true] at hauth
        exact Or.inl (by simp [hp, hauth])
  stray e he := by
    rcases List.mem_append.mp he with he | he <;>
    · obtain ⟨r, hr, rfl⟩ := List.mem_map.mp he
      exact ⟨r, List.mem_of_mem_filter hr, rfl⟩

/-! ## Every block -/

/-- What a method of process `i` knows when it enters a block: the state it
pins has the successor it writes, and a nonce it inserts is its own and
unused. -/
def Txn.Legal (i : Nat) (w : LedgerWorld) : Txn → Prop
  | .insert _ _ nonce _ =>
    w.db.opened = true ∧ (nonce, i) ∈ w.minted ∧ ∀ r ∈ w.db.operations, r.nonce ≠ some nonce
  | .update _ fromState toState _ _ => toState ∈ transitions fromState
  | _ => True

/-- What a block did to the database. -/
inductive Outcome (i : Nat) (w : LedgerWorld) (db : Db) : Prop
  | same (hops : db.operations = w.db.operations) (hev : db.events = w.db.events)
      (ho : w.db.opened = true → db.opened = true) (hu : db.unique = true)
  | amend (g : Row → Row) (es : List Event) (ha : Amends w.db.operations g es)
      (hops : db.operations = w.db.operations.map g) (hev : db.events = w.db.events ++ es)
      (ho : db.opened = w.db.opened) (hu : db.unique = true)
  | insert (args : RequestArgs) (operation : Operation) (nonce : String) (expires : Stamp)
      (hlegal : Txn.Legal i w (.insert args operation nonce expires))
      (hfree : ∀ r ∈ w.db.operations, r.planKey = args.planKey → r.state = .expired)
      (hops : db.operations = w.db.operations ++ [args.row operation w.db.nextId nonce expires])
      (hev : db.events = w.db.events ++ [⟨w.db.nextId, none, .pendingConfirmation, none⟩])
      (ho : db.opened = w.db.opened) (hu : db.unique = true)

theorem Outcome.unchanged {i : Nat} {w : LedgerWorld} (h : Inv w) : Outcome i w w.db :=
  .same rfl rfl (fun ho => ho) h.unique

theorem Outcome.modify {i : Nat} {w : LedgerWorld} {hit : Row → Bool} {change : Row → Row}
    {es : List Event}
    (ha : Amends w.db.operations (fun r => if hit r then change r else r) es)
    (hu : ((w.db.modify hit change).record es).unique = true) :
    Outcome i w ((w.db.modify hit change).record es) :=
  .amend _ es ha rfl rfl rfl hu

/-- The end of a block: either the candidate passed the indexes, or nothing
changed. -/
theorem Db.commit_cases {α : Type} (db db' : Db) (a : α) :
    (db.commit db' a).1 = .ok a ∧ (db.commit db' a).2 = db' ∧ db'.unique = true ∨
      (db.commit db' a).1 = .error .integrityError ∧ (db.commit db' a).2 = db := by
  unfold Db.commit
  split
  · exact Or.inl ⟨rfl, rfl, by assumption⟩
  · exact Or.inr ⟨rfl, rfl⟩

theorem outcome_insert {i : Nat} {w : LedgerWorld} (h : Inv w) {args : RequestArgs} {operation : Operation}
    {nonce : String} {expires : Stamp} (hl : Txn.Legal i w (.insert args operation nonce expires)) :
    Outcome i w (Txn.runInsert w.db args operation nonce expires).2 := by
  unfold Txn.runInsert
  split
  · exact .unchanged h
  · rename_i hfind
    rcases Db.commit_cases w.db
      (({ w.db with operations := w.db.operations ++ [args.row operation w.db.nextId nonce expires] }
        : Db).record [⟨w.db.nextId, none, .pendingConfirmation, none⟩])
      w.db.nextId with ⟨_, h2, hu⟩ | ⟨_, h2⟩
    · rw [h2]
      refine .insert args operation nonce expires hl (fun r hr hkey => ?_) rfl rfl rfl hu
      have hnot := List.find?_eq_none.mp hfind r hr
      simpa [hkey] using hnot
    · rw [h2]
      exact .unchanged h

theorem outcome_consume {i : Nat} {w : LedgerWorld} (h : Inv w) (nonce actor : String)
    (window now : Stamp) : Outcome i w (Txn.runConsume w.db nonce actor window now).2 := by
  unfold Txn.runConsume
  split
  · exact .unchanged h
  · rename_i r hfind
    rcases Db.commit_cases w.db _ r.operationId with ⟨_, h2, hu⟩ | ⟨_, h2⟩ <;> rw [h2]
    · refine .modify (amends_consume h actor (List.mem_of_find?_eq_some hfind)
        (List.find?_some hfind) _ fun _ => ?_) hu
      exact ⟨rfl, rfl, rfl, rfl⟩
    · exact .unchanged h

theorem outcome_update {i : Nat} {w : LedgerWorld} (h : Inv w) {id : Nat} {s t : OperationState}
    (ht : t ∈ transitions s) (detail : Option String) (prior : Option Bool) :
    Outcome i w (Txn.runUpdate w.db id s t detail prior).2 := by
  unfold Txn.runUpdate
  split
  · exact .unchanged h
  · rename_i hcount
    rcases Db.commit_cases w.db _ () with ⟨_, h2, hu⟩ | ⟨_, h2⟩ <;> rw [h2]
    · refine .modify (amends_update h ht (not_not.mp hcount) _ fun _ => ?_) hu
      exact ⟨rfl, rfl, rfl, rfl⟩
    · exact .unchanged h

theorem outcome_expire {i : Nat} {w : LedgerWorld} (h : Inv w) (now : Stamp) :
    Outcome i w (Txn.runExpire w.db now).2 := by
  unfold Txn.runExpire
  rcases Db.commit_cases w.db _ _ with ⟨_, h2, hu⟩ | ⟨_, h2⟩ <;> rw [h2]
  · exact .modify (amends_expire h now) hu
  · exact .unchanged h

/-- What a legal block can do: nothing to the rows, an update along
`transitions`, or one new pending row. -/
theorem Txn.outcome {i : Nat} {w : LedgerWorld} (h : Inv w) {t : Txn} (hl : t.Legal i w) :
    Outcome i w (t.run w.db).2 := by
  cases t with
  | createTables =>
    refine .same rfl rfl (fun ho => ?_) h.unique
    simp only [Db.opened, Bool.and_eq_true] at ho ⊢
    exact ⟨⟨rfl, ho.1.2⟩, ho.2⟩
  | rebuildActiveIndex =>
    simp only [Txn.run]
    split
    · rcases Db.commit_cases w.db { w.db with activeIndex := some terminalStates } ()
        with ⟨_, h2, hu⟩ | ⟨_, h2⟩ <;> rw [h2]
      · refine .same rfl rfl (fun ho => ?_) hu
        simp only [Db.opened, Bool.and_eq_true] at ho ⊢
        exact ⟨⟨ho.1.1, beq_self_eq_true _⟩, ho.2⟩
      · exact .unchanged h
    · exact .unchanged h
  | createPlanKeyIndex =>
    simp only [Txn.run]
    split
    · rcases Db.commit_cases w.db { w.db with planKeyIndex := true } ()
        with ⟨_, h2, hu⟩ | ⟨_, h2⟩ <;> rw [h2]
      · refine .same rfl rfl (fun ho => ?_) hu
        simp only [Db.opened, Bool.and_eq_true] at ho ⊢
        exact ⟨ho.1, trivial⟩
      · exact .unchanged h
    · exact .unchanged h
  | insert args operation nonce expires =>
    simp only [Txn.run]
    split
    · exact outcome_insert h hl
    · exact .unchanged h
  | consume nonce actor window now =>
    simp only [Txn.run]
    split
    · exact outcome_consume h nonce actor window now
    · exact .unchanged h
  | update id s t detail prior =>
    simp only [Txn.run]
    split
    · exact outcome_update h hl detail prior
    · exact .unchanged h
  | expire now =>
    simp only [Txn.run]
    split
    · exact outcome_expire h now
    · exact .unchanged h

/-- The invariant survives every outcome. -/
theorem Inv.outcome {i : Nat} {w : LedgerWorld} (h : Inv w) {db : Db} (ho : Outcome i w db) :
    Inv ⟨db, w.minted⟩ := by
  cases ho with
  | same hops hev ho hu =>
    refine ⟨fun hne => ho (h.opened (hops ▸ hne)), hu, ?_, ?_, h.minted, ?_, ?_, ?_⟩
    · simpa only [hops] using h.ids
    · simpa only [hops] using h.nonces
    · simpa only [hops] using h.nonceMinted
    · simpa only [hops, Db.eventsOf, hev] using h.paths
    · simpa only [hops, hev] using h.stray
  | amend g es ha hops hev ho hu => exact h.amend ha hops hev ho hu
  | insert args operation nonce expires hlegal hfree hops hev ho hu =>
    have hopened : db.opened = true := ho.trans hlegal.1
    have hnew : ∀ r ∈ w.db.operations, r.operationId ≠ w.db.nextId := fun r hr =>
      Nat.ne_of_lt (Db.lt_nextId hr)
    refine ⟨fun _ => hopened, hu, ?_, ?_, h.minted, ?_, ?_, ?_⟩
    · simp only [hops, List.map_append, List.map_cons, List.map_nil]
      refine List.nodup_append.mpr ⟨h.ids, List.nodup_singleton _, ?_⟩
      intro id hid id' hid'
      obtain ⟨r, hr, rfl⟩ := List.mem_map.mp hid
      rw [List.mem_singleton] at hid'
      rw [hid']
      exact hnew r hr
    · simp only [hops, List.mem_append, List.mem_singleton]
      rintro r (hr | rfl) r' (hr' | rfl) n hn hn'
      · exact h.nonces r hr r' hr' n hn hn'
      · rw [← hn'] at hn
        exact absurd hn (hlegal.2.2 r hr)
      · rw [← hn] at hn'
        exact absurd hn' (hlegal.2.2 r' hr')
      · rfl
    · simp only [hops, List.mem_append, List.mem_singleton]
      rintro r (hr | rfl) n hn
      · exact h.nonceMinted r hr n hn
      · obtain rfl := Option.some.inj hn
        exact List.mem_map_of_mem hlegal.2.1
    · simp only [hops, List.mem_append, List.mem_singleton, Db.eventsOf, hev, changesAt_append]
      rintro r (hr | rfl)
      · have hnone : changesAt r.operationId
            [⟨w.db.nextId, none, .pendingConfirmation, none⟩] = [] := by
          refine changesAt_eq_nil fun e he => ?_
          rw [List.mem_singleton] at he
          subst he
          exact (hnew r hr).symm
        rw [hnone, List.append_nil]
        exact h.paths r hr
      · have hold : changesAt w.db.nextId w.db.events = [] := by
          refine changesAt_eq_nil fun e he => ?_
          obtain ⟨r, hr, hid⟩ := h.stray e he
          rw [← hid]
          exact hnew r hr
        have hself : changesAt w.db.nextId [⟨w.db.nextId, none, .pendingConfirmation, none⟩]
            = [(none, .pendingConfirmation)] := by
          simp [changesAt]
        simp only [RequestArgs.row, hold, hself, List.nil_append]
        exact .request
    · simp only [hops, hev, List.mem_append, List.mem_singleton]
      rintro e (he | rfl)
      · obtain ⟨r, hr, hid⟩ := h.stray e he
        exact ⟨r, Or.inl hr, hid⟩
      · exact ⟨_, Or.inr rfl, rfl⟩

/-- A fresh nonce keeps the invariant. -/
theorem Inv.mint {w : LedgerWorld} (h : Inv w) {nonce : String} {i : Nat}
    (hn : nonce ∉ w.minted.map Prod.fst) : Inv { w with minted := (nonce, i) :: w.minted } :=
  { h with
    minted := List.nodup_cons.mpr ⟨hn, h.minted⟩
    nonceMinted := fun r hr n hrn => List.mem_cons_of_mem _ (h.nonceMinted r hr n hrn) }

end SteamAgent.Execution.Ledger
