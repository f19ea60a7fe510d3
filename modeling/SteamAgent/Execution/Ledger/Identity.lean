import SteamAgent.Execution.Ledger.Connections

/-!
# The life of a row

`Row.Step` says what one block can do to one row, and `Row.Life` what any
number of blocks can do to it.  Everything below is read off these two.

There are four groups.

* `Row.origin`, what `request` wrote and no block changes, and what a life
  keeps of the other columns.
* `Row.Sealed`: a row either waits with its nonce or carries the confirmation
  that consumed it.
* `Db.Keeps`, the rows of an earlier database in a later one, and
  `Txn.rewrites`, the one case analysis over the blocks.
* The runs of any number of connections.
-/

namespace SteamAgent.Execution.Ledger

open Effects

/-! ## One row -/

/-- What `request` wrote into a row and no block changes. -/
def Row.origin (r : Row) :
    Nat × String × PlanDocument × Operation × Nat × String × String × String :=
  (r.operationId, r.planKey, r.planDocument, r.operation, r.appid, r.accountAlias, r.machineId,
    r.policyVersion)

/-- What one block does to a row that it changes. -/
inductive Row.Step : Row → Row → Prop
  /-- `confirm`. -/
  | consume {r : Row} (actor : String) (window : Stamp) (hs : r.state = .pendingConfirmation)
      (hn : r.nonce.isSome) :
      Step r { r with
        state := .authorized, nonce := none, nonceExpiresAt := none,
        confirmationActor := some actor, executionWindowExpiresAt := some window }
  /-- `transition`. -/
  | move {r : Row} (t : OperationState) (detail : Option String) (prior : Option Bool)
      (ht : t ∈ transitions r.state) :
      Step r { r with
        state := t, detail := detail, priorClientRunning := prior.or r.priorClientRunning }
  /-- `expire_lapsed`. -/
  | expire {r : Row} (hs : OperationState.expired ∈ transitions r.state) :
      Step r { r with state := .expired }

/-- What any number of blocks does to a row. -/
def Row.Life : Row → Row → Prop :=
  Relation.ReflTransGen Row.Step

namespace Row

variable {r r' : Row}

theorem Step.origin (h : Step r r') : r'.origin = r.origin := by
  cases h <;> rfl

theorem Step.state (h : Step r r') : r'.state ∈ transitions r.state := by
  cases h with
  | consume actor window hs => simp [hs, transitions]
  | move t detail prior ht => exact ht
  | expire hs => exact hs

theorem Step.nonce (h : Step r r') : r'.nonce = r.nonce ∨ r'.nonce = none := by
  cases h with
  | consume => exact Or.inr rfl
  | move => exact Or.inl rfl
  | expire => exact Or.inl rfl

theorem Step.priorClientRunning (h : Step r r') (hr : r.priorClientRunning.isSome) :
    r'.priorClientRunning.isSome := by
  cases h with
  | consume => exact hr
  | move t detail prior ht =>
    show (prior.or r.priorClientRunning).isSome = true
    rw [Option.isSome_or, hr, Bool.or_true]
  | expire => exact hr

theorem Life.origin (h : Life r r') : r'.origin = r.origin := by
  induction h with
  | refl => rfl
  | tail _ hs ih => exact hs.origin.trans ih

/-- The state moved along `_TRANSITIONS`. -/
theorem Life.state (h : Life r r') :
    Relation.ReflTransGen (fun s t => t ∈ transitions s) r.state r'.state := by
  induction h with
  | refl => exact .refl
  | tail _ hs ih => exact ih.tail hs.state

/-- A consumed nonce does not come back. -/
theorem Life.nonce (h : Life r r') : r'.nonce = r.nonce ∨ r'.nonce = none := by
  induction h with
  | refl => exact Or.inl rfl
  | tail _ hs ih =>
    rcases hs.nonce with hn | hn
    · rw [hn]
      exact ih
    · exact Or.inr hn

/-- What was recorded about the client is not erased. -/
theorem Life.priorClientRunning (h : Life r r') (hr : r.priorClientRunning.isSome) :
    r'.priorClientRunning.isSome := by
  induction h with
  | refl => exact hr
  | tail _ hs ih => exact hs.priorClientRunning ih

/-! ## The confirmation of a row -/

/-- The row was not confirmed: it holds its nonce, and neither an actor nor an
execution window. -/
structure Unconfirmed (r : Row) : Prop where
  nonce : r.nonce.isSome
  nonceExpiresAt : r.nonceExpiresAt.isSome
  actor : r.confirmationActor = none
  window : r.executionWindowExpiresAt = none

/-- The row was confirmed by an actor, with its nonce. -/
structure Confirmed (r : Row) : Prop where
  nonce : r.nonce = none
  nonceExpiresAt : r.nonceExpiresAt = none
  actor : r.confirmationActor.isSome
  window : r.executionWindowExpiresAt.isSome
  state : r.state ≠ .pendingConfirmation

/-- One of the two. -/
def Sealed (r : Row) : Prop :=
  r.Unconfirmed ∨ r.Confirmed

/-- No state leads back to the first one. -/
theorem pendingConfirmation_notMem_transitions (s : OperationState) :
    OperationState.pendingConfirmation ∉ transitions s := by
  cases s <;> decide

/-- A confirmation is written once. -/
theorem Step.confirmed (h : Step r r') (hr : r.Confirmed) :
    r'.Confirmed ∧ r'.confirmationActor = r.confirmationActor ∧
      r'.executionWindowExpiresAt = r.executionWindowExpiresAt := by
  have hne : r'.state ≠ .pendingConfirmation := by
    intro he
    exact pendingConfirmation_notMem_transitions _ (he ▸ h.state)
  cases h with
  | consume actor window hs => exact absurd hs hr.state
  | move => exact ⟨⟨hr.nonce, hr.nonceExpiresAt, hr.actor, hr.window, hne⟩, rfl, rfl⟩
  | expire => exact ⟨⟨hr.nonce, hr.nonceExpiresAt, hr.actor, hr.window, hne⟩, rfl, rfl⟩

theorem Step.sealed (h : Step r r') (hr : r.Sealed) : r'.Sealed := by
  rcases hr with hr | hr
  · cases h with
    | consume => exact Or.inr ⟨rfl, rfl, rfl, rfl, OperationState.noConfusion⟩
    | move => exact Or.inl ⟨hr.nonce, hr.nonceExpiresAt, hr.actor, hr.window⟩
    | expire => exact Or.inl ⟨hr.nonce, hr.nonceExpiresAt, hr.actor, hr.window⟩
  · exact Or.inr (h.confirmed hr).1

theorem Life.confirmed (h : Life r r') (hr : r.Confirmed) :
    r'.Confirmed ∧ r'.confirmationActor = r.confirmationActor ∧
      r'.executionWindowExpiresAt = r.executionWindowExpiresAt := by
  induction h with
  | refl => exact ⟨hr, rfl, rfl⟩
  | tail _ hs ih =>
    obtain ⟨hc, ha, hw⟩ := hs.confirmed ih.1
    exact ⟨hc, ha.trans ih.2.1, hw.trans ih.2.2⟩

/-- A sealed row with an actor keeps actor and window. -/
theorem Life.actor (h : Life r r') (hr : r.Sealed) {actor : String}
    (ha : r.confirmationActor = some actor) :
    r'.confirmationActor = some actor ∧
      r'.executionWindowExpiresAt = r.executionWindowExpiresAt := by
  rcases hr with hr | hr
  · rw [hr.actor] at ha
    cases ha
  · have hc := h.confirmed hr
    exact ⟨hc.2.1.trans ha, hc.2.2⟩

end Row

theorem RequestArgs.row_unconfirmed (args : RequestArgs) (operation : Operation) (id : Nat)
    (nonce : String) (expires : Stamp) :
    (args.row operation id nonce expires).Unconfirmed :=
  ⟨rfl, rfl, rfl, rfl⟩

/-! ## All rows -/

/-- Every row stays at its place and only lives on. -/
def Db.Keeps (db db' : Db) : Prop :=
  ∀ (k : Nat) (r : Row), db.operations[k]? = some r → ∃ r', db'.operations[k]? = some r' ∧ r.Life r'

theorem Db.Keeps.refl (db : Db) : db.Keeps db :=
  fun _ r hr => ⟨r, hr, .refl⟩

theorem Db.Keeps.trans {a b c : Db} (h : a.Keeps b) (h' : b.Keeps c) : a.Keeps c := by
  intro k r hr
  obtain ⟨r', hr', hl⟩ := h k r hr
  obtain ⟨r'', hr'', hl'⟩ := h' k r' hr'
  exact ⟨r'', hr'', Relation.ReflTransGen.trans hl hl'⟩

/-- The rows after a block that adds none: each is kept or takes a step. -/
def Db.Rewrites (db db' : Db) : Prop :=
  ∃ g : Row → Row, (∀ r ∈ db.operations, g r = r ∨ r.Step (g r)) ∧
    db'.operations = db.operations.map g

/-- The rows after a block: they are rewritten, or one new row comes after all
others. -/
inductive Db.Next (db db' : Db) : Prop
  | rewrite (h : db.Rewrites db')
  | append (args : RequestArgs) (operation : Operation) (nonce : String) (expires : Stamp)
      (h : db'.operations = db.operations ++ [args.row operation db.nextId nonce expires])

theorem Db.Rewrites.of_eq {db db' : Db} (h : db'.operations = db.operations) : db.Rewrites db' :=
  ⟨id, fun _ _ => Or.inl rfl, by rw [List.map_id, h]⟩

theorem Db.Rewrites.commit {α : Type} {db db' : Db} (h : db.Rewrites db') (a : α) :
    db.Rewrites (db.commit db' a).2 := by
  rcases Db.commit_cases db db' a with ⟨_, h2, _⟩ | ⟨_, h2⟩
  · rw [h2]
    exact h
  · rw [h2]
    exact .of_eq rfl

theorem Db.Rewrites.modify {db : Db} {hit : Row → Bool} {change : Row → Row} (es : List Event)
    (hs : ∀ r ∈ db.operations, hit r = true → r.Step (change r)) :
    db.Rewrites ((db.modify hit change).record es) := by
  refine ⟨fun r => if hit r then change r else r, ?_, rfl⟩
  intro r hr
  dsimp only
  split
  · exact Or.inr (hs r hr (by assumption))
  · exact Or.inl rfl

/-- An update writes a successor of the state it pins. -/
def Txn.Follows : Txn → Prop
  | .update _ fromState toState _ _ => toState ∈ transitions fromState
  | _ => True

/-- The block of `request`. -/
def Txn.isInsert : Txn → Bool
  | .insert .. => true
  | _ => false

theorem Txn.Legal.follows {i : Nat} {w : LedgerWorld} {t : Txn} (h : t.Legal i w) : t.Follows := by
  cases t with
  | update => exact h
  | _ => trivial

/-- The one case analysis over the blocks. -/
theorem Txn.rewrites {t : Txn} (ht : t.Follows) (hi : t.isInsert = false) (db : Db) :
    db.Rewrites (t.run db).2 := by
  have hsame : db.Rewrites db := .of_eq rfl
  cases t with
  | createTables => exact .of_eq rfl
  | rebuildActiveIndex =>
    simp only [Txn.run]
    split
    · refine Db.Rewrites.commit ?_ ()
      exact .of_eq rfl
    · exact hsame
  | createPlanKeyIndex =>
    simp only [Txn.run]
    split
    · refine Db.Rewrites.commit ?_ ()
      exact .of_eq rfl
    · exact hsame
  | insert => cases hi
  | consume nonce actor window now =>
    simp only [Txn.run, Txn.runConsume]
    split
    · split
      · exact hsame
      · refine (Db.Rewrites.modify _ ?_).commit _
        intro r _ hr
        simp only [consumable, Bool.and_eq_true, beq_iff_eq] at hr
        exact .consume actor window hr.1.2 (by rw [hr.1.1]; rfl)
    · exact hsame
  | update id s t detail prior =>
    simp only [Txn.run, Txn.runUpdate]
    split
    · split
      · exact hsame
      · refine (Db.Rewrites.modify _ ?_).commit _
        intro r _ hr
        simp only [expected, Bool.and_eq_true, beq_iff_eq] at hr
        exact .move t detail prior (by rw [hr.2]; exact ht)
    · exact hsame
  | expire now =>
    simp only [Txn.run, Txn.runExpire]
    split
    · refine (Db.Rewrites.modify _ ?_).commit _
      intro r _ hr
      simp only [lapsedPending, lapsedAuthorized, lapsed, Bool.or_eq_true, Bool.and_eq_true,
        beq_iff_eq] at hr
      refine .expire ?_
      rcases hr with hr | hr
      · rw [hr.1]
        simp [transitions]
      · rw [hr.1]
        simp [transitions]
    · exact hsame

/-- The block of `request` adds its row, or nothing changes. -/
theorem Txn.insert_rows (args : RequestArgs) (operation : Operation) (nonce : String)
    (expires : Stamp) (db : Db) :
    (Txn.run db (.insert args operation nonce expires)).1 = .ok db.nextId ∧
        (Txn.run db (.insert args operation nonce expires)).2.operations =
          db.operations ++ [args.row operation db.nextId nonce expires] ∨
      (∃ x, (Txn.run db (.insert args operation nonce expires)).1 = .error x) ∧
        (Txn.run db (.insert args operation nonce expires)).2 = db := by
  simp only [Txn.run, Txn.runInsert]
  split
  · split
    · exact Or.inr ⟨⟨_, rfl⟩, rfl⟩
    · rcases Db.commit_cases db
        (({ db with operations := db.operations ++ [args.row operation db.nextId nonce expires] } :
          Db).record [⟨db.nextId, none, .pendingConfirmation, none⟩]) db.nextId
        with ⟨h1, h2, _⟩ | ⟨h1, h2⟩
      · exact Or.inl ⟨h1, by rw [h2]; rfl⟩
      · exact Or.inr ⟨⟨_, h1⟩, h2⟩
  · exact Or.inr ⟨⟨_, rfl⟩, rfl⟩

theorem Txn.next {t : Txn} (ht : t.Follows) (db : Db) : db.Next (t.run db).2 := by
  cases t with
  | insert args operation nonce expires =>
    rcases Txn.insert_rows args operation nonce expires db with ⟨_, h⟩ | ⟨_, h⟩
    · exact .append args operation nonce expires h
    · exact .rewrite (.of_eq (congrArg Db.operations h))
  | _ => exact .rewrite (Txn.rewrites ht rfl db)

theorem Db.Next.keeps {db db' : Db} (h : db.Next db') : db.Keeps db' := by
  intro k r hr
  cases h with
  | rewrite h =>
    obtain ⟨g, hg, h⟩ := h
    refine ⟨g r, by rw [h, List.getElem?_map, hr]; rfl, ?_⟩
    rcases hg r (List.mem_of_getElem? hr) with he | hs
    · rw [he]
      exact .refl
    · exact .single hs
  | append args operation nonce expires h =>
    refine ⟨r, ?_, .refl⟩
    rw [h, List.getElem?_append_left (List.getElem?_eq_some_iff.mp hr).1]
    exact hr

/-! ## The invariant -/

/-- Every row is sealed, and the rows stand in the order of their ids. -/
structure Db.Ordered (db : Db) : Prop where
  sealed : ∀ r ∈ db.operations, r.Sealed
  ids : (db.operations.map Row.operationId).Pairwise (· < ·)

theorem Db.Ordered.next {db db' : Db} (h : db.Ordered) (hn : db.Next db') : db'.Ordered := by
  cases hn with
  | rewrite h' =>
    obtain ⟨g, hg, he⟩ := h'
    have hid : (db.operations.map g).map Row.operationId = db.operations.map Row.operationId := by
      rw [List.map_map]
      refine List.map_congr_left ?_
      intro r hr
      rcases hg r hr with hgr | hs
      · exact congrArg Row.operationId hgr
      · exact congrArg Prod.fst hs.origin
    refine ⟨?_, by rw [he, hid]; exact h.ids⟩
    intro r' hr'
    rw [he] at hr'
    obtain ⟨r, hr, rfl⟩ := List.mem_map.mp hr'
    rcases hg r hr with hgr | hs
    · rw [hgr]
      exact h.sealed r hr
    · exact hs.sealed (h.sealed r hr)
  | append args operation nonce expires he =>
    refine ⟨?_, ?_⟩
    · intro r hr
      rw [he, List.mem_append, List.mem_singleton] at hr
      rcases hr with hr | rfl
      · exact h.sealed r hr
      · exact Or.inl (args.row_unconfirmed operation _ nonce expires)
    · rw [he, List.map_append, List.pairwise_append]
      refine ⟨h.ids, List.pairwise_singleton _ _, ?_⟩
      intro id hid id' hid'
      obtain ⟨r, hr, rfl⟩ := List.mem_map.mp hid
      rw [List.map_singleton, List.mem_singleton] at hid'
      rw [hid']
      exact Db.lt_nextId hr

/-! ## Every run -/

/-- A call leaves the database or runs a block. -/
theorem perform_db {i : Nat} {w w' : LedgerWorld} {c : LedgerCall} {a : c.Ans}
    (h : LedgerCall.perform i w c a w') :
    w'.db = w.db ∨ ∃ t, c = .transaction t ∧ w'.db = (t.run w.db).2 := by
  cases c with
  | utcnow => exact Or.inl (congrArg LedgerWorld.db h)
  | tokenHex =>
    refine Or.inl ?_
    rw [show w' = _ from h.2]
  | selectOperation id => exact Or.inl (congrArg LedgerWorld.db h.1)
  | selectActive => exact Or.inl (congrArg LedgerWorld.db h.1)
  | transaction t =>
    rcases h with ⟨_, hw⟩ | ⟨_, hw⟩
    · exact Or.inr ⟨t, rfl, congrArg LedgerWorld.db hw⟩
    · exact Or.inl (congrArg LedgerWorld.db hw)

/-- A step of the connections runs one legal block, or leaves the database. -/
theorem Step.block {s s' : System LedgerSig LedgerWorld Exn Unit}
    (h : System.Reach connections noLedger s) (hs : System.Step connections s s') :
    s'.world.db = s.world.db ∨
      ∃ i t, Txn.Legal i s.world t ∧ s'.world.db = (t.run s.world.db).2 := by
  have hgood := good_of_reach h
  cases hs with
  | start _ => exact Or.inl rfl
  | @move i c k l a w' hi hc =>
    have hg := ((hgood.kept i _ hi).safe rfl s.world (Rely.refl _ _) a w' ⟨hgood.inv, hc⟩).1.1
    rcases perform_db hc with hdb | ⟨t, ht, hdb⟩
    · exact Or.inl hdb
    · exact Or.inr ⟨i, t, hg t ht, hdb⟩
  | kill _ _ => exact Or.inl rfl
  | drift hd => exact hd.elim

/-- A step of the connections makes one block's difference to the rows. -/
theorem Step.next {s s' : System LedgerSig LedgerWorld Exn Unit}
    (h : System.Reach connections noLedger s) (hs : System.Step connections s s') :
    s.world.db.Next s'.world.db := by
  rcases Step.block h hs with hdb | ⟨i, t, hl, hdb⟩
  · exact .rewrite (.of_eq (congrArg Db.operations hdb))
  · rw [hdb]
    exact Txn.next hl.follows _

/-- Whatever the connections do, the rows are kept. -/
theorem keeps_of_reach {s s' : System LedgerSig LedgerWorld Exn Unit}
    (h : System.Reach connections noLedger s) (hr : System.Reach connections s s') :
    s.world.db.Keeps s'.world.db := by
  induction hr with
  | refl => exact .refl _
  | tail hr hs ih => exact ih.trans (Step.next (h.trans hr) hs).keeps

theorem ordered_of_reach {s : System LedgerSig LedgerWorld Exn Unit}
    (h : System.Reach connections noLedger s) : s.world.db.Ordered := by
  induction h with
  | refl => exact ⟨fun _ hr => absurd hr List.not_mem_nil, List.Pairwise.nil⟩
  | tail hr hs ih => exact ih.next (Step.next hr hs)

/-- A row of an earlier ledger is in every later one, at the same place and with
the request it was recorded for.  Its state moved along `_TRANSITIONS`, a
consumed nonce is gone for good, and a recorded confirmation and a recorded
client state are not taken back. -/
theorem rows_live_on {s s' : System LedgerSig LedgerWorld Exn Unit}
    (h : System.Reach connections noLedger s) (hr : System.Reach connections s s')
    {k : Nat} {r : Row} (hk : s.world.db.operations[k]? = some r) :
    ∃ r', s'.world.db.operations[k]? = some r' ∧ r'.origin = r.origin ∧
      Relation.ReflTransGen (fun s t => t ∈ transitions s) r.state r'.state ∧
      (r'.nonce = r.nonce ∨ r'.nonce = none) ∧
      (∀ actor, r.confirmationActor = some actor → r'.confirmationActor = some actor ∧
        r'.executionWindowExpiresAt = r.executionWindowExpiresAt) ∧
      (r.priorClientRunning.isSome → r'.priorClientRunning.isSome) := by
  obtain ⟨r', hr', hl⟩ := keeps_of_reach h hr k r hk
  have hsealed := (ordered_of_reach h).sealed r (List.mem_of_getElem? hk)
  exact ⟨r', hr', hl.origin, hl.state, hl.nonce, fun _ ha => hl.actor hsealed ha,
    hl.priorClientRunning⟩

theorem rows_live_on_requested :
    ∃ r', confirmed.world.db.operations[0]? = some r' ∧
      r'.origin = (portal.row .install 1 "0" 1600).origin ∧ r'.state = .authorized ∧
      Relation.ReflTransGen (fun s t => t ∈ transitions s) .pendingConfirmation r'.state := by
  obtain ⟨r', hr', ho, hmoved, -⟩ := rows_live_on reach_requested reach_confirmed
    (k := 0) (r := portal.row .install 1 "0" 1600) (by decide)
  have hstate : confirmed.world.db.operations[0]?.map Row.state = some .authorized := by
    decide
  rw [hr'] at hstate
  exact ⟨r', hr', ho, Option.some.inj hstate, hmoved⟩

/-- In every reachable ledger a row holds either its nonce or the confirmation
that consumed it.  So a row with an execution window was confirmed by an actor
with its nonce, and a pending row was not. -/
theorem confirmation_sealed {s : System LedgerSig LedgerWorld Exn Unit}
    (h : System.Reach connections noLedger s) :
    (s.world.db.operations.map Row.operationId).Pairwise (· < ·) ∧
    ∀ r ∈ s.world.db.operations, r.Sealed ∧
      (r.state = .pendingConfirmation → r.Unconfirmed) ∧
      (r.executionWindowExpiresAt.isSome → r.Confirmed) ∧ (r.nonce.isSome → r.Unconfirmed) := by
  have hord := ordered_of_reach h
  refine ⟨hord.ids, ?_⟩
  intro r hr
  have hs := hord.sealed r hr
  refine ⟨hs, ?_, ?_, ?_⟩
  · intro hp
    exact hs.resolve_right fun hc => hc.state hp
  · intro hw
    refine hs.resolve_left fun hu => ?_
    rw [hu.window] at hw
    cases hw
  · intro hn
    refine hs.resolve_right fun hc => ?_
    rw [hc.nonce] at hn
    cases hn

/-- The requested row is unconfirmed, and the same row is confirmed later. -/
theorem confirmation_sealed_requested :
    (portal.row .install 1 "0" 1600).Unconfirmed ∧
      confirmed.world.db.operations.map Row.operationId = [1] ∧
      ∀ r ∈ confirmed.world.db.operations, r.Confirmed := by
  have hwindow : ∀ r ∈ confirmed.world.db.operations, r.executionWindowExpiresAt.isSome = true :=
    List.all_eq_true.mp (by decide)
  exact ⟨((confirmation_sealed reach_requested).2 _ (by decide)).2.1 rfl, by decide,
    fun r hr => ((confirmation_sealed (reach_requested.trans reach_confirmed)).2 r hr).2.2.1
      (hwindow r hr)⟩

end SteamAgent.Execution.Ledger
