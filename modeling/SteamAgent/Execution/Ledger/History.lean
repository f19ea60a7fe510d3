import SteamAgent.Execution.Ledger.Invariant

/-!
# What a run of the ledger keeps

Two relations between an earlier and a later database.

* `Records`: one block.  Every operation either keeps its state and its
  events, or changes state and gets one event for the change.
* `Evolves`: any number of blocks.  Rows and events stay, a terminal row stays
  as it is, and a plan key that was spent gets no new row.

Both follow from `Outcome`, so they hold of every legal block.
-/

namespace SteamAgent.Execution.Ledger

/-- The state of an operation, if it has a row. -/
def Db.stateOf (db : Db) (id : Nat) : Option OperationState :=
  (db.find id).map Row.state

/-- Every state change is recorded, once, by the block that makes it. -/
def Records (db db' : Db) : Prop :=
  ∀ id, db'.stateOf id = db.stateOf id ∧ db'.eventsOf id = db.eventsOf id ∨
    ∃ t, db'.stateOf id = some t ∧ db.stateOf id ≠ some t ∧
      db'.eventsOf id = db.eventsOf id ++ [(db.stateOf id, t)]

/-- The operation left `pending_confirmation` and `authorized` other than by
expiring. -/
def OperationState.started (s : OperationState) : Prop :=
  s ≠ .pendingConfirmation ∧ s ≠ .authorized ∧ s ≠ .expired

/-- A plan key is spent when a row with it was started. -/
def Spent (db : Db) (key : String) : Prop :=
  ∃ r ∈ db.operations, r.planKey = key ∧ r.state.started

/-- What holds between a database and a later one. -/
structure Evolves (db db' : Db) : Prop where
  rows : ∀ r ∈ db.operations, ∃ r' ∈ db'.operations,
    r'.operationId = r.operationId ∧ r'.planKey = r.planKey ∧
      (r.state.started → r'.state.started)
  events : db.events <+: db'.events
  terminal : ∀ r ∈ db.operations, r.state.terminal = true → r ∈ db'.operations
  frozen : ∀ key, Spent db key → ∀ r' ∈ db'.operations, r'.planKey = key →
    ∃ r ∈ db.operations, r.operationId = r'.operationId ∧ r.planKey = key

theorem Evolves.spent {db db' : Db} (h : Evolves db db') {key : String} (hk : Spent db key) :
    Spent db' key := by
  obtain ⟨r, hr, hkey, hs⟩ := hk
  obtain ⟨r', hr', _, hkey', hs'⟩ := h.rows r hr
  exact ⟨r', hr', hkey'.trans hkey, hs' hs⟩

theorem Evolves.refl (db : Db) : Evolves db db where
  rows r hr := ⟨r, hr, rfl, rfl, fun hs => hs⟩
  events := List.prefix_rfl
  terminal _ hr _ := hr
  frozen _ _ r hr hkey := ⟨r, hr, rfl, hkey⟩

theorem Evolves.trans {a b c : Db} (h : Evolves a b) (h' : Evolves b c) : Evolves a c where
  rows r hr := by
    obtain ⟨r', hr', hid, hkey, hs⟩ := h.rows r hr
    obtain ⟨r'', hr'', hid', hkey', hs'⟩ := h'.rows r' hr'
    exact ⟨r'', hr'', hid'.trans hid, hkey'.trans hkey, fun h => hs' (hs h)⟩
  events := h.events.trans h'.events
  terminal r hr ht := h'.terminal r (h.terminal r hr ht) ht
  frozen key hk r'' hr'' hkey := by
    obtain ⟨r', hr', hid', hkey'⟩ := h'.frozen key (h.spent hk) r'' hr'' hkey
    obtain ⟨r, hr, hid, hkey⟩ := h.frozen key hk r' hr' hkey'
    exact ⟨r, hr, hid.trans hid', hkey⟩

/-! ## Looking a row up -/

theorem Inv.find_eq {w : LedgerWorld} (h : Inv w) {r : Row} (hr : r ∈ w.db.operations) :
    w.db.find r.operationId = some r := by
  have hsome : (w.db.find r.operationId).isSome := by
    rw [Db.find, List.find?_isSome]
    exact ⟨r, hr, beq_self_eq_true _⟩
  obtain ⟨q, hq⟩ := Option.isSome_iff_exists.mp hsome
  have hid : q.operationId = r.operationId := by simpa using List.find?_some hq
  rw [hq, h.eq_of_id (List.mem_of_find?_eq_some hq) hr hid]

theorem Db.mem_of_find {db : Db} {id : Nat} {r : Row} (h : db.find id = some r) :
    r ∈ db.operations ∧ r.operationId = id :=
  ⟨List.mem_of_find?_eq_some h, by simpa using List.find?_some h⟩

theorem Db.find_eq_none {db : Db} {id : Nat} :
    db.find id = none ↔ ∀ r ∈ db.operations, r.operationId ≠ id := by
  simp [Db.find, List.find?_eq_none]

/-- No state is its own successor. -/
theorem ne_of_mem_transitions {s t : OperationState} (h : t ∈ transitions s) : s ≠ t := by
  rintro rfl
  revert h
  cases s <;> decide

/-! ## One block -/

theorem Amends.find {w : LedgerWorld} {db : Db} (h' : Inv ⟨db, w.minted⟩) {g : Row → Row}
    {es : List Event} (ha : Amends w.db.operations g es)
    (hops : db.operations = w.db.operations.map g) {r : Row} (hr : r ∈ w.db.operations) :
    db.find r.operationId = some (g r) := by
  rw [← ha.id r hr]
  refine h'.find_eq ?_
  simp only [hops]
  exact List.mem_map_of_mem hr

theorem Amends.records {w : LedgerWorld} {db : Db} (h' : Inv ⟨db, w.minted⟩)
    {g : Row → Row} {es : List Event} (ha : Amends w.db.operations g es)
    (hops : db.operations = w.db.operations.map g) (hev : db.events = w.db.events ++ es) :
    Records w.db db := by
  intro id
  simp only [Db.stateOf, Db.eventsOf, hev, changesAt_append]
  cases hf : w.db.find id with
  | none =>
    have hnone : db.find id = none := by
      refine Db.find_eq_none.mpr fun r' hr' => ?_
      rw [hops] at hr'
      obtain ⟨r, hr, rfl⟩ := List.mem_map.mp hr'
      rw [ha.id r hr]
      exact Db.find_eq_none.mp hf r hr
    have hes : changesAt id es = [] := by
      refine changesAt_eq_nil fun e he => ?_
      obtain ⟨r, hr, hid⟩ := ha.stray e he
      rw [← hid]
      exact Db.find_eq_none.mp hf r hr
    exact Or.inl ⟨by rw [hnone], by rw [hes, List.append_nil]⟩
  | some r =>
    obtain ⟨hr, rfl⟩ := Db.mem_of_find hf
    have hgr := ha.find h' hops hr
    rcases ha.moves r hr with ⟨hg, hes⟩ | ⟨ht, hes⟩
    · exact Or.inl ⟨by rw [hgr, hg], by rw [hes, List.append_nil]⟩
    · refine Or.inr ⟨(g r).state, by rw [hgr]; rfl, ?_, by rw [hes]; rfl⟩
      simpa using ne_of_mem_transitions ht

/-- A legal block records the change it makes. -/
theorem Inv.records {i : Nat} {w : LedgerWorld} (h : Inv w) {db : Db} (ho : Outcome i w db) :
    Records w.db db := by
  have h' := h.outcome ho
  cases ho with
  | same hops hev _ _ =>
    intro id
    exact Or.inl ⟨by simp only [Db.stateOf, Db.find, hops], by simp only [Db.eventsOf, hev]⟩
  | amend g es ha hops hev _ _ => exact ha.records h' hops hev
  | insert args operation nonce expires hlegal hfree hops hev _ _ =>
    intro id
    simp only [Db.stateOf, Db.eventsOf, hev, changesAt_append, Db.find, hops, List.find?_append]
    by_cases hid : id = w.db.nextId
    · subst hid
      have hnone : w.db.find w.db.nextId = none :=
        Db.find_eq_none.mpr fun r hr => Nat.ne_of_lt (Db.lt_nextId hr)
      refine Or.inr ⟨.pendingConfirmation, ?_, ?_, ?_⟩
      · rw [show w.db.operations.find? _ = none from hnone]
        simp [RequestArgs.row]
      · rw [show w.db.operations.find? _ = none from hnone]
        simp
      · rw [show w.db.operations.find? _ = none from hnone]
        simp [changesAt]
    · refine Or.inl ⟨?_, ?_⟩
      · have hne : w.db.nextId ≠ id := fun he => hid he.symm
        simp [RequestArgs.row, hne]
      · have hnil : changesAt id [⟨w.db.nextId, none, .pendingConfirmation, none⟩] = [] := by
          refine changesAt_eq_nil fun e he => ?_
          rw [List.mem_singleton] at he
          subst he
          exact fun he => hid he.symm
        rw [hnil, List.append_nil]

/-- A started operation does not expire. -/
theorem started_of_mem_transitions {s t : OperationState} (h : t ∈ transitions s)
    (hs : s.started) : t.started := by
  obtain ⟨hp, ha, _⟩ := hs
  have hall : ∀ t ∈ transitions s,
      t ≠ .pendingConfirmation ∧ t ≠ .authorized ∧ t ≠ .expired := by
    revert hp ha
    cases s <;> decide
  exact hall t h

theorem Amends.evolves {rows : List Row} {g : Row → Row} {es : List Event}
    (ha : Amends rows g es) {db db' : Db} (hrows : db.operations = rows)
    (hops : db'.operations = rows.map g) (hev : db'.events = db.events ++ es) :
    Evolves db db' := by
  subst hrows
  have hmem : ∀ r ∈ db.operations, g r ∈ db'.operations := fun r hr => by
    rw [hops]
    exact List.mem_map_of_mem hr
  refine ⟨fun r hr => ⟨g r, hmem r hr, ha.id r hr, ha.planKey r hr, fun hs => ?_⟩, ?_, ?_, ?_⟩
  · rcases ha.moves r hr with ⟨hg, _⟩ | ⟨hg, _⟩
    · rwa [hg]
    · exact started_of_mem_transitions hg hs
  · rw [hev]
    exact List.prefix_append _ _
  · intro r hr ht
    rcases ha.moves r hr with ⟨hg, _⟩ | ⟨hg, _⟩
    · rw [← hg]
      exact hmem r hr
    · rw [transitions_of_terminal ht] at hg
      simp at hg
  · intro key _ r' hr' hkey
    rw [hops] at hr'
    obtain ⟨r, hr, rfl⟩ := List.mem_map.mp hr'
    exact ⟨r, hr, (ha.id r hr).symm, by rw [← ha.planKey r hr, hkey]⟩

/-- A legal block keeps what a run keeps. -/
theorem Outcome.evolves {i : Nat} {w : LedgerWorld} {db : Db} (ho : Outcome i w db) :
    Evolves w.db db := by
  cases ho with
  | same hops hev _ _ =>
    have heq : Evolves w.db { w.db with operations := db.operations, events := db.events } := by
      rw [hops, hev]
      exact .refl _
    exact ⟨heq.rows, heq.events, heq.terminal, heq.frozen⟩
  | amend g es ha hops hev _ _ => exact ha.evolves rfl hops hev
  | insert args operation nonce expires hlegal hfree hops hev _ _ =>
    have hmem : ∀ r ∈ w.db.operations, r ∈ db.operations := fun r hr => by
      rw [hops]
      exact List.mem_append_left _ hr
    refine ⟨fun r hr => ⟨r, hmem r hr, rfl, rfl, fun hs => hs⟩, ?_, fun r hr _ => hmem r hr, ?_⟩
    · rw [hev]
      exact List.prefix_append _ _
    · -- the insert found no row of its key outside `expired`
      rintro key ⟨r, hr, hkey, _, _, hexp⟩ r' hr' hkey'
      rw [hops, List.mem_append, List.mem_singleton] at hr'
      rcases hr' with hr' | rfl
      · exact ⟨r', hr', rfl, hkey'⟩
      · exact absurd (hfree r hr (hkey.trans hkey'.symm)) hexp

end SteamAgent.Execution.Ledger
