import SteamAgent.Storage.Values

/-!
# `sync_runs`

The table of sync runs, and the selections that the methods make on it.

`Runs` keeps the rows in the order of their ids.  Ids come from an
`AUTOINCREMENT` column, so an id is never given out twice, and `last` is the
last one given out.

There are four groups.

* `limitOne`: the first row of an ordered selection.
* `Runs` and what its statements do to the rows.
* `Runs.Extends` and `Runs.Settles`: what stays of a run, and of a terminal run,
  while the table changes.
* `getSyncRun` and `latestAccountSync`.
-/

namespace SteamAgent.Storage

/-! ## Ordered selections -/

section LimitOne

variable {α : Type} {before : α → α → Bool} {rows : List α} {r : α}

/-- `ORDER BY … LIMIT 1`: a row that no row comes before. -/
def limitOne (before : α → α → Bool) (rows : List α) : Option α :=
  rows.find? fun r => rows.all fun r' => !before r' r

theorem mem_of_limitOne (h : limitOne before rows = some r) : r ∈ rows :=
  List.mem_of_find?_eq_some h

theorem before_of_limitOne (h : limitOne before rows = some r) {r' : α} (hr : r' ∈ rows) :
    before r' r = false := by
  have hall := List.find?_some h
  simpa using List.all_eq_true.mp hall r' hr

/-- A row that comes before every other one is the first. -/
theorem limitOne_eq_some (hr : r ∈ rows) (hself : before r r = false)
    (h : ∀ r' ∈ rows, r' ≠ r → before r r' = true ∧ before r' r = false) :
    limitOne before rows = some r := by
  have hall : (rows.all fun r' => !before r' r) = true := by
    refine List.all_eq_true.mpr fun r' hr' => ?_
    by_cases heq : r' = r
    · rw [heq, hself]
      rfl
    · rw [(h r' hr' heq).2]
      rfl
  cases hfind : limitOne before rows with
  | none =>
    have hnone := List.find?_eq_none.mp hfind r hr
    exact absurd hall (by simpa using hnone)
  | some r' =>
    by_cases heq : r' = r
    · rw [heq]
    · have hbefore := before_of_limitOne hfind hr
      rw [(h r' (mem_of_limitOne hfind) heq).1] at hbefore
      simp at hbefore

end LimitOne

/-! ## The table -/

/-- `SyncStatus`. -/
inductive SyncStatus where
  | running
  | complete
  | partialRun
  | failed
deriving DecidableEq, Repr

/-- `SyncRun`, a row of `sync_runs`. -/
structure SyncRun where
  id : Nat
  provider : String
  capability : String
  machineId : Option String
  accountId : Option Nat
  startedAt : String
  completedAt : Option String
  status : SyncStatus
  promoted : Bool
  recordsSeen : Nat
  errorCode : Option String
  errorDetail : Option String
deriving DecidableEq, Repr

/-- The table, in the order of its ids. -/
structure Runs where
  rows : List SyncRun
  last : Nat
  ordered : rows.Pairwise fun r r' => r.id < r'.id
  bound : ∀ r ∈ rows, r.id ≤ last

namespace Runs

/-- The row with an id. -/
def get? (runs : Runs) (id : Nat) : Option SyncRun :=
  runs.rows.find? fun r => r.id == id

/-- `INSERT INTO sync_runs(…)`.  The id is the next one. -/
def insert (runs : Runs) (run : SyncRun) : Runs where
  rows := runs.rows ++ [{ run with id := runs.last + 1 }]
  last := runs.last + 1
  ordered := by
    refine List.pairwise_append.mpr ⟨runs.ordered, List.pairwise_singleton .., ?_⟩
    intro r hr r' hr'
    rw [List.mem_singleton.mp hr']
    exact Nat.lt_succ_of_le (runs.bound r hr)
  bound := by
    intro r hr
    rcases List.mem_append.mp hr with hr | hr
    · exact Nat.le_succ_of_le (runs.bound r hr)
    · rw [List.mem_singleton.mp hr]

/-- `UPDATE sync_runs SET … WHERE …`.  No statement sets an id. -/
def update (runs : Runs) (p : SyncRun → Bool) (f : SyncRun → SyncRun) : Runs where
  rows := runs.rows.map fun r => if p r then { f r with id := r.id } else r
  last := runs.last
  ordered := by
    refine List.pairwise_map.mpr (runs.ordered.imp fun {r r'} h => ?_)
    split <;> split <;> exact h
  bound := by
    intro r hr
    obtain ⟨r', hr', rfl⟩ := List.mem_map.mp hr
    split <;> exact runs.bound r' hr'

/-- `DELETE FROM sync_runs WHERE …`. -/
def delete (runs : Runs) (p : SyncRun → Bool) : Runs where
  rows := runs.rows.filter fun r => !p r
  last := runs.last
  ordered := runs.ordered.filter _
  bound r hr := runs.bound r (List.mem_of_mem_filter hr)

def empty : Runs := ⟨[], 0, .nil, by simp⟩

variable {runs : Runs} {run r r' : SyncRun} {p : SyncRun → Bool} {f : SyncRun → SyncRun}

/-- Two rows with one id are one row. -/
theorem eq_of_id (hr : r ∈ runs.rows) (hr' : r' ∈ runs.rows) (h : r.id = r'.id) : r = r' := by
  obtain ⟨i, hi, rfl⟩ := List.mem_iff_getElem.mp hr
  obtain ⟨j, hj, rfl⟩ := List.mem_iff_getElem.mp hr'
  have hlt := List.pairwise_iff_getElem.mp runs.ordered
  rcases Nat.lt_trichotomy i j with hij | rfl | hij
  · have := hlt i j hi hj hij
    omega
  · rfl
  · have := hlt j i hj hi hij
    omega

theorem get?_eq_some {id : Nat} : runs.get? id = some r ↔ r ∈ runs.rows ∧ r.id = id := by
  constructor
  · intro h
    exact ⟨List.mem_of_find?_eq_some h, by simpa using List.find?_some h⟩
  · rintro ⟨hr, rfl⟩
    cases h : runs.get? r.id with
    | none =>
      have hnone := List.find?_eq_none.mp h r hr
      simp at hnone
    | some r' =>
      have hid : r'.id = r.id := by simpa using List.find?_some h
      rw [eq_of_id (List.mem_of_find?_eq_some h) hr hid]

theorem mem_insert : r ∈ (runs.insert run).rows ↔
    r ∈ runs.rows ∨ r = { run with id := runs.last + 1 } := by
  simp [insert]

theorem mem_update : r ∈ (runs.update p f).rows ↔
    ∃ r' ∈ runs.rows, (if p r' then { f r' with id := r'.id } else r') = r := by
  simp [update]

theorem mem_delete : r ∈ (runs.delete p).rows ↔ r ∈ runs.rows ∧ p r = false := by
  simp [delete]

@[simp] theorem last_insert : (runs.insert run).last = runs.last + 1 := rfl

@[simp] theorem last_update : (runs.update p f).last = runs.last := rfl

@[simp] theorem last_delete : (runs.delete p).last = runs.last := rfl

/-- `UPDATE sync_runs SET … WHERE id = ?`. -/
def set (runs : Runs) (id : Nat) (f : SyncRun → SyncRun) : Runs :=
  runs.update (fun r => r.id == id) f

@[simp] theorem last_set {id : Nat} : (runs.set id f).last = runs.last := rfl

theorem mem_set {id : Nat} : r ∈ (runs.set id f).rows ↔
    (r ∈ runs.rows ∧ r.id ≠ id) ∨ ∃ r' ∈ runs.rows, r'.id = id ∧ r = { f r' with id := id } := by
  rw [set, mem_update]
  constructor
  · rintro ⟨r', hr', rfl⟩
    by_cases hid : r'.id = id
    · rw [if_pos (by simpa using hid), hid]
      exact Or.inr ⟨r', hr', hid, rfl⟩
    · rw [if_neg (by simpa using hid)]
      exact Or.inl ⟨hr', hid⟩
  · rintro (⟨hr, hid⟩ | ⟨r', hr', rfl, rfl⟩)
    · exact ⟨r, hr, if_neg (by simpa using hid)⟩
    · exact ⟨r', hr', if_pos (by simp)⟩

/-- The other rows stay. -/
theorem mem_set_of_ne {id : Nat} (h : r.id ≠ id) : r ∈ (runs.set id f).rows ↔ r ∈ runs.rows := by
  rw [mem_set]
  constructor
  · rintro (⟨hr, _⟩ | ⟨r', _, _, rfl⟩)
    · exact hr
    · exact absurd rfl h
  · intro hr
    exact Or.inl ⟨hr, h⟩

/-- An id without a row. -/
theorem set_of_get?_eq_none {id : Nat} (h : runs.get? id = none) : runs.set id f = runs := by
  have hrows : (runs.set id f).rows = runs.rows := by
    refine (List.map_congr_left fun r hr => ?_).trans (List.map_id _)
    exact if_neg (List.find?_eq_none.mp h r hr)
  obtain ⟨rows, last, ordered, bound⟩ := runs
  simp only [set, update] at hrows ⊢
  simp only [hrows]

/-- The row that is set. -/
theorem mem_set_self (hr : r ∈ runs.rows) : { f r with id := r.id } ∈ (runs.set r.id f).rows :=
  mem_set.mpr (Or.inr ⟨r, hr, rfl, rfl⟩)

end Runs

/-! ## Runs over time -/

/-- The columns that no statement sets after the `INSERT`. -/
def SyncRun.origin (r : SyncRun) : Nat × String × Option String × Option Nat × String :=
  (r.id, r.capability, r.machineId, r.accountId, r.startedAt)

/-- Every run in `runs'` is newer than `runs`, or is one of `runs`. -/
structure Runs.Extends (runs runs' : Runs) : Prop where
  last : runs.last ≤ runs'.last
  origin : ∀ r ∈ runs'.rows, runs.last < r.id ∨ ∃ r' ∈ runs.rows, r'.origin = r.origin

namespace Runs.Extends

variable {runs runs' runs'' : Runs}

theorem refl (runs : Runs) : runs.Extends runs :=
  ⟨Nat.le_refl _, fun r hr => Or.inr ⟨r, hr, rfl⟩⟩

theorem trans (h : runs.Extends runs') (h' : runs'.Extends runs'') : runs.Extends runs'' where
  last := Nat.le_trans h.last h'.last
  origin r hr := by
    rcases h'.origin r hr with hlt | ⟨r', hr', heq⟩
    · exact Or.inl (Nat.lt_of_le_of_lt h.last hlt)
    · rcases h.origin r' hr' with hlt | ⟨r'', hr'', heq'⟩
      · have hid : r'.id = r.id := congrArg Prod.fst heq
        exact Or.inl (hid ▸ hlt)
      · exact Or.inr ⟨r'', hr'', heq'.trans heq⟩

theorem insert (runs : Runs) (run : SyncRun) : runs.Extends (runs.insert run) where
  last := Nat.le_succ _
  origin r hr := by
    rcases mem_insert.mp hr with hr | rfl
    · exact Or.inr ⟨r, hr, rfl⟩
    · exact Or.inl (Nat.lt_succ_self _)

theorem update (runs : Runs) (p : SyncRun → Bool) {f : SyncRun → SyncRun}
    (hf : ∀ r, { f r with id := r.id }.origin = r.origin) : runs.Extends (runs.update p f) where
  last := Nat.le_refl _
  origin r hr := by
    obtain ⟨r', hr', rfl⟩ := mem_update.mp hr
    refine Or.inr ⟨r', hr', ?_⟩
    split
    · exact (hf r').symm
    · rfl

theorem set (runs : Runs) (id : Nat) {f : SyncRun → SyncRun}
    (hf : ∀ r, { f r with id := r.id }.origin = r.origin) : runs.Extends (runs.set id f) :=
  update runs _ hf

theorem delete (runs : Runs) (p : SyncRun → Bool) : runs.Extends (runs.delete p) :=
  ⟨Nat.le_refl _, fun r hr => Or.inr ⟨r, (mem_delete.mp hr).1, rfl⟩⟩

/-- A run with an id that was given out before is the run that has it. -/
theorem origin_eq (h : runs.Extends runs') {r : SyncRun} (hr : r ∈ runs'.rows)
    (hid : r.id ≤ runs.last) : ∃ r' ∈ runs.rows, r'.origin = r.origin := by
  rcases h.origin r hr with hlt | hold
  · omega
  · exact hold

end Runs.Extends

/-- The columns that a terminal run has got. -/
def SyncRun.outcome (r : SyncRun) : SyncStatus × Bool × Option String × Option String :=
  (r.status, r.promoted, r.errorCode, r.errorDetail)

/-- Every run in `runs'` is newer than `runs`, or is one of `runs`, and has its
outcome if that one is terminal. -/
structure Runs.Settles (runs runs' : Runs) : Prop where
  last : runs.last ≤ runs'.last
  outcome : ∀ r' ∈ runs'.rows, runs.last < r'.id ∨
    ∃ r ∈ runs.rows, r.id = r'.id ∧ (r.status ≠ .running → r'.outcome = r.outcome)

namespace Runs.Settles

variable {runs runs' runs'' : Runs} {run : SyncRun}

theorem refl (runs : Runs) : runs.Settles runs :=
  ⟨Nat.le_refl _, fun r hr => Or.inr ⟨r, hr, rfl, fun _ => rfl⟩⟩

theorem trans (h : runs.Settles runs') (h' : runs'.Settles runs'') : runs.Settles runs'' where
  last := Nat.le_trans h.last h'.last
  outcome r'' hr'' := by
    rcases h'.outcome r'' hr'' with hlt | ⟨r', hr', hid', hsame'⟩
    · exact Or.inl (Nat.lt_of_le_of_lt h.last hlt)
    · rcases h.outcome r' hr' with hlt | ⟨r, hr, hid, hsame⟩
      · exact Or.inl (hid' ▸ hlt)
      · refine Or.inr ⟨r, hr, hid.trans hid', fun hs => ?_⟩
        have heq := hsame hs
        have hstatus : r'.status = r.status := congrArg Prod.fst heq
        exact (hsame' (hstatus ▸ hs)).trans heq

theorem insert (runs : Runs) (run : SyncRun) : runs.Settles (runs.insert run) where
  last := Nat.le_succ _
  outcome r hr := by
    rcases mem_insert.mp hr with hr | rfl
    · exact Or.inr ⟨r, hr, rfl, fun _ => rfl⟩
    · exact Or.inl (Nat.lt_succ_self _)

/-- Updating runs that are running. -/
theorem update {p : SyncRun → Bool} (g : SyncRun → SyncRun)
    (hp : ∀ r ∈ runs.rows, p r = true → r.status = .running) :
    runs.Settles (runs.update p g) where
  last := Nat.le_refl _
  outcome r hr := by
    obtain ⟨r', hr', rfl⟩ := mem_update.mp hr
    refine Or.inr ⟨r', hr', ?_, fun hs => ?_⟩
    · split <;> rfl
    · rw [if_neg fun hpr => hs (hp r' hr' hpr)]

theorem set (g : SyncRun → SyncRun) (hrun : run ∈ runs.rows) (hrunning : run.status = .running) :
    runs.Settles (runs.set run.id g) :=
  update g fun r hr hid => by
    rw [eq_of_id hr hrun (beq_iff_eq.mp hid)]
    exact hrunning

theorem delete (runs : Runs) (p : SyncRun → Bool) : runs.Settles (runs.delete p) :=
  ⟨Nat.le_refl _, fun r hr => Or.inr ⟨r, (mem_delete.mp hr).1, rfl, fun _ => rfl⟩⟩

/-- A terminal run keeps its outcome. -/
theorem outcome_eq (h : runs.Settles runs') {r r' : SyncRun} (hr : r ∈ runs.rows)
    (hs : r.status ≠ .running) (hr' : r' ∈ runs'.rows) (hid : r'.id = r.id) :
    r'.outcome = r.outcome := by
  rcases h.outcome r' hr' with hlt | ⟨r₀, hr₀, hid₀, hsame⟩
  · have hle := runs.bound r hr
    omega
  · obtain rfl := eq_of_id hr₀ hr (hid₀.trans hid)
    exact hsame hs

end Runs.Settles

/-! ## Selections -/

/-- `get_sync_run`. -/
def getSyncRun (runs : Runs) (id : Nat) : Except Exn SyncRun :=
  match runs.get? id with
  | some run => .ok run
  | none => .error (.unknownSyncRun id)

theorem getSyncRun_eq_ok {runs : Runs} {id : Nat} {run : SyncRun} :
    getSyncRun runs id = .ok run ↔ run ∈ runs.rows ∧ run.id = id := by
  rw [← Runs.get?_eq_some]
  unfold getSyncRun
  split <;> simp_all

/-- `ORDER BY id DESC`. -/
def byId (r r' : SyncRun) : Bool :=
  r'.id < r.id

/-- The runs of a subject, as the `WHERE` clauses select them. -/
def ofStatus (status : Option SyncStatus) (r : SyncRun) : Bool :=
  status.all fun status => r.status = status

/-- `latest_account_sync`. -/
def latestAccountSync (runs : Runs) (capability : String) (accountId : Nat)
    (status : Option SyncStatus) : Option SyncRun :=
  limitOne byId (runs.rows.filter fun r =>
    r.capability = capability && r.accountId = some accountId && ofStatus status r)

end SteamAgent.Storage
