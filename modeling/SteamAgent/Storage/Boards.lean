import SteamAgent.Effects.Newest
import SteamAgent.Storage.Tables

/-!
# Current rows and the newest complete run

One capability of `sync_runs`, the observations that its runs recorded, and the
current rows that were promoted from them.

`Board` says that the current rows of a subject are the observations of its
complete run with the largest id.  The lemmas after it are the ways in which the
methods change the three tables, one for each way.
-/

namespace SteamAgent.Storage

open Effects (NewestView isGreatest_insert_of_lt isGreatest_insert_self isGreatest_of_subset)

variable {σ κ φ ψ : Type}

/-! ## Runs of a capability -/

/-- A capability, and the column of a run that names its subject. -/
structure Subject (σ : Type) where
  capability : String
  of : SyncRun → Option σ
  of_origin : ∀ r r', r.origin = r'.origin → of r = of r'

namespace Subject

/-- A capability whose subjects are machines. -/
def machine (capability : String) : Subject String where
  capability := capability
  of := SyncRun.machineId
  of_origin r r' h := by
    simp only [SyncRun.origin, Prod.mk.injEq] at h
    exact h.2.2.1

/-- A capability whose subjects are accounts. -/
def account (capability : String) : Subject Nat where
  capability := capability
  of := SyncRun.accountId
  of_origin r r' h := by
    simp only [SyncRun.origin, Prod.mk.injEq] at h
    exact h.2.2.2.1

variable (S : Subject σ) {runs runs' : Runs} {run : SyncRun} {g : SyncRun → SyncRun} {s : σ} {k : Nat}

/-- The complete runs of a subject. -/
def complete (runs : Runs) (s : σ) : Set Nat :=
  {id | ∃ r ∈ runs.rows, r.id = id ∧ r.capability = S.capability ∧ S.of r = some s ∧
    r.status = .complete}

theorem complete_finite (runs : Runs) (s : σ) : (S.complete runs s).Finite := by
  refine Set.Finite.subset (runs.rows.map SyncRun.id).finite_toSet ?_
  rintro id ⟨r, hr, rfl, _⟩
  exact List.mem_map_of_mem hr

theorem complete_insert (h : run.status ≠ .complete) :
    S.complete (runs.insert run) s = S.complete runs s := by
  ext k
  constructor
  · rintro ⟨r, hr, hid, hcap, hof, hs⟩
    rcases Runs.mem_insert.mp hr with hr | rfl
    · exact ⟨r, hr, hid, hcap, hof, hs⟩
    · exact absurd hs h
  · rintro ⟨r, hr, hid, hcap, hof, hs⟩
    exact ⟨r, Runs.mem_insert.mpr (Or.inl hr), hid, hcap, hof, hs⟩

/-- Setting a running run completes it, or no run. -/
theorem mem_complete_set (hrun : run ∈ runs.rows) (hrunning : run.status = .running)
    (hg : ∀ r, { g r with id := r.id }.origin = r.origin) :
    k ∈ S.complete (runs.set run.id g) s ↔ k ∈ S.complete runs s ∨
      (k = run.id ∧ run.capability = S.capability ∧ S.of run = some s ∧
        (g run).status = .complete) := by
  have horigin := hg run
  have hof := S.of_origin _ _ horigin
  have hcap : (g run).capability = run.capability := congrArg (fun o => o.2.1) horigin
  constructor
  · rintro ⟨r, hr, hid, hrcap, hrof, hs⟩
    rcases Runs.mem_set.mp hr with ⟨hr, _⟩ | ⟨r', hr', hid', rfl⟩
    · exact Or.inl ⟨r, hr, hid, hrcap, hrof, hs⟩
    · obtain rfl := Runs.eq_of_id hr' hrun hid'
      exact Or.inr ⟨hid.symm, hcap.symm.trans hrcap, hof.symm.trans hrof, hs⟩
  · rintro (⟨r, hr, hid, hrcap, hrof, hs⟩ | ⟨rfl, hrcap, hrof, hs⟩)
    · have hne : r.id ≠ run.id := fun heq => by
        rw [Runs.eq_of_id hr hrun heq, hrunning] at hs
        cases hs
      exact ⟨r, (Runs.mem_set_of_ne hne).mpr hr, hid, hrcap, hrof, hs⟩
    · exact ⟨_, Runs.mem_set_self hrun, rfl, hcap.trans hrcap, hof.trans hrof, hs⟩

/-- Failing runs that are running. -/
theorem complete_update {p : SyncRun → Bool} (hp : ∀ r, p r = true → r.status = .running)
    (hg : ∀ r, (g r).status ≠ .complete) : S.complete (runs.update p g) s = S.complete runs s := by
  ext k
  constructor
  · rintro ⟨r, hr, hid, hcap, hof, hs⟩
    obtain ⟨r', hr', rfl⟩ := Runs.mem_update.mp hr
    cases hpr : p r' with
    | true =>
      rw [if_pos hpr] at hs
      exact absurd hs (hg r')
    | false =>
      rw [hpr] at hid hcap hof hs
      exact ⟨r', hr', hid, hcap, hof, hs⟩
  · rintro ⟨r, hr, hid, hcap, hof, hs⟩
    refine ⟨r, Runs.mem_update.mpr ⟨r, hr, ?_⟩, hid, hcap, hof, hs⟩
    cases hpr : p r with
    | true =>
      rw [hp r hpr] at hs
      cases hs
    | false => rfl

/-- The run of an observation is of the capability and of its subject. -/
def Records (runs : Runs) (o : Observation σ κ φ) : Prop :=
  o.syncRunId ≤ runs.last ∧
    ∀ r ∈ runs.rows, r.id = o.syncRunId → r.capability = S.capability ∧ S.of r = some o.subject

variable {S} {o : Observation σ κ φ}

theorem Records.extends (h : S.Records runs o) (hext : runs.Extends runs') : S.Records runs' o := by
  refine ⟨Nat.le_trans h.1 hext.last, fun r hr hid => ?_⟩
  obtain ⟨r', hr', horigin⟩ := hext.origin_eq hr (hid ▸ h.1)
  have hof := S.of_origin _ _ horigin
  simp only [SyncRun.origin, Prod.mk.injEq] at horigin
  obtain ⟨hcap', hof'⟩ := h.2 r' hr' (horigin.1.trans hid)
  exact ⟨horigin.2.1 ▸ hcap', hof ▸ hof'⟩

/-- An observation of a run. -/
theorem records_of_run (hrun : run ∈ runs.rows) (hcap : run.capability = S.capability)
    (hid : o.syncRunId = run.id) (hof : S.of run = some o.subject) : S.Records runs o := by
  refine ⟨hid ▸ runs.bound run hrun, fun r hr hrid => ?_⟩
  rw [Runs.eq_of_id hr hrun (hrid.trans hid)]
  exact ⟨hcap, hof⟩

end Subject

/-! ## Boards -/

/-- The current rows that the observations of a run make. -/
def promotedRows (f : φ → ψ) (obs : List (Observation σ κ φ)) (id : Nat) : Set (Current σ κ ψ) :=
  {c | ∃ o ∈ obs, o.syncRunId = id ∧ o.promoted f = c}

/-- The current rows of a subject. -/
def currentRows (cur : List (Current σ κ ψ)) (s : σ) : Set (Current σ κ ψ) :=
  {c | c ∈ cur ∧ c.subject = s}

/-- The current rows of every subject are the observations of its complete run
with the largest id. -/
structure Board (S : Subject σ) (f : φ → ψ) (runs : Runs) (obs : List (Observation σ κ φ))
    (cur : List (Current σ κ ψ)) : Prop where
  recorded : ∀ o ∈ obs, S.Records runs o
  newest : NewestView (S.complete runs) (promotedRows f obs) (currentRows cur)

namespace Board

variable {S : Subject σ} {f : φ → ψ} {runs runs' : Runs} {obs obs' : List (Observation σ κ φ)}
  {cur cur' : List (Current σ κ ψ)} {run : SyncRun} {g : SyncRun → SyncRun} {s : σ}

/-- The run of a current row is the newest complete one of its subject. -/
theorem isGreatest (h : Board S f runs obs cur) {c : Current σ κ ψ} (hc : c ∈ cur) :
    IsGreatest (S.complete runs c.subject) c.promotedSyncRunId := by
  obtain ⟨i, hi, o, _, hid, rfl⟩ := (h.newest c.subject c).mp ⟨hc, rfl⟩
  rw [← hid] at hi
  exact hi

/-- No row is of a run that is running. -/
theorem ne_of_isGreatest {k : Nat} (hk : IsGreatest (S.complete runs s) k)
    (hrun : run ∈ runs.rows) (hrunning : run.status = .running) : k ≠ run.id := by
  obtain ⟨r, hr, hid, _, _, hs⟩ := hk.1
  intro heq
  rw [Runs.eq_of_id hr hrun (hid.trans heq), hrunning] at hs
  cases hs

/-- A step that leaves the greatest complete runs, and their observations. -/
theorem keep (h : Board S f runs obs cur) (hext : runs.Extends runs')
    (hdone : ∀ s k, IsGreatest (S.complete runs' s) k ↔ IsGreatest (S.complete runs s) k)
    (hobs : ∀ o ∈ obs', o ∈ obs ∨ S.Records runs' o)
    (hrows : ∀ s k, IsGreatest (S.complete runs s) k →
      ∀ o, o.syncRunId = k → (o ∈ obs' ↔ o ∈ obs)) :
    Board S f runs' obs' cur where
  recorded o ho := by
    rcases hobs o ho with ho | ho
    · exact (h.recorded o ho).extends hext
    · exact ho
  newest := by
    refine h.newest.keep hdone (fun s k hk c => ?_) fun _ _ => Iff.rfl
    constructor
    · rintro ⟨o, ho, hid, heq⟩
      exact ⟨o, (hrows s k hk o hid).mp ho, hid, heq⟩
    · rintro ⟨o, ho, hid, heq⟩
      exact ⟨o, (hrows s k hk o hid).mpr ho, hid, heq⟩

/-- A run begins. -/
theorem insert (h : Board S f runs obs cur) (hrun : run.status ≠ .complete) :
    Board S f (runs.insert run) obs cur :=
  h.keep (.insert _ _) (fun s k => by rw [S.complete_insert hrun]) (fun _ ho => Or.inl ho)
    fun _ _ _ _ _ => Iff.rfl

/-- Runs fail. -/
theorem update (h : Board S f runs obs cur) {p : SyncRun → Bool}
    (hp : ∀ r, p r = true → r.status = .running) (hg : ∀ r, (g r).status ≠ .complete)
    (horigin : ∀ r, { g r with id := r.id }.origin = r.origin) :
    Board S f (runs.update p g) obs cur :=
  h.keep (.update _ _ horigin) (fun s k => by rw [S.complete_update hp hg])
    (fun _ ho => Or.inl ho) fun _ _ _ _ _ => Iff.rfl

/-- A run records observations. -/
theorem record (h : Board S f runs obs cur) (hrun : run ∈ runs.rows)
    (hrunning : run.status = .running) (hcap : run.capability = S.capability)
    (hnew : ∀ o ∈ obs', o ∈ obs ∨ (o.syncRunId = run.id ∧ S.of run = some o.subject))
    (hold : ∀ o ∈ obs, o.syncRunId ≠ run.id → o ∈ obs') : Board S f runs obs' cur := by
  refine h.keep (.refl _) (fun _ _ => Iff.rfl) (fun o ho => ?_) fun s k hk o hid => ?_
  · rcases hnew o ho with ho | ⟨hid, hof⟩
    · exact Or.inl ho
    · exact Or.inr (Subject.records_of_run hrun hcap hid hof)
  · have hne := ne_of_isGreatest hk hrun hrunning
    constructor
    · intro ho
      rcases hnew o ho with ho | ⟨hid', _⟩
      · exact ho
      · exact absurd (hid.symm.trans hid') hne
    · intro ho
      exact hold o ho (hid ▸ hne)

/-- A run of another capability changes, or a run that does not complete.  Its
observations may go. -/
theorem set (h : Board S f runs obs cur) (hrun : run ∈ runs.rows)
    (hrunning : run.status = .running) (hg : ∀ r, { g r with id := r.id }.origin = r.origin)
    (hincomplete : run.capability = S.capability → (g run).status ≠ .complete)
    (hsub : ∀ o ∈ obs', o ∈ obs) (hold : ∀ o ∈ obs, o.syncRunId ≠ run.id → o ∈ obs') :
    Board S f (runs.set run.id g) obs' cur := by
  have hsame : ∀ s, S.complete (runs.set run.id g) s = S.complete runs s := fun s => by
    ext k
    rw [S.mem_complete_set hrun hrunning hg]
    constructor
    · rintro (hk | ⟨_, hcap, _, hs⟩)
      · exact hk
      · exact absurd hs (hincomplete hcap)
    · exact Or.inl
  refine h.keep (.set _ _ hg) (fun s k => by rw [hsame]) (fun o ho => Or.inl (hsub o ho))
    fun s k hk o hid => ⟨hsub o, fun ho => hold o ho ?_⟩
  rw [hid]
  exact ne_of_isGreatest hk hrun hrunning

/-- A run completes after a newer one. -/
theorem stale (h : Board S f runs obs cur) (hrun : run ∈ runs.rows)
    (hrunning : run.status = .running) (hg : ∀ r, { g r with id := r.id }.origin = r.origin)
    (hof : S.of run = some s) (hnewer : ∃ k ∈ S.complete runs s, run.id < k)
    (hsub : ∀ o ∈ obs', o ∈ obs) (hold : ∀ o ∈ obs, o.syncRunId ≠ run.id → o ∈ obs') :
    Board S f (runs.set run.id g) obs' cur := by
  refine h.keep (.set _ _ hg) (fun t k => ?_) (fun o ho => Or.inl (hsub o ho))
    fun t k hk o hid => ⟨hsub o, fun ho => hold o ho ?_⟩
  · by_cases hlast : t = s ∧ run.capability = S.capability ∧ (g run).status = .complete
    · obtain ⟨rfl, hcap, hs⟩ := hlast
      obtain ⟨j, hj, hlt⟩ := hnewer
      have hinsert : S.complete (runs.set run.id g) t = Insert.insert run.id (S.complete runs t) := by
        ext k
        rw [S.mem_complete_set hrun hrunning hg]
        simp [hof, hcap, hs, or_comm]
      rw [hinsert]
      exact isGreatest_insert_of_lt hj hlt
    · have hsame : S.complete (runs.set run.id g) t = S.complete runs t := by
        ext k
        rw [S.mem_complete_set hrun hrunning hg]
        constructor
        · rintro (hk | ⟨_, hcap, hoft, hs⟩)
          · exact hk
          · exact absurd ⟨Option.some.inj (hoft.symm.trans hof), hcap, hs⟩ hlast
        · exact Or.inl
      rw [hsame]
  · rw [hid]
    exact ne_of_isGreatest hk hrun hrunning

/-- A run completes as the newest one, and its observations become current. -/
theorem promote (h : Board S f runs obs cur) (hrun : run ∈ runs.rows)
    (hrunning : run.status = .running) (hcap : run.capability = S.capability)
    (hg : ∀ r, { g r with id := r.id }.origin = r.origin) (hcomplete : (g run).status = .complete)
    (hof : S.of run = some s) (hnewest : ∀ k ∈ S.complete runs s, k ≤ run.id)
    (hsub : ∀ o ∈ obs', o ∈ obs)
    (hold : ∀ o ∈ obs, o.subject ≠ s ∨ o.syncRunId = run.id → o ∈ obs')
    (hcur : ∀ c, c ∈ cur' ↔ (c ∈ cur ∧ c.subject ≠ s) ∨ c ∈ promotedRows f obs run.id) :
    Board S f (runs.set run.id g) obs' cur' where
  recorded o ho := (h.recorded o (hsub o ho)).extends (.set _ _ hg)
  newest := by
    have hsubject : ∀ c ∈ promotedRows f obs run.id, c.subject = s := by
      rintro c ⟨o, ho, hid, rfl⟩
      have hrec := (h.recorded o ho).2 run hrun hid.symm
      exact Option.some.inj (hrec.2.symm.trans hof)
    refine h.newest.complete (s := s) (i := run.id) ?_ (fun c => ?_) (fun t hts k => ?_)
      (fun t hts k hk c => ?_) fun t hts c => ?_
    · have hinsert : S.complete (runs.set run.id g) s = Insert.insert run.id (S.complete runs s) := by
        ext k
        rw [S.mem_complete_set hrun hrunning hg]
        simp [hof, hcap, hcomplete, or_comm]
      rw [hinsert]
      exact isGreatest_insert_self hnewest
    · constructor
      · rintro ⟨hc, hs⟩
        rcases (hcur c).mp hc with ⟨_, hne⟩ | ⟨o, ho, hid, heq⟩
        · exact absurd hs hne
        · exact ⟨o, hold o ho (Or.inr hid), hid, heq⟩
      · rintro ⟨o, ho, hid, heq⟩
        have hc : c ∈ promotedRows f obs run.id := ⟨o, hsub o ho, hid, heq⟩
        exact ⟨(hcur c).mpr (Or.inr hc), hsubject c hc⟩
    · have hsame : S.complete (runs.set run.id g) t = S.complete runs t := by
        ext k
        rw [S.mem_complete_set hrun hrunning hg]
        constructor
        · rintro (hk | ⟨_, _, hoft, _⟩)
          · exact hk
          · exact absurd (Option.some.inj (hoft.symm.trans hof)) hts
        · exact Or.inl
      rw [hsame]
    · constructor
      · rintro ⟨o, ho, hid, heq⟩
        exact ⟨o, hsub o ho, hid, heq⟩
      · rintro ⟨o, ho, hid, heq⟩
        refine ⟨o, hold o ho (Or.inl fun hs => ?_), hid, heq⟩
        -- the greatest run of another subject has no observation of this one
        obtain ⟨r, hr, hrid, _, hroft, _⟩ := hk.1
        have hrec := (h.recorded o ho).2 r hr (hrid.trans hid.symm)
        exact hts (Option.some.inj (hroft.symm.trans (hrec.2.trans (congrArg some hs))))
    · constructor
      · rintro ⟨hc, hs⟩
        rcases (hcur c).mp hc with ⟨hc, _⟩ | hc
        · exact ⟨hc, hs⟩
        · exact absurd (hs.symm.trans (hsubject c hc)) hts
      · rintro ⟨hc, hs⟩
        exact ⟨(hcur c).mpr (Or.inl ⟨hc, fun heq => hts (hs.symm.trans heq)⟩), hs⟩

/-- Runs are deleted, but no newest complete one. -/
theorem delete (h : Board S f runs obs cur) {p : SyncRun → Bool}
    (hp : ∀ s, ∀ r ∈ runs.rows, IsGreatest (S.complete runs s) r.id → p r = false)
    (hsub : ∀ o ∈ obs', o ∈ obs)
    (hold : ∀ o ∈ obs, (∀ r ∈ runs.rows, r.id = o.syncRunId → p r = false) → o ∈ obs') :
    Board S f (runs.delete p) obs' cur := by
  refine h.keep (.delete _ _) (fun s k => ?_) (fun o ho => Or.inl (hsub o ho))
    fun s k hk o hid => ⟨hsub o, fun ho => hold o ho fun r hr hrid => ?_⟩
  · refine isGreatest_of_subset (S.complete_finite runs s) ?_ fun i hi => ?_
    · rintro id ⟨r, hr, hrest⟩
      exact ⟨r, (Runs.mem_delete.mp hr).1, hrest⟩
    · obtain ⟨r, hr, rfl, hrest⟩ := hi.1
      exact ⟨r, Runs.mem_delete.mpr ⟨hr, hp s r hr hi⟩, rfl, hrest⟩
  · refine hp s r hr ?_
    rw [hrid, hid]
    exact hk

end Board

end SteamAgent.Storage
