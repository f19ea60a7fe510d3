import SteamAgent.Storage.Boards
import SteamAgent.Storage.Owned
import SteamAgent.Storage.SystemProfile

/-!
# The projections of the installed, owned, wishlist and profile syncs

Each of the four capabilities has a table of observations and a table of current
rows, and its own way to promote the one to the other.

`Projected` is the invariant: a `Board` for each of them.  The lemmas after it
say what a promotion does to the current rows, and that each transaction keeps
the invariant.
-/

namespace SteamAgent.Storage

open Datetime (Aware)

/-! ## The invariant -/

/-- A complete profile sync has an observation. -/
def Profiled (runs : Runs) (obs : List (Observation String Unit ProfileFacts)) : Prop :=
  ∀ r ∈ runs.rows, r.capability = "system_profile.read" → r.status = .complete →
    ∃ o ∈ obs, o.syncRunId = r.id

/-- The current rows of the four capabilities. -/
structure Projected (db : Db) : Prop where
  installed : Board (.machine "installed") InstalledRecord.facts db.runs
    db.installedObservations db.installedCurrent
  owned : Board (.account "owned.visible.read") (fun facts => facts) db.runs
    db.ownedObservations db.ownedCurrent
  wishlist : Board (.account "wishlist.read") (fun facts => facts) db.runs
    db.wishlistObservations db.wishlistCurrent
  profile : Board (.machine "system_profile.read") (fun facts => facts) db.runs
    db.profileObservations db.profileCurrent
  keyed : db.installedObservations.Pairwise fun o o' => sameObservation o o' = false
  profiled : Profiled db.runs db.profileObservations

section Runs

variable {runs : Runs} {run : SyncRun} {g : SyncRun → SyncRun}
  {obs : List (Observation String Unit ProfileFacts)}

theorem Profiled.insert (h : Profiled runs obs) (hrun : run.status ≠ .complete) :
    Profiled (runs.insert run) obs := by
  intro r hr hcap hs
  rcases Runs.mem_insert.mp hr with hr | rfl
  · exact h r hr hcap hs
  · exact absurd hs hrun

theorem Profiled.update (h : Profiled runs obs) {p : SyncRun → Bool}
    (hg : ∀ r, (g r).status ≠ .complete) : Profiled (runs.update p g) obs := by
  intro r hr hcap hs
  obtain ⟨r', hr', rfl⟩ := Runs.mem_update.mp hr
  cases hp : p r' with
  | true =>
    rw [if_pos hp] at hs
    exact absurd hs (hg r')
  | false =>
    rw [hp] at hcap hs
    exact h r' hr' hcap hs

theorem Profiled.set (h : Profiled runs obs) (hrun : run ∈ runs.rows)
    (hg : (g run).capability = "system_profile.read" → (g run).status = .complete →
      ∃ o ∈ obs, o.syncRunId = run.id) : Profiled (runs.set run.id g) obs := by
  intro r hr hcap hs
  rcases Runs.mem_set.mp hr with ⟨hr, _⟩ | ⟨r', hr', hid, rfl⟩
  · exact h r hr hcap hs
  · obtain rfl := Runs.eq_of_id hr' hrun hid
    exact hg hcap hs

theorem newerComplete_eq_true {capability : String} {accountId id : Nat} :
    newerComplete runs capability accountId id = true ↔
      ∃ k ∈ (Subject.account capability).complete runs accountId, id < k := by
  simp only [newerComplete, List.any_eq_true, Bool.and_eq_true, decide_eq_true_eq, beq_iff_eq,
    SyncRun.ofAccount]
  constructor
  · rintro ⟨r, hr, ⟨⟨hcap, hacc⟩, hlt⟩, hs⟩
    exact ⟨r.id, ⟨r, hr, rfl, hcap, hacc, hs⟩, hlt⟩
  · rintro ⟨k, ⟨r, hr, rfl, hcap, hacc, hs⟩, hlt⟩
    exact ⟨r, hr, ⟨⟨hcap, hacc⟩, hlt⟩, hs⟩

theorem newerCompleteOnMachine_eq_true {capability machineId : String} {id : Nat} :
    newerCompleteOnMachine runs capability machineId id = true ↔
      ∃ k ∈ (Subject.machine capability).complete runs machineId, id < k := by
  simp only [newerCompleteOnMachine, List.any_eq_true, Bool.and_eq_true, decide_eq_true_eq,
    beq_iff_eq]
  constructor
  · rintro ⟨r, hr, ⟨⟨hcap, hmach⟩, hlt⟩, hs⟩
    exact ⟨r.id, ⟨r, hr, rfl, hcap, hmach, hs⟩, hlt⟩
  · rintro ⟨k, ⟨r, hr, rfl, hcap, hmach, hs⟩, hlt⟩
    exact ⟨r, hr, ⟨⟨hcap, hmach⟩, hlt⟩, hs⟩

/-- No newer complete run. -/
theorem le_of_newerComplete {capability : String} {accountId id : Nat}
    (h : newerComplete runs capability accountId id = false) :
    ∀ k ∈ (Subject.account capability).complete runs accountId, k ≤ id := by
  intro k hk
  by_contra hlt
  have hnewer := newerComplete_eq_true.mpr ⟨k, hk, Nat.lt_of_not_le hlt⟩
  rw [h] at hnewer
  cases hnewer

theorem le_of_newerCompleteOnMachine {capability machineId : String} {id : Nat}
    (h : newerCompleteOnMachine runs capability machineId id = false) :
    ∀ k ∈ (Subject.machine capability).complete runs machineId, k ≤ id := by
  intro k hk
  by_contra hlt
  have hnewer := newerCompleteOnMachine_eq_true.mpr ⟨k, hk, Nat.lt_of_not_le hlt⟩
  rw [h] at hnewer
  cases hnewer

end Runs

section Steps

variable {db db' : Db} {run : SyncRun} {g : SyncRun → SyncRun}

/-- A board of another capability. -/
theorem Board.other {σ κ φ ψ : Type} {S : Subject σ} {f : φ → ψ} {runs : Runs}
    {obs : List (Observation σ κ φ)} {cur : List (Current σ κ ψ)} (h : Board S f runs obs cur)
    (hrun : run ∈ runs.rows) (hrunning : run.status = .running)
    (hg : ∀ r, { g r with id := r.id }.origin = r.origin) (hcap : run.capability ≠ S.capability) :
    Board S f (runs.set run.id g) obs cur :=
  h.set hrun hrunning hg (fun heq => absurd heq hcap) (fun _ ho => ho) fun _ ho _ => ho

/-- The current rows of the four capabilities. -/
def Db.currents (db : Db) :=
  (db.installedCurrent, db.ownedCurrent, db.wishlistCurrent, db.profileCurrent)

/-- A step: the invariant holds after it, terminal runs keep their outcome, and
current rows change only when a run completes. -/
structure Advance (db db' : Db) : Prop where
  projected : Projected db'
  settles : db.runs.Settles db'.runs
  currents : db'.currents = db.currents ∨
    ∃ run ∈ db.runs.rows, run.status = .running ∧
      ∃ r ∈ db'.runs.rows, r.id = run.id ∧ r.status = .complete

theorem Advance.refl (h : Projected db) : Advance db db :=
  ⟨h, .refl _, Or.inl rfl⟩

/-- A running run changes, and the current rows do not. -/
theorem Advance.set (h : Projected db') (hrun : run ∈ db.runs.rows)
    (hrunning : run.status = .running) (hruns : db'.runs = db.runs.set run.id g)
    (hcur : db'.currents = db.currents) : Advance db db' := by
  refine ⟨h, ?_, Or.inl hcur⟩
  rw [hruns]
  exact .set g hrun hrunning

/-- A running run completes. -/
theorem Advance.complete (h : Projected db') (hrun : run ∈ db.runs.rows)
    (hrunning : run.status = .running) (hruns : db'.runs = db.runs.set run.id g)
    (hg : (g run).status = .complete) : Advance db db' := by
  refine ⟨h, ?_, Or.inr ⟨run, hrun, hrunning, { g run with id := run.id }, ?_, rfl, hg⟩⟩
  · rw [hruns]
    exact .set g hrun hrunning
  · rw [hruns]
    exact Runs.mem_set_self hrun

theorem Projected.insert (h : Projected db) (hrun : run.status ≠ .complete) :
    Projected { db with runs := db.runs.insert run } where
  installed := h.installed.insert hrun
  owned := h.owned.insert hrun
  wishlist := h.wishlist.insert hrun
  profile := h.profile.insert hrun
  keyed := h.keyed
  profiled := h.profiled.insert hrun

/-- A running run changes and does not complete. -/
theorem Projected.set (h : Projected db) (hrun : run ∈ db.runs.rows)
    (hrunning : run.status = .running) (hg : ∀ r, { g r with id := r.id }.origin = r.origin)
    (hincomplete : (g run).status ≠ .complete) :
    Projected { db with runs := db.runs.set run.id g } where
  installed := h.installed.set hrun hrunning hg (fun _ => hincomplete) (fun _ ho => ho)
    fun _ ho _ => ho
  owned := h.owned.set hrun hrunning hg (fun _ => hincomplete) (fun _ ho => ho) fun _ ho _ => ho
  wishlist := h.wishlist.set hrun hrunning hg (fun _ => hincomplete) (fun _ ho => ho)
    fun _ ho _ => ho
  profile := h.profile.set hrun hrunning hg (fun _ => hincomplete) (fun _ ho => ho)
    fun _ ho _ => ho
  keyed := h.keyed
  profiled := h.profiled.set hrun fun _ hs => absurd hs hincomplete

/-! ## Upserts -/

theorem mem_upsert {α : Type} {same : α → α → Bool} {row r : α} {rows : List α} :
    r ∈ upsert same (fun row _ => row) row rows ↔ r = row ∨ (r ∈ rows ∧ same row r = false) := by
  unfold upsert
  split
  · rename_i hany
    obtain ⟨r₀, hr₀, hsame⟩ := List.any_eq_true.mp hany
    rw [List.mem_map]
    constructor
    · rintro ⟨r', hr', rfl⟩
      cases h : same row r' with
      | true => exact Or.inl (if_pos rfl)
      | false => exact Or.inr ⟨by simpa using hr', by simpa using h⟩
    · rintro (rfl | ⟨hr, h⟩)
      · exact ⟨r₀, hr₀, if_pos hsame⟩
      · exact ⟨r, hr, if_neg (by simp [h])⟩
  · rename_i hany
    rw [List.mem_append, List.mem_singleton]
    constructor
    · rintro (hr | rfl)
      · refine Or.inr ⟨hr, ?_⟩
        cases h : same row r with
        | true => exact absurd (List.any_eq_true.mpr ⟨r, hr, h⟩) hany
        | false => rfl
      · exact Or.inl rfl
    · rintro (rfl | ⟨hr, _⟩)
      · exact Or.inr rfl
      · exact Or.inl hr

/-- Upserting rows of which no two conflict. -/
theorem mem_upserts {α : Type} {same : α → α → Bool} {r : α} {news rows : List α}
    (hnews : news.Pairwise fun row row' => same row' row = false) :
    r ∈ news.foldl (fun rows row => upsert same (fun row _ => row) row rows) rows ↔
      r ∈ news ∨ (r ∈ rows ∧ ∀ row ∈ news, same row r = false) := by
  induction news generalizing rows with
  | nil => simp
  | cons row news ih =>
    obtain ⟨hhead, htail⟩ := List.pairwise_cons.mp hnews
    rw [List.foldl_cons, ih htail, mem_upsert]
    constructor
    · rintro (hr | ⟨rfl | ⟨hr, hrow⟩, hrest⟩)
      · exact Or.inl (List.mem_cons_of_mem _ hr)
      · exact Or.inl List.mem_cons_self
      · exact Or.inr ⟨hr, List.forall_mem_cons.mpr ⟨hrow, hrest⟩⟩
    · rintro (hr | ⟨hr, hall⟩)
      · rcases List.mem_cons.mp hr with rfl | hr
        · exact Or.inr ⟨Or.inl rfl, hhead⟩
        · exact Or.inl hr
      · obtain ⟨hrow, hrest⟩ := List.forall_mem_cons.mp hall
        exact Or.inr ⟨Or.inr ⟨hr, hrow⟩, hrest⟩

/-- Upserting an observation keeps the keys of a run apart. -/
theorem keyed_upsert {φ : Type} {row : Observation String Int φ}
    {obs : List (Observation String Int φ)}
    (h : obs.Pairwise fun o o' => sameObservation o o' = false) :
    (upsert sameObservation (fun row o => { o with facts := row.facts }) row obs).Pairwise
      fun o o' => sameObservation o o' = false := by
  unfold upsert
  split
  · refine List.pairwise_map.mpr (h.imp fun {o o'} hne => ?_)
    split <;> split <;> exact hne
  · rename_i hany
    refine List.pairwise_append.mpr ⟨h, List.pairwise_singleton .., fun o ho o' ho' => ?_⟩
    obtain rfl := List.mem_singleton.mp ho'
    cases hsame : sameObservation o o' with
    | false => rfl
    | true =>
      refine absurd (List.any_eq_true.mpr ⟨o, ho, ?_⟩) hany
      simp only [sameObservation, Bool.and_eq_true, beq_iff_eq] at hsame ⊢
      exact ⟨hsame.1.symm, hsame.2.symm⟩

/-! ## Installed -/

theorem mem_promotedRows {σ κ φ ψ : Type} {f : φ → ψ} {obs : List (Observation σ κ φ)} {id : Nat}
    {c : Current σ κ ψ} :
    c ∈ (obs.filter fun o => o.syncRunId == id).map (Observation.promoted f) ↔
      c ∈ promotedRows f obs id := by
  rw [List.mem_map]
  constructor
  · rintro ⟨o, ho, rfl⟩
    obtain ⟨ho, hid⟩ := List.mem_filter.mp ho
    exact ⟨o, ho, beq_iff_eq.mp hid, rfl⟩
  · rintro ⟨o, ho, hid, rfl⟩
    exact ⟨o, List.mem_filter.mpr ⟨ho, beq_iff_eq.mpr hid⟩, rfl⟩

/-- The rows of one run have different keys. -/
theorem keyed_promotedRows {φ ψ : Type} {f : φ → ψ} {obs : List (Observation String Int φ)}
    (h : obs.Pairwise fun o o' => sameObservation o o' = false) (id : Nat) :
    ((obs.filter fun o => o.syncRunId == id).map (Observation.promoted f)).Pairwise
      fun row row' => sameCurrent row' row = false := by
  refine List.pairwise_map.mpr ((List.Pairwise.and_mem.mp (h.filter _)).imp ?_)
  rintro o o' ⟨ho, ho', hne⟩
  have hid := beq_iff_eq.mp (List.mem_filter.mp ho).2
  have hid' := beq_iff_eq.mp (List.mem_filter.mp ho').2
  have hkey : o'.key ≠ o.key := by simpa [sameObservation, hid, hid'] using hne
  simp [sameCurrent, Observation.promoted, hkey.symm]

/-- The promotion replaces the rows of the machine by those of the run. -/
theorem mem_promoteInstalled {machineId : String} {id : Nat} {c : Current String Int InstalledFacts}
    (hkeyed : db.installedObservations.Pairwise fun o o' => sameObservation o o' = false)
    (hsubject : ∀ o ∈ db.installedObservations, o.syncRunId = id → o.subject = machineId) :
    c ∈ (promoteInstalled machineId id db).installedCurrent ↔
      (c ∈ db.installedCurrent ∧ c.subject ≠ machineId) ∨
        c ∈ promotedRows InstalledRecord.facts db.installedObservations id := by
  have hrows : ∀ row ∈ promotedRows InstalledRecord.facts db.installedObservations id,
      row.subject = machineId := by
    rintro row ⟨o, ho, hid, rfl⟩
    exact hsubject o ho hid
  unfold promoteInstalled
  rw [List.mem_filter, mem_upserts (keyed_promotedRows hkeyed id), mem_promotedRows]
  constructor
  · rintro ⟨hc | ⟨hc, hnone⟩, hkept⟩
    · exact Or.inr hc
    · refine Or.inl ⟨hc, fun heq => ?_⟩
      simp only [heq, BEq.rfl, Bool.true_and, Bool.not_not] at hkept
      obtain ⟨row, hrow, hkey⟩ := List.any_eq_true.mp hkept
      have hne := hnone row hrow
      rw [sameCurrent, heq, hrows row (mem_promotedRows.mp hrow)] at hne
      simp [beq_iff_eq.mp hkey] at hne
  · rintro (⟨hc, hne⟩ | hc)
    · refine ⟨Or.inr ⟨hc, fun row hrow => ?_⟩, by simp [hne]⟩
      simp [sameCurrent, hrows row (mem_promotedRows.mp hrow), hne]
    · refine ⟨Or.inl hc, ?_⟩
      rw [Bool.not_eq_true', Bool.and_eq_false_iff]
      refine Or.inr ?_
      rw [Bool.not_eq_false']
      exact List.any_eq_true.mpr ⟨c, mem_promotedRows.mpr hc, BEq.rfl⟩

theorem requireRunningInstalledSync_eq_ok {runs : Runs} {id : Nat}
    (h : requireRunningInstalledSync runs id = .ok run) :
    run ∈ runs.rows ∧ run.id = id ∧ run.capability = "installed" ∧ run.status = .running := by
  obtain ⟨run', hget, h⟩ := bind_eq_ok.mp h
  obtain ⟨_, hcap, h⟩ := bind_eq_ok.mp h
  obtain ⟨_, hrunning, h⟩ := bind_eq_ok.mp h
  obtain rfl := Except.ok.inj h
  obtain ⟨hmem, hid⟩ := getSyncRun_eq_ok.mp hget
  exact ⟨hmem, hid, require_eq_ok.mp hcap, require_eq_ok.mp hrunning⟩

theorem requireMachine_eq_ok {machineId : String} (h : requireMachine run = .ok machineId) :
    run.machineId = some machineId := by
  unfold requireMachine at h
  split at h
  · rename_i heq
    rw [heq, Except.ok.inj h]
  · cases h

theorem Projected.recordInstalledObservation (h : Projected db) {id : Nat}
    {observation : InstalledObservation} {evidenceCapability : String}
    {evidence : Except Exn Nat} {reply : Nat}
    (hok : recordInstalledObservation id observation evidenceCapability evidence db
      = .ok (reply, db')) : Advance db db' := by
  obtain ⟨observedAt, _, hok⟩ := bind_eq_ok.mp hok
  obtain ⟨manifestMtime, _, hok⟩ := bind_eq_ok.mp hok
  obtain ⟨_, _, hok⟩ := bind_eq_ok.mp hok
  obtain ⟨_, _, hok⟩ := bind_eq_ok.mp hok
  obtain ⟨run, hget, hok⟩ := bind_eq_ok.mp hok
  obtain ⟨hrun, rfl, hcap, hrunning⟩ := requireRunningInstalledSync_eq_ok hget
  obtain ⟨machineId, hmachine, hok⟩ := bind_eq_ok.mp hok
  obtain ⟨_, _, hok⟩ := bind_eq_ok.mp hok
  obtain ⟨evidenceId, _, hok⟩ := bind_eq_ok.mp hok
  obtain ⟨_, _, hok⟩ := bind_eq_ok.mp hok
  obtain ⟨_, rfl⟩ := Prod.mk.inj (Except.ok.inj hok)
  have hof := requireMachine_eq_ok hmachine
  have hrecorded : Projected { db with
      installedObservations := upsert sameObservation (fun row o => { o with facts := row.facts })
        (installedRow run.id machineId observation evidenceId observedAt manifestMtime)
        db.installedObservations } := by
    refine ⟨h.installed.record hrun hrunning hcap (fun o ho => ?_) (fun o ho hne => ?_), h.owned,
      h.wishlist, h.profile, keyed_upsert h.keyed, h.profiled⟩
    · unfold upsert at ho
      split at ho
      · obtain ⟨o', ho', rfl⟩ := List.mem_map.mp ho
        split
        · rename_i hsame
          simp only [sameObservation, Bool.and_eq_true, beq_iff_eq] at hsame
          exact Or.inr ⟨hsame.1, ((h.installed.recorded o' ho').2 run hrun hsame.1.symm).2⟩
        · exact Or.inl ho'
      · rcases List.mem_append.mp ho with ho | ho
        · exact Or.inl ho
        · rw [List.mem_singleton.mp ho]
          exact Or.inr ⟨rfl, hof⟩
    · unfold upsert
      split
      · refine List.mem_map.mpr ⟨o, ho, if_neg fun hsame => hne ?_⟩
        simp only [sameObservation, Bool.and_eq_true, beq_iff_eq] at hsame
        exact hsame.1
      · exact List.mem_append_left _ ho
  have hincomplete : run.status ≠ .complete := by
    rw [hrunning]
    decide
  exact .set (hrecorded.set hrun hrunning (fun _ => rfl) hincomplete) hrun hrunning rfl rfl

theorem Projected.finishInstalledSync (h : Projected db) {id : Nat} {status : SyncStatus}
    {completedAt : Aware} {errorCode errorDetail : Option String} {reply : Option SyncRun}
    (hok : finishInstalledSync id status completedAt errorCode errorDetail db = .ok (reply, db')) :
    Advance db db' := by
  obtain ⟨_, _, hok⟩ := bind_eq_ok.mp hok
  obtain ⟨timestamp, _, hok⟩ := bind_eq_ok.mp hok
  obtain ⟨run, hget, hok⟩ := bind_eq_ok.mp hok
  obtain ⟨hrun, rfl⟩ := getSyncRun_eq_ok.mp hget
  obtain ⟨_, hcap, hok⟩ := bind_eq_ok.mp hok
  rw [require_eq_ok] at hcap
  split at hok
  · obtain ⟨_, _, hok⟩ := bind_eq_ok.mp hok
    obtain ⟨_, rfl⟩ := Prod.mk.inj (Except.ok.inj hok)
    exact .refl h
  · rename_i hrunning
    rw [not_not] at hrunning
    obtain ⟨machineId, hmachine, hok⟩ := bind_eq_ok.mp hok
    obtain ⟨_, rfl⟩ := Prod.mk.inj (Except.ok.inj hok)
    have hof := requireMachine_eq_ok hmachine
    by_cases hs : status = .complete
    · subst hs
      cases hnewer : newerCompleteOnMachine db.runs "installed" machineId run.id with
      | true =>
        refine .complete ⟨h.installed.stale hrun hrunning (fun _ => rfl) hof
            (newerCompleteOnMachine_eq_true.mp hnewer) (fun _ ho => ho) fun _ ho _ => ho,
          h.owned.other hrun hrunning (fun _ => rfl) (by rw [hcap]; decide),
          h.wishlist.other hrun hrunning (fun _ => rfl) (by rw [hcap]; decide),
          h.profile.other hrun hrunning (fun _ => rfl) (by rw [hcap]; decide), h.keyed,
          h.profiled.set hrun fun hprofile => ?_⟩ hrun hrunning rfl rfl
        rw [SyncRun.finish, hcap] at hprofile
        simp at hprofile
      | false =>
        have hsubject : ∀ o ∈ db.installedObservations, o.syncRunId = run.id →
            o.subject = machineId := fun o ho hid =>
          Option.some.inj (((h.installed.recorded o ho).2 run hrun hid.symm).2.symm.trans hof)
        refine .complete ⟨h.installed.promote hrun hrunning hcap (fun _ => rfl) rfl hof
            (le_of_newerCompleteOnMachine hnewer) (fun _ ho => ho) (fun _ ho _ => ho)
            fun c => mem_promoteInstalled h.keyed hsubject,
          h.owned.other hrun hrunning (fun _ => rfl) (by rw [hcap]; decide),
          h.wishlist.other hrun hrunning (fun _ => rfl) (by rw [hcap]; decide),
          h.profile.other hrun hrunning (fun _ => rfl) (by rw [hcap]; decide), h.keyed,
          h.profiled.set hrun fun hprofile => ?_⟩ hrun hrunning rfl rfl
        rw [SyncRun.finish, hcap] at hprofile
        simp at hprofile
    · have hnot : (status == SyncStatus.complete) = false := by simpa using hs
      rw [hnot]
      exact .set (h.set hrun hrunning (fun _ => rfl) hs) hrun hrunning rfl rfl

/-! ## Owned -/

theorem requireOwnedSync_eq_ok {runs : Runs} {id accountId : Nat}
    (h : requireOwnedSync runs id = .ok (run, accountId)) :
    run ∈ runs.rows ∧ run.id = id ∧ run.capability = "owned.visible.read" ∧
      run.accountId = some accountId := by
  obtain ⟨run', hget, h⟩ := bind_eq_ok.mp h
  obtain ⟨_, hcap, h⟩ := bind_eq_ok.mp h
  obtain ⟨hmem, hid⟩ := getSyncRun_eq_ok.mp hget
  rw [require_eq_ok] at hcap
  split at h
  · rename_i hacc _
    obtain ⟨rfl, rfl⟩ := Prod.mk.inj (Except.ok.inj h)
    exact ⟨hmem, hid, hcap, hacc⟩
  · cases h

theorem requireRunningOwnedSync_eq_ok {runs : Runs} {id accountId : Nat}
    (h : requireRunningOwnedSync runs id = .ok (run, accountId)) :
    run ∈ runs.rows ∧ run.id = id ∧ run.capability = "owned.visible.read" ∧
      run.accountId = some accountId ∧ run.status = .running := by
  obtain ⟨⟨run', accountId'⟩, hget, h⟩ := bind_eq_ok.mp h
  obtain ⟨_, hrunning, h⟩ := bind_eq_ok.mp h
  obtain ⟨rfl, rfl⟩ := Prod.mk.inj (Except.ok.inj h)
  obtain ⟨hmem, hid, hcap, hacc⟩ := requireOwnedSync_eq_ok hget
  exact ⟨hmem, hid, hcap, hacc, require_eq_ok.mp hrunning⟩

theorem Projected.recordOwnedSnapshot (h : Projected db) {evidence : Int → Nat} {id : Nat}
    {s : OwnedSnapshot} {reply : List Nat}
    (hok : recordOwnedSnapshot evidence id s db = .ok (reply, db')) : Advance db db' := by
  obtain ⟨_, _, hok⟩ := bind_eq_ok.mp hok
  obtain ⟨_, _, hok⟩ := bind_eq_ok.mp hok
  obtain ⟨_, _, hok⟩ := bind_eq_ok.mp hok
  obtain ⟨_, _, hok⟩ := bind_eq_ok.mp hok
  obtain ⟨normalized, _, hok⟩ := bind_eq_ok.mp hok
  obtain ⟨_, _, hok⟩ := bind_eq_ok.mp hok
  obtain ⟨⟨run, accountId⟩, hget, hok⟩ := bind_eq_ok.mp hok
  obtain ⟨hrun, rfl, hcap, hof, hrunning⟩ := requireRunningOwnedSync_eq_ok hget
  obtain ⟨_, _, hok⟩ := bind_eq_ok.mp hok
  obtain ⟨_, _, hok⟩ := bind_eq_ok.mp hok
  obtain ⟨_, rfl⟩ := Prod.mk.inj (Except.ok.inj hok)
  have hrecorded : Projected { db with
      ownedObservations := db.ownedObservations ++
        normalized.map (ownedRow evidence run.id accountId) } := by
    refine ⟨h.installed, h.owned.record hrun hrunning hcap (fun o ho => ?_)
      (fun o ho _ => List.mem_append_left _ ho), h.wishlist, h.profile, h.keyed, h.profiled⟩
    rcases List.mem_append.mp ho with ho | ho
    · exact Or.inl ho
    · obtain ⟨item, _, rfl⟩ := List.mem_map.mp ho
      exact Or.inr ⟨rfl, hof⟩
  have hincomplete : run.status ≠ .complete := by
    rw [hrunning]
    decide
  have hset := hrecorded.set (g := fun r => { r with recordsSeen := normalized.length }) hrun
    hrunning (fun _ => rfl) hincomplete
  exact .set ⟨hset.installed, hset.owned, hset.wishlist, hset.profile, hset.keyed, hset.profiled⟩
    hrun hrunning rfl rfl

/-- What a recording leaves of the runs. -/
theorem runs_recordOwnedSnapshot {evidence : Int → Nat} {id : Nat} {s : OwnedSnapshot}
    {reply : List Nat} (hok : recordOwnedSnapshot evidence id s db = .ok (reply, db')) :
    ∃ n, db'.runs = db.runs.set id fun r => { r with recordsSeen := n } := by
  obtain ⟨_, _, hok⟩ := bind_eq_ok.mp hok
  obtain ⟨_, _, hok⟩ := bind_eq_ok.mp hok
  obtain ⟨_, _, hok⟩ := bind_eq_ok.mp hok
  obtain ⟨_, _, hok⟩ := bind_eq_ok.mp hok
  obtain ⟨normalized, _, hok⟩ := bind_eq_ok.mp hok
  obtain ⟨_, _, hok⟩ := bind_eq_ok.mp hok
  obtain ⟨⟨run, accountId⟩, _, hok⟩ := bind_eq_ok.mp hok
  obtain ⟨_, _, hok⟩ := bind_eq_ok.mp hok
  obtain ⟨_, _, hok⟩ := bind_eq_ok.mp hok
  obtain ⟨_, rfl⟩ := Prod.mk.inj (Except.ok.inj hok)
  exact ⟨normalized.length, rfl⟩

/-- The rows that the pruning leaves. -/
theorem mem_pruneOwnedPayloads {accountId selected : Nat} {keepSelected : Bool}
    {o : Observation Nat Int OwnedFacts} :
    o ∈ (pruneOwnedPayloads accountId selected keepSelected db).ownedObservations ↔
      o ∈ db.ownedObservations ∧ ¬(o.subject = accountId ∧
        if keepSelected then o.syncRunId ≠ selected ∧ db.terminal o.syncRunId = true
        else o.syncRunId = selected) := by
  cases keepSelected <;> simp [pruneOwnedPayloads] <;> grind

theorem mem_promoteOwned {accountId id : Nat} {c : Current Nat Int OwnedFacts}
    (hsubject : ∀ o ∈ db.ownedObservations, o.syncRunId = id → o.subject = accountId) :
    c ∈ (promoteOwned accountId id db).ownedCurrent ↔
      (c ∈ db.ownedCurrent ∧ c.subject ≠ accountId) ∨
        c ∈ promotedRows (fun facts => facts) db.ownedObservations id := by
  have hsame : (db.ownedObservations.filter fun o => o.syncRunId == id && o.subject == accountId)
      = db.ownedObservations.filter fun o => o.syncRunId == id := by
    refine List.filter_congr fun o ho => ?_
    by_cases hid : o.syncRunId = id
    · simp [hid, hsubject o ho hid]
    · simp [hid]
  rw [promoteOwned, hsame, List.mem_append, mem_promotedRows, List.mem_filter]
  simp

theorem Projected.settleOwned (h : Projected db) {accountId : Nat} (hrun : run ∈ db.runs.rows)
    (hcap : run.capability = "owned.visible.read") (hof : run.accountId = some accountId)
    (hrunning : run.status = .running) (completedAt : String)
    (errorCode errorDetail : Option String) :
    Projected { (settleOwned accountId run.id db).2 with
      runs := (settleOwned accountId run.id db).2.runs.set run.id
        (SyncRun.finish .complete completedAt (settleOwned accountId run.id db).1 errorCode
          errorDetail) } := by
  have hprofiled : ∀ promoted, Profiled (db.runs.set run.id
      (SyncRun.finish .complete completedAt promoted errorCode errorDetail))
      db.profileObservations := fun promoted => by
    refine h.profiled.set hrun fun hprofile => ?_
    rw [SyncRun.finish, hcap] at hprofile
    simp at hprofile
  unfold Storage.settleOwned
  cases hnewer : newerComplete db.runs "owned.visible.read" accountId run.id with
  | true =>
    refine ⟨h.installed.other hrun hrunning (fun _ => rfl) (by rw [hcap]; decide),
      h.owned.stale hrun hrunning (fun _ => rfl) hof (newerComplete_eq_true.mp hnewer)
        (fun o ho => ?_) (fun o ho hne => ?_),
      h.wishlist.other hrun hrunning (fun _ => rfl) (by rw [hcap]; decide),
      h.profile.other hrun hrunning (fun _ => rfl) (by rw [hcap]; decide), h.keyed,
      hprofiled false⟩
    · exact (mem_pruneOwnedPayloads.mp ho).1
    · exact mem_pruneOwnedPayloads.mpr ⟨ho, fun hgone => hne hgone.2⟩
  | false =>
    refine ⟨h.installed.other hrun hrunning (fun _ => rfl) (by rw [hcap]; decide),
      h.owned.promote hrun hrunning hcap (fun _ => rfl) rfl hof (le_of_newerComplete hnewer)
        (fun o ho => ?_) (fun o ho hkeep => ?_) (fun c => ?_),
      h.wishlist.other hrun hrunning (fun _ => rfl) (by rw [hcap]; decide),
      h.profile.other hrun hrunning (fun _ => rfl) (by rw [hcap]; decide), h.keyed,
      hprofiled true⟩
    · exact (mem_pruneOwnedPayloads.mp ho).1
    · refine mem_pruneOwnedPayloads.mpr ⟨ho, fun hgone => ?_⟩
      rcases hkeep with hne | hid
      · exact hne hgone.1
      · exact hgone.2.1 hid
    · exact mem_promoteOwned fun o ho hid => Option.some.inj
        (((h.owned.recorded o ho).2 run hrun hid.symm).2.symm.trans hof)

/-- What the promotion and the pruning leave of the runs. -/
theorem runs_settleOwned (accountId id : Nat) (db : Db) :
    (settleOwned accountId id db).2.runs = db.runs := by
  unfold Storage.settleOwned
  cases newerComplete db.runs "owned.visible.read" accountId id <;> rfl

theorem Projected.completeOwnedSnapshot (h : Projected db) {evidence : Int → Nat} {id : Nat}
    {s : OwnedSnapshot} {completedAt : Aware}
    (hok : completeOwnedSnapshot evidence id s completedAt db = .ok db') : Advance db db' := by
  obtain ⟨completed, _, hok⟩ := bind_eq_ok.mp hok
  obtain ⟨⟨run, accountId⟩, hget, hok⟩ := bind_eq_ok.mp hok
  obtain ⟨hrun, rfl, hcap, hof, hrunning⟩ := requireRunningOwnedSync_eq_ok hget
  obtain ⟨⟨reply, db₁⟩, hrecord, hok⟩ := bind_eq_ok.mp hok
  obtain rfl := Except.ok.inj hok
  obtain ⟨n, hruns⟩ := runs_recordOwnedSnapshot hrecord
  have hrun₁ : { run with recordsSeen := n } ∈ db₁.runs.rows := by
    rw [hruns]
    exact Runs.mem_set_self (f := fun r => { r with recordsSeen := n }) hrun
  have hrecorded := h.recordOwnedSnapshot hrecord
  have hsettled := hrecorded.projected.settleOwned hrun₁ hcap hof hrunning completed none none
  have hruns := congrArg (fun runs => Runs.set runs run.id
    (SyncRun.finish .complete completed (Storage.settleOwned accountId run.id db₁).1 none none))
    (runs_settleOwned accountId run.id db₁)
  have hadvance : Advance db₁ _ := .complete hsettled hrun₁ hrunning hruns rfl
  have hmem : SyncRun.finish .complete completed (Storage.settleOwned accountId run.id db₁).1 none
      none { run with recordsSeen := n } ∈ ((Storage.settleOwned accountId run.id db₁).2.runs.set
        run.id (SyncRun.finish .complete completed (Storage.settleOwned accountId run.id db₁).1
          none none)).rows := by
    rw [runs_settleOwned]
    exact Runs.mem_set_self hrun₁
  exact ⟨hsettled, hrecorded.settles.trans hadvance.settles,
    Or.inr ⟨run, hrun, hrunning, _, hmem, rfl, rfl⟩⟩

theorem Projected.finishOwnedSync (h : Projected db) {id : Nat} {status : SyncStatus}
    {completedAt : Aware} {errorCode errorDetail : Option String} {reply : Option SyncRun}
    (hok : finishOwnedSync id status completedAt errorCode errorDetail db = .ok (reply, db')) :
    Advance db db' := by
  obtain ⟨_, _, hok⟩ := bind_eq_ok.mp hok
  obtain ⟨timestamp, _, hok⟩ := bind_eq_ok.mp hok
  obtain ⟨⟨run, accountId⟩, hget, hok⟩ := bind_eq_ok.mp hok
  obtain ⟨hrun, rfl, hcap, hof⟩ := requireOwnedSync_eq_ok hget
  dsimp only at hok
  split at hok
  · obtain ⟨_, _, hok⟩ := bind_eq_ok.mp hok
    obtain ⟨_, rfl⟩ := Prod.mk.inj (Except.ok.inj hok)
    exact .refl h
  · rename_i hrunning
    rw [not_not] at hrunning
    obtain ⟨_, _, hok⟩ := bind_eq_ok.mp hok
    by_cases hs : status = .complete
    · subst hs
      obtain ⟨_, rfl⟩ := Prod.mk.inj (Except.ok.inj hok)
      have hruns := congrArg (fun runs => Runs.set runs run.id
        (SyncRun.finish .complete timestamp (Storage.settleOwned accountId run.id db).1 errorCode
          errorDetail)) (runs_settleOwned accountId run.id db)
      exact .complete (h.settleOwned hrun hcap hof hrunning timestamp errorCode errorDetail) hrun
        hrunning hruns rfl
    · rw [if_neg hs] at hok
      obtain ⟨_, rfl⟩ := Prod.mk.inj (Except.ok.inj hok)
      have hset := h.set (g := SyncRun.finish status timestamp false errorCode errorDetail) hrun
        hrunning (fun _ => rfl) hs
      refine .set ⟨hset.installed, ?_, hset.wishlist, hset.profile, hset.keyed, hset.profiled⟩
        hrun hrunning rfl rfl
      refine h.owned.set hrun hrunning (fun _ => rfl) (fun _ => hs) (fun o ho => ?_)
        fun o ho hne => ?_
      · exact (mem_pruneOwnedPayloads.mp ho).1
      · exact mem_pruneOwnedPayloads.mpr ⟨ho, fun hgone => hne hgone.2⟩

/-! ## Wishlist -/

theorem mem_pruneWishlistPayloads {accountId selected : Nat} {keepSelected : Bool}
    {o : Observation Nat Int WishlistFacts} :
    o ∈ (pruneWishlistPayloads accountId selected keepSelected db).wishlistObservations ↔
      o ∈ db.wishlistObservations ∧ ¬(o.subject = accountId ∧
        (if keepSelected then o.syncRunId ≠ selected else o.syncRunId = selected) ∧
        db.terminal o.syncRunId = true) := by
  cases keepSelected <;> simp [pruneWishlistPayloads] <;> grind

theorem mem_promoteWishlist {accountId id : Nat} {c : Current Nat Int WishlistFacts} :
    c ∈ (promoteWishlist db accountId id).wishlistCurrent ↔
      (c ∈ db.wishlistCurrent ∧ c.subject ≠ accountId) ∨
        c ∈ promotedRows (fun facts => facts) db.wishlistObservations id := by
  rw [promoteWishlist, List.mem_append, mem_promotedRows, List.mem_filter]
  simp

theorem Projected.settleWishlist (h : Projected db) {accountId : Nat} (hrun : run ∈ db.runs.rows)
    (hcap : run.capability = "wishlist.read") (hof : run.accountId = some accountId)
    (hrunning : run.status = .running) (recordsSeen : Nat) (completed : String) :
    Projected (settleWishlist db accountId run.id recordsSeen completed) := by
  have hprofiled : ∀ promoted, Profiled (db.runs.set run.id
      (SyncRun.completeClean promoted recordsSeen completed)) db.profileObservations :=
    fun promoted => by
      refine h.profiled.set hrun fun hprofile => ?_
      rw [SyncRun.completeClean, SyncRun.completeAt, hcap] at hprofile
      simp at hprofile
  unfold Storage.settleWishlist
  cases hnewer : newerComplete db.runs "wishlist.read" accountId run.id with
  | true =>
    refine ⟨h.installed.other hrun hrunning (fun _ => rfl) (by rw [hcap]; decide),
      h.owned.other hrun hrunning (fun _ => rfl) (by rw [hcap]; decide),
      h.wishlist.stale hrun hrunning (fun _ => rfl) hof (newerComplete_eq_true.mp hnewer)
        (fun o ho => ?_) (fun o ho hne => ?_),
      h.profile.other hrun hrunning (fun _ => rfl) (by rw [hcap]; decide), h.keyed,
      hprofiled false⟩
    · exact (mem_pruneWishlistPayloads.mp ho).1
    · exact mem_pruneWishlistPayloads.mpr ⟨ho, fun hgone => hne hgone.2.1⟩
  | false =>
    refine ⟨h.installed.other hrun hrunning (fun _ => rfl) (by rw [hcap]; decide),
      h.owned.other hrun hrunning (fun _ => rfl) (by rw [hcap]; decide),
      h.wishlist.promote hrun hrunning hcap (fun _ => rfl) rfl hof (le_of_newerComplete hnewer)
        (fun o ho => ?_) (fun o ho hkeep => ?_) (fun c => mem_promoteWishlist),
      h.profile.other hrun hrunning (fun _ => rfl) (by rw [hcap]; decide), h.keyed,
      hprofiled true⟩
    · exact (mem_pruneWishlistPayloads.mp ho).1
    · refine mem_pruneWishlistPayloads.mpr ⟨ho, fun hgone => ?_⟩
      rcases hkeep with hne | hid
      · exact hne hgone.1
      · exact hgone.2.1 hid

/-- What the end of a wishlist sync leaves of the runs. -/
theorem runs_settleWishlist (db : Db) (accountId id recordsSeen : Nat) (completed : String) :
    ∃ promoted, (settleWishlist db accountId id recordsSeen completed).runs
      = db.runs.set id (SyncRun.completeClean promoted recordsSeen completed) := by
  refine ⟨!newerComplete db.runs "wishlist.read" accountId id, ?_⟩
  unfold Storage.settleWishlist
  cases newerComplete db.runs "wishlist.read" accountId id <;> rfl

theorem Projected.completeWishlistSnapshot (h : Projected db) {evidence : Int → Nat} {id : Nat}
    {s : WishlistSnapshot} (hok : completeWishlistSnapshot evidence id s db = .ok db') :
    Advance db db' := by
  obtain ⟨listAt, _, hok⟩ := bind_eq_ok.mp hok
  obtain ⟨countAt, _, hok⟩ := bind_eq_ok.mp hok
  obtain ⟨completed, _, hok⟩ := bind_eq_ok.mp hok
  obtain ⟨_, _, hok⟩ := bind_eq_ok.mp hok
  obtain ⟨_, _, hok⟩ := bind_eq_ok.mp hok
  obtain ⟨normalized, _, hok⟩ := bind_eq_ok.mp hok
  obtain ⟨⟨run, accountId⟩, hget, hok⟩ := bind_eq_ok.mp hok
  obtain ⟨hrun, rfl, hcap, hof⟩ := requireWishlistSync_eq_ok hget
  obtain ⟨_, hrunning, hok⟩ := bind_eq_ok.mp hok
  obtain ⟨_, _, hok⟩ := bind_eq_ok.mp hok
  obtain rfl := Except.ok.inj hok
  have hrecorded : Projected { db with
      wishlistMetadata := db.wishlistMetadata ++ [⟨run.id, accountId, run.provider, s.supportLevel,
        listAt, s.itemListReportedCount, countAt, s.itemCountReportedCount⟩]
      wishlistObservations := db.wishlistObservations ++
        normalized.map (wishlistRow evidence run.id accountId) } := by
    refine ⟨h.installed, h.owned, h.wishlist.record hrun (require_eq_ok.mp hrunning) hcap
      (fun o ho => ?_) (fun o ho _ => List.mem_append_left _ ho), h.profile, h.keyed, h.profiled⟩
    rcases List.mem_append.mp ho with ho | ho
    · exact Or.inl ho
    · obtain ⟨item, _, rfl⟩ := List.mem_map.mp ho
      exact Or.inr ⟨rfl, hof⟩
  have hrunning := require_eq_ok.mp hrunning
  have hsettled := hrecorded.settleWishlist hrun hcap hof hrunning normalized.length completed
  obtain ⟨promoted, hruns⟩ := runs_settleWishlist { db with
      wishlistMetadata := db.wishlistMetadata ++ [⟨run.id, accountId, run.provider, s.supportLevel,
        listAt, s.itemListReportedCount, countAt, s.itemCountReportedCount⟩]
      wishlistObservations := db.wishlistObservations ++
        normalized.map (wishlistRow evidence run.id accountId) }
    accountId run.id normalized.length completed
  exact .complete hsettled hrun hrunning hruns rfl

theorem Projected.finishWishlistSync (h : Projected db) {id : Nat} {completedAt : Aware}
    {errorCode : String} (hok : finishWishlistSync id completedAt errorCode db = .ok db') :
    Advance db db' := by
  obtain ⟨completed, _, hok⟩ := bind_eq_ok.mp hok
  obtain ⟨⟨run, accountId⟩, hget, hok⟩ := bind_eq_ok.mp hok
  obtain ⟨hrun, rfl, hcap, hof⟩ := requireWishlistSync_eq_ok hget
  obtain ⟨_, hrunning, hok⟩ := bind_eq_ok.mp hok
  rw [require_eq_ok] at hrunning
  obtain rfl := Except.ok.inj hok
  have hset := h.set (g := fun r =>
    { r with status := .failed, completedAt := some completed, promoted := false,
             errorCode := some errorCode, errorDetail := none }) hrun hrunning (fun _ => rfl) nofun
  refine .set ⟨hset.installed, hset.owned, ?_, hset.profile, hset.keyed, hset.profiled⟩ hrun
    hrunning rfl rfl
  refine h.wishlist.set hrun hrunning (fun _ => rfl) (fun _ => nofun) (fun o ho => ?_)
    fun o ho hne => ?_
  · exact (mem_pruneWishlistPayloads.mp ho).1
  · exact mem_pruneWishlistPayloads.mpr ⟨ho, fun hgone => hne hgone.2.1⟩

/-! ## System profiles -/

/-- Deleting runs other than newest complete ones leaves the current rows. -/
theorem Board.filter_current {σ κ φ ψ : Type} {S : Subject σ} {f : φ → ψ}
    {obs : List (Observation σ κ φ)} {cur : List (Current σ κ ψ)} (h : Board S f db.runs obs cur)
    {p : SyncRun → Bool}
    (hp : ∀ s, ∀ r ∈ db.runs.rows, IsGreatest (S.complete db.runs s) r.id → p r = false) :
    cur.filter (fun c => !db.drops p c.promotedSyncRunId) = cur := by
  refine List.filter_eq_self.mpr fun c hc => ?_
  have hdrop : db.drops p c.promotedSyncRunId = false := by
    refine Db.drops_eq_false.mpr fun r hr hid => ?_
    have hgreatest := h.isGreatest hc
    rw [← hid] at hgreatest
    exact hp c.subject r hr hgreatest
  rw [hdrop]
  rfl

/-- The boards after `deleteRuns`, with the current rows as they were. -/
theorem Board.deleteRuns {σ κ φ ψ : Type} {S : Subject σ} {f : φ → ψ}
    {obs : List (Observation σ κ φ)} {cur : List (Current σ κ ψ)} (h : Board S f db.runs obs cur)
    {p : SyncRun → Bool}
    (hp : ∀ s, ∀ r ∈ db.runs.rows, IsGreatest (S.complete db.runs s) r.id → p r = false) :
    Board S f (db.runs.delete p) (obs.filter fun o => !db.drops p o.syncRunId) cur := by
  refine h.delete hp (fun o ho => List.mem_of_mem_filter ho) fun o ho hkept => ?_
  exact List.mem_filter.mpr ⟨ho, by simpa using Db.drops_eq_false.mpr hkept⟩

/-- A deletion of runs of one capability takes none of another. -/
theorem Subject.keeps_of_capability {σ : Type} {S : Subject σ} (runs : Runs) {p : SyncRun → Bool}
    {capability : String} (hp : ∀ r, p r = true → r.capability = capability)
    (hcap : S.capability ≠ capability) :
    ∀ s, ∀ r ∈ runs.rows, IsGreatest (S.complete runs s) r.id → p r = false := by
  intro s r hr hgreatest
  obtain ⟨r', hr', hid, hrcap, _⟩ := hgreatest.1
  rw [Runs.eq_of_id hr' hr hid] at hrcap
  cases hpr : p r with
  | false => rfl
  | true => exact absurd (hrcap.symm.trans (hp r hpr)) hcap

/-- Deleting profile syncs that are not promoted. -/
theorem Projected.deleteProfiles (h : Projected db) {p : SyncRun → Bool}
    (hp : ∀ r, p r = true → r.capability = "system_profile.read")
    (hkept : ∀ s, ∀ r ∈ db.runs.rows,
      IsGreatest ((Subject.machine "system_profile.read").complete db.runs s) r.id → p r = false) :
    Projected (db.deleteRuns p) where
  installed := h.installed.deleteRuns (Subject.keeps_of_capability _ hp (by decide))
  owned := by
    have hother := Subject.keeps_of_capability (S := Subject.account "owned.visible.read")
      db.runs hp (by decide)
    show Board _ _ _ _ (db.ownedCurrent.filter fun c => !db.drops p c.promotedSyncRunId)
    rw [h.owned.filter_current hother]
    exact h.owned.deleteRuns hother
  wishlist := by
    have hother := Subject.keeps_of_capability (S := Subject.account "wishlist.read")
      db.runs hp (by decide)
    show Board _ _ _ _ (db.wishlistCurrent.filter fun c => !db.drops p c.promotedSyncRunId)
    rw [h.wishlist.filter_current hother]
    exact h.wishlist.deleteRuns hother
  profile := by
    show Board _ _ _ _ (db.profileCurrent.filter fun c => !db.drops p c.promotedSyncRunId)
    rw [h.profile.filter_current hkept]
    exact h.profile.deleteRuns hkept
  keyed := h.keyed.filter _
  profiled := by
    intro r hr hcap hs
    obtain ⟨hr, hpr⟩ := Runs.mem_delete.mp hr
    obtain ⟨o, ho, hid⟩ := h.profiled r hr hcap hs
    refine ⟨o, List.mem_filter.mpr ⟨ho, ?_⟩, hid⟩
    have hdrop : db.drops p o.syncRunId = false := by
      refine Db.drops_eq_false.mpr fun r' hr' hid' => ?_
      rwa [Runs.eq_of_id hr' hr (hid'.trans hid)]
    rw [hdrop]
    rfl

theorem Projected.currents_deleteProfiles (h : Projected db) {p : SyncRun → Bool}
    (hp : ∀ r, p r = true → r.capability = "system_profile.read")
    (hkept : ∀ s, ∀ r ∈ db.runs.rows,
      IsGreatest ((Subject.machine "system_profile.read").complete db.runs s) r.id → p r = false) :
    (db.deleteRuns p).currents = db.currents := by
  have howned := h.owned.filter_current (Subject.keeps_of_capability _ hp (by decide))
  have hwishlist := h.wishlist.filter_current (Subject.keeps_of_capability _ hp (by decide))
  have hprofile := h.profile.filter_current hkept
  simp only [Db.currents, Db.deleteRuns, howned, hwishlist, hprofile]

/-- The newest complete profile sync is promoted, so its history stays. -/
theorem Projected.expiredProfileSync (h : Projected db) (machineId cutoff : String) :
    ∀ s, ∀ r ∈ db.runs.rows,
      IsGreatest ((Subject.machine "system_profile.read").complete db.runs s) r.id →
        expiredProfileSync db machineId cutoff r = false := by
  intro s r hr hgreatest
  obtain ⟨r', hr', hid, hcap, hof, hs⟩ := hgreatest.1
  obtain rfl := Runs.eq_of_id hr' hr hid
  obtain ⟨o, ho, hoid⟩ := h.profiled r' hr hcap hs
  have hrow : o.promoted (fun facts => facts) ∈ currentRows db.profileCurrent s :=
    (h.profile.newest s _).mpr ⟨r'.id, hgreatest, o, ho, hoid, rfl⟩
  obtain ⟨hcur, hsub⟩ := hrow
  by_cases hmachine : r'.machineId = some machineId
  · have heq : s = machineId := Option.some.inj (hof.symm.trans hmachine)
    have hany : (db.profileCurrent.any fun c =>
        c.subject == machineId && c.promotedSyncRunId == r'.id) = true := by
      refine List.any_eq_true.mpr ⟨_, hcur, ?_⟩
      rw [Bool.and_eq_true, beq_iff_eq, beq_iff_eq]
      exact ⟨hsub.trans heq, hoid⟩
    rw [Storage.expiredProfileSync, hany]
    simp
  · simp [Storage.expiredProfileSync, SyncRun.ofMachine, hmachine]

theorem Projected.beginSystemProfileSync (h : Projected db) {machineId disclosureVersion : String}
    {startedAt : Aware} {reply : Nat}
    (hok : beginSystemProfileSync machineId disclosureVersion startedAt db = .ok (reply, db')) :
    Advance db db' := by
  obtain ⟨timestamp, _, hok⟩ := bind_eq_ok.mp hok
  obtain ⟨_, _, hok⟩ := bind_eq_ok.mp hok
  obtain ⟨abandonedCutoff, _, hok⟩ := bind_eq_ok.mp hok
  obtain ⟨cutoff, _, hok⟩ := bind_eq_ok.mp hok
  obtain ⟨_, rfl⟩ := Prod.mk.inj (Except.ok.inj hok)
  have hrunning : ∀ r, abandonedProfileSync machineId abandonedCutoff r = true →
      r.status = .running := fun r hr => by
    simp only [abandonedProfileSync, Bool.and_eq_true, beq_iff_eq] at hr
    exact hr.1.2
  have habandoned : Projected { db with
      runs := db.runs.update (abandonedProfileSync machineId abandonedCutoff)
        (SyncRun.finish .failed timestamp false (some "SYNC_ABANDONED") none) } :=
    ⟨h.installed.update hrunning (fun _ => nofun) fun _ => rfl,
      h.owned.update hrunning (fun _ => nofun) fun _ => rfl,
      h.wishlist.update hrunning (fun _ => nofun) fun _ => rfl,
      h.profile.update hrunning (fun _ => nofun) fun _ => rfl, h.keyed,
      h.profiled.update fun _ => nofun⟩
  have hkept := habandoned.expiredProfileSync machineId cutoff
  have hcap : ∀ r, Storage.expiredProfileSync { db with
      runs := db.runs.update (abandonedProfileSync machineId abandonedCutoff)
        (SyncRun.finish .failed timestamp false (some "SYNC_ABANDONED") none) } machineId cutoff r
          = true → r.capability = "system_profile.read" := fun r hr => by
    simp only [Storage.expiredProfileSync, SyncRun.ofMachine, Bool.and_eq_true, beq_iff_eq] at hr
    exact hr.1.1.1
  have hsettles : db.runs.Settles
      (db.runs.update (abandonedProfileSync machineId abandonedCutoff)
        (SyncRun.finish .failed timestamp false (some "SYNC_ABANDONED") none)) :=
    .update _ fun r _ => hrunning r
  exact ⟨(habandoned.deleteProfiles hcap hkept).insert nofun,
    (hsettles.trans (.delete _ _)).trans (.insert _ _),
    Or.inl (habandoned.currents_deleteProfiles hcap hkept)⟩

theorem requireRunningProfileSync_eq_ok {id : Nat} {machineId : String}
    (h : requireRunningProfileSync db id = .ok (run, machineId)) :
    run ∈ db.runs.rows ∧ run.id = id ∧ run.capability = "system_profile.read" ∧
      run.machineId = some machineId ∧ run.status = .running := by
  obtain ⟨run', hget, h⟩ := bind_eq_ok.mp h
  obtain ⟨hmem, hid⟩ := getSyncRun_eq_ok.mp hget
  split at h
  · rename_i hmachine
    obtain ⟨_, hcheck, h⟩ := bind_eq_ok.mp h
    obtain ⟨hcap, hrunning⟩ := require_eq_ok.mp hcheck
    obtain ⟨rfl, rfl⟩ := Prod.mk.inj (Except.ok.inj h)
    exact ⟨hmem, hid, hcap, hmachine, hrunning⟩
  · cases h

/-- The one observation of a profile sync replaces the row of its machine. -/
theorem mem_promoteProfile {row : Observation String Unit ProfileFacts}
    {obs : List (Observation String Unit ProfileFacts)} {cur : List (Current String Unit ProfileFacts)}
    {c : Current String Unit ProfileFacts} (hnone : ∀ o ∈ obs, o.syncRunId ≠ row.syncRunId) :
    c ∈ upsert sameCurrent (fun row _ => row) (row.promoted fun facts => facts) cur ↔
      (c ∈ cur ∧ c.subject ≠ row.subject) ∨
        c ∈ promotedRows (fun facts => facts) (obs ++ [row]) row.syncRunId := by
  have hrows : c ∈ promotedRows (fun facts => facts) (obs ++ [row]) row.syncRunId ↔
      c = row.promoted fun facts => facts := by
    constructor
    · rintro ⟨o, ho, hid, rfl⟩
      rcases List.mem_append.mp ho with ho | ho
      · exact absurd hid (hnone o ho)
      · rw [List.mem_singleton.mp ho]
    · rintro rfl
      exact ⟨row, List.mem_append_right _ (List.mem_singleton.mpr rfl), rfl, rfl⟩
  rw [mem_upsert, hrows]
  simp [sameCurrent, Observation.promoted, or_comm]

theorem Projected.completeSystemProfileSync (h : Projected db) {text : TextLibrary}
    {evidence id : Nat} {validate : Except Exn ValidatedProfile} {observedAt completedAt : Aware}
    {disclosureVersion : String}
    (hok : completeSystemProfileSync text evidence id validate observedAt completedAt
      disclosureVersion db = .ok db') : Advance db db' := by
  obtain ⟨profile, _, hok⟩ := bind_eq_ok.mp hok
  obtain ⟨_, _, hok⟩ := bind_eq_ok.mp hok
  obtain ⟨observed, _, hok⟩ := bind_eq_ok.mp hok
  obtain ⟨completed, _, hok⟩ := bind_eq_ok.mp hok
  obtain ⟨⟨run, machineId⟩, hget, hok⟩ := bind_eq_ok.mp hok
  obtain ⟨hrun, rfl, hcap, hof, hrunning⟩ := requireRunningProfileSync_eq_ok hget
  obtain ⟨_, _, hok⟩ := bind_eq_ok.mp hok
  obtain ⟨machine, _, hok⟩ := bind_eq_ok.mp hok
  obtain ⟨_, _, hok⟩ := bind_eq_ok.mp hok
  obtain ⟨_, hkey, hok⟩ := bind_eq_ok.mp hok
  obtain rfl := Except.ok.inj hok
  have hnone : ∀ o ∈ db.profileObservations, o.syncRunId ≠ run.id := by
    simpa using require_eq_ok.mp hkey
  have hrecorded : Board (.machine "system_profile.read") (fun facts => facts) db.runs
      (db.profileObservations ++ [⟨run.id, machineId, (),
        ⟨evidence, "system-profile/0.1", profile.json, observed⟩⟩]) db.profileCurrent := by
    refine h.profile.record hrun hrunning hcap (fun o ho => ?_)
      fun o ho _ => List.mem_append_left _ ho
    rcases List.mem_append.mp ho with ho | ho
    · exact Or.inl ho
    · rw [List.mem_singleton.mp ho]
      exact Or.inr ⟨rfl, hof⟩
  have hprofiled : ∀ promoted, Profiled
      (db.runs.set run.id (SyncRun.completeClean promoted 1 completed))
      (db.profileObservations ++ [⟨run.id, machineId, (),
        ⟨evidence, "system-profile/0.1", profile.json, observed⟩⟩]) := fun promoted => by
    have hmore : Profiled db.runs (db.profileObservations ++ [⟨run.id, machineId, (),
        ⟨evidence, "system-profile/0.1", profile.json, observed⟩⟩]) := fun r hr hrcap hs => by
      obtain ⟨o, ho, hid⟩ := h.profiled r hr hrcap hs
      exact ⟨o, List.mem_append_left _ ho, hid⟩
    refine hmore.set hrun fun _ _ => ⟨_, List.mem_append_right _ (List.mem_singleton.mpr rfl), rfl⟩
  unfold settleProfile
  cases hnewer : newerCompleteOnMachine db.runs "system_profile.read" machineId run.id with
  | true =>
    exact .complete ⟨h.installed.other hrun hrunning (fun _ => rfl) (by rw [hcap]; decide),
      h.owned.other hrun hrunning (fun _ => rfl) (by rw [hcap]; decide),
      h.wishlist.other hrun hrunning (fun _ => rfl) (by rw [hcap]; decide),
      hrecorded.stale hrun hrunning (fun _ => rfl) hof (newerCompleteOnMachine_eq_true.mp hnewer)
        (fun _ ho => ho) (fun _ ho _ => ho), h.keyed, hprofiled false⟩ hrun hrunning rfl rfl
  | false =>
    exact .complete ⟨h.installed.other hrun hrunning (fun _ => rfl) (by rw [hcap]; decide),
      h.owned.other hrun hrunning (fun _ => rfl) (by rw [hcap]; decide),
      h.wishlist.other hrun hrunning (fun _ => rfl) (by rw [hcap]; decide),
      hrecorded.promote hrun hrunning hcap (fun _ => rfl) rfl hof
        (le_of_newerCompleteOnMachine hnewer) (fun _ ho => ho) (fun _ ho _ => ho)
        fun c => mem_promoteProfile hnone, h.keyed, hprofiled true⟩ hrun hrunning rfl rfl

/-- The check of a failed profile sync changes nothing; its `UPDATE` is a step when
the run is still running, or gone. -/
theorem Projected.finishSystemProfileSyncFailed (h : Projected db) {id : Nat}
    {failure : ProfileFailure} (hrunning : ∀ run, db.runs.get? id = some run → run.status = .running) :
    Advance db (finishSystemProfileSyncFailed id failure db) := by
  have hincomplete : failure.status ≠ .complete := by
    rcases failure.failed with hs | hs <;> simp [hs]
  unfold Storage.finishSystemProfileSyncFailed
  cases hget : db.runs.get? id with
  | none =>
    rw [Runs.set_of_get?_eq_none hget]
    exact .refl h
  | some run =>
    obtain ⟨hrun, rfl⟩ := Runs.get?_eq_some.mp hget
    have hrunning := hrunning run hget
    exact .set (h.set hrun hrunning (fun _ => rfl) hincomplete) hrun hrunning rfl rfl

end Steps

end SteamAgent.Storage
