import SteamAgent.Storage.DeclaredApps

/-!
# Declared-app syncs of many processes

The calls that any number of processes make on one database, in the order of
their commits, and what the demand rows say after them.

There are five groups.

* `DeclaredHistory`: the calls and their readings of the clock.
* `DeclaredInv`, the invariant of the tables: one target of an app is running.
* `Fades`: what retention, reclaiming, quarantine and interruption do.
* `Chronicle` and `Accounted`, the tables against the calls so far.
* The result, and two histories.
-/

namespace SteamAgent.Storage

open Datetime (Instant Aware)

/-! ## Calls -/

/-- The calls of the declared-app methods. -/
inductive DeclaredCall (F : Type) where
  | begin (q : DeclaredRequest) (now : Aware)
  | record (id : Nat) (q : DeclaredResult F)
  | mark (id : Nat) (observedAt : Aware) (errorCode : String)
  | finish (id : Nat) (completedAt : Aware)

/-- What a call returns. -/
inductive DeclaredReply where
  | begun (id : Nat) (candidates targeted : List Int)
  | done
  | finished (run : SyncRun)

/-- `validate_declared_facts_payload`, on payloads of a type. -/
abbrev DeclaredValidator (F : Type) :=
  F → Int → String → String → Except Exn DeclaredFacts

/-- A call, how it ended, and the database before and after it. -/
structure DeclaredServed (F : Type) where
  before : DeclaredDb
  call : DeclaredCall F
  outcome : Except Exn DeclaredReply
  after : DeclaredDb

namespace DeclaredCall

variable {F : Type}

def run (validate : DeclaredValidator F) :
    DeclaredCall F → DeclaredDb → Except Exn (DeclaredReply × DeclaredDb)
  | begin q now, db => do
    let (reply, db) ← beginDeclaredAppSync q now db
    return (.begun reply.1 reply.2.1 reply.2.2, db)
  | record id q, db => do
    let db ← recordDeclaredAppResult validate id q db
    return (.done, db)
  | mark id observedAt errorCode, db => do
    let db ← markRemainingDeclaredAppsUnevaluated id observedAt errorCode db
    return (.done, db)
  | finish id completedAt, db => do
    let (run, db) ← finishDeclaredAppSync id completedAt db
    return (.finished run, db)

/-- A call commits, or it raises and changes nothing. -/
def serve (validate : DeclaredValidator F) (db : DeclaredDb) (c : DeclaredCall F) :
    DeclaredServed F :=
  match c.run validate db with
  | .ok (reply, db') => ⟨db, c, .ok reply, db'⟩
  | .error x => ⟨db, c, .error x, db⟩

/-- The first reading of the clock that a call uses. -/
def earliest : DeclaredCall F → Int
  | begin q _ => q.startedAt.position
  | record _ q => q.observedAt.position
  | mark _ observedAt _ => observedAt.position
  | finish _ completedAt => completedAt.position

/-- The last one. -/
def latest : DeclaredCall F → Int
  | begin _ now => now.position
  | c => c.earliest

end DeclaredCall

/-- The calls so far, newest first, and the database after them.  Readings of the
clock do not go back.  Other methods may change the accounts, the machines, the
consents and the limits in between. -/
inductive DeclaredHistory {F : Type} (validate : DeclaredValidator F) :
    List (DeclaredServed F) → DeclaredDb → Prop
  | nil (accounts : List Account) (machines : List Machine) (consents : List AccountDataConsent)
      (limits : Limits) :
    DeclaredHistory validate [] (.empty accounts machines consents limits)
  | call {l : List (DeclaredServed F)} {db : DeclaredDb} (h : DeclaredHistory validate l db)
      (c : DeclaredCall F) (horder : ∀ e ∈ l, e.call.latest ≤ c.earliest)
      (hreadings : c.earliest ≤ c.latest) :
    DeclaredHistory validate (c.serve validate db :: l) (c.serve validate db).after
  | other {l : List (DeclaredServed F)} {db : DeclaredDb} (h : DeclaredHistory validate l db)
      (accounts : List Account) (machines : List Machine) (consents : List AccountDataConsent)
      (limits : Limits) :
    DeclaredHistory validate l { db with accounts, machines, consents, limits }

namespace DeclaredServed

variable {F : Type}

/-- A call that began a run. -/
def Begins (id : Nat) (q : DeclaredRequest) (e : DeclaredServed F) : Prop :=
  ∃ now candidates targeted, e.call = .begin q now ∧ e.outcome = .ok (.begun id candidates targeted)

/-- A call that recorded a result of an app. -/
def Records (id : Nat) (q : DeclaredResult F) (e : DeclaredServed F) : Prop :=
  e.call = .record id q ∧ e.outcome = .ok .done

/-- A ready result, with the facts that it stored. -/
def Readies (validate : DeclaredValidator F) (id : Nat) (key : DeclaredKey) (facts : DeclaredFacts)
    (observedAt : String) (e : DeclaredServed F) : Prop :=
  ∃ q payload, e.Records id q ∧ q.state = "ready" ∧ q.facts = some payload ∧ q.appid = key.appid ∧
    (∃ d ∈ e.before.demand, d.syncRunId = id ∧ d.key = key) ∧
    validate payload key.appid key.country key.language = .ok facts ∧
    timestamp q.observedAt = .ok observedAt

/-- The code with which the call that began a run skipped an app. -/
def Skips (id : Nat) (appid : Int) (code : String) (e : DeclaredServed F) : Prop :=
  ∃ q now candidates targeted plan db, e.call = .begin q now ∧
    e.outcome = .ok (.begun id candidates targeted) ∧
    planDeclaredAppSync q now e.before = .ok (plan, db) ∧ appid ∈ plan.scope.demanded ∧
    plan.scope.skipCode db plan.cooldownUntil appid = some code

/-- What settles an app for a run: a ready result, a result that says there is no
such app while there are no facts about it, or fresh evidence at the beginning. -/
inductive Resolves (id : Nat) (appid : Int) (e : DeclaredServed F) : Prop
  | ready {q : DeclaredResult F} (h : e.Records id q) (happ : q.appid = appid)
      (hstate : q.state = "ready")
  | notFound {q : DeclaredResult F} {d : DeclaredDemand} (h : e.Records id q) (happ : q.appid = appid)
      (hstate : q.state = "not_found") (hd : d ∈ e.before.demand) (hid : d.syncRunId = id)
      (hkey : d.key.appid = appid) (hnone : e.before.current? d.key = none)
  | fresh (h : e.Skips id appid "FRESH_LAST_GOOD")
  | negative (h : e.Skips id appid "NOT_FOUND_CACHE")

end DeclaredServed

/-- Whether the quarantine of a call leaves every demand that a run still has open
where it is. -/
def DeclaredCall.keepsOpen {F : Type} (db : DeclaredDb) : DeclaredCall F → Bool
  | .begin q now =>
    match declaredScope q now db with
    | .error _ => true
    | .ok (scope, _) =>
      match reclaimDeclaredSyncs scope.timestamp db with
      | .error _ => true
      | .ok db => db.demand.all fun d =>
        !(scope.inLineage db d && d.unresolved && db.running d.syncRunId)
  | _ => true

/-! ## The tables -/

/-- What every call keeps of the tables. -/
structure DeclaredInv (db : DeclaredDb) : Prop where
  owned : ∀ d ∈ db.demand, ∃ r ∈ db.runs.rows, r.id = d.syncRunId
  distinct : ∀ d ∈ db.demand, ∀ d' ∈ db.demand, d.syncRunId = d'.syncRunId →
    d.key.appid = d'.key.appid → d = d'
  targeted : ∀ d ∈ db.demand, d.state = "running" → d.targeted = true ∧ d.evaluated = false
  underway : ∀ d ∈ db.demand, d.state = "running" → ∀ r ∈ db.runs.rows, r.id = d.syncRunId →
    r.status = .running
  exclusive : ∀ d ∈ db.demand, ∀ d' ∈ db.demand, d.state = "running" → d'.state = "running" →
    d.key = d'.key → d = d'
  single : ∀ c ∈ db.current, ∀ c' ∈ db.current, c.key = c'.key → c = c'
  provider : ∀ c ∈ db.current, c.facts.provider = "steam_store"

/-- Demand that a run has open for an app. -/
def DeclaredDemand.Open (id : Nat) (appid : Int) (d : DeclaredDemand) : Prop :=
  d.syncRunId = id ∧ d.key.appid = appid ∧ d.unresolved = true

/-- A statement that only takes runs, demand and facts away: what is running was
running, and the facts are some of those before. -/
structure Fades (db db' : DeclaredDb) : Prop where
  last : db'.runs.last = db.runs.last
  runs : ∀ r' ∈ db'.runs.rows, ∃ r ∈ db.runs.rows, r.id = r'.id
  running : ∀ id, db'.running id = true → db.running id = true
  demand : ∀ d ∈ db'.demand, d.state = "running" → d ∈ db.demand
  current : ∀ c' ∈ db'.current, ∃ c ∈ db.current, c'.key = c.key ∧ c'.facts = c.facts ∧
    c'.observedAt = c.observedAt

/-- The runs that are under way have the same demand open. -/
def KeepsOpen (db db' : DeclaredDb) : Prop :=
  ∀ id, db'.running id = true → ∀ appid,
    (∃ d ∈ db'.demand, d.Open id appid) ↔ ∃ d ∈ db.demand, d.Open id appid

theorem Fades.refl (db : DeclaredDb) : Fades db db where
  last := rfl
  runs r hr := ⟨r, hr, rfl⟩
  running _ h := h
  demand _ hd _ := hd
  current c hc := ⟨c, hc, rfl, rfl, rfl⟩

section Tables

variable {db db' db'' : DeclaredDb}

theorem Fades.trans (h : Fades db db') (h' : Fades db' db'') : Fades db db'' where
  last := h'.last.trans h.last
  runs r hr := by
    obtain ⟨r', hr', hid'⟩ := h'.runs r hr
    obtain ⟨r'', hr'', hid''⟩ := h.runs r' hr'
    exact ⟨r'', hr'', hid''.trans hid'⟩
  running id hid := h.running id (h'.running id hid)
  demand d hd hs := h.demand d (h'.demand d hd hs) hs
  current c hc := by
    obtain ⟨c', hc', hkey', hfacts', hobserved'⟩ := h'.current c hc
    obtain ⟨c'', hc'', hkey'', hfacts'', hobserved''⟩ := h.current c' hc'
    exact ⟨c'', hc'', hkey'.trans hkey'', hfacts'.trans hfacts'', hobserved'.trans hobserved''⟩

theorem KeepsOpen.trans (h : KeepsOpen db db') (hf : Fades db' db'') (h' : KeepsOpen db' db'') :
    KeepsOpen db db'' := by
  intro id hid appid
  exact (h' id hid appid).trans (h id (hf.running id hid) appid)

theorem running_iff {id : Nat} :
    db.running id = true ↔ ∃ r ∈ db.runs.rows, r.id = id ∧ r.status = .running := by
  simp [DeclaredDb.running]

/-- The row of a demand says what its run is. -/
theorem DeclaredInv.running_of_demand (h : DeclaredInv db) {d : DeclaredDemand}
    (hd : d ∈ db.demand) (hs : d.state = "running") : db.running d.syncRunId = true := by
  obtain ⟨r, hr, hid⟩ := h.owned d hd
  exact running_iff.mpr ⟨r, hr, hid, h.underway d hd hs r hr hid⟩

/-! ## Deleting -/

section Deleting

variable {p : SyncRun → Bool}

theorem drops_eq {r : SyncRun} (hr : r ∈ db.runs.rows) : db.drops p r.id = p r := by
  cases hp : p r with
  | true => exact List.any_eq_true.mpr ⟨r, hr, by simp [hp]⟩
  | false =>
    refine List.any_eq_false.mpr fun r' hr' => ?_
    by_cases hid : r'.id = r.id
    · rw [Runs.eq_of_id hr' hr hid, hp]
      simp
    · simp [hid]

theorem fades_deleteRuns (db : DeclaredDb) (p : SyncRun → Bool) : Fades db (db.deleteRuns p) where
  last := rfl
  runs r hr := ⟨r, (Runs.mem_delete.mp hr).1, rfl⟩
  running id hid := by
    obtain ⟨r, hr, hrest⟩ := running_iff.mp hid
    exact running_iff.mpr ⟨r, (Runs.mem_delete.mp hr).1, hrest⟩
  demand _ hd _ := List.mem_of_mem_filter hd
  current c' hc' := by
    obtain ⟨c, hc, rfl⟩ := List.mem_map.mp hc'
    refine ⟨c, hc, ?_⟩
    split <;> exact ⟨rfl, rfl, rfl⟩

theorem keepsOpen_deleteRuns (db : DeclaredDb) (p : SyncRun → Bool) :
    KeepsOpen db (db.deleteRuns p) := by
  intro id hid appid
  obtain ⟨r, hr, rfl, _⟩ := running_iff.mp hid
  obtain ⟨hr, hp⟩ := Runs.mem_delete.mp hr
  constructor
  · rintro ⟨d, hd, hopen⟩
    exact ⟨d, List.mem_of_mem_filter hd, hopen⟩
  · rintro ⟨d, hd, hopen⟩
    refine ⟨d, List.mem_filter.mpr ⟨hd, ?_⟩, hopen⟩
    rw [hopen.1, drops_eq hr, hp]
    rfl

/-- Rows that the statement leaves. -/
theorem DeclaredInv.filter (h : DeclaredInv db) (kept : DeclaredDemand → Bool)
    (kept' : DeclaredObservation → Bool) (kept'' : DeclaredCurrent → Bool) :
    DeclaredInv { db with
      demand := db.demand.filter kept
      observations := db.observations.filter kept'
      current := db.current.filter kept'' } where
  owned d hd := h.owned d (List.mem_of_mem_filter hd)
  distinct d hd d' hd' := h.distinct d (List.mem_of_mem_filter hd) d' (List.mem_of_mem_filter hd')
  targeted d hd := h.targeted d (List.mem_of_mem_filter hd)
  underway d hd := h.underway d (List.mem_of_mem_filter hd)
  exclusive d hd d' hd' := h.exclusive d (List.mem_of_mem_filter hd) d' (List.mem_of_mem_filter hd')
  single c hc c' hc' := h.single c (List.mem_of_mem_filter hc) c' (List.mem_of_mem_filter hc')
  provider c hc := h.provider c (List.mem_of_mem_filter hc)

theorem DeclaredInv.deleteRuns (h : DeclaredInv db) (p : SyncRun → Bool) :
    DeclaredInv (db.deleteRuns p) where
  owned d hd := by
    obtain ⟨hd, hdrop⟩ := List.mem_filter.mp hd
    obtain ⟨r, hr, hid⟩ := h.owned d hd
    refine ⟨r, Runs.mem_delete.mpr ⟨hr, ?_⟩, hid⟩
    rw [← drops_eq (p := p) hr, hid]
    simpa using hdrop
  distinct d hd d' hd' := h.distinct d (List.mem_of_mem_filter hd) d' (List.mem_of_mem_filter hd')
  targeted d hd := h.targeted d (List.mem_of_mem_filter hd)
  underway d hd hs r hr := h.underway d (List.mem_of_mem_filter hd) hs r (Runs.mem_delete.mp hr).1
  exclusive d hd d' hd' := h.exclusive d (List.mem_of_mem_filter hd) d' (List.mem_of_mem_filter hd')
  single c hc c' hc' hkey := by
    obtain ⟨c₀, hc₀, rfl⟩ := List.mem_map.mp hc
    obtain ⟨c₁, hc₁, rfl⟩ := List.mem_map.mp hc'
    have hsame : ∀ c : DeclaredCurrent, (if c.promotedSyncRunId.any (db.drops p) = true then
        { c with promotedSyncRunId := none } else c).key = c.key := by
      intro c
      split <;> rfl
    rw [hsame, hsame] at hkey
    rw [h.single c₀ hc₀ c₁ hc₁ hkey]
  provider c hc := by
    obtain ⟨c₀, hc₀, rfl⟩ := List.mem_map.mp hc
    split
    · exact h.provider c₀ hc₀
    · exact h.provider c₀ hc₀

theorem fades_pruneDeclaredApps {now : String} (hok : pruneDeclaredApps now db = .ok db') :
    Fades db db' ∧ KeepsOpen db db' ∧ (DeclaredInv db → DeclaredInv db') := by
  obtain ⟨cutoff, _, hok⟩ := bind_eq_ok.mp hok
  obtain rfl := Except.ok.inj hok
  have hfewer : Fades db
      { db with current := db.current.filter fun c => !pastCutoff c.observedAt cutoff } :=
    ⟨rfl, fun r hr => ⟨r, hr, rfl⟩, fun _ h => h, fun _ hd _ => hd,
      fun c hc => ⟨c, List.mem_of_mem_filter hc, rfl, rfl, rfl⟩⟩
  refine ⟨hfewer.trans (fades_deleteRuns _ _), ?_, fun h => ?_⟩
  · exact keepsOpen_deleteRuns
      { db with current := db.current.filter fun c => !pastCutoff c.observedAt cutoff } _
  · have hinv := h.filter (fun _ => true) (fun _ => true) (fun c => !pastCutoff c.observedAt cutoff)
    rw [List.filter_true, List.filter_true] at hinv
    exact hinv.deleteRuns _

end Deleting

/-! ## Interrupting -/

theorem mem_interruptDeclared {id : Nat} {text code : String} {demand : List DeclaredDemand}
    {d' : DeclaredDemand} (h : d' ∈ interruptDeclared id text code demand) :
    (d' ∈ demand ∧ ¬(d'.syncRunId = id ∧ d'.state = "running")) ∨
      ∃ d ∈ demand, d.syncRunId = id ∧ d.state = "running" ∧ d' = { d with
        state := "unevaluated", evaluated := false, errorCode := some code,
        observedAt := some text } := by
  obtain ⟨d, hd, rfl⟩ := List.mem_map.mp h
  by_cases hcond : (d.syncRunId == id && d.state == "running") = true
  · rw [if_pos hcond]
    simp only [Bool.and_eq_true, beq_iff_eq] at hcond
    exact Or.inr ⟨d, hd, hcond.1, hcond.2, rfl⟩
  · rw [if_neg hcond]
    refine Or.inl ⟨hd, fun hrow => hcond ?_⟩
    simp [hrow.1, hrow.2]

theorem mem_interruptDeclared_of_ne {id : Nat} {text code : String} {demand : List DeclaredDemand}
    {d : DeclaredDemand} (hd : d ∈ demand) (hne : ¬(d.syncRunId = id ∧ d.state = "running")) :
    d ∈ interruptDeclared id text code demand := by
  refine List.mem_map.mpr ⟨d, hd, if_neg fun hcond => hne ?_⟩
  simpa using hcond

/-- Demand that is running is open. -/
theorem DeclaredInv.unresolved (h : DeclaredInv db) {d : DeclaredDemand} (hd : d ∈ db.demand)
    (hs : d.state = "running") : d.unresolved = true := by
  obtain ⟨htargeted, hevaluated⟩ := h.targeted d hd hs
  simp [DeclaredDemand.unresolved, htargeted, hevaluated]

/-- The state of the tables after the demand of a run is interrupted. -/
def DeclaredDb.interrupt (db : DeclaredDb) (id : Nat) (text code : String) : DeclaredDb :=
  { db with demand := interruptDeclared id text code db.demand }

theorem fades_interrupt (db : DeclaredDb) (id : Nat) (text code : String) :
    Fades db (db.interrupt id text code) where
  last := rfl
  runs r hr := ⟨r, hr, rfl⟩
  running _ h := h
  demand d hd hs := by
    rcases mem_interruptDeclared hd with ⟨hd, _⟩ | ⟨d₀, _, _, _, rfl⟩
    · exact hd
    · simp at hs
  current c hc := ⟨c, hc, rfl, rfl, rfl⟩

theorem keepsOpen_interrupt (h : DeclaredInv db) (id : Nat) (text code : String) :
    KeepsOpen db (db.interrupt id text code) := by
  intro runId _ appid
  constructor
  · rintro ⟨d, hd, hid, hkey, hopen⟩
    rcases mem_interruptDeclared hd with ⟨hd, _⟩ | ⟨d₀, hd₀, hid₀, hs₀, rfl⟩
    · exact ⟨d, hd, hid, hkey, hopen⟩
    · exact ⟨d₀, hd₀, hid, hkey, h.unresolved hd₀ hs₀⟩
  · rintro ⟨d, hd, hid, hkey, hopen⟩
    by_cases hrow : d.syncRunId = id ∧ d.state = "running"
    · refine ⟨_, List.mem_map_of_mem hd, ?_⟩
      rw [if_pos (by simp [hrow.1, hrow.2])]
      refine ⟨hid, hkey, ?_⟩
      simp [DeclaredDemand.unresolved, (h.targeted d hd hrow.2).1]
    · exact ⟨d, mem_interruptDeclared_of_ne hd hrow, hid, hkey, hopen⟩

/-- Demand that keeps its keys, and is running only if it stays as it was. -/
theorem DeclaredInv.mapDemand (h : DeclaredInv db) {f : DeclaredDemand → DeclaredDemand}
    (hkeys : ∀ d ∈ db.demand, (f d).syncRunId = d.syncRunId ∧ (f d).key = d.key)
    (hrunning : ∀ d ∈ db.demand, (f d).state = "running" → f d = d) :
    DeclaredInv { db with demand := db.demand.map f } where
  owned d hd := by
    obtain ⟨d₀, hd₀, rfl⟩ := List.mem_map.mp hd
    rw [(hkeys d₀ hd₀).1]
    exact h.owned d₀ hd₀
  distinct d hd d' hd' hid hkey := by
    obtain ⟨d₀, hd₀, rfl⟩ := List.mem_map.mp hd
    obtain ⟨d₁, hd₁, rfl⟩ := List.mem_map.mp hd'
    rw [(hkeys d₀ hd₀).1, (hkeys d₁ hd₁).1] at hid
    rw [(hkeys d₀ hd₀).2, (hkeys d₁ hd₁).2] at hkey
    rw [h.distinct d₀ hd₀ d₁ hd₁ hid hkey]
  targeted d hd hs := by
    obtain ⟨d₀, hd₀, rfl⟩ := List.mem_map.mp hd
    have hsame := hrunning d₀ hd₀ hs
    rw [hsame] at hs ⊢
    exact h.targeted d₀ hd₀ hs
  underway d hd hs := by
    obtain ⟨d₀, hd₀, rfl⟩ := List.mem_map.mp hd
    have hsame := hrunning d₀ hd₀ hs
    rw [hsame] at hs ⊢
    exact h.underway d₀ hd₀ hs
  exclusive d hd d' hd' hs hs' hkey := by
    obtain ⟨d₀, hd₀, rfl⟩ := List.mem_map.mp hd
    obtain ⟨d₁, hd₁, rfl⟩ := List.mem_map.mp hd'
    have hsame := hrunning d₀ hd₀ hs
    have hsame' := hrunning d₁ hd₁ hs'
    rw [hsame] at hs hkey
    rw [hsame'] at hs' hkey
    rw [h.exclusive d₀ hd₀ d₁ hd₁ hs hs' hkey]
  single := h.single
  provider := h.provider

theorem DeclaredInv.interrupt (h : DeclaredInv db) (id : Nat) (text code : String) :
    DeclaredInv (db.interrupt id text code) := by
  refine h.mapDemand (fun d _ => ?_) fun d _ hs => ?_
  · split <;> exact ⟨rfl, rfl⟩
  · split at hs
    · simp at hs
    · rename_i hcond
      rw [if_neg hcond]

/-! ## Ending a run -/

/-- A statement about one run, without demand that is running. -/
def DeclaredDb.setRun (db : DeclaredDb) (id : Nat) (f : SyncRun → SyncRun) : DeclaredDb :=
  { db with runs := db.runs.set id f }

theorem fades_setRun (db : DeclaredDb) (id : Nat) {f : SyncRun → SyncRun}
    (hf : ∀ r, (f r).status = .running → r.status = .running) : Fades db (db.setRun id f) where
  last := rfl
  runs r' hr' := by
    rcases Runs.mem_set.mp hr' with ⟨hr', _⟩ | ⟨r, hr, rfl, rfl⟩
    · exact ⟨r', hr', rfl⟩
    · exact ⟨r, hr, rfl⟩
  running runId hid := by
    obtain ⟨r', hr', hid', hs⟩ := running_iff.mp hid
    rcases Runs.mem_set.mp hr' with ⟨hr', _⟩ | ⟨r, hr, rfl, rfl⟩
    · exact running_iff.mpr ⟨r', hr', hid', hs⟩
    · exact running_iff.mpr ⟨r, hr, hid', hf r hs⟩
  demand _ hd _ := hd
  current c hc := ⟨c, hc, rfl, rfl, rfl⟩

theorem keepsOpen_setRun (db : DeclaredDb) (id : Nat) (f : SyncRun → SyncRun) :
    KeepsOpen db (db.setRun id f) :=
  fun _ _ _ => Iff.rfl

theorem DeclaredInv.setRun (h : DeclaredInv db) {id : Nat} {f : SyncRun → SyncRun}
    (hidle : ∀ d ∈ db.demand, d.state = "running" → d.syncRunId ≠ id) :
    DeclaredInv (db.setRun id f) where
  owned d hd := by
    obtain ⟨r, hr, hid⟩ := h.owned d hd
    by_cases hrid : r.id = id
    · subst hrid
      exact ⟨_, Runs.mem_set_self hr, hid⟩
    · exact ⟨r, (Runs.mem_set_of_ne hrid).mpr hr, hid⟩
  distinct := h.distinct
  targeted := h.targeted
  underway d hd hs r' hr' hid := by
    rcases Runs.mem_set.mp hr' with ⟨hr', _⟩ | ⟨r, hr, rfl, rfl⟩
    · exact h.underway d hd hs r' hr' hid
    · exact absurd hid.symm (hidle d hd hs)
  exclusive := h.exclusive
  single := h.single
  provider := h.provider

/-- After its demand is interrupted, a run has none that is running. -/
theorem interrupt_idle {id : Nat} {text code : String} {d : DeclaredDemand}
    (hd : d ∈ (db.interrupt id text code).demand) (hs : d.state = "running") : d.syncRunId ≠ id := by
  rcases mem_interruptDeclared hd with ⟨_, hne⟩ | ⟨d₀, _, _, _, rfl⟩
  · exact fun hid => hne ⟨hid, hs⟩
  · simp at hs

/-- The end of a run. -/
theorem fades_end (h : DeclaredInv db) (id : Nat) (text code : String) {f : SyncRun → SyncRun}
    (hf : ∀ r, (f r).status = .running → r.status = .running) :
    Fades db ((db.interrupt id text code).setRun id f) ∧
    KeepsOpen db ((db.interrupt id text code).setRun id f) ∧
    DeclaredInv ((db.interrupt id text code).setRun id f) := by
  have hset := fades_setRun (db.interrupt id text code) id hf
  refine ⟨(fades_interrupt db id text code).trans hset, ?_,
    (h.interrupt id text code).setRun fun d hd hs => interrupt_idle hd hs⟩
  exact (keepsOpen_interrupt h id text code).trans hset (keepsOpen_setRun _ _ _)

theorem fades_reclaimDeclaredSync (h : DeclaredInv db) (text : String) (run : SyncRun) :
    Fades db (reclaimDeclaredSync text db run) ∧ KeepsOpen db (reclaimDeclaredSync text db run) ∧
      DeclaredInv (reclaimDeclaredSync text db run) := by
  refine fades_end h run.id text "SYNC_INTERRUPTED" fun r hs => ?_
  split at hs
  · simp at hs
  · exact hs

theorem fades_reclaimAll (h : DeclaredInv db) (text : String) (stale : List SyncRun) :
    Fades db (stale.foldl (reclaimDeclaredSync text) db) ∧
    KeepsOpen db (stale.foldl (reclaimDeclaredSync text) db) ∧
    DeclaredInv (stale.foldl (reclaimDeclaredSync text) db) := by
  induction stale generalizing db with
  | nil => exact ⟨.refl db, fun _ _ _ => Iff.rfl, h⟩
  | cons run stale ih =>
    obtain ⟨hf, hopen, hinv⟩ := fades_reclaimDeclaredSync h text run
    obtain ⟨hf', hopen', hinv'⟩ := ih hinv
    exact ⟨hf.trans hf', hopen.trans hf' hopen', hinv'⟩

theorem fades_reclaimDeclaredSyncs (h : DeclaredInv db) {text : String}
    (hok : reclaimDeclaredSyncs text db = .ok db') :
    Fades db db' ∧ KeepsOpen db db' ∧ DeclaredInv db' := by
  obtain ⟨db₁, h₁, hok⟩ := bind_eq_ok.mp hok
  obtain ⟨cutoff, _, hok⟩ := bind_eq_ok.mp hok
  obtain rfl := Except.ok.inj hok
  obtain ⟨hf, hopen, hinv⟩ := fades_pruneDeclaredApps h₁
  obtain ⟨hf', hopen', hinv'⟩ := fades_reclaimAll (hinv h) text _
  exact ⟨hf.trans hf', hopen.trans hf' hopen', hinv'⟩

/-! ## Quarantine -/

/-- The tables without one demand of the lineage. -/
def DeclaredDb.without (db : DeclaredDb) (lost : DeclaredDemand) : DeclaredDb :=
  { db with
    demand := db.demand.filter fun d => !(d.syncRunId == lost.syncRunId && d.key == lost.key)
    observations := db.observations.filter fun o =>
      !(o.syncRunId == lost.syncRunId && o.key == lost.key) }

theorem dropDemand_eq (db : DeclaredDb) (lost : DeclaredDemand) :
    DeclaredScope.dropDemand db lost = (db.without lost).deleteRuns fun r =>
      r.id == lost.syncRunId && r.capability == declaredCapability &&
        !(db.without lost).demand.any fun d => d.syncRunId == r.id := rfl

theorem fades_without (db : DeclaredDb) (lost : DeclaredDemand) : Fades db (db.without lost) where
  last := rfl
  runs r hr := ⟨r, hr, rfl⟩
  running _ h := h
  demand _ hd _ := List.mem_of_mem_filter hd
  current c hc := ⟨c, hc, rfl, rfl, rfl⟩

theorem DeclaredInv.without (h : DeclaredInv db) (lost : DeclaredDemand) :
    DeclaredInv (db.without lost) := by
  have hinv := h.filter (fun d => !(d.syncRunId == lost.syncRunId && d.key == lost.key))
    (fun o => !(o.syncRunId == lost.syncRunId && o.key == lost.key)) fun _ => true
  rwa [List.filter_true] at hinv

/-- Deleting demand that no run under way has open. -/
theorem keepsOpen_without {lost : DeclaredDemand} (h : DeclaredInv db')
    (hsub : ∀ d ∈ db.demand, d ∈ db'.demand) (hrunning : ∀ id, db.running id = true →
      db'.running id = true) (hlost : lost ∈ db'.demand)
    (hclosed : ¬(lost.unresolved = true ∧ db'.running lost.syncRunId = true)) :
    KeepsOpen db (db.without lost) := by
  intro id hid appid
  constructor
  · rintro ⟨d, hd, hopen⟩
    exact ⟨d, List.mem_of_mem_filter hd, hopen⟩
  · rintro ⟨d, hd, hopen⟩
    refine ⟨d, List.mem_filter.mpr ⟨hd, ?_⟩, hopen⟩
    by_cases hsame : d.syncRunId = lost.syncRunId ∧ d.key = lost.key
    · obtain rfl := h.distinct d (hsub d hd) lost hlost hsame.1 (congrArg DeclaredKey.appid hsame.2)
      exact absurd ⟨hopen.2.2, hopen.1 ▸ hrunning id hid⟩ hclosed
    · simpa using not_and_or.mp hsame

/-- The deletion of a list of demands, one after the other. -/
theorem fades_dropAll {start : DeclaredDb} (hstart : DeclaredInv start)
    (lost : List DeclaredDemand) (hlost : ∀ d ∈ lost, d ∈ start.demand) (hf : Fades start db)
    (hsub : ∀ d ∈ db.demand, d ∈ start.demand) (h : DeclaredInv db) :
    Fades start (lost.foldl DeclaredScope.dropDemand db) ∧
    DeclaredInv (lost.foldl DeclaredScope.dropDemand db) ∧
    ((∀ d ∈ lost, ¬(d.unresolved = true ∧ start.running d.syncRunId = true)) →
      KeepsOpen start db → KeepsOpen start (lost.foldl DeclaredScope.dropDemand db)) := by
  induction lost generalizing db with
  | nil => exact ⟨hf, h, fun _ hopen => hopen⟩
  | cons d lost ih =>
    have hmem := hlost d List.mem_cons_self
    have hfade : Fades db (DeclaredScope.dropDemand db d) := by
      rw [dropDemand_eq]
      exact (fades_without db d).trans (fades_deleteRuns _ _)
    have hinv : DeclaredInv (DeclaredScope.dropDemand db d) := by
      rw [dropDemand_eq]
      exact (h.without d).deleteRuns _
    have hsub' : ∀ d' ∈ (DeclaredScope.dropDemand db d).demand, d' ∈ start.demand := by
      intro d' hd'
      exact hsub d' (List.mem_of_mem_filter (List.mem_of_mem_filter hd'))
    obtain ⟨hf', hinv', hopen'⟩ := ih (fun d' hd' => hlost d' (List.mem_cons_of_mem d hd'))
      (hf.trans hfade) hsub' hinv
    refine ⟨hf', hinv', fun hclosed hopen => hopen' (fun d' hd' =>
      hclosed d' (List.mem_cons_of_mem d hd')) ?_⟩
    refine hopen.trans hfade ?_
    rw [dropDemand_eq]
    exact (keepsOpen_without hstart hsub hf.running hmem (hclosed d List.mem_cons_self)).trans
      (fades_deleteRuns _ _) (keepsOpen_deleteRuns _ _)

theorem fades_quarantine (h : DeclaredInv db) (scope : DeclaredScope) :
    Fades db (scope.quarantine db) ∧ DeclaredInv (scope.quarantine db) ∧
    ((∀ d ∈ db.demand, scope.inLineage db d = true →
        ¬(d.unresolved = true ∧ db.running d.syncRunId = true)) →
      KeepsOpen db (scope.quarantine db)) := by
  have hfewer : Fades db { db with current := db.current.filter fun c => !scope.quarantines c } :=
    ⟨rfl, fun r hr => ⟨r, hr, rfl⟩, fun _ h => h, fun _ hd _ => hd,
      fun c hc => ⟨c, List.mem_of_mem_filter hc, rfl, rfl, rfl⟩⟩
  have hinv := h.filter (fun _ => true) (fun _ => true) fun c => !scope.quarantines c
  rw [List.filter_true, List.filter_true] at hinv
  obtain ⟨hf, hinv', hopen⟩ := fades_dropAll h (db.demand.filter (scope.inLineage db))
    (fun d hd => List.mem_of_mem_filter hd) hfewer (fun d hd => hd) hinv
  refine ⟨hf, hinv', fun hclosed => hopen (fun d hd => ?_) fun _ _ _ => Iff.rfl⟩
  obtain ⟨hd, hlineage⟩ := List.mem_filter.mp hd
  exact hclosed d hd hlineage

/-! ## Beginning -/

theorem fades_planDeclaredAppSync (h : DeclaredInv db) {q : DeclaredRequest} {now : Aware}
    {plan : DeclaredPlan} (hok : planDeclaredAppSync q now db = .ok (plan, db')) :
    Fades db db' ∧ DeclaredInv db' ∧
    (∀ F, (DeclaredCall.begin q now : DeclaredCall F).keepsOpen db = true → KeepsOpen db db') := by
  obtain ⟨⟨scope, explicit⟩, hscope, hok⟩ := bind_eq_ok.mp hok
  obtain ⟨db₁, h₁, hok⟩ := bind_eq_ok.mp hok
  obtain ⟨rfl, rfl⟩ := Prod.mk.inj (Except.ok.inj hok)
  obtain ⟨hf, hopen, hinv⟩ := fades_reclaimDeclaredSyncs h h₁
  obtain ⟨hf', hinv', hopen'⟩ := fades_quarantine hinv scope
  refine ⟨hf.trans hf', hinv', fun F hkeeps => hopen.trans hf' (hopen' fun d hd hlineage => ?_)⟩
  rintro ⟨hunresolved, hrunning⟩
  have hscope' : declaredScope q now db = .ok (scope, explicit) := hscope
  have h₁' : reclaimDeclaredSyncs scope.timestamp db = .ok db₁ := h₁
  simp only [DeclaredCall.keepsOpen, hscope', h₁'] at hkeeps
  have hd := List.all_eq_true.mp hkeeps d hd
  simp [hlineage, hunresolved, hrunning] at hd

theorem catalogAppids_ok {values normalized : List Int} (h : catalogAppids values = .ok normalized) :
    normalized.Nodup ∧ ∀ appid, appid ∈ normalized ↔ appid ∈ values := by
  obtain ⟨_, _, h⟩ := bind_eq_ok.mp h
  obtain ⟨_, hnodup, h⟩ := bind_eq_ok.mp h
  obtain rfl := Except.ok.inj h
  have hperm := List.perm_insertionSort (· ≤ ·) values
  exact ⟨hperm.nodup_iff.mpr (require_eq_ok.mp hnodup), fun appid => hperm.mem_iff⟩

/-- The apps of a plan are those of the request, each once. -/
theorem planDeclaredAppSync_demanded {q : DeclaredRequest} {now : Aware} {plan : DeclaredPlan}
    (hok : planDeclaredAppSync q now db = .ok (plan, db')) :
    plan.scope.demanded.Nodup ∧ ∀ appid, appid ∈ plan.scope.demanded ↔ appid ∈ q.demandedAppids := by
  obtain ⟨⟨scope, explicit⟩, hscope, hok⟩ := bind_eq_ok.mp hok
  obtain ⟨_, _, hok⟩ := bind_eq_ok.mp hok
  obtain ⟨rfl, rfl⟩ := Prod.mk.inj (Except.ok.inj hok)
  obtain ⟨demanded, hdemanded, hscope⟩ := bind_eq_ok.mp hscope
  obtain ⟨_, _, hscope⟩ := bind_eq_ok.mp hscope
  obtain ⟨_, _, hscope⟩ := bind_eq_ok.mp hscope
  obtain ⟨_, _, hscope⟩ := bind_eq_ok.mp hscope
  obtain ⟨_, _, hscope⟩ := bind_eq_ok.mp hscope
  obtain ⟨_, _, hscope⟩ := bind_eq_ok.mp hscope
  obtain ⟨_, _, hscope⟩ := bind_eq_ok.mp hscope
  obtain ⟨_, _, hscope⟩ := bind_eq_ok.mp hscope
  obtain ⟨_, _, hscope⟩ := bind_eq_ok.mp hscope
  obtain ⟨_, _, hscope⟩ := bind_eq_ok.mp hscope
  obtain ⟨_, _, hscope⟩ := bind_eq_ok.mp hscope
  obtain ⟨_, _, hscope⟩ := bind_eq_ok.mp hscope
  obtain ⟨_, _, hscope⟩ := bind_eq_ok.mp hscope
  obtain ⟨_, _, hscope⟩ := bind_eq_ok.mp hscope
  obtain ⟨rfl, _⟩ := Prod.mk.inj (Except.ok.inj hscope)
  exact catalogAppids_ok hdemanded

/-- The tables after a plan is inserted. -/
def DeclaredDb.insertPlan (db : DeclaredDb) (q : DeclaredRequest) (plan : DeclaredPlan) :
    DeclaredDb :=
  { db with
    runs := db.runs.insert
      (runningSync "steam_store" declaredCapability none (some q.accountId) plan.scope.timestamp)
    demand := db.demand ++ plan.scope.demanded.zipIdx.map
      (declaredDemandRow q plan db ((plan.candidates db).take q.maxItems.toNat)) }

theorem beginDeclaredAppSync_ok {q : DeclaredRequest} {now : Aware}
    {reply : Nat × List Int × List Int} (hok : beginDeclaredAppSync q now db = .ok (reply, db')) :
    ∃ plan db₁, planDeclaredAppSync q now db = .ok (plan, db₁) ∧ reply.1 = db₁.runs.last + 1 ∧
      db' = db₁.insertPlan q plan := by
  obtain ⟨⟨plan, db₁⟩, hplan, hok⟩ := bind_eq_ok.mp hok
  obtain ⟨rfl, rfl⟩ := Prod.mk.inj (Except.ok.inj hok)
  exact ⟨plan, db₁, hplan, rfl, rfl⟩

section Insert

variable {q : DeclaredRequest} {plan : DeclaredPlan}

/-- A new row is a target of a candidate, or it carries why it is none. -/
theorem declaredDemandRow_running {targeted : List Int} {a : Int} {i : Nat}
    (h : (declaredDemandRow q plan db targeted (a, i)).state = "running") : a ∈ targeted := by
  by_cases hmem : a ∈ targeted
  · exact hmem
  · have hstate : (if a ∈ targeted then "running" else "unevaluated") = "running" := h
    rw [if_neg hmem] at hstate
    simp at hstate

theorem skipCode_cases (scope : DeclaredScope) (db : DeclaredDb) (cooldownUntil : Option String)
    (appid : Int) : scope.skipCode db cooldownUntil appid ∈
      [none, some "ACTIVE_REQUEST", some "FRESH_LAST_GOOD", some "NOT_FOUND_CACHE",
        some "PROVIDER_COOLDOWN"] := by
  unfold DeclaredScope.skipCode
  split
  · simp
  · split
    · simp
    · split
      · simp
      · split <;> simp

/-- What a new row leaves open. -/
theorem declaredDemandRow_unresolved {n : Nat} {a : Int} {i : Nat} :
    (declaredDemandRow q plan db ((plan.candidates db).take n) (a, i)).unresolved = true ↔
      plan.scope.skipCode db plan.cooldownUntil a ≠ some "FRESH_LAST_GOOD" ∧
      plan.scope.skipCode db plan.cooldownUntil a ≠ some "NOT_FOUND_CACHE" := by
  by_cases htarget : a ∈ (plan.candidates db).take n
  · have hnone : plan.scope.skipCode db plan.cooldownUntil a = none := by
      have hcandidate := (List.mem_filter.mp (List.mem_of_mem_take htarget)).2
      simpa using hcandidate
    simp [DeclaredDemand.unresolved, declaredDemandRow, htarget, hnone]
  · have hcases := skipCode_cases plan.scope db plan.cooldownUntil a
    simp only [DeclaredDemand.unresolved, declaredDemandRow, htarget]
    simp only [List.mem_cons, List.not_mem_nil, or_false] at hcases
    rcases hcases with hskip | hskip | hskip | hskip | hskip <;> simp [hskip]

/-- A new target is of an app that no run has a target of. -/
theorem not_running_of_candidate (h : DeclaredInv db) {n : Nat} {a : Int}
    (ha : a ∈ (plan.candidates db).take n) {d : DeclaredDemand} (hd : d ∈ db.demand)
    (hs : d.state = "running") : d.key ≠ plan.scope.key a := by
  intro hkey
  have hactive : plan.scope.active db a = true := by
    refine List.any_eq_true.mpr ⟨d, hd, ?_⟩
    simp [hkey, hs, (h.targeted d hd hs).1, h.running_of_demand hd hs]
  have hcandidate := (List.mem_filter.mp (List.mem_of_mem_take ha)).2
  simp [DeclaredScope.skipCode, hactive] at hcandidate

theorem zipIdx_eq {demanded : List Int} (hnodup : demanded.Nodup) {a : Int} {i j : Nat}
    (hi : (a, i) ∈ demanded.zipIdx) (hj : (a, j) ∈ demanded.zipIdx) : i = j := by
  obtain ⟨_, hvi⟩ := List.getElem?_eq_some_iff.mp (List.mem_zipIdx_iff_getElem?.mp hi)
  obtain ⟨_, hvj⟩ := List.getElem?_eq_some_iff.mp (List.mem_zipIdx_iff_getElem?.mp hj)
  exact hnodup.getElem_inj_iff.mp (hvi.trans hvj.symm)

theorem DeclaredInv.insertPlan (h : DeclaredInv db) (hnodup : plan.scope.demanded.Nodup) :
    DeclaredInv (db.insertPlan q plan) := by
  have hlast : ∀ d ∈ db.demand, d.syncRunId ≤ db.runs.last := by
    intro d hd
    obtain ⟨r, hr, hid⟩ := h.owned d hd
    exact hid ▸ db.runs.bound r hr
  constructor
  · intro d hd
    rcases List.mem_append.mp hd with hd | hd
    · obtain ⟨r, hr, hid⟩ := h.owned d hd
      exact ⟨r, Runs.mem_insert.mpr (Or.inl hr), hid⟩
    · obtain ⟨_, _, rfl⟩ := List.mem_map.mp hd
      exact ⟨_, Runs.mem_insert.mpr (Or.inr rfl), rfl⟩
  · intro d hd d' hd' hid hkey
    rcases List.mem_append.mp hd with hd | hd <;> rcases List.mem_append.mp hd' with hd' | hd'
    · exact h.distinct d hd d' hd' hid hkey
    · obtain ⟨_, _, rfl⟩ := List.mem_map.mp hd'
      have hle := hlast d hd
      have hnew : d.syncRunId = db.runs.last + 1 := hid
      omega
    · obtain ⟨_, _, rfl⟩ := List.mem_map.mp hd
      have hle := hlast d' hd'
      have hnew : db.runs.last + 1 = d'.syncRunId := hid
      omega
    · obtain ⟨⟨a, i⟩, hi, rfl⟩ := List.mem_map.mp hd
      obtain ⟨⟨b, j⟩, hj, rfl⟩ := List.mem_map.mp hd'
      have hab : a = b := hkey
      subst hab
      rw [zipIdx_eq hnodup hi hj]
  · intro d hd hs
    rcases List.mem_append.mp hd with hd | hd
    · exact h.targeted d hd hs
    · obtain ⟨⟨a, i⟩, _, rfl⟩ := List.mem_map.mp hd
      exact ⟨decide_eq_true (declaredDemandRow_running hs), rfl⟩
  · intro d hd hs r hr hid
    rcases List.mem_append.mp hd with hd | hd
    · rcases Runs.mem_insert.mp hr with hr | rfl
      · exact h.underway d hd hs r hr hid
      · rfl
    · rcases Runs.mem_insert.mp hr with hr | rfl
      · obtain ⟨_, _, rfl⟩ := List.mem_map.mp hd
        have hle := db.runs.bound r hr
        have hnew : r.id = db.runs.last + 1 := hid
        omega
      · rfl
  · intro d hd d' hd' hs hs' hkey
    rcases List.mem_append.mp hd with hd | hd <;> rcases List.mem_append.mp hd' with hd' | hd'
    · exact h.exclusive d hd d' hd' hs hs' hkey
    · obtain ⟨⟨a, i⟩, _, rfl⟩ := List.mem_map.mp hd'
      exact absurd hkey (not_running_of_candidate h (declaredDemandRow_running hs') hd hs)
    · obtain ⟨⟨a, i⟩, _, rfl⟩ := List.mem_map.mp hd
      exact absurd hkey.symm (not_running_of_candidate h (declaredDemandRow_running hs) hd' hs')
    · obtain ⟨⟨a, i⟩, hi, rfl⟩ := List.mem_map.mp hd
      obtain ⟨⟨b, j⟩, hj, rfl⟩ := List.mem_map.mp hd'
      have hab : a = b := congrArg DeclaredKey.appid hkey
      subst hab
      rw [zipIdx_eq hnodup hi hj]
  · exact h.single
  · exact h.provider

end Insert

/-! ## Recording -/

/-- The demand that a result leaves. -/
def declaredAnswered (id : Nat) (appid : Int) (state : String) (code : Option String)
    (text : String) (d : DeclaredDemand) : DeclaredDemand :=
  if d.syncRunId == id && d.key.appid == appid then
    { d with evaluated := true, state, errorCode := code, observedAt := some text }
  else d

/-- A result that was recorded: its target, and the tables after it. -/
structure RecordedDeclared {F : Type} (validate : DeclaredValidator F) (id : Nat)
    (q : DeclaredResult F) (db db' : DeclaredDb) (d : DeclaredDemand) (text : String) : Prop where
  mem : d ∈ db.demand
  run : d.syncRunId = id
  app : d.key.appid = q.appid
  running : d.state = "running"
  time : timestamp q.observedAt = .ok text
  state : q.state = "ready" ∨ q.state = "not_found" ∨ q.state = "failed"
  error : q.state ≠ "failed" → q.errorCode = none
  runs : db'.runs = db.runs
  demand : db'.demand = db.demand.map (declaredAnswered id q.appid q.state
    (storedDeclaredError db d.key q.state q.errorCode) text)
  current : q.state ≠ "ready" ∧ db'.current = db.current ∨
    ∃ payload facts, q.state = "ready" ∧ q.facts = some payload ∧
      validate payload d.key.appid d.key.country d.key.language = .ok facts ∧
      facts.provider = "steam_store" ∧
      (db'.current = db.current ∨
        db'.current = db.current.filter (fun c => !(c.key == d.key && c.facts.provider == "steam_store"))
          ++ [⟨d.key, facts, text, some id⟩])

theorem declaredTarget_eq_some {id accountId : Nat} {appid : Int} {d : DeclaredDemand}
    {startedAt : String} (h : declaredTarget db id accountId appid = some (d, startedAt)) :
    d ∈ db.demand ∧ d.syncRunId = id ∧ d.key.appid = appid := by
  unfold declaredTarget at h
  split at h
  · rename_i d₀ run hfind _
    obtain ⟨rfl, rfl⟩ := Prod.mk.inj (Option.some.inj h)
    have hkeys := List.find?_some hfind
    simp only [Bool.and_eq_true, beq_iff_eq] at hkeys
    exact ⟨List.mem_of_find?_eq_some hfind, hkeys.1.1.1, hkeys.1.2⟩
  · simp at h

theorem recordDeclaredAppResult_ok {F : Type} {validate : DeclaredValidator F} {id : Nat}
    {q : DeclaredResult F} (hok : recordDeclaredAppResult validate id q db = .ok db') :
    ∃ d text, RecordedDeclared validate id q db db' d text := by
  obtain ⟨_, hvalid, hok⟩ := bind_eq_ok.mp hok
  obtain ⟨_, _, hok⟩ := bind_eq_ok.mp hok
  obtain ⟨_, herror, hok⟩ := bind_eq_ok.mp hok
  obtain ⟨text, htime, hok⟩ := bind_eq_ok.mp hok
  obtain ⟨hstate, hfacts⟩ := require_eq_ok.mp hvalid
  have herror := require_eq_ok.mp herror
  cases htarget : declaredTarget db id q.accountId q.appid with
  | none =>
    simp only [htarget] at hok
    exact absurd hok (by simp)
  | some target =>
    obtain ⟨d, startedAt⟩ := target
    obtain ⟨hmem, hid, happ⟩ := declaredTarget_eq_some htarget
    simp only [htarget] at hok
    obtain ⟨_, hrunning, hok⟩ := bind_eq_ok.mp hok
    have hrunning := require_eq_ok.mp hrunning
    obtain ⟨db₁, h₁, hok⟩ := bind_eq_ok.mp hok
    obtain ⟨limits, _, hok⟩ := bind_eq_ok.mp hok
    obtain rfl := Except.ok.inj hok
    -- only a ready result has facts, and they leave the demand alone
    have hstored : db₁.runs = db.runs ∧ db₁.demand = db.demand ∧
        storedDeclaredError db₁ d.key q.state q.errorCode
          = storedDeclaredError db d.key q.state q.errorCode ∧
        (q.state ≠ "ready" ∧ db₁.current = db.current ∨ ∃ payload facts, q.state = "ready" ∧
          q.facts = some payload ∧
          validate payload d.key.appid d.key.country d.key.language = .ok facts ∧
          facts.provider = "steam_store" ∧ (db₁.current = db.current ∨
            db₁.current = db.current.filter
              (fun c => !(c.key == d.key && c.facts.provider == "steam_store"))
                ++ [⟨d.key, facts, text, some id⟩])) := by
      unfold storeDeclaredFacts at h₁
      split at h₁
      · rename_i hnone
        obtain rfl := Except.ok.inj h₁
        refine ⟨rfl, rfl, rfl, Or.inl ⟨fun hs => ?_, rfl⟩⟩
        have hsome := hfacts.mp hs
        simp [hnone] at hsome
      · rename_i payload hsome
        have hready := hfacts.mpr (by simp [hsome])
        obtain ⟨facts, hvalidated, h₁⟩ := bind_eq_ok.mp h₁
        obtain ⟨_, hchecked, h₁⟩ := bind_eq_ok.mp h₁
        obtain rfl := Except.ok.inj h₁
        have hchecked := (require_eq_ok.mp hchecked).1
        simp only [declaredFactsChecked, Bool.and_eq_true, beq_iff_eq] at hchecked
        refine ⟨rfl, rfl, ?_, Or.inr ⟨payload, facts, hready, hsome, hvalidated,
          hchecked.1.1.2, ?_⟩⟩
        · simp [storedDeclaredError, hready]
        · unfold recordDeclaredFacts
          dsimp only
          split
          · exact Or.inr rfl
          · exact Or.inl rfl
    obtain ⟨hruns, hdemand, hcode, hcurrent⟩ := hstored
    refine ⟨d, text, hmem, hid, happ, hrunning, htime, hstate,
      fun hs => Option.isNone_iff_eq_none.mp (herror hs), hruns, ?_, hcurrent⟩
    show db₁.demand.map _ = _
    rw [hdemand, hcode]
    rfl

section Recorded

variable {F : Type} {validate : DeclaredValidator F} {id : Nat} {q : DeclaredResult F}
  {d : DeclaredDemand} {text : String}

theorem declaredAnswered_self (hrec : RecordedDeclared validate id q db db' d text)
    (code : Option String) : declaredAnswered id q.appid q.state code text d =
      { d with evaluated := true, state := q.state, errorCode := code, observedAt := some text } := by
  unfold declaredAnswered
  rw [if_pos (by simp [hrec.run, hrec.app])]

theorem declaredAnswered_of_ne (hrec : RecordedDeclared validate id q db db' d text)
    (h : DeclaredInv db) (code : Option String) {d' : DeclaredDemand} (hd' : d' ∈ db.demand)
    (hne : d' ≠ d) : declaredAnswered id q.appid q.state code text d' = d' := by
  refine if_neg fun hcond => hne ?_
  simp only [Bool.and_eq_true, beq_iff_eq] at hcond
  exact h.distinct d' hd' d hrec.mem (hcond.1.trans hrec.run.symm) (hcond.2.trans hrec.app.symm)

theorem RecordedDeclared.state_ne (hrec : RecordedDeclared validate id q db db' d text) :
    q.state ≠ "running" := by
  intro hs
  rcases hrec.state with h | h | h <;> rw [hs] at h <;> simp at h

theorem DeclaredInv.record (h : DeclaredInv db) (hrec : RecordedDeclared validate id q db db' d text) :
    DeclaredInv db' := by
  have hmap := h.mapDemand (f := declaredAnswered id q.appid q.state
    (storedDeclaredError db d.key q.state q.errorCode) text)
    (fun d' _ => by unfold declaredAnswered; split <;> exact ⟨rfl, rfl⟩)
    fun d' hd' hs => by
      by_cases heq : d' = d
      · rw [heq, declaredAnswered_self hrec] at hs
        exact absurd hs hrec.state_ne
      · exact declaredAnswered_of_ne hrec h _ hd' heq
  have hcurrent : (∀ c ∈ db'.current, ∀ c' ∈ db'.current, c.key = c'.key → c = c') ∧
      ∀ c ∈ db'.current, c.facts.provider = "steam_store" := by
    rcases hrec.current with ⟨_, hsame⟩ | ⟨payload, facts, _, _, _, hprovider, hsame | hnew⟩
    · exact hsame ▸ ⟨h.single, h.provider⟩
    · exact hsame ▸ ⟨h.single, h.provider⟩
    · have hold : ∀ c ∈ db.current.filter fun c =>
          !(c.key == d.key && c.facts.provider == "steam_store"), c.key ≠ d.key := by
        intro c hc hkey
        obtain ⟨hc, hother⟩ := List.mem_filter.mp hc
        simp [hkey, h.provider c hc] at hother
      rw [hnew]
      constructor
      · intro c hc c' hc' hkey
        rcases List.mem_append.mp hc with hc | hc <;> rcases List.mem_append.mp hc' with hc' | hc'
        · exact h.single c (List.mem_of_mem_filter hc) c' (List.mem_of_mem_filter hc') hkey
        · rw [List.mem_singleton.mp hc'] at hkey
          exact absurd hkey (hold c hc)
        · rw [List.mem_singleton.mp hc] at hkey
          exact absurd hkey.symm (hold c' hc')
        · rw [List.mem_singleton.mp hc, List.mem_singleton.mp hc']
      · intro c hc
        rcases List.mem_append.mp hc with hc | hc
        · exact h.provider c (List.mem_of_mem_filter hc)
        · rw [List.mem_singleton.mp hc]
          exact hprovider
  refine ⟨?_, ?_, ?_, ?_, ?_, hcurrent.1, hcurrent.2⟩
  · rw [hrec.demand, hrec.runs]
    exact hmap.owned
  · rw [hrec.demand]
    exact hmap.distinct
  · rw [hrec.demand]
    exact hmap.targeted
  · rw [hrec.demand, hrec.runs]
    exact hmap.underway
  · rw [hrec.demand]
    exact hmap.exclusive

end Recorded

/-! ## Finishing -/

theorem declaredOutcome_complete {demand : List DeclaredDemand} :
    (declaredOutcome demand).1 = .complete ↔ ∀ d ∈ demand, d.unresolved = false := by
  unfold declaredOutcome
  dsimp only
  by_cases hany : demand.any DeclaredDemand.unresolved = true
  · rw [if_neg (by simp [hany])]
    refine iff_of_false ?_ ?_
    · split <;> [skip; (split <;> [skip; (split <;> [skip; split])])] <;> split <;> simp
    · obtain ⟨d, hd, hopen⟩ := List.any_eq_true.mp hany
      intro hall
      rw [hall d hd] at hopen
      simp at hopen
  · rw [if_pos (by simpa using hany)]
    simpa using hany

theorem declaredOutcome_ne_running (demand : List DeclaredDemand) :
    (declaredOutcome demand).1 ≠ .running := by
  unfold declaredOutcome
  dsimp only
  split
  · simp
  · split <;> [skip; (split <;> [skip; (split <;> [skip; split])])] <;> split <;> simp

/-- The end of a run, and its status. -/
theorem finishDeclaredAppSync_ok (h : DeclaredInv db) {id : Nat} {completedAt : Aware}
    {run : SyncRun} (hok : finishDeclaredAppSync id completedAt db = .ok (run, db')) :
    Fades db db' ∧ KeepsOpen db db' ∧ DeclaredInv db' ∧ db.running id = true ∧
    (run.status = .complete ↔ ∀ appid, ¬∃ d ∈ db.demand, d.Open id appid) := by
  obtain ⟨text, _, hok⟩ := bind_eq_ok.mp hok
  cases hfind : (db.runs.get? id).filter fun r =>
      r.capability == declaredCapability && r.status == .running with
  | none =>
    simp only [hfind] at hok
    exact absurd hok (by simp)
  | some r =>
    simp only [hfind] at hok
    obtain ⟨hget, hactive⟩ := Option.filter_eq_some_iff.mp hfind
    obtain ⟨hr, rfl⟩ := Runs.get?_eq_some.mp hget
    simp only [Bool.and_eq_true, beq_iff_eq] at hactive
    obtain ⟨db₁, h₁, hok⟩ := bind_eq_ok.mp hok
    obtain ⟨rfl, rfl⟩ := Prod.mk.inj (Except.ok.inj hok)
    have hrunning := running_iff.mpr ⟨r, hr, rfl, hactive.2⟩
    obtain ⟨hf, hopen, hinv⟩ := fades_end h r.id text "SYNC_INTERRUPTED"
      (f := SyncRun.finishDeclared db (interruptDeclared r.id text "SYNC_INTERRUPTED" db.demand) text)
      fun r' hs => absurd hs (declaredOutcome_ne_running _)
    obtain ⟨hf', hopen', hinv'⟩ := fades_pruneDeclaredApps h₁
    refine ⟨hf.trans hf', hopen.trans hf' hopen', hinv' hinv, hrunning, ?_⟩
    have hstatus : (r.finishDeclared db (interruptDeclared r.id text "SYNC_INTERRUPTED" db.demand)
        text).status = .complete ↔ ∀ d ∈ (interruptDeclared r.id text "SYNC_INTERRUPTED"
          db.demand).filter fun d => d.syncRunId == r.id, d.unresolved = false :=
      declaredOutcome_complete
    rw [hstatus]
    constructor
    · intro hall appid hsome
      obtain ⟨d, hd, hid, _, hunresolved⟩ := (keepsOpen_interrupt h r.id text "SYNC_INTERRUPTED"
        r.id hrunning appid).mpr hsome
      rw [hall d (List.mem_filter.mpr ⟨hd, by simp [hid]⟩)] at hunresolved
      simp at hunresolved
    · intro hnone d hd
      obtain ⟨hd, hid⟩ := List.mem_filter.mp hd
      cases hunresolved : d.unresolved with
      | false => rfl
      | true =>
        have hsome := (keepsOpen_interrupt h r.id text "SYNC_INTERRUPTED" r.id hrunning
          d.key.appid).mp ⟨d, hd, by simpa using hid, rfl, hunresolved⟩
        exact absurd hsome (hnone d.key.appid)

end Tables

/-! ## The tables and the calls so far -/

/-- What the tables say about the calls so far. -/
structure Chronicle {F : Type} (validate : DeclaredValidator F) (l : List (DeclaredServed F))
    (db : DeclaredDb) : Prop where
  /-- No run has an id that is not given out. -/
  known : ∀ e ∈ l, ∀ id, (∃ q, e.Begins id q) ∨ (∃ q, e.Records id q) → id ≤ db.runs.last
  begun : ∀ r ∈ db.runs.rows, ∃ e ∈ l, ∃ q, e.Begins r.id q
  /-- Runs start in the order of their ids. -/
  ordered : ∀ e ∈ l, ∀ e' ∈ l, ∀ id id' q q', e.Begins id q → e'.Begins id' q' → id < id' →
    q.startedAt.position ≤ q'.startedAt.position
  recorded : ∀ e ∈ l, ∀ id q, e.Records id q → ∃ e' ∈ l, ∃ q', e'.Begins id q'
  current : ∀ c ∈ db.current, ∃ e ∈ l, ∃ id, e.Readies validate id c.key c.facts c.observedAt
  /-- A target that is running is newer than every ready result of its app. -/
  newer : ∀ d ∈ db.demand, d.state = "running" → ∀ e ∈ l, ∀ id facts observedAt,
    e.Readies validate id d.key facts observedAt → id < d.syncRunId

/-- The demand that a run under way has open is what no call settled yet. -/
def Accounted {F : Type} (l : List (DeclaredServed F)) (db : DeclaredDb) : Prop :=
  ∀ id, db.running id = true → ∀ e ∈ l, ∀ q, e.Begins id q → ∀ appid,
    (∃ d ∈ db.demand, d.Open id appid) ↔
      appid ∈ q.demandedAppids ∧ ¬∃ e ∈ l, e.Resolves id appid

section Log

variable {F : Type} {validate : DeclaredValidator F} {l : List (DeclaredServed F)}
  {db db' : DeclaredDb} {e : DeclaredServed F}

/-- A call that begins and records nothing. -/
def DeclaredServed.Quiet (e : DeclaredServed F) : Prop :=
  (∀ id q, ¬e.Begins id q) ∧ ∀ id q, ¬e.Records id q

theorem DeclaredServed.Quiet.not_readies (hq : e.Quiet) {id : Nat} {key : DeclaredKey}
    {facts : DeclaredFacts} {observedAt : String} : ¬e.Readies validate id key facts observedAt := by
  rintro ⟨q, _, hrec, _⟩
  exact hq.2 id q hrec

theorem DeclaredServed.Quiet.not_resolves (hq : e.Quiet) {id : Nat} {appid : Int} :
    ¬e.Resolves id appid := by
  rintro (⟨h, _, _⟩ | ⟨h, _, _, _, _, _, _⟩ | ⟨q, now, candidates, targeted, _, _, hcall, hok, _⟩ |
    ⟨q, now, candidates, targeted, _, _, hcall, hok, _⟩)
  · exact hq.2 _ _ h
  · exact hq.2 _ _ h
  · exact hq.1 id q ⟨now, candidates, targeted, hcall, hok⟩
  · exact hq.1 id q ⟨now, candidates, targeted, hcall, hok⟩

/-- Tables that fade, without a new call on record. -/
theorem Chronicle.fade (h : Chronicle validate l db) (hf : Fades db db') :
    Chronicle validate l db' where
  known e he id hid := hf.last ▸ h.known e he id hid
  begun r hr := by
    obtain ⟨r', hr', hid⟩ := hf.runs r hr
    exact hid ▸ h.begun r' hr'
  ordered := h.ordered
  recorded := h.recorded
  current c' hc' := by
    obtain ⟨c, hc, hkey, hfacts, hobserved⟩ := hf.current c' hc'
    rw [hkey, hfacts, hobserved]
    exact h.current c hc
  newer d hd hs := h.newer d (hf.demand d hd hs) hs

theorem Chronicle.quiet (h : Chronicle validate l db) (hq : e.Quiet) :
    Chronicle validate (e :: l) db where
  known e' he' id hid := by
    rcases List.mem_cons.mp he' with rfl | he'
    · rcases hid with ⟨q, hid⟩ | ⟨q, hid⟩
      · exact absurd hid (hq.1 id q)
      · exact absurd hid (hq.2 id q)
    · exact h.known e' he' id hid
  begun r hr := by
    obtain ⟨e', he', hrest⟩ := h.begun r hr
    exact ⟨e', List.mem_cons_of_mem e he', hrest⟩
  ordered e₁ he₁ e₂ he₂ id id' q q' hbegins hbegins' hlt := by
    rcases List.mem_cons.mp he₁ with rfl | he₁
    · exact absurd hbegins (hq.1 id q)
    · rcases List.mem_cons.mp he₂ with rfl | he₂
      · exact absurd hbegins' (hq.1 id' q')
      · exact h.ordered e₁ he₁ e₂ he₂ id id' q q' hbegins hbegins' hlt
  recorded e' he' id q hrec := by
    rcases List.mem_cons.mp he' with rfl | he'
    · exact absurd hrec (hq.2 id q)
    · obtain ⟨e₀, he₀, hrest⟩ := h.recorded e' he' id q hrec
      exact ⟨e₀, List.mem_cons_of_mem e he₀, hrest⟩
  current c hc := by
    obtain ⟨e', he', hrest⟩ := h.current c hc
    exact ⟨e', List.mem_cons_of_mem e he', hrest⟩
  newer d hd hs e' he' id facts observedAt hready := by
    rcases List.mem_cons.mp he' with rfl | he'
    · exact absurd hready hq.not_readies
    · exact h.newer d hd hs e' he' id facts observedAt hready

theorem Accounted.fade (h : Accounted l db) (hf : Fades db db') (hopen : KeepsOpen db db') :
    Accounted l db' := by
  intro id hid e he q hbegins appid
  exact (hopen id hid appid).trans (h id (hf.running id hid) e he q hbegins appid)

theorem Accounted.quiet (h : Accounted l db) (hq : e.Quiet) : Accounted (e :: l) db := by
  intro id hid e' he' q hbegins appid
  rcases List.mem_cons.mp he' with rfl | he'
  · exact absurd hbegins (hq.1 id q)
  · refine (h id hid e' he' q hbegins appid).trans (and_congr_right fun _ => not_congr ?_)
    simp [hq.not_resolves]

/-- A call that settles an app for a run began the run, or recorded in it. -/
theorem DeclaredServed.Resolves.concerns {id : Nat} {appid : Int} (h : e.Resolves id appid) :
    (∃ q, e.Begins id q) ∨ ∃ q, e.Records id q := by
  rcases h with ⟨h, _, _⟩ | ⟨h, _, _, _, _, _, _⟩ | ⟨q, now, candidates, targeted, _, _, hcall, hok, _⟩ |
    ⟨q, now, candidates, targeted, _, _, hcall, hok, _⟩
  · exact Or.inr ⟨_, h⟩
  · exact Or.inr ⟨_, h⟩
  · exact Or.inl ⟨q, now, candidates, targeted, hcall, hok⟩
  · exact Or.inl ⟨q, now, candidates, targeted, hcall, hok⟩

/-! ## A run that begins -/

section Begin

variable {q : DeclaredRequest} {now : Aware} {plan : DeclaredPlan} {candidates targeted : List Int}

/-- The call that began the next run. -/
structure Began (e : DeclaredServed F) (q : DeclaredRequest) (now : Aware) (plan : DeclaredPlan)
    (db : DeclaredDb) : Prop where
  call : e.call = .begin q now
  outcome : ∃ candidates targeted, e.outcome = .ok (.begun (db.runs.last + 1) candidates targeted)
  planned : planDeclaredAppSync q now e.before = .ok (plan, db)

theorem Began.begins_iff (hb : Began e q now plan db) {id : Nat} {q' : DeclaredRequest} :
    e.Begins id q' ↔ id = db.runs.last + 1 ∧ q' = q := by
  obtain ⟨candidates, targeted, houtcome⟩ := hb.outcome
  constructor
  · rintro ⟨now', candidates', targeted', hcall, hok⟩
    rw [hb.call] at hcall
    rw [houtcome] at hok
    obtain ⟨rfl, rfl⟩ := DeclaredCall.begin.inj hcall
    obtain ⟨rfl, _, _⟩ := DeclaredReply.begun.inj (Except.ok.inj hok)
    exact ⟨rfl, rfl⟩
  · rintro ⟨rfl, rfl⟩
    exact ⟨now, candidates, targeted, hb.call, houtcome⟩

theorem Began.not_records (hb : Began e q now plan db) {id : Nat} {q' : DeclaredResult F} :
    ¬e.Records id q' := by
  rintro ⟨hcall, _⟩
  rw [hb.call] at hcall
  simp at hcall

theorem Began.skips_iff (hb : Began e q now plan db) {id : Nat} {appid : Int} {code : String} :
    e.Skips id appid code ↔ id = db.runs.last + 1 ∧ appid ∈ plan.scope.demanded ∧
      plan.scope.skipCode db plan.cooldownUntil appid = some code := by
  obtain ⟨candidates, targeted, houtcome⟩ := hb.outcome
  constructor
  · rintro ⟨q', now', candidates', targeted', plan', db', hcall, hok, hplan, hmem, hcode⟩
    rw [hb.call] at hcall
    rw [houtcome] at hok
    obtain ⟨rfl, rfl⟩ := DeclaredCall.begin.inj hcall
    obtain ⟨rfl, _, _⟩ := DeclaredReply.begun.inj (Except.ok.inj hok)
    rw [hb.planned] at hplan
    obtain ⟨rfl, rfl⟩ := Prod.mk.inj (Except.ok.inj hplan)
    exact ⟨rfl, hmem, hcode⟩
  · rintro ⟨rfl, hmem, hcode⟩
    exact ⟨q, now, candidates, targeted, plan, db, hb.call, houtcome, hb.planned, hmem, hcode⟩

theorem Began.resolves_iff (hb : Began e q now plan db) {id : Nat} {appid : Int} :
    e.Resolves id appid ↔ id = db.runs.last + 1 ∧ appid ∈ plan.scope.demanded ∧
      (plan.scope.skipCode db plan.cooldownUntil appid = some "FRESH_LAST_GOOD" ∨
        plan.scope.skipCode db plan.cooldownUntil appid = some "NOT_FOUND_CACHE") := by
  constructor
  · rintro (⟨h, _, _⟩ | ⟨h, _, _, _, _, _, _⟩ | h | h)
    · exact absurd h hb.not_records
    · exact absurd h hb.not_records
    · obtain ⟨hid, hmem, hcode⟩ := hb.skips_iff.mp h
      exact ⟨hid, hmem, Or.inl hcode⟩
    · obtain ⟨hid, hmem, hcode⟩ := hb.skips_iff.mp h
      exact ⟨hid, hmem, Or.inr hcode⟩
  · rintro ⟨hid, hmem, hcode | hcode⟩
    · exact .fresh (hb.skips_iff.mpr ⟨hid, hmem, hcode⟩)
    · exact .negative (hb.skips_iff.mpr ⟨hid, hmem, hcode⟩)

theorem Chronicle.begin (h : Chronicle validate l db) (hb : Began e q now plan db)
    (hbefore : ∀ e' ∈ l, e'.call.earliest ≤ q.startedAt.position) :
    Chronicle validate (e :: l) (db.insertPlan q plan) := by
  constructor
  · intro e' he' id hid
    show id ≤ db.runs.last + 1
    rcases List.mem_cons.mp he' with rfl | he'
    · rcases hid with ⟨q', hid⟩ | ⟨q', hid⟩
      · exact (hb.begins_iff.mp hid).1.le
      · exact absurd hid hb.not_records
    · exact Nat.le_succ_of_le (h.known e' he' id hid)
  · intro r hr
    rcases Runs.mem_insert.mp hr with hr | rfl
    · obtain ⟨e', he', hrest⟩ := h.begun r hr
      exact ⟨e', List.mem_cons_of_mem e he', hrest⟩
    · exact ⟨e, List.mem_cons_self, q, hb.begins_iff.mpr ⟨rfl, rfl⟩⟩
  · intro e₁ he₁ e₂ he₂ id id' q₁ q₂ hbegins hbegins' hlt
    rcases List.mem_cons.mp he₂ with rfl | he₂
    · obtain ⟨rfl, rfl⟩ := hb.begins_iff.mp hbegins'
      rcases List.mem_cons.mp he₁ with rfl | he₁
      · obtain ⟨rfl, rfl⟩ := hb.begins_iff.mp hbegins
        exact le_refl _
      · obtain ⟨now₁, _, _, hcall, _⟩ := hbegins
        have hle := hbefore e₁ he₁
        rwa [hcall] at hle
    · have hle := h.known e₂ he₂ id' (Or.inl ⟨q₂, hbegins'⟩)
      rcases List.mem_cons.mp he₁ with rfl | he₁
      · obtain ⟨rfl, rfl⟩ := hb.begins_iff.mp hbegins
        omega
      · exact h.ordered e₁ he₁ e₂ he₂ id id' q₁ q₂ hbegins hbegins' hlt
  · intro e' he' id q' hrec
    rcases List.mem_cons.mp he' with rfl | he'
    · exact absurd hrec hb.not_records
    · obtain ⟨e₀, he₀, hrest⟩ := h.recorded e' he' id q' hrec
      exact ⟨e₀, List.mem_cons_of_mem e he₀, hrest⟩
  · intro c hc
    obtain ⟨e', he', hrest⟩ := h.current c hc
    exact ⟨e', List.mem_cons_of_mem e he', hrest⟩
  · intro d hd hs e' he' id facts observedAt hready
    rcases List.mem_cons.mp he' with rfl | he'
    · obtain ⟨q', _, hrec, _⟩ := hready
      exact absurd hrec hb.not_records
    · rcases List.mem_append.mp hd with hd | hd
      · exact h.newer d hd hs e' he' id facts observedAt hready
      · obtain ⟨q', _, hrec, _⟩ := hready
        have hle := h.known e' he' id (Or.inr ⟨q', hrec⟩)
        obtain ⟨_, _, rfl⟩ := List.mem_map.mp hd
        show id < db.runs.last + 1
        omega

theorem Accounted.begin (h : Accounted l db) (hc : Chronicle validate l db) (hinv : DeclaredInv db)
    (hb : Began e q now plan db) (hdemanded : ∀ appid, appid ∈ plan.scope.demanded ↔
      appid ∈ q.demandedAppids) : Accounted (e :: l) (db.insertPlan q plan) := by
  have hlast : ∀ d ∈ db.demand, d.syncRunId ≤ db.runs.last := by
    intro d hd
    obtain ⟨r, hr, hid⟩ := hinv.owned d hd
    exact hid ▸ db.runs.bound r hr
  intro id hid e' he' q' hbegins appid
  rcases List.mem_cons.mp he' with rfl | he'
  · obtain ⟨rfl, rfl⟩ := hb.begins_iff.mp hbegins
    have hfresh : (∃ e₀ ∈ e' :: l, e₀.Resolves (db.runs.last + 1) appid) ↔
        e'.Resolves (db.runs.last + 1) appid := by
      rw [List.exists_mem_cons_iff]
      refine or_iff_left ?_
      rintro ⟨e₀, he₀, hresolves⟩
      have hle := hc.known e₀ he₀ _ hresolves.concerns
      omega
    rw [hfresh, hb.resolves_iff]
    constructor
    · rintro ⟨d, hd, hopen⟩
      rcases List.mem_append.mp hd with hd | hd
      · have hle := hlast d hd
        have hnew := hopen.1
        omega
      · obtain ⟨⟨a, i⟩, hi, rfl⟩ := List.mem_map.mp hd
        have happ : a = appid := hopen.2.1
        subst happ
        have hskip := declaredDemandRow_unresolved.mp hopen.2.2
        refine ⟨(hdemanded a).mp (List.fst_mem_of_mem_zipIdx hi), ?_⟩
        rintro ⟨_, _, hcode | hcode⟩
        · exact hskip.1 hcode
        · exact hskip.2 hcode
    · rintro ⟨hmem, hopen⟩
      have hmem := (hdemanded appid).mpr hmem
      obtain ⟨i, hi⟩ := List.mem_iff_getElem?.mp hmem
      refine ⟨_, List.mem_append_right _ (List.mem_map_of_mem
        (List.mk_mem_zipIdx_iff_getElem?.mpr hi)), rfl, rfl, declaredDemandRow_unresolved.mpr ?_⟩
      exact ⟨fun hcode => hopen ⟨rfl, hmem, Or.inl hcode⟩,
        fun hcode => hopen ⟨rfl, hmem, Or.inr hcode⟩⟩
  · have hle := hc.known e' he' id (Or.inl ⟨q', hbegins⟩)
    have hold : db.running id = true := by
      obtain ⟨r, hr, hrid, hs⟩ := running_iff.mp hid
      rcases Runs.mem_insert.mp hr with hr | rfl
      · exact running_iff.mpr ⟨r, hr, hrid, hs⟩
      · have hnew : db.runs.last + 1 = id := hrid
        omega
    have hsame : (∃ e₀ ∈ e :: l, e₀.Resolves id appid) ↔ ∃ e₀ ∈ l, e₀.Resolves id appid := by
      rw [List.exists_mem_cons_iff]
      refine or_iff_right fun hresolves => ?_
      have hnew := (hb.resolves_iff.mp hresolves).1
      omega
    rw [hsame, ← h id hold e' he' q' hbegins appid]
    constructor
    · rintro ⟨d, hd, hopen⟩
      rcases List.mem_append.mp hd with hd | hd
      · exact ⟨d, hd, hopen⟩
      · obtain ⟨_, _, rfl⟩ := List.mem_map.mp hd
        have hnew : db.runs.last + 1 = id := hopen.1
        omega
    · rintro ⟨d, hd, hopen⟩
      exact ⟨d, List.mem_append_left _ hd, hopen⟩

end Begin

/-! ## A result that is recorded -/

section Record

variable {id : Nat} {q : DeclaredResult F} {d : DeclaredDemand} {text : String}

theorem DeclaredServed.Records.eq {id' : Nat} {q' : DeclaredResult F} (h : e.Records id q)
    (h' : e.Records id' q') : id' = id ∧ q' = q := by
  have hcall := h.1.symm.trans h'.1
  obtain ⟨rfl, rfl⟩ := DeclaredCall.record.inj hcall
  exact ⟨rfl, rfl⟩

theorem DeclaredServed.Records.not_begins {id' : Nat} {q' : DeclaredRequest} (h : e.Records id q) :
    ¬e.Begins id' q' := by
  rintro ⟨now, _, _, hcall, _⟩
  rw [h.1] at hcall
  simp at hcall

theorem Chronicle.record (h : Chronicle validate l e.before) (hinv : DeclaredInv e.before)
    (he : e.Records id q) (hrec : RecordedDeclared validate id q e.before db' d text) :
    Chronicle validate (e :: l) db' := by
  obtain ⟨r, hr, hrid⟩ := hinv.owned d hrec.mem
  rw [hrec.run] at hrid
  constructor
  · intro e' he' id' hid
    rw [hrec.runs]
    rcases List.mem_cons.mp he' with rfl | he'
    · rcases hid with ⟨q', hid⟩ | ⟨q', hid⟩
      · exact absurd hid he.not_begins
      · rw [(he.eq hid).1, ← hrid]
        exact e'.before.runs.bound r hr
    · exact h.known e' he' id' hid
  · rw [hrec.runs]
    intro r' hr'
    obtain ⟨e', he', hrest⟩ := h.begun r' hr'
    exact ⟨e', List.mem_cons_of_mem e he', hrest⟩
  · intro e₁ he₁ e₂ he₂ id₁ id₂ q₁ q₂ hbegins hbegins' hlt
    rcases List.mem_cons.mp he₁ with rfl | he₁
    · exact absurd hbegins he.not_begins
    · rcases List.mem_cons.mp he₂ with rfl | he₂
      · exact absurd hbegins' he.not_begins
      · exact h.ordered e₁ he₁ e₂ he₂ id₁ id₂ q₁ q₂ hbegins hbegins' hlt
  · intro e' he' id' q' hrecords
    rcases List.mem_cons.mp he' with rfl | he'
    · obtain ⟨e₀, he₀, hrest⟩ := h.begun r hr
      rw [(he.eq hrecords).1, ← hrid]
      exact ⟨e₀, List.mem_cons_of_mem e' he₀, hrest⟩
    · obtain ⟨e₀, he₀, hrest⟩ := h.recorded e' he' id' q' hrecords
      exact ⟨e₀, List.mem_cons_of_mem e he₀, hrest⟩
  · have hold : ∀ c ∈ e.before.current, ∃ e' ∈ e :: l, ∃ id,
        e'.Readies validate id c.key c.facts c.observedAt := by
      intro c hc
      obtain ⟨e', he', hrest⟩ := h.current c hc
      exact ⟨e', List.mem_cons_of_mem e he', hrest⟩
    rcases hrec.current with ⟨_, hsame⟩ | ⟨payload, facts, hs, hfacts, hvalidated, _, hsame | hnew⟩
    · rwa [hsame]
    · rwa [hsame]
    · rw [hnew]
      intro c hc
      rcases List.mem_append.mp hc with hc | hc
      · exact hold c (List.mem_of_mem_filter hc)
      · rw [List.mem_singleton.mp hc]
        exact ⟨e, List.mem_cons_self, id, q, payload, he, hs, hfacts, hrec.app.symm,
          ⟨d, hrec.mem, hrec.run, rfl⟩, hvalidated, hrec.time⟩
  · rw [hrec.demand]
    intro d' hd' hs e' he' id' facts observedAt hready
    obtain ⟨d₀, hd₀, rfl⟩ := List.mem_map.mp hd'
    by_cases heq : d₀ = d
    · rw [heq, declaredAnswered_self hrec] at hs
      exact absurd hs hrec.state_ne
    · rw [declaredAnswered_of_ne hrec hinv _ hd₀ heq] at hs hready ⊢
      rcases List.mem_cons.mp he' with rfl | he'
      · obtain ⟨q', _, hrecords, _, _, happ, ⟨d₁, hd₁, hid₁, hkey₁⟩, _⟩ := hready
        obtain ⟨rfl, rfl⟩ := he.eq hrecords
        have hsame := hinv.distinct d₁ hd₁ d hrec.mem (hid₁.trans hrec.run.symm)
          (by rw [hkey₁, hrec.app, happ])
        rw [hsame] at hkey₁
        exact absurd (hinv.exclusive d₀ hd₀ d hrec.mem hs hrec.running hkey₁.symm) heq
      · exact h.newer d₀ hd₀ hs e' he' id' facts observedAt hready

/-- The target of a result after it. -/
theorem RecordedDeclared.unresolved_iff (hinv : DeclaredInv db)
    (hrec : RecordedDeclared validate id q db db' d text) :
    (declaredAnswered id q.appid q.state (storedDeclaredError db d.key q.state q.errorCode) text
      d).unresolved = true ↔
      ¬(q.state = "ready" ∨ q.state = "not_found" ∧ db.current? d.key = none) := by
  rw [declaredAnswered_self hrec]
  have htargeted := (hinv.targeted d hrec.mem hrec.running).1
  rcases hrec.state with hs | hs | hs
  · have herror := hrec.error (by simp [hs])
    simp [DeclaredDemand.unresolved, storedDeclaredError, hs, herror]
  · have herror := hrec.error (by simp [hs])
    cases hcurrent : db.current? d.key with
    | none => simp [DeclaredDemand.unresolved, storedDeclaredError, hs, herror, hcurrent]
    | some c => simp [DeclaredDemand.unresolved, storedDeclaredError, hs, hcurrent, htargeted]
  · simp [DeclaredDemand.unresolved, hs, htargeted]

/-- A result settles its own app, and no other. -/
theorem RecordedDeclared.resolves_iff (hinv : DeclaredInv e.before) (he : e.Records id q)
    (hrec : RecordedDeclared validate id q e.before db' d text) {id' : Nat} {appid : Int} :
    e.Resolves id' appid ↔ id' = id ∧ appid = q.appid ∧
      (q.state = "ready" ∨ q.state = "not_found" ∧ e.before.current? d.key = none) := by
  constructor
  · rintro (⟨hrecords, happ, hs⟩ | ⟨hrecords, happ, hs, hd', hid', hkey', hnone⟩ |
      ⟨_, _, _, _, _, _, hcall, _⟩ | ⟨_, _, _, _, _, _, hcall, _⟩)
    · obtain ⟨rfl, rfl⟩ := he.eq hrecords
      exact ⟨rfl, happ.symm, Or.inl hs⟩
    · rename_i d'
      obtain ⟨rfl, rfl⟩ := he.eq hrecords
      have hsame := hinv.distinct d' hd' d hrec.mem (hid'.trans hrec.run.symm)
        (by rw [hkey', hrec.app, happ])
      exact ⟨rfl, happ.symm, Or.inr ⟨hs, hsame ▸ hnone⟩⟩
    · rw [he.1] at hcall
      simp at hcall
    · rw [he.1] at hcall
      simp at hcall
  · rintro ⟨rfl, rfl, hs | ⟨hs, hnone⟩⟩
    · exact .ready he rfl hs
    · exact .notFound he rfl hs hrec.mem hrec.run hrec.app hnone

theorem Accounted.record (h : Accounted l e.before) (hinv : DeclaredInv e.before)
    (he : e.Records id q) (hrec : RecordedDeclared validate id q e.before db' d text) :
    Accounted (e :: l) db' := by
  intro id' hid e' he' q' hbegins appid
  have hold : e.before.running id' = true := by
    unfold DeclaredDb.running at hid ⊢
    rwa [hrec.runs] at hid
  rcases List.mem_cons.mp he' with rfl | he'
  · exact absurd hbegins he.not_begins
  · have hbefore := h id' hold e' he' q' hbegins appid
    rw [hrec.demand, List.exists_mem_cons_iff, hrec.resolves_iff hinv he]
    by_cases htarget : id' = id ∧ appid = q.appid
    · obtain ⟨rfl, rfl⟩ := htarget
      -- the target was open before, so no call had settled the app
      obtain ⟨hdemanded, hnone⟩ := hbefore.mp
        ⟨d, hrec.mem, hrec.run, hrec.app, hinv.unresolved hrec.mem hrec.running⟩
      have hopen := hrec.unresolved_iff hinv
      constructor
      · rintro ⟨d', hd', hopen'⟩
        obtain ⟨d₀, hd₀, rfl⟩ := List.mem_map.mp hd'
        have heq : d₀ = d := by
          by_contra hne
          rw [declaredAnswered_of_ne hrec hinv _ hd₀ hne] at hopen'
          exact hne (hinv.distinct d₀ hd₀ d hrec.mem (hopen'.1.trans hrec.run.symm)
            (hopen'.2.1.trans hrec.app.symm))
        rw [heq] at hopen'
        refine ⟨hdemanded, ?_⟩
        rintro (⟨_, _, hsettled⟩ | hresolved)
        · exact hopen.mp hopen'.2.2 hsettled
        · exact hnone hresolved
      · rintro ⟨_, hnot⟩
        refine ⟨_, List.mem_map_of_mem hrec.mem, ?_, ?_, hopen.mpr fun hsettled =>
          hnot (Or.inl ⟨rfl, rfl, hsettled⟩)⟩
        · rw [declaredAnswered_self hrec]
          exact hrec.run
        · rw [declaredAnswered_self hrec]
          exact hrec.app
    · have hother : ¬(id' = id ∧ appid = q.appid ∧
          (q.state = "ready" ∨ q.state = "not_found" ∧ e.before.current? d.key = none)) :=
        fun hsettled => htarget ⟨hsettled.1, hsettled.2.1⟩
      rw [or_iff_right hother, ← hbefore]
      constructor
      · rintro ⟨d', hd', hopen'⟩
        obtain ⟨d₀, hd₀, rfl⟩ := List.mem_map.mp hd'
        by_cases heq : d₀ = d
        · rw [heq, declaredAnswered_self hrec] at hopen'
          exact absurd ⟨hopen'.1.symm.trans hrec.run, hopen'.2.1.symm.trans hrec.app⟩ htarget
        · rw [declaredAnswered_of_ne hrec hinv _ hd₀ heq] at hopen'
          exact ⟨d₀, hd₀, hopen'⟩
      · rintro ⟨d₀, hd₀, hopen'⟩
        have hne : d₀ ≠ d := by
          rintro rfl
          exact htarget ⟨hopen'.1.symm.trans hrec.run, hopen'.2.1.symm.trans hrec.app⟩
        exact ⟨d₀, List.mem_map.mpr ⟨d₀, hd₀, declaredAnswered_of_ne hrec hinv _ hd₀ hne⟩, hopen'⟩

end Record

/-! ## Every call -/

/-- What holds after any calls. -/
structure DeclaredState (validate : DeclaredValidator F) (l : List (DeclaredServed F))
    (db : DeclaredDb) : Prop where
  inv : DeclaredInv db
  chronicle : Chronicle validate l db
  accounted : (∀ e ∈ l, e.call.keepsOpen e.before = true) → Accounted l db

theorem DeclaredState.quiet (h : DeclaredState validate l db) (hq : e.Quiet) (hf : Fades db db')
    (hopen : KeepsOpen db db') (hinv : DeclaredInv db') : DeclaredState validate (e :: l) db' where
  inv := hinv
  chronicle := (h.chronicle.fade hf).quiet hq
  accounted hkeeps := ((h.accounted fun e' he' => hkeeps e' (List.mem_cons_of_mem e he')).fade hf
    hopen).quiet hq

theorem DeclaredState.call (h : DeclaredState validate l db) (c : DeclaredCall F)
    (hbefore : ∀ e ∈ l, e.call.earliest ≤ c.earliest) :
    DeclaredState validate (c.serve validate db :: l) (c.serve validate db).after := by
  unfold DeclaredCall.serve
  cases hrun : c.run validate db with
  | error x =>
    refine h.quiet ⟨fun id q => ?_, fun id q => ?_⟩ (.refl db) (fun _ _ _ => Iff.rfl) h.inv
    · rintro ⟨_, _, _, _, hok⟩
      simp at hok
    · rintro ⟨_, hok⟩
      simp at hok
  | ok r =>
    obtain ⟨reply, db'⟩ := r
    cases c with
    | begin q now =>
      obtain ⟨⟨started, db₁⟩, hok, hrun⟩ := bind_eq_ok.mp hrun
      obtain ⟨rfl, rfl⟩ := Prod.mk.inj (Except.ok.inj hrun)
      obtain ⟨plan, db₂, hplan, hid, rfl⟩ := beginDeclaredAppSync_ok hok
      obtain ⟨hf, hinv, hopen⟩ := fades_planDeclaredAppSync h.inv hplan
      obtain ⟨hnodup, hdemanded⟩ := planDeclaredAppSync_demanded hplan
      have hb : Began (F := F) ⟨db, .begin q now, .ok (.begun started.1 started.2.1 started.2.2),
          db₂.insertPlan q plan⟩ q now plan db₂ := ⟨rfl, ⟨_, _, by rw [hid]⟩, hplan⟩
      refine ⟨hinv.insertPlan hnodup, (h.chronicle.fade hf).begin hb hbefore, fun hkeeps => ?_⟩
      have hold := h.accounted fun e' he' => hkeeps e' (List.mem_cons_of_mem _ he')
      exact (hold.fade hf (hopen F (hkeeps _ List.mem_cons_self))).begin (h.chronicle.fade hf) hinv
        hb hdemanded
    | record id q =>
      obtain ⟨db₁, hok, hrun⟩ := bind_eq_ok.mp hrun
      obtain ⟨rfl, rfl⟩ := Prod.mk.inj (Except.ok.inj hrun)
      obtain ⟨d, text, hrec⟩ := recordDeclaredAppResult_ok hok
      refine ⟨h.inv.record hrec, ?_, fun hkeeps => ?_⟩
      · exact Chronicle.record (e := ⟨db, .record id q, .ok .done, db₁⟩) h.chronicle h.inv
          ⟨rfl, rfl⟩ hrec
      · exact Accounted.record (e := ⟨db, .record id q, .ok .done, db₁⟩)
          (h.accounted fun e' he' => hkeeps e' (List.mem_cons_of_mem _ he')) h.inv ⟨rfl, rfl⟩ hrec
    | mark id observedAt errorCode =>
      obtain ⟨db₁, hok, hrun⟩ := bind_eq_ok.mp hrun
      obtain ⟨rfl, rfl⟩ := Prod.mk.inj (Except.ok.inj hrun)
      obtain ⟨_, _, hok⟩ := bind_eq_ok.mp hok
      obtain ⟨text, _, hok⟩ := bind_eq_ok.mp hok
      obtain rfl := Except.ok.inj hok
      refine h.quiet ⟨fun id' q => ?_, fun id' q => ?_⟩ (fades_interrupt db id text errorCode)
        (keepsOpen_interrupt h.inv id text errorCode) (h.inv.interrupt id text errorCode)
      · rintro ⟨_, _, _, hcall, _⟩
        simp at hcall
      · rintro ⟨hcall, _⟩
        simp at hcall
    | finish id completedAt =>
      obtain ⟨⟨run, db₁⟩, hok, hrun⟩ := bind_eq_ok.mp hrun
      obtain ⟨rfl, rfl⟩ := Prod.mk.inj (Except.ok.inj hrun)
      obtain ⟨hf, hopen, hinv, _, _⟩ := finishDeclaredAppSync_ok h.inv hok
      refine h.quiet ⟨fun id' q => ?_, fun id' q => ?_⟩ hf hopen hinv
      · rintro ⟨_, _, _, hcall, _⟩
        simp at hcall
      · rintro ⟨hcall, _⟩
        simp at hcall

theorem declaredState_empty (accounts : List Account) (machines : List Machine)
    (consents : List AccountDataConsent) (limits : Limits) :
    DeclaredState validate [] (.empty accounts machines consents limits) := by
  refine ⟨⟨?_, ?_, ?_, ?_, ?_, ?_, ?_⟩, ⟨?_, ?_, ?_, ?_, ?_, ?_⟩, fun _ => ?_⟩
  all_goals first
    | exact fun _ h => absurd h List.not_mem_nil
    | exact fun _ h => by simp [DeclaredDb.running, DeclaredDb.empty, Runs.empty] at h

theorem DeclaredHistory.readings (h : DeclaredHistory validate l db) :
    ∀ e ∈ l, e.call.earliest ≤ e.call.latest := by
  induction h with
  | nil => exact fun e he => absurd he List.not_mem_nil
  | @call l db h c _ hreadings ih =>
    intro e he
    rcases List.mem_cons.mp he with rfl | he
    · have hcall : (c.serve validate db).call = c := by
        unfold DeclaredCall.serve
        split <;> rfl
      rwa [hcall]
    · exact ih e he
  | other _ _ _ _ _ ih => exact ih

/-- The run lemma: every history keeps the invariants. -/
theorem DeclaredHistory.state (h : DeclaredHistory validate l db) : DeclaredState validate l db := by
  induction h with
  | nil accounts machines consents limits => exact declaredState_empty accounts machines consents limits
  | @call l db h c horder _ ih =>
    exact ih.call c fun e he => (h.readings e he).trans (horder e he)
  | @other l db h accounts machines consents limits ih =>
    obtain ⟨hinv, hchronicle, haccounted⟩ := ih
    refine ⟨⟨hinv.owned, hinv.distinct, hinv.targeted, hinv.underway, hinv.exclusive, hinv.single,
      hinv.provider⟩, ⟨hchronicle.known, hchronicle.begun, hchronicle.ordered, hchronicle.recorded,
      hchronicle.current, hchronicle.newer⟩, haccounted⟩

/-! ## The results -/

/-- Another process cannot record into a run that is over. -/
theorem DeclaredInv.record_error (h : DeclaredInv db) {id : Nat} (validate : DeclaredValidator F)
    (q : DeclaredResult F)
    (hover : ∀ r ∈ db.runs.rows, r.id = id → r.status ≠ .running) :
    ∃ x, recordDeclaredAppResult validate id q db = .error x := by
  cases hok : recordDeclaredAppResult validate id q db with
  | error x => exact ⟨x, rfl⟩
  | ok db' =>
    obtain ⟨d, text, hrec⟩ := recordDeclaredAppResult_ok hok
    obtain ⟨r, hr, hid⟩ := h.owned d hrec.mem
    exact absurd (h.underway d hrec.mem hrec.running r hr hid) (hover r hr (hid.trans hrec.run))

/-- A call leaves the facts about an app, or it replaces them by those of a run that
started no earlier. -/
theorem DeclaredState.replaces (h : DeclaredState validate l db) {c : DeclaredCall F}
    {row row' : DeclaredCurrent} (hrow : row ∈ db.current)
    (hrow' : row' ∈ (c.serve validate db).after.current) (hkey : row'.key = row.key) :
    row'.facts = row.facts ∧ row'.observedAt = row.observedAt ∨
      ∃ e ∈ l, ∃ id id' q q', e.Readies validate id row.key row.facts row.observedAt ∧
        (c.serve validate db).Readies validate id' row'.key row'.facts row'.observedAt ∧
        (∃ e₀ ∈ l, e₀.Begins id q) ∧ (∃ e₀ ∈ l, e₀.Begins id' q') ∧
        q.startedAt.position ≤ q'.startedAt.position := by
  have hkept : Fades db (c.serve validate db).after →
      row'.facts = row.facts ∧ row'.observedAt = row.observedAt := by
    intro hf
    obtain ⟨row₀, hrow₀, hkey₀, hfacts, hobserved⟩ := hf.current row' hrow'
    rw [h.inv.single row₀ hrow₀ row hrow (hkey₀.symm.trans hkey)] at hfacts hobserved
    exact ⟨hfacts, hobserved⟩
  unfold DeclaredCall.serve at hrow' hkept ⊢
  cases hrun : c.run validate db with
  | error x =>
    rw [hrun] at hkept
    exact Or.inl (hkept (.refl db))
  | ok r =>
    obtain ⟨reply, db'⟩ := r
    rw [hrun] at hrow' hkept
    cases c with
    | begin q now =>
      obtain ⟨⟨started, db₁⟩, hok, hrun⟩ := bind_eq_ok.mp hrun
      obtain ⟨rfl, rfl⟩ := Prod.mk.inj (Except.ok.inj hrun)
      obtain ⟨plan, db₂, hplan, hid, rfl⟩ := beginDeclaredAppSync_ok hok
      obtain ⟨hf, _, _⟩ := fades_planDeclaredAppSync h.inv hplan
      obtain ⟨row₀, hrow₀, hkey₀, hfacts, hobserved⟩ := hf.current row' hrow'
      rw [h.inv.single row₀ hrow₀ row hrow (hkey₀.symm.trans hkey)] at hfacts hobserved
      exact Or.inl ⟨hfacts, hobserved⟩
    | record id q =>
      obtain ⟨db₁, hok, hrun⟩ := bind_eq_ok.mp hrun
      obtain ⟨rfl, rfl⟩ := Prod.mk.inj (Except.ok.inj hrun)
      obtain ⟨d, text, hrec⟩ := recordDeclaredAppResult_ok hok
      have hold : row' ∈ db.current →
          row'.facts = row.facts ∧ row'.observedAt = row.observedAt := by
        intro hmem
        rw [h.inv.single row' hmem row hrow hkey]
        exact ⟨rfl, rfl⟩
      rcases hrec.current with ⟨_, hsame⟩ | ⟨payload, facts, hs, hfacts, hvalidated, _, hsame | hnew⟩
      · exact Or.inl (hold (hsame ▸ hrow'))
      · exact Or.inl (hold (hsame ▸ hrow'))
      · replace hrow' : row' ∈ db.current.filter
            (fun c => !(c.key == d.key && c.facts.provider == "steam_store"))
              ++ [⟨d.key, facts, text, some id⟩] := hnew ▸ hrow'
        rcases List.mem_append.mp hrow' with hmem | hmem
        · exact Or.inl (hold (List.mem_of_mem_filter hmem))
        · obtain rfl := List.mem_singleton.mp hmem
          have hdkey : d.key = row.key := hkey
          obtain ⟨e, he, id₀, hready⟩ := h.chronicle.current row hrow
          have hlt : id₀ < d.syncRunId := h.chronicle.newer d hrec.mem hrec.running e he id₀ row.facts
            row.observedAt (hdkey ▸ hready)
          have hrecords := hready
          obtain ⟨q₀, _, hrecords, _⟩ := hrecords
          obtain ⟨e₀, he₀, p₀, hbegins₀⟩ := h.chronicle.recorded e he id₀ q₀ hrecords
          obtain ⟨r, hr, hid⟩ := h.inv.owned d hrec.mem
          obtain ⟨e₁, he₁, p₁, hbegins₁⟩ := h.chronicle.begun r hr
          rw [hid, hrec.run] at hbegins₁
          rw [hrec.run] at hlt
          exact Or.inr ⟨e, he, id₀, id, p₀, p₁, hready,
            ⟨q, payload, ⟨rfl, rfl⟩, hs, hfacts, hrec.app.symm, ⟨d, hrec.mem, hrec.run, rfl⟩,
              hvalidated, hrec.time⟩, ⟨e₀, he₀, hbegins₀⟩, ⟨e₁, he₁, hbegins₁⟩,
            h.chronicle.ordered e₀ he₀ e₁ he₁ id₀ id p₀ p₁ hbegins₀ hbegins₁ hlt⟩
    | mark id observedAt errorCode =>
      obtain ⟨db₁, hok, hrun⟩ := bind_eq_ok.mp hrun
      obtain ⟨rfl, rfl⟩ := Prod.mk.inj (Except.ok.inj hrun)
      obtain ⟨_, _, hok⟩ := bind_eq_ok.mp hok
      obtain ⟨text, _, hok⟩ := bind_eq_ok.mp hok
      obtain rfl := Except.ok.inj hok
      exact Or.inl (hkept (fades_interrupt db id text errorCode))
    | finish id completedAt =>
      obtain ⟨⟨run, db₁⟩, hok, hrun⟩ := bind_eq_ok.mp hrun
      obtain ⟨rfl, rfl⟩ := Prod.mk.inj (Except.ok.inj hrun)
      exact Or.inl (hkept (finishDeclaredAppSync_ok h.inv hok).1)

/-- After any calls, at most one target of an app is running, nothing is recorded
into a run that is over, and the current facts are those of a ready result that no
run that started earlier replaces.  While every quarantine leaves the demand that
runs have open, a finished run is complete exactly when each of its apps is
settled. -/
theorem declared_app_scheduling (h : DeclaredHistory validate l db) :
    (∀ d ∈ db.demand, ∀ d' ∈ db.demand, d.key = d'.key → d.state = "running" →
      d'.state = "running" → db.running d.syncRunId = true → db.running d'.syncRunId = true →
        d = d') ∧
    (∀ id q, (∀ r ∈ db.runs.rows, r.id = id → r.status ≠ .running) →
      (∃ x, ((DeclaredCall.record id q).serve validate db).outcome = .error x) ∧
        ((DeclaredCall.record id q).serve validate db).after = db) ∧
    (∀ row ∈ db.current, ∃ e ∈ l, ∃ id, e.Readies validate id row.key row.facts row.observedAt) ∧
    (∀ c : DeclaredCall F, ∀ row ∈ db.current, ∀ row' ∈ (c.serve validate db).after.current,
      row'.key = row.key → row'.facts = row.facts ∧ row'.observedAt = row.observedAt ∨
        ∃ e ∈ l, ∃ id id' q q', e.Readies validate id row.key row.facts row.observedAt ∧
          (c.serve validate db).Readies validate id' row'.key row'.facts row'.observedAt ∧
          (∃ e₀ ∈ l, e₀.Begins id q) ∧ (∃ e₀ ∈ l, e₀.Begins id' q') ∧
          q.startedAt.position ≤ q'.startedAt.position) ∧
    ((∀ e ∈ l, e.call.keepsOpen e.before = true) → ∀ id completedAt run db',
      finishDeclaredAppSync id completedAt db = .ok (run, db') →
        ∃ e ∈ l, ∃ q, e.Begins id q ∧ (run.status = .complete ↔
          ∀ appid ∈ q.demandedAppids, ∃ e ∈ l, e.Resolves id appid)) := by
  have hstate := h.state
  refine ⟨fun d hd d' hd' hkey hs hs' _ _ => hstate.inv.exclusive d hd d' hd' hs hs' hkey,
    fun id q hover => ?_, hstate.chronicle.current,
    fun c row hrow row' hrow' hkey => hstate.replaces hrow hrow' hkey,
    fun hkeeps id completedAt run db' hok => ?_⟩
  · obtain ⟨x, hx⟩ := hstate.inv.record_error validate q hover
    have hrun : (DeclaredCall.record id q).run validate db = .error x := by
      show (recordDeclaredAppResult validate id q db >>= fun db => pure (DeclaredReply.done, db)) = _
      rw [hx]
      rfl
    unfold DeclaredCall.serve
    rw [hrun]
    exact ⟨⟨x, rfl⟩, rfl⟩
  · obtain ⟨_, _, _, hrunning, hstatus⟩ := finishDeclaredAppSync_ok hstate.inv hok
    obtain ⟨r, hr, rfl, _⟩ := running_iff.mp hrunning
    obtain ⟨e, he, q, hbegins⟩ := hstate.chronicle.begun r hr
    have haccounted := hstate.accounted hkeeps r.id hrunning e he q hbegins
    refine ⟨e, he, q, hbegins, hstatus.trans ?_⟩
    constructor
    · intro hclosed appid hmem
      by_contra hnone
      exact hclosed appid ((haccounted appid).mpr ⟨hmem, hnone⟩)
    · intro hsettled appid hopen
      obtain ⟨hmem, hnone⟩ := (haccounted appid).mp hopen
      exact hnone (hsettled appid hmem)

end Log

/-! ## Two histories -/

section Examples

variable {F : Type} {validate : DeclaredValidator F}

/-- The calls, newest first, one after the other. -/
def serveDeclared (validate : DeclaredValidator F) (start : DeclaredDb) :
    List (DeclaredCall F) → List (DeclaredServed F) × DeclaredDb
  | [] => ([], start)
  | c :: calls =>
    let e := c.serve validate (serveDeclared validate start calls).2
    (e :: (serveDeclared validate start calls).1, e.after)

theorem call_serve (c : DeclaredCall F) (db : DeclaredDb) : (c.serve validate db).call = c := by
  unfold DeclaredCall.serve
  split <;> rfl

theorem calls_serveDeclared (validate : DeclaredValidator F) (start : DeclaredDb) (calls : List (DeclaredCall F)) :
    (serveDeclared validate start calls).1.map DeclaredServed.call = calls := by
  induction calls with
  | nil => rfl
  | cons c calls ih => rw [serveDeclared, List.map_cons, call_serve, ih]

theorem declaredHistory_serve {accounts : List Account} {machines : List Machine}
    {consents : List AccountDataConsent} {limits : Limits} {calls : List (DeclaredCall F)}
    (horder : calls.Pairwise fun c' c => c.latest ≤ c'.earliest)
    (hreadings : ∀ c ∈ calls, c.earliest ≤ c.latest) :
    DeclaredHistory validate
      (serveDeclared validate (.empty accounts machines consents limits) calls).1
      (serveDeclared validate (.empty accounts machines consents limits) calls).2 := by
  induction calls with
  | nil => exact .nil accounts machines consents limits
  | cons c calls ih =>
    obtain ⟨hc, hcalls⟩ := List.pairwise_cons.mp horder
    refine .call (ih hcalls fun c' hc' => hreadings c' (List.mem_cons_of_mem c hc')) c
      (fun e he => hc _ ?_) (hreadings c List.mem_cons_self)
    rw [← calls_serveDeclared validate (.empty accounts machines consents limits) calls]
    exact List.mem_map_of_mem he

/-- Whether a call settles an app for a run. -/
def DeclaredServed.settles (id : Nat) (appid : Int) (e : DeclaredServed F) : Bool :=
  match e.call, e.outcome with
  | .record id' q, .ok .done => id' == id && q.appid == appid
  | .begin q now, .ok (.begun id' _ _) => id' == id &&
    match planDeclaredAppSync q now e.before with
    | .ok (plan, db) =>
      plan.scope.skipCode db plan.cooldownUntil appid == some "FRESH_LAST_GOOD" ||
        plan.scope.skipCode db plan.cooldownUntil appid == some "NOT_FOUND_CACHE"
    | .error _ => false
  | _, _ => false

/-- Whether a call begins a run that demands an app. -/
def DeclaredServed.demands (id : Nat) (appid : Int) (e : DeclaredServed F) : Bool :=
  match e.call, e.outcome with
  | .begin q _, .ok (.begun id' _ _) => id' == id && q.demandedAppids.contains appid
  | _, _ => false

theorem DeclaredServed.Resolves.settles {e : DeclaredServed F} {id : Nat} {appid : Int}
    (h : e.Resolves id appid) : e.settles id appid = true := by
  rcases h with ⟨hrec, happ, _⟩ | ⟨hrec, happ, _, _, _, _, _⟩ |
    ⟨q, now, candidates, targeted, plan, db, hcall, hok, hplan, _, hcode⟩ |
    ⟨q, now, candidates, targeted, plan, db, hcall, hok, hplan, _, hcode⟩
  · simp [DeclaredServed.settles, hrec.1, hrec.2, happ]
  · simp [DeclaredServed.settles, hrec.1, hrec.2, happ]
  · simp [DeclaredServed.settles, hcall, hok, hplan, hcode]
  · simp [DeclaredServed.settles, hcall, hok, hplan, hcode]

end Examples

/-- A validator that accepts facts as they are. -/
def acceptFacts : DeclaredValidator DeclaredFacts :=
  fun facts _ _ _ => .ok facts

/-- A database with two accounts that agreed to keep the facts. -/
def sharedMachine : DeclaredDb :=
  .empty [⟨1, "steam"⟩, ⟨2, "steam"⟩] [⟨"deck", "linux", none⟩]
    [⟨1, "compatibility_persistence", "1", true⟩, ⟨2, "compatibility_persistence", "1", true⟩] .empty

/-- A sync of some apps, begun `us` after noon. -/
def declaredRequest (accountId : Nat) (appids : List Int) (us : Nat) : DeclaredRequest where
  accountId := accountId
  machineId := "deck"
  demandedAppids := appids
  country := "US"
  language := "english"
  maxItems := 10
  skipFreshTerminal := true
  startedAt := Aware.ofInstant (sinceNoon us)
  disclosureVersion := "1"
  explicitAppids := []

def beginDeclared (accountId : Nat) (appids : List Int) (us : Nat) : DeclaredCall DeclaredFacts :=
  .begin (declaredRequest accountId appids us) (Aware.ofInstant (sinceNoon us))

/-- A ready result. -/
def recordDeclared (id accountId : Nat) (appid : Int) (us : Nat) : DeclaredCall DeclaredFacts :=
  .record id ⟨accountId, appid, "ready", Aware.ofInstant (sinceNoon us),
    some ⟨"declared-app-facts/0.2", "\x7b\x7d", "steam_store", "provisional",
      "steam_store_appdetails", "https://store.steampowered.com/app/10/"⟩, none⟩

/-- The second account waits for the first one's request for app 10.  Half a second
later the third sync takes the facts of that request for future ones. -/
def quarantinedWait : List (DeclaredCall DeclaredFacts) :=
  [recordDeclared 2 2 20 600000, beginDeclared 1 [10] 500000, recordDeclared 1 1 10 0,
    beginDeclared 2 [10, 20] 0, beginDeclared 1 [10] 0]

theorem history_quarantinedWait : DeclaredHistory acceptFacts
    (serveDeclared acceptFacts sharedMachine quarantinedWait).1
    (serveDeclared acceptFacts sharedMachine quarantinedWait).2 :=
  declaredHistory_serve (by decide) (by decide)

/-- The sync of the second account is complete, and no call settled app 10 for it. -/
theorem declared_app_scheduling_half_second :
    ∃ (l : List (DeclaredServed DeclaredFacts)) (db : DeclaredDb),
      DeclaredHistory acceptFacts l db ∧ ∃ completedAt run db',
        finishDeclaredAppSync 2 completedAt db = .ok (run, db') ∧ run.status = .complete ∧
        (∃ e ∈ l, ∃ q, e.Begins 2 q ∧ 10 ∈ q.demandedAppids) ∧ ¬∃ e ∈ l, e.Resolves 2 10 := by
  refine ⟨_, _, history_quarantinedWait, Aware.ofInstant (sinceNoon 1000000), ?_⟩
  have hfinish : (finishDeclaredAppSync 2 (Aware.ofInstant (sinceNoon 1000000))
      (serveDeclared acceptFacts sharedMachine quarantinedWait).2).toOption.any (fun r =>
        r.1.status == .complete) = true := by decide +kernel
  have hnone : ((serveDeclared acceptFacts sharedMachine quarantinedWait).1.all fun e =>
      !e.settles 2 10) = true := by decide +kernel
  have hbegun : ((serveDeclared acceptFacts sharedMachine quarantinedWait).1.any fun e =>
      e.demands 2 10) = true := by decide +kernel
  cases hok : finishDeclaredAppSync 2 (Aware.ofInstant (sinceNoon 1000000))
      (serveDeclared acceptFacts sharedMachine quarantinedWait).2 with
  | error x =>
    rw [hok] at hfinish
    simp [Except.toOption] at hfinish
  | ok r =>
    rw [hok] at hfinish
    refine ⟨r.1, r.2, rfl, by simpa [Except.toOption] using hfinish, ?_, ?_⟩
    · obtain ⟨e, he, hbegins⟩ := List.any_eq_true.mp hbegun
      unfold DeclaredServed.demands at hbegins
      split at hbegins
      · rename_i q now id candidates targeted hcall houtcome
        simp only [Bool.and_eq_true, beq_iff_eq] at hbegins
        obtain ⟨rfl, hmem⟩ := hbegins
        exact ⟨e, he, q, ⟨now, candidates, targeted, hcall, houtcome⟩, by simpa using hmem⟩
      · simp at hbegins
    · rintro ⟨e, he, hresolves⟩
      have hsettles := List.all_eq_true.mp hnone e he
      rw [hresolves.settles] at hsettles
      simp at hsettles

/-- A sync of one app that is recorded ready. -/
def singleApp : List (DeclaredCall DeclaredFacts) :=
  [recordDeclared 1 1 10 2000000, beginDeclared 1 [10] 1000000]

theorem declared_app_scheduling_single :
    ∃ e ∈ (serveDeclared acceptFacts sharedMachine singleApp).1, ∃ q, e.Begins 1 q ∧
      ∀ appid ∈ q.demandedAppids,
        ∃ e ∈ (serveDeclared acceptFacts sharedMachine singleApp).1, e.Resolves 1 appid := by
  have hfinish : (finishDeclaredAppSync 1 (Aware.ofInstant (sinceNoon 3000000))
      (serveDeclared acceptFacts sharedMachine singleApp).2).toOption.any (fun r =>
        r.1.status == .complete) = true := by decide +kernel
  have hkeeps : ∀ e ∈ (serveDeclared acceptFacts sharedMachine singleApp).1,
      e.call.keepsOpen e.before = true := by decide +kernel
  cases hok : finishDeclaredAppSync 1 (Aware.ofInstant (sinceNoon 3000000))
      (serveDeclared acceptFacts sharedMachine singleApp).2 with
  | error x =>
    rw [hok] at hfinish
    simp [Except.toOption] at hfinish
  | ok r =>
    rw [hok] at hfinish
    have hcomplete : r.1.status = .complete := by simpa [Except.toOption] using hfinish
    obtain ⟨e, he, q, hbegins, hiff⟩ := (declared_app_scheduling
      (declaredHistory_serve (by decide) (by decide))).2.2.2.2 hkeeps 1 _ r.1 r.2 hok
    exact ⟨e, he, q, hbegins, hiff.mp hcomplete⟩

end SteamAgent.Storage
