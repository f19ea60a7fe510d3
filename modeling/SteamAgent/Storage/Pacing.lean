import SteamAgent.Storage.RequestLimits

/-!
# Pacing over whole histories

The calls of any number of processes, in the order in which their transactions
commit.

There are three groups.

* `History`: the calls made on a table that was empty, newest first, with the
  times of one key in order and one interval for it.
* `Paced`, the invariant of the key's row, and the pacing of requests.
* A caller that retries after the clock was set back.
-/

namespace SteamAgent.Storage

open Datetime (Instant Aware)

/-- A call, how it ended, and the table before and after it. -/
structure Served where
  before : Limits
  call : LimitCall
  outcome : LimitOutcome
  after : Limits

/-- One call on a table. -/
def LimitCall.serve (limits : Limits) (c : LimitCall) : Served :=
  ⟨limits, c, (c.run limits).1, (c.run limits).2⟩

namespace Served

/-- The time of the call. -/
def time (e : Served) : Int :=
  e.call.requestedAt.position

/-- The key got a permit. -/
def Grants (key : LimitKey) (e : Served) : Prop :=
  e.call.key = key ∧ e.outcome = .granted

/-- The key was denied one. -/
def Denies (key : LimitKey) (e : Served) : Prop :=
  e.call.key = key ∧ e.outcome = .denied

/-- Requests of the key are put off to a time. -/
def Defers (key : LimitKey) (deadline : Int) (e : Served) : Prop :=
  ∃ requestedAt retryAfterSeconds, e.call = .defer key requestedAt retryAfterSeconds ∧
    e.outcome = .deferred ∧ deadline = requestedAt.position + retryAfterSeconds * 1000000

/-- The stored cooldown of the key and the new one are not confusable. -/
def Comparable (key : LimitKey) (e : Served) : Prop :=
  ∀ deadline, e.Defers key deadline → ∀ row, e.before key = some row →
    ∀ stored cooldown : Instant, row.cooldownUntil = some stored.text →
      (cooldown.us : Int) = deadline → ¬Instant.Confusable stored cooldown

end Served

/-- The calls made on an empty table, newest first.  The calls for `key` are
made at times in order, and its requests all ask for one interval. -/
inductive History (key : LimitKey) (interval : Int) : List Served → Limits → Prop
  | nil : History key interval [] .empty
  | cons {l : List Served} {limits : Limits} (h : History key interval l limits) (c : LimitCall)
      (hsame : ∀ requestedAt i, c = .reserve key requestedAt i → i = interval)
      (horder : c.key = key → ∀ e ∈ l, e.call.key = key → e.time ≤ c.requestedAt.position) :
    History key interval (c.serve limits :: l) (c.run limits).2

/-! ## The invariant -/

/-- What the row of a key says about the calls so far. -/
structure Paced (key : LimitKey) (interval : Int) (l : List Served) (limits : Limits) : Prop where
  stored : limits.Stored
  /-- Without a row there was no permit and no deferral. -/
  fresh : limits key = none → ∀ e ∈ l, e.call.key = key → e.outcome = .raised
  /-- The row keeps every permit so far away. -/
  apart : ∀ row current, limits key = some row → row.nextAllowedAt = Instant.text current →
    ∀ e ∈ l, e.Grants key → e.time + interval ≤ current.us
  /-- The row is never more than one interval ahead. -/
  near : ∀ row current, limits key = some row → row.nextAllowedAt = Instant.text current →
    ∃ e ∈ l, e.call.key = key ∧ (current.us : Int) ≤ e.time + max interval 0
  /-- Every deferral is over or covered by the stored cooldown. -/
  covered : (∀ e ∈ l, e.Comparable key) → ∀ e ∈ l, ∀ deadline, e.Defers key deadline →
    (∃ e' ∈ l, e'.call.key = key ∧ deadline ≤ e'.time) ∨
    ∃ row c, limits key = some row ∧ row.cooldownUntil = some (Instant.text c) ∧ deadline ≤ c.us

variable {key : LimitKey} {interval : Int} {l : List Served} {limits : Limits}

theorem paced_nil : Paced key interval [] .empty where
  stored _ _ h := by simp [Limits.empty] at h
  fresh _ e he := by simp at he
  apart _ _ h := by simp [Limits.empty] at h
  near _ _ h := by simp [Limits.empty] at h
  covered _ e he := by simp at he

/-- A call that grants nothing, defers nothing and leaves the row alone. -/
theorem Paced.skip (h : Paced key interval l limits) {e : Served} {limits' : Limits}
    (hs : limits'.Stored) (hrow : limits' key = limits key)
    (hfresh : limits key = none → e.call.key = key → e.outcome = .raised)
    (hg : ¬e.Grants key) (hd : ∀ deadline, ¬e.Defers key deadline) :
    Paced key interval (e :: l) limits' where
  stored := hs
  fresh hn e' he' hk := by
    rw [hrow] at hn
    rcases List.mem_cons.mp he' with rfl | he'
    · exact hfresh hn hk
    · exact h.fresh hn e' he' hk
  apart row current hr hc e' he' hg' := by
    rw [hrow] at hr
    rcases List.mem_cons.mp he' with rfl | he'
    · exact absurd hg' hg
    · exact h.apart row current hr hc e' he' hg'
  near row current hr hc := by
    rw [hrow] at hr
    obtain ⟨e', he', hk, hle⟩ := h.near row current hr hc
    exact ⟨e', List.mem_cons_of_mem _ he', hk, hle⟩
  covered hc e' he' deadline hd' := by
    rcases List.mem_cons.mp he' with rfl | he'
    · exact absurd hd' (hd deadline)
    · rw [hrow]
      rcases h.covered (fun e he => hc e (List.mem_cons_of_mem _ he)) e' he' deadline hd' with
        ⟨e'', he'', hk, hle⟩ | hrow
      · exact Or.inl ⟨e'', List.mem_cons_of_mem _ he'', hk, hle⟩
      · exact Or.inr hrow

/-- What a permit is granted on. -/
structure Clear (key : LimitKey) (interval : Int) (l : List Served) (now : Int) : Prop where
  apart : ∀ e ∈ l, e.Grants key → e.time + interval ≤ now
  passed : (∀ e ∈ l, e.Comparable key) → ∀ e ∈ l, ∀ deadline, e.Defers key deadline → deadline ≤ now

/-- A permit, and the row it leaves behind. -/
theorem Paced.grant (h : Paced key interval l limits) {e : Served} {next : Instant}
    (hpos : 0 < interval) (hk : e.call.key = key) (hgrant : e.outcome = .granted)
    (hclear : Clear key interval l e.time) (hnext : (next.us : Int) = e.time + interval) :
    Paced key interval (e :: l) (limits.set key ⟨next.text, none⟩) where
  stored := h.stored.set ⟨next, none, rfl, rfl⟩
  fresh hn := by simp at hn
  apart row current hr hc e' he' hg' := by
    rw [Limits.set_self] at hr
    obtain rfl := Option.some.inj hr
    obtain rfl := Instant.text_injective hc
    rcases List.mem_cons.mp he' with rfl | he'
    · omega
    · have hle := hclear.apart e' he' hg'
      omega
  near row current hr hc := by
    rw [Limits.set_self] at hr
    obtain rfl := Option.some.inj hr
    obtain rfl := Instant.text_injective hc
    exact ⟨e, List.mem_cons_self, hk, by omega⟩
  covered hc e' he' deadline hd := by
    rcases List.mem_cons.mp he' with rfl | he'
    · obtain ⟨_, _, _, hout, _⟩ := hd
      rw [hgrant] at hout
      simp at hout
    · exact Or.inl ⟨e, List.mem_cons_self, hk,
        hclear.passed (fun e he => hc e (List.mem_cons_of_mem _ he)) e' he' deadline hd⟩

/-- A deferral, and the row it leaves behind. -/
theorem Paced.defer (h : Paced key interval l limits) {requestedAt : Aware}
    {retryAfterSeconds : Int} {requested cooldown : Instant} {limits' : Limits}
    (hat : (requested.us : Int) = requestedAt.position)
    (hend : (cooldown.us : Int) = requested.us + retryAfterSeconds * 1000000)
    (hl : limits' = limits.set key (deferRow (limits key) requested.text cooldown.text)) :
    Paced key interval
      (⟨limits, .defer key requestedAt retryAfterSeconds, .deferred, limits'⟩ :: l) limits' where
  stored := by
    rw [hl]
    exact h.stored.set (stored_deferRow (h.stored key) _ _)
  fresh hn := by simp [hl] at hn
  apart row current hr hc e' he' hg' := by
    rw [hl, Limits.set_self] at hr
    rcases List.mem_cons.mp he' with rfl | he'
    · simp [Served.Grants] at hg'
    · cases hrow : limits key with
      | none =>
        have hraised := h.fresh hrow e' he' hg'.1
        rw [hg'.2] at hraised
        simp at hraised
      | some old =>
        rw [hrow] at hr
        obtain rfl := Option.some.inj hr
        exact h.apart old current hrow hc e' he' hg'
  near row current hr hc := by
    rw [hl, Limits.set_self] at hr
    cases hrow : limits key with
    | none =>
      rw [hrow] at hr
      obtain rfl := Option.some.inj hr
      obtain rfl := Instant.text_injective hc
      refine ⟨_, List.mem_cons_self, rfl, ?_⟩
      simp only [Served.time, LimitCall.requestedAt]
      omega
    | some old =>
      rw [hrow] at hr
      obtain rfl := Option.some.inj hr
      obtain ⟨e', he', hk, hle⟩ := h.near old current hrow hc
      exact ⟨e', List.mem_cons_of_mem _ he', hk, hle⟩
  covered hc e' he' deadline hd := by
    have hnew := hc _ List.mem_cons_self
    have hold := h.covered fun e he => hc e (List.mem_cons_of_mem _ he)
    have hself : Served.Defers key cooldown.us
        ⟨limits, .defer key requestedAt retryAfterSeconds, .deferred, limits'⟩ :=
      ⟨requestedAt, retryAfterSeconds, rfl, rfl, by omega⟩
    rw [hl, Limits.set_self]
    cases hrow : limits key with
    | none =>
      refine Or.inr ⟨_, cooldown, rfl, rfl, ?_⟩
      rcases List.mem_cons.mp he' with rfl | he'
      · obtain ⟨_, _, hcall, _, rfl⟩ := hd
        obtain ⟨-, rfl, rfl⟩ := LimitCall.defer.inj hcall
        omega
      · have hout := h.fresh hrow e' he'
        obtain ⟨_, _, hcall, hdef, _⟩ := hd
        rw [hcall] at hout
        rw [hout rfl] at hdef
        simp at hdef
    | some old =>
      obtain ⟨current, stored, hstored⟩ := h.stored key old hrow
      obtain ⟨c, hc', _⟩ := laterCooldown_eq stored cooldown
      have hapart : ∀ s ∈ stored, ¬Instant.Confusable s cooldown := by
        intro s hs
        obtain rfl := Option.mem_def.mp hs
        exact hnew _ hself old hrow s cooldown hstored.cooldown_eq rfl
      have hmax := laterCooldown_le hapart hc'
      have hcd : (deferRow (some old) requested.text cooldown.text).cooldownUntil
          = some c.text := by
        rw [deferRow, hstored.cooldown_eq, hc']
      rcases List.mem_cons.mp he' with rfl | he'
      · refine Or.inr ⟨_, c, rfl, hcd, ?_⟩
        obtain ⟨_, _, hcall, _, rfl⟩ := hd
        obtain ⟨-, rfl, rfl⟩ := LimitCall.defer.inj hcall
        have hle := Instant.le_iff.mp hmax.1
        omega
      · rcases hold e' he' deadline hd with ⟨e'', he'', hk, hle⟩ | ⟨row, d, hr, hcr, hle⟩
        · exact Or.inl ⟨e'', List.mem_cons_of_mem _ he'', hk, hle⟩
        · refine Or.inr ⟨_, c, rfl, hcd, ?_⟩
          obtain rfl := Option.some.inj (hrow.symm.trans hr)
          rw [hstored.cooldown_eq] at hcr
          cases stored with
          | none => simp at hcr
          | some s =>
            obtain rfl := Instant.text_injective (Option.some.inj hcr)
            have hle' := Instant.le_iff.mp (hmax.2 s rfl)
            omega

/-- A permit comes after every deadline of the calls before it. -/
theorem Paced.clear (h : Paced key interval l limits) {requestedAt : Aware} {limits' : Limits}
    (hr : Reserved key requestedAt interval limits true limits')
    (horder : ∀ e ∈ l, e.call.key = key → e.time ≤ requestedAt.position) :
    Clear key interval l requestedAt.position := by
  cases hr with
  | first hat hnext hrow =>
    refine ⟨fun e he hg => ?_, fun _ e he deadline hd => ?_⟩
    · have hraised := h.fresh hrow e he hg.1
      rw [hg.2] at hraised
      simp at hraised
    · obtain ⟨_, _, hcall, hdef, _⟩ := hd
      have hraised := h.fresh hrow e he (by rw [hcall]; rfl)
      rw [hdef] at hraised
      simp at hraised
  | again hat hnext hrow hstored hd =>
    cases hd with
    | due hc hle =>
      rw [Instant.le_iff] at hle
      refine ⟨fun e he hg => ?_, fun hcmp e he deadline hd => ?_⟩
      · have hapart := h.apart _ _ hrow hstored.next_eq e he hg
        omega
      · rcases h.covered hcmp e he deadline hd with ⟨e', he', hk, hover⟩ | ⟨row, c, hr, hcr, hcov⟩
        · have hlast := horder e' he' hk
          omega
        · obtain rfl := Option.some.inj (hrow.symm.trans hr)
          rw [hstored.cooldown_eq] at hcr
          obtain ⟨d, hd, htext⟩ := Option.map_eq_some_iff.mp hcr
          obtain rfl := Instant.text_injective htext
          have hend := Instant.le_iff.mp (hc d hd)
          omega

/-- A call on the key that is denied changes nothing: the recovery branch needs
a deadline that is further ahead than any row's. -/
theorem Paced.denied (h : Paced key interval l limits) (hpos : 0 < interval)
    {requestedAt : Aware} {limits' : Limits}
    (hr : Reserved key requestedAt interval limits false limits')
    (horder : ∀ e ∈ l, e.call.key = key → e.time ≤ requestedAt.position) : limits' = limits := by
  cases hr with
  | again hat hnext hrow hstored hd =>
    cases hd with
    | cooling => exact Limits.set_eq_self hrow
    | early => exact Limits.set_eq_self hrow
    | stale hc hw =>
      obtain ⟨e, he, hk, hle⟩ := h.near _ _ hrow hstored.next_eq
      have hlast := horder e he hk
      unfold recoveryWindow at hw
      omega

/-- One call of the history keeps the invariant. -/
theorem Paced.step (h : Paced key interval l limits) (c : LimitCall)
    (hsame : ∀ requestedAt i, c = .reserve key requestedAt i → i = interval)
    (horder : c.key = key → ∀ e ∈ l, e.call.key = key → e.time ≤ c.requestedAt.position) :
    Paced key interval (c.serve limits :: l) (c.run limits).2 := by
  have hran := c.ran h.stored
  have hstored := hran.stored h.stored
  unfold LimitCall.serve
  generalize (c.run limits).1 = outcome at hran ⊢
  generalize (c.run limits).2 = limits' at hran hstored ⊢
  cases hran with
  | raised =>
    exact h.skip hstored rfl (fun _ _ => rfl) (fun hg => by simp [Served.Grants] at hg)
      fun _ hd => by simp [Served.Defers] at hd
  | @reserved key' requestedAt i granted limits' hpos hr =>
    by_cases hk : key' = key
    · subst hk
      obtain rfl := hsame requestedAt i rfl
      cases granted with
      | false =>
        have hsame := h.denied hpos hr (horder rfl)
        refine h.skip hstored (by rw [hsame]) (fun hn _ => ?_) (fun hg => by simp [Served.Grants] at hg)
          fun _ hd => by simp [Served.Defers] at hd
        cases hr with
        | again hat hnext hrow => simp [hrow] at hn
      | true =>
        have hclear := h.clear hr (horder rfl)
        cases hr with
        | first hat hnext hrow => exact h.grant hpos rfl rfl hclear (by rw [hnext, hat]; rfl)
        | again hat hnext hrow hstored hd =>
          cases hd with
          | due => exact h.grant hpos rfl rfl hclear (by rw [hnext, hat]; rfl)
    · have hrow : limits' key = limits key := by
        cases hr <;> exact Limits.set_of_ne (Ne.symm hk)
      exact h.skip hstored hrow (fun _ hc => absurd hc hk) (fun hg => hk hg.1)
        fun _ hd => by simp [Served.Defers] at hd
  | @deferred key' requestedAt retryAfterSeconds requested cooldown hat hend hretry =>
    by_cases hk : key' = key
    · subst hk
      exact h.defer hat hend rfl
    · refine h.skip hstored (Limits.set_of_ne (Ne.symm hk)) (fun _ hc => absurd hc hk)
        (fun hg => hk hg.1) fun deadline hd => ?_
      obtain ⟨_, _, hcall, _⟩ := hd
      exact hk (LimitCall.defer.inj hcall).1

theorem History.paced (h : History key interval l limits) : Paced key interval l limits := by
  induction h with
  | nil => exact paced_nil
  | cons h c hsame horder ih => exact ih.step c hsame horder

/-! ## Pacing -/

/-- What a new call adds to a history. -/
theorem Paced.event (h : Paced key interval l limits) (c : LimitCall)
    (hsame : ∀ requestedAt i, c = .reserve key requestedAt i → i = interval)
    (horder : c.key = key → ∀ e ∈ l, e.call.key = key → e.time ≤ c.requestedAt.position) :
    ((c.serve limits).Grants key → Clear key interval l (c.serve limits).time) ∧
    ((c.serve limits).Denies key → (c.serve limits).after = (c.serve limits).before) := by
  have hran := c.ran h.stored
  unfold LimitCall.serve Served.Grants Served.Denies Served.time
  generalize (c.run limits).1 = outcome at hran ⊢
  generalize (c.run limits).2 = limits' at hran ⊢
  cases hran with
  | raised => exact ⟨fun hg => by simp at hg, fun hd => by simp at hd⟩
  | @reserved key' requestedAt i granted limits' hpos hr =>
    constructor
    · rintro ⟨rfl, hg⟩
      obtain rfl := hsame requestedAt i rfl
      cases granted with
      | false => simp at hg
      | true => exact h.clear hr (horder rfl)
    · rintro ⟨rfl, hd⟩
      obtain rfl := hsame requestedAt i rfl
      cases granted with
      | false => exact h.denied hpos hr (horder rfl)
      | true => simp at hd
  | deferred => exact ⟨fun hg => by simp at hg, fun hd => by simp at hd⟩

/-- Two permits of a key are an interval apart, a denied call changes nothing,
and as long as no deferral meets a stored cooldown it is confusable with, no
permit is granted before the end of a deferral. -/
theorem request_pacing (h : History key interval l limits) :
    l.Pairwise (fun e' e => e'.Grants key → e.Grants key → e.time + interval ≤ e'.time) ∧
    (∀ e ∈ l, e.Denies key → e.after = e.before) ∧
    ((∀ e ∈ l, e.Comparable key) → l.Pairwise fun e' e => e'.Grants key →
      ∀ deadline, e.Defers key deadline → deadline ≤ e'.time) := by
  induction h with
  | nil => exact ⟨.nil, fun e he => by simp at he, fun _ => .nil⟩
  | @cons l limits h c hsame horder ih =>
    obtain ⟨hgrant, hdeny⟩ := h.paced.event c hsame horder
    refine ⟨List.pairwise_cons.mpr ⟨fun e he hg => (hgrant hg).apart e he, ih.1⟩, fun e he hd => ?_,
      fun hc => ?_⟩
    · rcases List.mem_cons.mp he with rfl | he
      · exact hdeny hd
      · exact ih.2.1 e he hd
    · have hold : ∀ e ∈ l, e.Comparable key := fun e he => hc e (List.mem_cons_of_mem _ he)
      exact List.pairwise_cons.mpr ⟨fun e he hg => (hgrant hg).passed hold e he, ih.2.2 hold⟩

/-! ## Runs -/

/-- The table after some calls, newest first. -/
def replay : List LimitCall → Limits
  | [] => .empty
  | c :: calls => (c.run (replay calls)).2

/-- The same calls on record. -/
def record : List LimitCall → List Served
  | [] => []
  | c :: calls => c.serve (replay calls) :: record calls

theorem stored_replay (calls : List LimitCall) : (replay calls).Stored := by
  induction calls with
  | nil => exact fun _ _ h => by simp [replay, Limits.empty] at h
  | cons c calls ih => exact (c.ran ih).stored ih

theorem call_mem_of_mem_record {calls : List LimitCall} {e : Served} (h : e ∈ record calls) :
    e.call ∈ calls := by
  induction calls with
  | nil => simp [record] at h
  | cons c calls ih =>
    rcases List.mem_cons.mp h with rfl | h
    · exact List.mem_cons_self
    · exact List.mem_cons_of_mem _ (ih h)

theorem history_record {calls : List LimitCall}
    (hsame : ∀ requestedAt i, .reserve key requestedAt i ∈ calls → i = interval)
    (horder : calls.Pairwise fun c' c => c.requestedAt.position ≤ c'.requestedAt.position) :
    History key interval (record calls) (replay calls) := by
  induction calls with
  | nil => exact .nil
  | cons c calls ih =>
    obtain ⟨hc, hcalls⟩ := List.pairwise_cons.mp horder
    refine .cons (ih (fun requestedAt i h => hsame requestedAt i (List.mem_cons_of_mem _ h)) hcalls)
      c (fun requestedAt i h => hsame requestedAt i (h ▸ List.mem_cons_self))
      fun _ e he _ => hc _ (call_mem_of_mem_record he)

/-- A datetime shortly after noon of 2024-01-01. -/
def noon (us : Fin 86400000000) : Aware :=
  Aware.ofInstant ⟨63839707200000000 + us, by
    have h := us.isLt
    unfold Datetime.maxMicroseconds
    omega⟩

/-- A provider and a scope. -/
def webApi : LimitKey :=
  ("steam-web-api", "default")

/-- Two deferrals by ten seconds, half a second apart, and a request in the
half second between their ends. -/
def halfSecond : List LimitCall :=
  [.reserve webApi (noon 10200000) 1000000, .defer webApi (noon 500000) 10, .defer webApi (noon 0) 10]

theorem history_halfSecond : History webApi 1000000 (record halfSecond) (replay halfSecond) := by
  refine history_record (fun requestedAt i h => ?_) (by decide)
  simp only [halfSecond, List.mem_cons, LimitCall.reserve.injEq, reduceCtorEq, List.not_mem_nil,
    or_false] at h
  exact h.2.2

/-- The later of two deferrals is lost when one ends on a whole second. -/
theorem request_pacing_half_second :
    ∃ l limits, History webApi 1000000 l limits ∧
      ¬l.Pairwise fun e' e => e'.Grants webApi →
        ∀ deadline, e.Defers webApi deadline → deadline ≤ e'.time := by
  refine ⟨_, _, history_halfSecond, fun h => ?_⟩
  have hlate := (List.pairwise_cons.mp h).1 _ List.mem_cons_self ⟨rfl, by decide +kernel⟩
    63839707210500000 ⟨noon 500000, 10, rfl, by decide +kernel, by decide⟩
  exact absurd hlate (by decide)

/-- A request, two deferrals by ten seconds, a request before their end and one
at it. -/
def backoff : List LimitCall :=
  [.reserve webApi (noon 16000000) 1000000, .defer webApi (noon 6000000) 10,
    .reserve webApi (noon 5000000) 1000000, .defer webApi (noon 1000000) 10,
    .reserve webApi (noon 0) 1000000]

theorem history_backoff : History webApi 1000000 (record backoff) (replay backoff) := by
  refine history_record (fun requestedAt i h => ?_) (by decide)
  simp only [backoff, List.mem_cons, LimitCall.reserve.injEq, reduceCtorEq, false_or,
    List.not_mem_nil, or_false] at h
  rcases h with h | h | h <;> exact h.2.2

/-- A request is comparable with anything. -/
theorem comparable_of_reserve {e : Served} {at' : Aware} {i : Int}
    (h : e.call = .reserve key at' i) : e.Comparable key := by
  rintro deadline ⟨_, _, hdefer, _⟩
  rw [h] at hdefer
  cases hdefer

/-- The second deferral meets the end of the first, five seconds earlier. -/
theorem comparable_backoff : ∀ e ∈ record backoff, e.Comparable webApi := by
  have hnone : (replay (backoff.drop 4) webApi).bind LimitRow.cooldownUntil = none := by
    decide +kernel
  have hfirst : (replay (backoff.drop 2) webApi).bind LimitRow.cooldownUntil =
      some (Instant.text (noon 11000000).wall) := by
    decide +kernel
  simp only [record, backoff, List.forall_mem_cons, List.not_mem_nil, false_implies, implies_true,
    and_true]
  refine ⟨comparable_of_reserve rfl, ?_, comparable_of_reserve rfl, ?_, comparable_of_reserve rfl⟩
  · intro deadline hdefers row hrow stored cooldown hstored hcooldown
    obtain ⟨_, _, hcall, -, rfl⟩ := hdefers
    cases hcall
    obtain rfl : stored = (noon 11000000).wall := by
      rw [show replay (backoff.drop 2) webApi = some row from hrow, Option.bind_some, hstored,
        Option.some.injEq] at hfirst
      exact Instant.text_injective hfirst
    obtain rfl : cooldown = (noon 16000000).wall := Instant.ext_us (Int.ofNat.inj hcooldown)
    decide
  · intro deadline _ row hrow stored cooldown hstored _
    rw [show replay (backoff.drop 4) webApi = some row from hrow, Option.bind_some, hstored] at hnone
    cases hnone

theorem request_pacing_deferred :
    (record backoff).map Served.outcome = [.granted, .deferred, .denied, .deferred, .granted] ∧
    ((record backoff).Pairwise fun e' e => e'.Grants webApi → e.Grants webApi →
      e.time + 1000000 ≤ e'.time) ∧
    (∀ e ∈ record backoff, e.Denies webApi → e.after = e.before) ∧
    (record backoff).Pairwise fun e' e => e'.Grants webApi →
      ∀ deadline, e.Defers webApi deadline → deadline ≤ e'.time := by
  obtain ⟨happart, hdenied, hdeferred⟩ := request_pacing history_backoff
  exact ⟨by decide +kernel, happart, hdenied, hdeferred comparable_backoff⟩

/-! ## A clock that was set back -/

/-- The calls of one caller, each denied. -/
def Retries (key : LimitKey) (interval : Int) : Limits → List Aware → Prop
  | _, [] => True
  | limits, t :: rest =>
    ((LimitCall.reserve key t interval).run limits).1 = .denied ∧
      Retries key interval ((LimitCall.reserve key t interval).run limits).2 rest

/-- The longest cooldown and the recovery window, in microseconds. -/
def longestBlock (interval : Int) : Int :=
  86400 * 1000000 + recoveryWindow interval

/-- A caller whose first retry is at `first` is denied only for the longest
block. -/
def Unwedged (key : LimitKey) (interval : Int) (limits : Limits) (first : Aware) : Prop :=
  ∀ rest, (first :: rest).Pairwise (fun t t' => t.position ≤ t'.position) →
    Retries key interval limits (first :: rest) →
    ∀ t ∈ first :: rest, t.position < first.position + longestBlock interval

/-- Both deadlines end by `bound`. -/
def LimitRow.Within (row : LimitRow) (bound : Int) : Prop :=
  ∀ current cooldown, row.Stored current cooldown →
    (current.us : Int) ≤ bound ∧ ∀ c ∈ cooldown, (c.us : Int) ≤ bound

theorem LimitRow.Stored.unique {row : LimitRow} {n n' : Instant} {c c' : Option Instant}
    (h : row.Stored n c) (h' : row.Stored n' c') : n = n' ∧ c = c' := by
  refine ⟨Instant.text_injective (h.next_eq.symm.trans h'.next_eq), ?_⟩
  have hmap := h.cooldown_eq.symm.trans h'.cooldown_eq
  exact Option.map_injective (fun _ _ => Instant.text_injective) hmap

theorem within_of_stored {row : LimitRow} {n : Instant} {c : Option Instant} {bound : Int}
    (h : row.Stored n c) (hn : (n.us : Int) ≤ bound) (hc : ∀ d ∈ c, (d.us : Int) ≤ bound) :
    row.Within bound := by
  intro n' c' h'
  obtain ⟨rfl, rfl⟩ := h.unique h'
  exact ⟨hn, hc⟩

/-- A denied request on an existing row. -/
theorem denied_cases {limits : Limits} (hs : limits.Stored) {t : Aware}
    (h : ((LimitCall.reserve key t interval).run limits).1 = .denied) :
    ∃ requested next current : Instant, ∃ cooldown row row', 0 < interval ∧
      (requested.us : Int) = t.position ∧ (next.us : Int) = requested.us + interval ∧
      limits key = some row ∧ row.Stored current cooldown ∧
      Decision requested next interval row current cooldown false row' ∧
      ((LimitCall.reserve key t interval).run limits).2 key = some row' := by
  have hran := (LimitCall.reserve key t interval).ran hs
  rw [h] at hran
  generalize ((LimitCall.reserve key t interval).run limits).2 = limits' at hran ⊢
  generalize hout : LimitOutcome.denied = outcome at hran
  cases hran with
  | raised => simp at hout
  | @reserved _ _ _ granted _ hpos hr =>
    cases granted with
    | true => simp at hout
    | false =>
      cases hr with
      | again hat hnext hrow hstored hd =>
        exact ⟨_, _, _, _, _, _, hpos, hat, hnext, hrow, hstored, hd, Limits.set_self _ _ _⟩

/-- A denial under deadlines that end by `bound` comes before `bound`, and
leaves such deadlines behind. -/
theorem Decision.within {requested next current : Instant} {row row' : LimitRow}
    {cooldown : Option Instant} {bound : Int} (hpos : 0 < interval)
    (hnext : (next.us : Int) = requested.us + interval) (hstored : row.Stored current cooldown)
    (h : Decision requested next interval row current cooldown false row')
    (hw : row.Within bound) : (requested.us : Int) < bound ∧ row'.Within bound := by
  obtain ⟨hn, hc⟩ := hw _ _ hstored
  cases h with
  | @cooling c hcool hlt =>
    rw [Instant.lt_iff] at hlt
    have hle := hc c hcool
    exact ⟨by omega, hw⟩
  | early _ hlt _ =>
    rw [Instant.lt_iff] at hlt
    exact ⟨by omega, hw⟩
  | stale _ hfar =>
    unfold recoveryWindow at hfar
    refine ⟨by omega, within_of_stored (n := next) (c := none) ⟨rfl, rfl⟩ (by omega) fun d hd => ?_⟩
    simp at hd

theorem retries_within {bound : Int} {limits : Limits} (hs : limits.Stored) {times : List Aware}
    (hr : Retries key interval limits times)
    (hw : ∀ row, limits key = some row → row.Within bound) :
    ∀ t ∈ times, t.position < bound := by
  induction times generalizing limits with
  | nil => exact fun t ht => by simp at ht
  | cons first rest ih =>
    obtain ⟨hdenied, hrest⟩ := hr
    obtain ⟨requested, next, current, cooldown, row, row', hpos, hat, hnext, hrow, hstored, hd,
      hafter⟩ := denied_cases hs hdenied
    obtain ⟨hlt, hw'⟩ := hd.within hpos hnext hstored (hw row hrow)
    intro t ht
    rcases List.mem_cons.mp ht with rfl | ht
    · omega
    · refine ih (((LimitCall.reserve key first interval).ran hs).stored hs) hrest
        (fun r hr => ?_) t ht
      obtain rfl := Option.some.inj (hafter.symm.trans hr)
      exact hw'

/-- A denied request was made early enough for its next deadline to exist. -/
theorem retries_representable {limits : Limits} (hs : limits.Stored) {times : List Aware}
    (hr : Retries key interval limits times) :
    ∀ t ∈ times, t.position + interval < Datetime.maxMicroseconds := by
  induction times generalizing limits with
  | nil => exact fun t ht => by simp at ht
  | cons first rest ih =>
    obtain ⟨hdenied, hrest⟩ := hr
    obtain ⟨requested, next, _, _, _, _, _, hat, hnext, _⟩ := denied_cases hs hdenied
    intro t ht
    rcases List.mem_cons.mp ht with rfl | ht
    · have hbound := next.bound
      omega
    · exact ih (((LimitCall.reserve key first interval).ran hs).stored hs) hrest t ht

/-- The condition on the row: no cooldown is in force at the first retry, or
both deadlines end within the longest block, or the block reaches past the year
9999. -/
def Sound (interval : Int) (row : LimitRow) (first : Aware) : Prop :=
  ∀ (current cooldown : Instant), row.Stored current (some cooldown) →
    first.position < cooldown.us →
      row.Within (first.position + longestBlock interval) ∨
        (Datetime.maxMicroseconds : Int) ≤ first.position + longestBlock interval + interval

theorem longestBlock_pos (interval : Int) : 0 < longestBlock interval := by
  have hpos := recoveryWindow_pos interval
  unfold longestBlock
  omega

/-- A denial without a cooldown in force leaves deadlines behind that end within
the recovery window. -/
theorem Decision.settled {requested next current : Instant} {row row' : LimitRow}
    {cooldown : Option Instant} (hnext : (next.us : Int) = requested.us + interval)
    (hstored : row.Stored current cooldown)
    (h : Decision requested next interval row current cooldown false row')
    (hc : ∀ c ∈ cooldown, c ≤ requested) :
    row'.Within (requested.us + longestBlock interval) := by
  have hpos := longestBlock_pos interval
  have hcool : ∀ c ∈ cooldown, (c.us : Int) ≤ requested.us + longestBlock interval := by
    intro c hmem
    have hle := Instant.le_iff.mp (hc c hmem)
    omega
  cases h with
  | @cooling c hsome hlt =>
    have hle := hc c hsome
    rw [Instant.lt_iff] at hlt
    rw [Instant.le_iff] at hle
    omega
  | early _ _ hw =>
    refine within_of_stored hstored ?_ hcool
    unfold longestBlock
    omega
  | stale _ _ =>
    refine within_of_stored (n := next) (c := none) ⟨rfl, rfl⟩ ?_ fun d hd => by simp at hd
    unfold longestBlock recoveryWindow
    omega

theorem unwedged_of_sound {limits : Limits} (hs : limits.Stored) {first : Aware}
    (hsound : ∀ row, limits key = some row → Sound interval row first) :
    Unwedged key interval limits first := by
  intro rest _ hr t ht
  obtain ⟨hdenied, hrest⟩ := id hr
  obtain ⟨requested, next, current, cooldown, row, row', hpos, hat, hnext, hrow, hstored, hd,
    hafter⟩ := denied_cases hs hdenied
  by_cases hc : ∀ c ∈ cooldown, c ≤ requested
  · rcases List.mem_cons.mp ht with rfl | ht
    · have hblock := longestBlock_pos interval
      omega
    · have hw := hd.settled hnext hstored hc
      rw [hat] at hw
      refine retries_within (((LimitCall.reserve key first interval).ran hs).stored hs) hrest
        (fun r hr => ?_) t ht
      obtain rfl := Option.some.inj (hafter.symm.trans hr)
      exact hw
  · obtain ⟨c, hsome, hlt⟩ : ∃ c, cooldown = some c ∧ requested < c := by
      cases cooldown with
      | none => exact absurd (fun c hmem => by simp at hmem) hc
      | some c =>
        refine ⟨c, rfl, ?_⟩
        rw [Instant.lt_iff]
        by_contra hle
        refine hc fun d hd => ?_
        obtain rfl := Option.some.inj hd
        exact Nat.le_of_not_lt hle
    rw [Instant.lt_iff] at hlt
    rcases hsound row hrow current c (hsome ▸ hstored) (by omega) with hw | hfar
    · refine retries_within hs hr (fun r hr => ?_) t ht
      obtain rfl := Option.some.inj (hrow.symm.trans hr)
      exact hw
    · have hrep := retries_representable hs hr t ht
      omega

theorem later_eq {i : Instant} {us : Nat} (h : i.us + us < Datetime.maxMicroseconds) :
    later i us = .ok ⟨i.us + us, h⟩ := by
  rw [later, Instant.add, Instant.ofUs, dif_pos h]

/-- A request under a cooldown, or one after it but before the other deadline,
is denied. -/
theorem run_denied {limits : Limits} (hkey : key.1 ≠ "" ∧ key.2 ≠ "") (hpos : 0 < interval)
    {t : Aware} {requested : Instant} (hat : instantOf t = .ok requested)
    (hnext : requested.us + interval.toNat < Datetime.maxMicroseconds) {row : LimitRow}
    (hrow : limits key = some row) {current cooldown : Instant}
    (hstored : row.Stored current (some cooldown))
    (hlt : requested < cooldown ∨ requested < current) :
    ((LimitCall.reserve key t interval).run limits).1 = .denied ∧
      (requested < cooldown → ((LimitCall.reserve key t interval).run limits).2 = limits) := by
  obtain ⟨granted, row', hok, hd⟩ :=
    reserve_eq hkey hpos hat (later_eq hnext) hrow hstored
  have hsome : ∀ d ∈ some cooldown, d = cooldown := fun d hd => (Option.some.inj hd).symm
  cases hd with
  | cooling hc h =>
    rw [LimitCall.run, hok]
    exact ⟨rfl, fun _ => Limits.set_eq_self hrow⟩
  | early hc h hw =>
    rw [LimitCall.run, hok]
    exact ⟨rfl, fun _ => Limits.set_eq_self hrow⟩
  | stale hc hw =>
    rw [LimitCall.run, hok]
    refine ⟨rfl, fun hlt => ?_⟩
    have hle := hc cooldown rfl
    rw [Instant.le_iff] at hle
    rw [Instant.lt_iff] at hlt
    omega
  | due hc h =>
    have hle := hc cooldown rfl
    rw [Instant.le_iff] at hle h
    rw [Instant.lt_iff, Instant.lt_iff] at hlt
    omega

theorem sound_of_unwedged {limits : Limits} (hkey : key.1 ≠ "" ∧ key.2 ≠ "")
    (hpos : 0 < interval) {first : Aware} {now : Instant} (hat : instantOf first = .ok now)
    (h : Unwedged key interval limits first) {row : LimitRow} (hrow : limits key = some row) :
    Sound interval row first := by
  intro current cooldown hstored hforce
  by_contra hbad
  obtain ⟨hlong, hfits⟩ := not_or.mp hbad
  have hus := us_of_instantOf hat
  have hblock := longestBlock_pos interval
  obtain ⟨late, hlate⟩ : ∃ late : Instant, (late.us : Int) = now.us + longestBlock interval :=
    ⟨⟨(now.us + longestBlock interval).toNat, by omega⟩, by simp only; omega⟩
  have hlt : late < cooldown ∨ late < current := by
    by_contra hnot
    obtain ⟨hc, hn⟩ := not_or.mp hnot
    rw [Instant.lt_iff] at hc hn
    refine hlong (within_of_stored hstored (by omega) fun d hd => ?_)
    obtain rfl := Option.some.inj hd
    omega
  have hfirst := run_denied hkey hpos hat (by omega) hrow hstored
    (Or.inl (by rw [Instant.lt_iff]; omega))
  have hsecond := run_denied hkey hpos (instantOf_ofInstant late) (by omega) hrow hstored hlt
  have hposlate : (Aware.ofInstant late).position = late.us := Aware.position_ofInstant late
  have hretries : Retries key interval limits [first, Aware.ofInstant late] := by
    refine ⟨hfirst.1, ?_, trivial⟩
    rw [hfirst.2 (by rw [Instant.lt_iff]; omega)]
    exact hsecond.1
  have hlast := h [Aware.ofInstant late] (by
    rw [List.pairwise_pair, hposlate]
    omega) hretries (Aware.ofInstant late) (by simp)
  omega

/-- A row that some calls built blocks a retrying caller no longer than the
longest block, exactly when its cooldown is not in force at the first retry, or
both deadlines end within the block. -/
theorem no_wedge_iff (calls : List LimitCall) (hkey : key.1 ≠ "" ∧ key.2 ≠ "")
    (hpos : 0 < interval) {first : Aware} {now : Instant} (hat : instantOf first = .ok now) :
    Unwedged key interval (replay calls) first ↔
      ∀ row, replay calls key = some row → Sound interval row first :=
  ⟨fun h _ hrow => sound_of_unwedged hkey hpos hat h hrow,
    fun h => unwedged_of_sound (stored_replay calls) h⟩

/-- A datetime in the year 2099. -/
def nextCentury : Aware :=
  Aware.ofInstant ⟨66206636800000000, by unfold Datetime.maxMicroseconds; omega⟩

/-- One day and five seconds after noon of 2024-01-01. -/
def nextDay : Aware :=
  Aware.ofInstant ⟨63839793605000000, by unfold Datetime.maxMicroseconds; omega⟩

/-- A cooldown that was recorded while the clock ran far ahead. -/
theorem no_wedge_next_century :
    ¬Unwedged webApi 1000000 (replay [.defer webApi nextCentury 10]) (noon 0) := by
  intro h
  have hlast := h [nextDay] (by decide) ⟨by decide +kernel, by decide +kernel, trivial⟩ nextDay
    (by simp)
  exact absurd hlast (by decide)

theorem no_wedge_iff_noon :
    Unwedged webApi 1000000 (replay [.reserve webApi (noon 0) 1000000]) (noon 500000) := by
  have hrow : replay [.reserve webApi (noon 0) 1000000] webApi
      = some ⟨"2024-01-01T12:00:01Z", none⟩ := by decide +kernel
  refine (no_wedge_iff _ (by decide) (by decide)
    (instantOf_ofInstant (noon 500000).wall)).mpr fun row hr => ?_
  obtain rfl := Option.some.inj (hrow.symm.trans hr)
  exact fun _ _ hstored _ => by simpa using hstored.cooldown_eq

end SteamAgent.Storage
