import SteamAgent.Storage.Values

/-!
# `provider_request_limits`

The two deadlines of a provider and scope, and the methods that read and write
them.  Each method is one transaction: it raises and leaves the table as it is,
or it returns and commits.

Intervals are whole microseconds.

There are three groups.

* The table.
* `reserveProviderRequest` and `deferProviderRequests`.
* What one call can do, on a row whose texts `_timestamp` wrote.
-/

namespace SteamAgent.Storage

open Datetime (Instant Aware)

/-! ## The table -/

/-- A row, without its key. -/
structure LimitRow where
  nextAllowedAt : String
  cooldownUntil : Option String
deriving DecidableEq, Repr

/-- Provider and budget scope, the primary key. -/
abbrev LimitKey := String × String

/-- `provider_request_limits`. -/
abbrev Limits := LimitKey → Option LimitRow

namespace Limits

def empty : Limits :=
  fun _ => none

def set (limits : Limits) (key : LimitKey) (row : LimitRow) : Limits :=
  fun key' => if key' = key then some row else limits key'

@[simp] theorem set_self (limits : Limits) (key : LimitKey) (row : LimitRow) :
    limits.set key row key = some row := if_pos rfl

theorem set_of_ne {limits : Limits} {key key' : LimitKey} {row : LimitRow} (h : key' ≠ key) :
    limits.set key row key' = limits key' := if_neg h

theorem set_eq_self {limits : Limits} {key : LimitKey} {row : LimitRow}
    (h : limits key = some row) : limits.set key row = limits := by
  funext key'
  by_cases hk : key' = key
  · rw [hk, set_self, h]
  · rw [set_of_ne hk]

end Limits

/-! ## The methods -/

/-- `max(5.0, minimum_interval_seconds * 2)`. -/
def recoveryWindow (interval : Int) : Int :=
  max 5000000 (2 * interval)

/-- Whether a cooldown denies a request. -/
def coolingDown (requested : Instant) : Option String → Except Exn Bool
  | none => .ok false
  | some text => do
    let cooldown ← readInstant text
    return decide (requested < cooldown)

/-- The decision on an existing row whose cooldown is over: the answer, and the
row to commit. -/
def paceRequest (requested next : Instant) (interval : Int) (row : LimitRow) :
    Except Exn (Bool × LimitRow) := do
  let current ← readInstant row.nextAllowedAt
  let remaining : Int := current.us - requested.us
  if 0 < remaining ∧ remaining ≤ recoveryWindow interval then
    return (false, row)
  else if recoveryWindow interval < remaining then
    return (false, ⟨next.text, none⟩)
  else
    return (true, ⟨next.text, none⟩)

/-- The decision on an existing row. -/
def decideRequest (requested next : Instant) (interval : Int) (row : LimitRow) :
    Except Exn (Bool × LimitRow) := do
  if ← coolingDown requested row.cooldownUntil then
    return (false, row)
  else
    paceRequest requested next interval row

/-- `reserve_provider_request`. -/
def reserveProviderRequest (key : LimitKey) (requestedAt : Aware) (interval : Int)
    (limits : Limits) : Except Exn (Bool × Limits) :=
  if key.1 = "" ∨ key.2 = "" ∨ interval ≤ 0 then
    .error (.valueError "provider request budget inputs are invalid")
  else do
    let requested ← instantOf requestedAt
    let next ← later requested interval.toNat
    match limits key with
    | none => return (true, limits.set key ⟨next.text, none⟩)
    | some row =>
      let (granted, row) ← decideRequest requested next interval row
      return (granted, limits.set key row)

/-- The `CASE` expression: the larger of two texts. -/
def laterCooldown (stored : Option String) (excluded : String) : String :=
  match stored with
  | none => excluded
  | some cooldown => if cooldown < excluded then excluded else cooldown

/-- The row after a deferral. -/
def deferRow (row : Option LimitRow) (requested cooldown : String) : LimitRow :=
  match row with
  | none => ⟨requested, some cooldown⟩
  | some row => { row with cooldownUntil := some (laterCooldown row.cooldownUntil cooldown) }

/-- `defer_provider_requests`. -/
def deferProviderRequests (key : LimitKey) (requestedAt : Aware) (retryAfterSeconds : Int)
    (limits : Limits) : Except Exn Limits :=
  if key.1 = "" ∨ key.2 = "" ∨ retryAfterSeconds < 0 ∨ 86400 < retryAfterSeconds then
    .error (.valueError "provider cooldown inputs are invalid")
  else do
    let requested ← instantOf requestedAt
    let cooldown ← later requested (retryAfterSeconds.toNat * 1000000)
    return limits.set key (deferRow (limits key) requested.text cooldown.text)

/-! ## What a call can do -/

/-- One call of a method. -/
inductive LimitCall where
  | reserve (key : LimitKey) (requestedAt : Aware) (interval : Int)
  | defer (key : LimitKey) (requestedAt : Aware) (retryAfterSeconds : Int)

/-- How a call ends. -/
inductive LimitOutcome where
  | granted
  | denied
  | deferred
  | raised
deriving DecidableEq, Repr

namespace LimitCall

def key : LimitCall → LimitKey
  | reserve key .. => key
  | defer key .. => key

def requestedAt : LimitCall → Aware
  | reserve _ requestedAt _ => requestedAt
  | defer _ requestedAt _ => requestedAt

/-- One call on the table. -/
def run (limits : Limits) : LimitCall → LimitOutcome × Limits
  | reserve key requestedAt interval =>
    match reserveProviderRequest key requestedAt interval limits with
    | .error _ => (.raised, limits)
    | .ok (true, limits') => (.granted, limits')
    | .ok (false, limits') => (.denied, limits')
  | defer key requestedAt retryAfterSeconds =>
    match deferProviderRequests key requestedAt retryAfterSeconds limits with
    | .error _ => (.raised, limits)
    | .ok limits' => (.deferred, limits')

end LimitCall

/-- Texts that `_timestamp` wrote. -/
structure LimitRow.Stored (row : LimitRow) (next : Instant) (cooldown : Option Instant) :
    Prop where
  next_eq : row.nextAllowedAt = next.text
  cooldown_eq : row.cooldownUntil = cooldown.map Instant.text

/-- The answers of `reserve_provider_request` on an existing row, with the row
each one leaves behind. -/
inductive Decision (requested next : Instant) (interval : Int) (row : LimitRow)
    (current : Instant) (cooldown : Option Instant) : Bool → LimitRow → Prop
  | cooling {c : Instant} (hc : cooldown = some c) (h : requested < c) :
    Decision requested next interval row current cooldown false row
  | early (hc : ∀ c ∈ cooldown, c ≤ requested) (h : requested < current)
      (hw : (current.us : Int) - requested.us ≤ recoveryWindow interval) :
    Decision requested next interval row current cooldown false row
  | stale (hc : ∀ c ∈ cooldown, c ≤ requested)
      (hw : recoveryWindow interval < (current.us : Int) - requested.us) :
    Decision requested next interval row current cooldown false ⟨next.text, none⟩
  | due (hc : ∀ c ∈ cooldown, c ≤ requested) (h : current ≤ requested) :
    Decision requested next interval row current cooldown true ⟨next.text, none⟩

theorem recoveryWindow_pos (interval : Int) : 0 < recoveryWindow interval := by
  unfold recoveryWindow
  omega

theorem paceRequest_eq {requested next current : Instant} {interval : Int} {row : LimitRow}
    (h : row.nextAllowedAt = current.text) {cooldown : Option Instant}
    (hc : ∀ c ∈ cooldown, c ≤ requested) :
    ∃ granted row', paceRequest requested next interval row = .ok (granted, row') ∧
      Decision requested next interval row current cooldown granted row' := by
  have hpos := recoveryWindow_pos interval
  unfold paceRequest
  rw [h, readInstant_text]
  simp only [bind, Except.bind]
  by_cases hnow : 0 < (current.us : Int) - requested.us ∧
      (current.us : Int) - requested.us ≤ recoveryWindow interval
  · rw [if_pos hnow]
    exact ⟨_, _, rfl, .early hc (by rw [Instant.lt_iff]; omega) hnow.2⟩
  · rw [if_neg hnow]
    by_cases hfar : recoveryWindow interval < (current.us : Int) - requested.us
    · rw [if_pos hfar]
      exact ⟨_, _, rfl, .stale hc hfar⟩
    · rw [if_neg hfar]
      exact ⟨_, _, rfl, .due hc (by rw [Instant.le_iff]; omega)⟩

theorem decideRequest_eq (requested next : Instant) (interval : Int) {current : Instant}
    {row : LimitRow} {cooldown : Option Instant} (h : row.Stored current cooldown) :
    ∃ granted row', decideRequest requested next interval row = .ok (granted, row') ∧
      Decision requested next interval row current cooldown granted row' := by
  unfold decideRequest
  rw [h.cooldown_eq]
  cases cooldown with
  | none => exact paceRequest_eq h.next_eq fun c hc => by simp at hc
  | some c =>
    simp only [Option.map_some, coolingDown, readInstant_text, bind, Except.bind]
    by_cases hlt : requested < c
    · simp only [hlt, decide_true, pure, Except.pure, if_true]
      exact ⟨_, _, rfl, .cooling rfl hlt⟩
    · simp only [hlt, decide_false, pure, Except.pure, Bool.false_eq_true, if_false]
      refine paceRequest_eq h.next_eq fun d hd => ?_
      obtain rfl := Option.some.inj hd
      rw [Instant.lt_iff] at hlt
      rw [Instant.le_iff]
      omega

/-- `reserve_provider_request`, on an existing row. -/
theorem reserve_eq {key : LimitKey} {requestedAt : Aware} {interval : Int} {limits : Limits}
    (hkey : key.1 ≠ "" ∧ key.2 ≠ "") (hpos : 0 < interval) {requested next : Instant}
    (hat : instantOf requestedAt = .ok requested)
    (hnext : later requested interval.toNat = .ok next) {row : LimitRow}
    (hrow : limits key = some row) {current : Instant} {cooldown : Option Instant}
    (hs : row.Stored current cooldown) :
    ∃ granted row', reserveProviderRequest key requestedAt interval limits
        = .ok (granted, limits.set key row') ∧
      Decision requested next interval row current cooldown granted row' := by
  obtain ⟨granted, row', hd, hdec⟩ := decideRequest_eq requested next interval hs
  refine ⟨granted, row', ?_, hdec⟩
  have hinput : ¬(key.1 = "" ∨ key.2 = "" ∨ interval ≤ 0) := by
    rintro (h | h | h)
    · exact hkey.1 h
    · exact hkey.2 h
    · omega
  unfold reserveProviderRequest
  rw [if_neg hinput]
  simp only [hat, hnext, hrow, hd, bind, Except.bind, pure, Except.pure]

/-- What `reserve_provider_request` did when it returned. -/
inductive Reserved (key : LimitKey) (requestedAt : Aware) (interval : Int) (limits : Limits) :
    Bool → Limits → Prop
  | first {requested next : Instant} (hat : (requested.us : Int) = requestedAt.position)
      (hnext : (next.us : Int) = requested.us + interval) (hrow : limits key = none) :
    Reserved key requestedAt interval limits true (limits.set key ⟨next.text, none⟩)
  | again {requested next current : Instant} {cooldown : Option Instant} {row row' : LimitRow}
      {granted : Bool} (hat : (requested.us : Int) = requestedAt.position)
      (hnext : (next.us : Int) = requested.us + interval) (hrow : limits key = some row)
      (hstored : row.Stored current cooldown)
      (hd : Decision requested next interval row current cooldown granted row') :
    Reserved key requestedAt interval limits granted (limits.set key row')

/-- Every row holds texts that `_timestamp` wrote. -/
def Limits.Stored (limits : Limits) : Prop :=
  ∀ key row, limits key = some row → ∃ current cooldown, row.Stored current cooldown

theorem reserved_of_ok {key : LimitKey} {requestedAt : Aware} {interval : Int} {limits : Limits}
    (hs : limits.Stored) {granted : Bool} {limits' : Limits}
    (h : reserveProviderRequest key requestedAt interval limits = .ok (granted, limits')) :
    0 < interval ∧ Reserved key requestedAt interval limits granted limits' := by
  by_cases hinput : key.1 = "" ∨ key.2 = "" ∨ interval ≤ 0
  · rw [reserveProviderRequest, if_pos hinput] at h
    simp at h
  · have hpos : 0 < interval := by omega
    have hkey : key.1 ≠ "" ∧ key.2 ≠ "" := ⟨fun h => hinput (.inl h), fun h => hinput (.inr (.inl h))⟩
    refine ⟨hpos, ?_⟩
    cases hat : instantOf requestedAt with
    | error x =>
      rw [reserveProviderRequest, if_neg hinput] at h
      simp [hat, bind, Except.bind] at h
    | ok requested =>
      cases hadd : later requested interval.toNat with
      | error x =>
        rw [reserveProviderRequest, if_neg hinput] at h
        simp [hat, hadd, bind, Except.bind] at h
      | ok next =>
        have hus := us_of_later hadd
        have hnext : (next.us : Int) = requested.us + interval := by omega
        cases hrow : limits key with
        | none =>
          rw [reserveProviderRequest, if_neg hinput] at h
          simp only [hat, hadd, hrow, bind, Except.bind, pure, Except.pure, Except.ok.injEq,
            Prod.mk.injEq] at h
          obtain ⟨rfl, rfl⟩ := h
          exact .first (us_of_instantOf hat) hnext hrow
        | some row =>
          obtain ⟨current, cooldown, hstored⟩ := hs key row hrow
          obtain ⟨granted', row', hok, hdec⟩ := reserve_eq hkey hpos hat hadd hrow hstored
          rw [h] at hok
          simp only [Except.ok.injEq, Prod.mk.injEq] at hok
          obtain ⟨rfl, rfl⟩ := hok
          exact .again (us_of_instantOf hat) hnext hrow hstored hdec

/-- What `defer_provider_requests` did when it returned. -/
theorem deferred_of_ok {key : LimitKey} {requestedAt : Aware} {retryAfterSeconds : Int}
    {limits limits' : Limits}
    (h : deferProviderRequests key requestedAt retryAfterSeconds limits = .ok limits') :
    ∃ requested cooldown : Instant, (requested.us : Int) = requestedAt.position ∧
      (cooldown.us : Int) = requested.us + retryAfterSeconds * 1000000 ∧
      0 ≤ retryAfterSeconds ∧ retryAfterSeconds ≤ 86400 ∧
      limits' = limits.set key (deferRow (limits key) requested.text cooldown.text) := by
  unfold deferProviderRequests at h
  split at h
  · simp at h
  · rename_i hinput
    -- A variable for the product: the kernel would count up to the literal.
    obtain ⟨us, hlength⟩ : ∃ us : Nat, retryAfterSeconds.toNat * 1000000 = us := ⟨_, rfl⟩
    rw [hlength] at h
    cases hat : instantOf requestedAt with
    | error x => simp [hat, bind, Except.bind] at h
    | ok requested =>
      cases hadd : later requested us with
      | error x => simp [hat, hadd, bind, Except.bind] at h
      | ok cooldown =>
        have hus := us_of_later hadd
        simp only [hat, hadd, bind, Except.bind, pure, Except.pure, Except.ok.injEq] at h
        exact ⟨requested, cooldown, us_of_instantOf hat, by omega, by omega, by omega, h.symm⟩

/-- The larger text is one of the two. -/
theorem laterCooldown_eq (stored : Option Instant) (cooldown : Instant) :
    ∃ c, laterCooldown (stored.map Instant.text) cooldown.text = c.text ∧
      (c = cooldown ∨ stored = some c) := by
  cases stored with
  | none => exact ⟨cooldown, rfl, Or.inl rfl⟩
  | some s =>
    simp only [Option.map_some, laterCooldown]
    split
    · exact ⟨cooldown, rfl, Or.inl rfl⟩
    · exact ⟨s, rfl, Or.inr rfl⟩

/-- The larger text is the later instant, unless the two are confusable. -/
theorem laterCooldown_le {stored : Option Instant} {cooldown c : Instant}
    (h : ∀ s ∈ stored, ¬Instant.Confusable s cooldown)
    (hc : laterCooldown (stored.map Instant.text) cooldown.text = c.text) :
    cooldown ≤ c ∧ ∀ s ∈ stored, s ≤ c := by
  cases stored with
  | none =>
    obtain rfl := Instant.text_injective hc
    exact ⟨Nat.le_refl _, fun s hs => by simp at hs⟩
  | some s =>
    have horder := Instant.text_lt_of_not_confusable (h s rfl)
    simp only [Option.map_some, laterCooldown] at hc
    split at hc
    · rename_i hlt
      obtain rfl := Instant.text_injective hc
      have hle := horder.mp hlt
      refine ⟨Nat.le_refl _, fun t ht => ?_⟩
      obtain rfl := Option.some.inj ht
      exact Nat.le_of_lt hle
    · rename_i hlt
      obtain rfl := Instant.text_injective hc
      have hle : ¬ s < cooldown := fun hc => hlt (horder.mpr hc)
      refine ⟨Nat.le_of_not_lt hle, fun t ht => ?_⟩
      obtain rfl := Option.some.inj ht
      exact Nat.le_refl _

/-- What one call did. -/
inductive Ran (limits : Limits) : LimitCall → LimitOutcome → Limits → Prop
  | raised (c : LimitCall) : Ran limits c .raised limits
  | reserved {key : LimitKey} {requestedAt : Aware} {interval : Int} {granted : Bool}
      {limits' : Limits} (hpos : 0 < interval)
      (h : Reserved key requestedAt interval limits granted limits') :
    Ran limits (.reserve key requestedAt interval) (if granted then .granted else .denied) limits'
  | deferred {key : LimitKey} {requestedAt : Aware} {retryAfterSeconds : Int}
      {requested cooldown : Instant} (hat : (requested.us : Int) = requestedAt.position)
      (hend : (cooldown.us : Int) = requested.us + retryAfterSeconds * 1000000)
      (hretry : 0 ≤ retryAfterSeconds ∧ retryAfterSeconds ≤ 86400) :
    Ran limits (.defer key requestedAt retryAfterSeconds) .deferred
      (limits.set key (deferRow (limits key) requested.text cooldown.text))

theorem LimitCall.ran {limits : Limits} (hs : limits.Stored) (c : LimitCall) :
    Ran limits c (c.run limits).1 (c.run limits).2 := by
  cases c with
  | reserve key requestedAt interval =>
    rw [LimitCall.run]
    split
    · exact .raised _
    · rename_i h
      obtain ⟨hpos, hr⟩ := reserved_of_ok hs h
      exact Ran.reserved hpos hr
    · rename_i h
      obtain ⟨hpos, hr⟩ := reserved_of_ok hs h
      exact Ran.reserved hpos hr
  | defer key requestedAt retryAfterSeconds =>
    rw [LimitCall.run]
    split
    · exact .raised _
    · rename_i h
      obtain ⟨requested, cooldown, hat, hend, h0, h1, rfl⟩ := deferred_of_ok h
      exact .deferred hat hend ⟨h0, h1⟩

theorem Limits.Stored.set {limits : Limits} (hs : limits.Stored) {key : LimitKey}
    {row : LimitRow} (hr : ∃ current cooldown, row.Stored current cooldown) :
    (limits.set key row).Stored := by
  intro key' row' h
  by_cases hk : key' = key
  · rw [hk, Limits.set_self] at h
    rw [← Option.some.inj h]
    exact hr
  · rw [Limits.set_of_ne hk] at h
    exact hs key' row' h

theorem stored_deferRow {row : Option LimitRow}
    (hs : ∀ r, row = some r → ∃ current cooldown, r.Stored current cooldown)
    (requested cooldown : Instant) :
    ∃ current c, (deferRow row requested.text cooldown.text).Stored current c := by
  cases row with
  | none => exact ⟨requested, some cooldown, rfl, rfl⟩
  | some r =>
    obtain ⟨current, stored, hr⟩ := hs r rfl
    obtain ⟨c, hc, _⟩ := laterCooldown_eq stored cooldown
    refine ⟨current, some c, hr.next_eq, ?_⟩
    rw [deferRow, hr.cooldown_eq, hc]
    rfl

/-- Every table that the methods build holds texts that `_timestamp` wrote. -/
theorem Ran.stored {limits limits' : Limits} {c : LimitCall} {outcome : LimitOutcome}
    (hs : limits.Stored) (h : Ran limits c outcome limits') : limits'.Stored := by
  cases h with
  | raised => exact hs
  | reserved hpos h =>
    cases h with
    | first => exact hs.set ⟨_, none, rfl, rfl⟩
    | again hat hnext hrow hstored hd =>
      cases hd with
      | cooling => exact hs.set ⟨_, _, hstored⟩
      | early => exact hs.set ⟨_, _, hstored⟩
      | stale => exact hs.set ⟨_, none, rfl, rfl⟩
      | due => exact hs.set ⟨_, none, rfl, rfl⟩
  | deferred hat hend hretry => exact hs.set (stored_deferRow (hs _) _ _)

end SteamAgent.Storage
