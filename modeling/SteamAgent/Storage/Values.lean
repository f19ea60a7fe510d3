import SteamAgent.Stdlib.Datetime

/-!
# Values that storage normalises

`_timestamp`, the way back, and the exceptions of storage.

A caller passes a `datetime`.  The ISO texts that callers may pass instead are
left out: `_timestamp` turns them into the same `datetime` first.
-/

namespace SteamAgent.Storage

open Datetime (Instant Aware)

/-- The exceptions that the storage methods raise. -/
inductive Exn where
  | valueError (message : String)
  | overflowError
  | storageError (message : String)
  | invalidSyncTransition (message : String)
  | unknownSyncRun (id : Nat)
  | integrityError
deriving DecidableEq, Repr

/-- Raise unless a condition holds. -/
def require (p : Prop) [Decidable p] (x : Exn) : Except Exn Unit :=
  if p then .ok () else .error x

@[simp] theorem require_eq_ok {p : Prop} [Decidable p] {x : Exn} {u : Unit} :
    require p x = .ok u ↔ p := by
  unfold require
  split <;> simp_all

/-- A computation that returns went through each of its parts. -/
theorem bind_eq_ok {α β : Type} {x : Except Exn α} {f : α → Except Exn β} {b : β} :
    (x >>= f) = .ok b ↔ ∃ a, x = .ok a ∧ f a = .ok b := by
  cases x with
  | error e => simp [bind, Except.bind]
  | ok a => simp [bind, Except.bind]

/-- The instant of a `datetime`. -/
def instantOf (value : Aware) : Except Exn Instant :=
  match value.utc with
  | some i => .ok i
  | none => .error .overflowError

/-- `_timestamp`. -/
def timestamp (value : Aware) : Except Exn String :=
  (instantOf value).map Instant.text

/-- `datetime.fromisoformat(text.replace("Z", "+00:00"))`. -/
def readInstant (text : String) : Except Exn Instant :=
  match Instant.parse text with
  | some i => .ok i
  | none => .error (.valueError ("Invalid isoformat string: " ++ text))

/-- `value + timedelta(microseconds=us)`. -/
def later (value : Instant) (us : Nat) : Except Exn Instant :=
  match value.add us with
  | some i => .ok i
  | none => .error .overflowError

/-- `value - timedelta(microseconds=us)`. -/
def earlier (value : Instant) (us : Nat) : Except Exn Instant :=
  match if us ≤ value.us then Instant.ofUs (value.us - us) else none with
  | some i => .ok i
  | none => .error .overflowError

@[simp] theorem readInstant_text (i : Instant) : readInstant i.text = .ok i := by
  rw [readInstant, Instant.parse_text]

@[simp] theorem instantOf_ofInstant (i : Instant) : instantOf (Aware.ofInstant i) = .ok i := by
  rw [instantOf, Aware.utc_ofInstant]

@[simp] theorem timestamp_ofInstant (i : Instant) : timestamp (Aware.ofInstant i) = .ok i.text := by
  rw [timestamp, instantOf_ofInstant]
  rfl

theorem us_of_instantOf {value : Aware} {i : Instant} (h : instantOf value = .ok i) :
    (i.us : Int) = value.position := by
  unfold instantOf at h
  split at h
  · rename_i hutc
    rw [← Except.ok.inj h]
    exact Aware.us_of_utc hutc
  · simp at h

theorem us_of_later {value i : Instant} {us : Nat} (h : later value us = .ok i) :
    i.us = value.us + us := by
  unfold later at h
  split at h
  · rename_i hadd
    rw [← Except.ok.inj h]
    exact Instant.us_of_add hadd
  · simp at h

/-! ## Some days -/

theorem tenDays_lt (us : Nat) :
    63839707200000000 + us % 864000000000 < Datetime.maxMicroseconds := by
  have h := Nat.mod_lt us (y := 864000000000) (by decide)
  unfold Datetime.maxMicroseconds
  omega

/-- Microseconds after noon of 2024-01-01, within ten days. -/
def sinceNoon (us : Nat) : Instant :=
  ⟨63839707200000000 + us % 864000000000, tenDays_lt us⟩

end SteamAgent.Storage
