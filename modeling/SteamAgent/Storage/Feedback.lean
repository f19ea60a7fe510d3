import Mathlib
import SteamAgent.Logs.Replay
import SteamAgent.Storage.Tables

/-!
# Explicit feedback

The two event logs, the three projections, and the methods that write them and
read them back.  Each method validates its arguments and then runs one immediate
transaction, which commits as a whole or is rolled back.

A stamp is a `datetime` or an ISO text.  What `datetime.fromisoformat` makes of a
text is a parameter.

There are four groups.

* Values, stamps and the checks of arguments.
* The rows, the logs and the database.
* `apply_explicit_feedback_fields` and the methods on traits.
* The methods on preference rules, and the listings.
-/

namespace SteamAgent.Storage.Feedback

open Logs
open Datetime (Aware)

/-! ## Arguments -/

/-- `str | int | None`, and `bool`, which is an `int` too. -/
inductive Value where
  | null
  | text (s : String)
  | integer (n : Int)
  | boolean (b : Bool)
deriving DecidableEq, Repr

/-- `str | datetime`. -/
inductive Stamp where
  | text (s : String)
  | instant (value : Aware)

/-- `datetime.fromisoformat` and the check for a timezone, after a final `Z` has
become an offset. -/
abbrev FromIsoFormat :=
  String → Except Exn Aware

/-- `_timestamp`. -/
def Stamp.timestamp (iso : FromIsoFormat) : Stamp → Except Exn String
  | .text s => iso s >>= Storage.timestamp
  | .instant value => Storage.timestamp value

/-- The keys of `fields`. -/
inductive Field where
  | rating
  | playState
  | snooze
  | minimumSessionMinutes
  | remainingMinutes
deriving DecidableEq, Repr

/-- `fields.get`. -/
def Field.parse : String → Option Field
  | "rating" => some .rating
  | "play_state" => some .playState
  | "snooze" => some .snooze
  | "minimum_session_minutes" => some .minimumSessionMinutes
  | "remaining_minutes" => some .remainingMinutes
  | _ => none

/-- The fields as `ORDER BY event_kind` gives them. -/
def Field.sorted : List Field :=
  [.minimumSessionMinutes, .playState, .rating, .remainingMinutes, .snooze]

/-- The check of one of the estimates. -/
def checkEstimate : Value → Except Exn Unit
  | .null => .ok ()
  | .integer n => require (0 ≤ n ∧ n ≤ 2 ^ 32 - 1) (.valueError "explicit estimate is invalid")
  | _ => .error (.valueError "explicit estimate is invalid")

/-- The check of a value against its field. -/
def Field.check (iso : FromIsoFormat) : Field → Value → Except Exn Unit
  | .rating, value =>
    require (value ∈ [.null, .text "liked", .text "disliked", .text "neutral"])
      (.valueError "explicit feedback value is invalid")
  | .playState, value =>
    require (value ∈ [.null, .text "finished", .text "user_abandoned", .text "active"])
      (.valueError "explicit feedback value is invalid")
  | .snooze, .null => .ok ()
  | .snooze, .text s => do
    let _ ← (Stamp.text s).timestamp iso
  | .snooze, _ => .error (.valueError "snooze timestamp is invalid")
  | .minimumSessionMinutes, value => checkEstimate value
  | .remainingMinutes, value => checkEstimate value

/-- One turn of the loop that validates the changes. -/
def validateChange (iso : FromIsoFormat) (change : String × Value) : Except Exn (Field × Value) :=
  match Field.parse change.1 with
  | none => .error (.valueError "unsupported explicit feedback field")
  | some field => do
    field.check iso change.2
    return (field, change.2)

/-- `character.islower() or character.isdigit()`, for an ASCII character. -/
def lowerOrDigit (c : Char) : Bool :=
  c.isLower || c.isDigit

/-- `_user_trait`. -/
def userTrait (value : String) : Except Exn String := do
  require (value.startsWith "user:") (.valueError "trait must use the user namespace")
  let slug := value.toList.drop 5
  require (1 ≤ slug.length ∧ slug.length ≤ 59) (.valueError "user trait is invalid")
  require (slug.head?.any lowerOrDigit) (.valueError "user trait is invalid")
  require (slug.getLast?.any lowerOrDigit) (.valueError "user trait is invalid")
  require (slug.all fun c => lowerOrDigit c || "._-".toList.contains c)
    (.valueError "user trait is invalid")
  return value

/-! ## Rows -/

/-- `event_kind`. -/
inductive EventKind where
  | field (f : Field)
  | trait
deriving DecidableEq, Repr

/-- `explicit_feedback_events`. -/
structure FeedbackEvent where
  accountId : Nat
  appid : Int
  eventKind : EventKind
  valueText : Option String
  valueInteger : Option Int
  trait : Option String
  recordedAt : String
deriving DecidableEq

/-- The columns of `explicit_feedback_current` that hold a field. -/
structure Columns where
  rating : Value
  playState : Value
  snoozedUntil : Value
  minimumSessionMinutes : Value
  remainingMinutes : Value
deriving DecidableEq

def Columns.blank : Columns :=
  ⟨.null, .null, .null, .null, .null⟩

def Columns.get (c : Columns) : Field → Value
  | .rating => c.rating
  | .playState => c.playState
  | .snooze => c.snoozedUntil
  | .minimumSessionMinutes => c.minimumSessionMinutes
  | .remainingMinutes => c.remainingMinutes

def Columns.set (c : Columns) (value : Value) : Field → Columns
  | .rating => { c with rating := value }
  | .playState => { c with playState := value }
  | .snooze => { c with snoozedUntil := value }
  | .minimumSessionMinutes => { c with minimumSessionMinutes := value }
  | .remainingMinutes => { c with remainingMinutes := value }

/-- `explicit_feedback_current`, by account and AppID. -/
structure FeedbackRow where
  columns : Columns
  updatedAt : String
  lastEventId : Nat
deriving DecidableEq

/-- `explicit_trait_current`, by account, AppID and trait. -/
structure TraitRow where
  value : String
  updatedAt : String
  lastEventId : Nat
deriving DecidableEq

/-- `preference_rule_events`.  A rule is `none` where `action` is `remove`. -/
structure RuleEvent where
  accountId : Nat
  trait : String
  rule : Option (String × String × Int)
  recordedAt : String
deriving DecidableEq

/-- `preference_rules_current`, by account and trait: kind, strength and
weight. -/
structure RuleRow where
  rule : String × String × Int
  updatedAt : String
  lastEventId : Nat
deriving DecidableEq

/-- The tables of feedback, and those that its rows refer to.  `identities` are
the AppIDs in `external_game_identities`. -/
structure FeedbackDb where
  accounts : List Account
  steamApps : List Int
  identities : List Int
  events : Log FeedbackEvent
  current : Table (Nat × Int) FeedbackRow
  traits : Table (Nat × Int × String) TraitRow
  ruleEvents : Log RuleEvent
  rules : Table (Nat × String) RuleRow

namespace FeedbackDb

/-- No feedback. -/
def empty (accounts : List Account) (steamApps identities : List Int) : FeedbackDb :=
  ⟨accounts, steamApps, identities, .empty, ∅, ∅, .empty, ∅⟩

/-- `_require_steam_account`. -/
def requireSteamAccount (db : FeedbackDb) (accountId : Nat) : Except Exn Unit :=
  require (∃ a ∈ db.accounts, a.id = accountId ∧ a.provider = "steam")
    (.valueError "Steam account is not configured")

/-- `_ensure_steam_application_identity`. -/
def ensureSteamApplicationIdentity (db : FeedbackDb) (appid : Int) : Except Exn FeedbackDb := do
  require (0 < appid) .integrityError
  let steamApps := if appid ∈ db.steamApps then db.steamApps else appid :: db.steamApps
  if appid ∈ db.identities then
    return { db with steamApps := steamApps }
  else
    require (appid ≤ 2 ^ 32 - 1) (.valueError "Steam application AppID is invalid")
    return { db with steamApps := steamApps, identities := appid :: db.identities }

/-- The identity is ensured unless it has been in the same call. -/
def ensureOnce (db : FeedbackDb) (ensured : Bool) (appid : Int) : Except Exn FeedbackDb :=
  if ensured then .ok db else db.ensureSteamApplicationIdentity appid

end FeedbackDb

/-! ## Fields and traits -/

/-- `FeedbackChange`. -/
structure FeedbackChange where
  field : EventKind
  changed : Bool
  eventId : Option Nat
  trait : Option String
deriving DecidableEq

/-- The condition under which a field stays as it is. -/
def unchanged (existing : Option FeedbackRow) (field : Field) (value : Value) : Bool :=
  match existing with
  | none => value = .null
  | some row => row.columns.get field = value

/-- The event of a change. -/
def changeEvent (accountId : Nat) (appid : Int) (field : Field) (value : Value)
    (timestamp : String) : FeedbackEvent where
  accountId := accountId
  appid := appid
  eventKind := .field field
  valueText := match value with
    | .text s => some s
    | _ => none
  valueInteger := match value with
    | .integer n => some n
    | _ => none
  trait := none
  recordedAt := timestamp

/-- The upsert of `explicit_feedback_current` and the update of one column. -/
def writeField (existing : Option FeedbackRow) (field : Field) (value : Value) (timestamp : String)
    (eventId : Nat) : FeedbackRow :=
  let columns := match existing with
    | none => Columns.blank
    | some row => row.columns
  ⟨columns.set value field, timestamp, eventId⟩

/-- One turn of the loop that applies the changes. -/
def applyChange (accountId : Nat) (appid : Int) (timestamp : String) (ensured : Bool)
    (db : FeedbackDb) (change : Field × Value) :
    Except Exn (FeedbackChange × Bool × FeedbackDb) := do
  let existing := db.current.lookup (accountId, appid)
  if unchanged existing change.1 change.2 then
    return (⟨.field change.1, false, none, none⟩, ensured, db)
  else
    let db ← db.ensureOnce ensured appid
    let event := changeEvent accountId appid change.1 change.2 timestamp
    let eventId := (db.events.next event).id
    let row := writeField existing change.1 change.2 timestamp eventId
    return (⟨.field change.1, true, some eventId, none⟩, true,
      { db with
        events := db.events.append event
        current := db.current.put (accountId, appid) (some row) })

/-- The loop that applies the changes. -/
def applyChanges (accountId : Nat) (appid : Int) (timestamp : String) :
    Bool → FeedbackDb → List (Field × Value) → Except Exn (List FeedbackChange × FeedbackDb)
  | _, db, [] => .ok ([], db)
  | ensured, db, change :: rest => do
    let (output, ensured, db) ← applyChange accountId appid timestamp ensured db change
    let (outputs, db) ← applyChanges accountId appid timestamp ensured db rest
    return (output :: outputs, db)

/-- `_remove_empty_feedback_current`. -/
def FeedbackDb.removeEmptyFeedbackCurrent (db : FeedbackDb) (accountId : Nat) (appid : Int) :
    FeedbackDb :=
  match db.current.lookup (accountId, appid) with
  | none => db
  | some row =>
    if row.columns = .blank then
      { db with current := db.current.put (accountId, appid) none }
    else db

/-- The transaction of `apply_explicit_feedback_fields`. -/
def applyValidated (accountId : Nat) (appid : Int) (validated : List (Field × Value))
    (timestamp : String) (db : FeedbackDb) : Except Exn (List FeedbackChange × FeedbackDb) := do
  db.requireSteamAccount accountId
  let (output, db) ← applyChanges accountId appid timestamp false db validated
  return (output, db.removeEmptyFeedbackCurrent accountId appid)

/-- `apply_explicit_feedback_fields`. -/
def applyExplicitFeedbackFields (iso : FromIsoFormat) (accountId : Nat) (appid : Int)
    (changes : List (String × Value)) (recordedAt : Stamp) (db : FeedbackDb) :
    Except Exn (List FeedbackChange × FeedbackDb) := do
  require (changes ≠ [] ∧ (changes.map Prod.fst).Nodup)
    (.valueError "explicit feedback changes must be non-empty and unique")
  let validated ← changes.mapM (validateChange iso)
  let timestamp ← recordedAt.timestamp iso
  applyValidated accountId appid validated timestamp db

/-- The event of a trait. -/
def traitEvent (accountId : Nat) (appid : Int) (trait : String) (value : Option String)
    (timestamp : String) : FeedbackEvent :=
  ⟨accountId, appid, .trait, value, none, some trait, timestamp⟩

/-- `set_explicit_trait`. -/
def setExplicitTrait (iso : FromIsoFormat) (accountId : Nat) (appid : Int) (trait value : String)
    (recordedAt : Stamp) (db : FeedbackDb) : Except Exn (FeedbackChange × FeedbackDb) := do
  let trait ← userTrait trait
  require (value ∈ ["present", "absent", "unknown"]) (.valueError "explicit trait value is invalid")
  let timestamp ← recordedAt.timestamp iso
  db.requireSteamAccount accountId
  let db ← db.ensureSteamApplicationIdentity appid
  if (db.traits.lookup (accountId, appid, trait)).any fun row => row.value = value then
    return (⟨.trait, false, none, some trait⟩, db)
  else
    let event := traitEvent accountId appid trait (some value) timestamp
    let eventId := (db.events.next event).id
    return (⟨.trait, true, some eventId, some trait⟩,
      { db with
        events := db.events.append event
        traits := db.traits.put (accountId, appid, trait) (some ⟨value, timestamp, eventId⟩) })

/-- `clear_explicit_trait`. -/
def clearExplicitTrait (iso : FromIsoFormat) (accountId : Nat) (appid : Int) (trait : String)
    (recordedAt : Stamp) (db : FeedbackDb) : Except Exn (FeedbackChange × FeedbackDb) := do
  let trait ← userTrait trait
  let timestamp ← recordedAt.timestamp iso
  db.requireSteamAccount accountId
  if db.traits.lookup (accountId, appid, trait) = none then
    return (⟨.trait, false, none, some trait⟩, db)
  else
    let event := traitEvent accountId appid trait none timestamp
    let db := { db with
      events := db.events.append event
      traits := db.traits.put (accountId, appid, trait) none }
    return (⟨.trait, true, some db.events.last, some trait⟩,
      db.removeEmptyFeedbackCurrent accountId appid)

/-! ## Rules -/

/-- The check of a weight. -/
def checkWeight : Value → Except Exn Int
  | .integer n => do
    require (0 ≤ n ∧ n ≤ 100) (.valueError "preference weight is invalid")
    return n
  | _ => .error (.valueError "preference weight is invalid")

/-- `set_preference_rule`. -/
def setPreferenceRule (iso : FromIsoFormat) (accountId : Nat) (trait kind strength : String)
    (weight : Value) (recordedAt : Stamp) (db : FeedbackDb) : Except Exn (Nat × FeedbackDb) := do
  let trait ← userTrait trait
  require (kind ∈ ["prefer", "avoid", "require"]) (.valueError "preference kind is invalid")
  require (strength ∈ ["soft", "hard"]) (.valueError "preference strength is invalid")
  let weight ← checkWeight weight
  let timestamp ← recordedAt.timestamp iso
  db.requireSteamAccount accountId
  let existing := db.rules.lookup (accountId, trait)
  match existing.filter fun row => row.rule = (kind, strength, weight) with
  | some row => return (row.lastEventId, db)
  | none =>
    let event : RuleEvent := ⟨accountId, trait, some (kind, strength, weight), timestamp⟩
    let eventId := (db.ruleEvents.next event).id
    return (eventId, { db with
      ruleEvents := db.ruleEvents.append event
      rules := db.rules.put (accountId, trait) (some ⟨(kind, strength, weight), timestamp, eventId⟩) })

/-- `remove_preference_rule`. -/
def removePreferenceRule (iso : FromIsoFormat) (accountId : Nat) (trait : String)
    (recordedAt : Stamp) (db : FeedbackDb) : Except Exn (Bool × FeedbackDb) := do
  let trait ← userTrait trait
  let timestamp ← recordedAt.timestamp iso
  db.requireSteamAccount accountId
  if db.rules.lookup (accountId, trait) = none then
    return (false, db)
  else
    return (true, { db with
      ruleEvents := db.ruleEvents.append ⟨accountId, trait, none, timestamp⟩
      rules := db.rules.put (accountId, trait) none })

/-! ## Listings -/

/-- `ExplicitTrait`. -/
structure ExplicitTrait where
  trait : String
  row : TraitRow

/-- `ExplicitFeedback`, without the game id, which the AppID determines. -/
structure ExplicitFeedback where
  accountId : Nat
  appid : Int
  columns : Columns
  updatedAt : Option String
  lastEventId : Option Nat
  traits : List ExplicitTrait
  fieldEventIds : List (Field × Nat)

/-- `trait IS NULL AND event_kind = ?`, for an account and an AppID. -/
def isFieldEvent (accountId : Nat) (appid : Int) (field : Field) (e : Entry FeedbackEvent) : Bool :=
  e.event.accountId = accountId && e.event.appid = appid && e.event.trait = none &&
    e.event.eventKind = .field field

/-- `SELECT event_kind, MAX(id) … GROUP BY event_kind ORDER BY event_kind`. -/
def fieldEventIds (db : FeedbackDb) (accountId : Nat) (appid : Int) : List (Field × Nat) :=
  Field.sorted.filterMap fun field =>
    ((db.events.entries.filter (isFieldEvent accountId appid field)).map Entry.id).max?.map
      fun id => (field, id)

instance trait_isTrans : IsTrans String fun a b => a ≤ b := inferInstance

instance trait_antisymm : Std.Antisymm fun a b : String => a ≤ b := inferInstance

instance trait_total : Std.Total fun a b : String => a ≤ b := inferInstance

/-- The traits of an app, `ORDER BY trait`. -/
def explicitTraits (db : FeedbackDb) (accountId : Nat) (appid : Int) : List ExplicitTrait :=
  let keys := db.traits.keys.filter fun k => k.1 = accountId ∧ k.2.1 = appid
  ((keys.image fun k => k.2.2).sort).filterMap fun trait =>
    (db.traits.lookup (accountId, appid, trait)).map fun row => ⟨trait, row⟩

/-- The AppIDs of both tables, `ORDER BY appid`. -/
def feedbackAppids (db : FeedbackDb) (accountId : Nat) (appid : Option Int) : List Int :=
  let wanted (account : Nat) (app : Int) : Bool := account = accountId && appid.all (· = app)
  let fields := (db.current.keys.filter fun k => wanted k.1 k.2).image fun k => k.2
  let traits := (db.traits.keys.filter fun k => wanted k.1 k.2.1).image fun k => k.2.1
  (fields ∪ traits).sort

/-- `list_explicit_feedback`.  Its `SELECT`s stand outside a transaction; here they
read one state, so a mutator that commits between two of them is left out. -/
def listExplicitFeedback (db : FeedbackDb) (accountId : Nat) (appid : Option Int) :
    List ExplicitFeedback :=
  (feedbackAppids db accountId appid).map fun app =>
    let current := db.current.lookup (accountId, app)
    { accountId := accountId
      appid := app
      columns := (current.map FeedbackRow.columns).getD .blank
      updatedAt := current.map FeedbackRow.updatedAt
      lastEventId := current.map FeedbackRow.lastEventId
      traits := explicitTraits db accountId app
      fieldEventIds := fieldEventIds db accountId app }

end SteamAgent.Storage.Feedback
