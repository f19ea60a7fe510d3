import Mathlib.Data.List.Nodup
import SteamAgent.Execution.Errors

/-!
# The operation ledger: rows, events and atomic transactions

The tables of `ExecutionLedger` and its transaction blocks.  `_transaction`
makes each block atomic, so a block is a function from the database to an
answer and the next database.  A block that raises rolls back.

There are four groups.

* `OperationState`, `terminalStates` (`TERMINAL_STATES`) and `transitions`
  (`_TRANSITIONS`).
* `Row` and `Event`, the rows of the two tables, and `Db`.  Of the columns,
  `schema`, `created_at`, `updated_at` and `events.at` are left out: nothing
  in the broker decides on them.
* The two partial unique indexes.  An index that was not created yet
  constrains nothing, and the single-active index carries the terminal set it
  was created with.
* `Txn`, one constructor for each transaction block, and `Txn.run`.
-/

namespace SteamAgent.Execution.Ledger

/-- Seconds since the epoch.  The ledger stamps whole seconds in one fixed
format, so its text comparisons are comparisons of these numbers. -/
abbrev Stamp := Int

/-- `OperationState`. -/
inductive OperationState where
  | pendingConfirmation
  | authorized
  | dispatchPending
  | leaseAcquired
  | clientStopping
  | contentRunning
  | adopting
  | clientRestartPending
  | verifying
  | interrupted
  | confirmed
  | unconfirmed
  | contradicted
  | aborted
  | failed
  | expired
  | dispatched
deriving DecidableEq, Repr

/-- The text of a state in the `state` column. -/
def OperationState.text : OperationState → String
  | .pendingConfirmation => "pending_confirmation"
  | .authorized => "authorized"
  | .dispatchPending => "dispatch_pending"
  | .leaseAcquired => "lease_acquired"
  | .clientStopping => "client_stopping"
  | .contentRunning => "content_running"
  | .adopting => "adopting"
  | .clientRestartPending => "client_restart_pending"
  | .verifying => "verifying"
  | .interrupted => "interrupted"
  | .confirmed => "confirmed"
  | .unconfirmed => "unconfirmed"
  | .contradicted => "contradicted"
  | .aborted => "aborted"
  | .failed => "failed"
  | .expired => "expired"
  | .dispatched => "dispatched"

/-- `TERMINAL_STATES`. -/
def terminalStates : List OperationState :=
  [.confirmed, .unconfirmed, .contradicted, .aborted, .failed, .expired, .dispatched]

/-- Membership in `TERMINAL_STATES`. -/
def OperationState.terminal (s : OperationState) : Bool :=
  terminalStates.contains s

/-- `_TRANSITIONS`.  A state without an entry has no successor. -/
def transitions : OperationState → List OperationState
  | .pendingConfirmation => [.authorized, .expired, .aborted]
  | .authorized => [.leaseAcquired, .dispatchPending, .expired, .aborted]
  | .dispatchPending => [.dispatched, .unconfirmed]
  | .leaseAcquired => [.clientStopping, .aborted, .interrupted]
  | .clientStopping => [.contentRunning, .aborted, .interrupted]
  | .contentRunning => [.adopting, .failed, .interrupted, .aborted]
  | .adopting => [.clientRestartPending, .interrupted, .failed]
  | .clientRestartPending => [.verifying, .interrupted]
  | .verifying => [.confirmed, .unconfirmed, .contradicted]
  | .interrupted => [.contentRunning, .adopting, .verifying, .failed, .aborted]
  | _ => []

/-- A terminal state has no successor. -/
theorem transitions_of_terminal {s : OperationState} (h : s.terminal = true) :
    transitions s = [] := by
  revert h
  cases s <;> decide

/-- `_SUPPORTED_OPERATIONS`. -/
inductive Operation where
  | install
  | verify
  | launch
  | stop
deriving DecidableEq, Repr

/-- The text of an operation in the `operation` column. -/
def Operation.text : Operation → String
  | .install => "install"
  | .verify => "verify"
  | .launch => "launch"
  | .stop => "stop"

/-- The supported operation a text names. -/
def Operation.parse : String → Option Operation
  | "install" => some .install
  | "verify" => some .verify
  | "launch" => some .launch
  | "stop" => some .stop
  | _ => none

/-- A value in a plan document, as `json.loads` returns it.  Numbers that are
not integers, arrays and objects keep their text: no caller looks inside. -/
inductive PlanValue where
  | null
  | bool (b : Bool)
  | int (n : Int)
  | str (s : String)
  | other (text : String)
deriving DecidableEq, Repr

/-- A plan document, a JSON object with its keys in order. -/
abbrev PlanDocument := List (String × PlanValue)

/-- A row of the `operations` table. -/
structure Row where
  operationId : Nat
  planKey : String
  planDocument : PlanDocument
  operation : Operation
  appid : Nat
  accountAlias : String
  machineId : String
  state : OperationState
  policyVersion : String
  nonce : Option String
  nonceExpiresAt : Option Stamp
  confirmationActor : Option String
  executionWindowExpiresAt : Option Stamp
  priorClientRunning : Option Bool
  detail : Option String
deriving DecidableEq, Repr

/-- A row of the `events` table, in the order of `event_id`.  The source writes
`"none"` for the state before the first one. -/
structure Event where
  operationId : Nat
  fromState : Option OperationState
  toState : OperationState
  detail : Option String
deriving DecidableEq, Repr

/-- The state changes that the events record for one operation. -/
def changesAt (id : Nat) (es : List Event) : List (Option OperationState × OperationState) :=
  (es.filter fun e => e.operationId == id).map fun e => (e.fromState, e.toState)

/-- The ledger database.  `activeIndex` is the terminal set in the stored
definition of `one_active_operation`, and `planKeyIndex` says whether
`one_operation_per_plan_key` exists. -/
structure Db where
  tables : Bool
  operations : List Row
  events : List Event
  activeIndex : Option (List OperationState)
  planKeyIndex : Bool
deriving DecidableEq, Repr

namespace Db

/-- A database file before its first opener. -/
def empty : Db :=
  ⟨false, [], [], none, false⟩

/-- Whether `_migrate` has completed. -/
def opened (db : Db) : Bool :=
  db.tables && db.activeIndex == some terminalStates && db.planKeyIndex

/-- `SELECT … WHERE operation_id=?`. -/
def find (db : Db) (id : Nat) : Option Row :=
  db.operations.find? fun r => r.operationId == id

/-- The next `INTEGER PRIMARY KEY`: one past the largest. -/
def nextId (db : Db) : Nat :=
  (db.operations.map Row.operationId).foldr max 0 + 1

/-- `events`, without the time stamps: the state changes recorded for one
operation, oldest first. -/
def eventsOf (db : Db) (id : Nat) : List (Option OperationState × OperationState) :=
  changesAt id db.events

/-- Whether every unique index that exists is satisfied. -/
def unique (db : Db) : Bool :=
  (match db.activeIndex with
    | none => true
    | some terminal =>
      decide ((db.operations.filter fun r => !terminal.contains r.state).map Row.machineId).Nodup) &&
  (!db.planKeyIndex ||
    decide ((db.operations.filter fun r => r.state != .expired).map Row.planKey).Nodup)

/-- `UPDATE operations SET … WHERE …`. -/
def modify (db : Db) (hit : Row → Bool) (change : Row → Row) : Db :=
  { db with operations := db.operations.map fun r => if hit r then change r else r }

/-- `_event`, for a list of events. -/
def record (db : Db) (es : List Event) : Db :=
  { db with events := db.events ++ es }

/-- The end of a block that reached the candidate `db'`: a violated unique
index raises and rolls back to `db`. -/
def commit {α : Type} (db db' : Db) (a : α) : Except Exn α × Db :=
  if db'.unique then (.ok a, db') else (.error .integrityError, db)

end Db

/-! ## Transaction blocks -/

/-- The arguments of `ExecutionLedger.request`. -/
structure RequestArgs where
  planKey : String
  planDocument : PlanDocument
  operation : String
  appid : Nat
  accountAlias : String
  machineId : String
  policyVersion : String
  nonceTtlSeconds : Int
deriving DecidableEq, Repr

/-- The atomic blocks of `ExecutionLedger`.  The first three are the statements
of `_migrate`. -/
inductive Txn where
  | createTables
  | rebuildActiveIndex
  | createPlanKeyIndex
  /-- The insert of `request`. -/
  | insert (args : RequestArgs) (operation : Operation) (nonce : String) (expires : Stamp)
  /-- The update of `confirm`. -/
  | consume (nonce actor : String) (window now : Stamp)
  /-- The compare-and-set of `transition`. -/
  | update (id : Nat) (fromState toState : OperationState) (detail : Option String)
      (priorClientRunning : Option Bool)
  /-- The two updates of `expire_lapsed`. -/
  | expire (now : Stamp)
deriving DecidableEq, Repr

/-- What a block returns when it commits. -/
abbrev Txn.Ans : Txn → Type
  | .insert .. => Nat
  | .consume .. => Nat
  | .expire _ => List Nat
  | _ => Unit

/-- The row that `request` inserts. -/
def RequestArgs.row (args : RequestArgs) (operation : Operation) (id : Nat) (nonce : String)
    (expires : Stamp) : Row where
  operationId := id
  planKey := args.planKey
  planDocument := args.planDocument
  operation := operation
  appid := args.appid
  accountAlias := args.accountAlias
  machineId := args.machineId
  state := .pendingConfirmation
  policyVersion := args.policyVersion
  nonce := some nonce
  nonceExpiresAt := some expires
  confirmationActor := none
  executionWindowExpiresAt := none
  priorClientRunning := none
  detail := none

/-- The rows that `confirm` updates.  SQL reads a comparison with `NULL` as
false. -/
def consumable (nonce : String) (now : Stamp) (r : Row) : Bool :=
  r.nonce == some nonce && r.state == .pendingConfirmation &&
    r.nonceExpiresAt.any fun expires => decide (now < expires)

/-- The rows that `expire_lapsed` updates, for one of its two states. -/
def lapsed (state : OperationState) (column : Row → Option Stamp) (now : Stamp) (r : Row) : Bool :=
  r.state == state && (column r).any fun expires => decide (expires ≤ now)

def lapsedPending (now : Stamp) (r : Row) : Bool :=
  lapsed .pendingConfirmation Row.nonceExpiresAt now r

def lapsedAuthorized (now : Stamp) (r : Row) : Bool :=
  lapsed .authorized Row.executionWindowExpiresAt now r

/-- The rows that the compare-and-set of `transition` updates. -/
def expected (id : Nat) (fromState : OperationState) (r : Row) : Bool :=
  r.operationId == id && r.state == fromState

/-- The event of an expired row. -/
def expiry (state : OperationState) (r : Row) : Event :=
  ⟨r.operationId, some state, .expired, none⟩

namespace Txn

/-- `INSERT` of a pending row, after the search for a live row with its key. -/
def runInsert (db : Db) (args : RequestArgs) (operation : Operation) (nonce : String)
    (expires : Stamp) : Except Exn Nat × Db :=
  match db.operations.find? fun r => r.planKey == args.planKey && r.state != .expired with
  | some r =>
    (.error (.ledgerError ("idempotency key already recorded (state: " ++ r.state.text ++ ")")), db)
  | none =>
    let row := args.row operation db.nextId nonce expires
    db.commit
      (({ db with operations := db.operations ++ [row] } : Db).record
        [⟨db.nextId, none, .pendingConfirmation, none⟩])
      db.nextId

/-- The update of `confirm` with its `RETURNING` clause. -/
def runConsume (db : Db) (nonce actor : String) (window now : Stamp) : Except Exn Nat × Db :=
  match db.operations.find? (consumable nonce now) with
  | none => (.error (.confirmationRejected "nonce missing, already consumed, or expired"), db)
  | some r =>
    db.commit
      ((db.modify (consumable nonce now) fun r =>
          { r with
            state := .authorized, nonce := none, nonceExpiresAt := none,
            confirmationActor := some actor, executionWindowExpiresAt := some window }).record
        [⟨r.operationId, some .pendingConfirmation, .authorized, some actor⟩])
      r.operationId

/-- The compare-and-set of `transition`.  An absent `priorClientRunning` leaves
the column as it is. -/
def runUpdate (db : Db) (id : Nat) (fromState toState : OperationState) (detail : Option String)
    (priorClientRunning : Option Bool) : Except Exn Unit × Db :=
  if db.operations.countP (expected id fromState) ≠ 1 then
    (.error (.invalidTransition "operation state changed concurrently"), db)
  else
    db.commit
      ((db.modify (expected id fromState) fun r =>
          { r with
            state := toState, detail := detail,
            priorClientRunning := priorClientRunning.or r.priorClientRunning }).record
        [⟨id, some fromState, toState, detail⟩])
      ()

/-- The updates of `expire_lapsed`, pending rows first. -/
def runExpire (db : Db) (now : Stamp) : Except Exn (List Nat) × Db :=
  let pending := db.operations.filter (lapsedPending now)
  let authorized := db.operations.filter (lapsedAuthorized now)
  db.commit
    ((db.modify (fun r => lapsedPending now r || lapsedAuthorized now r)
        fun r => { r with state := .expired }).record
      (pending.map (expiry .pendingConfirmation) ++ authorized.map (expiry .authorized)))
    ((pending ++ authorized).map Row.operationId)

/-- One atomic block.  A statement on a missing table raises. -/
def run (db : Db) : (t : Txn) → Except Exn t.Ans × Db
  | createTables => (.ok (), { db with tables := true })
  | rebuildActiveIndex =>
    if db.tables then db.commit { db with activeIndex := some terminalStates } ()
    else (.error .sqliteError, db)
  | createPlanKeyIndex =>
    if db.tables then db.commit { db with planKeyIndex := true } ()
    else (.error .sqliteError, db)
  | insert args operation nonce expires =>
    if db.tables then runInsert db args operation nonce expires else (.error .sqliteError, db)
  | consume nonce actor window now =>
    if db.tables then runConsume db nonce actor window now else (.error .sqliteError, db)
  | update id fromState toState detail prior =>
    if db.tables then runUpdate db id fromState toState detail prior else (.error .sqliteError, db)
  | expire now =>
    if db.tables then runExpire db now else (.error .sqliteError, db)

end Txn

end SteamAgent.Execution.Ledger
