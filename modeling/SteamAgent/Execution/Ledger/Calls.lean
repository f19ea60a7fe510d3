import SteamAgent.Effects.System
import SteamAgent.Execution.Ledger.State

/-!
# The methods of `ExecutionLedger`

Each method is a program over five calls: the clock, the nonce generator, two
reads outside any transaction, and an atomic block.  Between two calls of one
method any other connection may run.

`LedgerCall.perform` is the meaning of the calls.  The clock answers anything.
A nonce is fresh.  A read sees the committed database.  A block either runs as
`Txn.run` says or raises `sqlite3.Error` and leaves the database as it is.

`minted` is not part of the database.  It records which process minted which
nonce.
-/

namespace SteamAgent.Execution.Ledger

open Effects

/-- The calls of the ledger methods. -/
inductive LedgerCall where
  /-- `_stamp(_utcnow())`. -/
  | utcnow
  /-- `secrets.token_hex(16)`. -/
  | tokenHex
  /-- The `SELECT` of `get`. -/
  | selectOperation (id : Nat)
  /-- The `SELECT` of `active`. -/
  | selectActive
  /-- A block inside `_transaction`. -/
  | transaction (t : Txn)
deriving DecidableEq

/-- The answers to the calls. -/
abbrev LedgerCall.Ans : LedgerCall → Type
  | .utcnow => Stamp
  | .tokenHex => String
  | .selectOperation _ => Except Exn (Option Row)
  | .selectActive => Except Exn (Option Nat)
  | .transaction t => Except Exn t.Ans

/-- The signature of the ledger. -/
abbrev LedgerSig : Sig :=
  ⟨LedgerCall, LedgerCall.Ans⟩

/-- The database, and the nonces minted so far with the process that minted
each. -/
structure LedgerWorld where
  db : Db
  minted : List (String × Nat)
deriving DecidableEq

/-- What a call of process `i` may answer and change. -/
def LedgerCall.perform (i : Nat) (w : LedgerWorld) :
    (c : LedgerCall) → c.Ans → LedgerWorld → Prop
  | .utcnow, _, w' => w' = w
  | .tokenHex, nonce, w' =>
    nonce ∉ w.minted.map Prod.fst ∧ w' = { w with minted := (nonce, i) :: w.minted }
  | .selectOperation id, a, w' =>
    w' = w ∧ (a = .ok (w.db.find id) ∨ a = .error .sqliteError)
  | .selectActive, a, w' =>
    w' = w ∧ ((∃ r ∈ w.db.operations, r.state.terminal = false ∧ a = .ok (some r.operationId)) ∨
      ((∀ r ∈ w.db.operations, r.state.terminal = true) ∧ a = .ok none) ∨ a = .error .sqliteError)
  | .transaction t, a, w' =>
    (a = (t.run w.db).1 ∧ w' = { w with db := (t.run w.db).2 }) ∨
      (a = .error .sqliteError ∧ w' = w)

/-- A program over the ledger. -/
abbrev Method := Prog LedgerSig Exn

/-! ## Single calls -/

/-- `_utcnow`, as the stamp it is stored as. -/
def utcnow : Method Stamp :=
  Prog.ask (S := LedgerSig) .utcnow

/-- `with self._transaction(): …`. -/
def transaction (t : Txn) : Method t.Ans := do
  let a : Except Exn t.Ans ← Prog.ask (S := LedgerSig) (.transaction t)
  Prog.ofExcept a

/-- `repr` of a state's text. -/
def OperationState.quoted (s : OperationState) : String :=
  "'" ++ s.text ++ "'"

/-! ## Methods -/

/-- The constructor, for a writable ledger: `_migrate` with
`_rebuild_active_index`. -/
def connect : Method Unit := do
  transaction .createTables
  transaction .rebuildActiveIndex
  transaction .createPlanKeyIndex

/-- `get`. -/
def get (id : Nat) : Method Row := do
  let a : Except Exn (Option Row) ← Prog.ask (S := LedgerSig) (.selectOperation id)
  match ← Prog.ofExcept a with
  | none => .raise (.ledgerError ("operation " ++ toString id ++ " does not exist"))
  | some r => return r

/-- `active`. -/
def active : Method (Option Row) := do
  let a : Except Exn (Option Nat) ← Prog.ask (S := LedgerSig) .selectActive
  match ← Prog.ofExcept a with
  | none => return none
  | some id =>
    let r ← get id
    return some r

/-- `expire_lapsed`. -/
def expireLapsed : Method (List Nat) := do
  let now ← utcnow
  transaction (.expire now)

/-- `request`.  The nonce is minted and lapsed rows are expired before the
insert; the expiry is a committed block of its own. -/
def request (args : RequestArgs) : Method (Nat × String) :=
  match Operation.parse args.operation with
  | none => .raise (.unsupportedLedger "unsupported ledger operation")
  | some operation => do
    let nonce : String ← Prog.ask (S := LedgerSig) .tokenHex
    let _ ← expireLapsed
    let now ← utcnow
    match ← (transaction (.insert args operation nonce (now + args.nonceTtlSeconds))).attempt with
    | .ok id => return (id, nonce)
    | .error .integrityError =>
      .raise (.ledgerError "another operation is already active for this machine")
    | .error x => .raise x

/-- `confirm`. -/
def confirm (nonce actor : String) (executionWindowSeconds : Int) : Method Nat := do
  let now ← utcnow
  transaction (.consume nonce actor (now + executionWindowSeconds) now)

/-- `transition`.  The row is read outside the transaction, and the update
pins the state that was read. -/
def transition (id : Nat) (toState : OperationState) (detail : Option String)
    (priorClientRunning : Option Bool) (expectedFrom : Option OperationState) : Method Unit := do
  let current ← get id
  match expectedFrom.filter (· != current.state) with
  | some state =>
    .raise (.invalidTransition ("expected " ++ state.quoted ++ ", found " ++ current.state.quoted))
  | none =>
    if !(transitions current.state).contains toState then
      .raise (.invalidTransition
        (current.state.quoted ++ " cannot transition to " ++ toState.quoted))
    else
      transaction (.update id current.state toState detail priorClientRunning)

/-- `plan_document`, which reads the row again. -/
def planDocument (id : Nat) : Method PlanDocument := do
  let r ← get id
  return r.planDocument

/-- `window_valid`. -/
def windowValid (id : Nat) : Method Bool := do
  let r ← get id
  match r.executionWindowExpiresAt with
  | none => return false
  | some expires =>
    let now ← utcnow
    return decide (now < expires)

/-! ## Calls issued by a connection -/

/-- One call that a connection issues. -/
inductive LedgerMethod where
  | connect
  | request (args : RequestArgs)
  | confirm (nonce actor : String) (executionWindowSeconds : Int)
  | transition (id : Nat) (toState : OperationState) (detail : Option String)
      (priorClientRunning : Option Bool) (expectedFrom : Option OperationState)
  | expireLapsed

/-- The program of a call, with its result dropped. -/
def LedgerMethod.program : LedgerMethod → Method Unit
  | .connect => Ledger.connect
  | .request args => do let _ ← Ledger.request args
  | .confirm nonce actor window => do let _ ← Ledger.confirm nonce actor window
  | .transition id toState detail prior expectedFrom =>
    Ledger.transition id toState detail prior expectedFrom
  | .expireLapsed => do let _ ← Ledger.expireLapsed

/-- Any number of connections to one ledger file.  A connection opens the file
first, so every other call is issued on an opened ledger. -/
def connections : Dynamics LedgerSig LedgerWorld Exn Unit where
  perform := LedgerCall.perform
  mayStart s p := ∃ m : LedgerMethod, p = m.program ∧ (m = .connect ∨ s.world.db.opened = true)
  drift _ _ := False
  onKill _ w := w

/-- The ledger file before its first opener, and no connection. -/
def noLedger : System LedgerSig LedgerWorld Exn Unit :=
  ⟨⟨.empty, []⟩, []⟩

end SteamAgent.Execution.Ledger
