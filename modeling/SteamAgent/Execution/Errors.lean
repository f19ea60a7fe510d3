/-!
# The exceptions of the execution broker

One type for the exceptions that the modelled functions raise or handle.  A
constructor carries the message of the exception, or the class name where a
handler reads it.
-/

namespace SteamAgent.Execution

inductive Exn where
  /-- `LedgerError` itself, not one of its subclasses. -/
  | ledgerError (message : String)
  | unsupportedLedger (message : String)
  | invalidTransition (message : String)
  | confirmationRejected (message : String)
  /-- `sqlite3.IntegrityError`, a violated unique index. -/
  | integrityError
  /-- Any other `sqlite3.Error`: a busy database, a missing table, an I/O error. -/
  | sqliteError
  /-- `OSError` and its subclasses other than the executor's own, by class name. -/
  | osError (className : String)
  /-- `_TargetEscapedError`, a subclass of `OSError`. -/
  | targetEscaped
  | adoptionError (message : String)
  | executorLocked (message : String)
  | policyError (message : String)
  /-- Any other `Exception`, for instance out of an injected callback. -/
  | other (className : String)
deriving DecidableEq, Repr

namespace Exn

/-- `isinstance(error, OSError)`. -/
def isOSError : Exn → Bool
  | osError _ => true
  | targetEscaped => true
  | _ => false

/-- `isinstance(error, LedgerError)`. -/
def isLedgerError : Exn → Bool
  | ledgerError _ => true
  | unsupportedLedger _ => true
  | invalidTransition _ => true
  | confirmationRejected _ => true
  | _ => false

/-- `isinstance(error, (AdoptionError, OSError))`. -/
def isAdoptionOrOSError : Exn → Bool
  | adoptionError _ => true
  | x => x.isOSError

/-- `isinstance(error, sqlite3.Error)`. -/
def isSqliteError : Exn → Bool
  | integrityError => true
  | sqliteError => true
  | _ => false

/-- `isinstance(error, PolicyError)`. -/
def isPolicyError : Exn → Bool
  | policyError _ => true
  | _ => false

/-- `error.__class__.__name__`. -/
def className : Exn → String
  | ledgerError _ => "LedgerError"
  | unsupportedLedger _ => "UnsupportedLedger"
  | invalidTransition _ => "InvalidTransition"
  | confirmationRejected _ => "ConfirmationRejected"
  | integrityError => "IntegrityError"
  | sqliteError => "OperationalError"
  | osError name => name
  | targetEscaped => "_TargetEscapedError"
  | adoptionError _ => "AdoptionError"
  | executorLocked _ => "ExecutorLockedError"
  | policyError _ => "PolicyError"
  | other name => name

end Exn

end SteamAgent.Execution
