import SteamAgent.Execution.Content.Files

/-!
# Journaled adoption of one manifest

`adopt_manifest`, `clear_adoption_journal` and `reconcile_adoption`, as
programs over the filesystem calls.

There are four groups.

* Paths as the journal records them, and the JSON values of a journal.
* One filesystem call each, with the exception it may raise.
* `journalRecord` and the reading side of it.
* The three programs.
-/

namespace SteamAgent.Execution.Content

open Effects
open Sha256 (Bytes sha256hex)
open Ledger (PlanValue PlanDocument)

/-! ## Paths and JSON values -/

/-- The components of a path text between its slashes. -/
def splitSlash : List Char → List (List Char)
  | [] => [[]]
  | '/' :: rest => [] :: splitSlash rest
  | c :: rest =>
    match splitSlash rest with
    | part :: parts => (c :: part) :: parts
    | [] => [[c]]

/-- The root of a path text: none, one slash, or exactly two. -/
def pathRoot : List Char → Nat
  | '/' :: '/' :: '/' :: _ => 1
  | '/' :: '/' :: _ => 2
  | '/' :: _ => 1
  | _ => 0

/-- `Path(a) == Path(b)`: empty components and `.` do not count. -/
def samePath (a b : String) : Bool :=
  let parts (s : String) := (splitSlash s.toList).filter fun p => p != [] && p != ['.']
  pathRoot a.toList == pathRoot b.toList && parts a == parts b

/-- The texts of the configured paths that a journal names. -/
structure Paths where
  /-- `str(library / "steamapps")`. -/
  steamapps : String
  /-- `str(journal_dir)`. -/
  journalDir : String
deriving DecidableEq

/-- `str` of the destination. -/
def Paths.destination (paths : Paths) (appid : Nat) : String :=
  paths.steamapps ++ "/appmanifest_" ++ toString appid ++ ".acf"

/-- `str` of the backup. -/
def Paths.backup (paths : Paths) (appid : Nat) : String :=
  paths.journalDir ++ "/appmanifest_" ++ toString appid ++ ".acf.backup"

/-- `str` of a value. -/
def pyStr : PlanValue → String
  | .null => "None"
  | .bool true => "True"
  | .bool false => "False"
  | .int n => toString n
  | .str s => s
  | .other text => text

/-- `value == n` for an integer `n`. -/
def eqInt (n : Int) : PlanValue → Bool
  | .int m => m == n
  | .bool b => (if b then 1 else 0) == n
  | _ => false

/-- `record[key]`. -/
def item (record : PlanDocument) (key : String) : Option PlanValue :=
  (record.find? fun entry => entry.1 == key).map Prod.snd

/-- `record.get(key)`. -/
def get (record : PlanDocument) (key : String) : Option PlanValue :=
  (item record key).filter (· != .null)

/-! ## Single calls -/

/-- A program over the filesystem. -/
abbrev FsProg := Prog FsSig Exn

def pathExists (l : Loc) : FsProg Bool := do
  let a : Except Exn Bool ← Prog.ask (S := FsSig) (.pathExists l)
  Prog.ofExcept a

def isFile (l : Loc) : FsProg Bool := do
  let a : Except Exn Bool ← Prog.ask (S := FsSig) (.isFile l)
  Prog.ofExcept a

def isDir (l : Loc) : FsProg Bool := do
  let a : Except Exn Bool ← Prog.ask (S := FsSig) (.isDir l)
  Prog.ofExcept a

def isSymlink (l : Loc) : FsProg Bool := do
  let a : Except Exn Bool ← Prog.ask (S := FsSig) (.isSymlink l)
  Prog.ofExcept a

def lstat (l : Loc) : FsProg Identity := do
  let a : Except Exn Identity ← Prog.ask (S := FsSig) (.lstat l)
  Prog.ofExcept a

def contained (l : Loc) : FsProg Bool := do
  let a : Except Exn Bool ← Prog.ask (S := FsSig) (.contained l)
  Prog.ofExcept a

def globManifests : FsProg (List String) := do
  let a : Except Exn (List String) ← Prog.ask (S := FsSig) .globManifests
  Prog.ofExcept a

def hasEntries (l : Loc) : FsProg Bool := do
  let a : Except Exn Bool ← Prog.ask (S := FsSig) (.hasEntries l)
  Prog.ofExcept a

def holdsNonemptyFile (l : Loc) : FsProg Bool := do
  let a : Except Exn Bool ← Prog.ask (S := FsSig) (.holdsNonemptyFile l)
  Prog.ofExcept a

def readBytes (l : Loc) : FsProg Bytes := do
  let a : Except Exn Bytes ← Prog.ask (S := FsSig) (.readBytes l)
  Prog.ofExcept a

def readRecord (l : Loc) : FsProg (Option PlanDocument) := do
  let a : Except Exn (Option PlanDocument) ← Prog.ask (S := FsSig) (.readRecord l)
  Prog.ofExcept a

def durableWrite (l : Loc) (data : Bytes) : FsProg Unit := do
  let a : Except Exn Unit ← Prog.ask (S := FsSig) (.durableWrite l data)
  Prog.ofExcept a

def writeRecord (l : Loc) (record : PlanDocument) : FsProg Unit := do
  let a : Except Exn Unit ← Prog.ask (S := FsSig) (.writeRecord l record)
  Prog.ofExcept a

def unlink (l : Loc) (missingOk : Bool) : FsProg Unit := do
  let a : Except Exn Unit ← Prog.ask (S := FsSig) (.unlink l missingOk)
  Prog.ofExcept a

def mkdir (l : Loc) : FsProg Unit := do
  let a : Except Exn Unit ← Prog.ask (S := FsSig) (.mkdir l)
  Prog.ofExcept a

def fsyncDir (l : Loc) : FsProg Unit := do
  let a : Except Exn Unit ← Prog.ask (S := FsSig) (.fsyncDir l)
  Prog.ofExcept a

/-- `try: … except OSError as error: raise AdoptionError(message) from error`. -/
def wrapOSError {α : Type} (message : String) (p : FsProg α) : FsProg α := do
  match ← p.attempt with
  | .ok a => return a
  | .error x => if x.isOSError then .raise (.adoptionError message) else .raise x

/-- A read whose `OSError` counts as no answer. -/
def orNone {α : Type} (p : FsProg α) : FsProg (Option α) := do
  match ← p.attempt with
  | .ok a => return some a
  | .error x => if x.isOSError then return none else .raise x

/-- `manifest_appid`. -/
def manifestAppidAt (l : Loc) : FsProg (Option Nat) := do
  return (← orNone (readBytes l)).bind manifestAppid

/-- `manifest_state_flags`. -/
def manifestStateFlagsAt (l : Loc) : FsProg (Option Nat) := do
  return (← orNone (readBytes l)).bind manifestStateFlags

/-- `manifest_install_dir`. -/
def manifestInstallDirAt (l : Loc) : FsProg (Option String) := do
  return (← orNone (readBytes l)).bind manifestInstallDir

/-- `locate_manifest`, for the nested manifest of a target. -/
def locateManifest (name : String) (appid : Nat) : FsProg (Option Loc) := do
  return if ← isFile (.nested name appid) then some (.nested name appid) else none

/-! ## The journal -/

/-- The record that `adopt_manifest` writes. -/
def journalRecord (paths : Paths) (appid operationId : Nat) (checksum : String) (backup : Bool)
    (identity : Identity) : PlanDocument :=
  [("appid", .int appid),
    ("backup", if backup then .str (paths.backup appid) else .null),
    ("checksum", .str checksum),
    ("destination", .str (paths.destination appid)),
    ("library_dev", .int identity.dev),
    ("library_ino", .int identity.ino),
    ("operation_id", .int operationId)]

/-- A journal as `reconcile_adoption` reads it. -/
structure Journal where
  record : PlanDocument
  destination : String
  checksum : String

/-- The reading of the journal, with its `try` block. -/
def readJournal (appid : Nat) : FsProg Journal := do
  match ← wrapOSError "adoption journal unreadable" (readRecord (.journal appid)) with
  | none => .raise (.adoptionError "adoption journal unreadable")
  | some record =>
    match item record "destination", item record "checksum" with
    | some destination, some checksum => return ⟨record, pyStr destination, pyStr checksum⟩
    | _, _ => .raise (.adoptionError "adoption journal unreadable")

/-! ## The programs -/

/-- The backup of the destination, if there is one. -/
def backupDestination (appid : Nat) : FsProg Bool := do
  if ← pathExists (.manifest appid) then
    durableWrite (.backup appid) (← readBytes (.manifest appid))
    return true
  else
    return false

/-- `adopt_manifest`.  It returns the location of the destination. -/
def adoptManifest (paths : Paths) (source : Loc) (appid : Nat) (installDirName : String)
    (operationId : Nat) : FsProg Loc := do
  let identity ← wrapOSError "library steamapps unavailable" (lstat .steamapps)
  mkdir .journalDir
  fsyncDir .stateDir
  let patched ← Prog.ofExcept (patchedManifest (← readBytes source) installDirName)
  let checksum := sha256hex (Text.encode patched)
  let backup ← backupDestination appid
  writeRecord (.journal appid) (journalRecord paths appid operationId checksum backup identity)
  wrapOSError "manifest adoption failed mid-write"
    (durableWrite (.manifest appid) (Text.encode patched))
  return .manifest appid

/-- `clear_adoption_journal`. -/
def clearAdoptionJournal (appid : Nat) : FsProg Unit := do
  unlink (.journal appid) true
  if ← isDir .journalDir then
    fsyncDir .journalDir

/-- The texts that `reconcile_adoption` returns. -/
inductive AdoptionVerdict where
  | completed
  | restored
  | clean
  | stale
deriving DecidableEq, Repr

def AdoptionVerdict.text : AdoptionVerdict → String
  | .completed => "completed"
  | .restored => "restored"
  | .clean => "clean"
  | .stale => "stale"

/-- The part of `reconcile_adoption` that undoes the adoption. -/
def restoreAdoption (appid : Nat) (backup : Bool) : FsProg AdoptionVerdict := do
  if backup then
    if ← isFile (.backup appid) then
      durableWrite (.manifest appid) (← readBytes (.backup appid))
      unlink (.journal appid) false
      fsyncDir .journalDir
      return .restored
    else
      .raise (.adoptionError "adoption backup missing; recovery deferred")
  else
    unlink (.manifest appid) true
    fsyncDir .steamapps
    unlink (.journal appid) false
    fsyncDir .journalDir
    return .restored

/-- The evidence at the destination that the swap landed. -/
def swapLanded (appid : Nat) (checksum : String) (backup : Bool) : FsProg Bool := do
  if ← isFile (.manifest appid) then
    let current ← wrapOSError "adoption destination unreadable" (readBytes (.manifest appid))
    if sha256hex current = checksum then
      return true
    else if backup then
      return false
    else
      return (← manifestAppidAt (.manifest appid)) == some appid
  else
    return false

/-- The refusals of `reconcile_adoption` on a journal that does not fit the
configuration or the mount. -/
def checkJournal (paths : Paths) (appid : Nat) (journal : Journal) : FsProg Unit := do
  if !samePath journal.destination (paths.destination appid) then
    .raise (.adoptionError "adoption journal names an unexpected destination")
  else if (get journal.record "backup").any fun b => !samePath (pyStr b) (paths.backup appid) then
    .raise (.adoptionError "adoption journal names an unexpected backup")
  else
    let current ← wrapOSError "library steamapps unavailable for recovery" (lstat .steamapps)
    if (get journal.record "library_dev").any (eqInt current.dev) &&
        (get journal.record "library_ino").any (eqInt current.ino) then
      return ()
    else
      .raise (.adoptionError "library mount changed; adoption recovery deferred")

/-- `reconcile_adoption`. -/
def reconcileAdoption (paths : Paths) (appid : Nat) (operationId : Option Nat) :
    FsProg AdoptionVerdict := do
  if ← isFile (.journal appid) then
    let journal ← readJournal appid
    checkJournal paths appid journal
    if operationId.any fun n => !(get journal.record "operation_id").any (eqInt n) then
      unlink (.journal appid) false
      return .stale
    else
      let backup := (get journal.record "backup").isSome
      if ← swapLanded appid journal.checksum backup then
        return .completed
      else
        restoreAdoption appid backup
  else
    return .clean

end SteamAgent.Execution.Content
