import SteamAgent.Execution.Executor.Endings

/-!
# The intake checks of a content operation

The checks between the plan document and the first session probe: which
directory below `common/` the operation may write to.  They only read files.
A check that fails refuses the operation with a detail for the ledger and a
message for the report.

There are three groups.

* Names: `safeInstallDirName` and the manifest file names.
* One check each.
* `intake`, the checks in the order of the source.
-/

namespace SteamAgent.Execution

open Effects
open Content
open Ledger (Row PlanValue PlanDocument)

/-- Why an operation is refused at intake. -/
structure Refusal where
  detail : String
  message : String
deriving DecidableEq, Repr

/-- A program that reads files and may refuse. -/
abbrev Intake := Prog FsSig (Halt Refusal)

variable {α : Type}

/-- `return self._abort_intake(…)`. -/
def refuse (detail message : String) : Intake α :=
  .raise (.done ⟨detail, message⟩)

/-- A filesystem program inside the intake. -/
def reading (p : FsProg α) : Intake α :=
  p.lift (T := FsSig) id (fun _ a => a) Halt.exn

/-! ## Names -/

/-- `safe_install_dir_name`. -/
def safeInstallDirName (name : String) : Bool :=
  name != "" && name != "." && name != ".." &&
    !(name.toList.any fun c => c == '/' || c == '\\' || c == '"') &&
    decide (name.utf8ByteSize ≤ 255) &&
    !(name.toList.any fun c => c.toNat < 32)

/-- `f"appmanifest_{appid}.acf"`. -/
def manifestName (appid : Nat) : String :=
  "appmanifest_" ++ toString appid ++ ".acf"

/-- `value.casefold() == name.casefold()`. -/
def sameName (cfg : Config) (value name : String) : Bool :=
  cfg.casefold value == cfg.casefold name

/-! ## The checks -/

/-- The directory that the operation names or already uses. -/
def chooseInstallDir (cfg : Config) (operation : Row) (planned : String) : Intake String := do
  if ← reading (pathExists (.manifest operation.appid)) then
    if (← reading (manifestAppidAt (.manifest operation.appid))) ≠ some operation.appid then
      refuse "existing manifest appid mismatch"
        "existing manifest for this title has a mismatched appid"
    else
      match ← reading (manifestInstallDirAt (.manifest operation.appid)) with
      | none =>
        refuse "existing manifest unreadable" "existing manifest for this title is unreadable"
      | some existing =>
        if planned ≠ "" ∧ sameName cfg planned existing = false then
          refuse "plan name conflicts with existing install directory"
            ("plan install_dir_name conflicts with the existing" ++
              " install directory; move is not an executable operation")
        else
          return existing
  else if operation.operation = .verify then
    refuse "verify requires an existing install"
      ("this title is not installed; verify repairs an" ++
        " install rather than creating one")
  else if planned = "" then
    return "app_" ++ toString operation.appid
  else
    return planned

/-- The target is no symbolic link and lies in the library. -/
def checkTarget (name : String) : Intake Unit := do
  if ← reading (isSymlink (.target name)) then
    refuse "install target is a symlink" "install target is a symlink"
  else
    let inside ← reading (orNone (contained (.target name)))
    if inside ≠ some true then
      refuse "install target escapes library" "install target resolves outside the library"
    else
      return ()

/-- The two signals of an installed title: the FullyInstalled bit and a file
with bytes. -/
def installedContent (appid : Nat) (name : String) : FsProg Bool := do
  let flags ← manifestStateFlagsAt (.manifest appid)
  if flags.any fun n => n &&& 4 != 0 then holdsNonemptyFile (.target name)
  else return false

/-- A verify needs installed content. -/
def checkInstalled (operation : Row) (name : String) : Intake Unit := do
  if operation.operation ≠ .verify then
    return ()
  else if ← reading (installedContent operation.appid name) then
    return ()
  else
    refuse "verify found no installed content"
      ("this title is not fully installed on disk;" ++
        " verify repairs an install rather than creating one")

/-- No other manifest claims the directory. -/
def checkCollisions (cfg : Config) (appid : Nat) (name : String) : List String → Intake Unit
  | [] => return ()
  | manifest :: rest => do
    if manifest = manifestName appid then
      checkCollisions cfg appid name rest
    else
      match ← reading (manifestInstallDirAt (.sibling manifest)) with
      | none =>
        refuse ("cannot inspect " ++ manifest)
          ("another title's manifest is unreadable;" ++ " collision unprovable")
      | some other =>
        if sameName cfg other name then
          refuse "install_dir_name claimed by another title"
            "install_dir_name belongs to another installed title"
        else
          checkCollisions cfg appid name rest

/-- `_marker_owns_target`. -/
def markerOwnsTarget (cfg : Config) (appid : Nat) (name : String) : FsProg Bool := do
  match (← orNone (readRecord (.owned appid))).join with
  | none => return false
  | some record =>
    match Content.get record "install_dir_name" with
    | some (.str recorded) =>
      if sameName cfg recorded name then
        match ← orNone (lstat (.target name)) with
        | none => return false
        | some current =>
          return (Content.get record "dev").any (eqInt current.dev) &&
            (Content.get record "ino").any (eqInt current.ino)
      else
        return false
    | _ => return false

/-- The AppID in the nested manifest, if there is one. -/
def nestedAppid (appid : Nat) (name : String) : FsProg (Option Nat) := do
  match ← locateManifest name appid with
  | some l => manifestAppidAt l
  | none => return none

/-- The evidence that an existing target belongs to this title, one source
after the other. -/
def ownsTarget (cfg : Config) (appid : Nat) (name : String) (ownDir : Option String) :
    FsProg Bool := do
  if (← nestedAppid appid name) = some appid then return true
  else if ownDir.any fun dir => sameName cfg dir name then return true
  else if ← markerOwnsTarget cfg appid name then return true
  else return !(← hasEntries (.target name))

/-- An existing target is owned by this title. -/
def checkOwned (cfg : Config) (appid : Nat) (name : String) : Intake Unit := do
  if ← reading (pathExists (.target name)) then
    let ownDir ← reading (manifestInstallDirAt (.manifest appid))
    if (← reading (orNone (ownsTarget cfg appid name ownDir))) = some true then
      return ()
    else
      refuse "existing target directory not owned by this title"
        "existing target directory is not owned by this title"
  else
    return ()

/-! ## The intake -/

/-- `plan.get("install_dir_name") or ""`. -/
def plannedName (plan : PlanDocument) : Intake String :=
  match Content.get plan "install_dir_name" with
  | none => return ""
  | some (.str name) => return name
  | some _ => refuse "unsafe install_dir_name" "install_dir_name must be a string"

/-- The intake checks.  They return the name of the install directory. -/
def intake (cfg : Config) (operation : Row) (plan : PlanDocument) : Intake String := do
  let planned ← plannedName plan
  let name ← chooseInstallDir cfg operation planned
  if safeInstallDirName name = false then
    refuse "unsafe install_dir_name" "install_dir_name must be a single path component"
  else
    checkTarget name
    checkInstalled operation name
    checkCollisions cfg operation.appid name (← reading globManifests)
    checkOwned cfg operation.appid name
    return name

end SteamAgent.Execution
