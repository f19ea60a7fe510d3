import SteamAgent.LocalSteam.Index
import SteamAgent.LocalSteam.Residual
import SteamAgent.Stdlib.Choice
import SteamAgent.Stdlib.IntText
import SteamAgent.Stdlib.PosixPath

/-!
# The installed scan

`scan_local_steam` of `local_steam.py`.

What the scan looks at is a `Snapshot`, which does not change while it runs.  A function
that only appends to the warnings returns a `Reading`: what it appends, and its result,
where `none` is its early `return None`.

There are five groups.

* Snapshots and records.
* `readKeyvalues` and `readManifest`.
* Residual content.
* Libraries.
* `scanLocalSteam`.
-/

namespace SteamAgent.LocalSteam

open Text (isSpace isDecimal)

/-! ## Snapshots -/

/-- What the scan raises. -/
inductive Raised where
  | osError
  | runtimeError
  | valueError
deriving DecidableEq, Repr

/-- Why a file is not read. -/
inductive ReadFailure where
  | notFound
  | other
deriving DecidableEq, Repr

inductive Presence where
  | missing
  | inaccessible
  | present
deriving DecidableEq, Repr

/-- The file system as the scan sees it.  `none` is an `OSError` or a `RuntimeError`; where
nothing catches one, the answer names it. -/
structure Snapshot where
  cwd : PosixPath
  expanduser : PosixPath → Option PosixPath
  resolve : PosixPath → Option PosixPath
  isSymlink : PosixPath → Option Bool
  readlink : PosixPath → Option PosixPath
  isFile : PosixPath → Option Bool
  isDir : PosixPath → Option Bool
  lstat : PosixPath → Presence
  size : PosixPath → Except ReadFailure Nat
  readText : PosixPath → Except ReadFailure (List Char)
  scandir : PosixPath → Option (List (List Char))
  tree : PosixPath → SizedTree

inductive WarningKind where
  | malformed
  | inaccessible
  | duplicate
  | missing
  | outOfScope
deriving DecidableEq, Repr

/-- `LocalSteamWarning`. -/
structure LocalSteamWarning where
  kind : WarningKind
  code : String
  message : String
  path : Option PosixPath
  appid : Option Int
deriving DecidableEq, Repr

/-- `SteamLibrary`. -/
structure SteamLibrary where
  path : PosixPath
  declaredAppids : List Int
  sourceIndex : Option (List Char)
deriving DecidableEq, Repr

/-- `InstalledSteamApp`. -/
structure InstalledSteamApp where
  appid : Int
  name : Option (List Char)
  installDir : Option PosixPath
  buildId : Option Int
  sizeOnDiskBytes : Option Int
  stateFlags : Nat
  libraryPath : PosixPath
  manifestPath : PosixPath
  residual : Option ResidualContent
deriving DecidableEq, Repr

/-- `LocalSteamScan`, without the version of its parser. -/
structure LocalSteamScan where
  steamRoot : PosixPath
  libraries : List SteamLibrary
  apps : List InstalledSteamApp
  warnings : List LocalSteamWarning
deriving DecidableEq, Repr

/-- The appended warnings, and a result unless the function returned early. -/
structure Reading (α : Type) where
  warnings : List LocalSteamWarning
  value : Option α

namespace Reading

instance : Monad Reading where
  pure a := ⟨[], some a⟩
  bind r f := match r.value with
    | none => ⟨r.warnings, none⟩
    | some a => ⟨r.warnings ++ (f a).warnings, (f a).value⟩

/-- Appends a warning. -/
def warn (w : LocalSteamWarning) : Reading Unit :=
  ⟨[w], some ()⟩

/-- Appends a warning and returns early. -/
def giveUp {α : Type} (w : LocalSteamWarning) : Reading α :=
  ⟨[w], none⟩

end Reading

/-! ## Manifests -/

/-- `MAX_KEYVALUES_BYTES`. -/
def maxKeyvaluesBytes : Nat :=
  4 * 1024 * 1024

def sqliteIntMax : Int :=
  2 ^ 63 - 1

def appStateFullyInstalled : Nat :=
  1 <<< 2

def appStateUninstalled : Nat :=
  1 <<< 0

def appStatePlausibleUpdate : Nat :=
  1 <<< 1 ||| 1 <<< 8 ||| 1 <<< 9 ||| 1 <<< 10 ||| 1 <<< 12 ||| 1 <<< 16 ||| 1 <<< 17 |||
    1 <<< 18 ||| 1 <<< 19 ||| 1 <<< 20 ||| 1 <<< 21 ||| 1 <<< 22 ||| 1 <<< 23

/-- `_is_readable_directory`. -/
def isReadableDirectory (s : Snapshot) (path : PosixPath) : Bool :=
  (s.isDir path).getD false

/-- `_is_relative_to`. -/
def isRelativeTo (path parent : PosixPath) : Bool :=
  path.root == parent.root && parent.parts.isPrefixOf path.parts

/-- `_read_keyvalues`. -/
def readKeyvalues (s : Snapshot) (casefold : List Char → List Char) (path : PosixPath) :
    Reading KeyValuesObject :=
  let disappeared := Reading.giveUp ⟨.inaccessible, "file_disappeared",
    "Steam metadata disappeared or changed type during the scan", some path, none⟩
  let inaccessible := Reading.giveUp ⟨.inaccessible, "inaccessible_file",
    "Could not read Steam metadata", some path, none⟩
  match s.isSymlink path, s.isFile path with
  | none, _ => inaccessible
  | some true, _ => disappeared
  | some false, none => inaccessible
  | some false, some false => disappeared
  | some false, some true =>
    match s.size path with
    | .error .notFound => disappeared
    | .error .other => inaccessible
    | .ok bytes =>
      if maxKeyvaluesBytes < bytes then
        .giveUp ⟨.malformed, "keyvalues_resource_limit",
          "Steam metadata exceeds the supported size limit", some path, none⟩
      else
        match s.readText path with
        | .error .notFound => disappeared
        | .error .other => inaccessible
        | .ok text =>
          match parseKeyvalues casefold text with
          | .ok tree => pure tree
          | .error (.error message line) =>
            .giveUp ⟨.malformed, "malformed_keyvalues",
              message ++ " at line " ++ toString line, some path, none⟩
          | .error .outOfFuel =>
            .giveUp ⟨.malformed, "malformed_keyvalues", "", some path, none⟩

/-- `_signed_integer`. -/
def signedInteger : Option Value → Option Int
  | some (.text text) => IntText.parse text
  | _ => none

/-- The AppID of a manifest, from its text or else from its name. -/
def manifestAppid (manifest : PosixPath) (filenameAppid : Int) (raw : Option Value) :
    Reading Int :=
  match signedInteger raw with
  | none => do
    Reading.warn ⟨.missing, "missing_manifest_appid",
      "Manifest appid is missing or invalid; using its filename", some manifest,
      some filenameAppid⟩
    return filenameAppid
  | some appid =>
    if appid ≤ 0 ∨ sqliteIntMax < appid then
      .giveUp ⟨.malformed,
        if appid ≤ 0 then "invalid_manifest_appid" else "manifest_integer_out_of_range",
        "Manifest contains an unsupported AppID and was ignored", some manifest, some appid⟩
    else if appid ≠ filenameAppid then do
      Reading.warn ⟨.malformed, "manifest_appid_mismatch",
        "Manifest appid " ++ toString appid ++ " does not match filename appid " ++
          toString filenameAppid, some manifest, some appid⟩
      return appid
    else return appid

/-- The flags of a manifest. -/
def manifestStateFlags (manifest : PosixPath) (appid : Int) (raw : Option Value) :
    Reading Nat :=
  let message := "Manifest does not provide valid StateFlags and was not classified as installed"
  match signedInteger raw with
  | none => .giveUp ⟨.missing, "missing_or_invalid_state_flags", message, some manifest,
      some appid⟩
  | some flags =>
    if flags < 0 then
      .giveUp ⟨.missing, "missing_or_invalid_state_flags", message, some manifest, some appid⟩
    else if sqliteIntMax < flags then
      .giveUp ⟨.malformed, "manifest_integer_out_of_range", message, some manifest, some appid⟩
    else if flags.toNat &&& appStateUninstalled ≠ 0 then
      .giveUp ⟨.outOfScope, "uninstalled_app_state",
        "Manifest asserts the Uninstalled state and was skipped", some manifest, some appid⟩
    else return flags.toNat

/-- The install directory of a manifest. -/
def manifestInstallDir (s : Snapshot) (manifest libraryPath : PosixPath) (appid : Int)
    (raw : Option Value) : Reading (Option PosixPath) :=
  let missing : Reading (Option PosixPath) := do
    Reading.warn ⟨.missing, "missing_install_dir", "Manifest has no install directory",
      some manifest, some appid⟩
    return none
  let unresolvable := Reading.giveUp ⟨.inaccessible, "unresolvable_install_dir",
    "Manifest install directory could not be resolved safely", some manifest, some appid⟩
  match raw with
  | some (.text text) =>
    if text.all isSpace then missing
    else
      match s.resolve ((libraryPath.child "steamapps".toList).child "common".toList) with
      | none => unresolvable
      | some common =>
        match s.resolve (common.join (.ofText text)) with
        | none => unresolvable
        | some candidate =>
          if isRelativeTo candidate common then return some candidate
          else do
            Reading.warn ⟨.malformed, "unsafe_install_dir",
              "Manifest install directory escapes steamapps/common and was ignored",
              some manifest, some appid⟩
            return none
  | _ => missing

/-- The flags say that the app is installed, or that it is updated in place. -/
def provesInstalled (s : Snapshot) (flags : Nat) (installDir : Option PosixPath) : Bool :=
  flags &&& appStateFullyInstalled != 0 ||
    flags != 0 && flags &&& appStateUninstalled == 0 && flags &&& appStatePlausibleUpdate != 0 &&
      installDir.any (isReadableDirectory s)

/-- `_bounded_optional_manifest_integer`. -/
def boundedOptionalManifestInteger (value : Option Value) (field : String)
    (manifest : PosixPath) (appid : Int) : Reading (Option Int) :=
  let invalid : Reading (Option Int) := do
    Reading.warn ⟨.malformed, "invalid_manifest_integer",
      "Manifest field " ++ field ++ " is invalid and was ignored", some manifest, some appid⟩
    return none
  match value with
  | none => return none
  | some raw =>
    match signedInteger (some raw) with
    | none => invalid
    | some integer =>
      if 0 ≤ integer ∧ integer ≤ sqliteIntMax then return some integer
      else if sqliteIntMax < integer then do
        Reading.warn ⟨.malformed, "manifest_integer_out_of_range",
          "Manifest field " ++ field ++
            " exceeds the supported signed 64-bit range and was ignored", some manifest,
          some appid⟩
        return none
      else invalid

/-- `_string`. -/
def stringOf : Option Value → Option (List Char)
  | some (.text text) => if text = [] then none else some text
  | _ => none

/-- The object of a manifest. -/
def manifestState (manifest : PosixPath) (filenameAppid : Int) (parsed : KeyValuesObject) :
    Reading KeyValuesObject :=
  match (parsed.get "AppState").bind Value.asObject with
  | none => .giveUp ⟨.malformed, "malformed_manifest", "Manifest has no AppState object",
      some manifest, some filenameAppid⟩
  | some state => return state

/-- `_read_manifest`, of a manifest with the AppID of its name. -/
def readManifest (s : Snapshot) (casefold : List Char → List Char)
    (manifest libraryPath : PosixPath) (filenameAppid : Int) : Reading InstalledSteamApp :=
  if filenameAppid ≤ 0 ∨ sqliteIntMax < filenameAppid then
    .giveUp ⟨.malformed,
      if filenameAppid ≤ 0 then "invalid_manifest_appid" else "manifest_integer_out_of_range",
      "Manifest filename contains an unsupported AppID and was ignored", some manifest,
      some filenameAppid⟩
  else do
    let parsed ← readKeyvalues s casefold manifest
    let state ← manifestState manifest filenameAppid parsed
    let appid ← manifestAppid manifest filenameAppid (state.get "appid")
    let flags ← manifestStateFlags manifest appid (state.get "StateFlags")
    let installDir ← manifestInstallDir s manifest libraryPath appid (state.get "installdir")
    if provesInstalled s flags installDir then do
      let buildId ← boundedOptionalManifestInteger (state.get "buildid") "buildid" manifest appid
      let sizeOnDisk ← boundedOptionalManifestInteger (state.get "SizeOnDisk") "SizeOnDisk"
        manifest appid
      return {
        appid := appid
        name := stringOf (state.get "name")
        installDir := installDir
        buildId := buildId
        sizeOnDiskBytes := sizeOnDisk
        stateFlags := flags
        libraryPath := libraryPath
        manifestPath := manifest
        residual := none }
    else
      .giveUp ⟨.outOfScope, "not_fully_installed",
        "Manifest lacks proof of a complete or existing in-place installation and was skipped",
        some manifest, some appid⟩

/-! ## Residual content -/

/-- `_measure_residual_content`. -/
def measureResidualContent (s : Snapshot) (steamapps : PosixPath) (appid : Int) :
    ResidualContent :=
  let name := (toString appid).toList
  residualContent (s.tree ((steamapps.child "compatdata".toList).child name))
    (s.tree ((steamapps.child "shadercache".toList).child name))
    (s.tree (((steamapps.child "workshop".toList).child "content".toList).child name))

/-! ## Libraries -/

/-- `_lexical_absolute`. -/
def lexicalAbsolute (s : Snapshot) (path : PosixPath) : PosixPath :=
  let absolute := s.cwd.join path
  ⟨absolute.root, absolute.parts.foldl (fun parts part =>
    if part = ['.', '.'] then parts.dropLast else parts ++ [part]) []⟩

/-- `_is_direct_self_symlink`. -/
def isDirectSelfSymlink (s : Snapshot) (path : PosixPath) : Option Bool :=
  match s.isSymlink path with
  | none => none
  | some false => some false
  | some true =>
    (s.readlink path).map fun target =>
      let target := PosixPath.join ⟨path.root, path.parts.dropLast⟩ target
      lexicalAbsolute s target == lexicalAbsolute s path

/-- `_safe_resolve`. -/
def safeResolve (s : Snapshot) (path : PosixPath) : Option PosixPath :=
  match isDirectSelfSymlink s path with
  | some false => s.resolve path
  | _ => none

/-- A library before its path is resolved. -/
structure LibrarySpec where
  path : PosixPath
  declared : List Int
  index : Option (List Char)
deriving DecidableEq, Repr

/-- The AppID of a key of `apps`. -/
def declaredAppid (key : List Char) : Option Int :=
  (IntText.parse key).filter fun appid => appid ≤ sqliteIntMax

/-- The AppIDs that an entry declares. -/
def declaredAppids (source : PosixPath) (entry : KeyValuesObject) : Reading (List Int) :=
  let apps := ((entry.get "apps").bind Value.asObject).getD .empty
  let keys := apps.keys.filter isDecimalText
  { warnings := (keys.filter fun key => (declaredAppid key).isNone).map fun _ =>
      ⟨.malformed, "manifest_integer_out_of_range",
        "Declared AppID exceeds the supported signed 64-bit range", some source, none⟩
    value := some (Choice.sortBy id (keys.filterMap declaredAppid)) }

/-- `Library entry {index!r} ...`. -/
def entryMessage (index : List Char) (rest : String) : String :=
  "Library entry '" ++ String.ofList index ++ "' " ++ rest

/-- One turn of the loop of `_library_specs`. -/
def librarySpec (s : Snapshot) (root source : PosixPath) (entry : List Char × Value) :
    Except Raised (Reading LibrarySpec) :=
  match entry.2 with
  | .text _ => .ok (.giveUp ⟨.malformed, "unsupported_library_entry",
      entryMessage entry.1 "uses an unsupported legacy value", some source, none⟩)
  | .object values =>
    match libraryPath (.object values) with
    | none => .ok (.giveUp ⟨.malformed, "malformed_library_entry",
        entryMessage entry.1 "has no path", some source, none⟩)
    | some text =>
      match libraryDirectory s.expanduser root text with
      | none => .error .runtimeError
      | some path => .ok do
        let declared ← declaredAppids source values
        return ⟨path, declared, some entry.1⟩

/-- `_library_specs`. -/
def librarySpecs (s : Snapshot) (root source : PosixPath) (folders : KeyValuesObject) :
    Except Raised (List LocalSteamWarning × List LibrarySpec) := do
  let read ← (libraryEntries folders).mapM (librarySpec s root source)
  let specs := read.filterMap Reading.value
  return (read.flatMap Reading.warnings,
    if specs.any fun spec => safeResolve s spec.path == some root then specs
    else ⟨root, [], none⟩ :: specs)

/-- The libraries that the index declares. -/
def indexSpecs (s : Snapshot) (casefold : List Char → List Char) (root : PosixPath) :
    Except Raised (List LocalSteamWarning × List LibrarySpec) :=
  let libraryFile := (root.child "steamapps".toList).child "libraryfolders.vdf".toList
  let primary : List LibrarySpec := [⟨root, [], none⟩]
  match s.lstat libraryFile with
  | .missing => .ok ([⟨.missing, "missing_libraryfolders",
      "Steam library index was not found; scanning the primary library only",
      some libraryFile, none⟩], primary)
  | .inaccessible => .ok ([⟨.inaccessible, "inaccessible_libraryfolders",
      "Steam library index could not be inspected", some libraryFile, none⟩], primary)
  | .present =>
    let data := readKeyvalues s casefold libraryFile
    match data.value with
    | none => .ok (data.warnings, primary)
    | some tree =>
      match libraryFolders casefold tree with
      | none => .ok (data.warnings ++ [⟨.malformed, "malformed_libraryfolders",
          "libraryfolders.vdf has no libraryfolders object", some libraryFile, none⟩], primary)
      | some folders => do
        let (warnings, specs) ← librarySpecs s root libraryFile folders
        return (data.warnings ++ warnings, specs)

/-- One turn of the loop over the libraries. -/
def addLibrary (s : Snapshot) (found : List LocalSteamWarning × List SteamLibrary)
    (spec : LibrarySpec) : List LocalSteamWarning × List SteamLibrary :=
  match safeResolve s spec.path with
  | none => (found.1 ++ [⟨.inaccessible, "unresolvable_library_path",
      "Declared Steam library path could not be resolved safely",
      some (lexicalAbsolute s spec.path), none⟩], found.2)
  | some normalized =>
    if found.2.any fun library => library.path == normalized then
      (found.1 ++ [⟨.duplicate, "duplicate_library",
        "The same Steam library path appears more than once", some normalized, none⟩], found.2)
    else (found.1, found.2 ++ [⟨normalized, spec.declared, spec.index⟩])

/-! ## The scan -/

/-- The digits of `_MANIFEST_RE.fullmatch(name)`. -/
def manifestDigits (name : List Char) : Option (List Char) :=
  (Text.stripStart "appmanifest_".toList name).bind fun rest =>
    let digits := rest.takeWhile isDecimal
    if digits ≠ [] ∧ rest.drop digits.length = ".acf".toList then some digits else none

/-- The name of a manifest, as the enumeration selects it. -/
def isCandidate (name : List Char) : Bool :=
  "appmanifest_".toList.isPrefixOf name && ".acf".toList.isSuffixOf name

/-- A candidate is a manifest, or a warning says why not. -/
def inspectCandidate (s : Snapshot) (candidate : PosixPath) (name : List Char) :
    Except Raised (Reading (PosixPath × List Char)) :=
  match s.isSymlink candidate with
  | none => .error .osError
  | some true => .ok (.giveUp ⟨.malformed, "unsafe_manifest_entry",
      "Symbolic-link manifest entry was ignored", some candidate, none⟩)
  | some false =>
    match s.isFile candidate with
    | none => .ok (.giveUp ⟨.inaccessible, "inaccessible_manifest_entry",
        "Could not inspect manifest entry", some candidate, none⟩)
    | some false => .ok (.giveUp ⟨.malformed, "nonregular_manifest_entry",
        "Non-regular manifest entry was ignored", some candidate, none⟩)
    | some true =>
      match manifestDigits name with
      | none => .ok (.giveUp ⟨.malformed, "unsupported_manifest_name",
          "Manifest filename does not contain a numeric AppID", some candidate, none⟩)
      | some digits => .ok (pure (candidate, digits))

/-- `int(match.group(1))`. -/
def filenameAppid (digits : List Char) : Except Raised Int :=
  if IntText.maxDigits < digits.length then .error .valueError
  else .ok (Decimal.valueOf digits)

/-- What the scan has found. -/
structure Found where
  apps : List InstalledSteamApp
  seenApps : List (Int × PosixPath)
  warnings : List LocalSteamWarning

def Found.warn (found : Found) (warnings : List LocalSteamWarning) : Found :=
  { found with warnings := found.warnings ++ warnings }

/-- One turn of the loop over the manifests of a library. -/
def takeManifest (s : Snapshot) (casefold : List Char → List Char) (libraryPath : PosixPath)
    (found : Found) (manifest : PosixPath × Int) : Except Raised Found :=
  let unsafeFile := found.warn [⟨.inaccessible, "unsafe_manifest_file",
    "Manifest is missing, non-regular, or a symbolic link", some manifest.1, some manifest.2⟩]
  match s.isSymlink manifest.1 with
  | none => .error .osError
  | some true => .ok unsafeFile
  | some false =>
    match s.isFile manifest.1 with
    | none => .error .osError
    | some false => .ok unsafeFile
    | some true =>
      let read := readManifest s casefold manifest.1 libraryPath manifest.2
      match read.value with
      | none => .ok (found.warn read.warnings)
      | some app =>
        if (found.seenApps.lookup app.appid).isSome then
          .ok (found.warn (read.warnings ++ [⟨.duplicate, "duplicate_app",
            "App is already represented by an earlier manifest", some manifest.1,
            some app.appid⟩]))
        else
          .ok {
            apps := found.apps ++ [{ app with
              residual := some (measureResidualContent s
                ⟨manifest.1.root, manifest.1.parts.dropLast⟩ app.appid) }]
            seenApps := (app.appid, manifest.1) :: found.seenApps
            warnings := found.warnings ++ read.warnings }

/-- The warnings for declared apps without a manifest. -/
def missingManifests (steamapps : PosixPath) (declared ids : List Int) :
    List LocalSteamWarning :=
  (Choice.sortBy id ((declared.filter fun appid => !ids.contains appid).dedup)).map fun appid =>
    ⟨.missing, "missing_manifest",
      "The library index declares an app whose manifest is missing",
      some (steamapps.child ("appmanifest_" ++ toString appid ++ ".acf").toList), some appid⟩

/-- One turn of the loop over the libraries. -/
def scanLibrary (s : Snapshot) (casefold : List Char → List Char) (found : Found)
    (library : SteamLibrary) : Except Raised Found :=
  let steamapps := library.path.child "steamapps".toList
  if ¬isReadableDirectory s steamapps then
    .ok (found.warn [⟨.inaccessible, "inaccessible_library",
      "Steam library directory is missing or inaccessible", some steamapps, none⟩])
  else
    match s.scandir steamapps with
    | none => .ok (found.warn [⟨.inaccessible, "inaccessible_library",
        "Could not enumerate Steam manifests", some steamapps, none⟩])
    | some names => do
      let candidates := Choice.sortBy String.ofList (names.filter isCandidate)
      let inspected ← candidates.mapM fun name =>
        inspectCandidate s (steamapps.child name) name
      let manifests ← (inspected.filterMap Reading.value).mapM fun manifest => do
        let appid ← filenameAppid manifest.2
        return (manifest.1, appid)
      let found := found.warn (inspected.flatMap Reading.warnings ++
        missingManifests steamapps library.declaredAppids (manifests.map (·.2)))
      manifests.foldlM (takeManifest s casefold library.path) found

/-- `str(path)`. -/
def pathText (path : PosixPath) : String :=
  String.ofList (List.replicate path.root '/' ++ ['/'].intercalate path.parts)

/-- `scan_local_steam`. -/
def scanLocalSteam (s : Snapshot) (casefold : List Char → List Char) (steamRoot : List Char) :
    Except Raised LocalSteamScan :=
  match s.expanduser (.ofText steamRoot) with
  | none => .error .runtimeError
  | some expandedRoot =>
    match s.resolve expandedRoot with
    | none =>
      let root := lexicalAbsolute s expandedRoot
      .ok ⟨root, [], [], [⟨.inaccessible, "unresolvable_steam_root",
        "Steam root could not be resolved safely", some root, none⟩]⟩
    | some root => do
      let (warnings, specs) ← indexSpecs s casefold root
      let (warnings, libraries) := specs.foldl (addLibrary s) (warnings, [])
      let found ← libraries.foldlM (scanLibrary s casefold) ⟨[], [], warnings⟩
      return ⟨root, libraries,
        Choice.sortBy (fun app => toLex (app.appid, pathText app.libraryPath)) found.apps,
        found.warnings⟩

end SteamAgent.LocalSteam
