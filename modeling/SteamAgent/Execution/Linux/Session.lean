import SteamAgent.Execution.Sessions
import SteamAgent.LocalSteam.Index
import SteamAgent.Stdlib.PosixPath

/-!
# The probes of a Linux session

`gates` of `linux_session.py`.

What the probes look at is a `Machine`: the configuration files, the download
trees, the clock and the commands.  A tree does not change while it is walked.

There are three groups.

* Trees.
* The directories of downloads.
* `gates`.
-/

namespace SteamAgent.Execution.Linux

open Text (quotedField findAll)

/-! ## Trees -/

/-- An entry of a directory.  What is no plain directory is `other`, and for an
`unreadable` one `is_dir` or `stat` raises.  A directory has the time of its last change in
microseconds, whether it can be listed, and its entries. -/
inductive Entry where
  | other
  | unreadable
  | directory (modified : Int) (content : Bool × List Entry)

/-- What `iterdir` finds at a path: nothing, an `OSError`, or entries. -/
inductive Tree where
  | absent
  | unreadable
  | entries (entries : List Entry)

/-- `_DOWNLOAD_RESIDUE_AGE_SECONDS`, in microseconds. -/
def downloadResidueAge : Int :=
  60 * 60 * 1000000

/-- The loops of `_download_activity`: the rest of the directory that is walked, and below
it the stack of those to come.  The error is an `OSError`. -/
def downloadActivity (now : Int) : List (Bool × List Entry) → Except Unit Bool
  | [] => .ok false
  | (false, _) :: _ => .error ()
  | (true, []) :: stack => downloadActivity now stack
  | (true, .other :: _) :: _ => .ok true
  | (true, .unreadable :: _) :: _ => .error ()
  | (true, .directory modified content :: rest) :: stack =>
    if now - modified < downloadResidueAge then .ok true
    else downloadActivity now ((true, rest) :: content :: stack)

/-! ## The directories of downloads -/

/-- A configuration file. -/
inductive ConfigFile where
  | missing
  | unreadable
  | text (content : List Char)
deriving DecidableEq, Repr

/-- Where the session looks for configuration files, and what is there. -/
structure Places where
  library : PosixPath
  home : PosixPath
  read : PosixPath → ConfigFile

/-- `path / name / ...`. -/
def descend (path : PosixPath) (names : List String) : PosixPath :=
  names.foldl (fun path name => path.child name.toList) path

/-- The candidates for `libraryfolders.vdf`. -/
def vdfCandidates (places : Places) : List PosixPath :=
  [descend places.library ["steamapps", "libraryfolders.vdf"],
    descend places.home [".steam", "steam", "steamapps", "libraryfolders.vdf"],
    descend places.home [".local", "share", "Steam", "steamapps", "libraryfolders.vdf"]]

def downloadingOf (library : PosixPath) : PosixPath :=
  descend library ["steamapps", "downloading"]

/-- The pattern `"path"\s+"([^"]*)"`. -/
def pathField : List Char → Option Text.FieldMatch :=
  quotedField "path" (· != '"')

/-- `re.findall(r'"path"\s+"([^"]*)"', text)`. -/
def quotedPaths (text : List Char) : List (List Char) :=
  findAll pathField 0 text

/-- A path is found, and as many braces are opened as are closed. -/
def looksComplete (text : List Char) : Bool :=
  !(quotedPaths text).isEmpty && text.count '\x7b' == text.count '\x7d'

/-- The loop over the values that are found in a file. -/
def addDirs (dirs : List PosixPath) (values : List (List Char)) : List PosixPath :=
  values.foldl (fun dirs value =>
    let candidate := downloadingOf (.ofText value)
    if dirs.contains candidate then dirs else dirs ++ [candidate]) dirs

/-- The loop over the configuration files. -/
def collectDirs (read : PosixPath → ConfigFile) :
    List PosixPath → List PosixPath → Option (List PosixPath)
  | [], dirs => some dirs
  | vdf :: candidates, dirs =>
    match read vdf with
    | .missing => collectDirs read candidates dirs
    | .unreadable => none
    | .text text =>
      if looksComplete text then collectDirs read candidates (addDirs dirs (quotedPaths text))
      else none

/-- `_download_dirs`. -/
def downloadDirs (places : Places) : Option (List PosixPath) :=
  collectDirs places.read (vdfCandidates places) [downloadingOf places.library]

/-! ## Gates -/

/-- What the probes look at besides the configuration files. -/
structure Machine where
  tree : PosixPath → Tree
  now : Int
  uid : String
  returncode : List String → Int

/-- `_pgrep`. -/
def pgrep (machine : Machine) (arguments : List String) : List String :=
  ["pgrep", "-U", machine.uid] ++ arguments

/-- `_absent`. -/
def absent (machine : Machine) (pattern : List String) : GateState :=
  if machine.returncode pattern = 0 then .fail
  else if machine.returncode pattern = 1 then .pass
  else .unknown

/-- The loop over the directories of downloads. -/
def downloadState (machine : Machine) : GateState → List PosixPath → GateState
  | state, [] => state
  | state, downloading :: dirs =>
    match machine.tree downloading with
    | .absent => downloadState machine state dirs
    | .unreadable => downloadState machine .unknown dirs
    | .entries entries =>
      match downloadActivity machine.now [(true, entries)] with
      | .ok true => .fail
      | .ok false => downloadState machine state dirs
      | .error _ => downloadState machine .unknown dirs

/-- `gates`. -/
def gates (places : Places) (machine : Machine) : LeaseGates :=
  let download := match downloadDirs places with
    | none => downloadState machine .unknown []
    | some dirs => downloadState machine .pass dirs
  let client := machine.returncode (pgrep machine ["-x", "steam"])
  let helper := machine.returncode (pgrep machine ["-x", "steamwebhelper"])
  { gameRunning := absent machine (pgrep machine ["-f", "reaper SteamLaunch"])
    remotePlay := absent machine (pgrep machine ["-f", "[s]treaming_client"])
    downloadInFlight := download
    clientRunning :=
      if client = 0 ∨ helper = 0 then .fail
      else if client = 1 ∧ helper = 1 then .pass
      else .unknown }

end SteamAgent.Execution.Linux
