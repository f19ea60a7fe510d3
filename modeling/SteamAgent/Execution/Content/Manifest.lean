import SteamAgent.Execution.Errors
import SteamAgent.Stdlib.Text

/-!
# App manifests

What the content plane reads out of an `appmanifest_<appid>.acf`, and the one
change it makes to it.  The functions take the bytes of the file.  A file that
cannot be read never gets here: the callers turn that into `None` or an
exception, as the source does.
-/

namespace SteamAgent.Execution.Content

open Sha256 (Bytes)
open Text

/-- `_manifest_u32`. -/
def manifestU32 (value : List Char) : Option Nat :=
  if value.length > 10 || !(value.all fun c => c.toNat < 128) || value.isEmpty ||
      !(value.all isDecimal) then
    none
  else
    let parsed := value.foldl (fun n c => 10 * n + (c.toNat - '0'.toNat)) 0
    if parsed ≤ 0xFFFFFFFF then some parsed else none

/-- A field whose value is one or more digits. -/
def numberField (key : String) (text : List Char) : Option (List Char) :=
  ((quotedField key isDecimal text).filter fun m => !m.value.isEmpty).map FieldMatch.value

/-- `manifest_appid`. -/
def manifestAppid (manifest : Bytes) : Option Nat :=
  (search (numberField "appid") (readText manifest)).bind manifestU32

/-- `manifest_state_flags`. -/
def manifestStateFlags (manifest : Bytes) : Option Nat :=
  (search (numberField "StateFlags") (readText manifest)).bind manifestU32

/-- The `installdir` field with any value. -/
def installDirField (text : List Char) : Option FieldMatch :=
  quotedField "installdir" (· != '"') text

/-- `manifest_install_dir`. -/
def manifestInstallDir (manifest : Bytes) : Option String :=
  (search installDirField (readText manifest)).map fun m => String.ofList m.value

/-- `_patched_manifest`, on the bytes of the source. -/
def patchedManifest (source : Bytes) (installDirName : String) : Except Exn (List Char) :=
  let r := substitute installDirField (fun m => m.opening ++ installDirName.toList ++ ['"']) 0
    (readText source)
  if r.2 ≠ 1 then
    .error (.adoptionError
      ("manifest installdir field missing or ambiguous (" ++ toString r.2 ++ " matches)"))
  else
    .ok r.1

end SteamAgent.Execution.Content
