import SteamAgent.Effects.System
import SteamAgent.Execution.Errors
import SteamAgent.Stdlib.Json
import SteamAgent.Stdlib.Text

/-!
# Windows files

The primitives of `WindowsFilePrimitives`, the paths they are called with, and
what they do.

`WinCall.perform` gives the primitives their meaning.  Each of them happens or
raises, and one that raises has done nothing, except `replace`: it may also
raise after the destination name is gone.  A new file gets an identity that no
other file has, and a file that is moved keeps its own.

There are three groups.

* Lexical checks: `safe_component` and `validate_path`.
* Paths, files and primitives.
* `WinFs` and `WinCall.perform`.
-/

namespace SteamAgent.Execution.Windows

open Effects
open Sha256 (Bytes)

/-! ## Lexical checks -/

/-- The names that `_RESERVED` matches before the first dot. -/
def reservedNames : List String :=
  ["CON", "PRN", "AUX", "NUL"] ++
    (["1", "2", "3", "4", "5", "6", "7", "8", "9", "¹", "²", "³"].flatMap fun digit =>
      ["COM" ++ digit, "LPT" ++ digit])

/-- `_RESERVED.fullmatch`. -/
def reserved (value : List Char) : Bool :=
  reservedNames.contains (String.ofList ((value.takeWhile (· != '.')).map Char.toUpper))

/-- The length in UTF-16, in bytes. -/
def utf16Length (value : List Char) : Nat :=
  value.foldr (fun c n => (if c.toNat < 0x10000 then 2 else 4) + n) 0

/-- `safe_component`. -/
def safeComponent (value : String) : Bool :=
  let chars := value.toList
  !(["", ".", ".."].contains value) && !chars.getLast?.any (fun c => c == ' ' || c == '.') &&
    !chars.any (fun c => c.toNat < 32 || "<>:\"/\\|?*".toList.contains c) && !reserved chars &&
    utf16Length chars ≤ 510

/-- The parts of a path after the drive. -/
def pathParts (value : List Char) : List (List Char) :=
  let parts := ((value.drop 3).map fun c => if c = '/' then '\\' else c).splitOn '\\'
  if parts = [[]] then [] else parts

/-- A drive letter, a colon and a slash. -/
def startsAtDrive : List Char → Bool
  | letter :: ':' :: slash :: _ =>
    (('A' ≤ letter && letter ≤ 'Z') || ('a' ≤ letter && letter ≤ 'z')) &&
      (slash == '/' || slash == '\\')
  | _ => false

/-- `WindowsFilesystemError`. -/
def windowsError (code : String) : Exn :=
  .adoptionError code

/-- `validate_path`. -/
def validatePath (value : String) : Except Exn Unit :=
  let chars := value.toList
  if startsAtDrive chars && (pathParts chars).all (fun part => safeComponent (String.ofList part)) &&
      value.length < 260 then
    .ok ()
  else
    .error (windowsError "WINDOWS_PATH_UNSUPPORTED")

/-! ## Paths, files and primitives -/

/-- A path below the library or the state directory. -/
inductive WinPath where
  /-- `library/steamapps`. -/
  | steamapps
  /-- `library/steamapps/appmanifest_<appid>.acf`. -/
  | manifest (appid : Nat)
  /-- `steamapps/.steam-agent-adoption-<appid>-<operation_id>.stage`. -/
  | stage (appid operationId : Nat)
  /-- `steamapps/.steam-agent-adoption-<appid>-<operation_id>.backup`. -/
  | backup (appid operationId : Nat)
  /-- `steamapps/.steam-agent-adoption-<appid>-<operation_id>.restore`. -/
  | restore (appid operationId : Nat)
  /-- `library/steamapps/common/<name>`. -/
  | target (name : String)
  /-- `steamapps/appmanifest_<appid>.acf` below the target. -/
  | nested (name : String) (appid : Nat)
  /-- The journal directory. -/
  | journals
  /-- `journal/windows-adoption-<appid>.json`. -/
  | journal (appid : Nat)
  /-- `journal/adoption-<appid>.json`. -/
  | legacyJournal (appid : Nat)
  /-- `journal/.windows-adoption-<appid>-<operation_id>.intent`. -/
  | intent (appid operationId : Nat)
  /-- `journal/.windows-adoption-<appid>-<operation_id>.recovery`. -/
  | recovery (appid operationId : Nat)
  /-- `state/owned`. -/
  | owned
  /-- `owned/<appid>.json`. -/
  | legacyOwned (appid : Nat)
  /-- `owned/windows-owned-<appid>.json`. -/
  | ownership (appid : Nat)
  /-- `owned/windows-effect-<operation_id>.json`. -/
  | effect (operationId : Nat)
  /-- `path.with_name(path.name + ".intent")`. -/
  | pending (path : WinPath)
  /-- Any other path. -/
  | other (text : String)
deriving DecidableEq, Repr

/-- `WindowsFileIdentity`. -/
structure WinIdentity where
  volumeSerial : Nat
  fileId : String
deriving DecidableEq, Repr

/-- The bytes of a file, and what `json.loads` makes of them. -/
structure FileData where
  bytes : Bytes
  json : Option Json

/-- The data of `json.dumps(value, …).encode()`. -/
def FileData.ofJson (value : Json) : FileData :=
  ⟨Text.encode value.dumps, some value⟩

/-- The data of a file that holds no JSON. -/
def FileData.ofBytes (bytes : Bytes) : FileData :=
  ⟨bytes, none⟩

/-- The methods of `WindowsFilePrimitives`. -/
inductive WinCall where
  /-- `identity(path, directory=True)`. -/
  | directoryIdentity (path : WinPath)
  /-- `identity(path, directory=False)`. -/
  | fileIdentity (path : WinPath)
  | pathExists (path : WinPath)
  | read (path : WinPath) (limit : Nat)
  | writeNew (path : WinPath) (data : FileData)
  | copyNew (source destination : WinPath)
  | flush (path : WinPath)
  | moveNew (source destination : WinPath)
  | replace (source destination : WinPath)
  | delete (path : WinPath)

abbrev WinCall.Ans : WinCall → Type
  | .directoryIdentity _ => Except Exn WinIdentity
  | .fileIdentity _ => Except Exn WinIdentity
  | .pathExists _ => Except Exn Bool
  | .read .. => Except Exn FileData
  | _ => Except Exn Unit

/-- The signature of the primitives. -/
abbrev WinSig : Sig :=
  ⟨WinCall, WinCall.Ans⟩

/-- A program over the primitives. -/
abbrev WinProg := Prog WinSig Exn

/-! ## What the primitives do -/

/-- A file: its identity and its data. -/
structure WinFile where
  id : WinIdentity
  data : FileData

/-- The directories, which nobody changes, and the files by path. -/
structure WinFs where
  directories : WinPath → Option WinIdentity
  files : List (WinPath × WinFile)

namespace WinFs

def get (w : WinFs) (path : WinPath) : Option WinFile :=
  w.files.lookup path

def remove (w : WinFs) (path : WinPath) : WinFs :=
  { w with files := w.files.filter fun f => f.1 ≠ path }

def put (w : WinFs) (path : WinPath) (file : WinFile) : WinFs :=
  { w with files := (path, file) :: (w.remove path).files }

/-- No file has the identity. -/
def fresh (w : WinFs) (id : WinIdentity) : Prop :=
  id ∉ w.files.map fun f => f.2.id

instance (w : WinFs) (id : WinIdentity) : Decidable (w.fresh id) :=
  inferInstanceAs (Decidable (_ ∉ _))

@[simp] theorem get_remove_self (w : WinFs) (path : WinPath) : (w.remove path).get path = none := by
  rw [get, List.lookup_eq_none_iff]
  intro f hf
  have hne := (List.mem_filter.mp hf).2
  simp only [decide_eq_true_eq] at hne
  simpa using fun h : path = f.1 => hne h.symm

@[simp] theorem get_remove_ne (w : WinFs) {path other : WinPath} (h : other ≠ path) :
    (w.remove path).get other = w.get other := by
  simp only [get, remove]
  induction w.files with
  | nil => rfl
  | cons f rest ih =>
    by_cases hf : f.1 = path
    · have hne : (other == f.1) = false := by
        rw [hf]
        exact beq_eq_false_iff_ne.mpr h
      rw [List.filter_cons_of_neg (by simpa using hf), List.lookup_cons, hne]
      exact ih
    · rw [List.filter_cons_of_pos (by simpa using hf), List.lookup_cons, List.lookup_cons, ih]

@[simp] theorem get_put_self (w : WinFs) (path : WinPath) (file : WinFile) :
    (w.put path file).get path = some file := by
  simp [get, put]

@[simp] theorem get_put_ne (w : WinFs) {path other : WinPath} (file : WinFile) (h : other ≠ path) :
    (w.put path file).get other = w.get other := by
  have hne : (other == path) = false := beq_eq_false_iff_ne.mpr h
  rw [← get_remove_ne w h]
  simp only [get, put, List.lookup_cons, hne]

/-- A fresh identity is not the identity of a file. -/
theorem fresh.ne {w : WinFs} {id : WinIdentity} (h : w.fresh id) {path : WinPath} {file : WinFile}
    (hf : w.get path = some file) : file.id ≠ id := by
  rintro rfl
  obtain ⟨before, after, heq, _⟩ := List.lookup_eq_some_iff.mp hf
  exact h (List.mem_map.mpr ⟨(path, file), by simp [heq], rfl⟩)

end WinFs

/-- The files after a primitive that succeeds. -/
inductive Changes (w : WinFs) : WinCall → WinFs → Prop
  | writeNew {path : WinPath} {data : FileData} {id : WinIdentity} (habsent : w.get path = none)
    (hfresh : w.fresh id) : Changes w (.writeNew path data) (w.put path ⟨id, data⟩)
  | copyNew {source destination : WinPath} {file : WinFile} {id : WinIdentity}
    (hsource : w.get source = some file) (habsent : w.get destination = none)
    (hfresh : w.fresh id) :
    Changes w (.copyNew source destination) (w.put destination ⟨id, file.data⟩)
  | flush {path : WinPath} : Changes w (.flush path) w
  | moveNew {source destination : WinPath} {file : WinFile} (hsource : w.get source = some file)
    (habsent : w.get destination = none) :
    Changes w (.moveNew source destination) ((w.remove source).put destination file)
  | replace {source destination : WinPath} {file old : WinFile} (hsource : w.get source = some file)
    (hold : w.get destination = some old) :
    Changes w (.replace source destination) ((w.remove source).put destination file)
  | delete {path : WinPath} : Changes w (.delete path) (w.remove path)

/-- What a primitive may answer and change. -/
def WinCall.perform (w : WinFs) : (c : WinCall) → c.Ans → WinFs → Prop
  | .directoryIdentity path, a, w' => w' = w ∧ ∀ id, a = .ok id → w.directories path = some id
  | .fileIdentity path, a, w' =>
    w' = w ∧ ∀ id, a = .ok id → (w.get path).map WinFile.id = some id
  | .pathExists path, a, w' => w' = w ∧ ∀ b, a = .ok b → b = (w.get path).isSome
  | .read path limit, a, w' =>
    w' = w ∧ ∀ data, a = .ok data →
      (w.get path).map WinFile.data = some data ∧ data.bytes.length ≤ limit
  | .writeNew path data, a, w' => Outcome w (.writeNew path data) a w'
  | .copyNew source destination, a, w' => Outcome w (.copyNew source destination) a w'
  | .flush path, a, w' => Outcome w (.flush path) a w'
  | .moveNew source destination, a, w' => Outcome w (.moveNew source destination) a w'
  | .replace source destination, a, w' =>
    Outcome w (.replace source destination) a w' ∨
      (∃ x, a = .error x) ∧ (w.get source).isSome = true ∧ (w.get destination).isSome = true ∧
        w' = w.remove destination
  | .delete path, a, w' => Outcome w (.delete path) a w'
where
  /-- It happens, or it raises and nothing happened. -/
  Outcome (w : WinFs) (c : WinCall) (a : Except Exn Unit) (w' : WinFs) : Prop :=
    a = .ok () ∧ Changes w c w' ∨ (∃ x, a = .error x) ∧ w' = w

/-- Nobody else writes. -/
def NoWriter (w w' : WinFs) : Prop :=
  w' = w

theorem NoWriter.refl (w : WinFs) : NoWriter w w :=
  rfl

end SteamAgent.Execution.Windows
