import SteamAgent.Effects.System
import SteamAgent.Execution.Content.Manifest
import SteamAgent.Execution.Ledger.State

/-!
# The files of the broker and of the Steam library

The locations that execution and recovery touch, the calls they make on them,
and what the calls do.

A journal or a marker is a JSON file.  It is kept as what `json.loads` makes
of it: an object, or `none` for a text that is no JSON object.  Of the keys of
a journal, `at` is left out: nothing reads it.

`FsCall.perform` gives the calls their meaning on the files that adoption and
recovery decide by.  A read sees the file or raises.  A durable write is
atomic: it lands or not, also when it raises.  Answers about other locations
are arbitrary.
-/

namespace SteamAgent.Execution.Content

open Effects
open Sha256 (Bytes)
open Ledger (PlanValue PlanDocument)

/-- A location in the library or in the broker's state directory. -/
inductive Loc where
  /-- `library/steamapps`. -/
  | steamapps
  /-- `library/steamapps/appmanifest_<appid>.acf`. -/
  | manifest (appid : Nat)
  /-- Another manifest in `library/steamapps`, by file name. -/
  | sibling (name : String)
  /-- `library/steamapps/common/<name>`. -/
  | target (name : String)
  /-- `steamapps/appmanifest_<appid>.acf` below the target. -/
  | nested (name : String) (appid : Nat)
  /-- `library/steamapps/downloading/<appid>`. -/
  | downloading (appid : Nat)
  | stateDir
  | journalDir
  /-- `journal/adoption-<appid>.json`. -/
  | journal (appid : Nat)
  /-- `journal/appmanifest_<appid>.acf.backup`. -/
  | backup (appid : Nat)
  | ownedDir
  /-- `owned/<appid>.json`. -/
  | owned (appid : Nat)
deriving DecidableEq, Repr

/-- Device and inode. -/
structure Identity where
  dev : Nat
  ino : Nat
deriving DecidableEq, Repr

/-- The filesystem calls. -/
inductive FsCall where
  | pathExists (l : Loc)
  | isFile (l : Loc)
  | isDir (l : Loc)
  | isSymlink (l : Loc)
  | lstat (l : Loc)
  /-- `path.resolve().is_relative_to(library.resolve())`. -/
  | contained (l : Loc)
  /-- The names of `sorted(steamapps.glob("appmanifest_*.acf"))`. -/
  | globManifests
  /-- `any(path.iterdir())`. -/
  | hasEntries (l : Loc)
  /-- `_holds_a_nonempty_file`. -/
  | holdsNonemptyFile (l : Loc)
  | readBytes (l : Loc)
  /-- `json.loads` of the text of a file. -/
  | readRecord (l : Loc)
  /-- `_durable_write`. -/
  | durableWrite (l : Loc) (data : Bytes)
  /-- `_durable_write` of `json.dumps`. -/
  | writeRecord (l : Loc) (record : PlanDocument)
  | unlink (l : Loc) (missingOk : Bool)
  /-- `mkdir(parents=True, exist_ok=True)`. -/
  | mkdir (l : Loc)
  | fsyncDir (l : Loc)
deriving DecidableEq

/-- The answers. -/
abbrev FsCall.Ans : FsCall → Type
  | .lstat _ => Except Exn Identity
  | .globManifests => Except Exn (List String)
  | .readBytes _ => Except Exn Bytes
  | .readRecord _ => Except Exn (Option PlanDocument)
  | .durableWrite .. => Except Exn Unit
  | .writeRecord .. => Except Exn Unit
  | .unlink .. => Except Exn Unit
  | .mkdir _ => Except Exn Unit
  | .fsyncDir _ => Except Exn Unit
  | _ => Except Exn Bool

/-- The signature of the filesystem. -/
abbrev FsSig : Sig :=
  ⟨FsCall, FsCall.Ans⟩

/-- The files that adoption and recovery decide by. -/
structure Fs where
  /-- What `lstat` finds at `library/steamapps`. -/
  identity : Option Identity
  files : Loc → Option Bytes
  records : Loc → Option (Option PlanDocument)

namespace Fs

def put (w : Fs) (l : Loc) (data : Bytes) : Fs :=
  { w with files := fun l' => if l' = l then some data else w.files l' }

def putRecord (w : Fs) (l : Loc) (record : PlanDocument) : Fs :=
  { w with records := fun l' => if l' = l then some (some record) else w.records l' }

def remove (w : Fs) (l : Loc) : Fs :=
  { w with
    files := fun l' => if l' = l then none else w.files l'
    records := fun l' => if l' = l then none else w.records l' }

/-- Whether there is a file at the location. -/
def present (w : Fs) : Loc → Bool
  | .journal appid => (w.records (.journal appid)).isSome
  | .owned appid => (w.records (.owned appid)).isSome
  | l => (w.files l).isSome

@[simp] theorem present_manifest (w : Fs) (appid : Nat) :
    w.present (.manifest appid) = (w.files (.manifest appid)).isSome := rfl

@[simp] theorem present_nested (w : Fs) (name : String) (appid : Nat) :
    w.present (.nested name appid) = (w.files (.nested name appid)).isSome := rfl

@[simp] theorem present_backup (w : Fs) (appid : Nat) :
    w.present (.backup appid) = (w.files (.backup appid)).isSome := rfl

@[simp] theorem present_journal (w : Fs) (appid : Nat) :
    w.present (.journal appid) = (w.records (.journal appid)).isSome := rfl

@[simp] theorem put_identity (w : Fs) (l : Loc) (data : Bytes) :
    (w.put l data).identity = w.identity := rfl

@[simp] theorem put_records (w : Fs) (l : Loc) (data : Bytes) :
    (w.put l data).records = w.records := rfl

@[simp] theorem put_files (w : Fs) (l l' : Loc) (data : Bytes) :
    (w.put l data).files l' = if l' = l then some data else w.files l' := rfl

@[simp] theorem putRecord_identity (w : Fs) (l : Loc) (record : PlanDocument) :
    (w.putRecord l record).identity = w.identity := rfl

@[simp] theorem putRecord_files (w : Fs) (l : Loc) (record : PlanDocument) :
    (w.putRecord l record).files = w.files := rfl

@[simp] theorem putRecord_records (w : Fs) (l l' : Loc) (record : PlanDocument) :
    (w.putRecord l record).records l' = if l' = l then some (some record) else w.records l' := rfl

@[simp] theorem remove_identity (w : Fs) (l : Loc) : (w.remove l).identity = w.identity := rfl

@[simp] theorem remove_files (w : Fs) (l l' : Loc) :
    (w.remove l).files l' = if l' = l then none else w.files l' := rfl

@[simp] theorem remove_records (w : Fs) (l l' : Loc) :
    (w.remove l).records l' = if l' = l then none else w.records l' := rfl

end Fs

/-- The locations whose presence the model tracks. -/
def Loc.tracked : Loc → Bool
  | .manifest _ => true
  | .nested .. => true
  | .journal _ => true
  | .backup _ => true
  | _ => false

/-- What a call may answer and change. -/
def FsCall.perform (w : Fs) : (c : FsCall) → c.Ans → Fs → Prop
  | .pathExists l, a, w' =>
    w' = w ∧ ∀ b, a = .ok b → l.tracked = true → b = w.present l
  | .isFile l, a, w' =>
    w' = w ∧ ∀ b, a = .ok b → l.tracked = true → b = w.present l
  | .lstat l, a, w' =>
    w' = w ∧ ∀ i, a = .ok i → l = .steamapps → w.identity = some i
  | .readBytes l, a, w' => w' = w ∧ ∀ data, a = .ok data → w.files l = some data
  | .readRecord l, a, w' => w' = w ∧ ∀ r, a = .ok r → w.records l = some r
  | .durableWrite l data, a, w' => w' = w.put l data ∨ (∃ x, a = .error x) ∧ w' = w
  | .writeRecord l record, a, w' => w' = w.putRecord l record ∨ (∃ x, a = .error x) ∧ w' = w
  | .unlink l missingOk, a, w' =>
    (a = .ok () ∧ (w.present l = true ∨ missingOk = true) ∧ w' = w.remove l) ∨
      (∃ x, a = .error x) ∧ w' = w
  | _, _, w' => w' = w

/-- Between two calls nobody else writes. -/
def NoWriter (w w' : Fs) : Prop := w' = w

theorem NoWriter.refl (w : Fs) : NoWriter w w := rfl

/-- A filesystem on which every call succeeds. -/
def fsAnswers : Oracle FsSig Fs
  | w, .pathExists l => (.ok (w.present l), w)
  | w, .isFile l => (.ok (w.present l), w)
  | w, .isDir _ => (.ok true, w)
  | w, .isSymlink _ => (.ok false, w)
  | w, .lstat .steamapps =>
    (match w.identity with
      | some i => .ok i
      | none => .error (.osError "FileNotFoundError"), w)
  | w, .lstat _ => (.ok ⟨1, 1⟩, w)
  | w, .contained _ => (.ok true, w)
  | w, .globManifests => (.ok [], w)
  | w, .hasEntries _ => (.ok false, w)
  | w, .holdsNonemptyFile _ => (.ok true, w)
  | w, .readBytes l =>
    (match w.files l with
      | some data => .ok data
      | none => .error (.osError "FileNotFoundError"), w)
  | w, .readRecord l =>
    (match w.records l with
      | some r => .ok r
      | none => .error (.osError "FileNotFoundError"), w)
  | w, .durableWrite l data => (.ok (), w.put l data)
  | w, .writeRecord l record => (.ok (), w.putRecord l record)
  | w, .unlink l missingOk =>
    if w.present l || missingOk then (.ok (), w.remove l)
    else (.error (.osError "FileNotFoundError"), w)
  | w, .mkdir _ => (.ok (), w)
  | w, .fsyncDir _ => (.ok (), w)

theorem perform_fsAnswers (w : Fs) (c : FsCall) :
    FsCall.perform w c (fsAnswers w c).1 (fsAnswers w c).2 := by
  cases c with
  | pathExists l => exact ⟨rfl, fun b hb _ => (Except.ok.inj hb).symm⟩
  | isFile l => exact ⟨rfl, fun b hb _ => (Except.ok.inj hb).symm⟩
  | lstat l =>
    cases l with
    | steamapps =>
      refine ⟨rfl, fun i hi _ => ?_⟩
      cases hid : w.identity with
      | none => simp [fsAnswers, hid] at hi
      | some j => simpa [fsAnswers, hid] using hi
    | _ => exact ⟨rfl, fun i _ hl => by simp at hl⟩
  | readBytes l =>
    refine ⟨rfl, fun data hd => ?_⟩
    cases hf : w.files l with
    | none => simp [fsAnswers, hf] at hd
    | some data' => simpa [fsAnswers, hf] using hd
  | readRecord l =>
    refine ⟨rfl, fun r hr => ?_⟩
    cases hf : w.records l with
    | none => simp [fsAnswers, hf] at hr
    | some r' => simpa [fsAnswers, hf] using hr
  | durableWrite l data => exact Or.inl rfl
  | writeRecord l record => exact Or.inl rfl
  | unlink l missingOk =>
    simp only [fsAnswers]
    split
    · rename_i h
      exact Or.inl ⟨rfl, by simpa using h, rfl⟩
    · exact Or.inr ⟨⟨_, rfl⟩, rfl⟩
  | _ => exact rfl

end SteamAgent.Execution.Content
