import Mathlib.Data.List.Basic

/-!
# Paths

`PurePosixPath` of Python's standard library: the slashes at the front that count,
and the parts between the others.
-/

/-- A `PurePosixPath`.  The root has no slash, one slash or two. -/
structure PosixPath where
  root : Nat
  parts : List (List Char)
deriving DecidableEq, Repr

namespace PosixPath

/-- The root of a text with so many slashes at its front. -/
def rootOf (slashes : Nat) : Nat :=
  if slashes ≤ 2 then slashes else 1

/-- `PurePosixPath(text)`. -/
def ofText (text : List Char) : PosixPath where
  root := rootOf (text.takeWhile (· = '/')).length
  parts := (text.splitOn '/').filter fun part => part ≠ [] ∧ part ≠ ['.']

/-- `path / name`, of one name. -/
def child (path : PosixPath) (name : List Char) : PosixPath :=
  ⟨path.root, path.parts ++ [name]⟩

def isAbsolute (path : PosixPath) : Bool :=
  path.root != 0

/-- `path / other`. -/
def join (path other : PosixPath) : PosixPath :=
  if other.isAbsolute then other else ⟨path.root, path.parts ++ other.parts⟩

/-- `Path.expanduser`, where `home` finds the home directory of `~user`, and that of the
own user for no name.  `none` is a `RuntimeError`. -/
def expanduser (home : List Char → Option PosixPath) (path : PosixPath) : Option PosixPath :=
  match path.isAbsolute, path.parts with
  | false, ('~' :: user) :: parts => (home user).map fun dir => ⟨dir.root, dir.parts ++ parts⟩
  | _, _ => some path

/-- The text of an absolute path starts with a slash. -/
theorem isAbsolute_ofText {text : List Char} (h : text.head? = some '/') :
    (ofText text).isAbsolute = true := by
  obtain ⟨rest, rfl⟩ : ∃ rest, text = '/' :: rest := by
    cases text with
    | nil => cases h
    | cons c rest =>
      cases h
      exact ⟨rest, rfl⟩
  have hslash : (('/' :: rest).takeWhile (· = '/')).length =
      (rest.takeWhile (· = '/')).length + 1 := by
    simp
  show (rootOf _ != 0) = true
  rw [hslash, rootOf]
  split
  · exact bne_iff_ne.mpr (Nat.succ_ne_zero _)
  · decide

theorem expanduser_of_isAbsolute {home : List Char → Option PosixPath} {path : PosixPath}
    (h : path.isAbsolute = true) : path.expanduser home = some path := by
  rw [expanduser, h]

theorem join_of_isAbsolute {path other : PosixPath} (h : other.isAbsolute = true) :
    path.join other = other :=
  if_pos h

theorem child_inj {path path' : PosixPath} {name name' : List Char} :
    path.child name = path'.child name' ↔ path = path' ∧ name = name' := by
  constructor
  · intro h
    obtain ⟨root, parts⟩ := path
    obtain ⟨root', parts'⟩ := path'
    rw [child, child, mk.injEq] at h
    obtain ⟨hparts, hname⟩ := List.append_inj' h.2 rfl
    cases hname
    cases hparts
    cases h.1
    exact ⟨rfl, rfl⟩
  · intro h
    rw [h.1, h.2]

end PosixPath
