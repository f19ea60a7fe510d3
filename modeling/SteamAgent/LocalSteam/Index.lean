import SteamAgent.LocalSteam.KeyValues
import SteamAgent.Stdlib.PosixPath

/-!
# The library index

What `local_steam.py` reads in a `libraryfolders.vdf`.
-/

namespace SteamAgent.LocalSteam

open Text (isSpace isDecimal)

/-- A value of an object. -/
inductive Value where
  | text (value : List Char)
  | object (value : KeyValuesObject)
deriving DecidableEq, Repr

/-- `items()`. -/
def KeyValuesObject.items : KeyValuesObject → List (List Char × Value)
  | empty => []
  | text key value others => (key, .text value) :: others.items
  | object key value others => (key, .object value) :: others.items

/-- `get(key)`. -/
def KeyValuesObject.get (values : KeyValuesObject) (key : String) : Option Value :=
  values.items.lookup key.toList

/-- `_object`. -/
def Value.asObject : Value → Option KeyValuesObject
  | object value => some value
  | text _ => none

/-- `_case_insensitive_value`. -/
def caseInsensitiveValue (casefold : List Char → List Char) (values : KeyValuesObject)
    (key : String) : Option Value :=
  (values.items.find? fun item => casefold item.1 == casefold key.toList).map (·.2)

/-- The object of the libraries. -/
def libraryFolders (casefold : List Char → List Char) (tree : KeyValuesObject) :
    Option KeyValuesObject :=
  (caseInsensitiveValue casefold tree "libraryfolders").bind Value.asObject

/-- `str.isdecimal`. -/
def isDecimalText (text : List Char) : Bool :=
  text ≠ [] && text.all isDecimal

/-- The entries of libraries. -/
def libraryEntries (folders : KeyValuesObject) : List (List Char × Value) :=
  folders.items.filter fun item => isDecimalText item.1

/-- The path of an entry, where it has one. -/
def libraryPath (entry : Value) : Option (List Char) :=
  match entry with
  | .text _ => none
  | .object values =>
    match values.get "path" with
    | some (.text path) => if path.all isSpace then none else some path
    | _ => none

/-- The paths of the libraries of a text, where the text is accepted and each library has
a path. -/
def declaredPaths (casefold : List Char → List Char) (text : List Char) :
    Option (List (List Char)) :=
  match parseKeyvalues casefold text with
  | .error _ => none
  | .ok tree =>
    (libraryFolders casefold tree).bind fun folders =>
      (libraryEntries folders).mapM fun entry => libraryPath entry.2

/-- The library at a path, as `_library_specs` goes on from it. -/
def libraryDirectory (expanduser : PosixPath → Option PosixPath) (root : PosixPath)
    (path : List Char) : Option PosixPath :=
  (expanduser (.ofText path)).map root.join

/-- The libraries that the index of a Steam root declares. -/
def declaredLibraries (casefold : List Char → List Char)
    (expanduser : PosixPath → Option PosixPath) (root : PosixPath) (text : List Char) :
    Option (List PosixPath) :=
  (declaredPaths casefold text).bind fun paths => paths.mapM (libraryDirectory expanduser root)

end SteamAgent.LocalSteam
