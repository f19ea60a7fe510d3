import SteamAgent.Stdlib.Replacement
import SteamAgent.Stdlib.Text

/-!
# The redaction of broker results

`redact` of `receipts.py` and `_sanitize` of `desktop_bridge.py` on JSON values.

There are four groups.

* JSON values, and the recursion that both functions share.
* The texts: the path pattern and the private items.
* `redact` and `sanitize`.
* Paths, and what a redacted value is to be.
-/

namespace SteamAgent.Execution

open Text

/-! ## Values -/

/-- What `json.loads` gives.  A number keeps its text. -/
inductive Payload where
  | null
  | bool (value : Bool)
  | number (text : String)
  | str (text : List Char)
  | list (items : List Payload)
  | dict (fields : List (List Char × Payload))

/-- `_PRIVATE_KEYS`. -/
def privateKeys : List (List Char) :=
  ["path", "paths", "account", "account_alias", "steam_login", "username", "user_sid"].map
    String.toList

mutual

/-- The recursion of both functions: private keys go, and each string is replaced. -/
def Payload.redactWith (f : List Char → List Char) : Payload → Payload
  | .null => .null
  | .bool value => .bool value
  | .number text => .number text
  | .str text => .str (f text)
  | .list items => .list (redactItems f items)
  | .dict fields => .dict (redactFields f fields)

def redactItems (f : List Char → List Char) : List Payload → List Payload
  | [] => []
  | item :: items => item.redactWith f :: redactItems f items

def redactFields (f : List Char → List Char) :
    List (List Char × Payload) → List (List Char × Payload)
  | [] => []
  | field :: fields =>
    if privateKeys.contains field.1 then redactFields f fields
    else (field.1, field.2.redactWith f) :: redactFields f fields

end

mutual

/-- The strings at any depth, other than the keys of mappings. -/
def Payload.strings : Payload → List (List Char)
  | .null => []
  | .bool _ => []
  | .number _ => []
  | .str text => [text]
  | .list items => stringsOfItems items
  | .dict fields => stringsOfFields fields

def stringsOfItems : List Payload → List (List Char)
  | [] => []
  | item :: items => item.strings ++ stringsOfItems items

def stringsOfFields : List (List Char × Payload) → List (List Char)
  | [] => []
  | field :: fields => field.2.strings ++ stringsOfFields fields

end

mutual

/-- The keys of the mappings at any depth. -/
def Payload.keys : Payload → List (List Char)
  | .null => []
  | .bool _ => []
  | .number _ => []
  | .str _ => []
  | .list items => keysOfItems items
  | .dict fields => keysOfFields fields

def keysOfItems : List Payload → List (List Char)
  | [] => []
  | item :: items => item.keys ++ keysOfItems items

def keysOfFields : List (List Char × Payload) → List (List Char)
  | [] => []
  | field :: fields => field.1 :: field.2.keys ++ keysOfFields fields

end

/-! ## Texts -/

/-- The class `[^\s"']`. -/
def isPathChar (c : Char) : Bool :=
  !(isSpace c || c == '"' || c == '\'')

/-- The class `[\\/]`. -/
def isSlash (c : Char) : Bool :=
  c == '\\' || c == '/'

/-- The text after `(?:[A-Za-z]:[\\/]|/)`. -/
def afterRoot : List Char → Option (List Char)
  | '/' :: rest => some rest
  | letter :: ':' :: slash :: rest =>
    if letter.isAlpha && isSlash slash then some rest else none
  | _ => none

/-- The length of a match of `(?:[A-Za-z]:[\\/]|/)[^\s"']+[\\/][^\s"']*`.  Whichever
slash the backtracking comes to, the last class goes on to the end of the run. -/
def matchPath (text : List Char) : Option Nat :=
  match afterRoot text with
  | none => none
  | some rest =>
    let run := rest.takeWhile isPathChar
    if (run.drop 1).any isSlash then some (text.length - rest.length + run.length) else none

def pathMark : List Char :=
  "<path>".toList

def privateMark : List Char :=
  "<private>".toList

/-- The substitution of paths. -/
def redactText (text : List Char) : List Char :=
  replaceAll matchPath pathMark 0 text

/-- The classes of `re.escape(item)` with `re.IGNORECASE`, on the letters that are
the same but for their case. -/
def itemClasses (sameLetter : Char → Char → Bool) (item : List Char) : List (Char → Bool) :=
  item.map sameLetter

/-- The substitution of one private item. -/
def hideItem (sameLetter : Char → Char → Bool) (text item : List Char) : List Char :=
  if item = [] then text
  else
    replaceAll
      (fun rest => if Fits (itemClasses sameLetter item) rest then some item.length else none)
      privateMark 0 text

/-- The loop over the private items. -/
def hideItems (sameLetter : Char → Char → Bool) (items : List (List Char)) (text : List Char) :
    List Char :=
  items.foldl (hideItem sameLetter) text

/-! ## The functions -/

/-- `redact`. -/
def redact (value : Payload) : Payload :=
  value.redactWith redactText

/-- `_sanitize`. -/
def sanitize (sameLetter : Char → Char → Bool) (items : List (List Char)) (value : Payload) :
    Payload :=
  value.redactWith fun text => redactText (hideItems sameLetter items text)

/-! ## Paths -/

/-- A component of a POSIX path. -/
def IsPosixName (name : List Char) : Prop :=
  name ≠ [] ∧ ∀ c ∈ name, c ≠ '/' ∧ c.toNat ≠ 0

/-- A component of a Windows path. -/
def IsWindowsName (name : List Char) : Prop :=
  name ≠ [] ∧ ∀ c ∈ name, 32 ≤ c.toNat ∧ c ∉ ['<', '>', ':', '"', '/', '\\', '|', '?', '*']

/-- An absolute path with at least two components. -/
inductive AbsolutePath : List Char → Prop
  | posix {names : List (List Char)} (hcount : 2 ≤ names.length)
      (hnames : ∀ name ∈ names, IsPosixName name) :
      AbsolutePath (names.flatMap fun name => '/' :: name)
  | drive {letter : Char} {names : List (Char × List Char)} (hletter : letter.isAlpha = true)
      (hcount : 2 ≤ names.length)
      (hnames : ∀ name ∈ names, isSlash name.1 = true ∧ IsWindowsName name.2) :
      AbsolutePath (letter :: ':' :: names.flatMap fun name => name.1 :: name.2)
  | unc {slash : Char} {names : List (Char × List Char)} (hslash : isSlash slash = true)
      (hcount : 2 ≤ names.length)
      (hnames : ∀ name ∈ names, isSlash name.1 = true ∧ IsWindowsName name.2) :
      AbsolutePath (slash :: names.flatMap fun name => name.1 :: name.2)

/-- The path occurs in a string or a key of the value. -/
def PathOccurs (path : List Char) (value : Payload) : Prop :=
  (∃ text ∈ value.strings, path <:+: text) ∨ ∃ key ∈ value.keys, path <:+: key

/-- What a redacting function is to do with a value and a path. -/
structure Redacts (f : Payload → Payload) (value : Payload) (path : List Char) : Prop where
  path : ¬PathOccurs path (f value)
  keys : ∀ key ∈ (f value).keys, key ∉ privateKeys
  again : f (f value) = f value

end SteamAgent.Execution
