import SteamAgent.Stdlib.Text

/-!
# Local Steam KeyValues

`_KeyValuesParser` of `local_steam.py`.  The offset into the text is the rest of
the text.  The parser of an object takes fuel; `parseKeyvalues` gives it more
than any text needs.

`str.casefold` is a parameter.

There are three groups.

* Trees and failures.
* The parser.
* The limits of a tree.
-/

namespace SteamAgent.LocalSteam

open Text (isSpace)

/-! ## Trees -/

/-- `MAX_KEYVALUES_DEPTH`. -/
def maxKeyvaluesDepth : Nat :=
  64

/-- `MAX_KEYVALUES_ENTRIES`. -/
def maxKeyvaluesEntries : Nat :=
  100000

/-- `MAX_KEYVALUES_STRING`. -/
def maxKeyvaluesString : Nat :=
  1048576

/-- `KeyValuesObject`: the entries in their order, each with a text or an
object as its value. -/
inductive KeyValuesObject where
  | empty
  | text (key value : List Char) (others : KeyValuesObject)
  | object (key : List Char) (value others : KeyValuesObject)
deriving DecidableEq, Repr

/-- Why the parser stops: an error in front of the rest of the text, or the end
of its fuel. -/
inductive ParseFailure where
  | error (message : String) (rest : List Char)
  | outOfFuel
deriving DecidableEq, Repr

/-- `KeyValuesError`, with its line. -/
inductive KeyValuesFailure where
  | error (message : String) (line : Nat)
  | outOfFuel
deriving DecidableEq, Repr

/-! ## The parser -/

/-- `_skip_space_and_comments`, outside or inside of a comment. -/
def skipGap : Bool → List Char → List Char
  | _, [] => []
  | true, c :: rest => skipGap (c != '\n') rest
  | false, c :: rest =>
    if isSpace c then skipGap false rest
    else if c = '/' ∧ rest.head? = some '/' then skipGap true rest
    else c :: rest

theorem skipGap_comment_cons (c : Char) (rest : List Char) :
    skipGap true (c :: rest) = skipGap (c != '\n') rest :=
  rfl

theorem skipGap_cons (c : Char) (rest : List Char) :
    skipGap false (c :: rest) = if isSpace c then skipGap false rest
      else if c = '/' ∧ rest.head? = some '/' then skipGap true rest else c :: rest :=
  rfl

def skipSpaceAndComments (text : List Char) : List Char :=
  skipGap false text

/-- The character of an escape. -/
def unescape (c : Char) : Char :=
  if c = 'n' then '\n' else if c = 'r' then '\r' else if c = 't' then '\t' else c

/-- The loop of `_parse_string`, with `count` characters read so far.  Only a
character that is not escaped is checked against the limit. -/
def readString (count : Nat) : List Char → Except ParseFailure (List Char × List Char)
  | [] => .error (.error "unterminated quoted string" [])
  | '"' :: rest => .ok ([], rest)
  | ['\\'] => .error (.error "unterminated escape sequence" [])
  | '\\' :: escaped :: rest => do
    let (value, rest) ← readString (count + 1) rest
    return (unescape escaped :: value, rest)
  | c :: rest =>
    if count + 1 > maxKeyvaluesString then .error (.error "maximum string length exceeded" rest)
    else do
      let (value, rest) ← readString (count + 1) rest
      return (c :: value, rest)

/-- `_parse_string`. -/
def parseString (text : List Char) : Except ParseFailure (List Char × List Char) :=
  match skipSpaceAndComments text with
  | '"' :: rest => readString 0 rest
  | rest => .error (.error "expected quoted string" rest)

/-- The loop of `_parse_object`, with the case-folded keys so far and the number
of entries of the whole text so far. -/
def parseEntries (casefold : List Char → List Char) :
    Nat → Bool → Nat → List (List Char) → Nat → List Char →
      Except ParseFailure (KeyValuesObject × Nat × List Char)
  | 0, _, _, _, _, _ => .error .outOfFuel
  | fuel + 1, topLevel, depth, keys, entries, text =>
    match skipSpaceAndComments text with
    | [] =>
      if topLevel then .ok (.empty, entries, []) else .error (.error "unterminated object" [])
    | '}' :: rest =>
      if topLevel then .error (.error "unexpected closing brace" ('}' :: rest))
      else .ok (.empty, entries, rest)
    | first :: rest => do
      let (key, rest) ← parseString (first :: rest)
      if keys.contains (casefold key) then .error (.error "duplicate key in object" rest)
      else if entries + 1 > maxKeyvaluesEntries then
        .error (.error "maximum entry count exceeded" rest)
      else
        match skipSpaceAndComments rest with
        | [] => .error (.error "missing value for key" [])
        | '{' :: rest =>
          if depth + 1 > maxKeyvaluesDepth then
            .error (.error "maximum nesting depth exceeded" rest)
          else do
            let (value, entries, rest) ←
              parseEntries casefold fuel false (depth + 1) [] (entries + 1) rest
            let (others, entries, rest) ←
              parseEntries casefold fuel topLevel depth (casefold key :: keys) entries rest
            return (.object key value others, entries, rest)
        | first :: rest => do
          let (value, rest) ← parseString (first :: rest)
          let (others, entries, rest) ←
            parseEntries casefold fuel topLevel depth (casefold key :: keys) (entries + 1) rest
          return (.text key value others, entries, rest)

/-- `text.lstrip("\ufeff")`. -/
def stripMarks (text : List Char) : List Char :=
  text.dropWhile (· = '\uFEFF')

/-- The line of an error. -/
def ParseFailure.located (text : List Char) : ParseFailure → KeyValuesFailure
  | error message rest =>
    .error message ((text.take (text.length - rest.length)).count '\n' + 1)
  | outOfFuel => .outOfFuel

/-- `parse`, on the text without byte order marks. -/
def parse (casefold : List Char → List Char) (text : List Char) :
    Except ParseFailure KeyValuesObject := do
  let (result, _, rest) ← parseEntries casefold (text.length + 1) true 0 [] 0 text
  match skipSpaceAndComments rest with
  | [] => return result
  | rest => .error (.error "unexpected trailing input" rest)

/-- `parse_keyvalues`. -/
def parseKeyvalues (casefold : List Char → List Char) (text : List Char) :
    Except KeyValuesFailure KeyValuesObject :=
  (parse casefold (stripMarks text)).mapError (ParseFailure.located (stripMarks text))

/-! ## The limits of a tree -/

namespace KeyValuesObject

/-- The keys of an object. -/
def keys : KeyValuesObject → List (List Char)
  | empty => []
  | text key _ others => key :: others.keys
  | object key _ others => key :: others.keys

/-- The keys of each object are distinct without case. -/
def Distinct (casefold : List Char → List Char) : KeyValuesObject → Prop
  | empty => True
  | text key _ others => casefold key ∉ others.keys.map casefold ∧ others.Distinct casefold
  | object key value others =>
    casefold key ∉ others.keys.map casefold ∧ value.Distinct casefold ∧ others.Distinct casefold

/-- The depth of the nesting. -/
def depth : KeyValuesObject → Nat
  | empty => 0
  | text _ _ others => others.depth
  | object _ value others => max (value.depth + 1) others.depth

/-- The number of entries at all depths. -/
def entryCount : KeyValuesObject → Nat
  | empty => 0
  | text _ _ others => others.entryCount + 1
  | object _ value others => value.entryCount + others.entryCount + 1

/-- The length of the longest key or text. -/
def stringLength : KeyValuesObject → Nat
  | empty => 0
  | text key value others => max (max key.length value.length) others.stringLength
  | object key value others => max (max key.length value.stringLength) others.stringLength

/-- A tree within the limits of the module. -/
structure WithinLimits (casefold : List Char → List Char) (tree : KeyValuesObject) : Prop where
  distinct : tree.Distinct casefold
  depth : tree.depth ≤ maxKeyvaluesDepth
  entries : tree.entryCount ≤ maxKeyvaluesEntries
  strings : tree.stringLength ≤ maxKeyvaluesString

end KeyValuesObject

end SteamAgent.LocalSteam
