import SteamAgent.Stdlib.Sha256

/-!
# Text files

Reading and searching text the way Python's standard library does.  A text is
a list of characters.

There are three groups.

* `readText`: decoding UTF-8 with a replacement character for every maximal
  ill-formed part, and universal newlines.  `encode` is the way back.
* `isSpace` and `isDecimal`: what the classes `\s` and `\d` of a pattern match.
* `quotedField`, `search`, `findAll` and `substitute`: a pattern for one quoted
  key and its quoted value, its leftmost match, all matches, and their
  replacement.
-/

namespace Text

open Sha256 (Bytes)

/-! ## Bytes and characters -/

/-- The decoder between two bytes: at the start of a character, or with `need`
continuation bytes to come, the next of which lies between `lo` and `hi`. -/
inductive Decoder where
  | start
  | inside (need lo hi acc : Nat)

/-- The replacement character. -/
def replacement : Char :=
  Char.ofNat 0xFFFD

/-- The first byte of a character. -/
def decodeFirst (b : Nat) : List Char × Decoder :=
  if b < 0x80 then ([Char.ofNat b], .start)
  else if b < 0xC2 then ([replacement], .start)
  else if b < 0xE0 then ([], .inside 0 0x80 0xBF (b - 0xC0))
  else if b = 0xE0 then ([], .inside 1 0xA0 0xBF 0)
  else if b = 0xED then ([], .inside 1 0x80 0x9F (b - 0xE0))
  else if b < 0xF0 then ([], .inside 1 0x80 0xBF (b - 0xE0))
  else if b = 0xF0 then ([], .inside 2 0x90 0xBF 0)
  else if b < 0xF4 then ([], .inside 2 0x80 0xBF (b - 0xF0))
  else if b = 0xF4 then ([], .inside 2 0x80 0x8F (b - 0xF0))
  else ([replacement], .start)

/-- One byte.  A byte that does not continue the character ends the ill-formed
part before it and is read again as a first byte. -/
def decodeByte : Decoder → Nat → List Char × Decoder
  | .start, b => decodeFirst b
  | .inside need lo hi acc, b =>
    if lo ≤ b ∧ b ≤ hi then
      match need with
      | 0 => ([Char.ofNat (64 * acc + (b - 0x80))], .start)
      | need + 1 => ([], .inside need 0x80 0xBF (64 * acc + (b - 0x80)))
    else
      let r := decodeFirst b
      (replacement :: r.1, r.2)

/-- `bytes.decode("utf-8", errors="replace")`, from a decoder state. -/
def decodeFrom : Decoder → Bytes → List Char
  | .start, [] => []
  | .inside .., [] => [replacement]
  | s, b :: rest =>
    let r := decodeByte s b.toNat
    r.1 ++ decodeFrom r.2 rest

/-- Universal newlines. -/
def newlines : List Char → List Char
  | '\r' :: '\n' :: rest => '\n' :: newlines rest
  | '\r' :: rest => '\n' :: newlines rest
  | c :: rest => c :: newlines rest
  | [] => []

/-- `Path.read_text(encoding="utf-8", errors="replace")`, on the bytes of the
file. -/
def readText (content : Bytes) : List Char :=
  newlines (decodeFrom .start content)

/-- `str.encode("utf-8")`. -/
def encode (text : List Char) : Bytes :=
  text.flatMap String.utf8EncodeChar

/-- `bytes.decode("utf-8")`: the text whose encoding the bytes are. -/
def decodeStrict (content : Bytes) : Option (List Char) :=
  let text := decodeFrom .start content
  if encode text = content then some text else none

/-! ## Character classes -/

/-- The class `\s`. -/
def isSpace (c : Char) : Bool :=
  let n := c.toNat
  (0x09 ≤ n && n ≤ 0x0D) || (0x1C ≤ n && n ≤ 0x20) || n == 0x85 || n == 0xA0 || n == 0x1680 ||
    (0x2000 ≤ n && n ≤ 0x200A) || n == 0x2028 || n == 0x2029 || n == 0x202F || n == 0x205F ||
    n == 0x3000

/-- The code points of the zero digits.  Each starts a run of ten decimal
digits. -/
def zeroDigits : List Nat :=
  [0x30, 0x660, 0x6F0, 0x7C0, 0x966, 0x9E6, 0xA66, 0xAE6, 0xB66, 0xBE6, 0xC66, 0xCE6, 0xD66, 0xDE6,
   0xE50, 0xED0, 0xF20, 0x1040, 0x1090, 0x17E0, 0x1810, 0x1946, 0x19D0, 0x1A80, 0x1A90, 0x1B50,
   0x1BB0, 0x1C40, 0x1C50, 0xA620, 0xA8D0, 0xA900, 0xA9D0, 0xA9F0, 0xAA50, 0xABF0, 0xFF10, 0x104A0,
   0x10D30, 0x11066, 0x110F0, 0x11136, 0x111D0, 0x112F0, 0x11450, 0x114D0, 0x11650, 0x116C0,
   0x11730, 0x118E0, 0x11950, 0x11C50, 0x11D50, 0x11DA0, 0x11F50, 0x16A60, 0x16AC0, 0x16B50,
   0x1D7CE, 0x1D7D8, 0x1D7E2, 0x1D7EC, 0x1D7F6, 0x1E140, 0x1E2F0, 0x1E4F0, 0x1E950, 0x1FBF0]

/-- The class `\d`, which is also `str.isdecimal` on one character. -/
def isDecimal (c : Char) : Bool :=
  zeroDigits.any fun z => z ≤ c.toNat && c.toNat < z + 10

/-! ## Patterns -/

/-- A match: the text up to the value with its opening quote, and the value. -/
structure FieldMatch where
  opening : List Char
  value : List Char
deriving DecidableEq

/-- The length of the matched text, with the closing quote. -/
def FieldMatch.length (m : FieldMatch) : Nat :=
  m.opening.length + m.value.length + 1

/-- The text after a given start, if it has that start. -/
def stripStart : List Char → List Char → Option (List Char)
  | [], text => some text
  | k :: key, c :: text => if k = c then stripStart key text else none
  | _ :: _, [] => none

/-- A match of the quoted key, white space and a quoted value at the front of
the text.  The value is the longest run of characters in a class that has no
quote. -/
def quotedField (key : String) (inValue : Char → Bool) (text : List Char) : Option FieldMatch :=
  let quotedKey := '"' :: key.toList ++ ['"']
  match stripStart quotedKey text with
  | none => none
  | some rest =>
    let space := rest.takeWhile isSpace
    match space, rest.drop space.length with
    | _ :: _, '"' :: rest =>
      let value := rest.takeWhile inValue
      match rest.drop value.length with
      | '"' :: _ => some ⟨quotedKey ++ space ++ ['"'], value⟩
      | _ => none
    | _, _ => none

/-- `re.search`: the leftmost match. -/
def search {α : Type} (pattern : List Char → Option α) : List Char → Option α
  | [] => pattern []
  | c :: rest => (pattern (c :: rest)).or (search pattern rest)

/-- `re.findall`: the values of all matches from left to right.  `skip` is what
is left of the last match. -/
def findAll (pattern : List Char → Option FieldMatch) : Nat → List Char → List (List Char)
  | _, [] => []
  | skip + 1, _ :: rest => findAll pattern skip rest
  | 0, c :: rest =>
    match pattern (c :: rest) with
    | some m => m.value :: findAll pattern (m.length - 1) rest
    | none => findAll pattern 0 rest

/-- `re.subn`: all matches from left to right replaced, and their number.
`skip` is what is left of the last match. -/
def substitute (pattern : List Char → Option FieldMatch) (replace : FieldMatch → List Char) :
    Nat → List Char → List Char × Nat
  | _, [] => ([], 0)
  | skip + 1, _ :: rest => substitute pattern replace skip rest
  | 0, c :: rest =>
    match pattern (c :: rest) with
    | some m =>
      let r := substitute pattern replace (m.length - 1) rest
      (replace m ++ r.1, r.2 + 1)
    | none =>
      let r := substitute pattern replace 0 rest
      (c :: r.1, r.2)

end Text
