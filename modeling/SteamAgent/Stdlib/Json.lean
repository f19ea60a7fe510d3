/-!
# JSON values

What `json.loads` makes of a text, and the text that `json.dumps` makes of it
with `separators=(",", ":")`.  An object keeps its keys in order; a caller that
asks for sorted keys lists them sorted.  Numbers that are not integers, and
arrays, keep their text: no caller looks inside.
-/

inductive Json where
  | null
  | bool (b : Bool)
  | int (n : Int)
  | str (s : String)
  | other (text : String)
  | obj (fields : List (String × Json))

namespace Json

/-! ## Reading an object -/

/-- `raw.get(key)`. -/
def get (fields : List (String × Json)) (key : String) : Option Json :=
  fields.lookup key

/-- `set(raw) == keys`. -/
def hasKeys (fields : List (String × Json)) (keys : List String) : Bool :=
  (fields.all fun f => keys.contains f.1) && keys.all fun k => (get fields k).isSome

/-- The value, if it is an integer and no boolean. -/
def toInt : Json → Option Int
  | int n => some n
  | _ => none

def toStr : Json → Option String
  | str s => some s
  | _ => none

@[simp] theorem toInt_int (n : Int) : (int n).toInt = some n := rfl

@[simp] theorem toStr_str (s : String) : (str s).toStr = some s := rfl

/-! ## The text of a value -/

/-- Four hexadecimal digits. -/
def hex4 (n : Nat) : List Char :=
  [Nat.digitChar (n / 4096), Nat.digitChar (n / 256 % 16), Nat.digitChar (n / 16 % 16),
    Nat.digitChar (n % 16)]

/-- One character of a string, in ASCII. -/
def escape (c : Char) : List Char :=
  if c = '"' then ['\\', '"']
  else if c = '\\' then ['\\', '\\']
  else if c = '\n' then ['\\', 'n']
  else if c = '\r' then ['\\', 'r']
  else if c = '\t' then ['\\', 't']
  else if c.toNat = 12 then ['\\', 'f']
  else if c.toNat = 8 then ['\\', 'b']
  else if 32 ≤ c.toNat ∧ c.toNat < 127 then [c]
  else if c.toNat < 0x10000 then '\\' :: 'u' :: hex4 c.toNat
  else
    '\\' :: 'u' :: hex4 (0xD800 + (c.toNat - 0x10000) / 1024) ++
      '\\' :: 'u' :: hex4 (0xDC00 + (c.toNat - 0x10000) % 1024)

/-- A string in quotes. -/
def quote (s : String) : List Char :=
  '"' :: s.toList.flatMap escape ++ ['"']

/-- An integer in decimal digits. -/
def digits : Int → List Char
  | .ofNat n => Nat.toDigits 10 n
  | .negSucc n => '-' :: Nat.toDigits 10 (n + 1)

mutual

/-- `json.dumps(value, separators=(",", ":"))`. -/
def dumps : Json → List Char
  | null => "null".toList
  | bool true => "true".toList
  | bool false => "false".toList
  | int n => digits n
  | str s => quote s
  | other text => text.toList
  | obj [] => ['\x7b', '\x7d']
  | obj (f :: fields) => '\x7b' :: quote f.1 ++ ':' :: dumps f.2 ++ dumpsRest fields

/-- The members after the first one, and the end of the object. -/
def dumpsRest : List (String × Json) → List Char
  | [] => ['\x7d']
  | f :: fields => ',' :: quote f.1 ++ ':' :: dumps f.2 ++ dumpsRest fields

end

end Json
