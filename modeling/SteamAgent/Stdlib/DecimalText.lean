import SteamAgent.Stdlib.DecimalContext
import SteamAgent.Stdlib.Text

/-!
# The text of a decimal number

`Decimal(text)`: white space around the number and underscores are dropped, and
any decimal digits are read.  A number that no `Decimal` can hold raises, as a
malformed text does.
-/

namespace Decimal

open Text (isSpace isDecimal zeroDigits)

/-- What `Decimal(text)` makes of a text: a number with its sign, or an infinity or
a NaN. -/
inductive Number where
  | finite (negative : Bool) (magnitude : Decimal)
  | special
deriving DecidableEq, Repr

/-- The value of a decimal digit. -/
def digitOf (c : Char) : Nat :=
  match zeroDigits.find? fun z => z ≤ c.toNat && c.toNat < z + 10 with
  | some z => c.toNat - z
  | none => 0

/-- The number that digits stand for. -/
def valueOf (digits : List Char) : Nat :=
  digits.foldl (fun n c => 10 * n + digitOf c) 0

/-- An optional sign, and the rest. -/
def readSign : List Char → Bool × List Char
  | '-' :: rest => (true, rest)
  | '+' :: rest => (false, rest)
  | text => (false, text)

/-- The exponent at the end of a number. -/
def readExponent : List Char → Option Int
  | [] => some 0
  | c :: rest =>
    let (negative, digits) := readSign rest
    if (c = 'e' ∨ c = 'E') ∧ digits ≠ [] ∧ digits.all isDecimal then
      some (if negative then -(valueOf digits : Int) else valueOf digits)
    else none

/-- The digits behind a point. -/
def readFraction : List Char → List Char × List Char
  | '.' :: rest => (rest.takeWhile isDecimal, rest.dropWhile isDecimal)
  | text => ([], text)

/-- A number without its sign. -/
def readMagnitude (text : List Char) : Option Decimal :=
  let whole := text.takeWhile isDecimal
  let (fraction, rest) := readFraction (text.dropWhile isDecimal)
  if whole = [] ∧ fraction = [] then none
  else (readExponent rest).map fun e => ⟨valueOf (whole ++ fraction), e - fraction.length⟩

/-- An infinity or a NaN. -/
def isSpecial (text : List Char) : Bool :=
  let lowered := text.map Char.toLower
  lowered == "inf".toList || lowered == "infinity".toList ||
    ["nan", "snan"].any fun name =>
      name.toList.isPrefixOf lowered && (text.drop name.length).all isDecimal

/-- `text.strip()` without the underscores. -/
def clean (text : List Char) : List Char :=
  ((text.dropWhile isSpace).reverse.dropWhile isSpace).reverse.filter (· ≠ '_')

/-- `Decimal(text)`, or `InvalidOperation`. -/
def ofText (text : List Char) : Option Number :=
  let (negative, rest) := readSign (clean text)
  match readMagnitude rest with
  | some d => if maxContext.holds d then some (.finite negative d) else none
  | none => if isSpecial rest then some .special else none

example : ofText " -1_9.990e2 ".toList = some (.finite true ⟨19990, -1⟩) := by decide

end Decimal
