import SteamAgent.Stdlib.DecimalText

/-!
# The text of an integer

`int(text, 10)`: white space around the number is dropped, underscores may stand
between digits, any decimal digits are read, and there is a limit on their number.
-/

namespace IntText

open Text (isSpace isDecimal)

/-- `sys.int_info.default_max_str_digits`. -/
def maxDigits : Nat :=
  4300

/-- The digits of a text, without the underscores between them. -/
def digitsOf (text : List Char) : Option (List Char) :=
  let pieces := text.splitOn '_'
  if pieces.all fun piece => piece ≠ [] && piece.all isDecimal then some pieces.flatten else none

/-- `int(text, 10)`, or a `ValueError`. -/
def parse (text : List Char) : Option Int :=
  let stripped := ((text.dropWhile isSpace).reverse.dropWhile isSpace).reverse
  let (negative, rest) := Decimal.readSign stripped
  match digitsOf rest with
  | none => none
  | some digits =>
    if maxDigits < digits.length then none
    else some (if negative then -(Decimal.valueOf digits : Int) else Decimal.valueOf digits)

example : parse " -1_000 ".toList = some (-1000) := by decide

end IntText
