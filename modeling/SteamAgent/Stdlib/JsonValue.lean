/-!
# Decoded JSON values

What `json.loads` makes of a text whose arrays a caller looks into.  A number
with a fraction or an exponent keeps its text.  The keys of an object differ.
-/

inductive JsonValue where
  | null
  | bool (b : Bool)
  | int (n : Int)
  | float (text : String)
  | str (s : String)
  | arr (items : List JsonValue)
  | obj (fields : List (String × JsonValue))

namespace JsonValue

/-- `value.get(key)`. -/
def get (fields : List (String × JsonValue)) (key : String) : Option JsonValue :=
  fields.lookup key

/-- An integer that is no boolean, from zero to `maximum`. -/
def unsigned (maximum : Nat) : JsonValue → Option Nat
  | int n => if 0 ≤ n ∧ n ≤ maximum then some n.toNat else none
  | _ => none

theorem le_of_unsigned {maximum n : Nat} {value : JsonValue} (h : unsigned maximum value = some n) :
    n ≤ maximum := by
  unfold unsigned at h
  split at h
  · split at h
    · rename_i hrange
      have heq := Option.some.inj h
      omega
    · cases h
  · cases h

end JsonValue
