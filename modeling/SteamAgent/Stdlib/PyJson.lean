import Mathlib
import SteamAgent.Stdlib.Json

/-!
# JSON values of Python

Values whose strings are lists of code points, which may be lone surrogates, and the ASCII
text that `json.dumps` makes of them with sorted keys and without blanks.

There are four groups.

* Values.
* Their members.
* `json.dumps`.
* Its lengths.
-/

/-! ## Values -/

abbrev CodePoint := Fin 0x110000

/-- A `str`. -/
abbrev PyStr := List CodePoint

instance CodePoint.neZero : NeZero 0x110000 := ⟨by decide⟩

instance CodePoint.lawfulBEq : LawfulBEq CodePoint := inferInstance

instance PyStr.lawfulBEq : LawfulBEq PyStr := inferInstance

/-- The `str` of a literal. -/
def PyStr.ofString (s : String) : PyStr :=
  s.toList.map fun c => Fin.ofNat 0x110000 c.toNat

theorem PyStr.ofString_inj {s t : String} : PyStr.ofString s = PyStr.ofString t ↔ s = t := by
  have hinj : Function.Injective fun c : Char => Fin.ofNat 0x110000 c.toNat := by
    intro c d h
    have hc : c.toNat < 0x110000 := by
      rcases c.valid with h | h <;> simp only [Char.toNat] at * <;> omega
    have hd : d.toNat < 0x110000 := by
      rcases d.valid with h | h <;> simp only [Char.toNat] at * <;> omega
    have heq : c.toNat % 0x110000 = d.toNat % 0x110000 := congrArg Fin.val h
    rw [Nat.mod_eq_of_lt hc, Nat.mod_eq_of_lt hd] at heq
    exact Char.toNat_inj.mp heq
  constructor
  · intro h
    exact String.toList_inj.mp (List.map_injective_iff.mpr hinj h)
  · intro h
    rw [h]

/-- A finite `float`: a sign and the product of a number and a power of two. -/
structure PyFloat where
  negative : Bool
  mantissa : Nat
  exponent : Int
deriving DecidableEq, Repr

/-- What `json.loads` returns.  The keys of a `dict` keep their order. -/
inductive PyJson where
  | null
  | bool (b : Bool)
  | int (n : Int)
  | float (x : PyFloat)
  | str (s : PyStr)
  | list (items : List PyJson)
  | dict (fields : List (PyStr × PyJson))

namespace PyJson

/-! ## Members -/

/-- `fields.get(key)`, where a key that is missing has nothing. -/
def member (fields : List (PyStr × PyJson)) (key : String) : Option PyJson :=
  fields.lookup (PyStr.ofString key)

/-- `value is True`. -/
def saysTrue : Option PyJson → Bool
  | some (.bool b) => b
  | _ => false

/-- `value is False`. -/
def saysFalse : Option PyJson → Bool
  | some (.bool b) => !b
  | _ => false

/-- `value == text`. -/
def isText (text : String) : Option PyJson → Bool
  | some (.str s) => s = PyStr.ofString text
  | _ => false

theorem lookup_ofString_cons {α : Type} (key key' : String) (value : α) (rest : List (PyStr × α)) :
    ((PyStr.ofString key', value) :: rest).lookup (PyStr.ofString key) =
      if key = key' then some value else rest.lookup (PyStr.ofString key) := by
  by_cases h : key = key'
  · rw [if_pos h, h, List.lookup_cons_self]
  · have hne : (PyStr.ofString key == PyStr.ofString key') = false :=
      beq_false_of_ne fun heq => h (PyStr.ofString_inj.mp heq)
    rw [if_neg h, List.lookup_cons, hne]

theorem saysTrue_iff {value : Option PyJson} : saysTrue value = true ↔ value = some (.bool true) := by
  rcases value with _ | value
  · simp [saysTrue]
  · cases value <;> simp [saysTrue]

theorem isText_iff {text : String} {value : Option PyJson} :
    isText text value = true ↔ value = some (.str (PyStr.ofString text)) := by
  rcases value with _ | value
  · simp [isText]
  · cases value <;> simp [isText]

/-! ## `json.dumps` -/

/-- The bytes of an ASCII text. -/
def ascii (text : List Char) : List UInt8 :=
  text.map fun c => c.toNat.toUInt8

/-- The two characters of an escape that has a letter. -/
def shortEscape (c : CodePoint) : Option Char :=
  if c = 34 then some '"'
  else if c = 92 then some '\\'
  else if c = 10 then some 'n'
  else if c = 13 then some 'r'
  else if c = 9 then some 't'
  else if c = 12 then some 'f'
  else if c = 8 then some 'b'
  else none

/-- One code point of a string with `ensure_ascii`. -/
def escape (c : CodePoint) : List UInt8 :=
  match shortEscape c with
  | some letter => ascii ['\\', letter]
  | none =>
    if 32 ≤ c.val ∧ c.val ≤ 126 then [c.val.toUInt8]
    else if c.val < 0x10000 then ascii ('\\' :: 'u' :: Json.hex4 c.val)
    else
      ascii ('\\' :: 'u' :: Json.hex4 (0xD800 + (c.val - 0x10000) / 1024)) ++
        ascii ('\\' :: 'u' :: Json.hex4 (0xDC00 + (c.val - 0x10000) % 1024))

/-- A string in quotes. -/
def quote (s : PyStr) : List UInt8 :=
  ascii ['"'] ++ s.flatMap escape ++ ascii ['"']

/-- The limit of `str` on the digits of an integer. -/
@[irreducible] def maxStrDigits : Nat :=
  4300

/-- `str(n)`, or a `ValueError`. -/
def intText (n : Int) : Option (List UInt8) :=
  if n.natAbs < 10 ^ maxStrDigits then some (ascii (Json.digits n)) else none

/-- The texts with commas between them. -/
def commas (texts : List (List UInt8)) : List UInt8 :=
  (texts.intersperse (ascii [','])).flatten

/-- The members of an object, sorted by their keys. -/
def members (fields : List (PyStr × List UInt8)) : List (List UInt8) :=
  (fields.mergeSort fun a b => decide (a.1 ≤ b.1)).map fun f => quote f.1 ++ ascii [':'] ++ f.2

section Dumps

variable (floatText : PyFloat → List UInt8)

mutual

/-- `json.dumps` with `ensure_ascii`, `sort_keys` and no blanks, or a `ValueError`.  CPython
raises a `RecursionError` for a value nested beyond its recursion limit, which is none of the
functions' own. -/
def dumps : PyJson → Option (List UInt8)
  | .null => some (ascii "null".toList)
  | .bool true => some (ascii "true".toList)
  | .bool false => some (ascii "false".toList)
  | .int n => intText n
  | .float x => some (floatText x)
  | .str s => some (quote s)
  | .list items => (dumpsItems items).map fun texts => ascii ['['] ++ commas texts ++ ascii [']']
  | .dict fields =>
    (dumpsFields fields).map fun texts =>
      ascii ['\x7b'] ++ commas (members texts) ++ ascii ['\x7d']

def dumpsItems : List PyJson → Option (List (List UInt8))
  | [] => some []
  | value :: rest =>
    (dumps value).bind fun text => (dumpsItems rest).map fun texts => text :: texts

def dumpsFields : List (PyStr × PyJson) → Option (List (PyStr × List UInt8))
  | [] => some []
  | (key, value) :: rest =>
    (dumps value).bind fun text => (dumpsFields rest).map fun texts => (key, text) :: texts

end

end Dumps

/-! ## Lengths -/

theorem length_ascii (text : List Char) : (ascii text).length = text.length :=
  List.length_map _

theorem length_quote (s : PyStr) :
    (quote s).length = 2 + (s.map fun c => (escape c).length).sum := by
  simp only [quote, List.length_append, length_ascii, List.length_flatMap, List.length_singleton]
  omega

theorem length_commas (texts : List (List UInt8)) :
    (commas texts).length = (texts.map List.length).sum + (texts.length - 1) := by
  induction texts with
  | nil => rfl
  | cons text rest ih =>
    cases rest with
    | nil => simp [commas]
    | cons text' rest =>
      have hstep : commas (text :: text' :: rest) = text ++ (ascii [','] ++ commas (text' :: rest)) := by
        simp [commas]
      rw [hstep, List.length_append, List.length_append, ih, length_ascii]
      simp only [List.map_cons, List.sum_cons, List.length_cons, List.length_nil]
      omega

theorem length_members (fields : List (PyStr × List UInt8)) :
    ((members fields).map List.length).sum =
      (fields.map fun f => (quote f.1).length + 1 + f.2.length).sum := by
  have hperm := List.mergeSort_perm fields fun a b => decide (a.1 ≤ b.1)
  rw [← (hperm.map _).sum_nat, members, List.map_map]
  congr 1
  apply List.map_congr_left
  intro f _
  simp [length_ascii, Nat.add_assoc]

end PyJson
