import Mathlib.Data.List.Basic
import Mathlib.Data.Rat.Defs
import SteamAgent.Stdlib.PyJson
import SteamAgent.Stdlib.Result

/-!
# The paths of assertions

The small language of paths into a JSON document of `grade.py`, and what Python does when a
path is followed.

There are three groups.

* Python's subscripts, iterations and comparisons of JSON values.
* The regular expressions of a segment, of a bracket and of a filter.
* `_path_segments` and `is_supported_path`.  A path that is supported never closes a bracket
  that is not open (`supported_depth`).
-/

namespace SteamAgent.Evals

open PyJson (member)

/-- The exceptions that a grading catches. -/
inductive PyError where
  | keyError
  | indexError
  | typeError
  | valueError (message : String)
deriving DecidableEq, Repr

/-! ## JSON values -/

abbrev JsonFields := List (PyStr × PyJson)

/-- `value[key]` for a text. -/
def subscriptKey (value : PyJson) (key : PyStr) : Except PyError PyJson :=
  match value with
  | .dict fields =>
    match fields.lookup key with
    | some found => .ok found
    | none => .error .keyError
  | _ => .error .typeError

/-- `value[index]` for a number that is not negative. -/
def subscriptIndex (value : PyJson) (index : Nat) : Except PyError PyJson :=
  match value with
  | .list items =>
    match items[index]? with
    | some item => .ok item
    | none => .error .indexError
  | .str text =>
    match text[index]? with
    | some c => .ok (.str [c])
    | none => .error .indexError
  | .dict _ => .error .keyError
  | _ => .error .typeError

/-- `for item in value`. -/
def iterate (value : PyJson) : Except PyError (List PyJson) :=
  match value with
  | .list items => .ok items
  | .str text => .ok (text.map fun c => .str [c])
  | .dict fields => .ok (fields.map fun f => .str f.1)
  | _ => .error .typeError

/-- `part in text` for two texts. -/
def isInfix (part text : PyStr) : Bool :=
  text.tails.any fun rest => part.isPrefixOf rest

/-- `expected in actual` for a value that is no list. -/
def isIn (expected actual : PyJson) : Except PyError Bool :=
  match actual, expected with
  | .str text, .str part => .ok (isInfix part text)
  | .dict _, .list _ => .error .typeError
  | .dict _, .dict _ => .error .typeError
  | .dict fields, .str key => .ok (fields.lookup key).isSome
  | .dict _, _ => .ok false
  | _, _ => .error .typeError

/-- The value of a number, which Python compares without rounding. -/
def floatValue (x : PyFloat) : Rat :=
  let signed : Int := if x.negative then -x.mantissa else x.mantissa
  if 0 ≤ x.exponent then signed * 2 ^ x.exponent.toNat else mkRat signed (2 ^ (-x.exponent).toNat)

def numberValue : PyJson → Option Rat
  | .int n => some n
  | .float x => some (floatValue x)
  | _ => none

/-- The types of JSON values. -/
inductive Kind where
  | null
  | bool
  | int
  | float
  | str
  | list
  | dict
deriving DecidableEq, Repr

def kind : PyJson → Kind
  | .null => .null
  | .bool _ => .bool
  | .int _ => .int
  | .float _ => .float
  | .str _ => .str
  | .list _ => .list
  | .dict _ => .dict

/-- `isinstance(value, int | float)` for a value that is no `bool`. -/
def isNumber (value : PyJson) : Bool :=
  (numberValue value).isSome

/-- `left.keys() == right.keys()`. -/
def sameKeys (left right : JsonFields) : Bool :=
  left.all (fun f => (right.lookup f.1).isSome) && right.all fun f => (left.lookup f.1).isSome

/-! ## Regular expressions -/

def isLower (c : CodePoint) : Bool :=
  (97 ≤ c && c ≤ 122) || c == 95

def isDigit (c : CodePoint) : Bool :=
  48 ≤ c && c ≤ 57

/-- `[`. -/
def openBracket : CodePoint := 91

/-- `]`. -/
def closeBracket : CodePoint := 93

/-- `bracket.isascii() and bracket.isdecimal()`. -/
def isDecimal (bracket : PyStr) : Bool :=
  !bracket.isEmpty && bracket.all isDigit

/-- `int(digits)`. -/
def decimal (digits : PyStr) : Nat :=
  digits.foldl (fun n c => 10 * n + (c.val - 48)) 0

/-- What stands in the brackets of a text that consists of brackets, with the bracket that was
begun. -/
def brackets : Option PyStr → PyStr → Option (List PyStr)
  | none, [] => some []
  | some _, [] => none
  | none, c :: rest => if c = openBracket then brackets (some []) rest else none
  | some inner, c :: rest =>
    if c = closeBracket then
      if inner = [] then none else (brackets none rest).map fun inners => inner :: inners
    else brackets (some (inner ++ [c])) rest

/-- `_SEGMENT.fullmatch`, with the key of a segment and what `_BRACKET` finds after it. -/
def segmentMatch (segment : PyStr) : Option (PyStr × List PyStr) :=
  match segment with
  | [] => none
  | c :: rest =>
    if isLower c then
      (brackets none (rest.dropWhile fun c => isLower c || isDigit c)).map fun inners =>
        (c :: rest.takeWhile fun c => isLower c || isDigit c, inners)
    else none

/-- What a filter asks a field to be. -/
inductive FilterValue where
  | number (digits : PyStr)
  | text (text : PyStr)
deriving DecidableEq, Repr

/-- The part of `_FILTER` after the equals signs. -/
def filterValue (rest : PyStr) : Option FilterValue :=
  if rest.takeWhile isDigit ≠ [] ∧ rest.dropWhile isDigit = PyStr.ofString ")" then
    some (.number (rest.takeWhile isDigit))
  else
    match rest with
    | [] => none
    | mark :: quoted =>
      if mark = 39 ∧ quoted.takeWhile (· ≠ 39) ≠ [] ∧
          quoted.dropWhile (· ≠ 39) = PyStr.ofString "')" then
        some (.text (quoted.takeWhile (· ≠ 39)))
      else none

/-- `_FILTER.fullmatch`. -/
def filterMatch (bracket : PyStr) : Option (PyStr × FilterValue) :=
  if (PyStr.ofString "?(@.").isPrefixOf bracket then
    let rest := bracket.drop 4
    let field := rest.takeWhile isLower
    let after := rest.dropWhile isLower
    if field ≠ [] ∧ (PyStr.ofString "==").isPrefixOf after then
      (filterValue (after.drop 2)).map fun value => (field, value)
    else none
  else none

/-- `int(number) if number is not None else text`. -/
def FilterValue.expected : FilterValue → PyJson
  | .number digits => .int (decimal digits)
  | .text quoted => .str quoted

/-! ## Segments -/

/-- `_MAX_GRADING_PATH_CHARACTERS`. -/
def maxGradingPathCharacters : Nat :=
  1024

/-- `_MAX_SELECTED_PATH_NODES`. -/
def maxSelectedPathNodes : Nat :=
  16 * 1024

/-- The loop of `_path_segments`, with the segment that was begun. -/
def pathSegmentsFrom (segment : PyStr) (depth : Int) : PyStr → Except PyError (List PyStr)
  | [] => if depth ≠ 0 then .error (.valueError "unbalanced path") else .ok [segment]
  | c :: rest =>
    if c = openBracket then pathSegmentsFrom (segment ++ [c]) (depth + 1) rest
    else if c = closeBracket then pathSegmentsFrom (segment ++ [c]) (depth - 1) rest
    else if c = 46 ∧ depth = 0 then
      (pathSegmentsFrom [] depth rest).map fun segments => segment :: segments
    else pathSegmentsFrom (segment ++ [c]) depth rest

/-- `_path_segments`. -/
def pathSegments (path : PyStr) : Except PyError (List PyStr) :=
  pathSegmentsFrom [] 0 path

def supportedBracket (bracket : PyStr) : Bool :=
  bracket = PyStr.ofString "*" || isDecimal bracket || (filterMatch bracket).isSome

def supportedSegment (segment : PyStr) : Bool :=
  match segmentMatch segment with
  | none => false
  | some found => found.2.all supportedBracket

/-- `is_supported_path`. -/
def isSupportedPath (path : PyStr) : Bool :=
  decide (path.length ≤ maxGradingPathCharacters) && (PyStr.ofString "$.").isPrefixOf path &&
    match pathSegments (path.drop 2) with
    | .error _ => false
    | .ok segments => segments.all supportedSegment

/-! ## The depth of a supported path -/

/-- How many brackets are open after a text. -/
def netDepth (text : PyStr) : Int :=
  text.foldl (fun depth c =>
    if c = openBracket then depth + 1 else if c = closeBracket then depth - 1 else depth) 0

theorem netDepth_from (text : PyStr) (depth : Int) :
    text.foldl (fun depth c =>
      if c = openBracket then depth + 1 else if c = closeBracket then depth - 1 else depth) depth =
      depth + netDepth text := by
  induction text generalizing depth with
  | nil => simp [netDepth]
  | cons c text ih =>
    rw [netDepth, List.foldl_cons, List.foldl_cons, ih, ih]
    split
    · omega
    · split <;> omega

theorem netDepth_append (front back : PyStr) :
    netDepth (front ++ back) = netDepth front + netDepth back := by
  rw [netDepth, List.foldl_append, netDepth_from]
  rfl

theorem netDepth_cons (c : CodePoint) (text : PyStr) :
    netDepth (c :: text) =
      (if c = openBracket then 1 else if c = closeBracket then -1 else 0) + netDepth text := by
  rw [netDepth, List.foldl_cons, netDepth_from]
  split
  · rfl
  · split <;> rfl

/-- A text without a closing bracket does not go down. -/
theorem netDepth_nonneg {text : PyStr} (h : ∀ c ∈ text, c ≠ closeBracket) : 0 ≤ netDepth text := by
  induction text with
  | nil => exact Int.le_refl 0
  | cons c text ih =>
    rw [netDepth_cons, if_neg (h c List.mem_cons_self)]
    have hrest := ih fun d hd => h d (List.mem_cons_of_mem _ hd)
    split <;> omega

/-- No beginning of the text closes a bracket that is not open. -/
def NeverBelow (text : PyStr) : Prop :=
  ∀ front back, text = front ++ back → 0 ≤ netDepth front

theorem neverBelow_of_no_close {text : PyStr} (h : ∀ c ∈ text, c ≠ closeBracket) :
    NeverBelow text := by
  rintro front back rfl
  exact netDepth_nonneg fun c hc => h c (List.mem_append_left _ hc)

theorem NeverBelow.append {front back : PyStr} (hfront : NeverBelow front)
    (hback : NeverBelow back) (hdepth : 0 ≤ netDepth front) : NeverBelow (front ++ back) := by
  intro a b heq
  rcases List.append_eq_append_iff.mp heq with ⟨c, rfl, hb⟩ | ⟨c, ha, -⟩
  · rw [netDepth_append]
    exact Int.add_nonneg hdepth (hback c b hb)
  · exact hfront a c ha

/-- Inside a bracket the text before it has gone up by one. -/
theorem netDepth_brackets {begun : Option PyStr} {text : PyStr} {inners : List PyStr}
    (h : brackets begun text = some inners) {front back : PyStr} (heq : text = front ++ back) :
    0 ≤ (if begun.isSome then 1 else 0) + netDepth front := by
  induction text generalizing begun inners front with
  | nil =>
    obtain ⟨rfl, -⟩ := List.nil_eq_append_iff.mp heq
    cases begun <;> simp [netDepth]
  | cons c rest ih =>
    cases front with
    | nil => cases begun <;> simp [netDepth]
    | cons d front =>
      rw [List.cons_append, List.cons.injEq] at heq
      obtain ⟨rfl, hrest⟩ := heq
      rw [netDepth_cons]
      cases begun with
      | none =>
        unfold brackets at h
        by_cases hopen : c = openBracket
        · rw [if_pos hopen] at h
          have hbelow := ih h hrest
          simp only [Option.isSome_some, if_true, Option.isSome_none, Bool.false_eq_true,
            if_false, hopen] at hbelow ⊢
          omega
        · rw [if_neg hopen] at h
          cases h
      | some inner =>
        unfold brackets at h
        by_cases hclose : c = closeBracket
        · rw [if_pos hclose] at h
          split at h
          · cases h
          · obtain ⟨inners', hafter, -⟩ := Option.map_eq_some_iff.mp h
            have hbelow := ih hafter hrest
            have hopen : closeBracket ≠ openBracket := by decide
            simp only [Option.isSome_some, if_true, Option.isSome_none, Bool.false_eq_true,
              if_false, hclose, hopen] at hbelow ⊢
            omega
        · rw [if_neg hclose] at h
          have hbelow := ih h hrest
          simp only [Option.isSome_some, if_true, hclose, if_false] at hbelow ⊢
          split <;> omega

theorem neverBelow_segment {segment : PyStr} {found : PyStr × List PyStr}
    (h : segmentMatch segment = some found) : NeverBelow segment := by
  cases segment with
  | nil => cases h
  | cons c rest =>
    by_cases hlower : isLower c = true
    · simp only [segmentMatch, hlower, if_true] at h
      obtain ⟨inners, hinners, -⟩ := Option.map_eq_some_iff.mp h
      have hkey : ∀ d ∈ c :: rest.takeWhile (fun c => isLower c || isDigit c),
          (isLower d || isDigit d) = true := by
        intro d hd
        rcases List.mem_cons.mp hd with rfl | hd
        · rw [hlower, Bool.true_or]
        · exact List.all_eq_true.mp List.all_takeWhile d hd
      have hclose : ∀ d ∈ c :: rest.takeWhile (fun c => isLower c || isDigit c),
          d ≠ closeBracket := by
        intro d hd heq
        rw [heq] at hd
        exact absurd (hkey _ hd) (by decide +kernel)
      have hsplit : c :: rest = (c :: rest.takeWhile fun c => isLower c || isDigit c) ++
          rest.dropWhile fun c => isLower c || isDigit c := by
        rw [List.cons_append, List.takeWhile_append_dropWhile]
      rw [hsplit]
      refine (neverBelow_of_no_close hclose).append ?_ (netDepth_nonneg hclose)
      intro front back heq
      simpa using netDepth_brackets hinners heq
    · simp only [segmentMatch, hlower] at h
      cases h

end SteamAgent.Evals
