import Mathlib.Data.List.DropRight
import SteamAgent.Stdlib.Decimal
import SteamAgent.Stdlib.Text

/-!
# Declared minimum requirements

`requirement_parser.py`: the line grammar of a minimum-requirements text, the
capacity of one line as an interval of bytes, and the comparison with a system.

`str.isprintable` and the class `\w` are parameters; they decide about control
characters and about the text of a reason.  A fact is known with its value, or
not known with a reason, so the checks of `RequirementFact.__post_init__` hold
by construction; memory and storage facts carry an interval, an architecture
fact an architecture, and a model fact no value.

There are four groups.

* Facts and results.
* The lines of a text.
* The capacity of a line.
* `parseDeclaredMinimum` and `compareDeclaredMinimum`.
-/

namespace SteamAgent.Requirements

open Text (isSpace)

/-! ## Facts -/

def maxTextLength : Nat :=
  8192

def maxLines : Nat :=
  64

def maxLineLength : Nat :=
  512

/-- `MAX_BYTES`. -/
def maxBytes : Nat :=
  9223372036854775807

/-- What the standard library says about characters. -/
structure CharLibrary where
  isPrintable : Char → Bool
  /-- The class `\w`. -/
  isWord : Char → Bool

inductive GateState where
  | pass
  | fail
  | unknown
deriving DecidableEq, Repr

inductive TextSection where
  | minimum
  | recommended
deriving DecidableEq, Repr

inductive Architecture where
  | x86
  | x8664
  | arm64
deriving DecidableEq, Repr

/-- The components with a capacity. -/
inductive CapacityComponent where
  | memory
  | storage
deriving DecidableEq, Repr

/-- The components with a model name. -/
inductive ModelComponent where
  | cpu
  | gpu
deriving DecidableEq, Repr

inductive Component where
  | capacity (component : CapacityComponent)
  | architecture
  | model (component : ModelComponent)
deriving DecidableEq, Repr

def CapacityComponent.name : CapacityComponent → String
  | memory => "memory"
  | storage => "storage"

def ModelComponent.name : ModelComponent → String
  | cpu => "cpu"
  | gpu => "gpu"

/-- `DeclaredRequirementsText`. -/
structure DeclaredRequirementsText where
  textSection : TextSection
  text : Option (List Char)
deriving DecidableEq, Repr

/-- `ByteInterval`. -/
structure ByteInterval where
  lowerBytes : Nat
  upperBytes : Nat
  positive : 0 < lowerBytes
  ordered : lowerBytes ≤ upperBytes
  bounded : upperBytes ≤ maxBytes
deriving DecidableEq, Repr

/-- `RequirementFact`, with a value of its kind. -/
inductive RequirementFact (α : Type) where
  | known (value : α)
  | missing (reason : String)
  | unknown (reason : String)
deriving DecidableEq, Repr

/-- `ParsedMinimumRequirements`. -/
structure ParsedMinimumRequirements where
  inputReason : Option String
  capacity : CapacityComponent → RequirementFact ByteInterval
  architecture : RequirementFact Architecture
  model : ModelComponent → RequirementFact Empty

/-- `SystemCapacity`. -/
structure SystemCapacity where
  bytes : CapacityComponent → Option Nat
  architecture : Option Architecture
  supportedArchitectures : List Architecture
  bounded : ∀ component actual, bytes component = some actual → actual ≤ maxBytes
  unique : supportedArchitectures.Nodup

structure ComponentComparison where
  state : GateState
  reason : String
deriving DecidableEq, Repr

/-- `MinimumRequirementsComparison`. -/
structure MinimumRequirementsComparison where
  overall : GateState
  capacity : CapacityComponent → ComponentComparison
  architecture : ComponentComparison
  model : ModelComponent → ComponentComparison

/-! ## Lines -/

/-- `str.strip()`. -/
def strip (text : List Char) : List Char :=
  (text.dropWhile isSpace).rdropWhile isSpace

/-- `_validate_input`. -/
def validateInput (lib : CharLibrary) : Option (List Char) → Option String
  | none => some "minimum_text_missing"
  | some text =>
    if strip text = [] then some "minimum_text_missing"
    else if text.length > maxTextLength then some "minimum_text_too_large"
    else if text.any fun c => !lib.isPrintable c && c != '\n' then
      some "minimum_text_contains_control_character"
    else if text.contains '<' || text.contains '>' then some "minimum_text_not_sanitized"
    else
      let lines := text.splitOn '\n'
      if lines.length > maxLines || lines.any fun line => line.length > maxLineLength then
        some "minimum_text_shape_exceeds_bound"
      else none

def isLetter (c : Char) : Bool :=
  ('A' ≤ c && c ≤ 'Z') || ('a' ≤ c && c ≤ 'z')

/-- `_LABEL`, with the stripped value.  A label has no colon, so it ends at the
first one. -/
def labelMatch (line : List Char) : Option (List Char × List Char) :=
  let label := line.takeWhile (· ≠ ':')
  match label, line.dropWhile (· ≠ ':') with
  | first :: others, _ :: value =>
    if isLetter first && (others.all fun c => isLetter c || c == ' ') && others.length ≤ 31 then
      some (label, strip value)
    else none
  | _, _ => none

/-- `_INLINE_RECOMMENDED.search`: the line in front of the leftmost match. -/
def beforeRecommended : List Char → Option (List Char)
  | [] => none
  | c :: rest =>
    if isSpace c && "Recommended:".toList.isPrefixOf (rest.dropWhile isSpace) then some []
    else (beforeRecommended rest).map (c :: ·)

/-- `_IGNORED_LABELS`. -/
def ignoredLabels : List String :=
  ["OS", "DirectX", "Network", "Sound Card", "Additional Notes"]

/-- `_COMPONENT_LABELS`. -/
def componentLabels : List (String × Component) :=
  [("Memory", .capacity .memory), ("Storage", .capacity .storage),
    ("Architecture", .architecture), ("Processor", .model .cpu), ("CPU", .model .cpu),
    ("Graphics", .model .gpu), ("GPU", .model .gpu)]

/-- What a line does to the loop over the lines. -/
inductive LineStep where
  | skip
  | stop
  | reject (reason : String)
  /-- A fact about a component, and whether the loop ends after it. -/
  | fact (component : Component) (value : List Char) (stopAfter : Bool)
deriving DecidableEq, Repr

/-- A line with a label, in front of an inline `Recommended:` if there is one. -/
def labelledLine (line : List Char) (stopAfter : Bool) : LineStep :=
  match labelMatch line with
  | none =>
    .reject (if line.contains ':' then "unknown_or_localized_label"
      else "unanchored_or_malformed_line")
  | some (label, value) =>
    let label := String.ofList label
    if label = "Minimum" then
      if stopAfter then .reject "unanchored_or_malformed_line" else .skip
    else if ignoredLabels.contains label then
      if stopAfter then .stop else .skip
    else
      match componentLabels.lookup label with
      | none => .reject "unknown_or_localized_label"
      | some component => .fact component value stopAfter

/-- The body of the loop over the lines. -/
def lineStep (rawLine : List Char) : LineStep :=
  let line := strip rawLine
  if line = [] then .skip
  else if line = "Minimum:".toList then .skip
  else if line = "Recommended:".toList then .stop
  else
    match beforeRecommended line with
    | none => labelledLine line false
    | some before => labelledLine (before.rdropWhile isSpace) true

/-- The loop over the lines: the facts found, or the reason of a rejection. -/
def readLines : List (List Char) → Except String (List (Component × List Char))
  | [] => return []
  | line :: lines =>
    match lineStep line with
    | .skip => readLines lines
    | .stop => return []
    | .reject reason => throw reason
    | .fact component value true => return [(component, value)]
    | .fact component value false => return (component, value) :: (← readLines lines)

/-! ## Capacities -/

inductive CapacityUnit where
  | megabyte
  | gigabyte
  | mebibyte
  | gibibyte
deriving DecidableEq, Repr

/-- `decimal_scale`. -/
def CapacityUnit.decimalScale : CapacityUnit → Nat
  | megabyte => 1000000
  | gigabyte => 1000000000
  | mebibyte => 1048576
  | gibibyte => 1073741824

/-- `binary_scale`. -/
def CapacityUnit.binaryScale : CapacityUnit → Nat
  | megabyte => 1048576
  | gigabyte => 1073741824
  | mebibyte => 1048576
  | gibibyte => 1073741824

/-- A match of `_CAPACITY`. -/
structure Capacity where
  integer : List Char
  fraction : List Char
  unit : CapacityUnit
  suffix : Option (List Char)
deriving DecidableEq, Repr

/-- An ASCII digit. -/
def isDigit (c : Char) : Bool :=
  '0' ≤ c && c ≤ '9'

/-- The number that digits spell. -/
def digitsValue (digits : List Char) : Nat :=
  digits.foldl (fun n c => 10 * n + (c.toNat - 48)) 0

/-- `0|[1-9][0-9]*`. -/
def isInteger (digits : List Char) : Bool :=
  digits == ['0'] || match digits with
    | first :: _ => first != '0'
    | [] => false

/-- The digits of a fraction after a point, and what follows. -/
def fractionMatch : List Char → List Char × List Char
  | '.' :: rest =>
    if rest.takeWhile isDigit = [] then ([], '.' :: rest)
    else (rest.takeWhile isDigit, rest.dropWhile isDigit)
  | rest => ([], rest)

/-- `MB|GB|MiB|GiB`, and what follows. -/
def unitMatch : List Char → Option (CapacityUnit × List Char)
  | 'M' :: 'B' :: rest => some (.megabyte, rest)
  | 'G' :: 'B' :: rest => some (.gigabyte, rest)
  | 'M' :: 'i' :: 'B' :: rest => some (.mebibyte, rest)
  | 'G' :: 'i' :: 'B' :: rest => some (.gibibyte, rest)
  | _ => none

/-- `\s+RAM|\s+available space`, or nothing. -/
def suffixMatch : List Char → Option (Option (List Char))
  | [] => some none
  | c :: rest =>
    let word := rest.dropWhile isSpace
    if isSpace c && (word == "RAM".toList || word == "available space".toList) then
      some (some (c :: rest))
    else none

/-- `_CAPACITY.fullmatch`. -/
def capacityMatch (value : List Char) : Option Capacity :=
  let integer := value.takeWhile isDigit
  let (fraction, rest) := fractionMatch (value.dropWhile isDigit)
  if !isInteger integer then none
  else do
    let (unit, rest) ← unitMatch (rest.dropWhile isSpace)
    let suffix ← suffixMatch rest
    return ⟨integer, fraction, unit, suffix⟩

/-- `Decimal` of the number of a match. -/
def Capacity.number (capacity : Capacity) : Decimal :=
  ⟨digitsValue (capacity.integer ++ capacity.fraction), -capacity.fraction.length⟩

/-- The suffix belongs to the other component. -/
def CapacityComponent.conflicts (component : CapacityComponent) (capacity : Capacity) : Bool :=
  match component with
  | memory => capacity.suffix == some " available space".toList
  | storage => capacity.suffix == some " RAM".toList

/-- A word of two letters, in any case, with nothing of a word around it. -/
def wordAt (lib : CharLibrary) (previous : Option Char) (first second : Char) :
    List Char → Bool
  | c :: d :: rest =>
    c.toLower == first && d.toLower == second && !previous.any lib.isWord &&
      !rest.head?.any lib.isWord
  | _ => false

/-- A digit, a dash and a digit. -/
def dashAt : List Char → Bool
  | c :: rest =>
    isDigit c && match rest.dropWhile isSpace with
      | dash :: more =>
        (dash == '-' || dash == '–' || dash == '—') &&
          (more.dropWhile isSpace).head?.any isDigit
      | [] => false
  | [] => false

/-- The text names a range or an alternative. -/
def mentionsRange (lib : CharLibrary) (previous : Option Char) : List Char → Bool
  | [] => false
  | c :: rest =>
    wordAt lib previous 'o' 'r' (c :: rest) || wordAt lib previous 't' 'o' (c :: rest) ||
      c == '/' || dashAt (c :: rest) || mentionsRange lib (some c) rest

/-- The precision of the decimal context. -/
def precision : Nat :=
  28

/-- The interval of a number of units: `_parse_capacity` from the products on. -/
def capacityInterval (component : CapacityComponent) (number : Decimal) (unit : CapacityUnit) :
    RequirementFact ByteInterval :=
  let lowerDecimal := (number.scale unit.decimalScale).roundTo precision
  let upperDecimal := (number.scale unit.binaryScale).roundTo precision
  if !lowerDecimal.equal lowerDecimal.toIntegralValue ||
      !upperDecimal.equal upperDecimal.toIntegralValue then
    .unknown (component.name ++ "_quantity_not_exact_bytes")
  else if h : 0 < lowerDecimal.toInt ∧ lowerDecimal.toInt ≤ upperDecimal.toInt ∧
      upperDecimal.toInt ≤ maxBytes then
    .known ⟨lowerDecimal.toInt, upperDecimal.toInt, h.1, h.2.1, h.2.2⟩
  else .unknown (component.name ++ "_quantity_out_of_range")

/-- `_parse_capacity`. -/
def parseCapacity (lib : CharLibrary) (value : List Char) (component : CapacityComponent) :
    RequirementFact ByteInterval :=
  match capacityMatch value with
  | none =>
    .unknown (component.name ++ if mentionsRange lib none value then
      "_range_or_alternative_not_comparable" else "_quantity_malformed_or_unknown_unit")
  | some capacity =>
    if component.conflicts capacity then
      .unknown (component.name ++ "_quantity_suffix_conflicts")
    else if capacity.number.coefficient = 0 then
      .unknown (component.name ++ "_quantity_out_of_range")
    else capacityInterval component capacity.number capacity.unit

/-! ## Parsing and comparing -/

/-- An architecture fact. -/
def parseArchitecture (value : List Char) : RequirementFact Architecture :=
  match String.ofList value with
  | "x86" => .known .x86
  | "x86_64" => .known .x8664
  | "arm64" => .known .arm64
  | _ => .unknown "architecture_not_exact_isa_token"

/-- A fact about a model name. -/
def parseModel (component : ModelComponent) (value : List Char) : RequirementFact Empty :=
  .unknown (component.name ++ if value ≠ [] then "_requirement_opaque" else "_requirement_malformed")

/-- `_merge`. -/
def merge {α : Type} [DecidableEq α] (name : String) :
    List (RequirementFact α) → RequirementFact α
  | [] => .missing (name ++ "_requirement_missing")
  | first :: others =>
    if others.any (· != first) then
      .unknown ("conflicting_duplicate_" ++ name ++ "_requirements")
    else first

/-- `_rejected`. -/
def rejected (reason : String) : ParsedMinimumRequirements :=
  ⟨some reason, fun _ => .unknown reason, .unknown reason, fun _ => .unknown reason⟩

/-- The values found for a component. -/
def foundValues (component : Component) (found : List (Component × List Char)) :
    List (List Char) :=
  (found.filter fun entry => entry.1 = component).map Prod.snd

/-- `parse_declared_minimum`. -/
def parseDeclaredMinimum (lib : CharLibrary) (source : DeclaredRequirementsText) :
    ParsedMinimumRequirements :=
  if source.textSection ≠ .minimum then rejected "recommended_section_not_parsed"
  else
    match validateInput lib source.text with
    | some reason => rejected reason
    | none =>
      match readLines ((source.text.getD []).splitOn '\n') with
      | .error reason => rejected reason
      | .ok found =>
        { inputReason := none
          capacity := fun component => merge component.name
            ((foundValues (.capacity component) found).map (parseCapacity lib · component))
          architecture := merge "architecture"
            ((foundValues .architecture found).map parseArchitecture)
          model := fun component => merge component.name
            ((foundValues (.model component) found).map (parseModel component)) }

/-- `_compare_capacity`. -/
def compareCapacity (actual : Option Nat) (fact : RequirementFact ByteInterval)
    (component : CapacityComponent) : ComponentComparison :=
  match fact with
  | .missing reason => ⟨.unknown, reason⟩
  | .unknown reason => ⟨.unknown, reason⟩
  | .known interval =>
    match actual with
    | none => ⟨.unknown, "system_" ++ component.name ++ "_unknown"⟩
    | some actual =>
      if actual < interval.lowerBytes then
        ⟨.fail, "system_" ++ component.name ++ "_below_required_lower_bound"⟩
      else if actual ≥ interval.upperBytes then
        ⟨.pass, "system_" ++ component.name ++ "_meets_required_upper_bound"⟩
      else ⟨.unknown, "system_" ++ component.name ++ "_within_ambiguous_unit_interval"⟩

/-- `_compare_architecture`. -/
def compareArchitecture (system : SystemCapacity) (fact : RequirementFact Architecture) :
    ComponentComparison :=
  match fact with
  | .missing reason => ⟨.unknown, reason⟩
  | .unknown reason => ⟨.unknown, reason⟩
  | .known required =>
    match system.architecture with
    | none => ⟨.unknown, "system_architecture_unknown"⟩
    | some native =>
      if (native :: system.supportedArchitectures).contains required then
        ⟨.pass, "exact_isa_supported"⟩
      else ⟨.unknown, "exact_isa_support_relation_unknown"⟩

/-- `_opaque_comparison`. -/
def modelComparison (component : ModelComponent) (fact : RequirementFact Empty) :
    ComponentComparison :=
  match fact with
  | .missing _ => ⟨.pass, component.name ++ "_requirement_not_declared"⟩
  | .unknown reason => ⟨.unknown, reason⟩

/-- `compare_declared_minimum`. -/
def compareDeclaredMinimum (system : SystemCapacity) (requirements : ParsedMinimumRequirements) :
    MinimumRequirementsComparison :=
  let capacity := fun component =>
    compareCapacity (system.bytes component) (requirements.capacity component) component
  let architecture := compareArchitecture system requirements.architecture
  let model := fun component => modelComparison component (requirements.model component)
  let states := [(capacity .memory).state, (capacity .storage).state, architecture.state,
    (model .cpu).state, (model .gpu).state]
  ⟨if states.contains .fail then .fail else if states.contains .unknown then .unknown else .pass,
    capacity, architecture, model⟩

end SteamAgent.Requirements
