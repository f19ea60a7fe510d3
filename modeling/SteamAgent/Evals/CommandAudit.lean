import Mathlib.Data.List.Dedup
import Mathlib.Data.List.Lex
import SteamAgent.Evals.CommandLine
import SteamAgent.Stdlib.Choice
import SteamAgent.Stdlib.PyJson

/-!
# The audit of a command against its requirements

`command_satisfies_requirement` and `privacy_safe_command_audit` of `grade.py`, which read the
options of a command with two parsers.

There are five groups.

* The options of a requirement.
* The two parsers of a command's options and what each of them compares.
* The audit, whose result is a JSON object as in the source.
* `Parses`: the options that either parser finds.
* Where the audit reads the words of a call, the requirement reads the same.
-/

namespace SteamAgent.Evals.CommandAudit

open CommandLine
open PyJson (member)

/-! ## Requirements -/

/-- A `dict` of options, each with the values that were given to it. -/
abbrev Options := List (PyStr × List (Option PyStr))

/-- `options.setdefault(name, []).append(value)`. -/
def put (options : Options) (name : PyStr) (value : Option PyStr) : Options :=
  match options with
  | [] => [(name, [value])]
  | (key, values) :: rest =>
    if key = name then (key, values ++ [value]) :: rest else (key, values) :: put rest name value

/-- A requirement of a tool policy. -/
structure Requirement where
  command : PyStr
  arguments : List PyStr
  acceptedOptionalOptions : Option PyJson

/-- The loop of `_required_arguments`. -/
def requiredFrom (options : Options) (positionals : List PyStr) :
    List PyStr → Options × List PyStr
  | [] => (options, positionals)
  | argument :: rest =>
    if startsWith argument "--" then
      if (partition argument).2.1 then
        requiredFrom (put options (partition argument).1 (some (partition argument).2.2))
          positionals rest
      else
        match rest with
        | value :: rest' =>
          if startsWith value "--" = false then
            requiredFrom (put options (partition argument).1 (some value)) positionals rest'
          else requiredFrom (put options (partition argument).1 none) positionals (value :: rest')
        | [] => (put options (partition argument).1 none, positionals)
    else requiredFrom options (positionals ++ [argument]) rest

/-- `_required_arguments`. -/
def requiredArguments (arguments : List PyStr) : Options × List PyStr :=
  requiredFrom [] [] arguments

/-- `_OPTION_NAME.fullmatch`. -/
def isOptionName (name : PyStr) : Bool :=
  match name with
  | 45 :: 45 :: c :: rest =>
    (97 ≤ c && c ≤ 122) && decide (rest.length ≤ 63) &&
      rest.all fun d => (97 ≤ d && d ≤ 122) || (48 ≤ d && d ≤ 57) || d == 45
  | _ => false

/-- `_MAX_OPTION_VALUE_CHARACTERS`. -/
def maxOptionValueCharacters : Nat :=
  256

/-- The value of a declaration: none when it has no value, and nothing when it is refused. -/
def declaredValue (fields : List (PyStr × PyJson)) : Option (Option PyStr) :=
  match member fields "value" with
  | none => some none
  | some (.str value) =>
    if value = [] ∨ maxOptionValueCharacters < value.length ∨ startsWith value "--" then none
    else some (some value)
  | some _ => none

/-- One turn of `_accepted_optional_options`. -/
def acceptDeclaration (required accepted : Options) (declaration : PyJson) : Option Options :=
  match declaration with
  | .dict fields =>
    if fields.any fun f => f.1 ∉ ["name", "value"].map PyStr.ofString then none
    else
      match member fields "name" with
      | some (.str name) =>
        if isOptionName name = false ∨ name = PyStr.ofString "--format" ∨
            (required.lookup name).isSome ∨ (accepted.lookup name).isSome then none
        else (declaredValue fields).map fun value => accepted ++ [(name, [value])]
      | _ => none
  | _ => none

/-- `_accepted_optional_options`. -/
def acceptedOptionalOptions (requirement : Requirement) (required : Options) : Option Options :=
  match requirement.acceptedOptionalOptions with
  | none => some []
  | some (.list declarations) =>
    if 16 < declarations.length then none
    else declarations.foldlM (acceptDeclaration required) []
  | some _ => none

/-! ## The two parsers -/

/-- The loop that both parsers share, with the arity of the options they know and the words they
take for positionals. -/
def parseOptions (arity : PyStr → Option Bool) (isWord : PyStr → Bool) (sawFormat : Bool)
    (options : Options) (positionals : List PyStr) : List PyStr → Option (Options × List PyStr)
  | [] => some (options, positionals)
  | token :: rest =>
    if (partition token).1 = PyStr.ofString "--format" then
      if sawFormat then none
      else if (partition token).2.1 then
        if (partition token).2.2 ≠ PyStr.ofString "json" then none
        else parseOptions arity isWord true options positionals rest
      else
        match rest with
        | [] => none
        | value :: rest' =>
          if value ≠ PyStr.ofString "json" then none
          else parseOptions arity isWord true options positionals rest'
    else if startsWith (partition token).1 "--" then
      match arity (partition token).1 with
      | none => none
      | some takesValue =>
        if (partition token).2.1 then
          if takesValue = false ∨ (partition token).2.2 = [] then none
          else
            parseOptions arity isWord sawFormat
              (put options (partition token).1 (some (partition token).2.2)) positionals rest
        else if takesValue then
          match rest with
          | [] => none
          | value :: rest' =>
            if startsWith value "--" then none
            else
              parseOptions arity isWord sawFormat (put options (partition token).1 (some value))
                positionals rest'
        else
          parseOptions arity isWord sawFormat (put options (partition token).1 none) positionals
            rest
    else if isWord token then
      parseOptions arity isWord sawFormat options (positionals ++ [token]) rest
    else none

/-- An option that a requirement knows takes a value when one of its values is given. -/
def expectedArity (expected : Options) (name : PyStr) : Option Bool :=
  (expected.lookup name).map fun values => values.any fun value => value.isSome

/-- `_normalize_actual_arguments`. -/
def normalizeActualArguments (tokens : List PyStr) (expected : Options) :
    Option (Options × List PyStr) :=
  parseOptions (expectedArity expected) (fun _ => true) false [] [] tokens

/-- `_arguments_present`. -/
def argumentsPresent (callTail : List PyStr) (expectedOptions : Options)
    (expectedPositionals : List PyStr) (acceptedOptions : Options) : Bool :=
  match normalizeActualArguments callTail (expectedOptions ++ acceptedOptions) with
  | none => false
  | some (actualOptions, actualPositionals) =>
    expectedOptions.all (fun o => actualOptions.lookup o.1 = some o.2) &&
      acceptedOptions.all (fun o =>
        actualOptions.lookup o.1 = none ∨ actualOptions.lookup o.1 = some o.2) &&
      decide (actualPositionals = expectedPositionals)

/-- `command_satisfies_requirement`. -/
def commandSatisfiesRequirement (command : PyStr) (requirement : Requirement)
    (expectedExecutable : Option PyStr) : Bool :=
  match (normalizedSteamAgentArgv command expectedExecutable).bind cliCommandTail,
    (normalizedSteamAgentArgv requirement.command none).bind cliCommandTail with
  | some actualTail, some expectedTail =>
    if actualTail.take expectedTail.length ≠ expectedTail then false
    else
      let required := requiredArguments requirement.arguments
      match acceptedOptionalOptions requirement required.1 with
      | none => false
      | some accepted =>
        argumentsPresent (actualTail.drop expectedTail.length) required.1 required.2 accepted
  | _, _ => false

/-- `_COMMAND_AUDIT_OPTIONS`: the options that take a value, and those that take none. -/
def valuedAuditOptions : List PyStr :=
  ["--account", "--appid", "--budget-bytes", "--context-account", "--context-machine",
    "--copy-source", "--country", "--destination-library-ordinal", "--dislike", "--exclude-trait",
    "--expires-minutes", "--host", "--language", "--like", "--limit", "--machine", "--member",
    "--mode", "--objective", "--override", "--playtime", "--policy", "--recipe", "--require",
    "--require-mode", "--scope", "--store-class", "--target", "--target-bytes", "--time-minutes",
    "--unknown"].map PyStr.ofString

def flagAuditOptions : List PyStr :=
  ["--explain", "--include-paths", "--include-member-evidence"].map PyStr.ofString

/-- `_COMMAND_AUDIT_OPTIONS.get(option)`. -/
def auditArity (option : PyStr) : Option Bool :=
  if option ∈ valuedAuditOptions then some true
  else if option ∈ flagAuditOptions then some false
  else none

/-- `_audit_actual_arguments`, which refuses a word that starts with a hyphen. -/
def auditActualArguments (tokens : List PyStr) : Option (Options × List PyStr) :=
  parseOptions auditArity (fun token => !startsWith token "-") false [] [] tokens

/-! ## The audit -/

def text (s : String) : PyJson :=
  .str (PyStr.ofString s)

/-- A mismatch of a kind. -/
def mismatch (kind : String) : PyJson :=
  .dict [(PyStr.ofString "kind", text kind)]

/-- A mismatch at an option. -/
def optionMismatch (kind : String) (name : PyStr) : PyJson :=
  .dict [(PyStr.ofString "kind", text kind), (PyStr.ofString "option", .str name)]

/-- What is wrong with the values that an option has. -/
def valueMismatches (name : PyStr) (actual values : List (Option PyStr)) : List PyJson :=
  if actual.length < values.length then [optionMismatch "missing_option" name]
  else if values.length < actual.length then [optionMismatch "duplicate_option" name]
  else if actual ≠ values then [optionMismatch "wrong_value" name]
  else []

/-- `_audit_requirement_mismatches`. -/
def requirementMismatches (actualHead : List PyStr) (actual : Options × List PyStr)
    (requirement : Requirement) : List PyJson :=
  let expectedTail :=
    cliCommandTail ((normalizedSteamAgentArgv requirement.command none).getD [])
  if (expectedTail.map fun tail => decide (tail.take 2 = actualHead)) ≠ some true then
    [mismatch "wrong_head"]
  else
    let required := requiredArguments requirement.arguments
    match acceptedOptionalOptions requirement required.1 with
    | none => [mismatch "invalid_argument_shape"]
    | some accepted =>
      if (required.1 ++ accepted).any fun o => (auditArity o.1).isNone then
        [mismatch "invalid_argument_shape"]
      else
        required.1.flatMap (fun o =>
          match actual.1.lookup o.1 with
          | none => [optionMismatch "missing_option" o.1]
          | some values => valueMismatches o.1 values o.2) ++
        accepted.flatMap (fun o =>
          match actual.1.lookup o.1 with
          | none => []
          | some values => valueMismatches o.1 values o.2) ++
        (Choice.sortBy id (((actual.1.map Prod.fst).filter fun name =>
            ((required.1 ++ accepted).lookup name).isNone).dedup)).map
          (optionMismatch "unexpected_known_option") ++
        if actual.2 ≠ required.2 then [mismatch "positionals"] else []

/-- `_DISCOVERY_SAFE_READ_HEADS`. -/
def discoverySafeReadHeads : List (List PyStr) :=
  [["accounts", "status"], ["compatibility", "assess"], ["deals", "query"], ["discovery", "query"],
    ["games", "query"], ["group", "eligibility"], ["group", "recommend"],
    ["operations", "observe"], ["operations", "plan"], ["recommendations", "query"],
    ["recommendations", "wishlist"], ["storage", "rank"]].map fun head => head.map PyStr.ofString

/-- `" ".join(head)`. -/
def joinHead (head : List PyStr) : PyStr :=
  (head.intersperse [32]).flatten

/-- The result about one requirement. -/
def requirementResult (index : Nat) (mismatches : List PyJson) : PyJson :=
  .dict
    [(PyStr.ofString "index", .int index), (PyStr.ofString "matched", .bool mismatches.isEmpty),
      (PyStr.ofString "mismatches", .list mismatches)]

/-- `privacy_safe_command_audit`. -/
def privacySafeCommandAudit (command : PyStr) (requirements : List Requirement)
    (expectedExecutable expectedDataDir : PyStr) : Option PyJson :=
  match normalizedSteamAgentArgv command (some expectedExecutable) with
  | none => none
  | some argv =>
    let globalState : PyJson :=
      .dict
        [(PyStr.ofString "expected_data_dir", .bool (hasExpectedDataDir argv expectedDataDir)),
          (PyStr.ofString "json_format", .bool (hasJsonFormat argv))]
    if isHelpCall argv then
      some (.dict [(PyStr.ofString "class", text "help"), (PyStr.ofString "global", globalState)])
    else
      match cliCommandTail argv with
      | none => none
      | some tail =>
        if tail.length < 2 then none
        else if tail.take 2 ∉ discoverySafeReadHeads then
          some (.dict
            [(PyStr.ofString "class", text "opaque"), (PyStr.ofString "global", globalState)])
        else
          match auditActualArguments (tail.drop 2) with
          | none =>
            some (.dict
              [(PyStr.ofString "class", text "opaque"),
                (PyStr.ofString "head", .str (joinHead (tail.take 2))),
                (PyStr.ofString "global", globalState)])
          | some actual =>
            some (.dict
              [(PyStr.ofString "class", text "safe_read"),
                (PyStr.ofString "head", .str (joinHead (tail.take 2))),
                (PyStr.ofString "global", globalState),
                (PyStr.ofString "requirements", .list (requirements.zipIdx.map fun r =>
                  requirementResult r.2 (requirementMismatches (tail.take 2) actual r.1)))])

/-! ## The options that a parser finds -/

theorem keys_put (options : Options) (name : PyStr) (value : Option PyStr) (key : PyStr) :
    key ∈ (put options name value).map Prod.fst ↔ key ∈ options.map Prod.fst ∨ key = name := by
  induction options with
  | nil => simp [put]
  | cons o options ih =>
    obtain ⟨k, values⟩ := o
    unfold put
    split
    · next h =>
      subst h
      simp only [List.map_cons, List.mem_cons]
      tauto
    · simp only [List.map_cons, List.mem_cons, ih]
      tauto

/-- The ways in which one turn of the loop goes on. -/
inductive Parses (arity : PyStr → Option Bool) (isWord : PyStr → Bool) :
    Bool → Options → List PyStr → List PyStr → Options × List PyStr → Prop where
  | done (sawFormat : Bool) (options : Options) (positionals : List PyStr) :
    Parses arity isWord sawFormat options positionals [] (options, positionals)
  | format {options : Options} {positionals rest : List PyStr} {token : PyStr}
      {found : Options × List PyStr} (hname : (partition token).1 = PyStr.ofString "--format")
      (hinline : (partition token).2.1 = true)
      (hjson : (partition token).2.2 = PyStr.ofString "json")
      (hrest : Parses arity isWord true options positionals rest found) :
    Parses arity isWord false options positionals (token :: rest) found
  | formatValue {options : Options} {positionals rest : List PyStr} {token : PyStr}
      {found : Options × List PyStr} (hname : (partition token).1 = PyStr.ofString "--format")
      (hinline : (partition token).2.1 = false)
      (hrest : Parses arity isWord true options positionals rest found) :
    Parses arity isWord false options positionals (token :: PyStr.ofString "json" :: rest) found
  | inline {sawFormat : Bool} {options : Options} {positionals rest : List PyStr} {token : PyStr}
      {found : Options × List PyStr} (hname : (partition token).1 ≠ PyStr.ofString "--format")
      (hoption : startsWith (partition token).1 "--" = true)
      (harity : arity (partition token).1 = some true) (hinline : (partition token).2.1 = true)
      (hvalue : (partition token).2.2 ≠ [])
      (hrest : Parses arity isWord sawFormat
        (put options (partition token).1 (some (partition token).2.2)) positionals rest found) :
    Parses arity isWord sawFormat options positionals (token :: rest) found
  | valued {sawFormat : Bool} {options : Options} {positionals rest : List PyStr}
      {token value : PyStr} {found : Options × List PyStr}
      (hname : (partition token).1 ≠ PyStr.ofString "--format")
      (hoption : startsWith (partition token).1 "--" = true)
      (harity : arity (partition token).1 = some true) (hinline : (partition token).2.1 = false)
      (hvalue : startsWith value "--" = false)
      (hrest : Parses arity isWord sawFormat (put options (partition token).1 (some value))
        positionals rest found) :
    Parses arity isWord sawFormat options positionals (token :: value :: rest) found
  | flag {sawFormat : Bool} {options : Options} {positionals rest : List PyStr} {token : PyStr}
      {found : Options × List PyStr} (hname : (partition token).1 ≠ PyStr.ofString "--format")
      (hoption : startsWith (partition token).1 "--" = true)
      (harity : arity (partition token).1 = some false) (hinline : (partition token).2.1 = false)
      (hrest : Parses arity isWord sawFormat (put options (partition token).1 none) positionals rest
        found) :
    Parses arity isWord sawFormat options positionals (token :: rest) found
  | word {sawFormat : Bool} {options : Options} {positionals rest : List PyStr} {token : PyStr}
      {found : Options × List PyStr} (hname : (partition token).1 ≠ PyStr.ofString "--format")
      (hoption : startsWith (partition token).1 "--" = false) (hword : isWord token = true)
      (hrest : Parses arity isWord sawFormat options (positionals ++ [token]) rest found) :
    Parses arity isWord sawFormat options positionals (token :: rest) found

section Parses

variable {arity : PyStr → Option Bool} {isWord : PyStr → Bool} {sawFormat : Bool}
  {options : Options} {positionals tokens : List PyStr} {found : Options × List PyStr}

theorem parses_of_eq (h : parseOptions arity isWord sawFormat options positionals tokens = some found) :
    Parses arity isWord sawFormat options positionals tokens found := by
  fun_induction parseOptions arity isWord sawFormat options positionals tokens with
  | case1 sawFormat options positionals =>
    cases h
    exact .done _ _ _
  | case4 sawFormat options positionals token rest hname hsaw hinline hjson ih =>
    rw [Bool.not_eq_true] at hsaw
    subst hsaw
    exact .format hname hinline (not_not.mp hjson) (ih h)
  | case7 sawFormat options positionals token hname hsaw hinline value rest hjson ih =>
    rw [Bool.not_eq_true] at hsaw hinline
    subst hsaw
    rw [not_not.mp hjson]
    exact .formatValue hname hinline (ih h)
  | case10 sawFormat options positionals token rest hname hoption takesValue harity hinline hvalue
      ih =>
    rw [not_or, Bool.not_eq_false] at hvalue
    rw [hvalue.1] at harity
    exact .inline hname hoption harity hinline hvalue.2 (ih h)
  | case13 sawFormat options positionals token hname hoption hinline value rest hvalue harity ih =>
    rw [Bool.not_eq_true] at hinline hvalue
    exact .valued hname hoption harity hinline hvalue (ih h)
  | case14 sawFormat options positionals token rest hname hoption takesValue harity hinline htakes
      ih =>
    rw [Bool.not_eq_true] at hinline htakes
    rw [htakes] at harity
    exact .flag hname hoption harity hinline (ih h)
  | case15 sawFormat options positionals token rest hname hoption hword ih =>
    rw [Bool.not_eq_true] at hoption
    exact .word hname hoption hword (ih h)
  | _ => cases h

theorem Parses.eq (h : Parses arity isWord sawFormat options positionals tokens found) :
    parseOptions arity isWord sawFormat options positionals tokens = some found := by
  induction h with
  | done => rfl
  | format hname hinline hjson _ ih =>
    unfold parseOptions
    rw [if_pos hname, if_neg Bool.false_ne_true, if_pos hinline, if_neg (not_not_intro hjson), ih]
  | formatValue hname hinline _ ih =>
    unfold parseOptions
    rw [if_pos hname, if_neg Bool.false_ne_true, if_neg (by simp [hinline])]
    simpa using ih
  | inline hname hoption harity hinline hvalue _ ih =>
    unfold parseOptions
    rw [if_neg hname, if_pos hoption, harity]
    simpa [hinline, hvalue] using ih
  | valued hname hoption harity hinline hvalue _ ih =>
    unfold parseOptions
    rw [if_neg hname, if_pos hoption, harity]
    simpa [hinline, hvalue] using ih
  | flag hname hoption harity hinline _ ih =>
    unfold parseOptions
    rw [if_neg hname, if_pos hoption, harity]
    simpa [hinline] using ih
  | word hname hoption hword _ ih =>
    unfold parseOptions
    rw [if_neg hname, if_neg (by simp [hoption]), if_pos hword, ih]

/-- The options that a parser had are still there. -/
theorem Parses.keys (h : Parses arity isWord sawFormat options positionals tokens found)
    {key : PyStr} (hkey : key ∈ options.map Prod.fst) : key ∈ found.1.map Prod.fst := by
  induction h with
  | done => exact hkey
  | format _ _ _ _ ih => exact ih hkey
  | formatValue _ _ _ ih => exact ih hkey
  | inline _ _ _ _ _ _ ih => exact ih ((keys_put _ _ _ _).mpr (.inl hkey))
  | valued _ _ _ _ _ _ ih => exact ih ((keys_put _ _ _ _).mpr (.inl hkey))
  | flag _ _ _ _ _ ih => exact ih ((keys_put _ _ _ _).mpr (.inl hkey))
  | word _ _ _ _ ih => exact ih hkey

/-- Each option that a parser finds is one it had or one it knows. -/
theorem Parses.known (h : Parses arity isWord sawFormat options positionals tokens found)
    {key : PyStr} (hkey : key ∈ found.1.map Prod.fst) :
    key ∈ options.map Prod.fst ∨ (arity key).isSome = true := by
  have hput {options : Options} {name : PyStr} {value : Option PyStr} {b : Bool}
      (harity : arity name = some b)
      (h : key ∈ (put options name value).map Prod.fst ∨ (arity key).isSome = true) :
      key ∈ options.map Prod.fst ∨ (arity key).isSome = true := by
    rcases h with h | h
    · rcases (keys_put _ _ _ _).mp h with h | rfl
      · exact .inl h
      · exact .inr (by rw [harity]; rfl)
    · exact .inr h
  induction h with
  | done => exact .inl hkey
  | format _ _ _ _ ih => exact ih hkey
  | formatValue _ _ _ ih => exact ih hkey
  | inline _ _ harity _ _ _ ih => exact hput harity (ih hkey)
  | valued _ _ harity _ _ _ ih => exact hput harity (ih hkey)
  | flag _ _ harity _ _ ih => exact hput harity (ih hkey)
  | word _ _ _ _ ih => exact ih hkey

/-- Another parser that knows the same arities of the options that are found, and takes the same
words, finds the same. -/
theorem Parses.transfer (h : Parses arity isWord sawFormat options positionals tokens found)
    {arity' : PyStr → Option Bool} {isWord' : PyStr → Bool}
    (harities : ∀ key ∈ found.1.map Prod.fst, ∀ b, arity key = some b → arity' key = some b)
    (hwords : ∀ token, isWord token = true → isWord' token = true) :
    Parses arity' isWord' sawFormat options positionals tokens found := by
  have hput {options : Options} {name : PyStr} {value : Option PyStr} {sawFormat : Bool}
      {positionals tokens : List PyStr} {found : Options × List PyStr}
      (h : Parses arity isWord sawFormat (put options name value) positionals tokens found) :
      name ∈ found.1.map Prod.fst := h.keys ((keys_put _ _ _ _).mpr (.inr rfl))
  induction h with
  | done => exact .done _ _ _
  | format hname hinline hjson _ ih => exact .format hname hinline hjson (ih harities)
  | formatValue hname hinline _ ih => exact .formatValue hname hinline (ih harities)
  | inline hname hoption harity hinline hvalue hrest ih =>
    exact .inline hname hoption (harities _ (hput hrest) _ harity) hinline hvalue (ih harities)
  | valued hname hoption harity hinline hvalue hrest ih =>
    exact .valued hname hoption (harities _ (hput hrest) _ harity) hinline hvalue (ih harities)
  | flag hname hoption harity hinline hrest ih =>
    exact .flag hname hoption (harities _ (hput hrest) _ harity) hinline (ih harities)
  | word hname hoption hword _ ih => exact .word hname hoption (hwords _ hword) (ih harities)

end Parses

/-! ## What the audit says and what the requirement says -/

/-- A requirement whose command is a safe head, and whose options are audited ones, each with the
values that the audit has it take. -/
structure Auditable (requirement : Requirement) : Prop where
  head : ∃ head ∈ discoverySafeReadHeads,
    (normalizedSteamAgentArgv requirement.command none).bind cliCommandTail = some head
  arity : ∀ o ∈ (requiredArguments requirement.arguments).1 ++
    (acceptedOptionalOptions requirement (requiredArguments requirement.arguments).1).getD [],
    ∃ takesValue, auditArity o.1 = some takesValue ∧ ∀ value ∈ o.2, value.isSome = takesValue

theorem put_values (options : Options) (name : PyStr) (value : Option PyStr)
    (h : ∀ o ∈ options, o.2 ≠ []) : ∀ o ∈ put options name value, o.2 ≠ [] := by
  induction options with
  | nil => simp [put]
  | cons o options ih =>
    obtain ⟨key, values⟩ := o
    have hrest := ih fun o ho => h o (List.mem_cons_of_mem _ ho)
    have hfirst := h _ List.mem_cons_self
    unfold put
    split
    · intro o ho
      rcases List.mem_cons.mp ho with rfl | ho
      · simp
      · exact h o (List.mem_cons_of_mem _ ho)
    · intro o ho
      rcases List.mem_cons.mp ho with rfl | ho
      · exact hfirst
      · exact hrest o ho

theorem requiredFrom_values (options : Options) (positionals arguments : List PyStr)
    (h : ∀ o ∈ options, o.2 ≠ []) :
    ∀ o ∈ (requiredFrom options positionals arguments).1, o.2 ≠ [] := by
  fun_induction requiredFrom options positionals arguments with
  | case1 => exact h
  | case2 options positionals argument rest hoption hinline ih => exact ih (put_values _ _ _ h)
  | case3 options positionals argument hoption hinline value rest hvalue ih =>
    exact ih (put_values _ _ _ h)
  | case4 options positionals argument hoption hinline value rest hvalue ih =>
    exact ih (put_values _ _ _ h)
  | case5 options positionals argument hoption hinline => exact put_values _ _ _ h
  | case6 options positionals argument rest hoption ih => exact ih h

theorem acceptDeclaration_values {required accepted accepted' : Options} {declaration : PyJson}
    (h : acceptDeclaration required accepted declaration = some accepted')
    (hvalues : ∀ o ∈ accepted, o.2 ≠ []) : ∀ o ∈ accepted', o.2 ≠ [] := by
  unfold acceptDeclaration at h
  split at h
  · split at h
    · cases h
    · split at h
      · split at h
        · cases h
        · obtain ⟨value, _, rfl⟩ := Option.map_eq_some_iff.mp h
          intro o ho
          rcases List.mem_append.mp ho with ho | ho
          · exact hvalues o ho
          · rw [List.mem_singleton.mp ho]
            exact List.cons_ne_nil _ _
      · cases h
  · cases h

theorem acceptAll_values {required accepted accepted' : Options} {declarations : List PyJson}
    (h : declarations.foldlM (acceptDeclaration required) accepted = some accepted')
    (hvalues : ∀ o ∈ accepted, o.2 ≠ []) : ∀ o ∈ accepted', o.2 ≠ [] := by
  induction declarations generalizing accepted with
  | nil =>
    cases h
    exact hvalues
  | cons declaration declarations ih =>
    rw [List.foldlM_cons] at h
    obtain ⟨next, hnext, hrest⟩ := Option.bind_eq_some_iff.mp h
    exact ih hrest (acceptDeclaration_values hnext hvalues)

theorem accepted_values {requirement : Requirement} {required accepted : Options}
    (h : acceptedOptionalOptions requirement required = some accepted) :
    ∀ o ∈ accepted, o.2 ≠ [] := by
  unfold acceptedOptionalOptions at h
  split at h
  · cases h
    simp
  · split at h
    · cases h
    · exact acceptAll_values h (by simp)
  · cases h

theorem mem_of_lookup {options : Options} {name : PyStr} {values : List (Option PyStr)}
    (h : options.lookup name = some values) : (name, values) ∈ options := by
  obtain ⟨before, after, rfl, _⟩ := List.lookup_eq_some_iff.mp h
  simp

theorem lookup_isSome_iff {options : Options} {name : PyStr} :
    (options.lookup name).isSome = true ↔ name ∈ options.map Prod.fst := by
  rw [← not_iff_not, Bool.not_eq_true, Option.isSome_eq_false_iff, Option.isNone_iff_eq_none,
    List.lookup_eq_none_iff]
  simp only [bne_iff_ne, List.mem_map, not_exists, not_and]
  exact forall₂_congr fun o _ => ⟨fun h h' => h h'.symm, fun h h' => h h'.symm⟩

theorem any_isSome {values : List (Option PyStr)} {takesValue : Bool} (hvalues : values ≠ [])
    (h : ∀ value ∈ values, value.isSome = takesValue) :
    (values.any fun value => value.isSome) = takesValue := by
  obtain ⟨value, rest, rfl⟩ := List.exists_cons_of_ne_nil hvalues
  cases takesValue with
  | false => simpa using h
  | true =>
    rw [List.any_cons, h value List.mem_cons_self]
    rfl

/-- Options whose values are as the audit has them are known with the arity of the audit. -/
theorem expectedArity_eq {expected : Options} {name : PyStr} (hvalues : ∀ o ∈ expected, o.2 ≠ [])
    (harity : ∀ o ∈ expected, ∃ takesValue, auditArity o.1 = some takesValue ∧
      ∀ value ∈ o.2, value.isSome = takesValue) (hname : name ∈ expected.map Prod.fst) :
    expectedArity expected name = auditArity name := by
  obtain ⟨values, hlookup⟩ := Option.isSome_iff_exists.mp (lookup_isSome_iff.mpr hname)
  have hmem := mem_of_lookup hlookup
  obtain ⟨takesValue, htakes, hall⟩ := harity _ hmem
  rw [expectedArity, hlookup, Option.map_some, any_isSome (hvalues _ hmem) hall, ← htakes]

/-- Where the audit reads the words of a call, the requirement reads them too when it knows every
option of them, and then it reads the same. -/
theorem normalizeActualArguments_eq_some_iff {expected : Options} {tokens : List PyStr}
    {actual found : Options × List PyStr} (hvalues : ∀ o ∈ expected, o.2 ≠ [])
    (harity : ∀ o ∈ expected, ∃ takesValue, auditArity o.1 = some takesValue ∧
      ∀ value ∈ o.2, value.isSome = takesValue) (hactual : auditActualArguments tokens = some actual) :
    normalizeActualArguments tokens expected = some found ↔
      found = actual ∧ ∀ name ∈ actual.1.map Prod.fst, name ∈ expected.map Prod.fst := by
  have haudit : Parses auditArity (fun _ => true) false [] [] tokens actual :=
    (parses_of_eq hactual).transfer (fun _ _ _ h => h) fun _ _ => rfl
  constructor
  · intro h
    have hparses := parses_of_eq h
    have hknown : ∀ name ∈ found.1.map Prod.fst, name ∈ expected.map Prod.fst := by
      intro name hname
      rcases hparses.known hname with hname | hname
      · simp at hname
      · rw [expectedArity, Option.isSome_map] at hname
        exact lookup_isSome_iff.mp hname
    have hsame : Parses auditArity (fun _ => true) false [] [] tokens found :=
      hparses.transfer
        (fun name hname takesValue h => by
          rw [← expectedArity_eq hvalues harity (hknown name hname)]
          exact h)
        fun _ h => h
    have heq : found = actual := Option.some.inj (hsame.eq.symm.trans haudit.eq)
    subst heq
    exact ⟨rfl, hknown⟩
  · rintro ⟨rfl, hknown⟩
    exact (haudit.transfer
      (fun name hname takesValue h => by
        rw [expectedArity_eq hvalues harity (hknown name hname)]
        exact h)
      fun _ h => h).eq

theorem valueMismatches_eq_nil {name : PyStr} {actual values : List (Option PyStr)} :
    valueMismatches name actual values = [] ↔ actual = values := by
  unfold valueMismatches
  split
  · next h =>
    refine ⟨fun h' => absurd h' (List.cons_ne_nil _ _), ?_⟩
    rintro rfl
    omega
  · split
    · next h =>
      refine ⟨fun h' => absurd h' (List.cons_ne_nil _ _), ?_⟩
      rintro rfl
      omega
    · split
      · next h => exact ⟨fun h' => absurd h' (List.cons_ne_nil _ _), fun h' => absurd h' h⟩
      · next h => exact ⟨fun _ => not_not.mp h, fun _ => rfl⟩

/-- What an empty list of mismatches says. -/
structure Matches (actual required : Options × List PyStr) (accepted : Options) : Prop where
  options : ∀ o ∈ required.1, actual.1.lookup o.1 = some o.2
  optional : ∀ o ∈ accepted, actual.1.lookup o.1 = none ∨ actual.1.lookup o.1 = some o.2
  known : ∀ name ∈ actual.1.map Prod.fst, name ∈ (required.1 ++ accepted).map Prod.fst
  positionals : actual.2 = required.2

theorem argumentsPresent_iff {tokens : List PyStr} {actual required : Options × List PyStr}
    {accepted : Options} (hvalues : ∀ o ∈ required.1 ++ accepted, o.2 ≠ [])
    (harity : ∀ o ∈ required.1 ++ accepted, ∃ takesValue, auditArity o.1 = some takesValue ∧
      ∀ value ∈ o.2, value.isSome = takesValue) (hactual : auditActualArguments tokens = some actual) :
    argumentsPresent tokens required.1 required.2 accepted = true ↔
      Matches actual required accepted := by
  unfold argumentsPresent
  constructor
  · intro h
    cases hfound : normalizeActualArguments tokens (required.1 ++ accepted) with
    | none =>
      rw [hfound] at h
      cases h
    | some found =>
      obtain ⟨rfl, hknown⟩ :=
        (normalizeActualArguments_eq_some_iff hvalues harity hactual).mp hfound
      rw [hfound] at h
      simp only [Bool.and_eq_true, List.all_eq_true, decide_eq_true_eq] at h
      exact ⟨h.1.1, h.1.2, hknown, h.2⟩
  · intro h
    rw [(normalizeActualArguments_eq_some_iff hvalues harity hactual).mpr ⟨rfl, h.known⟩]
    simp only [Bool.and_eq_true, List.all_eq_true, decide_eq_true_eq]
    exact ⟨⟨h.options, h.optional⟩, h.positionals⟩

theorem sortBy_eq_nil_iff {names : List PyStr} : Choice.sortBy id names = [] ↔ names = [] := by
  constructor
  · intro h
    have hperm := Choice.sortBy_perm id names
    rw [h] at hperm
    exact hperm.symm.eq_nil
  · rintro rfl
    exact (Choice.sortBy_perm id []).eq_nil

/-- The last part of the audit of a requirement is empty exactly when the requirement matches. -/
theorem comparisons_eq_nil_iff {actual required : Options × List PyStr} {accepted : Options} :
    required.1.flatMap (fun o =>
        match actual.1.lookup o.1 with
        | none => [optionMismatch "missing_option" o.1]
        | some values => valueMismatches o.1 values o.2) ++
      accepted.flatMap (fun o =>
        match actual.1.lookup o.1 with
        | none => []
        | some values => valueMismatches o.1 values o.2) ++
      (Choice.sortBy id (((actual.1.map Prod.fst).filter fun name =>
          ((required.1 ++ accepted).lookup name).isNone).dedup)).map
        (optionMismatch "unexpected_known_option") ++
      (if actual.2 ≠ required.2 then [mismatch "positionals"] else []) = [] ↔
    Matches actual required accepted := by
  simp only [List.append_eq_nil_iff, List.flatMap_eq_nil_iff, List.map_eq_nil_iff,
    sortBy_eq_nil_iff, List.dedup_eq_nil, List.filter_eq_nil_iff]
  have hoptions (o : PyStr × List (Option PyStr)) :
      (match actual.1.lookup o.1 with
        | none => [optionMismatch "missing_option" o.1]
        | some values => valueMismatches o.1 values o.2) = [] ↔
      actual.1.lookup o.1 = some o.2 := by
    cases actual.1.lookup o.1 with
    | none => simp
    | some values => simp [valueMismatches_eq_nil]
  have hoptional (o : PyStr × List (Option PyStr)) :
      (match actual.1.lookup o.1 with
        | none => []
        | some values => valueMismatches o.1 values o.2) = [] ↔
      actual.1.lookup o.1 = none ∨ actual.1.lookup o.1 = some o.2 := by
    cases actual.1.lookup o.1 with
    | none => simp
    | some values => simp [valueMismatches_eq_nil]
  have hknown (name : PyStr) : ¬((required.1 ++ accepted).lookup name).isNone = true ↔
      name ∈ (required.1 ++ accepted).map Prod.fst := by
    rw [← lookup_isSome_iff, Option.isNone_iff_eq_none, Option.isSome_iff_ne_none]
  simp only [hoptions, hoptional, hknown]
  constructor
  · rintro ⟨⟨⟨h₁, h₂⟩, h₃⟩, h₄⟩
    refine ⟨h₁, h₂, h₃, ?_⟩
    by_contra hne
    simp [hne] at h₄
  · rintro ⟨h₁, h₂, h₃, h₄⟩
    exact ⟨⟨⟨h₁, h₂⟩, h₃⟩, by simp [h₄]⟩

theorem length_safeRead : ∀ head ∈ discoverySafeReadHeads, head.length = 2 := by
  decide

/-- The audit finds nothing wrong with a call for a requirement exactly when the requirement
accepts the call. -/
theorem requirementMismatches_eq_nil_iff {command : PyStr} {expectedExecutable : Option PyStr}
    {argv tail : List PyStr} {actual : Options × List PyStr} {requirement : Requirement}
    (hargv : normalizedSteamAgentArgv command expectedExecutable = some argv)
    (htail : cliCommandTail argv = some tail)
    (hactual : auditActualArguments (tail.drop 2) = some actual) (haudit : Auditable requirement) :
    requirementMismatches (tail.take 2) actual requirement = [] ↔
      commandSatisfiesRequirement command requirement expectedExecutable = true := by
  obtain ⟨head, hsafe, hhead⟩ := haudit.head
  have hlength := length_safeRead head hsafe
  obtain ⟨expected, hexpected, htail'⟩ := Option.bind_eq_some_iff.mp hhead
  have hcommand : (normalizedSteamAgentArgv command expectedExecutable).bind cliCommandTail
      = some tail := by
    rw [hargv, Option.bind_some, htail]
  unfold requirementMismatches commandSatisfiesRequirement
  rw [hcommand, hhead]
  simp only [hexpected, Option.getD_some, htail', Option.map_some, hlength]
  rw [List.take_of_length_le (Nat.le_of_eq hlength)]
  by_cases hsame : tail.take 2 = head
  · rw [if_neg (by simp [hsame]), if_neg (not_not_intro hsame)]
    cases haccepted :
        acceptedOptionalOptions requirement (requiredArguments requirement.arguments).1 with
    | none => simp
    | some accepted =>
      have harity := haudit.arity
      rw [haccepted, Option.getD_some] at harity
      have hvalues : ∀ o ∈ (requiredArguments requirement.arguments).1 ++ accepted, o.2 ≠ [] := by
        intro o ho
        rcases List.mem_append.mp ho with ho | ho
        · exact requiredFrom_values [] [] _ (by simp) o ho
        · exact accepted_values haccepted o ho
      dsimp only
      rw [if_neg ?_, comparisons_eq_nil_iff]
      · exact (argumentsPresent_iff hvalues harity hactual).symm
      · intro h
        obtain ⟨o, ho, hnone⟩ := List.any_eq_true.mp h
        obtain ⟨takesValue, htakes, _⟩ := harity o ho
        rw [htakes] at hnone
        cases hnone
  · rw [if_pos (by simpa using Ne.symm hsame), if_pos hsame]
    simp

end SteamAgent.Evals.CommandAudit
