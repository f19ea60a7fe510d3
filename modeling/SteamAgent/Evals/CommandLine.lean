import Mathlib
import SteamAgent.Stdlib.Shlex

/-!
# The command lines of an evaluation

How `grade.py` reads a command: what shell syntax it refuses, the arguments of one call of
`steam-agent`, and the global options in front of its subcommand.
-/

namespace SteamAgent.Evals.CommandLine

open Shlex (singleQuote doubleQuote backslash)

/-! ## Shell syntax -/

/-- A code point that stands in a text. -/
def isOneOf (text : String) (c : CodePoint) : Bool :=
  decide (c ∈ PyStr.ofString text)

/-- The loop of `_has_forbidden_shell_syntax`. -/
def forbiddenFrom (quote : Option CodePoint) (escaped : Bool) : PyStr → Bool
  | [] => quote.isSome || escaped
  | c :: rest =>
    if escaped then forbiddenFrom quote false rest
    else if c = backslash ∧ quote ≠ some singleQuote then forbiddenFrom quote true rest
    else if Shlex.isQuote c then
      forbiddenFrom (if quote = none then some c else if quote = some c then none else quote) false
        rest
    else if quote ≠ some singleQuote ∧ isOneOf "`$" c then true
    else if quote = none ∧ isOneOf ";&|<>(){}[]*?#" c then true
    else forbiddenFrom quote false rest

/-- `_has_forbidden_shell_syntax`. -/
def hasForbiddenShellSyntax (command : PyStr) : Bool :=
  if 10 ∈ command ∨ 13 ∈ command then true else forbiddenFrom none false command

def isNameStart (c : CodePoint) : Bool :=
  (65 ≤ c && c ≤ 90) || (97 ≤ c && c ≤ 122) || c == 95

def isNameChar (c : CodePoint) : Bool :=
  isNameStart c || (48 ≤ c && c ≤ 57)

/-- `_ASSIGNMENT.fullmatch`. -/
def isAssignment (token : PyStr) : Bool :=
  match token with
  | [] => false
  | c :: rest => isNameStart c && decide ((rest.dropWhile isNameChar).head? = some 61)

/-- `_COMMAND_BUILTINS`. -/
def commandBuiltins : List PyStr :=
  ["command", "exec"].map PyStr.ofString

/-- `_TRUSTED_ABSOLUTE_SHELL_EXECUTABLES`. -/
def trustedAbsoluteShellExecutables : List PyStr :=
  ["/bin/bash", "/bin/sh", "/bin/zsh", "/usr/bin/bash", "/usr/bin/sh", "/usr/bin/zsh"].map
    PyStr.ofString

/-- `_STEAM_AGENT_EXECUTABLES`. -/
def steamAgentExecutables : List PyStr :=
  ["steam-agent", "./bin/steam-agent"].map PyStr.ofString

/-- `_unwrap_command_prefix`. -/
def unwrapCommandPrefix (tokens : List PyStr) : List PyStr :=
  match tokens.dropWhile isAssignment with
  | [] => []
  | token :: rest => if token ∈ commandBuiltins then rest else token :: rest

/-- `_shell_wrapper_payload`. -/
def shellWrapperPayload (tokens : List PyStr) : Option PyStr :=
  match tokens with
  | [_, option, payload] =>
    if option = PyStr.ofString "-c" ∨ option = PyStr.ofString "-lc" then some payload else none
  | _ => none

/-- `_normalized_steam_agent_argv`, where `wrapped` reads the payload of a shell. -/
def argvWith (wrapped : PyStr → Option (List PyStr)) (expectedExecutable : Option PyStr)
    (command : PyStr) : Option (List PyStr) :=
  if PyStr.isBlank command ∨ hasForbiddenShellSyntax command then none
  else
    match Shlex.split command with
    | none => none
    | some tokens =>
      if (tokens.head?.map isAssignment).getD false then none
      else
        match unwrapCommandPrefix tokens with
        | [] => none
        | executable :: arguments =>
          if executable ∈ trustedAbsoluteShellExecutables then
            (shellWrapperPayload (executable :: arguments)).bind wrapped
          else if executable ∉ steamAgentExecutables then none
          else if expectedExecutable.isSome ∧ expectedExecutable ≠ some executable then none
          else some arguments

/-- The payload of a shell, where no other shell is allowed. -/
def payloadArgv (expectedExecutable : Option PyStr) : PyStr → Option (List PyStr) :=
  argvWith (fun _ => none) expectedExecutable

/-- `normalized_steam_agent_argv`. -/
def normalizedSteamAgentArgv (command : PyStr) (expectedExecutable : Option PyStr) :
    Option (List PyStr) :=
  argvWith (payloadArgv expectedExecutable) expectedExecutable command

/-! ## Global options -/

/-- `token.startswith(front)`. -/
def startsWith (token : PyStr) (front : String) : Bool :=
  (PyStr.ofString front).isPrefixOf token

/-- `token.partition("=")`: the option, whether there is an equals sign, and what follows it. -/
def partition (token : PyStr) : PyStr × Bool × PyStr :=
  match token.dropWhile (· ≠ 61) with
  | [] => (token, false, [])
  | _ :: inline => (token.takeWhile (· ≠ 61), true, inline)

/-- The loop of `_cli_command_tail`. -/
def commandTailFrom (sawFormat : Bool) : List PyStr → Option (List PyStr)
  | [] => some []
  | token :: rest =>
    if token = PyStr.ofString "--data-dir" then
      match rest with
      | [] => none
      | _ :: rest => commandTailFrom sawFormat rest
    else if startsWith token "--data-dir=" then
      if (partition token).2.2 = [] then none else commandTailFrom sawFormat rest
    else if token = PyStr.ofString "--format" then
      match rest with
      | [] => none
      | value :: rest =>
        if sawFormat ∨ value ≠ PyStr.ofString "json" then none else commandTailFrom true rest
    else if startsWith token "--format=" then
      if sawFormat ∨ token ≠ PyStr.ofString "--format=json" then none
      else commandTailFrom true rest
    else if startsWith token "-" then none
    else some (token :: rest)

/-- `_cli_command_tail`.  The help and version options start with a hyphen, as every option does. -/
def cliCommandTail (argv : List PyStr) : Option (List PyStr) :=
  commandTailFrom false argv

/-- `_is_help_call`. -/
def isHelpCall : List PyStr → Bool
  | [] => false
  | argument :: rest =>
    if argument = PyStr.ofString "--" then false
    else if argument = PyStr.ofString "--help" ∨ argument = PyStr.ofString "-h" then true
    else isHelpCall rest

/-- The loop of `_global_option_values`. -/
def globalValuesFrom (option : String) (values : List PyStr) : List PyStr → Option (List PyStr)
  | [] => some values
  | token :: rest =>
    if startsWith token "-" = false then some values
    else if token = PyStr.ofString option then
      match rest with
      | [] => none
      | value :: rest => globalValuesFrom option (values ++ [value]) rest
    else if startsWith token (option ++ "=") then
      if (partition token).2.2 = [] then none
      else globalValuesFrom option (values ++ [(partition token).2.2]) rest
    else if token = PyStr.ofString "--data-dir" ∨ token = PyStr.ofString "--format" then
      match rest with
      | [] => some values
      | _ :: rest => globalValuesFrom option values rest
    else globalValuesFrom option values rest

/-- `_has_expected_data_dir`. -/
def hasExpectedDataDir (argv : List PyStr) (expected : PyStr) : Bool :=
  decide (globalValuesFrom "--data-dir" [] argv = some [expected])

/-- `_has_json_format`. -/
def hasJsonFormat : List PyStr → Bool
  | [] => true
  | token :: rest =>
    if token = PyStr.ofString "--format" then
      match rest with
      | [] => false
      | value :: rest => decide (value = PyStr.ofString "json") && hasJsonFormat rest
    else if startsWith token "--format=" ∧ token ≠ PyStr.ofString "--format=json" then false
    else hasJsonFormat rest

end SteamAgent.Evals.CommandLine
