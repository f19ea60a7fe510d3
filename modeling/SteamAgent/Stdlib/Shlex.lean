import SteamAgent.Stdlib.PyText

/-!
# The words of a command line

`shlex.split` in its POSIX mode, as a machine over the code points of a text.  A word ends at a
blank, and whether a part of it was quoted decides if an empty word counts.
-/

namespace Shlex

def singleQuote : CodePoint := 39

def doubleQuote : CodePoint := 34

def backslash : CodePoint := 92

/-- `shlex.whitespace`. -/
def isBlank (c : CodePoint) : Bool :=
  c = 32 || c = 9 || c = 13 || c = 10

/-- `shlex.quotes`. -/
def isQuote (c : CodePoint) : Bool :=
  c = singleQuote || c = doubleQuote

/-- The state of `shlex`.  An escape goes back to the quotes around it, if there are any. -/
inductive Mode where
  | blank
  | word
  | quoted (quote : CodePoint)
  | escaped (back : Option CodePoint)
deriving DecidableEq, Repr

/-- The words that are done, the one that was begun and whether a part of it was quoted. -/
structure State where
  words : List PyStr
  token : PyStr
  hasQuote : Bool
  mode : Mode
deriving DecidableEq, Repr

def State.init : State where
  words := []
  token := []
  hasQuote := false
  mode := .blank

/-- The end of a word, which is none when it is empty and nothing in it was quoted. -/
def State.emit (s : State) : State :=
  { words := if s.token ≠ [] ∨ s.hasQuote then s.words ++ [s.token] else s.words
    token := []
    hasQuote := false
    mode := .blank }

def State.push (s : State) (c : CodePoint) : State :=
  { s with token := s.token ++ [c], mode := .word }

/-- One character of `read_token`. -/
def step (s : State) (c : CodePoint) : State :=
  match s.mode with
  | .blank =>
    if isBlank c then s.emit
    else if c = backslash then { s with mode := .escaped none }
    else if isQuote c then { s with mode := .quoted c }
    else s.push c
  | .quoted quote =>
    if c = quote then { s with hasQuote := true, mode := .word }
    else if c = backslash ∧ quote = doubleQuote then
      { s with hasQuote := true, mode := .escaped (some quote) }
    else { s with hasQuote := true, token := s.token ++ [c] }
  | .escaped none => s.push c
  | .escaped (some quote) =>
    -- Inside quotes only the quote and the backslash can be escaped.
    if c ≠ backslash ∧ c ≠ quote then
      { s with token := s.token ++ [backslash, c], mode := .quoted quote }
    else { s with token := s.token ++ [c], mode := .quoted quote }
  | .word =>
    if isBlank c then s.emit
    else if isQuote c then { s with mode := .quoted c }
    else if c = backslash then { s with mode := .escaped none }
    else s.push c

/-- The end of the text, which an open quote or an escape may not reach. -/
def finish (s : State) : Option (List PyStr) :=
  match s.mode with
  | .blank => some s.words
  | .word => some s.emit.words
  | .quoted _ => none
  | .escaped _ => none

/-- `shlex.split(text, posix=True, comments=False)`, or a `ValueError`. -/
def split (text : PyStr) : Option (List PyStr) :=
  finish (text.foldl step .init)

end Shlex
