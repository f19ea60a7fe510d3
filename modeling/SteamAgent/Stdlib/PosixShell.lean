import Mathlib
import SteamAgent.Stdlib.Shlex

/-!
# One line of a POSIX shell

How a POSIX shell reads a line that is one simple command: its words, what quotes and backslashes
do to them, and tilde expansion.  A line with an operator, a parameter or command expansion or a
pattern outside quotes is no such line, and reading it gives none.
-/

namespace PosixShell

open Shlex (Mode doubleQuote backslash isQuote)

/-- A character of a word, and whether quotes or a backslash took its meaning away. -/
structure Piece where
  c : CodePoint
  quoted : Bool
deriving DecidableEq, Repr

abbrev Word := List Piece

/-- A word after quote removal. -/
def Word.text (w : Word) : PyStr :=
  w.map Piece.c

def isBlank (c : CodePoint) : Bool :=
  c = 32 || c = 9

/-- A dollar sign or a backquote, which begin a parameter or command expansion. -/
def isExpansion (c : CodePoint) : Bool :=
  c = 36 || c = 96

/-- The end of a line and the characters of the operators and patterns. -/
def isSpecial (c : CodePoint) : Bool :=
  c = 10 || decide (c ∈ PyStr.ofString ";&|<>()*?[")

/-- What a backslash can escape inside double quotes. -/
def isEscapable (c : CodePoint) : Bool :=
  isExpansion c || c = doubleQuote || c = backslash

/-- The words that are done and the one that was begun. -/
structure State where
  words : List Word
  word : Word
  mode : Mode
deriving DecidableEq, Repr

def State.init : State where
  words := []
  word := []
  mode := .blank

def State.push (s : State) (pieces : Word) (mode : Mode) : State :=
  { s with word := s.word ++ pieces, mode := mode }

/-- The end of a word. -/
def State.emit (s : State) : State :=
  { words := s.words ++ [s.word], word := [], mode := .blank }

/-- A character outside quotes. -/
def plain (s : State) (c : CodePoint) : Option State :=
  if c = backslash then some { s with mode := .escaped none }
  else if isQuote c then some { s with mode := .quoted c }
  else if isExpansion c || isSpecial c then none
  else some (s.push [⟨c, false⟩] .word)

/-- One character of a line. -/
def step (s : State) (c : CodePoint) : Option State :=
  match s.mode with
  | .blank => if isBlank c then some s else plain s c
  | .word => if isBlank c then some s.emit else plain s c
  | .quoted quote =>
    if c = quote then some { s with mode := .word }
    else if quote = doubleQuote ∧ c = backslash then some { s with mode := .escaped (some quote) }
    else if quote = doubleQuote ∧ isExpansion c then none
    else some (s.push [⟨c, true⟩] (.quoted quote))
  | .escaped none => some (s.push [⟨c, true⟩] .word)
  | .escaped (some quote) =>
    if isEscapable c then some (s.push [⟨c, true⟩] (.quoted quote))
    else some (s.push [⟨backslash, true⟩, ⟨c, true⟩] (.quoted quote))

/-- The characters of a line, up to a comment. -/
def read (s : State) : PyStr → Option State
  | [] => some s
  | c :: rest => if s.mode = .blank ∧ c = 35 then some s else (step s c).bind fun s => read s rest

/-- The end of a line, which an open quote or a backslash may not reach. -/
def finish (s : State) : Option (List Word) :=
  match s.mode with
  | .blank => some s.words
  | .word => some s.emit.words
  | .quoted _ => none
  | .escaped _ => none

/-- The words of a line. -/
def lex (line : PyStr) : Option (List Word) :=
  (read .init line).bind finish

/-! ## Tilde expansion -/

/-- A slash that is not quoted. -/
def Piece.isSlash (p : Piece) : Bool :=
  p.c = 47 && !p.quoted

/-- The login name of a tilde prefix, none of whose characters is quoted, and what follows it. -/
def tildePrefix : Word → Option (PyStr × Word)
  | [] => none
  | p :: rest =>
    if p = ⟨126, false⟩ ∧ (rest.takeWhile fun p => !p.isSlash).all fun p => !p.quoted then
      some (Word.text (rest.takeWhile fun p => !p.isSlash), rest.dropWhile fun p => !p.isSlash)
    else none

/-- A word, where `home` has the directory of each login name. -/
def expand (home : PyStr → PyStr) (w : Word) : PyStr :=
  match tildePrefix w with
  | none => w.text
  | some (login, rest) => home login ++ Word.text rest

/-! ## Simple commands -/

/-- The reserved words, which begin a compound command where they are not quoted. -/
def reservedWords : List PyStr :=
  ["!", "\x7b", "\x7d", "case", "do", "done", "elif", "else", "esac", "fi", "for", "if", "in", "then",
    "until", "while"].map PyStr.ofString

def isReserved (w : Word) : Bool :=
  w.all (fun p => !p.quoted) && decide (w.text ∈ reservedWords)

def isNameStart (c : CodePoint) : Bool :=
  (65 ≤ c && c ≤ 90) || (97 ≤ c && c ≤ 122) || c == 95

def isNameChar (c : CodePoint) : Bool :=
  isNameStart c || (48 ≤ c && c ≤ 57)

/-- A word that is a variable assignment: a name and an equals sign, none of them quoted. -/
def isAssignment (w : Word) : Bool :=
  match w.takeWhile fun p => !p.quoted with
  | [] => false
  | p :: rest => isNameStart p.c && decide (((Word.text rest).dropWhile isNameChar).head? = some 61)

/-- The fields of a line that is one simple command without an assignment or a redirection. -/
def simpleCommand (home : PyStr → PyStr) (line : PyStr) : Option (List PyStr) :=
  match lex line with
  | none => none
  | some [] => none
  | some (first :: rest) =>
    if isReserved first ∨ isAssignment first then none
    else some ((first :: rest).map (expand home))

end PosixShell
