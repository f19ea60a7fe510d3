import SteamAgent.Evals.CommandLine
import SteamAgent.Stdlib.PosixShell

/-!
# What the shell runs

`normalized_steam_agent_argv` beside a POSIX shell.

There are five groups.

* The command that a shell runs for a line.
* The two ways in which the arguments differ from it: a tilde, and a backslash that stays.
* Texts that lost backslashes.
* One character, and a whole line, of the three machines.
* The arguments are those that the shell runs exactly when none of the two ways occurs.
-/

namespace SteamAgent.Evals.ShellRun

open CommandLine
open Shlex (Mode singleQuote doubleQuote backslash isQuote)
open PosixShell (Piece Word isExpansion)

/-! ## The command that a shell runs -/

/-- The builtins that run the command they are given. -/
def commandRunners : List PyStr :=
  ["exec", "command"].map PyStr.ofString

/-- The shells that are started with a command string. -/
def shells : List PyStr :=
  ["/bin/sh", "/usr/bin/sh", "/bin/bash", "/usr/bin/bash", "/bin/zsh", "/usr/bin/zsh"].map
    PyStr.ofString

/-- The command string of a shell with these operands, in a login shell or not. -/
def commandString : List PyStr → Option PyStr
  | [option, line] =>
    if option ∈ ["-c", "-lc"].map PyStr.ofString then some line else none
  | _ => none

/-- A builtin runs what follows it, unless that is an option. -/
def invoked : List PyStr → List PyStr
  | [] => []
  | name :: rest =>
    if name ∈ commandRunners ∧ (rest.head?.map fun word => startsWith word "-") ≠ some true then
      rest
    else name :: rest

/-- The words of the command that a shell runs for a line, through at most `depth` other shells,
where `home` has the directories of login names.  A line that is not one simple command has
none. -/
def run (home : PyStr → PyStr) (depth : Nat) (line : PyStr) : Option (List PyStr) :=
  match PosixShell.simpleCommand home line with
  | none => none
  | some words =>
    match invoked words with
    | [] => none
    | executable :: arguments =>
      if executable ∈ shells then
        match depth, commandString arguments with
        | depth + 1, some inner => run home depth inner
        | _, _ => none
      else some (executable :: arguments)

/-- The builtins that the scan takes off are those that run a command. -/
theorem mem_commandRunners {name : PyStr} : name ∈ commandRunners ↔ name ∈ commandBuiltins :=
  List.Perm.mem_iff (by decide)

/-- The executables that the scan takes for shells are the shells. -/
theorem mem_shells {name : PyStr} : name ∈ shells ↔ name ∈ trustedAbsoluteShellExecutables :=
  List.Perm.mem_iff (by decide)

/-- The payload that the scan reads is the command string. -/
theorem shellWrapperPayload_cons (shell : PyStr) (arguments : List PyStr) :
    shellWrapperPayload (shell :: arguments) = commandString arguments := by
  rcases arguments with _ | ⟨option, _ | ⟨line, _ | ⟨_, _⟩⟩⟩ <;>
    simp [shellWrapperPayload, commandString]

/-- The payload of the shell that a command calls. -/
def wrapped (command : PyStr) : Option PyStr :=
  match (Shlex.split command).map unwrapCommandPrefix with
  | some (executable :: arguments) =>
    if executable ∈ trustedAbsoluteShellExecutables then
      shellWrapperPayload (executable :: arguments)
    else none
  | _ => none

/-! ## Backslashes that stay -/

/-- How many backslashes inside double quotes stand before a dollar sign or a backquote. -/
def keptBackslashes (quote : Option CodePoint) (escaped : Bool) : PyStr → Nat
  | [] => 0
  | c :: rest =>
    if escaped then
      (if quote = some doubleQuote ∧ isExpansion c then 1 else 0) + keptBackslashes quote false rest
    else if c = backslash ∧ quote ≠ some singleQuote then keptBackslashes quote true rest
    else if isQuote c then
      keptBackslashes (if quote = none then some c else if quote = some c then none else quote) false
        rest
    else keptBackslashes quote false rest

/-- A line in which no backslash inside double quotes stands before a dollar sign or a backquote,
and no word begins with a tilde prefix. -/
structure Plain (line : PyStr) : Prop where
  kept : keptBackslashes none false line = 0
  tilde : ∀ words, PosixShell.lex line = some words → ∀ w ∈ words, PosixShell.tildePrefix w = none

/-! ## Texts that lost backslashes -/

/-- A text that lost a number of backslashes, each before a dollar sign or a backquote. -/
inductive Dropped : Nat → PyStr → PyStr → Prop where
  | nil : Dropped 0 [] []
  | same {n : Nat} {text text' : PyStr} (c : CodePoint) (h : Dropped n text text') :
    Dropped n (c :: text) (c :: text')
  | drop {n : Nat} {text text' : PyStr} {c : CodePoint} (hc : isExpansion c = true)
      (h : Dropped n text text') : Dropped (n + 1) (backslash :: c :: text) (c :: text')

theorem Dropped.refl (text : PyStr) : Dropped 0 text text := by
  induction text with
  | nil => exact .nil
  | cons c text ih => exact .same c ih

theorem Dropped.append {n m : Nat} {a a' b b' : PyStr} (h : Dropped n a a') (h' : Dropped m b b') :
    Dropped (n + m) (a ++ b) (a' ++ b') := by
  induction h with
  | nil => simpa using h'
  | same c _ ih => exact .same c ih
  | @drop n _ _ c hc _ ih =>
    rw [show n + 1 + m = n + m + 1 by omega]
    exact .drop hc ih

theorem Dropped.length {n : Nat} {text text' : PyStr} (h : Dropped n text text') :
    text'.length + n = text.length := by
  induction h with
  | nil => rfl
  | same c _ ih =>
    simp only [List.length_cons]
    omega
  | drop _ _ ih =>
    simp only [List.length_cons]
    omega

theorem Dropped.eq {text text' : PyStr} (h : Dropped 0 text text') : text' = text := by
  generalize hn : 0 = n at h
  induction h with
  | nil => rfl
  | same c _ ih => rw [ih hn]
  | drop _ _ _ => cases hn

theorem Dropped.eq_of_not_mem {n : Nat} {text text' : PyStr} (h : Dropped n text text')
    (hback : backslash ∉ text) : text' = text := by
  induction h with
  | nil => rfl
  | same c _ ih => rw [ih (fun h => hback (List.mem_cons_of_mem _ h))]
  | drop _ _ _ => exact absurd List.mem_cons_self hback

/-! ## Sizes -/

/-- The characters of some words. -/
def wordsSize (words : List PyStr) : Nat :=
  (words.map List.length).sum

/-- Words that lost backslashes. -/
abbrev DroppedWords : List PyStr → List PyStr → Prop :=
  List.Forall₂ fun a b => ∃ n, Dropped n a b

theorem DroppedWords.size_le {words words' : List PyStr} (h : DroppedWords words words') :
    wordsSize words' ≤ wordsSize words := by
  induction h with
  | nil => exact Nat.le_refl _
  | cons hword _ ih =>
    obtain ⟨n, hword⟩ := hword
    have hlength := hword.length
    simp only [wordsSize, List.map_cons, List.sum_cons] at ih ⊢
    omega

theorem DroppedWords.eq_of_size {words words' : List PyStr} (h : DroppedWords words words')
    (hsize : wordsSize words' = wordsSize words) : words' = words := by
  induction h with
  | nil => rfl
  | @cons a b as bs hword hwords ih =>
    obtain ⟨n, hword⟩ := hword
    have hlength := hword.length
    have hle := DroppedWords.size_le hwords
    simp only [wordsSize, List.map_cons, List.sum_cons] at ih hsize hle
    obtain rfl : n = 0 := by omega
    rw [hword.eq, ih (by omega)]

/-! ## One character -/

def quoteOf : Mode → Option CodePoint
  | .quoted quote => some quote
  | .escaped back => back
  | _ => none

def isEscaped : Mode → Bool
  | .escaped _ => true
  | _ => false

/-- What the scan for forbidden syntax says of the rest of a line. -/
def forbidden (mode : Mode) (rest : PyStr) : Bool :=
  forbiddenFrom (quoteOf mode) (isEscaped mode) rest

def kept (mode : Mode) (rest : PyStr) : Nat :=
  keptBackslashes (quoteOf mode) (isEscaped mode) rest

def lexSize (s : Shlex.State) : Nat :=
  wordsSize s.words + s.token.length

def shellSize (t : PosixShell.State) : Nat :=
  wordsSize (t.words.map Word.text) + t.word.length

/-- The two lexers are at one place, where the shell has lost some backslashes. -/
structure Beside (s : Shlex.State) (t : PosixShell.State) : Prop where
  mode : t.mode = s.mode
  words : DroppedWords s.words (t.words.map Word.text)
  token : ∃ n, Dropped n s.token (Word.text t.word)
  blank : s.mode = .blank → s.token = [] ∧ s.hasQuote = false ∧ t.word = []
  word : s.mode = .word → s.token ≠ [] ∨ s.hasQuote = true
  quoted : ∀ quote, s.mode = .quoted quote → quote = singleQuote ∨ quote = doubleQuote
  escaped : ∀ quote, s.mode = .escaped (some quote) → quote = doubleQuote

/-- What one character does to the two lexers and the scan, where `n` backslashes stay. -/
structure Moved (s : Shlex.State) (t t' : PosixShell.State) (c : CodePoint) (rest : PyStr) (n : Nat) :
    Prop where
  beside : Beside (Shlex.step s c) t'
  size : shellSize t' + lexSize s + n = lexSize (Shlex.step s c) + shellSize t
  scan : forbidden (Shlex.step s c).mode rest = false
  kept : kept s.mode (c :: rest) = n + kept (Shlex.step s c).mode rest

theorem beside_keep {s : Shlex.State} {t : PosixShell.State} (h : Beside s t) {mode : Mode}
    (hblank : mode ≠ .blank) (hword : mode ≠ .word)
    (hquoted : ∀ quote, mode = .quoted quote → quote = singleQuote ∨ quote = doubleQuote)
    (hescaped : ∀ quote, mode = .escaped (some quote) → quote = doubleQuote) :
    Beside { s with mode := mode } { t with mode := mode } where
  mode := rfl
  words := h.words
  token := h.token
  blank := fun h' => absurd h' hblank
  word := fun h' => absurd h' hword
  quoted := hquoted
  escaped := hescaped

theorem step_plain {s : Shlex.State} {c : CodePoint} (hmode : s.mode = .blank ∨ s.mode = .word)
    (hblank : Shlex.isBlank c = false) :
    Shlex.step s c =
      if c = backslash then { s with mode := .escaped none }
      else if isQuote c then { s with mode := .quoted c }
      else s.push c := by
  have hback : isQuote backslash = false := by decide
  rcases hmode with hmode | hmode
  · rw [Shlex.step, hmode]
    dsimp only
    rw [if_neg (by simp [hblank])]
  · rw [Shlex.step, hmode]
    dsimp only
    rw [if_neg (by simp [hblank])]
    by_cases hc : c = backslash
    · subst hc
      rw [if_neg (by simp [hback]), if_pos rfl, if_pos rfl]
    · rw [if_neg hc, if_neg hc]

/-- What the scan says of a character outside quotes. -/
theorem scan_plain {c : CodePoint} {rest : PyStr} (h : forbiddenFrom none false (c :: rest) = false)
    (hback : c ≠ backslash) (hquote : isQuote c = false) :
    isOneOf "`$" c = false ∧ isOneOf ";&|<>(){}[]*?#" c = false ∧
      forbiddenFrom none false rest = false := by
  unfold forbiddenFrom at h
  rw [if_neg Bool.false_ne_true, if_neg (fun h => hback h.1), if_neg (by simp [hquote])] at h
  split at h
  · cases h
  · next hexpansion =>
    split at h
    · cases h
    · next hspecial =>
      refine ⟨?_, ?_, h⟩
      · simpa using hexpansion
      · simpa using hspecial

theorem isExpansion_eq (c : CodePoint) : isExpansion c = isOneOf "`$" c := by
  have htext : PyStr.ofString "`$" = [96, 36] := by decide
  rw [isExpansion, isOneOf, htext, ← Bool.decide_or, decide_eq_decide, List.mem_pair, or_comm]

theorem not_special {c : CodePoint} (h : isOneOf ";&|<>(){}[]*?#" c = false) (hline : c ≠ 10) :
    PosixShell.isSpecial c = false ∧ c ≠ 35 := by
  have hsub : PyStr.ofString ";&|<>()*?[" ⊆ PyStr.ofString ";&|<>(){}[]*?#" := by decide
  have hcomment : (35 : CodePoint) ∈ PyStr.ofString ";&|<>(){}[]*?#" := by decide
  rw [isOneOf, decide_eq_false_iff_not] at h
  constructor
  · rw [PosixShell.isSpecial, decide_eq_false hline, Bool.false_or, decide_eq_false_iff_not]
    intro hmem
    exact h (hsub hmem)
  · rintro rfl
    exact h hcomment

theorem isBlank_eq {c : CodePoint} (h10 : c ≠ 10) (h13 : c ≠ 13) :
    Shlex.isBlank c = PosixShell.isBlank c := by
  simp [Shlex.isBlank, PosixShell.isBlank, h10, h13]

theorem blank_plain {c : CodePoint} (h : PosixShell.isBlank c = true) :
    c ≠ backslash ∧ isQuote c = false := by
  simp only [PosixShell.isBlank, Bool.or_eq_true, decide_eq_true_eq] at h
  rcases h with rfl | rfl
  · decide
  · decide

theorem Beside.push {s : Shlex.State} {t : PosixShell.State} (h : Beside s t) (c : CodePoint)
    (q : Bool) : Beside (s.push c) (t.push [⟨c, q⟩] .word) where
  mode := rfl
  words := h.words
  token := by
    obtain ⟨n, hn⟩ := h.token
    refine ⟨n, ?_⟩
    have happend : Word.text (t.push [⟨c, q⟩] .word).word = Word.text t.word ++ [c] := by
      simp [PosixShell.State.push, Word.text]
    rw [happend]
    exact hn.append (.same c .nil)
  blank := by
    intro h
    cases h
  word := fun _ => .inl (by simp [Shlex.State.push])
  quoted := by
    intro quote h
    cases h
  escaped := by
    intro quote h
    cases h

theorem size_push (s : Shlex.State) (t : PosixShell.State) (c : CodePoint) (q : Bool) :
    shellSize (t.push [⟨c, q⟩] .word) + lexSize s + 0 = lexSize (s.push c) + shellSize t := by
  simp only [shellSize, lexSize, PosixShell.State.push, Shlex.State.push, List.length_append,
    List.length_singleton]
  omega

theorem size_keep (s : Shlex.State) (t : PosixShell.State) (mode mode' : Mode) :
    shellSize { t with mode := mode } + lexSize s + 0
      = lexSize { s with mode := mode' } + shellSize t := by
  simp only [shellSize, lexSize]
  omega

/-- One character outside quotes that is no blank. -/
theorem plain_moved {s : Shlex.State} {t : PosixShell.State} {c : CodePoint} {rest : PyStr}
    (h : Beside s t) (hmode : s.mode = .blank ∨ s.mode = .word)
    (hscan : forbidden s.mode (c :: rest) = false) (h10 : c ≠ 10) (h13 : c ≠ 13)
    (hblank : PosixShell.isBlank c = false) :
    ∃ t', PosixShell.plain t c = some t' ∧ c ≠ 35 ∧ Moved s t t' c rest 0 := by
  have hnone : quoteOf s.mode = none ∧ isEscaped s.mode = false := by
    rcases hmode with hmode | hmode <;> rw [hmode] <;> exact ⟨rfl, rfl⟩
  have hstep := step_plain hmode ((isBlank_eq h10 h13).trans hblank)
  have hkept : kept s.mode (c :: rest) = keptBackslashes none false (c :: rest) := by
    rw [kept, hnone.1, hnone.2]
  rw [forbidden, hnone.1, hnone.2] at hscan
  unfold PosixShell.plain
  by_cases hback : c = backslash
  · rw [if_pos hback]
    rw [if_pos hback] at hstep
    have hrest : forbiddenFrom none true rest = false := by
      unfold forbiddenFrom at hscan
      rw [if_neg Bool.false_ne_true, if_pos ⟨hback, by simp⟩] at hscan
      exact hscan
    refine ⟨_, rfl, by rw [hback]; decide, ?_, ?_, ?_, ?_⟩
    · rw [hstep]
      exact beside_keep h (by simp) (by simp) (by simp) (by simp)
    · rw [hstep]
      exact size_keep s t _ _
    · rw [hstep]
      exact hrest
    · rw [hkept, hstep, keptBackslashes, if_neg Bool.false_ne_true, if_pos ⟨hback, by simp⟩,
        Nat.zero_add]
      rfl
  · rw [if_neg hback]
    rw [if_neg hback] at hstep
    by_cases hquote : isQuote c = true
    · rw [if_pos hquote]
      rw [if_pos hquote] at hstep
      have hrest : forbiddenFrom (some c) false rest = false := by
        unfold forbiddenFrom at hscan
        rw [if_neg Bool.false_ne_true, if_neg (fun h => hback h.1), if_pos hquote, if_pos rfl]
          at hscan
        exact hscan
      have hkind : c = singleQuote ∨ c = doubleQuote := by
        simpa [isQuote] using hquote
      refine ⟨_, rfl, ?_, ?_, ?_, ?_, ?_⟩
      · rcases hkind with rfl | rfl <;> decide
      · rw [hstep]
        refine beside_keep h (by simp) (by simp) ?_ (by simp)
        intro quote heq
        cases heq
        exact hkind
      · rw [hstep]
        exact size_keep s t _ _
      · rw [hstep]
        exact hrest
      · rw [hkept, hstep, keptBackslashes, if_neg Bool.false_ne_true, if_neg (fun h => hback h.1),
          if_pos hquote, if_pos rfl, Nat.zero_add]
        rfl
    · rw [Bool.not_eq_true] at hquote
      rw [if_neg (by simp [hquote])]
      rw [if_neg (by simp [hquote])] at hstep
      obtain ⟨hexpansion, hspecial, hrest⟩ := scan_plain hscan hback hquote
      obtain ⟨hspecial, hcomment⟩ := not_special hspecial h10
      rw [← isExpansion_eq] at hexpansion
      rw [if_neg (by simp [hexpansion, hspecial])]
      refine ⟨_, rfl, hcomment, ?_, ?_, ?_, ?_⟩
      · rw [hstep]
        exact h.push c false
      · rw [hstep]
        exact size_push s t c false
      · rw [hstep]
        exact hrest
      · rw [hkept, hstep, keptBackslashes, if_neg Bool.false_ne_true, if_neg (fun h => hback h.1),
          if_neg (by simp [hquote]), Nat.zero_add]
        rfl

theorem wordsSize_concat (words : List PyStr) (w : PyStr) :
    wordsSize (words ++ [w]) = wordsSize words + w.length := by
  simp [wordsSize]

/-- A blank ends the word in both lexers. -/
theorem Beside.emit {s : Shlex.State} {t : PosixShell.State} (h : Beside s t)
    (hmode : s.mode = .word) :
    Beside s.emit t.emit ∧ shellSize t.emit + lexSize s + 0 = lexSize s.emit + shellSize t := by
  have hemit : s.emit = ⟨s.words ++ [s.token], [], false, .blank⟩ := by
    rw [Shlex.State.emit, if_pos (h.word hmode)]
  rw [hemit]
  constructor
  · exact {
      mode := rfl
      words := by
        rw [PosixShell.State.emit, List.map_append]
        exact List.rel_append h.words (.cons h.token .nil)
      token := ⟨0, .nil⟩
      blank := fun _ => ⟨rfl, rfl, rfl⟩
      word := fun h' => by cases h'
      quoted := fun _ h' => by cases h'
      escaped := fun _ h' => by cases h' }
  · simp only [shellSize, lexSize, PosixShell.State.emit, List.map_append, List.map_cons,
      List.map_nil, wordsSize_concat, List.length_nil]
    rw [Word.text, List.length_map]
    omega

/-- A blank between words does nothing. -/
theorem Beside.emit_blank {s : Shlex.State} {t : PosixShell.State} (h : Beside s t)
    (hmode : s.mode = .blank) : s.emit = s := by
  obtain ⟨htoken, hquote, _⟩ := h.blank hmode
  obtain ⟨words, token, hasQuote, mode⟩ := s
  dsimp only at htoken hquote hmode
  subst htoken hquote hmode
  rfl

theorem scan_blank {c : CodePoint} {rest : PyStr} (h : PosixShell.isBlank c = true)
    (hscan : forbiddenFrom none false (c :: rest) = false) :
    forbiddenFrom none false rest = false ∧
      keptBackslashes none false (c :: rest) = 0 + keptBackslashes none false rest := by
  obtain ⟨hback, hquote⟩ := blank_plain h
  refine ⟨(scan_plain hscan hback hquote).2.2, ?_⟩
  rw [keptBackslashes, if_neg Bool.false_ne_true, if_neg (fun h => hback h.1),
    if_neg (by simp [hquote]), Nat.zero_add]

/-- One more character inside quotes, of which the shell may drop a backslash. -/
theorem Beside.more {s : Shlex.State} {t : PosixShell.State} (h : Beside s t)
    {front back : PyStr} {pieces : Word} {n : Nat} (htext : Word.text pieces = back)
    (hdrop : Dropped n front back) {mode : Mode} (hasQuote : Bool)
    (hblank : mode ≠ .blank) (hword : mode ≠ .word)
    (hquoted : ∀ quote, mode = .quoted quote → quote = singleQuote ∨ quote = doubleQuote)
    (hescaped : ∀ quote, mode = .escaped (some quote) → quote = doubleQuote) :
    Beside { s with token := s.token ++ front, mode := mode, hasQuote := hasQuote }
      (t.push pieces mode) where
  mode := rfl
  words := h.words
  token := by
    obtain ⟨m, hm⟩ := h.token
    refine ⟨m + n, ?_⟩
    have happend : Word.text (t.push pieces mode).word = Word.text t.word ++ back := by
      rw [← htext]
      simp [PosixShell.State.push, Word.text]
    rw [happend]
    exact hm.append hdrop
  blank := fun h' => absurd h' hblank
  word := fun h' => absurd h' hword
  quoted := hquoted
  escaped := hescaped

theorem size_more {s : Shlex.State} {t : PosixShell.State} {front : PyStr} {pieces : Word} {n : Nat}
    (mode : Mode) (hasQuote : Bool) (hlength : pieces.length + n = front.length) :
    shellSize (t.push pieces mode) + lexSize s + n =
      lexSize { s with token := s.token ++ front, mode := mode, hasQuote := hasQuote } +
        shellSize t := by
  simp only [shellSize, lexSize, PosixShell.State.push, List.length_append]
  omega

/-- One character inside quotes. -/
theorem quoted_moved {s : Shlex.State} {t : PosixShell.State} {c : CodePoint} {rest : PyStr}
    (h : Beside s t) {quote : CodePoint} (hmode : s.mode = .quoted quote)
    (hscan : forbidden s.mode (c :: rest) = false) :
    ∃ t', PosixShell.step t c = some t' ∧ Moved s t t' c rest 0 := by
  have hkind := h.quoted quote hmode
  have hquote : isQuote quote = true := by
    rcases hkind with rfl | rfl <;> decide
  have htmode : t.mode = .quoted quote := h.mode.trans hmode
  have hkept : kept s.mode (c :: rest) = keptBackslashes (some quote) false (c :: rest) := by
    rw [hmode]
    rfl
  rw [hmode] at hscan
  have hscan : forbiddenFrom (some quote) false (c :: rest) = false := hscan
  unfold forbiddenFrom at hscan
  rw [if_neg Bool.false_ne_true] at hscan
  rw [keptBackslashes, if_neg Bool.false_ne_true] at hkept
  unfold PosixShell.step
  rw [htmode]
  dsimp only
  by_cases hend : c = quote
  · -- The quotes end, and the word goes on.
    have hback : c ≠ backslash := by
      rw [hend]
      rcases hkind with rfl | rfl <;> decide
    have hstep : Shlex.step s c = { s with hasQuote := true, mode := .word } := by
      rw [Shlex.step, hmode]
      exact if_pos hend
    have hquotec : isQuote c = true := by
      rw [hend]
      exact hquote
    rw [if_neg (fun h => hback h.1), if_pos hquotec, if_neg (by simp), if_pos (by rw [hend])]
      at hscan hkept
    rw [if_pos hend]
    refine ⟨_, rfl, ?_, ?_, ?_, ?_⟩
    · rw [hstep]
      exact {
        mode := rfl
        words := h.words
        token := h.token
        blank := fun h' => by cases h'
        word := fun _ => .inr rfl
        quoted := fun _ h' => by cases h'
        escaped := fun _ h' => by cases h' }
    · rw [hstep]
      exact size_keep s t .word .word
    · rw [hstep]
      exact hscan
    · rw [hkept, hstep, Nat.zero_add]
      rfl
  · rw [if_neg hend]
    by_cases hback : c = backslash ∧ quote = doubleQuote
    · have hstep : Shlex.step s c = { s with hasQuote := true, mode := .escaped (some quote) } := by
        rw [Shlex.step, hmode]
        dsimp only
        rw [if_neg hend, if_pos hback]
      have hne : some quote ≠ some singleQuote := by
        rw [hback.2]
        decide
      rw [if_pos ⟨hback.1, hne⟩] at hscan hkept
      rw [if_pos ⟨hback.2, hback.1⟩]
      refine ⟨_, rfl, ?_, ?_, ?_, ?_⟩
      · rw [hstep]
        exact {
          mode := rfl
          words := h.words
          token := h.token
          blank := fun h' => by cases h'
          word := fun h' => by cases h'
          quoted := fun _ h' => by cases h'
          escaped := fun _ h' => by
            cases h'
            exact hback.2 }
      · rw [hstep]
        exact size_keep s t (.escaped (some quote)) .word
      · rw [hstep]
        exact hscan
      · rw [hkept, hstep, Nat.zero_add]
        rfl
    · have hstep : Shlex.step s c =
          { s with hasQuote := true, token := s.token ++ [c], mode := .quoted quote } := by
        rw [Shlex.step, hmode]
        dsimp only
        rw [if_neg hend, if_neg hback, ← hmode]
      have hne : ¬(c = backslash ∧ some quote ≠ some singleQuote) := by
        rintro ⟨hc, hq⟩
        rcases hkind with rfl | rfl
        · exact hq rfl
        · exact hback ⟨hc, rfl⟩
      have hsame : (if isQuote c = true then forbiddenFrom
            (if some quote = none then some c else if some quote = some c then none else some quote)
            false rest
          else if some quote ≠ some singleQuote ∧ isOneOf "`$" c = true then true
          else if some quote = none ∧ isOneOf ";&|<>(){}[]*?#" c = true then true
          else forbiddenFrom (some quote) false rest) = false := by
        rw [if_neg hne] at hscan
        exact hscan
      have hrest : forbiddenFrom (some quote) false rest = false ∧
          (quote = doubleQuote → isExpansion c = false) := by
        by_cases hc : isQuote c = true
        · rw [if_pos hc, if_neg (by simp), if_neg (by simpa using Ne.symm hend)] at hsame
          refine ⟨hsame, fun _ => ?_⟩
          simp only [isQuote, Bool.or_eq_true, decide_eq_true_eq] at hc
          rcases hc with rfl | rfl <;> decide
        · rw [if_neg hc] at hsame
          split at hsame
          · cases hsame
          · next hexpansion =>
            rw [if_neg (by simp)] at hsame
            refine ⟨hsame, fun hq => ?_⟩
            rw [isExpansion_eq]
            by_contra hyes
            rw [Bool.not_eq_false] at hyes
            exact hexpansion ⟨by rw [hq]; decide, hyes⟩
      have hkeptrest : kept s.mode (c :: rest) = keptBackslashes (some quote) false rest := by
        rw [if_neg hne] at hkept
        rw [hkept]
        by_cases hc : isQuote c = true
        · rw [if_pos hc, if_neg (by simp), if_neg (by simpa using Ne.symm hend)]
        · rw [if_neg hc]
      rw [if_neg (fun h => hback h.symm), if_neg (fun h => by rw [hrest.2 h.1] at h; cases h.2)]
      refine ⟨_, rfl, ?_, ?_, ?_, ?_⟩
      · rw [hstep]
        refine h.more rfl (.same c .nil) true (by simp) (by simp) ?_ (by simp)
        intro quote' heq
        cases heq
        exact hkind
      · rw [hstep]
        exact size_more (.quoted quote) true rfl
      · rw [hstep]
        exact hrest.1
      · rw [hkeptrest, hstep, Nat.zero_add]
        rfl

/-- One character behind a backslash. -/
theorem escaped_moved {s : Shlex.State} {t : PosixShell.State} {c : CodePoint} {rest : PyStr}
    (h : Beside s t) {back : Option CodePoint} (hmode : s.mode = .escaped back)
    (hscan : forbidden s.mode (c :: rest) = false) :
    ∃ t' n, PosixShell.step t c = some t' ∧ Moved s t t' c rest n := by
  have htmode : t.mode = .escaped back := h.mode.trans hmode
  have hscan : forbiddenFrom back false rest = false := by
    rw [hmode] at hscan
    simpa [forbidden, quoteOf, isEscaped, forbiddenFrom] using hscan
  have hkept : kept s.mode (c :: rest) =
      (if back = some doubleQuote ∧ isExpansion c then 1 else 0) + keptBackslashes back false rest := by
    rw [hmode, kept, quoteOf, isEscaped, keptBackslashes, if_pos rfl]
  unfold PosixShell.step
  rw [htmode]
  cases back with
  | none =>
    have hstep : Shlex.step s c = s.push c := by
      rw [Shlex.step, hmode]
    refine ⟨_, 0, rfl, ?_, ?_, ?_, ?_⟩
    · rw [hstep]
      exact h.push c true
    · rw [hstep]
      exact size_push s t c true
    · rw [hstep]
      exact hscan
    · rw [hkept, hstep, if_neg (by simp)]
      rfl
  | some quote =>
    obtain rfl := h.escaped quote hmode
    dsimp only
    have hquoted (quote : CodePoint) (heq : Mode.quoted doubleQuote = .quoted quote) :
        quote = singleQuote ∨ quote = doubleQuote := by
      cases heq
      exact .inr rfl
    by_cases hplain : c = backslash ∨ c = doubleQuote
    · -- A backslash before a quote or a backslash: both drop it.
      have hescapable : PosixShell.isEscapable c = true ∧ isExpansion c = false := by
        rcases hplain with rfl | rfl <;> decide
      have hstep : Shlex.step s c =
          { s with token := s.token ++ [c], mode := .quoted doubleQuote } := by
        rw [Shlex.step, hmode]
        dsimp only
        rw [if_neg fun h => hplain.elim h.1 h.2]
      rw [if_pos hescapable.1]
      refine ⟨_, 0, rfl, ?_, ?_, ?_, ?_⟩
      · rw [hstep]
        exact h.more rfl (.same c .nil) s.hasQuote (by simp) (by simp) hquoted (by simp)
      · rw [hstep]
        exact size_more (.quoted doubleQuote) s.hasQuote rfl
      · rw [hstep]
        exact hscan
      · rw [hkept, hstep, if_neg (by simp [hescapable.2])]
        rfl
    · have hstep : Shlex.step s c =
          { s with token := s.token ++ [backslash, c], mode := .quoted doubleQuote } := by
        rw [Shlex.step, hmode]
        dsimp only
        rw [if_pos (not_or.mp hplain)]
      by_cases hexpansion : isExpansion c = true
      · -- Here the shell drops a backslash that stays for `shlex`.
        have hescapable : PosixShell.isEscapable c = true := by
          rw [PosixShell.isEscapable, hexpansion]
          rfl
        rw [if_pos hescapable]
        refine ⟨_, 1, rfl, ?_, ?_, ?_, ?_⟩
        · rw [hstep]
          exact h.more rfl (.drop hexpansion .nil) s.hasQuote (by simp) (by simp) hquoted (by simp)
        · rw [hstep]
          exact size_more (.quoted doubleQuote) s.hasQuote rfl
        · rw [hstep]
          exact hscan
        · rw [hkept, hstep, if_pos ⟨rfl, hexpansion⟩]
          rfl
      · have hescapable : PosixShell.isEscapable c = false := by
          rw [not_or] at hplain
          simp [PosixShell.isEscapable, hexpansion, hplain]
        rw [if_neg (by simp [hescapable])]
        refine ⟨_, 0, rfl, ?_, ?_, ?_, ?_⟩
        · rw [hstep]
          exact h.more rfl (.same backslash (.same c .nil)) s.hasQuote (by simp) (by simp) hquoted
            (by simp)
        · rw [hstep]
          exact size_more (.quoted doubleQuote) s.hasQuote rfl
        · rw [hstep]
          exact hscan
        · rw [hkept, hstep, if_neg (by simp [hexpansion])]
          rfl

/-- One character of a line. -/
theorem beside_step {s : Shlex.State} {t : PosixShell.State} {c : CodePoint} {rest : PyStr}
    (h : Beside s t) (hscan : forbidden s.mode (c :: rest) = false) (h10 : c ≠ 10) (h13 : c ≠ 13) :
    ∃ t' n, PosixShell.step t c = some t' ∧ ¬(t.mode = .blank ∧ c = 35) ∧ Moved s t t' c rest n := by
  cases hmode : s.mode with
  | blank =>
    have htmode : t.mode = .blank := h.mode.trans hmode
    unfold PosixShell.step
    rw [htmode]
    dsimp only
    cases hblank : PosixShell.isBlank c with
    | true =>
      have hsame : Shlex.step s c = s := by
        rw [Shlex.step, hmode]
        dsimp only
        rw [if_pos ((isBlank_eq h10 h13).trans hblank), h.emit_blank hmode]
      rw [hmode] at hscan
      obtain ⟨hrest, hkept⟩ := scan_blank hblank hscan
      refine ⟨t, 0, by simp, ?_, ?_, ?_, ?_, ?_⟩
      · rintro ⟨_, rfl⟩
        exact absurd hblank (by decide)
      · rw [hsame]
        exact h
      · rw [hsame]
        omega
      · rw [hsame, hmode]
        exact hrest
      · rw [hsame, hmode]
        exact hkept
    | false =>
      obtain ⟨t', ht', hcomment, hmoved⟩ := plain_moved h (.inl hmode) hscan h10 h13 hblank
      exact ⟨t', 0, by simpa using ht', fun h => hcomment h.2, hmoved⟩
  | word =>
    have htmode : t.mode = .word := h.mode.trans hmode
    unfold PosixShell.step
    rw [htmode]
    dsimp only
    cases hblank : PosixShell.isBlank c with
    | true =>
      have hstep : Shlex.step s c = s.emit := by
        rw [Shlex.step, hmode]
        dsimp only
        rw [if_pos ((isBlank_eq h10 h13).trans hblank)]
      obtain ⟨hbeside, hsize⟩ := h.emit hmode
      rw [hmode] at hscan
      obtain ⟨hrest, hkept⟩ := scan_blank hblank hscan
      refine ⟨t.emit, 0, by simp, ?_, ?_, ?_, ?_, ?_⟩
      · rintro ⟨h, _⟩
        cases h
      · rw [hstep]
        exact hbeside
      · rw [hstep]
        exact hsize
      · rw [hstep]
        exact hrest
      · rw [hstep, hmode]
        exact hkept
    | false =>
      obtain ⟨t', ht', hcomment, hmoved⟩ := plain_moved h (.inr hmode) hscan h10 h13 hblank
      exact ⟨t', 0, by simpa using ht', fun h => hcomment h.2, hmoved⟩
  | quoted quote =>
    obtain ⟨t', ht', hmoved⟩ := quoted_moved h hmode hscan
    refine ⟨t', 0, ht', ?_, hmoved⟩
    rintro ⟨hblank, _⟩
    rw [h.mode, hmode] at hblank
    cases hblank
  | escaped back =>
    obtain ⟨t', n, ht', hmoved⟩ := escaped_moved h hmode hscan
    refine ⟨t', n, ht', ?_, hmoved⟩
    rintro ⟨hblank, _⟩
    rw [h.mode, hmode] at hblank
    cases hblank

/-! ## A whole line -/

/-- A dollar sign or backquote that stands alone outside single quotes stops the shell. -/
theorem step_expansion {t : PosixShell.State} {c : CodePoint} (hc : isExpansion c = true)
    (hmode : t.mode = .blank ∨ t.mode = .word ∨ t.mode = .quoted doubleQuote) :
    PosixShell.step t c = none ∧ c ≠ 35 := by
  have hkinds : PosixShell.isBlank c = false ∧ c ≠ backslash ∧ isQuote c = false ∧ c ≠ 35 ∧
      c ≠ doubleQuote := by
    simp only [isExpansion, Bool.or_eq_true, decide_eq_true_eq] at hc
    rcases hc with rfl | rfl <;> decide
  obtain ⟨hblank, hback, hquote, hcomment, hdouble⟩ := hkinds
  have hplain : PosixShell.plain t c = none := by
    rw [PosixShell.plain, if_neg hback, if_neg (by simp [hquote]), if_pos (by simp [hc])]
  refine ⟨?_, hcomment⟩
  unfold PosixShell.step
  rcases hmode with hmode | hmode | hmode
  · rw [hmode]
    dsimp only
    rw [if_neg (by simp [hblank]), hplain]
  · rw [hmode]
    dsimp only
    rw [if_neg (by simp [hblank]), hplain]
  · rw [hmode]
    dsimp only
    rw [if_neg hdouble, if_neg (fun h => hback h.2), if_pos ⟨rfl, hc⟩]

theorem read_expansion {t : PosixShell.State} {c : CodePoint} {rest : PyStr}
    (hc : isExpansion c = true)
    (hmode : t.mode = .blank ∨ t.mode = .word ∨ t.mode = .quoted doubleQuote) :
    PosixShell.read t (c :: rest) = none := by
  obtain ⟨hstep, hcomment⟩ := step_expansion hc hmode
  rw [PosixShell.read, if_neg (fun h => hcomment h.2), hstep, Option.bind_none]

/-- What the two lexers and the scan say of the rest of a line, of which the shell sees one with
`n` backslashes less. -/
structure Read (s : Shlex.State) (t t' : PosixShell.State) (rest : PyStr) (n : Nat) : Prop where
  beside : Beside (rest.foldl Shlex.step s) t'
  size : shellSize t' + lexSize s + (kept s.mode rest + n) =
    lexSize (rest.foldl Shlex.step s) + shellSize t
  scan : forbidden (rest.foldl Shlex.step s).mode [] = false

theorem scan_escaped (back : Option CodePoint) (c : CodePoint) (rest : PyStr) :
    forbiddenFrom back true (c :: rest) = forbiddenFrom back false rest := by
  rw [forbiddenFrom, if_pos rfl]

/-- A character inside single quotes has no meaning. -/
theorem scan_single {c : CodePoint} (rest : PyStr) (hquote : isQuote c = false) :
    forbiddenFrom (some singleQuote) false (c :: rest) = forbiddenFrom (some singleQuote) false rest ∧
      keptBackslashes (some singleQuote) false (c :: rest) =
        keptBackslashes (some singleQuote) false rest := by
  constructor
  · rw [forbiddenFrom, if_neg Bool.false_ne_true, if_neg (fun h => h.2 rfl), if_neg (by simp [hquote]),
      if_neg (fun h => h.1 rfl), if_neg (fun h => by cases h.1)]
  · rw [keptBackslashes, if_neg Bool.false_ne_true, if_neg (fun h => h.2 rfl),
      if_neg (by simp [hquote])]

theorem step_single {s : Shlex.State} (hmode : s.mode = .quoted singleQuote) {c : CodePoint}
    (hc : c ≠ singleQuote) :
    Shlex.step s c = { s with hasQuote := true, token := s.token ++ [c] } := by
  rw [Shlex.step, hmode]
  dsimp only
  rw [if_neg hc, if_neg (fun h => absurd h.2 (by decide))]

theorem single_not_comment {s : Shlex.State} {t : PosixShell.State} {c : CodePoint} (h : Beside s t)
    (hmode : s.mode = .quoted singleQuote) : ¬(t.mode = .blank ∧ c = 35) := by
  rintro ⟨hblank, _⟩
  rw [h.mode, hmode] at hblank
  cases hblank

/-- Inside single quotes a backslash and what it stands before are plain characters. -/
theorem single_moved {s : Shlex.State} {t : PosixShell.State} {c : CodePoint} {rest : PyStr}
    (h : Beside s t) (hmode : s.mode = .quoted singleQuote) (hc : isExpansion c = true)
    (hscan : forbidden s.mode (backslash :: c :: rest) = false) :
    ∃ t', PosixShell.step t c = some t' ∧ Beside (Shlex.step (Shlex.step s backslash) c) t' ∧
      shellSize t' + lexSize s + 1 = lexSize (Shlex.step (Shlex.step s backslash) c) + shellSize t ∧
      forbidden (Shlex.step (Shlex.step s backslash) c).mode rest = false ∧
      kept s.mode (backslash :: c :: rest) =
        kept (Shlex.step (Shlex.step s backslash) c).mode rest := by
  have hkinds : c ≠ singleQuote ∧ isQuote c = false := by
    simp only [isExpansion, Bool.or_eq_true, decide_eq_true_eq] at hc
    rcases hc with rfl | rfl <;> decide
  have htwo : Shlex.step (Shlex.step s backslash) c =
      { s with token := s.token ++ [backslash, c], mode := s.mode, hasQuote := true } := by
    rw [step_single hmode (show backslash ≠ singleQuote by decide)]
    rw [step_single (by exact hmode) hkinds.1]
    simp
  have ht : PosixShell.step t c = some (t.push [⟨c, true⟩] s.mode) := by
    unfold PosixShell.step
    rw [h.mode, hmode]
    dsimp only
    rw [if_neg hkinds.1, if_neg (fun h => absurd h.1 (by decide)),
      if_neg (fun h => absurd h.1 (by decide))]
  have hsingle (d : CodePoint) (text : PyStr) (hd : isQuote d = false) := scan_single text hd
  rw [htwo]
  refine ⟨_, ht, ?_, ?_, ?_, ?_⟩
  · exact h.more rfl (.drop hc .nil) true (by rw [hmode]; simp) (by rw [hmode]; simp) h.quoted
      h.escaped
  · exact size_more s.mode true rfl
  · rw [hmode] at hscan ⊢
    have hscan : forbiddenFrom (some singleQuote) false (backslash :: c :: rest) = false := hscan
    rw [(hsingle _ _ (by decide)).1, (hsingle _ _ hkinds.2).1] at hscan
    exact hscan
  · rw [hmode]
    show keptBackslashes (some singleQuote) false (backslash :: c :: rest) = _
    rw [(hsingle _ _ (by decide)).2, (hsingle _ _ hkinds.2).2]
    rfl

theorem beside_read {s : Shlex.State} {t : PosixShell.State} {n : Nat} {line line' : PyStr}
    (hdrop : Dropped n line line') (h : Beside s t) (hscan : forbidden s.mode line = false)
    (hline : ∀ c ∈ line, c ≠ 10 ∧ c ≠ 13) :
    n ≠ 0 ∧ PosixShell.read t line' = none ∨
      ∃ t', PosixShell.read t line' = some t' ∧ Read s t t' line n := by
  induction hdrop generalizing s t with
  | nil =>
    refine .inr ⟨t, rfl, h, ?_, hscan⟩
    have hzero : kept s.mode [] = 0 := rfl
    rw [hzero, List.foldl_nil]
    omega
  | @same n text text' c _ ih =>
    obtain ⟨h10, h13⟩ := hline c List.mem_cons_self
    obtain ⟨t', m, ht', hcomment, hmoved⟩ := beside_step h hscan h10 h13
    rcases ih hmoved.beside hmoved.scan fun c hc => hline c (List.mem_cons_of_mem _ hc) with
      ⟨hn, hnone⟩ | ⟨t'', ht'', hread⟩
    · refine .inl ⟨hn, ?_⟩
      rw [PosixShell.read, if_neg hcomment, ht', Option.bind_some, hnone]
    · refine .inr ⟨t'', ?_, hread.beside, ?_, hread.scan⟩
      · rw [PosixShell.read, if_neg hcomment, ht', Option.bind_some, ht'']
      · have hsize := hmoved.size
        have hsize' := hread.size
        have hkept := hmoved.kept
        rw [List.foldl_cons]
        omega
  | @drop n text text' c hc _ ih =>
    have hstop (hmode : s.mode = .blank ∨ s.mode = .word ∨ s.mode = .quoted doubleQuote) :
        n + 1 ≠ 0 ∧ PosixShell.read t (c :: text') = none :=
      ⟨by omega, read_expansion hc (by rw [h.mode]; exact hmode)⟩
    -- Behind another backslash the scan refuses the character that follows.
    have hrefused (back : Option CodePoint) (hmode : s.mode = .escaped back)
        (hback : back ≠ some singleQuote) : False := by
      rw [hmode] at hscan
      have hscan : forbiddenFrom back false (c :: text) = false := by
        rw [← scan_escaped back backslash (c :: text)]
        exact hscan
      have hkinds : c ≠ backslash ∧ isQuote c = false := by
        simp only [isExpansion, Bool.or_eq_true, decide_eq_true_eq] at hc
        rcases hc with rfl | rfl <;> decide
      rw [isExpansion_eq] at hc
      unfold forbiddenFrom at hscan
      rw [if_neg Bool.false_ne_true, if_neg (fun h => hkinds.1 h.1), if_neg (by simp [hkinds.2]),
        if_pos ⟨hback, hc⟩] at hscan
      cases hscan
    cases hmode : s.mode with
    | blank => exact .inl (hstop (.inl hmode))
    | word => exact .inl (hstop (.inr (.inl hmode)))
    | escaped back =>
      refine (hrefused back hmode ?_).elim
      rintro rfl
      exact absurd (h.escaped _ hmode) (by decide)
    | quoted quote =>
      rcases h.quoted quote hmode with rfl | rfl
      · obtain ⟨t', ht', hbeside, hsize, hrest, hkept⟩ := single_moved h hmode hc hscan
        rcases ih hbeside hrest fun d hd => hline d (by simp [hd]) with
          ⟨hn, hnone⟩ | ⟨t'', ht'', hread⟩
        · refine .inl ⟨by omega, ?_⟩
          rw [PosixShell.read, if_neg (single_not_comment h hmode), ht', Option.bind_some, hnone]
        · refine .inr ⟨t'', ?_, hread.beside, ?_, hread.scan⟩
          · rw [PosixShell.read, if_neg (single_not_comment h hmode), ht', Option.bind_some, ht'']
          · have hsize' := hread.size
            rw [List.foldl_cons, List.foldl_cons]
            omega
      · exact .inl (hstop (.inr (.inr hmode)))

theorem beside_init : Beside .init .init where
  mode := rfl
  words := .nil
  token := ⟨0, .nil⟩
  blank := fun _ => ⟨rfl, rfl, rfl⟩
  word := fun h => by cases h
  quoted := fun _ h => by cases h
  escaped := fun _ h => by cases h

theorem clean_line {line : PyStr} (h : hasForbiddenShellSyntax line = false) :
    forbiddenFrom none false line = false ∧ ∀ c ∈ line, c ≠ 10 ∧ c ≠ 13 := by
  unfold hasForbiddenShellSyntax at h
  split at h
  · cases h
  · next hline =>
    rw [not_or] at hline
    refine ⟨h, fun c hc => ⟨?_, ?_⟩⟩
    · rintro rfl
      exact hline.1 hc
    · rintro rfl
      exact hline.2 hc

/-- The words of a line that the scan lets through, for `shlex` and for a shell that sees the line
with `n` backslashes less. -/
theorem lex_of_split {line line' : PyStr} {tokens : List PyStr} {n : Nat}
    (hclean : hasForbiddenShellSyntax line = false) (hsplit : Shlex.split line = some tokens)
    (hdrop : Dropped n line line') :
    n ≠ 0 ∧ PosixShell.lex line' = none ∨
      ∃ words, PosixShell.lex line' = some words ∧ DroppedWords tokens (words.map Word.text) ∧
        wordsSize (words.map Word.text) + (keptBackslashes none false line + n) =
          wordsSize tokens := by
  obtain ⟨hscan, hline⟩ := clean_line hclean
  rcases beside_read hdrop beside_init hscan hline with ⟨hn, hnone⟩ | ⟨t', ht', hread⟩
  · refine .inl ⟨hn, ?_⟩
    rw [PosixShell.lex, hnone, Option.bind_none]
  · right
    have hsize : shellSize t' + lexSize .init + (keptBackslashes none false line + n) =
        lexSize (line.foldl Shlex.step .init) + shellSize .init := hread.size
    have hzero : lexSize .init = 0 ∧ shellSize .init = 0 := ⟨rfl, rfl⟩
    rw [hzero.1, hzero.2] at hsize
    rw [Shlex.split] at hsplit
    have hbeside := hread.beside
    revert hsplit hsize hbeside
    generalize line.foldl Shlex.step .init = s
    intro hsplit hsize hbeside
    rw [PosixShell.lex, ht', Option.bind_some, PosixShell.finish, hbeside.mode]
    unfold Shlex.finish at hsplit
    cases hmode : s.mode with
    | blank =>
      obtain ⟨htoken, _, hword⟩ := hbeside.blank hmode
      rw [hmode] at hsplit
      cases hsplit
      refine ⟨t'.words, rfl, hbeside.words, ?_⟩
      simp only [shellSize, lexSize, htoken, hword, List.length_nil] at hsize
      omega
    | word =>
      rw [hmode] at hsplit
      have hemit := hbeside.emit hmode
      cases hsplit
      refine ⟨t'.emit.words, rfl, hemit.1.words, ?_⟩
      have hsize' := hemit.2
      have htoken : s.emit.token = [] := rfl
      have hword : t'.emit.word = [] := rfl
      rw [shellSize, hword, lexSize.eq_def s.emit, htoken] at hsize'
      simp only [List.length_nil] at hsize'
      omega
    | quoted quote =>
      rw [hmode] at hsplit
      cases hsplit
    | escaped back =>
      rw [hmode] at hsplit
      cases hsplit

/-! ## The words that name what is run -/

/-- The words that `normalized_steam_agent_argv` knows. -/
def knownWords : List PyStr :=
  commandBuiltins ++ trustedAbsoluteShellExecutables ++ steamAgentExecutables

theorem known_facts : ∀ name ∈ knownWords, backslash ∉ name ∧ 61 ∉ name ∧ name.head? ≠ some 126 ∧
    name ∉ PosixShell.reservedWords ∧ startsWith name "-" = false := by
  decide

theorem tildePrefix_eq_none {w : Word} (h : w.text.head? ≠ some 126) :
    PosixShell.tildePrefix w = none := by
  cases w with
  | nil => rfl
  | cons p rest =>
    refine if_neg ?_
    rintro ⟨rfl, _⟩
    exact h rfl

theorem isReserved_eq_false {w : Word} (h : w.text ∉ PosixShell.reservedWords) :
    PosixShell.isReserved w = false := by
  rw [PosixShell.isReserved, decide_eq_false h, Bool.and_false]

theorem isAssignment_eq_false {w : Word} (h : 61 ∉ w.text) : PosixShell.isAssignment w = false := by
  have hsub : ∀ p ∈ w.takeWhile (fun p => !p.quoted), p.c ∈ w.text := by
    intro p hp
    exact List.mem_map_of_mem ((List.takeWhile_prefix _).subset hp)
  unfold PosixShell.isAssignment
  split
  · rfl
  · next p rest heq =>
    rw [heq] at hsub
    rw [Bool.and_eq_false_iff]
    right
    rw [decide_eq_false_iff_not]
    intro hhead
    have hmem := List.mem_of_mem_head? hhead
    have htext := (List.dropWhile_suffix _).subset hmem
    obtain ⟨q, hq, hqc⟩ := List.mem_map.mp htext
    exact h (hqc ▸ hsub q (List.mem_cons_of_mem _ hq))

/-- A known word is read as it stands. -/
structure Verbatim (w : Word) (name : PyStr) : Prop where
  text : w.text = name
  tilde : PosixShell.tildePrefix w = none
  reserved : PosixShell.isReserved w = false
  assignment : PosixShell.isAssignment w = false

theorem Verbatim.expand {w : Word} {name : PyStr} (h : Verbatim w name) (home : PyStr → PyStr) :
    PosixShell.expand home w = name := by
  rw [PosixShell.expand, h.tilde]
  exact h.text

theorem verbatim_of_known {w : Word} {name : PyStr} (hname : name ∈ knownWords)
    (h : ∃ n, Dropped n name w.text) : Verbatim w name := by
  obtain ⟨n, hn⟩ := h
  obtain ⟨hback, hequals, hhead, hreserved, _⟩ := known_facts name hname
  have htext := hn.eq_of_not_mem hback
  exact {
    text := htext
    tilde := tildePrefix_eq_none (by rw [htext]; exact hhead)
    reserved := isReserved_eq_false (by rw [htext]; exact hreserved)
    assignment := isAssignment_eq_false (by rw [htext]; exact hequals) }

/-- How a line that the scan lets through is read. -/
structure Reads (line : PyStr) (tokens : List PyStr) (executable : PyStr) (arguments : List PyStr) :
    Prop where
  clean : hasForbiddenShellSyntax line = false
  split : Shlex.split line = some tokens
  first : (tokens.head?.map isAssignment).getD false = false
  unwrap : unwrapCommandPrefix tokens = executable :: arguments
  known : executable ∈ trustedAbsoluteShellExecutables ++ steamAgentExecutables

theorem Reads.executable_known {line : PyStr} {tokens : List PyStr} {executable : PyStr}
    {arguments : List PyStr} (h : Reads line tokens executable arguments) :
    executable ∈ knownWords ∧ executable ∉ commandBuiltins := by
  have hapart : ∀ name ∈ trustedAbsoluteShellExecutables ++ steamAgentExecutables,
      name ∉ commandBuiltins := by decide
  refine ⟨?_, hapart _ h.known⟩
  rw [knownWords, List.append_assoc]
  exact List.mem_append_right _ h.known

theorem Reads.tokens_cases {line : PyStr} {tokens : List PyStr} {executable : PyStr}
    {arguments : List PyStr} (h : Reads line tokens executable arguments) :
    tokens = executable :: arguments ∨
      ∃ name ∈ commandBuiltins, tokens = name :: executable :: arguments := by
  have hunwrap := h.unwrap
  have hfirst := h.first
  cases tokens with
  | nil => cases hunwrap
  | cons token rest =>
    have hplain : isAssignment token = false := hfirst
    unfold unwrapCommandPrefix at hunwrap
    rw [List.dropWhile_cons_of_neg (by simp [hplain])] at hunwrap
    dsimp only at hunwrap
    split at hunwrap
    · next hbuiltin => exact .inr ⟨token, hbuiltin, by rw [hunwrap]⟩
    · exact .inl hunwrap

/-- The words of a line, where `operands` are those behind what it runs. -/
structure Commands (line' : PyStr) (words operands : List Word) (executable : PyStr)
    (arguments : List PyStr) : Prop where
  dropped : DroppedWords arguments (operands.map Word.text)
  command : ∀ home, ∃ fields, PosixShell.simpleCommand home line' = some fields ∧
    invoked fields = executable :: operands.map (PosixShell.expand home)
  tilde : ∀ w ∈ words, w ∈ operands ∨ PosixShell.tildePrefix w = none
  sub : ∀ w ∈ operands, w ∈ words

theorem simpleCommand_eq {line : PyStr} {first : Word} {rest : List Word} (home : PyStr → PyStr)
    (hlex : PosixShell.lex line = some (first :: rest)) {name : PyStr} (hfirst : Verbatim first name) :
    PosixShell.simpleCommand home line =
      some (name :: rest.map (PosixShell.expand home)) := by
  rw [PosixShell.simpleCommand, hlex]
  dsimp only
  rw [if_neg (by simp [hfirst.reserved, hfirst.assignment]), List.map_cons, hfirst.expand]

theorem Reads.commands {line line' : PyStr} {tokens : List PyStr} {executable : PyStr}
    {arguments : List PyStr} (h : Reads line tokens executable arguments) {words : List Word}
    (hlex : PosixShell.lex line' = some words)
    (hdropped : DroppedWords tokens (words.map Word.text)) :
    ∃ operands, Commands line' words operands executable arguments ∧
      wordsSize tokens + wordsSize (operands.map Word.text) =
        wordsSize (words.map Word.text) + wordsSize arguments := by
  obtain ⟨hknown, hplain⟩ := h.executable_known
  rcases h.tokens_cases with rfl | ⟨name, hbuiltin, rfl⟩
  · cases words with
    | nil => cases hdropped
    | cons first rest =>
      obtain ⟨hfirst, hrest⟩ := List.forall₂_cons.mp hdropped
      have hverbatim := verbatim_of_known hknown hfirst
      refine ⟨rest, ⟨hrest, ?_, ?_, fun w hw => List.mem_cons_of_mem _ hw⟩, ?_⟩
      · intro home
        refine ⟨_, simpleCommand_eq home hlex hverbatim, ?_⟩
        exact if_neg fun h => hplain (mem_commandRunners.mp h.1)
      · intro w hw
        rcases List.mem_cons.mp hw with rfl | hw
        · exact .inr hverbatim.tilde
        · exact .inl hw
      · simp only [wordsSize, List.map_cons, List.sum_cons, hverbatim.text]
        omega
  · cases words with
    | nil => cases hdropped
    | cons first words =>
      obtain ⟨hfirst, hwords⟩ := List.forall₂_cons.mp hdropped
      cases words with
      | nil => cases hwords
      | cons second rest =>
        obtain ⟨hsecond, hrest⟩ := List.forall₂_cons.mp hwords
        have hname : name ∈ knownWords :=
          List.mem_append_left _ (List.mem_append_left _ hbuiltin)
        have hverbatim := verbatim_of_known hname hfirst
        have hverbatim' := verbatim_of_known hknown hsecond
        refine ⟨rest, ⟨hrest, ?_, ?_, ?_⟩, ?_⟩
        · intro home
          refine ⟨_, simpleCommand_eq home hlex hverbatim, ?_⟩
          rw [List.map_cons, hverbatim'.expand, invoked,
            if_pos ⟨mem_commandRunners.mpr hbuiltin, by simp [(known_facts _ hknown).2.2.2.2]⟩]
        · intro w hw
          simp only [List.mem_cons] at hw
          rcases hw with rfl | rfl | hw
          · exact .inr hverbatim.tilde
          · exact .inr hverbatim'.tilde
          · exact .inl hw
        · intro w hw
          exact List.mem_cons_of_mem _ (List.mem_cons_of_mem _ hw)
        · simp only [wordsSize, List.map_cons, List.sum_cons, hverbatim.text, hverbatim'.text]
          omega

/-! ## The arguments and the shell -/

theorem length_le_wordsSize {words : List PyStr} {w : PyStr} (h : w ∈ words) :
    w.length ≤ wordsSize words :=
  List.single_le_sum (fun _ _ => Nat.zero_le _) _ (List.mem_map_of_mem h)

theorem run_of_command {line : PyStr} {words operands : List Word} {executable : PyStr}
    {arguments : List PyStr} (h : Commands line words operands executable arguments)
    (hexecutable : executable ∈ steamAgentExecutables) (home : PyStr → PyStr) (depth : Nat) :
    run home depth line = some (executable :: operands.map (PosixShell.expand home)) := by
  have hapart : ∀ name ∈ steamAgentExecutables, name ∉ shells := by decide
  obtain ⟨fields, hfields, hinvoked⟩ := h.command home
  unfold run
  rw [hfields]
  dsimp only
  rw [hinvoked]
  dsimp only
  rw [if_neg (hapart _ hexecutable)]

theorem run_of_lex_eq_none {line : PyStr} (h : PosixShell.lex line = none) (home : PyStr → PyStr)
    (depth : Nat) : run home depth line = none := by
  unfold run PosixShell.simpleCommand
  rw [h]

theorem expand_eq_text {w : Word} (h : PosixShell.tildePrefix w = none) (home : PyStr → PyStr) :
    PosixShell.expand home w = w.text := by
  rw [PosixShell.expand, h]

/-- Operands that are the arguments wherever login names have their homes begin with no tilde
prefix. -/
theorem tilde_of_expand {operands : List Word} {arguments : List PyStr}
    (h : ∀ home, operands.map (PosixShell.expand home) = arguments) :
    ∀ w ∈ operands, PosixShell.tildePrefix w = none := by
  intro w hw
  by_contra hsome
  obtain ⟨⟨login, rest⟩, htilde⟩ := Option.ne_none_iff_exists'.mp hsome
  -- A home that is longer than all arguments.
  let home : PyStr → PyStr := fun _ => List.replicate (wordsSize arguments + 1) 47
  have hmem : PosixShell.expand home w ∈ arguments := h home ▸ List.mem_map_of_mem hw
  have hlong : wordsSize arguments + 1 ≤ (PosixShell.expand home w).length := by
    rw [PosixShell.expand, htilde]
    simp only [home, List.length_append, List.length_replicate]
    omega
  have hle := length_le_wordsSize hmem
  omega

/-- The command that a line calls directly. -/
theorem direct_iff {line line' : PyStr} {tokens : List PyStr} {executable : PyStr}
    {arguments : List PyStr} (h : Reads line tokens executable arguments)
    (hexecutable : executable ∈ steamAgentExecutables) {n : Nat} (hdrop : Dropped n line line')
    (depth : Nat) :
    (∀ home, ∃ e ∈ steamAgentExecutables, run home depth line' = some (e :: arguments)) ↔
      n = 0 ∧ Plain line := by
  constructor
  · intro hrun
    rcases lex_of_split h.clean h.split hdrop with ⟨_, hnone⟩ | ⟨words, hlex, hdropped, hsize⟩
    · obtain ⟨e, _, he⟩ := hrun id
      rw [run_of_lex_eq_none hnone] at he
      cases he
    · obtain ⟨operands, hcommands, hsize'⟩ := h.commands hlex hdropped
      have hexpand : ∀ home, operands.map (PosixShell.expand home) = arguments := by
        intro home
        obtain ⟨e, _, he⟩ := hrun home
        rw [run_of_command hcommands hexecutable, Option.some.injEq, List.cons.injEq] at he
        exact he.2
      have htilde := tilde_of_expand hexpand
      have htext : operands.map Word.text = arguments := by
        rw [← hexpand id]
        exact List.map_congr_left fun w hw => (expand_eq_text (htilde w hw) id).symm
      rw [htext] at hsize'
      have hzero : n = 0 := by omega
      refine ⟨hzero, by omega, ?_⟩
      intro words' hlex' w hw
      subst hzero
      rw [hdrop.eq, hlex'] at hlex
      cases hlex
      exact (hcommands.tilde w hw).elim (htilde w) id
  · rintro ⟨rfl, hplain⟩ home
    rcases lex_of_split h.clean h.split hdrop with ⟨hne, _⟩ | ⟨words, hlex, hdropped, hsize⟩
    · exact absurd rfl hne
    · obtain ⟨operands, hcommands, hsize'⟩ := h.commands hlex hdropped
      rw [hplain.kept] at hsize
      have htext := DroppedWords.eq_of_size hcommands.dropped (by omega)
      have hline := hdrop.eq
      refine ⟨executable, hexecutable, ?_⟩
      rw [run_of_command hcommands hexecutable, ← htext]
      congr 2
      refine List.map_congr_left fun w hw => expand_eq_text ?_ home
      exact hplain.tilde words (hline ▸ hlex) w (hcommands.sub w hw)

theorem payload_cases {executable payload : PyStr} {arguments : List PyStr}
    (h : shellWrapperPayload (executable :: arguments) = some payload) :
    ∃ option, arguments = [option, payload] ∧
      (option = PyStr.ofString "-c" ∨ option = PyStr.ofString "-lc") := by
  unfold shellWrapperPayload at h
  split at h
  · next first option last heq =>
    split at h
    · next hoption =>
      cases h
      rw [List.cons.injEq] at heq
      exact ⟨option, heq.2, hoption⟩
    · cases h
  · cases h

theorem read_dollar (rest : PyStr) : PosixShell.lex (36 :: rest) = none := by
  rw [PosixShell.lex, read_expansion (by decide) (.inl rfl), Option.bind_none]

/-- The command that a line calls through another shell. -/
theorem wrapped_iff {line payload : PyStr} {tokens tokens' : List PyStr}
    {shell executable : PyStr} {operands arguments : List PyStr}
    (h : Reads line tokens shell operands) (hshell : shell ∈ trustedAbsoluteShellExecutables)
    (hpayload : shellWrapperPayload (shell :: operands) = some payload)
    (h' : Reads payload tokens' executable arguments)
    (hexecutable : executable ∈ steamAgentExecutables) :
    (∀ home, ∃ e ∈ steamAgentExecutables, run home 1 line = some (e :: arguments)) ↔
      Plain line ∧ Plain payload := by
  obtain ⟨option, rfl, hoption⟩ := payload_cases hpayload
  rcases lex_of_split h.clean h.split (Dropped.refl line) with
    ⟨hne, _⟩ | ⟨words, hlex, hdropped, hsize⟩
  · exact absurd rfl hne
  obtain ⟨ws, hcommands, hsize'⟩ := h.commands hlex hdropped
  -- The shell gets the option as it stands, and a payload that may have lost backslashes.
  obtain ⟨wo, wp, rfl, ⟨k, hwo⟩, ⟨m, hwp⟩⟩ : ∃ wo wp, ws = [wo, wp] ∧
      (∃ k, Dropped k option wo.text) ∧ ∃ m, Dropped m payload wp.text := by
    have hwords := hcommands.dropped
    rcases ws with _ | ⟨wo, _ | ⟨wp, _ | ⟨w, ws⟩⟩⟩
    · cases hwords
    · obtain ⟨_, hrest⟩ := List.forall₂_cons.mp hwords
      cases hrest
    · obtain ⟨hfirst, hrest⟩ := List.forall₂_cons.mp hwords
      obtain ⟨hsecond, _⟩ := List.forall₂_cons.mp hrest
      exact ⟨wo, wp, rfl, hfirst, hsecond⟩
    · obtain ⟨_, hrest⟩ := List.forall₂_cons.mp hwords
      obtain ⟨_, hrest⟩ := List.forall₂_cons.mp hrest
      cases hrest
  have hoptions : backslash ∉ option ∧ option.head? ≠ some 126 := by
    rcases hoption with rfl | rfl <;> decide
  have hotext := hwo.eq_of_not_mem hoptions.1
  have hotilde : PosixShell.tildePrefix wo = none :=
    tildePrefix_eq_none (by rw [hotext]; exact hoptions.2)
  have hrun (home : PyStr → PyStr) :
      run home 1 line = run home 0 (PosixShell.expand home wp) := by
    obtain ⟨fields, hfields, hinvoked⟩ := hcommands.command home
    have hword : PosixShell.expand home wo = option := (expand_eq_text hotilde home).trans hotext
    have hsome : commandString [option, PosixShell.expand home wp] =
        some (PosixShell.expand home wp) :=
      (shellWrapperPayload_cons shell _).symm.trans (if_pos hoption)
    rw [run, hfields]
    dsimp only
    rw [hinvoked]
    dsimp only
    rw [List.map_cons, List.map_cons, List.map_nil, if_pos (mem_shells.mpr hshell), hword, hsome]
  have hkept : keptBackslashes none false line = m := by
    have hlength := hwp.length
    have hlength' := congrArg List.length hotext
    simp only [wordsSize, List.map_cons, List.map_nil, List.sum_cons, List.sum_nil] at hsize hsize'
    omega
  have htilde : ∀ w ∈ words, w = wp ∨ PosixShell.tildePrefix w = none := by
    intro w hw
    rcases hcommands.tilde w hw with hw | hw
    · rcases List.mem_pair.mp hw with rfl | rfl
      · exact .inr hotilde
      · exact .inl rfl
    · exact .inr hw
  constructor
  · intro hall
    have hnone : PosixShell.tildePrefix wp = none := by
      by_contra hsome
      obtain ⟨⟨login, rest⟩, htilde⟩ := Option.ne_none_iff_exists'.mp hsome
      obtain ⟨e, _, he⟩ := hall fun _ => [36]
      have hdollar : PosixShell.expand (fun _ => [36]) wp = 36 :: Word.text rest := by
        rw [PosixShell.expand, htilde]
        rfl
      rw [hrun, hdollar, run_of_lex_eq_none (read_dollar _)] at he
      cases he
    have hinner : ∀ home, ∃ e ∈ steamAgentExecutables,
        run home 0 wp.text = some (e :: arguments) := by
      intro home
      rw [← expand_eq_text hnone home, ← hrun]
      exact hall home
    obtain ⟨hzero, hplain⟩ := (direct_iff h' hexecutable hwp 0).mp hinner
    refine ⟨⟨hkept.trans hzero, ?_⟩, hplain⟩
    intro words' hlex' w hw
    rw [hlex] at hlex'
    cases hlex'
    rcases htilde w hw with rfl | hw
    · exact hnone
    · exact hw
  · rintro ⟨hline, hplain⟩ home
    have hzero : m = 0 := hkept.symm.trans hline.kept
    subst hzero
    have hnone := hline.tilde words hlex wp (hcommands.sub wp (by simp))
    rw [hrun, expand_eq_text hnone]
    exact (direct_iff h' hexecutable hwp 0).mpr ⟨rfl, hplain⟩ home

/-- What a command with arguments has been found to be. -/
theorem argvWith_eq {inner : PyStr → Option (List PyStr)} {expectedExecutable : Option PyStr}
    {command : PyStr} {argv : List PyStr} (h : argvWith inner expectedExecutable command = some argv) :
    hasForbiddenShellSyntax command = false ∧ ∃ tokens, Shlex.split command = some tokens ∧
      (tokens.head?.map isAssignment).getD false = false ∧
      ∃ executable arguments, unwrapCommandPrefix tokens = executable :: arguments ∧
        (executable ∈ trustedAbsoluteShellExecutables ∧ (∃ payload,
            shellWrapperPayload (executable :: arguments) = some payload ∧
              inner payload = some argv) ∨
          executable ∈ steamAgentExecutables ∧ arguments = argv) := by
  unfold argvWith at h
  split at h
  · cases h
  · next hclean =>
    rw [not_or] at hclean
    refine ⟨(Bool.not_eq_true _).mp hclean.2, ?_⟩
    split at h
    · cases h
    · next tokens hsplit =>
      refine ⟨tokens, hsplit, ?_⟩
      split at h
      · cases h
      · next hfirst =>
        refine ⟨by simpa using hfirst, ?_⟩
        split at h
        · cases h
        · next executable arguments hunwrap =>
          refine ⟨executable, arguments, hunwrap, ?_⟩
          split at h
          · next hshell => exact .inl ⟨hshell, Option.bind_eq_some_iff.mp h⟩
          · split at h
            · cases h
            · next hexecutable =>
              split at h
              · cases h
              · cases h
                exact .inr ⟨not_not.mp hexecutable, rfl⟩

/-- Where a command has arguments, they are what the shell runs exactly when no backslash inside
double quotes stands before a dollar sign or a backquote and no word begins with a tilde prefix, in
the command and in the payload of the shell that it calls. -/
theorem argv_is_run_iff {command : PyStr} {expectedExecutable : Option PyStr} {argv : List PyStr}
    (h : normalizedSteamAgentArgv command expectedExecutable = some argv) :
    (∀ home, ∃ executable ∈ steamAgentExecutables,
        run home 1 command = some (executable :: argv)) ↔
      Plain command ∧ ∀ payload, wrapped command = some payload → Plain payload := by
  obtain ⟨hclean, tokens, hsplit, hfirst, executable, arguments, hunwrap, hcases⟩ := argvWith_eq h
  rcases hcases with ⟨hshell, payload, hpayload, hinner⟩ | ⟨hexecutable, rfl⟩
  · have hreads : Reads command tokens executable arguments :=
      ⟨hclean, hsplit, hfirst, hunwrap, List.mem_append_left _ hshell⟩
    obtain ⟨hclean', tokens', hsplit', hfirst', executable', arguments', hunwrap', hcases'⟩ :=
      argvWith_eq hinner
    have hwrapped : wrapped command = some payload := by
      rw [wrapped, hsplit, Option.map_some, hunwrap]
      dsimp only
      rw [if_pos hshell, hpayload]
    rcases hcases' with ⟨_, _, _, hnone⟩ | ⟨hexecutable', rfl⟩
    · cases hnone
    · have hreads' : Reads payload tokens' executable' arguments' :=
        ⟨hclean', hsplit', hfirst', hunwrap', List.mem_append_right _ hexecutable'⟩
      rw [wrapped_iff hreads hshell hpayload hreads' hexecutable', hwrapped]
      simp
  · have hapart : ∀ name ∈ steamAgentExecutables, name ∉ trustedAbsoluteShellExecutables := by
      decide
    have hreads : Reads command tokens executable arguments :=
      ⟨hclean, hsplit, hfirst, hunwrap, List.mem_append_right _ hexecutable⟩
    have hwrapped : wrapped command = none := by
      rw [wrapped, hsplit, Option.map_some, hunwrap]
      dsimp only
      rw [if_neg (hapart _ hexecutable)]
    rw [direct_iff hreads hexecutable (Dropped.refl command) 1, hwrapped]
    simp

/-- A call through another shell, whose payload has a word in single quotes. -/
def quotedCommand : PyStr :=
  PyStr.ofString "/bin/sh -c \"command steam-agent deals query --like 'a b'\""

def quotedPayload : PyStr :=
  PyStr.ofString "command steam-agent deals query --like 'a b'"

theorem plain_of_check {line : PyStr} (hkept : keptBackslashes none false line = 0)
    (htilde : ((PosixShell.lex line).getD []).all
      (fun w => (PosixShell.tildePrefix w).isNone) = true) : Plain line where
  kept := hkept
  tilde := by
    intro words hlex w hw
    rw [hlex, Option.getD_some, List.all_eq_true] at htilde
    exact Option.isNone_iff_eq_none.mp (htilde w hw)

theorem argv_is_run_iff_quoted :
    normalizedSteamAgentArgv quotedCommand none =
      some (["deals", "query", "--like", "a b"].map PyStr.ofString) ∧
    ∀ home, ∃ executable ∈ steamAgentExecutables, run home 1 quotedCommand =
      some (executable :: ["deals", "query", "--like", "a b"].map PyStr.ofString) := by
  have hargv : normalizedSteamAgentArgv quotedCommand none =
    some (["deals", "query", "--like", "a b"].map PyStr.ofString) := by decide +kernel
  have hwrapped : wrapped quotedCommand = some quotedPayload := by decide +kernel
  refine ⟨hargv, (argv_is_run_iff hargv).mpr
    ⟨plain_of_check (by decide +kernel) (by decide +kernel), ?_⟩⟩
  intro payload hpayload
  rw [hwrapped] at hpayload
  cases hpayload
  exact plain_of_check (by decide +kernel) (by decide +kernel)

/-- A command whose payload runs another command: the scan sees escaped backquotes, which double
quotes do not keep from the second shell. -/
def substitutedCommand : PyStr :=
  PyStr.ofString "/bin/sh -c \"steam-agent \\`id\\`\""

/-- The argument is a text for `shlex`, and the shell runs no simple command. -/
theorem substituted_not_run :
    normalizedSteamAgentArgv substitutedCommand none = some (["`id`"].map PyStr.ofString) ∧
      run id 1 substitutedCommand = none ∧
      ¬∀ (command : PyStr) (expectedExecutable : Option PyStr) (argv : List PyStr),
        normalizedSteamAgentArgv command expectedExecutable = some argv →
        ∀ home, ∃ executable ∈ steamAgentExecutables,
          run home 1 command = some (executable :: argv) := by
  have hargv : normalizedSteamAgentArgv substitutedCommand none =
    some (["`id`"].map PyStr.ofString) := by decide +kernel
  have hrun : run id 1 substitutedCommand = none := by decide +kernel
  refine ⟨hargv, hrun, fun h => ?_⟩
  obtain ⟨executable, _, hsome⟩ := h _ _ _ hargv id
  rw [hrun] at hsome
  cases hsome

end SteamAgent.Evals.ShellRun
