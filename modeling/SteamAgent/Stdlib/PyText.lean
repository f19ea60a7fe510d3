import Mathlib
import SteamAgent.Stdlib.PyJson

/-!
# Lines of a text

`str.splitlines` and the blanks of `str.strip`, on code points.
-/

namespace PyStr

/-- What `str.isspace` holds of. -/
def isSpace (c : CodePoint) : Bool :=
  (9 ≤ c.val && c.val ≤ 13) || (28 ≤ c.val && c.val ≤ 32) || c.val == 0x85 || c.val == 0xA0 ||
    c.val == 0x1680 || (0x2000 ≤ c.val && c.val ≤ 0x200A) || c.val == 0x2028 || c.val == 0x2029 ||
    c.val == 0x202F || c.val == 0x205F || c.val == 0x3000

/-- `not text.strip()`. -/
def isBlank (text : PyStr) : Bool :=
  text.all isSpace

/-- What ends a line for `str.splitlines`. -/
def isBreak (c : CodePoint) : Bool :=
  c ∈ [10, 11, 12, 13, 28, 29, 30, 0x85, 0x2028, 0x2029]

/-- `str.splitlines`, with the line that was begun. -/
def splitlinesFrom (line : PyStr) : PyStr → List PyStr
  | [] => if line = [] then [] else [line]
  | [c] => if isBreak c then [line] else [line ++ [c]]
  | c :: c' :: rest =>
    if c = 13 ∧ c' = 10 then line :: splitlinesFrom [] rest
    else if isBreak c then line :: splitlinesFrom [] (c' :: rest)
    else splitlinesFrom (line ++ [c]) (c' :: rest)

/-- `text.splitlines()`. -/
def splitlines (text : PyStr) : List PyStr :=
  splitlinesFrom [] text

/-- The texts with a line feed between them. -/
def joinLines (lines : List PyStr) : PyStr :=
  (lines.intersperse [10]).flatten

theorem splitlinesFrom_cons {line rest : PyStr} {c : CodePoint} (h : isBreak c = false) :
    splitlinesFrom line (c :: rest) = splitlinesFrom (line ++ [c]) rest := by
  have hreturn : c ≠ 13 := by
    rintro rfl
    exact absurd h (by decide)
  cases rest with
  | nil =>
    simp [splitlinesFrom, h]
  | cons c' rest => simp [splitlinesFrom, h, hreturn]

/-- A break other than a carriage return ends the line. -/
theorem splitlinesFrom_break {line rest : PyStr} {c : CodePoint} (h : isBreak c = true)
    (hreturn : c ≠ 13) : splitlinesFrom line (c :: rest) = line :: splitlinesFrom [] rest := by
  cases rest with
  | nil => simp [splitlinesFrom, h]
  | cons c' rest => simp [splitlinesFrom, h, hreturn]

theorem splitlinesFrom_append {text : PyStr} (h : ∀ c ∈ text, isBreak c = false)
    (line rest : PyStr) : splitlinesFrom line (text ++ rest) = splitlinesFrom (line ++ text) rest := by
  induction text generalizing line with
  | nil => simp
  | cons c text ih =>
    rw [List.cons_append, splitlinesFrom_cons (h c List.mem_cons_self),
      ih fun c' hc' => h c' (List.mem_cons_of_mem _ hc')]
    simp

theorem splitlinesFrom_line {text : PyStr} (h : ∀ c ∈ text, isBreak c = false) (hne : text ≠ []) :
    splitlinesFrom [] text = [text] := by
  have happend := splitlinesFrom_append h [] []
  rw [List.append_nil, List.nil_append] at happend
  rw [happend, splitlinesFrom, if_neg hne]

theorem joinLines_cons_cons (line line' : PyStr) (lines : List PyStr) :
    joinLines (line :: line' :: lines) = line ++ 10 :: joinLines (line' :: lines) := by
  simp [joinLines]

/-- Lines without breaks are the lines of the text. -/
theorem splitlines_joinLines {lines : List PyStr}
    (h : ∀ line ∈ lines, line ≠ [] ∧ ∀ c ∈ line, isBreak c = false) :
    splitlines (joinLines lines) = lines := by
  unfold splitlines
  induction lines with
  | nil => rfl
  | cons line lines ih =>
    obtain ⟨hne, hnone⟩ := h line List.mem_cons_self
    cases lines with
    | nil =>
      have hjoin : joinLines [line] = line := by
        simp [joinLines]
      rw [hjoin, splitlinesFrom_line hnone hne]
    | cons line' lines =>
      rw [joinLines_cons_cons, splitlinesFrom_append hnone, List.nil_append,
        splitlinesFrom_break (by decide) (by decide),
        ih fun l hl => h l (List.mem_cons_of_mem _ hl)]

/-- The text before the first break of a line is a line of the text. -/
theorem mem_splitlines_joinLines {front back : List PyStr} {before after : PyStr} {c : CodePoint}
    (hfront : ∀ line ∈ front, ∀ c ∈ line, isBreak c = false)
    (hbefore : ∀ c ∈ before, isBreak c = false) (hbreak : isBreak c = true) (hreturn : c ≠ 13) :
    before ∈ splitlines (joinLines (front ++ (before ++ c :: after) :: back)) := by
  unfold splitlines
  induction front with
  | nil =>
    have hjoin : ∃ rest, joinLines ((before ++ c :: after) :: back) = before ++ c :: rest := by
      cases back with
      | nil => exact ⟨after, by simp [joinLines]⟩
      | cons line lines => exact ⟨_, by rw [joinLines_cons_cons, List.append_assoc]; rfl⟩
    obtain ⟨rest, hrest⟩ := hjoin
    rw [List.nil_append, hrest, splitlinesFrom_append hbefore, List.nil_append,
      splitlinesFrom_break hbreak hreturn]
    exact List.mem_cons_self
  | cons line front ih =>
    have hrest := ih fun l hl => hfront l (List.mem_cons_of_mem _ hl)
    have hjoin : joinLines ((line :: front) ++ (before ++ c :: after) :: back) =
        line ++ 10 :: joinLines (front ++ (before ++ c :: after) :: back) := by
      cases front with
      | nil => exact joinLines_cons_cons _ _ _
      | cons line' front => exact joinLines_cons_cons _ _ _
    rw [hjoin, splitlinesFrom_append (hfront line List.mem_cons_self),
      splitlinesFrom_break (by decide) (by decide)]
    exact List.mem_cons_of_mem _ hrest

end PyStr
