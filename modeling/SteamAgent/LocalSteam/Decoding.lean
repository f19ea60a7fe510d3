import SteamAgent.LocalSteam.KeyValues
import SteamAgent.Stdlib.Result

/-!
# What the KeyValues parser accepts

A rendered tree is parsed back, and an accepted text gives a tree within the
limits, except for one: a character that is written as an escape is not counted
against the length of a string.

There are five groups.

* `Renders`: the texts of a tree, with gaps of whitespace and comments.
* Parsing a rendered tree.
* `Parses`: one rule for each way an accepted text goes on.  It carries every
  property of an accepted tree.
* The fuel.
* The length of strings, and the result.
-/

namespace SteamAgent.LocalSteam

open Result (bind_eq_ok bind_eq_error)
open Text (isSpace)

/-! ## Rendering -/

/-- Whitespace and finished comments. -/
inductive Gap : List Char → Prop
  | nil : Gap []
  | space {c : Char} {gap : List Char} (hspace : isSpace c = true) (h : Gap gap) : Gap (c :: gap)
  | comment {body gap : List Char} (hbody : '\n' ∉ body) (h : Gap gap) :
      Gap ('/' :: '/' :: (body ++ '\n' :: gap))

/-- A gap at the end of a text, where a comment may be open. -/
inductive FinalGap : List Char → Prop
  | closed {gap : List Char} (h : Gap gap) : FinalGap gap
  | comment {body gap : List Char} (hbody : '\n' ∉ body) (h : Gap gap) :
      FinalGap (gap ++ '/' :: '/' :: body)

/-- A backslash in front of quotes and backslashes. -/
def escape (c : Char) : List Char :=
  if c = '"' ∨ c = '\\' then ['\\', c] else [c]

def quoted (value : List Char) : List Char :=
  '"' :: (value.flatMap escape ++ ['"'])

/-- The texts of the entries of an object. -/
inductive Renders : KeyValuesObject → List Char → Prop
  | empty : Renders .empty []
  | text {key value g g' r : List Char} {others : KeyValuesObject} (hg : Gap g) (hg' : Gap g')
      (hothers : Renders others r) :
      Renders (.text key value others) (g ++ quoted key ++ g' ++ quoted value ++ r)
  | object {key g g' g'' v r : List Char} {value others : KeyValuesObject} (hg : Gap g)
      (hg' : Gap g') (hvalue : Renders value v) (hg'' : Gap g'') (hothers : Renders others r) :
      Renders (.object key value others) (g ++ quoted key ++ g' ++ '{' :: (v ++ g'' ++ '}' :: r))

/-- The texts of a tree: an optional byte order mark, the entries and a gap. -/
def Document (tree : KeyValuesObject) (text : List Char) : Prop :=
  ∃ mark r gap, (mark = [] ∨ mark = ['\uFEFF']) ∧ Renders tree r ∧ FinalGap gap ∧
    text = mark ++ r ++ gap

/-! ## Parsing a rendered tree -/

theorem skipGap_comment {body : List Char} (hbody : '\n' ∉ body) (t : List Char) :
    skipGap true (body ++ '\n' :: t) = skipGap false t := by
  induction body with
  | nil => rfl
  | cons c body ih =>
    rw [List.mem_cons, not_or] at hbody
    have hc : (c != '\n') = true := by simpa using Ne.symm hbody.1
    rw [List.cons_append, skipGap_comment_cons, hc]
    exact ih hbody.2

theorem skipGap_openComment {body : List Char} (hbody : '\n' ∉ body) : skipGap true body = [] := by
  induction body with
  | nil => rfl
  | cons c body ih =>
    rw [List.mem_cons, not_or] at hbody
    have hc : (c != '\n') = true := by simpa using Ne.symm hbody.1
    rw [skipGap_comment_cons, hc]
    exact ih hbody.2

theorem skip_slashes (t : List Char) :
    skipSpaceAndComments ('/' :: '/' :: t) = skipGap true t := by
  rw [skipSpaceAndComments, skipGap_cons, if_neg (by decide), if_pos (by simp),
    skipGap_comment_cons]
  rfl

theorem Gap.skip {g : List Char} (h : Gap g) (t : List Char) :
    skipSpaceAndComments (g ++ t) = skipSpaceAndComments t := by
  induction h with
  | nil => rfl
  | space hspace h ih =>
    rw [List.cons_append, skipSpaceAndComments, skipGap_cons, if_pos hspace]
    exact ih
  | comment hbody h ih =>
    rw [List.cons_append, List.cons_append, List.append_assoc, List.cons_append, skip_slashes,
      skipGap_comment hbody]
    exact ih

theorem FinalGap.skip {g : List Char} (h : FinalGap g) : skipSpaceAndComments g = [] := by
  cases h with
  | closed h =>
    have hskip := h.skip []
    rw [List.append_nil] at hskip
    rw [hskip]
    rfl
  | comment hbody h => rw [h.skip, skip_slashes, skipGap_openComment hbody]

@[simp] theorem skip_quote (t : List Char) : skipSpaceAndComments ('"' :: t) = '"' :: t := by
  rw [skipSpaceAndComments, skipGap_cons, if_neg (by decide), if_neg (by simp)]

@[simp] theorem skip_open (t : List Char) : skipSpaceAndComments ('{' :: t) = '{' :: t := by
  rw [skipSpaceAndComments, skipGap_cons, if_neg (by decide), if_neg (by simp)]

@[simp] theorem skip_close (t : List Char) : skipSpaceAndComments ('}' :: t) = '}' :: t := by
  rw [skipSpaceAndComments, skipGap_cons, if_neg (by decide), if_neg (by simp)]

theorem readString_escaped (count : Nat) (escaped : Char) (rest : List Char) :
    readString count ('\\' :: escaped :: rest)
      = (readString (count + 1) rest).map fun r => (unescape escaped :: r.1, r.2) := by
  rw [readString]
  cases readString (count + 1) rest <;> rfl

theorem readString_plain {count : Nat} {c : Char} {rest : List Char} (hquote : c ≠ '"')
    (hslash : c ≠ '\\') :
    readString count (c :: rest) = if count + 1 > maxKeyvaluesString then
        .error (.error "maximum string length exceeded" rest)
      else (readString (count + 1) rest).map fun r => (c :: r.1, r.2) := by
  rw [readString.eq_5 _ _ _ (fun h => hquote h) (fun h => absurd h hslash)
    (fun _ _ h => absurd h hslash)]
  cases readString (count + 1) rest <;> rfl

/-- A quoted string within the limit is read back. -/
theorem readString_quoted (value rest : List Char) : ∀ {count : Nat},
    count + value.length ≤ maxKeyvaluesString →
    readString count (value.flatMap escape ++ '"' :: rest) = .ok (value, rest) := by
  induction value with
  | nil =>
    intro count _
    rw [List.flatMap_nil, List.nil_append, readString]
  | cons c value ih =>
    intro count h
    rw [List.length_cons] at h
    have hrest := @ih (count + 1) (by omega)
    rw [List.flatMap_cons, List.append_assoc, escape]
    by_cases hc : c = '"' ∨ c = '\\'
    · rw [if_pos hc, List.cons_append, List.cons_append, List.nil_append, readString_escaped, hrest]
      rcases hc with rfl | rfl <;> rfl
    · rw [if_neg hc, List.cons_append, List.nil_append]
      rw [not_or] at hc
      rw [readString_plain hc.1 hc.2, if_neg (by omega), hrest]
      rfl

/-! ## Accepted texts -/

theorem skipGap_idem (comment : Bool) (text : List Char) :
    skipGap false (skipGap comment text) = skipGap comment text := by
  induction text generalizing comment with
  | nil => cases comment <;> rfl
  | cons c rest ih =>
    cases comment with
    | true => exact ih _
    | false =>
      rw [skipGap_cons]
      by_cases hspace : isSpace c = true
      · rw [if_pos hspace]
        exact ih _
      · rw [if_neg hspace]
        by_cases hslash : c = '/' ∧ rest.head? = some '/'
        · rw [if_pos hslash]
          exact ih _
        · rw [if_neg hslash, skipGap_cons, if_neg hspace, if_neg hslash]

theorem skip_skip {text : List Char} {first : Char} {rest : List Char}
    (h : skipSpaceAndComments text = first :: rest) :
    skipSpaceAndComments (first :: rest) = first :: rest := by
  rw [← h]
  exact skipGap_idem false text

/-- A string was read. -/
theorem parseString_eq_ok {text value rest : List Char}
    (h : parseString text = .ok (value, rest)) :
    ∃ r, skipSpaceAndComments text = '"' :: r ∧ readString 0 r = .ok (value, rest) := by
  unfold parseString at h
  split at h
  · rename_i r hskip
    exact ⟨r, hskip, h⟩
  · cases h

theorem parseString_quote {r value rest : List Char} (h : readString 0 r = .ok (value, rest)) :
    parseString ('"' :: r) = .ok (value, rest) := by
  rw [parseString, skip_quote]
  exact h

/-- The ways an accepted text goes on: from the state of the parser and the text
to the entries, their number so far and the rest. -/
inductive Parses (casefold : List Char → List Char) :
    Bool → Nat → List (List Char) → Nat → List Char → KeyValuesObject → Nat → List Char → Prop
  | finished {depth entries : Nat} {keys : List (List Char)} {text : List Char}
      (hskip : skipSpaceAndComments text = []) :
      Parses casefold true depth keys entries text .empty entries []
  | closed {depth entries : Nat} {keys : List (List Char)} {text rest : List Char}
      (hskip : skipSpaceAndComments text = '}' :: rest) :
      Parses casefold false depth keys entries text .empty entries rest
  | text {top : Bool} {depth entries entries' : Nat} {keys : List (List Char)}
      {text r key rest r' value rest' rest'' : List Char} {others : KeyValuesObject}
      (hskip : skipSpaceAndComments text = '"' :: r) (hkey : readString 0 r = .ok (key, rest))
      (hfresh : casefold key ∉ keys) (hentries : entries + 1 ≤ maxKeyvaluesEntries)
      (hskip' : skipSpaceAndComments rest = '"' :: r')
      (hvalue : readString 0 r' = .ok (value, rest'))
      (hothers : Parses casefold top depth (casefold key :: keys) (entries + 1) rest' others
        entries' rest'') :
      Parses casefold top depth keys entries text (.text key value others) entries' rest''
  | object {top : Bool} {depth entries entries' entries'' : Nat} {keys : List (List Char)}
      {text r key rest r' rest' rest'' : List Char} {value others : KeyValuesObject}
      (hskip : skipSpaceAndComments text = '"' :: r) (hkey : readString 0 r = .ok (key, rest))
      (hfresh : casefold key ∉ keys) (hentries : entries + 1 ≤ maxKeyvaluesEntries)
      (hskip' : skipSpaceAndComments rest = '{' :: r')
      (hdepth : depth + 1 ≤ maxKeyvaluesDepth)
      (hvalue : Parses casefold false (depth + 1) [] (entries + 1) r' value entries' rest')
      (hothers : Parses casefold top depth (casefold key :: keys) entries' rest' others
        entries'' rest'') :
      Parses casefold top depth keys entries text (.object key value others) entries'' rest''

variable {casefold : List Char → List Char}

/-- The parser accepts only what `Parses` says. -/
theorem parses_of_parseEntries (fuel : Nat) : ∀ {top : Bool} {depth entries entries' : Nat}
    {keys : List (List Char)} {text rest : List Char} {tree : KeyValuesObject},
    parseEntries casefold fuel top depth keys entries text = .ok (tree, entries', rest) →
    Parses casefold top depth keys entries text tree entries' rest := by
  induction fuel with
  | zero =>
    intro top depth entries entries' keys text rest tree h
    cases h
  | succ fuel ih =>
    intro top depth entries entries' keys text rest tree h
    rw [parseEntries] at h
    split at h
    · rename_i hskip
      split at h
      · rename_i htop
        subst htop
        cases h
        exact .finished hskip
      · cases h
    · rename_i rest' hskip
      split at h
      · cases h
      · rename_i htop
        obtain rfl : top = false := by simpa using htop
        cases h
        exact .closed hskip
    · rename_i first r hclose hskip
      obtain ⟨⟨key, rest₁⟩, hkey, h⟩ := bind_eq_ok.mp h
      dsimp only at h
      obtain ⟨r₁, hquote, hread⟩ := parseString_eq_ok hkey
      rw [skip_skip hskip] at hquote
      rw [hquote] at hskip
      split at h
      · cases h
      · rename_i hfresh
        rw [List.contains_iff_mem] at hfresh
        split at h
        · cases h
        · rename_i hentries
          rw [Nat.not_lt] at hentries
          split at h
          · cases h
          · rename_i r₂ hopen
            split at h
            · cases h
            · rename_i hdepth
              rw [Nat.not_lt] at hdepth
              obtain ⟨⟨value, entries₁, rest₂⟩, hvalue, h⟩ := bind_eq_ok.mp h
              obtain ⟨⟨others, entries₂, rest₃⟩, hothers, h⟩ := bind_eq_ok.mp h
              cases h
              exact .object hskip hread hfresh hentries hopen hdepth (ih hvalue) (ih hothers)
          · rename_i first' r₂ hopen hskip'
            obtain ⟨⟨value, rest₂⟩, hvalue, h⟩ := bind_eq_ok.mp h
            obtain ⟨⟨others, entries₂, rest₃⟩, hothers, h⟩ := bind_eq_ok.mp h
            cases h
            obtain ⟨r₃, hquote', hread'⟩ := parseString_eq_ok hvalue
            rw [skip_skip hskip'] at hquote'
            rw [hquote'] at hskip'
            exact .text hskip hread hfresh hentries hskip' hread' (ih hothers)

section Accepted

variable {top : Bool} {depth entries entries' : Nat} {keys : List (List Char)}
  {text rest : List Char} {tree : KeyValuesObject}

/-- A text ends at its end. -/
theorem Parses.end_eq (h : Parses casefold top depth keys entries text tree entries' rest) :
    top = true → rest = [] := by
  induction h with
  | finished hskip => exact fun _ => rfl
  | closed hskip => exact nofun
  | text hskip hkey hfresh hentries hskip' hvalue hothers ih => exact ih
  | object hskip hkey hfresh hentries hskip' hdepth hvalue hothers ih₁ ih₂ => exact ih₂

/-- With enough fuel the parser accepts what `Parses` says. -/
theorem Parses.parseEntries (h : Parses casefold top depth keys entries text tree entries' rest) :
    ∀ {fuel : Nat}, tree.entryCount < fuel →
    parseEntries casefold fuel top depth keys entries text = .ok (tree, entries', rest) := by
  induction h with
  | finished hskip =>
    intro fuel hfuel
    obtain ⟨fuel, rfl⟩ := Nat.exists_eq_succ_of_ne_zero (Nat.ne_zero_of_lt hfuel)
    rw [LocalSteam.parseEntries, hskip]
    rfl
  | closed hskip =>
    intro fuel hfuel
    obtain ⟨fuel, rfl⟩ := Nat.exists_eq_succ_of_ne_zero (Nat.ne_zero_of_lt hfuel)
    rw [LocalSteam.parseEntries, hskip]
    rfl
  | text hskip hkey hfresh hentries hskip' hvalue hothers ih =>
    intro fuel hfuel
    obtain ⟨fuel, rfl⟩ := Nat.exists_eq_succ_of_ne_zero (Nat.ne_zero_of_lt hfuel)
    rw [KeyValuesObject.entryCount] at hfuel
    rw [LocalSteam.parseEntries, hskip]
    show (parseString ('"' :: _) >>= _) = _
    rw [parseString_quote hkey]
    show (if List.contains _ _ then _ else _) = _
    rw [if_neg (by simpa using hfresh), if_neg (Nat.not_lt.mpr hentries), hskip']
    show (parseString ('"' :: _) >>= _) = _
    rw [parseString_quote hvalue]
    show (LocalSteam.parseEntries _ _ _ _ _ _ _ >>= _) = _
    rw [ih (by omega)]
    rfl
  | object hskip hkey hfresh hentries hskip' hdepth hvalue hothers ih₁ ih₂ =>
    intro fuel hfuel
    obtain ⟨fuel, rfl⟩ := Nat.exists_eq_succ_of_ne_zero (Nat.ne_zero_of_lt hfuel)
    rw [KeyValuesObject.entryCount] at hfuel
    rw [LocalSteam.parseEntries, hskip]
    show (parseString ('"' :: _) >>= _) = _
    rw [parseString_quote hkey]
    show (if List.contains _ _ then _ else _) = _
    rw [if_neg (by simpa using hfresh), if_neg (Nat.not_lt.mpr hentries), hskip']
    show (if _ > _ then _ else _) = _
    rw [if_neg (Nat.not_lt.mpr hdepth), ih₁ (by omega)]
    show (LocalSteam.parseEntries _ _ _ _ _ _ _ >>= _) = _
    rw [ih₂ (by omega)]
    rfl

/-- The keys of an object are new, and each object has its own. -/
theorem Parses.distinct (h : Parses casefold top depth keys entries text tree entries' rest) :
    (∀ key ∈ tree.keys, casefold key ∉ keys) ∧ tree.Distinct casefold := by
  induction h with
  | finished hskip => exact ⟨by simp [KeyValuesObject.keys], trivial⟩
  | closed hskip => exact ⟨by simp [KeyValuesObject.keys], trivial⟩
  | text hskip hkey hfresh hentries hskip' hvalue hothers ih =>
    obtain ⟨hnew, hdistinct⟩ := ih
    refine ⟨fun key hmem => ?_, fun hmem => ?_, hdistinct⟩
    · rcases List.mem_cons.mp hmem with rfl | hmem
      · exact hfresh
      · exact fun hin => hnew key hmem (List.mem_cons_of_mem _ hin)
    · obtain ⟨key', hkey', heq⟩ := List.mem_map.mp hmem
      exact hnew key' hkey' (heq ▸ List.mem_cons_self)
  | object hskip hkey hfresh hentries hskip' hdepth hvalue hothers ih₁ ih₂ =>
    obtain ⟨hnew, hdistinct⟩ := ih₂
    refine ⟨fun key hmem => ?_, fun hmem => ?_, ih₁.2, hdistinct⟩
    · rcases List.mem_cons.mp hmem with rfl | hmem
      · exact hfresh
      · exact fun hin => hnew key hmem (List.mem_cons_of_mem _ hin)
    · obtain ⟨key', hkey', heq⟩ := List.mem_map.mp hmem
      exact hnew key' hkey' (heq ▸ List.mem_cons_self)

theorem Parses.depth_le (h : Parses casefold top depth keys entries text tree entries' rest) :
    depth ≤ maxKeyvaluesDepth → depth + tree.depth ≤ maxKeyvaluesDepth := by
  induction h with
  | finished hskip => exact fun hle => hle
  | closed hskip => exact fun hle => hle
  | text hskip hkey hfresh hentries hskip' hvalue hothers ih => exact ih
  | object hskip hkey hfresh hentries hskip' hdepth hvalue hothers ih₁ ih₂ =>
    intro hle
    have h₁ := ih₁ hdepth
    have h₂ := ih₂ hle
    rw [KeyValuesObject.depth]
    omega

theorem Parses.entries_eq (h : Parses casefold top depth keys entries text tree entries' rest) :
    entries' = entries + tree.entryCount ∧
      (entries ≤ maxKeyvaluesEntries → entries' ≤ maxKeyvaluesEntries) := by
  induction h with
  | finished hskip => exact ⟨rfl, fun hle => hle⟩
  | closed hskip => exact ⟨rfl, fun hle => hle⟩
  | text hskip hkey hfresh hentries hskip' hvalue hothers ih =>
    refine ⟨?_, fun _ => ih.2 hentries⟩
    rw [ih.1, KeyValuesObject.entryCount]
    omega
  | object hskip hkey hfresh hentries hskip' hdepth hvalue hothers ih₁ ih₂ =>
    refine ⟨?_, fun _ => ih₂.2 (ih₁.2 hentries)⟩
    rw [ih₂.1, ih₁.1, KeyValuesObject.entryCount]
    omega

end Accepted

/-- What may follow the entries of an object. -/
inductive Ends : Bool → List Char → List Char → Prop
  | text {tail : List Char} (hskip : skipSpaceAndComments tail = []) : Ends true tail []
  | brace {tail rest : List Char} (hskip : skipSpaceAndComments tail = '}' :: rest) :
      Ends false tail rest

theorem quoted_append (value t : List Char) :
    quoted value ++ t = '"' :: (value.flatMap escape ++ '"' :: t) := by
  simp [quoted]

/-- A rendered object is parsed. -/
theorem Renders.parses {tree : KeyValuesObject} {r : List Char} (h : Renders tree r) :
    ∀ {top : Bool} {depth entries : Nat} {keys : List (List Char)} {tail rest : List Char},
    Ends top tail rest → tree.Distinct casefold → (∀ key ∈ tree.keys, casefold key ∉ keys) →
    depth + tree.depth ≤ maxKeyvaluesDepth → entries + tree.entryCount ≤ maxKeyvaluesEntries →
    tree.stringLength ≤ maxKeyvaluesString →
    Parses casefold top depth keys entries (r ++ tail) tree (entries + tree.entryCount) rest := by
  induction h with
  | empty =>
    intro top depth entries keys tail rest hends _ _ _ _ _
    cases hends with
    | text hskip => exact .finished hskip
    | brace hskip => exact .closed hskip
  | @text key value g g' r others hg hg' hothers ih =>
    intro top depth entries keys tail rest hends hdistinct hnew hdepth hentries hstrings
    rw [KeyValuesObject.entryCount] at hentries ⊢
    rw [KeyValuesObject.stringLength] at hstrings
    have hfresh := hnew key List.mem_cons_self
    have hrest : Parses casefold top depth (casefold key :: keys) (entries + 1) (r ++ tail) others
        (entries + 1 + others.entryCount) rest :=
      ih hends hdistinct.2 (fun key' hkey' hmem => ?_) hdepth (by omega) (by omega)
    · rw [show entries + 1 + others.entryCount = entries + (others.entryCount + 1) by omega] at hrest
      refine .text ?_
        (readString_quoted key (g' ++ (quoted value ++ (r ++ tail))) (by omega)) hfresh (by omega)
        ?_ (readString_quoted value (r ++ tail) (by omega)) hrest
      · rw [List.append_assoc, List.append_assoc, List.append_assoc, List.append_assoc, hg.skip,
          quoted_append, skip_quote]
      · rw [hg'.skip, quoted_append, skip_quote]
    · rcases List.mem_cons.mp hmem with heq | hmem
      · exact hdistinct.1 (heq ▸ List.mem_map_of_mem hkey')
      · exact hnew key' (List.mem_cons_of_mem _ hkey') hmem
  | @object key g g' g'' v r value others hg hg' hvalue hg'' hothers ih₁ ih₂ =>
    intro top depth entries keys tail rest hends hdistinct hnew hdepth hentries hstrings
    rw [KeyValuesObject.entryCount] at hentries ⊢
    rw [KeyValuesObject.stringLength] at hstrings
    rw [KeyValuesObject.depth] at hdepth
    have hfresh := hnew key List.mem_cons_self
    have hinner : Parses casefold false (depth + 1) [] (entries + 1)
        (v ++ (g'' ++ '}' :: (r ++ tail))) value (entries + 1 + value.entryCount) (r ++ tail) :=
      ih₁ (.brace (by rw [hg''.skip, skip_close])) hdistinct.2.1 (by simp) (by omega) (by omega)
        (by omega)
    have hrest : Parses casefold top depth (casefold key :: keys) (entries + 1 + value.entryCount)
        (r ++ tail) others (entries + 1 + value.entryCount + others.entryCount) rest :=
      ih₂ hends hdistinct.2.2 (fun key' hkey' hmem => ?_) (by omega) (by omega) (by omega)
    · rw [show entries + 1 + value.entryCount + others.entryCount
        = entries + (value.entryCount + others.entryCount + 1) by omega] at hrest
      refine .object ?_
        (readString_quoted key (g' ++ '{' :: (v ++ (g'' ++ '}' :: (r ++ tail)))) (by omega)) hfresh
        (by omega) ?_ (by omega) hinner hrest
      · simp only [List.append_assoc, List.cons_append]
        rw [hg.skip, quoted_append, skip_quote]
      · rw [hg'.skip, skip_open]
    · rcases List.mem_cons.mp hmem with heq | hmem
      · exact hdistinct.1 (heq ▸ List.mem_map_of_mem hkey')
      · exact hnew key' (List.mem_cons_of_mem _ hkey') hmem

/-! ## The fuel -/

theorem length_skipGap_le (comment : Bool) (text : List Char) :
    (skipGap comment text).length ≤ text.length := by
  induction text generalizing comment with
  | nil => cases comment <;> exact Nat.le_refl _
  | cons c rest ih =>
    cases comment with
    | true => exact Nat.le_trans (ih _) (Nat.le_succ _)
    | false =>
      rw [skipGap_cons]
      by_cases hspace : isSpace c = true
      · rw [if_pos hspace]
        exact Nat.le_trans (ih _) (Nat.le_succ _)
      · rw [if_neg hspace]
        by_cases hslash : c = '/' ∧ rest.head? = some '/'
        · rw [if_pos hslash]
          exact Nat.le_trans (ih _) (Nat.le_succ _)
        · exact Nat.le_of_eq (congrArg List.length (if_neg hslash))

theorem length_of_skip {text rest : List Char} {c : Char}
    (h : skipSpaceAndComments text = c :: rest) : rest.length < text.length := by
  have hle := length_skipGap_le false text
  rw [show skipGap false text = c :: rest from h, List.length_cons] at hle
  omega

/-- The ways a string is read: one rule for each character. -/
inductive ReadsString : Nat → List Char → List Char → List Char → Prop
  | closed {count : Nat} {rest : List Char} : ReadsString count ('"' :: rest) [] rest
  | escaped {count : Nat} {c : Char} {text value rest : List Char}
      (h : ReadsString (count + 1) text value rest) :
      ReadsString count ('\\' :: c :: text) (unescape c :: value) rest
  | plain {count : Nat} {c : Char} {text value rest : List Char} (hquote : c ≠ '"')
      (hslash : c ≠ '\\') (hcount : count + 1 ≤ maxKeyvaluesString)
      (h : ReadsString (count + 1) text value rest) :
      ReadsString count (c :: text) (c :: value) rest

theorem readsString_of_readString (fuel : Nat) : ∀ {count : Nat} {text value rest : List Char},
    text.length ≤ fuel → readString count text = .ok (value, rest) →
    ReadsString count text value rest := by
  induction fuel with
  | zero =>
    intro count text value rest hlength h
    obtain rfl := List.length_eq_zero_iff.mp (Nat.le_zero.mp hlength)
    cases h
  | succ fuel ih =>
    intro count text value rest hlength h
    cases text with
    | nil => cases h
    | cons c text =>
      rw [List.length_cons] at hlength
      by_cases hquote : c = '"'
      · subst hquote
        rw [readString] at h
        cases h
        exact .closed
      · by_cases hslash : c = '\\'
        · subst hslash
          cases text with
          | nil => cases h
          | cons c text =>
            rw [List.length_cons] at hlength
            rw [readString_escaped] at h
            cases hread : readString (count + 1) text with
            | error x =>
              rw [hread] at h
              cases h
            | ok parsed =>
              rw [hread] at h
              cases h
              exact .escaped (ih (by omega) hread)
        · rw [readString_plain hquote hslash] at h
          split at h
          · cases h
          · rename_i hcount
            cases hread : readString (count + 1) text with
            | error x =>
              rw [hread] at h
              cases h
            | ok parsed =>
              rw [hread] at h
              cases h
              exact .plain hquote hslash (by omega) (ih (by omega) hread)

theorem ReadsString.length_lt {count : Nat} {text value rest : List Char}
    (h : ReadsString count text value rest) : rest.length < text.length := by
  induction h with
  | closed => exact Nat.lt_succ_self _
  | escaped h ih =>
    rw [List.length_cons, List.length_cons]
    omega
  | plain hquote hslash hcount h ih =>
    rw [List.length_cons]
    omega

theorem readsString {count : Nat} {text value rest : List Char}
    (h : readString count text = .ok (value, rest)) : ReadsString count text value rest :=
  readsString_of_readString text.length (Nat.le_refl _) h

/-- Each entry takes some of the text. -/
theorem Parses.length_le {top : Bool} {depth entries entries' : Nat} {keys : List (List Char)}
    {text rest : List Char} {tree : KeyValuesObject}
    (h : Parses casefold top depth keys entries text tree entries' rest) :
    tree.entryCount + rest.length ≤ text.length := by
  induction h with
  | finished hskip =>
    rw [KeyValuesObject.entryCount, List.length_nil]
    omega
  | closed hskip =>
    have h₁ := length_of_skip hskip
    rw [KeyValuesObject.entryCount]
    omega
  | text hskip hkey hfresh hentries hskip' hvalue hothers ih =>
    have h₁ := length_of_skip hskip
    have h₂ := (readsString hkey).length_lt
    have h₃ := length_of_skip hskip'
    have h₄ := (readsString hvalue).length_lt
    rw [KeyValuesObject.entryCount]
    omega
  | object hskip hkey hfresh hentries hskip' hdepth hvalue hothers ih₁ ih₂ =>
    have h₁ := length_of_skip hskip
    have h₂ := (readsString hkey).length_lt
    have h₃ := length_of_skip hskip'
    rw [KeyValuesObject.entryCount]
    omega

theorem readString_ne_outOfFuel (count : Nat) (text : List Char) :
    readString count text ≠ .error .outOfFuel := by
  fun_induction readString count text with
  | case1 => simp
  | case2 => simp
  | case3 => simp
  | case4 count escaped rest ih =>
    intro h
    rcases bind_eq_error.mp h with h | ⟨_, _, h⟩
    · exact ih h
    · cases h
  | case5 => simp
  | case6 count c rest h₁ h₂ h₃ h₄ ih =>
    intro h
    rcases bind_eq_error.mp h with h | ⟨_, _, h⟩
    · exact ih h
    · cases h

theorem parseString_ne_outOfFuel (text : List Char) :
    parseString text ≠ .error .outOfFuel := by
  unfold parseString
  split
  · exact readString_ne_outOfFuel 0 _
  · simp

/-- A string that was read is shorter than its text. -/
theorem length_parseString {text value rest : List Char}
    (h : parseString text = .ok (value, rest)) : rest.length < text.length := by
  obtain ⟨r, hskip, hread⟩ := parseString_eq_ok h
  exact Nat.lt_trans (readsString hread).length_lt (length_of_skip hskip)

/-- More fuel than the length of the text is enough. -/
theorem parseEntries_ne_outOfFuel (fuel : Nat) : ∀ {top : Bool} {depth entries : Nat}
    {keys : List (List Char)} {text : List Char}, text.length < fuel →
    parseEntries casefold fuel top depth keys entries text ≠ .error .outOfFuel := by
  induction fuel with
  | zero =>
    intro top depth entries keys text hlength
    omega
  | succ fuel ih =>
    intro top depth entries keys text hlength h
    rw [parseEntries] at h
    split at h
    · split at h <;> cases h
    · split at h <;> cases h
    · rename_i first r hclose hskip
      have hr := length_of_skip hskip
      rcases bind_eq_error.mp h with h | ⟨⟨key, rest₁⟩, hkey, h⟩
      · exact parseString_ne_outOfFuel _ h
      · dsimp only at h
        have hkeyLength := length_parseString hkey
        rw [List.length_cons] at hkeyLength
        split at h
        · cases h
        · split at h
          · cases h
          · split at h
            · cases h
            · rename_i r₂ hopen
              have hr₂ := length_of_skip hopen
              split at h
              · cases h
              · rcases bind_eq_error.mp h with h | ⟨⟨value, entries₁, rest₂⟩, hvalue, h⟩
                · exact ih (by omega) h
                · dsimp only at h
                  have hvalueLength := (parses_of_parseEntries fuel hvalue).length_le
                  rcases bind_eq_error.mp h with h | ⟨_, _, h⟩
                  · exact ih (by omega) h
                  · cases h
            · rename_i first' r₂ hopen hskip'
              have hr₂ := length_of_skip hskip'
              rcases bind_eq_error.mp h with h | ⟨⟨value, rest₂⟩, hvalue, h⟩
              · exact parseString_ne_outOfFuel _ h
              · dsimp only at h
                have hvalueLength := length_parseString hvalue
                rw [List.length_cons] at hvalueLength
                rcases bind_eq_error.mp h with h | ⟨_, _, h⟩
                · exact ih (by omega) h
                · cases h

/-- The parser never runs out of fuel. -/
theorem parseKeyvalues_ne_outOfFuel (casefold : List Char → List Char) (text : List Char) :
    parseKeyvalues casefold text ≠ .error .outOfFuel := by
  unfold parseKeyvalues
  cases hparse : parse casefold (stripMarks text) with
  | ok tree => exact nofun
  | error x =>
    cases x with
    | error message rest => exact nofun
    | outOfFuel =>
      rcases bind_eq_error.mp hparse with h | ⟨parsed, _, h⟩
      · exact absurd h (parseEntries_ne_outOfFuel _ (Nat.lt_succ_self _))
      · dsimp only at h
        split at h <;> cases h

/-! ## The length of strings -/

/-- Where a scan over a text is: between strings, in a comment, or in a string
after `count` characters, the next of which may be escaped. -/
inductive Scan where
  | gap
  | comment
  | string (count : Nat)
  | escape (count : Nat)

/-- Some quoted string of the text has a character right past the limit that is
written as an escape. -/
def pastLimitEscape : Scan → List Char → Bool
  | _, [] => false
  | .gap, c :: rest =>
    if c = '"' then pastLimitEscape (.string 0) rest
    else if c = '/' ∧ rest.head? = some '/' then pastLimitEscape .comment rest
    else pastLimitEscape .gap rest
  | .comment, c :: rest => pastLimitEscape (if c = '\n' then .gap else .comment) rest
  | .string count, c :: rest =>
    if c = '"' then pastLimitEscape .gap rest
    else if c = '\\' then pastLimitEscape (.escape count) rest
    else pastLimitEscape (.string (count + 1)) rest
  | .escape count, _ :: rest =>
    count == maxKeyvaluesString || pastLimitEscape (.string (count + 1)) rest

theorem pastLimitEscape_skipGap (comment : Bool) (text : List Char) :
    pastLimitEscape (if comment then .comment else .gap) text
      = pastLimitEscape .gap (skipGap comment text) := by
  induction text generalizing comment with
  | nil => cases comment <;> rfl
  | cons c rest ih =>
    cases comment with
    | true =>
      rw [if_pos rfl, pastLimitEscape, skipGap_comment_cons, ← ih]
      by_cases hc : c = '\n'
      · subst hc
        rfl
      · rw [if_neg hc, show (c != '\n') = true by simpa using hc, if_pos rfl]
    | false =>
      rw [if_neg (by simp), skipGap_cons]
      by_cases hspace : isSpace c = true
      · have hquote : c ≠ '"' := by
          rintro rfl
          exact absurd hspace (by decide)
        have hslash : ¬(c = '/' ∧ rest.head? = some '/') := by
          rintro ⟨rfl, -⟩
          exact absurd hspace (by decide)
        rw [if_pos hspace, pastLimitEscape, if_neg hquote, if_neg hslash]
        exact ih false
      · rw [if_neg hspace]
        by_cases hslash : c = '/' ∧ rest.head? = some '/'
        · have hquote : c ≠ '"' := by
            rw [hslash.1]
            decide
          rw [if_pos hslash, pastLimitEscape, if_neg hquote, if_pos hslash]
          exact ih true
        · rw [if_neg hslash]

theorem pastLimitEscape_skip (text : List Char) :
    pastLimitEscape .gap text = pastLimitEscape .gap (skipSpaceAndComments text) :=
  pastLimitEscape_skipGap false text

/-- A string is too long exactly when its first character past the limit is an
escape. -/
theorem ReadsString.pastLimitEscape_iff {count : Nat} {text value rest : List Char}
    (h : ReadsString count text value rest) :
    pastLimitEscape (.string count) text = true ↔
      (count ≤ maxKeyvaluesString ∧ maxKeyvaluesString < count + value.length) ∨
        pastLimitEscape .gap rest = true := by
  induction h with
  | closed =>
    rw [pastLimitEscape, if_pos rfl, List.length_nil]
    constructor
    · exact .inr
    · rintro (h | h)
      · omega
      · exact h
  | @escaped count c text value rest h ih =>
    rw [pastLimitEscape, if_neg (by decide), if_pos rfl, pastLimitEscape, Bool.or_eq_true, ih,
      beq_iff_eq, List.length_cons]
    constructor
    · rintro (h | h | h)
      · exact .inl (by omega)
      · exact .inl (by omega)
      · exact .inr h
    · rintro (h | h)
      · by_cases hcount : count = maxKeyvaluesString
        · exact .inl hcount
        · exact .inr (.inl (by omega))
      · exact .inr (.inr h)
  | @plain count c text value rest hquote hslash hcount h ih =>
    rw [pastLimitEscape, if_neg hquote, if_neg hslash, ih, List.length_cons]
    constructor
    · rintro (h | h)
      · exact .inl (by omega)
      · exact .inr h
    · rintro (h | h)
      · exact .inl (by omega)
      · exact .inr h

/-- A string from its opening quote. -/
theorem pastLimitEscape_quote {text r value rest : List Char}
    (hskip : skipSpaceAndComments text = '"' :: r) (hread : readString 0 r = .ok (value, rest)) :
    pastLimitEscape .gap text = true ↔
      maxKeyvaluesString < value.length ∨ pastLimitEscape .gap rest = true := by
  rw [pastLimitEscape_skip, hskip, pastLimitEscape, if_pos rfl,
    (readsString hread).pastLimitEscape_iff, Nat.zero_add]
  have hzero : 0 ≤ maxKeyvaluesString := Nat.zero_le _
  tauto

/-- A brace. -/
theorem pastLimitEscape_brace {text r : List Char} {c : Char}
    (hskip : skipSpaceAndComments text = c :: r) (hquote : c ≠ '"') (hslash : c ≠ '/') :
    pastLimitEscape .gap text = pastLimitEscape .gap r := by
  rw [pastLimitEscape_skip, hskip, pastLimitEscape, if_neg hquote, if_neg fun h => hslash h.1]

theorem lt_max_max_iff {n a b c : Nat} : n < max (max a b) c ↔ n < a ∨ n < b ∨ n < c := by
  omega

/-- An accepted tree has a string that is too long exactly when the text has an
escape past the limit. -/
theorem Parses.pastLimitEscape_iff {top : Bool} {depth entries entries' : Nat}
    {keys : List (List Char)} {text rest : List Char} {tree : KeyValuesObject}
    (h : Parses casefold top depth keys entries text tree entries' rest) :
    pastLimitEscape .gap text = true ↔
      maxKeyvaluesString < tree.stringLength ∨ pastLimitEscape .gap rest = true := by
  induction h with
  | finished hskip =>
    rw [pastLimitEscape_skip, hskip]
    simp [pastLimitEscape, KeyValuesObject.stringLength]
  | closed hskip =>
    rw [pastLimitEscape_brace hskip (by decide) (by decide)]
    simp [KeyValuesObject.stringLength]
  | text hskip hkey hfresh hentries hskip' hvalue hothers ih =>
    rw [pastLimitEscape_quote hskip hkey, pastLimitEscape_quote hskip' hvalue, ih,
      KeyValuesObject.stringLength, lt_max_max_iff, or_assoc, or_assoc]
  | object hskip hkey hfresh hentries hskip' hdepth hvalue hothers ih₁ ih₂ =>
    rw [pastLimitEscape_quote hskip hkey, pastLimitEscape_brace hskip' (by decide) (by decide),
      ih₁, ih₂, KeyValuesObject.stringLength, lt_max_max_iff, or_assoc, or_assoc]

/-! ## Decoding -/

theorem parse_eq_ok_iff {text : List Char} {tree : KeyValuesObject} :
    parse casefold text = .ok tree ↔
      ∃ entries, Parses casefold true 0 [] 0 text tree entries [] := by
  constructor
  · intro h
    obtain ⟨⟨tree', entries, rest⟩, hentries, h⟩ := bind_eq_ok.mp h
    have hparses := parses_of_parseEntries _ hentries
    dsimp only at h
    split at h
    · cases h
      exact ⟨entries, hparses.end_eq rfl ▸ hparses⟩
    · cases h
  · rintro ⟨entries, hparses⟩
    have hlength := hparses.length_le
    rw [List.length_nil] at hlength
    rw [parse, hparses.parseEntries (by omega)]
    rfl

theorem parseKeyvalues_eq_ok_iff {text : List Char} {tree : KeyValuesObject} :
    parseKeyvalues casefold text = .ok tree ↔
      ∃ entries, Parses casefold true 0 [] 0 (stripMarks text) tree entries [] := by
  rw [← parse_eq_ok_iff, parseKeyvalues]
  cases parse casefold (stripMarks text) with
  | ok tree' => exact ⟨fun h => by cases h; rfl, fun h => by cases h; rfl⟩
  | error x => exact ⟨nofun, nofun⟩

/-- An accepted tree keeps all limits but the one of strings, and that one
unless the text has an escape past the limit. -/
theorem withinLimits_iff {text : List Char} {tree : KeyValuesObject}
    (h : parseKeyvalues casefold text = .ok tree) :
    tree.WithinLimits casefold ↔ pastLimitEscape .gap (stripMarks text) = false := by
  obtain ⟨entries, hparses⟩ := parseKeyvalues_eq_ok_iff.mp h
  have hpast := hparses.pastLimitEscape_iff
  rw [show pastLimitEscape .gap [] = false from rfl, or_iff_left Bool.false_ne_true] at hpast
  rw [← Bool.not_eq_true, hpast, Nat.not_lt]
  refine ⟨fun hlimits => hlimits.strings, fun hstrings => ⟨hparses.distinct.2, ?_, ?_, hstrings⟩⟩
  · have hdepth := hparses.depth_le (Nat.zero_le _)
    omega
  · obtain ⟨heq, hle⟩ := hparses.entries_eq
    have hentries := hle (Nat.zero_le _)
    omega

/-- A rendered tree starts with no byte order mark. -/
theorem Renders.head_ne {tree : KeyValuesObject} {r : List Char} (h : Renders tree r)
    {gap : List Char} (hgap : FinalGap gap) : (r ++ gap).head? ≠ some '\uFEFF' := by
  have hstart : ∀ {g t : List Char}, Gap g → t.head? ≠ some '\uFEFF' →
      (g ++ t).head? ≠ some '\uFEFF' := by
    intro g t hg ht
    cases hg with
    | nil => exact ht
    | space hspace hg =>
      rintro heq
      cases heq
      exact absurd hspace (by decide)
    | comment hbody hg => simp
  cases h with
  | empty =>
    rw [List.nil_append]
    cases hgap with
    | closed hg =>
      have hnone := @hstart _ [] hg (by simp)
      rwa [List.append_nil] at hnone
    | comment hbody hg => exact hstart hg (by simp)
  | text hg hg' hothers =>
    simp only [List.append_assoc]
    exact hstart hg (by simp [quoted])
  | object hg hg' hvalue hg'' hothers =>
    simp only [List.append_assoc]
    exact hstart hg (by simp [quoted])

theorem stripMarks_of_head {t : List Char} (h : t.head? ≠ some '\uFEFF') : stripMarks t = t := by
  cases t with
  | nil => rfl
  | cons c t =>
    rw [stripMarks, List.dropWhile_cons_of_neg]
    simpa using h

/-- Every rendering of a tree within the limits is decoded to it. -/
theorem parseKeyvalues_document {tree : KeyValuesObject} {text : List Char}
    (hlimits : tree.WithinLimits casefold) (h : Document tree text) :
    parseKeyvalues casefold text = .ok tree := by
  obtain ⟨mark, r, gap, hmark, hrenders, hgap, rfl⟩ := h
  have hhead := hrenders.head_ne hgap
  have hstrip : stripMarks (mark ++ r ++ gap) = r ++ gap := by
    rw [List.append_assoc]
    rcases hmark with rfl | rfl
    · exact stripMarks_of_head hhead
    · rw [stripMarks, List.cons_append, List.dropWhile_cons_of_pos (by simp)]
      exact stripMarks_of_head hhead
  rw [parseKeyvalues_eq_ok_iff, hstrip]
  exact ⟨_, hrenders.parses (.text hgap.skip) hlimits.distinct (by simp)
    (by have := hlimits.depth; omega) (by have := hlimits.entries; omega) hlimits.strings⟩

/-- Rendered trees are decoded, and an accepted text has a tree within the
limits exactly when none of its strings has an escape right past the limit. -/
theorem keyvalues_decoding (casefold : List Char → List Char) :
    (∀ tree text, tree.WithinLimits casefold → Document tree text →
      parseKeyvalues casefold text = .ok tree) ∧
    ∀ text tree, parseKeyvalues casefold text = .ok tree →
      (tree.WithinLimits casefold ↔ pastLimitEscape .gap (stripMarks text) = false) :=
  ⟨fun _ _ => parseKeyvalues_document, fun _ _ => withinLimits_iff⟩

/-! ## Two texts -/

/-- A manifest with a comment, a byte order mark and an open comment at its end. -/
def shortTree : KeyValuesObject :=
  .object "AppState".toList (.text "appid".toList "10".toList .empty) .empty

def shortText : List Char :=
  "\uFEFF\"AppState\" // state\n\x7b\n\t\"appid\"\t\"10\"\n\x7d // end".toList

/-- The tree is within the limits. -/
theorem shortTree_withinLimits : shortTree.WithinLimits id where
  distinct := by simp [shortTree, KeyValuesObject.Distinct, KeyValuesObject.keys]
  depth := by decide
  entries := by decide
  strings := by decide +kernel

theorem keyvalues_decoding_short : parseKeyvalues id shortText = .ok shortTree ∧
    pastLimitEscape .gap (stripMarks shortText) = false := by
  have hspace : Gap [' '] := .space (by decide) .nil
  have hcomment : Gap (' ' :: '/' :: '/' :: (" state".toList ++ '\n' :: [])) :=
    .space (by decide) (.comment (by decide) .nil)
  have hline : Gap ['\n'] := .space (by decide) .nil
  have hindent : Gap ['\n', '\t'] := .space (by decide) (.space (by decide) .nil)
  have htab : Gap ['\t'] := .space (by decide) .nil
  have hdocument : Document shortTree shortText :=
    ⟨['\uFEFF'], _, _, .inr rfl, .object .nil hcomment (.text hindent htab .empty) hline .empty,
      .comment (show '\n' ∉ " end".toList by decide) hspace, by decide⟩
  have hparsed := (keyvalues_decoding id).1 _ _ shortTree_withinLimits hdocument
  exact ⟨hparsed, ((keyvalues_decoding id).2 _ _ hparsed).mp shortTree_withinLimits⟩

/-- A key whose characters are all written as escapes, one more than the limit. -/
def longKey : List Char :=
  List.replicate (maxKeyvaluesString + 1) 'a'

def longText : List Char :=
  '"' :: (longKey.flatMap (fun c => ['\\', c]) ++ '"' :: quoted ['x'])

theorem readString_escapes (n : Nat) (rest : List Char) : ∀ {count : Nat},
    readString count ((List.replicate n 'a').flatMap (fun c => ['\\', c]) ++ '"' :: rest)
      = .ok (List.replicate n 'a', rest) := by
  induction n with
  | zero =>
    intro count
    rw [List.replicate_zero, List.flatMap_nil, List.nil_append, readString]
  | succ n ih =>
    intro count
    rw [List.replicate_succ, List.flatMap_cons, List.append_assoc, List.cons_append,
      List.cons_append, List.nil_append, readString_escaped, ih]
    rfl

/-- The text is accepted, and its key is longer than the limit. -/
theorem keyvalues_string_too_long :
    parseKeyvalues id longText = .ok (.text longKey ['x'] .empty) ∧
      ¬(KeyValuesObject.text longKey ['x'] .empty).WithinLimits id := by
  have hmarks : stripMarks longText = longText := stripMarks_of_head (by simp [longText])
  have hlength : longKey.length = maxKeyvaluesString + 1 := List.length_replicate
  constructor
  · rw [parseKeyvalues_eq_ok_iff, hmarks]
    have hvalue : readString 0 (['x'].flatMap escape ++ '"' :: []) = .ok (['x'], []) :=
      readString_quoted ['x'] [] (by decide)
    exact ⟨1, .text (skip_quote _) (readString_escapes _ _) (by simp) (by decide)
      (skip_quote _) hvalue (.finished rfl)⟩
  · intro hlimits
    have hstrings := hlimits.strings
    rw [KeyValuesObject.stringLength, hlength] at hstrings
    omega

end SteamAgent.LocalSteam
