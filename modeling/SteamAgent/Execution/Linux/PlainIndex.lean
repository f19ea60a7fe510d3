import SteamAgent.Execution.Linux.Session
import SteamAgent.LocalSteam.Decoding

/-!
# Indexes that the pattern reads

The gate looks for `"path"`, white space and a quoted value anywhere in a
`libraryfolders.vdf`.  The index reader parses the text.  On a text that is written
plainly both find the same values.

There are four groups.

* `plainlyWritten`, the condition on a text.
* Gaps and strings of such a text.
* What the pattern finds from a string on.
* `Parses.found`: an accepted text, entry by entry.
-/

namespace SteamAgent.Execution.Linux

open LocalSteam
open Text (isSpace stripStart quotedField findAll)

/-! ## The condition -/

/-- Where a scan over a text is. -/
inductive Place where
  | gap
  | comment
  | string

/-- When a string stands behind the string `path`, there is only white space in between,
and it is not `path` again. -/
def spacedValue (text : List Char) : Bool :=
  match skipSpaceAndComments text with
  | '"' :: next => text.head?.any isSpace && text.dropWhile isSpace == '"' :: next &&
      (stripStart "path\"".toList next).isNone
  | _ => true

/-- From behind the opening quote of a string. -/
def pathSpaced (text : List Char) : Bool :=
  ((stripStart "path\"".toList text).map spacedValue).getD true

/-- A text without escapes and without quotation marks in comments, in which white space
stands between the key `path` and its value. -/
def plainlyWritten : Place → List Char → Bool
  | _, [] => true
  | .gap, c :: rest =>
    if c = '"' then pathSpaced rest && plainlyWritten .string rest
    else if c = '/' ∧ rest.head? = some '/' then plainlyWritten .comment rest
    else plainlyWritten .gap rest
  | .comment, c :: rest =>
    c != '"' && plainlyWritten (if c = '\n' then .gap else .comment) rest
  | .string, c :: rest =>
    if c = '"' then plainlyWritten .gap rest else c != '\\' && plainlyWritten .string rest

/-! ## Gaps and strings -/

theorem plainlyWritten_skipGap (comment : Bool) (text : List Char)
    (h : plainlyWritten (if comment then .comment else .gap) text = true) :
    ∃ g, text = g ++ skipGap comment text ∧ '"' ∉ g ∧
      plainlyWritten .gap (skipGap comment text) = true := by
  induction text generalizing comment with
  | nil => cases comment <;> exact ⟨[], rfl, List.not_mem_nil, rfl⟩
  | cons c rest ih =>
    cases comment with
    | true =>
      rw [if_pos rfl, plainlyWritten, Bool.and_eq_true, bne_iff_ne] at h
      obtain ⟨hquote, h⟩ := h
      have hnext : plainlyWritten (if (c != '\n') = true then .comment else .gap) rest = true := by
        by_cases hc : c = '\n'
        · simpa [hc] using h
        · simpa [hc] using h
      obtain ⟨g, hg, hmem, hplain⟩ := ih _ hnext
      rw [skipGap_comment_cons]
      refine ⟨c :: g, by rw [List.cons_append, ← hg], ?_, hplain⟩
      simp [hmem, Ne.symm hquote]
    | false =>
      have hplain := h
      rw [if_neg (by simp), plainlyWritten] at h
      rw [skipGap_cons]
      by_cases hspace : isSpace c = true
      · have hquote : c ≠ '"' := by
          rintro rfl
          exact absurd hspace (by decide)
        have hslash : ¬(c = '/' ∧ rest.head? = some '/') := by
          rintro ⟨rfl, -⟩
          exact absurd hspace (by decide)
        rw [if_neg hquote, if_neg hslash] at h
        rw [if_pos hspace]
        obtain ⟨g, hg, hmem, hplain⟩ := ih false h
        refine ⟨c :: g, by rw [List.cons_append, ← hg], ?_, hplain⟩
        simp [hmem, Ne.symm hquote]
      · rw [if_neg hspace]
        by_cases hslash : c = '/' ∧ rest.head? = some '/'
        · have hquote : c ≠ '"' := by
            rw [hslash.1]
            decide
          rw [if_neg hquote, if_pos hslash] at h
          rw [if_pos hslash]
          obtain ⟨g, hg, hmem, hplain⟩ := ih true h
          refine ⟨c :: g, by rw [List.cons_append, ← hg], ?_, hplain⟩
          simp [hmem, Ne.symm hquote]
        · rw [if_neg hslash]
          exact ⟨[], rfl, List.not_mem_nil, hplain⟩

/-- A gap has no quotation mark. -/
theorem plainlyWritten_skip {text : List Char} (h : plainlyWritten .gap text = true) :
    ∃ g, text = g ++ skipSpaceAndComments text ∧ '"' ∉ g ∧
      plainlyWritten .gap (skipSpaceAndComments text) = true :=
  plainlyWritten_skipGap false text h

/-- A string is written as it is read. -/
theorem plainlyWritten_string {count : Nat} {text value rest : List Char}
    (hread : ReadsString count text value rest) (h : plainlyWritten .string text = true) :
    text = value ++ '"' :: rest ∧ '"' ∉ value ∧ plainlyWritten .gap rest = true := by
  induction hread with
  | closed =>
    rw [plainlyWritten, if_pos rfl] at h
    exact ⟨rfl, List.not_mem_nil, h⟩
  | escaped _ _ =>
    rw [plainlyWritten, if_neg (by decide)] at h
    cases h
  | @plain count c text value rest hquote _ _ _ ih =>
    rw [plainlyWritten, if_neg hquote, Bool.and_eq_true] at h
    obtain ⟨rfl, hmem, hplain⟩ := ih h.2
    exact ⟨rfl, by simp [hmem, Ne.symm hquote], hplain⟩

/-! ## The pattern -/

/-- A string starts with a key and a quote when it is that key. -/
theorem stripStart_string {key s : List Char} (hkey : '"' ∉ key) (hs : '"' ∉ s) (t : List Char) :
    stripStart (key ++ ['"']) (s ++ '"' :: t) = if s = key then some t else none := by
  induction key generalizing s with
  | nil =>
    cases s with
    | nil => rfl
    | cons c s =>
      rw [List.nil_append, List.cons_append, stripStart, if_neg, if_neg (by simp)]
      intro heq
      exact hs (heq ▸ List.mem_cons_self)
  | cons k key ih =>
    rw [List.mem_cons, not_or] at hkey
    cases s with
    | nil =>
      rw [List.nil_append, List.cons_append, stripStart, if_neg (Ne.symm hkey.1),
        if_neg (by simp)]
    | cons c s =>
      rw [List.mem_cons, not_or] at hs
      rw [List.cons_append, List.cons_append, stripStart]
      by_cases hc : k = c
      · rw [if_pos hc, ih hkey.2 hs.2, hc]
        by_cases heq : s = key
        · rw [if_pos heq, if_pos (by rw [heq])]
        · rw [if_neg heq, if_neg fun h => heq (List.cons.inj h).2]
      · rw [if_neg hc, if_neg fun h => hc (List.cons.inj h).1.symm]

/-- The string of the key. -/
def pathKey : List Char :=
  "path".toList

theorem quote_not_mem_pathKey : '"' ∉ pathKey := by
  decide

/-- The pattern begins at a quotation mark. -/
theorem pathField_of_ne {c : Char} (hc : c ≠ '"') (rest : List Char) :
    pathField (c :: rest) = none := by
  have hstrip : stripStart ('"' :: "path".toList ++ ['"']) (c :: rest) = none :=
    if_neg (Ne.symm hc)
  rw [pathField, quotedField, hstrip]

theorem pathField_string {s : List Char} (hs : '"' ∉ s) (t : List Char) :
    stripStart ('"' :: "path".toList ++ ['"']) ('"' :: (s ++ '"' :: t)) =
      if s = pathKey then some t else none := by
  show (if '"' = '"' then stripStart (pathKey ++ ['"']) (s ++ '"' :: t) else none) = _
  rw [if_pos rfl, stripStart_string quote_not_mem_pathKey hs]

theorem pathField_other {s : List Char} (hs : '"' ∉ s) (hne : s ≠ pathKey) (t : List Char) :
    pathField ('"' :: (s ++ '"' :: t)) = none := by
  rw [pathField, quotedField, pathField_string hs, if_neg hne]

theorem drop_length_takeWhile (p : Char → Bool) (text : List Char) :
    text.drop (text.takeWhile p).length = text.dropWhile p :=
  (congrArg (List.drop _) List.takeWhile_append_dropWhile.symm).trans List.drop_left

/-- Without white space and a quotation mark behind the key there is no match. -/
theorem pathField_unspaced {t : List Char}
    (h : ∀ next, t.dropWhile isSpace = '"' :: next → t.head?.any isSpace = false) :
    pathField ('"' :: (pathKey ++ '"' :: t)) = none := by
  rw [pathField, quotedField, pathField_string quote_not_mem_pathKey, if_pos rfl]
  dsimp only
  rw [drop_length_takeWhile]
  split
  · rename_i head tail next hspace hdrop
    have hhead := h next hdrop
    cases t with
    | nil => cases hspace
    | cons c t =>
      rw [List.takeWhile_cons, if_neg (by simpa using hhead)] at hspace
      cases hspace
  · rfl

/-- The key, white space and a string. -/
theorem pathField_spaced {w v : List Char} (hw : w ≠ []) (hspace : ∀ c ∈ w, isSpace c = true)
    (hv : '"' ∉ v) (t : List Char) :
    pathField ('"' :: (pathKey ++ '"' :: (w ++ '"' :: (v ++ '"' :: t)))) =
      some ⟨'"' :: pathKey ++ ['"'] ++ w ++ ['"'], v⟩ := by
  have htake : (w ++ '"' :: (v ++ '"' :: t)).takeWhile isSpace = w := by
    rw [List.takeWhile_append_of_pos hspace, List.takeWhile_cons, if_neg (by decide),
      List.append_nil]
  have hvalue : (v ++ '"' :: t).takeWhile (· != '"') = v := by
    have hplain : ∀ c ∈ v, (c != '"') = true := fun c hc =>
      bne_iff_ne.mpr fun heq => hv (heq ▸ hc)
    rw [List.takeWhile_append_of_pos hplain, List.takeWhile_cons, if_neg (by decide),
      List.append_nil]
  obtain ⟨c, w', rfl⟩ := List.exists_cons_of_ne_nil hw
  rw [pathField, quotedField, pathField_string quote_not_mem_pathKey, if_pos rfl]
  dsimp only
  rw [htake, List.drop_left]
  simp only [hvalue, List.drop_left]
  rfl

theorem findAll_skip (pattern : List Char → Option Text.FieldMatch) (n : Nat) (text : List Char) :
    findAll pattern n text = findAll pattern 0 (text.drop n) := by
  induction text generalizing n with
  | nil => cases n <;> rfl
  | cons c rest ih =>
    cases n with
    | zero => rfl
    | succ n => exact ih n

theorem quotedPaths_of_none {c : Char} {rest : List Char} (h : pathField (c :: rest) = none) :
    quotedPaths (c :: rest) = quotedPaths rest := by
  rw [quotedPaths, findAll, h]
  rfl

/-- Nothing is found from a part without quotation marks. -/
theorem quotedPaths_append {g : List Char} (hg : '"' ∉ g) (t : List Char) :
    quotedPaths (g ++ t) = quotedPaths t := by
  induction g with
  | nil => rfl
  | cons c g ih =>
    rw [List.mem_cons, not_or] at hg
    rw [List.cons_append, quotedPaths_of_none (pathField_of_ne (Ne.symm hg.1) _), ih hg.2]

/-- No match begins at the end of a string. -/
theorem quotedPaths_closing {t : List Char} (ht : t.head? ≠ some 'p') :
    quotedPaths ('"' :: t) = quotedPaths t := by
  refine quotedPaths_of_none ?_
  have hstrip : stripStart ('"' :: "path".toList ++ ['"']) ('"' :: t) = none := by
    show (if '"' = '"' then stripStart (pathKey ++ ['"']) t else none) = none
    rw [if_pos rfl]
    cases t with
    | nil => rfl
    | cons c t =>
      have hc : 'p' ≠ c := fun heq => ht (heq ▸ rfl)
      exact if_neg hc
  rw [pathField, quotedField, hstrip]

/-- A string at which the pattern does not match is passed over. -/
theorem quotedPaths_string {s t : List Char} (hs : '"' ∉ s) (ht : t.head? ≠ some 'p')
    (h : pathField ('"' :: (s ++ '"' :: t)) = none) :
    quotedPaths ('"' :: (s ++ '"' :: t)) = quotedPaths t := by
  rw [quotedPaths_of_none h, quotedPaths_append hs, quotedPaths_closing ht]

/-- The value of the key is found. -/
theorem quotedPaths_spaced {w v : List Char} (hw : w ≠ []) (hspace : ∀ c ∈ w, isSpace c = true)
    (hv : '"' ∉ v) (t : List Char) :
    quotedPaths ('"' :: (pathKey ++ '"' :: (w ++ '"' :: (v ++ '"' :: t)))) =
      v :: quotedPaths t := by
  have hfield := pathField_spaced hw hspace hv t
  have htext : '"' :: (pathKey ++ '"' :: (w ++ '"' :: (v ++ '"' :: t))) =
      (('"' :: pathKey ++ ['"'] ++ w ++ ['"']) ++ v ++ ['"']) ++ t := by
    simp
  have hlength : (⟨'"' :: pathKey ++ ['"'] ++ w ++ ['"'], v⟩ : Text.FieldMatch).length =
      (('"' :: pathKey ++ ['"'] ++ w ++ ['"']) ++ v ++ ['"']).length := by
    simp only [Text.FieldMatch.length, List.length_append, List.length_cons, List.length_nil]
  rw [quotedPaths, findAll, hfield]
  dsimp only
  rw [findAll_skip, hlength]
  have hdrop : (pathKey ++ '"' :: (w ++ '"' :: (v ++ '"' :: t))).drop
      ((('"' :: pathKey ++ ['"'] ++ w ++ ['"']) ++ v ++ ['"']).length - 1) = t := by
    have hleft : ((('"' :: pathKey ++ ['"'] ++ w ++ ['"']) ++ v ++ ['"']) ++ t).drop
        ((('"' :: pathKey ++ ['"'] ++ w ++ ['"']) ++ v ++ ['"']).length) = t := List.drop_left
    rw [← htext] at hleft
    exact hleft
  rw [hdrop]
  rfl

/-! ## From a string on -/

theorem skip_of_dropWhile {t next : List Char} (h : t.dropWhile isSpace = '"' :: next) :
    skipSpaceAndComments t = '"' :: next := by
  induction t with
  | nil => cases h
  | cons c t ih =>
    rw [List.dropWhile_cons] at h
    rw [skipSpaceAndComments, skipGap_cons]
    by_cases hspace : isSpace c = true
    · rw [if_pos hspace] at h ⊢
      exact ih h
    · rw [if_neg hspace] at h ⊢
      cases h
      exact if_neg (by simp)

/-- What stands behind the string `path` when a string comes next. -/
theorem spaced_of_pathSpaced {t next : List Char}
    (h : pathSpaced (pathKey ++ '"' :: t) = true) (hskip : skipSpaceAndComments t = '"' :: next) :
    ∃ w, w ≠ [] ∧ (∀ c ∈ w, isSpace c = true) ∧ t = w ++ '"' :: next ∧
      stripStart (pathKey ++ ['"']) next = none := by
  have hstrip : stripStart "path\"".toList (pathKey ++ '"' :: t) = some t :=
    (stripStart_string quote_not_mem_pathKey quote_not_mem_pathKey t).trans (if_pos rfl)
  rw [pathSpaced, hstrip] at h
  have hspaced : spacedValue t = true := h
  rw [spacedValue, hskip] at hspaced
  simp only [Bool.and_eq_true, beq_iff_eq, Option.isNone_iff_eq_none] at hspaced
  obtain ⟨⟨hhead, hdrop⟩, hnext⟩ := hspaced
  refine ⟨t.takeWhile isSpace, ?_, fun c hc => ?_, ?_, hnext⟩
  · cases t with
    | nil => cases hhead
    | cons c t =>
      have hspace : isSpace c = true := hhead
      rw [List.takeWhile_cons, if_pos hspace]
      exact List.cons_ne_nil _ _
  · exact List.all_eq_true.mp List.all_takeWhile c hc
  · rw [← hdrop, List.takeWhile_append_dropWhile]

/-- What comes behind a string: no letter stands right behind it, nor behind the string
that comes next. -/
structure Follows (t : List Char) : Prop where
  plain : plainlyWritten .gap t = true
  head : t.head? ≠ some 'p'
  next : ∀ next, skipSpaceAndComments t = '"' :: next →
    ∃ s t', next = s ++ '"' :: t' ∧ '"' ∉ s ∧ t'.head? ≠ some 'p'

/-- What is found behind a string is found from the string on. -/
theorem quotedPaths_subset {s t : List Char} (hs : '"' ∉ s)
    (hspaced : pathSpaced (s ++ '"' :: t) = true) (h : Follows t) :
    quotedPaths t ⊆ quotedPaths ('"' :: (s ++ '"' :: t)) := by
  by_cases hkey : s = pathKey
  · subst hkey
    by_cases hnext : ∃ next, skipSpaceAndComments t = '"' :: next
    · obtain ⟨next, hskip⟩ := hnext
      obtain ⟨w, hw, hspace, rfl, hother⟩ := spaced_of_pathSpaced hspaced hskip
      obtain ⟨v, t', rfl, hv, ht'⟩ := h.next next hskip
      rw [stripStart_string quote_not_mem_pathKey hv] at hother
      have hne : v ≠ pathKey := by
        rintro rfl
        rw [if_pos rfl] at hother
        cases hother
      have hgap : '"' ∉ w := fun hmem => absurd (hspace _ hmem) (by decide)
      rw [quotedPaths_spaced hw hspace hv, quotedPaths_append hgap,
        quotedPaths_string hv ht' (pathField_other hv hne t')]
      exact List.subset_cons_self _ _
    · rw [quotedPaths_string hs h.head (pathField_unspaced fun next hdrop => ?_)]
      · exact List.Subset.refl _
      · exact absurd ⟨next, skip_of_dropWhile hdrop⟩ hnext
  · rw [quotedPaths_string hs h.head (pathField_other hs hkey t)]
    exact List.Subset.refl _

/-- The value of the key `path` is found. -/
theorem mem_quotedPaths {t v t' : List Char} (hv : '"' ∉ v)
    (hspaced : pathSpaced (pathKey ++ '"' :: t) = true)
    (hskip : skipSpaceAndComments t = '"' :: (v ++ '"' :: t')) :
    v ∈ quotedPaths ('"' :: (pathKey ++ '"' :: t)) := by
  obtain ⟨w, hw, hspace, rfl, -⟩ := spaced_of_pathSpaced hspaced hskip
  rw [quotedPaths_spaced hw hspace hv]
  exact List.mem_cons_self

/-! ## Accepted texts -/

/-- The texts at the key `path`, at any depth. -/
def pathTexts : KeyValuesObject → List (List Char)
  | .empty => []
  | .text key value others => (if key = pathKey then [value] else []) ++ pathTexts others
  | .object _ value others => pathTexts value ++ pathTexts others

theorem head_ne_of_skip {text rest : List Char} {c : Char} (hc : c ≠ 'p')
    (hskip : skipSpaceAndComments text = c :: rest) : text.head? ≠ some 'p' := by
  intro hhead
  cases text with
  | nil => cases hhead
  | cons d text =>
    cases hhead
    rw [skipSpaceAndComments, skipGap_cons, if_neg (by decide), if_neg (by simp)] at hskip
    exact hc (List.cons.inj hskip).1.symm

/-- A string may come next. -/
theorem Follows.of_string {t v t' : List Char} (hplain : plainlyWritten .gap t = true)
    (hskip : skipSpaceAndComments t = '"' :: (v ++ '"' :: t')) (hv : '"' ∉ v)
    (ht' : t'.head? ≠ some 'p') : Follows t := by
  refine ⟨hplain, head_ne_of_skip (by decide) hskip, fun next hnext => ?_⟩
  rw [hskip] at hnext
  cases hnext
  exact ⟨v, t', rfl, hv, ht'⟩

/-- A brace may come next. -/
theorem Follows.of_brace {t r : List Char} {c : Char} (hplain : plainlyWritten .gap t = true)
    (hskip : skipSpaceAndComments t = c :: r) (hquote : c ≠ '"') (hletter : c ≠ 'p') :
    Follows t := by
  refine ⟨hplain, head_ne_of_skip hletter hskip, fun next hnext => ?_⟩
  rw [hskip] at hnext
  exact absurd (List.cons.inj hnext).1 hquote

/-- A string behind a gap, as it is written. -/
theorem plainlyWritten_quote {text r value rest : List Char}
    (h : plainlyWritten .gap text = true) (hskip : skipSpaceAndComments text = '"' :: r)
    (hread : readString 0 r = .ok (value, rest)) :
    r = value ++ '"' :: rest ∧ '"' ∉ value ∧ plainlyWritten .gap rest = true ∧
      pathSpaced r = true ∧ quotedPaths text = quotedPaths ('"' :: (value ++ '"' :: rest)) := by
  obtain ⟨g, htext, hgap, hplain⟩ := plainlyWritten_skip h
  rw [hskip] at htext hplain
  rw [plainlyWritten, if_pos rfl, Bool.and_eq_true] at hplain
  obtain ⟨hvalue, hmem, hrest⟩ := plainlyWritten_string (readsString hread) hplain.2
  refine ⟨hvalue, hmem, hrest, hplain.1, ?_⟩
  rw [htext, quotedPaths_append hgap, hvalue]

/-- A brace behind a gap. -/
theorem plainlyWritten_brace {text r : List Char} {c : Char} (h : plainlyWritten .gap text = true)
    (hskip : skipSpaceAndComments text = c :: r) (hquote : c ≠ '"') (hslash : c ≠ '/') :
    plainlyWritten .gap r = true ∧ quotedPaths text = quotedPaths r := by
  obtain ⟨g, htext, hgap, hplain⟩ := plainlyWritten_skip h
  rw [hskip] at htext hplain
  rw [plainlyWritten, if_neg hquote, if_neg fun hcomment => hslash hcomment.1] at hplain
  refine ⟨hplain, ?_⟩
  have hbrace : '"' ∉ g ++ [c] := by
    simp [hgap, Ne.symm hquote]
  rw [htext, List.append_cons, quotedPaths_append hbrace]

section Accepted

variable {casefold : List Char → List Char} {top : Bool} {depth entries entries' : Nat}
  {keys : List (List Char)} {text rest : List Char} {tree : KeyValuesObject}

/-- Entries may come next. -/
theorem follows_of_parses (h : Parses casefold top depth keys entries text tree entries' rest)
    (hplain : plainlyWritten .gap text = true) : Follows text := by
  cases h with
  | finished hskip =>
    refine ⟨hplain, fun hhead => ?_, fun next hnext => ?_⟩
    · obtain ⟨text, rfl⟩ := List.head?_eq_some_iff.mp hhead
      rw [skipSpaceAndComments, skipGap_cons, if_neg (by decide), if_neg (by simp)] at hskip
      cases hskip
    · rw [hskip] at hnext
      cases hnext
  | closed hskip => exact .of_brace hplain hskip (by decide) (by decide)
  | text hskip hkey _ _ hskip' =>
    obtain ⟨rfl, hmem, -⟩ := plainlyWritten_quote hplain hskip hkey
    exact .of_string hplain hskip hmem (head_ne_of_skip (by decide) hskip')
  | object hskip hkey _ _ hskip' =>
    obtain ⟨rfl, hmem, -⟩ := plainlyWritten_quote hplain hskip hkey
    exact .of_string hplain hskip hmem (head_ne_of_skip (by decide) hskip')

/-- The pattern finds the texts at the key `path` of an accepted text, and what it finds in
the rest. -/
theorem found_of_parses (h : Parses casefold top depth keys entries text tree entries' rest)
    (hplain : plainlyWritten .gap text = true) :
    plainlyWritten .gap rest = true ∧ pathTexts tree ⊆ quotedPaths text ∧
      quotedPaths rest ⊆ quotedPaths text := by
  induction h with
  | finished hskip => exact ⟨rfl, List.nil_subset _, List.nil_subset _⟩
  | closed hskip =>
    obtain ⟨hrest, hfound⟩ := plainlyWritten_brace hplain hskip (by decide) (by decide)
    rw [hfound]
    exact ⟨hrest, List.nil_subset _, List.Subset.refl _⟩
  | @text top depth entries entries' keys text r key restKey r' value restValue rest others hskip
      hkey hfresh hentries hskip' hvalue hothers ih =>
    obtain ⟨rfl, hkeyMem, hplainKey, hspaced, hfoundKey⟩ :=
      plainlyWritten_quote hplain hskip hkey
    obtain ⟨rfl, hvalueMem, hplainValue, hspacedValue, hfoundValue⟩ :=
      plainlyWritten_quote hplainKey hskip' hvalue
    have hfollowsValue : Follows restValue := follows_of_parses hothers hplainValue
    have hfollowsKey : Follows restKey :=
      .of_string hplainKey hskip' hvalueMem hfollowsValue.head
    have hafterValue : quotedPaths restValue ⊆ quotedPaths restKey := by
      rw [hfoundValue]
      exact quotedPaths_subset hvalueMem hspacedValue hfollowsValue
    have hafterKey : quotedPaths restKey ⊆ quotedPaths text := by
      rw [hfoundKey]
      exact quotedPaths_subset hkeyMem hspaced hfollowsKey
    obtain ⟨hplainRest, hothersFound, hrestFound⟩ := ih hplainValue
    have hafter := List.Subset.trans hafterValue hafterKey
    refine ⟨hplainRest, ?_, List.Subset.trans hrestFound hafter⟩
    intro path hpath
    rw [pathTexts, List.mem_append] at hpath
    rcases hpath with hpath | hpath
    · by_cases hpathKey : key = pathKey
      · rw [if_pos hpathKey, List.mem_singleton] at hpath
        subst hpathKey hpath
        rw [hfoundKey]
        exact mem_quotedPaths hvalueMem hspaced hskip'
      · rw [if_neg hpathKey] at hpath
        cases hpath
    · exact hafter (hothersFound hpath)
  | @object top depth entries entries' entries'' keys text r key restKey r' restValue rest value
      others hskip hkey hfresh hentries hskip' hdepth hvalue hothers ih₁ ih₂ =>
    obtain ⟨rfl, hkeyMem, hplainKey, hspaced, hfoundKey⟩ :=
      plainlyWritten_quote hplain hskip hkey
    obtain ⟨hplainInner, hfoundInner⟩ :=
      plainlyWritten_brace hplainKey hskip' (by decide) (by decide)
    have hfollowsKey : Follows restKey := .of_brace hplainKey hskip' (by decide) (by decide)
    have hinner : quotedPaths r' ⊆ quotedPaths text := by
      rw [hfoundKey, ← hfoundInner]
      exact quotedPaths_subset hkeyMem hspaced hfollowsKey
    obtain ⟨hplainValue, hvalueFound, hvalueRest⟩ := ih₁ hplainInner
    obtain ⟨hplainRest, hothersFound, hrestFound⟩ := ih₂ hplainValue
    have hafter := List.Subset.trans hvalueRest hinner
    exact ⟨hplainRest, List.append_subset.mpr ⟨List.Subset.trans hvalueFound hinner,
      List.Subset.trans hothersFound hafter⟩, List.Subset.trans hrestFound hafter⟩

end Accepted

/-! ## The declared paths -/

theorem pathTexts_of_mem {tree : KeyValuesObject} {item : List Char × Value}
    (h : item ∈ tree.items) :
    (∀ path, item = (pathKey, .text path) → path ∈ pathTexts tree) ∧
      ∀ value, item.2 = .object value → pathTexts value ⊆ pathTexts tree := by
  induction tree with
  | empty => cases h
  | text key value others ih =>
    rw [KeyValuesObject.items] at h
    rw [pathTexts]
    rcases List.mem_cons.mp h with rfl | h
    · refine ⟨fun path heq => ?_, nofun⟩
      cases heq
      rw [if_pos rfl]
      exact List.mem_cons_self
    · obtain ⟨htext, hobject⟩ := ih h
      exact ⟨fun path heq => List.mem_append_right _ (htext path heq),
        fun value heq => List.Subset.trans (hobject value heq) (List.subset_append_right _ _)⟩
  | object key value others _ ih =>
    rw [KeyValuesObject.items] at h
    rw [pathTexts]
    rcases List.mem_cons.mp h with rfl | h
    · refine ⟨nofun, fun value heq => ?_⟩
      cases heq
      exact List.subset_append_left _ _
    · obtain ⟨htext, hobject⟩ := ih h
      exact ⟨fun path heq => List.mem_append_right _ (htext path heq),
        fun value heq => List.Subset.trans (hobject value heq) (List.subset_append_right _ _)⟩

theorem mem_of_mapM_eq_some {α β : Type} {f : α → Option β} {values : List α} {results : List β}
    (h : values.mapM f = some results) : ∀ b ∈ results, ∃ a ∈ values, f a = some b := by
  induction values generalizing results with
  | nil =>
    cases h
    exact nofun
  | cons a values ih =>
    rw [List.mapM_cons] at h
    obtain ⟨b, hb, h⟩ := Option.bind_eq_some_iff.mp h
    obtain ⟨rest, hrest, h⟩ := Option.bind_eq_some_iff.mp h
    cases h
    intro b' hb'
    rcases List.mem_cons.mp hb' with rfl | hb'
    · exact ⟨a, List.mem_cons_self, hb⟩
    · obtain ⟨a', ha', heq⟩ := ih hrest b' hb'
      exact ⟨a', List.mem_cons_of_mem _ ha', heq⟩

/-- The path of a library stands at the key `path` of its entry. -/
theorem libraryPath_eq_some {entry : Value} {path : List Char} (h : libraryPath entry = some path) :
    ∃ values, entry = .object values ∧ (pathKey, .text path) ∈ values.items := by
  cases entry with
  | text value => cases h
  | object values =>
    refine ⟨values, rfl, ?_⟩
    rw [libraryPath] at h
    cases hget : values.get "path" with
    | none =>
      rw [hget] at h
      cases h
    | some value =>
      rw [hget] at h
      cases value with
      | object value => cases h
      | text found =>
        dsimp only at h
        split at h
        · cases h
        · cases h
          obtain ⟨before, after, hitems, -⟩ := List.lookup_eq_some_iff.mp hget
          rw [hitems]
          exact List.mem_append_right _ List.mem_cons_self

/-- On a text that is written plainly the pattern finds each declared path. -/
theorem declaredPaths_subset {casefold : List Char → List Char} {text : List Char}
    {paths : List (List Char)} (h : declaredPaths casefold text = some paths)
    (hplain : plainlyWritten .gap (stripMarks text) = true) : paths ⊆ quotedPaths text := by
  rw [declaredPaths] at h
  cases hparse : parseKeyvalues casefold text with
  | error failure =>
    rw [hparse] at h
    cases h
  | ok tree =>
    rw [hparse] at h
    obtain ⟨folders, hfolders, hpaths⟩ := Option.bind_eq_some_iff.mp h
    obtain ⟨entries, hparses⟩ := parseKeyvalues_eq_ok_iff.mp hparse
    obtain ⟨-, hfound, -⟩ := found_of_parses hparses hplain
    have hmarks : quotedPaths (stripMarks text) = quotedPaths text := by
      have hgap : '"' ∉ text.takeWhile (· = '\uFEFF') := fun hmem => by
        have hmark := List.all_eq_true.mp List.all_takeWhile _ hmem
        exact absurd hmark (by decide)
      have happend := quotedPaths_append hgap (stripMarks text)
      rw [stripMarks, List.takeWhile_append_dropWhile] at happend
      exact happend.symm
    obtain ⟨value, hvalue, hfoldersValue⟩ := Option.bind_eq_some_iff.mp hfolders
    obtain ⟨item, hitem, rfl⟩ := Option.map_eq_some_iff.mp hvalue
    have hobject : item.2 = .object folders := by
      cases hcase : item.2 with
      | text value =>
        rw [hcase] at hfoldersValue
        cases hfoldersValue
      | object value =>
        rw [hcase] at hfoldersValue
        cases hfoldersValue
        rfl
    have hfoldersFound : pathTexts folders ⊆ pathTexts tree :=
      (pathTexts_of_mem (List.mem_of_find?_eq_some hitem)).2 folders hobject
    intro path hpath
    obtain ⟨entry, hentry, hentryPath⟩ := mem_of_mapM_eq_some hpaths path hpath
    obtain ⟨values, hvalues, hmem⟩ := libraryPath_eq_some hentryPath
    have hpathValues : path ∈ pathTexts values := (pathTexts_of_mem hmem).1 path rfl
    have hvaluesFound : pathTexts values ⊆ pathTexts folders :=
      (pathTexts_of_mem (List.mem_of_mem_filter hentry)).2 values hvalues
    rw [← hmarks]
    exact hfound (hfoldersFound (hvaluesFound hpathValues))

end SteamAgent.Execution.Linux
