import Mathlib.Data.List.TakeWhile
import SteamAgent.Execution.Receipts.Redaction

/-!
# What a redaction removes

There are five groups.

* Values: what the shared recursion keeps.
* The path pattern.
* The substitution of paths.
* The private items.
* Paths, and when a value is redacted.
-/

namespace SteamAgent.Execution

open Text

/-! ## Values -/

mutual

theorem strings_redactWith (f : List Char → List Char) (value : Payload) :
    (value.redactWith f).strings = (value.redactWith id).strings.map f := by
  cases value with
  | null => rfl
  | bool value => rfl
  | number text => rfl
  | str text => rfl
  | list items => exact strings_redactItems f items
  | dict fields => exact strings_redactFields f fields

theorem strings_redactItems (f : List Char → List Char) (items : List Payload) :
    stringsOfItems (redactItems f items) = (stringsOfItems (redactItems id items)).map f := by
  cases items with
  | nil => rfl
  | cons item items =>
    simp only [redactItems, stringsOfItems, List.map_append]
    rw [strings_redactWith f item, strings_redactItems f items]

theorem strings_redactFields (f : List Char → List Char) (fields : List (List Char × Payload)) :
    stringsOfFields (redactFields f fields) = (stringsOfFields (redactFields id fields)).map f := by
  cases fields with
  | nil => rfl
  | cons field fields =>
    rw [redactFields, redactFields]
    split
    · exact strings_redactFields f fields
    · simp only [stringsOfFields, List.map_append]
      rw [strings_redactWith f field.2, strings_redactFields f fields]

end

mutual

theorem keys_redactWith (f : List Char → List Char) (value : Payload) :
    (value.redactWith f).keys = (value.redactWith id).keys := by
  cases value with
  | null => rfl
  | bool value => rfl
  | number text => rfl
  | str text => rfl
  | list items => exact keys_redactItems f items
  | dict fields => exact keys_redactFields f fields

theorem keys_redactItems (f : List Char → List Char) (items : List Payload) :
    keysOfItems (redactItems f items) = keysOfItems (redactItems id items) := by
  cases items with
  | nil => rfl
  | cons item items =>
    simp only [redactItems, keysOfItems]
    rw [keys_redactWith f item, keys_redactItems f items]

theorem keys_redactFields (f : List Char → List Char) (fields : List (List Char × Payload)) :
    keysOfFields (redactFields f fields) = keysOfFields (redactFields id fields) := by
  cases fields with
  | nil => rfl
  | cons field fields =>
    rw [redactFields, redactFields]
    split
    · exact keys_redactFields f fields
    · simp only [keysOfFields]
      rw [keys_redactWith f field.2, keys_redactFields f fields]

end

mutual

/-- No mapping keeps a private key. -/
theorem not_private_of_mem_keys (f : List Char → List Char) (value : Payload) :
    ∀ key ∈ (value.redactWith f).keys, key ∉ privateKeys := by
  cases value with
  | null => exact fun key h => absurd h List.not_mem_nil
  | bool value => exact fun key h => absurd h List.not_mem_nil
  | number text => exact fun key h => absurd h List.not_mem_nil
  | str text => exact fun key h => absurd h List.not_mem_nil
  | list items => exact not_private_of_mem_keysOfItems f items
  | dict fields => exact not_private_of_mem_keysOfFields f fields

theorem not_private_of_mem_keysOfItems (f : List Char → List Char) (items : List Payload) :
    ∀ key ∈ keysOfItems (redactItems f items), key ∉ privateKeys := by
  cases items with
  | nil => exact fun key h => absurd h List.not_mem_nil
  | cons item items =>
    intro key h
    rcases List.mem_append.mp h with hitem | hitems
    · exact not_private_of_mem_keys f item key hitem
    · exact not_private_of_mem_keysOfItems f items key hitems

theorem not_private_of_mem_keysOfFields (f : List Char → List Char)
    (fields : List (List Char × Payload)) :
    ∀ key ∈ keysOfFields (redactFields f fields), key ∉ privateKeys := by
  cases fields with
  | nil => exact fun key h => absurd h List.not_mem_nil
  | cons field fields =>
    rw [redactFields]
    split
    next => exact not_private_of_mem_keysOfFields f fields
    next hkey =>
      intro key h
      rcases List.mem_cons.mp h with rfl | h
      · simpa using hkey
      · rcases List.mem_append.mp h with hitem | hitems
        · exact not_private_of_mem_keys f field.2 key hitem
        · exact not_private_of_mem_keysOfFields f fields key hitems

end

mutual

theorem redactWith_redactWith (f g : List Char → List Char) (value : Payload) :
    (value.redactWith g).redactWith f = value.redactWith fun text => f (g text) := by
  cases value with
  | null => rfl
  | bool value => rfl
  | number text => rfl
  | str text => rfl
  | list items => exact congrArg Payload.list (redactItems_redactItems f g items)
  | dict fields => exact congrArg Payload.dict (redactFields_redactFields f g fields)

theorem redactItems_redactItems (f g : List Char → List Char) (items : List Payload) :
    redactItems f (redactItems g items) = redactItems (fun text => f (g text)) items := by
  cases items with
  | nil => rfl
  | cons item items =>
    simp only [redactItems]
    rw [redactWith_redactWith f g item, redactItems_redactItems f g items]

theorem redactFields_redactFields (f g : List Char → List Char)
    (fields : List (List Char × Payload)) :
    redactFields f (redactFields g fields) = redactFields (fun text => f (g text)) fields := by
  cases fields with
  | nil => rfl
  | cons field fields =>
    rw [redactFields, redactFields]
    split
    next => exact redactFields_redactFields f g fields
    next hkey =>
      rw [redactFields, if_neg hkey, redactWith_redactWith f g field.2,
        redactFields_redactFields f g fields]

end

/-! ## The pattern -/

theorem isPathChar_of_isSlash {c : Char} (h : isSlash c = true) : isPathChar c = true := by
  rw [isSlash, Bool.or_eq_true, beq_iff_eq, beq_iff_eq] at h
  rcases h with rfl | rfl <;> decide

theorem isPathChar_of_isAlpha {c : Char} (h : c.isAlpha = true) : isPathChar c = true := by
  have hn : (65 ≤ c.toNat ∧ c.toNat ≤ 90) ∨ (97 ≤ c.toNat ∧ c.toNat ≤ 122) := by
    have hcases : (c.isUpper || c.isLower) = true := h
    rcases Bool.or_eq_true_iff.mp hcases with hupper | hlower
    · exact Or.inl (of_decide_eq_true hupper)
    · have hboth := Bool.and_eq_true_iff.mp hlower
      exact Or.inr ⟨of_decide_eq_true hboth.1, of_decide_eq_true hboth.2⟩
  have hspace : isSpace c = false := by
    simp only [isSpace, Bool.or_eq_false_iff, Bool.and_eq_false_iff, decide_eq_false_iff_not,
      beq_eq_false_iff_ne]
    omega
  have hquote : c ≠ '"' := by
    rintro rfl
    cases h
  have happos : c ≠ '\'' := by
    rintro rfl
    cases h
  simp [isPathChar, hspace, hquote, happos]

/-- A root: `/`, or a letter, a colon and a slash. -/
theorem afterRoot_eq_some {text rest : List Char} (h : afterRoot text = some rest) :
    text = '/' :: rest ∨ ∃ letter slash, letter.isAlpha = true ∧ isSlash slash = true ∧
      text = letter :: ':' :: slash :: rest := by
  rw [afterRoot.eq_def] at h
  split at h
  next rest' => exact Or.inl (congrArg _ (Option.some.inj h))
  next letter slash rest' _ =>
    split at h
    next hroot =>
      rw [Bool.and_eq_true] at hroot
      obtain rfl := Option.some.inj h
      exact Or.inr ⟨letter, slash, hroot.1, hroot.2, rfl⟩
    next => cases h
  next => cases h

theorem root_of_afterRoot {text rest : List Char} (h : afterRoot text = some rest) :
    ∃ root, text = root ++ rest ∧ root ≠ [] ∧ ∀ c ∈ root, isPathChar c = true := by
  rcases afterRoot_eq_some h with rfl | ⟨letter, slash, hletter, hslash, rfl⟩
  · exact ⟨['/'], rfl, List.cons_ne_nil _ _, List.all_eq_true.mp (by decide)⟩
  · refine ⟨[letter, ':', slash], rfl, List.cons_ne_nil _ _, ?_⟩
    intro c hc
    simp only [List.mem_cons, List.not_mem_nil, or_false] at hc
    rcases hc with rfl | rfl | rfl
    · exact isPathChar_of_isAlpha hletter
    · decide
    · exact isPathChar_of_isSlash hslash

theorem head?_dropWhile {f : Char → Bool} {text : List Char} :
    ∀ c ∈ (text.dropWhile f).head?, f c = false := by
  induction text with
  | nil => simp
  | cons d text ih =>
    rw [List.dropWhile_cons]
    split
    next => exact ih
    next hd => simpa using hd

/-- A match is a run of path characters that ends where the text or the run does. -/
theorem matchPath_eq_some {text : List Char} {n : Nat} (h : matchPath text = some n) :
    ∃ run rest, text = run ++ rest ∧ run.length = n ∧ 0 < n ∧
      (∀ c ∈ run, isPathChar c = true) ∧ ∀ c ∈ rest.head?, isPathChar c = false := by
  rw [matchPath] at h
  cases hroot : afterRoot text with
  | none => simp [hroot] at h
  | some rest =>
    obtain ⟨root, rfl, hne, hrun⟩ := root_of_afterRoot hroot
    rw [hroot] at h
    dsimp only at h
    split at h
    next =>
      have hn := Option.some.inj h
      rw [List.length_append] at hn
      refine ⟨root ++ rest.takeWhile isPathChar, rest.dropWhile isPathChar, ?_, ?_, ?_, ?_,
        head?_dropWhile⟩
      · rw [List.append_assoc, List.takeWhile_append_dropWhile]
      · rw [List.length_append]
        omega
      · have hpos := List.length_pos_of_ne_nil hne
        omega
      · intro c hc
        rcases List.mem_append.mp hc with hc | hc
        · exact hrun c hc
        · exact List.mem_takeWhile_imp hc
    next => cases h

theorem nested_matchPath : Nested matchPath := by
  intro text n h
  obtain ⟨run, rest, rfl, rfl, hpos, -, hend⟩ := matchPath_eq_some h
  refine ⟨hpos, ?_⟩
  intro j hj n' h'
  obtain ⟨run', rest', heq, rfl, -, hchars, -⟩ := matchPath_eq_some h'
  rw [List.drop_append_of_le_length (Nat.le_of_lt hj)] at heq
  by_contra hlong
  -- the second run would go on behind the end of the first
  obtain ⟨more, hmore⟩ : ∃ more, run' = run.drop j ++ more := by
    have hfront : run.drop j <+: run' := by
      apply List.prefix_of_prefix_length_le (List.prefix_append _ rest)
      · rw [heq]
        exact List.prefix_append run' rest'
      · rw [List.length_drop]
        omega
    obtain ⟨more, hmore⟩ := hfront
    exact ⟨more, hmore.symm⟩
  rw [hmore, List.append_assoc] at heq
  have hrest : rest = more ++ rest' := List.append_cancel_left heq
  cases more with
  | nil =>
    rw [hmore, List.append_nil, List.length_drop] at hlong
    omega
  | cons c more =>
    have hc : isPathChar c = true := hchars c (by rw [hmore]; simp)
    rw [hend c (by rw [hrest]; rfl)] at hc
    cases hc

/-! ## The substitution of paths -/

/-- No match begins in a mark. -/
theorem matchPath_mark (i : Nat) (hi : i < pathMark.length) (rest : List Char) :
    matchPath (pathMark.drop i ++ rest) = none := by
  have hroot : afterRoot (pathMark.drop i ++ rest) = none := by
    cases h : afterRoot (pathMark.drop i ++ rest) with
    | none => rfl
    | some after =>
      have hmark : pathMark = ['<', 'p', 'a', 't', 'h', '>'] := rfl
      rw [hmark] at hi h
      match i, hi with
      | 0, _ | 1, _ | 2, _ | 3, _ | 4, _ => cases h
      | 5, _ =>
        rcases afterRoot_eq_some h with heq | ⟨letter, slash, hletter, -, heq⟩
        · cases (List.cons.inj heq).1
        · rw [← (List.cons.inj heq).1] at hletter
          cases hletter
  rw [matchPath, hroot]

/-- A substitution leaves no character in front but the one that was there, unless
it puts a mark there. -/
theorem eq_cons_of_replaceAll {text rest : List Char} {c : Char}
    (h : replaceAll matchPath pathMark 0 text = c :: rest) (hc : c ≠ '<') :
    ∃ text', text = c :: text' ∧ rest = replaceAll matchPath pathMark 0 text' := by
  cases text with
  | nil => simp at h
  | cons d text =>
    cases hmatch : matchPath (d :: text) with
    | some n =>
      rw [replaceAll_some hmatch] at h
      exact absurd (List.cons.inj h).1.symm hc
    | none =>
      rw [replaceAll_none hmatch] at h
      obtain ⟨rfl, rfl⟩ := List.cons.inj h
      exact ⟨text, rfl, rfl⟩

theorem matchPath_of_not_isPathChar {c : Char} {rest : List Char} (h : isPathChar c = false) :
    matchPath (c :: rest) = none := by
  cases hmatch : matchPath (c :: rest) with
  | none => rfl
  | some n =>
    obtain ⟨run, rest', heq, hlength, hpos, hchars, -⟩ := matchPath_eq_some hmatch
    cases run with
    | nil => simp [← hlength] at hpos
    | cons d run =>
      rw [(List.cons.inj heq).1, hchars d List.mem_cons_self] at h
      cases h

/-- Behind a match the result goes on with no path character. -/
theorem takeWhile_after_match {c : Char} {rest : List Char} {n : Nat}
    (h : matchPath (c :: rest) = some n) :
    (replaceAll matchPath pathMark (n - 1) rest).takeWhile isPathChar = [] := by
  obtain ⟨run, rest', heq, rfl, hpos, -, hend⟩ := matchPath_eq_some h
  have hdrop : rest.drop (run.length - 1) = rest' := by
    have hwhole : (c :: rest).drop run.length = rest' := by rw [heq, List.drop_left]
    rwa [← Nat.sub_add_cancel hpos, List.drop_succ_cons] at hwhole
  rw [replaceAll_drop, hdrop]
  cases rest' with
  | nil => rfl
  | cons d rest' =>
    have hd : isPathChar d = false := hend d rfl
    rw [replaceAll_none (matchPath_of_not_isPathChar hd), List.takeWhile_cons_of_neg (by simp [hd])]

/-- A slash in the run at the front of the result is one in the run at the front of
the text. -/
theorem any_isSlash_of_replaceAll {k : Nat} {text : List Char}
    (h : (((replaceAll matchPath pathMark 0 text).takeWhile isPathChar).drop k).any isSlash = true) :
    ((text.takeWhile isPathChar).drop k).any isSlash = true := by
  induction text generalizing k with
  | nil => simp at h
  | cons c rest ih =>
    cases hmatch : matchPath (c :: rest) with
    | some n =>
      rw [replaceAll_some hmatch, List.takeWhile_append_of_pos (List.all_eq_true.mp (by decide)),
        takeWhile_after_match hmatch, List.append_nil, List.any_eq_true] at h
      obtain ⟨d, hd, hslash⟩ := h
      have hnone : ∀ d ∈ pathMark, isSlash d = false := by
        have hall : (pathMark.all fun d => !isSlash d) = true := by decide
        simpa using hall
      rw [hnone d (List.mem_of_mem_drop hd)] at hslash
      cases hslash
    | none =>
      rw [replaceAll_none hmatch] at h
      by_cases hc : isPathChar c = true
      · rw [List.takeWhile_cons_of_pos hc] at h ⊢
        cases k with
        | zero =>
          rw [List.drop_zero, List.any_cons, Bool.or_eq_true] at h ⊢
          exact h.imp id fun h => ih (k := 0) h
        | succ k => exact ih h
      · rw [List.takeWhile_cons_of_neg hc] at h
        simp at h

theorem matchPath_cons_replaceAll {c : Char} {rest : List Char} (h : matchPath (c :: rest) = none) :
    matchPath (c :: replaceAll matchPath pathMark 0 rest) = none := by
  -- a root in the result is one in the text, and so is a slash in the run behind it
  have hrun : ∀ after text,
      afterRoot (c :: replaceAll matchPath pathMark 0 rest) = some after →
      afterRoot (c :: rest) = some text → after = replaceAll matchPath pathMark 0 text →
      matchPath (c :: replaceAll matchPath pathMark 0 rest) = none := by
    rintro after text hafter htext rfl
    have hno : (((text.takeWhile isPathChar).drop 1).any isSlash) = false := by
      simpa [matchPath, htext] using h
    rw [matchPath, hafter]
    dsimp only
    rw [if_neg]
    intro hslash
    rw [any_isSlash_of_replaceAll hslash] at hno
    cases hno
  cases hafter : afterRoot (c :: replaceAll matchPath pathMark 0 rest) with
  | none => rw [matchPath, hafter]
  | some after =>
    rcases afterRoot_eq_some hafter with heq | ⟨letter, slash, hletter, hslash, heq⟩
    · obtain ⟨rfl, rfl⟩ := List.cons.inj heq
      exact hrun _ rest hafter rfl rfl
    · obtain ⟨hhead, htail⟩ := List.cons.inj heq
      obtain ⟨rest₁, rfl, hrest⟩ := eq_cons_of_replaceAll htail (by decide)
      have hne : slash ≠ '<' := by
        rintro rfl
        cases hslash
      obtain ⟨rest₂, rfl, hafter₂⟩ := eq_cons_of_replaceAll hrest.symm hne
      refine hrun _ rest₂ hafter ?_ hafter₂
      rw [hhead, afterRoot]
      · rw [if_pos (by rw [hletter, hslash]; rfl)]
      · rintro rfl
        cases hletter

/-- The result of a substitution has no match. -/
theorem matchPath_replaceAll (skip i : Nat) (text : List Char) :
    matchPath ((replaceAll matchPath pathMark skip text).drop i) = none := by
  induction text generalizing skip i with
  | nil =>
    rw [replaceAll_nil, List.drop_nil]
    rfl
  | cons c rest ih =>
    cases skip with
    | succ skip => exact ih skip i
    | zero =>
      cases hmatch : matchPath (c :: rest) with
      | some n =>
        rw [replaceAll_some hmatch]
        by_cases hi : i < pathMark.length
        · rw [List.drop_append_of_le_length (Nat.le_of_lt hi)]
          exact matchPath_mark i hi _
        · rw [List.drop_append, List.drop_eq_nil_of_le (Nat.le_of_not_lt hi), List.nil_append]
          exact ih (n - 1) _
      | none =>
        rw [replaceAll_none hmatch]
        cases i with
        | zero => exact matchPath_cons_replaceAll hmatch
        | succ i => exact ih 0 i

theorem redactText_redactText (text : List Char) : redactText (redactText text) = redactText text :=
  replaceAll_eq_self fun i => matchPath_replaceAll 0 i text

/-! ## Private items -/

variable {sameLetter : Char → Char → Bool}

/-- A private item cannot be read into a mark: none of its stretches agrees, but for
the case, with the end of a mark that it would begin in or the start of one that it
would end in. -/
def ItemApart (sameLetter : Char → Char → Bool) (item : List Char) : Prop :=
  ∀ mark ∈ [privateMark, pathMark],
    EndsApart (itemClasses sameLetter item) mark ∧ StartsApart (itemClasses sameLetter item) mark

theorem itemClasses_ne_nil {item : List Char} (h : item ≠ []) :
    itemClasses sameLetter item ≠ [] := by
  rw [itemClasses, Ne, List.map_eq_nil_iff]
  exact h

theorem Occurs.of_hideItems {item : List Char} {items : List (List Char)} {text : List Char}
    (hitem : item ≠ []) (hapart : ItemApart sameLetter item)
    (h : Occurs (itemClasses sameLetter item) (hideItems sameLetter items text)) :
    Occurs (itemClasses sameLetter item) text := by
  induction items generalizing text with
  | nil => exact h
  | cons other items ih =>
    have hmarks := hapart privateMark (by simp)
    have hother : Occurs (itemClasses sameLetter item) (hideItem sameLetter text other) := ih h
    rw [hideItem] at hother
    split at hother
    · exact hother
    · exact hother.of_replaceAll hmarks.1 hmarks.2 (itemClasses_ne_nil hitem)

/-- No private item is left. -/
theorem not_occurs_hideItems {item : List Char} {items : List (List Char)} {text : List Char}
    (hmem : item ∈ items) (hitem : item ≠ []) (hapart : ItemApart sameLetter item) :
    ¬Occurs (itemClasses sameLetter item) (hideItems sameLetter items text) := by
  induction items generalizing text with
  | nil => cases hmem
  | cons other items ih =>
    rcases List.mem_cons.mp hmem with rfl | hmem
    · intro h
      have hmarks := hapart privateMark (by simp)
      have hleft : Occurs (itemClasses sameLetter item) (hideItem sameLetter text item) :=
        Occurs.of_hideItems hitem hapart h
      rw [hideItem, if_neg hitem] at hleft
      refine not_occurs_replaceAll hmarks.1 hmarks.2 (itemClasses_ne_nil hitem) ?_ hleft
      intro rest hfits
      rw [if_pos hfits]
      exact Option.some_ne_none _
    · exact ih hmem

theorem hideItems_eq_self {items : List (List Char)} {text : List Char}
    (h : ∀ item ∈ items, item ≠ [] → ¬Occurs (itemClasses sameLetter item) text) :
    hideItems sameLetter items text = text := by
  induction items with
  | nil => rfl
  | cons item items ih =>
    have hfirst : hideItem sameLetter text item = text := by
      rw [hideItem]
      split
      next => rfl
      next hitem =>
        apply replaceAll_eq_self
        intro i
        rw [if_neg]
        intro hfits
        exact h item List.mem_cons_self hitem ⟨i, hfits⟩
    rw [hideItems, List.foldl_cons, hfirst]
    exact ih fun other hother => h other (List.mem_cons_of_mem _ hother)

/-- The substitutions of `_sanitize` change nothing the second time. -/
theorem sanitizeText_again {items : List (List Char)}
    (hitems : ∀ item ∈ items, item ≠ [] → ItemApart sameLetter item) (text : List Char) :
    redactText (hideItems sameLetter items (redactText (hideItems sameLetter items text))) =
      redactText (hideItems sameLetter items text) := by
  have hhidden : hideItems sameLetter items (redactText (hideItems sameLetter items text)) =
      redactText (hideItems sameLetter items text) := by
    apply hideItems_eq_self
    intro item hmem hitem h
    have hmarks := hitems item hmem hitem pathMark (by simp)
    apply not_occurs_hideItems hmem hitem (hitems item hmem hitem)
    exact h.of_replaceAll hmarks.1 hmarks.2 (itemClasses_ne_nil hitem)
  rw [hhidden, redactText_redactText]

/-! ## Paths -/

/-- The classes of a text that is taken as it is. -/
def exactly (path : List Char) : List (Char → Bool) :=
  path.map fun a b => a == b

theorem fits_exactly_iff {path text : List Char} : Fits (exactly path) text ↔ path <+: text := by
  induction path generalizing text with
  | nil => simp [exactly, Fits]
  | cons c path ih =>
    cases text with
    | nil => simp [exactly, Fits]
    | cons d text =>
      rw [List.cons_prefix_cons, ← ih]
      simp [exactly, Fits]

theorem occurs_exactly_iff {path text : List Char} :
    Occurs (exactly path) text ↔ path <:+: text := by
  rw [Occurs, List.infix_iff_prefix_suffix]
  constructor
  · rintro ⟨i, hfits⟩
    exact ⟨text.drop i, fits_exactly_iff.mp hfits, List.drop_suffix i text⟩
  · rintro ⟨rest, hfront, front, rfl⟩
    refine ⟨front.length, fits_exactly_iff.mpr ?_⟩
    rwa [List.drop_left]

/-- The front of an absolute path. -/
theorem AbsolutePath.front {path : List Char} (h : AbsolutePath path) :
    ∃ c rest, path = c :: rest ∧ (isSlash c = true ∨ ∃ rest', c.isAlpha = true ∧ rest = ':' :: rest') := by
  cases h with
  | @posix names hcount hnames =>
    cases names with
    | nil => simp at hcount
    | cons name names => exact ⟨'/', _, rfl, Or.inl rfl⟩
  | @drive letter names hletter hcount hnames => exact ⟨letter, _, rfl, Or.inr ⟨_, hletter, rfl⟩⟩
  | @unc slash names hslash hcount hnames => exact ⟨slash, _, rfl, Or.inl hslash⟩

/-- Every end of the mark begins with no slash, and with no letter before a colon. -/
theorem pathMark_tails {part : List Char} (h : part ∈ pathMark.tails) (hne : part ≠ []) :
    ∃ d more, part = d :: more ∧ isSlash d = false ∧
      (d.isAlpha = true → ∃ e more', more = e :: more' ∧ e ≠ ':') := by
  have htails : pathMark.tails = [['<', 'p', 'a', 't', 'h', '>'], ['p', 'a', 't', 'h', '>'],
      ['a', 't', 'h', '>'], ['t', 'h', '>'], ['h', '>'], ['>'], []] := rfl
  rw [htails] at h
  simp only [List.mem_cons, List.not_mem_nil, or_false] at h
  rcases h with rfl | rfl | rfl | rfl | rfl | rfl | rfl
  · exact ⟨'<', _, rfl, by decide, fun h => absurd h (by decide)⟩
  · exact ⟨'p', _, rfl, by decide, fun _ => ⟨'a', _, rfl, by decide⟩⟩
  · exact ⟨'a', _, rfl, by decide, fun _ => ⟨'t', _, rfl, by decide⟩⟩
  · exact ⟨'t', _, rfl, by decide, fun _ => ⟨'h', _, rfl, by decide⟩⟩
  · exact ⟨'h', _, rfl, by decide, fun _ => ⟨'>', _, rfl, by decide⟩⟩
  · exact ⟨'>', _, rfl, by decide, fun h => absurd h (by decide)⟩
  · exact absurd rfl hne

/-- An absolute path does not begin in a mark. -/
theorem AbsolutePath.startsApart {path : List Char} (h : AbsolutePath path) :
    StartsApart (exactly path) pathMark := by
  obtain ⟨c, rest, rfl, hfront⟩ := h.front
  intro part hpart hne hagrees
  obtain ⟨d, more, rfl, hslash, halpha⟩ := pathMark_tails hpart hne
  obtain ⟨hc, hrest⟩ := hagrees
  obtain rfl : c = d := by simpa using hc
  rcases hfront with hfront | ⟨rest', hfront, rfl⟩
  · rw [hslash] at hfront
    cases hfront
  · obtain ⟨e, more', rfl, he⟩ := halpha hfront
    have hcolon : ':' = e := by simpa using hrest.1
    exact he hcolon.symm

/-- No end of the path agrees with the start of the mark: a path with a component
such as `<path>` can be spelled by the mark. -/
def PathApart (path : List Char) : Prop :=
  EndsApart (exactly path) pathMark

/-- A path without `<`, such as every Windows path, is not spelled by the mark. -/
theorem pathApart_of_not_mem {path : List Char} (h : '<' ∉ path) : PathApart path := by
  intro fs hfs hne hagrees
  obtain ⟨front, hfront⟩ := (List.mem_tails _ _).mp hfs
  cases fs with
  | nil => exact hne rfl
  | cons f fs =>
    have hmem : f ∈ exactly path := by
      rw [← hfront]
      simp
    obtain ⟨c, hc, rfl⟩ := List.mem_map.mp hmem
    have hfirst : (c == '<') = true := hagrees.1
    have heq : c = '<' := by simpa using hfirst
    exact h (heq ▸ hc)

/-- No key that is kept has the path, and in every string that is kept, prepared like
this, each occurrence of the path overlaps a match of the pattern. -/
structure Covered (prepare : List Char → List Char) (value : Payload) (path : List Char) :
    Prop where
  keys : ∀ key ∈ (value.redactWith id).keys, ¬path <:+: key
  strings : ∀ text ∈ (value.redactWith id).strings, ∀ i, path <+: (prepare text).drop i →
    ∃ j n, matchPath ((prepare text).drop j) = some n ∧ j < i + path.length ∧ i < j + n

theorem infix_redactText_iff {path text : List Char} (hpath : AbsolutePath path)
    (hapart : PathApart path) :
    path <:+: redactText text ↔ ∃ i, path <+: text.drop i ∧
      ∀ j n, matchPath (text.drop j) = some n → j + n ≤ i ∨ i + path.length ≤ j := by
  have hne : exactly path ≠ [] := by
    obtain ⟨c, rest, rfl, -⟩ := hpath.front
    exact List.cons_ne_nil _ _
  have hlength : (exactly path).length = path.length := List.length_map _
  rw [← occurs_exactly_iff, redactText,
    occurs_replaceAll_iff nested_matchPath hapart hpath.startsApart hne]
  apply exists_congr
  intro i
  rw [Untouched, fits_exactly_iff, hlength]
  constructor
  · rintro ⟨-, hfront, h⟩
    exact ⟨hfront, fun j n => h j n (Nat.zero_le j)⟩
  · rintro ⟨hfront, h⟩
    exact ⟨Nat.zero_le i, hfront, fun j n _ => h j n⟩

/-- The path is gone from the value exactly when it is covered. -/
theorem not_pathOccurs_iff {prepare : List Char → List Char} {value : Payload} {path : List Char}
    (hpath : AbsolutePath path) (hapart : PathApart path) :
    ¬PathOccurs path (value.redactWith fun text => redactText (prepare text)) ↔
      Covered prepare value path := by
  rw [PathOccurs, strings_redactWith, keys_redactWith, not_or]
  constructor
  · rintro ⟨hstrings, hkeys⟩
    refine ⟨fun key hkey hinfix => hkeys ⟨key, hkey, hinfix⟩, ?_⟩
    intro text htext i hfront
    by_contra huncovered
    refine hstrings ⟨_, List.mem_map_of_mem htext, (infix_redactText_iff hpath hapart).mpr ?_⟩
    refine ⟨i, hfront, ?_⟩
    intro j n hmatch
    by_contra hoverlap
    rw [not_or, Nat.not_le, Nat.not_le] at hoverlap
    exact huncovered ⟨j, n, hmatch, hoverlap.2, hoverlap.1⟩
  · intro h
    constructor
    · rintro ⟨_, hmem, hinfix⟩
      obtain ⟨text, htext, rfl⟩ := List.mem_map.mp hmem
      obtain ⟨i, hfront, hfree⟩ := (infix_redactText_iff hpath hapart).mp hinfix
      obtain ⟨j, n, hmatch, hbefore, hafter⟩ := h.strings text htext i hfront
      rcases hfree j n hmatch with hend | hstart
      · omega
      · omega
    · rintro ⟨key, hkey, hinfix⟩
      exact h.keys key hkey hinfix

/-- A value is redacted for a path exactly when the path is covered: by `redact`, and by
`_sanitize` once the private items are hidden. -/
theorem redacts_iff (value : Payload) (path : List Char) (hpath : AbsolutePath path)
    (hapart : PathApart path) (sameLetter : Char → Char → Bool) (items : List (List Char))
    (hitems : ∀ item ∈ items, item ≠ [] → ItemApart sameLetter item) :
    (Redacts redact value path ↔ Covered id value path) ∧
      (Redacts (sanitize sameLetter items) value path ↔
        Covered (hideItems sameLetter items) value path) := by
  constructor
  · constructor
    · intro h
      exact (not_pathOccurs_iff hpath hapart).mp h.path
    · intro h
      refine ⟨(not_pathOccurs_iff hpath hapart).mpr h, not_private_of_mem_keys _ value, ?_⟩
      rw [redact, redact, redactWith_redactWith, funext redactText_redactText]
  · constructor
    · intro h
      exact (not_pathOccurs_iff hpath hapart).mp h.path
    · intro h
      refine ⟨(not_pathOccurs_iff hpath hapart).mpr h, not_private_of_mem_keys _ value, ?_⟩
      rw [sanitize, sanitize, redactWith_redactWith, funext (sanitizeText_again hitems)]

/-! ## Two installations -/

/-- The library below a folder of drive C. -/
def steamApps (folder : String) : List Char :=
  'C' :: ':' :: [('\\', folder.toList), ('\\', "Steam".toList), ('\\', "steamapps".toList)].flatMap
    fun name => name.1 :: name.2

/-- A result that says where the library is. -/
def missingLibrary (folder : String) : Payload :=
  .dict [("message".toList, .str ("cannot read ".toList ++ steamApps folder))]

theorem isWindowsName_of_all {name : List Char} (hne : name ≠ [])
    (h : (name.all fun c =>
      decide (32 ≤ c.toNat ∧ c ∉ ['<', '>', ':', '"', '/', '\\', '|', '?', '*'])) = true) :
    IsWindowsName name := by
  refine ⟨hne, ?_⟩
  intro c hc
  exact of_decide_eq_true (List.all_eq_true.mp h c hc)

theorem absolutePath_steamApps {folder : String} (h : IsWindowsName folder.toList) :
    AbsolutePath (steamApps folder) := by
  apply AbsolutePath.drive
  · decide
  · exact Nat.le_add_left 2 1
  · intro name hname
    simp only [List.mem_cons, List.not_mem_nil, or_false] at hname
    rcases hname with rfl | rfl | rfl
    · exact ⟨rfl, h⟩
    · exact ⟨rfl, isWindowsName_of_all (by decide) (by decide)⟩
    · exact ⟨rfl, isWindowsName_of_all (by decide) (by decide)⟩

/-- The letters that are the same in ASCII but for their case. -/
def sameAscii (a b : Char) : Bool :=
  a.toLower == b.toLower

theorem redacts_iff_games :
    (Redacts redact (missingLibrary "Games") (steamApps "Games") ↔
      Covered id (missingLibrary "Games") (steamApps "Games")) ∧
      (Redacts (sanitize sameAscii ["S-1-5-21-7-8-9-1001".toList]) (missingLibrary "Games")
          (steamApps "Games") ↔
        Covered (hideItems sameAscii ["S-1-5-21-7-8-9-1001".toList]) (missingLibrary "Games")
          (steamApps "Games")) := by
  apply redacts_iff
  · exact absolutePath_steamApps (isWindowsName_of_all (by decide) (by decide))
  · exact pathApart_of_not_mem (by decide)
  · intro item hitem _
    obtain rfl := List.mem_singleton.mp hitem
    intro mark hmark
    simp only [List.mem_cons, List.not_mem_nil, or_false] at hmark
    rcases hmark with rfl | rfl
    · exact ⟨by unfold EndsApart; decide +kernel, by unfold StartsApart; decide +kernel⟩
    · exact ⟨by unfold EndsApart; decide +kernel, by unfold StartsApart; decide +kernel⟩

/-- The library of the default installation is not redacted. -/
theorem redacts_not :
    ¬∀ (value : Payload) (path : List Char), AbsolutePath path → Redacts redact value path := by
  intro h
  have hredacts := h (missingLibrary "Program Files (x86)") (steamApps "Program Files (x86)")
    (absolutePath_steamApps (isWindowsName_of_all (by decide) (by decide)))
  apply hredacts.path
  left
  have hsame : redactText ("cannot read ".toList ++ steamApps "Program Files (x86)") =
      "cannot read ".toList ++ steamApps "Program Files (x86)" := by
    decide +kernel
  refine ⟨_, List.mem_singleton.mpr rfl, ?_⟩
  rw [hsame]
  exact (List.suffix_append _ _).isInfix

end SteamAgent.Execution
