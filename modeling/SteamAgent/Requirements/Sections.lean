import SteamAgent.Requirements.Capacity

/-!
# Sections and the order of lines

What stands behind a section boundary does not reach the facts of a text, and
neither does the order of its lines.

There are four groups.

* The lines of a text.
* Stripped lines, and an inline boundary behind one.
* `readLines` up to a boundary, and on permuted lines.
* The two results about `parseDeclaredMinimum`.
-/

namespace SteamAgent.Requirements

open Text (isSpace)

/-! ## Lines -/

/-- The first line of a text goes on the last line of the text in front of it. -/
theorem splitOn_append_of_getLast {text tail last first : List Char}
    {lines others : List (List Char)} (hlines : text.splitOn '\n' = lines ++ [last])
    (htail : tail.splitOn '\n' = first :: others) :
    (text ++ tail).splitOn '\n' = lines ++ (last ++ first) :: others := by
  induction text generalizing lines last with
  | nil =>
    rw [List.splitOn_nil] at hlines
    obtain ⟨rfl, hlast⟩ := List.append_eq_singleton_iff.mp hlines.symm |>.resolve_right (by simp)
    obtain rfl := (List.cons.inj hlast).1
    exact htail
  | cons c text ih =>
    obtain ⟨lines', last', hsplit⟩ : ∃ lines' last', text.splitOn '\n' = lines' ++ [last'] :=
      ⟨_, _, (List.dropLast_append_getLast (List.splitOn_ne_nil '\n' text)).symm⟩
    have hrest := ih hsplit
    rw [List.splitOn_cons_eq_if_modifyHead, hsplit] at hlines
    rw [List.cons_append, List.splitOn_cons_eq_if_modifyHead, hrest]
    by_cases hc : (c == '\n') = true
    · rw [if_pos hc] at hlines ⊢
      rw [← List.cons_append] at hlines
      obtain ⟨rfl, hlast⟩ := List.append_inj' hlines (by simp)
      obtain rfl := (List.cons.inj hlast).1
      rfl
    · rw [if_neg hc] at hlines ⊢
      cases lines' with
      | nil =>
        have hcons : [] ++ [c :: last'] = lines ++ [last] := hlines
        obtain ⟨rfl, hlast⟩ := List.append_inj' hcons (by simp)
        obtain rfl := (List.cons.inj hlast).1
        rfl
      | cons line lines' =>
        have hcons : (c :: line) :: lines' ++ [last'] = lines ++ [last] := hlines
        obtain ⟨rfl, hlast⟩ := List.append_inj' hcons (by simp)
        obtain rfl := (List.cons.inj hlast).1
        rfl

/-- A property of characters that newlines lack, on the lines. -/
theorem any_splitOn {p : Char → Bool} (hp : p '\n' = false) (text : List Char) :
    text.any p = (text.splitOn '\n').any fun line => line.any p := by
  induction text with
  | nil => rfl
  | cons c text ih =>
    rw [List.splitOn_cons_eq_if_modifyHead, List.any_cons, ih]
    by_cases hc : (c == '\n') = true
    · rw [if_pos hc, eq_of_beq hc, hp, Bool.false_or, List.any_cons]
      rfl
    · rw [if_neg hc]
      cases hsplit : text.splitOn '\n' with
      | nil => exact absurd hsplit (List.splitOn_ne_nil _ _)
      | cons line lines => simp [List.modifyHead, Bool.or_assoc]

/-- The length of a text, from its lines. -/
theorem length_splitOn (text : List Char) :
    text.length + 1 = ((text.splitOn '\n').map fun line => line.length + 1).sum := by
  induction text with
  | nil => rfl
  | cons c text ih =>
    rw [List.splitOn_cons_eq_if_modifyHead, List.length_cons, ih]
    by_cases hc : (c == '\n') = true
    · rw [if_pos hc, List.map_cons, List.sum_cons, List.length_nil]
      omega
    · rw [if_neg hc]
      cases hsplit : text.splitOn '\n' with
      | nil => exact absurd hsplit (List.splitOn_ne_nil _ _)
      | cons line lines =>
        simp only [List.modifyHead_cons, List.map_cons, List.sum_cons, List.length_cons]
        omega

/-! ## Stripped lines -/

theorem rdropWhile_cons {p : Char → Bool} (c : Char) (text : List Char) :
    (c :: text).rdropWhile p =
      if text.rdropWhile p = [] then (if p c then [] else [c]) else c :: text.rdropWhile p := by
  have hreverse : ∀ l : List Char, l.rdropWhile p = (l.reverse.dropWhile p).reverse := fun l => rfl
  rw [hreverse, hreverse, List.reverse_cons, List.dropWhile_append]
  by_cases hempty : text.reverse.dropWhile p = []
  · by_cases hc : p c = true
    · simp [hempty, hc]
    · simp [hempty, hc]
  · simp [hempty]

theorem strip_eq_nil_iff {text : List Char} : strip text = [] ↔ ∀ c ∈ text, isSpace c = true := by
  rw [strip, List.rdropWhile_eq_nil_iff]
  constructor
  · intro h c hc
    rw [← List.takeWhile_append_dropWhile (p := isSpace) (l := text), List.mem_append] at hc
    rcases hc with hc | hc
    · exact List.mem_takeWhile_imp hc
    · exact h c hc
  · intro h c hc
    exact h c (List.dropWhile_subset _ hc)

/-- A boundary behind a line, after its white space. -/
theorem strip_append_boundary {line : List Char} (h : strip line ≠ []) (tail : List Char) :
    ∃ space tail', space ≠ [] ∧ (∀ c ∈ space, isSpace c = true) ∧
      strip (line ++ (" Recommended:".toList ++ tail)) =
        strip line ++ (space ++ ("Recommended:".toList ++ tail')) := by
  have hbehind : ∀ (front : List Char), (front ++ ':' :: tail).rdropWhile isSpace =
      front ++ ':' :: tail.rdropWhile isSpace := by
    intro front
    induction front with
    | nil =>
      rw [List.nil_append, rdropWhile_cons]
      split
      next hnil => simp [hnil, isSpace]
      next => rfl
    | cons c front ih =>
      rw [List.cons_append, rdropWhile_cons, ih, if_neg (by simp), List.cons_append]
  have hne : line.dropWhile isSpace ≠ [] := by
    intro hnil
    exact h (by rw [strip, hnil, List.rdropWhile_nil])
  refine ⟨(line.dropWhile isSpace).rtakeWhile isSpace ++ [' '], tail.rdropWhile isSpace, by simp, ?_, ?_⟩
  · intro c hc
    rcases List.mem_append.mp hc with hc | hc
    · exact List.mem_rtakeWhile_imp hc
    · rw [List.mem_singleton.mp hc]
      decide
  · have hdrop : (line ++ (" Recommended:".toList ++ tail)).dropWhile isSpace =
        (line.dropWhile isSpace ++ " Recommended".toList) ++ ':' :: tail := by
      rw [List.dropWhile_append, if_neg (by simpa using hne)]
      simp
    have hsplit := List.rdropWhile_append_rtakeWhile (p := isSpace) (l := line.dropWhile isSpace)
    rw [strip, strip, hdrop, hbehind, List.append_assoc (List.rtakeWhile _ _), ← List.append_assoc,
      hsplit]
    simp

/-- White space behind a text does not complete a word. -/
theorem isPrefixOf_append_space {word text tail : List Char} {c : Char}
    (hword : ∀ d ∈ word, isSpace d = false) (hc : isSpace c = true) :
    word.isPrefixOf (text ++ c :: tail) = word.isPrefixOf text := by
  induction word generalizing text with
  | nil => simp
  | cons d word ih =>
    have hd := hword d List.mem_cons_self
    cases text with
    | nil =>
      have hne : (d == c) = false := by
        rw [beq_eq_false_iff_ne]
        intro heq
        rw [heq, hc] at hd
        cases hd
      simp [List.isPrefixOf, hne]
    | cons e text =>
      rw [List.cons_append, List.isPrefixOf, List.isPrefixOf,
        ih fun x hx => hword x (List.mem_cons_of_mem _ hx)]

theorem dropWhile_spaces {space : List Char} (h : ∀ c ∈ space, isSpace c = true)
    (tail : List Char) :
    (space ++ ("Recommended:".toList ++ tail)).dropWhile isSpace =
      "Recommended:".toList ++ tail := by
  rw [List.dropWhile_append_of_pos h]
  exact List.dropWhile_cons_of_neg (by decide)

theorem beforeRecommended_cons (c : Char) (rest : List Char) :
    beforeRecommended (c :: rest) =
      if isSpace c && "Recommended:".toList.isPrefixOf (rest.dropWhile isSpace) then some []
      else (beforeRecommended rest).map (c :: ·) :=
  rfl

/-- The words of a boundary have no white space. -/
theorem isSpace_of_mem {word : List Char} (h : (word.all fun c => !isSpace c) = true) :
    ∀ c ∈ word, isSpace c = false := by
  intro c hc
  simpa using List.all_eq_true.mp h c hc

theorem beforeRecommended_spaces {space : List Char} (h : ∀ c ∈ space, isSpace c = true) :
    beforeRecommended space = none := by
  induction space with
  | nil => rfl
  | cons c space ih =>
    have hspace := fun d hd => h d (List.mem_cons_of_mem c hd)
    rw [beforeRecommended_cons, List.dropWhile_eq_nil_iff.mpr hspace, ih hspace]
    simp

/-- The leftmost boundary, when there is one at the end. -/
theorem beforeRecommended_append {space : List Char} (hne : space ≠ [])
    (hspace : ∀ c ∈ space, isSpace c = true) (line tail : List Char) :
    beforeRecommended (line ++ (space ++ ("Recommended:".toList ++ tail))) =
      some ((beforeRecommended line).getD (line.rdropWhile isSpace)) := by
  induction line with
  | nil =>
    obtain ⟨first, others, rfl⟩ := List.exists_cons_of_ne_nil hne
    have hfirst := hspace first List.mem_cons_self
    have hothers := dropWhile_spaces (fun d hd => hspace d (List.mem_cons_of_mem first hd)) tail
    rw [List.nil_append, List.cons_append, beforeRecommended_cons, hothers, hfirst, Bool.true_and,
      if_pos (List.isPrefixOf_iff_prefix.mpr (List.prefix_append _ _))]
    rfl
  | cons c line ih =>
    rw [List.cons_append, beforeRecommended_cons, beforeRecommended_cons, ih]
    by_cases hall : ∀ d ∈ line, isSpace d = true
    · have hnone := beforeRecommended_spaces hall
      have hdrop : line.dropWhile isSpace = [] := List.dropWhile_eq_nil_iff.mpr hall
      have hrdrop : line.rdropWhile isSpace = [] := List.rdropWhile_eq_nil_iff.mpr hall
      have hbehind : (line ++ (space ++ ("Recommended:".toList ++ tail))).dropWhile isSpace =
          "Recommended:".toList ++ tail := by
        rw [← List.append_assoc]
        apply dropWhile_spaces
        intro d hd
        exact (List.mem_append.mp hd).elim (hall d) (hspace d)
      rw [hbehind, hdrop, hnone, rdropWhile_cons, hrdrop]
      by_cases hc : isSpace c = true
      · simp [hc, List.isPrefixOf]
      · simp [hc]
    · have hdrop : line.dropWhile isSpace ≠ [] := fun hnil =>
        hall (List.dropWhile_eq_nil_iff.mp hnil)
      have hrdrop : line.rdropWhile isSpace ≠ [] := fun hnil =>
        hall (List.rdropWhile_eq_nil_iff.mp hnil)
      obtain ⟨first, others, rfl⟩ := List.exists_cons_of_ne_nil hne
      rw [List.dropWhile_append, if_neg (fun hnil => hdrop (List.isEmpty_iff.mp hnil)), List.cons_append,
        isPrefixOf_append_space (isSpace_of_mem (by decide)) (hspace first List.mem_cons_self), rdropWhile_cons,
        if_neg hrdrop]
      split
      next => rfl
      next => cases beforeRecommended line <;> rfl

theorem labelledLine_true {line : List Char} {component : Component} {value : List Char}
    {stopAfter b : Bool} (h : labelledLine line stopAfter = .fact component value b) :
    labelledLine line true = .fact component value true := by
  unfold labelledLine at h ⊢
  cases hmatch : labelMatch line with
  | none => simp [hmatch] at h
  | some found =>
    obtain ⟨label, value'⟩ := found
    simp only [hmatch] at h ⊢
    by_cases hminimum : String.ofList label = "Minimum"
    · rw [if_pos hminimum] at h
      split at h <;> cases h
    · rw [if_neg hminimum] at h ⊢
      by_cases hignored : ignoredLabels.contains (String.ofList label) = true
      · rw [if_pos hignored] at h
        split at h <;> cases h
      · rw [if_neg hignored] at h ⊢
        split at h
        next => cases h
        next component' hlookup =>
          cases h
          rfl

/-- A boundary behind a fact only ends the loop. -/
theorem lineStep_append_boundary {line : List Char} {component : Component} {value : List Char}
    {b : Bool} (h : lineStep line = .fact component value b) (tail : List Char) :
    lineStep (line ++ (" Recommended:".toList ++ tail)) = .fact component value true := by
  rw [lineStep] at h
  split at h
  next => cases h
  next hne =>
    split at h
    next => cases h
    next hminimum =>
      split at h
      next => cases h
      next hrecommended =>
        obtain ⟨space, tail', hspace, hspaces, hstrip⟩ := strip_append_boundary hne tail
        obtain ⟨first, others, rfl⟩ := List.exists_cons_of_ne_nil hspace
        have hfirst := hspaces first List.mem_cons_self
        have hmem : first ∈ strip (line ++ (" Recommended:".toList ++ tail)) := by
          rw [hstrip]
          simp
        have hapart : ∀ {word : List Char}, (∀ d ∈ word, isSpace d = false) →
            strip (line ++ (" Recommended:".toList ++ tail)) ≠ word := by
          intro word hword heq
          rw [heq] at hmem
          rw [hword first hmem] at hfirst
          cases hfirst
        rw [lineStep, if_neg (hapart (by simp)), if_neg (hapart (isSpace_of_mem (by decide))),
          if_neg (hapart (isSpace_of_mem (by decide))),
          hstrip, beforeRecommended_append hspace hspaces]
        dsimp only
        have hself : (strip line).rdropWhile isSpace = strip line := List.rdropWhile_idempotent _ _
        cases hbefore : beforeRecommended (strip line) with
        | none =>
          rw [hbefore] at h
          dsimp only at h
          rw [Option.getD_none, hself, hself]
          exact labelledLine_true h
        | some before =>
          rw [hbefore] at h
          exact labelledLine_true h

/-! ## Reading -/

theorem readLines_append_congr {tail tail' : List (List Char)} (h : readLines tail = readLines tail')
    (lines : List (List Char)) : readLines (lines ++ tail) = readLines (lines ++ tail') := by
  induction lines with
  | nil => exact h
  | cons line lines ih => rw [List.cons_append, List.cons_append, readLines, readLines, ih]

/-- A line that is not a boundary. -/
def NoBoundary (line : List Char) : Prop :=
  strip line ≠ "Recommended:".toList ∧ beforeRecommended (strip line) = none

/-- What a line adds to the facts. -/
def lineFact (line : List Char) : Option (Component × List Char) :=
  match lineStep line with
  | .fact component value _ => some (component, value)
  | _ => none

/-- Without a boundary the loop goes on or rejects. -/
theorem labelledLine_false (line : List Char) :
    labelledLine line false = .skip ∨ (∃ reason, labelledLine line false = .reject reason) ∨
      ∃ component value, labelledLine line false = .fact component value false := by
  unfold labelledLine
  cases labelMatch line with
  | none => exact Or.inr (Or.inl ⟨_, rfl⟩)
  | some found =>
    obtain ⟨label, value⟩ := found
    dsimp only
    by_cases hminimum : String.ofList label = "Minimum"
    · rw [if_pos hminimum]
      exact Or.inl rfl
    · rw [if_neg hminimum]
      by_cases hignored : ignoredLabels.contains (String.ofList label) = true
      · rw [if_pos hignored]
        exact Or.inl rfl
      · rw [if_neg hignored]
        cases componentLabels.lookup (String.ofList label) with
        | none => exact Or.inr (Or.inl ⟨_, rfl⟩)
        | some component => exact Or.inr (Or.inr ⟨_, _, rfl⟩)

theorem NoBoundary.lineStep {line : List Char} (h : NoBoundary line) :
    lineStep line = .skip ∨ (∃ reason, lineStep line = .reject reason) ∨
      ∃ component value, lineStep line = .fact component value false := by
  rw [Requirements.lineStep]
  split
  next => exact Or.inl rfl
  next =>
    split
    next => exact Or.inl rfl
    next =>
      rw [if_neg h.1, h.2]
      exact labelledLine_false _

/-- Lines without a boundary are accepted when each of them is. -/
theorem readLines_eq_ok_iff {lines : List (List Char)} (h : ∀ line ∈ lines, NoBoundary line)
    {found : List (Component × List Char)} :
    readLines lines = .ok found ↔
      (∀ line ∈ lines, ∀ reason, lineStep line ≠ .reject reason) ∧
        found = lines.filterMap lineFact := by
  induction lines generalizing found with
  | nil => simp [readLines, eq_comm, pure, Except.pure]
  | cons line lines ih =>
    have hrest := fun x hx => h x (List.mem_cons_of_mem line hx)
    rw [readLines, List.forall_mem_cons, List.filterMap_cons, lineFact]
    rcases (h line List.mem_cons_self).lineStep with hstep | ⟨reason, hstep⟩ | ⟨c, v, hstep⟩
    · simp [hstep, ih hrest]
    · simp [hstep, throw, throwThe, MonadExceptOf.throw]
    · cases hread : readLines lines with
      | error reason =>
        have hnot := fun found' => (@ih hrest found').not.mp (by simp [hread])
        simp only [hstep]
        constructor
        · nofun
        · rintro ⟨⟨-, hno⟩, -⟩
          exact absurd ⟨hno, rfl⟩ (hnot _)
      | ok found' =>
        have hboth := (ih hrest).mp hread
        simp only [hstep]
        constructor
        · intro heq
          cases heq
          exact ⟨⟨nofun, hboth.1⟩, by rw [hboth.2]⟩
        · rintro ⟨-, rfl⟩
          rw [← hboth.2]
          rfl

/-- The order of facts does not matter to their merge. -/
theorem merge_perm {α : Type} [DecidableEq α] {name : String} {facts facts' : List (RequirementFact α)}
    (h : facts.Perm facts') : merge name facts = merge name facts' := by
  cases facts with
  | nil => rw [List.nil_perm.mp h]
  | cons first others =>
    cases facts' with
    | nil => exact absurd h (by simp)
    | cons first' others' =>
      have hmem : ∀ fact, fact ∈ first :: others ↔ fact ∈ first' :: others' := fun _ => h.mem_iff
      rw [merge, merge]
      by_cases hall : ∀ fact ∈ first :: others, fact = first
      · have hfirst : first' = first := hall first' ((hmem first').mpr List.mem_cons_self)
        have hany : others.any (· != first) = false := by
          simp only [List.any_eq_false, bne_iff_ne, ne_eq, Decidable.not_not]
          exact fun fact hfact => hall fact (List.mem_cons_of_mem _ hfact)
        have hany' : others'.any (· != first') = false := by
          simp only [List.any_eq_false, bne_iff_ne, ne_eq, Decidable.not_not]
          intro fact hfact
          rw [hfirst]
          exact hall fact ((hmem fact).mpr (List.mem_cons_of_mem _ hfact))
        rw [hany, hany', hfirst]
      · have hdiffer : ∀ {x : RequirementFact α} {xs : List (RequirementFact α)},
            ¬(∀ fact ∈ x :: xs, fact = x) → xs.any (· != x) = true := by
          intro x xs hnot
          by_contra hany
          apply hnot
          intro fact hfact
          rcases List.mem_cons.mp hfact with rfl | hfact
          · rfl
          · simp only [Bool.not_eq_true, List.any_eq_false, bne_iff_ne, ne_eq,
              Decidable.not_not] at hany
            exact hany fact hfact
        have hall' : ¬∀ fact ∈ first' :: others', fact = first' := by
          intro hsame
          apply hall
          intro fact hfact
          rw [hsame fact ((hmem fact).mp hfact), hsame first ((hmem first).mp List.mem_cons_self)]
        rw [hdiffer hall, hdiffer hall', if_pos rfl, if_pos rfl]

/-! ## Sections -/

/-- `parse_declared_minimum` on a minimum text. -/
def parseMinimum (lib : CharLibrary) (text : List Char) : ParsedMinimumRequirements :=
  parseDeclaredMinimum lib ⟨.minimum, some text⟩

/-- The facts that were found, merged. -/
def mergeFacts (lib : CharLibrary) (found : List (Component × List Char)) :
    ParsedMinimumRequirements where
  inputReason := none
  capacity := fun component => merge component.name
    ((foundValues (.capacity component) found).map (parseCapacity lib · component))
  architecture := merge "architecture" ((foundValues .architecture found).map parseArchitecture)
  model := fun component => merge component.name
    ((foundValues (.model component) found).map (parseModel component))

theorem mergeFacts_perm (lib : CharLibrary) {found found' : List (Component × List Char)}
    (h : found.Perm found') : mergeFacts lib found = mergeFacts lib found' := by
  have hvalues : ∀ component, (foundValues component found).Perm (foundValues component found') :=
    fun component => (h.filter _).map _
  unfold mergeFacts
  congr 1
  · funext component
    exact merge_perm ((hvalues (.capacity component)).map _)
  · exact merge_perm ((hvalues .architecture).map _)
  · funext component
    exact merge_perm ((hvalues (.model component)).map _)

theorem parseMinimum_of_ok {lib : CharLibrary} {text : List Char}
    {found : List (Component × List Char)} (hvalid : validateInput lib (some text) = none)
    (hread : readLines (text.splitOn '\n') = .ok found) :
    parseMinimum lib text = mergeFacts lib found := by
  rw [parseMinimum, parseDeclaredMinimum, if_neg (by simp)]
  dsimp only
  rw [hvalid]
  dsimp only [Option.getD_some]
  rw [hread]
  rfl

/-- An accepted text passes the validation, and its lines are read. -/
theorem accepted_iff {lib : CharLibrary} {text : List Char} :
    (parseMinimum lib text).inputReason = none ↔
      validateInput lib (some text) = none ∧ ∃ found, readLines (text.splitOn '\n') = .ok found := by
  constructor
  · intro h
    rw [parseMinimum, parseDeclaredMinimum, if_neg (by simp)] at h
    dsimp only at h
    split at h
    next => cases h
    next hvalid =>
      refine ⟨hvalid, ?_⟩
      dsimp only [Option.getD_some] at h
      split at h
      next => cases h
      next found hread => exact ⟨found, hread⟩
  · rintro ⟨hvalid, found, hread⟩
    rw [parseMinimum_of_ok hvalid hread]
    rfl

/-- The result on a text that passes the validation. -/
theorem parseMinimum_congr {lib : CharLibrary} {text text' : List Char}
    (h : validateInput lib (some text) = none) (h' : validateInput lib (some text') = none)
    (hlines : readLines (text.splitOn '\n') = readLines (text'.splitOn '\n')) :
    parseMinimum lib text = parseMinimum lib text' := by
  rw [parseMinimum, parseMinimum, parseDeclaredMinimum, parseDeclaredMinimum, if_neg (by simp),
    if_neg (by simp)]
  dsimp only
  rw [h, h']
  dsimp only [Option.getD_some]
  rw [hlines]

/-- The text, a line that says `Recommended:`, and a tail. -/
def withSection (text boundary tail : List Char) : List Char :=
  text ++ '\n' :: (boundary ++ '\n' :: tail)

/-- The text with an inline boundary behind its last line, and a tail. -/
def withInline (text tail : List Char) : List Char :=
  text ++ (" Recommended:".toList ++ tail)

theorem readLines_withSection {boundary : List Char} (hline : '\n' ∉ boundary)
    (hboundary : strip boundary = "Recommended:".toList) (text tail : List Char) :
    readLines ((withSection text boundary tail).splitOn '\n') = readLines (text.splitOn '\n') := by
  have hstep : lineStep boundary = .stop := by
    rw [lineStep, hboundary]
    rfl
  have hstop : readLines (boundary :: tail.splitOn '\n') = readLines [] := by
    rw [readLines.eq_def (boundary :: _)]
    dsimp only
    rw [hstep]
    rfl
  rw [withSection, List.splitOn_append_cons_self, List.splitOn_append_cons_self_of_not_mem hline,
    readLines_append_congr hstop, List.append_nil]

theorem readLines_withInline {text last : List Char} {lines : List (List Char)}
    {component : Component} {value : List Char} {b : Bool}
    (hlines : text.splitOn '\n' = lines ++ [last])
    (hlast : lineStep last = .fact component value b) (tail : List Char) :
    readLines ((withInline text tail).splitOn '\n') = readLines (text.splitOn '\n') := by
  obtain ⟨first, others, htail⟩ := List.exists_cons_of_ne_nil (List.splitOn_ne_nil '\n' tail)
  have hsplit : (" Recommended:".toList ++ tail).splitOn '\n' =
      (" Recommended:".toList ++ first) :: others :=
    @splitOn_append_of_getLast _ _ _ _ [] _ (by decide) htail
  have hsame : readLines ((last ++ (" Recommended:".toList ++ first)) :: others) =
      readLines [last] := by
    rw [readLines, lineStep_append_boundary hlast, readLines, hlast]
    cases b with
    | true => rfl
    | false => rfl
  rw [withInline, splitOn_append_of_getLast hlines hsplit, readLines_append_congr hsame, hlines]

/-- The validation does not see the order of lines. -/
theorem validateInput_perm {lib : CharLibrary} {text text' : List Char}
    (h : (text.splitOn '\n').Perm (text'.splitOn '\n')) :
    validateInput lib (some text) = none ↔ validateInput lib (some text') = none := by
  have hany : ∀ {p : Char → Bool}, p '\n' = false → text.any p = text'.any p := by
    intro p hp
    rw [any_splitOn hp, any_splitOn hp]
    exact h.any_eq
  have hlength : text.length = text'.length := by
    have hsum := (h.map fun line => line.length + 1).sum_eq
    rw [← length_splitOn, ← length_splitOn] at hsum
    omega
  have hstrip : strip text = [] ↔ strip text' = [] := by
    have hspace : ∀ t : List Char, strip t = [] ↔ (t.any fun c => !isSpace c) = false := by
      intro t
      rw [strip_eq_nil_iff]
      simp
    rw [hspace, hspace, hany (by decide)]
  have hcontains : ∀ c ≠ '\n', text.contains c = text'.contains c := by
    intro c hc
    rw [List.contains_eq_any_beq, List.contains_eq_any_beq]
    exact hany (by simpa using hc)
  rw [validateInput, validateInput]
  dsimp only
  rw [hlength, hany (p := fun c => !lib.isPrintable c && c != '\n') (by simp),
    hcontains '<' (by decide), hcontains '>' (by decide), h.length_eq, h.any_eq]
  simp only [hstrip]

/-- A minimum text says nothing about what stands behind a section boundary, and an
accepted one without a boundary nothing by the order of its lines. -/
theorem minimum_sections (lib : CharLibrary) (text : List Char)
    (haccepted : (parseMinimum lib text).inputReason = none) :
    (∀ boundary tail tail', '\n' ∉ boundary → strip boundary = "Recommended:".toList →
      validateInput lib (some (withSection text boundary tail)) = none →
      validateInput lib (some (withSection text boundary tail')) = none →
      parseMinimum lib (withSection text boundary tail) =
        parseMinimum lib (withSection text boundary tail')) ∧
    (∀ lines last component value b tail tail', text.splitOn '\n' = lines ++ [last] →
      lineStep last = .fact component value b →
      validateInput lib (some (withInline text tail)) = none →
      validateInput lib (some (withInline text tail')) = none →
      parseMinimum lib (withInline text tail) = parseMinimum lib (withInline text tail')) ∧
    ((∀ line ∈ text.splitOn '\n', NoBoundary line) →
      ∀ text', (text'.splitOn '\n').Perm (text.splitOn '\n') →
        parseMinimum lib text' = parseMinimum lib text) := by
  refine ⟨?_, ?_, ?_⟩
  · intro boundary tail tail' hline hboundary hvalid hvalid'
    apply parseMinimum_congr hvalid hvalid'
    rw [readLines_withSection hline hboundary, readLines_withSection hline hboundary]
  · intro lines last component value b tail tail' hlines hlast hvalid hvalid'
    apply parseMinimum_congr hvalid hvalid'
    rw [readLines_withInline hlines hlast, readLines_withInline hlines hlast]
  · intro hboundary text' hperm
    have hboundary' : ∀ line ∈ text'.splitOn '\n', NoBoundary line := by
      intro line hline
      exact hboundary line (hperm.mem_iff.mp hline)
    obtain ⟨hvalid, found, hread⟩ := accepted_iff.mp haccepted
    have hvalid' := (validateInput_perm hperm).mpr hvalid
    obtain ⟨hno, rfl⟩ := (readLines_eq_ok_iff hboundary).mp hread
    have hread' : readLines (text'.splitOn '\n') =
        .ok ((text'.splitOn '\n').filterMap lineFact) := by
      refine (readLines_eq_ok_iff hboundary').mpr ⟨?_, rfl⟩
      intro line hline
      exact hno line (hperm.mem_iff.mp hline)
    rw [parseMinimum_of_ok hvalid hread, parseMinimum_of_ok hvalid' hread']
    exact mergeFacts_perm lib (hperm.filterMap lineFact)

def twoLines : List Char :=
  "OS: any\nMemory: 4 GB".toList

theorem minimum_sections_twoLines :
    parseMinimum asciiLibrary (withSection twoLines "Recommended:".toList "Memory: 8 GB".toList) =
      parseMinimum asciiLibrary (withSection twoLines "Recommended:".toList "8 GB".toList) ∧
    parseMinimum asciiLibrary (withInline twoLines "\nMemory: 8 GB".toList) =
      parseMinimum asciiLibrary (withInline twoLines " Memory: 8 GB".toList) ∧
    parseMinimum asciiLibrary "Memory: 4 GB\nOS: any".toList =
      parseMinimum asciiLibrary twoLines := by
  have hsections := minimum_sections asciiLibrary twoLines (by decide +kernel)
  refine ⟨?_, ?_, ?_⟩
  · exact hsections.1 _ _ _ (by decide) (by decide +kernel) (by decide +kernel) (by decide +kernel)
  · exact hsections.2.1 ["OS: any".toList] "Memory: 4 GB".toList (.capacity .memory)
      "4 GB".toList false _ _ (by decide +kernel) (by decide +kernel) (by decide +kernel)
      (by decide +kernel)
  · refine hsections.2.2 ?_ _ (by decide +kernel)
    have hlines : twoLines.splitOn '\n' = ["OS: any".toList, "Memory: 4 GB".toList] := by
      decide +kernel
    intro line hline
    rw [hlines] at hline
    simp only [List.mem_cons, List.not_mem_nil, or_false] at hline
    rcases hline with rfl | rfl
    · exact ⟨by decide +kernel, by decide +kernel⟩
    · exact ⟨by decide +kernel, by decide +kernel⟩

end SteamAgent.Requirements
