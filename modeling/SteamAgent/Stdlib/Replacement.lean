import Mathlib.Data.List.Infix

/-!
# Replacement of all matches

`re.sub` with a mark that does not depend on the match, and which stretches of
the text are left in its result.

There are four groups.

* The replacement.
* Windows: a text that fits one character class after the other.
* A window in the result is a window of the text that no match touches.
* Texts without a match.
-/

namespace Text

variable {α : Type}

/-! ## Replacement -/

/-- All matches from left to right replaced by the mark.  The pattern gives the
length of the match at the front of a text; `skip` is what is left of the last
match. -/
def replaceAll (pattern : List α → Option Nat) (mark : List α) : Nat → List α → List α
  | _, [] => []
  | skip + 1, _ :: rest => replaceAll pattern mark skip rest
  | 0, c :: rest =>
    match pattern (c :: rest) with
    | some n => mark ++ replaceAll pattern mark (n - 1) rest
    | none => c :: replaceAll pattern mark 0 rest

section

variable {pattern : List α → Option Nat} {mark : List α}

@[simp] theorem replaceAll_nil (skip : Nat) : replaceAll pattern mark skip [] = [] := by
  cases skip <;> rfl

@[simp] theorem replaceAll_skip (skip : Nat) (c : α) (rest : List α) :
    replaceAll pattern mark (skip + 1) (c :: rest) = replaceAll pattern mark skip rest :=
  rfl

theorem replaceAll_some {c : α} {rest : List α} {n : Nat} (h : pattern (c :: rest) = some n) :
    replaceAll pattern mark 0 (c :: rest) = mark ++ replaceAll pattern mark (n - 1) rest := by
  rw [replaceAll, h]

theorem replaceAll_none {c : α} {rest : List α} (h : pattern (c :: rest) = none) :
    replaceAll pattern mark 0 (c :: rest) = c :: replaceAll pattern mark 0 rest := by
  rw [replaceAll, h]

theorem replaceAll_drop (skip : Nat) (text : List α) :
    replaceAll pattern mark skip text = replaceAll pattern mark 0 (text.drop skip) := by
  induction skip generalizing text with
  | zero => rfl
  | succ skip ih =>
    cases text with
    | nil => rfl
    | cons c rest => exact ih rest

end

/-! ## Windows -/

/-- The text starts with one character of each class. -/
def Fits : List (α → Bool) → List α → Prop
  | [], _ => True
  | _ :: _, [] => False
  | f :: fs, c :: cs => f c = true ∧ Fits fs cs

instance decidableFits : (fs : List (α → Bool)) → (text : List α) → Decidable (Fits fs text)
  | [], _ => inferInstanceAs (Decidable True)
  | _ :: _, [] => inferInstanceAs (Decidable False)
  | f :: fs, c :: cs =>
    have := decidableFits fs cs
    inferInstanceAs (Decidable (f c = true ∧ Fits fs cs))

/-- The classes and the text agree as far as both go. -/
def Agrees : List (α → Bool) → List α → Prop
  | [], _ => True
  | _ :: _, [] => True
  | f :: fs, c :: cs => f c = true ∧ Agrees fs cs

instance decidableAgrees : (fs : List (α → Bool)) → (text : List α) → Decidable (Agrees fs text)
  | [], _ => inferInstanceAs (Decidable True)
  | _ :: _, [] => inferInstanceAs (Decidable True)
  | f :: fs, c :: cs =>
    have := decidableAgrees fs cs
    inferInstanceAs (Decidable (f c = true ∧ Agrees fs cs))

/-- Some stretch of the text fits the classes. -/
def Occurs (fs : List (α → Bool)) (text : List α) : Prop :=
  ∃ i, Fits fs (text.drop i)

/-- No nonempty end of the classes agrees with the mark: a window that begins in
front of a mark does not reach into it. -/
def EndsApart (fs : List (α → Bool)) (mark : List α) : Prop :=
  ∀ fs' ∈ fs.tails, fs' ≠ [] → ¬Agrees fs' mark

/-- The classes agree with no nonempty end of the mark: a window does not begin in
a mark. -/
def StartsApart (fs : List (α → Bool)) (mark : List α) : Prop :=
  ∀ part ∈ mark.tails, part ≠ [] → ¬Agrees fs part

theorem Fits.agrees {fs : List (α → Bool)} {front back : List α} (h : Fits fs (front ++ back)) :
    Agrees fs front := by
  induction fs generalizing front with
  | nil => trivial
  | cons f fs ih =>
    cases front with
    | nil => trivial
    | cons c front => exact ⟨h.1, ih h.2⟩

theorem EndsApart.tail {f : α → Bool} {fs : List (α → Bool)} {mark : List α}
    (h : EndsApart (f :: fs) mark) : EndsApart fs mark := by
  intro fs' hmem hne
  exact h fs' ((List.mem_tails _ _).mpr (((List.mem_tails _ _).mp hmem).trans (List.suffix_cons f fs))) hne

theorem EndsApart.not_agrees {f : α → Bool} {fs : List (α → Bool)} {mark : List α}
    (h : EndsApart (f :: fs) mark) : ¬Agrees (f :: fs) mark :=
  h (f :: fs) ((List.mem_tails _ _).mpr List.suffix_rfl) (List.cons_ne_nil f fs)

/-- A window does not begin in the mark. -/
theorem StartsApart.occurs_append {fs : List (α → Bool)} {mark back : List α}
    (h : StartsApart fs mark) (hoccurs : Occurs fs (mark ++ back)) : Occurs fs back := by
  obtain ⟨i, hfits⟩ := hoccurs
  by_cases hi : i < mark.length
  · rw [List.drop_append_of_le_length (Nat.le_of_lt hi)] at hfits
    exact absurd hfits.agrees (h (mark.drop i) ((List.mem_tails _ _).mpr (List.drop_suffix i mark))
      (by simpa using hi))
  · refine ⟨i - mark.length, ?_⟩
    rw [List.drop_append] at hfits
    rwa [List.drop_eq_nil_of_le (Nat.le_of_not_lt hi), List.nil_append] at hfits

/-! ## Windows of the result -/

section

variable {pattern : List α → Option Nat} {mark : List α} {fs : List (α → Bool)}

/-- The front of the result fits exactly when the front of the text does and no
match begins there. -/
theorem fits_replaceAll_iff (hmark : EndsApart fs mark) {text : List α} :
    Fits fs (replaceAll pattern mark 0 text) ↔
      Fits fs text ∧ ∀ j < fs.length, pattern (text.drop j) = none := by
  induction text generalizing fs with
  | nil =>
    cases fs with
    | nil => simp [Fits]
    | cons f fs => simp [Fits]
  | cons c rest ih =>
    cases fs with
    | nil => simp [Fits]
    | cons f fs =>
      cases hmatch : pattern (c :: rest) with
      | some n =>
        rw [replaceAll_some hmatch]
        refine iff_of_false (fun h => hmark.not_agrees h.agrees) ?_
        rintro ⟨-, h⟩
        have hnone := h 0 (Nat.succ_pos _)
        rw [List.drop_zero, hmatch] at hnone
        cases hnone
      | none =>
        rw [replaceAll_none hmatch]
        simp only [Fits, ih hmark.tail, List.length_cons]
        constructor
        · rintro ⟨hc, hfits, h⟩
          refine ⟨⟨hc, hfits⟩, ?_⟩
          intro j hj
          cases j with
          | zero => exact hmatch
          | succ j => exact h j (Nat.lt_of_succ_lt_succ hj)
        · rintro ⟨⟨hc, hfits⟩, h⟩
          exact ⟨hc, hfits, fun j hj => h (j + 1) (Nat.succ_lt_succ hj)⟩

/-- A window of the result is one of the text in which no match begins. -/
theorem exists_of_occurs_replaceAll (hends : EndsApart fs mark) (hstarts : StartsApart fs mark)
    (hfs : fs ≠ []) {skip : Nat} {text : List α}
    (h : Occurs fs (replaceAll pattern mark skip text)) :
    ∃ i, Fits fs (text.drop i) ∧ ∀ j < fs.length, pattern (text.drop (i + j)) = none := by
  induction text generalizing skip with
  | nil =>
    obtain ⟨i, hfits⟩ := h
    cases fs with
    | nil => exact absurd rfl hfs
    | cons f fs => simp [Fits] at hfits
  | cons c rest ih =>
    have hrest : ∀ skip', Occurs fs (replaceAll pattern mark skip' rest) →
        ∃ i, Fits fs ((c :: rest).drop i) ∧
          ∀ j < fs.length, pattern ((c :: rest).drop (i + j)) = none := by
      intro skip' hoccurs
      obtain ⟨i, hfits, hnone⟩ := ih hoccurs
      refine ⟨i + 1, hfits, ?_⟩
      intro j hj
      rw [Nat.add_right_comm, List.drop_succ_cons]
      exact hnone j hj
    cases skip with
    | succ skip => exact hrest skip h
    | zero =>
      cases hmatch : pattern (c :: rest) with
      | some n =>
        rw [replaceAll_some hmatch] at h
        exact hrest (n - 1) (hstarts.occurs_append h)
      | none =>
        obtain ⟨i, hfits⟩ := h
        cases i with
        | zero =>
          obtain ⟨htext, hnone⟩ := (fits_replaceAll_iff hends).mp hfits
          refine ⟨0, htext, ?_⟩
          intro j hj
          rw [Nat.zero_add]
          exact hnone j hj
        | succ i =>
          rw [replaceAll_none hmatch, List.drop_succ_cons] at hfits
          exact hrest 0 ⟨i, hfits⟩

/-- Nothing that fits the classes is left by a replacement of what fits them. -/
theorem not_occurs_replaceAll (hends : EndsApart fs mark) (hstarts : StartsApart fs mark)
    (hfs : fs ≠ []) (hpattern : ∀ text, Fits fs text → pattern text ≠ none) {text : List α} :
    ¬Occurs fs (replaceAll pattern mark 0 text) := by
  intro h
  obtain ⟨i, hfits, hnone⟩ := exists_of_occurs_replaceAll hends hstarts hfs h
  exact hpattern _ hfits (hnone 0 (List.length_pos_of_ne_nil hfs))

/-- A replacement brings in nothing that fits the classes. -/
theorem Occurs.of_replaceAll (hends : EndsApart fs mark) (hstarts : StartsApart fs mark)
    (hfs : fs ≠ []) {text : List α} (h : Occurs fs (replaceAll pattern mark 0 text)) :
    Occurs fs text := by
  obtain ⟨i, hfits, -⟩ := exists_of_occurs_replaceAll hends hstarts hfs h
  exact ⟨i, hfits⟩

/-- A match that begins in another one ends in it. -/
def Nested (pattern : List α → Option Nat) : Prop :=
  ∀ text n, pattern text = some n → 0 < n ∧
    ∀ j < n, ∀ n', pattern (text.drop j) = some n' → j + n' ≤ n

/-- From position `skip` on, the text fits the classes at `i` and no match touches
the window. -/
def Untouched (pattern : List α → Option Nat) (fs : List (α → Bool)) (skip : Nat) (text : List α)
    (i : Nat) : Prop :=
  skip ≤ i ∧ Fits fs (text.drop i) ∧
    ∀ j n, skip ≤ j → pattern (text.drop j) = some n → j + n ≤ i ∨ i + fs.length ≤ j

theorem untouched_succ_iff {skip i : Nat} {c : α} {rest : List α} :
    Untouched pattern fs (skip + 1) (c :: rest) (i + 1) ↔ Untouched pattern fs skip rest i := by
  constructor
  · rintro ⟨hi, hfits, h⟩
    refine ⟨Nat.le_of_succ_le_succ hi, hfits, ?_⟩
    intro j n hj hmatch
    have hshift := h (j + 1) n (Nat.succ_le_succ hj) hmatch
    omega
  · rintro ⟨hi, hfits, h⟩
    refine ⟨Nat.succ_le_succ hi, hfits, ?_⟩
    intro j n hj hmatch
    cases j with
    | zero => omega
    | succ j =>
      have hshift := h j n (Nat.le_of_succ_le_succ hj) hmatch
      omega

/-- After a match at the front the window begins behind it. -/
theorem untouched_of_match_iff (hnested : Nested pattern) (hfs : fs ≠ []) {i n : Nat}
    {text : List α} (hmatch : pattern text = some n) :
    Untouched pattern fs 0 text i ↔ Untouched pattern fs n text i := by
  obtain ⟨hpos, hinner⟩ := hnested text n hmatch
  have hlength := List.length_pos_of_ne_nil hfs
  constructor
  · rintro ⟨-, hfits, h⟩
    have hfront := h 0 n (Nat.le_refl 0) hmatch
    exact ⟨by omega, hfits, fun j n' hj => h j n' (Nat.zero_le j)⟩
  · rintro ⟨hi, hfits, h⟩
    refine ⟨Nat.zero_le i, hfits, ?_⟩
    intro j n' _ hj
    by_cases hjn : j < n
    · have hend := hinner j hjn n' hj
      omega
    · exact h j n' (Nat.le_of_not_lt hjn) hj

/-- Without a match at the front the window begins there or later. -/
theorem untouched_of_no_match_iff (hnested : Nested pattern) (hfs : fs ≠ []) {c : α}
    {rest : List α} (hmatch : pattern (c :: rest) = none) :
    (∃ i, Untouched pattern fs 0 (c :: rest) i) ↔
      (Fits fs (c :: rest) ∧ ∀ j < fs.length, pattern ((c :: rest).drop j) = none) ∨
        ∃ i, Untouched pattern fs 0 rest i := by
  have hlength := List.length_pos_of_ne_nil hfs
  constructor
  · rintro ⟨i, -, hfits, h⟩
    cases i with
    | zero =>
      refine Or.inl ⟨hfits, ?_⟩
      intro j hj
      cases hj' : pattern ((c :: rest).drop j) with
      | none => rfl
      | some n =>
        have hpos := (hnested _ n hj').1
        have hapart := h j n (Nat.zero_le j) hj'
        omega
    | succ i =>
      refine Or.inr ⟨i, untouched_succ_iff.mp ⟨Nat.succ_le_succ (Nat.zero_le i), hfits, ?_⟩⟩
      intro j n _ hj
      exact h j n (Nat.zero_le j) hj
  · rintro (⟨hfits, hnone⟩ | ⟨i, hi⟩)
    · refine ⟨0, Nat.le_refl 0, hfits, ?_⟩
      intro j n _ hj
      by_cases hjn : j < fs.length
      · rw [hnone j hjn] at hj
        cases hj
      · omega
    · obtain ⟨-, hfits, h⟩ := (untouched_succ_iff (c := c)).mpr hi
      refine ⟨i + 1, Nat.zero_le _, hfits, ?_⟩
      intro j n _ hj
      cases j with
      | zero =>
        rw [List.drop_zero, hmatch] at hj
        cases hj
      | succ j => exact h (j + 1) n (Nat.succ_le_succ (Nat.zero_le j)) hj

/-- A window is left exactly where no match touches it. -/
theorem occurs_replaceAll_iff (hnested : Nested pattern) (hends : EndsApart fs mark)
    (hstarts : StartsApart fs mark) (hfs : fs ≠ []) {skip : Nat} {text : List α} :
    Occurs fs (replaceAll pattern mark skip text) ↔ ∃ i, Untouched pattern fs skip text i := by
  have hempty : ∀ i, ¬Fits fs (([] : List α).drop i) := by
    intro i hfits
    cases fs with
    | nil => exact hfs rfl
    | cons f fs => simp [Fits] at hfits
  induction text generalizing skip with
  | nil =>
    refine iff_of_false ?_ ?_
    · rintro ⟨i, hfits⟩
      rw [replaceAll_nil] at hfits
      exact hempty i hfits
    · rintro ⟨i, -, hfits, -⟩
      exact hempty i hfits
  | cons c rest ih =>
    have hshift : ∀ skip', Occurs fs (replaceAll pattern mark skip' rest) ↔
        ∃ i, Untouched pattern fs (skip' + 1) (c :: rest) i := by
      intro skip'
      refine ih.trans ?_
      constructor
      · rintro ⟨i, hi⟩
        exact ⟨i + 1, untouched_succ_iff.mpr hi⟩
      · rintro ⟨i, hi⟩
        cases i with
        | zero => exact absurd hi.1 (Nat.not_succ_le_zero skip')
        | succ i => exact ⟨i, untouched_succ_iff.mp hi⟩
    cases skip with
    | succ skip => exact hshift skip
    | zero =>
      cases hmatch : pattern (c :: rest) with
      | some n =>
        have hpos := (hnested _ n hmatch).1
        have hback : Occurs fs (replaceAll pattern mark 0 (c :: rest)) ↔
            Occurs fs (replaceAll pattern mark (n - 1) rest) := by
          rw [replaceAll_some hmatch]
          refine ⟨hstarts.occurs_append, ?_⟩
          rintro ⟨i, hfits⟩
          refine ⟨mark.length + i, ?_⟩
          rwa [← List.drop_drop, List.drop_left]
        rw [hback, hshift, Nat.sub_add_cancel hpos]
        exact exists_congr fun i => (untouched_of_match_iff hnested hfs hmatch).symm
      | none =>
        have hrest : Occurs fs (replaceAll pattern mark 0 rest) ↔
            ∃ i, Untouched pattern fs 0 rest i := ih
        rw [untouched_of_no_match_iff hnested hfs hmatch, ← hrest, ← fits_replaceAll_iff hends,
          replaceAll_none hmatch]
        constructor
        · rintro ⟨i, hfits⟩
          cases i with
          | zero => exact Or.inl hfits
          | succ i => exact Or.inr ⟨i, hfits⟩
        · rintro (hfits | ⟨i, hfits⟩)
          · exact ⟨0, hfits⟩
          · exact ⟨i + 1, hfits⟩

end

/-! ## Texts without a match -/

section

variable {pattern : List α → Option Nat} {mark : List α}

theorem replaceAll_eq_self {text : List α} (h : ∀ i, pattern (text.drop i) = none) :
    replaceAll pattern mark 0 text = text := by
  induction text with
  | nil => rfl
  | cons c rest ih =>
    rw [replaceAll_none (h 0)]
    exact congrArg (c :: ·) (ih fun i => h (i + 1))

end

end Text
