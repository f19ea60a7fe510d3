import Mathlib.Data.Set.Finite.Lemmas
import Mathlib.Order.Bounds.Basic

/-!
# Views of the newest complete item

Items of several subjects complete in any order, and every item has rows.  A
view of a subject is the rows of its greatest complete item, and empty before
the first one completes.

`NewestView` is that invariant.  `NewestView.keep` is the rule for a step after
which the greatest items are the same, and `NewestView.complete` the rule for a
step that makes a new one.
-/

namespace Effects

variable {σ ι ρ : Type} [LinearOrder ι]

/-- The view of every subject is the rows of its greatest complete item. -/
def NewestView (done : σ → Set ι) (rows : ι → Set ρ) (view : σ → Set ρ) : Prop :=
  ∀ s c, c ∈ view s ↔ ∃ i, IsGreatest (done s) i ∧ c ∈ rows i

/-! ## Greatest items -/

/-- An item that completes late is not the greatest. -/
theorem isGreatest_insert_of_lt {items : Set ι} {i j k : ι} (hj : j ∈ items) (hij : i < j) :
    IsGreatest (insert i items) k ↔ IsGreatest items k := by
  constructor
  · rintro ⟨hk, hle⟩
    refine ⟨?_, fun l hl => hle (Set.mem_insert_of_mem i hl)⟩
    rcases hk with rfl | hk
    · have hjk := hle (Set.mem_insert_of_mem k hj)
      exact absurd hij (not_lt.mpr hjk)
    · exact hk
  · rintro ⟨hk, hle⟩
    refine ⟨Set.mem_insert_of_mem i hk, fun l hl => ?_⟩
    rcases hl with rfl | hl
    · exact le_trans (le_of_lt hij) (hle hj)
    · exact hle hl

/-- An item that no complete one is greater than is the greatest once it
completes. -/
theorem isGreatest_insert_self {items : Set ι} {i : ι} (h : ∀ j ∈ items, j ≤ i) :
    IsGreatest (insert i items) i := by
  refine ⟨Set.mem_insert i items, fun j hj => ?_⟩
  rcases hj with rfl | hj
  · exact le_refl j
  · exact h j hj

/-- Removing items other than the greatest. -/
theorem isGreatest_of_subset {items items' : Set ι} {k : ι} (hfin : items.Finite)
    (hsub : items' ⊆ items) (hkeep : ∀ i, IsGreatest items i → i ∈ items') :
    IsGreatest items' k ↔ IsGreatest items k := by
  constructor
  · intro hk
    have hne : items.Nonempty := ⟨k, hsub hk.1⟩
    obtain ⟨i, hi, hmax⟩ := Set.exists_max_image items id hfin hne
    have hgreatest : IsGreatest items i := ⟨hi, hmax⟩
    rwa [hk.unique ⟨hkeep i hgreatest, fun j hj => hmax j (hsub hj)⟩]
  · intro hk
    exact ⟨hkeep k hk, fun j hj => hk.2 (hsub hj)⟩

/-! ## Steps -/

variable {done done' : σ → Set ι} {rows rows' : ι → Set ρ} {view view' : σ → Set ρ}

/-- A step that keeps the greatest items and their rows keeps the view. -/
theorem NewestView.keep (h : NewestView done rows view)
    (hdone : ∀ s k, IsGreatest (done' s) k ↔ IsGreatest (done s) k)
    (hrows : ∀ s k, IsGreatest (done s) k → ∀ c, c ∈ rows' k ↔ c ∈ rows k)
    (hview : ∀ s c, c ∈ view' s ↔ c ∈ view s) : NewestView done' rows' view' := by
  intro s c
  rw [hview, h s c]
  constructor
  · rintro ⟨i, hi, hc⟩
    exact ⟨i, (hdone s i).mpr hi, (hrows s i hi c).mpr hc⟩
  · rintro ⟨i, hi, hc⟩
    have hi := (hdone s i).mp hi
    exact ⟨i, hi, (hrows s i hi c).mp hc⟩

/-- A step after which `i` is the greatest item of `s`, with its rows in view. -/
theorem NewestView.complete (h : NewestView done rows view) {s : σ} {i : ι}
    (hdone : IsGreatest (done' s) i) (hview : ∀ c, c ∈ view' s ↔ c ∈ rows' i)
    (hdones : ∀ t, t ≠ s → ∀ k, IsGreatest (done' t) k ↔ IsGreatest (done t) k)
    (hrows : ∀ t, t ≠ s → ∀ k, IsGreatest (done t) k → ∀ c, c ∈ rows' k ↔ c ∈ rows k)
    (hviews : ∀ t, t ≠ s → ∀ c, c ∈ view' t ↔ c ∈ view t) : NewestView done' rows' view' := by
  intro t c
  by_cases hts : t = s
  · subst hts
    rw [hview]
    constructor
    · intro hc
      exact ⟨i, hdone, hc⟩
    · rintro ⟨j, hj, hc⟩
      rwa [hdone.unique hj]
  · rw [hviews t hts, h t c]
    constructor
    · rintro ⟨j, hj, hc⟩
      exact ⟨j, (hdones t hts j).mpr hj, (hrows t hts j hj c).mpr hc⟩
    · rintro ⟨j, hj, hc⟩
      have hj := (hdones t hts j).mp hj
      exact ⟨j, hj, (hrows t hts j hj c).mp hc⟩

end Effects
