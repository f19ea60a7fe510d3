import Mathlib.Data.List.MinMax
import Mathlib.Data.List.Sort
import Mathlib.Data.Prod.Lex
import Mathlib.Data.String.Basic

/-!
# Choosing and sorting by a key

`min(values, key=key)` is `List.argmin`: the first element with the least key.
`sorted(values, key=key)` is `sortBy`.

There are two groups.

* `Decided`: the choice does not depend on the order of the values.
* `sortBy`, on values with different keys.
-/

namespace Choice

variable {α β : Type} [LinearOrder β] {key : α → β} {values values' : List α}

/-! ## The least key -/

/-- No value has a smaller key. -/
def Least (key : α → β) (values : List α) (a : α) : Prop :=
  a ∈ values ∧ ∀ b ∈ values, key a ≤ key b

/-- All values with the least key are the same. -/
def Decided (key : α → β) (values : List α) : Prop :=
  ∀ a b, Least key values a → Least key values b → a = b

theorem Least.perm {a : α} (h : Least key values a) (hperm : values.Perm values') :
    Least key values' a := by
  refine ⟨hperm.mem_iff.mp h.1, ?_⟩
  intro b hb
  exact h.2 b (hperm.mem_iff.mpr hb)

theorem least_of_argmin {m : α} (h : values.argmin key = some m) : Least key values m := by
  refine ⟨List.argmin_mem h, ?_⟩
  intro b hb
  exact List.le_of_mem_argmin hb h

theorem exists_argmin (key : α → β) (h : values ≠ []) : ∃ m, values.argmin key = some m := by
  cases hm : values.argmin key with
  | none => exact absurd (List.argmin_eq_none.mp hm) h
  | some m => exact ⟨m, rfl⟩

/-- A decided choice is the same in every order. -/
theorem argmin_perm (h : Decided key values) (hperm : values.Perm values') :
    values.argmin key = values'.argmin key := by
  by_cases hnil : values = []
  · subst hnil
    rw [List.nil_perm.mp hperm]
  · have hnil' : values' ≠ [] := by
      intro heq
      rw [heq] at hperm
      exact hnil (List.perm_nil.mp hperm)
    obtain ⟨m, hm⟩ := exists_argmin key hnil
    obtain ⟨m', hm'⟩ := exists_argmin key hnil'
    rw [hm, hm', h m m' (least_of_argmin hm) ((least_of_argmin hm').perm hperm.symm)]

/-- The choice is in the front when a least value is. -/
theorem argmin_mem_left {front back : List α} {a m : α} [DecidableEq α]
    (h : (front ++ back).argmin key = some m) (ha : a ∈ front)
    (hleast : Least key (front ++ back) a) : m ∈ front := by
  obtain ⟨-, -, hfirst⟩ := List.mem_argmin_iff.mp h
  have hle := hfirst a hleast.1 (hleast.2 m (List.argmin_mem h))
  have hlt : (front ++ back).idxOf a < front.length := by
    rw [List.idxOf_append_of_mem ha]
    exact List.idxOf_lt_length_of_mem ha
  by_contra hnot
  rw [List.idxOf_append_of_notMem hnot] at hle
  omega

/-- A least value is the choice unless the choice stands in front of it. -/
theorem argmin_eq_of_middle {front back : List α} {a m : α} [DecidableEq α]
    (h : (front ++ a :: back).argmin key = some m) (hm : m ∉ front) (ha : a ∉ front)
    (hleast : Least key (front ++ a :: back) a) : m = a := by
  obtain ⟨-, -, hfirst⟩ := List.mem_argmin_iff.mp h
  have hle := hfirst a hleast.1 (hleast.2 m (List.argmin_mem h))
  rw [List.idxOf_append_of_notMem hm, List.idxOf_append_of_notMem ha, List.idxOf_cons_self] at hle
  by_contra hne
  rw [List.idxOf_cons_ne back (Ne.symm hne)] at hle
  omega

/-- The first value is the choice when it is a least value. -/
theorem argmin_eq_of_head {back : List α} {a m : α} [DecidableEq α]
    (h : (a :: back).argmin key = some m) (hleast : Least key (a :: back) a) : m = a :=
  @argmin_eq_of_middle _ _ _ _ [] back a m _ h List.not_mem_nil List.not_mem_nil hleast

/-! ## Sorting -/

/-- `sorted(values, key=key)`, which is stable. -/
def sortBy (key : α → β) (values : List α) : List α :=
  values.insertionSort fun a b => key a ≤ key b

theorem sortBy_perm (key : α → β) (values : List α) : (sortBy key values).Perm values :=
  List.perm_insertionSort _ values

theorem sortBy_pairwise (key : α → β) (values : List α) :
    (sortBy key values).Pairwise fun a b => key a ≤ key b := by
  have htotal : Std.Total fun a b : α => key a ≤ key b := ⟨fun a b => le_total (key a) (key b)⟩
  have htrans : IsTrans α fun a b => key a ≤ key b := ⟨fun a b c => le_trans⟩
  exact List.pairwise_insertionSort _ values

/-- Values with different keys have one order. -/
theorem sortBy_eq (hperm : values.Perm values')
    (hkey : ∀ a ∈ values, ∀ b ∈ values, key a = key b → a = b) :
    sortBy key values = sortBy key values' := by
  have hboth : (sortBy key values).Perm (sortBy key values') :=
    (sortBy_perm key values).trans (hperm.trans (sortBy_perm key values').symm)
  refine List.Perm.eq_of_pairwise ?_ (sortBy_pairwise key values) (sortBy_pairwise key values') hboth
  intro a b ha hb hab hba
  have ha' := (sortBy_perm key values).mem_iff.mp ha
  have hb' := hperm.mem_iff.mpr ((sortBy_perm key values').mem_iff.mp hb)
  exact hkey a ha' b hb' (le_antisymm hab hba)

end Choice
