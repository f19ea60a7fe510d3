import Mathlib.Data.Finmap

/-!
# Logs and their projections

A log gives each event an id above all ids before it.  A projection folds the
events into a table with a primary key: each event is about at most one row, and
puts or removes it.

There are three groups.

* `Log`, with the order of its ids as a field.
* `Table`, the finite maps that a primary key makes.
* `Projection.replay`, its rows one by one, and what a column of a row holds.
-/

namespace Logs

variable {ε κ ρ β : Type}

/-! ## Logs -/

/-- An event and the id that the log gave it. -/
structure Entry (ε : Type) where
  id : Nat
  event : ε
deriving DecidableEq

/-- The events in the order of their ids.  `last` is the last id given out. -/
structure Log (ε : Type) where
  entries : List (Entry ε)
  last : Nat
  increasing : entries.Pairwise fun a b => a.id < b.id
  bounded : ∀ e ∈ entries, e.id ≤ last

namespace Log

def empty : Log ε :=
  ⟨[], 0, .nil, fun e he => by simp at he⟩

/-- The entry that the next event gets. -/
def next (l : Log ε) (e : ε) : Entry ε :=
  ⟨l.last + 1, e⟩

theorem increasing_append (l : Log ε) (e : ε) :
    (l.entries ++ [l.next e]).Pairwise fun a b => a.id < b.id := by
  refine List.pairwise_append.mpr ⟨l.increasing, List.pairwise_singleton _ _, fun a ha b hb => ?_⟩
  rw [List.mem_singleton.mp hb]
  exact Nat.lt_succ_of_le (l.bounded a ha)

theorem bounded_append (l : Log ε) (e : ε) :
    ∀ a ∈ l.entries ++ [l.next e], a.id ≤ l.last + 1 := by
  intro a ha
  rcases List.mem_append.mp ha with ha | ha
  · exact Nat.le_succ_of_le (l.bounded a ha)
  · rw [List.mem_singleton.mp ha]
    exact Nat.le_refl _

/-- The log after one more event. -/
def append (l : Log ε) (e : ε) : Log ε :=
  ⟨l.entries ++ [l.next e], l.last + 1, l.increasing_append e, l.bounded_append e⟩

@[simp] theorem entries_append (l : Log ε) (e : ε) :
    (l.append e).entries = l.entries ++ [l.next e] := rfl

@[simp] theorem next_event (l : Log ε) (e : ε) : (l.next e).event = e := rfl

/-- The greatest id of a selection is the id of its last entry. -/
theorem max?_filter (l : Log ε) (p : Entry ε → Bool) :
    ((l.entries.filter p).map Entry.id).max? = (l.entries.filter p).getLast?.map Entry.id := by
  have hinc := List.Pairwise.filter p l.increasing
  generalize l.entries.filter p = rows at hinc
  rcases List.eq_nil_or_concat rows with rfl | ⟨before, e, rfl⟩
  · rfl
  · rw [List.concat_eq_append] at hinc ⊢
    rw [List.getLast?_concat, Option.map_some, List.max?_eq_some_iff]
    obtain ⟨_, _, hlt⟩ := List.pairwise_append.mp hinc
    refine ⟨by simp, fun i hi => ?_⟩
    obtain ⟨a, ha, rfl⟩ := List.mem_map.mp hi
    rcases List.mem_append.mp ha with ha | ha
    · exact Nat.le_of_lt (hlt a ha e (List.mem_singleton_self e))
    · rw [List.mem_singleton.mp ha]

end Log

/-! ## Tables -/

/-- The rows of a table by their primary key. -/
abbrev Table (κ ρ : Type) :=
  Finmap fun _ : κ => ρ

namespace Table

variable [DecidableEq κ]

/-- Put the row of a key, or remove it. -/
def put (t : Table κ ρ) (k : κ) : Option ρ → Table κ ρ
  | some r => t.insert k r
  | none => t.erase k

@[simp] theorem lookup_put_self (t : Table κ ρ) (k : κ) (r : Option ρ) :
    (t.put k r).lookup k = r := by
  cases r with
  | some r => exact Finmap.lookup_insert t
  | none => exact Finmap.lookup_erase k t

@[simp] theorem lookup_put_ne (t : Table κ ρ) {k k' : κ} (r : Option ρ) (h : k' ≠ k) :
    (t.put k r).lookup k' = t.lookup k' := by
  cases r with
  | some r => exact Finmap.lookup_insert_of_ne t h
  | none => exact Finmap.lookup_erase_ne h

/-- A row that is put again does not matter. -/
theorem put_put (t : Table κ ρ) (k : κ) (r r' : Option ρ) : (t.put k r).put k r' = t.put k r' := by
  refine Finmap.ext_lookup fun k' => ?_
  by_cases h : k' = k
  · rw [h, lookup_put_self, lookup_put_self]
  · rw [lookup_put_ne _ _ h, lookup_put_ne _ _ h, lookup_put_ne _ _ h]

/-- Putting what is there changes nothing. -/
theorem put_lookup (t : Table κ ρ) {k : κ} {r : Option ρ} (h : t.lookup k = r) : t.put k r = t := by
  refine Finmap.ext_lookup fun k' => ?_
  by_cases hk : k' = k
  · rw [hk, lookup_put_self, h]
  · exact lookup_put_ne _ _ hk

end Table

/-! ## Projections -/

/-- The row that an event is about, and what the event makes of it. -/
structure Projection (ε κ ρ : Type) where
  key : ε → Option κ
  next : Option ρ → Entry ε → Option ρ

namespace Projection

variable [DecidableEq κ] (p : Projection ε κ ρ)

/-- The table after one event. -/
def step (t : Table κ ρ) (e : Entry ε) : Table κ ρ :=
  match p.key e.event with
  | some k => t.put k (p.next (t.lookup k) e)
  | none => t

/-- The left fold of the events. -/
def replay (l : List (Entry ε)) : Table κ ρ :=
  l.foldl p.step ∅

variable {p} {l : List (Entry ε)} {e : Entry ε} {k : κ}

@[simp] theorem replay_nil : p.replay [] = ∅ := rfl

theorem replay_concat (l : List (Entry ε)) (e : Entry ε) :
    p.replay (l ++ [e]) = p.step (p.replay l) e := by
  rw [replay, List.foldl_append]
  rfl

theorem step_of_key (t : Table κ ρ) (h : p.key e.event = some k) :
    p.step t e = t.put k (p.next (t.lookup k) e) := by
  rw [step, h]

theorem step_of_no_key (t : Table κ ρ) (h : p.key e.event = none) : p.step t e = t := by
  rw [step, h]

/-- The events about a row. -/
def about (p : Projection ε κ ρ) (k : κ) (l : List (Entry ε)) : List (Entry ε) :=
  l.filter fun e => p.key e.event = some k

theorem lookup_step (t : Table κ ρ) (e : Entry ε) (k : κ) :
    (p.step t e).lookup k =
      if p.key e.event = some k then p.next (t.lookup k) e else t.lookup k := by
  cases hkey : p.key e.event with
  | none => rw [step_of_no_key t hkey, if_neg (by simp)]
  | some k' =>
    rw [step_of_key t hkey]
    by_cases h : k' = k
    · rw [h, Table.lookup_put_self, if_pos rfl]
    · rw [Table.lookup_put_ne _ _ (Ne.symm h), if_neg fun heq => h (Option.some.inj heq)]

/-- A row is the fold of the events about it. -/
theorem lookup_replay (l : List (Entry ε)) (k : κ) :
    (p.replay l).lookup k = (p.about k l).foldl p.next none := by
  induction l using List.reverseRecOn with
  | nil => rfl
  | append_singleton l e ih =>
    rw [replay_concat, lookup_step, about, List.filter_append, List.foldl_append, ← about, ih]
    by_cases h : p.key e.event = some k
    · rw [if_pos h, List.filter_cons_of_pos (by simpa using h)]
      rfl
    · rw [if_neg h, List.filter_cons_of_neg (by simpa using h)]
      rfl

/-- A column that each event sets or keeps holds the value of the last event
that sets it. -/
theorem foldl_column (next : Option ρ → Entry ε → Option ρ) (column : Option ρ → β)
    (sets : Entry ε → Bool) (value : Entry ε → β)
    (hset : ∀ r e, sets e = true → column (next r e) = value e)
    (hkeep : ∀ r e, sets e = false → column (next r e) = column r) (l : List (Entry ε)) :
    column (l.foldl next none) = ((l.filter sets).getLast?.map value).getD (column none) := by
  induction l using List.reverseRecOn with
  | nil => rfl
  | append_singleton l e ih =>
    rw [List.foldl_append, List.filter_append]
    cases h : sets e with
    | true => simp [hset _ e h, h]
    | false => simp [hkeep _ e h, h, ih]

/-- A row that depends on the last event about it only. -/
theorem lookup_replay_last (f : Entry ε → Option ρ) (hf : ∀ r e, p.next r e = f e)
    (l : List (Entry ε)) (k : κ) :
    (p.replay l).lookup k = (p.about k l).getLast?.bind f := by
  rw [lookup_replay]
  have h := foldl_column p.next id (fun _ => true) f (fun r e _ => hf r e)
    (fun r e h => by simp at h) (p.about k l)
  rw [List.filter_true, id, id] at h
  rw [h]
  cases (p.about k l).getLast? <;> rfl

end Projection

end Logs
