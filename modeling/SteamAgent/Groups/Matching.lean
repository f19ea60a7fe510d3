import Mathlib.Data.List.AList
import Mathlib.Data.List.Sort
import Mathlib.Data.Prod.Lex
import Mathlib.Data.Finset.Dedup
import SteamAgent.Combinatorics.BipartiteMatching

/-!
# The matching of group members and copy sources

`_maximum_matching` of `groups.py`.  A dictionary holds the member of each
taken source.  `augment` looks for a source for one member, and moves the
members in its way to other sources.  The set `seen` is shared by the whole
search for one member, and a member whose search failed is not tried again.

The members and the sources are of any linear orders here: nothing below looks
inside them.

There are four groups.

* The search and the matching.
* `Augmented`, what a search that succeeds does to the dictionary, and
  `Blocked`, what a search that fails has seen.  `augment_spec` is the
  induction on the depth of the search.
* `Serves`, the dictionary as a maximum matching of the members searched so
  far.  `Serves.step` is one member and `serves_foldl` the loop.
* The answer, and its independence of the order of the input.
-/

namespace SteamAgent.Groups

open Matching

variable {α β : Type} [LinearOrder β]

/-! ## The search -/

/-- The variables of a search: `seen` and `source_to_member`. -/
structure Search (α β : Type) where
  seen : List β
  sourceToMember : AList fun _ : β => α

/-- The loop of `augment` over the sources of a member.  `visit` is the call of
`augment` for an incumbent. -/
def tries (visit : α → Search α β → Bool × Search α β) (member : α) :
    List β → Search α β → Bool × Search α β
  | [], s => (false, s)
  | source :: sources, s =>
    if source ∈ s.seen then tries visit member sources s
    else
      let s := { s with seen := source :: s.seen }
      match s.sourceToMember.lookup source with
      | none => (true, { s with sourceToMember := s.sourceToMember.insert source member })
      | some incumbent =>
        match visit incumbent s with
        | (true, s) => (true, { s with sourceToMember := s.sourceToMember.insert source member })
        | (false, s) => tries visit member sources s

/-- `augment`, to a depth. -/
def augment (edges : α → List β) : Nat → α → Search α β → Bool × Search α β
  | 0, _, s => (false, s)
  | depth + 1, member, s =>
    tries (augment edges depth) member ((edges member).insertionSort (· ≤ ·)) s

/-- The sources of all members, and so a depth that no search reaches. -/
def searchDepth (members : List α) (edges : α → List β) : Nat :=
  (members.flatMap edges).length + 1

/-- The search for one member, with a new `seen`. -/
def serveMember (edges : α → List β) (depth : Nat) (sourceToMember : AList fun _ : β => α)
    (member : α) : AList fun _ : β => α :=
  (augment edges depth member ⟨[], sourceToMember⟩).2.sourceToMember

/-- The items of the dictionary, as pairs of a member and a source. -/
def assignments (sourceToMember : AList fun _ : β => α) : List (α × β) :=
  sourceToMember.entries.map fun e => (e.2, e.1)

/-- The order of pairs. -/
def pairBefore [LinearOrder α] (p q : α × β) : Prop :=
  toLex p ≤ toLex q

instance [LinearOrder α] (p q : α × β) : Decidable (pairBefore p q) :=
  inferInstanceAs (Decidable (toLex p ≤ toLex q))

/-- `_maximum_matching`. -/
def maximumMatching [LinearOrder α] (members : List α) (edges : α → List β) : List (α × β) :=
  let sourceToMember := (members.insertionSort (· ≤ ·)).foldl
    (serveMember edges (searchDepth members edges)) ∅
  (assignments sourceToMember).insertionSort pairBefore

/-! ## One search -/

/-- The members of the dictionary, one for each source. -/
def served (sourceToMember : AList fun _ : β => α) : List α :=
  sourceToMember.entries.map Sigma.snd

/-- A member got a source: the other members still have as many as before, the
sources of `seen` are untouched, and a new pair is an edge. -/
structure Augmented (edges : α → List β) (member : α) (seen : List β)
    (old new : AList fun _ : β => α) : Prop where
  served : (served new).Perm (member :: served old)
  untouched : ∀ source ∈ seen, new.lookup source = old.lookup source
  edge : ∀ source a, new.lookup source = some a → old.lookup source = some a ∨ source ∈ edges a

/-- A search that failed has left the dictionary alone.  Each source that it saw
is taken, and every source of its member was seen too. -/
structure Blocked (edges : α → List β) (s s' : Search α β) : Prop where
  same : s'.sourceToMember = s.sourceToMember
  seen : ∀ source ∈ s.seen, source ∈ s'.seen
  taken : ∀ source ∈ s'.seen, source ∉ s.seen → ∃ a, s.sourceToMember.lookup source = some a ∧
    ∀ other ∈ edges a, other ∈ s'.seen

/-- How a search ends, on the sources that it was to try. -/
def SearchSpec (edges : α → List β) (member : α) (sources : List β) (s : Search α β) :
    Bool × Search α β → Prop
  | (true, s') => Augmented edges member s.seen s.sourceToMember s'.sourceToMember
  | (false, s') => Blocked edges s s' ∧ ∀ source ∈ sources, source ∈ s'.seen

section Dictionary

variable {m : AList fun _ : β => α} {source : β} {member a : α}

/-- A source that nobody has goes to the member. -/
theorem served_insert_free (h : m.lookup source = none) :
    (served (m.insert source member)).Perm (member :: served m) := by
  rw [served, AList.entries_insert_of_notMem (AList.lookup_eq_none.mp h)]
  exact List.Perm.refl _

/-- A source that `a` has goes from `a` to the member. -/
theorem served_insert_taken (h : m.lookup source = some a) :
    (a :: served (m.insert source member)).Perm (member :: served m) := by
  have hkeys : source ∈ m.entries.keys := by
    have hmem : source ∈ m := AList.lookup_isSome.mp (by rw [h]; rfl)
    exact hmem
  obtain ⟨b, l₁, l₂, -, hentries, hrest⟩ := List.exists_of_kerase hkeys
  obtain rfl : b = a := by
    have hb : (⟨source, b⟩ : Sigma fun _ : β => α) ∈ m.entries := by
      rw [hentries]
      exact List.mem_append_right _ List.mem_cons_self
    have hlookup : m.lookup source = some b := AList.mem_lookup_iff.mpr hb
    exact Option.some.inj (hlookup.symm.trans h)
  rw [served, served, AList.entries_insert, hrest, hentries]
  simp only [List.map_cons, List.map_append]
  exact (List.Perm.swap member b _).trans (List.perm_middle.symm.cons member)

theorem mem_served : a ∈ served m ↔ ∃ source, m.lookup source = some a := by
  rw [served, List.mem_map]
  constructor
  · intro h
    obtain ⟨e, he, rfl⟩ := h
    exact ⟨e.1, AList.mem_lookup_iff.mpr he⟩
  · intro h
    obtain ⟨source, hlookup⟩ := h
    exact ⟨⟨source, a⟩, AList.mem_lookup_iff.mp hlookup, rfl⟩

theorem mem_assignments : (a, source) ∈ assignments m ↔ m.lookup source = some a := by
  rw [assignments, List.mem_map]
  constructor
  · intro h
    obtain ⟨e, he, heq⟩ := h
    obtain ⟨rfl, rfl⟩ := Prod.mk.inj heq
    exact AList.mem_lookup_iff.mpr he
  · intro h
    exact ⟨⟨source, a⟩, AList.mem_lookup_iff.mp h, rfl⟩

end Dictionary

/-! ### The steps of a search -/

section Search

variable {edges : α → List β} {member incumbent : α} {source : β} {sources : List β}
  {s s' s₁ s₂ : Search α β} {old new : AList fun _ : β => α}

theorem Augmented.free {seen : List β} (hseen : source ∉ seen) (hedge : source ∈ edges member)
    (h : old.lookup source = none) :
    Augmented edges member seen old (old.insert source member) where
  served := served_insert_free h
  untouched other hother := by
    refine AList.lookup_insert_ne ?_
    intro heq
    exact hseen (heq ▸ hother)
  edge other a hlookup := by
    by_cases heq : other = source
    · subst heq
      rw [AList.lookup_insert] at hlookup
      exact Or.inr (Option.some.inj hlookup ▸ hedge)
    · rw [AList.lookup_insert_ne heq] at hlookup
      exact Or.inl hlookup

/-- The incumbent has found another source, and leaves this one to the member. -/
theorem Augmented.taken {seen : List β} (hseen : source ∉ seen) (hedge : source ∈ edges member)
    (hlookup : old.lookup source = some incumbent)
    (h : Augmented edges incumbent (source :: seen) old new) :
    Augmented edges member seen old (new.insert source member) where
  served := by
    have hstill : new.lookup source = some incumbent :=
      (h.untouched source List.mem_cons_self).trans hlookup
    have hserved : (incumbent :: Groups.served (new.insert source member)).Perm
        (member :: Groups.served new) :=
      served_insert_taken hstill
    have hmove := hserved.trans (h.served.cons member)
    exact (hmove.trans (List.Perm.swap incumbent member _)).cons_inv
  untouched other hother := by
    rw [AList.lookup_insert_ne]
    · exact h.untouched other (List.mem_cons_of_mem _ hother)
    · intro heq
      exact hseen (heq ▸ hother)
  edge other a ha := by
    by_cases heq : other = source
    · subst heq
      rw [AList.lookup_insert] at ha
      exact Or.inr (Option.some.inj ha ▸ hedge)
    · rw [AList.lookup_insert_ne heq] at ha
      exact h.edge other a ha

theorem Blocked.refl : Blocked edges s s :=
  ⟨rfl, fun _ h => h, fun _ h hnot => absurd h hnot⟩

/-- The incumbent of a source found nothing. -/
theorem Blocked.taken_source (hlookup : s.sourceToMember.lookup source = some incumbent)
    (h : Blocked edges { s with seen := source :: s.seen } s')
    (hedges : ∀ other ∈ edges incumbent, other ∈ s'.seen) : Blocked edges s s' where
  same := h.same
  seen other hother := h.seen other (List.mem_cons_of_mem _ hother)
  taken other hother hnot := by
    by_cases heq : other = source
    · exact ⟨incumbent, heq ▸ hlookup, hedges⟩
    · refine h.taken other hother ?_
      intro hmem
      rcases List.mem_cons.mp hmem with hmem | hmem
      · exact heq hmem
      · exact hnot hmem

theorem Blocked.trans (h : Blocked edges s s₁) (h' : Blocked edges s₁ s₂) : Blocked edges s s₂ where
  same := h'.same.trans h.same
  seen other hother := h'.seen other (h.seen other hother)
  taken other hother hnot := by
    by_cases hmid : other ∈ s₁.seen
    · obtain ⟨a, ha, hedges⟩ := h.taken other hmid hnot
      exact ⟨a, ha, fun b hb => h'.seen b (hedges b hb)⟩
    · rw [← h.same]
      exact h'.taken other hother hmid

/-- A search that goes on after a failure. -/
theorem Augmented.after (h : Blocked edges s s')
    (h' : Augmented edges member s'.seen s'.sourceToMember new) :
    Augmented edges member s.seen s.sourceToMember new := by
  rw [h.same] at h'
  exact ⟨h'.served, fun other hother => h'.untouched other (h.seen other hother), h'.edge⟩

/-! ### The depth -/

/-- The sources of `all` that the search has not seen. -/
def unseen (all seen : List β) : Nat :=
  (all.toFinset \ seen.toFinset).card

theorem unseen_cons_lt {all seen : List β} (hall : source ∈ all) (hseen : source ∉ seen) :
    unseen all (source :: seen) < unseen all seen := by
  refine Finset.card_lt_card ((Finset.ssubset_iff_of_subset ?_).mpr ⟨source, ?_, ?_⟩)
  · intro b hb
    simp only [Finset.mem_sdiff, List.mem_toFinset, List.mem_cons, not_or] at hb ⊢
    exact ⟨hb.1, hb.2.2⟩
  · simp [hall, hseen]
  · simp

theorem unseen_le {all seen seen' : List β} (h : ∀ b ∈ seen, b ∈ seen') :
    unseen all seen' ≤ unseen all seen := by
  refine Finset.card_le_card fun b hb => ?_
  simp only [Finset.mem_sdiff, List.mem_toFinset] at hb ⊢
  exact ⟨hb.1, fun hmem => hb.2 (h b hmem)⟩

/-- What the search relies on: its members and their incumbents are among
`members`, and it has depth enough for the sources that are not seen. -/
structure Ready (edges : α → List β) (members : List α) (depth : Nat) (member : α)
    (s : Search α β) : Prop where
  member : member ∈ members
  served : ∀ a ∈ served s.sourceToMember, a ∈ members
  depth : unseen (members.flatMap edges) s.seen < depth

/-- The loop, given what `augment` does for an incumbent. -/
theorem tries_spec {members : List α} {depth : Nat} {visit : α → Search α β → Bool × Search α β}
    (hvisit : ∀ incumbent s, Ready edges members depth incumbent s →
      SearchSpec edges incumbent (edges incumbent) s (visit incumbent s)) :
    ∀ (sources : List β) (s : Search α β), (∀ b ∈ sources, b ∈ edges member) →
      Ready edges members (depth + 1) member s →
      SearchSpec edges member sources s (tries visit member sources s) := by
  intro sources
  induction sources with
  | nil =>
    intro s _ _
    exact ⟨.refl, by simp⟩
  | cons source sources ih =>
    intro s hsources hready
    have hedge := hsources source List.mem_cons_self
    have hrest : ∀ b ∈ sources, b ∈ edges member :=
      fun b hb => hsources b (List.mem_cons_of_mem _ hb)
    rw [tries]
    by_cases hseen : source ∈ s.seen
    · rw [if_pos hseen]
      have hgo := ih s hrest hready
      revert hgo
      generalize tries visit member sources s = r
      obtain ⟨found, s'⟩ := r
      cases found with
      | true => exact id
      | false =>
        intro hgo
        refine ⟨hgo.1, fun b hb => ?_⟩
        rcases List.mem_cons.mp hb with rfl | hb
        · exact hgo.1.seen _ hseen
        · exact hgo.2 b hb
    · rw [if_neg hseen]
      dsimp only
      cases hlookup : s.sourceToMember.lookup source with
      | none => exact Augmented.free hseen hedge hlookup
      | some incumbent =>
        dsimp only
        have hall : source ∈ members.flatMap edges :=
          List.mem_flatMap.mpr ⟨member, hready.member, hedge⟩
        have hin := hready.served incumbent (mem_served.mpr ⟨source, hlookup⟩)
        have hlt := unseen_cons_lt hall hseen
        have hmove := hvisit incumbent { s with seen := source :: s.seen }
          ⟨hin, hready.served, Nat.lt_of_lt_of_le hlt (Nat.lt_succ_iff.mp hready.depth)⟩
        revert hmove
        generalize visit incumbent { s with seen := source :: s.seen } = r
        obtain ⟨found, s₁⟩ := r
        cases found with
        | true =>
          intro hmove
          exact Augmented.taken hseen hedge hlookup hmove
        | false =>
          intro hmove
          have hblocked := Blocked.taken_source hlookup hmove.1 hmove.2
          have hready₁ : Ready edges members (depth + 1) member s₁ := by
            refine ⟨hready.member, ?_, ?_⟩
            · rw [hblocked.same]
              exact hready.served
            · exact Nat.lt_of_le_of_lt (unseen_le hblocked.seen) hready.depth
          show SearchSpec edges member (source :: sources) s (tries visit member sources s₁)
          have hgo := ih s₁ hrest hready₁
          revert hgo
          generalize tries visit member sources s₁ = r
          obtain ⟨found, s₂⟩ := r
          cases found with
          | true => exact Augmented.after hblocked
          | false =>
            intro hgo
            refine ⟨hblocked.trans hgo.1, fun b hb => ?_⟩
            rcases List.mem_cons.mp hb with rfl | hb
            · exact hgo.1.seen _ (hmove.1.seen _ List.mem_cons_self)
            · exact hgo.2 b hb

/-- A search with depth enough serves its member, or has seen why it cannot. -/
theorem augment_spec {members : List α} (depth : Nat) : ∀ (member : α) (s : Search α β),
    Ready edges members depth member s →
    SearchSpec edges member (edges member) s (augment edges depth member s) := by
  induction depth with
  | zero =>
    intro member s hready
    exact absurd hready.depth (Nat.not_lt_zero _)
  | succ depth ih =>
    intro member s hready
    have hsort : ∀ b ∈ (edges member).insertionSort (· ≤ ·), b ∈ edges member :=
      fun b hb => (List.mem_insertionSort _).mp hb
    have hgo := tries_spec ih _ s hsort hready
    rw [augment]
    revert hgo
    generalize tries (augment edges depth) member ((edges member).insertionSort (· ≤ ·)) s = r
    obtain ⟨found, s'⟩ := r
    cases found with
    | true => exact id
    | false =>
      intro hgo
      exact ⟨hgo.1, fun b hb => hgo.2 b ((List.mem_insertionSort _).mpr hb)⟩

end Search

/-! ## The loop over the members -/

/-- The dictionary is a maximum matching of the members that were searched. -/
structure Serves [LinearOrder α] (edges : α → List β) (searched : List α) (m : AList fun _ : β => α) : Prop where
  nodup : (served m).Nodup
  maximum : IsMaximum (fun a b => b ∈ edges a) searched.toFinset (assignments m).toFinset

section Loop

variable [LinearOrder α] {edges : α → List β} {searched members : List α} {member : α}
  {m m' : AList fun _ : β => α}

theorem card_assignments (m : AList fun _ : β => α) :
    (assignments m).toFinset.card = (served m).length := by
  rw [List.toFinset_card_of_nodup, assignments, served, List.length_map, List.length_map]
  refine List.Nodup.map_on (fun e he e' he' heq => ?_) m.nodupKeys.nodup
  obtain ⟨hvalue, hkey⟩ := Prod.mk.inj heq
  exact Sigma.ext hkey (heq_of_eq hvalue)

theorem Serves.within (h : Serves edges searched m) {a : α} (ha : a ∈ served m) :
    a ∈ searched := by
  obtain ⟨source, hlookup⟩ := mem_served.mp ha
  have hmem := h.maximum.matching.within (a, source)
    (List.mem_toFinset.mpr (mem_assignments.mpr hlookup))
  exact List.mem_toFinset.mp hmem

/-- A dictionary without a member twice is a matching. -/
theorem isMatching_assignments (hnodup : (served m).Nodup) (hin : ∀ a ∈ served m, a ∈ searched)
    (hedge : ∀ source a, m.lookup source = some a → source ∈ edges a) :
    IsMatching (fun a b => b ∈ edges a) searched.toFinset (assignments m).toFinset := by
  refine ⟨fun p hp => ?_, fun p hp => ?_, fun p hp q hq heq => ?_, fun p hp q hq heq => ?_⟩
  · exact hedge p.2 p.1 (mem_assignments.mp (List.mem_toFinset.mp hp))
  · have hlookup := mem_assignments.mp (List.mem_toFinset.mp hp)
    exact List.mem_toFinset.mpr (hin p.1 (mem_served.mpr ⟨p.2, hlookup⟩))
  · obtain ⟨e, he, rfl⟩ := List.mem_map.mp (List.mem_toFinset.mp hp)
    obtain ⟨e', he', rfl⟩ := List.mem_map.mp (List.mem_toFinset.mp hq)
    rw [List.inj_on_of_nodup_map hnodup he he' heq]
  · have hp' := mem_assignments.mp (List.mem_toFinset.mp hp)
    have hq' := mem_assignments.mp (List.mem_toFinset.mp hq)
    rw [heq] at hp'
    exact Prod.ext (Option.some.inj (hp'.symm.trans hq')) heq

theorem Serves.empty : Serves edges [] (∅ : AList fun _ : β => α) :=
  ⟨List.nodup_nil, IsMaximum.empty⟩

/-- A search that succeeds. -/
theorem Serves.augmented (h : Serves edges searched m) (hnew : member ∉ searched)
    (haug : Augmented edges member [] m m') : Serves edges (member :: searched) m' := by
  have hnodup : (served m').Nodup := by
    refine (haug.served.nodup_iff).mpr (List.nodup_cons.mpr ⟨?_, h.nodup⟩)
    intro hmem
    exact hnew (h.within hmem)
  have hin : ∀ a ∈ served m', a ∈ member :: searched := by
    intro a ha
    rcases List.mem_cons.mp (haug.served.mem_iff.mp ha) with rfl | ha
    · exact List.mem_cons_self
    · exact List.mem_cons_of_mem _ (h.within ha)
  have hedge : ∀ source a, m'.lookup source = some a → source ∈ edges a := by
    intro source a ha
    rcases haug.edge source a ha with hold | hold
    · exact h.maximum.matching.edge (a, source)
        (List.mem_toFinset.mpr (mem_assignments.mpr hold))
    · exact hold
  refine ⟨hnodup, ?_⟩
  have hmatching := isMatching_assignments hnodup hin hedge
  rw [List.toFinset_cons] at hmatching ⊢
  refine h.maximum.insert_of_larger hmatching ?_
  rw [card_assignments, card_assignments, haug.served.length_eq, List.length_cons]

/-- A search that fails. -/
theorem Serves.blocked {s' : Search α β} (h : Serves edges searched m)
    (hblocked : Blocked edges ⟨[], m⟩ s') (hedges : ∀ b ∈ edges member, b ∈ s'.seen) :
    Serves edges (member :: searched) m := by
  refine ⟨h.nodup, ?_⟩
  rw [List.toFinset_cons]
  have htaken : ∀ b ∈ s'.seen.toFinset, ∃ a, m.lookup b = some a ∧
      ∀ other ∈ edges a, other ∈ s'.seen := fun b hb =>
    hblocked.taken b (List.mem_toFinset.mp hb) List.not_mem_nil
  refine h.maximum.insert_of_blocked s'.seen.toFinset (fun b => (m.lookup b).getD member)
    (fun b hb => ?_) (fun b hb c hc => ?_) fun c hc => List.mem_toFinset.mpr (hedges c hc)
  · obtain ⟨a, hlookup, -⟩ := htaken b hb
    rw [hlookup]
    exact List.mem_toFinset.mpr (mem_assignments.mpr hlookup)
  · obtain ⟨a, hlookup, hclosed⟩ := htaken b hb
    rw [hlookup] at hc
    exact List.mem_toFinset.mpr (hclosed c hc)

/-- One member. -/
theorem Serves.step (h : Serves edges searched m) (hnew : member ∉ searched)
    (hmember : member ∈ members) (hsearched : ∀ a ∈ searched, a ∈ members) :
    Serves edges (member :: searched) (serveMember edges (searchDepth members edges) m member) := by
  have hready : Ready edges members (searchDepth members edges) member ⟨[], m⟩ := by
    refine ⟨hmember, fun a ha => hsearched a (h.within ha), ?_⟩
    have hle : unseen (members.flatMap edges) [] ≤ (members.flatMap edges).length := by
      rw [unseen, List.toFinset_nil, Finset.sdiff_empty]
      exact List.toFinset_card_le _
    exact Nat.lt_succ_of_le hle
  have hspec := augment_spec _ member ⟨[], m⟩ hready
  rw [serveMember]
  revert hspec
  generalize augment edges (searchDepth members edges) member ⟨[], m⟩ = r
  obtain ⟨found, s'⟩ := r
  cases found with
  | true => exact h.augmented hnew
  | false =>
    intro hspec
    show Serves edges (member :: searched) s'.sourceToMember
    rw [hspec.1.same]
    exact h.blocked hspec.1 hspec.2

/-- The loop, from a matching of the members before it. -/
theorem serves_foldl : ∀ (rest searched : List α) (m : AList fun _ : β => α),
    Serves edges searched m → (rest ++ searched).Nodup → (∀ a ∈ rest ++ searched, a ∈ members) →
    Serves edges (rest.reverse ++ searched)
      (rest.foldl (serveMember edges (searchDepth members edges)) m) := by
  intro rest
  induction rest with
  | nil =>
    intro searched m h _ _
    exact h
  | cons member rest ih =>
    intro searched m h hnodup hin
    have hperm : (rest ++ member :: searched).Perm (member :: rest ++ searched) :=
      List.perm_middle
    have hnew : member ∉ searched := fun hmem =>
      (List.nodup_cons.mp hnodup).1 (List.mem_append_right _ hmem)
    have hstep := h.step hnew (hin member List.mem_cons_self) fun a ha =>
      hin a (List.mem_append_right _ ha)
    have hgo := ih (member :: searched) _ hstep (hperm.nodup_iff.mpr hnodup) fun a ha =>
      hin a (hperm.mem_iff.mp ha)
    rw [List.reverse_cons, List.append_assoc]
    exact hgo

end Loop

/-! ## The answer -/

section Answer

variable [LinearOrder α] {edges edges' : α → List β} {members members' : List α}

instance : Std.Total (α := α × β) pairBefore :=
  ⟨fun p q => le_total (toLex p) (toLex q)⟩

instance : IsTrans (α × β) pairBefore :=
  ⟨fun _ _ _ h h' => le_trans h h'⟩

/-- The answer is a maximum matching of the members, and lists no pair twice. -/
theorem isMaximum_maximumMatching (h : members.Nodup) :
    IsMaximum (fun a b => b ∈ edges a) members.toFinset (maximumMatching members edges).toFinset ∧
      (maximumMatching members edges).length =
        (maximumMatching members edges).toFinset.card := by
  have hsort := List.perm_insertionSort (· ≤ ·) members
  have hloop : Serves edges ((members.insertionSort (· ≤ ·)).reverse ++ [])
      ((members.insertionSort (· ≤ ·)).foldl
        (serveMember edges (searchDepth members edges)) ∅) := serves_foldl
    (members.insertionSort (· ≤ ·)) [] ∅ .empty
    (by rw [List.append_nil]; exact hsort.nodup_iff.mpr h)
    fun a ha => hsort.mem_iff.mp (by simpa using ha)
  have hitems := List.perm_insertionSort pairBefore (assignments
    ((members.insertionSort (· ≤ ·)).foldl (serveMember edges (searchDepth members edges)) ∅))
  have hmembers : ((members.insertionSort (· ≤ ·)).reverse ++ []).toFinset = members.toFinset := by
    rw [List.append_nil, List.toFinset_reverse]
    exact List.toFinset_eq_of_perm _ _ hsort
  have hset : (maximumMatching members edges).toFinset = (assignments
      ((members.insertionSort (· ≤ ·)).foldl
        (serveMember edges (searchDepth members edges)) ∅)).toFinset :=
    List.toFinset_eq_of_perm _ _ hitems
  refine ⟨?_, ?_⟩
  · rw [hset, ← hmembers]
    exact hloop.maximum
  · rw [hset, card_assignments, maximumMatching, hitems.length_eq, assignments, served,
      List.length_map, List.length_map]

/-- Sorting forgets the order. -/
theorem insertionSort_eq_of_perm {γ : Type} [LinearOrder γ] {l l' : List γ} (h : l.Perm l') :
    l.insertionSort (· ≤ ·) = l'.insertionSort (· ≤ ·) := by
  refine List.Perm.eq_of_sortedLE List.sortedLE_insertionSort List.sortedLE_insertionSort ?_
  exact (List.perm_insertionSort _ l).trans (h.trans (List.perm_insertionSort _ l').symm)

omit [LinearOrder α] in
theorem augment_congr (h : ∀ a, (edges a).Perm (edges' a)) (depth : Nat) :
    augment edges depth = augment edges' depth := by
  induction depth with
  | zero => rfl
  | succ depth ih =>
    funext member s
    rw [augment, augment, ih, insertionSort_eq_of_perm (h member)]

/-- The answer does not depend on the order of the members or of their sources. -/
theorem maximumMatching_congr (hmembers : members.Perm members')
    (hedges : ∀ a, (edges a).Perm (edges' a)) :
    maximumMatching members edges = maximumMatching members' edges' := by
  have hdepth : searchDepth members edges = searchDepth members' edges' := by
    have hperm := hmembers.flatMap_right edges
    have hlength : ∀ l : List α, (l.flatMap edges).length = (l.flatMap edges').length := by
      intro l
      rw [List.length_flatMap, List.length_flatMap]
      congr 1
      exact List.map_congr_left fun a _ => (hedges a).length_eq
    rw [searchDepth, searchDepth, hperm.length_eq, hlength]
  have hserve : serveMember edges (searchDepth members edges) =
      serveMember edges' (searchDepth members' edges') := by
    funext m member
    rw [serveMember, serveMember, hdepth, augment_congr hedges]
  rw [maximumMatching, maximumMatching, hserve, insertionSort_eq_of_perm hmembers]

end Answer

end SteamAgent.Groups
