import Mathlib.Data.Finset.Card
import Mathlib.Data.Finset.Image
import Mathlib.Order.Bounds.Basic

/-!
# Bipartite matchings, one left end at a time

A matching is a finite set of edges without a shared end.  A maximum matching
of the left ends seen so far is kept when one more left end comes.  Either the
matching grows by one edge, and no matching can grow by more, or the new end
is blocked: every edge out of it leads into a set of right ends that the
matching has used up, and so does every edge out of their partners.

There are three groups.

* `IsMatching` and its shape.
* `IsMaximum`, the matching of most edges on a set of left ends.
* The two steps, `IsMaximum.insert_of_larger` and
  `IsMaximum.insert_of_blocked`.
-/

namespace Matching

variable {α β : Type*} {E E' : α → β → Prop} {A : Finset α} {M N : Finset (α × β)}

/-- A set of edges out of `A` in which no left end and no right end comes
twice. -/
structure IsMatching (E : α → β → Prop) (A : Finset α) (M : Finset (α × β)) : Prop where
  edge : ∀ p ∈ M, E p.1 p.2
  within : ∀ p ∈ M, p.1 ∈ A
  left : ∀ p ∈ M, ∀ q ∈ M, p.1 = q.1 → p = q
  right : ∀ p ∈ M, ∀ q ∈ M, p.2 = q.2 → p = q

namespace IsMatching

theorem empty : IsMatching E A ∅ :=
  ⟨by simp, by simp, by simp, by simp⟩

theorem subset (h : IsMatching E A M) (hN : N ⊆ M) : IsMatching E A N where
  edge p hp := h.edge p (hN hp)
  within p hp := h.within p (hN hp)
  left p hp q hq := h.left p (hN hp) q (hN hq)
  right p hp q hq := h.right p (hN hp) q (hN hq)

/-- More edges leave a matching a matching. -/
theorem mono (h : IsMatching E A M) (hE : ∀ a ∈ A, ∀ b, E a b → E' a b) : IsMatching E' A M where
  edge p hp := hE _ (h.within p hp) _ (h.edge p hp)
  within := h.within
  left := h.left
  right := h.right

/-- A matching has at most one edge for each left end. -/
theorem card_le (h : IsMatching E A M) : M.card ≤ A.card :=
  Finset.card_le_card_of_injOn Prod.fst (fun p hp => h.within p hp)
    fun p hp q hq => h.left p hp q hq

/-- The edges into `S` are no more than `S`. -/
theorem card_filter_right_le [DecidableEq β] (h : IsMatching E A M) (S : Finset β) :
    (M.filter fun p => p.2 ∈ S).card ≤ S.card := by
  refine Finset.card_le_card_of_injOn Prod.snd (fun p hp => ?_) fun p hp q hq => ?_
  · exact (Finset.mem_filter.mp hp).2
  · exact h.right p (Finset.mem_filter.mp hp).1 q (Finset.mem_filter.mp hq).1

end IsMatching

/-- A matching of most edges. -/
structure IsMaximum (E : α → β → Prop) (A : Finset α) (M : Finset (α × β)) : Prop where
  matching : IsMatching E A M
  most : ∀ N, IsMatching E A N → N.card ≤ M.card

namespace IsMaximum

theorem empty : IsMaximum E (∅ : Finset α) ∅ where
  matching := .empty
  most N hN := by simpa using hN.card_le

/-- The number of edges of a maximum matching is the greatest one. -/
theorem isGreatest (h : IsMaximum E A M) :
    IsGreatest {n | ∃ N, IsMatching E A N ∧ N.card = n} M.card := by
  refine ⟨⟨M, h.matching, rfl⟩, ?_⟩
  rintro n ⟨N, hN, rfl⟩
  exact h.most N hN

variable [DecidableEq α] {a : α}

/-- One more left end gives at most one more edge. -/
theorem insert_of_larger (h : IsMaximum E A M) (hN : IsMatching E (insert a A) N)
    (hcard : N.card = M.card + 1) : IsMaximum E (insert a A) N where
  matching := hN
  most K hK := by
    have hold : IsMatching E A (K.filter fun p => p.1 ≠ a) := by
      have hsub := hK.subset (Finset.filter_subset (fun p : α × β => p.1 ≠ a) K)
      refine ⟨hsub.edge, fun p hp => ?_, hsub.left, hsub.right⟩
      have hne := (Finset.mem_filter.mp hp).2
      exact Finset.mem_of_mem_insert_of_ne (hsub.within p hp) hne
    have hnew : (K.filter fun p => ¬ p.1 ≠ a).card ≤ 1 := by
      refine Finset.card_le_one.mpr fun p hp q hq => ?_
      obtain ⟨hpK, hpa⟩ := Finset.mem_filter.mp hp
      obtain ⟨hqK, hqa⟩ := Finset.mem_filter.mp hq
      exact hK.left p hpK q hqK ((not_not.mp hpa).trans (not_not.mp hqa).symm)
    have hsplit := Finset.card_filter_add_card_filter_not (s := K) fun p : α × β => p.1 ≠ a
    have hmost := h.most _ hold
    omega

variable [DecidableEq β]

/-- The partners of `S`, with the edges of `N` that are clear of them and of
`S`. -/
def exchange (S : Finset β) (partner : β → α) (a : α) (N : Finset (α × β)) : Finset (α × β) :=
  S.image (fun b => (partner b, b)) ∪
    N.filter fun p => p.2 ∉ S ∧ p.1 ≠ a ∧ ∀ b ∈ S, partner b ≠ p.1

/-- A blocked left end adds nothing. -/
theorem insert_of_blocked (h : IsMaximum E A M) (S : Finset β) (partner : β → α)
    (hpartner : ∀ b ∈ S, (partner b, b) ∈ M) (hclosed : ∀ b ∈ S, ∀ c, E (partner b) c → c ∈ S)
    (hblocked : ∀ c, E a c → c ∈ S) : IsMaximum E (insert a A) M where
  matching := by
    refine ⟨h.matching.edge, fun p hp => ?_, h.matching.left, h.matching.right⟩
    exact Finset.mem_insert_of_mem (h.matching.within p hp)
  most N hN := by
    have hexchange : IsMatching E A (exchange S partner a N) := by
      refine ⟨fun p hp => ?_, fun p hp => ?_, fun p hp q hq heq => ?_, fun p hp q hq heq => ?_⟩
      · rcases Finset.mem_union.mp hp with hp | hp
        · obtain ⟨b, hb, rfl⟩ := Finset.mem_image.mp hp
          exact h.matching.edge _ (hpartner b hb)
        · exact hN.edge p (Finset.mem_filter.mp hp).1
      · rcases Finset.mem_union.mp hp with hp | hp
        · obtain ⟨b, hb, rfl⟩ := Finset.mem_image.mp hp
          exact h.matching.within _ (hpartner b hb)
        · obtain ⟨hpN, -, hne, -⟩ := Finset.mem_filter.mp hp
          exact Finset.mem_of_mem_insert_of_ne (hN.within p hpN) hne
      · rcases Finset.mem_union.mp hp with hp | hp <;> rcases Finset.mem_union.mp hq with hq | hq
        · obtain ⟨b, hb, rfl⟩ := Finset.mem_image.mp hp
          obtain ⟨c, hc, rfl⟩ := Finset.mem_image.mp hq
          exact h.matching.left _ (hpartner b hb) _ (hpartner c hc) heq
        · obtain ⟨b, hb, rfl⟩ := Finset.mem_image.mp hp
          exact absurd heq ((Finset.mem_filter.mp hq).2.2.2 b hb)
        · obtain ⟨b, hb, rfl⟩ := Finset.mem_image.mp hq
          exact absurd heq.symm ((Finset.mem_filter.mp hp).2.2.2 b hb)
        · exact hN.left p (Finset.mem_filter.mp hp).1 q (Finset.mem_filter.mp hq).1 heq
      · rcases Finset.mem_union.mp hp with hp | hp <;> rcases Finset.mem_union.mp hq with hq | hq
        · obtain ⟨b, hb, rfl⟩ := Finset.mem_image.mp hp
          obtain ⟨c, hc, rfl⟩ := Finset.mem_image.mp hq
          obtain rfl : b = c := heq
          rfl
        · obtain ⟨b, hb, rfl⟩ := Finset.mem_image.mp hp
          exact absurd (show q.2 ∈ S from heq ▸ hb) (Finset.mem_filter.mp hq).2.1
        · obtain ⟨b, hb, rfl⟩ := Finset.mem_image.mp hq
          exact absurd (show p.2 ∈ S from heq ▸ hb) (Finset.mem_filter.mp hp).2.1
        · exact hN.right p (Finset.mem_filter.mp hp).1 q (Finset.mem_filter.mp hq).1 heq
    have hcard : (exchange S partner a N).card =
        S.card + (N.filter fun p => p.2 ∉ S ∧ p.1 ≠ a ∧ ∀ b ∈ S, partner b ≠ p.1).card := by
      rw [exchange, Finset.card_union_of_disjoint, Finset.card_image_of_injective]
      · intro b c heq
        exact (Prod.mk.inj heq).2
      · refine Finset.disjoint_left.mpr fun p hp hq => ?_
        obtain ⟨b, hb, rfl⟩ := Finset.mem_image.mp hp
        exact (Finset.mem_filter.mp hq).2.1 hb
    -- An edge of `N` that the exchange drops leads into `S`.
    have hdrop : (N.filter fun p => ¬ (p.2 ∉ S ∧ p.1 ≠ a ∧ ∀ b ∈ S, partner b ≠ p.1)) ⊆
        N.filter fun p => p.2 ∈ S := by
      intro p hp
      obtain ⟨hpN, hnot⟩ := Finset.mem_filter.mp hp
      refine Finset.mem_filter.mpr ⟨hpN, ?_⟩
      by_contra hout
      refine hnot ⟨hout, ?_, ?_⟩
      · intro heq
        exact hout (hblocked p.2 (heq ▸ hN.edge p hpN))
      · intro b hb heq
        exact hout (hclosed b hb p.2 (heq ▸ hN.edge p hpN))
    have hsplit := Finset.card_filter_add_card_filter_not (s := N)
      fun p : α × β => p.2 ∉ S ∧ p.1 ≠ a ∧ ∀ b ∈ S, partner b ≠ p.1
    have hinto := (Finset.card_le_card hdrop).trans (hN.card_filter_right_le S)
    have hmost := h.most _ hexchange
    omega

end IsMaximum

end Matching
