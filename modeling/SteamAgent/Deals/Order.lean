import Mathlib.Data.List.Perm.Basic
import SteamAgent.Deals.Ranking
import SteamAgent.Stdlib.Result

/-!
# The order of the evidence

When a ranking depends on the order of its input.

There are five groups.

* Rearranged evidence.
* `ChoiceDecided`: no two different pairs, or current offers, tie.
* The choice on rearranged evidence.
* A rearrangement that changes a tied choice.
* Rankings.
-/

namespace SteamAgent.Deals

open Choice (sortBy sortBy_perm sortBy_eq Least Decided)
open Result (bind_eq_ok guard_eq_ok mapM_eq_ok_iff exists_of_mem_left exists_of_mem_right)

/-! ## Rearranged evidence -/

/-- Each element is rearranged, and the list is permuted. -/
def Rearranged {α : Type} (r : α → α → Prop) (values values' : List α) : Prop :=
  ∃ middle, List.Forall₂ r values middle ∧ middle.Perm values'

/-- The offers and lows of a snapshot are permuted. -/
structure SnapshotRearranged (snapshot snapshot' : DealEvidenceSnapshot) : Prop where
  offers : snapshot.offers.Perm snapshot'.offers
  lows : snapshot.historyLows.Perm snapshot'.historyLows
  others : snapshot' =
    { snapshot with offers := snapshot'.offers, historyLows := snapshot'.historyLows }

/-- The snapshots of a candidate are rearranged and its attempts permuted. -/
structure CandidateRearranged (candidate candidate' : DealCandidate) : Prop where
  appid : candidate'.steamAppid = candidate.steamAppid
  snapshots : Rearranged SnapshotRearranged candidate.snapshots candidate'.snapshots
  attempts : candidate.providerAttempts.Perm candidate'.providerAttempts

theorem SnapshotRearranged.refl (snapshot : DealEvidenceSnapshot) :
    SnapshotRearranged snapshot snapshot :=
  ⟨List.Perm.refl _, List.Perm.refl _, rfl⟩

theorem CandidateRearranged.refl (candidate : DealCandidate) :
    CandidateRearranged candidate candidate :=
  ⟨rfl, ⟨candidate.snapshots, List.forall₂_same.mpr fun s _ => .refl s, List.Perm.refl _⟩,
    List.Perm.refl _⟩

/-- Parts of the elements that are permuted are permuted in the whole. -/
theorem Rearranged.flatMap_perm {α β : Type} {r : α → α → Prop} {values values' : List α}
    (h : Rearranged r values values') {part : α → List β}
    (hpart : ∀ a b, r a b → (part a).Perm (part b)) :
    (values.flatMap part).Perm (values'.flatMap part) := by
  obtain ⟨middle, hforall, hperm⟩ := h
  refine List.Perm.trans ?_ (hperm.flatMap_right part)
  clear hperm
  induction hforall with
  | nil => exact List.Perm.refl _
  | cons hr _ ih =>
    rw [List.flatMap_cons, List.flatMap_cons]
    exact (hpart _ _ hr).append ih

/-- One element goes to the front, rearranged. -/
theorem rearranged_front {α : Type} {r : α → α → Prop} (hrefl : ∀ a, r a a) {values : List α}
    {a a' : α} (ha : a ∈ values) (hr : r a a') :
    ∃ rest, Rearranged r values (a' :: rest) := by
  obtain ⟨front, back, rfl⟩ := List.append_of_mem ha
  refine ⟨front ++ back, front ++ a' :: back, ?_, List.perm_middle⟩
  have hsame : ∀ l : List α, List.Forall₂ r l l := fun l => List.forall₂_same.mpr fun b _ => hrefl b
  exact List.rel_append (hsame front) (.cons hr (hsame back))

namespace CandidateRearranged

variable {candidate candidate' : DealCandidate}

theorem offers_perm (h : CandidateRearranged candidate candidate') :
    candidate.offers.Perm candidate'.offers :=
  h.snapshots.flatMap_perm fun _ _ hr => hr.offers

theorem lows_perm (h : CandidateRearranged candidate candidate') :
    candidate.lows.Perm candidate'.lows :=
  h.snapshots.flatMap_perm fun _ _ hr => hr.lows

end CandidateRearranged

/-- The candidate with a rearranged snapshot in front. -/
theorem candidate_front (candidate : DealCandidate) {snapshot snapshot' : DealEvidenceSnapshot}
    (hmem : snapshot ∈ candidate.snapshots) (h : SnapshotRearranged snapshot snapshot') :
    ∃ candidate', CandidateRearranged candidate candidate' ∧
      ∃ rest, candidate'.snapshots = snapshot' :: rest := by
  obtain ⟨rest, hrearranged⟩ := rearranged_front SnapshotRearranged.refl hmem h
  have hsame : ∀ s' ∈ snapshot' :: rest, ∃ s ∈ candidate.snapshots,
      s'.provider = s.provider ∧ s'.product = s.product := by
    obtain ⟨middle, hforall, hperm⟩ := hrearranged
    intro s' hs'
    obtain ⟨s, hs, hr⟩ := exists_of_mem_right hforall (hperm.mem_iff.mpr hs')
    exact ⟨s, hs, by rw [hr.others], by rw [hr.others]⟩
  let candidate' : DealCandidate :=
    { candidate with
      snapshots := snapshot' :: rest
      attempted := by
        intro s' hs'
        obtain ⟨s, hs, hprovider, -⟩ := hsame s' hs'
        rw [hprovider]
        exact candidate.attempted s hs
      products := by
        intro s' hs'
        obtain ⟨s, hs, -, hproduct⟩ := hsame s' hs'
        rw [hproduct]
        exact candidate.products s hs }
  exact ⟨candidate', ⟨rfl, hrearranged, List.Perm.refl _⟩, rest, rfl⟩

/-- The candidate with this offer in front. -/
theorem offer_front (candidate : DealCandidate) {offer : OfferEvidence}
    (h : offer ∈ candidate.offers) : ∃ candidate', CandidateRearranged candidate candidate' ∧
      ∃ rest, candidate'.offers = offer :: rest := by
  obtain ⟨snapshot, hsnapshot, hoffer⟩ := List.mem_flatMap.mp h
  have hfront : SnapshotRearranged snapshot
      { snapshot with offers := offer :: snapshot.offers.erase offer } :=
    ⟨List.perm_cons_erase hoffer, List.Perm.refl _, rfl⟩
  obtain ⟨candidate', hrearranged, rest, hrest⟩ := candidate_front candidate hsnapshot hfront
  refine ⟨candidate', hrearranged, snapshot.offers.erase offer ++ rest.flatMap (·.offers), ?_⟩
  rw [DealCandidate.offers, hrest, List.flatMap_cons]
  rfl

/-- The candidate with this low in front. -/
theorem low_front (candidate : DealCandidate) {low : HistoricalLowSummary}
    (h : low ∈ candidate.lows) : ∃ candidate', CandidateRearranged candidate candidate' ∧
      ∃ rest, candidate'.lows = low :: rest := by
  obtain ⟨snapshot, hsnapshot, hlow⟩ := List.mem_flatMap.mp h
  have hfront : SnapshotRearranged snapshot
      { snapshot with historyLows := low :: snapshot.historyLows.erase low } :=
    ⟨List.Perm.refl _, List.perm_cons_erase hlow, rfl⟩
  obtain ⟨candidate', hrearranged, rest, hrest⟩ := candidate_front candidate hsnapshot hfront
  refine ⟨candidate', hrearranged, snapshot.historyLows.erase low ++ rest.flatMap (·.historyLows), ?_⟩
  rw [DealCandidate.lows, hrest, List.flatMap_cons]
  rfl

/-! ## Ties -/

/-- The pairs of a candidate. -/
def DealCandidate.pairs (candidate : DealCandidate) (context : DealComparisonContext)
    (exact : Bool) : List (OfferEvidence × HistoricalLowSummary) :=
  Deals.pairs candidate.steamAppid candidate.offers candidate.lows context exact

/-- The offers that a candidate without pairs is judged by. -/
def DealCandidate.currentOffers (candidate : DealCandidate) (context : DealComparisonContext) :
    List OfferEvidence :=
  Deals.currentOffers candidate.steamAppid candidate.offers context

/-- No two different pairs tie for the best one; without pairs, no two different
current offers do. -/
def ChoiceDecided (candidate : DealCandidate) (context : DealComparisonContext) : Prop :=
  if candidate.pairs context true ≠ [] then
    Decided pairChoiceKey (candidate.pairs context true)
  else if candidate.pairs context false ≠ [] then
    Decided pairChoiceKey (candidate.pairs context false)
  else Decided offerChoiceKey (candidate.currentOffers context)

variable {candidate candidate' : DealCandidate} {context : DealComparisonContext}

theorem pairs_perm {appid : Nat} {offers offers' : List OfferEvidence}
    {lows lows' : List HistoricalLowSummary} (hoffers : offers.Perm offers')
    (hlows : lows.Perm lows') (exact : Bool) :
    (pairs appid offers lows context exact).Perm (pairs appid offers' lows' context exact) := by
  refine List.Perm.trans ?_ (hoffers.flatMap_right _)
  apply List.Perm.flatMap_left
  intro offer _
  exact (hlows.filter _).map _

theorem CandidateRearranged.pairs_perm (h : CandidateRearranged candidate candidate')
    (context : DealComparisonContext) (exact : Bool) : (candidate.pairs context exact).Perm (candidate'.pairs context exact) := by
  rw [DealCandidate.pairs, DealCandidate.pairs, h.appid]
  exact Deals.pairs_perm h.offers_perm h.lows_perm exact

theorem CandidateRearranged.currentOffers_perm (h : CandidateRearranged candidate candidate')
    (context : DealComparisonContext) :
    (candidate.currentOffers context).Perm (candidate'.currentOffers context) := by
  rw [DealCandidate.currentOffers, DealCandidate.currentOffers, h.appid]
  exact h.offers_perm.filter _

theorem choose_eq (candidate : DealCandidate) (context : DealComparisonContext) :
    choose candidate context =
      match (candidate.pairs context true).argmin pairChoiceKey with
      | some (offer, low) => ⟨some offer, some low, .exact⟩
      | none =>
        match (candidate.pairs context false).argmin pairChoiceKey with
        | some (offer, low) => ⟨some offer, some low, .normalized⟩
        | none =>
          match (candidate.currentOffers context).argmin offerChoiceKey with
          | some offer => ⟨some offer, none, offer.comparability.grade⟩
          | none =>
            ⟨none, none, if candidate.offers ≠ [] ∨ candidate.lows ≠ [] then .degraded else .unknown⟩ :=
  rfl

/-! ## Decided choices -/

theorem perm_ne_nil {α : Type} {l l' : List α} (h : l.Perm l') : l ≠ [] ↔ l' ≠ [] := by
  rw [ne_eq, ne_eq, ← List.length_eq_zero_iff, ← List.length_eq_zero_iff, h.length_eq]

theorem CandidateRearranged.choose (h : CandidateRearranged candidate candidate')
    (hdecided : ChoiceDecided candidate context) :
    choose candidate' context = choose candidate context := by
  have hexact := h.pairs_perm context true
  have hnormalized := h.pairs_perm context false
  have hcurrent := h.currentOffers_perm context
  rw [choose_eq, choose_eq]
  rw [ChoiceDecided] at hdecided
  split at hdecided
  next hne =>
    obtain ⟨m, hm⟩ := Choice.exists_argmin pairChoiceKey hne
    rw [← Choice.argmin_perm hdecided hexact, hm]
  next hnil =>
    have hnil : candidate.pairs context true = [] := by simpa using hnil
    have hempty : candidate'.pairs context true = [] := List.nil_perm.mp (hnil ▸ hexact)
    rw [hnil, hempty]
    dsimp only [List.argmin_nil]
    split at hdecided
    next hne =>
      obtain ⟨m, hm⟩ := Choice.exists_argmin pairChoiceKey hne
      rw [← Choice.argmin_perm hdecided hnormalized, hm]
    next hnil' =>
      have hnil' : candidate.pairs context false = [] := by simpa using hnil'
      have hempty' : candidate'.pairs context false = [] := List.nil_perm.mp (hnil' ▸ hnormalized)
      rw [hnil', hempty']
      dsimp only [List.argmin_nil]
      rw [← Choice.argmin_perm hdecided hcurrent]
      simp only [perm_ne_nil h.offers_perm, perm_ne_nil h.lows_perm]

theorem attempts_sorted (h : candidate.providerAttempts.Perm candidate'.providerAttempts) :
    sortBy attemptKey candidate.providerAttempts =
      sortBy attemptKey candidate'.providerAttempts := by
  apply sortBy_eq h
  intro a ha b hb hkey
  have hprovider : a.provider = b.provider := congrArg (fun key => (ofLex key).2) hkey
  exact List.inj_on_of_nodup_map candidate.uniqueProviders ha hb hprovider

theorem CandidateRearranged.rankCandidate (h : CandidateRearranged candidate candidate')
    (hdecided : ChoiceDecided candidate context) :
    rankCandidate context candidate' = rankCandidate context candidate := by
  have hbucket : ∀ choice, bucketOf candidate' choice = bucketOf candidate choice := by
    intro choice
    simp only [bucketOf, perm_ne_nil h.offers_perm, perm_ne_nil h.lows_perm]
  rw [Deals.rankCandidate, Deals.rankCandidate, h.choose hdecided, hbucket,
    attempts_sorted h.attempts, h.appid]

/-! ## Ties that the order decides -/

theorem mem_pairs {appid : Nat} {offers : List OfferEvidence} {lows : List HistoricalLowSummary}
    {exact : Bool} {pair : OfferEvidence × HistoricalLowSummary} :
    pair ∈ pairs appid offers lows context exact ↔
      pair.1 ∈ offers ∧ pair.2 ∈ lows ∧ comparable appid context exact pair.1 pair.2 = true := by
  obtain ⟨offer, low⟩ := pair
  simp only [pairs, List.mem_flatMap, List.mem_map, List.mem_filter, Prod.mk.injEq]
  constructor
  · rintro ⟨_, hoffer, _, ⟨hlow, hcomparable⟩, rfl, rfl⟩
    exact ⟨hoffer, hlow, hcomparable⟩
  · rintro ⟨hoffer, hlow, hcomparable⟩
    exact ⟨offer, hoffer, low, ⟨hlow, hcomparable⟩, rfl, rfl⟩

theorem pairs_cons (appid : Nat) (offer : OfferEvidence) (offers : List OfferEvidence)
    (lows : List HistoricalLowSummary) (exact : Bool) :
    pairs appid (offer :: offers) lows context exact =
      (lows.filter (comparable appid context exact offer)).map (fun low => (offer, low)) ++
        pairs appid offers lows context exact :=
  rfl

theorem pairs_append (appid : Nat) (offers offers' : List OfferEvidence)
    (lows : List HistoricalLowSummary) (exact : Bool) :
    pairs appid (offers ++ offers') lows context exact =
      pairs appid offers lows context exact ++ pairs appid offers' lows context exact :=
  List.flatMap_append

/-- Another offer of a least pair can be chosen. -/
theorem choose_other_offer {exact : Bool} {pair m : OfferEvidence × HistoricalLowSummary}
    (hleast : Least pairChoiceKey (candidate.pairs context exact) pair) (hne : pair.1 ≠ m.1) :
    ∃ candidate', CandidateRearranged candidate candidate' ∧
      (candidate'.pairs context exact).argmin pairChoiceKey ≠ some m := by
  obtain ⟨hoffer, hlow, hcomparable⟩ := mem_pairs.mp hleast.1
  obtain ⟨candidate', hrearranged, rest, hrest⟩ := offer_front candidate hoffer
  refine ⟨candidate', hrearranged, ?_⟩
  intro hm
  have hleast' := hleast.perm (hrearranged.pairs_perm context exact)
  rw [DealCandidate.pairs, hrest, pairs_cons] at hm hleast'
  have hfront : pair ∈ (candidate'.lows.filter
      (comparable candidate'.steamAppid context exact pair.1)).map fun low => (pair.1, low) := by
    refine List.mem_map.mpr ⟨pair.2, List.mem_filter.mpr ⟨?_, ?_⟩, rfl⟩
    · exact hrearranged.lows_perm.mem_iff.mp hlow
    · rw [hrearranged.appid]
      exact hcomparable
  obtain ⟨low, -, rfl⟩ := List.mem_map.mp (Choice.argmin_mem_left hm hfront hleast')
  exact hne rfl

/-- Another low of a least pair can be chosen, when all least pairs have one offer. -/
theorem choose_other_low {exact : Bool} {pair m : OfferEvidence × HistoricalLowSummary}
    (hleast : Least pairChoiceKey (candidate.pairs context exact) pair)
    (hsame : ∀ p, Least pairChoiceKey (candidate.pairs context exact) p → p.1 = pair.1)
    (hne : pair ≠ m) :
    ∃ candidate', CandidateRearranged candidate candidate' ∧
      (candidate'.pairs context exact).argmin pairChoiceKey ≠ some m := by
  obtain ⟨hoffer, hlow, hcomparable⟩ := mem_pairs.mp hleast.1
  obtain ⟨candidate', hrearranged, rest, hrest⟩ := low_front candidate hlow
  refine ⟨candidate', hrearranged, ?_⟩
  intro hm
  have hperm := hrearranged.pairs_perm context exact
  have hleast' := hleast.perm hperm
  have hfst : m.1 = pair.1 := hsame m ((Choice.least_of_argmin hm).perm hperm.symm)
  obtain ⟨front, back, hsplit, hnot⟩ :=
    List.eq_append_cons_of_mem (hrearranged.offers_perm.mem_iff.mp hoffer)
  have hpairs : candidate'.pairs context exact =
      pairs candidate'.steamAppid front candidate'.lows context exact ++ pair ::
        ((rest.filter (comparable candidate'.steamAppid context exact pair.1)).map
            (fun low => (pair.1, low)) ++
          pairs candidate'.steamAppid back candidate'.lows context exact) := by
    have hcomparable' : comparable candidate'.steamAppid context exact pair.1 pair.2 = true := by
      rw [hrearranged.appid]
      exact hcomparable
    rw [DealCandidate.pairs, hsplit, pairs_append, pairs_cons, hrest,
      List.filter_cons_of_pos hcomparable']
    rfl
  have hapart : ∀ p : OfferEvidence × HistoricalLowSummary, p.1 = pair.1 →
      p ∉ pairs candidate'.steamAppid front candidate'.lows context exact := by
    intro p hp hmem
    have hfront := (mem_pairs.mp hmem).1
    rw [hp] at hfront
    exact hnot hfront
  rw [hpairs] at hm hleast'
  exact hne (Choice.argmin_eq_of_middle hm (hapart m hfst) (hapart pair rfl) hleast').symm

/-- An undecided choice of a pair can go another way. -/
theorem choose_other_pair {exact : Bool} {m : OfferEvidence × HistoricalLowSummary}
    (h : ¬Decided pairChoiceKey (candidate.pairs context exact)) :
    ∃ candidate', CandidateRearranged candidate candidate' ∧
      (candidate'.pairs context exact).argmin pairChoiceKey ≠ some m := by
  rw [Decided] at h
  push Not at h
  obtain ⟨a, b, ha, hb, hab⟩ := h
  by_cases hother : ∃ p, Least pairChoiceKey (candidate.pairs context exact) p ∧ p.1 ≠ m.1
  · obtain ⟨p, hp, hne⟩ := hother
    exact choose_other_offer hp hne
  · push Not at hother
    obtain ⟨p, hp, hne⟩ : ∃ p, Least pairChoiceKey (candidate.pairs context exact) p ∧ p ≠ m := by
      by_cases ham : a = m
      · refine ⟨b, hb, ?_⟩
        intro hbm
        exact hab (ham.trans hbm.symm)
      · exact ⟨a, ha, ham⟩
    refine choose_other_low hp ?_ hne
    intro q hq
    rw [hother q hq, hother p hp]

/-- An undecided choice of a current offer can go another way. -/
theorem choose_other_current {m : OfferEvidence}
    (h : ¬Decided offerChoiceKey (candidate.currentOffers context)) :
    ∃ candidate', CandidateRearranged candidate candidate' ∧
      (candidate'.currentOffers context).argmin offerChoiceKey ≠ some m := by
  rw [Decided] at h
  push Not at h
  obtain ⟨a, b, ha, hb, hab⟩ := h
  obtain ⟨p, hp, hne⟩ : ∃ p, Least offerChoiceKey (candidate.currentOffers context) p ∧ p ≠ m := by
    by_cases ham : a = m
    · refine ⟨b, hb, ?_⟩
      intro hbm
      exact hab (ham.trans hbm.symm)
    · exact ⟨a, ha, ham⟩
  obtain ⟨hoffer, hcurrent⟩ := List.mem_filter.mp hp.1
  obtain ⟨candidate', hrearranged, rest, hrest⟩ := offer_front candidate hoffer
  refine ⟨candidate', hrearranged, ?_⟩
  intro hm
  have hleast := hp.perm (hrearranged.currentOffers_perm context)
  rw [DealCandidate.currentOffers, hrest, Deals.currentOffers, hrearranged.appid,
    List.filter_cons_of_pos hcurrent] at hm hleast
  exact hne (Choice.argmin_eq_of_head hm hleast).symm

/-- The evidence of an undecided choice can be rearranged so that the choice changes. -/
theorem choose_other (h : ¬ChoiceDecided candidate context) :
    ∃ candidate', CandidateRearranged candidate candidate' ∧
      ((choose candidate' context).offer ≠ (choose candidate context).offer ∨
        (choose candidate' context).low ≠ (choose candidate context).low) := by
  have hdiffer : ∀ {m m' : OfferEvidence × HistoricalLowSummary},
      m' ≠ m → some m'.1 ≠ some m.1 ∨ some m'.2 ≠ some m.2 := by
    intro m m' hne
    by_contra hboth
    push Not at hboth
    exact hne (Prod.ext (Option.some.inj hboth.1) (Option.some.inj hboth.2))
  rw [ChoiceDecided] at h
  split at h
  next hne =>
    obtain ⟨m, hm⟩ := Choice.exists_argmin pairChoiceKey hne
    obtain ⟨candidate', hrearranged, hother⟩ := choose_other_pair (m := m) h
    have hne' := (perm_ne_nil (hrearranged.pairs_perm context true)).mp hne
    obtain ⟨m', hm'⟩ := Choice.exists_argmin pairChoiceKey hne'
    refine ⟨candidate', hrearranged, ?_⟩
    rw [choose_eq, choose_eq, hm, hm']
    refine hdiffer ?_
    rintro rfl
    exact hother hm'
  next hnil =>
    have hnil : candidate.pairs context true = [] := by simpa using hnil
    split at h
    next hne =>
      obtain ⟨m, hm⟩ := Choice.exists_argmin pairChoiceKey hne
      obtain ⟨candidate', hrearranged, hother⟩ := choose_other_pair (m := m) h
      have hne' := (perm_ne_nil (hrearranged.pairs_perm context false)).mp hne
      obtain ⟨m', hm'⟩ := Choice.exists_argmin pairChoiceKey hne'
      have hnil' : candidate'.pairs context true = [] :=
        List.nil_perm.mp (hnil ▸ hrearranged.pairs_perm context true)
      refine ⟨candidate', hrearranged, ?_⟩
      rw [choose_eq, choose_eq, hnil, hnil', hm, hm']
      refine hdiffer ?_
      rintro rfl
      exact hother hm'
    next hnone =>
      have hnone : candidate.pairs context false = [] := by simpa using hnone
      have hne : candidate.currentOffers context ≠ [] := by
        intro heq
        rw [heq] at h
        exact h fun a _ ha => absurd ha.1 (List.not_mem_nil)
      obtain ⟨m, hm⟩ := Choice.exists_argmin offerChoiceKey hne
      obtain ⟨candidate', hrearranged, hother⟩ := choose_other_current (m := m) h
      have hne' := (perm_ne_nil (hrearranged.currentOffers_perm context)).mp hne
      obtain ⟨m', hm'⟩ := Choice.exists_argmin offerChoiceKey hne'
      have hnil' : candidate'.pairs context true = [] :=
        List.nil_perm.mp (hnil ▸ hrearranged.pairs_perm context true)
      have hnone' : candidate'.pairs context false = [] :=
        List.nil_perm.mp (hnone ▸ hrearranged.pairs_perm context false)
      refine ⟨candidate', hrearranged, Or.inl ?_⟩
      rw [choose_eq, choose_eq, hnil, hnil', hnone, hnone']
      dsimp only [List.argmin_nil]
      rw [hm, hm']
      dsimp only
      intro heq
      rw [Option.some.inj heq] at hm'
      exact hother hm'

/-! ## Rankings -/

theorem rankDeals_eq_ok_iff {candidates : List DealCandidate} {ranking : DealRanking} :
    rankDeals candidates context = .ok ranking ↔
      (candidates.map (·.steamAppid)).Nodup ∧
        ∃ ranked, List.Forall₂ (fun a b => rankCandidate context a = .ok b) candidates ranked ∧
          ranking = ⟨context, sortBy sortKey ranked⟩ := by
  rw [rankDeals, guard_eq_ok, not_not, bind_eq_ok]
  constructor
  · intro h
    obtain ⟨hnodup, ranked, hranked, h⟩ := h
    exact ⟨hnodup, ranked, mapM_eq_ok_iff.mp hranked, (Except.ok.inj h).symm⟩
  · intro h
    obtain ⟨hnodup, ranked, hranked, h⟩ := h
    exact ⟨hnodup, ranked, mapM_eq_ok_iff.mpr hranked, congrArg Except.ok h.symm⟩

theorem steamAppid_of_rankCandidate {ranked : RankedDealCandidate}
    (h : rankCandidate context candidate = .ok ranked) :
    ranked.steamAppid = candidate.steamAppid ∧
      ranked.currentOffer = (choose candidate context).offer ∧
      ranked.historicalLow = (choose candidate context).low := by
  obtain ⟨rungs, -, h⟩ := bind_eq_ok.mp h
  cases h
  exact ⟨rfl, rfl, rfl⟩

theorem map_steamAppid {candidates : List DealCandidate} {ranked : List RankedDealCandidate}
    (h : List.Forall₂ (fun a b => rankCandidate context a = .ok b) candidates ranked) :
    ranked.map (·.steamAppid) = candidates.map (·.steamAppid) := by
  induction h with
  | nil => rfl
  | cons hr _ ih => rw [List.map_cons, List.map_cons, ih, (steamAppid_of_rankCandidate hr).1]

theorem Rearranged.map_steamAppid {candidates candidates' : List DealCandidate}
    (h : Rearranged CandidateRearranged candidates candidates') :
    (candidates.map (·.steamAppid)).Perm (candidates'.map (·.steamAppid)) := by
  obtain ⟨middle, hforall, hperm⟩ := h
  have hsame : candidates.map (·.steamAppid) = middle.map (·.steamAppid) := by
    induction hforall generalizing candidates' with
    | nil => rfl
    | cons hr _ ih =>
      rw [List.map_cons, List.map_cons, hr.appid, ih (List.Perm.refl _)]
  rw [hsame]
  exact hperm.map _

/-- Sorting by the key of the ranking depends on no order. -/
theorem sortBy_sortKey {ranked ranked' : List RankedDealCandidate} (h : ranked.Perm ranked')
    (hnodup : (ranked.map (·.steamAppid)).Nodup) : sortBy sortKey ranked = sortBy sortKey ranked' := by
  apply sortBy_eq h
  intro a ha b hb hkey
  have happid : a.steamAppid = b.steamAppid :=
    congrArg (fun key => (ofLex (ofLex (ofLex (ofLex key).2).2).2).2) hkey
  exact List.inj_on_of_nodup_map hnodup ha hb happid

/-- The ranking is the same for every order of the candidates and of the evidence exactly
when no choice of a candidate is a tie of different evidence. -/
theorem ranking_rearranged_iff {candidates : List DealCandidate} {context : DealComparisonContext}
    {ranking : DealRanking} (h : rankDeals candidates context = .ok ranking) :
    (∀ candidates', Rearranged CandidateRearranged candidates candidates' →
      rankDeals candidates' context = .ok ranking) ↔
    ∀ candidate ∈ candidates, ChoiceDecided candidate context := by
  obtain ⟨hnodup, ranked, hranked, rfl⟩ := rankDeals_eq_ok_iff.mp h
  have hids : (ranked.map (·.steamAppid)).Nodup := by
    rw [map_steamAppid hranked]
    exact hnodup
  constructor
  · intro hall candidate hmem
    by_contra hundecided
    obtain ⟨candidate', hrearranged, hother⟩ := choose_other hundecided
    obtain ⟨rest, hrest⟩ := rearranged_front CandidateRearranged.refl hmem hrearranged
    obtain ⟨-, ranked', hranked', heq⟩ := rankDeals_eq_ok_iff.mp (hall _ hrest)
    obtain ⟨r, hr, hrank⟩ := exists_of_mem_left hranked hmem
    cases hranked' with
    | @cons _ r' _ _ hrank' _ =>
      obtain ⟨hid, hoffer, hlow⟩ := steamAppid_of_rankCandidate hrank
      obtain ⟨hid', hoffer', hlow'⟩ := steamAppid_of_rankCandidate hrank'
      have hmem' : r' ∈ ranked := by
        have hsorted : r' ∈ sortBy sortKey ranked := by
          rw [show sortBy sortKey ranked = _ from congrArg DealRanking.candidates heq]
          exact (sortBy_perm _ _).mem_iff.mpr List.mem_cons_self
        exact (sortBy_perm _ _).mem_iff.mp hsorted
      have hsame : r' = r := by
        apply List.inj_on_of_nodup_map hids hmem' hr
        rw [hid, hid', hrearranged.appid]
      subst hsame
      rcases hother with hother | hother
      · exact hother (hoffer'.symm.trans hoffer)
      · exact hother (hlow'.symm.trans hlow)
  · intro hdecided candidates' hrearranged
    have hids' := (hrearranged.map_steamAppid.nodup_iff).mp hnodup
    obtain ⟨middle, hforall, hperm⟩ := hrearranged
    have hmiddle : List.Forall₂ (fun a b => rankCandidate context a = .ok b) middle ranked := by
      clear h hnodup hids hids' hperm
      induction hforall generalizing ranked with
      | nil => exact hranked
      | cons hr _ ih =>
        cases hranked with
        | cons hrank hrest =>
          refine .cons ?_ (ih _ hrest (fun c hc => hdecided c (List.mem_cons_of_mem _ hc)))
          rw [hr.rankCandidate (hdecided _ List.mem_cons_self)]
          exact hrank
    obtain ⟨ranked', hranked', hperm'⟩ :=
      List.perm_comp_forall₂ hperm.symm hmiddle
    rw [rankDeals_eq_ok_iff]
    exact ⟨hids', ranked', hranked', by rw [sortBy_sortKey hperm'.symm hids]⟩

/-! ## Two offers -/

/-- An application with an identity at the provider. -/
def portalProduct : ProductIdentity where
  providerProductId := "620"
  steamAppid := 620
  mapping := "exact"
  positive := of_decide_eq_true rfl
  bounded := of_decide_eq_true rfl
  named := of_decide_eq_true rfl

def fiveDollars : Money :=
  usd 500 (of_decide_eq_true rfl)

def tenDollars : Money :=
  usd 1000 (of_decide_eq_true rfl)

def offerWith (price : Money) (regularPrice : Option Money) : OfferEvidence where
  provider := "gg.deals"
  product := portalProduct
  price := price
  regularPrice := regularPrice
  discountPercent := none
  storeClass := .official
  observedAt := "2026-07-01T00:00:00Z"
  providerUrl := ⟨"https://gg.deals/", "offer", rfl, of_decide_eq_true rfl⟩
  comparability := .normalizedGame
  sellerId := none

def candidateWith (offers : List OfferEvidence) : DealCandidate where
  steamAppid := 620
  snapshots := [⟨"gg.deals", portalProduct, offers, [], "2026-07-01T00:00:00Z", []⟩]
  providerAttempts := [⟨"gg.deals", 0, .ready, none, rfl⟩]
  positive := of_decide_eq_true rfl
  bounded := of_decide_eq_true rfl
  uniqueProviders := List.nodup_singleton _
  attempted := List.forall_mem_singleton.mpr List.mem_cons_self
  products := List.forall_mem_singleton.mpr rfl

theorem officialContext_currency : isCode 3 "USD" = true :=
  rfl

theorem officialContext_country : isCode 2 "US" = true :=
  rfl

theorem officialContext_scope :
    "all_time_official_stores" ≠ "" ∧ "all_time_official_stores".length ≤ 128 :=
  of_decide_eq_true rfl

def officialContext : DealComparisonContext where
  country := "US"
  currency := "USD"
  storeClass := .official
  historyScope := "all_time_official_stores"
  currencyCode := officialContext_currency
  countryCode := officialContext_country
  scopeLength := officialContext_scope

/-- The rearrangement of a snapshot's offers. -/
theorem candidateWith_rearranged {offers offers' : List OfferEvidence} (h : offers.Perm offers') :
    Rearranged CandidateRearranged [candidateWith offers] [candidateWith offers'] := by
  refine ⟨[candidateWith offers'], .cons ⟨rfl, ?_, List.Perm.refl _⟩ .nil, List.Perm.refl _⟩
  exact ⟨(candidateWith offers').snapshots, .cons ⟨h, List.Perm.refl _, rfl⟩ .nil, List.Perm.refl _⟩

/-- Two offers at different prices. -/
def twoPrices : List DealCandidate :=
  [candidateWith [offerWith tenDollars none, offerWith fiveDollars (some tenDollars)]]

/-- The cheaper of two offers is chosen in every order. -/
theorem ranking_rearranged_iff_two :
    ∃ ranking, rankDeals twoPrices officialContext = .ok ranking ∧
      ∀ candidates', Rearranged CandidateRearranged twoPrices candidates' →
        rankDeals candidates' officialContext = .ok ranking := by
  refine ⟨_, rfl, (ranking_rearranged_iff rfl).mpr ?_⟩
  intro candidate hcandidate
  rw [List.mem_singleton.mp hcandidate, ChoiceDecided, if_neg (by decide), if_neg (by decide)]
  have hcheaper : ∀ a, Least offerChoiceKey ((candidateWith
      [offerWith tenDollars none, offerWith fiveDollars (some tenDollars)]).currentOffers
        officialContext) a → a = offerWith fiveDollars (some tenDollars) := by
    intro a ha
    have hmem : a ∈ [offerWith tenDollars none, offerWith fiveDollars (some tenDollars)] :=
      (List.mem_filter.mp ha.1).1
    rcases List.mem_cons.mp hmem with rfl | hmem
    · exact absurd (ha.2 (offerWith fiveDollars (some tenDollars)) (by decide)) (by decide)
    · exact List.mem_singleton.mp hmem
  intro a b ha hb
  rw [hcheaper a ha, hcheaper b hb]

/-- The first of two offers that tie is chosen, and with it the discount. -/
theorem ranking_rearranged_not :
    ¬∀ (candidates candidates' : List DealCandidate) (context : DealComparisonContext)
      (ranking : DealRanking), rankDeals candidates context = .ok ranking →
      Rearranged CandidateRearranged candidates candidates' →
      rankDeals candidates' context = .ok ranking := by
  intro h
  have hsame := h _ _ officialContext _ rfl
    (candidateWith_rearranged (List.Perm.swap (offerWith fiveDollars none)
      (offerWith fiveDollars (some tenDollars)) []))
  have hdiscounts := congrArg (fun ranking => ranking.toOption.map fun r =>
    r.candidates.map (·.discountBps)) hsame
  revert hdiscounts
  decide

end SteamAgent.Deals
