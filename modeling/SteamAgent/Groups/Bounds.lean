import SteamAgent.Groups.Copies

/-!
# The bounds of an assessment

`assess_copies` bounds what the group can do in every completion of the facts.
The matching of the known edges is the one of the least completion, and the
matching of the possible edges the one of the greatest.  Both are maximum
matchings, so the two numbers are the extreme ones over all completions.

There are three groups.

* What a successful call has computed.
* `CopyBounds`, the meaning of its numbers and of its class.
* `Reordered`: the same members, sources, facts and edges in another order
  give the same assessment.
-/

namespace SteamAgent.Groups

open Matching

variable {q q' : CopyQuery} {a : CopyAssessment} {members members' : List MemberRef}
  {required : Nat}

/-! ## What was computed -/

theorem topology_eq_ok {selected : List MemberRef} {mode : ExactMode} {host : Option MemberRef}
    (h : topology selected mode host = .ok (members, required)) (hnodup : selected.Nodup) :
    members.Nodup ∧ members.length = required := by
  unfold topology at h
  split at h
  · cases h
  · split at h
    · cases h
      exact ⟨List.nodup_singleton _, rfl⟩
    · cases h
  · cases h
  · cases h
    exact ⟨hnodup, rfl⟩

theorem CopyAssessment.make_eq_ok {known possible : Nat} {missing : MissingCopies}
    {guarantee : GuaranteeClass} {knownAssignments possibleAssignments : Assignments}
    (h : CopyAssessment.make required known possible missing guarantee knownAssignments
      possibleAssignments = .ok a) :
    a.requiredCopies = required ∧ a.knownAssignments = knownAssignments ∧
      a.possibleAssignments = possibleAssignments := by
  unfold CopyAssessment.make at h
  split_ifs at h
  cases h
  exact ⟨rfl, rfl, rfl⟩

/-- The assessment holds the two matchings. -/
theorem assess_eq_ok (h : q.assess members required = .ok a) :
    a.requiredCopies = required ∧
      a.knownAssignments = maximumMatching members q.knownEdges ∧
      a.possibleAssignments = maximumMatching members q.possibleEdges := by
  unfold CopyQuery.assess at h
  cases hmissing : MissingCopies.make (required - (maximumMatching members q.possibleEdges).length)
      (required - (maximumMatching members q.knownEdges).length) with
  | error x =>
    simp only [hmissing] at h
    cases h
  | ok missing =>
    simp only [hmissing] at h
    exact CopyAssessment.make_eq_ok h

/-- Every member of the guarantee class is reached by one range of numbers. -/
theorem guaranteed_iff (a : CopyAssessment) :
    a.guarantee = .guaranteed ↔ a.requiredCopies ≤ a.knownMatching := by
  have hmissing := a.missing_eq
  rw [a.guarantee_eq, MissingCopies.guarantee]
  split_ifs with hmax hmin
  · simp only [true_iff]
    omega
  · simp only [false_iff]
    omega
  · simp only [false_iff]
    omega

theorem insufficient_iff (a : CopyAssessment) :
    a.guarantee = .insufficient ↔ a.possibleMatching < a.requiredCopies := by
  have hmissing := a.missing_eq
  have hordered := a.missing.ordered
  rw [a.guarantee_eq, MissingCopies.guarantee]
  split_ifs with hmax hmin
  · simp only [false_iff]
    omega
  · simp only [false_iff]
    omega
  · simp only [true_iff]
    omega

/-! ## What it means -/

/-- Pairs of distinct members with distinct sources that serve them. -/
structure ValidAssignments (c : Completion q) (members : List MemberRef)
    (assignments : Assignments) : Prop where
  nodup : assignments.Nodup
  matching : IsMatching c.Serves members.toFinset assignments.toFinset

/-- The meaning of an assessment of the required members: its numbers are the
extreme ones over all completions, and its class says which completions serve
everybody. -/
structure CopyBounds (q : CopyQuery) (members : List MemberRef) (a : CopyAssessment) : Prop where
  known : IsLeast {n | ∃ c : Completion q, IsGreatest (c.sizes members) n} a.knownMatching
  possible : IsGreatest {n | ∃ c : Completion q, IsGreatest (c.sizes members) n} a.possibleMatching
  knownAssignments : ∀ c : Completion q, ValidAssignments c members a.knownAssignments
  knownLength : a.knownAssignments.length = a.knownMatching
  possibleAssignments : ∃ c : Completion q, ValidAssignments c members a.possibleAssignments
  possibleLength : a.possibleAssignments.length = a.possibleMatching
  guaranteed : a.guarantee = .guaranteed ↔ ∀ c : Completion q, members.length ∈ c.sizes members
  insufficient : a.guarantee = .insufficient ↔
    ∀ c : Completion q, members.length ∉ c.sizes members

/-- A maximum matching of the edges of a completion. -/
theorem maximum_of_serves {edges : MemberRef → List CopySourceRef} {c : Completion q}
    (hnodup : members.Nodup)
    (hedges : ∀ member source, source ∈ edges member ↔ c.Serves member source) :
    IsMaximum c.Serves members.toFinset (maximumMatching members edges).toFinset ∧
      (maximumMatching members edges).Nodup ∧
      (maximumMatching members edges).toFinset.card = (maximumMatching members edges).length := by
  obtain ⟨hmax, hlength⟩ := @isMaximum_maximumMatching _ _ _ _ edges members hnodup
  have hserves : (fun member source => source ∈ edges member) = c.Serves := by
    funext member source
    exact propext (hedges member source)
  rw [hserves] at hmax
  refine ⟨hmax, ?_, hlength.symm⟩
  exact Multiset.toFinset_card_eq_card_iff_nodup.mp hlength.symm

theorem copyBounds (hq : q.Accepted) (hnodup : members.Nodup)
    (h : q.assess members members.length = .ok a) : CopyBounds q members a := by
  obtain ⟨hrequired, hknown, hpossible⟩ := assess_eq_ok h
  obtain ⟨hleast, hknownNodup, hknownCard⟩ := maximum_of_serves hnodup fun member source =>
    (mem_knownEdges hq : source ∈ q.knownEdges member ↔ _)
  obtain ⟨hgreatest, hpossibleNodup, hpossibleCard⟩ := maximum_of_serves hnodup
    fun member source => (mem_possibleEdges hq : source ∈ q.possibleEdges member ↔ _)
  rw [← hknown] at hleast hknownNodup hknownCard
  rw [← hpossible] at hgreatest hpossibleNodup hpossibleCard
  rw [a.known_length] at hknownCard
  rw [a.possible_length] at hpossibleCard
  have hknownIn : ∀ c : Completion q,
      IsMatching c.Serves members.toFinset a.knownAssignments.toFinset := fun c =>
    hleast.matching.mono fun _ _ _ hserves => c.serves_of_known hq hserves
  have hpossibleOf : ∀ (c : Completion q) n, n ∈ c.sizes members → n ≤ a.possibleMatching := by
    intro c n hn
    obtain ⟨N, hN, rfl⟩ := hn
    rw [← hpossibleCard]
    exact hgreatest.most N (hN.mono fun _ _ _ hserves => c.possible_of_serves hq hserves)
  have hknownMem : ∀ c : Completion q, a.knownMatching ∈ c.sizes members := fun c =>
    ⟨_, hknownIn c, hknownCard⟩
  have hleastGreatest : IsGreatest ((Completion.least hq).sizes members) a.knownMatching := by
    rw [← hknownCard]
    exact hleast.isGreatest
  have hgreatestGreatest :
      IsGreatest ((Completion.greatest hq).sizes members) a.possibleMatching := by
    rw [← hpossibleCard]
    exact hgreatest.isGreatest
  have hle : a.possibleMatching ≤ members.length := hrequired ▸ a.ordered.2
  refine ⟨⟨⟨_, hleastGreatest⟩, ?_⟩, ⟨⟨_, hgreatestGreatest⟩, ?_⟩, fun c => ⟨hknownNodup, hknownIn c⟩,
    a.known_length, ⟨Completion.greatest hq, hpossibleNodup, hgreatest.matching⟩, a.possible_length,
    ?_, ?_⟩
  · intro n hn
    obtain ⟨c, hc⟩ := hn
    exact hc.2 (hknownMem c)
  · intro n hn
    obtain ⟨c, hc⟩ := hn
    exact hpossibleOf c n hc.1
  · rw [guaranteed_iff, hrequired]
    constructor
    · intro hall c
      have heq : a.knownMatching = members.length :=
        Nat.le_antisymm (a.ordered.1.trans hle) hall
      exact heq ▸ hknownMem c
    · intro hall
      exact hleastGreatest.2 (hall (Completion.least hq))
  · rw [insufficient_iff, hrequired]
    constructor
    · intro hfew c hmem
      exact absurd (hpossibleOf c _ hmem) (Nat.not_le.mpr hfew)
    · intro hnone
      refine Nat.lt_of_le_of_ne hle fun heq => ?_
      exact hnone (Completion.greatest hq) (heq ▸ hgreatestGreatest.1)

/-! ## Other orders -/

/-- The same query with its members, sources, facts and edges in another
order. -/
structure Reordered (q q' : CopyQuery) : Prop where
  members : q.members.Perm q'.members
  extraSources : q.extraSources.Perm q'.extraSources
  ownership : q.ownership.Perm q'.ownership
  family : q.family.Perm q'.family
  mode : q'.mode = q.mode
  host : q'.host = q.host

namespace Reordered

theorem sources (h : Reordered q q') : q.sources.Perm q'.sources :=
  (h.members.map _).append h.extraSources

theorem accepted (h : Reordered q q') (hq : q.Accepted) : q'.Accepted where
  size := h.members.length_eq ▸ hq.size
  members := h.members.nodup_iff.mp hq.members
  bounded := h.sources.length_eq ▸ hq.bounded
  sources := h.sources.nodup_iff.mp hq.sources
  ownership := (h.ownership.map _).nodup_iff.mp hq.ownership
  owned fact hfact := h.sources.mem_iff.mp (hq.owned fact (h.ownership.mem_iff.mpr hfact))
  family edge hedge := by
    obtain ⟨hmember, hsource⟩ := hq.family edge (h.family.mem_iff.mpr hedge)
    exact ⟨h.members.mem_iff.mp hmember, h.sources.mem_iff.mp hsource⟩
  edges := (h.family.map _).nodup_iff.mp hq.edges

/-- The facts say the same. -/
theorem ownershipOf (h : Reordered q q') (hq : q.Accepted) (source : CopySourceRef) :
    q'.ownershipOf source = q.ownershipOf source := by
  by_cases hfact : ∃ fact ∈ q.ownership, fact.source = source
  · obtain ⟨fact, hfact, rfl⟩ := hfact
    rw [ownershipOf_fact hq hfact,
      ownershipOf_fact (h.accepted hq) (h.ownership.mem_iff.mp hfact)]
  · have hnone : ∀ {p : CopyQuery}, (∀ fact ∈ p.ownership, fact.source ≠ source) →
        p.ownershipOf source = .unknown := by
      intro p hp
      rw [CopyQuery.ownershipOf, List.find?_eq_none.mpr fun fact hfact => by simpa using hp fact hfact]
      rfl
    rw [hnone fun fact hmem heq => hfact ⟨fact, hmem, heq⟩,
      hnone fun fact hmem heq => hfact ⟨fact, h.ownership.mem_iff.mpr hmem, heq⟩]

theorem familyOf (h : Reordered q q') (hq : q.Accepted) (member : MemberRef)
    (source : CopySourceRef) : q'.familyOf member source = q.familyOf member source := by
  by_cases hedge : ∃ edge ∈ q.family, edge.ends = (member, source)
  · obtain ⟨edge, hedge, heq⟩ := hedge
    obtain ⟨rfl, rfl⟩ := Prod.mk.inj heq
    rw [familyOf_edge hq hedge, familyOf_edge (h.accepted hq) (h.family.mem_iff.mp hedge)]
  · rw [familyOf_eq_none fun edge hmem heq => hedge ⟨edge, hmem, heq⟩,
      familyOf_eq_none fun edge hmem heq => hedge ⟨edge, h.family.mem_iff.mpr hmem, heq⟩]

theorem edgeState (h : Reordered q q') (hq : q.Accepted) (member : MemberRef)
    (source : CopySourceRef) : q'.edgeState member source = q.edgeState member source := by
  rw [CopyQuery.edgeState, CopyQuery.edgeState, h.ownershipOf hq, h.familyOf hq]

theorem knownEdges (h : Reordered q q') (hq : q.Accepted) (member : MemberRef) :
    (q.knownEdges member).Perm (q'.knownEdges member) := by
  simp only [CopyQuery.knownEdges, h.edgeState hq]
  exact h.sources.filter _

theorem possibleEdges (h : Reordered q q') (hq : q.Accepted) (member : MemberRef) :
    (q.possibleEdges member).Perm (q'.possibleEdges member) := by
  simp only [CopyQuery.possibleEdges, h.edgeState hq]
  exact h.sources.filter _

/-- The required members are the same. -/
theorem topology (h : Reordered q q')
    (htopology : topology q.members q.mode q.host = .ok (members, required)) :
    ∃ members', Groups.topology q'.members q'.mode q'.host = .ok (members', required) ∧
      members.Perm members' := by
  rw [h.mode, h.host]
  unfold Groups.topology at htopology ⊢
  cases hmode : q.mode.hosted with
  | true =>
    cases hhost : q.host with
    | none =>
      simp only [hmode, hhost] at htopology
      cases htopology
    | some host =>
      simp only [hmode, hhost] at htopology ⊢
      split_ifs at htopology with hin
      cases htopology
      exact ⟨[host], by rw [if_pos (h.members.mem_iff.mp hin)], .refl _⟩
  | false =>
    cases hhost : q.host with
    | none =>
      simp only [hmode, hhost] at htopology ⊢
      cases htopology
      exact ⟨q'.members, by rw [h.members.length_eq], h.members⟩
    | some host =>
      simp only [hmode, hhost] at htopology
      cases htopology

theorem assess (h : Reordered q q') (hq : q.Accepted) (hmembers : members.Perm members') :
    q'.assess members' required = q.assess members required := by
  rw [CopyQuery.assess, CopyQuery.assess, maximumMatching_congr hmembers (h.knownEdges hq),
    maximumMatching_congr hmembers (h.possibleEdges hq)]

end Reordered

/-- An accepted assessment bounds every completion exactly, and does not depend
on the order of the query. -/
theorem group_copy_bounds (q : CopyQuery) (a : CopyAssessment) (h : assessCopies q = .ok a) :
    (∃ members, topology q.members q.mode q.host = .ok (members, a.requiredCopies) ∧
      CopyBounds q members a) ∧
    ∀ q', Reordered q q' → assessCopies q' = .ok a := by
  obtain ⟨hq, members, required, htopology, hassess⟩ := assessCopies_eq_ok.mp h
  obtain ⟨hnodup, hlength⟩ := topology_eq_ok htopology hq.members
  have hrequired := (assess_eq_ok hassess).1
  refine ⟨⟨members, hrequired ▸ htopology, copyBounds hq hnodup (hlength.symm ▸ hassess)⟩, ?_⟩
  intro q' hreordered
  obtain ⟨members', htopology', hperm⟩ := hreordered.topology htopology
  refine assessCopies_eq_ok.mpr ⟨hreordered.accepted hq, members', required, htopology', ?_⟩
  rw [hreordered.assess hq hperm]
  exact hassess

/-! ## A group -/

/-- Two accounts: the first owns the game, and the second may have it. -/
def twoAccounts : CopyQuery :=
  let ann : MemberRef := ⟨.account, ['a'], ['a'], rfl, rfl⟩
  let bob : MemberRef := ⟨.account, ['b'], ['b'], rfl, rfl⟩
  { members := [ann, bob]
    extraSources := []
    ownership := [⟨.forMember ann, .owned⟩, ⟨.forMember bob, .unknown⟩]
    family := []
    mode := .onlineCoop
    host := none }

theorem group_copy_bounds_two : ∃ a, assessCopies twoAccounts = .ok a ∧
    ∃ members, CopyBounds twoAccounts members a := by
  have hok : (assessCopies twoAccounts).toOption.isSome = true := by decide +kernel
  cases h : assessCopies twoAccounts with
  | error x =>
    rw [h] at hok
    cases hok
  | ok a =>
    obtain ⟨⟨members, -, hbounds⟩, -⟩ := group_copy_bounds twoAccounts a h
    exact ⟨a, rfl, members, hbounds⟩

end SteamAgent.Groups
