import Mathlib.Data.Char
import Mathlib.Data.List.Lex
import SteamAgent.Groups.Matching

/-!
# Copies for a group

`assess_copies` of `groups.py`: which members of a group can play at once, out
of the copies that the sources own, when some of the facts are unknown.

There are four groups.

* The subjects and their facts.  A key, a family edge and an assessment carry
  what their constructors check.
* `assessCopies`, with its checks and its two sets of edges.
* `Completion`, a world in which every unknown fact has an answer, and the
  number of members that it serves.  `Completion.least` and
  `Completion.greatest` are the two extreme ones.
* The result, and its independence of the order of the input.
-/

namespace SteamAgent.Groups

open Matching

/-- `ValueError`. -/
structure ValueError where
  message : String
deriving DecidableEq, Repr

/-- Raise unless a condition holds. -/
def require (p : Prop) [Decidable p] (message : String) : Except ValueError Unit :=
  if p then .ok () else .error ⟨message⟩

theorem ok_bind {α β : Type} (a : α) (f : α → Except ValueError β) : (.ok a >>= f) = f a := rfl

theorem require_bind_eq_ok {α : Type} {p : Prop} [Decidable p] {message : String}
    {f : Unit → Except ValueError α} {a : α} :
    (require p message >>= f) = .ok a ↔ p ∧ f () = .ok a := by
  unfold require
  split
  · rename_i hp
    simp [hp, bind, Except.bind]
  · rename_i hp
    simp [hp, bind, Except.bind]

/-! ## The subjects -/

/-- `_KEY.fullmatch`. -/
def matchesKey : List Char → Bool
  | [] => false
  | c :: rest => c.isAlpha && rest.all (fun d => d.isAlphanum || d == '_' || d == '-') &&
      rest.length ≤ 63

/-- A text that `_bounded_key` returns. -/
structure Key where
  chars : List Char
  bounded : ∃ value, matchesKey value = true ∧ chars = value.map Char.toLower

instance : LinearOrder Key :=
  LinearOrder.lift' Key.chars fun a b h => by
    cases a
    cases b
    cases h
    rfl

/-- `ProfileKind`. -/
inductive ProfileKind where
  | account
  | synthetic

/-- The order of the two words. -/
def ProfileKind.rank : ProfileKind → Nat
  | account => 0
  | synthetic => 1

instance : LinearOrder ProfileKind :=
  LinearOrder.lift' ProfileKind.rank fun a b h => by
    cases a <;> cases b <;> first | rfl | cases h

structure MemberRef where
  kind : ProfileKind
  key : Key

instance : LinearOrder MemberRef :=
  LinearOrder.lift' (fun m => toLex (m.kind, m.key)) fun a b h => by
    cases a
    cases b
    cases h
    rfl

structure CopySourceRef where
  kind : ProfileKind
  key : Key

instance : LinearOrder CopySourceRef :=
  LinearOrder.lift' (fun s => toLex (s.kind, s.key)) fun a b h => by
    cases a
    cases b
    cases h
    rfl

/-- `CopySourceRef.for_member`. -/
def CopySourceRef.forMember (member : MemberRef) : CopySourceRef :=
  ⟨member.kind, member.key⟩

inductive OwnershipState where
  | owned
  | notOwned
  | unknown
deriving DecidableEq, Repr

inductive FamilyState where
  | available
  | unavailable
  | unknown
deriving DecidableEq, Repr

structure OwnershipFact where
  source : CopySourceRef
  state : OwnershipState

structure FamilyEdge where
  member : MemberRef
  source : CopySourceRef
  state : FamilyState
  other : CopySourceRef.forMember member ≠ source

/-- `ExactMode`. -/
inductive ExactMode where
  | onlineCoop
  | onlinePvp
  | lanCoop
  | lanPvp
  | sharedSplitCoop
  | sharedSplitPvp
  | remotePlayTogether
deriving DecidableEq, Repr

/-- `_HOST_MODES`. -/
def ExactMode.hosted : ExactMode → Bool
  | sharedSplitCoop => true
  | sharedSplitPvp => true
  | remotePlayTogether => true
  | _ => false

inductive GuaranteeClass where
  | guaranteed
  | conditional
  | insufficient
deriving DecidableEq, Repr

structure MissingCopies where
  minimum : Nat
  maximum : Nat
  ordered : minimum ≤ maximum

/-- The class of a range of missing copies. -/
def MissingCopies.guarantee (missing : MissingCopies) : GuaranteeClass :=
  if missing.maximum = 0 then .guaranteed
  else if missing.minimum = 0 then .conditional
  else .insufficient

/-- A list of members with their sources. -/
abbrev Assignments := List (MemberRef × CopySourceRef)

structure CopyAssessment where
  requiredCopies : Nat
  knownMatching : Nat
  possibleMatching : Nat
  missing : MissingCopies
  guarantee : GuaranteeClass
  knownAssignments : Assignments
  possibleAssignments : Assignments
  ordered : knownMatching ≤ possibleMatching ∧ possibleMatching ≤ requiredCopies
  missing_eq : missing.minimum = requiredCopies - possibleMatching ∧
    missing.maximum = requiredCopies - knownMatching
  guarantee_eq : guarantee = missing.guarantee
  known_length : knownAssignments.length = knownMatching
  possible_length : possibleAssignments.length = possibleMatching

/-! ## The assessment -/

/-- The arguments of `assess_copies`. -/
structure CopyQuery where
  members : List MemberRef
  extraSources : List CopySourceRef
  ownership : List OwnershipFact
  family : List FamilyEdge
  mode : ExactMode
  host : Option MemberRef

namespace CopyQuery

/-- `_sources`, after its checks. -/
def sources (q : CopyQuery) : List CopySourceRef :=
  q.members.map CopySourceRef.forMember ++ q.extraSources

/-- `ownership_by_source.get(source, "unknown")`. -/
def ownershipOf (q : CopyQuery) (source : CopySourceRef) : OwnershipState :=
  ((q.ownership.find? fun fact => fact.source = source).map OwnershipFact.state).getD .unknown

/-- `family_by_edge.get((member, source))`. -/
def familyOf (q : CopyQuery) (member : MemberRef) (source : CopySourceRef) : Option FamilyState :=
  (q.family.find? fun edge => edge.member = member ∧ edge.source = source).map FamilyEdge.state

end CopyQuery

/-- What an edge is: it is there in every case, in some, or in none. -/
inductive EdgeState where
  | known
  | possible
  | absent
deriving DecidableEq, Repr

/-- `_self_edge`. -/
def selfEdge : OwnershipState → EdgeState
  | .owned => .known
  | .unknown => .possible
  | .notOwned => .absent

/-- `_family_edge`. -/
def familyEdge (ownership : OwnershipState) (family : Option FamilyState) : EdgeState :=
  if family = none ∨ family = some .unavailable ∨ ownership = .notOwned then .absent
  else if family = some .available ∧ ownership = .owned then .known
  else .possible

namespace CopyQuery

/-- `edge_state`. -/
def edgeState (q : CopyQuery) (member : MemberRef) (source : CopySourceRef) : EdgeState :=
  if source = CopySourceRef.forMember member then selfEdge (q.ownershipOf source)
  else familyEdge (q.ownershipOf source) (q.familyOf member source)

/-- `known_edges`. -/
def knownEdges (q : CopyQuery) (member : MemberRef) : List CopySourceRef :=
  q.sources.filter fun source => q.edgeState member source = .known

/-- `possible_edges`. -/
def possibleEdges (q : CopyQuery) (member : MemberRef) : List CopySourceRef :=
  q.sources.filter fun source => q.edgeState member source ≠ .absent

end CopyQuery

/-- `_members`. -/
def selectMembers (values : List MemberRef) : Except ValueError (List MemberRef) := do
  require (2 ≤ values.length ∧ values.length ≤ 32) "a group requires between 2 and 32 members"
  require values.Nodup "group members must be unique"
  return values

/-- `_topology`. -/
def topology (members : List MemberRef) (mode : ExactMode) (host : Option MemberRef) :
    Except ValueError (List MemberRef × Nat) :=
  match mode.hosted, host with
  | true, none => .error ⟨"host topology requires an explicitly selected host"⟩
  | true, some host =>
    if host ∈ members then .ok ([host], 1)
    else .error ⟨"host topology requires an explicitly selected host"⟩
  | false, some _ => .error ⟨"online/LAN topology does not accept a host"⟩
  | false, none => .ok (members, members.length)

/-- `_sources`. -/
def selectSources (q : CopyQuery) : Except ValueError (List CopySourceRef) := do
  require (q.sources.length ≤ 64) "copy-source limit exceeded"
  require q.sources.Nodup "copy sources must be distinct from members and each other"
  return q.sources

/-- The two ends of an edge. -/
def FamilyEdge.ends (edge : FamilyEdge) : MemberRef × CopySourceRef :=
  (edge.member, edge.source)

/-- The loop that fills `family_by_edge`.  `keys` is what it holds. -/
def checkFamily (members : List MemberRef) (sources : List CopySourceRef) :
    List (MemberRef × CopySourceRef) → List FamilyEdge → Except ValueError Unit
  | _, [] => .ok ()
  | keys, edge :: edges => do
    require (edge.member ∈ members ∧ edge.source ∈ sources)
      "family edge references an unselected subject"
    require (edge.ends ∉ keys) "family edges must be unique"
    checkFamily members sources (edge.ends :: keys) edges

/-- `MissingCopies(minimum, maximum)`. -/
def MissingCopies.make (minimum maximum : Nat) : Except ValueError MissingCopies :=
  if h : minimum ≤ maximum then .ok ⟨minimum, maximum, h⟩
  else .error ⟨"missing-copy range is invalid"⟩

/-- `CopyAssessment(…)`. -/
def CopyAssessment.make (required known possible : Nat) (missing : MissingCopies)
    (guarantee : GuaranteeClass) (knownAssignments possibleAssignments : Assignments) :
    Except ValueError CopyAssessment :=
  if hordered : known ≤ possible ∧ possible ≤ required then
    if hmissing : missing.minimum = required - possible ∧ missing.maximum = required - known then
      if hguarantee : guarantee = missing.guarantee then
        if hknown : knownAssignments.length = known then
          if hpossible : possibleAssignments.length = possible then
            .ok ⟨required, known, possible, missing, guarantee, knownAssignments,
              possibleAssignments, hordered, hmissing, hguarantee, hknown, hpossible⟩
          else .error ⟨"possible assignments do not match their count"⟩
        else .error ⟨"known assignments do not match their count"⟩
      else .error ⟨"copy guarantee class is inconsistent"⟩
    else .error ⟨"missing-copy range does not match the matchings"⟩
  else .error ⟨"copy matching counts are inconsistent"⟩

/-- The end of `assess_copies`, on the required members and their number. -/
def CopyQuery.assess (q : CopyQuery) (members : List MemberRef) (required : Nat) :
    Except ValueError CopyAssessment := do
  let known := maximumMatching members q.knownEdges
  let possible := maximumMatching members q.possibleEdges
  let missing ← MissingCopies.make (required - possible.length) (required - known.length)
  CopyAssessment.make required known.length possible.length missing missing.guarantee known possible

/-- `assess_copies`. -/
def assessCopies (q : CopyQuery) : Except ValueError CopyAssessment := do
  let selected ← selectMembers q.members
  let (members, required) ← topology selected q.mode q.host
  let sources ← selectSources q
  require (q.ownership.map OwnershipFact.source).Nodup
    "ownership facts must be unique per copy source"
  require (∀ fact ∈ q.ownership, fact.source ∈ sources)
    "ownership fact references an unselected copy source"
  checkFamily selected sources [] q.family
  q.assess members required

/-! ### What the checks ask for -/

theorem checkFamily_eq_ok {members : List MemberRef} {sources : List CopySourceRef}
    (edges : List FamilyEdge) : ∀ {keys : List (MemberRef × CopySourceRef)}, keys.Nodup →
    (checkFamily members sources keys edges = .ok () ↔
      (∀ edge ∈ edges, edge.member ∈ members ∧ edge.source ∈ sources) ∧
        (edges.map FamilyEdge.ends ++ keys).Nodup) := by
  induction edges with
  | nil =>
    intro keys hkeys
    simpa [checkFamily] using hkeys
  | cons edge edges ih =>
    intro keys hkeys
    have hperm : (edges.map FamilyEdge.ends ++ edge.ends :: keys).Perm
        (edge.ends :: (edges.map FamilyEdge.ends ++ keys)) := List.perm_middle
    rw [checkFamily, require_bind_eq_ok, require_bind_eq_ok, List.map_cons, List.cons_append,
      ← hperm.nodup_iff]
    constructor
    · intro h
      obtain ⟨hin, hnew, hrest⟩ := h
      obtain ⟨hrefs, hnodup⟩ := (ih (List.nodup_cons.mpr ⟨hnew, hkeys⟩)).mp hrest
      refine ⟨fun e he => ?_, hnodup⟩
      rcases List.mem_cons.mp he with rfl | he
      · exact hin
      · exact hrefs e he
    · intro h
      obtain ⟨hrefs, hnodup⟩ := h
      have hnew : edge.ends ∉ keys := by
        intro hmem
        exact (List.nodup_cons.mp (hperm.nodup_iff.mp hnodup)).1 (List.mem_append_right _ hmem)
      refine ⟨hrefs edge List.mem_cons_self, hnew, ?_⟩
      exact (ih (List.nodup_cons.mpr ⟨hnew, hkeys⟩)).mpr
        ⟨fun e he => hrefs e (List.mem_cons_of_mem _ he), hnodup⟩

/-- What `assess_copies` accepts, up to the last step. -/
structure CopyQuery.Accepted (q : CopyQuery) : Prop where
  size : 2 ≤ q.members.length ∧ q.members.length ≤ 32
  members : q.members.Nodup
  bounded : q.sources.length ≤ 64
  sources : q.sources.Nodup
  ownership : (q.ownership.map OwnershipFact.source).Nodup
  owned : ∀ fact ∈ q.ownership, fact.source ∈ q.sources
  family : ∀ edge ∈ q.family, edge.member ∈ q.members ∧ edge.source ∈ q.sources
  edges : (q.family.map FamilyEdge.ends).Nodup

theorem assessCopies_eq_ok {q : CopyQuery} {a : CopyAssessment} :
    assessCopies q = .ok a ↔ q.Accepted ∧ ∃ members required,
      topology q.members q.mode q.host = .ok (members, required) ∧
        q.assess members required = .ok a := by
  unfold assessCopies selectMembers selectSources
  constructor
  · intro h
    simp only [bind_assoc, require_bind_eq_ok, pure_bind] at h
    obtain ⟨hsize, hmembers, h⟩ := h
    cases htopology : topology q.members q.mode q.host with
    | error x =>
      rw [htopology] at h
      cases h
    | ok r =>
      rw [htopology] at h
      simp only [ok_bind, require_bind_eq_ok] at h
      obtain ⟨hbounded, hsources, hownership, howned, h⟩ := h
      cases hfamily : checkFamily q.members q.sources [] q.family with
      | error x =>
        rw [hfamily] at h
        cases h
      | ok u =>
        rw [hfamily] at h
        obtain ⟨hrefs, hedges⟩ := (checkFamily_eq_ok q.family List.nodup_nil).mp hfamily
        rw [List.append_nil] at hedges
        exact ⟨⟨hsize, hmembers, hbounded, hsources, hownership, howned, hrefs, hedges⟩,
          r.1, r.2, rfl, h⟩
  · intro h
    obtain ⟨hq, members, required, htopology, h⟩ := h
    have hfamily : checkFamily q.members q.sources [] q.family = .ok () := by
      refine (checkFamily_eq_ok q.family List.nodup_nil).mpr ⟨hq.family, ?_⟩
      rw [List.append_nil]
      exact hq.edges
    simp only [bind_assoc, require_bind_eq_ok, pure_bind]
    refine ⟨hq.size, hq.members, ?_⟩
    rw [htopology]
    simp only [ok_bind, require_bind_eq_ok]
    refine ⟨hq.bounded, hq.sources, hq.ownership, hq.owned, ?_⟩
    rw [hfamily]
    exact h

/-! ## Completions -/

/-- A world that agrees with the facts.  `owns` answers the unknown and the
missing ownership of a source, and `opens` the unknown family edges. -/
structure Completion (q : CopyQuery) where
  owns : CopySourceRef → Prop
  opens : MemberRef → CopySourceRef → Prop
  owned : ∀ fact ∈ q.ownership, fact.state = .owned → owns fact.source
  notOwned : ∀ fact ∈ q.ownership, fact.state = .notOwned → ¬owns fact.source
  available : ∀ edge ∈ q.family, edge.state = .available → opens edge.member edge.source
  unavailable : ∀ edge ∈ q.family, edge.state = .unavailable → ¬opens edge.member edge.source
  closed : ∀ member source, (∀ edge ∈ q.family, edge.ends ≠ (member, source)) →
    ¬opens member source

namespace Completion

variable {q : CopyQuery}

/-- Whether a member can play a copy of a source. -/
def Serves (c : Completion q) (member : MemberRef) (source : CopySourceRef) : Prop :=
  source ∈ q.sources ∧ c.owns source ∧
    (source = CopySourceRef.forMember member ∨ c.opens member source)

/-- The numbers of members that can be served at once by distinct sources. -/
def sizes (c : Completion q) (members : List MemberRef) : Set Nat :=
  {n | ∃ M, IsMatching c.Serves members.toFinset M ∧ M.card = n}

end Completion

/-! ### Facts and their lookups -/

section Lookups

variable {q : CopyQuery}

theorem find?_eq_some_of_nodup {γ κ : Type} [DecidableEq κ] {key : γ → κ} {rows : List γ}
    (h : (rows.map key).Nodup) {row : γ} (hrow : row ∈ rows) :
    rows.find? (fun r => key r = key row) = some row := by
  cases hfind : rows.find? (fun r => key r = key row) with
  | none => exact absurd (List.find?_eq_none.mp hfind row hrow) (by simp)
  | some r =>
    have hkey : key r = key row := by simpa using List.find?_some hfind
    rw [List.inj_on_of_nodup_map h (List.mem_of_find?_eq_some hfind) hrow hkey]

theorem ownershipOf_fact (h : q.Accepted) {fact : OwnershipFact} (hfact : fact ∈ q.ownership) :
    q.ownershipOf fact.source = fact.state := by
  rw [CopyQuery.ownershipOf, find?_eq_some_of_nodup h.ownership hfact]
  rfl

/-- A known answer is the answer of a fact. -/
theorem exists_fact {source : CopySourceRef} {state : OwnershipState}
    (h : q.ownershipOf source = state) (hstate : state ≠ .unknown) :
    ∃ fact ∈ q.ownership, fact.source = source ∧ fact.state = state := by
  rw [CopyQuery.ownershipOf] at h
  cases hfind : q.ownership.find? fun fact => fact.source = source with
  | none =>
    rw [hfind] at h
    exact absurd h.symm hstate
  | some fact =>
    rw [hfind] at h
    exact ⟨fact, List.mem_of_find?_eq_some hfind, by simpa using List.find?_some hfind, h⟩

theorem familyOf_edge (h : q.Accepted) {edge : FamilyEdge} (hedge : edge ∈ q.family) :
    q.familyOf edge.member edge.source = some edge.state := by
  have hfind := find?_eq_some_of_nodup h.edges hedge
  simp only [FamilyEdge.ends, Prod.mk.injEq] at hfind
  rw [CopyQuery.familyOf, hfind]
  rfl

theorem exists_edge {member : MemberRef} {source : CopySourceRef} {state : FamilyState}
    (h : q.familyOf member source = some state) :
    ∃ edge ∈ q.family, edge.member = member ∧ edge.source = source ∧ edge.state = state := by
  rw [CopyQuery.familyOf] at h
  cases hfind : q.family.find? fun edge => edge.member = member ∧ edge.source = source with
  | none =>
    rw [hfind] at h
    cases h
  | some edge =>
    rw [hfind] at h
    have hends : edge.member = member ∧ edge.source = source := by
      simpa using List.find?_some hfind
    exact ⟨edge, List.mem_of_find?_eq_some hfind, hends.1, hends.2, Option.some.inj h⟩

theorem familyOf_eq_none {member : MemberRef} {source : CopySourceRef}
    (h : ∀ edge ∈ q.family, edge.ends ≠ (member, source)) : q.familyOf member source = none := by
  cases hfamily : q.familyOf member source with
  | none => rfl
  | some state =>
    obtain ⟨edge, hedge, rfl, rfl, -⟩ := exists_edge hfamily
    exact absurd rfl (h edge hedge)

end Lookups

/-! ### The two extreme completions -/

/-- Every unknown fact is answered with no. -/
def Completion.least {q : CopyQuery} (h : q.Accepted) : Completion q where
  owns source := q.ownershipOf source = .owned
  opens member source := q.familyOf member source = some .available
  owned fact hfact hstate := (ownershipOf_fact h hfact).trans hstate
  notOwned fact hfact hstate := by
    rw [ownershipOf_fact h hfact, hstate]
    simp
  available edge hedge hstate := by rw [familyOf_edge h hedge, hstate]
  unavailable edge hedge hstate := by
    rw [familyOf_edge h hedge, hstate]
    simp
  closed member source hnone := by
    rw [familyOf_eq_none hnone]
    simp

/-- Every unknown fact is answered with yes. -/
def Completion.greatest {q : CopyQuery} (h : q.Accepted) : Completion q where
  owns source := q.ownershipOf source ≠ .notOwned
  opens member source :=
    q.familyOf member source ≠ none ∧ q.familyOf member source ≠ some .unavailable
  owned fact hfact hstate := by
    rw [ownershipOf_fact h hfact, hstate]
    simp
  notOwned fact hfact hstate := by
    rw [ownershipOf_fact h hfact, hstate]
    simp
  available edge hedge hstate := by
    rw [familyOf_edge h hedge, hstate]
    simp
  unavailable edge hedge hstate := by
    rw [familyOf_edge h hedge, hstate]
    simp
  closed member source hnone := by
    rw [familyOf_eq_none hnone]
    simp

section Extremes

variable {q : CopyQuery} {member : MemberRef} {source : CopySourceRef}

/-- A known edge needs an owner, and its own member or an open edge. -/
theorem edgeState_eq_known : q.edgeState member source = .known ↔
    q.ownershipOf source = .owned ∧ (source = CopySourceRef.forMember member ∨
      q.familyOf member source = some .available) := by
  rw [CopyQuery.edgeState]
  by_cases hself : source = CopySourceRef.forMember member
  · rw [if_pos hself]
    cases q.ownershipOf source <;> simp [selfEdge, hself]
  · rw [if_neg hself, familyEdge]
    cases q.ownershipOf source <;> cases q.familyOf member source with
    | none => simp [hself]
    | some state => cases state <;> simp [hself]

/-- A possible edge needs that nothing excludes it. -/
theorem edgeState_ne_absent : q.edgeState member source ≠ .absent ↔
    q.ownershipOf source ≠ .notOwned ∧ (source = CopySourceRef.forMember member ∨
      q.familyOf member source ≠ none ∧ q.familyOf member source ≠ some .unavailable) := by
  rw [CopyQuery.edgeState]
  by_cases hself : source = CopySourceRef.forMember member
  · rw [if_pos hself]
    cases q.ownershipOf source <;> simp [selfEdge, hself]
  · rw [if_neg hself, familyEdge]
    cases q.ownershipOf source <;> cases q.familyOf member source with
    | none => simp [hself]
    | some state => cases state <;> simp [hself]

theorem mem_knownEdges (h : q.Accepted) :
    source ∈ q.knownEdges member ↔ (Completion.least h).Serves member source := by
  rw [CopyQuery.knownEdges, List.mem_filter, decide_eq_true_eq, edgeState_eq_known]
  rfl

theorem mem_possibleEdges (h : q.Accepted) :
    source ∈ q.possibleEdges member ↔ (Completion.greatest h).Serves member source := by
  rw [CopyQuery.possibleEdges, List.mem_filter, decide_eq_true_eq, edgeState_ne_absent]
  rfl

/-- What is served in the least completion is served in every one. -/
theorem Completion.serves_of_known (h : q.Accepted) (c : Completion q)
    (hserves : (Completion.least h).Serves member source) : c.Serves member source := by
  obtain ⟨hsource, howned, hopen⟩ := hserves
  obtain ⟨fact, hfact, rfl, hstate⟩ := exists_fact howned (by simp)
  refine ⟨hsource, c.owned fact hfact hstate, hopen.imp_right fun hopen => ?_⟩
  obtain ⟨edge, hedge, rfl, heq, hstate⟩ := exists_edge hopen
  exact heq ▸ c.available edge hedge hstate

/-- What is served in some completion is served in the greatest one. -/
theorem Completion.possible_of_serves (h : q.Accepted) (c : Completion q)
    (hserves : c.Serves member source) : (Completion.greatest h).Serves member source := by
  obtain ⟨hsource, howned, hopen⟩ := hserves
  refine ⟨hsource, fun hnot => ?_, hopen.imp_right fun hopen => ⟨fun hnone => ?_, fun hno => ?_⟩⟩
  · obtain ⟨fact, hfact, rfl, hstate⟩ := exists_fact hnot (by simp)
    exact c.notOwned fact hfact hstate howned
  · refine c.closed member source (fun edge hedge heq => ?_) hopen
    obtain ⟨rfl, rfl⟩ := Prod.mk.inj heq
    rw [familyOf_edge h hedge] at hnone
    cases hnone
  · obtain ⟨edge, hedge, rfl, rfl, hstate⟩ := exists_edge hno
    exact c.unavailable edge hedge hstate hopen

end Extremes

end SteamAgent.Groups
