import SteamAgent.Deals.PriceSync
import SteamAgent.Stdlib.Result

/-!
# When a price sync is complete

There are six groups.

* Facts and outcomes.
* The GG.deals rung: `ggLoop_spec`.
* The CheapShark rung: `cheapLoop_spec`.
* Recorded runs.
* The sync: `sync_completeness`.
* A later attempt that masks a failure.
-/

namespace SteamAgent.Deals

open Result (bind_eq_ok bind_eq_error)

/-! ## Facts and outcomes -/

theorem validateContext_error {price : Money} {failure : Failure}
    (h : validateContext price = .error failure) : failure.isSync = true := by
  rw [validateContext] at h
  split at h
  · rw [← Except.error.inj h]
    rfl
  · cases h

theorem offerFact_error {snapshot : DealEvidenceSnapshot} {item : OfferEvidence × Nat}
    {failure : Failure} (h : offerFact snapshot item = .error failure) :
    failure.isSync = true := by
  rw [offerFact] at h
  dsimp only at h
  split at h
  · rw [← Except.error.inj h]
    rfl
  · rcases bind_eq_error.mp h with h | ⟨_, -, h⟩
    · exact validateContext_error h
    · cases hregular : item.1.regularPrice with
      | none =>
        rw [hregular] at h
        cases h
      | some price =>
        rw [hregular] at h
        rcases bind_eq_error.mp h with h | ⟨_, -, h⟩
        · exact validateContext_error h
        · cases h

theorem offerFact_kind {snapshot : DealEvidenceSnapshot} {item : OfferEvidence × Nat}
    {fact : PriceFact} (h : offerFact snapshot item = .ok fact) : fact.factKind = .offer := by
  rw [offerFact] at h
  dsimp only at h
  split at h
  · cases h
  · obtain ⟨_, -, h⟩ := bind_eq_ok.mp h
    cases hregular : item.1.regularPrice with
    | none =>
      rw [hregular] at h
      cases h
      rfl
    | some price =>
      rw [hregular] at h
      obtain ⟨_, -, h⟩ := bind_eq_ok.mp h
      cases h
      rfl

theorem lowFact_error {snapshot : DealEvidenceSnapshot} {item : HistoricalLowSummary × Nat}
    {failure : Failure} (h : lowFact snapshot item = .error failure) : failure.isSync = true := by
  rw [lowFact] at h
  split at h
  · rw [← Except.error.inj h]
    rfl
  · rcases bind_eq_error.mp h with h | ⟨_, -, h⟩
    · exact validateContext_error h
    · cases h

theorem lowFact_kind {snapshot : DealEvidenceSnapshot} {item : HistoricalLowSummary × Nat}
    {fact : PriceFact} (h : lowFact snapshot item = .ok fact) :
    fact.factKind = .historicalLow := by
  rw [lowFact] at h
  split at h
  · cases h
  · obtain ⟨_, -, h⟩ := bind_eq_ok.mp h
    cases h
    rfl

/-- A snapshot that is refused is refused by the sync itself. -/
theorem factsOf_error {snapshot : DealEvidenceSnapshot} {failure : Failure}
    (h : factsOf snapshot = .error failure) : failure.isSync = true := by
  rw [factsOf] at h
  split at h
  · rw [← Except.error.inj h]
    rfl
  · rcases bind_eq_error.mp h with h | ⟨offers, -, h⟩
    · obtain ⟨item, -, h⟩ := Result.exists_of_mapM_eq_error h
      exact offerFact_error h
    · rcases bind_eq_error.mp h with h | ⟨lows, -, h⟩
      · obtain ⟨item, -, h⟩ := Result.exists_of_mapM_eq_error h
        exact lowFact_error h
      · cases h

/-- The facts of a snapshot have an offer when the snapshot has one. -/
theorem factsOf_offer {snapshot : DealEvidenceSnapshot} {facts : List PriceFact}
    (h : factsOf snapshot = .ok facts) :
    (facts.any fun fact => fact.factKind == .offer) = true ↔ snapshot.offers ≠ [] := by
  rw [factsOf, Result.guard_eq_ok] at h
  obtain ⟨offers, hoffers, h⟩ := bind_eq_ok.mp h.2
  obtain ⟨lows, hlows, h⟩ := bind_eq_ok.mp h
  cases h
  have hoffers := Result.mapM_eq_ok_iff.mp hoffers
  have hlows := Result.mapM_eq_ok_iff.mp hlows
  rw [List.any_eq_true]
  constructor
  · intro h hnil
    obtain ⟨fact, hfact, hkind⟩ := h
    rcases List.mem_append.mp hfact with hfact | hfact
    · obtain ⟨item, hitem, -⟩ := Result.exists_of_mem_right hoffers hfact
      rw [hnil] at hitem
      cases hitem
    · obtain ⟨item, -, hmade⟩ := Result.exists_of_mem_right hlows hfact
      rw [lowFact_kind hmade] at hkind
      cases hkind
  · intro hne
    obtain ⟨offer, rest, heq⟩ := List.exists_cons_of_ne_nil hne
    have hitem : (offer, 0) ∈ snapshot.offers.zipIdx := by
      rw [heq]
      exact List.mem_cons_self
    obtain ⟨fact, hfact, hmade⟩ := Result.exists_of_mem_left hoffers hitem
    exact ⟨fact, List.mem_append_left _ hfact, beq_iff_eq.mpr (offerFact_kind hmade)⟩

theorem keysOf_setOutcome (outcomes : List (Nat × Outcome)) (appid : Nat) (outcome : Outcome) :
    keysOf (setOutcome outcomes appid outcome) = insert appid (keysOf outcomes) := by
  ext a
  rw [setOutcome, keysOf, keysOf, List.mem_toFinset, Finset.mem_insert, List.mem_toFinset]
  by_cases hany : (outcomes.any fun entry => entry.1 == appid) = true
  · rw [if_pos hany]
    obtain ⟨entry, hentry, heq⟩ := List.any_eq_true.mp hany
    rw [beq_iff_eq] at heq
    have hsame : (outcomes.map fun entry =>
        if entry.1 = appid then (appid, outcome) else entry).map Prod.fst =
        outcomes.map Prod.fst := by
      rw [List.map_map]
      apply List.map_congr_left
      intro entry' _
      show (if entry'.1 = appid then (appid, outcome) else entry').1 = entry'.1
      split
      · rename_i heq'
        exact heq'.symm
      · rfl
    rw [hsame]
    constructor
    · exact .inr
    · intro h
      rcases h with rfl | h
      · exact List.mem_map.mpr ⟨entry, hentry, heq⟩
      · exact h
  · rw [if_neg hany, List.map_append, List.mem_append, or_comm]
    exact or_congr_left List.mem_singleton

/-! ## The GG.deals rung -/

/-- The snapshots and the AppIDs that were not found are a partition of the batch. -/
def Partitions (appids : List Nat) (batch : GgBatch) : Prop :=
  (batch.snapshots.map (fun snapshot => snapshot.product.steamAppid) ++
    batch.notFoundAppids).Perm appids

/-- A snapshot of the batch has a current offer of the AppID. -/
def Offers (batch : GgBatch) (appid : Nat) : Prop :=
  ∃ snapshot ∈ batch.snapshots, snapshot.product.steamAppid = appid ∧ snapshot.offers ≠ []

/-- The batches up to the first error of the client. -/
def answeredBatches (clients : Clients) (batches : List (List Nat)) : List (List Nat) :=
  batches.takeWhile fun appids => (clients.fetchAppPriceSummaries appids).isOk

/-- The client answered with a current offer. -/
def GotOffer (clients : Clients) (batches : List (List Nat)) (appid : Nat) : Prop :=
  ∃ appids ∈ answeredBatches clients batches, ∃ batch,
    clients.fetchAppPriceSummaries appids = .ok batch ∧ Offers batch appid

/-- What the loop over some snapshots leaves behind: one is refused, or all are taken. -/
def Taken (before : GgState) (snapshots : List DealEvidenceSnapshot) (after : GgState) : Prop :=
  (after.failure.any Failure.isSync = true ∧
      ∃ snapshot ∈ snapshots, ∀ facts, factsOf snapshot ≠ .ok facts) ∨
    after.failure = none ∧ (∀ snapshot ∈ snapshots, ∃ facts, factsOf snapshot = .ok facts) ∧
      after.evaluated = before.evaluated ∧
      (∀ a, a ∈ keysOf after.outcomes ↔ a ∈ keysOf before.outcomes ∨
        a ∈ snapshots.map fun snapshot => snapshot.product.steamAppid) ∧
      ∀ a, a ∈ after.candidates ↔ a ∈ before.candidates ∨
        ∃ snapshot ∈ snapshots, snapshot.product.steamAppid = a ∧ snapshot.offers = []

/-- The first snapshot is taken. -/
theorem Taken.cons {before next after : GgState} {snapshot : DealEvidenceSnapshot}
    {snapshots : List DealEvidenceSnapshot} {facts : List PriceFact}
    (h : Taken next snapshots after) (hfacts : factsOf snapshot = .ok facts)
    (hevaluated : next.evaluated = before.evaluated)
    (hkeys : keysOf next.outcomes = insert snapshot.product.steamAppid (keysOf before.outcomes))
    (hcandidates : ∀ a, a ∈ next.candidates ↔ a ∈ before.candidates ∨
      snapshot.product.steamAppid = a ∧ snapshot.offers = []) :
    Taken before (snapshot :: snapshots) after := by
  rcases h with ⟨hsync, refused, hrefused, hnone⟩ |
    ⟨hfailure, hall, hevaluated', hkeys', hcandidates'⟩
  · exact .inl ⟨hsync, refused, List.mem_cons_of_mem _ hrefused, hnone⟩
  · refine .inr ⟨hfailure, List.forall_mem_cons.mpr ⟨⟨facts, hfacts⟩, hall⟩,
      hevaluated'.trans hevaluated, fun a => ?_, fun a => ?_⟩
    · rw [hkeys', hkeys, Finset.mem_insert, List.map_cons, List.mem_cons]
      tauto
    · rw [hcandidates', hcandidates, List.exists_mem_cons_iff, or_assoc]

/-- The loop over the snapshots: all are taken, or one is refused. -/
theorem takeSnapshots_spec {snapshots : List DealEvidenceSnapshot} {state : GgState}
    (hstate : state.failure = none) : Taken state snapshots (takeSnapshots state snapshots) := by
  induction snapshots generalizing state with
  | nil =>
    refine .inr ⟨hstate, List.forall_mem_nil _, rfl, fun a => ?_, fun a => ?_⟩
    · exact (or_iff_left List.not_mem_nil).symm
    · exact (or_iff_left fun h => List.not_mem_nil h.choose_spec.1).symm
  | cons snapshot snapshots ih =>
    cases hfacts : factsOf snapshot with
    | error failure =>
      have heq : takeSnapshots state (snapshot :: snapshots) =
          { state with failure := some failure } := by
        rw [takeSnapshots, hfacts]
      rw [heq]
      refine .inl ⟨factsOf_error hfacts, snapshot, List.mem_cons_self, fun facts h => ?_⟩
      rw [hfacts] at h
      cases h
    | ok facts =>
      have hoffers := factsOf_offer hfacts
      cases facts with
      | nil =>
        have hnil : snapshot.offers = [] := by
          by_contra hne
          cases hoffers.mpr hne
        simp only [takeSnapshots, hfacts]
        refine Taken.cons (ih ?_) hfacts ?_ (keysOf_setOutcome _ _ _) fun a => ?_
        · exact hstate
        · rfl
        · rw [List.mem_append, List.mem_singleton, and_iff_left hnil, eq_comm]
      | cons fact facts =>
        simp only [takeSnapshots, hfacts]
        refine Taken.cons (ih ?_) hfacts ?_ (keysOf_setOutcome _ _ _) fun a => ?_
        · exact hstate
        · rfl
        · rw [List.mem_append]
          by_cases hany : ((fact :: facts).any fun fact => fact.factKind == .offer) = true
          · rw [if_pos hany]
            refine or_congr_right (iff_of_false List.not_mem_nil fun h => ?_)
            exact hoffers.mp hany h.2
          · have hnil : snapshot.offers = [] := by
              by_contra hne
              exact hany (hoffers.mpr hne)
            rw [if_neg hany, List.mem_singleton, and_iff_left hnil, eq_comm]

theorem keysOf_foldl_notFound {appids : List Nat} {outcomes : List (Nat × Outcome)} {a : Nat} :
    a ∈ keysOf (appids.foldl (fun outcomes appid => setOutcome outcomes appid .notFound)
      outcomes) ↔ a ∈ keysOf outcomes ∨ a ∈ appids := by
  induction appids generalizing outcomes with
  | nil => exact (or_iff_left List.not_mem_nil).symm
  | cons appid appids ih =>
    rw [List.foldl_cons, ih, keysOf_setOutcome, Finset.mem_insert, List.mem_cons]
    tauto

/-- In a partition, an AppID without an offer was not found or has an empty snapshot. -/
theorem Partitions.not_offers {appids : List Nat} {batch : GgBatch}
    (h : Partitions appids batch) (hnodup : appids.Nodup) {a : Nat} :
    (a ∈ appids ∧ ¬Offers batch a) ↔
      (∃ snapshot ∈ batch.snapshots, snapshot.product.steamAppid = a ∧ snapshot.offers = []) ∨
        a ∈ batch.notFoundAppids := by
  have hall := h.nodup_iff.mpr hnodup
  obtain ⟨hsnapshots, -, hdisjoint⟩ := List.nodup_append.mp hall
  rw [← h.mem_iff, List.mem_append, List.mem_map]
  constructor
  · intro h
    obtain ⟨⟨snapshot, hsnapshot, rfl⟩ | hmissing, hoffers⟩ := h
    · refine .inl ⟨snapshot, hsnapshot, rfl, ?_⟩
      by_contra hne
      exact hoffers ⟨snapshot, hsnapshot, rfl, hne⟩
    · exact .inr hmissing
  · intro h
    rcases h with ⟨snapshot, hsnapshot, rfl, hnil⟩ | hmissing
    · refine ⟨.inl ⟨snapshot, hsnapshot, rfl⟩, fun h => ?_⟩
      obtain ⟨snapshot', hsnapshot', hsame, hne⟩ := h
      rw [List.inj_on_of_nodup_map hsnapshots hsnapshot' hsnapshot hsame] at hne
      exact hne hnil
    · refine ⟨.inr hmissing, fun h => ?_⟩
      obtain ⟨snapshot, hsnapshot, rfl, -⟩ := h
      exact hdisjoint _ (List.mem_map_of_mem hsnapshot) _ hmissing rfl

theorem Partitions.mem_of_offers {appids : List Nat} {batch : GgBatch}
    (h : Partitions appids batch) {a : Nat} (hoffers : Offers batch a) : a ∈ appids := by
  obtain ⟨snapshot, hsnapshot, rfl, -⟩ := hoffers
  exact h.mem_iff.mp (List.mem_append_left _ (List.mem_map_of_mem hsnapshot))

/-- The client answers each batch, with snapshots that are all taken. -/
def AllTaken (clients : Clients) (batches : List (List Nat)) : Prop :=
  ∀ appids ∈ batches, ∃ batch, clients.fetchAppPriceSummaries appids = .ok batch ∧
    ∀ snapshot ∈ batch.snapshots, ∃ facts, factsOf snapshot = .ok facts

/-- What the loop over the batches leaves behind: a snapshot is refused, or the outcomes are
those of the batches that were answered, and the candidates are the AppIDs without an offer. -/
def Climbed (clients : Clients) (before : GgState) (batches : List (List Nat))
    (after : GgState) : Prop :=
  (after.failure.any Failure.isSync = true ∧ ¬AllTaken clients batches) ∨
    ¬after.failure.any Failure.isSync = true ∧
      (after.failure = none ↔ AllTaken clients batches) ∧
      after.evaluated = keysOf after.outcomes ∧
      (∀ a, a ∈ keysOf after.outcomes ↔ a ∈ keysOf before.outcomes ∨
        a ∈ (answeredBatches clients batches).flatten) ∧
      ∀ a, a ∈ after.candidates ↔ a ∈ before.candidates ∨
        a ∈ batches.flatten ∧ ¬GotOffer clients batches a

section Batches

variable {clients : Clients} {appids : List Nat} {batches : List (List Nat)}

theorem answeredBatches_error {e : ClientError}
    (h : clients.fetchAppPriceSummaries appids = .error e) :
    answeredBatches clients (appids :: batches) = [] := by
  rw [answeredBatches, List.takeWhile_cons_of_neg]
  rw [h]
  nofun

theorem answeredBatches_ok {batch : GgBatch}
    (h : clients.fetchAppPriceSummaries appids = .ok batch) :
    answeredBatches clients (appids :: batches) =
      appids :: answeredBatches clients batches := by
  rw [answeredBatches, List.takeWhile_cons_of_pos]
  · rfl
  · rw [h]
    rfl

theorem gotOffer_cons {batch : GgBatch} (h : clients.fetchAppPriceSummaries appids = .ok batch)
    {a : Nat} : GotOffer clients (appids :: batches) a ↔
      Offers batch a ∨ GotOffer clients batches a := by
  rw [GotOffer, answeredBatches_ok h, List.exists_mem_cons_iff]
  refine or_congr_left ?_
  constructor
  · intro hoffer
    obtain ⟨batch', hbatch', hoffer⟩ := hoffer
    rw [h] at hbatch'
    cases hbatch'
    exact hoffer
  · intro hoffer
    exact ⟨batch, h, hoffer⟩

theorem mem_of_gotOffer (hpartitions : ∀ appids ∈ batches, ∀ batch,
      clients.fetchAppPriceSummaries appids = .ok batch → Partitions appids batch) {a : Nat}
    (h : GotOffer clients batches a) : a ∈ batches.flatten := by
  obtain ⟨appids, happids, batch, hbatch, hoffer⟩ := h
  have hmem := (List.takeWhile_sublist _).subset happids
  exact List.mem_flatten.mpr
    ⟨appids, hmem, (hpartitions appids hmem batch hbatch).mem_of_offers hoffer⟩

end Batches

/-- The loop over the batches. -/
theorem ggLoop_spec {clients : Clients} {batches : List (List Nat)} {state : GgState}
    (hpartitions : ∀ appids ∈ batches, ∀ batch,
      clients.fetchAppPriceSummaries appids = .ok batch → Partitions appids batch)
    (hnodup : batches.flatten.Nodup) (hstate : state.failure = none)
    (hevaluated : state.evaluated = keysOf state.outcomes) :
    Climbed clients state batches (ggLoop clients state batches) := by
  induction batches generalizing state with
  | nil =>
    refine .inr ⟨?_, iff_of_true hstate (List.forall_mem_nil _), hevaluated, fun a => ?_,
      fun a => ?_⟩
    · rw [ggLoop, hstate]
      nofun
    · exact (or_iff_left List.not_mem_nil).symm
    · exact (or_iff_left fun h => List.not_mem_nil h.1).symm
  | cons appids batches ih =>
    obtain ⟨happids, hbatches, hdisjoint⟩ := List.nodup_append.mp
      (List.flatten_cons ▸ hnodup : (appids ++ batches.flatten).Nodup)
    have hrest : ∀ appids' ∈ batches, ∀ batch,
        clients.fetchAppPriceSummaries appids' = .ok batch → Partitions appids' batch :=
      fun appids' h => hpartitions appids' (List.mem_cons_of_mem _ h)
    cases hfetch : clients.fetchAppPriceSummaries appids with
    | error e =>
      simp only [ggLoop, hfetch]
      refine .inr ⟨nofun, iff_of_false nofun fun h => ?_, hevaluated, fun a => ?_, fun a => ?_⟩
      · obtain ⟨batch, hbatch, -⟩ := h appids List.mem_cons_self
        rw [hfetch] at hbatch
        cases hbatch
      · rw [answeredBatches_error hfetch]
        exact (or_iff_left List.not_mem_nil).symm
      · rw [List.mem_append]
        refine or_congr_right (and_iff_left fun h => ?_).symm
        obtain ⟨appids', h, -⟩ := h
        rw [answeredBatches_error hfetch] at h
        cases h
    | ok batch =>
      have hpartition := hpartitions appids List.mem_cons_self batch hfetch
      simp only [ggLoop, hfetch]
      have hstart : ({ state with rate := batch.rateLimit } : GgState).failure = none := hstate
      rcases @takeSnapshots_spec batch.snapshots _ hstart with
        ⟨hsync, refused, hrefused, hnone⟩ | ⟨hfailure, hall, hevaluated', hkeys, hcandidates⟩
      · rw [if_pos hsync]
        refine .inl ⟨hsync, fun h => ?_⟩
        obtain ⟨batch', hbatch', htaken⟩ := h appids List.mem_cons_self
        rw [hfetch] at hbatch'
        cases hbatch'
        obtain ⟨facts, hfacts⟩ := htaken refused hrefused
        exact hnone facts hfacts
      · rw [if_neg (by rw [hfailure]; nofun)]
        generalize takeSnapshots { state with rate := batch.rateLimit } batch.snapshots = taken
          at hfailure hevaluated' hkeys hcandidates ⊢
        have hkeys' : ∀ a, a ∈ keysOf (takeNotFound taken batch.notFoundAppids).outcomes ↔
            a ∈ keysOf state.outcomes ∨ a ∈ appids := by
          intro a
          show a ∈ keysOf (List.foldl _ taken.outcomes batch.notFoundAppids) ↔ _
          rw [keysOf_foldl_notFound, hkeys, or_assoc, ← List.mem_append, hpartition.mem_iff]
        have hcandidates' : ∀ a, a ∈ (takeNotFound taken batch.notFoundAppids).candidates ↔
            a ∈ state.candidates ∨ a ∈ appids ∧ ¬Offers batch a := by
          intro a
          show a ∈ taken.candidates ++ batch.notFoundAppids ↔ _
          rw [List.mem_append, hcandidates, or_assoc, hpartition.not_offers happids]
        have hnext : (takeNotFound taken batch.notFoundAppids).evaluated =
            keysOf (takeNotFound taken batch.notFoundAppids).outcomes := by
          show taken.evaluated ∪ keysOf (takeNotFound taken batch.notFoundAppids).outcomes = _
          rw [hevaluated', Finset.union_eq_right, hevaluated]
          intro a ha
          exact (hkeys' a).mpr (.inl ha)
        have htaken : AllTaken clients (appids :: batches) ↔ AllTaken clients batches := by
          rw [AllTaken, List.forall_mem_cons]
          exact and_iff_right ⟨batch, hfetch, hall⟩
        rcases @ih (takeNotFound taken batch.notFoundAppids) hrest hbatches hfailure hnext with
          ⟨hsync, hnot⟩ | ⟨hsync, hnone, hevaluated'', hkeys'', hcandidates''⟩
        · exact .inl ⟨hsync, fun h => hnot (htaken.mp h)⟩
        · refine .inr ⟨hsync, hnone.trans htaken.symm, hevaluated'', fun a => ?_, fun a => ?_⟩
          · rw [hkeys'', hkeys', answeredBatches_ok hfetch, List.flatten_cons, List.mem_append,
              or_assoc]
          · rw [hcandidates'', hcandidates', gotOffer_cons hfetch, List.flatten_cons,
              List.mem_append, or_assoc]
            refine or_congr_right ?_
            have hleft : a ∈ appids → ¬GotOffer clients batches a := by
              intro ha hgot
              exact hdisjoint a ha a (mem_of_gotOffer hrest hgot) rfl
            have hright : a ∈ batches.flatten → ¬Offers batch a := by
              intro ha hoffer
              exact hdisjoint a (hpartition.mem_of_offers hoffer) a ha rfl
            tauto

/-! ## The CheapShark rung -/

/-- The client answers with a snapshot or that the game is not there. -/
def isAnswered (clients : Clients) (appid : Nat) : Bool :=
  match clients.lookupSteamApp appid with
  | .ok _ => true
  | .error e => e.code == "GAME_NOT_FOUND"

/-- The client answers each lookup, with snapshots that are all taken. -/
def AllLookedUp (clients : Clients) (targets : List Nat) : Prop :=
  ∀ appid ∈ targets, isAnswered clients appid = true ∧
    ∀ snapshot, clients.lookupSteamApp appid = .ok snapshot → ∃ facts, factsOf snapshot = .ok facts

/-- What the loop over the targets leaves behind: a snapshot is refused, or the outcomes are
those of the targets up to the first error of the client. -/
def LookedUp (clients : Clients) (before : CheapState) (targets : List Nat)
    (after : CheapState) : Prop :=
  (after.failure.any Failure.isSync = true ∧ ¬AllLookedUp clients targets) ∨
    ¬after.failure.any Failure.isSync = true ∧
      (after.failure = none ↔ AllLookedUp clients targets) ∧
      ∀ a, a ∈ keysOf after.outcomes ↔ a ∈ keysOf before.outcomes ∨
        a ∈ targets.takeWhile (isAnswered clients)

/-- The first lookup has an outcome. -/
theorem LookedUp.cons {clients : Clients} {before next after : CheapState} {appid : Nat}
    {targets : List Nat} (h : LookedUp clients next targets after)
    (hanswered : isAnswered clients appid = true)
    (hfacts : ∀ snapshot, clients.lookupSteamApp appid = .ok snapshot →
      ∃ facts, factsOf snapshot = .ok facts)
    (hkeys : keysOf next.outcomes = insert appid (keysOf before.outcomes)) :
    LookedUp clients before (appid :: targets) after := by
  have hall : AllLookedUp clients (appid :: targets) ↔ AllLookedUp clients targets := by
    rw [AllLookedUp, List.forall_mem_cons]
    exact and_iff_right ⟨hanswered, hfacts⟩
  rcases h with ⟨hsync, hnot⟩ | ⟨hsync, hnone, hkeys'⟩
  · exact .inl ⟨hsync, fun h => hnot (hall.mp h)⟩
  · refine .inr ⟨hsync, hnone.trans hall.symm, fun a => ?_⟩
    rw [hkeys', hkeys, Finset.mem_insert, List.takeWhile_cons_of_pos hanswered, List.mem_cons]
    tauto

/-- The loop over the targets. -/
theorem cheapLoop_spec {clients : Clients} {targets : List Nat} {state : CheapState}
    (hstate : state.failure = none) :
    LookedUp clients state targets (cheapLoop clients state targets) := by
  induction targets generalizing state with
  | nil =>
    refine .inr ⟨?_, iff_of_true hstate (List.forall_mem_nil _), fun a => ?_⟩
    · rw [cheapLoop, hstate]
      nofun
    · exact (or_iff_left List.not_mem_nil).symm
  | cons appid targets ih =>
    cases hlookup : clients.lookupSteamApp appid with
    | error e =>
      have hno : ∀ snapshot, clients.lookupSteamApp appid = .ok snapshot →
          ∃ facts, factsOf snapshot = .ok facts := by
        intro snapshot h
        rw [hlookup] at h
        cases h
      by_cases hcode : e.code = "GAME_NOT_FOUND"
      · simp only [cheapLoop, hlookup, if_pos hcode]
        refine LookedUp.cons (ih ?_) ?_ hno (keysOf_setOutcome _ _ _)
        · exact hstate
        · rw [isAnswered, hlookup]
          exact beq_iff_eq.mpr hcode
      · simp only [cheapLoop, hlookup, if_neg hcode]
        have hanswered : ¬isAnswered clients appid = true := by
          rw [isAnswered, hlookup]
          exact fun h => hcode (beq_iff_eq.mp h)
        refine .inr ⟨nofun, iff_of_false nofun fun h => hanswered (h appid List.mem_cons_self).1,
          fun a => ?_⟩
        rw [List.takeWhile_cons_of_neg hanswered]
        exact (or_iff_left List.not_mem_nil).symm
    | ok snapshot =>
      have hanswered : isAnswered clients appid = true := by
        rw [isAnswered, hlookup]
      cases hfacts : factsOf snapshot with
      | error failure =>
        simp only [cheapLoop, hlookup, hfacts]
        refine .inl ⟨factsOf_error hfacts, fun h => ?_⟩
        obtain ⟨facts, hok⟩ := (h appid List.mem_cons_self).2 snapshot hlookup
        rw [hfacts] at hok
        cases hok
      | ok facts =>
        have htaken : ∀ snapshot', clients.lookupSteamApp appid = .ok snapshot' →
            ∃ facts, factsOf snapshot' = .ok facts := by
          intro snapshot' h
          rw [hlookup] at h
          cases h
          exact ⟨facts, hfacts⟩
        cases facts with
        | nil =>
          simp only [cheapLoop, hlookup, hfacts]
          refine LookedUp.cons (ih ?_) hanswered htaken (keysOf_setOutcome _ _ _)
          exact hstate
        | cons fact facts =>
          simp only [cheapLoop, hlookup, hfacts]
          refine LookedUp.cons (ih ?_) hanswered htaken (keysOf_setOutcome _ _ _)
          exact hstate

/-! ## Recorded runs -/

theorem flatten_batchesOf {fuel : Nat} {appids : List Nat} (h : appids.length ≤ fuel) :
    (batchesOf fuel appids).flatten = appids := by
  induction fuel generalizing appids with
  | zero =>
    rw [List.eq_nil_of_length_eq_zero (Nat.le_zero.mp h)]
    rfl
  | succ fuel ih =>
    cases appids with
    | nil => rfl
    | cons appid appids =>
      have hshorter : ((appid :: appids).drop maxGgBatch).length ≤ fuel := by
        rw [List.length_drop, maxGgBatch]
        omega
      show (List.take maxGgBatch _ :: batchesOf fuel _).flatten = _
      rw [List.flatten_cons, ih hshorter, List.take_append_drop]

/-- The batches of a run. -/
def RecordedRun.batches (run : RecordedRun) : List (List Nat) :=
  batchesOf run.targeted.length run.targeted

/-- No client failed in the run. -/
def NoneFailed (clients : Clients) (run : RecordedRun) : Prop :=
  if run.provider = "gg-deals" then AllTaken clients run.batches
  else AllLookedUp clients run.targeted

/-- A run is complete when each AppID that it targets has an outcome and no client failed. -/
def RunExact (clients : Clients) (run : RecordedRun) : Prop :=
  run.status = .complete ↔
    (∀ a ∈ run.targeted, a ∈ keysOf run.outcomes) ∧ NoneFailed clients run

theorem providers_ne : "gg-deals" ≠ "cheapshark" := by
  decide

/-- A run whose outcomes are of AppIDs that it targets. -/
theorem recordRun_complete {provider : String} {targeted : List Nat} {limit : Option Nat}
    {outcomes : List (Nat × Outcome)} {facts : List PriceFact} {rate : RateLimitMetadata}
    {failure : Option Failure} (htargeted : targeted ≠ [])
    (hkeys : ∀ a ∈ keysOf outcomes, a ∈ targeted) :
    (recordRun provider targeted limit outcomes facts rate failure).status = .complete ↔
      (∀ a ∈ targeted, a ∈ keysOf outcomes) ∧ failure = none := by
  have hsame : keysOf outcomes = targeted.toFinset ↔ ∀ a ∈ targeted, a ∈ keysOf outcomes := by
    rw [Finset.ext_iff]
    constructor
    · intro h a ha
      exact (h a).mpr (List.mem_toFinset.mpr ha)
    · intro h a
      exact ⟨fun ha => List.mem_toFinset.mpr (hkeys a ha), fun ha => h a (List.mem_toFinset.mp ha)⟩
  show (if outcomes = [] then RunStatus.failed else if _ then _ else _) = _ ↔ _
  by_cases hnil : outcomes = []
  · rw [if_pos hnil]
    refine iff_of_false nofun fun h => ?_
    obtain ⟨a, rest, heq⟩ := List.exists_cons_of_ne_nil htargeted
    have ha := h.1 a (heq ▸ List.mem_cons_self)
    rw [hnil] at ha
    cases ha
  · rw [if_neg hnil, ← hsame]
    by_cases hboth : failure = none ∧ keysOf outcomes = targeted.toFinset
    · rw [if_pos hboth]
      exact iff_of_true rfl hboth.symm
    · rw [if_neg hboth]
      exact iff_of_false nofun fun h => hboth h.symm

/-- A run in which something failed is not complete. -/
theorem recordRun_failed {provider : String} {targeted : List Nat} {limit : Option Nat}
    {outcomes : List (Nat × Outcome)} {facts : List PriceFact} {rate : RateLimitMetadata}
    {failure : Option Failure} (h : failure.any Failure.isSync = true) :
    (recordRun provider targeted limit outcomes facts rate failure).status ≠ .complete := by
  have hfailure : failure ≠ none := by
    intro heq
    rw [heq] at h
    cases h
  show (if outcomes = [] then RunStatus.failed else if _ then _ else _) ≠ _
  split
  · nofun
  · rw [if_neg fun h => hfailure h.1]
    nofun

/-- The run of the first rung. -/
theorem ggRun_exact {clients : Clients} {selected : List Nat} {limit : Option Nat}
    {state : GgState} (hselected : selected ≠ [])
    (h : Climbed clients .initial (batchesOf selected.length selected) state) :
    RunExact clients (recordRun "gg-deals" selected limit state.outcomes state.facts state.rate
      state.failure) := by
  show _ = _ ↔ _ ∧ (if "gg-deals" = "gg-deals" then
    AllTaken clients (batchesOf selected.length selected) else _)
  rw [if_pos rfl]
  rcases h with ⟨hsync, hnot⟩ | ⟨-, hnone, -, hkeys, -⟩
  · exact iff_of_false (recordRun_failed hsync) fun h => hnot h.2
  · rw [← hnone]
    refine recordRun_complete hselected fun a ha => ?_
    rcases (hkeys a).mp ha with ha | ha
    · cases ha
    · rw [← flatten_batchesOf (Nat.le_refl selected.length)]
      exact ((List.takeWhile_sublist _).flatten).subset ha

/-- The run of the second rung. -/
theorem cheapRun_exact {clients : Clients} {targets : List Nat} {limit : Option Nat}
    {observed : Finset Nat} {state : CheapState} (htargets : targets ≠ [])
    (h : LookedUp clients ⟨[], [], observed, none⟩ targets state) :
    RunExact clients (recordRun "cheapshark" targets limit state.outcomes state.facts
      ⟨none, none, none⟩ state.failure) := by
  show _ = _ ↔ _ ∧ (if "cheapshark" = "gg-deals" then _ else AllLookedUp clients targets)
  rw [if_neg providers_ne.symm]
  rcases h with ⟨hsync, hnot⟩ | ⟨-, hnone, hkeys⟩
  · exact iff_of_false (recordRun_failed hsync) fun h => hnot h.2
  · rw [← hnone]
    refine recordRun_complete htargets fun a ha => ?_
    rcases (hkeys a).mp ha with ha | ha
    · cases ha
    · exact (List.takeWhile_sublist _).subset ha

/-! ## The sync -/

/-- A subject of the cache is fresh, and the latest attempt that demanded it did not look it up
in vain. -/
def FreshCached (cache : PriceCache) (evaluatedAt : Int) (appid : Nat) : Prop :=
  ∃ subject ∈ cache.subjects, subject.appid = appid ∧ evaluatedAt < subject.freshUntil ∧
    isUnresolved cache appid = false

theorem mem_fresh {request : SyncRequest} {cache : PriceCache} {evaluatedAt : Int} {a : Nat} :
    a ∈ freshFallbackAppids request cache evaluatedAt ↔
      request.maxItems = none ∧ FreshCached cache evaluatedAt a := by
  unfold freshFallbackAppids
  cases request.maxItems with
  | some limit => exact iff_of_false (Finset.notMem_empty a) nofun
  | none =>
    rw [List.mem_toFinset, List.mem_map, and_iff_right rfl]
    refine exists_congr fun subject => ?_
    rw [List.mem_filter, Bool.and_eq_true, decide_eq_true_iff, Bool.not_eq_true']
    constructor
    · intro h
      obtain ⟨⟨hsubject, hfresh, hresolved⟩, rfl⟩ := h
      exact ⟨hsubject, rfl, hfresh, hresolved⟩
    · intro h
      obtain ⟨hsubject, rfl, hfresh, hresolved⟩ := h
      exact ⟨⟨hsubject, hfresh, hresolved⟩, rfl⟩

theorem demandOf_nodup (wishlist : WishlistSnapshot) : (demandOf wishlist).Nodup :=
  ((Choice.sortBy_perm _ wishlist.games).map WishlistGame.appid).nodup_iff.mpr wishlist.distinct

theorem selectedOf_sublist (request : SyncRequest) (demand : List Nat) :
    (selectedOf request demand).Sublist demand := by
  unfold selectedOf
  split
  · exact List.Sublist.refl demand
  · exact List.take_sublist _ demand

theorem selectedOf_none {request : SyncRequest} (h : request.maxItems = none)
    (demand : List Nat) : selectedOf request demand = demand := by
  rw [selectedOf, h]

theorem card_eq_length_iff {found : Finset Nat} {demand : List Nat} (hnodup : demand.Nodup)
    (hsubset : ∀ a ∈ found, a ∈ demand) :
    found.card = demand.length ↔ ∀ a ∈ demand, a ∈ found := by
  have hcard : demand.toFinset.card = demand.length := List.toFinset_card_of_nodup hnodup
  have hle : found ⊆ demand.toFinset := fun a ha => List.mem_toFinset.mpr (hsubset a ha)
  rw [← hcard]
  constructor
  · intro h a ha
    rw [Finset.eq_of_subset_of_card_le hle (Nat.le_of_eq h.symm)]
    exact List.mem_toFinset.mpr ha
  · intro h
    have hge : demand.toFinset ⊆ found := fun a ha => h a (List.mem_toFinset.mp ha)
    rw [Finset.Subset.antisymm hle hge]

/-- What the first rung leaves behind, where some AppIDs got an offer: these are evaluated and
the other selected ones fall through. -/
structure Fallen (request : SyncRequest) (selected : List Nat) (ladder : Ladder)
    (offered : Nat → Prop) : Prop where
  candidates : ∀ a, a ∈ fallbackCandidates request selected ladder ↔ a ∈ selected ∧ ¬offered a
  selected : ∀ a ∈ ladder.evaluated, a ∈ selected
  offered : ∀ a, offered a → a ∈ ladder.evaluated

section SecondRung

variable {clients : Clients} {request : SyncRequest} {demand : List Nat}
  {fresh : Finset Nat} {ladder : Ladder} {offered : Nat → Prop}

/-- The targets of the second rung, in terms of what fell through. -/
theorem cheapTargets_sublist {fallbackSet : Finset Nat} :
    (cheapTargets request demand fallbackSet fresh).Sublist demand ∧
      (∀ a ∈ cheapTargets request demand fallbackSet fresh, a ∈ fallbackSet ∧
        (request.maxItems ≠ none ∨ a ∉ fresh)) ∧
      (cheapTargets request demand fallbackSet fresh).length ≤
        (request.maxItems.map Int.toNat).getD defaultCheapsharkLimit := by
  unfold cheapTargets
  split
  · refine ⟨(List.take_sublist _ _).trans List.filter_sublist, fun a ha => ?_,
      List.length_take_le _ _⟩
    exact of_decide_eq_true (List.mem_filter.mp ((List.take_sublist _ _).subset ha)).2
  · exact ⟨List.nil_sublist _, List.forall_mem_nil _, Nat.zero_le _⟩

/-- The word of the sync: it is complete when each AppID of the wishlist got an offer, or an
outcome of the second rung, or has a fresh subject where none got an offer. -/
theorem cheapRung_complete {result : PriceSyncResult} (hdemand : demand.Nodup)
    (hfresh : ∀ a ∈ fresh, request.maxItems = none)
    (h : Fallen request (selectedOf request demand) ladder offered)
    (hresult : (cheapRung clients request demand (selectedOf request demand) fresh ladder).ending =
      .ok result) :
    result.complete = true ↔ ∀ a ∈ demand, offered a ∨
      a ∈ (cheapTargets request demand
        (fallbackCandidates request (selectedOf request demand) ladder).toFinset fresh).takeWhile
          (isAnswered clients) ∨ ¬offered a ∧ a ∈ fresh := by
  unfold cheapRung at hresult
  dsimp only at hresult
  have hspec := @cheapLoop_spec clients (cheapTargets request demand
    (fallbackCandidates request (selectedOf request demand) ladder).toFinset fresh)
    ⟨[], [], ladder.observed, none⟩ rfl
  obtain ⟨hsublist, htargets, -⟩ := @cheapTargets_sublist request demand fresh
    (fallbackCandidates request (selectedOf request demand) ladder).toFinset
  generalize cheapTargets request demand
    (fallbackCandidates request (selectedOf request demand) ladder).toFinset fresh = targets
    at hresult hspec hsublist htargets ⊢
  generalize cheapLoop clients ⟨[], [], ladder.observed, none⟩ targets = state at hresult hspec
  have hnotSync : ¬state.failure.any Failure.isSync = true := by
    intro hsync
    cases hfailure : state.failure with
    | none =>
      rw [hfailure] at hsync
      cases hsync
    | some failure =>
      rw [hfailure] at hsync hresult
      dsimp only at hresult
      rw [if_pos (.inl hsync)] at hresult
      cases hresult
  have hkeys : ∀ a, a ∈ keysOf state.outcomes ↔ a ∈ targets.takeWhile (isAnswered clients) := by
    rcases hspec with ⟨hsync, -⟩ | ⟨-, -, hkeys⟩
    · exact absurd hsync hnotSync
    · intro a
      rw [hkeys]
      exact or_iff_right fun h => nomatch h
  have hcomplete : result.complete = true ↔
      (ladder.evaluated ∪ keysOf state.outcomes ∪ (fresh ∩
        (fallbackCandidates request (selectedOf request demand) ladder).toFinset)).card =
          demand.length ∧
      (fallbackCandidates request (selectedOf request demand) ladder).toFinset ⊆
        (fresh ∩ (fallbackCandidates request (selectedOf request demand) ladder).toFinset) ∪
        (keysOf state.outcomes ∩
          (fallbackCandidates request (selectedOf request demand) ladder).toFinset) := by
    cases hfailure : state.failure with
    | none =>
      rw [hfailure] at hresult
      rw [← Except.ok.inj hresult]
      exact decide_eq_true_iff
    | some failure =>
      rw [hfailure] at hresult
      dsimp only at hresult
      split at hresult
      · cases hresult
      · rw [← Except.ok.inj hresult]
        exact decide_eq_true_iff
  have hselected : ∀ a ∈ selectedOf request demand, a ∈ demand :=
    fun a ha => (selectedOf_sublist request demand).subset ha
  have hfallback : ∀ a, a ∈ (fallbackCandidates request (selectedOf request demand)
      ladder).toFinset ↔ a ∈ selectedOf request demand ∧ ¬offered a :=
    fun a => List.mem_toFinset.trans (h.candidates a)
  generalize (fallbackCandidates request (selectedOf request demand) ladder).toFinset =
    fallbackSet at hcomplete hfallback htargets
  rw [hcomplete, card_eq_length_iff hdemand]
  · constructor
    · intro hboth a ha
      by_cases hoffered : offered a
      · exact .inl hoffered
      · right
        rcases Finset.mem_union.mp (hboth.1 a ha) with hfound | hfound
        · have hmem : a ∈ fallbackSet := by
            rw [hfallback]
            refine ⟨?_, hoffered⟩
            rcases Finset.mem_union.mp hfound with hfound | hfound
            · exact h.selected a hfound
            · have htarget := (List.takeWhile_sublist _).subset ((hkeys a).mp hfound)
              exact ((hfallback a).mp (htargets a htarget).1).1
          rcases Finset.mem_union.mp (hboth.2 hmem) with hfound | hfound
          · exact .inr ⟨hoffered, (Finset.mem_inter.mp hfound).1⟩
          · exact .inl ((hkeys a).mp (Finset.mem_inter.mp hfound).1)
        · exact .inr ⟨hoffered, (Finset.mem_inter.mp hfound).1⟩
    · intro hall
      have hfalls : ∀ a ∈ fresh, a ∈ demand → ¬offered a → a ∈ fallbackSet := by
        intro a hfound ha hoffered
        rw [hfallback, selectedOf_none (hfresh a hfound)]
        exact ⟨ha, hoffered⟩
      constructor
      · intro a ha
        rcases hall a ha with hoffered | hanswered | ⟨hoffered, hfound⟩
        · exact Finset.mem_union_left _ (Finset.mem_union_left _ (h.offered a hoffered))
        · exact Finset.mem_union_left _ (Finset.mem_union_right _ ((hkeys a).mpr hanswered))
        · exact Finset.mem_union_right _
            (Finset.mem_inter.mpr ⟨hfound, hfalls a hfound ha hoffered⟩)
      · intro a ha
        obtain ⟨hmem, hoffered⟩ := (hfallback a).mp ha
        rcases hall a (hselected a hmem) with hoffered' | hanswered | ⟨-, hfound⟩
        · exact absurd hoffered' hoffered
        · exact Finset.mem_union_right _ (Finset.mem_inter.mpr ⟨(hkeys a).mpr hanswered, ha⟩)
        · exact Finset.mem_union_left _ (Finset.mem_inter.mpr ⟨hfound, ha⟩)
  · intro a ha
    rcases Finset.mem_union.mp ha with ha | ha
    · rcases Finset.mem_union.mp ha with ha | ha
      · exact hselected a (h.selected a ha)
      · exact hsublist.subset ((List.takeWhile_sublist _).subset ((hkeys a).mp ha))
    · exact hselected a ((hfallback a).mp (Finset.mem_inter.mp ha).2).1

/-- The run of the second rung. -/
def cheapRunOf (clients : Clients) (request : SyncRequest) (targets : List Nat)
    (observed : Finset Nat) : RecordedRun :=
  let state := cheapLoop clients ⟨[], [], observed, none⟩ targets
  recordRun "cheapshark" targets
    (some ((request.maxItems.map Int.toNat).getD defaultCheapsharkLimit)) state.outcomes
    state.facts ⟨none, none, none⟩ state.failure

theorem mem_cheapRung_runs {selected : List Nat} {run : RecordedRun} :
    run ∈ (cheapRung clients request demand selected fresh ladder).runs ↔ run ∈ ladder.runs ∨
      cheapTargets request demand (fallbackCandidates request selected ladder).toFinset fresh ≠
        [] ∧
      run = cheapRunOf clients request (cheapTargets request demand
        (fallbackCandidates request selected ladder).toFinset fresh) ladder.observed := by
  have hruns : (cheapRung clients request demand selected fresh ladder).runs =
      if cheapTargets request demand (fallbackCandidates request selected ladder).toFinset fresh =
        [] then ladder.runs
      else ladder.runs ++ [cheapRunOf clients request (cheapTargets request demand
        (fallbackCandidates request selected ladder).toFinset fresh) ladder.observed] := by
    unfold cheapRung
    dsimp only
    split
    · rfl
    · split
      · rfl
      · rfl
  rw [hruns]
  split
  · rename_i hnil
    exact (or_iff_left fun h => h.1 hnil).symm
  · rename_i hne
    rw [List.mem_append, List.mem_singleton, and_iff_right hne]

theorem cheapRung_result {selected : List Nat} {result : PriceSyncResult}
    (h : (cheapRung clients request demand selected fresh ladder).ending = .ok result) :
    result.runs = (cheapRung clients request demand selected fresh ladder).runs := by
  unfold cheapRung at h ⊢
  dsimp only at h ⊢
  split at h
  · rename_i hnone
    rw [← Except.ok.inj h]
  · split at h
    · cases h
    · rename_i hnot
      rw [← Except.ok.inj h, if_neg hnot]

end SecondRung

/-- The client of the first rung answered with a current offer in one of the runs. -/
def GotGgOffer (clients : Clients) (runs : List RecordedRun) (a : Nat) : Prop :=
  ∃ run ∈ runs, run.provider = "gg-deals" ∧ GotOffer clients run.batches a

/-- The client of the second rung answered in one of the runs. -/
def GotCheapOutcome (clients : Clients) (runs : List RecordedRun) (a : Nat) : Prop :=
  ∃ run ∈ runs, run.provider = "cheapshark" ∧ a ∈ run.targeted.takeWhile (isAnswered clients)

/-- The targets of a CheapShark run are in wishlist order and differ, none of them is fresh
where the number of items is not bounded, and there are not too many of them. -/
def TargetsExact (request : SyncRequest) (wishlist : WishlistSnapshot) (cache : PriceCache)
    (evaluatedAt : Int) (run : RecordedRun) : Prop :=
  run.provider = "cheapshark" → run.targeted.Sublist (demandOf wishlist) ∧ run.targeted.Nodup ∧
    (request.maxItems = none → ∀ a ∈ run.targeted, ¬FreshCached cache evaluatedAt a) ∧
    run.targeted.length ≤ (request.maxItems.map Int.toNat).getD defaultCheapsharkLimit

/-- The word of a sync is exact, in terms of when a cached subject counts. -/
def WordExact (clients : Clients) (request : SyncRequest) (wishlist : WishlistSnapshot)
    (cached : Nat → Prop) (result : PriceSyncResult) : Prop :=
  result.complete = true ↔ ∀ game ∈ wishlist.games,
    GotGgOffer clients result.runs game.appid ∨ GotCheapOutcome clients result.runs game.appid ∨
      request.maxItems = none ∧ ¬GotGgOffer clients result.runs game.appid ∧ cached game.appid

/-- The second rung after what the first one left behind. -/
theorem cheapRung_exact {clients : Clients} {request : SyncRequest} {wishlist : WishlistSnapshot}
    {cache : PriceCache} {evaluatedAt : Int} {ladder : Ladder} {offered : Nat → Prop}
    (h : Fallen request (selectedOf request (demandOf wishlist)) ladder offered)
    (hruns : ∀ run ∈ ladder.runs, run.provider = "gg-deals" ∧ RunExact clients run)
    (hoffered : ∀ a, offered a ↔ GotGgOffer clients ladder.runs a) :
    let output := cheapRung clients request (demandOf wishlist)
      (selectedOf request (demandOf wishlist)) (freshFallbackAppids request cache evaluatedAt)
      ladder
    (∀ run ∈ output.runs,
      RunExact clients run ∧ TargetsExact request wishlist cache evaluatedAt run) ∧
    ∀ result, output.ending = .ok result → result.runs = output.runs ∧
      WordExact clients request wishlist (FreshCached cache evaluatedAt) result := by
  intro output
  have hmem := @mem_cheapRung_runs clients request (demandOf wishlist)
    (freshFallbackAppids request cache evaluatedAt) ladder
    (selectedOf request (demandOf wishlist))
  have hcomplete := @cheapRung_complete clients request (demandOf wishlist)
    (freshFallbackAppids request cache evaluatedAt) ladder offered
  obtain ⟨hsublist, htargets, hlength⟩ := @cheapTargets_sublist request (demandOf wishlist)
    (freshFallbackAppids request cache evaluatedAt) (fallbackCandidates request
      (selectedOf request (demandOf wishlist)) ladder).toFinset
  generalize cheapTargets request (demandOf wishlist) (fallbackCandidates request
    (selectedOf request (demandOf wishlist)) ladder).toFinset
    (freshFallbackAppids request cache evaluatedAt) = targets
    at hmem hcomplete hsublist htargets hlength
  constructor
  · intro run hrun
    rcases hmem.mp hrun with hrun | ⟨hne, rfl⟩
    · obtain ⟨hprovider, hexact⟩ := hruns run hrun
      refine ⟨hexact, fun hcheap => ?_⟩
      rw [hprovider] at hcheap
      exact absurd hcheap providers_ne
    · refine ⟨cheapRun_exact hne (cheapLoop_spec rfl), fun _ =>
        ⟨hsublist, (demandOf_nodup wishlist).sublist hsublist, ?_, hlength⟩⟩
      intro hnone a ha hcached
      rcases (htargets a ha).2 with hsome | hfresh
      · exact hsome hnone
      · exact hfresh (mem_fresh.mpr ⟨hnone, hcached⟩)
  · intro result hresult
    have hsame : result.runs = output.runs := cheapRung_result hresult
    refine ⟨hsame, ?_⟩
    have hgg : ∀ a, GotGgOffer clients result.runs a ↔ offered a := by
      intro a
      rw [hoffered, hsame]
      constructor
      · intro hgot
        obtain ⟨run, hrun, hprovider, hgot⟩ := hgot
        rcases hmem.mp hrun with hrun | ⟨-, rfl⟩
        · exact ⟨run, hrun, hprovider, hgot⟩
        · exact absurd hprovider.symm providers_ne
      · intro hgot
        obtain ⟨run, hrun, hgot⟩ := hgot
        exact ⟨run, hmem.mpr (.inl hrun), hgot⟩
    have hcheap : ∀ a, GotCheapOutcome clients result.runs a ↔
        a ∈ targets.takeWhile (isAnswered clients) := by
      intro a
      rw [hsame]
      constructor
      · intro hgot
        obtain ⟨run, hrun, hprovider, hgot⟩ := hgot
        rcases hmem.mp hrun with hrun | ⟨-, rfl⟩
        · rw [(hruns run hrun).1] at hprovider
          exact absurd hprovider providers_ne
        · exact hgot
      · intro hgot
        have hne : targets ≠ [] := by
          intro hnil
          rw [hnil] at hgot
          cases hgot
        exact ⟨_, hmem.mpr (.inr ⟨hne, rfl⟩), rfl, hgot⟩
    have hdemand : ∀ a, a ∈ demandOf wishlist ↔ ∃ game ∈ wishlist.games, game.appid = a := by
      intro a
      rw [demandOf, List.mem_map]
      exact exists_congr fun game =>
        and_congr_left fun _ => (Choice.sortBy_perm _ wishlist.games).mem_iff
    have hword := hcomplete (demandOf_nodup wishlist) (fun a ha => (mem_fresh.mp ha).1) h hresult
    rw [WordExact, hword]
    constructor
    · intro hall game hgame
      rw [hgg, hcheap]
      refine (hall game.appid ((hdemand _).mpr ⟨game, hgame, rfl⟩)).imp_right fun hrest =>
        hrest.imp_right fun hfresh => ?_
      obtain ⟨hnone, hcached⟩ := mem_fresh.mp hfresh.2
      exact ⟨hnone, hfresh.1, hcached⟩
    · intro hall a ha
      obtain ⟨game, hgame, rfl⟩ := (hdemand a).mp ha
      have hcase := hall game hgame
      rw [hgg, hcheap] at hcase
      exact hcase.imp_right fun hrest => hrest.imp_right fun hfresh =>
        ⟨hfresh.2.1, mem_fresh.mpr ⟨hfresh.1, hfresh.2.2⟩⟩

/-- The first rung: its run is exact, and what it leaves behind. -/
theorem ggRung_spec {clients : Clients} {request : SyncRequest} {selected : List Nat}
    (hnodup : selected.Nodup) (hne : selected ≠ [])
    (hpartitions : ∀ appids batch, clients.fetchAppPriceSummaries appids = .ok batch →
      Partitions appids batch)
    (hprovider : request.provider ≠ .cheapshark) (hkey : request.hasKey = true) :
    (∀ run ∈ (ggRung clients request selected).1,
      run.provider = "gg-deals" ∧ RunExact clients run) ∧
    ∀ ladder, (ggRung clients request selected).2 = .ok ladder →
      ladder.runs = (ggRung clients request selected).1 ∧
      Fallen request selected ladder (GotGgOffer clients ladder.runs) := by
  have hflatten := flatten_batchesOf (Nat.le_refl selected.length)
  have hspec := @ggLoop_spec clients (batchesOf selected.length selected) .initial
    (fun appids _ => hpartitions appids) (hflatten.symm ▸ hnodup) rfl rfl
  have hfallback : ∀ ladder, fallbackCandidates request selected ladder = ladder.candidates := by
    intro ladder
    unfold fallbackCandidates
    cases hselection : request.provider with
    | auto => rw [if_pos hkey]
    | ggDeals => rfl
    | cheapshark => exact absurd hselection hprovider
  unfold ggRung
  dsimp only
  generalize ggLoop clients .initial (batchesOf selected.length selected) = state at hspec
  have hexact := @ggRun_exact clients selected (request.maxItems.map Int.toNat) state hne hspec
  generalize hrun : recordRun "gg-deals" selected (request.maxItems.map Int.toNat) state.outcomes
    state.facts state.rate state.failure = run at hexact
  have hsame : run.provider = "gg-deals" := by
    rw [← hrun]
    rfl
  have hruns : ∀ run' ∈ [run], run'.provider = "gg-deals" ∧ RunExact clients run' :=
    List.forall_mem_singleton.mpr ⟨hsame, hexact⟩
  have hgot : ∀ a, GotGgOffer clients [run] a ↔
      GotOffer clients (batchesOf selected.length selected) a := by
    intro a
    have hbatches : run.batches = batchesOf selected.length selected := by
      rw [← hrun]
      rfl
    rw [GotGgOffer, ← hbatches]
    constructor
    · intro h
      obtain ⟨run', hmem, -, h⟩ := h
      rw [List.mem_singleton.mp hmem] at h
      exact h
    · intro h
      exact ⟨run, List.mem_singleton_self run, hsame, h⟩
  -- the ladder of a rung in which no snapshot is refused
  have hladder : ¬state.failure.any Failure.isSync = true → ∀ used, Fallen request selected
      ⟨[run], used, state.candidates, state.observed, state.evaluated⟩
      (GotGgOffer clients [run]) := by
    intro hsync used
    rcases hspec with ⟨hsync', -⟩ | ⟨-, -, hevaluated, hkeys, hcandidates⟩
    · exact absurd hsync' hsync
    · have hanswered : ∀ a, a ∈ state.evaluated ↔
          a ∈ (answeredBatches clients (batchesOf selected.length selected)).flatten := by
        intro a
        rw [hevaluated, hkeys]
        exact or_iff_right fun h => nomatch h
      refine ⟨fun a => ?_, fun a ha => ?_, fun a ha => ?_⟩
      · rw [hfallback, hgot]
        show a ∈ state.candidates ↔ _
        rw [hcandidates, hflatten]
        exact or_iff_right fun h => nomatch h
      · rw [← hflatten]
        exact ((List.takeWhile_sublist _).flatten).subset ((hanswered a).mp ha)
      · obtain ⟨appids, happids, batch, hbatch, hoffer⟩ := (hgot a).mp ha
        exact (hanswered a).mpr (List.mem_flatten.mpr
          ⟨appids, happids, (hpartitions appids batch hbatch).mem_of_offers hoffer⟩)
  split
  · refine ⟨?_, ?_⟩
    · split
      · exact hruns
      · exact hruns
    · split
      · nofun
      · nofun
  · split
    · exact ⟨hruns, nofun⟩
    · rename_i hnotSync
      refine ⟨hruns, fun ladder h => ?_⟩
      rw [← Except.ok.inj h]
      refine ⟨rfl, hladder ?_ _⟩
      cases hfailure : state.failure with
      | none => nofun
      | some failure =>
        cases failure with
        | client _ _ _ => nofun
        | sync code retryable => exact absurd hfailure (hnotSync code retryable)

/-- The words of the sync and of its runs are exact, whatever the clients answer. -/
theorem sync_completeness (clients : Clients) (request : SyncRequest)
    (wishlist : WishlistSnapshot) (cache : PriceCache) (evaluatedAt : Int)
    (hpartitions : ∀ appids batch, clients.fetchAppPriceSummaries appids = .ok batch →
      Partitions appids batch) :
    let output := syncWishlistPrices clients request wishlist cache evaluatedAt
    (∀ run ∈ output.runs,
      RunExact clients run ∧ TargetsExact request wishlist cache evaluatedAt run) ∧
    ∀ result, output.ending = .ok result → result.runs = output.runs ∧
      WordExact clients request wishlist (FreshCached cache evaluatedAt) result := by
  unfold syncWishlistPrices
  dsimp only
  cases hcheck : checkSync request wishlist evaluatedAt with
  | error e => exact ⟨List.forall_mem_nil _, nofun⟩
  | ok _ =>
    dsimp only
    have hitems : request.maxItems.any (fun n => ¬(1 ≤ n ∧ n ≤ 10000)) = false := by
      unfold checkSync at hcheck
      split at hcheck
      · cases hcheck
      · split at hcheck
        · cases hcheck
        · rename_i hvalid
          exact Bool.not_eq_true _ ▸ hvalid
    by_cases hempty : demandOf wishlist = []
    · rw [if_pos hempty]
      refine ⟨List.forall_mem_nil _, fun result h => ?_⟩
      rw [← Except.ok.inj h]
      refine ⟨rfl, iff_of_true rfl fun game hgame => ?_⟩
      have hmem : game.appid ∈ demandOf wishlist :=
        List.mem_map.mpr ⟨game, (Choice.sortBy_perm _ _).mem_iff.mpr hgame, rfl⟩
      rw [hempty] at hmem
      cases hmem
    · rw [if_neg hempty]
      have hselected : selectedOf request (demandOf wishlist) ≠ [] := by
        unfold selectedOf
        cases hmax : request.maxItems with
        | none => exact hempty
        | some n =>
          rw [hmax] at hitems
          have hrange : 1 ≤ n ∧ n ≤ 10000 := by simpa using hitems
          rw [Ne, List.take_eq_nil_iff]
          exact not_or.mpr ⟨by omega, hempty⟩
      by_cases hauth : request.provider = .ggDeals ∧ request.hasKey = false
      · rw [if_pos hauth]
        exact ⟨List.forall_mem_nil _, nofun⟩
      · rw [if_neg hauth]
        by_cases huse : request.provider ≠ .cheapshark ∧ request.hasKey = true
        · rw [if_pos huse]
          obtain ⟨hruns, hladder⟩ := ggRung_spec
            ((demandOf_nodup wishlist).sublist (selectedOf_sublist request _)) hselected
            hpartitions huse.1 huse.2
          generalize ggRung clients request (selectedOf request (demandOf wishlist)) = rung
            at hruns hladder
          obtain ⟨runs, ending⟩ := rung
          cases ending with
          | error e =>
            refine ⟨fun run hrun => ⟨(hruns run hrun).2, fun hcheap => ?_⟩, nofun⟩
            rw [(hruns run hrun).1] at hcheap
            exact absurd hcheap providers_ne
          | ok ladder =>
            obtain ⟨hsame, hfallen⟩ := hladder ladder rfl
            dsimp only at hsame
            exact cheapRung_exact hfallen (hsame.symm ▸ hruns) fun a => Iff.rfl
        · rw [if_neg huse]
          have hnone : ∀ a, ¬GotGgOffer clients [] a := by
            intro a h
            obtain ⟨run, hrun, -⟩ := h
            cases hrun
          refine cheapRung_exact ⟨fun a => ?_, fun a ha => absurd ha (Finset.notMem_empty a),
            fun a h => absurd h (hnone a)⟩ (List.forall_mem_nil _) fun a => Iff.rfl
          rw [and_iff_left (hnone a)]
          unfold fallbackCandidates
          cases hselection : request.provider with
          | cheapshark => exact Iff.rfl
          | auto =>
            cases hkey : request.hasKey with
            | true =>
              refine absurd ⟨?_, hkey⟩ huse
              rw [hselection]
              nofun
            | false => exact Iff.rfl
          | ggDeals =>
            cases hkey : request.hasKey with
            | true =>
              refine absurd ⟨?_, hkey⟩ huse
              rw [hselection]
              nofun
            | false => exact absurd ⟨hselection, hkey⟩ hauth

/-! ## A later attempt that masks a failure -/

/-- The last attempt that was to look the AppID up. -/
def latestTargeted (cache : PriceCache) (appid : Nat) : Option DemandRow :=
  cache.demandRows.reverse.find? fun row => row.appid == appid && row.targeted

/-- A subject of the cache is fresh, and the last attempt that was to look it up did not end
without an answer. -/
def FreshTargeted (cache : PriceCache) (evaluatedAt : Int) (appid : Nat) : Prop :=
  ∃ subject ∈ cache.subjects, subject.appid = appid ∧ evaluatedAt < subject.freshUntil ∧
    (latestTargeted cache appid).any (fun row =>
      !row.evaluated && (row.status == .failed || row.status == .partly)) = false

/-- Clients that find nothing. -/
def emptyClients : Clients where
  fetchAppPriceSummaries appids := .ok ⟨[], appids, ⟨none, none, none⟩⟩
  lookupSteamApp _ := .error ⟨"GAME_NOT_FOUND", false, none⟩

theorem emptyClients_partitions (appids : List Nat) (batch : GgBatch)
    (h : emptyClients.fetchAppPriceSummaries appids = .ok batch) : Partitions appids batch := by
  rw [← Except.ok.inj h]
  exact List.Perm.refl appids

def maskedRequest : SyncRequest :=
  ⟨"US", .auto, false, none⟩

def maskedWishlist : WishlistSnapshot where
  games := [⟨10, 1, 0⟩, ⟨20, 2, 0⟩, ⟨30, 3, 0⟩]
  latest := some ⟨1, false, none, some 0⟩
  latestComplete := some ⟨1, false, none, some 0⟩
  distinct := of_decide_eq_true rfl

/-- A lookup of the second game failed, and then only the first one was looked up.  The third
game is a new one. -/
def maskedCache : PriceCache where
  subjects := [⟨10, 200⟩, ⟨20, 100⟩]
  demandRows := [⟨1, .complete, 10, true, true⟩, ⟨1, .complete, 20, true, true⟩,
    ⟨2, .partly, 10, true, true⟩, ⟨2, .partly, 20, true, false⟩,
    ⟨3, .complete, 10, true, true⟩, ⟨3, .complete, 20, false, false⟩]

theorem sync_masked : ∃ result,
    (syncWishlistPrices emptyClients maskedRequest maskedWishlist maskedCache 0).ending =
      .ok result ∧ result.complete = true ∧
    result.runs.map (fun run => (run.provider, run.targeted)) = [("cheapshark", [30])] :=
  ⟨_, rfl, by decide, by decide⟩

theorem sync_completeness_masked :
    let output := syncWishlistPrices emptyClients maskedRequest maskedWishlist maskedCache 0
    (∀ run ∈ output.runs, RunExact emptyClients run ∧
      TargetsExact maskedRequest maskedWishlist maskedCache 0 run) ∧
    ∀ result, output.ending = .ok result → result.runs = output.runs ∧
      WordExact emptyClients maskedRequest maskedWishlist (FreshCached maskedCache 0) result :=
  sync_completeness emptyClients maskedRequest maskedWishlist maskedCache 0
    emptyClients_partitions

/-- The word is not exact in terms of the last attempt that was to look the subject up. -/
theorem sync_word_masked :
    ¬∀ (clients : Clients) (request : SyncRequest) (wishlist : WishlistSnapshot)
      (cache : PriceCache) (evaluatedAt : Int),
      (∀ appids batch, clients.fetchAppPriceSummaries appids = .ok batch →
        Partitions appids batch) →
      ∀ result, (syncWishlistPrices clients request wishlist cache evaluatedAt).ending =
        .ok result →
      WordExact clients request wishlist (FreshTargeted cache evaluatedAt) result := by
  intro h
  obtain ⟨result, hresult, hcomplete, hruns⟩ := sync_masked
  have hword := (h emptyClients maskedRequest maskedWishlist maskedCache 0
    emptyClients_partitions result hresult).mp hcomplete ⟨20, 2, 0⟩ (by decide)
  have hrun : ∀ run ∈ result.runs, (run.provider, run.targeted) = ("cheapshark", [30]) := by
    intro run hrun
    have hmem := List.mem_map_of_mem (f := fun run => (run.provider, run.targeted)) hrun
    rw [hruns] at hmem
    exact List.mem_singleton.mp hmem
  rcases hword with ⟨run, hmem, hprovider, -⟩ | ⟨run, hmem, -, hanswered⟩ | ⟨-, -, hcached⟩
  · rw [(Prod.mk.inj (hrun run hmem)).1] at hprovider
    exact providers_ne hprovider.symm
  · rw [(Prod.mk.inj (hrun run hmem)).2] at hanswered
    have htarget := (List.takeWhile_sublist _).subset hanswered
    exact absurd htarget (by decide)
  · obtain ⟨subject, -, -, -, hended⟩ := hcached
    exact absurd hended (by decide)

end SteamAgent.Deals
