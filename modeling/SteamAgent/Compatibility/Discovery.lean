import Mathlib.Data.List.Forall2
import SteamAgent.Compatibility.Supersession

/-!
# Facts that are for discovery only

Schema 0.2 of the declared facts adds what a search uses: the source and the
numbers of the categories, genres, and whether an app is coming soon.  Two
snapshots that differ in these, and in the categories that no gate asks for, are
assessed alike, down to the identifiers of the lineage.

There are three groups.

* The relation between two facts, and between two snapshots.
* One step of the query after the other.
* The result, and two snapshots.
-/

namespace SteamAgent.Compatibility

open Choice (sortBy sortBy_eq)
open Datetime (Instant)

/-! ## The relation -/

/-- The keys of the facts that are for discovery, besides parts of the categories. -/
def discoveryKeys : List String :=
  ["schema_id", "categories", "genres", "coming_soon"]

/-- The keys of the categories that are for discovery. -/
def discoveryCategoryKeys : List String :=
  ["source", "numeric_ids", "unknown_ids", "known_slugs"]

/-- The slugs that a gate can ask for. -/
def gateSlugs : List String :=
  inputFeatureSlugs ++ accessibilityFeatureSlugs

/-- The categories differ in what is for discovery. -/
structure SameCategories (categories categories' : List (String × JsonValue)) : Prop where
  fields : ∀ key, key ∉ discoveryCategoryKeys → field categories key = field categories' key
  slugs : ∃ slugs slugs', field categories "known_slugs" = .arr slugs ∧
    field categories' "known_slugs" = .arr slugs' ∧
    ∀ slug ∈ gateSlugs, JsonValue.str slug ∈ slugs ↔ JsonValue.str slug ∈ slugs'

/-- The facts differ in what is for discovery. -/
structure DiscoveryOnly (facts facts' : List (String × JsonValue)) : Prop where
  fields : ∀ key, key ∉ discoveryKeys → field facts key = field facts' key
  categories : ∃ categories categories', field facts "categories" = .obj categories ∧
    field facts' "categories" = .obj categories' ∧ SameCategories categories categories'

/-- The projections of an AppID differ in what is for discovery. -/
structure SameProjection (current current' : DeclaredAppProjection) : Prop where
  facts : DiscoveryOnly current.facts current'.facts
  observedAt : current.observedAt = current'.observedAt
  promotedSyncRunId : current.promotedSyncRunId = current'.promotedSyncRunId

structure SameSubject (subject subject' : DeclaredAppSubject) : Prop where
  appid : subject.appid = subject'.appid
  current : Option.Rel SameProjection subject.current subject'.current
  latestDemand : subject.latestDemand = subject'.latestDemand

/-- The snapshots differ in what their declared facts have for discovery. -/
structure SameSnapshot (snapshot snapshot' : CompatibilitySnapshot) : Prop where
  declaredApps : List.Forall₂ SameSubject snapshot.declaredApps snapshot'.declaredApps
  others : snapshot' = { snapshot with declaredApps := snapshot'.declaredApps }

/-! ## Facts -/

section Facts

variable {facts facts' : List (String × JsonValue)}

theorem mem_allowedSlugs {items : List JsonValue} {slug : String} :
    slug ∈ (items.filterMap allowedSlug).dedup ↔ JsonValue.str slug ∈ items ∧ slug ∈ gateSlugs := by
  rw [List.mem_dedup, List.mem_filterMap]
  constructor
  · rintro ⟨item, hitem, hslug⟩
    cases item with
    | str s =>
      unfold allowedSlug at hslug
      simp only at hslug
      split at hslug
      · cases hslug
        rename_i hmem
        exact ⟨hitem, hmem⟩
      · cases hslug
    | null => cases hslug
    | bool => cases hslug
    | int => cases hslug
    | float => cases hslug
    | arr => cases hslug
    | obj => cases hslug
  · rintro ⟨hitem, hslug⟩
    exact ⟨_, hitem, if_pos hslug⟩

/-- The slugs that count are the same, in the same order. -/
theorem allowedSlugs_eq {slugs slugs' : List JsonValue}
    (h : ∀ slug ∈ gateSlugs, JsonValue.str slug ∈ slugs ↔ JsonValue.str slug ∈ slugs') :
    allowedSlugs (.arr slugs) = allowedSlugs (.arr slugs') := by
  unfold allowedSlugs
  refine sortBy_eq ?_ fun _ _ _ _ hsame => hsame
  refine (List.perm_ext_iff_of_nodup (List.nodup_dedup _) (List.nodup_dedup _)).mpr fun slug => ?_
  rw [mem_allowedSlugs, mem_allowedSlugs]
  exact and_congr_left fun hmem => h slug hmem

theorem compatibilityDeclaredFacts_eq (h : DiscoveryOnly facts facts') :
    compatibilityDeclaredFacts facts = compatibilityDeclaredFacts facts' := by
  unfold compatibilityDeclaredFacts
  have hkeys : ∀ key ∈ projectedKeys, key ∉ discoveryKeys := by decide
  have hkept : (projectedKeys.map fun key => (key, field facts key)) =
      projectedKeys.map fun key => (key, field facts' key) := by
    refine List.map_congr_left fun key hkey => ?_
    rw [h.fields key (hkeys key hkey)]
  obtain ⟨categories, categories', hcategories, hcategories', hsame⟩ := h.categories
  obtain ⟨slugs, slugs', hslugs, hslugs', hgates⟩ := hsame.slugs
  rw [hkept, hcategories, hcategories']
  unfold projectedCategories
  simp only [hslugs, hslugs', allowedSlugs_eq hgates, hsame.fields "state" (by decide)]

end Facts

/-! ## Queries -/

/-- The rows of an AppID differ in what is for discovery. -/
structure SameItem (item item' : DeclaredItem) : Prop where
  facts : ∃ facts facts', item.facts = .obj facts ∧ item'.facts = .obj facts' ∧
    DiscoveryOnly facts facts'
  others : item' = { item with facts := item'.facts }

/-- The sources of an AppID differ in what is for discovery. -/
structure SameSources (sources sources' : Sources) : Prop where
  item : Option.Rel SameItem sources.item sources'.item
  others : sources' = { sources with item := sources'.item }

section Queries

variable {lib : QueryLibrary} {appid : Int} {now : Instant} {target : CompatibilityTarget}
  {demand : Option DeclaredDemand}

theorem failedLater_same {item item' : DeclaredItem} (h : SameItem item item')
    (observed : Option Instant) :
    failedLater lib item' demand observed = failedLater lib item demand observed := by
  rw [h.others]
  rfl

theorem declared_same {item item' : Option DeclaredItem} (h : Option.Rel SameItem item item') :
    declared lib item' demand appid now = declared lib item demand appid now := by
  cases h with
  | none => rfl
  | some hitem =>
    rename_i item item'
    obtain ⟨facts, facts', hfacts, hfacts', hdiscovery⟩ := hitem.facts
    have hobserved : item'.observedAt = item.observedAt := by rw [hitem.others]
    unfold declared
    simp only [hfacts, hfacts']
    unfold declaredOfFacts
    simp only [hobserved, failedLater_same hitem, compatibilityDeclaredFacts_eq hdiscovery,
      hdiscovery.fields "appid" (by decide)]

theorem declaredProjectionIdentity_same {item item' : DeclaredItem} (h : SameItem item item')
    (facts : List (String × JsonValue)) :
    declaredProjectionIdentity lib item' facts = declaredProjectionIdentity lib item facts := by
  rw [h.others]
  rfl

theorem candidateRequirements_same {sources sources' : Sources} (h : SameSources sources sources')
    (d : Declared) (native : PrimitiveEvidence) :
    candidateRequirements lib appid target now sources' d native =
      candidateRequirements lib appid target now sources d native := by
  have hconflict : candidateConflict sources' target d = candidateConflict sources target d := by
    rw [h.others]
    rfl
  unfold candidateRequirements
  rw [hconflict]
  have hinstalled : sources'.installed = sources.installed := by rw [h.others]
  have hitem := h.item
  have hminimum : ∀ {item item' : DeclaredItem}, SameItem item item' → ∀ facts declaredAt,
      candidateMinimum lib appid target now sources' item' facts declaredAt =
        candidateMinimum lib appid target now sources item facts declaredAt := by
    intro item item' hsame facts declaredAt
    unfold candidateMinimum
    rw [declaredProjectionIdentity_same hsame, h.others]
  rw [hinstalled]
  revert hitem
  generalize sources.item = item
  generalize sources'.item = item'
  intro hitem
  cases hitem with
  | none => rfl
  | some hsame =>
    cases d.facts with
    | none => rfl
    | some facts =>
      cases d.observedAt with
      | none => rfl
      | some declaredAt => simp only [hminimum hsame]

theorem candidate_same {sourcesOf sourcesOf' : Int → Sources}
    (h : SameSources (sourcesOf appid) (sourcesOf' appid)) :
    candidate lib target now sourcesOf' appid = candidate lib target now sourcesOf appid := by
  have hdeclared : declared lib (sourcesOf' appid).item (sourcesOf' appid).demand appid now =
      declared lib (sourcesOf appid).item (sourcesOf appid).demand appid now := by
    have hdemand : (sourcesOf' appid).demand = (sourcesOf appid).demand := by rw [h.others]
    rw [hdemand]
    exact declared_same h.item
  have hsystem : (sourcesOf' appid).system = (sourcesOf appid).system := by rw [h.others]
  have hinstalled : (sourcesOf' appid).installed = (sourcesOf appid).installed := by rw [h.others]
  have howned : (sourcesOf' appid).owned = (sourcesOf appid).owned := by rw [h.others]
  have hconflict : ∀ d, candidateConflict (sourcesOf' appid) target d =
      candidateConflict (sourcesOf appid) target d := by
    intro d
    rw [h.others]
    rfl
  unfold candidate
  simp only [hdeclared, hsystem, hinstalled, howned, hconflict, candidateRequirements_same h]

theorem subjectGaps_same {sourcesOf sourcesOf' : Int → Sources}
    (h : SameSources (sourcesOf appid) (sourcesOf' appid)) :
    subjectGaps lib now sourcesOf' appid = subjectGaps lib now sourcesOf appid := by
  have hdeclared : declared lib (sourcesOf' appid).item (sourcesOf' appid).demand appid now =
      declared lib (sourcesOf appid).item (sourcesOf appid).demand appid now := by
    have hdemand : (sourcesOf' appid).demand = (sourcesOf appid).demand := by rw [h.others]
    rw [hdemand]
    exact declared_same h.item
  have hsystem : (sourcesOf' appid).system = (sourcesOf appid).system := by rw [h.others]
  have hinstalled : (sourcesOf' appid).installed = (sourcesOf appid).installed := by rw [h.others]
  have howned : (sourcesOf' appid).owned = (sourcesOf appid).owned := by rw [h.others]
  unfold subjectGaps
  simp only [hdeclared, hsystem, hinstalled, howned]

/-- The rows of a list are by AppID, and related. -/
def SameRows {α β : Type} (r : α → β → Prop) (rows : List (Int × α)) (rows' : List (Int × β)) :
    Prop :=
  List.Forall₂ (fun row row' => row.1 = row'.1 ∧ r row.2 row'.2) rows rows'

theorem lookup_same {α β : Type} {r : α → β → Prop} {rows : List (Int × α)} {rows' : List (Int × β)}
    (h : SameRows r rows rows') : Option.Rel r (rows.lookup appid) (rows'.lookup appid) := by
  induction h with
  | nil => exact .none
  | @cons row row' rows rows' hrow _ ih =>
    obtain ⟨key, value⟩ := row
    obtain ⟨key', value'⟩ := row'
    obtain ⟨rfl, hvalue⟩ := hrow
    rw [List.lookup_cons, List.lookup_cons]
    cases appid == key with
    | true => exact .some hvalue
    | false => exact ih

theorem keys_same {α β : Type} {r : α → β → Prop} {rows : List (Int × α)} {rows' : List (Int × β)}
    (h : SameRows r rows rows') : rows.map Prod.fst = rows'.map Prod.fst := by
  induction h with
  | nil => rfl
  | cons hrow _ ih => rw [List.map_cons, List.map_cons, hrow.1, ih]

theorem indexedRows_same {α β : Type} {r : α → β → Prop} {rows : List (Int × α)}
    {rows' : List (Int × β)} (h : SameRows r rows rows') (requested : List Int) (name : String) :
    indexedRows rows' requested name = indexedRows rows requested name := by
  have hkeys := keys_same h
  have hmem : (∀ row ∈ rows', row.1 ∈ requested) ↔ ∀ row ∈ rows, row.1 ∈ requested := by
    rw [← List.forall_mem_map, ← List.forall_mem_map (f := Prod.fst), hkeys]
  unfold indexedRows
  simp only [← hkeys, hmem, (List.Forall₂.length_eq h).symm]

/-- The queries differ in what is for discovery. -/
structure SameQuery (query query' : Query) : Prop where
  items : SameRows SameItem query.items query'.items
  others : query' = { query with items := query'.items }

theorem sources_same {query query' : Query} (h : SameQuery query query') :
    SameSources (query.sources appid) (query'.sources appid) := by
  refine ⟨lookup_same h.items, ?_⟩
  rw [h.others]
  rfl

theorem reconstructionCompleteness_same {query query' : Query} (h : SameQuery query query')
    (requested : List Int) : reconstructionCompleteness lib query' requested now =
      reconstructionCompleteness lib query requested now := by
  have hsubjects : requested.map (subjectGaps lib now query'.sources) =
      requested.map (subjectGaps lib now query.sources) :=
    List.map_congr_left fun _ _ => subjectGaps_same (sources_same h)
  have hempty : query'.items.isEmpty = query.items.isEmpty := by
    rw [Bool.eq_iff_iff, List.isEmpty_iff_length_eq_zero, List.isEmpty_iff_length_eq_zero,
      List.Forall₂.length_eq h.items]
  have hsystem : query'.system = query.system := by rw [h.others]
  have hinstalled : query'.installed = query.installed := by rw [h.others]
  have howned : query'.owned = query.owned := by rw [h.others]
  unfold reconstructionCompleteness
  simp only [hsubjects, hempty, hsystem, hinstalled, howned]

theorem reconstructCompatibility_same {query query' : Query} (h : SameQuery query query') :
    reconstructCompatibility lib query' = reconstructCompatibility lib query := by
  have hcandidate : candidate lib query.target query.generatedAt.wholeSecond query'.sources =
      candidate lib query.target query.generatedAt.wholeSecond query.sources :=
    funext fun _ => candidate_same (sources_same h)
  have hothers := h.others
  unfold reconstructCompatibility
  simp only [show query'.requestedAppids = query.requestedAppids by rw [hothers],
    show query'.target = query.target by rw [hothers],
    show query'.generatedAt = query.generatedAt by rw [hothers],
    show query'.demand = query.demand by rw [hothers],
    show query'.installed = query.installed by rw [hothers],
    show query'.owned = query.owned by rw [hothers],
    show query'.requirements = query.requirements by rw [hothers],
    show query'.overrides = query.overrides by rw [hothers],
    indexedRows_same h.items, hcandidate, reconstructionCompleteness_same h]

end Queries

/-! ## Snapshots -/

theorem declaredItem_same {lib : QueryLibrary} {subject subject' : DeclaredAppSubject}
    (h : SameSubject subject subject') :
    Option.Rel (fun row row' : Int × DeclaredItem => row.1 = row'.1 ∧ SameItem row.2 row'.2)
      (declaredItem lib subject) (declaredItem lib subject') := by
  obtain ⟨appid, current, demand⟩ := subject
  obtain ⟨appid', current', demand'⟩ := subject'
  obtain ⟨happid, hcurrent, -⟩ := h
  cases hcurrent with
  | none => exact .none
  | some hsame =>
    refine .some ⟨happid, ⟨_, _, rfl, rfl, hsame.facts⟩, ?_⟩
    simp only [hsame.observedAt, hsame.promotedSyncRunId, compatibilityDeclaredFacts_eq hsame.facts]

theorem demand_same {subjects subjects' : List DeclaredAppSubject}
    (h : List.Forall₂ SameSubject subjects subjects') :
    (subjects'.map fun subject => (subject.appid, subject.latestDemand)) =
      subjects.map fun subject => (subject.appid, subject.latestDemand) := by
  induction h with
  | nil => rfl
  | cons hsubject _ ih => rw [List.map_cons, List.map_cons, hsubject.appid, hsubject.latestDemand, ih]

/-- Facts for discovery do not change what a snapshot is assessed as. -/
theorem discovery_only_facts_do_not_count (lib : QueryLibrary)
    (snapshot snapshot' : CompatibilitySnapshot) (h : SameSnapshot snapshot snapshot')
    (target : CompatibilityTarget) (requirements : List FeatureRequirement)
    (overrides : List GateOverride) :
    assessCompatibilitySnapshot lib snapshot' target requirements overrides =
      assessCompatibilitySnapshot lib snapshot target requirements overrides := by
  have hothers := h.others
  have hsystem : systemOfSnapshot lib snapshot' target = systemOfSnapshot lib snapshot target := by
    rw [hothers]
    rfl
  have hitems : SameRows SameItem (snapshot.declaredApps.filterMap (declaredItem lib))
      (snapshot'.declaredApps.filterMap (declaredItem lib)) :=
    List.rel_filterMap (fun _ _ hsubject => declaredItem_same hsubject) h.declaredApps
  have hreconstruct : ∀ generatedAt system installed owned,
      reconstructCompatibility lib ⟨snapshot.requested, target, generatedAt, system,
        snapshot'.declaredApps.filterMap (declaredItem lib),
        snapshot.declaredApps.map fun subject => (subject.appid, subject.latestDemand), installed,
        owned, requirements, overrides⟩ =
      reconstructCompatibility lib ⟨snapshot.requested, target, generatedAt, system,
        snapshot.declaredApps.filterMap (declaredItem lib),
        snapshot.declaredApps.map fun subject => (subject.appid, subject.latestDemand), installed,
        owned, requirements, overrides⟩ :=
    fun _ _ _ _ => reconstructCompatibility_same ⟨hitems, rfl⟩
  unfold assessCompatibilitySnapshot
  simp only [hsystem, demand_same h.declaredApps, show snapshot'.asOf = snapshot.asOf by rw [hothers],
    show snapshot'.requested = snapshot.requested by rw [hothers],
    show snapshot'.installed = snapshot.installed by rw [hothers],
    show snapshot'.owned = snapshot.owned by rw [hothers], hreconstruct]

/-- Facts of schema 0.1, and the same facts in schema 0.2. -/
def legacyFacts : List (String × JsonValue) :=
  [("schema_id", .str "declared-app-facts/0.1"), ("appid", .int 57),
    ("categories", .obj [("state", .str "declared"),
      ("known_slugs", .arr [.str "full_controller_support"]), ("unknown_ids", .arr [.int 1])])]

def expandedFacts : List (String × JsonValue) :=
  [("schema_id", .str "declared-app-facts/0.2"), ("appid", .int 57),
    ("categories", .obj [("state", .str "declared"),
      ("known_slugs", .arr [.str "full_controller_support", .str "multi_player"]),
      ("unknown_ids", .arr []), ("source", .str "steam_store_appdetails"),
      ("numeric_ids", .arr [.int 1, .int 28])]),
    ("genres", .obj [("state", .str "undeclared")]),
    ("coming_soon", .obj [("state", .str "present")])]

theorem discoveryOnly_expandedFacts : DiscoveryOnly legacyFacts expandedFacts := by
  refine ⟨?_, _, _, rfl, rfl, ?_, _, _, rfl, rfl, ?_⟩
  · intro key hkey
    simp only [discoveryKeys, List.mem_cons, List.not_mem_nil, or_false, not_or] at hkey
    obtain ⟨hschema, hcategories, hgenres, hsoon⟩ := hkey
    simp only [field, JsonValue.get, legacyFacts, expandedFacts, List.lookup_cons, List.lookup_nil,
      beq_false_of_ne hschema, beq_false_of_ne hcategories, beq_false_of_ne hgenres,
      beq_false_of_ne hsoon]
  · intro key hkey
    simp only [discoveryCategoryKeys, List.mem_cons, List.not_mem_nil, or_false, not_or] at hkey
    obtain ⟨hsource, hnumeric, hunknown, hknown⟩ := hkey
    simp only [field, JsonValue.get, List.lookup_cons, List.lookup_nil, beq_false_of_ne hsource,
      beq_false_of_ne hnumeric, beq_false_of_ne hunknown, beq_false_of_ne hknown]
  · intro slug hslug
    have hne : slug ≠ "multi_player" := by
      rintro rfl
      exact absurd hslug (by decide)
    simp [hne]

/-- A snapshot with the facts. -/
def deskSnapshot (facts : List (String × JsonValue)) : CompatibilitySnapshot where
  asOf := "2020-01-09T00:00:00Z"
  machineId := "desk"
  requested := [57]
  systemCurrent := none
  systemLatest := none
  declaredApps := [⟨57, some ⟨facts, "2020-01-08T00:00:00Z", some 1⟩,
    ⟨true, true, some "ready", none, some "2020-01-08T00:00:00Z", none, some 1⟩⟩]
  installed := ⟨[], none, none⟩
  owned := ⟨[], none, none⟩

theorem discovery_only_facts_do_not_count_desk :
    assessCompatibilitySnapshot asciiQueryLibrary (deskSnapshot expandedFacts) deskTarget [] [] =
      assessCompatibilitySnapshot asciiQueryLibrary (deskSnapshot legacyFacts) deskTarget [] [] :=
  discovery_only_facts_do_not_count asciiQueryLibrary (deskSnapshot legacyFacts)
    (deskSnapshot expandedFacts)
    ⟨.cons ⟨rfl, .some ⟨discoveryOnly_expandedFacts, rfl, rfl⟩, rfl⟩ .nil, rfl⟩ deskTarget [] []

end SteamAgent.Compatibility
