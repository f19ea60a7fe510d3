import Mathlib.Data.List.MinMax
import Mathlib.Data.String.Basic
import SteamAgent.Execution.Sessions
import SteamAgent.Stdlib.Result
import SteamAgent.Stdlib.Sha256

/-!
# The policy file

`load_policy`, from the bytes of `policy.toml` to the grants of the owner.
`tomllib` is a parameter.  What it returns is a tree of tables; a number with a
fraction and a date keep their text, which nothing looks into.

There are three groups.

* The checks, one definition for each table and each kind of entry.
* `WellFormed`: the documents that pass all of them, and `policyOf_accepts`.
* What a loaded policy says about an operation, an AppID and force, read off
  the document: `loadPolicyFile_exact`.
-/

namespace SteamAgent.Execution

open Ledger (Operation)
open Sha256 (Bytes sha256hex)

/-- A value of a TOML document. -/
inductive TomlValue where
  | str (s : String)
  | int (n : Int)
  | bool (b : Bool)
  | array (items : List TomlValue)
  | table (fields : List (String × TomlValue))
  | other (text : String)

/-- A table of a TOML document. -/
abbrev TomlTable := List (String × TomlValue)

/-- What `load_policy` uses of the standard library: `tomllib.loads` of the
decoded bytes, and `repr`.  `loads` is `none` where `tomllib` raises.  That is a
`TOMLDecodeError` or a `UnicodeDecodeError`, which become a `PolicyError`, or the
`ValueError` of an integer of more than 4300 digits or a `RecursionError`, which
escape `load_policy`; no policy is returned either way. -/
structure TomlLibrary where
  loads : Bytes → Option TomlTable
  repr : TomlValue → String

/-- `ExecutionPolicy`, whole. -/
structure LoadedPolicy extends ExecutionPolicy where
  version : String
  minFreeGb : Option Nat
deriving DecidableEq

/-! ## The checks -/

/-- `SUPPORTED_GRANTS`, which is one set for every operation. -/
def supportedGrants : List String :=
  ["allow", "confirm", "deny"]

/-- `MAX_LAUNCH_ALLOWLIST`. -/
def maxLaunchAllowlist : Nat := 256

/-- `_MAX_APPID`. -/
def maxAppid : Nat := 0xFFFFFFFF

/-- `document.get(name, {})`, which must be a table. -/
def tableAt (document : TomlTable) (name : String) : Except Exn TomlTable :=
  match document.lookup name with
  | none => .ok []
  | some (.table fields) => .ok fields
  | some _ => .error (.policyError ("[" ++ name ++ "] must be a table"))

/-- `set(table) - supported` must be empty. -/
def supportedKeys (lib : TomlLibrary) (what : String) (table : TomlTable) (supported : List String) :
    Except Exn Unit :=
  match ((table.map Prod.fst).filter fun key => !supported.contains key).argmin id with
  | none => .ok ()
  | some key => .error (.policyError ("unsupported " ++ what ++ " key " ++ lib.repr (.str key)))

/-- One entry of `[grants]`. -/
def grantOf (lib : TomlLibrary) (entry : String × TomlValue) : Except Exn (Operation × String) :=
  match Operation.parse entry.1 with
  | none => .error (.policyError ("unsupported grant key " ++ lib.repr (.str entry.1)))
  | some operation =>
    match entry.2 with
    | .str grant =>
      if supportedGrants.contains grant then .ok (operation, grant)
      else
        .error (.policyError ("unsupported grant value " ++ lib.repr entry.2 ++ " for " ++
          lib.repr (.str entry.1)))
    | _ =>
      .error (.policyError ("unsupported grant value " ++ lib.repr entry.2 ++ " for " ++
        lib.repr (.str entry.1)))

/-- `min_free_gb` of `[limits]`. -/
def minFreeGbOf (limits : TomlTable) : Except Exn (Option Nat) :=
  match limits.lookup "min_free_gb" with
  | none => .ok none
  | some (.int n) =>
    if n < 0 then .error (.policyError "min_free_gb must be a non-negative integer")
    else .ok (some n.toNat)
  | some _ => .error (.policyError "min_free_gb must be a non-negative integer")

/-- A Steam AppID. -/
def appidOf (who : String) : TomlValue → Except Exn Nat
  | .int n =>
    if 1 ≤ n ∧ n ≤ maxAppid then .ok n.toNat
    else .error (.policyError (who ++ "allowed_appids must contain Steam AppIDs"))
  | _ => .error (.policyError (who ++ "allowed_appids must contain Steam AppIDs"))

/-- `allowed_appids` of `[launch]` or `[stop]`. -/
def allowedAppids (who : String) (table : TomlTable) : Except Exn (List Nat) :=
  match table.lookup "allowed_appids" with
  | none => .ok []
  | some (.array entries) =>
    if entries.length > maxLaunchAllowlist then
      .error (.policyError (who ++ "allowed_appids must be a list of at most 256 AppIDs"))
    else entries.mapM (appidOf who)
  | some _ => .error (.policyError (who ++ "allowed_appids must be a list of at most 256 AppIDs"))

/-- `allow_force` of `[stop]`. -/
def allowForceOf (stop : TomlTable) : Except Exn Bool :=
  match stop.lookup "allow_force" with
  | none => .ok false
  | some (.bool b) => .ok b
  | some _ => .error (.policyError "stop allow_force must be a boolean")

/-- An operation that is granted without a question needs a disk floor. -/
def requireFloor (grants : List (Operation × String)) (minFreeGb : Option Nat) : Except Exn Unit :=
  if minFreeGb = none ∧ (grants.any fun g => g.1 != .stop && g.2 == "allow") = true then
    .error (.policyError "grant \"allow\" requires [limits] min_free_gb")
  else .ok ()

/-- `grants.get(operation, "deny")`. -/
def grantIn (grants : List (Operation × String)) (operation : Operation) : String :=
  ((grants.find? fun g => g.1 == operation).map Prod.snd).getD "deny"

/-- A granted operation needs an AppID on its list. -/
def requireAppids (grants : List (Operation × String)) (operation : Operation) (appids : List Nat) :
    Except Exn Unit :=
  if grantIn grants operation ≠ "deny" ∧ appids = [] then
    .error (.policyError ("granting \"" ++ operation.text ++ "\" requires a non-empty [" ++
      operation.text ++ "] allowed_appids"))
  else .ok ()

/-- The document, once it is read. -/
def policyOf (lib : TomlLibrary) (raw : Bytes) (document : TomlTable) : Except Exn LoadedPolicy := do
  supportedKeys lib "policy" document ["grants", "limits", "launch", "stop"]
  let entries ← tableAt document "grants"
  let grants ← entries.mapM (grantOf lib)
  let limits ← tableAt document "limits"
  supportedKeys lib "limit" limits ["min_free_gb"]
  let minFreeGb ← minFreeGbOf limits
  requireFloor grants minFreeGb
  let launch ← tableAt document "launch"
  supportedKeys lib "launch" launch ["allowed_appids"]
  let launchAllowlist ← allowedAppids "" launch
  requireAppids grants .launch launchAllowlist
  let stop ← tableAt document "stop"
  supportedKeys lib "stop" stop ["allowed_appids", "allow_force"]
  let stopAllowlist ← allowedAppids "stop " stop
  let stopAllowForce ← allowForceOf stop
  requireAppids grants .stop stopAllowlist
  .ok
    { grants := grants, launchAllowlist := launchAllowlist, stopAllowlist := stopAllowlist
      stopAllowForce := stopAllowForce, version := String.ofList ((sha256hex raw).toList.take 16)
      minFreeGb := minFreeGb }

/-- `load_policy`, on what `path.read_bytes()` came to. -/
def loadPolicyFile (lib : TomlLibrary) (name : String) (read : Except Exn Bytes) :
    Except Exn LoadedPolicy :=
  match read with
  | .error x =>
    .error (if x.isOSError then .policyError ("policy file unavailable: " ++ name) else x)
  | .ok raw =>
    match lib.loads raw with
    | none => .error (.policyError "policy file is not valid TOML")
    | some document => policyOf lib raw document
/-! ## One check -/

theorem parse_eq_some {key : String} {operation : Operation} :
    Operation.parse key = some operation ↔ key = operation.text := by
  constructor
  · intro h
    unfold Operation.parse at h
    split at h <;> cases h <;> rfl
  · intro h
    rw [h]
    cases operation <;> rfl

theorem supportedKeys_ok {lib : TomlLibrary} {what : String} {table : TomlTable}
    {supported : List String} :
    supportedKeys lib what table supported = .ok () ↔ ∀ f ∈ table, f.1 ∈ supported := by
  have hnil : ((table.map Prod.fst).filter fun key => !supported.contains key) = [] ↔
      ∀ f ∈ table, f.1 ∈ supported := by
    simp [List.filter_eq_nil_iff]
  unfold supportedKeys
  split
  · rename_i h
    exact ⟨fun _ => hnil.mp (List.argmin_eq_none.mp h), fun _ => rfl⟩
  · rename_i key h
    have hmem := List.argmin_mem h
    refine ⟨fun h => (by cases h), fun hall => ?_⟩
    rw [hnil.mpr hall] at hmem
    exact absurd hmem List.not_mem_nil

theorem tableAt_ok {document t : TomlTable} {name : String} :
    tableAt document name = .ok t ↔
      document.lookup name = none ∧ t = [] ∨ document.lookup name = some (.table t) := by
  unfold tableAt
  split
  · rename_i h
    simp [h, eq_comm]
  · rename_i fields h
    simp [h]
  · rename_i v hv h
    rw [h]
    refine ⟨fun h => (by cases h), ?_⟩
    intro h
    rcases h with ⟨h, -⟩ | h
    · cases h
    · exact absurd (Option.some.inj h) (hv t)

theorem grantOf_ok {lib : TomlLibrary} {entry : String × TomlValue} {g : Operation × String} :
    grantOf lib entry = .ok g ↔
      entry.1 = g.1.text ∧ entry.2 = .str g.2 ∧ g.2 ∈ supportedGrants := by
  obtain ⟨key, value⟩ := entry
  obtain ⟨operation, grant⟩ := g
  rw [← parse_eq_some]
  dsimp only [grantOf]
  cases Operation.parse key with
  | none => simp
  | some operation' =>
    cases value with
    | str grant' =>
      dsimp only
      by_cases hg : supportedGrants.contains grant' = true
      · rw [if_pos hg]
        have hmem : grant' ∈ supportedGrants := by simpa using hg
        constructor
        · intro h
          cases h
          exact ⟨rfl, rfl, hmem⟩
        · rintro ⟨ho, hv, -⟩
          cases ho
          cases hv
          rfl
      · rw [if_neg hg]
        refine ⟨fun h => (by cases h), ?_⟩
        rintro ⟨-, hv, hmem⟩
        cases hv
        exact absurd (by simpa using hmem) hg
    | _ => simp

theorem minFreeGbOf_ok {limits : TomlTable} {floor : Option Nat} :
    minFreeGbOf limits = .ok floor ↔
      limits.lookup "min_free_gb" = none ∧ floor = none ∨
        ∃ n : Nat, limits.lookup "min_free_gb" = some (.int n) ∧ floor = some n := by
  unfold minFreeGbOf
  split
  · rename_i h
    simp [h, eq_comm]
  · rename_i n h
    rw [h]
    by_cases hn : n < 0
    · rw [if_pos hn]
      refine ⟨fun h => (by cases h), ?_⟩
      rintro (⟨h, -⟩ | ⟨k, h, -⟩)
      · cases h
      · cases h
        omega
    · rw [if_neg hn]
      constructor
      · intro h
        cases h
        exact Or.inr ⟨n.toNat, by rw [Int.toNat_of_nonneg (by omega)], rfl⟩
      · rintro (⟨h, -⟩ | ⟨k, h, rfl⟩)
        · cases h
        · cases h
          rfl
  · rename_i v hv h
    rw [h]
    refine ⟨fun h => (by cases h), ?_⟩
    rintro (⟨h, -⟩ | ⟨k, h, -⟩)
    · cases h
    · exact absurd (Option.some.inj h) (hv k)

theorem appidOf_ok {who : String} {value : TomlValue} {appid : Nat} :
    appidOf who value = .ok appid ↔ value = .int appid ∧ 1 ≤ appid ∧ appid ≤ maxAppid := by
  cases value with
  | int n =>
    dsimp only [appidOf]
    by_cases hn : 1 ≤ n ∧ n ≤ maxAppid
    · rw [if_pos hn]
      constructor
      · intro h
        cases h
        refine ⟨?_, by omega, by omega⟩
        rw [Int.toNat_of_nonneg (by omega)]
      · rintro ⟨h, -, -⟩
        cases h
        rfl
    · rw [if_neg hn]
      refine ⟨fun h => (by cases h), ?_⟩
      rintro ⟨h, h1, h2⟩
      cases h
      exact absurd ⟨by omega, by omega⟩ hn
  | _ => simp [appidOf]

theorem mapM_appidOf_ok {who : String} {entries : List TomlValue} {appids : List Nat} :
    entries.mapM (appidOf who) = .ok appids ↔
      entries = appids.map (fun n => .int (n : Nat)) ∧ ∀ n ∈ appids, 1 ≤ n ∧ n ≤ maxAppid := by
  rw [Result.mapM_eq_ok_iff]
  simp only [appidOf_ok]
  constructor
  · intro h
    induction h with
    | nil => exact ⟨rfl, fun n hn => absurd hn List.not_mem_nil⟩
    | cons hn _ ih => exact ⟨by rw [List.map_cons, hn.1, ih.1], List.forall_mem_cons.mpr ⟨hn.2, ih.2⟩⟩
  · intro h
    obtain ⟨rfl, hall⟩ := h
    rw [List.forall₂_map_left_iff, List.forall₂_same]
    exact fun n hn => ⟨rfl, hall n hn⟩

/-- A list of AppIDs is accepted with all its entries, or not at all. -/
theorem allowedAppids_ok {who : String} {table : TomlTable} {appids : List Nat} :
    allowedAppids who table = .ok appids ↔
      table.lookup "allowed_appids" = none ∧ appids = [] ∨
        table.lookup "allowed_appids" = some (.array (appids.map fun n => .int (n : Nat))) ∧
          appids.length ≤ maxLaunchAllowlist ∧ ∀ n ∈ appids, 1 ≤ n ∧ n ≤ maxAppid := by
  unfold allowedAppids
  split
  · rename_i h
    simp [h, eq_comm]
  · rename_i entries h
    rw [h]
    by_cases hlen : entries.length > maxLaunchAllowlist
    · rw [if_pos hlen]
      refine ⟨fun h => (by cases h), ?_⟩
      rintro (⟨h, -⟩ | ⟨h, hle, -⟩)
      · cases h
      · cases h
        rw [List.length_map] at hlen
        omega
    · rw [if_neg hlen, mapM_appidOf_ok]
      constructor
      · intro hf
        obtain ⟨rfl, hall⟩ := hf
        rw [List.length_map] at hlen
        exact Or.inr ⟨rfl, by omega, hall⟩
      · rintro (⟨h, -⟩ | ⟨h, -, hall⟩)
        · cases h
        · cases h
          exact ⟨rfl, hall⟩
  · rename_i v hv h
    rw [h]
    refine ⟨fun h => (by cases h), ?_⟩
    rintro (⟨h, -⟩ | ⟨h, -⟩)
    · cases h
    · exact absurd (Option.some.inj h) (hv _)

theorem allowForceOf_ok {stop : TomlTable} {force : Bool} :
    allowForceOf stop = .ok force ↔
      stop.lookup "allow_force" = none ∧ force = false ∨
        stop.lookup "allow_force" = some (.bool force) := by
  unfold allowForceOf
  split
  · rename_i h
    simp [h, eq_comm]
  · rename_i b h
    simp [h]
  · rename_i v hv h
    rw [h]
    refine ⟨fun h => (by cases h), ?_⟩
    rintro (⟨h, -⟩ | h)
    · cases h
    · exact absurd (Option.some.inj h) (hv force)

theorem requireFloor_ok {grants : List (Operation × String)} {minFreeGb : Option Nat} :
    requireFloor grants minFreeGb = .ok () ↔
      ∀ g ∈ grants, g.1 ≠ .stop → g.2 = "allow" → minFreeGb.isSome := by
  unfold requireFloor
  cases minFreeGb with
  | some n => simp
  | none =>
    by_cases h : (grants.any fun g => g.1 != .stop && g.2 == "allow") = true
    · rw [if_pos ⟨rfl, h⟩]
      obtain ⟨g, hg, ha⟩ := List.any_eq_true.mp h
      simp only [Bool.and_eq_true, bne_iff_ne, beq_iff_eq] at ha
      exact ⟨fun h => (by cases h), fun hall => absurd (hall g hg ha.1 ha.2) (by simp)⟩
    · rw [if_neg fun hc => h hc.2]
      refine ⟨fun _ g hg hs ha => absurd ?_ h, fun _ => rfl⟩
      exact List.any_eq_true.mpr ⟨g, hg, by simp [hs, ha]⟩

theorem requireAppids_ok {grants : List (Operation × String)} {operation : Operation}
    {appids : List Nat} :
    requireAppids grants operation appids = .ok () ↔
      (grantIn grants operation ≠ "deny" → appids ≠ []) := by
  unfold requireAppids
  by_cases h : grantIn grants operation ≠ "deny" ∧ appids = []
  · rw [if_pos h]
    refine ⟨fun h => (by cases h), fun hn => absurd h.2 (hn h.1)⟩
  · rw [if_neg h]
    exact ⟨fun _ hg he => h ⟨hg, he⟩, fun _ => rfl⟩

/-! ## What the document says -/

/-- The entry of a table of the document. -/
def entryAt (document : TomlTable) (name key : String) : Option TomlValue :=
  match document.lookup name with
  | some (.table fields) => fields.lookup key
  | _ => none

theorem lookup_of_tableAt {document t : TomlTable} {name : String}
    (h : tableAt document name = .ok t) (key : String) : t.lookup key = entryAt document name key := by
  unfold entryAt
  rcases tableAt_ok.mp h with ⟨hnone, rfl⟩ | htable
  · rw [hnone]
    rfl
  · rw [htable]

/-- The grants are the entries of the table, one for one. -/
theorem mapM_grantOf_ok {lib : TomlLibrary} {entries : TomlTable}
    {grants : List (Operation × String)} :
    entries.mapM (grantOf lib) = .ok grants ↔
      entries = grants.map (fun g => (g.1.text, .str g.2)) ∧ ∀ g ∈ grants, g.2 ∈ supportedGrants := by
  rw [Result.mapM_eq_ok_iff]
  simp only [grantOf_ok]
  constructor
  · intro h
    induction h with
    | nil => exact ⟨rfl, fun g hg => absurd hg List.not_mem_nil⟩
    | @cons entry g entries grants hg _ ih =>
      refine ⟨?_, List.forall_mem_cons.mpr ⟨hg.2.2, ih.2⟩⟩
      rw [List.map_cons, ← ih.1, ← hg.1, ← hg.2.1]
  · intro h
    obtain ⟨rfl, hall⟩ := h
    rw [List.forall₂_map_left_iff, List.forall₂_same]
    exact fun g hg => ⟨rfl, rfl, hall g hg⟩

/-- The grant that the document writes for an operation. -/
def grantText (document : TomlTable) (operation : Operation) : String :=
  match entryAt document "grants" operation.text with
  | some (.str grant) => grant
  | _ => "deny"

theorem text_injective {operation operation' : Operation} (h : operation.text = operation'.text) :
    operation = operation' := by
  have hparse := parse_eq_some.mpr h
  rw [parse_eq_some.mpr rfl] at hparse
  exact Option.some.inj hparse

theorem lookup_grants (grants : List (Operation × String)) (operation : Operation) :
    (grants.map fun g => (g.1.text, TomlValue.str g.2)).lookup operation.text =
      ((grants.find? fun g => g.1 == operation).map Prod.snd).map TomlValue.str := by
  induction grants with
  | nil => rfl
  | cons g grants ih =>
    rw [List.map_cons, List.lookup_cons, List.find?_cons]
    by_cases h : g.1 = operation
    · subst h
      simp
    · have hbeq : (g.1 == operation) = false := by simpa using h
      have htext : (operation.text == g.1.text) = false := by
        rw [beq_eq_false_iff_ne]
        exact fun heq => h (text_injective heq).symm
      rw [hbeq, htext]
      exact ih

/-- A grant is what the document writes, and `deny` where it writes nothing. -/
theorem grantIn_eq {document : TomlTable} {grants : List (Operation × String)}
    (h : tableAt document "grants" = .ok (grants.map fun g => (g.1.text, .str g.2)))
    (operation : Operation) : grantIn grants operation = grantText document operation := by
  rw [grantText, ← lookup_of_tableAt h, lookup_grants, grantIn]
  cases (grants.find? fun g => g.1 == operation).map Prod.snd <;> rfl

/-- The documents that pass every check. -/
structure WellFormed (document : TomlTable) : Prop where
  keys : ∀ f ∈ document, f.1 ∈ ["grants", "limits", "launch", "stop"]
  grants : ∃ t, tableAt document "grants" = .ok t ∧
    ∀ f ∈ t, ∃ (operation : Operation) (grant : String), f = (operation.text, .str grant) ∧
      grant ∈ supportedGrants ∧ (operation ≠ .stop → grant = "allow" →
        (entryAt document "limits" "min_free_gb").isSome)
  limits : ∃ t, tableAt document "limits" = .ok t ∧ ∀ f ∈ t, f.1 = "min_free_gb"
  floor : ∀ v, entryAt document "limits" "min_free_gb" = some v → ∃ n : Nat, v = .int n
  launch : ∃ t, tableAt document "launch" = .ok t ∧ ∀ f ∈ t, f.1 = "allowed_appids"
  stop : ∃ t, tableAt document "stop" = .ok t ∧
    ∀ f ∈ t, f.1 = "allowed_appids" ∨ f.1 = "allow_force"
  appids : ∀ operation ∈ [Operation.launch, .stop], ∀ v,
    entryAt document operation.text "allowed_appids" = some v →
      ∃ appids : List Nat, v = .array (appids.map fun n => .int (n : Nat)) ∧
        appids.length ≤ maxLaunchAllowlist ∧ ∀ n ∈ appids, 1 ≤ n ∧ n ≤ maxAppid
  allowForce : ∀ v, entryAt document "stop" "allow_force" = some v → ∃ b, v = .bool b
  listed : ∀ operation ∈ [Operation.launch, .stop], grantText document operation ≠ "deny" →
    ∃ e es, entryAt document operation.text "allowed_appids" = some (.array (e :: es))

/-- The AppIDs that the document lists for an operation. -/
def Lists (document : TomlTable) (operation : Operation) (appid : Nat) : Prop :=
  ∃ entries, entryAt document operation.text "allowed_appids" = some (.array entries) ∧
    .int (appid : Nat) ∈ entries

/-- The policy says what the document says. -/
structure Means (document : TomlTable) (p : LoadedPolicy) : Prop where
  grant : ∀ operation, p.grantFor operation = grantText document operation
  launch : ∀ appid, p.launchPermitted appid = true ↔ Lists document .launch appid
  stop : ∀ appid force, p.stopPermitted appid force = true ↔
    Lists document .stop appid ∧
      (force = true → entryAt document "stop" "allow_force" = some (.bool true))
  floor : ∀ n : Nat, p.minFreeGb = some n ↔
    entryAt document "limits" "min_free_gb" = some (.int n)

/-- The AppIDs of an accepted list are those that the document lists. -/
theorem mem_allowedAppids {document table : TomlTable} {who : String} (operation : Operation)
    {appids : List Nat} (ht : tableAt document operation.text = .ok table)
    (h : allowedAppids who table = .ok appids) (appid : Nat) :
    appid ∈ appids ↔ Lists document operation appid := by
  have hlookup := lookup_of_tableAt ht "allowed_appids"
  rcases allowedAppids_ok.mp h with ⟨hnone, rfl⟩ | ⟨hsome, -⟩
  · rw [hnone] at hlookup
    refine ⟨fun h => absurd h List.not_mem_nil, ?_⟩
    rintro ⟨entries, hentries, -⟩
    rw [← hlookup] at hentries
    cases hentries
  · rw [hsome] at hlookup
    constructor
    · intro hmem
      exact ⟨_, hlookup.symm, List.mem_map.mpr ⟨appid, hmem, rfl⟩⟩
    · rintro ⟨entries, hentries, hmem⟩
      rw [← hlookup] at hentries
      cases hentries
      obtain ⟨n, hn, heq⟩ := List.mem_map.mp hmem
      cases heq
      exact hn

/-- The values that `policyOf` reads on its way, each past its check. -/
structure Read (lib : TomlLibrary) (document : TomlTable) where
  entries : TomlTable
  grants : List (Operation × String)
  limits : TomlTable
  minFreeGb : Option Nat
  launch : TomlTable
  launchAllowlist : List Nat
  stop : TomlTable
  stopAllowlist : List Nat
  stopAllowForce : Bool
  hkeys : supportedKeys lib "policy" document ["grants", "limits", "launch", "stop"] = .ok ()
  hentries : tableAt document "grants" = .ok entries
  hgrants : entries.mapM (grantOf lib) = .ok grants
  hlimits : tableAt document "limits" = .ok limits
  hlimitKeys : supportedKeys lib "limit" limits ["min_free_gb"] = .ok ()
  hminFreeGb : minFreeGbOf limits = .ok minFreeGb
  hfloor : requireFloor grants minFreeGb = .ok ()
  hlaunch : tableAt document "launch" = .ok launch
  hlaunchKeys : supportedKeys lib "launch" launch ["allowed_appids"] = .ok ()
  hlaunchAllowlist : allowedAppids "" launch = .ok launchAllowlist
  hlaunchListed : requireAppids grants .launch launchAllowlist = .ok ()
  hstop : tableAt document "stop" = .ok stop
  hstopKeys : supportedKeys lib "stop" stop ["allowed_appids", "allow_force"] = .ok ()
  hstopAllowlist : allowedAppids "stop " stop = .ok stopAllowlist
  hstopAllowForce : allowForceOf stop = .ok stopAllowForce
  hstopListed : requireAppids grants .stop stopAllowlist = .ok ()

namespace Read

variable {lib : TomlLibrary} {document : TomlTable}

/-- The policy of the values that were read. -/
def policy (r : Read lib document) (raw : Bytes) : LoadedPolicy where
  grants := r.grants
  launchAllowlist := r.launchAllowlist
  stopAllowlist := r.stopAllowlist
  stopAllowForce := r.stopAllowForce
  version := String.ofList ((sha256hex raw).toList.take 16)
  minFreeGb := r.minFreeGb

theorem policyOf_eq (r : Read lib document) (raw : Bytes) :
    policyOf lib raw document = .ok (r.policy raw) := by
  simp only [policyOf, r.hkeys, r.hentries, r.hgrants, r.hlimits, r.hlimitKeys, r.hminFreeGb,
    r.hfloor, r.hlaunch, r.hlaunchKeys, r.hlaunchAllowlist, r.hlaunchListed, r.hstop, r.hstopKeys,
    r.hstopAllowlist, r.hstopAllowForce, r.hstopListed, policy, bind, Except.bind]

/-- An accepted document went through every check. -/
theorem of_policyOf {raw : Bytes} {p : LoadedPolicy} (h : policyOf lib raw document = .ok p) :
    ∃ r : Read lib document, p = r.policy raw := by
  obtain ⟨_, hkeys, h⟩ := Result.bind_eq_ok.mp h
  obtain ⟨entries, hentries, h⟩ := Result.bind_eq_ok.mp h
  obtain ⟨grants, hgrants, h⟩ := Result.bind_eq_ok.mp h
  obtain ⟨limits, hlimits, h⟩ := Result.bind_eq_ok.mp h
  obtain ⟨_, hlimitKeys, h⟩ := Result.bind_eq_ok.mp h
  obtain ⟨minFreeGb, hminFreeGb, h⟩ := Result.bind_eq_ok.mp h
  obtain ⟨_, hfloor, h⟩ := Result.bind_eq_ok.mp h
  obtain ⟨launch, hlaunch, h⟩ := Result.bind_eq_ok.mp h
  obtain ⟨_, hlaunchKeys, h⟩ := Result.bind_eq_ok.mp h
  obtain ⟨launchAllowlist, hlaunchAllowlist, h⟩ := Result.bind_eq_ok.mp h
  obtain ⟨_, hlaunchListed, h⟩ := Result.bind_eq_ok.mp h
  obtain ⟨stop, hstop, h⟩ := Result.bind_eq_ok.mp h
  obtain ⟨_, hstopKeys, h⟩ := Result.bind_eq_ok.mp h
  obtain ⟨stopAllowlist, hstopAllowlist, h⟩ := Result.bind_eq_ok.mp h
  obtain ⟨stopAllowForce, hstopAllowForce, h⟩ := Result.bind_eq_ok.mp h
  obtain ⟨_, hstopListed, h⟩ := Result.bind_eq_ok.mp h
  cases h
  exact ⟨⟨entries, grants, limits, minFreeGb, launch, launchAllowlist, stop, stopAllowlist,
    stopAllowForce, hkeys, hentries, hgrants, hlimits, hlimitKeys, hminFreeGb, hfloor, hlaunch,
    hlaunchKeys, hlaunchAllowlist, hlaunchListed, hstop, hstopKeys, hstopAllowlist,
    hstopAllowForce, hstopListed⟩, rfl⟩

/-- The entries of `[grants]` are the grants. -/
theorem tableAt_grants (r : Read lib document) :
    tableAt document "grants" = .ok (r.grants.map fun g => (g.1.text, .str g.2)) := by
  rw [r.hentries, (mapM_grantOf_ok.mp r.hgrants).1]

theorem minFreeGb_eq (r : Read lib document) (n : Nat) :
    r.minFreeGb = some n ↔ entryAt document "limits" "min_free_gb" = some (.int n) := by
  rw [← lookup_of_tableAt r.hlimits]
  rcases minFreeGbOf_ok.mp r.hminFreeGb with ⟨hnone, he⟩ | ⟨k, hsome, he⟩
  · simp [hnone, he]
  · rw [hsome, he]
    simp only [Option.some.injEq, TomlValue.int.injEq]
    omega

theorem means (r : Read lib document) (raw : Bytes) : Means document (r.policy raw) where
  grant := grantIn_eq r.tableAt_grants
  launch appid := by
    rw [← mem_allowedAppids .launch r.hlaunch r.hlaunchAllowlist]
    exact List.contains_iff_mem
  stop appid force := by
    rw [← mem_allowedAppids .stop r.hstop r.hstopAllowlist]
    have hforce : r.stopAllowForce = true ↔
        entryAt document "stop" "allow_force" = some (.bool true) := by
      rw [← lookup_of_tableAt r.hstop]
      rcases allowForceOf_ok.mp r.hstopAllowForce with ⟨hnone, he⟩ | hsome
      · simp [hnone, he]
      · simp [hsome]
    rw [← hforce]
    show (r.stopAllowlist.contains appid && (!force || r.stopAllowForce)) = true ↔ _
    cases force <;> simp
  floor := r.minFreeGb_eq

/-- The list of an operation that is granted is not empty. -/
theorem listed {operation : Operation} {table : TomlTable} {who : String} {appids : List Nat}
    (r : Read lib document) (ht : tableAt document operation.text = .ok table)
    (ha : allowedAppids who table = .ok appids)
    (hl : requireAppids r.grants operation appids = .ok ())
    (hg : grantText document operation ≠ "deny") :
    ∃ e es, entryAt document operation.text "allowed_appids" = some (.array (e :: es)) := by
  have hne := requireAppids_ok.mp hl (by rw [grantIn_eq r.tableAt_grants]; exact hg)
  rw [← lookup_of_tableAt ht]
  rcases allowedAppids_ok.mp ha with ⟨-, he⟩ | ⟨hsome, -⟩
  · exact absurd he hne
  · cases appids with
    | nil => exact absurd rfl hne
    | cons n ns => exact ⟨_, _, hsome⟩

theorem appids {operation : Operation} {table : TomlTable} {who : String} {ns : List Nat}
    (ht : tableAt document operation.text = .ok table) (ha : allowedAppids who table = .ok ns)
    (v : TomlValue) (hv : entryAt document operation.text "allowed_appids" = some v) :
    ∃ ns : List Nat, v = .array (ns.map fun n => .int (n : Nat)) ∧
      ns.length ≤ maxLaunchAllowlist ∧ ∀ n ∈ ns, 1 ≤ n ∧ n ≤ maxAppid := by
  rw [← lookup_of_tableAt ht] at hv
  rcases allowedAppids_ok.mp ha with ⟨hnone, -⟩ | ⟨hsome, hle, hall⟩
  · rw [hnone] at hv
    cases hv
  · rw [hsome] at hv
    cases hv
    exact ⟨ns, rfl, hle, hall⟩

theorem wellFormed (r : Read lib document) : WellFormed document where
  keys := supportedKeys_ok.mp r.hkeys
  grants := by
    refine ⟨_, r.tableAt_grants, ?_⟩
    intro f hf
    obtain ⟨g, hg, rfl⟩ := List.mem_map.mp hf
    refine ⟨g.1, g.2, rfl, (mapM_grantOf_ok.mp r.hgrants).2 g hg, ?_⟩
    intro hs ha
    obtain ⟨n, hn⟩ := Option.isSome_iff_exists.mp (requireFloor_ok.mp r.hfloor g hg hs ha)
    rw [(r.minFreeGb_eq n).mp hn]
    rfl
  limits := ⟨r.limits, r.hlimits, fun f hf => by simpa using supportedKeys_ok.mp r.hlimitKeys f hf⟩
  floor := by
    intro v hv
    rw [← lookup_of_tableAt r.hlimits] at hv
    rcases minFreeGbOf_ok.mp r.hminFreeGb with ⟨hnone, -⟩ | ⟨n, hsome, -⟩
    · rw [hnone] at hv
      cases hv
    · rw [hsome] at hv
      exact ⟨n, (Option.some.inj hv).symm⟩
  launch := ⟨r.launch, r.hlaunch, fun f hf => by simpa using supportedKeys_ok.mp r.hlaunchKeys f hf⟩
  stop := ⟨r.stop, r.hstop, fun f hf => by simpa using supportedKeys_ok.mp r.hstopKeys f hf⟩
  appids := by
    intro operation ho
    rcases List.mem_pair.mp ho with rfl | rfl
    · exact appids r.hlaunch r.hlaunchAllowlist
    · exact appids r.hstop r.hstopAllowlist
  allowForce := by
    intro v hv
    rw [← lookup_of_tableAt r.hstop] at hv
    rcases allowForceOf_ok.mp r.hstopAllowForce with ⟨hnone, -⟩ | hsome
    · rw [hnone] at hv
      cases hv
    · rw [hsome] at hv
      exact ⟨_, (Option.some.inj hv).symm⟩
  listed := by
    intro operation ho
    rcases List.mem_pair.mp ho with rfl | rfl
    · exact r.listed r.hlaunch r.hlaunchAllowlist r.hlaunchListed
    · exact r.listed r.hstop r.hstopAllowlist r.hstopListed

end Read

/-! ## Exactly the well-formed documents -/

namespace WellFormed

variable {lib : TomlLibrary} {document : TomlTable}

theorem exists_allowedAppids (h : WellFormed document) (operation : Operation)
    (ho : operation ∈ [Operation.launch, .stop]) {table : TomlTable}
    (ht : tableAt document operation.text = .ok table) (who : String) :
    ∃ ns, allowedAppids who table = .ok ns ∧ (grantText document operation ≠ "deny" → ns ≠ []) := by
  have hlookup := lookup_of_tableAt ht "allowed_appids"
  cases hentry : entryAt document operation.text "allowed_appids" with
  | none =>
    rw [hentry] at hlookup
    refine ⟨[], allowedAppids_ok.mpr (Or.inl ⟨hlookup, rfl⟩), ?_⟩
    intro hg
    obtain ⟨e, es, hsome⟩ := h.listed operation ho hg
    rw [hentry] at hsome
    cases hsome
  | some v =>
    obtain ⟨ns, rfl, hle, hall⟩ := h.appids operation ho v hentry
    rw [hentry] at hlookup
    refine ⟨ns, allowedAppids_ok.mpr (Or.inr ⟨hlookup, hle, hall⟩), ?_⟩
    intro hg hnil
    obtain ⟨e, es, hsome⟩ := h.listed operation ho hg
    rw [hentry, hnil] at hsome
    cases hsome

theorem exists_minFreeGb (h : WellFormed document) {limits : TomlTable}
    (ht : tableAt document "limits" = .ok limits) :
    ∃ floor, minFreeGbOf limits = .ok floor ∧
      ((entryAt document "limits" "min_free_gb").isSome → floor.isSome) := by
  have hlookup := lookup_of_tableAt ht "min_free_gb"
  cases hentry : entryAt document "limits" "min_free_gb" with
  | none =>
    rw [hentry] at hlookup
    exact ⟨none, minFreeGbOf_ok.mpr (Or.inl ⟨hlookup, rfl⟩), fun hs => by cases hs⟩
  | some v =>
    obtain ⟨n, rfl⟩ := h.floor v hentry
    rw [hentry] at hlookup
    exact ⟨some n, minFreeGbOf_ok.mpr (Or.inr ⟨n, hlookup, rfl⟩), fun _ => rfl⟩

theorem exists_allowForce (h : WellFormed document) {stop : TomlTable}
    (ht : tableAt document "stop" = .ok stop) : ∃ force, allowForceOf stop = .ok force := by
  have hlookup := lookup_of_tableAt ht "allow_force"
  cases hentry : entryAt document "stop" "allow_force" with
  | none =>
    rw [hentry] at hlookup
    exact ⟨false, allowForceOf_ok.mpr (Or.inl ⟨hlookup, rfl⟩)⟩
  | some v =>
    obtain ⟨b, rfl⟩ := h.allowForce v hentry
    rw [hentry] at hlookup
    exact ⟨b, allowForceOf_ok.mpr (Or.inr hlookup)⟩

/-- A well-formed document passes every check. -/
theorem exists_read (h : WellFormed document) (lib : TomlLibrary) :
    Nonempty (Read lib document) := by
  obtain ⟨entries, hentries, hwritten⟩ := h.grants
  obtain ⟨limits, hlimits, hlimitKeys⟩ := h.limits
  obtain ⟨launch, hlaunch, hlaunchKeys⟩ := h.launch
  obtain ⟨stop, hstop, hstopKeys⟩ := h.stop
  obtain ⟨floor, hfloor, hsome⟩ := h.exists_minFreeGb hlimits
  obtain ⟨force, hforce⟩ := h.exists_allowForce hstop
  obtain ⟨launchList, hlaunchList, hlaunchListed⟩ :=
    h.exists_allowedAppids .launch (by simp) hlaunch ""
  obtain ⟨stopList, hstopList, hstopListed⟩ :=
    h.exists_allowedAppids .stop (by simp) hstop "stop "
  obtain ⟨grants, hgrants⟩ : ∃ grants, entries.mapM (grantOf lib) = .ok grants := by
    refine Result.exists_mapM_eq_ok ?_
    intro f hf
    obtain ⟨operation, grant, rfl, hg, -⟩ := hwritten f hf
    exact ⟨(operation, grant), grantOf_ok.mpr ⟨rfl, rfl, hg⟩⟩
  have hmap := (mapM_grantOf_ok.mp hgrants).1
  have hgrant := grantIn_eq (hmap ▸ hentries)
  refine ⟨⟨entries, grants, limits, floor, launch, launchList, stop, stopList, force,
    supportedKeys_ok.mpr h.keys, hentries, hgrants, hlimits, supportedKeys_ok.mpr ?_, hfloor,
    requireFloor_ok.mpr ?_, hlaunch, supportedKeys_ok.mpr ?_, hlaunchList,
    requireAppids_ok.mpr ?_, hstop, supportedKeys_ok.mpr ?_, hstopList, hforce,
    requireAppids_ok.mpr ?_⟩⟩
  · intro f hf
    simpa using hlimitKeys f hf
  · intro g hg hs ha
    have hmem : (g.1.text, TomlValue.str g.2) ∈ entries := by
      rw [hmap]
      exact List.mem_map.mpr ⟨g, hg, rfl⟩
    obtain ⟨operation, grant, heq, -, hallow⟩ := hwritten _ hmem
    obtain ⟨htext, hstr⟩ := Prod.mk.inj heq
    have ho := text_injective htext
    cases hstr
    exact hsome (hallow (ho ▸ hs) ha)
  · intro f hf
    simpa using hlaunchKeys f hf
  · rw [hgrant]
    exact hlaunchListed
  · intro f hf
    simpa using hstopKeys f hf
  · rw [hgrant]
    exact hstopListed

end WellFormed

/-- `load_policy` accepts exactly the well-formed documents, and the policy it
returns grants, lists and limits what the document writes.  So a file that
cannot be read, is no TOML or has one entry out of place grants nothing. -/
theorem loadPolicyFile_exact (lib : TomlLibrary) (name : String) (read : Except Exn Bytes) :
    (∀ p, loadPolicyFile lib name read = .ok p → ∃ raw document, read = .ok raw ∧
      lib.loads raw = some document ∧ WellFormed document ∧ Means document p) ∧
    ∀ raw document, read = .ok raw → lib.loads raw = some document → WellFormed document →
      ∃ p, loadPolicyFile lib name read = .ok p := by
  constructor
  · intro p h
    cases read with
    | error x => cases h
    | ok raw =>
      cases hloads : lib.loads raw with
      | none =>
        rw [loadPolicyFile, hloads] at h
        cases h
      | some document =>
        rw [loadPolicyFile, hloads] at h
        obtain ⟨r, rfl⟩ := Read.of_policyOf h
        exact ⟨raw, document, rfl, hloads, r.wellFormed, r.means raw⟩
  · intro raw document hread hloads hwell
    obtain ⟨r⟩ := hwell.exists_read lib
    rw [hread, loadPolicyFile, hloads]
    exact ⟨r.policy raw, r.policyOf_eq raw⟩

end SteamAgent.Execution
