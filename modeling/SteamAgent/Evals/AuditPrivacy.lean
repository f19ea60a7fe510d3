import Mathlib.Data.List.TakeWhile
import SteamAgent.Evals.CommandAudit

/-!
# The audit keeps no values

What `privacy_safe_command_audit` retains of a command, and what it says of its requirements.

There are three groups.

* The audit has fixed words only.
* Commands that differ in argument values have one audit, where the values compare alike.
* Where the audit reads a command, it says what `commandSatisfiesRequirement` says.
-/

namespace SteamAgent.Evals.CommandAudit

open CommandLine

/-! ## Fixed words -/

/-- Every text of a JSON value is one of some words, and every key is one of some keys. -/
inductive OnlyWords (words keys : List PyStr) : PyJson → Prop where
  | bool (b : Bool) : OnlyWords words keys (.bool b)
  | int (n : Int) : OnlyWords words keys (.int n)
  | str {s : PyStr} (h : s ∈ words) : OnlyWords words keys (.str s)
  | list {items : List PyJson} (h : ∀ item ∈ items, OnlyWords words keys item) :
    OnlyWords words keys (.list items)
  | dict {fields : List (PyStr × PyJson)} (hkeys : ∀ f ∈ fields, f.1 ∈ keys)
      (h : ∀ f ∈ fields, OnlyWords words keys f.2) : OnlyWords words keys (.dict fields)

def classNames : List PyStr :=
  ["help", "opaque", "safe_read"].map PyStr.ofString

def mismatchKinds : List PyStr :=
  ["wrong_head", "invalid_argument_shape", "missing_option", "duplicate_option", "wrong_value",
    "unexpected_known_option", "positionals"].map PyStr.ofString

/-- The names of `_COMMAND_AUDIT_OPTIONS`. -/
def auditOptions : List PyStr :=
  valuedAuditOptions ++ flagAuditOptions

/-- The words of an audit: class names, mismatch kinds, safe heads and audited options. -/
def vocabulary : List PyStr :=
  classNames ++ mismatchKinds ++ discoverySafeReadHeads.map joinHead ++ auditOptions

/-- The keys of an audit. -/
def auditKeys : List PyStr :=
  ["class", "global", "head", "requirements", "expected_data_dir", "json_format", "index",
    "matched", "mismatches", "kind", "option"].map PyStr.ofString

theorem mem_auditOptions {name : PyStr} (h : (auditArity name).isSome = true) :
    name ∈ auditOptions := by
  unfold auditArity at h
  split at h
  · next h' => exact List.mem_append_left _ h'
  · split at h
    · next h' => exact List.mem_append_right _ h'
    · cases h

theorem class_mem {name : PyStr} (h : name ∈ classNames) : name ∈ vocabulary :=
  List.mem_append_left _ (List.mem_append_left _ (List.mem_append_left _ h))

theorem kind_mem {kind : PyStr} (h : kind ∈ mismatchKinds) : kind ∈ vocabulary :=
  List.mem_append_left _ (List.mem_append_left _ (List.mem_append_right _ h))

theorem head_mem {head : List PyStr} (h : head ∈ discoverySafeReadHeads) :
    joinHead head ∈ vocabulary :=
  List.mem_append_left _ (List.mem_append_right _ (List.mem_map_of_mem h))

theorem option_mem {name : PyStr} (h : (auditArity name).isSome = true) : name ∈ vocabulary :=
  List.mem_append_right _ (mem_auditOptions h)

/-- A value of fixed words in an audit. -/
abbrev Fixed : PyJson → Prop :=
  OnlyWords vocabulary auditKeys

theorem fixed_dict {fields : List (PyStr × PyJson)} (names : List String)
    (hnames : fields.map Prod.fst = names.map PyStr.ofString)
    (hkeys : ∀ key ∈ names.map PyStr.ofString, key ∈ auditKeys)
    (h : ∀ value ∈ fields.map Prod.snd, Fixed value) : Fixed (.dict fields) :=
  .dict (fun _ hf => hkeys _ (hnames ▸ List.mem_map_of_mem hf))
    fun _ hf => h _ (List.mem_map_of_mem hf)

theorem fixed_mismatch {kind : String} (h : PyStr.ofString kind ∈ mismatchKinds) :
    Fixed (mismatch kind) := by
  refine fixed_dict ["kind"] rfl (by decide) ?_
  simp only [List.map_cons, List.map_nil, List.forall_mem_cons]
  exact ⟨.str (kind_mem h), by simp⟩

theorem fixed_optionMismatch {kind : String} {name : PyStr}
    (h : PyStr.ofString kind ∈ mismatchKinds) (hname : (auditArity name).isSome = true) :
    Fixed (optionMismatch kind name) := by
  refine fixed_dict ["kind", "option"] rfl (by decide) ?_
  simp only [List.map_cons, List.map_nil, List.forall_mem_cons]
  exact ⟨.str (kind_mem h), .str (option_mem hname), by simp⟩

theorem fixed_valueMismatches {name : PyStr} {actual values : List (Option PyStr)}
    (hname : (auditArity name).isSome = true) :
    ∀ item ∈ valueMismatches name actual values, Fixed item := by
  unfold valueMismatches
  intro item hitem
  split at hitem
  · rw [List.mem_singleton.mp hitem]
    exact fixed_optionMismatch (by decide) hname
  · split at hitem
    · rw [List.mem_singleton.mp hitem]
      exact fixed_optionMismatch (by decide) hname
    · split at hitem
      · rw [List.mem_singleton.mp hitem]
        exact fixed_optionMismatch (by decide) hname
      · simp at hitem

/-- The options of a call that the audit reads are audited ones. -/
theorem audited_of_eq {tokens : List PyStr} {actual : Options × List PyStr}
    (h : auditActualArguments tokens = some actual) {name : PyStr}
    (hname : name ∈ actual.1.map Prod.fst) : (auditArity name).isSome = true := by
  rcases (parses_of_eq h).known hname with hname | hname
  · simp at hname
  · exact hname

theorem fixed_requirementMismatches {actualHead : List PyStr} {actual : Options × List PyStr}
    {requirement : Requirement}
    (haudited : ∀ name ∈ actual.1.map Prod.fst, (auditArity name).isSome = true) :
    ∀ item ∈ requirementMismatches actualHead actual requirement, Fixed item := by
  unfold requirementMismatches
  intro item hitem
  dsimp only at hitem
  split at hitem
  · rw [List.mem_singleton.mp hitem]
    exact fixed_mismatch (by decide)
  · split at hitem
    · rw [List.mem_singleton.mp hitem]
      exact fixed_mismatch (by decide)
    · next accepted haccepted =>
      split at hitem
      · rw [List.mem_singleton.mp hitem]
        exact fixed_mismatch (by decide)
      · next hnames =>
        have hknown : ∀ o ∈ (requiredArguments requirement.arguments).1 ++ accepted,
            (auditArity o.1).isSome = true := by
          intro o ho
          by_contra hnone
          rw [Bool.not_eq_true, Option.isSome_eq_false_iff] at hnone
          exact hnames (List.any_eq_true.mpr ⟨o, ho, hnone⟩)
        simp only [List.mem_append, List.mem_flatMap, List.mem_map] at hitem
        rcases hitem with ((⟨o, ho, hitem⟩ | ⟨o, ho, hitem⟩) | ⟨name, hname, rfl⟩) | hitem
        · have hname := hknown o (List.mem_append_left _ ho)
          split at hitem
          · rw [List.mem_singleton.mp hitem]
            exact fixed_optionMismatch (by decide) hname
          · exact fixed_valueMismatches hname item hitem
        · have hname := hknown o (List.mem_append_right _ ho)
          split at hitem
          · simp at hitem
          · exact fixed_valueMismatches hname item hitem
        · have hmem := (Choice.sortBy_perm id _).mem_iff.mp hname
          rw [List.mem_dedup, List.mem_filter] at hmem
          exact fixed_optionMismatch (by decide) (haudited name hmem.1)
        · split at hitem
          · rw [List.mem_singleton.mp hitem]
            exact fixed_mismatch (by decide)
          · simp at hitem

theorem fixed_text {name : String} (h : PyStr.ofString name ∈ classNames) : Fixed (text name) :=
  .str (class_mem h)

theorem fixed_requirementResult {index : Nat} {mismatches : List PyJson}
    (h : ∀ item ∈ mismatches, Fixed item) : Fixed (requirementResult index mismatches) := by
  refine fixed_dict ["index", "matched", "mismatches"] rfl (by decide) ?_
  simp only [List.map_cons, List.map_nil, List.forall_mem_cons]
  exact ⟨.int _, .bool _, .list h, by simp⟩

/-- What the audit says of the global options. -/
def globalState (argv : List PyStr) (expectedDataDir : PyStr) : PyJson :=
  .dict
    [(PyStr.ofString "expected_data_dir", .bool (hasExpectedDataDir argv expectedDataDir)),
      (PyStr.ofString "json_format", .bool (hasJsonFormat argv))]

theorem fixed_globalState (argv : List PyStr) (expectedDataDir : PyStr) :
    Fixed (globalState argv expectedDataDir) := by
  refine fixed_dict ["expected_data_dir", "json_format"] rfl (by decide) ?_
  simp only [List.map_cons, List.map_nil, List.forall_mem_cons]
  exact ⟨.bool _, .bool _, by simp⟩

/-- Every text of an audit is a fixed word. -/
theorem fixed_audit {command : PyStr} {requirements : List Requirement}
    {expectedExecutable expectedDataDir : PyStr} {audit : PyJson}
    (h : privacySafeCommandAudit command requirements expectedExecutable expectedDataDir
      = some audit) : Fixed audit := by
  unfold privacySafeCommandAudit at h
  split at h
  · cases h
  · next argv hargv =>
    have hglobal := fixed_globalState argv expectedDataDir
    dsimp only at h
    split at h
    · cases h
      refine fixed_dict ["class", "global"] rfl (by decide) ?_
      simp only [List.map_cons, List.map_nil, List.forall_mem_cons]
      exact ⟨fixed_text (by decide), hglobal, by simp⟩
    · split at h
      · cases h
      · next tail htail =>
        split at h
        · cases h
        · split at h
          · cases h
            refine fixed_dict ["class", "global"] rfl (by decide) ?_
            simp only [List.map_cons, List.map_nil, List.forall_mem_cons]
            exact ⟨fixed_text (by decide), hglobal, by simp⟩
          · next hsafe =>
            have hhead := head_mem (not_not.mp hsafe)
            split at h
            · cases h
              refine fixed_dict ["class", "head", "global"] rfl (by decide) ?_
              simp only [List.map_cons, List.map_nil, List.forall_mem_cons]
              exact ⟨fixed_text (by decide), .str hhead, hglobal, by simp⟩
            · next actual hactual =>
              cases h
              refine fixed_dict ["class", "head", "global", "requirements"] rfl (by decide) ?_
              simp only [List.map_cons, List.map_nil, List.forall_mem_cons]
              refine ⟨fixed_text (by decide), .str hhead, hglobal, .list ?_, by simp⟩
              intro item hitem
              obtain ⟨r, _, rfl⟩ := List.mem_map.mp hitem
              exact fixed_requirementResult
                (fixed_requirementMismatches fun _ hname => audited_of_eq hactual hname)

/-! ## Commands that differ in argument values -/

/-- A word that may be the value of an option. -/
def IsValue (token : PyStr) : Prop :=
  startsWith token "--" = false ∧ token ≠ PyStr.ofString "-h"

/-- Two lists of words that differ in argument values only: in the value of an option that takes
one, in a data directory, or in words that are no options. -/
inductive Alike : List PyStr → List PyStr → Prop where
  | refl (tokens : List PyStr) : Alike tokens tokens
  | same {token : PyStr} {rest rest' : List PyStr} (hformat : token ≠ PyStr.ofString "--format")
      (hdata : token ≠ PyStr.ofString "--data-dir") (h : Alike rest rest') :
    Alike (token :: rest) (token :: rest')
  | format {value : PyStr} {rest rest' : List PyStr} (h : Alike rest rest') :
    Alike (PyStr.ofString "--format" :: value :: rest) (PyStr.ofString "--format" :: value :: rest')
  | dataDir {value value' : PyStr} {rest rest' : List PyStr} (hvalue : IsValue value)
      (hvalue' : IsValue value') (h : Alike rest rest') :
    Alike (PyStr.ofString "--data-dir" :: value :: rest)
      (PyStr.ofString "--data-dir" :: value' :: rest')
  | option {name value value' : PyStr} {rest rest' : List PyStr}
      (hname : auditArity name = some true) (hvalue : IsValue value) (hvalue' : IsValue value')
      (h : Alike rest rest') : Alike (name :: value :: rest) (name :: value' :: rest')
  | inline {name value value' : PyStr} {rest rest' : List PyStr}
      (hoption : startsWith name "--" = true) (hname : 61 ∉ name)
      (hformat : name ≠ PyStr.ofString "--format") (hvalue : value ≠ []) (hvalue' : value' ≠ [])
      (h : Alike rest rest') :
    Alike ((name ++ 61 :: value) :: rest) ((name ++ 61 :: value') :: rest')
  | word {value value' : PyStr} {rest rest' : List PyStr}
      (hvalue : startsWith value "-" = false) (hvalue' : startsWith value' "-" = false)
      (h : Alike rest rest') : Alike (value :: rest) (value' :: rest')

theorem Alike.symm {tokens tokens' : List PyStr} (h : Alike tokens tokens') :
    Alike tokens' tokens := by
  induction h with
  | refl => exact .refl _
  | same hformat hdata _ ih => exact .same hformat hdata ih
  | format _ ih => exact .format ih
  | dataDir hvalue hvalue' _ ih => exact .dataDir hvalue' hvalue ih
  | option hname hvalue hvalue' _ ih => exact .option hname hvalue' hvalue ih
  | inline hoption hname hformat hvalue hvalue' _ ih =>
    exact .inline hoption hname hformat hvalue' hvalue ih
  | word hvalue hvalue' _ ih => exact .word hvalue' hvalue ih

theorem startsWith_iff {token : PyStr} {front : String} :
    startsWith token front = true ↔ PyStr.ofString front <+: token :=
  List.isPrefixOf_iff_prefix

theorem startsWith_hyphen {token : PyStr} (h : startsWith token "--" = true) :
    startsWith token "-" = true := by
  rw [startsWith_iff] at h ⊢
  exact (show PyStr.ofString "-" <+: PyStr.ofString "--" from ⟨[45], rfl⟩).trans h

theorem startsWith_append {name rest : PyStr} {front : String} (h : startsWith name front = true) :
    startsWith (name ++ rest) front = true := by
  rw [startsWith_iff] at h ⊢
  exact h.trans (List.prefix_append _ _)

theorem partition_inline {name value : PyStr} (h : 61 ∉ name) :
    partition (name ++ 61 :: value) = (name, true, value) := by
  have hall : ∀ c ∈ name, (decide (c ≠ 61)) = true := by
    intro c hc
    rw [decide_eq_true_iff]
    rintro rfl
    exact h hc
  unfold partition
  rw [List.dropWhile_append_of_pos hall, List.takeWhile_append_of_pos hall]
  simp

theorem inline_ne {name value token : PyStr} (h : 61 ∉ token) : name ++ 61 :: value ≠ token := by
  rintro rfl
  exact h (by simp)

/-- An audited option that takes a value starts with two hyphens and has no equals sign. -/
theorem valued_name : ∀ name ∈ valuedAuditOptions, startsWith name "--" = true ∧ 61 ∉ name ∧
    name ≠ PyStr.ofString "--format" ∧ name ≠ PyStr.ofString "--data-dir" ∧
    name ≠ PyStr.ofString "--help" ∧ name ≠ PyStr.ofString "--" ∧
    startsWith name "--data-dir=" = false ∧ startsWith name "--format=" = false := by
  decide

theorem mem_valued {name : PyStr} (h : auditArity name = some true) :
    name ∈ valuedAuditOptions := by
  unfold auditArity at h
  split at h
  · assumption
  · split at h <;> cases h

theorem IsValue.ne {token : PyStr} (h : IsValue token) :
    token ≠ PyStr.ofString "--" ∧ token ≠ PyStr.ofString "--help" ∧
      token ≠ PyStr.ofString "-h" ∧ token ≠ PyStr.ofString "--format" ∧
      startsWith token "--format=" = false := by
  have hne (s : String) (hs : startsWith (PyStr.ofString s) "--" = true) :
      token ≠ PyStr.ofString s := by
    rintro rfl
    rw [h.1] at hs
    cases hs
  refine ⟨hne _ (by decide), hne _ (by decide), h.2, hne _ (by decide), ?_⟩
  by_contra hstart
  rw [Bool.not_eq_false, startsWith_iff] at hstart
  have htwo : startsWith token "--" = true :=
    startsWith_iff.mpr ((show PyStr.ofString "--" <+: PyStr.ofString "--format=" from
      ⟨PyStr.ofString "format=", rfl⟩).trans hstart)
  rw [h.1] at htwo
  cases htwo

theorem isValue_of_word {token : PyStr} (h : startsWith token "-" = false) : IsValue token := by
  constructor
  · by_contra htwo
    rw [Bool.not_eq_false] at htwo
    rw [startsWith_hyphen htwo] at h
    cases h
  · rintro rfl
    exact absurd h (by decide)

theorem isHelpCall_cons {token : PyStr} {rest : List PyStr} (h : token ≠ PyStr.ofString "--")
    (h' : token ≠ PyStr.ofString "--help") (h'' : token ≠ PyStr.ofString "-h") :
    isHelpCall (token :: rest) = isHelpCall rest := by
  rw [isHelpCall, if_neg h, if_neg (by simp [h', h''])]

theorem Alike.isHelpCall {tokens tokens' : List PyStr} (h : Alike tokens tokens') :
    isHelpCall tokens = isHelpCall tokens' := by
  induction h with
  | refl => rfl
  | same _ _ _ ih => simp only [CommandLine.isHelpCall, ih]
  | format _ ih => simp only [CommandLine.isHelpCall, ih]
  | dataDir hvalue hvalue' _ ih =>
    rw [isHelpCall_cons (by decide) (by decide) (by decide),
      isHelpCall_cons hvalue.ne.1 hvalue.ne.2.1 hvalue.ne.2.2.1,
      isHelpCall_cons (by decide) (by decide) (by decide),
      isHelpCall_cons hvalue'.ne.1 hvalue'.ne.2.1 hvalue'.ne.2.2.1, ih]
  | option hname hvalue hvalue' _ ih =>
    simp only [CommandLine.isHelpCall, hvalue.ne, hvalue'.ne, ih, or_self, if_false]
  | inline _ _ _ _ _ _ ih =>
    rw [isHelpCall_cons (inline_ne (by decide)) (inline_ne (by decide)) (inline_ne (by decide)),
      isHelpCall_cons (inline_ne (by decide)) (inline_ne (by decide)) (inline_ne (by decide)), ih]
  | word hvalue hvalue' _ ih =>
    have hne := (isValue_of_word hvalue).ne
    have hne' := (isValue_of_word hvalue').ne
    rw [isHelpCall_cons hne.1 hne.2.1 hne.2.2.1, isHelpCall_cons hne'.1 hne'.2.1 hne'.2.2.1, ih]

theorem hasJsonFormat_cons {token : PyStr} {rest : List PyStr}
    (h : token ≠ PyStr.ofString "--format")
    (h' : startsWith token "--format=" = true → token = PyStr.ofString "--format=json") :
    hasJsonFormat (token :: rest) = hasJsonFormat rest := by
  rw [hasJsonFormat.eq_def]
  dsimp only
  rw [if_neg h, if_neg]
  rintro ⟨hstart, hne⟩
  exact hne (h' hstart)

theorem IsValue.hasJsonFormat {token : PyStr} {rest : List PyStr} (h : IsValue token) :
    hasJsonFormat (token :: rest) = hasJsonFormat rest := by
  refine hasJsonFormat_cons h.ne.2.2.2.1 fun hstart => ?_
  rw [h.ne.2.2.2.2] at hstart
  cases hstart

/-- Two texts with one equals sign each in front of which they agree start with it alike. -/
theorem startsWith_equals {name value : PyStr} (front : String) (hname : 61 ∉ name)
    (hfront : 61 ∉ PyStr.ofString front) :
    startsWith (name ++ 61 :: value) (front ++ "=") = true ↔ name = PyStr.ofString front := by
  have happend : PyStr.ofString (front ++ "=") = PyStr.ofString front ++ [61] := by
    rw [PyStr.ofString, String.toList_append, List.map_append]
    rfl
  rw [startsWith_iff, happend]
  constructor
  · rintro ⟨rest, hrest⟩
    have h := congrArg partition hrest
    rw [List.append_assoc, List.singleton_append, partition_inline hname,
      partition_inline hfront] at h
    exact (congrArg Prod.fst h).symm
  · rintro rfl
    exact ⟨value, by simp⟩

theorem Alike.hasJsonFormat {tokens tokens' : List PyStr} (h : Alike tokens tokens') :
    hasJsonFormat tokens = hasJsonFormat tokens' := by
  induction h with
  | refl => rfl
  | same hformat _ _ ih =>
    rw [CommandLine.hasJsonFormat.eq_def, CommandLine.hasJsonFormat.eq_def (_ :: _)]
    dsimp only
    rw [if_neg hformat, if_neg hformat, ih]
  | format _ ih =>
    rw [CommandLine.hasJsonFormat.eq_def, CommandLine.hasJsonFormat.eq_def (_ :: _)]
    dsimp only
    rw [if_pos rfl, if_pos rfl, ih]
  | dataDir hvalue hvalue' _ ih =>
    rw [hasJsonFormat_cons (by decide) (by decide), hvalue.hasJsonFormat,
      hasJsonFormat_cons (by decide) (by decide), hvalue'.hasJsonFormat, ih]
  | option hname hvalue hvalue' _ ih =>
    obtain ⟨-, -, hformat, -, -, -, -, hequals⟩ := valued_name _ (mem_valued hname)
    have hstart {token : PyStr} (h : startsWith token "--format=" = false) :
        startsWith token "--format=" = true → token = PyStr.ofString "--format=json" := by
      rw [h]
      intro h'
      cases h'
    rw [hasJsonFormat_cons hformat (hstart hequals), hvalue.hasJsonFormat,
      hasJsonFormat_cons hformat (hstart hequals), hvalue'.hasJsonFormat, ih]
  | inline _ hname hformat _ _ _ ih =>
    have hstart {name value : PyStr} (hname : 61 ∉ name) (hformat : name ≠ PyStr.ofString "--format") :
        startsWith (name ++ 61 :: value) "--format=" = true →
          name ++ 61 :: value = PyStr.ofString "--format=json" := by
      intro h
      exact absurd ((startsWith_equals "--format" hname (by decide)).mp h) hformat
    rw [hasJsonFormat_cons (inline_ne (by decide)) (hstart hname hformat),
      hasJsonFormat_cons (inline_ne (by decide)) (hstart hname hformat), ih]
  | word hvalue hvalue' _ ih =>
    rw [(isValue_of_word hvalue).hasJsonFormat, (isValue_of_word hvalue').hasJsonFormat, ih]

theorem commandTailFrom_cons {sawFormat : Bool} {token : PyStr} {rest : List PyStr}
    (hdata : token ≠ PyStr.ofString "--data-dir") (hformat : token ≠ PyStr.ofString "--format") :
    commandTailFrom sawFormat (token :: rest) =
      if startsWith token "--data-dir=" then
        if (partition token).2.2 = [] then none else commandTailFrom sawFormat rest
      else if startsWith token "--format=" then
        if sawFormat ∨ token ≠ PyStr.ofString "--format=json" then none
        else commandTailFrom true rest
      else if startsWith token "-" then none
      else some (token :: rest) := by
  rw [commandTailFrom.eq_def]
  dsimp only
  rw [if_neg hdata, if_neg hformat]

theorem commandTailFrom_word {sawFormat : Bool} {token : PyStr} {rest : List PyStr}
    (h : startsWith token "-" = false) :
    commandTailFrom sawFormat (token :: rest) = some (token :: rest) := by
  have hne (s : String) (hs : startsWith (PyStr.ofString s) "-" = true) :
      token ≠ PyStr.ofString s := by
    rintro rfl
    rw [hs] at h
    cases h
  have hstart (s : String) (hs : PyStr.ofString "-" <+: PyStr.ofString s) :
      startsWith token s = false := by
    by_contra h'
    rw [Bool.not_eq_false, startsWith_iff] at h'
    rw [startsWith_iff.mpr (hs.trans h')] at h
    cases h
  rw [commandTailFrom_cons (hne _ (by decide)) (hne _ (by decide)), h,
    hstart "--data-dir=" ⟨PyStr.ofString "-data-dir=", rfl⟩,
    hstart "--format=" ⟨PyStr.ofString "-format=", rfl⟩]
  rfl

/-- The words behind the global options differ in argument values only. -/
theorem Alike.commandTail {tokens tokens' : List PyStr} (h : Alike tokens tokens')
    {sawFormat : Bool} {tail : List PyStr} (htail : commandTailFrom sawFormat tokens = some tail) :
    ∃ tail', commandTailFrom sawFormat tokens' = some tail' ∧ Alike tail tail' := by
  induction h generalizing sawFormat with
  | refl => exact ⟨tail, htail, .refl _⟩
  | same hformat hdata hrest ih =>
    rw [commandTailFrom_cons hdata hformat] at htail ⊢
    split at htail
    · next hstart =>
      split at htail
      · cases htail
      · next hvalue =>
        rw [if_pos hstart, if_neg hvalue]
        exact ih htail
    · next hstart =>
      rw [if_neg hstart]
      split at htail
      · next hequals =>
        split at htail
        · cases htail
        · next hjson =>
          rw [if_pos hequals, if_neg hjson]
          exact ih htail
      · next hequals =>
        split at htail
        · cases htail
        · next hhyphen =>
          cases htail
          rw [if_neg hequals, if_neg hhyphen]
          exact ⟨_, rfl, .same hformat hdata hrest⟩
  | format _ ih =>
    rw [commandTailFrom.eq_def] at htail ⊢
    dsimp only at htail ⊢
    rw [if_neg (by decide), if_neg (by decide), if_pos rfl] at htail ⊢
    split at htail
    · cases htail
    · next hvalue =>
      rw [if_neg hvalue]
      exact ih htail
  | dataDir _ _ _ ih =>
    rw [commandTailFrom.eq_def] at htail ⊢
    dsimp only at htail ⊢
    rw [if_pos rfl] at htail ⊢
    exact ih htail
  | option hname _ _ _ _ =>
    obtain ⟨hoption, -, hformat, hdata, -, -, hdata', hformat'⟩ := valued_name _ (mem_valued hname)
    rw [commandTailFrom_cons hdata hformat, hdata', hformat', startsWith_hyphen hoption] at htail
    cases htail
  | @inline name value value' rest rest' hoption hname hformat hvalue hvalue' _ ih =>
    have hcons {value : PyStr} {rest : List PyStr} (hvalue : value ≠ []) :
        commandTailFrom sawFormat ((name ++ 61 :: value) :: rest) =
          if name = PyStr.ofString "--data-dir" then commandTailFrom sawFormat rest else none := by
      rw [commandTailFrom_cons (inline_ne (by decide)) (inline_ne (by decide)),
        partition_inline hname]
      have hdata : startsWith (name ++ 61 :: value) "--data-dir=" = true ↔
          name = PyStr.ofString "--data-dir" :=
        startsWith_equals "--data-dir" hname (by decide)
      have hequals : startsWith (name ++ 61 :: value) "--format=" = true ↔
          name = PyStr.ofString "--format" :=
        startsWith_equals "--format" hname (by decide)
      by_cases h : name = PyStr.ofString "--data-dir"
      · rw [if_pos h, if_pos (hdata.mpr h), if_neg hvalue]
      · rw [if_neg h, if_neg (fun h' => h (hdata.mp h')),
          if_neg (fun h' => hformat (hequals.mp h')),
          if_pos (startsWith_append (startsWith_hyphen hoption))]
    rw [hcons hvalue] at htail
    rw [hcons hvalue']
    split at htail
    · next h =>
      rw [if_pos h]
      exact ih htail
    · cases htail
  | word hvalue hvalue' hrest _ =>
    rw [commandTailFrom_word hvalue] at htail
    cases htail
    exact ⟨_, commandTailFrom_word hvalue', .word hvalue hvalue' hrest⟩

/-! ## Their options -/

/-- Two readings with the same options, each as often, and as many words. -/
structure SameCounts (actual actual' : Options × List PyStr) : Prop where
  options : actual.1.map (fun o => (o.1, o.2.length)) = actual'.1.map fun o => (o.1, o.2.length)
  positionals : actual.2.length = actual'.2.length

theorem SameCounts.snoc {options options' : Options} {positionals positionals' : List PyStr}
    {token token' : PyStr} (h : SameCounts (options, positionals) (options', positionals')) :
    SameCounts (options, positionals ++ [token]) (options', positionals' ++ [token']) where
  options := h.options
  positionals := by
    have hlength : positionals.length = positionals'.length := h.positionals
    simp [hlength]

theorem put_counts {options options' : Options} {name : PyStr} {value value' : Option PyStr}
    (h : options.map (fun o => (o.1, o.2.length)) = options'.map fun o => (o.1, o.2.length)) :
    (put options name value).map (fun o => (o.1, o.2.length)) =
      (put options' name value').map fun o => (o.1, o.2.length) := by
  induction options generalizing options' with
  | nil =>
    rw [List.map_nil, eq_comm, List.map_eq_nil_iff] at h
    subst h
    rfl
  | cons o options ih =>
    cases options' with
    | nil => cases h
    | cons o' options' =>
      obtain ⟨key, values⟩ := o
      obtain ⟨key', values'⟩ := o'
      simp only [List.map_cons, List.cons.injEq, Prod.mk.injEq] at h
      obtain ⟨⟨rfl, hlength⟩, hrest⟩ := h
      by_cases hkey : key = name
      · rw [put, put, if_pos hkey, if_pos hkey]
        simp [hlength, hrest]
      · rw [put, put, if_neg hkey, if_neg hkey, List.map_cons, List.map_cons, ih hrest, hlength]

theorem partition_fst_isPrefixOf (token : PyStr) : (partition token).1 <+: token := by
  unfold partition
  split
  · exact List.prefix_refl _
  · exact List.takeWhile_prefix _

theorem partition_fst {token : PyStr} (h : (partition token).2.1 = false) :
    (partition token).1 = token := by
  unfold partition at h ⊢
  split at h
  · rfl
  · cases h

theorem partition_plain {token : PyStr} (h : 61 ∉ token) : partition token = (token, false, []) := by
  have hall : ∀ c ∈ token, (decide (c ≠ 61)) = true := by
    intro c hc
    rw [decide_eq_true_iff]
    rintro rfl
    exact h hc
  have hdrop := List.dropWhile_eq_nil_iff.mpr hall
  unfold partition
  rw [hdrop]

theorem startsWith_partition {token : PyStr} {front : String}
    (h : startsWith (partition token).1 front = true) : startsWith token front = true := by
  rw [startsWith_iff] at h ⊢
  exact h.trans (partition_fst_isPrefixOf token)

/-- Words that are alike start with hyphens alike, where the first of them does not start with two
hyphens. -/
theorem Alike.word_cons {value : PyStr} {rest tokens' : List PyStr} (h : Alike (value :: rest) tokens')
    (hvalue : startsWith value "--" = false) :
    ∃ value' rest', tokens' = value' :: rest' ∧ startsWith value' "--" = false ∧
      (startsWith value "-" = false → startsWith value' "-" = false) ∧ Alike rest rest' := by
  cases h with
  | refl => exact ⟨_, _, rfl, hvalue, id, .refl _⟩
  | same _ _ h => exact ⟨_, _, rfl, hvalue, id, h⟩
  | format _ => exact absurd hvalue (by decide)
  | dataDir _ _ _ => exact absurd hvalue (by decide)
  | option hname _ _ _ =>
    rw [(valued_name _ (mem_valued hname)).1] at hvalue
    cases hvalue
  | inline hoption _ _ _ _ _ =>
    rw [startsWith_append hoption] at hvalue
    cases hvalue
  | word hvalue hvalue' h => exact ⟨_, _, rfl, (isValue_of_word hvalue').1, fun _ => hvalue', h⟩

/-- An option with an inline value is alike to itself, or to that option with another value. -/
theorem Alike.inline_cons {token : PyStr} {rest tokens' : List PyStr}
    (h : Alike (token :: rest) tokens') (hinline : (partition token).2.1 = true)
    (hoption : startsWith token "-" = true) :
    ∃ token' rest', tokens' = token' :: rest' ∧ (partition token').1 = (partition token).1 ∧
      (partition token').2.1 = true ∧
      ((partition token).2.2 ≠ [] → (partition token').2.2 ≠ []) ∧
      ((partition token).1 = PyStr.ofString "--format" → token' = token) ∧ Alike rest rest' := by
  cases h with
  | refl => exact ⟨_, _, rfl, rfl, hinline, id, fun _ => rfl, .refl _⟩
  | same _ _ h => exact ⟨_, _, rfl, rfl, hinline, id, fun _ => rfl, h⟩
  | format _ => exact absurd hinline (by decide)
  | dataDir _ _ _ => exact absurd hinline (by decide)
  | option hname _ _ _ =>
    rw [partition_plain (valued_name _ (mem_valued hname)).2.1] at hinline
    cases hinline
  | inline _ hname hformat _ hvalue' h =>
    refine ⟨_, _, rfl, ?_⟩
    rw [partition_inline hname, partition_inline hname]
    exact ⟨rfl, rfl, fun _ => hvalue', fun h' => absurd h' hformat, h⟩
  | word hvalue _ _ =>
    rw [hoption] at hvalue
    cases hvalue

/-- An option that takes a value is alike to itself, with the same value or another one. -/
theorem Alike.valued_cons {token value : PyStr} {rest tokens' : List PyStr}
    (h : Alike (token :: value :: rest) tokens') (hoption : startsWith token "--" = true)
    (harity : auditArity token = some true) (hvalue : startsWith value "--" = false) :
    ∃ value' rest', tokens' = token :: value' :: rest' ∧ startsWith value' "--" = false ∧
      Alike rest rest' := by
  cases h with
  | refl => exact ⟨_, _, rfl, hvalue, .refl _⟩
  | same _ _ h =>
    obtain ⟨value', rest', rfl, hvalue', _, hrest⟩ := h.word_cons hvalue
    exact ⟨value', rest', rfl, hvalue', hrest⟩
  | format _ => exact absurd harity (by decide)
  | dataDir _ _ _ => exact absurd harity (by decide)
  | option _ _ hvalue' h => exact ⟨_, _, rfl, hvalue'.1, h⟩
  | inline _ _ _ _ _ _ =>
    exact absurd (by simp) (valued_name _ (mem_valued harity)).2.1
  | word hword _ _ =>
    rw [startsWith_hyphen hoption] at hword
    cases hword

/-- An option without a value is alike to itself. -/
theorem Alike.flag_cons {token : PyStr} {rest tokens' : List PyStr}
    (h : Alike (token :: rest) tokens') (hoption : startsWith token "--" = true)
    (harity : auditArity token = some false) (hinline : (partition token).2.1 = false) :
    ∃ rest', tokens' = token :: rest' ∧ Alike rest rest' := by
  cases h with
  | refl => exact ⟨_, rfl, .refl _⟩
  | same _ _ h => exact ⟨_, rfl, h⟩
  | format _ => exact absurd harity (by decide)
  | dataDir _ _ _ => exact absurd harity (by decide)
  | option hname _ _ _ =>
    rw [hname] at harity
    cases harity
  | inline _ hname _ _ _ _ =>
    rw [partition_inline hname] at hinline
    cases hinline
  | word hword _ _ =>
    rw [startsWith_hyphen hoption] at hword
    cases hword

/-- An output format is alike to itself. -/
theorem Alike.format_cons {value : PyStr} {rest tokens' : List PyStr}
    (h : Alike (PyStr.ofString "--format" :: value :: rest) tokens') :
    ∃ rest', tokens' = PyStr.ofString "--format" :: value :: rest' ∧ Alike rest rest' := by
  generalize hfirst : PyStr.ofString "--format" = first at h ⊢
  cases h with
  | refl => exact ⟨_, rfl, .refl _⟩
  | same hformat _ _ => exact absurd hfirst.symm hformat
  | format h => exact ⟨_, rfl, h⟩
  | dataDir _ _ _ => exact absurd hfirst (by decide)
  | option hname _ _ _ =>
    rw [← hfirst] at hname
    exact absurd hname (by decide)
  | inline _ _ _ _ _ _ => exact absurd hfirst.symm (inline_ne (by decide))
  | word hword _ _ =>
    rw [← hfirst] at hword
    exact absurd hword (by decide)

/-- The audit finds the same options, as often, in words that are alike. -/
theorem Parses.alike {sawFormat : Bool} {options : Options} {positionals tokens : List PyStr}
    {found : Options × List PyStr}
    (h : Parses auditArity (fun token => !startsWith token "-") sawFormat options positionals tokens
      found) {tokens' : List PyStr} (halike : Alike tokens tokens') {options' : Options}
    {positionals' : List PyStr} (hcounts : SameCounts (options, positionals) (options', positionals')) :
    ∃ found', Parses auditArity (fun token => !startsWith token "-") sawFormat options' positionals'
      tokens' found' ∧ SameCounts found found' := by
  induction h generalizing tokens' options' positionals' with
  | done =>
    cases halike
    exact ⟨_, .done _ _ _, hcounts⟩
  | format hname hinline hjson _ ih =>
    have hoption : startsWith _ "--" = true :=
      startsWith_partition (by rw [hname]; decide)
    obtain ⟨token', rest', rfl, -, -, -, hsame, hrest⟩ :=
      halike.inline_cons hinline (startsWith_hyphen hoption)
    rw [hsame hname]
    obtain ⟨found', hparses, hfound⟩ := ih hrest hcounts
    exact ⟨found', .format hname hinline hjson hparses, hfound⟩
  | formatValue hname hinline _ ih =>
    have htoken := (partition_fst hinline).symm.trans hname
    subst htoken
    obtain ⟨rest', rfl, hrest⟩ := halike.format_cons
    obtain ⟨found', hparses, hfound⟩ := ih hrest hcounts
    exact ⟨found', .formatValue hname hinline hparses, hfound⟩
  | inline hname hoption harity hinline hvalue _ ih =>
    obtain ⟨token', rest', rfl, hsame, hinline', hvalue', -, hrest⟩ :=
      halike.inline_cons hinline (startsWith_hyphen (startsWith_partition hoption))
    rw [← hsame] at hname hoption harity
    obtain ⟨found', hparses, hfound⟩ := ih hrest ⟨put_counts hcounts.options, hcounts.positionals⟩
    rw [← hsame] at hparses
    exact ⟨found', .inline hname hoption harity hinline' (hvalue' hvalue) hparses, hfound⟩
  | valued hname hoption harity hinline hvalue _ ih =>
    have htoken := partition_fst hinline
    obtain ⟨value', rest', rfl, hvalue', hrest⟩ :=
      halike.valued_cons (htoken ▸ hoption) (htoken ▸ harity) hvalue
    obtain ⟨found', hparses, hfound⟩ := ih hrest ⟨put_counts hcounts.options, hcounts.positionals⟩
    exact ⟨found', .valued hname hoption harity hinline hvalue' hparses, hfound⟩
  | flag hname hoption harity hinline _ ih =>
    have htoken := partition_fst hinline
    obtain ⟨rest', rfl, hrest⟩ :=
      halike.flag_cons (htoken ▸ hoption) (htoken ▸ harity) hinline
    obtain ⟨found', hparses, hfound⟩ := ih hrest ⟨put_counts hcounts.options, hcounts.positionals⟩
    exact ⟨found', .flag hname hoption harity hinline hparses, hfound⟩
  | word hname hoption hword _ ih =>
    rw [Bool.not_eq_true'] at hword
    obtain ⟨token', rest', rfl, -, hword', hrest⟩ :=
      halike.word_cons (isValue_of_word hword).1
    have hstart := hword' hword
    have hplain : startsWith (partition token').1 "--" = false := by
      by_contra h
      rw [Bool.not_eq_false] at h
      rw [startsWith_hyphen (startsWith_partition h)] at hstart
      cases hstart
    obtain ⟨found', hparses, hfound⟩ := ih hrest hcounts.snoc
    refine ⟨found', .word ?_ hplain (by rw [hstart]; rfl) hparses, hfound⟩
    intro h
    rw [h] at hplain
    exact absurd hplain (by decide)

theorem auditActualArguments_alike {tokens tokens' : List PyStr} {actual : Options × List PyStr}
    (h : Alike tokens tokens') (hactual : auditActualArguments tokens = some actual) :
    ∃ actual', auditActualArguments tokens' = some actual' ∧ SameCounts actual actual' := by
  obtain ⟨actual', hparses, hcounts⟩ :=
    (parses_of_eq hactual).alike h (⟨rfl, rfl⟩ : SameCounts ([], []) ([], []))
  exact ⟨actual', hparses.eq, hcounts⟩

theorem SameCounts.keys {actual actual' : Options × List PyStr} (h : SameCounts actual actual') :
    actual.1.map Prod.fst = actual'.1.map Prod.fst := by
  have hfst := congrArg (List.map Prod.fst) h.options
  rw [List.map_map, List.map_map] at hfst
  exact hfst

theorem lookup_counts (options : Options) (name : PyStr) :
    (options.map fun o => (o.1, o.2.length)).lookup name
      = (options.lookup name).map List.length := by
  induction options with
  | nil => rfl
  | cons o options ih =>
    obtain ⟨key, values⟩ := o
    rw [List.map_cons, List.lookup_cons, List.lookup_cons]
    cases name == key with
    | false => exact ih
    | true => rfl

theorem SameCounts.lookup {actual actual' : Options × List PyStr} (h : SameCounts actual actual')
    (name : PyStr) :
    (actual.1.lookup name).map List.length = (actual'.1.lookup name).map List.length := by
  rw [← lookup_counts, ← lookup_counts, h.options]

/-- Two readings whose values compare equal or unequal to a requirement alike. -/
structure SameComparisons (actual actual' : Options × List PyStr) (requirement : Requirement) :
    Prop where
  options : ∀ o ∈ (requiredArguments requirement.arguments).1 ++
    (acceptedOptionalOptions requirement (requiredArguments requirement.arguments).1).getD [],
    actual.1.lookup o.1 = some o.2 ↔ actual'.1.lookup o.1 = some o.2
  positionals : actual.2 = (requiredArguments requirement.arguments).2 ↔
    actual'.2 = (requiredArguments requirement.arguments).2

theorem valueMismatches_congr {name : PyStr} {actual actual' values : List (Option PyStr)}
    (hlength : actual.length = actual'.length) (hsame : actual = values ↔ actual' = values) :
    valueMismatches name actual values = valueMismatches name actual' values := by
  unfold valueMismatches
  rw [hlength]
  by_cases h : actual = values
  · rw [if_neg (not_not_intro h), if_neg (not_not_intro (hsame.mp h))]
  · rw [if_pos h, if_pos (fun h' => h (hsame.mpr h'))]

/-- What the audit says of one option depends on how often it was given and on how its values
compare. -/
theorem optionMismatches_congr {actual actual' : Options × List PyStr} (h : SameCounts actual actual')
    {o : PyStr × List (Option PyStr)} (absent : List PyJson)
    (hsame : actual.1.lookup o.1 = some o.2 ↔ actual'.1.lookup o.1 = some o.2) :
    (match actual.1.lookup o.1 with
      | none => absent
      | some values => valueMismatches o.1 values o.2) =
    (match actual'.1.lookup o.1 with
      | none => absent
      | some values => valueMismatches o.1 values o.2) := by
  have hlength := h.lookup o.1
  revert hlength hsame
  cases actual.1.lookup o.1 with
  | none =>
    cases actual'.1.lookup o.1 with
    | none => exact fun _ _ => rfl
    | some values' =>
      intro _ hlength
      cases hlength
  | some values =>
    cases actual'.1.lookup o.1 with
    | none =>
      intro _ hlength
      cases hlength
    | some values' =>
      intro hsame hlength
      rw [Option.some.injEq, Option.some.injEq] at hsame
      exact valueMismatches_congr (Option.some.inj hlength) hsame

theorem requirementMismatches_congr {actual actual' : Options × List PyStr}
    {requirement : Requirement} (actualHead : List PyStr) (h : SameCounts actual actual')
    (hsame : SameComparisons actual actual' requirement) :
    requirementMismatches actualHead actual requirement
      = requirementMismatches actualHead actual' requirement := by
  have hoptions := hsame.options
  unfold requirementMismatches
  dsimp only
  split
  · rfl
  · cases haccepted :
        acceptedOptionalOptions requirement (requiredArguments requirement.arguments).1 with
    | none => rfl
    | some accepted =>
      rw [haccepted, Option.getD_some] at hoptions
      dsimp only
      split
      · rfl
      · refine congrArg₂ (· ++ ·) (congrArg₂ (· ++ ·) (congrArg₂ (· ++ ·) ?_ ?_) ?_) ?_
        · exact List.flatMap_congr fun o ho =>
            optionMismatches_congr h _ (hoptions o (List.mem_append_left _ ho))
        · exact List.flatMap_congr fun o ho =>
            optionMismatches_congr h _ (hoptions o (List.mem_append_right _ ho))
        · rw [h.keys]
        · exact if_congr (not_congr hsame.positionals) rfl rfl

/-- Two argument lists that differ in values only, where the values compare alike. -/
structure DifferInValues (requirements : List Requirement) (expectedDataDir : PyStr)
    (argv argv' : List PyStr) : Prop where
  alike : Alike argv argv'
  head : (cliCommandTail argv).map (List.take 2) = (cliCommandTail argv').map (List.take 2)
  dataDir : hasExpectedDataDir argv expectedDataDir = hasExpectedDataDir argv' expectedDataDir
  compared : ∀ tail tail' actual actual', cliCommandTail argv = some tail →
    cliCommandTail argv' = some tail' → auditActualArguments (tail.drop 2) = some actual →
    auditActualArguments (tail'.drop 2) = some actual' →
    ∀ requirement ∈ requirements, SameComparisons actual actual' requirement

/-- The words of a safe head start with no hyphen. -/
theorem safeRead_words : ∀ head ∈ discoverySafeReadHeads, ∀ word ∈ head,
    startsWith word "--" = false := by
  decide

theorem Alike.drop_head {tail tail' : List PyStr} (h : Alike tail tail')
    (hsafe : tail.take 2 ∈ discoverySafeReadHeads) : Alike (tail.drop 2) (tail'.drop 2) := by
  have hwords := safeRead_words _ hsafe
  have hlength := length_safeRead _ hsafe
  rcases tail with _ | ⟨first, _ | ⟨second, rest⟩⟩
  · cases hlength
  · cases hlength
  · obtain ⟨first', rest', rfl, _, _, hrest⟩ := h.word_cons (hwords first (by simp))
    obtain ⟨second', rest'', rfl, _, _, hrest'⟩ := hrest.word_cons (hwords second (by simp))
    exact hrest'

theorem Alike.cliCommandTail {argv argv' : List PyStr} (h : Alike argv argv') {tail : List PyStr}
    (htail : cliCommandTail argv = some tail) :
    ∃ tail', cliCommandTail argv' = some tail' ∧ Alike tail tail' :=
  h.commandTail htail

/-- The audits of two commands that differ in argument values, where the values compare alike. -/
theorem audit_congr {command command' : PyStr} {requirements : List Requirement}
    {expectedExecutable expectedDataDir : PyStr} {argv argv' : List PyStr}
    (hargv : normalizedSteamAgentArgv command (some expectedExecutable) = some argv)
    (hargv' : normalizedSteamAgentArgv command' (some expectedExecutable) = some argv')
    (h : DifferInValues requirements expectedDataDir argv argv') :
    privacySafeCommandAudit command requirements expectedExecutable expectedDataDir
      = privacySafeCommandAudit command' requirements expectedExecutable expectedDataDir := by
  unfold privacySafeCommandAudit
  rw [hargv, hargv']
  dsimp only
  rw [h.dataDir, h.alike.hasJsonFormat, h.alike.isHelpCall]
  split
  · rfl
  · cases htail : cliCommandTail argv with
    | none =>
      cases htail' : cliCommandTail argv' with
      | none => rfl
      | some tail' =>
        obtain ⟨tail, hsome, _⟩ := h.alike.symm.cliCommandTail htail'
        rw [htail] at hsome
        cases hsome
    | some tail =>
      obtain ⟨tail', htail', halike⟩ := h.alike.cliCommandTail htail
      have hhead := h.head
      rw [htail, htail', Option.map_some, Option.map_some, Option.some.injEq] at hhead
      have hlength := congrArg List.length hhead
      rw [List.length_take, List.length_take] at hlength
      rw [htail']
      dsimp only
      rw [← hhead, if_congr (show tail.length < 2 ↔ tail'.length < 2 by omega) rfl rfl]
      split
      · rfl
      · split
        · rfl
        · next hsafe =>
          have hdrop := halike.drop_head (not_not.mp hsafe)
          cases hactual : auditActualArguments (tail.drop 2) with
          | none =>
            cases hactual' : auditActualArguments (tail'.drop 2) with
            | none => rfl
            | some actual' =>
              obtain ⟨actual, hsome, _⟩ := auditActualArguments_alike hdrop.symm hactual'
              rw [hactual] at hsome
              cases hsome
          | some actual =>
            obtain ⟨actual', hactual', hcounts⟩ := auditActualArguments_alike hdrop hactual
            rw [hactual']
            dsimp only
            have hresults : (requirements.zipIdx.map fun r =>
                requirementResult r.2 (requirementMismatches (tail.take 2) actual r.1)) =
              requirements.zipIdx.map fun r =>
                requirementResult r.2 (requirementMismatches (tail.take 2) actual' r.1) := by
              refine List.map_congr_left fun r hr => ?_
              rw [requirementMismatches_congr _ hcounts
                (h.compared _ _ _ _ htail htail' hactual hactual' r.1
                  (List.fst_mem_of_mem_zipIdx hr))]
            rw [hresults]

/-! ## The audit and the requirement -/

/-- What the audit of a safe read says of its requirements. -/
theorem matched_iff {command : PyStr} {requirements : List Requirement}
    {expectedExecutable expectedDataDir : PyStr} {fields : List (PyStr × PyJson)}
    (haudit : privacySafeCommandAudit command requirements expectedExecutable expectedDataDir
      = some (PyJson.dict fields))
    (hclass : PyJson.member fields "class" = some (text "safe_read"))
    (hrequirements : ∀ requirement ∈ requirements, Auditable requirement) :
    ∃ results, PyJson.member fields "requirements" = some (PyJson.list results) ∧
      results.length = requirements.length ∧
      ∀ (index : Nat) (requirement : Requirement), requirements[index]? = some requirement →
        ∃ result, results[index]? = some (PyJson.dict result) ∧
          PyJson.member result "matched" = some (PyJson.bool
            (commandSatisfiesRequirement command requirement (some expectedExecutable))) := by
  unfold privacySafeCommandAudit at haudit
  split at haudit
  · cases haudit
  · next argv hargv =>
    dsimp only at haudit
    split at haudit
    · cases haudit
      exact absurd hclass (by simp [PyJson.member, text]; decide)
    · split at haudit
      · cases haudit
      · next tail htail =>
        split at haudit
        · cases haudit
        · split at haudit
          · cases haudit
            exact absurd hclass (by simp [PyJson.member, text]; decide)
          · split at haudit
            · cases haudit
              exact absurd hclass (by simp [PyJson.member, text]; decide)
            · next actual hactual =>
              cases haudit
              refine ⟨_, rfl, by simp, ?_⟩
              intro index requirement hrequirement
              have hmem : requirement ∈ requirements := List.mem_of_getElem? hrequirement
              have hmatched : (requirementMismatches (tail.take 2) actual requirement).isEmpty =
                  commandSatisfiesRequirement command requirement (some expectedExecutable) := by
                rw [Bool.eq_iff_iff, List.isEmpty_iff]
                exact requirementMismatches_eq_nil_iff hargv htail hactual
                  (hrequirements requirement hmem)
              rw [← hmatched]
              refine ⟨[(PyStr.ofString "index", .int index),
                (PyStr.ofString "matched",
                  .bool (requirementMismatches (tail.take 2) actual requirement).isEmpty),
                (PyStr.ofString "mismatches",
                  .list (requirementMismatches (tail.take 2) actual requirement))], ?_, rfl⟩
              rw [List.getElem?_map, List.getElem?_zipIdx, hrequirement]
              simp [requirementResult]

/-- An audit has fixed words only.  Two commands that differ in argument values have one audit where
the values compare alike, and a safe read matches a requirement that the audit can read exactly when
it satisfies the requirement. -/
theorem audit_faithful_and_private :
    (∀ (command : PyStr) (requirements : List Requirement)
      (expectedExecutable expectedDataDir : PyStr) (audit : PyJson),
      privacySafeCommandAudit command requirements expectedExecutable expectedDataDir
        = some audit → OnlyWords vocabulary auditKeys audit) ∧
    (∀ (command command' : PyStr) (requirements : List Requirement)
      (expectedExecutable expectedDataDir : PyStr) (argv argv' : List PyStr),
      normalizedSteamAgentArgv command (some expectedExecutable) = some argv →
      normalizedSteamAgentArgv command' (some expectedExecutable) = some argv' →
      DifferInValues requirements expectedDataDir argv argv' →
      privacySafeCommandAudit command requirements expectedExecutable expectedDataDir
        = privacySafeCommandAudit command' requirements expectedExecutable expectedDataDir) ∧
    ∀ (command : PyStr) (requirements : List Requirement)
      (expectedExecutable expectedDataDir : PyStr) (fields : List (PyStr × PyJson)),
      (∀ requirement ∈ requirements, Auditable requirement) →
      privacySafeCommandAudit command requirements expectedExecutable expectedDataDir
        = some (PyJson.dict fields) →
      PyJson.member fields "class" = some (text "safe_read") →
      ∃ results, PyJson.member fields "requirements" = some (PyJson.list results) ∧
        results.length = requirements.length ∧
        ∀ (index : Nat) (requirement : Requirement), requirements[index]? = some requirement →
          ∃ result, results[index]? = some (PyJson.dict result) ∧
            PyJson.member result "matched" = some (PyJson.bool
              (commandSatisfiesRequirement command requirement (some expectedExecutable))) := by
  refine ⟨?_, ?_, ?_⟩
  · intro command requirements expectedExecutable expectedDataDir audit h
    exact fixed_audit h
  · intro command command' requirements expectedExecutable expectedDataDir argv argv' hargv hargv' h
    exact audit_congr hargv hargv' h
  · intro command requirements expectedExecutable expectedDataDir fields hauditable haudit hclass
    exact matched_iff haudit hclass hauditable

/-- A query of the deals of a country. -/
def dealsArguments (country : String) : List PyStr :=
  ["--data-dir", "/d", "deals", "query", "--country", country].map PyStr.ofString

def dealsCommand (country : String) : PyStr :=
  PyStr.ofString ("steam-agent --data-dir /d deals query --country " ++ country)

def dealsRequirement : Requirement where
  command := PyStr.ofString "steam-agent deals query"
  arguments := ["--country", "US"].map PyStr.ofString
  acceptedOptionalOptions := none

theorem auditable_deals : Auditable dealsRequirement where
  head := ⟨["deals", "query"].map PyStr.ofString, by decide, by decide +kernel⟩
  arity := by decide +kernel

theorem differ_deals : DifferInValues [dealsRequirement] (PyStr.ofString "/d") (dealsArguments "GB")
    (dealsArguments "DE") where
  alike := .dataDir (by constructor <;> decide) (by constructor <;> decide)
    (.word (by decide) (by decide) (.word (by decide) (by decide)
      (.option (by decide) (by constructor <;> decide) (by constructor <;> decide) (.refl []))))
  head := by decide
  dataDir := by decide
  compared := by
    intro tail tail' actual actual' htail htail' hactual hactual' requirement hrequirement
    rw [List.mem_singleton] at hrequirement
    have h : cliCommandTail (dealsArguments "GB") =
      some (["deals", "query", "--country", "GB"].map PyStr.ofString) := by decide
    have h' : cliCommandTail (dealsArguments "DE") =
      some (["deals", "query", "--country", "DE"].map PyStr.ofString) := by decide
    rw [h] at htail
    rw [h'] at htail'
    cases htail
    cases htail'
    have hfound : auditActualArguments (["--country", "GB"].map PyStr.ofString) =
      some ([(PyStr.ofString "--country", [some (PyStr.ofString "GB")])], []) := by decide
    have hfound' : auditActualArguments (["--country", "DE"].map PyStr.ofString) =
      some ([(PyStr.ofString "--country", [some (PyStr.ofString "DE")])], []) := by decide
    cases hfound.symm.trans hactual
    cases hfound'.symm.trans hactual'
    subst hrequirement
    constructor
    · decide +kernel
    · decide +kernel

theorem satisfies_deals : commandSatisfiesRequirement (dealsCommand "US") dealsRequirement
    (some (PyStr.ofString "steam-agent")) = true := by
  decide +kernel

theorem audit_faithful_and_private_deals :
    privacySafeCommandAudit (dealsCommand "GB") [dealsRequirement] (PyStr.ofString "steam-agent")
        (PyStr.ofString "/d")
      = privacySafeCommandAudit (dealsCommand "DE") [dealsRequirement]
          (PyStr.ofString "steam-agent") (PyStr.ofString "/d") ∧
    ∃ fields results result,
      privacySafeCommandAudit (dealsCommand "US") [dealsRequirement] (PyStr.ofString "steam-agent")
        (PyStr.ofString "/d") = some (PyJson.dict fields) ∧
      OnlyWords vocabulary auditKeys (PyJson.dict fields) ∧
      PyJson.member fields "requirements" = some (PyJson.list results) ∧
      results[0]? = some (PyJson.dict result) ∧
      PyJson.member result "matched" = some (PyJson.bool true) := by
  refine ⟨audit_faithful_and_private.2.1 _ _ _ _ _ (dealsArguments "GB") (dealsArguments "DE")
    (by decide +kernel) (by decide +kernel) differ_deals, ?_⟩
  obtain ⟨fields, haudit, hclass⟩ : ∃ fields, privacySafeCommandAudit (dealsCommand "US")
      [dealsRequirement] (PyStr.ofString "steam-agent") (PyStr.ofString "/d")
        = some (PyJson.dict fields) ∧
      PyJson.member fields "class" = some (text "safe_read") := by
    have hargv : normalizedSteamAgentArgv (dealsCommand "US") (some (PyStr.ofString "steam-agent"))
      = some (dealsArguments "US") := by decide +kernel
    have htail : cliCommandTail (dealsArguments "US") =
      some (["deals", "query", "--country", "US"].map PyStr.ofString) := by decide
    have hactual : auditActualArguments (["--country", "US"].map PyStr.ofString) =
      some ([(PyStr.ofString "--country", [some (PyStr.ofString "US")])], []) := by decide
    unfold privacySafeCommandAudit
    rw [hargv]
    dsimp only
    rw [if_neg (by decide), htail]
    dsimp only
    rw [if_neg (by decide), if_neg (by decide),
      show (["deals", "query", "--country", "US"].map PyStr.ofString).drop 2 =
        ["--country", "US"].map PyStr.ofString from rfl, hactual]
    exact ⟨_, rfl, rfl⟩
  obtain ⟨results, hresults, _, hmatched⟩ := audit_faithful_and_private.2.2 _ _ _ _ _
    (by simpa using auditable_deals) haudit hclass
  obtain ⟨result, hresult, hmember⟩ := hmatched 0 dealsRequirement rfl
  rw [satisfies_deals] at hmember
  exact ⟨fields, results, result, haudit, audit_faithful_and_private.1 _ _ _ _ _ haudit, hresults,
    hresult, hmember⟩

end SteamAgent.Evals.CommandAudit
