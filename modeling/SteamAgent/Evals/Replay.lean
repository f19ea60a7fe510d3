import Mathlib.Data.List.ReduceOption
import SteamAgent.Evals.Paths

/-!
# The replay of a preflight against its grading

`grade_oracle` of `grade.py` and `_replay_preflight` of `matrix.py`, which read the same
assertions about the same document with interpreters of their own.  Both are total here: on a
document nested beyond its recursion limit CPython raises a `RecursionError` in either of them.

There are six groups.

* The grading: equality, selection and operators, one definition for each function of `grade.py`.
* The replay, likewise for `matrix.py`, and the definition that is retained for it.
* The two equalities are one function.
* The two splittings of a supported path are one.
* The two selections agree: `Agrees` says that both fail or both find the same values.
* The two results.
-/

namespace SteamAgent.Evals

open PyJson (member isText)

/-! ## The grading -/

mutual

/-- `json_semantically_equal`. -/
def jsonSemanticallyEqual (actual expected : PyJson) : Bool :=
  if kind actual = .bool ∨ kind expected = .bool then
    match actual, expected with
    | .bool a, .bool b => a == b
    | _, _ => false
  else if kind actual = .null ∨ kind expected = .null then
    decide (kind actual = .null ∧ kind expected = .null)
  else if isNumber actual ∨ isNumber expected then
    isNumber actual && isNumber expected && decide (numberValue actual = numberValue expected)
  else
    match actual, expected with
    | .str a, .str b => decide (a = b)
    | .list xs, .list ys => decide (xs.length = ys.length) && equalItems xs ys
    | .dict fields, .dict fields' => sameKeys fields fields' && equalFields fields fields'
    | _, _ => false

/-- The items of two lists of one length. -/
def equalItems : List PyJson → List PyJson → Bool
  | x :: xs, y :: ys => jsonSemanticallyEqual x y && equalItems xs ys
  | _, _ => true

/-- The values of the first mapping's keys. -/
def equalFields : JsonFields → JsonFields → Bool
  | [], _ => true
  | (key, value) :: rest, other =>
    (match other.lookup key with
      | some found => jsonSemanticallyEqual value found
      | none => false) && equalFields rest other

end

/-- One step of a location in a document. -/
inductive LocationStep where
  | key (key : PyStr)
  | index (index : Nat)
deriving DecidableEq, Repr

/-- A value with its location. -/
abbrev Node := PyJson × List LocationStep

/-- The condition of a filter on an item. -/
def holdsFilter (equal : PyJson → PyJson → Bool) (field : PyStr) (expected item : PyJson) : Bool :=
  match item with
  | .dict fields =>
    match fields.lookup field with
    | some value => equal value expected
    | none => false
  | _ => false

/-- One item of an expansion. -/
def expandItem (keep : PyJson → Bool) (location : List LocationStep) (expanded : List Node)
    (item : PyJson × Nat) : Except PyError (List Node) :=
  if keep item.1 then
    if maxSelectedPathNodes ≤ expanded.length then
      .error (.valueError "path selection exceeded safety limits")
    else .ok (expanded ++ [(item.1, location ++ [.index item.2])])
  else .ok expanded

/-- The items of one node. -/
def expandNode (keep : PyJson → Bool) (expanded : List Node) (node : Node) :
    Except PyError (List Node) :=
  iterate node.1 >>= fun items => items.zipIdx.foldlM (expandItem keep node.2) expanded

/-- The loops of a wildcard, which keeps every item, and of a filter. -/
def expand (keep : PyJson → Bool) (nodes : List Node) : Except PyError (List Node) :=
  nodes.foldlM (expandNode keep) []

/-- One bracket of `_select_path_nodes`. -/
def selectBracket (state : List Node × Bool) (bracket : PyStr) :
    Except PyError (List Node × Bool) :=
  if bracket = PyStr.ofString "*" then
    expand (fun _ => true) state.1 >>= fun nodes => .ok (nodes, true)
  else if isDecimal bracket then
    state.1.mapM (fun node => subscriptIndex node.1 (decimal bracket) >>= fun value =>
      .ok (value, node.2 ++ [.index (decimal bracket)])) >>= fun nodes => .ok (nodes, state.2)
  else
    match filterMatch bracket with
    | none => .error (.valueError "unsupported bracket")
    | some condition =>
      expand (holdsFilter jsonSemanticallyEqual condition.1 condition.2.expected) state.1 >>=
        fun nodes => .ok (nodes, true)

/-- One segment of `_select_path_nodes`. -/
def selectSegment (state : List Node × Bool) (segment : PyStr) :
    Except PyError (List Node × Bool) :=
  match segmentMatch segment with
  | none => .error (.valueError "unsupported path segment")
  | some found =>
    state.1.mapM (fun node => subscriptKey node.1 found.1 >>= fun value =>
      .ok (value, node.2 ++ [.key found.1])) >>= fun nodes =>
        found.2.foldlM selectBracket (nodes, state.2)

/-- `_select_path_nodes`. -/
def selectPathNodes (document : PyJson) (path : PyStr) : Except PyError (List Node × Bool) :=
  if isSupportedPath path = false then .error (.valueError "unsupported path")
  else
    pathSegments (path.drop 2) >>= fun segments =>
      segments.foldlM selectSegment ([(document, [])], false)

/-- `select_path`. -/
def selectPath (document : PyJson) (path : PyStr) : Except PyError (List PyJson × Bool) :=
  selectPathNodes document path >>= fun found => .ok (found.1.map Prod.fst, found.2)

/-- `mapping[key]`. -/
def required (fields : JsonFields) (key : String) : Except PyError PyJson :=
  match member fields key with
  | some value => .ok value
  | none => .error .keyError

/-- A path that is a text; on another value `select_path` fails. -/
def asPath (value : PyJson) : Except PyError PyStr :=
  match value with
  | .str path => .ok path
  | _ => .error .typeError

/-- `values[0]`. -/
def firstOf (values : List PyJson) : Except PyError PyJson :=
  match values with
  | [] => .error .indexError
  | value :: _ => .ok value

/-- `values[0] if len(values) == 1 else values`. -/
def onlyOf (values : List PyJson) : PyJson :=
  match values with
  | [value] => value
  | values => .list values

/-- The operators of `evaluate_assertion` on what a path selects. -/
def evaluateOperator (operator expected : PyJson) (values : List PyJson) (plural : Bool) :
    Except PyError Bool :=
  if isText "ordered_equals" (some operator) then
    (if plural then .ok (.list values) else firstOf values) >>= fun actual =>
      .ok (jsonSemanticallyEqual actual expected)
  else if isText "equals" (some operator) then
    .ok (jsonSemanticallyEqual (onlyOf values) expected)
  else if isText "contains" (some operator) then
    match onlyOf values with
    | .list items => .ok (items.any fun item => jsonSemanticallyEqual item expected)
    | actual => isIn expected actual
  else if isText "omits" (some operator) then
    match onlyOf values with
    | .list items => .ok (!items.any fun item => jsonSemanticallyEqual item expected)
    | actual => isIn expected actual >>= fun found => .ok (!found)
  else if isText "one_of" (some operator) then
    match expected with
    | .list (item :: items) =>
      .ok ((item :: items).any fun item => jsonSemanticallyEqual (onlyOf values) item)
    | _ => .error (.valueError "one_of expected must be a nonempty list")
  else .error (.valueError "unsupported operator")

/-- `evaluate_assertion`. -/
def evaluateAssertion (document : PyJson) (assertion : JsonFields) : Except PyError Bool :=
  required assertion "path" >>= fun value =>
    asPath value >>= fun path =>
      selectPath document path >>= fun found =>
        required assertion "operator" >>= fun operator =>
          required assertion "expected" >>= fun expected =>
            evaluateOperator operator expected found.1 found.2

/-- `assertion.get("source", "cli_document") == "cli_document"`. -/
def isCliDocument (assertion : JsonFields) : Bool :=
  match member assertion "source" with
  | none => true
  | some source => isText "cli_document" (some source)

/-- What a grading says. -/
structure Grading where
  assertions : Nat
  failed : List JsonFields
  passed : Bool

/-- `failure["reason"] = reason`. -/
def withReason (assertion : JsonFields) (reason : String) : JsonFields :=
  (assertion.filter fun f => f.1 ≠ PyStr.ofString "reason") ++
    [(PyStr.ofString "reason", .str (PyStr.ofString reason))]

section Grade

/- The verdict on an assertion about another source than the document. -/
variable (other : JsonFields → Bool × Option String)

/-- One turn of `grade_assertions`. -/
def gradeAssertion (document : PyJson) (assertion : JsonFields) : Bool × Option String :=
  if isCliDocument assertion then
    match document with
    | .null => (false, some "no_required_command_captures_a_document")
    | document =>
      match evaluateAssertion document assertion with
      | .ok passed => (passed, none)
      | .error _ => (false, some "assertion_could_not_be_evaluated")
  else other assertion

/-- The failure that a turn leaves behind. -/
def failureOf (assertion : JsonFields) : Bool × Option String → Option JsonFields
  | (true, _) => none
  | (false, none) => some assertion
  | (false, some reason) => some (withReason assertion reason)

/-- `grade_oracle`. -/
def gradeOracle (document : PyJson) (assertions : List JsonFields) : Grading :=
  let failures := assertions.filterMap fun assertion =>
    failureOf assertion (gradeAssertion other document assertion)
  { assertions := assertions.length, failed := failures, passed := failures.isEmpty }

end Grade

/-! ## The replay -/

mutual

/-- `_replay_json_equal`. -/
def replayJsonEqual (left right : PyJson) : Bool :=
  if kind left = .bool ∨ kind right = .bool then
    match left, right with
    | .bool a, .bool b => a == b
    | _, _ => false
  else if isNumber left ∧ isNumber right then decide (numberValue left = numberValue right)
  else if kind left ≠ kind right then false
  else
    match left, right with
    | .dict fields, .dict fields' => sameKeys fields fields' && replayFields fields fields'
    | .list xs, .list ys => decide (xs.length = ys.length) && replayItems xs ys
    | .str a, .str b => decide (a = b)
    | .null, .null => true
    | _, _ => false

def replayItems : List PyJson → List PyJson → Bool
  | x :: xs, y :: ys => replayJsonEqual x y && replayItems xs ys
  | _, _ => true

def replayFields : JsonFields → JsonFields → Bool
  | [], _ => true
  | (key, value) :: rest, other =>
    (match other.lookup key with
      | some found => replayJsonEqual value found
      | none => false) && replayFields rest other

end

def unsupportedReplayPath : PyError :=
  .valueError "unsupported replay path"

/-- The depth after a character. -/
def depthAfter (depth : Int) (c : CodePoint) : Int :=
  if c = openBracket then depth + 1 else if c = closeBracket then depth - 1 else depth

/-- The loop of `_replay_select` over the characters of a path. -/
def replaySegmentsFrom (segment : PyStr) (depth : Int) : PyStr → Except PyError (List PyStr)
  | [] => if depth ≠ 0 then .error unsupportedReplayPath else .ok [segment]
  | c :: rest =>
    if depthAfter depth c < 0 then .error unsupportedReplayPath
    else if c = 46 ∧ depth = 0 then
      (replaySegmentsFrom [] depth rest).map fun segments => segment :: segments
    else replaySegmentsFrom (segment ++ [c]) (depthAfter depth c) rest

/-- `[item for node in nodes for item in node if keep(item)]`. -/
def replayExpand (keep : PyJson → Bool) (nodes : List PyJson) : Except PyError (List PyJson) :=
  nodes.mapM iterate >>= fun lists => .ok (lists.flatten.filter keep)

/-- One bracket of `_replay_select`. -/
def replayBracket (state : List PyJson × Bool) (bracket : PyStr) :
    Except PyError (List PyJson × Bool) :=
  (if bracket = PyStr.ofString "*" then
    replayExpand (fun _ => true) state.1 >>= fun nodes => .ok (nodes, true)
  else if isDecimal bracket then
    state.1.mapM (fun node => subscriptIndex node (decimal bracket)) >>= fun nodes =>
      .ok (nodes, state.2)
  else
    match filterMatch bracket with
    | none => .error unsupportedReplayPath
    | some condition =>
      replayExpand (holdsFilter replayJsonEqual condition.1 condition.2.expected) state.1 >>=
        fun nodes => .ok (nodes, true)) >>= fun found =>
    if maxSelectedPathNodes < found.1.length then
      .error (.valueError "replay selection exceeded safety limit")
    else .ok found

/-- One segment of `_replay_select`. -/
def replaySegment (state : List PyJson × Bool) (segment : PyStr) :
    Except PyError (List PyJson × Bool) :=
  match segmentMatch segment with
  | none => .error unsupportedReplayPath
  | some found =>
    state.1.mapM (fun node => subscriptKey node found.1) >>= fun nodes =>
      found.2.foldlM replayBracket (nodes, state.2)

/-- `_replay_select`. -/
def replaySelect (document : PyJson) (path : Option PyJson) :
    Except PyError (List PyJson × Bool) :=
  if isText "$" path then .ok ([document], false)
  else
    match path with
    | some (.str path) =>
      if (PyStr.ofString "$.").isPrefixOf path = false ∨ maxGradingPathCharacters < path.length then
        .error unsupportedReplayPath
      else
        replaySegmentsFrom [] 0 (path.drop 2) >>= fun segments =>
          segments.foldlM replaySegment ([document], false)
    | _ => .error unsupportedReplayPath

/-- The keys that the replay knows. -/
def replayKeys : List PyStr :=
  ["path", "operator", "expected", "source"].map PyStr.ofString

/-- The operators of `_replay_assertion` on what a path selects. -/
def replayOperator (operator : Option PyJson) (expected : PyJson) (values : List PyJson)
    (plural : Bool) : Except PyError Bool :=
  if isText "ordered_equals" operator then
    (if plural then .ok (.list values) else firstOf values) >>= fun actual =>
      .ok (replayJsonEqual actual expected)
  else if isText "equals" operator then .ok (replayJsonEqual (onlyOf values) expected)
  else if isText "contains" operator then
    match onlyOf values with
    | .list items => .ok (items.any fun item => replayJsonEqual item expected)
    | actual => isIn expected actual
  else if isText "omits" operator then
    match onlyOf values with
    | .list items => .ok (!items.any fun item => replayJsonEqual item expected)
    | actual => isIn expected actual >>= fun found => .ok (!found)
  else
    match isText "one_of" operator, expected with
    | true, .list (item :: items) =>
      .ok ((item :: items).any fun item => replayJsonEqual (onlyOf values) item)
    | _, _ => .error (.valueError "unsupported replay operator")

/-- `_replay_assertion`. -/
def replayAssertion (document assertion : PyJson) : Except PyError Bool :=
  match assertion with
  | .dict fields =>
    if fields.any fun f => f.1 ∉ replayKeys then .error (.valueError "invalid replay assertion")
    else if isCliDocument fields = false then
      .error (.valueError "invalid replay assertion source")
    else
      replaySelect document (member fields "path") >>= fun found =>
        replayOperator (member fields "operator") ((member fields "expected").getD .null) found.1
          found.2
  | _ => .error (.valueError "invalid replay assertion")

/-- `_PREFLIGHT_REPLAY_SCHEMA`. -/
def preflightReplaySchema : String :=
  "steam-agent-eval-preflight-replay/0.1"

/-- The executors of a preflight. -/
inductive Executor where
  | frozenCli
  | domainOracle
deriving DecidableEq, Repr

def Executor.name : Executor → String
  | .frozenCli => "frozen_cli"
  | .domainOracle => "domain_oracle"

/-- The fields of an object. -/
def asFields : PyJson → Option JsonFields
  | .dict fields => some fields
  | _ => none

/-- `_preflight_replay_definition`. -/
def preflightReplayDefinition (inputDocument : PyJson) (executor : Executor) :
    Except String PyJson :=
  match asFields inputDocument with
  | none => .error "matrix deterministic-only preflight failed"
  | some input =>
    match (member input "deterministic_oracle").bind asFields with
    | none => .error "matrix deterministic-only preflight failed"
    | some oracle =>
      match member oracle "assertions" with
      | some (.list assertions) =>
        let retained := assertions.filter fun a =>
          match a with
          | .dict fields => isCliDocument fields
          | _ => false
        -- The two counts that the source compares are counts of the same assertions.
        if retained.isEmpty then .error "matrix deterministic-only preflight failed"
        else
          .ok (.dict
            [(PyStr.ofString "schema", .str (PyStr.ofString preflightReplaySchema)),
              (PyStr.ofString "executor", .str (PyStr.ofString executor.name)),
              (PyStr.ofString "assertions", .list retained)])
      | _ => .error "matrix deterministic-only preflight failed"

/-- One failure of the comprehension of `_replay_preflight`. -/
def replayFailure (document assertion : PyJson) : Except PyError (Option JsonFields) :=
  replayAssertion document assertion >>= fun passed =>
    .ok (if passed then none else asFields assertion)

/-- `_replay_preflight`. -/
def replayPreflight (oracleDocument replayDefinition : PyJson) : Except PyError Grading :=
  match replayDefinition with
  | .dict fields =>
    match member fields "assertions" with
    | some (.list assertions) =>
      if sameKeys fields [(PyStr.ofString "schema", .null), (PyStr.ofString "executor", .null),
            (PyStr.ofString "assertions", .null)] = false ∨
          isText preflightReplaySchema (member fields "schema") = false ∨
          (isText Executor.frozenCli.name (member fields "executor") = false ∧
            isText Executor.domainOracle.name (member fields "executor") = false) ∨
          assertions = [] then
        .error (.valueError "invalid preflight replay definition")
      else
        assertions.mapM (replayFailure oracleDocument) >>= fun failures =>
          .ok
            { assertions := assertions.length
              failed := failures.reduceOption
              passed := failures.reduceOption.isEmpty }
    | _ => .error (.valueError "invalid preflight replay definition")
  | _ => .error (.valueError "invalid preflight replay definition")

/-! ## The two equalities -/

mutual

theorem replayJsonEqual_eq (left right : PyJson) :
    replayJsonEqual left right = jsonSemanticallyEqual left right := by
  cases left with
  | list xs =>
    cases right with
    | list ys =>
      have hitems := replayItems_eq xs ys
      simp [replayJsonEqual, jsonSemanticallyEqual, kind, isNumber, numberValue, hitems]
    | _ => simp [replayJsonEqual, jsonSemanticallyEqual, kind, isNumber, numberValue]
  | dict fields =>
    cases right with
    | dict fields' =>
      have hfields := replayFields_eq fields fields'
      simp [replayJsonEqual, jsonSemanticallyEqual, kind, isNumber, numberValue, hfields]
    | _ => simp [replayJsonEqual, jsonSemanticallyEqual, kind, isNumber, numberValue]
  | _ =>
    cases right <;> simp [replayJsonEqual, jsonSemanticallyEqual, kind, isNumber, numberValue]

theorem replayItems_eq (xs ys : List PyJson) : replayItems xs ys = equalItems xs ys := by
  cases xs with
  | nil => simp [replayItems, equalItems]
  | cons x xs =>
    cases ys with
    | nil => simp [replayItems, equalItems]
    | cons y ys =>
      rw [replayItems, equalItems, replayJsonEqual_eq x y, replayItems_eq xs ys]

theorem replayFields_eq (fields fields' : JsonFields) :
    replayFields fields fields' = equalFields fields fields' := by
  cases fields with
  | nil => simp [replayFields, equalFields]
  | cons f fields =>
    obtain ⟨key, value⟩ := f
    rw [replayFields, equalFields, replayFields_eq fields fields']
    cases fields'.lookup key with
    | none => rfl
    | some found => simp only [replayJsonEqual_eq value found]

end

theorem replayJsonEqual_funext : replayJsonEqual = jsonSemanticallyEqual :=
  funext fun left => funext fun right => replayJsonEqual_eq left right

/-! ## The two splittings -/

/-- The segment that was begun is the beginning of the first one. -/
theorem pathSegmentsFrom_head {segment text : PyStr} {depth : Int} {segments : List PyStr}
    (h : pathSegmentsFrom segment depth text = .ok segments) :
    ∃ rest more, segments = (segment ++ rest) :: more := by
  induction text generalizing segment depth segments with
  | nil =>
    obtain ⟨-, h⟩ := Result.guard_eq_ok.mp h
    cases h
    exact ⟨[], [], by rw [List.append_nil]⟩
  | cons c text ih =>
    have hlater {d : Int} (h : pathSegmentsFrom (segment ++ [c]) d text = .ok segments) :
        ∃ rest more, segments = (segment ++ rest) :: more := by
      obtain ⟨rest, more, heq⟩ := ih h
      exact ⟨c :: rest, more, by rw [heq, List.append_assoc]; rfl⟩
    unfold pathSegmentsFrom at h
    split at h
    · exact hlater h
    · split at h
      · exact hlater h
      · split at h
        · cases hrest : pathSegmentsFrom [] depth text with
          | error e =>
            rw [hrest] at h
            cases h
          | ok more =>
            rw [hrest] at h
            cases h
            exact ⟨[], more, by rw [List.append_nil]⟩
        · exact hlater h

/-- Where no segment goes below its start, the replay splits a path alike. -/
theorem replaySegmentsFrom_eq {segment text : PyStr} {segments : List PyStr}
    (h : pathSegmentsFrom segment (netDepth segment) text = .ok segments)
    (hbelow : ∀ s ∈ segments, NeverBelow s) :
    replaySegmentsFrom segment (netDepth segment) text = .ok segments := by
  induction text generalizing segment segments with
  | nil =>
    obtain ⟨hdepth, h⟩ := Result.guard_eq_ok.mp h
    rw [replaySegmentsFrom, if_neg hdepth, h]
  | cons c text ih =>
    have hafter : depthAfter (netDepth segment) c = netDepth (segment ++ [c]) := by
      have hnil : netDepth [] = 0 := rfl
      rw [netDepth_append, netDepth_cons, depthAfter, hnil]
      split
      · omega
      · split <;> omega
    have hlater (h : pathSegmentsFrom (segment ++ [c]) (netDepth (segment ++ [c])) text =
        .ok segments) (hc : ¬(c = 46 ∧ netDepth segment = 0)) :
        replaySegmentsFrom segment (netDepth segment) (c :: text) = .ok segments := by
      obtain ⟨rest, more, heq⟩ := pathSegmentsFrom_head h
      have hnonneg : 0 ≤ netDepth (segment ++ [c]) :=
        hbelow (segment ++ [c] ++ rest) (heq ▸ List.mem_cons_self) _ rest rfl
      rw [replaySegmentsFrom, hafter, if_neg (Int.not_lt.mpr hnonneg), if_neg hc]
      exact ih h hbelow
    rw [← hafter] at hlater
    unfold pathSegmentsFrom at h
    by_cases hopen : c = openBracket
    · rw [if_pos hopen] at h
      refine hlater (by rw [depthAfter, if_pos hopen]; exact h) ?_
      rw [hopen]
      exact fun h => absurd h.1 (by decide)
    · rw [if_neg hopen] at h
      by_cases hclose : c = closeBracket
      · rw [if_pos hclose] at h
        refine hlater (by rw [depthAfter, if_neg hopen, if_pos hclose]; exact h) ?_
        rw [hclose]
        exact fun h => absurd h.1 (by decide)
      · rw [if_neg hclose] at h
        by_cases hdot : c = 46 ∧ netDepth segment = 0
        · rw [if_pos hdot] at h
          rw [replaySegmentsFrom, depthAfter, if_neg hopen, if_neg hclose, if_pos hdot,
            if_neg (by omega)]
          cases hrest : pathSegmentsFrom [] (netDepth segment) text with
          | error e =>
            rw [hrest] at h
            cases h
          | ok more =>
            rw [hrest] at h
            cases h
            have hzero : netDepth segment = netDepth [] := hdot.2
            rw [hzero] at hrest ⊢
            rw [ih hrest fun s hs => hbelow s (List.mem_cons_of_mem _ hs)]
            rfl
        · rw [if_neg hdot] at h
          exact hlater (by rw [depthAfter, if_neg hopen, if_neg hclose]; exact h) hdot

/-- The segments of a supported path. -/
structure SupportedSegments (path : PyStr) (segments : List PyStr) : Prop where
  split : pathSegments (path.drop 2) = .ok segments
  supported : ∀ s ∈ segments, supportedSegment s = true
  prefixed : (PyStr.ofString "$.").isPrefixOf path = true
  short : path.length ≤ maxGradingPathCharacters

theorem exists_segments {path : PyStr} (h : isSupportedPath path = true) :
    ∃ segments, SupportedSegments path segments := by
  simp only [isSupportedPath, Bool.and_eq_true, decide_eq_true_eq] at h
  obtain ⟨⟨hshort, hprefixed⟩, h⟩ := h
  cases hsplit : pathSegments (path.drop 2) with
  | error e =>
    rw [hsplit] at h
    cases h
  | ok segments =>
    rw [hsplit] at h
    exact ⟨segments, hsplit, List.all_eq_true.mp h, hprefixed, hshort⟩

theorem exists_segmentMatch {segment : PyStr} (h : supportedSegment segment = true) :
    ∃ found, segmentMatch segment = some found ∧ ∀ b ∈ found.2, supportedBracket b = true := by
  unfold supportedSegment at h
  cases hmatch : segmentMatch segment with
  | none =>
    rw [hmatch] at h
    cases h
  | some found =>
    rw [hmatch] at h
    exact ⟨found, rfl, List.all_eq_true.mp h⟩

theorem SupportedSegments.replay {path : PyStr} {segments : List PyStr}
    (h : SupportedSegments path segments) :
    replaySegmentsFrom [] 0 (path.drop 2) = .ok segments := by
  have hbelow : ∀ s ∈ segments, NeverBelow s := by
    intro s hs
    obtain ⟨found, hfound, -⟩ := exists_segmentMatch (h.supported s hs)
    exact neverBelow_segment hfound
  have hsplit : pathSegmentsFrom [] (netDepth []) (path.drop 2) = .ok segments := h.split
  exact replaySegmentsFrom_eq hsplit hbelow

/-! ## The two selections -/

/-- Both computations fail, or the second one finds the values of the first one's nodes, which
are not too many. -/
def Agrees (x : Except PyError (List Node × Bool)) (y : Except PyError (List PyJson × Bool)) :
    Prop :=
  (∃ r, x = .ok r ∧ r.1.length ≤ maxSelectedPathNodes ∧ y = .ok (r.1.map Prod.fst, r.2)) ∨
    ∃ e e', x = .error e ∧ y = .error e'

theorem Agrees.bind {x : Except PyError (List Node × Bool)}
    {y : Except PyError (List PyJson × Bool)}
    {f : List Node × Bool → Except PyError (List Node × Bool)}
    {g : List PyJson × Bool → Except PyError (List PyJson × Bool)} (h : Agrees x y)
    (hnext : ∀ r, r.1.length ≤ maxSelectedPathNodes → Agrees (f r) (g (r.1.map Prod.fst, r.2))) :
    Agrees (x >>= f) (y >>= g) := by
  rcases h with ⟨r, rfl, hbound, rfl⟩ | ⟨e, e', rfl, rfl⟩
  · exact hnext r hbound
  · exact .inr ⟨e, e', rfl, rfl⟩

/-- Loops whose turns agree do so. -/
theorem Agrees.foldlM {α : Type} {f : List Node × Bool → α → Except PyError (List Node × Bool)}
    {g : List PyJson × Bool → α → Except PyError (List PyJson × Bool)} {values : List α}
    (hstep : ∀ a ∈ values, ∀ r, r.1.length ≤ maxSelectedPathNodes →
      Agrees (f r a) (g (r.1.map Prod.fst, r.2) a))
    (r : List Node × Bool) (hr : r.1.length ≤ maxSelectedPathNodes) :
    Agrees (values.foldlM f r) (values.foldlM g (r.1.map Prod.fst, r.2)) := by
  induction values generalizing r with
  | nil => exact .inl ⟨r, rfl, hr, rfl⟩
  | cons a values ih =>
    rw [List.foldlM_cons, List.foldlM_cons]
    exact (hstep a List.mem_cons_self r hr).bind fun r' hr' =>
      ih (fun b hb => hstep b (List.mem_cons_of_mem _ hb)) r' hr'

/-- What the loop over the items of one node adds. -/
theorem foldlM_expandItem (keep : PyJson → Bool) (location : List LocationStep)
    (items : List PyJson) (n : Nat) (expanded : List Node)
    (hexpanded : expanded.length ≤ maxSelectedPathNodes) :
    (∃ out, (items.zipIdx n).foldlM (expandItem keep location) expanded = .ok out ∧
      out.map Prod.fst = expanded.map Prod.fst ++ items.filter keep ∧
      out.length ≤ maxSelectedPathNodes) ∨
    (∃ e, (items.zipIdx n).foldlM (expandItem keep location) expanded = .error e) ∧
      maxSelectedPathNodes < expanded.length + (items.filter keep).length := by
  induction items generalizing n expanded with
  | nil => exact .inl ⟨expanded, rfl, by simp, hexpanded⟩
  | cons item items ih =>
    rw [List.zipIdx_cons, List.foldlM_cons]
    by_cases hkeep : keep item = true
    · by_cases hfull : maxSelectedPathNodes ≤ expanded.length
      · right
        constructor
        · rw [expandItem, if_pos hkeep, if_pos hfull]
          exact ⟨_, rfl⟩
        · rw [List.filter_cons_of_pos hkeep, List.length_cons]
          omega
      · rw [expandItem, if_pos hkeep, if_neg hfull]
        have hnext := ih (n + 1) (expanded ++ [(item, location ++ [.index n])])
          (by rw [List.length_append, List.length_singleton]; omega)
        rcases hnext with ⟨out, hout, hvalues, hbound⟩ | ⟨herror, hover⟩
        · refine .inl ⟨out, hout, ?_, hbound⟩
          rw [hvalues, List.filter_cons_of_pos hkeep]
          simp
        · refine .inr ⟨herror, ?_⟩
          rw [List.filter_cons_of_pos hkeep, List.length_cons]
          rw [List.length_append, List.length_singleton] at hover
          omega
    · rw [expandItem, if_neg hkeep, List.filter_cons_of_neg hkeep]
      exact ih (n + 1) expanded hexpanded

theorem expandNode_eq {keep : PyJson → Bool} {expanded : List Node} {node : Node}
    {items : List PyJson} (h : iterate node.1 = .ok items) :
    expandNode keep expanded node = items.zipIdx.foldlM (expandItem keep node.2) expanded := by
  rw [expandNode, h]
  rfl

/-- What the loop over the nodes adds. -/
theorem foldlM_expandNode (keep : PyJson → Bool) (nodes : List Node) (expanded : List Node)
    (hexpanded : expanded.length ≤ maxSelectedPathNodes) :
    (∃ out lists, nodes.foldlM (expandNode keep) expanded = .ok out ∧
      (nodes.map Prod.fst).mapM iterate = .ok lists ∧
      out.map Prod.fst = expanded.map Prod.fst ++ lists.flatten.filter keep ∧
      out.length ≤ maxSelectedPathNodes) ∨
    (∃ e, nodes.foldlM (expandNode keep) expanded = .error e) ∧
      ∀ lists, (nodes.map Prod.fst).mapM iterate = .ok lists →
        maxSelectedPathNodes < expanded.length + (lists.flatten.filter keep).length := by
  induction nodes generalizing expanded with
  | nil => exact .inl ⟨expanded, [], rfl, rfl, by simp, hexpanded⟩
  | cons node nodes ih =>
    rw [List.foldlM_cons, List.map_cons, List.mapM_cons]
    cases hitems : iterate node.1 with
    | error e =>
      refine .inr ⟨⟨e, by rw [expandNode, hitems]; rfl⟩, fun lists h => ?_⟩
      cases h
    | ok items =>
      rw [expandNode_eq hitems]
      have hmap (lists : List (List PyJson))
          (h : (Except.ok items >>= fun b => (nodes.map Prod.fst).mapM iterate >>= fun bs =>
            pure (b :: bs)) = (.ok lists : Except PyError _)) :
          ∃ rest, (nodes.map Prod.fst).mapM iterate = .ok rest ∧ lists = items :: rest := by
        obtain ⟨b, hb, h⟩ := Result.bind_eq_ok.mp h
        obtain ⟨rest, hrest, h⟩ := Result.bind_eq_ok.mp h
        cases hb
        cases h
        exact ⟨rest, hrest, rfl⟩
      rcases foldlM_expandItem keep node.2 items 0 expanded hexpanded with
        ⟨mid, hmid, hvalues, hbound⟩ | ⟨⟨e, herror⟩, hover⟩
      · rw [hmid]
        have hlength : mid.length = expanded.length + (items.filter keep).length := by
          have hlen := congrArg List.length hvalues
          simpa using hlen
        rcases ih mid hbound with ⟨out, rest, hout, hrest, hall, hbound'⟩ | ⟨herror, hover⟩
        · refine .inl ⟨out, items :: rest, hout, ?_, ?_, hbound'⟩
          · rw [hrest]
            rfl
          · rw [hall, hvalues, List.flatten_cons, List.filter_append, List.append_assoc]
        · refine .inr ⟨herror, fun lists h => ?_⟩
          obtain ⟨rest, hrest, rfl⟩ := hmap lists h
          have hlater := hover rest hrest
          rw [List.flatten_cons, List.filter_append, List.length_append]
          omega
      · refine .inr ⟨⟨e, by rw [herror]; rfl⟩, fun lists h => ?_⟩
        obtain ⟨rest, -, rfl⟩ := hmap lists h
        rw [List.flatten_cons, List.filter_append, List.length_append]
        omega

/-- The check of the replay after a bracket. -/
def checkNodes (found : List PyJson × Bool) : Except PyError (List PyJson × Bool) :=
  if maxSelectedPathNodes < found.1.length then
    .error (.valueError "replay selection exceeded safety limit")
  else .ok found

theorem expand_agrees (keep : PyJson → Bool) (nodes : List Node) :
    Agrees (expand keep nodes >>= fun nodes => .ok (nodes, true))
      ((replayExpand keep (nodes.map Prod.fst) >>= fun nodes => .ok (nodes, true)) >>=
        checkNodes) := by
  rcases foldlM_expandNode keep nodes [] (Nat.zero_le _) with
    ⟨out, lists, hout, hlists, hvalues, hbound⟩ | ⟨⟨e, herror⟩, hover⟩
  · have hlength : (lists.flatten.filter keep).length = out.length := by
      have hlen := congrArg List.length hvalues
      simpa using hlen.symm
    refine .inl ⟨(out, true), ?_, hbound, ?_⟩
    · rw [expand, hout]
      rfl
    · rw [replayExpand, hlists]
      show checkNodes (lists.flatten.filter keep, true) = _
      rw [checkNodes, if_neg (by rw [hlength]; omega), hvalues]
      rfl
  · right
    cases hlists : (nodes.map Prod.fst).mapM iterate with
    | error e' =>
      refine ⟨e, e', ?_, ?_⟩
      · rw [expand, herror]
        rfl
      · rw [replayExpand, hlists]
        rfl
    | ok lists =>
      refine ⟨e, .valueError "replay selection exceeded safety limit", ?_, ?_⟩
      · rw [expand, herror]
        rfl
      · rw [replayExpand, hlists]
        show checkNodes (lists.flatten.filter keep, true) = _
        have hlong := hover lists hlists
        rw [List.length_nil, Nat.zero_add] at hlong
        exact if_pos hlong

/-- A subscript on each node and on each value. -/
theorem mapM_subscript (f : PyJson → Except PyError PyJson) (step : LocationStep)
    (nodes : List Node) :
    (∃ out, nodes.mapM (fun node => f node.1 >>= fun value => .ok (value, node.2 ++ [step])) =
        .ok out ∧ (nodes.map Prod.fst).mapM f = .ok (out.map Prod.fst) ∧
        out.length = nodes.length) ∨
      ∃ e e', nodes.mapM (fun node => f node.1 >>= fun value => .ok (value, node.2 ++ [step])) =
        .error e ∧ (nodes.map Prod.fst).mapM f = .error e' := by
  induction nodes with
  | nil => exact .inl ⟨[], rfl, rfl, rfl⟩
  | cons node nodes ih =>
    rw [List.mapM_cons, List.map_cons, List.mapM_cons]
    cases hvalue : f node.1 with
    | error e => exact .inr ⟨e, e, rfl, rfl⟩
    | ok value =>
      rcases ih with ⟨out, hout, hvalues, hlength⟩ | ⟨e, e', herror, herror'⟩
      · refine .inl ⟨(value, node.2 ++ [step]) :: out, ?_, ?_, ?_⟩
        · rw [hout]
          rfl
        · rw [hvalues]
          rfl
        · rw [List.length_cons, List.length_cons, hlength]
      · refine .inr ⟨e, e', ?_, ?_⟩
        · rw [herror]
          rfl
        · rw [herror']
          rfl

theorem selectBracket_agrees (bracket : PyStr) (r : List Node × Bool)
    (hr : r.1.length ≤ maxSelectedPathNodes) :
    Agrees (selectBracket r bracket) (replayBracket (r.1.map Prod.fst, r.2) bracket) := by
  unfold selectBracket replayBracket
  rw [replayJsonEqual_funext]
  by_cases hstar : bracket = PyStr.ofString "*"
  · rw [if_pos hstar, if_pos hstar]
    exact expand_agrees _ r.1
  · rw [if_neg hstar, if_neg hstar]
    by_cases hdecimal : isDecimal bracket = true
    · rw [if_pos hdecimal, if_pos hdecimal]
      rcases mapM_subscript (fun v => subscriptIndex v (decimal bracket))
        (.index (decimal bracket)) r.1 with ⟨out, hout, hvalues, hlength⟩ | ⟨e, e', herror, herror'⟩
      · refine .inl ⟨(out, r.2), ?_, by rw [hlength]; exact hr, ?_⟩
        · rw [hout]
          rfl
        · rw [hvalues]
          show checkNodes (out.map Prod.fst, r.2) = _
          rw [checkNodes, if_neg (by rw [List.length_map, hlength]; omega)]
      · refine .inr ⟨e, e', ?_, ?_⟩
        · rw [herror]
          rfl
        · rw [herror']
          rfl
    · rw [if_neg hdecimal, if_neg hdecimal]
      cases filterMatch bracket with
      | none => exact .inr ⟨_, _, rfl, rfl⟩
      | some condition => exact expand_agrees _ r.1

theorem selectSegment_agrees (segment : PyStr) (r : List Node × Bool)
    (hr : r.1.length ≤ maxSelectedPathNodes) :
    Agrees (selectSegment r segment) (replaySegment (r.1.map Prod.fst, r.2) segment) := by
  unfold selectSegment replaySegment
  cases segmentMatch segment with
  | none => exact .inr ⟨_, _, rfl, rfl⟩
  | some found =>
    rcases mapM_subscript (fun v => subscriptKey v found.1) (.key found.1) r.1 with
      ⟨out, hout, hvalues, hlength⟩ | ⟨e, e', herror, herror'⟩
    · simp only [hout, hvalues]
      exact Agrees.foldlM (fun b _ => selectBracket_agrees b) (out, r.2) (by rw [hlength]; exact hr)
    · refine .inr ⟨e, e', ?_, ?_⟩
      · simp only [herror]
        rfl
      · simp only [herror']
        rfl

/-- The replay selects the values that the grading selects, or both fail. -/
theorem select_agrees (document : PyJson) {path : PyStr} (h : isSupportedPath path = true) :
    Agrees (selectPathNodes document path) (replaySelect document (some (.str path))) := by
  obtain ⟨segments, hsegments⟩ := exists_segments h
  have hdollar : isText "$" (some (.str path)) = false := by
    apply Bool.eq_false_iff.mpr
    intro heq
    rw [PyJson.isText_iff, Option.some.injEq, PyJson.str.injEq] at heq
    have hprefixed := hsegments.prefixed
    rw [heq] at hprefixed
    exact absurd hprefixed (by decide +kernel)
  have hbounds : ¬((PyStr.ofString "$.").isPrefixOf path = false ∨
      maxGradingPathCharacters < path.length) := by
    rintro (hprefixed | hlong)
    · rw [hsegments.prefixed] at hprefixed
      cases hprefixed
    · exact absurd hsegments.short (Nat.not_le.mpr hlong)
  rw [selectPathNodes, if_neg (by rw [h]; decide), hsegments.split, replaySelect, hdollar]
  simp only [Bool.false_eq_true, if_false, hbounds, hsegments.replay]
  exact Agrees.foldlM (fun s _ => selectSegment_agrees s) ([(document, [])], false)
    (by simp [maxSelectedPathNodes])

/-! ## The two results -/

/-- An assertion about the document with a supported path, an operator and an expected value. -/
structure CliAssertion (a : JsonFields) : Prop where
  source : isCliDocument a = true
  path : ∃ path, member a "path" = some (.str path) ∧ isSupportedPath path = true
  operator : ∃ operator, member a "operator" = some operator
  expected : ∃ expected, member a "expected" = some expected

/-- The assertion has no key but those that the replay knows. -/
def KnownKeys (a : JsonFields) : Prop :=
  ∀ f ∈ a, f.1 ∈ replayKeys

theorem operators_agree (operator expected : PyJson) (values : List PyJson) (plural passed : Bool) :
    replayOperator (some operator) expected values plural = .ok passed ↔
      evaluateOperator operator expected values plural = .ok passed := by
  unfold replayOperator evaluateOperator
  rw [replayJsonEqual_funext]
  split
  · rfl
  · split
    · rfl
    · split
      · rfl
      · split
        · rfl
        · cases isText "one_of" (some operator) with
          | false => simp
          | true =>
            cases expected with
            | list items =>
              cases items with
              | nil => simp
              | cons item items => rfl
            | _ => simp

/-- Nothing is selected from a document that is not there. -/
theorem selectPath_null (path : PyStr) (found : List PyJson × Bool) :
    selectPath .null path ≠ .ok found := by
  intro h
  obtain ⟨r, hr, -⟩ := Result.bind_eq_ok.mp h
  obtain ⟨hpath, hr⟩ := Result.guard_eq_ok.mp hr
  obtain ⟨segments, hsegments⟩ := exists_segments (Bool.eq_true_of_not_eq_false hpath)
  obtain ⟨segment, more, heq⟩ := pathSegmentsFrom_head hsegments.split
  obtain ⟨key, hkey, -⟩ := exists_segmentMatch (hsegments.supported _ (heq ▸ List.mem_cons_self))
  rw [hsegments.split, heq] at hr
  have hfirst : selectSegment ([(.null, [])], false) ([] ++ segment) = .error .typeError := by
    rw [selectSegment, hkey]
    rfl
  obtain ⟨r', hr', -⟩ := Result.bind_eq_ok.mp (show
    (selectSegment ([(.null, [])], false) ([] ++ segment) >>= fun s =>
      more.foldlM selectSegment s) = .ok r from hr)
  rw [hfirst] at hr'
  cases hr'

theorem gradeAssertion_iff (other : JsonFields → Bool × Option String) (document : PyJson)
    {a : JsonFields} (ha : CliAssertion a) :
    (gradeAssertion other document a).1 = true ↔ evaluateAssertion document a = .ok true := by
  unfold gradeAssertion
  rw [if_pos ha.source]
  cases document with
  | null =>
    refine iff_of_false Bool.false_ne_true fun h => ?_
    obtain ⟨value, -, h⟩ := Result.bind_eq_ok.mp h
    obtain ⟨path, -, h⟩ := Result.bind_eq_ok.mp h
    obtain ⟨found, hfound, -⟩ := Result.bind_eq_ok.mp h
    exact selectPath_null path found hfound
  | _ =>
    dsimp only
    split
    · next passed h =>
      rw [h]
      simp
    · next e h =>
      rw [h]
      simp

/-- The replay of an assertion passes when its grading does. -/
theorem replayAssertion_iff (document : PyJson) {a : JsonFields} (ha : CliAssertion a)
    (hkeys : KnownKeys a) :
    replayAssertion document (.dict a) = .ok true ↔ evaluateAssertion document a = .ok true := by
  obtain ⟨path, hpath, hsupported⟩ := ha.path
  obtain ⟨operator, hoperator⟩ := ha.operator
  obtain ⟨expected, hexpected⟩ := ha.expected
  have hknown : ¬(a.any fun f => decide (f.1 ∉ replayKeys)) = true := by
    rw [List.any_eq_true]
    rintro ⟨f, hf, hother⟩
    exact of_decide_eq_true hother (hkeys f hf)
  have hsource : ¬isCliDocument a = false := by
    rw [ha.source]
    decide
  have hgrade : evaluateAssertion document a =
      (selectPath document path >>= fun found => evaluateOperator operator expected found.1 found.2) :=
    by
    rw [evaluateAssertion, required, required, required, hpath, hoperator, hexpected]
    rfl
  have hreplay : replayAssertion document (.dict a) =
      (replaySelect document (some (.str path)) >>= fun found =>
        replayOperator (some operator) expected found.1 found.2) := by
    rw [replayAssertion, if_neg hknown, if_neg hsource, hpath, hoperator, hexpected]
    rfl
  rw [hgrade, hreplay, selectPath]
  rcases select_agrees document hsupported with ⟨r, hr, -, hr'⟩ | ⟨e, e', he, he'⟩
  · rw [hr, hr']
    exact operators_agree operator expected _ _ _
  · rw [he, he']
    exact iff_of_false (fun h => by cases h) fun h => by cases h

/-- The result of a grading or a replay that passes. -/
def passedGrading (assertions : List JsonFields) : Grading where
  assertions := assertions.length
  failed := []
  passed := true

theorem gradeOracle_passed (other : JsonFields → Bool × Option String) (document : PyJson)
    (assertions : List JsonFields) :
    ((gradeOracle other document assertions).passed = true ↔
      ∀ a ∈ assertions, (gradeAssertion other document a).1 = true) ∧
    ((gradeOracle other document assertions).passed = true →
      gradeOracle other document assertions = passedGrading assertions) := by
  have hnone (a : JsonFields) : failureOf a (gradeAssertion other document a) = none ↔
      (gradeAssertion other document a).1 = true := by
    rcases gradeAssertion other document a with ⟨_ | _, _ | _⟩ <;> simp [failureOf]
  constructor
  · rw [gradeOracle, List.isEmpty_iff, List.filterMap_eq_nil_iff]
    simp only [hnone]
  · intro h
    rw [gradeOracle, List.isEmpty_iff] at h
    rw [gradeOracle, h]
    rfl

/-- The definition that is retained for some assertions. -/
def replayDefinition (executor : Executor) (assertions : List JsonFields) : PyJson :=
  .dict
    [(PyStr.ofString "schema", .str (PyStr.ofString preflightReplaySchema)),
      (PyStr.ofString "executor", .str (PyStr.ofString executor.name)),
      (PyStr.ofString "assertions", .list (assertions.map .dict))]

theorem replayPreflight_definition (document : PyJson) (executor : Executor)
    {assertions : List JsonFields} (hne : assertions ≠ []) :
    replayPreflight document (replayDefinition executor assertions) =
      ((assertions.map PyJson.dict).mapM (replayFailure document) >>= fun failures =>
        .ok
          { assertions := assertions.length
            failed := failures.reduceOption
            passed := failures.reduceOption.isEmpty }) := by
  unfold replayDefinition replayPreflight
  simp only [member, PyJson.lookup_ofString_cons, sameKeys]
  simp only [isText]
  simp [PyJson.lookup_ofString_cons, hne]
  intro hfrozen hdomain
  cases executor with
  | frozenCli => exact absurd rfl hfrozen
  | domainOracle => exact absurd rfl hdomain

theorem replayFailure_eq_none (document : PyJson) (a : JsonFields) :
    replayFailure document (.dict a) = .ok none ↔ replayAssertion document (.dict a) = .ok true := by
  rw [replayFailure]
  cases replayAssertion document (.dict a) with
  | error e => exact iff_of_false (fun h => by cases h) fun h => by cases h
  | ok passed =>
    cases passed with
    | false => exact iff_of_false (fun h => by cases h) fun h => by cases h
    | true => exact iff_of_true rfl rfl

/-- A replay passes when each of its assertions does. -/
theorem replayPreflight_passed (document : PyJson) (executor : Executor)
    {assertions : List JsonFields} (hne : assertions ≠ []) :
    ((∃ r, replayPreflight document (replayDefinition executor assertions) = .ok r ∧
        r.passed = true) ↔
      ∀ a ∈ assertions, replayAssertion document (.dict a) = .ok true) ∧
    ∀ r, replayPreflight document (replayDefinition executor assertions) = .ok r →
      r.passed = true → r = passedGrading assertions := by
  rw [replayPreflight_definition document executor hne]
  constructor
  · constructor
    · rintro ⟨r, hr, hpassed⟩ a ha
      obtain ⟨failures, hfailures, hr⟩ := Result.bind_eq_ok.mp hr
      cases hr
      obtain ⟨failure, hmem, hfailure⟩ := Result.exists_of_mem_left
        (Result.mapM_eq_ok_iff.mp hfailures) (List.mem_map_of_mem ha)
      have hnone : failure = none := by
        cases failure with
        | none => rfl
        | some f =>
          have hsome : f ∈ failures.reduceOption := List.reduceOption_mem_iff.mpr hmem
          rw [List.isEmpty_iff.mp hpassed] at hsome
          cases hsome
      rw [hnone] at hfailure
      exact (replayFailure_eq_none document a).mp hfailure
    · intro hall
      have hmap : (assertions.map PyJson.dict).mapM (replayFailure document) =
          .ok (assertions.map fun _ => none) := by
        rw [Result.mapM_eq_ok_iff, List.forall₂_map_left_iff, List.forall₂_map_right_iff,
          List.forall₂_same]
        exact fun a ha => (replayFailure_eq_none document a).mpr (hall a ha)
      rw [hmap]
      refine ⟨_, rfl, ?_⟩
      rw [List.isEmpty_iff]
      simp [List.reduceOption]
  · intro r hr hpassed
    obtain ⟨failures, -, hr⟩ := Result.bind_eq_ok.mp hr
    cases hr
    have hnil : failures.reduceOption = [] := List.isEmpty_iff.mp hpassed
    simp only [hnil, passedGrading, List.isEmpty_nil]

/-- An assertion with another key stops the replay. -/
theorem replayPreflight_unknown (document : PyJson) (executor : Executor)
    {assertions : List JsonFields} {a : JsonFields} (ha : a ∈ assertions) (hkeys : ¬KnownKeys a)
    (r : Grading) : replayPreflight document (replayDefinition executor assertions) ≠ .ok r := by
  intro h
  rw [replayPreflight_definition document executor (List.ne_nil_of_mem ha)] at h
  obtain ⟨failures, hfailures, -⟩ := Result.bind_eq_ok.mp h
  obtain ⟨failure, -, hfailure⟩ := Result.exists_of_mem_left
    (Result.mapM_eq_ok_iff.mp hfailures) (List.mem_map_of_mem ha)
  obtain ⟨passed, hpassed, -⟩ := Result.bind_eq_ok.mp hfailure
  have hunknown : (a.any fun f => decide (f.1 ∉ replayKeys)) = true := by
    by_contra hall
    apply hkeys
    intro f hf
    by_contra hother
    exact hall (List.any_eq_true.mpr ⟨f, hf, decide_eq_true hother⟩)
  rw [replayAssertion, if_pos hunknown] at hpassed
  cases hpassed

/-- The assertions of a scenario's oracle. -/
def oracleAssertions (inputDocument : PyJson) : Option PyJson :=
  (asFields inputDocument).bind fun input =>
    ((member input "deterministic_oracle").bind asFields).bind fun oracle =>
      member oracle "assertions"

/-- The definition that is retained has each assertion about the document. -/
theorem preflightReplayDefinition_eq {input : PyJson} {assertions : List JsonFields}
    (hinput : oracleAssertions input = some (.list (assertions.map .dict)))
    (hcli : ∀ a ∈ assertions, CliAssertion a) (hne : assertions ≠ []) (executor : Executor) :
    preflightReplayDefinition input executor = .ok (replayDefinition executor assertions) := by
  obtain ⟨fields, hfields, h⟩ := Option.bind_eq_some_iff.mp hinput
  obtain ⟨oracle, horacle, hmember⟩ := Option.bind_eq_some_iff.mp h
  have hretained : (assertions.map PyJson.dict).filter (fun a =>
      match a with
      | .dict fields => isCliDocument fields
      | _ => false) = assertions.map PyJson.dict := by
    rw [List.filter_eq_self]
    intro a ha
    obtain ⟨fields, hmem, rfl⟩ := List.mem_map.mp ha
    exact (hcli fields hmem).source
  have hempty : (assertions.map PyJson.dict).isEmpty = false := by
    cases assertions with
    | nil => exact absurd rfl hne
    | cons a assertions => rfl
  simp only [preflightReplayDefinition, hfields, horacle, hmember, hretained, hempty,
    Bool.false_eq_true, if_false]
  rfl

/-- Without a key that the replay does not know, the replay of the definition that is retained
passes exactly when the grading does, with the same result.  With one it never returns. -/
theorem replay_agrees_with_grading (other : JsonFields → Bool × Option String)
    (document input : PyJson) (assertions : List JsonFields) (executor : Executor)
    (hne : assertions ≠ []) (hcli : ∀ a ∈ assertions, CliAssertion a)
    (hinput : oracleAssertions input = some (.list (assertions.map .dict))) :
    ∃ definition, preflightReplayDefinition input executor = .ok definition ∧
      ((∀ a ∈ assertions, KnownKeys a) →
        ((∃ r, replayPreflight document definition = .ok r ∧ r.passed = true) ↔
          (gradeOracle other document assertions).passed = true) ∧
        ∀ r, replayPreflight document definition = .ok r → r.passed = true →
          r = gradeOracle other document assertions) ∧
      ((∃ a ∈ assertions, ¬KnownKeys a) → ∀ r, replayPreflight document definition ≠ .ok r) := by
  refine ⟨_, preflightReplayDefinition_eq hinput hcli hne executor, ?_, ?_⟩
  · intro hkeys
    obtain ⟨hreplay, hresult⟩ := replayPreflight_passed document executor hne
    obtain ⟨hgrade, hgraded⟩ := gradeOracle_passed other document assertions
    have hiff : (∃ r, replayPreflight document (replayDefinition executor assertions) = .ok r ∧
          r.passed = true) ↔ (gradeOracle other document assertions).passed = true := by
      rw [hreplay, hgrade]
      constructor
      · intro h a ha
        exact (gradeAssertion_iff other document (hcli a ha)).mpr
          ((replayAssertion_iff document (hcli a ha) (hkeys a ha)).mp (h a ha))
      · intro h a ha
        exact (replayAssertion_iff document (hcli a ha) (hkeys a ha)).mpr
          ((gradeAssertion_iff other document (hcli a ha)).mp (h a ha))
    refine ⟨hiff, fun r hr hpassed => ?_⟩
    rw [hresult r hr hpassed, hgraded (hiff.mp ⟨r, hr, hpassed⟩)]
  · rintro ⟨a, ha, hunknown⟩ r
    exact replayPreflight_unknown document executor ha hunknown r

/-- A document with one member, an assertion about it, and the same assertion with a turn, which
the schema of scenarios allows. -/
def soleDocument : PyJson :=
  .dict [(PyStr.ofString "a", .int 1)]

def soleAssertion : JsonFields :=
  [(PyStr.ofString "path", .str (PyStr.ofString "$.a")),
    (PyStr.ofString "operator", .str (PyStr.ofString "equals")),
    (PyStr.ofString "expected", .int 1)]

def turnAssertion : JsonFields :=
  soleAssertion ++ [(PyStr.ofString "turn", .int 0)]

def inputOf (assertions : List JsonFields) : PyJson :=
  .dict [(PyStr.ofString "deterministic_oracle",
    .dict [(PyStr.ofString "assertions", .list (assertions.map .dict))])]

theorem soleAssertion_cli : CliAssertion soleAssertion where
  source := by decide +kernel
  path := ⟨PyStr.ofString "$.a", by simp [soleAssertion, member], by decide +kernel⟩
  operator := ⟨_, rfl⟩
  expected := ⟨_, by simp [soleAssertion, member, PyJson.lookup_ofString_cons]; rfl⟩

theorem replay_agrees_with_grading_sole :
    ∃ definition, preflightReplayDefinition (inputOf [soleAssertion]) .frozenCli = .ok definition ∧
      ((∃ r, replayPreflight soleDocument definition = .ok r ∧ r.passed = true) ↔
        (gradeOracle (fun _ => (false, none)) soleDocument [soleAssertion]).passed = true) := by
  obtain ⟨definition, hdefinition, hknown, -⟩ :=
    replay_agrees_with_grading (fun _ => (false, none)) soleDocument (inputOf [soleAssertion])
      [soleAssertion] .frozenCli (by simp) (by simpa using soleAssertion_cli)
      (by simp [oracleAssertions, inputOf, asFields, member])
  have hkeys : ∀ a ∈ [soleAssertion], KnownKeys a := by
    simp only [List.mem_singleton, forall_eq]
    exact fun f hf => (by decide +kernel : ∀ k ∈ soleAssertion.map Prod.fst, k ∈ replayKeys) f.1
      (List.mem_map_of_mem hf)
  exact ⟨definition, hdefinition, (hknown hkeys).1⟩

/-- With a turn the grading passes and the replay stops. -/
theorem replay_of_turn_stops :
    CliAssertion turnAssertion ∧
      preflightReplayDefinition (inputOf [turnAssertion]) .frozenCli =
        .ok (replayDefinition .frozenCli [turnAssertion]) ∧
      ¬((∃ r, replayPreflight soleDocument (replayDefinition .frozenCli [turnAssertion]) = .ok r ∧
          r.passed = true) ↔
        (gradeOracle (fun _ => (false, none)) soleDocument [turnAssertion]).passed = true) := by
  have hcli : CliAssertion turnAssertion :=
    { source := by decide +kernel
      path := ⟨PyStr.ofString "$.a", by simp [turnAssertion, soleAssertion, member],
        by decide +kernel⟩
      operator := ⟨_, rfl⟩
      expected := ⟨.int 1, by simp [turnAssertion, soleAssertion, member,
        PyJson.lookup_ofString_cons]⟩ }
  have hgraded : (gradeOracle (fun _ => (false, none)) soleDocument [turnAssertion]).passed =
      true := by decide +kernel
  have hturn : PyStr.ofString "turn" ∉ replayKeys := by decide +kernel
  have hunknown : ¬KnownKeys turnAssertion := fun h =>
    hturn (h (PyStr.ofString "turn", .int 0) (List.mem_append_right _ List.mem_cons_self))
  refine ⟨hcli, preflightReplayDefinition_eq (by simp [oracleAssertions, inputOf, asFields, member])
    (by simpa using hcli) (by simp) .frozenCli, fun h => ?_⟩
  obtain ⟨r, hr, -⟩ := h.mpr hgraded
  exact replayPreflight_unknown soleDocument .frozenCli List.mem_cons_self hunknown r hr

end SteamAgent.Evals
