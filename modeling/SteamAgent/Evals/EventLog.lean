import Mathlib
import SteamAgent.Stdlib.PyText
import SteamAgent.Stdlib.Result

/-!
# Judge event logs

`_inspect_event_log` of `review.py` on the text of a file that is private, within the size
limit and UTF-8.

An event is one JSON object on one line, written by any encoder that emits no raw line
feed or carriage return.  `_strict_json_loads` is a parameter, with what the JSON grammar
says of the texts of objects.  The lines are those of `str.splitlines`, which also ends a
line at U+0085, U+2028 and U+2029.

There are six groups.

* The decoder.
* Events and the loop.
* The grammar.
* The items of a prefix.
* The loop against the grammar.
* The lines.
-/

namespace SteamAgent.Evals.EventLog

open Result (bind_eq_ok)

/-! ## The decoder -/

abbrev Fields := List (PyStr × PyJson)

/-- `_strict_json_loads` returns the object of a text, or it raises an exception.  `IsText`
says that a text is an object of JSON with unique keys, and with numbers and a nesting that
CPython decodes: beyond its recursion limit it raises a `RecursionError`. -/
structure Decoder where
  loads : PyStr → Option PyJson
  IsText : PyStr → Fields → Prop
  loads_text {text : PyStr} {fields : Fields} (h : IsText text fields) :
    loads text = some (.dict fields)
  brace {text : PyStr} {fields : Fields} (h : IsText text fields) : (123 : CodePoint) ∈ text
  /-- No control character is raw in a string, and only these are blanks. -/
  control {text : PyStr} {fields : Fields} (h : IsText text fields) :
    ∀ c ∈ text, c.val < 32 → c ∈ [9, 10, 13]
  /-- These are raw in strings only, and a text that ends in a string is no JSON. -/
  cut {before after : PyStr} {c : CodePoint} {fields : Fields}
    (h : IsText (before ++ c :: after) fields) (hc : c ∈ [0x85, 0x2028, 0x2029]) :
    loads before = none

/-! ## Events -/

/-- What the inspection raises: a `ReviewError`, or a `TypeError` for an unhashable type. -/
inductive Raised where
  | invalid
  | toolUse
  | typeError
deriving DecidableEq, Repr

/-- `_CODEX_ITEM_EVENTS`. -/
inductive ItemEventType where
  | started
  | updated
  | completed
deriving DecidableEq, Repr

def ItemEventType.name : ItemEventType → String
  | .started => "item.started"
  | .updated => "item.updated"
  | .completed => "item.completed"

/-- `_ALLOWED_JUDGE_ITEM_TYPES`. -/
inductive ItemType where
  | agentMessage
  | reasoning
deriving DecidableEq, Repr

def ItemType.name : ItemType → String
  | .agentMessage => "agent_message"
  | .reasoning => "reasoning"

/-- `value.get(key)`. -/
def get (fields : Fields) (key : String) : Option PyJson :=
  fields.lookup (PyStr.ofString key)

/-- The value, if it is a string. -/
def asStr : Option PyJson → Option PyStr
  | some (.str s) => some s
  | _ => none

/-- `item.get(key)`, where an item that is no object has nothing. -/
def itemGet (event : Fields) (key : String) : Option PyJson :=
  match get event "item" with
  | some (.dict item) => get item key
  | _ => none

/-- An item event after its checks. -/
structure ItemEvent where
  kind : ItemEventType
  id : PyStr
  type : ItemType
  text : Option PyStr
deriving DecidableEq

/-- `event["type"]`, if it is in `_CODEX_ITEM_EVENTS`. -/
def itemEventType (event : Fields) : Option ItemEventType :=
  match asStr (get event "type") with
  | none => none
  | some type =>
    [.started, .updated, .completed].find? fun kind : ItemEventType =>
      type = PyStr.ofString kind.name

/-- `item_type`, if it is in `_ALLOWED_JUDGE_ITEM_TYPES`. -/
def itemType : Option PyJson → Except Raised ItemType
  | some (.str type) =>
    match [.agentMessage, .reasoning].find? fun item : ItemType =>
      type = PyStr.ofString item.name with
    | some item => .ok item
    | none => .error .toolUse
  | some (.list _) | some (.dict _) => .error .typeError
  | _ => .error .toolUse

/-- The checks of one item event that do not look at the others. -/
def itemEvent (event : Fields) : Except Raised ItemEvent :=
  match itemEventType event with
  | none => .error .invalid
  | some kind =>
    match asStr (itemGet event "id") with
    | none => .error .invalid
    | some id =>
      if id = [] then .error .invalid
      else do
        let type ← itemType (itemGet event "type")
        return ⟨kind, id, type, asStr (itemGet event "text")⟩

inductive Phase where
  | active
  | completed
deriving DecidableEq, Repr

/-- The variables of the loop. -/
structure Inspecting where
  agentMessages : Nat
  agentMessage : PyStr
  itemStates : List (PyStr × ItemType × Phase)
deriving DecidableEq

def Inspecting.start : Inspecting :=
  ⟨0, [], []⟩

/-- `item_states[id] = value`. -/
def Inspecting.put (s : Inspecting) (e : ItemEvent) (phase : Phase) : Inspecting :=
  { s with itemStates := (e.id, e.type, phase) :: s.itemStates.filter fun p => p.1 ≠ e.id }

/-- The branches over the type of an item event. -/
def Inspecting.take (s : Inspecting) (e : ItemEvent) : Except Raised Inspecting :=
  let retained := s.itemStates.lookup e.id
  match e.kind with
  | .started => if retained.isSome then .error .invalid else .ok (s.put e .active)
  | .updated => if retained = some (e.type, .active) then .ok s else .error .invalid
  | .completed =>
    if retained = none ∨ retained = some (e.type, .active) then
      let s := s.put e .completed
      match e.type, e.text with
      | .reasoning, _ => .ok s
      | .agentMessage, none => .error .invalid
      | .agentMessage, some text =>
        .ok { s with agentMessages := s.agentMessages + 1, agentMessage := text }
    else .error .invalid

/-- The loop over the events between the first two and the last. -/
def inspectItems (s : Inspecting) : List Fields → Except Raised Inspecting
  | [] => .ok s
  | event :: rest => do
    let e ← itemEvent event
    let s ← s.take e
    inspectItems s rest

/-- An event of a line. -/
def decodeEvent (decoder : Decoder) (line : PyStr) : Except Raised Fields :=
  match decoder.loads line with
  | some (.dict event) => if (asStr (get event "type")).isSome then .ok event else .error .invalid
  | _ => .error .invalid

/-- What `_inspect_event_log` returns, without the digest of the bytes. -/
structure Summary where
  events : Nat
  agentMessages : Nat
  agentMessage : PyStr
deriving DecidableEq

/-- `events[0]`, `events[1]` and `events[-1]` have their types. -/
def framed (events : List Fields) : Bool :=
  (asStr (events[0]?.bind (get · "type")) == some (PyStr.ofString "thread.started")) &&
    (asStr (events[1]?.bind (get · "type")) == some (PyStr.ofString "turn.started")) &&
    asStr (events.getLast?.bind (get · "type")) == some (PyStr.ofString "turn.completed")

/-- `_inspect_event_log`, after the text is decoded. -/
def inspectEventLog (decoder : Decoder) (text : PyStr) : Except Raised Summary :=
  let lines := PyStr.splitlines text
  if lines = [] ∨ lines.any PyStr.isBlank = true then .error .invalid
  else if lines.length < 4 then .error .invalid
  else do
    let events ← lines.mapM (decodeEvent decoder)
    if framed events = false then .error .invalid
    else do
      let s ← inspectItems .start (events.drop 2).dropLast
      if s.agentMessages ≠ 1 ∨ s.itemStates = [] ∨
          (s.itemStates.any fun p => p.2.2 ≠ .completed) = true then .error .invalid
      else return ⟨lines.length, s.agentMessages, s.agentMessage⟩

/-! ## The grammar -/

/-- An item that has started: the start, and updates. -/
def Started (type : ItemType) (events : List ItemEvent) : Prop :=
  ∃ first rest, events = first :: rest ∧ first.kind = .started ∧
    (∀ e ∈ rest, e.kind = .updated) ∧ ∀ e ∈ events, e.type = type

/-- An item that has completed: nothing, or a start and updates, and then the completion. -/
def Completed (type : ItemType) (events : List ItemEvent) : Prop :=
  ∃ front last, events = front ++ [last] ∧ (front = [] ∨ Started type front) ∧
    last.kind = .completed ∧ last.type = type

/-- The events of an item. -/
def eventsOf (id : PyStr) (events : List ItemEvent) : List ItemEvent :=
  events.filter fun e => e.id = id

/-- The texts of the agent messages that complete. -/
def messages (events : List ItemEvent) : List (Option PyStr) :=
  (events.filter fun e => e.kind = .completed ∧ e.type = .agentMessage).map ItemEvent.text

/-- The item events of a log, with the text of the agent message: each item completes
once, and one agent message completes. -/
structure Items (events : List ItemEvent) (text : PyStr) : Prop where
  lifecycle : ∀ e ∈ events, ∃ type, Completed type (eventsOf e.id events)
  message : messages events = [some text]

/-- An item event with an ID, a type and perhaps a text. -/
def IsItemEvent (event : Fields) (e : ItemEvent) : Prop :=
  get event "type" = some (.str (PyStr.ofString e.kind.name)) ∧
    ∃ item, get event "item" = some (.dict item) ∧ get item "id" = some (.str e.id) ∧
      e.id ≠ [] ∧ get item "type" = some (.str (PyStr.ofString e.type.name)) ∧
      e.text = asStr (get item "text")

/-- The grammar of an event log, with the text of its agent message. -/
def Grammar (events : List Fields) (text : PyStr) : Prop :=
  ∃ first second middle last items, events = first :: second :: middle ++ [last] ∧
    get first "type" = some (.str (PyStr.ofString "thread.started")) ∧
    get second "type" = some (.str (PyStr.ofString "turn.started")) ∧
    get last "type" = some (.str (PyStr.ofString "turn.completed")) ∧
    List.Forall₂ IsItemEvent middle items ∧ Items items text

theorem asStr_eq_some {value : Option PyJson} {s : PyStr} :
    asStr value = some s ↔ value = some (.str s) := by
  unfold asStr
  split
  · simp
  · next h =>
    constructor
    · intro heq
      cases heq
    · intro heq
      exact absurd heq (h s)

/-- A value is found under its name, where the names differ. -/
theorem find?_name {α β : Type} [DecidableEq β] {name : α → β}
    (hname : ∀ a a', name a = name a' → a = a') {values : List α} {a : α} {b : β}
    (ha : a ∈ values) : (values.find? fun x => b = name x) = some a ↔ b = name a := by
  constructor
  · intro h
    simpa using List.find?_some h
  · intro h
    cases hfind : values.find? fun x => b = name x with
    | none => exact absurd (decide_eq_true h) (List.find?_eq_none.mp hfind a ha)
    | some a' =>
      have ha' : b = name a' := by simpa using List.find?_some hfind
      rw [hname a' a (ha'.symm.trans h)]

theorem ItemEventType.name_injective (kind kind' : ItemEventType)
    (h : PyStr.ofString kind.name = PyStr.ofString kind'.name) : kind = kind' := by
  cases kind <;> cases kind' <;> first | rfl | exact absurd h (by decide)

theorem ItemType.name_injective (type type' : ItemType)
    (h : PyStr.ofString type.name = PyStr.ofString type'.name) : type = type' := by
  cases type <;> cases type' <;> first | rfl | exact absurd h (by decide)

theorem itemEventType_eq_some {event : Fields} {kind : ItemEventType} :
    itemEventType event = some kind ↔ get event "type" = some (.str (PyStr.ofString kind.name)) := by
  have hmem : kind ∈ [ItemEventType.started, .updated, .completed] := by
    cases kind <;> decide
  unfold itemEventType
  cases htype : asStr (get event "type") with
  | none =>
    constructor
    · intro h
      cases h
    · intro h
      rw [asStr_eq_some.mpr h] at htype
      cases htype
  | some type =>
    rw [asStr_eq_some.mp htype]
    simp only
    rw [find?_name ItemEventType.name_injective hmem]
    simp

theorem itemType_eq_ok {value : Option PyJson} {type : ItemType} :
    itemType value = .ok type ↔ value = some (.str (PyStr.ofString type.name)) := by
  have hmem : type ∈ [ItemType.agentMessage, .reasoning] := by
    cases type <;> decide
  unfold itemType
  split
  · next s =>
    have hfind := find?_name ItemType.name_injective hmem (b := s)
    rw [Option.some.injEq, PyJson.str.injEq, ← hfind]
    split
    · next item heq => rw [heq, Except.ok.injEq, Option.some.injEq]
    · next heq =>
      rw [heq]
      simp
  · simp
  · simp
  · next h _ _ =>
    constructor
    · intro heq
      cases heq
    · intro heq
      exact absurd heq (h _)

theorem itemGet_eq_some {event : Fields} {key : String} {value : PyJson} :
    itemGet event key = some value ↔
      ∃ item, get event "item" = some (.dict item) ∧ get item key = some value := by
  unfold itemGet
  split
  · next item heq =>
    rw [heq]
    simp
  · next h =>
    constructor
    · intro heq
      cases heq
    · intro hitem
      obtain ⟨item, heq, -⟩ := hitem
      exact absurd heq (h item)

theorem itemEvent_eq_ok {event : Fields} {e : ItemEvent} :
    itemEvent event = .ok e ↔ IsItemEvent event e := by
  unfold itemEvent IsItemEvent
  rw [← itemEventType_eq_some]
  cases hkind : itemEventType event with
  | none => simp
  | some kind =>
    simp only
    cases hid : asStr (itemGet event "id") with
    | none =>
      simp only [reduceCtorEq, false_iff]
      intro h
      obtain ⟨-, item, hitem, hget, -⟩ := h
      rw [asStr_eq_some.mpr (itemGet_eq_some.mpr ⟨item, hitem, hget⟩)] at hid
      cases hid
    | some id =>
      obtain ⟨item, hitem, hget⟩ := itemGet_eq_some.mp (asStr_eq_some.mp hid)
      have hsame : ∀ key, itemGet event key = get item key := by
        intro key
        unfold itemGet
        rw [hitem]
      simp only [hsame, hitem]
      by_cases hempty : id = []
      · rw [if_pos hempty]
        simp only [reduceCtorEq, false_iff]
        intro h
        obtain ⟨-, item', heq, hget', hne, -⟩ := h
        cases heq
        rw [hget] at hget'
        cases hget'
        exact hne hempty
      · rw [if_neg hempty, bind_eq_ok]
        constructor
        · intro h
          obtain ⟨type, htype, heq⟩ := h
          cases heq
          exact ⟨rfl, item, rfl, hget, hempty, itemType_eq_ok.mp htype, rfl⟩
        · intro h
          obtain ⟨heq, item', heq', hget', -, htype, htext⟩ := h
          cases heq'
          cases heq
          rw [hget] at hget'
          cases hget'
          refine ⟨e.type, itemType_eq_ok.mpr htype, ?_⟩
          rw [← htext]
          rfl

/-! ## The items of a prefix -/

/-- What is retained of an item after its events. -/
def Holds (events : List ItemEvent) : Option (ItemType × Phase) → Prop
  | none => events = []
  | some (type, .active) => Started type events
  | some (type, .completed) => Completed type events

theorem Started.ne_nil {type : ItemType} {events : List ItemEvent} (h : Started type events) :
    events ≠ [] := by
  obtain ⟨first, rest, heq, -⟩ := h
  rw [heq]
  exact List.cons_ne_nil _ _

theorem Completed.ne_nil {type : ItemType} {events : List ItemEvent}
    (h : Completed type events) : events ≠ [] := by
  obtain ⟨front, last, heq, -⟩ := h
  rw [heq]
  simp

theorem Started.not_completed {type : ItemType} {events : List ItemEvent}
    (h : Started type events) {e : ItemEvent} (he : e ∈ events) : e.kind ≠ .completed := by
  obtain ⟨first, rest, heq, hfirst, hrest, -⟩ := h
  rw [heq] at he
  rcases List.mem_cons.mp he with heq' | hmem
  · rw [heq', hfirst]
    decide
  · rw [hrest e hmem]
    decide

theorem started_append {type : ItemType} {events : List ItemEvent} {e : ItemEvent} :
    Started type (events ++ [e]) ↔
      events = [] ∧ e.kind = .started ∧ e.type = type ∨
      Started type events ∧ e.kind = .updated ∧ e.type = type := by
  cases events with
  | nil =>
    constructor
    · intro h
      obtain ⟨first, rest, heq, hfirst, -, htype⟩ := h
      rw [List.nil_append, List.cons.injEq] at heq
      refine .inl ⟨rfl, ?_, htype e (by simp)⟩
      rw [heq.1]
      exact hfirst
    · intro h
      rcases h with ⟨-, hkind, htype⟩ | ⟨hstarted, -⟩
      · refine ⟨e, [], rfl, hkind, List.forall_mem_nil _, ?_⟩
        intro e' he'
        rw [List.nil_append, List.mem_singleton] at he'
        rw [he']
        exact htype
      · exact absurd rfl hstarted.ne_nil
  | cons first events =>
    constructor
    · intro h
      obtain ⟨first', rest, heq, hfirst, hrest, htype⟩ := h
      rw [List.cons_append, List.cons.injEq] at heq
      obtain ⟨rfl, rfl⟩ := heq
      refine .inr ⟨⟨first, events, rfl, hfirst, ?_, ?_⟩, hrest e (by simp), htype e (by simp)⟩
      · intro e' he'
        exact hrest e' (List.mem_append_left _ he')
      · intro e' he'
        exact htype e' (List.mem_append_left _ he')
    · intro h
      rcases h with ⟨heq, -⟩ | ⟨⟨first', rest, heq, hfirst, hrest, htypes⟩, hkind, htype⟩
      · cases heq
      · cases heq
        refine ⟨first, events ++ [e], rfl, hfirst, ?_, ?_⟩
        · exact List.forall_mem_append.mpr ⟨hrest, by simpa using hkind⟩
        · exact List.forall_mem_append.mpr ⟨htypes, by simpa using htype⟩

theorem completed_append {type : ItemType} {events : List ItemEvent} {e : ItemEvent} :
    Completed type (events ++ [e]) ↔
      (events = [] ∨ Started type events) ∧ e.kind = .completed ∧ e.type = type := by
  constructor
  · intro h
    obtain ⟨front, last, heq, hfront, hlast⟩ := h
    obtain ⟨rfl, hsingle⟩ := List.append_inj' heq rfl
    cases hsingle
    exact ⟨hfront, hlast⟩
  · intro h
    exact ⟨events, e, rfl, h.1, h.2⟩

theorem Completed.last {type : ItemType} {events : List ItemEvent} (h : Completed type events) :
    ∃ e ∈ events, e.kind = .completed := by
  obtain ⟨front, last, heq, -, hkind, -⟩ := h
  refine ⟨last, ?_, hkind⟩
  rw [heq]
  simp

/-- The events of an item determine what is retained. -/
theorem Holds.unique {events : List ItemEvent} {x y : Option (ItemType × Phase)}
    (hx : Holds events x) (hy : Holds events y) : x = y := by
  have hstarted : ∀ {type type'}, Started type events → Started type' events → type = type' := by
    intro type type' h h'
    obtain ⟨first, rest, heq, -, -, htype⟩ := h
    obtain ⟨-, -, -, -, -, htype'⟩ := h'
    have hmem : first ∈ events := by
      rw [heq]
      exact List.mem_cons_self
    rw [← htype first hmem, htype' first hmem]
  have hcompleted : ∀ {type type'}, Completed type events → Completed type' events →
      type = type' := by
    intro type type' h h'
    obtain ⟨front, last, heq, -, -, htype⟩ := h
    rw [heq] at h'
    rw [← htype, (completed_append.mp h').2.2]
  have hboth : ∀ {type type'}, Started type events → ¬Completed type' events := by
    intro type type' h h'
    obtain ⟨e, he, hkind⟩ := h'.last
    exact h.not_completed he hkind
  rcases x with _ | ⟨type, _ | _⟩ <;> rcases y with _ | ⟨type', _ | _⟩
  · rfl
  · exact absurd hx hy.ne_nil
  · exact absurd hx hy.ne_nil
  · exact absurd hy hx.ne_nil
  · rw [hstarted hx hy]
  · exact absurd hy (hboth hx)
  · exact absurd hy hx.ne_nil
  · exact absurd hx (hboth hy)
  · rw [hcompleted hx hy]

/-- What the loop retains of an item after one more event. -/
def advance (retained : Option (ItemType × Phase)) (e : ItemEvent) :
    Option (ItemType × Phase) :=
  match e.kind with
  | .started => if retained.isSome then none else some (e.type, .active)
  | .updated => if retained = some (e.type, .active) then some (e.type, .active) else none
  | .completed =>
    if retained = none ∨ retained = some (e.type, .active) then some (e.type, .completed)
    else none

/-- The loop goes on with an event exactly where the item may go on with it. -/
theorem advance_iff {events : List ItemEvent} {retained : Option (ItemType × Phase)}
    (h : Holds events retained) (e : ItemEvent) (x : ItemType × Phase) :
    advance retained e = some x ↔ Holds (events ++ [e]) (some x) := by
  have hnone : retained = none ↔ events = [] := by
    constructor
    · rintro rfl
      exact h
    · intro heq
      exact h.unique (y := none) heq
  have hactive : ∀ type, retained = some (type, .active) ↔ Started type events := by
    intro type
    constructor
    · rintro rfl
      exact h
    · intro hstarted
      exact h.unique (y := some (type, .active)) hstarted
  obtain ⟨type, phase⟩ := x
  unfold advance
  cases hkind : e.kind with
  | started =>
    cases phase with
    | active =>
      simp only [Holds, started_append, hkind, ← hnone]
      cases retained <;> simp [eq_comm]
    | completed =>
      simp only [Holds, completed_append, hkind]
      cases retained <;> simp
  | updated =>
    cases phase with
    | active =>
      simp only [Holds, started_append, hkind, ← hactive]
      by_cases htype : e.type = type
      · rw [htype]
        simp
      · simp [htype]
    | completed =>
      simp only [Holds, completed_append, hkind]
      simp
  | completed =>
    cases phase with
    | active =>
      simp only [Holds, started_append, hkind]
      simp
    | completed =>
      simp only [Holds, completed_append, hkind, ← hactive, ← hnone]
      by_cases htype : e.type = type
      · rw [htype]
        by_cases hempty : retained = none <;> simp [hempty]
      · simp [htype]

/-! ## The loop against the grammar -/

/-- What the loop keeps. -/
structure Inspecting.Keeps (done : List ItemEvent) (s : Inspecting) : Prop where
  nodup : (s.itemStates.map Prod.fst).Nodup
  holds : ∀ id, Holds (eventsOf id done) (s.itemStates.lookup id)
  messages : ∃ texts : List PyStr, messages done = texts.map some ∧
    s.agentMessages = texts.length ∧ s.agentMessage = texts.getLastD []

theorem keeps_start : Inspecting.start.Keeps [] :=
  ⟨List.nodup_nil, fun _ => rfl, [], rfl, rfl, rfl⟩

theorem eventsOf_append (id : PyStr) (events : List ItemEvent) (e : ItemEvent) :
    eventsOf id (events ++ [e]) =
      if e.id = id then eventsOf id events ++ [e] else eventsOf id events := by
  unfold eventsOf
  rw [List.filter_append]
  by_cases h : e.id = id
  · simp [h]
  · simp [h]

theorem lookup_put (s : Inspecting) (e : ItemEvent) (phase : Phase) (id : PyStr) :
    (s.put e phase).itemStates.lookup id =
      if e.id = id then some (e.type, phase) else s.itemStates.lookup id := by
  unfold Inspecting.put
  by_cases h : e.id = id
  · rw [if_pos h, ← h, List.lookup_cons_self]
  · rw [if_neg h, List.lookup_cons, beq_false_of_ne (Ne.symm h)]
    simp only
    generalize s.itemStates = states
    induction states with
    | nil => rfl
    | cons p states ih =>
      obtain ⟨key, value⟩ := p
      by_cases hkey : key = e.id
      · have hne : (id == key) = false := by
          rw [hkey]
          exact beq_false_of_ne (Ne.symm h)
        simp only [ne_eq, hkey, not_true_eq_false, decide_false, Bool.false_eq_true,
          not_false_eq_true, List.filter_cons_of_neg, List.lookup_cons]
        rw [← hkey, hne]
        simpa [hkey] using ih
      · rw [List.filter_cons_of_pos (by simpa using hkey), List.lookup_cons, List.lookup_cons, ih]

theorem nodup_put {s : Inspecting} (h : (s.itemStates.map Prod.fst).Nodup) (e : ItemEvent)
    (phase : Phase) : ((s.put e phase).itemStates.map Prod.fst).Nodup := by
  unfold Inspecting.put
  rw [List.map_cons, List.nodup_cons]
  constructor
  · intro hmem
    obtain ⟨p, hp, heq⟩ := List.mem_map.mp hmem
    have hne := (List.mem_filter.mp hp).2
    simp [heq] at hne
  · exact h.sublist (List.filter_sublist.map _)

theorem messages_append (events : List ItemEvent) (e : ItemEvent) :
    messages (events ++ [e]) = messages events ++
      if e.kind = .completed ∧ e.type = .agentMessage then [e.text] else [] := by
  unfold messages
  rw [List.filter_append, List.map_append]
  by_cases h : e.kind = .completed ∧ e.type = .agentMessage
  · rw [if_pos h, List.filter_singleton]
    simp [h]
  · rw [if_neg h, List.filter_singleton]
    simp [h]

/-- A completed agent message has a text. -/
def HasText (e : ItemEvent) : Prop :=
  e.kind = .completed → e.type = .agentMessage → e.text.isSome

theorem Inspecting.Keeps.advance {done : List ItemEvent} {s s' : Inspecting} {e : ItemEvent}
    {x : ItemType × Phase} (h : s.Keeps done)
    (hadvance : advance (s.itemStates.lookup e.id) e = some x)
    (hnodup : (s'.itemStates.map Prod.fst).Nodup)
    (hlookup : ∀ id, s'.itemStates.lookup id =
      if e.id = id then some x else s.itemStates.lookup id)
    (hmessages : ∃ texts : List PyStr, EventLog.messages (done ++ [e]) = texts.map some ∧
      s'.agentMessages = texts.length ∧ s'.agentMessage = texts.getLastD []) :
    s'.Keeps (done ++ [e]) := by
  refine ⟨hnodup, fun id => ?_, hmessages⟩
  rw [eventsOf_append, hlookup]
  by_cases hid : e.id = id
  · rw [if_pos hid, if_pos hid, ← hid]
    exact (advance_iff (h.holds e.id) e x).mp hadvance
  · rw [if_neg hid, if_neg hid]
    exact h.holds id

/-- An event that is no completed message leaves the messages. -/
theorem Inspecting.Keeps.quiet {done : List ItemEvent} {s : Inspecting} {e : ItemEvent}
    (h : s.Keeps done) (hquiet : ¬(e.kind = .completed ∧ e.type = .agentMessage)) :
    ∃ texts : List PyStr, EventLog.messages (done ++ [e]) = texts.map some ∧
      s.agentMessages = texts.length ∧ s.agentMessage = texts.getLastD [] := by
  obtain ⟨texts, hmessages, hcount, hlast⟩ := h.messages
  refine ⟨texts, ?_, hcount, hlast⟩
  rw [messages_append, if_neg hquiet, List.append_nil, hmessages]

/-- One turn of the loop. -/
theorem take_keeps {done : List ItemEvent} {s s' : Inspecting} {e : ItemEvent}
    (h : s.Keeps done) (htake : s.take e = .ok s') : s'.Keeps (done ++ [e]) := by
  unfold Inspecting.take at htake
  simp only at htake
  cases hkind : e.kind with
  | started =>
    rw [hkind] at htake
    simp only at htake
    split_ifs at htake with hretained
    cases htake
    refine h.advance (x := (e.type, .active)) ?_ (nodup_put h.nodup e _) (lookup_put s e _)
      (h.quiet ?_)
    · rw [EventLog.advance, hkind]
      exact if_neg hretained
    · rw [hkind]
      exact fun hboth => absurd hboth.1 (by decide)
  | updated =>
    rw [hkind] at htake
    simp only at htake
    split_ifs at htake with hretained
    cases htake
    refine h.advance (x := (e.type, .active)) ?_ h.nodup ?_ (h.quiet ?_)
    · rw [EventLog.advance, hkind]
      exact if_pos hretained
    · intro id
      by_cases hid : e.id = id
      · rw [if_pos hid, ← hid, hretained]
      · rw [if_neg hid]
    · rw [hkind]
      exact fun hboth => absurd hboth.1 (by decide)
  | completed =>
    rw [hkind] at htake
    simp only at htake
    split_ifs at htake with hretained
    have hadvance : EventLog.advance (s.itemStates.lookup e.id) e = some (e.type, .completed) := by
      rw [EventLog.advance, hkind]
      exact if_pos hretained
    cases htype : e.type with
    | reasoning =>
      rw [htype] at htake
      cases htake
      refine h.advance hadvance (nodup_put h.nodup e _) (lookup_put s e _) (h.quiet ?_)
      rw [htype]
      exact fun hboth => absurd hboth.2 (by decide)
    | agentMessage =>
      rw [htype] at htake
      cases htext : e.text with
      | none =>
        rw [htext] at htake
        cases htake
      | some text =>
        rw [htext] at htake
        cases htake
        refine h.advance hadvance (nodup_put h.nodup e _) (lookup_put s e _) ?_
        obtain ⟨texts, hmessages, hcount, hlast⟩ := h.messages
        refine ⟨texts ++ [text], ?_, ?_, ?_⟩
        · rw [messages_append, if_pos ⟨hkind, htype⟩, hmessages, htext]
          simp
        · rw [List.length_append, List.length_singleton, ← hcount]
          rfl
        · simp

theorem take_total {done : List ItemEvent} {s : Inspecting} {e : ItemEvent} {x : ItemType × Phase}
    (h : s.Keeps done) (hx : Holds (eventsOf e.id (done ++ [e])) (some x)) (htext : HasText e) :
    ∃ s', s.take e = .ok s' := by
  rw [eventsOf_append, if_pos rfl, ← advance_iff (h.holds e.id)] at hx
  unfold EventLog.advance at hx
  unfold Inspecting.take
  cases hkind : e.kind with
  | started =>
    rw [hkind] at hx
    simp only at hx ⊢
    split_ifs at hx with hretained
    exact ⟨_, if_neg hretained⟩
  | updated =>
    rw [hkind] at hx
    simp only at hx ⊢
    split_ifs at hx with hretained
    exact ⟨s, if_pos hretained⟩
  | completed =>
    rw [hkind] at hx
    simp only at hx ⊢
    split_ifs at hx with hretained
    rw [if_pos hretained]
    cases htype : e.type with
    | reasoning => exact ⟨_, rfl⟩
    | agentMessage =>
      obtain ⟨text, heq⟩ := Option.isSome_iff_exists.mp (htext hkind htype)
      rw [heq]
      exact ⟨_, rfl⟩

/-! ## The loop -/

theorem inspectItems_eq_ok {s s' : Inspecting} {events : List Fields} :
    inspectItems s events = .ok s' ↔
      ∃ items, List.Forall₂ IsItemEvent events items ∧ items.foldlM Inspecting.take s = .ok s' := by
  induction events generalizing s with
  | nil =>
    constructor
    · intro h
      exact ⟨[], .nil, h⟩
    · intro h
      obtain ⟨items, hitems, hfold⟩ := h
      cases hitems
      exact hfold
  | cons event rest ih =>
    rw [inspectItems, bind_eq_ok]
    constructor
    · intro h
      obtain ⟨e, he, h⟩ := h
      obtain ⟨s'', htake, h⟩ := bind_eq_ok.mp h
      obtain ⟨items, hitems, hfold⟩ := ih.mp h
      refine ⟨e :: items, .cons (itemEvent_eq_ok.mp he) hitems, ?_⟩
      rw [List.foldlM_cons, htake]
      exact hfold
    · intro h
      obtain ⟨items, hitems, hfold⟩ := h
      cases hitems with
      | cons he hitems =>
        rw [List.foldlM_cons, bind_eq_ok] at hfold
        obtain ⟨s'', htake, hfold⟩ := hfold
        exact ⟨_, itemEvent_eq_ok.mpr he, bind_eq_ok.mpr ⟨s'', htake, ih.mpr ⟨_, hitems, hfold⟩⟩⟩

theorem takes_keep {done items : List ItemEvent} {s s' : Inspecting} (h : s.Keeps done)
    (hfold : items.foldlM Inspecting.take s = .ok s') : s'.Keeps (done ++ items) := by
  induction items generalizing done s with
  | nil =>
    cases hfold
    rw [List.append_nil]
    exact h
  | cons e rest ih =>
    rw [List.foldlM_cons, bind_eq_ok] at hfold
    obtain ⟨s'', htake, hfold⟩ := hfold
    have hrest := ih (take_keeps h htake) hfold
    rwa [List.append_assoc, List.singleton_append] at hrest

/-- The events of an item before some point are held, if all of them are. -/
theorem holds_front {type : ItemType} {front back : List ItemEvent}
    (h : Completed type (front ++ back)) (hne : front ≠ []) :
    ∃ x, Holds front (some x) := by
  have hstarted : ∀ {back : List ItemEvent}, Started type (front ++ back) → Started type front := by
    intro back h
    induction back using List.reverseRecOn with
    | nil => rwa [List.append_nil] at h
    | append_singleton back e ih =>
      rw [← List.append_assoc, started_append] at h
      rcases h with ⟨hempty, -⟩ | ⟨h, -⟩
      · exact absurd (List.append_eq_nil_iff.mp hempty).1 hne
      · exact ih h
  rcases List.eq_nil_or_concat back with hnil | ⟨back, e, hconcat⟩
  · rw [hnil, List.append_nil] at h
    exact ⟨(type, .completed), h⟩
  · rw [hconcat, List.concat_eq_append, ← List.append_assoc, completed_append] at h
    rcases h.1 with hempty | h
    · exact absurd (List.append_eq_nil_iff.mp hempty).1 hne
    · exact ⟨(type, .active), hstarted h⟩

theorem takes_total {done items : List ItemEvent} {s : Inspecting} (h : s.Keeps done)
    (hlife : ∀ e ∈ done ++ items, ∃ type, Completed type (eventsOf e.id (done ++ items)))
    (htext : ∀ e ∈ items, HasText e) : ∃ s', items.foldlM Inspecting.take s = .ok s' := by
  induction items generalizing done s with
  | nil => exact ⟨s, rfl⟩
  | cons e rest ih =>
    have hsplit : done ++ e :: rest = (done ++ [e]) ++ rest := by
      rw [List.append_assoc, List.singleton_append]
    rw [hsplit] at hlife
    obtain ⟨type, hcompleted⟩ := hlife e (by simp)
    have happend : eventsOf e.id ((done ++ [e]) ++ rest) =
        eventsOf e.id (done ++ [e]) ++ eventsOf e.id rest := List.filter_append ..
    rw [happend] at hcompleted
    have hne : eventsOf e.id (done ++ [e]) ≠ [] := by
      rw [eventsOf_append, if_pos rfl]
      simp
    obtain ⟨x, hx⟩ := holds_front hcompleted hne
    obtain ⟨s', htake⟩ := take_total h hx (htext e List.mem_cons_self)
    obtain ⟨s'', hfold⟩ := ih (take_keeps h htake) hlife
      fun e' he' => htext e' (List.mem_cons_of_mem _ he')
    refine ⟨s'', ?_⟩
    rw [List.foldlM_cons, htake]
    exact hfold

/-- A key that is nowhere else has its value. -/
theorem lookup_of_mem {β : Type} {entries : List (PyStr × β)} {p : PyStr × β}
    (hnodup : (entries.map Prod.fst).Nodup) (hp : p ∈ entries) :
    entries.lookup p.1 = some p.2 := by
  induction entries with
  | nil => exact absurd hp List.not_mem_nil
  | cons q entries ih =>
    rw [List.map_cons, List.nodup_cons] at hnodup
    rcases List.mem_cons.mp hp with heq | hmem
    · rw [← heq]
      exact List.lookup_cons_self
    · have hne : (p.1 == q.1) = false := by
        apply beq_false_of_ne
        intro heq
        exact hnodup.1 (heq ▸ List.mem_map_of_mem hmem)
      rw [List.lookup_cons, hne]
      exact ih hnodup.2 hmem

theorem mem_of_lookup {β : Type} {entries : List (PyStr × β)} {id : PyStr} {x : β}
    (h : entries.lookup id = some x) : (id, x) ∈ entries := by
  obtain ⟨front, back, heq, -⟩ := List.lookup_eq_some_iff.mp h
  rw [heq]
  exact List.mem_append_right _ List.mem_cons_self

theorem eventsOf_ne_nil {e : ItemEvent} {events : List ItemEvent} (he : e ∈ events) :
    eventsOf e.id events ≠ [] :=
  List.ne_nil_of_mem (List.mem_filter.mpr ⟨he, by simp⟩)

theorem Inspecting.Keeps.lookup_ne_none {items : List ItemEvent} {s : Inspecting}
    (h : s.Keeps items) {e : ItemEvent} (he : e ∈ items) :
    ∃ x, s.itemStates.lookup e.id = some x := by
  have hholds := h.holds e.id
  cases hlookup : s.itemStates.lookup e.id with
  | none =>
    rw [hlookup] at hholds
    exact absurd hholds (eventsOf_ne_nil he)
  | some x => exact ⟨x, rfl⟩

/-- The checks after the loop. -/
def Inspecting.Settled (s : Inspecting) : Prop :=
  s.agentMessages = 1 ∧ s.itemStates ≠ [] ∧ ∀ p ∈ s.itemStates, p.2.2 = .completed

theorem settled_iff {items : List ItemEvent} {s : Inspecting} (h : s.Keeps items) {text : PyStr} :
    s.Settled ∧ s.agentMessage = text ↔ Items items text := by
  obtain ⟨texts, hmessages, hcount, hlast⟩ := h.messages
  constructor
  · intro hsettled
    obtain ⟨⟨hone, -, hcompleted⟩, htext⟩ := hsettled
    constructor
    · intro e he
      have hholds := h.holds e.id
      obtain ⟨⟨type, phase⟩, hlookup⟩ := h.lookup_ne_none he
      have hphase : phase = .completed := hcompleted _ (mem_of_lookup hlookup)
      rw [hlookup, hphase] at hholds
      exact ⟨type, hholds⟩
    · rw [hcount] at hone
      obtain ⟨text', rfl⟩ := List.length_eq_one_iff.mp hone
      rw [hmessages, ← htext, hlast]
      rfl
  · intro hitems
    have hone : texts = [text] := by
      have hmap := hmessages.symm.trans hitems.message
      have hsingle : texts.map some = [text].map some := hmap
      exact (List.map_inj_right fun _ _ => Option.some.inj).mp hsingle
    rw [hone] at hcount hlast
    refine ⟨⟨hcount, ?_, ?_⟩, hlast⟩
    · intro hempty
      have hne : EventLog.messages items ≠ [] := by
        rw [hitems.message]
        exact List.cons_ne_nil _ _
      unfold EventLog.messages at hne
      obtain ⟨e, he⟩ := List.exists_mem_of_ne_nil _ fun hnil =>
        hne (congrArg (List.map ItemEvent.text) hnil)
      obtain ⟨x, hlookup⟩ := h.lookup_ne_none (List.mem_filter.mp he).1
      rw [hempty] at hlookup
      cases hlookup
    · intro p hp
      have hholds := h.holds p.1
      rw [lookup_of_mem h.nodup hp] at hholds
      have hne : eventsOf p.1 items ≠ [] := by
        intro hnil
        rw [hnil] at hholds
        exact Option.some_ne_none _ (hholds.unique (y := none) rfl)
      obtain ⟨e, he⟩ := List.exists_mem_of_ne_nil _ hne
      obtain ⟨hmem, hid⟩ := List.mem_filter.mp he
      obtain ⟨type, hcompleted⟩ := hitems.lifecycle e hmem
      rw [of_decide_eq_true hid] at hcompleted
      have heq := hholds.unique (y := some (type, .completed)) hcompleted
      rw [Option.some.inj heq]

/-- The loop and the checks after it accept the grammar. -/
theorem inspectItems_iff {events : List Fields} {text : PyStr} :
    (∃ s, inspectItems .start events = .ok s ∧ s.Settled ∧ s.agentMessage = text) ↔
      ∃ items, List.Forall₂ IsItemEvent events items ∧ Items items text := by
  constructor
  · intro h
    obtain ⟨s, hs, hsettled⟩ := h
    obtain ⟨items, hevents, hfold⟩ := inspectItems_eq_ok.mp hs
    have hkeeps := takes_keep keeps_start hfold
    exact ⟨items, hevents, (settled_iff hkeeps).mp hsettled⟩
  · intro h
    obtain ⟨items, hevents, hitems⟩ := h
    have htext : ∀ e ∈ items, HasText e := by
      intro e he hkind htype
      have hmem : e.text ∈ messages items :=
        List.mem_map_of_mem (List.mem_filter.mpr ⟨he, by simp [hkind, htype]⟩)
      rw [hitems.message, List.mem_singleton] at hmem
      rw [hmem]
      rfl
    obtain ⟨s, hfold⟩ := takes_total keeps_start (fun e he => hitems.lifecycle e he) htext
    exact ⟨s, inspectItems_eq_ok.mpr ⟨items, hevents, hfold⟩,
      (settled_iff (takes_keep keeps_start hfold)).mpr hitems⟩

/-! ## The lines -/

theorem decodeEvent_eq_ok {decoder : Decoder} {line : PyStr} {fields event : Fields}
    (h : decoder.IsText line fields) : decodeEvent decoder line = .ok event ↔
      event = fields ∧ (asStr (get fields "type")).isSome := by
  unfold decodeEvent
  rw [decoder.loads_text h]
  by_cases htype : (asStr (get fields "type")).isSome
  · simp [htype, eq_comm]
  · simp [htype]

theorem mapM_decodeEvent {decoder : Decoder} {log : List (PyStr × Fields)}
    (h : ∀ p ∈ log, decoder.IsText p.1 p.2) {events : List Fields} :
    (log.map Prod.fst).mapM (decodeEvent decoder) = .ok events ↔
      events = log.map Prod.snd ∧ ∀ p ∈ log, (asStr (get p.2 "type")).isSome := by
  rw [Result.mapM_eq_ok_iff]
  induction log generalizing events with
  | nil =>
    constructor
    · intro hevents
      cases hevents
      exact ⟨rfl, List.forall_mem_nil _⟩
    · intro hevents
      rw [hevents.1]
      exact .nil
  | cons p log ih =>
    have hrest : ∀ q ∈ log, decoder.IsText q.1 q.2 := fun q hq => h q (List.mem_cons_of_mem _ hq)
    have hfirst := h p List.mem_cons_self
    constructor
    · intro hevents
      cases hevents with
      | cons hevent hevents =>
        obtain ⟨rfl, htype⟩ := (decodeEvent_eq_ok hfirst).mp hevent
        obtain ⟨rfl, htypes⟩ := (ih hrest).mp hevents
        exact ⟨rfl, List.forall_mem_cons.mpr ⟨htype, htypes⟩⟩
    · intro hevents
      obtain ⟨rfl, htypes⟩ := hevents
      obtain ⟨htype, htypes⟩ := List.forall_mem_cons.mp htypes
      exact .cons ((decodeEvent_eq_ok hfirst).mpr ⟨rfl, htype⟩) ((ih hrest).mpr ⟨rfl, htypes⟩)

/-- The events around the items. -/
theorem framed_iff {events : List Fields} (h : 3 ≤ events.length) :
    framed events = true ↔ ∃ first second last,
      events = first :: second :: (events.drop 2).dropLast ++ [last] ∧
      get first "type" = some (.str (PyStr.ofString "thread.started")) ∧
      get second "type" = some (.str (PyStr.ofString "turn.started")) ∧
      get last "type" = some (.str (PyStr.ofString "turn.completed")) := by
  obtain ⟨first, events, rfl⟩ := List.exists_cons_of_length_pos (by omega : 0 < events.length)
  rw [List.length_cons] at h
  obtain ⟨second, rest, rfl⟩ := List.exists_cons_of_length_pos (by omega : 0 < events.length)
  rw [List.length_cons] at h
  obtain ⟨middle, last, rfl⟩ : ∃ middle last, rest = middle ++ [last] := by
    rcases List.eq_nil_or_concat rest with hnil | ⟨middle, last, hconcat⟩
    · rw [hnil, List.length_nil] at h
      omega
    · exact ⟨middle, last, by rw [hconcat, List.concat_eq_append]⟩
  have hlast : (first :: second :: (middle ++ [last])).getLast? = some last := by
    rw [← List.cons_append, ← List.cons_append, List.getLast?_append]
    rfl
  unfold framed
  rw [hlast]
  simp only [List.getElem?_cons_zero, List.getElem?_cons_succ, Option.bind_some,
    Bool.and_eq_true, beq_iff_eq, asStr_eq_some, List.drop_succ_cons, List.drop_zero,
    List.dropLast_concat]
  constructor
  · intro hframe
    exact ⟨first, second, last, rfl, hframe.1.1, hframe.1.2, hframe.2⟩
  · intro hframe
    obtain ⟨first', second', last', heq, hfirst, hsecond, hturn⟩ := hframe
    rw [List.cons_append, List.cons_append, List.cons.injEq, List.cons.injEq] at heq
    obtain ⟨rfl, rfl, heq⟩ := heq
    cases List.append_cancel_left heq
    exact ⟨⟨hfirst, hsecond⟩, hturn⟩

/-- The grammar of a log in terms of the loop. -/
theorem grammar_iff {events : List Fields} {text : PyStr} :
    Grammar events text ↔ 4 ≤ events.length ∧ framed events = true ∧
      ∃ items, List.Forall₂ IsItemEvent (events.drop 2).dropLast items ∧ Items items text := by
  constructor
  · intro h
    obtain ⟨first, second, middle, last, items, heq, hfirst, hsecond, hlast, hitems, htext⟩ := h
    have hmiddle : (events.drop 2).dropLast = middle := by
      rw [heq]
      simp
    have hne : items ≠ [] := by
      intro hnil
      rw [hnil] at htext
      cases htext.message
    have hlength : 0 < middle.length := by
      rw [hitems.length_eq]
      exact List.length_pos_iff.mpr hne
    have hfour : 4 ≤ events.length := by
      rw [heq]
      simp only [List.cons_append, List.length_cons, List.length_append, List.length_nil]
      omega
    refine ⟨hfour, (framed_iff (by omega)).mpr ⟨first, second, last, ?_, hfirst, hsecond, hlast⟩,
      items, ?_, htext⟩
    · rw [hmiddle]
      exact heq
    · rw [hmiddle]
      exact hitems
  · intro h
    obtain ⟨hfour, hframed, items, hitems, htext⟩ := h
    obtain ⟨first, second, last, heq, hfirst, hsecond, hlast⟩ :=
      (framed_iff (by omega)).mp hframed
    exact ⟨first, second, _, last, items, heq, hfirst, hsecond, hlast, hitems, htext⟩

theorem typed_of_grammar {events : List Fields} {text : PyStr} (h : Grammar events text) :
    ∀ event ∈ events, (asStr (get event "type")).isSome := by
  obtain ⟨first, second, middle, last, items, rfl, hfirst, hsecond, hlast, hitems, -⟩ := h
  have hmiddle : ∀ event ∈ middle, (asStr (get event "type")).isSome := by
    intro event hevent
    obtain ⟨e, -, he⟩ := Result.exists_of_mem_left hitems hevent
    rw [asStr_eq_some.mpr he.1]
    rfl
  intro event hevent
  simp only [List.cons_append, List.mem_cons, List.mem_append, List.not_mem_nil, or_false] at hevent
  rcases hevent with rfl | rfl | hmem | rfl
  · rw [asStr_eq_some.mpr hfirst]
    rfl
  · rw [asStr_eq_some.mpr hsecond]
    rfl
  · exact hmiddle event hmem
  · rw [asStr_eq_some.mpr hlast]
    rfl

theorem isBlank_of_text {decoder : Decoder} {text : PyStr} {fields : Fields}
    (h : decoder.IsText text fields) : PyStr.isBlank text = false := by
  apply Bool.eq_false_iff.mpr
  intro hblank
  exact absurd (List.all_eq_true.mp hblank 123 (decoder.brace h)) (by decide)

/-- Where the lines are the texts of the events, the inspection follows the grammar. -/
theorem inspectEventLog_lines {decoder : Decoder} {log : List (PyStr × Fields)} {text : PyStr}
    (htexts : ∀ p ∈ log, decoder.IsText p.1 p.2)
    (hlines : PyStr.splitlines text = log.map Prod.fst) {r : Summary} :
    inspectEventLog decoder text = .ok r ↔
      ∃ message, Grammar (log.map Prod.snd) message ∧ r = ⟨log.length, 1, message⟩ := by
  have hblank : ((log.map Prod.fst).any PyStr.isBlank) = false := by
    apply Bool.eq_false_iff.mpr
    intro hany
    obtain ⟨line, hline, hblank⟩ := List.any_eq_true.mp hany
    obtain ⟨p, hp, rfl⟩ := List.mem_map.mp hline
    rw [isBlank_of_text (htexts p hp)] at hblank
    cases hblank
  have hsettled : ∀ s : Inspecting, ¬(s.agentMessages ≠ 1 ∨ s.itemStates = [] ∨
      (s.itemStates.any fun p => p.2.2 ≠ .completed) = true) ↔ s.Settled := by
    intro s
    simp [Inspecting.Settled, not_or]
  have htyped : (∃ message, Grammar (log.map Prod.snd) message) →
      ∀ p ∈ log, (asStr (get p.2 "type")).isSome := by
    intro h p hp
    obtain ⟨message, hgrammar⟩ := h
    exact typed_of_grammar hgrammar p.2 (List.mem_map_of_mem hp)
  unfold inspectEventLog
  rw [hlines]
  simp only [hblank]
  rw [Result.guard_eq_ok, Result.guard_eq_ok, bind_eq_ok]
  constructor
  · intro h
    obtain ⟨-, hfour, events, hevents, h⟩ := h
    obtain ⟨rfl, htypes⟩ := (mapM_decodeEvent htexts).mp hevents
    rw [Result.guard_eq_ok, bind_eq_ok] at h
    obtain ⟨hframed, s, hs, h⟩ := h
    rw [Result.guard_eq_ok, hsettled] at h
    obtain ⟨hsettled', heq⟩ := h
    cases heq
    refine ⟨s.agentMessage, grammar_iff.mpr ⟨?_, ?_, ?_⟩, ?_⟩
    · rw [List.length_map] at hfour ⊢
      omega
    · simpa using hframed
    · exact inspectItems_iff.mp ⟨s, hs, hsettled', rfl⟩
    · rw [List.length_map, hsettled'.1]
  · intro h
    obtain ⟨message, hgrammar, rfl⟩ := h
    have htypes := htyped ⟨message, hgrammar⟩
    obtain ⟨hfour, hframed, hitems⟩ := grammar_iff.mp hgrammar
    obtain ⟨s, hs, hsettled', htext⟩ := inspectItems_iff.mpr hitems
    rw [List.length_map] at hfour
    refine ⟨?_, ?_, log.map Prod.snd, (mapM_decodeEvent htexts).mpr ⟨rfl, htypes⟩, ?_⟩
    · have hne : log ≠ [] := by
        intro hnil
        rw [hnil] at hfour
        exact absurd hfour (by decide)
      simpa using hne
    · rw [List.length_map]
      omega
    · rw [Result.guard_eq_ok, bind_eq_ok]
      refine ⟨by simpa using hframed, s, hs, ?_⟩
      rw [Result.guard_eq_ok, hsettled]
      refine ⟨hsettled', ?_⟩
      rw [List.length_map, hsettled'.1, htext]
      rfl

/-- A log as it is written: each text is that of its object, without a raw line feed or
carriage return. -/
def IsLog (decoder : Decoder) (log : List (PyStr × Fields)) : Prop :=
  log ≠ [] ∧ ∀ p ∈ log, decoder.IsText p.1 p.2 ∧ 10 ∉ p.1 ∧ 13 ∉ p.1

/-- The inspection of a log accepts the grammar and nothing else, and it returns the number
of objects and the text. -/
def Exact (decoder : Decoder) (log : List (PyStr × Fields)) : Prop :=
  ∀ r, inspectEventLog decoder (PyStr.joinLines (log.map Prod.fst)) = .ok r ↔
    ∃ message, Grammar (log.map Prod.snd) message ∧ r = ⟨log.length, 1, message⟩

/-- U+0085, U+2028 or U+2029 is raw in a text. -/
def HasRawBreak (log : List (PyStr × Fields)) : Prop :=
  ∃ p ∈ log, ∃ c ∈ p.1, c ∈ ([0x85, 0x2028, 0x2029] : List CodePoint)

theorem isBreak_iff {decoder : Decoder} {text : PyStr} {fields : Fields}
    (h : decoder.IsText text fields) (hfeed : 10 ∉ text) (hreturn : 13 ∉ text) {c : CodePoint}
    (hc : c ∈ text) :
    PyStr.isBreak c = true ↔ c ∈ ([0x85, 0x2028, 0x2029] : List CodePoint) := by
  constructor
  · intro hbreak
    have hmem : c ∈ ([10, 11, 12, 13, 28, 29, 30, 0x85, 0x2028, 0x2029] : List CodePoint) :=
      of_decide_eq_true hbreak
    by_cases hcontrol : c.val < 32
    · have hblank := decoder.control h c hc hcontrol
      simp only [List.mem_cons, List.not_mem_nil, or_false] at hblank
      rcases hblank with rfl | rfl | rfl
      · exact absurd hbreak (by decide)
      · exact absurd hc hfeed
      · exact absurd hc hreturn
    · simp only [List.mem_cons, List.not_mem_nil, or_false] at hmem ⊢
      rcases hmem with rfl | rfl | rfl | rfl | rfl | rfl | rfl | hmem
      all_goals first | exact hmem | exact absurd (by decide) hcontrol
  · intro hmem
    simp only [List.mem_cons, List.not_mem_nil, or_false] at hmem
    rcases hmem with rfl | rfl | rfl <;> decide

theorem exists_first {α : Type} {p : α → Bool} {values : List α} (h : ∃ a ∈ values, p a = true) :
    ∃ front a back, values = front ++ a :: back ∧ p a = true ∧ ∀ b ∈ front, p b = false := by
  obtain ⟨a, hfind⟩ := Option.isSome_iff_exists.mp (List.find?_isSome.mpr h)
  obtain ⟨ha, front, back, heq, hfront⟩ := List.find?_eq_some_iff_append.mp hfind
  exact ⟨front, a, back, heq, ha, fun b hb => by simpa using hfront b hb⟩

/-- A raw break leaves a line that ends in a string, and the log is refused. -/
theorem inspectEventLog_rawBreak {decoder : Decoder} {log : List (PyStr × Fields)}
    (h : IsLog decoder log) (hraw : HasRawBreak log) (r : Summary) :
    inspectEventLog decoder (PyStr.joinLines (log.map Prod.fst)) ≠ .ok r := by
  have hbreaks : ∃ p ∈ log, (p.1.any PyStr.isBreak) = true := by
    obtain ⟨p, hp, c, hc, hmem⟩ := hraw
    obtain ⟨htext, hfeed, hreturn⟩ := h.2 p hp
    exact ⟨p, hp, List.any_eq_true.mpr ⟨c, hc, (isBreak_iff htext hfeed hreturn hc).mpr hmem⟩⟩
  obtain ⟨front, p, back, heq, hany, hfront⟩ := exists_first hbreaks
  obtain ⟨before, c, after, htextEq, hbreak, hbefore⟩ :=
    exists_first (List.any_eq_true.mp hany)
  obtain ⟨htext, hfeed, hreturn⟩ := h.2 p (by rw [heq]; simp)
  have hmem : c ∈ p.1 := by
    rw [htextEq]
    simp
  have hset := (isBreak_iff htext hfeed hreturn hmem).mp hbreak
  rw [htextEq] at htext
  have hcut := decoder.cut htext hset
  have hline : before ∈ PyStr.splitlines (PyStr.joinLines (log.map Prod.fst)) := by
    have hlines : log.map Prod.fst =
        front.map Prod.fst ++ (before ++ c :: after) :: back.map Prod.fst := by
      rw [heq, List.map_append, List.map_cons, htextEq]
    rw [hlines]
    apply PyStr.mem_splitlines_joinLines
    · intro line hline c' hc'
      obtain ⟨q, hq, rfl⟩ := List.mem_map.mp hline
      exact Bool.eq_false_iff.mpr fun htrue =>
        absurd (List.any_eq_true.mpr ⟨c', hc', htrue⟩) (by simp [hfront q hq])
    · exact hbefore
    · exact hbreak
    · rintro rfl
      exact hreturn hmem
  intro hok
  unfold inspectEventLog at hok
  simp only at hok
  rw [Result.guard_eq_ok, Result.guard_eq_ok, bind_eq_ok] at hok
  obtain ⟨-, -, events, hevents, -⟩ := hok
  obtain ⟨event, -, hevent⟩ := Result.exists_of_mem_left (Result.mapM_eq_ok_iff.mp hevents) hline
  unfold decodeEvent at hevent
  rw [hcut] at hevent
  cases hevent

/-- The inspection follows the grammar exactly for the logs without a raw U+0085, U+2028 or
U+2029, and for the logs that are not in the grammar. -/
theorem inspectEventLog_exact_iff (decoder : Decoder) (log : List (PyStr × Fields))
    (h : IsLog decoder log) :
    Exact decoder log ↔ ¬HasRawBreak log ∨ ¬∃ message, Grammar (log.map Prod.snd) message := by
  by_cases hraw : HasRawBreak log
  · have hrefused := inspectEventLog_rawBreak h hraw
    constructor
    · intro hexact
      refine .inr fun hgrammar => ?_
      obtain ⟨message, hgrammar⟩ := hgrammar
      exact hrefused _ ((hexact ⟨log.length, 1, message⟩).mpr ⟨message, hgrammar, rfl⟩)
    · intro hcondition
      have hnot := hcondition.resolve_left (not_not.mpr hraw)
      intro r
      refine iff_of_false (hrefused r) fun hgrammar => ?_
      obtain ⟨message, hgrammar, -⟩ := hgrammar
      exact hnot ⟨message, hgrammar⟩
  · refine iff_of_true ?_ (.inl hraw)
    have hlines : PyStr.splitlines (PyStr.joinLines (log.map Prod.fst)) = log.map Prod.fst := by
      apply PyStr.splitlines_joinLines
      intro line hline
      obtain ⟨p, hp, rfl⟩ := List.mem_map.mp hline
      obtain ⟨htext, hfeed, hreturn⟩ := h.2 p hp
      refine ⟨List.ne_nil_of_mem (decoder.brace htext), fun c hc => Bool.eq_false_iff.mpr ?_⟩
      intro hbreak
      exact hraw ⟨p, hp, c, hc, (isBreak_iff htext hfeed hreturn hc).mp hbreak⟩
    exact fun r => inspectEventLog_lines (fun p hp => (h.2 p hp).1) hlines

/-! ## A log -/

/-- The laws of the decoder, for the texts of a log and for no other. -/
def IsTable (log : List (PyStr × Fields)) : Prop :=
  (log.map Prod.fst).Nodup ∧ ∀ text ∈ log.map Prod.fst, (123 : CodePoint) ∈ text ∧
    (text.all fun c => 31 < c) = true ∧
    ∀ i ∈ List.range text.length,
      (text[i]?.any fun c => c ∈ ([0x85, 0x2028, 0x2029] : List CodePoint)) = true →
        text.take i ∉ log.map Prod.fst

instance (log : List (PyStr × Fields)) : Decidable (IsTable log) := by
  unfold IsTable
  infer_instance

/-- The decoder on the texts of a log. -/
def tableLoads (log : List (PyStr × Fields)) (text : PyStr) : Option PyJson :=
  (log.lookup text).map .dict

theorem tableLoads_text {log : List (PyStr × Fields)} (h : IsTable log) {text : PyStr}
    {fields : Fields} (hmem : (text, fields) ∈ log) : tableLoads log text = some (.dict fields) := by
  unfold tableLoads
  rw [lookup_of_mem h.1 hmem]
  rfl

theorem tableLoads_control {log : List (PyStr × Fields)} (h : IsTable log) {text : PyStr}
    {fields : Fields} (hmem : (text, fields) ∈ log) :
    ∀ c ∈ text, c.val < 32 → c ∈ ([9, 10, 13] : List CodePoint) := by
  intro c hc hcontrol
  have hall := List.all_eq_true.mp (h.2 text (List.mem_map_of_mem hmem)).2.1 c hc
  have hlarge : 31 < c.val := of_decide_eq_true hall
  omega

theorem tableLoads_brace {log : List (PyStr × Fields)} (h : IsTable log) {text : PyStr}
    {fields : Fields} (hmem : (text, fields) ∈ log) : (123 : CodePoint) ∈ text :=
  (h.2 text (List.mem_map_of_mem hmem)).1

theorem tableLoads_cut {log : List (PyStr × Fields)} (h : IsTable log) {before after : PyStr}
    {c : CodePoint} {fields : Fields} (hmem : (before ++ c :: after, fields) ∈ log)
    (hc : c ∈ ([0x85, 0x2028, 0x2029] : List CodePoint)) : tableLoads log before = none := by
  have hcut := (h.2 _ (List.mem_map_of_mem hmem)).2.2 before.length
    (List.mem_range.mpr (by simp))
  have hnot := hcut (by simpa using hc)
  rw [List.take_left] at hnot
  unfold tableLoads
  rw [List.lookup_eq_none_iff.mpr, Option.map_none]
  intro p hp
  apply bne_iff_ne.mpr
  intro heq
  exact hnot (heq ▸ List.mem_map_of_mem hp)

def tableDecoder (log : List (PyStr × Fields)) (h : IsTable log) : Decoder where
  loads := tableLoads log
  IsText text fields := (text, fields) ∈ log
  loads_text := tableLoads_text h
  brace hmem := tableLoads_brace h hmem
  control hmem := tableLoads_control h hmem
  cut := tableLoads_cut h

/-- An agent message of one code point. -/
def messageLog (c : CodePoint) : List (PyStr × Fields) :=
  let event := fun type rest => (PyStr.ofString "type", PyJson.str (PyStr.ofString type)) :: rest
  [(PyStr.ofString "\x7b\"type\":\"thread.started\"\x7d", event "thread.started" []),
    (PyStr.ofString "\x7b\"type\":\"turn.started\"\x7d", event "turn.started" []),
    (PyStr.ofString "\x7b\"type\":\"item.completed\",\"item\":\x7b\"id\":\"a\"," ++
        PyStr.ofString "\"type\":\"agent_message\",\"text\":\"" ++ c ::
        PyStr.ofString "\"\x7d\x7d",
      event "item.completed" [(PyStr.ofString "item", .dict [(PyStr.ofString "id", .str [97]),
        (PyStr.ofString "type", .str (PyStr.ofString "agent_message")),
        (PyStr.ofString "text", .str [c])])]),
    (PyStr.ofString "\x7b\"type\":\"turn.completed\"\x7d", event "turn.completed" [])]

theorem isTable_nextLine : IsTable (messageLog 0x85) := by
  decide +kernel

theorem isTable_letter : IsTable (messageLog 97) := by
  decide +kernel

theorem grammar_messageLog (c : CodePoint) : Grammar ((messageLog c).map Prod.snd) [c] := by
  have hitems : Items [⟨.completed, [97], .agentMessage, some [c]⟩] [c] := by
    refine ⟨fun e he => ⟨.agentMessage, [], e, ?_, .inl rfl, ?_⟩, rfl⟩
    · rw [List.mem_singleton.mp he]
      rfl
    · rw [List.mem_singleton.mp he]
      exact ⟨rfl, rfl⟩
  refine ⟨_, _, [_], _, _, rfl, rfl, rfl, rfl, .cons ?_ .nil, hitems⟩
  exact ⟨rfl, _, rfl, rfl, List.cons_ne_nil _ _, rfl, rfl⟩

theorem isLog_tableDecoder {log : List (PyStr × Fields)} (h : IsTable log) (hne : log ≠ []) :
    IsLog (tableDecoder log h) log := by
  refine ⟨hne, fun p hp => ⟨hp, ?_⟩⟩
  have hcontrol : ∀ c ∈ p.1, 31 < c.val := fun c hc =>
    of_decide_eq_true (List.all_eq_true.mp (h.2 p.1 (List.mem_map_of_mem hp)).2.1 c hc)
  exact ⟨fun hmem => absurd (hcontrol 10 hmem) (by decide),
    fun hmem => absurd (hcontrol 13 hmem) (by decide)⟩

/-- A log without a raw break, where both sides hold. -/
theorem inspectEventLog_exact_letter :
    Exact (tableDecoder (messageLog 97) isTable_letter) (messageLog 97) ↔
      ¬HasRawBreak (messageLog 97) ∨
        ¬∃ message, Grammar ((messageLog 97).map Prod.snd) message :=
  inspectEventLog_exact_iff _ _ (isLog_tableDecoder isTable_letter (List.cons_ne_nil _ _))

/-- An agent message of a raw U+0085 is in the grammar and is refused. -/
theorem message_of_nextLine_refused :
    ¬∀ (decoder : Decoder) (log : List (PyStr × Fields)), IsLog decoder log →
      Exact decoder log := by
  intro h
  have hlog := isLog_tableDecoder isTable_nextLine (List.cons_ne_nil _ _)
  have hraw : HasRawBreak (messageLog 0x85) := by
    refine ⟨_, List.mem_cons_of_mem _ (List.mem_cons_of_mem _ List.mem_cons_self), 0x85, ?_,
      List.mem_cons_self⟩
    exact List.mem_append_right _ List.mem_cons_self
  exact inspectEventLog_rawBreak hlog hraw _
    ((h _ _ hlog _).mpr ⟨_, grammar_messageLog 0x85, rfl⟩)

end SteamAgent.Evals.EventLog
