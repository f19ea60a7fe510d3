import SteamAgent.Storage.Feedback

/-!
# Feedback is the fold of its log

The three projections of feedback as folds of the two logs, and the proof that
the methods, which maintain them by hand, keep them equal to the folds.

There are five groups.

* The folds, and what an event is about.
* `Inv`, and the tables after one event.
* One lemma for each method: it keeps `Inv` and appends the events of its
  changes only.
* What the listings report.
* The histories of calls and the main result.

Between two changes of one call a row may have no value left while it still
exists, so the loop keeps `Inv` of the database without that row.
-/

namespace SteamAgent.Storage.Feedback

open Logs

/-! ## The folds -/

/-- The value that an event carries. -/
def FeedbackEvent.value (e : FeedbackEvent) : Value :=
  match e.valueText, e.valueInteger with
  | some s, _ => .text s
  | none, some n => .integer n
  | none, none => .null

/-- The row, if a field is left. -/
def FeedbackRow.settled (row : FeedbackRow) : Option FeedbackRow :=
  if row.columns = .blank then none else some row

/-- The columns of a row, all clear if there is none. -/
def columnsOf (row : Option FeedbackRow) : Columns :=
  (row.map FeedbackRow.columns).getD .blank

/-- The fold for `explicit_feedback_current`. -/
def fieldProjection : Projection FeedbackEvent (Nat × Int) FeedbackRow where
  key e := match e.eventKind with
    | .field _ => some (e.accountId, e.appid)
    | .trait => none
  next row e := match e.event.eventKind with
    | .field f =>
      FeedbackRow.settled ⟨(columnsOf row).set e.event.value f, e.event.recordedAt, e.id⟩
    | .trait => row

/-- The fold for `explicit_trait_current`. -/
def traitProjection : Projection FeedbackEvent (Nat × Int × String) TraitRow where
  key e := match e.eventKind with
    | .field _ => none
    | .trait => some (e.accountId, e.appid, e.trait.getD "")
  next _ e := e.event.valueText.map fun value => ⟨value, e.event.recordedAt, e.id⟩

/-- The fold for `preference_rules_current`. -/
def ruleProjection : Projection RuleEvent (Nat × String) RuleRow where
  key e := some (e.accountId, e.trait)
  next _ e := e.event.rule.map fun rule => ⟨rule, e.event.recordedAt, e.id⟩

/-- What has a value of its own. -/
inductive Subject where
  | field (accountId : Nat) (appid : Int) (f : Field)
  | trait (accountId : Nat) (appid : Int) (trait : String)
  | rule (accountId : Nat) (trait : String)
deriving DecidableEq

/-- A value of a subject. -/
inductive Content where
  | field (value : Value)
  | trait (value : Option String)
  | rule (rule : Option (String × String × Int))
deriving DecidableEq

def FeedbackEvent.subject (e : FeedbackEvent) : Subject :=
  match e.eventKind with
  | .field f => .field e.accountId e.appid f
  | .trait => .trait e.accountId e.appid (e.trait.getD "")

def FeedbackEvent.content (e : FeedbackEvent) : Content :=
  match e.eventKind with
  | .field _ => .field e.value
  | .trait => .trait e.valueText

def RuleEvent.subject (e : RuleEvent) : Subject :=
  .rule e.accountId e.trait

/-- The value that the tables hold. -/
def FeedbackDb.projected (db : FeedbackDb) : Subject → Content
  | .field accountId appid f => .field ((columnsOf (db.current.lookup (accountId, appid))).get f)
  | .trait accountId appid trait =>
    .trait ((db.traits.lookup (accountId, appid, trait)).map TraitRow.value)
  | .rule accountId trait => .rule ((db.rules.lookup (accountId, trait)).map RuleRow.rule)

/-- The ids of the events about a subject, with what they carry. -/
def FeedbackDb.history (db : FeedbackDb) (s : Subject) : List (Nat × Content) :=
  (db.events.entries.filter fun e => e.event.subject = s).map (fun e => (e.id, e.event.content)) ++
    (db.ruleEvents.entries.filter fun e => e.event.subject = s).map
      fun e => (e.id, .rule e.event.rule)

/-! ## Columns -/

theorem Columns.get_set_self (c : Columns) (v : Value) (f : Field) : (c.set v f).get f = v := by
  cases f <;> rfl

theorem Columns.get_set_ne (c : Columns) (v : Value) {f g : Field} (h : g ≠ f) :
    (c.set v f).get g = c.get g := by
  cases f <;> cases g <;> first | rfl | exact absurd rfl h

theorem Columns.get_blank (f : Field) : Columns.blank.get f = .null := by
  cases f <;> rfl

theorem columnsOf_settled (row : FeedbackRow) : columnsOf row.settled = row.columns := by
  unfold FeedbackRow.settled
  split
  · rename_i h
    rw [h]
    rfl
  · rfl

theorem columnsOf_bind_settled (row : Option FeedbackRow) :
    columnsOf (row.bind FeedbackRow.settled) = columnsOf row := by
  cases row with
  | none => rfl
  | some row => exact columnsOf_settled row

/-! ## The invariant -/

/-- The tables are the folds of the logs. -/
structure Inv (db : FeedbackDb) : Prop where
  current : db.current = fieldProjection.replay db.events.entries
  traits : db.traits = traitProjection.replay db.events.entries
  rules : db.rules = ruleProjection.replay db.ruleEvents.entries
  plain : ∀ e ∈ db.events.entries, e.event.eventKind ≠ .trait → e.event.trait = none

theorem inv_empty (accounts : List Account) (steamApps identities : List Int) :
    Inv (.empty accounts steamApps identities) :=
  ⟨rfl, rfl, rfl, fun e he => by simp [FeedbackDb.empty, Log.empty] at he⟩

/-- A folded row has a field. -/
theorem replay_settled (l : List (Entry FeedbackEvent)) (k : Nat × Int) :
    ((fieldProjection.replay l).lookup k).bind FeedbackRow.settled
      = (fieldProjection.replay l).lookup k := by
  induction l using List.reverseRecOn with
  | nil => rfl
  | append_singleton l e ih =>
    rw [Projection.replay_concat, Projection.lookup_step]
    split
    · simp only [fieldProjection]
      split
      · unfold FeedbackRow.settled
        split
        · rfl
        · rename_i h
          rw [Option.bind_some, if_neg h]
      · exact ih
    · exact ih

/-- The table without the row of a key, if no field is left in it. -/
def settleRow (t : Table (Nat × Int) FeedbackRow) (k : Nat × Int) : Table (Nat × Int) FeedbackRow :=
  t.put k ((t.lookup k).bind FeedbackRow.settled)

theorem removeEmptyFeedbackCurrent_eq (db : FeedbackDb) (accountId : Nat) (appid : Int) :
    db.removeEmptyFeedbackCurrent accountId appid
      = { db with current := settleRow db.current (accountId, appid) } := by
  unfold FeedbackDb.removeEmptyFeedbackCurrent settleRow
  cases h : db.current.lookup (accountId, appid) with
  | none =>
    rw [Option.bind_none, Table.put_lookup _ h]
  | some row =>
    rw [Option.bind_some, FeedbackRow.settled]
    dsimp only
    split
    · rfl
    · rw [Table.put_lookup _ h]

/-- There is no empty row to remove. -/
theorem Inv.removeEmpty {db : FeedbackDb} (h : Inv db) (accountId : Nat) (appid : Int) :
    db.removeEmptyFeedbackCurrent accountId appid = db := by
  rw [removeEmptyFeedbackCurrent_eq, settleRow, h.current, replay_settled,
    Table.put_lookup _ rfl, ← h.current]

/-- Other tables do not matter. -/
theorem Inv.congr {db db' : FeedbackDb} (h : Inv db) (hevents : db'.events = db.events)
    (hcurrent : db'.current = db.current) (htraits : db'.traits = db.traits)
    (hruleEvents : db'.ruleEvents = db.ruleEvents) (hrules : db'.rules = db.rules) : Inv db' := by
  refine ⟨?_, ?_, ?_, ?_⟩
  · rw [hcurrent, hevents]
    exact h.current
  · rw [htraits, hevents]
    exact h.traits
  · rw [hrules, hruleEvents]
    exact h.rules
  · rw [hevents]
    exact h.plain

/-! ## One event -/

theorem ensureSteamApplicationIdentity_ok {db db' : FeedbackDb} {appid : Int}
    (h : db.ensureSteamApplicationIdentity appid = .ok db') :
    ∃ steamApps identities, db' = { db with steamApps := steamApps, identities := identities } := by
  unfold FeedbackDb.ensureSteamApplicationIdentity at h
  obtain ⟨_, _, h⟩ := bind_eq_ok.mp h
  dsimp only at h
  split at h
  · exact ⟨_, _, (Except.ok.inj h).symm⟩
  · obtain ⟨_, _, h⟩ := bind_eq_ok.mp h
    exact ⟨_, _, (Except.ok.inj h).symm⟩

theorem unchanged_iff {existing : Option FeedbackRow} {f : Field} {v : Value} :
    unchanged existing f v = true ↔ (columnsOf existing).get f = v := by
  cases existing with
  | none =>
    rw [columnsOf, Option.map_none, Option.getD_none, Columns.get_blank]
    simp [unchanged, eq_comm]
  | some row => simp [unchanged, columnsOf]

theorem writeField_eq (existing : Option FeedbackRow) (f : Field) (v : Value) (timestamp : String)
    (id : Nat) :
    writeField existing f v timestamp id = ⟨(columnsOf existing).set v f, timestamp, id⟩ := by
  cases existing <;> rfl

/-- The value is one that an event can carry. -/
def Value.carried : Value → Bool
  | .boolean _ => false
  | _ => true

theorem value_changeEvent {v : Value} (hv : v.carried = true) (accountId : Nat) (appid : Int)
    (f : Field) (timestamp : String) : (changeEvent accountId appid f v timestamp).value = v := by
  cases v <;> first | rfl | exact absurd hv (by simp [Value.carried])

/-- The database after the change of one field. -/
def FeedbackDb.withField (db : FeedbackDb) (accountId : Nat) (appid : Int) (f : Field) (v : Value)
    (timestamp : String) : FeedbackDb :=
  { db with
    events := db.events.append (changeEvent accountId appid f v timestamp)
    current := db.current.put (accountId, appid) (some
      (writeField (db.current.lookup (accountId, appid)) f v timestamp (db.events.last + 1))) }

/-- The database without the row of an app, if no field is left in it. -/
def FeedbackDb.settled (db : FeedbackDb) (accountId : Nat) (appid : Int) : FeedbackDb :=
  { db with current := settleRow db.current (accountId, appid) }

/-- A changed field, and the fold of its event. -/
theorem Inv.withField {db : FeedbackDb} {accountId : Nat} {appid : Int}
    (h : Inv (db.settled accountId appid)) {v : Value} (hv : v.carried = true) (f : Field)
    (timestamp : String) :
    Inv ((db.withField accountId appid f v timestamp).settled accountId appid) := by
  have hcurrent : settleRow db.current (accountId, appid)
      = fieldProjection.replay db.events.entries := h.current
  refine ⟨?_, ?_, h.rules, ?_⟩
  · change settleRow (Table.put db.current (accountId, appid) _) (accountId, appid)
      = fieldProjection.replay (db.events.entries ++ [_])
    rw [Projection.replay_concat, Projection.step_of_key _ (k := (accountId, appid)) rfl, ← hcurrent,
      settleRow, settleRow, Table.put_put, Table.put_put, Table.lookup_put_self,
      Table.lookup_put_self, Option.bind_some, writeField_eq]
    simp only [fieldProjection, Log.next, changeEvent]
    rw [columnsOf_bind_settled]
    have hvalue := value_changeEvent hv accountId appid f timestamp
    simp only [changeEvent] at hvalue
    rw [hvalue]
  · change db.traits = traitProjection.replay (db.events.entries ++ [_])
    rw [Projection.replay_concat, Projection.step_of_no_key _ rfl]
    exact h.traits
  · intro e he hkind
    rcases List.mem_append.mp he with he | he
    · exact h.plain e he hkind
    · rw [List.mem_singleton.mp he]
      rfl

/-- A trait event with the row that it leaves. -/
theorem Inv.withTrait {db : FeedbackDb} (h : Inv db) (accountId : Nat) (appid : Int) (trait : String)
    (value : Option String) (timestamp : String) :
    Inv { db with
      events := db.events.append (traitEvent accountId appid trait value timestamp)
      traits := db.traits.put (accountId, appid, trait)
        (value.map fun value => ⟨value, timestamp, db.events.last + 1⟩) } := by
  refine ⟨?_, ?_, h.rules, ?_⟩
  · change db.current = fieldProjection.replay (db.events.entries ++ [_])
    rw [Projection.replay_concat, Projection.step_of_no_key _ rfl]
    exact h.current
  · change Table.put db.traits _ _ = traitProjection.replay (db.events.entries ++ [_])
    rw [Projection.replay_concat,
      Projection.step_of_key _ (k := (accountId, appid, trait)) rfl, ← h.traits]
    rfl
  · intro e he hkind
    rcases List.mem_append.mp he with he | he
    · exact h.plain e he hkind
    · rw [List.mem_singleton.mp he] at hkind
      exact absurd rfl hkind

/-- A rule event with the row that it leaves. -/
theorem Inv.withRule {db : FeedbackDb} (h : Inv db) (accountId : Nat) (trait : String)
    (rule : Option (String × String × Int)) (timestamp : String) :
    Inv { db with
      ruleEvents := db.ruleEvents.append ⟨accountId, trait, rule, timestamp⟩
      rules := db.rules.put (accountId, trait)
        (rule.map fun rule => ⟨rule, timestamp, db.ruleEvents.last + 1⟩) } := by
  refine ⟨h.current, h.traits, ?_, h.plain⟩
  change Table.put db.rules _ _ = ruleProjection.replay (db.ruleEvents.entries ++ [_])
  rw [Projection.replay_concat, Projection.step_of_key _ (k := (accountId, trait)) rfl, ← h.rules]
  rfl

/-! ## Methods -/

/-- A subject is wanted with another value than the projected one. -/
def FeedbackDb.Differs (db : FeedbackDb) (wanted : List (Subject × Content)) (s : Subject) : Prop :=
  ∃ content, (s, content) ∈ wanted ∧ db.projected s ≠ content

/-- The events that a call with the wanted values appends are about subjects whose
projected value is another one. -/
structure Appends (wanted : List (Subject × Content)) (db db' : FeedbackDb) : Prop where
  events : ∃ new, db'.events.entries = db.events.entries ++ new ∧
    ∀ e ∈ new, db.Differs wanted e.event.subject
  rules : ∃ new, db'.ruleEvents.entries = db.ruleEvents.entries ++ new ∧
    ∀ e ∈ new, db.Differs wanted e.event.subject

theorem Appends.none {wanted : List (Subject × Content)} {db db' : FeedbackDb}
    (hevents : db'.events = db.events) (hrules : db'.ruleEvents = db.ruleEvents) :
    Appends wanted db db' :=
  ⟨⟨[], by rw [hevents, List.append_nil], fun e he => by simp at he⟩,
    ⟨[], by rw [hrules, List.append_nil], fun e he => by simp at he⟩⟩

/-- Events after one more event, about wanted subjects that the event has not
changed. -/
theorem Appends.cons {wanted : List (Subject × Content)} {w : Subject × Content}
    {db db₁ db' : FeedbackDb} (h : Appends wanted db₁ db')
    (hsame : ∀ s content, (s, content) ∈ wanted → db₁.projected s = db.projected s)
    (hrules : db₁.ruleEvents = db.ruleEvents)
    (hevents : ∃ new, db₁.events.entries = db.events.entries ++ new ∧
      ∀ e ∈ new, db.Differs (w :: wanted) e.event.subject) : Appends (w :: wanted) db db' := by
  have hdiffers : ∀ s, db₁.Differs wanted s → db.Differs (w :: wanted) s := by
    intro s hs
    obtain ⟨content, hmem, hne⟩ := hs
    rw [hsame s content hmem] at hne
    exact ⟨content, List.mem_cons_of_mem _ hmem, hne⟩
  obtain ⟨⟨new, hnew, habout⟩, ⟨newRules, hnewRules, haboutRules⟩⟩ := h
  obtain ⟨first, hfirst, haboutFirst⟩ := hevents
  refine ⟨⟨first ++ new, ?_, fun e he => ?_⟩, ⟨newRules, ?_, fun e he => ?_⟩⟩
  · rw [hnew, hfirst, List.append_assoc]
  · rcases List.mem_append.mp he with he | he
    · exact haboutFirst e he
    · exact hdiffers _ (habout e he)
  · rw [hnewRules, hrules]
  · exact hdiffers _ (haboutRules e he)

theorem userTrait_ok {value value' : String} (h : userTrait value = .ok value') : value = value' := by
  unfold userTrait at h
  obtain ⟨_, _, h⟩ := bind_eq_ok.mp h
  obtain ⟨_, _, h⟩ := bind_eq_ok.mp h
  obtain ⟨_, _, h⟩ := bind_eq_ok.mp h
  obtain ⟨_, _, h⟩ := bind_eq_ok.mp h
  obtain ⟨_, _, h⟩ := bind_eq_ok.mp h
  exact Except.ok.inj h

/-- What the changes of fields want. -/
def wantedFields (accountId : Nat) (appid : Int) (changes : List (Field × Value)) :
    List (Subject × Content) :=
  changes.map fun c => (.field accountId appid c.1, .field c.2)

theorem applyChange_ok {accountId : Nat} {appid : Int} {timestamp : String} {ensured ensured' : Bool}
    {db db' : FeedbackDb} {f : Field} {v : Value} {output : FeedbackChange}
    (h : applyChange accountId appid timestamp ensured db (f, v) = .ok (output, ensured', db')) :
    db.projected (.field accountId appid f) = .field v ∧ db' = db ∨
    db.projected (.field accountId appid f) ≠ .field v ∧ ∃ steamApps identities,
      db' = { db.withField accountId appid f v timestamp with
        steamApps := steamApps, identities := identities } := by
  unfold applyChange at h
  dsimp only at h
  split at h
  · rename_i hsame
    obtain ⟨_, _, rfl⟩ := Except.ok.inj h
    exact Or.inl ⟨congrArg Content.field (unchanged_iff.mp hsame), rfl⟩
  · rename_i hdiffers
    refine Or.inr ⟨fun heq => hdiffers (unchanged_iff.mpr (Content.field.inj heq)), ?_⟩
    obtain ⟨db₁, hdb₁, h⟩ := bind_eq_ok.mp h
    obtain ⟨_, _, rfl⟩ := Except.ok.inj h
    have hensured : ∃ steamApps identities,
        db₁ = { db with steamApps := steamApps, identities := identities } := by
      unfold FeedbackDb.ensureOnce at hdb₁
      split at hdb₁
      · obtain rfl := Except.ok.inj hdb₁
        exact ⟨db.steamApps, db.identities, rfl⟩
      · exact ensureSteamApplicationIdentity_ok hdb₁
    obtain ⟨steamApps, identities, rfl⟩ := hensured
    exact ⟨steamApps, identities, rfl⟩

/-- Other fields of the app keep their values. -/
theorem projected_withField {db : FeedbackDb} {accountId : Nat} {appid : Int} {f g : Field}
    (h : g ≠ f) (v : Value) (timestamp : String) (steamApps identities : List Int) :
    FeedbackDb.projected { db.withField accountId appid f v timestamp with
      steamApps := steamApps, identities := identities } (.field accountId appid g)
      = db.projected (.field accountId appid g) := by
  simp only [FeedbackDb.projected, FeedbackDb.withField, Table.lookup_put_self, writeField_eq]
  exact congrArg Content.field (Columns.get_set_ne _ v h)

theorem applyChanges_ok {accountId : Nat} {appid : Int} {timestamp : String}
    {changes : List (Field × Value)} (hcarried : ∀ c ∈ changes, c.2.carried = true)
    (hnodup : (changes.map Prod.fst).Nodup) {ensured : Bool} {db db' : FeedbackDb}
    {output : List FeedbackChange}
    (h : applyChanges accountId appid timestamp ensured db changes = .ok (output, db'))
    (hinv : Inv (db.settled accountId appid)) :
    Inv (db'.settled accountId appid) ∧ Appends (wantedFields accountId appid changes) db db' := by
  induction changes generalizing ensured db output with
  | nil =>
    obtain ⟨_, rfl⟩ := Except.ok.inj h
    exact ⟨hinv, .none rfl rfl⟩
  | cons change rest ih =>
    obtain ⟨f, v⟩ := change
    obtain ⟨⟨output₁, ensured₁, db₁⟩, h₁, h⟩ := bind_eq_ok.mp h
    obtain ⟨⟨outputs, db₂⟩, h₂, h⟩ := bind_eq_ok.mp h
    obtain ⟨_, rfl⟩ := Except.ok.inj h
    obtain ⟨hv, hcarried⟩ := List.forall_mem_cons.mp hcarried
    obtain ⟨hf, hnodup⟩ := List.nodup_cons.mp hnodup
    rcases applyChange_ok h₁ with ⟨_, rfl⟩ | ⟨hdiffers, steamApps, identities, rfl⟩
    · obtain ⟨hinv, happends⟩ := ih hcarried hnodup h₂ hinv
      exact ⟨hinv, happends.cons (fun _ _ _ => rfl) rfl
        ⟨[], by rw [List.append_nil], fun e he => by simp at he⟩⟩
    · have hinv₁ : Inv (FeedbackDb.settled { db.withField accountId appid f v timestamp with
          steamApps := steamApps, identities := identities } accountId appid) :=
        (hinv.withField hv f timestamp).congr rfl rfl rfl rfl rfl
      obtain ⟨hinv₂, happends⟩ := ih hcarried hnodup h₂ hinv₁
      -- The other fields that are wanted have the values they had before.
      refine ⟨hinv₂, happends.cons (fun s content hmem => ?_) rfl ⟨[_], rfl, fun e he => ?_⟩⟩
      · obtain ⟨c, hc, heq⟩ := List.mem_map.mp hmem
        obtain ⟨rfl, _⟩ := Prod.mk.inj heq
        refine projected_withField (fun hg => hf ?_) v timestamp steamApps identities
        exact List.mem_map.mpr ⟨c, hc, hg⟩
      · rw [List.mem_singleton.mp he]
        exact ⟨.field v, List.mem_cons_self, hdiffers⟩

/-- The transaction of a call on fields. -/
theorem applyValidated_ok {accountId : Nat} {appid : Int} {timestamp : String}
    {validated : List (Field × Value)} (hcarried : ∀ c ∈ validated, c.2.carried = true)
    (hnodup : (validated.map Prod.fst).Nodup) {db db' : FeedbackDb} {output : List FeedbackChange}
    (h : applyValidated accountId appid validated timestamp db = .ok (output, db'))
    (hinv : Inv db) : Inv db' ∧ Appends (wantedFields accountId appid validated) db db' := by
  obtain ⟨_, _, h⟩ := bind_eq_ok.mp h
  obtain ⟨⟨output₁, db₁⟩, h₁, h⟩ := bind_eq_ok.mp h
  obtain ⟨_, rfl⟩ := Except.ok.inj h
  have hsettled : Inv (db.settled accountId appid) := by
    rw [FeedbackDb.settled, ← removeEmptyFeedbackCurrent_eq, hinv.removeEmpty]
    exact hinv
  obtain ⟨hinv₁, hnew, hrules⟩ := applyChanges_ok hcarried hnodup h₁ hsettled
  rw [removeEmptyFeedbackCurrent_eq]
  exact ⟨hinv₁, hnew, hrules⟩

/-- The key of a field in `fields`. -/
def Field.name : Field → String
  | .rating => "rating"
  | .playState => "play_state"
  | .snooze => "snooze"
  | .minimumSessionMinutes => "minimum_session_minutes"
  | .remainingMinutes => "remaining_minutes"

theorem Field.name_of_parse {name : String} {f : Field} (h : Field.parse name = some f) :
    name = f.name := by
  unfold Field.parse at h
  split at h <;> first | (obtain rfl := Option.some.inj h; rfl) | nomatch h

theorem carried_of_check {iso : FromIsoFormat} {f : Field} {v : Value} {u : Unit}
    (h : f.check iso v = .ok u) : v.carried = true := by
  cases v with
  | boolean b =>
    cases f <;> simp [Field.check, checkEstimate] at h
  | _ => rfl

theorem validateChange_ok {iso : FromIsoFormat} {change : String × Value} {c : Field × Value}
    (h : validateChange iso change = .ok c) :
    Field.parse change.1 = some c.1 ∧ change.2 = c.2 ∧ c.2.carried = true := by
  unfold validateChange at h
  split at h
  · nomatch h
  · obtain ⟨_, hcheck, h⟩ := bind_eq_ok.mp h
    obtain rfl := Except.ok.inj h
    exact ⟨‹_›, rfl, carried_of_check hcheck⟩

/-- The validated changes are the changes, with their fields. -/
theorem mapM_validateChange {iso : FromIsoFormat} {changes : List (String × Value)}
    {validated : List (Field × Value)} (h : changes.mapM (validateChange iso) = .ok validated) :
    validated = changes.filterMap (fun c => (Field.parse c.1).map fun f => (f, c.2)) ∧
      validated.map Prod.fst = (changes.map Prod.fst).filterMap Field.parse ∧
      ∀ c ∈ validated, c.2.carried = true := by
  induction changes generalizing validated with
  | nil =>
    obtain rfl := Except.ok.inj h
    exact ⟨rfl, rfl, fun c hc => by simp at hc⟩
  | cons change rest ih =>
    rw [List.mapM_cons] at h
    obtain ⟨c, hc, h⟩ := bind_eq_ok.mp h
    obtain ⟨cs, hcs, h⟩ := bind_eq_ok.mp h
    obtain rfl := Except.ok.inj h
    obtain ⟨hparse, hvalue, hcarried⟩ := validateChange_ok hc
    obtain ⟨heq, hfst, hall⟩ := ih hcs
    refine ⟨?_, ?_, List.forall_mem_cons.mpr ⟨hcarried, hall⟩⟩
    · rw [List.filterMap_cons, hparse, ← heq, hvalue]
      rfl
    · rw [List.map_cons, List.map_cons, List.filterMap_cons, hparse, ← hfst]

theorem applyExplicitFeedbackFields_ok {iso : FromIsoFormat} {accountId : Nat} {appid : Int}
    {changes : List (String × Value)} {recordedAt : Stamp} {db db' : FeedbackDb}
    {output : List FeedbackChange}
    (h : applyExplicitFeedbackFields iso accountId appid changes recordedAt db = .ok (output, db'))
    (hinv : Inv db) :
    Inv db' ∧ Appends (wantedFields accountId appid
      (changes.filterMap fun c => (Field.parse c.1).map fun f => (f, c.2))) db db' := by
  obtain ⟨_, hunique, h⟩ := bind_eq_ok.mp h
  obtain ⟨_, hnodup⟩ := require_eq_ok.mp hunique
  obtain ⟨validated, hvalidated, h⟩ := bind_eq_ok.mp h
  obtain ⟨timestamp, _, h⟩ := bind_eq_ok.mp h
  obtain ⟨heq, hfst, hcarried⟩ := mapM_validateChange hvalidated
  rw [← heq]
  refine applyValidated_ok hcarried ?_ h hinv
  rw [hfst]
  exact hnodup.filterMap fun name name' f hf hf' =>
    (Field.name_of_parse hf).trans (Field.name_of_parse hf').symm

theorem setExplicitTrait_ok {iso : FromIsoFormat} {accountId : Nat} {appid : Int}
    {trait value : String} {recordedAt : Stamp} {db db' : FeedbackDb} {output : FeedbackChange}
    (h : setExplicitTrait iso accountId appid trait value recordedAt db = .ok (output, db'))
    (hinv : Inv db) :
    Inv db' ∧ Appends [(.trait accountId appid trait, .trait (some value))] db db' := by
  obtain ⟨trait', htrait, hrest⟩ := bind_eq_ok.mp h
  obtain rfl := userTrait_ok htrait
  obtain ⟨_, _, h⟩ := bind_eq_ok.mp hrest
  obtain ⟨timestamp, _, h⟩ := bind_eq_ok.mp h
  obtain ⟨_, _, h⟩ := bind_eq_ok.mp h
  obtain ⟨db₁, hensure, h⟩ := bind_eq_ok.mp h
  obtain ⟨steamApps, identities, rfl⟩ := ensureSteamApplicationIdentity_ok hensure
  have hinv₁ : Inv { db with steamApps := steamApps, identities := identities } :=
    hinv.congr rfl rfl rfl rfl rfl
  dsimp only at h
  split at h
  · obtain ⟨_, rfl⟩ := Except.ok.inj h
    exact ⟨hinv₁, .none rfl rfl⟩
  · rename_i hdiffers
    obtain ⟨_, rfl⟩ := Except.ok.inj h
    refine ⟨hinv₁.withTrait accountId appid trait (some value) timestamp,
      ⟨[_], rfl, fun e he => ?_⟩, ⟨[], (List.append_nil _).symm, fun e he => by simp at he⟩⟩
    rw [List.mem_singleton.mp he]
    refine ⟨.trait (some value), List.mem_singleton_self _, fun heq => hdiffers ?_⟩
    obtain ⟨row, hrow, hvalue⟩ := Option.map_eq_some_iff.mp (Content.trait.inj heq)
    change db.traits.lookup (accountId, appid, trait) = some row at hrow
    rw [hrow]
    simpa using hvalue

theorem clearExplicitTrait_ok {iso : FromIsoFormat} {accountId : Nat} {appid : Int}
    {trait : String} {recordedAt : Stamp} {db db' : FeedbackDb} {output : FeedbackChange}
    (h : clearExplicitTrait iso accountId appid trait recordedAt db = .ok (output, db'))
    (hinv : Inv db) : Inv db' ∧ Appends [(.trait accountId appid trait, .trait none)] db db' := by
  obtain ⟨trait', htrait, hrest⟩ := bind_eq_ok.mp h
  obtain rfl := userTrait_ok htrait
  obtain ⟨timestamp, _, h⟩ := bind_eq_ok.mp hrest
  obtain ⟨_, _, h⟩ := bind_eq_ok.mp h
  dsimp only at h
  split at h
  · obtain ⟨_, rfl⟩ := Except.ok.inj h
    exact ⟨hinv, .none rfl rfl⟩
  · rename_i hpresent
    obtain ⟨_, rfl⟩ := Except.ok.inj h
    have hinv₁ := hinv.withTrait accountId appid trait none timestamp
    have hsame := hinv₁.removeEmpty accountId appid
    dsimp only [Option.map_none] at hsame
    rw [hsame]
    refine ⟨hinv₁, ⟨[_], rfl, fun e he => ?_⟩,
      ⟨[], (List.append_nil _).symm, fun e he => by simp at he⟩⟩
    rw [List.mem_singleton.mp he]
    refine ⟨.trait none, List.mem_singleton_self _, fun heq => hpresent ?_⟩
    exact Option.map_eq_none_iff.mp (Content.trait.inj heq)

/-- What a call on a rule wants. -/
def wantedRule (accountId : Nat) (trait kind strength : String) : Value → List (Subject × Content)
  | .integer weight => [(.rule accountId trait, .rule (some (kind, strength, weight)))]
  | _ => []

theorem setPreferenceRule_ok {iso : FromIsoFormat} {accountId : Nat} {trait kind strength : String}
    {weight : Value} {recordedAt : Stamp} {db db' : FeedbackDb} {id : Nat}
    (h : setPreferenceRule iso accountId trait kind strength weight recordedAt db = .ok (id, db'))
    (hinv : Inv db) :
    Inv db' ∧ Appends (wantedRule accountId trait kind strength weight) db db' := by
  obtain ⟨trait', htrait, hrest⟩ := bind_eq_ok.mp h
  obtain rfl := userTrait_ok htrait
  obtain ⟨_, _, h⟩ := bind_eq_ok.mp hrest
  obtain ⟨_, _, h⟩ := bind_eq_ok.mp h
  obtain ⟨n, hweight, h⟩ := bind_eq_ok.mp h
  obtain ⟨timestamp, _, h⟩ := bind_eq_ok.mp h
  obtain ⟨_, _, hlast⟩ := bind_eq_ok.mp h
  have hwanted : weight = .integer n := by
    unfold checkWeight at hweight
    split at hweight
    · obtain ⟨_, _, hn⟩ := bind_eq_ok.mp hweight
      rw [Except.ok.inj hn]
    · nomatch hweight
  subst hwanted
  dsimp only at hlast
  split at hlast
  · obtain ⟨_, rfl⟩ := Except.ok.inj hlast
    exact ⟨hinv, .none rfl rfl⟩
  · rename_i hdiffers
    obtain ⟨_, rfl⟩ := Except.ok.inj hlast
    refine ⟨hinv.withRule accountId trait (some (kind, strength, n)) timestamp,
      ⟨[], (List.append_nil _).symm, fun e he => by simp at he⟩, ⟨[_], rfl, fun e he => ?_⟩⟩
    rw [List.mem_singleton.mp he]
    refine ⟨.rule (some (kind, strength, n)), List.mem_singleton_self _, fun heq => ?_⟩
    obtain ⟨row, hrow, hrule⟩ := Option.map_eq_some_iff.mp (Content.rule.inj heq)
    change db.rules.lookup (accountId, trait) = some row at hrow
    rw [hrow, Option.filter_some, if_pos (by simpa using hrule)] at hdiffers
    nomatch hdiffers

theorem removePreferenceRule_ok {iso : FromIsoFormat} {accountId : Nat} {trait : String}
    {recordedAt : Stamp} {db db' : FeedbackDb} {removed : Bool}
    (h : removePreferenceRule iso accountId trait recordedAt db = .ok (removed, db'))
    (hinv : Inv db) : Inv db' ∧ Appends [(.rule accountId trait, .rule none)] db db' := by
  obtain ⟨trait', htrait, hrest⟩ := bind_eq_ok.mp h
  obtain rfl := userTrait_ok htrait
  obtain ⟨timestamp, _, h⟩ := bind_eq_ok.mp hrest
  obtain ⟨_, _, h⟩ := bind_eq_ok.mp h
  split at h
  · obtain ⟨_, rfl⟩ := Except.ok.inj h
    exact ⟨hinv, .none rfl rfl⟩
  · rename_i hpresent
    obtain ⟨_, rfl⟩ := Except.ok.inj h
    refine ⟨hinv.withRule accountId trait none timestamp,
      ⟨[], (List.append_nil _).symm, fun e he => by simp at he⟩, ⟨[_], rfl, fun e he => ?_⟩⟩
    rw [List.mem_singleton.mp he]
    refine ⟨.rule none, List.mem_singleton_self _, fun heq => hpresent ?_⟩
    exact Option.map_eq_none_iff.mp (Content.rule.inj heq)

/-! ## Reports -/

theorem history_field (db : FeedbackDb) (accountId : Nat) (appid : Int) (f : Field) :
    db.history (.field accountId appid f)
      = (db.events.entries.filter fun e => e.event.subject = .field accountId appid f).map
        fun e => (e.id, e.event.content) := by
  have hrules : (db.ruleEvents.entries.filter fun e =>
      e.event.subject = .field accountId appid f) = [] :=
    List.filter_eq_nil_iff.mpr fun e _ => by simp [RuleEvent.subject]
  rw [FeedbackDb.history, hrules, List.map_nil, List.append_nil]

theorem history_trait (db : FeedbackDb) (accountId : Nat) (appid : Int) (trait : String) :
    db.history (.trait accountId appid trait)
      = (db.events.entries.filter fun e => e.event.subject = .trait accountId appid trait).map
        fun e => (e.id, e.event.content) := by
  have hrules : (db.ruleEvents.entries.filter fun e =>
      e.event.subject = .trait accountId appid trait) = [] :=
    List.filter_eq_nil_iff.mpr fun e _ => by simp [RuleEvent.subject]
  rw [FeedbackDb.history, hrules, List.map_nil, List.append_nil]

theorem history_rule (db : FeedbackDb) (accountId : Nat) (trait : String) :
    db.history (.rule accountId trait)
      = (db.ruleEvents.entries.filter fun e => e.event.subject = .rule accountId trait).map
        fun e => (e.id, .rule e.event.rule) := by
  have hevents : (db.events.entries.filter fun e =>
      e.event.subject = .rule accountId trait) = [] := by
    refine List.filter_eq_nil_iff.mpr fun e _ => ?_
    unfold FeedbackEvent.subject
    split <;> simp
  rw [FeedbackDb.history, hevents, List.map_nil, List.nil_append]

theorem subject_eq_field {e : FeedbackEvent} {accountId : Nat} {appid : Int} {f : Field} :
    e.subject = .field accountId appid f ↔
      e.accountId = accountId ∧ e.appid = appid ∧ e.eventKind = .field f := by
  unfold FeedbackEvent.subject
  split
  · rename_i hkind
    simp [hkind]
  · rename_i hkind
    simp [hkind]

theorem content_of_field {e : FeedbackEvent} {accountId : Nat} {appid : Int} {f : Field}
    (h : e.subject = .field accountId appid f) : e.content = .field e.value := by
  obtain ⟨_, _, hkind⟩ := subject_eq_field.mp h
  simp [FeedbackEvent.content, hkind]

/-- The folded column of a field is the value of its last event. -/
theorem Inv.projected_field {db : FeedbackDb} (h : Inv db) (accountId : Nat) (appid : Int)
    (f : Field) :
    (columnsOf (db.current.lookup (accountId, appid))).get f
      = ((db.events.entries.filter fun e => e.event.subject = .field accountId appid f).getLast?.map
          fun e => e.event.value).getD .null := by
  have hcolumn := Projection.foldl_column fieldProjection.next
    (fun row => (columnsOf row).get f) (fun e => e.event.eventKind = .field f)
    (fun e => e.event.value)
    (fun row e he => by
      have hkind : e.event.eventKind = .field f := by simpa using he
      simp only [fieldProjection, hkind, columnsOf_settled]
      exact Columns.get_set_self _ _ f)
    (fun row e he => by
      have hkind : e.event.eventKind ≠ .field f := by simpa using he
      simp only [fieldProjection]
      split
      · rename_i g hg
        rw [columnsOf_settled]
        exact Columns.get_set_ne _ _ fun hf => hkind (hf ▸ hg)
      · rfl)
    (fieldProjection.about (accountId, appid) db.events.entries)
  rw [h.current, Projection.lookup_replay, hcolumn, Projection.about, List.filter_filter]
  have hfilter : (db.events.entries.filter fun e => decide (e.event.eventKind = .field f) &&
        decide (fieldProjection.key e.event = some (accountId, appid)))
      = db.events.entries.filter fun e => e.event.subject = .field accountId appid f := by
    refine List.filter_congr fun e _ => ?_
    rw [← Bool.decide_and, decide_eq_decide, subject_eq_field]
    simp only [fieldProjection]
    split
    · simp [and_comm, and_left_comm, and_assoc]
    · rename_i hkind
      simp [hkind]
  have hnone : (columnsOf none).get f = .null := Columns.get_blank f
  rw [hfilter, hnone]

/-- The ids that the listing reports are those of the last events. -/
theorem Inv.mem_fieldEventIds {db : FeedbackDb} (h : Inv db) {accountId : Nat} {appid : Int}
    {f : Field} {id : Nat} (hid : (f, id) ∈ fieldEventIds db accountId appid) :
    (db.history (.field accountId appid f)).getLast?
      = some (id, db.projected (.field accountId appid f)) := by
  obtain ⟨g, _, hmax⟩ := List.mem_filterMap.mp hid
  obtain ⟨i, hi, heq⟩ := Option.map_eq_some_iff.mp hmax
  obtain ⟨rfl, rfl⟩ := Prod.mk.inj heq
  have hfilter : db.events.entries.filter (isFieldEvent accountId appid g)
      = db.events.entries.filter fun e => e.event.subject = .field accountId appid g := by
    refine List.filter_congr fun e he => ?_
    have hplain := h.plain e he
    by_cases hkind : e.event.eventKind = .field g
    · have htrait : e.event.trait = none := hplain (by simp [hkind])
      simp [isFieldEvent, subject_eq_field, hkind, htrait]
    · simp [isFieldEvent, subject_eq_field, hkind]
  rw [Log.max?_filter, hfilter] at hi
  obtain ⟨e, he, rfl⟩ := Option.map_eq_some_iff.mp hi
  have hsubject : e.event.subject = .field accountId appid g := by
    simpa using (List.mem_filter.mp (List.mem_of_getLast? he)).2
  rw [history_field, List.getLast?_map, he, Option.map_some, FeedbackDb.projected,
    h.projected_field, he, content_of_field hsubject]
  rfl

/-- A trait row names the last event of its trait. -/
theorem Inv.lookup_traits {db : FeedbackDb} (h : Inv db) {accountId : Nat} {appid : Int}
    {trait : String} {row : TraitRow} (hrow : db.traits.lookup (accountId, appid, trait) = some row) :
    (db.history (.trait accountId appid trait)).getLast?
      = some (row.lastEventId, .trait (some row.value)) := by
  rw [h.traits, Projection.lookup_replay_last _ (fun _ _ => rfl)] at hrow
  have hfilter : traitProjection.about (accountId, appid, trait) db.events.entries
      = db.events.entries.filter fun e => e.event.subject = .trait accountId appid trait := by
    refine List.filter_congr fun e _ => ?_
    rw [decide_eq_decide]
    simp only [traitProjection, FeedbackEvent.subject]
    split <;> simp
  rw [hfilter] at hrow
  obtain ⟨e, he, hvalue⟩ := Option.bind_eq_some_iff.mp hrow
  obtain ⟨value, htext, rfl⟩ := Option.map_eq_some_iff.mp hvalue
  have hcontent : e.event.content = .trait e.event.valueText := by
    have hsubject := (List.mem_filter.mp (List.mem_of_getLast? he)).2
    simp only [FeedbackEvent.subject] at hsubject
    unfold FeedbackEvent.content
    split
    · rename_i hkind
      simp [hkind] at hsubject
    · rfl
  rw [history_trait, List.getLast?_map, he, Option.map_some, hcontent, htext]

/-- A rule row names the last event of its rule. -/
theorem Inv.lookup_rules {db : FeedbackDb} (h : Inv db) {accountId : Nat} {trait : String}
    {row : RuleRow} (hrow : db.rules.lookup (accountId, trait) = some row) :
    (db.history (.rule accountId trait)).getLast? = some (row.lastEventId, .rule (some row.rule)) := by
  rw [h.rules, Projection.lookup_replay_last _ (fun _ _ => rfl)] at hrow
  have hfilter : ruleProjection.about (accountId, trait) db.ruleEvents.entries
      = db.ruleEvents.entries.filter fun e => e.event.subject = .rule accountId trait := by
    refine List.filter_congr fun e _ => ?_
    simp [ruleProjection, RuleEvent.subject]
  rw [hfilter] at hrow
  obtain ⟨e, he, hvalue⟩ := Option.bind_eq_some_iff.mp hrow
  obtain ⟨rule, hrule, rfl⟩ := Option.map_eq_some_iff.mp hvalue
  rw [history_rule, List.getLast?_map, he, Option.map_some, hrule]

/-! ## Histories -/

/-- The five calls. -/
inductive Call where
  | applyFields (accountId : Nat) (appid : Int) (changes : List (String × Value))
    (recordedAt : Stamp)
  | setTrait (accountId : Nat) (appid : Int) (trait value : String) (recordedAt : Stamp)
  | clearTrait (accountId : Nat) (appid : Int) (trait : String) (recordedAt : Stamp)
  | setRule (accountId : Nat) (trait kind strength : String) (weight : Value) (recordedAt : Stamp)
  | removeRule (accountId : Nat) (trait : String) (recordedAt : Stamp)

/-- What a call returns with leaves this database, unless it raises. -/
def Call.run (iso : FromIsoFormat) (db : FeedbackDb) : Call → Except Exn FeedbackDb
  | .applyFields accountId appid changes recordedAt =>
    (applyExplicitFeedbackFields iso accountId appid changes recordedAt db).map Prod.snd
  | .setTrait accountId appid trait value recordedAt =>
    (setExplicitTrait iso accountId appid trait value recordedAt db).map Prod.snd
  | .clearTrait accountId appid trait recordedAt =>
    (clearExplicitTrait iso accountId appid trait recordedAt db).map Prod.snd
  | .setRule accountId trait kind strength weight recordedAt =>
    (setPreferenceRule iso accountId trait kind strength weight recordedAt db).map Prod.snd
  | .removeRule accountId trait recordedAt =>
    (removePreferenceRule iso accountId trait recordedAt db).map Prod.snd

/-- The subjects of a call, with the values it gives them. -/
def Call.wanted : Call → List (Subject × Content)
  | .applyFields accountId appid changes _ =>
    wantedFields accountId appid
      (changes.filterMap fun c => (Field.parse c.1).map fun f => (f, c.2))
  | .setTrait accountId appid trait value _ => [(.trait accountId appid trait, .trait (some value))]
  | .clearTrait accountId appid trait _ => [(.trait accountId appid trait, .trait none)]
  | .setRule accountId trait kind strength weight _ =>
    wantedRule accountId trait kind strength weight
  | .removeRule accountId trait _ => [(.rule accountId trait, .rule none)]

/-- The transaction of a call commits, or it is rolled back. -/
def Call.commit (iso : FromIsoFormat) (db : FeedbackDb) (c : Call) : FeedbackDb :=
  match c.run iso db with
  | .ok db' => db'
  | .error _ => db

/-- A call that returns keeps the invariant and appends the events of its changes
only. -/
theorem Call.run_ok {iso : FromIsoFormat} {db db' : FeedbackDb} {c : Call}
    (h : c.run iso db = .ok db') (hinv : Inv db) : Inv db' ∧ Appends c.wanted db db' := by
  have hmap : ∀ {α : Type} {x : Except Exn (α × FeedbackDb)}, x.map Prod.snd = .ok db' →
      ∃ a, x = .ok (a, db') := by
    intro α x hx
    cases x with
    | error e => nomatch hx
    | ok r =>
      obtain rfl := Except.ok.inj hx
      exact ⟨r.1, rfl⟩
  cases c with
  | applyFields accountId appid changes recordedAt =>
    obtain ⟨_, h⟩ := hmap h
    exact applyExplicitFeedbackFields_ok h hinv
  | setTrait accountId appid trait value recordedAt =>
    obtain ⟨_, h⟩ := hmap h
    exact setExplicitTrait_ok h hinv
  | clearTrait accountId appid trait recordedAt =>
    obtain ⟨_, h⟩ := hmap h
    exact clearExplicitTrait_ok h hinv
  | setRule accountId trait kind strength weight recordedAt =>
    obtain ⟨_, h⟩ := hmap h
    exact setPreferenceRule_ok h hinv
  | removeRule accountId trait recordedAt =>
    obtain ⟨_, h⟩ := hmap h
    exact removePreferenceRule_ok h hinv

/-- The databases after any calls on any connections, in the order of their
transactions.  Other methods may change the accounts and the apps meanwhile. -/
inductive Reach (iso : FromIsoFormat) : FeedbackDb → Prop
  | start (accounts : List Account) (steamApps identities : List Int) :
    Reach iso (.empty accounts steamApps identities)
  | call {db : FeedbackDb} (h : Reach iso db) (c : Call) : Reach iso (c.commit iso db)
  | other {db : FeedbackDb} (h : Reach iso db) (accounts : List Account)
    (steamApps identities : List Int) :
    Reach iso { db with accounts := accounts, steamApps := steamApps, identities := identities }

theorem Reach.inv {iso : FromIsoFormat} {db : FeedbackDb} (h : Reach iso db) : Inv db := by
  induction h with
  | start accounts steamApps identities => exact inv_empty accounts steamApps identities
  | @call db _ c ih =>
    unfold Call.commit
    split
    · exact (Call.run_ok ‹_› ih).1
    · exact ih
  | other _ _ _ _ ih => exact ih.congr rfl rfl rfl rfl rfl

/-- The projections are the folds of the logs, the reported ids name the last
events, and a call appends events for the values that it changes only. -/
theorem feedback_projections_replay {iso : FromIsoFormat} {db : FeedbackDb} (h : Reach iso db) :
    (db.current = fieldProjection.replay db.events.entries ∧
      db.traits = traitProjection.replay db.events.entries ∧
      db.rules = ruleProjection.replay db.ruleEvents.entries) ∧
    (∀ accountId appid, ∀ item ∈ listExplicitFeedback db accountId appid,
      ∀ f id, (f, id) ∈ item.fieldEventIds →
        (db.history (.field accountId item.appid f)).getLast?
          = some (id, .field (item.columns.get f))) ∧
    (∀ accountId appid trait row, db.traits.lookup (accountId, appid, trait) = some row →
      (db.history (.trait accountId appid trait)).getLast?
        = some (row.lastEventId, .trait (some row.value))) ∧
    (∀ accountId trait row, db.rules.lookup (accountId, trait) = some row →
      (db.history (.rule accountId trait)).getLast?
        = some (row.lastEventId, .rule (some row.rule))) ∧
    (∀ c db', Call.run iso db c = .ok db' → Appends c.wanted db db') ∧
    ∀ c x, Call.run iso db c = .error x → c.commit iso db = db := by
  have hinv := h.inv
  refine ⟨⟨hinv.current, hinv.traits, hinv.rules⟩, fun accountId appid item hitem f id hid => ?_,
    fun _ _ _ _ hrow => hinv.lookup_traits hrow, fun _ _ _ hrow => hinv.lookup_rules hrow,
    fun c db' hrun => (Call.run_ok hrun hinv).2, fun c x hrun => ?_⟩
  · obtain ⟨app, _, rfl⟩ := List.mem_map.mp hitem
    exact hinv.mem_fieldEventIds hid
  · rw [Call.commit, hrun]

/-! ## A run -/

theorem firstDay_bound : 0 < Datetime.maxMicroseconds := by
  decide

/-- A timestamp on the first day of the calendar. -/
def firstDay : Stamp :=
  .instant (.ofInstant ⟨0, firstDay_bound⟩)

/-- An account rates an app, tags it, and takes the rating back. -/
def ratedDb : FeedbackDb :=
  let db := FeedbackDb.empty [⟨1, "steam"⟩] [] []
  let rate (value : Value) : Call := .applyFields 1 620 [("rating", value)] firstDay
  let db := (rate (.text "liked")).commit (fun _ => .error .overflowError) db
  let db := (Call.setTrait 1 620 "user:coop" "present" firstDay).commit
    (fun _ => .error .overflowError) db
  (rate .null).commit (fun _ => .error .overflowError) db

theorem reach_ratedDb : Reach (fun _ => .error .overflowError) ratedDb :=
  .call (.call (.call (.start _ _ _) _) _) _

/-- The trait is left, and the rating that was taken back is reported with its last
event. -/
theorem feedback_projections_replay_rated :
    ((listExplicitFeedback ratedDb 1 none).map fun item =>
      (item.columns.rating, item.fieldEventIds)) = [(.null, [(.rating, 3)])] ∧
    ∃ appid, (ratedDb.history (.field 1 appid .rating)).getLast? = some (3, .field .null) := by
  have hlist : ((listExplicitFeedback ratedDb 1 none).map fun item =>
      (item.columns.rating, item.fieldEventIds)) = [(.null, [(.rating, 3)])] := by decide +kernel
  refine ⟨hlist, ?_⟩
  obtain ⟨item, hitem, hcolumns⟩ := List.map_eq_singleton_iff.mp hlist
  obtain ⟨hrating, hids⟩ := Prod.mk.inj hcolumns
  obtain ⟨-, hreported, -⟩ := feedback_projections_replay reach_ratedDb
  have hlast := hreported 1 none item (by rw [hitem]; exact List.mem_singleton_self _) .rating 3
    (by rw [hids]; exact List.mem_singleton_self _)
  refine ⟨item.appid, ?_⟩
  rw [hlast]
  exact congrArg (fun value => some (3, Content.field value)) hrating

end SteamAgent.Storage.Feedback
