import Mathlib
import SteamAgent.Stdlib.PyJson
import SteamAgent.Stdlib.Result

/-!
# The size of selected evidence

`_bounded_canonical_json_size` counts the bytes of a canonical encoding without making
it, and `_bounded_selected_evidence` rests on the count.  The count takes one byte for
U+007F, which the encoding escapes with six.

There are five groups.

* The count and the bounds.
* The size that is counted, by recursion.
* The loops.
* The encoding.
* The comparison.
-/

namespace SteamAgent.Evals.EvidenceSize

open PyJson

/-! ## The count -/

/-- `JudgmentError`. -/
inductive JudgmentError where
  | invalid
  | exceedsLimits
  | exceedsAggregate
deriving DecidableEq, Repr

/-- What the count takes for a code point. -/
def characterSize (c : CodePoint) : Nat :=
  if c ∈ [34, 92, 8, 12, 10, 13, 9] then 2
  else if c.val < 0x20 then 6
  else if c.val < 0x80 then 1
  else if c.val ≤ 0xFFFF then 6
  else 12

/-- The loop over a string, which returns from the function at the limit. -/
def countString (limit : Int) (size : Nat) : PyStr → Option Nat
  | [] => some size
  | c :: rest =>
    if limit < size + characterSize c then none
    else countString limit (size + characterSize c) rest

/-- What an item adds to the size before its children, where `none` is `return None`. -/
def countItem (floatText : PyFloat → List UInt8) (limit : Int) (size : Nat) :
    PyJson → Except JudgmentError (Option Nat)
  | .str s => .ok (countString limit (size + 2) s)
  | .null => .ok (some (size + 4))
  | .bool true => .ok (some (size + 4))
  | .bool false => .ok (some (size + 5))
  | .int n =>
    match intText n with
    | some text => .ok (some (size + text.length))
    | none => .error .invalid
  | .float x => .ok (some (size + (floatText x).length))
  | .list items => .ok (some (size + (2 + (items.length - 1))))
  | .dict fields => .ok (some (size + (2 + (fields.length - 1) + fields.length)))

/-- The iterator that an item puts on the stack. -/
def children : PyJson → Option (List PyJson)
  | .list items => some items
  | .dict fields => some (fields.flatMap fun f => [.str f.1, f.2])
  | _ => none

mutual

/-- The number of turns that an item takes, and the ends of its iterators. -/
def turns : PyJson → Nat
  | .list items => 2 + turnsItems items
  | .dict fields => 2 + turnsFields fields
  | _ => 1

def turnsItems : List PyJson → Nat
  | [] => 0
  | value :: rest => turns value + turnsItems rest

def turnsFields : List (PyStr × PyJson) → Nat
  | [] => 0
  | (_, value) :: rest => 1 + turns value + turnsFields rest

end

/-- The turns that the iterators of the stack take. -/
def turnsLeft (pending : List (List PyJson)) : Nat :=
  (pending.map fun items => 1 + turnsItems items).sum

theorem turnsItems_children (fields : List (PyStr × PyJson)) :
    turnsItems (fields.flatMap fun f => [.str f.1, f.2]) = turnsFields fields := by
  induction fields with
  | nil => rfl
  | cons f rest ih =>
    simp only [List.flatMap_cons, List.cons_append, List.nil_append, turnsItems, turnsFields, ih,
      turns]
    omega

theorem turns_pos (item : PyJson) : 0 < turns item := by
  cases item <;> simp only [turns] <;> omega

theorem turns_children {item : PyJson} {items : List PyJson} (h : children item = some items) :
    1 + turnsItems items < turns item := by
  cases item with
  | list items' =>
    cases h
    simp only [turns]
    omega
  | dict fields =>
    cases h
    simp only [turns, turnsItems_children]
    omega
  | null => cases h
  | bool b => cases h
  | int n => cases h
  | float x => cases h
  | str s => cases h

/-- The loop of `_bounded_canonical_json_size`, with the last iterator first. -/
def sizeLoop (floatText : PyFloat → List UInt8) (limit : Int) (size : Nat) :
    List (List PyJson) → Except JudgmentError (Option Nat)
  | [] => .ok (some size)
  | [] :: pending => sizeLoop floatText limit size pending
  | (item :: rest) :: pending =>
    match countItem floatText limit size item with
    | .error e => .error e
    | .ok none => .ok none
    | .ok (some size) =>
      if limit < size then .ok none
      else
        match _hchildren : children item with
        | some items => sizeLoop floatText limit size (items :: rest :: pending)
        | none => sizeLoop floatText limit size (rest :: pending)
termination_by pending => turnsLeft pending
decreasing_by
  · simp only [turnsLeft, List.map_cons, List.sum_cons]
    omega
  · have hturns := turns_children _hchildren
    simp only [turnsLeft, List.map_cons, List.sum_cons, turnsItems]
    omega
  · have hturns := turns_pos item
    simp only [turnsLeft, List.map_cons, List.sum_cons, turnsItems]
    omega

/-- `_bounded_canonical_json_size`. -/
def boundedCanonicalJsonSize (floatText : PyFloat → List UInt8) (value : PyJson) (limit : Int) :
    Except JudgmentError (Option Nat) :=
  sizeLoop floatText limit 0 [[value]]

/-- `_canonical_json_bytes`, where `none` is a `MatrixError`. -/
def canonicalJsonBytes (floatText : PyFloat → List UInt8) (value : PyJson) :
    Option (List UInt8) :=
  (dumps floatText value).map fun text => text ++ ascii ['\n']

/-- `_MAX_SELECTED_EVIDENCE_BYTES`. -/
def maxSelectedEvidenceBytes : Int :=
  512 * 1024

/-- `_MAX_SELECTED_EVIDENCE_TOTAL_BYTES`. -/
def maxSelectedEvidenceTotalBytes : Int :=
  8 * 1024 * 1024

/-- `_bounded_selected_evidence`, without the evidence it hands through. -/
def boundedSelectedEvidence (floatText : PyFloat → List UInt8) (evidence : PyJson) :
    Except JudgmentError Nat :=
  match boundedCanonicalJsonSize floatText evidence maxSelectedEvidenceBytes with
  | .error e => .error e
  | .ok none => .error .exceedsLimits
  | .ok (some size) => .ok size

/-- The bounds of `_qualitative_projection` on the evidence that its criteria select. -/
def selectedEvidenceBytes (floatText : PyFloat → List UInt8) (total : Nat) :
    List PyJson → Except JudgmentError Nat
  | [] => .ok total
  | evidence :: rest => do
    let size ← boundedSelectedEvidence floatText evidence
    if maxSelectedEvidenceTotalBytes - total < size then .error .exceedsAggregate
    else selectedEvidenceBytes floatText (total + size) rest

/-! ## The size that is counted -/

/-- What the count takes for a string. -/
def stringSize (s : PyStr) : Nat :=
  2 + (s.map characterSize).sum

/-- What the count takes for an item without its children. -/
def ownSize (floatText : PyFloat → List UInt8) : PyJson → Nat
  | .str s => stringSize s
  | .null => 4
  | .bool true => 4
  | .bool false => 5
  | .int n => (Json.digits n).length
  | .float x => (floatText x).length
  | .list items => 2 + (items.length - 1)
  | .dict fields => 2 + (fields.length - 1) + fields.length

section Sizes

variable (floatText : PyFloat → List UInt8)

mutual

/-- The size that the count has for a value. -/
def countedSize : PyJson → Nat
  | .list items => ownSize floatText (.list items) + countedItems items
  | .dict fields => ownSize floatText (.dict fields) + countedFields fields
  | value => ownSize floatText value

def countedItems : List PyJson → Nat
  | [] => 0
  | value :: rest => countedSize value + countedItems rest

def countedFields : List (PyStr × PyJson) → Nat
  | [] => 0
  | (key, value) :: rest => stringSize key + countedSize value + countedFields rest

end

end Sizes

mutual

/-- Every integer has at most 4300 digits. -/
def ShortInts : PyJson → Prop
  | .int n => n.natAbs < 10 ^ maxStrDigits
  | .list items => ShortIntsItems items
  | .dict fields => ShortIntsFields fields
  | _ => True

def ShortIntsItems : List PyJson → Prop
  | [] => True
  | value :: rest => ShortInts value ∧ ShortIntsItems rest

def ShortIntsFields : List (PyStr × PyJson) → Prop
  | [] => True
  | (_, value) :: rest => ShortInts value ∧ ShortIntsFields rest

end

mutual

/-- The number of U+007F in the strings and keys. -/
def deletes : PyJson → Nat
  | .str s => s.count 127
  | .list items => deletesItems items
  | .dict fields => deletesFields fields
  | _ => 0

def deletesItems : List PyJson → Nat
  | [] => 0
  | value :: rest => deletes value + deletesItems rest

def deletesFields : List (PyStr × PyJson) → Nat
  | [] => 0
  | (key, value) :: rest => key.count 127 + deletes value + deletesFields rest

end

theorem countedItems_children (floatText : PyFloat → List UInt8)
    (fields : List (PyStr × PyJson)) :
    countedItems floatText (fields.flatMap fun f => [.str f.1, f.2]) =
      countedFields floatText fields := by
  induction fields with
  | nil => rfl
  | cons f rest ih =>
    simp only [List.flatMap_cons, List.cons_append, List.nil_append, countedItems, countedFields,
      ih, countedSize, ownSize]
    omega

theorem shortIntsItems_children {fields : List (PyStr × PyJson)} (h : ShortIntsFields fields) :
    ShortIntsItems (fields.flatMap fun f => [.str f.1, f.2]) := by
  induction fields with
  | nil => trivial
  | cons f rest ih =>
    simp only [ShortIntsFields] at h
    simp only [List.flatMap_cons, List.cons_append, List.nil_append, ShortIntsItems]
    exact ⟨trivial, h.1, ih h.2⟩

theorem countedSize_eq (floatText : PyFloat → List UInt8) (item : PyJson) :
    countedSize floatText item =
      ownSize floatText item + ((children item).map (countedItems floatText)).getD 0 := by
  cases item with
  | list items => rfl
  | dict fields =>
    simp only [countedSize, children, Option.map_some, Option.getD_some, countedItems_children]
  | null => rfl
  | bool b => rfl
  | int n => rfl
  | float x => rfl
  | str s => rfl

theorem shortInts_children {item : PyJson} {items : List PyJson} (h : ShortInts item)
    (hchildren : children item = some items) : ShortIntsItems items := by
  cases item with
  | list items' =>
    cases hchildren
    exact h
  | dict fields =>
    cases hchildren
    exact shortIntsItems_children h
  | null => cases hchildren
  | bool b => cases hchildren
  | int n => cases hchildren
  | float x => cases hchildren
  | str s => cases hchildren

/-! ## The loops -/

theorem countString_cases (limit : Int) (size : Nat) (s : PyStr) :
    countString limit size s = some (size + (s.map characterSize).sum) ∨
      countString limit size s = none ∧ limit < size + (s.map characterSize).sum := by
  induction s generalizing size with
  | nil => exact .inl rfl
  | cons c rest ih =>
    rw [countString, List.map_cons, List.sum_cons]
    by_cases hlimit : limit < size + characterSize c
    · rw [if_pos hlimit]
      exact .inr ⟨rfl, by omega⟩
    · rw [if_neg hlimit, ← Nat.add_assoc]
      rcases ih (size + characterSize c) with h | ⟨h, hlarge⟩
      · exact .inl h
      · exact .inr ⟨h, by push_cast at hlarge ⊢; omega⟩

/-- The count of an item adds its own size, or it has passed the limit. -/
theorem countItem_cases (floatText : PyFloat → List UInt8) (limit : Int) (size : Nat)
    {item : PyJson} (h : ShortInts item) :
    countItem floatText limit size item = .ok (some (size + ownSize floatText item)) ∨
      countItem floatText limit size item = .ok none ∧
        limit < size + ownSize floatText item := by
  cases item with
  | str s =>
    rw [countItem, ownSize, stringSize, ← Nat.add_assoc]
    rcases countString_cases limit (size + 2) s with heq | ⟨heq, hlarge⟩
    · rw [heq]
      exact .inl rfl
    · rw [heq]
      exact .inr ⟨rfl, by push_cast at hlarge ⊢; omega⟩
  | int n =>
    have hshort : n.natAbs < 10 ^ maxStrDigits := h
    rw [countItem, intText, if_pos hshort, ownSize, ← length_ascii]
    exact .inl rfl
  | bool b => cases b <;> exact .inl rfl
  | null => exact .inl rfl
  | float x => exact .inl rfl
  | list items => exact .inl rfl
  | dict fields => exact .inl rfl

/-- A size that does not pass the limit. -/
def within (limit : Int) (size : Nat) : Option Nat :=
  if size ≤ limit then some size else none

/-- The size that the items of the stack have for the count. -/
def sizeLeft (floatText : PyFloat → List UInt8) (pending : List (List PyJson)) : Nat :=
  (pending.map (countedItems floatText)).sum

theorem sizeLeft_cons (floatText : PyFloat → List UInt8) (item : PyJson) (rest : List PyJson)
    (pending : List (List PyJson)) :
    sizeLeft floatText ((item :: rest) :: pending) = ownSize floatText item +
      (((children item).map (countedItems floatText)).getD 0 +
        sizeLeft floatText (rest :: pending)) := by
  simp only [sizeLeft, List.map_cons, List.sum_cons, countedItems]
  rw [countedSize_eq]
  omega

/-- The stack after an item within the limit. -/
theorem sizeLoop_item (floatText : PyFloat → List UInt8) {limit : Int} {size size' : Nat}
    {item : PyJson} {rest : List PyJson} {pending : List (List PyJson)}
    (hitem : countItem floatText limit size item = .ok (some size')) (hlimit : ¬limit < size') :
    sizeLoop floatText limit size ((item :: rest) :: pending) =
      sizeLoop floatText limit size'
        ((children item).toList ++ (rest :: pending)) := by
  rw [sizeLoop, hitem]
  simp only [if_neg hlimit]
  split
  · next items heq =>
    rw [heq]
    rfl
  · next heq =>
    rw [heq]
    rfl

/-- The loop returns the size, or `None` where it passes the limit. -/
theorem sizeLoop_eq (floatText : PyFloat → List UInt8) {limit : Int} {size : Nat}
    {pending : List (List PyJson)} (hshort : ∀ items ∈ pending, ShortIntsItems items)
    (hstart : size ≤ limit ∨ ∃ item rest pending', pending = (item :: rest) :: pending') :
    sizeLoop floatText limit size pending =
      .ok (within limit (size + sizeLeft floatText pending)) := by
  -- The items on the stack after an item are short, and their size is what is left.
  have hstep : ∀ {item : PyJson} {rest : List PyJson} {pending : List (List PyJson)},
      (∀ items ∈ (item :: rest) :: pending, ShortIntsItems items) →
      ∀ items ∈ (children item).toList ++ (rest :: pending), ShortIntsItems items := by
    intro item rest pending hshort items hitems
    obtain ⟨hitem, hrest⟩ := hshort _ List.mem_cons_self
    rcases List.mem_append.mp hitems with hchild | hold
    · exact shortInts_children hitem (Option.mem_toList.mp hchild)
    · rcases List.mem_cons.mp hold with heq | hmem
      · rw [heq]
        exact hrest
      · exact hshort items (List.mem_cons_of_mem _ hmem)
  have hleft : ∀ (item : PyJson) (rest : List PyJson) (pending : List (List PyJson)),
      sizeLeft floatText ((item :: rest) :: pending) = ownSize floatText item +
        sizeLeft floatText ((children item).toList ++ (rest :: pending)) := by
    intro item rest pending
    rw [sizeLeft_cons]
    cases children item with
    | none => simp
    | some items => simp [sizeLeft]
  induction size, pending using sizeLoop.induct floatText limit with
  | case1 size =>
    rcases hstart with hstart | ⟨item, rest, pending', heq⟩
    · rw [sizeLoop, sizeLeft, List.map_nil, List.sum_nil, Nat.add_zero, within, if_pos hstart]
    · cases heq
  | case2 size pending ih =>
    rcases hstart with hstart | ⟨item, rest, pending', heq⟩
    · have hnil : sizeLeft floatText ([] :: pending) = sizeLeft floatText pending := by
        simp [sizeLeft, countedItems]
      rw [sizeLoop, hnil]
      exact ih (fun items hitems => hshort items (List.mem_cons_of_mem _ hitems)) (.inl hstart)
    · cases heq
  | case3 size item rest pending e herror =>
    rcases countItem_cases floatText limit size (hshort _ List.mem_cons_self).1 with
      heq | ⟨heq, -⟩
    · rw [herror] at heq
      cases heq
    · rw [herror] at heq
      cases heq
  | case4 size item rest pending hnone =>
    rcases countItem_cases floatText limit size (hshort _ List.mem_cons_self).1 with
      heq | ⟨-, hlarge⟩
    · rw [hnone] at heq
      cases heq
    · rw [sizeLoop, hnone, hleft, within, if_neg (by push_cast; omega)]
  | case5 size item rest pending size' hsize hlimit =>
    rcases countItem_cases floatText limit size (hshort _ List.mem_cons_self).1 with
      heq | ⟨heq, -⟩
    · rw [hsize] at heq
      cases heq
      rw [sizeLoop, hsize, hleft, within, if_neg (by push_cast at hlimit ⊢; omega)]
      simp only [if_pos hlimit]
    · rw [hsize] at heq
      cases heq
  | case6 size item rest pending size' hsize hlimit items hchildren ih =>
    rcases countItem_cases floatText limit size (hshort _ List.mem_cons_self).1 with
      heq | ⟨heq, -⟩
    · have hnext := hstep hshort
      rw [hchildren] at hnext
      rw [sizeLoop_item floatText hsize hlimit, hleft, hchildren]
      rw [hsize] at heq
      cases heq
      rw [Option.toList_some, List.singleton_append] at hnext ⊢
      rw [ih hnext (.inl (by omega)), Nat.add_assoc]
    · rw [hsize] at heq
      cases heq
  | case7 size item rest pending size' hsize hlimit hchildren ih =>
    rcases countItem_cases floatText limit size (hshort _ List.mem_cons_self).1 with
      heq | ⟨heq, -⟩
    · have hnext := hstep hshort
      rw [hchildren] at hnext
      rw [sizeLoop_item floatText hsize hlimit, hleft, hchildren]
      rw [hsize] at heq
      cases heq
      rw [Option.toList_none, List.nil_append] at hnext ⊢
      rw [ih hnext (.inl (by omega)), Nat.add_assoc]
    · rw [hsize] at heq
      cases heq

theorem boundedCanonicalJsonSize_eq (floatText : PyFloat → List UInt8) {value : PyJson}
    (limit : Int) (h : ShortInts value) :
    boundedCanonicalJsonSize floatText value limit =
      .ok (within limit (countedSize floatText value)) := by
  have hshort : ∀ items ∈ [[value]], ShortIntsItems items := by
    intro items hitems
    rw [List.mem_singleton.mp hitems]
    exact ⟨h, trivial⟩
  rw [boundedCanonicalJsonSize, sizeLoop_eq floatText hshort (.inr ⟨value, [], [], rfl⟩)]
  simp [sizeLeft, countedItems]

/-! ## The encoding -/

theorem shortEscape_eq_none (c : CodePoint) :
    shortEscape c = none ↔ c ∉ [34, 92, 8, 12, 10, 13, 9] := by
  unfold shortEscape
  constructor
  · intro h
    split_ifs at h
    simp_all
  · intro h
    simp only [List.mem_cons, List.not_mem_nil, or_false, not_or] at h
    simp [h]

/-- The encoding has five bytes more than the count for U+007F. -/
theorem length_escape (c : CodePoint) :
    (escape c).length = characterSize c + if c = 127 then 5 else 0 := by
  unfold escape characterSize
  cases hshort : shortEscape c with
  | some letter =>
    have hmem : c ∈ [34, 92, 8, 12, 10, 13, 9] := by
      by_contra hmem
      rw [(shortEscape_eq_none c).mpr hmem] at hshort
      cases hshort
    have hne : c ≠ 127 := by
      rintro rfl
      exact absurd hmem (by decide)
    rw [if_pos hmem, if_neg hne]
    rfl
  | none =>
    have hval : c = 127 ↔ c.val = 127 := Fin.ext_iff
    simp only [(shortEscape_eq_none c).mp hshort, if_false, hval]
    by_cases hprintable : 32 ≤ c.val ∧ c.val ≤ 126
    · rw [if_pos hprintable, if_neg (by omega), if_pos (by omega), if_neg (by omega)]
      rfl
    · rw [if_neg hprintable]
      by_cases hwide : c.val < 0x10000
      · rw [if_pos hwide, length_ascii]
        simp only [Json.hex4, List.length_cons, List.length_nil]
        split_ifs <;> omega
      · rw [if_neg hwide, List.length_append, length_ascii, length_ascii]
        simp only [Json.hex4, List.length_cons, List.length_nil]
        split_ifs <;> omega

theorem length_quote_eq (s : PyStr) : (quote s).length = stringSize s + 5 * s.count 127 := by
  have hsum : (s.map fun c => (escape c).length).sum =
      (s.map characterSize).sum + 5 * s.count 127 := by
    induction s with
    | nil => rfl
    | cons c rest ih =>
      rw [List.map_cons, List.map_cons, List.sum_cons, List.sum_cons, ih, length_escape,
        List.count_cons]
      by_cases hc : c = 127
      · simp [hc]
        omega
      · simp [hc]
        omega
  rw [length_quote, hsum, stringSize]
  omega

mutual

theorem dumps_length (floatText : PyFloat → List UInt8) :
    ∀ value, ShortInts value → ∃ text, dumps floatText value = some text ∧
      text.length = countedSize floatText value + 5 * deletes value
  | .null, _ => ⟨_, rfl, rfl⟩
  | .bool true, _ => ⟨_, rfl, rfl⟩
  | .bool false, _ => ⟨_, rfl, rfl⟩
  | .int n, h => by
    refine ⟨ascii (Json.digits n), ?_, length_ascii _⟩
    rw [dumps, intText]
    exact if_pos h
  | .float x, _ => ⟨floatText x, rfl, rfl⟩
  | .str s, _ => ⟨quote s, rfl, length_quote_eq s⟩
  | .list items, h => by
    obtain ⟨texts, htexts, hlength, hsum⟩ := dumpsItems_length floatText items h
    refine ⟨_, by rw [dumps, htexts]; rfl, ?_⟩
    simp only [List.length_append, length_ascii, length_commas, countedSize, ownSize, deletes,
      List.length_singleton]
    omega
  | .dict fields, h => by
    obtain ⟨texts, htexts, hlength, hsum⟩ := dumpsFields_length floatText fields h
    refine ⟨_, by rw [dumps, htexts]; rfl, ?_⟩
    have hmembers : (members texts).length = texts.length := by
      rw [members, List.length_map, List.length_mergeSort]
    simp only [List.length_append, length_ascii, length_commas, length_members, countedSize,
      ownSize, deletes, List.length_singleton]
    omega

theorem dumpsItems_length (floatText : PyFloat → List UInt8) :
    ∀ items, ShortIntsItems items → ∃ texts, dumpsItems floatText items = some texts ∧
      texts.length = items.length ∧
      (texts.map List.length).sum = countedItems floatText items + 5 * deletesItems items
  | [], _ => ⟨[], rfl, rfl, rfl⟩
  | value :: rest, h => by
    obtain ⟨text, htext, hlength⟩ := dumps_length floatText value h.1
    obtain ⟨texts, htexts, hcount, hsum⟩ := dumpsItems_length floatText rest h.2
    refine ⟨text :: texts, by rw [dumpsItems, htext, htexts]; rfl, ?_, ?_⟩
    · rw [List.length_cons, hcount, List.length_cons]
    · rw [List.map_cons, List.sum_cons, hsum, hlength, countedItems, deletesItems]
      omega

theorem dumpsFields_length (floatText : PyFloat → List UInt8) :
    ∀ fields, ShortIntsFields fields → ∃ texts, dumpsFields floatText fields = some texts ∧
      texts.length = fields.length ∧
      (texts.map fun f => (quote f.1).length + 1 + f.2.length).sum =
        countedFields floatText fields + fields.length + 5 * deletesFields fields
  | [], _ => ⟨[], rfl, rfl, rfl⟩
  | (key, value) :: rest, h => by
    obtain ⟨text, htext, hlength⟩ := dumps_length floatText value h.1
    obtain ⟨texts, htexts, hcount, hsum⟩ := dumpsFields_length floatText rest h.2
    refine ⟨(key, text) :: texts, by rw [dumpsFields, htext, htexts]; rfl, ?_, ?_⟩
    · rw [List.length_cons, hcount, List.length_cons]
    · rw [List.map_cons, List.sum_cons, hsum, hlength, countedFields, deletesFields,
        length_quote_eq, List.length_cons]
      dsimp only
      omega

end

/-! ## The comparison -/

/-- The count is the length of the encoding without its line feed, or `None` where that
passes the limit. -/
def Exact (floatText : PyFloat → List UInt8) (value : PyJson) (limit : Int) : Prop :=
  ∃ text, canonicalJsonBytes floatText value = some (text ++ ascii ['\n']) ∧
    boundedCanonicalJsonSize floatText value limit = .ok (within limit text.length)

/-- There is no U+007F, or the encoding passes the limit even with one byte for each. -/
def CountsAlike (floatText : PyFloat → List UInt8) (value : PyJson) (limit : Int) : Prop :=
  deletes value = 0 ∨
    ∃ text, dumps floatText value = some text ∧ limit + 5 * deletes value < text.length

theorem within_eq_iff (limit : Int) (size more : Nat) :
    within limit size = within limit (size + more) ↔ more = 0 ∨ limit < size := by
  unfold within
  split_ifs with h h' h'
  · rw [Option.some.injEq]
    omega
  · refine iff_of_false id ?_
    push_cast at h'
    omega
  · push_cast at h'
    omega
  · refine iff_of_true rfl (.inr ?_)
    omega

theorem exact_iff (floatText : PyFloat → List UInt8) {value : PyJson} (limit : Int)
    (h : ShortInts value) : Exact floatText value limit ↔ CountsAlike floatText value limit := by
  obtain ⟨text, htext, hlength⟩ := dumps_length floatText value h
  have hsize := boundedCanonicalJsonSize_eq floatText limit h
  have hexact : Exact floatText value limit ↔
      within limit (countedSize floatText value) = within limit text.length := by
    unfold Exact canonicalJsonBytes
    rw [htext, hsize, Option.map_some]
    constructor
    · intro hexact
      obtain ⟨text', heq, hwithin⟩ := hexact
      rw [List.append_cancel_right (Option.some.inj heq)]
      exact Except.ok.inj hwithin
    · intro hwithin
      exact ⟨text, rfl, congrArg _ hwithin⟩
  have halike : CountsAlike floatText value limit ↔
      deletes value = 0 ∨ limit + 5 * deletes value < text.length := by
    unfold CountsAlike
    rw [htext]
    simp
  rw [hexact, halike, hlength, within_eq_iff]
  push_cast
  omega

/-- The evidence serialises to no more than the bounds. -/
def WithinBounds (floatText : PyFloat → List UInt8) (evidence : List PyJson) : Prop :=
  ∃ texts, List.Forall₂ (fun value text => dumps floatText value = some text) evidence texts ∧
    (∀ text ∈ texts, (text.length : Int) ≤ maxSelectedEvidenceBytes) ∧
    ((texts.map List.length).sum : Int) ≤ maxSelectedEvidenceTotalBytes

theorem boundedSelectedEvidence_eq_ok {floatText : PyFloat → List UInt8} {evidence : PyJson}
    {size : Nat} (hshort : ShortInts evidence) (hnone : deletes evidence = 0)
    (h : boundedSelectedEvidence floatText evidence = .ok size) :
    ∃ text, dumps floatText evidence = some text ∧ text.length = size ∧
      (text.length : Int) ≤ maxSelectedEvidenceBytes := by
  obtain ⟨text, htext, hlength⟩ := dumps_length floatText evidence hshort
  rw [hnone, Nat.mul_zero, Nat.add_zero] at hlength
  rw [boundedSelectedEvidence, boundedCanonicalJsonSize_eq floatText _ hshort, ← hlength] at h
  by_cases hle : (text.length : Int) ≤ maxSelectedEvidenceBytes
  · rw [within, if_pos hle] at h
    exact ⟨text, htext, Except.ok.inj h, hle⟩
  · rw [within, if_neg hle] at h
    cases h

theorem selectedEvidenceBytes_bounds {floatText : PyFloat → List UInt8} {evidence : List PyJson}
    {total result : Nat} (hevidence : ∀ value ∈ evidence, ShortInts value ∧ deletes value = 0)
    (htotal : (total : Int) ≤ maxSelectedEvidenceTotalBytes)
    (h : selectedEvidenceBytes floatText total evidence = .ok result) :
    ∃ texts, List.Forall₂ (fun value text => dumps floatText value = some text) evidence texts ∧
      (∀ text ∈ texts, (text.length : Int) ≤ maxSelectedEvidenceBytes) ∧
      (total + (texts.map List.length).sum : Int) ≤ maxSelectedEvidenceTotalBytes := by
  induction evidence generalizing total with
  | nil =>
    refine ⟨[], .nil, List.forall_mem_nil _, ?_⟩
    simpa using htotal
  | cons value rest ih =>
    obtain ⟨hshort, hnone⟩ := hevidence value List.mem_cons_self
    obtain ⟨size, hsize, hrest⟩ := Result.bind_eq_ok.mp h
    by_cases hlarge : maxSelectedEvidenceTotalBytes - total < size
    · rw [if_pos hlarge] at hrest
      cases hrest
    · rw [if_neg hlarge] at hrest
      obtain ⟨text, htext, hlength, hle⟩ := boundedSelectedEvidence_eq_ok hshort hnone hsize
      have hnext : ((total + size : Nat) : Int) ≤ maxSelectedEvidenceTotalBytes := by
        push_cast
        omega
      obtain ⟨texts, htexts, hbound, hsum⟩ :=
        ih (fun v hv => hevidence v (List.mem_cons_of_mem _ hv)) hnext hrest
      refine ⟨text :: texts, .cons htext htexts, ?_, ?_⟩
      · exact List.forall_mem_cons.mpr ⟨hle, hbound⟩
      · rw [List.map_cons, List.sum_cons, hlength]
        push_cast at hsum ⊢
        omega

/-- The count is exact where `CountsAlike` holds and nowhere else.  Evidence without
U+007F that passes the bounds keeps them when it is serialised. -/
theorem size_exact_iff_countsAlike (floatText : PyFloat → List UInt8) :
    (∀ (value : PyJson) (limit : Int), ShortInts value →
      (Exact floatText value limit ↔ CountsAlike floatText value limit)) ∧
    ∀ (evidence : List PyJson) (total : Nat),
      (∀ value ∈ evidence, ShortInts value ∧ deletes value = 0) →
      selectedEvidenceBytes floatText 0 evidence = .ok total →
      WithinBounds floatText evidence := by
  refine ⟨fun value limit h => exact_iff floatText limit h, ?_⟩
  intro evidence total hevidence h
  obtain ⟨texts, htexts, hbound, hsum⟩ :=
    selectedEvidenceBytes_bounds hevidence (by decide) h
  refine ⟨texts, htexts, hbound, ?_⟩
  simpa using hsum

/-- The string of one U+007F has eight bytes and is counted with three. -/
theorem size_of_delete_within_limit :
    ¬∀ (floatText : PyFloat → List UInt8) (value : PyJson) (limit : Int), ShortInts value →
      Exact floatText value limit := by
  intro h
  have hshort : ShortInts (.str [127]) := trivial
  have hexact := h (fun _ => []) (.str [127]) 7 hshort
  obtain ⟨text, htext, hsize⟩ := hexact
  have hquote : canonicalJsonBytes (fun _ => []) (.str [127]) =
      some (quote [127] ++ ascii ['\n']) := rfl
  rw [hquote] at htext
  rw [boundedCanonicalJsonSize_eq _ _ hshort,
    ← List.append_cancel_right (Option.some.inj htext)] at hsize
  exact absurd (Except.ok.inj hsize) (by decide)

end SteamAgent.Evals.EvidenceSize
