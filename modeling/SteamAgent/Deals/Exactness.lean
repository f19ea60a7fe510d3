import Mathlib.Data.List.ReduceOption
import SteamAgent.Deals.GgDeals
import SteamAgent.Stdlib.Result

/-!
# When the GG.deals decoder is exact

What the decoder reads, in its order: the parts of an item, its URL and its
prices.  A part is rejected with a `GgDealsError`, or an exception escapes, or it is
taken, exactly or not.

There are five groups.

* `Spells`: the number of a price.
* `Step`: one part of an item.
* The steps of an item.
* The steps of a response: `decoded_iff`.
* A response.
-/

namespace SteamAgent.Deals

open Decimal (Number defaultContext Overflows Rounds finalize)
open Result (bind_eq_ok bind_eq_error)

/-! ## Numbers -/

/-- The price spells the number. -/
def Spells (value : JsonValue) (x : ℚ) : Prop :=
  ∃ negative magnitude, numberOf value = some (.finite negative magnitude) ∧
    x = if negative = true then -magnitude.toRat else magnitude.toRat

/-- The hundredfold is above the numbers of the context. -/
def Overflowing (x : ℚ) : Prop :=
  Overflows defaultContext (100 * |x|)

/-- The context makes the amount `k` of the hundredfold. -/
def Rounded (x : ℚ) (k : Nat) : Prop :=
  k ≤ maxSigned64 ∧
    if x = 0 then k = 0 else Rounds defaultContext (100 * |x|) k ∧ (0 < x ∨ k = 0)

theorem toRat_hundred (d : Decimal) : (d.scale 100).toRat = 100 * d.toRat := by
  rw [Decimal.toRat_scale, mul_comm]
  norm_num

theorem coefficient_scale (d : Decimal) (h : d.coefficient ≠ 0) : 0 < (d.scale 100).coefficient :=
  Nat.mul_pos (Nat.pos_of_ne_zero h) (by decide)

theorem toRat_ne_zero {d : Decimal} (h : d.coefficient ≠ 0) : 0 < d.toRat :=
  Decimal.toRat_pos (Nat.pos_of_ne_zero h)

theorem amount_bound {k : Nat} (h : k ≤ maxSigned64) : k < 10 ^ (defaultContext.precision - 1) := by
  have hbound : maxSigned64 < 10 ^ (defaultContext.precision - 1) := by decide
  omega

/-- The integers that the context makes of the hundredfold. -/
theorem finalized_eq_iff {d minor : Decimal} {k : Nat} (hk : k ≤ maxSigned64)
    (h : (d.scale 100).finalize defaultContext = some minor) :
    minor.toRat = k ↔
      if d.coefficient = 0 then k = 0 else Rounds defaultContext (100 * d.toRat) k := by
  by_cases hzero : d.coefficient = 0
  · rw [if_pos hzero]
    have hscaled : (d.scale 100).coefficient = 0 := by
      rw [Decimal.scale, hzero]
    rw [finalize, if_pos hscaled] at h
    rw [← Option.some.inj h, Decimal.toRat_zero rfl]
    exact ⟨fun heq => by exact_mod_cast heq.symm, fun heq => by rw [heq, Nat.cast_zero]⟩
  · rw [if_neg hzero, ← toRat_hundred]
    exact Decimal.finalize_eq_natCast_iff (coefficient_scale d hzero) (amount_bound hk) h

theorem amountOf_eq_ok {negative : Bool} {minor : Decimal} {money : Money} :
    amountOf negative minor = .ok money ↔
      money = usd money.amountMinor money.bounded ∧ minor.toRat = money.amountMinor ∧
        ¬(negative = true ∧ minor.coefficient ≠ 0) := by
  rw [amountOf]
  constructor
  · intro h
    split at h
    · rename_i hboth
      split at h
      · rename_i hle
        cases h
        obtain ⟨k, hinteger⟩ := (Decimal.equal_toIntegralValue_iff minor).mp hboth.1
        refine ⟨rfl, ?_, hboth.2⟩
        show minor.toRat = (minor.toInt : ℚ)
        rw [Decimal.toInt_eq hinteger, hinteger]
      · cases h
    · cases h
  · intro h
    obtain ⟨hmoney, hvalue, hsign⟩ := h
    have hint := Decimal.toInt_eq hvalue
    rw [if_pos ⟨(Decimal.equal_toIntegralValue_iff minor).mpr ⟨_, hvalue⟩, hsign⟩,
      dif_pos (by rw [hint]; exact money.bounded)]
    conv_rhs => rw [hmoney]
    congr 1
    simp only [usd, hint]

theorem amountOf_error {negative : Bool} {minor : Decimal} {e : Raised}
    (h : amountOf negative minor = .error e) : e = responseInvalid := by
  rw [amountOf] at h
  split at h
  · split at h
    · cases h
    · exact (Except.error.inj h).symm
  · exact (Except.error.inj h).symm

/-- A number is spelled with its sign. -/
theorem spelled_sign {negative : Bool} {d : Decimal} {x : ℚ}
    (h : x = if negative = true then -d.toRat else d.toRat) :
    |x| = d.toRat ∧ (x = 0 ↔ d.coefficient = 0) ∧
      (d.coefficient ≠ 0 → (0 < x ↔ negative = false)) := by
  have hnonneg : 0 ≤ d.toRat := by
    by_cases hzero : d.coefficient = 0
    · rw [Decimal.toRat_zero hzero]
    · exact (toRat_ne_zero hzero).le
  have hzero : d.toRat = 0 ↔ d.coefficient = 0 := by
    constructor
    · intro heq
      by_contra hne
      exact (toRat_ne_zero hne).ne' heq
    · exact Decimal.toRat_zero
  cases negative with
  | false =>
    rw [if_neg (by decide)] at h
    subst h
    refine ⟨abs_of_nonneg hnonneg, hzero, fun hne => ?_⟩
    exact iff_of_true (toRat_ne_zero hne) rfl
  | true =>
    rw [if_pos rfl] at h
    subst h
    refine ⟨by rw [abs_neg, abs_of_nonneg hnonneg], neg_eq_zero.trans hzero, fun hne => ?_⟩
    refine iff_of_false ?_ (by decide)
    have hpositive := toRat_ne_zero hne
    linarith

/-- The hundredfold of a spelled number overflows. -/
theorem finalize_eq_none {negative : Bool} {d : Decimal} {x : ℚ}
    (h : x = if negative = true then -d.toRat else d.toRat) :
    (d.scale 100).finalize defaultContext = none ↔ Overflowing x := by
  obtain ⟨habs, -, -⟩ := spelled_sign h
  rw [Overflowing, habs]
  by_cases hzero : d.coefficient = 0
  · have hscaled : (d.scale 100).coefficient = 0 := by
      rw [Decimal.scale, hzero]
    rw [finalize, if_pos hscaled, Decimal.toRat_zero hzero, mul_zero]
    refine iff_of_false (Option.some_ne_none _) (Decimal.not_overflows_of_lt ?_)
    exact Decimal.ten_zpow_pos _
  · rw [← toRat_hundred]
    exact Decimal.finalize_eq_none_iff (coefficient_scale d hzero)

/-- The amounts of a spelled number. -/
theorem amountOf_eq_ok_iff {negative : Bool} {d minor : Decimal} {x : ℚ}
    (h : x = if negative = true then -d.toRat else d.toRat)
    (hminor : (d.scale 100).finalize defaultContext = some minor) {money : Money} :
    amountOf negative minor = .ok money ↔
      money = usd money.amountMinor money.bounded ∧ Rounded x money.amountMinor := by
  obtain ⟨habs, hzero, hsign⟩ := spelled_sign h
  rw [amountOf_eq_ok, finalized_eq_iff money.bounded hminor, Rounded, habs]
  apply and_congr_right
  intro _
  rw [and_iff_right money.bounded]
  by_cases hcoefficient : d.coefficient = 0
  · rw [if_pos hcoefficient, if_pos (hzero.mpr hcoefficient)]
    apply and_iff_left
    intro hboth
    have hscaled : (d.scale 100).coefficient = 0 := by
      rw [Decimal.scale, hcoefficient]
    rw [finalize, if_pos hscaled] at hminor
    rw [← Option.some.inj hminor] at hboth
    exact hboth.2 rfl
  · rw [if_neg hcoefficient, if_neg (mt hzero.mp hcoefficient), hsign hcoefficient]
    apply and_congr_right
    intro hrounds
    have hvalue := (finalized_eq_iff money.bounded hminor).mpr
      ((if_neg hcoefficient).mpr hrounds)
    have hminorZero : minor.coefficient = 0 ↔ money.amountMinor = 0 := by
      constructor
      · intro hnone
        rw [Decimal.toRat_zero hnone] at hvalue
        exact_mod_cast hvalue.symm
      · intro hnone
        by_contra hne
        rw [hnone, Nat.cast_zero] at hvalue
        exact (toRat_ne_zero hne).ne' hvalue
    rw [← hminorZero]
    cases negative with
    | false => simp
    | true => simp

/-! ## Steps -/

/-- A part of an item, in the order in which the decoder reads them. -/
inductive Step where
  | malformed
  | url (value : String)
  | price (value : Option JsonValue)

/-- What the decoder does with a part. -/
def readStep : Step → Except Raised (Option Money)
  | .malformed => .error responseInvalid
  | .url value => (manualReference value).map fun _ => none
  | .price value => optionalUsd value

namespace Step

/-- An accepted URL without its `https://`, or a price whose hundredfold overflows. -/
def Escapes : Step → Prop
  | malformed => False
  | url value => ¬"https://".toList.isPrefixOf value.toList = true
  | price value => ∃ v x, value = some v ∧ Spells v x ∧ Overflowing x

/-- A malformed part, or a price that is no number or of which no amount is made. -/
def Rejected : Step → Prop
  | malformed => True
  | url _ => False
  | price value => ∃ v, value = some v ∧ v ≠ .null ∧
      ∀ x, Spells v x → ¬Overflowing x ∧ ∀ k, ¬Rounded x k

/-- A price of which another amount is made. -/
def Inexact : Step → Prop
  | price value => ∃ v x k, value = some v ∧ Spells v x ∧ ¬Overflowing x ∧ Rounded x k ∧
      (k : ℚ) ≠ 100 * x
  | _ => False

end Step

/-- An exception that is a `GgDealsError`. -/
def Raised.IsGgDeals : Raised → Prop
  | ggDeals .. => True
  | _ => False

theorem spells_unique {v : JsonValue} {x y : ℚ} (hx : Spells v x) (hy : Spells v y) : x = y := by
  obtain ⟨negative, d, hnumber, rfl⟩ := hx
  obtain ⟨negative', d', hnumber', rfl⟩ := hy
  rw [hnumber] at hnumber'
  cases hnumber'
  rfl

theorem not_spells_null {x : ℚ} : ¬Spells .null x := by
  intro h
  obtain ⟨_, _, hnumber, -⟩ := h
  cases hnumber

/-- A price that is not `null` is read as a number. -/
theorem optionalUsd_some {v : JsonValue} (h : v ≠ .null) :
    optionalUsd (some v) =
      match numberOf v with
      | none | some .special => .error responseInvalid
      | some (.finite negative magnitude) =>
        match (magnitude.scale 100).finalize defaultContext with
        | none => .error .overflow
        | some minor => (amountOf negative minor).map some := by
  cases v with
  | null => exact absurd rfl h
  | _ => rfl

/-- The ways a price that spells a number is read. -/
theorem optionalUsd_of_spells {v : JsonValue} {x : ℚ} (h : Spells v x) :
    (Overflowing x → optionalUsd (some v) = .error .overflow) ∧
      (¬Overflowing x → (∀ money, optionalUsd (some v) = .ok (some money) ↔
          money = usd money.amountMinor money.bounded ∧ Rounded x money.amountMinor) ∧
        optionalUsd (some v) ≠ .ok none ∧
        ∀ e, optionalUsd (some v) = .error e → e = responseInvalid) := by
  have hnull : v ≠ .null := fun heq => not_spells_null (heq ▸ h)
  obtain ⟨negative, d, hnumber, hx⟩ := h
  rw [optionalUsd_some hnull, hnumber]
  dsimp only
  cases hminor : (d.scale 100).finalize defaultContext with
  | none =>
    have hoverflows := (finalize_eq_none hx).mp hminor
    exact ⟨fun _ => rfl, fun hnot => absurd hoverflows hnot⟩
  | some minor =>
    have hnot : ¬Overflowing x := by
      rw [← finalize_eq_none hx, hminor]
      nofun
    refine ⟨fun hoverflows => absurd hoverflows hnot, fun _ => ?_⟩
    dsimp only
    cases hamount : amountOf negative minor with
    | error e =>
      refine ⟨fun money => ?_, nofun, ?_⟩
      · rw [← amountOf_eq_ok_iff hx hminor, hamount]
        exact iff_of_false nofun nofun
      · intro e' heq
        rw [← Except.error.inj heq]
        exact amountOf_error hamount
    | ok money' =>
      refine ⟨fun money => ?_, nofun, nofun⟩
      rw [← amountOf_eq_ok_iff hx hminor, hamount]
      constructor
      · intro heq
        rw [Option.some.inj (Except.ok.inj heq)]
      · intro heq
        rw [Except.ok.inj heq]
        rfl

/-- A price that spells no number is rejected. -/
theorem optionalUsd_of_not_spells {v : JsonValue} (hnull : v ≠ .null) (h : ∀ x, ¬Spells v x) :
    optionalUsd (some v) = .error responseInvalid := by
  rw [optionalUsd_some hnull]
  cases hnumber : numberOf v with
  | none => rfl
  | some number =>
    cases number with
    | special => rfl
    | finite negative d => exact absurd ⟨negative, d, hnumber, rfl⟩ (h _)

theorem readStep_of_escapes {step : Step} (h : step.Escapes) :
    ∃ e, readStep step = .error e ∧ ¬e.IsGgDeals := by
  cases step with
  | malformed => exact h.elim
  | url value =>
    refine ⟨.valueError, ?_, id⟩
    rw [readStep, manualReference, dif_neg h]
    rfl
  | price value =>
    obtain ⟨v, x, rfl, hspells, hoverflows⟩ := h
    exact ⟨.overflow, (optionalUsd_of_spells hspells).1 hoverflows, id⟩

theorem readStep_of_rejected {step : Step} (h : step.Rejected) :
    readStep step = .error responseInvalid := by
  cases step with
  | malformed => rfl
  | url value => exact h.elim
  | price value =>
    obtain ⟨v, rfl, hnull, hnone⟩ := h
    by_cases hspells : ∃ x, Spells v x
    · obtain ⟨x, hspells⟩ := hspells
      obtain ⟨hoverflows, hrounded⟩ := hnone x hspells
      obtain ⟨hok, hnone', herror⟩ := (optionalUsd_of_spells hspells).2 hoverflows
      rw [readStep]
      cases hresult : optionalUsd (some v) with
      | error e => rw [herror e hresult]
      | ok money =>
        cases money with
        | none => exact absurd hresult hnone'
        | some money => exact absurd ((hok money).mp hresult).2 (hrounded _)
    · exact optionalUsd_of_not_spells hnull (not_exists.mp hspells)

theorem readStep_of_taken {step : Step} (hescapes : ¬step.Escapes) (hrejected : ¬step.Rejected) :
    ∃ money, readStep step = .ok money := by
  cases step with
  | malformed => exact absurd trivial hrejected
  | url value =>
    rw [Step.Escapes, not_not] at hescapes
    refine ⟨none, ?_⟩
    rw [readStep, manualReference, dif_pos hescapes]
    rfl
  | price value =>
    cases value with
    | none => exact ⟨none, rfl⟩
    | some v =>
      by_cases hnull : v = .null
      · subst hnull
        exact ⟨none, rfl⟩
      · have hsome : ∃ x, Spells v x ∧ ∃ k, Rounded x k := by
          by_contra hnot
          push Not at hnot
          refine hrejected ⟨v, rfl, hnull, fun x hspells => ⟨?_, hnot x hspells⟩⟩
          intro hoverflows
          exact hescapes ⟨v, x, rfl, hspells, hoverflows⟩
        obtain ⟨x, hspells, k, hrounded⟩ := hsome
        have hoverflows : ¬Overflowing x := fun h => hescapes ⟨v, x, rfl, hspells, h⟩
        exact ⟨_, (((optionalUsd_of_spells hspells).2 hoverflows).1 (usd k hrounded.1)).mpr
          ⟨rfl, hrounded⟩⟩

/-- A price that is taken is the amount of the number that it spells. -/
theorem spells_of_optionalUsd {value : Option JsonValue} {money : Money}
    (h : optionalUsd value = .ok (some money)) :
    ∃ v x, value = some v ∧ Spells v x ∧ ¬Overflowing x ∧ Rounded x money.amountMinor := by
  cases value with
  | none => cases h
  | some v =>
    by_cases hnull : v = .null
    · subst hnull
      cases h
    · by_cases hspells : ∃ x, Spells v x
      · obtain ⟨x, hspells⟩ := hspells
        have hoverflows : ¬Overflowing x := by
          intro hover
          rw [(optionalUsd_of_spells hspells).1 hover] at h
          cases h
        exact ⟨v, x, rfl, hspells, hoverflows,
          ((((optionalUsd_of_spells hspells).2 hoverflows).1 money).mp h).2⟩
      · rw [optionalUsd_of_not_spells hnull (not_exists.mp hspells)] at h
        cases h

/-! ## The steps of an item -/

/-- Some step is rejected, and none escapes before it. -/
def Refused (steps : List Step) : Prop :=
  ∃ front step back, steps = front ++ step :: back ∧ step.Rejected ∧ ∀ s ∈ front, ¬s.Escapes

theorem refused_cons {step : Step} {steps : List Step} :
    Refused (step :: steps) ↔ step.Rejected ∨ ¬step.Escapes ∧ Refused steps := by
  constructor
  · intro h
    obtain ⟨front, rejected, back, heq, hrejected, hfront⟩ := h
    cases front with
    | nil =>
      cases heq
      exact .inl hrejected
    | cons first front =>
      cases heq
      refine .inr ⟨hfront _ List.mem_cons_self, front, rejected, back, rfl, hrejected, ?_⟩
      exact fun s hs => hfront s (List.mem_cons_of_mem _ hs)
  · intro h
    rcases h with hrejected | ⟨hescapes, front, rejected, back, rfl, hrejected, hfront⟩
    · exact ⟨[], step, steps, rfl, hrejected, nofun⟩
    · exact ⟨step :: front, rejected, back, rfl, hrejected,
        List.forall_mem_cons.mpr ⟨hescapes, hfront⟩⟩

/-- The steps that end with a `GgDealsError`. -/
theorem refused_iff {steps : List Step} :
    Refused steps ↔ ∃ e, steps.mapM readStep = .error e ∧ e.IsGgDeals := by
  induction steps with
  | nil =>
    refine iff_of_false ?_ ?_
    · intro h
      obtain ⟨front, step, back, heq, -⟩ := h
      cases front <;> cases heq
    · intro h
      obtain ⟨e, herror, -⟩ := h
      cases herror
  | cons step steps ih =>
    rw [refused_cons, List.mapM_cons]
    by_cases hrejected : step.Rejected
    · rw [readStep_of_rejected hrejected]
      exact iff_of_true (.inl hrejected) ⟨_, rfl, trivial⟩
    · by_cases hescapes : step.Escapes
      · obtain ⟨e, herror, hnot⟩ := readStep_of_escapes hescapes
        rw [herror]
        refine iff_of_false ?_ ?_
        · intro h
          exact h.elim hrejected fun h => h.1 hescapes
        · intro h
          obtain ⟨e', heq, hgg⟩ := h
          cases heq
          exact hnot hgg
      · obtain ⟨money, hok⟩ := readStep_of_taken hescapes hrejected
        rw [hok, or_iff_right hrejected, and_iff_right hescapes, ih]
        exact exists_congr fun e => and_congr_left fun _ =>
          (Result.FailsAs.pure (fun _ => Iff.rfl) e).symm

/-- The steps that are all taken. -/
theorem taken_iff {steps : List Step} :
    (∀ s ∈ steps, ¬s.Escapes ∧ ¬s.Rejected) ↔ ∃ results, steps.mapM readStep = .ok results := by
  constructor
  · intro h
    induction steps with
    | nil => exact ⟨[], rfl⟩
    | cons step steps ih =>
      obtain ⟨⟨hescapes, hrejected⟩, hsteps⟩ := List.forall_mem_cons.mp h
      obtain ⟨money, hok⟩ := readStep_of_taken hescapes hrejected
      obtain ⟨results, hresults⟩ := ih hsteps
      refine ⟨money :: results, ?_⟩
      rw [List.mapM_cons, hok, hresults]
      rfl
  · intro h s hs
    obtain ⟨results, hresults⟩ := h
    obtain ⟨money, -, hok⟩ := Result.exists_of_mem_left (Result.mapM_eq_ok_iff.mp hresults) hs
    constructor
    · intro hescapes
      obtain ⟨e, herror, -⟩ := readStep_of_escapes hescapes
      rw [hok] at herror
      cases herror
    · intro hrejected
      rw [readStep_of_rejected hrejected] at hok
      cases hok

/-- The prices under some fields, as steps. -/
def priceSteps {α : Type} (prices : List (String × JsonValue)) (fields : List (String × α)) :
    List Step :=
  fields.flatMap fun field => [.price (JsonValue.get prices field.1)]

/-- The steps of an item. -/
def itemSteps (lib : Library) (item : JsonValue) : List Step :=
  match partsOf lib item with
  | none => [.malformed]
  | some (prices, url) =>
    [.url url] ++ (priceSteps prices currentFields ++ priceSteps prices historyFields)

theorem failsAs_readPrices {α β : Type} {prices : List (String × JsonValue)}
    {fields : List (String × α)} {make : α → Money → β} :
    Result.FailsAs (readPrices prices fields make) ((priceSteps prices fields).mapM readStep) := by
  refine Result.FailsAs.pure (Result.failsAs_flatMap fun field _ => ?_)
  rw [List.mapM_cons]
  exact Result.FailsAs.bind (fun _ => Iff.rfl) fun _ _ _ => iff_of_false nofun nofun

theorem failsAs_interpretItem {lib : Library} {item : JsonValue} {product : ProductIdentity}
    {observedAt : String} :
    Result.FailsAs (interpretItem lib item product observedAt)
      ((itemSteps lib item).mapM readStep) := by
  rw [interpretItem, itemSteps]
  cases partsOf lib item with
  | none => exact Result.failsAs_error
  | some parts =>
    refine Result.failsAs_append ?_ fun url => ?_
    · rw [List.mapM_cons, readStep]
      cases manualReference parts.2 with
      | error e => exact Result.failsAs_error
      | ok reference => exact fun e => iff_of_false nofun nofun
    · refine Result.failsAs_append failsAs_readPrices fun offers => ?_
      exact Result.FailsAs.pure failsAs_readPrices

/-- The amount is a hundred times the number under the field. -/
def FieldExact (prices : List (String × JsonValue)) (field : String) (money : Money) : Prop :=
  ∃ v x, JsonValue.get prices field = some v ∧ Spells v x ∧ (money.amountMinor : ℚ) = 100 * x

/-- The records that are made of the prices under some fields. -/
theorem mem_readPrices {α β : Type} {prices : List (String × JsonValue)}
    {fields : List (String × α)} {make : α → Money → β} {results : List β}
    (h : readPrices prices fields make = .ok results) (r : β) :
    r ∈ results ↔ ∃ field ∈ fields, ∃ money,
      optionalUsd (JsonValue.get prices field.1) = .ok (some money) ∧ r = make field.2 money := by
  obtain ⟨read, hread, hresults⟩ := bind_eq_ok.mp h
  cases hresults
  have hall := Result.mapM_eq_ok_iff.mp hread
  rw [List.reduceOption_mem_iff]
  constructor
  · intro hr
    obtain ⟨field, hfield, hmade⟩ := Result.exists_of_mem_right hall hr
    obtain ⟨price, hprice, hmade⟩ := bind_eq_ok.mp hmade
    obtain ⟨money, rfl, hr⟩ := Option.map_eq_some_iff.mp (Except.ok.inj hmade)
    exact ⟨field, hfield, money, hprice, hr.symm⟩
  · intro hr
    obtain ⟨field, hfield, money, hprice, rfl⟩ := hr
    obtain ⟨made, hmem, hmade⟩ := Result.exists_of_mem_left hall hfield
    obtain ⟨price, hprice', hmade⟩ := bind_eq_ok.mp hmade
    rw [hprice] at hprice'
    cases hprice'
    cases hmade
    exact hmem

/-- The records are exact when no price is taken for another amount, where each field has
records of its own. -/
theorem readPrices_exact_iff {α β : Type} {prices : List (String × JsonValue)}
    {fields : List (String × α)} {make : α → Money → β} {results : List β} (tag : β → α)
    (price : β → Money) (htag : ∀ a money, tag (make a money) = a)
    (hprice : ∀ a money, price (make a money) = money)
    (hfields : ∀ f ∈ fields, ∀ f' ∈ fields, f.2 = f'.2 → f = f')
    (h : readPrices prices fields make = .ok results) :
    (∀ r ∈ results, ∃ field ∈ fields, field.2 = tag r ∧ FieldExact prices field.1 (price r)) ↔
      ∀ s ∈ priceSteps prices fields, ¬s.Inexact := by
  constructor
  · intro hexact s hs hinexact
    obtain ⟨field, hfield, hs⟩ := List.mem_flatMap.mp hs
    rw [List.mem_singleton.mp hs] at hinexact
    obtain ⟨v, x, k, hget, hspells, hoverflows, hrounded, hne⟩ := hinexact
    have htaken := (((optionalUsd_of_spells hspells).2 hoverflows).1
      (usd k hrounded.1)).mpr ⟨rfl, hrounded⟩
    have hmem := (mem_readPrices h (make field.2 (usd k hrounded.1))).mpr
      ⟨field, hfield, _, by rw [hget, htaken], rfl⟩
    obtain ⟨field', hfield', hsame, v', x', hget', hspells', hvalue⟩ := hexact _ hmem
    rw [htag] at hsame
    rw [hfields field' hfield' field hfield hsame, hget] at hget'
    cases hget'
    rw [hprice, spells_unique hspells' hspells] at hvalue
    exact hne hvalue
  · intro hnone r hr
    obtain ⟨field, hfield, money, htaken, rfl⟩ := (mem_readPrices h r).mp hr
    refine ⟨field, hfield, (htag _ _).symm, ?_⟩
    rw [hprice]
    obtain ⟨v, x, hget, hspells, hoverflows, hrounded⟩ := spells_of_optionalUsd htaken
    refine ⟨v, x, hget, hspells, ?_⟩
    by_contra hne
    exact hnone _ (List.mem_flatMap.mpr ⟨field, hfield, List.mem_singleton.mpr rfl⟩)
      ⟨v, x, _, hget, hspells, hoverflows, hrounded, hne⟩

theorem currentFields_separate :
    ∀ f ∈ currentFields, ∀ f' ∈ currentFields, f.2 = f'.2 → f = f' := by
  decide

theorem historyFields_separate :
    ∀ f ∈ historyFields, ∀ f' ∈ historyFields, f.2 = f'.2 → f = f' := by
  decide

/-- Each amount of the snapshot is a hundred times the number under its field. -/
def SnapshotExact (prices : List (String × JsonValue)) (snapshot : DealEvidenceSnapshot) : Prop :=
  (∀ offer ∈ snapshot.offers, ∃ field ∈ currentFields, field.2 = offer.storeClass ∧
      FieldExact prices field.1 offer.price) ∧
    ∀ low ∈ snapshot.historyLows, ∃ field ∈ historyFields, field.2 = low.scope ∧
      FieldExact prices field.1 low.price

/-- The snapshot of an item. -/
theorem interpretItem_eq_ok {lib : Library} {item : JsonValue} {product : ProductIdentity}
    {observedAt : String} {snapshot : DealEvidenceSnapshot}
    (h : interpretItem lib item product observedAt = .ok snapshot) :
    snapshot.product = product ∧ ∃ prices url, partsOf lib item = some (prices, url) ∧
      (SnapshotExact prices snapshot ↔ ∀ s ∈ itemSteps lib item, ¬s.Inexact) := by
  rw [interpretItem] at h
  cases hparts : partsOf lib item with
  | none =>
    rw [hparts] at h
    cases h
  | some parts =>
    rw [hparts] at h
    obtain ⟨url, -, h⟩ := bind_eq_ok.mp h
    obtain ⟨offers, hoffers, h⟩ := bind_eq_ok.mp h
    obtain ⟨lows, hlows, h⟩ := bind_eq_ok.mp h
    cases h
    refine ⟨rfl, parts.1, parts.2, rfl, ?_⟩
    have hcurrent := readPrices_exact_iff OfferEvidence.storeClass OfferEvidence.price
      (fun _ _ => rfl) (fun _ _ => rfl) currentFields_separate hoffers
    have hhistory := readPrices_exact_iff HistoricalLowSummary.scope HistoricalLowSummary.price
      (fun _ _ => rfl) (fun _ _ => rfl) historyFields_separate hlows
    rw [itemSteps, hparts]
    show _ ↔ ∀ s ∈ _ ++ (_ ++ _), _
    rw [List.forall_mem_append, List.forall_mem_append, ← hcurrent, ← hhistory,
      List.forall_mem_singleton]
    exact (and_iff_right id).symm

/-! ## The steps of a response -/

/-- The steps of the items of the requested AppIDs. -/
def batchSteps (lib : Library) (data : List (String × JsonValue)) (requested : List AppId) :
    List Step :=
  requested.flatMap fun appid => ((itemOf data appid).map (itemSteps lib)).getD []

theorem failsAs_interpretAppid {lib : Library} {data : List (String × JsonValue)}
    {observedAt : String} {appid : AppId} :
    Result.FailsAs (interpretAppid lib data observedAt appid)
      ((((itemOf data appid).map (itemSteps lib)).getD []).mapM readStep) := by
  rw [interpretAppid]
  cases itemOf data appid with
  | none => exact fun e => iff_of_false nofun nofun
  | some item => exact fun e => (Result.failsAs_map e).trans (failsAs_interpretItem e)

/-- The requested AppIDs are each found or not found, with exact amounts. -/
def Exact (lib : Library) (data : List (String × JsonValue)) (requested : List AppId)
    (batch : GgDealsBatch) : Prop :=
  (∀ appid ∈ requested, (appid ∈ batch.notFoundAppids ↔
      ∀ snapshot ∈ batch.snapshots, snapshot.product ≠ productOf appid)) ∧
    (∀ appid ∈ batch.notFoundAppids, appid ∈ requested) ∧
    ∀ snapshot ∈ batch.snapshots, ∃ appid ∈ requested, snapshot.product = productOf appid ∧
      ∃ item prices url, itemOf data appid = some item ∧
        partsOf lib item = some (prices, url) ∧ SnapshotExact prices snapshot

theorem productOf_injective : Function.Injective productOf := by
  intro appid appid' h
  have hvalue : appid.value = appid'.value := congrArg ProductIdentity.steamAppid h
  cases appid
  cases appid'
  cases hvalue
  rfl

/-- The snapshots that the loop over the requested AppIDs makes. -/
theorem mem_found {lib : Library} {data : List (String × JsonValue)} {observedAt : String}
    {requested : List AppId} {found : List (Option DealEvidenceSnapshot)}
    (h : requested.mapM (interpretAppid lib data observedAt) = .ok found)
    (snapshot : DealEvidenceSnapshot) :
    snapshot ∈ found.reduceOption ↔ ∃ appid ∈ requested, ∃ item, itemOf data appid = some item ∧
      interpretItem lib item (productOf appid) observedAt = .ok snapshot := by
  have hall := Result.mapM_eq_ok_iff.mp h
  rw [List.reduceOption_mem_iff]
  constructor
  · intro hmem
    obtain ⟨appid, happid, hmade⟩ := Result.exists_of_mem_right hall hmem
    refine ⟨appid, happid, ?_⟩
    rw [interpretAppid] at hmade
    cases hitem : itemOf data appid with
    | none =>
      rw [hitem] at hmade
      cases hmade
    | some item =>
      rw [hitem] at hmade
      refine ⟨item, rfl, ?_⟩
      cases hresult : interpretItem lib item (productOf appid) observedAt with
      | error e =>
        simp only [hresult] at hmade
        cases hmade
      | ok made =>
        simp only [hresult] at hmade
        cases hmade
        rfl
  · intro hmem
    obtain ⟨appid, happid, item, hitem, hmade⟩ := hmem
    obtain ⟨made, hmem, hmade'⟩ := Result.exists_of_mem_left hall happid
    rw [interpretAppid, hitem] at hmade'
    simp only [hmade] at hmade'
    cases hmade'
    exact hmem

/-- Each requested AppID whose item is there gets a snapshot. -/
theorem exists_found {lib : Library} {data : List (String × JsonValue)} {observedAt : String}
    {requested : List AppId} {found : List (Option DealEvidenceSnapshot)}
    (h : requested.mapM (interpretAppid lib data observedAt) = .ok found) {appid : AppId}
    (happid : appid ∈ requested) {item : JsonValue} (hitem : itemOf data appid = some item) :
    ∃ snapshot, interpretItem lib item (productOf appid) observedAt = .ok snapshot := by
  obtain ⟨made, -, hmade⟩ := Result.exists_of_mem_left (Result.mapM_eq_ok_iff.mp h) happid
  rw [interpretAppid, hitem] at hmade
  cases hresult : interpretItem lib item (productOf appid) observedAt with
  | error e =>
    simp only [hresult] at hmade
    cases hmade
  | ok snapshot => exact ⟨snapshot, rfl⟩

/-- A batch is exact when no price is taken for another amount. -/
theorem exact_iff {lib : Library} {data : List (String × JsonValue)} {observedAt : String}
    {requested : List AppId} {found : List (Option DealEvidenceSnapshot)} (batch : GgDealsBatch)
    (h : requested.mapM (interpretAppid lib data observedAt) = .ok found)
    (hsnapshots : batch.snapshots = found.reduceOption)
    (hnotFound : batch.notFoundAppids =
      requested.filter fun appid => (itemOf data appid).isNone) :
    Exact lib data requested batch ↔ ∀ s ∈ batchSteps lib data requested, ¬s.Inexact := by
  have hitems : ∀ appid ∈ requested, ∀ item, itemOf data appid = some item →
      ∃ snapshot ∈ batch.snapshots, snapshot.product = productOf appid ∧
        ∃ prices url, partsOf lib item = some (prices, url) ∧
          (SnapshotExact prices snapshot ↔ ∀ s ∈ itemSteps lib item, ¬s.Inexact) := by
    intro appid happid item hitem
    obtain ⟨snapshot, hsnapshot⟩ := exists_found h happid hitem
    refine ⟨snapshot, ?_, interpretItem_eq_ok hsnapshot⟩
    rw [hsnapshots, mem_found h]
    exact ⟨appid, happid, item, hitem, hsnapshot⟩
  constructor
  · intro hexact s hs
    obtain ⟨appid, happid, hs⟩ := List.mem_flatMap.mp hs
    cases hitem : itemOf data appid with
    | none =>
      rw [hitem] at hs
      cases hs
    | some item =>
      rw [hitem] at hs
      obtain ⟨snapshot, hmem, hproduct, prices, url, hparts, hiff⟩ := hitems appid happid item hitem
      obtain ⟨appid', -, hproduct', item', prices', url', hitem', hparts', hsnapshot⟩ :=
        hexact.2.2 snapshot hmem
      rw [← productOf_injective (hproduct.symm.trans hproduct'), hitem] at hitem'
      cases hitem'
      rw [hparts] at hparts'
      cases hparts'
      exact hiff.mp hsnapshot s hs
  · intro hnone
    refine ⟨?_, ?_, ?_⟩
    · intro appid happid
      rw [hnotFound, List.mem_filter, and_iff_right happid, Option.isNone_iff_eq_none]
      constructor
      · intro hitem snapshot hmem hproduct
        rw [hsnapshots, mem_found h] at hmem
        obtain ⟨appid', -, item, hitem', hmade⟩ := hmem
        have hsame := productOf_injective ((interpretItem_eq_ok hmade).1.symm.trans hproduct)
        rw [hsame, hitem] at hitem'
        cases hitem'
      · intro hall
        by_contra hitem
        obtain ⟨item, hitem⟩ := Option.ne_none_iff_exists'.mp hitem
        obtain ⟨snapshot, hmem, hproduct, -⟩ := hitems appid happid item hitem
        exact hall snapshot hmem hproduct
    · intro appid happid
      rw [hnotFound] at happid
      exact List.mem_of_mem_filter happid
    · intro snapshot hmem
      rw [hsnapshots, mem_found h] at hmem
      obtain ⟨appid, happid, item, hitem, hmade⟩ := hmem
      obtain ⟨hproduct, prices, url, hparts, hiff⟩ := interpretItem_eq_ok hmade
      refine ⟨appid, happid, hproduct, item, prices, url, hitem, hparts, hiff.mpr ?_⟩
      intro s hs
      refine hnone s (List.mem_flatMap.mpr ⟨appid, happid, ?_⟩)
      rw [hitem]
      exact hs

theorem failsAs_loop {lib : Library} {data : List (String × JsonValue)} {observedAt : String}
    {requested : List AppId} :
    Result.FailsAs (requested.mapM (interpretAppid lib data observedAt))
      ((batchSteps lib data requested).mapM readStep) :=
  Result.failsAs_flatMap fun _ _ => failsAs_interpretAppid

/-- The loop stops with a `GgDealsError`, or each of its steps is taken exactly. -/
def Settled (steps : List Step) : Prop :=
  Refused steps ∨ ∀ s ∈ steps, ¬s.Escapes ∧ ¬s.Inexact

/-- What the decoder may do: it raises a `GgDealsError`, or it returns an exact batch. -/
def Decoded (lib : Library) (response : HttpResponse) (requested : List AppId)
    (result : Except Raised GgDealsBatch) : Prop :=
  (∃ e, result = .error e ∧ e.IsGgDeals) ∨
    ∃ batch, result = .ok batch ∧ ∃ payload data, (lib.scan response.body).2 = some payload ∧
      dataOf requested payload = some data ∧ Exact lib data requested batch

/-- The responses that are decoded so. -/
def Decodable (lib : Library) (response : HttpResponse) (requested : List AppId) : Prop :=
  response.status = 200 → response.body.length ≤ maxResponseBytes →
    (∀ literal ∈ (lib.scan response.body).1, holdsLiteral literal = true) ∧
      ∀ payload data, (lib.scan response.body).2 = some payload →
        withinBounds maxJsonNodes [(payload, 1)] = true → dataOf requested payload = some data →
        Settled (batchSteps lib data requested)

theorem raiseForStatus_eq_ok {response : HttpResponse} :
    raiseForStatus response = .ok () ↔ response.status = 200 := by
  rw [raiseForStatus]
  split_ifs <;> simp <;> omega

theorem raiseForStatus_error {response : HttpResponse} {e : Raised}
    (h : raiseForStatus response = .error e) : e.IsGgDeals := by
  rw [raiseForStatus] at h
  split_ifs at h <;> cases h <;> trivial

theorem decoded_error {lib : Library} {response : HttpResponse} {requested : List AppId}
    {e : Raised} : Decoded lib response requested (.error e) ↔ e.IsGgDeals := by
  constructor
  · intro h
    rcases h with ⟨e', heq, hgg⟩ | ⟨batch, heq, -⟩
    · cases heq
      exact hgg
    · cases heq
  · intro h
    exact .inl ⟨e, rfl, h⟩

/-- The loop over the requested AppIDs. -/
theorem decoded_loop {lib : Library} {response : HttpResponse} {requested : List AppId}
    {observedAt : String} {payload : JsonValue} {data : List (String × JsonValue)}
    (hpayload : (lib.scan response.body).2 = some payload)
    (hdata : dataOf requested payload = some data) :
    Decoded lib response requested (do
      let found ← requested.mapM (interpretAppid lib data observedAt)
      return {
        requestedAppids := requested
        snapshots := found.reduceOption
        notFoundAppids := requested.filter fun appid => (itemOf data appid).isNone
        rateLimit := rateLimitMetadata lib response.headers }) ↔
      Settled (batchSteps lib data requested) := by
  cases hfound : requested.mapM (interpretAppid lib data observedAt) with
  | error e =>
    show Decoded lib response requested (.error e) ↔ _
    have hsteps := (failsAs_loop e).mp hfound
    rw [decoded_error, Settled, refused_iff]
    constructor
    · intro hgg
      exact .inl ⟨e, hsteps, hgg⟩
    · intro h
      rcases h with ⟨e', herror, hgg⟩ | hall
      · rw [hsteps] at herror
        cases herror
        exact hgg
      · by_contra hgg
        have hrefused : ¬Refused (batchSteps lib data requested) := by
          rw [refused_iff]
          intro h
          obtain ⟨e', herror, hgg'⟩ := h
          rw [hsteps] at herror
          cases herror
          exact hgg hgg'
        have htaken : ∀ s ∈ batchSteps lib data requested, ¬s.Escapes ∧ ¬s.Rejected := by
          intro s hs
          refine ⟨(hall s hs).1, fun hrejected => hrefused ?_⟩
          obtain ⟨front, back, heq⟩ := List.append_of_mem hs
          refine ⟨front, s, back, heq, hrejected, fun s' hs' => (hall s' ?_).1⟩
          rw [heq]
          exact List.mem_append_left _ hs'
        obtain ⟨results, hresults⟩ := taken_iff.mp htaken
        rw [hsteps] at hresults
        cases hresults
  | ok found =>
    have htaken : ∀ s ∈ batchSteps lib data requested, ¬s.Escapes ∧ ¬s.Rejected := by
      rw [taken_iff]
      cases hsteps : (batchSteps lib data requested).mapM readStep with
      | error e =>
        rw [(failsAs_loop e).mpr hsteps] at hfound
        cases hfound
      | ok results => exact ⟨results, rfl⟩
    have hexact := exact_iff ⟨requested, found.reduceOption,
      requested.filter fun appid => (itemOf data appid).isNone,
      rateLimitMetadata lib response.headers⟩ hfound rfl rfl
    constructor
    · intro h
      rcases h with ⟨e, heq, -⟩ | ⟨batch, heq, payload', data', hpayload', hdata', h⟩
      · cases heq
      · cases heq
        rw [hpayload] at hpayload'
        cases hpayload'
        rw [hdata] at hdata'
        cases hdata'
        exact .inr fun s hs => ⟨(htaken s hs).1, hexact.mp h s hs⟩
    · intro h
      refine .inr ⟨_, rfl, payload, data, hpayload, hdata, hexact.mpr fun s hs => ?_⟩
      rcases h with ⟨front, step, back, heq, hrejected, -⟩ | hall
      · refine absurd hrejected (htaken step ?_).2
        rw [heq]
        exact List.mem_append_right _ List.mem_cons_self
      · exact (hall s hs).2

/-- The decoder raises a `GgDealsError` or returns an exact batch for these responses, and
for no other. -/
theorem decoded_iff (lib : Library) (response : HttpResponse) (requested : List AppId)
    (observedAt : String) :
    Decoded lib response requested (interpretBatchResponse lib response requested observedAt) ↔
      Decodable lib response requested := by
  rw [interpretBatchResponse, Decodable]
  cases hstatus : raiseForStatus response with
  | error e =>
    refine iff_of_true (decoded_error.mpr (raiseForStatus_error hstatus)) fun h => ?_
    rw [raiseForStatus_eq_ok.mpr h] at hstatus
    cases hstatus
  | ok _ =>
    rw [forall_prop_of_true (raiseForStatus_eq_ok.mp hstatus)]
    show Decoded lib response requested (if _ then _ else _) ↔ _
    by_cases hlength : maxResponseBytes < response.body.length
    · rw [if_pos hlength]
      exact iff_of_true (decoded_error.mpr trivial) fun h => absurd h (Nat.not_le.mpr hlength)
    · rw [if_neg hlength, forall_prop_of_true (Nat.not_lt.mp hlength), decodeBoundedJson]
      by_cases hliterals : (lib.scan response.body).1.all holdsLiteral = true
      · rw [if_neg (not_not.mpr hliterals), and_iff_right (List.all_eq_true.mp hliterals)]
        cases hpayload : (lib.scan response.body).2 with
        | none =>
          refine iff_of_true (decoded_error.mpr trivial) ?_
          intro payload data heq
          cases heq
        | some payload =>
          dsimp only
          by_cases hbounds : withinBounds maxJsonNodes [(payload, 1)] = true
          · rw [if_pos hbounds]
            dsimp only [bind, Except.bind]
            cases hdata : dataOf requested payload with
            | none =>
              refine iff_of_true (decoded_error.mpr trivial) ?_
              intro payload' data heq _ hdata'
              cases heq
              rw [hdata] at hdata'
              cases hdata'
            | some data =>
              refine (decoded_loop hpayload hdata).trans ?_
              constructor
              · intro h payload' data' heq _ hdata'
                cases heq
                rw [hdata] at hdata'
                cases hdata'
                exact h
              · intro h
                exact h payload data rfl hbounds hdata
          · rw [if_neg hbounds]
            refine iff_of_true (decoded_error.mpr trivial) ?_
            intro payload' data heq hbounds'
            cases heq
            exact absurd hbounds' hbounds
      · rw [if_pos hliterals]
        refine iff_of_false (fun h => decoded_error.mp h) fun h => hliterals ?_
        exact List.all_eq_true.mpr h.1

/-! ## A response -/

/-- A response whose price is a number that overflows when it is taken a hundredfold. -/
def steepBody : List UInt8 :=
  ("\x7b\"success\":true,\"data\":\x7b\"620\":\x7b\"prices\":".toList ++
    "\x7b\"currentRetail\":1e999999\x7d,\"url\":".toList ++
    "\"https://gg.deals/game/portal-2/\"\x7d\x7d\x7d".toList).map fun c => c.toNat.toUInt8

def steepPayload : JsonValue :=
  .obj [("success", .bool true),
    ("data", .obj [("620", .obj [("prices", .obj [("currentRetail", .float "1e999999")]),
      ("url", .str "https://gg.deals/game/portal-2/")])])]

/-- `json.loads` and `urlsplit` on the response. -/
def steepLibrary : Library where
  scan body := if body = steepBody then (["1e999999"], some steepPayload) else ([], none)
  urlsplit url :=
    if url = "https://gg.deals/game/portal-2/" then
      some ⟨"https", none, none, some "gg.deals", none, "/game/portal-2/", "", ""⟩
    else none
  lower name := String.ofList (name.toList.map Char.toLower)

theorem interpret_steep :
    interpretBatchResponse steepLibrary ⟨200, steepBody, []⟩ [⟨620, by decide, by decide⟩]
      "2026-01-01T00:00:00Z" = .error .overflow := by
  rfl

theorem decoded_not :
    ¬∀ (lib : Library) (response : HttpResponse) (requested : List AppId) (observedAt : String),
      Decoded lib response requested
        (interpretBatchResponse lib response requested observedAt) := by
  intro h
  have hsteep := h steepLibrary ⟨200, steepBody, []⟩ [⟨620, by decide, by decide⟩]
    "2026-01-01T00:00:00Z"
  rw [interpret_steep] at hsteep
  exact decoded_error.mp hsteep

end SteamAgent.Deals
