import SteamAgent.Requirements.Parser

/-!
# Declared capacity gates

What the gate of a memory or storage requirement says about the number that its
digits spell.  The products with the two scales are rounded to 28 digits, so a
product may look like an integer that it is only near.

There are three groups.

* The number of a match, and when its interval is known.
* The facts of a text in which one quantity is recognised.
* `GateSound`, and when it holds.
-/

namespace SteamAgent.Requirements

/-! ## The interval of a quantity -/

/-- The number that the digits spell. -/
def Capacity.quantity (capacity : Capacity) : ℚ :=
  digitsValue capacity.integer + digitsValue capacity.fraction / 10 ^ capacity.fraction.length

theorem digitsValue_append (a b : List Char) :
    digitsValue (a ++ b) = digitsValue a * 10 ^ b.length + digitsValue b := by
  have hstart : ∀ (n : Nat), b.foldl (fun n c => 10 * n + (c.toNat - 48)) n
      = n * 10 ^ b.length + digitsValue b := by
    induction b with
    | nil =>
      intro n
      simp [digitsValue]
    | cons c b ih =>
      intro n
      rw [digitsValue, List.foldl_cons, List.foldl_cons, ih, ih, List.length_cons, pow_succ]
      ring
  rw [digitsValue, List.foldl_append]
  exact hstart _

/-- The conversion to a decimal is exact. -/
theorem Capacity.toRat_number (capacity : Capacity) :
    capacity.number.toRat = capacity.quantity := by
  have hpower : (0 : ℚ) < 10 ^ capacity.fraction.length := by positivity
  rw [Decimal.toRat, number, quantity, digitsValue_append, zpow_neg, zpow_natCast]
  push_cast
  rw [add_mul, mul_assoc, mul_inv_cancel₀ hpower.ne', mul_one, div_eq_mul_inv]

theorem CapacityUnit.decimalScale_pos (unit : CapacityUnit) : 0 < unit.decimalScale := by
  cases unit <;> decide

theorem CapacityUnit.decimalScale_le (unit : CapacityUnit) :
    unit.decimalScale ≤ unit.binaryScale := by
  cases unit <;> decide

/-- The ends of an interval are near the two products. -/
def ByteInterval.NearProducts (interval : ByteInterval) (quantity : ℚ) (unit : CapacityUnit) :
    Prop :=
  Decimal.Near precision (quantity * unit.decimalScale) interval.lowerBytes ∧
    Decimal.Near precision (quantity * unit.binaryScale) interval.upperBytes

theorem maxBytes_lt : maxBytes < 10 ^ (precision - 1) := by
  decide

/-- A rounded product that passes the test for an integer, and its value. -/
theorem roundedProduct_iff {number : Decimal} {scale k : Nat} (hnumber : 0 < number.coefficient)
    (hscale : 0 < scale) (hk : k ≤ maxBytes) :
    ((number.scale scale).roundTo precision).equal
        ((number.scale scale).roundTo precision).toIntegralValue = true ∧
      ((number.scale scale).roundTo precision).toInt = k ↔
    Decimal.Near precision (number.toRat * scale) k := by
  have hproduct : 0 < (number.scale scale).coefficient := Nat.mul_pos hnumber hscale
  rw [← Decimal.toRat_scale, ← Decimal.roundTo_eq_natCast_iff (by decide) hproduct
    (hk.trans_lt maxBytes_lt), Decimal.equal_toIntegralValue_iff]
  constructor
  · rintro ⟨⟨k', hk'⟩, hint⟩
    rw [Decimal.toInt_eq hk'] at hint
    rw [hk', hint]
  · intro h
    exact ⟨⟨k, h⟩, Decimal.toInt_eq h⟩

/-- An interval is known exactly when its ends are near the products. -/
theorem capacityInterval_eq_known {component : CapacityComponent} {number : Decimal}
    {unit : CapacityUnit} {interval : ByteInterval} (hnumber : 0 < number.coefficient) :
    capacityInterval component number unit = .known interval ↔
      interval.NearProducts number.toRat unit := by
  have hlower := roundedProduct_iff hnumber unit.decimalScale_pos
    (interval.ordered.trans interval.bounded)
  have hupper := roundedProduct_iff hnumber
    (unit.decimalScale_pos.trans_le unit.decimalScale_le) interval.bounded
  rw [ByteInterval.NearProducts, ← hlower, ← hupper]
  unfold capacityInterval
  dsimp only
  constructor
  · intro h
    split at h
    · cases h
    · rename_i hintegral
      simp only [Bool.or_eq_true, Bool.not_eq_true', not_or, Bool.not_eq_false] at hintegral
      split at h
      · obtain rfl := RequirementFact.known.inj h
        exact ⟨⟨hintegral.1, rfl⟩, hintegral.2, rfl⟩
      · cases h
  · rintro ⟨⟨hlow, hlowInt⟩, hup, hupInt⟩
    rw [if_neg (by simp [hlow, hup]), dif_pos]
    · congr 1
      cases interval
      simp only [ByteInterval.mk.injEq]
      exact ⟨hlowInt, hupInt⟩
    · rw [hlowInt, hupInt]
      exact ⟨interval.positive, interval.ordered, interval.bounded⟩

/-! ## The facts of a text -/

/-- The quantity of a value, if it has one for the component. -/
def recognise (component : CapacityComponent) (value : List Char) : Option Capacity :=
  (capacityMatch value).filter fun capacity => !component.conflicts capacity

theorem parseCapacity_eq_known {lib : CharLibrary} {value : List Char}
    {component : CapacityComponent} {interval : ByteInterval} :
    parseCapacity lib value component = .known interval ↔
      ∃ capacity, recognise component value = some capacity ∧
        capacity.number.coefficient ≠ 0 ∧
        capacityInterval component capacity.number capacity.unit = .known interval := by
  unfold parseCapacity recognise
  cases hmatch : capacityMatch value with
  | none => simp
  | some capacity =>
    by_cases hconflict : component.conflicts capacity = true
    · simp [hconflict, Option.filter]
    · by_cases hzero : capacity.number.coefficient = 0
      · simp [hconflict, hzero, Option.filter]
      · simp [hconflict, hzero, Option.filter]

/-- Facts merge to a known one only if they all are that one. -/
theorem merge_eq_known {α : Type} [DecidableEq α] {name : String}
    {facts : List (RequirementFact α)} {value : α} :
    merge name facts = .known value ↔ facts ≠ [] ∧ ∀ fact ∈ facts, fact = .known value := by
  cases facts with
  | nil => simp [merge]
  | cons first others =>
    rw [merge]
    by_cases hconflict : (others.any (· != first)) = true
    · rw [if_pos hconflict]
      obtain ⟨other, hother, hne⟩ := List.any_eq_true.mp hconflict
      refine ⟨nofun, fun ⟨_, hall⟩ => ?_⟩
      rw [hall other (List.mem_cons_of_mem _ hother), hall first List.mem_cons_self] at hne
      simp at hne
    · rw [if_neg hconflict]
      have hsame : ∀ other ∈ others, other = first := by simpa using hconflict
      constructor
      · rintro rfl
        refine ⟨by simp, fun fact hfact => ?_⟩
        rcases List.mem_cons.mp hfact with rfl | hfact
        · rfl
        · exact hsame fact hfact
      · intro ⟨_, hall⟩
        exact hall first List.mem_cons_self

/-- The text is accepted, with these values for the component, and one of them
is a capacity quantity. -/
structure Recognised (lib : CharLibrary) (source : DeclaredRequirementsText)
    (component : CapacityComponent) (values : List (List Char)) (capacity : Capacity) : Prop where
  minimum : source.textSection = .minimum
  valid : validateInput lib source.text = none
  read : ∃ found, readLines ((source.text.getD []).splitOn '\n') = .ok found ∧
    foundValues (.capacity component) found = values
  once : values.filterMap (recognise component) = [capacity]

variable {lib : CharLibrary} {source : DeclaredRequirementsText} {component : CapacityComponent}
  {values : List (List Char)} {capacity : Capacity}

theorem Recognised.capacity_eq (h : Recognised lib source component values capacity) :
    (parseDeclaredMinimum lib source).capacity component
      = merge component.name (values.map (parseCapacity lib · component)) := by
  obtain ⟨found, hread, rfl⟩ := h.read
  simp [parseDeclaredMinimum, h.minimum, h.valid, hread]

/-- The interval of the one quantity is known exactly when there is no other
line for the component and its ends are near the products. -/
theorem Recognised.eq_known_iff (h : Recognised lib source component values capacity)
    {interval : ByteInterval} :
    (parseDeclaredMinimum lib source).capacity component = .known interval ↔
      values.length = 1 ∧ interval.NearProducts capacity.quantity capacity.unit := by
  have hvalue : ∀ value, recognise component value = some capacity →
      (parseCapacity lib value component = .known interval ↔
        interval.NearProducts capacity.quantity capacity.unit) := by
    intro value hvalue
    rw [parseCapacity_eq_known, ← capacity.toRat_number]
    constructor
    · rintro ⟨capacity', hcapacity', hpositive, hinterval⟩
      obtain rfl := Option.some.inj (hvalue.symm.trans hcapacity')
      exact (capacityInterval_eq_known (Nat.pos_of_ne_zero hpositive)).mp hinterval
    · intro hnear
      have hpositive : capacity.number.coefficient ≠ 0 := by
        intro hzero
        obtain ⟨e, hlow, -, -⟩ := hnear.1
        have hpower := Decimal.ten_zpow_pos (e + precision - 1)
        rw [Decimal.toRat, hzero, Nat.cast_zero, zero_mul, zero_mul] at hlow
        linarith
      exact ⟨capacity, hvalue, hpositive,
        (capacityInterval_eq_known (Nat.pos_of_ne_zero hpositive)).mpr hnear⟩
  rw [h.capacity_eq, merge_eq_known]
  constructor
  · rintro ⟨-, hall⟩
    -- every value of the component is recognised, so there is one
    have hrecognised : ∀ value ∈ values, recognise component value ≠ none := by
      intro value hmem hnone
      have hknown := hall _ (List.mem_map_of_mem hmem)
      obtain ⟨capacity', hcapacity', -⟩ := parseCapacity_eq_known.mp hknown
      rw [hnone] at hcapacity'
      cases hcapacity'
    have hlength : values.length = 1 := by
      have hcount := congrArg List.length h.once
      rwa [List.length_filterMap_eq_countP, List.countP_eq_length.mpr, List.length_singleton]
        at hcount
      intro value hmem
      exact Option.isSome_iff_ne_none.mpr (hrecognised value hmem)
    obtain ⟨value, rfl⟩ := List.length_eq_one_iff.mp hlength
    have hone := h.once
    rw [List.filterMap_cons] at hone
    cases hrec : recognise component value with
    | none => exact absurd hrec (hrecognised value List.mem_cons_self)
    | some capacity' =>
      rw [hrec] at hone
      obtain rfl : capacity' = capacity := by simpa using hone
      exact ⟨rfl, (hvalue value hrec).mp (hall _ (List.mem_map_of_mem List.mem_cons_self))⟩
  · rintro ⟨hlength, hnear⟩
    obtain ⟨value, rfl⟩ := List.length_eq_one_iff.mp hlength
    have hone := h.once
    rw [List.filterMap_cons] at hone
    cases hrec : recognise component value with
    | none =>
      rw [hrec] at hone
      simp at hone
    | some capacity' =>
      rw [hrec] at hone
      obtain rfl : capacity' = capacity := by simpa using hone
      refine ⟨by simp, fun fact hfact => ?_⟩
      obtain rfl : fact = parseCapacity lib value component := by simpa using hfact
      exact (hvalue value hrec).mpr hnear

/-! ## The gate -/

/-- The comparison of a system with a text. -/
def gate (lib : CharLibrary) (source : DeclaredRequirementsText) (component : CapacityComponent)
    (system : SystemCapacity) : ComponentComparison :=
  (compareDeclaredMinimum system (parseDeclaredMinimum lib source)).capacity component

/-- What the gate of a component may say about a quantity. -/
structure GateSound (lib : CharLibrary) (source : DeclaredRequirementsText)
    (component : CapacityComponent) (quantity : ℚ) (unit : CapacityUnit) : Prop where
  fails : ∀ system, (gate lib source component system).state = .fail →
    ∃ actual, system.bytes component = some actual ∧
      actual < quantity * unit.decimalScale ∧ actual < quantity * unit.binaryScale
  passes : ∀ system, (gate lib source component system).state = .pass →
    ∃ actual, system.bytes component = some actual ∧
      quantity * unit.decimalScale ≤ actual ∧ quantity * unit.binaryScale ≤ actual
  exact : ∀ interval, (parseDeclaredMinimum lib source).capacity component = .known interval →
    quantity * unit.decimalScale = interval.lowerBytes ∧
      quantity * unit.binaryScale = interval.upperBytes

/-- The gate fails or passes only on a known interval. -/
theorem gate_eq_fail {system : SystemCapacity}
    (h : (gate lib source component system).state = .fail) : ∃ interval actual,
      (parseDeclaredMinimum lib source).capacity component = .known interval ∧
      system.bytes component = some actual ∧ actual < interval.lowerBytes := by
  change (compareCapacity (system.bytes component) _ component).state = _ at h
  unfold compareCapacity at h
  split at h
  · cases h
  · cases h
  · rename_i interval hinterval
    split at h
    · cases h
    · rename_i actual hactual
      split at h
      · rename_i hlt
        exact ⟨interval, actual, hinterval, hactual, hlt⟩
      · split at h <;> cases h

theorem gate_eq_pass {system : SystemCapacity}
    (h : (gate lib source component system).state = .pass) : ∃ interval actual,
      (parseDeclaredMinimum lib source).capacity component = .known interval ∧
      system.bytes component = some actual ∧ interval.upperBytes ≤ actual := by
  change (compareCapacity (system.bytes component) _ component).state = _ at h
  unfold compareCapacity at h
  split at h
  · cases h
  · cases h
  · rename_i interval hinterval
    split at h
    · cases h
    · rename_i actual hactual
      split at h
      · cases h
      · split at h
        · rename_i hge
          exact ⟨interval, actual, hinterval, hactual, hge⟩
        · cases h

/-- A product is less than one half away from an integer that is near it. -/
theorem lt_of_near {x : ℚ} {k actual : Nat} (hk : k ≤ maxBytes) (hnear : Decimal.Near precision x k)
    (hactual : actual < k) : (actual : ℚ) < x := by
  obtain ⟨e, hlow, -, hdistance⟩ := hnear
  have hneg := Decimal.Near.exponent_neg (by decide) (hk.trans_lt maxBytes_lt) hlow hdistance
  have hone : (10 : ℚ) ^ e ≤ 1 := zpow_le_one_of_nonpos₀ (by norm_num) hneg.le
  have hstep : (actual : ℚ) + 1 ≤ k := by exact_mod_cast hactual
  have hlower := (abs_le.mp hdistance).1
  linarith

theorem quantity_nonneg (capacity : Capacity) : 0 ≤ capacity.quantity := by
  unfold Capacity.quantity
  positivity

theorem product_le (capacity : Capacity) :
    capacity.quantity * capacity.unit.decimalScale ≤
      capacity.quantity * capacity.unit.binaryScale :=
  mul_le_mul_of_nonneg_left (by exact_mod_cast capacity.unit.decimalScale_le)
    (quantity_nonneg capacity)

/-- Whatever the digits, a failed gate is right. -/
theorem Recognised.fails (h : Recognised lib source component values capacity)
    {system : SystemCapacity} (hfail : (gate lib source component system).state = .fail) :
    ∃ actual, system.bytes component = some actual ∧
      actual < capacity.quantity * capacity.unit.decimalScale ∧
      actual < capacity.quantity * capacity.unit.binaryScale := by
  obtain ⟨interval, actual, hknown, hactual, hlt⟩ := gate_eq_fail hfail
  have hnear := (h.eq_known_iff.mp hknown).2
  have hlower := lt_of_near (interval.ordered.trans interval.bounded) hnear.1 hlt
  exact ⟨actual, hactual, hlower, hlower.trans_le (product_le capacity)⟩

/-- The gate of a text with one quantity is sound exactly when no interval but
the exact one has ends near the products, or another line for the component
keeps the gate shut. -/
theorem declared_gate_sound_iff (lib : CharLibrary) (source : DeclaredRequirementsText)
    (component : CapacityComponent) (values : List (List Char)) (capacity : Capacity)
    (h : Recognised lib source component values capacity) :
    GateSound lib source component capacity.quantity capacity.unit ↔
      (values.length = 1 → ∀ interval : ByteInterval,
        interval.NearProducts capacity.quantity capacity.unit →
        capacity.quantity * capacity.unit.decimalScale = interval.lowerBytes ∧
          capacity.quantity * capacity.unit.binaryScale = interval.upperBytes) := by
  constructor
  · intro hsound hlength interval hnear
    exact hsound.exact interval (h.eq_known_iff.mpr ⟨hlength, hnear⟩)
  · intro hexact
    have hknown : ∀ interval,
        (parseDeclaredMinimum lib source).capacity component = .known interval →
        capacity.quantity * capacity.unit.decimalScale = interval.lowerBytes ∧
          capacity.quantity * capacity.unit.binaryScale = interval.upperBytes := by
      intro interval hinterval
      obtain ⟨hlength, hnear⟩ := h.eq_known_iff.mp hinterval
      exact hexact hlength interval hnear
    refine ⟨fun system hfail => h.fails hfail, fun system hpass => ?_, hknown⟩
    obtain ⟨interval, actual, hinterval, hactual, hge⟩ := gate_eq_pass hpass
    obtain ⟨hlower, hupper⟩ := hknown interval hinterval
    have hle : capacity.quantity * capacity.unit.binaryScale ≤ actual := by
      rw [hupper]
      exact_mod_cast hge
    exact ⟨actual, hactual, (product_le capacity).trans hle, hle⟩

/-- Products of no more than 28 digits are near no other integers. -/
theorem exact_of_digitCount {interval : ByteInterval} (hnumber : 0 < capacity.number.coefficient)
    (hdigits : Decimal.digitCount (capacity.number.coefficient * capacity.unit.binaryScale)
      ≤ precision)
    (hnear : interval.NearProducts capacity.quantity capacity.unit) :
    capacity.quantity * capacity.unit.decimalScale = interval.lowerBytes ∧
      capacity.quantity * capacity.unit.binaryScale = interval.upperBytes := by
  have hproduct : ∀ {scale k : Nat}, 0 < scale → scale ≤ capacity.unit.binaryScale →
      k ≤ maxBytes → Decimal.Near precision (capacity.quantity * scale) k →
      capacity.quantity * scale = k := by
    intro scale k hscale hle hk hproduct
    rw [← capacity.toRat_number, ← Decimal.toRat_scale] at hproduct ⊢
    refine Decimal.eq_of_near (by decide) (Nat.mul_pos hnumber hscale) (hk.trans_lt maxBytes_lt)
      (le_trans ?_ hdigits) hproduct
    exact Nat.succ_le_succ (Nat.log_mono_right (Nat.mul_le_mul_left _ hle))
  exact ⟨hproduct capacity.unit.decimalScale_pos capacity.unit.decimalScale_le
      (interval.ordered.trans interval.bounded) hnear.1,
    hproduct (capacity.unit.decimalScale_pos.trans_le capacity.unit.decimalScale_le) le_rfl
      interval.bounded hnear.2⟩

/-! ## Two texts -/

/-- ASCII. -/
def asciiLibrary : CharLibrary where
  isPrintable c := ' ' ≤ c && c ≤ '~'
  isWord c := c.isAlphanum || c == '_'

def shortText : DeclaredRequirementsText :=
  ⟨.minimum, some "Memory: 1.5 GiB RAM\nGraphics: any".toList⟩

def shortCapacity : Capacity :=
  ⟨['1'], ['5'], .gibibyte, some " RAM".toList⟩

def shortValues : List (List Char) :=
  ["1.5 GiB RAM".toList]

theorem recognised_shortText :
    Recognised asciiLibrary shortText .memory shortValues shortCapacity where
  minimum := rfl
  valid := by decide +kernel
  read := ⟨[(.capacity .memory, shortValues.head!), (.model .gpu, "any".toList)],
    by decide +kernel, by decide +kernel⟩
  once := by decide +kernel

theorem declared_gate_sound_short :
    GateSound asciiLibrary shortText .memory shortCapacity.quantity shortCapacity.unit := by
  refine (declared_gate_sound_iff asciiLibrary shortText .memory shortValues shortCapacity
    recognised_shortText).mpr fun _ interval hnear => ?_
  exact exact_of_digitCount (by decide) (by decide +kernel) hnear

/-- 37 digits after the point: the product with the scale of a gibibyte has more
than 28 digits. -/
def longText : DeclaredRequirementsText :=
  ⟨.minimum, some "Memory: 1.0000000000000000000000000000000000001 GiB".toList⟩

def longCapacity : Capacity :=
  ⟨['1'], List.replicate 36 '0' ++ ['1'], .gibibyte, none⟩

def longValues : List (List Char) :=
  ["1.0000000000000000000000000000000000001 GiB".toList]

theorem recognised_longText :
    Recognised asciiLibrary longText .memory longValues longCapacity where
  minimum := rfl
  valid := by decide +kernel
  read := ⟨[(.capacity .memory, longValues.head!)], by decide +kernel, by decide +kernel⟩
  once := by decide +kernel

/-- The gate passes a system of 2³⁰ bytes, which is less than the text asks for. -/
theorem declared_gate_unsound : ∃ capacity values,
    Recognised asciiLibrary longText .memory values capacity ∧
      ¬GateSound asciiLibrary longText .memory capacity.quantity capacity.unit := by
  refine ⟨longCapacity, longValues, recognised_longText, fun hsound => ?_⟩
  have hknown : (parseDeclaredMinimum asciiLibrary longText).capacity .memory
      = .known ⟨1073741824, 1073741824, by decide, by decide, by decide⟩ := by decide +kernel
  have hexact := (hsound.exact _ hknown).1
  have hquantity : longCapacity.quantity = 1 + 1 / 10 ^ 37 := by
    have hlength : longCapacity.fraction.length = 37 := by decide
    have hinteger : digitsValue longCapacity.integer = 1 := by decide
    have hfraction : digitsValue longCapacity.fraction = 1 := by decide +kernel
    rw [Capacity.quantity, hlength, hinteger, hfraction]
    norm_num
  rw [hquantity] at hexact
  norm_num [longCapacity, CapacityUnit.decimalScale] at hexact

end SteamAgent.Requirements
