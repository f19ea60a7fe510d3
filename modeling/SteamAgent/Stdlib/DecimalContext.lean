import SteamAgent.Stdlib.Decimal

/-!
# Results in a decimal context

What a `decimal.Context` makes of the exact result of an operation: it is rounded
to the precision, a result below the smallest exponent loses digits, and one
above the largest exponent overflows.

There are three groups.

* `finalize`.
* `Overflows`: the numbers that overflow.
* `Rounds`: the numbers of which `finalize` makes an integer.
-/

namespace Decimal

/-- A `decimal.Context` that rounds half to even and does not clamp. -/
structure Context where
  precision : Nat
  emin : Int
  emax : Int
  positive : 0 < precision
  ordered : emin < 0 ∧ 0 ≤ emax

/-- `decimal.DefaultContext`. -/
def defaultContext : Context where
  precision := 28
  emin := -999999
  emax := 999999
  positive := of_decide_eq_true rfl
  ordered := of_decide_eq_true rfl

/-- The limits of the numbers that a `Decimal` can hold. -/
def maxContext : Context where
  precision := 999999999999999999
  emin := -999999999999999999
  emax := 999999999999999999
  positive := of_decide_eq_true rfl
  ordered := of_decide_eq_true rfl

/-- The exponent of the first digit. -/
def adjusted (d : Decimal) : Int :=
  d.exponent + digitCount d.coefficient - 1

/-- The smallest exponent of a last digit. -/
def Context.etiny (c : Context) : Int :=
  c.emin - c.precision + 1

/-- The context holds the number as it is. -/
def Context.holds (c : Context) (d : Decimal) : Bool :=
  digitCount d.coefficient ≤ c.precision && d.adjusted ≤ c.emax && c.etiny ≤ d.exponent

/-- Digits below an exponent are rounded away. -/
def roundAt (e : Int) (d : Decimal) : Decimal :=
  if d.exponent < e then ⟨divHalfEven d.coefficient (10 ^ (e - d.exponent).toNat), e⟩ else d

/-- The result in a context, or an overflow. -/
def finalize (c : Context) (d : Decimal) : Option Decimal :=
  if d.coefficient = 0 then some ⟨0, max c.etiny (min d.exponent c.emax)⟩
  else if c.emax < d.adjusted then none
  else if d.adjusted < c.emin then some (d.roundAt c.etiny)
  else if c.emax < (d.roundTo c.precision).adjusted then none
  else some (d.roundTo c.precision)

/-- The number is at least half a unit of the last digit above the largest one. -/
def Overflows (c : Context) (x : ℚ) : Prop :=
  (2 * (10 : ℚ) ^ c.precision - 1) * (10 : ℚ) ^ (c.emax - c.precision + 1) ≤ 2 * x

/-- The context makes the integer `k` of the number. -/
def Rounds (c : Context) (x : ℚ) (k : Nat) : Prop :=
  if x < (10 : ℚ) ^ c.emin then k = 0 ∧ 2 * x ≤ (10 : ℚ) ^ c.etiny else Near c.precision x k

variable {c : Context} {d : Decimal}

/-! ## Overflow -/

theorem toRat_pos (hd : 0 < d.coefficient) : 0 < d.toRat :=
  mul_pos (by exact_mod_cast hd) (ten_zpow_pos _)

theorem toRat_zero (hd : d.coefficient = 0) : d.toRat = 0 := by
  rw [toRat, hd, Nat.cast_zero, zero_mul]

theorem ten_zpow_lt {e e' : Int} : (10 : ℚ) ^ e < (10 : ℚ) ^ e' ↔ e < e' :=
  zpow_lt_zpow_iff_right₀ (by norm_num)

theorem ten_zpow_le {e e' : Int} : (10 : ℚ) ^ e ≤ (10 : ℚ) ^ e' ↔ e ≤ e' :=
  zpow_le_zpow_iff_right₀ (by norm_num)

theorem adjusted_bounds (hd : 0 < d.coefficient) :
    (10 : ℚ) ^ d.adjusted ≤ d.toRat ∧ d.toRat < (10 : ℚ) ^ (d.adjusted + 1) := by
  obtain ⟨hlow, hhigh⟩ := toRat_bounds hd
  rw [adjusted, sub_add_cancel]
  exact ⟨hlow, hhigh⟩

/-- The largest unit of a last digit, and the number above all digits. -/
theorem overflow_unit (c : Context) :
    (10 : ℚ) ^ c.precision * (10 : ℚ) ^ (c.emax - c.precision + 1) = (10 : ℚ) ^ (c.emax + 1) := by
  rw [← zpow_natCast, ← zpow_add₀ (by norm_num)]
  congr 1
  omega

/-- A number from the next exponent on overflows. -/
theorem overflows_of_ge {x : ℚ} (h : (10 : ℚ) ^ (c.emax + 1) ≤ x) : Overflows c x := by
  have hunit := overflow_unit c
  have hpositive := ten_zpow_pos (c.emax - c.precision + 1)
  rw [Overflows]
  nlinarith

/-- A number below the largest exponent does not. -/
theorem not_overflows_of_lt {x : ℚ} (h : x < (10 : ℚ) ^ c.emax) : ¬Overflows c x := by
  have hunit := overflow_unit c
  have hone : (1 : ℚ) ≤ (10 : ℚ) ^ c.precision := one_le_pow₀ (by norm_num)
  have hpositive := ten_zpow_pos (c.emax - c.precision + 1)
  have hten : (10 : ℚ) ^ (c.emax + 1) = 10 * (10 : ℚ) ^ c.emax := by
    rw [zpow_add_one₀ (by norm_num), mul_comm]
  rw [Overflows, not_le]
  nlinarith

/-- A coefficient of at most `p` digits with an allowed exponent does not. -/
theorem not_overflows_of_digits (hd : 0 < d.coefficient)
    (hdigits : digitCount d.coefficient ≤ c.precision) (hadjusted : d.adjusted ≤ c.emax) :
    ¬Overflows c d.toRat := by
  have hcount : 0 < digitCount d.coefficient := Nat.succ_pos _
  have hlt : d.coefficient + 1 ≤ 10 ^ digitCount d.coefficient := (digitCount_bounds hd).2
  have hlt' : (d.coefficient : ℚ) + 1 ≤ (10 : ℚ) ^ digitCount d.coefficient := by exact_mod_cast hlt
  have hexponent := ten_zpow_pos d.exponent
  have hunit := overflow_unit c
  have hgrid := ten_zpow_pos (c.emax - c.precision + 1)
  rw [adjusted] at hadjusted
  rw [Overflows, not_le, toRat]
  rcases le_or_gt (c.emax - c.precision + 1) d.exponent with hle | hlt
  · have hsplit : (10 : ℚ) ^ digitCount d.coefficient * (10 : ℚ) ^ d.exponent ≤
        (10 : ℚ) ^ (c.emax + 1) := by
      rw [← zpow_natCast, ← zpow_add₀ (by norm_num), ten_zpow_le]
      omega
    have hgrid' := ten_zpow_le.mpr hle
    nlinarith
  · have hpower : (10 : ℚ) ^ digitCount d.coefficient ≤ (10 : ℚ) ^ c.precision :=
      pow_le_pow_right₀ (by norm_num) hdigits
    have hgrid' := (ten_zpow_lt.mpr hlt).le
    nlinarith

/-- The quotient is rounded up to `10 ^ p`. -/
theorem divHalfEven_eq_pow_iff {n p q : Nat} (hp : 0 < p) (hq : 0 < q) (hn : n < 10 ^ p * q) :
    divHalfEven n q = 10 ^ p ↔ (2 * 10 ^ p - 1) * q ≤ 2 * n := by
  have heven : 10 ^ p % 2 = 0 := by
    obtain ⟨p, rfl⟩ := Nat.exists_eq_succ_of_ne_zero hp.ne'
    rw [pow_succ]
    omega
  have hpositive : 0 < 10 ^ p := by positivity
  have hsplit : (2 * 10 ^ p - 1) * q = 2 * (10 ^ p * q) - q := by
    rw [Nat.sub_mul, one_mul, mul_assoc]
  have hge : q ≤ 10 ^ p * q := Nat.le_mul_of_pos_left q hpositive
  rw [hsplit]
  constructor
  · intro h
    obtain ⟨hlow, -⟩ := divHalfEven_near n hq
    rw [h] at hlow
    omega
  · intro h
    exact divHalfEven_eq hq heven (by omega) (by omega)

theorem div_le_divHalfEven (n q : Nat) : n / q ≤ divHalfEven n q := by
  unfold divHalfEven
  split
  · exact Nat.le_succ _
  · exact Nat.le_refl _

theorem digitCount_eq {n p : Nat} (hp : 0 < p) (hlow : 10 ^ (p - 1) ≤ n) (hhigh : n < 10 ^ p) :
    digitCount n = p := by
  have hlog : Nat.log 10 n = p - 1 :=
    Nat.log_eq_of_pow_le_of_lt_pow hlow (by rwa [Nat.sub_add_cancel hp])
  rw [digitCount, hlog, Nat.sub_add_cancel hp]

/-- Rounding raises the exponent of the first digit when the quotient is rounded up to the
next power of ten. -/
theorem adjusted_roundTo {p : Nat} (hp : 0 < p) (hd : 0 < d.coefficient)
    (hn : p < digitCount d.coefficient) :
    (roundTo p d).adjusted = d.adjusted +
      if divHalfEven d.coefficient (10 ^ (digitCount d.coefficient - p)) = 10 ^ p then 1 else 0 := by
  obtain ⟨hlow, hhigh⟩ := digitCount_bounds hd
  have hpositive : 0 < 10 ^ (digitCount d.coefficient - p) := by positivity
  rw [roundTo]
  dsimp only
  rw [if_neg (by omega)]
  by_cases hcarry : divHalfEven d.coefficient (10 ^ (digitCount d.coefficient - p)) = 10 ^ p
  · rw [if_pos hcarry, if_pos hcarry, adjusted, adjusted]
    dsimp only
    have hcount : digitCount (10 ^ (p - 1)) = p :=
      digitCount_eq hp (Nat.le_refl _) (Nat.pow_lt_pow_right (by norm_num) (by omega))
    rw [hcount]
    omega
  · rw [if_neg hcarry, if_neg hcarry, adjusted, adjusted]
    dsimp only
    have hsplit : 10 ^ digitCount d.coefficient =
        10 ^ p * 10 ^ (digitCount d.coefficient - p) := by
      rw [← pow_add]
      congr 1
      omega
    have hsplit' : 10 ^ (digitCount d.coefficient - 1) =
        10 ^ (p - 1) * 10 ^ (digitCount d.coefficient - p) := by
      rw [← pow_add]
      congr 1
      omega
    have hquotient : 10 ^ (p - 1) ≤ divHalfEven d.coefficient
        (10 ^ (digitCount d.coefficient - p)) := by
      refine Nat.le_trans ?_ (div_le_divHalfEven _ _)
      rw [Nat.le_div_iff_mul_le hpositive, ← hsplit']
      exact hlow
    have hquotient' : divHalfEven d.coefficient (10 ^ (digitCount d.coefficient - p)) < 10 ^ p := by
      refine Nat.lt_of_le_of_ne ?_ hcarry
      have hnear := (divHalfEven_near d.coefficient hpositive).1
      rw [hsplit] at hhigh
      by_contra hnot
      have hmul := Nat.mul_le_mul_right (10 ^ (digitCount d.coefficient - p))
        (Nat.succ_le_of_lt (Nat.lt_of_not_le hnot))
      rw [Nat.succ_mul] at hmul
      omega
    rw [digitCount_eq hp hquotient hquotient']
    omega

/-- The exact results that overflow. -/
theorem finalize_eq_none_iff (hd : 0 < d.coefficient) :
    finalize c d = none ↔ Overflows c d.toRat := by
  obtain ⟨hlow, hhigh⟩ := adjusted_bounds hd
  have hordered := c.ordered
  rw [finalize, if_neg hd.ne']
  by_cases habove : c.emax < d.adjusted
  · rw [if_pos habove]
    exact iff_of_true rfl (overflows_of_ge ((ten_zpow_le.mpr (by omega)).trans hlow))
  · rw [if_neg habove]
    by_cases hbelow : d.adjusted < c.emin
    · rw [if_pos hbelow]
      refine iff_of_false (Option.some_ne_none _) (not_overflows_of_lt (hhigh.trans_le (ten_zpow_le.mpr ?_)))
      omega
    · rw [if_neg hbelow]
      rcases le_or_gt (digitCount d.coefficient) c.precision with hdigits | hdigits
      · rw [show roundTo c.precision d = d by rw [roundTo, if_pos (by omega)], if_neg habove]
        exact iff_of_false (Option.some_ne_none _) (not_overflows_of_digits hd hdigits (by omega))
      · rw [adjusted_roundTo c.positive hd hdigits]
        rcases eq_or_lt_of_le (not_lt.mp habove) with hlast | hless
        · have hpositive : 0 < 10 ^ (digitCount d.coefficient - c.precision) := by positivity
          have hunit : c.emax - c.precision + 1 =
              ((digitCount d.coefficient - c.precision : Nat) : Int) + d.exponent := by
            rw [← hlast, adjusted]
            omega
          have hlt : d.coefficient < 10 ^ c.precision *
              10 ^ (digitCount d.coefficient - c.precision) := by
            rw [← pow_add, Nat.add_sub_cancel' hdigits.le]
            exact (digitCount_bounds hd).2
          have hthreshold : Overflows c d.toRat ↔ (2 * 10 ^ c.precision - 1) *
              10 ^ (digitCount d.coefficient - c.precision) ≤ 2 * d.coefficient := by
            have hone : 1 ≤ 2 * 10 ^ c.precision := by
              have hpower : 0 < 10 ^ c.precision := by positivity
              omega
            rw [Overflows, hunit, zpow_add₀ (by norm_num), zpow_natCast, toRat, ← mul_assoc,
              ← mul_assoc, mul_le_mul_iff_left₀ (ten_zpow_pos _), ← Nat.cast_le (α := ℚ)]
            push_cast [hone]
            rfl
          rw [hthreshold, ← divHalfEven_eq_pow_iff c.positive hpositive hlt]
          by_cases hcarry : divHalfEven d.coefficient
              (10 ^ (digitCount d.coefficient - c.precision)) = 10 ^ c.precision
          · rw [if_pos hcarry, if_pos (by omega)]
            exact iff_of_true rfl hcarry
          · rw [if_neg hcarry, if_neg (by omega)]
            exact iff_of_false (Option.some_ne_none _) hcarry
        · rw [if_neg (by split <;> omega)]
          refine iff_of_false (Option.some_ne_none _) (not_overflows_of_lt (hhigh.trans_le (ten_zpow_le.mpr ?_)))
          omega

/-! ## Integers -/

theorem divHalfEven_eq_zero_iff {n q : Nat} (hq : 0 < q) : divHalfEven n q = 0 ↔ 2 * n ≤ q := by
  constructor
  · intro h
    have hnear := (divHalfEven_near n hq).2
    rw [h] at hnear
    omega
  · intro h
    exact divHalfEven_eq hq rfl (by omega) (by omega)

theorem toRat_roundAt_eq_zero_iff {e : Int} (hd : 0 < d.coefficient) :
    (d.roundAt e).toRat = 0 ↔ 2 * d.toRat ≤ (10 : ℚ) ^ e := by
  rcases lt_or_ge d.exponent e with hlt | hle
  · have hpositive : 0 < 10 ^ (e - d.exponent).toNat := by positivity
    rw [roundAt, if_pos hlt, toRat, mul_eq_zero, or_iff_left (ten_zpow_pos _).ne', Nat.cast_eq_zero,
      divHalfEven_eq_zero_iff hpositive, ten_pow_toNat hlt.le, toRat, ← mul_assoc,
      mul_le_mul_iff_left₀ (ten_zpow_pos _)]
    exact_mod_cast Iff.rfl
  · have hunit := ten_zpow_le.mpr hle
    have hcoefficient : (1 : ℚ) ≤ d.coefficient := by exact_mod_cast hd
    have hpositive := ten_zpow_pos d.exponent
    rw [roundAt, if_neg (by omega)]
    refine iff_of_false (toRat_pos hd).ne' (not_le.mpr ?_)
    rw [toRat]
    nlinarith

theorem toRat_roundAt_le (e : Int) (d : Decimal) :
    (d.roundAt e).toRat ≤ d.toRat + (10 : ℚ) ^ e / 2 := by
  have hunit := ten_zpow_pos e
  rcases lt_or_ge d.exponent e with hlt | hle
  · have hpositive : 0 < 10 ^ (e - d.exponent).toNat := by positivity
    have hnear := (divHalfEven_near d.coefficient hpositive).1
    have hnear' : 2 * ((divHalfEven d.coefficient (10 ^ (e - d.exponent).toNat) : ℚ) *
        ((10 ^ (e - d.exponent).toNat : Nat) : ℚ)) ≤
          2 * d.coefficient + ((10 ^ (e - d.exponent).toNat : Nat) : ℚ) := by
      exact_mod_cast hnear
    have hexponent := ten_zpow_pos d.exponent
    rw [roundAt, if_pos hlt, toRat, toRat, ten_pow_toNat hlt.le]
    dsimp only
    nlinarith
  · rw [roundAt, if_neg (by omega)]
    linarith

/-- The exact results of which the context makes an integer. -/
theorem finalize_eq_natCast_iff {r : Decimal} {k : Nat} (hd : 0 < d.coefficient)
    (hk : k < 10 ^ (c.precision - 1)) (h : finalize c d = some r) :
    r.toRat = k ↔ Rounds c d.toRat k := by
  obtain ⟨hlow, hhigh⟩ := adjusted_bounds hd
  have hordered := c.ordered
  have hprecision := c.positive
  rw [finalize, if_neg hd.ne'] at h
  split at h
  · cases h
  · split at h
    · rename_i hbelow
      cases h
      have hsmall : d.toRat < (10 : ℚ) ^ c.emin := hhigh.trans_le (ten_zpow_le.mpr (by omega))
      rw [Rounds, if_pos hsmall]
      constructor
      · intro hinteger
        have hle := toRat_roundAt_le c.etiny d
        have htiny : (10 : ℚ) ^ c.etiny ≤ (10 : ℚ) ^ c.emin := by
          rw [ten_zpow_le, Context.etiny]
          omega
        have htenth : (10 : ℚ) ^ c.emin ≤ 1 / 10 := by
          rw [show (1 / 10 : ℚ) = (10 : ℚ) ^ (-1 : Int) by norm_num, ten_zpow_le]
          omega
        have hzero : k = 0 := by
          by_contra hne
          have hone : (1 : ℚ) ≤ k := by exact_mod_cast Nat.one_le_iff_ne_zero.mpr hne
          rw [hinteger] at hle
          linarith
        subst hzero
        exact ⟨rfl, (toRat_roundAt_eq_zero_iff hd).mp (by simpa using hinteger)⟩
      · intro hboth
        obtain ⟨rfl, htiny⟩ := hboth
        rw [(toRat_roundAt_eq_zero_iff hd).mpr htiny, Nat.cast_zero]
    · rename_i hbelow
      split at h
      · cases h
      · cases h
        have hnormal : ¬d.toRat < (10 : ℚ) ^ c.emin :=
          not_lt.mpr ((ten_zpow_le.mpr (by omega)).trans hlow)
        rw [Rounds, if_neg hnormal]
        exact roundTo_eq_natCast_iff hprecision hd hk

end Decimal
