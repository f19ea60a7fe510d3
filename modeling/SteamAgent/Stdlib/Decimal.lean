import Mathlib.Algebra.Order.Field.Power
import Mathlib.Data.Nat.Log
import Mathlib.Tactic.FieldSimp
import Mathlib.Tactic.Linarith
import Mathlib.Tactic.Positivity
import Mathlib.Tactic.Ring

/-!
# Decimal numbers

The part of `decimal.Decimal` for numbers that are not negative: a coefficient
and an exponent of ten, a product that is rounded to the precision of the
context, half to even, and the conversion to an integer.

The precision is a parameter.  `Near p x k` is what rounding to `p` digits makes
of a number `x` that is close to the integer `k`, without any algorithm:
`roundTo_eq_natCast_iff` says that they are the same.
-/

/-- `Decimal`, not negative: `coefficient * 10 ^ exponent`. -/
structure Decimal where
  coefficient : Nat
  exponent : Int
deriving DecidableEq, Repr

namespace Decimal

/-! ## Operations -/

/-- The number that a decimal stands for. -/
def toRat (d : Decimal) : ℚ :=
  d.coefficient * (10 : ℚ) ^ d.exponent

/-- The number of digits of a coefficient. -/
def digitCount (n : Nat) : Nat :=
  Nat.log 10 n + 1

/-- The quotient, rounded half to even. -/
def divHalfEven (n d : Nat) : Nat :=
  if 2 * (n % d) > d ∨ (2 * (n % d) = d ∧ n / d % 2 = 1) then n / d + 1 else n / d

/-- Round to `p` digits, half to even. -/
def roundTo (p : Nat) (d : Decimal) : Decimal :=
  let drop := digitCount d.coefficient - p
  if drop = 0 then d
  else
    let quotient := divHalfEven d.coefficient (10 ^ drop)
    if quotient = 10 ^ p then ⟨10 ^ (p - 1), d.exponent + drop + 1⟩
    else ⟨quotient, d.exponent + drop⟩

/-- The exact product with an integer. -/
def scale (d : Decimal) (n : Nat) : Decimal :=
  ⟨d.coefficient * n, d.exponent⟩

/-- `to_integral_value`, half to even. -/
def toIntegralValue (d : Decimal) : Decimal :=
  if 0 ≤ d.exponent then d else ⟨divHalfEven d.coefficient (10 ^ (-d.exponent).toNat), 0⟩

/-- `int(d)`. -/
def toInt (d : Decimal) : Nat :=
  if 0 ≤ d.exponent then d.coefficient * 10 ^ d.exponent.toNat
  else d.coefficient / 10 ^ (-d.exponent).toNat

/-- `a == b`. -/
def equal (a b : Decimal) : Bool :=
  let e := min a.exponent b.exponent
  a.coefficient * 10 ^ (a.exponent - e).toNat == b.coefficient * 10 ^ (b.exponent - e).toNat

/-- `k` is no further from `x` than half a unit of the `p`-th digit of `x`. -/
def Near (p : Nat) (x : ℚ) (k : Nat) : Prop :=
  ∃ e : Int, (10 : ℚ) ^ (e + p - 1) ≤ x ∧ x < (10 : ℚ) ^ (e + p) ∧ |x - k| ≤ (10 : ℚ) ^ e / 2

/-! ## Comparing and converting -/

theorem ten_zpow_pos (e : Int) : (0 : ℚ) < (10 : ℚ) ^ e :=
  zpow_pos (by norm_num) e

theorem toRat_scale (d : Decimal) (n : Nat) : (d.scale n).toRat = d.toRat * n := by
  unfold toRat scale
  push_cast
  ring

/-- A power of ten with a large enough exponent, over the natural numbers. -/
theorem ten_pow_toNat {e m : Int} (h : m ≤ e) :
    (10 : ℚ) ^ e = ((10 ^ (e - m).toNat : Nat) : ℚ) * (10 : ℚ) ^ m := by
  rw [Nat.cast_pow, Nat.cast_ofNat, ← zpow_natCast, ← zpow_add₀ (by norm_num)]
  congr 1
  omega

theorem equal_iff (a b : Decimal) : a.equal b = true ↔ a.toRat = b.toRat := by
  unfold equal toRat
  rw [beq_iff_eq, ten_pow_toNat (min_le_left a.exponent b.exponent),
    ten_pow_toNat (min_le_right a.exponent b.exponent), ← mul_assoc, ← mul_assoc,
    mul_left_inj' (ten_zpow_pos _).ne']
  exact_mod_cast Iff.rfl

/-- With a negative exponent, a decimal is a quotient. -/
theorem toRat_eq_div {d : Decimal} (h : d.exponent < 0) :
    d.toRat = d.coefficient / ((10 ^ (-d.exponent).toNat : Nat) : ℚ) := by
  have hinverse := ten_pow_toNat h.le
  rw [zpow_zero, zero_sub] at hinverse
  rw [toRat, eq_div_iff (by positivity), mul_assoc, mul_comm ((10 : ℚ) ^ d.exponent),
    ← hinverse, mul_one]

/-- A decimal that is an integer is converted to it. -/
theorem toInt_eq {d : Decimal} {k : Nat} (h : d.toRat = k) : d.toInt = k := by
  unfold toInt
  split
  · rename_i hexponent
    have hpower := ten_pow_toNat hexponent
    rw [sub_zero, zpow_zero, mul_one] at hpower
    rw [toRat, hpower] at h
    exact_mod_cast h
  · rename_i hexponent
    rw [toRat_eq_div (by omega), div_eq_iff (by positivity)] at h
    have hproduct : d.coefficient = k * 10 ^ (-d.exponent).toNat := by exact_mod_cast h
    rw [hproduct, Nat.mul_div_cancel _ (by positivity)]

/-! ## Rounding a quotient -/

/-- The rounded quotient is at most half a unit away. -/
theorem divHalfEven_near (n : Nat) {d : Nat} (hd : 0 < d) :
    2 * (divHalfEven n d * d) ≤ 2 * n + d ∧ 2 * n ≤ 2 * (divHalfEven n d * d) + d := by
  have hsum := Nat.div_add_mod n d
  have hlt := Nat.mod_lt n hd
  rw [mul_comm] at hsum
  unfold divHalfEven
  split
  · rw [add_mul]
    omega
  · omega

/-- An even number at most half a unit away is the rounded quotient. -/
theorem divHalfEven_eq {n d k : Nat} (hd : 0 < d) (hk : k % 2 = 0)
    (hlow : 2 * (k * d) ≤ 2 * n + d) (hhigh : 2 * n ≤ 2 * (k * d) + d) : divHalfEven n d = k := by
  have hsum := Nat.div_add_mod n d
  have hlt := Nat.mod_lt n hd
  rw [mul_comm] at hsum
  have hge : n / d ≤ k := by
    by_contra hlt'
    have hstep : (k + 1) * d ≤ n / d * d := Nat.mul_le_mul_right d (by omega)
    rw [add_mul] at hstep
    omega
  have hle : k ≤ n / d + 1 := by
    by_contra hlt'
    have hstep : (n / d + 2) * d ≤ k * d := Nat.mul_le_mul_right d (by omega)
    rw [add_mul] at hstep
    omega
  unfold divHalfEven
  rcases Nat.eq_or_lt_of_le hge with heq | hlt'
  · rw [heq] at hsum ⊢
    rw [if_neg]
    omega
  · have heq : k = n / d + 1 := by omega
    rw [heq, add_mul] at hlow hhigh
    rw [if_pos, heq]
    omega

/-- A multiple is divided exactly. -/
theorem divHalfEven_mul (k : Nat) {d : Nat} (hd : 0 < d) : divHalfEven (k * d) d = k := by
  unfold divHalfEven
  rw [Nat.mul_mod_left, Nat.mul_div_cancel _ hd]
  rw [if_neg (by omega)]

theorem toIntegralValue_of_eq {d : Decimal} {k : Nat} (h : d.toRat = k) :
    d.toIntegralValue.toRat = k := by
  unfold toIntegralValue
  split
  · exact h
  · rename_i hexponent
    rw [toRat_eq_div (by omega), div_eq_iff (by positivity)] at h
    have hproduct : d.coefficient = k * 10 ^ (-d.exponent).toNat := by exact_mod_cast h
    rw [hproduct, divHalfEven_mul _ (by positivity)]
    simp [toRat]

/-- The integral value is an integer. -/
theorem exists_toIntegralValue (d : Decimal) : ∃ k : Nat, d.toIntegralValue.toRat = k := by
  unfold toIntegralValue
  split
  · rename_i hexponent
    have hpower := ten_pow_toNat hexponent
    rw [sub_zero, zpow_zero, mul_one] at hpower
    exact ⟨d.coefficient * 10 ^ d.exponent.toNat, by rw [toRat, hpower]; push_cast; rfl⟩
  · exact ⟨divHalfEven d.coefficient (10 ^ (-d.exponent).toNat), by simp [toRat]⟩

/-- Equal to the own integral value is being an integer. -/
theorem equal_toIntegralValue_iff (d : Decimal) :
    d.equal d.toIntegralValue = true ↔ ∃ k : Nat, d.toRat = k := by
  rw [equal_iff]
  constructor
  · intro h
    obtain ⟨k, hk⟩ := exists_toIntegralValue d
    exact ⟨k, h.trans hk⟩
  · rintro ⟨k, hk⟩
    rw [toIntegralValue_of_eq hk, hk]

/-! ## Rounding to a number of digits -/

theorem digitCount_bounds {n : Nat} (hn : 0 < n) :
    10 ^ (digitCount n - 1) ≤ n ∧ n < 10 ^ digitCount n :=
  ⟨Nat.pow_log_le_self 10 hn.ne', Nat.lt_pow_succ_log_self (by norm_num) n⟩

/-- The exponent of the leading digit of a decimal. -/
theorem toRat_bounds {d : Decimal} (hd : 0 < d.coefficient) :
    (10 : ℚ) ^ (d.exponent + digitCount d.coefficient - 1) ≤ d.toRat ∧
      d.toRat < (10 : ℚ) ^ (d.exponent + digitCount d.coefficient) := by
  obtain ⟨hlow, hhigh⟩ := digitCount_bounds hd
  have hpositive : 0 < digitCount d.coefficient := Nat.succ_pos _
  constructor
  · rw [show d.exponent + (digitCount d.coefficient : Int) - 1
      = ((digitCount d.coefficient - 1 : Nat) : Int) + d.exponent by omega,
      zpow_add₀ (by norm_num), zpow_natCast, toRat]
    exact mul_le_mul_of_nonneg_right (by exact_mod_cast hlow) (ten_zpow_pos _).le
  · rw [add_comm d.exponent, zpow_add₀ (by norm_num), zpow_natCast, toRat]
    exact mul_lt_mul_of_pos_right (by exact_mod_cast hhigh) (ten_zpow_pos _)

/-- The number of digits in front of the point is determined. -/
theorem exponent_unique {x : ℚ} {e e' : Int} (hlow : (10 : ℚ) ^ (e - 1) ≤ x)
    (hhigh : x < (10 : ℚ) ^ e) (hlow' : (10 : ℚ) ^ (e' - 1) ≤ x) (hhigh' : x < (10 : ℚ) ^ e') :
    e = e' := by
  have h₁ := (zpow_lt_zpow_iff_right₀ (by norm_num : (1 : ℚ) < 10)).mp (hlow.trans_lt hhigh')
  have h₂ := (zpow_lt_zpow_iff_right₀ (by norm_num : (1 : ℚ) < 10)).mp (hlow'.trans_lt hhigh)
  omega

/-- A near integer below `10 ^ (p - 1)` is near by less than one half. -/
theorem Near.exponent_neg {p : Nat} {x : ℚ} {k : Nat} {e : Int} (hp : 0 < p)
    (hk : k < 10 ^ (p - 1)) (hlow : (10 : ℚ) ^ (e + p - 1) ≤ x)
    (hnear : |x - k| ≤ (10 : ℚ) ^ e / 2) : e < 0 := by
  by_contra hnot
  have hk' : (k : ℚ) + 1 ≤ (10 : ℚ) ^ ((p - 1 : Nat) : Int) := by
    rw [zpow_natCast]
    exact_mod_cast hk
  have hone : (1 : ℚ) ≤ (10 : ℚ) ^ e := one_le_zpow₀ (by norm_num) (by omega)
  have hgrid : (1 : ℚ) ≤ (10 : ℚ) ^ ((p - 1 : Nat) : Int) :=
    one_le_zpow₀ (by norm_num) (by omega)
  have hsplit : (10 : ℚ) ^ (e + p - 1) = (10 : ℚ) ^ e * (10 : ℚ) ^ ((p - 1 : Nat) : Int) := by
    rw [← zpow_add₀ (by norm_num)]
    congr 1
    omega
  have hupper := (abs_le.mp hnear).2
  nlinarith [mul_nonneg (sub_nonneg.mpr hone) (sub_nonneg.mpr hgrid)]

/-- An integer is its own near integer. -/
theorem near_self {p : Nat} {d : Decimal} {k : Nat} (hd : 0 < d.coefficient) (h : d.toRat = k) :
    Near p d.toRat k := by
  obtain ⟨hlow, hhigh⟩ := toRat_bounds hd
  refine ⟨d.exponent + digitCount d.coefficient - p, ?_, ?_, ?_⟩
  · rwa [sub_add_cancel]
  · rwa [sub_add_cancel]
  · rw [h, sub_self, abs_zero]
    exact (div_pos (ten_zpow_pos _) (by norm_num)).le

/-- Two integers less than one apart. -/
theorem natCast_eq_of_near {a b : Nat} {t : ℚ} (ht : t < 1) (h : |(a : ℚ) - b| ≤ t) : a = b := by
  obtain ⟨hlow, hhigh⟩ := abs_le.mp h
  have h₁ : (a : ℚ) < b + 1 := by linarith
  have h₂ : (b : ℚ) < a + 1 := by linarith
  have h₁' : a < b + 1 := by exact_mod_cast h₁
  have h₂' : b < a + 1 := by exact_mod_cast h₂
  omega

/-- A decimal that has no more than `p` digits is near an integer only if it
is one. -/
theorem eq_of_near {p : Nat} {d : Decimal} {k : Nat} (hp : 0 < p) (hd : 0 < d.coefficient)
    (hk : k < 10 ^ (p - 1)) (hdigits : digitCount d.coefficient ≤ p) (h : Near p d.toRat k) :
    d.toRat = k := by
  obtain ⟨e, hlow, hhigh, hnear⟩ := h
  obtain ⟨hlow', hhigh'⟩ := toRat_bounds hd
  have he := exponent_unique hlow hhigh hlow' hhigh'
  have hneg := Near.exponent_neg hp hk hlow hnear
  rcases le_or_gt 0 d.exponent with hexponent | hexponent
  · have hpower := ten_pow_toNat hexponent
    rw [sub_zero, zpow_zero, mul_one] at hpower
    have hvalue : d.toRat = ((d.coefficient * 10 ^ d.exponent.toNat : Nat) : ℚ) := by
      rw [toRat, hpower]
      push_cast
      rfl
    rw [hvalue] at hnear ⊢
    have hhalf : (10 : ℚ) ^ e / 2 < 1 := by
      have hone : (10 : ℚ) ^ e ≤ 1 := zpow_le_one_of_nonpos₀ (by norm_num) hneg.le
      linarith
    rw [natCast_eq_of_near hhalf hnear]
  · -- both are multiples of `10 ^ d.exponent`, and `e` is not above it
    have hunit := ten_zpow_pos d.exponent
    have hle : (10 : ℚ) ^ e ≤ (10 : ℚ) ^ d.exponent :=
      zpow_le_zpow_right₀ (by norm_num) (by omega)
    have hinteger : (k : ℚ) = ((k * 10 ^ (-d.exponent).toNat : Nat) : ℚ) * (10 : ℚ) ^ d.exponent := by
      have hpower := ten_pow_toNat hexponent.le
      rw [zpow_zero, zero_sub] at hpower
      push_cast at hpower ⊢
      rw [mul_assoc, ← hpower, mul_one]
    rw [hinteger, toRat, ← sub_mul, abs_mul, abs_of_pos hunit] at hnear
    have hhalf : |(d.coefficient : ℚ) - ((k * 10 ^ (-d.exponent).toNat : Nat) : ℚ)| ≤ 1 / 2 := by
      refine le_of_mul_le_mul_right (hnear.trans ?_) hunit
      linarith
    rw [hinteger, toRat, natCast_eq_of_near (by norm_num) hhalf]

/-- What is left after dropping digits: the rounded quotient, in units of the
last digit kept. -/
theorem toRat_roundTo {p : Nat} {d : Decimal} (hp : 0 < p) (hd : p < digitCount d.coefficient) :
    (roundTo p d).toRat = (divHalfEven d.coefficient (10 ^ (digitCount d.coefficient - p)) : ℚ) *
      (10 : ℚ) ^ (d.exponent + digitCount d.coefficient - p) := by
  unfold roundTo
  dsimp only
  have hexponent : d.exponent + ((digitCount d.coefficient - p : Nat) : Int)
      = d.exponent + digitCount d.coefficient - p := by omega
  rw [if_neg (by omega)]
  split
  · rename_i hcarry
    rw [hcarry, toRat, hexponent]
    dsimp only
    rw [zpow_add_one₀ (by norm_num), Nat.cast_pow, Nat.cast_pow, Nat.cast_ofNat,
      show (10 : ℚ) ^ p = 10 ^ (p - 1) * 10 by rw [← pow_succ, Nat.sub_add_cancel hp]]
    ring
  · rw [toRat, hexponent]

/-- At most half a unit away, over the natural numbers. -/
theorem abs_sub_le_half_iff {c q d : Nat} {v : ℚ} (hv : 0 < v) :
    |(c : ℚ) * v - q * (d * v)| ≤ d * v / 2 ↔
      2 * (q * d) ≤ 2 * c + d ∧ 2 * c ≤ 2 * (q * d) + d := by
  rw [← mul_assoc, ← sub_mul, abs_mul, abs_of_pos hv, mul_div_right_comm,
    mul_le_mul_iff_left₀ hv, abs_le]
  constructor
  · rintro ⟨hlow, hhigh⟩
    have h₁ : 2 * ((q : ℚ) * d) ≤ 2 * c + d := by linarith
    have h₂ : 2 * (c : ℚ) ≤ 2 * (q * d) + d := by linarith
    exact_mod_cast And.intro h₁ h₂
  · rintro ⟨hlow, hhigh⟩
    have h₁ : 2 * ((q : ℚ) * d) ≤ 2 * c + d := by exact_mod_cast hlow
    have h₂ : 2 * (c : ℚ) ≤ 2 * (q * d) + d := by exact_mod_cast hhigh
    constructor <;> linarith

/-- Rounding makes an integer below `10 ^ (p - 1)` of exactly the numbers that
are near it. -/
theorem roundTo_eq_natCast_iff {p : Nat} {d : Decimal} {k : Nat} (hp : 0 < p)
    (hd : 0 < d.coefficient) (hk : k < 10 ^ (p - 1)) :
    (roundTo p d).toRat = k ↔ Near p d.toRat k := by
  rcases le_or_gt (digitCount d.coefficient) p with hdigits | hdigits
  · rw [roundTo, if_pos (by omega)]
    exact ⟨near_self hd, eq_of_near hp hd hk hdigits⟩
  · rw [toRat_roundTo hp hdigits]
    obtain ⟨hlow, hhigh⟩ := toRat_bounds hd
    have hpositive : 0 < 10 ^ (digitCount d.coefficient - p) := by positivity
    -- the unit of the last digit kept, in units of the last digit
    have hunit : (10 : ℚ) ^ (d.exponent + digitCount d.coefficient - p)
        = ((10 ^ (digitCount d.coefficient - p) : Nat) : ℚ) * (10 : ℚ) ^ d.exponent := by
      rw [ten_pow_toNat (show d.exponent ≤ d.exponent + digitCount d.coefficient - p by omega)]
      congr 3
      omega
    constructor
    · intro h
      refine ⟨d.exponent + digitCount d.coefficient - p, ?_, ?_, ?_⟩
      · rwa [sub_add_cancel]
      · rwa [sub_add_cancel]
      · rw [← h, hunit, toRat, abs_sub_le_half_iff (ten_zpow_pos _)]
        exact divHalfEven_near _ hpositive
    · rintro ⟨e, hlow', hhigh', hnear⟩
      have he := exponent_unique hlow' hhigh' hlow hhigh
      have hneg := Near.exponent_neg hp hk hlow' hnear
      obtain rfl : e = d.exponent + digitCount d.coefficient - p := by omega
      generalize d.exponent + (digitCount d.coefficient : Int) - p = e at *
      -- the integer is an even multiple of the unit
      have hinteger : (k : ℚ) = ((k * 10 ^ (-e).toNat : Nat) : ℚ) * (10 : ℚ) ^ e := by
        have hpower := ten_pow_toNat hneg.le
        rw [zpow_zero, zero_sub] at hpower
        push_cast at hpower ⊢
        rw [mul_assoc, ← hpower, mul_one]
      have heven : k * 10 ^ (-e).toNat % 2 = 0 := by
        obtain ⟨n, hn⟩ : ∃ n, (-e).toNat = n + 1 := ⟨(-e).toNat - 1, by omega⟩
        rw [hn, pow_succ, ← mul_assoc]
        omega
      rw [hinteger, hunit, toRat, abs_sub_le_half_iff (ten_zpow_pos _)] at hnear
      rw [divHalfEven_eq hpositive heven hnear.1 hnear.2]
      exact hinteger.symm

end Decimal
