import Mathlib

/-! # Machine numbers — 64-bit integers, 256-bit products, doubles

    Fixed-width arithmetic over the unbounded integers: the value is an `Int`, and
    every place where the machine wraps is a named reduction. Doubles are rationals,
    with the rounding of each operation written out. -/

namespace Machine

/-! ## 64-bit integers -/

/-- The largest `int64_t`. -/
def maxInt64 : Int := 9223372036854775807

/-- The smallest `int64_t`. -/
def minInt64 : Int := -9223372036854775808

/-- The value fits an `int64_t`. -/
def IsInt64 (x : Int) : Prop := minInt64 ≤ x ∧ x ≤ maxInt64

instance (x : Int) : Decidable (IsInt64 x) :=
  inferInstanceAs (Decidable (minInt64 ≤ x ∧ x ≤ maxInt64))

/-- Conversion to `int64_t`: two's complement wrap. -/
def toInt64 (x : Int) : Int := Int.bmod x (2 ^ 64)

/-- Conversion to `uint64_t`. -/
def toUInt64 (x : Int) : Int := x % 2 ^ 64

/-- Conversion to `uint32_t`. -/
def toUInt32 (x : Int) : Int := x % 2 ^ 32

theorem toInt64_of_isInt64 {x : Int} (h : IsInt64 x) : toInt64 x = x := by
  unfold IsInt64 minInt64 maxInt64 at h
  unfold toInt64
  rw [Int.bmod_eq_of_le] <;> omega

/-- A sum wraps once, however often its parts did. -/
theorem toInt64_add_toInt64 (x y : Int) : toInt64 (toInt64 x + y) = toInt64 (x + y) := by
  unfold toInt64
  rw [Int.bmod_add_bmod]

/-- An unsigned value keeps its value as an unsigned one. -/
theorem toUInt64_of_isInt64 {x : Int} (h0 : 0 ≤ x) (h : x ≤ maxInt64) : toUInt64 x = x := by
  unfold maxInt64 at h
  exact Int.emod_eq_of_lt h0 (by omega)

/-- An unsigned value of the lower half converts to itself. -/
theorem toInt64_natCast {n : Nat} (h : n < 2 ^ 63) : toInt64 n = n := by
  refine toInt64_of_isInt64 ?_
  unfold IsInt64 minInt64 maxInt64
  omega

theorem isInt64_toInt64 (x : Int) : IsInt64 (toInt64 x) := by
  unfold IsInt64 minInt64 maxInt64 toInt64
  have hlo := Int.le_bmod (x := x) (m := 2 ^ 64) (by norm_num)
  have hhi := Int.bmod_lt (x := x) (m := 2 ^ 64) (by norm_num)
  omega

@[simp] theorem toInt64_zero : toInt64 0 = 0 := rfl

/-! ## 256-bit unsigned integers -/

/-- Product of two `arith_uint256`. -/
def mul256 (a b : Nat) : Nat := a * b % 2 ^ 256

/-- Sum of two `arith_uint256`. -/
def add256 (a b : Nat) : Nat := (a + b) % 2 ^ 256

/-- Difference of two `arith_uint256`. -/
def sub256 (a b : Nat) : Nat := (a + 2 ^ 256 - b) % 2 ^ 256

/-- `DivideAndRoundUp`: `0` for a zero numerator, else `1 + (n - 1) / d`. -/
def divideAndRoundUp (n d : Nat) : Nat :=
  if n = 0 then 0 else (1 + (n - 1) / d) % 2 ^ 256

/-- Two 64-bit factors never wrap the 256-bit product. -/
theorem mul256_eq {a b : Nat} (ha : a < 2 ^ 64) (hb : b < 2 ^ 64) : mul256 a b = a * b := by
  unfold mul256
  apply Nat.mod_eq_of_lt
  calc a * b < 2 ^ 64 * 2 ^ 64 := Nat.mul_lt_mul'' ha hb
    _ ≤ 2 ^ 256 := by norm_num

/-- Rounding up, as the least count that covers the numerator. -/
theorem divideAndRoundUp_le_iff {n d k : Nat} (hd : 0 < d) (hn : n < 2 ^ 255) :
    divideAndRoundUp n d ≤ k ↔ n ≤ k * d := by
  unfold divideAndRoundUp
  by_cases h0 : n = 0
  · simp [h0]
  · rw [if_neg h0]
    have hq : (n - 1) / d ≤ n - 1 := Nat.div_le_self _ _
    have hlt : 1 + (n - 1) / d < 2 ^ 256 := by omega
    rw [Nat.mod_eq_of_lt hlt]
    constructor
    · intro h
      have h' : (n - 1) / d < k := by omega
      have := (Nat.div_lt_iff_lt_mul hd).mp h'
      omega
    · intro h
      have h' : (n - 1) / d < k := (Nat.div_lt_iff_lt_mul hd).mpr (by omega)
      omega

theorem le_divideAndRoundUp_mul {n d : Nat} (hd : 0 < d) (hn : n < 2 ^ 255) :
    n ≤ divideAndRoundUp n d * d :=
  (divideAndRoundUp_le_iff hd hn).mp le_rfl

/-- `DivideAndRoundUp` is the quotient, rounded up. -/
theorem ceil_div_eq {n d : Nat} (hd : 0 < d) (hn : n < 2 ^ 255) :
    ⌈(n : ℚ) / d⌉ = divideAndRoundUp n d := by
  have hdq : (0 : ℚ) < d := by exact_mod_cast hd
  refine le_antisymm (Int.ceil_le.mpr ?_) ?_
  · rw [div_le_iff₀ hdq]
    exact_mod_cast le_divideAndRoundUp_mul hd hn
  · have hnonneg : 0 ≤ ⌈(n : ℚ) / d⌉ := Int.ceil_nonneg (by positivity)
    have hle : (n : ℚ) / d ≤ ⌈(n : ℚ) / d⌉ := Int.le_ceil _
    rw [div_le_iff₀ hdq] at hle
    have hcover : divideAndRoundUp n d ≤ ⌈(n : ℚ) / d⌉.toNat := by
      rw [divideAndRoundUp_le_iff hd hn]
      have hint : (n : Int) ≤ ⌈(n : ℚ) / d⌉ * d := by exact_mod_cast hle
      zify
      rwa [Int.toNat_of_nonneg hnonneg]
    omega

/-! ## Doubles -/

/-- The integer nearest to a non-negative rational, ties to the even one. -/
def roundHalfEven (m : ℚ) : Int :=
  let f := ⌊m⌋
  let frac := m - f
  if frac < 1 / 2 then f
  else if 1 / 2 < frac then f + 1
  else if f % 2 = 0 then f else f + 1

/-- The binary exponent of a positive rational: `2 ^ e ≤ q < 2 ^ (e + 1)`. -/
def exponent (q : ℚ) : Int :=
  let e : Int := (Nat.log2 q.num.natAbs : Int) - Nat.log2 q.den
  if (2 : ℚ) ^ e ≤ q then e else e - 1

/-- Rounding to the nearest double of unbounded exponent: 53 significant bits, ties to
    even. -/
def roundDouble (q : ℚ) : ℚ :=
  if q = 0 then 0
  else
    let a := |q|
    let ulp := (2 : ℚ) ^ (exponent a - 52)
    (if q < 0 then -1 else 1) * (roundHalfEven (a / ulp) * ulp)

theorem two_zpow_exponent_le {q : ℚ} (h : 0 < q) : (2 : ℚ) ^ exponent q ≤ q := by
  unfold exponent
  dsimp only
  split
  · next hle => exact hle
  · -- the numerator is at least a power of two, the denominator less than the next one
    have hnum : q.num.natAbs ≠ 0 := by
      have := Rat.num_pos.mpr h
      omega
    have hlo : (2 : ℚ) ^ q.num.natAbs.log2 ≤ q.num.natAbs := by
      exact_mod_cast Nat.log2_self_le hnum
    have hhi : (q.den : ℚ) < 2 ^ (q.den.log2 + 1) := by
      exact_mod_cast Nat.lt_log2_self
    have hq : q = q.num.natAbs / q.den := by
      have habs : (q.num.natAbs : ℚ) = q.num := by
        have habs' : (q.num.natAbs : Int) = q.num := by
          have hpos := Rat.num_pos.mpr h
          omega
        rw [← Int.cast_natCast, habs']
      rw [habs]
      exact (Rat.num_div_den q).symm
    have hden : (0 : ℚ) < q.den := by exact_mod_cast q.den_pos
    have hexp : ((q.num.natAbs.log2 : Int) - q.den.log2 - 1) =
        (q.num.natAbs.log2 : Int) - ((q.den.log2 + 1 : Nat) : Int) := by
      push_cast
      ring
    rw [hexp, zpow_sub₀ (by norm_num), zpow_natCast, zpow_natCast]
    nth_rewrite 3 [hq]
    exact div_le_div₀ (by positivity) hlo hden hhi.le

/-- A positive rational rounds to a positive double. -/
theorem roundDouble_pos {q : ℚ} (h : 0 < q) : 0 < roundDouble q := by
  have hulp : (0 : ℚ) < 2 ^ (exponent q - 52) := by positivity
  have hscaled : (1 : ℚ) ≤ q / 2 ^ (exponent q - 52) := by
    rw [le_div_iff₀ hulp, one_mul]
    calc (2 : ℚ) ^ (exponent q - 52) ≤ 2 ^ exponent q := zpow_le_zpow_right₀ (by norm_num) (by omega)
      _ ≤ q := two_zpow_exponent_le h
  have hround : (0 : ℚ) < roundHalfEven (q / 2 ^ (exponent q - 52)) := by
    have hfloor : 1 ≤ ⌊q / 2 ^ (exponent q - 52)⌋ := Int.le_floor.mpr (by exact_mod_cast hscaled)
    have hle : ⌊q / 2 ^ (exponent q - 52)⌋ ≤ roundHalfEven (q / 2 ^ (exponent q - 52)) := by
      unfold roundHalfEven
      dsimp only
      split_ifs <;> omega
    exact_mod_cast (by omega : 0 < roundHalfEven (q / 2 ^ (exponent q - 52)))
  unfold roundDouble
  rw [if_neg h.ne']
  dsimp only
  rw [if_neg (not_lt.mpr h.le), abs_of_pos h, one_mul]
  exact mul_pos hround hulp

/-- Truncation of a double towards zero. -/
def truncDouble (q : ℚ) : Int := if 0 ≤ q then ⌊q⌋ else -⌊-q⌋

example : roundDouble (15 / 100) = 5404319552844595 / 2 ^ 55 := by decide +kernel

example : truncDouble (roundDouble (100 * roundDouble (1 + roundDouble (15 / 100)))) = 114 := by
  decide +kernel

end Machine
