import OmniCore.Lib.Exec

/-! # Ratio — fractions of bounded integers

    A fraction keeps numerator and denominator in lowest terms and cancels before it
    multiplies. Its integers are checked: a result that needs more bits halts. `Is` says
    which number a fraction stands for and how large its parts are, so that a chain of
    operations can be seen not to halt. -/

namespace Machine

open Exec

variable {ε σ : Type}

/-- A result of checked integers with `w` bits and a sign. -/
def checkedInt (w : Nat) (e : ε) (n : Int) : EStateM ε σ Int :=
  if n.natAbs < 2 ^ w then pure n else throw e

theorem checkedInt_eq {w : Nat} {e : ε} {n b : Int} (h0 : 0 ≤ n) (hle : n ≤ b) (hb : b < 2 ^ w) :
    (checkedInt w e n : EStateM ε σ Int) = pure n := by
  have hlt : n.natAbs < 2 ^ w := by
    zify
    rw [abs_of_nonneg h0]
    exact hle.trans_lt hb
  unfold checkedInt
  rw [if_pos hlt]

/-- A numerator and a denominator. -/
structure Ratio where
  num : Int
  den : Int
  deriving DecidableEq

namespace Ratio

/-- The fraction of two integers, in lowest terms and with a positive denominator. -/
def make (byZero : ε) (num den : Int) : EStateM ε σ Ratio :=
  if den = 0 then throw byZero
  else
    let gcd : Int := Int.gcd num den
    pure ⟨den.sign * num / gcd, den.sign * den / gcd⟩

/-- Product with an integer; common factors are cancelled first. -/
def mulInt (w : Nat) (e : ε) (r : Ratio) (i : Int) : EStateM ε σ Ratio := do
  let gcd : Int := Int.gcd i r.den
  let num ← checkedInt w e (r.num * (i / gcd))
  pure ⟨num, r.den / gcd⟩

/-- Quotient by a positive integer; common factors are cancelled first. -/
def divInt (w : Nat) (e : ε) (r : Ratio) (i : Int) : EStateM ε σ Ratio :=
  if r.num = 0 then pure r
  else do
    let gcd : Int := Int.gcd r.num i
    let den ← checkedInt w e (r.den * (i / gcd))
    pure ⟨r.num / gcd, den⟩

/-- A positive fraction stands for `q`, and its parts are bounded. -/
structure Is (r : Ratio) (q : ℚ) (maxNum maxDen : Int) : Prop where
  num_pos : 0 < r.num
  den_pos : 0 < r.den
  value : (r.num : ℚ) / r.den = q
  num_le : r.num ≤ maxNum
  den_le : r.den ≤ maxDen

/-- Cancelling a common factor of two positive integers. -/
theorem cancelled {a b g : Int} (ha : 0 < a) (hb : 0 < b) (hg : 0 < g) (hga : g ∣ a) (hgb : g ∣ b) :
    0 < a / g ∧ 0 < b / g ∧ ((a / g : Int) : ℚ) / ((b / g : Int) : ℚ) = (a : ℚ) / b ∧
      a / g ≤ a ∧ b / g ≤ b := by
  obtain ⟨a', rfl⟩ := hga
  obtain ⟨b', rfl⟩ := hgb
  have hgq : (g : ℚ) ≠ 0 := by exact_mod_cast hg.ne'
  rw [Int.mul_ediv_cancel_left _ hg.ne', Int.mul_ediv_cancel_left _ hg.ne']
  have ha' : 0 < a' := pos_of_mul_pos_right ha hg.le
  have hb' : 0 < b' := pos_of_mul_pos_right hb hg.le
  refine ⟨ha', hb', ?_, le_mul_of_one_le_left ha'.le hg, le_mul_of_one_le_left hb'.le hg⟩
  push_cast
  rw [mul_div_mul_left _ _ hgq]

theorem gcd_pos {a b : Int} (hb : 0 < b) : 0 < (Int.gcd a b : Int) := by
  exact_mod_cast Int.gcd_pos_of_ne_zero_right a hb.ne'

/-- A fraction of positive integers. -/
theorem make_is {byZero : ε} {num den maxNum maxDen : Int} (hnum : 0 < num) (hden : 0 < den)
    (hnum' : num ≤ maxNum) (hden' : den ≤ maxDen) :
    ∃ r : Ratio, (make byZero num den : EStateM ε σ Ratio) = pure r ∧
      r.Is ((num : ℚ) / den) maxNum maxDen := by
  have hcancel := cancelled hnum hden (gcd_pos (a := num) hden) (Int.gcd_dvd_left _ _)
    (Int.gcd_dvd_right _ _)
  obtain ⟨h1, h2, hvalue, h3, h4⟩ := hcancel
  refine ⟨⟨num / Int.gcd num den, den / Int.gcd num den⟩, ?_, h1, h2, hvalue, h3.trans hnum',
    h4.trans hden'⟩
  unfold make
  rw [if_neg hden.ne', Int.sign_eq_one_of_pos hden, one_mul, one_mul]

/-- A product with a positive integer. -/
theorem mulInt_is {w : Nat} {e : ε} {r : Ratio} {q : ℚ} {i maxNum maxDen : Int}
    (h : r.Is q maxNum maxDen) (hi : 0 < i) (hbound : maxNum * i < 2 ^ w) :
    ∃ r' : Ratio, (r.mulInt w e i : EStateM ε σ Ratio) = pure r' ∧
      r'.Is (q * i) (maxNum * i) maxDen := by
  obtain ⟨hfactor, hden, hvalue, hle, hdle⟩ := cancelled hi h.den_pos (gcd_pos (a := i) h.den_pos)
    (Int.gcd_dvd_left _ _) (Int.gcd_dvd_right _ _)
  have hpos : 0 < r.num * (i / Int.gcd i r.den) := mul_pos h.num_pos hfactor
  have hnum : r.num * (i / Int.gcd i r.den) ≤ maxNum * i :=
    mul_le_mul h.num_le hle hfactor.le (h.num_pos.le.trans h.num_le)
  refine ⟨⟨r.num * (i / Int.gcd i r.den), r.den / Int.gcd i r.den⟩, ?_, hpos, hden, ?_, hnum,
    hdle.trans h.den_le⟩
  · unfold mulInt
    dsimp only
    rw [checkedInt_eq hpos.le hnum hbound, pure_bind]
  · push_cast at hvalue ⊢
    rw [mul_div_assoc, hvalue, ← h.value]
    ring

/-- A quotient by a positive integer. -/
theorem divInt_is {w : Nat} {e : ε} {r : Ratio} {q : ℚ} {i maxNum maxDen : Int}
    (h : r.Is q maxNum maxDen) (hi : 0 < i) (hbound : maxDen * i < 2 ^ w) :
    ∃ r' : Ratio, (r.divInt w e i : EStateM ε σ Ratio) = pure r' ∧
      r'.Is (q / i) maxNum (maxDen * i) := by
  obtain ⟨hnum, hfactor, hvalue, hnle, hle⟩ := cancelled h.num_pos hi (gcd_pos (a := r.num) hi)
    (Int.gcd_dvd_left _ _) (Int.gcd_dvd_right _ _)
  have hpos : 0 < r.den * (i / Int.gcd r.num i) := mul_pos h.den_pos hfactor
  have hden : r.den * (i / Int.gcd r.num i) ≤ maxDen * i :=
    mul_le_mul h.den_le hle hfactor.le (h.den_pos.le.trans h.den_le)
  refine ⟨⟨r.num / Int.gcd r.num i, r.den * (i / Int.gcd r.num i)⟩, ?_, hnum, hpos, ?_,
    hnle.trans h.num_le, hden⟩
  · unfold divInt
    rw [if_neg h.num_pos.ne']
    dsimp only
    rw [checkedInt_eq hpos.le hden hbound, pure_bind]
  · push_cast at hvalue ⊢
    rw [mul_comm (r.den : ℚ), ← div_div, hvalue, ← h.value]
    ring

/-- `1 + (num - 1) / den` rounds up. -/
theorem Is.ceil_eq {r : Ratio} {q : ℚ} {maxNum maxDen : Int} (h : r.Is q maxNum maxDen) :
    1 + (r.num - 1).tdiv r.den = ⌈q⌉ := by
  have hnum := h.num_pos
  have hden : (0 : ℚ) < r.den := by exact_mod_cast h.den_pos
  rw [Int.tdiv_eq_ediv_of_nonneg (by omega), eq_comm, Int.ceil_eq_iff, ← h.value]
  constructor
  · rw [lt_div_iff₀ hden]
    have hlow : (r.num - 1) / r.den * r.den ≤ r.num - 1 := Int.ediv_mul_le _ h.den_pos.ne'
    have hlow' : (1 + (r.num - 1) / r.den - 1) * r.den < r.num := by
      rw [add_sub_cancel_left]
      omega
    exact_mod_cast hlow'
  · rw [div_le_iff₀ hden]
    have hhigh : r.num - 1 < ((r.num - 1) / r.den + 1) * r.den :=
      Int.lt_ediv_add_one_mul_self _ h.den_pos
    have hhigh' : r.num ≤ (1 + (r.num - 1) / r.den) * r.den := by
      rw [add_comm 1]
      omega
    exact_mod_cast hhigh'

end Ratio

end Machine
