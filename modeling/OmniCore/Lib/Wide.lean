import OmniCore.Lib.Exec
import OmniCore.Lib.Machine

/-! # Wide — 256-bit arithmetic inside a program

    A program that divides can halt, and a program that multiplies can lose the high bits
    without notice. `Arith256` says what happens then, so that one program text can be run
    in two ways: as the machine runs it, where results wrap, and CHECKED, where a result
    that does not fit halts. A result that fits is the same in both. -/

namespace Machine

open Exec

/-- What halts a calculation: a division by zero always, a result that does not fit only if it is
    not wrapped. -/
structure Arith256 (ε : Type) where
  byZero : ε
  onWrap : Option ε := none

namespace Arith256

variable {ε σ : Type} (o : Arith256 ε) {a b : Nat}

/-- A result of which only `n` is left. -/
def result (fits : Bool) (n : Nat) : EStateM ε σ Nat :=
  match o.onWrap with
  | none => pure n
  | some e => if fits then pure n else throw e

def add (a b : Nat) : EStateM ε σ Nat := o.result (decide (a + b < 2 ^ 256)) (add256 a b)

def sub (a b : Nat) : EStateM ε σ Nat := o.result (decide (b ≤ a)) (sub256 a b)

def mul (a b : Nat) : EStateM ε σ Nat := o.result (decide (a * b < 2 ^ 256)) (mul256 a b)

def div (a b : Nat) : EStateM ε σ Nat := if b = 0 then throw o.byZero else pure (a / b)

/-- `a - (n * (a / n))`. -/
def modulo (a n : Nat) : EStateM ε σ Nat := do
  let quotient ← o.div a n
  let whole ← o.mul n quotient
  o.sub a whole

/-! ## Results that fit -/

theorem result_true (n : Nat) : (o.result true n : EStateM ε σ Nat) = pure n := by
  unfold result
  cases o.onWrap with
  | none => rfl
  | some e => rfl

theorem add_eq (h : a + b < 2 ^ 256) : (o.add a b : EStateM ε σ Nat) = pure (a + b) := by
  unfold add add256
  rw [decide_eq_true h, result_true, Nat.mod_eq_of_lt h]

theorem sub_eq (ha : a < 2 ^ 256) (h : b ≤ a) : (o.sub a b : EStateM ε σ Nat) = pure (a - b) := by
  unfold sub sub256
  rw [decide_eq_true h, result_true]
  congr 1
  omega

theorem mul_eq (h : a * b < 2 ^ 256) : (o.mul a b : EStateM ε σ Nat) = pure (a * b) := by
  unfold mul mul256
  rw [decide_eq_true h, result_true, Nat.mod_eq_of_lt h]

theorem div_eq (h : 0 < b) : (o.div a b : EStateM ε σ Nat) = pure (a / b) := by
  unfold div
  rw [if_neg (by omega)]

theorem div_zero : (o.div a 0 : EStateM ε σ Nat) = throw o.byZero := rfl

theorem modulo_eq (ha : a < 2 ^ 256) (h : 0 < b) :
    (o.modulo a b : EStateM ε σ Nat) = pure (a % b) := by
  have hle : b * (a / b) ≤ a := Nat.mul_div_le a b
  have hmod : a - b * (a / b) = a % b := by
    have hsplit : a % b + b * (a / b) = a := Nat.mod_add_div a b
    omega
  unfold modulo
  rw [o.div_eq h, pure_bind, o.mul_eq (by omega), pure_bind, o.sub_eq ha hle, hmod]

/-! ## Frames -/

section Keeps

variable {τ : Type} {view : σ → τ}

theorem keeps_result (fits : Bool) (n : Nat) : Keeps view (o.result fits n : EStateM ε σ Nat) := by
  unfold result
  split
  · exact Keeps.pure n
  · exact (Keeps.pure n).ite (Keeps.throw _)

theorem keeps_add (a b : Nat) : Keeps view (o.add a b : EStateM ε σ Nat) := o.keeps_result _ _

theorem keeps_sub (a b : Nat) : Keeps view (o.sub a b : EStateM ε σ Nat) := o.keeps_result _ _

theorem keeps_mul (a b : Nat) : Keeps view (o.mul a b : EStateM ε σ Nat) := o.keeps_result _ _

theorem keeps_div (a b : Nat) : Keeps view (o.div a b : EStateM ε σ Nat) :=
  (Keeps.throw _).ite (Keeps.pure _)

theorem keeps_modulo (a b : Nat) : Keeps view (o.modulo a b : EStateM ε σ Nat) :=
  (o.keeps_div a b).bind fun _ => (o.keeps_mul _ _).bind fun _ => o.keeps_sub _ _

end Keeps

end Arith256

end Machine
