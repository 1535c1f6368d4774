import OmniCore.Lib.Machine

/-! # Signed sums — 64-bit additions and subtractions that may not overflow

    Where a signed operation overflows, the program has no meaning. An operation is the exact one,
    or nothing; a program that never comes to nothing never overflows. -/

namespace Machine

theorem isInt64_toInt (a : Int64) : IsInt64 a.toInt := by
  have hlo := a.le_toInt
  have hhi := a.toInt_lt
  unfold IsInt64 minInt64 maxInt64
  omega

/-- `a + b`, where it does not overflow. -/
def addSigned (a b : Int64) : Option Int64 :=
  if IsInt64 (a.toInt + b.toInt) then some (a + b) else none

/-- `a - b`, where it does not overflow. -/
def subSigned (a b : Int64) : Option Int64 :=
  if IsInt64 (a.toInt - b.toInt) then some (a - b) else none

/-- An addition is exact. -/
theorem addSigned_eq {a b : Int64} (h : IsInt64 (a.toInt + b.toInt)) :
    ∃ c, addSigned a b = some c ∧ c.toInt = a.toInt + b.toInt := by
  refine ⟨a + b, if_pos h, ?_⟩
  rw [Int64.toInt_add]
  exact toInt64_of_isInt64 h

/-- A subtraction is exact. -/
theorem subSigned_eq {a b : Int64} (h : IsInt64 (a.toInt - b.toInt)) :
    ∃ c, subSigned a b = some c ∧ c.toInt = a.toInt - b.toInt := by
  refine ⟨a - b, if_pos h, ?_⟩
  rw [Int64.toInt_sub]
  exact toInt64_of_isInt64 h

end Machine
