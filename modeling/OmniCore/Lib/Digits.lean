import OmniCore.Lib.Text

/-! # Digits — digit strings put together, cut, and compared

    A digit string is read from left to right, so what is appended shifts what stands before
    it, and a cut divides by a power of ten. As texts, digit strings of different length are
    compared by the shorter length only. -/

namespace TextRec

/-! ## Values -/

@[simp] theorem digitsVal_nil : digitsVal [] = 0 := rfl

/-- What is appended shifts what stands before it. -/
theorem digitsVal_append (l t : Text) :
    digitsVal (l ++ t) = digitsVal l * 10 ^ t.length + digitsVal t := by
  induction l with
  | nil => simp
  | cons c l ih =>
      rw [List.cons_append, digitsVal_cons, digitsVal_cons, ih, List.length_append, Nat.pow_add]
      ring

/-- Zeros behind a digit string multiply it. -/
theorem digitsVal_append_zeros (l : Text) (k : Nat) :
    digitsVal (l ++ List.replicate k '0') = digitsVal l * 10 ^ k := by
  have hzeros : digitsVal (List.replicate k '0') = 0 := by
    induction k with
    | zero => rfl
    | succ k ih =>
        rw [List.replicate_succ, digitsVal_cons, ih, Nat.sub_self, Nat.zero_mul]
  rw [digitsVal_append, hzeros, List.length_replicate, Nat.add_zero]

/-- **A CUT DIVIDES**: the first digits of a digit string are its value rounded down. -/
theorem digitsVal_take {l : Text} (hl : l.all Char.isDigit = true) (n : Nat) :
    digitsVal (l.take n) = digitsVal l / 10 ^ (l.length - n) := by
  have hrest : digitsVal (l.drop n) < 10 ^ (l.drop n).length := by
    refine digitsVal_lt (List.all_eq_true.mpr fun c hc => ?_)
    exact List.all_eq_true.mp hl c (List.mem_of_mem_drop hc)
  rw [List.length_drop] at hrest
  have hsplit : digitsVal l =
      digitsVal (l.take n) * 10 ^ (l.length - n) + digitsVal (l.drop n) := by
    rw [← List.length_drop, ← digitsVal_append, List.take_append_drop]
  rw [hsplit, Nat.mul_comm, Nat.mul_add_div (Nat.pow_pos (by omega)), Nat.div_eq_of_lt hrest,
    Nat.add_zero]

/-- Without a minus sign a number is read from digits, and from digits behind a plus sign. -/
theorem readInt_eq_some_iff {t : Text} (hneg : '-' ∉ t) {n : Int} :
    readInt t = some n ↔ ∃ d, (t = d ∨ t = '+' :: d) ∧ isDigits d = true ∧ n = digitsVal d := by
  constructor
  · intro h
    unfold readInt at h
    split at h
    · exact absurd List.mem_cons_self hneg
    · next d =>
        by_cases hd : isDigits d = true
        · rw [if_pos hd] at h
          exact ⟨d, .inr rfl, hd, (Option.some.inj h).symm⟩
        · rw [if_neg hd] at h
          exact nomatch h
    · by_cases hd : isDigits t = true
      · rw [if_pos hd] at h
        exact ⟨t, .inl rfl, hd, (Option.some.inj h).symm⟩
      · rw [if_neg hd] at h
        exact nomatch h
  · rintro ⟨d, rfl | rfl, hdigits, rfl⟩
    · exact readInt_digits hdigits
    · show (if isDigits d = true then some (digitsVal d : Int) else none) = _
      rw [if_pos hdigits]

/-- What was read is cast just if it is in range. -/
theorem castInt_of_readInt {w : Nat} {t : Text} {n : Int} (h : readInt t = some n) :
    castInt w t = if -(2 ^ (w - 1) : Int) ≤ n ∧ n < 2 ^ (w - 1) then some n else none := by
  unfold castInt
  rw [h]

/-! ## Order -/

/-- **DIGIT STRINGS OF DIFFERENT LENGTH**: of two different ones the shorter comes first just if it
    is at most what the longer one starts with. -/
theorem compare_digits_lt_iff {l l' : Text} (hl : l.all Char.isDigit = true)
    (hl' : l'.all Char.isDigit = true) (hlen : l.length ≤ l'.length) (hne : l ≠ l') :
    compare l l' = .lt ↔ digitsVal l ≤ digitsVal l' / 10 ^ (l'.length - l.length) := by
  have htake : (l'.take l.length).all Char.isDigit = true :=
    List.all_eq_true.mpr fun c hc => List.all_eq_true.mp hl' c (List.mem_of_mem_take hc)
  have hsame : l.length = (l'.take l.length).length := by
    rw [List.length_take]
    omega
  have hcompare : compare l l' = (compare (digitsVal l) (digitsVal (l'.take l.length))).then
      (compare [] (l'.drop l.length)) := by
    rw [← compare_digits hl htake hsame, ← compare_append hsame, List.append_nil,
      List.take_append_drop]
  rw [← digitsVal_take hl', hcompare]
  rcases Nat.lt_trichotomy (digitsVal l) (digitsVal (l'.take l.length)) with h | h | h
  · rw [Nat.compare_eq_lt.mpr h]
    exact iff_of_true rfl h.le
  · -- nothing decides but what is left of the longer one
    rw [Nat.compare_eq_eq.mpr h]
    refine iff_of_true ?_ h.le
    cases hrest : l'.drop l.length with
    | cons c rest => rfl
    | nil =>
        have heq : compare l (l'.take l.length) = .eq := by
          rw [compare_digits hl htake hsame]
          exact Nat.compare_eq_eq.mpr h
        refine absurd ?_ hne
        rw [Std.LawfulEqOrd.eq_of_compare heq]
        conv_rhs => rw [← List.take_append_drop l.length l', hrest, List.append_nil]
  · rw [Nat.compare_eq_gt.mpr h]
    exact iff_of_false (fun hgt => Ordering.noConfusion hgt) (Nat.not_le.mpr h)

/-- Padding widens a number to at least the width. -/
theorem length_padNat_max (w n : Nat) : (padNat w n).length = max w (decNat n).length := by
  unfold padNat
  rw [List.length_append, List.length_replicate]
  omega

theorem length_decNat_mono {a b : Nat} (h : a ≤ b) : (decNat a).length ≤ (decNat b).length := by
  have hpos : 0 < (decNat b).length := List.length_pos_iff.mpr (decNat_ne_nil b)
  have hb : b < 10 ^ (decNat b).length :=
    (Nat.length_toDigits_le_iff (by omega) hpos).mp le_rfl
  exact length_decNat_le hpos (lt_of_le_of_lt h hb)

end TextRec
