import Mathlib

/-! # Radix — numerals rewritten in another base

    A numeral of one base is turned into a numeral of another one digit by digit: the
    result is multiplied by the old base, the next digit is added, and a carry runs
    through the array of the new digits. Digits are listed from the least significant
    one, in the order in which the carry meets them. -/

namespace Radix

/-! ## One step -/

/-- Multiplies a numeral by `m` and adds `carry`; what does not fit is carried out. -/
def mulAdd (b m : Nat) : List Nat → Nat → List Nat × Nat
  | [], carry => ([], carry)
  | d :: rest, carry =>
      let r := mulAdd b m rest ((carry + m * d) / b)
      ((carry + m * d) % b :: r.1, r.2)

/-- The same, but it stops as soon as nothing is carried and `n` digits are done; it also counts the
    digits that are done. -/
def mulAddUpTo (b m : Nat) : Nat → List Nat → Nat → List Nat × Nat × Nat
  | _, [], carry => ([], carry, 0)
  | n, d :: rest, carry =>
      if carry = 0 ∧ n = 0 then (d :: rest, carry, 0)
      else
        let r := mulAddUpTo b m (n - 1) rest ((carry + m * d) / b)
        ((carry + m * d) % b :: r.1, r.2.1, r.2.2 + 1)

variable {b m : Nat}

@[simp] theorem length_mulAdd (l : List Nat) (carry : Nat) :
    (mulAdd b m l carry).1.length = l.length := by
  induction l generalizing carry with
  | nil => rfl
  | cons d rest ih => simp [mulAdd, ih]

theorem lt_of_mem_mulAdd (hb : 0 < b) (l : List Nat) (carry : Nat) :
    ∀ d ∈ (mulAdd b m l carry).1, d < b := by
  induction l generalizing carry with
  | nil => simp [mulAdd]
  | cons d rest ih =>
      intro x hx
      rcases List.mem_cons.mp hx with rfl | hx
      · exact Nat.mod_lt _ hb
      · exact ih _ x hx

/-- The value after a step, with what was carried out. -/
theorem value_mulAdd (l : List Nat) (carry : Nat) :
    Nat.ofDigits b (mulAdd b m l carry).1 + b ^ l.length * (mulAdd b m l carry).2 =
      m * Nat.ofDigits b l + carry := by
  induction l generalizing carry with
  | nil => simp [mulAdd]
  | cons d rest ih =>
      have hrest := ih ((carry + m * d) / b)
      have hsplit := Nat.mod_add_div (carry + m * d) b
      simp only [mulAdd, Nat.ofDigits_cons, List.length_cons, pow_succ]
      calc (carry + m * d) % b + b * Nat.ofDigits b (mulAdd b m rest ((carry + m * d) / b)).1 +
              b ^ rest.length * b * (mulAdd b m rest ((carry + m * d) / b)).2
          = (carry + m * d) % b + b * (Nat.ofDigits b (mulAdd b m rest ((carry + m * d) / b)).1 +
              b ^ rest.length * (mulAdd b m rest ((carry + m * d) / b)).2) := by ring
        _ = (carry + m * d) % b + b * ((carry + m * d) / b) + b * (m * Nat.ofDigits b rest) := by
            rw [hrest]
            ring
        _ = m * (d + b * Nat.ofDigits b rest) + carry := by
            rw [hsplit]
            ring

/-- **NOTHING IS CARRIED OUT** of an array that is long enough for the new value. -/
theorem mulAdd_fits {l : List Nat} {carry : Nat}
    (h : m * Nat.ofDigits b l + carry < b ^ l.length) :
    (mulAdd b m l carry).2 = 0 ∧
      Nat.ofDigits b (mulAdd b m l carry).1 = m * Nat.ofDigits b l + carry := by
  have hvalue := value_mulAdd (b := b) (m := m) l carry
  have hzero : (mulAdd b m l carry).2 = 0 := by
    by_contra hne
    have hpos : b ^ l.length * 1 ≤ b ^ l.length * (mulAdd b m l carry).2 :=
      Nat.mul_le_mul_left _ (Nat.pos_of_ne_zero hne)
    omega
  rw [hzero, Nat.mul_zero, Nat.add_zero] at hvalue
  exact ⟨hzero, hvalue⟩

/-- Zeros stay zeros. -/
theorem mulAdd_zeros {l : List Nat} (h : ∀ d ∈ l, d = 0) : mulAdd b m l 0 = (l, 0) := by
  induction l with
  | nil => rfl
  | cons d rest ih =>
      have hd : d = 0 := h d (by simp)
      have hrest := ih fun x hx => h x (by simp [hx])
      simp [mulAdd, hd, hrest]

/-- Stopping early changes nothing if there are only zeros behind the first `n` digits; behind the
    digits that were done there are only zeros again. -/
theorem mulAddUpTo_eq {n : Nat} {l : List Nat} (carry : Nat) (h : ∀ d ∈ l.drop n, d = 0) :
    (mulAddUpTo b m n l carry).1 = (mulAdd b m l carry).1 ∧
      (mulAddUpTo b m n l carry).2.1 = (mulAdd b m l carry).2 ∧
      (mulAddUpTo b m n l carry).2.2 ≤ l.length ∧
      ∀ d ∈ (mulAdd b m l carry).1.drop (mulAddUpTo b m n l carry).2.2, d = 0 := by
  induction l generalizing n carry with
  | nil => simp [mulAddUpTo, mulAdd]
  | cons d rest ih =>
      unfold mulAddUpTo
      by_cases hstop : carry = 0 ∧ n = 0
      · rw [if_pos hstop]
        rw [hstop.2, List.drop_zero] at h
        rw [hstop.1, mulAdd_zeros h]
        exact ⟨rfl, rfl, Nat.zero_le _, by simpa using h⟩
      · rw [if_neg hstop]
        have hrest : ∀ x ∈ rest.drop (n - 1), x = 0 := by
          intro x hx
          refine h x ?_
          cases n with
          | zero => exact List.mem_cons_of_mem _ (by simpa using hx)
          | succ n => simpa using hx
        obtain ⟨h1, h2, h3, h4⟩ := ih ((carry + m * d) / b) hrest
        refine ⟨?_, h2, Nat.succ_le_succ h3, ?_⟩
        · show _ :: _ = _ :: _
          rw [h1]
        · simpa [mulAdd] using h4

/-! ## Numerals without leading zeros -/

/-- Zeros at the end add nothing. -/
theorem ofDigits_take {l : List Nat} {n : Nat} (h : ∀ d ∈ l.drop n, d = 0) :
    Nat.ofDigits b (l.take n) = Nat.ofDigits b l := by
  have hzeros : l.drop n = List.replicate (l.drop n).length 0 := List.eq_replicate_of_mem h
  conv_rhs => rw [← List.take_append_drop n l, hzeros, Nat.ofDigits_append_replicate_zero]

/-- **CANONICAL NUMERALS**: without its leading zeros, a numeral is the one of its value. -/
theorem dropWhile_reverse (hb : 1 < b) {l : List Nat} (h : ∀ d ∈ l, d < b) :
    l.reverse.dropWhile (· = 0) = (Nat.digits b (Nat.ofDigits b l)).reverse := by
  have hdigits : l = Nat.digitsAppend b l.length (Nat.ofDigits b l) :=
    ((Nat.setInvOn_digitsAppend_ofDigits hb l.length).1 ⟨rfl, h⟩).symm
  conv_lhs => rw [hdigits, Nat.digitsAppend, List.reverse_append, List.reverse_replicate]
  rw [List.dropWhile_append_of_pos (by simp)]
  -- the most significant digit of a value is not 0
  by_cases hzero : Nat.ofDigits b l = 0
  · simp [hzero]
  · have hne : Nat.digits b (Nat.ofDigits b l) ≠ [] := Nat.digits_ne_nil_iff_ne_zero.mpr hzero
    have hlast := Nat.getLast_digit_ne_zero b hzero
    cases hrev : (Nat.digits b (Nat.ofDigits b l)).reverse with
    | nil => rfl
    | cons d rest =>
        have hd : d ≠ 0 := by
          have hhead : (Nat.digits b (Nat.ofDigits b l)).getLast hne = d := by
            rw [List.getLast_eq_head_reverse]
            simp [hrev]
          rw [← hhead]
          exact hlast
        simp [hd]

/-- A numeral whose most significant digit is not 0 is the one of its value. -/
theorem digits_ofDigits_reverse (hb : 1 < b) {l : List Nat} (h : ∀ d ∈ l, d < b)
    (hhead : ∀ d ∈ l.head?, d ≠ 0) :
    (Nat.digits b (Nat.ofDigits b l.reverse)).reverse = l := by
  rw [← dropWhile_reverse hb (by simpa using h), List.reverse_reverse]
  cases l with
  | nil => rfl
  | cons d rest => simp [hhead d rfl]

/-! ## Room for the other base -/

/-- If `q` digits of base `a` fit into `p` digits of base `b`, then `n` digits of base `a` fit into
    `n * p / q + 1` digits of base `b`. -/
theorem pow_le_capacity {a p q : Nat} (hb : 0 < b) (hq : 0 < q) (h : a ^ q ≤ b ^ p) (n : Nat) :
    a ^ n ≤ b ^ (n * p / q + 1) := by
  refine (Nat.pow_le_pow_iff_left hq.ne').mp ?_
  have hexp : n * p ≤ (n * p / q + 1) * q := by
    have hdiv := Nat.div_add_mod (n * p) q
    have hmod := Nat.mod_lt (n * p) hq
    rw [Nat.add_mul, Nat.one_mul, Nat.mul_comm _ q]
    omega
  calc (a ^ n) ^ q = (a ^ q) ^ n := by rw [← pow_mul, ← pow_mul, Nat.mul_comm]
    _ ≤ (b ^ p) ^ n := Nat.pow_le_pow_left h n
    _ = b ^ (n * p) := by rw [← pow_mul, Nat.mul_comm]
    _ ≤ b ^ ((n * p / q + 1) * q) := Nat.pow_le_pow_right hb hexp
    _ = (b ^ (n * p / q + 1)) ^ q := pow_mul _ _ _

end Radix
