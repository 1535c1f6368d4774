import OmniCore.Lib.Digits
import OmniCore.MetaDExPrices

/-! # Amounts — reading and printing them

    An amount of a divisible property is a number with eight decimals. The reader never checks
    what it reads: it pads or cuts the text to eight decimals, drops the point, and leaves the
    rest to a cast to a 64-bit integer. The cast takes a plus sign, and it never sees what was
    cut off. -/

namespace OmniCore

open Machine TextRec Exec

/-! ## Texts and amounts -/

/-- `lexical_cast<int64_t>`; a text that cannot be cast leaves the amount 0. -/
def castAmount (t : Text) : Int := (castInt 64 t).getD 0

/-- `StrToInt64`. -/
def strToInt64 (str : Text) (divisible : Bool) : Int :=
  if '-' ∈ str then 0
  else if divisible then
    match str.findIdx? (· == '.') with
    | none => castAmount ((str ++ List.replicate 8 '0').filter (· != '.'))
    | some pos =>
        if '.' ∈ str.drop (pos + 1) then 0
        else if str.length - pos < 9 then
          let zerosToPad := 8 - (str.drop (pos + 1)).length
          castAmount ((str ++ List.replicate zerosToPad '0').filter (· != '.'))
        else castAmount ((str.take (pos + 9)).filter (· != '.'))
  else castAmount (str.take ((str.findIdx? (· == '.')).getD str.length))

/-- `FormatDivisibleMP`. -/
def formatDivisibleSignMP (n : Int) (fSign : Bool) : ExecM Text := do
  let str ← formatDivisibleMP n
  if !fSign then pure str
  else if n < 0 then pure ('-' :: str)
  else pure ('+' :: str)

/-- Zeros at the end are erased, and then a point there. -/
def cleanUp (t : Text) : Text :=
  let str := t.rdropWhile (· == '0')
  if str.getLast? = some '.' then str.dropLast else str

/-- `FormatDivisibleShortMP`. -/
def formatDivisibleShortMP (n : Int) : ExecM Text := do
  let nAbs ← signed64 (if 0 < n then n else -n)
  pure (cleanUp (priceText nAbs))

/-- `FormatIndivisibleMP`. -/
def formatIndivisibleMP (n : Int) : Text := decInt n

/-! ## Decimal numbers -/

/-- Digits, optionally followed by a point and digits, with at least one digit in all: `a` stands
    before the point and `b` after it. -/
structure IsDecimal (s a b : Text) : Prop where
  whole : a.all Char.isDigit = true
  decimals : b.all Char.isDigit = true
  digits : a ++ b ≠ []
  text : s = a ∧ b = [] ∨ s = a ++ '.' :: b

/-- The value of `a.b` times `10 ^ 8`, rounded down. -/
def scaled (a b : Text) : Nat := digitsVal (a ++ b) * 10 ^ 8 / 10 ^ b.length

/-- The decimal grammar decides what is read from `s`. -/
structure ParsedByGrammar (s : Text) : Prop where
  nonzero : strToInt64 s true ≠ 0 → ∃ a b, IsDecimal s a b ∧ strToInt64 s true = scaled a b
  value : ∀ a b, IsDecimal s a b → 1 ≤ scaled a b → (scaled a b : Int) ≤ maxInt64 →
    strToInt64 s true = scaled a b
  other : (¬ ∃ a b, IsDecimal s a b ∧ 1 ≤ scaled a b ∧ (scaled a b : Int) ≤ maxInt64) →
    strToInt64 s true = 0

/-! ## What the reader keeps -/

/-- `s` is `a`, or `a` and `b` around its only point. -/
def Parts (s a b : Text) : Prop := '.' ∉ a ∧ '.' ∉ b ∧ (s = a ∧ b = [] ∨ s = a ++ '.' :: b)

/-- What of the two parts is kept: eight decimals. -/
def kept (a b : Text) : Text := a ++ b.take 8

/-- The zeros that fill up the kept decimals. -/
def missing (b : Text) : Nat := 8 - (b.take 8).length

theorem Parts.mem {s a b : Text} (h : Parts s a b) {c : Char} (hc : c ∈ a ∨ c ∈ b) : c ∈ s := by
  obtain ⟨-, -, ⟨hs, hb⟩ | hs⟩ := h
  · subst hs hb
    exact hc.resolve_right List.not_mem_nil
  · subst hs
    rcases hc with hc | hc
    · exact List.mem_append_left _ hc
    · exact List.mem_append_right _ (List.mem_cons_of_mem _ hc)

/-- A text with at most one point has parts. -/
theorem exists_parts {s : Text} (h : ∀ pos, s.findIdx? (· == '.') = some pos →
    '.' ∉ s.drop (pos + 1)) : ∃ a b, Parts s a b := by
  cases hpos : s.findIdx? (· == '.') with
  | none =>
      refine ⟨s, [], ?_, List.not_mem_nil, .inl ⟨rfl, rfl⟩⟩
      intro hmem
      have := List.findIdx?_eq_none_iff.mp hpos '.' hmem
      simp at this
  | some pos =>
      obtain ⟨hlt, hpoint, hbefore⟩ := List.findIdx?_eq_some_iff_getElem.mp hpos
      refine ⟨s.take pos, s.drop (pos + 1), ?_, h pos hpos, .inr ?_⟩
      · intro hmem
        obtain ⟨i, hi, hget⟩ := List.mem_iff_getElem.mp hmem
        have hip : i < pos := by
          rw [List.length_take] at hi
          omega
        refine hbefore i hip ?_
        rw [List.getElem_take] at hget
        rw [hget]
        rfl
      · have hdot : s[pos] = '.' := by simpa using hpoint
        rw [← hdot, List.getElem_cons_drop, List.take_append_drop]

theorem filter_point {t : Text} (h : '.' ∉ t) : t.filter (· != '.') = t := by
  refine List.filter_eq_self.mpr fun c hc => ?_
  rw [bne_iff_ne]
  rintro rfl
  exact h hc

theorem findIdx?_point {a : Text} (h : '.' ∉ a) (b : Text) :
    (a ++ '.' :: b).findIdx? (· == '.') = some a.length := by
  induction a with
  | nil => rfl
  | cons c a ih =>
      have hc : (c == '.') = false := by
        rw [beq_eq_false_iff_ne]
        rintro rfl
        exact h List.mem_cons_self
      rw [List.cons_append, List.findIdx?_cons, hc, ih fun hm => h (List.mem_cons_of_mem _ hm)]
      rfl

/-- **THE KEPT TEXT IS CAST**: nothing but the two parts with eight decimals is read. -/
theorem strToInt64_parts {s a b : Text} (h : Parts s a b) (hneg : '-' ∉ s) :
    strToInt64 s true = castAmount (kept a b ++ List.replicate (missing b) '0') := by
  obtain ⟨ha, hb, ⟨rfl, rfl⟩ | rfl⟩ := h
  · have hnone : s.findIdx? (· == '.') = none := by
      refine List.findIdx?_eq_none_iff.mpr fun c hc => ?_
      rw [beq_eq_false_iff_ne]
      rintro rfl
      exact ha hc
    unfold strToInt64
    rw [if_neg hneg, if_pos rfl, hnone]
    show castAmount (List.filter _ (s ++ List.replicate 8 '0')) = castAmount (s ++ [] ++ _)
    rw [List.append_nil, List.filter_append, filter_point ha]
    rfl
  · have hdrop : (a ++ '.' :: b).drop (a.length + 1) = b := by
      rw [List.drop_append, List.drop_eq_nil_of_le (by omega), List.nil_append,
        show a.length + 1 - a.length = 1 by omega]
      rfl
    have hzeros (k : Nat) : (List.replicate k '0').filter (· != '.') = List.replicate k '0' :=
      filter_point fun hm => absurd (List.eq_of_mem_replicate hm) (by decide)
    unfold strToInt64
    rw [if_neg hneg, if_pos rfl, findIdx?_point ha]
    show (if '.' ∈ (a ++ '.' :: b).drop (a.length + 1) then 0 else _) = _
    rw [hdrop, if_neg hb]
    by_cases hshort : (a ++ '.' :: b).length - a.length < 9
    · have hle : b.length ≤ 8 := by
        rw [List.length_append, List.length_cons] at hshort
        omega
      rw [if_pos hshort]
      show castAmount (List.filter _ (a ++ '.' :: b ++ List.replicate (8 - b.length) '0')) = _
      rw [List.filter_append, List.filter_append, List.filter_cons, filter_point ha,
        filter_point hb, hzeros, kept, missing, List.take_of_length_le hle]
      rfl
    · have hle : 8 ≤ b.length := by
        rw [List.length_append, List.length_cons] at hshort
        omega
      have htake : (a ++ '.' :: b).take (a.length + 9) = a ++ '.' :: b.take 8 := by
        rw [List.take_append, List.take_of_length_le (by omega),
          show a.length + 9 - a.length = 8 + 1 by omega, List.take_succ_cons]
      have hfull : missing b = 0 := by
        unfold missing
        rw [List.length_take]
        omega
      rw [if_neg hshort, htake, List.filter_append, List.filter_cons, filter_point ha,
        filter_point fun hm => hb (List.mem_of_mem_take hm), hfull, List.replicate_zero,
        List.append_nil]
      rfl

/-- Two points, or a minus sign, and nothing is read. -/
theorem strToInt64_refused {s : Text} (h : '-' ∈ s ∨ ¬ ∃ a b, Parts s a b) :
    strToInt64 s true = 0 := by
  unfold strToInt64
  by_cases hneg : '-' ∈ s
  · rw [if_pos hneg]
  · have hparts := h.resolve_left hneg
    rw [if_neg hneg, if_pos rfl]
    cases hpos : s.findIdx? (· == '.') with
    | none =>
        refine absurd (exists_parts fun pos hsome => ?_) hparts
        rw [hpos] at hsome
        exact nomatch hsome
    | some pos =>
        have hsecond : '.' ∈ s.drop (pos + 1) := by
          by_contra hno
          refine hparts (exists_parts fun pos' hsome => ?_)
          rw [hpos] at hsome
          rw [← Option.some.inj hsome]
          exact hno
        show (if '.' ∈ s.drop (pos + 1) then 0 else _) = _
        rw [if_pos hsecond]

/-! ## What the cast takes -/

/-- What is read as a number in range is cast. -/
theorem castAmount_of_readInt {t : Text} {n : Nat} (h : readInt t = some (n : Int))
    (hle : (n : Int) ≤ maxInt64) : castAmount t = n := by
  unfold maxInt64 at hle
  unfold castAmount
  rw [castInt_of_readInt h, if_pos ⟨by omega, by omega⟩]
  rfl

/-- **THE CAST TAKES A PLUS SIGN**: a value is read from digits in range, with or without it. -/
theorem castAmount_eq_iff {t : Text} (hneg : '-' ∉ t) {v : Int} (hv : v ≠ 0) :
    castAmount t = v ↔ ∃ d, (t = d ∨ t = '+' :: d) ∧ isDigits d = true ∧ v = digitsVal d ∧
      (digitsVal d : Int) ≤ maxInt64 := by
  constructor
  · intro h
    unfold castAmount at h
    cases hread : readInt t with
    | none =>
        unfold castInt at h
        rw [hread] at h
        exact absurd h.symm hv
    | some n =>
        obtain ⟨d, hd, hdigits, rfl⟩ := (readInt_eq_some_iff hneg).mp hread
        rw [castInt_of_readInt hread] at h
        refine ⟨d, hd, hdigits, ?_⟩
        by_cases hrange : -(2 ^ (64 - 1) : Int) ≤ digitsVal d ∧ (digitsVal d : Int) < 2 ^ (64 - 1)
        · rw [if_pos hrange] at h
          exact ⟨h.symm, Int.le_of_lt_add_one hrange.2⟩
        · rw [if_neg hrange] at h
          exact absurd h.symm hv
  · rintro ⟨d, hd, hdigits, rfl, hle⟩
    exact castAmount_of_readInt ((readInt_eq_some_iff hneg).mpr ⟨d, hd, hdigits, rfl⟩) hle

theorem all_isDigit_zeros (k : Nat) : (List.replicate k '0').all Char.isDigit = true :=
  List.all_eq_true.mpr fun c hc => by
    rw [List.eq_of_mem_replicate hc]
    rfl

theorem not_mem_kept {s a b : Text} (h : Parts s a b) (hneg : '-' ∉ s) :
    '-' ∉ kept a b ++ List.replicate (missing b) '0' := by
  intro hmem
  rcases List.mem_append.mp hmem with hmem | hmem
  · rcases List.mem_append.mp hmem with hmem | hmem
    · exact hneg (h.mem (.inl hmem))
    · exact hneg (h.mem (.inr (List.mem_of_mem_take hmem)))
  · exact absurd (List.eq_of_mem_replicate hmem) (by decide)

/-- **WHAT IS READ**: an amount comes from two parts without a minus sign, of which the kept text
    is digits, with or without a plus sign before them. -/
theorem strToInt64_eq_iff {s : Text} {v : Int} (hv : v ≠ 0) :
    strToInt64 s true = v ↔ ∃ a b d, Parts s a b ∧ '-' ∉ s ∧
      (kept a b = d ∨ kept a b = '+' :: d) ∧ d.all Char.isDigit = true ∧
      v = ↑(digitsVal d * 10 ^ missing b) ∧ ↑(digitsVal d * 10 ^ missing b) ≤ maxInt64 := by
  constructor
  · intro h
    have hread : ¬ ('-' ∈ s ∨ ¬ ∃ a b, Parts s a b) := fun hno =>
      hv (h ▸ strToInt64_refused hno)
    obtain ⟨hneg, hparts⟩ := not_or.mp hread
    obtain ⟨a, b, hparts⟩ := not_not.mp hparts
    rw [strToInt64_parts hparts hneg, castAmount_eq_iff (not_mem_kept hparts hneg) hv] at h
    obtain ⟨t, ht, hdigits, rfl, hle⟩ := h
    have hall : t.all Char.isDigit = true := (Bool.and_eq_true_iff.mp hdigits).2
    -- the zeros stand at the end of the digits, behind a plus sign or not
    have hcut : ∃ d, (kept a b = d ∨ kept a b = '+' :: d) ∧
        t = d ++ List.replicate (missing b) '0' := by
      rcases ht with ht | ht
      · exact ⟨kept a b, .inl rfl, ht.symm⟩
      · cases hk : kept a b with
        | nil =>
            rw [hk, List.nil_append] at ht
            have hplus : '+' ∈ List.replicate (missing b) '0' := ht ▸ List.mem_cons_self
            exact absurd (List.eq_of_mem_replicate hplus) (by decide)
        | cons c d =>
            rw [hk, List.cons_append] at ht
            obtain ⟨rfl, rfl⟩ := List.cons.inj ht
            exact ⟨d, .inr rfl, rfl⟩
    obtain ⟨d, hd, rfl⟩ := hcut
    rw [List.all_append, Bool.and_eq_true] at hall
    rw [digitsVal_append_zeros] at hle ⊢
    exact ⟨a, b, d, hparts, hneg, hd, hall.1, rfl, hle⟩
  · rintro ⟨a, b, d, hparts, hneg, hd, hall, rfl, hle⟩
    rw [strToInt64_parts hparts hneg, castAmount_eq_iff (not_mem_kept hparts hneg) hv]
    refine ⟨d ++ List.replicate (missing b) '0', ?_, ?_, ?_, ?_⟩
    · rcases hd with hd | hd
      · exact .inl (by rw [hd])
      · exact .inr (by rw [hd, List.cons_append])
    · have hne : d ++ List.replicate (missing b) '0' ≠ [] := by
        intro hnil
        refine hv ?_
        rw [← digitsVal_append_zeros, hnil]
        rfl
      unfold isDigits
      rw [List.all_append, hall, all_isDigit_zeros, Bool.true_and, Bool.and_true,
        List.isEmpty_eq_false_iff.mpr hne]
      rfl
    · rw [digitsVal_append_zeros]
    · rw [digitsVal_append_zeros]
      exact hle

/-! ## Decimal numbers are read -/

theorem IsDecimal.parts {s a b : Text} (h : IsDecimal s a b) : Parts s a b := by
  have hpoint {t : Text} (ht : t.all Char.isDigit = true) : '.' ∉ t := fun hmem =>
    absurd (List.all_eq_true.mp ht '.' hmem) (by decide)
  exact ⟨hpoint h.whole, hpoint h.decimals, h.text⟩

/-- A decimal number is made of digits and a point. -/
theorem IsDecimal.mem {s a b : Text} (h : IsDecimal s a b) {c : Char} (hc : c ∈ s) :
    c.isDigit = true ∨ c = '.' := by
  rcases h.text with ⟨rfl, -⟩ | rfl
  · exact .inl (List.all_eq_true.mp h.whole c hc)
  · rcases List.mem_append.mp hc with hc | hc
    · exact .inl (List.all_eq_true.mp h.whole c hc)
    · rcases List.mem_cons.mp hc with hc | hc
      · exact .inr hc
      · exact .inl (List.all_eq_true.mp h.decimals c hc)

theorem IsDecimal.not_mem {s a b : Text} (h : IsDecimal s a b) : '-' ∉ s := fun hmem =>
  absurd (h.mem hmem) (by decide)

theorem all_isDigit_kept {a b : Text} (ha : a.all Char.isDigit = true)
    (hb : b.all Char.isDigit = true) : (kept a b).all Char.isDigit = true := by
  unfold kept
  rw [List.all_append, ha, Bool.true_and]
  exact List.all_eq_true.mpr fun c hc => List.all_eq_true.mp hb c (List.mem_of_mem_take hc)

/-- **EIGHT DECIMALS ROUND DOWN**: the kept digits, filled up with zeros, are the value times
    `10 ^ 8`. -/
theorem scaled_eq {a b : Text} (ha : a.all Char.isDigit = true) (hb : b.all Char.isDigit = true) :
    scaled a b = digitsVal (kept a b) * 10 ^ missing b := by
  unfold scaled kept missing
  rw [List.length_take]
  rcases Nat.le_total b.length 8 with hle | hle
  · -- filled up: the power of ten is split
    rw [List.take_of_length_le hle, Nat.min_eq_right hle]
    have hpow : 10 ^ 8 = 10 ^ (8 - b.length) * 10 ^ b.length := by
      rw [← Nat.pow_add, Nat.sub_add_cancel hle]
    rw [hpow, ← Nat.mul_assoc, Nat.mul_div_cancel _ (Nat.pow_pos (by omega))]
  · -- cut: the digits behind the eighth are divided away
    have hall : (a ++ b).all Char.isDigit = true := by
      rw [List.all_append, ha, hb]
      rfl
    have hcut : digitsVal (a ++ b.take 8) = digitsVal (a ++ b) / 10 ^ (b.length - 8) := by
      have htake : (a ++ b).take (a.length + 8) = a ++ b.take 8 := by
        rw [List.take_append, List.take_of_length_le (by omega),
          show a.length + 8 - a.length = 8 by omega]
      rw [← htake, digitsVal_take hall, List.length_append,
        show a.length + b.length - (a.length + 8) = b.length - 8 by omega]
    have hpow : 10 ^ b.length = 10 ^ (b.length - 8) * 10 ^ 8 := by
      rw [← Nat.pow_add, Nat.sub_add_cancel hle]
    rw [hcut, Nat.min_eq_left hle, hpow, Nat.mul_div_mul_right _ _ (by omega), Nat.sub_self,
      Nat.pow_zero, Nat.mul_one]

/-- **A DECIMAL NUMBER IS READ** as its value times `10 ^ 8`, zero included. -/
theorem strToInt64_decimal {s a b : Text} (h : IsDecimal s a b)
    (hle : (scaled a b : Int) ≤ maxInt64) : strToInt64 s true = scaled a b := by
  have hlen : (kept a b ++ List.replicate (missing b) '0').length = a.length + 8 := by
    unfold kept missing
    rw [List.length_append, List.length_append, List.length_replicate, List.length_take]
    omega
  have hdigits : isDigits (kept a b ++ List.replicate (missing b) '0') = true := by
    have hne : kept a b ++ List.replicate (missing b) '0' ≠ [] :=
      List.ne_nil_of_length_pos (by omega)
    unfold isDigits
    rw [List.all_append, all_isDigit_kept h.whole h.decimals, all_isDigit_zeros,
      List.isEmpty_eq_false_iff.mpr hne]
    rfl
  rw [scaled_eq h.whole h.decimals, ← digitsVal_append_zeros] at hle ⊢
  rw [strToInt64_parts h.parts h.not_mem]
  exact castAmount_of_readInt (readInt_digits hdigits) hle

/-! ## The grammar -/

/-- `s` is read although it is no decimal number: a plus sign stands before the kept digits, or
    something else than digits stands behind the eighth decimal. -/
def Slips (s : Text) : Prop :=
  ∃ a b d, Parts s a b ∧ '-' ∉ s ∧ d.all Char.isDigit = true ∧
    1 ≤ digitsVal d * 10 ^ missing b ∧ ↑(digitsVal d * 10 ^ missing b) ≤ maxInt64 ∧
    (kept a b = '+' :: d ∨ kept a b = d ∧ (b.drop 8).all Char.isDigit = false)

/-- What slips is no decimal number. -/
theorem Slips.not_isDecimal {s : Text} (h : Slips s) (a b : Text) : ¬ IsDecimal s a b := by
  intro hdecimal
  obtain ⟨a', b', d, hparts, -, -, -, -, hslip⟩ := h
  rcases hslip with hplus | ⟨-, hrest⟩
  · have hmem : '+' ∈ s := by
      have hkept : '+' ∈ kept a' b' := hplus ▸ List.mem_cons_self
      rcases List.mem_append.mp hkept with hmem | hmem
      · exact hparts.mem (.inl hmem)
      · exact hparts.mem (.inr (List.mem_of_mem_take hmem))
    exact absurd (hdecimal.mem hmem) (by decide)
  · obtain ⟨c, hc, hdigit⟩ := List.all_eq_false.mp hrest
    have hcb : c ∈ b' := List.mem_of_mem_drop hc
    rcases hdecimal.mem (hparts.mem (.inr hcb)) with hd | rfl
    · exact hdigit hd
    · exact hparts.2.1 hcb

/-- What is read is a decimal number, or it slips. -/
theorem isDecimal_of_read {s : Text} (hread : strToInt64 s true ≠ 0) :
    Slips s ∨ ∃ a b, IsDecimal s a b ∧ strToInt64 s true = scaled a b := by
  obtain ⟨a, b, d, hparts, hneg, hd, hall, hv, hle⟩ := (strToInt64_eq_iff hread).mp rfl
  have hpos : 1 ≤ digitsVal d * 10 ^ missing b := by omega
  rcases hd with rfl | hplus
  · cases hrest : (b.drop 8).all Char.isDigit with
    | false => exact .inl ⟨a, b, _, hparts, hneg, hall, hpos, hle, .inr ⟨rfl, hrest⟩⟩
    | true =>
        unfold kept at hall
        rw [List.all_append, Bool.and_eq_true] at hall
        have hb : b.all Char.isDigit = true := by
          rw [← List.take_append_drop 8 b, List.all_append, hall.2, hrest]
          rfl
        have hne : a ++ b ≠ [] := by
          intro hnil
          obtain ⟨rfl, rfl⟩ := List.append_eq_nil_iff.mp hnil
          exact absurd hpos (by decide)
        refine .inr ⟨a, b, ⟨hall.1, hb, hne, hparts.2.2⟩, ?_⟩
        rw [scaled_eq hall.1 hb]
        exact hv
  · exact .inl ⟨a, b, d, hparts, hneg, hall, hpos, hle, .inl hplus⟩

/-- **THE GRAMMAR DECIDES** what is read just where nothing slips. -/
theorem parsedByGrammar_iff (s : Text) : ParsedByGrammar s ↔ ¬ Slips s := by
  constructor
  · intro h hslips
    have hread : strToInt64 s true ≠ 0 := by
      obtain ⟨a, b, d, hparts, hneg, hall, hpos, hle, hslip⟩ := hslips
      have hd : kept a b = d ∨ kept a b = '+' :: d := hslip.symm.imp_left And.left
      have hv : ((digitsVal d * 10 ^ missing b : Nat) : Int) ≠ 0 := by omega
      rw [(strToInt64_eq_iff hv).mpr ⟨a, b, d, hparts, hneg, hd, hall, rfl, hle⟩]
      exact hv
    obtain ⟨a, b, hdecimal, -⟩ := h.nonzero hread
    exact hslips.not_isDecimal a b hdecimal
  · intro hslips
    have hnonzero (hread : strToInt64 s true ≠ 0) :=
      (isDecimal_of_read hread).resolve_left hslips
    refine ⟨hnonzero, fun a b h _ hle => strToInt64_decimal h hle, fun hnone => ?_⟩
    by_contra hread
    obtain ⟨a, b, hdecimal, hv⟩ := hnonzero hread
    refine hnone ⟨a, b, hdecimal, by omega, ?_⟩
    rw [← hv]
    obtain ⟨a', b', d, -, -, -, -, hv', hle⟩ := (strToInt64_eq_iff hread).mp rfl
    rw [hv']
    exact hle

/-- A plus sign is read over, and so is what stands behind the eighth decimal. -/
theorem signed_amount_parsed :
    strToInt64 "+1.5".toList true = 150000000 ∧
    strToInt64 "1234.12345678A".toList true = 123412345678 ∧
    ¬ ParsedByGrammar "1234.12345678A".toList := by
  refine ⟨by decide, by decide, fun h => ?_⟩
  obtain ⟨a, b, hdecimal, -⟩ := h.nonzero (by decide)
  exact absurd (hdecimal.mem (c := 'A') (by decide)) (by decide)

/-! ## Printing and reading -/

/-- Zeros at the end of the decimals do not count. -/
theorem scaled_append_zeros (a b : Text) (k : Nat) :
    scaled a (b ++ List.replicate k '0') = scaled a b := by
  unfold scaled
  rw [← List.append_assoc, digitsVal_append_zeros, List.length_append, List.length_replicate,
    Nat.pow_add, Nat.mul_right_comm, Nat.mul_div_mul_right _ _ (Nat.pow_pos (by omega))]

/-- The erased zeros stand behind the point. -/
theorem rdropWhile_point (a b : Text) :
    (a ++ '.' :: b).rdropWhile (· == '0') = a ++ '.' :: b.rdropWhile (· == '0') := by
  induction b using List.reverseRecOn with
  | nil => exact List.rdropWhile_concat_neg _ a '.' (by decide)
  | append_singleton b c ih =>
      rw [← List.cons_append, ← List.append_assoc]
      by_cases hc : (c == '0') = true
      · rw [List.rdropWhile_concat_pos _ _ c hc, List.rdropWhile_concat_pos _ _ c hc, ih]
      · rw [List.rdropWhile_concat_neg _ _ c hc, List.rdropWhile_concat_neg _ _ c hc,
          List.append_assoc, List.cons_append]

/-- **CLEANING UP KEEPS THE NUMBER**: what is left is the decimal number without the zeros at its
    end. -/
theorem cleanUp_isDecimal {a b : Text} (h : IsDecimal (a ++ '.' :: b) a b) (ha : a ≠ []) :
    ∃ b' k, b = b' ++ List.replicate k '0' ∧ IsDecimal (cleanUp (a ++ '.' :: b)) a b' := by
  obtain ⟨b', hb'⟩ : ∃ b', b' = b.rdropWhile (· == '0') := ⟨_, rfl⟩
  have hsplit : b = b' ++ List.replicate (b.rtakeWhile (· == '0')).length '0' := by
    have hzeros : b.rtakeWhile (· == '0') = List.replicate _ '0' :=
      List.eq_replicate_of_mem fun c hc => by simpa using List.mem_rtakeWhile_imp hc
    rw [← hzeros, hb', List.rdropWhile_append_rtakeWhile]
  have hdecimals : b'.all Char.isDigit = true := by
    have hb := h.decimals
    rw [hsplit, List.all_append, Bool.and_eq_true] at hb
    exact hb.1
  have hdigits : a ++ b' ≠ [] := fun hnil => ha (List.append_eq_nil_iff.mp hnil).1
  refine ⟨b', _, hsplit, h.whole, hdecimals, hdigits, ?_⟩
  unfold cleanUp
  rw [rdropWhile_point, ← hb']
  rcases List.eq_nil_or_concat' b' with rfl | ⟨l, c, rfl⟩
  · -- nothing is left behind the point, which goes too
    left
    refine ⟨?_, rfl⟩
    show (if (a ++ ['.']).getLast? = some '.' then (a ++ ['.']).dropLast else _) = a
    rw [if_pos (List.getLast?_concat ..), List.dropLast_concat]
  · right
    have hc : c.isDigit = true := List.all_eq_true.mp hdecimals c (by simp)
    have hpoint : (a ++ '.' :: (l ++ [c])).getLast? ≠ some '.' := by
      rw [← List.cons_append, ← List.append_assoc, List.getLast?_concat]
      intro hlast
      rw [Option.some.inj hlast] at hc
      exact absurd hc (by decide)
    show (if (a ++ '.' :: (l ++ [c])).getLast? = some '.' then _ else _) = _
    rw [if_neg hpoint]

/-- The text of an amount is a decimal number of its value. -/
theorem priceText_isDecimal {n : Int} (h0 : 0 ≤ n) :
    ∃ a b, a ≠ [] ∧ priceText n = a ++ '.' :: b ∧ IsDecimal (priceText n) a b ∧
      (scaled a b : Int) = n := by
  have hcents : (n % coin).toNat < 10 ^ 8 := by
    unfold coin
    omega
  have hlen : (padNat 8 (n % coin).toNat).length = 8 := length_padNat (by omega) hcents
  have hwhole : decInt (n / coin) = decNat (n / coin).toNat := by
    have hq : 0 ≤ n / coin := Int.ediv_nonneg h0 (by decide)
    obtain ⟨q, hq⟩ := Int.eq_ofNat_of_zero_le hq
    rw [hq]
    rfl
  have hdigits : (decNat (n / coin).toNat).all Char.isDigit = true :=
    List.all_eq_true.mpr fun c hc => isDigit_of_mem_decNat hc
  have htext : priceText n = decNat (n / coin).toNat ++ '.' :: padNat 8 (n % coin).toNat := by
    unfold priceText
    rw [hwhole]
  have hne := decNat_ne_nil (n / coin).toNat
  refine ⟨_, _, hne, htext, ⟨hdigits, all_isDigit_padNat 8 _, ?_, .inr htext⟩, ?_⟩
  · exact fun hnil => hne (List.append_eq_nil_iff.mp hnil).1
  · unfold scaled
    rw [digitsVal_append, digitsVal_decNat, digitsVal_padNat, hlen,
      Nat.mul_div_cancel _ (by omega)]
    unfold coin
    omega

theorem signed64_abs {n : Int} (h0 : 0 ≤ n) (hle : n ≤ maxInt64) :
    signed64 (if 0 < n then n else -n) = pure n := by
  have habs : (if 0 < n then n else -n) = n := by
    split <;> omega
  have hrange : IsInt64 n := ⟨by unfold minInt64; omega, hle⟩
  unfold signed64
  rw [habs, if_pos hrange]

/-- A whole number is read as it is printed. -/
theorem strToInt64_decInt {n : Int} (h0 : 0 ≤ n) (hle : n ≤ maxInt64) :
    strToInt64 (decInt n) false = n := by
  obtain ⟨m, rfl⟩ := Int.eq_ofNat_of_zero_le h0
  have hdigit {c : Char} (hc : c.isDigit = false) : c ∉ decNat m := fun hmem => by
    rw [isDigit_of_mem_decNat hmem] at hc
    exact Bool.noConfusion hc
  have hpoint : (decNat m).findIdx? (· == '.') = none := by
    refine List.findIdx?_eq_none_iff.mpr fun c hc => ?_
    rw [beq_eq_false_iff_ne]
    rintro rfl
    exact hdigit rfl hc
  show strToInt64 (decNat m) false = m
  unfold strToInt64
  rw [if_neg (hdigit rfl), if_neg Bool.false_ne_true, hpoint]
  show castAmount ((decNat m).take (decNat m).length) = m
  rw [List.take_length]
  exact castAmount_of_readInt (readInt_decNat m) hle

/-- **READING UNDOES PRINTING**: an amount comes back from its divisible text, from its short text
    and from its indivisible text. -/
theorem amount_round_trip (n : Int) (h0 : 0 ≤ n) (hle : n ≤ maxInt64) :
    (∃ str, formatDivisibleSignMP n false = pure str ∧ strToInt64 str true = n) ∧
    (∃ str, formatDivisibleShortMP n = pure str ∧ strToInt64 str true = n) ∧
    strToInt64 (formatIndivisibleMP n) false = n := by
  obtain ⟨a, b, ha, htext, hdecimal, hscaled⟩ := priceText_isDecimal h0
  refine ⟨⟨priceText n, ?_, ?_⟩, ⟨cleanUp (priceText n), ?_, ?_⟩, strToInt64_decInt h0 hle⟩
  · unfold formatDivisibleSignMP formatDivisibleMP
    rw [signed64_abs h0 hle, pure_bind, pure_bind]
    rfl
  · rw [strToInt64_decimal hdecimal (by omega), hscaled]
  · unfold formatDivisibleShortMP
    rw [signed64_abs h0 hle, pure_bind]
  · rw [htext] at hdecimal ⊢
    obtain ⟨b', k, hb, hshort⟩ := cleanUp_isDecimal hdecimal ha
    rw [hb, scaled_append_zeros] at hscaled
    rw [strToInt64_decimal hshort (by omega), hscaled]

/-- The largest amount, and one without decimals. -/
theorem amount_round_trip_largest :
    strToInt64 "92233720368.54775807".toList true = maxInt64 ∧
    (∃ str, formatDivisibleShortMP maxInt64 = pure str ∧ strToInt64 str true = maxInt64) :=
  ⟨by decide, (amount_round_trip maxInt64 (by decide) le_rfl).2.1⟩

end OmniCore
