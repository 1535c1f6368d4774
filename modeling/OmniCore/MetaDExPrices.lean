import OmniCore.Lib.Ratio
import OmniCore.CrowdsaleRun

/-! # MetaDExPrices — prices as they are shown

    A price is shown with eight decimals in OMNI, rounded up, or with fifty decimals as it
    stands. Both are computed in fractions of checked 128-bit integers, and the rounded
    price has to fit an amount. -/

namespace OmniCore

open Machine TextRec Exec

/-! ## Texts of prices -/

/-- `cpp_dec_float_100`: the quotient of two 64-bit numbers with `DISPLAY_PRECISION_LEN` decimals.
    The decimals follow the whole part: no quotient of such numbers is as close below a whole
    number as the decimals reach. -/
structure DecFloat where
  quotient : Int → Int → Text
  whole : ∀ num denom : Int, 0 ≤ num → num ≤ maxInt64 → 0 < denom → denom ≤ maxInt64 →
    ∃ decimals, quotient num denom = decInt (num / denom) ++ '.' :: decimals

/-- `COIN`. -/
def coin : Int := 100000000

/-- `xToString`. -/
def xToString (dec : DecFloat) (value : Ratio) : Text :=
  if IsInt64 value.num ∧ IsInt64 value.den then dec.quotient value.num value.den
  else decInt value.num ++ " / ".toList ++ decInt value.den

/-- A result of `checked_int128_t`. -/
def int128 (n : Int) : ExecM Int := checkedInt 127 .exception n

/-- `xToRoundUpInt64`: `1 + (num - 1) / denom`. -/
def xToRoundUpInt64 (value : Ratio) : ExecM Int := do
  let less ← int128 (value.num - 1)
  let result ← int128 (1 + less.tdiv value.den)
  assertThat .condition (decide (IsInt64 result))
  pure result

/-- `%d.%08d` of a number of hundred-millionths. -/
def priceText (n : Int) : Text := decInt (n / coin) ++ '.' :: padNat 8 (n % coin).toNat

/-- `FormatDivisibleMP`, without a sign. -/
def formatDivisibleMP (n : Int) : ExecM Text := do
  let nAbs ← signed64 (if 0 < n then n else -n)
  pure (priceText nAbs)

/-! ## The prices of an order -/

namespace CMPMetaDEx

/-- `unitPrice`; 0 without an amount for sale. -/
def unitRatio (o : CMPMetaDEx) : ExecM Ratio :=
  if o.amountForsale = 0 then pure ⟨0, 1⟩ else Ratio.make .exception o.amountDesired o.amountForsale

/-- `inversePrice`; 0 without a desired amount. -/
def inverseRatio (o : CMPMetaDEx) : ExecM Ratio :=
  if o.amountDesired = 0 then pure ⟨0, 1⟩ else Ratio.make .exception o.amountForsale o.amountDesired

/-- A price of a divisible property is one of a coin. -/
def timesCoin (divisible : Bool) (price : Ratio) : ExecM Ratio :=
  if divisible then price.mulInt 127 .exception coin else pure price

/-- A price in a divisible property is one in coins. -/
def overCoin (divisible : Bool) (price : Ratio) : ExecM Ratio :=
  if divisible then price.divInt 127 .exception coin else pure price

/-- `tmpDisplayPrice`: the unit price if OMNI is desired, else the inverse price. -/
def displayRatio (sps : CMPSPInfo) (o : CMPMetaDEx) : ExecM Ratio :=
  if isOmniProperty o.desiredProperty then do
    let price ← o.unitRatio
    timesCoin (sps.isPropertyDivisible o.property) price
  else do
    let price ← o.inverseRatio
    timesCoin (sps.isPropertyDivisible o.desiredProperty) price

/-- `displayUnitPrice`. -/
def displayUnitPrice (dec : DecFloat) (o : CMPMetaDEx) : ExecM Text := do
  let s ← get
  let displayPrice ← o.displayRatio s.sps
  -- offers with unit prices under 0.00000001 will be excluded from UI layer
  if (xToString dec displayPrice).head? = some '0' then
    pure "0.00000000".toList
  else do
    -- we must always round up here
    let displayValue ← xToRoundUpInt64 displayPrice
    formatDivisibleMP displayValue

/-- `displayFullUnitPrice`. Matching types require no action. -/
def displayFullUnitPrice (dec : DecFloat) (o : CMPMetaDEx) : ExecM Text := do
  let s ← get
  let divisible := s.sps.isPropertyDivisible o.property
  let desiredDivisible := s.sps.isPropertyDivisible o.desiredProperty
  let price ← o.unitRatio
  let price ← timesCoin (divisible && !desiredDivisible) price
  let price ← overCoin (!divisible && desiredDivisible) price
  pure (xToString dec price)

/-! ## What is expected -/

/-- The amounts of an order that is accepted. -/
structure Accepted (o : CMPMetaDEx) : Prop where
  forsale_pos : 0 < o.amountForsale
  forsale_le : o.amountForsale ≤ maxInt64
  desired_pos : 0 < o.amountDesired
  desired_le : o.amountDesired ≤ maxInt64

/-- The amount that is paid, OMNI if it is desired. -/
def paidAmount (o : CMPMetaDEx) : Int :=
  if isOmniProperty o.desiredProperty then o.amountDesired else o.amountForsale

/-- The property that is paid. -/
def paidProperty (o : CMPMetaDEx) : PropertyId :=
  if isOmniProperty o.desiredProperty then o.desiredProperty else o.property

/-- The amount that is priced. -/
def pricedAmount (o : CMPMetaDEx) : Int :=
  if isOmniProperty o.desiredProperty then o.amountForsale else o.amountDesired

/-- The property that is priced. -/
def pricedProperty (o : CMPMetaDEx) : PropertyId :=
  if isOmniProperty o.desiredProperty then o.property else o.desiredProperty

end CMPMetaDEx

/-- The units of one token of a property: those of a coin, or a single one. -/
def CMPSPInfo.tokenUnits (sps : CMPSPInfo) (p : PropertyId) : Int :=
  if sps.isPropertyDivisible p then coin else 1

namespace CMPMetaDEx

/-- The price of one token, in tokens. -/
def exactPrice (sps : CMPSPInfo) (o : CMPMetaDEx) : ℚ :=
  (o.paidAmount / sps.tokenUnits o.paidProperty) / (o.pricedAmount / sps.tokenUnits o.pricedProperty)

/-- The price of one token is less than the smallest unit. -/
def BelowUnit (sps : CMPSPInfo) (o : CMPMetaDEx) : Prop :=
  o.paidAmount * sps.tokenUnits o.pricedProperty < o.pricedAmount

/-- The price of one token fits an amount. -/
def PriceFits (sps : CMPSPInfo) (o : CMPMetaDEx) : Prop :=
  o.paidAmount * sps.tokenUnits o.pricedProperty ≤ maxInt64 * o.pricedAmount

instance (sps : CMPSPInfo) (o : CMPMetaDEx) : Decidable (o.BelowUnit sps) :=
  inferInstanceAs (Decidable (_ < _))

instance (sps : CMPSPInfo) (o : CMPMetaDEx) : Decidable (o.PriceFits sps) :=
  inferInstanceAs (Decidable (_ ≤ _))

/-- The prices of an order are shown: no assertion fails and nothing overflows, and what is shown
    with eight decimals is the exact price times 10^8, rounded up, unless it is 0.00000000. -/
structure Shown (dec : DecFloat) (o : CMPMetaDEx) (s : State) : Prop where
  full : ∃ t, o.displayFullUnitPrice dec s = .ok t s
  unit : ∃ t, o.displayUnitPrice dec s = .ok t s ∧
    (t ≠ "0.00000000".toList → t = priceText ⌈o.exactPrice s.sps * 10 ^ 8⌉)

/-- A trade that passes the checks makes such an order. -/
theorem accepted_of_trade {s : State} {tx : CMPTransaction} (h : metaDExTradeError s tx = none) :
    tx.metaDExOrder.Accepted := by
  have hamount : metaDExAmountError tx = none := (Option.or_eq_none_iff.mp
    (Option.or_eq_none_iff.mp h).2).1
  unfold metaDExAmountError at hamount
  split at hamount
  · cases hamount
  next hforsale =>
    split at hamount
    · cases hamount
    next hdesired =>
      unfold maxInt8Bytes at hforsale hdesired
      have hsell : tx.metaDExOrder.amountForsale = tx.nNewValue.toNat := by
        unfold CMPTransaction.metaDExOrder newMetaDExOrder
        dsimp only
        rw [toInt64_natCast (by omega)]
      have hbuy : tx.metaDExOrder.amountDesired = tx.desiredValue.toNat := by
        unfold CMPTransaction.metaDExOrder newMetaDExOrder
        dsimp only
        rw [toInt64_natCast (by omega)]
      constructor <;> unfold maxInt64 at * <;> omega

/-! ## The computed price -/

/-- What the code computes. -/
def shownPrice (sps : CMPSPInfo) (o : CMPMetaDEx) : ℚ :=
  (o.paidAmount : ℚ) / o.pricedAmount * sps.tokenUnits o.pricedProperty

theorem timesCoin_is (divisible : Bool) {r : Ratio} {q : ℚ} (h : r.Is q maxInt64 maxInt64) :
    ∃ r' : Ratio, timesCoin divisible r = pure r' ∧
      r'.Is (q * ((if divisible then coin else 1 : Int) : ℚ)) (maxInt64 * coin) maxInt64 := by
  unfold timesCoin
  cases divisible with
  | true =>
      rw [if_pos rfl, if_pos rfl]
      exact Ratio.mulInt_is h (by decide) (by decide)
  | false =>
      rw [if_neg (by decide), if_neg (by decide)]
      refine ⟨r, rfl, h.num_pos, h.den_pos, ?_, h.num_le.trans (by decide), h.den_le⟩
      rw [Int.cast_one, mul_one]
      exact h.value

theorem overCoin_returns (divisible : Bool) {r : Ratio} {q : ℚ}
    (h : r.Is q (maxInt64 * coin) maxInt64) : ∃ r', overCoin divisible r = pure r' := by
  unfold overCoin
  cases divisible with
  | true =>
      obtain ⟨r', hr', -⟩ := Ratio.divInt_is (ε := Halt) (σ := State) (w := 127) (e := .exception) h
        (show 0 < coin by decide) (by decide)
      exact ⟨r', hr'⟩
  | false => exact ⟨r, rfl⟩

section Accepted

variable {o : CMPMetaDEx} (h : o.Accepted)
include h

theorem Accepted.unitRatio_is : ∃ r : Ratio, o.unitRatio = pure r ∧
    r.Is ((o.amountDesired : ℚ) / o.amountForsale) maxInt64 maxInt64 := by
  unfold unitRatio
  rw [if_neg h.forsale_pos.ne']
  exact Ratio.make_is h.desired_pos h.forsale_pos h.desired_le h.forsale_le

theorem Accepted.inverseRatio_is : ∃ r : Ratio, o.inverseRatio = pure r ∧
    r.Is ((o.amountForsale : ℚ) / o.amountDesired) maxInt64 maxInt64 := by
  unfold inverseRatio
  rw [if_neg h.desired_pos.ne']
  exact Ratio.make_is h.forsale_pos h.desired_pos h.forsale_le h.desired_le

/-- The displayed price is computed without overflow, and it is the price in the smallest unit. -/
theorem Accepted.displayRatio_is (sps : CMPSPInfo) : ∃ r : Ratio, o.displayRatio sps = pure r ∧
    r.Is (o.shownPrice sps) (maxInt64 * coin) maxInt64 := by
  unfold displayRatio shownPrice paidAmount pricedAmount pricedProperty CMPSPInfo.tokenUnits
  by_cases homni : isOmniProperty o.desiredProperty = true
  · obtain ⟨r, hr, his⟩ := h.unitRatio_is
    obtain ⟨r', hr', his'⟩ := timesCoin_is (sps.isPropertyDivisible o.property) his
    rw [if_pos homni, if_pos homni, if_pos homni, if_pos homni, hr, pure_bind]
    exact ⟨r', hr', his'⟩
  · obtain ⟨r, hr, his⟩ := h.inverseRatio_is
    obtain ⟨r', hr', his'⟩ :=
      timesCoin_is (sps.isPropertyDivisible o.desiredProperty) his
    rw [if_neg homni, if_neg homni, if_neg homni, if_neg homni, hr, pure_bind]
    exact ⟨r', hr', his'⟩

/-- **THE FULL PRICE** is always shown. -/
theorem Accepted.full_shown (dec : DecFloat) (s : State) :
    ∃ t, o.displayFullUnitPrice dec s = .ok t s := by
  obtain ⟨r, hr, his⟩ := h.unitRatio_is
  obtain ⟨r₁, hr₁, his₁⟩ := timesCoin_is
    (s.sps.isPropertyDivisible o.property && !s.sps.isPropertyDivisible o.desiredProperty) his
  obtain ⟨r₂, hr₂⟩ := overCoin_returns
    (!s.sps.isPropertyDivisible o.property && s.sps.isPropertyDivisible o.desiredProperty) his₁
  refine ⟨xToString dec r₂, ?_⟩
  show (o.unitRatio >>= fun price =>
    timesCoin (s.sps.isPropertyDivisible o.property &&
      !s.sps.isPropertyDivisible o.desiredProperty) price >>= fun price =>
    overCoin (!s.sps.isPropertyDivisible o.property &&
      s.sps.isPropertyDivisible o.desiredProperty) price >>= fun price =>
    pure (xToString dec price)) s = _
  rw [hr, pure_bind, hr₁, pure_bind, hr₂, pure_bind]
  rfl

end Accepted

end CMPMetaDEx

/-! ## Rounding up -/

theorem int128_eq {n : Int} (h0 : 0 ≤ n) (hle : n ≤ maxInt64 * coin) : int128 n = pure n :=
  checkedInt_eq h0 hle (by decide)

/-- The price in the smallest unit is rounded up, and then it has to fit an amount. -/
theorem xToRoundUpInt64_eq {r : Ratio} {q : ℚ} (h : r.Is q (maxInt64 * coin) maxInt64) :
    xToRoundUpInt64 r = (do
      assertThat .condition (decide (IsInt64 ⌈q⌉))
      pure ⌈q⌉) := by
  have hnum := h.num_pos
  have hless : (r.num - 1).tdiv r.den ≤ r.num - 1 := by
    rw [Int.tdiv_eq_ediv_of_nonneg (by omega)]
    exact Int.ediv_le_self _ (by omega)
  have hnonneg : 0 ≤ (r.num - 1).tdiv r.den := Int.tdiv_nonneg (by omega) h.den_pos.le
  have hle := h.num_le
  unfold xToRoundUpInt64
  rw [int128_eq (by omega) (by omega), pure_bind, int128_eq (by omega) (by omega), pure_bind,
    h.ceil_eq]

theorem formatDivisibleMP_eq {n : Int} (h0 : 0 < n) (hle : n ≤ maxInt64) :
    formatDivisibleMP n = pure (priceText n) := by
  have hrange : IsInt64 n := ⟨by unfold minInt64; omega, hle⟩
  unfold formatDivisibleMP signed64
  rw [if_pos h0, if_pos hrange, pure_bind]

/-- Different prices are shown as different texts. -/
theorem priceText_injective : Function.Injective priceText := by
  intro a b h
  have hcents : ∀ n : Int, (n % coin).toNat < 10 ^ 8 := by
    intro n
    unfold coin
    omega
  have hlength : ∀ n : Int, ('.' :: padNat 8 (n % coin).toNat).length = 9 := fun n => by
    rw [List.length_cons, length_padNat (by decide) (hcents n)]
  obtain ⟨hwhole, hrest⟩ := List.append_inj' h ((hlength a).trans (hlength b).symm)
  have hquot : a / coin = b / coin := decInt_injective hwhole
  have hrem : (a % coin).toNat = (b % coin).toNat := padNat_injective 8 (List.cons.inj hrest).2
  unfold coin at hquot hrem
  omega

/-! ## Prices below the smallest unit -/

theorem head?_decInt_ne_zero {n : Int} (h : 0 < n) (rest : Text) :
    (decInt n ++ rest).head? ≠ some '0' := by
  rw [List.head?_append_of_ne_nil _ (decInt_ne_nil n)]
  obtain ⟨m, rfl⟩ := Int.eq_ofNat_of_zero_le h.le
  exact head?_decNat_ne_zero (by omega)

/-- A price starts with a zero if and only if it is below one. -/
theorem head?_xToString (dec : DecFloat) {r : Ratio} {q : ℚ}
    (h : r.Is q (maxInt64 * coin) maxInt64) :
    (xToString dec r).head? = some '0' ↔ q < 1 := by
  have hden : (0 : ℚ) < r.den := by exact_mod_cast h.den_pos
  have hone : q < 1 ↔ r.num < r.den := by
    rw [← h.value, div_lt_one hden, Int.cast_lt]
  have hnum := h.num_pos
  have hpos := h.den_pos
  have hle := h.den_le
  rw [hone]
  unfold xToString
  by_cases hrange : IsInt64 r.num ∧ IsInt64 r.den
  · rw [if_pos hrange]
    obtain ⟨decimals, htext⟩ := dec.whole r.num r.den hnum.le hrange.1.2 hpos hle
    rw [htext]
    by_cases hless : r.num < r.den
    · rw [Int.ediv_eq_zero_of_lt hnum.le hless]
      exact iff_of_true rfl hless
    · have hwhole : 0 < r.num / r.den := Int.le_ediv_of_mul_le hpos (by omega)
      exact iff_of_false (head?_decInt_ne_zero hwhole _) hless
  · -- the numerator is larger than any denominator
    rw [if_neg hrange, List.append_assoc]
    refine iff_of_false (head?_decInt_ne_zero hnum _) fun hless => hrange ?_
    unfold IsInt64 minInt64
    omega

namespace CMPMetaDEx

section Accepted

variable {o : CMPMetaDEx} (h : o.Accepted)
include h

theorem Accepted.priced_pos : (0 : ℚ) < o.pricedAmount := by
  unfold pricedAmount
  have hforsale := h.forsale_pos
  have hdesired := h.desired_pos
  split
  · exact_mod_cast hforsale
  · exact_mod_cast hdesired

theorem Accepted.belowUnit_iff (sps : CMPSPInfo) : o.BelowUnit sps ↔ o.shownPrice sps < 1 := by
  unfold BelowUnit shownPrice
  rw [div_mul_eq_mul_div, div_lt_one h.priced_pos]
  exact_mod_cast Iff.rfl

theorem Accepted.priceFits_iff (sps : CMPSPInfo) :
    o.PriceFits sps ↔ ⌈o.shownPrice sps⌉ ≤ maxInt64 := by
  unfold PriceFits shownPrice
  rw [Int.ceil_le, div_mul_eq_mul_div, div_le_iff₀ h.priced_pos]
  exact_mod_cast Iff.rfl

end Accepted

/-- The price in hundred-millionths, if a divisible property is paid. -/
theorem exactPrice_mul {sps : CMPSPInfo} {o : CMPMetaDEx}
    (hpaid : sps.isPropertyDivisible o.paidProperty = true) :
    o.exactPrice sps * 10 ^ 8 = o.shownPrice sps := by
  have hunits : sps.tokenUnits o.paidProperty = coin := by
    unfold CMPSPInfo.tokenUnits
    rw [if_pos hpaid]
  have hcoin : ((coin : Int) : ℚ) = 10 ^ 8 := by norm_num [coin]
  unfold exactPrice shownPrice
  rw [hunits, hcoin]
  field_simp

/-- The price in single tokens, if an indivisible property is paid. -/
theorem exactPrice_eq {sps : CMPSPInfo} {o : CMPMetaDEx}
    (hpaid : ¬ sps.isPropertyDivisible o.paidProperty = true) :
    o.exactPrice sps = o.shownPrice sps := by
  have hunits : sps.tokenUnits o.paidProperty = 1 := by
    unfold CMPSPInfo.tokenUnits
    rw [if_neg hpaid]
  unfold exactPrice shownPrice
  rw [hunits, Int.cast_one, div_one, div_div_eq_mul_div, mul_div_right_comm]

/-! ## The shown price -/

section Accepted

variable {o : CMPMetaDEx} (h : o.Accepted)
include h

/-- A price is either below the smallest unit, or it is rounded up. -/
theorem Accepted.displayUnitPrice_eq (dec : DecFloat) (s : State) :
    o.displayUnitPrice dec s =
      if o.BelowUnit s.sps then .ok "0.00000000".toList s
      else if o.PriceFits s.sps then .ok (priceText ⌈o.shownPrice s.sps⌉) s
      else .error (.assertFailed .condition) s := by
  obtain ⟨r, hr, his⟩ := h.displayRatio_is s.sps
  have hhead := (head?_xToString dec his).trans (h.belowUnit_iff s.sps).symm
  have hround := xToRoundUpInt64_eq his
  have hbody : o.displayUnitPrice dec s = (o.displayRatio s.sps >>= fun displayPrice =>
      if (xToString dec displayPrice).head? = some '0' then pure "0.00000000".toList
      else xToRoundUpInt64 displayPrice >>= formatDivisibleMP) s := rfl
  rw [hbody, hr, pure_bind]
  by_cases hbelow : o.BelowUnit s.sps
  · rw [if_pos hbelow, if_pos (hhead.mpr hbelow)]
    rfl
  rw [if_neg hbelow, if_neg (mt hhead.mp hbelow), hround]
  have hone : 1 ≤ o.shownPrice s.sps := not_lt.mp (mt (h.belowUnit_iff s.sps).mpr hbelow)
  have hpos : 0 < ⌈o.shownPrice s.sps⌉ := Int.ceil_pos.mpr (by linarith)
  have hfits := h.priceFits_iff s.sps
  by_cases hlarge : o.PriceFits s.sps
  · have hrange : IsInt64 ⌈o.shownPrice s.sps⌉ :=
      ⟨by unfold minInt64; omega, hfits.mp hlarge⟩
    rw [if_pos hlarge, assertThat_of hrange, pure_bind, pure_bind,
      formatDivisibleMP_eq hpos (hfits.mp hlarge)]
    rfl
  · -- `assert(rangeInt64(result))` fails
    have hrange : ¬ IsInt64 ⌈o.shownPrice s.sps⌉ := fun hr => hlarge (hfits.mpr hr.2)
    rw [if_neg hlarge, decide_eq_false hrange]
    rfl

/-- **PRICES ARE SHOWN** exactly when they are below the smallest unit, or a divisible property is
    paid and the price fits an amount. -/
theorem Accepted.shown_iff (dec : DecFloat) (s : State) :
    Shown dec o s ↔ o.BelowUnit s.sps ∨
      (s.sps.isPropertyDivisible o.paidProperty = true ∧ o.PriceFits s.sps) := by
  have hprice := h.displayUnitPrice_eq dec s
  constructor
  · rintro ⟨-, t, ht, hvalue⟩
    by_cases hbelow : o.BelowUnit s.sps
    · exact Or.inl hbelow
    rw [hprice, if_neg hbelow] at ht
    by_cases hfits : o.PriceFits s.sps
    · refine Or.inr ⟨?_, hfits⟩
      rw [if_pos hfits] at ht
      cases ht
      -- an indivisible property is not counted in hundred-millionths
      by_contra hpaid
      have hone : 1 ≤ o.shownPrice s.sps := not_lt.mp (mt (h.belowUnit_iff s.sps).mpr hbelow)
      have hpos : 0 < ⌈o.shownPrice s.sps⌉ := Int.ceil_pos.mpr (by linarith)
      have hzero : priceText ⌈o.shownPrice s.sps⌉ ≠ "0.00000000".toList := by
        intro heq
        have hnothing : ⌈o.shownPrice s.sps⌉ = 0 := priceText_injective heq
        omega
      have hceil := priceText_injective (hvalue hzero)
      rw [exactPrice_eq hpaid] at hceil
      have hup := Int.ceil_lt_add_one (o.shownPrice s.sps)
      have hlow := Int.le_ceil (o.shownPrice s.sps * 10 ^ 8)
      rw [← hceil] at hlow
      linarith
    · rw [if_neg hfits] at ht
      cases ht
  · rintro hgood
    refine ⟨h.full_shown dec s, ?_⟩
    by_cases hbelow : o.BelowUnit s.sps
    · rw [if_pos hbelow] at hprice
      exact ⟨_, hprice, fun hne => absurd rfl hne⟩
    · obtain ⟨hpaid, hfits⟩ := hgood.resolve_left hbelow
      rw [if_neg hbelow, if_pos hfits] at hprice
      refine ⟨_, hprice, fun _ => ?_⟩
      rw [exactPrice_mul hpaid]

end Accepted

/-! ## Posted prices -/

/-- Long division to fifty decimals. -/
def longDivision : DecFloat where
  quotient num denom :=
    decInt (num / denom) ++ '.' :: padNat 50 (num % denom * 10 ^ 50 / denom).toNat
  whole _ _ _ _ _ _ := ⟨_, rfl⟩

/-- An order of `B` for a divisible test property. -/
def pricedTx (amount desired : UInt64) : CMPTransaction :=
  { txid := 5, block := 12, txIdx := 1, sender := traderB, type := 25, property := 2147483651
    nNewValue := amount, desiredProperty := 2, desiredValue := desired }

/-- `B` has bought tokens of a divisible test property. -/
def pricedState : State := afterPurchase 2 (smallSaleState 2)

/-- A third of a coin is shown. -/
theorem third_shown :
    metaDExTradeError pricedState (pricedTx 3 1) = none ∧
      Shown longDivision (pricedTx 3 1).metaDExOrder pricedState := by
  have hnone : metaDExTradeError pricedState (pricedTx 3 1) = none := by decide +kernel
  have haccepted : (pricedTx 3 1).metaDExOrder.Accepted := accepted_of_trade hnone
  refine ⟨hnone, (haccepted.shown_iff longDivision pricedState).mpr (Or.inr ⟨?_, ?_⟩)⟩
  · decide +kernel
  · decide +kernel

/-- An order of one unit for the largest amount is accepted, and its price does not fit. -/
theorem largest_price_aborts :
    value (logicMathMetaDExTrade (pricedTx 1 9223372036854775807)) pricedState = some 0 ∧
      (pricedTx 1 9223372036854775807).metaDExOrder.Accepted ∧
      ¬ Shown longDivision (pricedTx 1 9223372036854775807).metaDExOrder pricedState := by
  have hnone : metaDExTradeError pricedState (pricedTx 1 9223372036854775807) = none := by
    decide +kernel
  refine ⟨by decide +kernel, accepted_of_trade hnone, ?_⟩
  rintro ⟨-, t, ht, -⟩
  have hthrows : value ((pricedTx 1 9223372036854775807).metaDExOrder.displayUnitPrice
      longDivision) pricedState = none := by decide +kernel
  unfold value at hthrows
  rw [ht] at hthrows
  cases hthrows

end CMPMetaDEx

end OmniCore
