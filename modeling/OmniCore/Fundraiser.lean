import OmniCore.Lib.Wide
import OmniCore.MetaDExFills

/-! # Fundraiser — the tokens that a purchase creates

    `calculateFundraiser` scales an amount by a price, by the bonus of an early purchase
    and by the share of the issuer, in fixed-point numbers of 256 bits. What would exceed
    the largest supply is shared between user and issuer in proportion.

    The calculation takes its arithmetic as a parameter: the machine's, which wraps, or one
    that halts where the machine's would wrap. -/

namespace OmniCore

open Machine Exec

/-! ## The calculation -/

/-- `arith_uint256`: it wraps, and throws if there is nothing to divide by. -/
def arithUint256 : Arith256 Halt := { byZero := .exception }

/-- `arith_uint256`, if it threw where it wraps. -/
def checkedUint256 : Arith256 Halt := { byZero := .exception, onWrap := some .exception }

/-- `weeks_sec_`. -/
def weeksSec : Nat := 604800

/-- `precision_`. -/
def fundraiserPrecision : Nat := 1000000000000

/-- `percentage_precision`. -/
def percentagePrecision : Nat := 100

/-- `satoshi_precision_`. -/
def satoshiPrecision : Nat := 100000000

variable (arith : Arith256 Halt)

/-- `bonusSeconds_`: the seconds before the deadline. -/
def bonusSeconds (fundraiserSecs currentSecs : Int) : ExecM Nat :=
  if currentSecs < fundraiserSecs then do
    let fundraiserSecs256 ← convertTo256 fundraiserSecs
    let currentSecs256 ← convertTo256 currentSecs
    arith.sub fundraiserSecs256 currentSecs256
  else
    pure 0

/-- `bonusPercentage_`: the percentage of tokens that a purchase before the deadline gives. -/
def bonusPercentage (bonusPerc : Nat) (fundraiserSecs currentSecs : Int) : ExecM Nat := do
  let bonusSeconds ← bonusSeconds arith fundraiserSecs currentSecs
  -- the whole number of weeks to apply bonus
  let weeks ← arith.mul (bonusSeconds / weeksSec) fundraiserPrecision
  let restSeconds ← arith.modulo bonusSeconds weeksSec
  let rest ← arith.mul restSeconds fundraiserPrecision
  let weeks ← arith.add weeks (rest / weeksSec)
  let ebPercentage ← arith.mul weeks bonusPerc
  let bonusPercentage ← arith.mul fundraiserPrecision percentagePrecision
  let bonusPercentage ← arith.add bonusPercentage ebPercentage
  pure (bonusPercentage / percentagePrecision)

/-- An indivisible amount is shifted to the units of a divisible one. -/
def inflated (inflateAmount : Bool) (created : Nat) : ExecM Nat :=
  if inflateAmount then arith.mul created satoshiPrecision else pure created

/-- `createdTokens`: total tokens including remainders. -/
def createdTokens (inflateAmount : Bool) (amtTransfer numProps : Int) (bonusPercentage : Nat) :
    ExecM Nat := do
  let created ← convertTo256 amtTransfer
  let created ← inflated arith inflateAmount created
  let numProps256 ← convertTo256 numProps
  let created ← arith.mul created numProps256
  arith.mul created bonusPercentage

/-- `issuerTokens`, with remainders. -/
def issuerTokens (issuerPerc createdTokens : Nat) : ExecM Nat := do
  let issuerPercentage ← arith.mul issuerPerc fundraiserPrecision
  let issuerPercentage := issuerPercentage / percentagePrecision
  let issuer ← arith.mul (createdTokens / satoshiPrecision / fundraiserPrecision)
    (issuerPercentage / 100)
  arith.mul issuer fundraiserPrecision

/-- The tokens for the user and for the issuer, if they exceed what can be created. -/
def shareCreatable (total256 createdInt issuerInt : Nat) : ExecM (Nat × Nat) := do
  let maxCreatable ← arith.sub maxInt64.toNat total256
  let created ← arith.add createdInt issuerInt
  -- the ratio of tokens for what can be created
  let ratio ← arith.mul created fundraiserPrecision
  let ratio ← arith.mul ratio satoshiPrecision
  let ratio ← arith.div ratio maxCreatable
  let issuerInt ← arith.mul issuerInt fundraiserPrecision
  let issuerInt ← arith.mul issuerInt satoshiPrecision
  let issuerInt ← arith.div issuerInt ratio
  assertThat .condition (decide (issuerInt ≤ maxCreatable))
  let createdInt ← arith.sub maxCreatable issuerInt
  pure (createdInt, issuerInt)

/-- `calculateFundraiser`: the tokens for the user and for the issuer, and whether the crowdsale
    closes with them. -/
def calculateFundraiser (inflateAmount : Bool) (amtTransfer : Int) (bonusPerc : Nat)
    (fundraiserSecs currentSecs numProps : Int) (issuerPerc : Nat) (totalTokens : Int) :
    ExecM (Int × Int × Bool) := do
  let bonusPercentage ← bonusPercentage arith bonusPerc fundraiserSecs currentSecs
  let created ← createdTokens arith inflateAmount amtTransfer numProps bonusPercentage
  let issuer ← issuerTokens arith issuerPerc created
  let createdInt := created / fundraiserPrecision / satoshiPrecision
  let issuerInt := issuer / fundraiserPrecision / satoshiPrecision / 100
  let total256 ← convertTo256 totalTokens
  let newTotalCreated ← arith.add total256 createdInt
  let newTotalCreated ← arith.add newTotalCreated issuerInt
  if maxInt64 < newTotalCreated then
    let (createdInt, issuerInt) ← shareCreatable arith total256 createdInt issuerInt
    let user ← convertTo64 createdInt
    let issuer ← convertTo64 issuerInt
    pure (user, issuer, true)
  else
    let user ← convertTo64 createdInt
    let issuer ← convertTo64 issuerInt
    pure (user, issuer, false)

/-! ## What the purchase is worth -/

/-- The weeks before the deadline, scaled by the precision and rounded down. -/
def weeksLeft (deadline now : Int) : Nat :=
  (deadline - now).toNat * fundraiserPrecision / weeksSec

/-- The tokens in percent that an early purchase gives, scaled by the precision. -/
def earlyBonus (deadline now : Int) (earlyBird : Nat) : Nat :=
  (100 * fundraiserPrecision + weeksLeft deadline now * earlyBird) / 100

/-- The share of the issuer. -/
def issuerShare (user percentage : Nat) : Nat := user * percentage / 100

/-- The arguments of one calculation, in the ranges of their types and of the checks before. -/
structure Purchase where
  inflateAmount : Bool
  amount : Int
  earlyBird : UInt8
  deadline : Int
  now : Int
  tokensPerUnit : Int
  percentage : UInt8
  totalTokens : Int
  amount_pos : 0 < amount
  amount_le : amount ≤ maxInt64
  deadline_nonneg : 0 ≤ deadline
  deadline_le : deadline ≤ maxInt64
  now_nonneg : 0 ≤ now
  now_le : now ≤ maxInt64
  tokensPerUnit_pos : 0 < tokensPerUnit
  tokensPerUnit_le : tokensPerUnit ≤ maxInt64
  total_nonneg : 0 ≤ totalTokens
  total_le : totalTokens ≤ maxInt64

namespace Purchase

variable (p : Purchase)

def run : ExecM (Int × Int × Bool) :=
  calculateFundraiser arith p.inflateAmount p.amount p.earlyBird.toNat p.deadline p.now
    p.tokensPerUnit p.percentage.toNat p.totalTokens

/-- The bonus of the purchase. -/
def bonus : Nat := earlyBonus p.deadline p.now p.earlyBird.toNat

/-- What is paid, in the units of the price. -/
def invested : Nat := p.amount.toNat * (if p.inflateAmount then satoshiPrecision else 1)

/-- The tokens for the user, with 20 decimals. -/
def worth : Nat := p.invested * p.tokensPerUnit.toNat * p.bonus

/-- The tokens for the user. -/
def user : Nat := p.worth / 10 ^ 20

/-- The tokens for the issuer. -/
def issuer : Nat := issuerShare p.user p.percentage.toNat

/-- What can still be created. -/
def creatable : Nat := (maxInt64 - p.totalTokens).toNat

/-! ## Sizes -/

theorem bonus_lt : p.bonus < 2 ^ 86 := by
  have hseconds : (p.deadline - p.now).toNat < 2 ^ 63 := by
    have hle := p.deadline_le
    have hnow := p.now_nonneg
    unfold maxInt64 at hle
    omega
  have hweeks : weeksLeft p.deadline p.now < 2 ^ 84 := by
    unfold weeksLeft fundraiserPrecision weeksSec
    omega
  have hearly : weeksLeft p.deadline p.now * p.earlyBird.toNat ≤ 2 ^ 84 * 255 :=
    Nat.mul_le_mul hweeks.le (Nat.le_of_lt_succ p.earlyBird.toNat_lt)
  unfold bonus earlyBonus fundraiserPrecision
  omega

theorem invested_lt : p.invested < 2 ^ 90 := by
  have hle := p.amount_le
  unfold maxInt64 at hle
  unfold invested satoshiPrecision
  split
  · omega
  · omega

theorem priced_lt : p.invested * p.tokensPerUnit.toNat < 2 ^ 153 := by
  have hle := p.tokensPerUnit_le
  have hunit : p.tokensPerUnit.toNat < 2 ^ 63 := by
    unfold maxInt64 at hle
    omega
  calc p.invested * p.tokensPerUnit.toNat < 2 ^ 90 * 2 ^ 63 := Nat.mul_lt_mul'' p.invested_lt hunit
    _ = 2 ^ 153 := by norm_num

theorem worth_lt : p.worth < 2 ^ 239 := by
  unfold worth
  calc p.invested * p.tokensPerUnit.toNat * p.bonus < 2 ^ 153 * 2 ^ 86 :=
        Nat.mul_lt_mul'' p.priced_lt p.bonus_lt
    _ = 2 ^ 239 := by norm_num

theorem user_lt : p.user < 2 ^ 173 := by
  have hworth := p.worth_lt
  unfold user
  omega

theorem issuer_lt : p.issuer < 2 ^ 175 := by
  have hmul : p.user * p.percentage.toNat ≤ 2 ^ 173 * 255 :=
    Nat.mul_le_mul p.user_lt.le (Nat.le_of_lt_succ p.percentage.toNat_lt)
  unfold issuer issuerShare
  omega

/-! ## The calculation, stage by stage -/

/-- Whole weeks and the rest of a week, scaled apart, are the weeks scaled at once. -/
theorem weeks_split (seconds : Nat) :
    seconds / weeksSec * fundraiserPrecision + seconds % weeksSec * fundraiserPrecision / weeksSec =
      seconds * fundraiserPrecision / weeksSec := by
  have hpos : 0 < weeksSec := by decide
  conv_rhs => rw [← Nat.div_add_mod seconds weeksSec]
  rw [Nat.add_mul, Nat.mul_assoc, Nat.mul_add_div hpos]

theorem bonusSeconds_eq :
    bonusSeconds arith p.deadline p.now = pure (p.deadline - p.now).toNat := by
  have hle := p.deadline_le
  have hnow0 := p.now_nonneg
  unfold maxInt64 at hle
  unfold bonusSeconds
  by_cases hlt : p.now < p.deadline
  · rw [if_pos hlt, convertTo256_of_nonneg p.deadline_nonneg, convertTo256_of_nonneg p.now_nonneg]
    have hnow : p.now.toNat ≤ p.deadline.toNat := Int.toNat_le_toNat hlt.le
    simp only [pure_bind]
    rw [arith.sub_eq (by omega) hnow]
    congr 1
    omega
  · rw [if_neg hlt, Int.toNat_of_nonpos (by omega)]

theorem bonusPercentage_eq :
    bonusPercentage arith p.earlyBird.toNat p.deadline p.now = pure p.bonus := by
  have hseconds : (p.deadline - p.now).toNat < 2 ^ 63 := by
    have hle := p.deadline_le
    have hnow := p.now_nonneg
    unfold maxInt64 at hle
    omega
  have hbird : p.earlyBird.toNat ≤ 255 := Nat.le_of_lt_succ p.earlyBird.toNat_lt
  have hweeks : weeksLeft p.deadline p.now < 2 ^ 84 := by
    unfold weeksLeft fundraiserPrecision weeksSec
    omega
  have hearly : weeksLeft p.deadline p.now * p.earlyBird.toNat ≤ 2 ^ 84 * 255 :=
    Nat.mul_le_mul hweeks.le hbird
  unfold bonusPercentage
  rw [p.bonusSeconds_eq, pure_bind, arith.mul_eq (by unfold weeksSec fundraiserPrecision; omega),
    pure_bind, arith.modulo_eq (by omega) (by decide), pure_bind,
    arith.mul_eq (by unfold weeksSec fundraiserPrecision; omega), pure_bind,
    arith.add_eq (by unfold weeksSec fundraiserPrecision; omega), pure_bind, weeks_split]
  change (arith.mul (weeksLeft p.deadline p.now) p.earlyBird.toNat >>= _) = _
  rw [arith.mul_eq (by omega), pure_bind, arith.mul_eq (by decide), pure_bind,
    arith.add_eq (by unfold fundraiserPrecision percentagePrecision; omega), pure_bind]
  unfold bonus earlyBonus percentagePrecision
  rw [Nat.mul_comm fundraiserPrecision]

theorem inflated_eq : inflated arith p.inflateAmount p.amount.toNat = pure p.invested := by
  have hlt := p.invested_lt
  unfold invested at hlt ⊢
  unfold inflated
  cases hinflate : p.inflateAmount with
  | true =>
      rw [hinflate, if_pos rfl] at hlt
      rw [if_pos rfl, if_pos rfl, arith.mul_eq (by omega)]
  | false => rw [if_neg (by decide), if_neg (by decide), Nat.mul_one]

theorem createdTokens_eq :
    createdTokens arith p.inflateAmount p.amount p.tokensPerUnit p.bonus = pure p.worth := by
  have hpriced := p.priced_lt
  have hworth := p.worth_lt
  unfold createdTokens
  rw [convertTo256_of_nonneg p.amount_pos.le, pure_bind, inflated_eq, pure_bind,
    convertTo256_of_nonneg p.tokensPerUnit_pos.le, pure_bind, arith.mul_eq (by omega), pure_bind]
  unfold worth at hworth ⊢
  rw [arith.mul_eq (by omega)]

/-- The share of the issuer is taken of the whole tokens of the user: what is scaled up before it
    is scaled down again. -/
theorem issuerTokens_eq :
    issuerTokens arith p.percentage.toNat p.worth =
      pure (p.user * (p.percentage.toNat * 10 ^ 8) * fundraiserPrecision) := by
  have hperc : p.percentage.toNat ≤ 255 := Nat.le_of_lt_succ p.percentage.toNat_lt
  have huser : p.worth / satoshiPrecision / fundraiserPrecision = p.user := by
    rw [Nat.div_div_eq_div_mul]
    rfl
  have hscaled : p.percentage.toNat * fundraiserPrecision / percentagePrecision / 100 =
      p.percentage.toNat * 10 ^ 8 := by
    unfold fundraiserPrecision percentagePrecision
    omega
  have hmul : p.user * (p.percentage.toNat * 10 ^ 8) ≤ 2 ^ 173 * (255 * 10 ^ 8) :=
    Nat.mul_le_mul p.user_lt.le (Nat.mul_le_mul_right _ hperc)
  unfold issuerTokens
  rw [arith.mul_eq (by unfold fundraiserPrecision; omega), pure_bind]
  dsimp only
  rw [huser, hscaled, arith.mul_eq (by omega), pure_bind,
    arith.mul_eq (by unfold fundraiserPrecision; omega)]

theorem issuerInt_eq :
    p.user * (p.percentage.toNat * 10 ^ 8) * fundraiserPrecision / fundraiserPrecision /
      satoshiPrecision / 100 = p.issuer := by
  rw [Nat.mul_div_cancel _ (by decide)]
  unfold issuer issuerShare satoshiPrecision
  have hswap : p.user * (p.percentage.toNat * 10 ^ 8) =
      p.user * p.percentage.toNat * 100000000 := by ring
  rw [hswap, Nat.mul_div_cancel _ (by decide)]

/-! ## Sharing what can be created -/

/-- The created tokens over what can be created, with 20 decimals. -/
def ratio : Nat := (p.user + p.issuer) * 10 ^ 20 / p.creatable

/-- What the issuer gets of what can be created. -/
def issuerPart : Nat := p.issuer * 10 ^ 20 / p.ratio

theorem creatable_lt : p.creatable < 2 ^ 63 := by
  have h0 := p.total_nonneg
  unfold creatable maxInt64
  omega

theorem ratio_ge (hpos : 0 < p.creatable) (hmore : p.creatable < p.user + p.issuer) :
    10 ^ 20 ≤ p.ratio := by
  unfold ratio
  rw [Nat.le_div_iff_mul_le hpos, Nat.mul_comm]
  exact Nat.mul_le_mul_right _ hmore.le

/-- **THE ISSUER'S PART EXISTS**: rounding the ratio down gives the issuer less than one token too
    much in all, because the ratio exceeds what can be created. -/
theorem issuerPart_le (hpos : 0 < p.creatable) (hmore : p.creatable < p.user + p.issuer) :
    p.issuerPart ≤ p.creatable := by
  have hratio := p.ratio_ge hpos hmore
  have hc := p.creatable_lt
  -- the ratio is less than one below the exact quotient
  have hfloor : (p.user + p.issuer) * 10 ^ 20 < (p.ratio + 1) * p.creatable :=
    Nat.lt_mul_of_div_lt (Nat.lt_succ_self _) hpos
  have hissuer : p.issuer * 10 ^ 20 ≤ (p.user + p.issuer) * 10 ^ 20 :=
    Nat.mul_le_mul_right _ (Nat.le_add_left _ _)
  unfold issuerPart
  refine Nat.le_of_lt_succ ((Nat.div_lt_iff_lt_mul (by omega)).mpr ?_)
  calc p.issuer * 10 ^ 20 < (p.ratio + 1) * p.creatable := hissuer.trans_lt hfloor
    _ = p.creatable * p.ratio + p.creatable := by ring
    _ ≤ p.creatable * p.ratio + p.ratio := by omega
    _ = p.creatable.succ * p.ratio := by rw [Nat.succ_mul]

theorem scaled_eq (n : Nat) : n * fundraiserPrecision * satoshiPrecision = n * 10 ^ 20 := by
  unfold fundraiserPrecision satoshiPrecision
  omega

/-- What can be created, as the calculation finds it. -/
theorem sub_total :
    (arith.sub maxInt64.toNat p.totalTokens.toNat : ExecM Nat) = pure p.creatable := by
  have hle := p.total_le
  have h0 := p.total_nonneg
  unfold maxInt64 at hle
  rw [arith.sub_eq (by decide) (Int.toNat_le_toNat p.total_le)]
  congr 1
  unfold creatable maxInt64
  omega

theorem shareCreatable_eq (hpos : 0 < p.creatable) (hmore : p.creatable < p.user + p.issuer) :
    shareCreatable arith p.totalTokens.toNat p.user p.issuer =
      pure (p.creatable - p.issuerPart, p.issuerPart) := by
  have huser := p.user_lt
  have hissuer := p.issuer_lt
  have hpart := p.issuerPart_le hpos hmore
  have hc := p.creatable_lt
  unfold shareCreatable
  rw [p.sub_total, pure_bind, arith.add_eq (by omega), pure_bind,
    arith.mul_eq (by unfold fundraiserPrecision; omega), pure_bind,
    arith.mul_eq (by unfold fundraiserPrecision satoshiPrecision; omega), pure_bind, scaled_eq,
    arith.div_eq hpos, pure_bind, arith.mul_eq (by unfold fundraiserPrecision; omega), pure_bind,
    arith.mul_eq (by unfold fundraiserPrecision satoshiPrecision; omega), pure_bind, scaled_eq]
  change (arith.div (p.issuer * 10 ^ 20) p.ratio >>= _) = _
  rw [arith.div_eq (by have := p.ratio_ge hpos hmore; omega), pure_bind]
  change (assertThat .condition (decide (p.issuerPart ≤ p.creatable)) >>= fun _ =>
    arith.sub p.creatable p.issuerPart >>= _) = _
  rw [assertThat_of hpart, pure_bind, arith.sub_eq (by omega) hpart, pure_bind]
  rfl

/-- Nothing can be created: the calculation divides by zero. -/
theorem shareCreatable_throws (hzero : p.creatable = 0) :
    shareCreatable arith p.totalTokens.toNat p.user p.issuer = throw arith.byZero := by
  have huser := p.user_lt
  have hissuer := p.issuer_lt
  unfold shareCreatable
  rw [p.sub_total, pure_bind, arith.add_eq (by omega), pure_bind,
    arith.mul_eq (by unfold fundraiserPrecision; omega), pure_bind,
    arith.mul_eq (by unfold fundraiserPrecision satoshiPrecision; omega), pure_bind, hzero,
    arith.div_zero]
  rfl

/-! ## The result -/

/-- The calculation up to the comparison with the largest supply. -/
theorem run_eq : p.run arith =
    (if maxInt64 < ((p.totalTokens.toNat + p.user + p.issuer : Nat) : Int) then do
      let r ← shareCreatable arith p.totalTokens.toNat p.user p.issuer
      let user ← convertTo64 r.1
      let issuer ← convertTo64 r.2
      pure (user, issuer, true)
    else do
      let user ← convertTo64 p.user
      let issuer ← convertTo64 p.issuer
      pure (user, issuer, false)) := by
  have huser := p.user_lt
  have hissuer := p.issuer_lt
  have hle := p.total_le
  unfold maxInt64 at hle
  have hwhole : p.worth / fundraiserPrecision / satoshiPrecision = p.user := by
    rw [Nat.div_div_eq_div_mul]
    rfl
  unfold run calculateFundraiser
  rw [p.bonusPercentage_eq, pure_bind, p.createdTokens_eq, pure_bind, p.issuerTokens_eq, pure_bind]
  dsimp only
  rw [hwhole, p.issuerInt_eq, convertTo256_of_nonneg p.total_nonneg, pure_bind,
    arith.add_eq (by omega), pure_bind, arith.add_eq (by omega), pure_bind]

/-- All tokens can be created. -/
theorem run_open (h : p.totalTokens + p.user + p.issuer ≤ maxInt64) :
    p.run arith = pure ((p.user : Int), (p.issuer : Int), false) := by
  have h0 := p.total_nonneg
  rw [run_eq, if_neg (by omega), convertTo64_of_le rfl (by omega), pure_bind,
    convertTo64_of_le rfl (by omega), pure_bind]

/-- Only a part can be created, and the crowdsale closes. -/
theorem run_close (h : maxInt64 < p.totalTokens + p.user + p.issuer)
    (hroom : p.totalTokens < maxInt64) :
    p.run arith = pure (((p.creatable - p.issuerPart : Nat) : Int), (p.issuerPart : Int), true) := by
  have h0 := p.total_nonneg
  have hpos : 0 < p.creatable := by
    unfold creatable
    omega
  have hmore : p.creatable < p.user + p.issuer := by
    unfold creatable
    omega
  have hpart := p.issuerPart_le hpos hmore
  have hc : (p.creatable : Int) ≤ maxInt64 := by
    unfold creatable
    omega
  rw [run_eq, if_pos (by omega), p.shareCreatable_eq arith hpos hmore, pure_bind,
    convertTo64_of_le rfl (by omega), pure_bind, convertTo64_of_le rfl (by omega), pure_bind]

/-- The supply is used up, and a token is bought. -/
theorem run_throws (h : maxInt64 < p.totalTokens + p.user + p.issuer)
    (hfull : p.totalTokens = maxInt64) : p.run arith = throw arith.byZero := by
  have h0 := p.total_nonneg
  have hzero : p.creatable = 0 := by
    unfold creatable
    omega
  rw [run_eq, if_pos (by omega), p.shareCreatable_throws arith hzero]
  rfl

/-! ## Safety -/

/-- The purchase buys a token: what it is worth is at least one whole token. -/
def BuysToken : Prop := 10 ^ 20 ≤ p.worth

/-- What is expected of the calculation: it returns, no sum, difference or product wraps, and it
    creates no more tokens than can exist, and all of them if the crowdsale closes. -/
def Safe : Prop :=
  ∃ (user issuer : Int) (closeCrowdsale : Bool),
    p.run arithUint256 = pure (user, issuer, closeCrowdsale) ∧
    p.run checkedUint256 = pure (user, issuer, closeCrowdsale) ∧
    0 ≤ user ∧ 0 ≤ issuer ∧ p.totalTokens + user + issuer ≤ maxInt64 ∧
    (closeCrowdsale = true → p.totalTokens + user + issuer = maxInt64)

theorem user_pos_iff : 0 < p.user ↔ p.BuysToken := by
  unfold user BuysToken
  rw [Nat.div_pos_iff]
  constructor
  · exact fun h => h.2
  · exact fun h => ⟨by norm_num, h⟩

/-- Without tokens for the user there are none for the issuer. -/
theorem issuer_eq_zero (h : p.user = 0) : p.issuer = 0 := by
  unfold issuer issuerShare
  rw [h, Nat.zero_mul, Nat.zero_div]

theorem safe_of_open (h : p.totalTokens + p.user + p.issuer ≤ maxInt64) : p.Safe :=
  ⟨p.user, p.issuer, false, p.run_open _ h, p.run_open _ h, by omega, by omega, h, nofun⟩

theorem safe_of_close (h : maxInt64 < p.totalTokens + p.user + p.issuer)
    (hroom : p.totalTokens < maxInt64) : p.Safe := by
  have hpart : p.issuerPart ≤ p.creatable := by
    refine p.issuerPart_le ?_ ?_
    · unfold creatable
      omega
    · unfold creatable
      omega
  have htotal : p.totalTokens + ((p.creatable - p.issuerPart : Nat) : Int) + p.issuerPart =
      maxInt64 := by
    have hc : (p.creatable : Int) = maxInt64 - p.totalTokens := by
      unfold creatable
      omega
    omega
  exact ⟨_, _, true, p.run_close _ h hroom, p.run_close _ h hroom, by omega, by omega, htotal.le,
    fun _ => htotal⟩

/-- Nothing can be created, and a token is bought. -/
theorem not_safe (hfull : p.totalTokens = maxInt64) (hbuys : p.BuysToken) : ¬ p.Safe := by
  rintro ⟨user, issuer, close, hrun, -⟩
  have huser := p.user_pos_iff.mpr hbuys
  rw [p.run_throws arithUint256 (by omega) hfull] at hrun
  have hstate := congrFun hrun (State.fresh ⟨fun _ => 0, ⟨0, 0, 0, 0, 0, 0⟩, 0, 0, 0⟩)
  cases hstate

/-- **WHEN THE CALCULATION IS SAFE**: unless the supply is already used up and the purchase buys a
    token. -/
theorem safe_iff : p.Safe ↔ ¬ (p.totalTokens = maxInt64 ∧ p.BuysToken) := by
  constructor
  · rintro hsafe ⟨hfull, hbuys⟩
    exact p.not_safe hfull hbuys hsafe
  · intro h
    by_cases hfits : p.totalTokens + p.user + p.issuer ≤ maxInt64
    · exact p.safe_of_open hfits
    · have hmore : maxInt64 < p.totalTokens + p.user + p.issuer := not_le.mp hfits
      refine p.safe_of_close hmore (lt_of_le_of_ne p.total_le fun hfull => ?_)
      refine h ⟨hfull, p.user_pos_iff.mp (Nat.pos_of_ne_zero fun huser => ?_)⟩
      rw [huser, p.issuer_eq_zero huser] at hmore
      omega

end Purchase

end OmniCore
