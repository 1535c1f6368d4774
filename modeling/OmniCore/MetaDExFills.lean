import OmniCore.ContractRun
import OmniCore.MetaDExTx

/-! # MetaDExFills — what the token market trades, and at which price

    `x_Trade` computes a fill in 256-bit words, converts it back and asserts what it expects of
    it. Over the integers a fill is a floor and a ceiling: the buyer gets what it can pay for at
    the price of the resting order, rounded down, and pays for that, rounded up. A ghost list of
    fills then shows that no order ever trades, in sum, worse than its limit. -/

namespace OmniCore

open Std (ExtTreeMap)
open Machine TextRec MapSum Exec

/-! ## Exact fills -/

/-- The amounts of an order that a valid trade made, and of what is left of it. -/
structure CMPMetaDEx.Sound (o : CMPMetaDEx) : Prop where
  forsale_pos : 0 < o.amountForsale
  forsale_le : o.amountForsale ≤ maxInt64
  desired_pos : 0 < o.amountDesired
  desired_le : o.amountDesired ≤ maxInt64
  remaining_pos : 0 < o.amountRemaining
  remaining_le : o.amountRemaining ≤ o.amountForsale

instance (o : CMPMetaDEx) : Decidable o.Sound :=
  decidable_of_iff (0 < o.amountForsale ∧ o.amountForsale ≤ maxInt64 ∧ 0 < o.amountDesired ∧
      o.amountDesired ≤ maxInt64 ∧ 0 < o.amountRemaining ∧ o.amountRemaining ≤ o.amountForsale)
    ⟨fun ⟨h1, h2, h3, h4, h5, h6⟩ => ⟨h1, h2, h3, h4, h5, h6⟩,
      fun ⟨h1, h2, h3, h4, h5, h6⟩ => ⟨h1, h2, h3, h4, h5, h6⟩⟩

/-- Two orders whose prices cross. -/
structure Crossing (pold pnew : CMPMetaDEx) : Prop where
  old : pold.Sound
  new : pnew.Sound
  price : pold.unitPrice ≤ pnew.inversePrice

/-- What the new order gets of the resting one. -/
def exactBuy (pold pnew : CMPMetaDEx) : Int :=
  min (pnew.amountRemaining * pold.amountForsale / pold.amountDesired) pold.amountRemaining

/-- What it pays for `buy` tokens. -/
def exactPay (pold : CMPMetaDEx) (buy : Int) : Int :=
  ⌈(buy * pold.amountDesired : ℚ) / pold.amountForsale⌉

theorem exactPay_le_iff {pold : CMPMetaDEx} (h : 0 < pold.amountForsale) (buy n : Int) :
    exactPay pold buy ≤ n ↔ buy * pold.amountDesired ≤ n * pold.amountForsale := by
  have hF : (0 : ℚ) < pold.amountForsale := by exact_mod_cast h
  unfold exactPay
  rw [Int.ceil_le, div_le_iff₀ hF]
  exact_mod_cast Iff.rfl

/-- Rounding the payment up, the resting order is paid its price at least. -/
theorem le_exactPay_mul {pold : CMPMetaDEx} (h : 0 < pold.amountForsale) (buy : Int) :
    buy * pold.amountDesired ≤ exactPay pold buy * pold.amountForsale :=
  (exactPay_le_iff h buy _).mp le_rfl

namespace Crossing

variable {pold pnew : CMPMetaDEx} (h : Crossing pold pnew)
include h

/-- Both ways of comparing the prices. -/
theorem mul_le : pold.amountDesired * pnew.amountDesired ≤
    pnew.amountForsale * pold.amountForsale := by
  have hF : (0 : ℚ) < pold.amountForsale := by exact_mod_cast h.old.forsale_pos
  have hD : (0 : ℚ) < pnew.amountDesired := by exact_mod_cast h.new.desired_pos
  have hprice := h.price
  unfold CMPMetaDEx.unitPrice CMPMetaDEx.inversePrice at hprice
  rw [div_le_div_iff₀ hF hD] at hprice
  exact_mod_cast hprice

theorem unitPrice_le : pnew.unitPrice ≤ pold.inversePrice := by
  have hF : (0 : ℚ) < pnew.amountForsale := by exact_mod_cast h.new.forsale_pos
  have hD : (0 : ℚ) < pold.amountDesired := by exact_mod_cast h.old.desired_pos
  have hmul : (pold.amountDesired * pnew.amountDesired : ℚ) ≤
      pnew.amountForsale * pold.amountForsale := by exact_mod_cast h.mul_le
  unfold CMPMetaDEx.unitPrice CMPMetaDEx.inversePrice
  rw [div_le_div_iff₀ hF hD]
  linarith

theorem exactBuy_nonneg : 0 ≤ exactBuy pold pnew := by
  refine le_min ?_ h.old.remaining_pos.le
  exact Int.ediv_nonneg (mul_nonneg h.new.remaining_pos.le h.old.forsale_pos.le) h.old.desired_pos.le

omit h in
theorem exactBuy_le : exactBuy pold pnew ≤ pold.amountRemaining := min_le_right _ _

/-- Rounding the purchase down, the remaining amount of the new order covers it. -/
theorem exactBuy_mul_le :
    exactBuy pold pnew * pold.amountDesired ≤ pnew.amountRemaining * pold.amountForsale := by
  calc exactBuy pold pnew * pold.amountDesired
      ≤ pnew.amountRemaining * pold.amountForsale / pold.amountDesired * pold.amountDesired :=
        Int.mul_le_mul_of_nonneg_right (min_le_left _ _) h.old.desired_pos.le
    _ ≤ pnew.amountRemaining * pold.amountForsale :=
        Int.ediv_mul_le _ h.old.desired_pos.ne'

/-- **THE TAKER CAN PAY**: what a purchase costs is there. -/
theorem exactPay_le : exactPay pold (exactBuy pold pnew) ≤ pnew.amountRemaining :=
  (exactPay_le_iff h.old.forsale_pos _ _).mpr h.exactBuy_mul_le

theorem exactPay_nonneg : 0 ≤ exactPay pold (exactBuy pold pnew) := by
  by_contra hneg
  have hle : exactPay pold (exactBuy pold pnew) ≤ -1 := by omega
  rw [exactPay_le_iff h.old.forsale_pos] at hle
  have hbuy := mul_nonneg h.exactBuy_nonneg h.old.desired_pos.le
  have hpos := h.old.forsale_pos
  omega

theorem exactPay_pos (hbuy : exactBuy pold pnew ≠ 0) :
    0 < exactPay pold (exactBuy pold pnew) := by
  by_contra hneg
  have hle : exactPay pold (exactBuy pold pnew) ≤ 0 := by omega
  rw [exactPay_le_iff h.old.forsale_pos, zero_mul] at hle
  have hbuy0 : 0 < exactBuy pold pnew := lt_of_le_of_ne h.exactBuy_nonneg (Ne.symm hbuy)
  exact absurd (mul_pos hbuy0 h.old.desired_pos) (not_lt.mpr hle)

/-- The effective price is no lower than that of the resting order. -/
theorem unitPrice_le_effective (hbuy : exactBuy pold pnew ≠ 0) :
    pold.unitPrice ≤ (exactPay pold (exactBuy pold pnew) : ℚ) / exactBuy pold pnew := by
  have hbuy0 : 0 < exactBuy pold pnew := lt_of_le_of_ne h.exactBuy_nonneg (Ne.symm hbuy)
  have hF : (0 : ℚ) < pold.amountForsale := by exact_mod_cast h.old.forsale_pos
  have hB : (0 : ℚ) < exactBuy pold pnew := by exact_mod_cast hbuy0
  have hmul := le_exactPay_mul h.old.forsale_pos (exactBuy pold pnew)
  unfold CMPMetaDEx.unitPrice
  rw [div_le_div_iff₀ hF hB, mul_comm]
  exact_mod_cast hmul

end Crossing

/-! ## The code computes exact fills -/

theorem assertThat_of {site : AssertSite} {c : Prop} [Decidable c] (h : c) :
    assertThat site (decide c) = pure () := by
  rw [decide_eq_true h]
  rfl

theorem convertTo256_of_nonneg {n : Int} (h : 0 ≤ n) : convertTo256 n = pure n.toNat := by
  unfold convertTo256
  rw [assertThat_of h, pure_bind]

theorem convertTo64_of_le {n : Nat} {m : Int} (hm : (n : Int) = m) (h : m ≤ maxInt64) :
    convertTo64 n = pure m := by
  subst hm
  unfold convertTo64
  rw [assertThat_of h, pure_bind]

/-- The product of two 64-bit amounts does not wrap. -/
theorem mul256_toNat {a b : Int} (ha : 0 ≤ a) (ha' : a ≤ maxInt64) (hb : 0 ≤ b)
    (hb' : b ≤ maxInt64) : ((mul256 a.toNat b.toNat : Nat) : Int) = a * b := by
  unfold maxInt64 at ha' hb'
  rw [mul256_eq (by omega) (by omega), Nat.cast_mul, Int.toNat_of_nonneg ha, Int.toNat_of_nonneg hb]

namespace Crossing

variable {pold pnew : CMPMetaDEx} (h : Crossing pold pnew)
include h

theorem couldBuy_eq : couldBuy pold pnew = pure (exactBuy pold pnew) := by
  have hold := h.old
  have hnew := h.new
  have hremaining : pnew.amountRemaining ≤ maxInt64 := hnew.remaining_le.trans hnew.forsale_le
  have hbuy : ((mul256 pnew.amountRemaining.toNat pold.amountForsale.toNat /
      pold.amountDesired.toNat : Nat) : Int) =
      pnew.amountRemaining * pold.amountForsale / pold.amountDesired := by
    rw [Int.natCast_ediv, mul256_toNat hnew.remaining_pos.le hremaining hold.forsale_pos.le
      hold.forsale_le, Int.toNat_of_nonneg hold.desired_pos.le]
  unfold couldBuy exactBuy
  rw [convertTo256_of_nonneg hnew.remaining_pos.le, convertTo256_of_nonneg hold.forsale_pos.le,
    convertTo256_of_nonneg hold.desired_pos.le, convertTo256_of_nonneg hold.remaining_pos.le]
  simp only [pure_bind]
  split
  · next hlt =>
      have hlt' : pnew.amountRemaining * pold.amountForsale / pold.amountDesired <
          pold.amountRemaining := by
        rw [← hbuy]
        exact Int.lt_toNat.mp hlt
      rw [min_eq_left hlt'.le]
      exact convertTo64_of_le hbuy (hlt'.le.trans (hold.remaining_le.trans hold.forsale_le))
  · next hge =>
      have hge' : pold.amountRemaining ≤
          pnew.amountRemaining * pold.amountForsale / pold.amountDesired := by
        rw [← hbuy]
        exact Int.toNat_le.mp (not_lt.mp hge)
      rw [min_eq_right hge']

theorem wouldPay_eq :
    wouldPay pold (exactBuy pold pnew) = pure (exactPay pold (exactBuy pold pnew)) := by
  have hold := h.old
  have hbuy0 := h.exactBuy_nonneg
  have hbuy : exactBuy pold pnew ≤ maxInt64 :=
    exactBuy_le.trans (hold.remaining_le.trans hold.forsale_le)
  have hmul := mul256_toNat hbuy0 hbuy hold.desired_pos.le hold.desired_le
  have hsmall : mul256 (exactBuy pold pnew).toNat pold.amountDesired.toNat < 2 ^ 255 := by
    have hle := Int.mul_le_mul hbuy hold.desired_le hold.desired_pos.le (by decide)
    unfold maxInt64 at hle
    omega
  have hF := hold.forsale_pos
  unfold wouldPay
  rw [convertTo256_of_nonneg hbuy0, convertTo256_of_nonneg hold.desired_pos.le,
    convertTo256_of_nonneg hold.forsale_pos.le]
  simp only [pure_bind]
  refine convertTo64_of_le ?_ (h.exactPay_le.trans (h.new.remaining_le.trans h.new.forsale_le))
  -- both are the least number that covers the product
  refine eq_of_forall_ge_iff fun n => ?_
  rw [exactPay_le_iff hF]
  by_cases hn : 0 ≤ n
  · obtain ⟨k, rfl⟩ := Int.eq_ofNat_of_zero_le hn
    rw [Int.ofNat_le, divideAndRoundUp_le_iff (by omega) hsmall, ← hmul]
    have hcast : ((k * pold.amountForsale.toNat : Nat) : Int) = k * pold.amountForsale := by
      rw [Nat.cast_mul, Int.toNat_of_nonneg hF.le]
    rw [← hcast, Int.ofNat_le]
  · have hneg : n * pold.amountForsale < 0 := mul_neg_of_neg_of_pos (by omega) hF
    have hnonneg := mul_nonneg hbuy0 hold.desired_pos.le
    constructor
    · intro hle
      omega
    · intro hle
      omega

end Crossing

/-! ## One visit -/

/-- What a trade does once its conditions are known to hold: the fee, the four postings, the record
    and the level. -/
def settleTrade (price : ℚ) (pold pnew : CMPMetaDEx) (got paid : Int) : ExecM MdTrade := do
  let tradingFee ← stripFee pold pnew got
  assertUpdate pnew.addr pnew.property (-paid) .balance
  assertUpdate pold.addr pold.desiredProperty paid .balance
  assertUpdate pold.addr pold.property (-got) .metaDExReserve
  assertUpdate pnew.addr pnew.desiredProperty (got - tradingFee) .balance
  recordMatchedTrade pold.txid pnew.txid pold.addr pnew.addr pold.desiredProperty
    pnew.desiredProperty paid (got - tradingFee) pnew.block tradingFee
  modify fun s => s.setMdLevel pnew.desiredProperty price
    (mdReplaceMatched (s.mdLevel pnew.desiredProperty price)
      { pold with amountRemaining := pold.amountRemaining - got })
  pure {
    pnew := { pnew with amountRemaining := pnew.amountRemaining - paid }
    satisfied := decide (pnew.amountRemaining - paid = 0)
    ret := if 0 < pold.amountRemaining - got then .tradedMoreInSeller
      else if 0 < pnew.amountRemaining - paid then .tradedMoreInBuyer else .traded }

/-- A visit over the integers: no words, no conversions, no assertions. -/
def tradeExactly (price : ℚ) (t : MdTrade) (pold : CMPMetaDEx) : ExecM MdTrade :=
  let got := exactBuy pold t.pnew
  let paid := exactPay pold got
  if got = 0 ∨ t.pnew.inversePrice < (paid : ℚ) / got then pure t
  else settleTrade price pold t.pnew got paid

/-- A resting order that a visit at a price compares with the new one: it is where its price says,
    sells what the new order wants and wants what that sells. -/
structure Considered (price : ℚ) (pold pnew : CMPMetaDEx) : Prop where
  price_eq : pold.unitPrice = price
  sells : pold.property = pnew.desiredProperty
  wants : pold.desiredProperty = pnew.property
  apart : pnew.property ≠ pnew.desiredProperty

theorem executeTrade_eq {price : ℚ} {pold pnew : CMPMetaDEx} (h : Crossing pold pnew)
    (hbuy : exactBuy pold pnew ≠ 0)
    (hprice : (exactPay pold (exactBuy pold pnew) : ℚ) / exactBuy pold pnew ≤ pnew.inversePrice) :
    executeTrade price pold pnew (exactBuy pold pnew) (exactPay pold (exactBuy pold pnew)) =
      settleTrade price pold pnew (exactBuy pold pnew) (exactPay pold (exactBuy pold pnew)) := by
  have hseller : 0 ≤ pold.amountRemaining - exactBuy pold pnew :=
    sub_nonneg.mpr Crossing.exactBuy_le
  have hbuyer : 0 ≤ pnew.amountRemaining - exactPay pold (exactBuy pold pnew) :=
    sub_nonneg.mpr h.exactPay_le
  unfold executeTrade settleTrade
  dsimp only
  rw [assertThat_of (h.unitPrice_le_effective hbuy), assertThat_of hprice, assertThat_of hseller,
    assertThat_of hbuyer]
  simp only [pure_bind]

/-- **THE ASSERTIONS HOLD**: for two orders that cross, a visit computes the exact fill. -/
theorem matchOffer_eq {price : ℚ} {t : MdTrade} {pold : CMPMetaDEx} (h : Crossing pold t.pnew)
    (hc : Considered price pold t.pnew) : matchOffer price t pold = tradeExactly price t pold := by
  unfold matchOffer tradeExactly
  dsimp only
  rw [assertThat_of hc.price_eq, assertThat_of h.old.remaining_pos,
    assertThat_of h.new.remaining_pos, assertThat_of hc.apart, assertThat_of hc.sells,
    assertThat_of h.price, assertThat_of h.unitPrice_le, h.couldBuy_eq,
    if_neg (not_not_intro hc.wants)]
  simp only [pure_bind, h.wouldPay_eq]
  by_cases hbuy : exactBuy pold t.pnew = 0
  · rw [if_pos hbuy, if_pos (Or.inl hbuy)]
  · rw [if_neg hbuy]
    by_cases hprice : t.pnew.inversePrice <
        (exactPay pold (exactBuy pold t.pnew) : ℚ) / exactBuy pold t.pnew
    · rw [if_pos hprice, if_pos (Or.inr hprice)]
    · rw [if_neg hprice, if_neg (not_or.mpr ⟨hbuy, hprice⟩)]
      exact executeTrade_eq h hbuy (not_lt.mp hprice)

/-! ## The book -/

theorem mdLevel_setMdLevel (s : State) (p p' : PropertyId) (price price' : ℚ) (set : MdSet) :
    (s.setMdLevel p price set).mdLevel p' price' =
      if p = p' ∧ price = price' then set else s.mdLevel p' price' := by
  unfold State.mdLevel State.setMdLevel State.mdPrices
  dsimp only
  by_cases hp : p = p'
  · subst hp
    rw [ExtTreeMap.getElem?_insert_self, Option.getD_some, ExtTreeMap.getElem?_insert]
    by_cases hprice : price = price'
    · simp [hprice]
    · have hc : compare price price' ≠ .eq := fun hc => hprice (Std.LawfulEqOrd.eq_of_compare hc)
      simp [hprice, hc]
  · have hc : compare p p' ≠ .eq := fun hc => hp (Std.LawfulEqOrd.eq_of_compare hc)
    rw [ExtTreeMap.getElem?_insert, if_neg hc, if_neg fun h => hp h.1]

theorem mdLevel_congr {s s' : State} (h : s'.metadex = s.metadex) (p : PropertyId) (price : ℚ) :
    s'.mdLevel p price = s.mdLevel p price := by
  unfold State.mdLevel State.mdPrices
  rw [h]

/-- The listing of the book has every resting order at its place. -/
theorem mem_mdOrders {s : State} {e : MdPlaced} :
    e ∈ s.mdOrders ↔ (s.mdLevel e.property e.price)[e.key]? = some e.order := by
  obtain ⟨p, price, k, o⟩ := e
  unfold State.mdOrders State.mdLevel State.mdPrices
  simp only [List.mem_flatMap, List.mem_map, mem_toList_iff]
  constructor
  · rintro ⟨⟨p', prices⟩, hp, ⟨price', level⟩, hprice, ⟨k', o'⟩, hk, heq⟩
    cases heq
    dsimp only at hp hprice hk ⊢
    rw [hp, Option.getD_some, hprice, Option.getD_some, hk]
  · intro ho
    cases hp : s.metadex[p]? with
    | none => simp [hp] at ho
    | some prices =>
        rw [hp, Option.getD_some] at ho
        cases hprice : prices[price]? with
        | none => simp [hprice] at ho
        | some level =>
            rw [hprice, Option.getD_some] at ho
            exact ⟨(p, prices), hp, (price, level), hprice, (k, o), ho, rfl⟩

/-- An order may rest at a place: it has legal amounts, and its property, its price and its place
    in the block are those of the book. -/
structure MdPlaceOk (p : PropertyId) (price : ℚ) (k : OrderKey) (o : CMPMetaDEx) : Prop where
  sound : o.Sound
  property : o.property = p
  price : o.unitPrice = price
  key : o.key = k

/-- Every resting order may rest where it does. -/
def MdBookOk (s : State) : Prop :=
  ∀ p price k o, (s.mdLevel p price)[k]? = some o → MdPlaceOk p price k o

theorem MdBookOk.congr {s s' : State} (h : MdBookOk s) (heq : s'.metadex = s.metadex) :
    MdBookOk s' := by
  intro p price k o ho
  rw [mdLevel_congr heq] at ho
  exact h p price k o ho

theorem mdBookOk_empty {s : State} (h : s.metadex = ∅) : MdBookOk s := by
  intro p price k o ho
  simp [State.mdLevel, State.mdPrices, h] at ho

/-- Rewriting a level with orders that may rest there. -/
theorem MdBookOk.setMdLevel {s : State} (h : MdBookOk s) {p : PropertyId} {price : ℚ} {set : MdSet}
    (hset : ∀ k o, set[k]? = some o → MdPlaceOk p price k o) :
    MdBookOk (s.setMdLevel p price set) := by
  intro p' price' k o ho
  rw [mdLevel_setMdLevel] at ho
  by_cases hplace : p = p' ∧ price = price'
  · rw [if_pos hplace] at ho
    obtain ⟨rfl, rfl⟩ := hplace
    exact hset k o ho
  · rw [if_neg hplace] at ho
    exact h p' price' k o ho

theorem getElem?_mdReplaceMatched (level : MdSet) (r : CMPMetaDEx) (k : OrderKey) :
    (mdReplaceMatched level r)[k]? =
      if r.key = k then (if 0 < r.amountRemaining then some r else none) else level[k]? := by
  unfold mdReplaceMatched
  by_cases hk : r.key = k
  · subst hk
    by_cases hr : 0 < r.amountRemaining
    · simp [hr]
    · simp [hr]
  · have hc : pairCmp r.key k ≠ .eq := fun hc => hk (Std.LawfulEqCmp.eq_of_compare hc)
    by_cases hr : 0 < r.amountRemaining
    · simp [hr, hk, ExtTreeMap.getElem?_insert, ExtTreeMap.getElem?_erase, hc]
    · simp [hr, hk, ExtTreeMap.getElem?_erase, hc]

/-! ## What a visit does to the book -/

/-- A legal fill of two orders: neither gives more than it has left, and each gets the price of its
    limit at least. -/
structure FillOk (pold pnew : CMPMetaDEx) (got paid : Int) : Prop where
  got_pos : 0 < got
  got_le : got ≤ pold.amountRemaining
  paid_pos : 0 < paid
  paid_le : paid ≤ pnew.amountRemaining
  maker : got * pold.amountDesired ≤ paid * pold.amountForsale
  taker : paid * pnew.amountDesired ≤ got * pnew.amountForsale

/-- The exact fill is legal once the effective price is not too high. -/
theorem Crossing.fillOk {pold pnew : CMPMetaDEx} (h : Crossing pold pnew)
    (hbuy : exactBuy pold pnew ≠ 0)
    (hprice : (exactPay pold (exactBuy pold pnew) : ℚ) / exactBuy pold pnew ≤ pnew.inversePrice) :
    FillOk pold pnew (exactBuy pold pnew) (exactPay pold (exactBuy pold pnew)) where
  got_pos := lt_of_le_of_ne h.exactBuy_nonneg (Ne.symm hbuy)
  got_le := Crossing.exactBuy_le
  paid_pos := h.exactPay_pos hbuy
  paid_le := h.exactPay_le
  maker := le_exactPay_mul h.old.forsale_pos _
  taker := by
    have hB : (0 : ℚ) < exactBuy pold pnew := by
      exact_mod_cast lt_of_le_of_ne h.exactBuy_nonneg (Ne.symm hbuy)
    have hD : (0 : ℚ) < pnew.amountDesired := by exact_mod_cast h.new.desired_pos
    unfold CMPMetaDEx.inversePrice at hprice
    rw [div_le_div_iff₀ hB hD, mul_comm (pnew.amountForsale : ℚ)] at hprice
    exact_mod_cast hprice

/-- The visit of a place traded with the order there. -/
structure TradedAt (price : ℚ) (k : OrderKey) (t : MdTrade) (s : State) (pold : CMPMetaDEx)
    (got paid : Int) (t' : MdTrade) (s' : State) : Prop where
  resting : (s.mdLevel t.pnew.desiredProperty price)[k]? = some pold
  fill : FillOk pold t.pnew got paid
  pnew : t'.pnew = { t.pnew with amountRemaining := t.pnew.amountRemaining - paid }
  satisfied : t'.satisfied = decide (t.pnew.amountRemaining - paid = 0)
  book : s'.metadex = (s.setMdLevel t.pnew.desiredProperty price
    (mdReplaceMatched (s.mdLevel t.pnew.desiredProperty price)
      { pold with amountRemaining := pold.amountRemaining - got })).metadex

/-- A visit leaves everything as it is, or trades. -/
def VisitEffect (price : ℚ) (k : OrderKey) (t : MdTrade) (s : State) (t' : MdTrade) (s' : State) :
    Prop :=
  (t' = t ∧ s' = s) ∨ ∃ pold got paid, TradedAt price k t s pold got paid t' s'

/-- Why the loop passes over a resting order: it wants something else, nothing of it can be bought,
    or what can be bought costs more than the limit of the new order, after rounding. -/
inductive PassesOver (pold pnew : CMPMetaDEx) : Prop
  | other (h : pold.desiredProperty ≠ pnew.property)
  | nothing (h : exactBuy pold pnew = 0)
  | tooExpensive (h : pnew.inversePrice < (exactPay pold (exactBuy pold pnew) : ℚ) /
      exactBuy pold pnew)

/-- A visit passes over the order at its place, or makes the exact trade with it. -/
def VisitOutcome (price : ℚ) (k : OrderKey) (t : MdTrade) (s : State) (t' : MdTrade) (s' : State) :
    Prop :=
  (t' = t ∧ s' = s ∧ (t.satisfied = false → ∀ pold,
    (s.mdLevel t.pnew.desiredProperty price)[k]? = some pold → PassesOver pold t.pnew)) ∨
  ∃ pold, pold.desiredProperty = t.pnew.property ∧
    TradedAt price k t s pold (exactBuy pold t.pnew) (exactPay pold (exactBuy pold t.pnew)) t' s'

theorem VisitOutcome.effect {price : ℚ} {k : OrderKey} {t t' : MdTrade} {s s' : State}
    (h : VisitOutcome price k t s t' s') : VisitEffect price k t s t' s' := by
  rcases h with ⟨ht, hs, _⟩ | ⟨pold, _, htr⟩
  · exact Or.inl ⟨ht, hs⟩
  · exact Or.inr ⟨pold, _, _, htr⟩

theorem outsideFees_metadex : OutsideFees State.metadex := ⟨fun _ _ _ _ => rfl⟩

theorem keeps_stripFee {τ : Type} {view : State → τ} (hview : OutsideFees view)
    (pold pnew : CMPMetaDEx) (buyerAmountGot : Int) :
    Keeps view (stripFee pold pnew buyerAmountGot) :=
  Keeps.get.bind fun _ => ((hview.addFee _ _ _).bind fun _ => Keeps.pure _).ite (Keeps.pure _)

/-- The book after a trade is settled. -/
theorem settleTrade_book (price : ℚ) (pold pnew : CMPMetaDEx) (got paid : Int) (s : State) :
    wp (settleTrade price pold pnew got paid)
      (fun t' s' =>
        t'.pnew = { pnew with amountRemaining := pnew.amountRemaining - paid } ∧
        t'.satisfied = decide (pnew.amountRemaining - paid = 0) ∧
        s'.metadex = (s.setMdLevel pnew.desiredProperty price
          (mdReplaceMatched (s.mdLevel pnew.desiredProperty price)
            { pold with amountRemaining := pold.amountRemaining - got })).metadex)
      (fun _ s' => s'.metadex = s.metadex) s := by
  have hbook := outsideFees_metadex
  unfold settleTrade
  rw [wp_bind]
  refine wp_imp ((keeps_stripFee hbook pold pnew got).wp rfl) fun fee s1 h1 => ?_
  rw [wp_bind]
  refine wp_imp ((hbook.assertUpdate _ _ _ _).wp h1) fun _ s2 h2 => ?_
  rw [wp_bind]
  refine wp_imp ((hbook.assertUpdate _ _ _ _).wp h2) fun _ s3 h3 => ?_
  rw [wp_bind]
  refine wp_imp ((hbook.assertUpdate _ _ _ _).wp h3) fun _ s4 h4 => ?_
  rw [wp_bind]
  refine wp_imp ((hbook.assertUpdate _ _ _ _).wp h4) fun _ s5 h5 => ?_
  simp only [recordMatchedTrade, wp_bind, wp_modify, wp_pure, true_and]
  -- the level that is rewritten is the one the trade began with
  simp only [State.setMdLevel, State.mdLevel, State.mdPrices]
  rw [h5]

/-! ## The loop of `x_Trade` -/

/-- The variables of the loop for a new order: only its remaining amount changes, and the buyer is
    satisfied when nothing remains. -/
structure TradeOk (new : CMPMetaDEx) (t : MdTrade) : Prop where
  shape : t.pnew = { new with amountRemaining := t.pnew.amountRemaining }
  remaining_nonneg : 0 ≤ t.pnew.amountRemaining
  remaining_le : t.pnew.amountRemaining ≤ new.amountRemaining
  satisfied : t.satisfied = decide (t.pnew.amountRemaining = 0)

theorem TradeOk.start {new : CMPMetaDEx} (hnew : new.Sound) :
    TradeOk new ⟨new, false, .nothing⟩ := by
  have hpos := hnew.remaining_pos
  refine ⟨rfl, hpos.le, le_rfl, ?_⟩
  rw [eq_comm, decide_eq_false_iff_not]
  exact hpos.ne'

namespace TradeOk

variable {new : CMPMetaDEx} {t : MdTrade} (h : TradeOk new t)
include h

theorem property : t.pnew.property = new.property := by
  rw [h.shape]

theorem desiredProperty : t.pnew.desiredProperty = new.desiredProperty := by
  rw [h.shape]

theorem inversePrice : t.pnew.inversePrice = new.inversePrice := by
  rw [h.shape]
  rfl

theorem unitPrice : t.pnew.unitPrice = new.unitPrice := by
  rw [h.shape]
  rfl

theorem key : t.pnew.key = new.key := by
  rw [h.shape]
  rfl

/-- Unless the buyer is satisfied, the order is one that may go on trading. -/
theorem sound (hnew : new.Sound) (hs : t.satisfied = false) : t.pnew.Sound := by
  have hne : t.pnew.amountRemaining ≠ 0 := by
    rw [h.satisfied, decide_eq_false_iff_not] at hs
    exact hs
  have hpos := lt_of_le_of_ne h.remaining_nonneg (Ne.symm hne)
  have hle := h.remaining_le.trans hnew.remaining_le
  rw [h.shape]
  exact ⟨hnew.forsale_pos, hnew.forsale_le, hnew.desired_pos, hnew.desired_le, hpos, hle⟩

theorem traded {price : ℚ} {k : OrderKey} {s s' : State} {t' : MdTrade} {pold : CMPMetaDEx}
    {got paid : Int} (htr : TradedAt price k t s pold got paid t' s') : TradeOk new t' := by
  have hpaid := htr.fill.paid_pos
  have hpaid' := htr.fill.paid_le
  have hle := h.remaining_le
  have hrem : t'.pnew.amountRemaining = t.pnew.amountRemaining - paid := by rw [htr.pnew]
  refine ⟨?_, by omega, by omega, ?_⟩
  · rw [htr.pnew]
    dsimp only
    rw [h.shape]
  · rw [htr.satisfied, hrem]

end TradeOk

/-- A trade keeps the book in order. -/
theorem TradedAt.bookOk {price : ℚ} {k : OrderKey} {t t' : MdTrade} {s s' : State}
    {pold : CMPMetaDEx} {got paid : Int} (h : TradedAt price k t s pold got paid t' s')
    (hs : MdBookOk s) : MdBookOk s' := by
  refine (MdBookOk.setMdLevel hs fun k' o ho => ?_).congr h.book
  have hold := hs _ _ _ _ h.resting
  have hgot := h.fill.got_pos
  rw [getElem?_mdReplaceMatched] at ho
  split at ho
  · next hkey =>
      split at ho
      · next hrem =>
          cases ho
          have hle := hold.sound.remaining_le
          refine ⟨⟨hold.sound.forsale_pos, hold.sound.forsale_le, hold.sound.desired_pos,
            hold.sound.desired_le, hrem, ?_⟩, hold.property, hold.price, hkey⟩
          show pold.amountRemaining - got ≤ pold.amountForsale
          omega
      · cases ho
  · exact hs _ _ _ _ ho

/-- The book after a trade differs at the place of the trade only. -/
theorem TradedAt.getElem?_mdLevel {price : ℚ} {k : OrderKey} {t t' : MdTrade} {s s' : State}
    {pold : CMPMetaDEx} {got paid : Int} (h : TradedAt price k t s pold got paid t' s')
    (hkey : pold.key = k) (p : PropertyId) (price' : ℚ) (k' : OrderKey) :
    (s'.mdLevel p price')[k']? =
      if t.pnew.desiredProperty = p ∧ price = price' ∧ k = k' then
        if 0 < pold.amountRemaining - got then
          some { pold with amountRemaining := pold.amountRemaining - got }
        else none
      else (s.mdLevel p price')[k']? := by
  rw [mdLevel_congr h.book, mdLevel_setMdLevel]
  by_cases hlevel : t.pnew.desiredProperty = p ∧ price = price'
  · obtain ⟨rfl, rfl⟩ := hlevel
    have hkey' : CMPMetaDEx.key { pold with amountRemaining := pold.amountRemaining - got } = k := hkey
    rw [if_pos ⟨rfl, rfl⟩, getElem?_mdReplaceMatched, hkey']
    by_cases hk : k = k'
    · rw [if_pos hk]
      exact (if_pos ⟨rfl, rfl, hk⟩).symm
    · rw [if_neg hk]
      exact (if_neg fun hc => hk hc.2.2).symm
  · rw [if_neg hlevel, if_neg fun hc => hlevel ⟨hc.1, hc.2.1⟩]

/-- What holds between two visits. -/
structure LoopOk (new : CMPMetaDEx) (t : MdTrade) (s : State) : Prop where
  trade : TradeOk new t
  book : MdBookOk s

theorem VisitEffect.loopOk {new : CMPMetaDEx} {price : ℚ} {k : OrderKey} {t t' : MdTrade}
    {s s' : State} (h : VisitEffect price k t s t' s') (hl : LoopOk new t s) : LoopOk new t' s' := by
  rcases h with ⟨rfl, rfl⟩ | ⟨pold, got, paid, htr⟩
  · exact hl
  · exact ⟨hl.trade.traded htr, htr.bookOk hl.book⟩

section Loop

variable {new : CMPMetaDEx} (hnew : new.Sound) (hapart : new.property ≠ new.desiredProperty)
include hnew hapart

/-- An order that is visited at a good price level crosses the new one. -/
theorem LoopOk.crossing {t : MdTrade} {s : State} (h : LoopOk new t s) {price : ℚ} {k : OrderKey}
    {pold : CMPMetaDEx} (hprice : price ≤ new.inversePrice) (hs : t.satisfied = false)
    (hk : (s.mdLevel t.pnew.desiredProperty price)[k]? = some pold)
    (hwants : pold.desiredProperty = t.pnew.property) :
    Crossing pold t.pnew ∧ Considered price pold t.pnew := by
  have hplace := h.book _ _ _ _ hk
  refine ⟨⟨hplace.sound, h.trade.sound hnew hs, ?_⟩, ⟨hplace.price, hplace.property, hwants, ?_⟩⟩
  · rw [hplace.price, h.trade.inversePrice]
    exact hprice
  · rw [h.trade.property, h.trade.desiredProperty]
    exact hapart

/-- What a visit comes to: it passes over the place, with the reason, or settles the exact trade with
    the order that rests there. -/
theorem visitOffer_rule {t : MdTrade} {s : State} (h : LoopOk new t s) {price : ℚ}
    (hprice : price ≤ new.inversePrice) (k : OrderKey) {Q : MdTrade → State → Prop}
    {E : Halt → State → Prop}
    (hpass : (t.satisfied = false → ∀ pold,
      (s.mdLevel t.pnew.desiredProperty price)[k]? = some pold → PassesOver pold t.pnew) → Q t s)
    (htrade : ∀ pold, t.satisfied = false →
      (s.mdLevel t.pnew.desiredProperty price)[k]? = some pold →
      pold.desiredProperty = t.pnew.property →
      FillOk pold t.pnew (exactBuy pold t.pnew) (exactPay pold (exactBuy pold t.pnew)) →
      wp (settleTrade price pold t.pnew (exactBuy pold t.pnew)
        (exactPay pold (exactBuy pold t.pnew))) Q E s) :
    wp (visitOffer price t k) Q E s := by
  unfold visitOffer
  rw [wp_ite]
  constructor
  · intro hs
    refine (wp_pure _ _ _ _).mpr (hpass fun hs' => ?_)
    rw [hs] at hs'
    cases hs'
  · intro hs
    rw [wp_bind, wp_get]
    cases hk : (s.mdLevel t.pnew.desiredProperty price)[k]? with
    | none =>
        refine (wp_pure _ _ _ _).mpr (hpass fun _ pold hk' => ?_)
        rw [hk] at hk'
        cases hk'
    | some pold =>
        have hreason : PassesOver pold t.pnew → Q t s := fun hover => hpass fun _ pold' hk' => by
          obtain rfl : pold = pold' := Option.some.inj (hk.symm.trans hk')
          exact hover
        dsimp only
        by_cases hwants : pold.desiredProperty = t.pnew.property
        · have hs' : t.satisfied = false := by simpa using hs
          obtain ⟨hcross, hcons⟩ := h.crossing hnew hapart hprice hs' hk hwants
          rw [matchOffer_eq hcross hcons]
          unfold tradeExactly
          dsimp only
          rw [wp_ite]
          constructor
          · rintro (hnothing | hexpensive)
            · exact (wp_pure _ _ _ _).mpr (hreason (.nothing hnothing))
            · exact (wp_pure _ _ _ _).mpr (hreason (.tooExpensive hexpensive))
          · intro hfill
            rw [not_or, not_lt] at hfill
            exact htrade pold hs' hk hwants (hcross.fillOk hfill.1 hfill.2)
        · -- an order for something else is passed over
          have hplace := h.book _ _ _ _ hk
          unfold matchOffer
          dsimp only
          rw [assertThat_of hplace.price, pure_bind, if_pos hwants]
          exact (wp_pure _ _ _ _).mpr (hreason (.other hwants))

theorem visitOffer_outcome {t : MdTrade} {s : State} (h : LoopOk new t s) {price : ℚ}
    (hprice : price ≤ new.inversePrice) (k : OrderKey) :
    wp (visitOffer price t k) (VisitOutcome price k t s) (fun _ s' => s'.metadex = s.metadex) s := by
  refine visitOffer_rule hnew hapart h hprice k (fun hwhy => Or.inl ⟨rfl, rfl, hwhy⟩)
    fun pold _ hk hwants hfill => ?_
  refine wp_imp (settleTrade_book price pold t.pnew _ _ s) fun t' s' hsettled => ?_
  obtain ⟨hpnew, hsatisfied, hbook⟩ := hsettled
  exact Or.inr ⟨pold, hwants, hk, hfill, hpnew, hsatisfied, hbook⟩

theorem visitOffer_effect {t : MdTrade} {s : State} (h : LoopOk new t s) {price : ℚ}
    (hprice : price ≤ new.inversePrice) (k : OrderKey) :
    wp (visitOffer price t k) (VisitEffect price k t s) (fun _ s' => s'.metadex = s.metadex) s :=
  wp_imp (visitOffer_outcome hnew hapart h hprice k) fun _ _ ho => ho.effect

theorem visitLevel_loopOk {t : MdTrade} {s : State} (h : LoopOk new t s) (price : ℚ) :
    wp (visitLevel t price) (LoopOk new) (fun _ s' => MdBookOk s') s := by
  unfold visitLevel
  rw [wp_ite]
  refine ⟨fun _ => (wp_pure _ _ _ _).mpr h, fun hgood => ?_⟩
  rw [not_or, not_lt] at hgood
  have hprice : price ≤ new.inversePrice := h.trade.inversePrice ▸ hgood.2
  rw [wp_bind, wp_get]
  refine wp_foldlM (I := LoopOk new) (fun k _ t s hl => ?_) h
  exact wp_mono (visitOffer_effect hnew hapart hl hprice k) (fun _ _ he => he.loopOk hl)
    fun _ _ he => hl.book.congr he

/-- The whole loop keeps the book in order, and of the new order leaves what was not traded. -/
theorem xTradeMetaDEx_loopOk {s : State} (hs : MdBookOk s) :
    wp (xTradeMetaDEx new) (LoopOk new) (fun _ s' => MdBookOk s') s := by
  unfold xTradeMetaDEx
  rw [wp_bind, wp_get]
  exact wp_foldlM (I := LoopOk new) (fun price _ _ _ hl => visitLevel_loopOk hnew hapart hl price)
    ⟨TradeOk.start hnew, hs⟩

end Loop

/-! ## The operations of the market -/

theorem metaDExAdd_bookOk {new : CMPMetaDEx} (hnew : new.Sound)
    (hapart : new.property ≠ new.desiredProperty) {s : State} (hs : MdBookOk s) :
    wp (metaDExAdd new) (fun _ s' => MdBookOk s') (fun _ _ => True) s := by
  unfold metaDExAdd
  rw [wp_ite]
  refine ⟨fun _ => (wp_pure _ _ _ _).mpr hs, fun _ => ?_⟩
  rw [wp_bind]
  refine wp_mono (xTradeMetaDEx_loopOk hnew hapart hs) (fun t s1 hl => ?_) fun _ _ _ => trivial
  rw [wp_ite]
  refine ⟨fun hrem => ?_, fun _ => (wp_pure _ _ _ _).mpr hl.book⟩
  -- the remainder is a sound order, and goes where its own fields say
  have hplace : MdPlaceOk t.pnew.property t.pnew.unitPrice t.pnew.key t.pnew := by
    refine ⟨hl.trade.sound hnew ?_, rfl, rfl, rfl⟩
    rw [hl.trade.satisfied, decide_eq_false_iff_not]
    exact hrem.ne'
  unfold metaDExInsert
  simp only [wp_bind, wp_get, wp_ite, wp_pure, wp_set]
  refine ⟨fun _ => ⟨fun h => by simp at h, fun _ => hl.book⟩, fun _ => ⟨fun _ => ?_, by simp⟩⟩
  have hinserted : MdBookOk (s1.setMdLevel t.pnew.property t.pnew.unitPrice
      ((s1.mdLevel t.pnew.property t.pnew.unitPrice).insert t.pnew.key t.pnew)) := by
    refine MdBookOk.setMdLevel hl.book fun k o ho => ?_
    rw [ExtTreeMap.getElem?_insert] at ho
    split at ho
    · next hc =>
        cases ho
        rw [← Std.LawfulEqCmp.eq_of_compare hc]
        exact hplace
    · exact hl.book _ _ _ _ ho
  unfold reserveRemaining
  simp only [wp_bind]
  refine wp_mono ((outsideFees_metadex.assertUpdate _ _ _ _).wp rfl) (fun _ s2 h2 => ?_)
    fun _ _ _ => trivial
  refine wp_mono ((outsideFees_metadex.assertUpdate _ _ _ _).wp h2) (fun _ s3 h3 => ?_)
    fun _ _ _ => trivial
  exact hinserted.congr h3

theorem removeOrder_bookOk (cancel : Option (Txid × Nat)) (e : MdPlaced) {s : State}
    (hs : MdBookOk s) : wp (removeOrder cancel e) (fun _ s' => MdBookOk s') (fun _ _ => True) s := by
  have herased : ∀ s' : State, MdBookOk s' →
      MdBookOk (s'.setMdLevel e.property e.price ((s'.mdLevel e.property e.price).erase e.key)) := by
    intro s' hs'
    refine MdBookOk.setMdLevel hs' fun k o ho => ?_
    rw [ExtTreeMap.getElem?_erase] at ho
    split at ho
    · cases ho
    · exact hs' _ _ _ _ ho
  unfold removeOrder
  rw [wp_bind]
  refine wp_mono ((outsideFees_metadex.assertUpdate _ _ _ _).wp rfl) (fun _ s1 h1 => ?_)
    fun _ _ _ => trivial
  rw [wp_bind]
  refine wp_mono ((outsideFees_metadex.assertUpdate _ _ _ _).wp h1) (fun _ s2 h2 => ?_)
    fun _ _ _ => trivial
  cases cancel with
  | none =>
      simp only [wp_modify]
      exact herased s2 (hs.congr h2)
  | some c =>
      simp only [recordMetaDExCancelTX, wp_bind, wp_modify]
      exact herased _ ((hs.congr h2).congr rfl)

theorem cancelOrders_bookOk (txid : Txid) (block : Nat) (rc : Int) (sel : MdPlaced → Bool)
    {s : State} (hs : MdBookOk s) :
    wp (cancelOrders txid block rc sel) (fun _ s' => MdBookOk s') (fun _ _ => True) s := by
  unfold cancelOrders
  simp only [wp_bind, wp_get, wp_pure]
  exact wp_forM (fun e _ _ hs' => removeOrder_bookOk _ e hs') hs

/-- What may happen to the market: a transaction, or one of the shutdowns of a deactivation. -/
inductive MetaDExOp
  | packet (tx : CMPTransaction)
  | shutdown
  | shutdownAllPair

def MetaDExOp.run : MetaDExOp → ExecM Int
  | packet tx => interpretMetaDExPacket tx
  | shutdown => metaDExShutdown
  | shutdownAllPair => metaDExShutdownAllPair

/-- An accepted trade makes a sound order between two different properties. -/
theorem metaDExOrder_sound {s : State} {tx : CMPTransaction} (h : metaDExTradeError s tx = none) :
    tx.metaDExOrder.Sound ∧ tx.metaDExOrder.property ≠ tx.metaDExOrder.desiredProperty := by
  have hacc := metaDExTradeError_eq_none h
  have hforsale := hacc.forsale
  have hdesired := hacc.desired
  unfold maxInt8Bytes at hforsale hdesired
  have hF : tx.metaDExOrder.amountForsale = tx.nNewValue.toNat := by
    simp only [CMPTransaction.metaDExOrder, newMetaDExOrder]
    exact toInt64_natCast (by omega)
  have hD : tx.metaDExOrder.amountDesired = tx.desiredValue.toNat := by
    simp only [CMPTransaction.metaDExOrder, newMetaDExOrder]
    exact toInt64_natCast (by omega)
  have hR : tx.metaDExOrder.amountRemaining = tx.metaDExOrder.amountForsale := rfl
  refine ⟨⟨?_, ?_, ?_, ?_, ?_, hR.le⟩, ?_⟩
  · omega
  · unfold maxInt64
    omega
  · omega
  · unfold maxInt64
    omega
  · omega
  · intro heq
    exact hacc.properties (UInt32.toNat_inj.mp heq)

theorem metaDExPacket_bookOk (tx : CMPTransaction) {s : State} (hs : MdBookOk s) :
    wp (interpretMetaDExPacket tx) (fun _ s' => MdBookOk s') (fun _ _ => True) s := by
  unfold interpretMetaDExPacket
  rw [wp_bind, wp_get]
  simp only [wp_ite, wp_pure]
  refine ⟨fun _ => hs, fun _ => ⟨fun _ => ?_, fun _ => ⟨fun _ => ?_, fun _ => ⟨fun _ => ?_,
    fun _ => ⟨fun _ => ?_, fun _ => hs⟩⟩⟩⟩⟩
  · unfold logicMathMetaDExTrade
    rw [wp_bind, wp_get]
    cases herr : metaDExTradeError s tx with
    | some error => exact (wp_pure _ _ _ _).mpr hs
    | none =>
        obtain ⟨hsound, hapart⟩ := metaDExOrder_sound herr
        simp only [recordNewTrade, wp_bind, wp_modify]
        exact metaDExAdd_bookOk hsound hapart (hs.congr rfl)
  · unfold logicMathMetaDExCancelPrice metaDExCancelAtPrice
    rw [wp_bind, wp_get]
    cases (metaDExPairError s tx).or (metaDExAmountError tx) with
    | some error => exact (wp_pure _ _ _ _).mpr hs
    | none =>
        dsimp only
        rw [wp_bind, wp_get, wp_ite]
        exact ⟨fun _ => cancelOrders_bookOk _ _ _ _ hs, fun _ => (wp_pure _ _ _ _).mpr hs⟩
  · unfold logicMathMetaDExCancelPair metaDExCancelAllForPair
    rw [wp_bind, wp_get]
    cases metaDExPairError s tx with
    | some error => exact (wp_pure _ _ _ _).mpr hs
    | none =>
        dsimp only
        rw [wp_bind, wp_get, wp_ite]
        exact ⟨fun _ => cancelOrders_bookOk _ _ _ _ hs, fun _ => (wp_pure _ _ _ _).mpr hs⟩
  · unfold logicMathMetaDExCancelEcosystem metaDExCancelEverything
    simp only [wp_bind, wp_get, wp_ite, wp_pure]
    exact ⟨fun _ => hs, fun _ => ⟨fun _ => hs, fun _ => cancelOrders_bookOk _ _ _ _ hs⟩⟩

/-- **THE BOOK STAYS IN ORDER** over every operation. -/
theorem MetaDExOp.run_bookOk (op : MetaDExOp) {s : State} (hs : MdBookOk s) :
    wp op.run (fun _ s' => MdBookOk s') (fun _ _ => True) s := by
  cases op with
  | packet tx => exact metaDExPacket_bookOk tx hs
  | shutdown =>
      show wp metaDExShutdown _ _ s
      unfold metaDExShutdown
      simp only [wp_bind, wp_get, wp_pure]
      exact wp_forM (fun e _ _ hs' => removeOrder_bookOk _ e hs') hs
  | shutdownAllPair =>
      show wp metaDExShutdownAllPair _ _ s
      unfold metaDExShutdownAllPair
      simp only [wp_bind, wp_get, wp_pure]
      refine wp_forM (fun e _ s' hs' => ?_) hs
      rw [wp_ite]
      exact ⟨fun _ => removeOrder_bookOk _ e hs', fun _ => (wp_throw _ _ _ _).mpr trivial⟩

/-! ## The fills of a history -/

/-- The iterator of `x_Trade` at a place of a price level, with the variables of the loop and the
    state it finds. -/
structure MdVisit where
  price : ℚ
  key : OrderKey
  trade : MdTrade
  state : State

/-- The resting order that a visit looks at. -/
def MdVisit.offer? (v : MdVisit) : Option CMPMetaDEx :=
  if v.trade.satisfied then none
  else (v.state.mdLevel v.trade.pnew.desiredProperty v.price)[v.key]?

/-- The visits of one price level. -/
def levelVisits (t : MdTrade) (price : ℚ) (s : State) : List MdVisit :=
  if t.satisfied ∨ t.pnew.inversePrice < price then []
  else (visits (visitOffer price)
    ((s.mdLevel t.pnew.desiredProperty price).toList.map Prod.fst) t s).map
      fun v => ⟨price, v.1, v.2.1, v.2.2⟩

/-- The visits of `x_Trade`, including one that halts. -/
def xTradeVisits (pnew : CMPMetaDEx) (s : State) : List MdVisit :=
  (visits visitLevel ((s.mdPrices pnew.desiredProperty).toList.map Prod.fst)
    ⟨pnew, false, .nothing⟩ s).flatMap fun v => levelVisits v.2.1 v.1 v.2.2

/-- The visits of an operation: only a trade that passes its checks matches anything. -/
def MetaDExOp.visits : MetaDExOp → State → List MdVisit
  | packet tx, s =>
      if s.isAddressFrozen tx.sender tx.property.toNat ∨ tx.type ≠ 25 ∨
          (metaDExTradeError s tx).isSome ∨ tx.metaDExOrder.unitPrice ≤ 0 then []
      else xTradeVisits tx.metaDExOrder (after (recordNewTrade tx.txid tx.sender tx.property.toNat
        tx.desiredProperty.toNat tx.block tx.txIdx) s)
  | shutdown, _ => []
  | shutdownAllPair, _ => []

/-- A fill: what the resting order gave, and what it was paid. -/
structure MdFill where
  maker : CMPMetaDEx
  taker : CMPMetaDEx
  got : Int
  paid : Int

/-- What is left of the order at a place; nothing if there is none. -/
def State.remainingAt (s : State) (p : PropertyId) (price : ℚ) (k : OrderKey) : Int :=
  ((s.mdLevel p price)[k]?).elim 0 fun o => o.amountRemaining

/-- The fill of a visit, read off what it takes from the remaining amounts of both orders; zero for
    zero if they do not trade. -/
def MdVisit.fill? (v : MdVisit) : Option MdFill :=
  match v.offer?, visitOffer v.price v.trade v.key v.state with
  | some pold, .ok t' s' => some {
      maker := pold
      taker := v.trade.pnew
      got := pold.amountRemaining -
        s'.remainingAt v.trade.pnew.desiredProperty v.price v.key
      paid := v.trade.pnew.amountRemaining - t'.pnew.amountRemaining }
  | _, _ => none

def MetaDExOp.fills (op : MetaDExOp) (s : State) : List MdFill := (op.visits s).filterMap MdVisit.fill?

/-- A node with the fills of its market so far. -/
structure MdWorld where
  state : State
  fills : List MdFill

/-- The worlds a history leads to. Everything else that happens to a node leaves the book alone. -/
inductive MdReaches : MdWorld → Prop
  | start {s : State} (h : s.metadex = ∅) : MdReaches ⟨s, []⟩
  | step {w : MdWorld} (op : MetaDExOp) {rc : Int} {s' : State} (h : MdReaches w)
      (hrun : op.run w.state = .ok rc s') : MdReaches ⟨s', w.fills ++ op.fills w.state⟩
  | other {w : MdWorld} {s' : State} (h : MdReaches w) (hbook : s'.metadex = w.state.metadex) :
      MdReaches ⟨s', w.fills⟩

theorem MdReaches.bookOk {w : MdWorld} (h : MdReaches w) : MdBookOk w.state := by
  induction h with
  | start h => exact mdBookOk_empty h
  | step op h hrun ih => exact wp_ok (op.run_bookOk ih) hrun
  | other h hbook ih => exact ih.congr hbook

/-- A visit in a history: its state is between two visits, its price level a good one. -/
structure VisitOk (new : CMPMetaDEx) (v : MdVisit) : Prop where
  sound : new.Sound
  apart : new.property ≠ new.desiredProperty
  loop : LoopOk new v.trade v.state
  price : v.price ≤ new.inversePrice

theorem levelVisits_ok {new : CMPMetaDEx} (hnew : new.Sound)
    (hapart : new.property ≠ new.desiredProperty) {t : MdTrade} {s : State} (h : LoopOk new t s)
    (price : ℚ) : ∀ v ∈ levelVisits t price s, VisitOk new v := by
  intro v hv
  unfold levelVisits at hv
  split at hv
  · cases hv
  · next hgood =>
      rw [not_or, not_lt, h.trade.inversePrice] at hgood
      obtain ⟨x, hx, rfl⟩ := List.mem_map.mp hv
      have hstep : ∀ k ∈ (s.mdLevel t.pnew.desiredProperty price).toList.map Prod.fst, ∀ t s,
          LoopOk new t s → wp (visitOffer price t k) (LoopOk new) (fun _ _ => True) s :=
        fun k _ t s hl => wp_mono (visitOffer_effect hnew hapart hl hgood.2 k)
          (fun _ _ he => he.loopOk hl) fun _ _ _ => trivial
      exact ⟨hnew, hapart, (forall_visits hstep h x hx).2, hgood.2⟩

theorem xTradeVisits_ok {new : CMPMetaDEx} (hnew : new.Sound)
    (hapart : new.property ≠ new.desiredProperty) {s : State} (hs : MdBookOk s) :
    ∀ v ∈ xTradeVisits new s, VisitOk new v := by
  intro v hv
  unfold xTradeVisits at hv
  obtain ⟨x, hx, hv⟩ := List.mem_flatMap.mp hv
  have hlevel := forall_visits (I := LoopOk new) (fun price _ t s hl =>
    wp_mono (visitLevel_loopOk hnew hapart hl price) (fun _ _ h => h) fun _ _ _ => trivial)
    ⟨TradeOk.start hnew, hs⟩ x hx
  exact levelVisits_ok hnew hapart hlevel.2 x.1 v hv

theorem MetaDExOp.visits_ok (op : MetaDExOp) {s : State} (hs : MdBookOk s) :
    ∀ v ∈ op.visits s, ∃ new, VisitOk new v := by
  intro v hv
  cases op with
  | packet tx =>
      rw [MetaDExOp.visits] at hv
      split at hv
      · cases hv
      · next hacc =>
          have herr : metaDExTradeError s tx = none := by
            cases h : metaDExTradeError s tx with
            | none => rfl
            | some e => exact absurd (Or.inr (Or.inr (Or.inl (by simp [h])))) hacc
          obtain ⟨hnew, hapart⟩ := metaDExOrder_sound herr
          have hrecorded : MdBookOk (after (recordNewTrade tx.txid tx.sender tx.property.toNat
              tx.desiredProperty.toNat tx.block tx.txIdx) s) := hs.congr rfl
          exact ⟨_, xTradeVisits_ok hnew hapart hrecorded v hv⟩
  | shutdown => cases hv
  | shutdownAllPair => cases hv

/-! ## No order trades worse than its limit -/

/-- A visit at which both amounts are exact and both orders can deliver. -/
structure ExactVisit (price : ℚ) (t : MdTrade) (pold : CMPMetaDEx) : Prop where
  run : matchOffer price t pold = tradeExactly price t pold
  got_nonneg : 0 ≤ exactBuy pold t.pnew
  got_le : exactBuy pold t.pnew ≤ pold.amountRemaining
  paid_nonneg : 0 ≤ exactPay pold (exactBuy pold t.pnew)
  paid_le : exactPay pold (exactBuy pold t.pnew) ≤ t.pnew.amountRemaining

theorem Crossing.exactVisit {price : ℚ} {t : MdTrade} {pold : CMPMetaDEx}
    (h : Crossing pold t.pnew) (hc : Considered price pold t.pnew) : ExactVisit price t pold :=
  ⟨matchOffer_eq h hc, h.exactBuy_nonneg, Crossing.exactBuy_le, h.exactPay_nonneg, h.exactPay_le⟩

/-- A visit as the code asserts it: an order that wants something else is passed over, any other
    crosses the new one. -/
structure VisitChecked (v : MdVisit) (pold : CMPMetaDEx) : Prop where
  skipped : pold.desiredProperty ≠ v.trade.pnew.property →
    matchOffer v.price v.trade pold = pure v.trade
  matched : pold.desiredProperty = v.trade.pnew.property →
    Crossing pold v.trade.pnew ∧ Considered v.price pold v.trade.pnew

/-- Both orders of a fill get the price of their limit at least. -/
structure MdFill.Fair (f : MdFill) : Prop where
  maker : f.got * f.maker.amountDesired ≤ f.paid * f.maker.amountForsale
  taker : f.paid * f.taker.amountDesired ≤ f.got * f.taker.amountForsale

/-- The same order, whatever is left of it. -/
def CMPMetaDEx.SameOrder (a b : CMPMetaDEx) : Prop := { a with amountRemaining := b.amountRemaining } = b

instance (a b : CMPMetaDEx) : Decidable (a.SameOrder b) :=
  inferInstanceAs (Decidable ({ a with amountRemaining := b.amountRemaining } = b))

/-- What an order paid in a fill: the taker its payment, the maker what it gave. -/
def MdFill.paidBy (o : CMPMetaDEx) (f : MdFill) : Int :=
  (if o.SameOrder f.taker then f.paid else 0) + if o.SameOrder f.maker then f.got else 0

/-- What an order received in a fill, before the fee. -/
def MdFill.receivedBy (o : CMPMetaDEx) (f : MdFill) : Int :=
  (if o.SameOrder f.taker then f.got else 0) + if o.SameOrder f.maker then f.paid else 0

def totalPaid (o : CMPMetaDEx) (fills : List MdFill) : Int := (fills.map (MdFill.paidBy o)).sum

def totalReceived (o : CMPMetaDEx) (fills : List MdFill) : Int :=
  (fills.map (MdFill.receivedBy o)).sum

theorem MdFill.Fair.limit {f : MdFill} (h : f.Fair) (o : CMPMetaDEx) :
    f.paidBy o * o.amountDesired ≤ f.receivedBy o * o.amountForsale := by
  have htaker : o.SameOrder f.taker →
      o.amountDesired = f.taker.amountDesired ∧ o.amountForsale = f.taker.amountForsale := by
    intro hsame
    rw [← hsame]
    exact ⟨rfl, rfl⟩
  have hmaker : o.SameOrder f.maker →
      o.amountDesired = f.maker.amountDesired ∧ o.amountForsale = f.maker.amountForsale := by
    intro hsame
    rw [← hsame]
    exact ⟨rfl, rfl⟩
  have h1 : (if o.SameOrder f.taker then f.paid else 0) * o.amountDesired ≤
      (if o.SameOrder f.taker then f.got else 0) * o.amountForsale := by
    split
    · next hsame =>
        rw [(htaker hsame).1, (htaker hsame).2]
        exact h.taker
    · simp
  have h2 : (if o.SameOrder f.maker then f.got else 0) * o.amountDesired ≤
      (if o.SameOrder f.maker then f.paid else 0) * o.amountForsale := by
    split
    · next hsame =>
        rw [(hmaker hsame).1, (hmaker hsame).2]
        exact h.maker
    · simp
  unfold MdFill.paidBy MdFill.receivedBy
  rw [add_mul, add_mul]
  exact add_le_add h1 h2

/-- A limit that every fill keeps, their sum keeps. -/
theorem limit_of_fair {fills : List MdFill} (h : ∀ f ∈ fills, f.Fair) (o : CMPMetaDEx) :
    totalPaid o fills * o.amountDesired ≤ totalReceived o fills * o.amountForsale := by
  induction fills with
  | nil => simp [totalPaid, totalReceived]
  | cons f rest ih =>
      have hfirst := (h f List.mem_cons_self).limit o
      have hrest := ih fun g hg => h g (List.mem_cons_of_mem f hg)
      unfold totalPaid totalReceived at hrest ⊢
      rw [List.map_cons, List.sum_cons, List.map_cons, List.sum_cons, add_mul, add_mul]
      exact add_le_add hfirst hrest

/-- What is left at the place of a trade. -/
theorem TradedAt.remainingAt {price : ℚ} {k : OrderKey} {t t' : MdTrade} {s s' : State}
    {pold : CMPMetaDEx} {got paid : Int} (h : TradedAt price k t s pold got paid t' s')
    (hkey : pold.key = k) :
    s'.remainingAt t.pnew.desiredProperty price k = pold.amountRemaining - got := by
  have hle := h.fill.got_le
  unfold State.remainingAt
  rw [h.getElem?_mdLevel hkey, if_pos ⟨rfl, rfl, rfl⟩]
  split
  · rfl
  · show 0 = pold.amountRemaining - got
    omega

/-- A visit looks at the order at its place. -/
theorem MdVisit.offer?_eq {v : MdVisit} {pold : CMPMetaDEx} (h : v.offer? = some pold) :
    (v.state.mdLevel v.trade.pnew.desiredProperty v.price)[v.key]? = some pold := by
  unfold MdVisit.offer? at h
  split at h
  · cases h
  · exact h

/-- The fill of a visit that changes nothing. -/
theorem MdVisit.fill?_of_pass {v : MdVisit} {pold : CMPMetaDEx} (hoffer : v.offer? = some pold)
    (hrun : visitOffer v.price v.trade v.key v.state = .ok v.trade v.state) :
    v.fill? = some ⟨pold, v.trade.pnew, 0, 0⟩ := by
  have hrem : v.state.remainingAt v.trade.pnew.desiredProperty v.price v.key =
      pold.amountRemaining := by
    unfold State.remainingAt
    rw [MdVisit.offer?_eq hoffer]
    rfl
  unfold MdVisit.fill?
  rw [hoffer, hrun]
  dsimp only
  rw [hrem, sub_self, sub_self]

/-- The fill of a visit that trades. -/
theorem MdVisit.fill?_of_traded {v : MdVisit} {pold : CMPMetaDEx} (hoffer : v.offer? = some pold)
    (hkey : pold.key = v.key) {got paid : Int} {t' : MdTrade} {s' : State}
    (hrun : visitOffer v.price v.trade v.key v.state = .ok t' s')
    (htr : TradedAt v.price v.key v.trade v.state pold got paid t' s') :
    v.fill? = some ⟨pold, v.trade.pnew, got, paid⟩ := by
  have hgot : pold.amountRemaining - s'.remainingAt v.trade.pnew.desiredProperty v.price v.key =
      got := by
    rw [htr.remainingAt hkey]
    omega
  have hpaid : v.trade.pnew.amountRemaining - t'.pnew.amountRemaining = paid := by
    rw [htr.pnew]
    dsimp only
    omega
  unfold MdVisit.fill?
  rw [hoffer, hrun]
  dsimp only
  rw [hgot, hpaid]

/-- The fill of a visit is fair. -/
theorem VisitOk.fair {new : CMPMetaDEx} {v : MdVisit} (h : VisitOk new v) {f : MdFill}
    (hf : v.fill? = some f) : f.Fair := by
  cases hoffer : v.offer? with
  | none =>
      unfold MdVisit.fill? at hf
      rw [hoffer] at hf
      cases hf
  | some pold =>
      have hat := MdVisit.offer?_eq hoffer
      cases hrun : visitOffer v.price v.trade v.key v.state with
      | error e s' =>
          unfold MdVisit.fill? at hf
          rw [hoffer, hrun] at hf
          cases hf
      | ok t' s' =>
          have heffect := wp_ok (visitOffer_effect h.sound h.apart h.loop h.price v.key) hrun
          rcases heffect with ⟨rfl, rfl⟩ | ⟨pold', got, paid, htr⟩
          · -- nothing moved
            rw [MdVisit.fill?_of_pass hoffer hrun] at hf
            cases hf
            exact ⟨by simp, by simp⟩
          · have heq : pold' = pold := Option.some.inj (htr.resting.symm.trans hat)
            subst heq
            rw [MdVisit.fill?_of_traded hoffer (h.loop.book _ _ _ _ hat).key hrun htr] at hf
            cases hf
            exact ⟨htr.fill.maker, htr.fill.taker⟩

theorem VisitOk.checked {new : CMPMetaDEx} {v : MdVisit} (h : VisitOk new v) {pold : CMPMetaDEx}
    (hoffer : v.offer? = some pold) : VisitChecked v pold := by
  unfold MdVisit.offer? at hoffer
  split at hoffer
  · cases hoffer
  · next hs =>
      have hs' : v.trade.satisfied = false := by simpa using hs
      have hplace := h.loop.book _ _ _ _ hoffer
      refine ⟨fun hwants => ?_, fun hwants => ?_⟩
      · unfold matchOffer
        dsimp only
        rw [assertThat_of hplace.price, pure_bind, if_pos hwants]
      · exact h.loop.crossing h.sound h.apart h.price hs' hoffer hwants

theorem MdReaches.fair {w : MdWorld} (h : MdReaches w) : ∀ f ∈ w.fills, f.Fair := by
  induction h with
  | start h =>
      intro f hf
      cases hf
  | step op h hrun ih =>
      intro f hf
      rcases List.mem_append.mp hf with hf | hf
      · exact ih f hf
      · obtain ⟨v, hv, hfill⟩ := List.mem_filterMap.mp hf
        obtain ⟨new, hok⟩ := op.visits_ok h.bookOk v hv
        exact hok.fair hfill
  | other h hbook ih => exact ih

/-- Trader `A` also holds 100 of property 4. -/
def tokenMarket : State :=
  { fundedState.withTally (TallyMap.update fundedLedger traderA 4 100 .balance).2 with
    sps := { CMPSPInfo.init with nextSPID := 5 } }

/-- `A` sells 10 of property 4 for 20 of property 1. -/
def saleTx : CMPTransaction :=
  { txid := 1, block := 10, txIdx := 1, sender := traderA, type := 25, property := 4,
    nValue := 10, nNewValue := 10, desiredProperty := 1, desiredValue := 20 }

/-- `B` offers 7 of property 1 for 3 of property 4. -/
def bidTx : CMPTransaction :=
  { txid := 2, block := 11, txIdx := 1, sender := traderB, type := 25, property := 1,
    nValue := 7, nNewValue := 7, desiredProperty := 4, desiredValue := 3 }

/-- The sale, before the bid. -/
def saleWorld : MdWorld :=
  ⟨after (MetaDExOp.packet saleTx).run tokenMarket, (MetaDExOp.packet saleTx).fills tokenMarket⟩

set_option maxRecDepth 4000 in
theorem saleWorld_reached : MdReaches saleWorld :=
  .step (.packet saleTx) (.start (s := tokenMarket) rfl)
    (eq_ok_of_value (a := 0) (by decide +kernel))

end OmniCore
