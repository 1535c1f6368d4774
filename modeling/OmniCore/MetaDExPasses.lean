import OmniCore.MetaDExLoop

/-! # MetaDExPasses — what a second pass of `x_Trade` would find

    `x_Trade` goes through the good price levels once. An order it passes over because
    nothing of it can be bought stays out of reach while the new order shrinks. An order
    passed over as too expensive stays too expensive as well, unless the price was that of
    its whole rest: rounding up the payment of a rest may cross the limit, where buying
    less of it, later, does not. So a second pass can only begin with an order that was
    partially filled before the first one. -/

namespace OmniCore

open Std (ExtTreeMap)
open Machine TextRec MapSum Exec

/-! ## Remaining amounts -/

/-- The new order when `n` of it remain. -/
def CMPMetaDEx.withRemaining (o : CMPMetaDEx) (n : Int) : CMPMetaDEx := { o with amountRemaining := n }

/-- The purchase with `n` tokens at hand would cost more per token than the limit of the new
    order. -/
def TooExpensive (new o : CMPMetaDEx) (n : Int) : Prop :=
  new.inversePrice < (exactPay o (exactBuy o (new.withRemaining n)) : ℚ) /
    exactBuy o (new.withRemaining n)

/-- An order was passed over as a whole: it was partially filled already, the new order had enough to
    buy all that was left of it, and the payment for that, rounded up, exceeded the limit. -/
structure PassedOver (new o : CMPMetaDEx) : Prop where
  started : o.amountRemaining < o.amountForsale
  payable : o.amountRemaining * o.amountDesired ≤ new.amountRemaining * o.amountForsale
  tooExpensive : new.inversePrice < (exactPay o o.amountRemaining : ℚ) / o.amountRemaining

instance (new o : CMPMetaDEx) : Decidable (PassedOver new o) :=
  decidable_of_iff (o.amountRemaining < o.amountForsale ∧
      o.amountRemaining * o.amountDesired ≤ new.amountRemaining * o.amountForsale ∧
      new.inversePrice < (exactPay o o.amountRemaining : ℚ) / o.amountRemaining)
    ⟨fun ⟨h1, h2, h3⟩ => ⟨h1, h2, h3⟩, fun ⟨h1, h2, h3⟩ => ⟨h1, h2, h3⟩⟩

/-! ## An order that is passed over stays out of reach -/

section Reach

variable {new o : CMPMetaDEx}

theorem CMPMetaDEx.Sound.unitPrice_pos (h : o.Sound) : 0 < o.unitPrice := by
  have hD : (0 : ℚ) < o.amountDesired := by exact_mod_cast h.desired_pos
  have hF : (0 : ℚ) < o.amountForsale := by exact_mod_cast h.forsale_pos
  exact div_pos hD hF

/-- The comparison of the effective price, over the integers. -/
theorem inversePrice_lt_div_iff (hnew : new.Sound) {got paid : Int} (hgot : 0 < got) :
    new.inversePrice < (paid : ℚ) / got ↔
      got * new.amountForsale < paid * new.amountDesired := by
  have hD : (0 : ℚ) < new.amountDesired := by exact_mod_cast hnew.desired_pos
  have hG : (0 : ℚ) < got := by exact_mod_cast hgot
  unfold CMPMetaDEx.inversePrice
  rw [div_lt_div_iff₀ hD hG, mul_comm (new.amountForsale : ℚ)]
  exact_mod_cast Iff.rfl

/-- Nothing can be bought with an amount that does not pay for one token. -/
theorem exactBuy_eq_zero_iff (ho : o.Sound) {n : Int} (hn : 0 ≤ n) :
    exactBuy o (new.withRemaining n) = 0 ↔ n * o.amountForsale < o.amountDesired := by
  have hrem := ho.remaining_pos
  have hdiv : 0 ≤ n * o.amountForsale / o.amountDesired :=
    Int.ediv_nonneg (mul_nonneg hn ho.forsale_pos.le) ho.desired_pos.le
  have hone : n * o.amountForsale / o.amountDesired < 1 ↔ n * o.amountForsale < o.amountDesired := by
    rw [Int.ediv_lt_iff_lt_mul ho.desired_pos, one_mul]
  show min (n * o.amountForsale / o.amountDesired) o.amountRemaining = 0 ↔ _
  rw [← hone]
  omega

/-- **AN EXPENSIVE PURCHASE STAYS EXPENSIVE**, unless it is that of the whole rest: let `n` be at hand,
    and `y` be bought for `x` elsewhere, no cheaper than the price of the order and within the
    limit. If with what is left the order is in reach, it was in reach before. -/
theorem purchase_affordable {F D f d n x y b : Int} (hF : 0 < F) (hD : 0 < D)
    (hd : 0 < d) (hx : x ≤ n) (hcross : D * d ≤ f * F) (hmaker : y * D ≤ x * F) (htaker : x * d ≤ y * f)
    (hb : b = n * F / D) {pay pay' : Int}
    (hpay : ∀ m, pay ≤ m ↔ b * D ≤ m * F)
    (hpay' : (n - x) * F / D * D ≤ pay' * F)
    (hlater : pay' * d ≤ (n - x) * F / D * f) : pay * d ≤ b * f := by
  have hf : 0 < f := by
    by_contra hneg
    have h1 : f * F ≤ 0 := mul_nonpos_of_nonpos_of_nonneg (not_lt.mp hneg) hF.le
    have h2 := mul_pos hD hd
    omega
  obtain ⟨b', hb'⟩ : ∃ b', (n - x) * F / D = b' := ⟨_, rfl⟩
  rw [hb'] at hpay' hlater
  have hfloor : b * D ≤ n * F := by
    rw [hb]
    exact Int.ediv_mul_le _ hD.ne'
  have hceil' : (n - x) * F < (b' + 1) * D := by
    rw [← hb']
    exact Int.lt_ediv_add_one_mul_self _ hD
  -- the purchases made later fit into the one that was passed over
  have hsum : b' + y ≤ b := by
    rw [hb, Int.le_ediv_iff_mul_le hD, add_mul]
    have h1 : b' * D ≤ (n - x) * F := by
      rw [← hb']
      exact Int.ediv_mul_le _ hD.ne'
    rw [sub_mul] at h1
    linarith
  rcases eq_or_lt_of_le hsum with heq | hlt
  · -- exactly: so do the payments
    have hcover : b * D ≤ (pay' + x) * F := by
      rw [← heq, add_mul, add_mul]
      linarith
    calc pay * d ≤ (pay' + x) * d := Int.mul_le_mul_of_nonneg_right ((hpay _).mpr hcover) hd.le
      _ = pay' * d + x * d := add_mul _ _ _
      _ ≤ b' * f + y * f := add_le_add hlater htaker
      _ = b * f := by rw [← heq, add_mul]
  · -- one token more: all that was at hand then is within the limit
    have hpos : 0 ≤ b' + 1 := by
      have h1 : 0 ≤ (n - x) * F / D :=
        Int.ediv_nonneg (mul_nonneg (sub_nonneg.mpr hx) hF.le) hD.le
      omega
    have hrest : (n - x) * d ≤ (b' + 1) * f := by
      have h1 : (n - x) * d * F ≤ (b' + 1) * f * F := by
        calc (n - x) * d * F = (n - x) * F * d := by ring
          _ ≤ (b' + 1) * D * d := Int.mul_le_mul_of_nonneg_right hceil'.le hd.le
          _ = (b' + 1) * (D * d) := by ring
          _ ≤ (b' + 1) * (f * F) := Int.mul_le_mul_of_nonneg_left hcross hpos
          _ = (b' + 1) * f * F := by ring
      exact le_of_mul_le_mul_right h1 hF
    have hall : pay ≤ n := (hpay n).mpr hfloor
    calc pay * d ≤ n * d := Int.mul_le_mul_of_nonneg_right hall hd.le
      _ = (n - x) * d + x * d := by ring
      _ ≤ (b' + 1) * f + y * f := add_le_add hrest htaker
      _ = (b' + y + 1) * f := by ring
      _ ≤ b * f := Int.mul_le_mul_of_nonneg_right (by omega) hf.le

/-- The loop passed the order over as too expensive when `x` more was at hand; since then `x` has
    bought `y` from orders that are no cheaper. -/
def Skipped (new o : CMPMetaDEx) (r : Int) : Prop :=
  ∃ x y, 0 ≤ x ∧ r + x ≤ new.amountRemaining ∧ y * o.amountDesired ≤ x * o.amountForsale ∧
    x * new.amountDesired ≤ y * new.amountForsale ∧ TooExpensive new o (r + x)

/-- The whole of an order costs its price. -/
theorem exactPay_forsale (ho : o.Sound) : exactPay o o.amountForsale = o.amountDesired := by
  have hF := ho.forsale_pos
  refine eq_of_forall_ge_iff fun n => ?_
  rw [exactPay_le_iff hF, mul_comm, mul_le_mul_iff_of_pos_right hF]

theorem Skipped.passedOver (hnew : new.Sound) (ho : o.Sound) (hprice : o.unitPrice ≤ new.inversePrice)
    {r : Int} (hr : 0 ≤ r) (h : Skipped new o r) (hbuy : exactBuy o (new.withRemaining r) ≠ 0)
    (haffordable : ¬ TooExpensive new o r) : PassedOver new o := by
  obtain ⟨x, y, hx, hle, hmaker, htaker, hexpensive⟩ := h
  have hF := ho.forsale_pos
  have hD := ho.desired_pos
  have hcross := (Crossing.mk ho hnew hprice).mul_le
  have hrem := ho.remaining_pos
  have hrx : r ≤ r + x := by omega
  obtain ⟨q, hq⟩ : ∃ q, (r + x) * o.amountForsale / o.amountDesired = q := ⟨_, rfl⟩
  have hbuyn : exactBuy o (new.withRemaining (r + x)) = min q o.amountRemaining := by
    rw [← hq]
    rfl
  unfold TooExpensive at hexpensive haffordable
  rw [hbuyn] at hexpensive
  by_cases hqle : q ≤ o.amountRemaining
  · -- the amount at hand was the limit: the order would still be too expensive
    rw [min_eq_left hqle] at hexpensive
    have hbuyr : exactBuy o (new.withRemaining r) = r * o.amountForsale / o.amountDesired := by
      refine min_eq_left (le_trans ?_ hqle)
      rw [← hq]
      exact Int.ediv_le_ediv hD (mul_le_mul_of_nonneg_right hrx hF.le)
    have hposr : 0 < exactBuy o (new.withRemaining r) := by
      have h0 : 0 ≤ exactBuy o (new.withRemaining r) := by
        rw [hbuyr]
        exact Int.ediv_nonneg (mul_nonneg hr hF.le) hD.le
      omega
    rw [inversePrice_lt_div_iff hnew hposr, not_lt] at haffordable
    rw [hbuyr] at haffordable hposr
    have hqpos : 0 < q := by
      refine lt_of_lt_of_le hposr ?_
      rw [← hq]
      exact Int.ediv_le_ediv hD (mul_le_mul_of_nonneg_right hrx hF.le)
    rw [inversePrice_lt_div_iff hnew hqpos] at hexpensive
    have hlater : r + x - x = r := by omega
    have hpay' := le_exactPay_mul hF (r * o.amountForsale / o.amountDesired)
    rw [← hlater] at hpay' haffordable
    have haff := purchase_affordable hF hD hnew.desired_pos (by omega) hcross hmaker htaker hq.symm
      (exactPay_le_iff hF q) hpay' haffordable
    omega
  · have hlt : o.amountRemaining < q := by omega
    rw [min_eq_right hlt.le] at hexpensive
    refine ⟨?_, ?_, hexpensive⟩
    · -- the whole of an order is never too expensive
      refine lt_of_le_of_ne ho.remaining_le fun heq => ?_
      rw [heq, exactPay_forsale ho] at hexpensive
      exact absurd hprice (not_le.mpr hexpensive)
    · calc o.amountRemaining * o.amountDesired ≤ q * o.amountDesired :=
            mul_le_mul_of_nonneg_right hlt.le hD.le
        _ ≤ (r + x) * o.amountForsale := by
            rw [← hq]
            exact Int.ediv_mul_le _ hD.ne'
        _ ≤ new.amountRemaining * o.amountForsale := mul_le_mul_of_nonneg_right hle hF.le

end Reach

/-! ## One pass -/

/-- The loop is done with an order when `r` of the new one remain: nothing of it can be bought; or
    it is as it was before the pass, and wants something else or was skipped. -/
def Settled (new : CMPMetaDEx) (s0 : State) (price : ℚ) (k : OrderKey) (o : CMPMetaDEx) (r : Int) :
    Prop :=
  r * o.amountForsale < o.amountDesired ∨
  (s0.mdLevel new.desiredProperty price)[k]? = some o ∧
    (o.desiredProperty ≠ new.property ∨ Skipped new o r)

/-- The loop between two visits, done with some places of the book: the others are untouched, and
    every order at a place that is done is settled. -/
structure Pass (new : CMPMetaDEx) (s0 : State) (done : ℚ → OrderKey → Prop) (t : MdTrade)
    (s : State) : Prop where
  loop : LoopOk new t s
  untouched : ∀ price k, ¬ done price k → (s.mdLevel new.desiredProperty price)[k]? =
    (s0.mdLevel new.desiredProperty price)[k]?
  settled : ∀ price k o, done price k → price ≤ new.inversePrice →
    (s.mdLevel new.desiredProperty price)[k]? = some o →
    Settled new s0 price k o t.pnew.amountRemaining

/-- A satisfied order buys nothing more. -/
theorem Settled.satisfied {new o : CMPMetaDEx} {s0 : State} {price : ℚ} {k : OrderKey}
    (ho : o.Sound) : Settled new s0 price k o 0 :=
  Or.inl (by rw [zero_mul]; exact ho.desired_pos)

/-- What is paid at a price is enough at a lower one. -/
theorem maker_of_unitPrice_le {o pold : CMPMetaDEx} (ho : o.Sound) (hold : pold.Sound)
    (hprice : o.unitPrice ≤ pold.unitPrice) {got paid : Int} (hgot : 0 ≤ got)
    (hmaker : got * pold.amountDesired ≤ paid * pold.amountForsale) :
    got * o.amountDesired ≤ paid * o.amountForsale := by
  have hF : (0 : ℚ) < o.amountForsale := by exact_mod_cast ho.forsale_pos
  have hF' : (0 : ℚ) < pold.amountForsale := by exact_mod_cast hold.forsale_pos
  have hmul : o.amountDesired * pold.amountForsale ≤ pold.amountDesired * o.amountForsale := by
    unfold CMPMetaDEx.unitPrice at hprice
    rw [div_le_div_iff₀ hF hF'] at hprice
    exact_mod_cast hprice
  refine le_of_mul_le_mul_right ?_ hold.forsale_pos
  calc got * o.amountDesired * pold.amountForsale
      = got * (o.amountDesired * pold.amountForsale) := by ring
    _ ≤ got * (pold.amountDesired * o.amountForsale) := Int.mul_le_mul_of_nonneg_left hmul hgot
    _ = got * pold.amountDesired * o.amountForsale := by ring
    _ ≤ paid * pold.amountForsale * o.amountForsale :=
        Int.mul_le_mul_of_nonneg_right hmaker ho.forsale_pos.le
    _ = paid * o.amountForsale * pold.amountForsale := by ring

/-- A trade with an order that is no cheaper leaves an order settled. -/
theorem Settled.traded {new o pold : CMPMetaDEx} {s0 : State} {price : ℚ} {k : OrderKey} {r : Int}
    (h : Settled new s0 price k o r) (ho : o.Sound) (hold : pold.Sound)
    (hprice : o.unitPrice ≤ pold.unitPrice) {got paid : Int}
    (hfill : FillOk pold (new.withRemaining r) got paid) :
    Settled new s0 price k o (r - paid) := by
  have hpaid := hfill.paid_pos
  rcases h with hdead | ⟨hrest, hother | ⟨x, y, hx, hle, hmaker, htaker, hexpensive⟩⟩
  · refine Or.inl (lt_of_le_of_lt ?_ hdead)
    exact Int.mul_le_mul_of_nonneg_right (by omega) ho.forsale_pos.le
  · exact Or.inr ⟨hrest, Or.inl hother⟩
  · refine Or.inr ⟨hrest, Or.inr ⟨x + paid, y + got, by omega, by omega, ?_, ?_, ?_⟩⟩
    · rw [add_mul, add_mul]
      exact add_le_add hmaker (maker_of_unitPrice_le ho hold hprice hfill.got_pos.le hfill.maker)
    · rw [add_mul, add_mul]
      exact add_le_add htaker hfill.taker
    · have hsum : r - paid + (x + paid) = r + x := by omega
      rw [hsum]
      exact hexpensive

/-- An order that is traded in part has been bought up to the last token the new one can pay for. -/
theorem dead_of_lt {pold pnew : CMPMetaDEx} (hold : pold.Sound)
    (hpart : exactBuy pold pnew < pold.amountRemaining) :
    (pnew.amountRemaining - exactPay pold (exactBuy pold pnew)) * pold.amountForsale <
      pold.amountDesired := by
  have hbuy : exactBuy pold pnew = pnew.amountRemaining * pold.amountForsale / pold.amountDesired := by
    unfold exactBuy at hpart ⊢
    omega
  have hlt := Int.lt_ediv_add_one_mul_self (pnew.amountRemaining * pold.amountForsale)
    hold.desired_pos
  have hpay := le_exactPay_mul hold.forsale_pos (exactBuy pold pnew)
  rw [← hbuy, add_mul, one_mul] at hlt
  rw [sub_mul]
  omega

theorem TradeOk.withRemaining {new : CMPMetaDEx} {t : MdTrade} (h : TradeOk new t) :
    new.withRemaining t.pnew.amountRemaining = t.pnew := h.shape.symm

/-- Why an order was passed over is what settles it. -/
theorem PassesOver.settled {new o : CMPMetaDEx} {s0 : State} {price : ℚ} {k : OrderKey} {t : MdTrade}
    (ht : TradeOk new t) (ho : o.Sound) (hrest : (s0.mdLevel new.desiredProperty price)[k]? = some o)
    (h : PassesOver o t.pnew) : Settled new s0 price k o t.pnew.amountRemaining := by
  cases h with
  | other hother => exact Or.inr ⟨hrest, Or.inl (ht.property ▸ hother)⟩
  | nothing hnothing =>
      rw [← ht.withRemaining] at hnothing
      exact Or.inl ((exactBuy_eq_zero_iff ho ht.remaining_nonneg).mp hnothing)
  | tooExpensive hexpensive =>
      refine Or.inr ⟨hrest, Or.inr ⟨0, 0, le_rfl, ?_, by simp, by simp, ?_⟩⟩
      · rw [add_zero]
        exact ht.remaining_le
      · unfold TooExpensive
        rw [add_zero, ht.withRemaining, ← ht.inversePrice]
        exact hexpensive

section Loop

variable {new : CMPMetaDEx} (hnew : new.Sound) (hapart : new.property ≠ new.desiredProperty)
variable {s0 : State}
include hnew hapart

/-- One visit, once everything that is cheaper is done. -/
theorem Pass.offer {done : ℚ → OrderKey → Prop} {t : MdTrade} {s : State}
    (h : Pass new s0 done t s) {price : ℚ} {k : OrderKey} (hprice : price ≤ new.inversePrice)
    (hfresh : ¬ done price k) (hlow : ∀ price' k', done price' k' → price' ≤ price) :
    wp (visitOffer price t k)
      (Pass new s0 fun price' k' => done price' k' ∨ price' = price ∧ k' = k)
      (fun _ _ => True) s := by
  refine wp_mono (visitOffer_outcome hnew hapart h.loop hprice k) (fun t' s' hout => ?_)
    fun _ _ _ => trivial
  have hloop := hout.effect.loopOk h.loop
  have ht := h.loop.trade
  rcases hout with ⟨rfl, rfl, hwhy⟩ | ⟨pold, hwants, htr⟩
  · refine ⟨hloop, fun price' k' hnot => h.untouched price' k' fun hd => hnot (Or.inl hd), ?_⟩
    intro price' k' o hdone hle ho
    rcases hdone with hdone | ⟨rfl, rfl⟩
    · exact h.settled price' k' o hdone hle ho
    · have hsound := (h.loop.book _ _ _ _ ho).sound
      cases hs : t'.satisfied with
      | false =>
          have hrest := h.untouched _ _ hfresh
          rw [ho] at hrest
          rw [← ht.desiredProperty] at ho
          exact (hwhy hs o ho).settled ht hsound hrest.symm
      | true =>
          have hzero : t'.pnew.amountRemaining = 0 := by
            rw [ht.satisfied, decide_eq_true_eq] at hs
            exact hs
          rw [hzero]
          exact Settled.satisfied hsound
  · have hres := htr.resting
    have hfill := htr.fill
    rw [← ht.withRemaining] at hfill
    have hold := h.loop.book _ _ _ _ hres
    have hbook := htr.getElem?_mdLevel hold.key new.desiredProperty
    have hrem : t'.pnew.amountRemaining =
        t.pnew.amountRemaining - exactPay pold (exactBuy pold t.pnew) := by rw [htr.pnew]
    refine ⟨hloop, fun price' k' hnot => ?_, fun price' k' o hdone hle ho => ?_⟩
    · rw [hbook, if_neg fun hc => hnot (Or.inr ⟨hc.2.1.symm, hc.2.2.symm⟩)]
      exact h.untouched price' k' fun hd => hnot (Or.inl hd)
    · have hsound := (hloop.book _ _ _ _ ho).sound
      rw [hbook] at ho
      rw [hrem]
      split at ho
      · -- what is left of the order that was traded
        split at ho
        · next hpos =>
            cases ho
            exact Or.inl (dead_of_lt hold.sound (by omega))
        · cases ho
      · next hplace =>
          have hdone' : done price' k' := by
            rcases hdone with hdone | ⟨rfl, rfl⟩
            · exact hdone
            · exact absurd ⟨ht.desiredProperty, rfl, rfl⟩ hplace
          refine (h.settled price' k' o hdone' hle ho).traded hsound hold.sound ?_ hfill
          rw [(h.loop.book _ _ _ _ ho).price, hold.price]
          exact hlow price' k' hdone'

/-- The loop keeps what it has settled. -/
theorem pass_loopRule : LoopRule new s0 fun done _ t s => Pass new s0 done t s where
  trade := fun h => h.loop.trade
  untouched := fun h => h.untouched
  offer := fun h _ _ hprice hfresh hlow => h.offer hnew hapart hprice hfresh hlow
  widen := by
    intro done done' _ t s h hsub hwhy
    refine ⟨h.loop, fun price k hnot => h.untouched price k fun hd => hnot (hsub price k hd), ?_⟩
    intro price k o hdone hle ho
    by_cases hd : done price k
    · exact h.settled price k o hd hle ho
    · rcases hwhy price k hdone hd with hs | hdear | hempty
      · have hzero : t.pnew.amountRemaining = 0 := by
          rw [h.loop.trade.satisfied, decide_eq_true_eq] at hs
          exact hs
        rw [hzero]
        exact Settled.satisfied (h.loop.book _ _ _ _ ho).sound
      · exact absurd hle (not_le.mpr hdear)
      · rw [hempty] at ho
        cases ho

/-- **ONE PASS SETTLES THE WHOLE BOOK**: every order at a price within the limit. -/
theorem xTradeMetaDEx_settles (hs : MdBookOk s0) :
    wp (xTradeMetaDEx new) (Pass new s0 fun _ _ => True) (fun _ _ => True) s0 := by
  have hstart : Pass new s0 (fun _ _ => False) ⟨new, false, .nothing⟩ s0 :=
    ⟨⟨TradeOk.start hnew, hs⟩, fun _ _ _ => rfl, fun _ _ _ hd => hd.elim⟩
  exact (pass_loopRule hnew hapart).xTrade hstart

end Loop

/-! ## The second pass -/

/-- With the order at a place of the book the engine would trade. -/
def WouldTrade (pnew : CMPMetaDEx) (price : ℚ) (k : OrderKey) (s : State) : Prop :=
  price ≤ pnew.inversePrice ∧ ∃ t' s', visitOffer price ⟨pnew, false, .nothing⟩ k s = .ok t' s' ∧
    t'.pnew.amountRemaining < pnew.amountRemaining

/-- With nothing at hand a visit changes nothing: at an order it would match, it stops. -/
theorem visitOffer_of_nothing {t : MdTrade} (hzero : t.pnew.amountRemaining ≤ 0) (price : ℚ)
    (k : OrderKey) (s : State) :
    wp (visitOffer price t k) (fun t' s' => t' = t ∧ s' = s) (fun _ s' => s' = s) s := by
  unfold visitOffer
  rw [wp_ite]
  refine ⟨fun _ => (wp_pure _ _ _ _).mpr ⟨rfl, rfl⟩, fun _ => ?_⟩
  rw [wp_bind, wp_get]
  cases (s.mdLevel t.pnew.desiredProperty price)[k]? with
  | none => exact (wp_pure _ _ _ _).mpr ⟨rfl, rfl⟩
  | some pold =>
      have hnot : ¬ 0 < t.pnew.amountRemaining := not_lt.mpr hzero
      dsimp only
      unfold matchOffer
      simp only [wp_bind, wp_assertThat, wp_ite, wp_pure]
      simp [hnot]

theorem xTradeMetaDEx_of_nothing {pnew : CMPMetaDEx} (hzero : pnew.amountRemaining ≤ 0) (s : State) :
    after (xTradeMetaDEx pnew) s = s := by
  refine after_eq ?_
  unfold xTradeMetaDEx
  rw [wp_bind, wp_get]
  have hoffers : ∀ price (keys : List OrderKey),
      wp (keys.foldlM (visitOffer price) ⟨pnew, false, .nothing⟩)
        (fun t s' => t = ⟨pnew, false, .nothing⟩ ∧ s' = s) (fun _ s' => s' = s) s := by
    intro price keys
    refine wp_foldlM (I := fun (t : MdTrade) s' => t = ⟨pnew, false, .nothing⟩ ∧ s' = s) ?_ ⟨rfl, rfl⟩
    rintro k _ t s' ⟨rfl, rfl⟩
    exact visitOffer_of_nothing hzero price k _
  have hlevels : wp (((s.mdPrices pnew.desiredProperty).toList.map Prod.fst).foldlM visitLevel
      ⟨pnew, false, .nothing⟩) (fun t s' => t = ⟨pnew, false, .nothing⟩ ∧ s' = s)
      (fun _ s' => s' = s) s := by
    refine wp_foldlM (I := fun (t : MdTrade) s' => t = ⟨pnew, false, .nothing⟩ ∧ s' = s) ?_ ⟨rfl, rfl⟩
    rintro price _ t s' ⟨rfl, rfl⟩
    unfold visitLevel
    rw [wp_ite]
    refine ⟨fun _ => (wp_pure _ _ _ _).mpr ⟨rfl, rfl⟩, fun _ => ?_⟩
    rw [wp_bind, wp_get]
    exact hoffers price _
  exact wp_imp hlevels fun _ _ hI => hI.2

/-- An order that is settled is passed over again, unless it was passed over as a whole. -/
theorem Settled.again {new o : CMPMetaDEx} {s0 : State} {price : ℚ} {k : OrderKey} {r : Int}
    (hnew : new.Sound) (ho : o.Sound) (hprice : o.unitPrice ≤ new.inversePrice) (hr : 0 ≤ r)
    (h : Settled new s0 price k o r) :
    PassesOver o (new.withRemaining r) ∨ (s0.mdLevel new.desiredProperty price)[k]? = some o ∧
      o.desiredProperty = new.property ∧ PassedOver new o := by
  rcases h with hdead | ⟨hrest, hwhy⟩
  · exact Or.inl (.nothing ((exactBuy_eq_zero_iff ho hr).mpr hdead))
  · by_cases hother : o.desiredProperty = new.property
    · rcases hwhy with hwhy | hskipped
      · exact absurd hother hwhy
      · by_cases hbuy : exactBuy o (new.withRemaining r) = 0
        · exact Or.inl (.nothing hbuy)
        · by_cases hexpensive : TooExpensive new o r
          · exact Or.inl (.tooExpensive hexpensive)
          · exact Or.inr ⟨hrest, hother, hskipped.passedOver hnew ho hprice hr hbuy hexpensive⟩
    · exact Or.inl (.other hother)

section Again

variable {new : CMPMetaDEx} (hnew : new.Sound) (hapart : new.property ≠ new.desiredProperty)
include hnew hapart

/-- An order that there is a reason to pass over is passed over. -/
theorem visitOffer_passes {t : MdTrade} {s : State} (h : LoopOk new t s) {price : ℚ}
    (hprice : price ≤ new.inversePrice) {k : OrderKey} (hs : t.satisfied = false)
    (hwhy : ∀ pold, (s.mdLevel t.pnew.desiredProperty price)[k]? = some pold →
      PassesOver pold t.pnew) : visitOffer price t k s = .ok t s := by
  unfold visitOffer
  rw [hs, if_neg Bool.false_ne_true]
  simp only [bind, EStateM.bind, get, getThe, MonadStateOf.get, EStateM.get]
  cases hk : (s.mdLevel t.pnew.desiredProperty price)[k]? with
  | none => rfl
  | some pold =>
      have hpass : matchOffer price t pold = pure t := by
        by_cases hwants : pold.desiredProperty = t.pnew.property
        · obtain ⟨hcross, hcons⟩ := h.crossing hnew hapart hprice hs hk hwants
          rw [matchOffer_eq hcross hcons]
          unfold tradeExactly
          refine if_pos ?_
          cases hwhy pold hk with
          | other hother => exact absurd hwants hother
          | nothing hnothing => exact Or.inl hnothing
          | tooExpensive hexpensive => exact Or.inr hexpensive
        · have hplace := h.book _ _ _ _ hk
          unfold matchOffer
          dsimp only
          rw [assertThat_of hplace.price, pure_bind, if_pos hwants]
      dsimp only
      rw [hpass]
      rfl

/-- Where a second pass, over the orders that the first one left, would trade. -/
theorem Pass.wouldTrade {s0 s s1 : State} {t : MdTrade} (h : Pass new s0 (fun _ _ => True) t s)
    (hbook : MdBookOk s1) (hsame : ∀ (price : ℚ) (k : OrderKey), (s1.mdLevel new.desiredProperty price)[k]? =
      (s.mdLevel new.desiredProperty price)[k]?) {price : ℚ} {k : OrderKey}
    (htrade : WouldTrade t.pnew price k s1) :
    ∃ o, (s0.mdLevel new.desiredProperty price)[k]? = some o ∧
      (s1.mdLevel new.desiredProperty price)[k]? = some o ∧ o.desiredProperty = new.property ∧
      PassedOver new o := by
  obtain ⟨hprice, t', s', hrun, hless⟩ := htrade
  have ht := h.loop.trade
  rw [ht.inversePrice] at hprice
  by_contra hnone
  rcases eq_or_lt_of_le ht.remaining_nonneg with hzero | hpos
  · have hstays := wp_ok (visitOffer_of_nothing (t := ⟨t.pnew, false, .nothing⟩) hzero.symm.le
      price k s1) hrun
    rw [hstays.1] at hless
    exact lt_irrefl _ hless
  · have hagain : LoopOk new ⟨t.pnew, false, .nothing⟩ s1 := by
      refine ⟨⟨ht.shape, ht.remaining_nonneg, ht.remaining_le, ?_⟩, hbook⟩
      rw [eq_comm, decide_eq_false_iff_not]
      exact hpos.ne'
    have hpass := visitOffer_passes hnew hapart hagain hprice (k := k) rfl fun o ho => by
      rw [ht.desiredProperty] at ho
      have hplace := hbook _ _ _ _ ho
      have ho' := ho
      rw [hsame] at ho'
      have hsettled := h.settled price k o trivial hprice ho'
      rcases hsettled.again hnew hplace.sound (hplace.price ▸ hprice) ht.remaining_nonneg with
        hpasses | ⟨hrest, hwants, hover⟩
      · rw [← ht.withRemaining]
        exact hpasses
      · exact absurd ⟨o, hrest, ho, hwants, hover⟩ hnone
    rw [hpass] at hrun
    cases hrun
    exact lt_irrefl _ hless

/-- If there is a reason to pass over every order, the whole loop changes nothing. -/
theorem xTradeMetaDEx_stays {s : State} (hs : MdBookOk s)
    (hwhy : ∀ (price : ℚ) (k : OrderKey) o, price ≤ new.inversePrice →
      (s.mdLevel new.desiredProperty price)[k]? = some o → PassesOver o new) :
    xTradeMetaDEx new s = .ok ⟨new, false, .nothing⟩ s := by
  have hloop : LoopOk new ⟨new, false, .nothing⟩ s := ⟨TradeOk.start hnew, hs⟩
  refine foldlM_stays fun price _ => ?_
  show visitLevel ⟨new, false, .nothing⟩ price s = _
  by_cases hgood : new.inversePrice < price
  · unfold visitLevel
    rw [if_pos (Or.inr hgood)]
    rfl
  · unfold visitLevel
    rw [if_neg (by simpa using not_lt.mp hgood)]
    refine foldlM_stays fun k _ => ?_
    exact visitOffer_passes hnew hapart hloop (not_lt.mp hgood) rfl fun o =>
      hwhy price k o (not_lt.mp hgood)

/-- If the first pass passed over no order as a whole, a second one changes nothing. -/
theorem Pass.stays {s0 s s1 : State} {t : MdTrade} (h : Pass new s0 (fun _ _ => True) t s)
    (hbook : MdBookOk s1) (hsame : ∀ (price : ℚ) (k : OrderKey),
      (s1.mdLevel new.desiredProperty price)[k]? = (s.mdLevel new.desiredProperty price)[k]?)
    (hnone : ∀ (price : ℚ) (k : OrderKey) o, (s0.mdLevel new.desiredProperty price)[k]? = some o →
      price ≤ new.inversePrice → o.desiredProperty = new.property → ¬ PassedOver new o) :
    after (xTradeMetaDEx t.pnew) s1 = s1 ∧
      (0 < t.pnew.amountRemaining →
        xTradeMetaDEx t.pnew s1 = .ok ⟨t.pnew, false, .nothing⟩ s1) := by
  have ht := h.loop.trade
  have hagain : 0 < t.pnew.amountRemaining →
      xTradeMetaDEx t.pnew s1 = .ok ⟨t.pnew, false, .nothing⟩ s1 := by
    intro hpos
    have hsound : t.pnew.Sound := by
      refine ht.sound hnew ?_
      rw [ht.satisfied, decide_eq_false_iff_not]
      exact hpos.ne'
    refine xTradeMetaDEx_stays hsound (by rw [ht.property, ht.desiredProperty]; exact hapart)
      hbook fun price k o hprice ho => ?_
    rw [ht.inversePrice] at hprice
    rw [ht.desiredProperty] at ho
    have hplace := hbook _ _ _ _ ho
    rw [hsame] at ho
    rcases (h.settled price k o trivial hprice ho).again hnew hplace.sound
      (hplace.price ▸ hprice) ht.remaining_nonneg with hpasses | ⟨hrest, hwants, hover⟩
    · rw [← ht.withRemaining]
      exact hpasses
    · exact absurd hover (hnone price k o hrest hprice hwants)
  refine ⟨?_, hagain⟩
  rcases eq_or_lt_of_le ht.remaining_nonneg with hzero | hpos
  · exact xTradeMetaDEx_of_nothing hzero.symm.le s1
  · unfold after
    rw [hagain hpos]

/-- Putting the remainder into the book leaves the orders it was matched against. -/
theorem metaDExAdd_levels {s s1 : State} {t : MdTrade} (hl : LoopOk new t s1)
    (hrun : xTradeMetaDEx new s = .ok t s1) :
    wp (metaDExAdd new) (fun _ s' => ∀ price : ℚ,
      s'.mdLevel new.desiredProperty price = s1.mdLevel new.desiredProperty price)
      (fun _ _ => True) s := by
  have hprice : ¬ new.unitPrice ≤ 0 := not_le.mpr hnew.unitPrice_pos
  unfold metaDExAdd
  rw [if_neg hprice, wp_bind, wp_iff, hrun]
  dsimp only
  rw [wp_ite]
  refine ⟨fun _ => ?_, fun _ => (wp_pure _ _ _ _).mpr fun _ => rfl⟩
  have hinserted : ∀ set price, (s1.setMdLevel t.pnew.property t.pnew.unitPrice set).mdLevel
      new.desiredProperty price = s1.mdLevel new.desiredProperty price := by
    intro set price
    rw [mdLevel_setMdLevel, if_neg fun h => hapart (hl.trade.property ▸ h.1)]
  unfold metaDExInsert
  simp only [wp_bind, wp_get, wp_ite, wp_pure, wp_set]
  refine ⟨fun _ => ⟨fun h => by simp at h, fun _ _ => trivial⟩, fun _ => ⟨fun _ => ?_, by simp⟩⟩
  unfold reserveRemaining
  simp only [wp_bind]
  refine wp_mono ((outsideFees_metadex.assertUpdate _ _ _ _).wp rfl) (fun _ s2 h2 => ?_)
    fun _ _ _ => trivial
  refine wp_mono ((outsideFees_metadex.assertUpdate _ _ _ _).wp h2) (fun _ s3 h3 => ?_)
    fun _ _ _ => trivial
  intro price
  rw [mdLevel_congr h3]
  exact hinserted _ price

end Again

/-- **A SECOND PASS FINDS WHAT ROUNDING PUT OUT OF REACH**, and nothing else: after `x_Trade` the
    engine would trade what remains only with orders that were in the book before, untouched,
    partially filled already, and passed over as a whole. If there are none, running it again
    changes nothing. Both hold of the book that `MetaDEx_ADD` leaves, too. -/
theorem matching_exhaustive {new : CMPMetaDEx} {s s' : State} {t : MdTrade} (hs : MdBookOk s)
    (hnew : new.Sound) (hapart : new.property ≠ new.desiredProperty)
    (hrun : xTradeMetaDEx new s = .ok t s') :
    (∀ price k, WouldTrade t.pnew price k s' →
      ∃ o, (s.mdLevel new.desiredProperty price)[k]? = some o ∧
        (s'.mdLevel new.desiredProperty price)[k]? = some o ∧
        o.desiredProperty = new.property ∧ PassedOver new o) ∧
    ((∀ (price : ℚ) (k : OrderKey) o, (s.mdLevel new.desiredProperty price)[k]? = some o →
        price ≤ new.inversePrice → o.desiredProperty = new.property → ¬ PassedOver new o) →
      after (xTradeMetaDEx t.pnew) s' = s' ∧
        (0 < t.pnew.amountRemaining →
          xTradeMetaDEx t.pnew s' = .ok ⟨t.pnew, false, .nothing⟩ s')) ∧
    ∀ rc s'', metaDExAdd new s = .ok rc s'' →
      (∀ price k, WouldTrade t.pnew price k s'' →
        ∃ o, (s.mdLevel new.desiredProperty price)[k]? = some o ∧
          (s''.mdLevel new.desiredProperty price)[k]? = some o ∧
          o.desiredProperty = new.property ∧ PassedOver new o) ∧
      ((∀ (price : ℚ) (k : OrderKey) o, (s.mdLevel new.desiredProperty price)[k]? = some o →
          price ≤ new.inversePrice → o.desiredProperty = new.property → ¬ PassedOver new o) →
        after (xTradeMetaDEx t.pnew) s'' = s'' ∧
          (0 < t.pnew.amountRemaining →
            xTradeMetaDEx t.pnew s'' = .ok ⟨t.pnew, false, .nothing⟩ s'')) := by
  have hpass := wp_ok (xTradeMetaDEx_settles hnew hapart hs) hrun
  refine ⟨fun price k => hpass.wouldTrade hnew hapart hpass.loop.book fun _ _ => rfl,
    hpass.stays hnew hapart hpass.loop.book fun _ _ => rfl, fun rc s'' hadd => ?_⟩
  have hbook := wp_ok (metaDExAdd_bookOk hnew hapart hs) hadd
  have hlevels := wp_ok (metaDExAdd_levels hnew hapart hpass.loop hrun) hadd
  have hsame : ∀ (price : ℚ) (k : OrderKey), (s''.mdLevel new.desiredProperty price)[k]? =
      (s'.mdLevel new.desiredProperty price)[k]? := fun price k => by rw [hlevels]
  exact ⟨fun price k => hpass.wouldTrade hnew hapart hbook hsame,
    hpass.stays hnew hapart hbook hsame⟩

set_option maxRecDepth 4000 in
private theorem bidOrder_trades :
    (value (xTradeMetaDEx bidTx.metaDExOrder) saleWorld.state).map
      (fun t => t.pnew.amountRemaining) = some 1 := by decide +kernel

set_option maxRecDepth 4000 in
private theorem saleWorld_fresh :
    ∀ e ∈ saleWorld.state.mdOrders, ¬ PassedOver bidTx.metaDExOrder e.order := by decide +kernel

/-- The bid for the sale finds nothing more to buy for the 1 that remains. -/
theorem matching_exhaustive_bid :
    MdBookOk saleWorld.state ∧ ∃ t s', xTradeMetaDEx bidTx.metaDExOrder saleWorld.state = .ok t s' ∧
      t.pnew.amountRemaining = 1 ∧
      xTradeMetaDEx t.pnew s' = .ok ⟨t.pnew, false, .nothing⟩ s' := by
  have hbook : MdBookOk saleWorld.state := saleWorld_reached.bookOk
  obtain ⟨t, hval, hrem⟩ := Option.map_eq_some_iff.mp bidOrder_trades
  have hrun := eq_ok_of_value hval
  have hagain := (matching_exhaustive hbook (by decide) (by decide) hrun).2.1
    fun price k o ho _ _ => saleWorld_fresh ⟨_, price, k, o⟩ (mem_mdOrders.mpr ho)
  exact ⟨hbook, t, _, hrun, hrem, hagain.2 (by rw [hrem]; decide)⟩

/-- `A` sells 6 of property 4 for 4 of property 1. -/
def firstSaleTx : CMPTransaction := { saleTx with nValue := 6, nNewValue := 6, desiredValue := 4 }

/-- `B` buys one of them. -/
def oneTokenTx : CMPTransaction := { bidTx with nValue := 1, nNewValue := 1, desiredValue := 1 }

/-- `A` sells 3 more for 2. -/
def secondSaleTx : CMPTransaction :=
  { saleTx with txid := 3, block := 12, nValue := 3, nNewValue := 3, desiredValue := 2 }

/-- The market after these three. -/
def passMarket : State :=
  after (interpretMetaDExPacket secondSaleTx) (after (interpretMetaDExPacket oneTokenTx)
    (after (interpretMetaDExPacket firstSaleTx) tokenMarket))

/-- `B` offers 4 of property 1 for 6 of property 4. -/
def passOrder : CMPMetaDEx :=
  CMPTransaction.metaDExOrder
    { bidTx with txid := 4, block := 13, nValue := 4, nNewValue := 4, desiredValue := 6 }

private theorem reaches_packet {s : State} {fills : List MdFill} (h : MdReaches ⟨s, fills⟩)
    (tx : CMPTransaction) (hrun : value (interpretMetaDExPacket tx) s = some 0) :
    ∃ fills', MdReaches ⟨after (interpretMetaDExPacket tx) s, fills'⟩ :=
  ⟨_, .step (.packet tx) h (eq_ok_of_value hrun)⟩

set_option maxRecDepth 4000 in
private theorem passMarket_reached : ∃ fills, MdReaches ⟨passMarket, fills⟩ := by
  have h0 : MdReaches ⟨tokenMarket, []⟩ := .start rfl
  obtain ⟨f1, h1⟩ := reaches_packet h0 firstSaleTx (by decide +kernel)
  obtain ⟨f2, h2⟩ := reaches_packet h1 oneTokenTx (by decide +kernel)
  exact reaches_packet h2 secondSaleTx (by decide +kernel)

set_option maxRecDepth 4000 in
private theorem passOrder_trades :
    (value (xTradeMetaDEx passOrder) passMarket).map
      (fun t => (t.pnew.amountRemaining, decide (2 / 3 ≤ t.pnew.inversePrice))) = some (2, true) ∧
    ((value (xTradeMetaDEx passOrder) passMarket).bind fun t =>
      value (xTradeMetaDEx t.pnew) (after (xTradeMetaDEx passOrder) passMarket)).map
        (fun t => t.pnew.amountRemaining) = some 0 ∧
    value (metaDExAdd passOrder) passMarket = some 0 ∧
    ((value (xTradeMetaDEx passOrder) passMarket).bind fun t =>
      value (visitOffer (2 / 3) ⟨t.pnew, false, .nothing⟩ (10, 1))
        (after (metaDExAdd passOrder) passMarket)).map (fun t => t.pnew.amountRemaining) = some 0 := by
  decide +kernel

/-- **ROUNDING HIDES A MATCH**: with 4 at hand the five tokens left of the first sale cost 4, which is
    above the limit; once the second sale has taken 2, three of them cost 2. A second pass buys
    them, and `MetaDEx_ADD` leaves both orders in the book. -/
theorem secondPass_trades :
    (∃ fills, MdReaches ⟨passMarket, fills⟩) ∧ passOrder.Sound ∧
    passOrder.property ≠ passOrder.desiredProperty ∧
    ∃ t s', xTradeMetaDEx passOrder passMarket = .ok t s' ∧
      (∃ t2 s2, xTradeMetaDEx t.pnew s' = .ok t2 s2 ∧
        t2.pnew.amountRemaining < t.pnew.amountRemaining) ∧
      ∃ s'', metaDExAdd passOrder passMarket = .ok 0 s'' ∧ WouldTrade t.pnew (2 / 3) (10, 1) s'' := by
  obtain ⟨hfirst, hsecond, hadd, hvisit⟩ := passOrder_trades
  obtain ⟨t, hval, hpair⟩ := Option.map_eq_some_iff.mp hfirst
  rw [Prod.mk.injEq, decide_eq_true_eq] at hpair
  obtain ⟨hrem, hprice⟩ := hpair
  rw [hval, Option.bind_some] at hsecond hvisit
  obtain ⟨t2, hval2, hrem2⟩ := Option.map_eq_some_iff.mp hsecond
  obtain ⟨t3, hval3, hrem3⟩ := Option.map_eq_some_iff.mp hvisit
  refine ⟨passMarket_reached, by decide, by decide, t, _, eq_ok_of_value hval, ?_, _,
    eq_ok_of_value hadd, hprice, ?_⟩
  · exact ⟨t2, _, eq_ok_of_value hval2, by omega⟩
  · exact ⟨t3, _, eq_ok_of_value hval3, by omega⟩

end OmniCore
