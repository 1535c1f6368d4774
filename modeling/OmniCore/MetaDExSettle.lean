import OmniCore.FeePayout
import OmniCore.MetaDExReserve
import OmniCore.MetaDExShutdown

/-! # MetaDExSettle — a fill always goes through

    A fill is a fee, four postings, a record and a rewritten price level. If the reserves
    are those of the resting orders, the new order has its tokens and everything that is
    outstanding of a property fits into 64 bits, no assertion of a fill fails, and all of
    this holds again behind it. -/

namespace OmniCore

open Std (ExtTreeMap)
open Machine TextRec MapSum Exec

/-! ## What the tokens of a node keep to -/

/-- What is outstanding of a property fits into 64 bits, the fee cache is in order, and with fees
    active somebody holds the tokens of both ecosystems. -/
structure TokensOk (height : Int) (s : State) : Prop where
  cache : FeeCacheOk height s
  cached_nonneg : ∀ p, 0 ≤ s.cached p
  outstanding_le : ∀ p, s.outstanding p ≤ maxInt64
  owners : ∀ block, s.params.isFeatureActivated .fees block = true →
    0 < s.tallyMap.supply omniPropertyMSC ∧ 0 < s.tallyMap.supply omniPropertyTMSC

namespace TokensOk

variable {height : Int} {s : State} (h : TokensOk height s)
include h

theorem supply_le (p : PropertyId) : s.tallyMap.supply p ≤ maxInt64 := by
  have hcached := h.cached_nonneg p
  have hle := h.outstanding_le p
  unfold State.outstanding at hle
  omega

theorem mono {height' : Int} (hle : height ≤ height') : TokensOk height' s :=
  ⟨h.cache.mono hle, h.cached_nonneg, h.outstanding_le, h.owners⟩

/-- Tokens that only move leave everything in order. -/
theorem congr {s' : State} (hsupply : ∀ p, s'.tallyMap.supply p = s.tallyMap.supply p)
    (hcache : s'.feeCache = s.feeCache) (hparams : s'.params = s.params) : TokensOk height s' := by
  have hcached : ∀ p, s'.cached p = s.cached p := fun p => h.cache.cached_congr (by rw [hcache])
  refine ⟨h.cache.congr hcache, fun p => ?_, fun p => ?_, fun block hfees => ?_⟩
  · rw [hcached]
    exact h.cached_nonneg p
  · unfold State.outstanding
    rw [hsupply, hcached]
    exact h.outstanding_le p
  · rw [hsupply, hsupply]
    rw [hparams] at hfees
    exact h.owners block hfees

end TokensOk

/-- The reserves are those of the resting orders. -/
def MdReserved (s : State) : Prop :=
  ∀ a p, s.tallyMap.money a p .metaDExReserve = s.mdReserved a p

/-- The reserve of an address covers each of its orders. -/
theorem MdReserved.covers {s : State} (h : MdReserved s) (hbook : MdBookOk s) {p : PropertyId}
    {price : ℚ} {k : OrderKey} {o : CMPMetaDEx} (ho : (s.mdLevel p price)[k]? = some o) :
    o.amountRemaining ≤ s.tallyMap.money o.addr o.property .metaDExReserve := by
  have hmem : (⟨p, price, k, o⟩ : MdPlaced) ∈ s.mdOrders := mem_mdOrders.mpr ho
  have hkeeps : o.reservedFor o.addr o.property = o.amountRemaining := if_pos ⟨rfl, rfl⟩
  rw [h o.addr o.property, ← hkeeps]
  refine List.single_le_sum (fun x hx => ?_) _ (List.mem_map.mpr ⟨_, hmem, rfl⟩)
  obtain ⟨e, he, rfl⟩ := List.mem_map.mp hx
  exact reservedFor_nonneg (hbook _ _ _ _ (mem_mdOrders.mp he)).sound.remaining_pos.le _ _

/-! ## The fee of a fill -/

/-- A fee was taken, less than what the buyer got; the tokens of the ecosystems pay none. -/
structure FeeStripped (p : PropertyId) (got fee height : Int) (s s' : State) : Prop where
  kept : FeeKept p fee height s s'
  nonneg : 0 ≤ fee
  lt_got : fee < got
  omni : ∀ q, q ≤ omniPropertyTMSC → s'.tallyMap.supply q = s.tallyMap.supply q
  free : p ≤ omniPropertyTMSC → fee = 0

/-- **THE FEE OF A FILL IS TAKEN**, out of what the resting order has in reserve. -/
theorem stripFee_returns {pold pnew : CMPMetaDEx} {got : Int} {s : State}
    (h : TokensOk pnew.block s) (hheight : IsInt64 pnew.block) (hgot : 0 < got)
    (hsells : pold.property = pnew.desiredProperty)
    (hreserve : got ≤ s.tallyMap.money pold.addr pold.property .metaDExReserve) :
    wp (stripFee pold pnew got)
      (fun fee s' => FeeStripped pnew.desiredProperty got fee pnew.block s s')
      (fun _ _ => False) s := by
  unfold stripFee
  rw [wp_bind, wp_get, wp_ite]
  constructor
  · rintro ⟨hfees, hproperty, -⟩
    rw [hsells] at hproperty hreserve
    have hfee0 : 0 ≤ got.tdiv 2000 := Int.tdiv_nonneg hgot.le (by decide)
    have hfee : got.tdiv 2000 < got := by
      rw [Int.tdiv_eq_ediv_of_nonneg hgot.le]
      omega
    have howners := h.owners pnew.block hfees
    have hpays : payoutProperty pnew.desiredProperty = omniPropertyTMSC ∨
        payoutProperty pnew.desiredProperty = omniPropertyMSC := by
      unfold payoutProperty
      split
      · exact Or.inl rfl
      · exact Or.inr rfl
    -- the fee is still in the reserve of the resting order
    have hroom : FeeRoom pnew.desiredProperty (got.tdiv 2000) pnew.block s := by
      refine ⟨h.cache, hheight, h.cached_nonneg _, hfee0, ?_, ?_, h.supply_le _⟩
      · have hall := h.outstanding_le pnew.desiredProperty
        have hsell := s.tallyMap.total_nonneg pnew.desiredProperty
          (show TallyType.sellOfferReserve ≠ .pending by simp)
        have haccept := s.tallyMap.total_nonneg pnew.desiredProperty
          (show TallyType.acceptReserve ≠ .pending by simp)
        have hmeta := s.tallyMap.money_le_total pold.addr pnew.desiredProperty
          (show TallyType.metaDExReserve ≠ .pending by simp)
        unfold State.outstanding TallyMap.supply at hall
        omega
      · rcases hpays with hp | hp
        · rw [hp]
          exact howners.2
        · rw [hp]
          exact howners.1
    rw [wp_bind]
    refine wp_imp (addFee_returns hroom) fun _ s' hkept => ?_
    rw [wp_pure]
    refine ⟨hkept, hfee0, hfee, fun q hq => hkept.supply q ?_, fun hle => ?_⟩
    · rintro rfl
      exact absurd hproperty (not_lt.mpr hq)
    · exact absurd hproperty (not_lt.mpr hle)
  · intro _
    rw [wp_pure]
    exact ⟨FeeKept.refl h.cache (h.cached_nonneg _), le_rfl, hgot, fun _ _ => rfl, fun _ => rfl⟩

/-! ## The postings -/

/-- What holds between two visits for a new order, which the loop was called with in the state `s0`. -/
structure TradingOk (new : CMPMetaDEx) (s0 : State) (t : MdTrade) (s : State) : Prop where
  loop : LoopOk new t s
  reserved : MdReserved s
  tokens : TokensOk new.block s
  purse : t.pnew.amountRemaining ≤ s.tallyMap.money new.addr new.property .balance
  beside : s = { s0 with
    tallyMap := s.tallyMap, metadex := s.metadex, feeCache := s.feeCache
    feeHistory := s.feeHistory, tradeList := s.tradeList }
  places : ∀ p price (k : OrderKey), (s0.mdLevel p price)[k]? = none →
    (s.mdLevel p price)[k]? = none

/-- The ledger after the four postings of a fill, on top of the fee. -/
structure FillPosted (pold pnew : CMPMetaDEx) (got paid fee : Int) (m m' : TallyMap) : Prop where
  taker : m.money pnew.addr pnew.property .balance - paid ≤
    m'.money pnew.addr pnew.property .balance
  reserve : ∀ a p, m'.money a p .metaDExReserve = m.money a p .metaDExReserve -
    if a = pold.addr ∧ p = pold.property then got else 0
  supply : ∀ p, m'.supply p = m.supply p - if p = pold.property then fee else 0

/-- **THE POSTINGS GO THROUGH** if the taker has its payment, the maker its reserve, and the tokens
    fit once the fee is taken off. -/
theorem wp_fillPostings {α : Type} {pold pnew : CMPMetaDEx} {got paid fee : Int} {s : State}
    {k : ExecM α} {Q : α → State → Prop} {E : Halt → State → Prop}
    (hsells : pold.property = pnew.desiredProperty) (hwants : pold.desiredProperty = pnew.property)
    (hapart : pnew.property ≠ pnew.desiredProperty) (hpaid : 0 < paid) (hfee : 0 ≤ fee)
    (hgot : fee < got) (hpays : paid ≤ s.tallyMap.money pnew.addr pnew.property .balance)
    (hfrozen : s.isAddressFrozen pnew.addr pnew.property = false)
    (hreserve : got ≤ s.tallyMap.money pold.addr pold.property .metaDExReserve)
    (hpaidSupply : s.tallyMap.supply pnew.property ≤ maxInt64)
    (hgotSupply : s.tallyMap.supply pold.property - fee ≤ maxInt64)
    (hk : ∀ m', FillPosted pold pnew got paid fee s.tallyMap m' → wp k Q E (s.withTally m')) :
    wp (do
      assertUpdate pnew.addr pnew.property (-paid) .balance
      assertUpdate pold.addr pold.desiredProperty paid .balance
      assertUpdate pold.addr pold.property (-got) .metaDExReserve
      assertUpdate pnew.addr pnew.desiredProperty (got - fee) .balance
      k) Q E s := by
  have hne : pold.property ≠ pnew.property := hsells ▸ hapart.symm
  rw [hwants]
  refine wp_move hpaid hpays trivial trivial hpaidSupply (fun _ => hfrozen) fun m₁ hmoved => ?_
  -- what is paid for comes out of the reserve of the maker
  have hreserved : ∀ a p, m₁.money a p .metaDExReserve = s.tallyMap.money a p .metaDExReserve :=
    fun a p => hmoved.money_of_ne a p (by simp) (by simp)
  have hnonneg := s.tallyMap.money_nonneg pold.addr pold.property
    (show TallyType.metaDExReserve ≠ .pending by simp)
  have hle := s.tallyMap.money_le pold.addr pold.property .metaDExReserve
  rw [wp_bind]
  refine wp_assertUpdate_of_canUpdate ⟨by omega, ⟨?_, ?_⟩, fun _ => ?_, fun hty => by cases hty⟩ ?_
  · show minInt64 ≤ m₁.money pold.addr pold.property .metaDExReserve + -got
    rw [hreserved]
    unfold minInt64
    omega
  · show m₁.money pold.addr pold.property .metaDExReserve + -got ≤ maxInt64
    rw [hreserved]
    omega
  · show 0 ≤ m₁.money pold.addr pold.property .metaDExReserve + -got
    rw [hreserved]
    omega
  intro m₂ hdebit
  have hdebit : Credited m₁ m₂ pold.addr pold.property (-got) .metaDExReserve := hdebit
  have hsupply₂ : m₂.supply pold.property = s.tallyMap.supply pold.property - got := by
    rw [hdebit.supply trivial, if_pos rfl, hmoved.supply]
    ring
  -- and goes to the taker, less the fee
  have hroom := m₂.money_le_supply pnew.addr pnew.desiredProperty (show TallyType.balance.Holds from
    trivial)
  have hnonneg₂ := m₂.money_nonneg pnew.addr pnew.desiredProperty
    (show TallyType.balance ≠ .pending by simp)
  rw [← hsells, hsupply₂] at hroom
  rw [← hsells] at hnonneg₂ ⊢
  rw [wp_bind]
  refine wp_assertUpdate_of_canUpdate ⟨by omega, ⟨?_, ?_⟩, fun _ => ?_, fun _ hneg => ?_⟩ ?_
  · show minInt64 ≤ m₂.money pnew.addr pold.property .balance + (got - fee)
    unfold minInt64
    omega
  · show m₂.money pnew.addr pold.property .balance + (got - fee) ≤ maxInt64
    omega
  · show 0 ≤ m₂.money pnew.addr pold.property .balance + (got - fee)
    omega
  · omega
  intro m₃ hcredit
  have hcredit : Credited m₂ m₃ pnew.addr pold.property (got - fee) .balance := hcredit
  refine hk m₃ ⟨?_, fun a p => ?_, fun p => ?_⟩
  · rw [hcredit.money, if_neg fun hh => hne hh.2.1.symm, hdebit.money,
      if_neg fun hh => hne hh.2.1.symm, hmoved.money, if_pos ⟨rfl, rfl, rfl⟩]
    split <;> omega
  · rw [hcredit.money, if_neg (by simp), hdebit.money, hreserved]
    simp only [and_true]
    split <;> omega
  · rw [hcredit.supply trivial, hdebit.supply trivial, hmoved.supply]
    split <;> omega

/-! ## One fill -/

/-- The tokens are in order behind a fill: what the fee added, the postings take off. -/
theorem TokensOk.filled {pold pnew : CMPMetaDEx} {got paid fee height : Int} {s s₁ s' : State}
    (h : TokensOk height s) (hstripped : FeeStripped pold.property got fee height s s₁)
    (hposted : FillPosted pold pnew got paid fee s₁.tallyMap s'.tallyMap)
    (hcache : s'.feeCache = s₁.feeCache) (hparams : s'.params = s.params) : TokensOk height s' := by
  have hkept := hstripped.kept
  have hcached : ∀ p, s'.cached p = s₁.cached p := fun p => hkept.cache.cached_congr (by rw [hcache])
  refine ⟨hkept.cache.congr hcache, fun p => ?_, fun p => ?_, fun block hfees => ?_⟩
  · rw [hcached]
    by_cases hp : p = pold.property
    · subst hp
      exact hkept.cached
    · rw [hkept.otherCached p hp]
      exact h.cached_nonneg p
  · have hle := h.outstanding_le p
    have houtstanding := hkept.outstanding p
    unfold State.outstanding at houtstanding hle ⊢
    rw [hposted.supply, hcached]
    split
    · next hp =>
        rw [if_pos hp] at houtstanding
        omega
    · next hp =>
        rw [if_neg hp] at houtstanding
        omega
  · -- the tokens of the ecosystems pay no fee
    have homni : ∀ q, q ≤ omniPropertyTMSC → s'.tallyMap.supply q = s.tallyMap.supply q := by
      intro q hq
      rw [hposted.supply, hstripped.omni q hq]
      split
      · next hsame =>
          rw [hstripped.free (hsame ▸ hq), sub_zero]
      · rw [sub_zero]
    rw [homni _ (by decide), homni _ le_rfl]
    rw [hparams] at hfees
    exact h.owners block hfees

/-- What the reserves lose in a fill, the book loses too. -/
theorem MdReserved.filled {price : ℚ} {k : OrderKey} {t t' : MdTrade} {pold : CMPMetaDEx}
    {got paid fee : Int} {s s' : State} {m : TallyMap} (h : MdReserved s)
    (hplace : MdPlaceOk t.pnew.desiredProperty price k pold)
    (htraded : TradedAt price k t s pold got paid t' s')
    (hkept : ∀ a p, m.money a p .metaDExReserve = s.tallyMap.money a p .metaDExReserve)
    (hposted : FillPosted pold t.pnew got paid fee m s'.tallyMap) : MdReserved s' := by
  intro a p
  have hleft : 0 ≤ pold.amountRemaining - got := sub_nonneg.mpr htraded.fill.got_le
  rw [hposted.reserve, hkept, h a p, mdReserved_congr htraded.book, mdReserved_setMdLevel,
    levelReserved_replace htraded.resting hplace.key hleft]
  split
  · ring
  · ring

section Fill

variable {new : CMPMetaDEx} {s0 : State} (hfits : IsInt64 new.block)
  (hapart : new.property ≠ new.desiredProperty)
  (hfrozen : s0.isAddressFrozen new.addr new.property = false)
include hfits hapart hfrozen

/-- **A FILL GOES THROUGH**, and leaves the market as it has to be. -/
theorem settleTrade_returns {t : MdTrade} {s : State} (h : TradingOk new s0 t s) {price : ℚ}
    {k : OrderKey} {pold : CMPMetaDEx} {got paid : Int}
    (hk : (s.mdLevel t.pnew.desiredProperty price)[k]? = some pold)
    (hwants : pold.desiredProperty = t.pnew.property) (hfill : FillOk pold t.pnew got paid) :
    wp (settleTrade price pold t.pnew got paid) (TradingOk new s0) (fun _ _ => False) s := by
  have hshape := h.loop.trade.shape
  have haddr : t.pnew.addr = new.addr := by rw [hshape]
  have hblock : t.pnew.block = new.block := by rw [hshape]
  have hproperty := h.loop.trade.property
  have hdesired := h.loop.trade.desiredProperty
  have hplace := h.loop.book _ _ _ _ hk
  have hsells : pold.property = t.pnew.desiredProperty := hplace.property
  have hcovers := h.reserved.covers h.loop.book hk
  have hgot := hfill.got_pos
  have hgot' := hfill.got_le
  have hpaid := hfill.paid_pos
  have hpaid' := hfill.paid_le
  have hpurse := h.purse
  unfold settleTrade
  rw [wp_bind]
  refine wp_imp (stripFee_returns (hblock.symm ▸ h.tokens) (hblock.symm ▸ hfits) hgot hsells
    (hgot'.trans hcovers)) fun fee s₁ hstripped => ?_
  have hkept := hstripped.kept
  have hother := hkept.other
  have hs₁ := hkept.beside
  have happart : t.pnew.property ≠ t.pnew.desiredProperty := by
    rw [hproperty, hdesired]
    exact hapart
  refine wp_fillPostings hsells hwants happart hpaid hstripped.nonneg hstripped.lt_got ?_ ?_ ?_ ?_ ?_
    fun m' hposted => ?_
  · rw [hother _ _ _ fun hh => happart hh.1, haddr, hproperty]
    omega
  · rw [haddr, hproperty, hs₁, h.beside]
    exact hfrozen
  · rw [hother _ _ _ fun hh => by cases hh.2]
    omega
  · rw [hkept.supply _ happart]
    exact h.tokens.supply_le _
  · have hle := h.tokens.outstanding_le pold.property
    have houtstanding := hkept.outstanding pold.property
    have hcached := hkept.cached
    rw [← hsells] at hcached
    rw [if_pos hsells] at houtstanding
    unfold State.outstanding at houtstanding hle
    omega
  simp only [recordMatchedTrade, wp_bind, wp_modify, wp_pure]
  generalize hs' : State.setMdLevel _ t.pnew.desiredProperty price _ = s'
  generalize ht' : MdTrade.mk _ _ _ = t'
  have htally : s'.tallyMap = m' := by rw [← hs']; rfl
  have hcache : s'.feeCache = s₁.feeCache := by rw [← hs']; rfl
  have hbook₁ : s₁.metadex = s.metadex := by rw [hs₁]
  have hparams : s'.params = s.params := by
    rw [← hs']
    show s₁.params = s.params
    rw [hs₁]
  have htraded : TradedAt price k t s pold got paid t' s' := by
    refine ⟨hk, hfill, by rw [← ht'], by rw [← ht'], ?_⟩
    -- the level that is rewritten is the one the fill began with
    rw [← hs']
    simp only [State.setMdLevel, State.mdLevel, State.mdPrices, State.withTally_metadex, hbook₁]
  rw [← htally] at hposted
  have hremaining : t'.pnew.amountRemaining = t.pnew.amountRemaining - paid := by
    rw [htraded.pnew]
  have htaker := hposted.taker
  rw [hother _ _ _ fun hh => happart hh.1, haddr, hproperty] at htaker
  rw [← hsells] at hstripped
  refine ⟨VisitEffect.loopOk (Or.inr ⟨pold, got, paid, htraded⟩) h.loop,
    h.reserved.filled hplace htraded (fun a p => hother a p _ fun hh => by cases hh.2) hposted,
    h.tokens.filled (hblock ▸ hstripped) hposted hcache hparams, by omega, ?_, ?_⟩
  · have hbeside := h.beside
    rw [← hs', hs₁, hbeside]
    rfl
  · intro p price' k' hnone
    rw [htraded.getElem?_mdLevel hplace.key, if_neg, h.places p price' k' hnone]
    rintro ⟨rfl, rfl, rfl⟩
    rw [h.places _ _ _ hnone] at hk
    cases hk

variable (hnew : new.Sound)
include hnew

/-- A visit passes over its place, or fills. -/
theorem visitOffer_returns {t : MdTrade} {s : State} (h : TradingOk new s0 t s) {price : ℚ}
    (hprice : price ≤ new.inversePrice) (k : OrderKey) :
    wp (visitOffer price t k) (TradingOk new s0) (fun _ _ => False) s :=
  visitOffer_rule hnew hapart h.loop hprice k (fun _ => h) fun _ _ hk hwants hfill =>
    settleTrade_returns hfits hapart hfrozen h hk hwants hfill

theorem visitLevel_returns {t : MdTrade} {s : State} (h : TradingOk new s0 t s) (price : ℚ) :
    wp (visitLevel t price) (TradingOk new s0) (fun _ _ => False) s := by
  unfold visitLevel
  rw [wp_ite]
  refine ⟨fun _ => (wp_pure _ _ _ _).mpr h, fun hgood => ?_⟩
  rw [not_or, not_lt] at hgood
  have hprice : price ≤ new.inversePrice := h.loop.trade.inversePrice ▸ hgood.2
  rw [wp_bind, wp_get]
  exact wp_foldlM (fun k _ _ _ hl => visitOffer_returns hfits hapart hfrozen hnew hl hprice k) h

/-- **THE WHOLE LOOP GOES THROUGH**, with all its fills. -/
theorem xTradeMetaDEx_returns (hbook : MdBookOk s0) (hreserved : MdReserved s0)
    (htokens : TokensOk new.block s0)
    (hpurse : new.amountRemaining ≤ s0.tallyMap.money new.addr new.property .balance) :
    wp (xTradeMetaDEx new) (TradingOk new s0) (fun _ _ => False) s0 := by
  unfold xTradeMetaDEx
  rw [wp_bind, wp_get]
  exact wp_foldlM (fun price _ _ _ hl => visitLevel_returns hfits hapart hfrozen hnew hl price)
    ⟨⟨TradeOk.start hnew, hbook⟩, hreserved, htokens, hpurse, rfl, fun _ _ _ h => h⟩

end Fill

end OmniCore
