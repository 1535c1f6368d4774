import OmniCore.DExTx

/-! # DExUpdate — offers that are replaced

    An update withdraws the old offer and returns its reserve before anything about the
    new one is checked. If the creation is then rejected, the transaction fails, and the
    old offer is gone all the same. All other failures leave the DEx as it was. -/

namespace OmniCore

open Std (ExtTreeMap)
open Machine TextRec MapSum Exec

/-- A transaction that fails leaves offers, accepts and tallies as they were. -/
def FailsAtomically (legacy : LegacyMath) (tx : CMPTransaction) (s : State) : Prop :=
  ∀ r s', logicMathTradeOffer legacy tx s = .ok r s' → r.1 ≠ 0 →
    s'.offers = s.offers ∧ s'.accepts = s.accepts ∧ s'.tallyMap = s.tallyMap

/-- The creation of the offer is rejected, for a seller who has this much available. -/
def CreationRejected (c : ConsensusParams) (tx : CMPTransaction) (available : Int) : Prop :=
  tx.blocktimelimit = 0 ∨ tx.amountDesired = 0 ∨ tx.nValue = 0 ∨ available = 0 ∨
    c.isFeatureActivated .dexMath tx.block = true ∧ available < tx.nValue.toNat

/-- An update whose second half is rejected: what is available then is the balance with the reserve
    of the old offer. -/
def UpdateRejected (s : State) (tx : CMPTransaction) : Prop :=
  TakesUpdate s tx ∧ CreationRejected s.params tx
    (s.tallyMap.money tx.sender tx.property.toNat .balance +
      s.tallyMap.money tx.sender tx.property.toNat .sellOfferReserve)

section Creation

variable {legacy : LegacyMath} {tx : CMPTransaction} {s : State}

/-- **WHAT A CREATION DOES**, once there is no offer: it is rejected for the reasons above only, and then
    nothing has changed. -/
theorem createOffer_spec (hnone : s.getOffer tx.sender tx.property.toNat = none)
    (hvalue : (tx.nValue.toNat : Int) ≤ maxInt64) :
    wp (tx.createOffer legacy)
      (fun r s' => (r.1 ≠ 0 ↔ CreationRejected s.params tx
        (s.tallyMap.money tx.sender tx.property.toNat .balance)) ∧ (r.1 ≠ 0 → s' = s))
      (fun _ _ => ¬CreationRejected s.params tx
        (s.tallyMap.money tx.sender tx.property.toNat .balance)) s := by
  have hamount : toInt64 tx.nValue.toNat = tx.nValue.toNat := by
    refine toInt64_natCast ?_
    unfold maxInt64 at hvalue
    omega
  have hnonneg := s.tallyMap.money_nonneg tx.sender tx.property.toNat
    (show TallyType.balance ≠ .pending by simp)
  have hrejected : ∀ r : Int × Option Int, r.1 ≠ 0 → CreationRejected s.params tx
      (s.tallyMap.money tx.sender tx.property.toNat .balance) →
      wp (pure r : ExecM (Int × Option Int))
        (fun r s' => (r.1 ≠ 0 ↔ CreationRejected s.params tx
          (s.tallyMap.money tx.sender tx.property.toNat .balance)) ∧ (r.1 ≠ 0 → s' = s))
        (fun _ _ => ¬CreationRejected s.params tx
          (s.tallyMap.money tx.sender tx.property.toNat .balance)) s := by
    intro r hr hreason
    exact (wp_pure _ _ _ _).mpr ⟨iff_of_true hr hreason, fun _ => rfl⟩
  unfold CMPTransaction.createOffer dexOfferCreate
  rw [hamount, wp_ite]
  refine ⟨fun hwindow => hrejected _ (by decide) (Or.inl (UInt8.toNat_inj.mp hwindow)), ?_⟩
  intro hwindow
  rw [wp_ite]
  refine ⟨fun hdesired => hrejected _ (by decide)
    (Or.inr (Or.inl ((toInt64_toNat_eq_zero _).mp hdesired))), fun hdesired => ?_⟩
  rw [wp_bind, wp_get, hnone, if_neg (by decide), s.getMPbalance_eq _ _ (by simp)]
  dsimp only
  rw [wp_ite]
  refine ⟨fun hshort => hrejected _ (by decide) (Or.inr (Or.inr (Or.inr (Or.inr hshort)))), ?_⟩
  intro hshort
  rw [wp_ite]
  constructor
  · -- something is offered, and there is something
    intro hpos
    have haccepted : ¬CreationRejected s.params tx
        (s.tallyMap.money tx.sender tx.property.toNat .balance) := by
      rintro (hzero | hzero | hzero | hzero | hless)
      · exact hwindow (by rw [hzero]; rfl)
      · exact hdesired ((toInt64_toNat_eq_zero _).mpr hzero)
      · rw [hzero] at hpos
        split at hpos
        · next hless =>
            have hno : s.tallyMap.money tx.sender tx.property.toNat .balance < 0 := hless
            omega
        · exact absurd hpos (by decide)
      · rw [hzero] at hpos
        split at hpos
        · exact absurd hpos (by decide)
        · next hless =>
            have hno : ¬(0 : Int) < (tx.nValue.toNat : Int) := hless
            exact hno hpos
      · exact hshort hless
    rw [wp_bind]
    refine wp_assertUpdate (fun _ m₁ _ => ?_) fun _ _ _ _ => haccepted
    rw [wp_bind]
    refine wp_assertUpdate (fun _ m₂ _ => ?_) fun _ _ _ _ => haccepted
    rw [wp_bind, wp_modify, wp_pure]
    exact ⟨iff_of_false (fun hne => hne rfl) haccepted, fun hne => absurd rfl hne⟩
  · -- nothing is offered, or nothing is there
    intro hzero
    refine hrejected _ (show dexErrorSellOffer ≠ 0 by decide) (Or.inr (Or.inr ?_))
    split at hzero
    · exact Or.inr (Or.inl (le_antisymm (not_lt.mp hzero) hnonneg))
    · refine Or.inl (UInt64.toNat_inj.mp ?_)
      have hno : ¬(0 : Int) < (tx.nValue.toNat : Int) := hzero
      show tx.nValue.toNat = 0
      omega

end Creation

/-- **WITHDRAWING AN OFFER** gives its reserve back. -/
theorem dexOfferDestroy_returns {s : State} {seller : Address} {p : PropertyId}
    (hoffer : (s.getOffer seller p).isSome = true) (hsupply : s.tallyMap.supply p ≤ maxInt64) :
    wp (dexOfferDestroy seller p) (fun rc s' => rc = 0 ∧ s'.params = s.params ∧
        s'.offers = s.offers.erase (offerCombo seller p) ∧
        s'.tallyMap.money seller p .balance =
          s.tallyMap.money seller p .balance + s.tallyMap.money seller p .sellOfferReserve)
      (fun _ _ => False) s := by
  have hnonneg := s.tallyMap.money_nonneg seller p
    (show TallyType.sellOfferReserve ≠ .pending by simp)
  unfold dexOfferDestroy
  rw [wp_bind, wp_get, if_neg (by rw [← Option.not_isSome, hoffer]; decide),
    s.getMPbalance_eq seller p (by simp)]
  dsimp only
  rw [wp_ite]
  constructor
  · intro hpos
    refine wp_move hpos le_rfl trivial trivial hsupply (by simp) ?_
    intro m' hm
    rw [wp_bind, wp_modify, wp_pure]
    refine ⟨rfl, rfl, rfl, ?_⟩
    show m'.money seller p .balance = _
    rw [hm.money_dst (by simp), if_pos ⟨rfl, rfl⟩]
  · intro hzero
    rw [wp_bind, wp_modify, wp_pure]
    refine ⟨rfl, rfl, rfl, ?_⟩
    show s.tallyMap.money seller p .balance = _
    omega

/-- **AN UPDATE** fails just if the creation is rejected, and then the old offer is gone. -/
theorem updateOffer_spec {legacy : LegacyMath} {tx : CMPTransaction} {s : State}
    (h : TakesUpdate s tx) (hsupply : s.tallyMap.supply tx.property.toNat ≤ maxInt64) :
    wp (tx.updateOffer legacy)
      (fun r s' => (r.1 ≠ 0 ↔ UpdateRejected s tx) ∧
        (r.1 ≠ 0 → s'.offers = s.offers.erase (offerCombo tx.sender tx.property.toNat)))
      (fun _ _ => ¬UpdateRejected s tx) s := by
  unfold CMPTransaction.updateOffer dexOfferUpdate
  rw [wp_bind, wp_get, if_neg (by rw [← Option.not_isSome, h.offer]; decide), wp_bind]
  refine wp_mono (dexOfferDestroy_returns h.offer hsupply) ?_ fun _ _ hno => hno.elim
  rintro rc s' ⟨rfl, hparams, hoffers, hmoney⟩
  rw [if_pos rfl]
  have hnone : s'.getOffer tx.sender tx.property.toNat = none := by
    unfold State.getOffer
    rw [hoffers, getElem?_erase_eq, if_pos rfl]
  have hreason : CreationRejected s'.params tx
      (s'.tallyMap.money tx.sender tx.property.toNat .balance) ↔ UpdateRejected s tx := by
    rw [hparams, hmoney]
    exact ⟨fun hrejected => ⟨h, hrejected⟩, fun hrejected => hrejected.2⟩
  refine wp_mono (createOffer_spec hnone h.allowed.value) ?_ ?_
  · intro r s'' ⟨hcode, hsame⟩
    refine ⟨hcode.trans hreason, fun hne => ?_⟩
    rw [hsame hne, hoffers]
  · intro _ _ hno hrejected
    exact hno (hreason.mpr hrejected)

/-- **WHEN OFFER TRANSACTIONS FAIL ATOMICALLY**: always, but for an update that is rejected after the
    old offer was withdrawn. -/
theorem failsAtomically_iff {c : ConsensusParams} {legacy : LegacyMath} {start s : State}
    {events : List DExEvent} (hstart : DExStart c start) (hrun : DExRun legacy start events s)
    (tx : CMPTransaction) : FailsAtomically legacy tx s ↔ ¬UpdateRejected s tx := by
  have hsupply : ∀ p, IsOmni p → s.tallyMap.supply p ≤ maxInt64 := (hrun.supply hstart).2
  constructor
  · intro hatomic hrejected
    have htakes := hrejected.1
    have hspec := @updateOffer_spec legacy _ _ htakes (hsupply _ htakes.allowed.omni)
    -- it returns, with an error and without the offer
    have hreturns : wp (tx.updateOffer legacy) (fun r s' => r.1 ≠ 0 ∧
        s'.offers = s.offers.erase (offerCombo tx.sender tx.property.toNat))
        (fun _ _ => False) s := by
      refine wp_mono hspec ?_ fun _ _ hno => hno hrejected
      intro r s' ⟨hcode, hgone⟩
      exact ⟨hcode.mpr hrejected, hgone (hcode.mpr hrejected)⟩
    obtain ⟨r, s', hok, hne, hgone⟩ := wp_returns hreturns
    rw [← htakes.eq legacy] at hok
    have hsame := (hatomic r s' hok hne).1
    have hoffer := htakes.offer
    unfold State.getOffer at hoffer
    rw [← hsame, hgone, getElem?_erase_eq, if_pos rfl] at hoffer
    cases hoffer
  · intro haccepted r s' hok hne
    have hspec : wp (logicMathTradeOffer legacy tx) (fun r s' => r.1 ≠ 0 → s' = s)
        (fun _ _ => True) s := by
      refine wp_tradeOffer (fun _ _ => rfl) ?_ ?_ ?_
      · intro hallowed hnone
        exact wp_mono (createOffer_spec hnone hallowed.value) (fun _ _ h => h.2) fun _ _ _ => trivial
      · intro htakes
        refine wp_mono (updateOffer_spec htakes (hsupply _ htakes.allowed.omni)) ?_
          fun _ _ _ => trivial
        intro r s' ⟨hcode, _⟩ hne
        exact absurd (hcode.mp hne) haccepted
      · intro hallowed hoffer
        unfold CMPTransaction.destroyOffer
        rw [wp_bind]
        refine wp_mono (dexOfferDestroy_returns hoffer (hsupply _ hallowed.omni)) ?_
          fun _ _ _ => trivial
        rintro rc s' ⟨rfl, _⟩
        exact (wp_pure _ _ _ _).mpr fun hne => absurd rfl hne
    have hunchanged := wp_ok hspec hok
    have hsame : s' = s := hunchanged hne
    rw [hsame]
    exact ⟨rfl, rfl, rfl⟩

/-! ## An offer is lost -/

/-- `A` offers 50 OMNI for 1000. -/
def offerTx : CMPTransaction :=
  { txid := 31, block := 10, sender := traderA, type := 20, version := 1, nValue := 50, property := 1
    amountDesired := 1000, blocktimelimit := 10, subaction := 1 }

/-- `A` replaces the offer by one without a payment window. -/
def windowlessTx : CMPTransaction :=
  { txid := 32, block := 11, sender := traderA, type := 20, version := 1, nValue := 40, property := 1
    amountDesired := 1000, blocktimelimit := 0, subaction := 2 }

/-- The node after the offer. -/
def offeredState : State := after ((DExEvent.offer offerTx).run noLegacyMath) fundedState

set_option maxRecDepth 4000 in
theorem offered_run : DExRun noLegacyMath fundedState [.offer offerTx] offeredState := by
  have hok : (DExEvent.offer offerTx).run noLegacyMath fundedState = .ok () offeredState :=
    eq_ok_of_value (by decide +kernel)
  exact DExRun.start.event hok

set_option maxRecDepth 4000 in
theorem failsAtomically_iff_offered :
    DExStart openParams fundedState ∧
      DExRun noLegacyMath fundedState [.offer offerTx] offeredState ∧
      (FailsAtomically noLegacyMath windowlessTx offeredState ↔
        ¬UpdateRejected offeredState windowlessTx) :=
  ⟨funded_start, offered_run, failsAtomically_iff funded_start offered_run windowlessTx⟩

set_option maxRecDepth 4000 in
/-- **A REJECTED UPDATE LOSES THE OFFER**: the update has no payment window, it is refused, and the
    offer it should have replaced is gone. -/
theorem windowless_loses_offer :
    DExStart openParams fundedState ∧
      DExRun noLegacyMath fundedState [.offer offerTx] offeredState ∧
      ¬FailsAtomically noLegacyMath windowlessTx offeredState := by
  refine ⟨funded_start, offered_run, fun hatomic => ?_⟩
  have hcode : value (logicMathTradeOffer noLegacyMath windowlessTx) offeredState =
      some (-10101, none) := by decide +kernel
  have hsame := (hatomic _ _ (eq_ok_of_value hcode) (by decide)).1
  have hbefore : (offeredState.getOffer traderA 1).isSome = true := by decide +kernel
  have hafter : ((after (logicMathTradeOffer noLegacyMath windowlessTx) offeredState).getOffer
      traderA 1).isSome = false := by decide +kernel
  unfold State.getOffer at hbefore hafter
  rw [hsame, hbefore] at hafter
  cases hafter

end OmniCore
