import OmniCore.DExSteps
import OmniCore.DExUpdate

/-! # DExPayment — paying for an accept

    The price of an accept is the one its offer came with: in every run, the amounts of an
    accept are those of a transaction that put up an offer. A payment buys the rounded-up
    part of it, at most what is open, and works exactly if the desired amount fits into
    63 bits and the quotient into 64. -/

namespace OmniCore

open Std (ExtTreeMap)
open Machine TextRec MapSum Exec

/-! ## The terms of offers and accepts -/

/-- The amounts are those of an offer transaction among the events. -/
def OnTerms (events : List DExEvent) (txid : Txid) (offered desired : Int) : Prop :=
  ∃ tx, DExEvent.offer tx ∈ events ∧ tx.txid = txid ∧ offered = tx.nValue.toNat ∧
    desired = toInt64 tx.amountDesired.toNat ∧ 0 < tx.nValue.toNat ∧
    (tx.nValue.toNat : Int) ≤ maxInt64 ∧ tx.amountDesired ≠ 0

/-- Every offer and every accept is on such terms. -/
structure AllOnTerms (events : List DExEvent) (s : State) : Prop where
  offers : ∀ (key : Text) (offer : CMPOffer), s.offers[key]? = some offer →
    OnTerms events offer.txid offer.offerAmountOriginal offer.btcDesiredOriginal
  accepts : ∀ (key : Text) (accept : CMPAccept), s.accepts[key]? = some accept →
    OnTerms events accept.offerTxid accept.offerAmountOriginal accept.btcDesiredOriginal

/-- A change keeps the terms. -/
theorem DExChange.allOnTerms {events : List DExEvent} {e : DExEvent} {s s' : State}
    (hchange : DExChange e s s') (he : e ∈ events) (h : AllOnTerms events s) :
    AllOnTerms events s' := by
  cases hchange with
  | @created tx s m' hdesired hpos hvalue _ _ =>
      refine ⟨fun key offer hkey => ?_, h.accepts⟩
      have hget : (s.offers.insert (offerCombo tx.sender tx.property.toNat) tx.newOffer)[key]? =
        some offer := hkey
      rw [getElem?_insert_eq] at hget
      split at hget
      · cases hget
        unfold CMPTransaction.newOffer
        dsimp only
        exact ⟨tx, he, rfl, rfl, rfl, hpos, hvalue, hdesired⟩
      · exact h.offers key offer hget
  | @withdrawn tx s m' _ =>
      refine ⟨fun key offer hkey => ?_, h.accepts⟩
      have hget : (s.offers.erase (offerCombo tx.sender tx.property.toNat))[key]? =
        some offer := hkey
      rw [getElem?_erase_eq] at hget
      split at hget
      · cases hget
      · exact h.offers key offer hget
  | @accepted tx s m' seller offer amount hoffer _ _ _ =>
      refine ⟨h.offers, fun key accept hkey => ?_⟩
      have hget : (s.accepts.insert (acceptCombo seller tx.sender tx.property.toNat)
        (offer.acceptFor amount tx.block))[key]? = some accept := hkey
      rw [getElem?_insert_eq] at hget
      split at hget
      · -- an accept is on the terms of its offer
        cases hget
        exact h.offers _ offer hoffer
      · exact h.accepts key accept hget
  | @paid txid vout seller buyer amountPaid block s s' p accept amount hpaid _ _ _ hs' =>
      have hget := (paidAccept_some hpaid).2
      constructor
      · intro key offer hkey
        rw [hs'.offers] at hkey
        split at hkey
        · rw [getElem?_erase_eq] at hkey
          split at hkey
          · cases hkey
          · exact h.offers key offer hkey
        · exact h.offers key offer hkey
      · intro key a hkey
        rw [hs'.accepts] at hkey
        split at hkey
        · rw [getElem?_erase_eq] at hkey
          split at hkey
          · cases hkey
          · exact h.accepts key a hkey
        · rw [getElem?_insert_eq] at hkey
          split at hkey
          · cases hkey
            exact h.accepts _ accept hget
          · exact h.accepts key a hkey
  | @closed blockNow s m' seller buyer p accept _ _ =>
      refine ⟨h.offers, fun key a hkey => ?_⟩
      have hget : (s.accepts.erase (acceptCombo seller buyer p))[key]? = some a := hkey
      rw [getElem?_erase_eq] at hget
      split at hget
      · cases hget
      · exact h.accepts key a hget

/-- **ACCEPTS ARE ON THE TERMS OF OFFERS** in every run. -/
theorem DExRun.allOnTerms {c : ConsensusParams} {legacy : LegacyMath} {start s : State}
    {events : List DExEvent} (hrun : DExRun legacy start events s) (hstart : DExStart c start)
    (hmath : ∀ e ∈ events, e.MathActive c) : AllOnTerms events s := by
  refine hrun.induct hstart hmath ?_ ?_ ?_
  · constructor
    · intro key offer hkey
      rw [hstart.offers, ExtTreeMap.getElem?_empty] at hkey
      cases hkey
    · intro key accept hkey
      rw [hstart.accepts, ExtTreeMap.getElem?_empty] at hkey
      cases hkey
  · intro e he s s' _ hchange h
    exact hchange.allOnTerms he h
  · intro s s' hs' h
    constructor
    · rw [hs'.offers]
      exact h.offers
    · rw [hs'.accepts]
      exact h.accepts

/-! ## The purchased amount -/

/-- The purchase is computed, rounded up, just if the quotient fits into 64 bits. -/
theorem calculateDExPurchase_spec {offered desired paid : Int} (hoffered : 0 ≤ offered)
    (hoffered' : offered ≤ maxInt64) (hdesired : 0 < desired) (hpaid : 0 ≤ paid)
    (hpaid' : paid ≤ maxInt64) (s : State) :
    wp (calculateDExPurchase offered desired paid)
      (fun k s' => s' = s ∧ k = ⌈((paid * offered : Int) : ℚ) / desired⌉ ∧
        paid * offered ≤ maxInt64 * desired)
      (fun _ _ => maxInt64 * desired < paid * offered) s := by
  lift offered to Nat using hoffered
  lift paid to Nat using hpaid
  lift desired to Nat using hdesired.le
  have hd : 0 < desired := by exact_mod_cast hdesired
  have ho : offered < 2 ^ 63 := by
    unfold maxInt64 at hoffered'
    omega
  have hp : paid < 2 ^ 63 := by
    unfold maxInt64 at hpaid'
    omega
  have hmul : paid * offered < 2 ^ 63 * 2 ^ 63 := Nat.mul_lt_mul'' hp ho
  have hsmall : paid * offered < 2 ^ 255 := hmul.trans (by norm_num)
  have hceil : ⌈(((paid : Int) * (offered : Int) : Int) : ℚ) / ((desired : Int) : ℚ)⌉ =
      divideAndRoundUp (paid * offered) desired := by
    rw [← ceil_div_eq hd hsmall]
    push_cast
    rfl
  have hfits : ((divideAndRoundUp (paid * offered) desired : Nat) : Int) ≤ maxInt64 ↔
      (paid : Int) * offered ≤ maxInt64 * desired := by
    have hmax : maxInt64 = ((2 ^ 63 - 1 : Nat) : Int) := by decide
    rw [hmax]
    constructor
    · intro h
      have hnat := (divideAndRoundUp_le_iff hd hsmall).mp (Int.ofNat_le.mp h)
      exact_mod_cast hnat
    · intro h
      have hnat : paid * offered ≤ (2 ^ 63 - 1) * desired := by exact_mod_cast h
      exact Int.ofNat_le.mpr ((divideAndRoundUp_le_iff hd hsmall).mpr hnat)
  unfold calculateDExPurchase
  rw [wp_bind, wp_convertTo256]
  refine ⟨fun _ => ?_, fun hneg => absurd hneg (by omega)⟩
  rw [wp_bind, wp_convertTo256]
  refine ⟨fun _ => ?_, fun hneg => absurd hneg (by omega)⟩
  rw [wp_bind, wp_convertTo256]
  refine ⟨fun _ => ?_, fun hneg => absurd hneg (by omega)⟩
  rw [Int.toNat_natCast, Int.toNat_natCast, Int.toNat_natCast, mul256_eq (by omega) (by omega),
    wp_convertTo64]
  refine ⟨fun hle => ⟨rfl, hceil.symm, hfits.mp hle⟩, fun hlt => ?_⟩
  by_contra hno
  exact absurd (hfits.mpr (not_lt.mp hno)) (not_le.mpr hlt)

/-- A negative desired amount is refused by the conversion. -/
theorem calculateDExPurchase_negative {offered desired paid : Int} (hoffered : 0 ≤ offered)
    (hdesired : desired < 0) (s : State) :
    wp (calculateDExPurchase offered desired paid) (fun _ _ => False) (fun _ _ => True) s := by
  unfold calculateDExPurchase
  rw [wp_bind, wp_convertTo256]
  refine ⟨fun _ => ?_, fun hneg => absurd hneg (by omega)⟩
  rw [wp_bind, wp_convertTo256]
  exact ⟨fun hno => absurd hno (by omega), fun _ => trivial⟩

/-! ## Payments -/

/-- As a payment should be: it returns, and for an accept it moves the rounded-up part of the offer that
    was paid for, at most what is open, from the seller's reserve to the buyer. The amounts are the
    unsigned ones of the transaction that put up the offer. -/
def PaysRight (legacy : LegacyMath) (events : List DExEvent) (txid : Txid) (vout : Nat)
    (seller buyer : Address) (amountPaid : Int) (block : Nat) (s : State) : Prop :=
  ∃ r s', dexPayment legacy txid vout seller buyer amountPaid block s = .ok r s' ∧
    ∀ (p : PropertyId) (accept : CMPAccept), s.paidAccept seller buyer = some (p, accept) →
      ∃ tx, DExEvent.offer tx ∈ events ∧ tx.txid = accept.offerTxid ∧
        ∃ amount, amount = min accept.acceptAmountRemaining
            ⌈((amountPaid * tx.nValue.toNat : Int) : ℚ) / tx.amountDesired.toNat⌉ ∧
          ∀ a q t, s'.tallyMap.money a q t = s.tallyMap.money a q t
            - (if a = seller ∧ q = p ∧ t = .acceptReserve then amount else 0)
            + (if a = buyer ∧ q = p ∧ t = .balance then amount else 0)

/-- If there is an accept to pay for, its desired amount is positive as a signed number, and what was
    paid buys less than 2^63 tokens. -/
def PaymentFits (seller buyer : Address) (amountPaid : Int) (s : State) : Prop :=
  ∀ (p : PropertyId) (accept : CMPAccept), s.paidAccept seller buyer = some (p, accept) →
    0 < accept.btcDesiredOriginal ∧
      amountPaid * accept.offerAmountOriginal ≤ maxInt64 * accept.btcDesiredOriginal

/-- **WHEN PAYMENTS ARE RIGHT**: exactly if the desired amount is a positive signed number and the quotient
    fits into 64 bits. -/
theorem paysRight_iff {c : ConsensusParams} {legacy : LegacyMath} {start s : State}
    {events : List DExEvent} (hstart : DExStart c start) (hrun : DExRun legacy start events s)
    (hmath : ∀ e ∈ events, e.MathActive c) {block : Nat}
    (hblock : c.isFeatureActivated .dexMath block = true) (txid : Txid) (vout : Nat)
    (seller buyer : Address) {amountPaid : Int} (hpaid : 0 ≤ amountPaid)
    (hpaid' : amountPaid ≤ 2100000000000000) :
    PaysRight legacy events txid vout seller buyer amountPaid block s ↔
      PaymentFits seller buyer amountPaid s := by
  have hinv := hrun.inv hstart hmath
  have hterms := hrun.allOnTerms hstart hmath
  have hmax : amountPaid ≤ maxInt64 := hpaid'.trans (by decide)
  constructor
  · rintro ⟨r, s', hok, _⟩ p accept haccept
    obtain ⟨tx, _, _, hoffered, hdesired, hpos, hvalue, hne⟩ :=
      hterms.accepts _ accept (paidAccept_some haccept).2
    have hnonzero : accept.btcDesiredOriginal ≠ 0 := by
      rw [hdesired]
      intro hzero
      exact hne ((toInt64_toNat_eq_zero _).mp hzero)
    obtain ⟨k, hcalculated, _⟩ :=
      wp_ok (dexPayment_effect legacy hinv txid vout amountPaid hblock haccept hnonzero) hok
    rcases lt_or_gt_of_ne hnonzero with hneg | hpositive
    · exact (wp_ok (calculateDExPurchase_negative (by omega) hneg s) hcalculated).elim
    · have hlow : 0 ≤ accept.offerAmountOriginal := by omega
      have hhigh : accept.offerAmountOriginal ≤ maxInt64 := by omega
      have hspec := wp_ok (calculateDExPurchase_spec hlow hhigh hpositive hpaid hmax s) hcalculated
      exact ⟨hpositive, hspec.2.2⟩
  · intro hfits
    cases haccept : s.paidAccept seller buyer with
    | none =>
        have hrefused : wp (dexPayment legacy txid vout seller buyer amountPaid block)
            (fun _ _ => True) (fun _ _ => False) s := by
          unfold dexPayment
          rw [wp_bind, wp_get, haccept]
          exact (wp_pure _ _ _ _).mpr trivial
        obtain ⟨r, s', hok, _⟩ := wp_returns hrefused
        refine ⟨r, s', hok, fun p accept hsome => ?_⟩
        rw [haccept] at hsome
        cases hsome
    | some found =>
        obtain ⟨p, accept⟩ := found
        obtain ⟨hpositive, hfit⟩ := hfits p accept haccept
        obtain ⟨tx, htx, htxid, hoffered, hdesired, hpos, hvalue, _⟩ :=
          hterms.accepts _ accept (paidAccept_some haccept).2
        have hlow : 0 ≤ accept.offerAmountOriginal := by omega
        have hhigh : accept.offerAmountOriginal ≤ maxInt64 := by omega
        have hspec := calculateDExPurchase_spec hlow hhigh hpositive hpaid hmax s
        -- the amount is computed, so the payment returns
        have hreturns : wp (dexPayment legacy txid vout seller buyer amountPaid block)
            (fun _ s' => ∃ calculated, calculateDExPurchase accept.offerAmountOriginal
                accept.btcDesiredOriginal amountPaid s = .ok calculated s ∧
              PaidBy seller buyer p accept (min accept.acceptAmountRemaining calculated) s s')
            (fun _ _ => False) s := by
          refine wp_mono (dexPayment_effect legacy hinv txid vout amountPaid hblock haccept
            hpositive.ne') (fun _ _ hdone => hdone) ?_
          intro e s' herror
          exact absurd (wp_error hspec herror) (not_lt.mpr hfit)
        obtain ⟨r, s', hok, calculated, hcalculated, heffect⟩ := wp_returns hreturns
        refine ⟨r, s', hok, fun p' accept' hsome => ?_⟩
        rw [haccept] at hsome
        cases hsome
        obtain ⟨_, hceil, _⟩ := wp_ok hspec hcalculated
        refine ⟨tx, htx, htxid, _, ?_, heffect.money⟩
        have hunsigned : accept.btcDesiredOriginal = tx.amountDesired.toNat := by
          rw [hdesired]
          rw [hdesired] at hpositive
          exact toInt64_toNat_of_pos hpositive
        rw [hceil, hoffered, hunsigned]
        push_cast
        rfl

/-! ## A price that is no signed number -/

/-- `B` accepts 20 of what `A` offers. -/
def acceptTx : CMPTransaction :=
  { txid := 33, block := 11, sender := traderB, receiver := some traderA, type := 22, nValue := 20
    property := 1 }

/-- `A` offers 50 OMNI for 2^63 satoshi. -/
def unpayableTx : CMPTransaction :=
  { txid := 34, block := 10, sender := traderA, type := 20, version := 1, nValue := 50, property := 1
    amountDesired := 9223372036854775808, blocktimelimit := 10, subaction := 1 }

/-- The node after an offer and the accept. -/
def acceptedState (tx : CMPTransaction) : State :=
  after ((DExEvent.accept acceptTx).run noLegacyMath)
    (after ((DExEvent.offer tx).run noLegacyMath) fundedState)

/-- An offer and the accept are a run, if both return. -/
theorem accepted_run {tx : CMPTransaction}
    (hoffer : value ((DExEvent.offer tx).run noLegacyMath) fundedState = some ())
    (haccept : value ((DExEvent.accept acceptTx).run noLegacyMath)
      (after ((DExEvent.offer tx).run noLegacyMath) fundedState) = some ()) :
    DExRun noLegacyMath fundedState [.offer tx, .accept acceptTx] (acceptedState tx) :=
  (DExRun.start.event (eq_ok_of_value hoffer)).event (eq_ok_of_value haccept)

theorem accepted_mathActive (tx : CMPTransaction) :
    ∀ e ∈ [DExEvent.offer tx, DExEvent.accept acceptTx], e.MathActive openParams := by
  intro e he
  rw [List.mem_cons, List.mem_singleton] at he
  rcases he with rfl | rfl
  · exact decide_eq_true (Nat.zero_le tx.block)
  · trivial

set_option maxRecDepth 4000 in
theorem paysRight_iff_accepted :
    (acceptedState offerTx).paidAccept traderA traderB ≠ none ∧
      PaysRight noLegacyMath [.offer offerTx, .accept acceptTx] 8 0 traderA traderB 200 12
        (acceptedState offerTx) := by
  have hpaid : (acceptedState offerTx).paidAccept traderA traderB =
      some (1, offerTx.newOffer.acceptFor 20 11) := by decide +kernel
  refine ⟨by rw [hpaid]; exact Option.some_ne_none _, ?_⟩
  refine (paysRight_iff funded_start (accepted_run (by decide +kernel) (by decide +kernel))
    (accepted_mathActive offerTx) (by decide +kernel) 8 0 traderA traderB (by decide)
    (by decide)).mpr ?_
  intro p accept haccept
  rw [hpaid] at haccept
  cases haccept
  exact ⟨by decide, by decide⟩

set_option maxRecDepth 4000 in
/-- **A PRICE OF 2^63 SATOSHI** is accepted off the wire and stored as a negative number; the first
    payment for it fails an assertion. -/
theorem unpayable_halts :
    DExStart openParams fundedState ∧
      DExRun noLegacyMath fundedState [.offer unpayableTx, .accept acceptTx]
        (acceptedState unpayableTx) ∧
      (∀ e ∈ [DExEvent.offer unpayableTx, .accept acceptTx], e.MathActive openParams) ∧
      openParams.isFeatureActivated .dexMath 12 = true ∧
      ¬PaysRight noLegacyMath [.offer unpayableTx, .accept acceptTx] 8 0 traderA traderB 1 12
        (acceptedState unpayableTx) := by
  refine ⟨funded_start, accepted_run (by decide +kernel) (by decide +kernel),
    accepted_mathActive unpayableTx, by decide +kernel, ?_⟩
  rintro ⟨r, s', hok, _⟩
  have hhalts : value (dexPayment noLegacyMath 8 0 traderA traderB 1 12)
      (acceptedState unpayableTx) = none := by decide +kernel
  unfold value at hhalts
  rw [hok] at hhalts
  cases hhalts

end OmniCore
