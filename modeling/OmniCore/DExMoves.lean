import OmniCore.DExTx
import OmniCore.TokenMoves

/-! # DExMoves — the market for bitcoin only moves tokens

    Tokens go from the balance of a seller to the reserve of the offer, on to the reserve
    of an accept, and from there to the buyer or back. Whatever the amounts are, the number
    of tokens stays, and the one balance that is debited is that of the seller who makes
    the offer. -/

namespace OmniCore

open Machine TextRec MapSum Exec

section DEx

variable {height : Int} {σ : Settings} {legacy : LegacyMath}

/-! ## Offers -/

theorem moves_dexOfferCreate (seller : Address) (p : PropertyId) (amountOffered : Int) (block : Nat)
    (amountDesired minAcceptFee : Int) (paymentWindow : Nat) (txid : Txid)
    (hfree : σ.isAddressFrozen seller p = false) :
    Moves height σ 0 (fun _ => True) (dexOfferCreate legacy seller p amountOffered block
      amountDesired minAcceptFee paymentWindow txid) := by
  refine Counts.ite (fun _ => Counts.pure trivial) fun _ => ?_
  refine Counts.ite (fun _ => Counts.pure trivial) fun _ => ?_
  refine Counts.get fun t s hs => ?_
  refine Counts.ite (fun _ => Counts.pure trivial) fun _ => ?_
  refine Counts.ite (fun _ => Counts.pure trivial) fun _ => ?_
  split
  refine Counts.ite (fun hpos => ?_) fun _ => Counts.pure trivial
  refine moves_pair _ _ _ hpos.le holds_balance holds_sellOfferReserve (fun _ => hfree) ?_
  exact Counts.seq (moves_modify fun _ => ⟨rfl, rfl, rfl, rfl⟩) fun _ _ => Counts.pure trivial

theorem moves_dexOfferDestroy (seller : Address) (p : PropertyId) :
    Moves height σ 0 (fun _ => True) (dexOfferDestroy seller p) := by
  have hforget : Moves height σ 0 (fun _ => True) (do
      modify fun s => { s with offers := s.offers.erase (offerCombo seller p) }
      pure 0 : ExecM Int) :=
    Counts.seq (moves_modify fun _ => ⟨rfl, rfl, rfl, rfl⟩) fun _ _ => Counts.pure trivial
  refine Counts.get fun t s hs => ?_
  refine Counts.ite (fun _ => Counts.pure trivial) fun _ => ?_
  refine Counts.ite (fun hpos => ?_) fun _ => hforget
  exact moves_pair _ _ _ hpos.le holds_sellOfferReserve holds_balance (fun hty => by cases hty) hforget

theorem moves_dexOfferUpdate (seller : Address) (p : PropertyId) (amountOffered : Int) (block : Nat)
    (amountDesired minAcceptFee : Int) (paymentWindow : Nat) (txid : Txid)
    (hfree : σ.isAddressFrozen seller p = false) :
    Moves height σ 0 (fun _ => True) (dexOfferUpdate legacy seller p amountOffered block
      amountDesired minAcceptFee paymentWindow txid) := by
  refine Counts.get fun t s hs => ?_
  refine Counts.ite (fun _ => Counts.pure trivial) fun _ => ?_
  refine Counts.seq (moves_dexOfferDestroy seller p) fun _ _ => ?_
  exact Counts.ite (fun _ => moves_dexOfferCreate _ _ _ _ _ _ _ _ hfree) fun _ => Counts.pure trivial

/-! ## Accepts -/

theorem moves_dexAcceptCreate (buyer seller : Address) (p : PropertyId) (amountAccepted : Int)
    (block : Nat) (feePaid : Int) :
    Moves height σ 0 (fun _ => True) (dexAcceptCreate buyer seller p amountAccepted block feePaid) := by
  refine Counts.get fun t s hs => ?_
  split
  · exact Counts.pure trivial
  refine Counts.ite (fun _ => Counts.pure trivial) fun _ => ?_
  refine Counts.ite (fun _ => Counts.pure trivial) fun _ => ?_
  refine Counts.ite (fun hpos => ?_) fun _ => Counts.pure trivial
  refine moves_pair _ _ _ hpos.le holds_sellOfferReserve holds_acceptReserve
    (fun hty => by cases hty) ?_
  exact Counts.seq (moves_modify fun _ => ⟨rfl, rfl, rfl, rfl⟩) fun _ _ => Counts.pure trivial

theorem moves_dexAcceptDestroy (buyer seller : Address) (p : PropertyId) (fForceErase : Bool) :
    Moves height σ 0 (fun _ => True) (dexAcceptDestroy buyer seller p fForceErase) := by
  have hforget : Moves height σ 0 (fun _ => True) (do
      if fForceErase then
        modify fun s => { s with accepts := s.accepts.erase (acceptCombo seller buyer p) }
      pure 0 : ExecM Int) := by
    refine Counts.ite (fun _ => ?_) fun _ => Counts.pure trivial
    exact Counts.seq (moves_modify fun _ => ⟨rfl, rfl, rfl, rfl⟩) fun _ _ => Counts.pure trivial
  refine Counts.get fun t s hs => ?_
  split
  · exact Counts.pure trivial
  refine Counts.ite (fun hpos => ?_) fun _ => hforget
  refine moves_pair _ _ _ hpos.le holds_acceptReserve ?_ (fun hty => by cases hty) hforget
  split
  · exact holds_balance
  · exact holds_sellOfferReserve

/-! ## Payments -/

theorem moves_calculateDExPurchase (amountOffered amountDesired amountPaid : Int) :
    Moves height σ 0 (fun _ => True)
      (calculateDExPurchase amountOffered amountDesired amountPaid) := by
  refine Counts.seq (moves_convertTo256 _) fun _ _ => ?_
  refine Counts.seq (moves_convertTo256 _) fun _ _ => ?_
  refine Counts.seq (moves_convertTo256 _) fun _ _ => ?_
  exact (moves_convertTo64 _).imp fun _ _ => trivial

theorem moves_recordPaymentTX (txid : Txid) (valid : Bool) (block vout : Nat) (p : PropertyId)
    (nValue : Int) (buyer seller : Address) :
    Moves height σ 0 (fun _ => True)
      (recordPaymentTX txid valid block vout p nValue buyer seller) :=
  Counts.get fun _ _ _ => moves_modify fun _ => ⟨rfl, rfl, rfl, rfl⟩

/-- An accept that was paid for in full is destroyed, and its offer with it if nothing is left. -/
theorem moves_settleAccept (buyer seller : Address) (p : PropertyId) (paid : Prop) [Decidable paid]
    (r : Int × Option Int) :
    Moves height σ 0 (fun _ => True) (do
      if paid then
        let s ← get
        let reserveSell := s.getMPbalance seller p .sellOfferReserve
        let reserveAccept := s.getMPbalance seller p .acceptReserve
        let _ ← dexAcceptDestroy buyer seller p true
        if reserveSell = 0 ∧ reserveAccept = 0 then
          let _ ← dexOfferDestroy seller p
      pure r : ExecM (Int × Option Int)) := by
  refine Counts.ite (fun _ => Counts.get fun _ _ _ => ?_) fun _ => Counts.pure trivial
  refine Counts.seq (moves_dexAcceptDestroy buyer seller p true) fun _ _ => ?_
  exact Counts.ite (fun _ => Counts.seq (moves_dexOfferDestroy seller p) fun _ _ => Counts.pure trivial)
    fun _ => Counts.pure trivial

/-- The purchased tokens go to the buyer, and the accept is written back. -/
theorem moves_payAccept (txid : Txid) (vout : Nat) (seller buyer : Address) (block : Nat)
    (p : PropertyId) (accept : CMPAccept) (purchased : Int × Option Int) :
    Moves height σ 0 (fun _ => True) (do
      if 0 < purchased.1 then
        assertUpdate seller p (-purchased.1) .acceptReserve
        assertUpdate buyer p purchased.1 .balance
        recordPaymentTX txid true block vout p purchased.1 buyer seller
      modify fun s => { s with
        accepts := s.accepts.insert (acceptCombo seller buyer p) (accept.reduce purchased.1) }
      if accept.acceptAmountRemaining ≤ purchased.1 then
        let s ← get
        let reserveSell := s.getMPbalance seller p .sellOfferReserve
        let reserveAccept := s.getMPbalance seller p .acceptReserve
        let _ ← dexAcceptDestroy buyer seller p true
        if reserveSell = 0 ∧ reserveAccept = 0 then
          let _ ← dexOfferDestroy seller p
      pure (if 0 < purchased.1 then 0 else dexErrorPayment, purchased.2) :
        ExecM (Int × Option Int)) := by
  refine Counts.ite (fun hpos => ?_) fun _ => ?_
  · refine moves_pair _ _ _ hpos.le holds_acceptReserve holds_balance (fun hty => by cases hty) ?_
    refine Counts.seq (moves_recordPaymentTX _ _ _ _ _ _ _ _) fun _ _ => ?_
    exact Counts.seq (moves_modify fun _ => ⟨rfl, rfl, rfl, rfl⟩) fun _ _ => moves_settleAccept _ _ _ _ _
  · exact Counts.seq (moves_modify fun _ => ⟨rfl, rfl, rfl, rfl⟩) fun _ _ => moves_settleAccept _ _ _ _ _

theorem moves_dexPayment (txid : Txid) (vout : Nat) (seller buyer : Address) (amountPaid : Int)
    (block : Nat) :
    Moves height σ 0 (fun _ => True) (dexPayment legacy txid vout seller buyer amountPaid block) := by
  refine Counts.get fun t s hs => ?_
  split
  · exact Counts.pure trivial
  refine Counts.ite (fun _ => Counts.pure trivial) fun _ => ?_
  refine Counts.join (R := fun _ => True) (fun _ => moves_calculateDExPurchase _ _ _)
    (fun _ => trivial) fun calculated _ => ?_
  exact moves_payAccept txid vout seller buyer block _ _ _

/-! ## Expiry -/

theorem moves_eraseExpiredAccepts (blockNow : Nat) :
    Moves height σ 0 (fun _ => True) (eraseExpiredAccepts blockNow) := by
  refine Counts.get fun t s hs => Counts.forM trivial fun e _ => ?_
  refine Counts.ite (fun _ => ?_) fun _ => Counts.pure trivial
  split
  · exact Counts.throw (by decide)
  · refine Counts.seq (moves_dexAcceptDestroy _ _ _ false) fun _ _ => ?_
    exact moves_modify fun _ => ⟨rfl, rfl, rfl, rfl⟩

/-! ## Transactions -/

variable {tx : CMPTransaction}

theorem moves_logicMathTradeOffer (hfree : σ.isAddressFrozen tx.sender tx.property.toNat = false) :
    Moves height σ 0 (fun _ => True) (logicMathTradeOffer legacy tx) := by
  have hcreate : Moves height σ 0 (fun _ => True) (tx.createOffer legacy) :=
    moves_dexOfferCreate _ _ _ _ _ _ _ _ hfree
  have hupdate : Moves height σ 0 (fun _ => True) (tx.updateOffer legacy) :=
    moves_dexOfferUpdate _ _ _ _ _ _ _ _ hfree
  have hdestroy : Moves height σ 0 (fun _ => True) tx.destroyOffer :=
    Counts.seq (moves_dexOfferDestroy _ _) fun _ _ => Counts.pure trivial
  refine ⟨fun {t s} hs => ?_⟩
  refine wp_tradeOffer (fun code => ⟨trivial, ?_⟩) (fun _ _ => hcreate.run hs)
    (fun _ => hupdate.run hs) fun _ _ => hdestroy.run hs
  rwa [add_zero]

theorem moves_logicMathAcceptOfferBTC :
    Moves height σ 0 (fun _ => True) (logicMathAcceptOfferBTC tx) := by
  refine Counts.get fun t s hs => ?_
  refine Counts.ite (fun _ => Counts.pure trivial) fun _ => ?_
  refine Counts.ite (fun _ => Counts.pure trivial) fun _ => ?_
  split
  · exact Counts.pure trivial
  · exact moves_dexAcceptCreate _ _ _ _ _ _

end DEx

end OmniCore
