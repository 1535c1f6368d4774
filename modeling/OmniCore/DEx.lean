import OmniCore.Supply
import OmniCore.Transaction

/-! # DEx — tokens for bitcoin

    A seller offers OMNI or TOMNI for bitcoin; the offered tokens wait in `SELLOFFER_RESERVE`.
    A buyer accepts a part of an offer, which moves to `ACCEPT_RESERVE` until the bitcoins
    arrive or the accept expires. Offers and accepts are kept under text keys, and an accept
    may outlive its offer. -/

namespace OmniCore

open Std (ExtTreeMap)
open Machine TextRec MapSum Exec

/-! ## Keys -/

/-- `STR_SELLOFFER_ADDR_PROP_COMBO`. -/
def offerCombo (address : Address) (propertyId : PropertyId) : Text :=
  address.text ++ '-' :: decNat propertyId

/-- `STR_ACCEPT_ADDR_PROP_ADDR_COMBO`. -/
def acceptCombo (seller buyer : Address) (propertyId : PropertyId) : Text :=
  seller.text ++ '-' :: (decNat propertyId ++ '+' :: buyer.text)

/-- Separators of the parts of a key. -/
def isComboMark (c : Char) : Bool := c == '-' || c == '+'

/-- Seller, property and buyer of an accept key. A part that is no address is not in any key. -/
def acceptParties (key : Text) : Option (Address × PropertyId × Address) :=
  match split isComboMark key with
  | addressSeller :: propertyId :: addressBuyer :: _ =>
      match Address.ofText? addressSeller, Address.ofText? addressBuyer with
      | some seller, some buyer => some (seller, (atoi propertyId).toNat, buyer)
      | _, _ => none
  | _ => none

namespace State

/-- `DEx_getOffer`. -/
def getOffer (s : State) (seller : Address) (propertyId : PropertyId) : Option CMPOffer :=
  s.offers[offerCombo seller propertyId]?

/-- `DEx_getAccept`. -/
def getAccept (s : State) (seller : Address) (propertyId : PropertyId) (buyer : Address) :
    Option CMPAccept :=
  s.accepts[acceptCombo seller buyer propertyId]?

end State

/-! ## Error codes -/

/-- `DEX_ERROR_SELLOFFER`. -/
def dexErrorSellOffer : Int := -10000

/-- `DEX_ERROR_ACCEPT`. -/
def dexErrorAccept : Int := -20000

/-- `DEX_ERROR_PAYMENT`. -/
def dexErrorPayment : Int := -30000

/-! ## Offers -/

/-- The calculations in floating point that were used before `FEATURE_DEXMATH`. -/
structure LegacyMath where
  calculateDesiredBTC : Int → Int → Int → Int
  calculateDExPurchase : Int → Int → Int → Int

/-- `DEx_offerCreate`, with the amount that replaces the offered one. -/
def dexOfferCreate (legacy : LegacyMath) (addressSeller : Address) (propertyId : PropertyId)
    (amountOffered : Int) (block : Nat) (amountDesired minAcceptFee : Int) (paymentWindow : Nat)
    (txid : Txid) : ExecM (Int × Option Int) := do
  if paymentWindow = 0 then
    pure (dexErrorSellOffer - 101, none)
  else if amountDesired = 0 then
    pure (dexErrorSellOffer - 101, none)
  else
    let s ← get
    if (s.getOffer addressSeller propertyId).isSome then
      pure (dexErrorSellOffer - 10, none)
    else
      let balanceReallyAvailable := s.getMPbalance addressSeller propertyId .balance
      if s.params.isFeatureActivated .dexMath block ∧ balanceReallyAvailable < amountOffered then
        pure (dexErrorSellOffer - 25, none)
      else
        -- if offering more than available -- put everything up on sale
        let (amountDesired, amountOffered, nAmended) :=
          if balanceReallyAvailable < amountOffered then
            (legacy.calculateDesiredBTC amountOffered amountDesired balanceReallyAvailable,
              balanceReallyAvailable, some balanceReallyAvailable)
          else (amountDesired, amountOffered, none)
        if 0 < amountOffered then
          assertUpdate addressSeller propertyId (-amountOffered) .balance
          assertUpdate addressSeller propertyId amountOffered .sellOfferReserve
          modify fun s => { s with
            offers := s.offers.insert (offerCombo addressSeller propertyId)
              { offerBlock := block, offerAmountOriginal := amountOffered, property := propertyId
                btcDesiredOriginal := amountDesired, minFee := minAcceptFee
                blocktimelimit := paymentWindow, txid := txid, subaction := 0 } }
          pure (0, nAmended)
        else
          pure (dexErrorSellOffer, nAmended)

/-- `DEx_offerDestroy`. -/
def dexOfferDestroy (addressSeller : Address) (propertyId : PropertyId) : ExecM Int := do
  let s ← get
  if (s.getOffer addressSeller propertyId).isNone then
    pure (dexErrorSellOffer - 11)
  else
    let amountReserved := s.getMPbalance addressSeller propertyId .sellOfferReserve
    -- return the remaining reserved amount back to the seller
    if 0 < amountReserved then
      assertUpdate addressSeller propertyId (-amountReserved) .sellOfferReserve
      assertUpdate addressSeller propertyId amountReserved .balance
    modify fun s => { s with offers := s.offers.erase (offerCombo addressSeller propertyId) }
    pure 0

/-- `DEx_offerUpdate`. -/
def dexOfferUpdate (legacy : LegacyMath) (addressSeller : Address) (propertyId : PropertyId)
    (amountOffered : Int) (block : Nat) (amountDesired minAcceptFee : Int) (paymentWindow : Nat)
    (txid : Txid) : ExecM (Int × Option Int) := do
  let s ← get
  if (s.getOffer addressSeller propertyId).isNone then
    pure (dexErrorSellOffer - 12, none)
  else
    let rc ← dexOfferDestroy addressSeller propertyId
    if rc = 0 then
      dexOfferCreate legacy addressSeller propertyId amountOffered block amountDesired minAcceptFee
        paymentWindow txid
    else
      pure (rc, none)

/-! ## Accepts -/

/-- `DEx_acceptCreate`, with the amount that was reserved. -/
def dexAcceptCreate (addressBuyer addressSeller : Address) (propertyId : PropertyId)
    (amountAccepted : Int) (block : Nat) (feePaid : Int) : ExecM (Int × Option Int) := do
  let s ← get
  match s.getOffer addressSeller propertyId with
  | none => pure (dexErrorAccept - 15, none)
  | some offer =>
      -- the older accept is the valid one: do not accept any new ones!
      if (s.getAccept addressSeller propertyId addressBuyer).isSome then
        pure (dexErrorAccept - 205, none)
      else if feePaid < offer.minFee then
        pure (dexErrorAccept - 105, none)
      else
        let amountRemainingForSale := s.getMPbalance addressSeller propertyId .sellOfferReserve
        let amountReserved :=
          if amountAccepted ≤ amountRemainingForSale then amountAccepted else amountRemainingForSale
        if 0 < amountReserved then
          assertUpdate addressSeller propertyId (-amountReserved) .sellOfferReserve
          assertUpdate addressSeller propertyId amountReserved .acceptReserve
          modify fun s => { s with
            accepts := s.accepts.insert (acceptCombo addressSeller addressBuyer propertyId)
              { acceptAmountOriginal := amountReserved, acceptAmountRemaining := amountReserved
                blocktimelimit := offer.blocktimelimit, property := offer.property
                offerAmountOriginal := offer.offerAmountOriginal
                btcDesiredOriginal := offer.btcDesiredOriginal, offerTxid := offer.txid
                block := block } }
          pure (0, some amountReserved)
        else
          pure (dexErrorAccept - 10, some amountReserved)

/-- If the offer is gone, the reserve of an accept goes back to the balance, otherwise to the
    offer. An offer with another hash is some random new one. -/
def State.returnToMoney (s : State) (addressSeller : Address) (propertyId : PropertyId)
    (accept : CMPAccept) : Bool :=
  match s.getOffer addressSeller propertyId with
  | none => true
  | some offer => offer.txid != accept.offerTxid

/-- `DEx_acceptDestroy`. An iterator loop erases the accept itself. -/
def dexAcceptDestroy (addressBuyer addressSeller : Address) (propertyId : PropertyId)
    (fForceErase : Bool) : ExecM Int := do
  let s ← get
  match s.getAccept addressSeller propertyId addressBuyer with
  | none => pure (dexErrorAccept - 20)
  | some accept =>
      let fReturnToMoney := s.returnToMoney addressSeller propertyId accept
      let amountRemaining := accept.acceptAmountRemaining
      if 0 < amountRemaining then
        assertUpdate addressSeller propertyId (-amountRemaining) .acceptReserve
        assertUpdate addressSeller propertyId amountRemaining
          (if fReturnToMoney then .balance else .sellOfferReserve)
      if fForceErase then
        modify fun s => { s with
          accepts := s.accepts.erase (acceptCombo addressSeller addressBuyer propertyId) }
      pure 0

/-! ## Payments -/

/-- `calculateDExPurchase`: rounded up, in favour of the buyer. -/
def calculateDExPurchase (amountOffered amountDesired amountPaid : Int) : ExecM Int := do
  let amountOffered256 ← convertTo256 amountOffered
  let amountDesired256 ← convertTo256 amountDesired
  let amountPaid256 ← convertTo256 amountPaid
  convertTo64 (divideAndRoundUp (mul256 amountPaid256 amountOffered256) amountDesired256)

/-- The first record of a payment, and the count that goes into the master record. -/
def recordPaymentTX (txid : Txid) (valid : Bool) (block vout : Nat) (propertyId : PropertyId)
    (nValue : Int) (buyer seller : Address) : ExecM Unit := do
  let s ← get
  let paymentNumber := ((existingCount s.txList (txidText txid)).getD 0) + 1
  modify fun s => { s with
    txList := (s.txList.insert (txidText txid) (joinWith ':'
        [decNat (if valid then 1 else 0), decNat block, decNat 99999999, decInt paymentNumber])).insert
      (txidText txid ++ '-' :: decInt paymentNumber) (joinWith ':'
        [decNat vout, buyer.text, seller.text, decNat propertyId, decInt (toUInt64 nValue)]) }

/-- The accept a payment is for: OMNI first, then TOMNI. -/
def State.paidAccept (s : State) (addressSeller addressBuyer : Address) :
    Option (PropertyId × CMPAccept) :=
  match s.getAccept addressSeller omniPropertyMSC addressBuyer with
  | some accept => some (omniPropertyMSC, accept)
  | none =>
      match s.getAccept addressSeller omniPropertyTMSC addressBuyer with
      | some accept => some (omniPropertyTMSC, accept)
      | none => none

/-- `reduceAcceptAmountRemaining_andIsZero`, without the answer. -/
def CMPAccept.reduce (accept : CMPAccept) (reallyPurchased : Int) : CMPAccept :=
  { accept with acceptAmountRemaining := accept.acceptAmountRemaining - reallyPurchased }

/-- `DEx_payment`, with the amount that replaces the purchased one. -/
def dexPayment (legacy : LegacyMath) (txid : Txid) (vout : Nat)
    (addressSeller addressBuyer : Address) (amountPaid : Int) (block : Nat) :
    ExecM (Int × Option Int) := do
  let s ← get
  match s.paidAccept addressSeller addressBuyer with
  | none => pure (dexErrorPayment - 1, none)
  | some (propertyId, accept) =>
      -- divide by 0 protection
      if accept.btcDesiredOriginal = 0 then
        pure (dexErrorPayment - 2, none)
      else
        let calculated ←
          if s.params.isFeatureActivated .dexMath block then
            calculateDExPurchase accept.offerAmountOriginal accept.btcDesiredOriginal amountPaid
          else
            pure (legacy.calculateDExPurchase accept.offerAmountOriginal accept.btcDesiredOriginal
              amountPaid)
        let amountRemaining := accept.acceptAmountRemaining
        let (amountPurchased, nAmended) :=
          if amountRemaining < calculated then (amountRemaining, some amountRemaining)
          else (calculated, none)
        if 0 < amountPurchased then
          assertUpdate addressSeller propertyId (-amountPurchased) .acceptReserve
          assertUpdate addressBuyer propertyId amountPurchased .balance
          recordPaymentTX txid true block vout propertyId amountPurchased addressBuyer addressSeller
        modify fun s => { s with
          accepts := s.accepts.insert (acceptCombo addressSeller addressBuyer propertyId)
            (accept.reduce amountPurchased) }
        -- if nothing is desired any more, destroy the accept
        if amountRemaining ≤ amountPurchased then
          let s ← get
          let reserveSell := s.getMPbalance addressSeller propertyId .sellOfferReserve
          let reserveAccept := s.getMPbalance addressSeller propertyId .acceptReserve
          let _ ← dexAcceptDestroy addressBuyer addressSeller propertyId true
          -- delete the offer if there is nothing in its reserves
          if reserveSell = 0 ∧ reserveAccept = 0 then
            let _ ← dexOfferDestroy addressSeller propertyId
        pure (if 0 < amountPurchased then 0 else dexErrorPayment, nAmended)

/-! ## Expiry -/

/-- One accept of the loop over all of them. -/
def eraseIfExpired (blockNow : Nat) (e : Text × CMPAccept) : ExecM Unit := do
  let blocksSinceAccept : Int := (blockNow : Int) - e.2.block
  if (e.2.blocktimelimit : Int) ≤ blocksSinceAccept then
    match acceptParties e.1 with
    | none => throw .undefinedBehaviour
    | some (addressSeller, propertyId, addressBuyer) =>
        let _ ← dexAcceptDestroy addressBuyer addressSeller propertyId false
        modify fun s => { s with accepts := s.accepts.erase e.1 }

/-- `eraseExpiredAccepts`. -/
def eraseExpiredAccepts (blockNow : Nat) : ExecM Unit := do
  let s ← get
  s.accepts.toList.forM (eraseIfExpired blockNow)

end OmniCore
