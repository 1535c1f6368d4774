import OmniCore.FeeCache
import OmniCore.ContractDex

/-! # MetaDEx — the market of tokens for tokens

    `MetaDEx_ADD` matches a new order against the resting ones with `x_Trade`, level by
    level, and puts the remainder into the book. The tokens of a new order stay in its
    balance until it rests; those of a resting order are in `METADEX_RESERVE`. Orders
    leave the book by being filled, by four kinds of cancels and by a shutdown. -/

namespace OmniCore

open Std (ExtTreeMap)
open Machine TextRec MapSum Exec

/-! ## Orders and levels -/

namespace CMPMetaDEx

/-- The place of an order within a price level. -/
def key (o : CMPMetaDEx) : OrderKey := (o.block, o.idx)

/-- Price of one token in the desired property; 0 without an amount for sale. -/
def unitPrice (o : CMPMetaDEx) : ℚ := (o.amountDesired : ℚ) / o.amountForsale

/-- The price the other way round. -/
def inversePrice (o : CMPMetaDEx) : ℚ := (o.amountForsale : ℚ) / o.amountDesired

end CMPMetaDEx

/-- The orders of one property, by price. -/
def State.mdPrices (s : State) (p : PropertyId) : MdPricesMap := (s.metadex[p]?).getD ∅

/-- The orders of one price level. -/
def State.mdLevel (s : State) (p : PropertyId) (price : ℚ) : MdSet :=
  ((s.mdPrices p)[price]?).getD ∅

/-- Writes one price level. -/
def State.setMdLevel (s : State) (p : PropertyId) (price : ℚ) (set : MdSet) : State :=
  { s with metadex := s.metadex.insert p ((s.mdPrices p).insert price set) }

/-- `MetaDEx_INSERT`: refused if the place is taken. -/
def metaDExInsert (o : CMPMetaDEx) : ExecM Bool := do
  let s ← get
  let indexes := s.mdLevel o.property o.unitPrice
  if indexes.contains o.key then
    pure false
  else
    set (s.setMdLevel o.property o.unitPrice (indexes.insert o.key o))
    pure true

/-! ## Matching -/

/-- `CMPTradeList::recordMatchedTrade`. -/
def recordMatchedTrade (txid1 txid2 : Txid) (address1 address2 : Address) (prop1 prop2 : PropertyId)
    (amount1 amount2 : Int) (blockNum fee : Int) : ExecM Unit :=
  modify fun s => { s with
    tradeList := s.tradeList.insert (txidText txid1 ++ '+' :: txidText txid2) (joinWith ':'
      [address1.text, address2.text, decNat prop1, decNat prop2, decInt (toUInt64 amount1),
       decInt (toUInt64 amount2), decInt blockNum, decInt fee]) }

/-- What the new order can buy of a resting one, at the price of the latter, rounded down. -/
def couldBuy (pold pnew : CMPMetaDEx) : ExecM Int := do
  let newRemaining ← convertTo256 pnew.amountRemaining
  let forsale ← convertTo256 pold.amountForsale
  let desired ← convertTo256 pold.amountDesired
  let oldRemaining ← convertTo256 pold.amountRemaining
  let iCouldBuy := mul256 newRemaining forsale / desired
  if iCouldBuy < oldRemaining then convertTo64 iCouldBuy
  else pure pold.amountRemaining

/-- What has to be paid for it, rounded up. -/
def wouldPay (pold : CMPMetaDEx) (nCouldBuy : Int) : ExecM Int := do
  let buy ← convertTo256 nCouldBuy
  let desired ← convertTo256 pold.amountDesired
  let forsale ← convertTo256 pold.amountForsale
  convertTo64 (divideAndRoundUp (mul256 buy desired) forsale)

/-- The 0.05% fee of a trade between two properties other than OMNI and TOMNI; it goes to the fee
    cache before the tokens are moved. -/
def stripFee (pold pnew : CMPMetaDEx) (buyerAmountGot : Int) : ExecM Int := do
  let s ← get
  if s.params.isFeatureActivated .fees pnew.block ∧ omniPropertyTMSC < pold.property ∧
      omniPropertyTMSC < pold.desiredProperty then
    let tradingFee := buyerAmountGot.tdiv 2000
    addFee pnew.desiredProperty pnew.block tradingFee
    pure tradingFee
  else
    pure 0

/-- The level after a trade: the matched order is replaced by what is left of it. -/
def mdReplaceMatched (level : MdSet) (replacement : CMPMetaDEx) : MdSet :=
  if 0 < replacement.amountRemaining then
    (level.erase replacement.key).insert replacement.key replacement
  else
    level.erase replacement.key

/-- The variables of `x_Trade` that change: the new order, `bBuyerSatisfied` and `NewReturn`. -/
structure MdTrade where
  pnew : CMPMetaDEx
  satisfied : Bool
  ret : MatchReturnType

/-- The trade of `buyerAmountGot` for `sellerAmountGot` with a resting order. -/
def executeTrade (price : ℚ) (pold pnew : CMPMetaDEx) (buyerAmountGot sellerAmountGot : Int) :
    ExecM MdTrade := do
  let buyerAmountLeft := pnew.amountRemaining - sellerAmountGot
  let sellerAmountLeft := pold.amountRemaining - buyerAmountGot
  let effectivePrice : ℚ := (sellerAmountGot : ℚ) / buyerAmountGot
  -- postconditions
  assertThat .condition (decide (pold.unitPrice ≤ effectivePrice))
  assertThat .condition (decide (effectivePrice ≤ pnew.inversePrice))
  assertThat .condition (decide (0 ≤ sellerAmountLeft))
  assertThat .condition (decide (0 ≤ buyerAmountLeft))
  let tradingFee ← stripFee pold pnew buyerAmountGot
  -- transfer the payment property from buyer to seller
  assertUpdate pnew.addr pnew.property (-sellerAmountGot) .balance
  assertUpdate pold.addr pold.desiredProperty sellerAmountGot .balance
  -- transfer the market (the one being sold) property from seller to buyer
  assertUpdate pold.addr pold.property (-buyerAmountGot) .metaDExReserve
  assertUpdate pnew.addr pnew.desiredProperty (buyerAmountGot - tradingFee) .balance
  recordMatchedTrade pold.txid pnew.txid pold.addr pnew.addr pold.desiredProperty
    pnew.desiredProperty sellerAmountGot (buyerAmountGot - tradingFee) pnew.block tradingFee
  modify fun s => s.setMdLevel pnew.desiredProperty price
    (mdReplaceMatched (s.mdLevel pnew.desiredProperty price)
      { pold with amountRemaining := sellerAmountLeft })
  pure {
    pnew := { pnew with amountRemaining := buyerAmountLeft }
    satisfied := decide (buyerAmountLeft = 0)
    ret := if 0 < sellerAmountLeft then .tradedMoreInSeller
      else if 0 < buyerAmountLeft then .tradedMoreInBuyer else .traded }

/-- One resting order of a good price level. -/
def matchOffer (price : ℚ) (t : MdTrade) (pold : CMPMetaDEx) : ExecM MdTrade := do
  let pnew := t.pnew
  assertThat .condition (decide (pold.unitPrice = price))
  if pold.desiredProperty ≠ pnew.property then
    pure t
  else
    -- preconditions
    assertThat .condition (decide (0 < pold.amountRemaining))
    assertThat .condition (decide (0 < pnew.amountRemaining))
    assertThat .condition (decide (pnew.property ≠ pnew.desiredProperty))
    assertThat .condition (decide (pold.property = pnew.desiredProperty))
    assertThat .condition (decide (pold.unitPrice ≤ pnew.inversePrice))
    assertThat .condition (decide (pnew.unitPrice ≤ pold.inversePrice))
    let nCouldBuy ← couldBuy pold pnew
    if nCouldBuy = 0 then
      pure t
    else
      let nWouldPay ← wouldPay pold nCouldBuy
      -- the adjusted unit price must not be higher than the price of the new order
      if pnew.inversePrice < (nWouldPay : ℚ) / nCouldBuy then
        pure t
      else
        executeTrade price pold pnew nCouldBuy nWouldPay

/-- The order at the iterator; nothing happens once the buyer is satisfied. -/
def visitOffer (price : ℚ) (t : MdTrade) (k : OrderKey) : ExecM MdTrade := do
  if t.satisfied then
    pure t
  else
    let s ← get
    match (s.mdLevel t.pnew.desiredProperty price)[k]? with
    | some pold => matchOffer price t pold
    | none => pure t

/-- One price level. An order that is replaced keeps its place behind the iterator, so the level is
    walked along the places it had at first. -/
def visitLevel (t : MdTrade) (price : ℚ) : ExecM MdTrade := do
  if t.satisfied ∨ t.pnew.inversePrice < price then
    pure t
  else
    let s ← get
    ((s.mdLevel t.pnew.desiredProperty price).toList.map Prod.fst).foldlM (visitOffer price) t

/-- `x_Trade`: all price levels of the desired property. -/
def xTradeMetaDEx (pnew : CMPMetaDEx) : ExecM MdTrade := do
  let s ← get
  ((s.mdPrices pnew.desiredProperty).toList.map Prod.fst).foldlM visitLevel
    ⟨pnew, false, .nothing⟩

/-- A new order. -/
def newMetaDExOrder (addr : Address) (property : PropertyId) (amount : Int) (block : Nat)
    (propertyDesired : PropertyId) (amountDesired : Int) (txid : Txid) (idx subaction : Nat) :
    CMPMetaDEx :=
  { addr, block, txid, idx, property, amountForsale := amount, desiredProperty := propertyDesired,
    amountDesired, amountRemaining := amount, subaction }

/-- Moves the tokens of an order that comes to rest into the reserve. -/
def reserveRemaining (o : CMPMetaDEx) : ExecM Unit := do
  assertUpdate o.addr o.property (-o.amountRemaining) .balance
  assertUpdate o.addr o.property o.amountRemaining .metaDExReserve

/-- `MetaDEx_ADD`, for an order built from its parameters. -/
def metaDExAdd (new : CMPMetaDEx) : ExecM Int := do
  -- a badly priced trade
  if new.unitPrice ≤ 0 then
    pure (metaDExError - 66)
  else
    let t ← xTradeMetaDEx new
    if 0 < t.pnew.amountRemaining then
      let inserted ← metaDExInsert t.pnew
      if inserted then
        reserveRemaining t.pnew
        pure 0
      else
        pure (metaDExError - 70)
    else
      pure 0

/-! ## Cancels and shutdown -/

/-- A resting order with its place in the book. -/
structure MdPlaced where
  property : PropertyId
  price : ℚ
  key : OrderKey
  order : CMPMetaDEx

/-- All resting orders, in the order of the nested maps. -/
def State.mdOrders (s : State) : List MdPlaced :=
  s.metadex.toList.flatMap fun prices => prices.2.toList.flatMap fun indexes =>
    indexes.2.toList.map fun e => ⟨prices.1, indexes.1, e.1, e.2⟩

/-- Takes one order out of the book; a cancel is recorded, a shutdown is not. -/
def removeOrder (cancel : Option (Txid × Nat)) (e : MdPlaced) : ExecM Unit := do
  assertUpdate e.order.addr e.order.property (-e.order.amountRemaining) .metaDExReserve
  assertUpdate e.order.addr e.order.property e.order.amountRemaining .balance
  match cancel with
  | some (txid, block) =>
      recordMetaDExCancelTX txid e.order.txid true block e.order.property e.order.amountRemaining
  | none => pure ()
  modify fun s => s.setMdLevel e.property e.price ((s.mdLevel e.property e.price).erase e.key)

/-- Cancels the orders that are selected; `rc` is the answer if there are none. -/
def cancelOrders (txid : Txid) (block : Nat) (rc : Int) (sel : MdPlaced → Bool) : ExecM Int := do
  let s ← get
  let orders := s.mdOrders.filter sel
  orders.forM (removeOrder (some (txid, block)))
  pure (if orders.isEmpty then rc else 0)

/-- `MetaDEx_CANCEL_AT_PRICE`; `mdex` is the order built from the parameters. -/
def metaDExCancelAtPrice (txid : Txid) (block : Nat) (mdex : CMPMetaDEx) : ExecM Int := do
  let s ← get
  if s.metadex.contains mdex.property then
    cancelOrders txid block (metaDExError - 20) fun e =>
      e.property == mdex.property && e.price == mdex.unitPrice
        && e.order.desiredProperty == mdex.desiredProperty && e.order.addr == mdex.addr
  else
    pure (metaDExError - 20 - 1)

/-- `MetaDEx_CANCEL_ALL_FOR_PAIR`. -/
def metaDExCancelAllForPair (txid : Txid) (block : Nat) (senderAddr : Address)
    (prop propertyDesired : PropertyId) : ExecM Int := do
  let s ← get
  if s.metadex.contains prop then
    cancelOrders txid block (metaDExError - 30) fun e =>
      e.property == prop && e.order.desiredProperty == propertyDesired
        && e.order.addr == senderAddr
  else
    pure (metaDExError - 30 - 1)

/-- `MetaDEx_CANCEL_EVERYTHING`. -/
def metaDExCancelEverything (txid : Txid) (block : Nat) (senderAddr : Address) (ecosystem : Nat) :
    ExecM Int :=
  cancelOrders txid block (metaDExError - 40) fun e =>
    !(isMainEcosystemProperty ecosystem && !isMainEcosystemProperty e.property)
      && !(isTestEcosystemProperty ecosystem && !isTestEcosystemProperty e.property)
      && e.order.addr == senderAddr

/-- `MetaDEx_SHUTDOWN`. -/
def metaDExShutdown : ExecM Int := do
  let s ← get
  s.mdOrders.forM (removeOrder none)
  pure 0

/-- `MetaDEx_SHUTDOWN_ALLPAIR`. The iterator does not advance at an order with OMNI or TOMNI on one
    side, so the loop never ends there. -/
def metaDExShutdownAllPair : ExecM Int := do
  let s ← get
  s.mdOrders.forM fun e =>
    if omniPropertyTMSC < e.order.desiredProperty ∧ omniPropertyTMSC < e.order.property then
      removeOrder none e
    else
      throw .outOfFuel
  pure 0

end OmniCore
