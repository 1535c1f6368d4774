import OmniCore.Transaction

/-! # ContractDex — matching, settlement and margin calls

    The contract market in the order the code runs: `ContractDex_ADD` matches a new
    order against the book with `x_Trade`, every match settles positions, margin and
    profit, writes a trade record, sets the market price and then runs `marginLogic`,
    which places liquidation orders through `ContractDex_ADD` again — in the middle
    of the outer match, before the matched order is erased.

    The recursion through margin calls need not end, so `xTradeLoop` carries fuel.
    A `World` is the node state plus ghosts the code does not have: the calls of
    `x_Trade` that are still running, and a trace of what happened. -/

namespace OmniCore

open Std (ExtTreeMap)
open Machine TextRec MapSum Exec

/-! ## Constants -/

/-- `BUY`. -/
def actionBuy : Nat := 1

/-- `SELL`. -/
def actionSell : Nat := 2

/-- `ACTIONINVALID`. -/
def actionInvalid : Nat := 3

/-- `percentLiqPrice`, set by every contract trade. -/
def percentLiqPrice : ℚ := roundDouble (15 / 100)

/-- `CMPTransaction::ADD`. -/
def subactionAdd : Nat := 1

/-! ## The trade database -/

/-- `CMPTradeList::recordNewTrade`. -/
def recordNewTrade (txid : Txid) (address : Address) (propertyIdForSale propertyIdDesired : PropertyId)
    (blockNum blockIndex : Int) : ExecM Unit :=
  modify fun s => { s with
    tradeList := s.tradeList.insert (txidText txid) (joinWith ':'
      [address.text, decNat propertyIdForSale, decNat propertyIdDesired, decInt blockNum,
       decInt blockIndex]) }

/-- The state of a party after a match, as it is recorded. -/
inductive MatchStatus
  | netted
  | longNetted
  | shortNetted
  | none
  deriving DecidableEq, Repr

/-- The text of a status. -/
def MatchStatus.text : MatchStatus → Text
  | .netted => ['N', 'e', 't', 't', 'e', 'd']
  | .longNetted => ['L', 'o', 'n', 'g', ' ', 'N', 'e', 't', 't', 'e', 'd']
  | .shortNetted => ['S', 'h', 'o', 'r', 't', ' ', 'N', 'e', 't', 't', 'e', 'd']
  | .none => ['N', 'o', 'n', 'e']

theorem isField_status (st : MatchStatus) : IsField st.text := by
  have hfree : ∀ st : MatchStatus, st.text.all (fun c => !isColon c) = true := by
    intro st
    cases st <;> rfl
  refine ⟨fun c hc => ?_, by cases st <;> decide⟩
  simpa using List.all_eq_true.mp (hfree st) c hc

/-- `CMPTradeList::recordMatchedTrade` for contracts. -/
def recordMatchedContract (txid1 txid2 : Txid) (address1 address2 : Address) (effectivePrice : Nat)
    (amountForsale amountStillForsale : Int) (blockNum1 blockNum2 : Int)
    (status1 status2 : MatchStatus) (livesMaker livesTaker : Int) (propertyTraded : PropertyId) :
    ExecM Unit :=
  modify fun s => { s with
    tradeList := s.tradeList.insert (txidText txid1 ++ '+' :: txidText txid2) (joinWith ':'
      [address1.text, address2.text, decNat effectivePrice, decInt (toUInt64 amountForsale),
       decInt (toUInt64 amountStillForsale), decInt blockNum1, decInt blockNum2, status1.text,
       status2.text, decInt livesMaker, decInt livesTaker, decNat propertyTraded]) }

/-- The counters of the scan in `getTradeBasis`. -/
structure BasisScan where
  totalContracts : Int
  totalAmount : Int
  totalAux : Int
  pCouldBuy : Int

/-- `CMPTradeList::getTradeBasis`, from the record at hand on: only records of 13 fields count,
    the first `aux` contracts are skipped, and the scan stops at the first record after
    `contractsClosed` contracts were found. -/
def tradeBasisScan (address : Address) (contractsClosed : Int) (property : PropertyId) (aux : Int) :
    List Text → BasisScan → ExecM Int
  | [], st => pure st.totalAmount
  | value :: rest, st =>
      match split isColon value with
      | [a1, a2, price, amount, _, _, _, _, _, _, _, _, _] =>
          if a1 ≠ address.text ∧ a2 ≠ address.text then
            tradeBasisScan address contractsClosed property aux rest st
          else
            match castInt 64 price, castInt 64 amount with
            | some effectivePrice, some nCouldBuy =>
                if aux > st.totalAux ∧ ¬ nCouldBuy > aux - st.totalAux then
                  tradeBasisScan address contractsClosed property aux rest
                    { st with totalAux := st.totalAux + nCouldBuy }
                else
                  let st := if aux > st.totalAux then
                      { st with pCouldBuy := nCouldBuy - (aux - st.totalAux), totalAux := aux }
                    else st
                  if contractsClosed > st.totalContracts then
                    let n := if st.pCouldBuy > 0 then st.pCouldBuy else nCouldBuy
                    let take := if n > contractsClosed - st.totalContracts
                      then contractsClosed - st.totalContracts else n
                    tradeBasisScan address contractsClosed property aux rest
                      { st with
                        totalAmount := toInt64 (st.totalAmount + effectivePrice * take)
                        totalContracts := st.totalContracts + take
                        pCouldBuy := 0 }
                  else do
                    if st.totalContracts > 0 then
                      assertUpdate address property st.totalContracts .remaining
                    pure st.totalAmount
            | _, _ => throw .exception
      | _ => tradeBasisScan address contractsClosed property aux rest st

/-- `CMPTradeList::getTradeBasis`. -/
def getTradeBasis (address : Address) (contractsClosed : Int) (property : PropertyId) :
    ExecM Int := do
  let s ← get
  tradeBasisScan address contractsClosed property (s.getMPbalance address property .remaining)
    (s.tradeList.toList.map Prod.snd) ⟨0, 0, 0, 0⟩

/-! ## Liquidation prices -/

/-- The double computed by `get_LiquidationPrice`. -/
def liqPriceDouble (effectivePrice : Int) (tradingAction : Nat) : ℚ :=
  let liqFactor := if tradingAction = actionBuy then roundDouble (1 - percentLiqPrice)
    else roundDouble (1 + percentLiqPrice)
  roundDouble (roundDouble effectivePrice * liqFactor)

/-- `get_LiquidationPrice`: the price is added to the tally, not stored. -/
def getLiquidationPrice (effectivePrice : Int) (address : Address) (property : PropertyId)
    (tradingAction : Nat) : ExecM Unit := do
  -- the conversion of a double outside `int64_t` is undefined
  let liq64 ← signed64 (truncDouble (liqPriceDouble effectivePrice tradingAction))
  assertUpdate address property liq64 .liquidationPrice

/-- The double of an absolute value that was printed with eight decimals. -/
def contractShortDouble (n : Int) : ℚ := roundDouble ((n.natAbs : ℚ) / 100000000)

/-- The absolute value of an `int64_t` is one. -/
def HasAbs64 (n : Int) : Prop := IsInt64 |n|

instance (n : Int) : Decidable (HasAbs64 n) := inferInstanceAs (Decidable (IsInt64 _))

/-- `FormatContractShortMP`: the double printed and read back. The sign is lost, and the negation of the
    least integer overflows. -/
def formatContractShortMP (n : Int) : ExecM ℚ := do
  let _ ← signed64 |n|
  pure (contractShortDouble n)

@[simp] theorem wp_formatContractShortMP (n : Int) (Q : ℚ → State → Prop) (E : Halt → State → Prop)
    (s : State) :
    wp (formatContractShortMP n) Q E s ↔
      (HasAbs64 n → Q (contractShortDouble n) s) ∧ (¬ HasAbs64 n → E .undefinedBehaviour s) := by
  unfold formatContractShortMP
  rw [wp_bind, wp_signed64]
  simp only [wp_pure, HasAbs64]

/-- The comparison of `marginLogic`. The market price, a `uint64_t`, is formatted as an `int64_t`.
    Irreducible, so that the equations of the loop are found without evaluating it. -/
@[irreducible] def comparePrices (marketPrice : Nat) (liqPrice : Int) : ExecM Bool := do
  let marketShort ← formatContractShortMP (toInt64 marketPrice)
  let liqShort ← formatContractShortMP liqPrice
  pure (decide (marketShort ≤ liqShort))

@[simp] theorem wp_comparePrices (marketPrice : Nat) (liqPrice : Int) (Q : Bool → State → Prop)
    (E : Halt → State → Prop) (s : State) :
    wp (comparePrices marketPrice liqPrice) Q E s ↔
      (HasAbs64 (toInt64 marketPrice) ∧ HasAbs64 liqPrice →
        Q (decide (contractShortDouble (toInt64 marketPrice) ≤ contractShortDouble liqPrice)) s) ∧
      (¬ (HasAbs64 (toInt64 marketPrice) ∧ HasAbs64 liqPrice) → E .undefinedBehaviour s) := by
  unfold comparePrices
  simp only [wp_bind, wp_formatContractShortMP, wp_pure]
  by_cases hmarket : HasAbs64 (toInt64 marketPrice)
  · simp [hmarket]
  · simp [hmarket]

/-! ## One match -/

/-- The two parties of a match, with the balances read before anything is written. -/
structure Parties where
  seller : Address
  buyer : Address
  sellerAmount : Int
  buyerAmount : Int
  possitiveSell : Int
  negativeSell : Int
  possitiveBuy : Int
  negativeBuy : Int

/-- Seller and buyer of a match: a resting `SELL` order sells, any other one buys. -/
def parties (s : State) (pold pnew : CMPContractDex) : Parties :=
  let sell := if pold.tradingAction = actionSell then pold else pnew
  let buy := if pold.tradingAction = actionSell then pnew else pold
  { seller := sell.addr
    buyer := buy.addr
    sellerAmount := sell.amountForsale
    buyerAmount := buy.amountForsale
    possitiveSell := s.getMPbalance sell.addr sell.property .possitiveBalance
    negativeSell := s.getMPbalance sell.addr sell.property .negativeBalance
    possitiveBuy := s.getMPbalance buy.addr buy.property .possitiveBalance
    negativeBuy := s.getMPbalance buy.addr buy.property .negativeBalance }

/-- The number of contracts that change hands. -/
def Parties.nCouldBuy (q : Parties) : Int :=
  if q.buyerAmount < q.sellerAmount then q.buyerAmount else q.sellerAmount

/-- Position of the seller: close longs first, then open shorts. -/
def updateSeller (q : Parties) (property : PropertyId) : ExecM Unit := do
  if q.possitiveSell > 0 then
    let differenceS ← signed64 (q.possitiveSell - q.nCouldBuy)
    if differenceS ≥ 0 then
      assertUpdate q.seller property (-q.nCouldBuy) .possitiveBalance
    else
      assertUpdate q.seller property (-q.possitiveSell) .possitiveBalance
      assertUpdate q.seller property (-differenceS) .negativeBalance
  else
    assertUpdate q.seller property q.nCouldBuy .negativeBalance

/-- Position of the buyer: close shorts first, then open longs. -/
def updateBuyer (q : Parties) (property : PropertyId) : ExecM Unit := do
  if q.possitiveBuy > 0 then
    assertUpdate q.buyer property q.nCouldBuy .possitiveBalance
  else
    let differenceB ← signed64 (q.nCouldBuy - q.negativeBuy)
    if differenceB > 0 then
      assertUpdate q.buyer property differenceB .possitiveBalance
      if q.negativeBuy > 0 then
        assertUpdate q.buyer property (-q.negativeBuy) .negativeBalance
    else
      assertUpdate q.buyer property (-q.nCouldBuy) .negativeBalance

/-- Status and closed count of one side of a position, from its size before and after. -/
def sideStatus (before after : Int) (reduced : MatchStatus) : MatchStatus × Int :=
  (if before > after then reduced else if after = 0 then .netted else .none,
   if after = 0 then before else |before - after|)

/-- `Status_s` and `countClosedSeller`. -/
def sellerStatus (s : State) (q : Parties) (property : PropertyId) : MatchStatus × Int :=
  if q.possitiveSell > 0 ∧ q.negativeSell = 0 then
    sideStatus q.possitiveSell (s.getMPbalance q.seller property .possitiveBalance) .longNetted
  else if q.negativeSell > 0 ∧ q.possitiveSell = 0 then
    sideStatus q.negativeSell (s.getMPbalance q.seller property .negativeBalance) .shortNetted
  else if q.negativeSell = 0 ∧ q.possitiveSell = 0 then (.none, 0)
  else (.netted, 0)

/-- `Status_b` and `countClosedBuyer`. The second test reads
    `negative_buy > 0 && negative_buy == 0`, so a short that is bought back never counts. -/
def buyerStatus (s : State) (q : Parties) (property : PropertyId) : MatchStatus × Int :=
  if q.possitiveBuy > 0 ∧ q.negativeBuy = 0 then
    sideStatus q.possitiveBuy (s.getMPbalance q.buyer property .possitiveBalance) .longNetted
  else if q.negativeBuy > 0 ∧ q.negativeBuy = 0 then
    sideStatus q.negativeBuy (s.getMPbalance q.buyer property .negativeBalance) .shortNetted
  else if q.negativeBuy = 0 ∧ q.possitiveBuy = 0 then (.none, 0)
  else (.netted, 0)

/-- The size of a one-sided position, as it is recorded. -/
def lives (s : State) (a : Address) (property : PropertyId) : Int :=
  let long := s.getMPbalance a property .possitiveBalance
  let short := s.getMPbalance a property .negativeBalance
  if long > 0 ∧ short = 0 then long
  else if short > 0 ∧ long = 0 then short
  else 0

/-- Profit or loss of a close, in 64-bit arithmetic. -/
def pnl (marketPrice notionalSize : Nat) (closed basis : Int) : Int :=
  toInt64 ((marketPrice * closed - basis) * notionalSize)

/-- Frees the margin of the closed contracts and books profit or loss of one party. -/
def settle (who : Address) (property : PropertyId) (status : MatchStatus) (closed : Int) :
    ExecM Unit := do
  if status ≠ .none then
    let s ← get
    let freed ← signed64 (s.marginRequirementContract * closed)
    if freed ≠ 0 then
      assertUpdate who s.collateralCurrency (-freed) .contractDExReserve
      assertUpdate who s.collateralCurrency freed .balance
    let basis ← getTradeBasis who closed property
    let profit := pnl s.marketPrice s.notionalSize closed basis
    if profit ≠ 0 then
      assertUpdate who s.collateralCurrency profit .contractDExReserve

/-- `MatchReturnType`. -/
inductive MatchReturnType
  | nothing
  | traded
  | tradedMoreInSeller
  | tradedMoreInBuyer
  deriving DecidableEq, Repr

/-- What a match leaves of the two orders. -/
structure Remainders where
  replacement : CMPContractDex
  pnew : CMPContractDex
  ret : MatchReturnType
  deriving DecidableEq

/-- The resting order and the incoming order after the match. -/
def remainders (q : Parties) (pold pnew : CMPContractDex) : Remainders :=
  let remaining := |q.sellerAmount - q.buyerAmount|
  if (q.sellerAmount > q.buyerAmount ∧ pold.tradingAction = actionSell) ∨
      (q.sellerAmount < q.buyerAmount ∧ pold.tradingAction = actionBuy) then
    ⟨{ pold with amountForsale := remaining }, { pnew with amountForsale := 0 },
      .tradedMoreInSeller⟩
  else if (q.sellerAmount < q.buyerAmount ∧ pold.tradingAction = actionSell) ∨
      (q.sellerAmount > q.buyerAmount ∧ pold.tradingAction = actionBuy) then
    ⟨{ pold with amountForsale := 0 }, { pnew with amountForsale := remaining },
      .tradedMoreInBuyer⟩
  else if q.sellerAmount = q.buyerAmount then
    ⟨{ pold with amountForsale := 0 }, { pnew with amountForsale := 0 }, .traded⟩
  else ⟨pold, pnew, .traded⟩

/-- Positions, margin, profit, trade record and market price of one match. -/
def executeMatch (pold pnew : CMPContractDex) : ExecM Remainders := do
  let s ← get
  let q := parties s pold pnew
  let property := pold.property
  updateSeller q property
  updateBuyer q property
  -- neither the difference of the amounts nor its absolute value is checked
  let _ ← signed64 |q.sellerAmount - q.buyerAmount|
  let rem := remainders q pold pnew
  let s ← get
  let (statusS, closedS) := sellerStatus s q property
  let (statusB, closedB) := buyerStatus s q property
  let livesMaker := lives s pold.addr property
  let livesTaker := lives s pnew.addr property
  settle q.seller property statusS (if closedS < 0 then 0 else closedS)
  settle q.buyer property statusB (if closedB < 0 then 0 else closedB)
  let (statusMaker, statusTaker) :=
    if pold.addr = q.seller then (statusS, statusB) else (statusB, statusS)
  recordMatchedContract pold.txid pnew.txid pold.addr pnew.addr pold.effectivePrice q.nCouldBuy
    rem.pnew.amountForsale pold.block pnew.block statusMaker statusTaker livesMaker livesTaker
    property
  modify fun s => { s with marketPrice := pold.effectivePrice }
  let _ ← formatContractShortMP (toInt64 pold.effectivePrice)
  pure rem

/-! ## The world: node state and ghosts -/

/-- A running call of `x_Trade`: the incoming order as it stands, and, from the settlement of a
    match to the erasure of its resting order, the two orders as they were read. -/
structure Frame where
  taker : CMPContractDex
  held : Option (CMPContractDex × CMPContractDex)
  deriving DecidableEq

/-- One transaction of the contract market. -/
inductive ContractOp
  | trade (tx : CMPTransaction)
  | cancel (tx : CMPTransaction)
  | create (blockHash : Option Nat) (tx : CMPTransaction)

/-- What the trace remembers. -/
inductive Event
  /-- a transaction is about to be executed in `pre` -/
  | submitted (pre : State) (op : ContractOp)
  /-- `ContractDex_ADD` starts matching an order -/
  | placed (order : CMPContractDex)
  /-- a candidate was found; `pre` is the state before its liquidation prices are written -/
  | candidate (pre : State) (pold pnew : CMPContractDex)
  /-- a match is about to be executed in `pre`, below the frames `outer` -/
  | matched (pre : State) (outer : List Frame) (pold pnew : CMPContractDex)
  /-- `marginLogic` looks at an address in `pre`; `last` says that it is the last one -/
  | marginCheck (pre : State) (property : PropertyId) (address : Address) (last : Bool)
  /-- the matched order is erased; `intact` says whether it is still the order that was read -/
  | erased (pold : CMPContractDex) (intact : Bool)

/-- The node state and the ghosts. -/
structure World where
  state : State
  frames : List Frame
  /-- the next serial number of every property -/
  nextSerial : PropertyId → Nat
  trace : List Event

/-- Contract code: works on the node state and keeps the ghosts. -/
abbrev ExecW := EStateM Halt World

/-- Code without ghosts, in a world. -/
def onState {α : Type} (x : ExecM α) : ExecW α :=
  zoom World.state (fun w s => { w with state := s }) x

@[simp] theorem wp_onState {α : Type} (x : ExecM α) (Q : α → World → Prop)
    (E : Halt → World → Prop) (w : World) :
    wp (onState x) Q E w ↔
      wp x (fun a s => Q a { w with state := s }) (fun e s => E e { w with state := s }) w.state :=
  wp_zoom _ _ _ _ _ _

/-- Ghost: writes an event. -/
def emit (e : Event) : ExecW Unit := modify fun w => { w with trace := e :: w.trace }

/-- Ghost: replaces the innermost frame. -/
def setFrame (f : Frame) : ExecW Unit := modify fun w => { w with frames := f :: w.frames.tail }

/-! ## The book -/

/-- `get_PricesCd`; a missing property has no levels. -/
def State.contractPrices (s : State) (p : PropertyId) : CdPricesMap := (s.contractdex[p]?).getD ∅

/-- The orders of one price level. -/
def State.contractLevel (s : State) (p : PropertyId) (price : Nat) : CdSet :=
  ((s.contractPrices p)[price]?).getD ∅

/-- Replaces one price level. -/
def State.setContractLevel (s : State) (p : PropertyId) (price : Nat) (set : CdSet) : State :=
  { s with contractdex := s.contractdex.insert p ((s.contractPrices p).insert price set) }

/-- The orders of a property in the order of iteration: by price, then by `(block, idx)`. -/
def offersInOrder (prices : CdPricesMap) : List (Nat × OrderKey × CMPContractDex) :=
  prices.toList.flatMap fun level => level.2.toList.map fun e => (level.1, e.1, e.2)

/-- The iterators stand behind every position up to the cursor. -/
def behindCursor (cursor : Option (Nat × OrderKey)) (price : Nat) (key : OrderKey) : Bool :=
  match cursor with
  | none => false
  | some (price', key') => price < price' || (price == price' && pairCmp key key' != .gt)

/-- The price check of `x_Trade` for a level. -/
def passesPrice (pnew : CMPContractDex) (sellersPrice : Nat) : Bool :=
  if pnew.tradingAction = actionBuy ∧ pnew.effectivePrice < sellersPrice then false
  else if pnew.tradingAction = actionSell ∧ pnew.effectivePrice > sellersPrice then false
  else true

/-- The next order the loops of `x_Trade` reach in the book as it stands. -/
def nextOffer (prices : CdPricesMap) (pnew : CMPContractDex) (cursor : Option (Nat × OrderKey)) :
    Option (Nat × OrderKey × CMPContractDex) :=
  (offersInOrder prices).find? fun e =>
    passesPrice pnew e.1 && !behindCursor cursor e.1 e.2.1

def CMPContractDex.key (o : CMPContractDex) : OrderKey := (o.block, o.idx)

/-- `ContractDex_INSERT`: false if the level already holds an order with this key. -/
def contractDexInsert (o : CMPContractDex) : ExecM Bool := do
  let s ← get
  let level := s.contractLevel o.property o.effectivePrice
  if level.contains o.key then
    pure false
  else
    set (s.setContractLevel o.property o.effectivePrice (level.insert o.key o))
    pure true

/-- `pofferSet->erase(offerIt++)` and the insertion of what remains. The iterator is only valid
    if the set still holds the element that was read; a margin call in between may have erased
    or replaced it. -/
def eraseMatched (price : Nat) (key : OrderKey) (pold pnew : CMPContractDex) (rem : Remainders) :
    ExecW Unit := do
  let w ← get
  let level := w.state.contractLevel pnew.property price
  let intact := level[key]? == some pold
  emit (.erased pold intact)
  if intact then
    let level := level.erase key
    -- `std::set::insert` keeps an element that compares equal
    let level := if pold.amountForsale ≠ pnew.amountForsale ∧ ¬ level.contains rem.replacement.key
      then level.insert rem.replacement.key rem.replacement
      else level
    onState (modify fun s => s.setContractLevel pnew.property price level)
    setFrame ⟨rem.pnew, none⟩
  else
    throw .undefinedBehaviour

/-- The world in which a new order starts matching. -/
def World.place (w : World) (o : CMPContractDex) : World :=
  { w with
    frames := ⟨o, none⟩ :: w.frames
    nextSerial := Function.update w.nextSerial o.property (w.nextSerial o.property + 1)
    trace := .placed o :: w.trace }

/-- What remains of a matched order goes into the book. -/
def restOrder (o : CMPContractDex) : ExecW Bool := do
  let inserted ← if 0 < o.amountForsale then onState (contractDexInsert o) else pure true
  modify fun w => { w with frames := w.frames.tail }
  pure inserted

/-! ## Margin calls -/

/-- The addresses `marginLogic` visits: the first two fields of every record of 12 fields,
    each address once. -/
def matchedAddresses (values : List Text) : List Text :=
  values.foldl (fun addr value =>
    match split isColon value with
    | [a1, a2, _, _, _, _, _, _, _, _, _, _] =>
        let addr := if a1 ∈ addr then addr else addr ++ [a1]
        if a2 ∉ addr ∧ a1 ≠ a2 then addr ++ [a2] else addr
    | _ => addr) []

/-- Ghost: the identity of an order. -/
abbrev OrderId := PropertyId × Nat

def CMPContractDex.ident (o : CMPContractDex) : OrderId := (o.property, o.serial)

/-- The order object `ContractDex_ADD` builds from its arguments. -/
def newContractOrder (serial : Nat) (sender : Address) (prop : PropertyId) (amount : Int)
    (block : Nat) (propertyDesired : PropertyId) (amountDesired : Int) (txid : Txid)
    (idx effectivePrice tradingAction : Nat) : CMPContractDex :=
  { addr := sender, block := block, txid := txid, idx := idx, property := prop,
    amountForsale := amount, desiredProperty := propertyDesired, amountDesired := amountDesired,
    amountRemaining := amount, subaction := subactionAdd, effectivePrice := effectivePrice,
    tradingAction := tradingAction, serial := serial }

/-- `ContractDex_ADD` for a new order, over the matching of `x_Trade`. -/
def contractDexAddWith (trade : CMPContractDex → ExecW (MatchReturnType × CMPContractDex))
    (newCdex : CMPContractDex) : ExecW Int := do
  if newCdex.effectivePrice = 0 then
    pure (metaDExError - 66)
  else
    modify fun w => w.place newCdex
    let (_, newCdex) ← trade newCdex
    let inserted ← restOrder newCdex
    pure (if inserted then 0 else metaDExError - 70)

/-- The order of `marginCall`: the whole position at the market price, at block 1, index 1,
    without a transaction. -/
def marginOrder (w : World) (address : Address) (propertyId : PropertyId) (marketPrice : Nat) :
    CMPContractDex :=
  let shortBalance := w.state.getMPbalance address propertyId .negativeBalance
  let longBalance := w.state.getMPbalance address propertyId .possitiveBalance
  let tradingAction := if shortBalance > 0 then actionBuy
    else if longBalance > 0 then actionSell else actionInvalid
  let amountInOrder := if tradingAction = actionBuy then shortBalance else longBalance
  newContractOrder (w.nextSerial propertyId) address propertyId amountInOrder 1 1 0 0 1 marketPrice
    tradingAction

/-- `marginCall`. -/
def marginCallWith (trade : CMPContractDex → ExecW (MatchReturnType × CMPContractDex))
    (address : Address) (propertyId : PropertyId) (marketPrice : Nat) : ExecW Int := do
  let w ← get
  contractDexAddWith trade (marginOrder w address propertyId marketPrice)

/-- The loop of `marginLogic` over the address vector. After a margin call the address is erased
    from the vector and the iterator advanced once more: the next address is skipped, and after
    the last one the iterator is past the end. A text that is no address has an empty tally. -/
def marginLoop (trade : CMPContractDex → ExecW (MatchReturnType × CMPContractDex))
    (property : PropertyId) : List Text → ExecW Unit
  | [] => pure ()
  | t :: rest =>
      match Address.ofText? t with
      | none => marginLoop trade property rest
      | some address => do
          let w ← get
          emit (.marginCheck w.state property address rest.isEmpty)
          let liqPrice := w.state.getMPbalance address property .liquidationPrice
          if ← onState (comparePrices w.state.marketPrice liqPrice) then do
            let _ ← marginCallWith trade address property w.state.marketPrice
            onState (assertUpdate address property (-liqPrice) .liquidationPrice)
            match rest with
            | [] => throw .undefinedBehaviour
            | _ :: rest => marginLoop trade property rest
          else
            marginLoop trade property rest

/-- `CMPTradeList::marginLogic`. -/
def marginLogicWith (trade : CMPContractDex → ExecW (MatchReturnType × CMPContractDex))
    (property : PropertyId) : ExecW Unit := do
  let w ← get
  marginLoop trade property (matchedAddresses (w.state.tradeList.toList.map Prod.snd))

/-! ## Matching -/

/-- The liquidation prices of both parties of a candidate are written before it is known whether
    anything is traded. -/
def visitCandidate (pold pnew : CMPContractDex) : ExecW Unit := do
  let w ← get
  emit (.candidate w.state pold pnew)
  onState (getLiquidationPrice (toInt64 pnew.effectivePrice) pnew.addr pnew.property
    pnew.tradingAction)
  onState (getLiquidationPrice (toInt64 pold.effectivePrice) pold.addr pold.property
    pold.tradingAction)

/-- The match itself; from here on the frame holds the resting order. -/
def fillOrder (pold pnew : CMPContractDex) : ExecW Remainders := do
  let w ← get
  emit (.matched w.state w.frames.tail pold pnew)
  let rem ← onState (executeMatch pold pnew)
  setFrame ⟨rem.pnew, some (pold, pnew)⟩
  pure rem

/-- The two nested loops of `x_Trade` from the cursor on. Nothing stops them when the incoming
    order is used up: `bBuyerSatisfied` is never set. -/
def xTradeLoop : Nat → Option (Nat × OrderKey) → MatchReturnType → CMPContractDex →
    ExecW (MatchReturnType × CMPContractDex)
  | 0, _, _, _ => throw .outOfFuel
  | fuel + 1, cursor, ret, pnew => do
      let w ← get
      match nextOffer (w.state.contractPrices pnew.property) pnew cursor with
      | none => pure (ret, pnew)
      | some (price, key, pold) =>
          onState (assertThat .condition (pold.effectivePrice == price))
          if pold.property ≠ pnew.property ∨ pold.tradingAction = pnew.tradingAction then
            xTradeLoop fuel (some (price, key)) ret pnew
          else
            visitCandidate pold pnew
            let w ← get
            if (parties w.state pold pnew).nCouldBuy = 0 then
              xTradeLoop fuel (some (price, key)) ret pnew
            else
              let rem ← fillOrder pold pnew
              marginLogicWith (xTradeLoop fuel none .nothing) pold.property
              eraseMatched price key pold pnew rem
              xTradeLoop fuel (some (price, key)) rem.ret rem.pnew

/-- `x_Trade(CMPContractDex*)`. -/
def xTradeContract (fuel : Nat) (pnew : CMPContractDex) :
    ExecW (MatchReturnType × CMPContractDex) :=
  xTradeLoop fuel none .nothing pnew

/-- `ContractDex_ADD`. -/
def contractDexAdd (fuel : Nat) (sender : Address) (prop : PropertyId) (amount : Int)
    (block : Nat) (propertyDesired : PropertyId) (amountDesired : Int) (txid : Txid)
    (idx effectivePrice tradingAction : Nat) : ExecW Int := do
  let w ← get
  contractDexAddWith (xTradeContract fuel) (newContractOrder (w.nextSerial prop) sender prop amount
    block propertyDesired amountDesired txid idx effectivePrice tradingAction)

end OmniCore
