import OmniCore.ContractRun
import OmniCore.Fundraiser

/-! # Crowdsale — tokens issued for what an address receives

    While a crowdsale runs, every transfer of the desired property to its issuer creates
    tokens for the sender and a bonus for the issuer. It ends at its deadline, by a
    transaction of the issuer, or when no more tokens can exist. What the issuer missed by
    rounding is credited at the end, unless the sale ended because nothing was left. -/

namespace OmniCore

open Std (ExtTreeMap)
open Machine TextRec MapSum Exec

/-! ## The environment -/

/-- What a transaction asks of the chain: the hash of the block at a height, if it is in the active
    chain, and the time of its own block. -/
structure ChainEnv where
  blockHash : Nat → Option Nat
  blockTime : Int
  time_nonneg : 0 ≤ blockTime
  time_le : blockTime ≤ maxInt64

/-- `Entry::isDivisible`. -/
def SPEntry.isDivisible (sp : SPEntry) : Bool :=
  sp.propType == 2 || sp.propType == 66 || sp.propType == 130

/-- `isPropertyDivisible`. -/
def CMPSPInfo.isPropertyDivisible (sps : CMPSPInfo) (propertyId : PropertyId) : Bool :=
  match sps.getSP propertyId with
  | some sp => sp.isDivisible
  | none => true

/-- `assert(_my_sps->getSP(propertyId, sp))`. -/
def assertSP (propertyId : PropertyId) : ExecM SPEntry := do
  let s ← get
  match s.sps.getSP propertyId with
  | some sp => pure sp
  | none => throw (.assertFailed .condition)

/-- `assert(_my_sps->updateSP(propertyId, sp))`. -/
def assertUpdateSP (propertyId : PropertyId) (sp : SPEntry) : ExecM Unit := do
  let s ← get
  let r := s.sps.updateSP propertyId sp
  set { s with sps := r.2 }
  assertThat .condition r.1

/-! ## Creation -/

/-- The entry of a property whose tokens are sold. -/
def crowdsaleEntry (tx : CMPTransaction) (blockHash : Nat) : SPEntry :=
  { impliedEntry tx.propType.toNat tx.category tx.subcategory tx.name tx.url tx.data with
    issuer := tx.sender.text, txid := tx.txid, numTokens := toInt64 tx.nValue.toNat
    propertyDesired := tx.property.toNat, deadline := toInt64 tx.deadline.toNat
    earlyBird := tx.earlyBird.toNat, percentage := tx.percentage.toNat
    creationBlock := blockHash, updateBlock := blockHash }

/-- The record of a crowdsale that has just begun. -/
def newCrowd (tx : CMPTransaction) (propertyId : PropertyId) : CMPCrowd :=
  { propertyId, nValue := toInt64 tx.nValue.toNat, propertyDesired := tx.property.toNat
    deadline := toInt64 tx.deadline.toNat, earlyBird := tx.earlyBird.toNat
    percentage := tx.percentage.toNat, uCreated := 0, iCreated := 0, txid := 0
    txFundraiserData := ∅ }

/-- `logicMath_CreatePropertyVariable`. -/
def logicMathCreatePropertyVariable (env : ChainEnv) (tx : CMPTransaction) : ExecM Int := do
  let s ← get
  match env.blockHash tx.block with
  | none => pure (pktErrorSP - 20)
  | some blockHash =>
      if omniPropertyMSC ≠ tx.ecosystem.toNat ∧ omniPropertyTMSC ≠ tx.ecosystem.toNat then
        pure (pktErrorSP - 21)
      -- ecosystem crossovers shall not be allowed after the feature was enabled
      else if s.params.isFeatureActivated .spCrowdCrossover tx.block ∧
          isTestEcosystemProperty tx.ecosystem.toNat ≠ isTestEcosystemProperty tx.property.toNat then
        pure (pktErrorSP - 50)
      else if !s.params.isTransactionTypeAllowed tx.block tx.ecosystem.toNat tx.type.toNat
          tx.version.toNat then
        pure (pktErrorSP - 22)
      else if tx.nValue = 0 ∨ maxInt64 < tx.nValue.toNat then
        pure (pktErrorSP - 23)
      else if !s.sps.isPropertyIdValid tx.property.toNat then
        pure (pktErrorSP - 24)
      else if tx.propType ≠ 1 ∧ tx.propType ≠ 2 then
        pure (pktErrorSP - 36)
      else if tx.name = [] then
        pure (pktErrorSP - 37)
      else if tx.deadline = 0 ∨ toInt64 tx.deadline.toNat < env.blockTime then
        pure (pktErrorSP - 38)
      else if s.crowds.contains tx.sender then
        pure (pktErrorSP - 39)
      else do
        let r := s.sps.putSP tx.ecosystem.toNat (crowdsaleEntry tx blockHash)
        set { s with sps := r.2 }
        assertThat .propertyId (decide (0 < r.1))
        modify fun s => { s with crowds := s.crowds.insertIfNew tx.sender (newCrowd tx r.1) }
        pure 0

/-! ## Closing -/

/-- `GetMissedIssuerBonus`: what the issuer missed by rounding. -/
def getMissedIssuerBonus (sp : SPEntry) (crowdsale : CMPCrowd) : ExecM Int := do
  -- consistency check
  let totalTokens ← getTotalTokens crowdsale.propertyId
  let created ← signed64 (crowdsale.iCreated + crowdsale.uCreated)
  assertThat .condition (decide (totalTokens = created))
  let amountAlreadyCreditedToIssuer ← convertTo256 crowdsale.iCreated
  let amountCreditedToUsers ← convertTo256 crowdsale.uCreated
  let amountTotal := add256 amountCreditedToUsers amountAlreadyCreditedToIssuer
  -- the theoretical bonus, based on the amount of tokens credited to users
  let exactBonus := mul256 amountCreditedToUsers sp.percentage / 100
  -- there shall be no negative missing amount
  if exactBonus < amountAlreadyCreditedToIssuer then
    pure 0
  else
    let amountMissing := sub256 exactBonus amountAlreadyCreditedToIssuer
    let newTotal := add256 amountTotal amountMissing
    -- reduce to max. possible amount
    convertTo64 (if maxInt64 < newTotal then sub256 maxInt64.toNat amountTotal else amountMissing)

/-- Credits the tokens the issuer missed, if there are any. An issuer is the text of an address. -/
def creditMissedTokens (sp : SPEntry) (propertyId : PropertyId) (missedTokens : Int) :
    ExecM Unit := do
  if 0 < missedTokens then
    match Address.ofText? sp.issuer with
    | some issuer => assertUpdate issuer propertyId missedTokens .balance
    | none => throw .undefinedBehaviour

/-- `my_crowds.erase(it)`. -/
def eraseCrowd (address : Address) : ExecM Unit :=
  modify fun s => { s with crowds := s.crowds.erase address }

/-- `eraseMaxedCrowdsale`. There is no block at a height that is not in the active chain. -/
def eraseMaxedCrowdsale (env : ChainEnv) (address : Address) (block : Nat) : ExecM Unit := do
  let s ← get
  match s.crowds[address]? with
  | none => pure ()
  | some crowdsale =>
      let sp ← assertSP crowdsale.propertyId
      match env.blockHash block with
      | none => throw .undefinedBehaviour
      | some blockHash =>
          assertUpdateSP crowdsale.propertyId { sp with
            historicalData := crowdsale.txFundraiserData, closeEarly := true, maxTokens := true
            timeclosed := env.blockTime, updateBlock := blockHash }
          -- no calculate fractional calls here, no more tokens (at MAX)
          eraseCrowd address

/-- A crowdsale ends before its supply is used up: what was missed is found, written down with
    what else the entry gets, and credited. -/
def endCrowdsale (address : Address) (crowd : CMPCrowd) (final : SPEntry → Int → SPEntry) :
    ExecM Unit := do
  let sp ← assertSP crowd.propertyId
  let missedTokens ← getMissedIssuerBonus sp crowd
  assertUpdateSP crowd.propertyId (final sp missedTokens)
  creditMissedTokens sp crowd.propertyId missedTokens
  eraseCrowd address

/-- One crowdsale of the loop over all of them; it is erased if its deadline has passed. -/
def eraseIfPastDeadline (blockHash : Nat) (blockTime : Int) (e : Address × CMPCrowd) :
    ExecM Unit :=
  if e.2.deadline < blockTime then
    endCrowdsale e.1 e.2 fun sp missedTokens => { sp with
      historicalData := e.2.txFundraiserData, missedTokens, updateBlock := blockHash }
  else
    pure ()

/-- `eraseExpiredCrowdsale`, at the start of a block. -/
def eraseExpiredCrowdsale (blockHash : Nat) (blockTime : Int) : ExecM Unit := do
  let s ← get
  s.crowds.toList.forM (eraseIfPastDeadline blockHash blockTime)

/-- `logicMath_CloseCrowdsale`. -/
def logicMathCloseCrowdsale (env : ChainEnv) (tx : CMPTransaction) : ExecM Int := do
  let s ← get
  match env.blockHash tx.block with
  | none => pure (pktErrorSP - 20)
  | some blockHash =>
      if !s.params.isTransactionTypeAllowed tx.block tx.property.toNat tx.type.toNat
          tx.version.toNat then
        pure (pktErrorSP - 22)
      else if !s.sps.isPropertyIdValid tx.property.toNat then
        pure (pktErrorSP - 24)
      else if tx.propType = 3 then
        pure (pktErrorSP - 36)
      else
        match s.crowds[tx.sender]? with
        | none => pure (pktErrorSP - 40)
        | some crowd =>
            if tx.property.toNat ≠ crowd.propertyId then
              pure (pktErrorSP - 41)
            else do
              endCrowdsale tx.sender crowd fun sp missedTokens => { sp with
                historicalData := crowd.txFundraiserData, updateBlock := blockHash
                closeEarly := true, timeclosed := env.blockTime, txidClose := tx.txid, missedTokens }
              pure 0

/-! ## Participation -/

/-- `PKT_ERROR_CROWD`. -/
def pktErrorCrowd : Int := -45000

/-- The crowdsale with the tokens of one participation. -/
def CMPCrowd.participate (crowd : CMPCrowd) (txid : Txid) (nValue blockTime user issuer : Int) :
    CMPCrowd :=
  { crowd with
    uCreated := crowd.uCreated + user
    iCreated := crowd.iCreated + issuer
    txFundraiserData := crowd.txFundraiserData.insertIfNew txid [nValue, blockTime, user, issuer] }

/-- A credit that is left out if there is nothing to credit. -/
def creditTokens (who : Address) (propertyId : PropertyId) (tokens : Int) : ExecM Unit :=
  if 0 < tokens then assertUpdate who propertyId tokens .balance else pure ()

/-- The record and the balances after a participation, and the end of the crowdsale. -/
def creditParticipation (env : ChainEnv) (tx : CMPTransaction) (receiver : Address)
    (crowd : CMPCrowd) (user issuer : Int) (closeCrowdsale : Bool) : ExecM Int := do
  let _ ← signed64 (crowd.uCreated + user)
  let _ ← signed64 (crowd.iCreated + issuer)
  let crowd' := crowd.participate tx.txid (toInt64 tx.nValue.toNat) env.blockTime user issuer
  modify fun s => { s with crowds := s.crowds.insert receiver crowd' }
  creditTokens tx.sender crowd.propertyId user
  creditTokens receiver crowd.propertyId issuer
  -- number of tokens has changed, update fee distribution thresholds
  notifyTotalTokensChanged crowd.propertyId tx.block
  if closeCrowdsale then
    eraseMaxedCrowdsale env receiver tx.block
  pure (if user = 0 ∧ issuer = 0 then pktErrorCrowd - 3 else 0)

/-- The tokens of a participation, for the user and for the issuer, and whether it is the last. -/
def participationTokens (env : ChainEnv) (tx : CMPTransaction) (crowd : CMPCrowd) :
    ExecM (Int × Int × Bool) := do
  let s ← get
  let sp ← assertSP crowd.propertyId
  -- units have to match those of the fundraiser, which are those of a divisible property
  let inflateAmount := !s.sps.isPropertyDivisible tx.property.toNat
  let totalTokens ← getTotalTokens crowd.propertyId
  calculateFundraiser arithUint256 inflateAmount (toInt64 tx.nValue.toNat) sp.earlyBird sp.deadline
    env.blockTime sp.numTokens sp.percentage totalTokens

/-- `logicHelper_CrowdsaleParticipation`. -/
def crowdsaleParticipation (env : ChainEnv) (tx : CMPTransaction) (receiver : Address) :
    ExecM Int := do
  let s ← get
  match s.crowds[receiver]? with
  | none => pure (pktErrorCrowd - 1)
  | some crowd =>
      if crowd.propertyDesired ≠ tx.property.toNat then
        pure (pktErrorCrowd - 2)
      else do
        let (user, issuer, closeCrowdsale) ← participationTokens env tx crowd
        creditParticipation env tx receiver crowd user issuer closeCrowdsale

/-- `PKT_ERROR_SEND`. -/
def pktErrorSend : Int := -60000

/-- `logicMath_SimpleSend`. -/
def logicMathSimpleSend (env : ChainEnv) (tx : CMPTransaction) : ExecM Int := do
  let s ← get
  if !s.params.isTransactionTypeAllowed tx.block tx.property.toNat tx.type.toNat
      tx.version.toNat then
    pure (pktErrorSend - 22)
  else if tx.nValue = 0 ∨ maxInt64 < tx.nValue.toNat then
    pure (pktErrorSend - 23)
  else if !s.sps.isPropertyIdValid tx.property.toNat then
    pure (pktErrorSend - 24)
  else if s.getMPbalance tx.sender tx.property.toNat .balance < toInt64 tx.nValue.toNat then
    pure (pktErrorSend - 25)
  else if tx.propType = 3 then
    pure (pktErrorSP - 36)
  else do
    -- if can't find the receiver -- assume send to self!
    let receiver := tx.receiver.getD tx.sender
    assertUpdate tx.sender tx.property.toNat (-toInt64 tx.nValue.toNat) .balance
    assertUpdate receiver tx.property.toNat (toInt64 tx.nValue.toNat) .balance
    let _ ← crowdsaleParticipation env tx receiver
    pure 0

/-! ## A supply that is used up exactly -/

/-- Every block is in the active chain, with its height as its hash. -/
def saleEnv : ChainEnv := ⟨some, 500, by decide, by decide⟩

/-- A crowdsale of the test ecosystem, without bonuses, at the highest price. -/
def crowdsaleTx : CMPTransaction :=
  { txid := 1, block := 10, sender := traderA, type := 51, ecosystem := 2, propType := 2
    name := ['S'], property := 2, nValue := 9223372036854775807, deadline := 1000 }

/-- A purchase. -/
def investTx (txid : Txid) (amount : UInt64) : CMPTransaction :=
  { txid, block := 11, sender := traderB, receiver := some traderA, type := 0, property := 2
    nValue := amount }

/-- A fresh node with two coins of the test ecosystem. -/
def investorState : State :=
  (State.fresh openParams).withTally (TallyMap.update ∅ traderB 2 200000000 .balance).2

/-- The crowdsale, and a purchase of one coin. -/
def sellOut : ExecM (Int × Int) := do
  let created ← logicMathCreatePropertyVariable saleEnv crowdsaleTx
  let bought ← logicMathSimpleSend saleEnv (investTx 2 100000000)
  pure (created, bought)

/-- The calculation of the next purchase, of a single unit. -/
def purchaseAfter : Purchase where
  inflateAmount := false
  amount := 1
  earlyBird := 0
  deadline := 1000
  now := 500
  tokensPerUnit := maxInt64
  percentage := 0
  totalTokens := maxInt64
  amount_pos := by decide
  amount_le := by decide
  deadline_nonneg := by decide
  deadline_le := by decide
  now_nonneg := by decide
  now_le := by decide
  tokensPerUnit_pos := by decide
  tokensPerUnit_le := by decide
  total_nonneg := by decide
  total_le := by decide

set_option maxRecDepth 4000 in
/-- **A SALE THAT IS SOLD OUT AND OPEN**: one purchase creates all tokens that can exist and leaves
    the crowdsale running; the next one divides by zero. -/
theorem soldOut_throws :
    value sellOut investorState = some (0, 0) ∧
      (after sellOut investorState).crowds.contains traderA = true ∧
      value (getTotalTokens testEcoProperty1) (after sellOut investorState) =
        some purchaseAfter.totalTokens ∧
      value (logicMathSimpleSend saleEnv (investTx 3 1)) (after sellOut investorState) = none ∧
      purchaseAfter.run arithUint256 = throw .exception ∧ ¬ purchaseAfter.Safe := by
  have hbuys : purchaseAfter.BuysToken := by
    show 10 ^ 20 ≤ purchaseAfter.worth
    decide +kernel
  have hmore : maxInt64 < purchaseAfter.totalTokens + purchaseAfter.user + purchaseAfter.issuer := by
    decide +kernel
  exact ⟨by decide +kernel, by decide +kernel, by decide +kernel, by decide +kernel,
    purchaseAfter.run_throws arithUint256 hmore rfl, purchaseAfter.not_safe rfl hbuys⟩

end OmniCore
