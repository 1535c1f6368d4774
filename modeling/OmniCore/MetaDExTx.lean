import OmniCore.MetaDEx
import OmniCore.Registry

/-! # MetaDExTx — transactions of the token market

    The four transaction types of the MetaDEx: trade (25) and the three cancels (26, 27, 28), from
    `interpretPacket` down. A history of the market also has the two shutdowns, and whatever
    else happens to a node without touching the book. -/

namespace OmniCore

open Std (ExtTreeMap)
open Machine TextRec MapSum Exec

/-! ## Checks -/

/-- `MAX_INT_8_BYTES`. -/
def maxInt8Bytes : Nat := 9223372036854775807

/-- The checks that all transactions of a pair make, with their answer. -/
def metaDExPairError (s : State) (tx : CMPTransaction) : Option Int :=
  if !s.params.isTransactionTypeAllowed tx.block tx.property.toNat tx.type.toNat
      tx.version.toNat then
    some (pktErrorMetaDEx - 22)
  else if tx.property = tx.desiredProperty then
    some (pktErrorMetaDEx - 29)
  else if isTestEcosystemProperty tx.property.toNat ≠
      isTestEcosystemProperty tx.desiredProperty.toNat then
    some (pktErrorMetaDEx - 30)
  else if !s.sps.isPropertyIdValid tx.property.toNat then
    some (pktErrorMetaDEx - 31)
  else if !s.sps.isPropertyIdValid tx.desiredProperty.toNat then
    some (pktErrorMetaDEx - 32)
  else
    none

/-- The checks of both amounts. -/
def metaDExAmountError (tx : CMPTransaction) : Option Int :=
  if tx.nNewValue.toNat = 0 ∨ maxInt8Bytes < tx.nNewValue.toNat then
    some (pktErrorMetaDEx - 33)
  else if tx.desiredValue.toNat = 0 ∨ maxInt8Bytes < tx.desiredValue.toNat then
    some (pktErrorMetaDEx - 34)
  else
    none

/-- OMNI and TOMNI. -/
def isOmniProperty (p : PropertyId) : Bool := p == omniPropertyMSC || p == omniPropertyTMSC

/-- Trading other pairs is not allowed before the feature is activated. -/
def metaDExTradePairError (s : State) (tx : CMPTransaction) : Option Int :=
  if s.params.isFeatureActivated .tradeAllPairs tx.block = false ∧
      isOmniProperty tx.property.toNat = false ∧
      isOmniProperty tx.desiredProperty.toNat = false then
    some (pktErrorMetaDEx - 35)
  else if s.getMPbalance tx.sender tx.property.toNat .balance < toInt64 tx.nNewValue.toNat then
    some (pktErrorMetaDEx - 25)
  else
    none

/-- All checks of a trade, in their order. -/
def metaDExTradeError (s : State) (tx : CMPTransaction) : Option Int :=
  (metaDExPairError s tx).or ((metaDExAmountError tx).or (metaDExTradePairError s tx))

/-- The order of a trade. -/
def CMPTransaction.metaDExOrder (tx : CMPTransaction) : CMPMetaDEx :=
  newMetaDExOrder tx.sender tx.property.toNat (toInt64 tx.nNewValue.toNat) tx.block
    tx.desiredProperty.toNat (toInt64 tx.desiredValue.toNat) tx.txid tx.txIdx subactionAdd

/-! ## Logic -/

/-- `logicMath_MetaDExTrade`. -/
def logicMathMetaDExTrade (tx : CMPTransaction) : ExecM Int := do
  let s ← get
  match metaDExTradeError s tx with
  | some error => pure error
  | none => do
      recordNewTrade tx.txid tx.sender tx.property.toNat tx.desiredProperty.toNat tx.block tx.txIdx
      metaDExAdd tx.metaDExOrder

/-- `CMPTransaction::CANCEL_AT_PRICE`. -/
def subactionCancelAtPrice : Nat := 2

/-- `logicMath_MetaDExCancelPrice`. -/
def logicMathMetaDExCancelPrice (tx : CMPTransaction) : ExecM Int := do
  let s ← get
  match (metaDExPairError s tx).or (metaDExAmountError tx) with
  | some error => pure error
  | none =>
      metaDExCancelAtPrice tx.txid tx.block (newMetaDExOrder tx.sender tx.property.toNat
        (toInt64 tx.nNewValue.toNat) 0 tx.desiredProperty.toNat (toInt64 tx.desiredValue.toNat) 0 0
        subactionCancelAtPrice)

/-- `logicMath_MetaDExCancelPair`. -/
def logicMathMetaDExCancelPair (tx : CMPTransaction) : ExecM Int := do
  let s ← get
  match metaDExPairError s tx with
  | some error => pure error
  | none =>
      metaDExCancelAllForPair tx.txid tx.block tx.sender tx.property.toNat
        tx.desiredProperty.toNat

/-- `logicMath_MetaDExCancelEcosystem`. -/
def logicMathMetaDExCancelEcosystem (tx : CMPTransaction) : ExecM Int := do
  let s ← get
  if !s.params.isTransactionTypeAllowed tx.block tx.ecosystem.toNat tx.type.toNat
      tx.version.toNat then
    pure (pktErrorMetaDEx - 22)
  else if tx.ecosystem.toNat ≠ omniPropertyMSC ∧ tx.ecosystem.toNat ≠ omniPropertyTMSC then
    pure (pktErrorMetaDEx - 21)
  else
    metaDExCancelEverything tx.txid tx.block tx.sender tx.ecosystem.toNat

/-- `interpretPacket`, for an interpreted transaction of the token market. -/
def interpretMetaDExPacket (tx : CMPTransaction) : ExecM Int := do
  let s ← get
  if s.isAddressFrozen tx.sender tx.property.toNat then
    pure (pktError - 3)
  else if tx.type = 25 then
    logicMathMetaDExTrade tx
  else if tx.type = 26 then
    logicMathMetaDExCancelPrice tx
  else if tx.type = 27 then
    logicMathMetaDExCancelPair tx
  else if tx.type = 28 then
    logicMathMetaDExCancelEcosystem tx
  else
    pure (pktError - 100)

/-! ## Accepted trades -/

/-- A trade that passes its checks. -/
structure MetaDExTradeAccepted (s : State) (tx : CMPTransaction) : Prop where
  properties : tx.property ≠ tx.desiredProperty
  forsale : 0 < tx.nNewValue.toNat ∧ tx.nNewValue.toNat ≤ maxInt8Bytes
  desired : 0 < tx.desiredValue.toNat ∧ tx.desiredValue.toNat ≤ maxInt8Bytes
  balance : toInt64 tx.nNewValue.toNat ≤ s.getMPbalance tx.sender tx.property.toNat .balance

theorem metaDExTradeError_eq_none {s : State} {tx : CMPTransaction}
    (h : metaDExTradeError s tx = none) : MetaDExTradeAccepted s tx := by
  rw [metaDExTradeError, Option.or_eq_none_iff, Option.or_eq_none_iff] at h
  obtain ⟨hpair, hamount, htrade⟩ := h
  have hproperties : tx.property ≠ tx.desiredProperty := by
    intro heq
    unfold metaDExPairError at hpair
    rw [if_pos heq] at hpair
    split at hpair <;> cases hpair
  have hamounts : ¬ (tx.nNewValue.toNat = 0 ∨ maxInt8Bytes < tx.nNewValue.toNat) ∧
      ¬ (tx.desiredValue.toNat = 0 ∨ maxInt8Bytes < tx.desiredValue.toNat) := by
    constructor
    · intro hbad
      simp [metaDExAmountError, hbad] at hamount
    · intro hbad
      unfold metaDExAmountError at hamount
      rw [if_pos hbad] at hamount
      split at hamount <;> cases hamount
  have hbalance : ¬ s.getMPbalance tx.sender tx.property.toNat .balance <
      toInt64 tx.nNewValue.toNat := by
    intro hlow
    unfold metaDExTradePairError at htrade
    rw [if_pos hlow] at htrade
    split at htrade <;> cases htrade
  exact ⟨hproperties, by omega, by omega, not_lt.mp hbalance⟩

end OmniCore
