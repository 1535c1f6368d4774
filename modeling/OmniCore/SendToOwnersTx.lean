import OmniCore.FeeCache
import OmniCore.StoHistory

/-! # SendToOwnersTx — the transaction that pays all owners

    A sender splits an amount between the owners of a property, of the same one or, from
    version 1 on, of another. For every receiver a fee in OMNI or TOMNI is due: version 0
    burns it, later versions put it into the fee cache. -/

namespace OmniCore

open Std (ExtTreeMap)
open Machine TextRec MapSum Exec

/-- `PKT_ERROR_STO`. -/
def pktErrorSTO : Int := -50000

/-- `TRANSFER_FEE_PER_OWNER` and `TRANSFER_FEE_PER_OWNER_V1`. -/
def transferFeePerOwner (version : UInt16) : Int := if version = 0 then 1 else 1000

namespace CMPTransaction

/-- The property whose owners are paid. -/
def distributeTo (tx : CMPTransaction) : PropertyId :=
  if tx.version = 0 then tx.property.toNat else tx.distributionProperty.toNat

/-- The property in which the fee is paid. -/
def feeProperty (tx : CMPTransaction) : PropertyId :=
  if isTestEcosystemProperty tx.property.toNat then omniPropertyTMSC else omniPropertyMSC

/-- The fee for a number of receivers. -/
def transferFee (tx : CMPTransaction) (numberOfReceivers : Nat) : Int :=
  toInt64 (transferFeePerOwner tx.version * numberOfReceivers)

end CMPTransaction

/-- Why the fee cannot be paid, if it cannot. An amount in the property of the fee is added to it. -/
def stoFeeError (s : State) (tx : CMPTransaction) (transferFee : Int) : ExecM (Option Int) :=
  let nBalanceFee := s.getMPbalance tx.sender tx.feeProperty .balance
  if tx.feeProperty ≠ tx.property.toNat then
    pure (if nBalanceFee < transferFee then some (pktErrorSTO - 27) else none)
  else do
    let due ← signed64 (toInt64 tx.nValue.toNat + transferFee)
    pure (if nBalanceFee < due then some (pktErrorSTO - 28) else none)

/-- The fee is subtracted; version 0 does not credit it to any tally, later versions cache it. -/
def payTransferFee (tx : CMPTransaction) (transferFee : Int) : ExecM Unit := do
  assertUpdate tx.sender tx.feeProperty (-transferFee) .balance
  if tx.version ≠ 0 then
    addFee tx.feeProperty tx.block transferFee

/-- One receiver, with what was sent before. -/
def sendToOwner (tx : CMPTransaction) (sentSoFar : Int) (r : Int × Address) : ExecM Int := do
  let sentSoFar ← signed64 (sentSoFar + r.1)
  assertUpdate tx.sender tx.property.toNat (-r.1) .balance
  assertUpdate r.2 tx.property.toNat r.1 .balance
  -- add to stodb
  modify fun s => { s with
    stoList := CMPSTOList.recordSTOReceive s.stoList r.2
      ⟨tx.txid, tx.block, tx.property.toNat, r.1.toNat⟩ }
  pure sentSoFar

/-- What is left to do once everything was checked. -/
def sendToOwners (tx : CMPTransaction) (receiversSet : OwnerAddrType) (transferFee : Int) :
    ExecM Unit := do
  payTransferFee tx transferFee
  -- split up what was taken and distribute between all holders
  let sentSoFar ← (OwnerAddrType.descending receiversSet).foldlM (sendToOwner tx) 0
  assertThat .condition (sentSoFar == toInt64 tx.nValue.toNat)
  -- the fee of version 0 was burned; the thresholds of the main ecosystem are updated
  if tx.version = 0 then
    notifyTotalTokensChanged omniPropertyMSC tx.block

/-- `logicMath_SendToOwners`. -/
def logicMathSendToOwners (tx : CMPTransaction) : ExecM Int := do
  let s ← get
  if !s.params.isTransactionTypeAllowed tx.block tx.property.toNat tx.type.toNat
      tx.version.toNat then
    pure (pktErrorSTO - 22)
  else if tx.nValue = 0 ∨ maxInt64 < tx.nValue.toNat then
    pure (pktErrorSTO - 23)
  else if !s.sps.isPropertyIdValid tx.property.toNat then
    pure (pktErrorSTO - 24)
  else if tx.version ≠ 0 ∧ s.sps.isPropertyIdValid tx.distributionProperty.toNat = false then
    pure (pktErrorSTO - 24)
  else if s.getMPbalance tx.sender tx.property.toNat .balance < toInt64 tx.nValue.toNat then
    pure (pktErrorSTO - 25)
  else do
    let receiversSet ← stoGetReceivers (some tx.sender) tx.distributeTo (toInt64 tx.nValue.toNat)
    -- make sure we found some owners
    if receiversSet.size = 0 then
      pure (pktErrorSTO - 26)
    else
      let transferFee := tx.transferFee receiversSet.size
      match ← stoFeeError s tx transferFee with
      | some error => pure error
      | none =>
          if tx.propType = 3 then
            pure (pktErrorSP - 36)
          else do
            sendToOwners tx receiversSet transferFee
            pure 0

end OmniCore
