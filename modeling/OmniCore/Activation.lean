import OmniCore.MetaDEx
import OmniCore.TxList

/-! # Activation — switching features on and off

    A feature activation names a block at which the feature goes live; it is pending until
    then. A deactivation takes effect at once. Both change the consensus parameters, which
    are kept in memory: after a restart `LoadActivations` processes the recorded
    activations again. -/

namespace OmniCore

open Std (ExtTreeMap)
open Machine TextRec MapSum Exec

/-! ## Features by identifier -/

/-- The feature of an identifier on the wire. -/
def Feature.ofId : Nat → Option Feature
  | 1 => some .classC
  | 2 => some .metaDEx
  | 3 => some .betting
  | 4 => some .grantEffects
  | 5 => some .dexMath
  | 6 => some .sendAll
  | 7 => some .spCrowdCrossover
  | 8 => some .tradeAllPairs
  | 9 => some .fees
  | 10 => some .stoV1
  | 11 => some .contractDEx
  | 14 => some .freezeNotice
  | _ => none

/-- `IsFeatureActivated`; an unknown feature never is. -/
def ConsensusParams.isFeatureIdActivated (c : ConsensusParams) (featureId transactionBlock : Nat) :
    Bool :=
  match Feature.ofId featureId with
  | some f => c.isFeatureActivated f transactionBlock
  | none => false

/-- Writes the activation block of a feature; nothing is written for an unknown one. -/
def ConsensusParams.setFeatureBlock (c : ConsensusParams) (featureId block : Nat) :
    ConsensusParams :=
  match Feature.ofId featureId with
  | some f => { c with featureBlock := Function.update c.featureBlock f block }
  | none => c

/-! ## Pending and completed activations -/

/-- `DeletePendingActivation`. -/
def deletePendingActivation (l : List FeatureActivation) (featureId : Nat) :
    List FeatureActivation :=
  l.filter fun a => a.featureId != featureId

/-- `PendingActivationCompleted`. -/
def State.pendingActivationCompleted (s : State) (a : FeatureActivation) : State :=
  { s with
    pendingActivations := deletePendingActivation s.pendingActivations a.featureId
    completedActivations := s.completedActivations ++ [a] }

/-- `AddPendingActivation`. -/
def State.addPendingActivation (s : State) (a : FeatureActivation) : State :=
  { s with
    pendingActivations := deletePendingActivation s.pendingActivations a.featureId ++ [a] }

/-- `CheckLiveActivations`, over a copy of the pending activations. A client that is too old asks
    for a shutdown, and goes on. -/
def State.checkLiveActivations (s : State) (blockHeight : Nat) : State :=
  s.pendingActivations.foldl (fun s a =>
    if (blockHeight : Int) < a.activationBlock then s else s.pendingActivationCompleted a) s

/-- `ActivateFeature`. A feature the client does not know is pending all the same. -/
def State.activateFeature (s : State) (a : FeatureActivation) (transactionBlock : Nat) :
    Bool × State :=
  -- check activation block is allowed
  if a.activationBlock < transactionBlock + s.params.minActivationBlocks ∨
      (transactionBlock + s.params.maxActivationBlocks : Int) < a.activationBlock then
    (false, s)
  -- check whether the feature is already active
  else if s.params.isFeatureIdActivated a.featureId transactionBlock then
    (false, s)
  else
    (true, { s with
      params := s.params.setFeatureBlock a.featureId a.activationBlock.toNat }.addPendingActivation a)

/-- The block of a feature that was deactivated. -/
def deactivatedBlock : Nat := 999999

/-- `DeactivateFeature`. -/
def State.deactivateFeature (s : State) (featureId transactionBlock : Nat) : Bool × State :=
  if s.params.isFeatureIdActivated featureId transactionBlock then
    (true, { s with params := s.params.setFeatureBlock featureId deactivatedBlock })
  else
    (false, s)

/-! ## The two transactions -/

/-- The options that change who may activate features. -/
structure ActivationOptions where
  /-- `-omniactivationallowsender` -/
  allowSender : List Text
  /-- `-omniactivationignoresender` -/
  ignoreSender : List Text

/-- Senders on the list, with the options applied; `any` opens it to everybody. -/
def ActivationOptions.authorizes (o : ActivationOptions) (listed sender : Text) : Bool :=
  let whitelisted := (listed :: o.allowSender).filter fun t => !o.ignoreSender.contains t
  whitelisted.contains sender || whitelisted.contains ['a', 'n', 'y']

/-- `CheckActivationAuthorization`. -/
def checkActivationAuthorization (o : ActivationOptions) (sender : Text) : Bool :=
  o.authorizes "3Fc5gWzEQh1YGeqVXH6E4GDEGgbZJREJQ3".toList sender

/-- `CheckDeactivationAuthorization`. -/
def checkDeactivationAuthorization (o : ActivationOptions) (sender : Text) : Bool :=
  o.authorizes "34kwkVRSvFVEoUwcQSgpQ4ZUasuZ54DJLD".toList sender

/-- The activation a transaction asks for; the block is an `int`. -/
def CMPTransaction.activation (tx : CMPTransaction) : FeatureActivation :=
  { featureId := tx.featureId.toNat
    activationBlock := Int.bmod tx.activationBlock.toNat (2 ^ 32)
    minClientVersion := tx.minClientVersion.toNat }

/-- `logicMath_Activation`. -/
def logicMathActivation (o : ActivationOptions) (tx : CMPTransaction) : ExecM Int := do
  let s ← get
  if !s.params.isTransactionTypeAllowed tx.block tx.property.toNat tx.type.toNat
      tx.version.toNat then
    pure (pktError - 22)
  else if !checkActivationAuthorization o tx.sender.text then
    pure (pktError - 51)
  else
    let r := s.activateFeature tx.activation tx.block
    set r.2
    pure (if r.1 then 0 else pktError - 54)

/-- `logicMath_Deactivation`. -/
def logicMathDeactivation (o : ActivationOptions) (tx : CMPTransaction) : ExecM Int := do
  let s ← get
  if !s.params.isTransactionTypeAllowed tx.block tx.property.toNat tx.type.toNat
      tx.version.toNat then
    pure (pktError - 22)
  else if !checkDeactivationAuthorization o tx.sender.text then
    pure (pktError - 51)
  else
    let r := s.deactivateFeature tx.featureId.toNat tx.block
    set r.2
    if r.1 then
      -- did we deactivate the MetaDEx? If so close out all trades
      if Feature.ofId tx.featureId.toNat = some .metaDEx then
        let _ ← metaDExShutdown
      if Feature.ofId tx.featureId.toNat = some .tradeAllPairs then
        let _ ← metaDExShutdownAllPair
      pure 0
    else
      pure (pktError - 54)

/-- `OMNICORE_MESSAGE_TYPE_ACTIVATION`. -/
def messageTypeActivation : UInt16 := 65534

/-- `OMNICORE_MESSAGE_TYPE_DEACTIVATION`. -/
def messageTypeDeactivation : UInt16 := 65533

/-- `interpretPacket`, for the two types. -/
def interpretActivationPacket (o : ActivationOptions) (tx : CMPTransaction) : ExecM Int := do
  let s ← get
  if s.isAddressFrozen tx.sender tx.property.toNat then
    pure (pktError - 3)
  else if tx.type = messageTypeActivation then
    logicMathActivation o tx
  else if tx.type = messageTypeDeactivation then
    logicMathDeactivation o tx
  else
    pure (pktError - 100)

/-! ## A node that processes the chain, and one that is restarted -/

/-- One transaction of a block: processed and recorded. -/
def handleActivationTx (o : ActivationOptions) (tx : CMPTransaction) : ExecM Unit := do
  let interpRet ← interpretActivationPacket o tx
  modify fun s => { s with
    txList := recordTX s.txList
      ⟨tx.txid, decide (0 ≤ interpRet), tx.block, tx.type.toNat, tx.nNewValue.toNat⟩ }

/-- One block: activations go live, then its transactions. -/
def processActivationBlock (o : ActivationOptions) (block : Nat) (txs : List CMPTransaction) :
    ExecM Unit := do
  modify fun s => s.checkLiveActivations block
  txs.forM (handleActivationTx o)

/-- The blocks of a chain, given by their transactions, from height 1 on. -/
def processActivationChain (o : ActivationOptions) : Nat → List (List CMPTransaction) → ExecM Unit
  | _, [] => pure ()
  | block, txs :: rest => do
      processActivationBlock o block txs
      processActivationChain o (block + 1) rest

/-- One recorded activation: fetched from the chain, parsed and processed again. -/
def reloadActivation (o : ActivationOptions) (chain : Txid → Option CMPTransaction)
    (e : Int × Txid) : ExecM Unit := do
  match chain e.2 with
  | none => pure ()
  | some tx =>
      if tx.type = messageTypeActivation then
        let _ ← interpretActivationPacket o tx

/-- `CMPTxList::LoadActivations`. `chain` answers what `GetTransaction`, the block index and
    `ParseTransaction` make of a hash. -/
def loadActivations (o : ActivationOptions) (chain : Txid → Option CMPTransaction)
    (blockHeight : Nat) : ExecM Unit := do
  let s ← get
  let loadOrder := sortBy loadCmp (scanTxList (fun t => t == 65534) s.txList)
  loadOrder.forM (reloadActivation o chain)
  modify fun s => s.checkLiveActivations blockHeight

end OmniCore
