import OmniCore.Activation
import OmniCore.DExTx
import OmniCore.Issuance
import OmniCore.MetaDExReport
import OmniCore.Pending
import OmniCore.SendAll
import OmniCore.SendToOwnersTx

/-! # Node — the handlers that a node calls for the chain

    For every block of the active chain a node calls a handler before its transactions,
    one for each of them, and one after them. A transaction is interpreted, or looked at
    for payments and for purchases in the fundraiser; around the transactions activations
    go live, crowdsales and accepts expire, and the reward of the developers grows. -/

namespace OmniCore

open Machine TextRec MapSum Exec

/-! ## The surroundings of a node -/

/-- The options that change who may send alerts. -/
structure AlertOptions where
  /-- `-omnialertallowsender` -/
  allowSender : List Text
  /-- `-omnialertignoresender` -/
  ignoreSender : List Text

/-- What a node is configured with, what it calculates in floating point, and how deep margin calls may
    go. -/
structure NodeEnv where
  exodusAddress : Address
  exodusCrowdsaleAddress : Nat → Address
  isNonMainNet : Bool
  genesisBlock : Nat
  lastExodusBlock : Nat
  legacy : LegacyMath
  activation : ActivationOptions
  alert : AlertOptions
  /-- what is read behind the last frozen address passes an assertion -/
  pastEnd : Bool
  /-- `rounduint64(available_reward)` at the time of a block -/
  availableReward : Int → Int
  /-- `round(params.exodusReward * amountInvested * bonus)` at the time of a block -/
  exodusGenerated : Int → Int → Int
  /-- the recursion bound of the contract market -/
  fuel : Nat

/-- The addresses that receive the payments, a fundraiser between two blocks, and plain amounts. -/
def ledgerEnv : NodeEnv where
  exodusAddress := traderA
  exodusCrowdsaleAddress := fun _ => traderA
  isNonMainNet := false
  genesisBlock := 5
  lastExodusBlock := 10
  legacy := ⟨fun _ _ _ => 0, fun _ _ _ => 0⟩
  activation := ⟨[], []⟩
  alert := ⟨[], []⟩
  pastEnd := true
  availableReward := fun _ => 500
  exodusGenerated := fun amountInvested _ => amountInvested
  fuel := 3

/-! ## Alerts -/

/-- `CheckAlertAuthorization`. -/
def checkAlertAuthorization (o : AlertOptions) (sender : Text) : Bool :=
  let whitelisted := (["17xr7sbehYY4YSZX9yuJe6gK9rrdRrZx26".toList,
    "16oDZYCspsczfgKXVj3xyvsxH21NpEj94F".toList, "1883ZMsRJfzKNozUBJBTCxQ7EaiNioNDWz".toList,
    "1HHv91gRxqBzQ3gydMob3LU8hqXcWoLfvd".toList, "34kwkVRSvFVEoUwcQSgpQ4ZUasuZ54DJLD".toList] ++
    o.allowSender).filter fun t => !o.ignoreSender.contains t
  whitelisted.contains sender || whitelisted.contains ['a', 'n', 'y']

/-- `logicMath_Alert`; the list of alerts is not part of the state. -/
def logicMathAlert (o : AlertOptions) (tx : CMPTransaction) : ExecM Int := do
  let s ← get
  if !s.params.isTransactionTypeAllowed tx.block tx.property.toNat tx.type.toNat
      tx.version.toNat then
    pure (pktError - 22)
  else if !checkAlertAuthorization o tx.sender.text then
    pure (pktError - 51)
  else
    pure 0

/-! ## Transactions -/

namespace CMPTransaction

/-- The answer of a logic function that leaves the amount as it is. -/
def unamended (tx : CMPTransaction) (x : ExecM Int) : ExecM (Int × Int) := do
  let rc ← x
  pure (rc, tx.nNewValue.toNat)

/-- The answer of one that may replace `nNewValue`. -/
def amended (tx : CMPTransaction) (x : ExecM (Int × Option Int)) : ExecM (Int × Int) := do
  let r ← x
  pure (r.1, (r.2.map toUInt64).getD tx.nNewValue.toNat)

end CMPTransaction

/-- Code of the contract market on the node: the ghosts begin with it, and are forgotten. -/
def onNode {α : Type} (x : ExecW α) : ExecM α := fun s =>
  match x (World.start s) with
  | .ok a w => .ok a w.state
  | .error e w => .error e w.state

/-- The switch of `interpretPacket`. -/
def logicMath (env : NodeEnv) (chain : ChainEnv) (tx : CMPTransaction) : ExecM (Int × Int) :=
  match tx.type.toNat with
  | 0 => tx.unamended (logicMathSimpleSend chain tx)
  | 3 => tx.unamended (logicMathSendToOwners tx)
  | 4 => logicMathSendAll tx
  | 20 => tx.amended (logicMathTradeOffer env.legacy tx)
  | 22 => tx.amended (logicMathAcceptOfferBTC tx)
  | 25 => tx.unamended (logicMathMetaDExTrade tx)
  | 26 => tx.unamended (logicMathMetaDExCancelPrice tx)
  | 27 => tx.unamended (logicMathMetaDExCancelPair tx)
  | 28 => tx.unamended (logicMathMetaDExCancelEcosystem tx)
  | 29 => tx.unamended (onNode (logicMathContractDexTrade env.fuel tx))
  | 32 => tx.unamended (logicMathContractDexCancelEcosystem tx)
  | 40 => tx.unamended (logicMathCreateContractDex (chain.blockHash tx.block) tx)
  | 50 => tx.unamended (logicMathCreatePropertyFixed chain tx)
  | 51 => tx.unamended (logicMathCreatePropertyVariable chain tx)
  | 53 => tx.unamended (logicMathCloseCrowdsale chain tx)
  | 54 => tx.unamended (logicMathCreatePropertyManaged chain tx)
  | 55 => tx.unamended (logicMathGrantTokens chain tx)
  | 56 => tx.unamended (logicMathRevokeTokens chain tx)
  | 70 => tx.unamended (logicMathChangeIssuer ⟨chain.blockHash, env.pastEnd⟩ tx)
  | 71 | 72 | 185 | 186 =>
      match freezeBody ⟨chain.blockHash, env.pastEnd⟩ tx with
      | some body => tx.unamended (managedTx ⟨chain.blockHash, env.pastEnd⟩ tx body)
      | none => pure (pktError - 100, tx.nNewValue.toNat)
  | 65533 => tx.unamended (logicMathDeactivation env.activation tx)
  | 65534 => tx.unamended (logicMathActivation env.activation tx)
  | 65535 => tx.unamended (logicMathAlert env.alert tx)
  | _ => pure (pktError - 100, tx.nNewValue.toNat)

/-- `interpretPacket`, for an interpreted transaction, with the `nNewValue` it leaves. -/
def interpretPacket (env : NodeEnv) (chain : ChainEnv) (tx : CMPTransaction) :
    ExecM (Int × Int) := do
  let s ← get
  if (tx.type = 185 ∨ tx.type = 186) ∧ tx.receiver = none then
    -- `interpret_Transaction` has failed
    pure (pktError - 2, tx.nNewValue.toNat)
  else if s.isAddressFrozen tx.sender tx.property.toNat then
    pure (pktError - 3, tx.nNewValue.toNat)
  else
    logicMath env chain tx

/-! ## What is found in a transaction of the chain -/

/-- An output with a destination. -/
structure PaidOutput where
  position : Nat
  address : Address
  nValue : Int

/-- What `parseTransaction` makes of a transaction: nothing, a reason to look for payments, or a packet,
    which is interpreted already. -/
inductive ParsedTx
  | nothing (txid : Txid) (block : Nat)
  | payments (txid : Txid) (block : Nat) (sender : Address) (outputs : List PaidOutput)
  | packet (tx : CMPTransaction) (outputs : List PaidOutput)

namespace ParsedTx

def txid : ParsedTx → Txid
  | nothing txid _ => txid
  | payments txid _ _ _ => txid
  | packet tx _ => tx.txid

def block : ParsedTx → Nat
  | nothing _ block => block
  | payments _ block _ _ => block
  | packet tx _ => tx.block

end ParsedTx

/-- `TXExodusFundraiser`. -/
def txExodusFundraiser (env : NodeEnv) (sender : Address) (amountInvested : Int) (nBlock : Nat)
    (nTime : Int) : ExecM Unit :=
  if env.genesisBlock ≤ nBlock ∧ nBlock ≤ env.lastExodusBlock ∧
      0 < env.exodusGenerated amountInvested nTime then do
    assertUpdate sender omniPropertyMSC (env.exodusGenerated amountInvested nTime) .balance
    assertUpdate sender omniPropertyTMSC (env.exodusGenerated amountInvested nTime) .balance
  else
    pure ()

/-- The first output to the fundraiser. -/
def amountInvested (env : NodeEnv) (nBlock : Nat) (outputs : List PaidOutput) : Int :=
  ((outputs.find? fun o => o.address = env.exodusCrowdsaleAddress nBlock).map
    PaidOutput.nValue).getD 0

/-- `HandleExodusPurchase`, where it is called. -/
def handleExodusPurchase (env : NodeEnv) (nBlock : Nat) (sender : Address) (nTime : Int)
    (outputs : List PaidOutput) : ExecM Unit :=
  if (env.isNonMainNet = true ∨ nBlock ≤ env.lastExodusBlock) ∧
      0 < amountInvested env nBlock outputs then
    txExodusFundraiser env sender (amountInvested env nBlock outputs) nBlock nTime
  else
    pure ()

/-- `HandleDExPayments`. -/
def handleDExPayments (env : NodeEnv) (txid : Txid) (nBlock : Nat) (sender : Address)
    (outputs : List PaidOutput) : ExecM Unit :=
  outputs.forM fun o =>
    if o.address = env.exodusAddress then
      pure ()
    else do
      let _ ← dexPayment env.legacy txid o.position o.address sender o.nValue nBlock

/-- A packet is interpreted, and recorded unless it is structurally invalid. -/
def handlePacket (env : NodeEnv) (chain : ChainEnv) (tx : CMPTransaction) : ExecM Unit := do
  let (interpRet, nNewValue) ← interpretPacket env chain tx
  if interpRet ≠ pktError - 2 then
    modify fun s => { s with
      txList := recordTX s.txList
        ⟨tx.txid, decide (0 ≤ interpRet), tx.block, tx.type.toNat, nNewValue.toNat⟩
      omniTxDb := recordTransaction s.omniTxDb tx.txid tx.txIdx interpRet }

/-- `mastercore_handler_tx`. -/
def mastercoreHandlerTx (env : NodeEnv) (chain : ChainEnv) (parsed : ParsedTx) : ExecM Unit := do
  -- clear pending, if any
  pendingDelete parsed.txid
  match parsed with
  | .nothing _ _ => pure ()
  | .payments txid block sender outputs =>
      handleExodusPurchase env block sender chain.blockTime outputs
      handleDExPayments env txid block sender outputs
  | .packet tx outputs =>
      handleExodusPurchase env tx.block tx.sender chain.blockTime outputs
      handlePacket env chain tx

/-! ## Blocks -/

/-- `mastercore_handler_block_begin`, outside of the recovery from a reorganization. -/
def mastercoreHandlerBlockBegin (height blockHash : Nat) (blockTime : Int) : ExecM Unit := do
  -- handle any features that go live with this block
  modify fun s => s.checkLiveActivations height
  eraseExpiredCrowdsale blockHash blockTime

/-- `all_reward`. -/
def allReward : Int := 5631623576222

/-- `calculate_and_update_devmsc`. The update is not asserted. -/
def calculateAndUpdateDevmsc (env : NodeEnv) (nTime : Int) (block : Nat) : ExecM Int := do
  -- do nothing if before end of fundraiser
  if nTime < 1377993874 then
    pure 0
  else
    let s ← get
    let devmsc := env.availableReward nTime
    let exodusDelta ← signed64 (devmsc - s.exodusPrev)
    -- skip if a block's timestamp is older than that of a previous one!
    if exodusDelta < 0 then
      pure 0
    -- sanity check that devmsc isn't an impossible value
    else if allReward < devmsc ∨ devmsc < 0 then
      pure 0
    else do
      if 0 < exodusDelta then
        let _ ← updateTallyMap env.exodusAddress omniPropertyMSC exodusDelta .balance
        modify fun s => { s with exodusPrev := devmsc }
      notifyTotalTokensChanged omniPropertyMSC block
      pure exodusDelta

/-- `mastercore_handler_block_end`: what it does to the state of the node. -/
def mastercoreHandlerBlockEnd (env : NodeEnv) (height : Nat) (blockTime : Int)
    (vecMemPoolTxids : List Txid) : ExecM Unit := do
  eraseExpiredAccepts height
  let _ ← calculateAndUpdateDevmsc env blockTime height
  -- check that pending transactions are still in the mempool
  pendingCheck vecMemPoolTxids

/-! ## What a node is called for -/

/-- A call of one of the handlers. -/
inductive NodeEvent
  | blockBegin (height blockHash : Nat) (blockTime : Int)
  | transaction (chain : ChainEnv) (parsed : ParsedTx)
  | blockEnd (height : Nat) (blockTime : Int) (vecMemPoolTxids : List Txid)

namespace NodeEvent

def height : NodeEvent → Nat
  | blockBegin height _ _ => height
  | transaction _ parsed => parsed.block
  | blockEnd height _ _ => height

def txids : NodeEvent → List Txid
  | transaction _ parsed => [parsed.txid]
  | _ => []

def run (env : NodeEnv) : NodeEvent → ExecM Unit
  | blockBegin height blockHash blockTime => mastercoreHandlerBlockBegin height blockHash blockTime
  | transaction chain parsed => mastercoreHandlerTx env chain parsed
  | blockEnd height blockTime vecMemPoolTxids =>
      mastercoreHandlerBlockEnd env height blockTime vecMemPoolTxids

end NodeEvent

/-! ## The parts of the switch -/

section Parts

variable (env : NodeEnv) (chain : ChainEnv) {tx : CMPTransaction}

/-- **FREEZING** is the part of the switch that its types run. -/
theorem interpretPacket_freezing (htype : tx.type = 70 ∨ tx.type = 71 ∨ tx.type = 72 ∨
    tx.type = 185 ∨ tx.type = 186) : interpretPacket env chain tx =
      tx.unamended (interpretFreezePacket ⟨chain.blockHash, env.pastEnd⟩ tx) := by
  unfold interpretPacket interpretFreezePacket CMPTransaction.unamended
  rw [bind_assoc]
  refine bind_congr fun s => ?_
  by_cases hinvalid : (tx.type = 185 ∨ tx.type = 186) ∧ tx.receiver = none
  · rw [if_pos hinvalid, if_pos hinvalid, pure_bind]
  rw [if_neg hinvalid, if_neg hinvalid]
  by_cases hfrozen : s.isAddressFrozen tx.sender tx.property.toNat = true
  · rw [if_pos hfrozen, if_pos hfrozen, pure_bind]
  rw [if_neg hfrozen, if_neg hfrozen]
  unfold logicMath
  rcases htype with htype | htype
  · rw [htype]
    rfl
  · have hissuer : tx.type ≠ 70 := by
      rcases htype with h | h | h | h
      all_goals
        rw [h]
        decide
    rw [if_neg hissuer]
    cases hbody : freezeBody ⟨chain.blockHash, env.pastEnd⟩ tx with
    | none =>
        rcases htype with h | h | h | h
        all_goals
          rw [h, pure_bind]
          rfl
    | some body =>
        rcases htype with h | h | h | h
        all_goals
          rw [h]
          rfl

/-- A packet is recorded by what interprets it. -/
theorem handlePacket_of_interpretPacket {x handle : ExecM Int}
    (hx : interpretPacket env chain tx = tx.unamended x)
    (hhandle : handle = (do
      let interpRet ← x
      if interpRet ≠ pktError - 2 then
        modify fun s => { s with
          txList := recordTX s.txList
            ⟨tx.txid, decide (0 ≤ interpRet), tx.block, tx.type.toNat, tx.nNewValue.toNat⟩
          omniTxDb := recordTransaction s.omniTxDb tx.txid tx.txIdx interpRet }
      pure interpRet)) :
    handlePacket env chain tx = (do let _ ← handle) := by
  rw [hhandle]
  unfold handlePacket
  rw [hx]
  unfold CMPTransaction.unamended
  simp only [bind_assoc, pure_bind]
  refine bind_congr fun interpRet => ?_
  split
  · rfl
  · rfl

/-- A freezing transaction is handled by its part of the handler. -/
theorem handlePacket_freezing (htype : tx.type = 70 ∨ tx.type = 71 ∨ tx.type = 72 ∨
    tx.type = 185 ∨ tx.type = 186) : handlePacket env chain tx = (do
      let _ ← handleFreezeTx ⟨chain.blockHash, env.pastEnd⟩ tx) :=
  handlePacket_of_interpretPacket env chain (interpretPacket_freezing env chain htype) rfl

end Parts

end OmniCore
