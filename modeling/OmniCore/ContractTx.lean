import OmniCore.ContractDex
import OmniCore.Registry

/-! # ContractTx — contract transactions

    The three transaction types of the contract market: trade (29), cancel (32) and
    create (40). Trading reserves margin out of three
    process-wide variables that every creation overwrites. -/

namespace OmniCore

open Std (ExtTreeMap)
open Machine TextRec MapSum Exec

/-! ## Trade -/

/-- `logicMath_ContractDexTrade`. -/
def logicMathContractDexTrade (fuel : Nat) (tx : CMPTransaction) : ExecW Int := do
  let w ← get
  let s := w.state
  let nBalance := s.getMPbalance tx.sender s.collateralCurrency .balance
  -- `nValue*Sum` in `uint64_t`, then converted
  let amountToReserve := toInt64 (tx.nValue.toNat * s.marginRequirementContract)
  if nBalance < amountToReserve then
    pure (pktErrorMetaDEx - 25)
  else
    onState (assertUpdate tx.sender s.collateralCurrency (-amountToReserve) .balance)
    onState (assertUpdate tx.sender s.collateralCurrency amountToReserve .contractDExReserve)
    onState (recordNewTrade tx.txid tx.sender tx.property.toNat tx.desiredProperty.toNat tx.block
      tx.txIdx)
    contractDexAdd fuel tx.sender tx.property.toNat (toInt64 tx.nValue.toNat) tx.block
      tx.desiredProperty.toNat (toInt64 tx.desiredValue.toNat) tx.txid tx.txIdx
      tx.effectivePrice.toNat tx.tradingAction.toNat

/-! ## Cancel -/

/-- The properties that a cancel of an ecosystem looks at. -/
def inCancelledEcosystem (ecosystem : Nat) (prop : PropertyId) : Bool :=
  !(isMainEcosystemProperty ecosystem && !isMainEcosystemProperty prop)
    && !(isTestEcosystemProperty ecosystem && !isTestEcosystemProperty prop)

/-- The resting contract orders of an ecosystem, whoever placed them, in the order of iteration. -/
def contractOrdersIn (s : State) (ecosystem : Nat) :
    List (PropertyId × Nat × OrderKey × CMPContractDex) :=
  s.contractdex.toList.flatMap fun e =>
    if inCancelledEcosystem ecosystem e.1 then (offersInOrder e.2).map fun o => (e.1, o) else []

/-- The conversions of a format; `%%` prints a percent sign. -/
def conversions : Text → Nat
  | '%' :: '%' :: rest => conversions rest
  | '%' :: rest => conversions rest + 1
  | _ :: rest => conversions rest
  | [] => 0

/-- `strprintf` for a text that is only logged: a number of arguments other than that of the
    conversions is an exception. -/
def strprintf (format : Text) (arguments : Nat) : ExecM Unit :=
  if conversions format = arguments then pure () else throw .exception

/-- `CMPContractDex::ToString`: the format of a MetaDEx offer, less the two arguments for what is
    desired. -/
def CMPContractDex.toString (_ : CMPContractDex) : ExecM Unit :=
  strprintf "%s:%34s in %d/%03u, txid: %s , trade #%u %s for #%u %s".toList 7

/-- The body of the cancel loop at one order, with the return code so far. The line of the log is put
    together before anything else. Behind it the amount of contracts is moved out of
    `METADEX_RESERVE` of the contract property, where no contract order ever put anything. -/
def cancelContractOrder (txid : Txid) (block : Nat) (sender : Address) (rc : Int)
    (e : PropertyId × Nat × OrderKey × CMPContractDex) : ExecM Int := do
  let (prop, price, key, o) := e
  o.toString
  if o.addr ≠ sender then
    pure rc
  else
    o.toString
    assertUpdate o.addr o.property (-o.amountForsale) .metaDExReserve
    assertUpdate o.addr o.property o.amountForsale .balance
    recordContractDexCancelTX txid o.txid true block o.property o.amountForsale
    modify fun s => s.setContractLevel prop price ((s.contractLevel prop price).erase key)
    pure 0

/-- `ContractDex_CANCEL_EVERYTHING`. -/
def contractDexCancelEverything (txid : Txid) (block : Nat) (sender : Address) (ecosystem : Nat) :
    ExecM Int := do
  let s ← get
  (contractOrdersIn s ecosystem).foldlM (cancelContractOrder txid block sender) (metaDExError - 40)

/-- `logicMath_ContractDexCancelEcosystem`. -/
def logicMathContractDexCancelEcosystem (tx : CMPTransaction) : ExecM Int := do
  let s ← get
  if !s.params.isTransactionTypeAllowed tx.block tx.ecosystem.toNat tx.type.toNat
      tx.version.toNat then
    pure (pktErrorMetaDEx - 22)
  else if tx.ecosystem.toNat ≠ omniPropertyMSC ∧ tx.ecosystem.toNat ≠ omniPropertyTMSC then
    pure (pktErrorMetaDEx - 21)
  else
    contractDexCancelEverything tx.txid tx.block tx.sender tx.ecosystem.toNat

/-! ## Create -/

/-- The registry entry of a new contract. -/
def contractEntry (tx : CMPTransaction) (blockHash : Nat) : SPEntry :=
  { issuer := tx.sender.text, txid := tx.txid, propType := tx.propType.toNat,
    numTokens := toInt64 tx.nValue.toNat, category := tx.category, subcategory := tx.subcategory,
    name := tx.name, url := tx.url, data := tx.data, fixed := false, manual := false,
    propertyDesired := tx.property.toNat, deadline := toInt64 tx.deadline.toNat,
    earlyBird := tx.earlyBird.toNat, percentage := tx.percentage.toNat,
    creationBlock := blockHash, updateBlock := blockHash,
    blocksUntilExpiration := tx.blocksUntilExpiration.toNat,
    notionalSize := tx.notionalSize.toNat, collateralCurrency := tx.collateralCurrency.toNat,
    marginRequirement := tx.marginRequirement.toNat }

/-- `logicMath_CreateContractDex`; `blockHash` is the hash of the block in the active chain, if
    it is there. The process-wide contract parameters become those of the new contract. -/
def logicMathCreateContractDex (blockHash : Option Nat) (tx : CMPTransaction) : ExecM Int := do
  match blockHash with
  | none => pure (pktErrorSP - 20)
  | some blockHash => do
      modify fun s => { s with
        blocksUntilExpiration := tx.blocksUntilExpiration.toNat
        notionalSize := tx.notionalSize.toNat
        collateralCurrency := tx.collateralCurrency.toNat
        marginRequirementContract := tx.marginRequirement.toNat }
      let s ← get
      let r := s.sps.putSP tx.ecosystem.toNat (contractEntry tx blockHash)
      set { s with sps := r.2 }
      assertThat .propertyId (decide (0 < r.1))
      pure 0

end OmniCore
