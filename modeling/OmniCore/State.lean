import OmniCore.Lib.Exec
import OmniCore.Tally

/-! # State — what a node keeps between transactions

    All process-wide variables of the protocol engine in one record: the ledger,
    the three markets, the text databases, the property registry and the contract
    parameters. Code that may stop the node runs in `Exec`, whose halts keep the
    state they happened in. -/

namespace OmniCore

open Std (ExtTreeMap ExtTreeSet TransCmp)
open Machine TextRec MapSum Exec

/-! ## Consensus parameters -/

/-- The features whose activation height the engine asks for. -/
inductive Feature
  | classC
  | metaDEx
  | contractDEx
  | betting
  | grantEffects
  | dexMath
  | sendAll
  | spCrowdCrossover
  | tradeAllPairs
  | fees
  | stoV1
  | freezeNotice
  deriving DecidableEq, Repr

/-- The activation heights that are not feature heights. -/
structure BaseBlocks where
  mscAlertBlock : Nat
  mscSendBlock : Nat
  mscDExBlock : Nat
  mscSPBlock : Nat
  mscManualSPBlock : Nat
  mscSTOBlock : Nat

/-- `CConsensusParams`: the height of every feature and of the base transactions, the notice periods
    of activations, and the wait before freezing. -/
structure ConsensusParams where
  featureBlock : Feature → Nat
  base : BaseBlocks
  minActivationBlocks : Nat
  maxActivationBlocks : Nat
  freezeWaitPeriod : Nat

/-- Checks, whether a feature is activated at the given block. -/
def ConsensusParams.isFeatureActivated (c : ConsensusParams) (f : Feature) (block : Nat) : Bool :=
  decide (c.featureBlock f ≤ block)

/-- One row of the table of transaction types and the blocks at which they are enabled. -/
structure TransactionRestriction where
  txType : Nat
  txVersion : Nat
  allowWildcard : Bool
  activationBlock : Nat

def ConsensusParams.getRestrictions (c : ConsensusParams) : List TransactionRestriction :=
  [⟨65535, 0xFFFF, true, c.base.mscAlertBlock⟩,
   ⟨65534, 0xFFFF, true, c.base.mscAlertBlock⟩,
   ⟨65533, 0xFFFF, true, c.base.mscAlertBlock⟩,
   ⟨0, 0, false, c.base.mscSendBlock⟩,
   ⟨20, 0, false, c.base.mscDExBlock⟩,
   ⟨20, 1, false, c.base.mscDExBlock⟩,
   ⟨22, 0, false, c.base.mscDExBlock⟩,
   ⟨50, 0, false, c.base.mscSPBlock⟩,
   ⟨51, 0, false, c.base.mscSPBlock⟩,
   ⟨51, 1, false, c.base.mscSPBlock⟩,
   ⟨53, 0, false, c.base.mscSPBlock⟩,
   ⟨54, 0, false, c.base.mscManualSPBlock⟩,
   ⟨55, 0, false, c.base.mscManualSPBlock⟩,
   ⟨56, 0, false, c.base.mscManualSPBlock⟩,
   ⟨70, 0, false, c.base.mscManualSPBlock⟩,
   ⟨71, 0, false, c.base.mscManualSPBlock⟩,
   ⟨72, 0, false, c.base.mscManualSPBlock⟩,
   ⟨185, 0, false, c.base.mscManualSPBlock⟩,
   ⟨186, 0, false, c.base.mscManualSPBlock⟩,
   ⟨3, 0, false, c.base.mscSTOBlock⟩,
   ⟨3, 1, false, c.featureBlock .stoV1⟩,
   ⟨25, 0, false, c.featureBlock .metaDEx⟩,
   ⟨26, 0, false, c.featureBlock .metaDEx⟩,
   ⟨27, 0, false, c.featureBlock .metaDEx⟩,
   ⟨28, 0, false, c.featureBlock .metaDEx⟩,
   ⟨4, 0, false, c.featureBlock .sendAll⟩,
   ⟨29, 0, false, c.featureBlock .contractDEx⟩,
   ⟨30, 0, false, c.featureBlock .contractDEx⟩,
   ⟨32, 0, false, c.featureBlock .contractDEx⟩,
   ⟨40, 0, false, c.featureBlock .contractDEx⟩]

/-- Checks, if the transaction type and version is supported and enabled. The test
    ecosystem has no height restriction; property 0 must be allowed as a wildcard. -/
def ConsensusParams.isTransactionTypeAllowed (c : ConsensusParams) (txBlock : Nat)
    (txProperty : PropertyId) (txType version : Nat) : Bool :=
  c.getRestrictions.any fun entry =>
    entry.txType == txType && entry.txVersion == version
      && !(txProperty == omniPropertyBTC && !entry.allowWildcard)
      && (isTestEcosystemProperty txProperty || decide (entry.activationBlock ≤ txBlock))

/-! ## Market objects -/

/-- The `(block, idx)` pair by which order sets are sorted. -/
abbrev OrderKey := Nat × Nat

/-- A token order on the MetaDEx. -/
structure CMPMetaDEx where
  addr : Address
  block : Nat
  txid : Txid
  idx : Nat
  property : PropertyId
  amountForsale : Int
  desiredProperty : PropertyId
  amountDesired : Int
  amountRemaining : Int
  subaction : Nat
  deriving DecidableEq

/-- A contract order. `serial` is a ghost: it numbers the calls of `ContractDex_ADD` for a
    property, so that an order keeps its identity when it is replaced by its remainder. -/
structure CMPContractDex where
  addr : Address
  block : Nat
  txid : Txid
  idx : Nat
  property : PropertyId
  amountForsale : Int
  desiredProperty : PropertyId
  amountDesired : Int
  amountRemaining : Int
  subaction : Nat
  effectivePrice : Nat
  tradingAction : Nat
  serial : Nat
  deriving DecidableEq

/-- A sell offer on the DEx. -/
structure CMPOffer where
  offerBlock : Nat
  offerAmountOriginal : Int
  property : PropertyId
  btcDesiredOriginal : Int
  minFee : Int
  blocktimelimit : Nat
  txid : Txid
  subaction : Nat
  deriving DecidableEq

/-- An accepted sell offer on the DEx. -/
structure CMPAccept where
  acceptAmountOriginal : Int
  acceptAmountRemaining : Int
  blocktimelimit : Nat
  property : PropertyId
  offerAmountOriginal : Int
  btcDesiredOriginal : Int
  offerTxid : Txid
  block : Nat
  deriving DecidableEq

/-- A running crowdsale. -/
structure CMPCrowd where
  propertyId : PropertyId
  nValue : Int
  propertyDesired : PropertyId
  deadline : Int
  earlyBird : Nat
  percentage : Nat
  uCreated : Int
  iCreated : Int
  txid : Txid
  txFundraiserData : ExtTreeMap Txid (List Int)

/-- Orders of one price level, by `(block, idx)`. -/
abbrev MdSet := ExtTreeMap OrderKey CMPMetaDEx pairCmp

/-- Prices are ordered as rational numbers are. -/
instance transCmpPrice : TransCmp (compare : ℚ → ℚ → Ordering) := inferInstance

abbrev MdPricesMap := ExtTreeMap ℚ MdSet

abbrev MdPropertiesMap := ExtTreeMap PropertyId MdPricesMap

abbrev CdSet := ExtTreeMap OrderKey CMPContractDex pairCmp

abbrev CdPricesMap := ExtTreeMap Nat CdSet

abbrev CdPropertiesMap := ExtTreeMap PropertyId CdPricesMap

/-! ## The property registry -/

/-- `CMPSPInfo::Entry`; what its constructor sets is the default. -/
structure SPEntry where
  issuer : Text
  txid : Txid
  propType : Nat
  numTokens : Int
  category : Text
  subcategory : Text
  name : Text
  url : Text
  data : Text
  fixed : Bool
  manual : Bool
  propertyDesired : PropertyId
  deadline : Int
  earlyBird : Nat
  percentage : Nat
  creationBlock : Nat
  updateBlock : Nat
  blocksUntilExpiration : Nat
  notionalSize : Nat
  collateralCurrency : Nat
  marginRequirement : Nat
  prevPropId : PropertyId := 0
  closeEarly : Bool := false
  maxTokens : Bool := false
  missedTokens : Int := 0
  timeclosed : Int := 0
  txidClose : Txid := 0
  /-- `txid -> granted amount, revoked amount`, or the participations of a crowdsale -/
  historicalData : ExtTreeMap Txid (List Int) := ∅
  deriving DecidableEq

/-- `CMPSPInfo`: the entries, the transaction index, the entries that were replaced in a block, by
    block hash and identifier, and the next free identifiers. -/
structure CMPSPInfo where
  entries : ExtTreeMap PropertyId SPEntry
  txIndex : ExtTreeMap Txid PropertyId
  prevEntries : ExtTreeMap (Nat × PropertyId) SPEntry pairCmp := ∅
  nextSPID : Nat
  nextTestSPID : Nat
  nextSPC : Nat

/-! ## Feature activations and pending transactions -/

/-- A feature activation that was requested. -/
structure FeatureActivation where
  featureId : Nat
  activationBlock : Int
  minClientVersion : Nat
  deriving DecidableEq, Repr

/-- `CMPPending`: a transaction of the wallet that is not in a block yet. -/
structure CMPPending where
  src : Address
  prop : PropertyId
  amount : Int
  type : Nat

/-! ## The node -/

/-- `mp_tally_map`: the tally of every address that was ever touched. -/
abbrev TallyMap := ExtTreeMap Address CMPTally

/-- A LevelDB database: text keys in order, text values. -/
abbrev TextDB := ExtTreeMap Text Text

/-- Everything a node keeps between two transactions. -/
structure State where
  params : ConsensusParams
  /-- the `msc_debug_fees` switch; `PruneCache` depends on it -/
  debugFees : Bool
  /-- `mp_tally_map` -/
  tallyMap : TallyMap
  /-- `setFrozenAddresses` -/
  frozenAddresses : ExtTreeSet (Address × PropertyId) pairCmp
  /-- `my_offers` -/
  offers : ExtTreeMap Text CMPOffer
  /-- `my_accepts` -/
  accepts : ExtTreeMap Text CMPAccept
  /-- `my_crowds` -/
  crowds : ExtTreeMap Address CMPCrowd
  metadex : MdPropertiesMap
  contractdex : CdPropertiesMap
  /-- `_my_sps` -/
  sps : CMPSPInfo
  /-- `t_tradelistdb` -/
  tradeList : TextDB
  /-- `p_txlistdb` -/
  txList : TextDB
  /-- `p_OmniTXDB` -/
  omniTxDb : TextDB
  /-- `s_stolistdb` -/
  stoList : TextDB
  /-- `p_feecache` -/
  feeCache : TextDB
  /-- `p_feehistory` -/
  feeHistory : TextDB
  distributionThresholds : ExtTreeMap PropertyId Int
  /-- `exodus_prev` -/
  exodusPrev : Int
  marketPrice : Nat
  blocksUntilExpiration : Nat
  notionalSize : Nat
  collateralCurrency : PropertyId
  marginRequirementContract : Nat
  /-- `setFreezingEnabledProperties` -/
  freezingEnabled : ExtTreeSet (PropertyId × Int) pairCmp
  /-- `vecPendingActivations` -/
  pendingActivations : List FeatureActivation
  /-- `vecCompletedActivations` -/
  completedActivations : List FeatureActivation
  /-- `my_pending` -/
  pending : ExtTreeMap Txid CMPPending

/-- A freshly started node: nothing recorded, the first identifiers free. -/
def State.fresh (params : ConsensusParams) : State where
  params := params
  debugFees := false
  tallyMap := ∅
  frozenAddresses := ∅
  offers := ∅
  accepts := ∅
  crowds := ∅
  metadex := ∅
  contractdex := ∅
  sps := { entries := ∅, txIndex := ∅, nextSPID := 3, nextTestSPID := testEcoProperty1, nextSPC := 3 }
  tradeList := ∅
  txList := ∅
  omniTxDb := ∅
  stoList := ∅
  feeCache := ∅
  feeHistory := ∅
  distributionThresholds := ∅
  exodusPrev := 0
  marketPrice := 0
  blocksUntilExpiration := 0
  notionalSize := 0
  collateralCurrency := 0
  marginRequirementContract := 0
  freezingEnabled := ∅
  pendingActivations := []
  completedActivations := []
  pending := ∅

/-- Which assertion stopped the node. -/
inductive AssertSite
  /-- `assert(update_tally_map(..))` -/
  | updateTally
  /-- a debit of a frozen balance -/
  | frozen
  /-- `ConvertTo256` of a negative or `ConvertTo64` of a large number -/
  | convert
  /-- a pre- or postcondition of a matching loop -/
  | condition
  /-- `assert(propertyId > 0)` -/
  | propertyId
  deriving DecidableEq, Repr

/-- How a run ends without returning. -/
inductive Halt
  | assertFailed (site : AssertSite)
  /-- `AbortNode` -/
  | nodeAborted
  /-- `bad_lexical_cast` or another uncaught exception -/
  | exception
  /-- a dangling iterator, a past-the-end access, a signed overflow -/
  | undefinedBehaviour
  /-- the recursion bound of the model is used up -/
  | outOfFuel
  deriving DecidableEq, Repr

/-- Code that works on the node state and may stop the node. -/
abbrev ExecM := EStateM Halt State

/-- `assert(c)`. -/
def assertThat (site : AssertSite) (c : Bool) : ExecM Unit :=
  if c then pure () else throw (.assertFailed site)

@[simp] theorem wp_assertThat (site : AssertSite) (c : Bool) (Q : Unit → State → Prop)
    (E : Halt → State → Prop) (s : State) :
    wp (assertThat site c) Q E s ↔
      (c = true → Q () s) ∧ (c = false → E (.assertFailed site) s) := by
  cases c <;> simp [assertThat]

/-- `ConvertTo256`. -/
def convertTo256 (n : Int) : ExecM Nat := do
  assertThat .convert (decide (0 ≤ n))
  pure n.toNat

/-- `ConvertTo64`. -/
def convertTo64 (n : Nat) : ExecM Int := do
  assertThat .convert (decide ((n : Int) ≤ maxInt64))
  pure n

/-- A signed 64-bit result whose overflow the code does not check. -/
def signed64 (n : Int) : ExecM Int :=
  if IsInt64 n then pure n else throw .undefinedBehaviour

@[simp] theorem wp_convertTo256 (n : Int) (Q : Nat → State → Prop)
    (E : Halt → State → Prop) (s : State) :
    wp (convertTo256 n) Q E s ↔
      (0 ≤ n → Q n.toNat s) ∧ (n < 0 → E (.assertFailed .convert) s) := by
  simp [convertTo256]

@[simp] theorem wp_convertTo64 (n : Nat) (Q : Int → State → Prop)
    (E : Halt → State → Prop) (s : State) :
    wp (convertTo64 n) Q E s ↔
      ((n : Int) ≤ maxInt64 → Q n s) ∧ (maxInt64 < (n : Int) → E (.assertFailed .convert) s) := by
  simp [convertTo64]

@[simp] theorem wp_signed64 (n : Int) (Q : Int → State → Prop)
    (E : Halt → State → Prop) (s : State) :
    wp (signed64 n) Q E s ↔
      (IsInt64 n → Q n s) ∧ (¬ IsInt64 n → E .undefinedBehaviour s) := by
  unfold signed64
  rw [wp_ite]
  simp

end OmniCore
