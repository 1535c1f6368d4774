import OmniCore.Interpret

/-! # Payload — the payload creation functions

    Every transaction type has a function that pushes the version, the type and the
    arguments to a vector of bytes. `PayloadCall` collects the calls of these functions,
    with what the parser makes of each of them. -/

namespace OmniCore

open TextRec Exec Wire

/-! ## Pushing bytes -/

/-- `PUSH_BACK_BYTES` of a swapped number. -/
def push16 (o : ByteOrder) (v : UInt16) : List UInt8 := bytes16 o (swapByteOrder16 o v)

def push32 (o : ByteOrder) (v : UInt32) : List UInt8 := bytes32 o (swapByteOrder32 o v)

def push64 (o : ByteOrder) (v : UInt64) : List UInt8 := bytes64 o (swapByteOrder64 o v)

/-- Version and type. -/
def pushHeader (o : ByteOrder) (messageVer messageType : UInt16) : List UInt8 :=
  push16 o messageVer ++ push16 o messageType

/-- A text of at most 255 bytes, and a zero. -/
def pushString (str : List UInt8) : List UInt8 :=
  (if 255 < str.length then str.take 255 else str) ++ [0]

/-! ## The functions -/

section Create

variable (o : ByteOrder)

def createPayloadSimpleSend (propertyId : UInt32) (amount : UInt64) : List UInt8 :=
  pushHeader o 0 0 ++ push32 o propertyId ++ push64 o amount

def createPayloadSendAll (ecosystem : UInt8) : List UInt8 :=
  pushHeader o 0 4 ++ [ecosystem]

def createPayloadDExSell (propertyId : UInt32) (amountForSale amountDesired : UInt64)
    (timeLimit : UInt8) (minFee : UInt64) (subAction : UInt8) : List UInt8 :=
  pushHeader o 1 20 ++ push32 o propertyId ++ push64 o amountForSale ++ push64 o amountDesired ++
    [timeLimit] ++ push64 o minFee ++ [subAction]

def createPayloadDExAccept (propertyId : UInt32) (amount : UInt64) : List UInt8 :=
  pushHeader o 0 22 ++ push32 o propertyId ++ push64 o amount

/-- Version 0 if the tokens go to the owners of the same property. -/
def createPayloadSendToOwners (propertyId : UInt32) (amount : UInt64)
    (distributionProperty : UInt32) : List UInt8 :=
  if propertyId = distributionProperty then
    pushHeader o 0 3 ++ push32 o propertyId ++ push64 o amount
  else
    pushHeader o 1 3 ++ push32 o propertyId ++ push64 o amount ++ push32 o distributionProperty

/-- What the issuances start with. -/
def pushProperty (messageType : UInt16) (ecosystem : UInt8) (propertyType : UInt16)
    (previousPropertyId : UInt32) (category subcategory name url data : List UInt8) : List UInt8 :=
  pushHeader o 0 messageType ++ [ecosystem] ++ push16 o propertyType ++
    push32 o previousPropertyId ++ pushString category ++ pushString subcategory ++
    pushString name ++ pushString url ++ pushString data

def createPayloadIssuanceFixed (ecosystem : UInt8) (propertyType : UInt16)
    (previousPropertyId : UInt32) (category subcategory name url data : List UInt8)
    (amount : UInt64) : List UInt8 :=
  pushProperty o 50 ecosystem propertyType previousPropertyId category subcategory name url data ++
    push64 o amount

/-- The terms of a crowdsale. -/
def pushCrowdsaleTerms (propertyIdDesired : UInt32) (amountPerUnit deadline : UInt64)
    (earlyBonus issuerPercentage : UInt8) : List UInt8 :=
  push32 o propertyIdDesired ++ push64 o amountPerUnit ++ push64 o deadline ++ [earlyBonus] ++
    [issuerPercentage]

def createPayloadIssuanceVariable (ecosystem : UInt8) (propertyType : UInt16)
    (previousPropertyId : UInt32) (category subcategory name url data : List UInt8)
    (propertyIdDesired : UInt32) (amountPerUnit deadline : UInt64)
    (earlyBonus issuerPercentage : UInt8) : List UInt8 :=
  pushProperty o 51 ecosystem propertyType previousPropertyId category subcategory name url data ++
    pushCrowdsaleTerms o propertyIdDesired amountPerUnit deadline earlyBonus issuerPercentage

def createPayloadCreateContract (ecosystem : UInt8) (propertyType : UInt16)
    (previousPropertyId : UInt32) (category subcategory name url data : List UInt8)
    (propertyIdDesired : UInt32) (amountPerUnit deadline : UInt64)
    (earlyBonus issuerPercentage : UInt8)
    (blocksUntilExpiration notionalSize collateralCurrency marginRequirement : UInt32) :
    List UInt8 :=
  pushProperty o 40 ecosystem propertyType previousPropertyId category subcategory name url data ++
    pushCrowdsaleTerms o propertyIdDesired amountPerUnit deadline earlyBonus issuerPercentage ++
    push32 o blocksUntilExpiration ++ push32 o notionalSize ++ push32 o collateralCurrency ++
    push32 o marginRequirement

def createPayloadIssuanceManaged (ecosystem : UInt8) (propertyType : UInt16)
    (previousPropertyId : UInt32) (category subcategory name url data : List UInt8) : List UInt8 :=
  pushProperty o 54 ecosystem propertyType previousPropertyId category subcategory name url data

/-- A property, for one of the types that carry nothing else. -/
def pushPropertyOnly (messageType : UInt16) (propertyId : UInt32) : List UInt8 :=
  pushHeader o 0 messageType ++ push32 o propertyId

def createPayloadCloseCrowdsale (propertyId : UInt32) : List UInt8 := pushPropertyOnly o 53 propertyId

/-- A property, an amount and a memo. -/
def pushMemo (messageType : UInt16) (propertyId : UInt32) (amount : UInt64) (memo : List UInt8) :
    List UInt8 :=
  pushHeader o 0 messageType ++ push32 o propertyId ++ push64 o amount ++ pushString memo

def createPayloadGrant (propertyId : UInt32) (amount : UInt64) (memo : List UInt8) : List UInt8 :=
  pushMemo o 55 propertyId amount memo

def createPayloadRevoke (propertyId : UInt32) (amount : UInt64) (memo : List UInt8) : List UInt8 :=
  pushMemo o 56 propertyId amount memo

def createPayloadChangeIssuer (propertyId : UInt32) : List UInt8 := pushPropertyOnly o 70 propertyId

def createPayloadEnableFreezing (propertyId : UInt32) : List UInt8 := pushPropertyOnly o 71 propertyId

def createPayloadDisableFreezing (propertyId : UInt32) : List UInt8 :=
  pushPropertyOnly o 72 propertyId

/-- A property, an amount and the bytes of an address. -/
def pushReference (messageType : UInt16) (propertyId : UInt32) (amount : UInt64) (address : Text) :
    Except Halt (List UInt8) := do
  let addressBytes ← addressToBytes address
  pure (pushHeader o 0 messageType ++ push32 o propertyId ++ push64 o amount ++ addressBytes)

def createPayloadFreezeTokens (propertyId : UInt32) (amount : UInt64) (address : Text) :
    Except Halt (List UInt8) :=
  pushReference o 185 propertyId amount address

def createPayloadUnfreezeTokens (propertyId : UInt32) (amount : UInt64) (address : Text) :
    Except Halt (List UInt8) :=
  pushReference o 186 propertyId amount address

/-- Two properties and two amounts. -/
def pushPair (messageType : UInt16) (propertyIdForSale : UInt32) (amountForSale : UInt64)
    (propertyIdDesired : UInt32) (amountDesired : UInt64) : List UInt8 :=
  pushHeader o 0 messageType ++ push32 o propertyIdForSale ++ push64 o amountForSale ++
    push32 o propertyIdDesired ++ push64 o amountDesired

def createPayloadMetaDExTrade (propertyIdForSale : UInt32) (amountForSale : UInt64)
    (propertyIdDesired : UInt32) (amountDesired : UInt64) : List UInt8 :=
  pushPair o 25 propertyIdForSale amountForSale propertyIdDesired amountDesired

def createPayloadMetaDExCancelPrice (propertyIdForSale : UInt32) (amountForSale : UInt64)
    (propertyIdDesired : UInt32) (amountDesired : UInt64) : List UInt8 :=
  pushPair o 26 propertyIdForSale amountForSale propertyIdDesired amountDesired

/-- A contract order. -/
def pushContractOrder (messageType : UInt16) (propertyIdForSale : UInt32) (amountForSale : UInt64)
    (propertyIdDesired : UInt32) (amountDesired effectivePrice : UInt64) (tradingAction : UInt8) :
    List UInt8 :=
  pushPair o messageType propertyIdForSale amountForSale propertyIdDesired amountDesired ++
    push64 o effectivePrice ++ [tradingAction]

def createPayloadContractDexCancelPrice (propertyIdForSale : UInt32) (amountForSale : UInt64)
    (propertyIdDesired : UInt32) (amountDesired effectivePrice : UInt64) (tradingAction : UInt8) :
    List UInt8 :=
  pushContractOrder o 30 propertyIdForSale amountForSale propertyIdDesired amountDesired
    effectivePrice tradingAction

def createPayloadMetaDExCancelPair (propertyIdForSale propertyIdDesired : UInt32) : List UInt8 :=
  pushHeader o 0 27 ++ push32 o propertyIdForSale ++ push32 o propertyIdDesired

def createPayloadMetaDExCancelEcosystem (ecosystem : UInt8) : List UInt8 :=
  pushHeader o 0 28 ++ [ecosystem]

def createPayloadContractDexCancelEcosystem (ecosystem : UInt8) : List UInt8 :=
  pushHeader o 0 32 ++ [ecosystem]

def createPayloadContractDexTrade (propertyIdForSale : UInt32) (amountForSale : UInt64)
    (propertyIdDesired : UInt32) (amountDesired effectivePrice : UInt64) (tradingAction : UInt8) :
    List UInt8 :=
  pushContractOrder o 29 propertyIdForSale amountForSale propertyIdDesired amountDesired
    effectivePrice tradingAction

def createPayloadDeactivateFeature (featureId : UInt16) : List UInt8 :=
  pushHeader o 65535 65533 ++ push16 o featureId

def createPayloadActivateFeature (featureId : UInt16) (activationBlock minClientVersion : UInt32) :
    List UInt8 :=
  pushHeader o 65535 65534 ++ push16 o featureId ++ push32 o activationBlock ++
    push32 o minClientVersion

/-- The message is not cut. -/
def createPayloadOmniCoreAlert (alertType : UInt16) (expiryValue : UInt32)
    (alertMessage : List UInt8) : List UInt8 :=
  pushHeader o 65535 65535 ++ push16 o alertType ++ push32 o expiryValue ++ alertMessage ++ [0]

end Create

/-! ## The calls -/

/-- The arguments that describe a property. -/
structure PropertyArgs where
  ecosystem : UInt8
  propertyType : UInt16
  previousPropertyId : UInt32
  category : List UInt8
  subcategory : List UInt8
  name : List UInt8
  url : List UInt8
  data : List UInt8

/-- The five texts, in the order in which they are sent. -/
def PropertyArgs.texts (a : PropertyArgs) : List (List UInt8) :=
  [a.category, a.subcategory, a.name, a.url, a.data]

/-- The arguments that describe a crowdsale. -/
structure CrowdsaleArgs where
  propertyIdDesired : UInt32
  amountPerUnit : UInt64
  deadline : UInt64
  earlyBonus : UInt8
  issuerPercentage : UInt8

/-- The arguments of an order. -/
structure OrderArgs where
  propertyIdForSale : UInt32
  amountForSale : UInt64
  propertyIdDesired : UInt32
  amountDesired : UInt64

/-- A call of one of the functions. -/
inductive PayloadCall
  | simpleSend (propertyId : UInt32) (amount : UInt64)
  | sendAll (ecosystem : UInt8)
  | dexSell (propertyId : UInt32) (amountForSale amountDesired : UInt64) (timeLimit : UInt8)
      (minFee : UInt64) (subAction : UInt8)
  | dexAccept (propertyId : UInt32) (amount : UInt64)
  | sendToOwners (propertyId : UInt32) (amount : UInt64) (distributionProperty : UInt32)
  | issuanceFixed (a : PropertyArgs) (amount : UInt64)
  | issuanceVariable (a : PropertyArgs) (c : CrowdsaleArgs)
  | createContract (a : PropertyArgs) (c : CrowdsaleArgs)
      (blocksUntilExpiration notionalSize collateralCurrency marginRequirement : UInt32)
  | issuanceManaged (a : PropertyArgs)
  | closeCrowdsale (propertyId : UInt32)
  | grant (propertyId : UInt32) (amount : UInt64) (memo : List UInt8)
  | revoke (propertyId : UInt32) (amount : UInt64) (memo : List UInt8)
  | changeIssuer (propertyId : UInt32)
  | enableFreezing (propertyId : UInt32)
  | disableFreezing (propertyId : UInt32)
  | freezeTokens (propertyId : UInt32) (amount : UInt64) (address : Address)
  | unfreezeTokens (propertyId : UInt32) (amount : UInt64) (address : Address)
  | metaDExTrade (a : OrderArgs)
  | metaDExCancelPrice (a : OrderArgs)
  | metaDExCancelPair (propertyIdForSale propertyIdDesired : UInt32)
  | metaDExCancelEcosystem (ecosystem : UInt8)
  | contractDexTrade (a : OrderArgs) (effectivePrice : UInt64) (tradingAction : UInt8)
  | contractDexCancelPrice (a : OrderArgs) (effectivePrice : UInt64) (tradingAction : UInt8)
  | contractDexCancelEcosystem (ecosystem : UInt8)
  | deactivateFeature (featureId : UInt16)
  | activateFeature (featureId : UInt16) (activationBlock minClientVersion : UInt32)
  | omniCoreAlert (alertType : UInt16) (expiryValue : UInt32) (alertMessage : List UInt8)

namespace PayloadCall

/-- The payload a call returns. -/
def payload (o : ByteOrder) : PayloadCall → Except Halt (List UInt8)
  | simpleSend p n => .ok (createPayloadSimpleSend o p n)
  | sendAll e => .ok (createPayloadSendAll o e)
  | dexSell p n d t f s => .ok (createPayloadDExSell o p n d t f s)
  | dexAccept p n => .ok (createPayloadDExAccept o p n)
  | sendToOwners p n d => .ok (createPayloadSendToOwners o p n d)
  | issuanceFixed a n => .ok (createPayloadIssuanceFixed o a.ecosystem a.propertyType
      a.previousPropertyId a.category a.subcategory a.name a.url a.data n)
  | issuanceVariable a c => .ok (createPayloadIssuanceVariable o a.ecosystem a.propertyType
      a.previousPropertyId a.category a.subcategory a.name a.url a.data c.propertyIdDesired
      c.amountPerUnit c.deadline c.earlyBonus c.issuerPercentage)
  | createContract a c b n cc m => .ok (createPayloadCreateContract o a.ecosystem a.propertyType
      a.previousPropertyId a.category a.subcategory a.name a.url a.data c.propertyIdDesired
      c.amountPerUnit c.deadline c.earlyBonus c.issuerPercentage b n cc m)
  | issuanceManaged a => .ok (createPayloadIssuanceManaged o a.ecosystem a.propertyType
      a.previousPropertyId a.category a.subcategory a.name a.url a.data)
  | closeCrowdsale p => .ok (createPayloadCloseCrowdsale o p)
  | grant p n m => .ok (createPayloadGrant o p n m)
  | revoke p n m => .ok (createPayloadRevoke o p n m)
  | changeIssuer p => .ok (createPayloadChangeIssuer o p)
  | enableFreezing p => .ok (createPayloadEnableFreezing o p)
  | disableFreezing p => .ok (createPayloadDisableFreezing o p)
  | freezeTokens p n a => createPayloadFreezeTokens o p n a.text
  | unfreezeTokens p n a => createPayloadUnfreezeTokens o p n a.text
  | metaDExTrade a => .ok (createPayloadMetaDExTrade o a.propertyIdForSale a.amountForSale
      a.propertyIdDesired a.amountDesired)
  | metaDExCancelPrice a => .ok (createPayloadMetaDExCancelPrice o a.propertyIdForSale
      a.amountForSale a.propertyIdDesired a.amountDesired)
  | metaDExCancelPair p d => .ok (createPayloadMetaDExCancelPair o p d)
  | metaDExCancelEcosystem e => .ok (createPayloadMetaDExCancelEcosystem o e)
  | contractDexTrade a price action => .ok (createPayloadContractDexTrade o a.propertyIdForSale
      a.amountForSale a.propertyIdDesired a.amountDesired price action)
  | contractDexCancelPrice a price action => .ok (createPayloadContractDexCancelPrice o
      a.propertyIdForSale a.amountForSale a.propertyIdDesired a.amountDesired price action)
  | contractDexCancelEcosystem e => .ok (createPayloadContractDexCancelEcosystem o e)
  | deactivateFeature f => .ok (createPayloadDeactivateFeature o f)
  | activateFeature f b v => .ok (createPayloadActivateFeature o f b v)
  | omniCoreAlert t e m => .ok (createPayloadOmniCoreAlert o t e m)

/-- The type of the transaction that a call is for. -/
def messageType : PayloadCall → UInt16
  | simpleSend .. => 0
  | sendAll .. => 4
  | dexSell .. => 20
  | dexAccept .. => 22
  | sendToOwners .. => 3
  | issuanceFixed .. => 50
  | issuanceVariable .. => 51
  | createContract .. => 40
  | issuanceManaged .. => 54
  | closeCrowdsale .. => 53
  | grant .. => 55
  | revoke .. => 56
  | changeIssuer .. => 70
  | enableFreezing .. => 71
  | disableFreezing .. => 72
  | freezeTokens .. => 185
  | unfreezeTokens .. => 186
  | metaDExTrade .. => 25
  | metaDExCancelPrice .. => 26
  | metaDExCancelPair .. => 27
  | metaDExCancelEcosystem .. => 28
  | contractDexTrade .. => 29
  | contractDexCancelPrice .. => 30
  | contractDexCancelEcosystem .. => 32
  | deactivateFeature .. => 65533
  | activateFeature .. => 65534
  | omniCoreAlert .. => 65535

/-- Its version. -/
def messageVer : PayloadCall → UInt16
  | dexSell .. => 1
  | sendToOwners p _ d => if p = d then 0 else 1
  | deactivateFeature .. => 65535
  | activateFeature .. => 65535
  | omniCoreAlert .. => 65535
  | _ => 0

end PayloadCall

/-- A text as a field keeps it: its first 255 bytes. -/
def fieldText (str : List UInt8) : Text := byteText (str.take 255)

/-- The fields of a property. -/
def PropertyArgs.fields (a : PropertyArgs) (tx : CMPTransaction) : CMPTransaction :=
  { tx with
    ecosystem := a.ecosystem, propType := a.propertyType, prevPropId := a.previousPropertyId
    category := fieldText a.category, subcategory := fieldText a.subcategory
    name := fieldText a.name, url := fieldText a.url, data := fieldText a.data }

/-- The fields of a crowdsale. -/
def CrowdsaleArgs.fields (c : CrowdsaleArgs) (tx : CMPTransaction) : CMPTransaction :=
  { tx with
    property := c.propertyIdDesired, nValue := c.amountPerUnit, nNewValue := c.amountPerUnit
    deadline := c.deadline, earlyBird := c.earlyBonus, percentage := c.issuerPercentage }

/-- The fields of an order. -/
def OrderArgs.fields (a : OrderArgs) (tx : CMPTransaction) : CMPTransaction :=
  { tx with
    property := a.propertyIdForSale, nValue := a.amountForSale, nNewValue := a.amountForSale
    desiredProperty := a.propertyIdDesired, desiredValue := a.amountDesired }

/-- The fields of a property and an amount. -/
def amountFields (propertyId : UInt32) (amount : UInt64) (tx : CMPTransaction) : CMPTransaction :=
  { tx with property := propertyId, nValue := amount, nNewValue := amount }

/-- The fields of a cancel of all orders of an ecosystem. -/
def cancelFields (ecosystem : UInt8) (tx : CMPTransaction) : CMPTransaction :=
  { tx with
    ecosystem := ecosystem, property := ecosystem.toUInt32, desiredProperty := ecosystem.toUInt32
    nValue := 0, nNewValue := 0, desiredValue := 0, action := 4 }

namespace PayloadCall

/-- The fields of a transaction that carry the arguments of a call. -/
def fields : PayloadCall → CMPTransaction → CMPTransaction
  | simpleSend p n, tx => amountFields p n tx
  | sendAll e, tx => { tx with ecosystem := e, property := e.toUInt32 }
  | dexSell p n d t f s, tx => { amountFields p n tx with
      amountDesired := d, blocktimelimit := t, minFee := f, subaction := s }
  | dexAccept p n, tx => amountFields p n tx
  | sendToOwners p n d, tx =>
      if p = d then amountFields p n tx else { amountFields p n tx with distributionProperty := d }
  | issuanceFixed a n, tx => { a.fields tx with nValue := n, nNewValue := n }
  | issuanceVariable a c, tx => c.fields (a.fields tx)
  | createContract a c b n cc m, tx => { c.fields (a.fields tx) with
      blocksUntilExpiration := b, notionalSize := n, collateralCurrency := cc
      marginRequirement := m }
  | issuanceManaged a, tx => a.fields tx
  | closeCrowdsale p, tx => { tx with property := p }
  | grant p n _, tx => amountFields p n tx
  | revoke p n _, tx => amountFields p n tx
  | changeIssuer p, tx => { tx with property := p }
  | enableFreezing p, tx => { tx with property := p }
  | disableFreezing p, tx => { tx with property := p }
  | freezeTokens p n a, tx => { amountFields p n tx with receiver := some a }
  | unfreezeTokens p n a, tx => { amountFields p n tx with receiver := some a }
  | metaDExTrade a, tx => { a.fields tx with action := 1 }
  | metaDExCancelPrice a, tx => { a.fields tx with action := 2 }
  | metaDExCancelPair p d, tx => { amountFields p 0 tx with
      desiredProperty := d, desiredValue := 0, action := 3 }
  | metaDExCancelEcosystem e, tx => cancelFields e tx
  | contractDexTrade a price action, tx => { a.fields tx with
      effectivePrice := price, tradingAction := action }
  | contractDexCancelPrice a price action, tx => { a.fields tx with
      effectivePrice := price, tradingAction := action, action := 2 }
  | contractDexCancelEcosystem e, tx => cancelFields e tx
  | deactivateFeature f, tx => { tx with featureId := f }
  | activateFeature f b v, tx => { tx with featureId := f, activationBlock := b, minClientVersion := v }
  | omniCoreAlert t e m, tx => { tx with
      alertType := t, alertExpiry := e, alertText := fieldText m }

/-- The transaction with type, version and every parsed field equal to the arguments of the call. -/
def parsed (call : PayloadCall) (tx : CMPTransaction) : CMPTransaction :=
  call.fields { tx with version := call.messageVer, type := call.messageType }

end PayloadCall

/-- No text of a property has a zero, and one of them is not empty. -/
def PropertyArgs.Ok (a : PropertyArgs) : Prop :=
  (∀ str ∈ a.texts, 0 ∉ str) ∧ ∃ str ∈ a.texts, str ≠ []

instance (a : PropertyArgs) : Decidable a.Ok := by
  unfold PropertyArgs.Ok
  infer_instance

/-- The arguments that can be sent: texts without zeros, and valid addresses of the network. -/
def PayloadCall.Ok (params : ChainParams) : PayloadCall → Prop
  | .issuanceFixed a _ => a.Ok
  | .issuanceVariable a _ => a.Ok
  | .createContract a _ _ _ _ _ => a.Ok
  | .issuanceManaged a => a.Ok
  | .grant _ _ memo => 0 ∉ memo
  | .revoke _ _ memo => 0 ∉ memo
  | .freezeTokens _ _ a => isValidAddress params a.text = .ok true
  | .unfreezeTokens _ _ a => isValidAddress params a.text = .ok true
  | .omniCoreAlert _ _ m => 0 ∉ m
  | _ => True

end OmniCore
