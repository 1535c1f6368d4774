import OmniCore.Lib.Wire
import OmniCore.Base58
import OmniCore.Transaction

/-! # Interpret — the parsers of the payload

    `interpret_Transaction` reads the version and the type of the packet and hands over
    to the parser of the type, which compares the size of the packet with a minimum and
    copies the fields from fixed offsets. The parsers of issuances and of alerts also walk
    over texts that end in a zero, and ask at the end whether the pointer left the packet. -/

namespace OmniCore

open TextRec Exec Wire

/-! ## The packet -/

/-- `sizeof(pkt)`. -/
def pktBufferSize : Nat := 1 + 255 * 31

/-- `SP_STRING_FIELD_LEN`. -/
def spStringFieldLen : Nat := 256

/-- The packet of a transaction: the buffer, and how much of it belongs to the payload. -/
structure Packet where
  pkt : List UInt8
  pktSize : Nat
  length_pkt : pkt.length = pktBufferSize
  pktSize_le : pktSize ≤ pktBufferSize

/-- The packet that `Set` makes of a payload; the buffer was cleared. -/
def Packet.ofPayload (payload : List UInt8) : Packet where
  pkt := payload.take pktBufferSize ++
    List.replicate (pktBufferSize - min payload.length pktBufferSize) 0
  pktSize := min payload.length pktBufferSize
  length_pkt := by
    rw [List.length_append, List.length_take, List.length_replicate, Nat.min_comm]
    exact Nat.add_sub_cancel' (Nat.min_le_right _ _)
  pktSize_le := Nat.min_le_right _ _

/-- What `Set` knows about a transaction before its payload is read. -/
def CMPTransaction.set (sender : Address) (receiver : Option Address) (n : UInt64) (txid : Txid)
    (block txIdx : Nat) (txFeePaid : Int) : CMPTransaction :=
  { txid, block, txIdx, txFeePaid, sender, receiver, type := 0, nValue := n, nNewValue := n }

/-- A transaction while it is parsed. `fieldEnd` is a ghost: the offset behind the last byte that was
    copied into a field. -/
structure ParseState where
  tx : CMPTransaction
  fieldEnd : Nat := 0

/-- Code that parses a packet. -/
abbrev ParseM := EStateM Halt ParseState

/-! ## Reading the packet -/

/-- Copies `n` bytes from an offset into a field. -/
def copyBytes (pkt : Packet) (offset n : Nat) : ParseM (List UInt8) := do
  if offset + n ≤ pktBufferSize then
    modify fun s => { s with fieldEnd := max s.fieldEnd (offset + n) }
    pure (slice pkt.pkt offset n)
  else
    throw .undefinedBehaviour

def read8 (pkt : Packet) (offset : Nat) : ParseM UInt8 := do
  let b ← copyBytes pkt offset 1
  pure (b.headD 0)

def read16 (o : ByteOrder) (pkt : Packet) (offset : Nat) : ParseM UInt16 := do
  let b ← copyBytes pkt offset 2
  pure (swapByteOrder16 o (word16 o b))

def read32 (o : ByteOrder) (pkt : Packet) (offset : Nat) : ParseM UInt32 := do
  let b ← copyBytes pkt offset 4
  pure (swapByteOrder32 o (word32 o b))

def read64 (o : ByteOrder) (pkt : Packet) (offset : Nat) : ParseM UInt64 := do
  let b ← copyBytes pkt offset 8
  pure (swapByteOrder64 o (word64 o b))

/-- `std::string(p)`: the bytes up to a zero, which must be in the buffer. All of them but what is too
    long for a field are copied into one. -/
def readString (pkt : Packet) (p : Nat) : ParseM (List UInt8) := do
  let str := Wire.cString pkt.pkt p
  if p + str.length < pktBufferSize then
    modify fun s => { s with fieldEnd := max s.fieldEnd (p + min str.length (spStringFieldLen - 1)) }
    pure str
  else
    throw .undefinedBehaviour

/-- A byte string as a text, one character for each byte. -/
def byteText (bytes : List UInt8) : Text := bytes.map fun b => Char.ofNat b.toNat

/-- `memcpy(field, str.c_str(), std::min(str.length(), sizeof(field)-1))`: the start of the field is
    overwritten. -/
def copyString (field : Text) (str : List UInt8) : Text :=
  byteText (str.take (spStringFieldLen - 1)) ++ field.drop (min str.length (spStringFieldLen - 1))

/-- Writes fields of the transaction. -/
def setFields (f : CMPTransaction → CMPTransaction) : ParseM Unit :=
  modify fun s => { s with tx := f s.tx }

/-- A computation that does not touch the transaction. -/
def liftParse {α : Type} (x : Except Halt α) : ParseM α :=
  match x with
  | .ok a => pure a
  | .error e => throw e

/-- `isOverrun`. -/
def Packet.isOverrun (pkt : Packet) (p : Nat) : Bool := decide (pkt.pktSize < p)

/-! ## Parsers with fixed offsets -/

/-- Version and type. -/
def interpretTransactionType (o : ByteOrder) (pkt : Packet) : ParseM Bool := do
  if pkt.pktSize < 4 then
    pure false
  else
    let version ← read16 o pkt 0
    let type ← read16 o pkt 2
    setFields fun tx => { tx with version, type }
    pure true

/-- A property identifier, behind the header. -/
def interpretProperty (o : ByteOrder) (pkt : Packet) : ParseM Bool := do
  if pkt.pktSize < 8 then
    pure false
  else
    let property ← read32 o pkt 4
    setFields fun tx => { tx with property }
    pure true

/-- A property identifier and an amount. -/
def interpretAmount (o : ByteOrder) (pkt : Packet) : ParseM Bool := do
  if pkt.pktSize < 16 then
    pure false
  else
    let property ← read32 o pkt 4
    let nValue ← read64 o pkt 8
    setFields fun tx => { tx with property, nValue, nNewValue := nValue }
    pure true

/-- Tx 1 -/
def interpretSimpleSend (o : ByteOrder) (pkt : Packet) : ParseM Bool := interpretAmount o pkt

/-- Tx 3 -/
def interpretSendToOwners (o : ByteOrder) (pkt : Packet) : ParseM Bool := do
  let version := (← get).tx.version
  let expectedSize := if version = 0 then 16 else 20
  if pkt.pktSize < expectedSize then
    pure false
  else
    let property ← read32 o pkt 4
    let nValue ← read64 o pkt 8
    setFields fun tx => { tx with property, nValue, nNewValue := nValue }
    if 0 < version then
      let distributionProperty ← read32 o pkt 16
      setFields fun tx => { tx with distributionProperty }
      pure true
    else
      pure true

/-- Tx 4 -/
def interpretSendAll (pkt : Packet) : ParseM Bool := do
  if pkt.pktSize < 5 then
    pure false
  else
    let ecosystem ← read8 pkt 4
    setFields fun tx => { tx with ecosystem, property := ecosystem.toUInt32 }
    pure true

/-- Tx 20 -/
def interpretTradeOffer (o : ByteOrder) (pkt : Packet) : ParseM Bool := do
  let version := (← get).tx.version
  let expectedSize := if version = 0 then 33 else 34
  if pkt.pktSize < expectedSize then
    pure false
  else
    let property ← read32 o pkt 4
    let nValue ← read64 o pkt 8
    let amountDesired ← read64 o pkt 16
    let blocktimelimit ← read8 pkt 24
    let minFee ← read64 o pkt 25
    setFields fun tx => { tx with
      property, nValue, nNewValue := nValue, amountDesired, blocktimelimit, minFee }
    if 0 < version then
      let subaction ← read8 pkt 33
      setFields fun tx => { tx with subaction }
      pure true
    else
      pure true

/-- Tx 22 -/
def interpretAcceptOfferBTC (o : ByteOrder) (pkt : Packet) : ParseM Bool := interpretAmount o pkt

/-- Two properties and two amounts. -/
def interpretPair (o : ByteOrder) (pkt : Packet) (action : UInt8) : ParseM Bool := do
  if pkt.pktSize < 28 then
    pure false
  else
    let property ← read32 o pkt 4
    let nValue ← read64 o pkt 8
    let desiredProperty ← read32 o pkt 16
    let desiredValue ← read64 o pkt 20
    setFields fun tx => { tx with
      property, nValue, nNewValue := nValue, desiredProperty, desiredValue, action }
    pure true

/-- Tx 25 -/
def interpretMetaDExTrade (o : ByteOrder) (pkt : Packet) : ParseM Bool := interpretPair o pkt 1

/-- Tx 26 -/
def interpretMetaDExCancelPrice (o : ByteOrder) (pkt : Packet) : ParseM Bool := interpretPair o pkt 2

/-- Tx 27 -/
def interpretMetaDExCancelPair (o : ByteOrder) (pkt : Packet) : ParseM Bool := do
  if pkt.pktSize < 12 then
    pure false
  else
    let property ← read32 o pkt 4
    let desiredProperty ← read32 o pkt 8
    setFields fun tx => { tx with
      property, desiredProperty, nValue := 0, nNewValue := 0, desiredValue := 0, action := 3 }
    pure true

/-- An ecosystem whose orders are cancelled. -/
def interpretCancelEcosystem (pkt : Packet) : ParseM Bool := do
  if pkt.pktSize < 5 then
    pure false
  else
    let ecosystem ← read8 pkt 4
    setFields fun tx => { tx with
      ecosystem, property := ecosystem.toUInt32, desiredProperty := ecosystem.toUInt32
      nValue := 0, nNewValue := 0, desiredValue := 0, action := 4 }
    pure true

/-- Tx 28 -/
def interpretMetaDExCancelEcosystem (pkt : Packet) : ParseM Bool := interpretCancelEcosystem pkt

/-- Tx 32 -/
def interpretContractDexCancelEcosystem (pkt : Packet) : ParseM Bool := interpretCancelEcosystem pkt

/-- The fields of a contract order; the size is compared with 33, but the last field is at 36. -/
def interpretContractOrder (o : ByteOrder) (pkt : Packet) (f : CMPTransaction → CMPTransaction) :
    ParseM Bool := do
  if pkt.pktSize < 33 then
    pure false
  else
    let property ← read32 o pkt 4
    let nValue ← read64 o pkt 8
    let desiredProperty ← read32 o pkt 16
    let desiredValue ← read64 o pkt 20
    let effectivePrice ← read64 o pkt 28
    let tradingAction ← read8 pkt 36
    setFields fun tx => f { tx with
      property, nValue, nNewValue := nValue, desiredProperty, desiredValue, effectivePrice
      tradingAction }
    pure true

/-- Tx 29 -/
def interpretContractDexTrade (o : ByteOrder) (pkt : Packet) : ParseM Bool :=
  interpretContractOrder o pkt id

/-- Tx 30 -/
def interpretContractDexCancelPrice (o : ByteOrder) (pkt : Packet) : ParseM Bool :=
  interpretContractOrder o pkt fun tx => { tx with action := 2 }

/-- Tx 53 -/
def interpretCloseCrowdsale (o : ByteOrder) (pkt : Packet) : ParseM Bool := interpretProperty o pkt

/-- Tx 55 -/
def interpretGrantTokens (o : ByteOrder) (pkt : Packet) : ParseM Bool := interpretAmount o pkt

/-- Tx 56 -/
def interpretRevokeTokens (o : ByteOrder) (pkt : Packet) : ParseM Bool := interpretAmount o pkt

/-- Tx 70 -/
def interpretChangeIssuer (o : ByteOrder) (pkt : Packet) : ParseM Bool := interpretProperty o pkt

/-- Tx 71 -/
def interpretEnableFreezing (o : ByteOrder) (pkt : Packet) : ParseM Bool := interpretProperty o pkt

/-- Tx 72 -/
def interpretDisableFreezing (o : ByteOrder) (pkt : Packet) : ParseM Bool := interpretProperty o pkt

/-- A hash160 in the payload sets the receiver. -/
def interpretVirtualReference (o : ByteOrder) (params : ChainParams) (pkt : Packet) :
    ParseM Bool := do
  if pkt.pktSize < 37 then
    pure false
  else
    let property ← read32 o pkt 4
    let nValue ← read64 o pkt 8
    setFields fun tx => { tx with property, nValue, nNewValue := nValue }
    let addressVersion ← read8 pkt 16
    let addressHash160 ← copyBytes pkt 17 20
    let receiver ← liftParse (hashToAddress params addressVersion addressHash160)
    setFields fun tx => { tx with receiver := Address.ofText? receiver }
    if receiver.isEmpty then
      pure false
    else
      liftParse (isValidAddress params receiver)

/-- Tx 185 -/
def interpretFreezeTokens (o : ByteOrder) (params : ChainParams) (pkt : Packet) : ParseM Bool :=
  interpretVirtualReference o params pkt

/-- Tx 186 -/
def interpretUnfreezeTokens (o : ByteOrder) (params : ChainParams) (pkt : Packet) : ParseM Bool :=
  interpretVirtualReference o params pkt

/-- Tx 65533 -/
def interpretDeactivation (o : ByteOrder) (pkt : Packet) : ParseM Bool := do
  if pkt.pktSize < 6 then
    pure false
  else
    let featureId ← read16 o pkt 4
    setFields fun tx => { tx with featureId }
    pure true

/-- Tx 65534 -/
def interpretActivation (o : ByteOrder) (pkt : Packet) : ParseM Bool := do
  if pkt.pktSize < 14 then
    pure false
  else
    let featureId ← read16 o pkt 4
    let activationBlock ← read32 o pkt 6
    let minClientVersion ← read32 o pkt 10
    setFields fun tx => { tx with featureId, activationBlock, minClientVersion }
    pure true

/-! ## Parsers of texts -/

/-- Reads `n` texts, one behind the other; the pointer ends up behind the last one. -/
def readStrings (pkt : Packet) : Nat → Nat → ParseM (List (List UInt8) × Nat)
  | 0, p => pure ([], p)
  | n + 1, p => do
      let str ← readString pkt p
      let (rest, p) ← readStrings pkt n (p + (str.length + 1))
      pure (str :: rest, p)

/-- What all issuances have in common: the ecosystem, the type, a previous property, and the five
    texts. Returns the pointer behind them. -/
def readPropertyHeader (o : ByteOrder) (pkt : Packet) : ParseM Nat := do
  let ecosystem ← read8 pkt 4
  let propType ← read16 o pkt 5
  let prevPropId ← read32 o pkt 7
  let (spstr, p) ← readStrings pkt 5 11
  setFields fun tx => { tx with
    ecosystem, propType, prevPropId
    category := copyString tx.category (spstr.getD 0 [])
    subcategory := copyString tx.subcategory (spstr.getD 1 [])
    name := copyString tx.name (spstr.getD 2 [])
    url := copyString tx.url (spstr.getD 3 [])
    data := copyString tx.data (spstr.getD 4 []) }
  pure p

/-- Tx 50 -/
def interpretCreatePropertyFixed (o : ByteOrder) (pkt : Packet) : ParseM Bool := do
  if pkt.pktSize < 25 then
    pure false
  else
    let p ← readPropertyHeader o pkt
    let nValue ← read64 o pkt p
    setFields fun tx => { tx with nValue, nNewValue := nValue }
    pure (!pkt.isOverrun (p + 8))

/-- The terms of a crowdsale, from `p` on. -/
def readCrowdsaleTerms (o : ByteOrder) (pkt : Packet) (p : Nat) : ParseM Unit := do
  let property ← read32 o pkt p
  let nValue ← read64 o pkt (p + 4)
  let deadline ← read64 o pkt (p + 12)
  let earlyBird ← read8 pkt (p + 20)
  let percentage ← read8 pkt (p + 21)
  setFields fun tx => { tx with
    property, nValue, nNewValue := nValue, deadline, earlyBird, percentage }

/-- Tx 51 -/
def interpretCreatePropertyVariable (o : ByteOrder) (pkt : Packet) : ParseM Bool := do
  if pkt.pktSize < 39 then
    pure false
  else
    let p ← readPropertyHeader o pkt
    readCrowdsaleTerms o pkt p
    pure (!pkt.isOverrun (p + 22))

/-- Tx 40; the pointer is not moved behind the last field. -/
def interpretCreateContractDex (o : ByteOrder) (pkt : Packet) : ParseM Bool := do
  if pkt.pktSize < 55 then
    pure false
  else
    let p ← readPropertyHeader o pkt
    readCrowdsaleTerms o pkt p
    let blocksUntilExpiration ← read32 o pkt (p + 22)
    let notionalSize ← read32 o pkt (p + 26)
    let collateralCurrency ← read32 o pkt (p + 30)
    let marginRequirement ← read32 o pkt (p + 34)
    setFields fun tx => { tx with
      blocksUntilExpiration, notionalSize, collateralCurrency, marginRequirement }
    pure (!pkt.isOverrun (p + 34))

/-- Tx 54 -/
def interpretCreatePropertyManaged (o : ByteOrder) (pkt : Packet) : ParseM Bool := do
  if pkt.pktSize < 17 then
    pure false
  else
    let p ← readPropertyHeader o pkt
    pure (!pkt.isOverrun p)

/-- Tx 65535; the pointer stays at the start of the text. -/
def interpretAlert (o : ByteOrder) (pkt : Packet) : ParseM Bool := do
  if pkt.pktSize < 11 then
    pure false
  else
    let alertType ← read16 o pkt 4
    let alertExpiry ← read32 o pkt 6
    let spstr ← readString pkt 10
    setFields fun tx => { tx with
      alertType, alertExpiry, alertText := copyString tx.alertText spstr }
    pure (!pkt.isOverrun 10)

/-! ## All types -/

/-- The parser of a type; other types are refused. -/
def interpretType (o : ByteOrder) (params : ChainParams) (pkt : Packet) (type : UInt16) :
    ParseM Bool :=
  match type.toNat with
  | 0 => interpretSimpleSend o pkt
  | 3 => interpretSendToOwners o pkt
  | 4 => interpretSendAll pkt
  | 20 => interpretTradeOffer o pkt
  | 22 => interpretAcceptOfferBTC o pkt
  | 25 => interpretMetaDExTrade o pkt
  | 26 => interpretMetaDExCancelPrice o pkt
  | 27 => interpretMetaDExCancelPair o pkt
  | 28 => interpretMetaDExCancelEcosystem pkt
  | 29 => interpretContractDexTrade o pkt
  | 30 => interpretContractDexCancelPrice o pkt
  | 32 => interpretContractDexCancelEcosystem pkt
  | 40 => interpretCreateContractDex o pkt
  | 50 => interpretCreatePropertyFixed o pkt
  | 51 => interpretCreatePropertyVariable o pkt
  | 53 => interpretCloseCrowdsale o pkt
  | 54 => interpretCreatePropertyManaged o pkt
  | 55 => interpretGrantTokens o pkt
  | 56 => interpretRevokeTokens o pkt
  | 70 => interpretChangeIssuer o pkt
  | 71 => interpretEnableFreezing o pkt
  | 72 => interpretDisableFreezing o pkt
  | 185 => interpretFreezeTokens o params pkt
  | 186 => interpretUnfreezeTokens o params pkt
  | 65533 => interpretDeactivation o pkt
  | 65534 => interpretActivation o pkt
  | 65535 => interpretAlert o pkt
  | _ => pure false

/-- `interpret_Transaction`. -/
def interpretTransaction (o : ByteOrder) (params : ChainParams) (pkt : Packet) : ParseM Bool := do
  let ok ← interpretTransactionType o pkt
  if ok then
    let s ← get
    interpretType o params pkt s.tx.type
  else
    pure false

end OmniCore
