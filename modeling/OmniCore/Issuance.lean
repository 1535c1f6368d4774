import OmniCore.Crowdsale
import OmniCore.Freeze

/-! # Issuance — properties with a fixed and with a managed supply

    The tokens of a fixed property are all created with it. A managed property starts with
    none: its issuer grants new tokens, and every owner may revoke the own ones. The
    registry keeps what was granted and revoked, by transaction. -/

namespace OmniCore

open Std (ExtTreeMap)
open Machine TextRec MapSum Exec

/-! ## Creation -/

/-- The entry of a property whose tokens are created at once. -/
def newFixedEntry (tx : CMPTransaction) (blockHash : Nat) : SPEntry :=
  { impliedEntry tx.propType.toNat tx.category tx.subcategory tx.name tx.url tx.data with
    issuer := tx.sender.text, txid := tx.txid, numTokens := toInt64 tx.nValue.toNat, fixed := true
    creationBlock := blockHash, updateBlock := blockHash }

/-- `logicMath_CreatePropertyFixed`. -/
def logicMathCreatePropertyFixed (env : ChainEnv) (tx : CMPTransaction) : ExecM Int := do
  let s ← get
  match env.blockHash tx.block with
  | none => pure (pktErrorSP - 20)
  | some blockHash =>
      if omniPropertyMSC ≠ tx.ecosystem.toNat ∧ omniPropertyTMSC ≠ tx.ecosystem.toNat then
        pure (pktErrorSP - 21)
      else if !s.params.isTransactionTypeAllowed tx.block tx.ecosystem.toNat tx.type.toNat
          tx.version.toNat then
        pure (pktErrorSP - 22)
      else if tx.nValue = 0 ∨ maxInt64 < tx.nValue.toNat then
        pure (pktErrorSP - 23)
      else if tx.propType ≠ 1 ∧ tx.propType ≠ 2 then
        pure (pktErrorSP - 36)
      else if tx.name = [] then
        pure (pktErrorSP - 37)
      else do
        let r := s.sps.putSP tx.ecosystem.toNat (newFixedEntry tx blockHash)
        set { s with sps := r.2 }
        assertThat .propertyId (decide (0 < r.1))
        assertUpdate tx.sender r.1 (toInt64 tx.nValue.toNat) .balance
        notifyTotalTokensChanged r.1 tx.block
        pure 0

/-- The entry of a property whose issuer grants the tokens. -/
def newManagedEntry (tx : CMPTransaction) (blockHash : Nat) : SPEntry :=
  { impliedEntry tx.propType.toNat tx.category tx.subcategory tx.name tx.url tx.data with
    issuer := tx.sender.text, txid := tx.txid, numTokens := 0, manual := true
    creationBlock := blockHash, updateBlock := blockHash }

/-- `logicMath_CreatePropertyManaged`. -/
def logicMathCreatePropertyManaged (env : ChainEnv) (tx : CMPTransaction) : ExecM Int := do
  let s ← get
  match env.blockHash tx.block with
  | none => pure (pktErrorSP - 20)
  | some blockHash =>
      if omniPropertyMSC ≠ tx.ecosystem.toNat ∧ omniPropertyTMSC ≠ tx.ecosystem.toNat then
        pure (pktErrorSP - 21)
      else if !s.params.isTransactionTypeAllowed tx.block tx.ecosystem.toNat tx.type.toNat
          tx.version.toNat then
        pure (pktErrorSP - 22)
      else if tx.propType ≠ 1 ∧ tx.propType ≠ 2 then
        pure (pktErrorSP - 36)
      else if tx.name = [] then
        pure (pktErrorSP - 37)
      else do
        let r := s.sps.putSP tx.ecosystem.toNat (newManagedEntry tx blockHash)
        set { s with sps := r.2 }
        assertThat .propertyId (decide (0 < r.1))
        pure 0

/-! ## Grants and revocations -/

/-- The entry with what a transaction granted or revoked. -/
def SPEntry.noted (sp : SPEntry) (txid : Txid) (granted revoked : Int) (blockHash : Nat) : SPEntry :=
  { sp with
    historicalData := sp.historicalData.insertIfNew txid [granted, revoked]
    updateBlock := blockHash }

/-- The grant, once everything was checked. Before `FEATURE_GRANTEFFECTS` it may be a participation in
    a crowdsale of the receiver. -/
def grantTokens (env : ChainEnv) (tx : CMPTransaction) (sp : SPEntry) (blockHash : Nat) :
    ExecM Unit := do
  -- persist the number of granted tokens
  assertUpdateSP tx.property.toNat (sp.noted tx.txid (toInt64 tx.nValue.toNat) 0 blockHash)
  -- if can't find the receiver -- assume grant to self!
  let receiver := tx.receiver.getD tx.sender
  assertUpdate receiver tx.property.toNat (toInt64 tx.nValue.toNat) .balance
  let s ← get
  if !s.params.isFeatureActivated .grantEffects tx.block then
    let _ ← crowdsaleParticipation env tx receiver
  notifyTotalTokensChanged tx.property.toNat tx.block

/-- `logicMath_GrantTokens`. -/
def logicMathGrantTokens (env : ChainEnv) (tx : CMPTransaction) : ExecM Int := do
  let s ← get
  match env.blockHash tx.block with
  | none => pure (pktErrorSP - 20)
  | some blockHash =>
      if !s.params.isTransactionTypeAllowed tx.block tx.property.toNat tx.type.toNat
          tx.version.toNat then
        pure (pktErrorTokens - 22)
      else if tx.nValue = 0 ∨ maxInt64 < tx.nValue.toNat then
        pure (pktErrorTokens - 23)
      else if !s.sps.isPropertyIdValid tx.property.toNat then
        pure (pktErrorTokens - 24)
      else do
        let sp ← assertSP tx.property.toNat
        if !sp.manual then
          pure (pktErrorTokens - 42)
        else if tx.sender.text ≠ sp.issuer then
          pure (pktErrorTokens - 43)
        else do
          let nTotalTokens ← getTotalTokens tx.property.toNat
          if maxInt64 - nTotalTokens < tx.nValue.toNat then
            pure (pktErrorTokens - 44)
          else do
            grantTokens env tx sp blockHash
            pure 0

/-- The revocation, once everything was checked. -/
def revokeTokens (tx : CMPTransaction) (sp : SPEntry) (blockHash : Nat) : ExecM Unit := do
  assertUpdate tx.sender tx.property.toNat (-toInt64 tx.nValue.toNat) .balance
  assertUpdateSP tx.property.toNat (sp.noted tx.txid 0 (toInt64 tx.nValue.toNat) blockHash)
  notifyTotalTokensChanged tx.property.toNat tx.block

/-- `logicMath_RevokeTokens`. -/
def logicMathRevokeTokens (env : ChainEnv) (tx : CMPTransaction) : ExecM Int := do
  let s ← get
  match env.blockHash tx.block with
  | none => pure (pktErrorTokens - 20)
  | some blockHash =>
      if !s.params.isTransactionTypeAllowed tx.block tx.property.toNat tx.type.toNat
          tx.version.toNat then
        pure (pktErrorTokens - 22)
      else if tx.nValue = 0 ∨ maxInt64 < tx.nValue.toNat then
        pure (pktErrorTokens - 23)
      else if !s.sps.isPropertyIdValid tx.property.toNat then
        pure (pktErrorTokens - 24)
      else do
        let sp ← assertSP tx.property.toNat
        if !sp.manual then
          pure (pktErrorTokens - 42)
        else if s.getMPbalance tx.sender tx.property.toNat .balance < toInt64 tx.nValue.toNat then
          pure (pktErrorTokens - 25)
        else do
          revokeTokens tx sp blockHash
          pure 0

end OmniCore
