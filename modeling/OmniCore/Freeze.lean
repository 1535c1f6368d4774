import OmniCore.Registry
import OmniCore.TxList

/-! # Freeze — managed properties and their frozen addresses

    The issuer of a managed property may enable freezing, freeze and unfreeze addresses, and
    hand the property on. What is enabled and frozen is kept in two sets in memory: after a
    restart `LoadFreezeState` processes the recorded transactions again. -/

namespace OmniCore

open Std (ExtTreeMap ExtTreeSet)
open Machine TextRec MapSum Exec

/-! ## The two sets -/

/-- `setFreezingEnabledProperties` and `setFrozenAddresses`. -/
structure FreezeSets where
  enabled : ExtTreeSet (PropertyId × Int) pairCmp
  frozen : ExtTreeSet (Address × PropertyId) pairCmp

/-- Code that works on the two sets only. -/
abbrev FreezeM := EStateM Halt FreezeSets

def State.freezeSets (s : State) : FreezeSets := ⟨s.freezingEnabled, s.frozenAddresses⟩

def State.withFreezeSets (s : State) (f : FreezeSets) : State :=
  { s with freezingEnabled := f.enabled, frozenAddresses := f.frozen }

/-- Runs such code on the node. -/
def onFreezeSets {α : Type} (x : FreezeM α) : ExecM α :=
  zoom State.freezeSets State.withFreezeSets x

namespace FreezeSets

/-- `assert(c)`. -/
def check (c : Bool) : FreezeM Unit := if c then pure () else throw (.assertFailed .condition)

def isFreezingEnabled (f : FreezeSets) (propertyId : PropertyId) (block : Int) : Bool :=
  f.enabled.toList.any fun item => propertyId == item.1 && decide (item.2 ≤ block)

def isAddressFrozen (f : FreezeSets) (address : Address) (propertyId : PropertyId) : Bool :=
  f.frozen.contains (address, propertyId)

def enableFreezing (propertyId : PropertyId) (liveBlock : Int) : FreezeM Unit := do
  modify fun f => { f with enabled := f.enabled.insert (propertyId, liveBlock) }
  let f ← get
  check (f.isFreezingEnabled propertyId liveBlock)

/-- Erases the frozen addresses of a property. The assertion after each erasure reads the element
    behind it; at the end of the set there is none, and `pastEnd` says whether what is read
    there passes. -/
def unfreezeAll (pastEnd : Bool) (propertyId : PropertyId) :
    List (Address × PropertyId) → FreezeM Unit
  | [] => pure ()
  | item :: rest =>
      if item.2 = propertyId then do
        modify fun f => { f with frozen := f.frozen.erase item }
        let f ← get
        check (match rest with
          | next :: _ => !f.isAddressFrozen next.1 next.2
          | [] => pastEnd)
        unfreezeAll pastEnd propertyId rest
      else
        unfreezeAll pastEnd propertyId rest

/-- The block noted last for a property, 0 if there is none. -/
def liveBlockOf (f : FreezeSets) (propertyId : PropertyId) : Int :=
  f.enabled.toList.foldl (fun block item => if propertyId = item.1 then item.2 else block) 0

def disableFreezing (pastEnd : Bool) (propertyId : PropertyId) : FreezeM Unit := do
  let f ← get
  let liveBlock := f.liveBlockOf propertyId
  check (decide (0 < liveBlock))
  modify fun f => { f with enabled := f.enabled.erase (propertyId, liveBlock) }
  -- when disabling freezing for a property, all frozen addresses for it will be unfrozen
  unfreezeAll pastEnd propertyId f.frozen.toList
  let f ← get
  check (!f.isFreezingEnabled propertyId liveBlock)

def freezeAddress (address : Address) (propertyId : PropertyId) : FreezeM Unit := do
  modify fun f => { f with frozen := f.frozen.insert (address, propertyId) }
  let f ← get
  check (f.isAddressFrozen address propertyId)

def unfreezeAddress (address : Address) (propertyId : PropertyId) : FreezeM Unit := do
  modify fun f => { f with frozen := f.frozen.erase (address, propertyId) }
  let f ← get
  check (!f.isAddressFrozen address propertyId)

end FreezeSets

/-! ## The transactions -/

/-- `PKT_ERROR_TOKENS`. -/
def pktErrorTokens : Int := -82000

/-- What a node asks its environment: the hash of the block at a height of the active chain, and
    whether reading behind the last frozen address passes an assertion. -/
structure FreezeEnv where
  blockHash : Nat → Option Nat
  pastEnd : Bool

/-- The checks that the four freezing transactions make before their own. -/
def managedTx (env : FreezeEnv) (tx : CMPTransaction) (body : ConsensusParams → FreezeM Int) :
    ExecM Int := do
  let s ← get
  if (env.blockHash tx.block).isNone then
    pure (pktErrorTokens - 20)
  else if !s.params.isTransactionTypeAllowed tx.block tx.property.toNat tx.type.toNat
      tx.version.toNat then
    pure (pktErrorTokens - 22)
  else if !s.sps.isPropertyIdValid tx.property.toNat then
    pure (pktErrorTokens - 24)
  else
    match s.sps.getSP tx.property.toNat with
    | none => throw (.assertFailed .condition)
    | some sp =>
        if !sp.manual then
          pure (pktErrorTokens - 42)
        else if tx.sender.text ≠ sp.issuer then
          pure (pktErrorTokens - 43)
        else
          onFreezeSets (body s.params)

/-- What `logicMath_EnableFreezing` does of its own. -/
def enableFreezingBody (tx : CMPTransaction) (params : ConsensusParams) : FreezeM Int := do
  let f ← get
  if f.isFreezingEnabled tx.property.toNat tx.block then
    pure (pktErrorTokens - 49)
  else
    let liveBlock :=
      if !params.isFeatureActivated .freezeNotice tx.block then tx.block
      else params.freezeWaitPeriod + tx.block
    FreezeSets.enableFreezing tx.property.toNat (liveBlock : Nat)
    pure 0

/-- `logicMath_DisableFreezing`. -/
def disableFreezingBody (pastEnd : Bool) (tx : CMPTransaction) : FreezeM Int := do
  let f ← get
  if !f.isFreezingEnabled tx.property.toNat tx.block then
    pure (pktErrorTokens - 47)
  else
    FreezeSets.disableFreezing pastEnd tx.property.toNat
    pure 0

/-- `logicMath_FreezeTokens`. -/
def freezeTokensBody (tx : CMPTransaction) (receiver : Address) : FreezeM Int := do
  let f ← get
  if !f.isFreezingEnabled tx.property.toNat tx.block then
    pure (pktErrorTokens - 47)
  else if f.isAddressFrozen receiver tx.property.toNat then
    pure (pktErrorTokens - 50)
  else
    FreezeSets.freezeAddress receiver tx.property.toNat
    pure 0

/-- `logicMath_UnfreezeTokens`. -/
def unfreezeTokensBody (tx : CMPTransaction) (receiver : Address) : FreezeM Int := do
  let f ← get
  if !f.isFreezingEnabled tx.property.toNat tx.block then
    pure (pktErrorTokens - 47)
  else if !f.isAddressFrozen receiver tx.property.toNat then
    pure (pktErrorTokens - 48)
  else
    FreezeSets.unfreezeAddress receiver tx.property.toNat
    pure 0

/-- `logicMath_ChangeIssuer`. -/
def logicMathChangeIssuer (env : FreezeEnv) (tx : CMPTransaction) : ExecM Int := do
  let s ← get
  match env.blockHash tx.block with
  | none => pure (pktErrorTokens - 20)
  | some blockHash =>
      if !s.params.isTransactionTypeAllowed tx.block tx.property.toNat tx.type.toNat
          tx.version.toNat then
        pure (pktErrorTokens - 22)
      else if !s.sps.isPropertyIdValid tx.property.toNat then
        pure (pktErrorTokens - 24)
      else
        match s.sps.getSP tx.property.toNat with
        | none => throw (.assertFailed .condition)
        | some sp =>
            if tx.sender.text ≠ sp.issuer then
              pure (pktErrorTokens - 43)
            else if s.crowds.contains tx.sender then
              pure (pktErrorTokens - 39)
            else
              match tx.receiver with
              | none => pure (pktErrorTokens - 45)
              | some receiver =>
                  if s.crowds.contains receiver then
                    pure (pktErrorTokens - 46)
                  else
                    let r := s.sps.updateSP tx.property.toNat
                      { sp with issuer := receiver.text, updateBlock := blockHash }
                    assertThat .condition r.1
                    set { s with sps := r.2 }
                    pure 0

/-- The four freezing transactions; a freeze needs an address to freeze. -/
def freezeBody (env : FreezeEnv) (tx : CMPTransaction) :
    Option (ConsensusParams → FreezeM Int) :=
  match tx.type.toNat, tx.receiver with
  | 71, _ => some (enableFreezingBody tx)
  | 72, _ => some fun _ => disableFreezingBody env.pastEnd tx
  | 185, some receiver => some fun _ => freezeTokensBody tx receiver
  | 186, some receiver => some fun _ => unfreezeTokensBody tx receiver
  | _, _ => none

/-- `interpretPacket`, for the five types. -/
def interpretFreezePacket (env : FreezeEnv) (tx : CMPTransaction) : ExecM Int := do
  let s ← get
  if (tx.type = 185 ∨ tx.type = 186) ∧ tx.receiver = none then
    -- `interpret_Transaction` has failed
    pure (pktError - 2)
  else if s.isAddressFrozen tx.sender tx.property.toNat then
    pure (pktError - 3)
  else if tx.type = 70 then
    logicMathChangeIssuer env tx
  else
    match freezeBody env tx with
    | some body => managedTx env tx body
    | none => pure (pktError - 100)

/-! ## Records -/

/-- `COmniTransactionDB::RecordTransaction`. -/
def recordTransaction (db : TextDB) (txid : Txid) (posInBlock : Nat) (processingResult : Int) :
    TextDB :=
  db.insert (txidText txid) (joinWith ':' [decNat posInBlock, decInt processingResult])

/-- `FetchTransactionPosition`; the cast of the position may fail. -/
def fetchTransactionPosition (db : TextDB) (txid : Txid) : Option Nat :=
  match db[txidText txid]? with
  | none => some 999999
  | some value =>
      match split isColon value with
      | [posInBlock, _] => castNat 32 posInBlock
      | _ => some 999999

/-- `mastercore_handler_tx`, for a transaction of the five types: processed, and recorded if it is
    structurally valid. -/
def handleFreezeTx (env : FreezeEnv) (tx : CMPTransaction) : ExecM Int := do
  let interpRet ← interpretFreezePacket env tx
  if interpRet ≠ pktError - 2 then
    modify fun s => { s with
      txList := recordTX s.txList
        ⟨tx.txid, decide (0 ≤ interpRet), tx.block, tx.type.toNat, tx.nNewValue.toNat⟩
      omniTxDb := recordTransaction s.omniTxDb tx.txid tx.txIdx interpRet }
  pure interpRet

/-! ## After a restart -/

/-- `%0wd` for an `int`. -/
def padInt (w : Nat) (n : Int) : Text :=
  if n < 0 then '-' :: padNat (w - 1) n.natAbs else padNat w n.toNat

/-- `%06d%010d` of a block and a position, which is stored in an `int`. -/
def freezeSortKey (block : Int) (posInBlock : Nat) : Text :=
  padInt 6 block ++ padInt 10 (Int.bmod posInBlock (2 ^ 32))

/-- The types are compared as `uint16_t`. -/
def isFreezeType (txtype : Int) : Bool := [71, 72, 185, 186].contains (txtype % 2 ^ 16)

/-- The recorded transactions with their sort keys. -/
def freezeLoadOrder (s : State) : Option (List (Text × Txid)) :=
  (scanTxList isFreezeType s.txList).mapM fun e =>
    (fetchTransactionPosition s.omniTxDb e.2).map fun txPosition =>
      (freezeSortKey e.1 txPosition, e.2)

/-- The loop over the sorted transactions; it gives up at the first that is not found, lies behind
    the height of the restart, or is refused. -/
def reloadFreezes (env : FreezeEnv) (chain : Txid → Option CMPTransaction) (blockHeight : Nat) :
    List (Text × Txid) → ExecM Bool
  | [] => pure true
  | e :: rest =>
      match chain e.2 with
      | none => pure false
      | some tx =>
          if blockHeight < tx.block then pure false
          else if !isFreezeType tx.type.toNat then pure false
          else do
            let interpRet ← interpretFreezePacket env tx
            if interpRet ≠ 0 then pure false
            else reloadFreezes env chain blockHeight rest

/-- `CMPTxList::LoadFreezeState`. `chain` answers what `GetTransaction`, the block index and
    `ParseTransaction` make of a hash. -/
def loadFreezeState (env : FreezeEnv) (chain : Txid → Option CMPTransaction) (mainNet : Bool)
    (blockHeight : Nat) : ExecM Bool := do
  let s ← get
  match freezeLoadOrder s with
  | none => throw .exception
  | some keyed =>
      let loadOrder := sortBy loadCmp keyed
      let loaded ← reloadFreezes env chain blockHeight loadOrder
      if !loaded then
        pure false
      else
        -- sanity check against a failure to properly load the freeze state
        if 497000 < blockHeight ∧ mainNet = true then
          assertThat .condition (decide (2 ≤ loadOrder.length))
        pure true

end OmniCore
