import OmniCore.State

/-! # Registry — the smart property database

    `CMPSPInfo`: entries by identifier, an index by creating transaction, and for every
    block the entries it replaced. Three identifiers are answered from constants, three
    counters hand out the others, and `IsPropertyIdValid` compares with a counter. -/

namespace OmniCore

open Std (ExtTreeMap)
open Machine TextRec MapSum

/-! ## The implied properties -/

/-- `OMNI_PROPERTY_SPC`. -/
def omniPropertySPC : PropertyId := 3

/-- `ExodusAddress`, on the main network. -/
def exodusAddress : Text := "1EXoDusjGwvnjZUyKkxZ4UHEf77z6A5S4P".toList

/-- An entry as its constructor leaves it, with the fields that the implied properties set. -/
def impliedEntry (propType : Nat) (category subcategory name url data : Text) : SPEntry :=
  { issuer := exodusAddress, txid := 0, propType := propType, numTokens := 700000,
    category := category, subcategory := subcategory, name := name, url := url, data := data,
    fixed := false, manual := false, propertyDesired := 0, deadline := 0, earlyBird := 0,
    percentage := 0, creationBlock := 0, updateBlock := 0, blocksUntilExpiration := 0,
    notionalSize := 0, collateralCurrency := 0, marginRequirement := 0 }

def impliedOmni : SPEntry :=
  impliedEntry 2 "N/A".toList "N/A".toList "Omni".toList "http://www.omnilayer.org".toList
    ("Omni serve as the binding between Bitcoin, smart properties and contracts created on the " ++
      "Omni Layer.").toList

def impliedTOmni : SPEntry :=
  impliedEntry 2 "N/A".toList "N/A".toList "Test Omni".toList "http://www.omnilayer.org".toList
    ("Test Omni serve as the binding between Bitcoin, smart properties and contracts created on " ++
      "the Omni Layer.").toList

def impliedSPC : SPEntry :=
  impliedEntry 3 "Derivaties".toList "Futures Contracts".toList "SPC".toList
    "www.tradelayer.org".toList "Futures Contracts Exchange on OmniLayer.".toList

/-- The constant entry of an identifier, if it has one. -/
def impliedSP (propertyId : PropertyId) : Option SPEntry :=
  if propertyId = omniPropertyMSC then some impliedOmni
  else if propertyId = omniPropertyTMSC then some impliedTOmni
  else if propertyId = omniPropertySPC then some impliedSPC
  else none

namespace CMPSPInfo

/-! ## Reading and writing entries -/

/-- `init`, with its default arguments. -/
def init : CMPSPInfo :=
  { entries := ∅, txIndex := ∅, nextSPID := 3, nextTestSPID := testEcoProperty1, nextSPC := 3 }

def peekNextSPID (sps : CMPSPInfo) (ecosystem : Nat) : PropertyId :=
  if ecosystem = 1 then sps.nextSPID
  else if ecosystem = 2 then sps.nextTestSPID
  else if ecosystem = 3 then sps.nextSPC
  else 0

/-- `CMPSPInfo::putSP`: the next identifier of the ecosystem, 0 for any other ecosystem. -/
def putSP (sps : CMPSPInfo) (ecosystem : Nat) (info : SPEntry) : PropertyId × CMPSPInfo :=
  let (propertyId, sps) :=
    if ecosystem = 1 then (sps.nextSPID, { sps with nextSPID := (sps.nextSPID + 1) % 2 ^ 32 })
    else if ecosystem = 2 then
      (sps.nextTestSPID, { sps with nextTestSPID := (sps.nextTestSPID + 1) % 2 ^ 32 })
    else if ecosystem = 3 then (sps.nextSPC, { sps with nextSPC := (sps.nextSPC + 1) % 2 ^ 32 })
    else (0, sps)
  (propertyId, { sps with
    entries := sps.entries.insert propertyId info
    txIndex := sps.txIndex.insert info.txid propertyId })

/-- `CMPSPInfo::updateSP`. The entry that is replaced goes to the slot of its identifier and of
    the block of the update, whatever that slot held. -/
def updateSP (sps : CMPSPInfo) (propertyId : PropertyId) (info : SPEntry) : Bool × CMPSPInfo :=
  if (impliedSP propertyId).isSome then (false, sps)
  else
    let prevEntries := match sps.entries[propertyId]? with
      | some old => sps.prevEntries.insert (info.updateBlock, propertyId) old
      | none => sps.prevEntries
    (true, { sps with
      prevEntries := prevEntries
      entries := sps.entries.insert propertyId info })

def getSP (sps : CMPSPInfo) (propertyId : PropertyId) : Option SPEntry :=
  match impliedSP propertyId with
  | some info => some info
  | none => sps.entries[propertyId]?

theorem getSP_of_implied {sps : CMPSPInfo} {id : PropertyId} {info : SPEntry}
    (h : impliedSP id = some info) : sps.getSP id = some info := by
  unfold getSP
  rw [h]

theorem getSP_of_not_implied {sps : CMPSPInfo} {id : PropertyId} (h : impliedSP id = none) :
    sps.getSP id = sps.entries[id]? := by
  unfold getSP
  rw [h]

/-- `findSPByTX`: 0 if there is no entry. -/
def findSPByTX (sps : CMPSPInfo) (txid : Txid) : PropertyId := (sps.txIndex[txid]?).getD 0

/-- `IsPropertyIdValid`. -/
def isPropertyIdValid (sps : CMPSPInfo) (propertyId : PropertyId) : Bool :=
  if propertyId = 0 then false
  else
    let nextId := if propertyId < testEcoProperty1 then sps.peekNextSPID 1 else sps.peekNextSPID 2
    let nextId := if propertyId = omniPropertySPC then sps.peekNextSPID 3 else nextId
    decide (propertyId < nextId)

/-! ## Rolling a block back -/

/-- The entry was last written in the block. -/
def touchedIn (blockHash : Nat) (info : SPEntry) : Bool := info.updateBlock == blockHash

/-- The entry was created in the block that last wrote it. -/
def createdThere (info : SPEntry) : Bool := info.updateBlock == info.creationBlock

/-- `popBlock`: entries of the block that it created are deleted with their index entry, the
    others are replaced by what their slot holds. Without a slot nothing is written. -/
def popBlock (sps : CMPSPInfo) (blockHash : Nat) : Int × CMPSPInfo :=
  if sps.entries.toList.any fun e => touchedIn blockHash e.2 && !createdThere e.2 &&
      !sps.prevEntries.contains (blockHash, e.1) then (-3, sps)
  else
    ((sps.entries.toList.countP fun e => !(touchedIn blockHash e.2 && createdThere e.2) : Nat),
      { sps with
        entries := sps.entries.filterMap fun id info =>
          if !touchedIn blockHash info then some info
          else if createdThere info then none
          else sps.prevEntries[(blockHash, id)]?
        txIndex := sps.txIndex.filter fun txid _ =>
          !sps.entries.toList.any fun e =>
            touchedIn blockHash e.2 && createdThere e.2 && e.2.txid == txid
        prevEntries := sps.prevEntries.filter fun key _ =>
          !(key.1 == blockHash && (sps.entries[key.2]?).any fun info =>
            touchedIn blockHash info && !createdThere info) })

end CMPSPInfo

/-! ## Sequences of writes -/

/-- A write to the registry. -/
inductive SPOp
  | put (ecosystem : Nat) (info : SPEntry)
  | update (propertyId : PropertyId) (info : SPEntry)

namespace SPOp

def run (sps : CMPSPInfo) : SPOp → CMPSPInfo
  | put ecosystem info => (sps.putSP ecosystem info).2
  | update propertyId info => (sps.updateSP propertyId info).2

def runAll (sps : CMPSPInfo) (ops : List SPOp) : CMPSPInfo := ops.foldl run sps

/-- The identifiers that the `putSP` calls of a sequence return, in order. -/
def issued : CMPSPInfo → List SPOp → List PropertyId
  | _, [] => []
  | sps, op@(put ecosystem info) :: ops => (sps.putSP ecosystem info).1 :: issued (op.run sps) ops
  | sps, op@(update _ _) :: ops => issued (op.run sps) ops

/-- The entry a sequence stored last under an identifier. -/
def lastStored (propertyId : PropertyId) : CMPSPInfo → List SPOp → Option SPEntry → Option SPEntry
  | _, [], last => last
  | sps, op@(put ecosystem info) :: ops, last => lastStored propertyId (op.run sps) ops
      (if (sps.putSP ecosystem info).1 = propertyId then some info else last)
  | sps, op@(update id info) :: ops, last => lastStored propertyId (op.run sps) ops
      (if id = propertyId then some info else last)

end SPOp

/-- What users of the registry expect of the identifiers a sequence of writes hands out. -/
structure Resolvable (ops : List SPOp) : Prop where
  distinct : (SPOp.issued .init ops).Nodup
  notImplied : ∀ id ∈ SPOp.issued .init ops, impliedSP id = none
  getSP : ∀ id ∈ SPOp.issued .init ops,
    (SPOp.runAll .init ops).getSP id = SPOp.lastStored id .init ops none
  updateSP : ∀ id ∈ SPOp.issued .init ops, ∀ info,
    ((SPOp.runAll .init ops).updateSP id info).1 = true
  valid : ∀ id, (SPOp.runAll .init ops).isPropertyIdValid id = true ↔
    (impliedSP id).isSome ∨ id ∈ SPOp.issued .init ops

/-- As long as no main or contract property was issued, both counters stand at 3; the first one
    issued is property 3. -/
theorem issued_three_or (ops : List SPOp) (sps : CMPSPInfo) (hmain : sps.nextSPID = 3)
    (hspc : sps.nextSPC = 3) :
    omniPropertySPC ∈ SPOp.issued sps ops ∨ (SPOp.runAll sps ops).nextSPC = 3 := by
  induction ops generalizing sps with
  | nil => exact Or.inr hspc
  | cons op ops ih =>
      cases op with
      | put ecosystem info =>
          by_cases h13 : ecosystem = 1 ∨ ecosystem = 3
          · left
            have hid : (sps.putSP ecosystem info).1 = omniPropertySPC := by
              rcases h13 with rfl | rfl
              · exact hmain
              · exact hspc
            exact List.mem_cons.mpr (Or.inl hid.symm)
          · -- the counters of the main and of the contract ecosystem stay
            have h1 : ecosystem ≠ 1 := fun h => h13 (Or.inl h)
            have h3 : ecosystem ≠ 3 := fun h => h13 (Or.inr h)
            have hkeep : ((sps.putSP ecosystem info).2).nextSPID = 3 ∧
                ((sps.putSP ecosystem info).2).nextSPC = 3 := by
              by_cases h2 : ecosystem = 2
              · simp [CMPSPInfo.putSP, h2, hmain, hspc]
              · simp [CMPSPInfo.putSP, h1, h2, h3, hmain, hspc]
            rcases ih _ hkeep.1 hkeep.2 with h | h
            · exact Or.inl (List.mem_cons_of_mem _ h)
            · exact Or.inr h
      | update propertyId info =>
          have hkeep : ((sps.updateSP propertyId info).2).nextSPID = 3 ∧
              ((sps.updateSP propertyId info).2).nextSPC = 3 := by
            unfold CMPSPInfo.updateSP
            split
            · exact ⟨hmain, hspc⟩
            · exact ⟨hmain, hspc⟩
          exact ih _ hkeep.1 hkeep.2

/-- **IDENTIFIERS ARE NEVER ALL RESOLVABLE**: either a sequence of writes has issued the implied
    identifier 3, or `IsPropertyIdValid` rejects it. -/
theorem identifiers_not_resolvable (ops : List SPOp) : ¬ Resolvable ops := by
  intro h
  rcases issued_three_or ops .init rfl rfl with hissued | hspc
  · exact absurd (h.notImplied _ hissued) (by decide)
  · have hvalid := (h.valid omniPropertySPC).mpr (Or.inl rfl)
    simp [CMPSPInfo.isPropertyIdValid, omniPropertySPC, CMPSPInfo.peekNextSPID, hspc] at hvalid

/-- An entry without texts, created by a transaction in a block. -/
def bareEntry (txid blockHash : Nat) : SPEntry :=
  { impliedEntry 1 [] [] [] [] [] with
    txid := txid, creationBlock := blockHash, updateBlock := blockHash }

/-- **ONE IDENTIFIER FOR TWO PROPERTIES**: the first main property and the first contract are both
    property 3. -/
theorem main_and_contract_collide :
    ¬ Resolvable [.put 1 (bareEntry 1 7), .put 3 (bareEntry 2 7)] := by
  intro h
  exact absurd h.distinct (by decide)

end OmniCore
