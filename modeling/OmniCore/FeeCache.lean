import OmniCore.SendToOwners
import OmniCore.Registry
import OmniCore.Transaction

/-! # FeeCache — trading fees on their way to the holders

    Fees of a property are collected in a text database: one value per property that
    lists, block by block, the amount cached since. Reaching a threshold distributes the
    cached amount between the holders of the ecosystem's token and records the
    distribution. -/

namespace OmniCore

open Std (ExtTreeMap TransCmp)
open Machine TextRec MapSum Exec

/-! ## Cache entries -/

/-- `std::set<feeCacheItem>`: amounts by block. -/
abbrev FeeCacheItems := ExtTreeMap (Int × Int) Unit pairCmp

/-- The items in order. -/
def FeeCacheItems.items (h : FeeCacheItems) : List (Int × Int) := h.toList.map Prod.fst

/-- `%010d`. -/
def feeKey (propertyId : PropertyId) : Text := padNat 10 propertyId

/-- `%d:%d`. -/
def feeItemText (item : Int × Int) : Text := joinWith ':' [decInt item.1, decInt item.2]

/-- The items as they are stored. -/
def feeValue (items : List (Int × Int)) : Text := joinWith ',' (items.map feeItemText)

/-- Separator of cache items. -/
def isComma (c : Char) : Bool := c == ','

/-- One stored item, read back; a text with another number of parts is skipped. -/
def readFeeItem (h : FeeCacheItems) (t : Text) : ExecM FeeCacheItems :=
  match split isColon t with
  | [block, amount] =>
      match castInt 64 block, castInt 64 amount with
      | some b, some a => pure (h.insert (b, a) ())
      | _, _ => throw .exception
  | _ => pure h

/-- `COmniFeeCache::GetCacheHistory`. -/
def getCacheHistory (propertyId : PropertyId) : ExecM FeeCacheItems := do
  let s ← get
  match s.feeCache[feeKey propertyId]? with
  | none => pure ∅
  | some value => (split isComma value).foldlM readFeeItem ∅

/-- The amount of the most recent item. -/
def FeeCacheItems.cachedAmount (h : FeeCacheItems) : Int := (h.items.getLast?.map Prod.snd).getD 0

/-- `COmniFeeCache::GetCachedAmount`. -/
def getCachedAmount (propertyId : PropertyId) : ExecM Int := do
  let h ← getCacheHistory propertyId
  pure h.cachedAmount

/-- Writes the items of a property. -/
def putFeeCache (propertyId : PropertyId) (items : List (Int × Int)) : ExecM Unit :=
  modify fun s => { s with feeCache := s.feeCache.insert (feeKey propertyId) (feeValue items) }

/-- `MAX_STATE_HISTORY`. -/
def maxStateHistory : Int := 50

/-- `COmniFeeCache::PruneCache`. A matured entry is only left out if `msc_debug_fees` is on: the
    `continue` stands inside the debug branch. -/
def pruneCache (propertyId : PropertyId) (block : Int) : ExecM Unit := do
  let pruneBlock := block - maxStateHistory
  let s ← get
  let h ← getCacheHistory propertyId
  match h.items, h.items.getLast? with
  | firstItem :: _, some mostRecentItem =>
      if firstItem.1 < pruneBlock then
        let kept := h.items.filter fun item => !(decide (item.1 < pruneBlock) && s.debugFees)
        -- make sure the pruned cache isn't completely empty
        putFeeCache propertyId (if kept.isEmpty then [mostRecentItem] else kept)
  | _, _ => pure ()

/-- Replaces the entry of a block, and prunes. -/
def setFeeItem (propertyId : PropertyId) (block amount : Int) : ExecM Unit := do
  let h ← getCacheHistory propertyId
  putFeeCache propertyId (h.items.filter (fun item => item.1 != block) ++ [(block, amount)])
  pruneCache propertyId block

/-- `COmniFeeCache::ClearCache`. -/
def clearCache (propertyId : PropertyId) (block : Int) : ExecM Unit :=
  setFeeItem propertyId block 0

/-! ## Distribution -/

/-- Receivers are ordered by their address, and by the amount. -/
instance transCmpRecipient : TransCmp (pairCmp (α := Text) (β := Int)) := inferInstance

/-- `COmniFeeHistory::RecordFeeDistribution`: numbered records, with the receivers by address. -/
def recordFeeDistribution (propertyId : PropertyId) (block total : Int)
    (feeRecipients : ExtTreeMap (Text × Int) Unit pairCmp) : ExecM Unit :=
  modify fun s =>
    let recipients := feeRecipients.toList.map fun e => e.1.1 ++ '=' :: decInt e.1.2
    { s with feeHistory := s.feeHistory.insert (decNat (s.feeHistory.size + 1)) (joinWith ':'
        [decInt block, decNat propertyId, decInt total, joinWith ',' recipients]) }

/-- `COmniFeeCache::DistributeCache`. An empty cache is not a reason to stop. -/
def distributeCache (propertyId : PropertyId) (block : Int) : ExecM Unit := do
  let cachedAmount ← getCachedAmount propertyId
  let receiversSet ← stoGetReceivers none
    (if isTestEcosystemProperty propertyId then omniPropertyTMSC else omniPropertyMSC) cachedAmount
  let receivers := OwnerAddrType.descending receiversSet
  receivers.forM fun r => assertUpdate r.2 propertyId r.1 .balance
  let sentSoFar := (receivers.map Prod.fst).sum
  recordFeeDistribution propertyId block sentSoFar
    (receivers.foldl (fun h r => h.insert (r.2.text, r.1) ()) ∅)
  -- ensure the entire fee cache was distributed
  assertThat .condition (sentSoFar == cachedAmount)
  clearCache propertyId block

/-- A threshold as it is read; a missing one is 0. -/
def State.distributionThreshold (s : State) (propertyId : PropertyId) : Int :=
  (s.distributionThresholds[propertyId]?).getD 0

/-- `COmniFeeCache::EvalCache`. -/
def evalCache (propertyId : PropertyId) (block : Int) : ExecM Unit := do
  let s ← get
  let cachedAmount ← getCachedAmount propertyId
  if s.distributionThreshold propertyId ≤ cachedAmount then
    distributeCache propertyId block

/-- `COmniFeeCache::AddFee`. -/
def addFee (propertyId : PropertyId) (block amount : Int) : ExecM Unit := do
  let currentCachedAmount ← getCachedAmount propertyId
  -- there is no way the fee cache should exceed the maximum possible number of tokens
  if 0 < currentCachedAmount ∧ maxInt64 - currentCachedAmount < amount then
    throw .nodeAborted
  else
    let newCachedAmount ← signed64 (currentCachedAmount + amount)
    setFeeItem propertyId block newCachedAmount
    evalCache propertyId block

/-! ## Thresholds -/

/-- `OMNI_FEE_THRESHOLD`. -/
def omniFeeThreshold : Int := 100000

/-- `getTotalTokens`. -/
def getTotalTokens (propertyId : PropertyId) : ExecM Int := do
  let s ← get
  match s.sps.getSP propertyId with
  | none => pure 0
  | some sp =>
      if sp.fixed then pure sp.numTokens
      else
        let totalTokens ← s.tallyMap.toList.foldlM
          (fun (totalTokens : Int) (e : Address × CMPTally) =>
            signed64 (totalTokens + e.2.held propertyId)) 0
        let cachedFee ← getCachedAmount propertyId
        signed64 (totalTokens + cachedFee)

/-- `COmniFeeCache::UpdateDistributionThresholds`. -/
def updateDistributionThresholds (propertyId : PropertyId) : ExecM Unit := do
  let totalTokens ← getTotalTokens propertyId
  -- protect against zero valued thresholds for low token count properties
  let distributionThreshold := max 1 (totalTokens.tdiv omniFeeThreshold)
  modify fun s => { s with
    distributionThresholds := s.distributionThresholds.insert propertyId distributionThreshold }

/-- `NotifyTotalTokensChanged`. -/
def notifyTotalTokensChanged (propertyId : PropertyId) (block : Int) : ExecM Unit := do
  updateDistributionThresholds propertyId
  evalCache propertyId block

/-! ## Frames -/

section Keeps

variable {τ : Type} {view : State → τ}

theorem keeps_assertThat (site : AssertSite) (c : Bool) : Keeps view (assertThat site c) := by
  cases c with
  | true => exact Keeps.pure ()
  | false => exact Keeps.throw _

theorem keeps_convertTo256 (n : Int) : Keeps view (convertTo256 n) :=
  (keeps_assertThat _ _).bind fun _ => Keeps.pure _

theorem keeps_convertTo64 (n : Nat) : Keeps view (convertTo64 n) :=
  (keeps_assertThat _ _).bind fun _ => Keeps.pure _

theorem keeps_signed64 (n : Int) : Keeps view (signed64 n) :=
  (Keeps.pure _).ite (Keeps.throw _)

theorem keeps_collectOwner (sender : Option Address) (property : PropertyId)
    (acc : Int × OwnerAddrType) (e : Address × CMPTally) :
    Keeps view (collectOwner sender property acc e) := by
  refine (keeps_signed64 _).bind fun tokens => (Keeps.pure _).ite ?_
  exact (keeps_signed64 _).bind fun _ => Keeps.pure _

theorem keeps_allocate (amount totalTokens : Int) (owners : List (Int × Address)) :
    ∀ sentSoFar receiversSet,
      Keeps view (allocate amount totalTokens owners sentSoFar receiversSet) := by
  induction owners with
  | nil => exact fun _ _ => Keeps.pure _
  | cons owner rest ih =>
      intro sentSoFar receiversSet
      refine (keeps_convertTo256 _).bind fun _ => (keeps_convertTo256 _).bind fun _ => ?_
      refine (keeps_convertTo256 _).bind fun _ => (keeps_convertTo64 _).bind fun _ => ?_
      exact (ih _ _).ite (Keeps.pure _)

theorem keeps_stoGetReceivers (sender : Option Address) (property : PropertyId) (amount : Int) :
    Keeps view (stoGetReceivers sender property amount) := by
  refine Keeps.get.bind fun s => Keeps.bind ?_ fun _ => keeps_allocate _ _ _ _ _
  exact Keeps.foldlM (fun acc e => keeps_collectOwner sender property acc e) _

/-- A view of the state that neither the ledger nor the databases of the fees are part of. -/
structure OutsideFees (view : State → τ) : Prop where
  eq : ∀ (s : State) (m : TallyMap) (cache history : TextDB),
    view { s with tallyMap := m, feeCache := cache, feeHistory := history } = view s

namespace OutsideFees

variable (hview : OutsideFees view)
include hview

theorem assertUpdate (who : Address) (p : PropertyId) (amount : Int) (ty : TallyType) :
    Keeps view (assertUpdate who p amount ty) := by
  refine ⟨fun s => wp_assertUpdate (fun _ m' _ => ?_) (fun _ _ m' _ => ?_)⟩
  · exact hview.eq s m' s.feeCache s.feeHistory
  · exact hview.eq s m' s.feeCache s.feeHistory

omit hview in
theorem getCacheHistory (propertyId : PropertyId) : Keeps view (getCacheHistory propertyId) := by
  refine Keeps.get.bind fun s => ?_
  split
  · exact Keeps.pure _
  · refine Keeps.foldlM (fun h t => ?_) _
    unfold readFeeItem
    split
    · split
      · exact Keeps.pure _
      · exact Keeps.throw _
    · exact Keeps.pure _

omit hview in
theorem getCachedAmount (propertyId : PropertyId) : Keeps view (getCachedAmount propertyId) :=
  (getCacheHistory propertyId).bind fun _ => Keeps.pure _

theorem putFeeCache (propertyId : PropertyId) (items : List (Int × Int)) :
    Keeps view (putFeeCache propertyId items) :=
  Keeps.modify fun s => hview.eq s s.tallyMap _ s.feeHistory

theorem pruneCache (propertyId : PropertyId) (block : Int) :
    Keeps view (pruneCache propertyId block) := by
  refine Keeps.get.bind fun s => (getCacheHistory propertyId).bind fun h => ?_
  split
  · exact (hview.putFeeCache _ _).ite (Keeps.pure _)
  · exact Keeps.pure _

theorem setFeeItem (propertyId : PropertyId) (block amount : Int) :
    Keeps view (setFeeItem propertyId block amount) := by
  refine (getCacheHistory propertyId).bind fun h => ?_
  exact (hview.putFeeCache _ _).bind fun _ => hview.pruneCache _ _

theorem distributeCache (propertyId : PropertyId) (block : Int) :
    Keeps view (distributeCache propertyId block) := by
  refine (getCachedAmount propertyId).bind fun cachedAmount => ?_
  refine (keeps_stoGetReceivers _ _ _).bind fun receiversSet => ?_
  refine (Keeps.forM fun r => hview.assertUpdate _ _ _ _).bind fun _ => ?_
  refine (Keeps.modify fun s => ?_).bind fun _ => ?_
  · exact hview.eq s s.tallyMap s.feeCache _
  · exact (keeps_assertThat _ _).bind fun _ => hview.setFeeItem _ _ _

theorem evalCache (propertyId : PropertyId) (block : Int) :
    Keeps view (evalCache propertyId block) := by
  refine Keeps.get.bind fun s => (getCachedAmount propertyId).bind fun _ => ?_
  exact (hview.distributeCache _ _).ite (Keeps.pure _)

/-- Caching a fee touches the ledger and the databases of the fees only. -/
theorem addFee (propertyId : PropertyId) (block amount : Int) :
    Keeps view (addFee propertyId block amount) := by
  refine (getCachedAmount propertyId).bind fun current => (Keeps.throw _).ite ?_
  refine (keeps_signed64 _).bind fun _ => ?_
  exact (hview.setFeeItem _ _ _).bind fun _ => hview.evalCache _ _

end OutsideFees

end Keeps

end OmniCore
