import OmniCore.Node

/-! # Reparse — scanning the chain again on a wiped node

    What `clear_all_state` leaves alone shows up again when the handlers are called for the
    chain from its beginning: a node that was wiped is like a new one exactly if the
    contract market and the thresholds of the fee cache were never used. -/

namespace OmniCore

open Std (ExtTreeMap)
open Machine TextRec MapSum Exec

/-- What `clear_all_state` leaves alone is as it was when the process started. -/
structure Untouched (s : State) : Prop where
  contractdex : s.contractdex = ∅
  marketPrice : s.marketPrice = 0
  blocksUntilExpiration : s.blocksUntilExpiration = 0
  notionalSize : s.notionalSize = 0
  collateralCurrency : s.collateralCurrency = 0
  marginRequirementContract : s.marginRequirementContract = 0
  distributionThresholds : s.distributionThresholds = ∅

/-- The handlers that the scan of the chain calls, one after the other. -/
def rescan (env : NodeEnv) (events : List NodeEvent) : ExecM Unit := events.forM (NodeEvent.run env)

/-- A reparse starts clean: the wiped node is like a fresh one, and every chain that is scanned again
    ends alike on both. -/
def ReparsesClean (defaults : ConsensusParams) (s : State) : Prop :=
  clearAllState defaults s = State.started defaults s.debugFees ∧
    ∀ env events, rescan env events (clearAllState defaults s) =
      rescan env events (State.started defaults s.debugFees)

theorem clearAllState_eq_started (defaults : ConsensusParams) {s : State} (h : Untouched s) :
    clearAllState defaults s = State.started defaults s.debugFees := by
  unfold clearAllState State.started State.fresh
  rw [h.contractdex, h.marketPrice, h.blocksUntilExpiration, h.notionalSize, h.collateralCurrency,
    h.marginRequirementContract, h.distributionThresholds]
  rfl

/-- **WHEN A REPARSE STARTS CLEAN**: the wiped node is a fresh one, and replays like it, exactly if
    the contract market and the fee thresholds were never used. -/
theorem reparsesClean_iff (defaults : ConsensusParams) (s : State) :
    ReparsesClean defaults s ↔ Untouched s := by
  constructor
  · rintro ⟨h, -⟩
    have hpart : ∀ {α : Type} (f : State → α), f (clearAllState defaults s) =
        f (State.started defaults s.debugFees) := fun f => congrArg f h
    exact {
      contractdex := hpart State.contractdex
      marketPrice := hpart State.marketPrice
      blocksUntilExpiration := hpart State.blocksUntilExpiration
      notionalSize := hpart State.notionalSize
      collateralCurrency := hpart State.collateralCurrency
      marginRequirementContract := hpart State.marginRequirementContract
      distributionThresholds := hpart State.distributionThresholds }
  · intro h
    have hclear := clearAllState_eq_started defaults h
    exact ⟨hclear, fun env events => by rw [hclear]⟩

/-- A contract is created and `A` offers one: the order is still in the book of the wiped node, and
    so are the contract's parameters. -/
theorem restingOrder_survives_clear :
    (returned (runContracts 3 (oneTrade.take 2)) (World.start fundedState)).isSome = true ∧
    ¬ ReparsesClean openParams
      (after (runContracts 3 (oneTrade.take 2)) (World.start fundedState)).state := by
  refine ⟨by decide +kernel, fun h => ?_⟩
  have hbook := congrArg State.contractdex h.1
  have hempty : (after (runContracts 3 (oneTrade.take 2))
      (World.start fundedState)).state.contractdex.isEmpty = false := by decide +kernel
  have hfresh : (after (runContracts 3 (oneTrade.take 2))
      (World.start fundedState)).state.contractdex = ∅ := hbook
  rw [hfresh] at hempty
  cases hempty

end OmniCore
