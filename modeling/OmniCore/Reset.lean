import OmniCore.Registry
import OmniCore.TxList

/-! # Reset — wiping the node for a reparse

    After a reorganisation that cannot be rolled back, `clear_all_state` wipes the node and
    the chain is scanned again. A list of variables and databases is reset one by one; the
    contract order book, the market price, the parameters of the last contract and the
    thresholds of the fee cache are not on it. -/

namespace OmniCore

open Std (ExtTreeMap)
open Machine TextRec MapSum Exec

/-- `DB_VERSION`. -/
def dbVersion : Nat := 6

/-- `CMPTxList::setDBVersion`. -/
def setDBVersion (db : TextDB) : TextDB := db.insert "dbversion".toList (decNat dbVersion)

/-- Nothing is recorded under a hash in the databases of a new node. -/
theorem setDBVersion_txidText (t : Txid) : (setDBVersion ∅)[txidText t]? = none := by
  unfold setDBVersion
  rw [getElem?_insert_eq, if_neg]
  · exact Std.ExtTreeMap.getElem?_empty
  · intro h
    have hlen := congrArg List.length h
    rw [show (txidText t).length = 64 from length_hexNat 64 t] at hlen
    revert hlen
    decide

theorem scanTxList_setDBVersion (wanted : Int → Bool) : scanTxList wanted (setDBVersion ∅) = [] := by
  have hlist : (setDBVersion ∅).toList = [("dbversion".toList, ['6'])] := by decide +kernel
  unfold scanTxList
  rw [hlist]
  rfl

/-- `clear_all_state`; `defaults` are the consensus parameters of the network as they are built. -/
def clearAllState (defaults : ConsensusParams) (s : State) : State :=
  { s with
    -- memory based storage
    tallyMap := ∅
    offers := ∅
    accepts := ∅
    crowds := ∅
    metadex := ∅
    pending := ∅
    params := defaults
    pendingActivations := []
    completedActivations := []
    freezingEnabled := ∅
    frozenAddresses := ∅
    -- LevelDB based storage
    sps := CMPSPInfo.init
    stoList := ∅
    tradeList := ∅
    omniTxDb := ∅
    feeCache := ∅
    feeHistory := ∅
    txList := setDBVersion ∅
    exodusPrev := 0 }

/-- A node started without any data: the databases are new, and `mastercore_init` finds the wrong
    version in them and sets it. `debugFees` comes from the configuration. -/
def State.started (defaults : ConsensusParams) (debugFees : Bool) : State :=
  { State.fresh defaults with debugFees := debugFees, txList := setDBVersion ∅ }

/-- `CRegTestConsensusParams`. -/
def regTestParams : ConsensusParams where
  featureBlock
    | .classC | .metaDEx | .contractDEx | .sendAll => 0
    | _ => 999999
  base := ⟨0, 0, 0, 0, 0, 0⟩
  minActivationBlocks := 5
  maxActivationBlocks := 10
  freezeWaitPeriod := 10

end OmniCore
