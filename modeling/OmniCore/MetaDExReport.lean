import OmniCore.Freeze
import OmniCore.MetaDExTx

/-! # MetaDExReport — what a node tells about a trade

    The amounts of a trade are not kept with the order. `getMatchingTrades` goes through the
    trade database, picks the records whose key contains the hash of the transaction, and
    adds up one of the two amounts of each, depending on the side. `MetaDEx_getStatus`
    compares the sum with what was for sale, once it knows whether the order still rests. -/

namespace OmniCore

open Std (ExtTreeMap)
open Machine TextRec MapSum Exec

/-! ## The trade database -/

/-- The details in the value of a matched trade. -/
structure TradeRow where
  address1 : Text
  address2 : Text
  prop1 : PropertyId
  prop2 : PropertyId
  amount1 : Int
  amount2 : Int
  blockNum : Int
  tradingFee : Int
  deriving DecidableEq

/-- The tokens of a value, cast; `none` where a `lexical_cast` fails. -/
def decodeTradeRow : List Text → Option TradeRow
  | [address1, address2, prop1, prop2, amount1, amount2, blockNum, tradingFee] =>
      match castNat 32 prop1, castNat 32 prop2, castInt 64 amount1, castInt 64 amount2,
          castInt 64 tradingFee with
      | some p1, some p2, some a1, some a2, some fee =>
          some ⟨address1, address2, p1, p2, a1, a2, atoi blockNum, fee⟩
      | _, _, _, _, _ => none
  | _ => none

/-- An object of the trade array. Its amounts are the arguments of `FormatMP`. -/
structure MatchedTrade where
  txid : Text
  block : Int
  address : Text
  amountSold : PropertyId × Int
  amountReceived : PropertyId × Int
  tradingFee : PropertyId × Int
  deriving DecidableEq

/-- `tradeArray`, `totalSold` and `totalReceived`; a trade was found if the array is not empty. -/
structure MatchingTrades where
  tradeArray : List MatchedTrade
  totalSold : Int
  totalReceived : Int
  deriving DecidableEq

/-- Adds a trade, correcting for its orientation. The totals are 64-bit integers, and wrap. -/
def MatchingTrades.add (acc : MatchingTrades) (propertyId : PropertyId) (matchTxid : Text)
    (row : TradeRow) : MatchingTrades :=
  if row.prop1 = propertyId then
    { tradeArray := acc.tradeArray ++ [{
        txid := matchTxid
        block := row.blockNum
        address := row.address1
        amountSold := (row.prop1, row.amount1)
        amountReceived := (row.prop2, row.amount2)
        tradingFee := (row.prop2, row.tradingFee) }]
      totalReceived := toInt64 (acc.totalReceived + row.amount2)
      totalSold := toInt64 (acc.totalSold + row.amount1) }
  else
    -- not the liquidity taker, so no fee; the amount sold has it, the total does not
    { tradeArray := acc.tradeArray ++ [{
        txid := matchTxid
        block := row.blockNum
        address := row.address2
        amountSold := (row.prop2, toInt64 (row.amount2 + row.tradingFee))
        amountReceived := (row.prop1, row.amount1)
        tradingFee := (row.prop1, 0) }]
      totalReceived := toInt64 (acc.totalReceived + row.amount1)
      totalSold := toInt64 (acc.totalSold + row.amount2) }

/-- One record of the database. -/
def readMatchedTrade (txid : Txid) (propertyId : PropertyId) (acc : MatchingTrades)
    (e : Text × Text) : ExecM MatchingTrades :=
  match findText (txidText txid) e.1 with
  | none => pure acc
  | some txidMatch =>
      -- sanity check key is the correct length for a matched trade
      if e.1.length ≠ 129 then
        pure acc
      else if (split isColon e.2).length ≠ 8 then
        pure acc
      else
        match decodeTradeRow (split isColon e.2) with
        | none => throw .exception
        | some row =>
            let matchTxid := if txidMatch = 0 then (e.1.drop 65).take 64 else e.1.take 64
            pure (acc.add propertyId matchTxid row)

/-- `CMPTradeList::getMatchingTrades`. -/
def getMatchingTrades (txid : Txid) (propertyId : PropertyId) : ExecM MatchingTrades := do
  let s ← get
  s.tradeList.toList.foldlM (readMatchedTrade txid propertyId) ⟨[], 0, 0⟩

/-! ## The status of a trade -/

/-- `MetaDEx_isOpen`; property 0 stands for all. -/
def metaDExIsOpen (s : State) (txid : Txid) (propertyIdForSale : PropertyId) : Bool :=
  s.mdOrders.any fun e =>
    !(propertyIdForSale != 0 && propertyIdForSale != e.property)
      && txidText e.order.txid == txidText txid

/-- `getValidMPTX`: the first field of the record of a transaction. -/
def getValidMPTX (s : State) (txid : Txid) : Bool :=
  match s.txList[txidText txid]? with
  | none => false
  | some result => atoi ((split isColon result).headD []) != 0

/-- `TRADE_INVALID` and so on. -/
inductive TradeStatus
  | invalid
  | opened
  | openPartFilled
  | filled
  | cancelled
  | cancelledPartFilled
  deriving DecidableEq, Repr

/-- The status of a trade via the amount sold and open/closed attributes. -/
def tradeStatus (valid isOpen : Bool) (amountForSale totalSold : Int) : TradeStatus :=
  if valid = false then .invalid
  else if isOpen then
    if totalSold = 0 then .opened else .openPartFilled
  else if totalSold = 0 then .cancelled
  else if totalSold < amountForSale then .cancelledPartFilled
  else .filled

/-- `MetaDEx_getStatus`; without a total, which is then -1, it is looked up. -/
def metaDExGetStatus (txid : Txid) (propertyIdForSale : PropertyId)
    (amountForSale totalSold : Int) : ExecM TradeStatus := do
  let s ← get
  if totalSold = -1 then
    let r ← getMatchingTrades txid propertyIdForSale
    pure (tradeStatus (getValidMPTX s txid) (metaDExIsOpen s txid propertyIdForSale) amountForSale
      r.totalSold)
  else
    pure (tradeStatus (getValidMPTX s txid) (metaDExIsOpen s txid propertyIdForSale) amountForSale
      totalSold)

/-- `mastercore_handler_tx`, for a transaction of the token market: processed, and recorded if it is
    structurally valid. -/
def handleMetaDExTx (tx : CMPTransaction) : ExecM Int := do
  let interpRet ← interpretMetaDExPacket tx
  if interpRet ≠ pktError - 2 then
    modify fun s => { s with
      txList := recordTX s.txList
        ⟨tx.txid, decide (0 ≤ interpRet), tx.block, tx.type.toNat, tx.nNewValue.toNat⟩
      omniTxDb := recordTransaction s.omniTxDb tx.txid tx.txIdx interpRet }
  pure interpRet

/-! ## Records of matched trades -/

/-- The shape of a matched trade: two hashes and a separator, and eight tokens. -/
def isTradeRecord (e : Text × Text) : Bool :=
  e.1.length == 129 && (split isColon e.2).length == 8

/-- The records of matched trades. -/
def tradeRecords (db : TextDB) : List (Text × Text) := db.toList.filter isTradeRecord

/-- What a record adds to the total sold. -/
def soldIn (txid : Txid) (propertyId : PropertyId) (e : Text × Text) : Int :=
  if (findText (txidText txid) e.1).isSome then
    (decodeTradeRow (split isColon e.2)).elim 0 fun row =>
      if row.prop1 = propertyId then row.amount1 else row.amount2
  else 0

theorem MatchingTrades.add_totalSold (acc : MatchingTrades) (propertyId : PropertyId)
    (matchTxid : Text) (row : TradeRow) : (acc.add propertyId matchTxid row).totalSold =
      toInt64 (acc.totalSold + if row.prop1 = propertyId then row.amount1 else row.amount2) := by
  unfold MatchingTrades.add
  split <;> rfl

/-- Other records are passed over. -/
theorem readMatchedTrade_other {txid : Txid} {propertyId : PropertyId} {acc : MatchingTrades}
    {e : Text × Text} (h : isTradeRecord e = false) :
    readMatchedTrade txid propertyId acc e = pure acc := by
  unfold readMatchedTrade
  split
  · rfl
  · unfold isTradeRecord at h
    rw [Bool.and_eq_false_iff, beq_eq_false_iff_ne, beq_eq_false_iff_ne] at h
    rcases h with hkey | hvalue
    · rw [if_pos hkey]
    · rw [if_pos hvalue, ite_self]

/-- A record that can be read adds its amount. -/
theorem readMatchedTrade_record {txid : Txid} {propertyId : PropertyId} {acc : MatchingTrades}
    {e : Text × Text} (h : isTradeRecord e = true)
    (hdecode : (decodeTradeRow (split isColon e.2)).isSome = true) (hacc : IsInt64 acc.totalSold) :
    ∃ acc', readMatchedTrade txid propertyId acc e = pure acc' ∧
      acc'.totalSold = toInt64 (acc.totalSold + soldIn txid propertyId e) := by
  obtain ⟨row, hrow⟩ := Option.isSome_iff_exists.mp hdecode
  unfold isTradeRecord at h
  rw [Bool.and_eq_true, beq_iff_eq, beq_iff_eq] at h
  unfold readMatchedTrade soldIn
  cases hfind : findText (txidText txid) e.1 with
  | none =>
      refine ⟨acc, rfl, ?_⟩
      rw [if_neg (by simp), add_zero, toInt64_of_isInt64 hacc]
  | some txidMatch =>
      dsimp only
      rw [if_neg (not_not_intro h.1), if_neg (not_not_intro h.2), hrow]
      exact ⟨_, rfl, MatchingTrades.add_totalSold _ _ _ _⟩

/-- The total sold is the sum over the records of matched trades. -/
theorem getMatchingTrades_sold (txid : Txid) (propertyId : PropertyId) {s : State}
    (hdecode : ∀ e ∈ tradeRecords s.tradeList,
      (decodeTradeRow (split isColon e.2)).isSome = true) :
    wp (getMatchingTrades txid propertyId) (fun r s' => s' = s ∧
      r.totalSold = toInt64 ((tradeRecords s.tradeList).map (soldIn txid propertyId)).sum)
      (fun _ _ => False) s := by
  have hlist : ∀ (l : List (Text × Text)) (acc : MatchingTrades), IsInt64 acc.totalSold →
      (∀ e ∈ l.filter isTradeRecord, (decodeTradeRow (split isColon e.2)).isSome = true) →
      wp (l.foldlM (readMatchedTrade txid propertyId) acc) (fun r s' => s' = s ∧ r.totalSold =
        toInt64 (acc.totalSold + ((l.filter isTradeRecord).map (soldIn txid propertyId)).sum))
        (fun _ _ => False) s := by
    intro l
    induction l with
    | nil =>
        intro acc hacc _
        refine (wp_pure _ _ _ _).mpr ⟨rfl, ?_⟩
        rw [List.filter_nil, List.map_nil, List.sum_nil, add_zero, toInt64_of_isInt64 hacc]
    | cons e rest ih =>
        intro acc hacc hdec
        rw [List.foldlM_cons, wp_bind]
        cases hrec : isTradeRecord e with
        | false =>
            rw [List.filter_cons_of_neg (by simp [hrec])] at hdec ⊢
            rw [readMatchedTrade_other hrec, wp_pure]
            exact ih acc hacc hdec
        | true =>
            rw [List.filter_cons_of_pos hrec] at hdec ⊢
            obtain ⟨acc', hread, hsold⟩ := readMatchedTrade_record hrec
              (hdec e List.mem_cons_self) hacc
            rw [hread, wp_pure, List.map_cons, List.sum_cons]
            have hacc' : IsInt64 acc'.totalSold := by
              rw [hsold]
              exact isInt64_toInt64 _
            refine wp_imp (ih acc' hacc' fun x hx => hdec x (List.mem_cons_of_mem e hx))
              fun r s' h => ⟨h.1, ?_⟩
            rw [h.2, hsold, toInt64_add_toInt64, add_assoc]
  unfold getMatchingTrades
  rw [wp_bind, wp_get]
  refine wp_imp (hlist s.tradeList.toList ⟨[], 0, 0⟩ (by decide) hdecode) fun r s' h => ⟨h.1, ?_⟩
  rw [h.2, zero_add]
  rfl

/-- A key of another length does not matter to the records of matched trades, and a new record of a
    matched trade is added to them. -/
theorem tradeRecords_insert {db : TextDB} {key : Text} (value : Text)
    (hnew : ∀ old, (key, old) ∉ tradeRecords db) :
    (tradeRecords (db.insert key value)).Perm
      ((if isTradeRecord (key, value) then [(key, value)] else []) ++ tradeRecords db) := by
  have herase : ((db.erase key).toList.filter isTradeRecord).Perm (tradeRecords db) := by
    cases hold : db[key]? with
    | none => rw [erase_of_none hold, tradeRecords]
    | some old =>
        have hperm := (toList_insert_perm (db.erase key) key old).filter isTradeRecord
        have hnot : isTradeRecord (key, old) = false := by
          by_contra hrec
          rw [Bool.not_eq_false] at hrec
          exact hnew old (List.mem_filter.mpr ⟨mem_toList_iff.mpr hold, hrec⟩)
        have hgone : (db.erase key)[key]? = none := by
          rw [getElem?_erase_eq, if_pos rfl]
        rw [insert_erase_self hold, List.filter_cons_of_neg (by simp [hnot]),
          erase_of_none hgone] at hperm
        exact hperm.symm
  have hperm := (toList_insert_perm db key value).filter isTradeRecord
  rw [List.filter_cons] at hperm
  split at hperm
  · next hrec =>
      rw [if_pos hrec]
      exact hperm.trans (herase.cons _)
  · next hnot =>
      rw [if_neg hnot]
      exact hperm.trans herase

end OmniCore
