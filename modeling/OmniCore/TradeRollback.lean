import OmniCore.Lib.Sweep
import OmniCore.ContractRun
import OmniCore.MetaDEx

/-! # TradeRollback — taking blocks out of the trade database

    New trades, matches and contract matches share one database and are told apart by the
    number of their fields. Going back before a block deletes what is not older. A match
    has eight fields and a contract match twelve, but the pass looks for seven: a match
    goes with the trade before it in the order of the keys. -/

namespace OmniCore

open Std (ExtTreeMap)
open Machine TextRec MapSum Exec Sweep

/-! ## Records -/

/-- One call of `recordNewTrade` or of one of the two `recordMatchedTrade`. -/
inductive TradeRecord
  | newTrade (txid : Txid) (address : Address) (propertyIdForSale propertyIdDesired : PropertyId)
      (blockNum blockIndex : Int)
  | matchedTrade (txid1 txid2 : Txid) (address1 address2 : Address) (prop1 prop2 : PropertyId)
      (amount1 amount2 : Int) (blockNum fee : Int)
  | matchedContract (txid1 txid2 : Txid) (address1 address2 : Address) (effectivePrice : Nat)
      (amountForsale amountStillForsale : Int) (blockNum1 blockNum2 : Int)
      (status1 status2 : MatchStatus) (livesMaker livesTaker : Int) (propertyTraded : PropertyId)

namespace TradeRecord

/-- The key of a record. -/
def key : TradeRecord → Text
  | newTrade txid .. => txidText txid
  | matchedTrade txid1 txid2 .. => txidText txid1 ++ '+' :: txidText txid2
  | matchedContract txid1 txid2 .. => txidText txid1 ++ '+' :: txidText txid2

/-- The fields of its value. -/
def fields : TradeRecord → List Text
  | newTrade _ address propertyIdForSale propertyIdDesired blockNum blockIndex =>
      [address.text, decNat propertyIdForSale, decNat propertyIdDesired, decInt blockNum,
        decInt blockIndex]
  | matchedTrade _ _ address1 address2 prop1 prop2 amount1 amount2 blockNum fee =>
      [address1.text, address2.text, decNat prop1, decNat prop2, decInt (toUInt64 amount1),
        decInt (toUInt64 amount2), decInt blockNum, decInt fee]
  | matchedContract _ _ address1 address2 effectivePrice amountForsale amountStillForsale blockNum1
      blockNum2 status1 status2 livesMaker livesTaker propertyTraded =>
      [address1.text, address2.text, decNat effectivePrice, decInt (toUInt64 amountForsale),
        decInt (toUInt64 amountStillForsale), decInt blockNum1, decInt blockNum2, status1.text,
        status2.text, decInt livesMaker, decInt livesTaker, decNat propertyTraded]

/-- Its value. -/
def text (r : TradeRecord) : Text := joinWith ':' r.fields

/-- Writes the record. -/
def put (db : TextDB) (r : TradeRecord) : TextDB := db.insert r.key r.text

/-- The block in which it happened; a match happens in the block of the new order. -/
def block : TradeRecord → Int
  | newTrade _ _ _ _ blockNum _ => blockNum
  | matchedTrade _ _ _ _ _ _ _ _ blockNum _ => blockNum
  | matchedContract _ _ _ _ _ _ _ _ blockNum2 _ _ _ _ _ => blockNum2

/-- A new trade, not a match. -/
def isTrade : TradeRecord → Bool
  | newTrade .. => true
  | _ => false

/-- The call that writes the record. -/
def record : TradeRecord → ExecM Unit
  | newTrade txid address propertyIdForSale propertyIdDesired blockNum blockIndex =>
      recordNewTrade txid address propertyIdForSale propertyIdDesired blockNum blockIndex
  | matchedTrade txid1 txid2 address1 address2 prop1 prop2 amount1 amount2 blockNum fee =>
      recordMatchedTrade txid1 txid2 address1 address2 prop1 prop2 amount1 amount2 blockNum fee
  | matchedContract txid1 txid2 address1 address2 effectivePrice amountForsale amountStillForsale
      blockNum1 blockNum2 status1 status2 livesMaker livesTaker propertyTraded =>
      recordMatchedContract txid1 txid2 address1 address2 effectivePrice amountForsale
        amountStillForsale blockNum1 blockNum2 status1 status2 livesMaker livesTaker propertyTraded

/-- The database of a node without trades after some calls. -/
def database (records : List TradeRecord) : TextDB :=
  (after (records.forM record) (State.fresh openParams)).tradeList

/-- What the database holds: the last record of each key. -/
def stored (records : List TradeRecord) : ExtTreeMap Text TradeRecord :=
  records.foldl (fun m r => m.insert r.key r) ∅

end TradeRecord

/-! ## The pass -/

/-- The block a record is taken to be of; a record of another shape leaves it as it was. -/
def CMPTradeList.blockOf (vstr : List Text) (block : Int) : Int :=
  -- trade matches have 7 tokens, key is txid+txid
  let block := if vstr.length = 7 then atoi (vstr.getD 6 []) else block
  -- trades have 5 tokens, key is txid
  if vstr.length = 5 then atoi (vstr.getD 3 []) else block

/-- The body of the loop of `deleteAboveBlock`, with the block and the number of deletions. -/
def CMPTradeList.deleteVisit (blockNum : Int) (acc : Int × Nat) (_ value : Text) :
    (Int × Nat) × Edit Text :=
  let block := blockOf (split isColon value) acc.1
  if blockNum ≤ block then ((block, acc.2 + 1), .delete) else ((block, acc.2), .keep)

/-- `CMPTradeList::deleteAboveBlock`. -/
def CMPTradeList.deleteAboveBlock (blockNum : Int) (db : TextDB) : Nat × TextDB :=
  let r := sweep (deleteVisit blockNum) (0, 0) db
  (r.1.2, r.2)

/-! ## What is expected -/

/-- **ROLLBACK IS EXACT**: what happened in the block or later is deleted, and nothing else changes. -/
def TradeRollbackExact (records : List TradeRecord) (blockNum : Int) : Prop :=
  ∀ key : Text, (CMPTradeList.deleteAboveBlock blockNum (TradeRecord.database records)).2[key]? =
    ((TradeRecord.stored records)[key]?).bind fun r =>
      if blockNum ≤ r.block then none else some r.text

/-- The block of the last new trade in a list of entries, 0 if there is none. -/
def lastTradeBlock (l : List (Text × TradeRecord)) : Int :=
  (((l.map Prod.snd).filter TradeRecord.isTrade).getLast?.map TradeRecord.block).getD 0

/-- Every stored match is on the same side of the block as the last new trade before it. -/
def MatchesFollowTrades (records : List TradeRecord) (blockNum : Int) : Prop :=
  ∀ pre key r post, (TradeRecord.stored records).toList = pre ++ (key, r) :: post →
    r.isTrade = false → (blockNum ≤ lastTradeBlock pre ↔ blockNum ≤ r.block)

/-! ## Reading the records -/

namespace TradeRecord

theorem isField_fields (r : TradeRecord) : ∀ t ∈ r.fields, IsField t := by
  cases r with
  | newTrade =>
      simp only [fields, List.forall_mem_cons]
      exact ⟨isField_address _, isField_decNat _, isField_decNat _, isField_decInt _,
        isField_decInt _, fun _ ht => (List.not_mem_nil ht).elim⟩
  | matchedTrade =>
      simp only [fields, List.forall_mem_cons]
      exact ⟨isField_address _, isField_address _, isField_decNat _, isField_decNat _,
        isField_decInt _, isField_decInt _, isField_decInt _, isField_decInt _,
        fun _ ht => (List.not_mem_nil ht).elim⟩
  | matchedContract =>
      simp only [fields, List.forall_mem_cons]
      exact ⟨isField_address _, isField_address _, isField_decNat _, isField_decInt _,
        isField_decInt _, isField_decInt _, isField_decInt _, isField_status _, isField_status _,
        isField_decInt _, isField_decInt _, isField_decNat _,
        fun _ ht => (List.not_mem_nil ht).elim⟩

/-- A value is split into its fields. -/
theorem split_text (r : TradeRecord) : split isColon r.text = r.fields := by
  refine split_record ?_ r.isField_fields
  cases r with
  | newTrade => exact List.cons_ne_nil _ _
  | matchedTrade => exact List.cons_ne_nil _ _
  | matchedContract => exact List.cons_ne_nil _ _

/-- **WHAT THE PASS SEES**: the block of a new trade; a match has neither seven nor five fields. -/
theorem blockOf_text (r : TradeRecord) (block : Int) :
    CMPTradeList.blockOf (split isColon r.text) block = if r.isTrade then r.block else block := by
  rw [split_text]
  cases r with
  | newTrade txid address forSale desired blockNum blockIndex => exact atoi_decInt blockNum
  | matchedTrade => rfl
  | matchedContract => rfl

/-- A call puts the record into the database, and does nothing else. -/
theorem record_put (r : TradeRecord) (s : State) :
    r.record s = .ok () { s with tradeList := r.put s.tradeList } := by
  cases r with
  | newTrade => rfl
  | matchedTrade => rfl
  | matchedContract => rfl

/-- Calls put their records one after the other. -/
theorem records_put (records : List TradeRecord) : ∀ s : State,
    records.forM record s = .ok () { s with tradeList := records.foldl put s.tradeList } := by
  induction records with
  | nil => exact fun _ => rfl
  | cons r rest ih =>
      intro s
      show EStateM.bind r.record (fun _ => rest.forM record) s = _
      unfold EStateM.bind
      rw [record_put]
      exact ih _

/-- The database holds the texts of the stored records. -/
theorem database_eq (records : List TradeRecord) :
    database records = (stored records).map fun _ r => r.text := by
  unfold database after
  rw [records_put]
  exact (map_foldl_insert key (fun _ r => r.text) records ∅).symm

end TradeRecord

/-! ## The pass over the records -/

/-- The pass carries the block of the last new trade. -/
theorem carry_deleteVisit (blockNum : Int) (l : List (Text × TradeRecord)) :
    (carry (CMPTradeList.deleteVisit blockNum) (0, 0) (l.map fun e => (e.1, e.2.text))).1 =
      lastTradeBlock l := by
  induction l using List.reverseRecOn with
  | nil => rfl
  | append_singleton l e ih =>
      unfold carry at ih ⊢
      rw [List.map_append, List.map_singleton, List.foldl_append, List.foldl_cons, List.foldl_nil]
      have hblock : ∀ acc : Int × Nat, (CMPTradeList.deleteVisit blockNum acc e.1 e.2.text).1.1 =
          if e.2.isTrade then e.2.block else acc.1 := by
        intro acc
        rw [← TradeRecord.blockOf_text]
        unfold CMPTradeList.deleteVisit
        dsimp only
        split
        · rfl
        · rfl
      dsimp only at hblock ⊢
      rw [hblock, ih]
      unfold lastTradeBlock
      rw [List.map_append, List.map_singleton, List.filter_append]
      by_cases htrade : e.2.isTrade = true
      · rw [if_pos htrade, List.filter_cons_of_pos htrade, List.filter_nil, List.getLast?_concat]
        rfl
      · rw [if_neg htrade, List.filter_cons_of_neg htrade, List.filter_nil, List.append_nil]

/-- What becomes of a record. -/
theorem deleteAboveBlock_entry {records : List TradeRecord} {pre post : List (Text × TradeRecord)}
    {key : Text} {r : TradeRecord} (blockNum : Int)
    (h : (TradeRecord.stored records).toList = pre ++ (key, r) :: post) :
    (CMPTradeList.deleteAboveBlock blockNum (TradeRecord.database records)).2[key]? =
      if blockNum ≤ (if r.isTrade then r.block else lastTradeBlock pre) then none
      else some r.text := by
  have hlist : (TradeRecord.database records).toList = (pre.map fun e => (e.1, e.2.text)) ++
      (key, r.text) :: post.map fun e => (e.1, e.2.text) := by
    rw [TradeRecord.database_eq, ExtTreeMap.toList_map, h, List.map_append, List.map_cons]
  show (sweep (CMPTradeList.deleteVisit blockNum) (0, 0) (TradeRecord.database records)).2[key]? = _
  have hcarry := carry_deleteVisit blockNum pre
  rw [getElem?_sweep hlist]
  generalize carry (CMPTradeList.deleteVisit blockNum) (0, 0) (pre.map fun e => (e.1, e.2.text)) =
    acc at hcarry ⊢
  unfold CMPTradeList.deleteVisit
  dsimp only
  rw [TradeRecord.blockOf_text, hcarry]
  by_cases hnew : blockNum ≤ (if r.isTrade then r.block else lastTradeBlock pre)
  · rw [if_pos hnew, if_pos hnew]
    rfl
  · rw [if_neg hnew, if_neg hnew]
    rfl

/-- **WHEN ROLLBACK IS EXACT**: just if every stored match is on the same side of the block as the
    last new trade before it in the order of the keys. -/
theorem tradeRollbackExact_iff (records : List TradeRecord) (blockNum : Int) :
    TradeRollbackExact records blockNum ↔ MatchesFollowTrades records blockNum := by
  constructor
  · intro hexact pre key r post hsplit hmatch
    have hstored : (TradeRecord.stored records)[key]? = some r := mem_toList_iff.mp (by
      rw [hsplit]
      exact List.mem_append_right _ List.mem_cons_self)
    have hentry := deleteAboveBlock_entry blockNum hsplit
    rw [hexact key, hstored, Option.bind_some, hmatch, if_neg Bool.false_ne_true] at hentry
    by_cases hlast : blockNum ≤ lastTradeBlock pre
    · rw [if_pos hlast] at hentry
      refine iff_of_true hlast ?_
      by_contra hno
      rw [if_neg hno] at hentry
      cases hentry
    · rw [if_neg hlast] at hentry
      refine iff_of_false hlast fun hyes => ?_
      rw [if_pos hyes] at hentry
      cases hentry
  · intro hfollow key
    cases hstored : (TradeRecord.stored records)[key]? with
    | none =>
        refine getElem?_sweep_none ?_
        rw [TradeRecord.database_eq, ExtTreeMap.getElem?_map, hstored]
        rfl
    | some r =>
        obtain ⟨pre, post, hsplit⟩ := List.append_of_mem (mem_toList_iff.mpr hstored :
          (key, r) ∈ (TradeRecord.stored records).toList)
        rw [deleteAboveBlock_entry blockNum hsplit, Option.bind_some]
        by_cases htrade : r.isTrade = true
        · rw [if_pos htrade]
        · rw [if_neg htrade]
          have hsame := hfollow pre key r post hsplit (eq_false_of_ne_true htrade)
          by_cases hlast : blockNum ≤ lastTradeBlock pre
          · rw [if_pos hlast, if_pos (hsame.mp hlast)]
          · rw [if_neg hlast, if_neg (mt hsame.mpr hlast)]

/-- A trade of block 10 is matched in block 20. -/
def lateMatch : List TradeRecord :=
  [.newTrade 1 traderA 3 4 10 0, .matchedTrade 1 2 traderA traderB 3 4 5 5 20 0]

set_option maxRecDepth 4000 in
/-- Going back to block 15 leaves the match in the database. -/
theorem lateMatch_left : ¬ ∀ (records : List TradeRecord) (blockNum : Int),
    TradeRollbackExact records blockNum := by
  intro hall
  have hkey := hall lateMatch 15 (txidText 1 ++ '+' :: txidText 2)
  revert hkey
  decide +kernel

end OmniCore
