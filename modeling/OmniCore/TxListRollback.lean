import OmniCore.DEx
import OmniCore.Lib.Sweep
import OmniCore.SendAll
import OmniCore.TxList

/-! # TxListRollback — taking blocks out of the transaction list

    A transaction has a master record with its block, and payments, cancels and send-alls
    have numbered sub-records without one. Going back deletes what has a block in the range,
    and the block is read from the second field of every record: of a sub-record that is
    the address of a buyer, an amount or the identifier of a property. -/

namespace OmniCore

open Std (ExtTreeMap)
open Machine TextRec MapSum Sweep Exec

/-! ## Calls and records -/

/-- A record that belongs to a master record. -/
inductive TxSubRecord
  | payment (vout : Nat) (buyer seller : Address) (propertyId : PropertyId) (nValue : Int)
  | sendAll (propertyId : PropertyId) (nValue : Int)
  | cancel (txidSub : Txid) (propertyId : PropertyId) (nValue : Int)

namespace TxSubRecord

/-- The fields of its value. -/
def fields : TxSubRecord → List Text
  | payment vout buyer seller propertyId nValue =>
      [decNat vout, buyer.text, seller.text, decNat propertyId, decInt (toUInt64 nValue)]
  | sendAll propertyId nValue => [decNat propertyId, decInt nValue]
  | cancel txidSub propertyId nValue =>
      [txidText txidSub, decNat propertyId, decInt (toUInt64 nValue)]

/-- Its value. -/
def text (r : TxSubRecord) : Text := joinWith ':' r.fields

/-- Its second field as a number: the address of the buyer, the amount that was sent, or the property
    of the cancelled order. -/
def secondNumber : TxSubRecord → Int
  | payment _ buyer _ _ _ => atoi32 buyer.text
  | sendAll _ nValue => atoi32 (decInt nValue)
  | cancel _ propertyId _ => atoi32 (decNat propertyId)

end TxSubRecord

/-- A call that writes into the transaction list. -/
inductive TxCall
  | recordTX (r : TxRecord)
  | recordPaymentTX (txid : Txid) (valid : Bool) (block vout : Nat) (propertyId : PropertyId)
      (nValue : Int) (buyer seller : Address)
  | recordSendAllSubRecord (txid : Txid) (subRecordNumber : Int) (propertyId : PropertyId)
      (nValue : Int)
  | recordMetaDExCancelTX (txidMaster txidSub : Txid) (fValid : Bool) (nBlock : Nat)
      (propertyId : PropertyId) (nValue : Int)
  | recordContractDexCancelTX (txidMaster txidSub : Txid) (fValid : Bool) (nBlock : Nat)
      (propertyId : PropertyId) (nValue : Int)

namespace TxCall

/-- The call. -/
def exec : TxCall → ExecM Unit
  | recordTX r => modify fun s => { s with txList := OmniCore.recordTX s.txList r }
  | recordPaymentTX txid valid block vout propertyId nValue buyer seller =>
      OmniCore.recordPaymentTX txid valid block vout propertyId nValue buyer seller
  | recordSendAllSubRecord txid subRecordNumber propertyId nValue =>
      OmniCore.recordSendAllSubRecord txid subRecordNumber propertyId nValue
  | recordMetaDExCancelTX txidMaster txidSub fValid nBlock propertyId nValue =>
      OmniCore.recordMetaDExCancelTX txidMaster txidSub fValid nBlock propertyId nValue
  | recordContractDexCancelTX txidMaster txidSub fValid nBlock propertyId nValue =>
      OmniCore.recordContractDexCancelTX txidMaster txidSub fValid nBlock propertyId nValue

/-- The call has the block of its transaction. -/
def InBlock (blockOf : Text → Nat) : TxCall → Prop
  | recordTX r => r.block = blockOf (txidText r.txid)
  | recordPaymentTX txid _ block _ _ _ _ _ => block = blockOf (txidText txid)
  | recordSendAllSubRecord .. => True
  | recordMetaDExCancelTX txidMaster _ _ nBlock _ _ => nBlock = blockOf (txidText txidMaster)
  | recordContractDexCancelTX txidMaster _ _ nBlock _ _ => nBlock = blockOf (txidText txidMaster)

end TxCall

/-- The hash a key starts with. -/
def transactionOf (key : Text) : Text := key.take 64

/-! ## The pass -/

/-- The body of the loop of `isMPinBlockRange`, with the number of records found. -/
def CMPTxList.rangeVisit (startingBlock endingBlock : Int) (bDeleteFound : Bool) (found : Nat)
    (_ value : Text) : Nat × Edit Text :=
  let vstr := split isColon value
  -- only care about the block number/height here
  if 2 ≤ vstr.length then
    let block := atoi32 (vstr.getD 1 [])
    if startingBlock ≤ block ∧ block ≤ endingBlock then
      (found + 1, if bDeleteFound then .delete else .keep)
    else (found, .keep)
  else (found, .keep)

/-- `CMPTxList::isMPinBlockRange`. -/
def CMPTxList.isMPinBlockRange (startingBlock endingBlock : Int) (bDeleteFound : Bool) (db : TextDB) :
    Bool × TextDB :=
  let r := sweep (rangeVisit startingBlock endingBlock bDeleteFound) 0 db
  (r.1 != 0, r.2)

/-! ## What is expected -/

/-- **ROLLBACK IS EXACT**: the records of the transactions with a block in the range are deleted, and
    nothing else changes. -/
def TxRollbackExact (blockOf : Text → Nat) (db : TextDB) (startingBlock endingBlock : Int) : Prop :=
  ∀ key : Text, (CMPTxList.isMPinBlockRange startingBlock endingBlock true db).2[key]? =
    (db[key]?).bind fun value =>
      if startingBlock ≤ blockOf (transactionOf key) ∧ (blockOf (transactionOf key) : Int) ≤ endingBlock
      then none else some value

/-- The second field of every sub-record is a number in the range just if the block of its
    transaction is. -/
def SubRecordsFollow (blockOf : Text → Nat) (db : TextDB) (startingBlock endingBlock : Int) : Prop :=
  ∀ (key : Text) (sub : TxSubRecord), db[key]? = some sub.text →
    (startingBlock ≤ sub.secondNumber ∧ sub.secondNumber ≤ endingBlock ↔
      startingBlock ≤ blockOf (transactionOf key) ∧
        (blockOf (transactionOf key) : Int) ≤ endingBlock)

/-! ## Reading the records -/

theorem transactionOf_append (t : Txid) (rest : Text) :
    transactionOf (txidText t ++ rest) = txidText t :=
  List.take_left' (length_hexNat 64 t)

theorem transactionOf_txidText (t : Txid) : transactionOf (txidText t) = txidText t := by
  have h := transactionOf_append t []
  rwa [List.append_nil] at h

/-- A sub-record is split into its fields. -/
theorem TxSubRecord.split_text (r : TxSubRecord) : split isColon r.text = r.fields := by
  cases r with
  | payment vout buyer seller propertyId nValue =>
      refine split_record (List.cons_ne_nil _ _) ?_
      simp only [fields, List.forall_mem_cons]
      exact ⟨isField_decNat _, isField_address _, isField_address _, isField_decNat _,
        isField_decInt _, fun _ ht => (List.not_mem_nil ht).elim⟩
  | sendAll propertyId nValue =>
      refine split_record (List.cons_ne_nil _ _) ?_
      simp only [fields, List.forall_mem_cons]
      exact ⟨isField_decNat _, isField_decInt _, fun _ ht => (List.not_mem_nil ht).elim⟩
  | cancel txidSub propertyId nValue =>
      refine split_record (List.cons_ne_nil _ _) ?_
      simp only [fields, List.forall_mem_cons]
      exact ⟨isField_txidText _, isField_decNat _, isField_decInt _,
        fun _ ht => (List.not_mem_nil ht).elim⟩

theorem TxSubRecord.fields_read (r : TxSubRecord) :
    2 ≤ r.fields.length ∧ atoi32 (r.fields.getD 1 []) = r.secondNumber := by
  cases r with
  | payment => exact ⟨by simp [fields], rfl⟩
  | sendAll => exact ⟨by simp [fields], rfl⟩
  | cancel => exact ⟨by simp [fields], rfl⟩

/-- **A SUB-RECORD** is deleted for its second field. -/
theorem TxSubRecord.rangeVisit (r : TxSubRecord) (startingBlock endingBlock : Int) (found : Nat)
    (key : Text) :
    (CMPTxList.rangeVisit startingBlock endingBlock true found key r.text).2 =
      if startingBlock ≤ r.secondNumber ∧ r.secondNumber ≤ endingBlock then .delete else .keep := by
  unfold CMPTxList.rangeVisit
  dsimp only
  rw [r.split_text, if_pos r.fields_read.1, r.fields_read.2]
  split
  · rfl
  · rfl

/-- A master record with this block. -/
def IsMaster (block : Nat) (value : Text) : Prop :=
  ∃ valid type count : Text, IsField valid ∧ IsField type ∧ IsField count ∧
    value = joinWith ':' [valid, decNat block, type, count]

/-- **A MASTER RECORD** is deleted for its block. -/
theorem IsMaster.rangeVisit {block : Nat} {value : Text} (h : IsMaster block value)
    (hblock : block < 2 ^ 31) (startingBlock endingBlock : Int) (found : Nat) (key : Text) :
    (CMPTxList.rangeVisit startingBlock endingBlock true found key value).2 =
      if startingBlock ≤ block ∧ (block : Int) ≤ endingBlock then .delete else .keep := by
  obtain ⟨valid, type, count, hvalid, htype, hcount, rfl⟩ := h
  have hsplit : split isColon (joinWith ':' [valid, decNat block, type, count]) =
      [valid, decNat block, type, count] := by
    refine split_record (List.cons_ne_nil _ _) ?_
    simp only [List.forall_mem_cons]
    exact ⟨hvalid, isField_decNat _, htype, hcount, fun _ ht => (List.not_mem_nil ht).elim⟩
  have hread : atoi32 (decNat block) = block := atoi32_decInt (n := block) (by omega) (by omega)
  unfold CMPTxList.rangeVisit
  dsimp only
  have hsecond : [valid, decNat block, type, count].getD 1 [] = decNat block := rfl
  rw [hsplit, if_pos (by simp), hsecond, hread]
  split
  · rfl
  · rfl

/-! ## The database of a run -/

/-- Every record is a sub-record, or a master record with the block of its transaction. -/
def TxListOk (blockOf : Text → Nat) (db : TextDB) : Prop :=
  ∀ (key value : Text), db[key]? = some value →
    (∃ sub : TxSubRecord, value = sub.text) ∨ IsMaster (blockOf (transactionOf key)) value

namespace TxListOk

variable {blockOf : Text → Nat} {db : TextDB}

theorem empty : TxListOk blockOf ∅ := by
  intro key value h
  rw [ExtTreeMap.getElem?_empty] at h
  cases h

theorem insert_sub (h : TxListOk blockOf db) (key : Text) (sub : TxSubRecord) :
    TxListOk blockOf (db.insert key sub.text) := by
  intro k value hk
  rw [getElem?_insert_eq] at hk
  split at hk
  · exact Or.inl ⟨sub, (Option.some.inj hk).symm⟩
  · exact h k value hk

theorem insert_master (h : TxListOk blockOf db) {key value : Text}
    (hvalue : IsMaster (blockOf (transactionOf key)) value) : TxListOk blockOf (db.insert key value) := by
  intro k v hk
  rw [getElem?_insert_eq] at hk
  split at hk
  · next heq =>
      subst heq
      cases hk
      exact Or.inr hvalue
  · exact h k v hk

/-- The records of a cancelled order. -/
theorem cancel {s : State} (h : TxListOk blockOf s.txList) (txidMaster txidSub : Txid) (fValid : Bool)
    {nBlock : Nat} (propertyId : PropertyId) (nValue : Int)
    (hblock : nBlock = blockOf (txidText txidMaster)) :
    wp (recordMetaDExCancelTX txidMaster txidSub fValid nBlock propertyId nValue)
      (fun _ s' => TxListOk blockOf s'.txList) (fun _ _ => False) s := by
  have hflag : IsField (if fValid then ['1'] else ['0']) := by
    cases fValid with
    | true => exact isField_decNat 1
    | false => exact isField_decNat 0
  refine (wp_modify _ _ _ _).mpr (insert_sub (h.insert_master ?_) _ (.cancel txidSub propertyId nValue))
  rw [transactionOf_append, ← hblock]
  exact ⟨_, _, _, hflag, isField_decNat _, isField_decInt _, rfl⟩

/-- **ONE CALL** keeps it. -/
theorem exec {s : State} (h : TxListOk blockOf s.txList) {c : TxCall} (hc : c.InBlock blockOf) :
    wp c.exec (fun _ s' => TxListOk blockOf s'.txList) (fun _ _ => False) s := by
  cases c with
  | recordTX r =>
      have hblock : r.block = blockOf (txidText r.txid) := hc
      refine (wp_modify _ _ _ _).mpr (h.insert_master ?_)
      rw [transactionOf_txidText, ← hblock]
      exact ⟨_, _, _, isField_decNat _, isField_decNat _, isField_decNat _, rfl⟩
  | recordPaymentTX txid valid block vout propertyId nValue buyer seller =>
      have hblock : block = blockOf (txidText txid) := hc
      show wp (OmniCore.recordPaymentTX txid valid block vout propertyId nValue buyer seller) _ _ s
      unfold OmniCore.recordPaymentTX
      rw [wp_bind, wp_get, wp_modify]
      refine insert_sub (h.insert_master ?_) _ (.payment vout buyer seller propertyId nValue)
      rw [transactionOf_txidText, ← hblock]
      exact ⟨_, _, _, isField_decNat _, isField_decNat _, isField_decInt _, rfl⟩
  | recordSendAllSubRecord txid subRecordNumber propertyId nValue =>
      exact (wp_modify _ _ _ _).mpr (h.insert_sub _ (.sendAll propertyId nValue))
  | recordMetaDExCancelTX txidMaster txidSub fValid nBlock propertyId nValue =>
      exact h.cancel txidMaster txidSub fValid propertyId nValue hc
  | recordContractDexCancelTX txidMaster txidSub fValid nBlock propertyId nValue =>
      exact h.cancel txidMaster txidSub fValid propertyId nValue hc

/-- **A RUN** of calls keeps it. -/
theorem run {calls : List TxCall} {s : State} (h : TxListOk blockOf s.txList)
    (hcalls : ∀ c ∈ calls, c.InBlock blockOf) :
    wp (calls.forM TxCall.exec) (fun _ s' => TxListOk blockOf s'.txList) (fun _ _ => False) s := by
  induction calls generalizing s with
  | nil => exact (wp_pure _ _ _ _).mpr h
  | cons c rest ih =>
      rw [wp_forM_cons]
      refine wp_imp (h.exec (hcalls c List.mem_cons_self)) fun _ s₁ hs₁ => ?_
      exact ih hs₁ fun c' hc' => hcalls c' (List.mem_cons_of_mem _ hc')

end TxListOk

/-! ## Rollback -/

/-- What becomes of a record. -/
theorem isMPinBlockRange_entry {db : TextDB} {key value : Text} {startingBlock endingBlock block : Int}
    (hvalue : db[key]? = some value)
    (h : ∀ found, (CMPTxList.rangeVisit startingBlock endingBlock true found key value).2 =
      if startingBlock ≤ block ∧ block ≤ endingBlock then .delete else .keep) :
    (CMPTxList.isMPinBlockRange startingBlock endingBlock true db).2[key]? =
      if startingBlock ≤ block ∧ block ≤ endingBlock then none else some value := by
  unfold CMPTxList.isMPinBlockRange
  dsimp only
  rw [getElem?_sweep_of_const hvalue h]
  split
  · rfl
  · rfl

theorem ite_none_iff {c d : Prop} [Decidable c] [Decidable d] {v : Text} :
    (if c then none else some v) = (if d then none else some v) ↔ (c ↔ d) := by
  by_cases hc : c
  · by_cases hd : d
    · simp [hc, hd]
    · simp [hc, hd]
  · by_cases hd : d
    · simp [hc, hd]
    · simp [hc, hd]

/-- **WHEN ROLLBACK IS EXACT**: just if the second field of every sub-record reads as a number in the
    range whenever the block of its transaction is in it, and only then. -/
theorem txRollbackExact_iff {blockOf : Text → Nat} {calls : List TxCall} {s s' : State}
    (hheight : ∀ h, blockOf h < 2 ^ 31) (hcalls : ∀ c ∈ calls, c.InBlock blockOf)
    (hempty : s.txList = ∅) (hrun : calls.forM TxCall.exec s = .ok () s')
    (startingBlock endingBlock : Int) :
    TxRollbackExact blockOf s'.txList startingBlock endingBlock ↔
      SubRecordsFollow blockOf s'.txList startingBlock endingBlock := by
  have hok : TxListOk blockOf s'.txList := by
    have hstart : TxListOk blockOf s.txList := by
      rw [hempty]
      exact TxListOk.empty
    have hspec := wp_ok (hstart.run hcalls) hrun
    exact hspec
  constructor
  · intro hexact key sub hsub
    have hentry := isMPinBlockRange_entry hsub fun found =>
      sub.rangeVisit startingBlock endingBlock found key
    rw [hexact key, hsub, Option.bind_some] at hentry
    exact (ite_none_iff.mp hentry).symm
  · intro hfollow key
    cases hvalue : s'.txList[key]? with
    | none => exact getElem?_sweep_none hvalue
    | some value =>
        rw [Option.bind_some]
        rcases hok key value hvalue with ⟨sub, rfl⟩ | hmaster
        · rw [isMPinBlockRange_entry hvalue fun found =>
            sub.rangeVisit startingBlock endingBlock found key]
          exact ite_none_iff.mpr (hfollow key sub hvalue)
        · exact isMPinBlockRange_entry hvalue fun found =>
            hmaster.rangeVisit (hheight _) startingBlock endingBlock found key

/-- The second numbers of all records decide it. -/
theorem subRecordsFollow_of_toList {blockOf : Text → Nat} {db : TextDB} {startingBlock endingBlock : Int}
    (h : ∀ e ∈ db.toList, startingBlock ≤ atoi32 ((split isColon e.2).getD 1 []) ∧
        atoi32 ((split isColon e.2).getD 1 []) ≤ endingBlock ↔
      startingBlock ≤ blockOf (transactionOf e.1) ∧
        (blockOf (transactionOf e.1) : Int) ≤ endingBlock) :
    SubRecordsFollow blockOf db startingBlock endingBlock := by
  intro key sub hsub
  have hentry := h (key, sub.text) (mem_toList_iff.mpr hsub)
  rw [sub.split_text, sub.fields_read.2] at hentry
  exact hentry

/-- A send-all of block 10 moves 5 of property 1. -/
def smallSendAll : List TxCall :=
  [.recordSendAllSubRecord 1 1 1 5, .recordTX ⟨1, true, 10, 4, 1⟩]

theorem smallSendAll_run : smallSendAll.forM TxCall.exec fundedState =
    .ok () (after (smallSendAll.forM TxCall.exec) fundedState) :=
  eq_ok_of_value (a := ()) (by decide +kernel)

set_option maxRecDepth 4000 in
/-- When block 5 is taken out as well, the sub-record goes with its transaction. -/
theorem smallSendAll_deleted :
    TxRollbackExact (fun _ => 10) (after (smallSendAll.forM TxCall.exec) fundedState).txList 5 20 := by
  refine (txRollbackExact_iff (fun _ => by norm_num) ?_ (by rfl) smallSendAll_run 5 20).mpr ?_
  · intro c hc
    rcases List.mem_pair.mp hc with rfl | rfl
    · trivial
    · rfl
  · exact subRecordsFollow_of_toList (by decide +kernel)

set_option maxRecDepth 4000 in
/-- When it is not, the sub-record stays behind. -/
theorem smallSendAll_left : ¬ ∀ (blockOf : Text → Nat) (calls : List TxCall) (s s' : State),
    (∀ h, blockOf h < 2 ^ 31) → (∀ c ∈ calls, c.InBlock blockOf) → s.txList = ∅ →
    calls.forM TxCall.exec s = .ok () s' → ∀ startingBlock endingBlock,
    TxRollbackExact blockOf s'.txList startingBlock endingBlock := by
  intro hall
  have hcalls : ∀ c ∈ smallSendAll, c.InBlock fun _ => 10 := by
    intro c hc
    rcases List.mem_pair.mp hc with rfl | rfl
    · trivial
    · rfl
  have hkey := hall (fun _ => 10) smallSendAll fundedState _ (fun _ => by norm_num) hcalls (by rfl)
    smallSendAll_run 10 20 (sendAllKey 1 1)
  revert hkey
  decide +kernel

end OmniCore
