import OmniCore.Lib.Sweep
import OmniCore.FeeCache

/-! # StoHistory — receipts of distributions to owners

    The database keeps one text for each address, its receipts one after the other, each
    ended by a comma. Going back before a block splits a text, leaves out what is not
    older and writes the rest back. A text that lost everything stays behind empty, and
    the next receipt is appended to it as to no text at all. -/

namespace OmniCore

open Std (ExtTreeMap)
open Machine TextRec MapSum Sweep

/-! ## The database -/

/-- What an address received of a distribution. -/
structure StoReceipt where
  txid : Txid
  block : Nat
  propertyId : PropertyId
  amount : Nat

/-- The fields of a receipt. -/
def StoReceipt.fields (r : StoReceipt) : List Text :=
  [txidText r.txid, decNat r.block, decNat r.propertyId, decNat r.amount]

/-- `%s:%d:%u:%lu`. -/
def StoReceipt.text (r : StoReceipt) : Text := joinWith ':' r.fields

/-- The text of an address with these receipts. -/
def receiptsText (l : List StoReceipt) : Text := (l.map StoReceipt.text).flatMap fun t => t ++ [',']

namespace CMPSTOList

/-- `CMPSTOList::recordSTOReceive`. -/
def recordSTOReceive (db : TextDB) (address : Address) (r : StoReceipt) : TextDB :=
  match db[address.text]? with
  | some strValue => db.insert address.text (strValue ++ (r.text ++ [',']))
  | none => db.insert address.text (r.text ++ [','])

/-- Several calls. -/
def recordAll (db : TextDB) (calls : List (Address × StoReceipt)) : TextDB :=
  calls.foldl (fun db c => recordSTOReceive db c.1 c.2) db

/-- One of the records of an address, with `newValue` and `needsUpdate`. -/
def keepRecord (blockNum : Int) (acc : Text × Bool) (record : Text) : Text × Bool :=
  let vecSTORecordFields := split isColon record
  if vecSTORecordFields.length ≠ 4 then acc
  else if atoi (vecSTORecordFields.getD 1 []) < blockNum then
    -- STO before the reorg, add data back to new value string
    (acc.1 ++ (record ++ [',']), acc.2)
  else (acc.1, true)

/-- The body of the loop of `deleteAboveBlock`, with the number of records changed. -/
def deleteVisit (blockNum : Int) (found : Nat) (_ oldValue : Text) : Nat × Edit Text :=
  let r := (split isComma oldValue).foldl (keepRecord blockNum) ([], false)
  if r.2 then (found + 1, .put r.1) else (found, .keep)

/-- `CMPSTOList::deleteAboveBlock`. -/
def deleteAboveBlock (blockNum : Int) (db : TextDB) : Nat × TextDB := sweep (deleteVisit blockNum) 0 db

/-- The receipts of an address as all readers find them: the records with four fields. -/
def receipts (db : TextDB) (address : Address) : List (List Text) :=
  ((split isComma ((db[address.text]?).getD [])).map (split isColon)).filter
    fun fields => fields.length == 4

end CMPSTOList

/-! ## What is expected -/

/-- The receipts of an address in a sequence of calls, in their order. -/
def receivedBy (calls : List (Address × StoReceipt)) (a : Address) : List StoReceipt :=
  (calls.filter fun c => c.1 = a).map Prod.snd

/-- The calls of blocks before `blockNum`. -/
def callsBefore (blockNum : Int) (calls : List (Address × StoReceipt)) : List (Address × StoReceipt) :=
  calls.filter fun c => decide ((c.2.block : Int) < blockNum)

open CMPSTOList in
/-- **ROLLBACK IS EXACT**: the older receipts are left in their order, the addresses that lost one are
    counted, and later calls find what they would find if the others had never been recorded. -/
structure StoRollbackExact (calls : List (Address × StoReceipt)) (blockNum : Int)
    (result : Nat × TextDB) : Prop where
  left : ∀ a, receipts result.2 a =
    (receivedBy (callsBefore blockNum calls) a).map StoReceipt.fields
  counted : ∃ lost : List Address, lost.Nodup ∧ result.1 = lost.length ∧
    ∀ a, a ∈ lost ↔ ∃ c ∈ calls, c.1 = a ∧ blockNum ≤ (c.2.block : Int)
  later : ∀ (more : List (Address × StoReceipt)) (a : Address),
    ((recordAll result.2 more)[a.text]?).getD [] =
        ((recordAll (recordAll ∅ (callsBefore blockNum calls)) more)[a.text]?).getD [] ∧
      receipts (recordAll result.2 more) a =
        receipts (recordAll (recordAll ∅ (callsBefore blockNum calls)) more) a

/-! ## Texts of receipts -/

theorem StoReceipt.split_text (r : StoReceipt) : split isColon r.text = r.fields := by
  refine split_record (List.cons_ne_nil _ _) ?_
  unfold fields
  rw [List.forall_mem_cons, List.forall_mem_cons, List.forall_mem_cons, List.forall_mem_cons]
  exact ⟨isField_txidText _, isField_decNat _, isField_decNat _, isField_decNat _,
    fun _ ht => (List.not_mem_nil ht).elim⟩

/-- No field has a comma. -/
theorem StoReceipt.free_text (r : StoReceipt) : Free isComma r.text := by
  have hdec : ∀ n, Free isComma (decNat n) := free_decNat (by
    intro c hc
    unfold isComma
    rw [beq_eq_false_iff_ne]
    rintro rfl
    exact absurd hc (by decide))
  have hhash : Free isComma (txidText r.txid) := free_hexNat (by decide) 64 r.txid
  intro c hc
  simp only [text, fields, joinWith, List.mem_append, List.mem_cons] at hc
  rcases hc with hc | rfl | hc | rfl | hc | rfl | hc
  · exact hhash c hc
  · decide
  · exact hdec _ c hc
  · decide
  · exact hdec _ c hc
  · decide
  · exact hdec _ c hc

theorem StoReceipt.text_ne_nil (r : StoReceipt) : r.text ≠ [] := by
  simp [text, fields, joinWith]

/-- A text of receipts is cut into them, and an empty piece is left. -/
theorem split_receiptsText (l : List StoReceipt) :
    split isComma (receiptsText l) = l.map StoReceipt.text ++ [[]] := by
  refine split_terminated rfl ?_ ?_
  · intro t ht
    obtain ⟨r, _, rfl⟩ := List.mem_map.mp ht
    exact r.free_text
  · intro t ht
    obtain ⟨r, _, rfl⟩ := List.mem_map.mp ht
    exact r.text_ne_nil

theorem receiptsText_append (l l' : List StoReceipt) :
    receiptsText (l ++ l') = receiptsText l ++ receiptsText l' := by
  unfold receiptsText
  rw [List.map_append, List.flatMap_append]

/-- What is kept of a text of receipts, and whether it changes. -/
theorem foldl_keepRecord (blockNum : Int) (l : List StoReceipt) (acc : Text × Bool) :
    (l.map StoReceipt.text ++ [[]]).foldl (CMPSTOList.keepRecord blockNum) acc =
      (acc.1 ++ receiptsText (l.filter fun r => decide ((r.block : Int) < blockNum)),
        acc.2 || l.any fun r => decide (blockNum ≤ (r.block : Int))) := by
  induction l generalizing acc with
  | nil =>
      show acc = (acc.1 ++ [], acc.2 || false)
      rw [List.append_nil, Bool.or_false]
  | cons r rest ih =>
      have hfields : split isColon r.text = r.fields := r.split_text
      rw [List.map_cons, List.cons_append, List.foldl_cons, ih, List.any_cons]
      have hblock : atoi (r.fields.getD 1 []) = r.block := atoi_decNat r.block
      unfold CMPSTOList.keepRecord
      dsimp only
      rw [hfields, if_neg (by simp [StoReceipt.fields]), hblock]
      by_cases hold : (r.block : Int) < blockNum
      · have hnew : decide (blockNum ≤ (r.block : Int)) = false := decide_eq_false (not_le.mpr hold)
        rw [if_pos hold, List.filter_cons, if_pos (decide_eq_true hold), hnew, Bool.false_or]
        unfold receiptsText
        rw [List.map_cons, List.flatMap_cons, List.append_assoc]
      · have hnew : decide (blockNum ≤ (r.block : Int)) = true := decide_eq_true (not_lt.mp hold)
        rw [if_neg hold, List.filter_cons, if_neg (by simpa using hold), hnew]
        dsimp only
        rw [Bool.true_or, Bool.or_true]

/-! ## The database as receipts -/

/-- The database holds these receipts, and no keys but addresses. -/
structure HoldsReceipts (db : TextDB) (history : Address → List StoReceipt) : Prop where
  value : ∀ a, (db[a.text]?).getD [] = receiptsText (history a)
  key : ∀ k ∈ db, ∃ a : Address, k = a.text

namespace HoldsReceipts

variable {db : TextDB} {history : Address → List StoReceipt}

theorem empty : HoldsReceipts ∅ fun _ => [] :=
  ⟨fun a => by rw [ExtTreeMap.getElem?_empty]; rfl, fun _ hk => (ExtTreeMap.not_mem_empty hk).elim⟩

/-- An address without a text has no receipts. -/
theorem nil_of_none (h : HoldsReceipts db history) {a : Address} (hv : db[a.text]? = none) :
    history a = [] := by
  have hvalue := h.value a
  rw [hv, Option.getD_none] at hvalue
  cases hhist : history a with
  | nil => rfl
  | cons r rest =>
      rw [hhist] at hvalue
      simp [receiptsText] at hvalue

/-- What readers find. -/
theorem receipts (h : HoldsReceipts db history) (a : Address) :
    CMPSTOList.receipts db a = (history a).map StoReceipt.fields := by
  unfold CMPSTOList.receipts
  rw [h.value, split_receiptsText, List.map_append, List.map_map, List.filter_append]
  have hsplit : split isColon ∘ StoReceipt.text = StoReceipt.fields :=
    funext fun r => (Function.comp_apply).trans r.split_text
  have hall : ((history a).map StoReceipt.fields).filter (fun fields => fields.length == 4) =
      (history a).map StoReceipt.fields := by
    refine List.filter_eq_self.mpr fun fields hf => ?_
    obtain ⟨r, _, rfl⟩ := List.mem_map.mp hf
    rfl
  rw [hsplit, hall]
  exact List.append_nil _

/-- **ONE RECEIPT** is appended to those of its address. -/
theorem record (h : HoldsReceipts db history) (address : Address) (r : StoReceipt) :
    HoldsReceipts (CMPSTOList.recordSTOReceive db address r)
      (Function.update history address (history address ++ [r])) := by
  have hput : CMPSTOList.recordSTOReceive db address r =
      db.insert address.text ((db[address.text]?).getD [] ++ (r.text ++ [','])) := by
    unfold CMPSTOList.recordSTOReceive
    cases db[address.text]? with
    | none => rw [Option.getD_none, List.nil_append]
    | some value => rw [Option.getD_some]
  rw [hput]
  constructor
  · intro a
    rw [getElem?_insert_eq]
    by_cases ha : address = a
    · subst ha
      rw [if_pos rfl, Option.getD_some, Function.update_self, h.value, receiptsText_append]
      simp [receiptsText]
    · rw [if_neg fun ht => ha (Address.text_injective ht), Function.update_of_ne (Ne.symm ha)]
      exact h.value a
  · intro k hk
    rcases ExtTreeMap.mem_insert.mp hk with heq | hk
    · exact ⟨address, (Std.LawfulEqCmp.eq_of_compare heq).symm⟩
    · exact h.key k hk

/-- Several receipts. -/
theorem recordAll (h : HoldsReceipts db history) (calls : List (Address × StoReceipt)) :
    HoldsReceipts (CMPSTOList.recordAll db calls) fun a => history a ++ receivedBy calls a := by
  induction calls generalizing db history with
  | nil =>
      have hsame : (fun a => history a ++ receivedBy [] a) = history :=
        funext fun a => List.append_nil _
      rw [hsame]
      exact h
  | cons c rest ih =>
      have hnext := ih (h.record c.1 c.2)
      have hsame : (fun a => Function.update history c.1 (history c.1 ++ [c.2]) a ++
          receivedBy rest a) = fun a => history a ++ receivedBy (c :: rest) a := by
        funext a
        unfold receivedBy
        by_cases ha : c.1 = a
        · rw [← ha, Function.update_self, List.filter_cons_of_pos (by simp), List.map_cons,
            List.append_assoc, List.singleton_append]
        · rw [Function.update_of_ne (Ne.symm ha), List.filter_cons_of_neg (by simpa using ha)]
      rw [hsame] at hnext
      exact hnext

/-- The visit of the text of an address. -/
theorem deleteVisit (h : HoldsReceipts db history) (blockNum : Int) (found : Nat) {a : Address}
    {v : Text} (hv : db[a.text]? = some v) :
    CMPSTOList.deleteVisit blockNum found a.text v =
      if (history a).any fun r => decide (blockNum ≤ (r.block : Int)) then
        (found + 1, .put (receiptsText ((history a).filter fun r =>
          decide ((r.block : Int) < blockNum))))
      else (found, .keep) := by
  have hvalue := h.value a
  rw [hv, Option.getD_some] at hvalue
  unfold CMPSTOList.deleteVisit
  rw [hvalue, split_receiptsText, foldl_keepRecord]
  rfl

/-- **GOING BACK** leaves the older receipts of every address. -/
theorem deleteAboveBlock (h : HoldsReceipts db history) (blockNum : Int) :
    HoldsReceipts (CMPSTOList.deleteAboveBlock blockNum db).2
      fun a => (history a).filter fun r => decide ((r.block : Int) < blockNum) := by
  constructor
  · intro a
    cases hv : db[a.text]? with
    | none =>
        unfold CMPSTOList.deleteAboveBlock
        rw [getElem?_sweep_none hv, h.nil_of_none hv]
        rfl
    | some v =>
        have hvisit := fun found => h.deleteVisit blockNum found hv
        unfold CMPSTOList.deleteAboveBlock
        by_cases hany : (history a).any (fun r => decide (blockNum ≤ (r.block : Int))) = true
        · rw [getElem?_sweep_of_const hv fun found => by rw [hvisit, if_pos hany]]
          rfl
        · rw [getElem?_sweep_of_const hv fun found => by rw [hvisit, if_neg hany]]
          have hall : (history a).filter (fun r => decide ((r.block : Int) < blockNum)) =
              history a := by
            refine List.filter_eq_self.mpr fun r hr => decide_eq_true ?_
            by_contra hno
            exact hany (List.any_eq_true.mpr ⟨r, hr, decide_eq_true (not_lt.mp hno)⟩)
          have hvalue := h.value a
          rw [hv] at hvalue
          rw [hall]
          exact hvalue
  · intro k hk
    by_contra hno
    have hnone : db[k]? = none := ExtTreeMap.getElem?_eq_none fun hmem => hno (h.key k hmem)
    have hgone : (CMPSTOList.deleteAboveBlock blockNum db).2[k]? = none := getElem?_sweep_none hnone
    rw [ExtTreeMap.mem_iff_isSome_getElem?, hgone] at hk
    cases hk

/-- A text is rewritten if one of its receipts is not older. -/
theorem changes_iff (h : HoldsReceipts db history) (blockNum : Int) {a : Address} {v : Text}
    (hv : db[a.text]? = some v) :
    ((split isComma v).foldl (CMPSTOList.keepRecord blockNum) ([], false)).2 = true ↔
      ∃ r ∈ history a, blockNum ≤ (r.block : Int) := by
  have hvalue := h.value a
  rw [hv, Option.getD_some] at hvalue
  rw [hvalue, split_receiptsText, foldl_keepRecord]
  dsimp only
  rw [Bool.false_or, List.any_eq_true]
  simp only [decide_eq_true_eq]

/-- **THE NUMBER RETURNED** is that of the addresses with a receipt that is not older. -/
theorem deleteAboveBlock_count (h : HoldsReceipts db history) (blockNum : Int) :
    ∃ lost : List Address, lost.Nodup ∧
      (CMPSTOList.deleteAboveBlock blockNum db).1 = lost.length ∧
      ∀ a, a ∈ lost ↔ ∃ r ∈ history a, blockNum ≤ (r.block : Int) := by
  let changes : Text × Text → Bool := fun e =>
    ((split isComma e.2).foldl (CMPSTOList.keepRecord blockNum) ([], false)).2
  have hcount : (CMPSTOList.deleteAboveBlock blockNum db).1 = (db.toList.filter changes).length := by
    have hstep : ∀ n k v, (CMPSTOList.deleteVisit blockNum n k v).1 =
        if changes (k, v) then n + 1 else n := by
      intro n k v
      unfold CMPSTOList.deleteVisit
      dsimp only [changes]
      split
      · rfl
      · rfl
    calc (CMPSTOList.deleteAboveBlock blockNum db).1
        = carry (CMPSTOList.deleteVisit blockNum) 0 db.toList := fst_sweep 0 db
      _ = 0 + db.toList.countP changes := carry_count hstep db.toList 0
      _ = (db.toList.filter changes).length := by rw [Nat.zero_add, List.countP_eq_length_filter]
  -- the keys are texts of addresses
  have hkeys : (db.toList.filter changes).map Prod.fst ∈ Set.range (List.map Address.text) := by
    rw [Set.range_list_map]
    intro k hk
    obtain ⟨e, he, rfl⟩ := List.mem_map.mp hk
    obtain ⟨a, ha⟩ := h.key e.1 (ExtTreeMap.mem_iff_isSome_getElem?.mpr (by
      rw [mem_toList_iff.mp (List.mem_of_mem_filter he)]
      rfl))
    exact ⟨a, ha.symm⟩
  obtain ⟨lost, hlost⟩ := hkeys
  have hnodup : ((db.toList.filter changes).map Prod.fst).Nodup := by
    refine List.Nodup.sublist (List.filter_sublist.map Prod.fst) ?_
    rw [ExtTreeMap.map_fst_toList_eq_keys]
    exact ExtTreeMap.nodup_keys
  refine ⟨lost, ?_, ?_, fun a => ?_⟩
  · rw [← hlost] at hnodup
    exact List.Nodup.of_map _ hnodup
  · rw [hcount, ← List.length_map (f := Prod.fst), ← hlost, List.length_map]
  · rw [← List.mem_map_of_injective Address.text_injective, hlost, List.mem_map]
    constructor
    · rintro ⟨⟨k, v⟩, he, rfl⟩
      obtain ⟨hmem, hchanges⟩ := List.mem_filter.mp he
      exact (h.changes_iff blockNum (mem_toList_iff.mp hmem)).mp hchanges
    · intro hr
      cases hv : db[a.text]? with
      | none =>
          obtain ⟨r, hr, _⟩ := hr
          rw [h.nil_of_none hv] at hr
          exact (List.not_mem_nil hr).elim
      | some v =>
          exact ⟨(a.text, v), List.mem_filter.mpr ⟨mem_toList_iff.mpr hv,
            (h.changes_iff blockNum hv).mpr hr⟩, rfl⟩

end HoldsReceipts

/-! ## Rollback -/

/-- The receipts of the calls before a block are those of blocks before it. -/
theorem receivedBy_callsBefore (blockNum : Int) (calls : List (Address × StoReceipt)) (a : Address) :
    receivedBy (callsBefore blockNum calls) a =
      (receivedBy calls a).filter fun r => decide ((r.block : Int) < blockNum) := by
  unfold receivedBy callsBefore
  rw [List.filter_map, List.filter_filter, List.filter_filter]
  refine congrArg _ (List.filter_congr fun c _ => ?_)
  exact Bool.and_comm _ _

/-- **ROLLBACK OF THE HISTORY**: exact after every sequence of calls, for every block. -/
theorem stoRollbackExact (calls : List (Address × StoReceipt)) (blockNum : Int) :
    StoRollbackExact calls blockNum
      (CMPSTOList.deleteAboveBlock blockNum (CMPSTOList.recordAll ∅ calls)) := by
  have hdb := HoldsReceipts.empty.recordAll calls
  have hbefore := HoldsReceipts.empty.recordAll (callsBefore blockNum calls)
  have hback := hdb.deleteAboveBlock blockNum
  have hsame : (fun a => ([] ++ receivedBy calls a).filter fun r =>
      decide ((r.block : Int) < blockNum)) =
      fun a => [] ++ receivedBy (callsBefore blockNum calls) a :=
    funext fun a => (receivedBy_callsBefore blockNum calls a).symm
  rw [hsame] at hback
  constructor
  · intro a
    exact hback.receipts a
  · obtain ⟨lost, hnodup, hlen, hmem⟩ := hdb.deleteAboveBlock_count blockNum
    refine ⟨lost, hnodup, hlen, fun a => (hmem a).trans ?_⟩
    unfold receivedBy
    constructor
    · rintro ⟨r, hr, hblock⟩
      obtain ⟨c, hc, rfl⟩ := List.mem_map.mp hr
      obtain ⟨hc, ha⟩ := List.mem_filter.mp hc
      exact ⟨c, hc, of_decide_eq_true ha, hblock⟩
    · rintro ⟨c, hc, ha, hblock⟩
      exact ⟨c.2, List.mem_map.mpr ⟨c, List.mem_filter.mpr ⟨hc, decide_eq_true ha⟩, rfl⟩, hblock⟩
  · intro more a
    have hmore := hback.recordAll more
    have hnever := hbefore.recordAll more
    exact ⟨(hmore.value a).trans (hnever.value a).symm,
      (hmore.receipts a).trans (hnever.receipts a).symm⟩

end OmniCore
