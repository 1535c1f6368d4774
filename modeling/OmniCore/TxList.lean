import OmniCore.Lib.Listing
import OmniCore.Transaction

/-! # TxList — the record of processed transactions

    `p_txlistdb` keeps one line per transaction: whether it was valid, its block, its type
    and an amount. After a restart the node scans these lines for the transactions whose
    effects are kept in memory only, and processes them again. -/

namespace OmniCore

open Std (ExtTreeMap TransCmp)
open Machine TextRec MapSum Exec

/-! ## The order of hashes -/

/-- The lowest `w` bytes of a number, the lowest first. -/
def leBytes : Nat → Nat → List Nat
  | 0, _ => []
  | w + 1, n => n % 256 :: leBytes w (n / 256)

/-- `operator<` of `uint256`: the bytes are compared in the order in which they are stored. -/
def uint256Cmp : Txid → Txid → Ordering := compareOn (leBytes 32)

/-- A pair of a key and a hash, as `std::pair` compares them. -/
def loadCmp {κ : Type} [Ord κ] : κ × Txid → κ × Txid → Ordering :=
  compareLex (compareOn Prod.fst) (fun a b => uint256Cmp a.2 b.2)

instance : TransCmp uint256Cmp := inferInstanceAs (TransCmp (compareOn (leBytes 32)))

instance {κ : Type} [Ord κ] [Std.TransOrd κ] : TransCmp (loadCmp (κ := κ)) :=
  inferInstanceAs (TransCmp (compareLex (compareOn Prod.fst)
    (compareOn fun e : κ × Txid => leBytes 32 e.2)))

/-- The block decides, within a block the hash. -/
theorem loadCmp_lt {a b : Int × Txid} (h : a.1 < b.1 ∨ a.1 = b.1 ∧ uint256Cmp a.2 b.2 = .lt) :
    loadCmp a b = .lt := by
  show (compare a.1 b.1).then (uint256Cmp a.2 b.2) = .lt
  rcases h with hlt | ⟨heq, hlt⟩
  · rw [Std.compare_eq_lt.mpr hlt]
    rfl
  · rw [Std.LawfulEqOrd.compare_eq_iff_eq.mpr heq, hlt]
    rfl

/-! ## Records -/

/-- What `recordTX` writes down of a transaction. -/
structure TxRecord where
  txid : Txid
  valid : Bool
  block : Nat
  type : Nat
  nValue : Nat

/-- `%u:%d:%u:%lu`. -/
def TxRecord.text (r : TxRecord) : Text :=
  joinWith ':' [decNat (if r.valid then 1 else 0), decNat r.block, decNat r.type, decNat r.nValue]

/-- `CMPTxList::recordTX`. -/
def recordTX (db : TextDB) (r : TxRecord) : TextDB := db.insert (txidText r.txid) r.text

/-- A leading `0x` is skipped. -/
def skipHexMark : Text → Text
  | '0' :: 'x' :: rest => rest
  | rest => rest

/-- `uint256S`. -/
def uint256S (t : Text) : Txid := readHex (skipHexMark (t.dropWhile (· == ' '))) % 2 ^ 256

/-- One line of the database: block and hash of a valid transaction of a wanted type. -/
def wantedEntry (wanted : Int → Bool) (key value : Text) : Option (Int × Txid) :=
  match split isColon value with
  | [valid, block, type, _] =>
      if wanted (atoi type) && atoi valid == 1 then some (atoi block, uint256S key) else none
  | _ => none

/-- All of them, in the order of the database. -/
def scanTxList (wanted : Int → Bool) (db : TextDB) : List (Int × Txid) :=
  db.toList.filterMap fun e => wantedEntry wanted e.1 e.2

/-! ## Reading back what was recorded -/

theorem uint256S_txidText {t : Txid} (h : t < 2 ^ 256) : uint256S (txidText t) = t := by
  have hfree : Free (fun c => c == ' ' || c == 'x') (txidText t) := free_hexNat (by decide) 64 t
  have hval : readHex (txidText t) = t := by
    unfold txidText
    rw [readHex_hexNat]
    exact Nat.mod_eq_of_lt (by norm_num at h ⊢; exact h)
  have hdrop : (txidText t).dropWhile (· == ' ') = txidText t := by
    cases htext : txidText t with
    | nil => rfl
    | cons c rest =>
        have hc := hfree c (by rw [htext]; simp)
        rw [Bool.or_eq_false_iff] at hc
        rw [List.dropWhile_cons, hc.1]
        rfl
  have hskip : skipHexMark (txidText t) = txidText t := by
    unfold skipHexMark
    split
    · next rest htext =>
        have hx := hfree 'x' (by rw [htext]; simp)
        simp at hx
    · rfl
  unfold uint256S
  rw [hdrop, hskip, hval]
  exact Nat.mod_eq_of_lt h

theorem split_text (r : TxRecord) :
    split isColon r.text = [decNat (if r.valid then 1 else 0), decNat r.block, decNat r.type,
      decNat r.nValue] := by
  refine split_joinWith (by decide) (by simp) ?_ ?_
  · intro t ht
    simp only [List.mem_cons, List.not_mem_nil, or_false] at ht
    rcases ht with rfl | rfl | rfl | rfl
    all_goals exact free_decNat isColon_of_isDigit _
  · intro t ht
    simp only [List.mem_cons, List.not_mem_nil, or_false] at ht
    rcases ht with rfl | rfl | rfl | rfl
    all_goals exact decNat_ne_nil _

theorem wantedEntry_record (wanted : Int → Bool) {r : TxRecord} (h : r.txid < 2 ^ 256) :
    wantedEntry wanted (txidText r.txid) r.text =
      if wanted r.type && r.valid then some ((r.block : Int), r.txid) else none := by
  have hvalid : (atoi (decNat (if r.valid then 1 else 0)) == 1) = r.valid := by
    rw [atoi_decNat]
    cases r.valid <;> rfl
  unfold wantedEntry
  rw [split_text]
  dsimp only
  rw [hvalid, atoi_decNat, atoi_decNat, uint256S_txidText h]

/-- New keys are added to the entries. -/
theorem toList_foldl_recordTX {db : TextDB} {records : List TxRecord}
    (hnew : ∀ r ∈ records, db[txidText r.txid]? = none)
    (hdistinct : (records.map fun r => txidText r.txid).Nodup) :
    (records.foldl recordTX db).toList.Perm
      (db.toList ++ records.map fun r => (txidText r.txid, r.text)) := by
  induction records generalizing db with
  | nil => simp
  | cons r rest ih =>
      rw [List.map_cons, List.nodup_cons] at hdistinct
      rw [List.foldl_cons]
      have hrest : ∀ r' ∈ rest, (recordTX db r)[txidText r'.txid]? = none := by
        intro r' hr'
        unfold recordTX
        rw [getElem?_insert_eq, if_neg, hnew r' (by simp [hr'])]
        intro heq
        exact hdistinct.1 (List.mem_map.mpr ⟨r', hr', heq.symm⟩)
      have hone : (recordTX db r).toList.Perm ((txidText r.txid, r.text) :: db.toList) := by
        refine (toList_insert_perm db _ _).trans ?_
        rw [erase_of_none (hnew r (by simp))]
      refine (ih hrest hdistinct.2).trans ((hone.append_right _).trans ?_)
      rw [List.map_cons]
      exact List.perm_middle.symm

/-- **THE SCAN FINDS WHAT WAS RECORDED**: the wanted valid transactions, in some order. -/
theorem scanTxList_perm {db : TextDB} {records : List TxRecord} (wanted : Int → Bool)
    (hdb : scanTxList wanted db = [])
    (hnew : ∀ r ∈ records, db[txidText r.txid]? = none)
    (hdistinct : (records.map TxRecord.txid).Nodup) (htxid : ∀ r ∈ records, r.txid < 2 ^ 256) :
    (scanTxList wanted (records.foldl recordTX db)).Perm
      ((records.filter fun r => wanted r.type && r.valid).map fun r => ((r.block : Int), r.txid)) := by
  have hkeys : (records.map fun r => txidText r.txid).Nodup := by
    have hinj : ∀ a ∈ records.map TxRecord.txid, ∀ b ∈ records.map TxRecord.txid,
        txidText a = txidText b → a = b := by
      intro a ha b hb hab
      obtain ⟨r, hr, rfl⟩ := List.mem_map.mp ha
      obtain ⟨r', hr', rfl⟩ := List.mem_map.mp hb
      rw [← uint256S_txidText (htxid r hr), ← uint256S_txidText (htxid r' hr'), hab]
    have := List.Nodup.map_on hinj hdistinct
    rwa [List.map_map] at this
  have hperm := (toList_foldl_recordTX hnew hkeys).filterMap fun e => wantedEntry wanted e.1 e.2
  have hold : (db.toList.filterMap fun e => wantedEntry wanted e.1 e.2) = [] := hdb
  rw [List.filterMap_append, hold, List.nil_append, List.filterMap_map] at hperm
  refine hperm.trans ?_
  clear hperm hold hkeys hdistinct hnew hdb
  induction records with
  | nil => exact List.Perm.refl _
  | cons r rest ih =>
      have hrest := ih fun r' hr' => htxid r' (by simp [hr'])
      rw [List.filterMap_cons, List.filter_cons]
      simp only [Function.comp, wantedEntry_record wanted (htxid r (by simp))]
      cases wanted r.type && r.valid with
      | true => exact hrest.cons _
      | false => exact hrest

end OmniCore
