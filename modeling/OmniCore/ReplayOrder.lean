import OmniCore.FreezeReload
import OmniCore.Lib.Digits
import OmniCore.TradeRollback

/-! # ReplayOrder — sorting by block and position

    Freezing transactions are replayed, and the trades of an address are listed, in the order
    of a text: the block in six digits, then the position in ten. Positions fit their ten
    digits, but a block above 999999 takes a seventh, and a key with more digits is compared
    with a shorter one as if it were cut to the same length. -/

namespace OmniCore

open Std (ExtTreeMap TransCmp OrientedCmp)
open Machine TextRec MapSum Exec

/-! ## Places in the chain -/

/-- A transaction on record, with its place in the chain. -/
structure ChainRecord where
  txid : Txid
  block : Nat
  position : Nat
  deriving DecidableEq

namespace ChainRecord

/-- Chain order. -/
def Before (r r' : ChainRecord) : Prop :=
  r.block < r'.block ∨ r.block = r'.block ∧ r.position < r'.position

/-- `%06d%010d` of the place. -/
def sortKey (r : ChainRecord) : Text := padNat 6 r.block ++ padNat 10 r.position

/-- What is sorted. -/
def keyed (r : ChainRecord) : Text × Txid := (r.sortKey, r.txid)

/-- How many digits of the sort key belong to the block. -/
def width (r : ChainRecord) : Nat := max 6 (decNat r.block).length

end ChainRecord

/-- Records of different transactions at different places, in the ranges of an `int`. -/
structure OnChain (records : List ChainRecord) : Prop where
  inRange : ∀ r ∈ records, r.block < 2 ^ 31 ∧ r.position < 2 ^ 31
  distinct : records.Pairwise fun r r' =>
    r.txid ≠ r'.txid ∧ ¬ (r.block = r'.block ∧ r.position = r'.position)

/-- **CHAIN ORDER**: the hashes of all records, each once, in ascending order of block and
    position. -/
def InChainOrder (records : List ChainRecord) (listed : List Txid) : Prop :=
  ∃ l : List ChainRecord, l.Perm records ∧ (l.Pairwise fun r r' => ¬ r'.Before r) ∧
    listed = l.map ChainRecord.txid

/-- The digits of every key are, as a number, at most as many digits of each key that belongs after
    it. -/
def KeysInOrder (records : List ChainRecord) : Prop :=
  ∀ r ∈ records, ∀ r' ∈ records, r.Before r' →
    r.block * 10 ^ 10 + r.position ≤
      (r'.block * 10 ^ 10 + r'.position) / 10 ^ (r'.width - r.width)

/-! ## The two listings -/

/-- The hashes that `LoadFreezeState` goes through, in their order. -/
def freezeReplayOrder (s : State) : Option (List Txid) :=
  (freezeLoadOrder s).map fun keyed => (sortBy loadCmp keyed).map Prod.snd

/-- `LoadFreezeState` goes through these hashes, one after the other. -/
def ReplaysFreezes (s : State) (replayed : List Txid) : Prop :=
  ∀ (env : FreezeEnv) (chain : Txid → Option CMPTransaction) (mainNet : Bool) (blockHeight : Nat),
    loadFreezeState env chain mainNet blockHeight s =
      (do
        let loaded ← reloadFreezes env chain blockHeight (replayed.map fun txid => ([], txid))
        if !loaded then
          pure false
        else
          if 497000 < blockHeight ∧ mainNet = true then
            assertThat .condition (decide (2 ≤ replayed.length))
          pure true : ExecM Bool) s

/-- The freezing transactions on record as valid, and their positions. -/
structure HoldsFreezes (s : State) (records : List ChainRecord) : Prop where
  found : scanTxList isFreezeType s.txList = records.map fun r => ((r.block : Int), r.txid)
  positions : ∀ r ∈ records, fetchTransactionPosition s.omniTxDb r.txid = some r.position

/-- `%06d%010d` of a block and an index. -/
def tradeSortKey (blockNum txIndex : Nat) : Text := padNat 6 blockNum ++ padNat 10 txIndex

/-- The body of the loop of `getTradesForAddress`. -/
def readTradeOf (address : Address) (propertyIdFilter : PropertyId)
    (mapTrades : ExtTreeMap Text Txid) (e : Text × Text) : Except Halt (ExtTreeMap Text Txid) :=
  -- only interested in trades
  if e.1.length ≠ 64 then .ok mapTrades
  else if (findText address.text e.2).isNone then .ok mapTrades
  else
    match split isColon e.2 with
    | [_, forSale, desired, block, index] =>
        match castNat 32 forSale, castNat 32 desired, castNat 32 block, castNat 32 index with
        | some propertyIdForSale, some propertyIdDesired, some blockNum, some txIndex =>
            if propertyIdFilter ≠ 0 ∧ propertyIdFilter ≠ propertyIdForSale ∧
                propertyIdFilter ≠ propertyIdDesired then .ok mapTrades
            else .ok (mapTrades.insertIfNew (tradeSortKey blockNum txIndex) (uint256S e.1))
        | _, _, _, _ => .error .exception
    | _ => .ok mapTrades

/-- `CMPTradeList::getTradesForAddress`: the trades it appends. -/
def getTradesForAddress (address : Address) (propertyIdFilter : PropertyId) (db : TextDB) :
    Except Halt (List Txid) := do
  let mapTrades ← db.toList.foldlM (readTradeOf address propertyIdFilter) ∅
  pure (mapTrades.toList.map Prod.snd)

/-- A new trade whose record mentions the address, and that passes the filter. -/
def TradeRecord.tradeOf (address : Address) (propertyIdFilter : PropertyId) :
    TradeRecord → Option ChainRecord
  | .newTrade txid seller forSale desired blockNum blockIndex =>
      if (findText address.text
            (TradeRecord.newTrade txid seller forSale desired blockNum blockIndex).text).isSome ∧
          (propertyIdFilter = 0 ∨ propertyIdFilter = forSale ∨ propertyIdFilter = desired) then
        some ⟨txid, blockNum.toNat, blockIndex.toNat⟩
      else none
  | _ => none

/-- The trades of an address that are on record, in the order of the database. -/
def tradesOf (address : Address) (propertyIdFilter : PropertyId) (calls : List TradeRecord) :
    List ChainRecord :=
  (TradeRecord.stored calls).toList.filterMap fun e => e.2.tradeOf address propertyIdFilter

/-- Recorded trades of the transactions of one chain. -/
structure ChainTrades (calls : List TradeRecord) : Prop where
  inRange : ∀ txid seller forSale desired blockNum blockIndex,
    TradeRecord.newTrade txid seller forSale desired blockNum blockIndex ∈ calls →
      txid < 2 ^ 256 ∧ forSale < 2 ^ 32 ∧ desired < 2 ^ 32 ∧ 0 ≤ blockNum ∧ blockNum < 2 ^ 31 ∧
        0 ≤ blockIndex ∧ blockIndex < 2 ^ 31
  places : ∀ txid txid' seller seller' forSale forSale' desired desired' blockNum blockIndex,
    TradeRecord.newTrade txid seller forSale desired blockNum blockIndex ∈ calls →
    TradeRecord.newTrade txid' seller' forSale' desired' blockNum blockIndex ∈ calls →
      txid = txid'

/-! ## The order of the keys -/

namespace ChainRecord

theorem length_sortKey {r : ChainRecord} (h : r.position < 2 ^ 31) :
    r.sortKey.length = r.width + 10 := by
  unfold sortKey width
  rw [List.length_append, length_padNat_max, length_padNat (by omega) (by omega)]

theorem isDigit_sortKey (r : ChainRecord) : r.sortKey.all Char.isDigit = true := by
  unfold sortKey
  rw [List.all_append, all_isDigit_padNat, all_isDigit_padNat]
  rfl

theorem digitsVal_sortKey {r : ChainRecord} (h : r.position < 2 ^ 31) :
    digitsVal r.sortKey = r.block * 10 ^ 10 + r.position := by
  unfold sortKey
  rw [digitsVal_append, digitsVal_padNat, digitsVal_padNat, length_padNat (by omega) (by omega)]

/-- **NO TWO PLACES SHARE A KEY**: the last ten digits are the position. -/
theorem sortKey_inj {r r' : ChainRecord} (h : r.position < 2 ^ 31) (h' : r'.position < 2 ^ 31)
    (hkey : r.sortKey = r'.sortKey) : r.block = r'.block ∧ r.position = r'.position := by
  have hlen : (padNat 10 r.position).length = (padNat 10 r'.position).length := by
    rw [length_padNat (by omega) (by omega), length_padNat (by omega) (by omega)]
  have hparts := List.append_inj' hkey hlen
  exact ⟨padNat_injective 6 hparts.1, padNat_injective 10 hparts.2⟩

theorem width_mono {r r' : ChainRecord} (h : r.block ≤ r'.block) : r.width ≤ r'.width := by
  have hlen := length_decNat_mono h
  unfold width
  omega

theorem Before.block_le {r r' : ChainRecord} (h : r.Before r') : r.block ≤ r'.block := by
  rcases h with h | h
  · exact h.le
  · exact h.1.le

theorem Before.sortKey_ne {r r' : ChainRecord} (h : r.Before r') (hr : r.position < 2 ^ 31)
    (hr' : r'.position < 2 ^ 31) : r.sortKey ≠ r'.sortKey := by
  intro hkey
  have hsame := sortKey_inj hr hr' hkey
  rcases h with h | h
  · exact absurd hsame.1 h.ne
  · exact absurd hsame.2 h.2.ne

/-- The keys of two places in chain order. -/
theorem Before.compare_sortKey {r r' : ChainRecord} (h : r.Before r') (hr : r.position < 2 ^ 31)
    (hr' : r'.position < 2 ^ 31) :
    compare r.sortKey r'.sortKey = .lt ↔
      r.block * 10 ^ 10 + r.position ≤
        (r'.block * 10 ^ 10 + r'.position) / 10 ^ (r'.width - r.width) := by
  have hwidth := width_mono h.block_le
  have hlen : r'.sortKey.length - r.sortKey.length = r'.width - r.width := by
    rw [length_sortKey hr, length_sortKey hr']
    omega
  have hle : r.sortKey.length ≤ r'.sortKey.length := by
    rw [length_sortKey hr, length_sortKey hr']
    omega
  rw [compare_digits_lt_iff r.isDigit_sortKey r'.isDigit_sortKey hle (h.sortKey_ne hr hr'), hlen,
    digitsVal_sortKey hr, digitsVal_sortKey hr']

end ChainRecord

/-- Blocks with one number of digits, such as all blocks below 1000000, have their keys in order. -/
theorem keysInOrder_of_width {records : List ChainRecord}
    (hpos : ∀ r ∈ records, r.position < 2 ^ 31)
    (h : ∀ r ∈ records, ∀ r' ∈ records, r.width = r'.width) : KeysInOrder records := by
  intro r hr r' hr' hbefore
  have hposition := hpos r hr
  rw [h r hr r' hr', Nat.sub_self, Nat.pow_zero, Nat.div_one]
  rcases hbefore with hlt | ⟨heq, hlt⟩
  · have hstep := Nat.mul_le_mul_right (10 ^ 10) (Nat.succ_le_of_lt hlt)
    rw [Nat.succ_mul] at hstep
    omega
  · rw [heq]
    omega

/-! ## Sorting by the keys -/

/-- The records, sorted as the keys and hashes are. -/
def keySorted (records : List ChainRecord) : List ChainRecord :=
  sortBy (fun r r' => loadCmp r.keyed r'.keyed) records

theorem map_keySorted (records : List ChainRecord) :
    (keySorted records).map ChainRecord.keyed = sortBy loadCmp (records.map ChainRecord.keyed) :=
  List.map_mergeSort fun _ _ _ _ => rfl

/-- A list without repeated hashes is known by its hashes. -/
theorem eq_of_map_txid {l l' records : List ChainRecord} (hl : l.Perm records)
    (hl' : l'.Perm records) (hnodup : (records.map ChainRecord.txid).Nodup)
    (h : l.map ChainRecord.txid = l'.map ChainRecord.txid) : l = l' := by
  have hlen : l.length = l'.length := by rw [hl.length_eq, hl'.length_eq]
  refine List.ext_getElem hlen fun i hi hi' => ?_
  have htxid : (l[i]).txid = (l'[i]).txid := by
    have hget := congrArg (fun t : List Txid => t[i]?) h
    simpa [hi, hi'] using hget
  exact List.inj_on_of_nodup_map hnodup (hl.mem_iff.mp (List.getElem_mem hi))
    (hl'.mem_iff.mp (List.getElem_mem hi')) htxid

/-- **WHEN THE KEYS SORT BY PLACE**: just if they are in order. -/
theorem inChainOrder_keySorted_iff {records : List ChainRecord} (h : OnChain records) :
    InChainOrder records ((keySorted records).map ChainRecord.txid) ↔ KeysInOrder records := by
  have hperm : (keySorted records).Perm records := sortBy_perm _ _
  have hpos : ∀ r ∈ keySorted records, r.position < 2 ^ 31 := fun r hr =>
    (h.inRange r (hperm.mem_iff.mp hr)).2
  have hnodup : (records.map ChainRecord.txid).Nodup :=
    List.pairwise_map.mpr (h.distinct.imp And.left)
  have hsorted : (keySorted records).Pairwise fun r r' =>
      (compareOn ChainRecord.sortKey r r').isLE = true := by
    have hload : (sortBy loadCmp (records.map ChainRecord.keyed)).Pairwise fun a b =>
        (loadCmp a b).isLE = true := pairwise_sortBy _ _
    rw [← map_keySorted, List.pairwise_map] at hload
    refine hload.imp fun {r r'} hle => ?_
    have hthen : ((compare r.sortKey r'.sortKey).then (uint256Cmp r.txid r'.txid)).isLE = true :=
      hle
    show (compare r.sortKey r'.sortKey).isLE = true
    cases hc : compare r.sortKey r'.sortKey with
    | lt => rfl
    | eq => rfl
    | gt =>
        rw [hc] at hthen
        cases hthen
  have hkeys : ((keySorted records).Pairwise fun r r' => ¬ r'.Before r) ↔ KeysInOrder records := by
    rw [@pairwise_not_before_iff _ _ _ _ ChainRecord.Before hsorted]
    · constructor
      · intro hlt r hr r' hr' hbefore
        have hr := hperm.mem_iff.mpr hr
        have hr' := hperm.mem_iff.mpr hr'
        exact (hbefore.compare_sortKey (hpos r hr) (hpos r' hr')).mp (hlt r hr r' hr' hbefore)
      · intro hin r hr r' hr' hbefore
        exact (hbefore.compare_sortKey (hpos r hr) (hpos r' hr')).mpr
          (hin r (hperm.mem_iff.mp hr) r' (hperm.mem_iff.mp hr') hbefore)
    · intro r hr r' hr' hbefore heq
      exact hbefore.sortKey_ne (hpos r hr) (hpos r' hr') (Std.LawfulEqOrd.eq_of_compare heq)
  rw [← hkeys]
  constructor
  · rintro ⟨l, hl, hpair, hlisted⟩
    rw [eq_of_map_txid hperm hl hnodup hlisted]
    exact hpair
  · intro hpair
    exact ⟨keySorted records, hperm, hpair, rfl⟩

/-! ## The replay of freezing transactions -/

theorem freezeReplayOrder_eq {s : State} {records : List ChainRecord} (h : HoldsFreezes s records)
    (hchain : OnChain records) :
    freezeReplayOrder s = some ((keySorted records).map ChainRecord.txid) := by
  have hkey : ∀ r ∈ records, (freezeSortKey (r.block : Int) r.position, r.txid) = r.keyed := by
    intro r hr
    have hrange := hchain.inRange r hr
    have hint : Int.bmod r.position (2 ^ 32) = r.position := by
      rw [Int.bmod_eq_of_le] <;> omega
    unfold freezeSortKey padInt
    rw [hint, if_neg (by omega), if_neg (by omega)]
    rfl
  have hload : freezeLoadOrder s = some (records.map ChainRecord.keyed) := by
    unfold freezeLoadOrder
    rw [h.found, List.mapM_map]
    refine mapM_eq_some_map fun r hr => ?_
    show (fetchTransactionPosition s.omniTxDb r.txid).map _ = _
    rw [h.positions r hr, Option.map_some, ← hkey r hr]
  unfold freezeReplayOrder
  rw [hload, Option.map_some, ← map_keySorted, List.map_map]
  rfl

/-- The replay depends on the order of the hashes only. -/
theorem reloadFreezes_congr (env : FreezeEnv) (chain : Txid → Option CMPTransaction)
    (blockHeight : Nat) {l l' : List (Text × Txid)} (h : l.map Prod.snd = l'.map Prod.snd) :
    reloadFreezes env chain blockHeight l = reloadFreezes env chain blockHeight l' := by
  induction l generalizing l' with
  | nil =>
      cases l' with
      | nil => rfl
      | cons e' rest' => cases h
  | cons e rest ih =>
      cases l' with
      | nil => cases h
      | cons e' rest' =>
          rw [List.map_cons, List.map_cons, List.cons.injEq] at h
          rw [reloadFreezes, reloadFreezes, h.1, ih h.2]

/-- **WHAT IS REPLAYED** are the hashes of the replay order, one after the other. -/
theorem replaysFreezes {s : State} {replayed : List Txid} (h : freezeReplayOrder s = some replayed) :
    ReplaysFreezes s replayed := by
  intro env chain mainNet blockHeight
  obtain ⟨keyed, hkeyed, rfl⟩ := Option.map_eq_some_iff.mp h
  have hsame : reloadFreezes env chain blockHeight (sortBy loadCmp keyed) =
      reloadFreezes env chain blockHeight
        (((sortBy loadCmp keyed).map Prod.snd).map fun txid => ([], txid)) := by
    refine reloadFreezes_congr env chain blockHeight ?_
    rw [List.map_map, List.map_map]
    rfl
  rw [← hsame, List.length_map]
  unfold loadFreezeState
  simp only [bind, EStateM.bind, get, getThe, MonadStateOf.get, EStateM.get, hkeyed]

/-! ## The trades of an address -/

namespace TradeRecord

/-- What is stored was recorded, under its key. -/
theorem getElem?_stored {calls : List TradeRecord} {k : Text} {r : TradeRecord}
    (h : (stored calls)[k]? = some r) : k = r.key ∧ r ∈ calls := by
  induction calls using List.reverseRecOn with
  | nil => simp [stored] at h
  | append_singleton calls last ih =>
      have hinsert : stored (calls ++ [last]) = (stored calls).insert last.key last := by
        unfold stored
        rw [List.foldl_append, List.foldl_cons, List.foldl_nil]
      rw [hinsert, getElem?_insert_eq] at h
      by_cases hk : last.key = k
      · rw [if_pos hk, Option.some.injEq] at h
        subst h
        exact ⟨hk.symm, List.mem_append_right _ List.mem_cons_self⟩
      · rw [if_neg hk] at h
        exact ⟨(ih h).1, List.mem_append_left _ (ih h).2⟩

theorem stored_spec {calls : List TradeRecord} {e : Text × TradeRecord}
    (h : e ∈ (stored calls).toList) : e.1 = e.2.key ∧ e.2 ∈ calls :=
  getElem?_stored (mem_toList_iff.mp h)

theorem length_key_match (a b : Txid) : (txidText a ++ '+' :: txidText b).length ≠ 64 := by
  have ha : (txidText a).length = 64 := length_hexNat 64 a
  rw [List.length_append, List.length_cons]
  omega

/-- **WHAT THE LOOP READS**: of a recorded trade its place and its hash; of a match nothing. -/
theorem readTradeOf_text {calls : List TradeRecord} (h : ChainTrades calls) {r : TradeRecord}
    (hr : r ∈ calls) (address : Address) (propertyIdFilter : PropertyId)
    (mapTrades : ExtTreeMap Text Txid) :
    readTradeOf address propertyIdFilter mapTrades (r.key, r.text) =
      .ok (match r.tradeOf address propertyIdFilter with
        | some c => mapTrades.insertIfNew c.keyed.1 c.keyed.2
        | none => mapTrades) := by
  cases r with
  | matchedTrade => exact if_pos (length_key_match _ _)
  | matchedContract => exact if_pos (length_key_match _ _)
  | newTrade txid seller forSale desired blockNum blockIndex =>
      obtain ⟨htxid, hsale, hdesired, hb0, hb, hi0, hi⟩ := h.inRange _ _ _ _ _ _ hr
      obtain ⟨b, rfl⟩ := Int.eq_ofNat_of_zero_le hb0
      obtain ⟨i, rfl⟩ := Int.eq_ofNat_of_zero_le hi0
      have hlen : ¬ (txidText txid).length ≠ 64 := not_not.mpr (length_hexNat 64 txid)
      refine (if_neg hlen).trans ?_
      rw [split_text]
      unfold tradeOf
      simp only [key, fields]
      by_cases hfind : (findText address.text
          (newTrade txid seller forSale desired (b : Int) (i : Int)).text).isSome = true
      · have hblock : castNat 32 (decInt (b : Int)) = some b := castNat_decNat (by omega)
        have hindex : castNat 32 (decInt (i : Int)) = some i := castNat_decNat (by omega)
        have hsome : ¬ (findText address.text (newTrade txid seller forSale desired (b : Int)
            (i : Int)).text).isNone = true := by
          rw [Option.isNone_iff_eq_none, ← Option.not_isSome_iff_eq_none, hfind]
          simp
        rw [if_neg hsome, castNat_decNat hsale, castNat_decNat hdesired, hblock, hindex,
          uint256S_txidText htxid]
        dsimp only
        have hskip : (propertyIdFilter ≠ 0 ∧ propertyIdFilter ≠ forSale ∧
            propertyIdFilter ≠ desired) ↔ ¬ (propertyIdFilter = 0 ∨ propertyIdFilter = forSale ∨
              propertyIdFilter = desired) := by
          rw [not_or, not_or]
        by_cases hfilter : propertyIdFilter = 0 ∨ propertyIdFilter = forSale ∨
            propertyIdFilter = desired
        · rw [if_neg (mt hskip.mp (not_not.mpr hfilter)), if_pos ⟨hfind, hfilter⟩]
          rfl
        · rw [if_pos (hskip.mpr hfilter), if_neg (fun hboth => hfilter hboth.2)]
      · rw [if_pos (by simpa using hfind), if_neg (fun hboth => hfind hboth.1)]

end TradeRecord

/-- The loop puts the trades of the address into its map, and never fails. -/
theorem foldlM_readTradeOf {calls : List TradeRecord} (h : ChainTrades calls) (address : Address)
    (propertyIdFilter : PropertyId) {l : List (Text × TradeRecord)}
    (hl : ∀ e ∈ l, e.1 = e.2.key ∧ e.2 ∈ calls) (mapTrades : ExtTreeMap Text Txid) :
    (l.map fun e => (e.1, e.2.text)).foldlM (readTradeOf address propertyIdFilter) mapTrades =
      .ok (((l.filterMap fun e => e.2.tradeOf address propertyIdFilter).map ChainRecord.keyed).foldl
        (fun m e => m.insertIfNew e.1 e.2) mapTrades) := by
  induction l generalizing mapTrades with
  | nil => rfl
  | cons e rest ih =>
      obtain ⟨hkey, hcall⟩ := hl e List.mem_cons_self
      have hrest : ∀ e' ∈ rest, e'.1 = e'.2.key ∧ e'.2 ∈ calls := fun e' he' =>
        hl e' (List.mem_cons_of_mem e he')
      rw [List.map_cons, List.foldlM_cons, hkey, TradeRecord.readTradeOf_text h hcall]
      show List.foldlM _ _ _ = _
      rw [ih hrest]
      cases htrade : e.2.tradeOf address propertyIdFilter with
      | none => simp only [List.filterMap_cons, htrade]
      | some c => simp only [List.filterMap_cons, htrade, List.map_cons, List.foldl_cons]

/-- The trades of an address in a chain are transactions at different places. -/
theorem onChain_tradesOf {calls : List TradeRecord} (h : ChainTrades calls) (address : Address)
    (propertyIdFilter : PropertyId) : OnChain (tradesOf address propertyIdFilter calls) := by
  have htrade : ∀ (r : TradeRecord) (c : ChainRecord), r ∈ calls →
      r.tradeOf address propertyIdFilter = some c →
      ∃ seller forSale desired, r = .newTrade c.txid seller forSale desired c.block c.position ∧
        c.block < 2 ^ 31 ∧ c.position < 2 ^ 31 := by
    intro r c hr hc
    cases r with
    | matchedTrade => cases hc
    | matchedContract => cases hc
    | newTrade txid seller forSale desired blockNum blockIndex =>
        obtain ⟨-, -, -, hb0, hb, hi0, hi⟩ := h.inRange _ _ _ _ _ _ hr
        obtain ⟨b, rfl⟩ := Int.eq_ofNat_of_zero_le hb0
        obtain ⟨i, rfl⟩ := Int.eq_ofNat_of_zero_le hi0
        simp only [TradeRecord.tradeOf] at hc
        split at hc
        · rw [Option.some.injEq] at hc
          rw [← hc]
          exact ⟨seller, forSale, desired, rfl, by simpa using hb, by simpa using hi⟩
        · exact absurd hc (Option.some_ne_none c).symm
  constructor
  · intro c hc
    obtain ⟨e, he, hce⟩ := List.mem_filterMap.mp hc
    obtain ⟨-, -, -, -, hrange⟩ := htrade e.2 c (TradeRecord.stored_spec he).2 hce
    exact hrange
  · have hkeys := pairwise_keys (TradeRecord.stored calls)
    rw [List.pairwise_map] at hkeys
    refine List.Pairwise.filterMap _ ?_ (List.Pairwise.and_mem.mp hkeys)
    rintro e e' ⟨he, he', hlt⟩ c hc c' hc'
    obtain ⟨hkey, hcall⟩ := TradeRecord.stored_spec he
    obtain ⟨hkey', hcall'⟩ := TradeRecord.stored_spec he'
    obtain ⟨seller, forSale, desired, hrec, -⟩ := htrade e.2 c hcall hc
    obtain ⟨seller', forSale', desired', hrec', -⟩ := htrade e'.2 c' hcall' hc'
    have htxid : c.txid ≠ c'.txid := by
      intro heq
      rw [hkey, hkey', hrec, hrec'] at hlt
      simp only [TradeRecord.key] at hlt
      have hself : compare (txidText c'.txid) (txidText c'.txid) = .eq := Std.ReflCmp.compare_self
      rw [heq, hself] at hlt
      cases hlt
    refine ⟨htxid, fun hplace => htxid ?_⟩
    rw [hrec] at hcall
    rw [hrec', ← hplace.1, ← hplace.2] at hcall'
    exact h.places _ _ _ _ _ _ _ _ _ _ hcall hcall'

/-- **EVERY TRADE IS LISTED**, in the order of the keys. -/
theorem getTradesForAddress_eq {calls : List TradeRecord} (h : ChainTrades calls)
    (address : Address) (propertyIdFilter : PropertyId) :
    getTradesForAddress address propertyIdFilter (TradeRecord.database calls) =
      .ok ((keySorted (tradesOf address propertyIdFilter calls)).map ChainRecord.txid) := by
  have hchain := onChain_tradesOf h address propertyIdFilter
  have hfold := foldlM_readTradeOf h address propertyIdFilter
    (l := (TradeRecord.stored calls).toList) (fun e he => TradeRecord.stored_spec he) ∅
  have hnodup : (((tradesOf address propertyIdFilter calls).map ChainRecord.keyed).map
      Prod.fst).Nodup := by
    rw [List.map_map]
    refine List.pairwise_map.mpr (List.Pairwise.imp_of_mem ?_ hchain.distinct)
    intro c c' hc hc' hdistinct hkey
    have hposition := (hchain.inRange c hc).2
    exact hdistinct.2 (ChainRecord.sortKey_inj hposition (hchain.inRange c' hc').2 hkey)
  have hperm : (((tradesOf address propertyIdFilter calls).map ChainRecord.keyed).foldl
      (fun m e => m.insertIfNew e.1 e.2) (∅ : ExtTreeMap Text Txid)).toList.Perm _ :=
    toList_foldl_insertIfNew hnodup
  generalize hm : ((tradesOf address propertyIdFilter calls).map ChainRecord.keyed).foldl
    (fun m e => m.insertIfNew e.1 e.2) (∅ : ExtTreeMap Text Txid) = m at hperm
  -- the entries of the map are the trades, sorted
  have hsorted : sortBy loadCmp ((tradesOf address propertyIdFilter calls).map ChainRecord.keyed) =
      m.toList := by
    refine sortBy_eq_of_strict hperm.symm ?_
    have hkeys := pairwise_keys m
    rw [List.pairwise_map] at hkeys
    refine hkeys.imp fun {a b} hlt => ?_
    show (compare a.1 b.1).then (uint256Cmp a.2 b.2) = .lt
    rw [hlt]
    rfl
  have hlist : (TradeRecord.database calls).toList =
      (TradeRecord.stored calls).toList.map fun e => (e.1, e.2.text) := by
    rw [TradeRecord.database_eq, ExtTreeMap.toList_map]
  unfold getTradesForAddress
  rw [hlist, hfold]
  show Except.ok _ = _
  unfold tradesOf at hm
  rw [hm, ← hsorted, ← map_keySorted, List.map_map]
  rfl

/-! ## Chain order -/

/-- **WHEN REPLAY AND HISTORY FOLLOW THE CHAIN**: the freezing transactions on record are replayed,
    and the trades of an address listed, all of them and in the order of block and position, just
    if their keys are in order. -/
theorem chainOrder_iff (s : State) (records : List ChainRecord) (hholds : HoldsFreezes s records)
    (hchain : OnChain records) (calls : List TradeRecord) (hcalls : ChainTrades calls)
    (address : Address) (propertyIdFilter : PropertyId) :
    (∃ replayed, freezeReplayOrder s = some replayed ∧ ReplaysFreezes s replayed ∧
      (InChainOrder records replayed ↔ KeysInOrder records)) ∧
    ∃ listed, getTradesForAddress address propertyIdFilter (TradeRecord.database calls) =
        .ok listed ∧
      (InChainOrder (tradesOf address propertyIdFilter calls) listed ↔
        KeysInOrder (tradesOf address propertyIdFilter calls)) := by
  constructor
  · have hreplayed := freezeReplayOrder_eq hholds hchain
    exact ⟨_, hreplayed, replaysFreezes hreplayed, inChainOrder_keySorted_iff hchain⟩
  · exact ⟨_, getTradesForAddress_eq hcalls address propertyIdFilter,
      inChainOrder_keySorted_iff (onChain_tradesOf hcalls address propertyIdFilter)⟩

/-- Two transactions of blocks 100 and 200. -/
def earlyRecords : List ChainRecord := [⟨1, 100, 7⟩, ⟨2, 200, 3⟩]

/-- A transaction of the last block with six digits, and one of the first with seven. -/
def lateRecords : List ChainRecord := [⟨1, 999999, 7⟩, ⟨2, 1000000, 3⟩]

/-- A node that has recorded them as valid freezing transactions. -/
def freezesAt (records : List ChainRecord) : State :=
  { State.started regTestParams false with
    txList := records.foldl (fun db r => recordTX db ⟨r.txid, true, r.block, 185, 0⟩) ∅
    omniTxDb := records.foldl (fun db r => recordTransaction db r.txid r.position 0) ∅ }

/-- The same transactions as trades of the first trader. -/
def tradesAt (records : List ChainRecord) : List TradeRecord :=
  records.map fun r => .newTrade r.txid traderA 1 3 r.block r.position

theorem chainTrades_tradesAt {records : List ChainRecord}
    (h : ∀ r ∈ records, r.txid < 2 ^ 256 ∧ r.block < 2 ^ 31 ∧ r.position < 2 ^ 31)
    (hplaces : ∀ r ∈ records, ∀ r' ∈ records,
      r.block = r'.block → r.position = r'.position → r.txid = r'.txid) :
    ChainTrades (tradesAt records) := by
  constructor
  · intro txid seller forSale desired blockNum blockIndex hmem
    obtain ⟨r, hr, heq⟩ := List.mem_map.mp hmem
    cases heq
    obtain ⟨htxid, hblock, hposition⟩ := h r hr
    exact ⟨htxid, by decide, by decide, by omega, by omega, by omega, by omega⟩
  · intro txid txid' seller seller' forSale forSale' desired desired' blockNum blockIndex hmem hmem'
    obtain ⟨r, hr, heq⟩ := List.mem_map.mp hmem
    obtain ⟨r', hr', heq'⟩ := List.mem_map.mp hmem'
    cases heq
    simp only [TradeRecord.newTrade.injEq] at heq'
    obtain ⟨rfl, -, -, -, hblock, hposition⟩ := heq'
    exact hplaces r hr r' hr' (by omega) (by omega)

set_option maxRecDepth 8000 in
/-- The two records of early blocks are replayed and listed. -/
theorem earlyRecords_in_order :
    (∃ replayed, freezeReplayOrder (freezesAt earlyRecords) = some replayed ∧
      ReplaysFreezes (freezesAt earlyRecords) replayed ∧ InChainOrder earlyRecords replayed) ∧
    ∃ listed, getTradesForAddress traderA 0 (TradeRecord.database (tradesAt earlyRecords)) =
        .ok listed ∧ InChainOrder earlyRecords listed := by
  have hkeys : KeysInOrder earlyRecords :=
    keysInOrder_of_width (by decide +kernel) (by decide +kernel)
  have htrades : tradesOf traderA 0 (tradesAt earlyRecords) = earlyRecords := by decide +kernel
  obtain ⟨⟨replayed, hreplayed, hloads, hreplay⟩, listed, hlisted, hlist⟩ :=
    chainOrder_iff (freezesAt earlyRecords) earlyRecords ⟨by decide +kernel, by decide +kernel⟩
      ⟨by decide +kernel, by decide +kernel⟩ (tradesAt earlyRecords)
      (chainTrades_tradesAt (by decide +kernel) (by decide +kernel)) traderA 0
  rw [htrades] at hlist
  exact ⟨⟨replayed, hreplayed, hloads, hreplay.mpr hkeys⟩, listed, hlisted, hlist.mpr hkeys⟩

set_option maxRecDepth 8000 in
/-- **THE SEVENTH DIGIT**: block 1000000 is replayed, and listed, before block 999999. -/
theorem lateRecords_out_of_order :
    ¬ (∀ (s : State) (records : List ChainRecord), HoldsFreezes s records → OnChain records →
      ∃ replayed, freezeReplayOrder s = some replayed ∧ InChainOrder records replayed) ∧
    ¬ (∀ (calls : List TradeRecord) (address : Address) (propertyIdFilter : PropertyId),
      ChainTrades calls →
      ∃ listed, getTradesForAddress address propertyIdFilter (TradeRecord.database calls) =
        .ok listed ∧ InChainOrder (tradesOf address propertyIdFilter calls) listed) := by
  have hswap : [(⟨2, 1000000, 3⟩ : ChainRecord), ⟨1, 999999, 7⟩].Perm lateRecords :=
    List.Perm.swap _ _ _
  have hsorted : keySorted lateRecords = [⟨2, 1000000, 3⟩, ⟨1, 999999, 7⟩] := by
    have hstrict : ([(⟨2, 1000000, 3⟩ : ChainRecord), ⟨1, 999999, 7⟩].map
        ChainRecord.keyed).Pairwise fun a b => loadCmp a b = .lt := by decide +kernel
    have hsort := sortBy_eq_of_strict (hswap.symm.map ChainRecord.keyed) hstrict
    rw [← map_keySorted] at hsort
    have htxids := congrArg (List.map Prod.snd) hsort
    rw [List.map_map, List.map_map] at htxids
    exact eq_of_map_txid (sortBy_perm _ _) hswap (by decide) htxids
  have hnot : ¬ InChainOrder lateRecords ((keySorted lateRecords).map ChainRecord.txid) := by
    rintro ⟨l, hl, hpair, hlisted⟩
    rw [hsorted] at hlisted
    rw [eq_of_map_txid hl hswap (by decide) hlisted.symm, List.pairwise_pair] at hpair
    exact hpair (Or.inl (by decide))
  constructor
  · intro hall
    have hholds : HoldsFreezes (freezesAt lateRecords) lateRecords :=
      ⟨by decide +kernel, by decide +kernel⟩
    have hchain : OnChain lateRecords := ⟨by decide +kernel, by decide +kernel⟩
    obtain ⟨replayed, hreplayed, horder⟩ := hall _ _ hholds hchain
    rw [freezeReplayOrder_eq hholds hchain, Option.some.injEq] at hreplayed
    rw [← hreplayed] at horder
    exact hnot horder
  · intro hall
    have htrades : tradesOf traderA 0 (tradesAt lateRecords) = lateRecords := by decide +kernel
    have hchain : ChainTrades (tradesAt lateRecords) :=
      chainTrades_tradesAt (by decide +kernel) (by decide +kernel)
    obtain ⟨listed, hlisted, horder⟩ := hall _ traderA 0 hchain
    rw [getTradesForAddress_eq hchain, Except.ok.injEq, htrades] at hlisted
    rw [htrades, ← hlisted] at horder
    exact hnot horder

end OmniCore
