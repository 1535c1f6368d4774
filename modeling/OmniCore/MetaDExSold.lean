import OmniCore.MetaDExCancel
import OmniCore.MetaDExHistory

/-! # MetaDExSold — do the reported fills agree with the book?

    For an order, `getMatchingTrades` adds up what the records say was sold. Where the order
    was the taker, a record has what it paid. Where it was the maker, it has what the taker
    got after the fee, and the fee is left out of the total: the object for the same trade
    shows the amount with the fee. So the total is what was sold less the fees of the fills
    in which the order was the maker, and a filled order that was charged on is reported as
    cancelled. -/

namespace OmniCore

open Std (ExtTreeMap)
open Machine TextRec MapSum Exec

/-! ## Runs -/

/-- An operation with the records that go with it. -/
def MetaDExOp.handle : MetaDExOp → ExecM Int
  | packet tx => handleMetaDExTx tx
  | shutdown => metaDExShutdown
  | shutdownAllPair => metaDExShutdownAllPair

/-- The order that an operation places, if it is a trade that passes its checks. -/
def MetaDExOp.placed : MetaDExOp → State → Option CMPMetaDEx
  | packet tx, s =>
      if s.isAddressFrozen tx.sender tx.property.toNat = false ∧ tx.type = 25 ∧
          metaDExTradeError s tx = none then some tx.metaDExOrder else none
  | shutdown, _ => none
  | shutdownAllPair, _ => none

/-- A transaction has a hash, and a position, that no order of the history has. -/
def MetaDExOp.Fresh : MetaDExOp → MdHistory → Prop
  | packet tx, w => tx.txid < 2 ^ 256 ∧
      ∀ e ∈ w.orders, e.order.txid ≠ tx.txid ∧ e.order.key ≠ (tx.block, tx.txIdx)
  | shutdown, _ => True
  | shutdownAllPair, _ => True

instance (op : MetaDExOp) (w : MdHistory) : Decidable (op.Fresh w) := by
  cases op <;> unfold MetaDExOp.Fresh <;> infer_instance

/-- What is left of an order after a trade: if it rested, what is at its place then. -/
def MdPlacement.after (s s' : State) (e : MdPlacement) : MdPlacement :=
  { e with left := if (s.restingOf e.order).isSome then s'.leftOf e.order else e.left }

/-- The history after an operation. A cancel or a shutdown leaves what is left of the orders. -/
def MdHistory.next (w : MdHistory) (op : MetaDExOp) (s' : State) : MdHistory :=
  match op.placed w.state with
  | none => { w with state := s' }
  | some new => {
      state := s'
      orders := ⟨new, s'.leftOf new⟩ :: w.orders.map (MdPlacement.after w.state s')
      matched := w.matched ++ matchesOf (op.visits w.state) }

/-- The histories of runs. Everything else that happens to a node leaves the book, the records of
    matched trades and those of the orders alone. -/
inductive MdTraded : MdHistory → Prop
  | start {s : State} (hbook : s.metadex = ∅) (hrecords : tradeRecords s.tradeList = []) :
      MdTraded ⟨s, [], []⟩
  | step {w : MdHistory} (op : MetaDExOp) {rc : Int} {s' : State} (h : MdTraded w)
      (hfresh : op.Fresh w) (hrun : op.handle w.state = .ok rc s') : MdTraded (w.next op s')
  | other {w : MdHistory} {s' : State} (h : MdTraded w) (hbook : s'.metadex = w.state.metadex)
      (hrecords : tradeRecords s'.tradeList = tradeRecords w.state.tradeList)
      (hvalid : ∀ e ∈ w.orders, s'.txList[txidText e.order.txid]? =
        w.state.txList[txidText e.order.txid]?) : MdTraded { w with state := s' }

/-! ## Operations that place no order -/

/-- Orders were taken out of the book, and nothing was written about trades. -/
structure Taken (s s' : State) : Prop where
  book : ∀ (p : PropertyId) (price : ℚ) (k : OrderKey) o, (s'.mdLevel p price)[k]? = some o →
    (s.mdLevel p price)[k]? = some o
  tradeList : s'.tradeList = s.tradeList
  txList : ∀ t, s'.txList[txidText t]? = s.txList[txidText t]?

theorem Taken.refl (s : State) : Taken s s := ⟨fun _ _ _ _ ho => ho, rfl, fun _ => rfl⟩

theorem Taken.trans {s s' s'' : State} (h : Taken s s') (h' : Taken s' s'') : Taken s s'' :=
  ⟨fun p price k o ho => h.book p price k o (h'.book p price k o ho),
    h'.tradeList.trans h.tradeList, fun t => (h'.txList t).trans (h.txList t)⟩

/-- A history goes on without the orders that were taken out. -/
theorem HistoryOk.taken {w : MdHistory} (h : HistoryOk w) {s' : State} (ht : Taken w.state s') :
    HistoryOk { w with state := s' } where
  book := fun p price k o ho => h.book p price k o (ht.book p price k o ho)
  orders := h.orders
  txids := h.txids
  keys := h.keys
  rests := fun p price k o ho => h.rests p price k o (ht.book p price k o ho)
  left_eq := fun e he o ho => h.left_eq e he o (ht.book _ _ _ _ ho)
  left_nonneg := h.left_nonneg
  sold := h.sold
  matched := h.matched
  records := by
    rw [ht.tradeList]
    exact h.records
  valid := by
    intro e he
    have hvalid := h.valid e he
    unfold getValidMPTX at hvalid ⊢
    rw [ht.txList]
    exact hvalid

/-- The records of a cancel have longer keys than those of a transaction. -/
theorem writeCancel_txList (txid : Txid) (block : Nat) (db : TextDB) (n : Int) (o : CMPMetaDEx)
    (t : Txid) : (writeCancel txid block db n o)[txidText t]? = db[txidText t]? := by
  have hlen : ∀ rest : Text, cancelKey txid ++ rest ≠ txidText t := by
    intro rest heq
    have h := congrArg List.length heq
    unfold cancelKey at h
    rw [List.length_append, List.length_append, length_txidText, length_txidText] at h
    simp only [List.length_cons, List.length_nil] at h
    omega
  have hkey : cancelKey txid ≠ txidText t := by
    have h := hlen []
    rwa [List.append_nil] at h
  unfold writeCancel
  rw [getElem?_insert_eq, if_neg (hlen _), getElem?_insert_eq, if_neg hkey]

theorem removeOrder_taken (cancel : Option (Txid × Nat)) (e : MdPlaced) (s : State) :
    wp (removeOrder cancel e) (fun _ s' => Taken s s') (fun _ _ => True) s := by
  have hview : OutsideFees fun s : State => (s.metadex, s.tradeList, s.txList) :=
    ⟨fun _ _ _ _ => rfl⟩
  have herased : ∀ s' : State, Taken s s' →
      Taken s (s'.setMdLevel e.property e.price ((s'.mdLevel e.property e.price).erase e.key)) := by
    intro s' h'
    refine h'.trans ⟨fun p price k o ho => ?_, rfl, fun _ => rfl⟩
    rw [mdLevel_setMdLevel] at ho
    split at ho
    · next hat =>
        obtain ⟨rfl, rfl⟩ := hat
        rw [getElem?_erase_eq] at ho
        split at ho
        · cases ho
        · exact ho
    · exact ho
  unfold removeOrder
  rw [wp_bind]
  refine wp_mono ((hview.assertUpdate _ _ _ _).wp rfl) (fun _ s1 h1 => ?_) fun _ _ _ => trivial
  rw [wp_bind]
  refine wp_mono ((hview.assertUpdate _ _ _ _).wp h1) (fun _ s2 h2 => ?_) fun _ _ _ => trivial
  obtain ⟨hbook, hlists⟩ := Prod.mk.inj h2
  obtain ⟨htrade, htx⟩ := Prod.mk.inj hlists
  have htaken : Taken s s2 := by
    refine ⟨fun p price k o ho => ?_, htrade, fun t => by rw [htx]⟩
    rw [mdLevel_congr hbook] at ho
    exact ho
  cases cancel with
  | none =>
      simp only [wp_modify]
      exact herased s2 htaken
  | some c =>
      dsimp only
      rw [recordMetaDExCancelTX_eq]
      simp only [wp_bind, wp_modify]
      refine herased _ (htaken.trans ⟨fun _ _ _ _ ho => ho, rfl, fun t => ?_⟩)
      exact writeCancel_txList _ _ _ _ _ t

theorem cancelOrders_taken (txid : Txid) (block : Nat) (rc : Int) (sel : MdPlaced → Bool)
    (s : State) :
    wp (cancelOrders txid block rc sel) (fun _ s' => Taken s s') (fun _ _ => True) s := by
  unfold cancelOrders
  simp only [wp_bind, wp_get, wp_pure]
  exact wp_forM (fun e _ _ hs' => wp_imp (removeOrder_taken _ e _) fun _ _ h => hs'.trans h)
    (Taken.refl s)

/-- A transaction that places no order takes orders out at most. -/
theorem interpretMetaDExPacket_taken {tx : CMPTransaction} {s : State}
    (hnone : (MetaDExOp.packet tx).placed s = none) :
    wp (interpretMetaDExPacket tx) (fun _ s' => Taken s s') (fun _ _ => True) s := by
  have hrefused : s.isAddressFrozen tx.sender tx.property.toNat = false → tx.type = 25 →
      ∃ error, metaDExTradeError s tx = some error := by
    intro hfrozen htype
    cases herr : metaDExTradeError s tx with
    | some error => exact ⟨error, rfl⟩
    | none =>
        rw [MetaDExOp.placed, if_pos ⟨hfrozen, htype, herr⟩] at hnone
        cases hnone
  unfold interpretMetaDExPacket
  rw [wp_bind, wp_get]
  simp only [wp_ite, wp_pure]
  refine ⟨fun _ => .refl s, fun hfrozen => ⟨fun htype => ?_, fun _ => ⟨fun _ => ?_, fun _ =>
    ⟨fun _ => ?_, fun _ => ⟨fun _ => ?_, fun _ => .refl s⟩⟩⟩⟩⟩
  · obtain ⟨error, herr⟩ := hrefused (by simpa using hfrozen) htype
    unfold logicMathMetaDExTrade
    rw [wp_bind, wp_get, herr]
    exact (wp_pure _ _ _ _).mpr (.refl s)
  · unfold logicMathMetaDExCancelPrice metaDExCancelAtPrice
    rw [wp_bind, wp_get]
    cases (metaDExPairError s tx).or (metaDExAmountError tx) with
    | some error => exact (wp_pure _ _ _ _).mpr (.refl s)
    | none =>
        dsimp only
        rw [wp_bind, wp_get, wp_ite]
        exact ⟨fun _ => cancelOrders_taken _ _ _ _ s, fun _ => (wp_pure _ _ _ _).mpr (.refl s)⟩
  · unfold logicMathMetaDExCancelPair metaDExCancelAllForPair
    rw [wp_bind, wp_get]
    cases metaDExPairError s tx with
    | some error => exact (wp_pure _ _ _ _).mpr (.refl s)
    | none =>
        dsimp only
        rw [wp_bind, wp_get, wp_ite]
        exact ⟨fun _ => cancelOrders_taken _ _ _ _ s, fun _ => (wp_pure _ _ _ _).mpr (.refl s)⟩
  · unfold logicMathMetaDExCancelEcosystem metaDExCancelEverything
    simp only [wp_bind, wp_get, wp_ite, wp_pure]
    exact ⟨fun _ => .refl s, fun _ => ⟨fun _ => .refl s, fun _ => cancelOrders_taken _ _ _ _ s⟩⟩

/-! ## The record of the transaction -/

/-- The state after a transaction is recorded. -/
def recordedTx (tx : CMPTransaction) (rc : Int) (s : State) : State :=
  { s with
    txList := recordTX s.txList
      ⟨tx.txid, decide (0 ≤ rc), tx.block, tx.type.toNat, tx.nNewValue.toNat⟩
    omniTxDb := recordTransaction s.omniTxDb tx.txid tx.txIdx rc }

theorem handleMetaDExTx_spec {tx : CMPTransaction} {s : State} {Q : Int → State → Prop}
    (h : wp (interpretMetaDExPacket tx) (fun rc s' =>
      (rc ≠ pktError - 2 → Q rc (recordedTx tx rc s')) ∧ (rc = pktError - 2 → Q rc s'))
      (fun _ _ => True) s) : wp (handleMetaDExTx tx) Q (fun _ _ => True) s := by
  unfold handleMetaDExTx
  rw [wp_bind]
  refine wp_imp h fun rc s' hQ => ?_
  dsimp only
  rw [wp_ite]
  constructor
  · intro hrc
    rw [wp_bind, wp_modify]
    exact (wp_pure _ _ _ _).mpr (hQ.1 hrc)
  · intro hrc
    exact (wp_pure _ _ _ _).mpr (hQ.2 (not_not.mp hrc))

/-- A valid record is read as one. -/
theorem getValidMPTX_recorded (tx : CMPTransaction) {rc : Int} (hrc : 0 ≤ rc) (s : State) :
    getValidMPTX (recordedTx tx rc s) tx.txid = true := by
  unfold getValidMPTX recordedTx recordTX
  dsimp only
  rw [getElem?_insert_eq, if_pos rfl]
  dsimp only
  rw [split_text, decide_eq_true hrc]
  simp only [List.headD_cons, if_true]
  rw [atoi_decNat]
  rfl

/-- Other transactions keep their records. -/
theorem recordedTx_txList (tx : CMPTransaction) (rc : Int) (s : State) {t : Txid}
    (ht : t < 2 ^ 256) (htx : tx.txid < 2 ^ 256) (hne : t ≠ tx.txid) :
    (recordedTx tx rc s).txList[txidText t]? = s.txList[txidText t]? := by
  unfold recordedTx recordTX
  dsimp only
  rw [getElem?_insert_eq, if_neg fun heq => hne (txidText_inj htx ht heq).symm]

theorem getValidMPTX_congr {s s' : State} {t : Txid}
    (h : s'.txList[txidText t]? = s.txList[txidText t]?) : getValidMPTX s' t = getValidMPTX s t := by
  unfold getValidMPTX
  rw [h]

/-! ## A trade -/

/-- The book after the loop, with the rest of the new order in its place. -/
structure AfterAdd (new : CMPMetaDEx) (t : MdTrade) (s1 s' : State) : Prop where
  level : ∀ (p : PropertyId) (price : ℚ) (k : OrderKey), (s'.mdLevel p price)[k]? =
    if 0 < t.pnew.amountRemaining ∧ new.property = p ∧ new.unitPrice = price ∧ new.key = k then
      some t.pnew
    else (s1.mdLevel p price)[k]?
  tradeList : s'.tradeList = s1.tradeList

section Trade

variable {w : MdHistory} (hw : HistoryOk w) {new : CMPMetaDEx} (hnew : PlacedOk new)
  (hfresh : FreshOrder w new)
include hw hnew hfresh

omit hnew in
/-- Nothing rests at the place of the new order. -/
theorem TradeRun.restingOf_new {done : ℚ → OrderKey → Prop} {vs : List MdVisit} {t : MdTrade}
    {s : State} (h : TradeRun w new done vs t s) : s.restingOf new = none := by
  cases ho : s.restingOf new with
  | none => rfl
  | some o =>
      obtain ⟨o0, ho0, -⟩ := h.rests _ _ _ _ ho
      obtain ⟨e, he, hsame⟩ := hw.rests _ _ _ _ ho0
      exact absurd (hsame.key.trans (hw.book _ _ _ _ ho0).key) (hfresh e he).2

/-- `MetaDEx_ADD` accepts the order, matches it, and puts the rest into the book. -/
theorem metaDExAdd_accounts : wp (metaDExAdd new) (fun rc s' => rc = 0 ∧ MdBookOk s' ∧
      s'.txList = w.state.txList ∧ ∃ t s1,
        TradeRun w new (fun _ _ => True) (xTradeVisits new w.state) t s1 ∧ AfterAdd new t s1 s')
    (fun _ _ => True) w.state := by
  have hprice : ¬ new.unitPrice ≤ 0 := by
    have hD : (0 : ℚ) < new.amountDesired := by exact_mod_cast hnew.sound.desired_pos
    have hF : (0 : ℚ) < new.amountForsale := by exact_mod_cast hnew.sound.forsale_pos
    exact not_le.mpr (div_pos hD hF)
  have hadd : wp (metaDExAdd new) (fun rc s' => rc = 0 ∧ s'.txList = w.state.txList ∧ ∃ t s1,
      TradeRun w new (fun _ _ => True) (xTradeVisits new w.state) t s1 ∧ AfterAdd new t s1 s')
      (fun _ _ => True) w.state := by
    unfold metaDExAdd
    rw [if_neg hprice, wp_bind]
    refine wp_imp (xTradeMetaDEx_accounts hw hnew hfresh) fun t s1 hrun => ?_
    have ht := hrun.loop.trade
    rw [wp_ite]
    constructor
    · intro hpos
      have hempty : (s1.mdLevel new.property new.unitPrice)[new.key]? = none :=
        hrun.restingOf_new hw hfresh
      unfold metaDExInsert
      rw [ht.property, ht.unitPrice, ht.key]
      simp only [wp_bind, wp_get, wp_ite, wp_pure, wp_set]
      refine ⟨fun hcontains => ?_, fun _ => ⟨fun _ => ?_, by simp⟩⟩
      · rw [ExtTreeMap.contains_eq_isSome_getElem?, hempty] at hcontains
        cases hcontains
      · have hview : OutsideFees fun s : State => (s.metadex, s.tradeList, s.txList) :=
          ⟨fun _ _ _ _ => rfl⟩
        unfold reserveRemaining
        simp only [wp_bind]
        refine wp_mono ((hview.assertUpdate _ _ _ _).wp rfl) (fun _ s2 h2 => ?_)
          fun _ _ _ => trivial
        refine wp_mono ((hview.assertUpdate _ _ _ _).wp h2) (fun _ s3 h3 => ?_)
          fun _ _ _ => trivial
        obtain ⟨hbook, hlists⟩ := Prod.mk.inj h3
        obtain ⟨htrade, htx⟩ := Prod.mk.inj hlists
        refine ⟨trivial, htx.trans hrun.txList, t, s1, hrun, fun p price k => ?_, htrade⟩
        rw [mdLevel_congr hbook, mdLevel_setMdLevel]
        by_cases hlevel : new.property = p ∧ new.unitPrice = price
        · obtain ⟨rfl, rfl⟩ := hlevel
          rw [if_pos ⟨rfl, rfl⟩, getElem?_insert_eq]
          by_cases hk : new.key = k
          · rw [if_pos hk, if_pos ⟨hpos, rfl, rfl, hk⟩]
          · rw [if_neg hk, if_neg fun hc => hk hc.2.2.2]
        · rw [if_neg hlevel, if_neg fun hc => hlevel ⟨hc.2.1, hc.2.2.1⟩]
    · intro hnot
      refine (wp_pure _ _ _ _).mpr ⟨rfl, hrun.txList, t, s1, hrun, fun p price k => ?_, rfl⟩
      rw [if_neg fun hc => hnot hc.1]
  refine wp_mono (wp_and hadd (metaDExAdd_bookOk hnew.sound hnew.apart hw.book))
    (fun rc s' h => ?_) fun _ _ _ => trivial
  exact ⟨h.1.1, h.2, h.1.2⟩

omit hw hnew in
/-- The places of the orders of the history are as the loop left them. -/
theorem AfterAdd.leftOf {t : MdTrade} {s1 s' : State} (h : AfterAdd new t s1 s') {e : MdPlacement}
    (he : e ∈ w.orders) : s'.leftOf e.order = s1.leftOf e.order := by
  unfold State.leftOf State.remainingAt
  rw [h.level, if_neg fun hc => (hfresh e he).2 hc.2.2.2.symm]

/-- **A TRADE KEEPS THE HISTORY IN ORDER**, once its transaction is recorded as valid. -/
theorem HistoryOk.place {t : MdTrade} {s1 s' : State} {vs : List MdVisit}
    (hrun : TradeRun w new (fun _ _ => True) vs t s1) (hbook : MdBookOk s')
    (hadd : AfterAdd new t s1 s')
    (hold : ∀ e ∈ w.orders, getValidMPTX s' e.order.txid = getValidMPTX w.state e.order.txid)
    (hvalid : getValidMPTX s' new.txid = true) :
    HistoryOk ⟨s', ⟨new, s'.leftOf new⟩ :: w.orders.map (MdPlacement.after w.state s'),
      w.matched ++ matchesOf vs⟩ := by
  have ht := hrun.loop.trade
  have hlevel := hadd.level
  have hleft : ∀ e ∈ w.orders, s'.leftOf e.order = s1.leftOf e.order :=
    fun e he => hadd.leftOf hfresh he
  have hnonneg : ∀ o, 0 ≤ s'.leftOf o := by
    intro o
    unfold State.leftOf State.remainingAt
    cases ho : (s'.mdLevel o.property o.unitPrice)[o.key]? with
    | none => exact le_rfl
    | some r => exact (hbook _ _ _ _ ho).sound.remaining_pos.le
  have hnewLeft : s'.leftOf new = t.pnew.amountRemaining := by
    have hempty : (s1.mdLevel new.property new.unitPrice)[new.key]? = none :=
      hrun.restingOf_new hw hfresh
    unfold State.leftOf State.remainingAt
    rw [hlevel, hempty]
    split
    · rfl
    · next hnot =>
        have hzero : ¬ 0 < t.pnew.amountRemaining := fun hpos => hnot ⟨hpos, rfl, rfl, rfl⟩
        have h0 := ht.remaining_nonneg
        show 0 = t.pnew.amountRemaining
        omega
  have hmatchesOk : ∀ m ∈ matchesOf vs, m.Ok := fun m hm => (hrun.matched m hm).1
  have hother : totalPaid new (fillsOfMatches w.matched) = 0 := by
    refine List.sum_eq_zero fun n hn => ?_
    obtain ⟨f, hf, rfl⟩ := List.mem_map.mp hn
    obtain ⟨m, hm, rfl⟩ := List.mem_map.mp hf
    obtain ⟨-, ⟨e1, he1, hsame1⟩, e2, he2, hsame2⟩ := hw.matched m hm
    rw [MdFill.paidBy, if_neg fun h => (hfresh e2 he2).1 (hsame2.txid.trans h.txid.symm),
      if_neg fun h => (hfresh e1 he1).1 (hsame1.txid.trans h.txid.symm), add_zero]
  refine ⟨hbook, ?_, ?_, ?_, ?_, ?_, ?_, ?_, ?_, ?_, ?_⟩
  · intro e he
    rcases List.mem_cons.mp he with rfl | he
    · exact hnew
    · obtain ⟨e0, he0, rfl⟩ := List.mem_map.mp he
      exact hw.orders e0 he0
  · rw [List.map_cons, List.map_map, List.nodup_cons]
    refine ⟨fun hmem => ?_, hw.txids⟩
    obtain ⟨e, he, heq⟩ := List.mem_map.mp hmem
    exact (hfresh e he).1 heq
  · rw [List.map_cons, List.map_map, List.nodup_cons]
    refine ⟨fun hmem => ?_, hw.keys⟩
    obtain ⟨e, he, heq⟩ := List.mem_map.mp hmem
    exact (hfresh e he).2 heq
  · -- what rests is the new order or an old one
    intro p price k o ho
    dsimp only at ho
    rw [hlevel] at ho
    split at ho
    · cases ho
      exact ⟨_, List.mem_cons_self, ht.sameOrder⟩
    · obtain ⟨o0, ho0, hsame0⟩ := hrun.rests p price k o ho
      obtain ⟨e, he, hsame⟩ := hw.rests p price k o0 ho0
      exact ⟨_, List.mem_cons_of_mem _ (List.mem_map_of_mem he), hsame.trans hsame0⟩
  · intro e he o ho
    rcases List.mem_cons.mp he with rfl | he
    · show o.amountRemaining = s'.leftOf new
      unfold State.restingOf at ho
      unfold State.leftOf State.remainingAt
      rw [ho]
      rfl
    · obtain ⟨e0, he0, rfl⟩ := List.mem_map.mp he
      have hat : (s'.mdLevel e0.order.property e0.order.unitPrice)[e0.order.key]? = some o := ho
      have hat1 := hat
      rw [hlevel, if_neg fun hc => (hfresh e0 he0).2 hc.2.2.2.symm] at hat1
      obtain ⟨o0, ho0, -⟩ := hrun.rests _ _ _ _ hat1
      have hrested : (w.state.restingOf e0.order).isSome = true := by
        unfold State.restingOf
        rw [ho0]
        rfl
      unfold MdPlacement.after
      rw [if_pos hrested]
      show o.amountRemaining = s'.leftOf e0.order
      unfold State.leftOf State.remainingAt
      rw [hat]
      rfl
  · intro e he
    rcases List.mem_cons.mp he with rfl | he
    · exact hnonneg new
    · obtain ⟨e0, he0, rfl⟩ := List.mem_map.mp he
      show 0 ≤ if (w.state.restingOf e0.order).isSome then s'.leftOf e0.order else e0.left
      split
      · exact hnonneg _
      · exact hw.left_nonneg e0 he0
  · -- sold and left add up
    intro e he
    dsimp only
    rw [fillsOfMatches_append, totalPaid_append]
    rcases List.mem_cons.mp he with rfl | he
    · have hpaid := hrun.paid
      have hwhole := hnew.whole
      show s'.leftOf new + (totalPaid new _ + totalPaid new _) = new.amountForsale
      rw [hother, hnewLeft]
      omega
    · obtain ⟨e0, he0, rfl⟩ := List.mem_map.mp he
      have hsold := hrun.sold e0 he0
      have hbefore := hw.sold e0 he0
      have hpaid := totalPaid_nonneg hmatchesOk e0.order
      rw [← hleft e0 he0] at hsold
      show (if (w.state.restingOf e0.order).isSome then s'.leftOf e0.order else e0.left) +
        (totalPaid e0.order _ + totalPaid e0.order _) = e0.order.amountForsale
      cases hrest : w.state.restingOf e0.order with
      | some o =>
          have hleft0 : w.state.leftOf e0.order = e0.left := by
            rw [← hw.left_eq e0 he0 o hrest]
            unfold State.restingOf at hrest
            unfold State.leftOf State.remainingAt
            rw [hrest]
            rfl
          rw [Option.isSome_some, if_pos rfl]
          omega
      | none =>
          have hleft0 : w.state.leftOf e0.order = 0 := by
            unfold State.restingOf at hrest
            unfold State.leftOf State.remainingAt
            rw [hrest]
            rfl
          have h0 := hnonneg e0.order
          rw [Option.isSome_none, if_neg (by decide)]
          omega
  · intro m hm
    have hmap : ∀ {o : CMPMetaDEx}, (∃ e ∈ w.orders, e.order.SameOrder o) →
        ∃ e ∈ (⟨new, s'.leftOf new⟩ :: w.orders.map (MdPlacement.after w.state s')),
          e.order.SameOrder o := by
      rintro o ⟨e, he, hsame⟩
      exact ⟨_, List.mem_cons_of_mem _ (List.mem_map_of_mem he), hsame⟩
    rcases List.mem_append.mp hm with hm | hm
    · obtain ⟨hok, hmaker, htaker⟩ := hw.matched m hm
      exact ⟨hok, hmap hmaker, hmap htaker⟩
    · obtain ⟨hok, htaker, hmaker, -⟩ := hrun.matched m hm
      exact ⟨hok, hmap hmaker, _, List.mem_cons_self, htaker⟩
  · dsimp only
    rw [hadd.tradeList, List.map_append]
    exact hrun.records.trans (hw.records.append_right _)
  · intro e he
    rcases List.mem_cons.mp he with rfl | he
    · exact hvalid
    · obtain ⟨e0, he0, rfl⟩ := List.mem_map.mp he
      exact (hold e0 he0).trans (hw.valid e0 he0)

end Trade

/-! ## Every run keeps the history in order -/

theorem placed_eq_some {op : MetaDExOp} {s : State} {new : CMPMetaDEx}
    (h : op.placed s = some new) : ∃ tx, op = .packet tx ∧ new = tx.metaDExOrder ∧
      s.isAddressFrozen tx.sender tx.property.toNat = false ∧ tx.type = 25 ∧
      metaDExTradeError s tx = none := by
  cases op with
  | packet tx =>
      rw [MetaDExOp.placed] at h
      split at h
      · next hc =>
          cases h
          exact ⟨tx, rfl, rfl, hc⟩
      · cases h
  | shutdown => cases h
  | shutdownAllPair => cases h

theorem placedOk_metaDExOrder {s : State} {tx : CMPTransaction} (h : metaDExTradeError s tx = none)
    (htxid : tx.txid < 2 ^ 256) : PlacedOk tx.metaDExOrder := by
  obtain ⟨hsound, hapart⟩ := metaDExOrder_sound h
  exact ⟨hsound, rfl, hapart, htxid, tx.property.toNat_lt, tx.desiredProperty.toNat_lt⟩

/-- A record under the hash of a transaction is not one of a matched trade. -/
theorem tradeRecords_insert_txid (db : TextDB) (t : Txid) (value : Text) :
    (tradeRecords (db.insert (txidText t) value)).Perm (tradeRecords db) := by
  have hnot : ∀ v, isTradeRecord (txidText t, v) = false := by
    intro v
    unfold isTradeRecord
    rw [length_txidText]
    rfl
  have hnew : ∀ old, (txidText t, old) ∉ tradeRecords db := by
    intro old hold
    have hrec := (List.mem_filter.mp hold).2
    rw [hnot] at hrec
    cases hrec
  have hperm := tradeRecords_insert value hnew
  rwa [hnot, if_neg (by decide), List.nil_append] at hperm

section Step

variable {w : MdHistory} (hw : HistoryOk w)
include hw

/-- An operation that places no order. -/
theorem HistoryOk.handle_taken {op : MetaDExOp} (hfresh : op.Fresh w)
    (hnone : op.placed w.state = none) :
    wp op.handle (fun _ s' => HistoryOk { w with state := s' }) (fun _ _ => True) w.state := by
  cases op with
  | packet tx =>
      refine handleMetaDExTx_spec (wp_imp (interpretMetaDExPacket_taken hnone) fun rc s' htaken => ?_)
      have h' := hw.taken htaken
      refine ⟨fun _ => h'.congr rfl (List.Perm.refl _) fun e he => getValidMPTX_congr ?_, fun _ => h'⟩
      exact recordedTx_txList tx rc s' (hw.orders e he).txid_lt hfresh.1 (hfresh.2 e he).1
  | shutdown =>
      show wp metaDExShutdown _ _ w.state
      unfold metaDExShutdown
      simp only [wp_bind, wp_get, wp_pure]
      refine wp_imp (wp_forM (I := fun s' => Taken w.state s') (fun e _ s' hs' =>
        wp_imp (removeOrder_taken none e s') fun _ _ h => hs'.trans h) (Taken.refl _))
        fun _ s' htaken => hw.taken htaken
  | shutdownAllPair =>
      show wp metaDExShutdownAllPair _ _ w.state
      unfold metaDExShutdownAllPair
      simp only [wp_bind, wp_get, wp_pure]
      refine wp_imp (wp_forM (I := fun s' => Taken w.state s') (fun e _ s' hs' => ?_)
        (Taken.refl _)) fun _ s' htaken => hw.taken htaken
      rw [wp_ite]
      exact ⟨fun _ => wp_imp (removeOrder_taken none e s') fun _ _ h => hs'.trans h,
        fun _ => (wp_throw _ _ _ _).mpr trivial⟩

omit hw in
/-- A trade that passes its checks records itself, and adds its order. -/
theorem wp_interpretMetaDExPacket_placed {tx : CMPTransaction} {s : State}
    (hfrozen : s.isAddressFrozen tx.sender tx.property.toNat = false) (htype : tx.type = 25)
    (herr : metaDExTradeError s tx = none) {s0 : State}
    (hs0 : after (recordNewTrade tx.txid tx.sender tx.property.toNat tx.desiredProperty.toNat
      tx.block tx.txIdx) s = s0) {Q : Int → State → Prop} {E : Halt → State → Prop}
    (h : wp (metaDExAdd tx.metaDExOrder) Q E s0) : wp (interpretMetaDExPacket tx) Q E s := by
  subst hs0
  unfold interpretMetaDExPacket logicMathMetaDExTrade
  rw [wp_bind, wp_get, wp_ite]
  refine ⟨fun hf => absurd hf (by rw [hfrozen]; decide), fun _ => ?_⟩
  rw [wp_ite]
  refine ⟨fun _ => ?_, fun hn => absurd htype hn⟩
  rw [wp_bind, wp_get, herr]
  dsimp only
  rw [wp_bind, recordNewTrade, wp_modify]
  exact h

/-- A trade that passes its checks. -/
theorem HistoryOk.handle_placed {op : MetaDExOp} (hfresh : op.Fresh w) {new : CMPMetaDEx}
    (hplaced : op.placed w.state = some new) :
    wp op.handle (fun _ s' => HistoryOk ⟨s',
      ⟨new, s'.leftOf new⟩ :: w.orders.map (MdPlacement.after w.state s'),
      w.matched ++ matchesOf (op.visits w.state)⟩) (fun _ _ => True) w.state := by
  obtain ⟨tx, rfl, rfl, hfrozen, htype, herr⟩ := placed_eq_some hplaced
  have hnew := placedOk_metaDExOrder herr hfresh.1
  have hfreshNew : FreshOrder w tx.metaDExOrder := hfresh.2
  -- the trade is recorded first, under its own hash
  obtain ⟨s0, hs0⟩ : ∃ s0, after (recordNewTrade tx.txid tx.sender tx.property.toNat
    tx.desiredProperty.toNat tx.block tx.txIdx) w.state = s0 := ⟨_, rfl⟩
  obtain ⟨hbook0, htx0, htrade0⟩ : s0.metadex = w.state.metadex ∧ s0.txList = w.state.txList ∧
      (tradeRecords s0.tradeList).Perm (tradeRecords w.state.tradeList) := by
    subst hs0
    exact ⟨rfl, rfl, tradeRecords_insert_txid _ _ _⟩
  have hw0 : HistoryOk { w with state := s0 } :=
    hw.congr hbook0 htrade0 fun e _ => getValidMPTX_congr (by rw [htx0])
  have hprice : ¬ tx.metaDExOrder.unitPrice ≤ 0 := by
    have hD : (0 : ℚ) < tx.metaDExOrder.amountDesired := by exact_mod_cast hnew.sound.desired_pos
    have hF : (0 : ℚ) < tx.metaDExOrder.amountForsale := by exact_mod_cast hnew.sound.forsale_pos
    exact not_le.mpr (div_pos hD hF)
  have hvisits : (MetaDExOp.packet tx).visits w.state = xTradeVisits tx.metaDExOrder s0 := by
    have hgood : ¬ (w.state.isAddressFrozen tx.sender tx.property.toNat ∨ tx.type ≠ 25 ∨
        (metaDExTradeError w.state tx).isSome ∨ tx.metaDExOrder.unitPrice ≤ 0) := by
      rw [hfrozen, herr]
      simp [htype, hprice]
    rw [MetaDExOp.visits, if_neg hgood, hs0]
  have hplaces : ∀ s', w.orders.map (MdPlacement.after s0 s') =
      w.orders.map (MdPlacement.after w.state s') := by
    intro s'
    refine List.map_congr_left fun e _ => ?_
    unfold MdPlacement.after State.restingOf
    rw [mdLevel_congr hbook0]
  refine handleMetaDExTx_spec ?_
  refine wp_imp (wp_interpretMetaDExPacket_placed hfrozen htype herr hs0
    (metaDExAdd_accounts hw0 hnew hfreshNew)) fun rc s' h => ?_
  obtain ⟨rfl, hbook, htx, t, s1, hrun, hafter⟩ := h
  refine ⟨fun _ => ?_, fun hc => absurd hc (by decide)⟩
  have hrecorded : AfterAdd tx.metaDExOrder t s1 (recordedTx tx 0 s') := by
    refine ⟨fun p price k => ?_, hafter.tradeList⟩
    have hsame : (recordedTx tx 0 s').metadex = s'.metadex := rfl
    rw [mdLevel_congr hsame]
    exact hafter.level p price k
  rw [hvisits, ← hplaces]
  refine hw0.place hnew hfreshNew hrun (hbook.congr rfl) hrecorded (fun e he => ?_)
    (getValidMPTX_recorded tx le_rfl s')
  refine getValidMPTX_congr ?_
  rw [recordedTx_txList tx 0 s' (hw.orders e he).txid_lt hfresh.1 (hfresh.2 e he).1, htx]

/-- **EVERY OPERATION KEEPS THE HISTORY IN ORDER.** -/
theorem HistoryOk.handle {op : MetaDExOp} (hfresh : op.Fresh w) :
    wp op.handle (fun _ s' => HistoryOk (w.next op s')) (fun _ _ => True) w.state := by
  cases hplaced : op.placed w.state with
  | none =>
      refine wp_imp (hw.handle_taken hfresh hplaced) fun _ s' h => ?_
      unfold MdHistory.next
      rw [hplaced]
      exact h
  | some new =>
      refine wp_imp (hw.handle_placed hfresh hplaced) fun _ s' h => ?_
      unfold MdHistory.next
      rw [hplaced]
      exact h

end Step

/-- In every run the node and the history agree. -/
theorem MdTraded.historyOk {w : MdHistory} (h : MdTraded w) : HistoryOk w := by
  induction h with
  | start hbook hrecords =>
      refine ⟨mdBookOk_empty hbook, ?_, List.nodup_nil, List.nodup_nil, ?_, ?_, ?_, ?_, ?_, ?_, ?_⟩
      · intro e he
        cases he
      · intro p price k o ho
        simp [State.mdLevel, State.mdPrices, hbook] at ho
      · intro e he
        cases he
      · intro e he
        cases he
      · intro e he
        cases he
      · intro m hm
        cases hm
      · dsimp only
        rw [hrecords]
        exact List.Perm.refl _
      · intro e he
        cases he
  | step op h hfresh hrun ih => exact wp_ok (ih.handle hfresh) hrun
  | other h hbook hrecords hvalid ih =>
      refine ih.congr hbook ?_ fun e he => getValidMPTX_congr (hvalid e he)
      rw [hrecords]

/-! ## What is reported -/

/-- The fee of a match in which an order was the maker. -/
def MdMatch.makerFee (o : CMPMetaDEx) (m : MdMatch) : Int := if o.SameOrder m.maker then m.fee else 0

/-- The reports for an order agree with the book: the total sold is what was for sale less what is
    left, and the status, whether the caller has the total or not, is that of a filled order
    exactly if nothing is left. -/
structure ReportsFills (s : State) (e : MdPlacement) : Prop where
  total : ∃ r, getMatchingTrades e.order.txid e.order.property s = .ok r s ∧
    r.totalSold = e.order.amountForsale - e.left
  status : ∀ r, getMatchingTrades e.order.txid e.order.property s = .ok r s →
    ∀ totalSold, totalSold = -1 ∨ totalSold = r.totalSold → ∃ st,
      metaDExGetStatus e.order.txid e.order.property e.order.amountForsale totalSold s = .ok st s ∧
      (st = .filled ↔ e.left = 0)

section Report

variable {w : MdHistory} (hw : HistoryOk w) {e : MdPlacement} (he : e ∈ w.orders)
include hw he

/-- What the record of a match adds to the total of an order: what the order gave, less the fee if it
    was the maker. -/
theorem soldIn_record {m : MdMatch} (hm : m ∈ w.matched) :
    soldIn e.order.txid e.order.property m.record =
      m.toMdFill.paidBy e.order - m.makerFee e.order := by
  obtain ⟨hok, hmaker, htaker⟩ := hw.matched m hm
  have hlt : ∀ {o : CMPMetaDEx}, (∃ e ∈ w.orders, e.order.SameOrder o) →
      o.txid < 2 ^ 256 ∧ o.property < 2 ^ 32 ∧ o.desiredProperty < 2 ^ 32 := by
    rintro o ⟨e', he', hsame⟩
    have hplaced := hw.orders e' he'
    rw [← hsame.txid, ← hsame.property, ← hsame.desiredProperty]
    exact ⟨hplaced.txid_lt, hplaced.property_lt, hplaced.desiredProperty_lt⟩
  have hfind : (findText (txidText e.order.txid) m.record.1).isSome = true ↔
      e.order.txid = m.maker.txid ∨ e.order.txid = m.taker.txid :=
    findText_key (hw.orders e he).txid_lt (hlt hmaker).1 (hlt htaker).1
  have hdecode := m.decode_record hok (hlt htaker).2.1 (hlt htaker).2.2
  unfold soldIn
  rw [hdecode]
  by_cases hisMaker : e.order.SameOrder m.maker
  · -- the maker does not sell what the taker sells
    have hside : m.taker.property ≠ e.order.property := by
      rw [hisMaker.property, hok.sells]
      exact hok.apart
    have hnotTaker : ¬ e.order.SameOrder m.taker := fun hsame => hside hsame.property.symm
    rw [if_pos (hfind.mpr (Or.inl hisMaker.txid)), MdFill.paidBy, if_neg hnotTaker,
      if_pos hisMaker, MdMatch.makerFee, if_pos hisMaker]
    show (if m.taker.property = e.order.property then m.paid else m.got - m.fee) = _
    rw [if_neg hside, zero_add]
  · rw [MdFill.paidBy, if_neg hisMaker, MdMatch.makerFee, if_neg hisMaker, add_zero, sub_zero]
    by_cases hisTaker : e.order.SameOrder m.taker
    · rw [if_pos (hfind.mpr (Or.inr hisTaker.txid)), if_pos hisTaker]
      show (if m.taker.property = e.order.property then m.paid else m.got - m.fee) = _
      rw [if_pos hisTaker.property.symm]
    · rw [if_neg hisTaker]
      refine if_neg fun hsome => ?_
      rcases hfind.mp hsome with h | h
      · exact hisMaker (hw.sameOrder_of_txid he hmaker h)
      · exact hisTaker (hw.sameOrder_of_txid he htaker h)

omit he in
theorem makerFee_bounds {m : MdMatch} (hm : m ∈ w.matched) :
    0 ≤ m.makerFee e.order ∧ m.makerFee e.order ≤ m.toMdFill.paidBy e.order := by
  have hok := (hw.matched m hm).1
  have hfee := hok.fee_nonneg
  have hfee' := hok.fee_le
  have hpaid := hok.paid_pos
  unfold MdMatch.makerFee MdFill.paidBy
  split <;> split <;> omega

omit he in
/-- The fees of the fills in which the order was the maker add up to nothing if and only if all of them
    are nothing. -/
theorem makerFees_eq_zero_iff : (w.matched.map (MdMatch.makerFee e.order)).sum = 0 ↔
    ∀ m ∈ w.matched, e.order.SameOrder m.maker → m.fee = 0 := by
  have hnonneg : ∀ n ∈ w.matched.map (MdMatch.makerFee e.order), 0 ≤ n := by
    intro n hn
    obtain ⟨m, hm, rfl⟩ := List.mem_map.mp hn
    exact (makerFee_bounds hw hm).1
  constructor
  · intro hsum m hm hsame
    have hle := List.single_le_sum hnonneg _ (List.mem_map_of_mem hm)
    have hfee := (hw.matched m hm).1.fee_nonneg
    rw [hsum, MdMatch.makerFee, if_pos hsame] at hle
    omega
  · intro hall
    refine List.sum_eq_zero fun n hn => ?_
    obtain ⟨m, hm, rfl⟩ := List.mem_map.mp hn
    unfold MdMatch.makerFee
    split
    · next hsame => exact hall m hm hsame
    · rfl

omit hw he in
theorem sum_paidBy_sub_makerFee (o : CMPMetaDEx) (ms : List MdMatch) :
    (ms.map fun m => m.toMdFill.paidBy o - m.makerFee o).sum =
      totalPaid o (fillsOfMatches ms) - (ms.map (MdMatch.makerFee o)).sum := by
  induction ms with
  | nil => rfl
  | cons m rest ih =>
      have htotal : totalPaid o (fillsOfMatches (m :: rest)) =
          m.toMdFill.paidBy o + totalPaid o (fillsOfMatches rest) := List.sum_cons
      rw [List.map_cons, List.sum_cons, List.map_cons, List.sum_cons, ih, htotal]
      ring

/-- What all records add to the total of an order. -/
theorem sum_soldIn :
    ((tradeRecords w.state.tradeList).map (soldIn e.order.txid e.order.property)).sum =
      (w.matched.map fun m => m.toMdFill.paidBy e.order - m.makerFee e.order).sum := by
  have hperm := (hw.records.map (soldIn e.order.txid e.order.property)).sum_eq
  have hparts : (w.matched.map MdMatch.record).map (soldIn e.order.txid e.order.property) =
      w.matched.map fun m => m.toMdFill.paidBy e.order - m.makerFee e.order := by
    rw [List.map_map, List.map_inj_left]
    intro m hm
    rw [Function.comp_apply]
    exact soldIn_record hw he hm
  rw [hparts] at hperm
  exact hperm

/-- **THE REPORTED TOTAL** is what was sold, less the fees of the fills as the maker. -/
theorem getMatchingTrades_reports : wp (getMatchingTrades e.order.txid e.order.property)
    (fun r s' => s' = w.state ∧ r.totalSold = e.order.amountForsale - e.left -
      (w.matched.map (MdMatch.makerFee e.order)).sum) (fun _ _ => False) w.state := by
  have hdecode : ∀ x ∈ tradeRecords w.state.tradeList,
      (decodeTradeRow (split isColon x.2)).isSome = true := by
    intro x hx
    obtain ⟨m, hm, rfl⟩ := List.mem_map.mp (hw.records.mem_iff.mp hx)
    obtain ⟨hok, -, e', he', hsame⟩ := hw.matched m hm
    have hplaced := hw.orders e' he'
    rw [m.decode_record hok (hsame.property ▸ hplaced.property_lt)
      (hsame.desiredProperty ▸ hplaced.desiredProperty_lt)]
    rfl
  refine wp_imp (getMatchingTrades_sold _ _ hdecode) fun r s' h => ⟨h.1, ?_⟩
  -- no part of the sum is negative, and the whole of it is within what was for sale
  have hnonneg : 0 ≤ (w.matched.map fun m => m.toMdFill.paidBy e.order - m.makerFee e.order).sum := by
    refine List.sum_nonneg fun n hn => ?_
    obtain ⟨m, hm, rfl⟩ := List.mem_map.mp hn
    exact sub_nonneg.mpr (makerFee_bounds hw hm).2
  have hfees : 0 ≤ (w.matched.map (MdMatch.makerFee e.order)).sum := by
    refine List.sum_nonneg fun n hn => ?_
    obtain ⟨m, hm, rfl⟩ := List.mem_map.mp hn
    exact (makerFee_bounds hw hm).1
  have hforsale := (hw.orders e he).sound.forsale_le
  have hleft := hw.left_nonneg e he
  have hsold := hw.sold e he
  have hsum := sum_paidBy_sub_makerFee e.order w.matched
  have hrange : IsInt64 (w.matched.map fun m =>
      m.toMdFill.paidBy e.order - m.makerFee e.order).sum :=
    ⟨le_trans (by decide) hnonneg, by omega⟩
  rw [h.2, sum_soldIn hw he, toInt64_of_isInt64 hrange]
  omega

/-- An order is reported open if and only if it rests. -/
theorem metaDExIsOpen_iff : metaDExIsOpen w.state e.order.txid e.order.property = true ↔
    (w.state.restingOf e.order).isSome = true := by
  have hplaced := hw.orders e he
  unfold metaDExIsOpen
  rw [List.any_eq_true]
  constructor
  · rintro ⟨x, hx, hopen⟩
    have hat := mem_mdOrders.mp hx
    rw [Bool.and_eq_true, beq_iff_eq] at hopen
    obtain ⟨e', he', hsame⟩ := hw.rests _ _ _ _ hat
    have hlt : x.order.txid < 2 ^ 256 := hsame.txid ▸ (hw.orders e' he').txid_lt
    have heq := hw.eq_of_txid he' he (hsame.txid.trans (txidText_inj hlt hplaced.txid_lt hopen.2))
    subst heq
    have hplace := hw.book _ _ _ _ hat
    unfold State.restingOf
    rw [hsame.property, hsame.unitPrice, hsame.key, hplace.property, hplace.price, hplace.key, hat]
    rfl
  · intro hrest
    obtain ⟨o, ho⟩ := Option.isSome_iff_exists.mp hrest
    have hsame := hw.sameOrder_of_key he ho rfl
    refine ⟨⟨e.order.property, e.order.unitPrice, e.order.key, o⟩, mem_mdOrders.mpr ho, ?_⟩
    rw [hsame.txid]
    simp

/-- With the right total the status is the right one. -/
theorem tradeStatus_filled_iff (hfees : (w.matched.map (MdMatch.makerFee e.order)).sum = 0) :
    tradeStatus (getValidMPTX w.state e.order.txid)
      (metaDExIsOpen w.state e.order.txid e.order.property) e.order.amountForsale
      (e.order.amountForsale - e.left - (w.matched.map (MdMatch.makerFee e.order)).sum) = .filled ↔
      e.left = 0 := by
  have hforsale := (hw.orders e he).sound.forsale_pos
  have hleft := hw.left_nonneg e he
  have hopen := metaDExIsOpen_iff hw he
  rw [hfees, sub_zero, hw.valid e he]
  unfold tradeStatus
  rw [if_neg (by decide)]
  cases hrest : w.state.restingOf e.order with
  | some o =>
      -- something is left of what rests
      have hpos := (hw.book _ _ _ _ hrest).sound.remaining_pos
      rw [hw.left_eq e he o hrest] at hpos
      rw [hrest] at hopen
      rw [if_pos (hopen.mpr rfl)]
      split
      · exact iff_of_false (by decide) (by omega)
      · exact iff_of_false (by decide) (by omega)
  | none =>
      rw [hrest] at hopen
      rw [if_neg fun h => absurd (hopen.mp h) (by decide)]
      split
      · exact iff_of_false (by decide) (by omega)
      · split
        · exact iff_of_false (by decide) (by omega)
        · exact iff_of_true rfl (by omega)

/-- The status, whether it looks the total up or is given it. -/
theorem metaDExGetStatus_reports {total : Int}
    (htotal : total = -1 ∨ total = e.order.amountForsale - e.left -
      (w.matched.map (MdMatch.makerFee e.order)).sum) :
    metaDExGetStatus e.order.txid e.order.property e.order.amountForsale total w.state =
      .ok (tradeStatus (getValidMPTX w.state e.order.txid)
        (metaDExIsOpen w.state e.order.txid e.order.property) e.order.amountForsale
        (e.order.amountForsale - e.left - (w.matched.map (MdMatch.makerFee e.order)).sum))
        w.state := by
  have hwp : wp (metaDExGetStatus e.order.txid e.order.property e.order.amountForsale total)
      (fun st s' => s' = w.state ∧ st = tradeStatus (getValidMPTX w.state e.order.txid)
        (metaDExIsOpen w.state e.order.txid e.order.property) e.order.amountForsale
        (e.order.amountForsale - e.left - (w.matched.map (MdMatch.makerFee e.order)).sum))
      (fun _ _ => False) w.state := by
    unfold metaDExGetStatus
    rw [wp_bind, wp_get, wp_ite]
    constructor
    · intro _
      rw [wp_bind]
      refine wp_imp (getMatchingTrades_reports hw he) fun r s' h => ?_
      obtain ⟨rfl, hsold⟩ := h
      rw [← hsold]
      exact (wp_pure _ _ _ _).mpr ⟨rfl, rfl⟩
    · intro hgiven
      rcases htotal with h | h
      · exact absurd h hgiven
      · rw [← h]
        exact (wp_pure _ _ _ _).mpr ⟨rfl, rfl⟩
  obtain ⟨st, s', hrun, rfl, rfl⟩ := wp_returns hwp
  exact hrun

end Report

/-- **REPORTED FILLS AGREE WITH THE BOOK UNLESS THE ORDER WAS CHARGED ON**: in every run and for every
    order that was placed, what the history says is left is what the book has, and the reports
    agree with it if and only if no fee was taken in a fill in which the order was the maker. -/
theorem reported_fills_iff {w : MdHistory} (h : MdTraded w) {e : MdPlacement} (he : e ∈ w.orders) :
    (∀ o, w.state.restingOf e.order = some o → e.order.SameOrder o ∧ o.amountRemaining = e.left) ∧
    (ReportsFills w.state e ↔ ∀ m ∈ w.matched, e.order.SameOrder m.maker → m.fee = 0) := by
  have hw := h.historyOk
  have hfees := makerFees_eq_zero_iff (e := e) hw
  obtain ⟨r, s', hrun, rfl, hsold⟩ := wp_returns (getMatchingTrades_reports hw he)
  refine ⟨fun o ho => ⟨hw.sameOrder_of_key he ho rfl, hw.left_eq e he o ho⟩, ?_, ?_⟩
  · rintro ⟨⟨r', hrun', htotal⟩, -⟩
    rw [hrun] at hrun'
    cases hrun'
    exact hfees.mp (by omega)
  · intro hall
    have hzero := hfees.mpr hall
    refine ⟨⟨r, hrun, by omega⟩, fun r' hrun' total htotal => ?_⟩
    rw [hrun] at hrun'
    cases hrun'
    rw [hsold] at htotal
    exact ⟨_, metaDExGetStatus_reports hw he htotal, tradeStatus_filled_iff hw he hzero⟩

/-! ## A sale without a fee, and one with a fee -/

/-- The history after one more operation. -/
def MdHistory.run (w : MdHistory) (op : MetaDExOp) : MdHistory := w.next op (after op.handle w.state)

theorem MdTraded.run {w : MdHistory} (h : MdTraded w) (op : MetaDExOp) (rc : Int)
    (hfresh : op.Fresh w) (hrun : value op.handle w.state = some rc) : MdTraded (w.run op) :=
  .step op h hfresh (eq_ok_of_value hrun)

/-- `A` sells 10 of property 4, and `B` buys 3 of them for property 1. -/
def saleHistory : MdHistory :=
  (MdHistory.run ⟨tokenMarket, [], []⟩ (.packet saleTx)).run (.packet bidTx)

set_option maxRecDepth 4000 in
private theorem saleHistory_traded : MdTraded saleHistory := by
  have h0 : MdTraded ⟨tokenMarket, [], []⟩ := .start rfl (by decide +kernel)
  have h1 := h0.run (.packet saleTx) 0 (by decide +kernel) (by decide +kernel)
  exact h1.run (.packet bidTx) 0 (by decide +kernel) (by decide +kernel)

set_option maxRecDepth 4000 in
/-- Seven are left, three are reported as sold, and the order is reported as not filled. -/
theorem reported_fills_iff_sale : MdTraded saleHistory ∧
    ⟨saleTx.metaDExOrder, 7⟩ ∈ saleHistory.orders ∧
    ReportsFills saleHistory.state ⟨saleTx.metaDExOrder, 7⟩ := by
  have hmem : ⟨saleTx.metaDExOrder, 7⟩ ∈ saleHistory.orders := by decide +kernel
  exact ⟨saleHistory_traded, hmem,
    (reported_fills_iff saleHistory_traded hmem).2.mpr (by decide +kernel)⟩

/-- `A` holds 4000 of property 4, `B` 4000 of property 5, and fees of property 4 are not distributed
    before there are 1000. -/
def feeMarket : State :=
  { fundedState.withTally (TallyMap.update (TallyMap.update fundedLedger traderA 4 4000 .balance).2
      traderB 5 4000 .balance).2 with
    sps := { CMPSPInfo.init with nextSPID := 6 }
    distributionThresholds := (∅ : ExtTreeMap PropertyId Int).insert 4 1000 }

/-- `A` sells all of it for as much of property 5. -/
def feeSaleTx : CMPTransaction :=
  { saleTx with nValue := 4000, nNewValue := 4000, desiredProperty := 5, desiredValue := 4000 }

/-- `B` buys all of it. -/
def feeBidTx : CMPTransaction :=
  { bidTx with property := 5, nValue := 4000, nNewValue := 4000, desiredValue := 4000 }

/-- The history of these two. -/
def chargedHistory : MdHistory :=
  (MdHistory.run ⟨feeMarket, [], []⟩ (.packet feeSaleTx)).run (.packet feeBidTx)

set_option maxRecDepth 4000 in
private theorem chargedHistory_traded : MdTraded chargedHistory := by
  have h0 : MdTraded ⟨feeMarket, [], []⟩ := .start rfl (by decide +kernel)
  have h1 := h0.run (.packet feeSaleTx) 0 (by decide +kernel) (by decide +kernel)
  exact h1.run (.packet feeBidTx) 0 (by decide +kernel) (by decide +kernel)

set_option maxRecDepth 4000 in
private theorem chargedHistory_reports :
    (value (getMatchingTrades 1 4) chargedHistory.state).map MatchingTrades.totalSold = some 3998 ∧
    value (metaDExGetStatus 1 4 4000 (-1)) chargedHistory.state = some .cancelledPartFilled := by
  decide +kernel

set_option maxRecDepth 4000 in
/-- **A FILLED ORDER IS REPORTED AS CANCELLED**: the whole of the sale was bought, 3998 are reported as
    sold, and the status is "cancelled part filled". -/
theorem chargedSale_misreported : MdTraded chargedHistory ∧
    ⟨feeSaleTx.metaDExOrder, 0⟩ ∈ chargedHistory.orders ∧
    feeSaleTx.metaDExOrder.amountForsale = 4000 ∧
    value (metaDExGetStatus 1 4 4000 (-1)) chargedHistory.state = some .cancelledPartFilled ∧
    ¬ ReportsFills chargedHistory.state ⟨feeSaleTx.metaDExOrder, 0⟩ := by
  obtain ⟨htotal, hstatus⟩ := chargedHistory_reports
  refine ⟨chargedHistory_traded, by decide +kernel, by decide, hstatus, fun hreports => ?_⟩
  obtain ⟨r, hval, hsold⟩ := Option.map_eq_some_iff.mp htotal
  obtain ⟨r', hrun, hsold'⟩ := hreports.total
  have hsame : getMatchingTrades 1 4 chargedHistory.state =
      .ok r (after (getMatchingTrades 1 4) chargedHistory.state) := eq_ok_of_value hval
  have heq : EStateM.Result.ok r' chargedHistory.state =
      .ok r (after (getMatchingTrades 1 4) chargedHistory.state) := hrun.symm.trans hsame
  injection heq with hr
  have hforsale : feeSaleTx.metaDExOrder.amountForsale = 4000 := by decide
  rw [hr, hsold, hforsale] at hsold'
  exact absurd hsold' (by decide)

end OmniCore
