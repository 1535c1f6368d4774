import OmniCore.MetaDExSettle
import OmniCore.MetaDExSold
import OmniCore.Node

/-! # MetaDExMarket — the token market over whole histories

    The book, the reserves and the fee cache are written by different functions, and only
    assertions tie them together. Over every history of trades, cancels and shutdowns,
    with whatever else happens on the node in between, they stay in step, so that none of
    the assertions fails and no order is refused its place. -/

namespace OmniCore

open Std (ExtTreeMap)
open Machine TextRec MapSum Exec

/-! ## The state of the market -/

/-- Earlier in the chain: in an earlier block, or before it in the same one. -/
def Earlier (a b : OrderKey) : Prop := a.1 < b.1 ∨ a.1 = b.1 ∧ a.2 < b.2

instance (a b : OrderKey) : Decidable (Earlier a b) := inferInstanceAs (Decidable (_ ∨ _))

theorem Earlier.trans {a b c : OrderKey} (h : Earlier a b) (h' : Earlier b c) : Earlier a c := by
  unfold Earlier at *
  omega

theorem Earlier.irrefl (a : OrderKey) : ¬ Earlier a a := by
  unfold Earlier
  omega

/-- The market is in order up to a place of the chain, which no resting order comes after. -/
structure MarketOk (place : OrderKey) (s : State) : Prop where
  book : MdBookOk s
  reserved : MdReserved s
  tokens : TokensOk place.1 s
  placed : ∀ p price k o, (s.mdLevel p price)[k]? = some o → ¬ Earlier place k

namespace MarketOk

variable {place place' : OrderKey} {s s' : State}

/-- Later in the chain. -/
theorem later (h : MarketOk place s) (hle : Earlier place place') : MarketOk place' s := by
  refine ⟨h.book, h.reserved, h.tokens.mono ?_, fun p price k o ho hearlier => ?_⟩
  · unfold Earlier at hle
    omega
  · exact h.placed p price k o ho (hle.trans hearlier)

/-- What is written beside the market does not matter. -/
theorem congr (h : MarketOk place s) (hm : s'.tallyMap = s.tallyMap) (hbook : s'.metadex = s.metadex)
    (hcache : s'.feeCache = s.feeCache) (hparams : s'.params = s.params) : MarketOk place s' := by
  refine ⟨h.book.congr hbook, fun a p => ?_, h.tokens.congr (fun p => by rw [hm]) hcache hparams,
    fun p price k o ho => ?_⟩
  · rw [hm, mdReserved_congr hbook]
    exact h.reserved a p
  · rw [mdLevel_congr hbook] at ho
    exact h.placed p price k o ho

/-- The reserves cover any part of the book. -/
theorem covers (h : MarketOk place s) (sel : MdPlaced → Bool) : Covers s (s.mdOrders.filter sel) := by
  have hpos : ∀ e ∈ s.mdOrders, 0 < e.order.amountRemaining :=
    fun e he => (h.book _ _ _ _ (mem_mdOrders.mp he)).sound.remaining_pos
  refine ⟨fun e he => hpos e (List.mem_filter.mp he).1, fun a p => ?_, h.tokens.supply_le⟩
  have hsplit := mdReserved_split s sel a p
  have hothers : 0 ≤ ((s.mdOrders.filter fun e => !sel e).map
      fun e => e.order.reservedFor a p).sum := by
    refine List.sum_nonneg fun x hx => ?_
    obtain ⟨e, he, rfl⟩ := List.mem_map.mp hx
    exact reservedFor_nonneg (hpos e (List.mem_filter.mp he).1).le a p
  rw [h.reserved a p]
  omega

/-- **ORDERS THAT ARE TAKEN OUT** leave the market in order. -/
theorem takenOut (h : MarketOk place s) {sel : MdPlaced → Bool}
    (htaken : TakenOut (s.mdOrders.filter sel) s s') (hcache : s'.feeCache = s.feeCache)
    (hparams : s'.params = s.params) : MarketOk place s' := by
  have hkept : ∀ p price (k : OrderKey) o, (s'.mdLevel p price)[k]? = some o →
      (s.mdLevel p price)[k]? = some o := by
    intro p price k o ho
    by_cases hgone : ∃ e ∈ s.mdOrders.filter sel, e.At p price k
    · rw [htaken.gone p price k hgone] at ho
      cases ho
    · rwa [htaken.kept p price k hgone] at ho
  refine ⟨fun p price k o ho => h.book p price k o (hkept p price k o ho), fun a p => ?_,
    h.tokens.congr htaken.supply hcache hparams,
    fun p price k o ho => h.placed p price k o (hkept p price k o ho)⟩
  rw [htaken.money, if_neg (by decide), if_pos rfl, htaken.mdReserved, h.reserved a p]
  ring

end MarketOk

/-! ## Trades -/

/-- The new order has the tokens it offers, and comes later than all resting orders. -/
structure CanPlace (place : OrderKey) (new : CMPMetaDEx) (s : State) : Prop where
  sound : new.Sound
  apart : new.property ≠ new.desiredProperty
  fits : IsInt64 new.block
  unfrozen : s.isAddressFrozen new.addr new.property = false
  purse : new.amountRemaining ≤ s.tallyMap.money new.addr new.property .balance
  later : Earlier place new.key

/-- The remainder of an order comes to rest. -/
theorem TradingOk.rests {place : OrderKey} {new : CMPMetaDEx} {s0 s1 s' : State} {t : MdTrade}
    {m : TallyMap} (hok : MarketOk place s0) (hplace : CanPlace place new s0)
    (h : TradingOk new s0 t s1)
    (hm : Moved s1.tallyMap m new.property t.pnew.amountRemaining new.addr .balance new.addr
      .metaDExReserve)
    (hs' : s' = (s1.setMdLevel t.pnew.property t.pnew.unitPrice
      ((s1.mdLevel t.pnew.property t.pnew.unitPrice).insert t.pnew.key t.pnew)).withTally m)
    (hbook : MdBookOk s') : MarketOk new.key s' := by
  have hkey := h.loop.trade.key
  have hshape := h.loop.trade.shape
  have haddr : t.pnew.addr = new.addr := by rw [hshape]
  have hfree : ∀ p price, (s1.mdLevel p price)[new.key]? = none := by
    intro p price
    refine h.places p price new.key ?_
    cases ho : (s0.mdLevel p price)[new.key]? with
    | none => rfl
    | some o => exact absurd hplace.later (hok.placed p price new.key o ho)
  have hmetadex : s'.metadex = (s1.setMdLevel t.pnew.property t.pnew.unitPrice
      ((s1.mdLevel t.pnew.property t.pnew.unitPrice).insert t.pnew.key t.pnew)).metadex := by
    rw [hs']
    rfl
  refine ⟨hbook, fun a p => ?_, ?_, fun p price k o ho => ?_⟩
  · rw [mdReserved_congr hmetadex, mdReserved_setMdLevel, levelReserved_insert, ← h.reserved a p]
    · rw [hs']
      show m.money a p .metaDExReserve = _
      rw [hm.money_dst (by simp)]
      unfold CMPMetaDEx.reservedFor
      rw [haddr, h.loop.trade.property]
      simp only [eq_comm]
      ring
    · rw [hkey]
      exact hfree _ _
  · refine h.tokens.congr (fun p => ?_) ?_ ?_
    · rw [hs']
      exact hm.supply p
    · rw [hs']
      rfl
    · rw [hs']
      rfl
  · rw [mdLevel_congr hmetadex, mdLevel_setMdLevel, hkey] at ho
    by_cases hk : new.key = k
    · rw [← hk]
      exact Earlier.irrefl _
    · -- every other order was there before
      have hold : (s1.mdLevel p price)[k]? = some o := by
        split at ho
        · next hlevel =>
            rw [getElem?_insert_eq, if_neg hk] at ho
            rw [← hlevel.1, ← hlevel.2]
            exact ho
        · exact ho
      cases hstart : (s0.mdLevel p price)[k]? with
      | none =>
          rw [h.places p price k hstart] at hold
          cases hold
      | some o' => exact fun hlater => hok.placed p price k o' hstart (hplace.later.trans hlater)

/-- **AN ORDER IS ADDED** without a failure, and never finds its place taken. -/
theorem metaDExAdd_returns {place : OrderKey} {new : CMPMetaDEx} {s : State}
    (hok : MarketOk place s) (hplace : CanPlace place new s) :
    wp (metaDExAdd new) (fun rc s' => metaDExError - 70 < rc ∧ MarketOk new.key s')
      (fun _ _ => False) s := by
  have hstart := hok.later hplace.later
  have hfree : ∀ p price, (s.mdLevel p price)[new.key]? = none := by
    intro p price
    cases ho : (s.mdLevel p price)[new.key]? with
    | none => rfl
    | some o => exact absurd hplace.later (hok.placed p price new.key o ho)
  refine wp_mono (wp_and (metaDExAdd_bookOk hplace.sound hplace.apart hok.book) ?_)
    (fun rc s' h => ⟨h.2.1, h.2.2 h.1⟩) (fun _ _ h => h.2)
    (Q := fun rc s' => MdBookOk s' ∧ metaDExError - 70 < rc ∧ (MdBookOk s' → MarketOk new.key s'))
    (E := fun _ _ => True ∧ False)
  unfold metaDExAdd
  rw [wp_ite]
  refine ⟨fun _ => (wp_pure _ _ _ _).mpr ⟨by decide, fun _ => hstart⟩, fun _ => ?_⟩
  rw [wp_bind]
  refine wp_imp (xTradeMetaDEx_returns hplace.fits hplace.apart hplace.unfrozen hplace.sound
    hok.book hok.reserved hstart.tokens hplace.purse) fun t s1 h => ?_
  rw [wp_ite]
  constructor
  · intro hrem
    unfold metaDExInsert reserveRemaining
    simp only [wp_bind, wp_get]
    have hempty : (s1.mdLevel t.pnew.property t.pnew.unitPrice).contains t.pnew.key = false := by
      rw [h.loop.trade.key, ExtTreeMap.contains_eq_isSome_getElem?, h.places _ _ _ (hfree _ _)]
      rfl
    rw [hempty, if_neg Bool.false_ne_true]
    simp only [wp_bind, wp_set, wp_pure]
    rw [if_pos trivial]
    simp only [bind_assoc]
    have haddr : t.pnew.addr = new.addr := by rw [h.loop.trade.shape]
    rw [haddr, h.loop.trade.property]
    refine wp_move hrem h.purse trivial trivial (h.tokens.supply_le _) (fun _ => ?_) fun m hm => ?_
    · have hbeside := h.beside
      rw [hbeside]
      exact hplace.unfrozen
    · rw [wp_pure]
      refine ⟨by decide, fun hbook => h.rests hok hplace hm ?_ hbook⟩
      rw [h.loop.trade.property]
  · intro hrem
    refine (wp_pure _ _ _ _).mpr ⟨by decide, fun hbook => ⟨hbook, h.reserved, h.tokens, ?_⟩⟩
    intro p price k o ho
    cases hs : (s.mdLevel p price)[k]? with
    | none =>
        rw [h.places p price k hs] at ho
        cases ho
    | some o' => exact fun hlater => hok.placed p price k o' hs (hplace.later.trans hlater)

/-! ## Cancels and shutdowns -/

/-- A cancel takes out the orders it selects. -/
theorem cancelOrders_returns {place : OrderKey} {s : State} (h : MarketOk place s) (txid : Txid)
    (block : Nat) {rc : Int} (hrc : metaDExError - 70 < rc) (sel : MdPlaced → Bool) :
    wp (cancelOrders txid block rc sel)
      (fun rc' s' => metaDExError - 70 < rc' ∧ MarketOk place s') (fun _ _ => False) s := by
  obtain ⟨n, hnext, -⟩ := exists_nextRefNumber txid s.txList
  unfold cancelOrders
  simp only [wp_bind, wp_get, wp_pure]
  refine wp_imp (removeOrders_spec txid block _ n s (h.covers sel) hnext) fun _ s' hremoved => ?_
  have htaken : TakenOut (s.mdOrders.filter sel) s s' :=
    ⟨hremoved.money, hremoved.supply, hremoved.gone, hremoved.kept⟩
  refine ⟨?_, h.takenOut htaken (by rw [hremoved.rest]) (by rw [hremoved.rest])⟩
  split
  · exact hrc
  · decide

theorem mdOrders_filter_true (s : State) : s.mdOrders.filter (fun _ => true) = s.mdOrders :=
  List.filter_eq_self.mpr fun _ _ => rfl

/-- The loop of a shutdown takes out everything. -/
theorem shutdownOrders_returns {place : OrderKey} {s : State} (h : MarketOk place s) :
    wp (s.mdOrders.forM (removeOrder none)) (fun _ s' => MarketOk place s') (fun _ _ => False) s := by
  have hcovers := h.covers fun _ => true
  rw [mdOrders_filter_true] at hcovers
  refine wp_imp (shutdownOrders_spec s.mdOrders s hcovers) fun _ s' hdown => ?_
  obtain ⟨htaken, hbeside⟩ := hdown
  rw [← mdOrders_filter_true] at htaken
  exact h.takenOut htaken (by rw [hbeside]) (by rw [hbeside])

theorem metaDExShutdown_returns {place : OrderKey} {s : State} (h : MarketOk place s) :
    wp metaDExShutdown (fun rc s' => metaDExError - 70 < rc ∧ MarketOk place s') (fun _ _ => False)
      s := by
  unfold metaDExShutdown
  simp only [wp_bind, wp_get, wp_pure]
  exact wp_imp (shutdownOrders_returns h) fun _ _ h' => ⟨by decide, h'⟩

/-- Without an order that has to stay, the shutdown of all pairs is a shutdown. -/
theorem metaDExShutdownAllPair_returns {place : OrderKey} {s : State} (h : MarketOk place s)
    (hall : s.OnlyAllPairs) :
    wp metaDExShutdownAllPair (fun rc s' => metaDExError - 70 < rc ∧ MarketOk place s')
      (fun _ _ => False) s := by
  have hloop : ∀ l : List MdPlaced, (∀ e ∈ l, e.order.AllPair) →
      l.forM removeAllPair = l.forM (removeOrder none) := by
    intro l hl
    induction l with
    | nil => rfl
    | cons e rest ih =>
        show (removeAllPair e >>= fun _ => rest.forM removeAllPair) =
          removeOrder none e >>= fun _ => rest.forM (removeOrder none)
        rw [removeAllPair_of_pair (hl e List.mem_cons_self),
          ih fun x hx => hl x (List.mem_cons_of_mem e hx)]
  show wp (do
    let s ← get
    s.mdOrders.forM removeAllPair
    pure 0 : ExecM Int) _ _ s
  simp only [wp_bind, wp_get, wp_pure]
  rw [hloop s.mdOrders (onlyAllPairs_iff.mp hall)]
  exact wp_imp (shutdownOrders_returns h) fun _ _ h' => ⟨by decide, h'⟩

/-! ## Transactions -/

/-- The checks answer with errors of their own. -/
theorem metaDExPairError_range {s : State} {tx : CMPTransaction} {error : Int}
    (h : metaDExPairError s tx = some error) : metaDExError - 70 < error := by
  unfold metaDExPairError at h
  split_ifs at h <;> cases h <;> decide

theorem metaDExAmountError_range {tx : CMPTransaction} {error : Int}
    (h : metaDExAmountError tx = some error) : metaDExError - 70 < error := by
  unfold metaDExAmountError at h
  split_ifs at h <;> cases h <;> decide

theorem metaDExTradePairError_range {s : State} {tx : CMPTransaction} {error : Int}
    (h : metaDExTradePairError s tx = some error) : metaDExError - 70 < error := by
  unfold metaDExTradePairError at h
  split_ifs at h <;> cases h <;> decide

/-- A check, and then another one. -/
theorem or_range {a b : Option Int} {error bound : Int} (h : a.or b = some error)
    (ha : ∀ e, a = some e → bound < e) (hb : ∀ e, b = some e → bound < e) : bound < error := by
  cases a with
  | none => exact hb error h
  | some e => exact ha error h

/-- **A TRADE GOES THROUGH**: it is refused by a check, or its order is added. -/
theorem logicMathMetaDExTrade_returns {place : OrderKey} {s : State} {tx : CMPTransaction}
    (h : MarketOk place s) (hfits : IsInt64 tx.block) (hlater : Earlier place (tx.block, tx.txIdx))
    (hfrozen : s.isAddressFrozen tx.sender tx.property.toNat = false) :
    wp (logicMathMetaDExTrade tx)
      (fun rc s' => metaDExError - 70 < rc ∧ MarketOk (tx.block, tx.txIdx) s')
      (fun _ _ => False) s := by
  unfold logicMathMetaDExTrade
  rw [wp_bind, wp_get]
  cases herr : metaDExTradeError s tx with
  | some error =>
      refine (wp_pure _ _ _ _).mpr ⟨?_, h.later hlater⟩
      exact or_range herr (fun _ => metaDExPairError_range) fun _ hrest =>
        or_range hrest (fun _ => metaDExAmountError_range) fun _ => metaDExTradePairError_range
  | none =>
      obtain ⟨hsound, hapart⟩ := metaDExOrder_sound herr
      have hbalance := (metaDExTradeError_eq_none herr).balance
      rw [State.getMPbalance_eq _ _ _ (by simp)] at hbalance
      simp only [recordNewTrade, wp_bind, wp_modify]
      have hamount : tx.metaDExOrder.amountRemaining = toInt64 tx.nNewValue.toNat := by
        simp only [CMPTransaction.metaDExOrder, newMetaDExOrder]
      rw [← hamount] at hbalance
      generalize hnew : tx.metaDExOrder = new at hsound hapart hbalance ⊢
      have hkey : new.key = (tx.block, tx.txIdx) := by rw [← hnew]; rfl
      have hblock : new.block = tx.block := by rw [← hnew]; rfl
      have haddr : new.addr = tx.sender := by rw [← hnew]; rfl
      have hproperty : new.property = tx.property.toNat := by rw [← hnew]; rfl
      rw [← hkey] at hlater ⊢
      rw [← hblock] at hfits
      rw [← haddr, ← hproperty] at hfrozen hbalance
      exact metaDExAdd_returns (h.congr rfl rfl rfl rfl)
        ⟨hsound, hapart, hfits, hfrozen, hbalance, hlater⟩

/-- **EVERY TRANSACTION OF THE MARKET GOES THROUGH.** -/
theorem interpretMetaDExPacket_returns {place : OrderKey} {s : State} {tx : CMPTransaction}
    (h : MarketOk place s) (hfits : IsInt64 tx.block)
    (hlater : Earlier place (tx.block, tx.txIdx)) :
    wp (interpretMetaDExPacket tx)
      (fun rc s' => metaDExError - 70 < rc ∧ MarketOk (tx.block, tx.txIdx) s')
      (fun _ _ => False) s := by
  have hstays := h.later hlater
  unfold interpretMetaDExPacket
  rw [wp_bind, wp_get]
  simp only [wp_ite, wp_pure]
  refine ⟨fun _ => ⟨by decide, hstays⟩, fun hfrozen => ⟨fun _ => ?_, fun _ => ⟨fun _ => ?_,
    fun _ => ⟨fun _ => ?_, fun _ => ⟨fun _ => ?_, fun _ => ⟨by decide, hstays⟩⟩⟩⟩⟩⟩
  · exact logicMathMetaDExTrade_returns h hfits hlater (by simpa using hfrozen)
  · unfold logicMathMetaDExCancelPrice metaDExCancelAtPrice
    rw [wp_bind, wp_get]
    cases herr : (metaDExPairError s tx).or (metaDExAmountError tx) with
    | some error =>
        exact (wp_pure _ _ _ _).mpr ⟨or_range herr (fun _ => metaDExPairError_range)
          fun _ => metaDExAmountError_range, hstays⟩
    | none =>
        dsimp only
        rw [wp_bind, wp_get, wp_ite]
        exact ⟨fun _ => cancelOrders_returns hstays _ _ (by decide) _,
          fun _ => (wp_pure _ _ _ _).mpr ⟨by decide, hstays⟩⟩
  · unfold logicMathMetaDExCancelPair metaDExCancelAllForPair
    rw [wp_bind, wp_get]
    cases herr : metaDExPairError s tx with
    | some error => exact (wp_pure _ _ _ _).mpr ⟨metaDExPairError_range herr, hstays⟩
    | none =>
        dsimp only
        rw [wp_bind, wp_get, wp_ite]
        exact ⟨fun _ => cancelOrders_returns hstays _ _ (by decide) _,
          fun _ => (wp_pure _ _ _ _).mpr ⟨by decide, hstays⟩⟩
  · unfold logicMathMetaDExCancelEcosystem metaDExCancelEverything
    simp only [wp_bind, wp_get, wp_ite, wp_pure]
    exact ⟨fun _ => ⟨by decide, hstays⟩, fun _ => ⟨fun _ => ⟨by decide, hstays⟩,
      fun _ => cancelOrders_returns hstays _ _ (by decide) _⟩⟩

/-! ## Histories -/

namespace MetaDExOp

/-- What the chain and the order of its transactions promise of an operation: a transaction comes
    later than all before it. A shutdown of all pairs only ends if no order has to stay. -/
def Admissible (place : OrderKey) (s : State) : MetaDExOp → Prop
  | packet tx => IsInt64 tx.block ∧ Earlier place (tx.block, tx.txIdx)
  | shutdown => True
  | shutdownAllPair => s.OnlyAllPairs

/-- The place of the chain behind an operation. -/
def place (before : OrderKey) : MetaDExOp → OrderKey
  | packet tx => (tx.block, tx.txIdx)
  | shutdown => before
  | shutdownAllPair => before

/-- **ONE OPERATION** returns, and leaves the market in order. -/
theorem returns {op : MetaDExOp} {before : OrderKey} {s : State} (h : MarketOk before s)
    (hop : op.Admissible before s) :
    wp op.run (fun rc s' => metaDExError - 70 < rc ∧ MarketOk (op.place before) s')
      (fun _ _ => False) s := by
  cases op with
  | packet tx => exact interpretMetaDExPacket_returns h hop.1 hop.2
  | shutdown => exact metaDExShutdown_returns h
  | shutdownAllPair => exact metaDExShutdownAllPair_returns h hop

end MetaDExOp

/-- The places and states that histories of the market lead to. Whatever else happens on the node
    leaves the book and its reserves alone, and the tokens in order. -/
inductive MarketReaches : OrderKey → State → Prop
  | start {place : OrderKey} {s : State} (hbook : s.metadex = ∅)
      (hreserve : ∀ a p, s.tallyMap.money a p .metaDExReserve = 0)
      (htokens : TokensOk place.1 s) : MarketReaches place s
  | step {place : OrderKey} {s s' : State} {rc : Int} (op : MetaDExOp) (h : MarketReaches place s)
      (hop : op.Admissible place s) (hrun : op.run s = .ok rc s') :
      MarketReaches (op.place place) s'
  | other {place place' : OrderKey} {s s' : State} (h : MarketReaches place s)
      (hlater : place' = place ∨ Earlier place place') (hbook : s'.metadex = s.metadex)
      (hreserve : ∀ a p, s'.tallyMap.money a p .metaDExReserve =
        s.tallyMap.money a p .metaDExReserve) (htokens : TokensOk place'.1 s') :
      MarketReaches place' s'

/-- A market without orders. -/
theorem marketOk_empty {place : OrderKey} {s : State} (hbook : s.metadex = ∅)
    (hreserve : ∀ a p, s.tallyMap.money a p .metaDExReserve = 0) (htokens : TokensOk place.1 s) :
    MarketOk place s := by
  refine ⟨mdBookOk_empty hbook, fun a p => ?_, htokens, fun p price k o ho => ?_⟩
  · rw [hreserve, mdReserved_eq, hbook, msum_empty]
  · simp [State.mdLevel, State.mdPrices, hbook] at ho

theorem MarketReaches.ok {place : OrderKey} {s : State} (h : MarketReaches place s) :
    MarketOk place s := by
  induction h with
  | start hbook hreserve htokens => exact marketOk_empty hbook hreserve htokens
  | step op h hop hrun ih => exact (wp_ok (op.returns ih hop) hrun).2
  | @other place place' s s' h hlater hbook hreserve htokens ih =>
      have hmoved : MarketOk place' s := by
        rcases hlater with rfl | hlater
        · exact ih
        · exact ih.later hlater
      refine ⟨hmoved.book.congr hbook, fun a p => ?_, htokens, fun p price k o ho => ?_⟩
      · rw [hreserve, mdReserved_congr hbook]
        exact hmoved.reserved a p
      · rw [mdLevel_congr hbook] at ho
        exact hmoved.placed p price k o ho

end OmniCore
