import OmniCore.MetaDExShutdown
import OmniCore.MetaDExTx
import OmniCore.TokenMoves

/-! # MarketMoves — the token market only moves tokens

    A fill debits both sides what it credits the other one, and the fee it takes is cached.
    Cancels and shutdowns give back what an order still has. Only the balance of the one
    who trades is debited, and the gate has asked whether that is frozen. -/

namespace OmniCore

open Std (ExtTreeMap)
open Machine TextRec MapSum Exec

/-! ## The book -/

section Book

variable {height : Int} {σ : Settings}

/-- A price level is written; what it holds has something left. -/
theorem moves_setMdLevel (p : PropertyId) (price : ℚ) (level : MdSet → MdSet)
    (hlevel : ∀ old : MdSet, (∀ (k : OrderKey) o, old[k]? = some o → 0 < o.amountRemaining) →
      ∀ (k : OrderKey) o, (level old)[k]? = some o → 0 < o.amountRemaining) :
    Moves height σ 0 (fun _ => True)
      (modify fun s => s.setMdLevel p price (level (s.mdLevel p price)) : ExecM PUnit) := by
  refine Counts.modify trivial fun t s hs => ?_
  rw [add_zero]
  refine ⟨hs.count.congr rfl rfl, hs.settings, fun q price' k o ho => ?_⟩
  rw [mdLevel_setMdLevel] at ho
  split at ho
  · exact hlevel _ (fun k o => hs.book p price k o) k o ho
  · exact hs.book q price' k o ho

theorem moves_recordMatchedTrade (txid1 txid2 : Txid) (address1 address2 : Address)
    (prop1 prop2 : PropertyId) (amount1 amount2 : Int) (blockNum : Nat) (fee : Int) :
    Moves height σ 0 (fun _ => True)
      (recordMatchedTrade txid1 txid2 address1 address2 prop1 prop2 amount1 amount2 blockNum fee) :=
  moves_modify fun _ => ⟨rfl, rfl, rfl, rfl⟩

theorem moves_recordMetaDExCancelTX (txidMaster txidSub : Txid) (fValid : Bool) (nBlock : Nat)
    (p : PropertyId) (nValue : Int) :
    Moves height σ 0 (fun _ => True)
      (recordMetaDExCancelTX txidMaster txidSub fValid nBlock p nValue) :=
  moves_modify fun _ => ⟨rfl, rfl, rfl, rfl⟩

end Book

/-! ## Fills -/

/-- The fee that a trade under these parameters takes. -/
def Settings.tradingFee (σ : Settings) (pold pnew : CMPMetaDEx) (buyerAmountGot : Int) : Int :=
  if σ.params.isFeatureActivated .fees pnew.block ∧ omniPropertyTMSC < pold.property ∧
      omniPropertyTMSC < pold.desiredProperty then buyerAmountGot.tdiv 2000 else 0

theorem Settings.tradingFee_le (σ : Settings) (pold pnew : CMPMetaDEx) {got : Int} (hgot : 0 ≤ got) :
    σ.tradingFee pold pnew got ≤ got := by
  unfold Settings.tradingFee
  split
  · rw [Int.tdiv_eq_ediv_of_nonneg hgot]
    omega
  · exact hgot

section Fills

variable {height : Int} {σ : Settings} {pold pnew : CMPMetaDEx}

theorem moves_couldBuy (hold : 0 ≤ pold.amountRemaining) :
    Moves height σ 0 (fun n => 0 ≤ n) (couldBuy pold pnew) := by
  refine Counts.seq (moves_convertTo256 _) fun _ _ => ?_
  refine Counts.seq (moves_convertTo256 _) fun _ _ => ?_
  refine Counts.seq (moves_convertTo256 _) fun _ _ => ?_
  refine Counts.seq (moves_convertTo256 _) fun _ _ => ?_
  refine Counts.ite (fun _ => (moves_convertTo64 _).imp fun n hn => ?_) fun _ => Counts.pure hold
  rw [hn.1]
  exact Int.natCast_nonneg _

theorem moves_wouldPay (nCouldBuy : Int) :
    Moves height σ 0 (fun n => 0 ≤ n) (wouldPay pold nCouldBuy) := by
  refine Counts.seq (moves_convertTo256 _) fun _ _ => ?_
  refine Counts.seq (moves_convertTo256 _) fun _ _ => ?_
  refine Counts.seq (moves_convertTo256 _) fun _ _ => ?_
  refine (moves_convertTo64 _).imp fun n hn => ?_
  rw [hn.1]
  exact Int.natCast_nonneg _

/-- The fee stays outstanding: it is in the cache before the buyer gets less. -/
theorem moves_stripFee (got : Int) (hheight : IsInt64 pnew.block) :
    Moves pnew.block σ (Pi.single pnew.desiredProperty (σ.tradingFee pold pnew got))
      (fun fee => fee = σ.tradingFee pold pnew got) (stripFee pold pnew got) := by
  refine Counts.get fun t s hs => ?_
  have hparams : s.params = σ.params := by rw [← hs.settings]; rfl
  rw [hparams]
  unfold Settings.tradingFee
  refine Counts.ite (fun hfee => ?_) fun hfree => ?_
  · rw [if_pos hfee]
    exact ((moves_addFee pnew.desiredProperty (got.tdiv 2000) hheight).bind fun _ _ =>
      Counts.pure (R := fun fee => fee = got.tdiv 2000) rfl).of_eq (add_zero _)
  · rw [if_neg hfree, Pi.single_zero]
    exact Counts.pure rfl

/-- What is left of a matched order has something left. -/
theorem mdReplaceMatched_open {level : MdSet} {o : CMPMetaDEx}
    (h : ∀ (k : OrderKey) o', level[k]? = some o' → 0 < o'.amountRemaining) (k : OrderKey)
    {o' : CMPMetaDEx} (ho : (mdReplaceMatched level o)[k]? = some o') : 0 < o'.amountRemaining := by
  have herased : (level.erase o.key)[k]? = some o' → 0 < o'.amountRemaining := by
    rw [getElem?_erase_eq]
    split
    · intro hnone
      cases hnone
    · exact h k o'
  unfold mdReplaceMatched at ho
  split at ho
  · next hleft =>
      rw [getElem?_insert_eq] at ho
      split at ho
      · cases ho
        exact hleft
      · exact herased ho
  · exact herased ho

/-- The four postings of a fill, after its fee was cached. -/
theorem moves_fillPostings {α : Type} {got paid fee : Int} {k : ExecM α} {R : α → Prop}
    (hfree : σ.isAddressFrozen pnew.addr pnew.property = false) (hpaid : 0 ≤ paid)
    (hfee : fee ≤ got) (hsells : pold.property = pnew.desiredProperty)
    (hwants : pold.desiredProperty = pnew.property) (hk : Moves height σ 0 R k) :
    Moves height σ (-Pi.single pnew.desiredProperty fee) R (do
      assertUpdate pnew.addr pnew.property (-paid) .balance
      assertUpdate pold.addr pold.desiredProperty paid .balance
      assertUpdate pold.addr pold.property (-got) .metaDExReserve
      assertUpdate pnew.addr pnew.desiredProperty (got - fee) .balance
      k) := by
  rw [hwants, hsells]
  refine moves_pair pnew.addr pold.addr pnew.property hpaid holds_balance holds_balance
    (fun _ => hfree) ?_
  have hsold : Moves height σ (Pi.single pnew.desiredProperty (-got)) (fun _ => True)
      (assertUpdate pold.addr pnew.desiredProperty (-got) .metaDExReserve) :=
    moves_assertUpdate _ _ _ trivial fun hty => by cases hty
  have hbought : Moves height σ (Pi.single pnew.desiredProperty (got - fee)) (fun _ => True)
      (assertUpdate pnew.addr pnew.desiredProperty (got - fee) .balance) :=
    moves_assertUpdate _ _ _ trivial fun _ hneg => by omega
  refine (hsold.bind fun _ _ => hbought.bind fun _ _ => hk).of_eq ?_
  rw [Pi.single_neg, Pi.single_sub]
  abel

/-- **A FILL MOVES TOKENS**, and leaves the new order what it is but for what remains of it. -/
theorem moves_executeTrade (price : ℚ) {got paid : Int} (hheight : IsInt64 pnew.block)
    (hfree : σ.isAddressFrozen pnew.addr pnew.property = false) (hgot : 0 ≤ got) (hpaid : 0 ≤ paid)
    (hsells : pold.property = pnew.desiredProperty) (hwants : pold.desiredProperty = pnew.property) :
    Moves pnew.block σ 0
      (fun t => t.pnew = { pnew with amountRemaining := t.pnew.amountRemaining })
      (executeTrade price pold pnew got paid) := by
  refine Counts.seq (moves_assertThat _ (by decide)) fun _ _ => ?_
  refine Counts.seq (moves_assertThat _ (by decide)) fun _ _ => ?_
  refine Counts.seq (moves_assertThat _ (by decide)) fun _ _ => ?_
  refine Counts.seq (moves_assertThat _ (by decide)) fun _ _ => ?_
  refine Counts.of_eq ((moves_stripFee got hheight).bind fun fee hfee => ?_) (add_neg_cancel _)
  have hle := σ.tradingFee_le pold pnew hgot
  rw [← hfee] at hle ⊢
  refine moves_fillPostings hfree hpaid hle hsells hwants ?_
  refine Counts.seq (moves_recordMatchedTrade _ _ _ _ _ _ _ _ _ _) fun _ _ => ?_
  refine Counts.seq (moves_setMdLevel pnew.desiredProperty price
    (fun old => mdReplaceMatched old { pold with amountRemaining := pold.amountRemaining - got })
    fun old hold k o ho => mdReplaceMatched_open hold k ho) fun _ _ => ?_
  exact Counts.pure rfl

/-- A visit to a resting order of a good price level. -/
theorem moves_matchOffer (price : ℚ) (t : MdTrade) (pold : CMPMetaDEx) (hheight : IsInt64 t.pnew.block)
    (hfree : σ.isAddressFrozen t.pnew.addr t.pnew.property = false) :
    Moves t.pnew.block σ 0
      (fun t' => t'.pnew = { t.pnew with amountRemaining := t'.pnew.amountRemaining })
      (matchOffer price t pold) := by
  have hstay : Moves t.pnew.block σ 0
      (fun t' => t'.pnew = { t.pnew with amountRemaining := t'.pnew.amountRemaining })
      (pure t : ExecM MdTrade) := Counts.pure rfl
  refine Counts.seq (moves_assertThat _ (by decide)) fun _ _ => ?_
  refine Counts.ite (fun _ => hstay) fun hwants => ?_
  refine Counts.seq (moves_assertThat _ (by decide)) fun _ hold => ?_
  refine Counts.seq (moves_assertThat _ (by decide)) fun _ _ => ?_
  refine Counts.seq (moves_assertThat _ (by decide)) fun _ _ => ?_
  refine Counts.seq (moves_assertThat _ (by decide)) fun _ hsells => ?_
  refine Counts.seq (moves_assertThat _ (by decide)) fun _ _ => ?_
  refine Counts.seq (moves_assertThat _ (by decide)) fun _ _ => ?_
  rw [decide_eq_true_eq] at hold hsells
  refine Counts.seq (moves_couldBuy hold.le) fun got hgot => ?_
  refine Counts.ite (fun _ => hstay) fun _ => ?_
  refine Counts.seq (moves_wouldPay got) fun paid hpaid => ?_
  refine Counts.ite (fun _ => hstay) fun _ => ?_
  exact moves_executeTrade price hheight hfree hgot hpaid hsells (not_not.mp hwants)

end Fills

/-! ## The loop of a new order -/

section Loop

variable {σ : Settings} {new : CMPMetaDEx}

/-- The loop changes the new order by what remains of it. -/
def MdTrade.Continues (new : CMPMetaDEx) (t : MdTrade) : Prop :=
  t.pnew = { new with amountRemaining := t.pnew.amountRemaining }

theorem MdTrade.Continues.trans {t t' : MdTrade} (h : t.Continues new)
    (h' : t'.pnew = { t.pnew with amountRemaining := t'.pnew.amountRemaining }) : t'.Continues new := by
  unfold MdTrade.Continues at *
  rw [h] at h'
  exact h'

theorem moves_visitOffer (price : ℚ) (hheight : IsInt64 new.block)
    (hfree : σ.isAddressFrozen new.addr new.property = false) (t : MdTrade) (ht : t.Continues new)
    (k : OrderKey) : Moves new.block σ 0 (MdTrade.Continues new) (visitOffer price t k) := by
  have hstay : Moves new.block σ 0 (MdTrade.Continues new) (pure t : ExecM MdTrade) := Counts.pure ht
  refine Counts.ite (fun _ => hstay) fun _ => Counts.get fun _ s _ => ?_
  split
  · have hblock : t.pnew.block = new.block := by rw [ht]
    have haddr : t.pnew.addr = new.addr := by rw [ht]
    have hproperty : t.pnew.property = new.property := by rw [ht]
    rw [← hblock] at hheight ⊢
    rw [← haddr, ← hproperty] at hfree
    exact (moves_matchOffer price t _ hheight hfree).imp fun _ h => ht.trans h
  · exact hstay

theorem moves_visitLevel (hheight : IsInt64 new.block)
    (hfree : σ.isAddressFrozen new.addr new.property = false) (t : MdTrade) (ht : t.Continues new)
    (price : ℚ) : Moves new.block σ 0 (MdTrade.Continues new) (visitLevel t price) := by
  refine Counts.ite (fun _ => Counts.pure ht) fun _ => Counts.get fun _ s _ => ?_
  exact Counts.foldlM (fun t ht k _ => moves_visitOffer price hheight hfree t ht k) ht

/-- `x_Trade` moves tokens. -/
theorem moves_xTradeMetaDEx (hheight : IsInt64 new.block)
    (hfree : σ.isAddressFrozen new.addr new.property = false) :
    Moves new.block σ 0 (MdTrade.Continues new) (xTradeMetaDEx new) := by
  refine Counts.get fun _ s _ => ?_
  exact Counts.foldlM (fun t ht price _ => moves_visitLevel hheight hfree t ht price) rfl

/-- What remains of an order goes into the book, and its tokens into the reserve. -/
theorem moves_restOrder {height : Int} {o : CMPMetaDEx} (hpos : 0 < o.amountRemaining)
    (hfree : σ.isAddressFrozen o.addr o.property = false) :
    Moves height σ 0 (fun _ => True) (do
      let inserted ← metaDExInsert o
      if inserted then
        reserveRemaining o
        pure 0
      else
        pure (metaDExError - 70) : ExecM Int) := by
  have hinsert : Moves height σ 0 (fun _ => True) (metaDExInsert o) := by
    refine ⟨fun {t s} hs => ?_⟩
    unfold metaDExInsert
    rw [wp_bind, wp_get, wp_ite]
    refine ⟨fun _ => (wp_pure _ _ _ _).mpr ⟨trivial, ?_⟩, fun _ => ?_⟩
    · rwa [add_zero]
    rw [wp_bind, wp_set, wp_pure, add_zero]
    refine ⟨trivial, hs.count.congr rfl rfl, hs.settings, fun p price k o' ho => ?_⟩
    rw [mdLevel_setMdLevel] at ho
    split at ho
    · rw [getElem?_insert_eq] at ho
      split at ho
      · cases ho
        exact hpos
      · exact hs.book _ _ k o' ho
    · exact hs.book p price k o' ho
  have hreserve : Moves height σ 0 (fun _ => True) (reserveRemaining o) := by
    have hdebit : Moves height σ (Pi.single o.property (-o.amountRemaining)) (fun _ => True)
        (assertUpdate o.addr o.property (-o.amountRemaining) .balance) :=
      moves_assertUpdate _ _ _ trivial fun _ _ => hfree
    refine (hdebit.bind fun _ _ => moves_assertUpdate o.addr o.property o.amountRemaining
      holds_metaDExReserve fun hty => by cases hty).of_eq ?_
    rw [Pi.single_neg, neg_add_cancel]
  exact Counts.seq hinsert fun _ _ => Counts.ite
    (fun _ => Counts.seq hreserve fun _ _ => Counts.pure trivial) fun _ => Counts.pure trivial

/-- **AN ORDER THAT IS ADDED** moves tokens. -/
theorem moves_metaDExAdd (hheight : IsInt64 new.block)
    (hfree : σ.isAddressFrozen new.addr new.property = false) :
    Moves new.block σ 0 (fun _ => True) (metaDExAdd new) := by
  refine Counts.ite (fun _ => Counts.pure trivial) fun _ => ?_
  refine Counts.seq (moves_xTradeMetaDEx hheight hfree) fun t ht => ?_
  refine Counts.ite (fun hpos => moves_restOrder hpos ?_) fun _ => Counts.pure trivial
  have haddr : t.pnew.addr = new.addr := by rw [ht]
  have hproperty : t.pnew.property = new.property := by rw [ht]
  rw [haddr, hproperty]
  exact hfree

end Loop

/-! ## Orders that leave the book -/

section Leaving

variable {height : Int} {σ : Settings}

theorem moves_removeOrder (cancel : Option (Txid × Nat)) {e : MdPlaced}
    (hpos : 0 ≤ e.order.amountRemaining) :
    Moves height σ 0 (fun _ => True) (removeOrder cancel e) := by
  have hlevel : Moves height σ 0 (fun _ => True) (modify fun s =>
      s.setMdLevel e.property e.price ((s.mdLevel e.property e.price).erase e.key) : ExecM PUnit) := by
    refine moves_setMdLevel e.property e.price (fun old => old.erase e.key) fun old hold k o ho => ?_
    rw [getElem?_erase_eq] at ho
    split at ho
    · cases ho
    · exact hold k o ho
  refine moves_pair _ _ _ hpos holds_metaDExReserve holds_balance (fun hty => by cases hty) ?_
  cases cancel with
  | none => exact hlevel
  | some c =>
      obtain ⟨txid, block⟩ := c
      exact Counts.seq (moves_recordMetaDExCancelTX _ _ _ _ _ _) fun _ _ => hlevel

/-- The orders that a state has in its book can be taken out. -/
theorem moves_removeOrders {t : PropertyId → Int} {s : State} (hs : Standing height σ t s)
    {f : MdPlaced → ExecM Unit} (hf : ∀ e : MdPlaced, 0 ≤ e.order.amountRemaining →
      Moves height σ 0 (fun _ => True) (f e))
    {orders : List MdPlaced} (horders : ∀ e ∈ orders, e ∈ s.mdOrders) :
    Moves height σ 0 (fun _ => True) (orders.forM f) :=
  Counts.forM trivial fun e he => hf e (hs.book _ _ _ _ (mem_mdOrders.mp (horders e he))).le

theorem moves_cancelOrders (txid : Txid) (block : Nat) (rc : Int) (sel : MdPlaced → Bool) :
    Moves height σ 0 (fun _ => True) (cancelOrders txid block rc sel) := by
  refine Counts.get fun t s hs => ?_
  refine Counts.seq (moves_removeOrders hs (fun e he => moves_removeOrder _ he) fun e he => ?_)
    fun _ _ => Counts.pure trivial
  exact (List.mem_filter.mp he).1

theorem moves_metaDExShutdown : Moves height σ 0 (fun _ => True) metaDExShutdown := by
  refine Counts.get fun t s hs => ?_
  exact Counts.seq (moves_removeOrders hs (fun e he => moves_removeOrder none he) fun _ he => he)
    fun _ _ => Counts.pure trivial

theorem moves_metaDExShutdownAllPair :
    Moves height σ 0 (fun _ => True) metaDExShutdownAllPair := by
  refine Counts.get fun t s hs => ?_
  refine Counts.seq (moves_removeOrders hs (fun e he => ?_) fun _ he => he)
    fun _ _ => Counts.pure trivial
  exact Counts.ite (fun _ => moves_removeOrder none he) fun _ => Counts.throw (by decide)

end Leaving

/-! ## Transactions -/

section Transactions

variable {height : Int} {σ : Settings} {tx : CMPTransaction}

theorem moves_logicMathMetaDExTrade (hheight : IsInt64 tx.block)
    (hfree : σ.isAddressFrozen tx.sender tx.property.toNat = false) :
    Moves tx.block σ 0 (fun _ => True) (logicMathMetaDExTrade tx) := by
  refine Counts.get fun t s hs => ?_
  split
  · exact Counts.pure trivial
  · refine Counts.seq (moves_modify fun _ => ⟨rfl, rfl, rfl, rfl⟩) fun _ _ => ?_
    show Moves tx.metaDExOrder.block σ 0 (fun _ => True) (metaDExAdd tx.metaDExOrder)
    exact moves_metaDExAdd hheight hfree

theorem moves_logicMathMetaDExCancelPrice :
    Moves height σ 0 (fun _ => True) (logicMathMetaDExCancelPrice tx) := by
  refine Counts.get fun t s hs => ?_
  split
  · exact Counts.pure trivial
  · refine Counts.get fun _ _ _ => Counts.ite (fun _ => ?_) fun _ => Counts.pure trivial
    exact moves_cancelOrders _ _ _ _

theorem moves_logicMathMetaDExCancelPair :
    Moves height σ 0 (fun _ => True) (logicMathMetaDExCancelPair tx) := by
  refine Counts.get fun t s hs => ?_
  split
  · exact Counts.pure trivial
  · refine Counts.get fun _ _ _ => Counts.ite (fun _ => ?_) fun _ => Counts.pure trivial
    exact moves_cancelOrders _ _ _ _

theorem moves_logicMathMetaDExCancelEcosystem :
    Moves height σ 0 (fun _ => True) (logicMathMetaDExCancelEcosystem tx) := by
  refine Counts.get fun t s hs => ?_
  refine Counts.ite (fun _ => Counts.pure trivial) fun _ => ?_
  refine Counts.ite (fun _ => Counts.pure trivial) fun _ => ?_
  exact moves_cancelOrders _ _ _ _

end Transactions

end OmniCore
