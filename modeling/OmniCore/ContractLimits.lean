import OmniCore.ContractLive
import OmniCore.ContractRest
import OmniCore.ContractSides

/-! # ContractLimits — who buys, who sells, and at which price

    A match should have one order that buys and one that sells, at a price within the limits
    of both. The engine compares the two trading actions with each other and with one
    constant at a time; which bytes they are nobody checks. Amounts are converted to
    signed numbers, and a negative one turns the direction of a trade around. -/

namespace OmniCore

open Std (ExtTreeMap)
open Machine TextRec MapSum Exec

/-! ## Matches within limits -/

/-- The order of a match that buys. -/
def buyOrder (pold pnew : CMPContractDex) : CMPContractDex :=
  if pold.tradingAction = actionBuy then pold else pnew

/-- The order of a match that sells. -/
def sellOrder (pold pnew : CMPContractDex) : CMPContractDex :=
  if pold.tradingAction = actionSell then pold else pnew

/-- A match between a buyer and a seller: whoever is longer afterwards placed the order that buys, and
    the price of the trade, which is that of the resting order, is within both limits. -/
structure FairMatch (pre : State) (pold pnew : CMPContractDex) : Prop where
  buys : (buyOrder pold pnew).tradingAction = actionBuy
  sells : (sellOrder pold pnew).tradingAction = actionSell
  grows : ∀ rem post, executeMatch pold pnew pre = .ok rem post → ∀ a,
    pre.getMPbalance a pold.property .possitiveBalance <
      post.getMPbalance a pold.property .possitiveBalance → a = (buyOrder pold pnew).addr
  buyLimit : pold.effectivePrice ≤ (buyOrder pold pnew).effectivePrice
  sellLimit : (sellOrder pold pnew).effectivePrice ≤ pold.effectivePrice

/-- The matches of a trace are within limits. -/
def Event.Fair : Event → Prop
  | .matched pre _ pold pnew => FairMatch pre pold pnew
  | _ => True

/-- A trade whose action is one of the two that exist, for an amount that is a positive `int64_t`. -/
def ContractOp.Sane : ContractOp → Prop
  | .trade tx => (tx.tradingAction.toNat = actionBuy ∨ tx.tradingAction.toNat = actionSell) ∧
      tx.nValue.toNat < 2 ^ 63
  | _ => True

instance (op : ContractOp) : Decidable op.Sane := by
  cases op <;> unfold ContractOp.Sane <;> infer_instance

/-! ## One match -/

/-- An order that buys or sells, for no negative amount. What nothing is left of may have any
    action. -/
structure CMPContractDex.Sane (o : CMPContractDex) : Prop where
  nonneg : 0 ≤ o.amountForsale
  directed : o.Directed

/-- Every resting order buys or sells. -/
def BookSane : State → Prop :=
  BookOf fun o => (o.tradingAction = actionBuy ∨ o.tradingAction = actionSell) ∧ 0 ≤ o.amountForsale

/-- For a positive amount, only the buyer can become longer. -/
theorem MatchEffect.longer {s s' : State} {pold pnew : CMPContractDex} {mp : TallyMap}
    {basisS basisB rS rB : Int} {value : Text}
    (heff : MatchEffect s s' pold pnew mp basisS basisB rS rB value)
    (hpos : 0 < (parties s pold pnew).nCouldBuy) {a : Address}
    (hmore : s.getMPbalance a pold.property .possitiveBalance <
      s'.getMPbalance a pold.property .possitiveBalance) :
    a = (parties s pold pnew).buyer := by
  rw [(getMPbalance_position _ a _).1, (getMPbalance_position _ a _).1, (heff.positions_eq a _).1,
    (money_positions heff.positions a).1] at hmore
  by_contra hother
  rw [if_neg hother] at hmore
  -- the seller closes longs, or keeps what it has
  have hseller : (parties s pold pnew).sellerLong ≤ 0 := by
    unfold Parties.sellerLong
    split
    · next hlong => omega
    · exact le_rfl
  split at hmore
  · omega
  · omega

/-- **ONE MATCH IS FAIR** if both orders buy or sell and something of both is left. -/
theorem fairMatch_of_sane {s : State} {price : Nat} {key : OrderKey} {pold pnew : CMPContractDex}
    (hc : Candidate s price key pold pnew)
    (hold : pold.tradingAction = actionBuy ∨ pold.tradingAction = actionSell)
    (hnew : pnew.tradingAction = actionBuy ∨ pnew.tradingAction = actionSell)
    (hpos : 0 < (parties s pold pnew).nCouldBuy) : FairMatch s pold pnew := by
  have hgrows : ∀ rem post, executeMatch pold pnew s = .ok rem post → ∀ a,
      s.getMPbalance a pold.property .possitiveBalance <
        post.getMPbalance a pold.property .possitiveBalance →
      a = (parties s pold pnew).buyer := by
    intro rem post hrun a hmore
    obtain ⟨-, mp, basisS, basisB, rS, rB, value, heff⟩ :=
      wp_ok (executeMatch_posts pold pnew s) hrun
    exact heff.longer hpos hmore
  have hpass := hc.passes
  have hprice := hc.priceEq
  unfold passesPrice at hpass
  have hne : actionBuy ≠ actionSell := by decide
  rcases hold with hold | hold
  · -- the resting order buys, so the incoming one sells
    have hsell : pnew.tradingAction = actionSell := by
      rcases hnew with hnew | hnew
      · exact absurd (hold.trans hnew.symm) hc.action
      · exact hnew
    have hbuyer : buyOrder pold pnew = pold := if_pos hold
    have hseller : sellOrder pold pnew = pnew := if_neg fun h => hne (hold.symm.trans h)
    have hparty : (parties s pold pnew).buyer = pold.addr := by
      show (if pold.tradingAction = actionSell then pnew else pold).addr = pold.addr
      rw [if_neg fun h => hne (hold.symm.trans h)]
    have hlimit : ¬ pnew.effectivePrice > price := by
      intro hgt
      rw [if_neg fun h => hne (h.1.symm.trans hsell), if_pos ⟨hsell, hgt⟩] at hpass
      cases hpass
    refine ⟨by rw [hbuyer, hold], by rw [hseller, hsell], ?_, ?_, ?_⟩
    · rw [hbuyer, ← hparty]
      exact hgrows
    · rw [hbuyer]
    · rw [hseller, hprice]
      exact not_lt.mp hlimit
  · -- the resting order sells, so the incoming one buys
    have hbuy : pnew.tradingAction = actionBuy := by
      rcases hnew with hnew | hnew
      · exact hnew
      · exact absurd (hold.trans hnew.symm) hc.action
    have hbuyer : buyOrder pold pnew = pnew := if_neg fun h => hne (h.symm.trans hold)
    have hseller : sellOrder pold pnew = pold := if_pos hold
    have hparty : (parties s pold pnew).buyer = pnew.addr := by
      show (if pold.tradingAction = actionSell then pnew else pold).addr = pnew.addr
      rw [if_pos hold]
    have hlimit : ¬ pnew.effectivePrice < price := by
      intro hlt
      rw [if_pos ⟨hbuy, hlt⟩] at hpass
      cases hpass
    refine ⟨by rw [hbuyer, hbuy], by rw [hseller, hold], ?_, ?_, ?_⟩
    · rw [hbuyer, ← hparty]
      exact hgrows
    · rw [hbuyer, hprice]
      exact not_lt.mp hlimit
    · rw [hseller]

/-! ## Whole runs -/

/-- What remains of a resting order, which may be nothing. -/
theorem replacement_sane {s : State} {pold pnew : CMPContractDex}
    (hact : pold.tradingAction = actionBuy ∨ pold.tradingAction = actionSell)
    (hnonneg : 0 ≤ pold.amountForsale) :
    ((remainders (parties s pold pnew) pold pnew).replacement.tradingAction = actionBuy ∨
      (remainders (parties s pold pnew) pold pnew).replacement.tradingAction = actionSell) ∧
      0 ≤ (remainders (parties s pold pnew) pold pnew).replacement.amountForsale := by
  refine ⟨?_, replacement_nonneg hnonneg⟩
  obtain ⟨r, hr⟩ := (remainders_shape s pold pnew).1
  rw [hr]
  exact hact

/-- What a match leaves of an incoming order. -/
theorem CMPContractDex.Sane.incomingAfter {s : State} {pold pnew : CMPContractDex} (hnew : pnew.Sane)
    (hold : pold.tradingAction = actionBuy ∨ pold.tradingAction = actionSell)
    (hnonneg : 0 ≤ pold.amountForsale) :
    (remainders (parties s pold pnew) pold pnew).pnew.Sane := by
  rw [(remainders_amounts s pold pnew (Or.inr hold)).2]
  have hnew0 := hnew.nonneg
  refine ⟨?_, fun hpos => hnew.directed ?_⟩
  · show 0 ≤ pnew.amountForsale - min pold.amountForsale pnew.amountForsale
    omega
  · have hpos' : 0 < pnew.amountForsale - min pold.amountForsale pnew.amountForsale := hpos
    omega

theorem newContractOrder_sane {serial : Nat} {a : Address} {p desired : PropertyId} {amount d : Int}
    {block idx price action : Nat} {txid : Txid} (hnonneg : 0 ≤ amount)
    (haction : 0 < amount → action = actionBuy ∨ action = actionSell) :
    (newContractOrder serial a p amount block desired d txid idx price action).Sane :=
  ⟨hnonneg, haction⟩

/-- An order that `marginCall` places buys or sells unless it is for nothing. -/
theorem marginOrder_sane (w : World) (a : Address) (p : PropertyId) (price : Nat) :
    (marginOrder w a p price).Sane := by
  have hshort : 0 ≤ w.state.getMPbalance a p .negativeBalance := by
    rw [State.getMPbalance_eq _ _ _ (by decide)]
    exact TallyMap.money_nonneg _ _ _ (by decide)
  have hlong : 0 ≤ w.state.getMPbalance a p .possitiveBalance := by
    rw [State.getMPbalance_eq _ _ _ (by decide)]
    exact TallyMap.money_nonneg _ _ _ (by decide)
  by_cases hs : w.state.getMPbalance a p .negativeBalance > 0
  · -- a short position is bought back
    have horder : marginOrder w a p price = newContractOrder (w.nextSerial p) a p
        (w.state.getMPbalance a p .negativeBalance) 1 1 0 0 1 price actionBuy := by
      simp [marginOrder, hs]
    rw [horder]
    exact newContractOrder_sane hshort fun _ => Or.inl rfl
  · by_cases hl : w.state.getMPbalance a p .possitiveBalance > 0
    · -- a long one is sold
      have horder : marginOrder w a p price = newContractOrder (w.nextSerial p) a p
          (w.state.getMPbalance a p .possitiveBalance) 1 1 0 0 1 price actionSell := by
        simp [marginOrder, hs, hl, actionSell, actionBuy]
      rw [horder]
      exact newContractOrder_sane hlong fun _ => Or.inr rfl
    · have horder : marginOrder w a p price = newContractOrder (w.nextSerial p) a p
          (w.state.getMPbalance a p .possitiveBalance) 1 1 0 0 1 price actionInvalid := by
        simp [marginOrder, hs, hl, actionInvalid, actionBuy]
      rw [horder]
      exact newContractOrder_sane hlong fun hpos => absurd hpos hl

/-- The book is sane, so are the orders of the running calls, and the matches so far were fair. -/
structure FairInv (w : World) : Prop where
  book : BookSane w.state
  takers : ∀ f ∈ w.frames, f.taker.Sane
  fair : ∀ e ∈ w.trace, e.Fair

/-- The matches so far were fair. -/
def AllFair (w : World) : Prop := ∀ e ∈ w.trace, e.Fair

theorem AllFair.note {w w' : World} {e : Event} (h : AllFair w) (ht : w'.trace = e :: w.trace)
    (he : e.Fair) : AllFair w' := by
  intro x hx
  rw [ht] at hx
  rcases List.mem_cons.mp hx with rfl | hx
  · exact he
  · exact h x hx

/-- A step that leaves book and frames alone. -/
theorem FairInv.quiet {w w' : World} (h : FairInv w) (ht : w'.trace = w.trace)
    (hf : w'.frames = w.frames) (hbook : w'.state.contractdex = w.state.contractdex) :
    FairInv w' where
  book := h.book.congr hbook
  takers := by rw [hf]; exact h.takers
  fair := by rw [ht]; exact h.fair

/-- A step that notes one event besides. -/
theorem FairInv.note {w w' : World} {e : Event} (h : FairInv w) (ht : w'.trace = e :: w.trace)
    (he : e.Fair) (hf : w'.frames = w.frames)
    (hbook : w'.state.contractdex = w.state.contractdex) : FairInv w' where
  book := h.book.congr hbook
  takers := by rw [hf]; exact h.takers
  fair := AllFair.note h.fair ht he

theorem FairInv.place {w : World} (h : FairInv w) {o : CMPContractDex} (ho : o.Sane) :
    FairInv (w.place o) where
  book := h.book
  takers := List.forall_mem_cons.mpr ⟨ho, h.takers⟩
  fair := AllFair.note h.fair rfl trivial

/-- A candidate that the engine fills makes a fair match. -/
theorem FairInv.matched {w : World} {fs : List Frame} {price : Nat} {key : OrderKey}
    {pold pnew : CMPContractDex} (h : FairInv w) (hf : w.frames = ⟨pnew, none⟩ :: fs)
    (hc : Candidate w.state price key pold pnew)
    (hbuy : (parties w.state pold pnew).nCouldBuy ≠ 0) : FairMatch w.state pold pnew := by
  have hnew : pnew.Sane := h.takers ⟨pnew, none⟩ (by rw [hf]; exact List.mem_cons_self)
  obtain ⟨hold, hnonneg⟩ := h.book.all pold (h.book.wf.resting hc.inBook)
  have hnew0 := hnew.nonneg
  have hpos : 0 < (parties w.state pold pnew).nCouldBuy := by
    rw [nCouldBuy_eq] at hbuy ⊢
    omega
  refine fairMatch_of_sane hc hold (hnew.directed ?_) hpos
  rw [nCouldBuy_eq] at hpos
  omega

theorem fairInv_engine : EngineInv FairInv fun _ w => AllFair w where
  condition := fun hI _ _ => hI.fair
  visit := by
    intro w fs price key pold pnew hI _ _
    refine wp_mono (visitCandidate_spec pold pnew w) ?_ ?_
    · rintro _ w' ⟨m, -, rfl⟩
      exact hI.note rfl trivial rfl rfl
    · rintro e w' ⟨-, ht⟩
      exact AllFair.note hI.fair ht trivial
  fill := by
    intro w fs price key pold pnew hI hf hc hbuy
    have hfair : FairMatch w.state pold pnew := hI.matched hf hc hbuy
    refine wp_mono (fillOrder_spec pold pnew w) ?_ ?_
    · rintro rem w' ⟨rfl, s', mp, basisS, basisB, rS, rB, value, heff, rfl⟩
      have hnew : pnew.Sane := hI.takers ⟨pnew, none⟩ (by rw [hf]; exact List.mem_cons_self)
      obtain ⟨hold, hnonneg⟩ := hI.book.all pold (hI.book.wf.resting hc.inBook)
      refine ⟨hI.book.congr (by rw [heff.state]), ?_, AllFair.note hI.fair rfl hfair⟩
      refine List.forall_mem_cons.mpr ⟨hnew.incomingAfter hold hnonneg, fun f hmem => ?_⟩
      exact hI.takers f (List.mem_of_mem_tail hmem)
    · rintro e w' ⟨-, ht⟩
      exact AllFair.note hI.fair ht hfair
  check := by
    intro w p a last hI _
    exact hI.note rfl trivial rfl rfl
  call := by
    intro w p a last rest hI _ _ _
    exact hI.place (marginOrder_sane w a p w.state.marketPrice)
  reset := by
    intro w s p a last liq hI _ _ _
    rw [wp_onState]
    refine wp_mono (assertUpdate_posts _ _ _ _ w.state) ?_ (fun _ _ h => ?_)
    · rintro _ s' ⟨m, rfl, -⟩
      exact hI.quiet rfl rfl rfl
    · exact hI.fair
  erase := by
    intro w w0 fs price key pold pnew rem hI _ _ hc hrem hf
    refine wp_mono (eraseMatched_spec price key pold pnew rem w) ?_ ?_
    · rintro _ w' ⟨hplace, rfl⟩
      obtain ⟨hp, hr, hk⟩ := hI.book.wf _ _ _ _ hplace
      have hold : Resting w.state pold := hI.book.wf.resting hplace
      obtain ⟨hact, hnonneg⟩ := hI.book.all pold hold
      subst hrem
      rw [hf]
      refine ⟨?_, ?_, AllFair.note hI.fair rfl trivial⟩
      · rw [← hr, ← hk]
        exact hI.book.replaceMatched hold hp fun _ => replacement_sane hact hnonneg
      · have htakers := hI.takers
        rw [hf] at htakers
        exact List.forall_mem_cons.mpr ⟨htakers ⟨_, some (pold, pnew)⟩ List.mem_cons_self,
          fun f hmem => htakers f (List.mem_cons_of_mem _ hmem)⟩
    · rintro e w' ⟨-, -, rfl⟩
      exact AllFair.note hI.fair rfl trivial
  rest := by
    intro w fs o hI hf
    refine wp_imp (restOrder_spec o w _) ?_
    rintro _ w' rfl
    have ho : o.Sane := hI.takers ⟨o, none⟩ (by rw [hf]; exact List.mem_cons_self)
    exact ⟨hI.book.restState fun hpos => ⟨ho.directed hpos, ho.nonneg⟩, fun f hmem => hI.takers f (List.mem_of_mem_tail hmem), hI.fair⟩
  fuel := fun hI => hI.fair
  undefined := fun hI => hI.fair

theorem tradeOrder_sane (w : World) {tx : CMPTransaction} (h : (ContractOp.trade tx).Sane) :
    (tradeOrder w tx).Sane := by
  obtain ⟨hact, hlt⟩ := h
  refine newContractOrder_sane ?_ fun _ => hact
  rw [toInt64_natCast hlt]
  omega

theorem fairInv_run : RunInv ContractOp.Sane FairInv fun _ w => AllFair w where
  toEngineInv := fairInv_engine
  stops := by
    intro e w w' hI ht _ x hx
    rw [ht] at hx
    exact hI.fair x hx
  submit := by
    intro w op _ hI _
    exact hI.note rfl trivial rfl rfl
  reserve := by
    intro w tx m hop hI _ _ _ _
    have hres : FairInv (reservedWorld w tx m) := hI.quiet rfl rfl rfl
    exact ⟨fun _ => hres, fun _ => hres.place (tradeOrder_sane w hop)⟩
  created := by
    intro w tx h _ hI _ _
    exact hI.quiet rfl rfl rfl

/-- **MATCHES ARE BETWEEN A BUYER AND A SELLER, WITHIN THE LIMITS OF BOTH**: every match of a run of
    contract transactions, if every trade carries one of the two trading actions and an amount
    that is a positive `int64_t`. -/
theorem matches_within_limits (s : State) (hs : BookSane s) (fuel : Nat) (ops : List ContractOp)
    (hops : ∀ op ∈ ops, op.Sane) :
    wp (runContracts fuel ops) (fun _ w => ∀ e ∈ w.trace, e.Fair)
      (fun _ w => ∀ e ∈ w.trace, e.Fair) (World.start s) := by
  have hstart : FairInv (World.start s) :=
    ⟨hs, by simp [World.start], by simp [World.start]⟩
  exact wp_imp (runContracts_rule fairInv_run fuel ops hops hstart rfl) fun _ w h => h.1.fair

/-- One trade, from an empty book. -/
theorem matches_within_limits_quietTrade :
    BookSane fundedState ∧ (∀ op ∈ quietTrade, op.Sane) ∧
    wp (runContracts 3 quietTrade) (fun _ w => ∀ e ∈ w.trace, e.Fair)
      (fun _ w => ∀ e ∈ w.trace, e.Fair) (World.start fundedState) :=
  ⟨bookOf_empty rfl, by decide, matches_within_limits fundedState (bookOf_empty rfl) 3 quietTrade
    (by decide)⟩

/-- `A` bids 100 for one contract; the order of `B` has the trading action 5. -/
def unknownAction : List ContractOp :=
  [.trade (orderTx traderA 2 11 1 1 100), .trade (orderTx traderB 3 12 5 1 80)]

/-- A match without an order that sells. -/
def Event.hasNoSeller : Event → Bool
  | .matched _ _ pold pnew => (sellOrder pold pnew).tradingAction != actionSell
  | _ => false

theorem Event.Fair.hasSeller {e : Event} (h : e.Fair) : e.hasNoSeller = false := by
  cases e with
  | matched pre outer pold pnew =>
      show ((sellOrder pold pnew).tradingAction != actionSell) = false
      rw [h.sells]
      rfl
  | _ => rfl

set_option maxRecDepth 4000 in
private theorem unknownAction_hasNoSeller :
    (returned (runContracts 3 unknownAction) (World.start (marketState 0 1))).map
      (fun w => w.trace.any Event.hasNoSeller) = some true := by
  decide +kernel

/-- **AN ORDER THAT DOES NOT SELL IS MATCHED AS THE SELLER**, whatever its price. -/
theorem unknownAction_matched :
    ∃ w, returned (runContracts 3 unknownAction) (World.start (marketState 0 1)) = some w ∧
      ¬ ∀ e ∈ w.trace, e.Fair := by
  obtain ⟨w, hrun, hbad⟩ := Option.map_eq_some_iff.mp unknownAction_hasNoSeller
  refine ⟨w, hrun, fun hfair => ?_⟩
  obtain ⟨e, he, hnone⟩ := List.any_eq_true.mp hbad
  rw [(hfair e he).hasSeller] at hnone
  cases hnone

end OmniCore
