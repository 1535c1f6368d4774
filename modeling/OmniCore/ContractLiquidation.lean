import OmniCore.ContractBook
import OmniCore.ContractRun

/-! # ContractLiquidation — the liquidation price after a run

    The liquidation price of an address should be that of its last match. It is written
    through a tally update, which adds, and for every counterpart that the loops of
    `x_Trade` reach, before it is known whether anything is traded. So it is right as
    long as every counterpart that is reached is traded with, and neither party was
    ever reached before. -/

namespace OmniCore

open Std (ExtTreeMap)
open Machine TextRec MapSum Exec

/-! ## The last match -/

/-- The liquidation price of an address after a match of the contract: the price of its own order, if
    one of the two is its own. -/
def liqAfterMatch (a : Address) (p : PropertyId) (pold pnew : CMPContractDex) (before : Int) : Int :=
  if pold.property = p ∧ pold.addr = a then liq64 pold
  else if pnew.property = p ∧ pnew.addr = a then liq64 pnew
  else before

/-- The liquidation price of the last match of an address in a contract; `init` if there is none. -/
def lastLiq (init : Int) (a : Address) (p : PropertyId) : List Event → Int
  | [] => init
  | .matched _ _ pold pnew :: earlier => liqAfterMatch a p pold pnew (lastLiq init a p earlier)
  | _ :: earlier => lastLiq init a p earlier

/-- Every liquidation price is that of the last match. -/
def FollowsMatches (init : State) (w : World) : Prop :=
  ∀ a p, w.state.getMPbalance a p .liquidationPrice =
    lastLiq (init.getMPbalance a p .liquidationPrice) a p w.trace

/-- A counterpart that is reached belongs to another address, something is traded with it, and neither
    party has a liquidation price yet; and `marginLogic` finds no price reached. -/
def Event.LiqOnce : Event → Prop
  | .candidate pre pold pnew => pold.addr ≠ pnew.addr ∧
      pre.getMPbalance pold.addr pold.property .liquidationPrice = 0 ∧
      pre.getMPbalance pnew.addr pnew.property .liquidationPrice = 0 ∧
      (parties pre pold pnew).nCouldBuy ≠ 0
  | .marginCheck pre p a _ => ¬ PriceReached pre p a
  | _ => True

instance : DecidablePred Event.LiqOnce := fun e =>
  e.casesOn (motive := fun e => Decidable e.LiqOnce) (fun _ _ => isTrue trivial)
    (fun _ => isTrue trivial)
    (fun pre pold pnew => inferInstanceAs (Decidable (pold.addr ≠ pnew.addr ∧
      pre.getMPbalance pold.addr pold.property .liquidationPrice = 0 ∧
      pre.getMPbalance pnew.addr pnew.property .liquidationPrice = 0 ∧
      (parties pre pold pnew).nCouldBuy ≠ 0)))
    (fun _ _ _ _ => isTrue trivial)
    (fun pre p a _ => inferInstanceAs (Decidable (¬ PriceReached pre p a)))
    fun _ _ => isTrue trivial

/-! ## The steps -/

theorem getMPbalance_liquidationPrice (s : State) (a : Address) (p : PropertyId) :
    s.getMPbalance a p .liquidationPrice = s.tallyMap.money a p .liquidationPrice :=
  State.getMPbalance_eq _ _ _ (by decide)

/-- Entries of other tallies leave the liquidation prices alone. -/
theorem Posted.liq_eq {m m' : TallyMap} {l : List Entry} (h : Posted m m' l)
    (hl : ∀ e ∈ l, e.ty ≠ .liquidationPrice) (a : Address) (p : PropertyId) :
    m'.money a p .liquidationPrice = m.money a p .liquidationPrice := by
  have hzero : (l.map fun e => e.toMoney a p .liquidationPrice).sum = 0 := by
    refine List.sum_eq_zero fun x hx => ?_
    obtain ⟨e, he, rfl⟩ := List.mem_map.mp hx
    exact if_neg fun hc => hl e he hc.2.2.symm
  rw [h.money, hzero, add_zero]

/-- A match itself does not write liquidation prices. -/
theorem MatchEffect.liq_eq {s s' : State} {pold pnew : CMPContractDex} {mp : TallyMap}
    {basisS basisB rS rB : Int} {value : Text}
    (heff : MatchEffect s s' pold pnew mp basisS basisB rS rB value) (a : Address) (p : PropertyId) :
    s'.tallyMap.money a p .liquidationPrice = s.tallyMap.money a p .liquidationPrice := by
  rw [heff.settled.liq_eq (by simp [closeEntries, settleEntries]),
    heff.positions.liq_eq (by simp [Parties.sellerEntries, Parties.buyerEntries])]

/-- Between parties without a liquidation price, what is added is what is stored. -/
theorem liq_of_visit {s : State} {m : TallyMap} {pold pnew : CMPContractDex}
    (hm : Posted s.tallyMap m [liqEntry pnew, liqEntry pold])
    (hprop : pold.property = pnew.property) (hne : pold.addr ≠ pnew.addr)
    (hold : s.tallyMap.money pold.addr pold.property .liquidationPrice = 0)
    (hnew : s.tallyMap.money pnew.addr pnew.property .liquidationPrice = 0)
    (a : Address) (p : PropertyId) :
    m.money a p .liquidationPrice =
      liqAfterMatch a p pold pnew (s.tallyMap.money a p .liquidationPrice) := by
  have hadded : m.money a p .liquidationPrice = s.tallyMap.money a p .liquidationPrice +
      ((if a = pnew.addr ∧ p = pold.property then liq64 pnew else 0) +
        if a = pold.addr ∧ p = pold.property then liq64 pold else 0) := by
    rw [hm.money, hprop]
    simp [liqEntry, Entry.toMoney, hprop]
  rw [hadded]
  unfold liqAfterMatch
  rw [← hprop] at hnew ⊢
  by_cases hp : pold.property = p
  · subst hp
    by_cases ha : pold.addr = a
    · -- the resting order is its own
      subst ha
      simp [hne, hold]
    · by_cases ha' : pnew.addr = a
      · -- the incoming order is its own
        subst ha'
        simp [hne, Ne.symm hne, hnew]
      · simp [ha, ha', Ne.symm ha, Ne.symm ha']
  · simp [hp, Ne.symm hp]

/-! ## Whole runs -/

section Run

variable (init : State)

/-- As long as the conditions are met, the tallies follow the matches. -/
def LiqInv (w : World) : Prop :=
  (∀ e ∈ w.trace, e.LiqOnce) → ∀ a p, w.state.tallyMap.money a p .liquidationPrice =
    lastLiq (init.tallyMap.money a p .liquidationPrice) a p w.trace

/-- After a visit the tallies are ahead by one match, which is going to be executed. -/
def LiqVisited (pold pnew : CMPContractDex) (w : World) : Prop :=
  (∀ e ∈ w.trace, e.LiqOnce) → (parties w.state pold pnew).nCouldBuy ≠ 0 ∧
    ∀ a p, w.state.tallyMap.money a p .liquidationPrice =
      liqAfterMatch a p pold pnew (lastLiq (init.tallyMap.money a p .liquidationPrice) a p w.trace)

variable {init : State} {w w' : World}

/-- A step that leaves the liquidation prices alone. -/
theorem LiqInv.quiet (h : LiqInv init w) (ht : w'.trace = w.trace)
    (hliq : ∀ a p, w'.state.tallyMap.money a p .liquidationPrice =
      w.state.tallyMap.money a p .liquidationPrice) : LiqInv init w' := by
  intro hok a p
  rw [ht] at hok ⊢
  rw [hliq]
  exact h hok a p

/-- A step that notes an event that is no match besides. -/
theorem LiqInv.note {e : Event} (h : LiqInv init w) (ht : w'.trace = e :: w.trace)
    (he : ∀ x a p, lastLiq x a p (e :: w.trace) = lastLiq x a p w.trace)
    (hliq : ∀ a p, w'.state.tallyMap.money a p .liquidationPrice =
      w.state.tallyMap.money a p .liquidationPrice) : LiqInv init w' := by
  intro hok a p
  rw [ht] at hok ⊢
  rw [hliq, he]
  exact h (fun x hx => hok x (List.mem_cons_of_mem _ hx)) a p

theorem liqInv_engine :
    EngineInv (LiqInv init) (fun e w => e.Stops ∨ LiqInv init w) (LiqVisited init) where
  condition := fun _ _ _ => Or.inl trivial
  visit := by
    intro w fs price key pold pnew hI _ hc
    refine wp_mono (visitCandidate_spec pold pnew w) ?_ (fun _ _ h => Or.inl h.1)
    rintro _ w' ⟨m, hm, rfl⟩ hok
    obtain ⟨hne, hold, hnew, hbuy⟩ := hok (.candidate w.state pold pnew) List.mem_cons_self
    rw [getMPbalance_liquidationPrice] at hold hnew
    refine ⟨?_, fun a p => ?_⟩
    · rw [nCouldBuy_eq] at hbuy ⊢
      exact hbuy
    · rw [show lastLiq _ a p (.candidate w.state pold pnew :: w.trace) = lastLiq _ a p w.trace
        from rfl, ← hI (fun x hx => hok x (List.mem_cons_of_mem _ hx)) a p]
      exact liq_of_visit hm hc.property hne hold hnew a p
  skip := by
    intro w pold pnew hM hzero hok
    exact absurd hzero (hM hok).1
  fill := by
    intro w fs price key pold pnew hM _ _ _
    refine wp_mono (fillOrder_spec pold pnew w) ?_ (fun _ _ h => Or.inl h.1)
    rintro rem w' ⟨-, s', mp, basisS, basisB, rS, rB, value, heff, rfl⟩ hok a p
    rw [show lastLiq _ a p (.matched w.state w.frames.tail pold pnew :: w.trace) =
      liqAfterMatch a p pold pnew (lastLiq _ a p w.trace) from rfl,
      ← (hM fun x hx => hok x (List.mem_cons_of_mem _ hx)).2 a p]
    exact heff.liq_eq a p
  check := by
    intro w p a last hI _
    exact hI.note rfl (fun _ _ _ => rfl) fun _ _ => rfl
  call := by
    intro w p a last rest _ _ hcall ht hok
    -- no price is reached under the conditions
    have hcheck : (Event.marginCheck w.state p a last).LiqOnce := by
      refine hok _ (List.mem_cons_of_mem _ ?_)
      rw [ht]
      exact List.mem_cons_self
    exact absurd hcall hcheck
  reset := by
    intro w s p a last liq _ _ hmem hcall
    rw [wp_onState]
    refine wp_mono (assertUpdate_posts _ _ _ _ w.state) ?_ (fun _ _ h => Or.inl h)
    rintro _ s' ⟨m, rfl, -⟩ hok
    exact absurd hcall (hok _ hmem)
  erase := by
    intro w w0 fs price key pold pnew rem hI _ _ _ _ _
    refine wp_mono (eraseMatched_spec price key pold pnew rem w) ?_ ?_
    · rintro _ w' ⟨-, rfl⟩
      exact hI.note rfl (fun _ _ _ => rfl) fun _ _ => rfl
    · rintro e w' ⟨rfl, -⟩
      exact Or.inl trivial
  rest := by
    intro w fs o hI _
    refine wp_imp (restOrder_spec o w _) ?_
    rintro _ w' rfl
    refine hI.quiet rfl fun a p => ?_
    unfold restState State.setContractLevel
    split <;> rfl
  fuel := fun hI => Or.inr hI
  undefined := fun _ => Or.inl trivial

theorem liqInv_run :
    RunInv (fun _ => True) (LiqInv init) (fun e w => e.Stops ∨ LiqInv init w) (LiqVisited init) where
  toEngineInv := liqInv_engine
  stops := fun _ _ h => Or.inl h
  submit := by
    intro w op _ hI _
    exact hI.note rfl (fun _ _ _ => rfl) fun _ _ => rfl
  reserve := by
    intro w tx m _ hI _ _ hm _
    have hres : LiqInv init (reservedWorld w tx m) := by
      refine hI.quiet rfl fun a p => hm.liq_eq ?_ a p
      simp [reserveEntries]
    exact ⟨fun _ => hres, fun _ => hres.note rfl (fun _ _ _ => rfl) fun _ _ => rfl⟩
  created := by
    intro w tx h _ hI _ _
    exact hI.quiet rfl fun _ _ => rfl

theorem LiqInv.follows (h : LiqInv init w) (hok : ∀ e ∈ w.trace, e.LiqOnce) :
    FollowsMatches init w := by
  intro a p
  rw [getMPbalance_liquidationPrice, getMPbalance_liquidationPrice]
  exact h hok a p

/-- **THE LIQUIDATION PRICE IS THAT OF THE LAST MATCH** after a run of contract transactions in which
    every counterpart that is reached is traded with, between two addresses that were not
    reached before, and in which no margin call is triggered. -/
theorem liquidation_price_follows (s : State) (fuel : Nat) (ops : List ContractOp) :
    wp (runContracts fuel ops)
      (fun _ w => (∀ e ∈ w.trace, e.LiqOnce) → FollowsMatches s w)
      (fun e w => e.Stops ∨ ((∀ e ∈ w.trace, e.LiqOnce) → FollowsMatches s w)) (World.start s) := by
  have hstart : LiqInv s (World.start s) := fun _ _ _ => rfl
  refine wp_mono (runContracts_rule liqInv_run fuel ops (by simp) hstart rfl)
    (fun _ w h => h.1.follows) ?_
  rintro e w (he | hI)
  · exact Or.inl he
  · exact Or.inr hI.follows

end Run

set_option maxRecDepth 4000 in
private theorem quietTrade_liqOnce :
    ∀ e ∈ (after (runContracts 3 quietTrade) (World.start fundedState)).trace, e.LiqOnce := by
  decide +kernel

/-- One trade meets the conditions. -/
theorem liquidation_price_follows_quietTrade :
    ∃ w, runContracts 3 quietTrade (World.start fundedState) = .ok () w ∧
      (∀ e ∈ w.trace, e.LiqOnce) ∧ FollowsMatches fundedState w :=
  ⟨_, eq_ok_after quietTrade_returns, quietTrade_liqOnce,
    wp_ok (liquidation_price_follows fundedState 3 quietTrade) (eq_ok_after quietTrade_returns)
      quietTrade_liqOnce⟩

/-- `A` bids twice for one contract, and `B` offers one. -/
def secondBid : List ContractOp :=
  [.trade (orderTx traderA 2 11 1 1 100), .trade (orderTx traderA 3 12 1 1 100),
    .trade (orderTx traderB 4 13 2 1 80)]

/-- The trace has a margin call. -/
def hasMarginCall (trace : List Event) : Bool :=
  trace.any fun e => match e with
    | .marginCheck pre p a _ => decide (PriceReached pre p a)
    | _ => false

set_option maxRecDepth 4000 in
private theorem secondBid_doubles :
    (returned (runContracts 4 secondBid) (World.start (marketState 0 1))).map
      (fun w => (hasMarginCall w.trace, w.state.getMPbalance traderA 3 .liquidationPrice,
        lastLiq 0 traderA 3 w.trace)) = some (false, 170, 85) := by
  decide +kernel

/-- **THE SECOND BID DOUBLES THE PRICE OF THE FIRST**: it is reached when nothing is left to trade. -/
theorem secondBid_not_followed :
    ∃ w, returned (runContracts 4 secondBid) (World.start (marketState 0 1)) = some w ∧
      hasMarginCall w.trace = false ∧ ¬ FollowsMatches (marketState 0 1) w := by
  obtain ⟨w, hrun, hvals⟩ := Option.map_eq_some_iff.mp secondBid_doubles
  simp only [Prod.mk.injEq] at hvals
  obtain ⟨hcalls, hliq, hlast⟩ := hvals
  refine ⟨w, hrun, hcalls, fun hfollows => ?_⟩
  have hzero : (marketState 0 1).getMPbalance traderA 3 .liquidationPrice = 0 := by decide +kernel
  have h := hfollows traderA 3
  rw [hliq, hzero, hlast] at h
  exact absurd h (by decide)

end OmniCore
