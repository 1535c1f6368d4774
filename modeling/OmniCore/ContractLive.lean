import OmniCore.ContractBook

/-! # ContractLive — which orders the book keeps

    An order of the book should buy or sell, and something of it should be left. What is
    left of a resting order is written back whenever the two amounts of a match differ:
    also when the resting order was the smaller one, and nothing is left of it. And an
    order with another trading action is matched and kept like any other. -/

namespace OmniCore

open Std (ExtTreeMap)
open Machine TextRec MapSum Exec

/-- The order buys or sells, if it is an order for anything. -/
def CMPContractDex.Directed (o : CMPContractDex) : Prop :=
  0 < o.amountForsale → o.tradingAction = actionBuy ∨ o.tradingAction = actionSell

/-- Every order of the book is at its own place, buys or sells, and is not filled. -/
def BookLive (s : State) : Prop :=
  ∀ p price (key : OrderKey) o, (s.contractLevel p price)[key]? = some o →
    o.property = p ∧ o.effectivePrice = price ∧ o.key = key ∧
      (o.tradingAction = actionBuy ∨ o.tradingAction = actionSell) ∧ 0 < o.amountForsale

/-- A placed order buys or sells, and no match takes a resting order that is smaller than the
    incoming one. -/
def Event.KeepsLive : Event → Prop
  | .placed o => o.Directed
  | .matched _ _ pold pnew => pnew.amountForsale ≤ pold.amountForsale
  | _ => True

instance (o : CMPContractDex) : Decidable o.Directed := inferInstanceAs (Decidable (_ → _ ∨ _))

instance : DecidablePred Event.KeepsLive := fun e =>
  e.casesOn (motive := fun e => Decidable e.KeepsLive) (fun _ _ => isTrue trivial)
    (fun o => inferInstanceAs (Decidable o.Directed)) (fun _ _ _ => isTrue trivial)
    (fun _ _ pold pnew => inferInstanceAs (Decidable (pnew.amountForsale ≤ pold.amountForsale)))
    (fun _ _ _ _ => isTrue trivial) fun _ _ => isTrue trivial

/-! ## The book -/

theorem BookLive.wf {s : State} (h : BookLive s) : BookWf s := fun p price key o ho =>
  ⟨(h p price key o ho).1, (h p price key o ho).2.1, (h p price key o ho).2.2.1⟩

theorem bookLive_iff {s : State} :
    BookLive s ↔ BookOf (fun o =>
      (o.tradingAction = actionBuy ∨ o.tradingAction = actionSell) ∧ 0 < o.amountForsale) s := by
  constructor
  · intro h
    exact ⟨h.wf, fun o ho => (h _ _ _ o ho).2.2.2⟩
  · rintro ⟨hwf, hlive⟩ p price key o ho
    obtain ⟨hp, hr, hk⟩ := hwf p price key o ho
    exact ⟨hp, hr, hk, hlive o (hwf.resting ho)⟩

theorem BookLive.congr {s s' : State} (h : BookLive s) (hbook : s'.contractdex = s.contractdex) :
    BookLive s' := by
  rw [bookLive_iff] at h ⊢
  exact h.congr hbook

/-- Taking an order out. -/
theorem BookLive.erase {s : State} (h : BookLive s) {p : PropertyId} {price : Nat} (key : OrderKey) :
    BookLive (s.setContractLevel p price ((s.contractLevel p price).erase key)) := by
  rw [bookLive_iff] at h ⊢
  exact h.erase key

/-- What remains of an incoming order. -/
theorem BookLive.restState {s : State} (h : BookLive s) {n : CMPContractDex} (hn : n.Directed) :
    BookLive (restState s n) := by
  rw [bookLive_iff] at h ⊢
  exact h.restState fun hpos => ⟨hn hpos, hpos⟩

/-- What remains of a resting order. -/
theorem BookLive.replaceMatched {s s0 : State} {pold pnew : CMPContractDex} (h : BookLive s)
    (hold : Resting s pold) (hprop : pold.property = pnew.property)
    (hle : pnew.amountForsale ≤ pold.amountForsale) :
    BookLive (s.setContractLevel pnew.property pold.effectivePrice
      (replaceMatched (s.contractLevel pnew.property pold.effectivePrice) pold.key pold pnew
        (remainders (parties s0 pold pnew) pold pnew))) := by
  rw [bookLive_iff] at h ⊢
  obtain ⟨hact, -⟩ := h.all pold hold
  refine h.replaceMatched hold hprop fun hne => ?_
  rw [(remainders_amounts s0 pold pnew (Or.inr hact)).1]
  refine ⟨hact, ?_⟩
  show 0 < pold.amountForsale - min pold.amountForsale pnew.amountForsale
  omega

/-! ## Whole runs -/

/-- As long as every step keeps live orders: every book that was seen is live, and what remains of an
    incoming order buys or sells. -/
structure LiveInv (w : World) : Prop where
  seen : AllSeen Event.KeepsLive BookLive w
  takers : (∀ e ∈ w.trace, e.KeepsLive) → ∀ f ∈ w.frames, f.taker.Directed

/-- A step that leaves book and frames alone. -/
theorem LiveInv.quiet {w w' : World} (h : LiveInv w) (ht : w'.trace = w.trace)
    (hf : w'.frames = w.frames) (hbook : w'.state.contractdex = w.state.contractdex) :
    LiveInv w' where
  seen := h.seen.quiet ht fun _ hnow => hnow.congr hbook
  takers := by
    rw [ht, hf]
    exact h.takers

/-- A step that notes one event and leaves the book alone. -/
theorem LiveInv.note {w w' : World} {e : Event} (h : LiveInv w) (ht : w'.trace = e :: w.trace)
    (he : e.pre? = none ∨ e.pre? = some w.state)
    (hf : (∀ x ∈ w.trace, x.KeepsLive) → e.KeepsLive →
      ∀ f ∈ w'.frames, f ∈ w.frames ∨ f.taker.Directed)
    (hbook : w'.state.contractdex = w.state.contractdex) : LiveInv w' where
  seen := h.seen.note ht he fun _ _ hnow => hnow.congr hbook
  takers := by
    intro hok f hmem
    rw [ht] at hok
    have hbefore : ∀ x ∈ w.trace, x.KeepsLive := fun x hx => hok x (List.mem_cons_of_mem _ hx)
    rcases hf hbefore (hok e List.mem_cons_self) f hmem with hold | hnew
    · exact h.takers hbefore f hold
    · exact hnew

theorem LiveInv.place {w : World} (h : LiveInv w) (o : CMPContractDex) : LiveInv (w.place o) := by
  refine h.note rfl (Or.inl rfl) (fun _ ho f hf => ?_) rfl
  rcases List.mem_cons.mp hf with rfl | hf
  · exact Or.inr ho
  · exact Or.inl hf

theorem liveInv_engine : EngineInv LiveInv fun e w => e.Stops ∨ LiveInv w where
  condition := fun _ _ _ => Or.inl trivial
  visit := by
    intro w fs price key pold pnew hI _ _
    refine wp_mono (visitCandidate_spec pold pnew w) ?_ (fun _ _ h => Or.inl h.1)
    rintro _ w' ⟨m, -, rfl⟩
    exact hI.note rfl (Or.inr rfl) (fun _ _ f hf => Or.inl hf) rfl
  fill := by
    intro w fs price key pold pnew hI hf hc _
    refine wp_mono (fillOrder_spec pold pnew w) ?_ (fun _ _ h => Or.inl h.1)
    rintro rem w' ⟨rfl, s', mp, basisS, basisB, rS, rB, value, heff, rfl⟩
    refine hI.note rfl (Or.inr rfl) (fun hbefore hle f hmem => ?_) (by rw [heff.state])
    rw [hf, List.tail_cons] at hmem
    rcases List.mem_cons.mp hmem with rfl | hmem
    · -- nothing remains of an incoming order that is not larger than the resting one
      obtain ⟨-, -, -, hact, -⟩ := hI.seen.now hbefore _ _ _ _ hc.inBook
      right
      intro hpos
      rw [(remainders_amounts w.state pold pnew (Or.inr hact)).2] at hpos
      have hle' : pnew.amountForsale ≤ pold.amountForsale := hle
      have hpos' : 0 < pnew.amountForsale - min pold.amountForsale pnew.amountForsale := hpos
      omega
    · left
      rw [hf]
      exact List.mem_cons_of_mem _ hmem
  check := by
    intro w p a last hI _
    exact hI.note rfl (Or.inr rfl) (fun _ _ f hf => Or.inl hf) rfl
  call := by
    intro w p a last rest hI _ _ _
    exact hI.place _
  reset := by
    intro w s p a last liq hI _ _ _
    rw [wp_onState]
    refine wp_mono (assertUpdate_posts _ _ _ _ w.state) ?_ (fun _ _ h => Or.inl h)
    rintro _ s' ⟨m, rfl, -⟩
    exact hI.quiet rfl rfl rfl
  erase := by
    intro w w0 fs price key pold pnew rem hI hI0 hsuf hc hrem hf
    refine wp_mono (eraseMatched_spec price key pold pnew rem w) ?_ ?_
    · rintro _ w' ⟨hplace, rfl⟩
      have hmatched := hsuf.subset List.mem_cons_self
      subst hrem
      refine ⟨hI.seen.note rfl (Or.inl rfl) fun hbefore _ hnow => ?_, ?_⟩
      · -- the place of the matched order is its own
        obtain ⟨hp, hr, hk, -⟩ := hnow _ _ _ _ hplace
        have hold : Resting w.state pold := hnow.wf.resting hplace
        have hle : pnew.amountForsale ≤ pold.amountForsale := hbefore _ hmatched
        rw [← hr, ← hk]
        exact hnow.replaceMatched hold hp hle
      · intro hok f hmem
        have hbefore : ∀ x ∈ w.trace, x.KeepsLive := fun x hx => hok x (List.mem_cons_of_mem _ hx)
        have htakers := hI.takers hbefore
        rw [hf] at htakers hmem
        rcases List.mem_cons.mp hmem with rfl | hmem
        · exact htakers ⟨_, some (pold, pnew)⟩ List.mem_cons_self
        · exact htakers f (List.mem_cons_of_mem _ hmem)
    · rintro e w' ⟨rfl, -⟩
      exact Or.inl trivial
  rest := by
    intro w fs o hI hf
    refine wp_imp (restOrder_spec o w _) ?_
    rintro _ w' rfl
    refine ⟨hI.seen.quiet rfl fun hok hnow => hnow.restState ?_, fun hok f hmem => ?_⟩
    · have htakers := hI.takers hok
      rw [hf] at htakers
      exact htakers _ List.mem_cons_self
    · exact hI.takers hok f (List.mem_of_mem_tail hmem)
  fuel := fun hI => Or.inr hI
  undefined := fun _ => Or.inl trivial

theorem liveInv_run : RunInv (fun _ => True) LiveInv fun e w => e.Stops ∨ LiveInv w where
  toEngineInv := liveInv_engine
  stops := fun _ _ h => Or.inl h
  submit := by
    intro w op _ hI _
    exact hI.note rfl (Or.inr rfl) (fun _ _ f hf => Or.inl hf) rfl
  reserve := by
    intro w tx m _ hI _ _ _ _
    have hres : LiveInv (reservedWorld w tx m) := hI.quiet rfl rfl rfl
    exact ⟨fun _ => hres, fun _ => hres.place _⟩
  created := by
    intro w tx h _ hI _ _
    exact hI.quiet rfl rfl rfl

/-- **THE BOOK KEEPS LIVE ORDERS** in every state that a run of contract transactions goes through, if
    every placed order buys or sells and no match takes a resting order that is smaller than the
    incoming one. -/
theorem book_keeps_live (s : State) (hs : BookLive s) (fuel : Nat) (ops : List ContractOp) :
    wp (runContracts fuel ops)
      (fun _ w => (∀ e ∈ w.trace, e.KeepsLive) → ∀ s', w.Seen s' → BookLive s')
      (fun e w => e.Stops ∨ ((∀ e ∈ w.trace, e.KeepsLive) → ∀ s', w.Seen s' → BookLive s'))
      (World.start s) := by
  have hstart : LiveInv (World.start s) := ⟨allSeen_start hs, by simp [World.start]⟩
  refine wp_mono (runContracts_rule liveInv_run fuel ops (by simp) hstart rfl)
    (fun _ w h => h.1.seen) ?_
  rintro e w (he | hI)
  · exact Or.inl he
  · exact Or.inr hI.seen

theorem bookLive_empty {s : State} (h : s.contractdex = ∅) : BookLive s := by
  rw [bookLive_iff]
  exact bookOf_empty h

set_option maxRecDepth 4000 in
private theorem quietTrade_keepsLive :
    ∀ e ∈ (after (runContracts 3 quietTrade) (World.start fundedState)).trace, e.KeepsLive := by
  decide +kernel

/-- One trade, from an empty book. -/
theorem book_keeps_live_quietTrade :
    ∃ w, runContracts 3 quietTrade (World.start fundedState) = .ok () w ∧
      ∀ s', w.Seen s' → BookLive s' :=
  ⟨_, eq_ok_after quietTrade_returns,
    wp_ok (book_keeps_live fundedState (bookLive_empty rfl) 3 quietTrade)
      (eq_ok_after quietTrade_returns) quietTrade_keepsLive⟩

/-- `A` bids 100 for one contract and `B` offers two at 80. -/
def largerOffer : List ContractOp :=
  [.trade (orderTx traderA 2 11 1 1 100), .trade (orderTx traderB 3 12 2 2 80)]

set_option maxRecDepth 4000 in
private theorem largerOffer_level :
    (returned (runContracts 3 largerOffer) (World.start (marketState 0 1))).map
      (fun w => ((w.state.contractLevel 3 100)[((11, 1) : OrderKey)]?).map (·.amountForsale)) =
      some (some 0) := by
  decide +kernel

/-- **A FILLED ORDER STAYS**: the bid is filled and still in the book, for no contract. -/
theorem largerOffer_keeps_filled :
    ∃ w, returned (runContracts 3 largerOffer) (World.start (marketState 0 1)) = some w ∧
      ¬ BookLive w.state := by
  obtain ⟨w, hrun, hlevel⟩ := Option.map_eq_some_iff.mp largerOffer_level
  obtain ⟨o, ho, hzero⟩ := Option.map_eq_some_iff.mp hlevel
  refine ⟨w, hrun, fun hlive => ?_⟩
  have hpos := (hlive _ _ _ o ho).2.2.2.2
  omega

end OmniCore
