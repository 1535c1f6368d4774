import OmniCore.ContractRun

/-! # ContractSides — is a position one-sided?

    Seller and buyer close what they hold on the other side before they open anything, so
    a match of two addresses leaves both of them long or short, not both. The balances of
    the two sides are read before either is written: an address that is matched with its
    own order closes against the position it had, and what exceeds that position is opened
    on both sides at once. -/

namespace OmniCore

open Std (ExtTreeMap)
open Machine TextRec MapSum Exec

/-- No address is long and short in the same contract. -/
def OneSided (s : State) : Prop :=
  ∀ a p, ¬ (0 < s.getMPbalance a p .possitiveBalance ∧ 0 < s.getMPbalance a p .negativeBalance)

/-- An address that is matched with itself trades no more contracts than it holds on the side
    that it closes first. -/
def Parties.SelfCovered (q : Parties) : Prop :=
  q.seller = q.buyer →
    q.nCouldBuy ≤ if 0 < q.possitiveSell then q.possitiveSell else q.negativeSell

/-- The matches that keep positions one-sided. -/
def Event.SelfCovered : Event → Prop
  | .matched pre _ pold pnew => (parties pre pold pnew).SelfCovered
  | _ => True

instance (q : Parties) : Decidable q.SelfCovered := inferInstanceAs (Decidable (_ → _))

instance : DecidablePred Event.SelfCovered := fun e =>
  e.casesOn (motive := fun e => Decidable e.SelfCovered) (fun _ _ => isTrue trivial)
    (fun _ => isTrue trivial) (fun _ _ _ => isTrue trivial)
    (fun pre _ pold pnew => inferInstanceAs (Decidable (parties pre pold pnew).SelfCovered))
    (fun _ _ _ _ => isTrue trivial) fun _ _ => isTrue trivial

/-! ## Positions in the ledger -/

/-- Positions are entries of the ledger. -/
theorem getMPbalance_position (s : State) (a : Address) (p : PropertyId) :
    s.getMPbalance a p .possitiveBalance = s.tallyMap.money a p .possitiveBalance ∧
      s.getMPbalance a p .negativeBalance = s.tallyMap.money a p .negativeBalance :=
  ⟨State.getMPbalance_eq _ _ _ (by decide), State.getMPbalance_eq _ _ _ (by decide)⟩

/-- Entries that move neither longs nor shorts. -/
def PositionFree (l : List Entry) : Prop :=
  ∀ e ∈ l, e.ty ≠ .possitiveBalance ∧ e.ty ≠ .negativeBalance

theorem Posted.positions_eq {m m' : TallyMap} {l : List Entry} (h : Posted m m' l)
    (hl : PositionFree l) (a : Address) (p : PropertyId) :
    m'.money a p .possitiveBalance = m.money a p .possitiveBalance ∧
      m'.money a p .negativeBalance = m.money a p .negativeBalance := by
  have hzero : ∀ ty : TallyType, ty = .possitiveBalance ∨ ty = .negativeBalance →
      (l.map fun e => e.toMoney a p ty).sum = 0 := by
    intro ty hty
    refine List.sum_eq_zero fun x hx => ?_
    obtain ⟨e, he, rfl⟩ := List.mem_map.mp hx
    have hne : e.ty ≠ ty := by
      rcases hty with rfl | rfl
      · exact (hl e he).1
      · exact (hl e he).2
    simp [Entry.toMoney, Ne.symm hne]
  rw [h.money, h.money, hzero _ (Or.inl rfl), hzero _ (Or.inr rfl)]
  exact ⟨add_zero _, add_zero _⟩

theorem OneSided.posted {s : State} {m : TallyMap} {l : List Entry} (h : OneSided s)
    (hm : Posted s.tallyMap m l) (hl : PositionFree l) : OneSided (s.withTally m) := by
  intro a p
  obtain ⟨hlong, hshort⟩ := hm.positions_eq hl a p
  have hsame := h a p
  rw [(getMPbalance_position _ a p).1, (getMPbalance_position _ a p).2] at hsame ⊢
  rw [State.withTally_tallyMap, hlong, hshort]
  exact hsame

/-- Only the ledger matters. -/
theorem OneSided.congr {s s' : State} (h : OneSided s) (htally : s'.tallyMap = s.tallyMap) :
    OneSided s' := by
  intro a p
  have hsame := h a p
  rw [(getMPbalance_position _ a p).1, (getMPbalance_position _ a p).2] at hsame ⊢
  rw [htally]
  exact hsame

/-! ## One match -/

section Match

variable {s s' : State} {pold pnew : CMPContractDex} {mp : TallyMap}
  {basisS basisB rS rB : Int} {value : Text}

/-- Settlement touches no position. -/
theorem MatchEffect.positions_eq (heff : MatchEffect s s' pold pnew mp basisS basisB rS rB value)
    (a : Address) (p : PropertyId) :
    s'.tallyMap.money a p .possitiveBalance = mp.money a p .possitiveBalance ∧
      s'.tallyMap.money a p .negativeBalance = mp.money a p .negativeBalance := by
  refine heff.settled.positions_eq ?_ a p
  simp [PositionFree, closeEntries, settleEntries]

/-- Other contracts are not touched. -/
theorem money_other_contract (hpos : Posted s.tallyMap mp
      ((parties s pold pnew).sellerEntries pold.property ++
        (parties s pold pnew).buyerEntries pold.property)) (a : Address) {p : PropertyId}
    (hp : p ≠ pold.property) (ty : TallyType) : mp.money a p ty = s.tallyMap.money a p ty := by
  rw [hpos.money]
  simp [Parties.sellerEntries, Parties.buyerEntries, Entry.toMoney, hp]

/-- **ONE MATCH KEEPS POSITIONS ONE-SIDED** exactly if it is not a match of an address with itself
    beyond the position that the address closes first. -/
theorem MatchEffect.oneSided_iff (heff : MatchEffect s s' pold pnew mp basisS basisB rS rB value)
    (hprop : pold.property = pnew.property) (h : OneSided s) :
    OneSided s' ↔ (parties s pold pnew).SelfCovered := by
  obtain ⟨hPs, hNs, hPb, hNb⟩ := parties_money (s := s) hprop
  obtain ⟨hps0, hns0, hpb0, hnb0⟩ := parties_nonneg s pold pnew
  have hseller := h (parties s pold pnew).seller pold.property
  have hbuyer := h (parties s pold pnew).buyer pold.property
  simp only [getMPbalance_position, ← hPs, ← hNs, ← hPb, ← hNb] at hseller hbuyer
  have hafter : OneSided s' ↔ ∀ a, ¬ (0 < mp.money a pold.property .possitiveBalance ∧
      0 < mp.money a pold.property .negativeBalance) := by
    constructor
    · intro hs' a
      have hside := hs' a pold.property
      rw [(getMPbalance_position _ a _).1, (getMPbalance_position _ a _).2,
        (heff.positions_eq a _).1, (heff.positions_eq a _).2] at hside
      exact hside
    · intro hmp a p
      rw [(getMPbalance_position _ a _).1, (getMPbalance_position _ a _).2,
        (heff.positions_eq a _).1, (heff.positions_eq a _).2]
      by_cases hp : p = pold.property
      · rw [hp]
        exact hmp a
      · have hside := h a p
        rw [(getMPbalance_position _ a _).1, (getMPbalance_position _ a _).2] at hside
        rw [money_other_contract heff.positions a hp, money_other_contract heff.positions a hp]
        exact hside
  have hmoney := money_positions heff.positions
  rw [hafter]
  unfold Parties.SelfCovered
  unfold Parties.sellerLong Parties.buyerShort at hmoney
  by_cases hself : (parties s pold pnew).seller = (parties s pold pnew).buyer
  · -- both updates work on the position that was read before them
    have hsameP : (parties s pold pnew).possitiveBuy = (parties s pold pnew).possitiveSell := by
      rw [hPb, hPs, hself]
    have hsameN : (parties s pold pnew).negativeBuy = (parties s pold pnew).negativeSell := by
      rw [hNb, hNs, hself]
    rw [hsameP, hsameN] at hmoney
    constructor
    · intro hmp _
      have hside := hmp (parties s pold pnew).seller
      obtain ⟨hlong, hshort⟩ := hmoney (parties s pold pnew).seller
      rw [hlong, hshort, ← hPs, ← hNs, if_pos rfl, if_pos rfl, if_pos hself, if_pos hself] at hside
      split
      · next hpos =>
          rw [if_pos hpos, if_pos hpos] at hside
          omega
      · next hpos =>
          rw [if_neg hpos, if_neg hpos] at hside
          omega
    · intro hcov a
      have hle := hcov hself
      obtain ⟨hlong, hshort⟩ := hmoney a
      rw [hlong, hshort]
      by_cases ha : a = (parties s pold pnew).seller
      · rw [ha, ← hPs, ← hNs, if_pos rfl, if_pos rfl, if_pos hself, if_pos hself]
        split at hle
        · next hpos =>
            rw [if_pos hpos, if_pos hpos]
            omega
        · next hpos =>
            rw [if_neg hpos, if_neg hpos]
            omega
      · rw [if_neg ha, if_neg ha, if_neg (hself ▸ ha), if_neg (hself ▸ ha), add_zero, add_zero,
          add_zero]
        have hside := h a pold.property
        rwa [(getMPbalance_position _ a _).1, (getMPbalance_position _ a _).2] at hside
  · refine ⟨fun _ heq => absurd heq hself, fun _ a => ?_⟩
    obtain ⟨hlong, hshort⟩ := hmoney a
    rw [hlong, hshort]
    by_cases ha : a = (parties s pold pnew).seller
    · -- the seller closes longs before shorts are opened
      have hb : ¬ a = (parties s pold pnew).buyer := fun hb => hself (ha.symm.trans hb)
      rw [if_pos ha, if_pos ha, if_neg hb, if_neg hb, ha, ← hPs, ← hNs]
      split
      · omega
      · omega
    · rw [if_neg ha, if_neg ha]
      by_cases hb : a = (parties s pold pnew).buyer
      · -- the buyer closes shorts before longs are opened
        rw [if_pos hb, if_pos hb, hb, ← hPb, ← hNb]
        split
        · omega
        · omega
      · rw [if_neg hb, if_neg hb, add_zero, add_zero, add_zero]
        have hside := h a pold.property
        rwa [(getMPbalance_position _ a _).1, (getMPbalance_position _ a _).2] at hside

end Match

/-! ## Whole runs -/

theorem allOneSided_engine :
    EngineInv (AllSeen Event.SelfCovered OneSided)
      fun e w => e.Stops ∨ AllSeen Event.SelfCovered OneSided w where
  condition := fun _ _ _ => Or.inl trivial
  visit := by
    intro w fs price key pold pnew hI _ _
    refine wp_mono (visitCandidate_spec pold pnew w) ?_ (fun _ _ h => Or.inl h.1)
    rintro _ w' ⟨m, hm, rfl⟩
    refine hI.note rfl (Or.inr rfl) fun _ _ hnow => hnow.posted hm ?_
    simp [PositionFree, liqEntry]
  fill := by
    intro w fs price key pold pnew hI _ hc _
    refine wp_mono (fillOrder_spec pold pnew w) ?_ (fun _ _ h => Or.inl h.1)
    rintro rem w' ⟨-, s', mp, basisS, basisB, rS, rB, value, heff, rfl⟩
    exact hI.note rfl (Or.inr rfl) fun _ hcov hnow => (heff.oneSided_iff hc.property hnow).mpr hcov
  check := by
    intro w p a last hI _
    exact hI.note rfl (Or.inr rfl) fun _ _ hnow => hnow
  call := by
    intro w p a last rest hI _ _ _
    exact hI.note rfl (Or.inl rfl) fun _ _ hnow => hnow
  reset := by
    intro w s p a last liq hI _ _ _
    rw [wp_onState]
    refine wp_mono (assertUpdate_posts _ _ _ _ w.state) ?_ (fun _ _ h => Or.inl h)
    rintro _ s' ⟨m, rfl, hm⟩
    refine hI.quiet rfl fun _ hnow => hnow.posted hm ?_
    simp [PositionFree]
  erase := by
    intro w w0 fs price key pold pnew rem hI _ _ _ _ _
    refine wp_mono (eraseMatched_spec price key pold pnew rem w) ?_ ?_
    · rintro _ w' ⟨-, rfl⟩
      exact hI.note rfl (Or.inl rfl) fun _ _ hnow => hnow.congr rfl
    · rintro e w' ⟨rfl, -⟩
      exact Or.inl trivial
  rest := by
    intro w fs o hI _
    refine wp_imp (restOrder_spec o w _) ?_
    rintro _ w' rfl
    refine hI.quiet rfl fun _ hnow => hnow.congr ?_
    unfold restState State.setContractLevel
    split <;> rfl
  fuel := fun hI => Or.inr hI
  undefined := fun _ => Or.inl trivial

theorem allOneSided_run :
    RunInv (fun _ => True) (AllSeen Event.SelfCovered OneSided)
      fun e w => e.Stops ∨ AllSeen Event.SelfCovered OneSided w where
  toEngineInv := allOneSided_engine
  stops := fun _ _ h => Or.inl h
  submit := by
    intro w op _ hI _
    exact hI.note rfl (Or.inr rfl) fun _ _ hnow => hnow
  reserve := by
    intro w tx m _ hI _ _ hm _
    have hres : AllSeen Event.SelfCovered OneSided (reservedWorld w tx m) := by
      refine hI.quiet rfl fun _ hnow => (hnow.posted hm ?_).congr rfl
      simp [PositionFree, reserveEntries]
    exact ⟨fun _ => hres, fun _ => hres.note rfl (Or.inl rfl) fun _ _ hnow => hnow⟩
  created := by
    intro w tx h _ hI _ _
    exact hI.quiet rfl fun _ hnow => hnow.congr rfl

/-- **POSITIONS STAY ONE-SIDED** in every state that a run of contract transactions goes through, if
    no match of an address with itself exceeds the position that the address closes first. -/
theorem positions_one_sided (s : State) (hs : OneSided s) (fuel : Nat) (ops : List ContractOp) :
    wp (runContracts fuel ops)
      (fun _ w => (∀ e ∈ w.trace, e.SelfCovered) → ∀ s', w.Seen s' → OneSided s')
      (fun e w => e.Stops ∨
        ((∀ e ∈ w.trace, e.SelfCovered) → ∀ s', w.Seen s' → OneSided s'))
      (World.start s) := by
  exact wp_imp (runContracts_rule allOneSided_run fuel ops (by simp) (allSeen_start hs) rfl)
    (fun _ w' h => h.1)

/-- A node on which nobody holds a contract is one-sided. -/
theorem fundedState_oneSided : OneSided fundedState := by
  have hempty : OneSided (State.fresh openParams) := by
    intro a p h
    rw [(getMPbalance_position _ a p).1] at h
    simp [State.fresh] at h
  exact hempty.posted fundedLedger_posted (by simp [PositionFree])

set_option maxRecDepth 4000 in
private theorem quietTrade_selfCovered :
    ∀ e ∈ (after (runContracts 3 quietTrade) (World.start fundedState)).trace, e.SelfCovered := by
  decide +kernel

/-- One trade between two addresses leaves both on one side. -/
theorem positions_one_sided_quietTrade :
    ∃ w, runContracts 3 quietTrade (World.start fundedState) = .ok () w ∧
      ∀ s', w.Seen s' → OneSided s' :=
  ⟨_, eq_ok_after quietTrade_returns,
    wp_ok (positions_one_sided fundedState fundedState_oneSided 3 quietTrade)
      (eq_ok_after quietTrade_returns) quietTrade_selfCovered⟩

/-- `A` bids 100 for a contract and takes its own bid with an offer at 10. -/
def ownTrade : List ContractOp :=
  [.trade (orderTx traderA 2 11 1 1 100), .trade (orderTx traderA 3 12 2 1 10)]

set_option maxRecDepth 4000 in
private theorem ownTrade_position :
    (returned (runContracts 3 ownTrade) (World.start (marketState 0 1))).map
      (fun w => (w.state.getMPbalance traderA 3 .possitiveBalance,
        w.state.getMPbalance traderA 3 .negativeBalance)) = some (1, 1) := by
  decide +kernel

/-- **LONG AND SHORT AT ONCE**: the run returns, and `A` holds a long and a short contract. -/
theorem ownTrade_two_sided :
    ∃ w, returned (runContracts 3 ownTrade) (World.start (marketState 0 1)) = some w ∧
      ¬ OneSided w.state := by
  obtain ⟨w, hrun, hpos⟩ := Option.map_eq_some_iff.mp ownTrade_position
  rw [Prod.mk.injEq] at hpos
  exact ⟨w, hrun, fun hside => hside traderA 3 ⟨by omega, by omega⟩⟩

end OmniCore
