import OmniCore.ContractRun

/-! # ContractCollateral — is collateral conserved?

    Margin is moved between two tallies of one address, so reserving and freeing it
    changes no total, and a cancel moves nothing at all. Profit is booked to
    `CONTRACTDEX_RESERVE` of the party that closes and taken from nobody. Collateral is
    conserved by the runs in which no match books a profit. -/

namespace OmniCore

open Std (ExtTreeMap)
open Machine TextRec MapSum Exec

/-- All collateral that is free or reserved. -/
def collateralTotal (s : State) (c : PropertyId) : Int :=
  s.tallyMap.total c .balance + s.tallyMap.total c .contractDExReserve

/-- No profit is created: what the two closes of a match book cancels. Without a trade basis the
    profit of a close is the 64-bit product of market price, closed contracts and notional size. -/
def BooksNothing (pre : State) (pold pnew : CMPContractDex) : Prop :=
  pnl pre.marketPrice pre.notionalSize (parties pre pold pnew).closedSeller 0 +
    pnl pre.marketPrice pre.notionalSize (parties pre pold pnew).closedBuyer 0 = 0

/-- The steps that conserve collateral. -/
def Event.Conserves : Event → Prop
  | .matched pre _ pold pnew => BooksNothing pre pold pnew
  | _ => True

instance (pre : State) (pold pnew : CMPContractDex) : Decidable (BooksNothing pre pold pnew) :=
  inferInstanceAs (Decidable (_ = _))

instance : DecidablePred Event.Conserves := fun e =>
  e.casesOn (motive := fun e => Decidable e.Conserves) (fun _ _ => isTrue trivial)
    (fun _ => isTrue trivial) (fun _ _ _ => isTrue trivial)
    (fun pre _ pold pnew => inferInstanceAs (Decidable (BooksNothing pre pold pnew)))
    (fun _ _ _ _ => isTrue trivial) fun _ _ => isTrue trivial

/-! ## Trade records have five or twelve fields -/

theorem split_tradeValue (tx : CMPTransaction) : (split isColon (tradeValue tx)).length = 5 := by
  unfold tradeValue
  rw [split_record (by simp)]
  · rfl
  · simp [isField_decNat, isField_address]

theorem split_matchValue (s : State) (pold pnew : CMPContractDex) (stM stT : MatchStatus)
    (lM lT : Int) : (split isColon (matchValue s pold pnew stM stT lM lT)).length = 12 := by
  unfold matchValue
  rw [split_record (by simp)]
  · rfl
  · simp [isField_decNat, isField_decInt, isField_address, isField_status]

theorem NoBasisRecord.insert {db : TextDB} (h : NoBasisRecord db) {key value : Text}
    (hv : (split isColon value).length ≠ 13) : NoBasisRecord (db.insert key value) := by
  intro k v hk
  rw [getElem?_insert_eq] at hk
  split at hk
  · cases hk
    exact hv
  · exact h k v hk

theorem NoBasisRecord.reserved {s : State} (h : NoBasisRecord s.tradeList) (tx : CMPTransaction)
    (m : TallyMap) : NoBasisRecord (reservedState s tx m).tradeList := by
  have hv : (split isColon (tradeValue tx)).length ≠ 13 := by
    rw [split_tradeValue]
    decide
  exact h.insert hv

theorem NoBasisRecord.matched {s s' : State} {pold pnew : CMPContractDex} {mp : TallyMap}
    {basisS basisB rS rB : Int} {value : Text} (h : NoBasisRecord s.tradeList)
    (heff : MatchEffect s s' pold pnew mp basisS basisB rS rB value) :
    NoBasisRecord s'.tradeList := by
  obtain ⟨stM, stT, lM, lT, hv⟩ := heff.recorded
  have hlen : (split isColon value).length ≠ 13 := by
    rw [hv, split_matchValue]
    decide
  rw [heff.state]
  exact h.insert hlen

/-! ## Totals -/

/-- What a list of entries adds to the collateral. -/
def collateralEffect (c : PropertyId) (l : List Entry) : Int :=
  (l.map fun e => e.toTotal c .balance).sum + (l.map fun e => e.toTotal c .contractDExReserve).sum

theorem collateralTotal_posted {s s' : State} {l : List Entry} (c : PropertyId)
    (h : Posted s.tallyMap s'.tallyMap l) :
    collateralTotal s' c = collateralTotal s c + collateralEffect c l := by
  unfold collateralTotal collateralEffect
  rw [h.total, h.total]
  ring

/-- Margin moves between two tallies of one address. -/
theorem collateralEffect_reserve (c p : PropertyId) (who : Address) (amount : Int) :
    collateralEffect c [⟨who, p, -amount, .balance⟩, ⟨who, p, amount, .contractDExReserve⟩] =
      0 := by
  by_cases h : c = p
  · simp [collateralEffect, Entry.toTotal, h]
  · simp [collateralEffect, Entry.toTotal, h]

/-- Settling one party adds its profit to the collateral. -/
theorem collateralEffect_close {s : State} (who : Address) (property : PropertyId)
    {close : MatchStatus × Int} {k r : Int} (h : Settles close k) :
    collateralEffect s.collateralCurrency (closeEntries s who property close 0 r) =
      pnl s.marketPrice s.notionalSize k 0 := by
  obtain ⟨hfreed, hprofit⟩ := h.freed s
  unfold closeEntries
  rw [hfreed, hprofit]
  simp [collateralEffect, settleEntries, Entry.toTotal]

theorem MatchEffect.collateral {s s' : State} {pold pnew : CMPContractDex} {mp : TallyMap}
    {basisS basisB rS rB : Int} {value : Text}
    (heff : MatchEffect s s' pold pnew mp basisS basisB rS rB value)
    (hdb : NoBasisRecord s.tradeList) (hprop : pold.property = pnew.property) :
    collateralTotal s' s.collateralCurrency = collateralTotal s s.collateralCurrency +
      (pnl s.marketPrice s.notionalSize (parties s pold pnew).closedSeller 0 +
        pnl s.marketPrice s.notionalSize (parties s pold pnew).closedBuyer 0) := by
  obtain ⟨rfl, -, rfl, -⟩ := heff.basis hdb
  have hpos : collateralTotal (s.withTally mp) s.collateralCurrency =
      collateralTotal s s.collateralCurrency := by
    rw [collateralTotal_posted _ heff.positions]
    simp [collateralEffect, Parties.sellerEntries, Parties.buyerEntries, Entry.toTotal]
  have hset := collateralTotal_posted (s := s.withTally mp) s.collateralCurrency heff.settled
  have hsplit : ∀ l l', collateralEffect s.collateralCurrency (l ++ l') =
      collateralEffect s.collateralCurrency l + collateralEffect s.collateralCurrency l' := by
    intro l l'
    simp only [collateralEffect, List.map_append, List.sum_append]
    ring
  rw [hset, hpos, hsplit, collateralEffect_close _ _ (settles_sellerClose hprop heff.positions),
    collateralEffect_close _ _ (settles_buyerClose hprop heff.positions)]

/-! ## The run -/

/-- The collateral property `c` is fixed, no trade record has a basis, and as long as every step
    conserves, the total is `T`. -/
structure CollateralInv (c : PropertyId) (T : Int) (w : World) : Prop where
  currency : w.state.collateralCurrency = c
  records : NoBasisRecord w.state.tradeList
  total : (∀ e ∈ w.trace, e.Conserves) → collateralTotal w.state c = T

section Run

variable {c : PropertyId} {T : Int}

/-- A step that posts entries and notes an event. -/
theorem CollateralInv.posted {w w' : World} {l : List Entry} (h : CollateralInv c T w)
    (hcur : w'.state.collateralCurrency = w.state.collateralCurrency)
    (hdb : NoBasisRecord w'.state.tradeList) (ht : ∀ e ∈ w.trace, e ∈ w'.trace)
    (hposted : Posted w.state.tallyMap w'.state.tallyMap l)
    (hl : (∀ e ∈ w'.trace, e.Conserves) → collateralEffect c l = 0) : CollateralInv c T w' where
  currency := by rw [hcur, h.currency]
  records := hdb
  total := by
    intro hok
    rw [collateralTotal_posted c hposted, hl hok, add_zero]
    exact h.total fun e he => hok e (ht e he)

/-- A step that leaves the ledger alone. -/
theorem CollateralInv.same {w w' : World} (h : CollateralInv c T w)
    (hcur : w'.state.collateralCurrency = w.state.collateralCurrency)
    (hdb : w'.state.tradeList = w.state.tradeList) (ht : ∀ e ∈ w.trace, e ∈ w'.trace)
    (htally : w'.state.tallyMap = w.state.tallyMap) : CollateralInv c T w' :=
  h.posted (l := []) hcur (hdb ▸ h.records) ht (htally ▸ Posted.refl _) fun _ => rfl

theorem CollateralInv.place {w : World} (h : CollateralInv c T w) (o : CMPContractDex) :
    CollateralInv c T (w.place o) :=
  h.same rfl rfl (by simp +contextual [World.place]) rfl

theorem collateralInv_engine :
    EngineInv (CollateralInv c T) fun e w => e.Stops ∨ CollateralInv c T w where
  condition := fun _ _ _ => Or.inl trivial
  visit := by
    intro w fs price key pold pnew hI _ _
    refine wp_mono (visitCandidate_spec pold pnew w) ?_ (fun _ _ h => Or.inl h.1)
    rintro _ w' ⟨m, hm, rfl⟩
    refine hI.posted rfl hI.records (by simp +contextual) hm fun _ => ?_
    simp [collateralEffect, liqEntry, Entry.toTotal]
  fill := by
    intro w fs price key pold pnew hI _ hc _
    refine wp_mono (fillOrder_spec pold pnew w) ?_ (fun _ _ h => Or.inl h.1)
    rintro rem w' ⟨-, s', mp, basisS, basisB, rS, rB, value, heff, rfl⟩
    have hcol := heff.collateral hI.records hc.property
    refine ⟨?_, ?_, ?_⟩
    · show s'.collateralCurrency = c
      rw [heff.state]
      exact hI.currency
    · exact hI.records.matched heff
    · intro hok
      have hnothing : BooksNothing w.state pold pnew := hok _ List.mem_cons_self
      rw [hI.currency, hnothing, add_zero] at hcol
      rw [hcol]
      exact hI.total fun e he => hok e (List.mem_cons_of_mem _ he)
  check := by
    intro w p a last hI _
    exact hI.same rfl rfl (by simp +contextual) rfl
  call := by
    intro w p a last rest hI _ _ _
    exact hI.place _
  reset := by
    intro w s p a last liq hI _ _ _
    rw [wp_onState]
    refine wp_mono (assertUpdate_posts _ _ _ _ w.state) ?_ (fun _ _ h => Or.inl h)
    rintro _ s' ⟨m, rfl, hm⟩
    refine hI.posted rfl hI.records (by simp) hm fun _ => ?_
    simp [collateralEffect, Entry.toTotal]
  erase := by
    intro w w0 fs price key pold pnew rem hI _ _ _ _ _
    refine wp_mono (eraseMatched_spec price key pold pnew rem w) ?_ ?_
    · rintro _ w' ⟨-, rfl⟩
      exact hI.same rfl rfl (by simp +contextual) rfl
    · rintro e w' ⟨rfl, -⟩
      exact Or.inl trivial
  rest := by
    intro w fs o hI _
    refine wp_imp (restOrder_spec o w _) ?_
    rintro _ w' rfl
    obtain ⟨book, hbook⟩ := restState_book w.state o
    refine hI.same ?_ ?_ (by simp) ?_ <;> simp [hbook]
  fuel := fun hI => Or.inr hI
  undefined := fun _ => Or.inl trivial

/-- Trades and cancels, no creations. -/
def ContractOp.KeepsParameters : ContractOp → Prop
  | .create _ _ => False
  | _ => True

theorem collateralInv_run :
    RunInv ContractOp.KeepsParameters (CollateralInv c T)
      fun e w => e.Stops ∨ CollateralInv c T w where
  toEngineInv := collateralInv_engine
  stops := fun _ _ h => Or.inl h
  submit := by
    intro w op _ hI _
    exact hI.same rfl rfl (by simp +contextual [World.submit]) rfl
  reserve := by
    intro w tx m _ hI _ _ hm _
    have hres : CollateralInv c T (reservedWorld w tx m) := by
      refine hI.posted rfl (hI.records.reserved tx m) (by simp [reservedWorld]) hm fun _ => ?_
      exact collateralEffect_reserve _ _ _ _
    exact ⟨fun _ => hres, fun _ => hres.place _⟩
  created := fun hop => hop.elim

end Run

/-- **COLLATERAL IS CONSERVED** by every run of trades, margin calls and cancels in which the profits
    that a match books cancel. -/
theorem collateral_conserved (s : State) (hdb : NoBasisRecord s.tradeList) (fuel : Nat)
    (ops : List ContractOp) (hops : ∀ op ∈ ops, op.KeepsParameters) :
    wp (runContracts fuel ops)
      (fun _ w => (∀ e ∈ w.trace, e.Conserves) →
        collateralTotal w.state s.collateralCurrency = collateralTotal s s.collateralCurrency)
      (fun e w => e.Stops ∨ ((∀ e ∈ w.trace, e.Conserves) →
        collateralTotal w.state s.collateralCurrency = collateralTotal s s.collateralCurrency))
      (World.start s) := by
  refine wp_mono (runContracts_rule (collateralInv_run (c := s.collateralCurrency)
    (T := collateralTotal s s.collateralCurrency)) fuel ops hops ?_ rfl) ?_ ?_
  · exact ⟨rfl, hdb, fun _ => rfl⟩
  · rintro _ w ⟨hI, -⟩
    exact hI.total
  · rintro e w (he | hI)
    · exact Or.inl he
    · exact Or.inr hI.total

theorem noBasisRecord_empty : NoBasisRecord ∅ := by
  intro key value h
  simp at h

set_option maxRecDepth 4000 in
private theorem roundTrip_conserves :
    (returned (runContracts 3 roundTrip) (World.start (marketState 0 1))).isSome = true ∧
    ∀ e ∈ (after (runContracts 3 roundTrip) (World.start (marketState 0 1))).trace, e.Conserves := by
  decide +kernel

/-- Without a notional size nothing is booked. -/
theorem collateral_conserved_roundTrip :
    ∃ w, runContracts 3 roundTrip (World.start (marketState 0 1)) = .ok () w ∧
      collateralTotal w.state 1 = collateralTotal (marketState 0 1) 1 := by
  have hops : ∀ op ∈ roundTrip, op.KeepsParameters := by
    simp [roundTrip, ContractOp.KeepsParameters]
  exact ⟨_, eq_ok_after roundTrip_conserves.1,
    wp_ok (collateral_conserved (marketState 0 1) noBasisRecord_empty 3 roundTrip hops)
      (eq_ok_after roundTrip_conserves.1) roundTrip_conserves.2⟩

set_option maxRecDepth 4000 in
/-- **COLLATERAL IS CREATED**: `A` buys a contract of notional size 1 from `B` at 100 and sells it
    back at 100. `A` is booked a profit of 100, nobody pays it. -/
theorem roundTrip_creates_collateral :
    (returned (runContracts 3 roundTrip) (World.start (marketState 1 1))).map
      (fun w => collateralTotal w.state 1) = some 300 ∧
    collateralTotal (marketState 1 1) 1 = 200 := by
  decide +kernel

end OmniCore
