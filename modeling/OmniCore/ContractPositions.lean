import OmniCore.ContractRun

/-! # ContractPositions — longs and shorts net out

    A match moves the net position of the seller down and that of the buyer up by
    the same amount, whichever of the six branches each side takes and whether or
    not they are the same address. So the longs and the shorts of a contract have
    the same sum in every state of every run. -/

namespace OmniCore

open Std (ExtTreeMap)
open Machine TextRec MapSum Exec

/-- Over all addresses, longs and shorts of every contract have the same sum. -/
def NetsOut (s : State) : Prop :=
  ∀ p, s.tallyMap.total p .possitiveBalance = s.tallyMap.total p .negativeBalance

/-- What a list of entries adds to the difference between longs and shorts of a contract. -/
def netEffect (l : List Entry) (p : PropertyId) : Int :=
  (l.map fun e => e.toTotal p .possitiveBalance).sum -
    (l.map fun e => e.toTotal p .negativeBalance).sum

/-- Entries without effect on the difference keep longs and shorts in step. -/
theorem NetsOut.posted {s : State} {m : TallyMap} {l : List Entry} (h : NetsOut s)
    (hm : Posted s.tallyMap m l) (hl : ∀ p, netEffect l p = 0) : NetsOut (s.withTally m) := by
  intro p
  have hzero := hl p
  have hsame := h p
  unfold netEffect at hzero
  rw [State.withTally_tallyMap, hm.total, hm.total]
  omega

/-- **A MATCH NETS OUT**: the two position updates have opposite effects. -/
theorem netEffect_positions (q : Parties) (property p : PropertyId) :
    netEffect (q.sellerEntries property ++ q.buyerEntries property) p = 0 := by
  by_cases hp : p = property
  · simp [netEffect, Parties.sellerEntries, Parties.buyerEntries, Entry.toTotal, hp]
    ring
  · simp [netEffect, Parties.sellerEntries, Parties.buyerEntries, Entry.toTotal, hp]

/-- Settlement touches no position. -/
theorem netEffect_close (s : State) (who who' : Address) (property p : PropertyId)
    (close close' : MatchStatus × Int) (basis basis' r r' : Int) :
    netEffect (closeEntries s who property close basis r ++
      closeEntries s who' property close' basis' r') p = 0 := by
  simp [netEffect, closeEntries, settleEntries, Entry.toTotal]

theorem MatchEffect.netsOut {s s' : State} {pold pnew : CMPContractDex} {mp : TallyMap}
    {basisS basisB rS rB : Int} {value : Text}
    (heff : MatchEffect s s' pold pnew mp basisS basisB rS rB value) (h : NetsOut s) :
    NetsOut s' := by
  have hmid : NetsOut (s.withTally mp) :=
    h.posted heff.positions (netEffect_positions _ _)
  exact hmid.posted heff.settled (netEffect_close s _ _ _ · _ _ _ _ _ _)

/-- Every state a run went through nets out. -/
def AllNetOut (w : World) : Prop := ∀ s, w.Seen s → NetsOut s

theorem AllNetOut.now {w : World} (h : AllNetOut w) : NetsOut w.state := h _ (Or.inl rfl)

theorem AllNetOut.step {w w' : World} (h : AllNetOut w) (hstate : NetsOut w'.state)
    (htrace : ∀ e ∈ w'.trace, e ∈ w.trace ∨ e.pre? = none ∨ e.pre? = some w.state) :
    AllNetOut w' := by
  rintro s (rfl | ⟨e, he, hpre⟩)
  · exact hstate
  · rcases htrace e he with hmem | hnone | hsome
    · exact h s (Or.inr ⟨e, hmem, hpre⟩)
    · rw [hnone] at hpre
      cases hpre
    · rw [hsome, Option.some.injEq] at hpre
      exact h s (Or.inl hpre.symm)

theorem allNetOut_engine :
    EngineInv AllNetOut fun e w => e.Stops ∨ AllNetOut w where
  condition := fun _ _ _ => Or.inl trivial
  visit := by
    intro w fs price key pold pnew hI _ _
    refine wp_mono (visitCandidate_spec pold pnew w) ?_ (fun _ _ h => Or.inl h.1)
    rintro _ w' ⟨m, hm, rfl⟩
    refine hI.step ?_ (by simp [Event.pre?]; grind)
    exact hI.now.posted hm fun p => by
      simp [netEffect, liqEntry, Entry.toTotal]
  fill := by
    intro w fs price key pold pnew hI _ _ _
    refine wp_mono (fillOrder_spec pold pnew w) ?_ (fun _ _ h => Or.inl h.1)
    rintro rem w' ⟨-, s', mp, basisS, basisB, rS, rB, value, heff, rfl⟩
    exact hI.step (heff.netsOut hI.now) (by simp [Event.pre?]; grind)
  check := by
    intro w p a last hI _
    exact hI.step hI.now (by simp [Event.pre?]; grind)
  call := by
    intro w p a last rest hI _ _ _
    exact hI.step hI.now (by simp [World.place, Event.pre?]; grind)
  reset := by
    intro w s p a last liq hI _ _ _
    rw [wp_onState]
    refine wp_mono (assertUpdate_posts _ _ _ _ w.state) ?_ (fun _ _ h => Or.inl h)
    rintro _ s' ⟨m, rfl, hm⟩
    refine hI.step ?_ (by simp; grind)
    exact hI.now.posted hm fun p => by simp [netEffect, Entry.toTotal]
  erase := by
    intro w w0 fs price key pold pnew rem hI _ _ _ _ _
    refine wp_mono (eraseMatched_spec price key pold pnew rem w) ?_ ?_
    · rintro _ w' ⟨-, rfl⟩
      exact hI.step hI.now (by simp [Event.pre?]; grind)
    · rintro e w' ⟨rfl, -⟩
      exact Or.inl trivial
  rest := by
    intro w fs o hI _
    refine wp_imp (restOrder_spec o w _) ?_
    rintro _ w' rfl
    refine hI.step ?_ (by simp; grind)
    have hbook : (restState w.state o).tallyMap = w.state.tallyMap := by
      unfold restState State.setContractLevel
      split <;> rfl
    intro p
    show (restState w.state o).tallyMap.total p _ = (restState w.state o).tallyMap.total p _
    rw [hbook]
    exact hI.now p
  fuel := fun hI => Or.inr hI
  undefined := fun _ => Or.inl trivial

theorem allNetOut_run : RunInv (fun _ => True) AllNetOut fun e w => e.Stops ∨ AllNetOut w where
  toEngineInv := allNetOut_engine
  stops := fun _ _ h => Or.inl h
  submit := by
    intro w op _ hI _
    exact hI.step hI.now (by simp [World.submit, Event.pre?]; grind)
  reserve := by
    intro w tx m _ hI _ _ hm _
    have hstate : NetsOut (reservedState w.state tx m) :=
      hI.now.posted hm fun p => by
        simp [netEffect, reserveEntries, Entry.toTotal]
    have hres : AllNetOut (reservedWorld w tx m) :=
      hI.step hstate (by simp [reservedWorld]; grind)
    refine ⟨fun _ => hres, fun _ => hres.step hstate ?_⟩
    simp [World.place, Event.pre?]
    grind
  created := by
    intro w tx h _ hI _ _
    exact hI.step hI.now (by simp; grind)

/-- **POSITIONS NET OUT** in every state that a run of contract transactions goes through: in the
    states between transactions, before and after every match, at every address `marginLogic`
    looks at and wherever the recursion of margin calls stands when its fuel is used up. -/
theorem longs_eq_shorts (s : State) (hs : NetsOut s) (fuel : Nat) (ops : List ContractOp) :
    wp (runContracts fuel ops)
      (fun _ w => ∀ s', w.Seen s' → ∀ p, s'.tallyMap.total p .possitiveBalance =
        s'.tallyMap.total p .negativeBalance)
      (fun e w => e.Stops ∨ ∀ s', w.Seen s' → ∀ p, s'.tallyMap.total p .possitiveBalance =
        s'.tallyMap.total p .negativeBalance)
      (World.start s) := by
  refine wp_imp (runContracts_rule allNetOut_run fuel ops (by simp) ?_ rfl) (fun _ w' h => h.1)
  rintro s' (rfl | ⟨e, he, -⟩)
  · exact hs
  · simp [World.start] at he

/-- A node without positions nets out. -/
theorem fundedState_netsOut : NetsOut fundedState := by
  have hempty : NetsOut (State.fresh openParams) := fun _ => rfl
  exact hempty.posted fundedLedger_posted fun p => by simp [netEffect, Entry.toTotal]

/-- One trade between two addresses returns, and they net out all along. -/
theorem longs_eq_shorts_quietTrade :
    ∃ w, runContracts 3 quietTrade (World.start fundedState) = .ok () w ∧
      ∀ s', w.Seen s' → ∀ p, s'.tallyMap.total p .possitiveBalance =
        s'.tallyMap.total p .negativeBalance :=
  ⟨_, eq_ok_after quietTrade_returns,
    wp_ok (longs_eq_shorts fundedState fundedState_netsOut 3 quietTrade)
      (eq_ok_after quietTrade_returns)⟩

end OmniCore
