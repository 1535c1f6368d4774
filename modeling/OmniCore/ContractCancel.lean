import OmniCore.ContractRest

/-! # ContractCancel — what a cancelled contract order gives back

    A trade reserves margin: amounts of the collateral, in `CONTRACTDEX_RESERVE`. A cancel
    should give the margin of the unfilled contracts back. But for every order it passes,
    whoever placed it, it puts a line of the log together whose text has two conversions
    too many, so it throws at the first one, and nothing is cancelled. (What stands behind
    that line moves contracts out of `METADEX_RESERVE`, not margin.) -/

namespace OmniCore

open Std (ExtTreeMap)
open Machine TextRec MapSum Exec

/-! ## What a cancel should do -/

/-- The property is in the ecosystem, 1 or 2. -/
def InEcosystem (ecosystem : Nat) (p : PropertyId) : Prop :=
  if ecosystem = omniPropertyMSC then isMainEcosystemProperty p = true
  else isTestEcosystemProperty p = true

instance (ecosystem : Nat) (p : PropertyId) : Decidable (InEcosystem ecosystem p) := by
  unfold InEcosystem
  infer_instance

/-- A resting order whose property is in the ecosystem. -/
def InCancelledBook (s : State) (ecosystem : Nat) (o : CMPContractDex) : Prop :=
  Resting s o ∧ InEcosystem ecosystem o.property

/-- A resting order of the sender whose property is in the ecosystem. -/
def ToCancel (s : State) (sender : Address) (ecosystem : Nat) (o : CMPContractDex) : Prop :=
  Resting s o ∧ o.addr = sender ∧ InEcosystem ecosystem o.property

/-- The number of contracts for which the orders to cancel are. -/
def contractsToCancel (s : State) (sender : Address) (ecosystem : Nat) : Int :=
  (((contractOrdersIn s ecosystem).filter fun e => e.2.2.2.addr == sender).map
    fun e => e.2.2.2.amountForsale).sum

/-- The margin of these contracts, given back. -/
def marginReturned (s : State) (sender : Address) (ecosystem : Nat) : List Entry :=
  [⟨sender, s.collateralCurrency,
    -(s.marginRequirementContract * contractsToCancel s sender ecosystem), .contractDExReserve⟩,
   ⟨sender, s.collateralCurrency,
    s.marginRequirementContract * contractsToCancel s sender ecosystem, .balance⟩]

/-- A cancel as it should be: it takes out exactly the orders to cancel, gives back their margin,
    says whether there were any, and changes nothing else (it records what it took out). -/
structure CancelsMargin (s : State) (sender : Address) (ecosystem : Nat) (rc : Int) (s' : State) :
    Prop where
  code : rc = 0 ↔ ∃ o, ToCancel s sender ecosystem o
  book : ∀ p price (key : OrderKey) o, (s'.contractLevel p price)[key]? = some o ↔
    (s.contractLevel p price)[key]? = some o ∧ ¬ (o.addr = sender ∧ InEcosystem ecosystem p)
  ledger : Posted s.tallyMap s'.tallyMap (marginReturned s sender ecosystem)
  rest : s' = { s with
    tallyMap := s'.tallyMap
    contractdex := s'.contractdex
    txList := s'.txList }

/-! ## What it does -/

theorem inCancelledEcosystem_iff {ecosystem : Nat}
    (heco : ecosystem = omniPropertyMSC ∨ ecosystem = omniPropertyTMSC) (p : PropertyId) :
    inCancelledEcosystem ecosystem p = true ↔ InEcosystem ecosystem p := by
  rcases heco with rfl | rfl
  · simp [inCancelledEcosystem, InEcosystem, isMainEcosystemProperty, isTestEcosystemProperty,
      omniPropertyMSC, omniPropertyTMSC, omniPropertyBTC, testEcoProperty1]
  · simp [inCancelledEcosystem, InEcosystem, isMainEcosystemProperty, isTestEcosystemProperty,
      omniPropertyMSC, omniPropertyTMSC, omniPropertyBTC, testEcoProperty1]

/-- The loop passes the orders of the ecosystem, and no others. -/
theorem mem_contractOrdersIn {s : State} (hwf : BookWf s) {ecosystem : Nat}
    (heco : ecosystem = omniPropertyMSC ∨ ecosystem = omniPropertyTMSC) (o : CMPContractDex) :
    (∃ e ∈ contractOrdersIn s ecosystem, e.2.2.2 = o) ↔ InCancelledBook s ecosystem o := by
  unfold contractOrdersIn InCancelledBook
  simp only [List.mem_flatMap]
  constructor
  · rintro ⟨⟨p, price, key, o'⟩, ⟨⟨q, prices⟩, hq, hmem⟩, rfl⟩
    split at hmem
    · next hin =>
        obtain ⟨⟨price', key', o'⟩, hoff, heq⟩ := List.mem_map.mp hmem
        cases heq
        obtain ⟨level, hlevel, ho⟩ := mem_offersInOrder.mp hoff
        have hprices : s.contractdex[q]? = some prices := mem_toList_iff.mp hq
        have hplace : (s.contractLevel q price)[key]? = some o' := by
          simp only [State.contractLevel, State.contractPrices, hprices, Option.getD_some]
          rw [hlevel]
          exact ho
        obtain ⟨rfl, -, -⟩ := hwf _ _ _ _ hplace
        exact ⟨hwf.resting hplace, (inCancelledEcosystem_iff heco _).mp hin⟩
    · cases hmem
  · rintro ⟨hrest, hin⟩
    -- an order that rests is in the map of its price, which is in the map of its property
    unfold Resting State.contractLevel State.contractPrices at hrest
    cases hprices : s.contractdex[o.property]? with
    | none => simp [hprices] at hrest
    | some prices =>
        simp only [hprices, Option.getD_some] at hrest
        cases hlevel : prices[o.effectivePrice]? with
        | none => simp [hlevel] at hrest
        | some level =>
            simp only [hlevel, Option.getD_some] at hrest
            refine ⟨(o.property, o.effectivePrice, o.key, o),
              ⟨(o.property, prices), mem_toList_iff.mpr hprices, ?_⟩, rfl⟩
            rw [if_pos ((inCancelledEcosystem_iff heco _).mpr hin)]
            exact List.mem_map.mpr ⟨(o.effectivePrice, o.key, o),
              mem_offersInOrder.mpr ⟨level, hlevel, hrest⟩, rfl⟩

/-- The loop passes no order just if there is none in the ecosystem. -/
theorem contractOrdersIn_eq_nil {s : State} (hwf : BookWf s) {ecosystem : Nat}
    (heco : ecosystem = omniPropertyMSC ∨ ecosystem = omniPropertyTMSC) :
    contractOrdersIn s ecosystem = [] ↔ ¬ ∃ o, InCancelledBook s ecosystem o := by
  rw [List.eq_nil_iff_forall_not_mem]
  constructor
  · rintro hnil ⟨o, ho⟩
    obtain ⟨e, he, -⟩ := (mem_contractOrdersIn hwf heco o).mpr ho
    exact hnil e he
  · intro hnone e he
    exact hnone ⟨e.2.2.2, (mem_contractOrdersIn hwf heco _).mp ⟨e, he, rfl⟩⟩

/-- With nothing to cancel, changing nothing is right. -/
theorem cancelsMargin_refl {s : State} (hwf : BookWf s) {sender : Address} {ecosystem : Nat} {rc : Int}
    (hrc : rc ≠ 0) (hnil : contractOrdersIn s ecosystem = [])
    (hnone : ¬ ∃ o, InCancelledBook s ecosystem o) : CancelsMargin s sender ecosystem rc s where
  code := by
    refine ⟨fun h => absurd h hrc, ?_⟩
    rintro ⟨o, hrest, -, hin⟩
    exact absurd ⟨o, hrest, hin⟩ hnone
  book := by
    intro p price key o
    refine ⟨fun ho => ⟨ho, ?_⟩, fun ho => ho.1⟩
    rintro ⟨-, hin⟩
    rw [← (hwf _ _ _ _ ho).1] at hin
    exact hnone ⟨o, hwf.resting ho, hin⟩
  ledger := by
    have hcontracts : contractsToCancel s sender ecosystem = 0 := by
      simp [contractsToCancel, hnil]
    unfold marginReturned
    rw [hcontracts, mul_zero, neg_zero, posted_zero_cons, posted_zero_cons]
    exact Posted.refl _
  rest := rfl

/-- **A CANCEL RETURNS THE MARGIN IF NO ORDER OF ANYBODY RESTS IN THE ECOSYSTEM, AND ONLY THEN**:
    otherwise it throws. -/
theorem contract_cancel_exact_iff (txid : Txid) (block : Nat) {s : State} (hs : BookReached s)
    (sender : Address) {ecosystem : Nat}
    (heco : ecosystem = omniPropertyMSC ∨ ecosystem = omniPropertyTMSC) :
    (∃ rc s', contractDexCancelEverything txid block sender ecosystem s = .ok rc s' ∧
      CancelsMargin s sender ecosystem rc s') ↔ ¬ ∃ o, InCancelledBook s ecosystem o := by
  have hwf : BookWf s := hs.nonneg.wf
  rw [← contractOrdersIn_eq_nil hwf heco, contractDexCancelEverything_eq]
  constructor
  · rintro ⟨rc, s', hrun, -⟩
    by_contra hsome
    rw [if_neg hsome] at hrun
    cases hrun
  · intro hnil
    rw [if_pos hnil]
    exact ⟨_, s, rfl, cancelsMargin_refl hwf (by decide) hnil
      ((contractOrdersIn_eq_nil hwf heco).mp hnil)⟩

/-- `A` bids for one contract. -/
def bidOps : List ContractOp := [.trade (orderTx traderA 2 11 1 1 100)]

/-- The state in which this bid rests. -/
def bidState : State := (after (runContracts 3 bidOps) (World.start (marketState 0 1))).state

set_option maxRecDepth 4000 in
private theorem bidOps_return :
    (returned (runContracts 3 bidOps) (World.start (marketState 0 1))).isSome = true := by
  decide +kernel

theorem bidState_reached : BookReached bidState :=
  .run (.empty rfl) (eq_ok_after bidOps_return)

set_option maxRecDepth 4000 in
private theorem bidState_orders :
    (contractOrdersIn bidState omniPropertyMSC).map (fun e => e.2.2.2.addr) = [traderA] ∧
      contractOrdersIn bidState omniPropertyTMSC = [] := by
  decide +kernel

private theorem bidState_none :
    ¬ ∃ o, InCancelledBook bidState omniPropertyTMSC o :=
  (contractOrdersIn_eq_nil bidState_reached.nonneg.wf (Or.inr rfl)).mp bidState_orders.2

private theorem bidState_some : ∃ o, InCancelledBook bidState omniPropertyMSC o := by
  by_contra hnone
  have hnil := (contractOrdersIn_eq_nil bidState_reached.nonneg.wf (Or.inl rfl)).mpr hnone
  have horders := bidState_orders.1
  rw [hnil] at horders
  cases horders

/-- With the bid in the main ecosystem, a cancel in the test ecosystem returns. -/
theorem contract_cancel_exact_iff_otherEcosystem :
    BookReached bidState ∧ (∃ o, Resting bidState o) ∧
    ∃ rc s', contractDexCancelEverything 9 20 traderA omniPropertyTMSC bidState = .ok rc s' ∧
      CancelsMargin bidState traderA omniPropertyTMSC rc s' :=
  ⟨bidState_reached, bidState_some.imp fun _ h => h.1,
    (contract_cancel_exact_iff 9 20 bidState_reached traderA (Or.inr rfl)).mpr bidState_none⟩

/-- **CANCELLING A BID STOPS THE NODE**, and so does a cancel of `B`, who has no order. -/
theorem bidOps_cancel_fails :
    BookReached bidState ∧ ∀ sender ∈ [traderA, traderB],
      contractDexCancelEverything 9 20 sender omniPropertyMSC bidState = .error .exception bidState ∧
      ¬ ∃ rc s', contractDexCancelEverything 9 20 sender omniPropertyMSC bidState = .ok rc s' ∧
        CancelsMargin bidState sender omniPropertyMSC rc s' := by
  refine ⟨bidState_reached, fun sender _ => ?_⟩
  have hsome : contractOrdersIn bidState omniPropertyMSC ≠ [] := fun hnil =>
    (contractOrdersIn_eq_nil bidState_reached.nonneg.wf (Or.inl rfl)).mp hnil bidState_some
  have hrun := contractDexCancelEverything_eq 9 20 sender omniPropertyMSC bidState
  rw [if_neg hsome] at hrun
  refine ⟨hrun, ?_⟩
  rintro ⟨rc, s', hok, -⟩
  rw [hrun] at hok
  cases hok

end OmniCore
