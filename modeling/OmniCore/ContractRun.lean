import OmniCore.ContractMatch

/-! # ContractRun — whole histories of the contract market

    A history is a list of contract transactions. The engine rule covers what happens
    inside one trade; here it is extended to the three transaction types and, by
    induction over the list, to whole histories. -/

namespace OmniCore

open Std (ExtTreeMap)
open Machine TextRec MapSum Exec

/-! ## Histories -/

/-- The logic function of a transaction. -/
def ContractOp.exec (fuel : Nat) : ContractOp → ExecW Int
  | .trade tx => logicMathContractDexTrade fuel tx
  | .cancel tx => onState (logicMathContractDexCancelEcosystem tx)
  | .create blockHash tx => onState (logicMathCreateContractDex blockHash tx)

/-- Ghost: the trace notes which transaction comes next. -/
def World.submit (w : World) (op : ContractOp) : World :=
  { w with trace := .submitted w.state op :: w.trace }

/-- The transactions of a history one after the other. -/
def runContracts (fuel : Nat) (ops : List ContractOp) : ExecW Unit :=
  ops.forM fun op => do
    modify fun w => w.submit op
    let _ ← op.exec fuel

/-- A node between two transactions, before anything was traced. -/
def World.start (s : State) : World := ⟨s, [], fun _ => 0, []⟩

/-- The state an event was written in. -/
def Event.pre? : Event → Option State
  | .submitted pre _ => some pre
  | .candidate pre _ _ => some pre
  | .matched pre _ _ _ => some pre
  | .marginCheck pre _ _ _ => some pre
  | _ => none

/-- The states a run went through: where it stands, and every state the trace remembers. -/
def World.Seen (w : World) (s : State) : Prop :=
  s = w.state ∨ ∃ e ∈ w.trace, e.pre? = some s

/-- Every state a run went through has a property, as long as every event meets a condition. -/
def AllSeen (C : Event → Prop) (P : State → Prop) (w : World) : Prop :=
  (∀ e ∈ w.trace, C e) → ∀ s, w.Seen s → P s

section AllSeen

variable {C : Event → Prop} {P : State → Prop} {w w' : World}

theorem AllSeen.now (h : AllSeen C P w) (hok : ∀ e ∈ w.trace, C e) : P w.state :=
  h hok _ (Or.inl rfl)

/-- A step that notes nothing. -/
theorem AllSeen.quiet (h : AllSeen C P w) (ht : w'.trace = w.trace)
    (hstate : (∀ e ∈ w.trace, C e) → P w.state → P w'.state) : AllSeen C P w' := by
  intro hok
  rw [ht] at hok
  rintro s (rfl | ⟨x, hx, hpre⟩)
  · exact hstate hok (h.now hok)
  · rw [ht] at hx
    exact h hok s (Or.inr ⟨x, hx, hpre⟩)

/-- A step that notes one event. -/
theorem AllSeen.note {e : Event} (h : AllSeen C P w) (ht : w'.trace = e :: w.trace)
    (he : e.pre? = none ∨ e.pre? = some w.state)
    (hstate : (∀ x ∈ w.trace, C x) → C e → P w.state → P w'.state) : AllSeen C P w' := by
  intro hok
  rw [ht] at hok
  have hbefore : ∀ x ∈ w.trace, C x := fun x hx => hok x (List.mem_cons_of_mem _ hx)
  rintro s (rfl | ⟨x, hx, hpre⟩)
  · exact hstate hbefore (hok e List.mem_cons_self) (h.now hbefore)
  · rw [ht] at hx
    rcases List.mem_cons.mp hx with rfl | hx
    · rcases he with hnone | hsome
      · rw [hnone] at hpre
        cases hpre
      · rw [hsome, Option.some.injEq] at hpre
        exact h hbefore s (Or.inl hpre.symm)
    · exact h hbefore s (Or.inr ⟨x, hx, hpre⟩)

theorem allSeen_start {s : State} (hs : P s) : AllSeen C P (World.start s) := by
  rintro - s' (rfl | ⟨e, he, -⟩)
  · exact hs
  · simp [World.start] at he

end AllSeen

/-- A condition on every event of a trace, given the earlier ones. -/
def Along (C : Event → List Event → Prop) : List Event → Prop
  | [] => True
  | e :: earlier => C e earlier ∧ Along C earlier

instance {C : Event → List Event → Prop} [∀ e l, Decidable (C e l)] :
    (trace : List Event) → Decidable (Along C trace)
  | [] => isTrue trivial
  | e :: earlier =>
      have := instDecidableAlong (C := C) earlier
      inferInstanceAs (Decidable (C e earlier ∧ Along C earlier))

/-- The order that an event places. -/
def Event.order? : Event → Option CMPContractDex
  | .placed o => some o
  | _ => none

/-- What holds of every order that was placed can be checked on the trace. -/
instance decidableForallPlaced (P : CMPContractDex → Prop) [DecidablePred P] (trace : List Event) :
    Decidable (∀ o, Event.placed o ∈ trace → P o) :=
  decidable_of_iff (∀ e ∈ trace, ∀ o ∈ e.order?, P o) <| by
    constructor
    · exact fun h o ho => h _ ho o rfl
    · intro h e he o ho
      cases e with
      | placed o' =>
          cases ho
          exact h o he
      | _ => cases ho

theorem Along.suffix {C : Event → List Event → Prop} {l trace : List Event} (h : Along C trace)
    (hl : l <:+ trace) : Along C l := by
  induction trace with
  | nil =>
      rw [List.suffix_nil] at hl
      rw [hl]
      trivial
  | cons e rest ih =>
      rcases List.suffix_cons_iff.mp hl with rfl | hl
      · exact h
      · exact ih h.2 hl

/-! ## Placing a trade -/

/-- The margin a trade reserves: the 64-bit product of amount and requirement. -/
def amountToReserve (s : State) (tx : CMPTransaction) : Int :=
  toInt64 (tx.nValue.toNat * s.marginRequirementContract)

/-- The entries of a reserved margin. -/
def reserveEntries (s : State) (tx : CMPTransaction) : List Entry :=
  [⟨tx.sender, s.collateralCurrency, -amountToReserve s tx, .balance⟩,
   ⟨tx.sender, s.collateralCurrency, amountToReserve s tx, .contractDExReserve⟩]

/-- The record of a new trade. -/
def tradeValue (tx : CMPTransaction) : Text :=
  joinWith ':' [tx.sender.text, decNat tx.property.toNat, decNat tx.desiredProperty.toNat,
    decNat tx.block, decNat tx.txIdx]

/-- The state in which the order of a trade is placed, for the ledger after the reservation. -/
def reservedState (s : State) (tx : CMPTransaction) (m : TallyMap) : State :=
  { s.withTally m with tradeList := s.tradeList.insert (txidText tx.txid) (tradeValue tx) }

/-- The order of a trade. -/
def tradeOrder (w : World) (tx : CMPTransaction) : CMPContractDex :=
  newContractOrder (w.nextSerial tx.property.toNat) tx.sender tx.property.toNat
    (toInt64 tx.nValue.toNat) tx.block tx.desiredProperty.toNat (toInt64 tx.desiredValue.toNat) tx.txid tx.txIdx
    tx.effectivePrice.toNat tx.tradingAction.toNat

/-- The world in which the order of a trade is placed. -/
def reservedWorld (w : World) (tx : CMPTransaction) (m : TallyMap) : World :=
  { w with state := reservedState w.state tx m }

/-- A trade is rejected, or reserves its margin and hands its order to the engine. -/
theorem logicMathContractDexTrade_rule {I : World → Prop} {E : Halt → World → Prop}
    {M : CMPContractDex → CMPContractDex → World → Prop} (hE : EngineInv I E M) (fuel : Nat) (tx : CMPTransaction) {w : World} (hI : I w)
    (hstop : ∀ {e w'}, w'.trace = w.trace → e.Stops → E e w')
    (hplace : ∀ m, Posted w.state.tallyMap m (reserveEntries w.state tx) →
      amountToReserve w.state tx ≤
        w.state.getMPbalance tx.sender w.state.collateralCurrency .balance →
      (tx.effectivePrice.toNat = 0 → I (reservedWorld w tx m)) ∧
        (tx.effectivePrice.toNat ≠ 0 →
          I ((reservedWorld w tx m).place (tradeOrder w tx)))) :
    wp (logicMathContractDexTrade fuel tx)
      (fun _ w' => I w' ∧ Returned w w') E w := by
  unfold logicMathContractDexTrade
  rw [wp_bind, wp_get]
  dsimp only
  rw [wp_ite]
  refine ⟨fun _ => (wp_pure _ _ _ _).mpr ⟨hI, Returned.refl w⟩, fun hbal => ?_⟩
  simp only [wp_bind, wp_onState]
  refine wp_mono (assertUpdate_posts _ _ _ _ w.state) ?_ (fun e _ h => hstop rfl h)
  rintro _ s1 ⟨m1, rfl, hm1⟩
  refine wp_mono (assertUpdate_posts _ _ _ _ _) ?_ (fun e _ h => hstop rfl h)
  rintro _ s2 ⟨m2, rfl, hm2⟩
  have hposted : Posted w.state.tallyMap m2 (reserveEntries w.state tx) := hm1.trans hm2
  obtain ⟨hI2, hpl⟩ := hplace m2 hposted (not_lt.mp hbal)
  simp only [recordNewTrade, wp_modify, contractDexAdd, wp_bind, wp_get]
  exact contractDexAdd_rule (w := reservedWorld w tx m2) (o := tradeOrder w tx) hE fuel hI2 hpl

/-! ## Cancelling and creating -/

/-- The text of a contract order has two conversions too many. -/
theorem CMPContractDex.toString_throws (o : CMPContractDex) (s : State) :
    o.toString s = .error .exception s :=
  rfl

/-- An order is printed before it is looked at whose it is. -/
theorem cancelContractOrder_throws (txid : Txid) (block : Nat) (sender : Address) (rc : Int)
    (e : PropertyId × Nat × OrderKey × CMPContractDex) (s : State) :
    cancelContractOrder txid block sender rc e s = .error .exception s := by
  unfold cancelContractOrder
  simp only [bind, EStateM.bind, CMPContractDex.toString_throws]

/-- **A CANCEL THROWS AT THE FIRST ORDER** of its ecosystem, whoever placed it. -/
theorem contractDexCancelEverything_eq (txid : Txid) (block : Nat) (sender : Address)
    (ecosystem : Nat) (s : State) :
    contractDexCancelEverything txid block sender ecosystem s =
      if contractOrdersIn s ecosystem = [] then .ok (metaDExError - 40) s
      else .error .exception s := by
  unfold contractDexCancelEverything
  simp only [bind, EStateM.bind, get, getThe, MonadStateOf.get, EStateM.get]
  cases contractOrdersIn s ecosystem with
  | nil => rfl
  | cons e rest =>
      rw [List.foldlM_cons, if_neg (List.cons_ne_nil e rest)]
      simp only [bind, EStateM.bind, cancelContractOrder_throws]

/-- So it changes nothing, whether it returns or not. -/
theorem logicMathContractDexCancelEcosystem_spec (tx : CMPTransaction) (s : State) :
    wp (logicMathContractDexCancelEcosystem tx) (fun _ s' => s' = s)
      (fun e s' => e = .exception ∧ s' = s) s := by
  unfold logicMathContractDexCancelEcosystem
  simp only [wp_bind, wp_get, wp_ite, wp_pure]
  refine ⟨fun _ => trivial, fun _ => ⟨fun _ => trivial, fun _ => ?_⟩⟩
  rw [wp_iff, contractDexCancelEverything_eq]
  by_cases horders : contractOrdersIn s tx.ecosystem.toNat = []
  · rw [if_pos horders]
  · rw [if_neg horders]
    exact ⟨rfl, rfl⟩

/-- The state after a creation in a block of the chain. -/
def createdState (s : State) (tx : CMPTransaction) (blockHash : Nat) : State :=
  { s with
    blocksUntilExpiration := tx.blocksUntilExpiration.toNat
    notionalSize := tx.notionalSize.toNat
    collateralCurrency := tx.collateralCurrency.toNat
    marginRequirementContract := tx.marginRequirement.toNat
    sps := (s.sps.putSP tx.ecosystem.toNat (contractEntry tx blockHash)).2 }

/-- A creation is rejected, or sets the parameters and registers the contract. -/
theorem logicMathCreateContractDex_spec (blockHash : Option Nat) (tx : CMPTransaction)
    (s : State) :
    wp (logicMathCreateContractDex blockHash tx)
      (fun _ s' => s' = s ∨ ∃ h, blockHash = some h ∧ s' = createdState s tx h)
      (fun e _ => e = .assertFailed .propertyId) s := by
  unfold logicMathCreateContractDex
  cases blockHash with
  | none => exact (wp_pure _ _ _ _).mpr (Or.inl rfl)
  | some h =>
      simp only [wp_bind, wp_modify, wp_get, wp_set, wp_assertThat, wp_pure]
      exact ⟨fun _ => Or.inr ⟨h, rfl, rfl⟩, fun _ => trivial⟩

/-! ## The run rule -/

/-- What one transaction of a history must keep, between transactions; `allowed` are the
    transactions the history is made of. -/
structure RunInv (allowed : ContractOp → Prop) (I : World → Prop) (E : Halt → World → Prop)
    (M : CMPContractDex → CMPContractDex → World → Prop := fun _ _ w => I w) :
    Prop extends EngineInv I E M where
  /-- a transaction may stop the run before the engine starts -/
  stops : ∀ {e : Halt} {w w' : World}, I w → w'.trace = w.trace → e.Stops → E e w'
  /-- the next transaction is noted -/
  submit : ∀ {w} (op : ContractOp), allowed op → I w → w.frames = [] → I (w.submit op)
  /-- a trade reserves its margin and is placed -/
  reserve : ∀ {w tx m}, allowed (.trade tx) → I w → w.frames = [] →
    (∃ rest, w.trace = .submitted w.state (.trade tx) :: rest) →
    Posted w.state.tallyMap m (reserveEntries w.state tx) →
    amountToReserve w.state tx ≤
      w.state.getMPbalance tx.sender w.state.collateralCurrency .balance →
    (tx.effectivePrice.toNat = 0 → I (reservedWorld w tx m)) ∧
      (tx.effectivePrice.toNat ≠ 0 → I ((reservedWorld w tx m).place (tradeOrder w tx)))
  /-- a contract is created -/
  created : ∀ {w tx h}, allowed (.create (some h) tx) → I w → w.frames = [] →
    (∃ rest, w.trace = .submitted w.state (.create (some h) tx) :: rest) →
    I { w with state := createdState w.state tx h }

/-- One transaction keeps the invariant. -/
theorem ContractOp.exec_rule {allowed : ContractOp → Prop} {I : World → Prop}
    {E : Halt → World → Prop} {M : CMPContractDex → CMPContractDex → World → Prop}
    (hR : RunInv allowed I E M) (fuel : Nat) (op : ContractOp)
    (hop : allowed op) {w : World} (hI : I w) (hf : w.frames = [])
    (htrace : ∃ rest, w.trace = .submitted w.state op :: rest) :
    wp (op.exec fuel) (fun _ w' => I w' ∧ w'.frames = []) E w := by
  cases op with
  | trade tx =>
      refine wp_imp (logicMathContractDexTrade_rule hR.toEngineInv fuel tx hI
        (hR.stops hI) (fun m hm hbal => hR.reserve hop hI hf htrace hm hbal)) ?_
      rintro _ w' ⟨hI', hf'⟩
      exact ⟨hI', by rw [hf'.1, hf]⟩
  | cancel tx =>
      unfold ContractOp.exec
      rw [wp_onState]
      refine wp_mono (logicMathContractDexCancelEcosystem_spec tx w.state) ?_ ?_
      · rintro _ s' rfl
        exact ⟨hI, hf⟩
      · rintro e s' ⟨rfl, rfl⟩
        exact hR.stops hI rfl trivial
  | create blockHash tx =>
      unfold ContractOp.exec
      rw [wp_onState]
      refine wp_mono (logicMathCreateContractDex_spec blockHash tx w.state) ?_ ?_
      · rintro _ s' (rfl | ⟨h, rfl, rfl⟩)
        · exact ⟨hI, hf⟩
        · exact ⟨hR.created hop hI hf htrace, hf⟩
      · rintro e s' rfl
        exact hR.stops hI rfl trivial

/-- **THE RUN RULE**: what every elementary step keeps holds after every history. -/
theorem runContracts_rule {allowed : ContractOp → Prop} {I : World → Prop}
    {E : Halt → World → Prop} {M : CMPContractDex → CMPContractDex → World → Prop}
    (hR : RunInv allowed I E M) (fuel : Nat) (ops : List ContractOp)
    (hops : ∀ op ∈ ops, allowed op) {w : World} (hI : I w) (hf : w.frames = []) :
    wp (runContracts fuel ops) (fun _ w' => I w' ∧ w'.frames = []) E w := by
  unfold runContracts
  refine wp_forM (I := fun w' => I w' ∧ w'.frames = []) (fun op hop w1 h1 => ?_) ⟨hI, hf⟩
  simp only [wp_bind, wp_modify, wp_pure]
  exact ContractOp.exec_rule hR fuel op (hops op hop) (hR.submit op (hops op hop) h1.1 h1.2) h1.2
    ⟨_, rfl⟩

/-! ## A small market

    Two funded traders and the transactions they need; concrete runs start here. -/

/-- Every feature is active from the first block on; the notice periods are those of the main
    network. -/
def openParams : ConsensusParams := ⟨fun _ => 0, ⟨0, 0, 0, 0, 0, 0⟩, 2048, 12288, 4096⟩

def traderA : Address := ⟨['1', 'A'], by decide, by decide⟩

def traderB : Address := ⟨['1', 'B'], by decide, by decide⟩

def traderC : Address := ⟨['1', 'C'], by decide, by decide⟩

def traderD : Address := ⟨['1', 'D'], by decide, by decide⟩

def traderE : Address := ⟨['1', 'E'], by decide, by decide⟩

def traderF : Address := ⟨['1', 'F'], by decide, by decide⟩

/-- Each of two traders holds 100 of property 1, the collateral. -/
def fundedLedger : TallyMap :=
  (TallyMap.update (TallyMap.update ∅ traderA 1 100 .balance).2 traderB 1 100 .balance).2

/-- A fresh node with the two funded traders. -/
def fundedState : State := (State.fresh openParams).withTally fundedLedger

/-- The creation of a contract with property 1 as collateral; on a fresh node it is property 3. -/
def createTx (notional margin : UInt32) : CMPTransaction :=
  { txid := 1, block := 10, txIdx := 1, sender := traderA, type := 40, ecosystem := 1,
    notionalSize := notional, collateralCurrency := 1, marginRequirement := margin }

/-- A contract order for property 3. -/
def orderTx (sender : Address) (txid block : Nat) (action : UInt8) (amount price : UInt64) :
    CMPTransaction :=
  { txid := txid, block := block, txIdx := 1, sender := sender, type := 29, property := 3,
    nValue := amount, effectivePrice := price, tradingAction := action }

/-- A contract is created, `A` offers a contract and `B` takes it. -/
def oneTrade : List ContractOp :=
  [.create (some 0) (createTx 0 1), .trade (orderTx traderA 2 11 2 1 100),
    .trade (orderTx traderB 3 12 1 1 100)]

/-- `A` bids 100 for a contract and `B` sells for 80 or more: at the market price of 100 neither
    liquidation price, 85 and 92, is reached. -/
def quietTrade : List ContractOp :=
  [.create (some 0) (createTx 0 1), .trade (orderTx traderA 2 11 1 1 100),
    .trade (orderTx traderB 3 12 2 1 80)]

set_option maxRecDepth 4000 in
theorem quietTrade_returns :
    (returned (runContracts 3 quietTrade) (World.start fundedState)).isSome = true := by
  decide +kernel

/-- The node after the creation of a contract. -/
def marketState (notional margin : UInt32) : State :=
  createdState fundedState (createTx notional margin) 0

/-- `A` goes long against `B`, and sells back to `B` at the same price. -/
def roundTrip : List ContractOp :=
  [.trade (orderTx traderA 2 11 1 1 100), .trade (orderTx traderB 3 12 2 1 80),
    .trade (orderTx traderB 4 13 1 1 100), .trade (orderTx traderA 5 14 2 1 80)]

theorem fundedLedger_posted :
    Posted ∅ fundedLedger [⟨traderA, 1, 100, .balance⟩, ⟨traderB, 1, 100, .balance⟩] :=
  (credited_update (by decide)).posted.trans (credited_update (by decide)).posted

end OmniCore
