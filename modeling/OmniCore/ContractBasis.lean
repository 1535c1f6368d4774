import OmniCore.ContractCollateral

/-! # ContractBasis — what the closed contracts cost

    `getTradeBasis` should say what the contracts that an address closes had cost, first in,
    first out, and count them as used. It reads the records of matches from the trade
    database, and only those of 13 fields; `recordMatchedTrade` writes 12. -/

namespace OmniCore

open Std (ExtTreeMap)
open Machine TextRec MapSum Exec

/-! ## The cost, first in, first out -/

/-- The arguments of one call of `recordMatchedTrade` for contracts. -/
structure MatchCall where
  txid1 : Txid
  txid2 : Txid
  address1 : Address
  address2 : Address
  effectivePrice : Nat
  amountForsale : Nat
  amountStillForsale : Int
  blockNum1 : Nat
  blockNum2 : Nat
  status1 : MatchStatus
  status2 : MatchStatus
  livesMaker : Int
  livesTaker : Int
  propertyTraded : PropertyId

/-- The call. -/
def MatchCall.record (c : MatchCall) : ExecM Unit :=
  recordMatchedContract c.txid1 c.txid2 c.address1 c.address2 c.effectivePrice c.amountForsale
    c.amountStillForsale c.blockNum1 c.blockNum2 c.status1 c.status2 c.livesMaker c.livesTaker
    c.propertyTraded

/-- The prices at which an address traded contracts of a property, contract by contract, in the order of
    execution. -/
def contractPrices (calls : List MatchCall) (a : Address) (p : PropertyId) : List Int :=
  (calls.filter fun c => (c.address1 == a || c.address2 == a) && c.propertyTraded == p).flatMap
    fun c => List.replicate c.amountForsale (c.effectivePrice : Int)

/-- What `k` contracts cost after the first `remaining` ones. -/
def fifoCost (calls : List MatchCall) (a : Address) (p : PropertyId) (remaining k : Nat) : Int :=
  (((contractPrices calls a p).drop remaining).take k).sum

/-- `A` bought two contracts at 100 and three at 70: after the first one, two cost 170. -/
example : fifoCost
    [⟨2, 3, traderA, traderB, 100, 2, 0, 11, 12, .none, .none, 2, 2, 3⟩,
      ⟨4, 5, traderA, traderB, 70, 3, 0, 13, 14, .none, .none, 5, 5, 3⟩] traderA 3 1 2 = 170 := by
  decide

/-- The trade basis of `k` contracts is their cost, and they are counted as used. -/
def BasisExact (calls : List MatchCall) (a : Address) (p : PropertyId) (k : Nat) (s : State) : Prop :=
  ∃ s', getTradeBasis a k p s =
      .ok (fifoCost calls a p (s.getMPbalance a p .remaining).toNat k) s' ∧
    s'.getMPbalance a p .remaining = s.getMPbalance a p .remaining + k

/-! ## What it does -/

/-- The records of contract matches are none of those that `getTradeBasis` reads. -/
theorem NoBasisRecord.record (c : MatchCall) {s : State} (h : NoBasisRecord s.tradeList) :
    wp c.record (fun _ s' => NoBasisRecord s'.tradeList) (fun _ _ => False) s := by
  have hfields : ∀ t ∈ [c.address1.text, c.address2.text, decNat c.effectivePrice,
      decInt (toUInt64 c.amountForsale), decInt (toUInt64 c.amountStillForsale),
      decInt c.blockNum1, decInt c.blockNum2, c.status1.text, c.status2.text,
      decInt c.livesMaker, decInt c.livesTaker, decNat c.propertyTraded], IsField t := by
    simp [isField_decNat, isField_decInt, isField_address, isField_status]
  unfold MatchCall.record recordMatchedContract
  rw [wp_modify]
  refine h.insert ?_
  rw [split_record (by simp) hfields]
  simp

/-- All of them. -/
theorem noBasisRecord_calls (calls : List MatchCall) {s : State} (h : NoBasisRecord s.tradeList) :
    wp (calls.forM MatchCall.record) (fun _ s' => NoBasisRecord s'.tradeList) (fun _ _ => False) s :=
  wp_forM (I := fun s' : State => NoBasisRecord s'.tradeList) (fun c _ _ hs => hs.record c) h

/-- Without such records the scan ends where it began. -/
theorem tradeBasisScan_eq (a : Address) (closed : Int) (p : PropertyId) (aux : Int)
    (values : List Text) (st : BasisScan) (h : ∀ v ∈ values, (split isColon v).length ≠ 13) :
    tradeBasisScan a closed p aux values st = pure st.totalAmount := by
  induction values with
  | nil => rfl
  | cons value rest ih =>
      unfold tradeBasisScan
      split
      · next hsplit =>
          exact absurd (by rw [hsplit]; rfl) (h value List.mem_cons_self)
      · exact ih fun v hv => h v (List.mem_cons_of_mem _ hv)

theorem getTradeBasis_eq_zero {s : State} (h : NoBasisRecord s.tradeList) (a : Address) (k : Int)
    (p : PropertyId) : getTradeBasis a k p s = .ok 0 s := by
  have hvalues : ∀ v ∈ s.tradeList.toList.map Prod.snd, (split isColon v).length ≠ 13 := by
    intro v hv
    obtain ⟨e, he, rfl⟩ := List.mem_map.mp hv
    exact h e.1 e.2 (mem_toList_iff.mp he)
  unfold getTradeBasis
  simp only [bind, EStateM.bind, get, getThe, MonadStateOf.get, EStateM.get]
  rw [tradeBasisScan_eq _ _ _ _ _ _ hvalues]
  rfl

/-- **THE TRADE BASIS IS EXACT FOR NO CONTRACT, AND ONLY THEN**: in a database that the recorded matches
    made, the basis is 0 and no contract is counted, however many were closed. -/
theorem trade_basis_iff (calls : List MatchCall) {s0 s : State} (hempty : s0.tradeList = ∅)
    (hcalls : calls.forM MatchCall.record s0 = .ok () s) (a : Address) (p : PropertyId) (k : Nat) :
    BasisExact calls a p k s ↔ k = 0 := by
  have hdb : NoBasisRecord s.tradeList := by
    refine wp_ok (noBasisRecord_calls calls (s := s0) ?_) hcalls
    rw [hempty]
    exact noBasisRecord_empty
  unfold BasisExact
  rw [getTradeBasis_eq_zero hdb]
  constructor
  · rintro ⟨s', hrun, hcount⟩
    injection hrun with _ hs
    subst hs
    omega
  · rintro rfl
    refine ⟨s, ?_, by simp⟩
    simp [fifoCost]

/-- `A` bought two contracts from `B` at 100. -/
def twoBought : List MatchCall :=
  [⟨2, 3, traderA, traderB, 100, 2, 0, 11, 12, .none, .none, 2, 2, 3⟩]

/-- The state in which this match is recorded. -/
def boughtState : State := after (twoBought.forM MatchCall.record) fundedState

theorem boughtState_recorded : twoBought.forM MatchCall.record fundedState = .ok () boughtState := rfl

/-- After one match. -/
theorem trade_basis_iff_boughtState :
    twoBought.forM MatchCall.record fundedState = .ok () boughtState ∧
    (BasisExact twoBought traderA 3 1 boughtState ↔ 1 = 0) :=
  ⟨boughtState_recorded, trade_basis_iff twoBought rfl boughtState_recorded traderA 3 1⟩

set_option maxRecDepth 4000 in
private theorem boughtState_basis : value (getTradeBasis traderA 1 3) boughtState = some 0 := by
  decide +kernel

set_option maxRecDepth 4000 in
private theorem boughtState_cost :
    fifoCost twoBought traderA 3 (boughtState.getMPbalance traderA 3 .remaining).toNat 1 = 100 := by
  decide +kernel

/-- **A CLOSED CONTRACT COSTS NOTHING**: it was bought at 100, and its basis is 0. -/
theorem boughtState_not_exact : ¬ BasisExact twoBought traderA 3 1 boughtState := by
  rintro ⟨s', hrun, -⟩
  rw [boughtState_cost] at hrun
  have hzero := eq_ok_of_value boughtState_basis
  rw [show ((1 : Nat) : Int) = 1 from rfl, hzero] at hrun
  injection hrun with hcost
  cases hcost

end OmniCore
