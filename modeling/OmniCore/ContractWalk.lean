import OmniCore.ContractRest
import OmniCore.Lib.Listing

/-! # ContractWalk — the walk of `x_Trade` over the price levels

    `x_Trade` walks the price levels upwards, whoever is coming in. That is the best price
    first for an order that buys. An order that sells skips the levels below its own price
    and then takes the lowest bid that is left: the worst one. Here are price-time priority
    and what the fills of a call amount to as long as nothing comes in between. -/

namespace OmniCore

open Std (ExtTreeMap TransCmp OrientedCmp LawfulEqCmp ReflCmp)
open Machine TextRec MapSum Exec

/-! ## What should happen -/

/-- A fill: a resting order was matched in `pre` with what was left of the incoming order. -/
structure Fill where
  pre : State
  pold : CMPContractDex
  pnew : CMPContractDex

/-- The fills of a call of `x_Trade`, the last one first; `outer` are the calls around it. -/
def fillsOf (outer : List Frame) : List Event → List Fill
  | [] => []
  | .matched pre outer' pold pnew :: earlier =>
      if outer' = outer then ⟨pre, pold, pnew⟩ :: fillsOf outer earlier else fillsOf outer earlier
  | _ :: earlier => fillsOf outer earlier

/-- The contracts that a fill leaves of the incoming order. -/
def Fill.left (f : Fill) : Int := (incomingAfter f.pre f.pold f.pnew).amountForsale

/-- The event is no fill of the call inside `outer`. -/
def Event.NotFillOf (outer : List Frame) : Event → Prop
  | .matched _ outer' _ _ => outer' ≠ outer
  | _ => True

theorem fillsOf_cons_of_not {outer : List Frame} {e : Event} (he : e.NotFillOf outer) (l : List Event) :
    fillsOf outer (e :: l) = fillsOf outer l := by
  cases e with
  | matched pre outer' pold pnew => exact if_neg he
  | submitted pre op => rfl
  | placed o => rfl
  | candidate pre pold pnew => rfl
  | marginCheck pre p a last => rfl
  | erased pold intact => rfl

/-- Without fills in front, the fills stay. -/
theorem fillsOf_append_of_not {outer : List Frame} {new : List Event}
    (h : ∀ e ∈ new, e.NotFillOf outer) (l : List Event) :
    fillsOf outer (new ++ l) = fillsOf outer l := by
  induction new with
  | nil => rfl
  | cons e new ih =>
      rw [List.cons_append, fillsOf_cons_of_not (h e List.mem_cons_self)]
      exact ih fun x hx => h x (List.mem_cons_of_mem _ hx)

/-- The order can be matched with a resting order. -/
def Fillable (s : State) (taker o : CMPContractDex) : Prop :=
  Resting s o ∧ o.property = taker.property ∧ o.tradingAction ≠ taker.tradingAction ∧
    passesPrice taker o.effectivePrice = true ∧ min o.amountForsale taker.amountForsale ≠ 0

/-- The walk comes to the first order before it comes to the second one. -/
def WalkLt (a b : CMPContractDex) : Prop :=
  a.effectivePrice < b.effectivePrice ∨
    (a.effectivePrice = b.effectivePrice ∧ pairCmp a.key b.key = .lt)

theorem WalkLt.trans {a b c : CMPContractDex} (h : WalkLt a b) (h' : WalkLt b c) : WalkLt a c := by
  rcases h with h | ⟨h, hk⟩
  · rcases h' with h' | ⟨h', -⟩
    · exact Or.inl (h.trans h')
    · exact Or.inl (h' ▸ h)
  · rcases h' with h' | ⟨h', hk'⟩
    · exact Or.inl (h ▸ h')
    · exact Or.inr ⟨h.trans h', TransCmp.lt_trans hk hk'⟩

/-- The iterators have passed the place of the order. -/
def Passed (cursor : Option (Nat × OrderKey)) (o : CMPContractDex) : Prop :=
  behindCursor cursor o.effectivePrice o.key = true

/-- Behind an order the walk goes on with those it comes to later. -/
theorem passed_some_iff {a o : CMPContractDex} :
    Passed (some (a.effectivePrice, a.key)) o ↔ ¬ WalkLt a o := by
  unfold Passed behindCursor WalkLt
  have hswap : pairCmp o.key a.key ≠ .gt ↔ ¬ pairCmp a.key o.key = .lt := by
    rw [OrientedCmp.gt_iff_lt.ne]
  simp only [Bool.or_eq_true, decide_eq_true_eq, Bool.and_eq_true, beq_iff_eq, bne_iff_ne]
  rw [hswap]
  by_cases hk : pairCmp a.key o.key = .lt
  · simp only [hk, not_true_eq_false, and_false, or_false, and_true]
    omega
  · simp only [hk, not_false_eq_true, and_true, and_false, or_false]
    omega

section Walk

variable {s : State} {taker pold : CMPContractDex} {cursor : Option (Nat × OrderKey)}
  {price : Nat} {key : OrderKey}

/-- The walk comes to the resting orders of the property. -/
theorem mem_walk {p : PropertyId} {o : CMPContractDex} (ho : Resting s o) (hp : o.property = p) :
    (o.effectivePrice, o.key, o) ∈ offersInOrder (s.contractPrices p) := by
  rw [mem_offersInOrder]
  unfold Resting State.contractLevel at ho
  rw [hp] at ho
  cases hl : (s.contractPrices p)[o.effectivePrice]? with
  | none =>
      rw [hl] at ho
      simp at ho
  | some level =>
      rw [hl] at ho
      exact ⟨level, rfl, ho⟩

/-- **THE NEXT ORDER**: the first one at an acceptable price behind the iterators. -/
theorem nextOffer_first (hwf : BookWf s)
    (h : nextOffer (s.contractPrices taker.property) taker cursor = some (price, key, pold)) :
    price = pold.effectivePrice ∧ key = pold.key ∧ Resting s pold ∧ ¬ Passed cursor pold ∧
      ∀ o, Resting s o → o.property = taker.property → passesPrice taker o.effectivePrice = true →
        ¬ Passed cursor o → o = pold ∨ WalkLt pold o := by
  obtain ⟨hbook, -⟩ := nextOffer_inBook h
  obtain ⟨-, rfl, rfl⟩ := hwf _ _ _ pold hbook
  unfold nextOffer at h
  obtain ⟨htest, as, bs, hlist, has⟩ := List.find?_eq_some_iff_append.mp h
  simp only [Bool.and_eq_true, Bool.not_eq_true'] at htest
  refine ⟨rfl, rfl, hwf.resting hbook, by simp [Passed, htest.2], fun o ho hp hpass hnot => ?_⟩
  have hmem := mem_walk ho hp
  rw [hlist] at hmem
  rcases List.mem_append.mp hmem with hbefore | hafter
  · -- earlier entries did not pass the test
    have hfail := has _ hbefore
    unfold Passed at hnot
    simp [hpass, hnot] at hfail
  · rcases List.mem_cons.mp hafter with heq | hlater
    · left
      exact (Prod.mk.inj (Prod.mk.inj heq).2).2
    · right
      have hsorted := pairwise_nested (s.contractPrices taker.property)
      unfold offersInOrder at hlist
      rw [hlist] at hsorted
      have hlt := (List.pairwise_cons.mp (List.pairwise_append.mp hsorted).2.1).1 _ hlater
      rcases hlt with hlt | ⟨heq, hlt⟩
      · exact Or.inl (Nat.compare_eq_lt.mp hlt)
      · exact Or.inr ⟨heq, hlt⟩

end Walk

/-! ## What is known about the fills of a call -/

/-- The order buys or sells; any other one is matched without being reduced. -/
def BuysOrSells (o : CMPContractDex) : Prop :=
  o.tradingAction = actionBuy ∨ o.tradingAction = actionSell

/-- The first fill of an order that came in for the book of `s0`: nothing was filled before, and the
    walk comes to no other order earlier that can be matched. -/
def FirstFill (s0 : State) (taker : CMPContractDex) (f : Fill) : Prop :=
  f.pre.contractdex = s0.contractdex ∧ f.pnew = taker ∧
    ∀ o, Fillable f.pre f.pnew o → o = f.pold ∨ WalkLt f.pold o

/-- The fills of a call in which nothing comes in between, for an order that came in for the book of
    `s0`. -/
structure Walked (s0 : State) (taker : CMPContractDex) (fills : List Fill) : Prop where
  ascending : fills.Pairwise fun later earlier => WalkLt earlier.pold later.pold
  live : fills.Pairwise fun later earlier =>
    BuysOrSells earlier.pold → 0 < later.pold.amountForsale
  taken : ∀ f ∈ fills, Fillable f.pre f.pnew f.pold
  amounts : ∀ f ∈ fills, 0 ≤ f.pold.amountForsale
  takers : ∀ f ∈ fills, ∃ a, f.pnew = { taker with amountForsale := a }
  first : ∀ f ∈ fills, ∀ o, Fillable f.pre f.pnew o → BuysOrSells o → o = f.pold ∨ WalkLt f.pold o
  fromBook : ∀ f ∈ fills, ∀ o, Fillable f.pre f.pnew o → Fillable s0 taker o
  start : ∀ f, fills.getLast? = some f → FirstFill s0 taker f

theorem fillable_congr {s s' : State} (h : s'.contractdex = s.contractdex)
    (taker o : CMPContractDex) : Fillable s' taker o ↔ Fillable s taker o := by
  unfold Fillable
  rw [resting_congr h]

section Priority

variable {s0 : State} {taker : CMPContractDex} {fills : List Fill}

end Priority

end OmniCore
