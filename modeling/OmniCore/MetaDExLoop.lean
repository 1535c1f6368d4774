import OmniCore.MetaDExFills

/-! # MetaDExLoop — an invariant rule for the loops of `x_Trade`

    The two loops of `x_Trade` go through the places of one property of the book: price
    levels from the lowest on, and within a level the places in their order. Every place is
    visited once, after all places of lower levels. So an invariant may speak about the
    places that are done and about the visits that were made, and has to be kept by one
    visit of a fresh place only. -/

namespace OmniCore

open Std (ExtTreeMap)
open Machine TextRec MapSum Exec

/-- A predicate on the loop: the places that are done, the visits so far, the variables of the loop
    and the state. -/
abbrev LoopInv := (ℚ → OrderKey → Prop) → List MdVisit → MdTrade → State → Prop

/-- What the loop asks of an invariant, for a new order and the state `x_Trade` began in. A place may
    be done without a visit if the buyer is satisfied, the price is too high, or no order rests
    there. -/
structure LoopRule (new : CMPMetaDEx) (s0 : State) (J : LoopInv) : Prop where
  trade : ∀ {done vs t s}, J done vs t s → TradeOk new t
  untouched : ∀ {done vs t s}, J done vs t s → ∀ (price : ℚ) (k : OrderKey), ¬ done price k →
    (s.mdLevel new.desiredProperty price)[k]? = (s0.mdLevel new.desiredProperty price)[k]?
  offer : ∀ {done vs t s}, J done vs t s → ∀ {price : ℚ} {k : OrderKey},
    price ≤ new.inversePrice → ¬ done price k → (∀ price' k', done price' k' → price' ≤ price) →
    wp (visitOffer price t k)
      (J (fun price' k' => done price' k' ∨ price' = price ∧ k' = k) (vs ++ [⟨price, k, t, s⟩]))
      (fun _ _ => True) s
  widen : ∀ {done done' vs t s}, J done vs t s → (∀ price k, done price k → done' price k) →
    (∀ (price : ℚ) (k : OrderKey), done' price k → ¬ done price k → t.satisfied = true ∨
      new.inversePrice < price ∨ (s.mdLevel new.desiredProperty price)[k]? = none) →
    J done' vs t s

namespace LoopRule

variable {new : CMPMetaDEx} {s0 : State} {J : LoopInv} (h : LoopRule new s0 J)
include h

/-- Only the set of the places that are done matters. -/
theorem congr {done done' : ℚ → OrderKey → Prop} {vs : List MdVisit} {t : MdTrade} {s : State}
    (hJ : J done vs t s) (hiff : ∀ price k, done' price k ↔ done price k) : J done' vs t s :=
  h.widen hJ (fun price k => (hiff price k).mpr) fun price k hd hnd =>
    absurd ((hiff price k).mp hd) hnd

/-- One price level, once all lower ones are done. -/
theorem level {done : ℚ → Prop} {vs : List MdVisit} {t : MdTrade} {s : State}
    (hJ : J (fun price' _ => done price') vs t s) {price : ℚ}
    (hlow : ∀ price', done price' → price' < price) :
    wp (visitLevel t price)
      (J (fun price' _ => done price' ∨ price' = price) (vs ++ levelVisits t price s))
      (fun _ _ => True) s := by
  have ht := h.trade hJ
  unfold visitLevel levelVisits
  rw [wp_ite]
  constructor
  · intro hskip
    rw [if_pos hskip, List.append_nil]
    refine (wp_pure _ _ _ _).mpr (h.widen hJ (fun _ _ => Or.inl) fun price' k hd hnd => ?_)
    rcases hd with hd | rfl
    · exact absurd hd hnd
    · rcases hskip with hs | hdear
      · exact Or.inl hs
      · exact Or.inr (Or.inl (ht.inversePrice ▸ hdear))
  · intro hgood
    rw [if_neg hgood, wp_bind, wp_get, ht.desiredProperty]
    rw [not_or, not_lt, ht.inversePrice] at hgood
    have hprice := hgood.2
    -- the places of the level that are done, besides those of lower levels
    refine wp_imp (wp_foldlM_visits (J := fun keys us =>
      J (fun price' k' => done price' ∨ price' = price ∧ k' ∈ keys)
        (vs ++ us.map fun v => ⟨price, v.1, v.2.1, v.2.2⟩)) ?_ ?_) fun t' s' hJ' => ?_
    · intro keys k rest hkeys us t1 s1 hJ1
      have hnodup := ExtTreeMap.nodup_keys (t := s.mdLevel new.desiredProperty price)
      rw [← ExtTreeMap.map_fst_toList_eq_keys, hkeys, List.nodup_middle, List.nodup_cons] at hnodup
      have hk : k ∉ keys := fun hmem => hnodup.1 (List.mem_append_left _ hmem)
      refine wp_imp (h.offer hJ1 hprice ?_ ?_) fun t2 s2 h2 => ?_
      · rintro (hd | ⟨_, hmem⟩)
        · exact lt_irrefl _ (hlow _ hd)
        · exact hk hmem
      · rintro price' k' (hd | ⟨rfl, _⟩)
        · exact (hlow _ hd).le
        · exact le_rfl
      · rw [List.map_append, ← List.append_assoc]
        refine h.congr h2 fun price' k' => ?_
        rw [List.mem_append, List.mem_singleton]
        tauto
    · rw [List.map_nil, List.append_nil]
      refine h.congr hJ fun price' k' => ?_
      simp
    · -- no order rests at another place of the level
      refine h.widen hJ' (fun price' k' => Or.imp_right And.left) fun price' k' hd hnd => ?_
      rcases hd with hd | rfl
      · exact absurd (Or.inl hd) hnd
      · have hk : k' ∉ (s.mdLevel new.desiredProperty price').toList.map Prod.fst :=
          fun hmem => hnd (Or.inr ⟨rfl, hmem⟩)
        rw [ExtTreeMap.map_fst_toList_eq_keys, ExtTreeMap.mem_keys] at hk
        have hnot : ¬ done price' := fun hd => lt_irrefl _ (hlow _ hd)
        refine Or.inr (Or.inr ?_)
        rw [h.untouched hJ' _ _ hnd, ← h.untouched hJ _ _ hnot]
        exact ExtTreeMap.getElem?_eq_none hk

/-- **THE RULE**: what holds before the first visit and is kept by every visit of a fresh place holds
    after the whole loop, with all its visits. -/
theorem xTrade (hstart : J (fun _ _ => False) [] ⟨new, false, .nothing⟩ s0) :
    wp (xTradeMetaDEx new) (J (fun _ _ => True) (xTradeVisits new s0)) (fun _ _ => True) s0 := by
  unfold xTradeMetaDEx xTradeVisits
  rw [wp_bind, wp_get]
  refine wp_imp (wp_foldlM_visits (J := fun prices us =>
    J (fun price' _ => price' ∈ prices) (us.flatMap fun v => levelVisits v.2.1 v.1 v.2.2))
    ?_ ?_) fun t s hJ => ?_
  · intro prices price rest hprices us t s hJ
    have hsorted := ExtTreeMap.ordered_keys (t := s0.mdPrices new.desiredProperty)
    rw [← ExtTreeMap.map_fst_toList_eq_keys, hprices, List.pairwise_append] at hsorted
    refine wp_imp (h.level hJ fun price' hd => ?_) fun t' s' h' => ?_
    · exact compare_lt_iff_lt.mp (hsorted.2.2 price' hd price List.mem_cons_self)
    · rw [List.flatMap_append, List.flatMap_singleton]
      refine h.congr h' fun price' _ => ?_
      rw [List.mem_append, List.mem_singleton]
  · refine h.congr hstart fun price' _ => ?_
    simp
  · refine h.widen hJ (fun _ _ _ => trivial) fun price k _ hnd => Or.inr (Or.inr ?_)
    rw [h.untouched hJ _ _ hnd]
    rw [ExtTreeMap.map_fst_toList_eq_keys, ExtTreeMap.mem_keys] at hnd
    unfold State.mdLevel
    rw [ExtTreeMap.getElem?_eq_none hnd]
    rfl

end LoopRule

/-! ## What the fills account for -/

/-- What the new order paid in the fills. -/
def paidIn (fills : List MdFill) : Int := (fills.map MdFill.paid).sum

/-- What the resting order at a place gave in the fills. -/
def takenAt (price : ℚ) (k : OrderKey) (fills : List MdFill) : Int :=
  (fills.map fun f => if f.maker.unitPrice = price ∧ f.maker.key = k then f.got else 0).sum

/-- The fills of some visits. -/
def fillsIn (vs : List MdVisit) : List MdFill := vs.filterMap MdVisit.fill?

theorem paidIn_append (vs : List MdVisit) (v : MdVisit) :
    paidIn (fillsIn (vs ++ [v])) = paidIn (fillsIn vs) + paidIn v.fill?.toList := by
  unfold paidIn fillsIn
  rw [List.filterMap_append, List.map_append, List.sum_append]
  cases hfill : v.fill? with
  | none => rw [List.filterMap_cons_none hfill]; rfl
  | some f => rw [List.filterMap_cons_some hfill]; rfl

theorem takenAt_append (price : ℚ) (k : OrderKey) (vs : List MdVisit) (v : MdVisit) :
    takenAt price k (fillsIn (vs ++ [v])) =
      takenAt price k (fillsIn vs) + takenAt price k v.fill?.toList := by
  unfold takenAt fillsIn
  rw [List.filterMap_append, List.map_append, List.sum_append]
  cases hfill : v.fill? with
  | none => rw [List.filterMap_cons_none hfill]; rfl
  | some f => rw [List.filterMap_cons_some hfill]; rfl

/-- The fills account for the loop: for what is left of the new order, and for what is left at every
    place. -/
structure FillsAccount (new : CMPMetaDEx) (s0 : State) (done : ℚ → OrderKey → Prop)
    (vs : List MdVisit) (t : MdTrade) (s : State) : Prop where
  loop : LoopOk new t s
  untouched : ∀ (price : ℚ) (k : OrderKey), ¬ done price k →
    (s.mdLevel new.desiredProperty price)[k]? = (s0.mdLevel new.desiredProperty price)[k]?
  paid : new.amountRemaining - t.pnew.amountRemaining = paidIn (fillsIn vs)
  taken : ∀ price k, s0.remainingAt new.desiredProperty price k -
    s.remainingAt new.desiredProperty price k = takenAt price k (fillsIn vs)

section Fills

variable {new : CMPMetaDEx} {s0 : State}

/-- A visit that changes nothing accounts for nothing. -/
theorem MdVisit.fill?_pass_zero {v : MdVisit}
    (hrun : visitOffer v.price v.trade v.key v.state = .ok v.trade v.state) :
    paidIn v.fill?.toList = 0 ∧ ∀ price k, takenAt price k v.fill?.toList = 0 := by
  cases hoffer : v.offer? with
  | none =>
      have hfill : v.fill? = none := by
        unfold MdVisit.fill?
        rw [hoffer]
      rw [hfill]
      exact ⟨rfl, fun _ _ => rfl⟩
  | some pold =>
      rw [MdVisit.fill?_of_pass hoffer hrun]
      refine ⟨rfl, fun price k => ?_⟩
      simp [takenAt]

/-- One visit of a fresh place. -/
theorem FillsAccount.visit {done : ℚ → OrderKey → Prop} {vs : List MdVisit} {t t' : MdTrade}
    {s s' : State} {price : ℚ} {k : OrderKey} (h : FillsAccount new s0 done vs t s)
    (hrun : visitOffer price t k s = .ok t' s') (heffect : VisitEffect price k t s t' s') :
    FillsAccount new s0 (fun price' k' => done price' k' ∨ price' = price ∧ k' = k)
      (vs ++ [⟨price, k, t, s⟩]) t' s' := by
  have hloop := heffect.loopOk h.loop
  cases hsatisfied : t.satisfied with
  | true =>
      -- a satisfied buyer looks at nothing
      have hpass : visitOffer price t k s = .ok t s := by
        unfold visitOffer
        rw [hsatisfied, if_pos rfl]
        rfl
      rw [hpass] at hrun
      cases hrun
      obtain ⟨hpaid, htaken⟩ := MdVisit.fill?_pass_zero (v := ⟨price, k, t, s⟩) hpass
      refine ⟨hloop, fun price' k' hnot => h.untouched price' k' fun hd => hnot (Or.inl hd), ?_, ?_⟩
      · rw [paidIn_append, hpaid, add_zero, h.paid]
      · intro price' k'
        rw [takenAt_append, htaken, add_zero, h.taken]
  | false =>
      rcases heffect with ⟨rfl, rfl⟩ | ⟨pold, got, paid, htr⟩
      · obtain ⟨hpaid, htaken⟩ := MdVisit.fill?_pass_zero (v := ⟨price, k, t', s'⟩) hrun
        refine ⟨hloop, fun price' k' hnot => h.untouched price' k' fun hd => hnot (Or.inl hd),
          ?_, ?_⟩
        · rw [paidIn_append, hpaid, add_zero, h.paid]
        · intro price' k'
          rw [takenAt_append, htaken, add_zero, h.taken]
      · have hplace := h.loop.book _ _ _ _ htr.resting
        have hproperty := h.loop.trade.desiredProperty
        have hoffer : MdVisit.offer? ⟨price, k, t, s⟩ = some pold := by
          unfold MdVisit.offer?
          rw [hsatisfied, if_neg Bool.false_ne_true]
          exact htr.resting
        have hfill := MdVisit.fill?_of_traded hoffer hplace.key hrun htr
        have hbook := htr.getElem?_mdLevel hplace.key new.desiredProperty
        refine ⟨hloop, fun price' k' hnot => ?_, ?_, fun price' k' => ?_⟩
        · rw [hbook, if_neg fun hc => hnot (Or.inr ⟨hc.2.1.symm, hc.2.2.symm⟩)]
          exact h.untouched price' k' fun hd => hnot (Or.inl hd)
        · have hrem : t'.pnew.amountRemaining = t.pnew.amountRemaining - paid := by rw [htr.pnew]
          have hold := h.paid
          have hone : paidIn (MdVisit.fill? ⟨price, k, t, s⟩).toList = paid := by
            rw [hfill]
            exact add_zero paid
          rw [paidIn_append, hone]
          omega
        · have hold := h.taken price' k'
          rw [takenAt_append, hfill]
          by_cases hat : price = price' ∧ k = k'
          · obtain ⟨rfl, rfl⟩ := hat
            have hbefore : s.remainingAt new.desiredProperty price k = pold.amountRemaining := by
              unfold State.remainingAt
              rw [← hproperty, htr.resting]
              rfl
            have hafter : s'.remainingAt new.desiredProperty price k =
                pold.amountRemaining - got := by
              rw [← hproperty]
              exact htr.remainingAt hplace.key
            have hone : takenAt price k (some (MdFill.mk pold t.pnew got paid)).toList = got := by
              simp [takenAt, hplace.price, hplace.key]
            rw [hone]
            omega
          · have hsame : s'.remainingAt new.desiredProperty price' k' =
                s.remainingAt new.desiredProperty price' k' := by
              unfold State.remainingAt
              rw [hbook, if_neg fun hc => hat hc.2]
            have hone : takenAt price' k' (some (MdFill.mk pold t.pnew got paid)).toList = 0 := by
              simp [takenAt, hplace.price, hplace.key, hat]
            rw [hone, hsame]
            omega

/-- The loop keeps the account. -/
theorem fillsAccount_loopRule (hnew : new.Sound) (hapart : new.property ≠ new.desiredProperty) :
    LoopRule new s0 (FillsAccount new s0) where
  trade := fun h => h.loop.trade
  untouched := fun h => h.untouched
  offer := by
    intro done vs t s h price k hprice _ _
    refine wp_mono (wp_and (visitOffer_effect hnew hapart h.loop hprice k)
      (wp_self (visitOffer price t k) s)) (fun t' s' hout => ?_) fun _ _ _ => trivial
    exact h.visit hout.2 hout.1
  widen := by
    intro done done' vs t s h hsub _
    exact ⟨h.loop, fun price k hnot => h.untouched price k fun hd => hnot (hsub price k hd),
      h.paid, h.taken⟩

/-- **THE FILLS ARE ALL OF THE TRADE**: the fills of the visits account for what `x_Trade` takes from
    the new order and from every place. -/
theorem xTradeMetaDEx_fills (hnew : new.Sound) (hapart : new.property ≠ new.desiredProperty)
    (hs : MdBookOk s0) :
    wp (xTradeMetaDEx new) (FillsAccount new s0 (fun _ _ => True) (xTradeVisits new s0))
      (fun _ _ => True) s0 := by
  refine (fillsAccount_loopRule hnew hapart).xTrade ⟨⟨TradeOk.start hnew, hs⟩, fun _ _ _ => rfl, ?_, ?_⟩
  · exact sub_self _
  · intro price k
    exact sub_self _

end Fills

/-! ## Limits -/

/-- **FILLS ARE EXACT AND LIMITS ARE KEPT**: two orders that cross trade the exact amounts, with no
    failed conversion or assertion and with neither giving more than it has; in a history every
    order that is matched crosses the new one; and over a history, up to any point of the next
    operation, no order has paid more than its limit price for what it received. The fills
    are all that `x_Trade` does to the new order and to the orders that rest. -/
theorem limit_prices_kept :
    (∀ price t pold, Crossing pold t.pnew → Considered price pold t.pnew →
      ExactVisit price t pold) ∧
    (∀ w, MdReaches w → ∀ op : MetaDExOp,
      (∀ v ∈ op.visits w.state, ∀ pold, v.offer? = some pold → VisitChecked v pold) ∧
      ∀ o, totalPaid o (w.fills ++ op.fills w.state) * o.amountDesired ≤
        totalReceived o (w.fills ++ op.fills w.state) * o.amountForsale) ∧
    ∀ new s t s', new.Sound → new.property ≠ new.desiredProperty → MdBookOk s →
      xTradeMetaDEx new s = .ok t s' →
      new.amountRemaining - t.pnew.amountRemaining = paidIn (fillsIn (xTradeVisits new s)) ∧
      ∀ price k, s.remainingAt new.desiredProperty price k -
        s'.remainingAt new.desiredProperty price k =
          takenAt price k (fillsIn (xTradeVisits new s)) := by
  refine ⟨fun price t pold h hc => h.exactVisit hc, fun w hw op => ⟨?_, ?_⟩, ?_⟩
  · intro v hv pold hoffer
    obtain ⟨new, hok⟩ := op.visits_ok hw.bookOk v hv
    exact hok.checked hoffer
  · refine limit_of_fair fun f hf => ?_
    rcases List.mem_append.mp hf with hf | hf
    · exact hw.fair f hf
    · obtain ⟨v, hv, hfill⟩ := List.mem_filterMap.mp hf
      obtain ⟨new, hok⟩ := op.visits_ok hw.bookOk v hv
      exact hok.fair hfill
  · intro new s t s' hnew hapart hs hrun
    have haccounted := wp_ok (xTradeMetaDEx_fills hnew hapart hs) hrun
    exact ⟨haccounted.paid, haccounted.taken⟩

set_option maxRecDepth 4000 in
/-- The bid is filled: it pays 6 and gets 3, although 7 were offered. -/
theorem limit_prices_kept_sale :
    MdReaches saleWorld ∧
    totalReceived bidTx.metaDExOrder (saleWorld.fills ++ (MetaDExOp.packet bidTx).fills
      saleWorld.state) = 3 ∧
    totalPaid bidTx.metaDExOrder (saleWorld.fills ++ (MetaDExOp.packet bidTx).fills
      saleWorld.state) * bidTx.metaDExOrder.amountDesired ≤
    totalReceived bidTx.metaDExOrder (saleWorld.fills ++ (MetaDExOp.packet bidTx).fills
      saleWorld.state) * bidTx.metaDExOrder.amountForsale :=
  ⟨saleWorld_reached, by decide +kernel,
    (limit_prices_kept.2.1 saleWorld saleWorld_reached (.packet bidTx)).2 bidTx.metaDExOrder⟩

end OmniCore
