import OmniCore.ContractWalk

/-! # ContractPriority — in which order are resting orders filled?

    After every match `marginLogic` looks at the recorded addresses, and may place liquidation
    orders, which are matched before the walk goes on. One for no contracts fills nothing.
    One with contracts comes to rest behind the iterators, which matters as long as the
    incoming order has contracts left. Unless that happens, the fills are those of a walk
    upwards: in price-time order just if the order does not sell, or finds one bid price. -/

namespace OmniCore

open Std (ExtTreeMap)
open Machine TextRec MapSum Exec

/-! ## Steps without a fill -/

/-- The trace has grown since `base`, and the call inside `outer` filled nothing. -/
def NoFillSince (outer : List Frame) (base : List Event) (w : World) : Prop :=
  ∃ new, w.trace = new ++ base ∧ ∀ e ∈ new, e.NotFillOf outer

section NoFill

variable {outer : List Frame} {base : List Event} {w w' : World}

theorem NoFillSince.refl (outer : List Frame) (w : World) : NoFillSince outer w.trace w :=
  ⟨[], rfl, by simp⟩

theorem NoFillSince.same (h : NoFillSince outer base w) (ht : w'.trace = w.trace) :
    NoFillSince outer base w' := by
  obtain ⟨new, hnew, hnot⟩ := h
  exact ⟨new, ht.trans hnew, hnot⟩

theorem NoFillSince.note (h : NoFillSince outer base w) {e : Event} (he : e.NotFillOf outer)
    (ht : w'.trace = e :: w.trace) : NoFillSince outer base w' := by
  obtain ⟨new, hnew, hnot⟩ := h
  exact ⟨e :: new, by rw [ht, hnew]; rfl, List.forall_mem_cons.mpr ⟨he, hnot⟩⟩

theorem NoFillSince.trans (h : NoFillSince outer base w) (h' : NoFillSince outer w.trace w') :
    NoFillSince outer base w' := by
  obtain ⟨new, hnew, hnot⟩ := h
  obtain ⟨new', hnew', hnot'⟩ := h'
  refine ⟨new' ++ new, by rw [hnew', hnew, List.append_assoc], fun e he => ?_⟩
  rcases List.mem_append.mp he with he | he
  · exact hnot' e he
  · exact hnot e he

/-- An event between `base` and `w` was noted since. -/
theorem NoFillSince.mem (h : NoFillSince outer base w) {e : Event} {l : List Event}
    (hl : base <:+ l) (hsuf : e :: l <:+ w.trace) : e.NotFillOf outer := by
  obtain ⟨new, hnew, hnot⟩ := h
  obtain ⟨l', rfl⟩ := hl
  obtain ⟨u, hu⟩ := hsuf
  refine hnot e ?_
  have heq : (u ++ e :: l') ++ base = new ++ base := by
    rw [← hnew, ← hu]
    simp
  rw [← List.append_left_injective base heq]
  simp

end NoFill

/-! ## Calls inside a call -/

/-- The innermost call runs inside a match of the call inside `outer`, which has filled nothing
    since `base`. -/
structure InsideMatch (outer : List Frame) (base : List Event) (w : World) : Prop where
  frames : ∃ fs f, w.frames = fs ++ f :: outer ∧ f.held ≠ none
  quiet : NoFillSince outer base w

/-- A call that has no order at hand is not the one of the match. -/
theorem InsideMatch.tail {outer : List Frame} {base : List Event} {w : World} {pnew : CMPContractDex}
    {fs : List Frame} (h : InsideMatch outer base w) (hf : w.frames = ⟨pnew, none⟩ :: fs) :
    ∃ fs' f, fs = fs' ++ f :: outer ∧ f.held ≠ none := by
  obtain ⟨fs', f, hframes, hheld⟩ := h.frames
  rw [hf] at hframes
  cases fs' with
  | nil =>
      cases hframes
      exact absurd rfl hheld
  | cons g fs' => exact ⟨fs', f, (List.cons.inj hframes).2, hheld⟩

/-- No address with open contracts is called while the incoming order of the call inside `outer` has
    contracts left. -/
def Event.Undisturbed (outer : List Frame) : Event → List Event → Prop
  | .marginCheck pre p a _, earlier => PriceReached pre p a →
      openContracts pre p a = 0 ∨ ∃ f ∈ fillsOf outer earlier, f.left = 0
  | _, _ => True

instance (outer : List Frame) : (e : Event) → (l : List Event) → Decidable (e.Undisturbed outer l)
  | .marginCheck _ _ _ _, _ => inferInstanceAs (Decidable (_ → _ ∨ _))
  | .submitted _ _, _ => isTrue trivial
  | .placed _, _ => isTrue trivial
  | .candidate _ _ _, _ => isTrue trivial
  | .matched _ _ _ _, _ => isTrue trivial
  | .erased _ _, _ => isTrue trivial

/-- After its first fill the call inside `outer` was disturbed. -/
def Disturbed (s0 : State) (taker : CMPContractDex) (outer : List Frame) (base : List Event)
    (w : World) : Prop :=
  ∃ e l f, e :: l ++ base <:+ w.trace ∧ ¬ e.Undisturbed outer l ∧
    (fillsOf outer l).getLast? = some f ∧ FirstFill s0 taker f

theorem Disturbed.mono {s0 : State} {taker : CMPContractDex} {outer : List Frame} {base : List Event}
    {w w' : World} (h : Disturbed s0 taker outer base w) (ht : w.trace <:+ w'.trace) :
    Disturbed s0 taker outer base w' := by
  obtain ⟨e, l, f, hl, hrest⟩ := h
  exact ⟨e, l, f, hl.trans ht, hrest⟩

section Call

variable {s0 : State} {taker : CMPContractDex} {outer : List Frame} {base : List Event}
  {cursor : Option (Nat × OrderKey)} {w w' : World} {pnew pold : CMPContractDex} {new : List Event}
  {price : Nat} {key : OrderKey}

/-- The loops of `x_Trade` in a call that is not disturbed and has contracts left: `taker` came in for
    the book of `s0`, the iterators stand at `cursor`, `pnew` is what is left of the order, and
    `new` is what the call has noted. -/
structure WalkInv (s0 : State) (taker : CMPContractDex) (outer : List Frame) (base : List Event)
    (cursor : Option (Nat × OrderKey)) (w : World) (pnew : CMPContractDex) (new : List Event) :
    Prop where
  frames : w.frames = ⟨pnew, none⟩ :: outer
  trace : w.trace = new ++ base
  book : BookNonneg w.state
  left : ∃ a, pnew = { taker with amountForsale := a }
  walked : Walked s0 taker (fillsOf outer new)
  untouched : fillsOf outer new = [] → w.state.contractdex = s0.contractdex ∧ pnew = taker ∧
    ∀ o, Fillable w.state pnew o → ¬ Passed cursor o
  unused : ∀ f ∈ fillsOf outer new, f.left ≠ 0
  used : ∀ f ∈ fillsOf outer new, BuysOrSells f.pold → 0 ≤ pnew.amountForsale
  ahead : ∀ o, Fillable w.state pnew o → BuysOrSells o → ¬ Passed cursor o
  behind : ∀ f ∈ fillsOf outer new, ∀ o, ¬ Passed cursor o → WalkLt f.pold o
  fromBook : ∀ o, Fillable w.state pnew o → Fillable s0 taker o

/-- A step that notes an event other than a fill and leaves frames and book alone. -/
theorem WalkInv.idle {e : Event} (h : WalkInv s0 taker outer base cursor w pnew new)
    (he : e.NotFillOf outer) (ht : w'.trace = e :: w.trace) (hf : w'.frames = w.frames)
    (hbook : w'.state.contractdex = w.state.contractdex) :
    WalkInv s0 taker outer base cursor w' pnew (e :: new) := by
  have hfills : fillsOf outer (e :: new) = fillsOf outer new := fillsOf_cons_of_not he new
  have hfill : ∀ o, Fillable w'.state pnew o ↔ Fillable w.state pnew o := fillable_congr hbook pnew
  refine ⟨hf.trans h.frames, ?_, h.book.congr hbook, h.left, ?_, ?_, ?_, ?_, ?_, ?_, ?_⟩
  · rw [ht, h.trace]
    rfl
  · rw [hfills]
    exact h.walked
  · rw [hfills]
    intro hnil
    obtain ⟨hb, hnew, hall⟩ := h.untouched hnil
    exact ⟨hbook.trans hb, hnew, fun o ho => hall o ((hfill o).mp ho)⟩
  · rw [hfills]
    exact h.unused
  · rw [hfills]
    exact h.used
  · exact fun o ho => h.ahead o ((hfill o).mp ho)
  · rw [hfills]
    exact h.behind
  · exact fun o ho => h.fromBook o ((hfill o).mp ho)

/-- **ONE MORE FILL**: the order at hand is the first one that can be matched. -/
theorem WalkInv.fill (h : WalkInv s0 taker outer base cursor w pnew new)
    (hn : nextOffer (w.state.contractPrices pnew.property) pnew cursor = some (price, key, pold))
    (hfill : Fillable w.state pnew pold) :
    Walked s0 taker (⟨w.state, pold, pnew⟩ :: fillsOf outer new) := by
  obtain ⟨-, -, -, hpassed, hfirst⟩ := nextOffer_first h.book.wf hn
  have hold := h.book.all pold hfill.1
  constructor
  · exact List.pairwise_cons.mpr ⟨fun f hf => h.behind f hf pold hpassed, h.walked.ascending⟩
  · refine List.pairwise_cons.mpr ⟨fun f hf hact => ?_, h.walked.live⟩
    have hused := h.used f hf hact
    have hmin := hfill.2.2.2.2
    show 0 < pold.amountForsale
    omega
  · exact List.forall_mem_cons.mpr ⟨hfill, h.walked.taken⟩
  · exact List.forall_mem_cons.mpr ⟨hold, h.walked.amounts⟩
  · exact List.forall_mem_cons.mpr ⟨h.left, h.walked.takers⟩
  · refine List.forall_mem_cons.mpr ⟨fun o ho hact => ?_, h.walked.first⟩
    exact hfirst o ho.1 ho.2.1 ho.2.2.2.1 (h.ahead o ho hact)
  · exact List.forall_mem_cons.mpr ⟨h.fromBook, h.walked.fromBook⟩
  · intro f hf
    cases hnil : fillsOf outer new with
    | nil =>
        rw [hnil] at hf
        cases hf
        obtain ⟨hbook, hnew, hall⟩ := h.untouched hnil
        exact ⟨hbook, hnew, fun o ho => hfirst o ho.1 ho.2.1 ho.2.2.2.1 (hall o ho)⟩
    | cons g fills =>
        rw [hnil, List.getLast?_cons_cons] at hf
        exact h.walked.start f (by rw [hnil]; exact hf)

/-- What can be matched after a match could be matched before, and is not the matched order if that
    one buys or sells. -/
theorem fillable_of_erased {s s3 s' : State} {rem : Remainders} {o : CMPContractDex}
    (hnonneg : BookNonneg s) (hfill : Fillable s pnew pold)
    (hrem : rem = remainders (parties s pold pnew) pold pnew)
    (hbook : s3.contractdex = s.contractdex)
    (hstate : s' = s3.setContractLevel pnew.property pold.effectivePrice
      (replaceMatched (s3.contractLevel pnew.property pold.effectivePrice) pold.key pold pnew rem))
    (ho : Fillable s' rem.pnew o) : Fillable s pnew o ∧ (BuysOrSells pold → o ≠ pold) := by
  have hold3 : Resting s3 pold := (resting_congr hbook pold).mpr hfill.1
  have hrep : ∃ r, rem.replacement = { pold with amountForsale := r } := by
    rw [hrem]
    exact (remainders_shape s pold pnew).1
  obtain ⟨hres, hp, ha, hpass, hmin⟩ := ho
  rw [hstate, resting_replaceMatched hold3 hfill.2.1 hrep, resting_congr hbook] at hres
  by_cases hred : Reduces pold pnew
  · have hboth := remainders_amounts s pold pnew hred
    rw [← hrem] at hboth
    have hleft : rem.pnew.amountForsale =
        pnew.amountForsale - min pold.amountForsale pnew.amountForsale := by rw [hboth.2]
    have hsame : rem.pnew.property = pnew.property ∧ rem.pnew.tradingAction = pnew.tradingAction ∧
        rem.pnew.effectivePrice = pnew.effectivePrice := by
      rw [hboth.2]
      exact ⟨rfl, rfl, rfl⟩
    rw [hleft] at hmin
    have hminOld := hfill.2.2.2.2
    have hpold := hnonneg.all pold hfill.1
    rcases hres with ⟨hres', hne⟩ | ⟨rfl, -⟩
    · have hpos := hnonneg.all o hres'
      refine ⟨⟨hres', hsame.1 ▸ hp, hsame.2.1 ▸ ha, ?_, by omega⟩, fun _ => hne⟩
      unfold passesPrice at hpass ⊢
      rw [hsame.2.1, hsame.2.2] at hpass
      exact hpass
    · have hzero : rem.replacement.amountForsale =
          pold.amountForsale - min pold.amountForsale pnew.amountForsale := by rw [hboth.1]
      rw [hzero] at hmin
      omega
  · -- both orders stay as they were
    have hnot : ¬ BuysOrSells pold := fun hact => hred (Or.inr hact)
    rw [hrem, remainders_of_not_reduces s pold pnew hred] at hp ha hpass hmin hres
    refine ⟨⟨?_, hp, ha, hpass, hmin⟩, fun hact => absurd hact hnot⟩
    rcases hres with ⟨hres', -⟩ | ⟨heq, -⟩
    · exact hres'
    · have heq' : o = pold := heq
      rw [heq']
      exact hfill.1

/-- The world after the matched order was erased, with no fill in between. -/
theorem WalkInv.erase {checks : List Event} {rem : Remainders}
    (h : WalkInv s0 taker outer base cursor w pnew new)
    (hn : nextOffer (w.state.contractPrices pnew.property) pnew cursor = some (price, key, pold))
    (hfill : Fillable w.state pnew pold)
    (hrem : rem = remainders (parties w.state pold pnew) pold pnew)
    (hunused : rem.pnew.amountForsale ≠ 0)
    (hchecks : ∀ e ∈ checks, e.NotFillOf outer) {s3 : State} (hbook : s3.contractdex = w.state.contractdex)
    (hstate : w'.state = s3.setContractLevel pnew.property price
      (replaceMatched (s3.contractLevel pnew.property price) key pold pnew rem))
    (hframes : w'.frames = ⟨rem.pnew, none⟩ :: outer)
    (ht : w'.trace = .erased pold true :: (checks ++ .matched w.state outer pold pnew :: w.trace)) :
    WalkInv s0 taker outer base (some (price, key)) w' rem.pnew
      (.erased pold true :: (checks ++ .matched w.state outer pold pnew :: new)) := by
  have hwalked := h.fill hn hfill
  obtain ⟨rfl, rfl, -, hpassed, hfirst⟩ := nextOffer_first h.book.wf hn
  have hnonneg := h.book.all pold hfill.1
  have hprop : pold.property = pnew.property := hfill.2.1
  have hfills : fillsOf outer (.erased pold true ::
      (checks ++ .matched w.state outer pold pnew :: new)) =
      ⟨w.state, pold, pnew⟩ :: fillsOf outer new := by
    show fillsOf outer (checks ++ .matched w.state outer pold pnew :: new) = _
    rw [fillsOf_append_of_not hchecks]
    exact if_pos rfl
  have hold3 : Resting s3 pold := (resting_congr hbook pold).mpr hfill.1
  have hrep : ∃ r, rem.replacement = { pold with amountForsale := r } := by
    rw [hrem]
    exact (remainders_shape w.state pold pnew).1
  have hbefore : ∀ o, Fillable w'.state rem.pnew o →
      Fillable w.state pnew o ∧ (BuysOrSells pold → o ≠ pold) := fun o =>
    fillable_of_erased h.book hfill hrem hbook hstate
  -- an order that buys or sells leaves nothing negative
  have hleft : BuysOrSells pold → 0 ≤ rem.pnew.amountForsale := by
    intro hact
    have hboth := remainders_amounts w.state pold pnew (Or.inr hact)
    rw [hrem, hboth.2]
    show 0 ≤ pnew.amountForsale - min pold.amountForsale pnew.amountForsale
    omega
  refine ⟨hframes, ?_, ?_, ?_, ?_, ?_, ?_, ?_, ?_, ?_, ?_⟩
  · rw [ht, h.trace]
    simp
  · rw [hstate, hrem]
    exact (h.book.congr hbook).replaceMatched hold3 hprop fun _ => replacement_nonneg hnonneg
  · obtain ⟨a, ha⟩ := h.left
    obtain ⟨r, hr⟩ := (remainders_shape w.state pold pnew).2
    rw [hrem, hr, ha]
    exact ⟨_, rfl⟩
  · rw [hfills]
    exact hwalked
  · rw [hfills]
    exact fun hnil => absurd hnil (List.cons_ne_nil _ _)
  · rw [hfills]
    refine List.forall_mem_cons.mpr ⟨?_, h.unused⟩
    show (remainders (parties w.state pold pnew) pold pnew).pnew.amountForsale ≠ 0
    rw [← hrem]
    exact hunused
  · rw [hfills]
    intro f hf hact
    rcases List.mem_cons.mp hf with rfl | hf
    · exact hleft hact
    · -- an order that was reduced before is not made negative by an order that is not
      have hused := h.used f hf hact
      by_cases hred : Reduces pold pnew
      · rw [hrem, (remainders_amounts w.state pold pnew hred).2]
        show 0 ≤ pnew.amountForsale - min pold.amountForsale pnew.amountForsale
        omega
      · rw [hrem, remainders_of_not_reduces w.state pold pnew hred]
        exact hused
  · intro o ho hact
    obtain ⟨ho', hne⟩ := hbefore o ho
    rw [passed_some_iff, not_not]
    rcases hfirst o ho'.1 ho'.2.1 ho'.2.2.2.1 (h.ahead o ho' hact) with heq | hlt
    · exact absurd heq (hne (heq ▸ hact))
    · exact hlt
  · rw [hfills]
    intro f hf o hnp
    rw [passed_some_iff, not_not] at hnp
    rcases List.mem_cons.mp hf with rfl | hf
    · exact hnp
    · exact (h.behind f hf pold hpassed).trans hnp
  · exact fun o ho => h.fromBook o (hbefore o ho).1

end Call

end OmniCore
