import OmniCore.ContractRun

/-! # ContractBook — which orders rest in the book

    The book is two maps of maps and a set sorted by `(block, idx)`. Every order is
    stored under its own property, price and key, so the book is just a set of orders:
    `Resting s o`. Each step of the engine is described by what it does to that set. -/

namespace OmniCore

open Std (ExtTreeMap)
open Machine TextRec MapSum Exec

namespace State

theorem contractLevel_setContractLevel (s : State) (p q : PropertyId) (price r : Nat)
    (level : CdSet) :
    (s.setContractLevel p price level).contractLevel q r =
      if p = q ∧ price = r then level else s.contractLevel q r := by
  unfold setContractLevel contractLevel contractPrices
  by_cases hp : p = q
  · by_cases hr : price = r
    · simp [hp, hr]
    · simp [hp, hr, getElem?_insert_eq]
  · simp [hp, getElem?_insert_eq]

end State

/-- The order is in the book, at its own place. -/
def Resting (s : State) (o : CMPContractDex) : Prop :=
  (s.contractLevel o.property o.effectivePrice)[o.key]? = some o

/-- Every order of the book is at its own place. -/
def BookWf (s : State) : Prop :=
  ∀ p price (key : OrderKey) o, (s.contractLevel p price)[key]? = some o →
    o.property = p ∧ o.effectivePrice = price ∧ o.key = key

theorem BookWf.resting {s : State} (h : BookWf s) {p : PropertyId} {price : Nat} {key : OrderKey}
    {o : CMPContractDex} (ho : (s.contractLevel p price)[key]? = some o) : Resting s o := by
  obtain ⟨rfl, rfl, rfl⟩ := h p price key o ho
  exact ho

/-- Two resting orders at the same place are the same. -/
theorem Resting.eq_of_place {s : State} {o o' : CMPContractDex} (h : Resting s o)
    (h' : Resting s o') (hp : o.property = o'.property)
    (hr : o.effectivePrice = o'.effectivePrice) (hk : o.key = o'.key) : o = o' := by
  unfold Resting at h h'
  rw [hp, hr, hk, h'] at h
  exact (Option.some.inj h).symm

/-- Only the book matters. -/
theorem resting_congr {s s' : State} (h : s'.contractdex = s.contractdex) (o : CMPContractDex) :
    Resting s' o ↔ Resting s o := by
  unfold Resting State.contractLevel State.contractPrices
  rw [h]

theorem bookWf_congr {s s' : State} (h : s'.contractdex = s.contractdex) :
    BookWf s' ↔ BookWf s := by
  unfold BookWf State.contractLevel State.contractPrices
  rw [h]

theorem bookWf_empty {s : State} (h : s.contractdex = ∅) : BookWf s := by
  intro p price key o ho
  simp [State.contractLevel, State.contractPrices, h] at ho

theorem not_resting_empty {s : State} (h : s.contractdex = ∅) (o : CMPContractDex) :
    ¬ Resting s o := by
  simp [Resting, State.contractLevel, State.contractPrices, h]

/-! ## What a match leaves of the two orders -/

section Remainders

variable (s : State) (pold pnew : CMPContractDex)

/-- The traded amount is the smaller one, whoever sells. -/
theorem nCouldBuy_eq :
    (parties s pold pnew).nCouldBuy = min pold.amountForsale pnew.amountForsale := by
  unfold Parties.nCouldBuy parties
  dsimp only
  split <;> split <;> omega

/-- Only the amounts change. -/
theorem remainders_shape :
    (∃ r, (remainders (parties s pold pnew) pold pnew).replacement =
      { pold with amountForsale := r }) ∧
    ∃ r, (remainders (parties s pold pnew) pold pnew).pnew = { pnew with amountForsale := r } := by
  unfold remainders
  dsimp only
  split
  · exact ⟨⟨_, rfl⟩, ⟨_, rfl⟩⟩
  · split
    · exact ⟨⟨_, rfl⟩, ⟨_, rfl⟩⟩
    · split
      · exact ⟨⟨_, rfl⟩, ⟨_, rfl⟩⟩
      · exact ⟨⟨_, rfl⟩, ⟨_, rfl⟩⟩

/-- The remainder is computed: the resting order buys or sells, or the amounts are equal. For any
    other trading action the code leaves both amounts as they were. -/
def Reduces (pold pnew : CMPContractDex) : Prop :=
  pold.amountForsale = pnew.amountForsale ∨ pold.tradingAction = actionBuy ∨
    pold.tradingAction = actionSell

instance decidableReduces : Decidable (Reduces pold pnew) :=
  inferInstanceAs (Decidable (_ ∨ _ ∨ _))

theorem remainders_amounts (h : Reduces pold pnew) :
    (remainders (parties s pold pnew) pold pnew).replacement =
      { pold with
        amountForsale := pold.amountForsale - min pold.amountForsale pnew.amountForsale } ∧
    (remainders (parties s pold pnew) pold pnew).pnew =
      { pnew with
        amountForsale := pnew.amountForsale - min pold.amountForsale pnew.amountForsale } := by
  unfold remainders parties
  dsimp only
  by_cases hs : pold.tradingAction = actionSell
  · rcases lt_trichotomy pold.amountForsale pnew.amountForsale with hlt | heq | hgt
    · have h1 : ¬ pold.amountForsale > pnew.amountForsale := by omega
      simp [hs, hlt, hlt.le, h1, abs_of_neg (sub_neg.mpr hlt), show ¬ actionSell = actionBuy by decide]
    · simp [hs, heq, show ¬ actionSell = actionBuy by decide]
    · have h1 : ¬ pold.amountForsale < pnew.amountForsale := by omega
      simp [hs, hgt, hgt.le, abs_of_pos (sub_pos.mpr hgt)]
  · rcases lt_trichotomy pold.amountForsale pnew.amountForsale with hlt | heq | hgt
    · have hb : pold.tradingAction = actionBuy := by
        rcases h with h | h | h
        · omega
        · exact h
        · exact absurd h hs
      have h1 : ¬ pnew.amountForsale < pold.amountForsale := by omega
      simp [hb, hlt, hlt.le, h1, abs_of_pos (sub_pos.mpr hlt), show ¬ actionBuy = actionSell by decide]
    · simp [hs, heq]
    · have hb : pold.tradingAction = actionBuy := by
        rcases h with h | h | h
        · omega
        · exact h
        · exact absurd h hs
      simp [hb, hgt, hgt.le, abs_of_neg (sub_neg.mpr hgt), show ¬ actionBuy = actionSell by decide]

/-- The amounts stay as they were. -/
theorem remainders_of_not_reduces (h : ¬ Reduces pold pnew) :
    remainders (parties s pold pnew) pold pnew = ⟨pold, pnew, .traded⟩ := by
  unfold Reduces at h
  push Not at h
  unfold remainders parties
  simp [h.2.1, h.2.2, Ne.symm h.1]

end Remainders

/-! ## Taking an order out and putting one in -/

section Update

variable {s : State} {p : PropertyId} {price : Nat} {level : CdSet}

theorem resting_setContractLevel {o : CMPContractDex} :
    Resting (s.setContractLevel p price level) o ↔
      if p = o.property ∧ price = o.effectivePrice then level[o.key]? = some o
      else Resting s o := by
  unfold Resting
  rw [State.contractLevel_setContractLevel]
  split <;> rfl

theorem BookWf.setContractLevel (h : BookWf s)
    (hl : ∀ (key : OrderKey) o, level[key]? = some o →
      o.property = p ∧ o.effectivePrice = price ∧ o.key = key) :
    BookWf (s.setContractLevel p price level) := by
  intro q r key o ho
  rw [State.contractLevel_setContractLevel] at ho
  split at ho
  · next heq =>
      obtain ⟨rfl, rfl⟩ := heq
      exact hl key o ho
  · exact h q r key o ho

/-- The orders left when one place is emptied. -/
theorem BookWf.erase (h : BookWf s) (key : OrderKey) :
    BookWf (s.setContractLevel p price ((s.contractLevel p price).erase key)) := by
  refine h.setContractLevel fun k o ho => ?_
  rw [getElem?_erase_eq] at ho
  split at ho
  · cases ho
  · exact h _ _ _ _ ho

theorem resting_erase (key : OrderKey) {o : CMPContractDex} :
    Resting (s.setContractLevel p price ((s.contractLevel p price).erase key)) o ↔
      Resting s o ∧ ¬ (o.property = p ∧ o.effectivePrice = price ∧ o.key = key) := by
  rw [resting_setContractLevel]
  split
  · next heq =>
      obtain ⟨rfl, rfl⟩ := heq
      rw [getElem?_erase_eq]
      by_cases hk : key = o.key
      · simp [hk]
      · simp [hk, Ne.symm hk, Resting]
  · next hne =>
      have : ¬ (o.property = p ∧ o.effectivePrice = price ∧ o.key = key) :=
        fun hc => hne ⟨hc.1.symm, hc.2.1.symm⟩
      simp [this]

/-- The place of an order is free. -/
def FreePlace (s : State) (o : CMPContractDex) : Prop :=
  (s.contractLevel o.property o.effectivePrice)[o.key]? = none

/-- What remains of an order enters the book if it is something and its place is free. -/
theorem BookWf.restState (h : BookWf s) (n : CMPContractDex) : BookWf (restState s n) := by
  unfold OmniCore.restState
  split
  · refine h.setContractLevel fun k o ho => ?_
    rw [getElem?_insert_eq] at ho
    split at ho
    · next hk =>
        cases ho
        exact ⟨rfl, rfl, hk⟩
    · exact h _ _ _ _ ho
  · exact h

theorem resting_restState {n o : CMPContractDex} :
    Resting (restState s n) o ↔
      Resting s o ∨ (o = n ∧ 0 < n.amountForsale ∧ FreePlace s n) := by
  have hfree : FreePlace s n ↔
      ¬ (s.contractLevel n.property n.effectivePrice).contains n.key = true := by
    unfold FreePlace
    rw [ExtTreeMap.contains_eq_isSome_getElem?]
    simp
  unfold restState
  split
  · next hc =>
      rw [← hfree] at hc
      rw [resting_setContractLevel]
      split
      · next heq =>
          rw [getElem?_insert_eq]
          by_cases hk : n.key = o.key
          · have hnone : (s.contractLevel o.property o.effectivePrice)[o.key]? = none := by
              rw [← heq.1, ← heq.2, ← hk]
              exact hc.2
            simp [hk, Resting, hnone, hc, eq_comm]
          · have hne : o ≠ n := fun hn => hk (by rw [hn])
            rw [if_neg hk, heq.1, heq.2]
            simp [hne, Resting]
      · next hne =>
          have : o ≠ n := fun hn => hne ⟨by rw [hn], by rw [hn]⟩
          simp [this]
  · next hc =>
      rw [← hfree] at hc
      simp only [hc, and_false, or_false]

variable {pold pnew : CMPContractDex} {rem : Remainders}

/-- A matched order leaves the book, and its remainder enters if the two amounts differed. -/
theorem BookWf.replaceMatched (h : BookWf s)
    (hprop : pold.property = pnew.property)
    (hrep : ∃ r, rem.replacement = { pold with amountForsale := r }) :
    BookWf (s.setContractLevel pnew.property pold.effectivePrice
      (replaceMatched (s.contractLevel pnew.property pold.effectivePrice) pold.key pold pnew
        rem)) := by
  obtain ⟨r, hr⟩ := hrep
  refine h.setContractLevel fun k o ho => ?_
  unfold OmniCore.replaceMatched at ho
  split at ho
  · rw [getElem?_insert_eq] at ho
    split at ho
    · next hk =>
        cases ho
        rw [← hk, hr]
        exact ⟨hprop, rfl, rfl⟩
    · rw [getElem?_erase_eq] at ho
      split at ho
      · cases ho
      · exact h _ _ _ _ ho
  · rw [getElem?_erase_eq] at ho
    split at ho
    · cases ho
    · exact h _ _ _ _ ho

theorem resting_replaceMatched (hrest : Resting s pold)
    (hprop : pold.property = pnew.property)
    (hrep : ∃ r, rem.replacement = { pold with amountForsale := r }) {o : CMPContractDex} :
    Resting (s.setContractLevel pnew.property pold.effectivePrice
      (replaceMatched (s.contractLevel pnew.property pold.effectivePrice) pold.key pold pnew
        rem)) o ↔
      (Resting s o ∧ o ≠ pold) ∨
        (o = rem.replacement ∧ pold.amountForsale ≠ pnew.amountForsale) := by
  obtain ⟨r, hr⟩ := hrep
  have hkey : rem.replacement.key = pold.key := by rw [hr]; rfl
  rw [resting_setContractLevel]
  split
  · next heq =>
      have hlevel : s.contractLevel pnew.property pold.effectivePrice =
          s.contractLevel o.property o.effectivePrice := by rw [heq.1, heq.2]
      have hcont : ¬ ((s.contractLevel pnew.property pold.effectivePrice).erase
          pold.key).contains rem.replacement.key = true := by
        rw [hkey]
        simp
      unfold replaceMatched
      by_cases hk : pold.key = o.key
      · -- the place of the matched order
        have hsame : Resting s o → o = pold := fun ho =>
          ho.eq_of_place hrest (by rw [hprop, heq.1]) heq.2.symm hk.symm
        have hgone : ¬ (Resting s o ∧ o ≠ pold) := fun hc => hc.2 (hsame hc.1)
        by_cases ha : pold.amountForsale = pnew.amountForsale
        · rw [if_neg (by simp [ha]), getElem?_erase_eq, if_pos hk]
          simp [ha, hgone]
        · rw [if_pos ⟨ha, hcont⟩, hkey, getElem?_insert_eq, if_pos hk]
          rw [Option.some_inj]
          constructor
          · intro ho
            exact Or.inr ⟨ho.symm, ha⟩
          · rintro (ho | ho)
            · exact absurd ho hgone
            · exact ho.1.symm
      · have hne : o ≠ pold := fun hc => hk (by rw [hc])
        have hne' : o ≠ rem.replacement := fun hc => hk (by rw [hc, hkey])
        split
        · rw [hkey, getElem?_insert_eq, if_neg hk, getElem?_erase_eq, if_neg hk, hlevel]
          simp [hne, hne', Resting]
        · rw [getElem?_erase_eq, if_neg hk, hlevel]
          simp [hne, hne', Resting]
  · next hne =>
      have h1 : o ≠ pold := fun hc => hne ⟨by rw [hc, hprop], by rw [hc]⟩
      have h2 : o ≠ rem.replacement := fun hc => hne ⟨by rw [hc, hr, ← hprop], by rw [hc, hr]⟩
      simp [h1, h2]

end Update

/-! ## What every order of the book meets -/

/-- The orders of the book are at their own places and all meet a condition. -/
structure BookOf (P : CMPContractDex → Prop) (s : State) : Prop where
  wf : BookWf s
  all : ∀ o, Resting s o → P o

section BookOf

variable {P : CMPContractDex → Prop} {s : State}

theorem bookOf_empty (h : s.contractdex = ∅) : BookOf P s :=
  ⟨bookWf_empty h, fun o ho => absurd ho (not_resting_empty h o)⟩

theorem BookOf.congr {s' : State} (h : BookOf P s) (hbook : s'.contractdex = s.contractdex) :
    BookOf P s' :=
  ⟨(bookWf_congr hbook).mpr h.wf, fun o ho => h.all o ((resting_congr hbook o).mp ho)⟩

/-- Taking an order out. -/
theorem BookOf.erase (h : BookOf P s) {p : PropertyId} {price : Nat} (key : OrderKey) :
    BookOf P (s.setContractLevel p price ((s.contractLevel p price).erase key)) :=
  ⟨h.wf.erase key, fun o ho => h.all o ((resting_erase key).mp ho).1⟩

/-- What remains of an incoming order. -/
theorem BookOf.restState (h : BookOf P s) {n : CMPContractDex} (hn : 0 < n.amountForsale → P n) :
    BookOf P (restState s n) := by
  refine ⟨h.wf.restState n, fun o ho => ?_⟩
  rcases resting_restState.mp ho with hold | ⟨rfl, hpos, -⟩
  · exact h.all o hold
  · exact hn hpos

/-- What remains of a resting order. -/
theorem BookOf.replaceMatched {pold pnew : CMPContractDex} {s0 : State} (h : BookOf P s)
    (hold : Resting s pold) (hprop : pold.property = pnew.property)
    (hP : pold.amountForsale ≠ pnew.amountForsale →
      P (remainders (parties s0 pold pnew) pold pnew).replacement) :
    BookOf P (s.setContractLevel pnew.property pold.effectivePrice
      (replaceMatched (s.contractLevel pnew.property pold.effectivePrice) pold.key pold pnew
        (remainders (parties s0 pold pnew) pold pnew))) := by
  have hrep := (remainders_shape s0 pold pnew).1
  refine ⟨h.wf.replaceMatched hprop hrep, fun o ho => ?_⟩
  rcases (resting_replaceMatched hold hprop hrep).mp ho with ⟨hrest, -⟩ | ⟨rfl, hne⟩
  · exact h.all o hrest
  · exact hP hne

end BookOf

end OmniCore
