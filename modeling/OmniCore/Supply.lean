import OmniCore.Ledger

/-! # Supply — what all addresses hold of a property

    Tokens are in one of four places: the balance of an address and three reserves. Most
    operations only move them between addresses and places, by a debit and a credit that
    are both asserted. `wp_move` says once when both go through; the supply bounds every
    credit. -/

namespace OmniCore

open Std (ExtTreeMap)
open Machine TextRec MapSum Exec

/-- The places where tokens are. -/
def TallyType.Holds : TallyType → Prop
  | .balance | .sellOfferReserve | .acceptReserve | .metaDExReserve => True
  | _ => False

instance (ty : TallyType) : Decidable ty.Holds := by
  cases ty <;> unfold TallyType.Holds <;> infer_instance

theorem TallyType.Holds.ne_pending {ty : TallyType} (h : ty.Holds) : ty ≠ .pending := by
  rintro rfl
  exact h

namespace TallyMap

/-- The tokens of a property that all addresses hold, in whatever place. -/
def supply (m : TallyMap) (p : PropertyId) : Int :=
  m.total p .balance + m.total p .sellOfferReserve + m.total p .acceptReserve +
    m.total p .metaDExReserve

/-- One balance of one address is part of the supply. -/
theorem money_le_supply (m : TallyMap) (a : Address) (p : PropertyId) {ty : TallyType}
    (h : ty.Holds) : m.money a p ty ≤ m.supply p := by
  have hmoney := m.money_le_total a p h.ne_pending
  have hbalance := m.total_nonneg p (show TallyType.balance ≠ .pending by simp)
  have hsell := m.total_nonneg p (show TallyType.sellOfferReserve ≠ .pending by simp)
  have haccept := m.total_nonneg p (show TallyType.acceptReserve ≠ .pending by simp)
  have hmeta := m.total_nonneg p (show TallyType.metaDExReserve ≠ .pending by simp)
  unfold supply
  cases ty with
  | balance => omega
  | sellOfferReserve => omega
  | acceptReserve => omega
  | metaDExReserve => omega
  | _ => exact h.elim

end TallyMap

theorem Credited.supply {m m' : TallyMap} {who : Address} {p : PropertyId} {amount : Int}
    {ty : TallyType} (h : Credited m m' who p amount ty) (hty : ty.Holds) (q : PropertyId) :
    m'.supply q = m.supply q + if q = p then amount else 0 := by
  unfold TallyMap.supply
  rw [h.total, h.total, h.total, h.total]
  by_cases hq : q = p
  · subst hq
    cases ty with
    | balance => simp; omega
    | sellOfferReserve => simp; omega
    | acceptReserve => simp; omega
    | metaDExReserve => simp; omega
    | _ => exact hty.elim
  · simp [hq]

/-! ## Moving tokens -/

/-- `m'` is `m` after `amount` of `p` went from one place to another. -/
structure Moved (m m' : TallyMap) (p : PropertyId) (amount : Int) (src : Address)
    (srcTy : TallyType) (dst : Address) (dstTy : TallyType) : Prop where
  money : ∀ a q t, m'.money a q t = m.money a q t
    - (if a = src ∧ q = p ∧ t = srcTy then amount else 0)
    + (if a = dst ∧ q = p ∧ t = dstTy then amount else 0)
  supply : ∀ q, m'.supply q = m.supply q

/-- Other places keep what they hold. -/
theorem Moved.money_of_ne {m m' : TallyMap} {p : PropertyId} {amount : Int} {src dst : Address}
    {srcTy dstTy : TallyType} (h : Moved m m' p amount src srcTy dst dstTy) (a : Address)
    (q : PropertyId) {t : TallyType} (hsrc : t ≠ srcTy) (hdst : t ≠ dstTy) :
    m'.money a q t = m.money a q t := by
  rw [h.money, if_neg fun hh => hsrc hh.2.2, if_neg fun hh => hdst hh.2.2]
  omega

/-- The place the tokens are taken from, if they go elsewhere. -/
theorem Moved.money_src {m m' : TallyMap} {p : PropertyId} {amount : Int} {src dst : Address}
    {srcTy dstTy : TallyType} (h : Moved m m' p amount src srcTy dst dstTy) (hne : srcTy ≠ dstTy)
    (a : Address) (q : PropertyId) :
    m'.money a q srcTy = m.money a q srcTy - if a = src ∧ q = p then amount else 0 := by
  rw [h.money, if_neg fun hh : a = dst ∧ q = p ∧ srcTy = dstTy => hne hh.2.2]
  simp

/-- The place they come to. -/
theorem Moved.money_dst {m m' : TallyMap} {p : PropertyId} {amount : Int} {src dst : Address}
    {srcTy dstTy : TallyType} (h : Moved m m' p amount src srcTy dst dstTy) (hne : srcTy ≠ dstTy)
    (a : Address) (q : PropertyId) :
    m'.money a q dstTy = m.money a q dstTy + if a = dst ∧ q = p then amount else 0 := by
  rw [h.money, if_neg fun hh : a = src ∧ q = p ∧ dstTy = srcTy => hne hh.2.2.symm]
  simp

/-- **MOVING TOKENS** goes through if they are there, the balance they are taken from is not frozen,
    and the supply fits into 64 bits. -/
theorem wp_move {α : Type} {s : State} {p : PropertyId} {amount : Int} {src dst : Address}
    {srcTy dstTy : TallyType} {k : ExecM α} {Q : α → State → Prop} {E : Halt → State → Prop}
    (hpos : 0 < amount) (hhas : amount ≤ s.tallyMap.money src p srcTy) (hsrc : srcTy.Holds)
    (hdst : dstTy.Holds) (hsupply : s.tallyMap.supply p ≤ maxInt64)
    (hfrozen : srcTy = .balance → s.isAddressFrozen src p = false)
    (hk : ∀ m', Moved s.tallyMap m' p amount src srcTy dst dstTy → wp k Q E (s.withTally m')) :
    wp (do
      assertUpdate src p (-amount) srcTy
      assertUpdate dst p amount dstTy
      k) Q E s := by
  have hnonneg := s.tallyMap.money_nonneg src p hsrc.ne_pending
  have hle := s.tallyMap.money_le src p srcTy
  rw [wp_bind]
  refine wp_assertUpdate_of_canUpdate ⟨by omega, ⟨?_, ?_⟩, ?_, ?_⟩ ?_
  · unfold minInt64
    omega
  · omega
  · intro _
    omega
  · intro hbalance _
    exact hfrozen hbalance
  intro m₁ hdebit
  have hsupply₁ := hdebit.supply hsrc p
  rw [if_pos rfl] at hsupply₁
  -- after the debit there is room for the credit
  have hroom := m₁.money_le_supply dst p hdst
  have hnonneg₁ := m₁.money_nonneg dst p hdst.ne_pending
  rw [wp_bind]
  refine wp_assertUpdate_of_canUpdate ⟨by omega, ⟨?_, ?_⟩, ?_, ?_⟩ ?_
  · show minInt64 ≤ m₁.money dst p dstTy + amount
    unfold minInt64
    omega
  · show m₁.money dst p dstTy + amount ≤ maxInt64
    omega
  · intro _
    show 0 ≤ m₁.money dst p dstTy + amount
    omega
  · intro _ hneg
    omega
  intro m₂ hcredit
  refine hk m₂ ⟨?_, ?_⟩
  · intro a q t
    rw [hcredit.money]
    show m₁.money a q t + _ = _
    rw [hdebit.money]
    split <;> split <;> omega
  · intro q
    rw [hcredit.supply hdst]
    show m₁.supply q + _ = _
    rw [hdebit.supply hsrc]
    split <;> omega

end OmniCore
