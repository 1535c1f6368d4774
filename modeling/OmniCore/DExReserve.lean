import OmniCore.DEx
import OmniCore.ContractRun

/-! # DExReserve — the reserves of the DEx

    `ACCEPT_RESERVE` of a seller is what is open of the accepts against this seller's
    offers, whether or not the offer is still there, and `SELLOFFER_RESERVE` is empty
    without an offer. Every operation keeps both, so no transfer it asserts can fail. -/

namespace OmniCore

open Std (ExtTreeMap)
open Machine TextRec MapSum Exec

/-! ## Keys are read back -/

theorem isComboMark_of_isBase58 (c : Char) (h : isBase58 c = true) : isComboMark c = false := by
  unfold isComboMark
  rw [Bool.or_eq_false_iff, beq_eq_false_iff_ne, beq_eq_false_iff_ne]
  constructor
  · rintro rfl
    exact absurd h (by decide)
  · rintro rfl
    exact absurd h (by decide)

theorem isComboMark_of_isDigit (c : Char) (h : c.isDigit = true) : isComboMark c = false := by
  unfold isComboMark
  rw [Bool.or_eq_false_iff, beq_eq_false_iff_ne, beq_eq_false_iff_ne]
  constructor
  · rintro rfl
    exact absurd h (by decide)
  · rintro rfl
    exact absurd h (by decide)

/-- A key of three parts is split into them. -/
theorem split_combo {a b c : Text} (ha : Free isComboMark a) (hb : Free isComboMark b) (hb0 : b ≠ [])
    (hc : Free isComboMark c) (hc0 : c ≠ []) :
    split isComboMark (a ++ '-' :: (b ++ '+' :: c)) = [a, b, c] := by
  have hhead : ∀ d ∈ (b ++ '+' :: c).head?, isComboMark d = false :=
    (joinWith_head hb hb0 : ∀ d ∈ (joinWith '+' [b, c]).head?, isComboMark d = false)
  have hlast : ∀ d ∈ c.head?, isComboMark d = false :=
    (joinWith_head hc hc0 : ∀ d ∈ (joinWith '+' [c]).head?, isComboMark d = false)
  rw [split_cons ha (by decide) hhead, split_cons hb (by decide) hlast, split_free hc]

/-- The parts of a key of an accept. -/
theorem split_acceptCombo (seller buyer : Address) (p : PropertyId) :
    split isComboMark (acceptCombo seller buyer p) = [seller.text, decNat p, buyer.text] :=
  split_combo (seller.free_text isComboMark_of_isBase58) (free_decNat isComboMark_of_isDigit p)
    (decNat_ne_nil p) (buyer.free_text isComboMark_of_isBase58) buyer.ne_nil

/-- The split of a key of an accept. -/
theorem acceptParties_acceptCombo (seller buyer : Address) (p : PropertyId) :
    acceptParties (acceptCombo seller buyer p) = some (seller, p, buyer) := by
  unfold acceptParties
  rw [split_acceptCombo]
  dsimp only
  rw [Address.ofText?_text, Address.ofText?_text, atoi_decNat]
  rfl

theorem acceptCombo_injective {seller seller' buyer buyer' : Address} {p p' : PropertyId}
    (h : acceptCombo seller buyer p = acceptCombo seller' buyer' p') :
    seller = seller' ∧ p = p' ∧ buyer = buyer' := by
  have hparties := congrArg acceptParties h
  rw [acceptParties_acceptCombo, acceptParties_acceptCombo] at hparties
  cases hparties
  exact ⟨rfl, rfl, rfl⟩

theorem offerCombo_injective {seller seller' : Address} {p p' : PropertyId}
    (h : offerCombo seller p = offerCombo seller' p') : seller = seller' ∧ p = p' := by
  have hsplit : ∀ (a : Address) (q : PropertyId),
      split isComboMark (offerCombo a q) = [a.text, decNat q] := by
    intro a q
    have hq := free_decNat isComboMark_of_isDigit q
    have hhead : ∀ d ∈ (decNat q).head?, isComboMark d = false :=
      (joinWith_head hq (decNat_ne_nil q) :
        ∀ d ∈ (joinWith '-' [decNat q]).head?, isComboMark d = false)
    unfold offerCombo
    rw [split_cons (a.free_text isComboMark_of_isBase58) (by decide) hhead, split_free hq]
  have heq := congrArg (split isComboMark) h
  rw [hsplit, hsplit, List.cons.injEq, List.cons.injEq] at heq
  exact ⟨Address.text_injective heq.1, decNat_injective heq.2.1⟩

/-! ## The invariant -/

/-- The two properties that the DEx trades. -/
def IsOmni (p : PropertyId) : Prop := p = omniPropertyMSC ∨ p = omniPropertyTMSC

/-- The accept is against an offer of this seller for this property. -/
def isAcceptOf (seller : Address) (p : PropertyId) (key : Text) : Bool :=
  (acceptParties key).any fun t => t.1 == seller && t.2.1 == p

/-- What is open of all accepts against a seller's offers of a property. -/
def State.openAccepts (s : State) (seller : Address) (p : PropertyId) : Int :=
  msum s.accepts fun key accept => if isAcceptOf seller p key then accept.acceptAmountRemaining else 0

/-- **THE RESERVES OF THE DEX**, with what the operations need to keep them: well-formed keys,
    amounts that are not negative, a supply that fits into 64 bits and no frozen balance. -/
structure ReserveInv (c : ConsensusParams) (s : State) : Prop where
  params : s.params = c
  acceptReserve : ∀ seller p, IsOmni p →
    s.tallyMap.money seller p .acceptReserve = s.openAccepts seller p
  sellReserve : ∀ seller p, IsOmni p → s.getOffer seller p = none →
    s.tallyMap.money seller p .sellOfferReserve = 0
  accepts : ∀ key accept, s.accepts[key]? = some accept →
    0 ≤ accept.acceptAmountRemaining ∧ ∃ seller buyer p, key = acceptCombo seller buyer p ∧ IsOmni p
  offers : ∀ key offer, s.offers[key]? = some offer → ∃ seller p, key = offerCombo seller p ∧ IsOmni p
  supply : ∀ p, IsOmni p → s.tallyMap.supply p ≤ maxInt64
  unfrozen : ∀ a p, IsOmni p → s.isAddressFrozen a p = false

theorem isAcceptOf_acceptCombo (seller buyer seller' : Address) (p p' : PropertyId) :
    isAcceptOf seller' p' (acceptCombo seller buyer p) = true ↔ seller = seller' ∧ p = p' := by
  unfold isAcceptOf
  rw [acceptParties_acceptCombo]
  simp

/-- An accept that is open is covered by the reserve of its seller. -/
theorem ReserveInv.le_reserve {c : ConsensusParams} {s : State} (h : ReserveInv c s) {seller buyer : Address} {p : PropertyId}
    {accept : CMPAccept} (hp : IsOmni p)
    (hget : s.accepts[acceptCombo seller buyer p]? = some accept) :
    accept.acceptAmountRemaining ≤ s.tallyMap.money seller p .acceptReserve := by
  rw [h.acceptReserve seller p hp]
  have hle := le_msum (f := fun key accept =>
    if isAcceptOf seller p key then accept.acceptAmountRemaining else 0) ?_ hget
  · rwa [if_pos ((isAcceptOf_acceptCombo ..).mpr ⟨rfl, rfl⟩)] at hle
  · intro key accept hkey
    split
    · exact (h.accepts key accept hkey).1
    · exact le_rfl

/-- What is open after an accept was written. -/
theorem openAccepts_insert (s : State) (seller buyer : Address) (p : PropertyId)
    (accept : CMPAccept) (seller' : Address) (p' : PropertyId) :
    State.openAccepts { s with accepts := s.accepts.insert (acceptCombo seller buyer p) accept }
        seller' p' =
      s.openAccepts seller' p' + if seller = seller' ∧ p = p' then
        accept.acceptAmountRemaining -
          ((s.getAccept seller p buyer).elim 0 CMPAccept.acceptAmountRemaining) else 0 := by
  unfold State.openAccepts State.getAccept
  rw [msum_insert_sub]
  by_cases hsame : seller = seller' ∧ p = p'
  · rw [if_pos ((isAcceptOf_acceptCombo ..).mpr hsame), if_pos hsame]
    cases s.accepts[acceptCombo seller buyer p]? with
    | none => simp
    | some old => simp [(isAcceptOf_acceptCombo ..).mpr hsame]
  · have hno : isAcceptOf seller' p' (acceptCombo seller buyer p) = false := by
      rw [← Bool.not_eq_true, isAcceptOf_acceptCombo]
      exact hsame
    rw [hno, if_neg hsame]
    cases s.accepts[acceptCombo seller buyer p]? with
    | none => simp
    | some old => simp

/-- What is open after an accept was erased. -/
theorem openAccepts_erase (s : State) (seller buyer : Address) (p : PropertyId)
    (seller' : Address) (p' : PropertyId) :
    State.openAccepts { s with accepts := s.accepts.erase (acceptCombo seller buyer p) } seller' p' =
      s.openAccepts seller' p' - if seller = seller' ∧ p = p' then
        (s.getAccept seller p buyer).elim 0 CMPAccept.acceptAmountRemaining else 0 := by
  unfold State.openAccepts State.getAccept
  rw [msum_erase_sub]
  by_cases hsame : seller = seller' ∧ p = p'
  · rw [if_pos hsame]
    cases s.accepts[acceptCombo seller buyer p]? with
    | none => simp
    | some old => simp [(isAcceptOf_acceptCombo ..).mpr hsame]
  · have hno : isAcceptOf seller' p' (acceptCombo seller buyer p) = false := by
      rw [← Bool.not_eq_true, isAcceptOf_acceptCombo]
      exact hsame
    rw [if_neg hsame]
    cases s.accepts[acceptCombo seller buyer p]? with
    | none => simp
    | some old => simp [hno]

/-! ## Offers -/

section Offers

variable {c : ConsensusParams} {s : State} {seller : Address} {p : PropertyId}

theorem getOffer_insert (seller : Address) (p : PropertyId) (s : State) (offer : CMPOffer) (seller' : Address) (p' : PropertyId) :
    State.getOffer { s with offers := s.offers.insert (offerCombo seller p) offer } seller' p' =
      if seller = seller' ∧ p = p' then some offer else s.getOffer seller' p' := by
  unfold State.getOffer
  rw [getElem?_insert_eq]
  by_cases hsame : seller = seller' ∧ p = p'
  · rw [if_pos hsame, hsame.1, hsame.2, if_pos rfl]
  · rw [if_neg hsame, if_neg fun h => hsame (offerCombo_injective h)]

theorem getOffer_erase (seller : Address) (p : PropertyId) (s : State) (seller' : Address) (p' : PropertyId) :
    State.getOffer { s with offers := s.offers.erase (offerCombo seller p) } seller' p' =
      if seller = seller' ∧ p = p' then none else s.getOffer seller' p' := by
  unfold State.getOffer
  rw [getElem?_erase_eq]
  by_cases hsame : seller = seller' ∧ p = p'
  · rw [if_pos hsame, hsame.1, hsame.2, if_pos rfl]
  · rw [if_neg hsame, if_neg fun h => hsame (offerCombo_injective h)]

/-- A new offer, with the tokens that were put up for it. -/
theorem ReserveInv.offered {m' : TallyMap} {amount : Int} (h : ReserveInv c s) (hp : IsOmni p)
    (hm : Moved s.tallyMap m' p amount seller .balance seller .sellOfferReserve)
    (offer : CMPOffer) :
    ReserveInv c { s.withTally m' with offers := s.offers.insert (offerCombo seller p) offer } where
  acceptReserve a q hq := (hm.money_of_ne a q (by simp) (by simp)).trans (h.acceptReserve a q hq)
  sellReserve a q hq hnone := by
    have hget := getOffer_insert seller p s offer a q
    by_cases hsame : seller = a ∧ p = q
    · rw [if_pos hsame] at hget
      exact absurd (hnone.symm.trans hget) (by simp)
    · rw [if_neg hsame] at hget
      show m'.money a q .sellOfferReserve = 0
      rw [hm.money_dst (by simp), if_neg fun hh => hsame ⟨hh.1.symm, hh.2.symm⟩, add_zero]
      exact h.sellReserve a q hq (hget.symm.trans hnone)
  accepts := h.accepts
  offers key o hkey := by
    have hget : (s.offers.insert (offerCombo seller p) offer)[key]? = some o := hkey
    rw [getElem?_insert_eq] at hget
    split at hget
    · next heq => exact ⟨seller, p, heq.symm, hp⟩
    · exact h.offers key o hget
  supply q hq := (hm.supply q).trans_le (h.supply q hq)
  unfrozen := h.unfrozen
  params := h.params

/-- An offer that is withdrawn, with an empty reserve. -/
theorem ReserveInv.withdrawn (h : ReserveInv c s) {m' : TallyMap}
    (haccept : ∀ a q, m'.money a q .acceptReserve = s.tallyMap.money a q .acceptReserve)
    (hsell : ∀ a q, m'.money a q .sellOfferReserve =
      if a = seller ∧ q = p then 0 else s.tallyMap.money a q .sellOfferReserve)
    (hsupply : ∀ q, m'.supply q = s.tallyMap.supply q) :
    ReserveInv c { s.withTally m' with offers := s.offers.erase (offerCombo seller p) } where
  acceptReserve a q hq := (haccept a q).trans (h.acceptReserve a q hq)
  sellReserve a q hq hnone := by
    have hget := getOffer_erase seller p s a q
    show m'.money a q .sellOfferReserve = 0
    rw [hsell]
    by_cases hsame : a = seller ∧ q = p
    · rw [if_pos hsame]
    · rw [if_neg hsame]
      rw [if_neg fun hh => hsame ⟨hh.1.symm, hh.2.symm⟩] at hget
      exact h.sellReserve a q hq (hget.symm.trans hnone)
  accepts := h.accepts
  offers key o hkey := by
    have hget : (s.offers.erase (offerCombo seller p))[key]? = some o := hkey
    rw [getElem?_erase_eq] at hget
    split at hget
    · cases hget
    · exact h.offers key o hget
  supply q hq := (hsupply q).trans_le (h.supply q hq)
  unfrozen := h.unfrozen
  params := h.params

theorem dexOfferCreate_inv (legacy : LegacyMath) (h : ReserveInv c s) (hp : IsOmni p)
    (amountOffered : Int) (block : Nat) (amountDesired minAcceptFee : Int) (paymentWindow : Nat)
    (txid : Txid) :
    wp (dexOfferCreate legacy seller p amountOffered block amountDesired minAcceptFee paymentWindow
      txid) (fun _ s' => ReserveInv c s') (fun _ _ => False) s := by
  unfold dexOfferCreate
  rw [wp_ite]
  refine ⟨fun _ => (wp_pure _ _ _ _).mpr h, fun _ => ?_⟩
  rw [wp_ite]
  refine ⟨fun _ => (wp_pure _ _ _ _).mpr h, fun _ => ?_⟩
  rw [wp_bind, wp_get, wp_ite]
  refine ⟨fun _ => (wp_pure _ _ _ _).mpr h, fun _ => ?_⟩
  rw [wp_ite]
  refine ⟨fun _ => (wp_pure _ _ _ _).mpr h, fun _ => ?_⟩
  -- what is offered is at most the balance
  have hcore : ∀ (desired offered : Int) (amended : Option Int),
      offered ≤ s.tallyMap.money seller p .balance →
      wp (if 0 < offered then do
          assertUpdate seller p (-offered) .balance
          assertUpdate seller p offered .sellOfferReserve
          modify fun s => { s with
            offers := s.offers.insert (offerCombo seller p)
              { offerBlock := block, offerAmountOriginal := offered, property := p
                btcDesiredOriginal := desired, minFee := minAcceptFee
                blocktimelimit := paymentWindow, txid := txid, subaction := 0 } }
          pure (0, amended)
        else pure (dexErrorSellOffer, amended)) (fun _ s' => ReserveInv c s')
        (fun _ _ => False) s := by
    intro desired offered amended hle
    rw [wp_ite]
    refine ⟨fun hpos => ?_, fun _ => (wp_pure _ _ _ _).mpr h⟩
    refine wp_move hpos hle trivial trivial (h.supply p hp) (fun _ => h.unfrozen seller p hp) ?_
    intro m' hm
    rw [wp_bind, wp_modify, wp_pure]
    exact h.offered hp hm _
  have hbalance : s.getMPbalance seller p .balance = s.tallyMap.money seller p .balance :=
    s.getMPbalance_eq seller p (by simp)
  rw [hbalance]
  by_cases hmore : s.tallyMap.money seller p .balance < amountOffered
  · rw [if_pos hmore]
    exact hcore _ _ _ le_rfl
  · rw [if_neg hmore]
    exact hcore _ _ _ (not_lt.mp hmore)

theorem dexOfferDestroy_inv (h : ReserveInv c s) (hp : IsOmni p) :
    wp (dexOfferDestroy seller p) (fun _ s' => ReserveInv c s') (fun _ _ => False) s := by
  unfold dexOfferDestroy
  rw [wp_bind, wp_get, wp_ite]
  refine ⟨fun _ => (wp_pure _ _ _ _).mpr h, fun _ => ?_⟩
  rw [s.getMPbalance_eq seller p (by simp)]
  dsimp only
  have hnonneg := s.tallyMap.money_nonneg seller p
    (show TallyType.sellOfferReserve ≠ .pending by simp)
  rw [wp_ite]
  constructor
  · intro hpos
    refine wp_move hpos le_rfl trivial trivial (h.supply p hp) (by simp) ?_
    intro m' hm
    rw [wp_bind, wp_modify, wp_pure]
    refine h.withdrawn (fun a q => hm.money_of_ne a q (by simp) (by simp)) ?_ hm.supply
    intro a q
    rw [hm.money_src (by simp)]
    split
    · next hsame =>
        rw [hsame.1, hsame.2]
        omega
    · omega
  · intro hzero
    rw [wp_bind, wp_modify, wp_pure]
    refine @ReserveInv.withdrawn c s seller p h s.tallyMap (fun _ _ => rfl) ?_ fun _ => rfl
    intro a q
    split
    · next hsame =>
        rw [hsame.1, hsame.2]
        omega
    · rfl

theorem dexOfferUpdate_inv (legacy : LegacyMath) (h : ReserveInv c s) (hp : IsOmni p)
    (amountOffered : Int) (block : Nat) (amountDesired minAcceptFee : Int) (paymentWindow : Nat)
    (txid : Txid) :
    wp (dexOfferUpdate legacy seller p amountOffered block amountDesired minAcceptFee paymentWindow
      txid) (fun _ s' => ReserveInv c s') (fun _ _ => False) s := by
  unfold dexOfferUpdate
  rw [wp_bind, wp_get, wp_ite]
  refine ⟨fun _ => (wp_pure _ _ _ _).mpr h, fun _ => ?_⟩
  rw [wp_bind]
  refine wp_imp (dexOfferDestroy_inv h hp) ?_
  intro rc s' hs'
  rw [wp_ite]
  refine ⟨fun _ => ?_, fun _ => (wp_pure _ _ _ _).mpr hs'⟩
  exact dexOfferCreate_inv legacy hs' hp amountOffered block amountDesired minAcceptFee
    paymentWindow txid

end Offers

/-! ## Accepts -/

section Accepts

variable {c : ConsensusParams} {s : State} {seller buyer : Address} {p : PropertyId}

/-- A new accept, with the tokens that were reserved for it. -/
theorem ReserveInv.accepted {m' : TallyMap} {accept : CMPAccept} (h : ReserveInv c s) (hp : IsOmni p)
    (hoffer : s.getOffer seller p ≠ none) (hnone : s.getAccept seller p buyer = none)
    (hpos : 0 ≤ accept.acceptAmountRemaining)
    (hm : Moved s.tallyMap m' p accept.acceptAmountRemaining seller .sellOfferReserve seller
      .acceptReserve) :
    ReserveInv c { s.withTally m' with
      accepts := s.accepts.insert (acceptCombo seller buyer p) accept } where
  acceptReserve a q hq := by
    show m'.money a q .acceptReserve = State.openAccepts { s with
      accepts := s.accepts.insert (acceptCombo seller buyer p) accept } a q
    rw [openAccepts_insert, hnone, hm.money_dst (by simp), h.acceptReserve a q hq]
    by_cases hsame : seller = a ∧ p = q
    · rw [if_pos hsame, if_pos ⟨hsame.1.symm, hsame.2.symm⟩]
      simp
    · rw [if_neg hsame, if_neg fun hh => hsame ⟨hh.1.symm, hh.2.symm⟩]
  sellReserve a q hq hgone := by
    show m'.money a q .sellOfferReserve = 0
    rw [hm.money_src (by simp), h.sellReserve a q hq hgone, if_neg, sub_zero]
    rintro ⟨rfl, rfl⟩
    exact hoffer hgone
  accepts key a hkey := by
    have hget : (s.accepts.insert (acceptCombo seller buyer p) accept)[key]? = some a := hkey
    rw [getElem?_insert_eq] at hget
    split at hget
    · next heq =>
        cases hget
        exact ⟨hpos, seller, buyer, p, heq.symm, hp⟩
    · exact h.accepts key a hget
  offers := h.offers
  supply q hq := (hm.supply q).trans_le (h.supply q hq)
  unfrozen := h.unfrozen
  params := h.params

/-- An accept of which a part was paid for. -/
theorem ReserveInv.paid {m' : TallyMap} {accept : CMPAccept} {amount : Int} (h : ReserveInv c s)
    (hp : IsOmni p) (hget : s.getAccept seller p buyer = some accept)
    (hle : amount ≤ accept.acceptAmountRemaining)
    (haccept : ∀ a q, m'.money a q .acceptReserve =
      s.tallyMap.money a q .acceptReserve - if a = seller ∧ q = p then amount else 0)
    (hsell : ∀ a q, m'.money a q .sellOfferReserve = s.tallyMap.money a q .sellOfferReserve)
    (hsupply : ∀ q, m'.supply q = s.tallyMap.supply q) (txList : TextDB) :
    ReserveInv c { s.withTally m' with
      txList := txList
      accepts := s.accepts.insert (acceptCombo seller buyer p) (accept.reduce amount) } where
  acceptReserve a q hq := by
    show m'.money a q .acceptReserve = State.openAccepts { s with
      accepts := s.accepts.insert (acceptCombo seller buyer p) _ } a q
    rw [openAccepts_insert, hget, haccept, h.acceptReserve a q hq]
    by_cases hsame : seller = a ∧ p = q
    · rw [if_pos hsame, if_pos ⟨hsame.1.symm, hsame.2.symm⟩]
      unfold CMPAccept.reduce
      simp
      omega
    · rw [if_neg hsame, if_neg fun hh => hsame ⟨hh.1.symm, hh.2.symm⟩]
      omega
  sellReserve a q hq hgone := (hsell a q).trans (h.sellReserve a q hq hgone)
  accepts key a hkey := by
    have hget' : (s.accepts.insert (acceptCombo seller buyer p) (accept.reduce amount))[key]? =
      some a := hkey
    rw [getElem?_insert_eq] at hget'
    split at hget'
    · next heq =>
        cases hget'
        refine ⟨?_, seller, buyer, p, heq.symm, hp⟩
        show 0 ≤ accept.acceptAmountRemaining - amount
        omega
    · exact h.accepts key a hget'
  offers := h.offers
  supply q hq := (hsupply q).trans_le (h.supply q hq)
  unfrozen := h.unfrozen
  params := h.params

/-- An accept that is over: what was open has left the reserve. -/
theorem ReserveInv.closed {m' : TallyMap} {accept : CMPAccept} (h : ReserveInv c s)
    (hget : s.getAccept seller p buyer = some accept)
    (haccept : ∀ a q, m'.money a q .acceptReserve = s.tallyMap.money a q .acceptReserve -
      if a = seller ∧ q = p then accept.acceptAmountRemaining else 0)
    (hsell : ∀ a q, s.getOffer a q = none →
      m'.money a q .sellOfferReserve = s.tallyMap.money a q .sellOfferReserve)
    (hsupply : ∀ q, m'.supply q = s.tallyMap.supply q) :
    ReserveInv c { s.withTally m' with
      accepts := s.accepts.erase (acceptCombo seller buyer p) } where
  acceptReserve a q hq := by
    show m'.money a q .acceptReserve = State.openAccepts { s with
      accepts := s.accepts.erase (acceptCombo seller buyer p) } a q
    rw [openAccepts_erase, hget, haccept, h.acceptReserve a q hq]
    by_cases hsame : seller = a ∧ p = q
    · rw [if_pos hsame, if_pos ⟨hsame.1.symm, hsame.2.symm⟩]
      rfl
    · rw [if_neg hsame, if_neg fun hh => hsame ⟨hh.1.symm, hh.2.symm⟩]
  sellReserve a q hq hgone := (hsell a q hgone).trans (h.sellReserve a q hq hgone)
  accepts key a hkey := by
    have hget' : (s.accepts.erase (acceptCombo seller buyer p))[key]? = some a := hkey
    rw [getElem?_erase_eq] at hget'
    split at hget'
    · cases hget'
    · exact h.accepts key a hget'
  offers := h.offers
  supply q hq := (hsupply q).trans_le (h.supply q hq)
  unfrozen := h.unfrozen
  params := h.params

theorem dexAcceptCreate_inv (h : ReserveInv c s) (amountAccepted : Int) (block : Nat) (feePaid : Int) :
    wp (dexAcceptCreate buyer seller p amountAccepted block feePaid) (fun _ s' => ReserveInv c s')
      (fun _ _ => False) s := by
  unfold dexAcceptCreate
  rw [wp_bind, wp_get]
  cases hoffer : s.getOffer seller p with
  | none => exact (wp_pure _ _ _ _).mpr h
  | some offer =>
      -- offers are of the two properties only
      have hp : IsOmni p := by
        obtain ⟨seller', p', hkey, hp'⟩ := h.offers _ _ hoffer
        rwa [(offerCombo_injective hkey).2]
      dsimp only
      rw [wp_ite]
      refine ⟨fun _ => (wp_pure _ _ _ _).mpr h, fun hnone => ?_⟩
      rw [wp_ite]
      refine ⟨fun _ => (wp_pure _ _ _ _).mpr h, fun _ => ?_⟩
      rw [s.getMPbalance_eq seller p (by simp), wp_ite]
      refine ⟨fun hpos => ?_, fun _ => (wp_pure _ _ _ _).mpr h⟩
      refine wp_move hpos ?_ trivial trivial (h.supply p hp) (by simp) ?_
      · split
        · assumption
        · exact le_rfl
      · intro m' hm
        rw [wp_bind, wp_modify, wp_pure]
        refine h.accepted hp (by rw [hoffer]; simp) ?_ ?_ hm
        · exact Option.not_isSome_iff_eq_none.mp hnone
        · exact le_of_lt hpos

/-- **AN ACCEPT IS OVER**: its reserve goes back to the offer it was made against, or to the balance
    if that offer is gone. -/
theorem dexAcceptDestroy_inv {accept : CMPAccept} (h : ReserveInv c s) (hp : IsOmni p)
    (hget : s.getAccept seller p buyer = some accept) (fForceErase : Bool) :
    wp (dexAcceptDestroy buyer seller p fForceErase)
      (fun _ s' => ReserveInv c { s' with
          accepts := s'.accepts.erase (acceptCombo seller buyer p) } ∧
        s'.accepts = if fForceErase then s.accepts.erase (acceptCombo seller buyer p)
          else s.accepts)
      (fun _ _ => False) s := by
  have hnonneg := (h.accepts _ _ hget).1
  unfold dexAcceptDestroy
  rw [wp_bind, wp_get, hget]
  dsimp only
  have hend : ∀ m', ReserveInv c { s.withTally m' with
        accepts := s.accepts.erase (acceptCombo seller buyer p) } →
      wp (if fForceErase = true then do
          modify fun s => { s with accepts := s.accepts.erase (acceptCombo seller buyer p) }
          pure 0
        else pure 0 : ExecM Int)
        (fun _ s' => ReserveInv c { s' with
            accepts := s'.accepts.erase (acceptCombo seller buyer p) } ∧
          s'.accepts = if fForceErase then s.accepts.erase (acceptCombo seller buyer p)
            else s.accepts)
        (fun _ _ => False) (s.withTally m') := by
    intro m' hm'
    rw [wp_ite, wp_bind, wp_modify, wp_pure, wp_pure]
    refine ⟨fun hforce => ⟨?_, ?_⟩, fun hforce => ⟨hm', ?_⟩⟩
    · show ReserveInv c { s.withTally m' with accepts :=
        (s.accepts.erase (acceptCombo seller buyer p)).erase (acceptCombo seller buyer p) }
      rw [erase_of_none (m := s.accepts.erase (acceptCombo seller buyer p))]
      · exact hm'
      · rw [getElem?_erase_eq, if_pos rfl]
    · rw [if_pos hforce]
      rfl
    · rw [if_neg hforce]
      rfl
  rw [wp_ite]
  constructor
  · intro hpos
    have hle := h.le_reserve hp hget
    -- where the reserve goes to
    have hback : ∀ back : Bool, s.returnToMoney seller p accept = back →
        wp (do
          assertUpdate seller p (-accept.acceptAmountRemaining) .acceptReserve
          assertUpdate seller p accept.acceptAmountRemaining
            (if back then .balance else .sellOfferReserve)
          if fForceErase = true then do
            modify fun s => { s with accepts := s.accepts.erase (acceptCombo seller buyer p) }
            pure 0
          else pure 0 : ExecM Int)
          (fun _ s' => ReserveInv c { s' with
              accepts := s'.accepts.erase (acceptCombo seller buyer p) } ∧
            s'.accepts = if fForceErase then s.accepts.erase (acceptCombo seller buyer p)
              else s.accepts)
          (fun _ _ => False) s := by
      intro back hreturn
      cases back with
      | true =>
          refine wp_move hpos hle trivial trivial (h.supply p hp) (by simp) ?_
          intro m' hm
          refine hend m' (h.closed hget (hm.money_src (by simp)) ?_ hm.supply)
          intro a q _
          exact hm.money_of_ne a q (by simp) (by simp)
      | false =>
          refine wp_move hpos hle trivial trivial (h.supply p hp) (by simp) ?_
          intro m' (hm : Moved s.tallyMap m' p accept.acceptAmountRemaining seller .acceptReserve
            seller .sellOfferReserve)
          refine hend m' (h.closed hget (hm.money_src (by simp)) ?_ hm.supply)
          intro a q hgone
          show m'.money a q .sellOfferReserve = _
          rw [hm.money_dst (by simp), if_neg, add_zero]
          rintro ⟨rfl, rfl⟩
          unfold State.returnToMoney at hreturn
          rw [hgone] at hreturn
          cases hreturn
    exact hback _ rfl
  · intro hzero
    have hzero : accept.acceptAmountRemaining = 0 := by omega
    refine hend s.tallyMap (h.closed hget ?_ (fun _ _ _ => rfl) fun _ => rfl)
    intro a q
    rw [hzero]
    split <;> omega

end Accepts

/-! ## Payments and expiry -/

section Payments

variable {c : ConsensusParams} {s : State} {seller buyer : Address}

/-- Only a conversion between 64 and 256 bits may stop the node. -/
def OnlyConversions (e : Halt) (_ : State) : Prop := e = .assertFailed .convert

theorem calculateDExPurchase_nonneg (amountOffered amountDesired amountPaid : Int) (s : State) :
    wp (calculateDExPurchase amountOffered amountDesired amountPaid) (fun r s' => 0 ≤ r ∧ s' = s)
      OnlyConversions s := by
  unfold calculateDExPurchase
  rw [wp_bind, wp_convertTo256]
  refine ⟨fun _ => ?_, fun _ => rfl⟩
  rw [wp_bind, wp_convertTo256]
  refine ⟨fun _ => ?_, fun _ => rfl⟩
  rw [wp_bind, wp_convertTo256]
  refine ⟨fun _ => ?_, fun _ => rfl⟩
  rw [wp_convertTo64]
  exact ⟨fun _ => ⟨Int.natCast_nonneg _, rfl⟩, fun _ => rfl⟩

theorem paidAccept_some {p : PropertyId} {accept : CMPAccept}
    (h : s.paidAccept seller buyer = some (p, accept)) :
    IsOmni p ∧ s.getAccept seller p buyer = some accept := by
  unfold State.paidAccept at h
  cases hmsc : s.getAccept seller omniPropertyMSC buyer with
  | some a =>
      rw [hmsc] at h
      cases h
      exact ⟨Or.inl rfl, hmsc⟩
  | none =>
      rw [hmsc] at h
      cases htmsc : s.getAccept seller omniPropertyTMSC buyer with
      | some a =>
          rw [htmsc] at h
          cases h
          exact ⟨Or.inr rfl, htmsc⟩
      | none =>
          rw [htmsc] at h
          cases h

/-- Writing the records of a payment touches nothing else. -/
theorem wp_recordPaymentTX {txid : Txid} {valid : Bool} {block vout : Nat} {p : PropertyId}
    {nValue : Int} {Q : Unit → State → Prop} {E : Halt → State → Prop}
    (hQ : ∀ txList, Q () { s with txList := txList }) :
    wp (recordPaymentTX txid valid block vout p nValue buyer seller) Q E s := by
  unfold recordPaymentTX
  rw [wp_bind, wp_get, wp_modify]
  exact hQ _

/-- The end of a payment: an accept of which nothing is desired any more is destroyed, and the offer
    with it if both reserves are empty. -/
theorem paymentEnd_inv {p : PropertyId} {accept : CMPAccept} {amount : Int}
    {answer : Int × Option Int} (h : ReserveInv c s) (hp : IsOmni p)
    (hget : s.getAccept seller p buyer = some (accept.reduce amount)) :
    wp (if accept.acceptAmountRemaining ≤ amount then do
        let s ← get
        let _ ← dexAcceptDestroy buyer seller p true
        if s.getMPbalance seller p .sellOfferReserve = 0 ∧ s.getMPbalance seller p .acceptReserve = 0
        then do
          let _ ← dexOfferDestroy seller p
          pure answer
        else pure answer
      else pure answer : ExecM (Int × Option Int)) (fun _ s' => ReserveInv c s') OnlyConversions s := by
  rw [wp_ite]
  refine ⟨fun _ => ?_, fun _ => (wp_pure _ _ _ _).mpr h⟩
  rw [wp_bind, wp_get, wp_bind]
  refine wp_mono (dexAcceptDestroy_inv h hp hget true) ?_ fun _ _ hno => hno.elim
  intro _ s' ⟨hs', haccepts⟩
  have herased : s'.accepts.erase (acceptCombo seller buyer p) = s'.accepts := by
    rw [haccepts, if_pos rfl]
    refine erase_of_none ?_
    rw [getElem?_erase_eq, if_pos rfl]
  rw [herased] at hs'
  rw [wp_ite]
  refine ⟨fun _ => ?_, fun _ => (wp_pure _ _ _ _).mpr hs'⟩
  rw [wp_bind]
  refine wp_mono (dexOfferDestroy_inv hs' hp) ?_ fun _ _ hno => hno.elim
  intro _ s'' hs''
  exact (wp_pure _ _ _ _).mpr hs''

/-- **A PAYMENT** with the integer formula keeps the reserves. -/
theorem dexPayment_inv (legacy : LegacyMath) (h : ReserveInv c s) (txid : Txid) (vout : Nat)
    (amountPaid : Int) {block : Nat} (hmath : c.isFeatureActivated .dexMath block = true) :
    wp (dexPayment legacy txid vout seller buyer amountPaid block) (fun _ s' => ReserveInv c s')
      OnlyConversions s := by
  unfold dexPayment
  rw [wp_bind, wp_get]
  cases hpaid : s.paidAccept seller buyer with
  | none => exact (wp_pure _ _ _ _).mpr h
  | some found =>
      obtain ⟨p, accept⟩ := found
      obtain ⟨hp, hget⟩ := paidAccept_some hpaid
      have hnonneg := (h.accepts _ _ hget).1
      dsimp only
      rw [wp_ite]
      refine ⟨fun _ => (wp_pure _ _ _ _).mpr h, fun _ => ?_⟩
      rw [h.params, if_pos hmath, wp_bind]
      refine wp_imp (calculateDExPurchase_nonneg _ _ _ s) ?_
      intro calculated s' ⟨hcalculated, hs'⟩
      rw [hs']
      -- at most what is open is purchased
      have hcore : ∀ (amount : Int) (amended : Option Int), 0 ≤ amount →
          amount ≤ accept.acceptAmountRemaining → wp (do
            if 0 < amount then
              assertUpdate seller p (-amount) .acceptReserve
              assertUpdate buyer p amount .balance
              recordPaymentTX txid true block vout p amount buyer seller
            modify fun s => { s with
              accepts := s.accepts.insert (acceptCombo seller buyer p) (accept.reduce amount) }
            if accept.acceptAmountRemaining ≤ amount then
              let s ← get
              let reserveSell := s.getMPbalance seller p .sellOfferReserve
              let reserveAccept := s.getMPbalance seller p .acceptReserve
              let _ ← dexAcceptDestroy buyer seller p true
              if reserveSell = 0 ∧ reserveAccept = 0 then
                let _ ← dexOfferDestroy seller p
            pure (if 0 < amount then 0 else dexErrorPayment, amended) : ExecM (Int × Option Int))
            (fun _ s' => ReserveInv c s') OnlyConversions s := by
        intro amount amended hamount hle
        have hstored : ∀ t : State, State.getAccept { t with
            accepts := t.accepts.insert (acceptCombo seller buyer p) (accept.reduce amount) }
            seller p buyer = some (accept.reduce amount) := by
          intro t
          unfold State.getAccept
          rw [getElem?_insert_eq, if_pos rfl]
        dsimp only
        rw [wp_ite]
        constructor
        · intro hpos
          refine wp_move hpos (hle.trans (h.le_reserve hp hget)) trivial trivial (h.supply p hp)
            (by simp) ?_
          intro m' hm
          rw [wp_bind]
          refine wp_recordPaymentTX ?_
          intro txList
          rw [wp_bind, wp_modify]
          exact paymentEnd_inv (h.paid hp hget hle (hm.money_src (by simp))
            (fun a q => hm.money_of_ne a q (by simp) (by simp)) hm.supply txList) hp (hstored _)
        · intro hzero
          rw [wp_bind, wp_modify]
          have hzero : amount = 0 := by omega
          have hnothing : ∀ a q, s.tallyMap.money a q .acceptReserve =
              s.tallyMap.money a q .acceptReserve - if a = seller ∧ q = p then amount else 0 := by
            intro a q
            rw [hzero]
            split <;> omega
          exact paymentEnd_inv (h.paid hp hget hle hnothing (fun _ _ => rfl)
            (fun _ => rfl) s.txList) hp (hstored _)
      by_cases hmore : accept.acceptAmountRemaining < calculated
      · rw [if_pos hmore]
        exact hcore _ _ hnonneg le_rfl
      · rw [if_neg hmore]
        exact hcore _ _ hcalculated (not_lt.mp hmore)

/-- One accept of the expiry loop; the others stay. -/
theorem eraseIfExpired_inv (h : ReserveInv c s) (blockNow : Nat) {e : Text × CMPAccept}
    (he : s.accepts[e.1]? = some e.2) :
    wp (eraseIfExpired blockNow e)
      (fun _ s' => ReserveInv c s' ∧ ∀ key, key ≠ e.1 → s'.accepts[key]? = s.accepts[key]?)
      (fun _ _ => False) s := by
  obtain ⟨_, seller, buyer, p, hkey, hp⟩ := h.accepts _ _ he
  unfold eraseIfExpired
  dsimp only
  rw [wp_ite]
  refine ⟨fun _ => ?_, fun _ => (wp_pure _ _ _ _).mpr ⟨h, fun _ _ => rfl⟩⟩
  rw [hkey, acceptParties_acceptCombo]
  dsimp only
  rw [hkey] at he
  rw [wp_bind]
  refine wp_imp (dexAcceptDestroy_inv h hp he false) ?_
  intro _ s' ⟨hs', haccepts⟩
  rw [wp_modify]
  refine ⟨hs', ?_⟩
  intro key hne
  rw [getElem?_erase_eq, if_neg hne.symm, haccepts, if_neg (by simp)]

/-- **EXPIRY** keeps the reserves, whatever accepts have expired. -/
theorem eraseExpiredAccepts_inv (h : ReserveInv c s) (blockNow : Nat) :
    wp (eraseExpiredAccepts blockNow) (fun _ s' => ReserveInv c s') (fun _ _ => False) s := by
  unfold eraseExpiredAccepts
  rw [wp_bind, wp_get]
  have hentries : ∀ e ∈ s.accepts.toList, s.accepts[e.1]? = some e.2 :=
    fun e he => mem_toList_iff.mp he
  have hkeys : (s.accepts.toList.map Prod.fst).Nodup := by
    rw [ExtTreeMap.map_fst_toList_eq_keys]
    exact ExtTreeMap.nodup_keys
  -- the entries that are still to come are untouched
  generalize s.accepts.toList = entries at hentries hkeys
  induction entries generalizing s with
  | nil => exact (wp_forM_nil _ _ _ _).mpr h
  | cons e rest ih =>
      rw [wp_forM_cons]
      rw [List.map_cons, List.nodup_cons] at hkeys
      refine wp_imp (eraseIfExpired_inv h blockNow (hentries e (by simp))) ?_
      intro _ s' ⟨hs', hothers⟩
      refine ih hs' ?_ hkeys.2
      intro e' he'
      rw [hothers e'.1 ?_]
      · exact hentries e' (by simp [he'])
      · intro heq
        exact hkeys.1 (List.mem_map.mpr ⟨e', he', heq⟩)

end Payments

/-! ## Runs -/

/-- A call of one of the six functions. -/
inductive DExOp
  | create (seller : Address) (p : PropertyId) (amountOffered : Int) (block : Nat)
      (amountDesired minAcceptFee : Int) (paymentWindow : Nat) (txid : Txid)
  | update (seller : Address) (p : PropertyId) (amountOffered : Int) (block : Nat)
      (amountDesired minAcceptFee : Int) (paymentWindow : Nat) (txid : Txid)
  | destroy (seller : Address) (p : PropertyId)
  | accept (buyer seller : Address) (p : PropertyId) (amountAccepted : Int) (block : Nat)
      (feePaid : Int)
  | pay (txid : Txid) (vout : Nat) (seller buyer : Address) (amountPaid : Int) (block : Nat)
  | expire (blockNow : Nat)

namespace DExOp

def run (legacy : LegacyMath) : DExOp → ExecM Unit
  | create seller p amountOffered block amountDesired minAcceptFee paymentWindow txid => do
      let _ ← dexOfferCreate legacy seller p amountOffered block amountDesired minAcceptFee
        paymentWindow txid
  | update seller p amountOffered block amountDesired minAcceptFee paymentWindow txid => do
      let _ ← dexOfferUpdate legacy seller p amountOffered block amountDesired minAcceptFee
        paymentWindow txid
  | destroy seller p => do
      let _ ← dexOfferDestroy seller p
  | accept buyer seller p amountAccepted block feePaid => do
      let _ ← dexAcceptCreate buyer seller p amountAccepted block feePaid
  | pay txid vout seller buyer amountPaid block => do
      let _ ← dexPayment legacy txid vout seller buyer amountPaid block
  | expire blockNow => eraseExpiredAccepts blockNow

/-- The callers offer OMNI and TOMNI only, and the integer purchase formula is in use. -/
def Legal (c : ConsensusParams) : DExOp → Prop
  | create _ p _ _ _ _ _ _ | update _ p _ _ _ _ _ _ | destroy _ p => IsOmni p
  | accept _ _ _ _ _ _ => True
  | pay _ _ _ _ _ block => c.isFeatureActivated .dexMath block = true
  | expire _ => True

end DExOp

/-- Whatever a call returns, the state keeps the invariant. -/
theorem wp_discard {α : Type} {x : ExecM α} {I : State → Prop} {E E' : Halt → State → Prop} {s : State}
    (h : wp x (fun _ s' => I s') E s) (hE : ∀ e s', E e s' → E' e s') :
    wp (do let _ ← x) (fun _ s' => I s') E' s := by
  rw [wp_bind]
  refine wp_mono h ?_ hE
  intro _ s' hs'
  exact (wp_pure _ _ _ _).mpr hs'

/-- **ONE CALL** keeps the reserves. -/
theorem DExOp.run_inv {c : ConsensusParams} (legacy : LegacyMath) (op : DExOp) (hop : op.Legal c)
    {s : State} (h : ReserveInv c s) :
    wp (op.run legacy) (fun _ s' => ReserveInv c s') OnlyConversions s := by
  cases op with
  | create seller p amountOffered block amountDesired minAcceptFee paymentWindow txid =>
      exact wp_discard (dexOfferCreate_inv legacy h hop ..) fun _ _ hno => hno.elim
  | update seller p amountOffered block amountDesired minAcceptFee paymentWindow txid =>
      exact wp_discard (dexOfferUpdate_inv legacy h hop ..) fun _ _ hno => hno.elim
  | destroy seller p => exact wp_discard (dexOfferDestroy_inv h hop) fun _ _ hno => hno.elim
  | accept buyer seller p amountAccepted block feePaid =>
      exact wp_discard (dexAcceptCreate_inv h ..) fun _ _ hno => hno.elim
  | pay txid vout seller buyer amountPaid block =>
      exact wp_discard (dexPayment_inv legacy h txid vout amountPaid hop) fun _ _ hconvert => hconvert
  | expire blockNow =>
      exact wp_mono (eraseExpiredAccepts_inv h blockNow) (fun _ _ hs' => hs') fun _ _ hno => hno.elim

/-- A node whose DEx is empty: no offers, no accepts and nothing reserved for them. The supply of
    the two properties fits into 64 bits, and they cannot be frozen. -/
structure DExStart (c : ConsensusParams) (s : State) : Prop where
  params : s.params = c
  offers : s.offers = ∅
  accepts : s.accepts = ∅
  sellReserve : ∀ a p, IsOmni p → s.tallyMap.money a p .sellOfferReserve = 0
  acceptReserve : ∀ a p, IsOmni p → s.tallyMap.money a p .acceptReserve = 0
  supply : ∀ p, IsOmni p → s.tallyMap.supply p ≤ maxInt64
  unfrozen : ∀ a p, IsOmni p → s.isAddressFrozen a p = false

theorem DExStart.inv {c : ConsensusParams} {s : State} (h : DExStart c s) : ReserveInv c s where
  params := h.params
  acceptReserve a p hp := by
    unfold State.openAccepts
    rw [h.acceptReserve a p hp, h.accepts]
    rfl
  sellReserve a p hp _ := h.sellReserve a p hp
  accepts key accept hkey := by
    rw [h.accepts, ExtTreeMap.getElem?_empty] at hkey
    cases hkey
  offers key offer hkey := by
    rw [h.offers, ExtTreeMap.getElem?_empty] at hkey
    cases hkey
  supply := h.supply
  unfrozen := h.unfrozen

/-- **THE RESERVES OF THE DEX ADD UP** after every sequence of calls: what is in `ACCEPT_RESERVE` is
    what is open of the seller's accepts, without an offer nothing is in `SELLOFFER_RESERVE`, and if
    the node stops, then at a conversion, never at a transfer. -/
theorem dex_reserves_add_up {c : ConsensusParams} {s : State} (legacy : LegacyMath) (hs : DExStart c s)
    {ops : List DExOp} (hops : ∀ op ∈ ops, op.Legal c) :
    (∀ s', ops.forM (DExOp.run legacy) s = .ok () s' → ∀ seller p, IsOmni p →
      s'.tallyMap.money seller p .acceptReserve = s'.openAccepts seller p ∧
      (s'.getOffer seller p = none → s'.tallyMap.money seller p .sellOfferReserve = 0)) ∧
    ∀ e s', ops.forM (DExOp.run legacy) s = .error e s' → e = .assertFailed .convert := by
  have hrun : wp (ops.forM (DExOp.run legacy)) (fun _ s' => ReserveInv c s') OnlyConversions s :=
    wp_forM (fun op hop _ hs' => op.run_inv legacy (hops op hop) hs') hs.inv
  constructor
  · intro s' hok seller p hp
    have hinv := wp_ok hrun hok
    exact ⟨hinv.acceptReserve seller p hp, hinv.sellReserve seller p hp⟩
  · intro e s' herror
    have hconvert : OnlyConversions e s' := wp_error hrun herror
    exact hconvert

/-! ## Two traders -/

theorem funded_start : DExStart openParams fundedState where
  params := rfl
  offers := rfl
  accepts := rfl
  sellReserve a p _ := by
    show fundedLedger.money a p .sellOfferReserve = 0
    rw [fundedLedger_posted.money]
    simp [Entry.toMoney, TallyMap.money, TallyMap.tallyOf]
  acceptReserve a p _ := by
    show fundedLedger.money a p .acceptReserve = 0
    rw [fundedLedger_posted.money]
    simp [Entry.toMoney, TallyMap.money, TallyMap.tallyOf]
  supply p _ := by
    show fundedLedger.supply p ≤ maxInt64
    have hempty : ∀ ty, TallyMap.total ∅ p ty = 0 := fun _ => rfl
    unfold TallyMap.supply
    rw [fundedLedger_posted.total, fundedLedger_posted.total, fundedLedger_posted.total,
      fundedLedger_posted.total, hempty, hempty, hempty, hempty]
    simp only [Entry.toTotal, List.map_cons, List.map_nil, List.sum_cons, List.sum_nil]
    unfold maxInt64
    split <;> simp
  unfrozen _ _ _ := Std.ExtTreeSet.contains_empty

/-- `A` offers 50 OMNI for 1000, `B` accepts 20 and pays for half of them; the rest expires after
    the offer was withdrawn. -/
def dexSale : List DExOp :=
  [.create traderA 1 50 10 1000 0 10 7, .accept traderB traderA 1 20 11 0,
    .pay 8 0 traderA traderB 200 12, .destroy traderA 1, .expire 30]

/-- The formula is not used. -/
def noLegacyMath : LegacyMath := ⟨fun _ _ _ => 0, fun _ _ _ => 0⟩

set_option maxRecDepth 4000 in
theorem dex_reserves_add_up_sale :
    (returned (dexSale.forM (DExOp.run noLegacyMath)) fundedState).map
        (fun s => (s.tallyMap.money traderA 1 .balance, s.tallyMap.money traderB 1 .balance)) =
      some (90, 110) ∧
    (∀ s', dexSale.forM (DExOp.run noLegacyMath) fundedState = .ok () s' → ∀ seller p, IsOmni p →
      s'.tallyMap.money seller p .acceptReserve = s'.openAccepts seller p ∧
      (s'.getOffer seller p = none → s'.tallyMap.money seller p .sellOfferReserve = 0)) ∧
    ∀ e s', dexSale.forM (DExOp.run noLegacyMath) fundedState = .error e s' →
      e = .assertFailed .convert := by
  refine ⟨by decide +kernel, dex_reserves_add_up noLegacyMath funded_start ?_⟩
  intro op hop
  unfold dexSale at hop
  simp only [List.mem_cons, List.not_mem_nil, or_false] at hop
  rcases hop with rfl | rfl | rfl | rfl | rfl
  · exact Or.inl rfl
  · trivial
  · rfl
  · exact Or.inl rfl
  · trivial

end OmniCore
