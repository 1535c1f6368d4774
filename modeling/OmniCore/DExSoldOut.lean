import OmniCore.DExPayment

/-! # DExSoldOut — offers that have nothing left

    An offer goes when its last accept is paid in full, and what is left is read off the
    seller's reserves. They are shared with the accepts of an older offer that was
    replaced: while one of those is open, the sold-out offer stays. In all other runs every
    offer has something left to sell or under sale. -/

namespace OmniCore

open Std (ExtTreeMap)
open Machine TextRec MapSum Exec

/-! ## What is left of an offer -/

/-- What is open of the accepts that carry the hash of an offer. -/
def State.carriedBy (s : State) (txid : Txid) : Int :=
  msum s.accepts fun _ accept => if accept.offerTxid = txid then accept.acceptAmountRemaining else 0

/-- Every offer has something left to sell or under sale. -/
def NoEmptyOffers (s : State) : Prop :=
  ∀ (seller : Address) (p : PropertyId) (offer : CMPOffer), s.getOffer seller p = some offer →
    0 < s.tallyMap.money seller p .sellOfferReserve + s.carriedBy offer.txid

/-- The same for the accepts of this seller and property only. -/
def State.openFor (s : State) (seller : Address) (p : PropertyId) (txid : Txid) : Int :=
  msum s.accepts fun key accept =>
    if isAcceptOf seller p key = true ∧ accept.offerTxid = txid then accept.acceptAmountRemaining else 0

/-- Every offer has something left that its seller's own accepts account for. -/
def OffersLeft (s : State) : Prop :=
  ∀ (seller : Address) (p : PropertyId) (offer : CMPOffer), s.getOffer seller p = some offer →
    0 < s.tallyMap.money seller p .sellOfferReserve + s.openFor seller p offer.txid

section Left

variable {c : ConsensusParams} {s : State}

theorem openFor_insert (s : State) (seller buyer : Address) (p : PropertyId) (accept : CMPAccept)
    (seller' : Address) (p' : PropertyId) (txid : Txid) :
    State.openFor { s with accepts := s.accepts.insert (acceptCombo seller buyer p) accept }
        seller' p' txid =
      s.openFor seller' p' txid + if seller = seller' ∧ p = p' then
        (if accept.offerTxid = txid then accept.acceptAmountRemaining else 0) -
          ((s.getAccept seller p buyer).elim 0 fun old =>
            if old.offerTxid = txid then old.acceptAmountRemaining else 0) else 0 := by
  unfold State.openFor State.getAccept
  rw [msum_insert_sub]
  by_cases hsame : seller = seller' ∧ p = p'
  · have hof := (isAcceptOf_acceptCombo seller buyer seller' p p').mpr hsame
    rw [if_pos hsame]
    simp only [hof, true_and]
  · have hno : isAcceptOf seller' p' (acceptCombo seller buyer p) = false := by
      rw [← Bool.not_eq_true, isAcceptOf_acceptCombo]
      exact hsame
    rw [if_neg hsame]
    cases s.accepts[acceptCombo seller buyer p]? with
    | none => simp [hno]
    | some old => simp [hno]

theorem openFor_erase (s : State) (seller buyer : Address) (p : PropertyId)
    (seller' : Address) (p' : PropertyId) (txid : Txid) :
    State.openFor { s with accepts := s.accepts.erase (acceptCombo seller buyer p) }
        seller' p' txid =
      s.openFor seller' p' txid - if seller = seller' ∧ p = p' then
        ((s.getAccept seller p buyer).elim 0 fun old =>
          if old.offerTxid = txid then old.acceptAmountRemaining else 0) else 0 := by
  unfold State.openFor State.getAccept
  rw [msum_erase_sub]
  by_cases hsame : seller = seller' ∧ p = p'
  · have hof := (isAcceptOf_acceptCombo seller buyer seller' p p').mpr hsame
    rw [if_pos hsame]
    simp only [hof, true_and]
  · have hno : isAcceptOf seller' p' (acceptCombo seller buyer p) = false := by
      rw [← Bool.not_eq_true, isAcceptOf_acceptCombo]
      exact hsame
    rw [if_neg hsame]
    cases s.accepts[acceptCombo seller buyer p]? with
    | none => simp
    | some old => simp [hno]

/-- An open accept counts for the offer it carries. -/
theorem ReserveInv.le_openFor (h : ReserveInv c s) {seller buyer : Address} {p : PropertyId}
    {accept : CMPAccept} (hget : s.getAccept seller p buyer = some accept) :
    accept.acceptAmountRemaining ≤ s.openFor seller p accept.offerTxid := by
  have hle := le_msum (f := fun key a => if isAcceptOf seller p key = true ∧
    a.offerTxid = accept.offerTxid then a.acceptAmountRemaining else 0) ?_ hget
  · rwa [if_pos ⟨(isAcceptOf_acceptCombo ..).mpr ⟨rfl, rfl⟩, rfl⟩] at hle
  · intro key a hkey
    split
    · exact (h.accepts key a hkey).1
    · exact le_rfl

theorem ReserveInv.openFor_nonneg (h : ReserveInv c s) (seller : Address) (p : PropertyId)
    (txid : Txid) : 0 ≤ s.openFor seller p txid := by
  refine msum_nonneg fun key a hkey => ?_
  split
  · exact (h.accepts key a hkey).1
  · exact le_rfl

/-- The accepts of the seller are among those that carry the hash. -/
theorem ReserveInv.openFor_le (h : ReserveInv c s) (seller : Address) (p : PropertyId)
    (txid : Txid) : s.openFor seller p txid ≤ s.carriedBy txid := by
  have hrest : 0 ≤ msum s.accepts fun key accept =>
      if isAcceptOf seller p key = false ∧ accept.offerTxid = txid then
        accept.acceptAmountRemaining else 0 := by
    refine msum_nonneg fun key a hkey => ?_
    split
    · exact (h.accepts key a hkey).1
    · exact le_rfl
  have hsum := msum_add s.accepts
    (fun key accept => if isAcceptOf seller p key = true ∧ accept.offerTxid = txid then
      accept.acceptAmountRemaining else 0)
    (fun key accept => if isAcceptOf seller p key = false ∧ accept.offerTxid = txid then
      accept.acceptAmountRemaining else 0)
  have hall : s.carriedBy txid = msum s.accepts fun key accept =>
      (if isAcceptOf seller p key = true ∧ accept.offerTxid = txid then
        accept.acceptAmountRemaining else 0) +
      (if isAcceptOf seller p key = false ∧ accept.offerTxid = txid then
        accept.acceptAmountRemaining else 0) := by
    refine msum_congr fun key accept _ => ?_
    cases isAcceptOf seller p key with
    | true => simp
    | false => simp
  rw [hall, hsum]
  unfold State.openFor
  omega

theorem OffersLeft.noneEmpty (h : OffersLeft s) (hinv : ReserveInv c s) : NoEmptyOffers s := by
  intro seller p offer hoffer
  have hleft := h seller p offer hoffer
  have hle := hinv.openFor_le seller p offer.txid
  omega

/-! ## The step that leaves an empty offer -/

/-- The payment completes the last accept of an offer with nothing left to sell, while an accept of an
    older offer of the seller is open. -/
def SellsOut (s : State) : DExEvent → Prop
  | .pay _ _ seller buyer amountPaid _ => ∃ p accept offer,
      s.paidAccept seller buyer = some (p, accept) ∧ s.getOffer seller p = some offer ∧
      accept.offerTxid = offer.txid ∧
      (accept.acceptAmountRemaining - 1) * accept.btcDesiredOriginal <
        amountPaid * accept.offerAmountOriginal ∧
      s.tallyMap.money seller p .sellOfferReserve = 0 ∧
      s.openFor seller p offer.txid = accept.acceptAmountRemaining ∧
      s.openAccepts seller p ≠ accept.acceptAmountRemaining
  | _ => False

/-- A payment that does not sell an offer out leaves something of it, or takes it away. -/
theorem PaidBy.offersLeft {s' : State} {txid : Txid} {vout : Nat} {seller buyer : Address}
    {amountPaid : Int} {block : Nat} {p : PropertyId} {accept : CMPAccept} {amount : Int}
    (hs' : PaidBy seller buyer p accept amount s s') (h : ReserveInv c s) (hleft : OffersLeft s)
    (hpaid : s.paidAccept seller buyer = some (p, accept))
    (hle : amount ≤ accept.acceptAmountRemaining)
    (henough : 0 < accept.acceptAmountRemaining → accept.acceptAmountRemaining ≤ amount →
      (accept.acceptAmountRemaining - 1) * accept.btcDesiredOriginal <
        amountPaid * accept.offerAmountOriginal)
    (hok : ¬SellsOut s (.pay txid vout seller buyer amountPaid block)) : OffersLeft s' := by
  intro a q o hget
  obtain ⟨hp, haccept⟩ := paidAccept_some hpaid
  have hbefore : s.getOffer a q = some o := by
    unfold State.getOffer at hget ⊢
    rw [hs'.offers] at hget
    split at hget
    · rw [getElem?_erase_eq] at hget
      split at hget
      · cases hget
      · exact hget
    · exact hget
  have hpos := hleft a q o hbefore
  have hnonneg := s.tallyMap.money_nonneg a q (show TallyType.sellOfferReserve ≠ .pending by simp)
  have hsell : s'.tallyMap.money a q .sellOfferReserve =
      s.tallyMap.money a q .sellOfferReserve := by
    rw [hs'.money]
    simp
  -- what was bought is no longer open
  have hopen : s'.openFor a q o.txid = s.openFor a q o.txid -
      if seller = a ∧ p = q ∧ accept.offerTxid = o.txid then amount else 0 := by
    have hsame : s'.openFor a q o.txid =
      State.openFor { s with accepts := s'.accepts } a q o.txid := rfl
    rw [hsame, hs'.accepts]
    split
    · next hall =>
        have hamount : amount = accept.acceptAmountRemaining := le_antisymm hle hall
        rw [openFor_erase, haccept]
        by_cases hparty : seller = a ∧ p = q
        · simp [hparty, hamount]
        · rw [if_neg hparty, if_neg fun hh => hparty ⟨hh.1, hh.2.1⟩]
    · rw [openFor_insert, haccept]
      by_cases hparty : seller = a ∧ p = q
      · by_cases htxid : accept.offerTxid = o.txid
        · simp [CMPAccept.reduce, hparty, htxid]
          omega
        · simp [CMPAccept.reduce, hparty, htxid]
      · rw [if_neg hparty, if_neg fun hh => hparty ⟨hh.1, hh.2.1⟩]
        omega
  rw [hsell, hopen]
  by_cases hsame : seller = a ∧ p = q ∧ accept.offerTxid = o.txid
  · obtain ⟨rfl, rfl, htxid⟩ := hsame
    have hcovers := h.le_openFor haccept
    rw [htxid] at hcovers
    rw [if_pos ⟨rfl, rfl, htxid⟩]
    by_contra hno
    -- nothing is left, so it was the last accept, and it is paid in full
    have hzero : s.tallyMap.money seller p .sellOfferReserve = 0 := by omega
    have hlast : s.openFor seller p o.txid = accept.acceptAmountRemaining := by omega
    have hall : accept.acceptAmountRemaining ≤ amount := by omega
    by_cases hothers : s.openAccepts seller p = accept.acceptAmountRemaining
    · have hreserve : s.tallyMap.money seller p .acceptReserve = amount := by
        rw [h.acceptReserve seller p hp, hothers]
        omega
      unfold State.getOffer at hget
      rw [hs'.offers, if_pos ⟨hall, hzero, hreserve⟩, getElem?_erase_eq, if_pos rfl] at hget
      cases hget
    · exact hok ⟨p, accept, o, hpaid, hbefore, htxid, henough (by omega) hall, hzero, hlast, hothers⟩
  · rw [if_neg hsame]
    omega

/-- **ALL OTHER CHANGES** leave something of every offer. -/
theorem DExChange.offersLeft {e : DExEvent} {s' : State} (hchange : DExChange e s s')
    (h : ReserveInv c s) (hleft : OffersLeft s) (hok : ¬SellsOut s e) : OffersLeft s' := by
  cases hchange with
  | @created tx s m' hdesired hpos hvalue hnone hm =>
      intro a q offer hget
      have hnonneg := s.tallyMap.money_nonneg a q
        (show TallyType.sellOfferReserve ≠ .pending by simp)
      have hopen : 0 ≤ s.openFor a q offer.txid := h.openFor_nonneg a q offer.txid
      show 0 < m'.money a q .sellOfferReserve + s.openFor a q offer.txid
      rw [hm.money_dst (by simp)]
      have hget := (getOffer_insert tx.sender tx.property.toNat s tx.newOffer a q).symm.trans hget
      by_cases hsame : tx.sender = a ∧ tx.property.toNat = q
      · -- the new offer has its whole amount to sell
        rw [if_pos ⟨hsame.1.symm, hsame.2.symm⟩]
        omega
      · rw [if_neg hsame] at hget
        rw [if_neg fun hh => hsame ⟨hh.1.symm, hh.2.symm⟩, add_zero]
        exact hleft a q offer hget
  | @withdrawn tx s m' hsell =>
      intro a q offer hget
      have hget := (getOffer_erase tx.sender tx.property.toNat s a q).symm.trans hget
      show 0 < m'.money a q .sellOfferReserve + s.openFor a q offer.txid
      by_cases hsame : tx.sender = a ∧ tx.property.toNat = q
      · rw [if_pos hsame] at hget
        cases hget
      · rw [if_neg hsame] at hget
        rw [hsell, if_neg fun hh => hsame ⟨hh.1.symm, hh.2.symm⟩]
        exact hleft a q offer hget
  | @accepted tx s m' seller offer amount hoffer hnone hpos hm =>
      intro a q o hget
      have hget : s.getOffer a q = some o := hget
      have hbefore := hleft a q o hget
      show 0 < m'.money a q .sellOfferReserve + State.openFor { s with
        accepts := s.accepts.insert (acceptCombo seller tx.sender tx.property.toNat)
          (offer.acceptFor amount tx.block) } a q o.txid
      rw [openFor_insert, hnone, hm.money_src (by simp)]
      by_cases hsame : seller = a ∧ tx.property.toNat = q
      · -- what is accepted goes from the one to the other
        have ho : o = offer := by
          rw [← hsame.1, ← hsame.2, hoffer] at hget
          exact (Option.some.inj hget).symm
        rw [if_pos hsame, if_pos ⟨hsame.1.symm, hsame.2.symm⟩, ho]
        rw [ho] at hbefore
        unfold CMPOffer.acceptFor
        simp
        omega
      · rw [if_neg hsame, if_neg fun hh => hsame ⟨hh.1.symm, hh.2.symm⟩]
        omega
  | @paid txid vout seller buyer amountPaid block s s' p accept amount hpaid hamount hle henough hs' =>
      exact hs'.offersLeft h hleft hpaid hle henough hok
  | @closed blockNow s m' seller buyer p accept hget hsell =>
      intro a q o hoffer
      have hoffer : s.getOffer a q = some o := hoffer
      have hbefore := hleft a q o hoffer
      show 0 < m'.money a q .sellOfferReserve + State.openFor { s with
        accepts := s.accepts.erase (acceptCombo seller buyer p) } a q o.txid
      rw [openFor_erase, hsell, hget]
      by_cases hsame : seller = a ∧ p = q
      · obtain ⟨rfl, rfl⟩ := hsame
        -- it goes back to the offer just if it carries its hash
        have hreturn : s.returnToMoney seller p accept = (o.txid != accept.offerTxid) := by
          unfold State.returnToMoney
          rw [hoffer]
        rw [hreturn]
        by_cases htxid : accept.offerTxid = o.txid
        · simp [htxid]
          omega
        · have hne : (o.txid != accept.offerTxid) = true := by simpa using Ne.symm htxid
          simp [htxid, hne]
          omega
      · rw [if_neg hsame, if_neg fun hh => hsame ⟨hh.1.symm, hh.2.1.symm⟩]
        omega

/-- An event that does not sell an offer out leaves something of every offer. -/
theorem DExEvent.run_offersLeft (legacy : LegacyMath) (e : DExEvent) (he : e.MathActive c)
    (h : ReserveInv c s) (hleft : OffersLeft s) (hok : ¬SellsOut s e) :
    wp (e.run legacy) (fun _ s' => OffersLeft s') (fun _ _ => True) s := by
  -- no change of another event is a payment
  have hothers : (∀ t, ¬SellsOut t e) →
      wp (e.run legacy) (fun _ s' => OffersLeft s') (fun _ _ => True) s := by
    intro hnever
    refine wp_imp (e.run_changes legacy he h) ?_
    intro _ s' hchanges
    induction hchanges with
    | refl => exact hleft
    | tail _ hlast ih => exact hlast.2.offersLeft hlast.1 ih (hnever _)
  cases e with
  | offer tx => exact hothers fun _ hno => hno
  | accept tx => exact hothers fun _ hno => hno
  | expire blockNow => exact hothers fun _ hno => hno
  | pay txid vout seller buyer amountPaid block =>
      refine wp_discard (E := fun _ _ => True) ?_ fun _ _ _ => trivial
      refine wp_imp (dexPayment_changes legacy h txid vout amountPaid he) ?_
      rintro _ s' (rfl | hchange)
      · exact hleft
      · exact hchange.offersLeft h hleft hok

end Left

/-! ## Runs -/

/-- A run all of whose events meet a condition on the state before. -/
inductive DExRunWhere (ok : State → DExEvent → Prop) (legacy : LegacyMath) (start : State) :
    List DExEvent → State → Prop
  | start : DExRunWhere ok legacy start [] start
  | event {events : List DExEvent} {s s' : State} {e : DExEvent} :
      DExRunWhere ok legacy start events s → ok s e → e.run legacy s = .ok () s' →
      DExRunWhere ok legacy start (events ++ [e]) s'
  | other {events : List DExEvent} {s s' : State} :
      DExRunWhere ok legacy start events s → BesideDEx s s' → DExRunWhere ok legacy start events s'

/-- `FEATURE_DEXMATH` is active, and no offer is sold out beside an accept of an older one. -/
def LeavesNoneEmpty (c : ConsensusParams) (s : State) (e : DExEvent) : Prop :=
  e.MathActive c ∧ ¬SellsOut s e

/-- **NO EMPTY OFFERS LINGER** in runs without such a step. -/
theorem noEmptyOffers {c : ConsensusParams} {legacy : LegacyMath} {start s : State}
    {events : List DExEvent} (hstart : DExStart c start)
    (hrun : DExRunWhere (LeavesNoneEmpty c) legacy start events s) : NoEmptyOffers s := by
  have hinv : ReserveInv c s ∧ OffersLeft s := by
    induction hrun with
    | start =>
        refine ⟨hstart.inv, fun seller p offer hoffer => ?_⟩
        unfold State.getOffer at hoffer
        rw [hstart.offers, ExtTreeMap.getElem?_empty] at hoffer
        cases hoffer
    | @event events s s' e _ hok hstep ih =>
        have hreserve := wp_ok (e.run_inv legacy hok.1 ih.1) hstep
        have hleft := wp_ok (e.run_offersLeft legacy hok.1 ih.1 ih.2 hok.2) hstep
        exact ⟨hreserve, hleft⟩
    | @other events s s' _ hbeside ih =>
        refine ⟨ih.1.beside hbeside, fun seller p offer hoffer => ?_⟩
        have hp : IsOmni p := by
          unfold State.getOffer at hoffer
          rw [hbeside.offers] at hoffer
          obtain ⟨seller', p', hkey, hp'⟩ := ih.1.offers _ _ hoffer
          rwa [(offerCombo_injective hkey).2]
        unfold State.getOffer State.openFor at *
        rw [hbeside.offers] at hoffer
        rw [hbeside.sellReserve seller p hp, hbeside.accepts]
        exact ih.2 seller p offer hoffer
  exact hinv.2.noneEmpty hinv.1

/-- `B` pays 200 satoshi of the 400 for what was accepted. -/
def partPayment : DExEvent := .pay 8 0 traderA traderB 200 12

/-- The node after that. -/
def partPaidState : State := after (partPayment.run noLegacyMath) (acceptedState offerTx)

set_option maxRecDepth 4000 in
theorem noEmptyOffers_partPaid :
    (partPaidState.getOffer traderA 1).isSome = true ∧ NoEmptyOffers partPaidState := by
  have hoffer : value ((DExEvent.offer offerTx).run noLegacyMath) fundedState = some () := by
    decide +kernel
  have haccept : value ((DExEvent.accept acceptTx).run noLegacyMath)
      (after ((DExEvent.offer offerTx).run noLegacyMath) fundedState) = some () := by decide +kernel
  have hpay : value (partPayment.run noLegacyMath) (acceptedState offerTx) = some () := by
    decide +kernel
  have hpaid : (acceptedState offerTx).paidAccept traderA traderB =
      some (1, offerTx.newOffer.acceptFor 20 11) := by decide +kernel
  have hmath := accepted_mathActive offerTx
  refine ⟨by decide +kernel, noEmptyOffers funded_start
    (((DExRunWhere.start.event ⟨hmath _ List.mem_cons_self, fun hno => hno⟩
      (eq_ok_of_value hoffer)).event ⟨trivial, fun hno => hno⟩ (eq_ok_of_value haccept)).event
      (e := partPayment) ⟨?_, ?_⟩ (eq_ok_of_value hpay))⟩
  · show openParams.isFeatureActivated .dexMath 12 = true
    exact decide_eq_true (Nat.zero_le 12)
  · -- 200 satoshi do not pay for 20 tokens at 20 satoshi each
    rintro ⟨p, accept, offer, hsome, _, _, henough, _⟩
    have hsome := hpaid.symm.trans hsome
    cases hsome
    revert henough
    decide

/-! ## An offer that lingers -/

/-- `A` replaces the offer by one of 30 OMNI. -/
def replacementTx : CMPTransaction :=
  { txid := 35, block := 12, sender := traderA, type := 20, version := 1, nValue := 30, property := 1
    amountDesired := 600, blocktimelimit := 10, subaction := 2 }

/-- `C` accepts all of that. -/
def acceptAllTx : CMPTransaction :=
  { txid := 36, block := 13, sender := traderC, receiver := some traderA, type := 22, nValue := 30
    property := 1 }

/-- `B` accepts a part of the first offer, which is replaced; `C` accepts and pays the second. -/
def lingeringEvents : List DExEvent :=
  [.offer offerTx, .accept acceptTx, .offer replacementTx, .accept acceptAllTx,
    .pay 9 0 traderA traderC 600 14]

/-- The node after some events. -/
def afterEvents (events : List DExEvent) : State :=
  events.foldl (fun s e => after (e.run noLegacyMath) s) fundedState

set_option maxRecDepth 8000 in
/-- **A SOLD-OUT OFFER LINGERS** beside an open accept of the offer it replaced. -/
theorem soldOut_lingers :
    DExStart openParams fundedState ∧
      DExRun noLegacyMath fundedState lingeringEvents (afterEvents lingeringEvents) ∧
      (∀ e ∈ lingeringEvents, e.MathActive openParams) ∧
      ¬NoEmptyOffers (afterEvents lingeringEvents) := by
  refine ⟨funded_start, ?_, ?_, ?_⟩
  · have hstep : ∀ (front : List DExEvent) (e : DExEvent),
        DExRun noLegacyMath fundedState front (afterEvents front) →
        value (e.run noLegacyMath) (afterEvents front) = some () →
        DExRun noLegacyMath fundedState (front ++ [e]) (afterEvents (front ++ [e])) := by
      intro front e hfront hreturns
      have hafter : afterEvents (front ++ [e]) = after (e.run noLegacyMath) (afterEvents front) := by
        unfold afterEvents
        rw [List.foldl_append]
        rfl
      rw [hafter]
      exact hfront.event (eq_ok_of_value hreturns)
    have h1 := hstep [] (.offer offerTx) DExRun.start (by decide +kernel)
    have h2 := hstep _ (.accept acceptTx) h1 (by decide +kernel)
    have h3 := hstep _ (.offer replacementTx) h2 (by decide +kernel)
    have h4 := hstep _ (.accept acceptAllTx) h3 (by decide +kernel)
    exact hstep _ (.pay 9 0 traderA traderC 600 14) h4 (by decide +kernel)
  · intro e he
    unfold lingeringEvents at he
    simp only [List.mem_cons, List.not_mem_nil, or_false] at he
    rcases he with rfl | rfl | rfl | rfl | rfl
    · exact decide_eq_true (Nat.zero_le _)
    · trivial
    · exact decide_eq_true (Nat.zero_le _)
    · trivial
    · exact decide_eq_true (Nat.zero_le _)
  · intro hno
    have hoffer : (afterEvents lingeringEvents).getOffer traderA 1 =
        some replacementTx.newOffer := by decide +kernel
    have hleft := hno traderA 1 _ hoffer
    have hempty : (afterEvents lingeringEvents).tallyMap.money traderA 1 .sellOfferReserve +
        (afterEvents lingeringEvents).carriedBy replacementTx.newOffer.txid = 0 := by
      decide +kernel
    rw [hempty] at hleft
    exact absurd hleft (lt_irrefl 0)

end OmniCore
