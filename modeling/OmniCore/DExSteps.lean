import OmniCore.DExTx

/-! # DExSteps — what each event of the DEx can do

    An event is a sequence of five kinds of changes: an offer is created or withdrawn, an
    accept is created, paid or over. Each is described once, with the reserves it moves,
    so that invariants of runs need not follow the operations again. -/

namespace OmniCore

open Std (ExtTreeMap)
open Machine TextRec MapSum Exec

/-! ## The five changes -/

/-- The offer that a transaction of type 20 puts up. -/
def CMPTransaction.newOffer (tx : CMPTransaction) : CMPOffer :=
  { offerBlock := tx.block, offerAmountOriginal := tx.nValue.toNat, property := tx.property.toNat
    btcDesiredOriginal := toInt64 tx.amountDesired.toNat, minFee := toInt64 tx.minFee.toNat
    blocktimelimit := tx.blocktimelimit.toNat, txid := tx.txid, subaction := 0 }

/-- An accept of an offer. -/
def CMPOffer.acceptFor (offer : CMPOffer) (amount : Int) (block : Nat) : CMPAccept :=
  { acceptAmountOriginal := amount, acceptAmountRemaining := amount
    blocktimelimit := offer.blocktimelimit, property := offer.property
    offerAmountOriginal := offer.offerAmountOriginal
    btcDesiredOriginal := offer.btcDesiredOriginal, offerTxid := offer.txid, block := block }

/-- `amount` of an accept was paid for. An accept that is paid in full goes, and the offer with it if
    nothing is left in the two reserves. -/
structure PaidBy (seller buyer : Address) (p : PropertyId) (accept : CMPAccept) (amount : Int)
    (s s' : State) : Prop where
  money : ∀ a q t, s'.tallyMap.money a q t = s.tallyMap.money a q t
    - (if a = seller ∧ q = p ∧ t = .acceptReserve then amount else 0)
    + (if a = buyer ∧ q = p ∧ t = .balance then amount else 0)
  accepts : s'.accepts =
    if accept.acceptAmountRemaining ≤ amount then s.accepts.erase (acceptCombo seller buyer p)
    else s.accepts.insert (acceptCombo seller buyer p) (accept.reduce amount)
  offers : s'.offers =
    if accept.acceptAmountRemaining ≤ amount ∧ s.tallyMap.money seller p .sellOfferReserve = 0 ∧
        s.tallyMap.money seller p .acceptReserve = amount then
      s.offers.erase (offerCombo seller p)
    else s.offers

/-- What an event can do to the DEx, one change at a time. -/
inductive DExChange : DExEvent → State → State → Prop
  | created {tx : CMPTransaction} {s : State} {m' : TallyMap} :
      tx.amountDesired ≠ 0 → 0 < tx.nValue.toNat → (tx.nValue.toNat : Int) ≤ maxInt64 →
      s.getOffer tx.sender tx.property.toNat = none →
      Moved s.tallyMap m' tx.property.toNat tx.nValue.toNat tx.sender .balance tx.sender
        .sellOfferReserve →
      DExChange (.offer tx) s { s.withTally m' with
        offers := s.offers.insert (offerCombo tx.sender tx.property.toNat) tx.newOffer }
  | withdrawn {tx : CMPTransaction} {s : State} {m' : TallyMap} :
      (∀ a q, m'.money a q .sellOfferReserve = if a = tx.sender ∧ q = tx.property.toNat then 0
        else s.tallyMap.money a q .sellOfferReserve) →
      DExChange (.offer tx) s { s.withTally m' with
        offers := s.offers.erase (offerCombo tx.sender tx.property.toNat) }
  | accepted {tx : CMPTransaction} {s : State} {m' : TallyMap} {seller : Address} {offer : CMPOffer}
      {amount : Int} :
      s.getOffer seller tx.property.toNat = some offer →
      s.getAccept seller tx.property.toNat tx.sender = none → 0 < amount →
      Moved s.tallyMap m' tx.property.toNat amount seller .sellOfferReserve seller .acceptReserve →
      DExChange (.accept tx) s { s.withTally m' with
        accepts := s.accepts.insert (acceptCombo seller tx.sender tx.property.toNat)
          (offer.acceptFor amount tx.block) }
  | paid {txid : Txid} {vout : Nat} {seller buyer : Address} {amountPaid : Int} {block : Nat}
      {s s' : State} {p : PropertyId} {accept : CMPAccept} {amount : Int} :
      s.paidAccept seller buyer = some (p, accept) → 0 ≤ amount →
      amount ≤ accept.acceptAmountRemaining →
      (0 < accept.acceptAmountRemaining → accept.acceptAmountRemaining ≤ amount →
        (accept.acceptAmountRemaining - 1) * accept.btcDesiredOriginal <
          amountPaid * accept.offerAmountOriginal) →
      PaidBy seller buyer p accept amount s s' →
      DExChange (.pay txid vout seller buyer amountPaid block) s s'
  | closed {blockNow : Nat} {s : State} {m' : TallyMap} {seller buyer : Address} {p : PropertyId}
      {accept : CMPAccept} :
      s.getAccept seller p buyer = some accept →
      (∀ a q, m'.money a q .sellOfferReserve = s.tallyMap.money a q .sellOfferReserve +
        if a = seller ∧ q = p ∧ s.returnToMoney seller p accept = false then
          accept.acceptAmountRemaining else 0) →
      DExChange (.expire blockNow) s { s.withTally m' with
        accepts := s.accepts.erase (acceptCombo seller buyer p) }

/-- Several changes, the reserves adding up before each. -/
def DExChanges (c : ConsensusParams) (e : DExEvent) : State → State → Prop :=
  Relation.ReflTransGen fun s s' => ReserveInv c s ∧ DExChange e s s'

/-! ## Rounding up -/

/-- The rounded quotient reaches a number only if the numerator exceeds what the number before it
    covers. -/
theorem lt_of_le_divideAndRoundUp {n d r : Nat} (hd : 0 < d) (hr : 0 < r)
    (h : r ≤ divideAndRoundUp n d) : (r - 1) * d < n := by
  unfold divideAndRoundUp at h
  split at h
  · omega
  · next hn =>
      have hle := h.trans (Nat.mod_le _ _)
      have hquotient : r - 1 ≤ (n - 1) / d := by omega
      have hmul := (Nat.le_div_iff_mul_le hd).mp hquotient
      omega

/-- If the purchase is computed, its arguments are not negative; if it covers `r` tokens, enough was
    paid. -/
theorem calculateDExPurchase_covers (offered desired paid : Int) (hdesired : desired ≠ 0) (s : State) :
    wp (calculateDExPurchase offered desired paid)
      (fun k s' => s' = s ∧ 0 ≤ k ∧ ∀ r, 0 < r → r ≤ k → (r - 1) * desired < paid * offered)
      OnlyConversions s := by
  unfold calculateDExPurchase
  rw [wp_bind, wp_convertTo256]
  refine ⟨fun hoffered => ?_, fun _ => rfl⟩
  rw [wp_bind, wp_convertTo256]
  refine ⟨fun hnonneg => ?_, fun _ => rfl⟩
  rw [wp_bind, wp_convertTo256]
  refine ⟨fun hpaid => ?_, fun _ => rfl⟩
  rw [wp_convertTo64]
  refine ⟨fun _ => ⟨rfl, Int.natCast_nonneg _, fun r hr hle => ?_⟩, fun _ => rfl⟩
  have hlt := lt_of_le_divideAndRoundUp (n := mul256 paid.toNat offered.toNat) (d := desired.toNat)
    (r := r.toNat) (by omega) (by omega) (by omega)
  have hmul : (r.toNat - 1) * desired.toNat < paid.toNat * offered.toNat :=
    hlt.trans_le (Nat.mod_le _ _)
  have hcast : ((r.toNat - 1 : Nat) : Int) * (desired.toNat : Int) <
      (paid.toNat : Int) * (offered.toNat : Int) := by exact_mod_cast hmul
  rw [Int.toNat_of_nonneg hnonneg, Int.toNat_of_nonneg hpaid, Int.toNat_of_nonneg hoffered] at hcast
  have hpred : ((r.toNat - 1 : Nat) : Int) = r - 1 := by omega
  rwa [hpred] at hcast

/-! ## The operations -/

section Operations

variable {c : ConsensusParams} {legacy : LegacyMath} {s : State} {seller buyer : Address}
  {p : PropertyId}

/-- A creation either puts up the offer or does nothing. -/
theorem createOffer_changes {tx : CMPTransaction} (h : ReserveInv c s)
    (hvalue : (tx.nValue.toNat : Int) ≤ maxInt64) (hp : IsOmni tx.property.toNat)
    (hmath : c.isFeatureActivated .dexMath tx.block = true) :
    wp (tx.createOffer legacy) (fun _ s' => s' = s ∨ DExChange (.offer tx) s s')
      (fun _ _ => False) s := by
  have hamount : toInt64 tx.nValue.toNat = tx.nValue.toNat := by
    refine toInt64_natCast ?_
    unfold maxInt64 at hvalue
    omega
  have hpure : ∀ r : Int × Option Int, wp (pure r : ExecM (Int × Option Int))
      (fun _ s' => s' = s ∨ DExChange (.offer tx) s s') (fun _ _ => False) s :=
    fun r => (wp_pure _ _ _ _).mpr (Or.inl rfl)
  unfold CMPTransaction.createOffer dexOfferCreate
  rw [hamount, wp_ite]
  refine ⟨fun _ => hpure _, fun _ => ?_⟩
  rw [wp_ite]
  refine ⟨fun _ => hpure _, fun hdesired => ?_⟩
  rw [wp_bind, wp_get, wp_ite]
  refine ⟨fun _ => hpure _, fun hnone => ?_⟩
  rw [s.getMPbalance_eq _ _ (by simp), h.params, wp_ite]
  refine ⟨fun _ => hpure _, fun henough => ?_⟩
  have hle : (tx.nValue.toNat : Int) ≤ s.tallyMap.money tx.sender tx.property.toNat .balance :=
    not_lt.mp fun hless => henough ⟨hmath, hless⟩
  rw [if_neg (not_lt.mpr hle)]
  dsimp only
  rw [wp_ite]
  refine ⟨fun hpos => ?_, fun _ => hpure _⟩
  refine wp_move hpos hle trivial trivial (h.supply _ hp) (fun _ => h.unfrozen _ _ hp) ?_
  intro m' hm
  rw [wp_bind, wp_modify, wp_pure]
  refine Or.inr (DExChange.created ?_ (Int.natCast_pos.mp hpos) hvalue
    (Option.not_isSome_iff_eq_none.mp hnone) hm)
  rintro hzero
  rw [hzero] at hdesired
  exact hdesired toInt64_zero

/-- So does a withdrawal. -/
theorem dexOfferDestroy_changes {tx : CMPTransaction} (h : ReserveInv c s)
    (hp : IsOmni tx.property.toNat) :
    wp (dexOfferDestroy tx.sender tx.property.toNat)
      (fun _ s' => s' = s ∨ DExChange (.offer tx) s s') (fun _ _ => False) s := by
  unfold dexOfferDestroy
  rw [wp_bind, wp_get, wp_ite]
  refine ⟨fun _ => (wp_pure _ _ _ _).mpr (Or.inl rfl), fun _ => ?_⟩
  rw [s.getMPbalance_eq _ _ (by simp)]
  dsimp only
  have hnonneg := s.tallyMap.money_nonneg tx.sender tx.property.toNat
    (show TallyType.sellOfferReserve ≠ .pending by simp)
  rw [wp_ite]
  constructor
  · intro hpos
    refine wp_move hpos le_rfl trivial trivial (h.supply _ hp) (by simp) ?_
    intro m' hm
    rw [wp_bind, wp_modify, wp_pure]
    refine Or.inr (DExChange.withdrawn fun a q => ?_)
    rw [hm.money_src (by simp)]
    split
    · next hsame =>
        rw [hsame.1, hsame.2]
        omega
    · omega
  · intro hzero
    rw [wp_bind, wp_modify, wp_pure]
    refine Or.inr (DExChange.withdrawn ?_)
    intro a q
    show s.tallyMap.money a q .sellOfferReserve = _
    split
    · next hsame =>
        rw [hsame.1, hsame.2]
        omega
    · rfl

/-- An accept transaction either reserves a part of an offer or does nothing. -/
theorem acceptOffer_changes (h : ReserveInv c s) (tx : CMPTransaction) :
    wp (logicMathAcceptOfferBTC tx) (fun _ s' => s' = s ∨ DExChange (.accept tx) s s')
      (fun _ _ => False) s := by
  have hpure : ∀ r : Int × Option Int, wp (pure r : ExecM (Int × Option Int))
      (fun _ s' => s' = s ∨ DExChange (.accept tx) s s') (fun _ _ => False) s :=
    fun r => (wp_pure _ _ _ _).mpr (Or.inl rfl)
  unfold logicMathAcceptOfferBTC
  rw [wp_bind, wp_get, wp_ite]
  refine ⟨fun _ => hpure _, fun _ => ?_⟩
  rw [wp_ite]
  refine ⟨fun _ => hpure _, fun _ => ?_⟩
  cases tx.receiver with
  | none => exact hpure _
  | some receiver =>
      show wp (dexAcceptCreate tx.sender receiver tx.property.toNat (toInt64 tx.nValue.toNat) tx.block
        tx.txFeePaid) _ _ s
      unfold dexAcceptCreate
      rw [wp_bind, wp_get]
      cases hoffer : s.getOffer receiver tx.property.toNat with
      | none => exact hpure _
      | some offer =>
          have hp : IsOmni tx.property.toNat := by
            obtain ⟨seller', p', hkey, hp'⟩ := h.offers _ _ hoffer
            rwa [(offerCombo_injective hkey).2]
          dsimp only
          rw [wp_ite]
          refine ⟨fun _ => hpure _, fun hnone => ?_⟩
          rw [wp_ite]
          refine ⟨fun _ => hpure _, fun _ => ?_⟩
          rw [s.getMPbalance_eq _ _ (by simp), wp_ite]
          refine ⟨fun hpos => ?_, fun _ => hpure _⟩
          refine wp_move hpos ?_ trivial trivial (h.supply _ hp) (by simp) ?_
          · split
            · assumption
            · exact le_rfl
          · intro m' hm
            rw [wp_bind, wp_modify, wp_pure]
            exact Or.inr (DExChange.accepted hoffer (Option.not_isSome_iff_eq_none.mp hnone) hpos hm)

/-- An accept is over: its reserve has gone back to the offer or to the balance. -/
def AcceptOver (seller buyer : Address) (p : PropertyId) (accept : CMPAccept) (fForceErase : Bool)
    (s s' : State) : Prop :=
  ∃ m', (∀ a q, m'.money a q .sellOfferReserve = s.tallyMap.money a q .sellOfferReserve +
      if a = seller ∧ q = p ∧ s.returnToMoney seller p accept = false then
        accept.acceptAmountRemaining else 0) ∧
    (accept.acceptAmountRemaining = 0 → m' = s.tallyMap) ∧
    s' = { s.withTally m' with accepts :=
      if fForceErase then s.accepts.erase (acceptCombo seller buyer p) else s.accepts }

theorem dexAcceptDestroy_over {accept : CMPAccept} (h : ReserveInv c s) (hp : IsOmni p)
    (hget : s.getAccept seller p buyer = some accept) (fForceErase : Bool) :
    wp (dexAcceptDestroy buyer seller p fForceErase)
      (fun _ s' => AcceptOver seller buyer p accept fForceErase s s') (fun _ _ => False) s := by
  have hnonneg := (h.accepts _ _ hget).1
  have hend : ∀ m', (∀ a q, m'.money a q .sellOfferReserve =
        s.tallyMap.money a q .sellOfferReserve +
          if a = seller ∧ q = p ∧ s.returnToMoney seller p accept = false then
            accept.acceptAmountRemaining else 0) →
      (accept.acceptAmountRemaining = 0 → m' = s.tallyMap) →
      wp (if fForceErase = true then do
          modify fun s => { s with accepts := s.accepts.erase (acceptCombo seller buyer p) }
          pure 0
        else pure 0 : ExecM Int) (fun _ s' => AcceptOver seller buyer p accept fForceErase s s')
        (fun _ _ => False) (s.withTally m') := by
    intro m' hsell hzero
    rw [wp_ite, wp_bind, wp_modify, wp_pure, wp_pure]
    refine ⟨fun hforce => ⟨m', hsell, hzero, ?_⟩, fun hforce => ⟨m', hsell, hzero, ?_⟩⟩
    · rw [if_pos hforce]
      rfl
    · rw [if_neg hforce]
      rfl
  unfold dexAcceptDestroy
  rw [wp_bind, wp_get, hget]
  dsimp only
  rw [wp_ite]
  constructor
  · intro hpos
    have hle := h.le_reserve hp hget
    -- where the reserve goes to
    have hback : ∀ back : Bool, s.returnToMoney seller p accept = back →
        wp (do
          assertUpdate seller p (-accept.acceptAmountRemaining) .acceptReserve
          assertUpdate seller p accept.acceptAmountRemaining
            (if back then .balance else .sellOfferReserve)
          if fForceErase = true then do
            modify fun s => { s with accepts := s.accepts.erase (acceptCombo seller buyer p) }
            pure 0
          else pure 0 : ExecM Int) (fun _ s' => AcceptOver seller buyer p accept fForceErase s s')
          (fun _ _ => False) s := by
      intro back hreturn
      cases back with
      | true =>
          refine wp_move hpos hle trivial trivial (h.supply p hp) (by simp) ?_
          intro m' hm
          refine hend m' (fun a q => ?_) fun hzero => absurd hzero hpos.ne'
          rw [hm.money_of_ne a q (by simp) (by simp), hreturn]
          simp
      | false =>
          refine wp_move hpos hle trivial trivial (h.supply p hp) (by simp) ?_
          intro m' (hm : Moved s.tallyMap m' p accept.acceptAmountRemaining seller .acceptReserve
            seller .sellOfferReserve)
          refine hend m' (fun a q => ?_) fun hzero => absurd hzero hpos.ne'
          rw [hm.money_dst (by simp), hreturn]
          simp
    exact hback _ rfl
  · intro hno
    have hzero : accept.acceptAmountRemaining = 0 := by omega
    refine hend s.tallyMap (fun a q => ?_) fun _ => rfl
    rw [hzero]
    simp

/-- An offer without a reserve is withdrawn without moving anything. -/
theorem dexOfferDestroy_empty (hzero : s.tallyMap.money seller p .sellOfferReserve = 0) :
    wp (dexOfferDestroy seller p)
      (fun _ s' => s' = { s with offers := s.offers.erase (offerCombo seller p) })
      (fun _ _ => False) s := by
  unfold dexOfferDestroy
  rw [wp_bind, wp_get, wp_ite]
  constructor
  · intro hnone
    have hno : s.offers[offerCombo seller p]? = none := Option.isNone_iff_eq_none.mp hnone
    rw [wp_pure, erase_of_none hno]
  · intro _
    rw [s.getMPbalance_eq _ _ (by simp), hzero]
    dsimp only
    rw [if_neg (lt_irrefl 0), wp_bind, wp_modify, wp_pure]

/-- `ACCEPT_RESERVE` of the two properties is reported as it is. -/
theorem getMPbalance_acceptReserve (hp : IsOmni p) :
    s.getMPbalance seller p .acceptReserve = s.tallyMap.money seller p .acceptReserve := by
  unfold State.getMPbalance
  refine if_neg fun hno => ?_
  have hlt := hno.2
  rcases hp with rfl | rfl
  · exact absurd hlt (by decide)
  · exact absurd hlt (by decide)

/-- The end of a payment, after the tokens have gone to the buyer. -/
theorem paymentEnd_effect {accept : CMPAccept} {amount : Int} {answer : Int × Option Int}
    {m' : TallyMap} {txList : TextDB} (h : ReserveInv c s) (hp : IsOmni p)
    (hget : s.getAccept seller p buyer = some accept)
    (hle : amount ≤ accept.acceptAmountRemaining)
    (hmoney : ∀ a q t, m'.money a q t = s.tallyMap.money a q t
      - (if a = seller ∧ q = p ∧ t = .acceptReserve then amount else 0)
      + (if a = buyer ∧ q = p ∧ t = .balance then amount else 0))
    (hsupply : ∀ q, m'.supply q = s.tallyMap.supply q) :
    wp (do
      modify fun s => { s with
        accepts := s.accepts.insert (acceptCombo seller buyer p) (accept.reduce amount) }
      if accept.acceptAmountRemaining ≤ amount then
        let s ← get
        let reserveSell := s.getMPbalance seller p .sellOfferReserve
        let reserveAccept := s.getMPbalance seller p .acceptReserve
        let _ ← dexAcceptDestroy buyer seller p true
        if reserveSell = 0 ∧ reserveAccept = 0 then
          let _ ← dexOfferDestroy seller p
      pure answer : ExecM (Int × Option Int))
      (fun _ s' => PaidBy seller buyer p accept amount s s') (fun _ _ => False)
      { s.withTally m' with txList := txList } := by
  have hsell : m'.money seller p .sellOfferReserve = s.tallyMap.money seller p .sellOfferReserve := by
    rw [hmoney]
    simp
  have haccept : m'.money seller p .acceptReserve =
      s.tallyMap.money seller p .acceptReserve - amount := by
    rw [hmoney]
    simp
  rw [wp_bind, wp_modify]
  -- the accept is written with what is left of it
  have hwritten : ReserveInv c { s.withTally m' with
      txList := txList
      accepts := s.accepts.insert (acceptCombo seller buyer p) (accept.reduce amount) } := by
    refine h.paid hp hget hle (fun a q => ?_) (fun a q => ?_) hsupply txList
    · rw [hmoney]
      simp
    · rw [hmoney]
      simp
  dsimp only
  rw [wp_ite]
  constructor
  · intro hall
    have hgone : (accept.reduce amount).acceptAmountRemaining = 0 := by
      unfold CMPAccept.reduce
      dsimp only
      omega
    rw [wp_bind, wp_get, wp_bind]
    refine wp_mono (@dexAcceptDestroy_over c _ seller buyer p (accept.reduce amount) hwritten hp
      ?_ true) ?_ fun _ _ hno => hno.elim
    · unfold State.getAccept
      dsimp only
      rw [getElem?_insert_eq, if_pos rfl]
    rintro _ s1 ⟨m1, _, hkept, rfl⟩
    rw [hkept hgone]
    dsimp only
    rw [if_pos rfl, erase_insert]
    have hreserves : (State.getMPbalance { s.withTally m' with
          txList := txList
          accepts := s.accepts.insert (acceptCombo seller buyer p) (accept.reduce amount) }
          seller p .sellOfferReserve = 0 ∧
        State.getMPbalance { s.withTally m' with
          txList := txList
          accepts := s.accepts.insert (acceptCombo seller buyer p) (accept.reduce amount) }
          seller p .acceptReserve = 0) ↔
        (s.tallyMap.money seller p .sellOfferReserve = 0 ∧
          s.tallyMap.money seller p .acceptReserve = amount) := by
      rw [State.getMPbalance_eq _ _ _ (by simp), getMPbalance_acceptReserve hp]
      show m'.money seller p .sellOfferReserve = 0 ∧ m'.money seller p .acceptReserve = 0 ↔ _
      rw [hsell, haccept, sub_eq_zero]
    rw [wp_ite]
    constructor
    · intro hempty
      have hzero : m'.money seller p .sellOfferReserve = 0 := by
        rw [hsell]
        exact (hreserves.mp hempty).1
      rw [wp_bind]
      refine wp_imp (dexOfferDestroy_empty hzero) ?_
      rintro _ _ rfl
      rw [wp_pure]
      exact ⟨hmoney, (if_pos hall).symm, (if_pos ⟨hall, hreserves.mp hempty⟩).symm⟩
    · intro hleft
      rw [wp_pure]
      exact ⟨hmoney, (if_pos hall).symm,
        (if_neg fun hno => hleft (hreserves.mpr hno.2)).symm⟩
  · intro hpart
    rw [wp_pure]
    exact ⟨hmoney, (if_neg hpart).symm, (if_neg fun hno => hpart hno.1).symm⟩

/-- **A PAYMENT** moves what it buys, at most what is open of the accept, to the buyer. It halts just if
    the purchase cannot be computed. -/
theorem dexPayment_effect {accept : CMPAccept} (legacy : LegacyMath) (h : ReserveInv c s) (txid : Txid)
    (vout : Nat) (amountPaid : Int) {block : Nat} (hmath : c.isFeatureActivated .dexMath block = true)
    (hpaid : s.paidAccept seller buyer = some (p, accept)) (hdesired : accept.btcDesiredOriginal ≠ 0) :
    wp (dexPayment legacy txid vout seller buyer amountPaid block)
      (fun _ s' => ∃ calculated, calculateDExPurchase accept.offerAmountOriginal
          accept.btcDesiredOriginal amountPaid s = .ok calculated s ∧
        PaidBy seller buyer p accept (min accept.acceptAmountRemaining calculated) s s')
      (fun e s' => calculateDExPurchase accept.offerAmountOriginal accept.btcDesiredOriginal
        amountPaid s = .error e s') s := by
  obtain ⟨hp, hget⟩ := paidAccept_some hpaid
  have hnonneg := (h.accepts _ _ hget).1
  unfold dexPayment
  rw [wp_bind, wp_get, hpaid]
  dsimp only
  rw [if_neg hdesired, h.params, if_pos hmath, wp_bind]
  refine wp_mono (wp_and (calculateDExPurchase_covers _ _ _ hdesired s) (wp_self _ s)) ?_
    fun _ _ he => he.2
  rintro calculated s' ⟨⟨hs', hcalculated, _⟩, hrun⟩
  rw [hs'] at hrun ⊢
  have hcore : ∀ (amount : Int) (amended : Option Int), 0 ≤ amount →
      amount ≤ accept.acceptAmountRemaining → wp (do
        if 0 < amount then
          assertUpdate seller p (-amount) .acceptReserve
          assertUpdate buyer p amount .balance
          recordPaymentTX txid true block vout p amount buyer seller
        modify fun s => { s with
          accepts := s.accepts.insert (acceptCombo seller buyer p) (accept.reduce amount) }
        if accept.acceptAmountRemaining ≤ amount then
          let s ← get
          let reserveSell := s.getMPbalance seller p .sellOfferReserve
          let reserveAccept := s.getMPbalance seller p .acceptReserve
          let _ ← dexAcceptDestroy buyer seller p true
          if reserveSell = 0 ∧ reserveAccept = 0 then
            let _ ← dexOfferDestroy seller p
        pure (if 0 < amount then 0 else dexErrorPayment, amended) : ExecM (Int × Option Int))
        (fun _ s' => PaidBy seller buyer p accept amount s s') (fun _ _ => False) s := by
    intro amount amended hamount hle
    dsimp only
    rw [wp_ite]
    constructor
    · intro hpos
      refine wp_move hpos (hle.trans (h.le_reserve hp hget)) trivial trivial (h.supply p hp)
        (by simp) ?_
      intro m' hm
      rw [wp_bind]
      refine wp_recordPaymentTX ?_
      intro txList
      exact paymentEnd_effect h hp hget hle hm.money hm.supply
    · intro hno
      have hzero : amount = 0 := by omega
      refine paymentEnd_effect h hp hget hle ?_ fun _ => rfl
      intro a q t
      rw [hzero]
      simp
  have hdone : ∀ amount : Int, amount = min accept.acceptAmountRemaining calculated →
      ∀ (r : Int × Option Int) (s' : State), PaidBy seller buyer p accept amount s s' →
        ∃ calculated, calculateDExPurchase accept.offerAmountOriginal accept.btcDesiredOriginal
            amountPaid s = .ok calculated s ∧
          PaidBy seller buyer p accept (min accept.acceptAmountRemaining calculated) s s' := by
    rintro amount rfl r s' hs'
    exact ⟨calculated, hrun, hs'⟩
  by_cases hmore : accept.acceptAmountRemaining < calculated
  · rw [if_pos hmore]
    exact wp_mono (hcore _ _ hnonneg le_rfl) (hdone _ (min_eq_left hmore.le).symm)
      fun _ _ hno => hno.elim
  · rw [if_neg hmore]
    exact wp_mono (hcore _ _ hcalculated (not_lt.mp hmore))
      (hdone _ (min_eq_right (not_lt.mp hmore)).symm) fun _ _ hno => hno.elim

/-- A single change, if there is one. -/
theorem DExChanges.of_change {e : DExEvent} {s' : State} (h : ReserveInv c s)
    (hs' : s' = s ∨ DExChange e s s') : DExChanges c e s s' := by
  rcases hs' with rfl | hchange
  · exact Relation.ReflTransGen.refl
  · exact Relation.ReflTransGen.single ⟨h, hchange⟩

/-- An update withdraws, and then creates. -/
theorem updateOffer_changes {tx : CMPTransaction} (legacy : LegacyMath) (h : ReserveInv c s)
    (hvalue : (tx.nValue.toNat : Int) ≤ maxInt64) (hp : IsOmni tx.property.toNat)
    (hmath : c.isFeatureActivated .dexMath tx.block = true) :
    wp (tx.updateOffer legacy) (fun _ s' => DExChanges c (.offer tx) s s') (fun _ _ => False) s := by
  unfold CMPTransaction.updateOffer dexOfferUpdate
  rw [wp_bind, wp_get, wp_ite]
  refine ⟨fun _ => (wp_pure _ _ _ _).mpr Relation.ReflTransGen.refl, fun _ => ?_⟩
  rw [wp_bind]
  refine wp_mono (wp_and (dexOfferDestroy_inv h hp) (dexOfferDestroy_changes h hp)) ?_
    fun _ _ hno => hno.1
  intro rc s₁ ⟨hs₁, hchange⟩
  have hfirst := DExChanges.of_change h hchange
  rw [wp_ite]
  refine ⟨fun _ => ?_, fun _ => (wp_pure _ _ _ _).mpr hfirst⟩
  refine wp_imp (createOffer_changes hs₁ hvalue hp hmath) ?_
  intro _ s' hs'
  exact hfirst.trans (DExChanges.of_change hs₁ hs')

/-- A payment is one change, or none. -/
theorem dexPayment_changes (legacy : LegacyMath) (h : ReserveInv c s) (txid : Txid) (vout : Nat)
    (amountPaid : Int) {block : Nat} (hmath : c.isFeatureActivated .dexMath block = true) :
    wp (dexPayment legacy txid vout seller buyer amountPaid block)
      (fun _ s' => s' = s ∨ DExChange (.pay txid vout seller buyer amountPaid block) s s')
      (fun _ _ => True) s := by
  cases hpaid : s.paidAccept seller buyer with
  | none =>
      unfold dexPayment
      rw [wp_bind, wp_get, hpaid]
      exact (wp_pure _ _ _ _).mpr (Or.inl rfl)
  | some found =>
      obtain ⟨p, accept⟩ := found
      by_cases hdesired : accept.btcDesiredOriginal = 0
      · unfold dexPayment
        rw [wp_bind, wp_get, hpaid]
        dsimp only
        rw [if_pos hdesired]
        exact (wp_pure _ _ _ _).mpr (Or.inl rfl)
      · refine wp_mono (dexPayment_effect legacy h txid vout amountPaid hmath hpaid hdesired) ?_
          fun _ _ _ => trivial
        rintro _ s' ⟨calculated, hrun, hs'⟩
        have hnonneg := (h.accepts _ _ (paidAccept_some hpaid).2).1
        obtain ⟨_, hcalculated, hcovers⟩ :=
          wp_ok (calculateDExPurchase_covers _ _ _ hdesired s) hrun
        refine Or.inr (DExChange.paid hpaid (le_min hnonneg hcalculated) (min_le_left _ _) ?_ hs')
        intro hpos hall
        exact hcovers _ hpos (hall.trans (min_le_right _ _))

/-- Each expired accept is one change. -/
theorem eraseIfExpired_changes (h : ReserveInv c s) (blockNow : Nat) {e : Text × CMPAccept}
    (he : s.accepts[e.1]? = some e.2) :
    wp (eraseIfExpired blockNow e)
      (fun _ s' => s' = s ∨ DExChange (.expire blockNow) s s') (fun _ _ => False) s := by
  obtain ⟨_, seller, buyer, p, hkey, hp⟩ := h.accepts _ _ he
  unfold eraseIfExpired
  dsimp only
  rw [wp_ite]
  refine ⟨fun _ => ?_, fun _ => (wp_pure _ _ _ _).mpr (Or.inl rfl)⟩
  rw [hkey, acceptParties_acceptCombo]
  dsimp only
  rw [hkey] at he
  rw [wp_bind]
  refine wp_imp (dexAcceptDestroy_over h hp he false) ?_
  rintro _ _ ⟨m', hsell, _, rfl⟩
  rw [wp_modify]
  exact Or.inr (DExChange.closed he hsell)

theorem eraseExpiredAccepts_changes (h : ReserveInv c s) (blockNow : Nat) :
    wp (eraseExpiredAccepts blockNow) (fun _ s' => DExChanges c (.expire blockNow) s s')
      (fun _ _ => False) s := by
  unfold eraseExpiredAccepts
  rw [wp_bind, wp_get]
  have hentries : ∀ e ∈ s.accepts.toList, s.accepts[e.1]? = some e.2 :=
    fun e he => mem_toList_iff.mp he
  have hkeys : (s.accepts.toList.map Prod.fst).Nodup := by
    rw [ExtTreeMap.map_fst_toList_eq_keys]
    exact ExtTreeMap.nodup_keys
  -- the entries that are still to come are untouched
  generalize s.accepts.toList = entries at hentries hkeys
  induction entries generalizing s with
  | nil => exact (wp_forM_nil _ _ _ _).mpr Relation.ReflTransGen.refl
  | cons e rest ih =>
      rw [wp_forM_cons]
      rw [List.map_cons, List.nodup_cons] at hkeys
      refine wp_mono (wp_and (eraseIfExpired_inv h blockNow (hentries e (by simp)))
        (eraseIfExpired_changes h blockNow (hentries e (by simp)))) ?_ fun _ _ hno => hno.1
      intro _ s₁ ⟨⟨hs₁, hothers⟩, hchange⟩
      refine wp_imp (ih hs₁ ?_ hkeys.2) fun _ _ hs' => (DExChanges.of_change h hchange).trans hs'
      intro e' he'
      rw [hothers e'.1 ?_]
      · exact hentries e' (by simp [he'])
      · intro heq
        exact hkeys.1 (List.mem_map.mpr ⟨e', he', heq⟩)

end Operations

/-! ## Events and runs -/

section Runs

variable {c : ConsensusParams} {legacy : LegacyMath} {start s : State} {events : List DExEvent}

/-- **WHAT AN EVENT DOES**: a sequence of the five changes. -/
theorem DExEvent.run_changes (legacy : LegacyMath) (e : DExEvent) (he : e.MathActive c)
    (h : ReserveInv c s) : wp (e.run legacy) (fun _ s' => DExChanges c e s s') (fun _ _ => True) s := by
  cases e with
  | offer tx =>
      refine wp_discard (E := fun _ _ => False) (wp_tradeOffer ?_ ?_ ?_ ?_) fun _ _ hno => hno.elim
      · exact fun _ => Relation.ReflTransGen.refl
      · intro hallowed _
        exact wp_imp (createOffer_changes h hallowed.value hallowed.omni he)
          fun _ _ hs' => DExChanges.of_change h hs'
      · intro htakes
        exact updateOffer_changes legacy h htakes.allowed.value htakes.allowed.omni he
      · intro hallowed _
        unfold CMPTransaction.destroyOffer
        rw [wp_bind]
        refine wp_imp (dexOfferDestroy_changes h hallowed.omni) ?_
        intro _ s' hs'
        exact (wp_pure _ _ _ _).mpr (DExChanges.of_change h hs')
  | accept tx =>
      refine wp_discard (E := fun _ _ => False) ?_ fun _ _ hno => hno.elim
      exact wp_imp (acceptOffer_changes h tx) fun _ _ hs' => DExChanges.of_change h hs'
  | pay txid vout seller buyer amountPaid block =>
      refine wp_discard (E := fun _ _ => True) ?_ fun _ _ _ => trivial
      exact wp_imp (dexPayment_changes legacy h txid vout amountPaid he)
        fun _ _ hs' => DExChanges.of_change h hs'
  | expire blockNow =>
      exact wp_mono (eraseExpiredAccepts_changes h blockNow) (fun _ _ hs' => hs')
        fun _ _ hno => hno.elim

/-- **THE INDUCTION OVER RUNS**: what holds at the start, is kept by every change of an event of the run
    and by what goes on beside the DEx, holds in the end. -/
theorem DExRun.induct {I : State → Prop} (hrun : DExRun legacy start events s)
    (hstart : DExStart c start) (hmath : ∀ e ∈ events, e.MathActive c) (hI : I start)
    (hchange : ∀ e ∈ events, ∀ s s', ReserveInv c s → DExChange e s s' → I s → I s')
    (hother : ∀ s s', BesideDEx s s' → I s → I s') : I s := by
  induction hrun with
  | start => exact hI
  | @event events s s' e hbefore hstep ih =>
      have hmathBefore : ∀ x ∈ events, x.MathActive c :=
        fun x hx => hmath x (List.mem_append_left _ hx)
      have he : e ∈ events ++ [e] := List.mem_append_right _ List.mem_cons_self
      have hinv := hbefore.inv hstart hmathBefore
      have hspec := wp_ok (e.run_changes legacy (hmath e he) hinv) hstep
      have hchanges : DExChanges c e s s' := hspec
      have hI' := ih hmathBefore fun x hx => hchange x (List.mem_append_left _ hx)
      clear hstep hspec hbefore hinv
      induction hchanges with
      | refl => exact hI'
      | tail _ hlast ih => exact hchange e he _ _ hlast.1 hlast.2 ih
  | other _ hbeside ih => exact hother _ _ hbeside (ih hmath hchange)

end Runs

end OmniCore
