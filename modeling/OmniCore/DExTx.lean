import OmniCore.DExReserve

/-! # DExTx — transactions and runs of the DEx

    A seller creates, replaces and withdraws an offer by transactions of type 20, a buyer
    accepts by one of type 22; payments are found in the outputs of any transaction, and
    accepts expire with the blocks. Whatever comes in whatever order, tokens only move. -/

namespace OmniCore

open Std (ExtTreeMap)
open Machine TextRec MapSum Exec

/-! ## Unsigned amounts in signed variables -/

theorem toInt64_toNat_eq_zero (x : UInt64) : toInt64 x.toNat = 0 ↔ x = 0 := by
  have hlt := x.toNat_lt
  constructor
  · intro h
    refine UInt64.toNat_inj.mp ?_
    show x.toNat = 0
    unfold toInt64 at h
    rw [Int.bmod_def] at h
    split at h <;> omega
  · rintro rfl
    exact toInt64_zero

theorem toInt64_toNat_of_pos {x : UInt64} (h : 0 < toInt64 x.toNat) :
    toInt64 x.toNat = (x.toNat : Int) := by
  have hlt := x.toNat_lt
  unfold toInt64 at h ⊢
  rw [Int.bmod_def] at h ⊢
  split at h
  · next hsmall =>
      rw [if_pos hsmall]
      omega
  · omega

/-! ## The two transactions -/

/-- `PKT_ERROR_TRADEOFFER`. -/
def pktErrorTradeOffer : Int := -70000

namespace CMPTransaction

/-- The offer that a transaction of type 20 describes is created. -/
def createOffer (tx : CMPTransaction) (legacy : LegacyMath) : ExecM (Int × Option Int) :=
  dexOfferCreate legacy tx.sender tx.property.toNat (toInt64 tx.nValue.toNat) tx.block
    (toInt64 tx.amountDesired.toNat) (toInt64 tx.minFee.toNat) tx.blocktimelimit.toNat tx.txid

/-- The offer that a transaction of type 20 describes replaces another. -/
def updateOffer (tx : CMPTransaction) (legacy : LegacyMath) : ExecM (Int × Option Int) :=
  dexOfferUpdate legacy tx.sender tx.property.toNat (toInt64 tx.nValue.toNat) tx.block
    (toInt64 tx.amountDesired.toNat) (toInt64 tx.minFee.toNat) tx.blocktimelimit.toNat tx.txid

/-- The offer is withdrawn; no amount is amended. -/
def destroyOffer (tx : CMPTransaction) : ExecM (Int × Option Int) := do
  let rc ← dexOfferDestroy tx.sender tx.property.toNat
  pure (rc, none)

end CMPTransaction

/-- `logicMath_TradeOffer`, with the amount that replaces the offered one. -/
def logicMathTradeOffer (legacy : LegacyMath) (tx : CMPTransaction) : ExecM (Int × Option Int) := do
  let s ← get
  if !s.params.isTransactionTypeAllowed tx.block tx.property.toNat tx.type.toNat
      tx.version.toNat then
    pure (pktErrorTradeOffer - 22, none)
  else if maxInt64 < tx.nValue.toNat then
    pure (pktErrorTradeOffer - 23, none)
  else if omniPropertyTMSC ≠ tx.property.toNat ∧ omniPropertyMSC ≠ tx.property.toNat then
    pure (pktErrorTradeOffer - 47, none)
  else
    let offerExists := (s.getOffer tx.sender tx.property.toNat).isSome
    -- figure out which action this is based on amount for sale, version and sub-action
    match tx.version.toNat with
    | 0 =>
        if tx.nValue ≠ 0 then
          if !offerExists then tx.createOffer legacy else tx.updateOffer legacy
        else
          if offerExists then tx.destroyOffer else pure (pktErrorTradeOffer - 49, none)
    | 1 =>
        if offerExists = true ∧ tx.subaction ≠ 3 ∧ tx.subaction ≠ 2 then
          pure (pktErrorTradeOffer - 48, none)
        else if offerExists = false ∧ tx.subaction ≠ 1 then
          pure (pktErrorTradeOffer - 49, none)
        else
          match tx.subaction.toNat with
          | 1 => tx.createOffer legacy
          | 2 => tx.updateOffer legacy
          | 3 => tx.destroyOffer
          | _ => pure (pktError - 999, none)
    | _ => pure (pktError - 500, none)

/-- `logicMath_AcceptOffer_BTC`, with the amount that was reserved. Nobody sells without an
    address. -/
def logicMathAcceptOfferBTC (tx : CMPTransaction) : ExecM (Int × Option Int) := do
  let s ← get
  if !s.params.isTransactionTypeAllowed tx.block tx.property.toNat tx.type.toNat
      tx.version.toNat then
    pure (dexErrorAccept - 22, none)
  else if tx.nValue = 0 ∨ maxInt64 < tx.nValue.toNat then
    pure (dexErrorAccept - 23, none)
  else
    match tx.receiver with
    | none => pure (dexErrorAccept - 15, none)
    | some receiver =>
        dexAcceptCreate tx.sender receiver tx.property.toNat (toInt64 tx.nValue.toNat) tx.block
          tx.txFeePaid

/-! ## What an offer transaction does -/

/-- The checks that are made before the action is chosen. -/
structure OfferAllowed (s : State) (tx : CMPTransaction) : Prop where
  allowed : s.params.isTransactionTypeAllowed tx.block tx.property.toNat tx.type.toNat
    tx.version.toNat = true
  value : (tx.nValue.toNat : Int) ≤ maxInt64
  omni : IsOmni tx.property.toNat

/-- The transaction replaces an offer. -/
structure TakesUpdate (s : State) (tx : CMPTransaction) : Prop where
  allowed : OfferAllowed s tx
  offer : (s.getOffer tx.sender tx.property.toNat).isSome = true
  action : tx.version.toNat = 0 ∧ tx.nValue ≠ 0 ∨ tx.version.toNat = 1 ∧ tx.subaction.toNat = 2

/-- **AN OFFER TRANSACTION** is refused, creates, replaces or withdraws. -/
theorem wp_tradeOffer {legacy : LegacyMath} {tx : CMPTransaction} {s : State}
    {Q : Int × Option Int → State → Prop} {E : Halt → State → Prop}
    (hrefused : ∀ code, Q (code, none) s)
    (hcreate : OfferAllowed s tx → s.getOffer tx.sender tx.property.toNat = none →
      wp (tx.createOffer legacy) Q E s)
    (hupdate : TakesUpdate s tx → wp (tx.updateOffer legacy) Q E s)
    (hdestroy : OfferAllowed s tx → (s.getOffer tx.sender tx.property.toNat).isSome = true →
      wp tx.destroyOffer Q E s) :
    wp (logicMathTradeOffer legacy tx) Q E s := by
  have hpure : ∀ code, wp (pure (code, none) : ExecM (Int × Option Int)) Q E s :=
    fun code => (wp_pure _ _ _ _).mpr (hrefused code)
  unfold logicMathTradeOffer
  rw [wp_bind, wp_get, wp_ite]
  refine ⟨fun _ => hpure _, fun hallowed => ?_⟩
  rw [wp_ite]
  refine ⟨fun _ => hpure _, fun hvalue => ?_⟩
  rw [wp_ite]
  refine ⟨fun _ => hpure _, fun homni => ?_⟩
  have hok : OfferAllowed s tx := by
    refine ⟨?_, not_lt.mp hvalue, ?_⟩
    · rwa [Bool.not_eq_true', Bool.not_eq_false] at hallowed
    · unfold IsOmni
      by_contra hno
      rw [not_or] at hno
      exact homni ⟨Ne.symm hno.2, Ne.symm hno.1⟩
  dsimp only
  cases hoffer : s.getOffer tx.sender tx.property.toNat with
  | none =>
      rw [Option.isSome_none]
      split
      · rw [wp_ite, if_pos (by decide), if_neg (by decide)]
        exact ⟨fun _ => hcreate hok hoffer, fun _ => hpure _⟩
      · rw [if_neg (by simp), wp_ite]
        refine ⟨fun _ => hpure _, fun hnew => ?_⟩
        have hone : tx.subaction.toNat = 1 := by
          by_contra hne
          refine hnew ⟨rfl, fun heq => hne ?_⟩
          rw [heq]
          rfl
        rw [hone]
        exact hcreate hok hoffer
      · exact hpure _
  | some offer =>
      have hsome : (s.getOffer tx.sender tx.property.toNat).isSome = true := by
        rw [hoffer]
        rfl
      rw [Option.isSome_some]
      split
      · next hversion =>
          rw [wp_ite, if_neg (by decide), if_pos rfl]
          exact ⟨fun hne => hupdate ⟨hok, hsome, Or.inl ⟨hversion, hne⟩⟩, fun _ => hdestroy hok hsome⟩
      · next hversion =>
          rw [wp_ite]
          refine ⟨fun _ => hpure _, fun hknown => ?_⟩
          rw [if_neg (by simp)]
          split
          · next hone =>
              refine absurd ⟨rfl, ?_, ?_⟩ hknown
              · intro heq
                rw [heq] at hone
                cases hone
              · intro heq
                rw [heq] at hone
                cases hone
          · next htwo => exact hupdate ⟨hok, hsome, Or.inr ⟨hversion, htwo⟩⟩
          · exact hdestroy hok hsome
          · exact hpure _
      · exact hpure _

/-- In that case it does nothing else. -/
theorem TakesUpdate.eq {s : State} {tx : CMPTransaction} (h : TakesUpdate s tx) (legacy : LegacyMath) :
    logicMathTradeOffer legacy tx s = tx.updateOffer legacy s := by
  obtain ⟨⟨hallowed, hvalue, homni⟩, hoffer, haction⟩ := h
  have hproperty : ¬(omniPropertyTMSC ≠ tx.property.toNat ∧ omniPropertyMSC ≠ tx.property.toNat) := by
    rintro ⟨htmsc, hmsc⟩
    rcases homni with h | h
    · exact hmsc h.symm
    · exact htmsc h.symm
  unfold logicMathTradeOffer
  show (if (!s.params.isTransactionTypeAllowed tx.block tx.property.toNat tx.type.toNat
    tx.version.toNat) = true then _ else _ : ExecM (Int × Option Int)) s = _
  rw [hallowed, if_neg (by decide), if_neg (not_lt.mpr hvalue), if_neg hproperty, hoffer]
  rcases haction with ⟨hversion, hne⟩ | ⟨hversion, htwo⟩
  · rw [hversion]
    show (if tx.nValue ≠ 0 then tx.updateOffer legacy else tx.destroyOffer) s = _
    rw [if_pos hne]
  · have hsub : tx.subaction = 2 := UInt8.toNat_inj.mp htwo
    rw [hversion, hsub]
    rfl

/-! ## Tokens only move -/

/-- The tokens of a property are the same, and so are the parameters. -/
structure Kept (s s' : State) : Prop where
  params : s'.params = s.params
  supply : ∀ q, s'.tallyMap.supply q = s.tallyMap.supply q

theorem Kept.refl (s : State) : Kept s s := ⟨rfl, fun _ => rfl⟩

theorem Kept.trans {s s' s'' : State} (h : Kept s s') (h' : Kept s' s'') : Kept s s'' :=
  ⟨h'.params.trans h.params, fun q => (h'.supply q).trans (h.supply q)⟩

/-- A debit and a credit of one amount keep the supply, if both go through. -/
theorem wp_move_supply {α : Type} {s : State} {p : PropertyId} {amount : Int} {src dst : Address}
    {srcTy dstTy : TallyType} {k : ExecM α} {Q : α → State → Prop} (hsrc : srcTy.Holds)
    (hdst : dstTy.Holds)
    (hk : ∀ m', (∀ q, m'.supply q = s.tallyMap.supply q) →
      wp k Q (fun _ _ => True) (s.withTally m')) :
    wp (do
      assertUpdate src p (-amount) srcTy
      assertUpdate dst p amount dstTy
      k) Q (fun _ _ => True) s := by
  rw [wp_bind]
  refine wp_assertUpdate (fun _ m₁ hdebit => ?_) fun _ _ _ _ => trivial
  rw [wp_bind]
  refine wp_assertUpdate (fun _ m₂ hcredit => ?_) fun _ _ _ _ => trivial
  refine hk m₂ fun q => ?_
  have hafter : m₂.supply q = m₁.supply q + if q = p then amount else 0 := hcredit.supply hdst q
  rw [hafter, hdebit.supply hsrc q]
  split <;> omega

section Kept

variable {s : State}

theorem dexOfferCreate_kept (legacy : LegacyMath) (seller : Address) (p : PropertyId)
    (amountOffered : Int) (block : Nat) (amountDesired minAcceptFee : Int) (paymentWindow : Nat)
    (txid : Txid) :
    wp (dexOfferCreate legacy seller p amountOffered block amountDesired minAcceptFee paymentWindow
      txid) (fun _ s' => Kept s s') (fun _ _ => True) s := by
  have hpure : ∀ r : Int × Option Int, wp (pure r : ExecM (Int × Option Int))
      (fun _ s' => Kept s s') (fun _ _ => True) s := fun r => (wp_pure _ _ _ _).mpr (Kept.refl s)
  unfold dexOfferCreate
  rw [wp_ite]
  refine ⟨fun _ => hpure _, fun _ => ?_⟩
  rw [wp_ite]
  refine ⟨fun _ => hpure _, fun _ => ?_⟩
  rw [wp_bind, wp_get, wp_ite]
  refine ⟨fun _ => hpure _, fun _ => ?_⟩
  rw [wp_ite]
  refine ⟨fun _ => hpure _, fun _ => ?_⟩
  rw [wp_ite]
  refine ⟨fun _ => ?_, fun _ => hpure _⟩
  refine wp_move_supply trivial trivial ?_
  intro m' hm
  rw [wp_bind, wp_modify, wp_pure]
  exact ⟨rfl, hm⟩

theorem dexOfferDestroy_kept (seller : Address) (p : PropertyId) :
    wp (dexOfferDestroy seller p) (fun _ s' => Kept s s') (fun _ _ => True) s := by
  unfold dexOfferDestroy
  rw [wp_bind, wp_get, wp_ite]
  refine ⟨fun _ => (wp_pure _ _ _ _).mpr (Kept.refl s), fun _ => ?_⟩
  dsimp only
  rw [wp_ite]
  constructor
  · intro _
    refine wp_move_supply trivial trivial ?_
    intro m' hm
    rw [wp_bind, wp_modify, wp_pure]
    exact ⟨rfl, hm⟩
  · intro _
    rw [wp_bind, wp_modify, wp_pure]
    exact ⟨rfl, fun _ => rfl⟩

theorem dexOfferUpdate_kept (legacy : LegacyMath) (seller : Address) (p : PropertyId)
    (amountOffered : Int) (block : Nat) (amountDesired minAcceptFee : Int) (paymentWindow : Nat)
    (txid : Txid) :
    wp (dexOfferUpdate legacy seller p amountOffered block amountDesired minAcceptFee paymentWindow
      txid) (fun _ s' => Kept s s') (fun _ _ => True) s := by
  unfold dexOfferUpdate
  rw [wp_bind, wp_get, wp_ite]
  refine ⟨fun _ => (wp_pure _ _ _ _).mpr (Kept.refl s), fun _ => ?_⟩
  rw [wp_bind]
  refine wp_imp (dexOfferDestroy_kept seller p) ?_
  intro rc s' hs'
  rw [wp_ite]
  refine ⟨fun _ => ?_, fun _ => (wp_pure _ _ _ _).mpr hs'⟩
  exact wp_imp (dexOfferCreate_kept legacy seller p amountOffered block amountDesired minAcceptFee
    paymentWindow txid) fun _ _ hs'' => hs'.trans hs''

theorem dexAcceptCreate_kept (buyer seller : Address) (p : PropertyId) (amountAccepted : Int)
    (block : Nat) (feePaid : Int) :
    wp (dexAcceptCreate buyer seller p amountAccepted block feePaid) (fun _ s' => Kept s s')
      (fun _ _ => True) s := by
  have hpure : ∀ r : Int × Option Int, wp (pure r : ExecM (Int × Option Int))
      (fun _ s' => Kept s s') (fun _ _ => True) s := fun r => (wp_pure _ _ _ _).mpr (Kept.refl s)
  unfold dexAcceptCreate
  rw [wp_bind, wp_get]
  cases s.getOffer seller p with
  | none => exact hpure _
  | some offer =>
      dsimp only
      rw [wp_ite]
      refine ⟨fun _ => hpure _, fun _ => ?_⟩
      rw [wp_ite]
      refine ⟨fun _ => hpure _, fun _ => ?_⟩
      rw [wp_ite]
      refine ⟨fun _ => ?_, fun _ => hpure _⟩
      refine wp_move_supply trivial trivial ?_
      intro m' hm
      rw [wp_bind, wp_modify, wp_pure]
      exact ⟨rfl, hm⟩

theorem dexAcceptDestroy_kept (buyer seller : Address) (p : PropertyId) (fForceErase : Bool) :
    wp (dexAcceptDestroy buyer seller p fForceErase) (fun _ s' => Kept s s') (fun _ _ => True) s := by
  unfold dexAcceptDestroy
  rw [wp_bind, wp_get]
  cases s.getAccept seller p buyer with
  | none => exact (wp_pure _ _ _ _).mpr (Kept.refl s)
  | some accept =>
      have hend : ∀ m', (∀ q, m'.supply q = s.tallyMap.supply q) →
          wp (if fForceErase = true then do
              modify fun s => { s with accepts := s.accepts.erase (acceptCombo seller buyer p) }
              pure 0
            else pure 0 : ExecM Int) (fun _ s' => Kept s s') (fun _ _ => True) (s.withTally m') := by
        intro m' hm
        rw [wp_ite, wp_bind, wp_modify, wp_pure, wp_pure]
        exact ⟨fun _ => ⟨rfl, hm⟩, fun _ => ⟨rfl, hm⟩⟩
      dsimp only
      rw [wp_ite]
      constructor
      · intro _
        refine wp_move_supply trivial ?_ hend
        split <;> trivial
      · intro _
        exact hend s.tallyMap fun _ => rfl

theorem dexPayment_kept (legacy : LegacyMath) (txid : Txid) (vout : Nat) (seller buyer : Address)
    (amountPaid : Int) (block : Nat) :
    wp (dexPayment legacy txid vout seller buyer amountPaid block) (fun _ s' => Kept s s')
      (fun _ _ => True) s := by
  unfold dexPayment
  rw [wp_bind, wp_get]
  cases s.paidAccept seller buyer with
  | none => exact (wp_pure _ _ _ _).mpr (Kept.refl s)
  | some found =>
      obtain ⟨p, accept⟩ := found
      dsimp only
      rw [wp_ite]
      refine ⟨fun _ => (wp_pure _ _ _ _).mpr (Kept.refl s), fun _ => ?_⟩
      -- after the purchase the accept is written, and perhaps removed
      have hend : ∀ (t : State) (amount : Int) (answer : Int × Option Int), Kept s t →
          wp (do
            modify fun s => { s with
              accepts := s.accepts.insert (acceptCombo seller buyer p) (accept.reduce amount) }
            if accept.acceptAmountRemaining ≤ amount then
              let s ← get
              let reserveSell := s.getMPbalance seller p .sellOfferReserve
              let reserveAccept := s.getMPbalance seller p .acceptReserve
              let _ ← dexAcceptDestroy buyer seller p true
              if reserveSell = 0 ∧ reserveAccept = 0 then
                let _ ← dexOfferDestroy seller p
            pure answer : ExecM (Int × Option Int)) (fun _ s' => Kept s s') (fun _ _ => True) t := by
        intro t amount answer ht
        rw [wp_bind, wp_modify]
        have hwritten : Kept s { t with
            accepts := t.accepts.insert (acceptCombo seller buyer p) (accept.reduce amount) } :=
          ⟨ht.params, ht.supply⟩
        dsimp only
        rw [wp_ite]
        refine ⟨fun _ => ?_, fun _ => (wp_pure _ _ _ _).mpr hwritten⟩
        rw [wp_bind, wp_get, wp_bind]
        refine wp_imp (dexAcceptDestroy_kept buyer seller p true) ?_
        intro _ s' hs'
        rw [wp_ite]
        refine ⟨fun _ => ?_, fun _ => (wp_pure _ _ _ _).mpr (hwritten.trans hs')⟩
        rw [wp_bind]
        refine wp_imp (dexOfferDestroy_kept seller p) ?_
        intro _ s'' hs''
        exact (wp_pure _ _ _ _).mpr ((hwritten.trans hs').trans hs'')
      have hcore : ∀ (amount : Int) (amended : Option Int),
          wp (do
            if 0 < amount then
              assertUpdate seller p (-amount) .acceptReserve
              assertUpdate buyer p amount .balance
              recordPaymentTX txid true block vout p amount buyer seller
            modify fun s => { s with
              accepts := s.accepts.insert (acceptCombo seller buyer p) (accept.reduce amount) }
            if accept.acceptAmountRemaining ≤ amount then
              let s ← get
              let reserveSell := s.getMPbalance seller p .sellOfferReserve
              let reserveAccept := s.getMPbalance seller p .acceptReserve
              let _ ← dexAcceptDestroy buyer seller p true
              if reserveSell = 0 ∧ reserveAccept = 0 then
                let _ ← dexOfferDestroy seller p
            pure (if 0 < amount then 0 else dexErrorPayment, amended) : ExecM (Int × Option Int))
            (fun _ s' => Kept s s') (fun _ _ => True) s := by
        intro amount amended
        dsimp only
        rw [wp_ite]
        constructor
        · intro _
          refine wp_move_supply trivial trivial ?_
          intro m' hm
          rw [wp_bind]
          refine wp_recordPaymentTX ?_
          intro txList
          exact hend _ amount _ ⟨rfl, hm⟩
        · intro _
          exact hend s amount _ (Kept.refl s)
      rw [wp_ite]
      constructor
      · -- the formula reads nothing but its arguments
        intro _
        rw [wp_bind]
        refine wp_mono (calculateDExPurchase_nonneg _ _ _ s) ?_ fun _ _ _ => trivial
        rintro calculated _ ⟨_, rfl⟩
        exact hcore _ _
      · intro _
        exact hcore _ _

theorem eraseExpiredAccepts_kept (blockNow : Nat) :
    wp (eraseExpiredAccepts blockNow) (fun _ s' => Kept s s') (fun _ _ => True) s := by
  unfold eraseExpiredAccepts
  rw [wp_bind, wp_get]
  refine wp_forM (I := fun s' => Kept s s') ?_ (Kept.refl s)
  intro e _ t ht
  unfold eraseIfExpired
  dsimp only
  rw [wp_ite]
  refine ⟨fun _ => ?_, fun _ => (wp_pure _ _ _ _).mpr ht⟩
  cases acceptParties e.1 with
  | none => exact (wp_throw _ _ _ _).mpr trivial
  | some parties =>
      obtain ⟨seller, p, buyer⟩ := parties
      dsimp only
      rw [wp_bind]
      refine wp_imp (dexAcceptDestroy_kept buyer seller p false) ?_
      intro _ t' ht'
      rw [wp_modify]
      have hall := ht.trans ht'
      exact ⟨hall.params, hall.supply⟩

end Kept

/-! ## Runs -/

/-- What the DEx does next: an offer or accept transaction, a payment, or the expiry of accepts at a
    block. -/
inductive DExEvent
  | offer (tx : CMPTransaction)
  | accept (tx : CMPTransaction)
  | pay (txid : Txid) (vout : Nat) (seller buyer : Address) (amountPaid : Int) (block : Nat)
  | expire (blockNow : Nat)

namespace DExEvent

def run (legacy : LegacyMath) : DExEvent → ExecM Unit
  | offer tx => do let _ ← logicMathTradeOffer legacy tx
  | accept tx => do let _ ← logicMathAcceptOfferBTC tx
  | pay txid vout seller buyer amountPaid block => do
      let _ ← dexPayment legacy txid vout seller buyer amountPaid block
  | expire blockNow => eraseExpiredAccepts blockNow

/-- `FEATURE_DEXMATH` is active where the event asks for it. -/
def MathActive (c : ConsensusParams) : DExEvent → Prop
  | offer tx => c.isFeatureActivated .dexMath tx.block = true
  | pay _ _ _ _ _ block => c.isFeatureActivated .dexMath block = true
  | accept _ | expire _ => True

end DExEvent

/-- The rest of the node goes on between the events: it leaves the DEx and its reserves alone, issues
    no more of OMNI and TOMNI than fits into 64 bits, and cannot freeze them. -/
structure BesideDEx (s s' : State) : Prop where
  params : s'.params = s.params
  offers : s'.offers = s.offers
  accepts : s'.accepts = s.accepts
  sellReserve : ∀ a p, IsOmni p →
    s'.tallyMap.money a p .sellOfferReserve = s.tallyMap.money a p .sellOfferReserve
  acceptReserve : ∀ a p, IsOmni p →
    s'.tallyMap.money a p .acceptReserve = s.tallyMap.money a p .acceptReserve
  supply : ∀ p, IsOmni p → s'.tallyMap.supply p ≤ maxInt64
  unfrozen : ∀ a p, IsOmni p → s'.isAddressFrozen a p = false

/-- A node whose DEx started in `start` and has been through the events. -/
inductive DExRun (legacy : LegacyMath) (start : State) : List DExEvent → State → Prop
  | start : DExRun legacy start [] start
  | event {events : List DExEvent} {s s' : State} {e : DExEvent} :
      DExRun legacy start events s → e.run legacy s = .ok () s' →
      DExRun legacy start (events ++ [e]) s'
  | other {events : List DExEvent} {s s' : State} :
      DExRun legacy start events s → BesideDEx s s' → DExRun legacy start events s'

section Runs

variable {c : ConsensusParams} {legacy : LegacyMath} {start s : State} {events : List DExEvent}

/-- Whatever an event does, tokens only move. -/
theorem DExEvent.run_kept (legacy : LegacyMath) (e : DExEvent) (s : State) :
    wp (e.run legacy) (fun _ s' => Kept s s') (fun _ _ => True) s := by
  cases e with
  | offer tx =>
      refine wp_discard (E := fun _ _ => True) (wp_tradeOffer ?_ ?_ ?_ ?_) fun _ _ _ => trivial
      · exact fun _ => Kept.refl s
      · exact fun _ _ => dexOfferCreate_kept ..
      · exact fun _ => dexOfferUpdate_kept ..
      · intro _ _
        unfold CMPTransaction.destroyOffer
        rw [wp_bind]
        refine wp_imp (dexOfferDestroy_kept tx.sender tx.property.toNat) ?_
        intro _ s' hs'
        exact (wp_pure _ _ _ _).mpr hs'
  | accept tx =>
      refine wp_discard (E := fun _ _ => True) ?_ fun _ _ _ => trivial
      unfold logicMathAcceptOfferBTC
      rw [wp_bind, wp_get, wp_ite]
      refine ⟨fun _ => (wp_pure _ _ _ _).mpr (Kept.refl s), fun _ => ?_⟩
      rw [wp_ite]
      refine ⟨fun _ => (wp_pure _ _ _ _).mpr (Kept.refl s), fun _ => ?_⟩
      cases tx.receiver with
      | none => exact (wp_pure _ _ _ _).mpr (Kept.refl s)
      | some receiver => exact dexAcceptCreate_kept ..
  | pay txid vout seller buyer amountPaid block =>
      exact wp_discard (dexPayment_kept legacy txid vout seller buyer amountPaid block)
        fun _ _ _ => trivial
  | expire blockNow => exact eraseExpiredAccepts_kept blockNow

/-- In every run the parameters stay, and the supply of OMNI and TOMNI fits into 64 bits. -/
theorem DExRun.supply (h : DExRun legacy start events s) (hstart : DExStart c start) :
    s.params = c ∧ ∀ p, IsOmni p → s.tallyMap.supply p ≤ maxInt64 := by
  induction h with
  | start => exact ⟨hstart.params, hstart.supply⟩
  | @event events s s' e _ hstep ih =>
      have hspec := wp_ok (e.run_kept legacy s) hstep
      have hkept : Kept s s' := hspec
      exact ⟨hkept.params.trans ih.1, fun p hp => (hkept.supply p).trans_le (ih.2 p hp)⟩
  | other _ hother ih => exact ⟨hother.params.trans ih.1, hother.supply⟩

theorem ReserveInv.beside {s' : State} (h : ReserveInv c s) (hs' : BesideDEx s s') :
    ReserveInv c s' where
  params := hs'.params.trans h.params
  acceptReserve a p hp := by
    rw [hs'.acceptReserve a p hp, h.acceptReserve a p hp]
    unfold State.openAccepts
    rw [hs'.accepts]
  sellReserve a p hp hnone := by
    rw [hs'.sellReserve a p hp]
    refine h.sellReserve a p hp ?_
    unfold State.getOffer at hnone ⊢
    rwa [hs'.offers] at hnone
  accepts := by
    rw [hs'.accepts]
    exact h.accepts
  offers := by
    rw [hs'.offers]
    exact h.offers
  supply := hs'.supply
  unfrozen := hs'.unfrozen

/-- An event keeps the reserves, if the integer formula is in use. -/
theorem DExEvent.run_inv (legacy : LegacyMath) (e : DExEvent) (he : e.MathActive c)
    (h : ReserveInv c s) : wp (e.run legacy) (fun _ s' => ReserveInv c s') OnlyConversions s := by
  cases e with
  | offer tx =>
      refine wp_discard (E := fun _ _ => False) (wp_tradeOffer ?_ ?_ ?_ ?_) fun _ _ hno => hno.elim
      · exact fun _ => h
      · exact fun hok _ => dexOfferCreate_inv legacy h hok.omni ..
      · exact fun hupdate => dexOfferUpdate_inv legacy h hupdate.allowed.omni ..
      · intro hok _
        unfold CMPTransaction.destroyOffer
        rw [wp_bind]
        refine wp_imp (dexOfferDestroy_inv h hok.omni) ?_
        intro _ s' hs'
        exact (wp_pure _ _ _ _).mpr hs'
  | accept tx =>
      refine wp_discard (E := fun _ _ => False) ?_ fun _ _ hno => hno.elim
      unfold logicMathAcceptOfferBTC
      rw [wp_bind, wp_get, wp_ite]
      refine ⟨fun _ => (wp_pure _ _ _ _).mpr h, fun _ => ?_⟩
      rw [wp_ite]
      refine ⟨fun _ => (wp_pure _ _ _ _).mpr h, fun _ => ?_⟩
      cases tx.receiver with
      | none => exact (wp_pure _ _ _ _).mpr h
      | some receiver => exact dexAcceptCreate_inv h ..
  | pay txid vout seller buyer amountPaid block =>
      exact wp_discard (dexPayment_inv legacy h txid vout amountPaid he) fun _ _ hconvert => hconvert
  | expire blockNow =>
      exact wp_mono (eraseExpiredAccepts_inv h blockNow) (fun _ _ hs' => hs') fun _ _ hno => hno.elim

/-- **THE RESERVES ADD UP** in every run on which the integer formula is in use. -/
theorem DExRun.inv (h : DExRun legacy start events s) (hstart : DExStart c start)
    (hmath : ∀ e ∈ events, e.MathActive c) : ReserveInv c s := by
  induction h with
  | start => exact hstart.inv
  | @event events s s' e _ hstep ih =>
      have hbefore := ih fun x hx => hmath x (List.mem_append_left _ hx)
      have he := hmath e (List.mem_append_right _ List.mem_cons_self)
      have hspec := wp_ok (e.run_inv legacy he hbefore) hstep
      exact hspec
  | other _ hother ih => exact (ih hmath).beside hother

end Runs

end OmniCore
