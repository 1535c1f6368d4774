import OmniCore.DExMoves
import OmniCore.ManagedMoves
import OmniCore.Node
import OmniCore.SendMoves

/-! # NodeRun — the books over the whole run of a node

    A node calls its handlers for block after block. Whatever they do, what is outstanding of
    a property is what the registry and the running crowdsales say, and of OMNI and TOMNI it
    is what the fundraiser and the rewards of the developers issued, less what was burned. -/

namespace OmniCore

open Std (ExtTreeMap)
open Machine TextRec MapSum Exec

/-! ## Updates that are not asserted -/

section Updates

variable {height : Int} {σ : Settings} {t : PropertyId → Int} {s : State} {who : Address}
  {p : PropertyId} {amount : Int} {ty : TallyType}

/-- A refused update changes no total. -/
theorem total_update_of_false {m : TallyMap} (h : (m.update who p amount ty).1 = false)
    (q : PropertyId) (u : TallyType) : (m.update who p amount ty).2.total q u = m.total q u := by
  have hno : ((m.tallyOf who).updateMoney p amount ty).1 = false := h
  have hwho := TallyMap.money_eq_elim m who q u
  unfold TallyMap.money at hwho
  show msum (m.insert who _) _ = _
  rw [msum_insert_sub, CMPTally.getMoney_updateMoney, hno]
  simp only [TallyMap.total, Bool.false_eq_true, false_and, if_false]
  omega

/-- An update that is not a debit of a frozen balance is refused or goes through. -/
theorem wp_tallied {Q : Bool → State → Prop}
    (hfree : ty = .balance → amount < 0 → s.isAddressFrozen who p = false) (hzero : Q false s)
    (hdone : Q (s.tallyMap.update who p amount ty).1
      (s.withTally (s.tallyMap.update who p amount ty).2)) :
    wp (updateTallyMap who p amount ty) Q (fun e _ => SparesFrozen e) s := by
  unfold updateTallyMap
  simp only [wp_bind, wp_ite, wp_pure, wp_get, wp_set, wp_assertThat]
  refine ⟨fun _ => hzero, fun _ => ⟨fun hdebit => ⟨fun _ => ?_, fun hfrozen => ?_⟩, fun _ => ?_⟩⟩
  · exact ⟨fun _ => ⟨fun _ => hdone, fun _ => by decide⟩, fun _ => hdone⟩
  · rw [hfree hdebit.1 hdebit.2] at hfrozen
    exact absurd hfrozen (by decide)
  · exact ⟨fun _ => ⟨fun _ => hdone, fun _ => by decide⟩, fun _ => hdone⟩

/-- The ledger has another supply. -/
theorem Standing.withTally (hs : Standing height σ t s) {m : TallyMap} {d : PropertyId → Int}
    (hsupply : ∀ q, m.supply q = s.tallyMap.supply q + d q) :
    Standing height σ (t + d) (s.withTally m) := by
  refine ⟨⟨hs.count.cache.congr rfl, fun q => ?_⟩, hs.settings, hs.book.congr rfl⟩
  have hcached : (s.withTally m).cached q = s.cached q := hs.count.cache.cached_congr rfl
  have hcount := hs.count.count q
  rw [State.outstanding] at hcount ⊢
  rw [hcached, State.withTally_tallyMap, hsupply, Pi.add_apply, ← hcount]
  omega

/-- A place that does not count. -/
theorem supply_update_other {m : TallyMap} (hty : ¬ ty.Holds) (q : PropertyId) :
    (m.update who p amount ty).2.supply q = m.supply q := by
  have hkept : ∀ u : TallyType, u.Holds → (m.update who p amount ty).2.total q u = m.total q u := by
    intro u hu
    cases hok : (m.update who p amount ty).1 with
    | true =>
        rw [(credited_update hok).total, if_neg fun hh : q = p ∧ u = ty => hty (hh.2 ▸ hu), add_zero]
    | false => exact total_update_of_false hok q u
  unfold TallyMap.supply
  rw [hkept .balance holds_balance, hkept .sellOfferReserve holds_sellOfferReserve,
    hkept .acceptReserve holds_acceptReserve, hkept .metaDExReserve holds_metaDExReserve]

/-- A place that counts. -/
theorem supply_update_holds {m : TallyMap} (hty : ty.Holds) (q : PropertyId) :
    (m.update who p amount ty).2.supply q = m.supply q +
      (if (m.update who p amount ty).1 = true then Pi.single p amount else 0 : PropertyId → Int) q := by
  cases hok : (m.update who p amount ty).1 with
  | true =>
      rw [(credited_update hok).supply hty, if_pos rfl]
      by_cases hq : q = p
      · subst hq
        rw [if_pos rfl, Pi.single_eq_same]
      · rw [if_neg hq, Pi.single_eq_of_ne hq]
  | false =>
      rw [if_neg Bool.false_ne_true, Pi.zero_apply, add_zero]
      unfold TallyMap.supply
      rw [total_update_of_false hok, total_update_of_false hok, total_update_of_false hok,
        total_update_of_false hok]

end Updates

/-! ## What is not in the books -/

namespace OnlyOmni

variable {base base' : PropertyId → Int}

theorem zero : OnlyOmni 0 := fun _ _ => rfl

theorem add (h : OnlyOmni base) (h' : OnlyOmni base') : OnlyOmni (base + base') := by
  intro p hp
  rw [Pi.add_apply, h p hp, h' p hp, add_zero]

theorem neg (h : OnlyOmni base) : OnlyOmni (-base) := by
  intro p hp
  rw [Pi.neg_apply, h p hp, neg_zero]

theorem single {p : PropertyId} (hp : p < 3) (n : Int) : OnlyOmni (Pi.single p n) := by
  intro q hq
  have hne : q ≠ p := by
    rintro rfl
    exact absurd hp (not_lt.mpr hq)
  show (Pi.single p n : PropertyId → Int) q = 0
  rw [Pi.single_eq_of_ne hne]

end OnlyOmni

/-- What a transaction buys in the fundraiser. -/
def NodeEnv.purchased (env : NodeEnv) (nBlock : Nat) (nTime : Int) (outputs : List PaidOutput) :
    PropertyId → Int :=
  let generated := env.exodusGenerated (amountInvested env nBlock outputs) nTime
  if ((env.isNonMainNet = true ∨ nBlock ≤ env.lastExodusBlock) ∧ 0 < amountInvested env nBlock outputs) ∧
      (env.genesisBlock ≤ nBlock ∧ nBlock ≤ env.lastExodusBlock ∧ 0 < generated) then
    Pi.single omniPropertyMSC generated + Pi.single omniPropertyTMSC generated
  else 0

/-- The reward of the developers for a block, if it can be credited. -/
def NodeEnv.reward (env : NodeEnv) (nTime : Int) (s : State) : PropertyId → Int :=
  let exodusDelta := env.availableReward nTime - s.exodusPrev
  if 1377993874 ≤ nTime ∧ 0 < exodusDelta ∧ 0 ≤ env.availableReward nTime ∧
      env.availableReward nTime ≤ allReward ∧
      value (updateTallyMap env.exodusAddress omniPropertyMSC exodusDelta .balance) s = some true then
    Pi.single omniPropertyMSC exodusDelta
  else 0

/-- What a packet burns: the fee of a send to owners. -/
def CMPTransaction.burnedIn (tx : CMPTransaction) (s : State) (rc : Int) : PropertyId → Int :=
  if tx.type.toNat = 3 then tx.burnedBy s rc else 0

/-- The state in which the packet of a transaction is interpreted. -/
def beforePacket (env : NodeEnv) (chain : ChainEnv) (tx : CMPTransaction) (outputs : List PaidOutput)
    (s : State) : State :=
  after (do
    pendingDelete tx.txid
    handleExodusPurchase env tx.block tx.sender chain.blockTime outputs : ExecM Unit) s

/-- What a transaction of the chain issues of OMNI and TOMNI. -/
def ParsedTx.issued (env : NodeEnv) (chain : ChainEnv) (s : State) : ParsedTx → PropertyId → Int
  | nothing _ _ => 0
  | payments _ block _ outputs => env.purchased block chain.blockTime outputs
  | packet tx outputs =>
      env.purchased tx.block chain.blockTime outputs +
        -tx.burnedIn (beforePacket env chain tx outputs s)
          (((value (interpretPacket env chain tx) (beforePacket env chain tx outputs s)).map
            Prod.fst).getD (-1))

theorem onlyOmni_purchased (env : NodeEnv) (nBlock : Nat) (nTime : Int) (outputs : List PaidOutput) :
    OnlyOmni (env.purchased nBlock nTime outputs) := by
  unfold NodeEnv.purchased
  dsimp only
  split
  · exact (OnlyOmni.single (by decide) _).add (OnlyOmni.single (by decide) _)
  · exact OnlyOmni.zero

theorem onlyOmni_reward (env : NodeEnv) (nTime : Int) (s : State) : OnlyOmni (env.reward nTime s) := by
  unfold NodeEnv.reward
  dsimp only
  split
  · exact OnlyOmni.single (by decide) _
  · exact OnlyOmni.zero

theorem feeProperty_cases (tx : CMPTransaction) :
    tx.feeProperty = omniPropertyMSC ∨ tx.feeProperty = omniPropertyTMSC := by
  unfold CMPTransaction.feeProperty
  split
  · exact Or.inr rfl
  · exact Or.inl rfl

theorem onlyOmni_burnedIn (tx : CMPTransaction) (s : State) (rc : Int) :
    OnlyOmni (tx.burnedIn s rc) := by
  have hfee : tx.feeProperty < 3 := by
    rcases feeProperty_cases tx with h | h
    · rw [h]
      decide
    · rw [h]
      decide
  unfold CMPTransaction.burnedIn CMPTransaction.burnedBy CMPTransaction.burned
  split
  · split
    · split
      · exact OnlyOmni.single hfee _
      · exact OnlyOmni.zero
    · exact OnlyOmni.zero
  · exact OnlyOmni.zero

theorem onlyOmni_issued (env : NodeEnv) (chain : ChainEnv) (s : State) (parsed : ParsedTx) :
    OnlyOmni (parsed.issued env chain s) := by
  cases parsed with
  | nothing txid block => exact OnlyOmni.zero
  | payments txid block sender outputs => exact onlyOmni_purchased _ _ _ _
  | packet tx outputs => exact (onlyOmni_purchased _ _ _ _).add (onlyOmni_burnedIn _ _ _).neg

/-! ## Transactions -/

section Transactions

variable {used : List Txid} {base : PropertyId → Int} {s : State} {env : NodeEnv} {chain : ChainEnv}
  {tx : CMPTransaction}

/-- The transactions of the contract market. -/
def CMPTransaction.TradesContracts (tx : CMPTransaction) : Prop := tx.type.toNat ∈ [29, 32, 40]

instance decidableTradesContracts (tx : CMPTransaction) : Decidable tx.TradesContracts :=
  inferInstanceAs (Decidable (_ ∈ _))

theorem wp_unamended {x : ExecM Int} {Q : Int → State → Prop}
    (h : wp x Q (fun e _ => SparesFrozen e) s) :
    wp (tx.unamended x) (fun r s' => Q r.1 s') (fun e _ => SparesFrozen e) s := by
  unfold CMPTransaction.unamended
  rw [wp_bind]
  exact wp_imp h fun _ _ hQ => (wp_pure _ _ _ _).mpr hQ

theorem wp_amended {x : ExecM (Int × Option Int)} {Q : State → Prop}
    (h : wp x (fun _ s' => Q s') (fun e _ => SparesFrozen e) s) :
    wp (tx.amended x) (fun _ s' => Q s') (fun e _ => SparesFrozen e) s := by
  unfold CMPTransaction.amended
  rw [wp_bind]
  exact wp_imp h fun _ _ hQ => (wp_pure _ _ _ _).mpr hQ

theorem moves_logicMathAlert {height : Int} {σ : Settings} {o : AlertOptions} :
    Moves height σ 0 (fun _ => True) (logicMathAlert o tx) := by
  refine Counts.get fun _ _ _ => Counts.ite (fun _ => Counts.pure trivial) fun _ => ?_
  exact Counts.ite (fun _ => Counts.pure trivial) fun _ => Counts.pure trivial

/-- **EVERY TRANSACTION BUT A SEND TO OWNERS** leaves the books right. -/
theorem logicMath_booked (h : Booked tx.block used base s) (hbase : OnlyOmni base)
    (hheight : IsInt64 tx.block) (hnew : tx.txid ∉ used) (hleft : s.sps.IdsLeft)
    (hcontracts : ¬ tx.TradesContracts) (howners : tx.type.toNat ≠ 3)
    (hfree : s.isAddressFrozen tx.sender tx.property.toNat = false) :
    wp (logicMath env chain tx) (fun _ s' => Booked tx.block (tx.txid :: used) base s')
      (fun e _ => SparesFrozen e) s := by
  have hbooked : ∀ {α : Type} {x : ExecM α}, wp x (fun _ s' => Booked tx.block used base s')
      (fun e _ => SparesFrozen e) s → wp x (fun _ s' => Booked tx.block (tx.txid :: used) base s')
      (fun e _ => SparesFrozen e) s := fun hx => wp_imp hx fun _ _ h' => h'.seen _
  have hmoved : ∀ {α : Type} {R : α → Prop} {x : ExecM α}, Moves tx.block s.settings 0 R x →
      wp x (fun _ s' => Booked tx.block (tx.txid :: used) base s') (fun e _ => SparesFrozen e) s :=
    fun hx => hbooked (wp_imp (h.silent hx) fun _ _ hs => hs.2.2)
  have hrefused : ∀ r : Int × Int, wp (pure r : ExecM (Int × Int))
      (fun _ s' => Booked tx.block (tx.txid :: used) base s') (fun e _ => SparesFrozen e) s :=
    fun r => (wp_pure _ _ _ _).mpr (h.seen _)
  unfold CMPTransaction.TradesContracts at hcontracts
  unfold logicMath
  split
  · exact wp_unamended (logicMathSimpleSend_booked h hbase hheight hnew hfree)
  · next htype => exact absurd htype howners
  · exact hmoved moves_logicMathSendAll
  · exact wp_amended (hmoved (moves_logicMathTradeOffer hfree))
  · exact wp_amended (hmoved moves_logicMathAcceptOfferBTC)
  · exact wp_unamended (hmoved (moves_logicMathMetaDExTrade hheight hfree))
  · exact wp_unamended (hmoved moves_logicMathMetaDExCancelPrice)
  · exact wp_unamended (hmoved moves_logicMathMetaDExCancelPair)
  · exact wp_unamended (hmoved moves_logicMathMetaDExCancelEcosystem)
  · next htype => exact absurd (by rw [htype]; decide) hcontracts
  · next htype => exact absurd (by rw [htype]; decide) hcontracts
  · next htype => exact absurd (by rw [htype]; decide) hcontracts
  · exact wp_unamended (hbooked (createPropertyFixed_booked h hleft hheight))
  · exact wp_unamended (hbooked (createPropertyVariable_booked h hleft))
  · exact wp_unamended (hbooked (logicMathCloseCrowdsale_booked h))
  · exact wp_unamended (hbooked (createPropertyManaged_booked h hleft))
  · exact wp_unamended (logicMathGrantTokens_booked h hbase hheight hnew)
  · exact wp_unamended (logicMathRevokeTokens_booked h hheight hnew hfree)
  · exact wp_unamended (hbooked (logicMathChangeIssuer_booked h))
  -- the freezing transactions
  · split
    · next hbody => exact wp_unamended (hbooked (managedTx_booked h hbody))
    · exact hrefused _
  · split
    · next hbody => exact wp_unamended (hbooked (managedTx_booked h hbody))
    · exact hrefused _
  · split
    · next hbody => exact wp_unamended (hbooked (managedTx_booked h hbody))
    · exact hrefused _
  · split
    · next hbody => exact wp_unamended (hbooked (managedTx_booked h hbody))
    · exact hrefused _
  · exact wp_unamended (hbooked (logicMathDeactivation_booked h))
  · exact wp_unamended (hbooked (logicMathActivation_booked h))
  · exact wp_unamended (hmoved moves_logicMathAlert)
  · exact hrefused _

theorem burnedIn_of_type (htype : tx.type.toNat ≠ 3) (s : State) (rc : Int) : tx.burnedIn s rc = 0 :=
  if_neg htype

theorem burnedIn_of_refused {rc : Int} (hrc : rc ≠ 0) (s : State) : tx.burnedIn s rc = 0 := by
  unfold CMPTransaction.burnedIn CMPTransaction.burnedBy
  rw [if_neg hrc, ite_self]

/-- **A PACKET** leaves the books right, but for the fee that it burns. -/
theorem interpretPacket_booked (h : Booked tx.block used base s) (hbase : OnlyOmni base)
    (hheight : IsInt64 tx.block) (hnew : tx.txid ∉ used) (hleft : s.sps.IdsLeft)
    (hcontracts : ¬ tx.TradesContracts) :
    wp (interpretPacket env chain tx)
      (fun r s' => Booked tx.block (tx.txid :: used) (base + -tx.burnedIn s r.1) s')
      (fun e _ => SparesFrozen e) s := by
  have hseen : Booked tx.block (tx.txid :: used) base s := h.seen _
  have hkept : ∀ {rc : Int} {s' : State}, tx.burnedIn s rc = 0 →
      Booked tx.block (tx.txid :: used) base s' →
      Booked tx.block (tx.txid :: used) (base + -tx.burnedIn s rc) s' := by
    intro rc s' hzero h'
    refine h'.of_eq ?_
    rw [hzero, neg_zero, add_zero]
  have hinvalid : pktError - 2 ≠ 0 := by decide
  have hfrozen : pktError - 3 ≠ 0 := by decide
  unfold interpretPacket
  rw [wp_bind, wp_get, wp_ite]
  refine ⟨fun _ => (wp_pure _ _ _ _).mpr (hkept (burnedIn_of_refused hinvalid s) hseen), fun _ => ?_⟩
  rw [wp_ite]
  refine ⟨fun _ => (wp_pure _ _ _ _).mpr (hkept (burnedIn_of_refused hfrozen s) hseen), fun hgate => ?_⟩
  have hfree : s.isAddressFrozen tx.sender tx.property.toNat = false := Bool.eq_false_iff.mpr hgate
  by_cases howners : tx.type.toNat = 3
  · have hfee : s.settings.isAddressFrozen tx.sender tx.feeProperty = false := by
      refine h.ok.unfrozen_of_implied _ ?_
      rcases feeProperty_cases tx with hp | hp
      · rw [hp]
        rfl
      · rw [hp]
        rfl
    have hlogic : logicMath env chain tx = tx.unamended (logicMathSendToOwners tx) := by
      unfold logicMath
      rw [howners]
      rfl
    have hsend : wp (logicMathSendToOwners tx)
        (fun rc s' => Booked tx.block (tx.txid :: used) (base + -tx.burnedIn s rc) s')
        (fun e _ => SparesFrozen e) s := by
      refine wp_imp (logicMathSendToOwners_moves h.standing hheight hfree hfee) fun rc s' hs => ?_
      refine (hs.booked h.ok ?_).seen _
      unfold CMPTransaction.burnedIn
      rw [if_pos howners, sub_eq_add_neg, add_assoc]
    rw [hlogic]
    exact wp_unamended hsend
  · exact wp_imp (logicMath_booked h hbase hheight hnew hleft hcontracts howners hfree)
      fun r s' h' => hkept (burnedIn_of_type howners s r.1) h'

theorem handlePacket_booked (h : Booked tx.block used base s) (hbase : OnlyOmni base)
    (hheight : IsInt64 tx.block) (hnew : tx.txid ∉ used) (hleft : s.sps.IdsLeft)
    (hcontracts : ¬ tx.TradesContracts) :
    wp (handlePacket env chain tx) (fun _ s' => Booked tx.block (tx.txid :: used)
      (base + -tx.burnedIn s (((value (interpretPacket env chain tx) s).map Prod.fst).getD (-1))) s')
      (fun e _ => SparesFrozen e) s := by
  unfold handlePacket
  rw [wp_bind]
  refine wp_mono (wp_and (wp_self _ s) (interpretPacket_booked h hbase hheight hnew hleft hcontracts))
    (fun r s₁ hs => ?_) fun _ _ hs => hs.2
  obtain ⟨hrun, h₁⟩ := hs
  have hvalue : value (interpretPacket env chain tx) s = some r := by
    unfold value
    rw [hrun]
  rw [hvalue]
  obtain ⟨rc, amount⟩ := r
  dsimp only
  rw [wp_ite]
  refine ⟨fun _ => ?_, fun _ => (wp_pure _ _ _ _).mpr h₁⟩
  exact wp_imp (h₁.silent (moves_modify fun _ => ⟨rfl, rfl, rfl, rfl⟩)) fun _ _ hs => hs.2.2

/-! ## What is found in a transaction of the chain -/

/-- Deleting a pending transaction touches its balance, which does not count. -/
theorem pendingDelete_booked {height : Int} (h : Booked height used base s) (txid : Txid) :
    wp (pendingDelete txid) (fun _ s' => s'.settings = s.settings ∧ Booked height used base s')
      (fun e _ => SparesFrozen e) s := by
  have herase : ∀ s₁ : State, s₁.settings = s.settings → Booked height used base s₁ →
      wp (modify fun s => { s with pending := s.pending.erase txid } : ExecM PUnit)
        (fun _ s' => s'.settings = s.settings ∧ Booked height used base s')
        (fun e _ => SparesFrozen e) s₁ := by
    intro s₁ hσ h₁
    refine wp_imp (h₁.silent (moves_modify fun _ => ⟨rfl, rfl, rfl, rfl⟩)) fun _ _ hs => ?_
    exact ⟨hs.2.1.trans hσ, hs.2.2⟩
  unfold pendingDelete
  rw [wp_bind, wp_get]
  cases s.pending[txid]? with
  | none => exact (wp_pure _ _ _ _).mpr ⟨rfl, h⟩
  | some pending =>
      dsimp only
      rw [wp_ite]
      refine ⟨fun _ => ?_, fun _ => herase s rfl h⟩
      rw [wp_bind]
      refine wp_tallied (fun hno => TallyType.noConfusion hno) (herase s rfl h) (herase _ rfl ?_)
      have hstanding := h.standing.withTally (d := 0)
        (m := (s.tallyMap.update pending.src pending.prop pending.amount .pending).2) fun q => by
          rw [supply_update_other (by decide), Pi.zero_apply, add_zero]
      rw [add_zero] at hstanding
      exact hstanding.booked h.ok rfl

/-- The check deletes what is not in the mempool, and stops there. -/
theorem pendingCheckLoop_booked {height : Int} (vecMemPoolTxids txids : List Txid) {s : State}
    (h : Booked height used base s) :
    wp (pendingCheckLoop vecMemPoolTxids txids) (fun _ s' => Booked height used base s')
      (fun e _ => SparesFrozen e) s := by
  induction txids with
  | nil => exact (wp_pure _ _ _ _).mpr h
  | cons txid rest ih =>
      rw [pendingCheckLoop, wp_ite]
      refine ⟨fun _ => ih, fun _ => ?_⟩
      rw [wp_bind]
      refine wp_imp (pendingDelete_booked h txid) fun _ s₁ _ => (wp_throw _ _ _ s₁).mpr ?_
      exact Halt.noConfusion

theorem pendingCheck_booked {height : Int} (h : Booked height used base s)
    (vecMemPoolTxids : List Txid) :
    wp (pendingCheck vecMemPoolTxids) (fun _ s' => Booked height used base s')
      (fun e _ => SparesFrozen e) s := by
  unfold pendingCheck
  rw [wp_bind, wp_get]
  exact pendingCheckLoop_booked _ _ h

theorem moves_handleExodusPurchase {height : Int} {σ : Settings} (nBlock : Nat) (sender : Address)
    (nTime : Int) (outputs : List PaidOutput) :
    Moves height σ (env.purchased nBlock nTime outputs) (fun _ => True)
      (handleExodusPurchase env nBlock sender nTime outputs) := by
  unfold handleExodusPurchase txExodusFundraiser NodeEnv.purchased
  dsimp only
  refine Counts.ite (fun hpaid => Counts.ite (fun hopen => ?_) fun hclosed => ?_) fun hunpaid => ?_
  · rw [if_pos ⟨hpaid, hopen⟩]
    have hpos := hopen.2.2.le
    exact (moves_assertUpdate _ _ _ holds_balance fun _ hneg => absurd hneg (not_lt.mpr hpos)).bind
      fun _ _ => moves_assertUpdate _ _ _ holds_balance fun _ hneg => absurd hneg (not_lt.mpr hpos)
  · rw [if_neg fun hboth => hclosed hboth.2]
    exact Counts.pure trivial
  · rw [if_neg fun hboth => hunpaid hboth.1]
    exact Counts.pure trivial

theorem moves_handleDExPayments {height : Int} {σ : Settings} (txid : Txid) (nBlock : Nat)
    (sender : Address) (outputs : List PaidOutput) :
    Moves height σ 0 (fun _ => True) (handleDExPayments env txid nBlock sender outputs) := by
  refine Counts.forM trivial fun o _ => Counts.ite (fun _ => Counts.pure trivial) fun _ => ?_
  exact Counts.seq (moves_dexPayment _ _ _ _ _ _) fun _ _ => Counts.pure trivial

/-- No transaction of the contract market. -/
def ParsedTx.OfTokens : ParsedTx → Prop
  | packet tx _ => ¬ tx.TradesContracts
  | _ => True

/-- **A TRANSACTION OF THE CHAIN** changes the books by what it issues. -/
theorem mastercoreHandlerTx_booked {height : Int} {parsed : ParsedTx} (h : Booked height used base s)
    (hbase : OnlyOmni base) (hle : height ≤ parsed.block) (hheight : IsInt64 parsed.block)
    (hnew : parsed.txid ∉ used) (hleft : s.sps.IdsLeft) (htokens : parsed.OfTokens) :
    wp (mastercoreHandlerTx env chain parsed) (fun _ s' => Booked parsed.block (parsed.txid :: used)
      (base + parsed.issued env chain s) s') (fun e _ => SparesFrozen e) s := by
  unfold mastercoreHandlerTx
  rw [wp_bind]
  refine wp_mono (wp_and (wp_self _ s) (pendingDelete_booked (h.mono hle) parsed.txid))
    (fun _ s₁ hs₁ => ?_) fun _ _ hs => hs.2
  obtain ⟨hdelete, hσ₁, h₁⟩ := hs₁
  cases parsed with
  | nothing txid block =>
      refine (wp_pure _ _ _ _).mpr ((h₁.seen _).of_eq ?_)
      exact (add_zero base).symm
  | payments txid block sender outputs =>
      dsimp only
      rw [wp_bind]
      refine wp_imp (h₁.moves (moves_handleExodusPurchase _ _ _ _)) fun _ s₂ hs₂ => ?_
      refine wp_imp (hs₂.2.2.silent (moves_handleDExPayments _ _ _ _)) fun _ s₃ hs₃ => ?_
      exact hs₃.2.2.seen _
  | packet tx outputs =>
      dsimp only
      rw [wp_bind]
      refine wp_mono (wp_and (wp_self _ s₁) (h₁.moves (moves_handleExodusPurchase _ _ _ _)))
        (fun _ s₂ hs₂ => ?_) fun _ _ hs => hs.2
      obtain ⟨hpurchase, -, hσ₂, h₂⟩ := hs₂
      have hbefore : beforePacket env chain tx outputs s = s₂ := by
        have hdelete' : pendingDelete tx.txid s = .ok () s₁ := hdelete
        unfold beforePacket after
        simp only [bind, EStateM.bind]
        rw [hdelete']
        dsimp only
        rw [hpurchase]
      have hsps : s₂.sps = s.sps := congrArg Settings.sps (hσ₂.trans hσ₁)
      refine wp_imp (handlePacket_booked h₂ (hbase.add (onlyOmni_purchased _ _ _ _)) hheight hnew
        (by rw [hsps]; exact hleft) htokens) fun _ s₃ h₃ => ?_
      refine h₃.of_eq ?_
      show _ = base + (_ + _)
      rw [hbefore, add_assoc]

end Transactions

/-! ## Blocks -/

section Blocks

variable {used : List Txid} {base : PropertyId → Int} {s : State} {env : NodeEnv}

theorem mastercoreHandlerBlockBegin_booked {height : Int} (h : Booked height used base s)
    (block blockHash : Nat) (blockTime : Int) :
    wp (mastercoreHandlerBlockBegin block blockHash blockTime)
      (fun _ s' => Booked height used base s') (fun e _ => SparesFrozen e) s := by
  unfold mastercoreHandlerBlockBegin
  rw [wp_bind, wp_modify]
  exact eraseExpiredCrowdsale_booked (h.checkLiveActivations block) blockHash blockTime

/-- **THE REWARD** is credited, or refused by the ledger. -/
theorem calculateAndUpdateDevmsc_booked {block : Nat} (h : Booked block used base s)
    (hblock : IsInt64 block) (nTime : Int) :
    wp (calculateAndUpdateDevmsc env nTime block)
      (fun _ s' => Booked block used (base + env.reward nTime s) s') (fun e _ => SparesFrozen e) s := by
  have hnone : env.reward nTime s = 0 → ∀ n : Int, wp (pure n : ExecM Int)
      (fun _ s' => Booked block used (base + env.reward nTime s) s') (fun e _ => SparesFrozen e) s := by
    intro hzero n
    refine (wp_pure _ _ _ _).mpr (h.of_eq ?_)
    rw [hzero, add_zero]
  have hnotify : ∀ (d : PropertyId → Int) (s₁ : State) (n : Int), Booked block used (base + d) s₁ →
      wp (do
        notifyTotalTokensChanged omniPropertyMSC block
        pure n : ExecM Int) (fun _ s' => Booked block used (base + d) s')
        (fun e _ => SparesFrozen e) s₁ := by
    intro d s₁ n h₁
    rw [wp_bind]
    exact wp_imp (h₁.silent (moves_notifyTotalTokensChanged _ hblock)) fun _ _ hs =>
      (wp_pure _ _ _ _).mpr hs.2.2
  unfold calculateAndUpdateDevmsc
  rw [wp_ite]
  refine ⟨fun hearly => hnone (if_neg fun hall => absurd hall.1 (not_le.mpr hearly)) _, fun hlate => ?_⟩
  rw [wp_bind, wp_get, wp_bind, wp_signed64]
  refine ⟨fun _ => ?_, fun _ => by decide⟩
  dsimp only
  rw [wp_ite]
  refine ⟨fun hneg => hnone (if_neg fun hall => absurd hall.2.1 (not_lt.mpr hneg.le)) _, fun _ => ?_⟩
  rw [wp_ite]
  refine ⟨fun hbad => hnone (if_neg fun hall => ?_) _, fun hgood => ?_⟩
  · rcases hbad with hmuch | hneg
    · exact absurd hall.2.2.2.1 (not_le.mpr hmuch)
    · exact absurd hall.2.2.1 (not_le.mpr hneg)
  rw [not_or, not_lt, not_lt] at hgood
  rw [wp_ite]
  refine ⟨fun hpos => ?_, fun hzero => ?_⟩
  · rw [wp_bind]
    have hupdate : wp (updateTallyMap env.exodusAddress omniPropertyMSC
        (env.availableReward nTime - s.exodusPrev) .balance)
        (fun ok s' => s'.settings = s.settings ∧ Booked block used
          (base + if ok = true then Pi.single omniPropertyMSC
            (env.availableReward nTime - s.exodusPrev) else 0) s') (fun e _ => SparesFrozen e) s := by
      refine wp_tallied (fun _ hneg => absurd hneg (not_lt.mpr hpos.le)) ⟨rfl, h.of_eq ?_⟩ ⟨rfl, ?_⟩
      · rw [if_neg Bool.false_ne_true, add_zero]
      · refine (h.standing.withTally fun q => supply_update_holds holds_balance q).booked h.ok ?_
        rw [add_assoc]
    refine wp_mono (wp_and (wp_self _ s) hupdate) (fun ok s₁ hs₁ => ?_) fun _ _ hs => hs.2
    obtain ⟨hrun, -, h₁⟩ := hs₁
    have hvalue : value (updateTallyMap env.exodusAddress omniPropertyMSC
        (env.availableReward nTime - s.exodusPrev) .balance) s = some ok := by
      unfold value
      rw [hrun]
    have hreward : env.reward nTime s = if ok = true then Pi.single omniPropertyMSC
        (env.availableReward nTime - s.exodusPrev) else 0 := by
      unfold NodeEnv.reward
      dsimp only
      rw [hvalue]
      refine if_congr ⟨fun hall => Option.some.inj hall.2.2.2.2, fun hok => ?_⟩ rfl rfl
      exact ⟨not_lt.mp hlate, hpos, hgood.2, hgood.1, congrArg some hok⟩
    rw [hreward, wp_bind]
    exact wp_imp (h₁.silent (moves_modify fun _ => ⟨rfl, rfl, rfl, rfl⟩)) fun _ s₂ hs₂ =>
      hnotify _ s₂ _ hs₂.2.2
  · have hreward : env.reward nTime s = 0 := if_neg fun hall => hzero hall.2.1
    rw [hreward]
    exact hnotify 0 s _ (h.of_eq (add_zero base).symm)

/-- **A BLOCK ENDS**: accepts expire, the reward is credited, and the mempool is looked at. -/
theorem mastercoreHandlerBlockEnd_booked {block : Nat} (h : Booked block used base s)
    (hblock : IsInt64 block) (nTime : Int) (vecMemPoolTxids : List Txid) :
    wp (mastercoreHandlerBlockEnd env block nTime vecMemPoolTxids) (fun _ s' => Booked block used
      (base + env.reward nTime (after (eraseExpiredAccepts block) s)) s')
      (fun e _ => SparesFrozen e) s := by
  unfold mastercoreHandlerBlockEnd
  rw [wp_bind]
  refine wp_mono (wp_and (wp_self _ s) (h.silent (moves_eraseExpiredAccepts block)))
    (fun _ s₁ hs₁ => ?_) fun _ _ hs => hs.2
  obtain ⟨hrun, -, -, h₁⟩ := hs₁
  have hafter : after (eraseExpiredAccepts block) s = s₁ := by
    unfold after
    rw [hrun]
  rw [hafter, wp_bind]
  exact wp_imp (calculateAndUpdateDevmsc_booked h₁ hblock nTime) fun _ _ h₂ =>
    pendingCheck_booked h₂ vecMemPoolTxids

end Blocks

/-! ## Runs -/

namespace NodeEvent

/-- What it issues of OMNI and TOMNI. -/
def issued (env : NodeEnv) (s : State) : NodeEvent → PropertyId → Int
  | blockBegin _ _ _ => 0
  | transaction chain parsed => parsed.issued env chain s
  | blockEnd height blockTime _ => env.reward blockTime (after (eraseExpiredAccepts height) s)

/-- It trades no contracts. -/
def OfTokens : NodeEvent → Prop
  | transaction _ parsed => parsed.OfTokens
  | _ => True

/-- The chain goes on: heights do not decrease, no transaction occurs twice, and there are identifiers
    left. -/
structure Fits (e : NodeEvent) (height : Nat) (used : List Txid) (s : State) : Prop where
  later : height ≤ e.height
  inRange : IsInt64 e.height
  fresh : ∀ txid ∈ e.txids, txid ∉ used
  left : s.sps.IdsLeft
  tokens : e.OfTokens

end NodeEvent

/-- The states of a node that started from nothing, with the height of the last event, the transactions
    that were used, and what was issued of OMNI and TOMNI. -/
inductive NodeReaches (env : NodeEnv) (params : ConsensusParams) :
    Nat → List Txid → (PropertyId → Int) → State → Prop
  | start : NodeReaches env params 0 [] 0 (State.fresh params)
  | step {height : Nat} {used : List Txid} {issued : PropertyId → Int} {s s' : State} (e : NodeEvent)
      (h : NodeReaches env params height used issued s) (hfits : e.Fits height used s)
      (hrun : e.run env s = .ok () s') :
      NodeReaches env params e.height (e.txids ++ used) (issued + e.issued env s) s'

section Runs

variable {env : NodeEnv} {params : ConsensusParams} {height : Nat} {used : List Txid}
  {issued : PropertyId → Int} {s : State}

/-- **ONE EVENT** changes the books by what it issues, and debits no frozen balance. -/
theorem event_booked (h : Booked height used issued s) (hbase : OnlyOmni issued) {e : NodeEvent}
    (hfits : e.Fits height used s) :
    wp (e.run env) (fun _ s' => Booked e.height (e.txids ++ used) (issued + e.issued env s) s')
      (fun halt _ => SparesFrozen halt) s := by
  have hle : (height : Int) ≤ e.height := Int.ofNat_le.mpr hfits.later
  cases e with
  | blockBegin block blockHash blockTime =>
      refine wp_imp (mastercoreHandlerBlockBegin_booked (h.mono hle) _ _ _) fun _ s' h' => h'.of_eq ?_
      exact (add_zero issued).symm
  | transaction chain parsed =>
      exact mastercoreHandlerTx_booked h hbase hle hfits.inRange
        (hfits.fresh _ List.mem_cons_self) hfits.left hfits.tokens
  | blockEnd block blockTime vecMemPoolTxids =>
      exact mastercoreHandlerBlockEnd_booked (h.mono hle) hfits.inRange blockTime vecMemPoolTxids

theorem onlyOmni_eventIssued (e : NodeEvent) : OnlyOmni (e.issued env s) := by
  cases e with
  | blockBegin block blockHash blockTime => exact OnlyOmni.zero
  | transaction chain parsed => exact onlyOmni_issued _ _ _ _
  | blockEnd block blockTime _ => exact onlyOmni_reward _ _ _

/-- Nothing is outstanding at the start, and nothing is in the books. -/
theorem booked_fresh (params : ConsensusParams) : Booked 0 [] 0 (State.fresh params) := by
  have hnone : ∀ p : PropertyId, (State.fresh params).sps.entries[p]? = none := fun p =>
    ExtTreeMap.getElem?_empty
  have hcrowds : ∀ a : Address, (State.fresh params).crowds[a]? = none := fun a =>
    ExtTreeMap.getElem?_empty
  have hrecorded : ∀ p, (State.fresh params).settings.recorded p = 0 := by
    intro p
    have hsold : (State.fresh params).settings.sold p = 0 := msum_empty _
    unfold Settings.recorded
    rw [show (State.fresh params).settings.sps.entries[p]? = none from hnone p, hsold]
    rfl
  have hmain : (3 : PropertyId) ≤ 3 ∧ (3 : PropertyId) ≤ testEcoProperty1 := by decide
  have htest : testEcoProperty1 ≤ testEcoProperty1 ∧ testEcoProperty1 < 2 ^ 32 := by decide
  refine ⟨⟨hmain, htest, fun p sp hsp => ?_, fun p sp hsp => ?_, fun p sp hsp => ?_,
    fun a crowd hcrowd => ?_, fun a b crowd crowd' hcrowd => ?_, fun a p hfrozen => ?_, fun p => ?_⟩,
    ⟨feeCacheOk_empty rfl, fun p => ?_⟩, rfl, fun p price k o ho => ?_⟩
  · exact absurd ((hnone p).symm.trans hsp) (Option.some_ne_none sp).symm
  · exact absurd ((hnone p).symm.trans hsp) (Option.some_ne_none sp).symm
  · exact absurd ((hnone p).symm.trans hsp) (Option.some_ne_none sp).symm
  · exact absurd ((hcrowds a).symm.trans hcrowd) (Option.some_ne_none crowd).symm
  · exact absurd ((hcrowds a).symm.trans hcrowd) (Option.some_ne_none crowd).symm
  · have hempty : (∅ : Std.ExtTreeSet (Address × PropertyId) pairCmp).contains (a, p) = true := hfrozen
    rw [Std.ExtTreeSet.contains_empty] at hempty
    cases hempty
  · rw [hrecorded]
    decide
  · have hcached : (State.fresh params).cached p = 0 := cached_of_none ExtTreeMap.getElem?_empty
    have hsupply : (State.fresh params).tallyMap.supply p = 0 := by
      show TallyMap.supply ∅ p = 0
      unfold TallyMap.supply TallyMap.total
      simp only [msum_empty, add_zero]
    unfold State.outstanding
    rw [hcached, hsupply, Pi.add_apply, hrecorded]
    rfl
  · have hlevel : (State.fresh params).mdLevel p price = ∅ := rfl
    rw [hlevel, ExtTreeMap.getElem?_empty] at ho
    cases ho

/-- **EVERY REACHABLE STATE** has its books in order. -/
theorem NodeReaches.booked (h : NodeReaches env params height used issued s) :
    Booked height used issued s ∧ OnlyOmni issued := by
  induction h with
  | start => exact ⟨booked_fresh params, OnlyOmni.zero⟩
  | step e _ hfits hrun ih =>
      obtain ⟨h, hbase⟩ := ih
      have hnext := wp_ok (event_booked h hbase hfits) hrun
      exact ⟨hnext, hbase.add (onlyOmni_eventIssued e)⟩

end Runs

/-! ## A run -/

/-- Two coins are bought in the fundraiser, a crowdsale begins, and one coin is sent to its issuer. -/
def fundraiserPurchase : NodeEvent :=
  .transaction saleEnv (.payments 7 10 traderB [⟨0, traderA, 200000000⟩])

def crowdsaleBegins : NodeEvent := .transaction saleEnv (.packet crowdsaleTx [])

def coinInvested : NodeEvent := .transaction saleEnv (.packet (investTx 2 100000000) [])

/-- The states of this run. -/
def purchasedState : State := after (fundraiserPurchase.run ledgerEnv) (State.fresh openParams)

def sellingState : State := after (crowdsaleBegins.run ledgerEnv) purchasedState

def soldState : State := after (coinInvested.run ledgerEnv) sellingState

/-- What was issued in it. -/
def soldIssued : PropertyId → Int :=
  0 + fundraiserPurchase.issued ledgerEnv (State.fresh openParams) +
    crowdsaleBegins.issued ledgerEnv purchasedState + coinInvested.issued ledgerEnv sellingState

set_option maxRecDepth 4000 in
theorem sellingState_reached : NodeReaches ledgerEnv openParams 10 [1, 7]
    (0 + fundraiserPurchase.issued ledgerEnv (State.fresh openParams) +
      crowdsaleBegins.issued ledgerEnv purchasedState) sellingState := by
  have hpurchase : NodeReaches ledgerEnv openParams 10 [7]
      (0 + fundraiserPurchase.issued ledgerEnv (State.fresh openParams)) purchasedState :=
    NodeReaches.step fundraiserPurchase NodeReaches.start
      ⟨by decide, by decide, fun _ _ => List.not_mem_nil, by decide, trivial⟩
      (eq_ok_after (by decide +kernel))
  refine NodeReaches.step crowdsaleBegins hpurchase
    ⟨by decide, by decide, fun txid htxid => ?_, by decide +kernel,
      show ¬ crowdsaleTx.TradesContracts by decide⟩
    (eq_ok_after (by decide +kernel))
  rw [List.mem_singleton.mp htxid]
  decide

/-- The purchase fits. -/
theorem coinInvested_fits : coinInvested.Fits 10 [1, 7] sellingState := by
  refine ⟨by decide, by decide, fun txid htxid => ?_, by decide +kernel,
    show ¬ (investTx 2 100000000).TradesContracts by decide⟩
  rw [List.mem_singleton.mp htxid]
  decide

set_option maxRecDepth 4000 in
theorem soldState_reached : NodeReaches ledgerEnv openParams 11 [2, 1, 7] soldIssued soldState :=
  NodeReaches.step coinInvested sellingState_reached coinInvested_fits (eq_ok_after (by decide +kernel))

/-! ## What a node can rely on -/

section Reliance

variable {env : NodeEnv} {params : ConsensusParams} {height : Nat} {used : List Txid}
  {issued : PropertyId → Int} {s : State}

/-- A property with a fixed number of tokens is not sold. -/
theorem Settings.Ok.sold_of_fixed {σ : Settings} (h : σ.Ok used) {p : PropertyId} {sp : SPEntry}
    (hsp : σ.sps.entries[p]? = some sp) (hfixed : sp.fixed = true) : σ.sold p = 0 := by
  unfold Settings.sold
  rw [msum_congr (g := fun _ _ => 0), msum_zero]
  intro a crowd hcrowd
  obtain ⟨⟨sp', hsp', hunsold⟩, -⟩ := h.sales a crowd hcrowd
  refine if_neg ?_
  rintro rfl
  rw [hsp] at hsp'
  cases hsp'
  rw [hunsold.fixed] at hfixed
  cases hfixed

/-- **THE BOOKS TELL WHAT IS OUTSTANDING** of every property that was issued: no more than fits into 64
    bits, and for a property with a fixed number of tokens the number that is answered at once. -/
theorem outstanding_is_recorded (h : NodeReaches env params height used issued s) {p : PropertyId}
    (hp : 3 ≤ p) : s.outstanding p = s.settings.recorded p ∧ s.outstanding p ≤ maxInt64 ∧
      ∀ sp : SPEntry, s.sps.getSP p = some sp → sp.fixed = true → s.outstanding p = sp.numTokens := by
  obtain ⟨hbooked, hbase⟩ := h.booked
  have hcount : s.outstanding p = s.settings.recorded p := by
    rw [hbooked.standing.count.count, Pi.add_apply, hbase p hp, add_zero]
  refine ⟨hcount, hcount.trans_le (hbooked.ok.capped p), fun sp hsp hfixed => ?_⟩
  have hentry : s.settings.sps.entries[p]? = some sp :=
    (CMPSPInfo.entry_of_kind hsp (Or.inr hfixed)).2
  rw [hcount]
  unfold Settings.recorded
  rw [hentry, hbooked.ok.sold_of_fixed hentry hfixed, Option.map_some, Option.getD_some, add_zero,
    SPEntry.tokens_of_fixed hfixed]

/-- After the purchase as many tokens are outstanding as can be. -/
theorem outstanding_is_recorded_sold : soldState.outstanding 2147483651 =
    soldState.settings.recorded 2147483651 ∧ soldState.outstanding 2147483651 ≤ maxInt64 ∧
    ∀ sp : SPEntry, soldState.sps.getSP 2147483651 = some sp → sp.fixed = true →
      soldState.outstanding 2147483651 = sp.numTokens :=
  outstanding_is_recorded soldState_reached (by decide)

/-- **OMNI AND TOMNI** are outstanding as far as they were issued: bought in the fundraiser or credited
    as a reward, and not burned. -/
theorem omni_is_issued (h : NodeReaches env params height used issued s) {p : PropertyId}
    (hp : p < 3) : s.outstanding p = issued p := by
  obtain ⟨hbooked, -⟩ := h.booked
  rw [hbooked.standing.count.count, Pi.add_apply,
    hbooked.ok.recorded_of_none (hbooked.ok.entries_of_lt hp), zero_add]

theorem omni_is_issued_sold : soldState.outstanding omniPropertyTMSC = soldIssued omniPropertyTMSC :=
  omni_is_issued soldState_reached (by decide)

/-- **NO FROZEN BALANCE IS DEBITED**: the assertion that guards them is out of reach. -/
theorem frozen_balances_are_spared (h : NodeReaches env params height used issued s) {e : NodeEvent}
    (hfits : e.Fits height used s) : ¬ ∃ s', e.run env s = .error (.assertFailed .frozen) s' := by
  obtain ⟨hbooked, hbase⟩ := h.booked
  rintro ⟨s', hrun⟩
  exact wp_error (event_booked hbooked hbase hfits) hrun rfl

theorem frozen_balances_are_spared_invested :
    ¬ ∃ s', coinInvested.run ledgerEnv sellingState = .error (.assertFailed .frozen) s' :=
  frozen_balances_are_spared sellingState_reached coinInvested_fits

/-- The consistency check compares what the record of the crowdsale has with what is outstanding. -/
theorem getMissedIssuerBonus_consistent {sp : SPEntry} {crowd : CMPCrowd} {height : Int}
    (hsp : s.sps.getSP crowd.propertyId = some sp) (hfixed : sp.fixed = false)
    (hcache : FeeCacheOk height s) (hcount : s.outstanding crowd.propertyId = crowd.tokens) :
    wp (getMissedIssuerBonus sp crowd) (fun _ _ => True)
      (fun halt _ => halt ≠ .assertFailed .condition) s := by
  unfold getMissedIssuerBonus
  rw [wp_bind]
  have hhalts : wp (getTotalTokens crowd.propertyId) (fun _ _ => True)
      (fun halt _ => halt ≠ .assertFailed .condition) s :=
    wp_imp ((halts_getTotalTokens crowd.propertyId (E := fun halt => halt ≠ .assertFailed .condition)
      (by decide) (by decide)).run (t := 0) trivial) fun _ _ _ => trivial
  refine wp_mono (wp_and (wp_getTotalTokens hsp hfixed hcache) hhalts) (fun total s₁ h₁ => ?_)
    fun _ _ hh => hh.2
  obtain ⟨⟨rfl, rfl, -⟩, -⟩ := h₁
  rw [wp_bind, wp_signed64]
  refine ⟨fun _ => ?_, fun _ => by decide⟩
  rw [wp_bind, wp_assertThat]
  refine ⟨fun _ => ?_, fun hdiffers => ?_⟩
  · rw [wp_bind, wp_convertTo256]
    refine ⟨fun _ => ?_, fun _ => by decide⟩
    rw [wp_bind, wp_convertTo256]
    refine ⟨fun _ => ?_, fun _ => by decide⟩
    dsimp only
    rw [wp_ite]
    refine ⟨fun _ => (wp_pure _ _ _ _).mpr trivial, fun _ => ?_⟩
    exact (wp_convertTo64 _ _ _ _).mpr ⟨fun _ => trivial, fun _ => by decide⟩
  · rw [decide_eq_false_iff_not] at hdiffers
    refine absurd ?_ hdiffers
    rw [hcount]
    exact add_comm _ _

/-- **A RUNNING CROWDSALE COUNTS ITS TOKENS**: its record has what is outstanding, the consistency check
    at its end never fails, and what the issuer missed still fits. -/
theorem sale_counts_its_tokens (h : NodeReaches env params height used issued s) {a : Address}
    {crowd : CMPCrowd} (hcrowd : s.crowds[a]? = some crowd) :
    s.outstanding crowd.propertyId = crowd.uCreated + crowd.iCreated ∧
      ∀ sp : SPEntry, s.sps.getSP crowd.propertyId = some sp →
        wp (getMissedIssuerBonus sp crowd) (fun missed s' => s' = s ∧ 0 ≤ missed ∧
          s.outstanding crowd.propertyId + missed ≤ maxInt64)
          (fun halt _ => halt ≠ .assertFailed .condition) s := by
  obtain ⟨hbooked, hbase⟩ := h.booked
  have hcount : s.outstanding crowd.propertyId = crowd.tokens := by
    rw [hbooked.standing.count.count, Pi.add_apply, hbase _ (hbooked.ok.three_le_of_sale hcrowd),
      add_zero, hbooked.ok.recorded_of_sale hcrowd]
  refine ⟨hcount, fun sp hsp => ?_⟩
  refine wp_mono (wp_and wp_getMissedIssuerBonus (wp_and
    ((moves_getMissedIssuerBonus sp crowd).run hbooked.standing)
    (getMissedIssuerBonus_consistent hsp (hbooked.sale_not_fixed hcrowd hsp)
      hbooked.standing.count.cache hcount))) (fun missed s' hs => ?_) fun _ _ hs => hs.2.2
  obtain ⟨⟨rfl, -⟩, ⟨⟨hpos, hcap⟩, -⟩, -⟩ := hs
  exact ⟨rfl, hpos, hcount ▸ hcap⟩

set_option maxRecDepth 4000 in
theorem soldState_sells : (soldState.crowds[traderA]?).isSome = true := by decide +kernel

/-- The record of the crowdsale that sold all there can be. -/
def soldCrowd : CMPCrowd := (soldState.crowds[traderA]?).get soldState_sells

theorem sale_counts_its_tokens_sold :
    soldState.outstanding soldCrowd.propertyId = soldCrowd.uCreated + soldCrowd.iCreated :=
  (sale_counts_its_tokens soldState_reached (Option.some_get soldState_sells).symm).1

end Reliance

end OmniCore
