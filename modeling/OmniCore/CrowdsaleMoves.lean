import OmniCore.IssuanceMoves

/-! # CrowdsaleMoves — the tokens of crowdsales are in the books

    While a crowdsale is running its record counts what it created, and when it ends the
    entry of its property takes over this number, with what the issuer missed. In between
    every participation is noted by its transaction, which must not have been used before. -/

namespace OmniCore

open Std (ExtTreeMap)
open Machine TextRec MapSum Exec

section Credits

variable {height : Int} {σ : Settings}

/-- A credit that is left out if there is nothing to credit. -/
theorem moves_creditTokens (who : Address) (p : PropertyId) {tokens : Int} (hpos : 0 ≤ tokens) :
    Moves height σ (Pi.single p tokens) (fun _ => True) (creditTokens who p tokens) := by
  refine Counts.ite (fun hlt => moves_assertUpdate _ _ _ holds_balance fun _ hneg => ?_) fun hle => ?_
  · exact absurd hneg (not_lt.mpr hlt.le)
  · obtain rfl : tokens = 0 := le_antisymm (not_lt.mp hle) hpos
    rw [Pi.single_zero]
    exact Counts.pure trivial

theorem moves_creditMissedTokens (sp : SPEntry) (p : PropertyId) {missed : Int} (hpos : 0 ≤ missed) :
    Moves height σ (Pi.single p missed) (fun _ => True) (creditMissedTokens sp p missed) := by
  refine Counts.ite (fun hlt => ?_) fun hle => ?_
  · split
    · refine moves_assertUpdate _ _ _ holds_balance fun _ hneg => ?_
      exact absurd hneg (not_lt.mpr hlt.le)
    · exact Counts.throw (by decide)
  · obtain rfl : missed = 0 := le_antisymm (not_lt.mp hle) hpos
    rw [Pi.single_zero]
    exact Counts.pure trivial

end Credits

section Sales

variable {height : Int} {used : List Txid} {base : PropertyId → Int} {s : State} {a : Address}
  {crowd : CMPCrowd}

/-! ## Ends -/

/-- The entry of a running crowdsale. -/
theorem Booked.unsold (h : Booked height used base s) (ha : s.crowds[a]? = some crowd)
    (himplied : impliedSP crowd.propertyId = none) {sp : SPEntry}
    (hsp : s.sps.getSP crowd.propertyId = some sp) :
    s.sps.entries[crowd.propertyId]? = some sp ∧ sp.Unsold := by
  rw [CMPSPInfo.getSP_of_not_implied himplied] at hsp
  obtain ⟨⟨sp', hsp', hunsold⟩, -⟩ := h.ok.sales a crowd ha
  have heq : sp' = sp := Option.some.inj (hsp'.symm.trans hsp)
  exact ⟨hsp, heq ▸ hunsold⟩

/-- The number of tokens of a running crowdsale is counted. -/
theorem Booked.sale_not_fixed (h : Booked height used base s) (ha : s.crowds[a]? = some crowd)
    {sp : SPEntry} (hsp : s.sps.getSP crowd.propertyId = some sp) : sp.fixed = false := by
  cases himplied : impliedSP crowd.propertyId with
  | none => exact (h.unsold ha himplied hsp).2.fixed
  | some info =>
      rw [CMPSPInfo.getSP_of_implied himplied] at hsp
      cases hsp
      exact (impliedSP_kind himplied).2

/-- The entry is written, what is missed is credited, and the record is erased. -/
theorem closeSale_booked (h : Booked height used base s) (ha : s.crowds[a]? = some crowd)
    {sp : SPEntry} (new : SPEntry) (hsp : s.sps.getSP crowd.propertyId = some sp)
    (hnew : sp.Unsold → new.fixed = false ∧ new.manual = false)
    (hhistory : new.historicalData = crowd.txFundraiserData)
    (hcap : s.settings.recorded crowd.propertyId + new.missedTokens ≤ maxInt64) (credit : ExecM Unit)
    (hcredit : ∀ σ, Moves height σ (Pi.single crowd.propertyId new.missedTokens) (fun _ => True)
      credit) :
    wp (do
      assertUpdateSP crowd.propertyId new
      credit
      eraseCrowd a : ExecM Unit)
      (fun _ s' => Booked height used base s' ∧ s'.crowds = s.crowds.erase a)
      (fun e _ => SparesFrozen e) s := by
  rw [wp_bind]
  refine wp_assertUpdateSP fun himplied => ?_
  obtain ⟨hentry, hunsold⟩ := h.unsold ha himplied hsp
  obtain ⟨hok, hrecorded⟩ := h.ok.endSale ha himplied hentry (hnew hunsold).1 (hnew hunsold).2
    hhistory hcap
  rw [wp_bind]
  refine wp_imp ((hcredit _).run (h.standing.writeSP crowd.propertyId new)) fun _ s₁ hs₁ => ?_
  obtain ⟨-, hs₁⟩ := hs₁
  have hcrowds : s₁.crowds = s.crowds := congrArg Settings.crowds hs₁.settings
  unfold eraseCrowd
  rw [wp_modify]
  have hσ : ({ s₁ with crowds := s₁.crowds.erase a } : State).settings =
      (s.settings.writeSP crowd.propertyId new).eraseCrowd a := by
    show s₁.settings.eraseCrowd a = _
    rw [hs₁.settings]
  refine ⟨(hs₁.rewrite hσ rfl rfl rfl).booked hok ?_, congrArg (ExtTreeMap.erase · a) hcrowds⟩
  rw [hrecorded]
  abel

/-- **A CROWDSALE THAT IS USED UP** ends with what it has created. -/
theorem eraseMaxedCrowdsale_booked (h : Booked height used base s) (env : ChainEnv)
    (a : Address) (block : Nat) :
    wp (eraseMaxedCrowdsale env a block) (fun _ s' => Booked height used base s')
      (fun e _ => SparesFrozen e) s := by
  unfold eraseMaxedCrowdsale
  rw [wp_bind, wp_get]
  cases ha : s.crowds[a]? with
  | none => exact (wp_pure _ _ _ _).mpr h
  | some crowd =>
      dsimp only
      rw [wp_bind]
      refine wp_imp (h.silent (moves_assertSP crowd.propertyId)) fun sp s₁ hs₁ => ?_
      obtain ⟨hsp, hσ, h₁⟩ := hs₁
      cases env.blockHash block with
      | none => exact (wp_throw _ _ _ _).mpr (by decide)
      | some blockHash =>
          have hsp₁ : s₁.sps.getSP crowd.propertyId = some sp := by
            rw [show s₁.sps = s.sps from congrArg Settings.sps hσ]
            exact hsp
          have ha₁ : s₁.crowds[a]? = some crowd := by
            rw [show s₁.crowds = s.crowds from congrArg Settings.crowds hσ]
            exact ha
          by_cases himplied : impliedSP crowd.propertyId = none
          · -- nothing was missed
            have hmissed := (h₁.unsold ha₁ himplied hsp₁).2.missed
            have hclose := closeSale_booked h₁ ha₁ { sp with
              historicalData := crowd.txFundraiserData, closeEarly := true, maxTokens := true
              timeclosed := env.blockTime, updateBlock := blockHash } hsp₁
              (fun hunsold => ⟨hunsold.fixed, hunsold.manual⟩) rfl (by
                rw [hmissed, add_zero]
                exact h₁.ok.capped _) (pure ()) fun σ => by
                rw [hmissed, Pi.single_zero]
                exact Counts.pure trivial
            exact wp_imp hclose fun _ _ hs => hs.1
          · rw [wp_bind]
            exact wp_assertUpdateSP fun hnone => absurd hnone himplied

/-- **A CROWDSALE ENDS**: what was missed is in the books as well. -/
theorem endCrowdsale_booked (h : Booked height used base s) (ha : s.crowds[a]? = some crowd)
    {final : SPEntry → Int → SPEntry} (hfinal : ∀ sp missed, (final sp missed).fixed = sp.fixed ∧
      (final sp missed).manual = sp.manual ∧
      (final sp missed).historicalData = crowd.txFundraiserData ∧
      (final sp missed).missedTokens = missed) :
    wp (endCrowdsale a crowd final)
      (fun _ s' => Booked height used base s' ∧ s'.crowds = s.crowds.erase a)
      (fun e _ => SparesFrozen e) s := by
  unfold endCrowdsale
  rw [wp_bind]
  refine wp_imp (h.silent (moves_assertSP crowd.propertyId)) fun sp s₁ hs₁ => ?_
  obtain ⟨hsp, hσ₁, h₁⟩ := hs₁
  rw [wp_bind]
  refine wp_imp (h₁.silent (moves_getMissedIssuerBonus sp crowd)) fun missed s₂ hs₂ => ?_
  obtain ⟨⟨hpos, hcap⟩, hσ₂, h₂⟩ := hs₂
  have hσ := hσ₂.trans hσ₁
  have hcrowds : s₂.crowds = s.crowds := congrArg Settings.crowds hσ
  have hsp₂ : s₂.sps.getSP crowd.propertyId = some sp := by
    rw [show s₂.sps = s.sps from congrArg Settings.sps hσ]
    exact hsp
  obtain ⟨hfixed, hmanual, hhistory, hmissed⟩ := hfinal sp missed
  have ha₂ : s₂.settings.crowds[a]? = some crowd := by
    rw [hσ]
    exact ha
  refine wp_imp (closeSale_booked h₂ ha₂ (final sp missed) hsp₂
    (fun hunsold => ⟨hfixed.trans hunsold.fixed, hmanual.trans hunsold.manual⟩) hhistory ?_ _
    fun σ => ?_)
    fun _ s' hs' => ⟨hs'.1, by rw [hs'.2, hcrowds]⟩
  · rw [h₂.ok.recorded_of_sale ha₂, hmissed]
    exact hcap
  · rw [hmissed]
    exact moves_creditMissedTokens sp _ hpos

/-- The loop over the crowdsales: each is still there when its turn comes. -/
theorem eraseExpired_booked (blockHash : Nat) (blockTime : Int) (l : List (Address × CMPCrowd)) :
    ∀ s : State, Booked height used base s → l.Nodup →
      (∀ e ∈ l, s.crowds[e.1]? = some e.2) →
      wp (l.forM (eraseIfPastDeadline blockHash blockTime))
        (fun _ s' => Booked height used base s') (fun e _ => SparesFrozen e) s := by
  induction l with
  | nil => exact fun s h _ _ => (wp_pure _ _ _ _).mpr h
  | cons e rest ih =>
      intro s h hnodup hpresent
      rw [wp_forM_cons]
      unfold eraseIfPastDeadline
      rw [wp_ite]
      refine ⟨fun _ => ?_, fun _ => (wp_pure _ _ _ _).mpr ?_⟩
      · have he := hpresent e List.mem_cons_self
        refine wp_imp (endCrowdsale_booked h he fun _ _ => ⟨rfl, rfl, rfl, rfl⟩) fun _ s₁ hs₁ => ?_
        refine ih s₁ hs₁.1 (List.nodup_cons.mp hnodup).2 fun e' he' => ?_
        have hsome := hpresent e' (List.mem_cons_of_mem _ he')
        rw [hs₁.2, getElem?_erase_eq, if_neg ?_, hsome]
        intro heq
        rw [← heq, he] at hsome
        refine (List.nodup_cons.mp hnodup).1 ?_
        rw [Prod.ext heq (Option.some.inj hsome)]
        exact he'
      · exact ih s h (List.nodup_cons.mp hnodup).2 fun e' he' => hpresent e' (List.mem_cons_of_mem _ he')

/-- **A BLOCK BEGINS**: the crowdsales that are over end. -/
theorem eraseExpiredCrowdsale_booked (h : Booked height used base s) (blockHash : Nat)
    (blockTime : Int) :
    wp (eraseExpiredCrowdsale blockHash blockTime) (fun _ s' => Booked height used base s')
      (fun e _ => SparesFrozen e) s := by
  unfold eraseExpiredCrowdsale
  rw [wp_bind, wp_get]
  exact eraseExpired_booked blockHash blockTime _ s h (nodup_toList _)
    fun e he => mem_toList_iff.mp he

theorem logicMathCloseCrowdsale_booked {tx : CMPTransaction} {env : ChainEnv}
    (h : Booked height used base s) :
    wp (logicMathCloseCrowdsale env tx) (fun _ s' => Booked height used base s')
      (fun e _ => SparesFrozen e) s := by
  unfold logicMathCloseCrowdsale
  rw [wp_bind, wp_get]
  cases env.blockHash tx.block with
  | none => exact h.refused _
  | some blockHash =>
      dsimp only
      refine h.unless_refused fun _ => ?_
      refine h.unless_refused fun _ => ?_
      refine h.unless_refused fun _ => ?_
      cases hcrowd : s.crowds[tx.sender]? with
      | none => exact h.refused _
      | some crowd =>
          dsimp only
          refine h.unless_refused fun _ => ?_
          rw [wp_bind]
          refine wp_imp (endCrowdsale_booked h hcrowd fun _ _ => ⟨rfl, rfl, rfl, rfl⟩)
            fun _ s' hs' => ?_
          exact (wp_pure _ _ _ _).mpr hs'.1

end Sales

/-! ## Participations -/

section Participations

variable {used : List Txid} {base : PropertyId → Int} {s : State} {tx : CMPTransaction}
  {env : ChainEnv} {receiver : Address} {crowd : CMPCrowd}

theorem CMPCrowd.tokens_participate (crowd : CMPCrowd) (txid : Txid) (value time user issuer : Int) :
    (crowd.participate txid value time user issuer).tokens = crowd.tokens + (user + issuer) := by
  show crowd.uCreated + user + (crowd.iCreated + issuer) = crowd.uCreated + crowd.iCreated + _
  ring

/-- The record with a new participation. -/
theorem CMPCrowd.Sums.participate (h : crowd.Sums used) (hin : tx.txid ∈ used)
    (hfresh : crowd.txFundraiserData[tx.txid]? = none) (value time : Int) {user issuer : Int}
    (huser : 0 ≤ user) (hissuer : 0 ≤ issuer) :
    (crowd.participate tx.txid value time user issuer).Sums used := by
  have hdata : (crowd.participate tx.txid value time user issuer).txFundraiserData =
      crowd.txFundraiserData.insert tx.txid [value, time, user, issuer] := insertIfNew_of_absent hfresh _
  have htokens := crowd.tokens_participate tx.txid value time user issuer
  refine ⟨?_, fun txid data hd => ?_, ?_⟩
  · rw [hdata, msum_insert_sub, hfresh, htokens, h.tokens]
    show _ = _ + (tokensOf false [value, time, user, issuer] - 0)
    rw [sub_zero]
    rfl
  · rw [hdata, getElem?_insert_eq] at hd
    split at hd
    · next heq =>
        rw [← heq]
        exact hin
    · exact h.buyers txid data hd
  · rw [htokens]
    exact add_nonneg h.nonneg (add_nonneg huser hissuer)

theorem creditParticipation_booked (h : Booked tx.block used base s) (hheight : IsInt64 tx.block)
    (hin : tx.txid ∈ used) (hcrowd : s.crowds[receiver]? = some crowd)
    (hfresh : crowd.txFundraiserData[tx.txid]? = none) {user issuer : Int} (huser : 0 ≤ user)
    (hissuer : 0 ≤ issuer) (hcap : s.settings.recorded crowd.propertyId + (user + issuer) ≤ maxInt64)
    (closed : Bool) :
    wp (creditParticipation env tx receiver crowd user issuer closed)
      (fun _ s' => Booked tx.block used base s') (fun e _ => SparesFrozen e) s := by
  unfold creditParticipation
  rw [wp_bind]
  refine wp_imp (h.silent (moves_signed64 _)) fun _ s₁ hs₁ => ?_
  obtain ⟨-, hσ₁, h₁⟩ := hs₁
  rw [wp_bind]
  refine wp_imp (h₁.silent (moves_signed64 _)) fun _ s₂ hs₂ => ?_
  obtain ⟨-, hσ₂, h₂⟩ := hs₂
  have hcrowd₂ : s₂.settings.crowds[receiver]? = some crowd := by
    rw [hσ₂.trans hσ₁]
    exact hcrowd
  dsimp only
  rw [wp_bind, wp_modify]
  -- the record counts the tokens before they are credited
  obtain ⟨⟨sp, hsp, hunsold⟩, hsums⟩ := h₂.ok.sales receiver crowd hcrowd₂
  have hid : (crowd.participate tx.txid (toInt64 tx.nValue.toNat) env.blockTime user
      issuer).propertyId = crowd.propertyId := rfl
  have hcreated : (crowd.participate tx.txid (toInt64 tx.nValue.toNat) env.blockTime user
      issuer).tokens - ((s₂.settings.crowds[receiver]?).map CMPCrowd.tokens).getD 0 = user + issuer := by
    rw [hcrowd₂, Option.map_some, Option.getD_some, CMPCrowd.tokens_participate, add_sub_cancel_left]
  have hsells : s₂.settings.Sells used receiver
      (crowd.participate tx.txid (toInt64 tx.nValue.toNat) env.blockTime user issuer) := by
    refine ⟨⟨sp, hsp, hunsold⟩, hsums.participate hin hfresh _ _ huser hissuer,
      fun b other hb hid => ?_, fun old hold => ?_, ?_⟩
    · exact h₂.ok.apart b receiver other crowd hb hcrowd₂ hid
    · rw [hcrowd₂] at hold
      cases hold
      rfl
    · rw [hid, hcreated, hσ₂.trans hσ₁]
      exact hcap
  obtain ⟨hok, hrecorded⟩ := h₂.ok.putCrowd hsells
  rw [wp_bind]
  refine wp_imp ((moves_creditTokens _ _ huser).run (h₂.standing.putCrowd receiver _)) fun _ s₃ hs₃ => ?_
  rw [wp_bind]
  refine wp_imp ((moves_creditTokens _ _ hissuer).run hs₃.2) fun _ s₄ hs₄ => ?_
  have h₄ : Booked tx.block used base s₄ := by
    refine hs₄.2.booked hok ?_
    rw [hrecorded, hcreated, hid, Pi.single_add]
    abel
  rw [wp_bind]
  refine wp_imp (h₄.silent (moves_notifyTotalTokensChanged _ hheight)) fun _ s₅ hs₅ => ?_
  obtain ⟨-, -, h₅⟩ := hs₅
  rw [wp_ite]
  refine ⟨fun _ => ?_, fun _ => (wp_pure _ _ _ _).mpr h₅⟩
  rw [wp_bind]
  refine wp_imp (eraseMaxedCrowdsale_booked h₅ env receiver tx.block) fun _ s₆ h₆ => ?_
  exact (wp_pure _ _ _ _).mpr h₆

/-- **A PARTICIPATION** creates what is in the record of the crowdsale afterwards. -/
theorem crowdsaleParticipation_booked (h : Booked tx.block used base s) (hbase : OnlyOmni base)
    (hheight : IsInt64 tx.block) (hin : tx.txid ∈ used)
    (hfresh : ∀ crowd : CMPCrowd, s.crowds[receiver]? = some crowd →
      crowd.txFundraiserData[tx.txid]? = none) :
    wp (crowdsaleParticipation env tx receiver) (fun _ s' => Booked tx.block used base s')
      (fun e _ => SparesFrozen e) s := by
  unfold crowdsaleParticipation
  rw [wp_bind, wp_get]
  cases hcrowd : s.crowds[receiver]? with
  | none => exact h.refused _
  | some crowd =>
      dsimp only
      refine h.unless_refused fun _ => ?_
      rw [wp_bind]
      have hthree := h.ok.three_le_of_sale hcrowd
      have hcount : (s.settings.recorded + base) crowd.propertyId =
          s.settings.recorded crowd.propertyId := by
        rw [Pi.add_apply, hbase _ hthree, add_zero]
      refine wp_imp (wp_participation h.standing (fun sp hsp => h.sale_not_fixed hcrowd hsp)
        (hcount.trans_le (h.ok.capped _))) fun r s₁ hs₁ => ?_
      obtain ⟨hs₁, huser, hissuer, hcap⟩ := hs₁
      rw [hcount] at hcap
      have hσ : s₁.settings = s.settings := hs₁.settings
      refine creditParticipation_booked (hs₁.booked h.ok rfl) hheight hin ?_
        (hfresh crowd hcrowd) huser hissuer ?_ _
      · rw [show s₁.crowds = s.crowds from congrArg Settings.crowds hσ]
        exact hcrowd
      · rw [hσ]
        exact hcap

/-- A transaction that was not used is in no record. -/
theorem Booked.fresh_sale {height : Int} (h : Booked height used base s) {txid : Txid}
    (hnew : txid ∉ used) : ∀ crowd : CMPCrowd, s.crowds[receiver]? = some crowd →
      crowd.txFundraiserData[txid]? = none := by
  intro crowd hcrowd
  cases hdata : crowd.txFundraiserData[txid]? with
  | none => rfl
  | some data => exact absurd ((h.ok.sales receiver crowd hcrowd).2.buyers txid data hdata) hnew

/-- **A SIMPLE SEND** moves tokens, and may be a participation. -/
theorem logicMathSimpleSend_booked (h : Booked tx.block used base s) (hbase : OnlyOmni base)
    (hheight : IsInt64 tx.block) (hnew : tx.txid ∉ used)
    (hfree : s.isAddressFrozen tx.sender tx.property.toNat = false) :
    wp (logicMathSimpleSend env tx) (fun _ s' => Booked tx.block (tx.txid :: used) base s')
      (fun e _ => SparesFrozen e) s := by
  have hseen : Booked tx.block (tx.txid :: used) base s := h.seen _
  unfold logicMathSimpleSend
  rw [wp_bind, wp_get]
  refine hseen.unless_refused fun _ => ?_
  refine hseen.unless_refused fun hvalue => ?_
  refine hseen.unless_refused fun _ => ?_
  refine hseen.unless_refused fun _ => ?_
  refine hseen.unless_refused fun _ => ?_
  dsimp only
  have hpos := (amount_checked hvalue).1
  rw [wp_bind]
  refine wp_imp (hseen.moves (moves_assertUpdate _ _ _ holds_balance fun _ _ => hfree))
    fun _ s₁ hs₁ => ?_
  obtain ⟨-, hσ₁, h₁⟩ := hs₁
  rw [wp_bind]
  refine wp_imp (h₁.moves (moves_assertUpdate _ _ _ holds_balance fun _ hneg =>
    absurd hneg (not_lt.mpr hpos))) fun _ s₂ hs₂ => ?_
  obtain ⟨-, hσ₂, h₂⟩ := hs₂
  have h₃ : Booked tx.block (tx.txid :: used) base s₂ := by
    refine h₂.of_eq ?_
    rw [Pi.single_neg]
    abel
  have hcrowds : s₂.crowds = s.crowds := congrArg Settings.crowds (hσ₂.trans hσ₁)
  rw [wp_bind]
  refine wp_imp (crowdsaleParticipation_booked h₃ hbase hheight List.mem_cons_self ?_) fun _ s₄ h₄ =>
    (wp_pure _ _ _ _).mpr h₄
  rw [hcrowds]
  exact h.fresh_sale hnew

end Participations

end OmniCore
