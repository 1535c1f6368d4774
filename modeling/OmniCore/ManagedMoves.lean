import OmniCore.Activation
import OmniCore.CrowdsaleMoves
import OmniCore.FreezeReload
import OmniCore.MarketMoves

/-! # ManagedMoves — grants, revocations, freezing, and what is activated

    The entry of a managed property keeps what was granted and revoked, so that the books
    change with the balances. Addresses are frozen for managed properties only. Activations
    change parameters, and a deactivated market gives back what is reserved for its orders. -/

namespace OmniCore

open Std (ExtTreeMap ExtTreeSet)
open Machine TextRec MapSum Exec

/-! ## Grants and revocations -/

section Grants

variable {used : List Txid} {base : PropertyId → Int} {s : State} {tx : CMPTransaction}
  {env : ChainEnv}

/-- The tokens of an entry with another grant or revocation. -/
theorem SPEntry.tokens_noted {sp : SPEntry} (hmanual : sp.manual = true) (hfixed : sp.fixed = false)
    {txid : Txid} (hfresh : sp.historicalData[txid]? = none) (granted revoked : Int) (blockHash : Nat) :
    (sp.noted txid granted revoked blockHash).tokens = sp.tokens + (granted - revoked) := by
  have hdata : (sp.noted txid granted revoked blockHash).historicalData =
      sp.historicalData.insert txid [granted, revoked] := insertIfNew_of_absent hfresh _
  have hmanual' : (sp.noted txid granted revoked blockHash).manual = true := hmanual
  have hmissed : (sp.noted txid granted revoked blockHash).missedTokens = sp.missedTokens := rfl
  have hfixed' : (sp.noted txid granted revoked blockHash).fixed = false := hfixed
  rw [SPEntry.tokens_of_not_fixed hfixed', SPEntry.tokens_of_not_fixed hfixed, hdata, hmanual',
    hmissed, msum_insert_sub, hfresh, hmanual]
  have hnew : tokensOf true [granted, revoked] = granted - revoked := rfl
  rw [hnew]
  show _ + (_ - 0) + _ = _
  ring

/-- A managed property has an entry of its own, and no fixed number of tokens. -/
theorem Booked.managed {height : Int} (h : Booked height used base s) {p : PropertyId}
    {sp : SPEntry} (hsp : s.sps.getSP p = some sp) (hmanual : sp.manual = true) :
    3 ≤ p ∧ sp.fixed = false := by
  have hentry : s.settings.sps.entries[p]? = some sp :=
    (CMPSPInfo.entry_of_kind hsp (Or.inl hmanual)).2
  refine ⟨?_, h.ok.kinds p sp hentry hmanual⟩
  rcases h.ok.issued p sp hentry with hmain | htest
  · exact hmain.1
  · exact (show 3 ≤ testEcoProperty1 by decide).trans htest.1

/-- What is granted or revoked is noted: the books are ahead of the balances by it. -/
theorem noteTokens_booked {height : Int} (h : Booked height used base s) {p : PropertyId}
    {sp : SPEntry} (hsp : s.sps.getSP p = some sp) (hmanual : sp.manual = true) {txid : Txid}
    (hnew : txid ∉ used) (granted revoked : Int)
    (hcap : s.settings.recorded p + (granted - revoked) ≤ maxInt64) (blockHash : Nat) :
    wp (assertUpdateSP p (sp.noted txid granted revoked blockHash))
      (fun _ s' => s'.crowds = s.crowds ∧ s'.frozenAddresses = s.frozenAddresses ∧
        Booked height (txid :: used) (base - Pi.single p (granted - revoked)) s')
      (fun e _ => SparesFrozen e) s := by
  refine wp_assertUpdateSP fun himplied => ?_
  have hentry : s.settings.sps.entries[p]? = some sp :=
    (CMPSPInfo.getSP_of_not_implied himplied).symm.trans hsp
  have hfixed := h.ok.kinds p sp hentry hmanual
  have hfresh : sp.historicalData[txid]? = none := by
    cases hdata : sp.historicalData[txid]? with
    | none => rfl
    | some data => exact absurd (h.ok.histories p sp hentry txid data hdata) hnew
  have hdata : (sp.noted txid granted revoked blockHash).historicalData =
      sp.historicalData.insert txid [granted, revoked] := insertIfNew_of_absent hfresh _
  have hrewrites : s.settings.Rewrites (txid :: used) p sp
      (sp.noted txid granted revoked blockHash) := by
    refine ⟨himplied, hentry, fun hm => hm, fun _ => hfixed, fun id data hd => ?_,
      fun a crowd ha hid => ?_, ?_⟩
    · rw [hdata, getElem?_insert_eq] at hd
      split at hd
      · next heq =>
          rw [← heq]
          exact List.mem_cons_self
      · exact List.mem_cons_of_mem _ (h.ok.histories p sp hentry id data hd)
    · -- a managed property is not sold
      obtain ⟨⟨sp', hsp', hunsold⟩, -⟩ := h.ok.sales a crowd ha
      rw [hid, hentry] at hsp'
      cases hsp'
      rw [hunsold.manual] at hmanual
      cases hmanual
    · rw [SPEntry.tokens_noted hmanual hfixed hfresh, add_sub_cancel_left]
      exact hcap
  obtain ⟨hok, hrecorded⟩ := (h.seen txid).ok.write hrewrites
  refine ⟨rfl, rfl, (h.standing.writeSP p _).booked hok ?_⟩
  rw [hrecorded, SPEntry.tokens_noted hmanual hfixed hfresh, add_sub_cancel_left]
  abel

theorem grantTokens_booked (h : Booked tx.block used base s) (hbase : OnlyOmni base)
    (hheight : IsInt64 tx.block) (hnew : tx.txid ∉ used) {sp : SPEntry}
    (hsp : s.sps.getSP tx.property.toNat = some sp) (hmanual : sp.manual = true)
    (hpos : 0 ≤ toInt64 tx.nValue.toNat)
    (hcap : s.settings.recorded tx.property.toNat + toInt64 tx.nValue.toNat ≤ maxInt64)
    (blockHash : Nat) :
    wp (grantTokens env tx sp blockHash)
      (fun _ s' => Booked tx.block (tx.txid :: used) base s') (fun e _ => SparesFrozen e) s := by
  unfold grantTokens
  rw [wp_bind]
  refine wp_imp (noteTokens_booked h hsp hmanual hnew _ 0 (by rw [sub_zero]; exact hcap) _)
    fun _ s₁ hs₁ => ?_
  obtain ⟨hcrowds₁, -, h₁⟩ := hs₁
  dsimp only
  rw [wp_bind]
  refine wp_imp (h₁.moves (moves_assertUpdate _ _ _ holds_balance fun _ hneg =>
    absurd hneg (not_lt.mpr hpos))) fun _ s₂ hs₂ => ?_
  obtain ⟨-, hσ₂, h₂'⟩ := hs₂
  have h₂ : Booked tx.block (tx.txid :: used) base s₂ := by
    refine h₂'.of_eq ?_
    rw [sub_zero, sub_add_cancel]
  have hcrowds : s₂.crowds = s.crowds := (congrArg Settings.crowds hσ₂).trans hcrowds₁
  have hnotify : ∀ s₃, Booked tx.block (tx.txid :: used) base s₃ →
      wp (notifyTotalTokensChanged tx.property.toNat tx.block)
        (fun _ s' => Booked tx.block (tx.txid :: used) base s') (fun e _ => SparesFrozen e) s₃ :=
    fun s₃ h₃ => wp_imp (h₃.silent (moves_notifyTotalTokensChanged _ hheight)) fun _ _ hs => hs.2.2
  rw [wp_bind, wp_get, wp_ite]
  refine ⟨fun _ => ?_, fun _ => hnotify s₂ h₂⟩
  rw [wp_bind]
  refine wp_imp (crowdsaleParticipation_booked h₂ hbase hheight List.mem_cons_self ?_)
    fun _ s₃ h₃ => hnotify s₃ h₃
  rw [hcrowds]
  exact h.fresh_sale hnew

/-- **A GRANT** creates what it notes. -/
theorem logicMathGrantTokens_booked (h : Booked tx.block used base s) (hbase : OnlyOmni base)
    (hheight : IsInt64 tx.block) (hnew : tx.txid ∉ used) :
    wp (logicMathGrantTokens env tx) (fun _ s' => Booked tx.block (tx.txid :: used) base s')
      (fun e _ => SparesFrozen e) s := by
  unfold logicMathGrantTokens
  rw [wp_bind, wp_get]
  cases env.blockHash tx.block with
  | none => exact (h.seen _).refused _
  | some blockHash =>
      dsimp only
      refine (h.seen _).unless_refused fun _ => ?_
      refine (h.seen _).unless_refused fun hvalue => ?_
      refine (h.seen _).unless_refused fun _ => ?_
      rw [wp_bind]
      refine wp_imp (h.silent (moves_assertSP tx.property.toNat)) fun sp s₁ hs₁ => ?_
      obtain ⟨hsp, hσ₁, h₁⟩ := hs₁
      refine (h₁.seen _).unless_refused fun hmanual => ?_
      refine (h₁.seen _).unless_refused fun _ => ?_
      rw [Bool.not_eq_true', Bool.not_eq_false] at hmanual
      have hsps : s₁.sps = s.sps := congrArg Settings.sps hσ₁
      have hsp₁ : s₁.sps.getSP tx.property.toNat = some sp := by
        rw [hsps]
        exact hsp
      obtain ⟨himplied, hfixed⟩ := h₁.managed hsp₁ hmanual
      rw [wp_bind]
      refine wp_mono (wp_and (wp_getTotalTokens hsp₁ hfixed h₁.standing.count.cache)
        ((spares_getTotalTokens tx.property.toNat).wp s₁)) (fun total s₂ h₂ => ?_) fun _ _ hh => hh.2
      obtain ⟨⟨rfl, rfl, -⟩, -⟩ := h₂
      refine (h₁.seen _).unless_refused fun hroom => ?_
      rw [wp_bind]
      refine wp_imp (grantTokens_booked h₁ hbase hheight hnew hsp₁ hmanual
        (amount_checked hvalue).1 ?_ blockHash) fun _ s₃ h₃ => (wp_pure _ _ _ _).mpr h₃
      -- the number of tokens that was checked is the one in the books
      rw [h₁.standing.count.count, Pi.add_apply, hbase _ himplied, add_zero] at hroom
      rw [(amount_checked hvalue).2]
      omega

/-- **A REVOCATION** destroys what it notes. -/
theorem logicMathRevokeTokens_booked (h : Booked tx.block used base s)
    (hheight : IsInt64 tx.block) (hnew : tx.txid ∉ used)
    (hfree : s.isAddressFrozen tx.sender tx.property.toNat = false) :
    wp (logicMathRevokeTokens env tx) (fun _ s' => Booked tx.block (tx.txid :: used) base s')
      (fun e _ => SparesFrozen e) s := by
  unfold logicMathRevokeTokens
  rw [wp_bind, wp_get]
  cases env.blockHash tx.block with
  | none => exact (h.seen _).refused _
  | some blockHash =>
      dsimp only
      refine (h.seen _).unless_refused fun _ => ?_
      refine (h.seen _).unless_refused fun hvalue => ?_
      refine (h.seen _).unless_refused fun _ => ?_
      rw [wp_bind]
      refine wp_imp (h.silent (moves_assertSP tx.property.toNat)) fun sp s₁ hs₁ => ?_
      obtain ⟨hsp, hσ₁, h₁⟩ := hs₁
      refine (h₁.seen _).unless_refused fun hmanual => ?_
      refine (h₁.seen _).unless_refused fun _ => ?_
      rw [Bool.not_eq_true', Bool.not_eq_false] at hmanual
      rw [wp_bind]
      unfold revokeTokens
      rw [wp_bind]
      have hfree₁ : s₁.settings.isAddressFrozen tx.sender tx.property.toNat = false := by
        rw [hσ₁]
        exact hfree
      refine wp_imp (h₁.moves (moves_assertUpdate _ _ _ holds_balance fun _ _ => hfree₁))
        fun _ s₂ hs₂ => ?_
      obtain ⟨-, hσ₂, h₂⟩ := hs₂
      have hsps : s₂.sps = s.sps := congrArg Settings.sps (hσ₂.trans hσ₁)
      rw [wp_bind]
      have hpos := (amount_checked hvalue).1
      have hcap : s₂.settings.recorded tx.property.toNat + (0 - toInt64 tx.nValue.toNat) ≤ maxInt64 := by
        have hle := h₂.ok.capped tx.property.toNat
        omega
      refine wp_imp (noteTokens_booked h₂ (by rw [hsps]; exact hsp) hmanual hnew 0 _ hcap _)
        fun _ s₃ hs₃ => ?_
      refine wp_imp (hs₃.2.2.silent (moves_notifyTotalTokensChanged _ hheight)) fun _ s₄ hs₄ => ?_
      refine (wp_pure _ _ _ _).mpr (hs₄.2.2.of_eq ?_)
      rw [zero_sub, add_sub_cancel_right]

/-- **ANOTHER ISSUER** does not change the books. -/
theorem logicMathChangeIssuer_booked {height : Int} {env : FreezeEnv}
    (h : Booked height used base s) :
    wp (logicMathChangeIssuer env tx) (fun _ s' => Booked height used base s')
      (fun e _ => SparesFrozen e) s := by
  unfold logicMathChangeIssuer
  rw [wp_bind, wp_get]
  cases env.blockHash tx.block with
  | none => exact h.refused _
  | some blockHash =>
      dsimp only
      refine h.unless_refused fun _ => ?_
      refine h.unless_refused fun _ => ?_
      cases hsp : s.sps.getSP tx.property.toNat with
      | none => exact (wp_throw _ _ _ _).mpr (by decide)
      | some sp =>
          dsimp only
          refine h.unless_refused fun _ => ?_
          refine h.unless_refused fun _ => ?_
          cases tx.receiver with
          | none => exact h.refused _
          | some receiver =>
              dsimp only
              refine h.unless_refused fun _ => ?_
              rw [wp_bind, wp_assertThat]
              refine ⟨fun hwritten => ?_, fun _ => by decide⟩
              rw [wp_bind, wp_set, wp_pure]
              have himplied : impliedSP tx.property.toNat = none :=
                CMPSPInfo.not_implied_of_updateSP hwritten
              have hentry : s.settings.sps.entries[tx.property.toNat]? = some sp :=
                (CMPSPInfo.getSP_of_not_implied himplied).symm.trans hsp
              have hsame : SPEntry.tokens { sp with issuer := receiver.text, updateBlock := blockHash } =
                  sp.tokens := rfl
              have hrewrites : s.settings.Rewrites used tx.property.toNat sp
                  { sp with issuer := receiver.text, updateBlock := blockHash } := by
                refine ⟨himplied, hentry, fun hm => hm, h.ok.kinds _ sp hentry,
                  h.ok.histories _ sp hentry, fun a crowd ha hid => ?_, ?_⟩
                · obtain ⟨⟨sp', hsp', hunsold⟩, -⟩ := h.ok.sales a crowd ha
                  rw [hid, hentry] at hsp'
                  cases hsp'
                  exact ⟨hunsold.fixed, hunsold.manual, hunsold.history, hunsold.missed⟩
                · rw [hsame, sub_self, add_zero]
                  exact h.ok.capped _
              obtain ⟨hok, hrecorded⟩ := h.ok.write hrewrites
              refine (h.standing.writeSP tx.property.toNat _).booked hok ?_
              rw [hrecorded, hsame, sub_self, Pi.single_zero, add_zero]

end Grants

/-! ## Freezing -/

section Freezing

variable {p : PropertyId} {f₀ : FreezeSets}

/-- Code that freezes addresses for one property only. -/
abbrev FreezesFor {α : Type} (p : PropertyId) (f₀ : FreezeSets) (x : FreezeM α) : Prop :=
  Counts (fun (_ : Int) (f : FreezeSets) => ∀ a q, f.isAddressFrozen a q = true → q ≠ p →
    f₀.isAddressFrozen a q = true) SparesFrozen 0 (fun _ => True) x

theorem freezesFor_check (c : Bool) : FreezesFor p f₀ (FreezeSets.check c) :=
  Counts.ite (fun _ => Counts.pure trivial) fun _ => Counts.throw (by decide)

theorem freezesFor_modify {g : FreezeSets → FreezeSets} (hg : ∀ f a q,
    (g f).isAddressFrozen a q = true → q ≠ p → f.isAddressFrozen a q = true) :
    FreezesFor p f₀ (modify g : FreezeM PUnit) :=
  Counts.modify trivial fun _ f hf a q hfrozen hq => hf a q (hg f a q hfrozen hq) hq

/-- Nobody is frozen because another address is not any more. -/
theorem isAddressFrozen_erase (f : FreezeSets) (item : Address × PropertyId) (a : Address)
    (q : PropertyId)
    (h : ({ f with frozen := f.frozen.erase item } : FreezeSets).isAddressFrozen a q = true) :
    f.isAddressFrozen a q = true := by
  have hcontains : (f.frozen.erase item).contains (a, q) = true := h
  rw [ExtTreeSet.contains_erase, Bool.and_eq_true] at hcontains
  exact hcontains.2

theorem freezesFor_unfreezeAll (pastEnd : Bool) (q : PropertyId) (items : List (Address × PropertyId)) :
    FreezesFor p f₀ (FreezeSets.unfreezeAll pastEnd q items) := by
  induction items with
  | nil => exact Counts.pure trivial
  | cons item rest ih =>
      rw [FreezeSets.unfreezeAll]
      refine Counts.ite (fun _ => ?_) fun _ => ih
      refine Counts.seq (freezesFor_modify fun f a r hfrozen _ =>
        isAddressFrozen_erase f item a r hfrozen) fun _ _ => ?_
      exact Counts.get fun _ f _ => Counts.seq (freezesFor_check _) fun _ _ => ih

theorem freezesFor_freezeBody {env : FreezeEnv} {tx : CMPTransaction}
    {body : ConsensusParams → FreezeM Int} (h : freezeBody env tx = some body)
    (params : ConsensusParams) : FreezesFor tx.property.toNat f₀ (body params) := by
  unfold freezeBody at h
  split at h
  · cases h
    refine Counts.get fun _ f _ => Counts.ite (fun _ => Counts.pure trivial) fun _ => ?_
    refine Counts.seq (R := fun _ => True) ?_ fun _ _ => Counts.pure trivial
    refine Counts.seq (freezesFor_modify fun _ _ _ hfrozen _ => hfrozen) fun _ _ => ?_
    exact Counts.get fun _ _ _ => freezesFor_check _
  · cases h
    refine Counts.get fun _ f _ => Counts.ite (fun _ => Counts.pure trivial) fun _ => ?_
    refine Counts.seq (R := fun _ => True) ?_ fun _ _ => Counts.pure trivial
    refine Counts.get fun _ f _ => Counts.seq (freezesFor_check _) fun _ _ => ?_
    refine Counts.seq (freezesFor_modify fun _ _ _ hfrozen _ => hfrozen) fun _ _ => ?_
    refine Counts.seq (freezesFor_unfreezeAll _ _ _) fun _ _ => ?_
    exact Counts.get fun _ _ _ => freezesFor_check _
  · cases h
    refine Counts.get fun _ f _ => Counts.ite (fun _ => Counts.pure trivial) fun _ => ?_
    refine Counts.ite (fun _ => Counts.pure trivial) fun _ => ?_
    refine Counts.seq (R := fun _ => True) ?_ fun _ _ => Counts.pure trivial
    refine Counts.seq (freezesFor_modify fun f a q hfrozen hq => ?_) fun _ _ => ?_
    · -- the address that is frozen is one of the property
      have hcontains : (f.frozen.insert (_, tx.property.toNat)).contains (a, q) = true := hfrozen
      rw [ExtTreeSet.contains_insert, Bool.or_eq_true, beq_iff_eq] at hcontains
      rcases hcontains with heq | hcontains
      · exact absurd (congrArg Prod.snd (Std.LawfulEqCmp.eq_of_compare heq)).symm hq
      · exact hcontains
    · exact Counts.get fun _ _ _ => freezesFor_check _
  · cases h
    refine Counts.get fun _ f _ => Counts.ite (fun _ => Counts.pure trivial) fun _ => ?_
    refine Counts.ite (fun _ => Counts.pure trivial) fun _ => ?_
    refine Counts.seq (R := fun _ => True) ?_ fun _ _ => Counts.pure trivial
    refine Counts.seq (freezesFor_modify fun f a q hfrozen _ => isAddressFrozen_erase f _ a q hfrozen)
      fun _ _ => ?_
    exact Counts.get fun _ _ _ => freezesFor_check _
  · cases h

end Freezing

section Managed

variable {height : Int} {used : List Txid} {base : PropertyId → Int} {s : State}
  {tx : CMPTransaction}

/-- **A FREEZING TRANSACTION** freezes addresses for a managed property, and moves nothing. -/
theorem managedTx_booked {env : FreezeEnv} (h : Booked height used base s)
    {body : ConsensusParams → FreezeM Int} (hbody : freezeBody env tx = some body) :
    wp (managedTx env tx body) (fun _ s' => Booked height used base s')
      (fun e _ => SparesFrozen e) s := by
  unfold managedTx
  rw [wp_bind, wp_get]
  refine h.unless_refused fun _ => ?_
  refine h.unless_refused fun _ => ?_
  refine h.unless_refused fun _ => ?_
  cases hsp : s.sps.getSP tx.property.toNat with
  | none => exact (wp_throw _ _ _ _).mpr (by decide)
  | some sp =>
      dsimp only
      refine h.unless_refused fun hmanual => ?_
      refine h.unless_refused fun _ => ?_
      rw [Bool.not_eq_true', Bool.not_eq_false] at hmanual
      unfold onFreezeSets
      rw [wp_zoom]
      refine wp_imp ((freezesFor_freezeBody hbody s.params).run (t := 0)
        (fun _ _ hfrozen _ => hfrozen : ∀ a q, s.freezeSets.isAddressFrozen a q = true →
          q ≠ tx.property.toNat → s.freezeSets.isAddressFrozen a q = true)) fun _ f hf => ?_
      have hok : ({ s.settings with frozenAddresses := f.frozen } : Settings).Ok used := by
        refine h.ok.freeze fun a q hfrozen => ?_
        by_cases hq : q = tx.property.toNat
        · rw [hq]
          exact ⟨sp, hsp, hmanual⟩
        · exact h.ok.frozen a q (hf.2 a q hfrozen hq)
      have hstanding : Standing height { s.settings with frozenAddresses := f.frozen }
          (s.settings.recorded + base) (s.withFreezeSets f) := h.standing.rewrite rfl rfl rfl rfl
      exact hstanding.booked hok rfl

/-! ## Parameters -/

/-- Other parameters, and other activations. -/
theorem Booked.params {s' : State} (h : Booked height used base s) (params : ConsensusParams)
    (hσ : s'.settings = { s.settings with params }) (hm : s'.tallyMap = s.tallyMap)
    (hc : s'.feeCache = s.feeCache) (hbook : s'.metadex = s.metadex) :
    Booked height used base s' :=
  (h.standing.rewrite hσ hm hc hbook).booked (h.ok.params params) rfl

theorem Booked.activateFeature (h : Booked height used base s) (a : FeatureActivation)
    (block : Nat) : Booked height used base (s.activateFeature a block).2 := by
  unfold State.activateFeature
  split
  · exact h
  · split
    · exact h
    · exact h.params _ rfl rfl rfl rfl

theorem Booked.deactivateFeature (h : Booked height used base s) (featureId block : Nat) :
    Booked height used base (s.deactivateFeature featureId block).2 := by
  unfold State.deactivateFeature
  split
  · exact h.params _ rfl rfl rfl rfl
  · exact h

theorem Booked.checkLiveActivations (h : Booked height used base s) (blockHeight : Nat) :
    Booked height used base (s.checkLiveActivations blockHeight) := by
  unfold State.checkLiveActivations
  generalize s.pendingActivations = l
  induction l generalizing s with
  | nil => exact h
  | cons a rest ih =>
      rw [List.foldl_cons]
      split
      · exact ih h
      · exact ih (h.params s.params rfl rfl rfl rfl)

theorem logicMathActivation_booked {o : ActivationOptions} (h : Booked height used base s) :
    wp (logicMathActivation o tx) (fun _ s' => Booked height used base s')
      (fun e _ => SparesFrozen e) s := by
  unfold logicMathActivation
  rw [wp_bind, wp_get]
  refine h.unless_refused fun _ => ?_
  refine h.unless_refused fun _ => ?_
  rw [wp_bind, wp_set, wp_pure]
  exact h.activateFeature _ _

/-- **A DEACTIVATION** may shut a market down, which moves what is reserved. -/
theorem logicMathDeactivation_booked {o : ActivationOptions} (h : Booked height used base s) :
    wp (logicMathDeactivation o tx) (fun _ s' => Booked height used base s')
      (fun e _ => SparesFrozen e) s := by
  unfold logicMathDeactivation
  rw [wp_bind, wp_get]
  refine h.unless_refused fun _ => ?_
  refine h.unless_refused fun _ => ?_
  have h₁ := h.deactivateFeature tx.featureId.toNat tx.block
  have hshutdowns : ∀ σ : Settings, Moves height σ 0 (fun _ => True) (do
      if Feature.ofId tx.featureId.toNat = some .metaDEx then
        let _ ← metaDExShutdown
      if Feature.ofId tx.featureId.toNat = some .tradeAllPairs then
        let _ ← metaDExShutdownAllPair
      pure 0 : ExecM Int) := by
    intro σ
    have hpairs : Moves height σ 0 (fun _ => True) (do
        if Feature.ofId tx.featureId.toNat = some .tradeAllPairs then
          let _ ← metaDExShutdownAllPair
        pure 0 : ExecM Int) :=
      Counts.ite (fun _ => Counts.seq moves_metaDExShutdownAllPair fun _ _ => Counts.pure trivial)
        fun _ => Counts.pure trivial
    exact Counts.ite (fun _ => Counts.seq moves_metaDExShutdown fun _ _ => hpairs) fun _ => hpairs
  rw [wp_bind, wp_set, wp_ite]
  refine ⟨fun _ => ?_, fun _ => h₁.refused _⟩
  exact wp_imp (h₁.silent (hshutdowns _)) fun _ _ hs => hs.2.2

end Managed

end OmniCore
