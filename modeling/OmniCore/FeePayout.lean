import OmniCore.Outstanding
import OmniCore.OwnerShares

/-! # FeePayout — a trading fee always goes through

    Caching a fee adds it to the amount of its property and may pay the whole cache out to
    the holders of the ecosystem's token. If the balances of the property fit into 64 bits
    with the fee added, and somebody holds the token, then nothing of this fails: balances
    of the property only grow, and nothing else of the node changes. -/

namespace OmniCore

open Std (ExtTreeMap)
open Machine TextRec MapSum Exec Serve

/-! ## Receivers -/

/-- Somebody holds a property that there are tokens of. -/
theorem exists_holder {m : TallyMap} {p : PropertyId} (h : 0 < m.supply p) :
    ∃ a, 0 < m.held a p := by
  by_contra hnone
  have hheld : ∀ a, m.held a p ≤ 0 := fun a => not_lt.mp fun hpos => hnone ⟨a, hpos⟩
  have hle : m.supply p ≤ (m.toList.map fun _ => (0 : Int)).sum := by
    rw [← msum_held]
    refine List.sum_le_sum fun e he => ?_
    show e.2.held p ≤ 0
    rw [← held_of_mem he]
    exact hheld e.1
  simp at hle
  omega

/-- Of nothing, nobody receives anything. -/
theorem allocate_nothing {totalTokens : Int} {owners : List (Int × Address)}
    (receiversSet : OwnerAddrType) {s : State} (htotal : totalTokens ≤ maxInt64)
    (howners : ∀ e ∈ owners, 0 < e.1 ∧ e.1 ≤ totalTokens) :
    wp (allocate 0 totalTokens owners 0 receiversSet)
      (fun r s' => s' = s ∧ r = receiversSet) (fun _ _ => False) s := by
  cases owners with
  | nil => exact (wp_pure _ _ _ _).mpr ⟨rfl, rfl⟩
  | cons e rest =>
      obtain ⟨tokens, address⟩ := e
      obtain ⟨htokens, hle⟩ := howners _ List.mem_cons_self
      dsimp only at htokens hle
      have hmul : mul256 tokens.toNat (0 : Int).toNat = 0 := by
        rw [Int.toNat_zero, mul256_eq (by unfold maxInt64 at htotal; omega) (by norm_num), mul_zero]
      have hzero : divideAndRoundUp 0 totalTokens.toNat = 0 :=
        Nat.le_zero.mp ((divideAndRoundUp_le_iff (by omega) (by norm_num)).mpr (Nat.zero_le _))
      rw [allocate, wp_bind, wp_convertTo256]
      refine ⟨fun _ => ?_, fun hneg => absurd hneg (by omega)⟩
      rw [wp_bind, wp_convertTo256]
      refine ⟨fun _ => ?_, fun hneg => absurd hneg (by omega)⟩
      rw [wp_bind, wp_convertTo256]
      refine ⟨fun _ => ?_, fun hneg => absurd hneg (by omega)⟩
      rw [hmul, hzero, wp_bind, wp_convertTo64]
      refine ⟨fun _ => ?_, fun hlt => absurd hlt (by decide)⟩
      exact (wp_pure _ _ _ _).mpr ⟨rfl, rfl⟩

section Receivers

variable {s : State} (sender : Option Address) (p : PropertyId)

/-- What the walk over the tally map collects. -/
def stoOwners (m : TallyMap) : OwnerAddrType := insertAll (otherOwners sender p m.toList) ∅

theorem stoOwners_perm (m : TallyMap) :
    (OwnerAddrType.descending (stoOwners sender p m)).Perm (otherOwners sender p m.toList) := by
  unfold OwnerAddrType.descending stoOwners
  rw [ExtTreeMap.map_fst_toList_eq_keys]
  exact (List.reverse_perm _).trans
    (keys_insertAll_perm (List.Nodup.of_map Prod.snd nodup_otherOwners))

/-- The others hold no more than all. -/
theorem heldByOthers_le (m : TallyMap) : m.heldByOthers sender p ≤ m.supply p := by
  rw [← msum_held]
  refine List.sum_le_sum fun e _ => ?_
  show othersHeld sender p e ≤ e.2.held p
  unfold othersHeld
  split
  · exact e.2.held_nonneg p
  · exact le_rfl

/-- An owner holds something, and no more than all others. -/
theorem stoOwners_bounds (m : TallyMap) :
    ∀ e ∈ OwnerAddrType.descending (stoOwners sender p m),
      0 < e.1 ∧ e.1 ≤ m.heldByOthers sender p := by
  intro e he
  obtain ⟨_, hheld, heq⟩ := mem_otherOwners.mp ((stoOwners_perm sender p m).subset he)
  refine ⟨by omega, ?_⟩
  rw [← sum_otherOwners]
  refine List.single_le_sum (fun x hx => ?_) _
    (List.mem_map_of_mem ((stoOwners_perm sender p m).subset he))
  obtain ⟨y, hy, rfl⟩ := List.mem_map.mp hx
  obtain ⟨_, hyheld, hyeq⟩ := mem_otherOwners.mp hy
  omega

/-- The walk itself. -/
theorem stoGetReceivers_walk {amount : Int} (hsupply : s.tallyMap.supply p ≤ maxInt64)
    {Q : OwnerAddrType → State → Prop} {E : Halt → State → Prop}
    (h : wp (allocate amount (s.tallyMap.heldByOthers sender p)
      (OwnerAddrType.descending (stoOwners sender p s.tallyMap)) 0 ∅) Q E s) :
    wp (stoGetReceivers sender p amount) Q E s := by
  have hbound : (0 : Int) + (s.tallyMap.toList.map fun e => e.2.held p).sum ≤ maxInt64 := by
    rw [zero_add]
    exact (msum_held s.tallyMap p).trans_le hsupply
  unfold stoGetReceivers
  rw [wp_bind, wp_get, wp_bind]
  refine wp_mono (collect_returns (show (0 : Int) ≤ ((0 : Int), (∅ : OwnerAddrType)).1 from le_rfl)
    hbound) ?_ fun _ _ hno => hno.elim
  rintro r s' ⟨rfl, rfl⟩
  dsimp only
  rw [sum_othersHeld, zero_add]
  exact h

/-- **THE RECEIVERS** of an amount share exactly the amount, if there are any to share it. -/
theorem stoGetReceivers_shares {amount : Int} (h0 : 0 ≤ amount) (hmax : amount ≤ maxInt64)
    (hsupply : s.tallyMap.supply p ≤ maxInt64)
    (hother : 0 < amount → ∃ a, sender ≠ some a ∧ 0 < s.tallyMap.held a p) :
    wp (stoGetReceivers sender p amount) (fun r s' => s' = s ∧
        ((OwnerAddrType.descending r).map Prod.snd).Nodup ∧
        (∀ e ∈ OwnerAddrType.descending r, 0 < e.1 ∧ sender ≠ some e.2) ∧
        ((OwnerAddrType.descending r).map Prod.fst).sum = amount) (fun _ _ => False) s := by
  have htotal : s.tallyMap.heldByOthers sender p ≤ maxInt64 :=
    (heldByOthers_le sender p s.tallyMap).trans hsupply
  have hbounds := stoOwners_bounds sender p s.tallyMap
  refine stoGetReceivers_walk sender p hsupply ?_
  rcases h0.eq_or_lt with rfl | hpos
  · refine wp_imp (allocate_nothing ∅ htotal hbounds) ?_
    rintro r s' ⟨rfl, rfl⟩
    have hnil : OwnerAddrType.descending ∅ = [] := by
      unfold OwnerAddrType.descending
      rw [toList_empty]
      rfl
    rw [hnil]
    exact ⟨rfl, List.nodup_nil, fun e he => (List.not_mem_nil he).elim, rfl⟩
  · have hallocated := allocate_returns ∅ (s := s) hpos hmax htotal le_rfl hpos.le hbounds
    rw [sub_zero] at hallocated
    refine wp_imp hallocated ?_
    rintro r s' ⟨rfl, rfl⟩
    have hperm := stoOwners_perm sender p s'.tallyMap
    have hserved : OwnersServed s'.tallyMap sender p amount (OwnerAddrType.descending
        (insertAll ((serve (shareOf amount (s'.tallyMap.heldByOthers sender p)) amount
          (OwnerAddrType.descending (stoOwners sender p s'.tallyMap))).map
            fun e => (e.1, e.2.2)) ∅)) := by
      refine ownersServed_of_serve hpos hmax htotal hperm
        (descending_servedBefore fun e he => (mem_otherOwners.mp (hperm.subset he)).2.2) ?_ ?_
      · obtain ⟨a, hnot, hheld⟩ := hother hpos
        intro hnil
        have hin := hperm.symm.subset (mem_otherOwners.mpr
          (show sender ≠ some a ∧ 0 < s'.tallyMap.held a p ∧ s'.tallyMap.held a p =
            s'.tallyMap.held a p from ⟨hnot, hheld, rfl⟩) : (s'.tallyMap.held a p, a) ∈ _)
        rw [hnil] at hin
        cases hin
      · unfold OwnerAddrType.descending
        rw [ExtTreeMap.map_fst_toList_eq_keys]
        refine (List.reverse_perm _).trans (keys_insertAll_perm (List.Nodup.of_map Prod.snd ?_))
        rw [List.map_map]
        have hsub := (served_first (shareOf amount (s'.tallyMap.heldByOthers sender p)) amount
          (OwnerAddrType.descending (stoOwners sender p s'.tallyMap))).sublist.map Prod.snd
        rw [List.map_map] at hsub
        exact ((hperm.map Prod.snd).nodup_iff.mpr nodup_otherOwners).sublist hsub
    refine ⟨rfl, hserved.distinct, fun e he => ⟨?_, (hserved.holder e he).1⟩, hserved.sum⟩
    have hshare := (hserved.share e he).1
    omega

end Receivers

/-! ## Credits -/

/-- The balances of a property have grown by an amount in all; nothing else has changed. -/
structure Grown (p : PropertyId) (amount : Int) (m m' : TallyMap) : Prop where
  balance : ∀ a, m.money a p .balance ≤ m'.money a p .balance
  other : ∀ a q ty, ¬ (q = p ∧ ty = .balance) → m'.money a q ty = m.money a q ty
  total : m'.total p .balance = m.total p .balance + amount
  supply : ∀ q, m'.supply q = m.supply q + if q = p then amount else 0

theorem Grown.refl (p : PropertyId) (m : TallyMap) : Grown p 0 m m := by
  refine ⟨fun _ => le_rfl, fun _ _ _ _ => rfl, (add_zero _).symm, fun q => ?_⟩
  rw [ite_self, add_zero]

/-- One credit, and then the others. -/
theorem Grown.credit {m m₁ m' : TallyMap} {who : Address} {p : PropertyId} {amount rest : Int}
    (hcredit : Credited m m₁ who p amount .balance) (hpos : 0 < amount) (h : Grown p rest m₁ m') :
    Grown p (amount + rest) m m' := by
  refine ⟨fun a => ?_, fun a q ty hne => ?_, ?_, fun q => ?_⟩
  · refine le_trans ?_ (h.balance a)
    rw [hcredit.money]
    split <;> omega
  · rw [h.other a q ty hne, hcredit.money, if_neg fun hh => hne hh.2, add_zero]
  · rw [h.total, hcredit.total, if_pos ⟨rfl, rfl⟩, add_assoc]
  · rw [h.supply, hcredit.supply trivial]
    split
    · ring
    · ring

/-- **THE CREDITS** of a list of receivers go through if the balances have room for them. -/
theorem credits_return {p : PropertyId} (receivers : List (Int × Address)) :
    ∀ {s : State}, (∀ r ∈ receivers, 0 < r.1) →
      s.tallyMap.total p .balance + (receivers.map Prod.fst).sum ≤ maxInt64 →
      wp (receivers.forM fun r => assertUpdate r.2 p r.1 .balance)
        (fun _ s' => ∃ m, Grown p (receivers.map Prod.fst).sum s.tallyMap m ∧ s' = s.withTally m)
        (fun _ _ => False) s := by
  induction receivers with
  | nil =>
      intro s _ _
      rw [wp_forM_nil]
      exact ⟨s.tallyMap, Grown.refl p _, rfl⟩
  | cons r rest ih =>
      intro s hpos hroom
      have hr := hpos r List.mem_cons_self
      have hrest : 0 ≤ (rest.map Prod.fst).sum := by
        refine List.sum_nonneg fun x hx => ?_
        obtain ⟨y, hy, rfl⟩ := List.mem_map.mp hx
        exact (hpos y (List.mem_cons_of_mem r hy)).le
      rw [List.map_cons, List.sum_cons] at hroom ⊢
      have hmoney := s.tallyMap.money_le_total r.2 p (show TallyType.balance ≠ .pending by simp)
      have hnonneg := s.tallyMap.money_nonneg r.2 p (show TallyType.balance ≠ .pending by simp)
      rw [wp_forM_cons]
      refine wp_assertUpdate_of_canUpdate ⟨by omega, ⟨?_, by omega⟩, fun _ => by omega,
        fun _ hneg => by omega⟩ fun m₁ hcredit => ?_
      · unfold minInt64
        omega
      have hroom₁ : (s.withTally m₁).tallyMap.total p .balance + (rest.map Prod.fst).sum ≤
          maxInt64 := by
        show m₁.total p .balance + _ ≤ _
        rw [hcredit.total, if_pos ⟨rfl, rfl⟩]
        omega
      refine wp_imp (ih (fun x hx => hpos x (List.mem_cons_of_mem r hx)) hroom₁) ?_
      rintro _ s' ⟨m, hgrown, rfl⟩
      exact ⟨m, Grown.credit hcredit hr hgrown, rfl⟩

/-! ## Payouts -/

/-- The property whose holders the fees of a property are paid out to. -/
def payoutProperty (p : PropertyId) : PropertyId :=
  if isTestEcosystemProperty p then omniPropertyTMSC else omniPropertyMSC

/-- What caching a fee and paying the cache out rely on. -/
structure FeeRoom (p : PropertyId) (fee height : Int) (s : State) : Prop where
  cache : FeeCacheOk height s
  fits : IsInt64 height
  cached_nonneg : 0 ≤ s.cached p
  fee_nonneg : 0 ≤ fee
  room : s.tallyMap.total p .balance + s.cached p + fee ≤ maxInt64
  held : 0 < s.tallyMap.supply (payoutProperty p)
  supply : s.tallyMap.supply (payoutProperty p) ≤ maxInt64

/-- A fee was added to what is cached or paid out of a property; nothing else happened. -/
structure FeeKept (p : PropertyId) (fee height : Int) (s s' : State) : Prop where
  beside : s' = { s with
    tallyMap := s'.tallyMap, feeCache := s'.feeCache, feeHistory := s'.feeHistory }
  balance : ∀ a, s.tallyMap.money a p .balance ≤ s'.tallyMap.money a p .balance
  other : ∀ a q ty, ¬ (q = p ∧ ty = .balance) → s'.tallyMap.money a q ty = s.tallyMap.money a q ty
  supply : ∀ q, q ≠ p → s'.tallyMap.supply q = s.tallyMap.supply q
  outstanding : ∀ q, s'.outstanding q = s.outstanding q + if q = p then fee else 0
  cache : FeeCacheOk height s'
  cached : 0 ≤ s'.cached p
  otherCached : ∀ q, q ≠ p → s'.cached q = s.cached q

section Payout

variable {p : PropertyId} {fee height : Int} {s s' s'' : State}

/-- If nothing happens, no fee was taken. -/
theorem FeeKept.refl (hcache : FeeCacheOk height s) (hcached : 0 ≤ s.cached p) :
    FeeKept p 0 height s s := by
  refine ⟨rfl, fun _ => le_rfl, fun _ _ _ _ => rfl, fun _ _ => rfl, fun q => ?_, hcache, hcached,
    fun _ _ => rfl⟩
  rw [ite_self, add_zero]

theorem FeeKept.trans {fee' : Int} (h : FeeKept p fee height s s')
    (h' : FeeKept p fee' height s' s'') : FeeKept p (fee + fee') height s s'' := by
  refine ⟨?_, fun a => (h.balance a).trans (h'.balance a),
    fun a q ty hne => (h'.other a q ty hne).trans (h.other a q ty hne),
    fun q hq => (h'.supply q hq).trans (h.supply q hq), fun q => ?_, h'.cache, h'.cached,
    fun q hq => (h'.otherCached q hq).trans (h.otherCached q hq)⟩
  · rw [h'.beside, h.beside]
  · rw [h'.outstanding, h.outstanding]
    split
    · ring
    · ring

/-- Another amount in the cache, of which the balances know nothing. -/
theorem CacheSet.feeKept {amount : Int} (h : CacheSet s s' p height amount) (hpos : 0 ≤ amount) :
    FeeKept p (amount - s.cached p) height s s' := by
  obtain ⟨cache, hcache⟩ := h.only
  have hm : s'.tallyMap = s.tallyMap := by rw [hcache]
  refine ⟨by rw [hcache], fun a => by rw [hm], fun a q ty _ => by rw [hm], fun q _ => by rw [hm],
    fun q => ?_, h.ok, ?_, fun q hq => ?_⟩
  · unfold State.outstanding
    rw [hm, h.cached]
    by_cases hq : q = p
    · subst hq
      rw [if_pos rfl, if_pos rfl]
      ring
    · rw [if_neg hq, if_neg hq]
      ring
  · rw [h.cached, if_pos rfl]
    exact hpos
  · rw [h.cached, if_neg hq]

/-- Credits of a payout, before the cache is cleared; the payout is noted in the history. -/
theorem Grown.feeKept {amount : Int} {m : TallyMap} (h : Grown p amount s.tallyMap m)
    (hcache : FeeCacheOk height s) (hcached : 0 ≤ s.cached p) (history : TextDB) :
    FeeKept p amount height s { s.withTally m with feeHistory := history } := by
  have hsame : ∀ q, State.cached { s.withTally m with feeHistory := history } q = s.cached q :=
    fun q => hcache.cached_congr rfl
  refine ⟨rfl, h.balance, h.other, fun q hq => ?_, fun q => ?_, hcache.congr rfl, ?_,
    fun q _ => hsame q⟩
  · exact (h.supply q).trans (by rw [if_neg hq, add_zero])
  · unfold State.outstanding
    rw [hsame]
    show m.supply q + _ = _
    rw [h.supply]
    ring
  · rw [hsame]
    exact hcached

/-- **A PAYOUT GOES THROUGH**: the holders get what was cached. -/
theorem distributeCache_returns (h : FeeRoom p fee height s) :
    wp (distributeCache p height) (fun _ s' => FeeKept p 0 height s s') (fun _ _ => False) s := by
  have hcached := h.cached_nonneg
  have hfee := h.fee_nonneg
  have hroom := h.room
  have htotal := s.tallyMap.total_nonneg p (show TallyType.balance ≠ .pending by simp)
  have hmax : s.cached p ≤ maxInt64 := by omega
  unfold distributeCache
  rw [wp_bind]
  refine h.cache.wp_getCachedAmount ?_
  rw [wp_bind]
  refine wp_imp (stoGetReceivers_shares none (payoutProperty p) hcached hmax h.supply
    fun _ => ?_) ?_
  · obtain ⟨a, ha⟩ := exists_holder h.held
    exact ⟨a, nofun, ha⟩
  rintro receiversSet s₁ ⟨hs₁, -, hpos, hsum⟩
  rw [hs₁]
  dsimp only
  rw [wp_bind]
  refine wp_imp (credits_return _ (fun r hr => (hpos r hr).1) ?_) ?_
  · rw [hsum]
    omega
  rintro _ s₂ ⟨m, hgrown, rfl⟩
  rw [hsum] at hgrown
  rw [wp_bind]
  unfold recordFeeDistribution
  rw [wp_modify, wp_bind, wp_assertThat]
  refine ⟨fun _ => ?_, fun hne => ?_⟩
  · have hpaid := hgrown.feeKept h.cache hcached
    refine wp_imp (wp_setFeeItem (hpaid _).cache le_rfl h.fits (by decide)) fun _ s' hset => ?_
    have hcleared := (hpaid _).trans (hset.feeKept le_rfl)
    -- what the holders got is no longer cached
    rw [zero_sub, (h.cache.cached_congr rfl : State.cached { s.withTally m with feeHistory := _ } p =
      s.cached p), add_neg_cancel] at hcleared
    exact hcleared
  · rw [hsum] at hne
    simp at hne

/-- What is cached may be paid out. -/
theorem evalCache_returns (h : FeeRoom p fee height s) :
    wp (evalCache p height) (fun _ s' => FeeKept p 0 height s s') (fun _ _ => False) s := by
  unfold evalCache
  rw [wp_bind, wp_get, wp_bind]
  refine h.cache.wp_getCachedAmount ?_
  rw [wp_ite]
  exact ⟨fun _ => distributeCache_returns h, fun _ =>
    (wp_pure _ _ _ _).mpr (FeeKept.refl h.cache h.cached_nonneg)⟩

/-- **A FEE IS TAKEN**: it is cached, or paid out with what was cached before. -/
theorem addFee_returns (h : FeeRoom p fee height s) :
    wp (addFee p height fee) (fun _ s' => FeeKept p fee height s s') (fun _ _ => False) s := by
  have hcached := h.cached_nonneg
  have hfee := h.fee_nonneg
  have hroom := h.room
  have htotal := s.tallyMap.total_nonneg p (show TallyType.balance ≠ .pending by simp)
  have hint : IsInt64 (s.cached p + fee) := by
    unfold IsInt64 minInt64
    omega
  unfold addFee
  rw [wp_bind]
  refine h.cache.wp_getCachedAmount ?_
  rw [wp_ite]
  refine ⟨fun hfull => absurd hfull.2 (by omega), fun _ => ?_⟩
  rw [wp_bind, wp_signed64]
  refine ⟨fun _ => ?_, fun hno => hno hint⟩
  rw [wp_bind]
  refine wp_imp (wp_setFeeItem h.cache le_rfl h.fits hint) fun _ s₁ hset => ?_
  have hkept := hset.feeKept (by omega)
  rw [add_sub_cancel_left] at hkept
  have hm : s₁.tallyMap = s.tallyMap := by
    obtain ⟨cache, hcache⟩ := hset.only
    rw [hcache]
  have hnew : s₁.cached p = s.cached p + fee := by rw [hset.cached, if_pos rfl]
  have hroom₁ : FeeRoom p 0 height s₁ := by
    refine ⟨hset.ok, h.fits, by omega, le_rfl, ?_, ?_, ?_⟩
    · rw [hm, hnew]
      omega
    · rw [hm]
      exact h.held
    · rw [hm]
      exact h.supply
  refine wp_imp (evalCache_returns hroom₁) fun _ s' hpaid => ?_
  have hall := hkept.trans hpaid
  rwa [add_zero] at hall

end Payout

end OmniCore
