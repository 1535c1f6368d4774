import OmniCore.Accounting
import OmniCore.Issuance

/-! # IssuanceMoves — every issue is in the books

    Tokens come into being with a fixed property, by grants, by participations in
    crowdsales, and by what their issuers missed; they go by revocations. Each of these
    changes the books and the number of tokens that are outstanding by the same amount. -/

namespace OmniCore

open Std (ExtTreeMap)
open Machine TextRec MapSum Exec

/-! ## A node whose books are right -/

/-- What is outstanding of a property is what the books say, but for a difference that is known. -/
structure Booked (height : Int) (used : List Txid) (base : PropertyId → Int) (s : State) : Prop where
  ok : s.settings.Ok used
  standing : Standing height s.settings (s.settings.recorded + base) s

/-- Only OMNI and TOMNI are outstanding without being in the books. -/
def OnlyOmni (base : PropertyId → Int) : Prop := ∀ p : PropertyId, 3 ≤ p → base p = 0

section Booked

variable {height : Int} {used : List Txid} {base : PropertyId → Int} {s s' : State}

theorem Standing.booked {σ : Settings} {t : PropertyId → Int} (h : Standing height σ t s)
    (hok : σ.Ok used) (ht : t = σ.recorded + base) : Booked height used base s := by
  obtain rfl := h.settings
  exact ⟨hok, h.of_eq ht⟩

/-- Other settings, over the same tokens. -/
theorem Standing.rewrite {σ σ' : Settings} {t : PropertyId → Int} (h : Standing height σ t s)
    (hσ : s'.settings = σ') (hm : s'.tallyMap = s.tallyMap) (hc : s'.feeCache = s.feeCache)
    (hbook : s'.metadex = s.metadex) : Standing height σ' t s' :=
  ⟨h.count.congr hm hc, hσ, h.book.congr hbook⟩

theorem Booked.mono {height' : Int} (h : Booked height used base s) (hle : height ≤ height') :
    Booked height' used base s :=
  ⟨h.ok, ⟨h.standing.count.mono hle, h.standing.settings, h.standing.book⟩⟩

/-- Another transaction has occurred. -/
theorem Booked.seen (h : Booked height used base s) (txid : Txid) :
    Booked height (txid :: used) base s :=
  ⟨h.ok.mono fun _ hmem => List.mem_cons_of_mem _ hmem, h.standing⟩

/-- Moving tokens leaves the books alone. -/
theorem Booked.moves {α : Type} {d : PropertyId → Int} {R : α → Prop} {x : ExecM α}
    (h : Booked height used base s) (hx : Moves height s.settings d R x) :
    wp x (fun a s' => R a ∧ s'.settings = s.settings ∧ Booked height used (base + d) s')
      (fun e _ => SparesFrozen e) s := by
  refine wp_imp (hx.run h.standing) fun a s' ha => ⟨ha.1, ha.2.settings, ha.2.booked h.ok ?_⟩
  rw [add_assoc]

theorem Booked.of_eq {base' : PropertyId → Int} (h : Booked height used base s)
    (hbase : base = base') : Booked height used base' s := hbase ▸ h

/-- The same where nothing is shifted. -/
theorem Booked.silent {α : Type} {R : α → Prop} {x : ExecM α}
    (h : Booked height used base s) (hx : Moves height s.settings 0 R x) :
    wp x (fun a s' => R a ∧ s'.settings = s.settings ∧ Booked height used base s')
      (fun e _ => SparesFrozen e) s :=
  wp_imp (h.moves hx) fun _ _ ha => ⟨ha.1, ha.2.1, ha.2.2.of_eq (add_zero base)⟩

end Booked

/-! ## The tokens of a participation -/

section Calculation

variable {height : Int} {σ : Settings}

/-- What `arith_uint256` calculates without a division is calculated. -/
theorem moves_result (fits : Bool) (n : Nat) :
    Moves height σ 0 (fun _ => True) (arithUint256.result fits n) := Counts.pure trivial

theorem moves_bonusPercentage (bonusPerc : Nat) (fundraiserSecs currentSecs : Int) :
    Moves height σ 0 (fun _ => True)
      (bonusPercentage arithUint256 bonusPerc fundraiserSecs currentSecs) := by
  have hseconds : Moves height σ 0 (fun _ => True)
      (bonusSeconds arithUint256 fundraiserSecs currentSecs) := by
    refine Counts.ite (fun _ => ?_) fun _ => Counts.pure trivial
    refine Counts.seq (moves_convertTo256 _) fun _ _ => ?_
    exact Counts.seq (moves_convertTo256 _) fun _ _ => Counts.pure trivial
  exact Counts.seq hseconds fun _ _ => Counts.pure trivial

theorem moves_createdTokens (inflateAmount : Bool) (amtTransfer numProps : Int) (bonus : Nat) :
    Moves height σ 0 (fun _ => True)
      (createdTokens arithUint256 inflateAmount amtTransfer numProps bonus) := by
  refine Counts.seq (moves_convertTo256 _) fun created _ => ?_
  refine Counts.seq (R := fun _ => True) ?_ fun _ _ => ?_
  · exact Counts.ite (fun _ => Counts.pure trivial) fun _ => Counts.pure trivial
  · exact Counts.seq (moves_convertTo256 _) fun _ _ => Counts.pure trivial

theorem moves_issuerTokens (issuerPerc created : Nat) :
    Moves height σ 0 (fun _ => True) (issuerTokens arithUint256 issuerPerc created) := by
  refine Counts.seq (moves_result _ _) fun _ _ => Counts.seq (moves_result _ _) fun _ _ => ?_
  exact moves_result _ _

/-- The user gets what the issuer does not. -/
theorem moves_shareCreatable (total256 createdInt issuerInt : Nat) :
    Moves height σ 0 (fun r => r.1 = sub256 (sub256 maxInt64.toNat total256) r.2)
      (shareCreatable arithUint256 total256 createdInt issuerInt) := by
  have hdiv : ∀ a b : Nat, Moves height σ 0 (fun _ => True) (arithUint256.div a b) :=
    fun a b => Counts.ite (fun _ => Counts.throw (by decide)) fun _ => Counts.pure trivial
  refine Counts.seq (R := fun n => n = sub256 maxInt64.toNat total256) (Counts.pure rfl) fun n hn => ?_
  refine Counts.seq (moves_result _ _) fun _ _ => ?_
  refine Counts.seq (moves_result _ _) fun _ _ => Counts.seq (moves_result _ _) fun _ _ => ?_
  refine Counts.seq (hdiv _ _) fun _ _ => ?_
  refine Counts.seq (moves_result _ _) fun _ _ => Counts.seq (moves_result _ _) fun _ _ => ?_
  refine Counts.seq (hdiv _ _) fun issuer _ => ?_
  refine Counts.seq (moves_assertThat _ (by decide)) fun _ _ => ?_
  refine Counts.seq (R := fun m => m = sub256 n issuer) (Counts.pure rfl) fun m hm => Counts.pure ?_
  rw [hm, hn]

/-- The tokens that are calculated are not negative, and not more than what can be created: what wraps
    does not fit into 64 bits. -/
theorem moves_calculateFundraiser (inflateAmount : Bool) (amtTransfer : Int) (bonusPerc : Nat)
    (fundraiserSecs currentSecs numProps : Int) (issuerPerc : Nat) {totalTokens : Int}
    (htotal : totalTokens ≤ maxInt64) :
    Moves height σ 0 (fun r => 0 ≤ r.1 ∧ 0 ≤ r.2.1 ∧ totalTokens + (r.1 + r.2.1) ≤ maxInt64)
      (calculateFundraiser arithUint256 inflateAmount amtTransfer bonusPerc fundraiserSecs currentSecs
        numProps issuerPerc totalTokens) := by
  have hanswer : ∀ (user issuer : Nat) (closed : Bool), ((user : Int) ≤ maxInt64 → (issuer : Int) ≤
      maxInt64 → totalTokens + (user + issuer) ≤ maxInt64) → Moves height σ 0
      (fun r => 0 ≤ r.1 ∧ 0 ≤ r.2.1 ∧ totalTokens + (r.1 + r.2.1) ≤ maxInt64) (do
        let user ← convertTo64 user
        let issuer ← convertTo64 issuer
        pure (user, issuer, closed) : ExecM (Int × Int × Bool)) := by
    intro user issuer closed hcap
    refine Counts.seq (moves_convertTo64 _) fun u hu => Counts.seq (moves_convertTo64 _) fun i hi => ?_
    obtain ⟨rfl, hu⟩ := hu
    obtain ⟨rfl, hi⟩ := hi
    exact Counts.pure ⟨Int.natCast_nonneg _, Int.natCast_nonneg _, hcap hu hi⟩
  refine Counts.seq (moves_bonusPercentage _ _ _) fun bonus _ => ?_
  refine Counts.seq (moves_createdTokens _ _ _ _) fun created _ => ?_
  refine Counts.seq (moves_issuerTokens _ _) fun issuer _ => ?_
  refine Counts.seq (moves_convertTo256 _) fun total htotal256 => ?_
  obtain ⟨rfl, hpos⟩ := htotal256
  generalize created / fundraiserPrecision / satoshiPrecision = user
  generalize issuer / fundraiserPrecision / satoshiPrecision / 100 = forIssuer
  refine Counts.seq (R := fun n => n = add256 totalTokens.toNat user) (Counts.pure rfl) fun n hn => ?_
  refine Counts.seq (R := fun m => m = add256 n forIssuer) (Counts.pure rfl) fun m hm => ?_
  subst hn hm
  refine Counts.ite (fun _ => ?_) fun hfits => hanswer _ _ _ fun huser hissuer => ?_
  · refine Counts.seq (moves_shareCreatable _ _ _) fun r hr => hanswer _ _ _ fun huser hissuer => ?_
    -- what is left of the creatable tokens for the user
    rw [hr] at huser ⊢
    unfold sub256 maxInt64 at *
    omega
  · unfold add256 maxInt64 at *
    omega

theorem moves_getTotalTokens (p : PropertyId) : Moves height σ 0 (fun _ => True) (getTotalTokens p) :=
  Moves.of_keeps (keeps_getTotalTokens p) (spares_getTotalTokens p)

theorem moves_assertSP (p : PropertyId) :
    Moves height σ 0 (fun sp => σ.sps.getSP p = some sp) (assertSP p) := by
  refine Counts.get fun t s hs => ?_
  have hsps : s.sps = σ.sps := by
    rw [← hs.settings]
    rfl
  rw [hsps]
  split
  · next sp hsp => exact Counts.pure hsp
  · exact Counts.throw (by decide)

/-- What is credited for a participation, when the number of tokens is the one that is outstanding. -/
theorem wp_participation {env : ChainEnv} {tx : CMPTransaction} {crowd : CMPCrowd}
    {t : PropertyId → Int} {s : State} (hs : Standing height σ t s)
    (hsale : ∀ sp, σ.sps.getSP crowd.propertyId = some sp → sp.fixed = false)
    (hcap : t crowd.propertyId ≤ maxInt64) :
    wp (participationTokens env tx crowd) (fun r s' => Standing height σ t s' ∧ 0 ≤ r.1 ∧ 0 ≤ r.2.1 ∧
      t crowd.propertyId + (r.1 + r.2.1) ≤ maxInt64) (fun e _ => SparesFrozen e) s := by
  unfold participationTokens
  rw [wp_bind, wp_get, wp_bind]
  refine wp_imp ((moves_assertSP crowd.propertyId).run hs) fun sp s₁ hs₁ => ?_
  obtain ⟨hsp, hs₁⟩ := hs₁
  rw [add_zero] at hs₁
  have hsp₁ : s₁.sps.getSP crowd.propertyId = some sp := by
    rw [show s₁.sps = σ.sps from congrArg Settings.sps hs₁.settings]
    exact hsp
  dsimp only
  rw [wp_bind]
  refine wp_mono (wp_and (wp_getTotalTokens hsp₁ (hsale sp hsp) hs₁.count.cache)
    ((spares_getTotalTokens crowd.propertyId).wp s₁)) (fun total s₂ h₂ => ?_) fun _ _ h => h.2
  obtain ⟨⟨rfl, rfl, -⟩, -⟩ := h₂
  rw [hs₁.count.count]
  refine wp_imp ((moves_calculateFundraiser _ _ _ _ _ _ _ hcap).run hs₁) fun r s₃ h₃ => ?_
  rw [add_zero] at h₃
  exact ⟨h₃.2, h₃.1⟩

/-- What an issuer missed is not negative, and not more than what can be created. -/
theorem moves_getMissedIssuerBonus (sp : SPEntry) (crowd : CMPCrowd) :
    Moves height σ 0 (fun missed => 0 ≤ missed ∧ crowd.tokens + missed ≤ maxInt64)
      (getMissedIssuerBonus sp crowd) := by
  refine Counts.seq (moves_getTotalTokens _) fun _ _ => Counts.seq (moves_signed64 _) fun _ hsum => ?_
  refine Counts.seq (moves_assertThat _ (by decide)) fun _ _ => ?_
  refine Counts.seq (moves_convertTo256 _) fun i hi => Counts.seq (moves_convertTo256 _) fun u hu => ?_
  obtain ⟨rfl, hi⟩ := hi
  obtain ⟨rfl, hu⟩ := hu
  have hle := hsum.2.2
  have htokens : crowd.tokens = crowd.uCreated + crowd.iCreated := rfl
  refine Counts.ite (fun _ => Counts.pure ⟨le_rfl, ?_⟩) fun hmore => ?_
  · rw [htokens, add_zero, add_comm]
    exact hle
  refine (moves_convertTo64 _).imp fun n hn => ?_
  obtain ⟨rfl, hfits⟩ := hn
  refine ⟨Int.natCast_nonneg _, ?_⟩
  rw [htokens]
  generalize mul256 crowd.uCreated.toNat sp.percentage / 100 = exact at hmore hfits ⊢
  unfold add256 sub256 maxInt64 at *
  split at hfits
  · next hover =>
      rw [if_pos hover]
      omega
  · next hunder =>
      rw [if_neg hunder]
      omega

end Calculation

/-! ## Writing the books -/

section Writing

variable {height : Int} {t : PropertyId → Int} {s : State}

theorem Standing.putSP (h : Standing height s.settings t s) (ecosystem : Nat) (sp : SPEntry) :
    Standing height (s.settings.putSP ecosystem sp) t
      { s with sps := (s.sps.putSP ecosystem sp).2 } :=
  h.rewrite rfl rfl rfl rfl

theorem Standing.writeSP (h : Standing height s.settings t s) (p : PropertyId) (sp : SPEntry) :
    Standing height (s.settings.writeSP p sp) t { s with sps := (s.sps.updateSP p sp).2 } :=
  h.rewrite rfl rfl rfl rfl

theorem Standing.putCrowd (h : Standing height s.settings t s) (a : Address) (crowd : CMPCrowd) :
    Standing height (s.settings.putCrowd a crowd) t { s with crowds := s.crowds.insert a crowd } :=
  h.rewrite rfl rfl rfl rfl

theorem Standing.eraseCrowd (h : Standing height s.settings t s) (a : Address) :
    Standing height (s.settings.eraseCrowd a) t { s with crowds := s.crowds.erase a } :=
  h.rewrite rfl rfl rfl rfl

/-- An asserted write of the registry goes through for all properties but the implied ones. -/
theorem wp_assertUpdateSP {p : PropertyId} {sp : SPEntry} {Q : Unit → State → Prop}
    (hok : impliedSP p = none → Q () { s with sps := (s.sps.updateSP p sp).2 }) :
    wp (assertUpdateSP p sp) Q (fun e _ => SparesFrozen e) s := by
  unfold assertUpdateSP
  rw [wp_bind, wp_get, wp_bind, wp_set, wp_assertThat]
  exact ⟨fun hwritten => hok (CMPSPInfo.not_implied_of_updateSP hwritten), fun _ => by decide⟩

/-- The amount of a transaction that was checked, as a signed number. -/
theorem amount_checked {n : UInt64} (h : ¬ (n = 0 ∨ maxInt64 < n.toNat)) :
    0 ≤ toInt64 n.toNat ∧ toInt64 n.toNat = n.toNat := by
  rw [not_or, not_lt] at h
  have hle := h.2
  unfold maxInt64 at hle
  have hvalue : toInt64 n.toNat = n.toNat := toInt64_natCast (by omega)
  exact ⟨by rw [hvalue]; exact Int.natCast_nonneg _, hvalue⟩

end Writing

/-! ## Creations -/

section Creations

variable {used : List Txid} {base : PropertyId → Int} {s : State} {env : ChainEnv}
  {tx : CMPTransaction}

/-- The ecosystems of the checks. -/
theorem ecosystem_checked {n : Nat} (h : ¬ (omniPropertyMSC ≠ n ∧ omniPropertyTMSC ≠ n)) :
    n = 1 ∨ n = 2 := by
  by_contra hno
  rw [not_or] at hno
  exact h ⟨Ne.symm hno.1, Ne.symm hno.2⟩

/-- A refusal leaves the books as they are. -/
theorem Booked.refused {height : Int} (h : Booked height used base s) (rc : Int) :
    wp (pure rc : ExecM Int) (fun _ s' => Booked height used base s')
      (fun e _ => SparesFrozen e) s := (wp_pure _ _ _ _).mpr h

/-- A transaction that does not pass a check is refused. -/
theorem Booked.unless_refused {height : Int} (h : Booked height used base s) {c : Prop} [Decidable c]
    {rc : Int} {x : ExecM Int}
    (hrest : ¬c → wp x (fun _ s' => Booked height used base s') (fun e _ => SparesFrozen e) s) :
    wp (if c then pure rc else x) (fun _ s' => Booked height used base s')
      (fun e _ => SparesFrozen e) s := by
  rw [wp_ite]
  exact ⟨fun _ => h.refused rc, hrest⟩

/-- **A FIXED PROPERTY** gets all tokens of its entry. -/
theorem createPropertyFixed_booked (h : Booked tx.block used base s) (hleft : s.sps.IdsLeft)
    (hheight : IsInt64 tx.block) :
    wp (logicMathCreatePropertyFixed env tx) (fun _ s' => Booked tx.block used base s')
      (fun e _ => SparesFrozen e) s := by
  unfold logicMathCreatePropertyFixed
  rw [wp_bind, wp_get]
  cases env.blockHash tx.block with
  | none => exact h.refused _
  | some blockHash =>
      dsimp only
      refine h.unless_refused fun heco => ?_
      refine h.unless_refused fun _ => ?_
      refine h.unless_refused fun hvalue => ?_
      refine h.unless_refused fun _ => ?_
      refine h.unless_refused fun _ => ?_
      have htokens : (newFixedEntry tx blockHash).tokens = toInt64 tx.nValue.toNat := by
        rw [SPEntry.tokens_of_fixed rfl]
        simp only [newFixedEntry]
      obtain ⟨hok, hrecorded⟩ := h.ok.put hleft (newFixedEntry tx blockHash)
        (ecosystem_checked heco) (fun hmanual => absurd hmanual Bool.false_ne_true) rfl
        (by rw [htokens]; exact (isInt64_toInt64 _).2)
      rw [wp_bind, wp_set, wp_bind, wp_assertThat]
      refine ⟨fun _ => ?_, fun _ => by decide⟩
      rw [putSP_fst]
      -- the tokens are credited to the issuer
      have hcredit : Moves tx.block
          (s.settings.putSP tx.ecosystem.toNat (newFixedEntry tx blockHash))
          (Pi.single (s.sps.peekNextSPID tx.ecosystem.toNat) (toInt64 tx.nValue.toNat))
          (fun _ => True) (do
            assertUpdate tx.sender (s.sps.peekNextSPID tx.ecosystem.toNat) (toInt64 tx.nValue.toNat)
              .balance
            notifyTotalTokensChanged (s.sps.peekNextSPID tx.ecosystem.toNat) tx.block
            pure 0 : ExecM Int) := by
        refine ((moves_assertUpdate _ _ _ holds_balance fun _ hneg => ?_).bind fun _ _ =>
          Counts.seq (moves_notifyTotalTokensChanged _ hheight) fun _ _ =>
            Counts.pure trivial).of_eq (add_zero _)
        exact absurd (amount_checked hvalue).1 (not_le.mpr hneg)
      refine wp_imp (hcredit.run (h.standing.putSP tx.ecosystem.toNat (newFixedEntry tx blockHash)))
        fun _ s' hs' => hs'.2.booked hok ?_
      have hid : s.settings.sps.peekNextSPID = s.sps.peekNextSPID := rfl
      rw [hrecorded, htokens, hid]
      abel

/-- A managed property starts with no tokens. -/
theorem createPropertyManaged_booked (h : Booked tx.block used base s) (hleft : s.sps.IdsLeft) :
    wp (logicMathCreatePropertyManaged env tx) (fun _ s' => Booked tx.block used base s')
      (fun e _ => SparesFrozen e) s := by
  unfold logicMathCreatePropertyManaged
  rw [wp_bind, wp_get]
  cases env.blockHash tx.block with
  | none => exact h.refused _
  | some blockHash =>
      dsimp only
      refine h.unless_refused fun heco => ?_
      refine h.unless_refused fun _ => ?_
      refine h.unless_refused fun _ => ?_
      refine h.unless_refused fun _ => ?_
      have htokens : (newManagedEntry tx blockHash).tokens = 0 := rfl
      obtain ⟨hok, hrecorded⟩ := h.ok.put hleft (newManagedEntry tx blockHash)
        (ecosystem_checked heco) (fun _ => rfl) rfl (by rw [htokens]; decide)
      rw [wp_bind, wp_set, wp_bind, wp_assertThat]
      refine ⟨fun _ => ?_, fun _ => by decide⟩
      rw [htokens, Pi.single_zero, add_zero] at hrecorded
      exact (wp_pure _ _ _ _).mpr
        ((h.standing.putSP tx.ecosystem.toNat (newManagedEntry tx blockHash)).booked hok
          (by rw [hrecorded]))

/-- A property that is to be sold starts with no tokens, and with a crowdsale of its own. -/
theorem createPropertyVariable_booked (h : Booked tx.block used base s) (hleft : s.sps.IdsLeft) :
    wp (logicMathCreatePropertyVariable env tx) (fun _ s' => Booked tx.block used base s')
      (fun e _ => SparesFrozen e) s := by
  unfold logicMathCreatePropertyVariable
  rw [wp_bind, wp_get]
  cases env.blockHash tx.block with
  | none => exact h.refused _
  | some blockHash =>
      dsimp only
      refine h.unless_refused fun heco => ?_
      refine h.unless_refused fun _ => ?_
      refine h.unless_refused fun _ => ?_
      refine h.unless_refused fun _ => ?_
      refine h.unless_refused fun _ => ?_
      refine h.unless_refused fun _ => ?_
      refine h.unless_refused fun _ => ?_
      refine h.unless_refused fun _ => ?_
      refine h.unless_refused fun hsale => ?_
      have hunsold : (crowdsaleEntry tx blockHash).Unsold := ⟨rfl, rfl, rfl, rfl⟩
      obtain ⟨hok, hrecorded⟩ := h.ok.put hleft (crowdsaleEntry tx blockHash)
        (ecosystem_checked heco) (fun _ => rfl) rfl (by rw [hunsold.tokens]; decide)
      have hfresh := h.ok.next_fresh hleft (ecosystem_checked heco)
      have hnone : s.crowds[tx.sender]? = none := by
        rw [Bool.not_eq_true, ExtTreeMap.contains_eq_isSome_getElem?, Option.isSome_eq_false_iff,
          Option.isNone_iff_eq_none] at hsale
        exact hsale
      rw [wp_bind, wp_set, wp_bind, wp_assertThat]
      refine ⟨fun _ => ?_, fun _ => by decide⟩
      rw [putSP_fst, wp_bind, wp_modify, wp_pure]
      -- no other crowdsale has the identifier, which is new
      have hnone' :
          (s.settings.putSP tx.ecosystem.toNat (crowdsaleEntry tx blockHash)).crowds[tx.sender]? =
        none := hnone
      have hnew : (newCrowd tx (s.sps.peekNextSPID tx.ecosystem.toNat)).tokens = 0 := rfl
      have hsells : (s.settings.putSP tx.ecosystem.toNat (crowdsaleEntry tx blockHash)).Sells used
          tx.sender (newCrowd tx (s.sps.peekNextSPID tx.ecosystem.toNat)) := by
        refine ⟨⟨_, ?_, hunsold⟩, ⟨rfl, fun txid data hdata => ?_, le_rfl⟩, fun b other hb hid => ?_,
          fun old hold => ?_, ?_⟩
        · show (s.sps.putSP tx.ecosystem.toNat _).2.entries[s.sps.peekNextSPID _]? = _
          rw [Settings.entries_putSP, getElem?_insert_eq, if_pos rfl]
        · have hempty : (∅ : ExtTreeMap Txid (List Int))[txid]? = some data := hdata
          rw [ExtTreeMap.getElem?_empty] at hempty
          cases hempty
        · obtain ⟨⟨sp, hsp, -⟩, -⟩ := h.ok.sales b other hb
          rw [hid] at hsp
          exact absurd (hsp.symm.trans hfresh) (Option.some_ne_none sp)
        · exact absurd (hold.symm.trans hnone) (Option.some_ne_none old)
        · rw [hnone', hnew]
          exact (add_zero _).trans_le (hok.capped _)
      obtain ⟨hok', hrecorded'⟩ := hok.putCrowd hsells
      rw [hnone', hnew, Option.map_none, Option.getD_none, sub_zero, Pi.single_zero, add_zero, hrecorded,
        hunsold.tokens, Pi.single_zero, add_zero] at hrecorded'
      rw [insertIfNew_of_absent hnone]
      have hstanding : Standing tx.block
          ((s.settings.putSP tx.ecosystem.toNat (crowdsaleEntry tx blockHash)).putCrowd tx.sender
            (newCrowd tx (s.sps.peekNextSPID tx.ecosystem.toNat))) (s.settings.recorded + base)
          { s with
            sps := (s.sps.putSP tx.ecosystem.toNat (crowdsaleEntry tx blockHash)).2
            crowds := s.crowds.insert tx.sender
              (newCrowd tx (s.sps.peekNextSPID tx.ecosystem.toNat)) } :=
        h.standing.rewrite rfl rfl rfl rfl
      exact hstanding.booked hok' (by rw [hrecorded'])

end Creations

end OmniCore
