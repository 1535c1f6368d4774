import OmniCore.ContractRun
import OmniCore.Freeze
import OmniCore.Reset

/-! # FreezeReload — the freeze state after a restart

    `LoadFreezeState` processes the valid freezing transactions again, sorted by a text
    made of block and position, under the registry of today. It finds what live
    processing has left if the sort key keeps the order and every sender is still the
    issuer. -/

namespace OmniCore

open Std (ExtTreeMap ExtTreeSet)
open Machine TextRec MapSum Exec

/-! ## Who manages a property -/

/-- The property exists and is managed. -/
def CMPSPInfo.Managed (sps : CMPSPInfo) (propertyId : PropertyId) : Prop :=
  sps.isPropertyIdValid propertyId = true ∧
    ∃ sp, sps.getSP propertyId = some sp ∧ sp.manual = true

/-- The issuer on record. -/
def CMPSPInfo.issuerOf (sps : CMPSPInfo) (propertyId : PropertyId) : Option Text :=
  (sps.getSP propertyId).map SPEntry.issuer

/-- Everything a freezing transaction needs before the two sets are asked. -/
structure Permitted (env : FreezeEnv) (s : State) (tx : CMPTransaction) : Prop where
  block : (env.blockHash tx.block).isSome = true
  allowed : s.params.isTransactionTypeAllowed tx.block tx.property.toNat tx.type.toNat
    tx.version.toNat = true
  managed : s.sps.Managed tx.property.toNat
  issuer : s.sps.issuerOf tx.property.toNat = some tx.sender.text
  notFrozen : s.freezeSets.isAddressFrozen tx.sender tx.property.toNat = false

/-! ## One transaction -/

/-- A refused request leaves the two sets alone; an accepted one returns 0. -/
def Answers (f : FreezeSets) (code : Int) (f' : FreezeSets) : Prop :=
  code = 0 ∨ code < 0 ∧ f' = f

/-- Whatever a step does to the sets, it may return 0 afterwards. -/
theorem answers_after {x : FreezeM Unit} {f : FreezeSets} :
    wp (x >>= fun _ => (pure 0 : FreezeM Int)) (Answers f) (fun _ _ => True) f := by
  rw [wp_bind]
  refine wp_mono (wp_self x f) ?_ fun _ _ _ => trivial
  intro _ f' _
  exact (wp_pure _ _ _ _).mpr (Or.inl rfl)

theorem enableFreezingBody_answers (tx : CMPTransaction) (params : ConsensusParams)
    (f : FreezeSets) :
    wp (enableFreezingBody tx params) (Answers f) (fun _ _ => True) f := by
  unfold enableFreezingBody
  rw [wp_bind, wp_get, wp_ite]
  constructor
  · intro _
    exact (wp_pure _ _ _ _).mpr (Or.inr ⟨by decide, rfl⟩)
  · intro _
    exact answers_after

theorem disableFreezingBody_answers (pastEnd : Bool) (tx : CMPTransaction) (f : FreezeSets) :
    wp (disableFreezingBody pastEnd tx) (Answers f) (fun _ _ => True) f := by
  unfold disableFreezingBody
  rw [wp_bind, wp_get, wp_ite]
  constructor
  · intro _
    exact (wp_pure _ _ _ _).mpr (Or.inr ⟨by decide, rfl⟩)
  · intro _
    exact answers_after

theorem freezeTokensBody_answers (tx : CMPTransaction) (receiver : Address) (f : FreezeSets) :
    wp (freezeTokensBody tx receiver) (Answers f) (fun _ _ => True) f := by
  unfold freezeTokensBody
  rw [wp_bind, wp_get, wp_ite]
  constructor
  · intro _
    exact (wp_pure _ _ _ _).mpr (Or.inr ⟨by decide, rfl⟩)
  · intro _
    rw [wp_ite]
    constructor
    · intro _
      exact (wp_pure _ _ _ _).mpr (Or.inr ⟨by decide, rfl⟩)
    · intro _
      exact answers_after

theorem unfreezeTokensBody_answers (tx : CMPTransaction) (receiver : Address) (f : FreezeSets) :
    wp (unfreezeTokensBody tx receiver) (Answers f) (fun _ _ => True) f := by
  unfold unfreezeTokensBody
  rw [wp_bind, wp_get, wp_ite]
  constructor
  · intro _
    exact (wp_pure _ _ _ _).mpr (Or.inr ⟨by decide, rfl⟩)
  · intro _
    rw [wp_ite]
    constructor
    · intro _
      exact (wp_pure _ _ _ _).mpr (Or.inr ⟨by decide, rfl⟩)
    · intro _
      exact answers_after

theorem freezeBody_answers {env : FreezeEnv} {tx : CMPTransaction}
    {body : ConsensusParams → FreezeM Int} (h : freezeBody env tx = some body)
    (params : ConsensusParams) (f : FreezeSets) :
    wp (body params) (Answers f) (fun _ _ => True) f := by
  unfold freezeBody at h
  split at h
  · cases h
    exact enableFreezingBody_answers tx params f
  · cases h
    exact disableFreezingBody_answers env.pastEnd tx f
  · cases h
    exact freezeTokensBody_answers tx _ f
  · cases h
    exact unfreezeTokensBody_answers tx _ f
  · cases h

/-- **A FREEZING TRANSACTION** is refused and changes nothing, or it is permitted and does to the two
    sets what its type does. -/
theorem managedTx_spec {env : FreezeEnv} {s : State} {tx : CMPTransaction}
    {body : ConsensusParams → FreezeM Int} (hbody : freezeBody env tx = some body)
    (hfrozen : s.isAddressFrozen tx.sender tx.property.toNat = false) :
    wp (managedTx env tx body)
      (fun code s' => (code < 0 ∧ s' = s) ∨
        (code = 0 ∧ Permitted env s tx ∧
          ∃ f, body s.params s.freezeSets = .ok 0 f ∧ s' = s.withFreezeSets f))
      (fun _ _ => True) s := by
  unfold managedTx
  rw [wp_bind, wp_get, wp_ite]
  refine ⟨fun _ => (wp_pure _ _ _ _).mpr (Or.inl ⟨by decide, rfl⟩), ?_⟩
  intro hblock
  rw [wp_ite]
  refine ⟨fun _ => (wp_pure _ _ _ _).mpr (Or.inl ⟨by decide, rfl⟩), ?_⟩
  intro hallowed
  rw [wp_ite]
  refine ⟨fun _ => (wp_pure _ _ _ _).mpr (Or.inl ⟨by decide, rfl⟩), ?_⟩
  intro hvalid
  cases hsp : s.sps.getSP tx.property.toNat with
  | none => exact (wp_throw _ _ _ _).mpr trivial
  | some sp =>
      dsimp only
      rw [wp_ite]
      refine ⟨fun _ => (wp_pure _ _ _ _).mpr (Or.inl ⟨by decide, rfl⟩), ?_⟩
      intro hmanual
      rw [wp_ite]
      refine ⟨fun _ => (wp_pure _ _ _ _).mpr (Or.inl ⟨by decide, rfl⟩), ?_⟩
      intro hissuer
      rw [Bool.not_eq_true', Bool.not_eq_false] at hallowed hvalid hmanual
      rw [Option.isNone_iff_eq_none] at hblock
      rw [not_not] at hissuer
      have hpermitted : Permitted env s tx :=
        { block := Option.isSome_iff_ne_none.mpr hblock
          allowed := hallowed
          managed := ⟨hvalid, sp, hsp, hmanual⟩
          issuer := by
            unfold CMPSPInfo.issuerOf
            rw [hsp, hissuer]
            rfl
          notFrozen := hfrozen }
      unfold onFreezeSets
      rw [wp_zoom]
      refine wp_mono (wp_and (freezeBody_answers hbody s.params s.freezeSets)
        (wp_self (body s.params) s.freezeSets)) ?_ fun _ _ _ => trivial
      rintro code f ⟨hanswer, hrun⟩
      rcases hanswer with rfl | ⟨hneg, rfl⟩
      · exact Or.inr ⟨rfl, hpermitted, f, hrun, rfl⟩
      · exact Or.inl ⟨hneg, rfl⟩

/-- A permitted transaction is a step of the two sets. -/
theorem managedTx_permitted {env : FreezeEnv} {s : State} {tx : CMPTransaction}
    (body : ConsensusParams → FreezeM Int) (h : Permitted env s tx) :
    managedTx env tx body s = onFreezeSets (body s.params) s := by
  obtain ⟨hvalid, sp, hsp, hmanual⟩ := h.managed
  have hissuer : tx.sender.text = sp.issuer := by
    have := h.issuer
    unfold CMPSPInfo.issuerOf at this
    rw [hsp] at this
    exact (Option.some.inj this).symm
  have hblock : (env.blockHash tx.block).isNone = false := by
    rw [← Option.not_isSome, h.block]
    rfl
  unfold managedTx
  show (if (env.blockHash tx.block).isNone = true then _ else _ : ExecM Int) s = _
  rw [hblock, h.allowed, hvalid, hsp]
  dsimp only
  rw [hmanual, hissuer]
  simp

theorem CMPSPInfo.Managed.updateSP {sps : CMPSPInfo} {propertyId : PropertyId}
    (h : sps.Managed propertyId) {p : PropertyId} {sp : SPEntry} {issuer : Text} {block : Nat}
    (hsp : sps.getSP p = some sp) :
    (sps.updateSP p { sp with issuer := issuer, updateBlock := block }).2.Managed propertyId := by
  unfold CMPSPInfo.updateSP
  split
  · exact h
  · next himplied =>
      obtain ⟨hvalid, old, hold, hmanual⟩ := h
      refine ⟨hvalid, ?_⟩
      by_cases hp : p = propertyId
      · subst hp
        have hnone : impliedSP p = none := by simpa using himplied
        have hsame : sp = old := Option.some.inj (hsp.symm.trans hold)
        refine ⟨{ sp with issuer := issuer, updateBlock := block }, ?_, by rw [hsame]; exact hmanual⟩
        unfold CMPSPInfo.getSP
        rw [hnone]
        exact Std.ExtTreeMap.getElem?_insert_self
      · refine ⟨old, ?_, hmanual⟩
        rw [← hold]
        unfold CMPSPInfo.getSP
        dsimp only
        rw [getElem?_insert_eq, if_neg hp]

/-- What lies beside the two sets, the registry and the crowdsales. -/
structure SameBeside (s s' : State) : Prop where
  params : s'.params = s.params
  txList : s'.txList = s.txList
  omniTxDb : s'.omniTxDb = s.omniTxDb
  managed : ∀ p, s.sps.Managed p → s'.sps.Managed p

theorem SameBeside.refl (s : State) : SameBeside s s := ⟨rfl, rfl, rfl, fun _ h => h⟩

/-- A change of the issuer leaves the two sets and the managed properties alone. -/
theorem logicMathChangeIssuer_spec (env : FreezeEnv) (tx : CMPTransaction) (s : State) :
    wp (logicMathChangeIssuer env tx)
      (fun _ s' => SameBeside s s' ∧ s'.freezeSets = s.freezeSets) (fun _ _ => True) s := by
  have hrefused : ∀ code : Int, wp (pure code : ExecM Int)
      (fun _ s' => SameBeside s s' ∧ s'.freezeSets = s.freezeSets) (fun _ _ => True) s :=
    fun code => (wp_pure _ _ _ _).mpr ⟨SameBeside.refl s, rfl⟩
  unfold logicMathChangeIssuer
  rw [wp_bind, wp_get]
  cases env.blockHash tx.block with
  | none => exact hrefused _
  | some blockHash =>
      dsimp only
      rw [wp_ite]
      refine ⟨fun _ => hrefused _, fun _ => ?_⟩
      rw [wp_ite]
      refine ⟨fun _ => hrefused _, fun _ => ?_⟩
      cases hsp : s.sps.getSP tx.property.toNat with
      | none => exact (wp_throw _ _ _ _).mpr trivial
      | some sp =>
          dsimp only
          rw [wp_ite]
          refine ⟨fun _ => hrefused _, fun _ => ?_⟩
          rw [wp_ite]
          refine ⟨fun _ => hrefused _, fun _ => ?_⟩
          cases tx.receiver with
          | none => exact hrefused _
          | some receiver =>
              dsimp only
              rw [wp_ite]
              refine ⟨fun _ => hrefused _, fun _ => ?_⟩
              rw [wp_bind, wp_assertThat]
              refine ⟨fun _ => ?_, fun _ => trivial⟩
              rw [wp_bind, wp_set, wp_pure]
              exact ⟨⟨rfl, rfl, rfl, fun p hp => hp.updateSP hsp⟩, rfl⟩

/-- The transaction, if it is a freezing transaction that was accepted. -/
def validFreeze (tx : CMPTransaction) (code : Int) : List CMPTransaction :=
  if (isFreezeType tx.type.toNat && decide (0 ≤ code)) = true then [tx] else []

/-- The four types have a body, unless a freeze lacks its address; a change of the issuer is none
    of them. -/
theorem freezeBody_isSome (env : FreezeEnv) {tx : CMPTransaction}
    (htype : isFreezeType tx.type.toNat = true)
    (hreceiver : ¬((tx.type = 185 ∨ tx.type = 186) ∧ tx.receiver = none)) :
    ∃ body, freezeBody env tx = some body := by
  have hmem : tx.type.toNat = 71 ∨ tx.type.toNat = 72 ∨ tx.type.toNat = 185 ∨
      tx.type.toNat = 186 := by
    have hlt := tx.type.toNat_lt
    have hmod : ((tx.type.toNat : Int) % 2 ^ 16) = tx.type.toNat := by omega
    unfold isFreezeType at htype
    rw [hmod] at htype
    simp only [List.contains_cons, List.contains_nil, Bool.or_false, Bool.or_eq_true,
      beq_iff_eq] at htype
    omega
  have hsome : tx.type.toNat = 185 ∨ tx.type.toNat = 186 → ∃ a, tx.receiver = some a := by
    intro h
    refine Option.ne_none_iff_exists'.mp fun hnone => hreceiver ⟨?_, hnone⟩
    exact h.imp (fun h => UInt16.toNat_inj.mp h) fun h => UInt16.toNat_inj.mp h
  unfold freezeBody
  rcases hmem with h | h | h | h
  · rw [h]
    exact ⟨_, rfl⟩
  · rw [h]
    exact ⟨_, rfl⟩
  · obtain ⟨a, ha⟩ := hsome (Or.inl h)
    rw [h, ha]
    exact ⟨_, rfl⟩
  · obtain ⟨a, ha⟩ := hsome (Or.inr h)
    rw [h, ha]
    exact ⟨_, rfl⟩

theorem type_ne_of_isFreezeType {tx : CMPTransaction} (h : isFreezeType tx.type.toNat = true) :
    ¬tx.type = 70 := by
  intro h70
  rw [h70] at h
  revert h
  decide

/-- **WHAT IS PROCESSED LIVE**: everything but the two sets, the registry and the crowdsales stays;
    an accepted freezing transaction was permitted and did what its type does, any other
    transaction leaves the two sets alone. -/
theorem interpretFreezePacket_spec {env : FreezeEnv} {s : State} {tx : CMPTransaction}
    (htype : tx.type = 70 ∨ isFreezeType tx.type.toNat = true) :
    wp (interpretFreezePacket env tx)
      (fun code s' => SameBeside s s' ∧
        ((validFreeze tx code = [] ∧ s'.freezeSets = s.freezeSets) ∨
          (validFreeze tx code = [tx] ∧ Permitted env s tx ∧
            ¬((tx.type = 185 ∨ tx.type = 186) ∧ tx.receiver = none) ∧
            ∃ body f, freezeBody env tx = some body ∧
              body s.params s.freezeSets = .ok 0 f ∧ s'.freezeSets = f)))
      (fun _ _ => True) s := by
  have hnegative : ∀ code : Int, code < 0 → validFreeze tx code = [] := by
    intro code hcode
    unfold validFreeze
    rw [decide_eq_false (by omega), Bool.and_false]
    rfl
  unfold interpretFreezePacket
  rw [wp_bind, wp_get, wp_ite]
  constructor
  · intro _
    exact (wp_pure _ _ _ _).mpr ⟨SameBeside.refl s, Or.inl ⟨hnegative _ (by decide), rfl⟩⟩
  intro hreceiver
  rw [wp_ite]
  constructor
  · intro _
    exact (wp_pure _ _ _ _).mpr ⟨SameBeside.refl s, Or.inl ⟨hnegative _ (by decide), rfl⟩⟩
  intro hfrozen
  rw [Bool.not_eq_true] at hfrozen
  rw [wp_ite]
  constructor
  · intro h70
    refine wp_imp (logicMathChangeIssuer_spec env tx s) ?_
    intro code s' hs'
    have hnone : validFreeze tx code = [] := by
      unfold validFreeze
      rw [h70]
      rfl
    exact ⟨hs'.1, Or.inl ⟨hnone, hs'.2⟩⟩
  · intro h70
    have hfreeze := htype.resolve_left h70
    obtain ⟨body, hbody⟩ := freezeBody_isSome env hfreeze hreceiver
    rw [hbody]
    refine wp_imp (managedTx_spec hbody hfrozen) ?_
    intro code s' hs'
    rcases hs' with ⟨hneg, rfl⟩ | ⟨rfl, hpermitted, f, hrun, rfl⟩
    · exact ⟨SameBeside.refl _, Or.inl ⟨hnegative _ hneg, rfl⟩⟩
    · refine ⟨⟨rfl, rfl, rfl, fun _ h => h⟩, Or.inr ⟨?_, hpermitted, hreceiver, body, f, rfl, hrun, rfl⟩⟩
      unfold validFreeze
      rw [hfreeze]
      rfl

/-! ## Histories -/

/-- The rest of the node goes on between the transactions: whatever happens there leaves the two
    sets and the records alone, and a managed property managed. -/
structure OtherActivity (s s' : State) : Prop where
  beside : SameBeside s s'
  sets : s'.freezeSets = s.freezeSets

/-- A node that started in `start`, has handled the transactions of the first list and accepted the
    freezing transactions of the second. -/
inductive FreezeRun (env : FreezeEnv) (start : State) :
    List CMPTransaction → List CMPTransaction → State → Prop
  | start : FreezeRun env start [] [] start
  | tx {handled valid : List CMPTransaction} {s s' : State} {tx : CMPTransaction} {code : Int} :
      FreezeRun env start handled valid s → handleFreezeTx env tx s = .ok code s' →
      FreezeRun env start (handled ++ [tx]) (valid ++ validFreeze tx code) s'
  | other {handled valid : List CMPTransaction} {s s' : State} :
      FreezeRun env start handled valid s → OtherActivity s s' →
      FreezeRun env start handled valid s'

/-- The transactions are of the five types, lie below the height, each has its own hash, and `chain`
    finds them again; none is on record at the start. -/
structure FreezeHistory (chain : Txid → Option CMPTransaction) (blockHeight : Nat) (start : State)
    (handled : List CMPTransaction) : Prop where
  type : ∀ tx ∈ handled, tx.type = 70 ∨ isFreezeType tx.type.toNat = true
  txid : ∀ tx ∈ handled, tx.txid < 2 ^ 256
  position : ∀ tx ∈ handled, tx.txIdx < 2 ^ 32
  height : ∀ tx ∈ handled, tx.block ≤ blockHeight
  distinct : (handled.map CMPTransaction.txid).Nodup
  /-- a transaction is parsed again at position 0 of its block -/
  found : ∀ tx ∈ handled, chain tx.txid = some { tx with txIdx := 0 }
  unrecorded : ∀ tx ∈ handled, start.txList[txidText tx.txid]? = none

/-- Nothing is frozen and no freezing transaction is on record. -/
structure FreezeStart (start : State) : Prop where
  sets : start.freezeSets = ⟨∅, ∅⟩
  records : scanTxList isFreezeType start.txList = []

/-- The node after a restart: databases, registry and parameters are those of the live node, and
    the two sets are empty. -/
structure FreezeRestarted (live r : State) : Prop where
  params : r.params = live.params
  sps : r.sps = live.sps
  txList : r.txList = live.txList
  omniTxDb : r.omniTxDb = live.omniTxDb
  sets : r.freezeSets = ⟨∅, ∅⟩

/-- The key by which a transaction is sorted. -/
def CMPTransaction.freezeKey (tx : CMPTransaction) : Text × Txid :=
  (freezeSortKey tx.block tx.txIdx, tx.txid)

/-! ## The reload follows the history -/

section Reload

variable {env : FreezeEnv} {chain : Txid → Option CMPTransaction} {blockHeight : Nat}

theorem FreezeHistory.init {start : State} {handled : List CMPTransaction} {tx : CMPTransaction}
    (h : FreezeHistory chain blockHeight start (handled ++ [tx])) :
    FreezeHistory chain blockHeight start handled where
  type t ht := h.type t (by simp [ht])
  txid t ht := h.txid t (by simp [ht])
  position t ht := h.position t (by simp [ht])
  height t ht := h.height t (by simp [ht])
  distinct := by
    have := h.distinct
    rw [List.map_append] at this
    exact (List.nodup_append.mp this).1
  found t ht := h.found t (by simp [ht])
  unrecorded t ht := h.unrecorded t (by simp [ht])

/-- The last hash of a history is a new one. -/
theorem FreezeHistory.txid_ne {start : State} {handled : List CMPTransaction} {tx t : CMPTransaction}
    (h : FreezeHistory chain blockHeight start (handled ++ [tx])) (ht : t ∈ handled) :
    t.txid ≠ tx.txid := by
  have hnodup := h.distinct
  rw [List.map_append, List.nodup_append] at hnodup
  exact hnodup.2.2 _ (List.mem_map_of_mem ht) _ (by simp)

theorem reloadFreezes_cons (e : Text × Txid) (rest : List (Text × Txid)) :
    reloadFreezes env chain blockHeight (e :: rest) =
      (match chain e.2 with
      | none => pure false
      | some tx =>
          if blockHeight < tx.block then pure false
          else if !isFreezeType tx.type.toNat then pure false
          else do
            let interpRet ← interpretFreezePacket env tx
            if interpRet ≠ 0 then pure false
            else reloadFreezes env chain blockHeight rest) := rfl

/-- A reload that succeeds on a first part goes on with the second. -/
theorem wp_reloadFreezes_append {l l' : List (Text × Txid)} {Q : Bool → State → Prop} {r : State}
    (h : wp (reloadFreezes env chain blockHeight l)
      (fun ok r' => ok = true ∧ wp (reloadFreezes env chain blockHeight l') Q (fun _ _ => False) r')
      (fun _ _ => False) r) :
    wp (reloadFreezes env chain blockHeight (l ++ l')) Q (fun _ _ => False) r := by
  induction l generalizing r with
  | nil => exact ((wp_pure _ _ _ _).mp h).2
  | cons e rest ih =>
      rw [List.cons_append]
      rw [reloadFreezes_cons e rest] at h
      rw [reloadFreezes_cons e (rest ++ l')]
      cases hchain : chain e.2 with
      | none =>
          rw [hchain] at h
          exact absurd ((wp_pure _ _ _ _).mp h).1 (by decide)
      | some tx =>
          rw [hchain] at h
          dsimp only at h ⊢
          rw [wp_ite] at h ⊢
          refine ⟨fun hlt => absurd ((wp_pure _ _ _ _).mp (h.1 hlt)).1 (by decide), fun hge => ?_⟩
          have h := h.2 hge
          rw [wp_ite] at h ⊢
          refine ⟨fun ht => absurd ((wp_pure _ _ _ _).mp (h.1 ht)).1 (by decide), fun ht => ?_⟩
          have h := h.2 ht
          rw [wp_bind] at h ⊢
          refine wp_imp h ?_
          intro code r' h
          rw [wp_ite] at h ⊢
          exact ⟨fun hcode => absurd ((wp_pure _ _ _ _).mp (h.1 hcode)).1 (by decide),
            fun hcode => ih (h.2 hcode)⟩

/-- A permitted transaction with the same two sets does the same to them. -/
theorem interpretFreezePacket_permitted {r : State} {tx : CMPTransaction}
    {body : ConsensusParams → FreezeM Int} {f : FreezeSets}
    (htype : isFreezeType tx.type.toNat = true)
    (hreceiver : ¬((tx.type = 185 ∨ tx.type = 186) ∧ tx.receiver = none))
    (hpermitted : Permitted env r tx) (hbody : freezeBody env tx = some body)
    (hrun : body r.params r.freezeSets = .ok 0 f) :
    wp (interpretFreezePacket env tx) (fun code r' => code = 0 ∧ r' = r.withFreezeSets f)
      (fun _ _ => False) r := by
  have hfrozen : r.isAddressFrozen tx.sender tx.property.toNat = false := hpermitted.notFrozen
  unfold interpretFreezePacket
  rw [wp_bind, wp_get, if_neg hreceiver, hfrozen, if_neg Bool.false_ne_true,
    if_neg (type_ne_of_isFreezeType htype), hbody]
  have hstep : managedTx env tx body r = .ok 0 (r.withFreezeSets f) := by
    rw [managedTx_permitted body hpermitted]
    unfold onFreezeSets zoom
    rw [hrun]
  show wp (managedTx env tx body) _ _ r
  refine wp_iff.mpr ?_
  rw [hstep]
  exact ⟨rfl, rfl⟩

/-- What holds of a live node: processing its valid freezing transactions again ends with the same
    two sets, under any registry that still knows their senders as issuers. -/
structure Mirrored (env : FreezeEnv) (chain : Txid → Option CMPTransaction) (blockHeight : Nat)
    (start : State) (handled valid : List CMPTransaction) (s : State) : Prop where
  subset : ∀ tx ∈ valid, tx ∈ handled
  managed : ∀ tx ∈ valid, s.sps.Managed tx.property.toNat
  reload : ∀ r, r.params = s.params → r.freezeSets = ⟨∅, ∅⟩ →
    (∀ tx ∈ valid, r.sps.Managed tx.property.toNat ∧
      r.sps.issuerOf tx.property.toNat = some tx.sender.text) →
    wp (reloadFreezes env chain blockHeight (valid.map CMPTransaction.freezeKey))
      (fun ok r' => ok = true ∧ r'.params = r.params ∧ r'.sps = r.sps ∧
        r'.freezeSets = s.freezeSets) (fun _ _ => False) r
  recorded : ∃ records : List TxRecord, s.txList = records.foldl recordTX start.txList ∧
    (records.map TxRecord.txid).Sublist (handled.map CMPTransaction.txid) ∧
    ((records.filter fun r => isFreezeType r.type && r.valid).map fun r =>
      ((r.block : Int), r.txid)) = valid.map fun tx => ((tx.block : Int), tx.txid)
  positions : ∀ tx ∈ valid, fetchTransactionPosition s.omniTxDb tx.txid = some tx.txIdx

theorem mirrored_start {start : State} (h : FreezeStart start) :
    Mirrored env chain blockHeight start [] [] start where
  subset _ ht := ht
  managed _ ht := by cases ht
  reload r _ hsets _ := (wp_pure _ _ _ _).mpr ⟨rfl, rfl, rfl, hsets.trans h.sets.symm⟩
  recorded := ⟨[], rfl, List.Sublist.refl _, rfl⟩
  positions _ ht := by cases ht

theorem Mirrored.other {start s s' : State} {handled valid : List CMPTransaction}
    (h : Mirrored env chain blockHeight start handled valid s) (hother : OtherActivity s s') :
    Mirrored env chain blockHeight start handled valid s' where
  subset := h.subset
  managed tx ht := hother.beside.managed _ (h.managed tx ht)
  reload r hparams hsets hsps := by
    rw [hother.sets]
    exact h.reload r (hparams.trans hother.beside.params) hsets hsps
  recorded := by
    rw [hother.beside.txList]
    exact h.recorded
  positions := by
    rw [hother.beside.omniTxDb]
    exact h.positions

/-- Handling a transaction is processing it and writing two records. -/
theorem handleFreezeTx_spec {s : State} {tx : CMPTransaction}
    (htype : tx.type = 70 ∨ isFreezeType tx.type.toNat = true) :
    wp (handleFreezeTx env tx)
      (fun code s' => ∃ t, SameBeside s t ∧ s'.params = t.params ∧ s'.sps = t.sps ∧
        s'.freezeSets = t.freezeSets ∧
        ((s'.txList = t.txList ∧ s'.omniTxDb = t.omniTxDb ∧ validFreeze tx code = []) ∨
          (s'.txList = recordTX t.txList
              ⟨tx.txid, decide (0 ≤ code), tx.block, tx.type.toNat, tx.nNewValue.toNat⟩ ∧
            s'.omniTxDb = recordTransaction t.omniTxDb tx.txid tx.txIdx code)) ∧
        ((validFreeze tx code = [] ∧ t.freezeSets = s.freezeSets) ∨
          (validFreeze tx code = [tx] ∧ Permitted env s tx ∧
            ¬((tx.type = 185 ∨ tx.type = 186) ∧ tx.receiver = none) ∧
            ∃ body f, freezeBody env tx = some body ∧
              body s.params s.freezeSets = .ok 0 f ∧ t.freezeSets = f)))
      (fun _ _ => True) s := by
  unfold handleFreezeTx
  rw [wp_bind]
  refine wp_imp (interpretFreezePacket_spec htype) ?_
  intro code t ⟨hbeside, hdone⟩
  rw [wp_ite]
  constructor
  · intro _
    rw [wp_bind, wp_modify, wp_pure]
    exact ⟨t, hbeside, rfl, rfl, rfl, Or.inr ⟨rfl, rfl⟩, hdone⟩
  · intro hcode
    rw [wp_pure]
    refine ⟨t, hbeside, rfl, rfl, rfl, Or.inl ⟨rfl, rfl, ?_⟩, hdone⟩
    rw [not_not] at hcode
    unfold validFreeze
    rw [hcode]
    exact if_neg (by simp [pktError])

/-- The position on record is read back. -/
theorem fetchTransactionPosition_record (db : TextDB) {txid txid' : Txid} {pos : Nat} (code : Int)
    (htxid : txid < 2 ^ 256) (htxid' : txid' < 2 ^ 256) (hpos : pos < 2 ^ 32) :
    fetchTransactionPosition (recordTransaction db txid pos code) txid' =
      if txid = txid' then some pos else fetchTransactionPosition db txid' := by
  unfold fetchTransactionPosition recordTransaction
  rw [getElem?_insert_eq]
  by_cases heq : txid = txid'
  · rw [if_pos (congrArg txidText heq), if_pos heq]
    dsimp only
    have hsplit : split isColon (joinWith ':' [decNat pos, decInt code]) =
        [decNat pos, decInt code] := by
      refine split_joinWith (by decide) (by simp) ?_ ?_
      · intro t ht
        simp only [List.mem_cons, List.not_mem_nil, or_false] at ht
        rcases ht with rfl | rfl
        · exact free_decNat isColon_of_isDigit _
        · exact free_decInt isColon_of_isDigit (by decide) _
      · intro t ht
        simp only [List.mem_cons, List.not_mem_nil, or_false] at ht
        rcases ht with rfl | rfl
        · exact decNat_ne_nil _
        · exact decInt_ne_nil _
    rw [hsplit]
    exact castNat_decNat hpos
  · have hkey : ¬txidText txid = txidText txid' := by
      intro h
      refine heq ?_
      rw [← uint256S_txidText htxid, h, uint256S_txidText htxid']
    rw [if_neg hkey, if_neg heq]

/-- **ONE TRANSACTION** keeps the live node and its reload in step. -/
theorem Mirrored.tx {start s s' : State} {handled valid : List CMPTransaction} {tx : CMPTransaction}
    {code : Int} (h : Mirrored env chain blockHeight start handled valid s)
    (hhistory : FreezeHistory chain blockHeight start (handled ++ [tx]))
    (hrun : handleFreezeTx env tx s = .ok code s') :
    Mirrored env chain blockHeight start (handled ++ [tx]) (valid ++ validFreeze tx code) s' := by
  have htx : tx ∈ handled ++ [tx] := by simp
  obtain ⟨t, hbeside, hparams, hsps, hsets, hrecord, hdone⟩ :=
    wp_ok (handleFreezeTx_spec (hhistory.type tx htx)) hrun
  refine { subset := ?_, managed := ?_, reload := ?_, recorded := ?_, positions := ?_ }
  · intro u hu
    rcases List.mem_append.mp hu with hu | hu
    · exact List.mem_append_left _ (h.subset u hu)
    · rcases hdone with ⟨hnone, _⟩ | ⟨hone, _⟩
      · rw [hnone] at hu
        cases hu
      · rw [hone] at hu
        exact List.mem_append_right _ hu
  · intro u hu
    rw [hsps]
    refine hbeside.managed _ ?_
    rcases List.mem_append.mp hu with hu | hu
    · exact h.managed u hu
    · rcases hdone with ⟨hnone, _⟩ | ⟨hone, hpermitted, _⟩
      · rw [hnone] at hu
        cases hu
      · rw [hone, List.mem_singleton] at hu
        rw [hu]
        exact hpermitted.managed
  · intro r hr hrsets hrsps
    rw [hparams, hbeside.params] at hr
    have hbefore := h.reload r hr hrsets fun u hu => hrsps u (List.mem_append_left _ hu)
    rw [hsets]
    rcases hdone with ⟨hnone, hsame⟩ | ⟨hone, hpermitted, hreceiver, body, f, hbody, hstep, hf⟩
    · rw [hnone, List.append_nil, hsame]
      exact hbefore
    · rw [hone, hf, List.map_append]
      refine wp_reloadFreezes_append (wp_imp hbefore ?_)
      rintro ok r' ⟨rfl, hparams', hsps', hsets'⟩
      refine ⟨rfl, ?_⟩
      have hfreeze : isFreezeType tx.type.toNat = true := by
        by_contra hno
        unfold validFreeze at hone
        rw [Bool.not_eq_true] at hno
        rw [hno] at hone
        cases hone
      -- the registry of the reload permits the transaction as well
      have hpermitted' : Permitted env r' { tx with txIdx := 0 } := by
        obtain ⟨hmanaged, hissuer⟩ := hrsps tx (by rw [hone]; simp)
        refine ⟨hpermitted.block, ?_, ?_, ?_, ?_⟩
        · rw [hparams', hr]
          exact hpermitted.allowed
        · rw [hsps']
          exact hmanaged
        · rw [hsps']
          exact hissuer
        · rw [hsets']
          exact hpermitted.notFrozen
      have hheight := hhistory.height tx htx
      rw [List.map_singleton, reloadFreezes_cons]
      have hfound : chain (tx.freezeKey).2 = some { tx with txIdx := 0 } := hhistory.found tx htx
      rw [hfound]
      dsimp only
      rw [if_neg (by omega), hfreeze, if_neg (by decide), wp_bind]
      refine wp_imp (interpretFreezePacket_permitted (f := f) hfreeze hreceiver hpermitted' hbody
        ?_) ?_
      · rw [hparams', hr, hsets']
        exact hstep
      · rintro _ r'' ⟨rfl, rfl⟩
        rw [if_neg (by decide)]
        exact (wp_pure _ _ _ _).mpr ⟨rfl, hparams', hsps', rfl⟩
  · obtain ⟨records, hlist, htxids, hvalid⟩ := h.recorded
    rcases hrecord with ⟨hkeep, _, hnone⟩ | ⟨hnew, _⟩
    · refine ⟨records, ?_, ?_, ?_⟩
      · rw [hkeep, hbeside.txList, hlist]
      · rw [List.map_append]
        exact htxids.trans (List.sublist_append_left _ _)
      · rw [hvalid, hnone, List.append_nil]
    · refine ⟨records ++ [⟨tx.txid, decide (0 ≤ code), tx.block, tx.type.toNat,
        tx.nNewValue.toNat⟩], ?_, ?_, ?_⟩
      · rw [hnew, hbeside.txList, hlist, List.foldl_append]
        rfl
      · rw [List.map_append, List.map_append]
        exact htxids.append (List.Sublist.refl _)
      · rw [List.filter_append, List.map_append, hvalid, List.map_append, List.filter_singleton]
        unfold validFreeze
        dsimp only
        cases isFreezeType tx.type.toNat && decide (0 ≤ code) with
        | true => rfl
        | false => rfl
  · intro u hu
    have hpositions : ∀ u ∈ valid, u.txid ≠ tx.txid := fun u hu =>
      hhistory.txid_ne (h.subset u hu)
    rcases hrecord with ⟨_, hkeep, hnone⟩ | ⟨_, hnew⟩
    · rw [hnone, List.append_nil] at hu
      rw [hkeep, hbeside.omniTxDb]
      exact h.positions u hu
    · have hu' : u ∈ handled ++ [tx] := by
        rcases List.mem_append.mp hu with hu | hu
        · exact List.mem_append_left _ (h.subset u hu)
        · unfold validFreeze at hu
          split at hu
          · exact List.mem_append_right _ hu
          · cases hu
      rw [hnew, hbeside.omniTxDb, fetchTransactionPosition_record _ code (hhistory.txid tx htx)
        (hhistory.txid u hu') (hhistory.position tx htx)]
      rcases List.mem_append.mp hu with hu | hu
      · rw [if_neg (hpositions u hu).symm]
        exact h.positions u hu
      · have hsame : u = tx := by
          unfold validFreeze at hu
          split at hu
          · exact List.mem_singleton.mp hu
          · cases hu
        rw [hsame, if_pos rfl]

/-- **A WHOLE HISTORY** keeps the live node and its reload in step. -/
theorem FreezeRun.mirrored {start s : State} {handled valid : List CMPTransaction}
    (hrun : FreezeRun env start handled valid s) (hstart : FreezeStart start)
    (hhistory : FreezeHistory chain blockHeight start handled) :
    Mirrored env chain blockHeight start handled valid s := by
  induction hrun with
  | start => exact mirrored_start hstart
  | tx _ hstep ih => exact (ih hhistory.init).tx hhistory hstep
  | other _ hother ih => exact (ih hhistory).other hother

/-- What is on record are the valid freezing transactions, each with its key. -/
theorem Mirrored.loadOrder {start live r : State} {handled valid : List CMPTransaction}
    (h : Mirrored env chain blockHeight start handled valid live) (hstart : FreezeStart start)
    (hhistory : FreezeHistory chain blockHeight start handled) (hr : FreezeRestarted live r) :
    ∃ keyed, freezeLoadOrder r = some keyed ∧ keyed.Perm (valid.map CMPTransaction.freezeKey) := by
  obtain ⟨records, hlist, htxids, hvalid⟩ := h.recorded
  have hof : ∀ record ∈ records, ∃ tx ∈ handled, tx.txid = record.txid := fun record hrecord =>
    List.mem_map.mp (htxids.subset (List.mem_map_of_mem hrecord))
  have hscan : (scanTxList isFreezeType r.txList).Perm
      (valid.map fun tx => ((tx.block : Int), tx.txid)) := by
    rw [hr.txList, hlist, ← hvalid]
    refine scanTxList_perm isFreezeType hstart.records ?_ (htxids.nodup hhistory.distinct) ?_
    · intro record hrecord
      obtain ⟨tx, htx, heq⟩ := hof record hrecord
      rw [← heq]
      exact hhistory.unrecorded tx htx
    · intro record hrecord
      obtain ⟨tx, htx, heq⟩ := hof record hrecord
      rw [← heq]
      exact hhistory.txid tx htx
  have hfetch : ∀ e ∈ scanTxList isFreezeType r.txList,
      ((fetchTransactionPosition r.omniTxDb e.2).map fun txPosition =>
        (freezeSortKey e.1 txPosition, e.2)) =
      some (freezeSortKey e.1 ((fetchTransactionPosition r.omniTxDb e.2).getD 0), e.2) := by
    intro e he
    obtain ⟨tx, htx, rfl⟩ := List.mem_map.mp (hscan.mem_iff.mp he)
    rw [hr.omniTxDb]
    dsimp only
    rw [h.positions tx htx]
    rfl
  refine ⟨_, mapM_eq_some_map hfetch, ?_⟩
  refine (hscan.map _).trans ?_
  rw [List.map_map]
  refine List.Perm.of_eq (List.map_congr_left ?_)
  intro tx htx
  dsimp only [Function.comp]
  rw [hr.omniTxDb, h.positions tx htx]
  rfl

end Reload

/-- Below block 1000000 the sort keys are in the order of block and position. -/
theorem freezeSortKey_lt {b b' pos pos' : Nat} (hb : b < 10 ^ 6) (hb' : b' < 10 ^ 6)
    (hpos : pos < 2 ^ 31) (hpos' : pos' < 2 ^ 31) (h : b < b' ∨ b = b' ∧ pos < pos') :
    compare (freezeSortKey b pos) (freezeSortKey b' pos') = .lt := by
  have hkey : ∀ b pos : Nat, pos < 2 ^ 31 →
      freezeSortKey b pos = padNat 6 b ++ (padNat 10 pos ++ []) := by
    intro b pos hpos
    have hint : Int.bmod pos (2 ^ 32) = pos := by
      rw [Int.bmod_eq_of_le] <;> omega
    unfold freezeSortKey padInt
    rw [hint, if_neg (by omega), if_neg (by omega), List.append_nil]
    rfl
  rw [hkey b pos hpos, hkey b' pos' hpos', compare_padNat_append (by omega) hb hb',
    compare_padNat_append (by omega) (by omega) (by omega)]
  rcases h with hlt | ⟨rfl, hlt⟩
  · rw [Nat.compare_eq_lt.mpr hlt]
    rfl
  · rw [Nat.compare_eq_eq.mpr rfl, Nat.compare_eq_lt.mpr hlt]
    rfl

/-- **THE FREEZE STATE SURVIVES A RESTART** if the sort keys of the valid freezing transactions
    increase in the order of processing, every sender is still the issuer of its property, and, high
    up on the main network, there are at least two of them. -/
theorem freezeState_survives_restart {env : FreezeEnv} {chain : Txid → Option CMPTransaction}
    {mainNet : Bool} {blockHeight : Nat} {start live r : State}
    {handled valid : List CMPTransaction} (hstart : FreezeStart start)
    (hhistory : FreezeHistory chain blockHeight start handled)
    (hrun : FreezeRun env start handled valid live)
    (horder : valid.Pairwise fun t t' =>
      compare (freezeSortKey t.block t.txIdx) (freezeSortKey t'.block t'.txIdx) = .lt)
    (hissuer : ∀ tx ∈ valid, live.sps.issuerOf tx.property.toNat = some tx.sender.text)
    (hsane : 497000 < blockHeight → mainNet = true → 2 ≤ valid.length)
    (hr : FreezeRestarted live r) :
    ∃ r', loadFreezeState env chain mainNet blockHeight r = .ok true r' ∧
      r'.freezingEnabled = live.freezingEnabled ∧ r'.frozenAddresses = live.frozenAddresses := by
  have hmirrored := hrun.mirrored hstart hhistory
  obtain ⟨keyed, hkeyed, hperm⟩ := hmirrored.loadOrder hstart hhistory hr
  have hsort : sortBy loadCmp keyed = valid.map CMPTransaction.freezeKey := by
    refine sortBy_eq_of_strict hperm (List.pairwise_map.mpr (horder.imp ?_))
    intro t t' hlt
    show (compare (freezeSortKey t.block t.txIdx) (freezeSortKey t'.block t'.txIdx)).then _ = .lt
    rw [hlt]
    rfl
  have hload : wp (loadFreezeState env chain mainNet blockHeight)
      (fun ok r' => ok = true ∧ r'.freezeSets = live.freezeSets) (fun _ _ => False) r := by
    unfold loadFreezeState
    rw [wp_bind, wp_get, hkeyed]
    dsimp only
    rw [hsort, wp_bind]
    refine wp_imp (hmirrored.reload r hr.params hr.sets ?_) ?_
    · intro tx htx
      rw [hr.sps]
      exact ⟨hmirrored.managed tx htx, hissuer tx htx⟩
    · rintro ok r' ⟨rfl, _, _, hsets⟩
      rw [if_neg (by decide), List.length_map, wp_ite, wp_bind, wp_assertThat, wp_pure]
      refine ⟨fun hmain => ⟨fun _ => ⟨rfl, hsets⟩, fun hfew => ?_⟩, fun _ => ⟨rfl, hsets⟩⟩
      exact of_decide_eq_false hfew (hsane hmain.1 hmain.2)
  obtain ⟨ok, r', hok, rfl, hsets⟩ := wp_returns hload
  exact ⟨r', hok, congrArg FreezeSets.enabled hsets, congrArg FreezeSets.frozen hsets⟩

/-! ## A managed property on the regression test network -/

/-- Every height of the active chain has a block. -/
def someEnv : FreezeEnv := ⟨fun height => some height, true⟩

/-- Property 4, managed by the first trader. -/
def managedEntry : SPEntry :=
  { impliedEntry 1 [] [] ['M'] [] [] with issuer := traderA.text, manual := true, txid := 4 }

/-- A node that knows this one property. -/
def managedStart : State :=
  { State.started regTestParams false with
    sps := { CMPSPInfo.init with
      entries := (∅ : ExtTreeMap PropertyId SPEntry).insert 4 managedEntry, nextSPID := 5 } }

/-- The issuer enables freezing. -/
def enableTx : CMPTransaction :=
  { txid := 21, block := 102, txIdx := 1, sender := traderA, type := 71, property := 4 }

/-- The issuer freezes the second trader. -/
def freezeTx : CMPTransaction :=
  { txid := 22, block := 103, txIdx := 1, sender := traderA, receiver := some traderB, type := 185,
    property := 4 }

/-- The issuer hands the property on to the second trader. -/
def changeIssuerTx : CMPTransaction :=
  { txid := 23, block := 103, txIdx := 1, sender := traderA, receiver := some traderB, type := 70,
    property := 4 }

/-- The blocks hold the transactions `first` and `second`. -/
def chainOf (first second : CMPTransaction) (txid : Txid) : Option CMPTransaction :=
  if txid = first.txid then some { first with txIdx := 0 }
  else if txid = second.txid then some { second with txIdx := 0 }
  else none

/-- The node after both of them. -/
def managedLive (second : CMPTransaction) : State :=
  after (handleFreezeTx someEnv second) (after (handleFreezeTx someEnv enableTx) managedStart)

/-- The same node after a restart. -/
def managedRestarted (second : CMPTransaction) : State :=
  (managedLive second).withFreezeSets ⟨∅, ∅⟩

theorem managedStart_start : FreezeStart managedStart where
  sets := rfl
  records := scanTxList_setDBVersion _

theorem managedRestarted_restarted (second : CMPTransaction) :
    FreezeRestarted (managedLive second) (managedRestarted second) := ⟨rfl, rfl, rfl, rfl, rfl⟩

set_option maxRecDepth 4000 in
theorem managedRun {second : CMPTransaction} (valid : List CMPTransaction)
    (hcode : value (handleFreezeTx someEnv second)
      (after (handleFreezeTx someEnv enableTx) managedStart) = some 0)
    (hvalid : validFreeze second 0 = valid) :
    FreezeRun someEnv managedStart [enableTx, second] (enableTx :: valid) (managedLive second) := by
  have hfirst : handleFreezeTx someEnv enableTx managedStart =
      .ok 0 (after (handleFreezeTx someEnv enableTx) managedStart) :=
    eq_ok_of_value (by decide +kernel)
  have hrun := (FreezeRun.start.tx hfirst).tx (eq_ok_of_value hcode)
  rw [hvalid] at hrun
  exact hrun

theorem chainOf_history {first second : CMPTransaction}
    (htype : ∀ tx ∈ [first, second], tx.type = 70 ∨ isFreezeType tx.type.toNat = true)
    (htxid : ∀ tx ∈ [first, second], tx.txid < 2 ^ 256)
    (hposition : ∀ tx ∈ [first, second], tx.txIdx < 2 ^ 32)
    (hheight : ∀ tx ∈ [first, second], tx.block ≤ 103) (hne : first.txid ≠ second.txid) :
    FreezeHistory (chainOf first second) 103 managedStart [first, second] where
  type := htype
  txid := htxid
  position := hposition
  height := hheight
  distinct := by
    rw [List.map_cons, List.map_singleton, List.nodup_cons, List.mem_singleton]
    exact ⟨hne, List.nodup_singleton _⟩
  found tx htx := by
    rw [List.mem_cons, List.mem_singleton] at htx
    unfold chainOf
    rcases htx with rfl | rfl
    · exact if_pos rfl
    · rw [if_neg hne.symm, if_pos rfl]
  unrecorded tx _ := setDBVersion_txidText tx.txid

set_option maxRecDepth 4000 in
theorem freezeState_survives_restart_frozen :
    (managedLive freezeTx).isAddressFrozen traderB 4 = true ∧
      ∃ r', loadFreezeState someEnv (chainOf enableTx freezeTx) false 103
          (managedRestarted freezeTx) = .ok true r' ∧
        r'.freezingEnabled = (managedLive freezeTx).freezingEnabled ∧
        r'.frozenAddresses = (managedLive freezeTx).frozenAddresses := by
  refine ⟨by decide +kernel, freezeState_survives_restart managedStart_start
    (chainOf_history (by decide) (by decide) (by decide) (by decide) (by decide))
    (managedRun [freezeTx] (by decide +kernel) rfl) ?_ ?_
    (fun h => absurd h (by decide)) (managedRestarted_restarted freezeTx)⟩
  · refine List.pairwise_cons.mpr ⟨?_, List.pairwise_singleton _ _⟩
    intro tx htx
    rw [List.mem_singleton.mp htx]
    exact freezeSortKey_lt (by decide) (by decide) (by decide) (by decide) (Or.inl (by decide))
  · intro tx htx
    rw [List.mem_cons, List.mem_singleton] at htx
    rcases htx with rfl | rfl
    · decide +kernel
    · decide +kernel

/-- A single key is sorted. -/
theorem sortBy_singleton (k : Text × Txid) : sortBy loadCmp [k] = [k] :=
  List.perm_singleton.mp (sortBy_perm loadCmp [k])

set_option maxRecDepth 4000 in
/-- **A NEW ISSUER BLOCKS THE RESTART**: freezing was enabled by the issuer of the time, and is
    refused to everybody but the issuer of today. -/
theorem changedIssuer_not_loaded :
    FreezeStart managedStart ∧
      FreezeHistory (chainOf enableTx changeIssuerTx) 103 managedStart [enableTx, changeIssuerTx] ∧
      FreezeRun someEnv managedStart [enableTx, changeIssuerTx] [enableTx]
        (managedLive changeIssuerTx) ∧
      FreezeRestarted (managedLive changeIssuerTx) (managedRestarted changeIssuerTx) ∧
      ∃ r', loadFreezeState someEnv (chainOf enableTx changeIssuerTx) false 103
          (managedRestarted changeIssuerTx) = .ok false r' ∧
        r'.freezingEnabled ≠ (managedLive changeIssuerTx).freezingEnabled := by
  refine ⟨managedStart_start,
    chainOf_history (by decide) (by decide) (by decide) (by decide) (by decide),
    managedRun [] (by decide +kernel) rfl, managedRestarted_restarted changeIssuerTx, ?_⟩
  have horder : freezeLoadOrder (managedRestarted changeIssuerTx) = some [enableTx.freezeKey] := by
    decide +kernel
  have hrefused : value (reloadFreezes someEnv (chainOf enableTx changeIssuerTx) 103
      [enableTx.freezeKey]) (managedRestarted changeIssuerTx) = some false := by
    decide +kernel
  have hload : wp (loadFreezeState someEnv (chainOf enableTx changeIssuerTx) false 103)
      (fun ok r' => ok = false ∧ r' = after (reloadFreezes someEnv (chainOf enableTx changeIssuerTx)
        103 [enableTx.freezeKey]) (managedRestarted changeIssuerTx)) (fun _ _ => False)
      (managedRestarted changeIssuerTx) := by
    unfold loadFreezeState
    rw [wp_bind, wp_get, horder]
    dsimp only
    rw [sortBy_singleton, wp_bind]
    refine wp_iff.mpr ?_
    rw [eq_ok_of_value hrefused]
    exact (wp_pure _ _ _ _).mpr ⟨rfl, rfl⟩
  obtain ⟨ok, r', hok, rfl, hr'⟩ := wp_returns hload
  refine ⟨r', hok, ?_⟩
  rw [hr']
  decide +kernel

end OmniCore
