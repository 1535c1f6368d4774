import OmniCore.Activation
import OmniCore.Reset

/-! # ActivationReload — feature activations after a restart

    `LoadActivations` processes the recorded activations again, block by block, and those
    of one block by hash. It never looks at the deactivations. What it rebuilds is
    compared with the node that processed every transaction of the chain in order. -/

namespace OmniCore

open Std (ExtTreeMap)
open Machine TextRec MapSum Exec

/-! ## One activation -/

/-- The checks `interpretPacket` makes of an activation before it takes effect. -/
def acceptsActivation (o : ActivationOptions) (s : State) (tx : CMPTransaction) : Bool :=
  !s.isAddressFrozen tx.sender tx.property.toNat
    && s.params.isTransactionTypeAllowed tx.block tx.property.toNat tx.type.toNat tx.version.toNat
    && checkActivationAuthorization o tx.sender.text
    && (s.activateFeature tx.activation tx.block).1

/-- The same for a deactivation. -/
def acceptsDeactivation (o : ActivationOptions) (s : State) (tx : CMPTransaction) : Bool :=
  !s.isAddressFrozen tx.sender tx.property.toNat
    && s.params.isTransactionTypeAllowed tx.block tx.property.toNat tx.type.toNat tx.version.toNat
    && checkDeactivationAuthorization o tx.sender.text
    && s.params.isFeatureIdActivated tx.featureId.toNat tx.block

/-- What an accepted activation does. -/
def State.announce (s : State) (a : FeatureActivation) : State :=
  { s with
    params := s.params.setFeatureBlock a.featureId a.activationBlock.toNat }.addPendingActivation a

theorem activateFeature_accepted {s : State} {a : FeatureActivation} {block : Nat}
    (h : (s.activateFeature a block).1 = true) : (s.activateFeature a block).2 = s.announce a := by
  revert h
  unfold State.activateFeature
  split
  · intro h
    cases h
  · split
    · intro h
      cases h
    · intro _
      rfl

theorem activateFeature_refused {s : State} {a : FeatureActivation} {block : Nat}
    (h : (s.activateFeature a block).1 = false) : (s.activateFeature a block).2 = s := by
  revert h
  unfold State.activateFeature
  split
  · intro _
    rfl
  · split
    · intro _
      rfl
    · intro h
      cases h

/-- **AN ACTIVATION TAKES EFFECT** exactly if it passes its checks; only then is it valid. -/
theorem interpretActivationPacket_activation {o : ActivationOptions} {s : State}
    (tx : CMPTransaction) (htype : tx.type = messageTypeActivation) :
    wp (interpretActivationPacket o tx)
      (fun code s' => decide (0 ≤ code) = acceptsActivation o s tx ∧
        s' = if acceptsActivation o s tx then s.announce tx.activation else s)
      (fun _ _ => False) s := by
  unfold interpretActivationPacket acceptsActivation
  rw [wp_bind, wp_get, wp_ite]
  constructor
  · intro hfrozen
    rw [wp_pure, hfrozen]
    exact ⟨rfl, rfl⟩
  intro hfrozen
  rw [Bool.not_eq_true] at hfrozen
  rw [if_pos htype, hfrozen]
  unfold logicMathActivation
  rw [wp_bind, wp_get, wp_ite]
  constructor
  · intro hallowed
    rw [Bool.not_eq_true'] at hallowed
    rw [wp_pure, hallowed]
    exact ⟨rfl, rfl⟩
  intro hallowed
  rw [Bool.not_eq_true', Bool.not_eq_false] at hallowed
  rw [wp_ite]
  constructor
  · intro hauth
    rw [Bool.not_eq_true'] at hauth
    rw [wp_pure, hallowed, hauth]
    exact ⟨rfl, rfl⟩
  intro hauth
  rw [Bool.not_eq_true', Bool.not_eq_false] at hauth
  rw [wp_bind, wp_set, wp_pure, hallowed, hauth]
  cases hdone : (s.activateFeature tx.activation tx.block).1 with
  | true => exact ⟨rfl, activateFeature_accepted hdone⟩
  | false => exact ⟨rfl, activateFeature_refused hdone⟩

/-- Without orders, shutting the MetaDEx down does nothing. -/
theorem metaDExShutdown_empty {s : State} (h : s.metadex = ∅) :
    wp metaDExShutdown (fun _ s' => s' = s) (fun _ _ => False) s ∧
      wp metaDExShutdownAllPair (fun _ s' => s' = s) (fun _ _ => False) s := by
  have hnone : s.mdOrders = [] := by
    unfold State.mdOrders
    rw [h]
    rfl
  constructor
  · unfold metaDExShutdown
    rw [wp_bind, wp_get, wp_bind, hnone]
    exact (wp_pure _ _ _ _).mpr ((wp_pure _ _ _ _).mpr rfl)
  · unfold metaDExShutdownAllPair
    rw [wp_bind, wp_get, wp_bind, hnone]
    exact (wp_pure _ _ _ _).mpr ((wp_pure _ _ _ _).mpr rfl)

/-- A deactivation that leaves the consensus parameters as they are leaves the node as it is. -/
theorem interpretActivationPacket_deactivation {o : ActivationOptions} {s : State}
    {tx : CMPTransaction} (htype : tx.type = messageTypeDeactivation) (hbook : s.metadex = ∅)
    (hsame : acceptsDeactivation o s tx = true →
      s.params.setFeatureBlock tx.featureId.toNat deactivatedBlock = s.params) :
    wp (interpretActivationPacket o tx) (fun _ s' => s' = s) (fun _ _ => False) s := by
  unfold interpretActivationPacket
  rw [wp_bind, wp_get, wp_ite]
  refine ⟨fun _ => (wp_pure _ _ _ _).mpr rfl, ?_⟩
  intro hfrozen
  have hother : ¬tx.type = messageTypeActivation := by
    rw [htype]
    decide
  rw [if_neg hother, if_pos htype]
  unfold logicMathDeactivation
  rw [wp_bind, wp_get, wp_ite]
  refine ⟨fun _ => (wp_pure _ _ _ _).mpr rfl, ?_⟩
  intro hallowed
  rw [wp_ite]
  refine ⟨fun _ => (wp_pure _ _ _ _).mpr rfl, ?_⟩
  intro hauth
  rw [wp_bind, wp_set]
  unfold State.deactivateFeature
  cases hlive : s.params.isFeatureIdActivated tx.featureId.toNat tx.block with
  | false => exact (wp_pure _ _ _ _).mpr rfl
  | true =>
      -- the parameters are written as they are
      have hparams : s.params.setFeatureBlock tx.featureId.toNat deactivatedBlock = s.params := by
        refine hsame ?_
        unfold acceptsDeactivation
        rw [Bool.not_eq_true] at hfrozen
        rw [Bool.not_eq_true', Bool.not_eq_false] at hallowed hauth
        rw [hfrozen, hallowed, hauth, hlive]
        rfl
      obtain ⟨hdown, hdownAll⟩ := metaDExShutdown_empty hbook
      rw [if_pos rfl, hparams, if_pos rfl]
      dsimp only
      have hsecond : wp (if Feature.ofId tx.featureId.toNat = some Feature.tradeAllPairs then do
            let _ ← metaDExShutdownAllPair
            pure 0
          else pure 0 : ExecM Int) (fun _ s' => s' = s) (fun _ _ => False) s := by
        rw [wp_ite, wp_bind]
        refine ⟨fun _ => wp_imp hdownAll ?_, fun _ => (wp_pure _ _ _ _).mpr rfl⟩
        intro _ s' hs'
        exact (wp_pure _ _ _ _).mpr hs'
      rw [wp_ite, wp_bind]
      refine ⟨fun _ => wp_imp hdown ?_, fun _ => hsecond⟩
      intro _ s' hs'
      rw [hs']
      exact hsecond

/-! ## Activations going live -/

/-- An activation has gone live once its block is there. -/
def FeatureActivation.live (block : Nat) (a : FeatureActivation) : Bool :=
  decide (a.activationBlock ≤ block)

/-- What a loop over the activations `l` leaves pending, and completes. -/
theorem checkLive_foldl (block : Nat) (l : List FeatureActivation) (s : State) :
    l.foldl (fun s a =>
        if (block : Int) < a.activationBlock then s else s.pendingActivationCompleted a) s =
      { s with
        pendingActivations := s.pendingActivations.filter fun a =>
          !(l.filter (FeatureActivation.live block)).any fun b => b.featureId == a.featureId
        completedActivations :=
          s.completedActivations ++ l.filter (FeatureActivation.live block) } := by
  induction l generalizing s with
  | nil => simp
  | cons a rest ih =>
      rw [List.foldl_cons, ih]
      by_cases hlate : (block : Int) < a.activationBlock
      · have hlive : a.live block = false := decide_eq_false (by omega)
        rw [if_pos hlate, List.filter_cons_of_neg (by simp [hlive])]
      · have hlive : a.live block = true := decide_eq_true (by omega)
        rw [if_neg hlate, List.filter_cons_of_pos hlive]
        unfold State.pendingActivationCompleted deletePendingActivation
        dsimp only
        rw [List.filter_filter, List.append_assoc]
        congr 1
        refine List.filter_congr ?_
        intro b _
        rw [List.any_cons, Bool.not_or, Bool.and_comm]
        congr 1
        exact congrArg Bool.not (by rw [Bool.beq_comm])

/-- Activations are told apart by their features. -/
def DistinctFeatures (l : List FeatureActivation) : Prop :=
  (l.map FeatureActivation.featureId).Nodup

/-- **AT EVERY BLOCK** the pending activations whose block has come are completed, in order. -/
theorem checkLiveActivations_eq {s : State} (block : Nat)
    (hdistinct : DistinctFeatures s.pendingActivations) :
    s.checkLiveActivations block =
      { s with
        pendingActivations := s.pendingActivations.filter fun a => !a.live block
        completedActivations := s.completedActivations ++
          s.pendingActivations.filter (FeatureActivation.live block) } := by
  unfold State.checkLiveActivations
  rw [checkLive_foldl]
  congr 1
  refine List.filter_congr ?_
  intro a ha
  congr 1
  rw [Bool.eq_iff_iff, List.any_eq_true]
  constructor
  · rintro ⟨b, hb, hid⟩
    rw [List.mem_filter] at hb
    rw [beq_iff_eq] at hid
    rw [← List.inj_on_of_nodup_map hdistinct hb.1 ha hid]
    exact hb.2
  · intro hlive
    exact ⟨a, List.mem_filter.mpr ⟨ha, hlive⟩, beq_self_eq_true _⟩

/-! ## The announcements of a chain -/

/-- The last announcement of every feature, in the order they were made. -/
def announced (accepted : List CMPTransaction) : List FeatureActivation :=
  accepted.foldl
    (fun l tx => deletePendingActivation l tx.activation.featureId ++ [tx.activation]) []

theorem announced_concat (accepted : List CMPTransaction) (tx : CMPTransaction) :
    announced (accepted ++ [tx]) =
      deletePendingActivation (announced accepted) tx.activation.featureId ++ [tx.activation] := by
  unfold announced
  rw [List.foldl_append]
  rfl

theorem DistinctFeatures.filter {l : List FeatureActivation} (h : DistinctFeatures l)
    (p : FeatureActivation → Bool) : DistinctFeatures (l.filter p) :=
  h.sublist (List.filter_sublist.map _)

theorem distinctFeatures_announced (accepted : List CMPTransaction) :
    DistinctFeatures (announced accepted) := by
  induction accepted using List.reverseRecOn with
  | nil => exact List.nodup_nil
  | append_singleton accepted tx ih =>
      rw [announced_concat]
      unfold DistinctFeatures
      rw [List.map_append, List.nodup_append]
      refine ⟨ih.filter _, List.nodup_singleton _, ?_⟩
      intro i hi j hj hij
      obtain ⟨a, ha, rfl⟩ := List.mem_map.mp hi
      rw [List.map_singleton, List.mem_singleton] at hj
      unfold deletePendingActivation at ha
      rw [List.mem_filter, bne_iff_ne] at ha
      exact ha.2 (hij.trans hj)

/-- The transaction, if it is an activation that is accepted. -/
def acceptedTx (o : ActivationOptions) (s : State) (tx : CMPTransaction) : List CMPTransaction :=
  if tx.type = messageTypeActivation ∧ acceptsActivation o s tx = true then [tx] else []

/-- The accepted activations of a block whose transactions start in `s`. -/
def acceptedTxs (o : ActivationOptions) : State → List CMPTransaction → List CMPTransaction
  | _, [] => []
  | s, tx :: rest =>
      acceptedTx o s tx ++ acceptedTxs o (after (handleActivationTx o tx) s) rest

/-! ## Which steps a restart repeats -/

/-- One transaction, of a node in state `s` that has accepted the activations `accepted`. An
    activation goes live in a later block, its feature has not been activated before, and it
    stands behind those of its block by hash; a deactivation has no effect on the parameters. -/
structure RepeatsTx (o : ActivationOptions) (s : State) (accepted : List CMPTransaction)
    (tx : CMPTransaction) : Prop where
  later : tx.type = messageTypeActivation → acceptsActivation o s tx = true →
    (tx.block : Int) < tx.activation.activationBlock
  fresh : tx.type = messageTypeActivation → acceptsActivation o s tx = true →
    ∀ a ∈ s.completedActivations, a.featureId ≠ tx.activation.featureId
  sorted : tx.type = messageTypeActivation → acceptsActivation o s tx = true →
    ∀ t ∈ accepted, t.block = tx.block → uint256Cmp t.txid tx.txid = .lt
  deactivation : tx.type = messageTypeDeactivation → acceptsDeactivation o s tx = true →
    s.params.setFeatureBlock tx.featureId.toNat deactivatedBlock = s.params

/-- The start of a block: what goes live in it was announced after all that is live already. -/
def RepeatsBegin (accepted : List CMPTransaction) (block : Nat) : Prop :=
  (announced accepted).Pairwise fun a b =>
    b.activationBlock < (block : Int) → a.activationBlock ≤ (block : Int) →
      a.activationBlock < (block : Int)

/-- Every transaction of a block. -/
def RepeatsBlock (o : ActivationOptions) :
    State → List CMPTransaction → List CMPTransaction → Prop
  | _, _, [] => True
  | s, accepted, tx :: rest => RepeatsTx o s accepted tx ∧
      RepeatsBlock o (after (handleActivationTx o tx) s) (accepted ++ acceptedTx o s tx) rest

/-- Every step of a chain that continues at a block. -/
def RepeatsChain (o : ActivationOptions) :
    State → List CMPTransaction → Nat → List (List CMPTransaction) → Prop
  | _, _, _, [] => True
  | s, accepted, block, txs :: rest => RepeatsBegin accepted block ∧
      RepeatsBlock o (s.checkLiveActivations block) accepted txs ∧
      RepeatsChain o (after (processActivationBlock o block txs) s)
        (accepted ++ acceptedTxs o (s.checkLiveActivations block) txs) (block + 1) rest

/-- The blocks hold activations and deactivations, each its own hash; `chain` finds them again. -/
structure ActivationHistory (chain : Txid → Option CMPTransaction)
    (blocks : List (List CMPTransaction)) : Prop where
  type : ∀ txs ∈ blocks, ∀ tx ∈ txs,
    tx.type = messageTypeActivation ∨ tx.type = messageTypeDeactivation
  block : ∀ i (hi : i < blocks.length), ∀ tx ∈ blocks[i], tx.block = i + 1
  txid : ∀ txs ∈ blocks, ∀ tx ∈ txs, tx.txid < 2 ^ 256
  distinct : (blocks.flatten.map CMPTransaction.txid).Nodup
  /-- a transaction is parsed again at position 0 of its block -/
  found : ∀ txs ∈ blocks, ∀ tx ∈ txs, chain tx.txid = some { tx with txIdx := 0 }

/-- The node after a restart: the databases are there, the parameters are those of the network,
    nothing is frozen and no activation is known. -/
structure Restarted (defaults : ConsensusParams) (live s : State) : Prop where
  params : s.params = defaults
  txList : s.txList = live.txList
  frozen : s.frozenAddresses = ∅
  pending : s.pendingActivations = []
  completed : s.completedActivations = []

/-! ## The reload follows the chain -/

section Reload

variable {o : ActivationOptions} {chain : Txid → Option CMPTransaction}
  {defaults : ConsensusParams} {debugFees : Bool}

/-- The position of a transaction in the order of the reload. -/
def CMPTransaction.loadKey (tx : CMPTransaction) : Int × Txid := (tx.block, tx.txid)

/-- A restarted node that has processed `accepted` again. -/
structure Reloaded (accepted : List CMPTransaction) (params : ConsensusParams) (s : State) :
    Prop where
  params : s.params = params
  pending : s.pendingActivations = announced accepted
  completed : s.completedActivations = []
  frozen : s.frozenAddresses = ∅

/-- What holds of a node in block `block` that has processed `handled` and accepted `accepted`. -/
structure Repeated (o : ActivationOptions) (chain : Txid → Option CMPTransaction)
    (defaults : ConsensusParams) (block : Nat) (handled accepted : List CMPTransaction)
    (s : State) : Prop where
  /-- processing the accepted activations again gives the same parameters -/
  reload : ∀ r, Reloaded [] defaults r →
    wp ((accepted.map CMPTransaction.loadKey).forM (reloadActivation o chain))
      (fun _ r' => Reloaded accepted s.params r') (fun _ _ => False) r
  pending : s.pendingActivations = (announced accepted).filter fun a => !a.live block
  completed : s.completedActivations = (announced accepted).filter (FeatureActivation.live block)
  sorted : (accepted.map CMPTransaction.loadKey).Pairwise fun a b => loadCmp a b = .lt
  blocks : ∀ tx ∈ accepted, tx.block ≤ block
  recorded : ∃ records : List TxRecord,
    s.txList = records.foldl recordTX (setDBVersion ∅) ∧
      records.map TxRecord.txid = handled.map CMPTransaction.txid ∧
      ((records.filter fun r => (r.type : Int) == 65534 && r.valid).map fun r =>
        ((r.block : Int), r.txid)) = accepted.map CMPTransaction.loadKey
  frozen : s.frozenAddresses = ∅
  book : s.metadex = ∅

theorem repeated_started (o : ActivationOptions) (chain : Txid → Option CMPTransaction)
    (defaults : ConsensusParams) (debugFees : Bool) :
    Repeated o chain defaults 0 [] [] (State.started defaults debugFees) where
  reload r hr := (wp_pure _ _ _ _).mpr hr
  pending := rfl
  completed := rfl
  sorted := List.Pairwise.nil
  blocks tx htx := by cases htx
  recorded := ⟨[], rfl, rfl, rfl⟩
  frozen := rfl
  book := rfl

theorem isAddressFrozen_empty {s : State} (h : s.frozenAddresses = ∅) (a : Address)
    (p : PropertyId) : s.isAddressFrozen a p = false := by
  unfold State.isAddressFrozen
  rw [h]
  exact Std.ExtTreeSet.contains_empty

theorem activateFeature_congr {s r : State} (a : FeatureActivation) (block : Nat)
    (hparams : r.params = s.params) :
    (r.activateFeature a block).1 = (s.activateFeature a block).1 := by
  unfold State.activateFeature
  rw [hparams]
  split
  · rfl
  · split
    · rfl
    · rfl

/-- Whether an activation is accepted depends on the parameters only. -/
theorem acceptsActivation_congr {s r : State} (tx : CMPTransaction) (hparams : r.params = s.params)
    (hs : s.frozenAddresses = ∅) (hr : r.frozenAddresses = ∅) :
    acceptsActivation o r { tx with txIdx := 0 } = acceptsActivation o s tx := by
  have hfeature := activateFeature_congr tx.activation tx.block hparams
  have hcopy : ({ tx with txIdx := 0 } : CMPTransaction).activation = tx.activation := rfl
  unfold acceptsActivation
  rw [isAddressFrozen_empty hs, isAddressFrozen_empty hr, hparams, hcopy, hfeature]

/-- One more accepted activation is accepted by the reload as well. -/
theorem Repeated.reload_concat {block : Nat} {handled accepted : List CMPTransaction} {s : State}
    (h : Repeated o chain defaults block handled accepted s) {tx : CMPTransaction}
    (htype : tx.type = messageTypeActivation) (haccept : acceptsActivation o s tx = true)
    (hfound : chain tx.txid = some { tx with txIdx := 0 }) {r : State}
    (hr : Reloaded [] defaults r) :
    wp (((accepted ++ [tx]).map CMPTransaction.loadKey).forM (reloadActivation o chain))
      (fun _ r' => Reloaded (accepted ++ [tx]) (s.announce tx.activation).params r')
      (fun _ _ => False) r := by
  rw [List.map_append, wp_forM_append]
  refine wp_imp (h.reload r hr) ?_
  intro _ r' hr'
  rw [List.map_singleton, wp_forM_cons]
  have hstep : reloadActivation o chain tx.loadKey =
      (do let _ ← interpretActivationPacket o { tx with txIdx := 0 }) := by
    unfold reloadActivation CMPTransaction.loadKey
    rw [hfound]
    exact if_pos htype
  rw [hstep, wp_bind]
  refine wp_imp (interpretActivationPacket_activation { tx with txIdx := 0 } htype) ?_
  intro code r'' ⟨_, hr''⟩
  rw [acceptsActivation_congr tx hr'.params h.frozen hr'.frozen, haccept, if_pos rfl] at hr''
  rw [wp_pure, wp_forM_nil, hr'']
  refine ⟨?_, ?_, hr'.completed, hr'.frozen⟩
  · show r'.params.setFeatureBlock _ _ = s.params.setFeatureBlock _ _
    rw [hr'.params]
    rfl
  · show deletePendingActivation r'.pendingActivations _ ++ [_] = _
    rw [hr'.pending, announced_concat]
    rfl

theorem Repeated.distinct {block : Nat} {handled accepted : List CMPTransaction} {s : State}
    (h : Repeated o chain defaults block handled accepted s) :
    DistinctFeatures s.pendingActivations := by
  rw [h.pending]
  exact (distinctFeatures_announced accepted).filter _

/-- The record of one more transaction. -/
theorem recorded_concat {txList : TextDB} {handled accepted : List CMPTransaction}
    (tx : CMPTransaction) (valid : Bool) (more : List CMPTransaction)
    (h : ∃ records : List TxRecord, txList = records.foldl recordTX (setDBVersion ∅) ∧
      records.map TxRecord.txid = handled.map CMPTransaction.txid ∧
      ((records.filter fun r => (r.type : Int) == 65534 && r.valid).map fun r =>
        ((r.block : Int), r.txid)) = accepted.map CMPTransaction.loadKey)
    (hmore : more = if ((tx.type.toNat : Int) == 65534 && valid) = true then [tx] else []) :
    ∃ records : List TxRecord,
      recordTX txList ⟨tx.txid, valid, tx.block, tx.type.toNat, tx.nNewValue.toNat⟩ =
        records.foldl recordTX (setDBVersion ∅) ∧
      records.map TxRecord.txid = (handled ++ [tx]).map CMPTransaction.txid ∧
      ((records.filter fun r => (r.type : Int) == 65534 && r.valid).map fun r =>
        ((r.block : Int), r.txid)) = (accepted ++ more).map CMPTransaction.loadKey := by
  obtain ⟨records, hlist, htxids, hkeys⟩ := h
  refine ⟨records ++ [⟨tx.txid, valid, tx.block, tx.type.toNat, tx.nNewValue.toNat⟩], ?_, ?_, ?_⟩
  · rw [List.foldl_append, ← hlist]
    rfl
  · rw [List.map_append, htxids, List.map_append]
    rfl
  · rw [List.filter_append, List.map_append, hkeys, List.map_append, hmore]
    congr 1
    rw [List.filter_singleton]
    dsimp only
    cases (tx.type.toNat : Int) == 65534 && valid with
    | true => rfl
    | false => rfl

/-- **ONE TRANSACTION** that a restart repeats. -/
theorem Repeated.tx {block : Nat} {handled accepted : List CMPTransaction} {s : State}
    (h : Repeated o chain defaults block handled accepted s) {tx : CMPTransaction}
    (htype : tx.type = messageTypeActivation ∨ tx.type = messageTypeDeactivation)
    (hblock : tx.block = block) (hfound : chain tx.txid = some { tx with txIdx := 0 })
    (hsafe : RepeatsTx o s accepted tx) :
    wp (handleActivationTx o tx)
      (fun _ s' => Repeated o chain defaults block (handled ++ [tx])
        (accepted ++ acceptedTx o s tx) s') (fun _ _ => False) s := by
  unfold handleActivationTx
  rw [wp_bind]
  rcases htype with htype | htype
  · refine wp_imp (interpretActivationPacket_activation _ htype) ?_
    intro code s' ⟨hcode, hs'⟩
    rw [wp_modify, hcode]
    have hmore : acceptedTx o s tx =
        if ((tx.type.toNat : Int) == 65534 && acceptsActivation o s tx) = true then [tx] else [] := by
      unfold acceptedTx
      rw [htype]
      cases acceptsActivation o s tx <;> rfl
    have hrecorded := recorded_concat _ _ _ h.recorded hmore
    cases haccept : acceptsActivation o s tx with
    | false =>
        rw [haccept] at hs' hrecorded
        rw [hs']
        have hnone : acceptedTx o s tx = [] := by
          unfold acceptedTx
          rw [haccept, if_neg (by simp)]
        rw [hnone, List.append_nil] at hrecorded ⊢
        exact { reload := h.reload, pending := h.pending, completed := h.completed
                sorted := h.sorted, blocks := h.blocks, recorded := hrecorded
                frozen := h.frozen, book := h.book }
    | true =>
        rw [haccept] at hs' hrecorded
        rw [hs', if_pos rfl]
        have hone : acceptedTx o s tx = [tx] := if_pos ⟨htype, haccept⟩
        rw [hone] at hrecorded ⊢
        have hlate : tx.activation.live block = false := by
          have := hsafe.later htype haccept
          exact decide_eq_false (by omega)
        refine { reload := fun r hr => h.reload_concat htype haccept hfound hr
                 pending := ?_, completed := ?_, sorted := ?_, blocks := ?_
                 recorded := hrecorded, frozen := h.frozen, book := h.book }
        · -- the announcement joins the pending ones
          show deletePendingActivation s.pendingActivations _ ++ [_] = _
          unfold deletePendingActivation
          rw [announced_concat, h.pending, List.filter_append,
            List.filter_cons_of_pos (by simp [hlate]), List.filter_nil]
          unfold deletePendingActivation
          rw [List.filter_filter, List.filter_filter]
          simp only [Bool.and_comm]
        · -- no completed activation is replaced
          show s.completedActivations = _
          rw [announced_concat, List.filter_append, List.filter_cons_of_neg (by simp [hlate]),
            List.filter_nil, List.append_nil]
          unfold deletePendingActivation
          rw [List.filter_filter]
          have hkeep : s.completedActivations.filter
              (fun a => a.featureId != tx.activation.featureId) = s.completedActivations := by
            refine List.filter_eq_self.mpr ?_
            intro a ha
            exact bne_iff_ne.mpr (hsafe.fresh htype haccept a ha)
          rw [← hkeep, h.completed, List.filter_filter]
          simp only [Bool.and_comm]
        · rw [List.map_append, List.pairwise_append]
          refine ⟨h.sorted, List.pairwise_singleton _ _, ?_⟩
          intro key hkey key' hkey'
          obtain ⟨t, ht, rfl⟩ := List.mem_map.mp hkey
          rw [List.map_singleton, List.mem_singleton] at hkey'
          subst hkey'
          refine loadCmp_lt ?_
          rcases Nat.lt_or_ge t.block tx.block with hlt | hge
          · exact Or.inl (Int.ofNat_lt.mpr hlt)
          · have heq : t.block = tx.block := by
              have := h.blocks t ht
              omega
            exact Or.inr ⟨congrArg Nat.cast heq, hsafe.sorted htype haccept t ht heq⟩
        · intro t ht
          rcases List.mem_append.mp ht with ht | ht
          · exact h.blocks t ht
          · rw [List.mem_singleton.mp ht, hblock]
  · have hother : ¬tx.type = messageTypeActivation := by
      rw [htype]
      decide
    refine wp_imp (interpretActivationPacket_deactivation htype h.book
      (hsafe.deactivation htype)) ?_
    intro code s' hs'
    have hnone : acceptedTx o s tx = [] := if_neg fun hh => hother hh.1
    rw [wp_modify, hs', hnone]
    have hwanted : ((tx.type.toNat : Int) == 65534) = false := by
      rw [htype]
      rfl
    have hrecorded := recorded_concat tx (decide (0 ≤ code)) []
      h.recorded (by rw [hwanted]; rfl)
    rw [List.append_nil] at hrecorded ⊢
    exact { reload := h.reload, pending := h.pending, completed := h.completed
            sorted := h.sorted, blocks := h.blocks, recorded := hrecorded
            frozen := h.frozen, book := h.book }

/-- **THE START OF A BLOCK** that a restart repeats. -/
theorem Repeated.begin {block : Nat} {handled accepted : List CMPTransaction} {s : State}
    (h : Repeated o chain defaults block handled accepted s)
    (hsafe : RepeatsBegin accepted (block + 1)) :
    Repeated o chain defaults (block + 1) handled accepted (s.checkLiveActivations (block + 1)) := by
  rw [checkLiveActivations_eq (block + 1) h.distinct]
  refine { reload := h.reload, pending := ?_, completed := ?_, sorted := h.sorted, blocks := ?_
           recorded := h.recorded, frozen := h.frozen, book := h.book }
  · show s.pendingActivations.filter _ = _
    rw [h.pending, List.filter_filter]
    refine List.filter_congr ?_
    intro a _
    unfold FeatureActivation.live
    rw [Bool.eq_iff_iff]
    simp only [Bool.and_eq_true, Bool.not_eq_true', decide_eq_false_iff_not]
    omega
  · show s.completedActivations ++ s.pendingActivations.filter _ = _
    rw [h.completed, h.pending]
    -- what goes live now stands behind what is live already
    refine filter_append_filter_not ?_ ?_
    · intro a _ ha
      unfold FeatureActivation.live at ha ⊢
      rw [decide_eq_true_eq] at ha ⊢
      omega
    · refine hsafe.imp ?_
      intro a b hab hb ha
      unfold FeatureActivation.live at ha hb ⊢
      rw [decide_eq_true_eq] at ha hb ⊢
      have := hab (by omega) ha
      omega
  · intro tx htx
    have := h.blocks tx htx
    omega

/-- The transactions of a block. -/
theorem Repeated.txs {block : Nat} {handled accepted txs : List CMPTransaction} {s : State}
    (h : Repeated o chain defaults block handled accepted s)
    (htype : ∀ tx ∈ txs, tx.type = messageTypeActivation ∨ tx.type = messageTypeDeactivation)
    (hblock : ∀ tx ∈ txs, tx.block = block)
    (hfound : ∀ tx ∈ txs, chain tx.txid = some { tx with txIdx := 0 })
    (hsafe : RepeatsBlock o s accepted txs) :
    wp (txs.forM (handleActivationTx o))
      (fun _ s' => Repeated o chain defaults block (handled ++ txs)
        (accepted ++ acceptedTxs o s txs) s') (fun _ _ => False) s := by
  induction txs generalizing handled accepted s with
  | nil =>
      rw [wp_forM_nil]
      unfold acceptedTxs
      rw [List.append_nil, List.append_nil]
      exact h
  | cons tx rest ih =>
      obtain ⟨hfirst, hrest⟩ := hsafe
      have hstep := h.tx (htype tx (by simp)) (hblock tx (by simp)) (hfound tx (by simp)) hfirst
      obtain ⟨hrun, hnext⟩ := wp_after hstep
      have htail := ih hnext (fun t ht => htype t (by simp [ht])) (fun t ht => hblock t (by simp [ht]))
        (fun t ht => hfound t (by simp [ht])) hrest
      rw [wp_forM_cons]
      rw [List.append_assoc, List.append_assoc] at htail
      refine wp_iff.mpr ?_
      rw [hrun]
      exact htail

/-- **ONE BLOCK** that a restart repeats. -/
theorem Repeated.block {block : Nat} {handled accepted txs : List CMPTransaction} {s : State}
    (h : Repeated o chain defaults block handled accepted s)
    (htype : ∀ tx ∈ txs, tx.type = messageTypeActivation ∨ tx.type = messageTypeDeactivation)
    (hblock : ∀ tx ∈ txs, tx.block = block + 1)
    (hfound : ∀ tx ∈ txs, chain tx.txid = some { tx with txIdx := 0 })
    (hbegin : RepeatsBegin accepted (block + 1))
    (hsafe : RepeatsBlock o (s.checkLiveActivations (block + 1)) accepted txs) :
    wp (processActivationBlock o (block + 1) txs)
      (fun _ s' => Repeated o chain defaults (block + 1) (handled ++ txs)
        (accepted ++ acceptedTxs o (s.checkLiveActivations (block + 1)) txs) s')
      (fun _ _ => False) s := by
  unfold processActivationBlock
  rw [wp_bind, wp_modify]
  exact (h.begin hbegin).txs htype hblock hfound hsafe

/-- **A WHOLE CHAIN** whose every step a restart repeats. -/
theorem Repeated.wholeChain {block : Nat} {handled accepted : List CMPTransaction}
    {blocks : List (List CMPTransaction)} {s : State}
    (h : Repeated o chain defaults block handled accepted s)
    (htype : ∀ txs ∈ blocks, ∀ tx ∈ txs,
      tx.type = messageTypeActivation ∨ tx.type = messageTypeDeactivation)
    (hblock : ∀ i (hi : i < blocks.length), ∀ tx ∈ blocks[i], tx.block = block + i + 1)
    (hfound : ∀ txs ∈ blocks, ∀ tx ∈ txs, chain tx.txid = some { tx with txIdx := 0 })
    (hsafe : RepeatsChain o s accepted (block + 1) blocks) :
    wp (processActivationChain o (block + 1) blocks)
      (fun _ s' => ∃ accepted', Repeated o chain defaults (block + blocks.length)
        (handled ++ blocks.flatten) accepted' s') (fun _ _ => False) s := by
  induction blocks generalizing block handled accepted s with
  | nil =>
      refine (wp_pure _ _ _ _).mpr ⟨accepted, ?_⟩
      rw [List.flatten_nil, List.append_nil]
      exact h
  | cons txs rest ih =>
      obtain ⟨hbegin, htxs, hrest⟩ := hsafe
      have hstep := h.block (htype txs (by simp)) (fun tx htx => hblock 0 (by simp) tx htx)
        (hfound txs (by simp)) hbegin htxs
      obtain ⟨hrun, hnext⟩ := wp_after hstep
      have htail := ih hnext (fun t ht => htype t (by simp [ht]))
        (fun i hi tx htx => by
          have := hblock (i + 1) (by simp; omega) tx htx
          omega)
        (fun t ht => hfound t (by simp [ht])) hrest
      show wp (processActivationBlock o (block + 1) txs >>= fun _ =>
        processActivationChain o (block + 1 + 1) rest) _ _ s
      rw [wp_bind]
      refine wp_iff.mpr ?_
      rw [hrun]
      refine wp_imp htail ?_
      intro _ s' ⟨accepted', hs'⟩
      refine ⟨accepted', ?_⟩
      rw [List.flatten_cons, List.length_cons, ← List.append_assoc]
      have hheight : block + (rest.length + 1) = block + 1 + rest.length := by omega
      rw [hheight]
      exact hs'

/-- **THE RELOAD REBUILDS THE ACTIVATIONS** of the node it repeats. -/
theorem Repeated.loads {block : Nat} {handled accepted : List CMPTransaction} {live r : State}
    (h : Repeated o chain defaults block handled accepted live)
    (htxid : ∀ tx ∈ handled, tx.txid < 2 ^ 256)
    (hdistinct : (handled.map CMPTransaction.txid).Nodup) (hr : Restarted defaults live r) :
    wp (loadActivations o chain block)
      (fun _ r' => r'.params = live.params ∧ r'.pendingActivations = live.pendingActivations ∧
        r'.completedActivations = live.completedActivations) (fun _ _ => False) r := by
  obtain ⟨records, hlist, htxids, hkeys⟩ := h.recorded
  -- the recorded transactions, sorted, are those that were accepted, in their order
  have horder : sortBy loadCmp (scanTxList (fun t => t == 65534) r.txList) =
      accepted.map CMPTransaction.loadKey := by
    refine sortBy_eq_of_strict ?_ h.sorted
    rw [hr.txList, hlist, ← hkeys]
    refine scanTxList_perm _ (scanTxList_setDBVersion _) (fun r _ => setDBVersion_txidText r.txid)
      (by rw [htxids]; exact hdistinct) ?_
    intro record hrecord
    have hmem : record.txid ∈ handled.map CMPTransaction.txid := by
      rw [← htxids]
      exact List.mem_map_of_mem hrecord
    obtain ⟨tx, htx, heq⟩ := List.mem_map.mp hmem
    rw [← heq]
    exact htxid tx htx
  unfold loadActivations
  rw [wp_bind, wp_get, horder, wp_bind]
  refine wp_imp (h.reload r ⟨hr.params, hr.pending, hr.completed, hr.frozen⟩) ?_
  intro _ r' hr'
  have hlive : DistinctFeatures r'.pendingActivations := by
    rw [hr'.pending]
    exact distinctFeatures_announced accepted
  rw [wp_modify, checkLiveActivations_eq block hlive]
  refine ⟨hr'.params, ?_, ?_⟩
  · show r'.pendingActivations.filter _ = _
    rw [hr'.pending, h.pending]
  · show r'.completedActivations ++ r'.pendingActivations.filter _ = _
    rw [hr'.completed, hr'.pending, h.completed, List.nil_append]

end Reload

/-- **FEATURE ACTIVATIONS SURVIVE A RESTART** whenever every step of the chain is one that the
    reload repeats: the node processes the chain, and `LoadActivations` at its height rebuilds the
    parameters, the pending and the completed activations. -/
theorem activations_survive_restart {o : ActivationOptions} {chain : Txid → Option CMPTransaction}
    {defaults : ConsensusParams} {debugFees : Bool} {blocks : List (List CMPTransaction)}
    (hhistory : ActivationHistory chain blocks)
    (hsafe : RepeatsChain o (State.started defaults debugFees) [] 1 blocks) :
    ∃ live, processActivationChain o 1 blocks (State.started defaults debugFees) = .ok () live ∧
      ∀ r, Restarted defaults live r →
        ∃ r', loadActivations o chain blocks.length r = .ok () r' ∧
          r'.params = live.params ∧ r'.pendingActivations = live.pendingActivations ∧
          r'.completedActivations = live.completedActivations := by
  have hrun := (repeated_started o chain defaults debugFees).wholeChain hhistory.type
    (fun i hi tx htx => (hhistory.block i hi tx htx).trans (by omega)) hhistory.found hsafe
  obtain ⟨_, live, hlive, accepted, hrepeated⟩ := wp_returns hrun
  rw [List.nil_append, Nat.zero_add] at hrepeated
  refine ⟨live, hlive, ?_⟩
  intro r hr
  have htxid : ∀ tx ∈ blocks.flatten, tx.txid < 2 ^ 256 := by
    intro tx htx
    obtain ⟨txs, htxs, hmem⟩ := List.mem_flatten.mp htx
    exact hhistory.txid txs htxs tx hmem
  obtain ⟨_, r', hload, hsame⟩ := wp_returns (hrepeated.loads htxid hhistory.distinct hr)
  exact ⟨r', hload, hsame⟩

/-! ## On the regression test network -/

/-- The node is started without options. -/
def noOptions : ActivationOptions := ⟨[], []⟩

/-- Activates feature 10, the second version of sending to owners, as of block 7. -/
def activateStoV1 : CMPTransaction where
  txid := 11
  block := 1
  sender := ⟨"3Fc5gWzEQh1YGeqVXH6E4GDEGgbZJREJQ3".toList, by decide, by decide⟩
  type := 65534
  version := 65535
  featureId := 10
  activationBlock := 7

set_option maxRecDepth 4000 in
theorem activations_survive_restart_stoV1 :
    acceptsActivation noOptions (State.started regTestParams false) activateStoV1 = true ∧
      ∃ live, processActivationChain noOptions 1 [[activateStoV1]]
          (State.started regTestParams false) = .ok () live ∧
        ∀ r, Restarted regTestParams live r →
          ∃ r', loadActivations noOptions (fun _ => some activateStoV1) 1 r = .ok () r' ∧
            r'.params = live.params ∧ r'.pendingActivations = live.pendingActivations ∧
            r'.completedActivations = live.completedActivations := by
  have hhistory : ActivationHistory (fun _ => some activateStoV1) [[activateStoV1]] := by
    refine ⟨by decide, by decide, by decide, by decide, ?_⟩
    intro txs htxs tx htx
    rw [List.mem_singleton.mp htxs, List.mem_singleton] at htx
    rw [htx]
    rfl
  refine ⟨by decide +kernel, activations_survive_restart hhistory ⟨?_, ⟨?_, trivial⟩, trivial⟩⟩
  · exact List.Pairwise.nil
  · constructor
    · intro _ _
      decide
    · intro _ _ a ha
      cases ha
    · intro _ _ t ht
      cases ht
    · intro htype
      exact absurd htype (by decide)

/-- Switches class C transactions off again. -/
def deactivateClassC : CMPTransaction where
  txid := 12
  block := 102
  sender := ⟨"34kwkVRSvFVEoUwcQSgpQ4ZUasuZ54DJLD".toList, by decide, by decide⟩
  type := 65533
  version := 65535
  featureId := 1

/-- The first block of the network is block 101. -/
def deactivationBlocks : List (List CMPTransaction) := List.replicate 101 [] ++ [[deactivateClassC]]

/-- Nothing of an activation is on record, so nothing is loaded. -/
theorem loadActivations_nothing (o : ActivationOptions) (chain : Txid → Option CMPTransaction)
    (block : Nat) {r : State} (hpending : r.pendingActivations = [])
    (hlist : scanTxList (fun t => t == 65534) r.txList = []) :
    loadActivations o chain block r = .ok () r := by
  have hsort : sortBy loadCmp (scanTxList (fun t => t == 65534) r.txList) = [] := by
    rw [hlist]
    exact List.Perm.eq_nil (sortBy_perm loadCmp [])
  have hcheck : r.checkLiveActivations block = r := by
    unfold State.checkLiveActivations
    rw [hpending]
    rfl
  have hwp : wp (loadActivations o chain block) (fun _ r' => r' = r) (fun _ _ => False) r := by
    unfold loadActivations
    rw [wp_bind, wp_get, hsort, wp_bind, wp_forM_nil, wp_modify]
    exact hcheck
  obtain ⟨_, r', hload, hr'⟩ := wp_returns hwp
  rw [hload, hr']

set_option maxRecDepth 4000 in
/-- **A DEACTIVATION IS FORGOTTEN**: the node has switched the feature off, the restarted one has it
    switched on. -/
theorem deactivation_forgotten :
    ActivationHistory (fun _ => some deactivateClassC) deactivationBlocks ∧
      ∃ live, processActivationChain noOptions 1 deactivationBlocks
          (State.started regTestParams false) = .ok () live ∧
        live.txList[txidText 12]? = some "1:102:65533:0".toList ∧
        live.params.featureBlock .classC = 999999 ∧
        ∃ r r', Restarted regTestParams live r ∧
          loadActivations noOptions (fun _ => some deactivateClassC) 102 r = .ok () r' ∧
          r'.params.featureBlock .classC = 0 := by
  constructor
  · refine ⟨by decide +kernel, by decide +kernel, by decide +kernel, by decide +kernel, ?_⟩
    intro txs htxs tx htx
    unfold deactivationBlocks at htxs
    rw [List.mem_append, List.mem_replicate, List.mem_singleton] at htxs
    rcases htxs with ⟨_, rfl⟩ | rfl
    · cases htx
    · rw [List.mem_singleton.mp htx]
      rfl
  · have hrun := eq_ok_after (x := processActivationChain noOptions 1 deactivationBlocks)
      (s := State.started regTestParams false) (by decide +kernel)
    refine ⟨_, hrun, by decide +kernel, by decide +kernel, ?_⟩
    refine ⟨{ after (processActivationChain noOptions 1 deactivationBlocks)
      (State.started regTestParams false) with
        params := regTestParams, frozenAddresses := ∅
        pendingActivations := [], completedActivations := [] }, _, ⟨rfl, rfl, rfl, rfl, rfl⟩,
      loadActivations_nothing _ _ _ rfl (by decide +kernel), rfl⟩

end OmniCore
