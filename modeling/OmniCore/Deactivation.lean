import OmniCore.ActivationReload

/-! # Deactivation — does a deactivation last?

    `DeactivateFeature` does not switch a feature off: it writes a height that should
    never be reached, 999999, and `IsFeatureActivated` compares heights. So a
    deactivation lasts below that height, whatever is activated and deactivated
    besides, and ends with it. -/

namespace OmniCore

open Machine TextRec MapSum Exec

/-! ## Histories of calls -/

/-- A call of `ActivateFeature` or of `DeactivateFeature`. -/
inductive FeatureCall
  | activate (a : FeatureActivation) (transactionBlock : Nat)
  | deactivate (featureId transactionBlock : Nat)

namespace FeatureCall

def featureId : FeatureCall → Nat
  | activate a _ => a.featureId
  | deactivate featureId _ => featureId

def height : FeatureCall → Nat
  | activate _ transactionBlock => transactionBlock
  | deactivate _ transactionBlock => transactionBlock

/-- The answer of the call, and the node after it. -/
def run (s : State) : FeatureCall → Bool × State
  | activate a transactionBlock => s.activateFeature a transactionBlock
  | deactivate featureId transactionBlock => s.deactivateFeature featureId transactionBlock

/-- The node after a history of calls. -/
def runAll (s : State) (calls : List FeatureCall) : State :=
  calls.foldl (fun s call => (call.run s).2) s

/-- Heights never decrease. -/
def InOrder (calls : List FeatureCall) : Prop :=
  calls.Pairwise fun call later => call.height ≤ later.height

/-- The heights at which the successful activations of a feature let it go live. -/
def activated (featureId : Nat) : State → List FeatureCall → List Int
  | _, [] => []
  | s, call :: rest =>
      let later := activated featureId (call.run s).2 rest
      match call with
      | activate a _ =>
          if a.featureId = featureId ∧ (call.run s).1 = true then a.activationBlock :: later
          else later
      | deactivate _ _ => later

end FeatureCall

open FeatureCall

/-- **DEACTIVATIONS LAST**, seen from a block: in every history, a feature that was deactivated at this
    height or before is not active at the block, until an activation has succeeded that lets it go
    live there. Calls for other features change nothing. -/
structure DeactivationsLast (block : Nat) : Prop where
  lasts : ∀ (s : State) (calls later : List FeatureCall) (featureId height : Nat),
    InOrder (calls ++ deactivate featureId height :: later) →
    ((deactivate featureId height).run (runAll s calls)).1 = true → height ≤ block →
    (∀ a ∈ activated featureId ((deactivate featureId height).run (runAll s calls)).2 later,
      (block : Int) < a) →
    (runAll s (calls ++ deactivate featureId height :: later)).params.isFeatureIdActivated
      featureId block = false
  others : ∀ (s : State) (call : FeatureCall) (featureId : Nat), call.featureId ≠ featureId →
    (call.run s).2.params.isFeatureIdActivated featureId block =
      s.params.isFeatureIdActivated featureId block

/-! ## The height of a feature -/

/-- The identifier of a feature on the wire. -/
def Feature.id : Feature → Nat
  | .classC => 1
  | .metaDEx => 2
  | .betting => 3
  | .grantEffects => 4
  | .dexMath => 5
  | .sendAll => 6
  | .spCrowdCrossover => 7
  | .tradeAllPairs => 8
  | .fees => 9
  | .stoV1 => 10
  | .contractDEx => 11
  | .freezeNotice => 14

theorem Feature.eq_id {featureId : Nat} {f : Feature} (h : Feature.ofId featureId = some f) :
    featureId = f.id := by
  unfold Feature.ofId at h
  split at h <;> cases h <;> rfl

/-- Writing the height of one feature leaves those of all others. -/
theorem setFeatureBlock_of_ne (c : ConsensusParams) {featureId other : Nat} (height block : Nat)
    (hne : other ≠ featureId) :
    (c.setFeatureBlock other height).isFeatureIdActivated featureId block =
      c.isFeatureIdActivated featureId block := by
  unfold ConsensusParams.isFeatureIdActivated ConsensusParams.setFeatureBlock
  cases hf : Feature.ofId featureId with
  | none => rfl
  | some f =>
      cases hg : Feature.ofId other with
      | none => rfl
      | some g =>
          have hfg : f ≠ g := by
            rintro rfl
            exact hne ((Feature.eq_id hg).trans (Feature.eq_id hf).symm)
          show decide (Function.update c.featureBlock g height f ≤ block) = _
          rw [Function.update_of_ne hfg]
          rfl

/-- A feature is not active below the height that was written for it. -/
theorem setFeatureBlock_self (c : ConsensusParams) (featureId : Nat) {height block : Nat}
    (h : block < height) :
    (c.setFeatureBlock featureId height).isFeatureIdActivated featureId block = false := by
  unfold ConsensusParams.isFeatureIdActivated ConsensusParams.setFeatureBlock
  cases hf : Feature.ofId featureId with
  | none => rfl
  | some f =>
      show decide (Function.update c.featureBlock f height f ≤ block) = false
      rw [Function.update_self]
      exact decide_eq_false (not_le.mpr h)

/-! ## One call -/

/-- **ONE CALL** changes the height of its own feature, or nothing: to the height of a successful
    activation, or to the height of deactivated features. -/
theorem FeatureCall.run_params (s : State) (call : FeatureCall) :
    (call.run s).2.params = s.params ∨
      ((∃ a transactionBlock, call = activate a transactionBlock ∧ (call.run s).1 = true ∧
          (call.run s).2.params =
            s.params.setFeatureBlock a.featureId a.activationBlock.toNat) ∨
        ∃ featureId transactionBlock, call = deactivate featureId transactionBlock ∧
          (call.run s).2.params = s.params.setFeatureBlock featureId deactivatedBlock) := by
  cases call with
  | activate a transactionBlock =>
      show (s.activateFeature a transactionBlock).2.params = _ ∨ _
      cases hdone : (s.activateFeature a transactionBlock).1 with
      | true =>
          refine Or.inr (Or.inl ⟨a, transactionBlock, rfl, hdone, ?_⟩)
          show (s.activateFeature a transactionBlock).2.params = _
          rw [activateFeature_accepted hdone]
          rfl
      | false =>
          rw [activateFeature_refused hdone]
          exact Or.inl rfl
  | deactivate featureId transactionBlock =>
      show (s.deactivateFeature featureId transactionBlock).2.params = _ ∨ _
      unfold State.deactivateFeature
      split
      · next hlive =>
          refine Or.inr (Or.inr ⟨featureId, transactionBlock, rfl, ?_⟩)
          show (s.deactivateFeature featureId transactionBlock).2.params = _
          unfold State.deactivateFeature
          rw [if_pos hlive]
      · exact Or.inl rfl

/-- A call for another feature does not change the answer. -/
theorem FeatureCall.run_of_ne (s : State) {call : FeatureCall} {featureId : Nat}
    (hne : call.featureId ≠ featureId) (block : Nat) :
    (call.run s).2.params.isFeatureIdActivated featureId block =
      s.params.isFeatureIdActivated featureId block := by
  rcases call.run_params s with h | ⟨a, b, rfl, -, h⟩ | ⟨f, b, rfl, h⟩
  · rw [h]
  · rw [h]
    exact setFeatureBlock_of_ne s.params _ block hne
  · rw [h]
    exact setFeatureBlock_of_ne s.params _ block hne

theorem mem_activated_cons (featureId : Nat) (s : State) (call : FeatureCall)
    (rest : List FeatureCall) {n : Int} (h : n ∈ activated featureId (call.run s).2 rest) :
    n ∈ activated featureId s (call :: rest) := by
  cases call with
  | activate a transactionBlock =>
      rw [activated]
      split
      · exact List.mem_cons_of_mem _ h
      · exact h
  | deactivate other transactionBlock => exact h

/-- **ALL LATER CALLS**: below the height of deactivated features, a feature that is off stays off as
    long as no activation lets it go live at the block. -/
theorem runAll_stays_off {featureId block : Nat} (hblock : block < deactivatedBlock)
    (later : List FeatureCall) : ∀ (s : State),
      s.params.isFeatureIdActivated featureId block = false →
      (∀ a ∈ activated featureId s later, (block : Int) < a) →
      (runAll s later).params.isFeatureIdActivated featureId block = false := by
  induction later with
  | nil =>
      intro s hoff _
      exact hoff
  | cons call rest ih =>
      intro s hoff hlater
      refine ih (call.run s).2 ?_ fun a ha => hlater a (mem_activated_cons featureId s call rest ha)
      by_cases hne : call.featureId = featureId
      · subst hne
        rcases call.run_params s with h | ⟨a, b, rfl, hdone, h⟩ | ⟨f, b, rfl, h⟩
        · rw [h]
          exact hoff
        · -- the activation succeeded, so it lies behind the block
          have hbehind : (block : Int) < a.activationBlock := by
            refine hlater a.activationBlock ?_
            rw [activated, if_pos ⟨rfl, hdone⟩]
            exact List.mem_cons_self
          rw [h]
          exact setFeatureBlock_self s.params a.featureId (by omega)
        · rw [h]
          exact setFeatureBlock_self s.params f hblock
      · rw [FeatureCall.run_of_ne s hne]
        exact hoff

/-- A deactivation that succeeded switches the feature off. -/
theorem deactivate_off {s : State} {featureId height block : Nat} (hblock : block < deactivatedBlock)
    (hdone : ((deactivate featureId height).run s).1 = true) :
    ((deactivate featureId height).run s).2.params.isFeatureIdActivated featureId block = false := by
  have hlive : s.params.isFeatureIdActivated featureId height = true := by
    by_contra hno
    have hrefused : ((deactivate featureId height).run s).1 = false := by
      show (s.deactivateFeature featureId height).1 = false
      unfold State.deactivateFeature
      rw [if_neg hno]
    rw [hrefused] at hdone
    cases hdone
  show (s.deactivateFeature featureId height).2.params.isFeatureIdActivated featureId block = false
  unfold State.deactivateFeature
  rw [if_pos hlive]
  exact setFeatureBlock_self s.params featureId hblock

/-! ## When deactivations last -/

/-- The MetaDEx of a test network is deactivated in block 100. -/
def deactivatedNode : State :=
  ((deactivate 2 100).run (State.started regTestParams false)).2

theorem deactivatedNode_done :
    ((deactivate 2 100).run (State.started regTestParams false)).1 = true := rfl

/-- From block 999999 on it is active again. -/
theorem deactivatedNode_active {block : Nat} (h : deactivatedBlock ≤ block) :
    deactivatedNode.params.isFeatureIdActivated 2 block = true := by
  show decide (Function.update regTestParams.featureBlock .metaDEx deactivatedBlock .metaDEx ≤
    block) = true
  rw [Function.update_self]
  exact decide_eq_true h

/-- **HOW LONG A DEACTIVATION LASTS**: exactly up to the height that is written for deactivated
    features. -/
theorem deactivationsLast_iff (block : Nat) : DeactivationsLast block ↔ block < deactivatedBlock := by
  constructor
  · intro h
    by_contra hreached
    have hreached : deactivatedBlock ≤ block := not_lt.mp hreached
    have hoff := h.lasts (State.started regTestParams false) [] [] 2 100
      (List.pairwise_singleton _ _) deactivatedNode_done (by unfold deactivatedBlock at hreached; omega)
      fun a ha => by cases ha
    have hon := deactivatedNode_active hreached
    rw [show deactivatedNode = runAll (State.started regTestParams false) ([] ++ [deactivate 2 100])
      from rfl, hoff] at hon
    cases hon
  · intro hblock
    constructor
    · intro s calls later featureId height _ hdone _ hlater
      have hsplit : runAll s (calls ++ deactivate featureId height :: later) =
          runAll ((deactivate featureId height).run (runAll s calls)).2 later := by
        unfold runAll
        rw [List.foldl_append]
        rfl
      rw [hsplit]
      exact runAll_stays_off hblock later _ (deactivate_off hblock hdone) hlater
    · intro s call featureId hne
      exact FeatureCall.run_of_ne s hne block

/-- The MetaDEx is deactivated in block 100 and active in block 999999. -/
theorem deactivation_ends : ¬ ∀ block, DeactivationsLast block := by
  intro h
  have hoff := (h 999999).lasts (State.started regTestParams false) [] [] 2 100
    (List.pairwise_singleton _ _) deactivatedNode_done (by decide) fun a ha => by cases ha
  have hon := deactivatedNode_active (le_refl deactivatedBlock)
  rw [show deactivatedNode = runAll (State.started regTestParams false) ([] ++ [deactivate 2 100])
    from rfl] at hon
  rw [show deactivatedBlock = 999999 from rfl, hoff] at hon
  cases hon

end OmniCore
