import OmniCore.ContractRun
import OmniCore.Lib.Twin
import OmniCore.Outstanding

/-! # FeeRollback — the fee cache before a block

    The cache lists the amounts of a property block by block, and going back before a block
    drops what is not older. With `msc_debug_fees` on, every update also drops what is more
    than 50 blocks older than the update, and with the switch off it drops nothing: the
    `continue` of the pruning stands inside the debug branch. So the amount before a block
    is lost if the last update before it is that much older than the last update. -/

namespace OmniCore

open Std (ExtTreeMap)
open Machine TextRec MapSum Exec

/-! ## Rolling back -/

/-- One property of `COmniFeeCache::RollBackCache`. -/
def rollBackProperty (block : Int) (propertyId : PropertyId) : ExecM Unit := do
  let h ← getCacheHistory propertyId
  match h.items.getLast? with
  | none => pure ()
  | some mostRecentItem =>
      -- all entries are unaffected by this rollback, nothing to do
      if mostRecentItem.1 < block then pure ()
      else putFeeCache propertyId (h.items.filter fun item => decide (item.1 < block))

/-- The identifiers of both ecosystems that are in use. -/
def issuedProperties (sps : CMPSPInfo) : List PropertyId :=
  List.range' 1 (sps.peekNextSPID 1 - 1) ++
    List.range' testEcoProperty1 (sps.peekNextSPID 2 - testEcoProperty1)

/-- `COmniFeeCache::RollBackCache`, block is inclusive. -/
def rollBackCache (block : Int) : ExecM Unit := do
  let s ← get
  (issuedProperties s.sps).forM (rollBackProperty block)

/-! ## Runs -/

/-- A call of `AddFee` or of `ClearCache`, or the rest of the node, which may turn everything else
    into something else. -/
inductive FeeStep
  | addFee (propertyId : PropertyId) (block amount : Int)
  | clearCache (propertyId : PropertyId) (block : Int)
  | other (t : State)

namespace FeeStep

/-- The step. -/
def exec : FeeStep → ExecM Unit
  | addFee propertyId block amount => OmniCore.addFee propertyId block amount
  | clearCache propertyId block => OmniCore.clearCache propertyId block
  | other t => modify fun s => { t with feeCache := s.feeCache, debugFees := s.debugFees }

/-- The property and the block of a call. -/
def call? : FeeStep → Option (PropertyId × Int)
  | addFee propertyId block _ => some (propertyId, block)
  | clearCache propertyId block => some (propertyId, block)
  | other _ => none

/-- Not a call at the block or later. -/
def isBefore (b : Int) (step : FeeStep) : Bool := step.call?.all fun c => decide (c.2 < b)

end FeeStep

/-- The blocks of the calls never decrease, from a block on. -/
def Ordered : Int → List FeeStep → Prop
  | _, [] => True
  | height, step :: rest =>
      match step.call? with
      | none => Ordered height rest
      | some (_, block) => height ≤ block ∧ block < 2 ^ 31 ∧ Ordered block rest

/-- The blocks of the calls for a property. -/
def callsFor (p : PropertyId) (steps : List FeeStep) : List Int :=
  (steps.filterMap FeeStep.call?).filterMap fun c => if c.1 = p then some c.2 else none

/-- The steps up to the last call before a block. -/
def stepsBefore (b : Int) (steps : List FeeStep) : List FeeStep := steps.takeWhile (FeeStep.isBefore b)

/-- A node with nothing cached, with `msc_debug_fees` on or off. -/
def feeNode (debugFees : Bool) (s : State) : State := { s with feeCache := ∅, debugFees := debugFees }

/-- What `GetCachedAmount` answers after some steps. -/
def amountAfter (debugFees : Bool) (s : State) (steps : List FeeStep) (p : PropertyId) : Option Int :=
  value (do
    steps.forM FeeStep.exec
    getCachedAmount p) (feeNode debugFees s)

/-- What it answers after some steps and a rollback. -/
def amountAfterRollBack (debugFees : Bool) (s : State) (steps : List FeeStep) (b : Int)
    (p : PropertyId) : Option Int :=
  value (do
    steps.forM FeeStep.exec
    rollBackCache b
    getCachedAmount p) (feeNode debugFees s)

/-! ## What is expected -/

/-- **ROLLBACK IS EXACT, AND DEBUGGING CHANGES NOTHING**: the amount of an issued property is the one
    after the last call before the block, and all amounts are the same with the switch on or off. -/
structure FeeRollbackExact (s : State) (steps : List FeeStep) (b : Int) (issued : List PropertyId) :
    Prop where
  exact : ∀ debugFees, ∀ p ∈ issued,
    amountAfterRollBack debugFees s steps b p = amountAfter debugFees s (stepsBefore b steps) p
  same : ∀ pre, pre <+: steps → ∀ p, amountAfter true s pre p = amountAfter false s pre p
  sameBack : ∀ p, amountAfterRollBack true s steps b p = amountAfterRollBack false s steps b p

/-- The amount before the block is 0, or the last call before it is at most 50 blocks older than the
    last call. -/
def KeptBefore (s : State) (steps : List FeeStep) (b : Int) (p : PropertyId) : Prop :=
  amountAfter false s (stepsBefore b steps) p = some 0 ∨
    ∀ last before, (callsFor p steps).getLast? = some last →
      (callsFor p (stepsBefore b steps)).getLast? = some before → last - before ≤ maxStateHistory

/-! ## A node and its history -/

/-- The items of every property, pruned or not. -/
structure HoldsFees (height : Int) (H : PropertyId → List (Int × Int)) (s : State) : Prop where
  nonneg : 0 ≤ height
  entry : ∀ p, FeeEntry height s.feeCache[feeKey p]? (keptItems s.debugFees (lastBlock (H p)) (H p))
  ok : ∀ p, H p = [] ∨ FeeItemsOk height (H p)

namespace HoldsFees

variable {height block amount : Int} {H : PropertyId → List (Int × Int)} {s s' : State}
  {p : PropertyId}

theorem start (debugFees : Bool) (s : State) : HoldsFees 0 (fun _ => []) (feeNode debugFees s) :=
  ⟨le_rfl, fun _ => Or.inl ⟨Or.inl ExtTreeMap.getElem?_empty, rfl⟩, fun _ => Or.inl rfl⟩

theorem congr (h : HoldsFees height H s) (hcache : s'.feeCache = s.feeCache)
    (hdebug : s'.debugFees = s.debugFees) : HoldsFees height H s' := by
  refine ⟨h.nonneg, fun p => ?_, h.ok⟩
  rw [hcache, hdebug]
  exact h.entry p

/-- The amount that is cached is the last one of the history. -/
theorem cached (h : HoldsFees height H s) (p : PropertyId) :
    getCachedAmount p s = .ok (newestAmount (H p)) s := by
  have hsame : newestAmount (keptItems s.debugFees (lastBlock (H p)) (H p)) = newestAmount (H p) := by
    rcases h.ok p with hnil | hok
    · rw [hnil]
      rfl
    · exact (keptItems_ok hok s.debugFees).2
  rw [(h.entry p).cached, hsame]

/-- **ONE ITEM** is written into the history. -/
theorem setFeeItem (h : HoldsFees height H s) (hle : height ≤ block) (hblock : IsInt64 block)
    (hamount : IsInt64 amount) :
    ∃ items, setFeeItem p block amount s = .ok () (putItems p items s) ∧
      HoldsFees block (Function.update H p (setItem block amount (H p))) (putItems p items s) := by
  have hnew : FeeItemsOk block (setItem block amount (H p)) :=
    feeItemsOk_replace (h.ok p) hle hblock hamount
  have hrun := setFeeItem_run (h.entry p) hle hblock hamount
  have hlast : lastBlock (H p) ≤ block := by
    rcases h.ok p with hnil | hok
    · rw [hnil]
      exact h.nonneg.trans hle
    · obtain ⟨init, newest, heq⟩ := (List.eq_nil_or_concat' (H p)).resolve_left hok.ne
      have hmem : newest ∈ H p := by
        rw [heq]
        exact List.mem_append_right _ (List.mem_singleton_self newest)
      unfold lastBlock
      rw [heq, List.getLast?_concat]
      exact (hok.blocks newest hmem).2.trans hle
  rw [keptItems_setItem_kept s.debugFees hlast] at hrun
  refine ⟨_, hrun, h.nonneg.trans hle, fun q => ?_, fun q => ?_⟩
  · rw [feeCache_putItems]
    by_cases hq : p = q
    · subst hq
      rw [if_pos rfl, Function.update_self, lastBlock_setItem]
      have hkept := (keptItems_ok hnew s.debugFees).1
      rw [lastBlock_setItem] at hkept
      exact Or.inr ⟨rfl, hkept⟩
    · rw [if_neg hq, Function.update_of_ne (Ne.symm hq)]
      exact (h.entry q).mono hle
  · by_cases hq : p = q
    · subst hq
      rw [Function.update_self]
      exact Or.inr hnew
    · rw [Function.update_of_ne (Ne.symm hq)]
      exact (h.ok q).imp id fun hok => hok.mono hle

end HoldsFees

/-! ## Two nodes -/

/-- The state with another cache and another switch. -/
def withCache (cache : TextDB) (debugFees : Bool) (s : State) : State :=
  { s with feeCache := cache, debugFees := debugFees }

section Blind

variable {c : TextDB} {d : Bool}

theorem blind_assertThat (site : AssertSite) (b : Bool) :
    Blind (withCache c d) (assertThat site b : ExecM Unit) := by
  cases b with
  | true => exact Blind.pure ()
  | false => exact Blind.throw _

theorem blind_signed64 (n : Int) : Blind (withCache c d) (signed64 n) :=
  (Blind.pure n).ite (Blind.throw _)

theorem blind_convertTo256 (n : Int) : Blind (withCache c d) (convertTo256 n) :=
  (blind_assertThat _ _).bind fun _ => Blind.pure _

theorem blind_convertTo64 (n : Nat) : Blind (withCache c d) (convertTo64 n) :=
  (blind_assertThat _ _).bind fun _ => Blind.pure _

theorem blind_allocate (amount totalTokens : Int) (owners : List (Int × Address)) :
    ∀ sentSoFar receiversSet,
      Blind (withCache c d) (allocate amount totalTokens owners sentSoFar receiversSet) := by
  induction owners with
  | nil => exact fun _ _ => Blind.pure _
  | cons owner rest ih =>
      intro sentSoFar receiversSet
      refine (blind_convertTo256 _).bind fun _ => (blind_convertTo256 _).bind fun _ => ?_
      refine (blind_convertTo256 _).bind fun _ => (blind_convertTo64 _).bind fun _ => ?_
      exact (ih _ _).ite (Blind.pure _)

theorem blind_stoGetReceivers (sender : Option Address) (property : PropertyId) (amount : Int) :
    Blind (withCache c d) (stoGetReceivers sender property amount) := by
  refine Blind.get_bind (fun _ => rfl) fun s => Blind.bind ?_ fun _ => blind_allocate _ _ _ _ _
  refine Blind.foldlM (fun acc e => (blind_signed64 _).bind fun tokens => ?_) _
  exact (Blind.pure _).ite ((blind_signed64 _).bind fun _ => Blind.pure _)

/-- The ledger does not look at the fees. -/
theorem blind_updateTallyMap (who : Address) (p : PropertyId) (amount : Int) (ty : TallyType) :
    Blind (withCache c d) (updateTallyMap who p amount ty) := by
  refine Blind.ite (Blind.pure false) ⟨fun s => ?_⟩
  -- what is read of the state is the same on both sides
  have hrun : ∀ (unfrozen ok same : Bool) (m : TallyMap),
      (do
        if ty = .balance ∧ amount < 0 then assertThat .frozen unfrozen
        set ((withCache c d s).withTally m)
        if ok = false then assertThat .condition same
        pure ok : ExecM Bool) (withCache c d s) = mapState (withCache c d) ((do
        if ty = .balance ∧ amount < 0 then assertThat .frozen unfrozen
        set (s.withTally m)
        if ok = false then assertThat .condition same
        pure ok : ExecM Bool) s) := by
    intro unfrozen ok same m
    by_cases hdebit : ty = .balance ∧ amount < 0
    · simp only [if_pos hdebit]
      cases unfrozen <;> cases ok <;> cases same <;> rfl
    · simp only [if_neg hdebit]
      cases ok <;> cases same <;> rfl
  exact hrun (!s.isAddressFrozen who p) (s.tallyMap.update who p amount ty).1
    (s.getMPbalance who p ty ==
      State.getMPbalance (s.withTally (s.tallyMap.update who p amount ty).2) who p ty)
    (s.tallyMap.update who p amount ty).2
theorem blind_assertUpdate (who : Address) (p : PropertyId) (amount : Int) (ty : TallyType) :
    Blind (withCache c d) (assertUpdate who p amount ty) :=
  (blind_updateTallyMap who p amount ty).bind fun _ => blind_assertThat _ _

theorem blind_recordFeeDistribution (propertyId : PropertyId) (block total : Int)
    (feeRecipients : ExtTreeMap (Text × Int) Unit pairCmp) :
    Blind (withCache c d) (recordFeeDistribution propertyId block total feeRecipients) :=
  Blind.modify fun _ => rfl

end Blind

/-- Two nodes with the same history, one with the switch on, that agree on everything else. -/
structure TwinNodes (height : Int) (H : PropertyId → List (Int × Int)) (s s' : State) : Prop where
  on : HoldsFees height H s
  off : HoldsFees height H s'
  debugOn : s.debugFees = true
  debugOff : s'.debugFees = false
  rest : s' = withCache s'.feeCache s'.debugFees s

namespace TwinNodes

variable {height block : Int} {H : PropertyId → List (Int × Int)} {s s' : State} {p : PropertyId}

/-- **WHAT DOES NOT LOOK AT THE FEES** does the same on both nodes. -/
theorem blind {α : Type} {x : ExecM α} (h : TwinNodes height H s s')
    (hx : ∀ c d, Blind (withCache c d) x) : Agree (TwinNodes height H) (x s) (x s') := by
  have hself : x s = mapState (withCache s.feeCache s.debugFees) (x s) :=
    (hx s.feeCache s.debugFees).run s
  have hother : x s' = mapState (withCache s'.feeCache s'.debugFees) (x s) := by
    conv_lhs => rw [h.rest]
    exact (hx s'.feeCache s'.debugFees).run s
  rw [hother]
  cases hxs : x s with
  | ok a t =>
      rw [hxs] at hself
      have ht : t = withCache s.feeCache s.debugFees t := by
        injection hself
      have hcache : t.feeCache = s.feeCache := by rw [ht]; rfl
      have hdebug : t.debugFees = s.debugFees := by rw [ht]; rfl
      exact ⟨rfl, h.on.congr hcache hdebug, h.off.congr rfl rfl, hdebug.trans h.debugOn, h.debugOff, rfl⟩
  | error e t => rfl

/-- Both nodes cache the same amount. -/
theorem getCachedAmount (h : TwinNodes height H s s') (p : PropertyId) :
    Agree (TwinNodes height H) (getCachedAmount p s) (getCachedAmount p s') :=
  .of_ok (h.on.cached p) (h.off.cached p) h

/-- Both nodes write the same item. -/
theorem setFeeItem {amount : Int} (h : TwinNodes height H s s') (hle : height ≤ block)
    (hblock : IsInt64 block) (hamount : IsInt64 amount) :
    Agree (TwinNodes block (Function.update H p (setItem block amount (H p))))
      (setFeeItem p block amount s) (setFeeItem p block amount s') := by
  obtain ⟨items, hrun, hon⟩ := h.on.setFeeItem hle hblock hamount
  obtain ⟨items', hrun', hoff⟩ := h.off.setFeeItem hle hblock hamount
  refine .of_ok hrun hrun' ⟨hon, hoff, h.debugOn, h.debugOff, ?_⟩
  conv_lhs => rw [putItems, h.rest]
  rfl

/-- What a call leaves: an item of its block. -/
def Wrote (block : Int) (H : PropertyId → List (Int × Int)) (p : PropertyId) (s s' : State) : Prop :=
  ∃ a, TwinNodes block (Function.update H p (setItem block a (H p))) s s'

/-- Both nodes distribute what is cached, or halt. -/
theorem distributeCache (h : TwinNodes block H s s') (hblock : IsInt64 block) (p : PropertyId) :
    Agree (Wrote block H p) (distributeCache p block s) (distributeCache p block s') := by
  refine (h.getCachedAmount p).bind fun cachedAmount _ _ h => ?_
  refine (h.blind fun _ _ => blind_stoGetReceivers _ _ _).bind fun receiversSet _ _ h => ?_
  refine (h.blind fun _ _ => Blind.forM fun r => blind_assertUpdate _ _ _ _).bind fun _ _ _ h => ?_
  refine (h.blind fun _ _ => blind_recordFeeDistribution _ _ _ _).bind fun _ _ _ h => ?_
  refine (h.blind fun _ _ => blind_assertThat _ _).bind fun _ _ _ h => ?_
  exact (h.setFeeItem le_rfl hblock (by decide)).imp fun _ _ h => ⟨0, h⟩

/-- Both nodes reach the threshold, or neither does. -/
theorem evalCache (h : TwinNodes block H s s') (hblock : IsInt64 block) (p : PropertyId) :
    Agree (fun t t' => TwinNodes block H t t' ∨ Wrote block H p t t')
      (evalCache p block s) (evalCache p block s') := by
  have hthreshold : s'.distributionThreshold p = s.distributionThreshold p := by
    rw [h.rest]
    rfl
  have heval : ∀ {t : State}, OmniCore.getCachedAmount p t = .ok (newestAmount (H p)) t →
      OmniCore.evalCache p block t = (if t.distributionThreshold p ≤ newestAmount (H p) then
        OmniCore.distributeCache p block else pure ()) t := by
    intro t ht
    unfold OmniCore.evalCache
    simp only [bind, EStateM.bind, get, getThe, MonadStateOf.get, EStateM.get]
    rw [ht]
  rw [heval (h.on.cached p), heval (h.off.cached p), hthreshold]
  by_cases hreached : s.distributionThreshold p ≤ newestAmount (H p)
  · rw [if_pos hreached]
    exact (h.distributeCache hblock p).imp fun _ _ => Or.inr
  · rw [if_neg hreached]
    exact ⟨rfl, Or.inl h⟩

/-- **A FEE** does the same on both nodes. -/
theorem addFee (h : TwinNodes height H s s') (hle : height ≤ block) (hblock : IsInt64 block)
    (p : PropertyId) (amount : Int) :
    Agree (Wrote block H p) (addFee p block amount s) (addFee p block amount s') := by
  refine (h.getCachedAmount p).bind fun current t t' h => ?_
  by_cases hover : 0 < current ∧ maxInt64 - current < amount
  · rw [if_pos hover]
    exact rfl
  rw [if_neg hover]
  by_cases hsum : IsInt64 (current + amount)
  · have hnew : signed64 (current + amount) = pure (current + amount) := if_pos hsum
    rw [hnew, pure_bind]
    refine (h.setFeeItem hle hblock hsum).bind fun _ _ _ h => ?_
    refine (h.evalCache hblock p).imp fun u u' hu => ?_
    rcases hu with hu | ⟨a, hu⟩
    · exact ⟨_, hu⟩
    · -- a distribution replaces the item that was just written
      rw [Function.update_self, setItem_setItem, Function.update_idem] at hu
      exact ⟨a, hu⟩
  · have hbad : signed64 (current + amount) = throw .undefinedBehaviour := if_neg hsum
    rw [hbad]
    exact rfl

end TwinNodes

/-! ## Histories of runs -/

theorem callsFor_cons {step : FeeStep} {q p : PropertyId} {block : Int}
    (hstep : step.call? = some (q, block)) (rest : List FeeStep) :
    callsFor p (step :: rest) = if q = p then block :: callsFor p rest else callsFor p rest := by
  unfold callsFor
  rw [List.filterMap_cons_some hstep, List.filterMap_cons]
  by_cases hq : q = p
  · simp [hq]
  · simp [hq]

/-- The history after some steps: every call replaces the item of its block. -/
inductive Records : (PropertyId → List (Int × Int)) → List FeeStep → (PropertyId → List (Int × Int)) →
    Prop
  | nil (H) : Records H [] H
  | call {p block a step rest H H'} (hstep : FeeStep.call? step = some (p, block))
      (h : Records (Function.update H p (setItem block a (H p))) rest H') : Records H (step :: rest) H'
  | other {step rest H H'} (hstep : FeeStep.call? step = none) (h : Records H rest H') :
      Records H (step :: rest) H'

namespace Records

variable {H H' H'' : PropertyId → List (Int × Int)} {steps steps' : List FeeStep}

theorem append (h : Records H steps H') (h' : Records H' steps' H'') :
    Records H (steps ++ steps') H'' := by
  induction h with
  | nil _ => exact h'
  | call hstep _ ih => exact .call hstep (ih h')
  | other hstep _ ih => exact .other hstep (ih h')

/-- Calls at a block or later leave the items before it. -/
theorem filter_before (h : Records H steps H') {b : Int}
    (hlate : ∀ step ∈ steps, ∀ c, step.call? = some c → b ≤ c.2) (p : PropertyId) :
    (H' p).filter (fun item => decide (item.1 < b)) =
      (H p).filter fun item => decide (item.1 < b) := by
  induction h with
  | nil _ => rfl
  | @call q block a step rest H₀ _ hstep _ ih =>
      have hblock : b ≤ block := hlate step List.mem_cons_self _ hstep
      rw [ih fun step' hmem => hlate step' (List.mem_cons_of_mem step hmem)]
      by_cases hp : p = q
      · subst hp
        rw [Function.update_self]
        unfold setItem
        rw [List.filter_append, List.filter_filter, List.filter_cons, if_neg (by simpa using hblock),
          List.filter_nil, List.append_nil]
        refine List.filter_congr fun item _ => ?_
        by_cases hold : item.1 < b
        · have hne : item.1 ≠ block := by omega
          simp [hold, hne]
        · simp [hold]
      · rw [Function.update_of_ne hp]
  | @other step rest _ _ _ _ ih =>
      exact ih fun step' hmem => hlate step' (List.mem_cons_of_mem step hmem)

/-- Calls before a block leave only items before it. -/
theorem all_before (h : Records H steps H') {b : Int}
    (hearly : ∀ step ∈ steps, ∀ c, step.call? = some c → c.2 < b)
    (hH : ∀ p, ∀ item ∈ H p, item.1 < b) (p : PropertyId) : ∀ item ∈ H' p, item.1 < b := by
  induction h with
  | nil _ => exact hH p
  | @call q block a step rest H₀ _ hstep _ ih =>
      have hblock : block < b := hearly step List.mem_cons_self _ hstep
      refine ih (fun step' hmem => hearly step' (List.mem_cons_of_mem step hmem)) fun r item hitem => ?_
      by_cases hr : r = q
      · subst hr
        rw [Function.update_self] at hitem
        rcases List.mem_append.mp hitem with hmem | hmem
        · exact hH r item (List.mem_of_mem_filter hmem)
        · rw [List.mem_singleton.mp hmem]
          exact hblock
      · rw [Function.update_of_ne hr] at hitem
        exact hH r item hitem
  | @other step rest _ _ _ _ ih =>
      exact ih (fun step' hmem => hearly step' (List.mem_cons_of_mem step hmem)) hH

/-- The last item is that of the last call. -/
theorem getLast_block (h : Records H steps H') (p : PropertyId) :
    (H' p).getLast?.map Prod.fst =
      (callsFor p steps).getLast?.or ((H p).getLast?.map Prod.fst) := by
  induction h with
  | nil _ => rfl
  | @call q block a step rest H₀ _ hstep _ ih =>
      rw [ih, callsFor_cons hstep]
      by_cases hp : q = p
      · subst hp
        rw [Function.update_self, if_pos rfl, List.getLast?_cons]
        unfold setItem
        rw [List.getLast?_concat]
        cases (callsFor q rest).getLast? with
        | none => rfl
        | some last => rfl
      · rw [Function.update_of_ne (Ne.symm hp), if_neg hp]
  | @other step rest _ _ hstep _ ih =>
      rw [ih]
      unfold callsFor
      rw [List.filterMap_cons_none hstep]

end Records

theorem ordered_call {height : Int} {step : FeeStep} {rest : List FeeStep} {p : PropertyId} {block : Int}
    (hstep : step.call? = some (p, block)) :
    Ordered height (step :: rest) ↔ height ≤ block ∧ block < 2 ^ 31 ∧ Ordered block rest := by
  conv_lhs => unfold Ordered
  rw [hstep]

theorem ordered_other {height : Int} {step : FeeStep} {rest : List FeeStep} (hstep : step.call? = none) :
    Ordered height (step :: rest) ↔ Ordered height rest := by
  conv_lhs => unfold Ordered
  rw [hstep]

/-- No call is before the first block. -/
theorem Ordered.le {height : Int} {steps : List FeeStep} (h : Ordered height steps) :
    ∀ step ∈ steps, ∀ c, step.call? = some c → height ≤ c.2 := by
  induction steps generalizing height with
  | nil => exact fun _ hmem => (List.not_mem_nil hmem).elim
  | cons first rest ih =>
      intro step hmem c hc
      cases hfirst : first.call? with
      | none =>
          rcases List.mem_cons.mp hmem with rfl | hmem
          · rw [hfirst] at hc
            cases hc
          · exact ih ((ordered_other hfirst).mp h) step hmem c hc
      | some d =>
          obtain ⟨hle, _, hrest⟩ := (ordered_call hfirst).mp h
          rcases List.mem_cons.mp hmem with rfl | hmem
          · rw [hfirst] at hc
            cases hc
            exact hle
          · exact hle.trans (ih hrest step hmem c hc)

/-- Up to the last call before a block, all calls are before it. -/
theorem stepsBefore_early (b : Int) (steps : List FeeStep) :
    ∀ step ∈ stepsBefore b steps, ∀ c, step.call? = some c → c.2 < b := by
  intro step hmem c hc
  have hbefore := List.mem_takeWhile_imp hmem
  unfold FeeStep.isBefore at hbefore
  rw [hc] at hbefore
  exact of_decide_eq_true hbefore

/-- From there on, no call is. -/
theorem Ordered.late {height : Int} {steps : List FeeStep} (h : Ordered height steps) (b : Int) :
    ∀ step ∈ steps.dropWhile (FeeStep.isBefore b), ∀ c, step.call? = some c → b ≤ c.2 := by
  induction steps generalizing height with
  | nil => exact fun _ hmem => (List.not_mem_nil hmem).elim
  | cons first rest ih =>
      cases hfirst : first.call? with
      | none =>
          have hskip : FeeStep.isBefore b first = true := by
            unfold FeeStep.isBefore
            rw [hfirst]
            rfl
          rw [List.dropWhile_cons_of_pos hskip]
          exact ih ((ordered_other hfirst).mp h)
      | some d =>
          obtain ⟨_, _, hrest⟩ := (ordered_call hfirst).mp h
          by_cases hearly : d.2 < b
          · have hskip : FeeStep.isBefore b first = true := by
              unfold FeeStep.isBefore
              rw [hfirst]
              exact decide_eq_true hearly
            rw [List.dropWhile_cons_of_pos hskip]
            exact ih hrest
          · have hstop : ¬ FeeStep.isBefore b first = true := by
              unfold FeeStep.isBefore
              rw [hfirst]
              simpa using hearly
            rw [List.dropWhile_cons_of_neg hstop]
            intro step hmem c hc
            rcases List.mem_cons.mp hmem with rfl | hmem
            · rw [hfirst] at hc
              cases hc
              exact not_lt.mp hearly
            · exact (not_lt.mp hearly).trans (hrest.le step hmem c hc)

namespace TwinNodes

/-- **A STEP** does the same on both nodes. -/
theorem exec {height : Int} {H : PropertyId → List (Int × Int)} {s s' : State} {step : FeeStep}
    {rest : List FeeStep} (h : TwinNodes height H s s') (hstep : Ordered height (step :: rest)) :
    Agree (fun t t' => ∃ height' H', TwinNodes height' H' t t' ∧ Records H [step] H' ∧
      Ordered height' rest) (step.exec s) (step.exec s') := by
  have hint : ∀ {block : Int}, height ≤ block → block < 2 ^ 31 → IsInt64 block := by
    intro block hle hlt
    have := h.on.nonneg
    unfold IsInt64 minInt64 maxInt64
    omega
  cases step with
  | addFee p block amount =>
      obtain ⟨hle, hlt, hrest⟩ := (ordered_call rfl).mp hstep
      refine (h.addFee hle (hint hle hlt) p amount).imp fun t t' ⟨a, ht⟩ => ?_
      exact ⟨block, _, ht, .call rfl (.nil _), hrest⟩
  | clearCache p block =>
      obtain ⟨hle, hlt, hrest⟩ := (ordered_call rfl).mp hstep
      refine (h.setFeeItem hle (hint hle hlt) (by decide)).imp fun t t' ht => ?_
      exact ⟨block, _, ht, .call rfl (.nil _), hrest⟩
  | other t =>
      have hrest := (ordered_other rfl).mp hstep
      refine .of_ok (a := ()) rfl rfl ⟨height, H, ⟨?_, ?_, ?_, ?_, ?_⟩, .other rfl (.nil H), hrest⟩
      · exact h.on.congr rfl rfl
      · exact h.off.congr rfl rfl
      · exact h.debugOn
      · exact h.debugOff
      · rfl

/-- **A RUN** does the same on both nodes. -/
theorem run (steps steps' : List FeeStep) {height : Int} {H : PropertyId → List (Int × Int)}
    {s s' : State} (h : TwinNodes height H s s') (hsteps : Ordered height (steps ++ steps')) :
    Agree (fun t t' => ∃ height' H', TwinNodes height' H' t t' ∧ Records H steps H' ∧
      Ordered height' steps') (steps.forM FeeStep.exec s) (steps.forM FeeStep.exec s') := by
  induction steps generalizing height H s s' with
  | nil => exact ⟨rfl, height, H, h, .nil H, hsteps⟩
  | cons step rest ih =>
      show Agree _ ((step.exec >>= fun _ => rest.forM FeeStep.exec) s)
        ((step.exec >>= fun _ => rest.forM FeeStep.exec) s')
      refine (h.exec hsteps).bind fun _ t t' ⟨height₁, H₁, h₁, hrec₁, hrest⟩ => ?_
      refine (ih h₁ hrest).imp fun u u' ⟨height₂, H₂, h₂, hrec₂, hlater⟩ => ?_
      exact ⟨height₂, H₂, h₂, hrec₁.append hrec₂, hlater⟩

end TwinNodes

/-! ## Rollback -/

/-- The items of a property before a block. -/
def itemsBefore (b : Int) (items : List (Int × Int)) : List (Int × Int) :=
  items.filter fun item => decide (item.1 < b)

theorem itemsBefore_idem (b : Int) (items : List (Int × Int)) :
    itemsBefore b (itemsBefore b items) = itemsBefore b items := by
  unfold itemsBefore
  rw [List.filter_filter]
  simp

/-- An entry without what is not older. -/
theorem feeEntry_before {height : Int} {items : List (Int × Int)} (h : FeeItemsOk height items) (b : Int) :
    FeeEntry height (some (feeValue (itemsBefore b items))) (itemsBefore b items) := by
  by_cases hnil : itemsBefore b items = []
  · rw [hnil]
    exact Or.inl ⟨Or.inr rfl, rfl⟩
  · refine Or.inr ⟨rfl, hnil, h.sorted.filter _, fun item hitem => ?_, fun item hitem => ?_⟩
    · exact h.blocks item (List.mem_of_mem_filter hitem)
    · exact h.amounts item (List.mem_of_mem_filter hitem)

/-- **ONE PROPERTY** loses what is not older, and the others keep their entries. -/
theorem rollBackProperty_run {height : Int} {s : State} {p : PropertyId} {items : List (Int × Int)}
    (h : FeeEntry height s.feeCache[feeKey p]? items) (b : Int) :
    ∃ s', rollBackProperty b p s = .ok () s' ∧
      FeeEntry height s'.feeCache[feeKey p]? (itemsBefore b items) ∧
      ∀ q, q ≠ p → s'.feeCache[feeKey q]? = s.feeCache[feeKey q]? := by
  obtain ⟨hist, hrun, hhist⟩ := h.history
  have hunfold : rollBackProperty b p s = (match items.getLast? with
      | none => pure ()
      | some mostRecentItem =>
          if mostRecentItem.1 < b then pure ()
          else putFeeCache p (itemsBefore b items) : ExecM Unit) s := by
    unfold rollBackProperty
    simp only [bind, EStateM.bind]
    rw [hrun]
    dsimp only
    rw [hhist]
    rfl
  rcases h.items_ok with rfl | hok
  · exact ⟨s, hunfold, h, fun _ _ => rfl⟩
  · obtain ⟨init, newest, rfl⟩ := (List.eq_nil_or_concat' items).resolve_left hok.ne
    rw [List.getLast?_concat] at hunfold
    dsimp only at hunfold
    by_cases hold : newest.1 < b
    · -- the newest item is the last one to go
      have hall : itemsBefore b (init ++ [newest]) = init ++ [newest] := by
        refine List.filter_eq_self.mpr fun item hitem => decide_eq_true ?_
        rcases List.mem_append.mp hitem with hmem | hmem
        · have hlt := (List.pairwise_append.mp hok.sorted).2.2 item hmem newest
            (List.mem_singleton_self newest)
          omega
        · rw [List.mem_singleton.mp hmem]
          exact hold
      rw [if_pos hold] at hunfold
      rw [hall]
      exact ⟨s, hunfold, h, fun _ _ => rfl⟩
    · rw [if_neg hold, putFeeCache_run] at hunfold
      refine ⟨_, hunfold, ?_, fun q hq => ?_⟩
      · rw [feeCache_putItems, if_pos rfl]
        exact feeEntry_before hok b
      · rw [feeCache_putItems, if_neg (Ne.symm hq)]

/-- **ALL PROPERTIES** of a list. -/
theorem rollBackProperties_run {height : Int} (b : Int) {l : List PropertyId} {s : State}
    {items : PropertyId → List (Int × Int)}
    (h : ∀ p, FeeEntry height s.feeCache[feeKey p]? (items p)) :
    ∃ s', l.forM (rollBackProperty b) s = .ok () s' ∧ ∀ p,
      FeeEntry height s'.feeCache[feeKey p]? (if p ∈ l then itemsBefore b (items p) else items p) := by
  induction l generalizing s items with
  | nil => exact ⟨s, rfl, fun p => by rw [if_neg List.not_mem_nil]; exact h p⟩
  | cons q rest ih =>
      obtain ⟨s₁, hrun₁, hentry, hother⟩ := rollBackProperty_run (h q) b
      have hnext : ∀ p, FeeEntry height s₁.feeCache[feeKey p]?
          (Function.update items q (itemsBefore b (items q)) p) := by
        intro p
        by_cases hp : p = q
        · subst hp
          rw [Function.update_self]
          exact hentry
        · rw [Function.update_of_ne hp, hother p hp]
          exact h p
      obtain ⟨s₂, hrun₂, hall⟩ := ih hnext
      refine ⟨s₂, ?_, fun p => ?_⟩
      · show (rollBackProperty b q >>= fun _ => rest.forM (rollBackProperty b)) s = _
        simp only [bind, EStateM.bind]
        rw [hrun₁]
        exact hrun₂
      · have hp := hall p
        by_cases hpq : p = q
        · subst hpq
          rw [Function.update_self, itemsBefore_idem, ite_self] at hp
          rw [if_pos List.mem_cons_self]
          exact hp
        · rw [Function.update_of_ne hpq] at hp
          simp only [List.mem_cons, hpq, false_or]
          exact hp

/-- What is cached after a rollback. -/
theorem HoldsFees.rollBack {height : Int} {H : PropertyId → List (Int × Int)} {s : State}
    (h : HoldsFees height H s) (b : Int) (p : PropertyId) :
    value (do
      rollBackCache b
      getCachedAmount p) s =
      some (newestAmount (if p ∈ issuedProperties s.sps then
        itemsBefore b (keptItems s.debugFees (lastBlock (H p)) (H p))
        else keptItems s.debugFees (lastBlock (H p)) (H p))) := by
  obtain ⟨s', hrun, hentry⟩ := rollBackProperties_run b (l := issuedProperties s.sps) h.entry
  have hback : rollBackCache b s = .ok () s' := hrun
  unfold value
  simp only [bind, EStateM.bind]
  rw [hback]
  dsimp only
  rw [(hentry p).cached]

/-- **WHEN PRUNING SHOWS**: the amount before a block is still found if it is 0, or if its item is at
    most 50 blocks older than the last one. -/
theorem newestAmount_kept_iff {height : Int} {items : List (Int × Int)}
    (h : items = [] ∨ FeeItemsOk height items) (b : Int) :
    newestAmount (itemsBefore b (keptItems true (lastBlock items) items)) =
        newestAmount (itemsBefore b items) ↔
      newestAmount (itemsBefore b items) = 0 ∨
        ∀ last before, items.getLast?.map Prod.fst = some last →
          (itemsBefore b items).getLast?.map Prod.fst = some before → last - before ≤ maxStateHistory := by
  have hcomm : itemsBefore b (keptItems true (lastBlock items) items) =
      keptItems true (lastBlock items) (itemsBefore b items) := by
    unfold itemsBefore keptItems
    rw [List.filter_filter, List.filter_filter]
    exact List.filter_congr fun item _ => Bool.and_comm _ _
  have hsorted : (itemsBefore b items).Pairwise fun a b => a.1 < b.1 := by
    rcases h with rfl | hok
    · exact List.Pairwise.nil
    · exact hok.sorted.filter _
  have hnonempty : ∀ item ∈ itemsBefore b items, items.getLast?.map Prod.fst = some (lastBlock items) := by
    intro item hitem
    cases hlast : items.getLast? with
    | none =>
        rw [List.getLast?_eq_none_iff.mp hlast] at hitem
        cases hitem
    | some last =>
        unfold lastBlock
        rw [hlast]
        rfl
  rw [hcomm]
  rcases List.eq_nil_or_concat' (itemsBefore b items) with hnil | ⟨init, newest, heq⟩
  · rw [hnil]
    exact iff_of_true rfl (Or.inl rfl)
  · have hitems := hnonempty newest (by
      rw [heq]
      exact List.mem_append_right _ (List.mem_singleton_self newest))
    rw [heq] at hsorted ⊢
    rw [newestAmount_append, List.getLast?_concat, hitems]
    by_cases hold : newest.1 < lastBlock items - maxStateHistory
    · -- all items before the block are pruned
      have hgone : keptItems true (lastBlock items) (init ++ [newest]) = [] := by
        refine List.filter_eq_nil_iff.mpr fun item hitem => ?_
        have hle : item.1 ≤ newest.1 := by
          rcases List.mem_append.mp hitem with hmem | hmem
          · exact ((List.pairwise_append.mp hsorted).2.2 item hmem newest
              (List.mem_singleton_self newest)).le
          · rw [List.mem_singleton.mp hmem]
        have hlt : item.1 < lastBlock items - maxStateHistory := by omega
        simp [hlt]
      rw [hgone]
      constructor
      · exact fun hzero => Or.inl hzero.symm
      · rintro (hzero | hrecent)
        · exact hzero.symm
        · have := hrecent _ _ rfl rfl
          omega
    · have hkept : keptItems true (lastBlock items) (init ++ [newest]) =
          keptItems true (lastBlock items) init ++ [newest] := by
        unfold keptItems
        rw [List.filter_append, List.filter_cons, if_pos (by simp [hold]), List.filter_nil]
      rw [hkept, newestAmount_append]
      refine iff_of_true rfl (Or.inr fun last before hl hb => ?_)
      cases hl
      cases hb
      omega

/-- Without the switch, nothing is pruned. -/
theorem keptItems_false (block : Int) (items : List (Int × Int)) : keptItems false block items = items :=
  List.filter_eq_self.mpr fun item _ => by rw [Bool.and_false]; rfl

theorem amountAfter_of_run {debugFees : Bool} {s₀ s : State} {steps : List FeeStep} {height : Int}
    {H : PropertyId → List (Int × Int)}
    (hrun : steps.forM FeeStep.exec (feeNode debugFees s₀) = .ok () s) (h : HoldsFees height H s)
    (p : PropertyId) : amountAfter debugFees s₀ steps p = some (newestAmount (H p)) := by
  unfold amountAfter value
  simp only [bind, EStateM.bind]
  rw [hrun]
  dsimp only
  rw [h.cached]

theorem amountAfterRollBack_of_run {debugFees : Bool} {s₀ s : State} {steps : List FeeStep}
    {height : Int} {H : PropertyId → List (Int × Int)}
    (hrun : steps.forM FeeStep.exec (feeNode debugFees s₀) = .ok () s) (h : HoldsFees height H s)
    (b : Int) (p : PropertyId) :
    amountAfterRollBack debugFees s₀ steps b p =
      some (newestAmount (if p ∈ issuedProperties s.sps then
        itemsBefore b (keptItems s.debugFees (lastBlock (H p)) (H p))
        else keptItems s.debugFees (lastBlock (H p)) (H p))) := by
  rw [← h.rollBack b p]
  unfold amountAfterRollBack value
  simp only [bind, EStateM.bind]
  rw [hrun]

theorem TwinNodes.start (s : State) :
    TwinNodes 0 (fun _ => []) (feeNode true s) (feeNode false s) :=
  ⟨HoldsFees.start true s, HoldsFees.start false s, rfl, rfl, rfl⟩

/-- Without a rollback, the switch changes no amount. -/
theorem amountAfter_same {s : State} {steps pre : List FeeStep} (hordered : Ordered 0 steps)
    (hpre : pre <+: steps) (p : PropertyId) : amountAfter true s pre p = amountAfter false s pre p := by
  obtain ⟨post, rfl⟩ := hpre
  refine Agree.value_eq (R := fun _ _ => True) ?_
  refine ((TwinNodes.start s).run pre post hordered).bind fun _ t t' ⟨_, _, h, _⟩ => ?_
  exact (h.getCachedAmount p).imp fun _ _ _ => trivial

/-- A run on both nodes, with the history before a block and at the end. -/
theorem twinRun {s₀ s : State} {steps : List FeeStep} (hordered : Ordered 0 steps)
    (hrun : steps.forM FeeStep.exec (feeNode false s₀) = .ok () s) (b : Int) :
    ∃ (u u' t : State) (height₁ height₂ : Int) (H₁ H₂ : PropertyId → List (Int × Int)),
      (stepsBefore b steps).forM FeeStep.exec (feeNode true s₀) = .ok () u ∧
      (stepsBefore b steps).forM FeeStep.exec (feeNode false s₀) = .ok () u' ∧
      TwinNodes height₁ H₁ u u' ∧ Records (fun _ => []) (stepsBefore b steps) H₁ ∧
      steps.forM FeeStep.exec (feeNode true s₀) = .ok () t ∧
      TwinNodes height₂ H₂ t s ∧ Records (fun _ => []) steps H₂ ∧
      ∀ p, H₁ p = itemsBefore b (H₂ p) := by
  let post := steps.dropWhile (FeeStep.isBefore b)
  have hsplit : stepsBefore b steps ++ post = steps := List.takeWhile_append_dropWhile
  have hforM : ∀ u : State, steps.forM FeeStep.exec u =
      ((stepsBefore b steps).forM FeeStep.exec >>= fun _ => post.forM FeeStep.exec) u := by
    intro u
    conv_lhs => rw [← hsplit]
    exact congrFun List.forM_append u
  -- up to the block
  rw [hforM] at hrun
  obtain ⟨_, u', hpre', hpost'⟩ := bind_ok hrun
  have hearly := (TwinNodes.start s₀).run (stepsBefore b steps) post
    (by rw [hsplit]; exact hordered)
  obtain ⟨u, hpre, height₁, H₁, htwin₁, hrec₁, hlater⟩ := hearly.ok_left hpre'
  -- and from there on
  have hlate := htwin₁.run post [] (by rw [List.append_nil]; exact hlater)
  obtain ⟨t, hpost, height₂, H₂, htwin₂, hrec₂, _⟩ := hlate.ok_left hpost'
  refine ⟨u, u', t, height₁, height₂, H₁, H₂, hpre, hpre', htwin₁, hrec₁, ?_, htwin₂, ?_, fun p => ?_⟩
  · rw [hforM]
    simp only [bind, EStateM.bind]
    rw [hpre]
    exact hpost
  · have hall := hrec₁.append hrec₂
    rw [hsplit] at hall
    exact hall
  · have hbefore := hrec₁.all_before (stepsBefore_early b steps)
      (fun _ item hitem => (List.not_mem_nil hitem).elim) p
    have hfilter := hrec₂.filter_before (hordered.late b) p
    refine Eq.trans ?_ hfilter.symm
    exact (List.filter_eq_self.mpr fun item hitem => decide_eq_true (hbefore item hitem)).symm

/-- **ROLLBACK TO A BLOCK** is exact just if no property has lost the amount before it. -/
theorem feeRollbackExact_at {s₀ s : State} {steps : List FeeStep} (hordered : Ordered 0 steps)
    (hrun : steps.forM FeeStep.exec (feeNode false s₀) = .ok () s) (b : Int) :
    FeeRollbackExact s₀ steps b (issuedProperties s.sps) ↔
      ∀ p ∈ issuedProperties s.sps, KeptBefore s₀ steps b p := by
  obtain ⟨u, u', t, height₁, height₂, H₁, H₂, hpre, hpre', htwin₁, hrec₁, hrunOn, htwin₂, hrec₂, hH⟩ :=
    twinRun hordered hrun b
  have hsps : t.sps = s.sps := by
    rw [htwin₂.rest]
    rfl
  -- before the block, both nodes cache the last of the items before it
  have hbefore : ∀ debugFees p, amountAfter debugFees s₀ (stepsBefore b steps) p =
      some (newestAmount (itemsBefore b (H₂ p))) := by
    intro debugFees p
    rw [← hH]
    cases debugFees with
    | true => exact amountAfter_of_run hpre htwin₁.on p
    | false => exact amountAfter_of_run hpre' htwin₁.off p
  have hbackOn : ∀ p, amountAfterRollBack true s₀ steps b p =
      some (newestAmount (if p ∈ issuedProperties s.sps then
        itemsBefore b (keptItems true (lastBlock (H₂ p)) (H₂ p))
        else keptItems true (lastBlock (H₂ p)) (H₂ p))) := by
    intro p
    rw [amountAfterRollBack_of_run hrunOn htwin₂.on, hsps, htwin₂.debugOn]
  have hbackOff : ∀ p, amountAfterRollBack false s₀ steps b p =
      some (newestAmount (if p ∈ issuedProperties s.sps then itemsBefore b (H₂ p) else H₂ p)) := by
    intro p
    rw [amountAfterRollBack_of_run hrun htwin₂.off, htwin₂.debugOff, keptItems_false]
  -- the blocks of the last items are those of the last calls
  have hkept : ∀ p, KeptBefore s₀ steps b p ↔
      newestAmount (itemsBefore b (keptItems true (lastBlock (H₂ p)) (H₂ p))) =
        newestAmount (itemsBefore b (H₂ p)) := by
    intro p
    have hlast : (H₂ p).getLast?.map Prod.fst = (callsFor p steps).getLast? :=
      (hrec₂.getLast_block p).trans Option.or_none
    have hlastBefore : (itemsBefore b (H₂ p)).getLast?.map Prod.fst =
        (callsFor p (stepsBefore b steps)).getLast? := by
      rw [← hH]
      exact (hrec₁.getLast_block p).trans Option.or_none
    rw [newestAmount_kept_iff (htwin₂.on.ok p), hlast, hlastBefore]
    unfold KeptBefore
    rw [hbefore, Option.some_inj]
  constructor
  · intro hexact p hp
    have hon := hexact.exact true p hp
    rw [hbackOn, hbefore, if_pos hp, Option.some_inj] at hon
    exact (hkept p).mpr hon
  · intro hall
    have hback : ∀ p, amountAfterRollBack true s₀ steps b p =
        amountAfterRollBack false s₀ steps b p := by
      intro p
      rw [hbackOn, hbackOff]
      by_cases hp : p ∈ issuedProperties s.sps
      · rw [if_pos hp, if_pos hp, (hkept p).mp (hall p hp)]
      · rw [if_neg hp, if_neg hp]
        rcases htwin₂.on.ok p with hnil | hok
        · rw [hnil]
          rfl
        · rw [(keptItems_ok hok true).2]
    refine ⟨fun debugFees p hp => ?_, fun pre hpre p => amountAfter_same hordered hpre p, hback⟩
    cases debugFees with
    | true => rw [hback, hbackOff, hbefore, if_pos hp]
    | false => rw [hbackOff, hbefore, if_pos hp]

/-- **ROLLBACK WITHIN THE WINDOW** is exact just if no property has lost the amount before any block
    of the window. -/
theorem feeRollbackExact_iff {s₀ s : State} {steps : List FeeStep} (hordered : Ordered 0 steps)
    (hrun : steps.forM FeeStep.exec (feeNode false s₀) = .ok () s) (n : Int) :
    (∀ b, n - maxStateHistory < b → b ≤ n →
      FeeRollbackExact s₀ steps b (issuedProperties s.sps)) ↔
    ∀ b, n - maxStateHistory < b → b ≤ n → ∀ p ∈ issuedProperties s.sps,
      KeptBefore s₀ steps b p := by
  constructor
  · exact fun h b hlo hhi => (feeRollbackExact_at hordered hrun b).mp (h b hlo hhi)
  · exact fun h b hlo hhi => (feeRollbackExact_at hordered hrun b).mpr (h b hlo hhi)

/-- A node where fees of property 3 are cached up to 1000. -/
def thresholdState : State :=
  { State.fresh openParams with
    sps := { CMPSPInfo.init with nextSPID := 4 }
    distributionThresholds := (∅ : ExtTreeMap PropertyId Int).insert 3 1000 }

/-- Fees of blocks 10 and 40. -/
def recentFees : List FeeStep := [.addFee 3 10 5, .addFee 3 40 3]

/-- Fees of blocks 10 and 100. -/
def distantFees : List FeeStep := [.addFee 3 10 5, .addFee 3 100 3]

theorem recentFees_blocks {p : PropertyId} {steps : List FeeStep} (hsub : steps ⊆ recentFees) {c : Int}
    (hc : c ∈ callsFor p steps) : 10 ≤ c ∧ c ≤ 40 := by
  obtain ⟨d, hd, hsome⟩ := List.mem_filterMap.mp hc
  obtain ⟨step, hstep, hcall⟩ := List.mem_filterMap.mp hd
  split at hsome
  · rcases List.mem_pair.mp (hsub hstep) with rfl | rfl
    · cases hcall
      cases hsome
      decide
    · cases hcall
      cases hsome
      decide
  · cases hsome

set_option maxRecDepth 4000 in
/-- Fees 30 blocks apart are rolled back within the window of block 40, as to block 20. -/
theorem recentFees_exact : FeeRollbackExact thresholdState recentFees 20
    (issuedProperties (after (recentFees.forM FeeStep.exec) (feeNode false thresholdState)).sps) := by
  have hvalue : value (recentFees.forM FeeStep.exec) (feeNode false thresholdState) = some () := by
    decide +kernel
  refine (feeRollbackExact_iff ?_ (eq_ok_of_value hvalue) 40).mpr (fun b _ _ p _ => ?_) 20
    (by decide) (by decide)
  · exact ⟨by norm_num, by norm_num, by norm_num, by norm_num, trivial⟩
  · refine Or.inr fun last before hlast hbefore => ?_
    have hl := recentFees_blocks (List.Subset.refl _) (List.mem_of_getLast? hlast)
    have hb := recentFees_blocks (List.takeWhile_sublist _).subset (List.mem_of_getLast? hbefore)
    unfold maxStateHistory
    omega

set_option maxRecDepth 4000 in
/-- With the switch on, going back before block 100 loses the fee of block 10. -/
theorem distantFees_lost : ¬ ∀ (s₀ s : State) (steps : List FeeStep), Ordered 0 steps →
    steps.forM FeeStep.exec (feeNode false s₀) = .ok () s → ∀ n b, n - maxStateHistory < b → b ≤ n →
    FeeRollbackExact s₀ steps b (issuedProperties s.sps) := by
  intro hall
  have hvalue : value (distantFees.forM FeeStep.exec) (feeNode false thresholdState) = some () := by
    decide +kernel
  have hexact := hall thresholdState _ distantFees
    ⟨by norm_num, by norm_num, by norm_num, by norm_num, trivial⟩ (eq_ok_of_value hvalue) 100 100
    (by decide) le_rfl
  have hlost := hexact.exact true 3 (by decide +kernel)
  revert hlost
  decide +kernel

end OmniCore
