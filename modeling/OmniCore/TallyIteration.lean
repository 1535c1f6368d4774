import OmniCore.ContractRun
import OmniCore.Lib.Listing

/-! # TallyIteration — walking over the records of an address

    `init()` and `next()` walk over the records of a tally in the order of the property
    identifiers. `next()` answers 0 at the end and for a record of property 0, so a loop
    that stops at 0 sees every record exactly if there is none for property 0. Records
    are only made by `update_tally_map`, and never removed. -/

namespace OmniCore

open Std (ExtTreeMap)
open Machine TextRec MapSum Exec

/-! ## The iterator -/

/-- The iterator of a tally: the properties from its position to the end. -/
abbrev TallyIter := List PropertyId

namespace CMPTally

/-- `CMPTally::init`: the iterator at the first record, and the property of that record. -/
def init (t : CMPTally) : PropertyId × TallyIter :=
  let it := t.mpToken.toList.map Prod.fst
  (it.headD 0, it)

/-- `CMPTally::next`: the property at the iterator, 0 at the end. -/
def next : TallyIter → PropertyId × TallyIter
  | [] => (0, [])
  | p :: rest => (p, rest)

/-- The properties that `while (0 != (propertyId = tally.next()))` sees. -/
def visitLoop : Nat → TallyIter → List PropertyId
  | 0, _ => []
  | fuel + 1, it =>
      let (propertyId, it) := next it
      if propertyId = 0 then [] else propertyId :: visitLoop fuel it

/-- The loop over a tally; `next` answers 0 after as many steps as there are records. -/
def visited (t : CMPTally) : List PropertyId := visitLoop (t.mpToken.size + 1) t.init.2

/-- The tally has a record of the property. -/
def HasRecord (t : CMPTally) (p : PropertyId) : Prop := p ∈ t.mpToken

instance (t : CMPTally) (p : PropertyId) : Decidable (t.HasRecord p) :=
  inferInstanceAs (Decidable (p ∈ t.mpToken))

/-- The loop sees every record exactly once, and nothing else. -/
def VisitsAll (t : CMPTally) : Prop :=
  ∀ p, (t.visited).count p = if t.HasRecord p then 1 else 0

/-- The loop stops at the first 0. -/
theorem visitLoop_eq (it : TallyIter) :
    visitLoop (it.length + 1) it = it.takeWhile (· != 0) := by
  induction it with
  | nil => rfl
  | cons p rest ih =>
      show (if p = 0 then [] else p :: visitLoop (rest.length + 1) rest) = _
      by_cases hp : p = 0
      · simp [hp]
      · simp [hp, ih]

theorem hasRecord_iff (t : CMPTally) (p : PropertyId) :
    t.HasRecord p ↔ p ∈ t.mpToken.toList.map Prod.fst := by
  show p ∈ t.mpToken ↔ _
  rw [ExtTreeMap.map_fst_toList_eq_keys, ExtTreeMap.mem_keys]

theorem nodup_records (t : CMPTally) : (t.mpToken.toList.map Prod.fst).Nodup := by
  rw [ExtTreeMap.map_fst_toList_eq_keys]
  exact ExtTreeMap.nodup_keys

theorem visited_eq (t : CMPTally) :
    t.visited = (t.mpToken.toList.map Prod.fst).takeWhile (· != 0) := by
  have hsize : t.mpToken.size = (t.mpToken.toList.map Prod.fst).length := by simp
  unfold visited
  rw [hsize]
  exact visitLoop_eq _

/-- Without a record of property 0 the walk goes to the end. -/
theorem visited_of_no_zero {t : CMPTally} (h : ¬ t.HasRecord 0) :
    t.visited = t.mpToken.toList.map Prod.fst := by
  rw [visited_eq]
  refine List.takeWhile_eq_self_iff.mpr fun q hq => bne_iff_ne.mpr ?_
  rintro rfl
  exact h ((t.hasRecord_iff 0).mpr hq)

/-- **COMPLETE WITHOUT PROPERTY 0**: the loop sees every record exactly once if and only if there
    is no record of property 0. -/
theorem visitsAll_iff (t : CMPTally) : t.VisitsAll ↔ ¬ t.HasRecord 0 := by
  constructor
  · intro h hzero
    -- property 0 is never seen
    have hcount := h 0
    rw [if_pos hzero, visited_eq] at hcount
    have hnot : 0 ∉ (t.mpToken.toList.map Prod.fst).takeWhile (· != 0) := by
      intro hmem
      have := List.mem_takeWhile_imp hmem
      simp at this
    rw [List.count_eq_zero_of_not_mem hnot] at hcount
    omega
  · intro h p
    rw [visited_of_no_zero h]
    by_cases hp : t.HasRecord p
    · rw [if_pos hp]
      exact List.count_eq_one_of_mem t.nodup_records ((t.hasRecord_iff p).mp hp)
    · rw [if_neg hp]
      exact List.count_eq_zero_of_not_mem fun hmem => hp ((t.hasRecord_iff p).mpr hmem)

/-- The smallest identifier comes first, so a record of property 0 ends the walk at once. -/
theorem visited_of_zero {t : CMPTally} (h : t.HasRecord 0) : t.visited = [] := by
  rw [t.hasRecord_iff] at h
  rw [visited_eq]
  have hsorted := pairwise_keys t.mpToken
  cases hkeys : t.mpToken.toList.map Prod.fst with
  | nil => rfl
  | cons q rest =>
      rw [hkeys] at h hsorted
      -- nothing comes before property 0
      have hq : q = 0 := by
        rcases List.mem_cons.mp h with heq | hmem
        · exact heq.symm
        · have hlt := (List.pairwise_cons.mp hsorted).1 0 hmem
          exact absurd (Nat.compare_eq_lt.mp hlt) (Nat.not_lt_zero q)
      rw [hq]
      rfl

/-- The walk sees only records. -/
theorem hasRecord_of_visited {t : CMPTally} {p : PropertyId} (h : p ∈ t.visited) :
    t.HasRecord p := by
  rw [visited_eq] at h
  exact (t.hasRecord_iff p).mpr ((List.takeWhile_sublist _).subset h)

/-- Without a record of property 0 it sees all of them. -/
theorem mem_visited {t : CMPTally} (h : ¬ t.HasRecord 0) {p : PropertyId} :
    p ∈ t.visited ↔ t.HasRecord p := by
  have hcount := t.visitsAll_iff.mpr h p
  rw [← List.count_pos_iff, hcount]
  split
  · next hp => exact iff_of_true Nat.one_pos hp
  · next hp => exact iff_of_false (lt_irrefl 0) hp

theorem nodup_visited (t : CMPTally) : t.visited.Nodup := by
  rw [visited_eq]
  exact (List.takeWhile_sublist _).nodup t.nodup_records

theorem getMoney_of_no_record {t : CMPTally} {p : PropertyId} (h : t.mpToken[p]? = none)
    (ty : TallyType) : t.getMoney p ty = 0 := by
  unfold getMoney record
  rw [h]
  rfl

/-- A balance that is not zero has a record. -/
theorem hasRecord_of_money {t : CMPTally} {p : PropertyId} {ty : TallyType}
    (h : t.getMoney p ty ≠ 0) : t.HasRecord p := by
  by_contra hno
  exact h (getMoney_of_no_record (ExtTreeMap.getElem?_eq_none hno) ty)

/-- A record is made by the first update with an amount, whether it succeeds or not. -/
theorem hasRecord_updateMoney (t : CMPTally) (p q : PropertyId) (amount : Int) (ty : TallyType) :
    (t.updateMoney p amount ty).2.HasRecord q ↔ t.HasRecord q ∨ (q = p ∧ amount ≠ 0) := by
  have hinsert : ∀ r, (CMPTally.mk (t.mpToken.insert p r)).HasRecord q ↔
      t.HasRecord q ∨ q = p := by
    intro r
    show q ∈ t.mpToken.insert p r ↔ q ∈ t.mpToken ∨ q = p
    rw [ExtTreeMap.mem_insert, Std.LawfulEqOrd.compare_eq_iff_eq, or_comm, eq_comm (a := p)]
  unfold updateMoney
  split
  · next h => simp [h]
  · next h =>
      dsimp only
      split_ifs
      all_goals simp [hinsert, h]

end CMPTally

/-! ## Runs of `update_tally_map` -/

/-- An address has a record of the property. -/
def TallyMap.HasRecord (m : TallyMap) (a : Address) (p : PropertyId) : Prop :=
  (m.tallyOf a).HasRecord p

theorem TallyMap.hasRecord_update (m : TallyMap) (who a : Address) (p q : PropertyId)
    (amount : Int) (ty : TallyType) :
    (m.update who p amount ty).2.HasRecord a q ↔
      m.HasRecord a q ∨ (a = who ∧ q = p ∧ amount ≠ 0) := by
  unfold TallyMap.HasRecord TallyMap.update TallyMap.tallyOf
  dsimp only
  rw [getElem?_insert_eq]
  by_cases ha : who = a
  · subst ha
    rw [if_pos rfl, Option.getD_some, CMPTally.hasRecord_updateMoney]
    simp
  · rw [if_neg ha]
    simp [Ne.symm ha]

theorem TallyMap.not_hasRecord_empty (a : Address) (p : PropertyId) : ¬ TallyMap.HasRecord ∅ a p := by
  show ¬ p ∈ (((∅ : TallyMap)[a]?).getD .empty).mpToken
  simp [CMPTally.empty]

/-- One call: the record it makes is the only new one. -/
theorem updateTallyMap_records (who : Address) (p : PropertyId) (amount : Int) (ty : TallyType)
    (s : State) :
    wp (updateTallyMap who p amount ty)
      (fun _ s' => ∀ a q, s'.tallyMap.HasRecord a q ↔
        s.tallyMap.HasRecord a q ∨ (a = who ∧ q = p ∧ amount ≠ 0)) (fun _ _ => True) s := by
  unfold updateTallyMap
  by_cases h : amount = 0
  · simp [h]
  · simp only [h, if_false, wp_bind, wp_get, wp_set, wp_ite, wp_pure, wp_assertThat]
    have hrec := fun a q => TallyMap.hasRecord_update s.tallyMap who a p q amount ty
    simp only [State.withTally_tallyMap]
    exact ⟨fun _ => ⟨fun _ => ⟨fun _ => ⟨fun _ a q => hrec a q, fun _ => trivial⟩,
      fun _ a q => hrec a q⟩, fun _ => trivial⟩,
      fun _ => ⟨fun _ => ⟨fun _ a q => hrec a q, fun _ => trivial⟩, fun _ a q => hrec a q⟩⟩

/-- A run of the ledger: the calls one after the other, whatever they answer. -/
def runCalls (calls : List Entry) : ExecM Unit :=
  calls.forM fun c => do
    let _ ← updateTallyMap c.who c.property c.amount c.ty

/-- The records after a run: those from before, and one for every call with an amount. -/
theorem runCalls_records (calls : List Entry) (s : State) :
    wp (runCalls calls)
      (fun _ s' => ∀ a q, s'.tallyMap.HasRecord a q ↔ s.tallyMap.HasRecord a q ∨
        ∃ c ∈ calls, c.who = a ∧ c.property = q ∧ c.amount ≠ 0) (fun _ _ => True) s := by
  induction calls generalizing s with
  | nil =>
      refine (wp_pure _ _ _ _).mpr fun a q => ?_
      simp
  | cons c calls ih =>
      have hcons : runCalls (c :: calls) = (do
          let _ ← updateTallyMap c.who c.property c.amount c.ty : ExecM Unit) >>=
            fun _ => runCalls calls := rfl
      rw [hcons, wp_bind, wp_bind]
      refine wp_imp (updateTallyMap_records _ _ _ _ s) ?_
      intro _ s1 hs1
      rw [wp_pure]
      refine wp_imp (ih s1) ?_
      intro _ s2 hs2 a q
      rw [hs2 a q, hs1 a q, List.exists_mem_cons_iff]
      constructor
      · rintro ((h | ⟨rfl, rfl, h⟩) | h)
        · exact Or.inl h
        · exact Or.inr (Or.inl ⟨rfl, rfl, h⟩)
        · exact Or.inr (Or.inr h)
      · rintro (h | ⟨rfl, rfl, h⟩ | h)
        · exact Or.inl (Or.inl h)
        · exact Or.inl (Or.inr ⟨rfl, rfl, h⟩)
        · exact Or.inr h

/-- **ITERATION IS COMPLETE EXACTLY FOR THE ADDRESSES WITHOUT A CALL FOR PROPERTY 0**: from an empty
    ledger, in every state that a run of `update_tally_map` calls reaches. -/
theorem iteration_complete_iff (s : State) (calls : List Entry) :
    wp (runCalls calls)
      (fun _ s' => ∀ a, (s'.tallyMap.tallyOf a).VisitsAll ↔
        ∀ c ∈ calls, c.who = a → c.property = 0 → c.amount = 0)
      (fun _ _ => True) (s.withTally ∅) := by
  refine wp_imp (runCalls_records calls _) ?_
  intro _ s' hrecords a
  rw [CMPTally.visitsAll_iff, show (s'.tallyMap.tallyOf a).HasRecord 0 ↔ _ from hrecords a 0]
  constructor
  · intro h c hc hwho hprop
    by_contra hamount
    exact h (Or.inr ⟨c, hc, hwho, hprop, hamount⟩)
  · rintro h (hc | ⟨c, hc, hwho, hprop, hamount⟩)
    · exact TallyMap.not_hasRecord_empty a 0 hc
    · exact hamount (h c hc hwho hprop)

/-- `A` and `B` trade a contract of property 0: no handler checks that the property exists. -/
def zeroTrade : List ContractOp :=
  [.create (some 0) (createTx 0 1), .trade { orderTx traderA 2 11 1 1 100 with property := 0 },
    .trade { orderTx traderB 3 12 2 1 80 with property := 0 }]

set_option maxRecDepth 4000 in
/-- **THE WALK STOPS BEFORE IT STARTS**: after a trade of property 0, `A` holds property 1 and the
    loop sees nothing. -/
theorem zeroTrade_hides_balances :
    (returned (runContracts 3 zeroTrade) (World.start fundedState)).map (fun w =>
      ((w.state.tallyMap.tallyOf traderA).visited, w.state.tallyMap.money traderA 1 .balance)) =
      some ([], 99) ∧
    ¬ ((after (runContracts 3 zeroTrade) (World.start fundedState)).state.tallyMap.tallyOf
      traderA).VisitsAll := by
  refine ⟨by decide +kernel, fun h => ?_⟩
  exact absurd h ((CMPTally.visitsAll_iff _).not.mpr (by decide +kernel))

end OmniCore
