import OmniCore.FreezeReload
import OmniCore.Node

/-! # FreezeDisable — switching freezing off

    Disabling should clear a property out of both sets. It erases one entry of the enabled
    properties, although there may be several, and it unfreezes the addresses of the
    property while it walks over them, asserting after each erasure that the address
    behind it is not frozen, which it is. So disabling works exactly for one entry and
    no frozen address. -/

namespace OmniCore

open Std (ExtTreeMap ExtTreeSet LawfulEqCmp ReflCmp)
open Machine TextRec MapSum Exec

namespace FreezeSets

/-! ## The two sets -/

theorem isAddressFrozen_iff (f : FreezeSets) (a : Address) (p : PropertyId) :
    f.isAddressFrozen a p = true ↔ (a, p) ∈ f.frozen := ExtTreeSet.contains_iff_mem

theorem isFreezingEnabled_iff (f : FreezeSets) (p : PropertyId) (block : Int) :
    f.isFreezingEnabled p block = true ↔ ∃ n, (p, n) ∈ f.enabled ∧ n ≤ block := by
  unfold isFreezingEnabled
  rw [List.any_eq_true]
  constructor
  · rintro ⟨⟨q, n⟩, hmem, hitem⟩
    rw [Bool.and_eq_true, beq_iff_eq, decide_eq_true_eq] at hitem
    obtain ⟨rfl, hle⟩ := hitem
    exact ⟨n, ExtTreeSet.mem_toList.mp hmem, hle⟩
  · rintro ⟨n, hmem, hle⟩
    refine ⟨(p, n), ExtTreeSet.mem_toList.mpr hmem, ?_⟩
    rw [Bool.and_eq_true, beq_iff_eq, decide_eq_true_eq]
    exact ⟨rfl, hle⟩

/-- A property is never enabled just if there is no entry for it. -/
theorem never_enabled_iff (f : FreezeSets) (p : PropertyId) :
    (∀ block, f.isFreezingEnabled p block = false) ↔ ∀ n, (p, n) ∉ f.enabled := by
  constructor
  · intro h n hmem
    have hon := (f.isFreezingEnabled_iff p n).mpr ⟨n, hmem, le_rfl⟩
    rw [h n] at hon
    cases hon
  · intro h block
    rw [← Bool.not_eq_true, isFreezingEnabled_iff]
    rintro ⟨n, hmem, _⟩
    exact h n hmem

theorem mem_erase_iff {α β : Type} [Ord α] [Ord β] [Std.TransOrd α] [Std.TransOrd β]
    [Std.LawfulEqOrd α] [Std.LawfulEqOrd β] {set : ExtTreeSet (α × β) pairCmp} {x y : α × β} :
    y ∈ set.erase x ↔ x ≠ y ∧ y ∈ set := by
  rw [ExtTreeSet.mem_erase]
  refine and_congr_left fun _ => not_congr ⟨LawfulEqCmp.eq_of_compare, ?_⟩
  rintro rfl
  exact ReflCmp.compare_self

/-- The block that is looked up is noted for the property, if it is not 0. -/
theorem liveBlockOf_mem {f : FreezeSets} {p : PropertyId} (h : f.liveBlockOf p ≠ 0) :
    (p, f.liveBlockOf p) ∈ f.enabled := by
  -- the value of the loop is the one it started with, or that of an item it has seen
  have hloop : ∀ (items : List (PropertyId × Int)) (start : Int),
      items.foldl (fun block item => if p = item.1 then item.2 else block) start = start ∨
        (p, items.foldl (fun block item => if p = item.1 then item.2 else block) start) ∈ items := by
    intro items
    induction items with
    | nil =>
        intro start
        exact Or.inl rfl
    | cons item rest ih =>
        intro start
        rw [List.foldl_cons]
        rcases ih (if p = item.1 then item.2 else start) with hsame | hmem
        · rw [hsame]
          by_cases hp : p = item.1
          · rw [if_pos hp, hp]
            exact Or.inr List.mem_cons_self
          · rw [if_neg hp]
            exact Or.inl rfl
        · exact Or.inr (List.mem_cons_of_mem item hmem)
  rcases hloop f.enabled.toList 0 with hzero | hmem
  · exact absurd hzero h
  · exact ExtTreeSet.mem_toList.mp hmem

/-! ## Unfreezing -/

/-- Without an address of the property nothing happens. -/
theorem unfreezeAll_none (pastEnd : Bool) {p : PropertyId} {l : List (Address × PropertyId)}
    (h : ∀ item ∈ l, item.2 ≠ p) (f : FreezeSets) : unfreezeAll pastEnd p l f = .ok () f := by
  induction l with
  | nil => rfl
  | cons item rest ih =>
      rw [unfreezeAll, if_neg (h item List.mem_cons_self)]
      exact ih fun x hx => h x (List.mem_cons_of_mem item hx)

/-- The last address of the set may be unfrozen, if what is read behind it passes. -/
theorem unfreezeAll_last {p : PropertyId} {front : List (Address × PropertyId)} (a : Address)
    (h : ∀ item ∈ front, item.2 ≠ p) (f : FreezeSets) :
    unfreezeAll true p (front ++ [(a, p)]) f = .ok () { f with frozen := f.frozen.erase (a, p) } := by
  induction front with
  | nil =>
      rw [List.nil_append, unfreezeAll, if_pos rfl]
      rfl
  | cons item rest ih =>
      rw [List.cons_append, unfreezeAll, if_neg (h item List.mem_cons_self)]
      exact ih fun x hx => h x (List.mem_cons_of_mem item hx)

/-- An assertion that passes does nothing. -/
theorem check_ok {c : Bool} {f f' : FreezeSets} (h : check c f = .ok () f') :
    c = true ∧ f' = f := by
  unfold check at h
  cases c with
  | true =>
      cases h
      exact ⟨rfl, rfl⟩
  | false => cases h

/-- The loop leaves the enabled properties alone. -/
theorem unfreezeAll_enabled {pastEnd : Bool} {p : PropertyId} {l : List (Address × PropertyId)}
    {f f' : FreezeSets} (hrun : unfreezeAll pastEnd p l f = .ok () f') :
    f'.enabled = f.enabled := by
  induction l generalizing f with
  | nil =>
      cases hrun
      rfl
  | cons item rest ih =>
      rw [unfreezeAll] at hrun
      split at hrun
      · obtain ⟨_, f1, herase, hrun⟩ := bind_ok hrun
        cases herase
        obtain ⟨_, f1, hget, hrun⟩ := bind_ok hrun
        cases hget
        obtain ⟨_, f1, hcheck, hrun⟩ := bind_ok hrun
        rw [ih hrun, (check_ok hcheck).2]
      · exact ih hrun

/-- **THE LOOP THAT UNFREEZES** returns only if no address of the property is there, or its only one is
    the last of the set: any other has a frozen address behind it. -/
theorem unfreezeAll_returns {pastEnd : Bool} {p : PropertyId} {l : List (Address × PropertyId)}
    {f f' : FreezeSets} (hfrozen : ∀ item ∈ l, item ∈ f.frozen) (hnodup : l.Nodup)
    (hrun : unfreezeAll pastEnd p l f = .ok () f') :
    (∀ item ∈ l, item.2 ≠ p) ∨
      (pastEnd = true ∧ ∃ front a, l = front ++ [(a, p)] ∧ ∀ item ∈ front, item.2 ≠ p) := by
  induction l with
  | nil => exact Or.inl fun item hitem => by cases hitem
  | cons item rest ih =>
      rw [List.nodup_cons] at hnodup
      by_cases hp : item.2 = p
      · rw [unfreezeAll, if_pos hp] at hrun
        obtain ⟨_, f1, herase, hrun⟩ := bind_ok hrun
        cases herase
        obtain ⟨_, f1, hget, hrun⟩ := bind_ok hrun
        cases hget
        obtain ⟨_, f2, hcheck, _⟩ := bind_ok hrun
        cases rest with
        | nil =>
            refine Or.inr ⟨(check_ok hcheck).1, [], item.1, ?_, fun x hx => by cases hx⟩
            rw [← hp]
            rfl
        | cons next rest =>
            -- the next address is in the set, so the assertion fails
            exfalso
            have hnext : next ∈ f.frozen.erase item := by
              refine mem_erase_iff.mpr ⟨?_, hfrozen next (by simp)⟩
              rintro rfl
              exact hnodup.1 List.mem_cons_self
            have hcontained : (f.frozen.erase item).contains next = true :=
              ExtTreeSet.contains_iff_mem.mpr hnext
            have hpasses : (!(f.frozen.erase item).contains next) = true := (check_ok hcheck).1
            rw [hcontained] at hpasses
            cases hpasses
      · rw [unfreezeAll, if_neg hp] at hrun
        rcases ih (fun x hx => hfrozen x (List.mem_cons_of_mem item hx)) hnodup.2 hrun with
          hnone | ⟨hpast, front, a, rfl, hfront⟩
        · refine Or.inl fun x hx => ?_
          rcases List.mem_cons.mp hx with rfl | hx
          · exact hp
          · exact hnone x hx
        · refine Or.inr ⟨hpast, item :: front, a, rfl, fun x hx => ?_⟩
          rcases List.mem_cons.mp hx with rfl | hx
          · exact hp
          · exact hfront x hx

/-! ## Disabling -/

/-- Nothing of the property is left in either set. -/
structure Off (p : PropertyId) (f : FreezeSets) : Prop where
  unfrozen : ∀ a, f.isAddressFrozen a p = false
  disabled : ∀ block, f.isFreezingEnabled p block = false

/-- Disabling as it should be: the property leaves both sets, all others stay. -/
structure Disabled (p : PropertyId) (f f' : FreezeSets) : Prop where
  off : Off p f'
  othersFrozen : ∀ a q, q ≠ p → f'.isAddressFrozen a q = f.isAddressFrozen a q
  othersEnabled : ∀ q n, q ≠ p → ((q, n) ∈ f'.enabled ↔ (q, n) ∈ f.enabled)

/-- There is one entry for the property, at a positive height, and no frozen address, or one that is
    the last of all frozen addresses where the read behind the end of the set passes. -/
def CanDisable (pastEnd : Bool) (p : PropertyId) (f : FreezeSets) : Prop :=
  (∃ n, 0 < n ∧ ∀ m, (p, m) ∈ f.enabled ↔ m = n) ∧
    ((∀ a, (a, p) ∉ f.frozen) ∨
      (pastEnd = true ∧ ∃ front a, f.frozen.toList = front ++ [(a, p)] ∧
        ∀ item ∈ front, item.2 ≠ p))

/-- Under the condition, disabling returns and does what it should. -/
theorem disableFreezing_works {pastEnd : Bool} {p : PropertyId} {f : FreezeSets}
    (h : CanDisable pastEnd p f) :
    ∃ f', disableFreezing pastEnd p f = .ok () f' ∧ Disabled p f f' := by
  obtain ⟨⟨n, hpos, honly⟩, haddresses⟩ := h
  have hlive : f.liveBlockOf p = n := by
    refine (honly _).mp (liveBlockOf_mem fun hzero => ?_)
    -- a block that is not found would leave the entry unseen
    have hmem : (p, n) ∈ f.enabled := (honly n).mpr rfl
    have hseen : ∀ (items : List (PropertyId × Int)) (start : Int), start = 0 ∨ start = n →
        (∀ item ∈ items, item.1 = p → item.2 = n) →
        (start = n ∨ (p, n) ∈ items) →
        items.foldl (fun block item => if p = item.1 then item.2 else block) start = n := by
      intro items
      induction items with
      | nil =>
          intro start _ _ hstart
          rcases hstart with hstart | hstart
          · exact hstart
          · cases hstart
      | cons item rest ih =>
          intro start hstart hitems hor
          rw [List.foldl_cons]
          have hrest : ∀ x ∈ rest, x.1 = p → x.2 = n :=
            fun x hx => hitems x (List.mem_cons_of_mem item hx)
          by_cases hp : p = item.1
          · have hn : item.2 = n := hitems item List.mem_cons_self hp.symm
            rw [if_pos hp, hn]
            exact ih n (Or.inr rfl) hrest (Or.inl rfl)
          · rw [if_neg hp]
            refine ih start hstart hrest (hor.imp_right fun hmem => ?_)
            rcases List.mem_cons.mp hmem with rfl | hmem
            · exact absurd rfl hp
            · exact hmem
    have hfound := hseen f.enabled.toList 0 (Or.inl rfl) (fun item hitem hp => by
      obtain ⟨q, m⟩ := item
      dsimp only at hp
      subst hp
      exact (honly m).mp (ExtTreeSet.mem_toList.mp hitem)) (Or.inr (ExtTreeSet.mem_toList.mpr hmem))
    have hlive : f.liveBlockOf p = n := hfound
    omega
  -- what the loop leaves of the frozen addresses
  obtain ⟨frozen', hloop, hfrozen'⟩ : ∃ frozen', unfreezeAll pastEnd p f.frozen.toList
      { f with enabled := f.enabled.erase (p, n) } =
        .ok () ⟨f.enabled.erase (p, n), frozen'⟩ ∧
      ∀ a q, (a, q) ∈ frozen' ↔ (a, q) ∈ f.frozen ∧ q ≠ p := by
    rcases haddresses with hnone | ⟨rfl, front, a, hlist, hfront⟩
    · refine ⟨f.frozen, unfreezeAll_none pastEnd (fun item hitem hp => ?_) _, fun a q => ?_⟩
      · obtain ⟨a, q⟩ := item
        dsimp only at hp
        subst hp
        exact hnone a (ExtTreeSet.mem_toList.mp hitem)
      · refine ⟨fun hmem => ⟨hmem, ?_⟩, fun hmem => hmem.1⟩
        rintro rfl
        exact hnone a hmem
    · refine ⟨f.frozen.erase (a, p), ?_, fun b q => ?_⟩
      · rw [hlist]
        exact unfreezeAll_last a hfront _
      · rw [mem_erase_iff]
        constructor
        · rintro ⟨hne, hmem⟩
          refine ⟨hmem, ?_⟩
          rintro rfl
          have hin : (b, q) ∈ front ++ [(a, q)] := by
            rw [← hlist]
            exact ExtTreeSet.mem_toList.mpr hmem
          rcases List.mem_append.mp hin with hin | hin
          · exact hfront _ hin rfl
          · exact hne (List.mem_singleton.mp hin).symm
        · rintro ⟨hmem, hq⟩
          refine ⟨?_, hmem⟩
          intro heq
          exact hq (congrArg Prod.snd heq).symm
  have hgone : ∀ m, (p, m) ∉ f.enabled.erase (p, n) := by
    intro m hmem
    rw [mem_erase_iff] at hmem
    exact hmem.1 (congrArg (Prod.mk p) ((honly m).mp hmem.2).symm)
  have hoff : ∀ block, isFreezingEnabled ⟨f.enabled.erase (p, n), frozen'⟩ p block = false :=
    (never_enabled_iff ⟨f.enabled.erase (p, n), frozen'⟩ p).mpr hgone
  refine ⟨⟨f.enabled.erase (p, n), frozen'⟩, ?_, ⟨?_, hoff⟩, ?_, ?_⟩
  · have hpositive : check (decide (0 < n)) f = .ok () f := by
      rw [decide_eq_true hpos]
      rfl
    show EStateM.bind (check (decide (0 < f.liveBlockOf p))) _ f = _
    rw [hlive]
    unfold EStateM.bind
    rw [hpositive]
    show EStateM.bind (unfreezeAll pastEnd p f.frozen.toList) _
      { f with enabled := f.enabled.erase (p, n) } = _
    unfold EStateM.bind
    rw [hloop]
    show check (!isFreezingEnabled ⟨f.enabled.erase (p, n), frozen'⟩ p n) _ = _
    rw [hoff n]
    rfl
  · intro a
    rw [← Bool.not_eq_true, isAddressFrozen_iff]
    intro hmem
    exact ((hfrozen' a p).mp hmem).2 rfl
  · intro a q hq
    rw [Bool.eq_iff_iff, isAddressFrozen_iff, isAddressFrozen_iff]
    show (a, q) ∈ frozen' ↔ _
    rw [hfrozen']
    exact ⟨fun h => h.1, fun h => ⟨h, hq⟩⟩
  · intro q m hq
    rw [mem_erase_iff]
    refine ⟨fun h => h.2, fun h => ⟨?_, h⟩⟩
    intro heq
    exact hq (congrArg Prod.fst heq).symm

/-- If disabling returns with the property gone, the condition holds. -/
theorem canDisable_of_works {pastEnd : Bool} {p : PropertyId} {f f' : FreezeSets}
    (hrun : disableFreezing pastEnd p f = .ok () f') (h : Disabled p f f') :
    CanDisable pastEnd p f := by
  obtain ⟨_, f1, hget, hrun⟩ := bind_ok hrun
  cases hget
  obtain ⟨_, f1, hcheck, hrun⟩ := bind_ok hrun
  obtain ⟨hpos, rfl⟩ := check_ok hcheck
  rw [decide_eq_true_eq] at hpos
  obtain ⟨_, f2, herase, hrun⟩ := bind_ok hrun
  cases herase
  obtain ⟨_, f2, hloop, hrun⟩ := bind_ok hrun
  obtain ⟨_, f3, hget, hrun⟩ := bind_ok hrun
  cases hget
  obtain ⟨_, rfl⟩ := check_ok hrun
  have hloop : unfreezeAll pastEnd p f1.frozen.toList
      { f1 with enabled := f1.enabled.erase (p, f1.liveBlockOf p) } = .ok () f' := hloop
  have henabled : f'.enabled = f1.enabled.erase (p, f1.liveBlockOf p) := unfreezeAll_enabled hloop
  constructor
  · refine ⟨f1.liveBlockOf p, hpos, fun m => ⟨fun hmem => ?_, ?_⟩⟩
    · -- another entry would have stayed behind
      by_contra hne
      have hstays : (p, m) ∈ f'.enabled := by
        rw [henabled, mem_erase_iff]
        exact ⟨fun heq => hne (congrArg Prod.snd heq).symm, hmem⟩
      exact (never_enabled_iff f' p).mp h.off.disabled m hstays
    · rintro rfl
      exact liveBlockOf_mem hpos.ne'
  · have hnodup : f1.frozen.toList.Nodup := by
      refine (ExtTreeSet.distinct_toList (t := f1.frozen)).imp ?_
      rintro a b hne rfl
      exact hne ReflCmp.compare_self
    have hfrozen : ∀ item ∈ f1.frozen.toList, item ∈ f1.frozen :=
      fun item hitem => ExtTreeSet.mem_toList.mp hitem
    refine (unfreezeAll_returns (f := { f1 with enabled := f1.enabled.erase (p, f1.liveBlockOf p) }) hfrozen hnodup
      hloop).imp_left fun hnone a hmem => ?_
    exact hnone (a, p) (ExtTreeSet.mem_toList.mpr hmem) rfl

/-! ## What the other transactions do -/

/-- Enabling puts in one entry. -/
theorem enableFreezing_ok {p : PropertyId} {n : Int} {f f' : FreezeSets}
    (h : enableFreezing p n f = .ok () f') : f' = { f with enabled := f.enabled.insert (p, n) } := by
  obtain ⟨_, f1, hinsert, h⟩ := bind_ok h
  cases hinsert
  obtain ⟨_, f1, hget, h⟩ := bind_ok h
  cases hget
  exact (check_ok h).2

/-- Freezing puts in one address. -/
theorem freezeAddress_ok {a : Address} {p : PropertyId} {f f' : FreezeSets}
    (h : freezeAddress a p f = .ok () f') : f' = { f with frozen := f.frozen.insert (a, p) } := by
  obtain ⟨_, f1, hinsert, h⟩ := bind_ok h
  cases hinsert
  obtain ⟨_, f1, hget, h⟩ := bind_ok h
  cases hget
  exact (check_ok h).2

/-- Unfreezing takes out one address. -/
theorem unfreezeAddress_ok {a : Address} {p : PropertyId} {f f' : FreezeSets}
    (h : unfreezeAddress a p f = .ok () f') : f' = { f with frozen := f.frozen.erase (a, p) } := by
  obtain ⟨_, f1, herase, h⟩ := bind_ok h
  cases herase
  obtain ⟨_, f1, hget, h⟩ := bind_ok h
  cases hget
  exact (check_ok h).2

/-- Disabling only takes out. -/
theorem disableFreezing_ok {pastEnd : Bool} {p : PropertyId} {f f' : FreezeSets}
    (h : disableFreezing pastEnd p f = .ok () f') :
    (∀ x ∈ f'.enabled, x ∈ f.enabled) ∧ ∀ x ∈ f'.frozen, x ∈ f.frozen := by
  -- the loop only erases
  have hloop : ∀ (l : List (Address × PropertyId)) (g g' : FreezeSets),
      unfreezeAll pastEnd p l g = .ok () g' → ∀ x ∈ g'.frozen, x ∈ g.frozen := by
    intro l
    induction l with
    | nil =>
        intro g g' hg x hx
        cases hg
        exact hx
    | cons item rest ih =>
        intro g g' hg x hx
        rw [unfreezeAll] at hg
        split at hg
        · obtain ⟨_, g1, herase, hg⟩ := bind_ok hg
          cases herase
          obtain ⟨_, g1, hget, hg⟩ := bind_ok hg
          cases hget
          obtain ⟨_, g1, hcheck, hg⟩ := bind_ok hg
          have hx := ih g1 g' hg x hx
          rw [(check_ok hcheck).2] at hx
          exact (mem_erase_iff.mp hx).2
        · exact ih g g' hg x hx
  obtain ⟨_, f1, hget, h⟩ := bind_ok h
  cases hget
  obtain ⟨_, f1, hcheck, h⟩ := bind_ok h
  obtain ⟨_, rfl⟩ := check_ok hcheck
  obtain ⟨_, f2, herase, h⟩ := bind_ok h
  cases herase
  obtain ⟨_, f2, hrun, h⟩ := bind_ok h
  obtain ⟨_, f3, hget, h⟩ := bind_ok h
  cases hget
  obtain ⟨_, rfl⟩ := check_ok h
  constructor
  · intro x hx
    rw [unfreezeAll_enabled hrun] at hx
    exact (mem_erase_iff.mp hx).2
  · intro x hx
    exact hloop _ _ _ hrun x hx

/-- A property that is off stays off as long as its entries and its frozen addresses are none but
    those that were there. -/
theorem Off.of_subset {p : PropertyId} {f f' : FreezeSets} (h : Off p f)
    (henabled : ∀ n, (p, n) ∈ f'.enabled → (p, n) ∈ f.enabled)
    (hfrozen : ∀ a, (a, p) ∈ f'.frozen → (a, p) ∈ f.frozen) : Off p f' where
  unfrozen a := by
    rw [← Bool.not_eq_true, isAddressFrozen_iff]
    intro hmem
    have hwas := (f.isAddressFrozen_iff a p).mpr (hfrozen a hmem)
    rw [h.unfrozen a] at hwas
    cases hwas
  disabled := by
    rw [never_enabled_iff]
    intro n hmem
    exact (f.never_enabled_iff p).mp h.disabled n (henabled n hmem)

/-- Only enabling the property itself ends this. -/
theorem Off.body {env : FreezeEnv} {tx : CMPTransaction} {params : ConsensusParams} {p : PropertyId}
    {f f' : FreezeSets} {body : ConsensusParams → FreezeM Int} (h : Off p f)
    (hbody : freezeBody env tx = some body) (hrun : body params f = .ok 0 f')
    (hother : ¬(tx.type = 71 ∧ tx.property.toNat = p)) : Off p f' := by
  have hrefused : ∀ code : Int, code ≠ 0 → (pure code : FreezeM Int) f = .ok 0 f' → False := by
    intro code hcode heq
    cases heq
    exact hcode rfl
  unfold freezeBody at hbody
  split at hbody
  · next htype =>
      cases hbody
      have hp : tx.property.toNat ≠ p := fun hp => hother ⟨UInt16.toNat_inj.mp htype, hp⟩
      unfold enableFreezingBody at hrun
      obtain ⟨_, f1, hget, hrun⟩ := bind_ok hrun
      cases hget
      split at hrun
      · exact (hrefused _ (by decide) hrun).elim
      · obtain ⟨_, f2, henable, hrun⟩ := bind_ok hrun
        cases hrun
        rw [enableFreezing_ok henable]
        refine h.of_subset (fun n hmem => ?_) fun a hmem => hmem
        rcases ExtTreeSet.mem_insert.mp hmem with heq | hmem
        · exact absurd (congrArg Prod.fst (LawfulEqCmp.eq_of_compare heq)) hp
        · exact hmem
  · cases hbody
    unfold disableFreezingBody at hrun
    obtain ⟨_, f1, hget, hrun⟩ := bind_ok hrun
    cases hget
    split at hrun
    · exact (hrefused _ (by decide) hrun).elim
    · obtain ⟨_, f2, hdisable, hrun⟩ := bind_ok hrun
      cases hrun
      obtain ⟨henabled, hfrozen⟩ := disableFreezing_ok hdisable
      exact h.of_subset (fun n => henabled _) fun a => hfrozen _
  · next receiver _ =>
      cases hbody
      unfold freezeTokensBody at hrun
      obtain ⟨_, f1, hget, hrun⟩ := bind_ok hrun
      cases hget
      split at hrun
      · exact (hrefused _ (by decide) hrun).elim
      · next hon =>
          -- nobody is frozen for a property that is off
          have hp : tx.property.toNat ≠ p := by
            rintro rfl
            exact hon (by rw [h.disabled]; rfl)
          split at hrun
          · exact (hrefused _ (by decide) hrun).elim
          · obtain ⟨_, f2, hfreeze, hrun⟩ := bind_ok hrun
            cases hrun
            rw [freezeAddress_ok hfreeze]
            refine h.of_subset (fun n hmem => hmem) fun a hmem => ?_
            rcases ExtTreeSet.mem_insert.mp hmem with heq | hmem
            · exact absurd (congrArg Prod.snd (LawfulEqCmp.eq_of_compare heq)) hp
            · exact hmem
  · cases hbody
    unfold unfreezeTokensBody at hrun
    obtain ⟨_, f1, hget, hrun⟩ := bind_ok hrun
    cases hget
    split at hrun
    · exact (hrefused _ (by decide) hrun).elim
    · split at hrun
      · exact (hrefused _ (by decide) hrun).elim
      · obtain ⟨_, f2, hunfreeze, hrun⟩ := bind_ok hrun
        cases hrun
        rw [unfreezeAddress_ok hunfreeze]
        exact h.of_subset (fun n hmem => hmem) fun a hmem => (mem_erase_iff.mp hmem).2
  · cases hbody

end FreezeSets

/-! ## The transaction -/

open FreezeSets

/-- A run on which the property is not enabled again, as long as all transactions are of the five
    types. -/
theorem FreezeRun.off {env : FreezeEnv} {start s : State} {handled valid : List CMPTransaction}
    {p : PropertyId} (hrun : FreezeRun env start handled valid s) (h : Off p start.freezeSets)
    (htype : ∀ tx ∈ handled, tx.type = 70 ∨ isFreezeType tx.type.toNat = true)
    (hother : ∀ tx ∈ valid, ¬(tx.type = 71 ∧ tx.property.toNat = p)) : Off p s.freezeSets := by
  induction hrun with
  | start => exact h
  | @tx handled valid s s' tx code _ hstep ih =>
      have hbefore := ih (fun t ht => htype t (List.mem_append_left _ ht))
        fun t ht => hother t (List.mem_append_left _ ht)
      have hspec := wp_ok (handleFreezeTx_spec (s := s)
        (htype tx (List.mem_append_right _ List.mem_cons_self))) hstep
      obtain ⟨t, _, _, _, hsets, _, hdone⟩ := hspec
      rw [hsets]
      rcases hdone with ⟨_, hsame⟩ | ⟨hvalid, _, _, body, f, hbody, hbodyRun, rfl⟩
      · rw [hsame]
        exact hbefore
      · refine hbefore.body hbody hbodyRun (hother tx ?_)
        rw [hvalid]
        exact List.mem_append_right _ List.mem_cons_self
  | other _ hother' ih =>
      rw [hother'.sets]
      exact ih htype hother

/-- A request to disable freezing that passes all its checks. -/
structure PassesDisable (env : FreezeEnv) (s : State) (tx : CMPTransaction) : Prop where
  type : tx.type = 72
  permitted : Permitted env s tx
  enabled : s.freezeSets.isFreezingEnabled tx.property.toNat tx.block = true

/-- What it is for: it is accepted, the property leaves both sets and all others stay, and this
    lasts until freezing is enabled again. -/
def DisableWorks (env : FreezeEnv) (s : State) (tx : CMPTransaction) : Prop :=
  ∃ s', handleFreezeTx env tx s = .ok 0 s' ∧
    Disabled tx.property.toNat s.freezeSets s'.freezeSets ∧
    ∀ handled valid s'', FreezeRun env s' handled valid s'' →
      (∀ t ∈ handled, t.type = 70 ∨ isFreezeType t.type.toNat = true) →
      (∀ t ∈ valid, ¬(t.type = 71 ∧ t.property.toNat = tx.property.toNat)) →
      Off tx.property.toNat s''.freezeSets

/-- A request that passes its checks disables freezing in the two sets, and is put on record. -/
theorem handleFreezeTx_disable {env : FreezeEnv} {s : State} {tx : CMPTransaction}
    (h : PassesDisable env s tx) {f : FreezeSets}
    (hrun : disableFreezing env.pastEnd tx.property.toNat s.freezeSets = .ok () f) :
    ∃ s', handleFreezeTx env tx s = .ok 0 s' ∧ s'.freezeSets = f := by
  have hbody : freezeBody env tx = some fun _ => disableFreezingBody env.pastEnd tx := by
    unfold freezeBody
    rw [h.type]
    rfl
  have hstep : disableFreezingBody env.pastEnd tx s.freezeSets = .ok 0 f := by
    show (if (!s.freezeSets.isFreezingEnabled tx.property.toNat tx.block) = true then _ else _ :
      FreezeM Int) s.freezeSets = _
    rw [h.enabled]
    show EStateM.bind (disableFreezing env.pastEnd tx.property.toNat) _ s.freezeSets = _
    unfold EStateM.bind
    rw [hrun]
    rfl
  have hreceiver : ¬((tx.type = 185 ∨ tx.type = 186) ∧ tx.receiver = none) := by
    rw [h.type]
    rintro ⟨htype | htype, _⟩
    · cases htype
    · cases htype
  have hfreeze : isFreezeType tx.type.toNat = true := by
    rw [h.type]
    rfl
  have hhandled : wp (handleFreezeTx env tx) (fun code s' => code = 0 ∧ s'.freezeSets = f)
      (fun _ _ => False) s := by
    unfold handleFreezeTx
    rw [wp_bind]
    refine wp_imp (interpretFreezePacket_permitted hfreeze hreceiver h.permitted hbody hstep) ?_
    rintro code s1 ⟨rfl, rfl⟩
    rw [if_pos (by decide), wp_bind, wp_modify, wp_pure]
    exact ⟨rfl, rfl⟩
  obtain ⟨code, s', hok, rfl, hsets⟩ := wp_returns hhandled
  exact ⟨s', hok, hsets⟩

/-- An accepted request has disabled freezing in the two sets. -/
theorem disableFreezing_of_handled {env : FreezeEnv} {s s' : State} {tx : CMPTransaction}
    (h : PassesDisable env s tx) (hrun : handleFreezeTx env tx s = .ok 0 s') :
    disableFreezing env.pastEnd tx.property.toNat s.freezeSets = .ok () s'.freezeSets := by
  have hfreeze : isFreezeType tx.type.toNat = true := by
    rw [h.type]
    rfl
  have hspec := wp_ok (handleFreezeTx_spec (Or.inr hfreeze)) hrun
  obtain ⟨t, _, _, _, hsets, _, hdone⟩ := hspec
  rw [hsets]
  rcases hdone with ⟨hnone, _⟩ | ⟨_, _, _, body, f, hbody, hbodyRun, rfl⟩
  · unfold validFreeze at hnone
    rw [hfreeze] at hnone
    cases hnone
  · have hdisable : freezeBody env tx = some fun _ => disableFreezingBody env.pastEnd tx := by
      unfold freezeBody
      rw [h.type]
      rfl
    rw [hdisable] at hbody
    cases hbody
    unfold disableFreezingBody at hbodyRun
    obtain ⟨_, f1, hget, hbodyRun⟩ := bind_ok hbodyRun
    cases hget
    rw [h.enabled, if_neg (by decide)] at hbodyRun
    obtain ⟨_, f2, hdone, hbodyRun⟩ := bind_ok hbodyRun
    cases hbodyRun
    exact hdone

/-- **WHEN DISABLING WORKS**: exactly if the property has one entry and no frozen address, or one
    that is the last of all. -/
theorem disableWorks_iff {env : FreezeEnv} {s : State} {tx : CMPTransaction}
    (h : PassesDisable env s tx) :
    DisableWorks env s tx ↔ CanDisable env.pastEnd tx.property.toNat s.freezeSets := by
  constructor
  · rintro ⟨s', hrun, hdisabled, _⟩
    exact canDisable_of_works (disableFreezing_of_handled h hrun) hdisabled
  · intro hcan
    obtain ⟨f, hrun, hdisabled⟩ := disableFreezing_works hcan
    obtain ⟨s', hok, rfl⟩ := handleFreezeTx_disable h hrun
    exact ⟨s', hok, hdisabled, fun handled valid s'' hlater htype hother =>
      hlater.off hdisabled.off htype hother⟩

/-- Disabling that works is what the node does with the packet, whatever its other settings. -/
theorem DisableWorks.handlePacket {env : NodeEnv} {chain : ChainEnv} {s : State}
    {tx : CMPTransaction} (htype : tx.type = 72)
    (h : DisableWorks ⟨chain.blockHash, env.pastEnd⟩ s tx) :
    ∃ s', OmniCore.handlePacket env chain tx s = .ok () s' ∧
      Disabled tx.property.toNat s.freezeSets s'.freezeSets := by
  obtain ⟨s', hrun, hdisabled, _⟩ := h
  refine ⟨s', ?_, hdisabled⟩
  rw [handlePacket_freezing env chain (Or.inr (Or.inr (Or.inl htype)))]
  simp only [bind, EStateM.bind, hrun]
  rfl

/-- The issuer freezes the third trader, too. -/
def freezeAnotherTx : CMPTransaction :=
  { txid := 24, block := 103, txIdx := 2, sender := traderA, receiver := some traderC, type := 185,
    property := 4 }

/-- The issuer disables freezing. -/
def disableTx : CMPTransaction :=
  { txid := 25, block := 104, txIdx := 1, sender := traderA, type := 72, property := 4 }

/-- A request of the issuer of the managed property passes its checks while freezing is enabled. -/
theorem disableTx_passes {s : State} (hparams : s.params = regTestParams)
    (hsps : s.sps = managedStart.sps)
    (hfrozen : s.freezeSets.isAddressFrozen traderA 4 = false)
    (henabled : s.freezeSets.isFreezingEnabled 4 104 = true) :
    PassesDisable someEnv s disableTx where
  type := rfl
  permitted :=
    { block := rfl
      allowed := by
        rw [hparams]
        decide +kernel
      managed := by
        rw [hsps]
        exact ⟨by decide +kernel, managedEntry, by decide +kernel, rfl⟩
      issuer := by
        rw [hsps]
        decide +kernel
      notFrozen := hfrozen }
  enabled := henabled

/-- The node after freezing was enabled, with nobody frozen. -/
def enabledLive : State := after (handleFreezeTx someEnv enableTx) managedStart

set_option maxRecDepth 4000 in
theorem enabledLive_enabled : enabledLive.freezeSets.enabled = {((4 : PropertyId), (102 : Int))} := by
  decide +kernel

set_option maxRecDepth 4000 in
theorem enabledLive_frozen : enabledLive.freezeSets.frozen = ∅ := by
  decide +kernel

set_option maxRecDepth 4000 in
/-- The node after the second trader was frozen, too, has the same property enabled. -/
theorem frozenLive_enabled :
    (managedLive freezeTx).freezeSets.enabled = {((4 : PropertyId), (102 : Int))} := by
  decide +kernel

set_option maxRecDepth 4000 in
theorem frozenLive_frozen :
    (managedLive freezeTx).freezeSets.frozen.toList = [(traderB, (4 : PropertyId))] := by
  decide +kernel

/-- One entry at block 102. -/
theorem oneEntry {f : FreezeSets} (h : f.enabled = {((4 : PropertyId), (102 : Int))}) :
    ∃ n, 0 < n ∧ ∀ m, ((4 : PropertyId), m) ∈ f.enabled ↔ m = n := by
  refine ⟨102, by decide, fun m => ?_⟩
  rw [h]
  constructor
  · intro hmem
    rcases ExtTreeSet.mem_insert.mp hmem with heq | hmem
    · exact (congrArg Prod.snd (LawfulEqCmp.eq_of_compare heq)).symm
    · exact absurd hmem ExtTreeSet.not_mem_empty
  · rintro rfl
    exact ExtTreeSet.mem_insert_self

/-- One entry and nobody frozen. -/
theorem enabledLive_canDisable : CanDisable true 4 enabledLive.freezeSets := by
  refine ⟨oneEntry enabledLive_enabled, Or.inl fun a => ?_⟩
  rw [enabledLive_frozen]
  exact ExtTreeSet.not_mem_empty

/-- One entry and one frozen address, the last of the set. -/
theorem frozenLive_canDisable : CanDisable true 4 (managedLive freezeTx).freezeSets :=
  ⟨oneEntry frozenLive_enabled, Or.inr ⟨rfl, [], traderB, frozenLive_frozen,
    fun _ hitem => absurd hitem List.not_mem_nil⟩⟩

set_option maxRecDepth 4000 in
/-- **DISABLING** works with nobody frozen and with one frozen address, and the node does it. -/
theorem disableWorks_iff_enabled :
    (PassesDisable someEnv enabledLive disableTx ∧ DisableWorks someEnv enabledLive disableTx) ∧
      (managedLive freezeTx).freezeSets.isAddressFrozen traderB 4 = true ∧
      PassesDisable someEnv (managedLive freezeTx) disableTx ∧
      DisableWorks someEnv (managedLive freezeTx) disableTx ∧
      ∃ s', handlePacket ledgerEnv saleEnv disableTx (managedLive freezeTx) = .ok () s' ∧
        Disabled 4 (managedLive freezeTx).freezeSets s'.freezeSets := by
  have hpasses : PassesDisable someEnv enabledLive disableTx :=
    disableTx_passes (by rfl) (by rfl) (by decide +kernel) (by decide +kernel)
  have hfrozen : PassesDisable someEnv (managedLive freezeTx) disableTx :=
    disableTx_passes (by rfl) (by rfl) (by decide +kernel) (by decide +kernel)
  have hworks : DisableWorks someEnv (managedLive freezeTx) disableTx :=
    (disableWorks_iff hfrozen).mpr frozenLive_canDisable
  have hnode : DisableWorks ⟨saleEnv.blockHash, ledgerEnv.pastEnd⟩ (managedLive freezeTx)
      disableTx := hworks
  exact ⟨⟨hpasses, (disableWorks_iff hpasses).mpr enabledLive_canDisable⟩, by decide +kernel,
    hfrozen, hworks, hnode.handlePacket rfl⟩

/-- The node after two addresses were frozen. -/
def twoFrozenLive : State := after (handleFreezeTx someEnv freezeAnotherTx) (managedLive freezeTx)

set_option maxRecDepth 4000 in
/-- **TWO FROZEN ADDRESSES** of one property: disabling fails its assertion behind the first. -/
theorem twoFrozen_not_disabled :
    FreezeStart managedStart ∧
      FreezeRun someEnv managedStart [enableTx, freezeTx, freezeAnotherTx]
        [enableTx, freezeTx, freezeAnotherTx] twoFrozenLive ∧
      PassesDisable someEnv twoFrozenLive disableTx ∧
      ¬DisableWorks someEnv twoFrozenLive disableTx := by
  have hrun : FreezeRun someEnv managedStart [enableTx, freezeTx] [enableTx, freezeTx]
      (managedLive freezeTx) := managedRun [freezeTx] (by decide +kernel) rfl
  have hthird : handleFreezeTx someEnv freezeAnotherTx (managedLive freezeTx) =
      .ok 0 twoFrozenLive := eq_ok_of_value (by decide +kernel)
  refine ⟨managedStart_start, hrun.tx hthird, ?_, ?_⟩
  · exact disableTx_passes (by rfl) (by rfl) (by decide +kernel) (by decide +kernel)
  · rintro ⟨s', hok, _⟩
    have hhalts : value (handleFreezeTx someEnv disableTx) twoFrozenLive = none := by
      decide +kernel
    unfold value at hhalts
    rw [hok] at hhalts
    cases hhalts

end OmniCore
