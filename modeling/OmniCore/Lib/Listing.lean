import OmniCore.Lib.MapSum

/-! # Listings of ordered maps

    What a walk over an ordered map prints depends on what its keys print, not on keys
    that print nothing; a map rebuilt from its entries in any order is the same map; and
    a sorted listing is the same for every order of its entries. -/

namespace MapSum

open Std

variable {κ ν γ : Type} {cmp : κ → κ → Ordering} [TransCmp cmp] [LawfulEqCmp cmp]

/-- What a key of a map prints; a missing key prints nothing. -/
def printed (m : ExtTreeMap κ ν cmp) (g : κ → ν → List γ) (k : κ) : List γ := (m[k]?).elim [] (g k)

omit [LawfulEqCmp cmp] in
theorem flatMap_filter_ne_nil (l : List κ) (f : κ → List γ) :
    (l.filter fun k => !(f k).isEmpty).flatMap f = l.flatMap f := by
  induction l with
  | nil => rfl
  | cons k l ih =>
      by_cases h : (f k).isEmpty = true
      · have hnil : f k = [] := List.isEmpty_iff.mp h
        simp [hnil, ih]
      · simp [h, ih]

omit [LawfulEqCmp cmp] in
/-- The keys of a map in order. -/
theorem pairwise_keys (m : ExtTreeMap κ ν cmp) :
    (m.toList.map Prod.fst).Pairwise fun a b => cmp a b = .lt := by
  rw [List.pairwise_map]
  exact ExtTreeMap.ordered_keys_toList

omit [LawfulEqCmp cmp] in
/-- A walk over a map of maps goes by the outer key, then by the inner one. -/
theorem pairwise_nested {μ ι : Type} {cmp' : ι → ι → Ordering} [TransCmp cmp']
    (m : ExtTreeMap κ (ExtTreeMap ι μ cmp') cmp) :
    (m.toList.flatMap fun e => e.2.toList.map fun e' => (e.1, e'.1, e'.2)).Pairwise fun a b =>
      cmp a.1 b.1 = .lt ∨ (a.1 = b.1 ∧ cmp' a.2.1 b.2.1 = .lt) := by
  rw [List.pairwise_flatMap]
  constructor
  · intro e _
    rw [List.pairwise_map]
    exact ExtTreeMap.ordered_keys_toList.imp fun h => Or.inr ⟨rfl, h⟩
  · refine (ExtTreeMap.ordered_keys_toList (t := m)).imp fun {a b} hlt x hx y hy => ?_
    obtain ⟨x', -, rfl⟩ := List.mem_map.mp hx
    obtain ⟨y', -, rfl⟩ := List.mem_map.mp hy
    exact Or.inl hlt

theorem flatMap_toList_eq (m : ExtTreeMap κ ν cmp) (g : κ → ν → List γ) :
    (m.toList.flatMap fun e => g e.1 e.2) = (m.toList.map Prod.fst).flatMap (printed m g) := by
  rw [List.flatMap_map]
  refine List.flatMap_congr ?_
  rintro ⟨k, v⟩ he
  simp [printed, mem_toList_iff.mp he]

theorem mem_keys_of_printed {m : ExtTreeMap κ ν cmp} {g : κ → ν → List γ} {k : κ}
    (h : (printed m g k).isEmpty = false) : k ∈ m.toList.map Prod.fst := by
  cases hk : m[k]? with
  | none => simp [printed, hk] at h
  | some v => exact List.mem_map.mpr ⟨(k, v), mem_toList_iff.mpr hk, rfl⟩

omit [LawfulEqCmp cmp] in
/-- A missing key prints what a value that prints nothing does. -/
theorem printed_getD (m : ExtTreeMap κ ν cmp) {f : ν → List γ} {d : ν} (hd : f d = []) (k : κ) :
    printed m (fun _ => f) k = f ((m[k]?).getD d) := by
  unfold printed
  cases m[k]? with
  | some v => rfl
  | none => exact hd.symm

/-- **A WALK DEPENDS ON WHAT THE KEYS PRINT**: two maps whose keys print the same print the same. -/
theorem flatMap_toList_congr {m m' : ExtTreeMap κ ν cmp} {g f : κ → ν → List γ}
    (h : ∀ k, printed m g k = printed m' f k) :
    (m.toList.flatMap fun e => g e.1 e.2) = m'.toList.flatMap fun e => f e.1 e.2 := by
  have hprinted : printed m' f = printed m g := funext fun k => (h k).symm
  rw [flatMap_toList_eq, flatMap_toList_eq, hprinted, ← flatMap_filter_ne_nil (m.toList.map _),
    ← flatMap_filter_ne_nil (m'.toList.map _)]
  congr 1
  -- both sides are the sorted list of the keys that print something
  have hsorted : ∀ n : ExtTreeMap κ ν cmp,
      ((n.toList.map Prod.fst).filter fun k => !(printed m g k).isEmpty).Pairwise
        fun a b => cmp a b = .lt := fun n => (pairwise_keys n).filter _
  have hnodup : ∀ n : ExtTreeMap κ ν cmp,
      ((n.toList.map Prod.fst).filter fun k => !(printed m g k).isEmpty).Nodup := by
    intro n
    refine (hsorted n).imp ?_
    rintro a b hlt rfl
    have hself : cmp a a = .eq := ReflCmp.compare_self
    rw [hself] at hlt
    cases hlt
  refine List.Perm.eq_of_pairwise ?_ (hsorted m) (hsorted m') ?_
  · intro a b _ _ hab hba
    have hswap : cmp a b = (cmp b a).swap := OrientedCmp.eq_swap
    rw [hswap, hba] at hab
    cases hab
  · refine (List.perm_ext_iff_of_nodup (hnodup m) (hnodup m')).mpr fun k => ?_
    simp only [List.mem_filter, Bool.not_eq_true']
    constructor
    · rintro ⟨-, hk⟩
      exact ⟨mem_keys_of_printed (g := f) (by rw [hprinted]; exact hk), hk⟩
    · rintro ⟨-, hk⟩
      exact ⟨mem_keys_of_printed hk, hk⟩

omit [TransCmp cmp] [LawfulEqCmp cmp] in
/-- A walk over a range of numbers, as part of a longer one that leaves the others out. -/
theorem filterMap_range_guard (f : Nat → Option γ) {start next n : Nat} (hn : next - start ≤ n) :
    (List.range' start (next - start)).filterMap f =
      (List.range' start n).filterMap fun p => if start ≤ p ∧ p < next then f p else none := by
  obtain ⟨k, rfl⟩ := Nat.exists_eq_add_of_le hn
  rw [List.range'_append_1.symm, List.filterMap_append]
  have hrest : (List.range' (start + (next - start)) k).filterMap (fun p =>
      if start ≤ p ∧ p < next then f p else none) = [] := by
    rw [List.filterMap_eq_nil_iff]
    intro p hp
    rw [List.mem_range'_1] at hp
    exact if_neg (by omega)
  rw [hrest, List.append_nil]
  refine List.filterMap_congr ?_
  intro p hp
  rw [List.mem_range'_1] at hp
  rw [if_pos (by omega)]

/-! ## Rebuilding a map -/

theorem getElem?_foldl_insertIfNew [DecidableEq κ] (l : List (κ × ν)) (m : ExtTreeMap κ ν cmp)
    (k : κ) :
    (l.foldl (fun m e => m.insertIfNew e.1 e.2) m)[k]? =
      (m[k]?).or ((l.find? fun e => e.1 = k).map Prod.snd) := by
  induction l generalizing m with
  | nil => simp
  | cons e l ih =>
      rw [List.foldl_cons, ih, ExtTreeMap.getElem?_insertIfNew]
      by_cases hk : e.1 = k
      · subst hk
        cases hm : m[e.1]? with
        | none =>
            have hmem : e.1 ∉ m := by
              rw [ExtTreeMap.mem_iff_isSome_getElem?, hm]
              simp
            simp [hmem, ReflCmp.compare_self]
        | some v =>
            have hmem : e.1 ∈ m := by
              rw [ExtTreeMap.mem_iff_isSome_getElem?, hm]
              simp
            simp [hmem]
      · have hc : cmp e.1 k ≠ .eq := fun hc => hk (LawfulEqCmp.eq_of_compare hc)
        simp [hc, hk]

/-- Inserting the entries of a map in any order gives the map. -/
theorem foldl_insertIfNew_eq [DecidableEq κ] {m : ExtTreeMap κ ν cmp} {l : List (κ × ν)}
    (h : l.Perm m.toList) : l.foldl (fun m e => m.insertIfNew e.1 e.2) ∅ = m := by
  apply ExtTreeMap.ext_getElem?
  intro k
  rw [getElem?_foldl_insertIfNew]
  have hmem : ∀ e, e ∈ l ↔ m[e.1]? = some e.2 := fun e => h.mem_iff.trans mem_toList_iff
  cases hfind : l.find? fun e => e.1 = k with
  | none =>
      have hnone : m[k]? = none := by
        cases hk : m[k]? with
        | none => rfl
        | some v =>
            have := List.find?_eq_none.mp hfind (k, v) ((hmem (k, v)).mpr hk)
            simp at this
      simp [hnone]
  | some e =>
      have hek : e.1 = k := by simpa using List.find?_some hfind
      have := (hmem e).mp (List.mem_of_find?_eq_some hfind)
      rw [hek] at this
      simp [this]

/-- Entries with different keys are the entries of the map they are put into. -/
theorem toList_foldl_insertIfNew [DecidableEq κ] {l : List (κ × ν)} (h : (l.map Prod.fst).Nodup) :
    (l.foldl (fun m e => m.insertIfNew e.1 e.2) (∅ : ExtTreeMap κ ν cmp)).toList.Perm l := by
  refine (List.perm_ext_iff_of_nodup (nodup_toList _) (List.Nodup.of_map _ h)).mpr ?_
  rintro ⟨k, v⟩
  rw [mem_toList_iff, getElem?_foldl_insertIfNew, ExtTreeMap.getElem?_empty, Option.none_or,
    Option.map_eq_some_iff]
  constructor
  · rintro ⟨e, hfind, hv⟩
    have hk : e.1 = k := by simpa using List.find?_some hfind
    have he : e = (k, v) := Prod.ext hk hv
    rw [← he]
    exact List.mem_of_find?_eq_some hfind
  · intro hmem
    cases hfind : l.find? fun e => e.1 = k with
    | none => exact absurd (decide_eq_true rfl) (List.find?_eq_none.mp hfind (k, v) hmem)
    | some e =>
        have hk : e.1 = k := by simpa using List.find?_some hfind
        -- the key stands in the list once
        have he : e = (k, v) := List.inj_on_of_nodup_map h (List.mem_of_find?_eq_some hfind) hmem hk
        exact ⟨e, rfl, by rw [he]⟩

/-! ## Sorted listings -/

/-- `std::sort` with the order of a comparison. -/
def sortBy (cmp : γ → γ → Ordering) (l : List γ) : List γ := l.mergeSort fun a b => (cmp a b).isLE

theorem sortBy_perm (cmp : γ → γ → Ordering) (l : List γ) : (sortBy cmp l).Perm l :=
  List.mergeSort_perm l _

theorem pairwise_sortBy (cmp : γ → γ → Ordering) [TransCmp cmp] (l : List γ) :
    (sortBy cmp l).Pairwise fun a b => (cmp a b).isLE = true := by
  refine List.pairwise_mergeSort ?_ ?_ l
  · intro a b c hab hbc
    exact TransCmp.isLE_trans hab hbc
  · intro a b
    have hswap : cmp b a = (cmp a b).swap := OrientedCmp.eq_swap
    rw [hswap]
    cases cmp a b <;> rfl

/-- **A SORTED LIST IS IN SOME OTHER ORDER** just if the comparison puts every pair of its entries in
    that order. -/
theorem pairwise_not_before_iff {cmp : γ → γ → Ordering} [OrientedCmp cmp] {l : List γ}
    {before : γ → γ → Prop} (hsorted : l.Pairwise fun a b => (cmp a b).isLE = true)
    (hne : ∀ x ∈ l, ∀ y ∈ l, before x y → cmp x y ≠ .eq) :
    l.Pairwise (fun a b => ¬ before b a) ↔ ∀ x ∈ l, ∀ y ∈ l, before x y → cmp x y = .lt := by
  constructor
  · intro hpair x hx y hy hbefore
    obtain ⟨i, hi, rfl⟩ := List.getElem_of_mem hx
    obtain ⟨j, hj, rfl⟩ := List.getElem_of_mem hy
    have hneq := hne _ hx _ hy hbefore
    rcases Nat.lt_trichotomy i j with hij | hij | hij
    · have hle := List.pairwise_iff_getElem.mp hsorted i j hi hj hij
      cases hc : cmp l[i] l[j] with
      | lt => rfl
      | eq => exact absurd hc hneq
      | gt =>
          rw [hc] at hle
          cases hle
    · subst hij
      exact absurd ReflCmp.compare_self hneq
    · exact absurd hbefore (List.pairwise_iff_getElem.mp hpair j i hj hi hij)
  · intro hlt
    refine List.Pairwise.imp_of_mem ?_ hsorted
    intro a b ha hb hle hbefore
    have hswap : cmp a b = (cmp b a).swap := OrientedCmp.eq_swap
    rw [hlt b hb a ha hbefore] at hswap
    rw [hswap] at hle
    cases hle

/-- A sorted listing does not depend on the order of the entries. -/
theorem sortBy_eq_iff_perm {cmp : γ → γ → Ordering} [TransCmp cmp] [LawfulEqCmp cmp]
    {l l' : List γ} : sortBy cmp l = sortBy cmp l' ↔ l.Perm l' := by
  constructor
  · intro h
    exact (sortBy_perm cmp l).symm.trans (h ▸ sortBy_perm cmp l')
  · intro h
    refine List.Perm.eq_of_pairwise ?_ (pairwise_sortBy cmp l) (pairwise_sortBy cmp l')
      ((sortBy_perm cmp l).trans (h.trans (sortBy_perm cmp l').symm))
    intro a b _ _ hab hba
    have hswap : cmp b a = (cmp a b).swap := OrientedCmp.eq_swap
    rw [hswap] at hba
    have heq : cmp a b = .eq := by
      cases hc : cmp a b <;> simp [hc] at hab hba ⊢
    exact LawfulEqCmp.eq_of_compare heq

/-- Sorting brings a listing into the one strictly increasing order it has. -/
theorem sortBy_eq_of_strict {cmp : γ → γ → Ordering} [TransCmp cmp] {l l' : List γ}
    (hperm : l.Perm l') (hstrict : l'.Pairwise fun a b => cmp a b = .lt) : sortBy cmp l = l' := by
  have hle : l'.Pairwise fun a b => (cmp a b).isLE = true := by
    refine hstrict.imp ?_
    intro a b hab
    rw [hab]
    rfl
  refine List.Perm.eq_of_pairwise ?_ (pairwise_sortBy cmp l) hle ((sortBy_perm cmp l).trans hperm)
  intro a b ha hb hab hba
  by_contra hne
  have hmem : a ∈ l' := hperm.mem_iff.mp ((sortBy_perm cmp l).mem_iff.mp ha)
  have hswap : cmp a b = (cmp b a).swap := OrientedCmp.eq_swap
  -- one of the two stands before the other
  have hlt : cmp a b = .lt ∨ cmp b a = .lt := by
    obtain ⟨i, hi, rfl⟩ := List.getElem_of_mem hmem
    obtain ⟨j, hj, rfl⟩ := List.getElem_of_mem hb
    rw [List.pairwise_iff_getElem] at hstrict
    rcases Nat.lt_trichotomy i j with hij | hij | hij
    · exact Or.inl (hstrict i j hi hj hij)
    · subst hij
      exact absurd rfl hne
    · exact Or.inr (hstrict j i hj hi hij)
  rcases hlt with hlt | hlt
  · rw [hlt] at hswap
    rw [Ordering.swap_eq_iff_eq_swap.mp hswap.symm] at hba
    cases hba
  · rw [hlt] at hswap
    rw [hswap] at hab
    cases hab

/-- Two listings of the same values list the same entries, if the entries can be told apart. -/
theorem perm_of_map_perm {δ : Type} {f : δ → γ} {l l' : List δ}
    (hinj : Set.InjOn f {d | d ∈ l ∨ d ∈ l'}) (h : (l.map f).Perm (l'.map f)) : l.Perm l' := by
  cases l with
  | nil =>
      have hnil : l' = [] := by simpa using h
      rw [hnil]
  | cons d l =>
      have : Nonempty δ := ⟨d⟩
      have hleft := hinj.leftInvOn_invFunOn
      have hback : ∀ k : List δ, (∀ x ∈ k, x ∈ {e | e ∈ d :: l ∨ e ∈ l'}) →
          (k.map f).map (Function.invFunOn f {e | e ∈ d :: l ∨ e ∈ l'}) = k := by
        intro k hk
        rw [List.map_map]
        exact (List.map_congr_left fun x hx => hleft (hk x hx)).trans (List.map_id k)
      have hmap := h.map (Function.invFunOn f {e | e ∈ d :: l ∨ e ∈ l'})
      rwa [hback _ fun x hx => Or.inl hx, hback _ fun x hx => Or.inr hx] at hmap

/-- A list on which a partial function is defined is mapped like by a total one. -/
theorem mapM_eq_some_map {δ : Type} {f : γ → Option δ} {g : γ → δ} {l : List γ}
    (h : ∀ x ∈ l, f x = some (g x)) : l.mapM f = some (l.map g) := by
  induction l with
  | nil => rfl
  | cons x rest ih =>
      rw [List.mapM_cons, h x (by simp), ih fun y hy => h y (by simp [hy])]
      rfl

/-! ## Selecting in two rounds -/

/-- Selecting first by `p`, then by `q` among the rest, selects in the order of the list if nothing
    of the second round stands before something of the first. -/
theorem filter_append_filter_not {p q : γ → Bool} {l : List γ} (hpq : ∀ x ∈ l, p x → q x)
    (horder : l.Pairwise fun x y => p y → q x → p x) :
    l.filter p ++ (l.filter fun x => !p x).filter q = l.filter q := by
  induction l with
  | nil => rfl
  | cons x rest ih =>
      rw [List.pairwise_cons] at horder
      have hrest := ih (fun y hy => hpq y (by simp [hy])) horder.2
      cases hp : p x with
      | true =>
          have hq := hpq x (by simp) hp
          rw [List.filter_cons_of_pos hp, List.filter_cons_of_neg (by simp [hp]),
            List.filter_cons_of_pos hq, List.cons_append, hrest]
      | false =>
          rw [List.filter_cons_of_neg (by simp [hp]), List.filter_cons_of_pos (by simp [hp])]
          cases hq : q x with
          | false =>
              rw [List.filter_cons_of_neg (by simp [hq]), List.filter_cons_of_neg (by simp [hq]),
                hrest]
          | true =>
              -- nothing of the first round is left behind `x`
              have hnone : rest.filter p = [] := by
                refine List.filter_eq_nil_iff.mpr ?_
                intro y hy hpy
                have := horder.1 y hy hpy hq
                rw [hp] at this
                cases this
              rw [hnone, List.nil_append] at hrest
              rw [List.filter_cons_of_pos hq, List.filter_cons_of_pos hq, hnone, hrest]
              rfl

/-! ## Sections -/

/-- The entries of the `i`-th section belong to class `i`, those of the next to `i + 1`, and so on. -/
def InSections (cls : γ → Nat) : Nat → List (List γ) → Prop
  | _, [] => True
  | i, part :: rest => (∀ x ∈ part, cls x = i) ∧ InSections cls (i + 1) rest

theorem InSections.le_class {cls : γ → Nat} {i : Nat} {l : List (List γ)} (h : InSections cls i l) :
    ∀ x ∈ l.flatten, i ≤ cls x := by
  induction l generalizing i with
  | nil =>
      intro x hx
      cases hx
  | cons part rest ih =>
      intro x hx
      rw [List.flatten_cons, List.mem_append] at hx
      rcases hx with hx | hx
      · rw [h.1 x hx]
      · exact Nat.le_of_succ_le (ih h.2 x hx)

/-- The first section is what belongs to its class. -/
theorem InSections.filter_flatten {cls : γ → Nat} {i : Nat} {part : List γ} {rest : List (List γ)}
    (h : InSections cls i (part :: rest)) :
    (List.flatten (part :: rest)).filter (fun x => cls x == i) = part := by
  have hpart : part.filter (fun x => cls x == i) = part := by
    refine List.filter_eq_self.mpr fun x hx => ?_
    rw [h.1 x hx, beq_self_eq_true]
  have hrest : rest.flatten.filter (fun x => cls x == i) = [] := by
    refine List.filter_eq_nil_iff.mpr fun x hx => ?_
    have hle := InSections.le_class h.2 x hx
    rw [beq_iff_eq]
    omega
  rw [List.flatten_cons, List.filter_append, hpart, hrest, List.append_nil]

/-- **SECTIONS CAN BE READ BACK**: what is written one section after the other determines the
    sections, if the class of an entry tells where it belongs. -/
theorem eq_of_flatten_eq {cls : γ → Nat} {i : Nat} {l l' : List (List γ)} (h : InSections cls i l)
    (h' : InSections cls i l') (hlen : l.length = l'.length) (heq : l.flatten = l'.flatten) :
    l = l' := by
  induction l generalizing i l' with
  | nil => exact (List.length_eq_zero_iff.mp hlen.symm).symm
  | cons part rest ih =>
      cases l' with
      | nil => cases hlen
      | cons part' rest' =>
          have hpart : part = part' := by
            rw [← h.filter_flatten, ← h'.filter_flatten, heq]
          subst hpart
          rw [List.flatten_cons, List.flatten_cons, List.append_cancel_left_eq] at heq
          rw [ih h.2 h'.2 (Nat.succ.inj hlen) heq]

end MapSum
