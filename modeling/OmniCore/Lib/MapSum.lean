import Mathlib

/-! # Sums over ordered maps

    `Std.ExtTreeMap` gives lookup, insertion and erasure with extensional
    equality. A ledger also needs the total of a quantity over all entries of a
    map, and how that total moves when one entry is written or removed. -/

namespace MapSum

open Std

variable {κ ν M : Type} {cmp : κ → κ → Ordering} [TransCmp cmp] [LawfulEqCmp cmp]

/-! ## Keys compared component by component -/

/-- The order of `std::pair`: the first components decide, then the second ones. -/
def pairCmp {α β : Type} [Ord α] [Ord β] : α × β → α × β → Ordering :=
  compareLex (compareOn Prod.fst) (compareOn Prod.snd)

instance {α β : Type} [Ord α] [Ord β] [TransOrd α] [TransOrd β] :
    TransCmp (pairCmp (α := α) (β := β)) :=
  inferInstanceAs (TransCmp (compareLex (compareOn Prod.fst) (compareOn Prod.snd)))

instance {α β : Type} [Ord α] [Ord β] [LawfulEqOrd α] [LawfulEqOrd β] :
    LawfulEqCmp (pairCmp (α := α) (β := β)) where
  compare_self := by
    intro a
    simp [pairCmp, compareLex, compareOn]
  eq_of_compare := by
    intro a b h
    simp only [pairCmp, compareLex, compareOn, Ordering.then_eq_eq] at h
    exact Prod.ext (LawfulEqOrd.eq_of_compare h.1) (LawfulEqOrd.eq_of_compare h.2)

/-! ## Lookups that are decided -/

/-- What holds of a value that is there can be checked. -/
instance decidableForallSome {α : Type} (x : Option α) (P : α → Prop) [DecidablePred P] :
    Decidable (∀ a, x = some a → P a) :=
  inferInstanceAs (Decidable (∀ a ∈ x, P a))

instance decidableExistsSome {α : Type} (x : Option α) (P : α → Prop) [DecidablePred P] :
    Decidable (∃ a, x = some a ∧ P a) :=
  inferInstanceAs (Decidable (∃ a ∈ x, P a))

/-! ## Entry lists -/

theorem nodup_toList (m : ExtTreeMap κ ν cmp) : m.toList.Nodup := by
  have h := ExtTreeMap.distinct_keys_toList (t := m)
  refine h.imp ?_
  intro a b hne hab
  apply hne
  rw [hab]
  exact ReflCmp.compare_self

theorem mem_toList_iff {m : ExtTreeMap κ ν cmp} {e : κ × ν} :
    e ∈ m.toList ↔ m[e.1]? = some e.2 :=
  ExtTreeMap.mem_toList_iff_getElem?_eq_some

theorem getElem?_insert_eq [DecidableEq κ] (m : ExtTreeMap κ ν cmp) (k a : κ) (v : ν) :
    (m.insert k v)[a]? = if k = a then some v else m[a]? := by
  rw [ExtTreeMap.getElem?_insert]
  by_cases h : k = a
  · simp [h, ReflCmp.compare_self]
  · have hc : cmp k a ≠ .eq := fun hc => h (LawfulEqCmp.eq_of_compare hc)
    simp [h, hc]

theorem getElem?_erase_eq [DecidableEq κ] (m : ExtTreeMap κ ν cmp) (k a : κ) :
    (m.erase k)[a]? = if k = a then none else m[a]? := by
  rw [ExtTreeMap.getElem?_erase]
  by_cases h : k = a
  · simp [h, ReflCmp.compare_self]
  · have hc : cmp k a ≠ .eq := fun hc => h (LawfulEqCmp.eq_of_compare hc)
    simp [h, hc]

/-- A key that is new. -/
theorem insertIfNew_of_absent {m : ExtTreeMap κ ν cmp} {k : κ} (h : m[k]? = none) (v : ν) :
    m.insertIfNew k v = m.insert k v := by
  refine ExtTreeMap.ext_getElem? fun a => ?_
  rw [ExtTreeMap.getElem?_insertIfNew, ExtTreeMap.getElem?_insert]
  have hno : k ∉ m := by
    rw [ExtTreeMap.mem_iff_isSome_getElem?, h]
    exact Bool.false_ne_true
  exact if_congr (and_iff_left hno) rfl rfl

/-- Writing a key gives the entries of the map without that key, plus the new one. -/
theorem toList_insert_perm (m : ExtTreeMap κ ν cmp) (k : κ) (v : ν) :
    (m.insert k v).toList.Perm ((k, v) :: (m.erase k).toList) := by
  have hk : (k, v) ∉ (m.erase k).toList := by
    rw [mem_toList_iff]
    simp
  refine (List.perm_ext_iff_of_nodup (nodup_toList _)
    (List.nodup_cons.mpr ⟨hk, nodup_toList _⟩)).mpr ?_
  rintro ⟨a, b⟩
  simp only [mem_toList_iff, List.mem_cons, ExtTreeMap.getElem?_insert,
    ExtTreeMap.getElem?_erase, Prod.mk.injEq]
  by_cases h : cmp k a = .eq
  · have hka : k = a := LawfulEqCmp.eq_of_compare h
    subst hka
    simp [h, eq_comm]
  · have hka : a ≠ k := by
      rintro rfl
      exact h ReflCmp.compare_self
    simp [h, hka]

/-- Rewriting a key with the value it already holds changes nothing. -/
theorem insert_erase_self {m : ExtTreeMap κ ν cmp} {k : κ} {v : ν} (h : m[k]? = some v) :
    (m.erase k).insert k v = m := by
  apply ExtTreeMap.ext_getElem?
  intro a
  simp only [ExtTreeMap.getElem?_insert, ExtTreeMap.getElem?_erase]
  split
  · next hka =>
      rw [← LawfulEqCmp.eq_of_compare hka, h]
  · rfl

theorem erase_of_none {m : ExtTreeMap κ ν cmp} {k : κ} (h : m[k]? = none) : m.erase k = m := by
  apply ExtTreeMap.ext_getElem?
  intro a
  simp only [ExtTreeMap.getElem?_erase]
  split
  · next hka =>
      rw [← LawfulEqCmp.eq_of_compare hka, h]
  · rfl

theorem erase_insert (m : ExtTreeMap κ ν cmp) (k : κ) (v : ν) :
    (m.insert k v).erase k = m.erase k := by
  apply ExtTreeMap.ext_getElem?
  intro a
  simp only [ExtTreeMap.getElem?_erase, ExtTreeMap.getElem?_insert]
  split <;> rfl

omit [LawfulEqCmp cmp] in
theorem toList_empty : (∅ : ExtTreeMap κ ν cmp).toList = [] :=
  ExtTreeMap.toList_eq_nil_iff.mpr rfl

/-! ## Totals -/

section AddCommMonoid

variable [AddCommMonoid M]

/-- The total of `f` over all entries of a map. -/
def msum (m : ExtTreeMap κ ν cmp) (f : κ → ν → M) : M :=
  (m.toList.map fun e => f e.1 e.2).sum

omit [LawfulEqCmp cmp] in
@[simp] theorem msum_empty (f : κ → ν → M) : msum (∅ : ExtTreeMap κ ν cmp) f = 0 := by
  simp [msum, toList_empty]

theorem msum_insert (m : ExtTreeMap κ ν cmp) (k : κ) (v : ν) (f : κ → ν → M) :
    msum (m.insert k v) f = f k v + msum (m.erase k) f := by
  unfold msum
  rw [((toList_insert_perm m k v).map _).sum_eq]
  simp

theorem msum_erase_of_some {m : ExtTreeMap κ ν cmp} {k : κ} {v : ν} (h : m[k]? = some v)
    (f : κ → ν → M) : msum m f = f k v + msum (m.erase k) f := by
  have hm := msum_insert (m.erase k) k v f
  rw [insert_erase_self h, erase_of_none (by simp)] at hm
  exact hm

theorem msum_congr {m : ExtTreeMap κ ν cmp} {f g : κ → ν → M}
    (h : ∀ k v, m[k]? = some v → f k v = g k v) : msum m f = msum m g := by
  unfold msum
  congr 1
  refine List.map_congr_left ?_
  rintro ⟨k, v⟩ he
  exact h k v (mem_toList_iff.mp he)

omit [LawfulEqCmp cmp] in
theorem msum_add (m : ExtTreeMap κ ν cmp) (f g : κ → ν → M) :
    msum m (fun k v => f k v + g k v) = msum m f + msum m g := by
  unfold msum
  exact List.sum_map_add

omit [LawfulEqCmp cmp] in
theorem msum_zero (m : ExtTreeMap κ ν cmp) : msum m (fun _ _ => (0 : M)) = 0 := by
  simp [msum]

end AddCommMonoid

section AddCommGroup

variable [AddCommGroup M]

/-- Writing one key moves the total by the difference between the new and the
    old contribution of that key. -/
theorem msum_insert_sub (m : ExtTreeMap κ ν cmp) (k : κ) (v : ν) (f : κ → ν → M) :
    msum (m.insert k v) f = msum m f + (f k v - (m[k]?).elim 0 (f k)) := by
  rw [msum_insert]
  cases h : m[k]? with
  | none =>
      rw [erase_of_none h]
      simp [add_comm]
  | some w =>
      rw [msum_erase_of_some h f]
      simp only [Option.elim_some]
      abel

/-- The same for a map whose missing keys stand for a default of contribution zero. -/
theorem msum_insert_getD (m : ExtTreeMap κ ν cmp) (k : κ) (v d : ν) {f : ν → M} (hd : f d = 0) :
    msum (m.insert k v) (fun _ => f) =
      msum m (fun _ => f) + (f v - f ((m[k]?).getD d)) := by
  rw [msum_insert_sub]
  cases m[k]? with
  | none => simp [hd]
  | some w => simp

theorem msum_erase_sub (m : ExtTreeMap κ ν cmp) (k : κ) (f : κ → ν → M) :
    msum (m.erase k) f = msum m f - (m[k]?).elim 0 (f k) := by
  cases h : m[k]? with
  | none => simp [erase_of_none h]
  | some w =>
      rw [msum_erase_of_some h f]
      simp

end AddCommGroup

section Order

theorem msum_nonneg {m : ExtTreeMap κ ν cmp} {f : κ → ν → Int}
    (h : ∀ k v, m[k]? = some v → 0 ≤ f k v) : 0 ≤ msum m f := by
  unfold msum
  apply List.sum_nonneg
  intro x hx
  obtain ⟨⟨k, v⟩, he, rfl⟩ := List.mem_map.mp hx
  exact h k v (mem_toList_iff.mp he)

/-- One entry of a map of non-negative contributions is at most the total. -/
theorem le_msum {m : ExtTreeMap κ ν cmp} {f : κ → ν → Int} {k : κ} {v : ν}
    (h : ∀ k v, m[k]? = some v → 0 ≤ f k v) (hk : m[k]? = some v) : f k v ≤ msum m f := by
  rw [msum_erase_of_some hk]
  have hrest : 0 ≤ msum (m.erase k) f := by
    apply msum_nonneg
    intro a b hab
    rw [ExtTreeMap.getElem?_erase] at hab
    split at hab
    · simp at hab
    · exact h a b hab
  omega

end Order

end MapSum
