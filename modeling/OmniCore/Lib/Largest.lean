import OmniCore.Lib.Listing

/-! # Largest — sums by key and the first key with the largest one

    Values are added up by key in an ordered map, and a walk over the map keeps a key whenever
    its sum is strictly larger than the best so far. What is kept is the smallest key among
    those with the largest sum, whatever the order in which the values came. -/

namespace Largest

open Std (ExtTreeMap TransCmp LawfulEqCmp)
open MapSum

variable {κ : Type} {cmp : κ → κ → Ordering} [TransCmp cmp] [LawfulEqCmp cmp] [DecidableEq κ]

/-! ## Sums by key -/

/-- Adds a value to what its key has so far. -/
def addTo (m : ExtTreeMap κ Int cmp) (e : κ × Int) : ExtTreeMap κ Int cmp :=
  m.insert e.1 ((m[e.1]?).getD 0 + e.2)

/-- The sum of the values of a key. -/
def total (l : List (κ × Int)) (k : κ) : Int := ((l.filter fun e => e.1 = k).map Prod.snd).sum

omit [TransCmp cmp] [LawfulEqCmp cmp] in
theorem total_cons (e : κ × Int) (l : List (κ × Int)) (k : κ) :
    total (e :: l) k = (if e.1 = k then e.2 else 0) + total l k := by
  unfold total
  by_cases hk : e.1 = k
  · rw [if_pos hk, List.filter_cons, if_pos (decide_eq_true hk), List.map_cons, List.sum_cons]
  · rw [if_neg hk, List.filter_cons, if_neg (by simpa using hk), Int.zero_add]

omit [TransCmp cmp] [LawfulEqCmp cmp] in
theorem total_nonneg {l : List (κ × Int)} (h : ∀ e ∈ l, 0 ≤ e.2) (k : κ) : 0 ≤ total l k := by
  refine List.sum_nonneg ?_
  intro v hv
  obtain ⟨e, he, rfl⟩ := List.mem_map.mp hv
  exact h e (List.mem_filter.mp he).1

omit [TransCmp cmp] [LawfulEqCmp cmp] in
/-- Without values a key has nothing. -/
theorem total_of_notMem {l : List (κ × Int)} {k : κ} (h : k ∉ l.map Prod.fst) : total l k = 0 := by
  have hnone : (l.filter fun e => e.1 = k) = [] := by
    refine List.filter_eq_nil_iff.mpr fun e he hk => h ?_
    rw [← of_decide_eq_true hk]
    exact List.mem_map_of_mem he
  unfold total
  rw [hnone]
  rfl

omit [TransCmp cmp] [LawfulEqCmp cmp] in
/-- No key has anything just if all values are zero. -/
theorem total_eq_zero_iff {l : List (κ × Int)} (h : ∀ e ∈ l, 0 ≤ e.2) :
    (∀ k, total l k = 0) ↔ ∀ e ∈ l, e.2 = 0 := by
  induction l with
  | nil => exact iff_of_true (fun _ => rfl) fun e he => absurd he List.not_mem_nil
  | cons e l ih =>
      have hrest : ∀ e' ∈ l, 0 ≤ e'.2 := fun e' he' => h e' (List.mem_cons_of_mem e he')
      have he := h e List.mem_cons_self
      rw [List.forall_mem_cons, ← ih hrest]
      constructor
      · intro hall
        have hsplit : ∀ k, (if e.1 = k then e.2 else 0) + total l k = 0 := fun k => by
          rw [← total_cons]
          exact hall k
        have hfirst := hsplit e.1
        have hpos := total_nonneg hrest e.1
        rw [if_pos rfl] at hfirst
        have hzero : e.2 = 0 := by omega
        refine ⟨hzero, fun k => ?_⟩
        have hk := hsplit k
        rw [hzero, ite_self, Int.zero_add] at hk
        exact hk
      · rintro ⟨hzero, hall⟩ k
        rw [total_cons, hall k, hzero, ite_self, Int.add_zero]

/-- **THE MAP OF SUMS**: every key that occurs, with the sum of its values. -/
theorem getElem?_foldl_addTo (l : List (κ × Int)) (k : κ) :
    (l.foldl addTo (∅ : ExtTreeMap κ Int cmp))[k]? =
      if k ∈ l.map Prod.fst then some (total l k) else none := by
  have hgen : ∀ (l : List (κ × Int)) (m : ExtTreeMap κ Int cmp),
      (l.foldl addTo m)[k]? = if k ∈ l.map Prod.fst then some ((m[k]?).getD 0 + total l k)
        else m[k]? := by
    intro l
    induction l with
    | nil =>
        intro m
        rfl
    | cons e l ih =>
        intro m
        rw [List.foldl_cons, ih, addTo, getElem?_insert_eq, List.map_cons, total_cons]
        by_cases hk : e.1 = k
        · rw [if_pos hk, if_pos hk, if_pos (List.mem_cons.mpr (Or.inl hk.symm)), hk]
          by_cases hmem : k ∈ l.map Prod.fst
          · rw [if_pos hmem, Option.getD_some, Int.add_assoc]
          · rw [if_neg hmem, total_of_notMem hmem, Int.add_zero]
        · have hiff : k ∈ e.1 :: l.map Prod.fst ↔ k ∈ l.map Prod.fst := by
            rw [List.mem_cons, or_iff_right (Ne.symm hk)]
          rw [if_neg hk, if_neg hk, Int.zero_add]
          by_cases hmem : k ∈ l.map Prod.fst
          · rw [if_pos hmem, if_pos (hiff.mpr hmem)]
          · rw [if_neg hmem, if_neg (mt hiff.mp hmem)]
  rw [hgen l ∅, ExtTreeMap.getElem?_empty]
  rw [Option.getD_none, Int.zero_add]

/-! ## The walk -/

/-- Keeps a key whose value is strictly larger than the best so far. -/
def keepLarger (best : Option κ × Int) (e : κ × Int) : Option κ × Int :=
  if best.2 < e.2 then (some e.1, e.2) else best

omit [TransCmp cmp] [LawfulEqCmp cmp] [DecidableEq κ] in
/-- **WHAT A WALK KEEPS**: what it had, or the first entry with the largest value. -/
theorem foldl_keepLarger (l : List (κ × Int)) (best : Option κ × Int) :
    (l.foldl keepLarger best = best ∧ ∀ e ∈ l, e.2 ≤ best.2) ∨
      ∃ pre e post, l = pre ++ e :: post ∧ l.foldl keepLarger best = (some e.1, e.2) ∧
        best.2 < e.2 ∧ (∀ e' ∈ pre, e'.2 < e.2) ∧ ∀ e' ∈ post, e'.2 ≤ e.2 := by
  induction l generalizing best with
  | nil => exact Or.inl ⟨rfl, fun e he => absurd he List.not_mem_nil⟩
  | cons e l ih =>
      rw [List.foldl_cons]
      by_cases hlt : best.2 < e.2
      · have hstep : keepLarger best e = (some e.1, e.2) := if_pos hlt
        rw [hstep]
        rcases ih (some e.1, e.2) with ⟨hsame, hle⟩ |
          ⟨pre, e', post, rfl, hfold, hbest, hpre, hpost⟩
        · exact Or.inr ⟨[], e, l, rfl, hsame, hlt, fun _ h => absurd h List.not_mem_nil, hle⟩
        · refine Or.inr ⟨e :: pre, e', post, rfl, hfold, lt_trans hlt hbest, ?_, hpost⟩
          exact List.forall_mem_cons.mpr ⟨hbest, hpre⟩
      · have hstep : keepLarger best e = best := if_neg hlt
        rw [hstep]
        rcases ih best with ⟨hsame, hle⟩ | ⟨pre, e', post, rfl, hfold, hbest, hpre, hpost⟩
        · exact Or.inl ⟨hsame, List.forall_mem_cons.mpr ⟨not_lt.mp hlt, hle⟩⟩
        · refine Or.inr ⟨e :: pre, e', post, rfl, hfold, hbest, ?_, hpost⟩
          exact List.forall_mem_cons.mpr ⟨lt_of_le_of_lt (not_lt.mp hlt) hbest, hpre⟩

/-- The key with the largest positive value, the smallest one if there are several. -/
def largest (m : ExtTreeMap κ Int cmp) : Option κ := (m.toList.foldl keepLarger (none, 0)).1

omit [DecidableEq κ] in
theorem largest_eq_none {m : ExtTreeMap κ Int cmp} (h : largest m = none) {k : κ} {v : Int}
    (hk : m[k]? = some v) : v ≤ 0 := by
  unfold largest at h
  rcases foldl_keepLarger m.toList (none, 0) with ⟨-, hle⟩ | ⟨_, _, _, -, hfold, -⟩
  · exact hle (k, v) (mem_toList_iff.mpr hk)
  · rw [hfold] at h
    cases h

omit [DecidableEq κ] in
theorem largest_eq_some {m : ExtTreeMap κ Int cmp} {k : κ} (h : largest m = some k) :
    ∃ v, m[k]? = some v ∧ 0 < v ∧
      ∀ k' v', m[k']? = some v' → v' ≤ v ∧ (v' = v → (cmp k k').isLE = true) := by
  unfold largest at h
  rcases foldl_keepLarger m.toList (none, 0) with ⟨hsame, -⟩ | ⟨pre, e, post, hsplit, hfold, hbest,
    hpre, hpost⟩
  · rw [hsame] at h
    cases h
  · rw [hfold, Option.some.injEq] at h
    subst h
    have hmem : e ∈ m.toList := by
      rw [hsplit]
      exact List.mem_append_right _ List.mem_cons_self
    refine ⟨e.2, mem_toList_iff.mp hmem, hbest, fun k' v' hk' => ?_⟩
    have hmem' : (k', v') ∈ m.toList := mem_toList_iff.mpr hk'
    rw [hsplit] at hmem'
    rcases List.mem_append.mp hmem' with hin | hin
    · have hlt := hpre _ hin
      exact ⟨hlt.le, fun heq => absurd heq hlt.ne⟩
    · rcases List.mem_cons.mp hin with heq | hin
      · subst heq
        have hself : cmp k' k' = .eq := Std.ReflCmp.compare_self
        refine ⟨le_rfl, fun _ => ?_⟩
        rw [hself]
        rfl
      · refine ⟨hpost _ hin, fun _ => ?_⟩
        -- keys behind are larger
        have hkeys := pairwise_keys m
        rw [List.pairwise_map, hsplit] at hkeys
        have hlt := (List.pairwise_cons.mp (List.pairwise_append.mp hkeys).2.1).1 _ hin
        rw [hlt]
        rfl

end Largest
