import OmniCore.Lib.MapSum

/-! # Sweep — one pass over a database that edits the entry at hand

    An iterator walks over a snapshot of a map in the order of the keys. A visit of an entry
    may carry something over to the next one, and may delete or rewrite the entry. What
    becomes of an entry depends on the entries before it through what they carry, and on
    no others. -/

namespace Sweep

open Std (ExtTreeMap TransCmp LawfulEqCmp)
open MapSum

/-- What a visit does with the entry at hand. -/
inductive Edit (ν : Type)
  | keep
  | delete
  | put (value : ν)

/-- What is left of an entry. -/
def Edit.apply {ν : Type} (old : ν) : Edit ν → Option ν
  | keep => some old
  | delete => none
  | put value => some value

variable {σ κ ν : Type} {cmp : κ → κ → Ordering} [TransCmp cmp]

/-- One entry: what is carried on, and the map with the edit. -/
def visitEntry (visit : σ → κ → ν → σ × Edit ν) (acc : σ × ExtTreeMap κ ν cmp) (e : κ × ν) :
    σ × ExtTreeMap κ ν cmp :=
  let r := visit acc.1 e.1 e.2
  (r.1, match r.2 with
    | .keep => acc.2
    | .delete => acc.2.erase e.1
    | .put value => acc.2.insert e.1 value)

/-- The pass over all entries. -/
def sweep (visit : σ → κ → ν → σ × Edit ν) (start : σ) (m : ExtTreeMap κ ν cmp) :
    σ × ExtTreeMap κ ν cmp :=
  m.toList.foldl (visitEntry visit) (start, m)

/-- What a list of entries carries on. -/
def carry (visit : σ → κ → ν → σ × Edit ν) (start : σ) (l : List (κ × ν)) : σ :=
  l.foldl (fun s e => (visit s e.1 e.2).1) start

variable {visit : σ → κ → ν → σ × Edit ν}

/-- The pass carries what its entries carry. -/
theorem fst_foldl (l : List (κ × ν)) (acc : σ × ExtTreeMap κ ν cmp) :
    (l.foldl (visitEntry visit) acc).1 = carry visit acc.1 l := by
  induction l generalizing acc with
  | nil => rfl
  | cons e rest ih => exact ih (visitEntry visit acc e)

theorem fst_sweep (start : σ) (m : ExtTreeMap κ ν cmp) :
    (sweep visit start m).1 = carry visit start m.toList :=
  fst_foldl m.toList (start, m)

variable [LawfulEqCmp cmp] [DecidableEq κ]

theorem getElem?_visitEntry (acc : σ × ExtTreeMap κ ν cmp) (e : κ × ν) (k : κ) :
    (visitEntry visit acc e).2[k]? =
      if e.1 = k then
        match (visit acc.1 e.1 e.2).2 with
        | .keep => acc.2[k]?
        | .delete => none
        | .put value => some value
      else acc.2[k]? := by
  unfold visitEntry
  dsimp only
  cases (visit acc.1 e.1 e.2).2 with
  | keep => exact (ite_self _).symm
  | delete => exact getElem?_erase_eq acc.2 e.1 k
  | put value => exact getElem?_insert_eq acc.2 e.1 k value

/-- Entries with other keys leave an entry alone. -/
theorem getElem?_foldl_of_notMem {l : List (κ × ν)} {k : κ} (h : k ∉ l.map Prod.fst)
    (acc : σ × ExtTreeMap κ ν cmp) : (l.foldl (visitEntry visit) acc).2[k]? = acc.2[k]? := by
  induction l generalizing acc with
  | nil => rfl
  | cons e rest ih =>
      rw [List.map_cons, List.mem_cons, not_or] at h
      rw [List.foldl_cons, ih h.2, getElem?_visitEntry, if_neg (Ne.symm h.1)]

/-- A pass makes no entries. -/
theorem getElem?_sweep_none {start : σ} {m : ExtTreeMap κ ν cmp} {k : κ} (h : m[k]? = none) :
    (sweep visit start m).2[k]? = none := by
  have hnot : k ∉ m.toList.map Prod.fst := by
    intro hmem
    obtain ⟨e, he, rfl⟩ := List.mem_map.mp hmem
    rw [mem_toList_iff.mp he] at h
    cases h
  unfold sweep
  rw [getElem?_foldl_of_notMem hnot]
  exact h

/-- **WHAT BECOMES OF AN ENTRY**: its edit, with what the entries before it carry. -/
theorem getElem?_sweep {start : σ} {m : ExtTreeMap κ ν cmp} {pre post : List (κ × ν)} {k : κ} {v : ν}
    (h : m.toList = pre ++ (k, v) :: post) :
    (sweep visit start m).2[k]? = (visit (carry visit start pre) k v).2.apply v := by
  have hnodup : ((pre ++ (k, v) :: post).map Prod.fst).Nodup := by
    rw [← h, ExtTreeMap.map_fst_toList_eq_keys]
    exact ExtTreeMap.nodup_keys
  rw [List.map_append, List.map_cons, List.nodup_middle, List.nodup_cons, List.mem_append,
    not_or] at hnodup
  have hv : m[k]? = some v := mem_toList_iff.mp (by
    rw [h]
    exact List.mem_append_right _ List.mem_cons_self)
  unfold sweep
  rw [h, List.foldl_append, List.foldl_cons, getElem?_foldl_of_notMem hnodup.1.2,
    getElem?_visitEntry, if_pos rfl, fst_foldl, getElem?_foldl_of_notMem hnodup.1.1]
  dsimp only
  cases (visit (carry visit start pre) k v).2 with
  | keep => exact hv
  | delete => rfl
  | put value => rfl

/-- An entry whose edit does not depend on what is carried. -/
theorem getElem?_sweep_of_const {start : σ} {m : ExtTreeMap κ ν cmp} {k : κ} {v : ν} {edit : Edit ν}
    (hv : m[k]? = some v) (h : ∀ s, (visit s k v).2 = edit) :
    (sweep visit start m).2[k]? = edit.apply v := by
  obtain ⟨pre, post, hsplit⟩ := List.append_of_mem (mem_toList_iff.mpr hv : (k, v) ∈ m.toList)
  rw [getElem?_sweep hsplit, h]

omit [LawfulEqCmp cmp] [TransCmp cmp] [DecidableEq κ] in
/-- A visit that counts some of the entries carries their number. -/
theorem carry_count {visit : Nat → κ → ν → Nat × Edit ν} {p : κ × ν → Bool}
    (h : ∀ n k v, (visit n k v).1 = if p (k, v) then n + 1 else n) (l : List (κ × ν)) (n : Nat) :
    carry visit n l = n + l.countP p := by
  induction l generalizing n with
  | nil => rfl
  | cons e rest ih =>
      have hstep : carry visit n (e :: rest) = carry visit (visit n e.1 e.2).1 rest := rfl
      rw [hstep, ih, h, List.countP_cons]
      split
      · omega
      · rfl

/-- Writing values is writing entries and mapping them. -/
theorem map_foldl_insert {ρ : Type} (key : ρ → κ) (f : κ → ρ → ν) (l : List ρ)
    (m : ExtTreeMap κ ρ cmp) :
    (l.foldl (fun m r => m.insert (key r) r) m).map f =
      l.foldl (fun db r => db.insert (key r) (f (key r) r)) (m.map f) := by
  induction l generalizing m with
  | nil => rfl
  | cons r rest ih =>
      have hinsert : (m.insert (key r) r).map f = (m.map f).insert (key r) (f (key r) r) := by
        apply ExtTreeMap.ext_getElem?
        intro k
        rw [ExtTreeMap.getElem?_map, getElem?_insert_eq, getElem?_insert_eq,
          ExtTreeMap.getElem?_map]
        by_cases hk : key r = k
        · rw [if_pos hk, if_pos hk, Option.map_some, hk]
        · rw [if_neg hk, if_neg hk]
      rw [List.foldl_cons, List.foldl_cons, ih, hinsert]

/-- Entries with different keys, written one after the other. -/
theorem getElem?_foldl_insert {l : List (κ × ν)} (h : (l.map Prod.fst).Nodup) (m : ExtTreeMap κ ν cmp)
    (k : κ) : (l.foldl (fun m e => m.insert e.1 e.2) m)[k]? =
      ((l.find? fun e => decide (e.1 = k)).map Prod.snd).or m[k]? := by
  induction l generalizing m with
  | nil => rfl
  | cons e rest ih =>
      rw [List.map_cons, List.nodup_cons] at h
      rw [List.foldl_cons, ih h.2, getElem?_insert_eq]
      by_cases hk : e.1 = k
      · have hnone : rest.find? (fun e' => decide (e'.1 = k)) = none := by
          refine List.find?_eq_none.mpr fun e' he' heq => h.1 ?_
          rw [hk, ← of_decide_eq_true heq]
          exact List.mem_map_of_mem he'
        rw [if_pos hk, hnone, List.find?_cons, decide_eq_true hk]
        rfl
      · rw [if_neg hk, List.find?_cons, decide_eq_false hk]

/-- Writing all entries of a map makes it again. -/
theorem foldl_insert_toList (m : ExtTreeMap κ ν cmp) :
    m.toList.foldl (fun m e => m.insert e.1 e.2) ∅ = m := by
  have hnodup : (m.toList.map Prod.fst).Nodup := by
    rw [ExtTreeMap.map_fst_toList_eq_keys]
    exact ExtTreeMap.nodup_keys
  apply ExtTreeMap.ext_getElem?
  intro k
  rw [getElem?_foldl_insert hnodup, ExtTreeMap.getElem?_empty, Option.or_none]
  cases hfind : m.toList.find? fun e => decide (e.1 = k) with
  | none =>
      cases hk : m[k]? with
      | none => rfl
      | some v =>
          have hmem : (k, v) ∈ m.toList := mem_toList_iff.mpr hk
          exact absurd (decide_eq_true rfl) (List.find?_eq_none.mp hfind (k, v) hmem)
  | some e =>
      have hmem := mem_toList_iff.mp (List.mem_of_find?_eq_some hfind)
      have hkey : e.1 = k := by simpa using List.find?_some hfind
      rw [hkey] at hmem
      exact hmem.symm

end Sweep
