import Mathlib

/-! # Serving in order

    An amount is handed out along a list: each element gets what it claims, at most what
    is left, and the walk stops at the first that gets nothing. If the claims together
    cover the amount, exactly the amount is handed out, to the first elements of the list.
    The elements themselves often come from a set that was filled in some arbitrary order;
    the second part says that the order does not matter. -/

namespace Serve

open Std

/-! ## Handing out -/

section Serve

variable {α : Type} {claim : α → Int}

/-- What the elements of a list get of an amount. -/
def serve (claim : α → Int) : Int → List α → List (Int × α)
  | _, [] => []
  | amount, x :: rest =>
      if 0 < min amount (claim x) then
        (min amount (claim x), x) :: serve claim (amount - min amount (claim x)) rest
      else []

/-- The sum of what was handed out. -/
def given (l : List (Int × α)) : Int := (l.map Prod.fst).sum

theorem given_nil : given ([] : List (Int × α)) = 0 := rfl

theorem given_cons (e : Int × α) (l : List (Int × α)) : given (e :: l) = e.1 + given l := by
  unfold given
  rw [List.map_cons, List.sum_cons]

/-- The first elements of the list are served. -/
theorem served_first (claim : α → Int) (amount : Int) (l : List α) :
    (serve claim amount l).map Prod.snd <+: l := by
  induction l generalizing amount with
  | nil => exact List.prefix_refl []
  | cons x rest ih =>
      unfold serve
      split
      · rw [List.map_cons]
        exact (List.prefix_cons_inj x).mpr (ih _)
      · exact ⟨x :: rest, rfl⟩

/-- Whoever is served gets something, and no more than claimed. -/
theorem serve_bounds {amount : Int} {l : List α} {e : Int × α} (he : e ∈ serve claim amount l) :
    0 < e.1 ∧ e.1 ≤ claim e.2 := by
  induction l generalizing amount with
  | nil => cases he
  | cons x rest ih =>
      unfold serve at he
      split at he
      · next hpos =>
          rcases List.mem_cons.mp he with rfl | he
          · exact ⟨hpos, min_le_right _ _⟩
          · exact ih he
      · cases he

/-- **THE WHOLE AMOUNT** is handed out, if the claims cover it. -/
theorem given_serve {amount : Int} {l : List α} (h0 : 0 ≤ amount) (hclaim : ∀ x ∈ l, 0 < claim x)
    (hcover : amount ≤ (l.map claim).sum) : given (serve claim amount l) = amount := by
  induction l generalizing amount with
  | nil =>
      have hzero : amount ≤ 0 := hcover
      show 0 = amount
      omega
  | cons x rest ih =>
      rw [List.map_cons, List.sum_cons] at hcover
      have hx := hclaim x List.mem_cons_self
      have hrest : 0 ≤ (rest.map claim).sum := by
        refine List.sum_nonneg fun y hy => ?_
        obtain ⟨z, hz, rfl⟩ := List.mem_map.mp hy
        exact (hclaim z (List.mem_cons_of_mem x hz)).le
      unfold serve
      split
      · rw [given_cons, ih (by omega) (fun y hy => hclaim y (List.mem_cons_of_mem x hy)) (by omega)]
        omega
      · -- the walk stops only if nothing is left
        rw [given_nil]
        omega

/-- Each gets what is claimed, at most what those before have left. -/
theorem serve_exact {amount : Int} {l : List α} {front back : List (Int × α)} {e : Int × α}
    (h : serve claim amount l = front ++ e :: back) :
    e.1 = min (amount - given front) (claim e.2) := by
  induction l generalizing amount front with
  | nil =>
      unfold serve at h
      cases front <;> cases h
  | cons x rest ih =>
      unfold serve at h
      split at h
      · cases front with
        | nil =>
            cases h
            rw [given_nil, sub_zero]
        | cons first front =>
            rw [List.cons_append, List.cons.injEq] at h
            obtain ⟨rfl, h⟩ := h
            rw [ih h, given_cons]
            dsimp only
            rw [sub_sub]
      · cases front <;> cases h

end Serve

/-! ## Sets that were filled in some order -/

section KeySet

variable {κ : Type} {cmp : κ → κ → Ordering} [TransCmp cmp] [LawfulEqCmp cmp]

/-- All keys of a list, put into a set. -/
def insertAll (l : List κ) (m : ExtTreeMap κ Unit cmp) : ExtTreeMap κ Unit cmp :=
  l.foldl (fun m k => m.insert k ()) m

theorem mem_insertAll {l : List κ} {m : ExtTreeMap κ Unit cmp} {k : κ} :
    k ∈ insertAll l m ↔ k ∈ l ∨ k ∈ m := by
  induction l generalizing m with
  | nil => simp [insertAll]
  | cons x rest ih =>
      have hstep : insertAll (x :: rest) m = insertAll rest (m.insert x ()) := rfl
      have heq : cmp x k = .eq ↔ k = x := by
        constructor
        · intro h
          exact (LawfulEqCmp.eq_of_compare h).symm
        · rintro rfl
          exact ReflCmp.compare_self
      rw [hstep, ih, ExtTreeMap.mem_insert, heq, List.mem_cons]
      tauto

/-- **THE ORDER** in which the keys come does not matter. -/
theorem insertAll_perm {l l' : List κ} (h : l.Perm l') (m : ExtTreeMap κ Unit cmp) :
    insertAll l m = insertAll l' m := by
  refine ExtTreeMap.ext_mem_unit fun k => ?_
  rw [mem_insertAll, mem_insertAll, h.mem_iff]

/-- The set holds each key of the list once. -/
theorem keys_insertAll_perm {l : List κ} (h : l.Nodup) :
    (insertAll l (∅ : ExtTreeMap κ Unit cmp)).keys.Perm l := by
  rw [List.perm_ext_iff_of_nodup ExtTreeMap.nodup_keys h]
  intro k
  rw [ExtTreeMap.mem_keys, mem_insertAll]
  exact or_iff_left ExtTreeMap.not_mem_empty

end KeySet

end Serve
