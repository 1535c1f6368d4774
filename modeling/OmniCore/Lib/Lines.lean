import OmniCore.Lib.Exec
import OmniCore.Lib.MapSum

/-! # Lines — a table that is fed line by line

    A reader takes one line at a time and answers with a number, negative if the line is
    refused. A table that is written as lines, one for each entry, is rebuilt from them if
    every line makes its entry and leaves the others alone. -/

namespace Exec

open Std (ExtTreeMap TransCmp LawfulEqCmp)
open MapSum

variable {ε σ α κ ν ι : Type}

/-- The lines one after the other, up to one that is refused. -/
def feedLines (inputLine : ι → EStateM ε σ Int) : List ι → EStateM ε σ Bool
  | [] => pure true
  | line :: rest => do
      let res ← inputLine line
      if res < 0 then pure false else feedLines inputLine rest

section feedLines

variable {inputLine : ι → EStateM ε σ Int}

theorem feedLines_cons {line : ι} {rest : List ι} {s s' : σ} (h : inputLine line s = .ok 0 s') :
    feedLines inputLine (line :: rest) s = feedLines inputLine rest s' := by
  show (inputLine line >>= fun res => if res < 0 then pure false else feedLines inputLine rest) s = _
  simp only [bind, EStateM.bind]
  rw [h]
  rfl

/-- If all lines are accepted, so is the first. -/
theorem feedLines_cons_true {line : ι} {rest : List ι} {s s' : σ}
    (h : feedLines inputLine (line :: rest) s = .ok true s') :
    ∃ res t, inputLine line s = .ok res t ∧ 0 ≤ res ∧ feedLines inputLine rest t = .ok true s' := by
  obtain ⟨res, t, hline, hrest⟩ := bind_ok h
  by_cases hres : res < 0
  · rw [if_pos hres] at hrest
    cases hrest
  · rw [if_neg hres] at hrest
    exact ⟨res, t, hline, not_lt.mp hres, hrest⟩

/-- **THE RULE OF THE LINES**: what holds of the lines that were read, and is kept by the next one,
    holds of all lines. -/
theorem feedLines_induct {line : α → ι} {l : List α} {P : List α → σ → Prop}
    (hstep : ∀ front e rest, l = front ++ e :: rest → ∀ s, P front s → ∃ s',
      inputLine (line e) s = .ok 0 s' ∧ P (front ++ [e]) s')
    {s : σ} (h : P [] s) : ∃ s', feedLines inputLine (l.map line) s = .ok true s' ∧ P l s' := by
  -- the lines that are left, after those that were read
  have hrest : ∀ rest front s, l = front ++ rest → P front s →
      ∃ s', feedLines inputLine (rest.map line) s = .ok true s' ∧ P l s' := by
    intro rest
    induction rest with
    | nil =>
        intro front s hl hfront
        rw [List.append_nil] at hl
        rw [hl]
        exact ⟨s, rfl, hfront⟩
    | cons e rest ih =>
        intro front s hl hfront
        obtain ⟨s₁, hline, hnext⟩ := hstep front e rest hl s hfront
        obtain ⟨s₂, hfeed, hall⟩ := ih (front ++ [e]) s₁ (by rw [hl, List.append_assoc]; rfl) hnext
        refine ⟨s₂, ?_, hall⟩
        rw [List.map_cons, feedLines_cons hline]
        exact hfeed
  exact hrest l [] s rfl h

/-- **THE TABLE IS REBUILT**: every line makes its entry, and the others are left alone. -/
theorem feedLines_inserts (look : σ → κ → Option ν) (line : α → ι) (key : α → κ) (val : α → ν)
    {l : List α} (hread : ∀ e ∈ l, ∀ s, look s (key e) = none → ∃ s',
      inputLine (line e) s = .ok 0 s' ∧ look s' (key e) = some (val e) ∧
        ∀ k, k ≠ key e → look s' k = look s k)
    (hnodup : (l.map key).Nodup) {s : σ} (habsent : ∀ e ∈ l, look s (key e) = none) :
    ∃ s', feedLines inputLine (l.map line) s = .ok true s' ∧
      (∀ e ∈ l, look s' (key e) = some (val e)) ∧ ∀ k, k ∉ l.map key → look s' k = look s k := by
  induction l generalizing s with
  | nil => exact ⟨s, rfl, fun e he => (List.not_mem_nil he).elim, fun _ _ => rfl⟩
  | cons e rest ih =>
      rw [List.map_cons, List.nodup_cons] at hnodup
      obtain ⟨s₁, hline, hentry, hother⟩ := hread e List.mem_cons_self s (habsent e List.mem_cons_self)
      have hnext : ∀ e' ∈ rest, look s₁ (key e') = none := by
        intro e' he'
        have hne : key e' ≠ key e := fun heq => hnodup.1 (by
          rw [← heq]
          exact List.mem_map_of_mem he')
        rw [hother _ hne]
        exact habsent e' (List.mem_cons_of_mem e he')
      obtain ⟨s₂, hrest, hall, hframe⟩ :=
        ih (fun e' he' => hread e' (List.mem_cons_of_mem e he')) hnodup.2 hnext
      refine ⟨s₂, ?_, fun e' he' => ?_, fun k hk => ?_⟩
      · rw [List.map_cons, feedLines_cons hline]
        exact hrest
      · rcases List.mem_cons.mp he' with rfl | he'
        · rw [hframe _ hnodup.1]
          exact hentry
        · exact hall e' he'
      · rw [List.map_cons, List.mem_cons, not_or] at hk
        rw [hframe k hk.2, hother k hk.1]

/-- **A MAP IS REBUILT** from the lines of its entries. -/
theorem feedLines_rebuilds {μ : Type} {cmp : κ → κ → Ordering} [TransCmp cmp] [LawfulEqCmp cmp]
    {m : ExtTreeMap κ μ cmp} (look : σ → κ → Option ν) (line : κ × μ → ι) (val : μ → ν)
    (hread : ∀ e, m[e.1]? = some e.2 → ∀ s, look s e.1 = none → ∃ s',
      inputLine (line e) s = .ok 0 s' ∧ look s' e.1 = some (val e.2) ∧
        ∀ k, k ≠ e.1 → look s' k = look s k)
    {s : σ} (habsent : ∀ k, look s k = none) :
    ∃ s', feedLines inputLine (m.toList.map line) s = .ok true s' ∧
      ∀ k : κ, look s' k = (m[k]?).map val := by
  have hnodup : (m.toList.map Prod.fst).Nodup := by
    rw [ExtTreeMap.map_fst_toList_eq_keys]
    exact ExtTreeMap.nodup_keys
  obtain ⟨s', hfeed, hall, hframe⟩ := feedLines_inserts look line Prod.fst
    (fun e => val e.2) (fun e he => hread e (mem_toList_iff.mp he)) hnodup
    fun e _ => habsent e.1
  refine ⟨s', hfeed, fun k => ?_⟩
  cases hk : m[k]? with
  | some v => exact hall (k, v) (mem_toList_iff.mpr hk)
  | none =>
      refine (hframe k fun hmem => ?_).trans (habsent k)
      obtain ⟨e, he, rfl⟩ := List.mem_map.mp hmem
      rw [mem_toList_iff.mp he] at hk
      cases hk

/-- The entries of a nested table, under the keys of both levels, are all different. -/
theorem nodup_entries {μ β : Type} {cmp : κ → κ → Ordering} [TransCmp cmp] [LawfulEqCmp cmp]
    {f : μ → List β} (h : ∀ v, (f v).Nodup) (m : ExtTreeMap κ μ cmp) :
    (m.toList.flatMap fun e => (f e.2).map (Prod.mk e.1)).Nodup := by
  rw [List.nodup_flatMap]
  refine ⟨fun e _ => (h e.2).map (Prod.mk_right_injective e.1), ?_⟩
  refine (ExtTreeMap.distinct_keys_toList (t := m)).imp fun {a b} hne x ha hb => ?_
  obtain ⟨u, -, rfl⟩ := List.mem_map.mp ha
  obtain ⟨w, -, heq⟩ := List.mem_map.mp hb
  have hkey : b.1 = a.1 := (Prod.mk.inj heq).1
  refine hne ?_
  rw [hkey]
  exact Std.ReflCmp.compare_self

/-- If every line that is accepted writes under its own key only, all new entries are under keys of
    the lines. -/
theorem feedLines_keys (look : σ → κ → Option ν) (line : α → ι) (key : α → κ) {l : List α}
    (hread : ∀ e ∈ l, ∀ s res s', inputLine (line e) s = .ok res s' → 0 ≤ res →
      ∀ k, k ≠ key e → look s' k = look s k) {s s' : σ}
    (h : feedLines inputLine (l.map line) s = .ok true s') {k : κ} (hk : k ∉ l.map key) :
    look s' k = look s k := by
  induction l generalizing s with
  | nil =>
      cases h
      rfl
  | cons e rest ih =>
      rw [List.map_cons, List.mem_cons, not_or] at hk
      obtain ⟨res, t, hline, hres, hrest⟩ := feedLines_cons_true h
      rw [ih (fun e' he' => hread e' (List.mem_cons_of_mem e he')) hrest hk.2]
      exact hread e List.mem_cons_self s res t hline hres k hk.1

end feedLines

end Exec
