import OmniCore.Lib.Exec

/-! # Twin — two runs side by side

    Two runs of a program from related states agree if they return the same value, or halt
    for the same reason, in related states. A program that does not see what a map of states
    changes agrees with itself before and after the map. -/

namespace Exec

variable {ε σ α β : Type}

/-- The outcomes agree: the same value or the same halt, in related states. -/
def Agree (R : σ → σ → Prop) : EStateM.Result ε σ α → EStateM.Result ε σ α → Prop
  | .ok a s, .ok a' s' => a = a' ∧ R s s'
  | .error e _, .error e' _ => e = e'
  | _, _ => False

section Agree

variable {R R' : σ → σ → Prop} {s s' t t' : σ}

theorem Agree.of_ok {x y : EStateM.Result ε σ α} {a : α} (hx : x = .ok a t) (hy : y = .ok a t')
    (h : R t t') : Agree R x y := by
  rw [hx, hy]
  exact ⟨rfl, h⟩

/-- **ONE STEP AFTER THE OTHER**. -/
theorem Agree.bind {x y : EStateM ε σ α} {f g : α → EStateM ε σ β} (hx : Agree R (x s) (y s'))
    (hf : ∀ a t t', R t t' → Agree R' (f a t) (g a t')) :
    Agree R' ((x >>= f) s) ((y >>= g) s') := by
  simp only [Bind.bind, EStateM.bind]
  cases hxs : x s with
  | ok a t =>
      cases hys : y s' with
      | ok a' t' =>
          rw [hxs, hys] at hx
          obtain ⟨rfl, hR⟩ := hx
          exact hf a t t' hR
      | error e' t' =>
          rw [hxs, hys] at hx
          exact hx.elim
  | error e t =>
      cases hys : y s' with
      | ok a' t' =>
          rw [hxs, hys] at hx
          exact hx.elim
      | error e' t' =>
          rw [hxs, hys] at hx
          exact hx

theorem Agree.imp {x y : EStateM.Result ε σ α} (h : Agree R x y) (himp : ∀ t t', R t t' → R' t t') :
    Agree R' x y := by
  cases x with
  | ok a t =>
      cases y with
      | ok a' t' => exact ⟨h.1, himp t t' h.2⟩
      | error e' t' => exact h.elim
  | error e t =>
      cases y with
      | ok a' t' => exact h.elim
      | error e' t' => exact h

/-- The values agree. -/
theorem Agree.value_eq {x y : EStateM ε σ α} (h : Agree R (x s) (y s')) :
    value x s = value y s' := by
  unfold value
  cases hxs : x s with
  | ok a t =>
      cases hys : y s' with
      | ok a' t' =>
          rw [hxs, hys] at h
          rw [h.1]
      | error e' t' =>
          rw [hxs, hys] at h
          exact h.elim
  | error e t =>
      cases hys : y s' with
      | ok a' t' =>
          rw [hxs, hys] at h
          exact h.elim
      | error e' t' => rfl

/-- If one run returns, so does the other. -/
theorem Agree.ok_left {x y : EStateM.Result ε σ α} {a : α} (h : Agree R x y) (hy : y = .ok a t') :
    ∃ t, x = .ok a t ∧ R t t' := by
  subst hy
  cases x with
  | ok a' t => exact ⟨t, by rw [h.1], h.2⟩
  | error e t => exact h.elim

end Agree

/-! ## Programs that do not see a part of the state -/

/-- The outcome in the mapped state. -/
def mapState (f : σ → σ) : EStateM.Result ε σ α → EStateM.Result ε σ α
  | .ok a s => .ok a (f s)
  | .error e s => .error e (f s)

/-- The program does not see what `f` changes. -/
structure Blind (f : σ → σ) (x : EStateM ε σ α) : Prop where
  run : ∀ s, x (f s) = mapState f (x s)

namespace Blind

variable {f : σ → σ}

theorem pure (a : α) : Blind f (pure a : EStateM ε σ α) := ⟨fun _ => rfl⟩

theorem throw (e : ε) : Blind f (throw e : EStateM ε σ α) := ⟨fun _ => rfl⟩

theorem modify {g : σ → σ} (hg : ∀ s, g (f s) = f (g s)) :
    Blind f (modify g : EStateM ε σ PUnit) :=
  ⟨fun s => congrArg (EStateM.Result.ok PUnit.unit) (hg s)⟩

theorem bind {x : EStateM ε σ α} {g : α → EStateM ε σ β} (hx : Blind f x) (hg : ∀ a, Blind f (g a)) :
    Blind f (x >>= g) := by
  refine ⟨fun s => ?_⟩
  simp only [Bind.bind, EStateM.bind]
  rw [hx.run s]
  cases x s with
  | ok a t => exact (hg a).run t
  | error e t => rfl

/-- A read of what `f` leaves alone. -/
theorem get_bind {g : σ → EStateM ε σ α} (hread : ∀ s, g (f s) = g s) (hg : ∀ s, Blind f (g s)) :
    Blind f (get >>= g) := by
  refine ⟨fun s => ?_⟩
  show g (f s) (f s) = mapState f (g s s)
  rw [hread]
  exact (hg s).run s

theorem ite {c : Prop} [Decidable c] {x y : EStateM ε σ α} (hx : Blind f x) (hy : Blind f y) :
    Blind f (if c then x else y) := by
  split
  · exact hx
  · exact hy

theorem forM {l : List α} {g : α → EStateM ε σ PUnit} (hg : ∀ a, Blind f (g a)) :
    Blind f (l.forM g) := by
  induction l with
  | nil => exact Blind.pure _
  | cons a rest ih => exact (hg a).bind fun _ => ih

theorem foldlM {l : List α} {g : β → α → EStateM ε σ β} (hg : ∀ b a, Blind f (g b a)) (b : β) :
    Blind f (l.foldlM g b) := by
  induction l generalizing b with
  | nil => exact Blind.pure b
  | cons a rest ih =>
      rw [List.foldlM_cons]
      exact (hg b a).bind ih

end Blind

end Exec
