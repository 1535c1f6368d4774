import OmniCore.Lib.Exec

/-! # Counting programs — triples with a quantity that adds up

    A program may be specified by what it adds to a quantity of the state: tokens, bytes,
    pending messages. `Counts I E d R x` says that from every state in which the quantity
    is `t`, in the sense of `I`, the program `x` returns a value in `R` and leaves `t + d`,
    or halts in `E`. Sequences add their shifts, branches agree on one, and a loop whose
    iterations shift nothing shifts nothing. -/

namespace Exec

variable {ε σ α β M : Type} [AddCommMonoid M]

/-- From a state that counts `t` the program returns in `R` with `t + d`, or halts in `E`. -/
structure Counts (I : M → σ → Prop) (E : ε → Prop) (d : M) (R : α → Prop) (x : EStateM ε σ α) :
    Prop where
  run : ∀ {t s}, I t s → wp x (fun a s' => R a ∧ I (t + d) s') (fun e _ => E e) s

namespace Counts

variable {I : M → σ → Prop} {E : ε → Prop} {d d' : M} {R R' : α → Prop}

/-! ## Single steps -/

theorem of_eq {x : EStateM ε σ α} (h : Counts I E d R x) (hd : d = d') : Counts I E d' R x :=
  hd ▸ h

/-- Forgetting what is known of the value. -/
theorem imp {x : EStateM ε σ α} (h : Counts I E d R x) (hR : ∀ a, R a → R' a) :
    Counts I E d R' x :=
  ⟨fun hs => wp_imp (h.run hs) fun a _ ha => ⟨hR a ha.1, ha.2⟩⟩

theorem pure {a : α} (ha : R a) : Counts I E 0 R (Pure.pure a : EStateM ε σ α) := by
  refine ⟨fun {t s} hs => (wp_pure a _ _ s).mpr ⟨ha, ?_⟩⟩
  rwa [add_zero]

theorem throw {e : ε} (he : E e) : Counts I E d R (throw e : EStateM ε σ α) :=
  ⟨fun {_ s} _ => (wp_throw e _ _ s).mpr he⟩

theorem modify {f : σ → σ} {R : PUnit → Prop} (hR : R ⟨⟩) (hf : ∀ t s, I t s → I (t + d) (f s)) :
    Counts I E d R (modify f : EStateM ε σ PUnit) :=
  ⟨fun {t s} hs => (wp_modify f _ _ s).mpr ⟨hR, hf t s hs⟩⟩

/-- Reading the state; what follows may use all that a counted state guarantees. -/
theorem get {f : σ → EStateM ε σ α} (hf : ∀ t s, I t s → Counts I E d R (f s)) :
    Counts I E d R (MonadState.get >>= f) := by
  refine ⟨fun {t s} hs => (wp_bind _ f _ _ s).mpr ?_⟩
  exact (wp_get _ _ s).mpr ((hf t s hs).run hs)

/-! ## Composition -/

/-- The shifts of a sequence add up. -/
theorem bind {x : EStateM ε σ α} {f : α → EStateM ε σ β} {R' : β → Prop}
    (hx : Counts I E d R x) (hf : ∀ a, R a → Counts I E d' R' (f a)) :
    Counts I E (d + d') R' (x >>= f) := by
  refine ⟨fun {t s} hs => (wp_bind x f _ _ s).mpr (wp_imp (hx.run hs) fun a s' ha => ?_)⟩
  rw [← add_assoc]
  exact (hf a ha.1).run ha.2

/-- A first part that shifts nothing. -/
theorem seq {x : EStateM ε σ α} {f : α → EStateM ε σ β} {R' : β → Prop}
    (hx : Counts I E 0 R x) (hf : ∀ a, R a → Counts I E d R' (f a)) :
    Counts I E d R' (x >>= f) :=
  (hx.bind hf).of_eq (zero_add d)

theorem ite {c : Prop} [Decidable c] {x y : EStateM ε σ α} (hx : c → Counts I E d R x)
    (hy : ¬ c → Counts I E d R y) : Counts I E d R (if c then x else y) :=
  ⟨fun {_ s} hs => (wp_ite c x y _ _ s).mpr ⟨fun hc => (hx hc).run hs, fun hc => (hy hc).run hs⟩⟩

/-- A branch that computes a value, or has it at hand. -/
theorem join {c : Prop} [Decidable c] {x : EStateM ε σ α} {a : α} {f : α → EStateM ε σ β}
    {R' : β → Prop} (hx : c → Counts I E 0 R x) (ha : ¬ c → R a)
    (hf : ∀ a, R a → Counts I E d R' (f a)) : Counts I E d R' (if c then x >>= f else f a) :=
  Counts.ite (fun hc => (hx hc).seq hf) fun hc => hf a (ha hc)

/-- What changes nothing of a state, shifts nothing. -/
theorem of_keeps {x : EStateM ε σ α} (h : Keeps (fun s => s) x)
    (hE : ∀ s, wp x (fun a _ => R a) (fun e _ => E e) s) : Counts I E 0 R x := by
  refine ⟨fun {t s} hs => wp_mono (wp_and (h.run s) (hE s)) (fun a s' ha => ?_) fun e s' he => he.2⟩
  obtain ⟨hsame, hR⟩ := ha
  rw [show s' = s from hsame, add_zero]
  exact ⟨hR, hs⟩

/-! ## Loops -/

/-- A loop over a list, none of whose iterations shifts anything. -/
theorem forM {l : List α} {f : α → EStateM ε σ PUnit} {R : PUnit → Prop} (hR : R ⟨⟩)
    (hf : ∀ a ∈ l, Counts I E 0 R (f a)) : Counts I E 0 R (l.forM f) := by
  refine ⟨fun {t s} hs => ?_⟩
  refine wp_imp (wp_forM (I := I t) (fun a ha s' hs' => ?_) hs) fun _ s' hs' => ⟨hR, ?_⟩
  · refine wp_imp ((hf a ha).run hs') fun _ s'' h => ?_
    rw [← add_zero t]
    exact h.2
  · rwa [add_zero]

/-- An accumulating loop; the value keeps its predicate. -/
theorem foldlM {l : List α} {f : β → α → EStateM ε σ β} {R : β → Prop}
    (hf : ∀ b, R b → ∀ a ∈ l, Counts I E 0 R (f b a)) {b : β} (hb : R b) :
    Counts I E 0 R (l.foldlM f b) := by
  induction l generalizing b with
  | nil => exact Counts.pure hb
  | cons a rest ih =>
      rw [List.foldlM_cons]
      refine (hf b hb a List.mem_cons_self).seq fun b' hb' => ?_
      exact ih (fun b hb c hc => hf b hb c (List.mem_cons_of_mem a hc)) hb'

end Counts

end Exec
