import Mathlib

/-! # Halting state programs — a weakest-precondition calculus

    `EStateM ε σ` models code that updates a state `σ` in place and may stop
    with a halt reason `ε`. A halt keeps the state in which it happened, so one
    predicate transformer speaks about both exits: `wp x Q E s` says that
    running `x` from `s` either returns a value in `Q` or halts in `E`. -/

namespace Exec

variable {ε σ α β : Type}

/-- Running `x` from `s` returns in `Q` or halts in `E`. A structure, so that nothing evaluates
    the run when the statement is only passed on. -/
structure wp (x : EStateM ε σ α) (Q : α → σ → Prop) (E : ε → σ → Prop) (s : σ) : Prop where
  outcome : match x s with
    | .ok a s' => Q a s'
    | .error e s' => E e s'

/-! ## Reading a run off its precondition -/

theorem wp_iff {x : EStateM ε σ α} {Q : α → σ → Prop} {E : ε → σ → Prop} {s : σ} :
    wp x Q E s ↔ match x s with
      | .ok a s' => Q a s'
      | .error e s' => E e s' :=
  ⟨fun h => h.outcome, fun h => ⟨h⟩⟩

/-- Runs that are the same from a state. -/
theorem wp_congr {x y : EStateM ε σ α} {Q : α → σ → Prop} {E : ε → σ → Prop} {s : σ}
    (h : x s = y s) : wp x Q E s ↔ wp y Q E s := by
  rw [wp_iff, wp_iff, h]

theorem wp_ok {x : EStateM ε σ α} {Q : α → σ → Prop} {E : ε → σ → Prop} {s s' : σ} {a : α}
    (h : wp x Q E s) (hx : x s = .ok a s') : Q a s' := by
  rw [wp_iff, hx] at h
  exact h

theorem wp_error {x : EStateM ε σ α} {Q : α → σ → Prop} {E : ε → σ → Prop} {s s' : σ} {e : ε}
    (h : wp x Q E s) (hx : x s = .error e s') : E e s' := by
  rw [wp_iff, hx] at h
  exact h

/-- A run that cannot halt returns, and returns in `Q`. -/
theorem wp_returns {x : EStateM ε σ α} {Q : α → σ → Prop} {s : σ}
    (h : wp x Q (fun _ _ => False) s) : ∃ a s', x s = .ok a s' ∧ Q a s' := by
  rw [wp_iff] at h
  cases hx : x s with
  | ok a s' =>
      rw [hx] at h
      exact ⟨a, s', rfl, h⟩
  | error e s' =>
      rw [hx] at h
      exact h.elim

/-- A sequence returns only through both of its parts. -/
theorem bind_ok {x : EStateM ε σ α} {f : α → EStateM ε σ β} {s s' : σ} {b : β}
    (h : (x >>= f) s = .ok b s') : ∃ a t, x s = .ok a t ∧ f a t = .ok b s' := by
  simp only [bind, EStateM.bind] at h
  cases hx : x s with
  | ok a t =>
      rw [hx] at h
      exact ⟨a, t, rfl, h⟩
  | error e t =>
      rw [hx] at h
      cases h

/-- The state in which a run ends, by whichever exit. -/
def after (x : EStateM ε σ α) (s : σ) : σ :=
  match x s with
  | .ok _ s' => s'
  | .error _ s' => s'

/-- The state in which a run returns, if it does. -/
def returned (x : EStateM ε σ α) (s : σ) : Option σ :=
  match x s with
  | .ok _ s' => some s'
  | .error _ _ => none

theorem eq_ok_after {x : EStateM ε σ Unit} {s : σ} (h : (returned x s).isSome = true) :
    x s = .ok () (after x s) := by
  unfold returned at h
  unfold after
  cases hx : x s with
  | ok a s' => rfl
  | error e s' =>
      rw [hx] at h
      cases h

/-- A run that is seen to return in a state of a kind. -/
theorem exists_ok_of_returned {x : EStateM ε σ Unit} {P : σ → Prop} [DecidablePred P] {s : σ}
    (h : (returned x s).map (fun s' => decide (P s')) = some true) :
    ∃ s', x s = .ok () s' ∧ P s' := by
  obtain ⟨s', hs', hP⟩ := Option.map_eq_some_iff.mp h
  refine ⟨s', ?_, of_decide_eq_true hP⟩
  unfold returned at hs'
  cases hx : x s with
  | ok a t =>
      rw [hx] at hs'
      rw [Option.some.inj hs']
  | error e t =>
      rw [hx] at hs'
      cases hs'

/-- The value with which a run returns, if it does. -/
def value (x : EStateM ε σ α) (s : σ) : Option α :=
  match x s with
  | .ok a _ => some a
  | .error _ _ => none

theorem eq_ok_of_value {x : EStateM ε σ α} {s : σ} {a : α} (h : value x s = some a) :
    x s = .ok a (after x s) := by
  unfold value at h
  unfold after
  cases hx : x s with
  | ok b s' =>
      rw [hx] at h
      rw [Option.some.inj h]
  | error e s' =>
      rw [hx] at h
      cases h

/-- A run that cannot halt ends in `Q`. -/
theorem wp_after {x : EStateM ε σ Unit} {Q : σ → Prop} {s : σ}
    (h : wp x (fun _ s' => Q s') (fun _ _ => False) s) : x s = .ok () (after x s) ∧ Q (after x s) := by
  obtain ⟨_, s', hx, hQ⟩ := wp_returns h
  have hafter : after x s = s' := by
    unfold after
    rw [hx]
  rw [hafter]
  exact ⟨hx, hQ⟩

/-- A run that leaves the state as it is at both exits. -/
theorem after_eq {x : EStateM ε σ α} {s : σ}
    (h : wp x (fun _ s' => s' = s) (fun _ s' => s' = s) s) : after x s = s := by
  rw [wp_iff] at h
  unfold after
  cases hx : x s with
  | ok a s' =>
      rw [hx] at h
      exact h
  | error e s' =>
      rw [hx] at h
      exact h

/-! ## Rules for the program constructs -/

@[simp] theorem wp_pure (a : α) (Q : α → σ → Prop) (E : ε → σ → Prop) (s : σ) :
    wp (pure a : EStateM ε σ α) Q E s ↔ Q a s := wp_iff

@[simp] theorem wp_bind (x : EStateM ε σ α) (f : α → EStateM ε σ β) (Q : β → σ → Prop)
    (E : ε → σ → Prop) (s : σ) :
    wp (x >>= f) Q E s ↔ wp x (fun a s' => wp (f a) Q E s') E s := by
  rw [wp_iff, wp_iff]
  simp only [bind, EStateM.bind]
  cases x s with
  | ok a s' => exact wp_iff.symm
  | error e s' => rfl

@[simp] theorem wp_map (x : EStateM ε σ α) (f : α → β) (Q : β → σ → Prop)
    (E : ε → σ → Prop) (s : σ) :
    wp (f <$> x) Q E s ↔ wp x (fun a s' => Q (f a) s') E s := by
  rw [wp_iff, wp_iff]
  simp only [Functor.map, EStateM.map]
  cases x s with
  | ok a s' => rfl
  | error e s' => rfl

@[simp] theorem wp_get (Q : σ → σ → Prop) (E : ε → σ → Prop) (s : σ) :
    wp (get : EStateM ε σ σ) Q E s ↔ Q s s := wp_iff

@[simp] theorem wp_set (t : σ) (Q : PUnit → σ → Prop) (E : ε → σ → Prop) (s : σ) :
    wp (set t : EStateM ε σ PUnit) Q E s ↔ Q ⟨⟩ t := wp_iff

@[simp] theorem wp_modify (f : σ → σ) (Q : PUnit → σ → Prop) (E : ε → σ → Prop) (s : σ) :
    wp (modify f : EStateM ε σ PUnit) Q E s ↔ Q ⟨⟩ (f s) := wp_iff

@[simp] theorem wp_modifyGet (f : σ → α × σ) (Q : α → σ → Prop) (E : ε → σ → Prop) (s : σ) :
    wp (modifyGet f : EStateM ε σ α) Q E s ↔ Q (f s).1 (f s).2 := wp_iff

@[simp] theorem wp_throw (e : ε) (Q : α → σ → Prop) (E : ε → σ → Prop) (s : σ) :
    wp (throw e : EStateM ε σ α) Q E s ↔ E e s := wp_iff

@[simp] theorem wp_ite (c : Prop) [Decidable c] (x y : EStateM ε σ α) (Q : α → σ → Prop)
    (E : ε → σ → Prop) (s : σ) :
    wp (if c then x else y) Q E s ↔ (c → wp x Q E s) ∧ (¬c → wp y Q E s) := by
  by_cases h : c
  · simp [h]
  · simp [h]

/-! ## Computations without a state -/

@[simp] theorem ok_bind (a : α) (f : α → Except ε β) : ((.ok a : Except ε α) >>= f) = f a := rfl

@[simp] theorem pure_eq_ok (a : α) : (pure a : Except ε α) = .ok a := rfl

@[simp] theorem map_ok (a : α) (f : α → β) : (f <$> (.ok a : Except ε α)) = .ok (f a) := rfl

/-! ## Running on a part of a larger state -/

section Zoom

variable {τ : Type}

/-- Runs a program on one component of a larger state. -/
def zoom (proj : τ → σ) (put : τ → σ → τ) (x : EStateM ε σ α) : EStateM ε τ α := fun t =>
  match x (proj t) with
  | .ok a s => .ok a (put t s)
  | .error e s => .error e (put t s)

@[simp] theorem wp_zoom (proj : τ → σ) (put : τ → σ → τ) (x : EStateM ε σ α)
    (Q : α → τ → Prop) (E : ε → τ → Prop) (t : τ) :
    wp (zoom proj put x) Q E t ↔
      wp x (fun a s => Q a (put t s)) (fun e s => E e (put t s)) (proj t) := by
  rw [wp_iff, wp_iff]
  unfold zoom
  cases x (proj t) with
  | ok a s => rfl
  | error e s => rfl

end Zoom

/-! ## Weakening -/

theorem wp_mono {x : EStateM ε σ α} {Q Q' : α → σ → Prop} {E E' : ε → σ → Prop} {s : σ}
    (h : wp x Q E s) (hQ : ∀ a s', Q a s' → Q' a s') (hE : ∀ e s', E e s' → E' e s') :
    wp x Q' E' s := by
  rw [wp_iff] at h ⊢
  cases hx : x s with
  | ok a s' =>
      rw [hx] at h
      exact hQ a s' h
  | error e s' =>
      rw [hx] at h
      exact hE e s' h

/-- Weakening of the return predicate only. -/
theorem wp_imp {x : EStateM ε σ α} {Q Q' : α → σ → Prop} {E : ε → σ → Prop} {s : σ}
    (h : wp x Q E s) (hQ : ∀ a s', Q a s' → Q' a s') : wp x Q' E s :=
  wp_mono h hQ (fun _ _ he => he)

theorem wp_and {x : EStateM ε σ α} {Q Q' : α → σ → Prop} {E E' : ε → σ → Prop} {s : σ}
    (h : wp x Q E s) (h' : wp x Q' E' s) :
    wp x (fun a s' => Q a s' ∧ Q' a s') (fun e s' => E e s' ∧ E' e s') s := by
  rw [wp_iff] at h h' ⊢
  cases hx : x s with
  | ok a s' =>
      rw [hx] at h h'
      exact ⟨h, h'⟩
  | error e s' =>
      rw [hx] at h h'
      exact ⟨h, h'⟩

/-- A predicate on results that every run meets, when no halt is excluded. -/
theorem wp_all {x : EStateM ε σ α} {Q : α → σ → Prop} {E : ε → σ → Prop} {s : σ}
    (hQ : ∀ a s', Q a s') (hE : ∀ e s', E e s') : wp x Q E s := by
  rw [wp_iff]
  cases x s with
  | ok a s' => exact hQ a s'
  | error e s' => exact hE e s'

/-- If at both exits of a run the wanted predicate amounts to one and the same condition, the run
    meets it exactly under that condition. -/
theorem wp_iff_of_exits {x : EStateM ε σ α} {Q : α → σ → Prop} {E : ε → σ → Prop} {s : σ} {c : Prop}
    (h : wp x (fun a s' => Q a s' ↔ c) (fun e s' => E e s' ↔ c) s) : wp x Q E s ↔ c := by
  rw [wp_iff] at h ⊢
  cases hx : x s with
  | ok a s' =>
      rw [hx] at h
      exact h
  | error e s' =>
      rw [hx] at h
      exact h

/-- The strongest postcondition: what the run does. -/
theorem wp_self (x : EStateM ε σ α) (s : σ) :
    wp x (fun a s' => x s = .ok a s') (fun e s' => x s = .error e s') s := by
  rw [wp_iff]
  cases x s with
  | ok a s' => rfl
  | error e s' => rfl

/-! ## Loops -/

theorem wp_forM_nil (f : α → EStateM ε σ PUnit) (Q : PUnit → σ → Prop) (E : ε → σ → Prop) (s : σ) :
    wp (([] : List α).forM f) Q E s ↔ Q ⟨⟩ s := wp_pure _ _ _ _

theorem wp_forM_cons (a : α) (l : List α) (f : α → EStateM ε σ PUnit) (Q : PUnit → σ → Prop)
    (E : ε → σ → Prop) (s : σ) :
    wp ((a :: l).forM f) Q E s ↔ wp (f a) (fun _ s' => wp (l.forM f) Q E s') E s :=
  wp_bind (f a) (fun _ => l.forM f) Q E s

theorem wp_forM_append (l l' : List α) (f : α → EStateM ε σ PUnit) (Q : PUnit → σ → Prop)
    (E : ε → σ → Prop) (s : σ) :
    wp ((l ++ l').forM f) Q E s ↔ wp (l.forM f) (fun _ s' => wp (l'.forM f) Q E s') E s := by
  induction l generalizing s with
  | nil => exact (wp_forM_nil f (fun _ s' => wp (l'.forM f) Q E s') E s).symm
  | cons a rest ih =>
      rw [List.cons_append, wp_forM_cons, wp_forM_cons]
      constructor
      · intro h
        exact wp_imp h fun _ s' h' => (ih s').mp h'
      · intro h
        exact wp_imp h fun _ s' h' => (ih s').mpr h'

/-- The invariant rule for a loop over a list: what every iteration keeps, the
    whole loop keeps. The iteration may use that its element is in the list. -/
theorem wp_forM {l : List α} {f : α → EStateM ε σ PUnit} {I : σ → Prop} {E : ε → σ → Prop}
    (hf : ∀ a ∈ l, ∀ s, I s → wp (f a) (fun _ s' => I s') E s) {s : σ} (hs : I s) :
    wp (l.forM f) (fun _ s' => I s') E s := by
  induction l generalizing s with
  | nil => exact (wp_pure _ _ _ _).mpr hs
  | cons a rest ih =>
      show wp (f a >>= fun _ => rest.forM f) (fun _ s' => I s') E s
      rw [wp_bind]
      refine wp_imp (hf a (by simp) s hs) ?_
      intro _ s' hs'
      exact ih (fun b hb => hf b (by simp [hb])) hs'

/-- The invariant rule for an accumulating loop. -/
theorem wp_foldlM {l : List α} {f : β → α → EStateM ε σ β} {I : β → σ → Prop}
    {E : ε → σ → Prop} (hf : ∀ a ∈ l, ∀ b s, I b s → wp (f b a) I E s) {b : β} {s : σ}
    (hs : I b s) : wp (l.foldlM f b) I E s := by
  induction l generalizing b s with
  | nil => exact (wp_pure _ _ _ _).mpr hs
  | cons a rest ih =>
      rw [List.foldlM_cons, wp_bind]
      refine wp_imp (hf a (by simp) b s hs) ?_
      intro b' s' hs'
      exact ih (fun c hc => hf c (by simp [hc])) hs'

/-- A loop none of whose iterations would change anything. -/
theorem foldlM_stays {l : List α} {f : β → α → EStateM ε σ β} {b : β} {s : σ}
    (hf : ∀ a ∈ l, f b a s = .ok b s) : l.foldlM f b s = .ok b s := by
  induction l with
  | nil => rfl
  | cons a rest ih =>
      rw [List.foldlM_cons]
      simp only [bind, EStateM.bind]
      rw [hf a List.mem_cons_self]
      exact ih fun c hc => hf c (List.mem_cons_of_mem a hc)

/-! ## Frames -/

/-- However a run ends, it leaves a view of the state as it is. -/
structure Keeps {τ : Type} (view : σ → τ) (x : EStateM ε σ α) : Prop where
  run : ∀ s, wp x (fun _ s' => view s' = view s) (fun _ s' => view s' = view s) s

section Keeps

variable {τ : Type} {view : σ → τ}

theorem Keeps.wp {x : EStateM ε σ α} (h : Keeps view x) {v : τ} {s : σ} (hs : view s = v) :
    wp x (fun _ s' => view s' = v) (fun _ s' => view s' = v) s := by
  rw [← hs]
  exact h.run s

theorem Keeps.pure (a : α) : Keeps view (pure a : EStateM ε σ α) :=
  ⟨fun s => (wp_pure a _ _ s).mpr rfl⟩

theorem Keeps.throw (e : ε) : Keeps view (throw e : EStateM ε σ α) :=
  ⟨fun s => (wp_throw e _ _ s).mpr rfl⟩

theorem Keeps.get : Keeps view (get : EStateM ε σ σ) :=
  ⟨fun s => (wp_get _ _ s).mpr rfl⟩

theorem Keeps.modify {f : σ → σ} (hf : ∀ s, view (f s) = view s) :
    Keeps view (modify f : EStateM ε σ PUnit) :=
  ⟨fun s => (wp_modify f _ _ s).mpr (hf s)⟩

theorem Keeps.bind {x : EStateM ε σ α} {f : α → EStateM ε σ β} (hx : Keeps view x)
    (hf : ∀ a, Keeps view (f a)) : Keeps view (x >>= f) := by
  refine ⟨fun s => (wp_bind x f _ _ s).mpr ?_⟩
  exact wp_imp (hx.run s) fun a s' hs' => (hf a).wp hs'

theorem Keeps.ite {c : Prop} [Decidable c] {x y : EStateM ε σ α} (hx : Keeps view x)
    (hy : Keeps view y) : Keeps view (if c then x else y) :=
  ⟨fun s => (wp_ite c x y _ _ s).mpr ⟨fun _ => hx.run s, fun _ => hy.run s⟩⟩

theorem Keeps.forM {l : List α} {f : α → EStateM ε σ PUnit} (hf : ∀ a, Keeps view (f a)) :
    Keeps view (l.forM f) :=
  ⟨fun s => wp_forM (I := fun s' => view s' = view s) (fun a _ _ hs' => (hf a).wp hs') rfl⟩

theorem Keeps.foldlM {l : List α} {f : β → α → EStateM ε σ β} (hf : ∀ b a, Keeps view (f b a))
    (b : β) : Keeps view (l.foldlM f b) :=
  ⟨fun s => wp_foldlM (I := fun _ s' => view s' = view s) (fun a _ b _ hs' => (hf b a).wp hs') rfl⟩

/-- A first part that changes nothing, whatever it returns. -/
theorem Keeps.wp_bind {x : EStateM ε σ α} {f : α → EStateM ε σ β} {Q : β → σ → Prop}
    {E : ε → σ → Prop} {s : σ} (hx : Keeps (fun s => s) x) (hE : ∀ e, E e s)
    (hf : ∀ a, Exec.wp (f a) Q E s) : Exec.wp (x >>= f) Q E s := by
  refine (Exec.wp_bind x f Q E s).mpr (wp_mono (hx.run s) (fun a s' hs' => ?_) fun e s' hs' => ?_)
  · rw [show s' = s from hs']
    exact hf a
  · rw [show s' = s from hs']
    exact hE e

end Keeps

/-! ## Watching a loop -/

/-- The configurations an accumulating loop goes through: each element with the accumulator and the
    state it is processed in. The last one may be the one that halts. -/
def visits (f : β → α → EStateM ε σ β) : List α → β → σ → List (α × β × σ)
  | [], _, _ => []
  | a :: rest, b, s => (a, b, s) ::
      match f b a s with
      | .ok b' s' => visits f rest b' s'
      | .error _ _ => []

/-- The invariant rule for a loop whose invariant speaks about the elements that are done, and about
    the configurations they were processed in. -/
theorem wp_foldlM_visits {l : List α} {f : β → α → EStateM ε σ β}
    {J : List α → List (α × β × σ) → β → σ → Prop} {E : ε → σ → Prop}
    (hf : ∀ done a rest, l = done ++ a :: rest → ∀ vs b s, J done vs b s →
      wp (f b a) (J (done ++ [a]) (vs ++ [(a, b, s)])) E s) {b : β} {s : σ} (hs : J [] [] b s) :
    wp (l.foldlM f b) (J l (visits f l b s)) E s := by
  have hsuffix : ∀ rest done vs b s, l = done ++ rest → J done vs b s →
      wp (rest.foldlM f b) (J l (vs ++ visits f rest b s)) E s := by
    intro rest
    induction rest with
    | nil =>
        intro done vs b s hl hJ
        rw [List.append_nil] at hl
        subst hl
        rw [visits, List.append_nil]
        exact (wp_pure _ _ _ _).mpr hJ
    | cons a rest ih =>
        intro done vs b s hl hJ
        rw [List.foldlM_cons, wp_bind]
        refine wp_mono (wp_and (hf done a rest hl vs b s hJ) (wp_self (f b a) s))
          (fun b' s' h => ?_) fun _ _ h => h.1
        obtain ⟨hJ', hrun⟩ := h
        have hvisits : visits f (a :: rest) b s = [(a, b, s)] ++ visits f rest b' s' := by
          rw [visits, hrun]
          rfl
        rw [hvisits, ← List.append_assoc]
        exact ih (done ++ [a]) _ b' s' (by rw [hl, List.append_assoc, List.singleton_append]) hJ'
  exact hsuffix l [] [] b s rfl hs

/-- What every iteration keeps holds in every configuration of the loop. -/
theorem forall_visits {l : List α} {f : β → α → EStateM ε σ β} {I : β → σ → Prop}
    (hf : ∀ a ∈ l, ∀ b s, I b s → wp (f b a) I (fun _ _ => True) s) {b : β} {s : σ} (hs : I b s) :
    ∀ v ∈ visits f l b s, v.1 ∈ l ∧ I v.2.1 v.2.2 := by
  induction l generalizing b s with
  | nil =>
      intro v hv
      cases hv
  | cons a rest ih =>
      intro v hv
      rw [visits, List.mem_cons] at hv
      rcases hv with rfl | hv
      · exact ⟨List.mem_cons_self, hs⟩
      · have hstep := hf a List.mem_cons_self b s hs
        cases hrun : f b a s with
        | error e s' =>
            rw [hrun] at hv
            cases hv
        | ok b' s' =>
            rw [hrun] at hv
            have hrest := ih (fun c hc => hf c (List.mem_cons_of_mem a hc)) (wp_ok hstep hrun) v hv
            exact ⟨List.mem_cons_of_mem a hrest.1, hrest.2⟩

end Exec
