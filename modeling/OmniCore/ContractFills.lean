import OmniCore.ContractBook

/-! # ContractFills — no order is filled twice

    `marginLogic` runs between the settlement of a match and the erasure of the matched
    order, and places orders of its own. The property that no order is filled beyond its
    amount therefore rests on the suspended matches: it holds as long as no match takes
    an order that a suspended one has still to erase, and as long as every match
    reduces the two amounts.

    `Account` is the bookkeeping argument without the code: a set of resting orders, the
    running calls, what was placed and what was filled. The engine is an instance of it. -/

namespace OmniCore

open Std (ExtTreeMap)
open Machine TextRec MapSum Exec

/-! ## Fills, read off the trace -/

/-- The contracts an event fills against the order with an identity. -/
def Event.fill (n : OrderId) : Event → Int
  | .matched pre _ pold pnew =>
      (if pold.ident = n then (parties pre pold pnew).nCouldBuy else 0) +
        if pnew.ident = n then (parties pre pold pnew).nCouldBuy else 0
  | _ => 0

/-- All contracts filled against an order. -/
def filledAgainst (n : OrderId) (trace : List Event) : Int := (trace.map (Event.fill n)).sum

/-- No order is filled twice: when a matched order is erased it is still the order that was read,
    no order is filled beyond the amount it was placed with, and what is matched is in the book. -/
structure NoDoubleFill (trace : List Event) : Prop where
  intact : ∀ o b, Event.erased o b ∈ trace → b = true
  filled : ∀ o, Event.placed o ∈ trace → filledAgainst o.ident trace ≤ max 0 o.amountForsale
  inBook : ∀ pre outer pold pnew, Event.matched pre outer pold pnew ∈ trace → Resting pre pold

/-- A match takes no order that a suspended match holds, and reduces the amounts. -/
def Event.FillsOnce : Event → Prop
  | .matched _ outer pold pnew =>
      (∀ f ∈ outer, ∀ h, f.held = some h → h.1 ≠ pold) ∧ Reduces pold pnew
  | _ => True

instance : DecidablePred Event.FillsOnce := fun e =>
  e.casesOn (motive := fun e => Decidable e.FillsOnce) (fun _ _ => isTrue trivial)
    (fun _ => isTrue trivial) (fun _ _ _ => isTrue trivial)
    (fun _ outer pold pnew => inferInstanceAs (Decidable
      ((∀ f ∈ outer, ∀ h, f.held = some h → h.1 ≠ pold) ∧ Reduces pold pnew)))
    (fun _ _ _ _ => isTrue trivial) fun _ _ => isTrue trivial

/-! ## The bookkeeping argument -/

/-- Order `n` has `a` contracts left of what it was placed with. -/
def Accounted (placed : CMPContractDex → Prop) (filled : OrderId → Int) (n : OrderId) (a : Int) : Prop :=
  ∃ o, placed o ∧ o.ident = n ∧ filled n + a = o.amountForsale

/-- The account after a match of two orders. -/
def filledBoth (filled : OrderId → Int) (pold pnew : CMPContractDex) (n : OrderId) : Int :=
  filled n + ((if pold.ident = n then min pold.amountForsale pnew.amountForsale else 0) +
    if pnew.ident = n then min pold.amountForsale pnew.amountForsale else 0)

/-- An order that is neither of the two keeps its account. -/
theorem Accounted.other {placed : CMPContractDex → Prop} {filled : OrderId → Int}
    {pold pnew : CMPContractDex} {n : OrderId} {a : Int} (h : Accounted placed filled n a)
    (h1 : pold.ident ≠ n) (h2 : pnew.ident ≠ n) :
    Accounted placed (filledBoth filled pold pnew) n a := by
  obtain ⟨x, hx, hs, ha⟩ := h
  refine ⟨x, hx, hs, ?_⟩
  simpa [filledBoth, h1, h2] using ha

/-- Resting orders, running calls and the account of every order. -/
structure Account (rests : CMPContractDex → Prop) (frames : List Frame) (next : PropertyId → Nat)
    (placed : CMPContractDex → Prop) (filled : OrderId → Int) : Prop where
  bound : ∀ o, placed o → filled o.ident ≤ max 0 o.amountForsale
  placedOnce : ∀ o o', placed o → placed o' → o.ident = o'.ident → o = o'
  fresh : ∀ n, next n.1 ≤ n.2 → filled n = 0 ∧ (∀ o, placed o → o.ident ≠ n) ∧
    (∀ o, rests o → o.ident ≠ n) ∧ ∀ f ∈ frames, f.taker.ident ≠ n
  amounts : ∀ o, rests o → 0 ≤ o.amountForsale
  serials : ∀ o o', rests o → rests o' → o.ident = o'.ident → o = o'
  takers : ∀ f ∈ frames, ∀ o, rests o → o.ident ≠ f.taker.ident
  takersOnce : frames.Pairwise fun f g => f.taker.ident ≠ g.taker.ident
  held : ∀ f ∈ frames, ∀ h, f.held = some h → rests h.1
  heldOnce : frames.Pairwise fun f g => ∀ h k, f.held = some h → g.held = some k → h.1 ≠ k.1
  restAcc : ∀ o, rests o → (∀ f ∈ frames, ∀ h, f.held = some h → h.1 ≠ o) →
    Accounted placed filled o.ident o.amountForsale
  heldAcc : ∀ f ∈ frames, ∀ h, f.held = some h → Accounted placed filled h.1.ident
    (h.1.amountForsale - min h.1.amountForsale h.2.amountForsale)
  takerAcc : ∀ f ∈ frames, Accounted placed filled f.taker.ident f.taker.amountForsale

theorem account_start : Account (fun _ => False) [] (fun _ => 0) (fun _ => False) (fun _ => 0) := by
  constructor <;> simp

namespace Account

variable {rests rests' placed : CMPContractDex → Prop} {fs : List Frame}
  {next : PropertyId → Nat}
  {filled : OrderId → Int} {t t' pold pnew : CMPContractDex}

/-- A new order starts matching. -/
theorem place (h : Account rests fs next placed filled) (hserial : t.serial = next t.property) :
    Account rests (⟨t, none⟩ :: fs) (Function.update next t.property (next t.property + 1))
      (fun o => o = t ∨ placed o) filled where
  bound := by
    rintro o (rfl | ho)
    · rw [(h.fresh o.ident hserial.ge).1]
      exact le_max_left _ _
    · exact h.bound o ho
  placedOnce := by
    have hnew : ∀ o, placed o → o.ident ≠ t.ident := (h.fresh t.ident hserial.ge).2.1
    rintro o o' (rfl | ho) (rfl | ho') heq
    · rfl
    · exact absurd heq.symm (hnew o' ho')
    · exact absurd heq (hnew o ho)
    · exact h.placedOnce o o' ho ho' heq
  fresh := by
    intro n hn
    have hne : t.ident ≠ n := by
      rintro rfl
      simp [CMPContractDex.ident, hserial] at hn
    have hle : next n.1 ≤ n.2 := by
      by_cases hp : n.1 = t.property
      · rw [hp, Function.update_self] at hn
        rw [hp]
        omega
      · rwa [Function.update_of_ne hp] at hn
    obtain ⟨h1, h2, h3, h4⟩ := h.fresh n hle
    refine ⟨h1, ?_, h3, ?_⟩
    · rintro o (rfl | ho)
      · exact hne
      · exact h2 o ho
    · intro f hf
      rcases List.mem_cons.mp hf with rfl | hf
      · exact hne
      · exact h4 f hf
  amounts := h.amounts
  serials := h.serials
  takers := by
    intro f hf o ho
    rcases List.mem_cons.mp hf with rfl | hf
    · exact (h.fresh t.ident hserial.ge).2.2.1 o ho
    · exact h.takers f hf o ho
  takersOnce := by
    refine List.pairwise_cons.mpr ⟨fun g hg => ?_, h.takersOnce⟩
    exact ((h.fresh t.ident hserial.ge).2.2.2 g hg).symm
  held := by
    intro f hf k hk
    rcases List.mem_cons.mp hf with rfl | hf
    · cases hk
    · exact h.held f hf k hk
  heldOnce := by
    refine List.pairwise_cons.mpr ⟨fun g hg k _ hk => ?_, h.heldOnce⟩
    cases hk
  restAcc := by
    intro o ho hun
    obtain ⟨x, hx, hs, ha⟩ := h.restAcc o ho fun f hf => hun f (List.mem_cons_of_mem _ hf)
    exact ⟨x, Or.inr hx, hs, ha⟩
  heldAcc := by
    intro f hf k hk
    rcases List.mem_cons.mp hf with rfl | hf
    · cases hk
    · obtain ⟨x, hx, hs, ha⟩ := h.heldAcc f hf k hk
      exact ⟨x, Or.inr hx, hs, ha⟩
  takerAcc := by
    intro f hf
    rcases List.mem_cons.mp hf with rfl | hf
    · refine ⟨t, Or.inl rfl, rfl, ?_⟩
      rw [(h.fresh t.ident hserial.ge).1, zero_add]
    · obtain ⟨x, hx, hs, ha⟩ := h.takerAcc f hf
      exact ⟨x, Or.inr hx, hs, ha⟩

/-- A match of an order that no suspended match holds. -/
theorem fill (h : Account rests (⟨pnew, none⟩ :: fs) next placed filled) (hrest : rests pold)
    (hfree : ∀ f ∈ fs, ∀ k, f.held = some k → k.1 ≠ pold)
    (ht : t = { pnew with
      amountForsale := pnew.amountForsale - min pold.amountForsale pnew.amountForsale }) :
    Account rests (⟨t, some (pold, pnew)⟩ :: fs) next placed (filledBoth filled pold pnew) := by
  have hserial : t.ident = pnew.ident := by rw [ht]; rfl
  have hne : pold.ident ≠ pnew.ident := h.takers ⟨pnew, none⟩ (by simp) pold hrest
  have htakers := (List.pairwise_cons.mp h.takersOnce).1
  -- the two orders of the match
  have hacc : Accounted placed (filledBoth filled pold pnew) pold.ident
      (pold.amountForsale - min pold.amountForsale pnew.amountForsale) := by
    obtain ⟨x, hx, hs, ha⟩ := h.restAcc pold hrest fun f hf k hk => by
      rcases List.mem_cons.mp hf with rfl | hf
      · cases hk
      · exact hfree f hf k hk
    refine ⟨x, hx, hs, ?_⟩
    simp only [filledBoth, if_true, if_neg hne.symm]
    omega
  have hacc' : Accounted placed (filledBoth filled pold pnew) pnew.ident
      (pnew.amountForsale - min pold.amountForsale pnew.amountForsale) := by
    obtain ⟨x, hx, hs, ha⟩ := h.takerAcc ⟨pnew, none⟩ (by simp)
    refine ⟨x, hx, hs, ?_⟩
    simp only [filledBoth, if_true, if_neg hne]
    dsimp only at ha
    omega
  refine
    { placedOnce := h.placedOnce
      amounts := h.amounts
      serials := h.serials
      bound := ?_, fresh := ?_, takers := ?_, takersOnce := ?_, held := ?_, heldOnce := ?_
      restAcc := ?_, heldAcc := ?_, takerAcc := ?_ }
  · intro o ho
    by_cases h1 : pold.ident = o.ident
    · obtain ⟨x, hx, hs, ha⟩ := hacc
      have hxo := h.placedOnce x o hx ho (hs.trans h1)
      subst hxo
      rw [hs]
      omega
    · by_cases h2 : pnew.ident = o.ident
      · obtain ⟨x, hx, hs, ha⟩ := hacc'
        have hxo := h.placedOnce x o hx ho (hs.trans h2)
        subst hxo
        rw [hs]
        omega
      · simpa [filledBoth, h1, h2] using h.bound o ho
  · intro n hn
    obtain ⟨h1, h2, h3, h4⟩ := h.fresh n hn
    have hp := h3 pold hrest
    have hq := h4 ⟨pnew, none⟩ (by simp)
    refine ⟨by simpa [filledBoth, hp, hq] using h1, h2, h3, fun f hf => ?_⟩
    rcases List.mem_cons.mp hf with rfl | hf
    · dsimp only
      rw [hserial]
      exact hq
    · exact h4 f (List.mem_cons_of_mem _ hf)
  · intro f hf o ho
    rcases List.mem_cons.mp hf with rfl | hf
    · dsimp only
      rw [hserial]
      exact h.takers ⟨pnew, none⟩ (by simp) o ho
    · exact h.takers f (List.mem_cons_of_mem _ hf) o ho
  · refine List.pairwise_cons.mpr ⟨fun g hg => ?_, (List.pairwise_cons.mp h.takersOnce).2⟩
    dsimp only
    rw [hserial]
    exact htakers g hg
  · intro f hf k hk
    rcases List.mem_cons.mp hf with rfl | hf
    · cases hk
      exact hrest
    · exact h.held f (List.mem_cons_of_mem _ hf) k hk
  · refine List.pairwise_cons.mpr ⟨fun g hg k k' hk hk' => ?_, (List.pairwise_cons.mp h.heldOnce).2⟩
    cases hk
    exact (hfree g hg k' hk').symm
  · intro o ho hun
    have hold : o ≠ pold := fun hc => hun _ List.mem_cons_self (pold, pnew) rfl hc.symm
    have h1 : pold.ident ≠ o.ident := fun hc => hold (h.serials o pold ho hrest hc.symm)
    have h2 : pnew.ident ≠ o.ident := (h.takers ⟨pnew, none⟩ (by simp) o ho).symm
    refine (h.restAcc o ho fun f hf k hk => ?_).other h1 h2
    rcases List.mem_cons.mp hf with rfl | hf
    · cases hk
    · exact hun f (List.mem_cons_of_mem _ hf) k hk
  · intro f hf k hk
    rcases List.mem_cons.mp hf with rfl | hf
    · cases hk
      exact hacc
    · have hk1 := h.held f (List.mem_cons_of_mem _ hf) k hk
      have h1 : pold.ident ≠ k.1.ident := fun hc =>
        hfree f hf k hk (h.serials k.1 pold hk1 hrest hc.symm)
      have h2 : pnew.ident ≠ k.1.ident := (h.takers ⟨pnew, none⟩ (by simp) k.1 hk1).symm
      exact (h.heldAcc f (List.mem_cons_of_mem _ hf) k hk).other h1 h2
  · intro f hf
    rcases List.mem_cons.mp hf with rfl | hf
    · rw [ht]
      exact hacc'
    · have h1 : pold.ident ≠ f.taker.ident := h.takers f (List.mem_cons_of_mem _ hf) pold hrest
      exact (h.takerAcc f (List.mem_cons_of_mem _ hf)).other h1 (htakers f hf)

/-- The held order leaves the book, and what remains of it takes its place. -/
theorem erase (h : Account rests (⟨t, some (pold, pnew)⟩ :: fs) next placed filled)
    {rep : CMPContractDex} {c : Prop}
    (hrep : rep = { pold with
      amountForsale := pold.amountForsale - min pold.amountForsale pnew.amountForsale })
    (hrests : ∀ o, rests' o ↔ (rests o ∧ o ≠ pold) ∨ (o = rep ∧ c)) :
    Account rests' (⟨t, none⟩ :: fs) next placed filled := by
  have hold : rests pold := h.held _ List.mem_cons_self (pold, pnew) rfl
  have hserial : rep.ident = pold.ident := by rw [hrep]; rfl
  have hamount : 0 ≤ rep.amountForsale := by
    rw [hrep]
    dsimp only
    omega
  -- a resting order afterwards has the serial of one that rested before
  have hback : ∀ o, rests' o → ∃ x, rests x ∧ x.ident = o.ident := by
    intro o ho
    rcases (hrests o).mp ho with ho | ho
    · exact ⟨o, ho.1, rfl⟩
    · exact ⟨pold, hold, by rw [ho.1, hserial]⟩
  have hkept : ∀ f ∈ fs, ∀ k, f.held = some k → rests' k.1 := by
    intro f hf k hk
    refine (hrests _).mpr (Or.inl ⟨h.held f (List.mem_cons_of_mem _ hf) k hk, ?_⟩)
    exact ((List.pairwise_cons.mp h.heldOnce).1 f hf (pold, pnew) k rfl hk).symm
  refine
    { placedOnce := h.placedOnce
      bound := h.bound
      fresh := ?_, amounts := ?_, serials := ?_, takers := ?_, takersOnce := ?_, held := ?_
      heldOnce := ?_, restAcc := ?_, heldAcc := ?_, takerAcc := ?_ }
  · intro n hn
    obtain ⟨h1, h2, h3, h4⟩ := h.fresh n hn
    refine ⟨h1, h2, ?_, fun f hf => ?_⟩
    · intro o ho
      obtain ⟨x, hx, hs⟩ := hback o ho
      rw [← hs]
      exact h3 x hx
    · rcases List.mem_cons.mp hf with rfl | hf
      · exact h4 ⟨t, some (pold, pnew)⟩ (by simp)
      · exact h4 f (List.mem_cons_of_mem _ hf)
  · intro o ho
    rcases (hrests o).mp ho with ho | ho
    · exact h.amounts o ho.1
    · rw [ho.1]
      exact hamount
  · intro o o' ho ho' heq
    rcases (hrests o).mp ho with ho | ho <;> rcases (hrests o').mp ho' with ho' | ho'
    · exact h.serials o o' ho.1 ho'.1 heq
    · exact absurd (h.serials o pold ho.1 hold (by rw [heq, ho'.1, hserial])) ho.2
    · exact absurd (h.serials o' pold ho'.1 hold (by rw [← heq, ho.1, hserial])) ho'.2
    · rw [ho.1, ho'.1]
  · intro f hf o ho
    obtain ⟨x, hx, hs⟩ := hback o ho
    rw [← hs]
    rcases List.mem_cons.mp hf with rfl | hf
    · exact h.takers ⟨t, some (pold, pnew)⟩ (by simp) x hx
    · exact h.takers f (List.mem_cons_of_mem _ hf) x hx
  · exact List.pairwise_cons.mpr (List.pairwise_cons.mp h.takersOnce)
  · intro f hf k hk
    rcases List.mem_cons.mp hf with rfl | hf
    · cases hk
    · exact hkept f hf k hk
  · refine List.pairwise_cons.mpr ⟨fun g hg k _ hk => ?_, (List.pairwise_cons.mp h.heldOnce).2⟩
    cases hk
  · intro o ho hun
    rcases (hrests o).mp ho with ho | ho
    · refine h.restAcc o ho.1 fun f hf k hk => ?_
      rcases List.mem_cons.mp hf with rfl | hf
      · cases hk
        exact ho.2.symm
      · exact hun f (List.mem_cons_of_mem _ hf) k hk
    · have hacc := h.heldAcc _ List.mem_cons_self (pold, pnew) rfl
      rw [ho.1, hserial, hrep]
      exact hacc
  · intro f hf k hk
    rcases List.mem_cons.mp hf with rfl | hf
    · cases hk
    · exact h.heldAcc f (List.mem_cons_of_mem _ hf) k hk
  · intro f hf
    rcases List.mem_cons.mp hf with rfl | hf
    · exact h.takerAcc ⟨t, some (pold, pnew)⟩ (by simp)
    · exact h.takerAcc f (List.mem_cons_of_mem _ hf)

/-- What remains of an order enters the book, or is dropped. -/
theorem rest (h : Account rests (⟨t, none⟩ :: fs) next placed filled) {c : Prop}
    (hrests : ∀ o, rests' o ↔ rests o ∨ (o = t ∧ 0 < t.amountForsale ∧ c)) :
    Account rests' fs next placed filled := by
  have hmem : (⟨t, none⟩ : Frame) ∈ (⟨t, none⟩ :: fs : List Frame) := List.mem_cons_self
  have hcons : ∀ f ∈ fs, f ∈ (⟨t, none⟩ :: fs : List Frame) := fun f hf =>
    List.mem_cons_of_mem _ hf
  have htakers := (List.pairwise_cons.mp h.takersOnce).1
  refine
    { placedOnce := h.placedOnce
      bound := h.bound
      takersOnce := (List.pairwise_cons.mp h.takersOnce).2
      heldOnce := (List.pairwise_cons.mp h.heldOnce).2
      heldAcc := fun f hf => h.heldAcc f (hcons f hf)
      takerAcc := fun f hf => h.takerAcc f (hcons f hf)
      fresh := ?_, amounts := ?_, serials := ?_, takers := ?_, held := ?_, restAcc := ?_ }
  · intro n hn
    obtain ⟨h1, h2, h3, h4⟩ := h.fresh n hn
    refine ⟨h1, h2, ?_, fun f hf => h4 f (hcons f hf)⟩
    intro o ho
    rcases (hrests o).mp ho with ho | ⟨rfl, -⟩
    · exact h3 o ho
    · exact h4 _ hmem
  · intro o ho
    rcases (hrests o).mp ho with ho | ⟨rfl, hpos, -⟩
    · exact h.amounts o ho
    · exact hpos.le
  · intro o o' ho ho' heq
    rcases (hrests o).mp ho with ho | ⟨rfl, -⟩ <;> rcases (hrests o').mp ho' with ho' | ⟨rfl, -⟩
    · exact h.serials o o' ho ho' heq
    · exact absurd heq (h.takers _ hmem o ho)
    · exact absurd heq.symm (h.takers _ hmem o' ho')
    · rfl
  · intro f hf o ho
    rcases (hrests o).mp ho with ho | ⟨rfl, -⟩
    · exact h.takers f (hcons f hf) o ho
    · exact htakers f hf
  · intro f hf k hk
    exact (hrests _).mpr (Or.inl (h.held f (hcons f hf) k hk))
  · intro o ho hun
    rcases (hrests o).mp ho with ho | ⟨rfl, -⟩
    · refine h.restAcc o ho fun f hf k hk => ?_
      rcases List.mem_cons.mp hf with rfl | hf
      · cases hk
      · exact hun f hf k hk
    · exact h.takerAcc _ hmem

/-- Between transactions, orders may be taken out. -/
theorem cancel (h : Account rests [] next placed filled) (hrests : ∀ o, rests' o → rests o) :
    Account rests' [] next placed filled where
  bound := h.bound
  placedOnce := h.placedOnce
  fresh := fun n hn =>
    ⟨(h.fresh n hn).1, (h.fresh n hn).2.1, fun o ho => (h.fresh n hn).2.2.1 o (hrests o ho), by simp⟩
  amounts := fun o ho => h.amounts o (hrests o ho)
  serials := fun o o' ho ho' => h.serials o o' (hrests o ho) (hrests o' ho')
  takers := by simp
  takersOnce := List.Pairwise.nil
  held := by simp
  heldOnce := List.Pairwise.nil
  restAcc := fun o ho _ => h.restAcc o (hrests o ho) (by simp)
  heldAcc := by simp
  takerAcc := by simp

end Account

/-! ## The engine keeps the account -/

/-- The account of a world. -/
def FillAccount (w : World) : Prop :=
  Account (Resting w.state) w.frames w.nextSerial (fun o => Event.placed o ∈ w.trace)
    (filledAgainst · w.trace)

/-- The book is in order; and if every match so far filled once, nothing was filled twice. -/
structure FillInv (w : World) : Prop where
  book : BookWf w.state
  fills : (∀ e ∈ w.trace, e.FillsOnce) → NoDoubleFill w.trace ∧ FillAccount w

/-- An event that neither places nor fills nor erases. -/
def Event.Neutral : Event → Prop
  | .placed _ => False
  | .matched _ _ _ _ => False
  | .erased _ _ => False
  | _ => True

theorem Event.Neutral.fill {e : Event} (h : e.Neutral) (n : OrderId) : e.fill n = 0 := by
  cases e <;> first | rfl | cases h

theorem filledAgainst_cons (n : OrderId) (e : Event) (trace : List Event) :
    filledAgainst n (e :: trace) = filledAgainst n trace + e.fill n := by
  simp [filledAgainst, add_comm]

theorem NoDoubleFill.neutral {trace : List Event} {e : Event} (h : NoDoubleFill trace)
    (he : e.Neutral) : NoDoubleFill (e :: trace) where
  intact := by
    intro o b hmem
    rcases List.mem_cons.mp hmem with rfl | hmem
    · cases he
    · exact h.intact o b hmem
  filled := by
    intro o hmem
    rw [filledAgainst_cons, he.fill, add_zero]
    rcases List.mem_cons.mp hmem with rfl | hmem
    · cases he
    · exact h.filled o hmem
  inBook := by
    intro pre outer pold pnew hmem
    rcases List.mem_cons.mp hmem with rfl | hmem
    · cases he
    · exact h.inBook pre outer pold pnew hmem

/-- Steps that leave book and calls alone. -/
theorem FillInv.neutral {w w' : World} {e : Event} (h : FillInv w) (he : e.Neutral)
    (hbook : w'.state.contractdex = w.state.contractdex) (hframes : w'.frames = w.frames)
    (hnext : w'.nextSerial = w.nextSerial) (htrace : w'.trace = e :: w.trace) : FillInv w' where
  book := (bookWf_congr hbook).mpr h.book
  fills := by
    intro hok
    rw [htrace] at hok
    obtain ⟨hn, ha⟩ := h.fills fun x hx => hok x (List.mem_cons_of_mem _ hx)
    refine ⟨htrace ▸ hn.neutral he, ?_⟩
    have hrests : Resting w'.state = Resting w.state :=
      funext fun o => propext (resting_congr hbook o)
    have hplaced : (fun o => Event.placed o ∈ w'.trace) = fun o => Event.placed o ∈ w.trace := by
      funext o
      rw [htrace, List.mem_cons]
      refine propext ⟨?_, Or.inr⟩
      rintro (rfl | ho)
      · cases he
      · exact ho
    have hfilled : (filledAgainst · w'.trace) = (filledAgainst · w.trace) := by
      funext n
      rw [htrace, filledAgainst_cons, he.fill, add_zero]
    unfold FillAccount
    rw [hrests, hframes, hnext, hplaced, hfilled]
    exact ha

/-- Steps that only write to the ledger. -/
theorem FillInv.silent {w w' : World} (h : FillInv w)
    (hbook : w'.state.contractdex = w.state.contractdex) (hframes : w'.frames = w.frames)
    (hnext : w'.nextSerial = w.nextSerial) (htrace : w'.trace = w.trace) : FillInv w' where
  book := (bookWf_congr hbook).mpr h.book
  fills := by
    intro hok
    rw [htrace] at hok
    have hrests : Resting w'.state = Resting w.state :=
      funext fun o => propext (resting_congr hbook o)
    unfold FillAccount
    rw [hrests, hframes, hnext, htrace]
    exact h.fills hok

/-- A new order starts matching. -/
theorem FillInv.place {w : World} {o : CMPContractDex} (h : FillInv w)
    (hserial : o.serial = w.nextSerial o.property) : FillInv (w.place o) where
  book := h.book
  fills := by
    intro hok
    obtain ⟨hn, ha⟩ := h.fills fun x hx => hok x (List.mem_cons_of_mem _ hx)
    have hacc := Account.place ha hserial
    have hfilled : ∀ n, filledAgainst n (w.place o).trace = filledAgainst n w.trace := by
      intro n
      simp [World.place, filledAgainst_cons, Event.fill]
    have hplaced : ∀ x, Event.placed x ∈ (w.place o).trace ↔ x = o ∨ Event.placed x ∈ w.trace := by
      intro x
      simp [World.place]
    refine ⟨⟨?_, ?_, ?_⟩, ?_⟩
    · intro x b hx
      exact hn.intact x b (by simpa [World.place] using hx)
    · intro x hx
      rw [hfilled]
      exact hacc.bound x ((hplaced x).mp hx)
    · intro pre outer pold pnew hx
      exact hn.inBook pre outer pold pnew (by simpa [World.place] using hx)
    · unfold FillAccount
      simp only [hfilled, hplaced]
      exact hacc

/-- What a match does to trace and account, when it fills once. -/
theorem FillInv.matched {w : World} {fs : List Frame} {price : Nat} {key : OrderKey}
    {pold pnew : CMPContractDex} (h : FillInv w) (hf : w.frames = ⟨pnew, none⟩ :: fs)
    (hc : Candidate w.state price key pold pnew)
    (hok : ∀ e ∈ Event.matched w.state w.frames.tail pold pnew :: w.trace, e.FillsOnce) :
    NoDoubleFill (.matched w.state w.frames.tail pold pnew :: w.trace) ∧
    Account (Resting w.state)
      (⟨(remainders (parties w.state pold pnew) pold pnew).pnew, some (pold, pnew)⟩ :: fs)
      w.nextSerial
      (fun o => Event.placed o ∈ Event.matched w.state w.frames.tail pold pnew :: w.trace)
      (filledAgainst · (.matched w.state w.frames.tail pold pnew :: w.trace)) := by
  obtain ⟨hn, ha⟩ := h.fills fun x hx => hok x (List.mem_cons_of_mem _ hx)
  obtain ⟨hfree, hred⟩ := hok _ List.mem_cons_self
  have hrest : Resting w.state pold := h.book.resting hc.inBook
  unfold FillAccount at ha
  rw [hf] at ha hfree
  have hacc := ha.fill hrest hfree (remainders_amounts w.state pold pnew hred).2
  have hfilled : (filledAgainst · (.matched w.state w.frames.tail pold pnew :: w.trace)) =
      filledBoth (filledAgainst · w.trace) pold pnew := by
    funext n
    rw [filledAgainst_cons, Event.fill, nCouldBuy_eq, filledBoth]
  have hplaced : ∀ o, Event.placed o ∈
      Event.matched w.state w.frames.tail pold pnew :: w.trace ↔ Event.placed o ∈ w.trace := by
    simp
  refine ⟨⟨?_, ?_, ?_⟩, ?_⟩
  · intro o b ho
    exact hn.intact o b (by simpa using ho)
  · intro o ho
    have := hacc.bound o ((hplaced o).mp ho)
    rw [← hfilled] at this
    exact this
  · intro pre outer po pn hx
    rcases List.mem_cons.mp hx with hx | hx
    · cases hx
      exact hrest
    · exact hn.inBook pre outer po pn hx
  · rw [hfilled]
    simp only [hplaced]
    exact hacc

/-- The world after a match. -/
theorem FillInv.fill {w : World} {fs : List Frame} {price : Nat} {key : OrderKey}
    {pold pnew : CMPContractDex} {s' : State} (h : FillInv w) (hf : w.frames = ⟨pnew, none⟩ :: fs)
    (hc : Candidate w.state price key pold pnew) (hbook : s'.contractdex = w.state.contractdex) :
    FillInv { w with
      state := s'
      frames := ⟨(remainders (parties w.state pold pnew) pold pnew).pnew, some (pold, pnew)⟩ ::
        w.frames.tail
      trace := .matched w.state w.frames.tail pold pnew :: w.trace } where
  book := (bookWf_congr hbook).mpr h.book
  fills := by
    intro hok
    obtain ⟨hn, ha⟩ := h.matched hf hc hok
    have hrests : Resting s' = Resting w.state := funext fun o => propext (resting_congr hbook o)
    refine ⟨hn, ?_⟩
    unfold FillAccount
    dsimp only
    rw [hrests, hf, List.tail_cons]
    rw [hf, List.tail_cons] at ha
    exact ha

/-- The world after the matched order was erased. -/
theorem FillInv.erase {w : World} {fs : List Frame} {price : Nat} {key : OrderKey}
    {pold pnew : CMPContractDex} {rem : Remainders} {s0 : State} (h : FillInv w)
    (hrem : rem = remainders (parties s0 pold pnew) pold pnew)
    (hprice : pold.effectivePrice = price) (hkey : pold.key = key)
    (hprop : pold.property = pnew.property)
    (hf : w.frames = ⟨rem.pnew, some (pold, pnew)⟩ :: fs)
    (hred : (∀ e ∈ w.trace, e.FillsOnce) → Reduces pold pnew)
    (hold : Resting w.state pold) :
    FillInv { w with
      state := w.state.setContractLevel pnew.property price
        (replaceMatched (w.state.contractLevel pnew.property price) key pold pnew rem)
      frames := ⟨rem.pnew, none⟩ :: w.frames.tail
      trace := .erased pold true :: w.trace } := by
  subst hprice hkey
  have hshape : ∃ r, rem.replacement = { pold with amountForsale := r } := by
    rw [hrem]
    exact (remainders_shape s0 pold pnew).1
  refine ⟨h.book.replaceMatched hprop hshape, ?_⟩
  intro hok
  have hok' : ∀ e ∈ w.trace, e.FillsOnce := fun x hx => hok x (List.mem_cons_of_mem _ hx)
  obtain ⟨hn, ha⟩ := h.fills hok'
  have hrep := (remainders_amounts s0 pold pnew (hred hok')).1
  rw [← hrem] at hrep
  unfold FillAccount at ha
  rw [hf] at ha
  have hacc := ha.erase hrep fun o => resting_replaceMatched hold hprop hshape
  have hfilled : ∀ n, filledAgainst n (.erased pold true :: w.trace) = filledAgainst n w.trace := by
    intro n
    simp [filledAgainst_cons, Event.fill]
  have hplaced : ∀ o, Event.placed o ∈ Event.erased pold true :: w.trace ↔
      Event.placed o ∈ w.trace := by
    simp
  refine ⟨⟨?_, ?_, ?_⟩, ?_⟩
  · intro o b ho
    rcases List.mem_cons.mp ho with ho | ho
    · cases ho
      rfl
    · exact hn.intact o b ho
  · intro o ho
    dsimp only at ho ⊢
    rw [hfilled]
    exact hn.filled o ((hplaced o).mp ho)
  · intro pre outer po pn hx
    exact hn.inBook pre outer po pn (by simpa using hx)
  · unfold FillAccount
    dsimp only
    rw [hf, List.tail_cons]
    simp only [hfilled, hplaced]
    exact hacc

/-- What remains of an order enters the book. -/
theorem FillInv.rest {w : World} {fs : List Frame} {o : CMPContractDex} (h : FillInv w)
    (hf : w.frames = ⟨o, none⟩ :: fs) :
    FillInv { w with state := restState w.state o, frames := w.frames.tail } where
  book := h.book.restState o
  fills := by
    intro hok
    obtain ⟨hn, ha⟩ := h.fills hok
    unfold FillAccount at ha ⊢
    rw [hf] at ha ⊢
    exact ⟨hn, ha.rest fun _ => resting_restState⟩

/-- A halt is only allowed where nothing was filled twice. -/
def FillHalt (_ : Halt) (w : World) : Prop :=
  (∀ e ∈ w.trace, e.FillsOnce) → NoDoubleFill w.trace

theorem FillInv.halt {w w' : World} {e : Halt} (h : FillInv w) (ht : w'.trace = w.trace) :
    FillHalt e w' := by
  intro hok
  rw [ht] at hok ⊢
  exact (h.fills hok).1

theorem fillInv_engine : EngineInv FillInv FillHalt where
  condition := fun hI _ _ => hI.halt rfl
  visit := by
    intro w fs price key pold pnew hI _ _
    refine wp_mono (visitCandidate_spec pold pnew w) ?_ ?_
    · rintro _ w' ⟨m, -, rfl⟩
      exact hI.neutral (e := .candidate w.state pold pnew) trivial rfl rfl rfl rfl
    · rintro e w' ⟨-, ht⟩ hok
      rw [ht] at hok ⊢
      exact (hI.fills fun x hx => hok x (List.mem_cons_of_mem _ hx)).1.neutral trivial
  fill := by
    intro w fs price key pold pnew hI hf hc _
    refine wp_mono (fillOrder_spec pold pnew w) ?_ ?_
    · rintro rem w' ⟨rfl, s', mp, basisS, basisB, rS, rB, value, heff, rfl⟩
      exact hI.fill hf hc (by rw [heff.state])
    · rintro e w' ⟨-, ht⟩ hok
      rw [ht] at hok ⊢
      exact (hI.matched hf hc hok).1
  check := by
    intro w p a last hI _
    exact hI.neutral (e := .marginCheck w.state p a last) trivial rfl rfl rfl rfl
  call := by
    intro w p a last rest hI _ _ _
    exact hI.place rfl
  reset := by
    intro w s p a last liq hI _ _ _
    rw [wp_onState]
    refine wp_mono (assertUpdate_posts _ _ _ _ w.state) ?_ (fun _ _ _ => hI.halt rfl)
    rintro _ s' ⟨m, rfl, -⟩
    exact hI.silent rfl rfl rfl rfl
  erase := by
    intro w w0 fs price key pold pnew rem hI hI0 hsuf hc hrem hf
    -- the matched order was stored under its own key
    have hkey : pold.key = key := (hI0.book _ _ _ _ hc.inBook).2.2
    have hplace : (w.state.contractLevel pnew.property price)[key]? = some pold ↔
        Resting w.state pold := by
      unfold Resting
      rw [hc.property, hc.priceEq, hkey]
    refine wp_mono (eraseMatched_spec price key pold pnew rem w) ?_ ?_
    · rintro _ w' ⟨hold, rfl⟩
      refine hI.erase hrem hc.priceEq hkey hc.property hf ?_ (hplace.mp hold)
      intro hok
      exact (hok _ (hsuf.subset List.mem_cons_self)).2
    · rintro e w' ⟨-, hgone, rfl⟩ hok
      obtain ⟨-, ha⟩ := hI.fills fun x hx => hok x (List.mem_cons_of_mem _ hx)
      unfold FillAccount at ha
      rw [hf] at ha
      exact absurd (hplace.mpr (ha.held _ List.mem_cons_self (pold, pnew) rfl)) hgone
  rest := by
    intro w fs o hI hf
    refine wp_imp (restOrder_spec o w _) ?_
    rintro _ w' rfl
    exact hI.rest hf
  fuel := fun hI => hI.halt rfl
  undefined := fun hI => hI.halt rfl

theorem fillInv_run : RunInv (fun _ => True) FillInv FillHalt where
  toEngineInv := fillInv_engine
  stops := fun hI ht _ => hI.halt ht
  submit := by
    intro w op _ hI _
    exact hI.neutral (e := .submitted w.state op) trivial rfl rfl rfl rfl
  reserve := by
    intro w tx m _ hI _ _ _ _
    have hres : FillInv (reservedWorld w tx m) := hI.silent rfl rfl rfl rfl
    exact ⟨fun _ => hres, fun _ => hres.place rfl⟩
  created := by
    intro w tx h _ hI _ _
    exact hI.silent rfl rfl rfl rfl

/-- **NO DOUBLE FILL**, in every run of contract transactions from an empty book in which no match
    takes an order held by a suspended match and every match reduces the two amounts; also at
    the point where a run halts. -/
theorem fills_once (s : State) (hs : s.contractdex = ∅) (fuel : Nat) (ops : List ContractOp) :
    wp (runContracts fuel ops)
      (fun _ w => (∀ e ∈ w.trace, e.FillsOnce) → NoDoubleFill w.trace)
      (fun _ w => (∀ e ∈ w.trace, e.FillsOnce) → NoDoubleFill w.trace)
      (World.start s) := by
  refine wp_imp (runContracts_rule fillInv_run fuel ops (by simp) ?_ rfl)
    (fun _ w h hok => (h.1.fills hok).1)
  refine ⟨bookWf_empty hs, fun _ => ⟨⟨by simp [World.start], by simp [World.start],
    by simp [World.start]⟩, ?_⟩⟩
  have hrests : Resting (World.start s).state = fun _ => False :=
    funext fun o => eq_false (not_resting_empty hs o)
  unfold FillAccount
  rw [hrests]
  simpa [World.start, filledAgainst] using account_start

set_option maxRecDepth 4000 in
private theorem quietTrade_fillsOnce :
    (∀ e ∈ (after (runContracts 3 quietTrade) (World.start fundedState)).trace, e.FillsOnce) ∧
    filledAgainst (3, 0) (after (runContracts 3 quietTrade) (World.start fundedState)).trace = 1 := by
  decide +kernel

/-- The bid of `A` is filled, and only once. -/
theorem fills_once_quietTrade :
    ∃ w, runContracts 3 quietTrade (World.start fundedState) = .ok () w ∧
      filledAgainst (3, 0) w.trace = 1 ∧ NoDoubleFill w.trace :=
  ⟨_, eq_ok_after quietTrade_returns, quietTrade_fillsOnce.2,
    wp_ok (fills_once fundedState rfl 3 quietTrade) (eq_ok_after quietTrade_returns)
      quietTrade_fillsOnce.1⟩

set_option maxRecDepth 4000 in
/-- **THE HELD ORDER IS FILLED AGAIN**: `A` offers one contract at 100 and `B` takes it. The
    liquidation price of `A` is 114, so `marginLogic` buys for `A` at 100 — and the only offer in
    the book is the one that is being matched. One contract was placed, two are filled. -/
theorem oneTrade_fills_twice :
    ¬ NoDoubleFill (after (runContracts 2 oneTrade) (World.start fundedState)).trace := by
  intro h
  have hplaced : ((after (runContracts 2 oneTrade) (World.start fundedState)).trace.filterMap
      Event.order?).any (fun o => o.ident == (3, 0) && o.amountForsale == 1) = true := by
    decide +kernel
  have hfilled : filledAgainst (3, 0)
      (after (runContracts 2 oneTrade) (World.start fundedState)).trace = 2 := by decide +kernel
  obtain ⟨o, ho, hsame⟩ := List.any_eq_true.mp hplaced
  obtain ⟨e, he, heo⟩ := List.mem_filterMap.mp ho
  cases e with
  | placed o' =>
      cases heo
      simp only [Bool.and_eq_true, beq_iff_eq] at hsame
      have hle := h.filled _ he
      rw [hsame.1, hfilled, hsame.2] at hle
      omega
  | _ => cases heo

end OmniCore
