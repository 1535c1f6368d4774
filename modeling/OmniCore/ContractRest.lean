import OmniCore.ContractBook

/-! # ContractRest — does what remains of an order come to rest?

    A price level is a set sorted by `(block, idx)`, and `ContractDex_INSERT` does not
    replace. Transactions have keys of their own, but every liquidation order has the key
    `(1, 1)`: the second one at a price finds the place of the first one taken, and what
    remains of it is dropped. `ContractDex_ADD` says so with an error code that `marginCall`
    ignores.

    An order is not lost if it was matched out of the book later, or rests with what
    remained of it when its own matching ended. -/

namespace OmniCore

open Std (ExtTreeMap)
open Machine TextRec MapSum Exec

/-! ## What the trace says about an order -/

/-- The order with another amount. -/
def CMPContractDex.withAmount (o : CMPContractDex) (amount : Int) : CMPContractDex :=
  { o with amountForsale := amount }

@[simp] theorem withAmount_ident (o : CMPContractDex) (a : Int) :
    (o.withAmount a).ident = o.ident := rfl

@[simp] theorem withAmount_key (o : CMPContractDex) (a : Int) : (o.withAmount a).key = o.key := rfl

@[simp] theorem withAmount_amountForsale (o : CMPContractDex) (a : Int) :
    (o.withAmount a).amountForsale = a := rfl

@[simp] theorem withAmount_withAmount (o : CMPContractDex) (a b : Int) :
    (o.withAmount a).withAmount b = o.withAmount b := rfl

/-- What a match leaves of the incoming order. -/
def incomingAfter (pre : State) (pold pnew : CMPContractDex) : CMPContractDex :=
  (remainders (parties pre pold pnew) pold pnew).pnew

/-- What is left of an order after the matches it came in for. -/
def takerLeft (n : OrderId) : List Event → Int
  | [] => 0
  | .placed o :: earlier => if o.ident = n then o.amountForsale else takerLeft n earlier
  | .matched pre _ pold pnew :: earlier =>
      if pnew.ident = n then (incomingAfter pre pold pnew).amountForsale else takerLeft n earlier
  | _ :: earlier => takerLeft n earlier

/-- The order was matched out of the book. -/
def TakenFromBook (n : OrderId) (trace : List Event) : Prop :=
  ∃ pre outer pold pnew, Event.matched pre outer pold pnew ∈ trace ∧ pold.ident = n

/-- The incoming orders of the suspended matches, for every match whose order is not erased yet:
    the one of the match itself first. -/
def openTakers : List Event → List (List CMPContractDex)
  | [] => []
  | .matched pre outer pold pnew :: earlier =>
      (incomingAfter pre pold pnew :: outer.map Frame.taker) :: openTakers earlier
  | .erased _ _ :: earlier => (openTakers earlier).tail
  | _ :: earlier => openTakers earlier

/-- The orders that are being matched. -/
def runningOrders (trace : List Event) : List CMPContractDex := (openTakers trace).headD []

/-- Two orders have the same place in the book. -/
def SamePlace (a b : CMPContractDex) : Prop :=
  a.property = b.property ∧ a.effectivePrice = b.effectivePrice ∧ a.key = b.key

/-- The key of every liquidation order. -/
def marginKey : OrderKey := (1, 1)

/-- A placed order has a key that no earlier order had; or it has the key of the liquidation orders,
    and no order with that key rests at its price or is being matched and would rest there. -/
def Event.PlacedApart : Event → List Event → Prop
  | .placed o, earlier => 0 < o.amountForsale →
      if o.key = marginKey then
        (∀ pre, earlier.head?.bind Event.pre? = some pre → FreePlace pre o) ∧
          ∀ x ∈ runningOrders earlier, 0 < x.amountForsale → ¬ SamePlace x o
      else ∀ o', Event.placed o' ∈ earlier → o'.key ≠ o.key
  | _, _ => True

instance (a b : CMPContractDex) : Decidable (SamePlace a b) :=
  inferInstanceAs (Decidable (_ ∧ _ ∧ _))

instance : (e : Event) → (earlier : List Event) → Decidable (e.PlacedApart earlier)
  | .placed _, _ => by unfold Event.PlacedApart FreePlace; infer_instance
  | .submitted _ _, _ => isTrue trivial
  | .candidate _ _ _, _ => isTrue trivial
  | .matched _ _ _ _, _ => isTrue trivial
  | .marginCheck _ _ _ _, _ => isTrue trivial
  | .erased _ _, _ => isTrue trivial

/-- Every placed order of which something was left when its matching ended rests in the book with
    this remainder, unless it was matched out of the book; `running` are the orders whose matching
    has not ended. -/
def NothingLost (running : List CMPContractDex) (s : State) (trace : List Event) : Prop :=
  ∀ o, Event.placed o ∈ trace → 0 < takerLeft o.ident trace →
    (∃ t ∈ running, t.ident = o.ident) ∨ TakenFromBook o.ident trace ∨
      Resting s (o.withAmount (takerLeft o.ident trace))

/-! ## Events that say nothing about orders -/

/-- The event places, matches or erases nothing. -/
def Event.Idle : Event → Prop
  | .submitted _ _ | .candidate _ _ _ | .marginCheck _ _ _ _ => True
  | _ => False

section Idle

variable {e : Event} {l : List Event}

theorem takerLeft_idle (h : e.Idle) (n : OrderId) : takerLeft n (e :: l) = takerLeft n l := by
  cases e <;> first | rfl | exact h.elim

theorem openTakers_idle (h : e.Idle) : openTakers (e :: l) = openTakers l := by
  cases e <;> first | rfl | exact h.elim

theorem placed_idle (h : e.Idle) (o : CMPContractDex) :
    Event.placed o ∈ e :: l ↔ Event.placed o ∈ l := by
  cases e <;> first | exact h.elim | simp

theorem takenFromBook_cons {n : OrderId} (h : TakenFromBook n l) : TakenFromBook n (e :: l) := by
  obtain ⟨pre, outer, pold, pnew, hmem, hn⟩ := h
  exact ⟨pre, outer, pold, pnew, List.mem_cons_of_mem _ hmem, hn⟩

end Idle

/-! ## Resting orders and free places -/

section Places

variable {s : State}

/-- A free place stays free when the book only loses orders. -/
theorem freePlace_of_subset {s' : State} (hwf : BookWf s')
    (hsub : ∀ o, Resting s' o → ∃ o', Resting s o' ∧ SamePlace o' o) {x : CMPContractDex}
    (h : FreePlace s x) : FreePlace s' x := by
  unfold FreePlace at h ⊢
  by_contra hne
  obtain ⟨o, ho⟩ := Option.ne_none_iff_exists'.mp hne
  obtain ⟨hp, hr, hk⟩ := hwf _ _ _ o ho
  obtain ⟨o', ho', hplace⟩ := hsub o (hwf.resting ho)
  unfold Resting at ho'
  rw [hplace.1, hplace.2.1, hplace.2.2, hp, hr, hk, h] at ho'
  cases ho'

/-- A place is free if no resting order has its key. -/
theorem freePlace_of_key (hwf : BookWf s) {x : CMPContractDex}
    (h : ∀ o, Resting s o → o.key ≠ x.key) : FreePlace s x := by
  unfold FreePlace
  by_contra hne
  obtain ⟨o, ho⟩ := Option.ne_none_iff_exists'.mp hne
  exact h o (hwf.resting ho) (hwf _ _ _ o ho).2.2

theorem freePlace_congr {s' : State} (h : s'.contractdex = s.contractdex) (o : CMPContractDex) :
    FreePlace s' o ↔ FreePlace s o := by
  unfold FreePlace State.contractLevel State.contractPrices
  rw [h]

/-- Amounts never leave the range below zero by a match. -/
theorem incomingAfter_pos {pold pnew : CMPContractDex} (hold : 0 ≤ pold.amountForsale)
    (h : 0 < (incomingAfter s pold pnew).amountForsale) : 0 < pnew.amountForsale := by
  unfold incomingAfter at h
  by_cases hred : Reduces pold pnew
  · rw [(remainders_amounts s pold pnew hred).2] at h
    have hlt : 0 < pnew.amountForsale - min pold.amountForsale pnew.amountForsale := h
    omega
  · rw [remainders_of_not_reduces s pold pnew hred] at h
    exact h

theorem replacement_nonneg {pold pnew : CMPContractDex} (hold : 0 ≤ pold.amountForsale) :
    0 ≤ (remainders (parties s pold pnew) pold pnew).replacement.amountForsale := by
  by_cases hred : Reduces pold pnew
  · rw [(remainders_amounts s pold pnew hred).1]
    show 0 ≤ pold.amountForsale - min pold.amountForsale pnew.amountForsale
    omega
  · rw [remainders_of_not_reduces s pold pnew hred]
    exact hold

end Places

/-! ## The invariant -/

/-- For every running call that is in the middle of a match: its incoming order and those of the calls
    around it. -/
def heldTakers : List Frame → List (List CMPContractDex)
  | [] => []
  | ⟨_, none⟩ :: fs => heldTakers fs
  | ⟨t, some _⟩ :: fs => (t :: fs.map Frame.taker) :: heldTakers fs

/-- The order of a running call is a placed order, with what is left of it. -/
def Incoming (trace : List Event) (t : CMPContractDex) : Prop :=
  ∃ o, Event.placed o ∈ trace ∧ t = o.withAmount (takerLeft o.ident trace)

/-- What the trace, the running calls and the book have to do with each other, whatever the places of
    the orders are. -/
structure OrdersKnown (w : World) : Prop where
  book : BookWf w.state
  amounts : ∀ o, Resting w.state o → 0 ≤ o.amountForsale
  keys : ∀ o, Resting w.state o → ∃ o', Event.placed o' ∈ w.trace ∧ o'.key = o.key
  fresh : ∀ o, Event.placed o ∈ w.trace → o.serial < w.nextSerial o.property
  once : ∀ o o', Event.placed o ∈ w.trace → Event.placed o' ∈ w.trace → o.ident = o'.ident → o = o'
  takers : ∀ f ∈ w.frames, Incoming w.trace f.taker
  takersOnce : w.frames.Pairwise fun f g => f.taker.ident ≠ g.taker.ident
  opened : openTakers w.trace = heldTakers w.frames

/-- The places of the running orders that would rest are free and different. -/
structure PlacesFree (w : World) : Prop where
  free : ∀ f ∈ w.frames, 0 < f.taker.amountForsale → FreePlace w.state f.taker
  apart : w.frames.Pairwise fun f g =>
    0 < f.taker.amountForsale → 0 < g.taker.amountForsale → ¬ SamePlace f.taker g.taker

/-- As long as orders are placed apart, places are free and nothing is lost. -/
structure RestInv (w : World) : Prop where
  known : OrdersKnown w
  places : Along Event.PlacedApart w.trace → PlacesFree w
  kept : Along Event.PlacedApart w.trace →
    NothingLost (w.frames.map Frame.taker) w.state w.trace

/-! ## Steps that place, match and erase nothing -/

/-- A step that writes to the ledger only. -/
theorem RestInv.quiet {w w' : World} (h : RestInv w) (ht : w'.trace = w.trace)
    (hf : w'.frames = w.frames) (hn : w'.nextSerial = w.nextSerial)
    (hbook : w'.state.contractdex = w.state.contractdex) : RestInv w' where
  known :=
    { book := (bookWf_congr hbook).mpr h.known.book
      amounts := fun o ho => h.known.amounts o ((resting_congr hbook o).mp ho)
      keys := fun o ho => ht ▸ h.known.keys o ((resting_congr hbook o).mp ho)
      fresh := by rw [ht, hn]; exact h.known.fresh
      once := by rw [ht]; exact h.known.once
      takers := by rw [ht, hf]; exact h.known.takers
      takersOnce := by rw [hf]; exact h.known.takersOnce
      opened := by rw [ht, hf]; exact h.known.opened }
  places := by
    intro hok
    rw [ht] at hok
    have hp := h.places hok
    constructor
    · rw [hf]
      exact fun f hm hpos => (freePlace_congr hbook _).mpr (hp.free f hm hpos)
    · rw [hf]
      exact hp.apart
  kept := by
    intro hok o
    rw [ht] at hok ⊢
    rw [hf, resting_congr hbook]
    exact h.kept hok o

/-- A step that notes an idle event. -/
theorem RestInv.idle {w w' : World} {e : Event} (h : RestInv w) (he : e.Idle)
    (ht : w'.trace = e :: w.trace) (hf : w'.frames = w.frames) (hn : w'.nextSerial = w.nextSerial)
    (hbook : w'.state.contractdex = w.state.contractdex) : RestInv w' := by
  have hbefore : Along Event.PlacedApart w'.trace → Along Event.PlacedApart w.trace := by
    rw [ht]
    exact fun hok => hok.2
  have hincoming : ∀ t, Incoming w.trace t → Incoming w'.trace t := by
    rintro t ⟨o, ho, htaker⟩
    rw [ht]
    exact ⟨o, (placed_idle he o).mpr ho, by rw [takerLeft_idle he]; exact htaker⟩
  refine ⟨⟨(bookWf_congr hbook).mpr h.known.book, ?_, ?_, ?_, ?_, ?_, ?_, ?_⟩, fun hok => ?_,
    fun hok => ?_⟩
  · exact fun o ho => h.known.amounts o ((resting_congr hbook o).mp ho)
  · intro o ho
    obtain ⟨o', ho', hk⟩ := h.known.keys o ((resting_congr hbook o).mp ho)
    rw [ht]
    exact ⟨o', (placed_idle he o').mpr ho', hk⟩
  · intro o ho
    rw [ht, placed_idle he] at ho
    rw [hn]
    exact h.known.fresh o ho
  · intro o o' ho ho'
    rw [ht, placed_idle he] at ho ho'
    exact h.known.once o o' ho ho'
  · rw [hf]
    exact fun f hm => hincoming _ (h.known.takers f hm)
  · rw [hf]
    exact h.known.takersOnce
  · rw [ht, hf, openTakers_idle he]
    exact h.known.opened
  · have hp := h.places (hbefore hok)
    constructor
    · rw [hf]
      exact fun f hm hpos => (freePlace_congr hbook _).mpr (hp.free f hm hpos)
    · rw [hf]
      exact hp.apart
  · intro o ho hleft
    rw [ht, placed_idle he] at ho
    rw [ht, takerLeft_idle he] at hleft ⊢
    rw [hf, resting_congr hbook]
    rcases h.kept (hbefore hok) o ho hleft with hrun | htaken | hrest
    · exact Or.inl hrun
    · exact Or.inr (Or.inl (takenFromBook_cons htaken))
    · exact Or.inr (Or.inr hrest)

/-! ## Placing an order -/

theorem SamePlace.symm {a b : CMPContractDex} (h : SamePlace a b) : SamePlace b a :=
  ⟨h.1.symm, h.2.1.symm, h.2.2.symm⟩

/-- Every running order of the innermost calls is known to the trace. -/
theorem OrdersKnown.running {w : World} (h : OrdersKnown w) {p : PropertyId} (hset : Settling w p) :
    runningOrders w.trace = w.frames.map Frame.taker := by
  obtain ⟨t, pold, pnew, fs, hf, -⟩ := hset
  unfold runningOrders
  rw [h.opened, hf]
  rfl

/-- An order that is placed apart finds its place free and different from those of the running
    orders. -/
theorem RestInv.placedApart {w : World} {o : CMPContractDex} (h : RestInv w) {pre : State}
    (hpre : w.trace.head?.bind Event.pre? = some pre)
    (hbook : w.state.contractdex = pre.contractdex)
    (hrun : w.frames = [] ∨ ∃ p, Settling w p)
    (hapart : (Event.placed o).PlacedApart w.trace) (hpos : 0 < o.amountForsale) :
    FreePlace w.state o ∧ ∀ f ∈ w.frames, 0 < f.taker.amountForsale → ¬ SamePlace o f.taker := by
  have hcond := hapart hpos
  split at hcond
  · -- the key of the liquidation orders
    obtain ⟨hfree, hother⟩ := hcond
    refine ⟨(freePlace_congr hbook o).mpr (hfree pre hpre), fun f hf hfpos hplace => ?_⟩
    rcases hrun with hnil | ⟨p, hset⟩
    · rw [hnil] at hf
      cases hf
    · refine hother f.taker ?_ hfpos hplace.symm
      rw [h.known.running hset]
      exact List.mem_map_of_mem hf
  · -- a key that no placed order had
    refine ⟨freePlace_of_key h.known.book fun x hx hk => ?_, fun f hf _ hplace => ?_⟩
    · obtain ⟨o', ho', hk'⟩ := h.known.keys x hx
      exact hcond o' ho' (hk'.trans hk)
    · obtain ⟨o', ho', ht⟩ := h.known.takers f hf
      have hk := hplace.2.2
      rw [ht, withAmount_key] at hk
      exact hcond o' ho' hk.symm

theorem OrdersKnown.ident_ne {w : World} (h : OrdersKnown w) {o x : CMPContractDex}
    (hserial : o.serial = w.nextSerial o.property) (hx : Event.placed x ∈ w.trace) :
    o.ident ≠ x.ident := by
  intro heq
  have hlt := h.fresh x hx
  obtain ⟨hp, hs⟩ := Prod.mk.inj heq
  rw [← hs, ← hp, hserial] at hlt
  exact lt_irrefl _ hlt

/-- A new order starts matching. -/
theorem OrdersKnown.place {w : World} {o : CMPContractDex} (h : OrdersKnown w)
    (hserial : o.serial = w.nextSerial o.property) : OrdersKnown (w.place o) where
  book := h.book
  amounts := h.amounts
  keys := by
    intro x hx
    obtain ⟨o', ho', hk⟩ := h.keys x hx
    exact ⟨o', List.mem_cons_of_mem _ ho', hk⟩
  fresh := by
    intro x hx
    show x.serial < Function.update w.nextSerial o.property (w.nextSerial o.property + 1) x.property
    rcases List.mem_cons.mp hx with hxo | hx
    · cases hxo
      rw [Function.update_self, hserial]
      exact Nat.lt_succ_self _
    · have hlt := h.fresh x hx
      by_cases hp : x.property = o.property
      · rw [hp, Function.update_self]
        rw [hp] at hlt
        exact Nat.lt_succ_of_lt hlt
      · rw [Function.update_of_ne hp]
        exact hlt
  once := by
    intro x y hx hy heq
    rcases List.mem_cons.mp hx with hxo | hx
    · cases hxo
      rcases List.mem_cons.mp hy with hyo | hy
      · cases hyo
        rfl
      · exact absurd heq (h.ident_ne hserial hy)
    · rcases List.mem_cons.mp hy with hyo | hy
      · cases hyo
        exact absurd heq.symm (h.ident_ne hserial hx)
      · exact h.once x y hx hy heq
  takers := by
    intro f hf
    rcases List.mem_cons.mp hf with rfl | hf
    · refine ⟨o, List.mem_cons_self, ?_⟩
      show o = o.withAmount (if o.ident = o.ident then o.amountForsale else _)
      rw [if_pos rfl]
      rfl
    · obtain ⟨x, hx, ht⟩ := h.takers f hf
      refine ⟨x, List.mem_cons_of_mem _ hx, ?_⟩
      show f.taker = x.withAmount (if o.ident = x.ident then o.amountForsale else _)
      rw [if_neg (h.ident_ne hserial hx)]
      exact ht
  takersOnce := by
    refine List.pairwise_cons.mpr ⟨fun g hg => ?_, h.takersOnce⟩
    obtain ⟨x, hx, ht⟩ := h.takers g hg
    rw [ht, withAmount_ident]
    exact h.ident_ne hserial hx
  opened := h.opened

theorem RestInv.place {w : World} {o : CMPContractDex} {pre : State} (h : RestInv w)
    (hserial : o.serial = w.nextSerial o.property)
    (hpre : w.trace.head?.bind Event.pre? = some pre)
    (hbook : w.state.contractdex = pre.contractdex)
    (hrun : w.frames = [] ∨ ∃ p, Settling w p) : RestInv (w.place o) where
  known := h.known.place hserial
  places := by
    rintro ⟨hapart, hok⟩
    have hp := h.places hok
    have hnew := h.placedApart hpre hbook hrun hapart
    constructor
    · intro f hf hpos
      rcases List.mem_cons.mp hf with rfl | hf
      · exact (hnew hpos).1
      · exact hp.free f hf hpos
    · exact List.pairwise_cons.mpr ⟨fun g hg hpos => (hnew hpos).2 g hg, hp.apart⟩
  kept := by
    rintro ⟨-, hok⟩ x hx hleft
    rcases List.mem_cons.mp hx with hxo | hx
    · cases hxo
      exact Or.inl ⟨o, List.mem_cons_self, rfl⟩
    · have hleft' : takerLeft x.ident (w.place o).trace = takerLeft x.ident w.trace :=
        if_neg (h.known.ident_ne hserial hx)
      rw [hleft'] at hleft ⊢
      rcases h.kept hok x hx hleft with ⟨t, ht, hid⟩ | htaken | hrest
      · exact Or.inl ⟨t, List.mem_cons_of_mem _ ht, hid⟩
      · exact Or.inr (Or.inl (takenFromBook_cons htaken))
      · exact Or.inr (Or.inr hrest)

/-! ## Matching -/

section Match

variable {w : World} {fs : List Frame} {price : Nat} {key : OrderKey} {pold pnew : CMPContractDex}

theorem incomingAfter_eq (s : State) (pold pnew : CMPContractDex) :
    incomingAfter s pold pnew = pnew.withAmount (incomingAfter s pold pnew).amountForsale := by
  obtain ⟨r, hr⟩ := (remainders_shape s pold pnew).2
  unfold incomingAfter
  rw [hr]
  rfl

/-- The world after a match. -/
def afterFill (w : World) (s' : State) (pold pnew : CMPContractDex) : World :=
  { w with
    state := s'
    frames := ⟨incomingAfter w.state pold pnew, some (pold, pnew)⟩ :: w.frames.tail
    trace := .matched w.state w.frames.tail pold pnew :: w.trace }

theorem takerLeft_filled {n : OrderId} (hn : pnew.ident ≠ n) (s' : State) :
    takerLeft n (afterFill w s' pold pnew).trace = takerLeft n w.trace := if_neg hn

theorem placed_filled (s' : State) (o : CMPContractDex) :
    Event.placed o ∈ (afterFill w s' pold pnew).trace ↔ Event.placed o ∈ w.trace := by
  simp [afterFill]

theorem OrdersKnown.fill {s' : State} (h : OrdersKnown w) (hf : w.frames = ⟨pnew, none⟩ :: fs)
    (hbook : s'.contractdex = w.state.contractdex) :
    OrdersKnown (afterFill w s' pold pnew) where
  book := (bookWf_congr hbook).mpr h.book
  amounts := fun o ho => h.amounts o ((resting_congr hbook o).mp ho)
  keys := by
    intro o ho
    obtain ⟨o', ho', hk⟩ := h.keys o ((resting_congr hbook o).mp ho)
    exact ⟨o', (placed_filled s' o').mpr ho', hk⟩
  fresh := fun o ho => h.fresh o ((placed_filled s' o).mp ho)
  once := fun o o' ho ho' => h.once o o' ((placed_filled s' o).mp ho) ((placed_filled s' o').mp ho')
  takers := by
    intro f hmem
    unfold afterFill at hmem
    rw [hf, List.tail_cons] at hmem
    rcases List.mem_cons.mp hmem with rfl | hmem
    · obtain ⟨o, ho, ht⟩ := h.takers ⟨pnew, none⟩ (hf ▸ List.mem_cons_self)
      have ht' : pnew = o.withAmount (takerLeft o.ident w.trace) := ht
      have hid : pnew.ident = o.ident := by rw [ht', withAmount_ident]
      have hleft : takerLeft o.ident (afterFill w s' pold pnew).trace =
          (incomingAfter w.state pold pnew).amountForsale := if_pos hid
      refine ⟨o, (placed_filled s' o).mpr ho, ?_⟩
      rw [hleft]
      show incomingAfter w.state pold pnew = _
      rw [incomingAfter_eq w.state pold pnew, ht', withAmount_withAmount]
      rfl
    · obtain ⟨o, ho, ht⟩ := h.takers f (hf ▸ List.mem_cons_of_mem _ hmem)
      have hne : pnew.ident ≠ o.ident := by
        have honce := h.takersOnce
        rw [hf] at honce
        have hne := (List.pairwise_cons.mp honce).1 f hmem
        rwa [ht, withAmount_ident] at hne
      exact ⟨o, (placed_filled s' o).mpr ho, by rw [takerLeft_filled hne]; exact ht⟩
  takersOnce := by
    have honce := h.takersOnce
    unfold afterFill
    rw [hf, List.pairwise_cons] at honce
    rw [hf, List.tail_cons, List.pairwise_cons]
    refine ⟨fun g hg => ?_, honce.2⟩
    have hne := honce.1 g hg
    rw [incomingAfter_eq]
    exact hne
  opened := by
    show (incomingAfter w.state pold pnew :: w.frames.tail.map Frame.taker) :: openTakers w.trace = _
    rw [h.opened]
    unfold afterFill
    rw [hf]
    rfl

theorem RestInv.fill {s' : State} (h : RestInv w) (hf : w.frames = ⟨pnew, none⟩ :: fs)
    (hc : Candidate w.state price key pold pnew) (hbook : s'.contractdex = w.state.contractdex) :
    RestInv (afterFill w s' pold pnew) where
  known := h.known.fill hf hbook
  places := by
    rintro ⟨-, hok⟩
    have hp := h.places hok
    have hfree := hp.free
    have hapart := hp.apart
    rw [hf] at hfree hapart
    -- an order that is used up does not become an order for something
    have hpos : 0 < (incomingAfter w.state pold pnew).amountForsale → 0 < pnew.amountForsale :=
      incomingAfter_pos (h.known.amounts pold (h.known.book.resting hc.inBook))
    have heq := incomingAfter_eq w.state pold pnew
    unfold afterFill
    rw [hf, List.tail_cons]
    constructor
    · intro f hmem hfpos
      rw [freePlace_congr hbook]
      rcases List.mem_cons.mp hmem with rfl | hmem
      · have hplace := hfree ⟨pnew, none⟩ List.mem_cons_self (hpos hfpos)
        show FreePlace w.state (incomingAfter w.state pold pnew)
        rw [heq]
        exact hplace
      · exact hfree f (List.mem_cons_of_mem _ hmem) hfpos
    · rw [List.pairwise_cons] at hapart ⊢
      refine ⟨fun g hg hnpos hgpos => ?_, hapart.2⟩
      have hdiff := hapart.1 g hg (hpos hnpos) hgpos
      show ¬ SamePlace (incomingAfter w.state pold pnew) g.taker
      rw [heq]
      exact hdiff
  kept := by
    rintro ⟨-, hok⟩ o ho hleft
    rw [placed_filled] at ho
    by_cases hid : pnew.ident = o.ident
    · refine Or.inl ⟨incomingAfter w.state pold pnew, List.mem_cons_self, ?_⟩
      rw [incomingAfter_eq]
      exact hid
    · rw [takerLeft_filled hid] at hleft ⊢
      rcases h.kept hok o ho hleft with ⟨t, ht, htid⟩ | htaken | hrest
      · left
        rw [hf] at ht
        rcases List.mem_cons.mp ht with rfl | ht
        · exact absurd htid hid
        · refine ⟨t, List.mem_cons_of_mem _ ?_, htid⟩
          rw [hf]
          exact ht
      · exact Or.inr (Or.inl (takenFromBook_cons htaken))
      · exact Or.inr (Or.inr ((resting_congr hbook _).mpr hrest))

end Match

/-! ## Erasing a matched order -/

section Erase

variable {w : World} {fs : List Frame} {pold pnew : CMPContractDex} {rem : Remainders} {s0 : State}

/-- The world after a matched order was replaced by what remains of it. -/
def afterErase (w : World) (pold pnew : CMPContractDex) (rem : Remainders) : World :=
  { w with
    state := w.state.setContractLevel pnew.property pold.effectivePrice
      (replaceMatched (w.state.contractLevel pnew.property pold.effectivePrice) pold.key pold pnew rem)
    frames := ⟨rem.pnew, none⟩ :: w.frames.tail
    trace := .erased pold true :: w.trace }

theorem placed_erased (o : CMPContractDex) :
    Event.placed o ∈ (afterErase w pold pnew rem).trace ↔ Event.placed o ∈ w.trace := by
  simp [afterErase]

/-- Erasing leaves the running orders as they are. -/
theorem frames_erased (hf : w.frames = ⟨rem.pnew, some (pold, pnew)⟩ :: fs) :
    (afterErase w pold pnew rem).frames.map Frame.taker = w.frames.map Frame.taker := by
  unfold afterErase
  rw [hf]
  rfl

theorem RestInv.erase (h : RestInv w) (hrem : rem = remainders (parties s0 pold pnew) pold pnew)
    (hprop : pold.property = pnew.property)
    (hf : w.frames = ⟨rem.pnew, some (pold, pnew)⟩ :: fs) (hold : Resting w.state pold)
    (htaken : TakenFromBook pold.ident w.trace) : RestInv (afterErase w pold pnew rem) := by
  have hshape : ∃ r, rem.replacement = { pold with amountForsale := r } := by
    rw [hrem]
    exact (remainders_shape s0 pold pnew).1
  have hrest : ∀ {o}, Resting (afterErase w pold pnew rem).state o ↔
      (Resting w.state o ∧ o ≠ pold) ∨
        (o = rem.replacement ∧ pold.amountForsale ≠ pnew.amountForsale) :=
    resting_replaceMatched hold hprop hshape
  have hwf : BookWf (afterErase w pold pnew rem).state :=
    h.known.book.replaceMatched hprop hshape
  -- what remains has the place of the matched order
  have hsub : ∀ o, Resting (afterErase w pold pnew rem).state o →
      ∃ o', Resting w.state o' ∧ SamePlace o' o := by
    intro o ho
    rcases hrest.mp ho with ⟨ho', -⟩ | ⟨rfl, -⟩
    · exact ⟨o, ho', rfl, rfl, rfl⟩
    · obtain ⟨r, hr⟩ := hshape
      rw [hr]
      exact ⟨pold, hold, rfl, rfl, rfl⟩
  have hmem : ∀ {f}, f ∈ (afterErase w pold pnew rem).frames → ∃ g ∈ w.frames, g.taker = f.taker := by
    intro f hf'
    have htaker : f.taker ∈ w.frames.map Frame.taker :=
      frames_erased hf ▸ List.mem_map_of_mem hf'
    obtain ⟨g, hg, heq⟩ := List.mem_map.mp htaker
    exact ⟨g, hg, heq⟩
  have hpair : ∀ {R : CMPContractDex → CMPContractDex → Prop},
      w.frames.Pairwise (fun f g => R f.taker g.taker) →
      (afterErase w pold pnew rem).frames.Pairwise fun f g => R f.taker g.taker := by
    intro R hR
    rw [← List.pairwise_map (f := Frame.taker)] at hR ⊢
    rw [frames_erased hf]
    exact hR
  refine ⟨⟨hwf, ?_, ?_, ?_, ?_, ?_,
    hpair (R := fun a b => a.ident ≠ b.ident) h.known.takersOnce, ?_⟩, ?_, ?_⟩
  · intro o ho
    rcases hrest.mp ho with ⟨ho', -⟩ | ⟨rfl, -⟩
    · exact h.known.amounts o ho'
    · rw [hrem]
      exact replacement_nonneg (h.known.amounts pold hold)
  · intro o ho
    obtain ⟨o', ho', hplace⟩ := hsub o ho
    obtain ⟨x, hx, hk⟩ := h.known.keys o' ho'
    exact ⟨x, (placed_erased x).mpr hx, hk.trans hplace.2.2⟩
  · exact fun o ho => h.known.fresh o ((placed_erased o).mp ho)
  · exact fun o o' ho ho' => h.known.once o o' ((placed_erased o).mp ho) ((placed_erased o').mp ho')
  · intro f hf'
    obtain ⟨g, hg, heq⟩ := hmem hf'
    obtain ⟨o, ho, ht⟩ := h.known.takers g hg
    exact ⟨o, (placed_erased o).mpr ho, by rw [← heq, ht]; rfl⟩
  · show (openTakers w.trace).tail = _
    rw [h.known.opened]
    unfold afterErase
    rw [hf]
    rfl
  · rintro ⟨-, hok⟩
    have hp := h.places hok
    refine ⟨fun f hf' hpos => ?_, hpair
      (R := fun a b => 0 < a.amountForsale → 0 < b.amountForsale → ¬ SamePlace a b) hp.apart⟩
    obtain ⟨g, hg, heq⟩ := hmem hf'
    rw [← heq] at hpos ⊢
    exact freePlace_of_subset hwf hsub (hp.free g hg hpos)
  · rintro ⟨-, hok⟩ o ho hleft
    rw [placed_erased] at ho
    have hleft' : takerLeft o.ident (afterErase w pold pnew rem).trace = takerLeft o.ident w.trace :=
      rfl
    rw [hleft'] at hleft ⊢
    rw [frames_erased hf]
    rcases h.kept hok o ho hleft with hrun | htaken' | hold'
    · exact Or.inl hrun
    · exact Or.inr (Or.inl (takenFromBook_cons htaken'))
    · by_cases heq : o.withAmount (takerLeft o.ident w.trace) = pold
      · -- the matched order itself
        rw [← heq, withAmount_ident] at htaken
        exact Or.inr (Or.inl (takenFromBook_cons htaken))
      · exact Or.inr (Or.inr (hrest.mpr (Or.inl ⟨hold', heq⟩)))

end Erase

/-! ## Coming to rest -/

/-- A place stays free if another order comes to rest. -/
theorem freePlace_restState {s : State} (hwf : BookWf s) {n x : CMPContractDex}
    (h : FreePlace s x) (hne : 0 < n.amountForsale → ¬ SamePlace n x) :
    FreePlace (restState s n) x := by
  unfold FreePlace
  by_contra hsome
  obtain ⟨o, ho⟩ := Option.ne_none_iff_exists'.mp hsome
  obtain ⟨hp, hr, hk⟩ := (hwf.restState n) _ _ _ o ho
  rcases resting_restState.mp ((hwf.restState n).resting ho) with hold | ⟨rfl, hpos, -⟩
  · unfold Resting at hold
    unfold FreePlace at h
    rw [hp, hr, hk, h] at hold
    cases hold
  · exact hne hpos ⟨hp, hr, hk⟩

/-- The matching of an order ends. -/
theorem RestInv.rest {w : World} {fs : List Frame} {o : CMPContractDex} (h : RestInv w)
    (hf : w.frames = ⟨o, none⟩ :: fs) :
    RestInv { w with state := restState w.state o, frames := w.frames.tail } := by
  obtain ⟨x, hx, htaker⟩ := h.known.takers ⟨o, none⟩ (hf ▸ List.mem_cons_self)
  have ho : o = x.withAmount (takerLeft x.ident w.trace) := htaker
  have htail : ∀ f ∈ w.frames.tail, f ∈ w.frames := fun f hmem => List.mem_of_mem_tail hmem
  refine ⟨⟨h.known.book.restState o, ?_, ?_, h.known.fresh, h.known.once,
    fun f hmem => h.known.takers f (htail f hmem), ?_, ?_⟩, ?_, ?_⟩
  · intro y hy
    rcases resting_restState.mp hy with hold | ⟨rfl, hpos, -⟩
    · exact h.known.amounts y hold
    · exact hpos.le
  · intro y hy
    rcases resting_restState.mp hy with hold | ⟨rfl, -, -⟩
    · exact h.known.keys y hold
    · exact ⟨x, hx, by rw [ho, withAmount_key]⟩
  · have honce := h.known.takersOnce
    rw [hf] at honce ⊢
    exact (List.pairwise_cons.mp honce).2
  · show openTakers w.trace = heldTakers w.frames.tail
    rw [h.known.opened, hf]
    rfl
  · intro hok
    have hp := h.places hok
    have hapart := hp.apart
    rw [hf] at hapart
    constructor
    · intro f hmem hpos
      refine freePlace_restState h.known.book (hp.free f (htail f hmem) hpos) fun hopos => ?_
      have hmem' : f ∈ fs := by
        have hmem'' : f ∈ w.frames.tail := hmem
        rwa [hf] at hmem''
      exact (List.pairwise_cons.mp hapart).1 f hmem' hopos hpos
    · show w.frames.tail.Pairwise _
      rw [hf]
      exact (List.pairwise_cons.mp hapart).2
  · intro hok y hy hleft
    rcases h.kept hok y hy hleft with ⟨t, ht, hid⟩ | htaken | hrest
    · rw [hf] at ht
      rcases List.mem_cons.mp ht with hto | ht
      · -- the order whose matching ends: its place is free
        have hxy : x = y := by
          refine h.known.once x y hx hy ?_
          rw [← hid, hto]
          show x.ident = o.ident
          rw [ho, withAmount_ident]
        subst hxy
        have hpos : 0 < o.amountForsale := by
          rw [ho]
          exact hleft
        have hfree := (h.places hok).free ⟨o, none⟩ (hf ▸ List.mem_cons_self) hpos
        exact Or.inr (Or.inr (resting_restState.mpr (Or.inr ⟨ho.symm, hpos, hfree⟩)))
      · refine Or.inl ⟨t, ?_, hid⟩
        show t ∈ w.frames.tail.map Frame.taker
        rw [hf]
        exact ht
    · exact Or.inr (Or.inl htaken)
    · exact Or.inr (Or.inr (resting_restState.mpr (Or.inl hrest)))

/-! ## Whole runs -/

/-- Nothing is lost, wherever the run stands. -/
def KeepsOrders (w : World) : Prop :=
  Along Event.PlacedApart w.trace → NothingLost (w.frames.map Frame.taker) w.state w.trace

theorem restInv_engine : EngineInv RestInv fun e w => e.Stops ∨ KeepsOrders w where
  condition := fun _ _ _ => Or.inl trivial
  visit := by
    intro w fs price key pold pnew hI _ _
    refine wp_mono (visitCandidate_spec pold pnew w) ?_ (fun _ _ h => Or.inl h.1)
    rintro _ w' ⟨m, -, rfl⟩
    exact hI.idle (e := .candidate w.state pold pnew) trivial rfl rfl rfl rfl
  fill := by
    intro w fs price key pold pnew hI hf hc _
    refine wp_mono (fillOrder_spec pold pnew w) ?_ (fun _ _ h => Or.inl h.1)
    rintro rem w' ⟨rfl, s', mp, basisS, basisB, rS, rB, value, heff, rfl⟩
    exact hI.fill hf hc (by rw [heff.state])
  check := by
    intro w p a last hI _
    exact hI.idle (e := .marginCheck w.state p a last) trivial rfl rfl rfl rfl
  call := by
    intro w p a last rest hI hset _ ht
    have hpre : w.trace.head?.bind Event.pre? = some w.state := by rw [ht]; rfl
    exact hI.place rfl hpre rfl (Or.inr ⟨p, hset⟩)
  reset := by
    intro w s p a last liq hI _ _ _
    rw [wp_onState]
    refine wp_mono (assertUpdate_posts _ _ _ _ w.state) ?_ (fun _ _ h => Or.inl h)
    rintro _ s' ⟨m, rfl, -⟩
    exact hI.quiet rfl rfl rfl rfl
  erase := by
    intro w w0 fs price key pold pnew rem hI hI0 hsuf hc hrem hf
    refine wp_mono (eraseMatched_spec price key pold pnew rem w) ?_ ?_
    · rintro _ w' ⟨hplace, rfl⟩
      obtain ⟨-, hprice, hkey⟩ := hI.known.book _ _ _ _ hplace
      have htaken : TakenFromBook pold.ident w.trace :=
        ⟨_, _, _, _, hsuf.subset List.mem_cons_self, rfl⟩
      have herase := hI.erase hrem hc.property hf (hI.known.book.resting hplace) htaken
      rw [← hprice, ← hkey]
      exact herase
    · rintro e w' ⟨rfl, -⟩
      exact Or.inl trivial
  rest := by
    intro w fs o hI hf
    refine wp_imp (restOrder_spec o w _) ?_
    rintro _ w' rfl
    exact hI.rest hf
  fuel := fun hI => Or.inr hI.kept
  undefined := fun _ => Or.inl trivial

/-- Trades and creations, no cancels. -/
def ContractOp.KeepsBook : ContractOp → Prop
  | .cancel _ => False
  | _ => True

theorem restInv_run :
    RunInv ContractOp.KeepsBook RestInv fun e w => e.Stops ∨ KeepsOrders w where
  toEngineInv := restInv_engine
  stops := fun _ _ h => Or.inl h
  submit := by
    intro w op _ hI _
    exact hI.idle (e := .submitted w.state op) trivial rfl rfl rfl rfl
  reserve := by
    intro w tx m _ hI hf htrace _ _
    obtain ⟨rest, ht⟩ := htrace
    have hres : RestInv (reservedWorld w tx m) := hI.quiet rfl rfl rfl rfl
    have hpre : w.trace.head?.bind Event.pre? = some w.state := by rw [ht]; rfl
    exact ⟨fun _ => hres, fun _ => hres.place rfl hpre rfl (Or.inl hf)⟩
  created := by
    intro w tx h _ hI _ _
    exact hI.quiet rfl rfl rfl rfl

/-- **NO ORDER IS LOST** in a run of trades from an empty book in which orders are placed apart: what
    was left of an order when its matching ended is in the book, unless it was matched there. -/
theorem remainders_rest (s : State) (hs : s.contractdex = ∅) (fuel : Nat) (ops : List ContractOp)
    (hops : ∀ op ∈ ops, op.KeepsBook) :
    wp (runContracts fuel ops)
      (fun _ w => Along Event.PlacedApart w.trace → NothingLost [] w.state w.trace)
      (fun e w => e.Stops ∨ KeepsOrders w) (World.start s) := by
  have hstart : RestInv (World.start s) := by
    refine ⟨⟨bookWf_empty hs, ?_, ?_, ?_, ?_, ?_, ?_, rfl⟩, fun _ => ⟨?_, ?_⟩, fun _ => ?_⟩
    · exact fun o ho => absurd ho (not_resting_empty hs o)
    · exact fun o ho => absurd ho (not_resting_empty hs o)
    · exact fun o ho => nomatch ho
    · exact fun o o' ho => nomatch ho
    · exact fun f hmem => nomatch hmem
    · exact List.Pairwise.nil
    · exact fun f hmem => nomatch hmem
    · exact List.Pairwise.nil
    · exact fun o ho => nomatch ho
  refine wp_imp (runContracts_rule restInv_run fuel ops hops hstart rfl) ?_
  rintro _ w ⟨hI, hf⟩ hok
  have hkept := hI.kept hok
  rw [hf] at hkept
  exact hkept

set_option maxRecDepth 4000 in
private theorem quietTrade_placedApart :
    (returned (runContracts 3 quietTrade) (World.start fundedState)).map
      (fun w => decide (Along Event.PlacedApart w.trace)) = some true := by
  decide +kernel

/-- `A` bids for a contract, `B` sells it. -/
theorem remainders_rest_quietTrade :
    ∃ w, runContracts 3 quietTrade (World.start fundedState) = .ok () w ∧
      NothingLost [] w.state w.trace := by
  have hops : ∀ op ∈ quietTrade, op.KeepsBook := by simp [quietTrade, ContractOp.KeepsBook]
  obtain ⟨w, hrun, hapart⟩ := exists_ok_of_returned quietTrade_placedApart
  exact ⟨w, hrun, wp_ok (remainders_rest fundedState rfl 3 quietTrade hops) hrun hapart⟩

/-! ## Two liquidations at one price -/

/-- Six traders with 100 of property 1 each. -/
def sixTraders : State :=
  (State.fresh openParams).withTally
    ([traderA, traderB, traderC, traderD, traderE, traderF].foldl
      (fun m a => (TallyMap.update m a 1 100 .balance).2) ∅)

/-- `F` and `D` sell contracts at a market price of 200, and `B` sells one at 100: now the liquidation
    prices of `B` and `D`, 115 and 172, are both reached. -/
def twoCalls : List ContractOp :=
  [.create (some 0) (createTx 0 1),
    .trade (orderTx traderE 6 11 1 1 200), .trade (orderTx traderF 7 12 2 1 10),
    .trade (orderTx traderC 4 13 1 1 200), .trade (orderTx traderD 5 14 2 1 150),
    .trade (orderTx traderA 2 15 1 1 100), .trade (orderTx traderB 3 16 2 1 100)]

/-- A placed order with a remainder that was not matched out of the book and does not rest. -/
def isLost (w : World) (o : CMPContractDex) : Bool :=
  decide (0 < takerLeft o.ident w.trace) &&
    w.trace.all (fun e => match e with
      | .matched _ _ pold _ => pold.ident != o.ident
      | _ => true) &&
    (w.state.contractLevel o.property o.effectivePrice)[o.key]? !=
      some (o.withAmount (takerLeft o.ident w.trace))

theorem not_nothingLost {w : World} {o : CMPContractDex} (ho : Event.placed o ∈ w.trace)
    (hlost : isLost w o = true) : ¬ NothingLost [] w.state w.trace := by
  unfold isLost at hlost
  simp only [Bool.and_eq_true, decide_eq_true_eq, bne_iff_ne] at hlost
  obtain ⟨⟨hleft, hall⟩, hplace⟩ := hlost
  intro hkept
  rcases hkept o ho hleft with ⟨t, ht, -⟩ | ⟨pre, outer, pold, pnew, hmem, hid⟩ | hrest
  · cases ht
  · have hne := List.all_eq_true.mp hall _ hmem
    simp [hid] at hne
  · exact hplace hrest

set_option maxRecDepth 4000 in
private theorem twoCalls_loses :
    (returned (runContracts 4 twoCalls) (World.start sixTraders)).map
      (fun w => w.trace.any fun e => match e with
        | .placed o => isLost w o
        | _ => false) = some true := by
  decide +kernel

/-- **THE SECOND LIQUIDATION IS LOST**: the orders of `B` and `D` are placed at 100 under the same key,
    and only that of `B` comes to rest. -/
theorem twoCalls_loses_order :
    ∃ w, returned (runContracts 4 twoCalls) (World.start sixTraders) = some w ∧
      ¬ NothingLost [] w.state w.trace := by
  obtain ⟨w, hrun, hany⟩ := Option.map_eq_some_iff.mp twoCalls_loses
  refine ⟨w, hrun, ?_⟩
  obtain ⟨e, he, hlost⟩ := List.any_eq_true.mp hany
  cases e with
  | placed o => exact not_nothingLost he hlost
  | _ => simp at hlost

/-! ## The books that are reached -/

/-- No resting order is for a negative amount. -/
def BookNonneg : State → Prop := BookOf fun o => 0 ≤ o.amountForsale

theorem bookNonneg_engine : EngineInv (fun w => BookNonneg w.state) fun _ _ => True where
  condition := fun _ _ _ => trivial
  visit := by
    intro w fs price key pold pnew hI _ _
    refine wp_mono (visitCandidate_spec pold pnew w) ?_ (fun _ _ _ => trivial)
    rintro _ w' ⟨m, -, rfl⟩
    exact hI.congr rfl
  fill := by
    intro w fs price key pold pnew hI _ _ _
    refine wp_mono (fillOrder_spec pold pnew w) ?_ (fun _ _ _ => trivial)
    rintro rem w' ⟨-, s', mp, basisS, basisB, rS, rB, value, heff, rfl⟩
    exact hI.congr (by rw [heff.state])
  check := fun _ _ hI _ => hI
  call := fun hI _ _ _ => hI
  reset := by
    intro w s p a last liq hI _ _ _
    rw [wp_onState]
    refine wp_mono (assertUpdate_posts _ _ _ _ w.state) ?_ (fun _ _ _ => trivial)
    rintro _ s' ⟨m, rfl, -⟩
    exact hI.congr rfl
  erase := by
    intro w w0 fs price key pold pnew rem hI _ _ _ hrem _
    refine wp_mono (eraseMatched_spec price key pold pnew rem w) ?_ (fun _ _ _ => trivial)
    rintro _ w' ⟨hplace, rfl⟩
    obtain ⟨hp, hr, hk⟩ := hI.wf _ _ _ _ hplace
    have hold : Resting w.state pold := hI.wf.resting hplace
    subst hrem
    rw [← hr, ← hk]
    exact hI.replaceMatched hold hp fun _ => replacement_nonneg (hI.all pold hold)
  rest := by
    intro w fs o hI _
    refine wp_imp (restOrder_spec o w _) ?_
    rintro _ w' rfl
    exact hI.restState fun hpos => hpos.le
  fuel := fun _ => trivial
  undefined := fun _ => trivial

theorem bookNonneg_run :
    RunInv (fun _ => True) (fun w => BookNonneg w.state) fun _ _ => True where
  toEngineInv := bookNonneg_engine
  stops := fun _ _ _ => trivial
  submit := fun _ _ hI _ => hI
  reserve := fun _ hI _ _ _ _ => ⟨fun _ => hI.congr rfl, fun _ => hI.congr rfl⟩
  created := fun _ hI _ _ => hI.congr rfl

/-- The states that a node reaches from an empty contract book: contract transactions run to their
    end, and whatever else happens leaves the book alone. -/
inductive BookReached : State → Prop
  | empty {s : State} (h : s.contractdex = ∅) : BookReached s
  | run {s : State} {w : World} {fuel : Nat} {ops : List ContractOp} (h : BookReached s)
      (hrun : runContracts fuel ops (World.start s) = .ok () w) : BookReached w.state
  | other {s s' : State} (h : BookReached s) (hbook : s'.contractdex = s.contractdex) :
      BookReached s'

/-- **THE AMOUNTS OF THE BOOK ARE NOT NEGATIVE** in the states that are reached. -/
theorem BookReached.nonneg {s : State} (h : BookReached s) : BookNonneg s := by
  induction h with
  | empty h => exact bookOf_empty h
  | run _ hrun ih =>
      exact (wp_ok (runContracts_rule bookNonneg_run _ _ (by simp) ih rfl) hrun).1
  | other _ hbook ih => exact ih.congr hbook

end OmniCore
