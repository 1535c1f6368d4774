import OmniCore.MetaDExCancel

/-! # MetaDExShutdown — closing the market of all pairs

    When trading of all pairs is switched off, `MetaDEx_SHUTDOWN_ALLPAIR` should take the
    orders without OMNI or TOMNI out of the book. Its inner loop advances the iterator
    where it erases an order, and nowhere else: at the first order that has to stay the
    node hangs. So it does what it should exactly if there is none. -/

namespace OmniCore

open Std (ExtTreeMap)
open Machine TextRec MapSum Exec

/-! ## The loop -/

/-- Neither side of the order is OMNI or TOMNI. -/
def CMPMetaDEx.AllPair (o : CMPMetaDEx) : Prop :=
  omniPropertyTMSC < o.desiredProperty ∧ omniPropertyTMSC < o.property

instance (o : CMPMetaDEx) : Decidable o.AllPair := by
  unfold CMPMetaDEx.AllPair
  infer_instance

/-- The nested loops of `MetaDEx_SHUTDOWN_ALLPAIR` from the order at the iterator on, for a number of
    rounds: `erase(it++)` advances the iterator, and nothing else does. -/
def shutdownRounds : Nat → List MdPlaced → ExecM Unit
  | _, [] => pure ()
  | 0, _ :: _ => throw .outOfFuel
  | rounds + 1, e :: rest =>
      if e.order.AllPair then do
        removeOrder none e
        shutdownRounds rounds rest
      else
        shutdownRounds rounds (e :: rest)

/-- `MetaDEx_SHUTDOWN_ALLPAIR`, if it ends within a number of rounds. -/
def metaDExShutdownAllPairIn (rounds : Nat) : ExecM Int := do
  let s ← get
  shutdownRounds rounds s.mdOrders
  pure 0

/-- At an order that has to stay, no number of rounds is enough. -/
theorem shutdownRounds_hangs {l : List MdPlaced} (h : ∃ e ∈ l, ¬ e.order.AllPair) (rounds : Nat) :
    ∀ (s s' : State), shutdownRounds rounds l s ≠ .ok () s' := by
  induction rounds generalizing l with
  | zero =>
      intro s s' hrun
      cases l with
      | nil =>
          obtain ⟨e, he, _⟩ := h
          cases he
      | cons e rest => cases hrun
  | succ rounds ih =>
      intro s s' hrun
      cases l with
      | nil =>
          obtain ⟨e, he, _⟩ := h
          cases he
      | cons e rest =>
          rw [shutdownRounds] at hrun
          by_cases hpair : e.order.AllPair
          · -- this order is erased, and the one that stays comes later
            rw [if_pos hpair] at hrun
            obtain ⟨_, s1, _, hrest⟩ := bind_ok hrun
            obtain ⟨x, hx, hstays⟩ := h
            refine ih ⟨x, ?_, hstays⟩ s1 s' hrest
            rcases List.mem_cons.mp hx with rfl | hx
            · exact absurd hpair hstays
            · exact hx
          · rw [if_neg hpair] at hrun
            exact ih ⟨e, List.mem_cons_self, hpair⟩ s s' hrun

/-- If every order is erased, each takes one round. -/
theorem shutdownRounds_eq {l : List MdPlaced} (h : ∀ e ∈ l, e.order.AllPair) :
    shutdownRounds l.length l = l.forM (removeOrder none) := by
  induction l with
  | nil => rfl
  | cons e rest ih =>
      have hpair : e.order.AllPair := h e List.mem_cons_self
      rw [List.length_cons, shutdownRounds, if_pos hpair,
        ih fun x hx => h x (List.mem_cons_of_mem e hx)]
      rfl

/-- **THE LOOP OF A SHUTDOWN**: if the reserves cover the orders of a list, all of them are taken out,
    and nothing else changes. -/
theorem shutdownOrders_spec (l : List MdPlaced) : ∀ (s : State), Covers s l →
    wp (l.forM (removeOrder none)) (fun _ s' => TakenOut l s s' ∧
      s' = { s with tallyMap := s'.tallyMap, metadex := s'.metadex }) (fun _ _ => False) s := by
  induction l with
  | nil =>
      intro s _
      rw [wp_forM_nil]
      exact ⟨TakenOut.nil s, rfl⟩
  | cons e rest ih =>
      intro s hcovers
      rw [wp_forM_cons]
      have hone : wp (removeOrder none e) (fun _ s1 => TakenOut [e] s s1 ∧
          s1 = { s with tallyMap := s1.tallyMap, metadex := s1.metadex }) (fun _ _ => False) s := by
        unfold removeOrder
        refine wp_move (hcovers.pos e List.mem_cons_self) hcovers.head trivial trivial
          (hcovers.supply _) (fun h => by cases h) fun m hm => ?_
        dsimp only
        simp only [wp_modify]
        exact ⟨takenOut_order hm rfl rfl, rfl⟩
      refine wp_imp hone fun _ s1 hfirst => ?_
      obtain ⟨htaken, hbeside⟩ := hfirst
      refine wp_imp (ih s1 (hcovers.tail htaken)) fun _ s' hlast => ?_
      obtain ⟨hrest, hbeside'⟩ := hlast
      refine ⟨htaken.cons hrest, ?_⟩
      rw [hbeside', hbeside]

/-- One order of `metaDExShutdownAllPair`, which gives up at an order that has to stay. -/
def removeAllPair (e : MdPlaced) : ExecM Unit :=
  if omniPropertyTMSC < e.order.desiredProperty ∧ omniPropertyTMSC < e.order.property then
    removeOrder none e
  else
    throw .outOfFuel

theorem removeAllPair_of_pair {e : MdPlaced} (h : e.order.AllPair) :
    removeAllPair e = removeOrder none e := if_pos h

theorem removeAllPair_of_not {e : MdPlaced} (h : ¬ e.order.AllPair) :
    removeAllPair e = throw .outOfFuel := if_neg h

/-- Giving up at such an order returns just when the rounds come to an end, and alike. -/
theorem shutdownRounds_iff (l : List MdPlaced) : ∀ (s s' : State),
    l.forM removeAllPair s = .ok () s' ↔ ∃ rounds, shutdownRounds rounds l s = .ok () s' := by
  induction l with
  | nil =>
      intro s s'
      exact ⟨fun h => ⟨0, h⟩, fun ⟨_, h⟩ => by rwa [shutdownRounds] at h⟩
  | cons e rest ih =>
      intro s s'
      by_cases hpair : e.order.AllPair
      · constructor
        · intro h
          obtain ⟨_, s1, hfirst, hrest⟩ := bind_ok h
          rw [removeAllPair_of_pair hpair] at hfirst
          obtain ⟨rounds, hrounds⟩ := (ih s1 s').mp hrest
          refine ⟨rounds + 1, ?_⟩
          rw [shutdownRounds, if_pos hpair]
          show EStateM.bind (removeOrder none e) _ s = _
          unfold EStateM.bind
          rw [hfirst]
          exact hrounds
        · rintro ⟨rounds, h⟩
          cases rounds with
          | zero => cases h
          | succ rounds =>
              rw [shutdownRounds, if_pos hpair] at h
              obtain ⟨_, s1, hfirst, hrest⟩ := bind_ok h
              show EStateM.bind (removeAllPair e) _ s = _
              unfold EStateM.bind
              rw [removeAllPair_of_pair hpair, hfirst]
              exact (ih s1 s').mpr ⟨rounds, hrest⟩
      · constructor
        · intro h
          obtain ⟨_, s1, hfirst, _⟩ := bind_ok h
          rw [removeAllPair_of_not hpair] at hfirst
          cases hfirst
        · rintro ⟨rounds, h⟩
          exact absurd h (shutdownRounds_hangs ⟨e, List.mem_cons_self, hpair⟩ rounds s s')

/-- The shutdown that a deactivation calls is this one. -/
theorem metaDExShutdownAllPair_iff (s s' : State) :
    metaDExShutdownAllPair s = .ok 0 s' ↔ ∃ rounds, metaDExShutdownAllPairIn rounds s = .ok 0 s' := by
  have hreturn : ∀ (x : ExecM Unit), (do let _ ← x; pure 0 : ExecM Int) s = .ok 0 s' ↔
      x s = .ok () s' := by
    intro x
    constructor
    · intro h
      obtain ⟨_, s1, hx, hpure⟩ := bind_ok h
      cases hpure
      exact hx
    · intro h
      show EStateM.bind x _ s = _
      unfold EStateM.bind
      rw [h]
      rfl
  constructor
  · intro h
    obtain ⟨rounds, hrounds⟩ := (shutdownRounds_iff s.mdOrders s s').mp ((hreturn _).mp h)
    exact ⟨rounds, (hreturn _).mpr hrounds⟩
  · rintro ⟨rounds, h⟩
    exact (hreturn _).mpr ((shutdownRounds_iff s.mdOrders s s').mpr ⟨rounds, (hreturn _).mp h⟩)

/-! ## What a shutdown should do -/

/-- The orders that a shutdown is for, in the order of the book. -/
def State.mdAllPair (s : State) : List CMPMetaDEx :=
  (s.mdOrders.map MdPlaced.order).filter fun o => decide o.AllPair

/-- A shutdown as it should be: exactly the orders without OMNI and TOMNI leave the book, what remains
    of them goes from the reserve to the balance of their owners, and nothing else changes. -/
structure ShutsDown (s s' : State) : Prop where
  book : ∀ (p : PropertyId) (price : ℚ) (k : OrderKey) o, (s'.mdLevel p price)[k]? = some o ↔
    (s.mdLevel p price)[k]? = some o ∧ ¬ o.AllPair
  balance : ∀ a p, s'.tallyMap.money a p .balance =
    s.tallyMap.money a p .balance + reservedSum s.mdAllPair a p
  reserve : ∀ a p, s'.tallyMap.money a p .metaDExReserve =
    s.tallyMap.money a p .metaDExReserve - reservedSum s.mdAllPair a p
  others : ∀ a p ty, ty ≠ .balance → ty ≠ .metaDExReserve →
    s'.tallyMap.money a p ty = s.tallyMap.money a p ty
  rest : s' = { s with tallyMap := s'.tallyMap, metadex := s'.metadex }

/-- No order of the book has OMNI or TOMNI on one side. -/
def State.OnlyAllPairs (s : State) : Prop :=
  ∀ (p : PropertyId) (price : ℚ) (k : OrderKey) o, (s.mdLevel p price)[k]? = some o → o.AllPair

theorem onlyAllPairs_iff {s : State} :
    s.OnlyAllPairs ↔ ∀ e ∈ s.mdOrders, e.order.AllPair := by
  constructor
  · intro h e he
    exact h _ _ _ _ (mem_mdOrders.mp he)
  · intro h p price k o ho
    exact h ⟨p, price, k, o⟩ (mem_mdOrders.mpr ho)

theorem mdAllPair_eq {s : State} (h : s.OnlyAllPairs) :
    s.mdAllPair = s.mdOrders.map MdPlaced.order := by
  refine List.filter_eq_self.mpr fun o ho => ?_
  obtain ⟨e, he, rfl⟩ := List.mem_map.mp ho
  exact decide_eq_true (onlyAllPairs_iff.mp h e he)

/-- Without an order that has to stay, the whole book is taken out. -/
theorem shutdown_of_onlyAllPairs {s : State} (hs : MdReserveOk s) (h : s.OnlyAllPairs) :
    wp (metaDExShutdownAllPairIn s.mdOrders.length) (fun rc s' => rc = 0 ∧ ShutsDown s s')
      (fun _ _ => False) s := by
  have hall : ∀ e ∈ s.mdOrders, e.order.AllPair := onlyAllPairs_iff.mp h
  have hfilter : s.mdOrders.filter (fun _ => true) = s.mdOrders :=
    List.filter_eq_self.mpr fun _ _ => rfl
  have hcovers : Covers s s.mdOrders := by
    have hpart := hs.covers (fun _ => true) (by
      rw [hfilter]
      exact (List.filter_eq_self.mpr fun _ _ => rfl).symm)
    rwa [hfilter] at hpart
  unfold metaDExShutdownAllPairIn
  rw [wp_bind, wp_get, wp_bind, shutdownRounds_eq hall]
  refine wp_imp (shutdownOrders_spec s.mdOrders s hcovers) fun _ s' ⟨htaken, hrest⟩ => ?_
  rw [wp_pure]
  have hmoney := htaken.money
  rw [← mdAllPair_eq h] at hmoney
  refine ⟨rfl, ?_, fun a p => ?_, fun a p => ?_, fun a p ty hbal hres => ?_, hrest⟩
  · intro p price k o
    constructor
    · intro ho
      -- every order is gone
      by_cases htook : ∃ e ∈ s.mdOrders, e.At p price k
      · rw [htaken.gone p price k htook] at ho
        cases ho
      · rw [htaken.kept p price k htook] at ho
        exact absurd ⟨⟨p, price, k, o⟩, mem_mdOrders.mpr ho, rfl, rfl, rfl⟩ htook
    · rintro ⟨ho, hstays⟩
      exact absurd (h p price k o ho) hstays
  · rw [hmoney, if_pos rfl]
  · rw [hmoney, if_neg (by decide), if_pos rfl]
    rfl
  · rw [hmoney, if_neg hbal, if_neg hres, add_zero]

/-- Within some number of rounds the loop comes to an end, and does what it should. -/
theorem shutdown_rounds_iff {s : State} (hs : MdReserveOk s) :
    (∃ rounds s', metaDExShutdownAllPairIn rounds s = .ok 0 s' ∧ ShutsDown s s') ↔
      s.OnlyAllPairs := by
  constructor
  · rintro ⟨rounds, s', hrun, _⟩
    rw [onlyAllPairs_iff]
    intro e he
    by_contra hstays
    obtain ⟨_, _, hget, hrest⟩ := bind_ok hrun
    cases hget
    obtain ⟨_, s1, hloop, _⟩ := bind_ok hrest
    exact shutdownRounds_hangs ⟨e, he, hstays⟩ rounds s s1 hloop
  · intro h
    obtain ⟨rc, s', hrun, rfl, hdown⟩ := wp_returns (shutdown_of_onlyAllPairs hs h)
    exact ⟨_, s', hrun, hdown⟩

/-- **WHEN THE SHUTDOWN ENDS**: with the book and its reserves in order, it returns within some number
    of rounds and does what it should, exactly if no order has OMNI or TOMNI on one side; and so
    does the shutdown that a deactivation calls. -/
theorem shutdown_allPair_iff {s : State} (hs : MdReserveOk s) :
    ((∃ rounds s', metaDExShutdownAllPairIn rounds s = .ok 0 s' ∧ ShutsDown s s') ↔
      s.OnlyAllPairs) ∧
    ((∃ s', metaDExShutdownAllPair s = .ok 0 s' ∧ ShutsDown s s') ↔ s.OnlyAllPairs) := by
  have hrounds := shutdown_rounds_iff hs
  refine ⟨hrounds, ?_⟩
  rw [← hrounds]
  constructor
  · rintro ⟨s', hrun, hdown⟩
    obtain ⟨rounds, hin⟩ := (metaDExShutdownAllPair_iff s s').mp hrun
    exact ⟨rounds, s', hin, hdown⟩
  · rintro ⟨rounds, s', hin, hdown⟩
    exact ⟨s', (metaDExShutdownAllPair_iff s s').mpr ⟨rounds, hin⟩, hdown⟩

/-- `A` sells 10 of property 4 for 20 of property 5. -/
def pairSale : CMPMetaDEx := { restingSale with desiredProperty := 5 }

/-- The market in which this order rests. -/
def pairMarket : State := restingMarket.setMdLevel 4 2 ((∅ : MdSet).insert (10, 1) pairSale)

set_option maxRecDepth 4000 in
private theorem pairMarket_orders : pairMarket.mdOrders.map MdPlaced.order = [pairSale] := by
  decide +kernel

private theorem pairMarket_level {p : PropertyId} {price : ℚ} {k : OrderKey} {o : CMPMetaDEx}
    (ho : (pairMarket.mdLevel p price)[k]? = some o) :
    (4 = p ∧ 2 = price ∧ ((10, 1) : OrderKey) = k ∧ pairSale = o) ∨
      (restingMarket.mdLevel p price)[k]? = some o := by
  unfold pairMarket at ho
  rw [mdLevel_setMdLevel] at ho
  split at ho
  · next hplace =>
      rw [getElem?_insert_eq] at ho
      split at ho
      · next hk => exact Or.inl ⟨hplace.1, hplace.2, hk, Option.some.inj ho⟩
      · simp at ho
  · exact Or.inr ho

theorem pairMarket_ok : MdReserveOk pairMarket where
  book := by
    intro p price k o ho
    rcases pairMarket_level ho with ⟨rfl, rfl, rfl, rfl⟩ | ho
    · exact ⟨by decide, rfl, by decide +kernel, rfl⟩
    · exact restingMarket_ok.book p price k o ho
  reserve := by
    intro a p
    have hsame : pairMarket.mdReserved a p = restingMarket.mdReserved a p := by
      rw [mdReserved_eq_reservedSum, mdReserved_eq_reservedSum, pairMarket_orders,
        restingMarket_orders]
      rfl
    rw [hsame]
    exact restingMarket_ok.reserve a p
  supply := restingMarket_ok.supply

theorem pairMarket_onlyAllPairs : pairMarket.OnlyAllPairs := by
  rw [onlyAllPairs_iff]
  intro e he
  have horder : e.order ∈ pairMarket.mdOrders.map MdPlaced.order := List.mem_map.mpr ⟨e, he, rfl⟩
  rw [pairMarket_orders, List.mem_singleton] at horder
  rw [horder]
  decide

/-- The sale that rests in the market desires OMNI, so the shutdown leaves it alone. -/
theorem restingSale_stays : ∃ e ∈ restingMarket.mdOrders, ¬ e.order.AllPair := by
  refine ⟨⟨4, 2, (10, 1), restingSale⟩, mem_mdOrders.mpr ?_, by decide⟩
  show (restingMarket.mdLevel 4 2)[((10, 1) : OrderKey)]? = some restingSale
  unfold restingMarket
  rw [mdLevel_setMdLevel, if_pos ⟨rfl, rfl⟩, getElem?_insert_eq, if_pos rfl]

/-- The market with the order for property 5 is shut down, the one with the order for OMNI is not. -/
theorem shutdown_allPair_iff_sale :
    (∃ s', metaDExShutdownAllPair pairMarket = .ok 0 s' ∧ ShutsDown pairMarket s') ∧
    ¬ ∃ rounds s', metaDExShutdownAllPairIn rounds restingMarket = .ok 0 s' ∧
      ShutsDown restingMarket s' := by
  refine ⟨(shutdown_allPair_iff pairMarket_ok).2.mpr pairMarket_onlyAllPairs, ?_⟩
  rw [(shutdown_allPair_iff restingMarket_ok).1, onlyAllPairs_iff]
  obtain ⟨e, he, hstays⟩ := restingSale_stays
  exact fun h => hstays (h e he)

/-- The shutdown never comes to an end there. -/
theorem restingMarket_hangs : MdReserveOk restingMarket ∧
    ¬ ∃ rounds s', metaDExShutdownAllPairIn rounds restingMarket = .ok 0 s' ∧
      ShutsDown restingMarket s' := by
  refine ⟨restingMarket_ok, ?_⟩
  rintro ⟨rounds, s', hrun, _⟩
  obtain ⟨_, _, hget, hrest⟩ := bind_ok hrun
  cases hget
  obtain ⟨_, s1, hloop, _⟩ := bind_ok hrest
  exact shutdownRounds_hangs restingSale_stays rounds restingMarket s1 hloop

end OmniCore
