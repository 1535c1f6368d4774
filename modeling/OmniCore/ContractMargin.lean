import OmniCore.ContractBook

/-! # ContractMargin — is the reserved margin that of the open contracts?

    Every order reserves margin when it is placed. A match that opens a contract turns
    the order into a position, and the margin stays. A match that closes contracts should
    free the margin of the order and of the position; the code frees at most one of the
    two for a seller and none for a buyer. The account is exact in the runs in which
    contracts are only opened. -/

namespace OmniCore

open Std (ExtTreeMap)
open Machine TextRec MapSum Exec

/-! ## Amounts that rest in the book -/

/-- The amount of one order, if it is of the given address. -/
def CMPContractDex.amountOf (o : CMPContractDex) (a : Address) : Int :=
  if o.addr = a then o.amountForsale else 0

/-- The amounts of an address at one price level. -/
def levelAmount (a : Address) (level : CdSet) : Int := msum level fun _ o => o.amountOf a

/-- The amounts of an address in one contract. -/
def pricesAmount (a : Address) (prices : CdPricesMap) : Int :=
  msum prices fun _ level => levelAmount a level

/-- The amounts of all resting orders of an address. -/
def restingAmount (s : State) (a : Address) : Int :=
  msum s.contractdex fun _ prices => pricesAmount a prices

theorem restingAmount_congr {s s' : State} (h : s'.contractdex = s.contractdex) (a : Address) :
    restingAmount s' a = restingAmount s a := by
  unfold restingAmount
  rw [h]

theorem restingAmount_setContractLevel (s : State) (p : PropertyId) (price : Nat) (level : CdSet)
    (a : Address) :
    restingAmount (s.setContractLevel p price level) a =
      restingAmount s a + (levelAmount a level - levelAmount a (s.contractLevel p price)) := by
  have hlevel : levelAmount a ∅ = 0 := msum_empty _
  have hprices : pricesAmount a ∅ = 0 := msum_empty _
  unfold restingAmount State.setContractLevel
  dsimp only
  rw [msum_insert_getD _ _ _ ∅ hprices]
  have hin : pricesAmount a ((s.contractPrices p).insert price level) =
      pricesAmount a (s.contractPrices p) +
        (levelAmount a level - levelAmount a (s.contractLevel p price)) :=
    msum_insert_getD _ _ _ ∅ hlevel
  rw [hin]
  unfold State.contractPrices
  ring

theorem levelAmount_erase {level : CdSet} {key : OrderKey} {o : CMPContractDex}
    (h : level[key]? = some o) (a : Address) :
    levelAmount a (level.erase key) = levelAmount a level - o.amountOf a := by
  unfold levelAmount
  rw [msum_erase_sub, h, Option.elim_some]

theorem levelAmount_insert {level : CdSet} {o : CMPContractDex} (h : level[o.key]? = none)
    (a : Address) : levelAmount a (level.insert o.key o) = levelAmount a level + o.amountOf a := by
  unfold levelAmount
  rw [msum_insert_sub, h, Option.elim_none, sub_zero]

/-- Replacing a matched order by its remainder takes the traded amount out of the book. -/
theorem restingAmount_replaceMatched {s : State} {pold pnew : CMPContractDex} {rem : Remainders}
    (hrest : Resting s pold) (hprop : pold.property = pnew.property)
    (hrep : rem.replacement = { pold with
      amountForsale := pold.amountForsale - min pold.amountForsale pnew.amountForsale })
    (a : Address) :
    restingAmount (s.setContractLevel pnew.property pold.effectivePrice
      (replaceMatched (s.contractLevel pnew.property pold.effectivePrice) pold.key pold pnew
        rem)) a =
      restingAmount s a -
        if pold.addr = a then min pold.amountForsale pnew.amountForsale else 0 := by
  have hold : (s.contractLevel pnew.property pold.effectivePrice)[pold.key]? = some pold := by
    rw [← hprop]
    exact hrest
  have hkey : rem.replacement.key = pold.key := by rw [hrep]; rfl
  have hgone : ((s.contractLevel pnew.property pold.effectivePrice).erase
      pold.key)[rem.replacement.key]? = none := by
    rw [hkey, getElem?_erase_eq, if_pos rfl]
  have hfree : ¬ ((s.contractLevel pnew.property pold.effectivePrice).erase
      pold.key).contains rem.replacement.key = true := by
    rw [ExtTreeMap.contains_eq_isSome_getElem?, hgone]
    simp
  rw [restingAmount_setContractLevel]
  unfold replaceMatched
  by_cases ha : pold.amountForsale = pnew.amountForsale
  · rw [if_neg (by simp [ha]), levelAmount_erase hold]
    unfold CMPContractDex.amountOf
    split <;> omega
  · rw [if_pos ⟨ha, hfree⟩, levelAmount_insert hgone, levelAmount_erase hold, hrep]
    unfold CMPContractDex.amountOf
    dsimp only
    split <;> omega

theorem restingAmount_restState (s : State) (o : CMPContractDex) (a : Address)
    (hfree : 0 < o.amountForsale → FreePlace s o) (hnonneg : 0 ≤ o.amountForsale) :
    restingAmount (restState s o) a = restingAmount s a + o.amountOf a := by
  unfold restState
  by_cases hpos : 0 < o.amountForsale
  · have hnone := hfree hpos
    unfold FreePlace at hnone
    have hcont : ¬ (s.contractLevel o.property o.effectivePrice).contains o.key = true := by
      rw [ExtTreeMap.contains_eq_isSome_getElem?, hnone]
      simp
    rw [if_pos ⟨hpos, hcont⟩, restingAmount_setContractLevel, levelAmount_insert hnone]
    ring
  · have hz : o.amountForsale = 0 := by omega
    rw [if_neg (fun h => hpos h.1)]
    simp [CMPContractDex.amountOf, hz]

/-! ## The steps that keep the account -/

/-- The margin that is reserved for an address. -/
def reservedMargin (s : State) (c : PropertyId) (a : Address) : Int :=
  s.tallyMap.money a c .contractDExReserve

/-- A match opens contracts on both sides: the seller holds no longs, the buyer no shorts that
    would be bought back. -/
def OpensOnly (pre : State) (pold pnew : CMPContractDex) : Prop :=
  (parties pre pold pnew).possitiveSell = 0 ∧
    (0 < (parties pre pold pnew).possitiveBuy ∨ (parties pre pold pnew).negativeBuy = 0)

/-- One step keeps the account, after the `earlier` ones: an accepted trade has a price, reserves
    its margin without overflow and has a key of its own, a match only opens contracts, and no
    address with open contracts is called. -/
def Event.KeepsMargin (e : Event) (earlier : List Event) : Prop :=
  match e with
  | .submitted pre (.trade tx) =>
      amountToReserve pre tx ≤
        pre.getMPbalance tx.sender pre.collateralCurrency .balance →
      tx.effectivePrice.toNat ≠ 0 ∧ tx.nValue.toNat * pre.marginRequirementContract < 2 ^ 63 ∧
        ∀ o, .placed o ∈ earlier → 0 < o.amountForsale → o.key ≠ (tx.block, tx.txIdx)
  | .matched pre _ pold pnew => OpensOnly pre pold pnew ∧ Reduces pold pnew
  | .marginCheck pre p a _ => PriceReached pre p a → openContracts pre p a = 0
  | _ => True

instance : (e : Event) → (earlier : List Event) → Decidable (e.KeepsMargin earlier)
  | .submitted _ (.trade _), _ => by unfold Event.KeepsMargin; infer_instance
  | .submitted _ (.create _ _), _ => isTrue trivial
  | .submitted _ (.cancel _), _ => isTrue trivial
  | .matched _ _ _ _, _ => by unfold Event.KeepsMargin OpensOnly Reduces; infer_instance
  | .marginCheck _ _ _ _, _ => by unfold Event.KeepsMargin; infer_instance
  | .placed _, _ => isTrue trivial
  | .candidate _ _ _, _ => isTrue trivial
  | .erased _ _, _ => isTrue trivial

/-- The margin that closes subtract is there. -/
def FreesCovered (m : Nat) (c : PropertyId) (trace : List Event) : Prop :=
  ∀ pre outer pold pnew, Event.matched pre outer pold pnew ∈ trace →
    m * (parties pre pold pnew).closedSeller ≤
        reservedMargin pre c (parties pre pold pnew).seller ∧
      m * (parties pre pold pnew).closedBuyer ≤ reservedMargin pre c (parties pre pold pnew).buyer

/-! ## The account with matches under way -/

/-- What a running call has of an address: the incoming order, less what the order that is still
    in the book was already filled with. -/
def Frame.pending (a : Address) (f : Frame) : Int :=
  f.taker.amountOf a -
    match f.held with
    | some (pold, pnew) => if pold.addr = a then min pold.amountForsale pnew.amountForsale else 0
    | none => 0

def pendingAmount (fs : List Frame) (a : Address) : Int := (fs.map (Frame.pending a)).sum

/-- The margin account of a world. -/
structure MarginInv (m : Nat) (c p : PropertyId) (w : World) : Prop where
  margin : w.state.marginRequirementContract = m
  currency : w.state.collateralCurrency = c
  notional : w.state.notionalSize = 0
  book : BookWf w.state
  resting : ∀ o, Resting w.state o → o.property = p ∧ 0 ≤ o.amountForsale ∧
    ∃ o', .placed o' ∈ w.trace ∧ 0 < o'.amountForsale ∧ o'.key = o.key
  calls : ∀ f ∈ w.frames, 0 ≤ f.taker.amountForsale ∧
    (0 < f.taker.amountForsale → f.taker.property = p ∧
      (∃ o', .placed o' ∈ w.trace ∧ 0 < o'.amountForsale ∧ o'.key = f.taker.key) ∧
      ∀ o, Resting w.state o → o.key ≠ f.taker.key)
  callsOnce : w.frames.Pairwise fun f g =>
    0 < f.taker.amountForsale → 0 < g.taker.amountForsale → f.taker.key ≠ g.taker.key
  account : ∀ a, reservedMargin w.state c a =
    m * (openContracts w.state p a + restingAmount w.state a + pendingAmount w.frames a)

section Steps

variable {m : Nat} {c p : PropertyId}

/-- Steps that touch neither positions nor margin nor the book. -/
theorem MarginInv.same {w w' : World} (h : MarginInv m c p w)
    (hmargin : w'.state.marginRequirementContract = w.state.marginRequirementContract)
    (hcur : w'.state.collateralCurrency = w.state.collateralCurrency)
    (hnot : w'.state.notionalSize = w.state.notionalSize)
    (hbook : w'.state.contractdex = w.state.contractdex) (hframes : w'.frames = w.frames)
    (htrace : ∀ e ∈ w.trace, e ∈ w'.trace)
    (hmoney : ∀ a q ty, ty = .possitiveBalance ∨ ty = .negativeBalance ∨ ty = .contractDExReserve →
      w'.state.tallyMap.money a q ty = w.state.tallyMap.money a q ty) : MarginInv m c p w' where
  margin := by rw [hmargin, h.margin]
  currency := by rw [hcur, h.currency]
  notional := by rw [hnot, h.notional]
  book := (bookWf_congr hbook).mpr h.book
  resting := by
    intro o ho
    obtain ⟨h1, h2, o', h3, h4⟩ := h.resting o ((resting_congr hbook o).mp ho)
    exact ⟨h1, h2, o', htrace _ h3, h4⟩
  calls := by
    rw [hframes]
    intro f hf
    obtain ⟨h2, h3⟩ := h.calls f hf
    refine ⟨h2, fun hpos => ?_⟩
    obtain ⟨h1, ⟨o', h4, h5⟩, h6⟩ := h3 hpos
    exact ⟨h1, ⟨o', htrace _ h4, h5⟩, fun o ho => h6 o ((resting_congr hbook o).mp ho)⟩
  callsOnce := hframes ▸ h.callsOnce
  account := by
    intro a
    unfold reservedMargin openContracts
    rw [hmoney _ _ _ (Or.inr (Or.inr rfl)), hmoney _ _ _ (Or.inl rfl),
      hmoney _ _ _ (Or.inr (Or.inl rfl)), hframes, restingAmount_congr hbook]
    exact h.account a

/-- A match that only opens contracts closes none. -/
theorem OpensOnly.closed {s : State} {pold pnew : CMPContractDex} (h : OpensOnly s pold pnew)
    (hn : 0 ≤ (parties s pold pnew).nCouldBuy) :
    (parties s pold pnew).closedSeller = 0 ∧ (parties s pold pnew).closedBuyer = 0 := by
  obtain ⟨hsell, -⟩ := h
  unfold Parties.closedSeller Parties.closedBuyer
  rw [hsell]
  refine ⟨?_, ?_⟩
  · split
    · rfl
    · split
      · omega
      · split
        · omega
        · rfl
  · split
    · rfl
    · split
      · omega
      · rfl

/-- Settling nothing, at notional size 0, posts nothing but the counter of settled contracts. -/
theorem closeEntries_money {s : State} {who : Address} {property : PropertyId}
    {close : MatchStatus × Int} {basis r : Int} (h : Settles close 0) (hnot : s.notionalSize = 0)
    (a : Address) (q : PropertyId) {ty : TallyType} (hty : ty ≠ .remaining) :
    ((closeEntries s who property close basis r).map fun e => e.toMoney a q ty).sum = 0 := by
  have hprofit : bookedProfit s close.1 (max 0 close.2) basis = 0 := by
    unfold bookedProfit pnl
    rw [hnot]
    simp [toInt64]
  unfold closeEntries
  rw [(h.freed s).1, hprofit]
  simp [settleEntries, Entry.toMoney, hty]

theorem MarginInv.fill {w : World} {fs : List Frame} {price : Nat} {key : OrderKey}
    {pold pnew : CMPContractDex} {s' : State} {mp : TallyMap} {basisS basisB rS rB : Int}
    {value : Text} (h : MarginInv m c p w) (hf : w.frames = ⟨pnew, none⟩ :: fs)
    (hc : Candidate w.state price key pold pnew) (hopen : OpensOnly w.state pold pnew)
    (hred : Reduces pold pnew)
    (heff : MatchEffect w.state s' pold pnew mp basisS basisB rS rB value) :
    MarginInv m c p { w with
      state := s'
      frames := ⟨(remainders (parties w.state pold pnew) pold pnew).pnew, some (pold, pnew)⟩ ::
        w.frames.tail
      trace := .matched w.state w.frames.tail pold pnew :: w.trace } := by
  have hrest : Resting w.state pold := h.book.resting hc.inBook
  obtain ⟨hprop, hold, -⟩ := h.resting pold hrest
  obtain ⟨hnew, hkey⟩ := h.calls ⟨pnew, none⟩ (by simp [hf])
  dsimp only at hnew hkey
  have hn : (parties w.state pold pnew).nCouldBuy = min pold.amountForsale pnew.amountForsale :=
    nCouldBuy_eq _ _ _
  have htaker := (remainders_amounts w.state pold pnew hred).2
  have hbook : s'.contractdex = w.state.contractdex := by rw [heff.state]
  have hclosed := hopen.closed (by omega)
  have hsell := settles_sellerClose hc.property heff.positions
  have hbuy := settles_buyerClose hc.property heff.positions
  rw [hclosed.1] at hsell
  rw [hclosed.2] at hbuy
  -- settlement leaves positions and margin alone
  have hmoney : ∀ a q ty, ty ≠ .remaining → s'.tallyMap.money a q ty = mp.money a q ty := by
    intro a q ty hty
    rw [heff.settled.money, List.map_append, List.sum_append,
      closeEntries_money hsell h.notional a q hty, closeEntries_money hbuy h.notional a q hty,
      add_zero, add_zero]
  refine
    { margin := by rw [heff.state]; exact h.margin
      currency := by rw [heff.state]; exact h.currency
      notional := by rw [heff.state]; exact h.notional
      book := (bookWf_congr hbook).mpr h.book
      resting := ?_, calls := ?_, callsOnce := ?_, account := ?_ }
  · intro o ho
    obtain ⟨h1, h2, o', h3, h4⟩ := h.resting o ((resting_congr hbook o).mp ho)
    exact ⟨h1, h2, o', List.mem_cons_of_mem _ h3, h4⟩
  · intro f hmem
    dsimp only at hmem ⊢
    rw [hf, List.tail_cons] at hmem
    rcases List.mem_cons.mp hmem with rfl | hmem
    · rw [htaker]
      refine ⟨by dsimp only; omega, fun hpos => ?_⟩
      dsimp only at hpos
      obtain ⟨h1, ⟨o', h4, h5⟩, h6⟩ := hkey (by omega)
      exact ⟨h1, ⟨o', List.mem_cons_of_mem _ h4, h5⟩,
        fun o ho => h6 o ((resting_congr hbook o).mp ho)⟩
    · obtain ⟨h2, h3⟩ := h.calls f (by simp [hf, hmem])
      refine ⟨h2, fun hpos => ?_⟩
      obtain ⟨h1, ⟨o', h4, h5⟩, h6⟩ := h3 hpos
      exact ⟨h1, ⟨o', List.mem_cons_of_mem _ h4, h5⟩,
        fun o ho => h6 o ((resting_congr hbook o).mp ho)⟩
  · have honce := h.callsOnce
    rw [hf] at honce
    dsimp only
    rw [hf, List.tail_cons, htaker]
    refine List.pairwise_cons.mpr ⟨fun g hg hpos hpos' => ?_, (List.pairwise_cons.mp honce).2⟩
    dsimp only at hpos
    exact (List.pairwise_cons.mp honce).1 g hg (by dsimp only; omega) hpos'
  · intro a
    have hacc := h.account a
    have hpos := money_positions heff.positions a
    have hmargin : mp.money a c .contractDExReserve =
        w.state.tallyMap.money a c .contractDExReserve := by
      rw [heff.positions.money]
      simp [Parties.sellerEntries, Parties.buyerEntries, Entry.toMoney]
    have hlong : (parties w.state pold pnew).sellerLong = 0 := by
      simp [Parties.sellerLong, hopen.1]
    have hshort : (parties w.state pold pnew).buyerShort = 0 := by
      unfold Parties.buyerShort
      rcases hopen.2 with hb | hb
      · simp [hb]
      · rw [hb]
        split
        · rfl
        · omega
    -- whoever sells, the two parties are the two orders
    have hpair : ∀ x : Int,
        (if a = (parties w.state pold pnew).seller then x else 0) +
          (if a = (parties w.state pold pnew).buyer then x else 0) =
        (if pold.addr = a then x else 0) + if pnew.addr = a then x else 0 := by
      intro x
      unfold parties
      dsimp only
      split
      · simp only [eq_comm (a := a)]
      · simp only [eq_comm (a := a)]
        ring
    have hx := hpair (min pold.amountForsale pnew.amountForsale)
    unfold reservedMargin openContracts at hacc ⊢
    dsimp only
    rw [hf] at hacc
    rw [hmoney _ _ _ (by decide), hmoney _ _ _ (by decide), hmoney _ _ _ (by decide), hmargin,
      hacc, ← hprop, hpos.1, hpos.2, hlong, hshort, hn, restingAmount_congr hbook, hf,
      List.tail_cons, htaker]
    congr 1
    simp only [pendingAmount, List.map_cons, List.sum_cons, Frame.pending,
      CMPContractDex.amountOf, add_zero, sub_zero]
    split_ifs at hx ⊢ <;> omega

theorem MarginInv.erase {w : World} {fs : List Frame} {pold pnew t : CMPContractDex}
    {rem : Remainders} (h : MarginInv m c p w)
    (hrep : rem.replacement = { pold with
      amountForsale := pold.amountForsale - min pold.amountForsale pnew.amountForsale })
    (hprop : pold.property = pnew.property) (hf : w.frames = ⟨t, some (pold, pnew)⟩ :: fs)
    (hold : Resting w.state pold) :
    MarginInv m c p { w with
      state := w.state.setContractLevel pnew.property pold.effectivePrice
        (replaceMatched (w.state.contractLevel pnew.property pold.effectivePrice) pold.key pold
          pnew rem)
      frames := ⟨t, none⟩ :: w.frames.tail
      trace := .erased pold true :: w.trace } := by
  have hshape : ∃ r, rem.replacement = { pold with amountForsale := r } := ⟨_, hrep⟩
  have hrests := fun o => resting_replaceMatched (o := o) hold hprop hshape
  -- a resting order afterwards has the key of one that rested before
  have hback : ∀ o, Resting (w.state.setContractLevel pnew.property pold.effectivePrice
      (replaceMatched (w.state.contractLevel pnew.property pold.effectivePrice) pold.key pold
        pnew rem)) o → ∃ x, Resting w.state x ∧ x.key = o.key := by
    intro o ho
    rcases (hrests o).mp ho with ho | ho
    · exact ⟨o, ho.1, rfl⟩
    · exact ⟨pold, hold, by rw [ho.1, hrep]; rfl⟩
  refine
    { margin := h.margin
      currency := h.currency
      notional := h.notional
      book := h.book.replaceMatched hprop hshape
      resting := ?_, calls := ?_, callsOnce := ?_, account := ?_ }
  · intro o ho
    rcases (hrests o).mp ho with ho | ho
    · obtain ⟨h1, h2, o', h3, h4⟩ := h.resting o ho.1
      exact ⟨h1, h2, o', List.mem_cons_of_mem _ h3, h4⟩
    · obtain ⟨h1, h2, o', h3, h4, h5⟩ := h.resting pold hold
      rw [ho.1, hrep]
      exact ⟨h1, by dsimp only; omega, o', List.mem_cons_of_mem _ h3, h4, h5⟩
  · intro f hmem
    have hcall : 0 ≤ f.taker.amountForsale ∧
        (0 < f.taker.amountForsale → f.taker.property = p ∧
          (∃ o', .placed o' ∈ w.trace ∧ 0 < o'.amountForsale ∧ o'.key = f.taker.key) ∧
          ∀ o, Resting w.state o → o.key ≠ f.taker.key) := by
      rw [hf, List.tail_cons] at hmem
      rcases List.mem_cons.mp hmem with rfl | hmem
      · exact h.calls ⟨t, some (pold, pnew)⟩ (by simp [hf])
      · exact h.calls f (by simp [hf, hmem])
    obtain ⟨h2, h3⟩ := hcall
    refine ⟨h2, fun hpos => ?_⟩
    obtain ⟨h1, ⟨o', h4, h5⟩, h6⟩ := h3 hpos
    refine ⟨h1, ⟨o', List.mem_cons_of_mem _ h4, h5⟩, fun o ho => ?_⟩
    obtain ⟨x, hx, hk⟩ := hback o ho
    rw [← hk]
    exact h6 x hx
  · have honce := h.callsOnce
    rw [hf] at honce
    dsimp only
    rw [hf]
    exact List.pairwise_cons.mpr (List.pairwise_cons.mp honce)
  · intro a
    have hacc := h.account a
    unfold reservedMargin openContracts at hacc ⊢
    rw [hf] at hacc
    have hamount := restingAmount_replaceMatched hold hprop hrep a
    dsimp only
    rw [hamount, hf, List.tail_cons]
    simp only [State.setContractLevel]
    rw [hacc]
    congr 1
    simp only [pendingAmount, List.map_cons, List.sum_cons, Frame.pending]
    split_ifs <;> omega

theorem MarginInv.rest {w : World} {fs : List Frame} {o : CMPContractDex} (h : MarginInv m c p w)
    (hf : w.frames = ⟨o, none⟩ :: fs) :
    MarginInv m c p { w with state := restState w.state o, frames := w.frames.tail } := by
  obtain ⟨hnonneg, hcall⟩ := h.calls ⟨o, none⟩ (by simp [hf])
  dsimp only at hnonneg hcall
  have honce := h.callsOnce
  rw [hf] at honce
  have hfree : 0 < o.amountForsale → FreePlace w.state o := by
    intro hpos
    unfold FreePlace
    cases hx : (w.state.contractLevel o.property o.effectivePrice)[o.key]? with
    | none => rfl
    | some x =>
        have hk := (h.book _ _ _ _ hx).2.2
        exact absurd hk ((hcall hpos).2.2 x (h.book.resting hx))
  obtain ⟨book, hbook⟩ := restState_book w.state o
  refine
    { margin := by rw [hbook]; exact h.margin
      currency := by rw [hbook]; exact h.currency
      notional := by rw [hbook]; exact h.notional
      book := h.book.restState o
      resting := ?_, calls := ?_, callsOnce := ?_, account := ?_ }
  · intro x hx
    rcases resting_restState.mp hx with hx | ⟨rfl, hpos, -⟩
    · exact h.resting x hx
    · exact ⟨(hcall hpos).1, hnonneg, (hcall hpos).2.1⟩
  · intro f hmem
    dsimp only at hmem
    rw [hf, List.tail_cons] at hmem
    obtain ⟨h2, h3⟩ := h.calls f (by simp [hf, hmem])
    refine ⟨h2, fun hpos => ⟨(h3 hpos).1, (h3 hpos).2.1, fun x hx => ?_⟩⟩
    rcases resting_restState.mp hx with hx | ⟨rfl, hpos', -⟩
    · exact (h3 hpos).2.2 x hx
    · exact (List.pairwise_cons.mp honce).1 f hmem hpos' hpos
  · dsimp only
    rw [hf]
    exact (List.pairwise_cons.mp honce).2
  · intro a
    have hacc := h.account a
    have hamount := restingAmount_restState w.state o a hfree hnonneg
    unfold reservedMargin openContracts at hacc ⊢
    rw [hf] at hacc
    dsimp only
    rw [hamount, hf, List.tail_cons, hbook]
    dsimp only
    rw [hacc]
    congr 1
    simp only [pendingAmount, List.map_cons, List.sum_cons, Frame.pending, sub_zero]
    ring

theorem pendingAmount_place (w : World) (o : CMPContractDex) (a : Address) :
    pendingAmount (w.place o).frames a = o.amountOf a + pendingAmount w.frames a := by
  simp [pendingAmount, World.place, Frame.pending]

/-- A margin order without contracts changes nothing. -/
theorem MarginInv.placeZero {w : World} {o : CMPContractDex} (h : MarginInv m c p w)
    (hz : o.amountForsale = 0) : MarginInv m c p (w.place o) := by
  refine
    { margin := h.margin
      currency := h.currency
      notional := h.notional
      book := h.book
      resting := ?_, calls := ?_, callsOnce := ?_, account := ?_ }
  · intro x hx
    obtain ⟨h1, h2, o', h3, h4⟩ := h.resting x hx
    exact ⟨h1, h2, o', List.mem_cons_of_mem _ h3, h4⟩
  · intro f hmem
    rcases List.mem_cons.mp hmem with rfl | hmem
    · exact ⟨hz.ge, fun hpos => absurd hpos (by dsimp only; omega)⟩
    · obtain ⟨h2, h3⟩ := h.calls f hmem
      refine ⟨h2, fun hpos => ?_⟩
      obtain ⟨h1, ⟨o', h4, h5⟩, h6⟩ := h3 hpos
      exact ⟨h1, ⟨o', List.mem_cons_of_mem _ h4, h5⟩, h6⟩
  · refine List.pairwise_cons.mpr ⟨fun g _ hpos => ?_, h.callsOnce⟩
    exact absurd hpos (by dsimp only; omega)
  · intro a
    have hpend : pendingAmount (w.place o).frames a = pendingAmount w.frames a := by
      simp [pendingAmount_place, CMPContractDex.amountOf, hz]
    rw [hpend]
    exact h.account a

/-- The reserved margin of a trade is that of its order. -/
theorem MarginInv.placeTrade {w : World} {tx : CMPTransaction} {ledger : TallyMap} (hm : 0 < m)
    (h : MarginInv m c p w) (hf : w.frames = []) (hprop : tx.property.toNat = p)
    (hposted : Posted w.state.tallyMap ledger (reserveEntries w.state tx))
    (hsmall : tx.nValue.toNat * w.state.marginRequirementContract < 2 ^ 63)
    (hkey : ∀ o, .placed o ∈ w.trace → 0 < o.amountForsale → o.key ≠ (tx.block, tx.txIdx)) :
    MarginInv m c p ((reservedWorld w tx ledger).place (tradeOrder w tx)) := by
  rw [h.margin] at hsmall
  have hvalue : tx.nValue.toNat < 2 ^ 63 := by
    have : tx.nValue.toNat * 1 ≤ tx.nValue.toNat * m := Nat.mul_le_mul_left _ hm
    omega
  have hamount : (tradeOrder w tx).amountForsale = tx.nValue.toNat := by
    unfold tradeOrder newContractOrder
    rw [toInt64_natCast hvalue]
  have hreserve : amountToReserve w.state tx = tx.nValue.toNat * m := by
    unfold amountToReserve
    rw [h.margin]
    exact_mod_cast toInt64_natCast hsmall
  refine
    { margin := h.margin
      currency := h.currency
      notional := h.notional
      book := h.book
      resting := ?_, calls := ?_, callsOnce := ?_, account := ?_ }
  · intro x hx
    obtain ⟨h1, h2, o', h3, h4⟩ := h.resting x hx
    exact ⟨h1, h2, o', List.mem_cons_of_mem _ h3, h4⟩
  · intro f hmem
    have hframe : f = ⟨tradeOrder w tx, none⟩ := by simpa [World.place, reservedWorld, hf] using hmem
    subst hframe
    refine ⟨by dsimp only; omega, fun hpos => ⟨hprop, ?_, ?_⟩⟩
    · exact ⟨tradeOrder w tx, List.mem_cons_self, hpos, rfl⟩
    · intro o ho
      obtain ⟨-, -, o', h3, h4, h5⟩ := h.resting o ho
      rw [← h5]
      exact hkey o' h3 h4
  · have hframes : ((reservedWorld w tx ledger).place (tradeOrder w tx)).frames =
        [⟨tradeOrder w tx, none⟩] := by simp [World.place, reservedWorld, hf]
    rw [hframes]
    exact List.pairwise_singleton _ _
  · intro a
    have hacc := h.account a
    have hpend : pendingAmount ((reservedWorld w tx ledger).place (tradeOrder w tx)).frames a =
        pendingAmount w.frames a + if tx.sender = a then (tx.nValue.toNat : Int) else 0 := by
      have hframes : (reservedWorld w tx ledger).frames = w.frames := rfl
      have haddr : (tradeOrder w tx).addr = tx.sender := rfl
      rw [pendingAmount_place, hframes, CMPContractDex.amountOf, hamount, haddr, add_comm]
    have hbook : restingAmount ((reservedWorld w tx ledger).place (tradeOrder w tx)).state a =
        restingAmount w.state a := rfl
    have hmargin : ledger.money a c .contractDExReserve =
        w.state.tallyMap.money a c .contractDExReserve +
          if tx.sender = a then (tx.nValue.toNat : Int) * m else 0 := by
      rw [hposted.money]
      simp [reserveEntries, Entry.toMoney, h.currency, hreserve, eq_comm]
    have hpos : ∀ ty, ty = .possitiveBalance ∨ ty = .negativeBalance →
        ledger.money a p ty = w.state.tallyMap.money a p ty := by
      intro ty hty
      rw [hposted.money]
      rcases hty with rfl | rfl <;> simp [reserveEntries, Entry.toMoney]
    rw [hpend, hbook]
    unfold reservedMargin openContracts at hacc ⊢
    show ledger.money a c .contractDExReserve = m * (ledger.money a p .possitiveBalance +
      ledger.money a p .negativeBalance + _ + _)
    rw [hmargin, hpos _ (Or.inl rfl), hpos _ (Or.inr rfl), hacc]
    split_ifs <;> ring

end Steps

/-! ## The run -/

section Run

variable {m : Nat} {c p : PropertyId}

/-- As long as every step keeps the account, it is exact and closes are covered. -/
def MarginAccount (m : Nat) (c p : PropertyId) (w : World) : Prop :=
  Along Event.KeepsMargin w.trace → MarginInv m c p w ∧ FreesCovered m c w.trace

/-- A halt is only allowed where closes were covered. -/
def MarginHalt (m : Nat) (c : PropertyId) (_ : Halt) (w : World) : Prop :=
  Along Event.KeepsMargin w.trace → FreesCovered m c w.trace

theorem MarginAccount.halt {w w' : World} {e : Halt} (h : MarginAccount m c p w)
    (ht : w'.trace = w.trace) : MarginHalt m c e w' := by
  intro hok
  rw [ht] at hok ⊢
  exact (h hok).2

theorem FreesCovered.cons {trace : List Event} {e : Event} (h : FreesCovered m c trace)
    (he : ∀ pre outer pold pnew, e ≠ .matched pre outer pold pnew) :
    FreesCovered m c (e :: trace) := by
  intro pre outer pold pnew hmem
  rcases List.mem_cons.mp hmem with hmem | hmem
  · exact absurd hmem.symm (he pre outer pold pnew)
  · exact h pre outer pold pnew hmem

/-- A match that only opens contracts subtracts nothing. -/
theorem FreesCovered.matched {w : World} {fs : List Frame} {price : Nat} {key : OrderKey}
    {pold pnew : CMPContractDex} {outer : List Frame} (h : FreesCovered m c w.trace)
    (hI : MarginInv m c p w) (hf : w.frames = ⟨pnew, none⟩ :: fs)
    (hc : Candidate w.state price key pold pnew) (hopen : OpensOnly w.state pold pnew) :
    FreesCovered m c (.matched w.state outer pold pnew :: w.trace) := by
  intro pre outer' po pn hmem
  rcases List.mem_cons.mp hmem with hmem | hmem
  · cases hmem
    have hold := (hI.resting pold (hI.book.resting hc.inBook)).2.1
    have hnew := (hI.calls ⟨pnew, none⟩ (by simp [hf])).1
    dsimp only at hnew
    obtain ⟨h1, h2⟩ := hopen.closed (by rw [nCouldBuy_eq]; omega)
    rw [h1, h2, mul_zero]
    exact ⟨TallyMap.money_nonneg _ _ _ (by decide), TallyMap.money_nonneg _ _ _ (by decide)⟩
  · exact h pre outer' po pn hmem

/-- Steps that only write liquidation prices, or nothing, and note one event. -/
theorem MarginAccount.note {w : World} {e : Event} (h : MarginAccount m c p w) (ledger : TallyMap)
    (he : ∀ pre outer pold pnew, e ≠ .matched pre outer pold pnew)
    (hmoney : ∀ a q ty, ty = .possitiveBalance ∨ ty = .negativeBalance ∨ ty = .contractDExReserve →
      ledger.money a q ty = w.state.tallyMap.money a q ty) :
    MarginAccount m c p { w with state := w.state.withTally ledger, trace := e :: w.trace } := by
  intro hok
  obtain ⟨hI, hcov⟩ := h hok.2
  exact ⟨hI.same rfl rfl rfl rfl rfl (fun x hx => List.mem_cons_of_mem _ hx) hmoney, hcov.cons he⟩

/-- Liquidation prices are neither positions nor margin. -/
theorem posted_liq_money {ledger ledger' : TallyMap} {l : List Entry} (h : Posted ledger ledger' l)
    (hl : ∀ e ∈ l, e.ty = .liquidationPrice) (a : Address) (q : PropertyId) (ty : TallyType)
    (hty : ty = .possitiveBalance ∨ ty = .negativeBalance ∨ ty = .contractDExReserve) :
    ledger'.money a q ty = ledger.money a q ty := by
  have hz : (l.map fun e => e.toMoney a q ty).sum = 0 := by
    apply List.sum_eq_zero
    intro x hx
    obtain ⟨e, he, rfl⟩ := List.mem_map.mp hx
    have hne : ty ≠ e.ty := by
      rw [hl e he]
      rcases hty with rfl | rfl | rfl <;> decide
    simp [Entry.toMoney, hne]
  rw [h.money, hz, add_zero]

/-- The margin order of an address without contracts is empty. -/
theorem marginOrder_amount {w : World} {a : Address} {q : PropertyId} {price : Nat}
    (h : openContracts w.state q a = 0) : (marginOrder w a q price).amountForsale = 0 := by
  unfold openContracts at h
  have h1 : 0 ≤ w.state.tallyMap.money a q .possitiveBalance := TallyMap.money_nonneg _ _ _ (by decide)
  have h2 : 0 ≤ w.state.tallyMap.money a q .negativeBalance := TallyMap.money_nonneg _ _ _ (by decide)
  have hlong : w.state.getMPbalance a q .possitiveBalance = 0 := by
    rw [State.getMPbalance_eq _ _ _ (by decide)]
    omega
  have hshort : w.state.getMPbalance a q .negativeBalance = 0 := by
    rw [State.getMPbalance_eq _ _ _ (by decide)]
    omega
  simp [marginOrder, newContractOrder, hlong, hshort]

theorem marginAccount_engine : EngineInv (MarginAccount m c p) (MarginHalt m c) where
  condition := fun hI _ _ => hI.halt rfl
  visit := by
    intro w fs price key pold pnew hI _ _
    refine wp_mono (visitCandidate_spec pold pnew w) ?_ ?_
    · rintro _ w' ⟨ledger, hposted, rfl⟩
      refine hI.note _ (by simp) (posted_liq_money hposted ?_)
      simp [liqEntry]
    · rintro e w' ⟨-, ht⟩ hok
      rw [ht] at hok ⊢
      exact (hI hok.2).2.cons (by simp)
  fill := by
    intro w fs price key pold pnew hI hf hc _
    refine wp_mono (fillOrder_spec pold pnew w) ?_ ?_
    · rintro rem w' ⟨rfl, s', mp, basisS, basisB, rS, rB, value, heff, rfl⟩ hok
      obtain ⟨⟨hopen, hred⟩, hrest⟩ := hok
      obtain ⟨hinv, hcov⟩ := hI hrest
      exact ⟨hinv.fill hf hc hopen hred heff, hcov.matched hinv hf hc hopen⟩
    · rintro e w' ⟨-, ht⟩ hok
      rw [ht] at hok ⊢
      obtain ⟨⟨hopen, -⟩, hrest⟩ := hok
      obtain ⟨hinv, hcov⟩ := hI hrest
      exact hcov.matched hinv hf hc hopen
  check := by
    intro w q a last hI _
    exact hI.note w.state.tallyMap (by simp) (fun _ _ _ _ => rfl)
  call := by
    intro w q a last rest hI _ hreached ht hok
    obtain ⟨hinv, hcov⟩ := hI hok.2
    have hopen : openContracts w.state q a = 0 := by
      have hhead := hok.2
      rw [ht] at hhead
      exact hhead.1 hreached
    exact ⟨hinv.placeZero (marginOrder_amount hopen), hcov.cons (by simp)⟩
  reset := by
    intro w s q a last liq hI _ _ _
    rw [wp_onState]
    refine wp_mono (assertUpdate_posts _ _ _ _ w.state) ?_ (fun _ _ _ => hI.halt rfl)
    rintro _ s' ⟨ledger, rfl, hposted⟩ hok
    obtain ⟨hinv, hcov⟩ := hI hok
    refine ⟨hinv.same rfl rfl rfl rfl rfl (fun x hx => hx) ?_, hcov⟩
    exact posted_liq_money hposted (by simp)
  erase := by
    intro w w0 fs price key pold pnew rem hI hI0 hsuf hc hrem hf
    refine wp_mono (eraseMatched_spec price key pold pnew rem w) ?_ ?_
    · rintro _ w' ⟨hold, rfl⟩ hok
      obtain ⟨hinv, hcov⟩ := hI hok.2
      have hok0 := hok.2.suffix hsuf
      have hkey : pold.key = key := ((hI0 hok0.2).1.book _ _ _ _ hc.inBook).2.2
      have hrest : Resting w.state pold := by
        unfold Resting
        rw [hc.property, hc.priceEq, hkey]
        exact hold
      have hrep := (remainders_amounts w0.state pold pnew hok0.1.2).1
      rw [← hrem] at hrep
      have hnext := hinv.erase hrep hc.property hf hrest
      rw [hc.priceEq, hkey] at hnext
      exact ⟨hnext, hcov.cons (by simp)⟩
    · rintro e w' ⟨-, -, rfl⟩ hok
      exact (hI hok.2).2.cons (by simp)
  rest := by
    intro w fs o hI hf
    refine wp_imp (restOrder_spec o w _) ?_
    rintro _ w' rfl hok
    obtain ⟨hinv, hcov⟩ := hI hok
    exact ⟨hinv.rest hf, hcov⟩
  fuel := fun hI => hI.halt rfl
  undefined := fun hI => hI.halt rfl

/-- Trades of one contract, and cancels. -/
def ContractOp.OfContract (p : PropertyId) : ContractOp → Prop
  | .trade tx => tx.property.toNat = p
  | .cancel _ => True
  | .create _ _ => False

theorem marginAccount_run (hm : 0 < m) :
    RunInv (ContractOp.OfContract p) (MarginAccount m c p) (MarginHalt m c) where
  toEngineInv := marginAccount_engine
  stops := fun hI ht _ => hI.halt ht
  submit := by
    intro w op _ hI _
    exact hI.note w.state.tallyMap (by simp) (fun _ _ _ _ => rfl)
  reserve := by
    intro w tx ledger hop hI hf htrace hposted hbal
    obtain ⟨rest, ht⟩ := htrace
    have hcond : Along Event.KeepsMargin w.trace → tx.effectivePrice.toNat ≠ 0 ∧
        tx.nValue.toNat * w.state.marginRequirementContract < 2 ^ 63 ∧
        ∀ o, .placed o ∈ w.trace → 0 < o.amountForsale → o.key ≠ (tx.block, tx.txIdx) := by
      intro hok
      rw [ht] at hok
      obtain ⟨h1, h2, h3⟩ := hok.1 hbal
      refine ⟨h1, h2, fun o ho => h3 o ?_⟩
      simpa [ht] using ho
    refine ⟨fun hprice hok => absurd hprice (hcond hok).1, fun _ hok => ?_⟩
    obtain ⟨-, hsmall, hkey⟩ := hcond hok.2
    obtain ⟨hinv, hcov⟩ := hI hok.2
    exact ⟨hinv.placeTrade hm hf hop hposted hsmall hkey, hcov.cons (by simp)⟩
  created := fun hop => hop.elim

end Run

/-- **MARGIN IS ACCOUNTED FOR** after every run of trades of one contract at notional size 0 in
    which contracts are only opened: every address has reserved the margin of its open contracts
    and resting orders, and no close ever subtracts more than is reserved. -/
theorem margin_accounted (s : State) (p : PropertyId) (hm : 0 < s.marginRequirementContract)
    (hnotional : s.notionalSize = 0) (hbook : s.contractdex = ∅)
    (hstart : ∀ a, reservedMargin s s.collateralCurrency a =
      s.marginRequirementContract * openContracts s p a)
    (fuel : Nat) (ops : List ContractOp) (hops : ∀ op ∈ ops, op.OfContract p) :
    wp (runContracts fuel ops)
      (fun _ w => Along Event.KeepsMargin w.trace →
        (∀ a, reservedMargin w.state s.collateralCurrency a =
          s.marginRequirementContract * (openContracts w.state p a + restingAmount w.state a)) ∧
        FreesCovered s.marginRequirementContract s.collateralCurrency w.trace)
      (fun _ w => Along Event.KeepsMargin w.trace →
        FreesCovered s.marginRequirementContract s.collateralCurrency w.trace)
      (World.start s) := by
  refine wp_imp (runContracts_rule (marginAccount_run (p := p) (c := s.collateralCurrency) hm)
    fuel ops hops ?_ rfl) ?_
  · intro _
    refine ⟨⟨rfl, rfl, hnotional, bookWf_empty hbook, ?_, by simp [World.start], ?_, ?_⟩, ?_⟩
    · intro o ho
      exact absurd ho (not_resting_empty hbook o)
    · exact List.Pairwise.nil
    · intro a
      have hempty : restingAmount s a = 0 := by
        unfold restingAmount
        rw [hbook, msum_empty]
      simp only [World.start, pendingAmount, List.map_nil, List.sum_nil, hempty, add_zero]
      exact hstart a
    · simp [World.start, FreesCovered]
  · rintro _ w ⟨hI, hf⟩ hok
    obtain ⟨hinv, hcov⟩ := hI hok
    refine ⟨fun a => ?_, hcov⟩
    have hacc := hinv.account a
    rw [hf] at hacc
    simpa [pendingAmount] using hacc

/-- Two funded traders have nothing reserved and nothing open. -/
theorem marketState_margin (a : Address) :
    reservedMargin (marketState 0 1) 1 a = 1 * openContracts (marketState 0 1) 3 a := by
  have h : ∀ q ty, ty ≠ .balance → (marketState 0 1).tallyMap.money a q ty = 0 := by
    intro q ty hty
    show fundedLedger.money a q ty = 0
    rw [fundedLedger_posted.money a q ty]
    simp [Entry.toMoney, hty, TallyMap.money, TallyMap.tallyOf]
  unfold reservedMargin openContracts
  rw [h _ _ (by decide), h _ _ (by decide), h _ _ (by decide)]
  rfl

set_option maxRecDepth 4000 in
private theorem open_keepsMargin :
    (returned (runContracts 3 (roundTrip.take 2)) (World.start (marketState 0 1))).map
      (fun w => decide (Along Event.KeepsMargin w.trace)) = some true := by
  decide +kernel

/-- `A` and `B` open a contract and keep its margin reserved. -/
theorem margin_accounted_open :
    ∃ w, runContracts 3 (roundTrip.take 2) (World.start (marketState 0 1)) = .ok () w ∧
      (∀ a, reservedMargin w.state 1 a =
        1 * (openContracts w.state 3 a + restingAmount w.state a)) ∧ FreesCovered 1 1 w.trace := by
  have hops : ∀ op ∈ roundTrip.take 2, op.OfContract 3 := by
    simp [roundTrip, ContractOp.OfContract, orderTx]
  obtain ⟨w, hrun, hkeeps⟩ := exists_ok_of_returned open_keepsMargin
  exact ⟨w, hrun, wp_ok (margin_accounted (marketState 0 1) 3 (by decide) rfl rfl
    marketState_margin 3 (roundTrip.take 2) hops) hrun hkeeps⟩

set_option maxRecDepth 4000 in
/-- **MARGIN STAYS LOCKED**: `A` buys a contract from `B` and sells it back. Neither has a contract
    or an order left, but one unit of `A` and two units of `B` stay reserved. -/
theorem roundTrip_locks_margin :
    (returned (runContracts 3 roundTrip) (World.start (marketState 0 1))).map
      (fun w => [traderA, traderB].map fun a =>
        (reservedMargin w.state 1 a, openContracts w.state 3 a, restingAmount w.state a)) =
      some [(1, 0, 0), (2, 0, 0)] := by
  decide +kernel

end OmniCore
