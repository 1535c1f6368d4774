import OmniCore.ContractTx

/-! # ContractRule — one induction for the whole contract engine

    `x_Trade`, `marginLogic` and `ContractDex_ADD` call each other to any depth.
    `EngineInv I E` lists what has to be shown about a world predicate `I` for each
    of the elementary steps: a candidate is visited, a match is executed, an address
    is checked, a margin order is placed, a liquidation price is reset, a matched order
    is erased, a remainder is put into the book. `xTradeLoop_rule` is the induction
    over fuel, book position and address list, done once. -/

namespace OmniCore

open Std (ExtTreeMap)
open Machine TextRec MapSum Exec

/-! ## Positions of the book -/

theorem mem_offersInOrder {prices : CdPricesMap} {price : Nat} {key : OrderKey}
    {o : CMPContractDex} :
    (price, key, o) ∈ offersInOrder prices ↔
      ∃ level, prices[price]? = some level ∧ level[key]? = some o := by
  unfold offersInOrder
  rw [List.mem_flatMap]
  constructor
  · rintro ⟨⟨price', level⟩, hl, ho⟩
    obtain ⟨⟨key', o'⟩, hmem, heq⟩ := List.mem_map.mp ho
    cases heq
    exact ⟨level, mem_toList_iff.mp hl, mem_toList_iff.mp hmem⟩
  · rintro ⟨level, hl, ho⟩
    refine ⟨(price, level), mem_toList_iff.mpr hl, ?_⟩
    exact List.mem_map.mpr ⟨(key, o), mem_toList_iff.mpr ho, rfl⟩

/-- The order that `x_Trade` reaches is in the book at its position, at an acceptable price. -/
theorem nextOffer_inBook {s : State} {p : PropertyId} {pnew : CMPContractDex}
    {cursor : Option (Nat × OrderKey)} {price : Nat} {key : OrderKey} {pold : CMPContractDex}
    (h : nextOffer (s.contractPrices p) pnew cursor = some (price, key, pold)) :
    (s.contractLevel p price)[key]? = some pold ∧ passesPrice pnew price = true := by
  unfold nextOffer at h
  have hmem := List.mem_of_find?_eq_some h
  have hprop := List.find?_some h
  obtain ⟨level, hl, ho⟩ := mem_offersInOrder.mp hmem
  refine ⟨?_, ?_⟩
  · simp [State.contractLevel, hl, ho]
  · simp only [Bool.and_eq_true] at hprop
    exact hprop.1

/-- `pold` rests in the book where `x_Trade` found it, and is the counterpart of `pnew`. -/
structure Candidate (s : State) (price : Nat) (key : OrderKey) (pold pnew : CMPContractDex) :
    Prop where
  inBook : (s.contractLevel pnew.property price)[key]? = some pold
  passes : passesPrice pnew price = true
  priceEq : pold.effectivePrice = price
  property : pold.property = pnew.property
  action : pold.tradingAction ≠ pnew.tradingAction

/-! ## What the steps leave alone -/

/-- Only the ledger changed. -/
def LedgerOnly (s s' : State) : Prop := ∃ m, s' = s.withTally m

theorem LedgerOnly.refl (s : State) : LedgerOnly s s := ⟨s.tallyMap, rfl⟩

theorem LedgerOnly.trans {s s' s'' : State} (h : LedgerOnly s s') (h' : LedgerOnly s' s'') :
    LedgerOnly s s'' := by
  obtain ⟨m, rfl⟩ := h
  obtain ⟨m', rfl⟩ := h'
  exact ⟨m', rfl⟩

theorem LedgerOnly.contractLevel {s s' : State} (h : LedgerOnly s s') (p : PropertyId)
    (price : Nat) : s'.contractLevel p price = s.contractLevel p price := by
  obtain ⟨m, rfl⟩ := h
  rfl

theorem ledgerOnly_assertUpdate (who : Address) (p : PropertyId) (amount : Int) (ty : TallyType)
    (s : State) :
    wp (assertUpdate who p amount ty) (fun _ s' => LedgerOnly s s') (fun _ _ => True) s :=
  wp_assertUpdate (fun _ m' _ => ⟨m', rfl⟩) (fun _ _ _ _ => trivial)

theorem ledgerOnly_getLiquidationPrice (price : Int) (a : Address) (p : PropertyId) (act : Nat)
    (s : State) :
    wp (getLiquidationPrice price a p act) (fun _ s' => LedgerOnly s s') (fun _ _ => True) s := by
  unfold getLiquidationPrice
  simp only [wp_bind, wp_signed64, implies_true, and_true]
  intro _
  exact ledgerOnly_assertUpdate _ _ _ _ s

/-- A visited candidate leaves frames and book as they are. -/
theorem visitCandidate_frame (pold pnew : CMPContractDex) (w : World) :
    wp (visitCandidate pold pnew)
      (fun _ w' => w'.frames = w.frames ∧ w.trace <:+ w'.trace ∧ LedgerOnly w.state w'.state)
      (fun _ _ => True) w := by
  unfold visitCandidate emit
  simp only [wp_bind, wp_get, wp_modify, wp_onState]
  refine wp_imp (ledgerOnly_getLiquidationPrice _ _ _ _ _) ?_
  intro _ s' hs'
  refine wp_imp (ledgerOnly_getLiquidationPrice _ _ _ _ _) ?_
  intro _ s'' hs''
  exact ⟨trivial, List.suffix_cons _ _, hs'.trans hs''⟩

theorem executeMatch_returns (pold pnew : CMPContractDex) (s : State) :
    wp (executeMatch pold pnew)
      (fun rem _ => rem = remainders (parties s pold pnew) pold pnew) (fun _ _ => True) s := by
  unfold executeMatch
  simp only [wp_bind, wp_get, wp_modify, wp_pure]
  repeat' refine wp_all (fun _ _ => ?_) (fun _ _ => trivial)
  trivial

/-- A match returns what it leaves of the two orders and holds them in the innermost frame. -/
theorem fillOrder_frame (pold pnew : CMPContractDex) (w : World) :
    wp (fillOrder pold pnew)
      (fun rem w' => rem = remainders (parties w.state pold pnew) pold pnew ∧
        w'.frames = ⟨rem.pnew, some (pold, pnew)⟩ :: w.frames.tail ∧
        w'.trace = .matched w.state w.frames.tail pold pnew :: w.trace)
      (fun _ _ => True) w := by
  unfold fillOrder emit setFrame
  simp only [wp_bind, wp_get, wp_modify, wp_onState, wp_pure]
  refine wp_imp (executeMatch_returns pold pnew w.state) ?_
  rintro rem s' rfl
  exact ⟨rfl, trivial, trivial⟩

theorem eraseMatched_frame (price : Nat) (key : OrderKey) (pold pnew : CMPContractDex)
    (rem : Remainders) (w : World) :
    wp (eraseMatched price key pold pnew rem)
      (fun _ w' => w'.frames = ⟨rem.pnew, none⟩ :: w.frames.tail ∧ w.trace <:+ w'.trace)
      (fun _ _ => True) w := by
  unfold eraseMatched emit setFrame
  simp only [wp_bind, wp_get, wp_modify, wp_onState, wp_ite, wp_throw]
  exact ⟨fun _ => ⟨trivial, List.suffix_cons _ _⟩, fun _ => trivial⟩

theorem restOrder_frame (o : CMPContractDex) (w : World) :
    wp (restOrder o) (fun _ w' => w'.frames = w.frames.tail ∧ w'.trace = w.trace)
      (fun _ _ => True) w := by
  unfold restOrder contractDexInsert
  simp only [wp_bind, wp_ite, wp_onState, wp_get, wp_set, wp_pure, wp_modify]
  simp

/-! ## The rule -/

/-- The market price has reached the liquidation price of an address, as `marginLogic` compares them. -/
def PriceReached (s : State) (p : PropertyId) (a : Address) : Prop :=
  contractShortDouble (toInt64 s.marketPrice) ≤
    contractShortDouble (s.getMPbalance a p .liquidationPrice)

instance (s : State) (p : PropertyId) (a : Address) : Decidable (PriceReached s p a) :=
  inferInstanceAs (Decidable (_ ≤ _))

/-- The contracts an address holds, long or short. -/
def openContracts (s : State) (p : PropertyId) (a : Address) : Int :=
  s.tallyMap.money a p .possitiveBalance + s.tallyMap.money a p .negativeBalance

/-- The innermost call is between a match of the property and its erasure. -/
def Settling (w : World) (p : PropertyId) : Prop :=
  ∃ t pold pnew fs, w.frames = ⟨t, some (pold, pnew)⟩ :: fs ∧ pold.property = p

/-- What one elementary step of the engine must keep. `E` says in which worlds the engine may
    halt, and `M` what holds in between, when the liquidation prices of a pair were written and it
    is not yet known whether anything is traded. -/
structure EngineInv (I : World → Prop) (E : Halt → World → Prop)
    (M : CMPContractDex → CMPContractDex → World → Prop := fun _ _ w => I w) : Prop where
  /-- the level of an order does not match its price -/
  condition : ∀ {w : World} {p price} {key : OrderKey} {pold : CMPContractDex}, I w →
    (w.state.contractLevel p price)[key]? = some pold → pold.effectivePrice ≠ price →
    E (.assertFailed .condition) w
  /-- the liquidation prices of a candidate are written -/
  visit : ∀ {w fs price key pold pnew}, I w → w.frames = ⟨pnew, none⟩ :: fs →
    Candidate w.state price key pold pnew →
    wp (visitCandidate pold pnew) (fun _ w' => M pold pnew w') E w
  /-- there is nothing to trade -/
  skip : ∀ {w pold pnew}, M pold pnew w → (parties w.state pold pnew).nCouldBuy = 0 → I w := by
    exact fun h _ => h
  /-- a match is executed -/
  fill : ∀ {w fs price key pold pnew}, M pold pnew w → w.frames = ⟨pnew, none⟩ :: fs →
    Candidate w.state price key pold pnew → (parties w.state pold pnew).nCouldBuy ≠ 0 →
    wp (fillOrder pold pnew) (fun _ w' => I w') E w
  /-- `marginLogic` looks at an address -/
  check : ∀ {w p} (a : Address) (last : Bool), I w → Settling w p →
    I { w with trace := .marginCheck w.state p a last :: w.trace }
  /-- a margin order is placed for an address whose price was reached -/
  call : ∀ {w p a last rest}, I w → Settling w p → PriceReached w.state p a →
    w.trace = .marginCheck w.state p a last :: rest →
    I (w.place (marginOrder w a p w.state.marketPrice))
  /-- the liquidation price of a called address is taken back -/
  reset : ∀ {w s p a last} (liq : Int), I w → Settling w p →
    .marginCheck s p a last ∈ w.trace → PriceReached s p a →
    wp (onState (assertUpdate a p (-liq) .liquidationPrice)) (fun _ w' => I w') E w
  /-- the order that was matched in `w0` leaves the book -/
  erase : ∀ {w w0 fs price key pold pnew rem}, I w → M pold pnew w0 →
    .matched w0.state fs pold pnew :: w0.trace <:+ w.trace →
    Candidate w0.state price key pold pnew →
    rem = remainders (parties w0.state pold pnew) pold pnew →
    w.frames = ⟨rem.pnew, some (pold, pnew)⟩ :: fs →
    wp (eraseMatched price key pold pnew rem) (fun _ w' => I w') E w
  /-- what remains of an order goes into the book -/
  rest : ∀ {w fs o}, I w → w.frames = ⟨o, none⟩ :: fs → wp (restOrder o) (fun _ w' => I w') E w
  fuel : ∀ {w}, I w → E .outOfFuel w
  /-- the last address of a vector was called, or a price has no absolute value -/
  undefined : ∀ {w}, I w → E .undefinedBehaviour w

section Rule

variable {I : World → Prop} {E : Halt → World → Prop}
  {M : CMPContractDex → CMPContractDex → World → Prop}

/-- `w'` is a later world with the same running calls. -/
def Returned (w w' : World) : Prop := w'.frames = w.frames ∧ w.trace <:+ w'.trace

theorem Returned.refl (w : World) : Returned w w := ⟨rfl, List.suffix_refl _⟩

theorem Returned.trans {w w' w'' : World} (h : Returned w w') (h' : Returned w' w'') :
    Returned w w'' :=
  ⟨h'.1.trans h.1, h.2.trans h'.2⟩

/-- A matching procedure that keeps `I` and hands its order back in its own frame. -/
def KeepsTrade (I : World → Prop) (E : Halt → World → Prop)
    (trade : CMPContractDex → ExecW (MatchReturnType × CMPContractDex)) : Prop :=
  ∀ w fs pnew, I w → w.frames = ⟨pnew, none⟩ :: fs →
    wp (trade pnew)
      (fun r w' => I w' ∧ w'.frames = ⟨r.2, none⟩ :: fs ∧ w.trace <:+ w'.trace) E w

/-- Joins what a step keeps with what it leaves alone. -/
theorem wp_with_frame {α : Type} {x : ExecW α} {Q F : α → World → Prop} {w : World}
    (h : wp x Q E w) (hf : wp x F (fun _ _ => True) w) :
    wp x (fun a w' => Q a w' ∧ F a w') E w :=
  wp_mono (wp_and h hf) (fun _ _ h => h) (fun _ _ h => h.1)

theorem contractDexAddWith_rule (hE : EngineInv I E M)
    {trade : CMPContractDex → ExecW (MatchReturnType × CMPContractDex)}
    (htrade : KeepsTrade I E trade) {w : World} {o : CMPContractDex}
    (hreject : o.effectivePrice = 0 → I w) (hplace : o.effectivePrice ≠ 0 → I (w.place o)) :
    wp (contractDexAddWith trade o) (fun _ w' => I w' ∧ Returned w w') E w := by
  unfold contractDexAddWith
  rw [wp_ite]
  refine ⟨fun hp => (wp_pure _ _ _ _).mpr ⟨hreject hp, Returned.refl w⟩, fun hp => ?_⟩
  simp only [wp_bind, wp_modify, wp_pure]
  refine wp_imp (htrade (w.place o) w.frames o (hplace hp) rfl) ?_
  rintro r w' ⟨hI', hf', ht'⟩
  refine wp_imp (wp_with_frame (hE.rest hI' hf') (restOrder_frame r.2 w')) ?_
  rintro b w'' ⟨hI'', hf'', ht''⟩
  rw [hf', List.tail_cons] at hf''
  refine ⟨hI'', hf'', ?_⟩
  rw [ht'']
  exact (List.suffix_cons _ _).trans ht'

theorem marginLoop_rule (hE : EngineInv I E M)
    {trade : CMPContractDex → ExecW (MatchReturnType × CMPContractDex)}
    (htrade : KeepsTrade I E trade) (p : PropertyId) (n : Nat) :
    ∀ (addrs : List Text), addrs.length ≤ n → ∀ (w : World), I w → Settling w p →
      wp (marginLoop trade p addrs) (fun _ w' => I w' ∧ Returned w w') E w := by
  -- a margin call skips an address, so the induction is on a bound of the length
  induction n with
  | zero =>
      intro addrs hlen w hI _
      have hnil : addrs = [] := List.length_eq_zero_iff.mp (by omega)
      subst hnil
      exact (wp_pure _ _ _ _).mpr ⟨hI, Returned.refl w⟩
  | succ n ih =>
      intro addrs hlen w hI hset
      cases addrs with
      | nil => exact (wp_pure _ _ _ _).mpr ⟨hI, Returned.refl w⟩
      | cons t rest =>
          have hrest : rest.length ≤ n := by
            simp only [List.length_cons] at hlen
            omega
          unfold marginLoop
          cases hadr : Address.ofText? t with
          | none => exact ih rest hrest w hI hset
          | some address =>
              have hI1 := hE.check address rest.isEmpty hI hset
              have hr1 : Returned w { w with
                  trace := .marginCheck w.state p address rest.isEmpty :: w.trace } :=
                ⟨rfl, List.suffix_cons _ _⟩
              simp only [wp_bind, wp_get, emit, wp_modify]
              rw [wp_onState, wp_comparePrices]
              simp only [wp_ite, decide_eq_true_eq]
              refine ⟨fun _ => ⟨?_, fun _ => ?_⟩, fun _ => hE.undefined hI1⟩
              · intro hcall
                unfold marginCallWith
                simp only [wp_bind, wp_get]
                refine wp_imp (contractDexAddWith_rule hE htrade (fun _ => hI1) ?_) ?_
                · intro _
                  exact hE.call hI1 hset hcall rfl
                · rintro rc w' ⟨hI', hr'⟩
                  have hset' : Settling w' p := by
                    unfold Settling
                    rw [hr'.1]
                    exact hset
                  refine wp_imp (wp_with_frame (F := fun _ w'' => Returned w' w'')
                    (hE.reset _ hI' hset' (hr'.2.subset List.mem_cons_self) hcall) ?_) ?_
                  · rw [wp_onState]
                    exact wp_all (fun _ _ => ⟨rfl, List.suffix_refl _⟩) (fun _ _ => trivial)
                  · rintro _ w'' ⟨hI'', hr''⟩
                    cases rest with
                    | nil =>
                        exact (wp_throw _ _ _ _).mpr (hE.undefined hI'')
                    | cons skipped rest =>
                        have hset'' : Settling w'' p := by
                          unfold Settling
                          rw [hr''.1]
                          exact hset'
                        refine wp_imp (ih rest ?_ w'' hI'' hset'') ?_
                        · simp only [List.length_cons] at hrest
                          omega
                        · rintro _ w3 ⟨hI3, hr3⟩
                          exact ⟨hI3, ((hr1.trans hr').trans hr'').trans hr3⟩
              · refine wp_imp (ih rest hrest _ hI1 hset) ?_
                rintro _ w' ⟨hI', hr'⟩
                exact ⟨hI', hr1.trans hr'⟩

/-- **THE ENGINE RULE**: a predicate that every elementary step keeps is kept by `x_Trade`, to
    any depth of margin calls. -/
theorem xTradeLoop_rule (hE : EngineInv I E M) (fuel : Nat) :
    ∀ cursor ret, KeepsTrade I E (xTradeLoop fuel cursor ret) := by
  induction fuel with
  | zero =>
      intro cursor ret w fs pnew hI _
      exact (wp_throw _ _ _ _).mpr (hE.fuel hI)
  | succ fuel ih =>
      intro cursor ret w fs pnew hI hf
      unfold xTradeLoop
      rw [wp_bind, wp_get]
      cases hn : nextOffer (w.state.contractPrices pnew.property) pnew cursor with
      | none => exact (wp_pure _ _ _ _).mpr ⟨hI, hf, List.suffix_refl _⟩
      | some e =>
          obtain ⟨price, key, pold⟩ := e
          obtain ⟨hbook, hpass⟩ := nextOffer_inBook hn
          simp only [wp_bind, wp_onState, wp_assertThat, wp_ite]
          refine ⟨fun hprice => ⟨?_, ?_⟩, fun hprice => ?_⟩
          · -- not a counterpart: the loops move on
            intro _
            exact ih (some (price, key)) ret w fs pnew hI hf
          · intro hcp
            have hc : Candidate w.state price key pold pnew :=
              ⟨hbook, hpass, by simpa using hprice,
                by by_contra h; exact hcp (Or.inl h), fun h => hcp (Or.inr h)⟩
            refine wp_imp (wp_with_frame (hE.visit hI hf hc) (visitCandidate_frame pold pnew w)) ?_
            rintro _ w1 ⟨hI1, hf1, ht1, hl1⟩
            rw [hf] at hf1
            have hc1 : Candidate w1.state price key pold pnew :=
              ⟨by rw [hl1.contractLevel]; exact hc.inBook, hc.passes, hc.priceEq, hc.property,
                hc.action⟩
            rw [wp_get]
            refine ⟨fun hz => ?_, fun hnz => ?_⟩
            · refine wp_imp (ih (some (price, key)) ret w1 fs pnew (hE.skip hI1 hz) hf1) ?_
              rintro r w' ⟨hI', hf', ht'⟩
              exact ⟨hI', hf', ht1.trans ht'⟩
            refine wp_imp (wp_with_frame (hE.fill hI1 hf1 hc1 hnz) (fillOrder_frame pold pnew w1)) ?_
            rintro rem w2 ⟨hI2, hrem, hf2, ht2⟩
            rw [hf1, List.tail_cons] at hf2 ht2
            unfold marginLogicWith
            simp only [wp_bind, wp_get]
            refine wp_imp (marginLoop_rule hE (ih none .nothing) pold.property _ _ le_rfl w2 hI2
              ⟨_, _, _, _, hf2, rfl⟩) ?_
            rintro _ w3 ⟨hI3, hr3⟩
            have hf3 : w3.frames = ⟨rem.pnew, some (pold, pnew)⟩ :: fs := hr3.1.trans hf2
            refine wp_imp (wp_with_frame
              (hE.erase hI3 hI1 (ht2 ▸ hr3.2) hc1 hrem hf3)
              (eraseMatched_frame price key pold pnew rem w3)) ?_
            rintro _ w4 ⟨hI4, hf4, ht4⟩
            rw [hf3, List.tail_cons] at hf4
            refine wp_imp (ih (some (price, key)) rem.ret w4 fs rem.pnew hI4 hf4) ?_
            rintro r w' ⟨hI', hf', ht'⟩
            have ht12 : w1.trace <:+ w2.trace := ht2 ▸ List.suffix_cons _ _
            exact ⟨hI', hf', (((ht1.trans ht12).trans hr3.2).trans ht4).trans ht'⟩
          · exact hE.condition hI hbook (by simpa using hprice)

/-- `ContractDex_ADD` keeps the predicate, once the order is placed. -/
theorem contractDexAdd_rule (hE : EngineInv I E M) (fuel : Nat) {w : World} {o : CMPContractDex}
    (hreject : o.effectivePrice = 0 → I w) (hplace : o.effectivePrice ≠ 0 → I (w.place o)) :
    wp (contractDexAddWith (xTradeContract fuel) o) (fun _ w' => I w' ∧ Returned w w') E w :=
  contractDexAddWith_rule hE (xTradeLoop_rule hE fuel none .nothing) hreject hplace

end Rule

end OmniCore
