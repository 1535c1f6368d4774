import OmniCore.ContractCancel

/-! # ContractReserve — the margin of a trade, and trades that are rejected

    The margin of a trade is the amount times the margin requirement. The product is taken in
    `uint64_t` and converted to `int64_t` before the balance is looked at. The reservation
    comes first: the price of the order is only checked after the margin was moved and
    the trade was recorded, and nothing takes either back. -/

namespace OmniCore

open Std (ExtTreeMap)
open Machine TextRec MapSum Exec

/-! ## The two parts of a trade -/

/-- The first part of `logicMath_ContractDexTrade`: the check of the balance and the two updates. It
    returns whether the trade goes on. -/
def reserveMargin (tx : CMPTransaction) : ExecM Bool := do
  let s ← get
  if s.getMPbalance tx.sender s.collateralCurrency .balance < amountToReserve s tx then
    pure false
  else
    assertUpdate tx.sender s.collateralCurrency (-amountToReserve s tx) .balance
    assertUpdate tx.sender s.collateralCurrency (amountToReserve s tx) .contractDExReserve
    pure true

/-- The second part: the trade is recorded, and its order goes to the engine. -/
def recordAndAdd (fuel : Nat) (tx : CMPTransaction) : ExecW Int := do
  onState (recordNewTrade tx.txid tx.sender tx.property.toNat tx.desiredProperty.toNat tx.block
    tx.txIdx)
  contractDexAdd fuel tx.sender tx.property.toNat (toInt64 tx.nValue.toNat) tx.block
    tx.desiredProperty.toNat (toInt64 tx.desiredValue.toNat) tx.txid tx.txIdx
    tx.effectivePrice.toNat tx.tradingAction.toNat

theorem onState_bind {α β : Type} (x : ExecM α) (f : α → ExecM β) :
    onState (x >>= f) = onState x >>= fun a => onState (f a) := by
  funext w
  simp only [onState, zoom, bind, EStateM.bind]
  cases x w.state with
  | ok a s => rfl
  | error e s => rfl

theorem onState_get_bind {β : Type} (f : State → ExecM β) :
    onState (get >>= f) = get >>= fun w => onState (f w.state) := rfl

theorem onState_pure {α : Type} (a : α) : onState (pure a) = pure a := rfl

/-- The handler is made of these two parts. -/
theorem logicMathContractDexTrade_eq (fuel : Nat) (tx : CMPTransaction) :
    logicMathContractDexTrade fuel tx = (do
      let accepted ← onState (reserveMargin tx)
      if accepted then recordAndAdd fuel tx else pure (pktErrorMetaDEx - 25)) := by
  unfold logicMathContractDexTrade reserveMargin recordAndAdd
  rw [onState_get_bind, bind_assoc]
  refine bind_congr fun w => ?_
  dsimp only
  by_cases h : w.state.getMPbalance tx.sender w.state.collateralCurrency .balance <
      amountToReserve w.state tx
  · rw [if_pos h, if_pos (show _ < toInt64 _ from h), onState_pure, pure_bind]
    rfl
  · rw [if_neg h, if_neg (show ¬ _ < toInt64 _ from h)]
    simp only [onState_bind, onState_pure, bind_assoc, pure_bind, if_true]
    rfl

/-! ## The reservation -/

/-- The reservation goes through: the residue of the margin, modulo `2 ^ 64` and signed, is not zero and
    within the balance, and both balances can be moved by it. -/
structure MarginAccepted (s : State) (tx : CMPTransaction) : Prop where
  enough : amountToReserve s tx ≤ s.getMPbalance tx.sender s.collateralCurrency .balance
  debit : CanUpdate s tx.sender s.collateralCurrency (-amountToReserve s tx) .balance
  credit : CanUpdate s tx.sender s.collateralCurrency (amountToReserve s tx) .contractDExReserve

/-- What the reservation returns, and what it moves. -/
structure MarginMoved (s : State) (tx : CMPTransaction) (accepted : Bool) (s' : State) : Prop where
  goesOn : accepted = true → MarginAccepted s tx ∧
    ∃ m, Posted s.tallyMap m (reserveEntries s tx) ∧ s' = s.withTally m
  stops : accepted = false → ¬ MarginAccepted s tx ∧ s' = s

/-- A credited balance leaves the other balances as they are to be updated. -/
theorem canUpdate_of_credited {s : State} {m : TallyMap} {who : Address} {p : PropertyId}
    {amount change : Int} (h : Credited s.tallyMap m who p change .balance) :
    CanUpdate (s.withTally m) who p amount .contractDExReserve ↔
      CanUpdate s who p amount .contractDExReserve := by
  have hmoney : (s.withTally m).tallyMap.money who p .contractDExReserve =
      s.tallyMap.money who p .contractDExReserve := by
    show m.money who p .contractDExReserve = _
    rw [h.money who p .contractDExReserve]
    simp
  constructor
  · rintro ⟨hne, hrange, hnonneg, -⟩
    rw [hmoney] at hrange hnonneg
    exact ⟨hne, hrange, hnonneg, nofun⟩
  · rintro ⟨hne, hrange, hnonneg, -⟩
    rw [← hmoney] at hrange hnonneg
    exact ⟨hne, hrange, hnonneg, nofun⟩

theorem reserveMargin_spec (tx : CMPTransaction) (s : State) :
    wp (reserveMargin tx) (fun accepted s' => MarginMoved s tx accepted s')
      (fun _ _ => ¬ MarginAccepted s tx) s := by
  unfold reserveMargin
  rw [wp_bind, wp_get, wp_ite]
  refine ⟨fun hlt => (wp_pure _ _ _ _).mpr ⟨nofun, fun _ => ?_⟩, fun hle => ?_⟩
  · exact ⟨fun h => absurd h.enough (not_le.mpr hlt), rfl⟩
  · rw [wp_bind]
    refine wp_assertUpdate (fun hdebit m1 hm1 => ?_) fun hbad _ _ _ h => hbad h.debit
    rw [wp_bind]
    refine wp_assertUpdate (fun hcredit m2 hm2 => ?_) fun hbad _ _ _ h => ?_
    · rw [canUpdate_of_credited hm1] at hcredit
      refine (wp_pure _ _ _ _).mpr ⟨fun _ => ⟨⟨not_lt.mp hle, hdebit, hcredit⟩, m2, ?_, rfl⟩, nofun⟩
      exact hm1.posted.trans hm2.posted
    · exact hbad ((canUpdate_of_credited hm1).mpr h.credit)

/-- The reservation returns that the trade goes on exactly if it goes through. -/
theorem reserveMargin_true_iff (tx : CMPTransaction) (s : State) :
    (∃ s', reserveMargin tx s = .ok true s') ↔ MarginAccepted s tx := by
  have hspec := reserveMargin_spec tx s
  constructor
  · rintro ⟨s', hrun⟩
    exact ((wp_ok hspec hrun).goesOn rfl).1
  · intro hacc
    cases hrun : reserveMargin tx s with
    | error e s' => exact absurd hacc (wp_error hspec hrun)
    | ok accepted s' =>
        cases accepted with
        | true => exact ⟨s', rfl⟩
        | false => exact absurd hacc ((wp_ok hspec hrun).stops rfl).1

/-- The margin of a trade, as a number. -/
def exactMargin (s : State) (tx : CMPTransaction) : Int :=
  tx.nValue.toNat * s.marginRequirementContract

/-- Whenever the trade goes on, the balance covers its margin, and exactly that was moved. -/
def ReservesExactly (s : State) (tx : CMPTransaction) : Prop :=
  ∀ s', reserveMargin tx s = .ok true s' →
    exactMargin s tx ≤ s.getMPbalance tx.sender s.collateralCurrency .balance ∧
      Posted s.tallyMap s'.tallyMap
        [⟨tx.sender, s.collateralCurrency, -exactMargin s tx, .balance⟩,
         ⟨tx.sender, s.collateralCurrency, exactMargin s tx, .contractDExReserve⟩]

/-- **THE MARGIN IS EXACT** exactly if it is below `2 ^ 63`, or if the reservation of its residue does not
    go through. -/
theorem margin_exact_iff (s : State) (tx : CMPTransaction) :
    ReservesExactly s tx ↔ exactMargin s tx < 2 ^ 63 ∨ ¬ MarginAccepted s tx := by
  constructor
  · intro hexact
    by_contra hbad
    rw [not_or, not_not, not_lt] at hbad
    obtain ⟨hlarge, hacc⟩ := hbad
    obtain ⟨s', hrun⟩ := (reserveMargin_true_iff tx s).mpr hacc
    have hcovered := (hexact s' hrun).1
    -- no balance is as large as such a margin
    have hmax := TallyMap.money_le s.tallyMap tx.sender s.collateralCurrency .balance
    rw [State.getMPbalance_eq _ _ _ (by decide)] at hcovered
    unfold maxInt64 at hmax
    omega
  · rintro (hsmall | hnot) s' hrun
    · have hresidue : amountToReserve s tx = exactMargin s tx := by
        unfold amountToReserve
        refine toInt64_of_isInt64 ?_
        have hnonneg : 0 ≤ exactMargin s tx := by
          unfold exactMargin
          positivity
        unfold exactMargin at hsmall hnonneg
        unfold IsInt64 minInt64 maxInt64
        omega
      obtain ⟨hacc, m, hm, rfl⟩ := (wp_ok (reserveMargin_spec tx s) hrun).goesOn rfl
      have henough := hacc.enough
      unfold reserveEntries at hm
      rw [hresidue] at henough hm
      exact ⟨henough, hm⟩
    · exact absurd ((reserveMargin_true_iff tx s).mp ⟨s', hrun⟩) hnot

/-- `A` bids for `(2 ^ 64 + 2) / 3` contracts, at a margin of 3 for each. -/
def hugeBid : CMPTransaction := orderTx traderA 2 11 1 6148914691236517206 100

set_option maxRecDepth 4000 in
private theorem hugeBid_accepted : value (reserveMargin hugeBid) (marketState 0 3) = some true := by
  decide +kernel

/-- **A WRAPPED MARGIN IS ACCEPTED**: the bid costs `2 ^ 64 + 2`, and a reservation of 2 is enough. -/
theorem hugeBid_not_exact : ¬ ReservesExactly (marketState 0 3) hugeBid := by
  intro hexact
  have hcovered := (hexact _ (eq_ok_of_value hugeBid_accepted)).1
  have hmax := TallyMap.money_le (marketState 0 3).tallyMap traderA
    (marketState 0 3).collateralCurrency .balance
  rw [State.getMPbalance_eq _ _ _ (by decide)] at hcovered
  have hmargin : exactMargin (marketState 0 3) hugeBid = 2 ^ 64 + 2 := by decide +kernel
  rw [hmargin] at hcovered
  have hle := hcovered.trans hmax
  exact absurd hle (by decide)

/-! ## Rejected trades -/

/-- A trade that is answered with an error code leaves ledger, book and trade records as they are. -/
def RejectsCleanly (fuel : Nat) (tx : CMPTransaction) (s : State) : Prop :=
  ∀ rc w, logicMathContractDexTrade fuel tx (World.start s) = .ok rc w → rc < 0 →
    w.state.tallyMap = s.tallyMap ∧ w.state.contractdex = s.contractdex ∧
      w.state.tradeList = s.tradeList

/-- While the order of a trade is in the engine: nothing rests under its key, and the orders of the
    nested calls, all of margin calls, have another one. -/
structure KeyInv (k : OrderKey) (w : World) : Prop where
  book : BookOf (fun o => o.key ≠ k) w.state
  keys : ∃ n, w.frames.map (fun f => f.taker.key) = List.replicate n marginKey ++ [k]

/-- A step that leaves the book and the keys of the running orders alone. -/
theorem KeyInv.quiet {k : OrderKey} {w w' : World} (h : KeyInv k w)
    (hf : w'.frames.map (fun f => f.taker.key) = w.frames.map fun f => f.taker.key)
    (hbook : w'.state.contractdex = w.state.contractdex) : KeyInv k w' :=
  ⟨h.book.congr hbook, by rw [hf]; exact h.keys⟩

/-- What a match leaves of the incoming order has its key. -/
theorem incoming_key (s : State) (pold pnew : CMPContractDex) :
    (remainders (parties s pold pnew) pold pnew).pnew.key = pnew.key := by
  obtain ⟨r, hr⟩ := (remainders_shape s pold pnew).2
  rw [hr]
  rfl

theorem keyInv_engine {k : OrderKey} (hk : k ≠ marginKey) :
    EngineInv (fun w => w.frames ≠ [] → KeyInv k w) fun _ _ => True where
  condition := fun _ _ _ => trivial
  visit := by
    intro w fs price key pold pnew hI _ _
    refine wp_mono (visitCandidate_spec pold pnew w) ?_ (fun _ _ _ => trivial)
    rintro _ w' ⟨m, -, rfl⟩ hne
    exact (hI hne).quiet rfl rfl
  fill := by
    intro w fs price key pold pnew hI hf _ _
    refine wp_mono (fillOrder_spec pold pnew w) ?_ (fun _ _ _ => trivial)
    rintro rem w' ⟨rfl, s', mp, basisS, basisB, rS, rB, value, heff, rfl⟩ _
    refine (hI (by rw [hf]; simp)).quiet ?_ (by rw [heff.state])
    rw [hf, List.tail_cons, List.map_cons, List.map_cons, incoming_key]
  check := fun _ _ hI _ hne => (hI hne).quiet rfl rfl
  call := by
    intro w p a last rest hI hset _ _ _
    obtain ⟨t, pold, pnew, fs, hf, -⟩ := hset
    have h : KeyInv k w := hI (by rw [hf]; simp)
    obtain ⟨n, hn⟩ := h.keys
    refine ⟨h.book, n + 1, ?_⟩
    show marginKey :: w.frames.map (fun f => f.taker.key) = _
    rw [hn, List.replicate_succ, List.cons_append]
  reset := by
    intro w s p a last liq hI _ _ _
    rw [wp_onState]
    refine wp_mono (assertUpdate_posts _ _ _ _ w.state) ?_ (fun _ _ _ => trivial)
    rintro _ s' ⟨m, rfl, -⟩ hne
    exact (hI hne).quiet rfl rfl
  erase := by
    intro w w0 fs price key pold pnew rem hI _ _ _ hrem hf
    refine wp_mono (eraseMatched_spec price key pold pnew rem w) ?_ (fun _ _ _ => trivial)
    rintro _ w' ⟨hplace, rfl⟩ _
    have h : KeyInv k w := hI (by rw [hf]; simp)
    obtain ⟨hp, hr, hkey⟩ := h.book.wf _ _ _ _ hplace
    have hold : Resting w.state pold := h.book.wf.resting hplace
    subst hrem
    refine ⟨?_, ?_⟩
    · rw [← hr, ← hkey]
      refine h.book.replaceMatched hold hp fun _ => ?_
      obtain ⟨r, hrep⟩ := (remainders_shape w0.state pold pnew).1
      rw [hrep]
      exact h.book.all pold hold
    · have hkeys := h.keys
      rw [hf] at hkeys ⊢
      exact hkeys
  rest := by
    intro w fs o hI hf
    refine wp_imp (restOrder_spec o w _) ?_
    rintro _ w' rfl hne
    have h : KeyInv k w := hI (by rw [hf]; simp)
    obtain ⟨n, hn⟩ := h.keys
    have htail : w.frames.tail = fs := by rw [hf, List.tail_cons]
    rw [hf, List.map_cons] at hn
    -- the order of the trade is the last one; above it are those of margin calls
    cases n with
    | zero =>
        rw [List.replicate_zero, List.nil_append, List.cons.injEq, List.map_eq_nil_iff] at hn
        exact absurd (htail.trans hn.2) hne
    | succ n =>
        rw [List.replicate_succ, List.cons_append, List.cons.injEq] at hn
        refine ⟨h.book.restState fun _ => ?_, n, ?_⟩
        · show o.key ≠ k
          have ho : o.key = marginKey := hn.1
          rw [ho]
          exact hk.symm
        · show w.frames.tail.map _ = _
          rw [htail]
          exact hn.2
  fuel := fun _ => trivial
  undefined := fun _ => trivial

/-- An order whose place is free is inserted if there is anything left of it. -/
theorem restOrder_true {o : CMPContractDex} {w : World} (h : FreePlace w.state o) :
    wp (restOrder o) (fun inserted _ => inserted = true) (fun _ _ => False) w := by
  have hfree : (w.state.contractLevel o.property o.effectivePrice).contains o.key = false := by
    unfold FreePlace at h
    rw [ExtTreeMap.contains_eq_isSome_getElem?, h]
    rfl
  unfold restOrder contractDexInsert
  simp only [wp_bind, wp_ite, wp_onState, wp_get, wp_set, wp_pure, wp_modify]
  simp [hfree]

/-- **NO KEY IS TAKEN**: an order under a new key, with a price, is added without an error. -/
theorem contractDexAddWith_returns_zero {k : OrderKey} (hk : k ≠ marginKey) (fuel : Nat) {w : World}
    (hf : w.frames = []) (hbook : BookOf (fun o => o.key ≠ k) w.state) {o : CMPContractDex}
    (ho : o.key = k) (hprice : o.effectivePrice ≠ 0) :
    wp (contractDexAddWith (xTradeContract fuel) o) (fun rc _ => rc = 0) (fun _ _ => True) w := by
  unfold contractDexAddWith
  rw [if_neg hprice]
  simp only [wp_bind, wp_modify]
  have hplaced : KeyInv k (w.place o) := by
    refine ⟨hbook, 0, ?_⟩
    show o.key :: w.frames.map _ = _
    rw [ho, hf]
    rfl
  refine wp_imp (xTradeLoop_rule (keyInv_engine hk) fuel none .nothing (w.place o) w.frames o
    (fun _ => hplaced) rfl) ?_
  rintro ⟨_, o'⟩ w' ⟨hI, hf', -⟩
  have h : KeyInv k w' := hI (by rw [hf']; simp)
  have ho' : o'.key = k := by
    obtain ⟨n, hn⟩ := h.keys
    rw [hf', hf] at hn
    cases n with
    | zero => simpa using hn
    | succ n =>
        have hlen := congrArg List.length hn
        simp at hlen
  have hfree : FreePlace w'.state o' := by
    unfold FreePlace
    cases hplace : (w'.state.contractLevel o'.property o'.effectivePrice)[o'.key]? with
    | none => rfl
    | some x =>
        obtain ⟨-, -, hx⟩ := h.book.wf _ _ _ _ hplace
        exact absurd (hx.trans ho') (h.book.all x (h.book.wf.resting hplace))
  refine wp_mono (restOrder_true hfree) ?_ (fun _ _ hno => hno.elim)
  rintro inserted w'' rfl
  simp

/-- An order without a price is turned down after its margin was moved and its trade recorded. -/
theorem recordAndAdd_zero_price {tx : CMPTransaction} (h : tx.effectivePrice.toNat = 0) (fuel : Nat)
    (w : World) :
    wp (recordAndAdd fuel tx)
      (fun rc w' => rc = metaDExError - 66 ∧ w'.state.tallyMap = w.state.tallyMap)
      (fun _ _ => False) w := by
  unfold recordAndAdd recordNewTrade contractDexAdd contractDexAddWith
  simp only [wp_bind, wp_onState, wp_modify, wp_get, wp_ite, wp_pure]
  exact ⟨fun _ => by simp, fun hne => absurd h hne⟩

theorem sum_toMoney_reserved {a : Address} {c : PropertyId} {amount : Int} :
    (([⟨a, c, -amount, .balance⟩, ⟨a, c, amount, .contractDExReserve⟩] : List Entry).map
      fun e => e.toMoney a c .balance).sum = -amount := by
  simp [Entry.toMoney]

/-- A reserved margin is taken out of the balance. -/
theorem reserve_moves {s : State} {tx : CMPTransaction} {m : TallyMap}
    (hm : Posted s.tallyMap m (reserveEntries s tx)) (hne : -amountToReserve s tx ≠ 0) :
    m ≠ s.tallyMap := by
  rintro rfl
  have hmoved := hm.money tx.sender s.collateralCurrency .balance
  have hsum : ((reserveEntries s tx).map
      fun e => e.toMoney tx.sender s.collateralCurrency .balance).sum = -amountToReserve s tx :=
    sum_toMoney_reserved
  rw [hsum] at hmoved
  exact hne (left_eq_add.mp hmoved)

theorem missingPrice_neg : metaDExError - 66 < 0 := by decide

/-- A trade whose margin is reserved and which has no price: an error code, and the margin is moved. -/
theorem trade_zero_price {s : State} {tx : CMPTransaction} (hprice : tx.effectivePrice.toNat = 0)
    (hacc : MarginAccepted s tx) (fuel : Nat) :
    wp (logicMathContractDexTrade fuel tx)
      (fun rc w => rc = metaDExError - 66 ∧
        ∃ m, Posted s.tallyMap m (reserveEntries s tx) ∧ w.state.tallyMap = m)
      (fun _ _ => False) (World.start s) := by
  rw [logicMathContractDexTrade_eq, wp_bind, wp_onState]
  refine wp_mono (reserveMargin_spec tx s) (fun accepted s' h => ?_) fun _ _ hnot => hnot hacc
  cases accepted with
  | false => exact absurd hacc (h.stops rfl).1
  | true =>
      obtain ⟨-, m, hm, rfl⟩ := h.goesOn rfl
      rw [if_pos rfl]
      refine wp_imp (recordAndAdd_zero_price hprice fuel _) ?_
      rintro rc w ⟨hrc, htally⟩
      exact ⟨hrc, m, hm, htally⟩

/-- An order with a price and a key of its own is added without an error. -/
theorem recordAndAdd_returns_zero {tx : CMPTransaction} (hprice : tx.effectivePrice.toNat ≠ 0)
    (hmargin : (tx.block, tx.txIdx) ≠ marginKey) (fuel : Nat) {w : World} (hf : w.frames = [])
    (hbook : BookOf (fun o => o.key ≠ (tx.block, tx.txIdx)) w.state) :
    wp (recordAndAdd fuel tx) (fun rc _ => rc = 0) (fun _ _ => True) w := by
  unfold recordAndAdd recordNewTrade contractDexAdd
  simp only [wp_bind, wp_onState, wp_modify, wp_get]
  refine contractDexAddWith_returns_zero (k := (tx.block, tx.txIdx)) hmargin fuel ?_ ?_ rfl hprice
  · exact hf
  · exact hbook.congr rfl

/-- **A REJECTED TRADE CHANGES NOTHING** exactly if it has a price or its margin is not reserved: for a
    trade at a position of its own, the only error codes are those of an uncovered margin and
    of a missing price. -/
theorem rejected_cleanly_iff {s : State} (hs : BookReached s) {tx : CMPTransaction}
    (hfresh : ∀ o, Resting s o → o.key ≠ (tx.block, tx.txIdx))
    (hmargin : (tx.block, tx.txIdx) ≠ marginKey) (fuel : Nat) :
    RejectsCleanly fuel tx s ↔ ¬ (tx.effectivePrice.toNat = 0 ∧ MarginAccepted s tx) := by
  constructor
  · rintro hclean ⟨hprice, hacc⟩
    obtain ⟨rc, w, hrun, rfl, m, hm, htally⟩ :=
      wp_returns (trade_zero_price hprice hacc fuel)
    obtain ⟨hsame, -, -⟩ := hclean _ _ hrun missingPrice_neg
    -- the balance of the sender was moved
    exact reserve_moves hm hacc.debit.ne_zero (by rw [← htally, hsame])
  · intro hnot
    have hclean : wp (logicMathContractDexTrade fuel tx)
        (fun rc w => rc < 0 → w.state.tallyMap = s.tallyMap ∧
          w.state.contractdex = s.contractdex ∧ w.state.tradeList = s.tradeList)
        (fun _ _ => True) (World.start s) := by
      rw [logicMathContractDexTrade_eq, wp_bind, wp_onState]
      refine wp_mono (reserveMargin_spec tx s) (fun accepted s' h => ?_) fun _ _ _ => trivial
      cases accepted with
      | false =>
          -- the margin is not covered
          obtain ⟨-, rfl⟩ := h.stops rfl
          rw [if_neg (by decide), wp_pure]
          exact fun _ => ⟨rfl, rfl, rfl⟩
      | true =>
          obtain ⟨hacc, m, -, rfl⟩ := h.goesOn rfl
          rw [if_pos rfl]
          have hbook : BookOf (fun o => o.key ≠ (tx.block, tx.txIdx)) (s.withTally m) :=
            BookOf.congr ⟨hs.nonneg.wf, hfresh⟩ rfl
          refine wp_imp (recordAndAdd_returns_zero (fun hprice => hnot ⟨hprice, hacc⟩) hmargin fuel
            (w := { World.start s with state := s.withTally m }) rfl hbook) ?_
          rintro rc w rfl hneg
          exact absurd hneg (lt_irrefl 0)
    exact fun rc w hrun => wp_ok hclean hrun

/-- `A` bids 100 for each of 200 contracts. -/
def uncoveredBid : CMPTransaction := orderTx traderA 2 11 1 200 100

set_option maxRecDepth 4000 in
/-- The margin is more than `A` has: the bid is rejected, and nothing has changed. -/
theorem rejected_cleanly_iff_uncovered :
    value (logicMathContractDexTrade 3 uncoveredBid) (World.start (marketState 0 1)) =
      some (pktErrorMetaDEx - 25) ∧
    RejectsCleanly 3 uncoveredBid (marketState 0 1) := by
  refine ⟨by decide +kernel, ?_⟩
  have hiff : RejectsCleanly 3 uncoveredBid (marketState 0 1) ↔ _ :=
    rejected_cleanly_iff (.empty rfl) (fun o ho => absurd ho (not_resting_empty rfl o)) (by decide) 3
  exact hiff.mpr fun hbad => absurd hbad.1 (by decide)

/-- `A` bids for one contract, at no price. -/
def pricelessBid : CMPTransaction := orderTx traderA 2 11 1 1 0

set_option maxRecDepth 4000 in
private theorem pricelessBid_rejected :
    value (logicMathContractDexTrade 3 pricelessBid) (World.start (marketState 0 1)) =
      some (metaDExError - 66) := by
  decide +kernel

set_option maxRecDepth 4000 in
private theorem pricelessBid_moves :
    (after (logicMathContractDexTrade 3 pricelessBid)
        (World.start (marketState 0 1))).state.tallyMap.money traderA 1 .balance ≠
      (marketState 0 1).tallyMap.money traderA 1 .balance := by
  decide +kernel

/-- **A REJECTED BID KEEPS ITS MARGIN.** -/
theorem pricelessBid_not_clean : ¬ RejectsCleanly 3 pricelessBid (marketState 0 1) := by
  intro hclean
  have hsame := (hclean _ _ (eq_ok_of_value pricelessBid_rejected) missingPrice_neg).1
  exact pricelessBid_moves (by rw [hsame])

end OmniCore
