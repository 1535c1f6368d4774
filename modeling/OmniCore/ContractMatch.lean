import OmniCore.ContractRule

/-! # ContractMatch — what one match does to the ledger

    A match posts at most twelve entries: two for each position, and margin, profit
    and the counter of settled contracts for each party. `executeMatch_posts` names
    them all; the invariants of the market are read off this list. -/

namespace OmniCore

open Std (ExtTreeMap)
open Machine TextRec MapSum Exec

/-! ## Halts that end a run in the middle of a match -/

/-- A failed assertion, undefined behaviour or an uncaught exception: the run is over and no
    state is reached. A run that only lacks fuel is not stopped. -/
def Halt.Stops : Halt → Prop
  | .outOfFuel => False
  | _ => True

/-- An asserted update either posts its entry or stops the run. -/
theorem assertUpdate_posts (who : Address) (p : PropertyId) (amount : Int) (ty : TallyType)
    (s : State) :
    wp (assertUpdate who p amount ty)
      (fun _ s' => ∃ m, s' = s.withTally m ∧
        Posted s.tallyMap m [⟨who, p, amount, ty⟩]) (fun e _ => e.Stops) s :=
  wp_assertUpdate (fun _ m' h => ⟨m', rfl, h.posted⟩) (fun _ _ _ _ => trivial)

/-! ## Positions -/

/-- The change of the long side of the seller: longs are closed first. -/
def Parties.sellerLong (q : Parties) : Int :=
  if 0 < q.possitiveSell then -min q.possitiveSell q.nCouldBuy else 0

/-- The change of the short side of the buyer: shorts are closed first. -/
def Parties.buyerShort (q : Parties) : Int :=
  if 0 < q.possitiveBuy then 0 else -min q.negativeBuy q.nCouldBuy

/-- The seller's net position falls by the traded amount. -/
def Parties.sellerEntries (q : Parties) (property : PropertyId) : List Entry :=
  [⟨q.seller, property, q.sellerLong, .possitiveBalance⟩,
   ⟨q.seller, property, q.nCouldBuy + q.sellerLong, .negativeBalance⟩]

/-- The buyer's net position rises by the traded amount. -/
def Parties.buyerEntries (q : Parties) (property : PropertyId) : List Entry :=
  [⟨q.buyer, property, q.nCouldBuy + q.buyerShort, .possitiveBalance⟩,
   ⟨q.buyer, property, q.buyerShort, .negativeBalance⟩]

theorem updateSeller_posts (q : Parties) (property : PropertyId) (s : State) :
    wp (updateSeller q property)
      (fun _ s' => ∃ m, s' = s.withTally m ∧
        Posted s.tallyMap m (q.sellerEntries property)) (fun e _ => e.Stops) s := by
  unfold updateSeller
  simp only [wp_ite, wp_bind, wp_signed64]
  refine ⟨?_, ?_⟩
  · intro hpos
    refine ⟨fun _ => ⟨?_, ?_⟩, fun _ => trivial⟩
    · -- the longs cover the trade
      intro hdiff
      refine wp_imp (assertUpdate_posts _ _ _ _ s) ?_
      rintro _ s' ⟨m, rfl, hm⟩
      have hmin : min q.possitiveSell q.nCouldBuy = q.nCouldBuy := by omega
      exact ⟨m, rfl, by simpa [Parties.sellerEntries, Parties.sellerLong, hpos, hmin] using hm⟩
    · -- all longs are closed and shorts are opened
      intro hdiff
      have hmin : min q.possitiveSell q.nCouldBuy = q.possitiveSell := by omega
      refine wp_imp (assertUpdate_posts _ _ _ _ s) ?_
      rintro _ s' ⟨m, rfl, hm⟩
      refine wp_imp (assertUpdate_posts _ _ _ _ _) ?_
      rintro _ s'' ⟨m', rfl, hm'⟩
      exact ⟨m', rfl, by
        simpa [Parties.sellerEntries, Parties.sellerLong, hpos, hmin, sub_eq_add_neg]
          using hm.trans hm'⟩
  · intro hpos
    refine wp_imp (assertUpdate_posts _ _ _ _ s) ?_
    rintro _ s' ⟨m, rfl, hm⟩
    exact ⟨m, rfl, by simpa [Parties.sellerEntries, Parties.sellerLong, hpos] using hm⟩

theorem updateBuyer_posts (q : Parties) (property : PropertyId) (s : State)
    (hneg : 0 ≤ q.negativeBuy) :
    wp (updateBuyer q property)
      (fun _ s' => ∃ m, s' = s.withTally m ∧
        Posted s.tallyMap m (q.buyerEntries property)) (fun e _ => e.Stops) s := by
  unfold updateBuyer
  simp only [wp_ite, wp_bind, wp_signed64]
  refine ⟨?_, ?_⟩
  · intro hpos
    refine wp_imp (assertUpdate_posts _ _ _ _ s) ?_
    rintro _ s' ⟨m, rfl, hm⟩
    exact ⟨m, rfl, by simpa [Parties.buyerEntries, Parties.buyerShort, hpos] using hm⟩
  · intro hpos
    refine ⟨fun _ => ⟨?_, ?_⟩, fun _ => trivial⟩
    · -- all shorts are closed and longs are opened
      intro hdiff
      have hmin : min q.negativeBuy q.nCouldBuy = q.negativeBuy := by omega
      refine wp_imp (assertUpdate_posts _ _ _ _ s) ?_
      rintro _ s' ⟨m, rfl, hm⟩
      refine ⟨?_, ?_⟩
      · intro _
        refine wp_imp (assertUpdate_posts _ _ _ _ _) ?_
        rintro _ s'' ⟨m', rfl, hm'⟩
        exact ⟨m', rfl, by
          simpa [Parties.buyerEntries, Parties.buyerShort, hpos, hmin, sub_eq_add_neg]
            using hm.trans hm'⟩
      · intro hz
        have hzero : q.negativeBuy = 0 := by omega
        rw [hzero] at hmin hm
        rw [wp_pure]
        exact ⟨m, rfl, by
          simpa [Parties.buyerEntries, Parties.buyerShort, hpos, hmin, hzero] using hm⟩
    · -- the shorts cover the trade
      intro hdiff
      have hmin : min q.negativeBuy q.nCouldBuy = q.nCouldBuy := by omega
      refine wp_imp (assertUpdate_posts _ _ _ _ s) ?_
      rintro _ s' ⟨m, rfl, hm⟩
      exact ⟨m, rfl, by simpa [Parties.buyerEntries, Parties.buyerShort, hpos, hmin] using hm⟩

/-! ## The trade basis -/

/-- No record of the trade database has the 13 fields `getTradeBasis` looks for. -/
def NoBasisRecord (db : TextDB) : Prop :=
  ∀ (key value : Text), db[key]? = some value → (split isColon value).length ≠ 13

theorem tradeBasisScan_posts (address : Address) (closed : Int) (property : PropertyId) (aux : Int)
    (values : List Text) (st : BasisScan) (s : State) :
    wp (tradeBasisScan address closed property aux values st)
      (fun basis s' => ∃ m r, s' = s.withTally m ∧
        Posted s.tallyMap m [⟨address, property, r, .remaining⟩] ∧
        ((∀ v ∈ values, (split isColon v).length ≠ 13) → basis = st.totalAmount ∧ r = 0))
      (fun e _ => e.Stops) s := by
  induction values generalizing st with
  | nil =>
      unfold tradeBasisScan
      rw [wp_pure]
      exact ⟨s.tallyMap, 0, rfl, by simpa using Posted.refl _, fun _ => ⟨rfl, rfl⟩⟩
  | cons value rest ih =>
      unfold tradeBasisScan
      split
      · next hsplit =>
          -- a record of 13 fields: whatever the scan does, the last clause is void
          have hvoid : ∀ {P : Prop}, (∀ v ∈ value :: rest, (split isColon v).length ≠ 13) → P := by
            intro P h
            exact absurd (by rw [hsplit]; rfl) (h value (by simp))
          have hrec : ∀ st', wp (tradeBasisScan address closed property aux rest st')
              (fun basis s' => ∃ m r, s' = s.withTally m ∧
                Posted s.tallyMap m [⟨address, property, r, .remaining⟩] ∧
                ((∀ v ∈ value :: rest, (split isColon v).length ≠ 13) →
                  basis = st.totalAmount ∧ r = 0)) (fun e _ => e.Stops) s := by
            intro st'
            refine wp_imp (ih st') ?_
            rintro basis s' ⟨m, r, hs', hm, -⟩
            exact ⟨m, r, hs', hm, hvoid⟩
          rw [wp_ite]
          refine ⟨fun _ => hrec st, fun _ => ?_⟩
          split
          · rw [wp_ite]
            refine ⟨fun _ => hrec _, fun _ => ?_⟩
            dsimp only
            rw [wp_ite]
            refine ⟨fun _ => hrec _, fun _ => ?_⟩
            simp only [wp_bind, wp_ite, wp_pure]
            refine ⟨fun _ => ?_, fun _ => ?_⟩
            · refine wp_imp (assertUpdate_posts _ _ _ _ s) ?_
              rintro _ s' ⟨m, rfl, hm⟩
              exact ⟨m, _, rfl, hm, hvoid⟩
            · exact ⟨s.tallyMap, 0, rfl, by simpa using Posted.refl _, hvoid⟩
          · rw [wp_throw]
            trivial
      · refine wp_imp (ih st) ?_
        rintro basis s' ⟨m, r, hs', hm, hz⟩
        exact ⟨m, r, hs', hm, fun h => hz fun v hv => h v (by simp [hv])⟩

/-- The basis lookup only moves the counter of settled contracts, and without a record of 13
    fields it returns 0 and moves nothing. -/
theorem getTradeBasis_posts (address : Address) (closed : Int) (property : PropertyId) (s : State) :
    wp (getTradeBasis address closed property)
      (fun basis s' => ∃ m r, s' = s.withTally m ∧
        Posted s.tallyMap m [⟨address, property, r, .remaining⟩] ∧
        (NoBasisRecord s.tradeList → basis = 0 ∧ r = 0)) (fun e _ => e.Stops) s := by
  unfold getTradeBasis
  rw [wp_bind, wp_get]
  refine wp_imp (tradeBasisScan_posts _ _ _ _ _ _ s) ?_
  rintro basis s' ⟨m, r, hs', hm, hz⟩
  refine ⟨m, r, hs', hm, fun h => hz ?_⟩
  intro v hv
  obtain ⟨⟨k, v'⟩, he, rfl⟩ := List.mem_map.mp hv
  exact h k v' (mem_toList_iff.mp he)

/-! ## Settlement -/

/-- What settling one party posts: margin freed, profit booked, counter moved. -/
def settleEntries (who : Address) (collateral property : PropertyId) (freed profit r : Int) :
    List Entry :=
  [⟨who, collateral, -freed, .contractDExReserve⟩, ⟨who, collateral, freed, .balance⟩,
   ⟨who, property, r, .remaining⟩, ⟨who, collateral, profit, .contractDExReserve⟩]

/-- The margin one party gets back. -/
def freedMargin (s : State) (status : MatchStatus) (closed : Int) : Int :=
  if status = .none then 0 else s.marginRequirementContract * closed

/-- The profit one party is booked, for a trade basis. -/
def bookedProfit (s : State) (status : MatchStatus) (closed basis : Int) : Int :=
  if status = .none then 0 else pnl s.marketPrice s.notionalSize closed basis

/-- Basis lookup and booking of the profit, after the margin was freed. -/
private theorem settle_profit (who : Address) (property collateral : PropertyId) (closed : Int)
    (profit : Int → Int) (s : State) :
    wp (do
        let basis ← getTradeBasis who closed property
        if profit basis ≠ 0 then
          assertUpdate who collateral (profit basis) .contractDExReserve : ExecM Unit)
      (fun _ s' => ∃ m basis r, s' = s.withTally m ∧
        Posted s.tallyMap m [⟨who, property, r, .remaining⟩,
          ⟨who, collateral, profit basis, .contractDExReserve⟩] ∧
        (NoBasisRecord s.tradeList → basis = 0 ∧ r = 0)) (fun e _ => e.Stops) s := by
  rw [wp_bind]
  refine wp_imp (getTradeBasis_posts who closed property s) ?_
  rintro basis s' ⟨m, r, rfl, hm, hz⟩
  rw [wp_ite]
  refine ⟨fun _ => ?_, fun hp => ?_⟩
  · refine wp_imp (assertUpdate_posts _ _ _ _ _) ?_
    rintro _ s'' ⟨m', rfl, hm'⟩
    exact ⟨m', basis, r, rfl, hm.trans hm', hz⟩
  · have hp0 : profit basis = 0 := by simpa using hp
    rw [wp_pure]
    refine ⟨m, basis, r, rfl, ?_, hz⟩
    rw [hp0]
    simpa using hm

theorem settle_posts (who : Address) (property : PropertyId) (status : MatchStatus) (closed : Int)
    (s : State) :
    wp (settle who property status closed)
      (fun _ s' => ∃ m basis r, s' = s.withTally m ∧
        Posted s.tallyMap m (settleEntries who s.collateralCurrency property
          (freedMargin s status closed) (bookedProfit s status closed basis) r) ∧
        (NoBasisRecord s.tradeList → basis = 0 ∧ r = 0)) (fun e _ => e.Stops) s := by
  unfold settle
  rw [wp_ite]
  refine ⟨fun hst => ?_, fun hst => ?_⟩
  · rw [wp_bind, wp_get, wp_bind, wp_signed64]
    refine ⟨fun _ => ?_, fun _ => trivial⟩
    have htail := settle_profit who property s.collateralCurrency closed
      (pnl s.marketPrice s.notionalSize closed)
    dsimp only
    rw [wp_ite]
    refine ⟨fun hfr => ?_, fun hfr => ?_⟩
    · rw [wp_bind]
      refine wp_imp (assertUpdate_posts _ _ _ _ s) ?_
      rintro _ s1 ⟨m1, rfl, hm1⟩
      rw [wp_bind]
      refine wp_imp (assertUpdate_posts _ _ _ _ _) ?_
      rintro _ s2 ⟨m2, rfl, hm2⟩
      refine wp_imp (htail _) ?_
      rintro _ s3 ⟨m3, basis, r, rfl, hm3, hz⟩
      refine ⟨m3, basis, r, rfl, ?_, hz⟩
      simpa [settleEntries, freedMargin, bookedProfit, hst] using (hm1.trans hm2).trans hm3
    · have hz0 : (s.marginRequirementContract : Int) * closed = 0 := not_not.mp hfr
      refine wp_imp (htail _) ?_
      rintro _ s3 ⟨m3, basis, r, rfl, hm3, hz⟩
      refine ⟨m3, basis, r, rfl, ?_, hz⟩
      unfold settleEntries freedMargin bookedProfit
      rw [if_neg hst, if_neg hst, hz0]
      simpa using hm3
  · have hnone : status = .none := by simpa using hst
    rw [wp_pure]
    refine ⟨s.tallyMap, 0, 0, rfl, ?_, fun _ => ⟨rfl, rfl⟩⟩
    simpa [settleEntries, freedMargin, bookedProfit, hnone] using Posted.refl _

/-! ## The whole match -/

/-- Status and closed count of the seller, read from the ledger `mp` after the position updates. -/
def sellerClose (s : State) (mp : TallyMap) (pold pnew : CMPContractDex) : MatchStatus × Int :=
  sellerStatus (s.withTally mp) (parties s pold pnew) pold.property

/-- Status and closed count of the buyer. -/
def buyerClose (s : State) (mp : TallyMap) (pold pnew : CMPContractDex) : MatchStatus × Int :=
  buyerStatus (s.withTally mp) (parties s pold pnew) pold.property

/-- The settlement of one party with a status and a closed count. -/
def closeEntries (s : State) (who : Address) (property : PropertyId) (close : MatchStatus × Int)
    (basis r : Int) : List Entry :=
  settleEntries who s.collateralCurrency property (freedMargin s close.1 (max 0 close.2))
    (bookedProfit s close.1 (max 0 close.2) basis) r

/-- The key under which a match is recorded. -/
def matchKey (pold pnew : CMPContractDex) : Text :=
  txidText pold.txid ++ '+' :: txidText pnew.txid

/-- The value under which a match is recorded. -/
def matchValue (s : State) (pold pnew : CMPContractDex) (statusMaker statusTaker : MatchStatus)
    (livesMaker livesTaker : Int) : Text :=
  joinWith ':' [pold.addr.text, pnew.addr.text, decNat pold.effectivePrice,
    decInt (toUInt64 (parties s pold pnew).nCouldBuy),
    decInt (toUInt64 (remainders (parties s pold pnew) pold pnew).pnew.amountForsale),
    decNat pold.block, decNat pnew.block, statusMaker.text, statusTaker.text,
    decInt livesMaker, decInt livesTaker, decNat pold.property]

/-- The state `s'` after a match in `s`: `mp` is the ledger between the position updates and the
    settlement, `basisS` and `basisB` are the trade bases, `value` is the trade record. -/
structure MatchEffect (s s' : State) (pold pnew : CMPContractDex) (mp : TallyMap)
    (basisS basisB rS rB : Int) (value : Text) : Prop where
  positions : Posted s.tallyMap mp ((parties s pold pnew).sellerEntries pold.property ++
    (parties s pold pnew).buyerEntries pold.property)
  settled : Posted mp s'.tallyMap
    (closeEntries s (parties s pold pnew).seller pold.property (sellerClose s mp pold pnew)
        basisS rS ++
      closeEntries s (parties s pold pnew).buyer pold.property (buyerClose s mp pold pnew)
        basisB rB)
  recorded : ∃ stM stT lM lT, value = matchValue s pold pnew stM stT lM lT
  state : s' = { s with
    tallyMap := s'.tallyMap
    marketPrice := pold.effectivePrice
    tradeList := s.tradeList.insert (matchKey pold pnew) value }
  basis : NoBasisRecord s.tradeList → basisS = 0 ∧ rS = 0 ∧ basisB = 0 ∧ rB = 0

theorem parties_nonneg (s : State) (pold pnew : CMPContractDex) :
    0 ≤ (parties s pold pnew).possitiveSell ∧ 0 ≤ (parties s pold pnew).negativeSell ∧
      0 ≤ (parties s pold pnew).possitiveBuy ∧ 0 ≤ (parties s pold pnew).negativeBuy := by
  have h : ∀ a p, 0 ≤ s.getMPbalance a p .possitiveBalance ∧
      0 ≤ s.getMPbalance a p .negativeBalance := by
    intro a p
    rw [State.getMPbalance_eq _ _ _ (by decide), State.getMPbalance_eq _ _ _ (by decide)]
    exact ⟨TallyMap.money_nonneg _ _ _ (by decide), TallyMap.money_nonneg _ _ _ (by decide)⟩
  exact ⟨(h _ _).1, (h _ _).2, (h _ _).1, (h _ _).2⟩

/-- **ONE MATCH**: positions first, then the settlement of both parties, one trade record and the
    market price; nothing else of the node state changes. -/
theorem executeMatch_posts (pold pnew : CMPContractDex) (s : State) :
    wp (executeMatch pold pnew)
      (fun rem s' => rem = remainders (parties s pold pnew) pold pnew ∧
        ∃ mp basisS basisB rS rB value, MatchEffect s s' pold pnew mp basisS basisB rS rB value)
      (fun e _ => e.Stops) s := by
  have hmax : ∀ n : Int, (if n < 0 then 0 else n) = max 0 n := by
    intro n
    omega
  unfold executeMatch
  rw [wp_bind, wp_get]
  dsimp only
  rw [wp_bind]
  refine wp_imp (updateSeller_posts _ _ s) ?_
  rintro _ s1 ⟨m1, rfl, hm1⟩
  rw [wp_bind]
  refine wp_imp (updateBuyer_posts _ _ _ (parties_nonneg s pold pnew).2.2.2) ?_
  rintro _ s2 ⟨m2, rfl, hm2⟩
  rw [wp_bind, wp_signed64]
  refine ⟨fun _ => ?_, fun _ => trivial⟩
  rw [wp_bind, wp_get]
  simp only [hmax]
  rw [wp_bind]
  refine wp_imp (settle_posts _ _ _ _ _) ?_
  rintro _ s3 ⟨m3, basisS, rS, rfl, hm3, hzS⟩
  rw [wp_bind]
  refine wp_imp (settle_posts _ _ _ _ _) ?_
  rintro _ s4 ⟨m4, basisB, rB, rfl, hm4, hzB⟩
  simp only [recordMatchedContract, wp_bind, wp_modify, wp_formatContractShortMP, wp_pure]
  refine ⟨fun _ => ?_, fun _ => trivial⟩
  refine ⟨trivial, m2, basisS, basisB, rS, rB, matchValue s pold pnew _ _ _ _,
    hm1.trans hm2, hm3.trans hm4, ⟨_, _, _, _, rfl⟩, rfl, ?_⟩
  intro hdb
  obtain ⟨h1, h2⟩ := hzS hdb
  obtain ⟨h3, h4⟩ := hzB hdb
  exact ⟨h1, h2, h3, h4⟩

/-! ## What a match closes -/

/-- The contracts that settlement counts as closed for the seller. -/
def Parties.closedSeller (q : Parties) : Int :=
  if q.seller = q.buyer then 0
  else if 0 < q.possitiveSell ∧ q.negativeSell = 0 then max 0 (min q.possitiveSell q.nCouldBuy)
  else if 0 < q.negativeSell ∧ q.possitiveSell = 0 then max 0 (-q.nCouldBuy)
  else 0

/-- The contracts that settlement counts as closed for the buyer: shorts that are bought back are
    not among them. -/
def Parties.closedBuyer (q : Parties) : Int :=
  if q.seller = q.buyer then 0
  else if 0 < q.possitiveBuy ∧ q.negativeBuy = 0 then max 0 (-q.nCouldBuy)
  else 0

/-- A status and a count settle `k` contracts: nothing is settled without a status. -/
def Settles (close : MatchStatus × Int) (k : Int) : Prop :=
  (close.1 = .none ∧ k = 0) ∨ (close.1 ≠ .none ∧ max 0 close.2 = k)

theorem settles_sideStatus {before after k : Int} {reduced : MatchStatus}
    (hred : reduced ≠ .none) (hb : 0 < before) (hk : k = max 0 (before - after)) :
    Settles (sideStatus before after reduced) k := by
  subst hk
  unfold Settles sideStatus
  by_cases h : before > after
  · refine Or.inr ⟨by simpa [h] using hred, ?_⟩
    dsimp only
    split
    · omega
    · rw [abs_of_pos (by omega)]
  · have hne : after ≠ 0 := by omega
    exact Or.inl ⟨by simp [h, hne], by omega⟩

theorem settles_zero {st : MatchStatus} : Settles (st, 0) 0 := by
  unfold Settles
  by_cases h : st = .none
  · exact Or.inl ⟨h, rfl⟩
  · exact Or.inr ⟨h, rfl⟩

section Close

variable {s : State} {mp : TallyMap} {pold pnew : CMPContractDex}

/-- The positions of the two parties are those of the traded contract. -/
theorem parties_money (hprop : pold.property = pnew.property) :
    (parties s pold pnew).possitiveSell =
      s.tallyMap.money (parties s pold pnew).seller pold.property .possitiveBalance ∧
    (parties s pold pnew).negativeSell =
      s.tallyMap.money (parties s pold pnew).seller pold.property .negativeBalance ∧
    (parties s pold pnew).possitiveBuy =
      s.tallyMap.money (parties s pold pnew).buyer pold.property .possitiveBalance ∧
    (parties s pold pnew).negativeBuy =
      s.tallyMap.money (parties s pold pnew).buyer pold.property .negativeBalance := by
  unfold parties
  dsimp only
  split
  · exact ⟨rfl, rfl, by rw [hprop]; rfl, by rw [hprop]; rfl⟩
  · exact ⟨by rw [hprop]; rfl, by rw [hprop]; rfl, rfl, rfl⟩

/-- Positions of an address after the two updates. -/
theorem money_positions (hpos : Posted s.tallyMap mp
      ((parties s pold pnew).sellerEntries pold.property ++
        (parties s pold pnew).buyerEntries pold.property)) (a : Address) :
    mp.money a pold.property .possitiveBalance =
      s.tallyMap.money a pold.property .possitiveBalance +
        ((if a = (parties s pold pnew).seller then (parties s pold pnew).sellerLong else 0) +
          if a = (parties s pold pnew).buyer then
            (parties s pold pnew).nCouldBuy + (parties s pold pnew).buyerShort else 0) ∧
    mp.money a pold.property .negativeBalance =
      s.tallyMap.money a pold.property .negativeBalance +
        ((if a = (parties s pold pnew).seller then
            (parties s pold pnew).nCouldBuy + (parties s pold pnew).sellerLong else 0) +
          if a = (parties s pold pnew).buyer then (parties s pold pnew).buyerShort else 0) := by
  rw [hpos.money, hpos.money]
  simp [Parties.sellerEntries, Parties.buyerEntries, Entry.toMoney]

theorem settles_sellerClose (hprop : pold.property = pnew.property)
    (hpos : Posted s.tallyMap mp ((parties s pold pnew).sellerEntries pold.property ++
      (parties s pold pnew).buyerEntries pold.property)) :
    Settles (sellerClose s mp pold pnew) (parties s pold pnew).closedSeller := by
  obtain ⟨hPs, hNs, hPb, hNb⟩ := parties_money (s := s) hprop
  obtain ⟨hlong, hshort⟩ := money_positions hpos (parties s pold pnew).seller
  unfold sellerClose sellerStatus
  rw [State.getMPbalance_eq _ _ _ (by decide), State.getMPbalance_eq _ _ _ (by decide),
    State.withTally_tallyMap]
  generalize parties s pold pnew = q at *
  rw [← hPs] at hlong
  rw [← hNs] at hshort
  split
  · next h =>
      refine settles_sideStatus (by decide) h.1 ?_
      rw [hlong]
      unfold Parties.closedSeller Parties.sellerLong Parties.buyerShort
      by_cases hself : q.seller = q.buyer
      · have : q.possitiveBuy = q.possitiveSell := by rw [hPb, hPs, hself]
        simp [hself, h.1, this]
      · simp [hself, h.1, h.2]
  · split
    · next h' h =>
        refine settles_sideStatus (by decide) h.1 ?_
        rw [hshort]
        unfold Parties.closedSeller Parties.sellerLong Parties.buyerShort
        by_cases hself : q.seller = q.buyer
        · have h1 : q.possitiveBuy = 0 := by rw [hPb, ← hself, ← hPs, h.2]
          have h2 : q.negativeBuy = q.negativeSell := by rw [hNb, hNs, hself]
          simp [hself, h.2, h1, h2]
        · simp [hself, h.1, h.2]
    · next h' h =>
        have hz : q.closedSeller = 0 := by simp [Parties.closedSeller, h', h]
        rw [hz]
        split <;> exact settles_zero

theorem settles_buyerClose (hprop : pold.property = pnew.property)
    (hpos : Posted s.tallyMap mp ((parties s pold pnew).sellerEntries pold.property ++
      (parties s pold pnew).buyerEntries pold.property)) :
    Settles (buyerClose s mp pold pnew) (parties s pold pnew).closedBuyer := by
  obtain ⟨hPs, hNs, hPb, hNb⟩ := parties_money (s := s) hprop
  obtain ⟨hlong, -⟩ := money_positions hpos (parties s pold pnew).buyer
  unfold buyerClose buyerStatus
  rw [State.getMPbalance_eq _ _ _ (by decide), State.getMPbalance_eq _ _ _ (by decide),
    State.withTally_tallyMap]
  generalize parties s pold pnew = q at *
  rw [← hPb] at hlong
  split
  · next h =>
      refine settles_sideStatus (by decide) h.1 ?_
      rw [hlong]
      unfold Parties.closedBuyer Parties.sellerLong Parties.buyerShort
      by_cases hself : q.seller = q.buyer
      · have : q.possitiveSell = q.possitiveBuy := by rw [hPb, hPs, hself]
        simp [hself, h.1, this]
      · simp [Ne.symm hself, hself, h.1, h.2]
  · next h' =>
      have hz : q.closedBuyer = 0 := by simp [Parties.closedBuyer, h']
      rw [hz]
      rw [if_neg (by omega)]
      split <;> exact settles_zero

/-- What settlement posts, without a trade basis. -/
theorem Settles.freed {close : MatchStatus × Int} {k : Int} (h : Settles close k) (s : State) :
    freedMargin s close.1 (max 0 close.2) = s.marginRequirementContract * k ∧
    bookedProfit s close.1 (max 0 close.2) 0 = pnl s.marketPrice s.notionalSize k 0 := by
  unfold freedMargin bookedProfit
  rcases h with ⟨h, rfl⟩ | ⟨h, rfl⟩
  · simp [h, pnl, toInt64]
  · simp [h]

end Close

/-! ## The steps of the engine, one description each -/

/-- The amount `get_LiquidationPrice` adds to the tally. -/
def liq64 (o : CMPContractDex) : Int :=
  truncDouble (liqPriceDouble (toInt64 o.effectivePrice) o.tradingAction)

/-- The entry of a liquidation price. -/
def liqEntry (o : CMPContractDex) : Entry :=
  ⟨o.addr, o.property, liq64 o, .liquidationPrice⟩

theorem getLiquidationPrice_posts (o : CMPContractDex) (s : State) :
    wp (getLiquidationPrice (toInt64 o.effectivePrice) o.addr o.property o.tradingAction)
      (fun _ s' => ∃ m, s' = s.withTally m ∧ Posted s.tallyMap m [liqEntry o])
      (fun e _ => e.Stops) s := by
  unfold getLiquidationPrice
  rw [wp_bind, wp_signed64]
  exact ⟨fun _ => assertUpdate_posts _ _ _ _ s, fun _ => trivial⟩

/-- Visiting a candidate adds two liquidation prices. -/
theorem visitCandidate_spec (pold pnew : CMPContractDex) (w : World) :
    wp (visitCandidate pold pnew)
      (fun _ w' => ∃ m, Posted w.state.tallyMap m [liqEntry pnew, liqEntry pold] ∧
        w' = { w with
          state := w.state.withTally m
          trace := .candidate w.state pold pnew :: w.trace })
      (fun e w' => e.Stops ∧ w'.trace = .candidate w.state pold pnew :: w.trace) w := by
  unfold visitCandidate emit
  simp only [wp_bind, wp_get, wp_modify, wp_onState]
  refine wp_mono (getLiquidationPrice_posts pnew _) ?_ (fun _ _ he => ⟨he, trivial⟩)
  rintro _ s1 ⟨m1, rfl, hm1⟩
  refine wp_mono (getLiquidationPrice_posts pold _) ?_ (fun _ _ he => ⟨he, trivial⟩)
  rintro _ s2 ⟨m2, rfl, hm2⟩
  exact ⟨m2, hm1.trans hm2, rfl⟩

/-- Filling an order runs one match and holds it in the innermost frame. -/
theorem fillOrder_spec (pold pnew : CMPContractDex) (w : World) :
    wp (fillOrder pold pnew)
      (fun rem w' => rem = remainders (parties w.state pold pnew) pold pnew ∧
        ∃ s' mp basisS basisB rS rB value,
          MatchEffect w.state s' pold pnew mp basisS basisB rS rB value ∧
          w' = { w with
            state := s'
            frames := ⟨rem.pnew, some (pold, pnew)⟩ :: w.frames.tail
            trace := .matched w.state w.frames.tail pold pnew :: w.trace })
      (fun e w' => e.Stops ∧ w'.trace = .matched w.state w.frames.tail pold pnew :: w.trace) w := by
  unfold fillOrder emit setFrame
  simp only [wp_bind, wp_get, wp_modify, wp_onState, wp_pure]
  refine wp_mono (executeMatch_posts pold pnew w.state) ?_ (fun _ _ he => ⟨he, trivial⟩)
  rintro rem s' ⟨rfl, mp, basisS, basisB, rS, rB, value, heff⟩
  exact ⟨rfl, s', mp, basisS, basisB, rS, rB, value, heff, rfl⟩

/-- A price level after its matched order was replaced by what remains. -/
def replaceMatched (level : CdSet) (key : OrderKey) (pold pnew : CMPContractDex)
    (rem : Remainders) : CdSet :=
  if pold.amountForsale ≠ pnew.amountForsale ∧ ¬ (level.erase key).contains rem.replacement.key
  then (level.erase key).insert rem.replacement.key rem.replacement
  else level.erase key

/-- Erasing works on the order that was read, or the iterator is invalid. -/
theorem eraseMatched_spec (price : Nat) (key : OrderKey) (pold pnew : CMPContractDex)
    (rem : Remainders) (w : World) :
    wp (eraseMatched price key pold pnew rem)
      (fun _ w' => (w.state.contractLevel pnew.property price)[key]? = some pold ∧
        w' = { w with
          state := w.state.setContractLevel pnew.property price
            (replaceMatched (w.state.contractLevel pnew.property price) key pold pnew rem)
          frames := ⟨rem.pnew, none⟩ :: w.frames.tail
          trace := .erased pold true :: w.trace })
      (fun e w' => e = .undefinedBehaviour ∧
        (w.state.contractLevel pnew.property price)[key]? ≠ some pold ∧
        w' = { w with trace := .erased pold false :: w.trace }) w := by
  unfold eraseMatched emit setFrame
  simp only [wp_bind, wp_get, wp_modify, wp_onState, wp_ite, wp_throw]
  by_cases h : (w.state.contractLevel pnew.property price)[key]? = some pold
  · simp [h, replaceMatched]
  · simp [h]

/-- The state after what remains of an order was put into the book. -/
def restState (s : State) (o : CMPContractDex) : State :=
  if 0 < o.amountForsale ∧ ¬ (s.contractLevel o.property o.effectivePrice).contains o.key then
    s.setContractLevel o.property o.effectivePrice
      ((s.contractLevel o.property o.effectivePrice).insert o.key o)
  else s

/-- Resting changes nothing but the book. -/
theorem restState_book (s : State) (o : CMPContractDex) :
    ∃ book, restState s o = { s with contractdex := book } := by
  unfold restState State.setContractLevel
  split
  · exact ⟨_, rfl⟩
  · exact ⟨_, rfl⟩

theorem restOrder_spec (o : CMPContractDex) (w : World) (E : Halt → World → Prop) :
    wp (restOrder o)
      (fun _ w' => w' = { w with state := restState w.state o, frames := w.frames.tail }) E w := by
  unfold restOrder contractDexInsert restState
  simp only [wp_bind, wp_ite, wp_onState, wp_get, wp_set, wp_pure, wp_modify]
  by_cases h : 0 < o.amountForsale
  · by_cases hc : (w.state.contractLevel o.property o.effectivePrice).contains o.key = true
    · simp [h, hc]
    · simp [h, hc]
  · simp [h]

end OmniCore
