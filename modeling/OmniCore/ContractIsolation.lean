import OmniCore.ContractBook
import OmniCore.ContractCollateral

/-! # ContractIsolation — do contracts leave each other alone?

    The parameters of a contract live in process-wide variables that every creation
    overwrites, the market price in one that every match overwrites, and `marginLogic`
    walks over the traders of all contracts. Here two histories are compared: one with
    and one without the transactions of other contracts. Steps of the other contracts
    leave the traders and the book of a contract alone; its own steps run in lock step,
    as long as they find the parameters and the price of their own contract and no
    margin call is made. -/

namespace OmniCore

open Std (ExtTreeMap)
open Machine TextRec MapSum Exec

/-! ## A contract and the traces that keep it isolated -/

/-- A contract, as its creation defines it. -/
structure ContractDef where
  property : PropertyId
  collateral : PropertyId
  margin : Nat
  notional : Nat

/-- The price of the last match of a contract, `initial` before the first one. -/
def ownPrice (p : PropertyId) (initial : Nat) : List Event → Nat
  | [] => initial
  | .matched _ _ pold _ :: earlier =>
      if pold.property = p then pold.effectivePrice else ownPrice p initial earlier
  | _ :: earlier => ownPrice p initial earlier

/-- One step keeps contract `A` isolated: a trade of `A` finds the parameters of `A`, a close of
    `A` books the same profit at the market price as at the last price of `A`, and no trader of
    `A` is called after a match of `A`. -/
def Event.Isolated (A : ContractDef) (initial : Nat) (e : Event) (earlier : List Event) : Prop :=
  match e with
  | .submitted pre (.trade tx) => tx.property.toNat = A.property →
      pre.collateralCurrency = A.collateral ∧ pre.marginRequirementContract = A.margin ∧
        pre.notionalSize = A.notional
  | .matched pre _ pold pnew => pold.property = A.property →
      pnl pre.marketPrice A.notional (parties pre pold pnew).closedSeller 0 =
          pnl (ownPrice A.property initial earlier) A.notional
            (parties pre pold pnew).closedSeller 0 ∧
        pnl pre.marketPrice A.notional (parties pre pold pnew).closedBuyer 0 =
          pnl (ownPrice A.property initial earlier) A.notional
            (parties pre pold pnew).closedBuyer 0
  | .marginCheck pre q a _ => q = A.property → ¬ PriceReached pre q a
  | _ => True

instance (A : ContractDef) (initial : Nat) :
    (e : Event) → (earlier : List Event) → Decidable (e.Isolated A initial earlier)
  | .submitted _ (.trade _), _ => inferInstanceAs (Decidable (_ → _))
  | .submitted _ (.cancel _), _ => isTrue trivial
  | .submitted _ (.create _ _), _ => isTrue trivial
  | .placed _, _ => isTrue trivial
  | .candidate _ _ _, _ => isTrue trivial
  | .matched _ _ _ _, _ => inferInstanceAs (Decidable (_ → _))
  | .marginCheck _ _ _ _, _ => inferInstanceAs (Decidable (_ → ¬ _))
  | .erased _ _, _ => isTrue trivial

theorem State.contractPrices_setContractLevel_ne (s : State) {p q : PropertyId} (h : q ≠ p)
    (price : Nat) (level : CdSet) :
    (s.setContractLevel p price level).contractPrices q = s.contractPrices q := by
  unfold setContractLevel contractPrices
  rw [getElem?_insert_eq, if_neg (Ne.symm h)]

theorem State.contractPrices_setContractLevel_self (s : State) (p : PropertyId) (price : Nat)
    (level : CdSet) :
    (s.setContractLevel p price level).contractPrices p = (s.contractPrices p).insert price level := by
  unfold setContractLevel
  simp [contractPrices]

/-! ## Traders and books are separate -/

section Isolation

variable {A : ContractDef} {T : Address → Prop}

/-- The traders `T` of contract `A` have orders in its book and only there, nobody else has, and
    only matches of `A` can reach their liquidation prices. -/
structure Segregated (A : ContractDef) (T : Address → Prop) (w : World) : Prop where
  records : NoBasisRecord w.state.tradeList
  book : BookWf w.state
  traders : ∀ o, Resting w.state o → (T o.addr ↔ o.property = A.property)
  prices : ∀ o, Resting w.state o → toInt64 o.effectivePrice ≠ 0
  liq : ∀ a, T a → ∀ q, q ≠ A.property → w.state.tallyMap.money a q .liquidationPrice = 0
  called : ∀ s q a last, .marginCheck s q a last ∈ w.trace → q ≠ A.property →
    PriceReached s q a → ¬ T a

/-- A trader without a liquidation price is not reached by a price other than 0. -/
theorem not_priceReached {s : State} {q : PropertyId} {a : Address}
    (hliq : s.tallyMap.money a q .liquidationPrice = 0) (hprice : toInt64 s.marketPrice ≠ 0) :
    ¬ PriceReached s q a := by
  unfold PriceReached
  rw [State.getMPbalance_eq _ _ _ (by decide), hliq, not_le]
  have hpos : (0 : ℚ) < ((toInt64 s.marketPrice).natAbs : ℚ) / 100000000 :=
    div_pos (Nat.cast_pos.mpr (Int.natAbs_pos.mpr hprice)) (by norm_num)
  have hzero : contractShortDouble 0 = 0 := by
    simp [contractShortDouble, roundDouble]
  rw [hzero]
  exact roundDouble_pos hpos

/-- The price of a transaction is a `uint64_t`. -/
theorem toInt64_toNat_ne_zero {n : UInt64} (h : n.toNat ≠ 0) : toInt64 n.toNat ≠ 0 := by
  intro hzero
  have hdvd : ((2 ^ 64 : Nat) : Int) ∣ n.toNat := Int.dvd_of_bmod_eq_zero hzero
  have hlt : n.toNat < 2 ^ 64 := n.toNat_lt
  omega

/-! ## Steps of other contracts -/

/-- What a world of another contract's trade has in common with the world `w0` it started in. -/
structure ForeignInv (A : ContractDef) (T : Address → Prop) (w0 w : World) : Prop where
  seg : Segregated A T w
  money : ∀ a, T a → ∀ q ty, w.state.tallyMap.money a q ty = w0.state.tallyMap.money a q ty
  prices : w.state.contractPrices A.property = w0.state.contractPrices A.property
  serial : w.nextSerial A.property = w0.nextSerial A.property
  own : ∀ initial, ownPrice A.property initial w.trace = ownPrice A.property initial w0.trace
  takers : ∀ f ∈ w.frames, f.taker.property ≠ A.property ∧ ¬ T f.taker.addr ∧
    toInt64 f.taker.effectivePrice ≠ 0 ∧
    ∀ h, f.held = some h → h.1.property ≠ A.property ∧ toInt64 w.state.marketPrice ≠ 0

/-- Entries on other addresses do not touch the traders. -/
theorem posted_money_of_not {m m' : TallyMap} {l : List Entry} (h : Posted m m' l)
    (hl : ∀ e ∈ l, ¬ T e.who) {a : Address} (ha : T a) (q : PropertyId) (ty : TallyType) :
    m'.money a q ty = m.money a q ty := by
  have hz : (l.map fun e => e.toMoney a q ty).sum = 0 := by
    apply List.sum_eq_zero
    intro x hx
    obtain ⟨e, he, rfl⟩ := List.mem_map.mp hx
    have hne : a ≠ e.who := fun hc => hl e he (hc ▸ ha)
    simp [Entry.toMoney, hne]
  rw [h.money, hz, add_zero]

/-- An event that is neither a match of `A` nor a check. -/
def Event.Foreign (A : ContractDef) : Event → Prop
  | .matched _ _ pold _ => pold.property ≠ A.property
  | .marginCheck _ _ _ _ => False
  | _ => True

theorem Event.Foreign.ownPrice {e : Event} (h : e.Foreign A) (initial : Nat)
    (earlier : List Event) :
    OmniCore.ownPrice A.property initial (e :: earlier) =
      OmniCore.ownPrice A.property initial earlier := by
  cases e with
  | matched pre outer pold pnew => exact if_neg h
  | _ => rfl

/-- A step that writes to the ledger of other addresses and notes a foreign event. -/
theorem ForeignInv.note {w0 w w' : World} {e : Event} {l : List Entry} (h : ForeignInv A T w0 w)
    (he : e.Foreign A) (hposted : Posted w.state.tallyMap w'.state.tallyMap l)
    (hl : ∀ x ∈ l, ¬ T x.who) (hbook : w'.state.contractdex = w.state.contractdex)
    (hrecords : NoBasisRecord w'.state.tradeList) (hserial : w'.nextSerial A.property =
      w.nextSerial A.property)
    (htrace : w'.trace = e :: w.trace)
    (htakers : ∀ f ∈ w'.frames, f.taker.property ≠ A.property ∧ ¬ T f.taker.addr ∧
      toInt64 f.taker.effectivePrice ≠ 0 ∧
      ∀ h, f.held = some h → h.1.property ≠ A.property ∧ toInt64 w'.state.marketPrice ≠ 0) :
    ForeignInv A T w0 w' := by
  have hmoney := fun a ha => posted_money_of_not hposted hl (a := a) ha
  refine
    { takers := htakers
      money := fun a ha q ty => (hmoney a ha q ty).trans (h.money a ha q ty)
      prices := by
        have : w'.state.contractPrices A.property = w.state.contractPrices A.property := by
          unfold State.contractPrices
          rw [hbook]
        rw [this, h.prices]
      serial := by rw [hserial, h.serial]
      own := fun initial => by rw [htrace, he.ownPrice, h.own]
      seg :=
        { records := hrecords
          book := (bookWf_congr hbook).mpr h.seg.book
          traders := fun o ho => h.seg.traders o ((resting_congr hbook o).mp ho)
          prices := fun o ho => h.seg.prices o ((resting_congr hbook o).mp ho)
          liq := fun a ha q hq => (hmoney a ha q _).trans (h.seg.liq a ha q hq)
          called := ?_ } }
  intro s q a last hmem hq hreached
  rw [htrace] at hmem
  rcases List.mem_cons.mp hmem with rfl | hmem
  · cases he
  · exact h.seg.called s q a last hmem hq hreached

/-- A step that changes the book of another contract. -/
theorem ForeignInv.rebook {w0 w w' : World} (h : ForeignInv A T w0 w)
    (htally : w'.state.tallyMap = w.state.tallyMap)
    (hrecords : w'.state.tradeList = w.state.tradeList)
    (hmarket : w'.state.marketPrice = w.state.marketPrice)
    (hbook : BookWf w'.state)
    (hprices : w'.state.contractPrices A.property = w.state.contractPrices A.property)
    (hrests : ∀ o, Resting w'.state o → Resting w.state o ∨
      (o.property ≠ A.property ∧ ¬ T o.addr ∧ toInt64 o.effectivePrice ≠ 0))
    (hserial : w'.nextSerial = w.nextSerial)
    (htrace : w'.trace = w.trace ∨ ∃ o b, w'.trace = .erased o b :: w.trace)
    (htakers : ∀ f ∈ w'.frames, ∃ g ∈ w.frames, f.taker = g.taker ∧
      (f.held = none ∨ f.held = g.held)) :
    ForeignInv A T w0 w' := by
  have hseg : Segregated A T w' := by
    refine
      { records := hrecords ▸ h.seg.records
        book := hbook
        liq := fun a ha q hq => by rw [htally]; exact h.seg.liq a ha q hq
        traders := ?_, prices := ?_, called := ?_ }
    · intro o ho
      rcases hrests o ho with ho | ⟨h1, h2, -⟩
      · exact h.seg.traders o ho
      · exact iff_of_false h2 h1
    · intro o ho
      rcases hrests o ho with ho | ⟨-, -, h3⟩
      · exact h.seg.prices o ho
      · exact h3
    · intro s q a last hmem
      rcases htrace with ht | ⟨o, b, ht⟩
      · rw [ht] at hmem
        exact h.seg.called s q a last hmem
      · rw [ht] at hmem
        refine h.seg.called s q a last ?_
        simpa using hmem
  refine
    { seg := hseg
      money := fun a ha q ty => by rw [htally, h.money a ha q ty]
      prices := by rw [hprices, h.prices]
      serial := by rw [hserial, h.serial]
      own := ?_, takers := ?_ }
  · intro initial
    rcases htrace with ht | ⟨o, b, ht⟩
    · rw [ht, h.own]
    · rw [ht, ← h.own]
      rfl
  · intro f hf
    obtain ⟨g, hg, htaker, hheld⟩ := htakers f hf
    obtain ⟨h1, h2, h3, h4⟩ := h.takers g hg
    rw [htaker, hmarket]
    refine ⟨h1, h2, h3, fun k hk => ?_⟩
    rcases hheld with hn | hs
    · rw [hn] at hk
      cases hk
    · exact h4 k (hs ▸ hk)

/-- In a trade of another contract, matches are between others. -/
theorem ForeignInv.candidate {w0 w : World} {fs : List Frame} {price : Nat} {key : OrderKey}
    {pold pnew : CMPContractDex} (h : ForeignInv A T w0 w) (hf : w.frames = ⟨pnew, none⟩ :: fs)
    (hc : Candidate w.state price key pold pnew) :
    pold.property ≠ A.property ∧ ¬ T pold.addr ∧ toInt64 pold.effectivePrice ≠ 0 ∧ ¬ T pnew.addr := by
  obtain ⟨h1, h2, -, -⟩ := h.takers ⟨pnew, none⟩ (by simp [hf])
  have hrest : Resting w.state pold := h.seg.book.resting hc.inBook
  have hprop : pold.property ≠ A.property := by
    rw [hc.property]
    exact h1
  exact ⟨hprop, fun hT => hprop ((h.seg.traders pold hrest).mp hT), h.seg.prices pold hrest, h2⟩

/-- All entries of a match are on its two parties. -/
theorem match_who (s : State) (pold pnew : CMPContractDex) (mp : TallyMap)
    (basisS basisB rS rB : Int) :
    (∀ e ∈ (parties s pold pnew).sellerEntries pold.property ++
        (parties s pold pnew).buyerEntries pold.property,
      e.who = pold.addr ∨ e.who = pnew.addr) ∧
    ∀ e ∈ closeEntries s (parties s pold pnew).seller pold.property
          (sellerClose s mp pold pnew) basisS rS ++
        closeEntries s (parties s pold pnew).buyer pold.property
          (buyerClose s mp pold pnew) basisB rB,
      e.who = pold.addr ∨ e.who = pnew.addr := by
  have hseller : (parties s pold pnew).seller = pold.addr ∨
      (parties s pold pnew).seller = pnew.addr := by
    unfold parties
    dsimp only
    split
    · exact Or.inl rfl
    · exact Or.inr rfl
  have hbuyer : (parties s pold pnew).buyer = pold.addr ∨
      (parties s pold pnew).buyer = pnew.addr := by
    unfold parties
    dsimp only
    split
    · exact Or.inr rfl
    · exact Or.inl rfl
  refine ⟨?_, ?_⟩
  · simp only [Parties.sellerEntries, Parties.buyerEntries, List.mem_append, List.mem_cons,
      List.not_mem_nil, or_false]
    rintro e ((rfl | rfl) | (rfl | rfl))
    all_goals first | exact hseller | exact hbuyer
  · simp only [closeEntries, settleEntries, List.mem_append, List.mem_cons, List.not_mem_nil,
      or_false]
    rintro e ((rfl | rfl | rfl | rfl) | (rfl | rfl | rfl | rfl))
    all_goals first | exact hseller | exact hbuyer

theorem foreignInv_engine (w0 : World) : EngineInv (ForeignInv A T w0) fun _ _ => True where
  condition := fun _ _ _ => trivial
  visit := by
    intro w fs price key pold pnew hI hf hc
    refine wp_mono (visitCandidate_spec pold pnew w) ?_ (fun _ _ _ => trivial)
    rintro _ w' ⟨m, hm, rfl⟩
    obtain ⟨-, hold, -, hnew⟩ := hI.candidate hf hc
    refine hI.note (e := .candidate w.state pold pnew) trivial hm ?_ rfl hI.seg.records rfl rfl
      hI.takers
    simp [liqEntry, hold, hnew]
  fill := by
    intro w fs price key pold pnew hI hf hc _
    refine wp_mono (fillOrder_spec pold pnew w) ?_ (fun _ _ _ => trivial)
    rintro rem w' ⟨rfl, s', mp, basisS, basisB, rS, rB, value, heff, rfl⟩
    obtain ⟨hprop, hold, hprice, hnew⟩ := hI.candidate hf hc
    have hwho := match_who w.state pold pnew mp basisS basisB rS rB
    refine hI.note (e := .matched w.state w.frames.tail pold pnew) hprop
      (heff.positions.trans heff.settled) ?_ (by rw [heff.state]) (hI.seg.records.matched heff)
      rfl rfl ?_
    · intro e he
      have hparty : e.who = pold.addr ∨ e.who = pnew.addr := by
        rcases List.mem_append.mp he with he | he
        · exact hwho.1 e he
        · exact hwho.2 e he
      rcases hparty with h | h
      · rw [h]
        exact hold
      · rw [h]
        exact hnew
    · have hmarket : toInt64 s'.marketPrice ≠ 0 := by
        rw [heff.state]
        exact hprice
      obtain ⟨r, hr⟩ := (remainders_shape w.state pold pnew).2
      intro f hmem
      rcases List.mem_cons.mp hmem with rfl | hmem
      · obtain ⟨h1, h2, h3, -⟩ := hI.takers ⟨pnew, none⟩ (by simp [hf])
        rw [hr]
        refine ⟨h1, h2, h3, fun k hk => ?_⟩
        cases hk
        exact ⟨hprop, hmarket⟩
      · obtain ⟨h1, h2, h3, h4⟩ := hI.takers f (List.mem_of_mem_tail hmem)
        exact ⟨h1, h2, h3, fun k hk => ⟨(h4 k hk).1, hmarket⟩⟩
  check := by
    intro w q a last hI hset
    obtain ⟨t, po, pn, fs, hf, hq⟩ := hset
    obtain ⟨-, -, -, hheld⟩ := hI.takers ⟨t, some (po, pn)⟩ (by simp [hf])
    obtain ⟨hprop, hmarket⟩ := hheld (po, pn) rfl
    refine { hI with seg := { hI.seg with called := ?_ } }
    intro s q' a' last' hmem hq' hreached
    rcases List.mem_cons.mp hmem with hmem | hmem
    · -- the check at hand: a trader of `A` has no liquidation price here
      cases hmem
      intro hT
      exact not_priceReached (hI.seg.liq a hT q hq') hmarket hreached
    · exact hI.seg.called s q' a' last' hmem hq' hreached
  call := by
    intro w q a last rest hI hset hreached ht
    obtain ⟨t, po, pn, fs, hf, hq⟩ := hset
    obtain ⟨-, -, -, hheld⟩ := hI.takers ⟨t, some (po, pn)⟩ (by simp [hf])
    obtain ⟨hprop, hmarket⟩ := hheld (po, pn) rfl
    have hq' : q ≠ A.property := hq ▸ hprop
    have hT : ¬ T a := hI.seg.called w.state q a last (by simp [ht]) hq' hreached
    have hserial : (w.place (marginOrder w a q w.state.marketPrice)).nextSerial A.property =
        w.nextSerial A.property := Function.update_of_ne (Ne.symm hq') _ _
    refine hI.note (e := .placed (marginOrder w a q w.state.marketPrice)) (l := []) trivial
      (Posted.refl _) (by simp) rfl hI.seg.records hserial rfl ?_
    intro f hmem
    rcases List.mem_cons.mp hmem with rfl | hmem
    · exact ⟨hq', hT, hmarket, fun k hk => by cases hk⟩
    · exact hI.takers f hmem
  reset := by
    intro w s q a last liq hI hset hmem hreached
    obtain ⟨t, po, pn, fs, hf, hq⟩ := hset
    obtain ⟨-, -, -, hheld⟩ := hI.takers ⟨t, some (po, pn)⟩ (by simp [hf])
    have hT : ¬ T a := hI.seg.called s q a last hmem (hq ▸ (hheld (po, pn) rfl).1) hreached
    rw [wp_onState]
    refine wp_mono (assertUpdate_posts _ _ _ _ w.state) ?_ (fun _ _ _ => trivial)
    rintro _ s' ⟨m, rfl, hm⟩
    have hmoney := fun b hb => posted_money_of_not (T := T) hm (by simpa using hT) (a := b) hb
    exact { hI with
      money := fun b hb q' ty => (hmoney b hb q' ty).trans (hI.money b hb q' ty)
      seg := { hI.seg with
        liq := fun b hb q' hq' => (hmoney b hb q' _).trans (hI.seg.liq b hb q' hq') } }
  erase := by
    intro w w0' fs price key pold pnew rem hI hI0 _ hc hrem hf
    obtain ⟨h1, h2, h3, h4⟩ := hI.takers ⟨rem.pnew, some (pold, pnew)⟩ (by simp [hf])
    have hprop : pold.property ≠ A.property := (h4 (pold, pnew) rfl).1
    have hkey : pold.key = key := (hI0.seg.book _ _ _ _ hc.inBook).2.2
    have hshape : ∃ r, rem.replacement = { pold with amountForsale := r } := by
      rw [hrem]
      exact (remainders_shape _ pold pnew).1
    refine wp_mono (eraseMatched_spec price key pold pnew rem w) ?_ (fun _ _ _ => trivial)
    rintro _ w' ⟨hold, rfl⟩
    have hrest : Resting w.state pold := by
      unfold Resting
      rw [hc.property, hc.priceEq, hkey]
      exact hold
    have hbook := hI.seg.book.replaceMatched hc.property hshape
    have hrests := fun o => resting_replaceMatched (o := o) hrest hc.property hshape
    rw [hc.priceEq, hkey] at hbook
    simp only [hc.priceEq, hkey] at hrests
    refine hI.rebook rfl rfl rfl hbook ?_ ?_ rfl (Or.inr ⟨_, _, rfl⟩) ?_
    · exact State.contractPrices_setContractLevel_ne _ (hc.property ▸ Ne.symm hprop) _ _
    · intro o ho
      rcases (hrests o).mp ho with ho | ho
      · exact Or.inl ho.1
      · obtain ⟨r, hr⟩ := hshape
        rw [ho.1, hr]
        exact Or.inr ⟨hprop, fun hT => hprop ((hI.seg.traders pold hrest).mp hT),
          hI.seg.prices pold hrest⟩
    · intro f hmem
      rcases List.mem_cons.mp hmem with rfl | hmem
      · exact ⟨⟨rem.pnew, some (pold, pnew)⟩, by simp [hf], rfl, Or.inl rfl⟩
      · exact ⟨f, List.mem_of_mem_tail hmem, rfl, Or.inr rfl⟩
  rest := by
    intro w fs o hI hf
    obtain ⟨h1, h2, h3, -⟩ := hI.takers ⟨o, none⟩ (by simp [hf])
    dsimp only at h1 h2 h3
    refine wp_imp (restOrder_spec o w _) ?_
    rintro _ w' rfl
    have hprices : (restState w.state o).contractPrices A.property =
        w.state.contractPrices A.property := by
      unfold restState
      split
      · exact State.contractPrices_setContractLevel_ne _ (Ne.symm h1) _ _
      · rfl
    obtain ⟨book, hbook⟩ := restState_book w.state o
    refine hI.rebook (by rw [hbook]) (by rw [hbook]) (by rw [hbook]) (hI.seg.book.restState o)
      hprices ?_ rfl (Or.inl rfl) ?_
    · intro x hx
      rcases resting_restState.mp hx with hx | ⟨rfl, -, -⟩
      · exact Or.inl hx
      · exact Or.inr ⟨h1, h2, h3⟩
    · intro f hmem
      exact ⟨f, List.mem_of_mem_tail hmem, rfl, Or.inr rfl⟩
  fuel := fun _ => trivial
  undefined := fun _ => trivial

theorem ForeignInv.start {w : World} (h : Segregated A T w) (hf : w.frames = []) :
    ForeignInv A T w w :=
  ⟨h, fun _ _ _ _ => rfl, rfl, rfl, fun _ => rfl, by simp [hf]⟩

/-- A trade of another contract by others. -/
theorem foreign_trade (fuel : Nat) {tx : CMPTransaction} {w : World} (h : Segregated A T w)
    (hf : w.frames = []) (hprop : tx.property.toNat ≠ A.property) (hT : ¬ T tx.sender) :
    wp (logicMathContractDexTrade fuel tx) (fun _ w' => ForeignInv A T w w' ∧ Returned w w')
      (fun _ _ => True) w := by
  have hI := ForeignInv.start h hf
  refine logicMathContractDexTrade_rule (foreignInv_engine w) fuel tx hI (fun _ _ => trivial) ?_
  intro m hm _
  have hmoney := fun b hb => posted_money_of_not (T := T) hm
    (by simpa [reserveEntries] using hT) (a := b) hb
  have hres : ForeignInv A T w (reservedWorld w tx m) :=
    { hI with
      money := fun b hb q ty => hmoney b hb q ty
      seg := { h with
        records := h.records.reserved tx m
        liq := fun b hb q hq => (hmoney b hb q _).trans (h.liq b hb q hq) } }
  refine ⟨fun _ => hres, fun hprice => ?_⟩
  have hserial : ((reservedWorld w tx m).place (tradeOrder w tx)).nextSerial A.property =
      (reservedWorld w tx m).nextSerial A.property := Function.update_of_ne (Ne.symm hprop) _ _
  refine hres.note (e := .placed (tradeOrder w tx)) (l := []) trivial (Posted.refl _) (by simp) rfl
    hres.seg.records hserial rfl ?_
  intro f hmem
  have hframe : f = ⟨tradeOrder w tx, none⟩ := by simpa [World.place, reservedWorld, hf] using hmem
  subst hframe
  exact ⟨hprop, hT, toInt64_toNat_ne_zero hprice, fun k hk => by cases hk⟩

/-! ## Own steps, in two worlds -/

/-- Two worlds look the same to the traders of `A`. -/
structure SameView (A : ContractDef) (T : Address → Prop) (initial : Nat) (w1 w2 : World) :
    Prop where
  money : ∀ a, T a → ∀ q ty, w1.state.tallyMap.money a q ty = w2.state.tallyMap.money a q ty
  prices : w1.state.contractPrices A.property = w2.state.contractPrices A.property
  serial : w1.nextSerial A.property = w2.nextSerial A.property
  own : ownPrice A.property initial w1.trace = ownPrice A.property initial w2.trace

/-- The parameters in force are those of `A`. -/
def InForce (A : ContractDef) (s : State) : Prop :=
  s.collateralCurrency = A.collateral ∧ s.marginRequirementContract = A.margin ∧
    s.notionalSize = A.notional

/-- Two worlds in the middle of the same trade of `A`. -/
structure OwnPair (A : ContractDef) (T : Address → Prop) (initial : Nat) (w1 w2 : World) :
    Prop where
  left : Segregated A T w1
  right : Segregated A T w2
  same : SameView A T initial w1 w2
  inForce : InForce A w1.state ∧ InForce A w2.state

/-- An order of `A`. -/
def OwnOrder (A : ContractDef) (T : Address → Prop) (o : CMPContractDex) : Prop :=
  o.property = A.property ∧ T o.addr ∧ toInt64 o.effectivePrice ≠ 0

variable {initial : Nat}

/-- The same entries on equal balances give equal balances. -/
theorem same_money_posted {m1 m2 m1' m2' : TallyMap} {l : List Entry}
    (h : ∀ a, T a → ∀ q ty, m1.money a q ty = m2.money a q ty) (h1 : Posted m1 m1' l)
    (h2 : Posted m2 m2' l) : ∀ a, T a → ∀ q ty, m1'.money a q ty = m2'.money a q ty := by
  intro a ha q ty
  rw [h1.money, h2.money, h a ha q ty]

/-- A step of `A` that writes to the ledger. -/
theorem Segregated.own {w w' : World} {l : List Entry} (h : Segregated A T w)
    (hposted : Posted w.state.tallyMap w'.state.tallyMap l)
    (hl : ∀ x ∈ l, x.ty = .liquidationPrice → x.property = A.property)
    (hbook : w'.state.contractdex = w.state.contractdex)
    (hrecords : NoBasisRecord w'.state.tradeList)
    (hchecks : ∀ s q a last, .marginCheck s q a last ∈ w'.trace →
      .marginCheck s q a last ∈ w.trace ∨ q = A.property) : Segregated A T w' where
  records := hrecords
  book := (bookWf_congr hbook).mpr h.book
  traders := fun o ho => h.traders o ((resting_congr hbook o).mp ho)
  prices := fun o ho => h.prices o ((resting_congr hbook o).mp ho)
  liq := by
    intro a ha q hq
    have hz : (l.map fun x => x.toMoney a q .liquidationPrice).sum = 0 := by
      apply List.sum_eq_zero
      intro y hy
      obtain ⟨x, hx, rfl⟩ := List.mem_map.mp hy
      unfold Entry.toMoney
      rw [if_neg]
      rintro ⟨-, hp, hty⟩
      exact hq (hp.trans (hl x hx hty.symm))
    rw [hposted.money, hz, add_zero]
    exact h.liq a ha q hq
  called := by
    intro s q a last hmem hq hreached
    rcases hchecks s q a last hmem with hmem | hqa
    · exact h.called s q a last hmem hq hreached
    · exact absurd hqa hq

/-- The two parties read the same balances. -/
theorem SameView.parties {w1 w2 : World} {pold pnew : CMPContractDex}
    (h : SameView A T initial w1 w2) (hold : T pold.addr) (hnew : T pnew.addr) :
    parties w1.state pold pnew = parties w2.state pold pnew := by
  have hbal : ∀ a, T a → ∀ q ty, ty ≠ .acceptReserve →
      w1.state.getMPbalance a q ty = w2.state.getMPbalance a q ty := by
    intro a ha q ty hty
    rw [State.getMPbalance_eq _ _ _ hty, State.getMPbalance_eq _ _ _ hty, h.money a ha q ty]
  unfold OmniCore.parties
  split
  · simp only [hbal _ hold _ _ (show TallyType.possitiveBalance ≠ .acceptReserve by decide),
      hbal _ hold _ _ (show TallyType.negativeBalance ≠ .acceptReserve by decide),
      hbal _ hnew _ _ (show TallyType.possitiveBalance ≠ .acceptReserve by decide),
      hbal _ hnew _ _ (show TallyType.negativeBalance ≠ .acceptReserve by decide)]
  · simp only [hbal _ hold _ _ (show TallyType.possitiveBalance ≠ .acceptReserve by decide),
      hbal _ hold _ _ (show TallyType.negativeBalance ≠ .acceptReserve by decide),
      hbal _ hnew _ _ (show TallyType.possitiveBalance ≠ .acceptReserve by decide),
      hbal _ hnew _ _ (show TallyType.negativeBalance ≠ .acceptReserve by decide)]

/-- A candidate of `A` is of the traders of `A`. -/
theorem Segregated.candidate {w : World} {price : Nat} {key : OrderKey}
    {pold pnew : CMPContractDex} (h : Segregated A T w) (hnew : pnew.property = A.property)
    (hbook : (w.state.contractLevel pnew.property price)[key]? = some pold) :
    OwnOrder A T pold ∧ Resting w.state pold := by
  have hrest : Resting w.state pold := h.book.resting hbook
  have hprop : pold.property = A.property := by
    rw [← hnew]
    exact (h.book _ _ _ _ hbook).1
  exact ⟨⟨hprop, (h.traders pold hrest).mpr hprop, h.prices pold hrest⟩, hrest⟩

/-- Both worlds visit the same candidate. -/
theorem OwnPair.visit {w1 w2 w1' w2' : World} {pold pnew : CMPContractDex} {m1 m2 : TallyMap}
    (h : OwnPair A T initial w1 w2) (hold : OwnOrder A T pold) (hnew : OwnOrder A T pnew)
    (hm1 : Posted w1.state.tallyMap m1 [liqEntry pnew, liqEntry pold])
    (hm2 : Posted w2.state.tallyMap m2 [liqEntry pnew, liqEntry pold])
    (hw1 : w1' = { w1 with
      state := w1.state.withTally m1
      trace := .candidate w1.state pold pnew :: w1.trace })
    (hw2 : w2' = { w2 with
      state := w2.state.withTally m2
      trace := .candidate w2.state pold pnew :: w2.trace }) :
    OwnPair A T initial w1' w2' := by
  subst hw1 hw2
  have hliq : ∀ x ∈ [liqEntry pnew, liqEntry pold], x.ty = .liquidationPrice →
      x.property = A.property := by
    simp [liqEntry, hold.1, hnew.1]
  exact
    { left := h.left.own hm1 hliq rfl h.left.records (by simp +contextual)
      right := h.right.own hm2 hliq rfl h.right.records (by simp +contextual)
      same := ⟨same_money_posted h.same.money hm1 hm2, h.same.prices, h.same.serial, h.same.own⟩
      inForce := h.inForce }

/-- What settlement posts, for the contracts that are closed. -/
theorem closeEntries_eq {s : State} {who : Address} {property : PropertyId}
    {close : MatchStatus × Int} {k : Int} (h : Settles close k) :
    closeEntries s who property close 0 0 =
      settleEntries who s.collateralCurrency property (s.marginRequirementContract * k)
        (pnl s.marketPrice s.notionalSize k 0) 0 := by
  unfold closeEntries
  rw [(h.freed s).1, (h.freed s).2]

/-- Both worlds execute the same match. -/
theorem OwnPair.fill {w1 w2 : World} {pold pnew : CMPContractDex} {s1 s2 : State}
    {mp1 mp2 : TallyMap} {bS1 bB1 rS1 rB1 bS2 bB2 rS2 rB2 : Int} {v1 v2 : Text}
    {f1 f2 : List Frame}
    (h : OwnPair A T initial w1 w2) (hold : OwnOrder A T pold) (hnew : OwnOrder A T pnew)
    (h1 : MatchEffect w1.state s1 pold pnew mp1 bS1 bB1 rS1 rB1 v1)
    (h2 : MatchEffect w2.state s2 pold pnew mp2 bS2 bB2 rS2 rB2 v2)
    (hc1 : Event.Isolated A initial (.matched w1.state w1.frames.tail pold pnew) w1.trace)
    (hc2 : Event.Isolated A initial (.matched w2.state w2.frames.tail pold pnew) w2.trace) :
    OwnPair A T initial
      { w1 with
        state := s1
        frames := f1
        trace := .matched w1.state w1.frames.tail pold pnew :: w1.trace }
      { w2 with
        state := s2
        frames := f2
        trace := .matched w2.state w2.frames.tail pold pnew :: w2.trace } := by
  obtain ⟨rfl, rfl, rfl, rfl⟩ := h1.basis h.left.records
  obtain ⟨rfl, rfl, rfl, rfl⟩ := h2.basis h.right.records
  have hprop : pold.property = pnew.property := hold.1.trans hnew.1.symm
  have hq := h.same.parties hold.2.1 hnew.2.1
  obtain ⟨hs1, hb1⟩ := hc1 hold.1
  obtain ⟨hs2, hb2⟩ := hc2 hold.1
  have hset1 := h1.settled
  have hset2 := h2.settled
  rw [closeEntries_eq (settles_sellerClose hprop h1.positions),
    closeEntries_eq (settles_buyerClose hprop h1.positions), h.inForce.1.1, h.inForce.1.2.1,
    h.inForce.1.2.2, hs1, hb1, h.same.own, hq] at hset1
  rw [closeEntries_eq (settles_sellerClose hprop h2.positions),
    closeEntries_eq (settles_buyerClose hprop h2.positions), h.inForce.2.1, h.inForce.2.2.1,
    h.inForce.2.2.2, hs2, hb2] at hset2
  have hpos1 := h1.positions
  rw [hq] at hpos1
  have hall1 := hpos1.trans hset1
  have hall2 := h2.positions.trans hset2
  have hliq : ∀ x, x ∈ ((parties w2.state pold pnew).sellerEntries pold.property ++
      (parties w2.state pold pnew).buyerEntries pold.property) ++
      (settleEntries (parties w2.state pold pnew).seller A.collateral pold.property
        (A.margin * (parties w2.state pold pnew).closedSeller)
        (pnl (ownPrice A.property initial w2.trace) A.notional
          (parties w2.state pold pnew).closedSeller 0) 0 ++
      settleEntries (parties w2.state pold pnew).buyer A.collateral pold.property
        (A.margin * (parties w2.state pold pnew).closedBuyer)
        (pnl (ownPrice A.property initial w2.trace) A.notional
          (parties w2.state pold pnew).closedBuyer 0) 0) →
      x.ty = .liquidationPrice → x.property = A.property := by
    intro x hx hty
    exfalso
    simp only [Parties.sellerEntries, Parties.buyerEntries, settleEntries, List.mem_append,
      List.mem_cons, List.not_mem_nil, or_false] at hx
    rcases hx with ((rfl | rfl) | (rfl | rfl)) | ((rfl | rfl | rfl | rfl) | (rfl | rfl | rfl | rfl))
    all_goals cases hty
  have hbook1 : s1.contractdex = w1.state.contractdex := by rw [h1.state]
  have hbook2 : s2.contractdex = w2.state.contractdex := by rw [h2.state]
  refine
    { left := h.left.own hall1 hliq hbook1 (h.left.records.matched h1) (by simp +contextual)
      right := h.right.own hall2 hliq hbook2 (h.right.records.matched h2) (by simp +contextual)
      same := ⟨same_money_posted h.same.money hall1 hall2, ?_, h.same.serial, ?_⟩
      inForce := ⟨?_, ?_⟩ }
  · have hp1 : s1.contractPrices A.property = w1.state.contractPrices A.property := by
      unfold State.contractPrices
      rw [hbook1]
    have hp2 : s2.contractPrices A.property = w2.state.contractPrices A.property := by
      unfold State.contractPrices
      rw [hbook2]
    dsimp only
    rw [hp1, hp2, h.same.prices]
  · dsimp only [ownPrice]
    rw [if_pos hold.1, if_pos hold.1]
  · unfold InForce
    dsimp only
    rw [h1.state]
    exact h.inForce.1
  · unfold InForce
    dsimp only
    rw [h2.state]
    exact h.inForce.2

/-- A step of `A` that changes its book. -/
theorem Segregated.rebook {w w' : World} (h : Segregated A T w)
    (htally : w'.state.tallyMap = w.state.tallyMap)
    (hrecords : w'.state.tradeList = w.state.tradeList) (hbook : BookWf w'.state)
    (hrests : ∀ o, Resting w'.state o → Resting w.state o ∨ OwnOrder A T o)
    (htrace : ∀ s q a last, .marginCheck s q a last ∈ w'.trace →
      .marginCheck s q a last ∈ w.trace) : Segregated A T w' where
  records := hrecords ▸ h.records
  book := hbook
  traders := by
    intro o ho
    rcases hrests o ho with ho | ho
    · exact h.traders o ho
    · exact iff_of_true ho.2.1 ho.1
  prices := by
    intro o ho
    rcases hrests o ho with ho | ho
    · exact h.prices o ho
    · exact ho.2.2
  liq := fun a ha q hq => by rw [htally]; exact h.liq a ha q hq
  called := fun s q a last hmem => h.called s q a last (htrace s q a last hmem)

/-- The world after an erasure. -/
def erasedWorld (w : World) (price : Nat) (key : OrderKey) (pold pnew : CMPContractDex)
    (rem : Remainders) : World :=
  { w with
    state := w.state.setContractLevel pnew.property price
      (replaceMatched (w.state.contractLevel pnew.property price) key pold pnew rem)
    frames := ⟨rem.pnew, none⟩ :: w.frames.tail
    trace := .erased pold true :: w.trace }

theorem Segregated.erase {w : World} {price : Nat} {key : OrderKey} {pold pnew : CMPContractDex}
    {rem : Remainders} (h : Segregated A T w) (hold : OwnOrder A T pold)
    (hnew : OwnOrder A T pnew)
    (hshape : ∃ r, rem.replacement = { pold with amountForsale := r })
    (hbook : (w.state.contractLevel pnew.property price)[key]? = some pold) :
    Segregated A T (erasedWorld w price key pold pnew rem) := by
  obtain ⟨-, hprice, hkey⟩ := h.book _ _ _ _ hbook
  have hprop : pold.property = pnew.property := hold.1.trans hnew.1.symm
  have hrest : Resting w.state pold := h.book.resting hbook
  subst hprice hkey
  refine h.rebook rfl rfl (h.book.replaceMatched hprop hshape) ?_ ?_
  · intro o ho
    rcases (resting_replaceMatched hrest hprop hshape).mp ho with ho | ho
    · exact Or.inl ho.1
    · obtain ⟨r, hr⟩ := hshape
      rw [ho.1, hr]
      exact Or.inr hold
  · intro s q a last hmem
    simpa [erasedWorld] using hmem

/-- Both worlds erase the same order. -/
theorem OwnPair.erase {w1 w2 : World} {price : Nat} {key : OrderKey} {pold pnew : CMPContractDex}
    {rem : Remainders} (h : OwnPair A T initial w1 w2) (hold : OwnOrder A T pold)
    (hnew : OwnOrder A T pnew)
    (hshape : ∃ r, rem.replacement = { pold with amountForsale := r })
    (h1 : (w1.state.contractLevel pnew.property price)[key]? = some pold)
    (h2 : (w2.state.contractLevel pnew.property price)[key]? = some pold) :
    OwnPair A T initial (erasedWorld w1 price key pold pnew rem)
      (erasedWorld w2 price key pold pnew rem) where
  left := h.left.erase hold hnew hshape h1
  right := h.right.erase hold hnew hshape h2
  same := by
    refine ⟨h.same.money, ?_, h.same.serial, h.same.own⟩
    have hlevel : w1.state.contractLevel pnew.property price =
        w2.state.contractLevel pnew.property price := by
      unfold State.contractLevel
      rw [hnew.1, h.same.prices]
    unfold erasedWorld
    dsimp only
    rw [hlevel, hnew.1, State.contractPrices_setContractLevel_self,
      State.contractPrices_setContractLevel_self, h.same.prices]
  inForce := h.inForce

/-- The world after what remains of an order was put into the book. -/
def restedWorld (w : World) (o : CMPContractDex) : World :=
  { w with state := restState w.state o, frames := w.frames.tail }

/-- Both worlds put the same order into the book. -/
theorem OwnPair.rest {w1 w2 : World} {o : CMPContractDex} (h : OwnPair A T initial w1 w2)
    (ho : OwnOrder A T o) : OwnPair A T initial (restedWorld w1 o) (restedWorld w2 o) := by
  have hseg : ∀ w, Segregated A T w → Segregated A T (restedWorld w o) := by
    intro w hw
    obtain ⟨book, hbook⟩ := restState_book w.state o
    refine hw.rebook ?_ ?_ (hw.book.restState o) ?_ (fun _ _ _ _ hmem => hmem)
    · show (restState w.state o).tallyMap = _
      rw [hbook]
    · show (restState w.state o).tradeList = _
      rw [hbook]
    · intro x hx
      rcases resting_restState.mp hx with hx | ⟨rfl, -, -⟩
      · exact Or.inl hx
      · exact Or.inr ho
  have hforce : ∀ s, InForce A s → InForce A (restState s o) := by
    intro s hs
    obtain ⟨book, hbook⟩ := restState_book s o
    unfold InForce
    rw [hbook]
    exact hs
  obtain ⟨b1, hb1⟩ := restState_book w1.state o
  obtain ⟨b2, hb2⟩ := restState_book w2.state o
  refine ⟨hseg w1 h.left, hseg w2 h.right, ⟨?_, ?_, h.same.serial, h.same.own⟩,
    hforce _ h.inForce.1, hforce _ h.inForce.2⟩
  · intro a ha q ty
    show (restState w1.state o).tallyMap.money a q ty = (restState w2.state o).tallyMap.money a q ty
    rw [hb1, hb2]
    exact h.same.money a ha q ty
  · have hlevel : w1.state.contractLevel o.property o.effectivePrice =
        w2.state.contractLevel o.property o.effectivePrice := by
      unfold State.contractLevel
      rw [ho.1, h.same.prices]
    show (restState w1.state o).contractPrices A.property =
      (restState w2.state o).contractPrices A.property
    unfold restState
    rw [hlevel]
    split
    · rw [ho.1, State.contractPrices_setContractLevel_self,
        State.contractPrices_setContractLevel_self, h.same.prices]
    · exact h.same.prices

/-! ## Margin checks without a call -/

theorem trivial_engine : EngineInv (fun _ => True) fun _ _ => True where
  condition := fun _ _ _ => trivial
  visit := fun _ _ _ => wp_all (fun _ _ => trivial) (fun _ _ => trivial)
  fill := fun _ _ _ _ => wp_all (fun _ _ => trivial) (fun _ _ => trivial)
  check := fun _ _ _ _ => trivial
  call := fun _ _ _ _ => trivial
  reset := fun _ _ _ _ _ => wp_all (fun _ _ => trivial) (fun _ _ => trivial)
  erase := fun _ _ _ _ _ _ => wp_all (fun _ _ => trivial) (fun _ _ => trivial)
  rest := fun _ _ => wp_all (fun _ _ => trivial) (fun _ _ => trivial)
  fuel := fun _ => trivial
  undefined := fun _ => trivial

/-- The trace of a matching procedure only grows. -/
theorem xTradeLoop_suffix (fuel : Nat) (cursor : Option (Nat × OrderKey)) (ret : MatchReturnType)
    {w w' : World} {fs : List Frame} {pnew : CMPContractDex} {r : MatchReturnType × CMPContractDex}
    (hf : w.frames = ⟨pnew, none⟩ :: fs) (h : xTradeLoop fuel cursor ret pnew w = .ok r w') :
    w.trace <:+ w'.trace :=
  (wp_ok (xTradeLoop_rule trivial_engine fuel cursor ret w fs pnew trivial hf) h).2.2

/-- An erasure leaves the taker in the innermost frame. -/
theorem eraseMatched_frames {price : Nat} {key : OrderKey} {pold pnew : CMPContractDex}
    {rem : Remainders} {w w' : World} (h : eraseMatched price key pold pnew rem w = .ok () w') :
    w'.frames = ⟨rem.pnew, none⟩ :: w.frames.tail := by
  rw [(wp_ok (eraseMatched_spec price key pold pnew rem w) h).2]

/-- `marginLogic` after a match of `A`, if no call is made: only checks are noted. -/
theorem marginLoop_quiet (initial : Nat) {trade : CMPContractDex → ExecW (MatchReturnType × CMPContractDex)}
    (htrade : KeepsTrade (fun _ => True) (fun _ _ => True) trade) (addrs : List Text) (w : World)
    (hset : Settling w A.property) :
    wp (marginLoop trade A.property addrs)
      (fun _ w' => w.trace <:+ w'.trace ∧ (Along (Event.Isolated A initial) w'.trace →
        w' = { w with trace := w'.trace } ∧
        (∀ s q a last, .marginCheck s q a last ∈ w'.trace →
          .marginCheck s q a last ∈ w.trace ∨ q = A.property) ∧
        ownPrice A.property initial w'.trace = ownPrice A.property initial w.trace))
      (fun _ _ => True) w := by
  induction addrs generalizing w with
  | nil =>
      unfold marginLoop
      rw [wp_pure]
      exact ⟨List.suffix_refl _, fun _ => ⟨rfl, fun _ _ _ _ h => Or.inl h, rfl⟩⟩
  | cons t rest ih =>
      unfold marginLoop
      cases Address.ofText? t with
      | none => exact ih w hset
      | some address =>
          simp only [wp_bind, wp_get, emit, wp_modify]
          rw [wp_onState, wp_comparePrices]
          refine ⟨fun _ => ?_, fun _ => trivial⟩
          rw [wp_ite, decide_eq_true_eq]
          refine ⟨fun hreached => ?_, fun _ => ?_⟩
          · -- a call: the check that caused it stays in the trace
            have hall := marginLoop_rule trivial_engine htrade A.property
            unfold marginCallWith
            simp only [wp_bind, wp_get]
            refine wp_imp (contractDexAddWith_rule trivial_engine htrade (fun _ => trivial)
              (fun _ => trivial)) ?_
            rintro _ w1 ⟨-, hr1⟩
            have hset1 : Settling w1 A.property := by
              unfold Settling
              rw [hr1.1]
              exact hset
            have hbad : ∀ w' : World, w1.trace <:+ w'.trace → w.trace <:+ w'.trace ∧
                (Along (Event.Isolated A initial) w'.trace →
                  w' = { w with trace := w'.trace } ∧
                  (∀ s q a last, .marginCheck s q a last ∈ w'.trace →
                    .marginCheck s q a last ∈ w.trace ∨ q = A.property) ∧
                  ownPrice A.property initial w'.trace =
                    ownPrice A.property initial w.trace) := by
              intro w' hsuf
              have hlong := hr1.2.trans hsuf
              refine ⟨(List.suffix_cons _ _).trans hlong, fun hok => ?_⟩
              exact absurd hreached ((hok.suffix hlong).1 rfl)
            rw [wp_onState]
            refine wp_all (fun _ s2 => ?_) (fun _ _ => trivial)
            cases rest with
            | nil => exact (wp_throw _ _ _ _).mpr trivial
            | cons skipped rest =>
                refine wp_imp (hall _ rest le_rfl _ trivial hset1) ?_
                rintro _ w' ⟨-, hr'⟩
                exact hbad w' hr'.2
          · refine wp_imp (ih _ hset) ?_
            rintro _ w' ⟨hsuf, hquiet⟩
            refine ⟨(List.suffix_cons _ _).trans hsuf, fun hok => ?_⟩
            obtain ⟨hw', hchecks, hown⟩ := hquiet hok
            refine ⟨hw', fun s q a last hmem => ?_, hown⟩
            rcases hchecks s q a last hmem with hmem | hq
            · rcases List.mem_cons.mp hmem with heq | hmem
              · cases heq
                exact Or.inr rfl
              · exact Or.inl hmem
            · exact Or.inr hq

/-! ## Lock step -/

/-- One round of `x_Trade` that returns: nothing is left, the order at hand is no counterpart,
    nothing could be bought, or a match was executed, checked and erased. -/
theorem xTradeLoop_succ_ok {fuel : Nat} {cursor : Option (Nat × OrderKey)} {ret : MatchReturnType}
    {pnew : CMPContractDex} {w w' : World} {r : MatchReturnType × CMPContractDex}
    (h : xTradeLoop (fuel + 1) cursor ret pnew w = .ok r w') :
    (nextOffer (w.state.contractPrices pnew.property) pnew cursor = none ∧ r = (ret, pnew) ∧
      w' = w) ∨
    ∃ price key pold,
      nextOffer (w.state.contractPrices pnew.property) pnew cursor = some (price, key, pold) ∧
      (((pold.property ≠ pnew.property ∨ pold.tradingAction = pnew.tradingAction) ∧
        xTradeLoop fuel (some (price, key)) ret pnew w = .ok r w') ∨
      (¬ (pold.property ≠ pnew.property ∨ pold.tradingAction = pnew.tradingAction) ∧
        ∃ v, visitCandidate pold pnew w = .ok () v ∧
        (((parties v.state pold pnew).nCouldBuy = 0 ∧
          xTradeLoop fuel (some (price, key)) ret pnew v = .ok r w') ∨
        ((parties v.state pold pnew).nCouldBuy ≠ 0 ∧
          ∃ rem v1 v2 v3, fillOrder pold pnew v = .ok rem v1 ∧
            marginLogicWith (xTradeLoop fuel none .nothing) pold.property v1 = .ok () v2 ∧
            eraseMatched price key pold pnew rem v2 = .ok () v3 ∧
            xTradeLoop fuel (some (price, key)) rem.ret rem.pnew v3 = .ok r w')))) := by
  unfold xTradeLoop at h
  obtain ⟨_, _, hget, h⟩ := bind_ok h
  cases hget
  cases hn : nextOffer (w.state.contractPrices pnew.property) pnew cursor with
  | none =>
      rw [hn] at h
      cases h
      exact Or.inl ⟨rfl, rfl, rfl⟩
  | some e =>
      obtain ⟨price, key, pold⟩ := e
      rw [hn] at h
      dsimp only at h
      refine Or.inr ⟨price, key, pold, rfl, ?_⟩
      obtain ⟨_, wa, hassert, hround⟩ := bind_ok h
      have hwp : wp (onState (assertThat .condition (pold.effectivePrice == price)) : ExecW Unit)
          (fun _ v => v = w) (fun _ _ => True) w := by simp
      have hwa : wa = w := (wp_ok hwp hassert :)
      rw [hwa] at hround
      by_cases hcp : pold.property ≠ pnew.property ∨ pold.tradingAction = pnew.tradingAction
      · rw [if_pos hcp] at hround
        exact Or.inl ⟨hcp, hround⟩
      · rw [if_neg hcp] at hround
        obtain ⟨_, v, hvisit, hround⟩ := bind_ok hround
        refine Or.inr ⟨hcp, v, hvisit, ?_⟩
        obtain ⟨_, _, hget, hround⟩ := bind_ok hround
        cases hget
        by_cases hn0 : (parties v.state pold pnew).nCouldBuy = 0
        · rw [if_pos hn0] at hround
          exact Or.inl ⟨hn0, hround⟩
        · rw [if_neg hn0] at hround
          obtain ⟨rem, v1, hfill, hround⟩ := bind_ok hround
          obtain ⟨_, v2, hmargin, hround⟩ := bind_ok hround
          obtain ⟨_, v3, herase, hround⟩ := bind_ok hround
          exact Or.inr ⟨hn0, rem, v1, v2, v3, hfill, hmargin, herase, hround⟩

/-- The margin checks after a match of `A`, if no call is made. -/
theorem marginLogic_quiet (initial : Nat) {fuel : Nat} {v1 v2 : World} (hset : Settling v1 A.property)
    (hrun : marginLogicWith (xTradeLoop fuel none .nothing) A.property v1 = .ok () v2) :
    v1.trace <:+ v2.trace ∧ (Along (Event.Isolated A initial) v2.trace →
      v2 = { v1 with trace := v2.trace } ∧
      (∀ s q a last, .marginCheck s q a last ∈ v2.trace →
        .marginCheck s q a last ∈ v1.trace ∨ q = A.property) ∧
      ownPrice A.property initial v2.trace = ownPrice A.property initial v1.trace) := by
  unfold marginLogicWith at hrun
  obtain ⟨_, _, hget, hrun⟩ := bind_ok hrun
  cases hget
  have hquiet := marginLoop_quiet initial
    (xTradeLoop_rule trivial_engine fuel none .nothing)
    (matchedAddresses (v1.state.tradeList.toList.map Prod.snd)) v1 hset
  exact (wp_ok hquiet hrun :)

/-- Both worlds pass the margin checks without a call. -/
theorem OwnPair.checked {fuel : Nat} {v1 v2 u1 u2 : World} (h : OwnPair A T initial v1 u1)
    (hset1 : Settling v1 A.property) (hset2 : Settling u1 A.property)
    (h1 : marginLogicWith (xTradeLoop fuel none .nothing) A.property v1 = .ok () v2)
    (h2 : marginLogicWith (xTradeLoop fuel none .nothing) A.property u1 = .ok () u2)
    (hok1 : Along (Event.Isolated A initial) v2.trace)
    (hok2 : Along (Event.Isolated A initial) u2.trace) :
    OwnPair A T initial v2 u2 ∧ v2.frames = v1.frames ∧ u2.frames = u1.frames := by
  obtain ⟨hw1, hc1, ho1⟩ := (marginLogic_quiet initial hset1 h1).2 hok1
  obtain ⟨hw2, hc2, ho2⟩ := (marginLogic_quiet initial hset2 h2).2 hok2
  have e1 : v2.state = v1.state := by rw [hw1]
  have e2 : u2.state = u1.state := by rw [hw2]
  have n1 : v2.nextSerial = v1.nextSerial := by rw [hw1]
  have n2 : u2.nextSerial = u1.nextSerial := by rw [hw2]
  have hs1 : Segregated A T v2 := h.left.own (l := []) (by rw [e1]; exact Posted.refl _) (by simp)
    (by rw [e1]) (by rw [e1]; exact h.left.records) hc1
  have hs2 : Segregated A T u2 := h.right.own (l := []) (by rw [e2]; exact Posted.refl _) (by simp)
    (by rw [e2]) (by rw [e2]; exact h.right.records) hc2
  refine ⟨⟨hs1, hs2, ⟨?_, ?_, ?_, ?_⟩, ?_⟩, by rw [hw1], by rw [hw2]⟩
  · rw [e1, e2]
    exact h.same.money
  · rw [e1, e2]
    exact h.same.prices
  · rw [n1, n2]
    exact h.same.serial
  · rw [ho1, ho2]
    exact h.same.own
  · rw [e1, e2]
    exact h.inForce

/-- Both worlds execute, check and erase the same match. -/
theorem OwnPair.matched {fuel price : Nat} {key : OrderKey} {pold pnew : CMPContractDex}
    {rem rem' : Remainders} {v v1 v2 v3 u u1 u2 u3 : World} {fs1 fs2 : List Frame}
    (h : OwnPair A T initial v u) (hold : OwnOrder A T pold) (hnew : OwnOrder A T pnew)
    (hfv : v.frames = ⟨pnew, none⟩ :: fs1) (hfu : u.frames = ⟨pnew, none⟩ :: fs2)
    (hfill : fillOrder pold pnew v = .ok rem v1) (hfill' : fillOrder pold pnew u = .ok rem' u1)
    (hmargin : marginLogicWith (xTradeLoop fuel none .nothing) pold.property v1 = .ok () v2)
    (hmargin' : marginLogicWith (xTradeLoop fuel none .nothing) pold.property u1 = .ok () u2)
    (herase : eraseMatched price key pold pnew rem v2 = .ok () v3)
    (herase' : eraseMatched price key pold pnew rem' u2 = .ok () u3)
    (hok1 : Along (Event.Isolated A initial) v3.trace)
    (hok2 : Along (Event.Isolated A initial) u3.trace) :
    rem = rem' ∧ OwnOrder A T rem.pnew ∧ OwnPair A T initial v3 u3 ∧
      v3.frames = ⟨rem.pnew, none⟩ :: fs1 ∧ u3.frames = ⟨rem.pnew, none⟩ :: fs2 := by
  obtain ⟨hrem, s1, mp1, bS1, bB1, rS1, rB1, t1, heff1, hv1⟩ :=
    wp_ok (fillOrder_spec pold pnew v) hfill
  obtain ⟨hrem', s2, mp2, bS2, bB2, rS2, rB2, t2, heff2, hu1⟩ :=
    wp_ok (fillOrder_spec pold pnew u) hfill'
  have hsame : rem = rem' := by
    rw [hrem, hrem', h.same.parties hold.2.1 hnew.2.1]
  subst hsame
  obtain ⟨hbook1, hv3⟩ := wp_ok (eraseMatched_spec price key pold pnew rem v2) herase
  obtain ⟨hbook2, hu3⟩ := wp_ok (eraseMatched_spec price key pold pnew rem u2) herase'
  rw [hold.1] at hmargin hmargin'
  have hset1 : Settling v1 A.property := ⟨rem.pnew, pold, pnew, _, by rw [hv1], hold.1⟩
  have hset2 : Settling u1 A.property := ⟨rem.pnew, pold, pnew, _, by rw [hu1], hold.1⟩
  -- the conditions on the way, from those on the final traces
  have hok1' : Along (Event.Isolated A initial) v2.trace := by
    rw [hv3] at hok1
    exact hok1.2
  have hok2' : Along (Event.Isolated A initial) u2.trace := by
    rw [hu3] at hok2
    exact hok2.2
  have hev1 := hok1'.suffix (marginLogic_quiet initial hset1 hmargin).1
  have hev2 := hok2'.suffix (marginLogic_quiet initial hset2 hmargin').1
  rw [hv1] at hev1
  rw [hu1] at hev2
  have hfilled : OwnPair A T initial v1 u1 := by
    rw [hv1, hu1]
    exact h.fill hold hnew heff1 heff2 hev1.1 hev2.1
  obtain ⟨hchecked, hf1, hf2⟩ := hfilled.checked hset1 hset2 hmargin hmargin' hok1' hok2'
  obtain ⟨hreplaced, r, hr⟩ := remainders_shape v.state pold pnew
  rw [← hrem] at hreplaced hr
  refine ⟨rfl, ?_, ?_, ?_, ?_⟩
  · rw [hr]
    exact hnew
  · rw [hv3, hu3]
    exact hchecked.erase hold hnew hreplaced hbook1 hbook2
  · rw [hv3, hf1, hv1, hfv]
    rfl
  · rw [hu3, hf2, hu1, hfu]
    rfl

/-- **LOCK STEP**: two worlds that look the same to the traders of `A` match an order of `A` in the
    same way. -/
theorem xTradeLoop_lockstep (fuel : Nat) :
    ∀ cursor ret pnew w1 w2 fs1 fs2 r1 r2 w1' w2', OwnPair A T initial w1 w2 →
      OwnOrder A T pnew → w1.frames = ⟨pnew, none⟩ :: fs1 → w2.frames = ⟨pnew, none⟩ :: fs2 →
      xTradeLoop fuel cursor ret pnew w1 = .ok r1 w1' →
      xTradeLoop fuel cursor ret pnew w2 = .ok r2 w2' →
      Along (Event.Isolated A initial) w1'.trace → Along (Event.Isolated A initial) w2'.trace →
      r1 = r2 ∧ OwnOrder A T r1.2 ∧ OwnPair A T initial w1' w2' := by
  induction fuel with
  | zero =>
      intro cursor ret pnew w1 w2 fs1 fs2 r1 r2 w1' w2' _ _ _ _ h1
      cases h1
  | succ fuel ih =>
      intro cursor ret pnew w1 w2 fs1 fs2 r1 r2 w1' w2' hpair hnew hf1 hf2 h1 h2 hok1 hok2
      have hbook : w2.state.contractPrices pnew.property = w1.state.contractPrices pnew.property := by
        rw [hnew.1, hpair.same.prices]
      have hc1 := xTradeLoop_succ_ok h1
      have hc2 := xTradeLoop_succ_ok h2
      rw [hbook] at hc2
      rcases hc1 with ⟨hn, rfl, rfl⟩ | ⟨price, key, pold, hn, hc1⟩
      · rcases hc2 with ⟨-, rfl, rfl⟩ | ⟨price, key, pold, hn', -⟩
        · exact ⟨rfl, hnew, hpair⟩
        · rw [hn] at hn'
          cases hn'
      · rcases hc2 with ⟨hn', -, -⟩ | ⟨price', key', pold', hn', hc2⟩
        · rw [hn] at hn'
          cases hn'
        rw [hn] at hn'
        cases hn'
        obtain ⟨hin, -⟩ := nextOffer_inBook hn
        obtain ⟨hold, -⟩ := hpair.left.candidate hnew.1 hin
        rcases hc1 with ⟨hcp, h1⟩ | ⟨hcp, v, hv, hc1⟩
        · rcases hc2 with ⟨-, h2⟩ | ⟨hcp', -⟩
          · exact ih _ _ _ _ _ _ _ _ _ _ _ hpair hnew hf1 hf2 h1 h2 hok1 hok2
          · exact absurd hcp hcp'
        · rcases hc2 with ⟨hcp', -⟩ | ⟨-, u, hu, hc2⟩
          · exact absurd hcp' hcp
          obtain ⟨m1, hm1, hv⟩ := wp_ok (visitCandidate_spec pold pnew w1) hv
          obtain ⟨m2, hm2, hu⟩ := wp_ok (visitCandidate_spec pold pnew w2) hu
          have hpair' := hpair.visit hold hnew hm1 hm2 hv hu
          have hfv : v.frames = ⟨pnew, none⟩ :: fs1 := by rw [hv]; exact hf1
          have hfu : u.frames = ⟨pnew, none⟩ :: fs2 := by rw [hu]; exact hf2
          have hq := hpair'.same.parties hold.2.1 hnew.2.1
          rcases hc1 with ⟨hz, h1⟩ | ⟨hz, rem, v1, v2, v3, hfill, hmargin, herase, h1⟩
          · rcases hc2 with ⟨-, h2⟩ | ⟨hz', -⟩
            · exact ih _ _ _ _ _ _ _ _ _ _ _ hpair' hnew hfv hfu h1 h2 hok1 hok2
            · rw [hq] at hz
              exact absurd hz hz'
          · rcases hc2 with ⟨hz', -⟩ | ⟨-, rem', u1, u2, u3, hfill', hmargin', herase', h2⟩
            · rw [← hq] at hz'
              exact absurd hz' hz
            have hs1 := xTradeLoop_suffix fuel _ _ (eraseMatched_frames herase) h1
            have hs2 := xTradeLoop_suffix fuel _ _ (eraseMatched_frames herase') h2
            obtain ⟨rfl, hrem, hpair3, hf1', hf2'⟩ := hpair'.matched hold hnew hfv hfu hfill hfill'
              hmargin hmargin' herase herase' (hok1.suffix hs1) (hok2.suffix hs2)
            exact ih _ _ _ _ _ _ _ _ _ _ _ hpair3 hrem hf1' hf2' h1 h2 hok1 hok2

/-! ## A whole trade of the contract -/

/-- A trade that returns was rejected, or it reserved its margin and its order was matched. -/
theorem contractDexTrade_ok (fuel : Nat) (tx : CMPTransaction) (w : World) :
    wp (logicMathContractDexTrade fuel tx)
      (fun _ w' =>
        (w.state.getMPbalance tx.sender w.state.collateralCurrency .balance <
          amountToReserve w.state tx ∧ w' = w) ∨
        (¬ w.state.getMPbalance tx.sender w.state.collateralCurrency .balance <
          amountToReserve w.state tx ∧
        ∃ m, Posted w.state.tallyMap m (reserveEntries w.state tx) ∧
          ((tx.effectivePrice.toNat = 0 ∧ w' = reservedWorld w tx m) ∨
          (tx.effectivePrice.toNat ≠ 0 ∧ ∃ r v,
            xTradeLoop fuel none .nothing (tradeOrder w tx)
              ((reservedWorld w tx m).place (tradeOrder w tx)) = .ok r v ∧
            w' = restedWorld v r.2))))
      (fun _ _ => True) w := by
  unfold logicMathContractDexTrade
  rw [wp_bind, wp_get]
  dsimp only
  rw [wp_ite]
  refine ⟨fun hbal => (wp_pure _ _ _ _).mpr (Or.inl ⟨hbal, rfl⟩), fun hbal => ?_⟩
  simp only [wp_bind, wp_onState]
  refine wp_mono (assertUpdate_posts _ _ _ _ w.state) ?_ (fun e _ h => trivial)
  rintro _ s1 ⟨m1, rfl, hm1⟩
  refine wp_mono (assertUpdate_posts _ _ _ _ _) ?_ (fun e _ h => trivial)
  rintro _ s2 ⟨m2, rfl, hm2⟩
  have hposted : Posted w.state.tallyMap m2 (reserveEntries w.state tx) := hm1.trans hm2
  simp only [recordNewTrade, wp_modify, contractDexAdd, wp_bind, wp_get]
  have hengine : wp (contractDexAddWith (xTradeContract fuel) (tradeOrder w tx))
      (fun _ w' => (tx.effectivePrice.toNat = 0 ∧ w' = reservedWorld w tx m2) ∨
          (tx.effectivePrice.toNat ≠ 0 ∧ ∃ r v,
            xTradeLoop fuel none .nothing (tradeOrder w tx)
              ((reservedWorld w tx m2).place (tradeOrder w tx)) = .ok r v ∧
            w' = restedWorld v r.2)) (fun _ _ => True) (reservedWorld w tx m2) := by
    unfold contractDexAddWith
    rw [wp_ite]
    refine ⟨fun hp => (wp_pure _ _ _ _).mpr (Or.inl ⟨hp, rfl⟩), fun hp => ?_⟩
    simp only [wp_bind, wp_modify, wp_pure]
    refine wp_mono (wp_self _ _) ?_ (fun _ _ _ => trivial)
    intro r v hrun
    refine wp_imp (restOrder_spec r.2 v _) ?_
    rintro _ w' rfl
    exact Or.inr ⟨hp, r, v, hrun, rfl⟩
  exact wp_imp hengine fun _ w' hw' => Or.inr ⟨hbal, m2, hposted, hw'⟩

/-- Both worlds reserve the same margin. -/
theorem OwnPair.reserve {w1 w2 : World} {tx : CMPTransaction} {m1 m2 : TallyMap}
    (h : OwnPair A T initial w1 w2)
    (h1 : Posted w1.state.tallyMap m1 (reserveEntries w1.state tx))
    (h2 : Posted w2.state.tallyMap m2 (reserveEntries w2.state tx)) :
    OwnPair A T initial (reservedWorld w1 tx m1) (reservedWorld w2 tx m2) := by
  have hentries : reserveEntries w1.state tx = reserveEntries w2.state tx := by
    unfold reserveEntries amountToReserve
    rw [h.inForce.1.1, h.inForce.1.2.1, h.inForce.2.1, h.inForce.2.2.1]
  have hliq : ∀ x ∈ reserveEntries w2.state tx, x.ty = .liquidationPrice →
      x.property = A.property := by
    simp [reserveEntries]
  rw [hentries] at h1
  exact
    { left := h.left.own h1 hliq rfl (h.left.records.reserved tx m1) (fun _ _ _ _ => Or.inl)
      right := h.right.own h2 hliq rfl (h.right.records.reserved tx m2) (fun _ _ _ _ => Or.inl)
      same := ⟨same_money_posted h.same.money h1 h2, h.same.prices, h.same.serial, h.same.own⟩
      inForce := h.inForce }

/-- Both worlds place the same order. -/
theorem OwnPair.place {w1 w2 : World} {o : CMPContractDex} (h : OwnPair A T initial w1 w2)
    (ho : o.property = A.property) : OwnPair A T initial (w1.place o) (w2.place o) where
  left := h.left.own (Posted.refl _) (by simp) rfl h.left.records (by simp +contextual [World.place])
  right := h.right.own (Posted.refl _) (by simp) rfl h.right.records
    (by simp +contextual [World.place])
  same := by
    refine ⟨h.same.money, h.same.prices, ?_, h.same.own⟩
    unfold World.place
    dsimp only
    rw [ho, Function.update_self, Function.update_self, h.same.serial]
  inForce := h.inForce

/-- A trade of `A` runs in lock step. -/
theorem OwnPair.trade {fuel : Nat} {tx : CMPTransaction} {w1 w2 w1' w2' : World} {r1 r2 : Int}
    (h : OwnPair A T initial w1 w2) (hprop : tx.property.toNat = A.property) (hT : T tx.sender)
    (h1 : logicMathContractDexTrade fuel tx w1 = .ok r1 w1')
    (h2 : logicMathContractDexTrade fuel tx w2 = .ok r2 w2')
    (hok1 : Along (Event.Isolated A initial) w1'.trace)
    (hok2 : Along (Event.Isolated A initial) w2'.trace) : OwnPair A T initial w1' w2' := by
  have hbal : w1.state.getMPbalance tx.sender w1.state.collateralCurrency .balance =
      w2.state.getMPbalance tx.sender w2.state.collateralCurrency .balance := by
    rw [h.inForce.1.1, h.inForce.2.1, State.getMPbalance_eq _ _ _ (by decide),
      State.getMPbalance_eq _ _ _ (by decide), h.same.money _ hT]
  have hamount : amountToReserve w1.state tx = amountToReserve w2.state tx := by
    unfold amountToReserve
    rw [h.inForce.1.2.1, h.inForce.2.2.1]
  have hcases1 := wp_ok (contractDexTrade_ok fuel tx w1) h1
  have hcases2 := wp_ok (contractDexTrade_ok fuel tx w2) h2
  rw [hbal, hamount] at hcases1
  rcases hcases1 with ⟨hlow, rfl⟩ | ⟨hlow, m1, hm1, hcases1⟩
  · rcases hcases2 with ⟨-, rfl⟩ | ⟨hlow', -⟩
    · exact h
    · exact absurd hlow hlow'
  rcases hcases2 with ⟨hlow', -⟩ | ⟨-, m2, hm2, hcases2⟩
  · exact absurd hlow' hlow
  have hres := h.reserve hm1 hm2
  rcases hcases1 with ⟨hp, rfl⟩ | ⟨hp, r, v, hrun1, rfl⟩
  · rcases hcases2 with ⟨-, rfl⟩ | ⟨hp', -⟩
    · exact hres
    · exact absurd hp hp'
  rcases hcases2 with ⟨hp', -⟩ | ⟨-, r', u, hrun2, rfl⟩
  · exact absurd hp' hp
  have horder : tradeOrder w2 tx = tradeOrder w1 tx := by
    unfold tradeOrder
    rw [hprop, h.same.serial]
  rw [horder] at hrun2
  have hown : OwnOrder A T (tradeOrder w1 tx) := ⟨hprop, hT, toInt64_toNat_ne_zero hp⟩
  obtain ⟨rfl, hrest, hpair⟩ := xTradeLoop_lockstep fuel _ _ _ _ _ _ _ _ _ _ _ (hres.place hprop)
    hown rfl rfl hrun1 hrun2 hok1 hok2
  exact hpair.rest hrest

/-! ## Whole histories -/

/-- A transaction of a history, and whether the reduced history has it too: it has every trade of
    `A`; the traders of `A` trade nothing else, and nobody else trades `A`. -/
def Insertable (A : ContractDef) (T : Address → Prop) (keep : Bool) : ContractOp → Prop
  | .trade tx => (tx.property.toNat = A.property → keep = true) ∧
      (T tx.sender ↔ tx.property.toNat = A.property)
  | .create _ _ => True
  | .cancel _ => False

/-- The history with every transaction. -/
def fullHistory (history : List (Bool × ContractOp)) : List ContractOp := history.map Prod.snd

/-- The history without the transactions that are not kept. -/
def reducedHistory (history : List (Bool × ContractOp)) : List ContractOp :=
  (history.filter Prod.fst).map Prod.snd

/-- Two worlds between transactions that look the same to the traders of `A`. -/
structure Alike (A : ContractDef) (T : Address → Prop) (initial : Nat) (w1 w2 : World) :
    Prop where
  left : Segregated A T w1
  right : Segregated A T w2
  same : SameView A T initial w1 w2
  idle : w1.frames = [] ∧ w2.frames = []

theorem SameView.symm {w1 w2 : World} (h : SameView A T initial w1 w2) :
    SameView A T initial w2 w1 :=
  ⟨fun a ha q ty => (h.money a ha q ty).symm, h.prices.symm, h.serial.symm, h.own.symm⟩

theorem SameView.trans {w1 w2 w3 : World} (h : SameView A T initial w1 w2)
    (h' : SameView A T initial w2 w3) : SameView A T initial w1 w3 :=
  ⟨fun a ha q ty => (h.money a ha q ty).trans (h'.money a ha q ty), h.prices.trans h'.prices,
    h.serial.trans h'.serial, h.own.trans h'.own⟩

/-- A transaction only adds to the trace and ends with no frame of its own. -/
theorem ContractOp.exec_returned (fuel : Nat) (op : ContractOp) (w : World) :
    wp (op.exec fuel) (fun _ w' => Returned w w') (fun _ _ => True) w := by
  cases op with
  | trade tx =>
      exact wp_imp (logicMathContractDexTrade_rule trivial_engine fuel tx trivial
        (fun _ _ => trivial) (fun _ _ _ => ⟨fun _ => trivial, fun _ => trivial⟩)) fun _ _ h => h.2
  | cancel tx =>
      unfold ContractOp.exec
      rw [wp_onState]
      exact wp_all (fun _ _ => ⟨rfl, List.suffix_refl _⟩) (fun _ _ => trivial)
  | create blockHash tx =>
      unfold ContractOp.exec
      rw [wp_onState]
      exact wp_all (fun _ _ => ⟨rfl, List.suffix_refl _⟩) (fun _ _ => trivial)

/-- A history that returns: its first transaction returns, and so does the rest. -/
theorem runContracts_cons_ok {fuel : Nat} {op : ContractOp} {ops : List ContractOp} {w w' : World}
    (h : runContracts fuel (op :: ops) w = .ok () w') :
    ∃ r v, op.exec fuel (w.submit op) = .ok r v ∧ runContracts fuel ops v = .ok () w' := by
  have hsplit : ((do
      modify fun w => w.submit op
      let _ ← op.exec fuel : ExecW Unit) >>= fun _ => runContracts fuel ops) w = .ok () w' := h
  obtain ⟨_, v, hop, hrest⟩ := bind_ok hsplit
  obtain ⟨_, _, hsub, hop⟩ := bind_ok hop
  cases hsub
  obtain ⟨r, _, hexec, hret⟩ := bind_ok hop
  cases hret
  exact ⟨r, v, hexec, hrest⟩

/-- The trace of a history only grows. -/
theorem runContracts_suffix {fuel : Nat} {ops : List ContractOp} {w w' : World}
    (h : runContracts fuel ops w = .ok () w') : w.trace <:+ w'.trace := by
  induction ops generalizing w with
  | nil =>
      cases h
      exact List.suffix_refl _
  | cons op ops ih =>
      obtain ⟨r, v, hexec, hrest⟩ := runContracts_cons_ok h
      have hr := wp_ok (ContractOp.exec_returned fuel op _) hexec
      exact ((List.suffix_cons _ _).trans hr.2).trans (ih hrest)

/-- A creation, or a trade of another contract by others, is not seen by the traders of `A`. -/
theorem foreign_op (initial : Nat) {fuel : Nat} {op : ContractOp} {keep : Bool} {w w' : World} {r : Int}
    (h : Segregated A T w) (hf : w.frames = []) (hop : Insertable A T keep op)
    (hforeign : ∀ tx, op = .trade tx → tx.property.toNat ≠ A.property)
    (hrun : op.exec fuel (w.submit op) = .ok r w') :
    Segregated A T w' ∧ SameView A T initial w' w ∧ w'.frames = [] := by
  have hsub : Segregated A T (w.submit op) :=
    h.own (Posted.refl _) (by simp) rfl h.records (by simp +contextual [World.submit])
  have hsame : SameView A T initial (w.submit op) w := ⟨fun _ _ _ _ => rfl, rfl, rfl, rfl⟩
  cases op with
  | trade tx =>
      have hne := hforeign tx rfl
      have hT : ¬ T tx.sender := fun hc => hne (hop.2.mp hc)
      obtain ⟨hinv, hret⟩ := wp_ok (foreign_trade fuel hsub hf hne hT) hrun
      have hview : SameView A T initial w' (w.submit (.trade tx)) :=
        ⟨hinv.money, hinv.prices, hinv.serial, hinv.own initial⟩
      exact ⟨hinv.seg, hview.trans hsame, hret.1.trans hf⟩
  | cancel tx => exact absurd hop id
  | create blockHash tx =>
      have hspec : wp (ContractOp.exec fuel (.create blockHash tx))
          (fun _ v => Segregated A T v ∧ SameView A T initial v w ∧ v.frames = [])
          (fun _ _ => True) (w.submit (.create blockHash tx)) := by
        unfold ContractOp.exec
        rw [wp_onState]
        refine wp_mono (logicMathCreateContractDex_spec blockHash tx _) ?_ (fun _ _ _ => trivial)
        rintro _ s' (rfl | ⟨hash, rfl, rfl⟩)
        · exact ⟨hsub, hsame, hf⟩
        · -- a creation writes parameters only
          have hcreated : Segregated A T { w.submit (.create (some hash) tx) with
              state := createdState w.state tx hash } :=
            hsub.own (Posted.refl _) (by simp) rfl hsub.records (fun _ _ _ _ => Or.inl)
          exact ⟨hcreated, ⟨fun _ _ _ _ => rfl, rfl, rfl, rfl⟩, hf⟩
      exact (wp_ok hspec hrun :)

/-- A trade of `A` keeps the two worlds alike. -/
theorem Alike.trade {fuel : Nat} {tx : CMPTransaction} {w1 w2 w1' w2' : World} {r1 r2 : Int}
    (h : Alike A T initial w1 w2) (hprop : tx.property.toNat = A.property) (hT : T tx.sender)
    (h1 : ContractOp.exec fuel (.trade tx) (w1.submit (.trade tx)) = .ok r1 w1')
    (h2 : ContractOp.exec fuel (.trade tx) (w2.submit (.trade tx)) = .ok r2 w2')
    (hok1 : Along (Event.Isolated A initial) w1'.trace)
    (hok2 : Along (Event.Isolated A initial) w2'.trace) : Alike A T initial w1' w2' := by
  have hr1 := wp_ok (ContractOp.exec_returned fuel _ _) h1
  have hr2 := wp_ok (ContractOp.exec_returned fuel _ _) h2
  have hpair : OwnPair A T initial (w1.submit (.trade tx)) (w2.submit (.trade tx)) :=
    { left := h.left.own (Posted.refl _) (by simp) rfl h.left.records
        (by simp +contextual [World.submit])
      right := h.right.own (Posted.refl _) (by simp) rfl h.right.records
        (by simp +contextual [World.submit])
      same := ⟨h.same.money, h.same.prices, h.same.serial, h.same.own⟩
      inForce := ⟨(hok1.suffix hr1.2).1 hprop, (hok2.suffix hr2.2).1 hprop⟩ }
  have hdone := hpair.trade hprop hT h1 h2 hok1 hok2
  exact ⟨hdone.left, hdone.right, hdone.same, hr1.1.trans h.idle.1, hr2.1.trans h.idle.2⟩

/-- The two histories side by side. -/
theorem runContracts_alike (fuel : Nat) (history : List (Bool × ContractOp))
    (hops : ∀ e ∈ history, Insertable A T e.1 e.2) {w1 w2 w1' w2' : World}
    (h : Alike A T initial w1 w2)
    (h1 : runContracts fuel (fullHistory history) w1 = .ok () w1')
    (h2 : runContracts fuel (reducedHistory history) w2 = .ok () w2')
    (hok1 : Along (Event.Isolated A initial) w1'.trace)
    (hok2 : Along (Event.Isolated A initial) w2'.trace) : Alike A T initial w1' w2' := by
  induction history generalizing w1 w2 with
  | nil =>
      cases h1
      cases h2
      exact h
  | cons e rest ih =>
      obtain ⟨keep, op⟩ := e
      have hop : Insertable A T keep op := hops _ List.mem_cons_self
      have hrest := fun e he => hops e (List.mem_cons_of_mem _ he)
      obtain ⟨r1, v1, hx1, hrun1⟩ := runContracts_cons_ok h1
      by_cases hown : ∃ tx, op = .trade tx ∧ tx.property.toNat = A.property
      · -- a trade of `A`: in both histories
        obtain ⟨tx, rfl, hprop⟩ := hown
        obtain rfl : keep = true := hop.1 hprop
        obtain ⟨r2, v2, hx2, hrun2⟩ := runContracts_cons_ok h2
        exact ih hrest (h.trade hprop (hop.2.mpr hprop) hx1 hx2
          (hok1.suffix (runContracts_suffix hrun1)) (hok2.suffix (runContracts_suffix hrun2))) hrun1 hrun2
      · have hforeign : ∀ tx, op = .trade tx → tx.property.toNat ≠ A.property :=
          fun tx htx hprop => hown ⟨tx, htx, hprop⟩
        obtain ⟨hs1, hv1, hf1⟩ := foreign_op initial h.left h.idle.1 hop hforeign hx1
        cases keep with
        | false =>
            exact ih hrest ⟨hs1, h.right, hv1.trans h.same, hf1, h.idle.2⟩ hrun1 h2
        | true =>
            obtain ⟨r2, v2, hx2, hrun2⟩ := runContracts_cons_ok h2
            obtain ⟨hs2, hv2, hf2⟩ :=
              foreign_op initial h.right h.idle.2 hop hforeign hx2
            exact ih hrest ⟨hs1, hs2, (hv1.trans h.same).trans hv2.symm, hf1, hf2⟩ hrun1 hrun2

/-- **CONTRACTS ARE ISOLATED** in histories whose steps all meet `Event.Isolated`: whatever
    creations and trades of other contracts by other addresses are left out, the traders of `A` end
    with the same tallies, of every property and type, and `A` with the same order book. -/
theorem contracts_isolated (A : ContractDef) (T : Address → Prop) (s : State)
    (hs : Segregated A T (World.start s)) (fuel : Nat) (history : List (Bool × ContractOp))
    (hops : ∀ e ∈ history, Insertable A T e.1 e.2) (w1 w2 : World)
    (h1 : runContracts fuel (fullHistory history) (World.start s) = .ok () w1)
    (h2 : runContracts fuel (reducedHistory history) (World.start s) = .ok () w2)
    (hok1 : Along (Event.Isolated A s.marketPrice) w1.trace)
    (hok2 : Along (Event.Isolated A s.marketPrice) w2.trace) :
    (∀ a, T a → ∀ q ty, w1.state.tallyMap.money a q ty = w2.state.tallyMap.money a q ty) ∧
      w1.state.contractPrices A.property = w2.state.contractPrices A.property := by
  have hstart : Alike A T s.marketPrice (World.start s) (World.start s) :=
    ⟨hs, hs, ⟨fun _ _ _ _ => rfl, rfl, rfl, rfl⟩, rfl, rfl⟩
  have hend := runContracts_alike fuel history hops hstart h1 h2 hok1 hok2
  exact ⟨hend.same.money, hend.same.prices⟩

end Isolation

/-! ## Two contracts in a small market -/

/-- Three traders hold 100 of property 1 each. -/
def threeTraders : State :=
  (State.fresh openParams).withTally (TallyMap.update fundedLedger traderC 1 100 .balance).2

/-- An order for another contract, property 4. -/
def otherOrder (sender : Address) (txid block : Nat) (action : UInt8) (amount price : UInt64) :
    CMPTransaction :=
  { orderTx sender txid block action amount price with property := 4 }

/-- `A` and `B` trade contract 3; contract 4 with the same parameters is created before they do,
    and `C` bids for it. -/
def twoContracts : List (Bool × ContractOp) :=
  [(true, .create (some 0) (createTx 0 1)), (false, .create (some 0) (createTx 0 1)),
    (false, .trade (otherOrder traderC 4 11 1 1 50)), (true, .trade (orderTx traderA 2 11 1 1 100)),
    (true, .trade (orderTx traderB 3 12 2 1 80))]

theorem threeTraders_segregated (A : ContractDef) (T : Address → Prop) :
    Segregated A T (World.start threeTraders) where
  records := noBasisRecord_empty
  book := bookWf_empty rfl
  traders := fun o ho => absurd ho (not_resting_empty rfl o)
  prices := fun o ho => absurd ho (not_resting_empty rfl o)
  liq := by
    intro a _ q _
    have hposted := fundedLedger_posted.trans
      (credited_update (show (TallyMap.update fundedLedger traderC 1 100 .balance).1 = true by
        decide +kernel)).posted
    show (TallyMap.update fundedLedger traderC 1 100 .balance).2.money a q _ = 0
    rw [hposted.money]
    simp [Entry.toMoney, TallyMap.money, TallyMap.tallyOf]
  called := fun _ _ _ _ hmem => by cases hmem

set_option maxRecDepth 4000 in
theorem contracts_isolated_twoContracts :
    (∀ a, (a = traderA ∨ a = traderB) → ∀ q ty,
      (after (runContracts 3 (fullHistory twoContracts))
        (World.start threeTraders)).state.tallyMap.money a q ty =
      (after (runContracts 3 (reducedHistory twoContracts))
        (World.start threeTraders)).state.tallyMap.money a q ty) ∧
    (after (runContracts 3 (fullHistory twoContracts))
        (World.start threeTraders)).state.contractPrices 3 =
      (after (runContracts 3 (reducedHistory twoContracts))
        (World.start threeTraders)).state.contractPrices 3 :=
  contracts_isolated ⟨3, 1, 1, 0⟩ (fun a => a = traderA ∨ a = traderB) threeTraders
    (threeTraders_segregated _ _) 3 twoContracts
    (by simp [twoContracts, Insertable, orderTx, otherOrder, traderA, traderB, traderC]) _ _
    (eq_ok_after (by decide +kernel)) (eq_ok_after (by decide +kernel)) (by decide +kernel)
    (by decide +kernel)

/-- `A` bids for a contract of margin requirement 1, after another one of requirement 5 was
    created. -/
def laterCreation : List (Bool × ContractOp) :=
  [(true, .create (some 0) (createTx 0 1)), (false, .create (some 0) (createTx 0 5)),
    (true, .trade (orderTx traderA 2 11 1 1 100))]

set_option maxRecDepth 4000 in
/-- **A CREATION CHANGES THE MARGIN OF OTHERS**: the order of `A` for contract 3 reserves the margin
    of contract 4. -/
theorem laterCreation_changes_margin :
    (∀ e ∈ laterCreation, Insertable ⟨3, 1, 1, 0⟩ (· = traderA) e.1 e.2) ∧
    (returned (runContracts 3 (fullHistory laterCreation)) (World.start fundedState)).map
      (fun w => w.state.tallyMap.money traderA 1 .contractDExReserve) = some 5 ∧
    (returned (runContracts 3 (reducedHistory laterCreation)) (World.start fundedState)).map
      (fun w => w.state.tallyMap.money traderA 1 .contractDExReserve) = some 1 :=
  ⟨by simp [laterCreation, Insertable, orderTx], by decide +kernel, by decide +kernel⟩

end OmniCore
