import OmniCore.MetaDExRecords

/-! # MetaDExHistory — orders, what is left of them, and their matches

    A ghost history goes along with a node: every order as it was placed, with what is left of
    it or was when it was taken out of the book, and every match with its fee. Between two
    operations the book has what the history says is left, what was sold and what is left of an
    order add up, and the trade database has the record of every match. -/

namespace OmniCore

open Std (ExtTreeMap)
open Machine TextRec MapSum Exec

/-! ## Histories -/

/-- An order as it was placed, and what is left of it, or was when it was taken out of the book. -/
structure MdPlacement where
  order : CMPMetaDEx
  left : Int
  deriving DecidableEq

/-- A node with the orders that were placed and the matches that were made. -/
structure MdHistory where
  state : State
  orders : List MdPlacement
  matched : List MdMatch

/-- The order that rests where an order would, by its own fields. -/
def State.restingOf (s : State) (o : CMPMetaDEx) : Option CMPMetaDEx :=
  (s.mdLevel o.property o.unitPrice)[o.key]?

/-- What is left of it. -/
def State.leftOf (s : State) (o : CMPMetaDEx) : Int := s.remainingAt o.property o.unitPrice o.key

/-- An order as a transaction places it. -/
structure PlacedOk (o : CMPMetaDEx) : Prop where
  sound : o.Sound
  whole : o.amountRemaining = o.amountForsale
  apart : o.property ≠ o.desiredProperty
  txid_lt : o.txid < 2 ^ 256
  property_lt : o.property < 2 ^ 32
  desiredProperty_lt : o.desiredProperty < 2 ^ 32

/-- The history and the node agree. -/
structure HistoryOk (w : MdHistory) : Prop where
  book : MdBookOk w.state
  orders : ∀ e ∈ w.orders, PlacedOk e.order
  txids : (w.orders.map fun e => e.order.txid).Nodup
  keys : (w.orders.map fun e => e.order.key).Nodup
  rests : ∀ (p : PropertyId) (price : ℚ) (k : OrderKey) o, (w.state.mdLevel p price)[k]? = some o →
    ∃ e ∈ w.orders, e.order.SameOrder o
  left_eq : ∀ e ∈ w.orders, ∀ o, w.state.restingOf e.order = some o → o.amountRemaining = e.left
  left_nonneg : ∀ e ∈ w.orders, 0 ≤ e.left
  sold : ∀ e ∈ w.orders, e.left + totalPaid e.order (fillsOfMatches w.matched) =
    e.order.amountForsale
  matched : ∀ m ∈ w.matched, m.Ok ∧ (∃ e ∈ w.orders, e.order.SameOrder m.maker) ∧
    ∃ e ∈ w.orders, e.order.SameOrder m.taker
  records : (tradeRecords w.state.tradeList).Perm (w.matched.map MdMatch.record)
  valid : ∀ e ∈ w.orders, getValidMPTX w.state e.order.txid = true

/-- A new order differs from all others in its hash and its place in the block. -/
def FreshOrder (w : MdHistory) (new : CMPMetaDEx) : Prop :=
  ∀ e ∈ w.orders, e.order.txid ≠ new.txid ∧ e.order.key ≠ new.key

namespace HistoryOk

variable {w : MdHistory} (h : HistoryOk w)
include h

theorem eq_of_key {e e' : MdPlacement} (he : e ∈ w.orders) (he' : e' ∈ w.orders)
    (hk : e.order.key = e'.order.key) : e = e' :=
  List.inj_on_of_nodup_map h.keys he he' hk

theorem eq_of_txid {e e' : MdPlacement} (he : e ∈ w.orders) (he' : e' ∈ w.orders)
    (ht : e.order.txid = e'.order.txid) : e = e' :=
  List.inj_on_of_nodup_map h.txids he he' ht

/-- An order with a hash of the history is the order of that hash. -/
theorem sameOrder_of_txid {e : MdPlacement} (he : e ∈ w.orders) {o : CMPMetaDEx}
    (ho : ∃ e' ∈ w.orders, e'.order.SameOrder o) (ht : e.order.txid = o.txid) :
    e.order.SameOrder o := by
  obtain ⟨e', he', hsame⟩ := ho
  rw [h.eq_of_txid he he' (ht.trans hsame.txid.symm)]
  exact hsame

/-- What rests at the place of an order is that order. -/
theorem sameOrder_of_key {e : MdPlacement} (he : e ∈ w.orders) {p : PropertyId} {price : ℚ}
    {k : OrderKey} {o : CMPMetaDEx} (ho : (w.state.mdLevel p price)[k]? = some o)
    (hk : e.order.key = k) : e.order.SameOrder o := by
  obtain ⟨e', he', hsame⟩ := h.rests p price k o ho
  have hkey := (h.book p price k o ho).key
  rw [h.eq_of_key he he' (by rw [hk, hsame.key, hkey])]
  exact hsame

/-- Only the book, the records of matches and those of the orders matter. -/
theorem congr {s' : State} (hbook : s'.metadex = w.state.metadex)
    (hrecords : (tradeRecords s'.tradeList).Perm (tradeRecords w.state.tradeList))
    (hvalid : ∀ e ∈ w.orders, getValidMPTX s' e.order.txid = getValidMPTX w.state e.order.txid) :
    HistoryOk { w with state := s' } where
  book := h.book.congr hbook
  orders := h.orders
  txids := h.txids
  keys := h.keys
  rests := by
    intro p price k o ho
    rw [mdLevel_congr hbook] at ho
    exact h.rests p price k o ho
  left_eq := by
    intro e he o ho
    unfold State.restingOf at ho
    rw [mdLevel_congr hbook] at ho
    exact h.left_eq e he o ho
  left_nonneg := h.left_nonneg
  sold := h.sold
  matched := h.matched
  records := hrecords.trans h.records
  valid := fun e he => (hvalid e he).trans (h.valid e he)

end HistoryOk

/-! ## What the fills of an order add up to -/

theorem totalPaid_append (o : CMPMetaDEx) (fs gs : List MdFill) :
    totalPaid o (fs ++ gs) = totalPaid o fs + totalPaid o gs := by
  unfold totalPaid
  rw [List.map_append, List.sum_append]

theorem totalPaid_singleton (o : CMPMetaDEx) (f : MdFill) : totalPaid o [f] = f.paidBy o := by
  unfold totalPaid
  rw [List.map_singleton, List.sum_singleton]

theorem paidBy_nonneg {m : MdMatch} (hm : m.Ok) (o : CMPMetaDEx) : 0 ≤ m.toMdFill.paidBy o := by
  have hgot := hm.got_pos
  have hpaid := hm.paid_pos
  unfold MdFill.paidBy
  split <;> split <;> omega

theorem totalPaid_nonneg {ms : List MdMatch} (hms : ∀ m ∈ ms, m.Ok) (o : CMPMetaDEx) :
    0 ≤ totalPaid o (fillsOfMatches ms) := by
  refine List.sum_nonneg fun n hn => ?_
  obtain ⟨f, hf, rfl⟩ := List.mem_map.mp hn
  obtain ⟨m, hm, rfl⟩ := List.mem_map.mp hf
  exact paidBy_nonneg (hms m hm) o

theorem matchesOf_append (vs us : List MdVisit) :
    matchesOf (vs ++ us) = matchesOf vs ++ matchesOf us := List.filterMap_append

theorem fillsOfMatches_append (ms ns : List MdMatch) :
    fillsOfMatches (ms ++ ns) = fillsOfMatches ms ++ fillsOfMatches ns := List.map_append

/-! ## The loop of `x_Trade` for a new order -/

/-- The loop, begun in the state of a history: what was taken from an order is what its fills say, and
    every match has its record. -/
structure TradeRun (w : MdHistory) (new : CMPMetaDEx) (done : ℚ → OrderKey → Prop)
    (vs : List MdVisit) (t : MdTrade) (s : State) : Prop where
  loop : LoopOk new t s
  untouched : ∀ (price : ℚ) (k : OrderKey), ¬ done price k →
    (s.mdLevel new.desiredProperty price)[k]? = (w.state.mdLevel new.desiredProperty price)[k]?
  rests : ∀ (p : PropertyId) (price : ℚ) (k : OrderKey) o, (s.mdLevel p price)[k]? = some o →
    ∃ o0, (w.state.mdLevel p price)[k]? = some o0 ∧ o0.SameOrder o
  sold : ∀ e ∈ w.orders, s.leftOf e.order + totalPaid e.order (fillsOfMatches (matchesOf vs)) =
    w.state.leftOf e.order
  paid : t.pnew.amountRemaining + totalPaid new (fillsOfMatches (matchesOf vs)) =
    new.amountRemaining
  matched : ∀ m ∈ matchesOf vs, m.Ok ∧ new.SameOrder m.taker ∧
    (∃ e ∈ w.orders, e.order.SameOrder m.maker) ∧ done m.maker.unitPrice m.maker.key
  records : (tradeRecords s.tradeList).Perm
    (tradeRecords w.state.tradeList ++ (matchesOf vs).map MdMatch.record)
  txList : s.txList = w.state.txList

/-- What is left at every place after a trade. -/
theorem TradedAt.leftOf {price : ℚ} {k : OrderKey} {t t' : MdTrade} {s s' : State}
    {pold : CMPMetaDEx} {got paid : Int} (h : TradedAt price k t s pold got paid t' s')
    (hkey : pold.key = k) (o : CMPMetaDEx) :
    s'.leftOf o =
      if t.pnew.desiredProperty = o.property ∧ price = o.unitPrice ∧ k = o.key then
        pold.amountRemaining - got
      else s.leftOf o := by
  unfold State.leftOf
  split
  · next hplace =>
      obtain ⟨hproperty, hprice, hk⟩ := hplace
      rw [← hproperty, ← hprice, ← hk]
      exact h.remainingAt hkey
  · next hplace =>
      unfold State.remainingAt
      rw [h.getElem?_mdLevel hkey, if_neg hplace]

section Trade

variable {w : MdHistory} (hw : HistoryOk w) {new : CMPMetaDEx} (hnew : PlacedOk new)
  (hfresh : FreshOrder w new)
include hw hnew hfresh

omit hfresh in
/-- The maker of a match is an order of the history, the taker the new one. -/
theorem TradeRun.sides {done : ℚ → OrderKey → Prop} {vs : List MdVisit} {t t' : MdTrade}
    {s s' : State} (h : TradeRun w new done vs t s) {price : ℚ} {k : OrderKey} {m : MdMatch}
    (hm : MatchedAt price k t s m t' s') :
    m.Ok ∧ new.SameOrder m.taker ∧ (∃ e ∈ w.orders, e.order.SameOrder m.maker) ∧
      m.maker.property = new.desiredProperty ∧ m.maker.unitPrice = price ∧ m.maker.key = k := by
  have ht := h.loop.trade
  have hplace := h.loop.book _ _ _ _ hm.traded.resting
  have hfill := hm.traded.fill
  have htaker : new.SameOrder m.taker := hm.taker ▸ ht.sameOrder
  obtain ⟨o0, ho0, hsame0⟩ := h.rests _ _ _ _ hm.traded.resting
  obtain ⟨e, he, hsame⟩ := hw.rests _ _ _ _ ho0
  have hproperty : m.maker.property = new.desiredProperty := hplace.property.trans ht.desiredProperty
  have hfee := tradingFee_bounds s (f := m.toMdFill) hfill.got_pos
  rw [← hm.fee] at hfee
  have hgot : m.got ≤ maxInt64 :=
    hfill.got_le.trans (hplace.sound.remaining_le.trans hplace.sound.forsale_le)
  have hpaid : m.paid ≤ maxInt64 := hfill.paid_le.trans (ht.remaining_le.trans
    (hnew.sound.remaining_le.trans hnew.sound.forsale_le))
  refine ⟨⟨?_, ?_, ?_, hfill.got_pos, hgot, hfill.paid_pos, hpaid, hfee.1, hfee.2⟩, htaker,
    ⟨e, he, hsame.trans hsame0⟩, hproperty, hplace.price, hplace.key⟩
  · rw [hm.wants, hm.taker]
  · rw [hproperty, htaker.desiredProperty]
  · rw [← htaker.property, ← htaker.desiredProperty]
    exact hnew.apart

/-- No record is overwritten: a place is matched once, and with a hash that is new. -/
theorem TradeRun.recordFresh {done : ℚ → OrderKey → Prop} {vs : List MdVisit} {t t' : MdTrade}
    {s s' : State} (h : TradeRun w new done vs t s) {price : ℚ} {k : OrderKey}
    (hplace : ¬ done price k) {m : MdMatch} (hm : MatchedAt price k t s m t' s') (old : Text) :
    (m.key, old) ∉ tradeRecords s.tradeList := by
  obtain ⟨-, htaker, ⟨e, he, hsame⟩, -, hprice, hkey⟩ := h.sides hw hnew hm
  have hlt : ∀ {e : MdPlacement} {o : CMPMetaDEx}, e ∈ w.orders → e.order.SameOrder o →
      o.txid < 2 ^ 256 := fun he hsame => hsame.txid ▸ (hw.orders _ he).txid_lt
  have htaker_lt : m.taker.txid < 2 ^ 256 := htaker.txid ▸ hnew.txid_lt
  intro hold
  rw [h.records.mem_iff, List.mem_append, hw.records.mem_iff] at hold
  rcases hold with hold | hold
  · -- the taker of an earlier match has another hash
    obtain ⟨m', hm', heq⟩ := List.mem_map.mp hold
    obtain ⟨-, ⟨e1, he1, hsame1⟩, e2, he2, hsame2⟩ := hw.matched m' hm'
    have hkeys := MdMatch.key_inj (hlt he1 hsame1) (hlt he2 hsame2) (hlt he hsame) htaker_lt
      (Prod.mk.inj heq).1
    exact (hfresh e2 he2).1 (by rw [hsame2.txid, hkeys.2, htaker.txid])
  · -- the maker of a match of this order was at a place that is done
    obtain ⟨m', hm', heq⟩ := List.mem_map.mp hold
    obtain ⟨-, htaker', ⟨e', he', hsame'⟩, hdone⟩ := h.matched m' hm'
    have htaker_lt' : m'.taker.txid < 2 ^ 256 := htaker'.txid ▸ hnew.txid_lt
    have hkeys := MdMatch.key_inj (hlt he' hsame') htaker_lt' (hlt he hsame) htaker_lt
      (Prod.mk.inj heq).1
    have heq' := hw.eq_of_txid he' he (by rw [hsame'.txid, hkeys.1, hsame.txid])
    subst heq'
    rw [← hsame'.unitPrice, ← hsame'.key, hsame.unitPrice, hsame.key, hprice, hkey] at hdone
    exact hplace hdone

/-- **ONE MATCH**: the loop keeps its invariant. -/
theorem TradeRun.step {done : ℚ → OrderKey → Prop} {vs : List MdVisit} {t t' : MdTrade}
    {s s' : State} (h : TradeRun w new done vs t s) {price : ℚ} {k : OrderKey}
    (hplace : ¬ done price k) {m : MdMatch} (hm : MatchedAt price k t s m t' s')
    (hrun : visitOffer price t k s = .ok t' s') :
    TradeRun w new (fun price' k' => done price' k' ∨ price' = price ∧ k' = k)
      (vs ++ [⟨price, k, t, s⟩]) t' s' := by
  obtain ⟨hok, htaker, hmaker, hproperty, hprice, hkey⟩ := h.sides hw hnew hm
  have ht := h.loop.trade
  have htr := hm.traded
  have hmatch : MdVisit.match? ⟨price, k, t, s⟩ = some m := MdVisit.match?_of_matched hm hkey hrun
  have hmatches : matchesOf (vs ++ [⟨price, k, t, s⟩]) = matchesOf vs ++ [m] := by
    rw [matchesOf_append]
    unfold matchesOf
    rw [List.filterMap_cons_some hmatch, List.filterMap_nil]
  have htotal : ∀ o, totalPaid o (fillsOfMatches (matchesOf (vs ++ [⟨price, k, t, s⟩]))) =
      totalPaid o (fillsOfMatches (matchesOf vs)) + m.toMdFill.paidBy o := by
    intro o
    rw [hmatches, fillsOfMatches_append, totalPaid_append]
    congr 1
    exact totalPaid_singleton o m.toMdFill
  obtain ⟨e0, he0, hsame0⟩ := hmaker
  refine ⟨⟨ht.traded htr, htr.bookOk h.loop.book⟩, ?_, ?_, ?_, ?_, ?_, ?_, ?_⟩
  · -- untouched
    intro price' k' hnot
    rw [htr.getElem?_mdLevel hkey, if_neg fun hc => hnot (Or.inr ⟨hc.2.1.symm, hc.2.2.symm⟩)]
    exact h.untouched price' k' fun hd => hnot (Or.inl hd)
  · -- rests
    intro p price' k' o ho
    rw [htr.getElem?_mdLevel hkey] at ho
    split at ho
    · next hat =>
        obtain ⟨rfl, rfl, rfl⟩ := hat
        obtain ⟨o0, ho0, hsame⟩ := h.rests _ _ _ _ htr.resting
        split at ho
        · cases ho
          exact ⟨o0, ho0, hsame.trans rfl⟩
        · cases ho
    · exact h.rests p price' k' o ho
  · -- what is left of the orders of the history
    intro e he
    have hold := h.sold e he
    have hnotTaker : ¬ e.order.SameOrder m.taker :=
      fun hsame => (hfresh e he).1 (hsame.txid.trans htaker.txid.symm)
    rw [htotal, htr.leftOf hkey, MdFill.paidBy, if_neg hnotTaker]
    by_cases hsame : e.order.SameOrder m.maker
    · have hat : t.pnew.desiredProperty = e.order.property ∧ price = e.order.unitPrice ∧
          k = e.order.key :=
        ⟨by rw [ht.desiredProperty, hsame.property, hproperty], by rw [hsame.unitPrice, hprice],
          by rw [hsame.key, hkey]⟩
      have hleft : s.leftOf e.order = m.maker.amountRemaining := by
        unfold State.leftOf State.remainingAt
        rw [← hat.1, ← hat.2.1, ← hat.2.2, htr.resting]
        rfl
      rw [if_pos hat, if_pos hsame]
      omega
    · have hnot : ¬ (t.pnew.desiredProperty = e.order.property ∧ price = e.order.unitPrice ∧
          k = e.order.key) := by
        rintro ⟨-, -, hk⟩
        refine hsame ?_
        rw [hw.eq_of_key he he0 (by rw [← hk, ← hkey, hsame0.key])]
        exact hsame0
      rw [if_neg hnot, if_neg hsame]
      omega
  · -- what is left of the new order
    have hold := h.paid
    have hnotMaker : ¬ new.SameOrder m.maker :=
      fun hsame => (hfresh e0 he0).1 (hsame0.txid.trans hsame.txid.symm)
    have hrem : t'.pnew.amountRemaining = t.pnew.amountRemaining - m.paid := by rw [htr.pnew]
    rw [htotal, MdFill.paidBy, if_pos htaker, if_neg hnotMaker]
    omega
  · -- the matches
    intro m' hm'
    rw [hmatches, List.mem_append, List.mem_singleton] at hm'
    rcases hm' with hm' | rfl
    · obtain ⟨h1, h2, h3, h4⟩ := h.matched m' hm'
      exact ⟨h1, h2, h3, Or.inl h4⟩
    · exact ⟨hok, htaker, ⟨e0, he0, hsame0⟩, Or.inr ⟨hprice, hkey⟩⟩
  · -- the records
    have hinsert := tradeRecords_insert m.record.2
      (h.recordFresh hw hnew hfresh hplace hm)
    rw [hm.tradeList, hmatches, List.map_append, ← List.append_assoc]
    have hone : (if isTradeRecord (m.key, m.record.2) = true then [(m.key, m.record.2)] else []) =
        [m.record] := if_pos m.isTradeRecord_record
    rw [hone] at hinsert
    refine hinsert.trans ?_
    exact List.perm_append_comm.trans (h.records.append_right _)
  · rw [hm.txList, h.txList]

/-- The loop keeps the account of every order. -/
theorem tradeRun_loopRule : LoopRule new w.state (TradeRun w new) where
  trade := fun h => h.loop.trade
  untouched := fun h => h.untouched
  offer := by
    intro done vs t s h price k hprice hplace _
    refine wp_mono (wp_and (visitOffer_recorded hnew.sound hnew.apart h.loop hprice k)
      (wp_self (visitOffer price t k) s)) (fun t' s' hout => ?_) fun _ _ _ => trivial
    obtain ⟨⟨rfl, rfl⟩ | ⟨m, hm⟩, hrun⟩ := hout
    · have hnone : MdVisit.match? ⟨price, k, t', s'⟩ = none := MdVisit.match?_of_pass hrun
      have hmatches : matchesOf (vs ++ [⟨price, k, t', s'⟩]) = matchesOf vs := by
        rw [matchesOf_append]
        unfold matchesOf
        rw [List.filterMap_cons_none hnone, List.filterMap_nil, List.append_nil]
      refine ⟨h.loop, fun price' k' hnot => h.untouched price' k' fun hd => hnot (Or.inl hd),
        h.rests, ?_, ?_, ?_, ?_, h.txList⟩
      · rw [hmatches]
        exact h.sold
      · rw [hmatches]
        exact h.paid
      · rw [hmatches]
        intro m hm
        obtain ⟨h1, h2, h3, h4⟩ := h.matched m hm
        exact ⟨h1, h2, h3, Or.inl h4⟩
      · rw [hmatches]
        exact h.records
    · exact h.step hw hnew hfresh hplace hm hrun
  widen := by
    intro done done' vs t s h hsub _
    refine ⟨h.loop, fun price k hnot => h.untouched price k fun hd => hnot (hsub price k hd),
      h.rests, h.sold, h.paid, fun m hm => ?_, h.records, h.txList⟩
    obtain ⟨h1, h2, h3, h4⟩ := h.matched m hm
    exact ⟨h1, h2, h3, hsub _ _ h4⟩

/-- **THE WHOLE LOOP**: every order of the history and the new one are accounted for. -/
theorem xTradeMetaDEx_accounts : wp (xTradeMetaDEx new)
    (TradeRun w new (fun _ _ => True) (xTradeVisits new w.state)) (fun _ _ => True) w.state := by
  refine (tradeRun_loopRule hw hnew hfresh).xTrade ⟨⟨TradeOk.start hnew.sound, hw.book⟩,
    fun _ _ _ => rfl, fun p price k o ho => ⟨o, ho, .refl o⟩, ?_, ?_, ?_, ?_, rfl⟩
  · intro e _
    exact add_zero _
  · exact add_zero _
  · intro m hm
    cases hm
  · show (tradeRecords w.state.tradeList).Perm (tradeRecords w.state.tradeList ++ [])
    rw [List.append_nil]

end Trade

end OmniCore
