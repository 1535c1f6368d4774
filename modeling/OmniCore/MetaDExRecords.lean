import OmniCore.MetaDExLoop
import OmniCore.MetaDExReport

/-! # MetaDExRecords — what `x_Trade` writes into the trade database

    Every trade leaves one record, under the hashes of the two orders. With orders that
    differ in their hashes, no record is overwritten, so the database has one record for
    each fill. A record holds what the taker got after the fee, and the fee. -/

namespace OmniCore

open Std (ExtTreeMap)
open Machine TextRec MapSum Exec

/-! ## The same order, whatever is left of it -/

namespace CMPMetaDEx.SameOrder

variable {a b c : CMPMetaDEx}

theorem refl (a : CMPMetaDEx) : a.SameOrder a := rfl

theorem txid (h : a.SameOrder b) : a.txid = b.txid := by
  rw [← h]

theorem property (h : a.SameOrder b) : a.property = b.property := by
  rw [← h]

theorem desiredProperty (h : a.SameOrder b) : a.desiredProperty = b.desiredProperty := by
  rw [← h]

theorem key (h : a.SameOrder b) : a.key = b.key := by
  rw [← h]
  rfl

theorem unitPrice (h : a.SameOrder b) : a.unitPrice = b.unitPrice := by
  rw [← h]
  rfl

theorem symm (h : a.SameOrder b) : b.SameOrder a := by
  unfold SameOrder at h ⊢
  rw [← h]

theorem trans (h : a.SameOrder b) (h' : b.SameOrder c) : a.SameOrder c := by
  unfold SameOrder at h h' ⊢
  rw [← h', ← h]

end CMPMetaDEx.SameOrder

theorem TradeOk.sameOrder {new : CMPMetaDEx} {t : MdTrade} (h : TradeOk new t) :
    new.SameOrder t.pnew := h.shape.symm

/-! ## Matches and their records -/

/-- The fee that `x_Trade` takes of a fill: 0.05% of what the taker gets, between two properties other
    than OMNI and TOMNI, once the feature is active at the block of the taker. -/
def State.tradingFee (s : State) (f : MdFill) : Int :=
  if s.params.isFeatureActivated .fees f.taker.block ∧ omniPropertyTMSC < f.maker.property ∧
      omniPropertyTMSC < f.maker.desiredProperty then
    f.got.tdiv 2000
  else 0

/-- A fill with its fee. -/
structure MdMatch extends MdFill where
  fee : Int

/-- The match of a visit, if it trades. -/
def MdVisit.match? (v : MdVisit) : Option MdMatch :=
  match v.fill? with
  | none => none
  | some f => if f.got = 0 then none else some ⟨f, v.state.tradingFee f⟩

def matchesOf (vs : List MdVisit) : List MdMatch := vs.filterMap MdVisit.match?

/-- The fills of some matches. -/
def fillsOfMatches (ms : List MdMatch) : List MdFill := ms.map MdMatch.toMdFill

/-- The key of a record. -/
def MdMatch.key (m : MdMatch) : Text := txidText m.maker.txid ++ '+' :: txidText m.taker.txid

/-- The fields of a record. -/
def MdMatch.fields (m : MdMatch) : List Text :=
  [m.maker.addr.text, m.taker.addr.text, decNat m.maker.desiredProperty,
    decNat m.taker.desiredProperty, decInt (toUInt64 m.paid), decInt (toUInt64 (m.got - m.fee)),
    decNat m.taker.block, decInt m.fee]

def MdMatch.record (m : MdMatch) : Text × Text := (m.key, joinWith ':' m.fields)

/-- What holds of every match: both sides trade the same two properties, both amounts are positive,
    and the fee is a part of what the taker gets. -/
structure MdMatch.Ok (m : MdMatch) : Prop where
  wants : m.maker.desiredProperty = m.taker.property
  sells : m.maker.property = m.taker.desiredProperty
  apart : m.taker.property ≠ m.taker.desiredProperty
  got_pos : 0 < m.got
  got_le : m.got ≤ maxInt64
  paid_pos : 0 < m.paid
  paid_le : m.paid ≤ maxInt64
  fee_nonneg : 0 ≤ m.fee
  fee_le : m.fee ≤ m.got

theorem tradingFee_bounds (s : State) {f : MdFill} (h : 0 < f.got) :
    0 ≤ s.tradingFee f ∧ s.tradingFee f ≤ f.got := by
  unfold State.tradingFee
  split
  · rw [Int.tdiv_eq_ediv_of_nonneg h.le]
    omega
  · omega

theorem length_txidText (t : Txid) : (txidText t).length = 64 := length_hexNat 64 t

theorem plus_notMem_txidText (t : Txid) : '+' ∉ txidText t := by
  intro hmem
  have hfree : Free (fun c => c == '+') (txidText t) := free_hexNat (by decide) 64 t
  exact absurd (hfree '+' hmem) (by decide)

/-- A hash is found in a key if it is one of the two. -/
theorem findText_key {t : Txid} (ht : t < 2 ^ 256) {m : MdMatch} (hmaker : m.maker.txid < 2 ^ 256)
    (htaker : m.taker.txid < 2 ^ 256) :
    (findText (txidText t) m.key).isSome = true ↔ t = m.maker.txid ∨ t = m.taker.txid := by
  rw [findText_isSome, MdMatch.key, infix_joined (plus_notMem_txidText t)
    (by rw [length_txidText, length_txidText]) (by rw [length_txidText, length_txidText])]
  constructor
  · rintro (h | h)
    · exact Or.inl (txidText_inj ht hmaker h)
    · exact Or.inr (txidText_inj ht htaker h)
  · rintro (rfl | rfl)
    · exact Or.inl rfl
    · exact Or.inr rfl

/-- Two matches with the same key are of the same two transactions. -/
theorem MdMatch.key_inj {m m' : MdMatch} (hmaker : m.maker.txid < 2 ^ 256)
    (htaker : m.taker.txid < 2 ^ 256) (hmaker' : m'.maker.txid < 2 ^ 256)
    (htaker' : m'.taker.txid < 2 ^ 256) (h : m.key = m'.key) :
    m.maker.txid = m'.maker.txid ∧ m.taker.txid = m'.taker.txid := by
  have hlen : (txidText m.maker.txid).length = (txidText m'.maker.txid).length := by
    rw [length_txidText, length_txidText]
  obtain ⟨h1, h2⟩ := List.append_inj h hlen
  exact ⟨txidText_inj hmaker hmaker' h1, txidText_inj htaker htaker' (List.cons_inj_right _ |>.mp h2)⟩

theorem MdMatch.split_record (m : MdMatch) : split isColon m.record.2 = m.fields := by
  refine OmniCore.split_record (by simp [MdMatch.fields]) fun t ht => ?_
  simp only [MdMatch.fields, List.mem_cons, List.not_mem_nil, or_false] at ht
  rcases ht with rfl | rfl | rfl | rfl | rfl | rfl | rfl | rfl
  · exact isField_address _
  · exact isField_address _
  · exact isField_decNat _
  · exact isField_decNat _
  · exact isField_decInt _
  · exact isField_decInt _
  · exact isField_decNat _
  · exact isField_decInt _

theorem MdMatch.isTradeRecord_record (m : MdMatch) : isTradeRecord m.record = true := by
  unfold isTradeRecord
  rw [m.split_record]
  show ((txidText m.maker.txid ++ '+' :: txidText m.taker.txid).length == 129 && _) = true
  rw [List.length_append, List.length_cons, length_txidText, length_txidText]
  rfl

/-- The record of a match is read back. -/
theorem MdMatch.decode_record {m : MdMatch} (h : m.Ok) (hproperty : m.taker.property < 2 ^ 32)
    (hdesired : m.taker.desiredProperty < 2 ^ 32) :
    decodeTradeRow (split isColon m.record.2) = some ⟨m.maker.addr.text, m.taker.addr.text,
      m.taker.property, m.taker.desiredProperty, m.paid, m.got - m.fee, m.taker.block, m.fee⟩ := by
  have hmax : maxInt64 = 2 ^ (64 - 1) - 1 := rfl
  have hgot := h.got_le
  have hpaid := h.paid_le
  have hpaid0 := h.paid_pos
  have hfee := h.fee_nonneg
  have hfee' := h.fee_le
  rw [hmax] at hgot hpaid
  have hcast : ∀ n : Int, 0 ≤ n → n < 2 ^ (64 - 1) → castInt 64 (decInt n) = some n :=
    fun n h0 h1 => castInt_decInt (by omega) h1
  rw [m.split_record, MdMatch.fields, decodeTradeRow, h.wants, castNat_decNat hproperty,
    castNat_decNat hdesired, toUInt64_of_isInt64 hpaid0.le (by omega),
    toUInt64_of_isInt64 (by omega) (by omega), hcast m.paid (by omega) (by omega),
    hcast (m.got - m.fee) (by omega) (by omega), hcast m.fee hfee (by omega), atoi_decNat]

/-! ## One visit -/

/-- The records after a trade is settled. -/
theorem settleTrade_records (price : ℚ) (pold pnew : CMPMetaDEx) (got paid : Int) (s : State) :
    wp (settleTrade price pold pnew got paid)
      (fun _ s' => s'.txList = s.txList ∧ ∃ m : MdMatch, m.toMdFill = ⟨pold, pnew, got, paid⟩ ∧
        m.fee = s.tradingFee m.toMdFill ∧
        s'.tradeList = s.tradeList.insert m.record.1 m.record.2)
      (fun _ _ => True) s := by
  have hlists : OutsideFees fun s : State => (s.txList, s.tradeList) := ⟨fun _ _ _ _ => rfl⟩
  have hfee : wp (stripFee pold pnew got) (fun fee _ => fee = s.tradingFee ⟨pold, pnew, got, paid⟩)
      (fun _ _ => True) s := by
    unfold stripFee State.tradingFee
    rw [wp_bind, wp_get, wp_ite]
    constructor
    · intro hc
      rw [if_pos hc, wp_bind]
      exact wp_all (fun _ s' => (wp_pure _ _ _ _).mpr rfl) fun _ _ => trivial
    · intro hc
      rw [if_neg hc]
      exact (wp_pure _ _ _ _).mpr rfl
  have hhalt : ∀ (e : Halt) (s' : State), (s'.txList, s'.tradeList) = (s.txList, s.tradeList) → True :=
    fun _ _ _ => trivial
  unfold settleTrade
  rw [wp_bind]
  refine wp_mono (wp_and hfee ((keeps_stripFee hlists pold pnew got).wp rfl)) (fun fee s1 h1 => ?_)
    fun _ _ _ => trivial
  obtain ⟨rfl, h1⟩ := h1
  rw [wp_bind]
  refine wp_mono ((hlists.assertUpdate _ _ _ _).wp h1) (fun _ s2 h2 => ?_) hhalt
  rw [wp_bind]
  refine wp_mono ((hlists.assertUpdate _ _ _ _).wp h2) (fun _ s3 h3 => ?_) hhalt
  rw [wp_bind]
  refine wp_mono ((hlists.assertUpdate _ _ _ _).wp h3) (fun _ s4 h4 => ?_) hhalt
  rw [wp_bind]
  refine wp_mono ((hlists.assertUpdate _ _ _ _).wp h4) (fun _ s5 h5 => ?_) hhalt
  obtain ⟨htx, htrade⟩ := Prod.mk.inj h5
  simp only [recordMatchedTrade, wp_bind, wp_modify, wp_pure]
  refine ⟨htx, ⟨⟨pold, pnew, got, paid⟩, s.tradingFee ⟨pold, pnew, got, paid⟩⟩, rfl, rfl, ?_⟩
  show s5.tradeList.insert _ _ = _
  rw [htrade]
  rfl

/-- The visit of a place made a match, and recorded it. -/
structure MatchedAt (price : ℚ) (k : OrderKey) (t : MdTrade) (s : State) (m : MdMatch) (t' : MdTrade)
    (s' : State) : Prop where
  unsatisfied : t.satisfied = false
  taker : m.taker = t.pnew
  fee : m.fee = s.tradingFee m.toMdFill
  wants : m.maker.desiredProperty = t.pnew.property
  traded : TradedAt price k t s m.maker m.got m.paid t' s'
  txList : s'.txList = s.txList
  tradeList : s'.tradeList = s.tradeList.insert m.record.1 m.record.2

/-- A visit leaves everything as it is, or makes a match. -/
def VisitRecorded (price : ℚ) (k : OrderKey) (t : MdTrade) (s : State) (t' : MdTrade) (s' : State) :
    Prop :=
  (t' = t ∧ s' = s) ∨ ∃ m : MdMatch, MatchedAt price k t s m t' s'

section Visit

variable {new : CMPMetaDEx} (hnew : new.Sound) (hapart : new.property ≠ new.desiredProperty)
include hnew hapart

theorem visitOffer_recorded {t : MdTrade} {s : State} (h : LoopOk new t s) {price : ℚ}
    (hprice : price ≤ new.inversePrice) (k : OrderKey) :
    wp (visitOffer price t k) (VisitRecorded price k t s) (fun _ _ => True) s := by
  refine visitOffer_rule hnew hapart h hprice k (fun _ => Or.inl ⟨rfl, rfl⟩)
    fun pold hs hk hwants hfill => ?_
  refine wp_mono (wp_and (settleTrade_book price pold t.pnew _ _ s)
    (settleTrade_records price pold t.pnew _ _ s)) (fun t' s' hsettled => ?_) fun _ _ _ => trivial
  obtain ⟨⟨hpnew, hsatisfied, hbook⟩, htx, m, hm, hfee, htrade⟩ := hsettled
  obtain ⟨⟨maker, taker, got, paid⟩, fee⟩ := m
  obtain ⟨rfl, rfl, rfl, rfl⟩ := MdFill.mk.inj hm
  exact Or.inr ⟨_, hs, rfl, hfee, hwants, ⟨hk, hfill, hpnew, hsatisfied, hbook⟩, htx, htrade⟩

end Visit

/-- The match of a visit that changes nothing. -/
theorem MdVisit.match?_of_pass {v : MdVisit}
    (hrun : visitOffer v.price v.trade v.key v.state = .ok v.trade v.state) : v.match? = none := by
  unfold MdVisit.match?
  cases hoffer : v.offer? with
  | none =>
      have hfill : v.fill? = none := by
        unfold MdVisit.fill?
        rw [hoffer]
      rw [hfill]
  | some pold =>
      rw [MdVisit.fill?_of_pass hoffer hrun]
      exact if_pos rfl

/-- The match of a visit that trades. -/
theorem MdVisit.match?_of_matched {v : MdVisit} {m : MdMatch} {t' : MdTrade} {s' : State}
    (h : MatchedAt v.price v.key v.trade v.state m t' s') (hkey : m.maker.key = v.key)
    (hrun : visitOffer v.price v.trade v.key v.state = .ok t' s') : v.match? = some m := by
  obtain ⟨⟨maker, taker, got, paid⟩, fee⟩ := m
  obtain ⟨hs, htaker, hfee, _, htr, _, _⟩ := h
  dsimp only at hkey htaker hfee htr
  subst htaker hfee
  have hoffer : v.offer? = some maker := by
    unfold MdVisit.offer?
    rw [hs]
    exact htr.resting
  have hgot := htr.fill.got_pos
  unfold MdVisit.match?
  rw [MdVisit.fill?_of_traded hoffer hkey hrun htr]
  exact if_neg hgot.ne'

end OmniCore
