import OmniCore.DExReserve
import OmniCore.Lib.Lines
import OmniCore.StateFiles

/-! # AcceptsReload — open accepts through their file

    The key of an accept has three parts, the seller, the property and the buyer. Its line
    has a field for the buyer, and what is written into it is the second part of the key.
    An accept comes back under the name of its property, unless that is how its buyer is
    spelled. -/

namespace OmniCore

open Std (ExtTreeMap)
open Machine TextRec MapSum Exec

/-! ## Fields of a line -/

/-- Separators of a line and of its parts. -/
def IsLineMark (p : Char → Bool) : Prop := ∀ c, p c = true → c ∈ [' ', ',', '=', ';', ':']

namespace IsLineMark

variable {p : Char → Bool}

theorem eq_false (hp : IsLineMark p) {c : Char} (h : c ∉ [' ', ',', '=', ';', ':']) : p c = false := by
  cases hc : p c with
  | false => rfl
  | true => exact absurd (hp c hc) h

theorem digit (hp : IsLineMark p) (c : Char) (h : c.isDigit = true) : p c = false := by
  refine hp.eq_false fun hmem => ?_
  revert h
  fin_cases hmem <;> decide

theorem free_txidText (hp : IsLineMark p) (t : Txid) : Free p (txidText t) := by
  refine free_hexNat (fun d hd => hp.eq_false ?_) 64 t
  revert d
  decide

theorem free_address (hp : IsLineMark p) (a : Address) : Free p a.text := by
  refine a.free_text fun c hc => hp.eq_false fun hmem => ?_
  revert hc
  fin_cases hmem <;> decide

theorem free_decInt (hp : IsLineMark p) (n : Int) : Free p (decInt n) :=
  TextRec.free_decInt hp.digit (hp.eq_false (by decide)) n

theorem free_decNat (hp : IsLineMark p) (n : Nat) : Free p (decNat n) :=
  TextRec.free_decNat hp.digit n

end IsLineMark

/-- One separator. -/
theorem isLineMark_char {d : Char} (h : d ∈ [' ', ',', '=', ';', ':']) : IsLineMark (· == d) := by
  intro c hc
  rw [beq_iff_eq.mp hc]
  exact h

theorem isLineMark_equals : IsLineMark (· == '=') := isLineMark_char (by decide)

theorem isLineMark_semicolon : IsLineMark (· == ';') := isLineMark_char (by decide)

/-- Blank, comma and equals sign. -/
theorem isLineMark_field : IsLineMark isFieldMark := by
  intro c hc
  unfold isFieldMark at hc
  rw [Bool.or_eq_true, Bool.or_eq_true, beq_iff_eq, beq_iff_eq, beq_iff_eq] at hc
  rcases hc with (rfl | rfl) | rfl <;> decide

/-- A field of a line: not empty and without the separators. -/
def IsLineField (t : Text) : Prop := Free isFieldMark t ∧ t ≠ []

theorem isLineField_decNat (n : Nat) : IsLineField (decNat n) :=
  ⟨isLineMark_field.free_decNat n, decNat_ne_nil n⟩

theorem isLineField_decInt (n : Int) : IsLineField (decInt n) :=
  ⟨isLineMark_field.free_decInt n, decInt_ne_nil n⟩

theorem isLineField_txidText (t : Txid) : IsLineField (txidText t) :=
  ⟨isLineMark_field.free_txidText t, (isField_txidText t).2⟩

theorem isLineField_address (a : Address) : IsLineField a.text :=
  ⟨isLineMark_field.free_address a, a.ne_nil⟩

/-- A line is split into its fields. -/
theorem split_line {l : List Text} (hl : l ≠ []) (h : ∀ t ∈ l, IsLineField t) :
    split isFieldMark (joinWith ',' l) = l :=
  split_joinWith rfl hl (fun t ht => (h t ht).1) fun t ht => (h t ht).2

/-- A signed number that is read as an unsigned one. -/
theorem castNat_decInt64 {n : Int} (h : IsInt64 n) :
    ∃ m, castNat 64 (decInt n) = some m ∧ toInt64 m = n := by
  have hsmall : n.natAbs < 2 ^ 64 := by
    unfold IsInt64 minInt64 maxInt64 at h
    omega
  refine ⟨(n % 2 ^ 64).toNat, ?_, ?_⟩
  · unfold castNat
    rw [readInt_decInt]
    exact if_pos hsmall
  · unfold IsInt64 minInt64 maxInt64 at h
    unfold toInt64
    rcases le_or_gt 0 n with hn | hn
    · rw [Int.emod_eq_of_lt hn (by omega), Int.toNat_of_nonneg hn]
      exact Int.bmod_eq_of_le (by omega) (by omega)
    · have hup : n % 2 ^ 64 = n + 2 ^ 64 := by omega
      rw [hup, Int.toNat_of_nonneg (by omega)]
      have hmod := Int.add_bmod_right n (2 ^ 64)
      rw [Int.bmod_eq_of_le (n := n) (m := 2 ^ 64) (by omega) (by omega)] at hmod
      exact hmod

/-! ## The accepts of a node -/

/-- The accept has C++ integers. -/
structure CMPAccept.InRange (o : CMPAccept) : Prop where
  original : IsInt64 o.acceptAmountOriginal
  remaining : IsInt64 o.acceptAmountRemaining
  limit : o.blocktimelimit < 2 ^ 8
  property : o.property < 2 ^ 32
  offer : IsInt64 o.offerAmountOriginal
  desired : IsInt64 o.btcDesiredOriginal
  txid : o.offerTxid < 2 ^ 256
  block : o.block < 2 ^ 31

/-- Every accept is under the key of a seller, its property and a buyer. -/
def AcceptsOk (s : State) : Prop :=
  ∀ (key : Text) (o : CMPAccept), s.accepts[key]? = some o →
    o.InRange ∧ ∃ seller buyer, key = acceptCombo seller buyer o.property

/-- **ACCEPTS SURVIVE**: all lines are accepted by a node without accepts, and rebuild the accepts. -/
def AcceptsReload (s node : State) : Prop :=
  ∃ node', feedLines inputMpAcceptsString (writeMpAccepts s) { node with accepts := ∅ } =
    .ok true node' ∧ node'.accepts = s.accepts

/-- The buyer of every accept is spelled like the number of its property. -/
def BuyersAreProperties (s : State) : Prop :=
  ∀ seller buyer p, acceptCombo seller buyer p ∈ s.accepts → buyer.text = decNat p

/-! ## One line -/

/-- The key under which an accept comes back. -/
def reloadedKey (key : Text) : Text :=
  let vstr := split isComboMark key
  vstr.getD 0 [] ++ '-' :: (vstr.getD 1 [] ++ '+' :: vstr.getD 1 [])

theorem reloadedKey_acceptCombo (seller buyer : Address) (p : PropertyId) :
    reloadedKey (acceptCombo seller buyer p) =
      seller.text ++ '-' :: (decNat p ++ '+' :: decNat p) := by
  unfold reloadedKey
  rw [split_acceptCombo]
  rfl

/-- **ONE LINE** is refused if its key is taken, and makes its accept under that key otherwise. -/
theorem inputMpAccepts_line {o : CMPAccept} (h : o.InRange) (seller : Address) (s : State) :
    inputMpAcceptsString (o.saveAccept seller.text (decNat o.property)) s =
      if s.accepts.contains (seller.text ++ '-' :: (decNat o.property ++ '+' :: decNat o.property)) then
        .ok (-1) s
      else .ok 0 { s with
        accepts := s.accepts.insert
          (seller.text ++ '-' :: (decNat o.property ++ '+' :: decNat o.property)) o } := by
  have hsplit : split isFieldMark (o.saveAccept seller.text (decNat o.property)) =
      [seller.text, decNat o.property, decNat o.property, decNat o.block,
        decInt o.acceptAmountRemaining, decInt o.acceptAmountOriginal, decNat o.blocktimelimit,
        decInt o.offerAmountOriginal, decInt o.btcDesiredOriginal, txidText o.offerTxid] := by
    refine split_line (List.cons_ne_nil _ _) ?_
    simp only [List.forall_mem_cons]
    exact ⟨isLineField_address _, isLineField_decNat _, isLineField_decNat _, isLineField_decNat _,
      isLineField_decInt _, isLineField_decInt _, isLineField_decNat _, isLineField_decInt _,
      isLineField_decInt _, isLineField_txidText _, fun _ ht => (List.not_mem_nil ht).elim⟩
  obtain ⟨remaining, hremaining, heqRemaining⟩ := castNat_decInt64 h.remaining
  obtain ⟨original, horiginal, heqOriginal⟩ := castNat_decInt64 h.original
  obtain ⟨offer, hoffer, heqOffer⟩ := castNat_decInt64 h.offer
  obtain ⟨desired, hdesired, heqDesired⟩ := castNat_decInt64 h.desired
  -- the accept that is read is the accept that was written
  have hread : (⟨toInt64 original, toInt64 remaining, (atoi (decNat o.blocktimelimit) % 2 ^ 8).toNat,
      o.property, toInt64 offer, toInt64 desired, uint256S (txidText o.offerTxid),
      (atoi (decNat o.block)).toNat⟩ : CMPAccept) = o := by
    have hlimit : (atoi (decNat o.blocktimelimit) % 2 ^ 8).toNat = o.blocktimelimit := by
      have := h.limit
      rw [atoi_decNat]
      omega
    have hblock : (atoi (decNat o.block)).toNat = o.block := by
      rw [atoi_decNat]
      rfl
    rw [heqRemaining, heqOriginal, heqOffer, heqDesired, hlimit, hblock, uint256S_txidText h.txid]
  unfold inputMpAcceptsString
  rw [hsplit]
  dsimp only
  rw [castNat_decNat h.property, hremaining, horiginal, hoffer, hdesired]
  by_cases htaken : s.accepts.contains
      (seller.text ++ '-' :: (decNat o.property ++ '+' :: decNat o.property)) = true
  · rw [if_pos htaken]
    show (if s.accepts.contains (seller.text ++ '-' :: (decNat o.property ++ '+' ::
      decNat o.property)) then pure (-1) else _ : ExecM Int) s = _
    rw [if_pos htaken]
    rfl
  · rw [if_neg htaken]
    show (if s.accepts.contains (seller.text ++ '-' :: (decNat o.property ++ '+' ::
      decNat o.property)) then pure (-1) else _ : ExecM Int) s = _
    rw [if_neg htaken, hread]
    rfl

/-! ## All lines -/

section Reload

variable {s : State}

/-- The line of a stored accept. -/
def acceptLine (e : Text × CMPAccept) : Text :=
  e.2.saveAccept ((split isComboMark e.1).getD 0 []) ((split isComboMark e.1).getD 1 [])

/-- The line has the seller, and the property in the place of the buyer. -/
theorem acceptLine_eq (hok : AcceptsOk s) {e : Text × CMPAccept} (he : e ∈ s.accepts.toList) :
    ∃ seller buyer, e.1 = acceptCombo seller buyer e.2.property ∧ e.2.InRange ∧
      acceptLine e = e.2.saveAccept seller.text (decNat e.2.property) := by
  obtain ⟨hrange, seller, buyer, hkey⟩ := hok e.1 e.2 (mem_toList_iff.mp he)
  refine ⟨seller, buyer, hkey, hrange, ?_⟩
  unfold acceptLine
  rw [hkey, split_acceptCombo]
  rfl

/-- Every accept that comes back is under the key of a line. -/
theorem buyersAreProperties_of_reload (hok : AcceptsOk s) {node : State}
    (h : AcceptsReload s node) : BuyersAreProperties s := by
  obtain ⟨node', hfeed, haccepts⟩ := h
  intro seller buyer p hmem
  have hkeys : acceptCombo seller buyer p ∈ s.accepts.toList.map fun e => reloadedKey e.1 := by
    by_contra hno
    have hsame := feedLines_keys (fun (t : State) (key : Text) => t.accepts[key]?) acceptLine
      (fun e => reloadedKey e.1) ?_ hfeed hno
    · rw [haccepts, ExtTreeMap.getElem?_empty] at hsame
      rw [ExtTreeMap.mem_iff_isSome_getElem?, hsame] at hmem
      cases hmem
    · intro e he t res t' hrun hres key hne
      obtain ⟨a, b, hkey, hrange, hline⟩ := acceptLine_eq hok he
      rw [hline, inputMpAccepts_line hrange] at hrun
      rw [hkey, reloadedKey_acceptCombo] at hne
      split at hrun
      · cases hrun
        exact absurd hres (by decide)
      · cases hrun
        exact (getElem?_insert_eq ..).trans (if_neg hne.symm)
  obtain ⟨e, he, heq⟩ := List.mem_map.mp hkeys
  obtain ⟨a, b, hkey, -, -⟩ := acceptLine_eq hok he
  rw [hkey, reloadedKey_acceptCombo] at heq
  have hparts := congrArg (split isComboMark) heq
  have hq := free_decNat isComboMark_of_isDigit e.2.property
  rw [split_acceptCombo, split_combo (a.free_text isComboMark_of_isBase58) hq (decNat_ne_nil _) hq
    (decNat_ne_nil _), List.cons.injEq, List.cons.injEq, List.cons.injEq] at hparts
  rw [← hparts.2.2.1]
  exact hparts.2.1

/-- If the buyers are the properties, every line has the key of its accept. -/
theorem reload_of_buyersAreProperties (hok : AcceptsOk s) (hbuyers : BuyersAreProperties s)
    (node : State) : AcceptsReload s node := by
  have hread : ∀ e : Text × CMPAccept, s.accepts[e.1]? = some e.2 → ∀ t : State,
      t.accepts[e.1]? = none → ∃ t', inputMpAcceptsString (acceptLine e) t = .ok 0 t' ∧
        t'.accepts[e.1]? = some (id e.2) ∧
        ∀ key, key ≠ e.1 → t'.accepts[key]? = t.accepts[key]? := by
    intro e he t hnone
    obtain ⟨seller, buyer, hkey, hrange, hline⟩ := acceptLine_eq hok (mem_toList_iff.mpr he)
    have hstored : acceptCombo seller buyer e.2.property ∈ s.accepts := by
      rw [← hkey]
      exact ExtTreeMap.mem_iff_isSome_getElem?.mpr (Option.isSome_iff_exists.mpr ⟨e.2, he⟩)
    have hsame : seller.text ++ '-' :: (decNat e.2.property ++ '+' :: decNat e.2.property) = e.1 := by
      rw [hkey]
      unfold acceptCombo
      rw [hbuyers seller buyer _ hstored]
    have hfree : ¬ t.accepts.contains e.1 = true := by
      rw [ExtTreeMap.contains_eq_isSome_getElem?, hnone]
      exact Bool.false_ne_true
    refine ⟨{ t with accepts := t.accepts.insert e.1 e.2 }, ?_, ?_, ?_⟩
    · rw [hline, inputMpAccepts_line hrange, hsame, if_neg hfree]
    · exact (getElem?_insert_eq ..).trans (if_pos rfl)
    · intro key hne
      exact (getElem?_insert_eq ..).trans (if_neg hne.symm)
  obtain ⟨node', hfeed, hmap⟩ := feedLines_rebuilds
    (fun (t : State) (key : Text) => t.accepts[key]?) acceptLine id hread
    (s := { node with accepts := ∅ }) fun _ => ExtTreeMap.getElem?_empty
  refine ⟨node', hfeed, ExtTreeMap.ext_getElem? fun key => ?_⟩
  rw [hmap, Option.map_id]
  rfl

/-- **ACCEPTS SURVIVE EXACTLY IF THEIR BUYERS ARE PROPERTIES**: the reader takes back what was written as
    the buyer, and that is the number of the property. -/
theorem acceptsReload_iff (hok : AcceptsOk s) (node : State) :
    AcceptsReload s node ↔ BuyersAreProperties s :=
  ⟨buyersAreProperties_of_reload hok, fun h => reload_of_buyersAreProperties hok h node⟩

end Reload

/-! ## One accept -/

/-- A buyer has accepted 20 of what `A` offers for 200 satoshi. -/
def acceptOf (buyer : Address) : State :=
  { State.fresh regTestParams with
    accepts := (∅ : ExtTreeMap Text CMPAccept).insert (acceptCombo traderA buyer 1)
      { acceptAmountOriginal := 20, acceptAmountRemaining := 20, blocktimelimit := 10, property := 1
        offerAmountOriginal := 50, btcDesiredOriginal := 200, offerTxid := 32, block := 11 } }

/-- The buyer is `B`. -/
def oneAccept : State := acceptOf traderB

theorem acceptOf_ok (buyer : Address) : AcceptsOk (acceptOf buyer) := by
  intro key o hkey
  have hget := hkey
  unfold acceptOf at hget
  dsimp only at hget
  rw [ExtTreeMap.getElem?_insert] at hget
  split at hget
  · next heq =>
      cases hget
      refine ⟨⟨by decide, by decide, by decide, by decide, by decide, by decide, by decide,
        by decide⟩, traderA, buyer, ?_⟩
      exact (Std.LawfulEqCmp.eq_of_compare heq).symm
  · rw [ExtTreeMap.getElem?_empty] at hget
    cases hget

/-- Only the buyer counts. -/
theorem buyersAreProperties_acceptOf {buyer : Address} :
    BuyersAreProperties (acceptOf buyer) ↔ buyer.text = ['1'] := by
  constructor
  · exact fun h => h traderA buyer 1 ExtTreeMap.mem_insert_self
  · intro hbuyer seller other p hmem
    unfold acceptOf at hmem
    rw [ExtTreeMap.mem_insert] at hmem
    rcases hmem with heq | hmem
    · obtain ⟨-, hp, rfl⟩ := acceptCombo_injective (Std.LawfulEqCmp.eq_of_compare heq)
      rw [hbuyer, ← hp]
      rfl
    · exact absurd hmem ExtTreeMap.not_mem_empty

/-- A buyer who is spelled like property 1. -/
def buyerOne : Address := ⟨['1'], by decide, by decide⟩

/-- The accept of that buyer comes back, the one of `B` does not. -/
theorem accepts_reload_one : AcceptsReload (acceptOf buyerOne) (State.fresh regTestParams) ∧
    ¬ AcceptsReload oneAccept (State.fresh regTestParams) := by
  constructor
  · exact (acceptsReload_iff (acceptOf_ok buyerOne) _).mpr (buyersAreProperties_acceptOf.mpr rfl)
  · intro h
    have hbuyer := buyersAreProperties_acceptOf.mp ((acceptsReload_iff (acceptOf_ok traderB) _).mp h)
    revert hbuyer
    decide

set_option maxRecDepth 4000 in
/-- **THE BUYER IS LOST**: the accept of `B` is read back as one of a buyer `1`. -/
theorem buyer_lost : AcceptsOk oneAccept ∧ ¬ AcceptsReload oneAccept (State.fresh regTestParams) := by
  refine ⟨acceptOf_ok traderB, ?_⟩
  rintro ⟨node', hfeed, haccepts⟩
  have hlost : (after (feedLines inputMpAcceptsString (writeMpAccepts oneAccept))
      { State.fresh regTestParams with accepts := ∅ }).accepts[acceptCombo traderA traderB 1]? =
      none := by
    decide +kernel
  have hstored : oneAccept.accepts[acceptCombo traderA traderB 1]? ≠ none := by decide +kernel
  have hafter : after (feedLines inputMpAcceptsString (writeMpAccepts oneAccept))
      { State.fresh regTestParams with accepts := ∅ } = node' := by
    unfold after
    rw [hfeed]
  rw [hafter, haccepts] at hlost
  exact hstored hlost

end OmniCore
