import OmniCore.ContractCancel
import OmniCore.MetaDExFills
import OmniCore.Supply

/-! # MetaDExCancel — what the three cancels take out of the book

    Every cancel walks over the nested maps, returns the remaining tokens of the orders it
    selects to the balance of their owner, and records each of them under a number that it
    reads back from the master record of the transaction. With the reserves of the book in
    order every return goes through, so a cancel removes the selected orders and nothing
    else. -/

namespace OmniCore

open Std (ExtTreeMap)
open Machine TextRec MapSum Exec

/-! ## Cancel records -/

/-- The key of the master record of a cancelling transaction. -/
def cancelKey (txid : Txid) : Text := txidText txid ++ ['-', 'C']

/-- The master record: valid, the block, the type, and the number of cancelled orders. -/
def cancelMaster (block : Nat) (refNumber : Int) : Text :=
  joinWith ':' [['1'], decNat block, decNat 99992104, decInt refNumber]

/-- The record of one cancelled order. -/
def cancelSub (o : CMPMetaDEx) : Text :=
  joinWith ':' [txidText o.txid, decNat o.property, decInt (toUInt64 o.amountRemaining)]

/-- Writes the record of an order under a number, and the number into the master record. -/
def writeCancel (txid : Txid) (block : Nat) (db : TextDB) (refNumber : Int) (o : CMPMetaDEx) :
    TextDB :=
  (db.insert (cancelKey txid) (cancelMaster block refNumber)).insert
    (cancelKey txid ++ decInt refNumber) (cancelSub o)

/-- The number that the code gives to the next record. -/
def nextRefNumber (txid : Txid) (db : TextDB) : Int :=
  match existingCount db (cancelKey txid) with
  | some n => toUInt32 (n + 1)
  | none => 1

theorem recordMetaDExCancelTX_eq (txid : Txid) (block : Nat) (o : CMPMetaDEx) :
    recordMetaDExCancelTX txid o.txid true block o.property o.amountRemaining =
      modify fun s => { s with
        txList := writeCancel txid block s.txList (nextRefNumber txid s.txList) o } := rfl

/-- Records of a list of orders, numbered from `n + 1` on as unsigned 32-bit numbers. -/
def writeCancels (txid : Txid) (block : Nat) : Nat → List CMPMetaDEx → TextDB → TextDB
  | _, [], db => db
  | n, o :: rest, db =>
      writeCancels txid block (n + 1) rest (writeCancel txid block db (toUInt32 (n + 1)) o)

theorem append_ne_self {key t : Text} (h : t ≠ []) : key ++ t ≠ key := by
  intro heq
  exact h (List.append_right_eq_self.mp heq)

/-- The number of a record is read back from the master record. -/
theorem nextRefNumber_writeCancel (txid : Txid) (block : Nat) (db : TextDB) (n : Nat)
    (o : CMPMetaDEx) :
    nextRefNumber txid (writeCancel txid block db (toUInt32 n) o) = toUInt32 (n + 1) := by
  obtain ⟨m, hm⟩ : ∃ m : Nat, toUInt32 n = m :=
    ⟨(toUInt32 n).toNat, (Int.toNat_of_nonneg (Int.emod_nonneg _ (by decide))).symm⟩
  have hread : (writeCancel txid block db (toUInt32 n) o)[cancelKey txid]? =
      some (cancelMaster block m) := by
    unfold writeCancel
    rw [getElem?_insert_eq, if_neg (append_ne_self (decInt_ne_nil _)), getElem?_insert_eq, if_pos rfl,
      hm]
  have hsplit : split isColon (cancelMaster block m) =
      [['1'], decNat block, decNat 99992104, decNat m] := by
    refine split_joinWith (by decide) (by simp) ?_ ?_
    · intro t ht
      simp only [List.mem_cons, List.not_mem_nil, or_false] at ht
      rcases ht with rfl | rfl | rfl | rfl
      · intro c hc
        rw [List.mem_singleton] at hc
        subst hc
        rfl
      all_goals exact free_decNat isColon_of_isDigit _
    · intro t ht
      simp only [List.mem_cons, List.not_mem_nil, or_false] at ht
      rcases ht with rfl | rfl | rfl | rfl
      · simp
      all_goals exact decNat_ne_nil _
  unfold nextRefNumber existingCount
  rw [hread]
  dsimp only
  rw [hsplit]
  dsimp only
  rw [atoi_decNat, ← hm]
  exact Int.emod_add_emod _ _ _

theorem toUInt32_natCast {n : Nat} (h : n < 2 ^ 32) : toUInt32 n = n :=
  Int.emod_eq_of_lt (by omega) (by omega)

/-- Other keys keep their values. -/
theorem getElem?_writeCancels_of_ne (txid : Txid) (block : Nat) (removed : List CMPMetaDEx)
    {key : Text} (hmaster : key ≠ cancelKey txid) :
    ∀ (n : Nat) (db : TextDB),
      (∀ i < removed.length, key ≠ cancelKey txid ++ decInt (toUInt32 (n + i + 1))) →
      (writeCancels txid block n removed db)[key]? = db[key]? := by
  induction removed with
  | nil => exact fun _ _ _ => rfl
  | cons o rest ih =>
      intro n db hsub
      have hfirst : key ≠ cancelKey txid ++ decInt (toUInt32 (n + 1)) := by
        have h0 := hsub 0 (by simp)
        simpa using h0
      rw [writeCancels, ih]
      · unfold writeCancel
        rw [getElem?_insert_eq, if_neg hfirst.symm, getElem?_insert_eq, if_neg hmaster.symm]
      · intro i hi
        have hnext := hsub (i + 1) (by simpa using hi)
        rw [show (n : Int) + (i + 1 : Nat) + 1 = (n + 1 : Nat) + (i : Int) + 1 by push_cast; ring]
          at hnext
        exact hnext

/-- The master record has the last number. -/
theorem getElem?_writeCancels_master (txid : Txid) (block : Nat) {removed : List CMPMetaDEx}
    (hne : removed ≠ []) (n : Nat) (db : TextDB) :
    (writeCancels txid block n removed db)[cancelKey txid]? =
      some (cancelMaster block (toUInt32 (n + removed.length))) := by
  induction removed generalizing n db with
  | nil => exact absurd rfl hne
  | cons o rest ih =>
      rw [writeCancels]
      by_cases hrest : rest = []
      · subst hrest
        unfold writeCancels writeCancel
        rw [getElem?_insert_eq, if_neg (append_ne_self (decInt_ne_nil _)), getElem?_insert_eq,
          if_pos rfl]
        rfl
      · rw [ih hrest, List.length_cons]
        congr 3
        push_cast
        ring

/-- As long as the numbers do not wrap, every order has its record. -/
theorem getElem?_writeCancels_sub (txid : Txid) (block : Nat) (removed : List CMPMetaDEx) :
    ∀ (n : Nat) (db : TextDB), n + removed.length < 2 ^ 32 → ∀ i (hi : i < removed.length),
      (writeCancels txid block n removed db)[cancelKey txid ++ decNat (n + i + 1)]? =
        some (cancelSub removed[i]) := by
  induction removed with
  | nil =>
      intro n db _ i hi
      cases hi
  | cons o rest ih =>
      intro n db hlen i hi
      rw [List.length_cons] at hlen hi
      rw [writeCancels]
      cases i with
      | zero =>
          -- the later records have higher numbers
          rw [getElem?_writeCancels_of_ne txid block rest (append_ne_self (decNat_ne_nil _))]
          · unfold writeCancel
            rw [show (n : Int) + 1 = (n + 1 : Nat) by push_cast; ring,
              toUInt32_natCast (by omega), getElem?_insert_eq]
            exact if_pos rfl
          · intro j hj heq
            rw [show ((n + 1 : Nat) : Int) + j + 1 = (n + 1 + j + 1 : Nat) by push_cast; ring,
              toUInt32_natCast (by omega)] at heq
            have hnum := decNat_injective (List.append_cancel_left heq)
            omega
      | succ j =>
          have hj := ih (n + 1) (writeCancel txid block db (toUInt32 (n + 1)) o) (by omega) j
            (by omega)
          rw [show n + 1 + j + 1 = n + (j + 1) + 1 by omega] at hj
          exact hj

/-- The records of a cancelling transaction: one for each removed order, numbered from 1 on, and the
    number of them in the master record; nothing else is written. The numbers are unsigned
    32-bit ones. -/
structure CancelRecords (txid : Txid) (block : Nat) (removed : List CMPMetaDEx) (db db' : TextDB) :
    Prop where
  written : db' = writeCancels txid block 0 removed db
  master : removed ≠ [] →
    db'[cancelKey txid]? = some (cancelMaster block (toUInt32 removed.length))
  sub : removed.length < 2 ^ 32 → ∀ i (hi : i < removed.length),
    db'[cancelKey txid ++ decNat (i + 1)]? = some (cancelSub removed[i])
  others : ∀ key, key ≠ cancelKey txid →
    (∀ i < removed.length, key ≠ cancelKey txid ++ decInt (toUInt32 (i + 1))) →
    db'[key]? = db[key]?

theorem cancelRecords_writeCancels (txid : Txid) (block : Nat) (removed : List CMPMetaDEx)
    (db : TextDB) : CancelRecords txid block removed db (writeCancels txid block 0 removed db) where
  written := rfl
  master := by
    intro hne
    rw [getElem?_writeCancels_master txid block hne, Nat.cast_zero, zero_add]
  sub := by
    intro hlen i hi
    have h := getElem?_writeCancels_sub txid block removed 0 db (by omega) i hi
    rw [zero_add] at h
    exact h
  others := by
    intro key hmaster hsub
    refine getElem?_writeCancels_of_ne txid block removed hmaster 0 db fun i hi => ?_
    rw [Nat.cast_zero, zero_add]
    exact hsub i hi

/-! ## The book and its reserves -/

/-- What an order keeps in the reserve of an address and a property. -/
def CMPMetaDEx.reservedFor (o : CMPMetaDEx) (a : Address) (p : PropertyId) : Int :=
  if o.addr = a ∧ o.property = p then o.amountRemaining else 0

/-- What all resting orders keep there. -/
def State.mdReserved (s : State) (a : Address) (p : PropertyId) : Int :=
  (s.mdOrders.map fun e => e.order.reservedFor a p).sum

/-- The book and the reserves agree: every order may rest where it does, the reserve of an address
    is what its orders keep there, and the tokens of a property fit into 64 bits. -/
structure MdReserveOk (s : State) : Prop where
  book : MdBookOk s
  reserve : ∀ a p, s.tallyMap.money a p .metaDExReserve = s.mdReserved a p
  supply : ∀ p, s.tallyMap.supply p ≤ maxInt64

theorem reservedFor_nonneg {o : CMPMetaDEx} (h : 0 ≤ o.amountRemaining) (a : Address)
    (p : PropertyId) : 0 ≤ o.reservedFor a p := by
  unfold CMPMetaDEx.reservedFor
  split
  · exact h
  · exact le_rfl

/-- The tokens that a list of orders keeps for an address. -/
def reservedSum (l : List CMPMetaDEx) (a : Address) (p : PropertyId) : Int :=
  (l.map fun o => o.reservedFor a p).sum

theorem reservedSum_cons (o : CMPMetaDEx) (l : List CMPMetaDEx) (a : Address) (p : PropertyId) :
    reservedSum (o :: l) a p = o.reservedFor a p + reservedSum l a p := by
  unfold reservedSum
  rw [List.map_cons, List.sum_cons]

/-- Some of the orders keep no more than all of them. -/
theorem reservedSum_filter_le {l : List CMPMetaDEx} (hpos : ∀ o ∈ l, 0 ≤ o.amountRemaining)
    (sel : CMPMetaDEx → Bool) (a : Address) (p : PropertyId) :
    reservedSum (l.filter sel) a p ≤ reservedSum l a p := by
  induction l with
  | nil => exact le_rfl
  | cons o rest ih =>
      have hrest := ih fun x hx => hpos x (List.mem_cons_of_mem o hx)
      have ho := reservedFor_nonneg (hpos o List.mem_cons_self) a p
      rw [reservedSum_cons, List.filter_cons]
      split
      · rw [reservedSum_cons]
        omega
      · omega

/-! ## Taking orders out -/

/-- A place of the book. -/
def MdPlaced.At (e : MdPlaced) (p : PropertyId) (price : ℚ) (k : OrderKey) : Prop :=
  e.property = p ∧ e.price = price ∧ e.key = k

/-- The orders of a list were taken out of the book, and what they kept went back to the balances. -/
structure TakenOut (l : List MdPlaced) (s s' : State) : Prop where
  money : ∀ a p ty, s'.tallyMap.money a p ty = s.tallyMap.money a p ty +
    if ty = .balance then reservedSum (l.map MdPlaced.order) a p
    else if ty = .metaDExReserve then -reservedSum (l.map MdPlaced.order) a p else 0
  supply : ∀ p, s'.tallyMap.supply p = s.tallyMap.supply p
  gone : ∀ p price k, (∃ e ∈ l, e.At p price k) → (s'.mdLevel p price)[k]? = none
  kept : ∀ p price k, (¬ ∃ e ∈ l, e.At p price k) →
    (s'.mdLevel p price)[k]? = (s.mdLevel p price)[k]?

theorem TakenOut.nil (s : State) : TakenOut [] s s := by
  refine ⟨fun a p ty => ?_, fun _ => rfl, ?_, fun _ _ _ _ => rfl⟩
  · simp [reservedSum]
  · rintro p price k ⟨e, he, _⟩
    cases he

/-- One list after the other. -/
theorem TakenOut.cons {e : MdPlaced} {rest : List MdPlaced} {s s1 s' : State}
    (h : TakenOut [e] s s1) (h' : TakenOut rest s1 s') : TakenOut (e :: rest) s s' := by
  refine ⟨fun a p ty => ?_, fun p => (h'.supply p).trans (h.supply p), ?_, ?_⟩
  · rw [h'.money, h.money, List.map_cons, reservedSum_cons, List.map_cons, reservedSum_cons]
    simp only [List.map_nil, reservedSum, List.sum_nil, add_zero]
    split
    · ring
    · split
      · ring
      · ring
  · rintro p price k ⟨x, hx, hat⟩
    by_cases hlater : ∃ y ∈ rest, y.At p price k
    · exact h'.gone p price k hlater
    · rw [h'.kept p price k hlater]
      rcases List.mem_cons.mp hx with rfl | hx
      · exact h.gone p price k ⟨x, List.mem_singleton_self x, hat⟩
      · exact absurd ⟨x, hx, hat⟩ hlater
  · intro p price k hnone
    rw [h'.kept p price k fun ⟨y, hy, hat⟩ => hnone ⟨y, List.mem_cons_of_mem e hy, hat⟩]
    refine h.kept p price k ?_
    rintro ⟨x, hx, hat⟩
    rw [List.mem_singleton.mp hx] at hat
    exact hnone ⟨e, List.mem_cons_self, hat⟩

/-- The reserves cover the orders of a list, and the tokens of a property fit into 64 bits. -/
structure Covers (s : State) (l : List MdPlaced) : Prop where
  pos : ∀ e ∈ l, 0 < e.order.amountRemaining
  reserve : ∀ a p, reservedSum (l.map MdPlaced.order) a p ≤ s.tallyMap.money a p .metaDExReserve
  supply : ∀ p, s.tallyMap.supply p ≤ maxInt64

/-- The reserve covers the first order. -/
theorem Covers.head {s : State} {e : MdPlaced} {rest : List MdPlaced} (h : Covers s (e :: rest)) :
    e.order.amountRemaining ≤ s.tallyMap.money e.order.addr e.order.property .metaDExReserve := by
  have hall := h.reserve e.order.addr e.order.property
  rw [List.map_cons, reservedSum_cons] at hall
  have hother : 0 ≤ reservedSum (rest.map MdPlaced.order) e.order.addr e.order.property := by
    refine List.sum_nonneg fun x hx => ?_
    obtain ⟨o, ho, rfl⟩ := List.mem_map.mp hx
    obtain ⟨y, hy, rfl⟩ := List.mem_map.mp ho
    exact reservedFor_nonneg (h.pos y (List.mem_cons_of_mem e hy)).le _ _
  have hkeeps : e.order.reservedFor e.order.addr e.order.property = e.order.amountRemaining :=
    if_pos ⟨rfl, rfl⟩
  omega

/-- Without the first order, what is left of the reserves covers the others. -/
theorem Covers.tail {s s1 : State} {e : MdPlaced} {rest : List MdPlaced} (h : Covers s (e :: rest))
    (h1 : TakenOut [e] s s1) : Covers s1 rest := by
  refine ⟨fun x hx => h.pos x (List.mem_cons_of_mem e hx), fun a p => ?_, fun p => ?_⟩
  · have hall := h.reserve a p
    rw [List.map_cons, reservedSum_cons] at hall
    rw [h1.money, if_neg (by decide), if_pos rfl, List.map_cons, reservedSum_cons]
    simp only [List.map_nil, reservedSum, List.sum_nil, add_zero] at hall ⊢
    omega
  · rw [h1.supply]
    exact h.supply p

/-- The orders of a list were taken out of the book, their tokens returned and their cancels
    recorded; nothing else happened. -/
structure Removed (txid : Txid) (block n : Nat) (l : List MdPlaced) (s s' : State) : Prop where
  money : ∀ a p ty, s'.tallyMap.money a p ty = s.tallyMap.money a p ty +
    if ty = .balance then reservedSum (l.map MdPlaced.order) a p
    else if ty = .metaDExReserve then -reservedSum (l.map MdPlaced.order) a p else 0
  supply : ∀ p, s'.tallyMap.supply p = s.tallyMap.supply p
  gone : ∀ p price k, (∃ e ∈ l, e.At p price k) → (s'.mdLevel p price)[k]? = none
  kept : ∀ p price k, (¬ ∃ e ∈ l, e.At p price k) →
    (s'.mdLevel p price)[k]? = (s.mdLevel p price)[k]?
  records : s'.txList = writeCancels txid block n (l.map MdPlaced.order) s.txList
  rest : s' = { s with
    tallyMap := s'.tallyMap
    metadex := s'.metadex
    txList := s'.txList }

/-- The state after one order is taken out. -/
def removedState (txid : Txid) (block : Nat) (e : MdPlaced) (refNumber : Int) (s : State)
    (m : TallyMap) : State :=
  { s with
    tallyMap := m
    txList := writeCancel txid block s.txList refNumber e.order
    metadex := (s.setMdLevel e.property e.price
      ((s.mdLevel e.property e.price).erase e.key)).metadex }

theorem removeOrder_spec (txid : Txid) (block : Nat) (e : MdPlaced) {s : State}
    (hpos : 0 < e.order.amountRemaining)
    (hcovered : e.order.amountRemaining ≤
      s.tallyMap.money e.order.addr e.order.property .metaDExReserve)
    (hsupply : s.tallyMap.supply e.order.property ≤ maxInt64) :
    wp (removeOrder (some (txid, block)) e)
      (fun _ s' => ∃ m, Moved s.tallyMap m e.order.property e.order.amountRemaining e.order.addr
        .metaDExReserve e.order.addr .balance ∧
        s' = removedState txid block e (nextRefNumber txid s.txList) s m)
      (fun _ _ => False) s := by
  unfold removeOrder
  refine wp_move hpos hcovered trivial trivial hsupply (fun h => by cases h) fun m hm => ?_
  dsimp only
  rw [recordMetaDExCancelTX_eq]
  simp only [wp_bind, wp_modify]
  exact ⟨m, hm, rfl⟩

/-- The returns of one order, as what it kept. -/
theorem Moved.money_reserved {m m' : TallyMap} {o : CMPMetaDEx}
    (h : Moved m m' o.property o.amountRemaining o.addr .metaDExReserve o.addr .balance) (a : Address)
    (p : PropertyId) (ty : TallyType) :
    m'.money a p ty = m.money a p ty +
      if ty = .balance then o.reservedFor a p
      else if ty = .metaDExReserve then -o.reservedFor a p else 0 := by
  rw [h.money]
  unfold CMPMetaDEx.reservedFor
  by_cases hplace : o.addr = a ∧ o.property = p
  · obtain ⟨rfl, rfl⟩ := hplace
    cases ty <;> simp
    omega
  · have hne : ∀ ty', ¬ (a = o.addr ∧ p = o.property ∧ ty = ty') :=
      fun _ hh => hplace ⟨hh.1.symm, hh.2.1.symm⟩
    rw [if_neg (hne _), if_neg (hne _), if_neg hplace]
    simp

/-- The book after one order was taken out of it, with its tokens returned. -/
theorem takenOut_order {e : MdPlaced} {s s' : State} {m : TallyMap}
    (hm : Moved s.tallyMap m e.order.property e.order.amountRemaining e.order.addr
      .metaDExReserve e.order.addr .balance)
    (htally : s'.tallyMap = m)
    (hbook : s'.metadex = (s.setMdLevel e.property e.price
      ((s.mdLevel e.property e.price).erase e.key)).metadex) : TakenOut [e] s s' := by
  have hlevel : ∀ p price, s'.mdLevel p price =
      if e.property = p ∧ e.price = price then (s.mdLevel e.property e.price).erase e.key
      else s.mdLevel p price := by
    intro p price
    rw [← mdLevel_setMdLevel]
    exact mdLevel_congr hbook p price
  refine ⟨fun a p ty => ?_, fun p => ?_, ?_, ?_⟩
  · rw [htally, hm.money_reserved, List.map_cons, reservedSum_cons]
    simp [reservedSum]
  · rw [htally]
    exact hm.supply p
  · rintro p price k ⟨x, hx, hat⟩
    rw [List.mem_singleton.mp hx] at hat
    obtain ⟨rfl, rfl, rfl⟩ := hat
    rw [hlevel, if_pos ⟨rfl, rfl⟩, getElem?_erase_eq, if_pos rfl]
  · intro p price k hnone
    have hnot : ¬ e.At p price k := fun hat => hnone ⟨e, List.mem_singleton_self e, hat⟩
    rw [hlevel]
    split
    · next hplace =>
        obtain ⟨rfl, rfl⟩ := hplace
        rw [getElem?_erase_eq, if_neg fun hk => hnot ⟨rfl, rfl, hk⟩]
    · rfl

/-- **THE LOOP OF A CANCEL**: if the reserves cover the orders of a list, all of them are taken out. -/
theorem removeOrders_spec (txid : Txid) (block : Nat) (l : List MdPlaced) :
    ∀ (n : Nat) (s : State), Covers s l → nextRefNumber txid s.txList = toUInt32 (n + 1) →
      wp (l.forM (removeOrder (some (txid, block)))) (fun _ s' => Removed txid block n l s s')
        (fun _ _ => False) s := by
  induction l with
  | nil =>
      intro n s _ _
      rw [wp_forM_nil]
      have hnil := TakenOut.nil s
      exact ⟨hnil.money, hnil.supply, hnil.gone, hnil.kept, rfl, rfl⟩
  | cons e rest ih =>
      intro n s hcovers hnext
      rw [wp_forM_cons]
      refine wp_imp (removeOrder_spec txid block e (hcovers.pos e List.mem_cons_self) hcovers.head
        (hcovers.supply _)) ?_
      rintro _ s1 ⟨m, hm, hs1⟩
      have hone : TakenOut [e] s s1 := by
        refine takenOut_order hm ?_ ?_
        · rw [hs1]
          rfl
        · rw [hs1]
          rfl
      have hrecord : s1.txList = writeCancel txid block s.txList (toUInt32 (n + 1)) e.order := by
        rw [hs1, hnext]
        rfl
      have hbeside : s1 = { s with
          tallyMap := s1.tallyMap, metadex := s1.metadex, txList := s1.txList } := by
        rw [hs1]
        rfl
      have hnext1 : nextRefNumber txid s1.txList = toUInt32 ((n + 1 : Nat) + 1) := by
        have hcast : ((n + 1 : Nat) : Int) = n + 1 := by push_cast; ring
        rw [hrecord, ← hcast, nextRefNumber_writeCancel]
      refine wp_imp (ih (n + 1) s1 (hcovers.tail hone) hnext1) fun _ s' h' => ?_
      have hall := hone.cons ⟨h'.money, h'.supply, h'.gone, h'.kept⟩
      refine ⟨hall.money, hall.supply, hall.gone, hall.kept, ?_, ?_⟩
      · rw [h'.records, hrecord]
        rfl
      · rw [h'.rest, hbeside]

/-! ## Exact cancels -/

/-- The resting orders that a cancel is for, in the order of the book. -/
def State.mdCancelled (s : State) (which : CMPMetaDEx → Prop) [DecidablePred which] :
    List CMPMetaDEx :=
  (s.mdOrders.map MdPlaced.order).filter which

/-- What remains of the orders of a list that sell a property. -/
def remainingOf (l : List CMPMetaDEx) (p : PropertyId) : Int :=
  ((l.filter fun o => o.property = p).map fun o => o.amountRemaining).sum

/-- A cancel as it should be: it takes out exactly the orders it is for, returns what remains of
    them to the balance of the sender, says whether there were any, records each of them, and
    changes nothing else. -/
structure CancelsOrders (txid : Txid) (block : Nat) (sender : Address) (which : CMPMetaDEx → Prop)
    [DecidablePred which] (s : State) (rc : Int) (s' : State) : Prop where
  code : rc = 0 ↔ ∃ (p : PropertyId) (price : ℚ) (k : OrderKey) (o : CMPMetaDEx),
    (s.mdLevel p price)[k]? = some o ∧ which o
  book : ∀ (p : PropertyId) (price : ℚ) (k : OrderKey) o, (s'.mdLevel p price)[k]? = some o ↔
    (s.mdLevel p price)[k]? = some o ∧ ¬ which o
  balance : ∀ p, s'.tallyMap.money sender p .balance =
    s.tallyMap.money sender p .balance + remainingOf (s.mdCancelled which) p
  reserve : ∀ p, s'.tallyMap.money sender p .metaDExReserve =
    s.tallyMap.money sender p .metaDExReserve - remainingOf (s.mdCancelled which) p
  others : ∀ a p ty, ¬ (a = sender ∧ (ty = .balance ∨ ty = .metaDExReserve)) →
    s'.tallyMap.money a p ty = s.tallyMap.money a p ty
  records : s.txList[cancelKey txid]? = none →
    CancelRecords txid block (s.mdCancelled which) s.txList s'.txList
  rest : s' = { s with
    tallyMap := s'.tallyMap
    metadex := s'.metadex
    txList := s'.txList }

/-- What orders of one address keep, they keep for that address. -/
theorem reservedSum_eq {l : List CMPMetaDEx} {sender : Address} (h : ∀ o ∈ l, o.addr = sender)
    (a : Address) (p : PropertyId) :
    reservedSum l a p = if a = sender then remainingOf l p else 0 := by
  induction l with
  | nil => simp [reservedSum, remainingOf]
  | cons o rest ih =>
      have ho := h o List.mem_cons_self
      rw [reservedSum_cons, ih fun x hx => h x (List.mem_cons_of_mem o hx)]
      unfold CMPMetaDEx.reservedFor remainingOf
      rw [ho, List.filter_cons]
      by_cases ha : a = sender
      · by_cases hp : o.property = p
        · simp [ha, hp]
        · simp [ha, hp]
      · simp [ha, Ne.symm ha]

/-- The next number follows some number. -/
theorem exists_nextRefNumber (txid : Txid) (db : TextDB) :
    ∃ n : Nat, nextRefNumber txid db = toUInt32 (n + 1) ∧
      (db[cancelKey txid]? = none → n = 0) := by
  unfold nextRefNumber existingCount
  cases db[cancelKey txid]? with
  | none => exact ⟨0, rfl, fun _ => rfl⟩
  | some value =>
      dsimp only
      split
      · next c hc =>
          have hnonneg : 0 ≤ toUInt32 c := Int.emod_nonneg _ (by decide)
          refine ⟨(toUInt32 c).toNat, ?_, fun h => by cases h⟩
          rw [Int.toNat_of_nonneg hnonneg]
          exact (Int.emod_add_emod _ _ _).symm
      · exact ⟨0, rfl, fun _ => rfl⟩

section Exact

variable {s : State} (hs : MdReserveOk s)
include hs

theorem MdReserveOk.remaining_pos {e : MdPlaced} (he : e ∈ s.mdOrders) :
    0 < e.order.amountRemaining :=
  (hs.book _ _ _ _ (mem_mdOrders.mp he)).sound.remaining_pos

/-- The reserves cover any part of the book. -/
theorem MdReserveOk.covers (sel : MdPlaced → Bool) {which : CMPMetaDEx → Bool}
    (horders : (s.mdOrders.filter sel).map MdPlaced.order =
      (s.mdOrders.map MdPlaced.order).filter which) : Covers s (s.mdOrders.filter sel) := by
  refine ⟨fun e he => hs.remaining_pos (List.mem_filter.mp he).1, fun a p => ?_, hs.supply⟩
  rw [hs.reserve, horders]
  have hle := reservedSum_filter_le (l := s.mdOrders.map MdPlaced.order) (fun o ho => by
    obtain ⟨e, he, rfl⟩ := List.mem_map.mp ho
    exact (hs.remaining_pos he).le) which a p
  unfold State.mdReserved
  unfold reservedSum at hle ⊢
  rw [List.map_map] at hle
  exact hle

/-- The loop that all three cancels share. -/
theorem cancelOrders_exact (txid : Txid) (block : Nat) (sender : Address) {rc : Int} (hrc : rc ≠ 0)
    {sel : MdPlaced → Bool} {which : CMPMetaDEx → Prop} [DecidablePred which]
    (hsel : ∀ e ∈ s.mdOrders, sel e = true ↔ which e.order)
    (hown : ∀ o, which o → o.addr = sender) :
    wp (cancelOrders txid block rc sel) (CancelsOrders txid block sender which s)
      (fun _ _ => False) s := by
  have horders : (s.mdOrders.filter sel).map MdPlaced.order = s.mdCancelled which := by
    unfold State.mdCancelled
    rw [List.filter_map]
    congr 1
    refine List.filter_congr fun e he => ?_
    rw [Bool.eq_iff_iff, hsel e he]
    simp
  have hmem : ∀ e, e ∈ s.mdOrders.filter sel ↔
      (s.mdLevel e.property e.price)[e.key]? = some e.order ∧ which e.order := by
    intro e
    rw [List.mem_filter, mem_mdOrders]
    constructor
    · rintro ⟨he, hwhich⟩
      exact ⟨he, (hsel e (mem_mdOrders.mpr he)).mp hwhich⟩
    · rintro ⟨he, hwhich⟩
      exact ⟨he, (hsel e (mem_mdOrders.mpr he)).mpr hwhich⟩
  have hcovers : Covers s (s.mdOrders.filter sel) := hs.covers sel horders
  obtain ⟨n, hnext, hzero⟩ := exists_nextRefNumber txid s.txList
  have hsender : ∀ o ∈ s.mdCancelled which, o.addr = sender := by
    intro o ho
    exact hown o (by simpa using (List.mem_filter.mp ho).2)
  unfold cancelOrders
  simp only [wp_bind, wp_get, wp_pure]
  refine wp_imp (removeOrders_spec txid block _ n s hcovers hnext) fun _ s' h => ?_
  have hmoney := h.money
  have hrecords := h.records
  rw [horders] at hmoney hrecords
  refine ⟨?_, ?_, ?_, ?_, ?_, ?_, h.rest⟩
  · constructor
    · intro h0
      split at h0
      · exact absurd h0 hrc
      · next hne =>
          rw [List.isEmpty_iff] at hne
          obtain ⟨e, he⟩ := List.exists_mem_of_ne_nil _ hne
          exact ⟨_, _, _, _, (hmem e).mp he⟩
    · rintro ⟨p, price, k, o, ho, hwhich⟩
      have he := (hmem ⟨p, price, k, o⟩).mpr ⟨ho, hwhich⟩
      refine if_neg fun hempty => ?_
      rw [List.isEmpty_iff] at hempty
      rw [hempty] at he
      cases he
  · intro p price k o
    by_cases htaken : ∃ e ∈ s.mdOrders.filter sel, e.At p price k
    · rw [h.gone p price k htaken]
      obtain ⟨e, he, rfl, rfl, rfl⟩ := htaken
      obtain ⟨hrest, hwhich⟩ := (hmem e).mp he
      constructor
      · intro hnone
        cases hnone
      · rintro ⟨ho, hnot⟩
        rw [hrest] at ho
        cases ho
        exact absurd hwhich hnot
    · rw [h.kept p price k htaken]
      refine ⟨fun ho => ⟨ho, fun hwhich => htaken ?_⟩, fun ho => ho.1⟩
      exact ⟨⟨p, price, k, o⟩, (hmem _).mpr ⟨ho, hwhich⟩, rfl, rfl, rfl⟩
  · intro p
    rw [hmoney, if_pos rfl, reservedSum_eq hsender, if_pos rfl]
  · intro p
    rw [hmoney, if_neg (by decide), if_pos rfl, reservedSum_eq hsender, if_pos rfl]
    rfl
  · intro a p ty hother
    rw [hmoney, reservedSum_eq hsender]
    by_cases ha : a = sender
    · have hty : ¬ (ty = .balance ∨ ty = .metaDExReserve) := fun hty => hother ⟨ha, hty⟩
      rw [not_or] at hty
      rw [if_neg hty.1, if_neg hty.2, add_zero]
    · rw [if_neg ha]
      split
      · rw [add_zero]
      · split
        · rw [neg_zero, add_zero]
        · rw [add_zero]
  · intro hnone
    rw [hrecords, hzero hnone]
    exact cancelRecords_writeCancels _ _ _ _

end Exact

/-- Without orders to cancel nothing happens. -/
theorem cancels_nothing {s : State} (txid : Txid) (block : Nat) (sender : Address)
    {which : CMPMetaDEx → Prop} [DecidablePred which]
    (hnone : ∀ e ∈ s.mdOrders, ¬ which e.order) {rc : Int} (hrc : rc ≠ 0) :
    CancelsOrders txid block sender which s rc s := by
  have hempty : s.mdCancelled which = [] := by
    refine List.filter_eq_nil_iff.mpr fun o ho => ?_
    obtain ⟨e, he, rfl⟩ := List.mem_map.mp ho
    simpa using hnone e he
  have hzero : ∀ p, remainingOf (s.mdCancelled which) p = 0 := by
    intro p
    rw [hempty]
    rfl
  have hnot : ∀ (p : PropertyId) (price : ℚ) (k : OrderKey) o,
      (s.mdLevel p price)[k]? = some o → ¬ which o :=
    fun p price k o ho => hnone ⟨p, price, k, o⟩ (mem_mdOrders.mpr ho)
  refine ⟨?_, fun p price k o => ⟨fun ho => ⟨ho, hnot p price k o ho⟩, fun ho => ho.1⟩, ?_, ?_,
    fun _ _ _ _ => rfl, fun _ => ?_, rfl⟩
  · constructor
    · exact fun h0 => absurd h0 hrc
    · rintro ⟨p, price, k, o, ho, hwhich⟩
      exact absurd hwhich (hnot p price k o ho)
  · intro p
    rw [hzero, add_zero]
  · intro p
    rw [hzero, sub_zero]
  · rw [hempty]
    exact cancelRecords_writeCancels txid block [] s.txList

/-! ## The three cancels -/

/-- The sender's orders of a pair at a price. -/
def AtPrice (sender : Address) (prop propertyDesired : PropertyId) (price : ℚ) (o : CMPMetaDEx) :
    Prop :=
  o.addr = sender ∧ o.property = prop ∧ o.desiredProperty = propertyDesired ∧ o.unitPrice = price

/-- The sender's orders of a pair. -/
def ForPair (sender : Address) (prop propertyDesired : PropertyId) (o : CMPMetaDEx) : Prop :=
  o.addr = sender ∧ o.property = prop ∧ o.desiredProperty = propertyDesired

/-- The sender's orders that sell a property of an ecosystem. -/
def OfEcosystem (sender : Address) (ecosystem : Nat) (o : CMPMetaDEx) : Prop :=
  o.addr = sender ∧ InEcosystem ecosystem o.property

instance (sender : Address) (prop propertyDesired : PropertyId) (price : ℚ) :
    DecidablePred (AtPrice sender prop propertyDesired price) := fun o => by
  unfold AtPrice
  infer_instance

instance (sender : Address) (prop propertyDesired : PropertyId) :
    DecidablePred (ForPair sender prop propertyDesired) := fun o => by
  unfold ForPair
  infer_instance

instance (sender : Address) (ecosystem : Nat) : DecidablePred (OfEcosystem sender ecosystem) :=
  fun o => by
    unfold OfEcosystem
    infer_instance

/-- The order that `MetaDEx_CANCEL_AT_PRICE` builds from its parameters. -/
def cancelOrder (sender : Address) (prop : PropertyId) (amount : Int) (propertyDesired : PropertyId)
    (amountDesired : Int) : CMPMetaDEx :=
  newMetaDExOrder sender prop amount 0 propertyDesired amountDesired 0 0 subactionCancelAtPrice

/-- Nothing is listed under a property that the book does not have. -/
theorem property_ne_of_not_contains {s : State} {prop : PropertyId}
    (h : ¬ s.metadex.contains prop = true) {e : MdPlaced} (he : e ∈ s.mdOrders) : e.property ≠ prop := by
  rintro rfl
  rw [ExtTreeMap.contains_iff_mem] at h
  have hplace := mem_mdOrders.mp he
  unfold State.mdLevel State.mdPrices at hplace
  rw [ExtTreeMap.getElem?_eq_none h] at hplace
  simp at hplace

/-- **CANCELS ARE EXACT**: with the book and its reserves in order, all three return, and do what a
    cancel of the orders they name should do. -/
theorem metadex_cancels_exact (txid : Txid) (block : Nat) (sender : Address) {s : State}
    (hs : MdReserveOk s) :
    (∀ prop amount propertyDesired amountDesired,
      wp (metaDExCancelAtPrice txid block
          (cancelOrder sender prop amount propertyDesired amountDesired))
        (CancelsOrders txid block sender
          (AtPrice sender prop propertyDesired ((amountDesired : ℚ) / amount)) s)
        (fun _ _ => False) s) ∧
    (∀ prop propertyDesired,
      wp (metaDExCancelAllForPair txid block sender prop propertyDesired)
        (CancelsOrders txid block sender (ForPair sender prop propertyDesired) s)
        (fun _ _ => False) s) ∧
    ∀ ecosystem, ecosystem = omniPropertyMSC ∨ ecosystem = omniPropertyTMSC →
      wp (metaDExCancelEverything txid block sender ecosystem)
        (CancelsOrders txid block sender (OfEcosystem sender ecosystem) s)
        (fun _ _ => False) s := by
  have hplace : ∀ e ∈ s.mdOrders, MdPlaceOk e.property e.price e.key e.order :=
    fun e he => hs.book _ _ _ _ (mem_mdOrders.mp he)
  refine ⟨fun prop amount propertyDesired amountDesired => ?_, fun prop propertyDesired => ?_,
    fun ecosystem heco => ?_⟩
  · unfold metaDExCancelAtPrice
    rw [wp_bind, wp_get, wp_ite]
    constructor
    · intro _
      refine cancelOrders_exact hs txid block sender (by decide) (fun e he => ?_) fun o ho => ho.1
      have he' := hplace e he
      simp only [Bool.and_eq_true, beq_iff_eq]
      show ((e.property = prop ∧ e.price = (amountDesired : ℚ) / amount) ∧
        e.order.desiredProperty = propertyDesired) ∧ e.order.addr = sender ↔ _
      unfold AtPrice
      rw [he'.property, he'.price]
      tauto
    · intro hno
      refine (wp_pure _ _ _ _).mpr (cancels_nothing txid block sender (fun e he hwhich => ?_)
        (by decide))
      exact property_ne_of_not_contains hno he ((hplace e he).property ▸ hwhich.2.1)
  · unfold metaDExCancelAllForPair
    rw [wp_bind, wp_get, wp_ite]
    constructor
    · intro _
      refine cancelOrders_exact hs txid block sender (by decide) (fun e he => ?_) fun o ho => ho.1
      simp only [Bool.and_eq_true, beq_iff_eq]
      unfold ForPair
      rw [(hplace e he).property]
      tauto
    · intro hno
      refine (wp_pure _ _ _ _).mpr (cancels_nothing txid block sender (fun e he hwhich => ?_)
        (by decide))
      exact property_ne_of_not_contains hno he ((hplace e he).property ▸ hwhich.2.1)
  · unfold metaDExCancelEverything
    refine cancelOrders_exact hs txid block sender (by decide) (fun e he => ?_) fun o ho => ho.1
    show (inCancelledEcosystem ecosystem e.property && e.order.addr == sender) = true ↔ _
    rw [Bool.and_eq_true, beq_iff_eq, inCancelledEcosystem_iff heco, ← (hplace e he).property]
    exact and_comm

/-- What an address reserved is summed up over its orders. -/
theorem mdReserved_eq_reservedSum (s : State) (a : Address) (p : PropertyId) :
    s.mdReserved a p = reservedSum (s.mdOrders.map MdPlaced.order) a p := by
  unfold State.mdReserved reservedSum
  rw [List.map_map]
  rfl

/-- `A` sells 10 of property 4 for 20 of property 1. -/
def restingSale : CMPMetaDEx := newMetaDExOrder traderA 4 10 10 1 20 1 1 subactionAdd

/-- The market in which this order rests. -/
def restingMarket : State :=
  (fundedState.withTally (TallyMap.update fundedLedger traderA 4 10 .metaDExReserve).2).setMdLevel
    4 2 ((∅ : MdSet).insert (10, 1) restingSale)

set_option maxRecDepth 4000 in
theorem restingMarket_orders :
    restingMarket.mdOrders.map MdPlaced.order = [restingSale] := by decide +kernel

set_option maxRecDepth 4000 in
private theorem restingMarket_posted : Posted ∅ restingMarket.tallyMap
    ([⟨traderA, 1, 100, .balance⟩, ⟨traderB, 1, 100, .balance⟩] ++
      [⟨traderA, 4, 10, .metaDExReserve⟩]) :=
  fundedLedger_posted.trans (credited_update (by decide +kernel)).posted

theorem restingMarket_ok : MdReserveOk restingMarket where
  book := by
    intro p price k o ho
    unfold restingMarket at ho
    rw [mdLevel_setMdLevel] at ho
    split at ho
    · next hplace =>
        obtain ⟨rfl, rfl⟩ := hplace
        rw [getElem?_insert_eq] at ho
        split at ho
        · next hk =>
            cases ho
            subst hk
            exact ⟨by decide, rfl, by decide +kernel, rfl⟩
        · simp at ho
    · simp [State.mdLevel, State.mdPrices, fundedState, State.fresh] at ho
  reserve := by
    intro a p
    rw [mdReserved_eq_reservedSum, restingMarket_orders, restingMarket_posted.money]
    simp [reservedSum, CMPMetaDEx.reservedFor, restingSale, newMetaDExOrder, Entry.toMoney, eq_comm]
  supply := by
    intro p
    have hempty : ∀ ty, TallyMap.total ∅ p ty = 0 := fun _ => rfl
    unfold TallyMap.supply
    rw [restingMarket_posted.total, restingMarket_posted.total, restingMarket_posted.total,
      restingMarket_posted.total, hempty, hempty, hempty, hempty]
    simp only [Entry.toTotal, List.cons_append, List.nil_append, List.map_cons, List.map_nil,
      List.sum_cons, List.sum_nil, reduceCtorEq, and_false, and_true, if_false]
    unfold maxInt64
    split <;> split <;> omega

/-- The sale is cancelled at its price. -/
theorem metadex_cancels_exact_sale : MdReserveOk restingMarket ∧
    wp (metaDExCancelAtPrice 9 20 (cancelOrder traderA 4 10 1 20))
      (CancelsOrders 9 20 traderA (AtPrice traderA 4 1 (((20 : Int) : ℚ) / (10 : Int))) restingMarket)
      (fun _ _ => False) restingMarket :=
  ⟨restingMarket_ok, (metadex_cancels_exact 9 20 traderA restingMarket_ok).1 4 10 1 20⟩

end OmniCore
