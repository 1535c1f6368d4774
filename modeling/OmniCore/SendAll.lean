import OmniCore.ContractCancel
import OmniCore.Lib.Listing
import OmniCore.Supply
import OmniCore.TallyIteration

/-! # SendAll — everything of one ecosystem to one address

    The balances of the sender are moved property by property, and each move leaves a
    numbered record. Properties of the other ecosystem are left out by two tests that
    ask for ecosystem 1 or 2, and nothing asks for one of these first: with any other byte
    both ecosystems are moved. -/

namespace OmniCore

open Std (ExtTreeMap)
open Machine TextRec MapSum Exec

/-! ## The transaction -/

/-- `PKT_ERROR_SEND_ALL`. -/
def pktErrorSendAll : Int := -83000

/-- The key of a numbered record. -/
def sendAllKey (txid : Txid) (subRecordNumber : Int) : Text :=
  txidText txid ++ '-' :: decInt subRecordNumber

/-- Its value. -/
def sendAllText (propertyId : PropertyId) (nValue : Int) : Text :=
  joinWith ':' [decNat propertyId, decInt nValue]

/-- `CMPTxList::recordSendAllSubRecord`. -/
def recordSendAllSubRecord (txid : Txid) (subRecordNumber : Int) (propertyId : PropertyId)
    (nValue : Int) : ExecM Unit :=
  modify fun s => { s with
    txList := s.txList.insert (sendAllKey txid subRecordNumber) (sendAllText propertyId nValue) }

/-- The body of the loop over the sender's records, with the number of properties sent. -/
def sendAllProperty (tx : CMPTransaction) (receiver : Address) (numberOfPropertiesSent : Int)
    (propertyId : PropertyId) : ExecM Int := do
  let s ← get
  -- only transfer tokens in the specified ecosystem
  if tx.ecosystem.toNat = omniPropertyMSC ∧ isTestEcosystemProperty propertyId then
    pure numberOfPropertiesSent
  else if tx.ecosystem.toNat = omniPropertyTMSC ∧ isMainEcosystemProperty propertyId then
    pure numberOfPropertiesSent
  -- do not transfer tokens from a frozen property
  else if s.isAddressFrozen tx.sender propertyId then
    pure numberOfPropertiesSent
  else
    let moneyAvailable := s.tallyMap.money tx.sender propertyId .balance
    if 0 < moneyAvailable then do
      assertUpdate tx.sender propertyId (-moneyAvailable) .balance
      assertUpdate receiver propertyId moneyAvailable .balance
      recordSendAllSubRecord tx.txid (numberOfPropertiesSent + 1) propertyId moneyAvailable
      pure (numberOfPropertiesSent + 1)
    else
      pure numberOfPropertiesSent

/-- `CMPTally::next` in a tally that may have changed since the last call: the property at the
    iterator, and the record behind it. -/
def CMPTally.nextRecord (t : CMPTally) : Option PropertyId → PropertyId × Option PropertyId
  | none => (0, none)
  | some p => (p, t.init.2.find? fun q => decide (p < q))

/-- The loop from the iterator `it`. Every step looks at the tally as the moves before have left it. -/
def sendAllWalk (tx : CMPTransaction) (receiver : Address) : Nat → Option PropertyId → Int → ExecM Int
  | 0, _, _ => throw .outOfFuel
  | fuel + 1, it, numberOfPropertiesSent => do
      let s ← get
      let step := (s.tallyMap.tallyOf tx.sender).nextRecord it
      if step.1 = 0 then
        pure numberOfPropertiesSent
      else do
        let numberOfPropertiesSent ← sendAllProperty tx receiver numberOfPropertiesSent step.1
        sendAllWalk tx receiver fuel step.2 numberOfPropertiesSent

/-- `logicMath_SendAll`, with the `nNewValue` it leaves. The loop makes no new record in the tally
    that is walked over, so that it ends after as many steps as there are records. -/
def logicMathSendAll (tx : CMPTransaction) : ExecM (Int × Int) := do
  let s ← get
  if !s.params.isTransactionTypeAllowed tx.block tx.ecosystem.toNat tx.type.toNat
      tx.version.toNat then
    pure (pktErrorSendAll - 22, tx.nNewValue.toNat)
  else
    -- if can't find the receiver -- assume send to self!
    let receiver := tx.receiver.getD tx.sender
    match s.tallyMap[tx.sender]? with
    | none => pure (pktErrorSendAll - 54, tx.nNewValue.toNat)
    | some ptally => do
        let numberOfPropertiesSent ←
          sendAllWalk tx receiver (ptally.mpToken.size + 1) ptally.init.2.head? 0
        if numberOfPropertiesSent = 0 then
          pure (pktErrorSendAll - 55, tx.nNewValue.toNat)
        else
          pure (0, numberOfPropertiesSent)

/-! ## What is expected -/

/-- A balance the transaction is to move: of its ecosystem and not frozen. -/
def CMPTransaction.Sends (tx : CMPTransaction) (s : State) (p : PropertyId) : Prop :=
  InEcosystem tx.ecosystem.toNat p ∧ s.isAddressFrozen tx.sender p = false

instance (tx : CMPTransaction) (s : State) (p : PropertyId) : Decidable (tx.Sends s p) :=
  inferInstanceAs (Decidable (_ ∧ _))

/-- **ONE ECOSYSTEM IS MOVED**: the whole balance of each of its properties goes to the receiver, and
    nothing else changes but one record for each property that was moved. -/
structure MovesEcosystem (tx : CMPTransaction) (nNewValue : Int) (s s' : State) : Prop where
  ecosystem : tx.ecosystem.toNat = omniPropertyMSC ∨ tx.ecosystem.toNat = omniPropertyTMSC
  money : ∀ a p t, s'.tallyMap.money a p t = s.tallyMap.money a p t
    - (if a = tx.sender ∧ t = .balance ∧ tx.Sends s p then s.tallyMap.money tx.sender p .balance
      else 0)
    + (if a = tx.receiver.getD tx.sender ∧ t = .balance ∧ tx.Sends s p then
      s.tallyMap.money tx.sender p .balance else 0)
  records : ∃ moved : List PropertyId, moved.Nodup ∧
    (∀ p, p ∈ moved ↔ tx.Sends s p ∧ 0 < s.tallyMap.money tx.sender p .balance) ∧
    nNewValue = moved.length ∧
    (∀ (i : Nat) p, moved[i]? = some p → s'.txList[sendAllKey tx.txid (i + 1)]? =
      some (sendAllText p (s.tallyMap.money tx.sender p .balance))) ∧
    ∀ key : Text, (∀ i < moved.length, key ≠ sendAllKey tx.txid (i + 1)) → s'.txList[key]? = s.txList[key]?
  rest : s' = { s with tallyMap := s'.tallyMap, txList := s'.txList }

/-! ## The loop -/

/-- A record that the loop does not pass over. -/
def CMPTransaction.movesRecord (tx : CMPTransaction) (s : State) (p : PropertyId) : Bool :=
  !(decide (tx.ecosystem.toNat = omniPropertyMSC) && isTestEcosystemProperty p)
    && !(decide (tx.ecosystem.toNat = omniPropertyTMSC) && isMainEcosystemProperty p)
    && !s.isAddressFrozen tx.sender p && decide (0 < s.tallyMap.money tx.sender p .balance)

/-- The numbered records of some moves. -/
def putSubRecords (txid : Txid) : Int → List (PropertyId × Int) → TextDB → TextDB
  | _, [], db => db
  | n, e :: rest, db =>
      putSubRecords txid (n + 1) rest (db.insert (sendAllKey txid (n + 1)) (sendAllText e.1 e.2))

/-- What the loop does to the records it moves. -/
structure SentEach (tx : CMPTransaction) (receiver : Address) (n : Int) (moved : List PropertyId)
    (s s' : State) : Prop where
  money : ∀ a p t, s'.tallyMap.money a p t = s.tallyMap.money a p t
    - (if a = tx.sender ∧ t = .balance ∧ p ∈ moved then s.tallyMap.money tx.sender p .balance else 0)
    + (if a = receiver ∧ t = .balance ∧ p ∈ moved then s.tallyMap.money tx.sender p .balance else 0)
  txList : s'.txList =
    putSubRecords tx.txid n (moved.map fun p => (p, s.tallyMap.money tx.sender p .balance)) s.txList
  rest : s' = { s with tallyMap := s'.tallyMap, txList := s'.txList }

/-- One record: it is moved, or nothing happens. -/
theorem sendAllProperty_spec (tx : CMPTransaction) (receiver : Address) (n : Int) (p : PropertyId)
    (s : State) :
    wp (sendAllProperty tx receiver n p)
      (fun n' s' => if tx.movesRecord s p then n' = n + 1 ∧ SentEach tx receiver n [p] s s'
        else n' = n ∧ s' = s) (fun _ _ => True) s := by
  unfold sendAllProperty CMPTransaction.movesRecord
  rw [wp_bind, wp_get, wp_ite]
  refine ⟨fun hother => ?_, fun hmain => ?_⟩
  · rw [wp_pure, if_neg (by simp [hother.1, hother.2])]
    exact ⟨rfl, rfl⟩
  rw [wp_ite]
  refine ⟨fun hother => ?_, fun htest => ?_⟩
  · rw [wp_pure, if_neg (by simp [hother.1, hother.2])]
    exact ⟨rfl, rfl⟩
  rw [wp_ite]
  refine ⟨fun hfrozen => ?_, fun hfree => ?_⟩
  · rw [wp_pure, if_neg (by simp [hfrozen])]
    exact ⟨rfl, rfl⟩
  dsimp only
  rw [wp_ite]
  refine ⟨fun hpos => ?_, fun hzero => ?_⟩
  · have hmoves : (!(decide (tx.ecosystem.toNat = omniPropertyMSC) && isTestEcosystemProperty p)
        && !(decide (tx.ecosystem.toNat = omniPropertyTMSC) && isMainEcosystemProperty p)
        && !s.isAddressFrozen tx.sender p
        && decide (0 < s.tallyMap.money tx.sender p .balance)) = true := by
      rw [Bool.and_eq_true, Bool.and_eq_true, Bool.and_eq_true, Bool.not_eq_true',
        Bool.not_eq_true', Bool.not_eq_true', decide_eq_true_eq, ← Bool.not_eq_true,
        ← Bool.not_eq_true, Bool.and_eq_true, Bool.and_eq_true, decide_eq_true_eq,
        decide_eq_true_eq]
      exact ⟨⟨⟨hmain, htest⟩, by simpa using hfree⟩, hpos⟩
    simp only [hmoves, if_true]
    rw [wp_bind]
    refine wp_assertUpdate (fun _ m₁ hdebit => ?_) fun _ _ _ _ => trivial
    rw [wp_bind]
    refine wp_assertUpdate (fun _ m₂ hcredit => ?_) fun _ _ _ _ => trivial
    unfold recordSendAllSubRecord
    rw [wp_bind, wp_modify, wp_pure]
    refine ⟨rfl, ?_, rfl, rfl⟩
    intro a q t
    show m₂.money a q t = _
    rw [hcredit.money, State.withTally_tallyMap, hdebit.money]
    simp only [List.mem_singleton]
    by_cases hq : q = p
    · subst hq
      simp only [true_and, and_true]
      split_ifs <;> omega
    · simp only [hq, false_and, and_false, if_false]
      omega
  · rw [wp_pure, if_neg (by simp [not_lt.mp hzero])]
    exact ⟨rfl, rfl⟩

/-- An asserted update makes at most the record it is for. -/
theorem assertUpdate_records (who : Address) (p : PropertyId) (amount : Int) (ty : TallyType)
    (s : State) :
    wp (assertUpdate who p amount ty)
      (fun _ s' => ∀ a q, s'.tallyMap.HasRecord a q ↔
        s.tallyMap.HasRecord a q ∨ (a = who ∧ q = p ∧ amount ≠ 0)) (fun _ _ => True) s := by
  unfold assertUpdate
  rw [wp_bind]
  refine wp_imp (updateTallyMap_records who p amount ty s) fun ok s' hrec => ?_
  rw [wp_assertThat]
  exact ⟨fun _ => hrec, fun _ => trivial⟩

/-- A step makes no record in the tally of the sender, not even when
    the sender is the receiver. -/
theorem sendAllProperty_records {tx : CMPTransaction} (receiver : Address) {p : PropertyId} {s : State}
    (hp : s.tallyMap.HasRecord tx.sender p) (n : Int) :
    wp (sendAllProperty tx receiver n p)
      (fun _ s' => ∀ q, s'.tallyMap.HasRecord tx.sender q ↔ s.tallyMap.HasRecord tx.sender q)
      (fun _ _ => True) s := by
  unfold sendAllProperty
  simp only [wp_bind, wp_get, wp_ite, wp_pure, implies_true, true_and]
  refine fun _ _ _ => ⟨fun _ => ?_, trivial⟩
  refine wp_imp (assertUpdate_records tx.sender p _ .balance s) fun _ s₁ hdebit => ?_
  refine wp_imp (assertUpdate_records receiver p _ .balance s₁) fun _ s₂ hcredit => ?_
  unfold recordSendAllSubRecord
  rw [wp_modify]
  intro q
  show s₂.tallyMap.HasRecord tx.sender q ↔ _
  rw [hcredit, hdebit]
  constructor
  · rintro ((hrec | ⟨_, rfl, _⟩) | ⟨_, rfl, _⟩)
    · exact hrec
    · exact hp
    · exact hp
  · exact fun hrec => Or.inl (Or.inl hrec)

/-- Tallies with the same records are walked over in the same way. -/
theorem CMPTally.init_congr {t t' : CMPTally} (h : ∀ q, t'.HasRecord q ↔ t.HasRecord q) :
    t'.init.2 = t.init.2 := by
  have hsorted : ∀ t : CMPTally, t.init.2.Pairwise (· < ·) := fun t =>
    (pairwise_keys t.mpToken).imp Nat.compare_eq_lt.mp
  refine List.Perm.eq_of_pairwise (fun a b _ _ hab hba => absurd hab hba.asymm) (hsorted t')
    (hsorted t) ?_
  refine (List.perm_ext_iff_of_nodup t'.nodup_records t.nodup_records).mpr fun q => ?_
  rw [← t'.hasRecord_iff, ← t.hasRecord_iff, h]

/-- The iterator goes to the next record. -/
theorem CMPTally.nextRecord_eq {t : CMPTally} {done rest : List PropertyId} {p : PropertyId}
    (h : t.init.2 = done ++ p :: rest) : t.nextRecord (some p) = (p, rest.head?) := by
  have hsorted : t.init.2.Pairwise (· < ·) := (pairwise_keys t.mpToken).imp Nat.compare_eq_lt.mp
  rw [h, List.pairwise_append, List.pairwise_cons] at hsorted
  obtain ⟨-, ⟨hrest, -⟩, hdone⟩ := hsorted
  have hbefore : done.find? (fun q => decide (p < q)) = none := by
    refine List.find?_eq_none.mpr fun q hq => ?_
    have hlt := hdone q hq p List.mem_cons_self
    rw [decide_eq_true_eq]
    exact hlt.asymm
  have hbehind : rest.find? (fun q => decide (p < q)) = rest.head? := by
    cases rest with
    | nil => rfl
    | cons q rest => exact List.find?_cons_of_pos (decide_eq_true (hrest q List.mem_cons_self))
  show (p, t.init.2.find? fun q => decide (p < q)) = _
  rw [h, List.find?_append, hbefore, Option.none_or,
    List.find?_cons_of_neg (by simp), hbehind]

/-- **THE WALK IS NOT DISTURBED**: the loop sees the records that were there when it started, and ends
    after the last one or before the one of property 0. -/
theorem sendAllWalk_eq {tx : CMPTransaction} {receiver : Address} (rest : List PropertyId) :
    ∀ (done : List PropertyId) (n : Int) (s : State),
      (s.tallyMap.tallyOf tx.sender).init.2 = done ++ rest →
      sendAllWalk tx receiver (rest.length + 1) rest.head? n s =
        (rest.takeWhile (· != 0)).foldlM (sendAllProperty tx receiver) n s := by
  induction rest with
  | nil =>
      intro _ _ _ _
      rfl
  | cons p rest ih =>
      intro done n s hrecords
      have hstep : sendAllWalk tx receiver ((p :: rest).length + 1) (some p) n s =
          (if p = 0 then pure n else do
            let n ← sendAllProperty tx receiver n p
            sendAllWalk tx receiver (rest.length + 1) rest.head? n : ExecM Int) s := by
        show (if ((s.tallyMap.tallyOf tx.sender).nextRecord (some p)).1 = 0 then _ else _ : ExecM Int)
          s = _
        rw [CMPTally.nextRecord_eq hrecords]
        rfl
      rw [List.head?_cons, hstep]
      by_cases hp : p = 0
      · rw [if_pos hp, List.takeWhile_cons_of_neg (by simp [hp])]
        rfl
      · rw [if_neg hp, List.takeWhile_cons_of_pos (by simp [hp]), List.foldlM_cons]
        have hrecord : s.tallyMap.HasRecord tx.sender p := by
          refine (CMPTally.hasRecord_iff _ p).mpr ?_
          show p ∈ (s.tallyMap.tallyOf tx.sender).init.2
          rw [hrecords]
          exact List.mem_append_right _ List.mem_cons_self
        have hkeeps := sendAllProperty_records receiver hrecord n
        simp only [bind, EStateM.bind]
        cases hrun : sendAllProperty tx receiver n p s with
        | error e s' => rfl
        | ok n' s' =>
            refine ih (done ++ [p]) n' s' ?_
            rw [CMPTally.init_congr (wp_ok hkeeps hrun), hrecords, List.append_assoc]
            rfl

/-- The loop of a transaction goes over what `next()` finds from the first record on. -/
theorem sendAllWalk_visited (tx : CMPTransaction) (receiver : Address) (n : Int) (s : State) :
    sendAllWalk tx receiver ((s.tallyMap.tallyOf tx.sender).mpToken.size + 1)
        (s.tallyMap.tallyOf tx.sender).init.2.head? n s =
      (s.tallyMap.tallyOf tx.sender).visited.foldlM (sendAllProperty tx receiver) n s := by
  have hsize : (s.tallyMap.tallyOf tx.sender).mpToken.size =
      (s.tallyMap.tallyOf tx.sender).init.2.length := by
    unfold CMPTally.init
    simp
  have hwalk : sendAllWalk tx receiver ((s.tallyMap.tallyOf tx.sender).init.2.length + 1)
      (s.tallyMap.tallyOf tx.sender).init.2.head? n s =
        ((s.tallyMap.tallyOf tx.sender).init.2.takeWhile (· != 0)).foldlM
          (sendAllProperty tx receiver) n s :=
    sendAllWalk_eq (s.tallyMap.tallyOf tx.sender).init.2 [] n s (List.nil_append _).symm
  rw [hsize, hwalk, CMPTally.visited_eq]
  rfl

/-- Moves one after the other, of different properties. -/
theorem SentEach.trans {tx : CMPTransaction} {receiver : Address} {n : Int} {p : PropertyId}
    {moved : List PropertyId} {s s₁ s₂ : State} (h : SentEach tx receiver n [p] s s₁)
    (h' : SentEach tx receiver (n + 1) moved s₁ s₂) (hp : p ∉ moved) :
    SentEach tx receiver n (p :: moved) s s₂ := by
  -- the first move leaves the other properties alone
  have hother : ∀ a q t, q ≠ p → s₁.tallyMap.money a q t = s.tallyMap.money a q t := by
    intro a q t hq
    rw [h.money]
    simp [hq]
  have hmap : (moved.map fun q => (q, s₁.tallyMap.money tx.sender q .balance)) =
      moved.map fun q => (q, s.tallyMap.money tx.sender q .balance) := by
    refine List.map_congr_left fun q hq => ?_
    rw [hother _ _ _ (ne_of_mem_of_not_mem hq hp)]
  refine ⟨?_, ?_, ?_⟩
  · intro a q t
    rw [h'.money]
    by_cases hq : q = p
    · subst hq
      rw [h.money]
      simp [hp]
    · rw [hother _ _ _ hq, hother _ _ _ hq]
      simp [hq]
  · rw [h'.txList, h.txList, hmap]
    rfl
  · rw [h'.rest, h.rest]

/-- **THE LOOP** moves the records it does not pass over, each once. -/
theorem sendAllLoop_spec {tx : CMPTransaction} {receiver : Address} {records : List PropertyId}
    (hnodup : records.Nodup) (n : Int) (s : State) :
    wp (records.foldlM (sendAllProperty tx receiver) n)
      (fun n' s' => n' = n + (records.filter (tx.movesRecord s)).length ∧
        SentEach tx receiver n (records.filter (tx.movesRecord s)) s s') (fun _ _ => True) s := by
  induction records generalizing n s with
  | nil =>
      rw [List.foldlM_nil, wp_pure]
      refine ⟨by simp, ?_, rfl, rfl⟩
      intro a p t
      simp
  | cons p rest ih =>
      obtain ⟨hp, hrest⟩ := List.nodup_cons.mp hnodup
      rw [List.foldlM_cons, wp_bind]
      refine wp_imp (sendAllProperty_spec tx receiver n p s) ?_
      intro n₁ s₁ hstep
      by_cases hmoves : tx.movesRecord s p = true
      · rw [if_pos hmoves] at hstep
        obtain ⟨rfl, hsent⟩ := hstep
        -- the records that follow are moved or passed over as before
        have hsame : rest.filter (tx.movesRecord s₁) = rest.filter (tx.movesRecord s) := by
          refine List.filter_congr fun q hq => ?_
          have hne : q ≠ p := ne_of_mem_of_not_mem hq hp
          have hmoney : s₁.tallyMap.money tx.sender q .balance =
              s.tallyMap.money tx.sender q .balance := by
            rw [hsent.money]
            simp [hne]
          have hfrozen : s₁.isAddressFrozen tx.sender q = s.isAddressFrozen tx.sender q := by
            rw [hsent.rest]
            rfl
          unfold CMPTransaction.movesRecord
          rw [hmoney, hfrozen]
        refine wp_imp (ih hrest (n + 1) s₁) ?_
        intro n₂ s₂ ⟨hcount, hrestSent⟩
        rw [hsame] at hcount hrestSent
        rw [List.filter_cons_of_pos hmoves, List.length_cons]
        refine ⟨by push_cast; omega, hsent.trans hrestSent fun hmem => hp ?_⟩
        exact List.mem_of_mem_filter hmem
      · rw [if_neg hmoves] at hstep
        obtain ⟨rfl, rfl⟩ := hstep
        rw [List.filter_cons_of_neg hmoves]
        exact ih hrest n₁ s₁

/-! ## The numbered records -/

theorem sendAllKey_injective (txid : Txid) : Function.Injective (sendAllKey txid) := by
  intro n m h
  exact decInt_injective (List.cons.inj (List.append_cancel_left h)).2

/-- Other entries of the database are left alone. -/
theorem getElem?_putSubRecords_of_ne {txid : Txid} {n : Int} {l : List (PropertyId × Int)} {key : Text}
    (h : ∀ i < l.length, key ≠ sendAllKey txid (n + i + 1)) (db : TextDB) :
    (putSubRecords txid n l db)[key]? = db[key]? := by
  induction l generalizing n db with
  | nil => rfl
  | cons e rest ih =>
      have hfirst : key ≠ sendAllKey txid (n + 1) := by
        have := h 0 (Nat.zero_lt_succ _)
        rwa [Nat.cast_zero, add_zero] at this
      rw [putSubRecords, ih, getElem?_insert_eq, if_neg (Ne.symm hfirst)]
      intro i hi
      have hnext := h (i + 1) (Nat.succ_lt_succ hi)
      have hindex : n + 1 + (i : Int) + 1 = n + ((i + 1 : Nat) : Int) + 1 := by
        push_cast
        omega
      rwa [hindex]

/-- Each record is found under its number. -/
theorem getElem?_putSubRecords (txid : Txid) (n : Int) {l : List (PropertyId × Int)} {i : Nat}
    {e : PropertyId × Int} (h : l[i]? = some e) (db : TextDB) :
    (putSubRecords txid n l db)[sendAllKey txid (n + i + 1)]? = some (sendAllText e.1 e.2) := by
  induction l generalizing n i db with
  | nil => cases h
  | cons first rest ih =>
      cases i with
      | zero =>
          cases h
          -- later records have larger numbers
          rw [putSubRecords, getElem?_putSubRecords_of_ne, getElem?_insert_eq, if_pos (by simp)]
          intro i _ heq
          have := sendAllKey_injective txid heq
          omega
      | succ i =>
          have hindex : n + ((i + 1 : Nat) : Int) + 1 = n + 1 + (i : Int) + 1 := by
            push_cast
            omega
          rw [putSubRecords, hindex]
          exact ih (n + 1) h _

/-! ## What is sent -/

/-- With ecosystem 1 or 2, the loop passes over what it is not to move. -/
theorem movesRecord_iff {tx : CMPTransaction} {s : State} {p : PropertyId} (hp : p ≠ 0)
    (heco : tx.ecosystem.toNat = omniPropertyMSC ∨ tx.ecosystem.toNat = omniPropertyTMSC) :
    tx.movesRecord s p = true ↔ tx.Sends s p ∧ 0 < s.tallyMap.money tx.sender p .balance := by
  have hmain : isMainEcosystemProperty p = !isTestEcosystemProperty p := by
    have hbtc : (p != omniPropertyBTC) = true := bne_iff_ne.mpr hp
    unfold isMainEcosystemProperty
    rw [hbtc, Bool.true_and]
  unfold CMPTransaction.movesRecord CMPTransaction.Sends InEcosystem
  rcases heco with heco | heco
  · simp [heco, hmain, omniPropertyMSC, omniPropertyTMSC]
  · simp [heco, hmain, omniPropertyMSC, omniPropertyTMSC]

/-- A transaction that returns 0 has moved every record that the loop does not pass over. -/
theorem logicMathSendAll_spec (tx : CMPTransaction) (s : State) :
    wp (logicMathSendAll tx) (fun r s' => r.1 = 0 →
      ∃ moved, moved = ((s.tallyMap.tallyOf tx.sender).visited).filter (tx.movesRecord s) ∧
        moved ≠ [] ∧ r.2 = moved.length ∧ SentEach tx (tx.receiver.getD tx.sender) 0 moved s s')
      (fun _ _ => True) s := by
  unfold logicMathSendAll
  rw [wp_bind, wp_get, wp_ite]
  refine ⟨fun _ => (wp_pure _ _ _ _).mpr fun h => absurd h (by dsimp only; decide), fun _ => ?_⟩
  dsimp only
  split
  · exact (wp_pure _ _ _ _).mpr fun h => absurd h (by dsimp only; decide)
  · next ptally hptally =>
      have htally : s.tallyMap.tallyOf tx.sender = ptally := by
        unfold TallyMap.tallyOf
        rw [hptally]
        rfl
      have hwalk := sendAllWalk_visited tx (tx.receiver.getD tx.sender) 0 s
      rw [htally] at hwalk
      rw [wp_bind, wp_congr hwalk]
      refine wp_imp (sendAllLoop_spec ptally.nodup_visited 0 s) ?_
      rintro n s' ⟨hn, hsent⟩
      rw [zero_add] at hn
      rw [wp_ite]
      refine ⟨fun _ => (wp_pure _ _ _ _).mpr fun h => absurd h (by dsimp only; decide), fun hne => ?_⟩
      rw [wp_pure]
      intro _
      refine ⟨_, rfl, ?_, by rw [htally]; exact hn, by rw [htally]; exact hsent⟩
      rw [htally]
      intro hnil
      rw [hnil] at hn
      exact hne hn

/-- **WHEN ONE ECOSYSTEM IS MOVED**: just if the ecosystem of the transaction is 1 or 2. -/
theorem movesEcosystem_iff {tx : CMPTransaction} {nNewValue : Int} {s s' : State}
    (hrun : logicMathSendAll tx s = .ok (0, nNewValue) s') :
    MovesEcosystem tx nNewValue s s' ↔
      tx.ecosystem.toNat = omniPropertyMSC ∨ tx.ecosystem.toNat = omniPropertyTMSC := by
  refine ⟨fun h => h.ecosystem, fun heco => ?_⟩
  have hspec := wp_ok (logicMathSendAll_spec tx s) hrun
  obtain ⟨moved, hmoved, hne, hcount, hsent⟩ := hspec rfl
  have hvisited : (s.tallyMap.tallyOf tx.sender).visited ≠ [] := by
    rintro hnil
    rw [hnil] at hmoved
    exact hne hmoved
  have hzero : ¬ (s.tallyMap.tallyOf tx.sender).HasRecord 0 :=
    fun hzero => hvisited (CMPTally.visited_of_zero hzero)
  -- what was moved is what was to be moved
  have hmem : ∀ p, p ∈ moved ↔ tx.Sends s p ∧ 0 < s.tallyMap.money tx.sender p .balance := by
    intro p
    rw [hmoved, List.mem_filter]
    constructor
    · rintro ⟨hseen, hmoves⟩
      have hrecord := CMPTally.hasRecord_of_visited hseen
      have hp : p ≠ 0 := by
        rintro rfl
        exact hzero hrecord
      exact (movesRecord_iff hp heco).mp hmoves
    · rintro ⟨hsends, hpos⟩
      have hrecord : (s.tallyMap.tallyOf tx.sender).HasRecord p :=
        CMPTally.hasRecord_of_money hpos.ne'
      have hp : p ≠ 0 := by
        rintro rfl
        exact hzero hrecord
      exact ⟨(CMPTally.mem_visited hzero).mpr hrecord, (movesRecord_iff hp heco).mpr ⟨hsends, hpos⟩⟩
  have hwhole : ∀ (c : Prop) [Decidable c] (p : PropertyId),
      (if c ∧ p ∈ moved then s.tallyMap.money tx.sender p .balance else 0) =
        if c ∧ tx.Sends s p then s.tallyMap.money tx.sender p .balance else 0 := by
    intro c _ p
    have hnonneg := s.tallyMap.money_nonneg tx.sender p (show TallyType.balance ≠ .pending by decide)
    by_cases hc : c
    · by_cases hsends : tx.Sends s p
      · by_cases hpos : 0 < s.tallyMap.money tx.sender p .balance
        · rw [if_pos ⟨hc, (hmem p).mpr ⟨hsends, hpos⟩⟩, if_pos ⟨hc, hsends⟩]
        · rw [if_neg fun h => hpos ((hmem p).mp h.2).2, if_pos ⟨hc, hsends⟩]
          omega
      · rw [if_neg fun h => hsends ((hmem p).mp h.2).1, if_neg fun h => hsends h.2]
    · rw [if_neg fun h => hc h.1, if_neg fun h => hc h.1]
  refine ⟨heco, ?_, ⟨moved, ?_, hmem, hcount, ?_, ?_⟩, hsent.rest⟩
  · intro a p t
    rw [hsent.money]
    simp only [← and_assoc]
    rw [hwhole, hwhole]
  · rw [hmoved]
    exact (CMPTally.nodup_visited _).filter _
  · intro i p hi
    have hsum : (moved.map fun p => (p, s.tallyMap.money tx.sender p .balance))[i]? =
        some (p, s.tallyMap.money tx.sender p .balance) := by
      rw [List.getElem?_map, hi]
      rfl
    have hentry := getElem?_putSubRecords tx.txid 0 hsum s.txList
    rw [zero_add] at hentry
    rw [hsent.txList]
    exact hentry
  · intro key hkey
    rw [hsent.txList]
    refine getElem?_putSubRecords_of_ne ?_ _
    rw [List.length_map]
    intro i hi
    rw [zero_add]
    exact hkey i hi

/-- `A` sends everything of an ecosystem to `B`. -/
def sendAllTx (ecosystem : UInt8) : CMPTransaction :=
  { txid := 1, block := 10, txIdx := 1, sender := traderA, receiver := some traderB, type := 4,
    ecosystem := ecosystem }

/-- `A` holds 100 of property 1 and 50 of property 2, of the other ecosystem. -/
def bothEcosystems : State :=
  (State.fresh openParams).withTally
    (TallyMap.update (TallyMap.update ∅ traderA 1 100 .balance).2 traderA 2 50 .balance).2

set_option maxRecDepth 4000 in
/-- With ecosystem 1, property 1 goes to `B`. -/
theorem mainEcosystem_moved :
    ∃ s', logicMathSendAll (sendAllTx 1) bothEcosystems = .ok (0, 1) s' ∧
      MovesEcosystem (sendAllTx 1) 1 bothEcosystems s' := by
  have hvalue : value (logicMathSendAll (sendAllTx 1)) bothEcosystems = some (0, 1) := by
    decide +kernel
  have hrun := eq_ok_of_value hvalue
  exact ⟨_, hrun, (movesEcosystem_iff hrun).mpr (Or.inl (by decide))⟩

set_option maxRecDepth 4000 in
/-- With ecosystem 3, both properties go to `B`, and the transaction is accepted. -/
theorem strangeEcosystem_movesBoth :
    (∃ s', logicMathSendAll (sendAllTx 3) bothEcosystems = .ok (0, 2) s' ∧
      s'.tallyMap.money traderB 1 .balance = 100 ∧ s'.tallyMap.money traderB 2 .balance = 50) ∧
    ¬ ∀ (tx : CMPTransaction) (nNewValue : Int) (s s' : State),
      logicMathSendAll tx s = .ok (0, nNewValue) s' → MovesEcosystem tx nNewValue s s' := by
  have hvalue : value (logicMathSendAll (sendAllTx 3)) bothEcosystems = some (0, 2) := by
    decide +kernel
  have hrun := eq_ok_of_value hvalue
  refine ⟨⟨_, hrun, by decide +kernel, by decide +kernel⟩, fun hall => ?_⟩
  have heco := (hall _ _ _ _ hrun).ecosystem
  revert heco
  decide

end OmniCore
