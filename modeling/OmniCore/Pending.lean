import OmniCore.ContractRun
import OmniCore.Reset

/-! # Pending — transactions of the wallet that are not in a block

    A pending transaction debits the `PENDING` balance of its sender, and it is credited back when
    it is deleted. Cancels are added without a debit, but deleted like the others. An insertion
    does not replace an entry, and the sweep over the entries deletes the one it stands on. -/

namespace OmniCore

open Std (ExtTreeMap)
open Machine TextRec MapSum Exec

/-! ## The three operations -/

/-- `PendingAdd`. -/
def pendingAdd (txid : Txid) (sendingAddress : Address) (type : Nat) (propertyId : PropertyId)
    (amount : Int) (fSubtract : Bool) : ExecM Unit := do
  let added ←
    if fSubtract then updateTallyMap sendingAddress propertyId (-amount) .pending else pure true
  if added then
    let pending : CMPPending :=
      { src := sendingAddress, prop := propertyId, amount := amount, type := type }
    modify fun s => { s with pending := s.pending.insertIfNew txid pending }

/-- `PendingDelete`. -/
def pendingDelete (txid : Txid) : ExecM Unit := do
  let s ← get
  match s.pending[txid]? with
  | none => pure ()
  | some pending =>
      let srcAmount := s.getMPbalance pending.src pending.prop .pending
      if srcAmount ≠ 0 then
        let _ ← updateTallyMap pending.src pending.prop pending.amount .pending
      modify fun s => { s with pending := s.pending.erase txid }

/-- The loop of `PendingCheck` over the keys it still has to visit. -/
def pendingCheckLoop (vecMemPoolTxids : List Txid) : List Txid → ExecM Unit
  | [] => pure ()
  | txid :: rest =>
      if txid ∈ vecMemPoolTxids then pendingCheckLoop vecMemPoolTxids rest
      else do
        pendingDelete txid
        -- the iterator stands on the erased entry, and is advanced
        throw .undefinedBehaviour

/-- `PendingCheck`, with the hashes that the mempool was asked for. -/
def pendingCheck (vecMemPoolTxids : List Txid) : ExecM Unit := do
  let s ← get
  pendingCheckLoop vecMemPoolTxids (s.pending.toList.map Prod.fst)

/-! ## Runs -/

/-- A call of one of the operations. -/
inductive PendingCall
  | add (txid : Txid) (sendingAddress : Address) (type : Nat) (propertyId : PropertyId)
      (amount : { n : Int // 0 ≤ n ∧ n ≤ maxInt64 }) (fSubtract : Bool)
  | delete (txid : Txid)
  | check (vecMemPoolTxids : List Txid)

/-- The flag with which the entry of a transaction was added. -/
abbrev Subtracted := Txid → Bool

namespace PendingCall

def run : PendingCall → ExecM Unit
  | add txid sendingAddress type propertyId amount fSubtract =>
      pendingAdd txid sendingAddress type propertyId amount fSubtract
  | delete txid => pendingDelete txid
  | check vecMemPoolTxids => pendingCheck vecMemPoolTxids

/-- The flags of the entries after a call: an entry that was there keeps its flag. -/
def flags (s : State) (sub : Subtracted) : PendingCall → Subtracted
  | add txid _ _ _ _ fSubtract =>
      if s.pending[txid]?.isSome then sub else Function.update sub txid fSubtract
  | delete _ => sub
  | check _ => sub

/-- What a check is to do: exactly the entries outside of the mempool go. -/
def Sweeps (s s' : State) : PendingCall → Prop
  | check vecMemPoolTxids =>
      ∀ txid, s'.pending[txid]? = if txid ∈ vecMemPoolTxids then s.pending[txid]? else none
  | _ => True

/-- The condition on a call: a debit that goes through is for a new transaction, a credit is for a
    debit, and a check finds nothing to delete. -/
def Fits (s : State) (sub : Subtracted) : PendingCall → Prop
  | add txid sendingAddress _ propertyId amount fSubtract =>
      fSubtract = true → CanUpdate s sendingAddress propertyId (-amount) .pending →
        s.pending[txid]? = none
  | delete txid => ∀ e, s.pending[txid]? = some e → sub txid = false →
      e.amount = 0 ∨ s.tallyMap.money e.src e.prop .pending = 0
  | check vecMemPoolTxids => ∀ txid, s.pending[txid]? ≠ none → txid ∈ vecMemPoolTxids

end PendingCall

/-- The amounts of the entries of one address and property that were added with a debit. -/
def subtracted (m : ExtTreeMap Txid CMPPending) (sub : Subtracted) (a : Address) (p : PropertyId) :
    Int :=
  msum m fun txid e => if sub txid = true ∧ e.src = a ∧ e.prop = p then e.amount else 0

/-- The `PENDING` balances are those of the list, 0 where it has no entry with a debit. -/
structure PendingMatches (s : State) (sub : Subtracted) : Prop where
  tally : ∀ a p, s.tallyMap.money a p .pending = -subtracted s.pending sub a p
  settled : ∀ a p,
    (∀ txid e, s.pending[txid]? = some e → sub txid = true → e.src = a → e.prop ≠ p) →
    s.tallyMap.money a p .pending = 0

/-- **EVERY STATE MATCHES**: all calls return, and a check deletes exactly what it is to. -/
def PendingHolds (s : State) (sub : Subtracted) : List PendingCall → Prop
  | [] => PendingMatches s sub
  | c :: calls => PendingMatches s sub ∧
      ∃ s', c.run s = .ok () s' ∧ c.Sweeps s s' ∧ PendingHolds s' (c.flags s sub) calls

/-- All calls of a run fit the states in which they are made. -/
def PendingFits (s : State) (sub : Subtracted) : List PendingCall → Prop
  | [] => True
  | c :: calls => c.Fits s sub ∧ PendingFits (after c.run s) (c.flags s sub) calls

/-! ## The amounts of the list -/

/-- The flag of a transaction without an entry says nothing. -/
theorem subtracted_other {m : ExtTreeMap Txid CMPPending} {txid : Txid} (hnew : m[txid]? = none)
    (sub : Subtracted) (flag : Bool) (a : Address) (p : PropertyId) :
    subtracted m (Function.update sub txid flag) a p = subtracted m sub a p := by
  refine msum_congr fun k v hk => ?_
  have hne : k ≠ txid := by
    rintro rfl
    rw [hnew] at hk
    exact nomatch hk
  rw [Function.update_of_ne hne]

theorem subtracted_insert {m : ExtTreeMap Txid CMPPending} {txid : Txid} (hnew : m[txid]? = none)
    (e : CMPPending) (sub : Subtracted) (flag : Bool) (a : Address) (p : PropertyId) :
    subtracted (m.insert txid e) (Function.update sub txid flag) a p =
      subtracted m sub a p + if flag = true ∧ e.src = a ∧ e.prop = p then e.amount else 0 := by
  have hrest := subtracted_other hnew sub flag a p
  unfold subtracted at hrest ⊢
  rw [msum_insert_sub, hrest, hnew, Function.update_self]
  show _ + (_ - 0) = _
  rw [sub_zero]

theorem subtracted_erase {m : ExtTreeMap Txid CMPPending} {txid : Txid} {e : CMPPending}
    (he : m[txid]? = some e) (sub : Subtracted) (a : Address) (p : PropertyId) :
    subtracted (m.erase txid) sub a p = subtracted m sub a p -
      if sub txid = true ∧ e.src = a ∧ e.prop = p then e.amount else 0 := by
  unfold subtracted
  rw [msum_erase_sub, he]
  rfl

theorem insertIfNew_of_some {m : ExtTreeMap Txid CMPPending} {txid : Txid}
    (h : m[txid]? ≠ none) (e : CMPPending) : m.insertIfNew txid e = m := by
  refine ExtTreeMap.ext_getElem? fun k => ?_
  rw [ExtTreeMap.getElem?_insertIfNew]
  refine if_neg ?_
  rintro ⟨hk, hno⟩
  rw [ExtTreeMap.mem_iff_isSome_getElem?] at hno
  exact hno (Option.isSome_iff_ne_none.mpr h)

/-! ## One call -/

/-- **A PENDING BALANCE IS UPDATED** just if the sum is in range; the update never halts. -/
theorem updateTallyMap_pending (s : State) (who : Address) (p : PropertyId) (amount : Int) :
    ∃ ok m, updateTallyMap who p amount .pending s = .ok ok (s.withTally m) ∧
      (ok = true ↔ CanUpdate s who p amount .pending) ∧
      ∀ a q, m.money a q .pending = s.tallyMap.money a q .pending +
        if ok = true ∧ a = who ∧ q = p then amount else 0 := by
  have hcan : (s.tallyMap.update who p amount .pending).1 = true ↔
      CanUpdate s who p amount .pending := by
    refine ⟨fun h => ?_, update_fst_of_canUpdate⟩
    obtain ⟨h0, hrange, -⟩ :=
      ((s.tallyMap.tallyOf who).updateMoney_fst_iff p amount .pending).mp h
    exact ⟨h0, hrange, fun hno => absurd rfl hno, fun hno => TallyType.noConfusion hno⟩
  have hwp : wp (updateTallyMap who p amount .pending)
      (fun ok s' => ∃ m, s' = s.withTally m ∧ (ok = true ↔ CanUpdate s who p amount .pending) ∧
        ∀ a q, m.money a q .pending = s.tallyMap.money a q .pending +
          if ok = true ∧ a = who ∧ q = p then amount else 0) (fun _ _ => False) s := by
    unfold updateTallyMap
    simp only [wp_bind, wp_ite, wp_pure, wp_get, wp_set, wp_assertThat]
    refine ⟨fun h0 => ⟨s.tallyMap, rfl, ?_, fun a q => ?_⟩, fun _ => ⟨fun hno => ?_, fun _ => ?_⟩⟩
    · exact iff_of_false Bool.false_ne_true fun h => h.ne_zero h0
    · rw [if_neg fun h => Bool.false_ne_true h.1, add_zero]
    · exact TallyType.noConfusion hno.1
    · cases hok : (s.tallyMap.update who p amount .pending).1 with
      | true =>
          refine ⟨fun hno => Bool.noConfusion hno, fun _ => ⟨_, rfl, ?_, fun a q => ?_⟩⟩
          · exact iff_of_true rfl (hcan.mp hok)
          · rw [(credited_update hok).money]
            simp only [and_true, true_and]
      | false =>
          have hsame := money_update_of_false hok
          refine ⟨fun _ => ⟨fun _ => ⟨_, rfl, ?_, fun a q => ?_⟩, fun hno => ?_⟩,
            fun hno => absurd rfl hno⟩
          · exact iff_of_false Bool.false_ne_true fun h => by
              rw [hcan.mpr h] at hok
              exact Bool.noConfusion hok
          · rw [hsame, if_neg fun h => Bool.false_ne_true h.1, add_zero]
          · rw [State.getMPbalance_eq _ _ _ (by decide), State.getMPbalance_eq _ _ _ (by decide),
              State.withTally_tallyMap, hsame, beq_self_eq_true] at hno
            exact Bool.noConfusion hno
  obtain ⟨ok, s', hrun, m, rfl, hiff, hmoney⟩ := wp_returns hwp
  exact ⟨ok, m, hrun, hiff, hmoney⟩

/-- The state with another ledger and another list. -/
def State.withPending (s : State) (m : TallyMap) (l : ExtTreeMap Txid CMPPending) : State :=
  { s with tallyMap := m, pending := l }

/-- **AN ADDITION** is refused where its debit is, and it does not replace an entry. -/
theorem pendingAdd_run (s : State) (txid : Txid) (a : Address) (type : Nat) (p : PropertyId)
    (amount : Int) (fSubtract : Bool) :
    ∃ added m, pendingAdd txid a type p amount fSubtract s = .ok () (s.withPending m
        (if added then s.pending.insertIfNew txid ⟨a, p, amount, type⟩ else s.pending)) ∧
      (added = true ↔ (fSubtract = true → CanUpdate s a p (-amount) .pending)) ∧
      ∀ b q, m.money b q .pending = s.tallyMap.money b q .pending +
        if fSubtract = true ∧ added = true ∧ b = a ∧ q = p then -amount else 0 := by
  cases fSubtract with
  | false =>
      refine ⟨true, s.tallyMap, rfl, iff_of_true rfl fun hno => Bool.noConfusion hno,
        fun b q => ?_⟩
      rw [if_neg fun h => Bool.false_ne_true h.1, add_zero]
  | true =>
      obtain ⟨ok, m, hrun, hiff, hmoney⟩ := updateTallyMap_pending s a p (-amount)
      refine ⟨ok, m, ?_, ⟨fun h _ => hiff.mp h, fun h => hiff.mpr (h rfl)⟩, fun b q => ?_⟩
      · unfold pendingAdd
        simp only [bind, EStateM.bind, if_true]
        rw [hrun]
        cases ok <;> rfl
      · rw [hmoney]
        simp only [true_and]

/-- **A DELETION** credits the amount, unless the pending balance is 0. -/
theorem pendingDelete_run {s : State} {txid : Txid} {e : CMPPending}
    (he : s.pending[txid]? = some e) :
    ∃ credited m, pendingDelete txid s = .ok () (s.withPending m (s.pending.erase txid)) ∧
      (credited = true ↔ s.tallyMap.money e.src e.prop .pending ≠ 0 ∧
        CanUpdate s e.src e.prop e.amount .pending) ∧
      ∀ b q, m.money b q .pending = s.tallyMap.money b q .pending +
        if credited = true ∧ b = e.src ∧ q = e.prop then e.amount else 0 := by
  have hbalance : s.getMPbalance e.src e.prop .pending = s.tallyMap.money e.src e.prop .pending :=
    State.getMPbalance_eq _ _ _ (by decide)
  by_cases hzero : s.tallyMap.money e.src e.prop .pending = 0
  · refine ⟨false, s.tallyMap, ?_, iff_of_false Bool.false_ne_true fun h => h.1 hzero,
      fun b q => ?_⟩
    · unfold pendingDelete
      simp only [bind, EStateM.bind, get, getThe, MonadStateOf.get, EStateM.get, he, hbalance,
        hzero]
      rfl
    · rw [if_neg fun h => Bool.false_ne_true h.1, add_zero]
  · obtain ⟨ok, m, hrun, hiff, hmoney⟩ := updateTallyMap_pending s e.src e.prop e.amount
    refine ⟨ok, m, ?_, hiff.trans (and_iff_right hzero).symm, hmoney⟩
    unfold pendingDelete
    simp only [bind, EStateM.bind, get, getThe, MonadStateOf.get, EStateM.get, he, hbalance]
    rw [if_pos hzero]
    unfold EStateM.bind
    rw [hrun]
    rfl

/-- A transaction that is not pending is not deleted. -/
theorem pendingDelete_none {s : State} {txid : Txid} (hnone : s.pending[txid]? = none) :
    pendingDelete txid s = .ok () s := by
  unfold pendingDelete
  simp only [bind, EStateM.bind, get, getThe, MonadStateOf.get, EStateM.get, hnone]
  rfl

/-- **A CHECK RETURNS** just if there is nothing to delete, and leaves everything as it is. -/
theorem pendingCheckLoop_run (vecMemPoolTxids l : List Txid) (s s' : State) :
    pendingCheckLoop vecMemPoolTxids l s = .ok () s' ↔
      (∀ txid ∈ l, txid ∈ vecMemPoolTxids) ∧ s' = s := by
  induction l with
  | nil =>
      constructor
      · intro h
        cases h
        exact ⟨fun txid hno => absurd hno List.not_mem_nil, rfl⟩
      · rintro ⟨-, rfl⟩
        rfl
  | cons txid rest ih =>
      by_cases hmem : txid ∈ vecMemPoolTxids
      · unfold pendingCheckLoop
        rw [if_pos hmem, ih, List.forall_mem_cons, and_iff_right hmem]
      · unfold pendingCheckLoop
        rw [if_neg hmem]
        refine iff_of_false (fun h => ?_) fun h => hmem (h.1 txid List.mem_cons_self)
        obtain ⟨_, t, -, hthrow⟩ := bind_ok h
        exact nomatch hthrow

/-! ## What a call preserves -/

/-- The invariant: the balances are those of the list, and the list has amounts only. -/
structure PendingOk (s : State) (sub : Subtracted) : Prop where
  tally : ∀ a p, s.tallyMap.money a p .pending = -subtracted s.pending sub a p
  amounts : ∀ (txid : Txid) (e : CMPPending), s.pending[txid]? = some e →
    0 ≤ e.amount ∧ e.amount ≤ maxInt64

namespace PendingOk

variable {s : State} {sub : Subtracted}

theorem isMatch (h : PendingOk s sub) : PendingMatches s sub := by
  refine ⟨h.tally, fun a p hnone => ?_⟩
  have hzero : subtracted s.pending sub a p = 0 := by
    rw [← msum_zero s.pending]
    refine msum_congr fun txid e he => if_neg ?_
    rintro ⟨hsub, hsrc, hprop⟩
    exact hnone txid e he hsub hsrc hprop
  rw [h.tally, hzero, neg_zero]

/-- What was debited for an entry is at most what is debited. -/
theorem amount_le (h : PendingOk s sub) {txid : Txid} {e : CMPPending}
    (he : s.pending[txid]? = some e) (hsub : sub txid = true) :
    s.tallyMap.money e.src e.prop .pending ≤ -e.amount := by
  have hle := le_msum (f := fun txid' e' =>
    if sub txid' = true ∧ e'.src = e.src ∧ e'.prop = e.prop then e'.amount else 0)
    (k := txid) (v := e) (fun txid' e' he' => by
      split
      · exact (h.amounts txid' e' he').1
      · exact le_rfl) he
  rw [if_pos ⟨hsub, rfl, rfl⟩] at hle
  rw [h.tally]
  exact neg_le_neg hle

theorem money_nonpos (h : PendingOk s sub) (a : Address) (p : PropertyId) :
    s.tallyMap.money a p .pending ≤ 0 := by
  rw [h.tally, Left.neg_nonpos_iff]
  refine msum_nonneg fun txid e he => ?_
  split
  · exact (h.amounts txid e he).1
  · exact le_rfl

/-- A credit of an amount of the list is in range. -/
theorem canUpdate (h : PendingOk s sub) {txid : Txid} {e : CMPPending}
    (he : s.pending[txid]? = some e) (hne : e.amount ≠ 0) :
    CanUpdate s e.src e.prop e.amount .pending := by
  have hrange := s.tallyMap.isInt64_money e.src e.prop .pending
  have hmoney := h.money_nonpos e.src e.prop
  obtain ⟨h0, hle⟩ := h.amounts txid e he
  refine ⟨hne, ⟨?_, ?_⟩, fun hno => absurd rfl hno, fun hno => TallyType.noConfusion hno⟩
  · have := hrange.1
    omega
  · omega

/-- **AN ADDITION KEEPS THE INVARIANT** just if a debit that goes through is for a new
    transaction. -/
theorem add_iff (h : PendingOk s sub) (txid : Txid) (a : Address) (type : Nat) (p : PropertyId)
    (amount : { n : Int // 0 ≤ n ∧ n ≤ maxInt64 }) (fSubtract : Bool) :
    ∃ s', pendingAdd txid a type p amount fSubtract s = .ok () s' ∧
      (PendingCall.Fits s sub (.add txid a type p amount fSubtract) →
        PendingOk s' (PendingCall.flags s sub (.add txid a type p amount fSubtract))) ∧
      (PendingMatches s' (PendingCall.flags s sub (.add txid a type p amount fSubtract)) →
        PendingCall.Fits s sub (.add txid a type p amount fSubtract)) := by
  obtain ⟨added, m, hrun, hadded, hmoney⟩ := pendingAdd_run s txid a type p amount fSubtract
  refine ⟨_, hrun, ?_⟩
  by_cases hnew : s.pending[txid]? = none
  · -- a new transaction: the debit is the amount of the new entry
    have hflags : PendingCall.flags s sub (.add txid a type p amount fSubtract) =
        Function.update sub txid fSubtract := if_neg (by rw [hnew]; exact Bool.false_ne_true)
    have hfits : PendingCall.Fits s sub (.add txid a type p amount fSubtract) :=
      fun _ _ => hnew
    rw [insertIfNew_of_absent hnew, hflags]
    refine ⟨fun _ => ?_, fun _ => hfits⟩
    have hother := subtracted_other hnew sub fSubtract
    cases added with
    | false =>
        refine ⟨fun b q => ?_, h.amounts⟩
        show m.money b q .pending = -subtracted s.pending _ b q
        rw [hmoney, if_neg fun h => Bool.false_ne_true h.2.1, hother, add_zero, h.tally]
    | true =>
        refine ⟨fun b q => ?_, fun k e hk => ?_⟩
        · show m.money b q .pending = -subtracted (s.pending.insert txid _) _ b q
          rw [hmoney, subtracted_insert hnew, h.tally]
          by_cases hplace : fSubtract = true ∧ a = b ∧ p = q
          · obtain ⟨hsub, rfl, rfl⟩ := hplace
            rw [if_pos ⟨hsub, rfl, rfl, rfl⟩, if_pos ⟨hsub, rfl, rfl⟩, neg_add]
          · rw [if_neg hplace, if_neg fun hno => hplace ⟨hno.1, hno.2.2.1.symm, hno.2.2.2.symm⟩,
              add_zero, add_zero]
        · have hk' : (s.pending.insert txid _)[k]? = some e := hk
          rw [getElem?_insert_eq] at hk'
          split at hk'
          · cases hk'
            exact amount.2
          · exact h.amounts k e hk'
  · -- an entry is there: it is not replaced, and nothing may be debited
    have hflags : PendingCall.flags s sub (.add txid a type p amount fSubtract) = sub :=
      if_pos (Option.isSome_iff_ne_none.mpr hnew)
    have hlist : (if added = true then s.pending.insertIfNew txid ⟨a, p, amount, type⟩
        else s.pending) = s.pending := by
      rw [insertIfNew_of_some hnew, ite_self]
    rw [hlist, hflags]
    refine ⟨fun hfits => ⟨fun b q => ?_, h.amounts⟩, fun hmatch hsub hcan => absurd ?_ hcan.ne_zero⟩
    · show m.money b q .pending = -subtracted s.pending sub b q
      have hno : ¬ (fSubtract = true ∧ added = true ∧ b = a ∧ q = p) := fun hyes =>
        hnew (hfits hyes.1 (hadded.mp hyes.2.1 hyes.1))
      rw [hmoney, if_neg hno, add_zero, h.tally]
    · have hdebit : m.money a p .pending = -subtracted s.pending sub a p := hmatch.tally a p
      rw [hmoney, if_pos ⟨hsub, hadded.mpr fun _ => hcan, rfl, rfl⟩, h.tally] at hdebit
      omega

/-- **A DELETION KEEPS THE INVARIANT** just if what it credits was debited. -/
theorem delete_iff (h : PendingOk s sub) (txid : Txid) :
    ∃ s', pendingDelete txid s = .ok () s' ∧
      (PendingCall.Fits s sub (.delete txid) → PendingOk s' sub) ∧
      (PendingMatches s' sub → PendingCall.Fits s sub (.delete txid)) := by
  cases he : s.pending[txid]? with
  | none =>
      refine ⟨s, pendingDelete_none he, fun _ => h, fun _ e he' => ?_⟩
      rw [he] at he'
      exact nomatch he'
  | some e =>
      obtain ⟨credited, m, hrun, hcredited, hmoney⟩ := pendingDelete_run he
      -- what is credited, whatever the flags are
      have hcredit (b q) : m.money b q .pending = s.tallyMap.money b q .pending +
          if s.tallyMap.money e.src e.prop .pending ≠ 0 ∧ b = e.src ∧ q = e.prop
          then e.amount else 0 := by
        rw [hmoney]
        by_cases hne : e.amount = 0
        · rw [hne, ite_self, ite_self]
        · have hiff := hcredited.trans (and_iff_left (h.canUpdate he hne))
          rw [if_congr (and_congr_left' hiff) rfl rfl]
      refine ⟨_, hrun, fun hfits => ⟨fun b q => ?_, fun k e' hk => ?_⟩,
        fun hmatch e' he' hsub => ?_⟩
      · show m.money b q .pending = -subtracted (s.pending.erase txid) sub b q
        have hdebited : (if s.tallyMap.money e.src e.prop .pending ≠ 0 ∧ b = e.src ∧ q = e.prop
            then e.amount else 0) = if sub txid = true ∧ e.src = b ∧ e.prop = q
            then e.amount else 0 := by
          by_cases hplace : b = e.src ∧ q = e.prop
          · obtain ⟨rfl, rfl⟩ := hplace
            simp only [and_true]
            cases hsub : sub txid with
            | true =>
                have hle := h.amount_le he hsub
                have h0 := (h.amounts txid e he).1
                rw [if_pos rfl]
                split <;> omega
            | false =>
                rw [if_neg Bool.false_ne_true]
                rcases hfits e he hsub with hzero | hzero
                · rw [hzero, ite_self]
                · exact if_neg fun hno => hno hzero
          · rw [if_neg fun hno => hplace hno.2,
              if_neg fun hno => hplace ⟨hno.2.1.symm, hno.2.2.symm⟩]
        rw [hcredit, subtracted_erase he, hdebited, h.tally b q]
        ring
      · have hk' : (s.pending.erase txid)[k]? = some e' := hk
        rw [getElem?_erase_eq] at hk'
        split at hk'
        · exact nomatch hk'
        · exact h.amounts k e' hk'
      · rw [he] at he'
        cases he'
        have hafter : m.money e.src e.prop .pending =
            -subtracted (s.pending.erase txid) sub e.src e.prop := hmatch.tally e.src e.prop
        by_contra hno
        obtain ⟨hamount, hmoney0⟩ := not_or.mp hno
        rw [hcredit, if_pos ⟨hmoney0, rfl, rfl⟩, subtracted_erase he,
          if_neg fun hyes => by rw [hsub] at hyes; exact Bool.false_ne_true hyes.1,
          h.tally] at hafter
        omega

/-- **ONE CALL**: a call that fits returns and keeps the invariant, and only such a call returns
    into a state that matches. -/
theorem step (h : PendingOk s sub) (c : PendingCall) :
    (c.Fits s sub → ∃ s', c.run s = .ok () s' ∧ c.Sweeps s s' ∧ PendingOk s' (c.flags s sub)) ∧
    ∀ s', c.run s = .ok () s' → PendingMatches s' (c.flags s sub) → c.Fits s sub := by
  cases c with
  | add txid a type p amount fSubtract =>
      obtain ⟨t, hrun, hkeep, hfits⟩ := h.add_iff txid a type p amount fSubtract
      refine ⟨fun hfit => ⟨t, hrun, trivial, hkeep hfit⟩, fun s' hrun' hmatch => ?_⟩
      rw [show s' = t by cases hrun.symm.trans hrun'; rfl] at hmatch
      exact hfits hmatch
  | delete txid =>
      obtain ⟨t, hrun, hkeep, hfits⟩ := h.delete_iff txid
      refine ⟨fun hfit => ⟨t, hrun, trivial, hkeep hfit⟩, fun s' hrun' hmatch => ?_⟩
      rw [show s' = t by cases hrun.symm.trans hrun'; rfl] at hmatch
      exact hfits hmatch
  | check vecMemPoolTxids =>
      have hkeys (txid : Txid) :
          txid ∈ s.pending.toList.map Prod.fst ↔ s.pending[txid]? ≠ none := by
        rw [← Option.isSome_iff_ne_none, Option.isSome_iff_exists, List.mem_map]
        constructor
        · rintro ⟨⟨k, e⟩, he, rfl⟩
          exact ⟨e, mem_toList_iff.mp he⟩
        · rintro ⟨e, he⟩
          exact ⟨(txid, e), mem_toList_iff.mpr he, rfl⟩
      have hloop (s' : State) : PendingCall.run (.check vecMemPoolTxids) s = .ok () s' ↔
          (∀ txid, s.pending[txid]? ≠ none → txid ∈ vecMemPoolTxids) ∧ s' = s := by
        show pendingCheckLoop vecMemPoolTxids (s.pending.toList.map Prod.fst) s = .ok () s' ↔ _
        rw [pendingCheckLoop_run]
        simp only [hkeys]
      refine ⟨fun hfit => ⟨s, (hloop s).mpr ⟨hfit, rfl⟩, fun txid => ?_, h⟩,
        fun s' hrun _ => ((hloop s').mp hrun).1⟩
      -- nothing is outside of the mempool, and nothing goes
      by_cases hmem : txid ∈ vecMemPoolTxids
      · rw [if_pos hmem]
      · rw [if_neg hmem]
        by_contra hsome
        exact hmem (hfit txid hsome)

end PendingOk

/-! ## Runs keep the invariant -/

theorem PendingHolds.isMatch {s : State} {sub : Subtracted} {calls : List PendingCall}
    (h : PendingHolds s sub calls) : PendingMatches s sub := by
  cases calls with
  | nil => exact h
  | cons c calls => exact h.1

/-- From any state of the invariant a run matches in every state just if all its calls fit. -/
theorem PendingOk.run_iff {s : State} {sub : Subtracted} (h : PendingOk s sub)
    (calls : List PendingCall) : PendingHolds s sub calls ↔ PendingFits s sub calls := by
  induction calls generalizing s sub with
  | nil => exact iff_of_true h.isMatch trivial
  | cons c calls ih =>
      obtain ⟨hkeep, hfits⟩ := h.step c
      constructor
      · rintro ⟨-, s', hrun, -, hrest⟩
        have hfit := hfits s' hrun hrest.isMatch
        obtain ⟨t, hrun', -, hok⟩ := hkeep hfit
        cases hrun.symm.trans hrun'
        refine ⟨hfit, ?_⟩
        unfold after
        rw [hrun]
        exact (ih hok).mp hrest
      · rintro ⟨hfit, hrest⟩
        obtain ⟨s', hrun, hsweeps, hok⟩ := hkeep hfit
        unfold after at hrest
        rw [hrun] at hrest
        exact ⟨h.isMatch, s', hrun, hsweeps, (ih hok).mpr hrest⟩

/-- **PENDING BALANCES MATCH THE LIST**: from an empty list, every state of a run matches just if
    every call fits. -/
theorem pendingHolds_iff {s : State} (hempty : s.pending = ∅)
    (hzero : ∀ a p, s.tallyMap.money a p .pending = 0) (sub : Subtracted)
    (calls : List PendingCall) : PendingHolds s sub calls ↔ PendingFits s sub calls := by
  refine PendingOk.run_iff ⟨fun a p => ?_, fun txid e he => ?_⟩ calls
  · rw [hempty, hzero]
    exact (neg_eq_zero.mpr (msum_empty _)).symm
  · rw [hempty, ExtTreeMap.getElem?_empty] at he
    exact nomatch he

/-! ## A send and a cancel -/

/-- A send of 100 OMNI. -/
def sendPending : PendingCall := .add 1 traderA 0 1 ⟨100, by decide⟩ true

/-- A cancel of the orders at a price, with 30 OMNI as the amount for sale of that price. -/
def cancelPending : PendingCall := .add 2 traderA 26 1 ⟨30, by decide⟩ false

theorem fresh_pending (a : Address) (p : PropertyId) :
    (State.fresh regTestParams).tallyMap.money a p .pending = 0 := TallyMap.money_empty a p .pending

set_option maxRecDepth 4000 in
/-- The send alone: it is added, checked while it is in the mempool, and deleted. -/
theorem send_matches : PendingHolds (State.fresh regTestParams) (fun _ => false)
    [sendPending, .check [1], .delete 1] := by
  refine (pendingHolds_iff rfl fresh_pending _ _).mpr
    ⟨fun _ _ => ?_, fun txid hsome => ?_, ?_, trivial⟩
  · exact ExtTreeMap.getElem?_empty
  · have hkeys : (after sendPending.run (State.fresh regTestParams)).pending.toList.map Prod.fst =
        [1] := by decide +kernel
    obtain ⟨e, he⟩ := Option.ne_none_iff_exists'.mp hsome
    rw [← hkeys]
    exact List.mem_map.mpr ⟨(txid, e), mem_toList_iff.mpr he, rfl⟩
  · have hflag : PendingCall.flags (State.fresh regTestParams) (fun _ => false) sendPending 1 =
        true := by decide +kernel
    intro e _ hsub
    exact absurd (hflag.symm.trans hsub) (by decide)

/-- The state in which a returning run ends. -/
theorem eq_after {c : PendingCall} {s s' : State} (h : c.run s = .ok () s') :
    s' = after c.run s := by
  unfold after
  rw [h]

set_option maxRecDepth 4000 in
/-- **A CANCEL IS CREDITED** although nothing was debited for it: once it is in a block, the send
    of 100 OMNI holds back 70. -/
theorem cancel_credited : ¬ PendingHolds (State.fresh regTestParams) (fun _ => false)
    [sendPending, cancelPending, .delete 2] := by
  rintro ⟨-, s1, h1, -, -, s2, h2, -, -, s3, h3, -, hmatch⟩
  obtain rfl := eq_after h1
  obtain rfl := eq_after h2
  obtain rfl := eq_after h3
  have htally := hmatch.tally traderA 1
  revert htally
  decide +kernel

end OmniCore
