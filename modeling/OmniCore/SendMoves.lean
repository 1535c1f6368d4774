import OmniCore.SendAll
import OmniCore.SendToOwnersTx
import OmniCore.TokenMoves

/-! # SendMoves — what the two collective sends move

    A send of everything moves balance by balance, around those that are frozen. A send to
    all owners moves the amount, and for a fee in OMNI or TOMNI: later versions cache it,
    version 0 burns it, so that less is outstanding afterwards. -/

namespace OmniCore

open Std (ExtTreeMap)
open Machine TextRec MapSum Exec

section Sends

variable {height : Int} {σ : Settings} {tx : CMPTransaction}

/-! ## Everything to one address -/

theorem moves_sendAllProperty (receiver : Address) (n : Int) (p : PropertyId) :
    Moves height σ 0 (fun _ => True) (sendAllProperty tx receiver n p) := by
  refine Counts.get fun t s hs => ?_
  refine Counts.ite (fun _ => Counts.pure trivial) fun _ => ?_
  refine Counts.ite (fun _ => Counts.pure trivial) fun _ => ?_
  refine Counts.ite (fun _ => Counts.pure trivial) fun hfree => ?_
  rw [hs.frozen, Bool.not_eq_true] at hfree
  refine Counts.ite (fun hpos => ?_) fun _ => Counts.pure trivial
  refine moves_pair _ _ _ hpos.le holds_balance holds_balance (fun _ => hfree) ?_
  exact Counts.seq (moves_modify fun _ => ⟨rfl, rfl, rfl, rfl⟩) fun _ _ => Counts.pure trivial

theorem moves_sendAllWalk (receiver : Address) (fuel : Nat) :
    ∀ (it : Option PropertyId) (n : Int),
      Moves height σ 0 (fun _ => True) (sendAllWalk tx receiver fuel it n) := by
  induction fuel with
  | zero => exact fun _ _ => Counts.throw (by decide)
  | succ fuel ih =>
      intro it n
      refine Counts.get fun t s hs => ?_
      refine Counts.ite (fun _ => Counts.pure trivial) fun _ => ?_
      exact Counts.seq (moves_sendAllProperty receiver n _) fun n _ => ih _ n

/-- **A SEND OF EVERYTHING** moves tokens, and none that are frozen. -/
theorem moves_logicMathSendAll : Moves height σ 0 (fun _ => True) (logicMathSendAll tx) := by
  refine Counts.get fun t s hs => ?_
  refine Counts.ite (fun _ => Counts.pure trivial) fun _ => ?_
  dsimp only
  split
  · exact Counts.pure trivial
  · refine Counts.seq (R := fun _ => True) ?_ fun n _ => ?_
    · exact moves_sendAllWalk _ _ _ 0
    · exact Counts.ite (fun _ => Counts.pure trivial) fun _ => Counts.pure trivial

/-! ## Something to all owners -/

/-- What the fee takes away from what is outstanding. -/
def CMPTransaction.burned (tx : CMPTransaction) (transferFee : Int) : PropertyId → Int :=
  if tx.version = 0 then Pi.single tx.feeProperty transferFee else 0

theorem moves_payTransferFee (fee : Int) (hheight : IsInt64 tx.block)
    (hfree : σ.isAddressFrozen tx.sender tx.feeProperty = false) :
    Moves tx.block σ (-tx.burned fee) (fun _ => True) (payTransferFee tx fee) := by
  have hdebit : Moves tx.block σ (Pi.single tx.feeProperty (-fee)) (fun _ => True)
      (assertUpdate tx.sender tx.feeProperty (-fee) .balance) :=
    moves_assertUpdate _ _ _ trivial fun _ _ => hfree
  unfold CMPTransaction.burned
  by_cases hversion : tx.version = 0
  · rw [if_pos hversion]
    refine Counts.of_eq (d := Pi.single tx.feeProperty (-fee) + 0) (hdebit.bind fun _ _ => ?_) ?_
    · rw [if_neg (not_not.mpr hversion)]
      exact Counts.pure trivial
    · rw [add_zero, Pi.single_neg]
  · rw [if_neg hversion]
    refine Counts.of_eq (d := Pi.single tx.feeProperty (-fee) + Pi.single tx.feeProperty fee)
      (hdebit.bind fun _ _ => ?_) ?_
    · rw [if_pos hversion]
      exact moves_addFee tx.feeProperty fee hheight
    · rw [Pi.single_neg, neg_add_cancel, neg_zero]

theorem moves_sendToOwner (hfree : σ.isAddressFrozen tx.sender tx.property.toNat = false)
    (sentSoFar : Int) {r : Int × Address} (hr : 0 < r.1) :
    Moves height σ 0 (fun _ => True) (sendToOwner tx sentSoFar r) := by
  refine Counts.seq (moves_signed64 _) fun _ _ => ?_
  refine moves_pair _ _ _ hr.le holds_balance holds_balance (fun _ => hfree) ?_
  exact Counts.seq (moves_modify fun _ => ⟨rfl, rfl, rfl, rfl⟩) fun _ _ => Counts.pure trivial

theorem moves_sendToOwners {receiversSet : OwnerAddrType} (fee : Int) (hheight : IsInt64 tx.block)
    (hfree : σ.isAddressFrozen tx.sender tx.property.toNat = false)
    (hfee : σ.isAddressFrozen tx.sender tx.feeProperty = false)
    (hpos : ∀ e ∈ OwnerAddrType.descending receiversSet, 0 < e.1) :
    Moves tx.block σ (-tx.burned fee) (fun _ => True) (sendToOwners tx receiversSet fee) := by
  refine Counts.of_eq (d := -tx.burned fee + 0) ((moves_payTransferFee fee hheight hfee).bind
    fun _ _ => ?_) (add_zero _)
  refine Counts.seq (R := fun _ => True) ?_ fun sentSoFar _ => ?_
  · exact Counts.foldlM (fun n _ r hr => moves_sendToOwner hfree n (hpos r hr)) trivial
  refine Counts.seq (moves_assertThat _ (by decide)) fun _ _ => ?_
  exact Counts.ite (fun _ => moves_notifyTotalTokensChanged omniPropertyMSC hheight)
    fun _ => Counts.pure trivial

/-- Asking whether the fee can be paid. -/
theorem moves_stoFeeError {s : State} (fee : Int) :
    Moves height σ 0 (fun error => ∀ e, error = some e → e ≠ 0) (stoFeeError s tx fee) := by
  have hanswer : ∀ (c : Prop) [Decidable c] (code : Int), code ≠ 0 →
      Moves height σ 0 (fun error => ∀ e, error = some e → e ≠ 0)
        (pure (if c then some code else none) : ExecM (Option Int)) := by
    intro c _ code hcode
    refine Counts.pure fun e he => ?_
    split at he
    · cases he
      exact hcode
    · cases he
  refine Counts.ite (fun _ => hanswer _ _ (by decide)) fun _ => ?_
  exact Counts.seq (moves_signed64 _) fun _ _ => hanswer _ _ (by decide)

/-- The fee that a transaction burns: nothing unless it goes through. -/
def CMPTransaction.burnedBy (tx : CMPTransaction) (s : State) (rc : Int) : PropertyId → Int :=
  if rc = 0 then
    tx.burned (tx.transferFee (((value (stoGetReceivers (some tx.sender) tx.distributeTo
      (toInt64 tx.nValue.toNat)) s).map ExtTreeMap.size).getD 0))
  else 0

/-- **A SEND TO ALL OWNERS** moves tokens, but for the fee that it burns. -/
theorem logicMathSendToOwners_moves {t : PropertyId → Int} {s : State}
    (hs : Standing tx.block σ t s) (hheight : IsInt64 tx.block)
    (hfree : σ.isAddressFrozen tx.sender tx.property.toNat = false)
    (hfee : σ.isAddressFrozen tx.sender tx.feeProperty = false) :
    wp (logicMathSendToOwners tx)
      (fun rc s' => Standing tx.block σ (t - tx.burnedBy s rc) s') (fun e _ => SparesFrozen e) s := by
  have hrefused' : ∀ rc : Int, rc ≠ 0 → t = t - tx.burnedBy s rc := by
    intro rc hrc
    unfold CMPTransaction.burnedBy
    rw [if_neg hrc, sub_zero]
  have hrefused : ∀ rc : Int, rc ≠ 0 → wp (pure rc : ExecM Int)
      (fun rc s' => Standing tx.block σ (t - tx.burnedBy s rc) s') (fun e _ => SparesFrozen e) s :=
    fun rc hrc => (wp_pure _ _ _ _).mpr (hs.of_eq (hrefused' rc hrc))
  unfold logicMathSendToOwners
  rw [wp_bind, wp_get, wp_ite]
  refine ⟨fun _ => hrefused _ (by decide), fun _ => ?_⟩
  rw [wp_ite]
  refine ⟨fun _ => hrefused _ (by decide), fun _ => ?_⟩
  rw [wp_ite]
  refine ⟨fun _ => hrefused _ (by decide), fun _ => ?_⟩
  rw [wp_ite]
  refine ⟨fun _ => hrefused _ (by decide), fun _ => ?_⟩
  rw [wp_ite]
  refine ⟨fun _ => hrefused _ (by decide), fun _ => ?_⟩
  rw [wp_bind]
  -- the receivers are those that the burned fee is computed from
  have hkeeps : Keeps (fun s : State => s) (stoGetReceivers (some tx.sender) tx.distributeTo
    (toInt64 tx.nValue.toNat)) := keeps_stoGetReceivers _ _ _
  refine wp_mono (wp_and (wp_self _ s) (wp_and (hkeeps.run s)
    ((spares_stoGetReceivers (some tx.sender) tx.distributeTo (toInt64 tx.nValue.toNat)).wp s)))
    (fun receiversSet s₁ h => ?_) fun _ _ h => h.2.2
  obtain ⟨hrun, hsame, hpos⟩ := h
  rw [hsame] at hrun ⊢
  rw [wp_ite]
  refine ⟨fun _ => hrefused _ (by decide), fun _ => ?_⟩
  rw [wp_bind]
  refine wp_imp ((moves_stoFeeError (tx.transferFee receiversSet.size)).run hs) fun error s₂ h₂ => ?_
  obtain ⟨herror, hs₂⟩ := h₂
  rw [add_zero] at hs₂
  cases error with
  | some error => exact (wp_pure _ _ _ _).mpr (hs₂.of_eq (hrefused' error (herror error rfl)))
  | none =>
      dsimp only
      rw [wp_ite]
      refine ⟨fun _ => (wp_pure _ _ _ _).mpr (hs₂.of_eq (hrefused' _ (by decide))), fun _ => ?_⟩
      rw [wp_bind]
      refine wp_imp ((moves_sendToOwners _ hheight hfree hfee hpos).run hs₂) fun _ s₃ hs₃ => ?_
      refine (wp_pure _ _ _ _).mpr (hs₃.2.of_eq ?_)
      unfold CMPTransaction.burnedBy value
      rw [if_pos rfl, hrun, sub_eq_add_neg]
      rfl

end Sends

end OmniCore
