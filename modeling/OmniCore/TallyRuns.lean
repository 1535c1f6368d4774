import OmniCore.Lib.Signed
import OmniCore.Tally

/-! # TallyRuns — the balance records as the machine keeps them

    A record is an array of 64-bit integers, indexed by a number that the caller chooses, and every
    sum is one of the machine. The overflow test has sums of its own. What the machine does is
    what `CMPTally` does, whose records carry their range and sign, and no sum of it overflows. -/

namespace OmniCore

open Std (ExtTreeMap)
open Machine MapSum

/-! ## The machine -/

/-- `TALLY_TYPE_COUNT`. -/
abbrev tallyTypeCount : Nat := 13

/-- The number of a type. -/
def TallyType.code : TallyType → Fin tallyTypeCount
  | .balance => 0
  | .sellOfferReserve => 1
  | .acceptReserve => 2
  | .pending => 3
  | .metaDExReserve => 4
  | .contractDExReserve => 5
  | .possitiveBalance => 6
  | .negativeBalance => 7
  | .realizedProfit => 8
  | .realizedLosses => 9
  | .count => 10
  | .remaining => 11
  | .liquidationPrice => 12

/-- The type of a number. -/
def typeOf : Fin tallyTypeCount → TallyType
  | 0 => .balance
  | 1 => .sellOfferReserve
  | 2 => .acceptReserve
  | 3 => .pending
  | 4 => .metaDExReserve
  | 5 => .contractDExReserve
  | 6 => .possitiveBalance
  | 7 => .negativeBalance
  | 8 => .realizedProfit
  | 9 => .realizedLosses
  | 10 => .count
  | 11 => .remaining
  | 12 => .liquidationPrice

theorem code_typeOf : ∀ i, (typeOf i).code = i := by decide

theorem typeOf_injective : Function.Injective typeOf :=
  Function.LeftInverse.injective code_typeOf

/-- `b > 0 && a > max - b`. -/
def exceedsMax (a b : Int64) : Option Bool :=
  if 0 < b then do
    let room ← subSigned Int64.maxValue b
    pure (decide (room < a))
  else pure false

/-- `b < 0 && a < min - b`. -/
def exceedsMin (a b : Int64) : Option Bool :=
  if b < 0 then do
    let room ← subSigned Int64.minValue b
    pure (decide (a < room))
  else pure false

/-- `isOverflow`. -/
def isOverflow64 (a b : Int64) : Option Bool := do
  if ← exceedsMax a b then pure true else exceedsMin a b

/-- `PENDING != ttype && (now64 + amount) < 0`. -/
def becomesNegative (ttype : Nat) (now64 amount : Int64) : Option Bool :=
  if ttype ≠ TallyType.pending.code then do
    let sum ← addSigned now64 amount
    pure (decide (sum < 0))
  else pure false

/-- `CMPTally`, with the arrays as they are. -/
structure MachineTally where
  mpToken : ExtTreeMap PropertyId (Fin tallyTypeCount → Int64)

namespace MachineTally

def empty : MachineTally := ⟨∅⟩

/-- `mp_token[propertyId]`: a missing record is zeros. -/
def record (m : MachineTally) (p : PropertyId) : Fin tallyTypeCount → Int64 :=
  (m.mpToken[p]?).getD fun _ => 0

/-- `updateMoney`. -/
def updateMoney (m : MachineTally) (p : PropertyId) (amount : Int64) (ttype : Nat) :
    Option (Bool × MachineTally) :=
  if h : tallyTypeCount ≤ ttype ∨ amount = 0 then pure (false, m)
  else do
    let i : Fin tallyTypeCount := ⟨ttype, Nat.lt_of_not_le (not_or.mp h).1⟩
    let record := m.record p
    let now64 := record i
    if ← isOverflow64 now64 amount then
      pure (false, ⟨m.mpToken.insert p record⟩)
    else if ← becomesNegative ttype now64 amount then
      pure (false, ⟨m.mpToken.insert p record⟩)
    else
      let sum ← addSigned now64 amount
      pure (true, ⟨m.mpToken.insert p (Function.update record i sum)⟩)

/-- `getMoney`. -/
def getMoney (m : MachineTally) (p : PropertyId) (ttype : Nat) : Int64 :=
  if h : tallyTypeCount ≤ ttype then 0
  else match m.mpToken[p]? with
    | some record => record ⟨ttype, Nat.lt_of_not_le h⟩
    | none => 0

/-- `getMoneyAvailable`. -/
def getMoneyAvailable (m : MachineTally) (p : PropertyId) : Option Int64 :=
  match m.mpToken[p]? with
  | some record =>
      let pending := record TallyType.pending.code
      let balance := record TallyType.balance.code
      if pending < 0 then addSigned balance pending else pure balance
  | none => pure 0

theorem getMoney_code (m : MachineTally) (p : PropertyId) (i : Fin tallyTypeCount) :
    m.getMoney p i = m.record p i := by
  unfold getMoney record
  rw [dif_neg (Nat.not_le.mpr i.isLt)]
  cases m.mpToken[p]? <;> rfl

/-- A missing record reads as zeros here too. -/
theorem getMoneyAvailable_eq (m : MachineTally) (p : PropertyId) :
    m.getMoneyAvailable p = if m.record p TallyType.pending.code < 0 then
      addSigned (m.record p TallyType.balance.code) (m.record p TallyType.pending.code)
      else some (m.record p TallyType.balance.code) := by
  unfold getMoneyAvailable record
  cases m.mpToken[p]? <;> rfl

end MachineTally

/-! ## Runs -/

/-- A call of `updateMoney`. -/
structure TallyCall where
  propertyId : PropertyId
  amount : Int64
  ttype : Nat

/-- The results of a sequence of calls, and the tally after it. -/
def runUpdates : List TallyCall → MachineTally → Option (List Bool × MachineTally)
  | [], m => pure ([], m)
  | c :: calls, m => do
      let (ok, m') ← m.updateMoney c.propertyId c.amount c.ttype
      let (oks, m'') ← runUpdates calls m'
      pure (ok :: oks, m'')

/-- The amounts of the successful calls for one balance. -/
def credited (p : PropertyId) (ttype : Nat) : List TallyCall → List Bool → Int
  | c :: calls, ok :: oks =>
      (if ok = true ∧ c.propertyId = p ∧ c.ttype = ttype then c.amount.toInt else 0) +
        credited p ttype calls oks
  | _, _ => 0

/-- When a call is to fail. -/
def Refused (m : MachineTally) (c : TallyCall) : Prop :=
  c.amount = 0 ∨ tallyTypeCount ≤ c.ttype ∨
    ¬ IsInt64 ((m.getMoney c.propertyId c.ttype).toInt + c.amount.toInt) ∨
    c.ttype ≠ TallyType.pending.code ∧ (m.getMoney c.propertyId c.ttype).toInt + c.amount.toInt < 0

/-- **THE TALLY HOLDS ITS SUMS** after a sequence of calls and their results. -/
structure TallyHolds (calls : List TallyCall) (oks : List Bool) (m : MachineTally) : Prop where
  results : oks.length = calls.length
  sums : ∀ p ttype, (m.getMoney p ttype).toInt = credited p ttype calls oks
  inRange : ∀ p ttype, IsInt64 (credited p ttype calls oks)
  nonneg : ∀ p (ttype : Nat), ttype ≠ TallyType.pending.code → 0 ≤ (m.getMoney p ttype).toInt
  /-- the next call, whatever it is -/
  fails : ∀ c : TallyCall, ∃ ok m', m.updateMoney c.propertyId c.amount c.ttype = some (ok, m') ∧
    (ok = false ↔ Refused m c) ∧
    (ok = false → ∀ p ttype, m'.getMoney p ttype = m.getMoney p ttype)
  available : ∀ p, ∃ n, m.getMoneyAvailable p = some n ∧
    n.toInt = (m.getMoney p TallyType.balance.code).toInt +
      min 0 (m.getMoney p TallyType.pending.code).toInt

/-! ## The overflow test -/

theorem exceedsMax_eq (a b : Int64) :
    exceedsMax a b = some (decide (0 < b.toInt) && decide (maxInt64 - b.toInt < a.toInt)) := by
  have hb := isInt64_toInt b
  have hmax : Int64.maxValue.toInt = maxInt64 := rfl
  unfold exceedsMax
  simp only [Int64.lt_iff_toInt_lt, Int64.toInt_zero]
  by_cases hpos : 0 < b.toInt
  · obtain ⟨room, hroom, hval⟩ := subSigned_eq (a := Int64.maxValue) (b := b) (by
      rw [hmax]
      unfold IsInt64 minInt64 maxInt64 at *
      omega)
    rw [if_pos hpos, hroom, decide_eq_true hpos, Bool.true_and, ← hmax, ← hval]
    rfl
  · rw [if_neg hpos, decide_eq_false hpos, Bool.false_and]
    rfl

theorem exceedsMin_eq (a b : Int64) :
    exceedsMin a b = some (decide (b.toInt < 0) && decide (a.toInt < minInt64 - b.toInt)) := by
  have hb := isInt64_toInt b
  have hmin : Int64.minValue.toInt = minInt64 := rfl
  unfold exceedsMin
  simp only [Int64.lt_iff_toInt_lt, Int64.toInt_zero]
  by_cases hneg : b.toInt < 0
  · obtain ⟨room, hroom, hval⟩ := subSigned_eq (a := Int64.minValue) (b := b) (by
      rw [hmin]
      unfold IsInt64 minInt64 maxInt64 at *
      omega)
    rw [if_pos hneg, hroom, decide_eq_true hneg, Bool.true_and, ← hmin, ← hval]
    rfl
  · rw [if_neg hneg, decide_eq_false hneg, Bool.false_and]
    rfl

/-- **THE TEST DOES NOT OVERFLOW**, and tells whether the sum does. -/
theorem isOverflow64_eq (a b : Int64) :
    isOverflow64 a b = some (BalanceRecord.isOverflow a.toInt b.toInt) := by
  unfold isOverflow64 BalanceRecord.isOverflow
  rw [exceedsMax_eq, exceedsMin_eq]
  cases decide (0 < b.toInt) && decide (maxInt64 - b.toInt < a.toInt) <;> rfl

theorem code_eq_iff (i : Fin tallyTypeCount) (ty : TallyType) :
    (i : Nat) = ty.code ↔ typeOf i = ty := by
  rw [Fin.val_inj]
  constructor
  · rintro rfl
    cases ty <;> rfl
  · rintro rfl
    exact (code_typeOf i).symm

theorem becomesNegative_eq (i : Fin tallyTypeCount) {now64 amount sum : Int64}
    (hsum : addSigned now64 amount = some sum) :
    becomesNegative i now64 amount = some (decide (typeOf i ≠ .pending ∧ sum.toInt < 0)) := by
  unfold becomesNegative
  rw [hsum]
  by_cases hp : typeOf i = .pending
  · rw [if_neg (not_not.mpr ((code_eq_iff i _).mpr hp)), decide_eq_false fun h => h.1 hp]
    rfl
  · rw [if_pos fun hc => hp ((code_eq_iff i _).mp hc)]
    show some (decide (sum < 0)) = _
    simp only [Int64.lt_iff_toInt_lt, Int64.toInt_zero, ne_eq, hp, not_false_eq_true, true_and]

/-! ## The machine does what the records do -/

/-- `t` is what the arrays of `m` hold. -/
def Represents (m : MachineTally) (t : CMPTally) : Prop :=
  ∀ p : PropertyId, (m.mpToken[p]?).map (fun (r : Fin tallyTypeCount → Int64) i => (r i).toInt) =
    (t.mpToken[p]?).map fun (r : BalanceRecord) i => r.balance (typeOf i)

namespace Represents

variable {m : MachineTally} {t : CMPTally}

theorem empty : Represents .empty .empty := fun _ => rfl

theorem record (h : Represents m t) (p : PropertyId) (i : Fin tallyTypeCount) :
    (m.record p i).toInt = (t.record p).balance (typeOf i) := by
  have hp := h p
  unfold MachineTally.record CMPTally.record
  cases hm : m.mpToken[p]? with
  | none =>
      rw [hm] at hp
      rw [Option.map_eq_none_iff.mp hp.symm]
      rfl
  | some r =>
      rw [hm] at hp
      obtain ⟨r', hr', heq⟩ := Option.map_eq_some_iff.mp hp.symm
      rw [hr']
      exact (congrFun heq i).symm

/-- Writing a record that is represented. -/
theorem insert (h : Represents m t) (p : PropertyId) {r : Fin tallyTypeCount → Int64}
    {r' : BalanceRecord} (hr : ∀ i, (r i).toInt = r'.balance (typeOf i)) :
    Represents ⟨m.mpToken.insert p r⟩ ⟨t.mpToken.insert p r'⟩ := by
  intro q
  show ((m.mpToken.insert p r)[q]?).map _ = ((t.mpToken.insert p r')[q]?).map _
  rw [getElem?_insert_eq, getElem?_insert_eq]
  by_cases hq : p = q
  · rw [if_pos hq, if_pos hq]
    exact congrArg some (funext hr)
  · rw [if_neg hq, if_neg hq]
    exact h q

theorem getMoney (h : Represents m t) (p : PropertyId) (i : Fin tallyTypeCount) :
    (m.getMoney p i).toInt = t.getMoney p (typeOf i) := by
  rw [MachineTally.getMoney_code]
  exact h.record p i

/-- **THE MACHINE REFINES THE RECORDS**: an update of the machine never overflows, has the same
    result, and leaves what the update of the records leaves. -/
theorem updateMoney (h : Represents m t) (p : PropertyId) (amount : Int64)
    (i : Fin tallyTypeCount) :
    ∃ m', m.updateMoney p amount i = some ((t.updateMoney p amount.toInt (typeOf i)).1, m') ∧
      Represents m' (t.updateMoney p amount.toInt (typeOf i)).2 := by
  have hrecord := h.record p
  have hnow := hrecord i
  have hi : ¬ tallyTypeCount ≤ i := Nat.not_le.mpr i.isLt
  unfold MachineTally.updateMoney CMPTally.updateMoney
  by_cases h0 : amount = 0
  · refine ⟨m, ?_, ?_⟩
    · rw [dif_pos (.inr h0), h0, if_pos Int64.toInt_zero]
      rfl
    · rw [h0, if_pos Int64.toInt_zero]
      exact h
  · have h0' : amount.toInt ≠ 0 := fun hz =>
      h0 (Int64.toInt_inj.mp (hz.trans Int64.toInt_zero.symm))
    rw [dif_neg (not_or.mpr ⟨hi, h0⟩), if_neg h0']
    dsimp only
    rw [isOverflow64_eq, hnow, Option.bind_eq_bind, Option.bind_some]
    by_cases hover : BalanceRecord.isOverflow ((t.record p).balance (typeOf i)) amount.toInt = true
    · rw [dif_pos hover, if_pos hover]
      exact ⟨_, rfl, h.insert p hrecord⟩
    · have hrange := (BalanceRecord.isOverflow_eq_false_iff ((t.record p).inRange _)).mp
        (Bool.not_eq_true _ ▸ hover)
      rw [← hnow] at hrange
      obtain ⟨sum, hsum, hval⟩ := addSigned_eq hrange
      rw [hnow] at hval
      rw [dif_neg hover, if_neg hover, becomesNegative_eq i hsum, hval, hsum, Option.bind_eq_bind,
        Option.bind_some]
      by_cases hneg : typeOf i ≠ .pending ∧ (t.record p).balance (typeOf i) + amount.toInt < 0
      · rw [dif_pos hneg, if_pos (decide_eq_true hneg)]
        exact ⟨_, rfl, h.insert p hrecord⟩
      · rw [dif_neg hneg, if_neg (by rw [decide_eq_true_iff]; exact hneg)]
        refine ⟨_, rfl, h.insert p fun j => ?_⟩
        show (Function.update (m.record p) i sum j).toInt =
          Function.update (t.record p).balance (typeOf i) _ (typeOf j)
        by_cases hj : j = i
        · subst hj
          rw [Function.update_self, Function.update_self, hval]
        · rw [Function.update_of_ne hj, Function.update_of_ne fun hc => hj (typeOf_injective hc)]
          exact hrecord j

/-- **ONE CALL**: it fails just if it is to, and a successful one moves one balance by its
    amount. -/
theorem call (h : Represents m t) (c : TallyCall) :
    ∃ ok m' t', m.updateMoney c.propertyId c.amount c.ttype = some (ok, m') ∧ Represents m' t' ∧
      (ok = false ↔ Refused m c) ∧
      ∀ p ttype, (m'.getMoney p ttype).toInt = (m.getMoney p ttype).toInt +
        if ok = true ∧ c.propertyId = p ∧ c.ttype = ttype then c.amount.toInt else 0 := by
  rcases Nat.lt_or_ge c.ttype tallyTypeCount with hlt | hge
  · obtain ⟨i, hi⟩ : ∃ i : Fin tallyTypeCount, (i : Nat) = c.ttype := ⟨⟨c.ttype, hlt⟩, rfl⟩
    obtain ⟨m', hrun, hrep⟩ := h.updateMoney c.propertyId c.amount i
    refine ⟨_, m', _, hi ▸ hrun, hrep, ?_, fun p ttype => ?_⟩
    · have hiff := t.updateMoney_fst_iff c.propertyId c.amount.toInt (typeOf i)
      have hzero : c.amount.toInt = 0 ↔ c.amount = 0 := by
        rw [← Int64.toInt_zero, Int64.toInt_inj]
      have hge : ¬ tallyTypeCount ≤ c.ttype := Nat.not_le.mpr hlt
      unfold Refused
      rw [← Bool.not_eq_true, hiff, ← hi, h.getMoney, ne_eq, hzero, ne_eq, ne_eq,
        code_eq_iff i .pending, hi, ← not_lt]
      tauto
    · rcases Nat.lt_or_ge ttype tallyTypeCount with hlt' | hge'
      · obtain ⟨j, hj⟩ : ∃ j : Fin tallyTypeCount, (j : Nat) = ttype := ⟨⟨ttype, hlt'⟩, rfl⟩
        have hplace :
            (p = c.propertyId ∧ typeOf j = typeOf i) ↔ (c.propertyId = p ∧ c.ttype = ttype) := by
          rw [typeOf_injective.eq_iff, ← hi, ← hj, Fin.val_inj, eq_comm, eq_comm (a := i)]
        rw [← hj, hrep.getMoney, h.getMoney, CMPTally.getMoney_updateMoney, hj,
          if_congr (and_congr_right' hplace) rfl rfl]
      · have hne : ¬ (c.propertyId = p ∧ c.ttype = ttype) := fun hc => by omega
        unfold MachineTally.getMoney
        rw [dif_pos hge', dif_pos hge', if_neg fun hc => hne hc.2, add_zero]
  · refine ⟨false, m, t, dif_pos (.inl hge), h, iff_of_true rfl (.inr (.inl hge)),
      fun p ttype => ?_⟩
    rw [if_neg fun hc => Bool.false_ne_true hc.1, add_zero]

/-- The available balance is in range: only a pending balance is negative. -/
theorem available (h : Represents m t) (p : PropertyId) :
    ∃ n, m.getMoneyAvailable p = some n ∧ n.toInt = (m.getMoney p TallyType.balance.code).toInt +
      min 0 (m.getMoney p TallyType.pending.code).toInt := by
  have hbalance : (m.getMoney p TallyType.balance.code).toInt = t.getMoney p .balance :=
    h.getMoney p TallyType.balance.code
  have hpending : (m.getMoney p TallyType.pending.code).toInt = t.getMoney p .pending :=
    h.getMoney p TallyType.pending.code
  have hnonneg := t.getMoney_nonneg p (show TallyType.balance ≠ .pending by decide)
  have hin := t.inRange p .pending
  have hin' := t.inRange p .balance
  rw [MachineTally.getMoney_code] at hbalance hpending ⊢
  rw [MachineTally.getMoney_code, MachineTally.getMoneyAvailable_eq]
  by_cases hneg : (m.record p TallyType.pending.code).toInt < 0
  · obtain ⟨n, hn, hval⟩ := addSigned_eq (a := m.record p TallyType.balance.code)
      (b := m.record p TallyType.pending.code) (by
        rw [hbalance, hpending]
        rw [hpending] at hneg
        unfold IsInt64 minInt64 maxInt64 at *
        omega)
    refine ⟨n, ?_, ?_⟩
    · rw [if_pos (Int64.lt_iff_toInt_lt.mpr hneg), hn]
    · rw [hval, min_eq_right hneg.le]
  · refine ⟨_, if_neg fun hlt => hneg (Int64.lt_iff_toInt_lt.mp hlt), ?_⟩
    rw [min_eq_left (not_lt.mp hneg), add_zero]

/-- **A RUN** from any tally that holds its records adds the amounts of the successful calls. -/
theorem run (h : Represents m t) (calls : List TallyCall) :
    ∃ oks m' t', runUpdates calls m = some (oks, m') ∧ Represents m' t' ∧
      oks.length = calls.length ∧
      ∀ p ttype, (m'.getMoney p ttype).toInt =
        (m.getMoney p ttype).toInt + credited p ttype calls oks := by
  induction calls generalizing m t with
  | nil => exact ⟨[], m, t, rfl, h, rfl, fun p ttype => (add_zero _).symm⟩
  | cons c calls ih =>
      obtain ⟨ok, m1, t1, hcall, h1, -, hmoney⟩ := h.call c
      obtain ⟨oks, m2, t2, hrun, h2, hlen, hsum⟩ := ih h1
      refine ⟨ok :: oks, m2, t2, ?_, h2, by rw [List.length_cons, List.length_cons, hlen],
        fun p ttype => ?_⟩
      · unfold runUpdates
        rw [hcall, Option.bind_eq_bind, Option.bind_some]
        dsimp only
        rw [hrun]
        rfl
      · rw [hsum, hmoney, add_assoc]
        rfl

end Represents

/-- **TALLY ARITHMETIC**: no call of a sequence overflows, every balance is the sum of its
    successful calls, and calls fail just where they are to. -/
theorem tally_run (calls : List TallyCall) :
    ∃ oks m, runUpdates calls .empty = some (oks, m) ∧ TallyHolds calls oks m := by
  obtain ⟨oks, m, t, hrun, h, hlen, hsum⟩ := Represents.empty.run calls
  have hsums (p ttype) : (m.getMoney p ttype).toInt = credited p ttype calls oks := by
    have hzero : MachineTally.empty.getMoney p ttype = 0 := by
      unfold MachineTally.getMoney
      split <;> rfl
    rw [hsum, hzero, Int64.toInt_zero, zero_add]
  refine ⟨oks, m, hrun, hlen, hsums, fun p ttype => ?_, fun p ttype hne => ?_, fun c => ?_,
    h.available⟩
  · rw [← hsums]
    exact isInt64_toInt _
  · rcases Nat.lt_or_ge ttype tallyTypeCount with hlt | hge
    · have hpending : typeOf ⟨ttype, hlt⟩ ≠ .pending := fun hp =>
        hne ((code_eq_iff ⟨ttype, hlt⟩ .pending).mpr hp)
      have hmoney := h.getMoney p ⟨ttype, hlt⟩
      rw [hmoney]
      exact t.getMoney_nonneg p hpending
    · unfold MachineTally.getMoney
      rw [dif_pos hge, Int64.toInt_zero]
  · obtain ⟨ok, m', t', hcall, -, hfails, hmoney⟩ := h.call c
    refine ⟨ok, m', hcall, hfails, fun hok p ttype => ?_⟩
    rw [← Int64.toInt_inj, hmoney, hok, if_neg fun hc => Bool.false_ne_true hc.1, add_zero]

end OmniCore
