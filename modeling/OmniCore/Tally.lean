import OmniCore.Lib.MapSum
import OmniCore.Lib.Machine
import OmniCore.Lib.Text

/-! # Tally — the balance ledger

    Every address has a `CMPTally`: for each property it ever touched, one record of
    thirteen 64-bit amounts. `updateMoney` is the only writer. It refuses a zero
    amount, a sum outside `int64_t`, and a negative result for any type but
    `PENDING`, so the range and sign of a record are fields of the record itself. -/

namespace OmniCore

open Std (ExtTreeMap TransOrd LawfulEqOrd TransCmp ReflCmp LawfulEqCmp)
open Machine TextRec MapSum

/-! ## Identifiers -/

/-- `uint32_t` property identifiers. -/
abbrev PropertyId := Nat

/-- `uint256` transaction hashes, printed as 64 hexadecimal digits. -/
abbrev Txid := Nat

/-- The base58 alphabet of addresses: no `0`, `O`, `I`, `l`, and no punctuation. -/
def isBase58 (c : Char) : Bool :=
  c.isAlphanum && c != '0' && c != 'O' && c != 'I' && c != 'l'

/-- An address: a non-empty base58 text. -/
structure Address where
  text : Text
  ne_nil : text ≠ []
  base58 : text.all isBase58 = true
  deriving DecidableEq

namespace Address

/-- The address a text spells, if it spells one. -/
def ofText? (t : Text) : Option Address :=
  if h : t ≠ [] ∧ t.all isBase58 = true then some ⟨t, h.1, h.2⟩ else none

instance : Ord Address := ⟨fun a b => compare a.text b.text⟩

instance : TransOrd Address := inferInstanceAs (TransCmp (compareOn Address.text))

theorem text_injective : Function.Injective Address.text := by
  rintro ⟨t, _, _⟩ ⟨u, _, _⟩ h
  cases h
  rfl

instance : LawfulEqOrd Address where
  compare_self {a} := by
    show compare a.text a.text = .eq
    exact ReflCmp.compare_self
  eq_of_compare {a b} h := by
    have ht : compare a.text b.text = .eq := h
    exact text_injective (LawfulEqCmp.eq_of_compare ht)

@[simp] theorem ofText?_text (a : Address) : ofText? a.text = some a := by
  unfold ofText?
  rw [dif_pos ⟨a.ne_nil, a.base58⟩]

theorem ofText?_eq_some {t : Text} {a : Address} (h : ofText? t = some a) : a.text = t := by
  unfold ofText? at h
  split at h
  · cases h
    rfl
  · cases h

/-- An address contains no separator that is outside the base58 alphabet. -/
theorem free_text {p : Char → Bool} (hp : ∀ c, isBase58 c = true → p c = false) (a : Address) :
    Free p a.text :=
  fun c hc => hp c (List.all_eq_true.mp a.base58 c hc)

end Address

/-! ## Properties and ecosystems -/

/-- `OMNI_PROPERTY_BTC`. -/
def omniPropertyBTC : PropertyId := 0

/-- `OMNI_PROPERTY_MSC`. -/
def omniPropertyMSC : PropertyId := 1

/-- `OMNI_PROPERTY_TMSC`. -/
def omniPropertyTMSC : PropertyId := 2

/-- `TEST_ECO_PROPERTY_1`: the first property of the test ecosystem. -/
def testEcoProperty1 : PropertyId := 0x80000003

def isTestEcosystemProperty (p : PropertyId) : Bool :=
  p == omniPropertyTMSC || decide (testEcoProperty1 ≤ p)

def isMainEcosystemProperty (p : PropertyId) : Bool :=
  p != omniPropertyBTC && !isTestEcosystemProperty p

/-! ## Balance records -/

/-- The amounts kept for one address and one property. -/
inductive TallyType
  | balance
  | sellOfferReserve
  | acceptReserve
  | pending
  | metaDExReserve
  | contractDExReserve
  | possitiveBalance
  | negativeBalance
  | realizedProfit
  | realizedLosses
  | count
  | remaining
  | liquidationPrice
  deriving DecidableEq, Repr

/-- One balance record. Every amount fits `int64_t`, and only `PENDING` may be negative. -/
structure BalanceRecord where
  balance : TallyType → Int
  inRange : ∀ t, IsInt64 (balance t)
  nonneg : ∀ t, t ≠ .pending → 0 ≤ balance t

namespace BalanceRecord

/-- A fresh record. -/
def zero : BalanceRecord where
  balance _ := 0
  inRange _ := by decide
  nonneg _ _ := le_rfl

/-- Checks whether the addition of `a + b` overflows. -/
def isOverflow (a b : Int) : Bool :=
  (decide (0 < b) && decide (maxInt64 - b < a)) || (decide (b < 0) && decide (a < minInt64 - b))

theorem isOverflow_eq_false_iff {a b : Int} (ha : IsInt64 a) :
    isOverflow a b = false ↔ IsInt64 (a + b) := by
  unfold isOverflow
  unfold IsInt64 minInt64 maxInt64 at *
  simp only [Bool.or_eq_false_iff, Bool.and_eq_false_iff, decide_eq_false_iff_not]
  omega

/-- The record with `amount` added to one type, where the result is a record again. -/
def add (r : BalanceRecord) (ty : TallyType) (amount : Int) (hr : IsInt64 (r.balance ty + amount))
    (hn : ty ≠ .pending → 0 ≤ r.balance ty + amount) : BalanceRecord where
  balance := Function.update r.balance ty (r.balance ty + amount)
  inRange t := by
    by_cases h : t = ty
    · subst h
      simpa using hr
    · simpa [h] using r.inRange t
  nonneg t ht := by
    by_cases h : t = ty
    · subst h
      simpa using hn ht
    · simpa [h] using r.nonneg t ht

end BalanceRecord

/-! ## The tally of one address -/

/-- Balance records of a single address, by property. -/
structure CMPTally where
  mpToken : ExtTreeMap PropertyId BalanceRecord

namespace CMPTally

/-- An empty tally. -/
def empty : CMPTally := ⟨∅⟩

/-- The record of a property; a missing record reads as zeros. -/
def record (t : CMPTally) (p : PropertyId) : BalanceRecord := (t.mpToken[p]?).getD .zero

def getMoney (t : CMPTally) (p : PropertyId) (ty : TallyType) : Int := (t.record p).balance ty

/-- Adds `amount` to one balance. Looking the balance up already creates its record, so a
    refused update may still leave a new zero record behind. -/
def updateMoney (t : CMPTally) (p : PropertyId) (amount : Int) (ty : TallyType) :
    Bool × CMPTally :=
  if amount = 0 then (false, t)
  else
    let r := t.record p
    if ho : BalanceRecord.isOverflow (r.balance ty) amount = true then
      (false, ⟨t.mpToken.insert p r⟩)
    else if hn : ty ≠ .pending ∧ r.balance ty + amount < 0 then
      (false, ⟨t.mpToken.insert p r⟩)
    else
      (true, ⟨t.mpToken.insert p
        (r.add ty amount
          ((BalanceRecord.isOverflow_eq_false_iff (r.inRange ty)).mp (by simpa using ho))
          (fun h => not_lt.mp fun hlt => hn ⟨h, hlt⟩))⟩)

theorem inRange (t : CMPTally) (p : PropertyId) (ty : TallyType) : IsInt64 (t.getMoney p ty) :=
  (t.record p).inRange ty

theorem getMoney_nonneg (t : CMPTally) (p : PropertyId) {ty : TallyType} (h : ty ≠ .pending) :
    0 ≤ t.getMoney p ty :=
  (t.record p).nonneg ty h

@[simp] theorem getMoney_empty (p : PropertyId) (ty : TallyType) : empty.getMoney p ty = 0 := by
  simp [getMoney, record, empty, BalanceRecord.zero]

/-- Writing a record changes the amounts of that property only. -/
theorem getMoney_insert (t : CMPTally) (p q : PropertyId) (r : BalanceRecord) (ty : TallyType) :
    (CMPTally.mk (t.mpToken.insert p r)).getMoney q ty =
      if p = q then r.balance ty else t.getMoney q ty := by
  unfold getMoney record
  rw [ExtTreeMap.getElem?_insert]
  by_cases h : p = q
  · subst h
    simp
  · simp [h]

/-- `updateMoney` succeeds exactly on a non-zero amount that keeps the record legal. -/
theorem updateMoney_fst_iff (t : CMPTally) (p : PropertyId) (amount : Int) (ty : TallyType) :
    (t.updateMoney p amount ty).1 = true ↔
      amount ≠ 0 ∧ IsInt64 (t.getMoney p ty + amount) ∧
        (ty ≠ .pending → 0 ≤ t.getMoney p ty + amount) := by
  unfold updateMoney
  have hov := BalanceRecord.isOverflow_eq_false_iff (b := amount) ((t.record p).inRange ty)
  by_cases h0 : amount = 0
  · simp [h0]
  · rw [if_neg h0]
    dsimp only
    split
    · next ho =>
        have hno : ¬ IsInt64 ((t.record p).balance ty + amount) := by
          rw [← hov, ho]
          simp
        simp [getMoney, hno]
    · next ho =>
        have hyes : IsInt64 ((t.record p).balance ty + amount) := hov.mp (by simpa using ho)
        split
        · next hn =>
            simp only [Bool.false_eq_true, false_iff]
            rintro ⟨-, -, h⟩
            exact absurd (h hn.1) (not_le.mpr hn.2)
        · next hn =>
            simp only [true_iff]
            exact ⟨h0, hyes, fun h => not_lt.mp fun hlt => hn ⟨h, hlt⟩⟩

/-- What a `updateMoney` leaves behind: the amount added on success, nothing changed on
    failure. -/
theorem getMoney_updateMoney (t : CMPTally) (p q : PropertyId) (amount : Int)
    (ty ty' : TallyType) :
    (t.updateMoney p amount ty).2.getMoney q ty' = t.getMoney q ty' +
      if (t.updateMoney p amount ty).1 = true ∧ q = p ∧ ty' = ty then amount else 0 := by
  have hsame : ∀ q ty', (CMPTally.mk (t.mpToken.insert p (t.record p))).getMoney q ty' =
      t.getMoney q ty' := by
    intro q ty'
    rw [getMoney_insert]
    split
    · next h =>
        subst h
        rfl
    · rfl
  unfold updateMoney
  by_cases h0 : amount = 0
  · simp [h0]
  · rw [if_neg h0]
    dsimp only
    split
    · simpa using hsame q ty'
    · split
      · simpa using hsame q ty'
      · rw [getMoney_insert]
        by_cases hq : p = q
        · subst hq
          by_cases hty : ty' = ty
          · subst hty
            simp [BalanceRecord.add, getMoney]
          · simp [BalanceRecord.add, getMoney, hty]
        · simp [hq, Ne.symm hq]

end CMPTally

end OmniCore
