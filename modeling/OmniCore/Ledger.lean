import OmniCore.State

/-! # Ledger — balances of all addresses and their totals

    `update_tally_map` on the node state, the balance it changes, and the totals
    over all addresses. Callers never unfold it: they cite `wp_assertUpdate`, which
    gives the new ledger through `Credited` — one balance moved by the amount, every
    other balance and every other total as before. -/

namespace OmniCore

open Std (ExtTreeMap ExtTreeSet)
open Machine TextRec MapSum Exec

namespace TallyMap

/-- The tally of an address; an unknown address has an empty one. -/
def tallyOf (m : TallyMap) (a : Address) : CMPTally := (m[a]?).getD .empty

/-- One balance of one address. -/
def money (m : TallyMap) (a : Address) (p : PropertyId) (ty : TallyType) : Int :=
  (m.tallyOf a).getMoney p ty

/-- The sum of one balance over all addresses. -/
def total (m : TallyMap) (p : PropertyId) (ty : TallyType) : Int :=
  msum m fun _ t => t.getMoney p ty

/-- `updateMoney` on the tally of one address, which is created if it is missing. -/
def update (m : TallyMap) (who : Address) (p : PropertyId) (amount : Int) (ty : TallyType) :
    Bool × TallyMap :=
  let r := (m.tallyOf who).updateMoney p amount ty
  (r.1, m.insert who r.2)

@[simp] theorem money_empty (a : Address) (p : PropertyId) (ty : TallyType) :
    money ∅ a p ty = 0 := by
  simp [money, tallyOf]

theorem isInt64_money (m : TallyMap) (a : Address) (p : PropertyId) (ty : TallyType) :
    IsInt64 (m.money a p ty) :=
  (m.tallyOf a).inRange p ty

theorem money_nonneg (m : TallyMap) (a : Address) (p : PropertyId) {ty : TallyType}
    (h : ty ≠ .pending) : 0 ≤ m.money a p ty :=
  (m.tallyOf a).getMoney_nonneg p h

theorem money_le (m : TallyMap) (a : Address) (p : PropertyId) (ty : TallyType) :
    m.money a p ty ≤ maxInt64 :=
  (m.isInt64_money a p ty).2

theorem money_eq_elim (m : TallyMap) (a : Address) (p : PropertyId) (ty : TallyType) :
    m.money a p ty = (m[a]?).elim 0 fun t => t.getMoney p ty := by
  unfold money tallyOf
  cases m[a]? <;> simp

theorem money_insert (m : TallyMap) (who a : Address) (t : CMPTally) (p : PropertyId)
    (ty : TallyType) :
    (TallyMap.money (m.insert who t) a p ty) =
      if who = a then t.getMoney p ty else m.money a p ty := by
  unfold money tallyOf
  rw [ExtTreeMap.getElem?_insert]
  by_cases h : who = a
  · subst h
    simp
  · have hc : compare who a ≠ .eq := fun hc => h (Std.LawfulEqOrd.eq_of_compare hc)
    simp [h, hc]

/-- One address holds at most the total. -/
theorem money_le_total (m : TallyMap) (a : Address) (p : PropertyId) {ty : TallyType}
    (h : ty ≠ .pending) : m.money a p ty ≤ m.total p ty := by
  have hpos : ∀ k v, m[k]? = some v → 0 ≤ (fun (_ : Address) (t : CMPTally) => t.getMoney p ty) k v :=
    fun _ v _ => v.getMoney_nonneg p h
  rw [money_eq_elim]
  cases ha : m[a]? with
  | none => exact msum_nonneg hpos
  | some t => exact le_msum hpos ha

theorem total_nonneg (m : TallyMap) (p : PropertyId) {ty : TallyType} (h : ty ≠ .pending) :
    0 ≤ m.total p ty :=
  msum_nonneg fun _ v _ => v.getMoney_nonneg p h

end TallyMap

/-! ## One credit or debit -/

/-- `m'` is `m` with `amount` added to one balance of one address. -/
structure Credited (m m' : TallyMap) (who : Address) (p : PropertyId) (amount : Int)
    (ty : TallyType) : Prop where
  money : ∀ a q t, m'.money a q t =
    m.money a q t + if a = who ∧ q = p ∧ t = ty then amount else 0
  total : ∀ q t, m'.total q t = m.total q t + if q = p ∧ t = ty then amount else 0

theorem credited_update {m : TallyMap} {who : Address} {p : PropertyId} {amount : Int}
    {ty : TallyType} (h : (m.update who p amount ty).1 = true) :
    Credited m (m.update who p amount ty).2 who p amount ty := by
  have hok : ((m.tallyOf who).updateMoney p amount ty).1 = true := h
  have hmoney := (m.tallyOf who).getMoney_updateMoney p
  refine ⟨?_, ?_⟩
  · intro a q t
    show TallyMap.money (m.insert who _) a q t = _
    rw [TallyMap.money_insert]
    by_cases ha : who = a
    · subst ha
      rw [if_pos rfl, hmoney, hok]
      simp [TallyMap.money]
    · simp [ha, Ne.symm ha]
  · intro q t
    show msum (m.insert who _) _ = _
    rw [msum_insert_sub, hmoney, hok]
    have hwho := TallyMap.money_eq_elim m who q t
    unfold TallyMap.money at hwho
    simp only [TallyMap.total, true_and]
    omega

/-- A refused update changes no balance and no total. -/
theorem money_update_of_false {m : TallyMap} {who : Address} {p : PropertyId} {amount : Int}
    {ty : TallyType} (h : (m.update who p amount ty).1 = false) (a : Address) (q : PropertyId)
    (t : TallyType) : (m.update who p amount ty).2.money a q t = m.money a q t := by
  have hno : ((m.tallyOf who).updateMoney p amount ty).1 = false := h
  show TallyMap.money (m.insert who _) a q t = _
  rw [TallyMap.money_insert]
  by_cases ha : who = a
  · subst ha
    rw [if_pos rfl, CMPTally.getMoney_updateMoney, hno]
    simp [TallyMap.money]
  · rw [if_neg ha]

/-! ## Postings -/

/-- One line of a posting: an amount added to one balance. -/
structure Entry where
  who : Address
  property : PropertyId
  amount : Int
  ty : TallyType

namespace Entry

/-- What the entry adds to a balance. -/
def toMoney (e : Entry) (a : Address) (p : PropertyId) (t : TallyType) : Int :=
  if a = e.who ∧ p = e.property ∧ t = e.ty then e.amount else 0

/-- What the entry adds to a total. -/
def toTotal (e : Entry) (p : PropertyId) (t : TallyType) : Int :=
  if p = e.property ∧ t = e.ty then e.amount else 0

end Entry

/-- `m'` is `m` after a list of entries. -/
structure Posted (m m' : TallyMap) (l : List Entry) : Prop where
  money : ∀ a p t, m'.money a p t = m.money a p t + (l.map fun e => e.toMoney a p t).sum
  total : ∀ p t, m'.total p t = m.total p t + (l.map fun e => e.toTotal p t).sum

theorem Posted.refl (m : TallyMap) : Posted m m [] := ⟨by simp, by simp⟩

theorem Posted.trans {m m' m'' : TallyMap} {l l' : List Entry} (h : Posted m m' l)
    (h' : Posted m' m'' l') : Posted m m'' (l ++ l') := by
  refine ⟨?_, ?_⟩
  · intro a p t
    rw [h'.money, h.money, List.map_append, List.sum_append, add_assoc]
  · intro p t
    rw [h'.total, h.total, List.map_append, List.sum_append, add_assoc]

theorem Credited.posted {m m' : TallyMap} {who : Address} {p : PropertyId} {amount : Int}
    {ty : TallyType} (h : Credited m m' who p amount ty) :
    Posted m m' [⟨who, p, amount, ty⟩] := by
  refine ⟨?_, ?_⟩
  · intro a q t
    rw [h.money]
    simp [Entry.toMoney]
  · intro q t
    rw [h.total]
    simp [Entry.toTotal]

/-- An entry of amount zero in front says nothing. -/
@[simp] theorem posted_zero_cons {m m' : TallyMap} {l : List Entry} {who : Address}
    {p : PropertyId} {ty : TallyType} :
    Posted m m' (⟨who, p, 0, ty⟩ :: l) ↔ Posted m m' l := by
  constructor
  · intro h
    exact ⟨fun a q t => by simpa [Entry.toMoney] using h.money a q t,
      fun q t => by simpa [Entry.toTotal] using h.total q t⟩
  · intro h
    exact ⟨fun a q t => by simpa [Entry.toMoney] using h.money a q t,
      fun q t => by simpa [Entry.toTotal] using h.total q t⟩

theorem Posted.perm {m m' : TallyMap} {l l' : List Entry} (h : Posted m m' l) (hl : l.Perm l') :
    Posted m m' l' :=
  ⟨fun a p t => by rw [h.money, (hl.map _).sum_eq], fun p t => by rw [h.total, (hl.map _).sum_eq]⟩

@[simp] theorem posted_cons_zero {m m' : TallyMap} {l : List Entry} {who : Address}
    {p : PropertyId} {ty : TallyType} {e : Entry} :
    Posted m m' (e :: ⟨who, p, 0, ty⟩ :: l) ↔ Posted m m' (e :: l) := by
  constructor
  · intro h
    exact posted_zero_cons.mp (h.perm (List.Perm.swap _ _ _))
  · intro h
    exact (posted_zero_cons.mpr h).perm (List.Perm.swap _ _ _)

/-! ## `update_tally_map` -/

namespace State

/-- The state with another ledger. -/
@[simps]
def withTally (s : State) (m : TallyMap) : State := { s with tallyMap := m }

@[simp] theorem withTally_withTally (s : State) (m m' : TallyMap) :
    (s.withTally m).withTally m' = s.withTally m' := rfl

@[simp] theorem withTally_tallyMap_self (s : State) : s.withTally s.tallyMap = s := rfl

def isAddressFrozen (s : State) (a : Address) (p : PropertyId) : Bool :=
  s.frozenAddresses.contains (a, p)

/-- A balance as callers see it. `ACCEPT_RESERVE` is always reported empty, except for MSC
    and TMSC. -/
def getMPbalance (s : State) (a : Address) (p : PropertyId) (ty : TallyType) : Int :=
  if ty = .acceptReserve ∧ omniPropertyTMSC < p then 0 else s.tallyMap.money a p ty

theorem getMPbalance_eq (s : State) (a : Address) (p : PropertyId) {ty : TallyType}
    (h : ty ≠ .acceptReserve) : s.getMPbalance a p ty = s.tallyMap.money a p ty := by
  simp [getMPbalance, h]

end State

/-- Credits or debits one balance. A debit of `BALANCE` first asserts that the balance is not
    frozen, a refused update that nothing changed. -/
def updateTallyMap (who : Address) (p : PropertyId) (amount : Int) (ty : TallyType) :
    ExecM Bool := do
  if amount = 0 then
    pure false
  else
    let s ← get
    if ty = .balance ∧ amount < 0 then
      assertThat .frozen (!s.isAddressFrozen who p)
    let before := s.getMPbalance who p ty
    let r := s.tallyMap.update who p amount ty
    set (s.withTally r.2)
    let after := State.getMPbalance (s.withTally r.2) who p ty
    if r.1 = false then
      assertThat .condition (before == after)
    pure r.1

/-- `assert(update_tally_map(..))`. -/
def assertUpdate (who : Address) (p : PropertyId) (amount : Int) (ty : TallyType) :
    ExecM Unit := do
  let ok ← updateTallyMap who p amount ty
  assertThat .updateTally ok

/-- The update goes through: a non-zero amount, the sum a legal balance, and no debit of a
    frozen balance. -/
structure CanUpdate (s : State) (who : Address) (p : PropertyId) (amount : Int)
    (ty : TallyType) : Prop where
  ne_zero : amount ≠ 0
  inRange : IsInt64 (s.tallyMap.money who p ty + amount)
  nonneg : ty ≠ .pending → 0 ≤ s.tallyMap.money who p ty + amount
  unfrozen : ty = .balance → amount < 0 → s.isAddressFrozen who p = false

theorem update_fst_of_canUpdate {s : State} {who : Address} {p : PropertyId} {amount : Int}
    {ty : TallyType} (h : CanUpdate s who p amount ty) :
    (s.tallyMap.update who p amount ty).1 = true :=
  ((s.tallyMap.tallyOf who).updateMoney_fst_iff p amount ty).mpr
    ⟨h.ne_zero, h.inRange, h.nonneg⟩

/-- **THE LEDGER RULE**: an asserted update either goes through and moves one balance, or
    halts at one of its two assertions. -/
theorem wp_assertUpdate {who : Address} {p : PropertyId} {amount : Int} {ty : TallyType}
    {Q : Unit → State → Prop} {E : Halt → State → Prop} {s : State}
    (hok : CanUpdate s who p amount ty → ∀ m', Credited s.tallyMap m' who p amount ty →
      Q () (s.withTally m'))
    (hbad : ¬ CanUpdate s who p amount ty → ∀ site m',
      site = AssertSite.updateTally ∨ site = AssertSite.frozen →
      E (.assertFailed site) (s.withTally m')) :
    wp (assertUpdate who p amount ty) Q E s := by
  unfold assertUpdate updateTallyMap
  simp only [wp_bind, wp_ite, wp_pure, wp_get, wp_set, wp_assertThat]
  refine ⟨?_, ?_⟩
  · -- a zero amount is refused before the ledger is touched
    intro h0
    refine ⟨by simp, fun _ => ?_⟩
    exact hbad (fun h => h.ne_zero h0) .updateTally s.tallyMap (Or.inl rfl)
  · intro h0
    have htail : (ty = .balance → amount < 0 → s.isAddressFrozen who p = false) →
        wp (do
          set (s.withTally (s.tallyMap.update who p amount ty).2)
          if (s.tallyMap.update who p amount ty).1 = false then
            assertThat .condition (s.getMPbalance who p ty ==
              State.getMPbalance (s.withTally (s.tallyMap.update who p amount ty).2)
                who p ty)
          pure (s.tallyMap.update who p amount ty).1 : ExecM Bool)
          (fun ok s' => (ok = true → Q () s') ∧ (ok = false → E (.assertFailed .updateTally) s'))
          E s := by
      intro hfr
      simp only [wp_bind, wp_ite, wp_pure, wp_set, wp_assertThat]
      cases hu : (s.tallyMap.update who p amount ty).1 with
      | true =>
          refine ⟨by simp, fun _ => ⟨fun _ => ?_, by simp⟩⟩
          have hm := ((s.tallyMap.tallyOf who).updateMoney_fst_iff p amount ty).mp hu
          exact hok ⟨hm.1, hm.2.1, hm.2.2, hfr⟩ _ (credited_update hu)
      | false =>
          have hsame : State.getMPbalance
              (s.withTally (s.tallyMap.update who p amount ty).2) who p ty =
              s.getMPbalance who p ty := by
            unfold State.getMPbalance
            rw [State.withTally_tallyMap, money_update_of_false hu]
          refine ⟨fun _ => ⟨fun _ => ⟨by simp, fun _ => ?_⟩, ?_⟩, by simp⟩
          · refine hbad (fun h => ?_) .updateTally _ (Or.inl rfl)
            rw [update_fst_of_canUpdate h] at hu
            exact absurd hu (by simp)
          · intro hne
            rw [hsame] at hne
            simp at hne
    simp only [wp_bind, wp_ite, wp_pure, wp_set, wp_assertThat] at htail
    refine ⟨?_, ?_⟩
    · rintro ⟨hty, hneg⟩
      refine ⟨fun hf => htail (fun _ _ => by simpa using hf), fun hf => ?_⟩
      refine hbad (fun h => ?_) .frozen s.tallyMap (Or.inr rfl)
      have := h.unfrozen hty hneg
      simp [this] at hf
    · intro hc
      exact htail (fun hty hneg => absurd ⟨hty, hneg⟩ hc)

/-- An update that goes through, as a total-correctness rule. -/
theorem wp_assertUpdate_of_canUpdate {who : Address} {p : PropertyId} {amount : Int}
    {ty : TallyType} {Q : Unit → State → Prop} {E : Halt → State → Prop} {s : State}
    (hcan : CanUpdate s who p amount ty)
    (hok : ∀ m', Credited s.tallyMap m' who p amount ty → Q () (s.withTally m')) :
    wp (assertUpdate who p amount ty) Q E s :=
  wp_assertUpdate (fun _ => hok) (fun h => absurd hcan h)

end OmniCore
