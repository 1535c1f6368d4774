import OmniCore.ContractRun
import OmniCore.SendToOwners
import OmniCore.Supply
import OmniCore.Lib.Serve

/-! # OwnerShares — what the holders of a property receive

    Every holder should get the rounded-up share of what it owns. The shares are handed
    out in order of the holdings until the amount is used up, and the rounding makes sure
    that it is. The walk over the tally map may come in any order. -/

namespace OmniCore

open Std (ExtTreeMap)
open Machine TextRec MapSum Exec Serve

/-! ## Holdings -/

namespace TallyMap

/-- What an address holds of a property, reserved or not. -/
def held (m : TallyMap) (a : Address) (p : PropertyId) : Int := (m.tallyOf a).held p

/-- What all others hold. -/
def heldByOthers (m : TallyMap) (sender : Option Address) (p : PropertyId) : Int :=
  msum m fun a t => if sender = some a then 0 else t.held p

/-- The address comes before the other: it holds more, or as much and its text is smaller. -/
def ServedBefore (m : TallyMap) (p : PropertyId) (a b : Address) : Prop :=
  m.held b p < m.held a p ∨ m.held a p = m.held b p ∧ compare a b = .lt

instance (m : TallyMap) (p : PropertyId) (a b : Address) : Decidable (m.ServedBefore p a b) :=
  inferInstanceAs (Decidable (_ ∨ _))

end TallyMap

theorem CMPTally.held_nonneg (t : CMPTally) (p : PropertyId) : 0 ≤ t.held p := by
  have hbalance := t.getMoney_nonneg p (show TallyType.balance ≠ .pending by simp)
  have hsell := t.getMoney_nonneg p (show TallyType.sellOfferReserve ≠ .pending by simp)
  have haccept := t.getMoney_nonneg p (show TallyType.acceptReserve ≠ .pending by simp)
  have hmeta := t.getMoney_nonneg p (show TallyType.metaDExReserve ≠ .pending by simp)
  unfold CMPTally.held
  omega

/-- All holdings together are the supply. -/
theorem msum_held (m : TallyMap) (p : PropertyId) : msum m (fun _ t => t.held p) = m.supply p := by
  unfold TallyMap.supply TallyMap.total CMPTally.held
  rw [msum_add, msum_add, msum_add]

/-! ## The walk over the tally map -/

/-- The walk, over the entries in whatever order they come. -/
def stoGetReceiversOver (entries : List (Address × CMPTally)) (sender : Option Address)
    (property : PropertyId) (amount : Int) : ExecM OwnerAddrType := do
  let (totalTokens, ownerAddrSet) ← entries.foldlM (collectOwner sender property) (0, ∅)
  allocate amount totalTokens (OwnerAddrType.descending ownerAddrSet) 0 ∅

/-- `STO_GetReceivers` takes the entries in one of these orders. -/
theorem stoGetReceivers_eq (sender : Option Address) (property : PropertyId) (amount : Int)
    (s : State) : stoGetReceivers sender property amount s =
      stoGetReceiversOver s.tallyMap.toList sender property amount s := rfl

/-- The tokens of the other holders, entry by entry. -/
def othersHeld (sender : Option Address) (p : PropertyId) (e : Address × CMPTally) : Int :=
  if sender = some e.1 then 0 else e.2.held p

/-- The other holders. -/
def otherOwners (sender : Option Address) (p : PropertyId) (entries : List (Address × CMPTally)) :
    List (Int × Address) :=
  (entries.filter fun e => decide (0 < othersHeld sender p e)).map fun e => (e.2.held p, e.1)

section Walk

variable {sender : Option Address} {p : PropertyId} {s : State}

/-- **THE WALK** sums up what the others hold, and collects them. -/
theorem collect_returns {entries : List (Address × CMPTally)} {acc : Int × OwnerAddrType}
    (h0 : 0 ≤ acc.1) (hbound : acc.1 + (entries.map fun e => e.2.held p).sum ≤ maxInt64) :
    wp (entries.foldlM (collectOwner sender p) acc)
      (fun r s' => s' = s ∧ r = (acc.1 + (entries.map (othersHeld sender p)).sum,
        insertAll (otherOwners sender p entries) acc.2)) (fun _ _ => False) s := by
  induction entries generalizing acc with
  | nil =>
      rw [List.foldlM_nil]
      refine (wp_pure _ _ _ _).mpr ⟨rfl, ?_⟩
      rw [List.map_nil, List.sum_nil, add_zero]
      rfl
  | cons e rest ih =>
      rw [List.map_cons, List.sum_cons] at hbound
      have he := e.2.held_nonneg p
      have hrest : 0 ≤ (rest.map fun e => e.2.held p).sum := by
        refine List.sum_nonneg fun y hy => ?_
        obtain ⟨z, _, rfl⟩ := List.mem_map.mp hy
        exact z.2.held_nonneg p
      have hint : IsInt64 (e.2.held p) := by
        unfold IsInt64 minInt64
        omega
      have hsum : IsInt64 (acc.1 + e.2.held p) := by
        unfold IsInt64 minInt64
        omega
      rw [List.foldlM_cons, wp_bind]
      unfold collectOwner
      rw [wp_bind, wp_signed64]
      refine ⟨fun _ => ?_, fun hno => hno hint⟩
      rw [wp_ite]
      constructor
      · -- the sender is left out
        intro hsender
        have hzero : othersHeld sender p e = 0 := if_pos hsender
        have howners : otherOwners sender p (e :: rest) = otherOwners sender p rest := by
          unfold otherOwners
          rw [List.filter_cons_of_neg (by rw [hzero]; decide)]
        rw [wp_pure, List.map_cons, List.sum_cons, hzero, zero_add, howners]
        exact ih h0 (by omega)
      · intro hother
        have hheld : othersHeld sender p e = e.2.held p := if_neg hother
        rw [wp_bind, wp_signed64]
        refine ⟨fun _ => ?_, fun hno => hno hsum⟩
        rw [wp_pure, List.map_cons, List.sum_cons, hheld]
        have hset : (if 0 < e.2.held p then acc.2.insert (e.2.held p, e.1) () else acc.2) =
            insertAll (otherOwners sender p [e]) acc.2 := by
          unfold otherOwners
          by_cases hpos : 0 < e.2.held p
          · rw [if_pos hpos, List.filter_cons_of_pos (by rw [hheld]; exact decide_eq_true hpos)]
            rfl
          · rw [if_neg hpos, List.filter_cons_of_neg (by rw [hheld]; simpa using hpos)]
            rfl
        have happend : insertAll (otherOwners sender p (e :: rest)) acc.2 =
            insertAll (otherOwners sender p rest) (insertAll (otherOwners sender p [e]) acc.2) := by
          have hsplit : otherOwners sender p (e :: rest) =
              otherOwners sender p [e] ++ otherOwners sender p rest := by
            unfold otherOwners
            rw [← List.map_append, ← List.filter_append, List.singleton_append]
          rw [hsplit]
          exact List.foldl_append
        rw [hset, happend, ← add_assoc]
        exact ih (by dsimp only; omega) (by dsimp only; omega)

end Walk

/-! ## Handing out -/

/-- The rounded-up share of a holding. -/
def shareOf (amount totalTokens : Int) (e : Int × Address) : Int :=
  divideAndRoundUp (e.1.toNat * amount.toNat) totalTokens.toNat

/-- **THE SHARES** are handed out in the order of the owners. -/
theorem allocate_returns {amount totalTokens : Int} {owners : List (Int × Address)} {sentSoFar : Int}
    (receiversSet : OwnerAddrType) {s : State} (hpos : 0 < amount) (hmax : amount ≤ maxInt64)
    (htotal : totalTokens ≤ maxInt64) (hsent : 0 ≤ sentSoFar) (hleft : sentSoFar ≤ amount)
    (howners : ∀ e ∈ owners, 0 < e.1 ∧ e.1 ≤ totalTokens) :
    wp (allocate amount totalTokens owners sentSoFar receiversSet)
      (fun r s' => s' = s ∧ r = insertAll
        ((serve (shareOf amount totalTokens) (amount - sentSoFar) owners).map
          fun e => (e.1, e.2.2)) receiversSet)
      (fun _ _ => False) s := by
  induction owners generalizing sentSoFar receiversSet with
  | nil => exact (wp_pure _ _ _ _).mpr ⟨rfl, rfl⟩
  | cons e rest ih =>
      obtain ⟨tokens, address⟩ := e
      obtain ⟨htokens, hle⟩ := howners _ List.mem_cons_self
      dsimp only at htokens hle
      have hmul : mul256 tokens.toNat amount.toNat = tokens.toNat * amount.toNat := by
        unfold maxInt64 at hmax htotal
        exact mul256_eq (by omega) (by omega)
      have hsmall : tokens.toNat * amount.toNat < 2 ^ 255 := by
        unfold maxInt64 at hmax htotal
        have hlt : tokens.toNat * amount.toNat < 2 ^ 63 * 2 ^ 63 :=
          Nat.mul_lt_mul'' (by omega) (by omega)
        exact hlt.trans (by norm_num)
      -- nobody is due more than the amount
      have hfits : ((divideAndRoundUp (tokens.toNat * amount.toNat) totalTokens.toNat : Nat) : Int) ≤
          maxInt64 := by
        have hdue : divideAndRoundUp (tokens.toNat * amount.toNat) totalTokens.toNat ≤
            amount.toNat := by
          rw [divideAndRoundUp_le_iff (by omega) hsmall, Nat.mul_comm]
          exact Nat.mul_le_mul_left _ (by omega)
        omega
      rw [allocate, wp_bind, wp_convertTo256]
      refine ⟨fun _ => ?_, fun hneg => absurd hneg (by omega)⟩
      rw [wp_bind, wp_convertTo256]
      refine ⟨fun _ => ?_, fun hneg => absurd hneg (by omega)⟩
      rw [wp_bind, wp_convertTo256]
      refine ⟨fun _ => ?_, fun hneg => absurd hneg (by omega)⟩
      rw [hmul, wp_bind, wp_convertTo64]
      refine ⟨fun _ => ?_, fun hlt => absurd hlt (not_lt.mpr hfits)⟩
      have hreceive : (if amount - sentSoFar <
            ((divideAndRoundUp (tokens.toNat * amount.toNat) totalTokens.toNat : Nat) : Int) then
            amount - sentSoFar
          else ((divideAndRoundUp (tokens.toNat * amount.toNat) totalTokens.toNat : Nat) : Int)) =
          min (amount - sentSoFar) (shareOf amount totalTokens (tokens, address)) := by
        unfold shareOf
        split
        · next hlt => exact (min_eq_left hlt.le).symm
        · next hge => exact (min_eq_right (not_lt.mp hge)).symm
      dsimp only
      rw [hreceive, wp_ite]
      unfold serve
      constructor
      · intro hreally
        rw [if_pos hreally, List.map_cons]
        have hbound := min_le_left (amount - sentSoFar)
          (shareOf amount totalTokens (tokens, address))
        generalize min (amount - sentSoFar) (shareOf amount totalTokens (tokens, address)) =
          willReceive at hreally hbound ⊢
        have hsent' : 0 ≤ sentSoFar + willReceive := by omega
        have hleft' : sentSoFar + willReceive ≤ amount := by omega
        have hnext := ih (receiversSet.insert (willReceive, address) ()) hsent' hleft'
          fun x hx => howners x (List.mem_cons_of_mem _ hx)
        rw [← sub_sub] at hnext
        exact hnext
      · intro hstop
        rw [if_neg hstop]
        exact (wp_pure _ _ _ _).mpr ⟨rfl, rfl⟩

/-! ## The split -/

/-- **THE SPLIT AS IT SHOULD BE**: distinct other holders receive, each at least 1 and at most its
    rounded-up share, together exactly the amount. They are served in order, each with its share or
    with what those before have left, and whoever receives nothing comes after all of them. -/
structure OwnersServed (m : TallyMap) (sender : Option Address) (p : PropertyId) (amount : Int)
    (receivers : List (Int × Address)) : Prop where
  distinct : (receivers.map Prod.snd).Nodup
  holder : ∀ e ∈ receivers, sender ≠ some e.2 ∧ 0 < m.held e.2 p
  share : ∀ e ∈ receivers, 1 ≤ e.1 ∧
    e.1 ≤ ⌈((amount * m.held e.2 p : Int) : ℚ) / m.heldByOthers sender p⌉
  sum : (receivers.map Prod.fst).sum = amount
  served : ∀ e ∈ receivers, e.1 = min
    (amount - ((receivers.filter fun e' => decide (m.ServedBefore p e'.2 e.2)).map Prod.fst).sum)
    ⌈((amount * m.held e.2 p : Int) : ℚ) / m.heldByOthers sender p⌉
  leftOut : ∀ a, sender ≠ some a → 0 < m.held a p → a ∉ receivers.map Prod.snd →
    ∀ e ∈ receivers, m.ServedBefore p e.2 a

theorem servedBefore_asymm {m : TallyMap} {p : PropertyId} {a b : Address}
    (h : m.ServedBefore p a b) : ¬m.ServedBefore p b a := by
  rintro h'
  rcases h with hlt | ⟨heq, hab⟩
  · rcases h' with hlt' | ⟨heq', _⟩
    · omega
    · omega
  · rcases h' with hlt' | ⟨_, hba⟩
    · omega
    · have hswap : compare b a = (compare a b).swap := Std.OrientedCmp.eq_swap
      rw [hswap, hab] at hba
      cases hba

section Split

variable {m : TallyMap} {sender : Option Address} {p : PropertyId}

theorem held_of_mem {e : Address × CMPTally} (he : e ∈ m.toList) : m.held e.1 p = e.2.held p := by
  unfold TallyMap.held TallyMap.tallyOf
  rw [mem_toList_iff.mp he]
  rfl

/-- The owners are the other holders with what they hold. -/
theorem mem_otherOwners {e : Int × Address} : e ∈ otherOwners sender p m.toList ↔
    sender ≠ some e.2 ∧ 0 < m.held e.2 p ∧ e.1 = m.held e.2 p := by
  unfold otherOwners
  rw [List.mem_map]
  constructor
  · rintro ⟨x, hx, rfl⟩
    rw [List.mem_filter, decide_eq_true_eq] at hx
    obtain ⟨hmem, hpos⟩ := hx
    unfold othersHeld at hpos
    split at hpos
    · exact absurd hpos (lt_irrefl 0)
    · next hother =>
        rw [held_of_mem hmem]
        exact ⟨hother, hpos, rfl⟩
  · rintro ⟨hother, hpos, hheld⟩
    cases ht : m[e.2]? with
    | none =>
        have hempty : m.held e.2 p = CMPTally.held .empty p := by
          unfold TallyMap.held TallyMap.tallyOf
          rw [ht]
          rfl
        have hzero : CMPTally.held .empty p = 0 := by
          unfold CMPTally.held
          rw [CMPTally.getMoney_empty, CMPTally.getMoney_empty, CMPTally.getMoney_empty,
            CMPTally.getMoney_empty]
          rfl
        omega
    | some t =>
        have hmem : (e.2, t) ∈ m.toList := mem_toList_iff.mpr ht
        have hheldOf := held_of_mem (e := (e.2, t)) (p := p) hmem
        dsimp only at hheldOf
        refine ⟨(e.2, t), List.mem_filter.mpr ⟨hmem, ?_⟩, ?_⟩
        · unfold othersHeld
          rw [if_neg hother, decide_eq_true_eq]
          dsimp only
          omega
        · exact Prod.ext (by dsimp only; omega) rfl

theorem nodup_otherOwners : ((otherOwners sender p m.toList).map Prod.snd).Nodup := by
  unfold otherOwners
  rw [List.map_map]
  have hkeys : (m.toList.map Prod.fst).Nodup := by
    rw [ExtTreeMap.map_fst_toList_eq_keys]
    exact ExtTreeMap.nodup_keys
  exact hkeys.sublist (List.filter_sublist.map Prod.fst)

/-- The sum of the walk is what the others hold, and so is the sum over the owners. -/
theorem sum_othersHeld : (m.toList.map (othersHeld sender p)).sum = m.heldByOthers sender p := rfl

theorem sum_otherOwners :
    ((otherOwners sender p m.toList).map Prod.fst).sum = m.heldByOthers sender p := by
  rw [← sum_othersHeld]
  unfold otherOwners
  induction m.toList with
  | nil => rfl
  | cons e rest ih =>
      rw [List.map_cons (f := othersHeld sender p), List.sum_cons, ← ih]
      by_cases hpos : 0 < othersHeld sender p e
      · have hheld : othersHeld sender p e = e.2.held p := by
          unfold othersHeld at hpos ⊢
          split
          · next hsender =>
              rw [if_pos hsender] at hpos
              exact absurd hpos (lt_irrefl 0)
          · rfl
        rw [List.filter_cons_of_pos (by simpa using hpos), List.map_cons, List.map_cons,
          List.sum_cons, hheld]
      · have hnonneg : 0 ≤ othersHeld sender p e := by
          unfold othersHeld
          split
          · exact le_rfl
          · exact e.2.held_nonneg p
        rw [List.filter_cons_of_neg (by simpa using hpos)]
        omega

/-- The set of owners, read backwards, is in the order in which they are served. -/
theorem descending_servedBefore {o : OwnerAddrType}
    (ho : ∀ e ∈ OwnerAddrType.descending o, e.1 = m.held e.2 p) :
    (OwnerAddrType.descending o).Pairwise fun e e' => m.ServedBefore p e.2 e'.2 := by
  have hordered : (OwnerAddrType.descending o).Pairwise fun e e' => ownerCmp e' e = .lt := by
    unfold OwnerAddrType.descending
    rw [ExtTreeMap.map_fst_toList_eq_keys]
    exact List.pairwise_reverse.mpr ExtTreeMap.ordered_keys
  refine hordered.imp_of_mem ?_
  intro e e' he he' hlt
  have hcmp : (compare e'.1 e.1).then (compare e.2 e'.2) = .lt := hlt
  rw [ho e he, ho e' he'] at hcmp
  rcases Ordering.then_eq_lt.mp hcmp with hless | ⟨heq, htext⟩
  · exact Or.inl (compare_lt_iff_lt.mp hless)
  · exact Or.inr ⟨(compare_eq_iff_eq.mp heq).symm, htext⟩

/-- The rounded-up shares of all owners cover the amount. -/
theorem le_sum_shareOf {owners : List (Int × Address)} {amount total : Int} (hpos : 0 < amount)
    (hmax : amount ≤ maxInt64) (htotal : total ≤ maxInt64)
    (howners : ∀ e ∈ owners, 0 < e.1 ∧ e.1 ≤ total) (hne : 0 < total) :
    amount * (owners.map Prod.fst).sum ≤ (owners.map (shareOf amount total)).sum * total := by
  induction owners with
  | nil => simp
  | cons e rest ih =>
      obtain ⟨he, hle⟩ := howners e List.mem_cons_self
      have hsmall : e.1.toNat * amount.toNat < 2 ^ 255 := by
        unfold maxInt64 at hmax htotal
        have hlt : e.1.toNat * amount.toNat < 2 ^ 63 * 2 ^ 63 :=
          Nat.mul_lt_mul'' (by omega) (by omega)
        exact hlt.trans (by norm_num)
      have hcover := le_divideAndRoundUp_mul (n := e.1.toNat * amount.toNat) (d := total.toNat)
        (by omega) hsmall
      have hshare : amount * e.1 ≤ shareOf amount total e * total := by
        have hcast : ((e.1.toNat : Int) * (amount.toNat : Int)) ≤
            (divideAndRoundUp (e.1.toNat * amount.toNat) total.toNat : Int) * (total.toNat : Int) := by
          exact_mod_cast hcover
        rw [Int.toNat_of_nonneg he.le, Int.toNat_of_nonneg hpos.le, Int.toNat_of_nonneg hne.le]
          at hcast
        rw [mul_comm]
        exact hcast
      rw [List.map_cons, List.map_cons, List.sum_cons, List.sum_cons, mul_add, add_mul]
      exact add_le_add hshare (ih fun x hx => howners x (List.mem_cons_of_mem e hx))

/-- The share is the quotient, rounded up. -/
theorem shareOf_eq {e : Int × Address} {amount total : Int} (hpos : 0 < amount)
    (hmax : amount ≤ maxInt64) (he : 0 < e.1) (hle : e.1 ≤ total) (htotal : total ≤ maxInt64) :
    shareOf amount total e = ⌈((amount * e.1 : Int) : ℚ) / total⌉ := by
  have hsmall : e.1.toNat * amount.toNat < 2 ^ 255 := by
    unfold maxInt64 at hmax htotal
    have hlt : e.1.toNat * amount.toNat < 2 ^ 63 * 2 ^ 63 :=
      Nat.mul_lt_mul'' (by omega) (by omega)
    exact hlt.trans (by norm_num)
  unfold shareOf
  rw [← ceil_div_eq (by omega) hsmall]
  have hheld : ((e.1.toNat : Int) : ℚ) = (e.1 : ℚ) := by rw [Int.toNat_of_nonneg he.le]
  have hamount : ((amount.toNat : Int) : ℚ) = (amount : ℚ) := by rw [Int.toNat_of_nonneg hpos.le]
  have hall : ((total.toNat : Int) : ℚ) = (total : ℚ) := by
    rw [Int.toNat_of_nonneg (he.le.trans hle)]
  push_cast at hheld hamount hall ⊢
  rw [hheld, hamount, hall, mul_comm]

/-- **THE SERVED OWNERS** receive as they should. -/
theorem ownersServed_of_serve {amount : Int} {owners : List (Int × Address)} (hpos : 0 < amount)
    (hmax : amount ≤ maxInt64) (htotal : m.heldByOthers sender p ≤ maxInt64)
    (hperm : owners.Perm (otherOwners sender p m.toList))
    (hordered : owners.Pairwise fun e e' => m.ServedBefore p e.2 e'.2) (hsome : owners ≠ [])
    {receivers : List (Int × Address)}
    (hreceivers : receivers.Perm ((serve (shareOf amount (m.heldByOthers sender p)) amount
      owners).map fun e => (e.1, e.2.2))) : OwnersServed m sender p amount receivers := by
  have howner : ∀ e ∈ owners, sender ≠ some e.2 ∧ 0 < m.held e.2 p ∧ e.1 = m.held e.2 p :=
    fun e he => mem_otherOwners.mp (hperm.subset he)
  have hsum : (owners.map Prod.fst).sum = m.heldByOthers sender p := by
    rw [(hperm.map Prod.fst).sum_eq, sum_otherOwners]
  have hbounds : ∀ e ∈ owners, 0 < e.1 ∧ e.1 ≤ m.heldByOthers sender p := by
    intro e he
    obtain ⟨_, hheld, heq⟩ := howner e he
    refine ⟨by omega, ?_⟩
    rw [← hsum]
    refine List.single_le_sum (fun x hx => ?_) _ (List.mem_map_of_mem he)
    obtain ⟨y, hy, rfl⟩ := List.mem_map.mp hx
    obtain ⟨_, hyheld, hyeq⟩ := howner y hy
    omega
  have hne : 0 < m.heldByOthers sender p := by
    obtain ⟨e, he⟩ := List.exists_mem_of_ne_nil owners hsome
    have := hbounds e he
    omega
  -- who is served, and in which order
  have hfirst := served_first (shareOf amount (m.heldByOthers sender p)) amount owners
  have hserved : ∀ x ∈ serve (shareOf amount (m.heldByOthers sender p)) amount owners,
      x.2 ∈ owners := fun x hx => hfirst.subset (List.mem_map_of_mem hx)
  have hshare : ∀ x ∈ serve (shareOf amount (m.heldByOthers sender p)) amount owners,
      shareOf amount (m.heldByOthers sender p) x.2 =
        ⌈((amount * m.held x.2.2 p : Int) : ℚ) / m.heldByOthers sender p⌉ := by
    intro x hx
    have hmem := hserved x hx
    rw [shareOf_eq hpos hmax (hbounds _ hmem).1 (hbounds _ hmem).2 htotal, (howner _ hmem).2.2]
  have hmem : ∀ e ∈ receivers, ∃ x ∈ serve (shareOf amount (m.heldByOthers sender p)) amount owners,
      (x.1, x.2.2) = e := fun e he => List.mem_map.mp (hreceivers.subset he)
  have horder : (serve (shareOf amount (m.heldByOthers sender p)) amount owners).Pairwise
      fun x x' => m.ServedBefore p x.2.2 x'.2.2 := by
    have hpairs := hordered.sublist hfirst.sublist
    rw [List.pairwise_map] at hpairs
    exact hpairs
  have hnodup : (owners.map Prod.snd).Nodup :=
    (hperm.map Prod.snd).nodup_iff.mpr nodup_otherOwners
  have hclaim : ∀ e ∈ owners, 0 < shareOf amount (m.heldByOthers sender p) e := by
    intro e he
    have hb := hbounds e he
    rw [shareOf_eq hpos hmax hb.1 hb.2 htotal, Int.ceil_pos]
    have hnum : (0 : ℚ) < ((amount * e.1 : Int) : ℚ) := by exact_mod_cast mul_pos hpos hb.1
    have hden : (0 : ℚ) < m.heldByOthers sender p := by exact_mod_cast hne
    exact div_pos hnum hden
  constructor
  · rw [(hreceivers.map Prod.snd).nodup_iff, List.map_map]
    have hsub := (hfirst.sublist.map Prod.snd)
    rw [List.map_map] at hsub
    exact hnodup.sublist hsub
  · intro e he
    obtain ⟨x, hx, rfl⟩ := hmem e he
    exact ⟨(howner _ (hserved x hx)).1, (howner _ (hserved x hx)).2.1⟩
  · intro e he
    obtain ⟨x, hx, rfl⟩ := hmem e he
    have hb := serve_bounds hx
    rw [hshare x hx] at hb
    exact ⟨by dsimp only; omega, hb.2⟩
  · rw [(hreceivers.map Prod.fst).sum_eq, List.map_map]
    refine given_serve hpos.le hclaim ?_
    have hcover := le_sum_shareOf hpos hmax htotal hbounds hne
    rw [hsum] at hcover
    exact le_of_mul_le_mul_right hcover hne
  · intro e he
    obtain ⟨x, hx, rfl⟩ := hmem e he
    obtain ⟨front, back, hsplit⟩ := List.append_of_mem hx
    have hexact := serve_exact hsplit
    rw [hshare x hx] at hexact
    dsimp only
    rw [((hreceivers.filter _).map Prod.fst).sum_eq, List.filter_map, List.map_map, hsplit]
    rw [hsplit, List.pairwise_append, List.pairwise_cons] at horder
    obtain ⟨_, ⟨hback, _⟩, hfront⟩ := horder
    -- those before are just those in front
    have hbefore : (front ++ x :: back).filter ((fun e' : Int × Address =>
        decide (m.ServedBefore p e'.2 x.2.2)) ∘ fun e => (e.1, e.2.2)) = front := by
      rw [List.filter_append, List.filter_cons_of_neg, List.filter_eq_self.mpr, List.filter_eq_nil_iff.mpr,
        List.append_nil]
      · intro y hy
        have hno := servedBefore_asymm (hback y hy)
        simpa using hno
      · intro y hy
        have hyes := hfront y hy x List.mem_cons_self
        simpa using hyes
      · have hself : ¬m.ServedBefore p x.2.2 x.2.2 := fun hno => servedBefore_asymm hno hno
        simpa using hself
    rw [hbefore]
    exact hexact
  · intro a hother hheld hout e he
    obtain ⟨x, hx, rfl⟩ := hmem e he
    obtain ⟨rest, hrest⟩ := hfirst
    -- the one left out is an owner behind all that are served
    have howns : (m.held a p, a) ∈ owners :=
      hperm.symm.subset (mem_otherOwners.mpr ⟨hother, hheld, rfl⟩)
    rw [← hrest] at howns hordered
    rcases List.mem_append.mp howns with hin | hin
    · refine absurd ?_ hout
      obtain ⟨y, hy, heq⟩ := List.mem_map.mp hin
      have hgets : (y.1, y.2.2) ∈ receivers :=
        hreceivers.symm.subset (List.mem_map.mpr ⟨y, hy, rfl⟩)
      refine List.mem_map.mpr ⟨_, hgets, ?_⟩
      dsimp only
      rw [heq]
    · have hpair := (List.pairwise_append.mp hordered).2.2 x.2 (List.mem_map_of_mem hx)
        (m.held a p, a) hin
      exact hpair

end Split

/-- **SEND TO OWNERS** splits as it should, and the same way in whatever order the tally map is walked. -/
theorem stoGetReceivers_splits {s : State} (sender : Option Address) (p : PropertyId) {amount : Int}
    (hpos : 0 < amount) (hmax : amount ≤ maxInt64) (hsupply : s.tallyMap.supply p ≤ maxInt64)
    (hother : ∃ a, sender ≠ some a ∧ 0 < s.tallyMap.held a p) :
    ∃ r, stoGetReceivers sender p amount s = .ok r s ∧
      (∀ entries : List (Address × CMPTally), entries.Perm s.tallyMap.toList →
        stoGetReceiversOver entries sender p amount s = .ok r s) ∧
      OwnersServed s.tallyMap sender p amount (OwnerAddrType.descending r) := by
  -- the walk collects the same owners in every order
  have hcollect : ∀ entries : List (Address × CMPTally), entries.Perm s.tallyMap.toList →
      wp (entries.foldlM (collectOwner sender p) (0, ∅))
        (fun r s' => s' = s ∧ r = (s.tallyMap.heldByOthers sender p,
          insertAll (otherOwners sender p s.tallyMap.toList) ∅)) (fun _ _ => False) s := by
    intro entries hperm
    have hbound : (0 : Int) + (entries.map fun e => e.2.held p).sum ≤ maxInt64 := by
      rw [zero_add, (hperm.map fun e => e.2.held p).sum_eq]
      exact (msum_held s.tallyMap p).trans_le hsupply
    refine wp_imp (collect_returns (show (0 : Int) ≤ ((0 : Int), (∅ : OwnerAddrType)).1 from le_rfl) hbound) ?_
    rintro r s' ⟨hs', rfl⟩
    refine ⟨hs', Prod.ext ?_ ?_⟩
    · show 0 + (entries.map (othersHeld sender p)).sum = _
      rw [zero_add, (hperm.map (othersHeld sender p)).sum_eq, sum_othersHeld]
    · exact insertAll_perm ((hperm.filter _).map _) ∅
  have hdescending : (OwnerAddrType.descending
      (insertAll (otherOwners sender p s.tallyMap.toList) ∅)).Perm
      (otherOwners sender p s.tallyMap.toList) := by
    unfold OwnerAddrType.descending
    rw [ExtTreeMap.map_fst_toList_eq_keys]
    exact (List.reverse_perm _).trans
      (keys_insertAll_perm (List.Nodup.of_map Prod.snd nodup_otherOwners))
  have howner : ∀ e ∈ OwnerAddrType.descending
      (insertAll (otherOwners sender p s.tallyMap.toList) ∅),
      sender ≠ some e.2 ∧ 0 < s.tallyMap.held e.2 p ∧ e.1 = s.tallyMap.held e.2 p :=
    fun e he => mem_otherOwners.mp (hdescending.subset he)
  have htotal : s.tallyMap.heldByOthers sender p ≤ maxInt64 := by
    refine le_trans ?_ ((msum_held s.tallyMap p).trans_le hsupply)
    refine List.sum_le_sum fun e _ => ?_
    show othersHeld sender p e ≤ e.2.held p
    unfold othersHeld
    split
    · exact e.2.held_nonneg p
    · exact le_rfl
  have hbounds : ∀ e ∈ OwnerAddrType.descending
      (insertAll (otherOwners sender p s.tallyMap.toList) ∅),
      0 < e.1 ∧ e.1 ≤ s.tallyMap.heldByOthers sender p := by
    intro e he
    obtain ⟨_, hheld, heq⟩ := howner e he
    refine ⟨by omega, ?_⟩
    rw [← sum_otherOwners]
    refine List.single_le_sum (fun x hx => ?_) _ (List.mem_map_of_mem (hdescending.subset he))
    obtain ⟨y, hy, rfl⟩ := List.mem_map.mp hx
    obtain ⟨_, hyheld, hyeq⟩ := mem_otherOwners.mp hy
    omega
  have hover : ∀ entries : List (Address × CMPTally), entries.Perm s.tallyMap.toList →
      wp (stoGetReceiversOver entries sender p amount)
        (fun r s' => s' = s ∧ r = insertAll ((serve (shareOf amount
          (s.tallyMap.heldByOthers sender p)) amount (OwnerAddrType.descending
            (insertAll (otherOwners sender p s.tallyMap.toList) ∅))).map fun e => (e.1, e.2.2)) ∅)
        (fun _ _ => False) s := by
    intro entries hperm
    unfold stoGetReceiversOver
    rw [wp_bind]
    refine wp_imp (hcollect entries hperm) ?_
    rintro r s' ⟨rfl, rfl⟩
    have hrun := allocate_returns ∅ (s := s') hpos hmax htotal le_rfl hpos.le hbounds
    rw [sub_zero] at hrun
    exact hrun
  have hreturns : ∀ entries : List (Address × CMPTally), entries.Perm s.tallyMap.toList →
      stoGetReceiversOver entries sender p amount s = .ok (insertAll ((serve (shareOf amount
        (s.tallyMap.heldByOthers sender p)) amount (OwnerAddrType.descending
          (insertAll (otherOwners sender p s.tallyMap.toList) ∅))).map fun e => (e.1, e.2.2)) ∅) s := by
    intro entries hperm
    obtain ⟨r, s', hok, rfl, rfl⟩ := wp_returns (hover entries hperm)
    exact hok
  refine ⟨_, (stoGetReceivers_eq sender p amount s).trans (hreturns _ (List.Perm.refl _)), hreturns, ?_⟩
  refine ownersServed_of_serve hpos hmax htotal hdescending
    (descending_servedBefore fun e he => (howner e he).2.2) ?_ ?_
  · obtain ⟨a, hnot, hheld⟩ := hother
    intro hnil
    have hmem : (s.tallyMap.held a p, a) ∈ otherOwners sender p s.tallyMap.toList :=
      mem_otherOwners.mpr ⟨hnot, hheld, rfl⟩
    have hin := hdescending.symm.subset hmem
    rw [hnil] at hin
    cases hin
  · unfold OwnerAddrType.descending
    rw [ExtTreeMap.map_fst_toList_eq_keys]
    refine (List.reverse_perm _).trans (keys_insertAll_perm (List.Nodup.of_map Prod.snd ?_))
    -- nobody is served twice
    rw [List.map_map]
    have hsub := (served_first (shareOf amount (s.tallyMap.heldByOthers sender p)) amount
      (OwnerAddrType.descending (insertAll (otherOwners sender p s.tallyMap.toList) ∅))).sublist.map
        Prod.snd
    rw [List.map_map] at hsub
    exact ((hdescending.map Prod.snd).nodup_iff.mpr nodup_otherOwners).sublist hsub

set_option maxRecDepth 4000 in
/-- Of 7 tokens, the first of two equal holders gets 4 and the second what is left. -/
theorem stoGetReceivers_splits_funded :
    (value (stoGetReceivers (some traderC) 1 7) fundedState).map OwnerAddrType.descending =
        some [(4, traderA), (3, traderB)] ∧
      ∃ r, stoGetReceivers (some traderC) 1 7 fundedState = .ok r fundedState ∧
        (∀ entries : List (Address × CMPTally), entries.Perm fundedState.tallyMap.toList →
          stoGetReceiversOver entries (some traderC) 1 7 fundedState = .ok r fundedState) ∧
        OwnersServed fundedState.tallyMap (some traderC) 1 7 (OwnerAddrType.descending r) :=
  ⟨by decide +kernel, stoGetReceivers_splits (some traderC) 1 (by decide) (by decide)
    (by decide +kernel) ⟨traderA, by decide, by decide +kernel⟩⟩

end OmniCore
