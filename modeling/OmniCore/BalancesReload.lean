import OmniCore.MarketReload
import OmniCore.TallyIteration

/-! # BalancesReload — the ledger through its file

    A line has an address and its properties, and for each property four amounts. The
    balances of contracts are not among them. The properties come from the walk over the
    records of the address, which ends at a record of property 0. So the ledger comes back
    exactly if all that it holds is in the four amounts, and out of the reach of property 0. -/

namespace OmniCore

open Std (ExtTreeMap)
open Machine TextRec MapSum Exec

/-! ## What is saved -/

/-- The balances that are written, as they follow one another. -/
def savedTypes : List TallyType := [.balance, .sellOfferReserve, .acceptReserve, .metaDExReserve]

/-- Ledgers that `update_tally_map` makes out of the empty one, while the rest of the node changes in
    any way. -/
inductive LedgerReachable : State → Prop
  | empty {s : State} (h : s.tallyMap = ∅) : LedgerReachable s
  | update {s s' : State} {who : Address} {p : PropertyId} {amount : Int} {ty : TallyType} {ok : Bool}
      (h : LedgerReachable s) (hp : p < 2 ^ 32)
      (hrun : updateTallyMap who p amount ty s = .ok ok s') : LedgerReachable s'
  | other {s s' : State} (h : LedgerReachable s) (hsame : s'.tallyMap = s.tallyMap) : LedgerReachable s'

/-- **BALANCES SURVIVE**: all lines are accepted by a node with an empty ledger, and rebuild every
    balance but the pending ones. -/
def BalancesReload (order : List (Address × CMPTally)) (s node : State) : Prop :=
  ∃ node', feedLines inputMscBalancesString (writeMscBalances order) { node with tallyMap := ∅ } =
    .ok true node' ∧
    ∀ a p ty, ty ≠ .pending → node'.tallyMap.money a p ty = s.tallyMap.money a p ty

/-- Every balance that is not zero is written, and its address has no record of property 0. -/
def AllSaved (m : TallyMap) : Prop :=
  ∀ a p ty, ty ≠ .pending → m.money a p ty ≠ 0 → ty ∈ savedTypes ∧ ¬ m.HasRecord a 0

/-! ## The records of a reachable ledger -/

/-- A property is a 32-bit number. -/
theorem LedgerReachable.property_lt {s : State} (h : LedgerReachable s) {a : Address} {p : PropertyId}
    (hrec : s.tallyMap.HasRecord a p) : p < 2 ^ 32 := by
  induction h with
  | empty hempty =>
      rw [hempty] at hrec
      exact absurd hrec (TallyMap.not_hasRecord_empty a p)
  | @update s s' who q amount ty ok _ hq hrun ih =>
      have hspec := wp_ok (updateTallyMap_records who q amount ty s) hrun
      rcases (hspec a p).mp hrec with hrec | ⟨-, rfl, -⟩
      · exact ih hrec
      · exact hq
  | other _ hsame ih =>
      rw [hsame] at hrec
      exact ih hrec

/-! ## Reading one property -/

/-- What of a balance is written. -/
def CMPTally.savedMoney (t : CMPTally) (p : PropertyId) (ty : TallyType) : Int :=
  if ty ∈ savedTypes then t.getMoney p ty else 0

/-- The properties of a line. -/
def CMPTally.written (t : CMPTally) : List PropertyId := t.visited.filter fun p => !t.isBlank p

/-- The line of an address. -/
def balanceLine (e : Address × CMPTally) : Text :=
  e.1.text ++ '=' :: e.2.written.flatMap (balanceField e.2)

/-- The four amounts of a property, without the end of the field. -/
def balanceBody (t : CMPTally) (p : PropertyId) : Text :=
  decNat p ++ ':' :: joinWith ',' [decInt (t.getMoney p .balance),
    decInt (t.getMoney p .sellOfferReserve), decInt (t.getMoney p .acceptReserve),
    decInt (t.getMoney p .metaDExReserve)]

/-- A credit of an amount that may be 0. -/
def creditNonzero (who : Address) (p : PropertyId) (amount : Int) (ty : TallyType) : ExecM Unit :=
  if amount ≠ 0 then do
    let _ ← updateTallyMap who p amount ty
  else pure ()

/-- Amounts of several balances, one after the other. -/
def creditTypes (who : Address) (p : PropertyId) (money : TallyType → Int) (types : List TallyType) :
    ExecM Unit :=
  types.forM fun ty => creditNonzero who p (money ty) ty

/-- A credit that goes through. -/
theorem wp_updateTallyMap {s : State} {who : Address} {p : PropertyId} {amount : Int} {ty : TallyType}
    (h : CanUpdate s who p amount ty) :
    wp (updateTallyMap who p amount ty)
      (fun _ s' => ∃ m, s' = s.withTally m ∧ Credited s.tallyMap m who p amount ty)
      (fun _ _ => False) s := by
  have hok := update_fst_of_canUpdate h
  unfold updateTallyMap
  simp only [wp_bind, wp_ite, wp_pure, wp_get, wp_set, wp_assertThat, hok]
  refine ⟨fun h0 => absurd h0 h.ne_zero, fun _ => ⟨fun hdebit => ⟨fun _ => ?_, fun hfrozen => ?_⟩,
    fun _ => ?_⟩⟩
  · exact ⟨fun hf => absurd hf (by decide), fun _ => ⟨_, rfl, credited_update hok⟩⟩
  · rw [h.unfrozen hdebit.1 hdebit.2] at hfrozen
    exact absurd hfrozen (by decide)
  · exact ⟨fun hf => absurd hf (by decide), fun _ => ⟨_, rfl, credited_update hok⟩⟩

/-- A credit of a balance that was 0. -/
theorem creditNonzero_run {s : State} {who : Address} {p : PropertyId} {amount : Int} {ty : TallyType}
    (hzero : s.tallyMap.money who p ty = 0) (hamount : IsInt64 amount) (hpos : 0 ≤ amount) :
    ∃ m, creditNonzero who p amount ty s = .ok () (s.withTally m) ∧
      ∀ a q t, m.money a q t = s.tallyMap.money a q t +
        if a = who ∧ q = p ∧ t = ty then amount else 0 := by
  unfold creditNonzero
  by_cases h0 : amount = 0
  · refine ⟨s.tallyMap, by rw [if_neg (not_not_intro h0)]; rfl, fun a q t => ?_⟩
    rw [h0, ite_self, add_zero]
  · have hcan : CanUpdate s who p amount ty :=
      ⟨h0, by rw [hzero, zero_add]; exact hamount, fun _ => by rw [hzero, zero_add]; exact hpos,
        fun _ hneg => absurd hneg (not_lt.mpr hpos)⟩
    obtain ⟨ok, s', hrun, m, rfl, hcredited⟩ := wp_returns (wp_updateTallyMap hcan)
    refine ⟨m, ?_, hcredited.money⟩
    rw [if_pos h0]
    simp only [bind, EStateM.bind]
    rw [hrun]
    rfl

/-- **ONE PROPERTY**: balances that were 0 have their amounts. -/
theorem creditTypes_run {types : List TallyType} (hnodup : types.Nodup) (hpending : .pending ∉ types)
    {s : State} {who : Address} {p : PropertyId} (t : CMPTally)
    (hzero : ∀ ty ∈ types, s.tallyMap.money who p ty = 0) :
    ∃ m, creditTypes who p (t.getMoney p) types s = .ok () (s.withTally m) ∧
      ∀ a q ty, m.money a q ty = s.tallyMap.money a q ty +
        if a = who ∧ q = p ∧ ty ∈ types then t.getMoney p ty else 0 := by
  induction types generalizing s with
  | nil => exact ⟨s.tallyMap, rfl, fun a q ty => by simp⟩
  | cons ty rest ih =>
      rw [List.nodup_cons] at hnodup
      rw [List.mem_cons, not_or] at hpending
      obtain ⟨m₁, hrun₁, hmoney₁⟩ := creditNonzero_run (hzero ty List.mem_cons_self)
        (t.inRange p ty) (t.getMoney_nonneg p (Ne.symm hpending.1))
      have hzero₁ : ∀ ty' ∈ rest, (s.withTally m₁).tallyMap.money who p ty' = 0 := by
        intro ty' hmem
        have hne : ty' ≠ ty := fun heq => hnodup.1 (heq ▸ hmem)
        rw [State.withTally_tallyMap, hmoney₁, hzero ty' (List.mem_cons_of_mem ty hmem),
          if_neg fun h => hne h.2.2, add_zero]
      obtain ⟨m, hrun, hmoney⟩ := ih hnodup.2 hpending.2 hzero₁
      refine ⟨m, ?_, fun a q ty' => ?_⟩
      · show (creditNonzero who p (t.getMoney p ty) ty >>= fun _ =>
          creditTypes who p (t.getMoney p) rest) s = _
        simp only [bind, EStateM.bind]
        rw [hrun₁]
        exact hrun
      · rw [hmoney, State.withTally_tallyMap, hmoney₁, add_assoc]
        congr 1
        by_cases hty : ty' = ty
        · subst hty
          simp [hnodup.1]
        · simp [hty]

/-- A separator and a text that the reader of a property splits at. -/
theorem split_balanceBody (t : CMPTally) (p : PropertyId) :
    split (· == ':') (balanceBody t p) = [decNat p, joinWith ',' [decInt (t.getMoney p .balance),
      decInt (t.getMoney p .sellOfferReserve), decInt (t.getMoney p .acceptReserve),
      decInt (t.getMoney p .metaDExReserve)]] := by
  have hmark : IsLineMark (· == ':') := isLineMark_char (by decide)
  have hfree : Free (· == ':') (joinWith ',' [decInt (t.getMoney p .balance),
      decInt (t.getMoney p .sellOfferReserve), decInt (t.getMoney p .acceptReserve),
      decInt (t.getMoney p .metaDExReserve)]) := by
    refine free_joinWith (by decide) ?_
    simp only [List.forall_mem_cons]
    exact ⟨hmark.free_decInt _, hmark.free_decInt _, hmark.free_decInt _, hmark.free_decInt _,
      fun _ ht => (List.not_mem_nil ht).elim⟩
  unfold balanceBody
  rw [split_cons (hmark.free_decNat p) (by decide)
    (joinWith_head (hmark.free_decInt _) (decInt_ne_nil _)), split_free hfree]

/-- The four amounts are split. -/
theorem split_balances (t : CMPTally) (p : PropertyId) :
    split (· == ',') (joinWith ',' [decInt (t.getMoney p .balance),
      decInt (t.getMoney p .sellOfferReserve), decInt (t.getMoney p .acceptReserve),
      decInt (t.getMoney p .metaDExReserve)]) = [decInt (t.getMoney p .balance),
      decInt (t.getMoney p .sellOfferReserve), decInt (t.getMoney p .acceptReserve),
      decInt (t.getMoney p .metaDExReserve)] := by
  have hmark : IsLineMark (· == ',') := isLineMark_char (by decide)
  refine split_joinWith (by decide) (List.cons_ne_nil _ _) ?_ ?_
  · simp only [List.forall_mem_cons]
    exact ⟨hmark.free_decInt _, hmark.free_decInt _, hmark.free_decInt _, hmark.free_decInt _,
      fun _ ht => (List.not_mem_nil ht).elim⟩
  · simp only [List.forall_mem_cons]
    exact ⟨decInt_ne_nil _, decInt_ne_nil _, decInt_ne_nil _, decInt_ne_nil _,
      fun _ ht => (List.not_mem_nil ht).elim⟩

/-- The reader of a property credits the four amounts. -/
theorem inputProperty_body (a : Address) (t : CMPTally) {p : PropertyId} (hp : p < 2 ^ 32) :
    inputProperty a.text (balanceBody t p) = (do
      creditTypes a p (t.getMoney p) savedTypes
      pure 0) := by
  unfold inputProperty
  rw [split_balanceBody]
  dsimp only
  rw [split_balances]
  dsimp only
  rw [castNat_decNat hp, isInt64_cast (t.inRange p _), isInt64_cast (t.inRange p _),
    isInt64_cast (t.inRange p _), isInt64_cast (t.inRange p _), lineAddress_text]
  simp only [lexicalCast, pure_bind]
  unfold creditTypes savedTypes creditNonzero
  simp only [List.forM_eq_forM, List.forM_cons, List.forM_nil]
  -- each amount is either credited or passed over, on both sides
  split_ifs <;> simp only [bind_assoc, pure_bind]

/-! ## Reading one line -/

/-- **THE PROPERTIES** of a line, one after the other. -/
theorem inputProperties_run (a : Address) (t : CMPTally) {l : List PropertyId} (hnodup : l.Nodup)
    (hl : ∀ p ∈ l, p < 2 ^ 32) {s : State}
    (hzero : ∀ p ∈ l, ∀ ty, s.tallyMap.money a p ty = 0) :
    ∃ m, inputProperties a.text (l.map (balanceBody t) ++ [[]]) s = .ok 0 (s.withTally m) ∧
      ∀ b q ty, m.money b q ty = s.tallyMap.money b q ty +
        if b = a ∧ q ∈ l then t.savedMoney q ty else 0 := by
  induction l generalizing s with
  | nil => exact ⟨s.tallyMap, rfl, fun b q ty => by simp⟩
  | cons p rest ih =>
      rw [List.nodup_cons] at hnodup
      have hzero₀ : ∀ ty ∈ savedTypes, s.tallyMap.money a p ty = 0 :=
        fun ty _ => hzero p List.mem_cons_self ty
      obtain ⟨m₁, hrun₁, hmoney₁⟩ := creditTypes_run (by decide) (by decide) t hzero₀
      have hzero₁ : ∀ q ∈ rest, ∀ ty, (s.withTally m₁).tallyMap.money a q ty = 0 := by
        intro q hq ty
        have hne : q ≠ p := fun heq => hnodup.1 (heq ▸ hq)
        rw [State.withTally_tallyMap, hmoney₁, hzero q (List.mem_cons_of_mem p hq),
          if_neg fun h => hne h.2.1, add_zero]
      obtain ⟨m, hrun, hmoney⟩ := ih hnodup.2 (fun q hq => hl q (List.mem_cons_of_mem p hq)) hzero₁
      refine ⟨m, ?_, fun b q ty => ?_⟩
      · have hne : balanceBody t p ≠ [] := by simp [balanceBody]
        rw [List.map_cons, List.cons_append, inputProperties, if_neg hne,
          inputProperty_body a t (hl p List.mem_cons_self)]
        simp only [bind, EStateM.bind]
        rw [hrun₁]
        exact hrun
      · rw [hmoney, State.withTally_tallyMap, hmoney₁, add_assoc]
        congr 1
        unfold CMPTally.savedMoney
        by_cases hq : q = p
        · subst hq
          by_cases hb : b = a <;> by_cases hty : ty ∈ savedTypes <;> simp [hb, hty, hnodup.1]
        · simp [hq]

/-- The fields of a line. -/
theorem free_balanceBody {p : Char → Bool} (hmark : IsLineMark p) (hcolon : p ':' = false)
    (hcomma : p ',' = false) (t : CMPTally) (q : PropertyId) : Free p (balanceBody t q) := by
  intro d hd
  rcases List.mem_append.mp hd with hd | hd
  · exact hmark.free_decNat q d hd
  · rcases List.mem_cons.mp hd with rfl | hd
    · exact hcolon
    · refine free_joinWith hcomma ?_ d hd
      simp only [List.forall_mem_cons]
      exact ⟨hmark.free_decInt _, hmark.free_decInt _, hmark.free_decInt _, hmark.free_decInt _,
        fun _ ht => (List.not_mem_nil ht).elim⟩

theorem flatMap_balanceField (t : CMPTally) (l : List PropertyId) :
    l.flatMap (balanceField t) = (l.map (balanceBody t)).flatMap fun body => body ++ [';'] := by
  rw [List.flatMap_map]
  rfl

/-- The properties of a line are split. -/
theorem split_properties (t : CMPTally) (l : List PropertyId) :
    split (· == ';') (l.flatMap (balanceField t)) = l.map (balanceBody t) ++ [[]] := by
  rw [flatMap_balanceField]
  refine split_terminated (by decide) ?_ ?_
  · intro body hbody
    obtain ⟨p, -, rfl⟩ := List.mem_map.mp hbody
    exact free_balanceBody isLineMark_semicolon (by decide) (by decide) t p
  · intro body hbody
    obtain ⟨p, -, rfl⟩ := List.mem_map.mp hbody
    simp [balanceBody]

/-- A line is split into the address and its properties. -/
theorem split_balanceLine (e : Address × CMPTally) :
    split (· == '=') (balanceLine e) = [e.1.text, e.2.written.flatMap (balanceField e.2)] := by
  have hmark := isLineMark_equals
  have hfree : Free (· == '=') (e.2.written.flatMap (balanceField e.2)) := by
    rw [flatMap_balanceField]
    intro d hd
    obtain ⟨body, hbody, hd⟩ := List.mem_flatMap.mp hd
    obtain ⟨p, -, rfl⟩ := List.mem_map.mp hbody
    rcases List.mem_append.mp hd with hd | hd
    · exact free_balanceBody hmark (by decide) (by decide) e.2 p d hd
    · rw [List.mem_singleton.mp hd]
      decide
  unfold balanceLine
  rw [split_cons (hmark.free_address e.1) (by decide) fun d hd => hfree d (List.mem_of_mem_head? hd),
    split_free hfree]

/-- **ONE LINE** credits what it says to an address that had nothing. -/
theorem inputMscBalances_line (e : Address × CMPTally) (hids : ∀ p, e.2.HasRecord p → p < 2 ^ 32)
    {s : State} (hzero : ∀ p ty, s.tallyMap.money e.1 p ty = 0) :
    ∃ m, inputMscBalancesString (balanceLine e) s = .ok 0 (s.withTally m) ∧
      ∀ a q ty, m.money a q ty = s.tallyMap.money a q ty +
        if a = e.1 ∧ q ∈ e.2.written then e.2.savedMoney q ty else 0 := by
  unfold inputMscBalancesString
  rw [split_balanceLine]
  dsimp only
  rw [split_properties]
  refine inputProperties_run e.1 e.2 (e.2.nodup_visited.filter _) ?_ fun p _ => hzero p
  intro p hp
  exact hids p (CMPTally.hasRecord_of_visited (List.mem_of_mem_filter hp))

/-! ## Reading all lines -/

/-- The lines: one for each address with something to write. -/
theorem writeMscBalances_eq (order : List (Address × CMPTally)) :
    writeMscBalances order = (order.filter fun e => !e.2.written.isEmpty).map balanceLine := by
  induction order with
  | nil => rfl
  | cons e rest ih =>
      by_cases h : e.2.written.isEmpty = true
      · have hnone : (if e.2.written.isEmpty then none else some (balanceLine e)) = none := if_pos h
        have hskip : ¬ (!e.2.written.isEmpty) = true := by
          rw [h]
          decide
        rw [List.filter_cons, if_neg hskip, ← ih]
        exact List.filterMap_cons_none hnone
      · have hsome : (if e.2.written.isEmpty then none else some (balanceLine e)) =
            some (balanceLine e) := if_neg h
        have htake : (!e.2.written.isEmpty) = true := by
          rw [Bool.not_eq_true']
          exact Bool.eq_false_of_not_eq_true h
        rw [List.filter_cons, if_pos htake, List.map_cons, ← ih]
        exact List.filterMap_cons_some hsome

/-- A blank property has nothing that is written. -/
theorem CMPTally.savedMoney_of_blank {t : CMPTally} {p : PropertyId} (h : t.isBlank p = true)
    (ty : TallyType) : t.savedMoney p ty = 0 := by
  unfold CMPTally.isBlank at h
  rw [Bool.and_eq_true, Bool.and_eq_true, Bool.and_eq_true, beq_iff_eq, beq_iff_eq, beq_iff_eq,
    beq_iff_eq] at h
  obtain ⟨⟨⟨hbalance, hsell⟩, haccept⟩, hmetadex⟩ := h
  unfold CMPTally.savedMoney
  split
  · next hty =>
      unfold savedTypes at hty
      simp only [List.mem_cons, List.not_mem_nil, or_false] at hty
      rcases hty with rfl | rfl | rfl | rfl
      · exact hbalance
      · exact hsell
      · exact haccept
      · exact hmetadex
  · rfl

/-- What comes back of a balance. -/
theorem CMPTally.saved_of_written (t : CMPTally) (p : PropertyId) (ty : TallyType) :
    (if p ∈ t.written then t.savedMoney p ty else 0) =
      if p ∈ t.visited then t.savedMoney p ty else 0 := by
  have hmem : p ∈ t.written ↔ p ∈ t.visited ∧ (!t.isBlank p) = true := List.mem_filter
  cases hblank : t.isBlank p with
  | true => rw [CMPTally.savedMoney_of_blank hblank, ite_self, ite_self]
  | false => simp [hmem, hblank]

/-- The ledger after some of the lines: their addresses have what was written, the others nothing. -/
def LinesRead (front : List (Address × CMPTally)) (t : State) : Prop :=
  ∀ a p ty,
    (∀ e ∈ front, e.1 = a →
      t.tallyMap.money a p ty = if p ∈ e.2.written then e.2.savedMoney p ty else 0) ∧
    ((∀ e ∈ front, e.1 ≠ a) → t.tallyMap.money a p ty = 0)

/-- The next line is of an address that had none. -/
theorem LinesRead.next {front : List (Address × CMPTally)} {t : State} (h : LinesRead front t)
    {e : Address × CMPTally} (hids : ∀ p, e.2.HasRecord p → p < 2 ^ 32)
    (hnew : ∀ e' ∈ front, e'.1 ≠ e.1) :
    ∃ t', inputMscBalancesString (balanceLine e) t = .ok 0 t' ∧ LinesRead (front ++ [e]) t' := by
  obtain ⟨m, hline, hm⟩ := inputMscBalances_line e hids fun p ty => (h e.1 p ty).2 hnew
  refine ⟨t.withTally m, hline, fun a p ty => ⟨fun e' he' heq => ?_, fun hnone => ?_⟩⟩
  · rw [State.withTally_tallyMap, hm]
    rcases List.mem_append.mp he' with he' | he'
    · have hother : ¬ (a = e.1 ∧ p ∈ e.2.written) := fun hthis => hnew e' he' (heq.trans hthis.1)
      rw [if_neg hother, add_zero]
      exact (h a p ty).1 e' he' heq
    · obtain rfl := List.mem_singleton.mp he'
      subst heq
      rw [(h e'.1 p ty).2 hnew, zero_add]
      simp only [true_and]
  · have hne : e.1 ≠ a := hnone e (List.mem_append_right _ (List.mem_singleton_self e))
    rw [State.withTally_tallyMap, hm, if_neg fun hthis => hne hthis.1.symm, add_zero]
    exact (h a p ty).2 fun e' he' => hnone e' (List.mem_append_left _ he')

/-- **WHAT COMES BACK**: of every address what the walk over its records saw, of the four kinds. -/
theorem feedBalances {s : State} (hs : LedgerReachable s) {order : List (Address × CMPTally)}
    (horder : order.Perm s.tallyMap.toList) (node : State) :
    ∃ node', feedLines inputMscBalancesString (writeMscBalances order)
        { node with tallyMap := ∅ } = .ok true node' ∧
      ∀ a p ty, node'.tallyMap.money a p ty =
        if p ∈ (s.tallyMap.tallyOf a).visited then (s.tallyMap.tallyOf a).savedMoney p ty else 0 := by
  have hstored : ∀ e, e ∈ order ↔ s.tallyMap[e.1]? = some e.2 :=
    fun e => horder.mem_iff.trans mem_toList_iff
  have hids : ∀ e ∈ order, ∀ p, e.2.HasRecord p → p < 2 ^ 32 := by
    intro e he p hrec
    refine hs.property_lt (a := e.1) ?_
    show (((s.tallyMap[e.1]?).getD .empty)).HasRecord p
    rw [(hstored e).mp he]
    exact hrec
  have hnodup : ((order.filter fun e => !e.2.written.isEmpty).map Prod.fst).Nodup := by
    refine List.Nodup.sublist (List.filter_sublist.map _) ?_
    rw [(horder.map Prod.fst).nodup_iff, ExtTreeMap.map_fst_toList_eq_keys]
    exact ExtTreeMap.nodup_keys
  have hstep : ∀ front e rest, (order.filter fun e => !e.2.written.isEmpty) = front ++ e :: rest →
      ∀ t, LinesRead front t → ∃ t', inputMscBalancesString (balanceLine e) t = .ok 0 t' ∧
        LinesRead (front ++ [e]) t' := by
    intro front e rest hl t hfront
    rw [hl, List.map_append, List.map_cons, List.nodup_middle, List.nodup_cons, List.mem_append,
      not_or] at hnodup
    have hmem : e ∈ order := List.mem_of_mem_filter (by
      rw [hl]
      exact List.mem_append_right _ List.mem_cons_self)
    refine hfront.next (hids e hmem) fun e' he' heq => hnodup.1.1 ?_
    rw [← heq]
    exact List.mem_map_of_mem he'
  have hstart : LinesRead [] { node with tallyMap := ∅ } := fun a p ty =>
    ⟨fun _ he => (List.not_mem_nil he).elim, fun _ => TallyMap.money_empty a p ty⟩
  obtain ⟨node', hfeed, hmoney⟩ := feedLines_induct hstep hstart
  refine ⟨node', by rw [writeMscBalances_eq]; exact hfeed, fun a p ty => ?_⟩
  rw [← CMPTally.saved_of_written]
  unfold TallyMap.tallyOf
  cases ha : s.tallyMap[a]? with
  | none =>
      refine ((hmoney a p ty).2 fun e he heq => ?_).trans ?_
      · have hget := (hstored e).mp (List.mem_of_mem_filter he)
        rw [heq, ha] at hget
        cases hget
      · rw [Option.getD_none]
        simp [CMPTally.savedMoney]
  | some t =>
      rw [Option.getD_some]
      by_cases hempty : t.written.isEmpty = true
      · have hnil : t.written = [] := List.isEmpty_iff.mp hempty
        rw [hnil, if_neg List.not_mem_nil]
        refine (hmoney a p ty).2 fun e he heq => ?_
        have hget := (hstored e).mp (List.mem_of_mem_filter he)
        rw [heq, ha] at hget
        cases hget
        have hline := (List.mem_filter.mp he).2
        rw [hempty] at hline
        cases hline
      · refine (hmoney a p ty).1 (a, t) (List.mem_filter.mpr ⟨(hstored (a, t)).mpr ha, ?_⟩) rfl
        rw [Bool.not_eq_true] at hempty
        rw [hempty]
        rfl

/-- **BALANCES SURVIVE EXACTLY IF ALL OF THEM ARE WRITTEN**: in every ledger that is reached. -/
theorem balancesReload_iff {s : State} (hs : LedgerReachable s) {order : List (Address × CMPTally)}
    (horder : order.Perm s.tallyMap.toList) (node : State) :
    BalancesReload order s node ↔ AllSaved s.tallyMap := by
  obtain ⟨node', hfeed, hmoney⟩ := feedBalances hs horder node
  have hreload : BalancesReload order s node ↔
      ∀ a p ty, ty ≠ .pending → node'.tallyMap.money a p ty = s.tallyMap.money a p ty := by
    constructor
    · rintro ⟨node'', hfeed', hsame⟩
      rw [hfeed] at hfeed'
      cases hfeed'
      exact hsame
    · exact fun h => ⟨node', hfeed, h⟩
  rw [hreload]
  refine forall_congr' fun a => forall_congr' fun p => forall_congr' fun ty => ?_
  refine imp_congr_right fun _ => ?_
  rw [hmoney]
  unfold CMPTally.savedMoney
  constructor
  · intro h hne
    -- a balance that is not zero was seen, and is of a kind that is written
    rw [← h] at hne
    have hvisited : p ∈ (s.tallyMap.tallyOf a).visited := by
      by_contra hno
      exact hne (if_neg hno)
    rw [if_pos hvisited] at hne
    refine ⟨?_, fun hzero => ?_⟩
    · by_contra hno
      exact hne (if_neg hno)
    · rw [CMPTally.visited_of_zero hzero] at hvisited
      exact List.not_mem_nil hvisited
  · intro h
    by_cases hmoney0 : s.tallyMap.money a p ty = 0
    · have hget : (s.tallyMap.tallyOf a).getMoney p ty = 0 := hmoney0
      rw [hget, ite_self, ite_self, hmoney0]
    · obtain ⟨hsaved, hzero⟩ := h hmoney0
      have hvisited := (CMPTally.mem_visited hzero).mpr (CMPTally.hasRecord_of_money hmoney0)
      rw [if_pos hvisited, if_pos hsaved]
      rfl

/-! ## Two ledgers -/

/-- A ledger that is reached, without records of property 0 and with nothing but what is written. -/
structure SavedOnly (s : State) : Prop where
  reachable : LedgerReachable s
  noZero : ∀ a, ¬ s.tallyMap.HasRecord a 0
  saved : ∀ a p ty, s.tallyMap.money a p ty ≠ 0 → ty ∈ savedTypes

theorem SavedOnly.allSaved {s : State} (h : SavedOnly s) : AllSaved s.tallyMap :=
  fun a p ty _ hne => ⟨h.saved a p ty hne, h.noZero a⟩

theorem savedOnly_empty {s : State} (h : s.tallyMap = ∅) : SavedOnly s := by
  refine ⟨.empty h, fun a => ?_, fun a p ty hne => ?_⟩
  · rw [h]
    exact TallyMap.not_hasRecord_empty a 0
  · rw [h] at hne
    exact absurd (TallyMap.money_empty a p ty) hne

/-- An update of such a balance. -/
theorem SavedOnly.update {s : State} (h : SavedOnly s) {who : Address} {p : PropertyId} {amount : Int}
    {ty : TallyType} (hp : 0 < p ∧ p < 2 ^ 32) (hty : ty ∈ savedTypes)
    (hcan : CanUpdate s who p amount ty) : SavedOnly (after (updateTallyMap who p amount ty) s) := by
  obtain ⟨ok, s', hrun, m, rfl, hcredited⟩ := wp_returns (wp_updateTallyMap hcan)
  have hafter : after (updateTallyMap who p amount ty) s = s.withTally m := by
    unfold after
    rw [hrun]
  have hrecords := wp_ok (updateTallyMap_records who p amount ty s) hrun
  rw [hafter]
  refine ⟨h.reachable.update hp.2 hrun, fun a hzero => ?_, fun a q kind hne => ?_⟩
  · rcases (hrecords a 0).mp hzero with hold | ⟨-, hwhich, -⟩
    · exact h.noZero a hold
    · exact hp.1.ne hwhich
  · rw [State.withTally_tallyMap, hcredited.money] at hne
    by_cases hplace : a = who ∧ q = p ∧ kind = ty
    · rw [hplace.2.2]
      exact hty
    · rw [if_neg hplace, add_zero] at hne
      exact h.saved a q kind hne

/-- `A` has 100 OMNI and 50 more in an offer. -/
def offerLedger : State :=
  after (updateTallyMap traderA 1 50 .sellOfferReserve)
    (after (updateTallyMap traderA 1 100 .balance) (State.fresh regTestParams))

/-- And `B` has 7 of property 3 on the market. -/
def savedLedger : State := after (updateTallyMap traderB 3 7 .metaDExReserve) offerLedger

set_option maxRecDepth 4000 in
theorem savedLedger_savedOnly : SavedOnly savedLedger := by
  have hfresh : SavedOnly (State.fresh regTestParams) := savedOnly_empty rfl
  have hfirst : SavedOnly (after (updateTallyMap traderA 1 100 .balance) (State.fresh regTestParams)) :=
    hfresh.update ⟨by decide, by decide⟩ (by decide)
      ⟨by decide, by decide +kernel, fun _ => by decide +kernel,
        fun _ hneg => absurd hneg (by decide)⟩
  have hoffer : SavedOnly offerLedger := hfirst.update ⟨by decide, by decide⟩ (by decide)
    ⟨by decide, by decide +kernel, fun _ => by decide +kernel, fun _ hneg => absurd hneg (by decide)⟩
  exact hoffer.update ⟨by decide, by decide⟩ (by decide)
    ⟨by decide, by decide +kernel, fun _ => by decide +kernel, fun _ hneg => absurd hneg (by decide)⟩

/-- All of it comes back, in whatever order the addresses are written. -/
theorem savedLedger_reload :
    BalancesReload savedLedger.tallyMap.toList.reverse savedLedger (State.fresh regTestParams) :=
  (balancesReload_iff savedLedger_savedOnly.reachable (List.reverse_perm _) _).mpr
    savedLedger_savedOnly.allSaved

/-- `A` has bought 5 contracts. -/
def contractLedger : State :=
  after (updateTallyMap traderA 3 5 .possitiveBalance) (State.fresh regTestParams)

set_option maxRecDepth 4000 in
/-- **POSITIONS ARE LOST**: there is no line for `A`. -/
theorem positions_lost : LedgerReachable contractLedger ∧
    ¬ BalancesReload contractLedger.tallyMap.toList contractLedger (State.fresh regTestParams) := by
  have hvalue : value (updateTallyMap traderA 3 5 .possitiveBalance) (State.fresh regTestParams) =
      some true := by decide +kernel
  have hempty : LedgerReachable (State.fresh regTestParams) := .empty rfl
  refine ⟨hempty.update (by decide) (eq_ok_of_value hvalue), ?_⟩
  rintro ⟨node', hfeed, hsame⟩
  have hlines : writeMscBalances contractLedger.tallyMap.toList = [] := by decide +kernel
  rw [hlines] at hfeed
  cases hfeed
  have hfive : contractLedger.tallyMap.money traderA 3 .possitiveBalance = 5 := by decide +kernel
  have hbefore := hsame traderA 3 .possitiveBalance (by decide)
  rw [hfive] at hbefore
  have hnone := TallyMap.money_empty traderA 3 .possitiveBalance
  rw [hnone] at hbefore
  cases hbefore

end OmniCore
