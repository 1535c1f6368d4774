import OmniCore.ContractCollateral

/-! # ContractCalls — whom `marginLogic` calls

    One call of `marginLogic` should look at every recorded address, and liquidate long
    positions whose liquidation price the market has fallen to and short ones whose
    liquidation price it has risen to. It compares the same way round for both. And an
    address that is called is erased from the vector that the loop iterates over, so
    the next one is skipped, or the iterator passes the end. -/

namespace OmniCore

open Std (ExtTreeMap)
open Machine TextRec MapSum Exec

/-! ## Watching the loop -/

/-- `marginLoop`, which tells in addition the addresses it looks at, and the orders it places for them. -/
def marginWatch (trade : CMPContractDex → ExecW (MatchReturnType × CMPContractDex))
    (property : PropertyId) : List Text → ExecW (List (Address × Option CMPContractDex))
  | [] => pure []
  | t :: rest =>
      match Address.ofText? t with
      | none => marginWatch trade property rest
      | some address => do
          let w ← get
          emit (.marginCheck w.state property address rest.isEmpty)
          let liqPrice := w.state.getMPbalance address property .liquidationPrice
          if ← onState (comparePrices w.state.marketPrice liqPrice) then do
            let _ ← marginCallWith trade address property w.state.marketPrice
            onState (assertUpdate address property (-liqPrice) .liquidationPrice)
            match rest with
            | [] => throw .undefinedBehaviour
            | _ :: rest => do
                let more ← marginWatch trade property rest
                pure ((address, some (marginOrder w address property w.state.marketPrice)) :: more)
          else do
            let more ← marginWatch trade property rest
            pure ((address, none) :: more)

section Watch

variable (trade : CMPContractDex → ExecW (MatchReturnType × CMPContractDex)) (p : PropertyId)

/-- Watching does not change what the loop does. -/
theorem marginLoop_eq_watch (n : Nat) :
    ∀ l : List Text, l.length ≤ n →
      marginLoop trade p l = (marginWatch trade p l >>= fun _ => pure ()) := by
  -- a margin call skips an address, so the induction is on a bound of the length
  induction n with
  | zero =>
      intro l hlen
      rw [List.length_eq_zero_iff.mp (Nat.le_zero.mp hlen)]
      unfold marginLoop marginWatch
      rfl
  | succ n ih =>
      intro l hlen
      cases l with
      | nil =>
          unfold marginLoop marginWatch
          rfl
      | cons t rest =>
          have hrest : rest.length ≤ n := Nat.le_of_succ_le_succ hlen
          unfold marginLoop marginWatch
          cases Address.ofText? t with
          | none => exact ih rest hrest
          | some address =>
              dsimp only
              rw [bind_assoc]
              refine bind_congr fun w => ?_
              rw [bind_assoc]
              refine bind_congr fun _ => ?_
              rw [bind_assoc]
              refine bind_congr fun reached => ?_
              split
              · rw [bind_assoc]
                refine bind_congr fun _ => ?_
                rw [bind_assoc]
                refine bind_congr fun _ => ?_
                cases rest with
                | nil => rfl
                | cons skipped rest =>
                    dsimp only
                    rw [ih rest (by simp only [List.length_cons] at hrest; omega), bind_assoc]
                    rfl
              · rw [ih rest hrest, bind_assoc]
                rfl

/-- The addresses of a list of texts. -/
def addressesOf (l : List Text) : List Address := l.filterMap Address.ofText?

theorem addressesOf_cons_some {t : Text} {a : Address} (h : Address.ofText? t = some a)
    (rest : List Text) : addressesOf (t :: rest) = a :: addressesOf rest :=
  List.filterMap_cons_some h

theorem addressesOf_cons_none {t : Text} (h : Address.ofText? t = none) (rest : List Text) :
    addressesOf (t :: rest) = addressesOf rest := List.filterMap_cons_none h

variable {trade p}

/-- What nothing is known about may end in any state. -/
theorem wp_anywhere {α β : Type} {x : ExecW α} {f : α → ExecW β} {Q : β → World → Prop} {w : World}
    (h : ∀ a w', wp (f a) Q (fun _ _ => True) w') : wp (x >>= f) Q (fun _ _ => True) w := by
  rw [wp_bind]
  exact wp_all h fun _ _ => trivial

/-- Whoever is called, fewer addresses are looked at than there are texts. -/
theorem marginWatch_skips (n : Nat) :
    ∀ l : List Text, l.length ≤ n → ∀ w : World,
      wp (marginWatch trade p l)
        (fun r _ => r.length ≤ l.length ∧ ((∃ x ∈ r, x.2.isSome = true) → r.length < l.length))
        (fun _ _ => True) w := by
  induction n with
  | zero =>
      intro l hlen w
      rw [List.length_eq_zero_iff.mp (Nat.le_zero.mp hlen)]
      unfold marginWatch
      exact (wp_pure _ _ _ _).mpr (by simp)
  | succ n ih =>
      intro l hlen w
      cases l with
      | nil =>
          unfold marginWatch
          exact (wp_pure _ _ _ _).mpr (by simp)
      | cons t rest =>
          have hrest : rest.length ≤ n := Nat.le_of_succ_le_succ hlen
          unfold marginWatch
          cases Address.ofText? t with
          | none =>
              refine wp_imp (ih rest hrest w) ?_
              rintro r _ ⟨hle, -⟩
              simp only [List.length_cons]
              exact ⟨by omega, fun _ => by omega⟩
          | some address =>
              dsimp only
              refine wp_anywhere fun w1 w2 => wp_anywhere fun _ w3 => wp_anywhere fun reached w6 => ?_
              rw [wp_ite]
              refine ⟨fun _ => wp_anywhere fun _ w4 => wp_anywhere fun _ w5 => ?_, fun _ => ?_⟩
              · cases rest with
                | nil => exact (wp_throw _ _ _ _).mpr trivial
                | cons skipped rest =>
                    simp only [List.length_cons] at hrest
                    rw [wp_bind]
                    refine wp_imp (ih rest (by omega) w5) ?_
                    rintro r _ ⟨hle, -⟩
                    simp only [wp_pure, List.length_cons]
                    exact ⟨by omega, fun _ => by omega⟩
              · rw [wp_bind]
                refine wp_imp (ih rest hrest w6) ?_
                rintro r _ ⟨hle, hlt⟩
                simp only [wp_pure, List.length_cons]
                refine ⟨by omega, ?_⟩
                rintro ⟨x, hx, hcalled⟩
                rcases List.mem_cons.mp hx with rfl | hx
                · cases hcalled
                · have := hlt ⟨x, hx, hcalled⟩
                  omega

/-- `marginLogic` formats the market price and does not call the address. -/
def NotCalled (s : State) (p : PropertyId) (a : Address) : Prop :=
  HasAbs64 (toInt64 s.marketPrice) ∧ ¬ PriceReached s p a

instance (s : State) (p : PropertyId) (a : Address) : Decidable (NotCalled s p a) :=
  inferInstanceAs (Decidable (_ ∧ ¬ _))

/-- A liquidation price is not negative. -/
theorem hasAbs64_liquidationPrice (s : State) (p : PropertyId) (a : Address) :
    HasAbs64 (s.getMPbalance a p .liquidationPrice) := by
  unfold HasAbs64
  rw [State.getMPbalance_eq _ _ _ (by decide), abs_of_nonneg (TallyMap.money_nonneg _ _ _ (by decide))]
  exact TallyMap.isInt64_money _ _ _ _

/-- As long as nobody is called, every address is looked at and nothing changes. -/
theorem marginWatch_quiet (l : List Text) (w : World)
    (h : ∀ a ∈ addressesOf l, NotCalled w.state p a) :
    wp (marginWatch trade p l)
      (fun r w' => r = (addressesOf l).map (fun a => (a, none)) ∧ w'.state = w.state)
      (fun _ _ => False) w := by
  induction l generalizing w with
  | nil =>
      unfold marginWatch
      exact (wp_pure _ _ _ _).mpr ⟨rfl, rfl⟩
  | cons t rest ih =>
      unfold marginWatch
      cases ht : Address.ofText? t with
      | none =>
          rw [addressesOf_cons_none ht] at h ⊢
          exact ih w h
      | some address =>
          rw [addressesOf_cons_some ht] at h ⊢
          obtain ⟨hmarket, hnot⟩ := h address List.mem_cons_self
          simp only [wp_bind, wp_get, emit, wp_modify]
          rw [wp_onState, wp_comparePrices]
          refine ⟨fun _ => ?_, fun hno => hno ⟨hmarket, hasAbs64_liquidationPrice _ _ _⟩⟩
          rw [wp_ite, decide_eq_true_eq]
          refine ⟨fun hreached => absurd hreached hnot, fun _ => ?_⟩
          rw [wp_bind]
          refine wp_imp (ih _ fun a ha => h a (List.mem_cons_of_mem _ ha)) ?_
          rintro r w' ⟨rfl, hstate⟩
          exact (wp_pure _ _ _ _).mpr ⟨rfl, hstate⟩

/-- If the loop comes to its end, somebody was called, or nobody is to be called. -/
theorem marginWatch_calls (l : List Text) (w : World) :
    wp (marginWatch trade p l)
      (fun r _ => (∃ x ∈ r, x.2.isSome = true) ∨ ∀ a ∈ addressesOf l, NotCalled w.state p a)
      (fun _ _ => True) w := by
  induction l generalizing w with
  | nil =>
      unfold marginWatch
      exact (wp_pure _ _ _ _).mpr (Or.inr fun a ha => by cases ha)
  | cons t rest ih =>
      unfold marginWatch
      cases ht : Address.ofText? t with
      | none =>
          rw [addressesOf_cons_none ht]
          exact ih w
      | some address =>
          rw [addressesOf_cons_some ht]
          simp only [wp_bind, wp_get, emit, wp_modify]
          rw [wp_onState, wp_comparePrices]
          refine ⟨fun hformat => ?_, fun _ => trivial⟩
          rw [wp_ite, decide_eq_true_eq]
          refine ⟨fun _ => ?_, fun hnot => ?_⟩
          · -- the first whose price is reached is called
            refine wp_anywhere fun _ w1 => wp_anywhere fun _ w2 => ?_
            cases rest with
            | nil => exact (wp_throw _ _ _ _).mpr trivial
            | cons skipped rest =>
                refine wp_anywhere fun r w3 => ?_
                exact (wp_pure _ _ _ _).mpr (Or.inl ⟨_, List.mem_cons_self, rfl⟩)
          · rw [wp_bind]
            refine wp_imp (ih _) ?_
            rintro r w' (⟨x, hx, hcalled⟩ | hlater)
            · exact (wp_pure _ _ _ _).mpr (Or.inl ⟨x, List.mem_cons_of_mem _ hx, hcalled⟩)
            · refine (wp_pure _ _ _ _).mpr (Or.inr fun a ha => ?_)
              rcases List.mem_cons.mp ha with rfl | ha
              · exact ⟨hformat.1, hnot⟩
              · exact hlater a ha

end Watch

/-! ## The recorded addresses -/

/-- A record of a contract match starts with two addresses. -/
def AddressRecord (value : Text) : Prop :=
  (split isColon value).length = 12 →
    ∀ t ∈ (split isColon value).take 2, ∃ a : Address, t = a.text

/-- The records of contract matches start with two addresses each. -/
def AddressRecords (db : TextDB) : Prop :=
  ∀ key value : Text, db[key]? = some value → AddressRecord value

theorem AddressRecords.insert {db : TextDB} (h : AddressRecords db) {key value : Text}
    (hv : AddressRecord value) : AddressRecords (db.insert key value) := by
  intro k v hk
  rw [getElem?_insert_eq] at hk
  split at hk
  · cases hk
    exact hv
  · exact h k v hk

theorem addressRecord_tradeValue (tx : CMPTransaction) : AddressRecord (tradeValue tx) := by
  intro hlen
  rw [split_tradeValue] at hlen
  cases hlen

theorem addressRecord_matchValue (s : State) (pold pnew : CMPContractDex) (stM stT : MatchStatus)
    (lM lT : Int) : AddressRecord (matchValue s pold pnew stM stT lM lT) := by
  intro _ t ht
  unfold matchValue at ht
  rw [split_record (by simp) (by simp [isField_decNat, isField_decInt, isField_address,
    isField_status])] at ht
  rcases List.mem_cons.mp ht with rfl | ht
  · exact ⟨pold.addr, rfl⟩
  · rw [List.take_succ_cons, List.take_zero, List.mem_singleton] at ht
    exact ⟨pnew.addr, ht⟩

/-- A new element keeps a list without duplicates. -/
theorem nodup_append_new {l : List Text} {t : Text} (h : l.Nodup) (ht : t ∉ l) : (l ++ [t]).Nodup :=
  List.nodup_append.mpr ⟨h, List.nodup_singleton t, fun _ hx _ hy hxy =>
    ht ((List.mem_singleton.mp hy) ▸ hxy ▸ hx)⟩

/-- The vector of `marginLogic` has every address once, and nothing but addresses. -/
theorem matchedAddresses_facts (values : List Text) (hv : ∀ v ∈ values, AddressRecord v) :
    (matchedAddresses values).Nodup ∧
      ∀ t ∈ matchedAddresses values, ∃ a : Address, t = a.text := by
  unfold matchedAddresses
  refine List.foldlRecOn
    (motive := fun addr : List Text => addr.Nodup ∧ ∀ t ∈ addr, ∃ a : Address, t = a.text)
    values _ ⟨List.nodup_nil, by simp⟩ ?_
  rintro addr ⟨hnodup, haddr⟩ v hmem
  dsimp only
  split
  · next a1 a2 _ _ _ _ _ _ _ _ _ _ hsplit =>
      have hfields := hv v hmem (by rw [hsplit]; rfl)
      rw [hsplit] at hfields
      have h1 : ∃ a : Address, a1 = a.text := hfields a1 (by simp)
      have h2 : ∃ a : Address, a2 = a.text := hfields a2 (by simp)
      -- the first address, then the second
      have hfirst : (if a1 ∈ addr then addr else addr ++ [a1]).Nodup ∧
          ∀ t ∈ if a1 ∈ addr then addr else addr ++ [a1], ∃ a : Address, t = a.text := by
        split
        · exact ⟨hnodup, haddr⟩
        · next hnew =>
            refine ⟨nodup_append_new hnodup hnew, fun t ht => ?_⟩
            rcases List.mem_append.mp ht with ht | ht
            · exact haddr t ht
            · rw [List.mem_singleton.mp ht]
              exact h1
      generalize (if a1 ∈ addr then addr else addr ++ [a1]) = addr1 at hfirst ⊢
      split
      · next hnew =>
          refine ⟨nodup_append_new hfirst.1 hnew.1, fun t ht => ?_⟩
          rcases List.mem_append.mp ht with ht | ht
          · exact hfirst.2 t ht
          · rw [List.mem_singleton.mp ht]
            exact h2
      · exact hfirst
  · exact ⟨hnodup, haddr⟩

/-- The texts that `marginLogic` takes for addresses. -/
def recordedTexts (s : State) : List Text := matchedAddresses (s.tradeList.toList.map Prod.snd)

/-- The addresses found in the trade records. -/
def recordedAddresses (s : State) : List Address := addressesOf (recordedTexts s)

theorem addressesOf_facts {l : List Text} (hnodup : l.Nodup)
    (haddr : ∀ t ∈ l, ∃ a : Address, t = a.text) :
    (addressesOf l).Nodup ∧ (addressesOf l).length = l.length := by
  induction l with
  | nil => exact ⟨List.nodup_nil, rfl⟩
  | cons t rest ih =>
      obtain ⟨hnot, hnodup'⟩ := List.nodup_cons.mp hnodup
      obtain ⟨a, rfl⟩ := haddr t List.mem_cons_self
      obtain ⟨hrest, hlen⟩ := ih hnodup' fun x hx => haddr x (List.mem_cons_of_mem _ hx)
      rw [addressesOf_cons_some (Address.ofText?_text a)]
      refine ⟨List.nodup_cons.mpr ⟨fun hmem => hnot ?_, hrest⟩, by simp [hlen]⟩
      obtain ⟨t, ht, hta⟩ := List.mem_filterMap.mp hmem
      rw [Address.ofText?_eq_some hta]
      exact ht

theorem recordedAddresses_facts {s : State} (h : AddressRecords s.tradeList) :
    (recordedAddresses s).Nodup ∧ (recordedAddresses s).length = (recordedTexts s).length := by
  have hrecords : ∀ v ∈ s.tradeList.toList.map Prod.snd, AddressRecord v := by
    intro v hv
    obtain ⟨e, he, rfl⟩ := List.mem_map.mp hv
    exact h e.1 e.2 (mem_toList_iff.mp he)
  obtain ⟨hnodup, haddr⟩ := matchedAddresses_facts _ hrecords
  exact addressesOf_facts hnodup haddr

/-! ## The states that are reached -/

/-- The states that the steps of a trace start in have records with addresses. -/
def Event.Recorded (e : Event) : Prop := ∀ s, e.pre? = some s → AddressRecords s.tradeList

/-- The records are fine now, and were before. -/
structure RecordInv (w : World) : Prop where
  now : AddressRecords w.state.tradeList
  before : ∀ e ∈ w.trace, e.Recorded

theorem RecordInv.quiet {w w' : World} (h : RecordInv w) (ht : w'.trace = w.trace)
    (hdb : AddressRecords w'.state.tradeList) : RecordInv w' :=
  ⟨hdb, by rw [ht]; exact h.before⟩

/-- A new event starts in the state as it is. -/
theorem RecordInv.noted {w w' : World} {e : Event} (h : RecordInv w) (ht : w'.trace = e :: w.trace)
    (he : e.pre? = none ∨ e.pre? = some w.state) : ∀ x ∈ w'.trace, x.Recorded := by
  rw [ht]
  refine List.forall_mem_cons.mpr ⟨fun s hs => ?_, h.before⟩
  rcases he with he | he
  · rw [he] at hs
    cases hs
  · rw [he] at hs
    cases hs
    exact h.now

theorem recordInv_engine : EngineInv RecordInv fun _ w => ∀ e ∈ w.trace, e.Recorded where
  condition := fun hI _ _ => hI.before
  visit := by
    intro w fs price key pold pnew hI _ _
    refine wp_mono (visitCandidate_spec pold pnew w) ?_ ?_
    · rintro _ w' ⟨m, -, rfl⟩
      exact ⟨hI.now, hI.noted rfl (Or.inr rfl)⟩
    · rintro e w' ⟨-, ht⟩
      exact hI.noted ht (Or.inr rfl)
  fill := by
    intro w fs price key pold pnew hI _ _ _
    refine wp_mono (fillOrder_spec pold pnew w) ?_ ?_
    · rintro rem w' ⟨-, s', mp, basisS, basisB, rS, rB, value, heff, rfl⟩
      refine ⟨?_, hI.noted rfl (Or.inr rfl)⟩
      obtain ⟨stM, stT, lM, lT, rfl⟩ := heff.recorded
      show AddressRecords s'.tradeList
      rw [heff.state]
      exact hI.now.insert (addressRecord_matchValue _ _ _ _ _ _ _)
    · rintro e w' ⟨-, ht⟩
      exact hI.noted ht (Or.inr rfl)
  check := fun _ _ hI _ => ⟨hI.now, hI.noted rfl (Or.inr rfl)⟩
  call := fun hI _ _ _ => ⟨hI.now, hI.noted rfl (Or.inl rfl)⟩
  reset := by
    intro w s p a last liq hI _ _ _
    rw [wp_onState]
    refine wp_mono (assertUpdate_posts _ _ _ _ w.state) ?_ (fun _ _ _ => hI.before)
    rintro _ s' ⟨m, rfl, -⟩
    exact hI.quiet rfl hI.now
  erase := by
    intro w w0 fs price key pold pnew rem hI _ _ _ _ _
    refine wp_mono (eraseMatched_spec price key pold pnew rem w) ?_ ?_
    · rintro _ w' ⟨-, rfl⟩
      exact ⟨hI.now, hI.noted rfl (Or.inl rfl)⟩
    · rintro e w' ⟨-, -, rfl⟩
      exact hI.noted rfl (Or.inl rfl)
  rest := by
    intro w fs o hI _
    refine wp_imp (restOrder_spec o w _) ?_
    rintro _ w' rfl
    refine hI.quiet rfl ?_
    unfold restState State.setContractLevel
    split
    · exact hI.now
    · exact hI.now
  fuel := fun hI => hI.before
  undefined := fun hI => hI.before

theorem recordInv_run :
    RunInv (fun _ => True) RecordInv fun _ w => ∀ e ∈ w.trace, e.Recorded where
  toEngineInv := recordInv_engine
  stops := by
    intro e w w' hI ht _
    rw [ht]
    exact hI.before
  submit := fun _ _ hI _ => ⟨hI.now, hI.noted rfl (Or.inr rfl)⟩
  reserve := by
    intro w tx m _ hI _ _ _ _
    have hres : RecordInv (reservedWorld w tx m) :=
      hI.quiet rfl (hI.now.insert (addressRecord_tradeValue tx))
    exact ⟨fun _ => hres, fun _ => ⟨hres.now, hres.noted rfl (Or.inl rfl)⟩⟩
  created := fun _ hI _ _ => hI.quiet rfl hI.now

/-- The states that a node reaches from an empty trade database: those that contract transactions go
    through and end in, also if the last of them stops the node, and those after anything else,
    which may take records out, or add some that are not of contract matches. -/
inductive RecordsReached : State → Prop
  | empty {s : State} (h : s.tradeList = ∅) : RecordsReached s
  | within {s s' : State} {fuel : Nat} {ops : List ContractOp} {e : Event} (h : RecordsReached s)
      (he : e ∈ (after (runContracts fuel ops) (World.start s)).trace) (hs : e.pre? = some s') :
      RecordsReached s'
  | run {s : State} {w : World} {fuel : Nat} {ops : List ContractOp} (h : RecordsReached s)
      (hrun : runContracts fuel ops (World.start s) = .ok () w) : RecordsReached w.state
  | other {s s' : State} (h : RecordsReached s)
      (hdb : ∀ key value : Text, s'.tradeList[key]? = some value →
        s.tradeList[key]? = some value ∨ (split isColon value).length ≠ 12) : RecordsReached s'

/-- **THE RECORDS OF MATCHES START WITH ADDRESSES** in the states that are reached. -/
theorem RecordsReached.addressRecords {s : State} (h : RecordsReached s) :
    AddressRecords s.tradeList := by
  induction h with
  | empty h =>
      intro key value hv
      rw [h] at hv
      simp at hv
  | @within s s' fuel ops e _ he hs ih =>
      have hstart : RecordInv (World.start s) := ⟨ih, by simp [World.start]⟩
      have hrun := runContracts_rule recordInv_run fuel ops (by simp) hstart rfl
      unfold after at he
      cases hres : runContracts fuel ops (World.start s) with
      | ok _ w =>
          rw [hres] at he
          exact (wp_ok hrun hres).1.before e he s' hs
      | error _ w =>
          rw [hres] at he
          exact wp_error hrun hres e he s' hs
  | @run s w fuel ops _ hrun ih =>
      have hstart : RecordInv (World.start s) := ⟨ih, by simp [World.start]⟩
      exact (wp_ok (runContracts_rule recordInv_run fuel ops (by simp) hstart rfl) hrun).1.now
  | other _ hdb ih =>
      intro key value hv
      rcases hdb key value hv with hold | hlen
      · exact ih key value hold
      · exact fun h12 => absurd h12 hlen

/-! ## Whom it should call -/

/-- A long position whose liquidation price the market has fallen to, or a short one whose price it has
    risen to. -/
def ShouldCall (s : State) (p : PropertyId) (a : Address) : Prop :=
  (0 < s.getMPbalance a p .possitiveBalance ∧
      (s.marketPrice : Int) ≤ s.getMPbalance a p .liquidationPrice) ∨
    (0 < s.getMPbalance a p .negativeBalance ∧
      s.getMPbalance a p .liquidationPrice ≤ s.marketPrice)

/-- The contracts of the position of an address. -/
def fullPosition (s : State) (p : PropertyId) (a : Address) : Int :=
  if 0 < s.getMPbalance a p .negativeBalance then s.getMPbalance a p .negativeBalance
  else s.getMPbalance a p .possitiveBalance

/-- `marginLogic`, watched. -/
def marginLogicWatch (trade : CMPContractDex → ExecW (MatchReturnType × CMPContractDex))
    (property : PropertyId) : ExecW (List (Address × Option CMPContractDex)) := do
  let w ← get
  marginWatch trade property (recordedTexts w.state)

theorem marginLogicWith_eq_watch
    (trade : CMPContractDex → ExecW (MatchReturnType × CMPContractDex)) (p : PropertyId) :
    marginLogicWith trade p = (marginLogicWatch trade p >>= fun _ => pure ()) := by
  unfold marginLogicWith marginLogicWatch
  rw [bind_assoc]
  exact bind_congr fun w => marginLoop_eq_watch trade p _ _ le_rfl

/-- What one call of `marginLogic` should do: look at every recorded address, and place one order for
    the full position of each address that should be called, and of no other. -/
structure CallsExactly (s : State) (p : PropertyId) (r : List (Address × Option CMPContractDex)) :
    Prop where
  examines : ∀ a ∈ recordedAddresses s, a ∈ r.map Prod.fst
  calls : ∀ a, (∃ o, (a, some o) ∈ r) ↔ ShouldCall s p a
  once : (r.map Prod.fst).Nodup
  full : ∀ a o, (a, some o) ∈ r →
    o.addr = a ∧ o.property = p ∧ o.amountForsale = fullPosition s p a

/-- **MARGIN CALLS ARE EXACT IF THERE IS NOTHING TO DO AND NOTHING IS DONE, AND ONLY THEN**: `marginLogic`
    calls no recorded address, and nobody should be called. How prices are formatted does not
    matter. -/
theorem margin_calls_exact_iff (trade : CMPContractDex → ExecW (MatchReturnType × CMPContractDex))
    (p : PropertyId) {w : World} (hs : RecordsReached w.state) :
    (∃ r w', marginLogicWatch trade p w = .ok r w' ∧ marginLogicWith trade p w = .ok () w' ∧
        CallsExactly w.state p r) ↔
      (∀ a ∈ recordedAddresses w.state, NotCalled w.state p a) ∧ ∀ a, ¬ ShouldCall w.state p a := by
  obtain ⟨hnodup, hlen⟩ := recordedAddresses_facts hs.addressRecords
  have hwatch : marginLogicWatch trade p w = marginWatch trade p (recordedTexts w.state) w := rfl
  constructor
  · rintro ⟨r, w', hrun, -, hexact⟩
    rw [hwatch] at hrun
    -- every recorded address is looked at, so none was skipped
    have hall : (recordedTexts w.state).length ≤ r.length := by
      have hfst : (r.map Prod.fst).length = r.length := List.length_map _
      rw [← hlen, ← hfst]
      exact (hnodup.subperm fun a ha => hexact.examines a ha).length_le
    have hskips := (wp_ok (marginWatch_skips _ _ le_rfl w) hrun).2
    have hnone : ¬ ∃ x ∈ r, x.2.isSome = true := fun hcalled =>
      absurd (hskips hcalled) (not_lt.mpr hall)
    refine ⟨(wp_ok (marginWatch_calls _ w) hrun).resolve_left hnone, fun a hcall => ?_⟩
    obtain ⟨o, ho⟩ := (hexact.calls a).mpr hcall
    exact hnone ⟨_, ho, rfl⟩
  · rintro ⟨hquiet, hnobody⟩
    have hwp : wp (marginWatch trade p (recordedTexts w.state)) _ _ w :=
      marginWatch_quiet _ w hquiet
    obtain ⟨r, w', hrun, rfl, -⟩ := wp_returns hwp
    have hlogic : marginLogicWith trade p w = .ok () w' := by
      rw [marginLogicWith_eq_watch]
      show EStateM.bind (marginLogicWatch trade p) _ w = _
      unfold EStateM.bind
      rw [hwatch, hrun]
      rfl
    have hfst : ((addressesOf (recordedTexts w.state)).map
        fun a => ((a, none) : Address × Option CMPContractDex)).map Prod.fst =
        recordedAddresses w.state := by
      rw [List.map_map]
      exact List.map_id _
    have hnone : ∀ a o, (a, some o) ∉ (addressesOf (recordedTexts w.state)).map
        fun a => ((a, none) : Address × Option CMPContractDex) := by
      intro a o hmem
      obtain ⟨x, -, hx⟩ := List.mem_map.mp hmem
      cases hx
    refine ⟨_, w', hwatch.trans hrun, hlogic, fun a ha => ?_, fun a => ?_, ?_,
      fun a o ho => absurd ho (hnone a o)⟩
    · rw [hfst]
      exact ha
    · exact ⟨fun ⟨o, ho⟩ => absurd ho (hnone a o), fun h => absurd h (hnobody a)⟩
    · rw [hfst]
      exact hnodup

/-- Long against short, and back again at a tenfold price: the liquidation prices that are added up stay
    below the market price, and no position is left. -/
def closedTrades : List ContractOp :=
  [.trade (orderTx traderA 2 11 1 1 100), .trade (orderTx traderB 3 12 2 1 80),
    .trade (orderTx traderB 4 13 1 1 1000), .trade (orderTx traderA 5 14 2 1 10)]

def closedWorld : World := after (runContracts 3 closedTrades) (World.start (marketState 0 1))

set_option maxRecDepth 4000 in
private theorem closedWorld_returns :
    (returned (runContracts 3 closedTrades) (World.start (marketState 0 1))).isSome = true := by
  decide +kernel

set_option maxRecDepth 4000 in
private theorem closedWorld_notCalled : recordedAddresses closedWorld.state = [traderA, traderB] ∧
    ∀ a ∈ [traderA, traderB], NotCalled closedWorld.state 3 a := by
  decide +kernel

set_option maxRecDepth 4000 in
private theorem closedWorld_flat :
    closedWorld.state.tallyMap.total 3 .possitiveBalance = 0 ∧
      closedWorld.state.tallyMap.total 3 .negativeBalance = 0 := by
  decide +kernel

theorem closedWorld_reached : RecordsReached closedWorld.state :=
  .run (.empty rfl) (eq_ok_after closedWorld_returns)

private theorem closedWorld_holds {ty : TallyType} (hread : ty ≠ .acceptReserve) (hty : ty ≠ .pending)
    (hzero : closedWorld.state.tallyMap.total 3 ty = 0) (a : Address) :
    ¬ 0 < closedWorld.state.getMPbalance a 3 ty := by
  rw [State.getMPbalance_eq _ _ _ hread, not_lt, ← hzero]
  exact TallyMap.money_le_total _ _ _ hty

private theorem closedWorld_nobody (a : Address) : ¬ ShouldCall closedWorld.state 3 a := by
  rintro (⟨hlong, -⟩ | ⟨hshort, -⟩)
  · exact closedWorld_holds (by decide) (by decide) closedWorld_flat.1 a hlong
  · exact closedWorld_holds (by decide) (by decide) closedWorld_flat.2 a hshort

/-- After all positions were closed. -/
theorem margin_calls_exact_iff_closedWorld :
    recordedAddresses closedWorld.state = [traderA, traderB] ∧
    ∃ r w', marginLogicWatch (xTradeContract 3) 3 closedWorld = .ok r w' ∧
      marginLogicWith (xTradeContract 3) 3 closedWorld = .ok () w' ∧
      CallsExactly closedWorld.state 3 r :=
  ⟨closedWorld_notCalled.1,
    (margin_calls_exact_iff (xTradeContract 3) 3 closedWorld_reached).mpr
      ⟨by rw [closedWorld_notCalled.1]; exact closedWorld_notCalled.2, closedWorld_nobody⟩⟩

/-- The world after one trade: `A` is long, `B` is short, and the market price is above both liquidation
    prices. -/
def quietWorld : World := after (runContracts 3 quietTrade) (World.start fundedState)

set_option maxRecDepth 4000 in
private theorem quietWorld_returns :
    (returned (runContracts 3 quietTrade) (World.start fundedState)).isSome = true := by
  decide +kernel

theorem quietWorld_reached : RecordsReached quietWorld.state :=
  .run (.empty rfl) (eq_ok_after quietWorld_returns)

set_option maxRecDepth 4000 in
private theorem quietWorld_calls_nobody :
    value (marginLogicWatch (xTradeContract 3) 3) quietWorld =
      some [(traderA, none), (traderB, none)] := by
  decide +kernel

set_option maxRecDepth 4000 in
private theorem quietWorld_short :
    0 < quietWorld.state.getMPbalance traderB 3 .negativeBalance ∧
      quietWorld.state.getMPbalance traderB 3 .liquidationPrice ≤ quietWorld.state.marketPrice := by
  decide +kernel

/-- **A SHORT POSITION IS NOT CALLED** when the market has risen to its liquidation price. -/
theorem quietWorld_not_exact :
    RecordsReached quietWorld.state ∧
    ¬ ∃ r w', marginLogicWatch (xTradeContract 3) 3 quietWorld = .ok r w' ∧
      marginLogicWith (xTradeContract 3) 3 quietWorld = .ok () w' ∧
      CallsExactly quietWorld.state 3 r := by
  refine ⟨quietWorld_reached, ?_⟩
  rintro ⟨r, w', hrun, -, hexact⟩
  have hr := eq_ok_of_value quietWorld_calls_nobody
  rw [hrun] at hr
  cases hr
  obtain ⟨o, ho⟩ := (hexact.calls traderB).mpr (Or.inr quietWorld_short)
  simp at ho

end OmniCore
