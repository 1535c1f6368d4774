import OmniCore.Lib.Counts
import OmniCore.CrowdsaleRun

/-! # TokenMoves — what code that only moves tokens leaves alone

    Most transactions take tokens from one place and put them into another. Such code shifts
    the number of outstanding tokens by an amount that can be read off it, leaves the
    registry, the crowdsales, the parameters and the frozen addresses as they are, keeps
    only orders with something left in the book, and debits no frozen balance. -/

namespace OmniCore

open Std (ExtTreeMap ExtTreeSet)
open Machine TextRec MapSum Exec

/-! ## What is left alone -/

/-- The state that decides what a transaction may do. -/
structure Settings where
  params : ConsensusParams
  sps : CMPSPInfo
  crowds : ExtTreeMap Address CMPCrowd
  frozenAddresses : ExtTreeSet (Address × PropertyId) pairCmp

def State.settings (s : State) : Settings := ⟨s.params, s.sps, s.crowds, s.frozenAddresses⟩

def Settings.isAddressFrozen (σ : Settings) (a : Address) (p : PropertyId) : Bool :=
  σ.frozenAddresses.contains (a, p)

/-- Every order in the book has something left. -/
def State.OrdersOpen (s : State) : Prop :=
  ∀ (p : PropertyId) (price : ℚ) (k : OrderKey) (o : CMPMetaDEx),
    (s.mdLevel p price)[k]? = some o → 0 < o.amountRemaining

/-- The node counts `t` outstanding tokens and has these settings. -/
structure Standing (height : Int) (σ : Settings) (t : PropertyId → Int) (s : State) : Prop where
  count : Outstanding height t s
  settings : s.settings = σ
  book : s.OrdersOpen

/-- Any halt but that of a frozen balance which was to be debited. -/
def SparesFrozen (e : Halt) : Prop := e ≠ .assertFailed .frozen

instance decidableSparesFrozen (e : Halt) : Decidable (SparesFrozen e) :=
  inferInstanceAs (Decidable (e ≠ .assertFailed .frozen))

/-- **A MOVE OF TOKENS** shifts what is outstanding by `d`, returns in `R`, and spares frozen
    balances. -/
abbrev Moves {α : Type} (height : Int) (σ : Settings) (d : PropertyId → Int) (R : α → Prop)
    (x : ExecM α) : Prop :=
  Counts (Standing height σ) SparesFrozen d R x

section Standing

variable {height : Int} {σ : Settings} {t t' : PropertyId → Int} {s s' : State}

theorem State.OrdersOpen.congr (h : s.OrdersOpen) (hbook : s'.metadex = s.metadex) : s'.OrdersOpen := by
  intro p price k o ho
  refine h p price k o ?_
  unfold State.mdLevel State.mdPrices at ho ⊢
  rwa [hbook] at ho

theorem Standing.congr (h : Standing height σ t s) (hm : s'.tallyMap = s.tallyMap)
    (hc : s'.feeCache = s.feeCache) (hσ : s'.settings = s.settings)
    (hbook : s'.metadex = s.metadex) : Standing height σ t s' :=
  ⟨h.count.congr hm hc, hσ.trans h.settings, h.book.congr hbook⟩

theorem Standing.of_eq (h : Standing height σ t s) (ht : t = t') : Standing height σ t' s := ht ▸ h

theorem Standing.frozen (h : Standing height σ t s) (a : Address) (p : PropertyId) :
    s.isAddressFrozen a p = σ.isAddressFrozen a p := by
  rw [← h.settings]
  rfl

end Standing

/-- Code that may halt, but never at a frozen balance. -/
abbrev Spares {α : Type} (R : α → Prop) (x : ExecM α) : Prop :=
  Counts (fun (_ : Int) (_ : State) => True) SparesFrozen 0 R x

/-! ## Code that changes nothing -/

section Silent

variable {α : Type} {R : α → Prop} {height : Int} {σ : Settings}

theorem Spares.wp {x : ExecM α} (h : Spares R x) (s : State) :
    wp x (fun a _ => R a) (fun e _ => SparesFrozen e) s :=
  wp_imp (h.run (t := 0) trivial) fun _ _ ha => ha.1

/-- Code that changes nothing moves nothing. -/
theorem Moves.of_keeps {x : ExecM α} (h : Keeps (fun s : State => s) x) (hspares : Spares R x) :
    Moves height σ 0 R x :=
  Counts.of_keeps h hspares.wp

theorem spares_assertThat {site : AssertSite} (c : Bool) (hsite : site ≠ .frozen) :
    Spares (fun _ => c = true) (assertThat site c) := by
  refine ⟨fun {_ s} _ => (wp_assertThat site c _ _ s).mpr ⟨fun hc => ⟨hc, trivial⟩, fun _ => ?_⟩⟩
  intro heq
  exact hsite (Halt.assertFailed.inj heq)

theorem spares_signed64 (n : Int) : Spares (fun m => m = n ∧ IsInt64 n) (signed64 n) := by
  refine ⟨fun {_ s} _ => (wp_signed64 n _ _ s).mpr ⟨fun hn => ⟨⟨rfl, hn⟩, trivial⟩, fun _ => ?_⟩⟩
  decide

theorem spares_convertTo256 (n : Int) :
    Spares (fun m => m = n.toNat ∧ 0 ≤ n) (convertTo256 n) := by
  refine ⟨fun {_ s} _ => (wp_convertTo256 n _ _ s).mpr ⟨fun hn => ⟨⟨rfl, hn⟩, trivial⟩, fun _ => ?_⟩⟩
  decide

theorem spares_convertTo64 (n : Nat) :
    Spares (fun m => m = (n : Int) ∧ (n : Int) ≤ maxInt64) (convertTo64 n) := by
  refine ⟨fun {_ s} _ => (wp_convertTo64 n _ _ s).mpr ⟨fun hn => ⟨⟨rfl, hn⟩, trivial⟩, fun _ => ?_⟩⟩
  decide

/-- All shares that are allocated are positive. -/
theorem spares_allocate (amount totalTokens : Int) (owners : List (Int × Address)) :
    ∀ (sentSoFar : Int) (receiversSet : OwnerAddrType), (∀ e, e ∈ receiversSet → 0 < e.1) →
      Spares (fun r : OwnerAddrType => ∀ e, e ∈ r → 0 < e.1)
        (allocate amount totalTokens owners sentSoFar receiversSet) := by
  induction owners with
  | nil => exact fun _ _ hset => Counts.pure hset
  | cons owner rest ih =>
      intro sentSoFar receiversSet hset
      obtain ⟨tokens, address⟩ := owner
      rw [allocate]
      refine Counts.seq (spares_convertTo256 _) fun _ _ => ?_
      refine Counts.seq (spares_convertTo256 _) fun _ _ => ?_
      refine Counts.seq (spares_convertTo256 _) fun _ _ => ?_
      refine Counts.seq (spares_convertTo64 _) fun _ _ => ?_
      refine Counts.ite (fun hpos => ih _ _ fun e he => ?_) fun _ => Counts.pure hset
      rcases ExtTreeMap.mem_insert.mp he with heq | hmem
      · rw [← Std.LawfulEqCmp.eq_of_compare heq]
        exact hpos
      · exact hset e hmem

/-- Nobody receives nothing, or less. -/
theorem spares_stoGetReceivers (sender : Option Address) (p : PropertyId) (amount : Int) :
    Spares (fun r => ∀ e ∈ OwnerAddrType.descending r, 0 < e.1)
      (stoGetReceivers sender p amount) := by
  refine Counts.get fun _ s _ => ?_
  have hwalk : ∀ acc : Int × OwnerAddrType, Spares (fun _ => True)
      (s.tallyMap.toList.foldlM (collectOwner sender p) acc) := by
    intro acc
    refine Counts.foldlM (fun b _ e _ => ?_) trivial
    refine Counts.seq (spares_signed64 _) fun _ _ => ?_
    refine Counts.ite (fun _ => Counts.pure trivial) fun _ => ?_
    exact Counts.seq (spares_signed64 _) fun _ _ => Counts.pure trivial
  refine (hwalk _).seq fun found _ => ?_
  have hempty : ∀ e : Int × Address, e ∈ (∅ : OwnerAddrType) → 0 < e.1 :=
    fun e he => absurd he ExtTreeMap.not_mem_empty
  refine (spares_allocate _ _ _ 0 ∅ hempty).imp fun r hr e he => hr e ?_
  unfold OwnerAddrType.descending at he
  rw [List.mem_reverse, ExtTreeMap.map_fst_toList_eq_keys, ExtTreeMap.mem_keys] at he
  exact he

/-- The cached amount is read, or one of its items is no number. -/
theorem halts_getCachedAmount {E : Halt → Prop} (p : PropertyId) (hcast : E .exception) :
    Counts (fun (_ : Int) (_ : State) => True) E 0 (fun _ => True) (getCachedAmount p) := by
  have hread : ∀ (h : FeeCacheItems) (t : Text),
      Counts (fun (_ : Int) (_ : State) => True) E 0 (fun _ => True) (readFeeItem h t) := by
    intro h t
    unfold readFeeItem
    split
    · split
      · exact Counts.pure trivial
      · exact Counts.throw hcast
    · exact Counts.pure trivial
  refine Counts.seq (R := fun _ => True) ?_ fun _ _ => Counts.pure trivial
  refine Counts.get fun _ s _ => ?_
  split
  · exact Counts.pure trivial
  · exact Counts.foldlM (fun b _ t _ => hread b t) trivial

theorem spares_getCachedAmount (p : PropertyId) : Spares (fun _ => True) (getCachedAmount p) :=
  halts_getCachedAmount p (by decide)

/-- The number of tokens is counted, or it does not fit, or an item is no number. -/
theorem halts_getTotalTokens {E : Halt → Prop} (p : PropertyId) (hover : E .undefinedBehaviour)
    (hcast : E .exception) :
    Counts (fun (_ : Int) (_ : State) => True) E 0 (fun _ => True) (getTotalTokens p) := by
  have hsum : ∀ n : Int, Counts (fun (_ : Int) (_ : State) => True) E 0 (fun _ => True) (signed64 n) :=
    fun n => ⟨fun {_ s} _ => (wp_signed64 n _ _ s).mpr ⟨fun _ => ⟨trivial, trivial⟩, fun _ => hover⟩⟩
  refine Counts.get fun _ s _ => ?_
  split
  · exact Counts.pure trivial
  · refine Counts.ite (fun _ => Counts.pure trivial) fun _ => ?_
    refine Counts.seq (R := fun _ => True) ?_ fun _ _ => ?_
    · exact Counts.foldlM (fun b _ e _ => hsum _) trivial
    · exact (halts_getCachedAmount p hcast).seq fun _ _ => hsum _

theorem spares_getTotalTokens (p : PropertyId) : Spares (fun _ => True) (getTotalTokens p) :=
  halts_getTotalTokens p (by decide) (by decide)

end Silent

/-! ## One credit or debit -/

theorem holds_balance : TallyType.Holds .balance := trivial

theorem holds_sellOfferReserve : TallyType.Holds .sellOfferReserve := trivial

theorem holds_acceptReserve : TallyType.Holds .acceptReserve := trivial

theorem holds_metaDExReserve : TallyType.Holds .metaDExReserve := trivial

/-- A balance that is not frozen is not the reason to halt. -/
theorem assertUpdate_spares {who : Address} {p : PropertyId} {amount : Int} {ty : TallyType}
    {s : State} (hfree : ty = .balance → amount < 0 → s.isAddressFrozen who p = false) :
    wp (assertUpdate who p amount ty) (fun _ _ => True) (fun e _ => SparesFrozen e) s := by
  have hupdated : ∀ (ok : Bool) (s' : State),
      wp (assertThat .updateTally ok) (fun _ _ => True) (fun e _ => SparesFrozen e) s' :=
    fun ok s' => (wp_assertThat _ _ _ _ _).mpr ⟨fun _ => trivial, fun _ => by decide⟩
  unfold assertUpdate updateTallyMap
  rw [wp_bind, wp_ite]
  refine ⟨fun _ => (wp_pure _ _ _ _).mpr (hupdated _ _), fun _ => ?_⟩
  rw [wp_bind, wp_get]
  have hrest : wp (do
      let before := s.getMPbalance who p ty
      let r := s.tallyMap.update who p amount ty
      set (s.withTally r.2)
      let after := State.getMPbalance (s.withTally r.2) who p ty
      if r.1 = false then
        assertThat .condition (before == after)
      pure r.1 : ExecM Bool) (fun ok s' => wp (assertThat .updateTally ok) (fun _ _ => True)
        (fun e _ => SparesFrozen e) s') (fun e _ => SparesFrozen e) s := by
    dsimp only
    rw [wp_bind, wp_set, wp_ite]
    refine ⟨fun _ => ?_, fun _ => (wp_pure _ _ _ _).mpr (hupdated _ _)⟩
    rw [wp_bind, wp_assertThat]
    exact ⟨fun _ => (wp_pure _ _ _ _).mpr (hupdated _ _), fun _ => by decide⟩
  dsimp only
  rw [wp_ite]
  refine ⟨fun hdebit => ?_, fun _ => hrest⟩
  rw [wp_bind, wp_assertThat]
  refine ⟨fun _ => hrest, fun hfrozen => ?_⟩
  rw [hfree hdebit.1 hdebit.2] at hfrozen
  exact absurd hfrozen (by decide)

section Moves

variable {α : Type} {height : Int} {σ : Settings}

/-- What is counted and what is left alone, from what is proved about each of them. -/
theorem Moves.of_parts {d : PropertyId → Int} {x : ExecM α} (hcount : Shifts height d x)
    (hkeeps : Keeps (fun s : State => (s.settings, s.metadex)) x)
    (hspares : ∀ s, s.settings = σ → wp x (fun _ _ => True) (fun e _ => SparesFrozen e) s) :
    Moves height σ d (fun _ => True) x := by
  refine ⟨fun {t s} hs => ?_⟩
  refine wp_mono (wp_and (Shifts.run hcount hs.count) (wp_and (hkeeps.run s) (hspares s hs.settings)))
    (fun _ s' h => ?_) fun e s' h => h.2.2
  obtain ⟨hcount', hsame, -⟩ := h
  rw [Prod.mk.injEq] at hsame
  exact ⟨trivial, hcount', hsame.1.trans hs.settings, hs.book.congr hsame.2⟩

theorem outsideFees_settings : OutsideFees fun s : State => (s.settings, s.metadex) where
  eq _ _ _ _ := rfl

/-- A credit or a debit, if what is debited is not frozen. -/
theorem moves_assertUpdate (who : Address) (p : PropertyId) (amount : Int) {ty : TallyType}
    (hty : ty.Holds) (hfree : ty = .balance → amount < 0 → σ.isAddressFrozen who p = false) :
    Moves height σ (Pi.single p amount) (fun _ => True) (assertUpdate who p amount ty) := by
  refine Moves.of_parts (shifts_assertUpdate who p amount hty)
    (outsideFees_settings.assertUpdate who p amount ty) fun s hs => ?_
  refine assertUpdate_spares fun hbalance hneg => ?_
  have hsame : s.isAddressFrozen who p = s.settings.isAddressFrozen who p := rfl
  rw [hsame, hs]
  exact hfree hbalance hneg

/-- A debit with its credit: nothing is shifted. -/
theorem moves_pair (src dst : Address) (p : PropertyId) {amount : Int} {srcTy dstTy : TallyType}
    (hpos : 0 ≤ amount) (hsrc : srcTy.Holds) (hdst : dstTy.Holds)
    (hfree : srcTy = .balance → σ.isAddressFrozen src p = false) {R : α → Prop}
    {d : PropertyId → Int} {k : ExecM α} (hk : Moves height σ d R k) :
    Moves height σ d R (do
      assertUpdate src p (-amount) srcTy
      assertUpdate dst p amount dstTy
      k) := by
  refine ((moves_assertUpdate src p (-amount) hsrc fun hbalance _ => hfree hbalance).bind fun _ _ =>
    (moves_assertUpdate dst p amount hdst fun _ hneg => ?_).bind fun _ _ => hk).of_eq ?_
  · omega
  · rw [Pi.single_neg]
    abel

/-- Writing what neither counts nor decides anything. -/
theorem moves_modify {f : State → State} (hf : ∀ s : State, (f s).tallyMap = s.tallyMap ∧
      (f s).feeCache = s.feeCache ∧ (f s).settings = s.settings ∧ (f s).metadex = s.metadex) :
    Moves height σ 0 (fun _ => True) (modify f : ExecM PUnit) := by
  refine Counts.modify trivial fun t s hs => ?_
  rw [add_zero]
  exact hs.congr (hf s).1 (hf s).2.1 (hf s).2.2.1 (hf s).2.2.2

theorem moves_assertThat {site : AssertSite} (c : Bool) (hsite : site ≠ .frozen) :
    Moves height σ 0 (fun _ => c = true) (assertThat site c) :=
  Moves.of_keeps (keeps_assertThat site c) (spares_assertThat c hsite)

theorem moves_signed64 (n : Int) : Moves height σ 0 (fun m => m = n ∧ IsInt64 n) (signed64 n) :=
  Moves.of_keeps (keeps_signed64 n) (spares_signed64 n)

theorem moves_convertTo256 (n : Int) :
    Moves height σ 0 (fun m => m = n.toNat ∧ 0 ≤ n) (convertTo256 n) :=
  Moves.of_keeps (keeps_convertTo256 n) (spares_convertTo256 n)

theorem moves_convertTo64 (n : Nat) :
    Moves height σ 0 (fun m => m = (n : Int) ∧ (n : Int) ≤ maxInt64) (convertTo64 n) :=
  Moves.of_keeps (keeps_convertTo64 n) (spares_convertTo64 n)

/-! ## Fees -/

/-- Credits are never refused because of a frozen balance. -/
theorem spares_credits (p : PropertyId) {receivers : List (Int × Address)}
    (hpos : ∀ e ∈ receivers, 0 < e.1) :
    Spares (fun _ => True) (receivers.forM fun r => assertUpdate r.2 p r.1 .balance) := by
  refine Counts.forM trivial fun r hr => ⟨fun {t s} _ => ?_⟩
  refine wp_imp (assertUpdate_spares fun _ hneg => ?_) fun _ _ _ => ⟨trivial, trivial⟩
  have hr := hpos r hr
  omega

theorem spares_modify (f : State → State) :
    Spares (fun _ => True) (modify f : ExecM PUnit) := Counts.modify trivial fun _ _ _ => trivial

theorem spares_setFeeItem (p : PropertyId) (block amount : Int) :
    Spares (fun _ => True) (setFeeItem p block amount) := by
  have hhistory : Spares (fun _ => True) (getCacheHistory p) := by
    refine Counts.get fun _ s _ => ?_
    split
    · exact Counts.pure trivial
    · refine Counts.foldlM (fun h _ t _ => ?_) trivial
      unfold readFeeItem
      split
      · split
        · exact Counts.pure trivial
        · exact Counts.throw (by decide)
      · exact Counts.pure trivial
  refine Counts.seq hhistory fun _ _ => ?_
  refine Counts.seq (spares_modify _) fun _ _ => ?_
  refine Counts.get fun _ s _ => ?_
  refine Counts.seq hhistory fun _ _ => ?_
  split
  · exact Counts.ite (fun _ => spares_modify _) fun _ => Counts.pure trivial
  · exact Counts.pure trivial

theorem spares_evalCache (p : PropertyId) (block : Int) :
    Spares (fun _ => True) (evalCache p block) := by
  refine Counts.get fun _ s _ => ?_
  refine Counts.seq (spares_getCachedAmount p) fun _ _ => ?_
  refine Counts.ite (fun _ => ?_) fun _ => Counts.pure trivial
  -- the distribution
  refine Counts.seq (spares_getCachedAmount p) fun _ _ => ?_
  refine Counts.seq (spares_stoGetReceivers _ _ _) fun receiversSet hpos => ?_
  refine Counts.seq (spares_credits p hpos) fun _ _ => ?_
  refine Counts.seq (spares_modify _) fun _ _ => ?_
  refine Counts.seq (spares_assertThat _ (by decide)) fun _ _ => ?_
  exact spares_setFeeItem p block 0

theorem spares_addFee (p : PropertyId) (block amount : Int) :
    Spares (fun _ => True) (addFee p block amount) := by
  refine Counts.seq (spares_getCachedAmount p) fun _ _ => ?_
  refine Counts.ite (fun _ => Counts.throw (by decide)) fun _ => ?_
  refine Counts.seq (spares_signed64 _) fun _ _ => ?_
  exact Counts.seq (spares_setFeeItem p block _) fun _ _ => spares_evalCache p block

/-- A cached fee stays outstanding. -/
theorem moves_addFee (p : PropertyId) (amount : Int) (hheight : IsInt64 height) :
    Moves height σ (Pi.single p amount) (fun _ => True) (addFee p height amount) :=
  Moves.of_parts (shifts_addFee p amount hheight) (outsideFees_settings.addFee p height amount)
    fun s _ => (spares_addFee p height amount).wp s

/-- Noting the number of tokens moves nothing. -/
theorem moves_notifyTotalTokensChanged (p : PropertyId) (hheight : IsInt64 height) :
    Moves height σ 0 (fun _ => True) (notifyTotalTokensChanged p height) := by
  refine Moves.of_parts (conserves_notifyTotalTokensChanged p hheight) ?_ fun s _ => ?_
  · refine Keeps.bind (Keeps.bind (keeps_getTotalTokens p) fun _ => Keeps.modify fun _ => rfl) ?_
    exact fun _ => outsideFees_settings.evalCache p height
  · have hspares : Spares (fun _ => True) (notifyTotalTokensChanged p height) := by
      refine Counts.seq (R := fun _ => True) ?_ fun _ _ => spares_evalCache p height
      exact Counts.seq (spares_getTotalTokens p) fun _ _ => spares_modify _
    exact hspares.wp s

end Moves

end OmniCore
