import OmniCore.TokenMoves

/-! # Accounting — what the registry says about the number of tokens

    The entry of a property tells how many tokens it has: all of them if they were created
    at once, those granted less those revoked if it is managed, those that were credited
    if it was sold. While a crowdsale is running its record has them instead. The books
    are kept if every write to them changes this number by what it is about. -/

namespace OmniCore

open Std (ExtTreeMap ExtTreeSet)
open Machine TextRec MapSum Exec

/-- An implied property is neither managed nor fixed. -/
theorem impliedSP_kind {p : PropertyId} {info : SPEntry} (hinfo : impliedSP p = some info) :
    info.manual = false ∧ info.fixed = false := by
  unfold impliedSP at hinfo
  split_ifs at hinfo
  · cases hinfo
    exact ⟨rfl, rfl⟩
  · cases hinfo
    exact ⟨rfl, rfl⟩
  · cases hinfo
    exact ⟨rfl, rfl⟩

/-- The entry of a property that is managed or fixed was written. -/
theorem CMPSPInfo.entry_of_kind {sps : CMPSPInfo} {p : PropertyId} {sp : SPEntry}
    (hsp : sps.getSP p = some sp) (hkind : sp.manual = true ∨ sp.fixed = true) :
    impliedSP p = none ∧ sps.entries[p]? = some sp := by
  cases hinfo : impliedSP p with
  | none => exact ⟨rfl, (CMPSPInfo.getSP_of_not_implied hinfo).symm.trans hsp⟩
  | some info =>
      obtain ⟨hmanual, hfixed⟩ := impliedSP_kind hinfo
      rw [CMPSPInfo.getSP_of_implied hinfo] at hsp
      cases hsp
      rcases hkind with hk | hk
      · rw [hmanual] at hk
        cases hk
      · rw [hfixed] at hk
        cases hk

/-- What was written is not implied. -/
theorem CMPSPInfo.not_implied_of_updateSP {sps : CMPSPInfo} {p : PropertyId} {sp : SPEntry}
    (hwritten : (sps.updateSP p sp).1 = true) : impliedSP p = none := by
  unfold CMPSPInfo.updateSP at hwritten
  cases himplied : impliedSP p with
  | none => rfl
  | some info =>
      rw [himplied] at hwritten
      cases hwritten

/-! ## The books -/

/-- What one transaction created of a property, less what it destroyed: grants and revocations of a
    managed one, the tokens for the user and for the issuer of one that is sold. -/
def tokensOf (manual : Bool) (data : List Int) : Int :=
  if manual then data.getD 0 0 - data.getD 1 0 else data.getD 2 0 + data.getD 3 0

/-- The tokens of a property by its entry. -/
def SPEntry.tokens (sp : SPEntry) : Int :=
  if sp.fixed then sp.numTokens
  else msum sp.historicalData (fun _ data => tokensOf sp.manual data) + sp.missedTokens

theorem SPEntry.tokens_of_fixed {sp : SPEntry} (h : sp.fixed = true) : sp.tokens = sp.numTokens := by
  unfold SPEntry.tokens
  rw [if_pos h]

theorem SPEntry.tokens_of_not_fixed {sp : SPEntry} (h : sp.fixed = false) : sp.tokens =
    msum sp.historicalData (fun _ data => tokensOf sp.manual data) + sp.missedTokens := by
  unfold SPEntry.tokens
  rw [h, if_neg Bool.false_ne_true]

/-- The tokens a running crowdsale has created. -/
def CMPCrowd.tokens (crowd : CMPCrowd) : Int := crowd.uCreated + crowd.iCreated

namespace Settings

/-- What running crowdsales have created of a property. -/
def sold (σ : Settings) (p : PropertyId) : Int :=
  msum σ.crowds fun _ crowd => if crowd.propertyId = p then crowd.tokens else 0

/-- The number of tokens in the books. -/
def recorded (σ : Settings) (p : PropertyId) : Int :=
  ((σ.sps.entries[p]?).map SPEntry.tokens).getD 0 + σ.sold p

end Settings

/-- The entry of a property whose crowdsale has not ended. -/
structure SPEntry.Unsold (sp : SPEntry) : Prop where
  fixed : sp.fixed = false
  manual : sp.manual = false
  history : sp.historicalData = ∅
  missed : sp.missedTokens = 0

theorem SPEntry.Unsold.tokens {sp : SPEntry} (h : sp.Unsold) : sp.tokens = 0 := by
  rw [SPEntry.tokens_of_not_fixed h.fixed, h.history, h.missed, msum_empty, add_zero]

/-- A running crowdsale: its counters add up what its purchases got. -/
structure CMPCrowd.Sums (used : List Txid) (crowd : CMPCrowd) : Prop where
  tokens : crowd.tokens = msum crowd.txFundraiserData fun _ data => tokensOf false data
  buyers : ∀ (txid : Txid) data, crowd.txFundraiserData[txid]? = some data → txid ∈ used
  nonneg : 0 ≤ crowd.tokens

/-- There is an identifier left in both ecosystems. -/
def CMPSPInfo.IdsLeft (sps : CMPSPInfo) : Prop :=
  sps.nextSPID < testEcoProperty1 ∧ sps.nextTestSPID + 1 < 2 ^ 32

instance decidableIdsLeft (sps : CMPSPInfo) : Decidable sps.IdsLeft :=
  inferInstanceAs (Decidable (_ ∧ _))

/-- **THE BOOKS ARE IN ORDER**, after the transactions that were used. -/
structure Settings.Ok (used : List Txid) (σ : Settings) : Prop where
  main : 3 ≤ σ.sps.nextSPID ∧ σ.sps.nextSPID ≤ testEcoProperty1
  test : testEcoProperty1 ≤ σ.sps.nextTestSPID ∧ σ.sps.nextTestSPID < 2 ^ 32
  issued : ∀ (p : PropertyId) (sp : SPEntry), σ.sps.entries[p]? = some sp →
    3 ≤ p ∧ p < σ.sps.nextSPID ∨ testEcoProperty1 ≤ p ∧ p < σ.sps.nextTestSPID
  kinds : ∀ (p : PropertyId) (sp : SPEntry), σ.sps.entries[p]? = some sp → sp.manual = true →
    sp.fixed = false
  histories : ∀ (p : PropertyId) (sp : SPEntry), σ.sps.entries[p]? = some sp →
    ∀ (txid : Txid) data, sp.historicalData[txid]? = some data → txid ∈ used
  sales : ∀ (a : Address) (crowd : CMPCrowd), σ.crowds[a]? = some crowd →
    (∃ sp : SPEntry, σ.sps.entries[crowd.propertyId]? = some sp ∧ sp.Unsold) ∧ crowd.Sums used
  apart : ∀ (a b : Address) (crowd crowd' : CMPCrowd), σ.crowds[a]? = some crowd →
    σ.crowds[b]? = some crowd' →
    crowd.propertyId = crowd'.propertyId → a = b
  frozen : ∀ a p, σ.isAddressFrozen a p = true →
    ∃ sp : SPEntry, σ.sps.getSP p = some sp ∧ sp.manual = true
  capped : ∀ p, σ.recorded p ≤ maxInt64

namespace Settings

variable {used used' : List Txid} {σ : Settings}

/-! ## Reading the books -/

theorem Ok.mono (h : σ.Ok used) (hle : ∀ txid ∈ used, txid ∈ used') : σ.Ok used' where
  main := h.main
  test := h.test
  issued := h.issued
  kinds := h.kinds
  histories p sp hsp txid data hdata := hle txid (h.histories p sp hsp txid data hdata)
  sales a crowd hcrowd :=
    ⟨(h.sales a crowd hcrowd).1, (h.sales a crowd hcrowd).2.tokens,
      fun txid data hdata => hle txid ((h.sales a crowd hcrowd).2.buyers txid data hdata),
      (h.sales a crowd hcrowd).2.nonneg⟩
  apart := h.apart
  frozen := h.frozen
  capped := h.capped

/-- The bound, after a change for one property that stays within it. -/
theorem Ok.capped_single (h : σ.Ok used) {p : PropertyId} {n : Int}
    (hcap : σ.recorded p + n ≤ maxInt64) (q : PropertyId) :
    (σ.recorded + (Pi.single p n : PropertyId → Int)) q ≤ maxInt64 := by
  rw [Pi.add_apply]
  by_cases hq : q = p
  · subst hq
    rw [Pi.single_eq_same]
    exact hcap
  · rw [Pi.single_eq_of_ne hq, add_zero]
    exact h.capped q

/-- Nobody is frozen for an implied property. -/
theorem Ok.unfrozen_of_implied (h : σ.Ok used) (a : Address) {p : PropertyId}
    (hp : (impliedSP p).isSome = true) : σ.isAddressFrozen a p = false := by
  by_contra hfrozen
  rw [Bool.not_eq_false] at hfrozen
  obtain ⟨sp, hsp, hmanual⟩ := h.frozen a p hfrozen
  obtain ⟨info, hinfo⟩ := Option.isSome_iff_exists.mp hp
  rw [(CMPSPInfo.entry_of_kind hsp (Or.inl hmanual)).1] at hinfo
  cases hinfo

/-- A property without an entry is not sold. -/
theorem Ok.sold_of_none (h : σ.Ok used) {p : PropertyId} (hp : σ.sps.entries[p]? = none) :
    σ.sold p = 0 := by
  unfold sold
  rw [msum_congr (g := fun _ _ => 0), msum_zero]
  intro a crowd hcrowd
  obtain ⟨⟨sp, hsp, -⟩, -⟩ := h.sales a crowd hcrowd
  refine if_neg ?_
  rintro rfl
  rw [hp] at hsp
  cases hsp

/-- No token of a property without an entry is in the books. -/
theorem Ok.recorded_of_none (h : σ.Ok used) {p : PropertyId} (hp : σ.sps.entries[p]? = none) :
    σ.recorded p = 0 := by
  unfold recorded
  rw [hp, h.sold_of_none hp]
  rfl

/-- OMNI and TOMNI are not in the books. -/
theorem Ok.entries_of_lt (h : σ.Ok used) {p : PropertyId} (hp : p < 3) : σ.sps.entries[p]? = none := by
  cases hsp : σ.sps.entries[p]? with
  | none => rfl
  | some sp =>
      rcases h.issued p sp hsp with ⟨hlow, -⟩ | ⟨hlow, -⟩
      · exact absurd hp (not_lt.mpr hlow)
      · exact absurd hp (not_lt.mpr ((show 3 ≤ testEcoProperty1 by decide).trans hlow))

/-- What is sold of a property is what its one crowdsale has created. -/
theorem Ok.sold_eq (h : σ.Ok used) {a : Address} {crowd : CMPCrowd} (ha : σ.crowds[a]? = some crowd) :
    σ.sold crowd.propertyId = crowd.tokens := by
  unfold sold
  rw [msum_erase_of_some ha, if_pos rfl, msum_congr (g := fun _ _ => 0), msum_zero, add_zero]
  intro b other hother
  rw [getElem?_erase_eq] at hother
  split at hother
  · cases hother
  · next hne => exact if_neg fun heq => hne (h.apart b a other crowd hother ha heq).symm

/-- A property that is being sold has the tokens of its crowdsale. -/
theorem Ok.recorded_of_sale (h : σ.Ok used) {a : Address} {crowd : CMPCrowd}
    (ha : σ.crowds[a]? = some crowd) : σ.recorded crowd.propertyId = crowd.tokens := by
  obtain ⟨⟨sp, hsp, hunsold⟩, -⟩ := h.sales a crowd ha
  unfold recorded
  rw [hsp, h.sold_eq ha, Option.map_some, Option.getD_some, hunsold.tokens, zero_add]

/-- It is none of the implied ones. -/
theorem Ok.three_le_of_sale (h : σ.Ok used) {a : Address} {crowd : CMPCrowd}
    (ha : σ.crowds[a]? = some crowd) : 3 ≤ crowd.propertyId := by
  obtain ⟨⟨sp, hsp, -⟩, -⟩ := h.sales a crowd ha
  rcases h.issued _ sp hsp with hmain | htest
  · exact hmain.1
  · exact (show 3 ≤ testEcoProperty1 by decide).trans htest.1

/-! ## A new property -/

/-- The books with an entry that gets the next identifier. -/
def putSP (σ : Settings) (ecosystem : Nat) (sp : SPEntry) : Settings :=
  { σ with sps := (σ.sps.putSP ecosystem sp).2 }

/-- The next identifiers are not in use. -/
theorem Ok.next_fresh (h : σ.Ok used) (hleft : σ.sps.IdsLeft) {ecosystem : Nat}
    (heco : ecosystem = 1 ∨ ecosystem = 2) :
    σ.sps.entries[σ.sps.peekNextSPID ecosystem]? = none := by
  cases hsp : σ.sps.entries[σ.sps.peekNextSPID ecosystem]? with
  | none => rfl
  | some sp =>
      have hmain := hleft.1
      have htest := h.test.1
      have hrange := h.issued _ sp hsp
      rcases heco with rfl | rfl
      · rcases hrange with ⟨-, hlt⟩ | ⟨hle, -⟩
        · exact absurd hlt (lt_irrefl _)
        · exact absurd hle (not_le.mpr hmain)
      · rcases hrange with ⟨-, hlt⟩ | ⟨-, hlt⟩
        · exact absurd hlt (not_lt.mpr (hleft.1.le.trans htest))
        · exact absurd hlt (lt_irrefl _)

theorem entries_putSP (sps : CMPSPInfo) (ecosystem : Nat) (sp : SPEntry) :
    (sps.putSP ecosystem sp).2.entries = sps.entries.insert (sps.peekNextSPID ecosystem) sp := by
  rw [← putSP_fst sps ecosystem sp]
  exact OmniCore.entries_putSP sps ecosystem sp

/-- A frozen property has an entry of its own. -/
theorem Ok.entry_of_frozen (h : σ.Ok used) {a : Address} {p : PropertyId}
    (hfrozen : σ.isAddressFrozen a p = true) : impliedSP p = none ∧ σ.sps.entries[p]? ≠ none := by
  have himplied : impliedSP p = none := by
    cases hinfo : impliedSP p with
    | none => rfl
    | some info =>
        rw [h.unfrozen_of_implied a (by rw [hinfo]; rfl)] at hfrozen
        cases hfrozen
  refine ⟨himplied, fun hnone => ?_⟩
  obtain ⟨sp, hsp, -⟩ := h.frozen a p hfrozen
  rw [CMPSPInfo.getSP_of_not_implied himplied, hnone] at hsp
  cases hsp

/-- The counters after a new property: one of them is one higher. -/
theorem counters_putSP {sps : CMPSPInfo} (hleft : sps.IdsLeft) {ecosystem : Nat} (sp : SPEntry)
    (heco : ecosystem = 1 ∨ ecosystem = 2) :
    (sps.putSP ecosystem sp).2.nextSPID = sps.nextSPID + (if ecosystem = 1 then 1 else 0) ∧
      (sps.putSP ecosystem sp).2.nextTestSPID =
        sps.nextTestSPID + if ecosystem = 1 then 0 else 1 := by
  obtain ⟨hmain, htest⟩ := hleft
  have hbound : testEcoProperty1 < 2 ^ 32 := by decide
  rcases heco with rfl | rfl
  · refine ⟨?_, rfl⟩
    show (sps.nextSPID + 1) % 2 ^ 32 = sps.nextSPID + 1
    exact Nat.mod_eq_of_lt (Nat.lt_of_le_of_lt hmain hbound)
  · refine ⟨rfl, ?_⟩
    show (sps.nextTestSPID + 1) % 2 ^ 32 = sps.nextTestSPID + 1
    exact Nat.mod_eq_of_lt htest

/-- **A NEW PROPERTY** is in the books with the tokens of its entry. -/
theorem Ok.put (h : σ.Ok used) (hleft : σ.sps.IdsLeft) {ecosystem : Nat} (sp : SPEntry)
    (heco : ecosystem = 1 ∨ ecosystem = 2) (hkind : sp.manual = true → sp.fixed = false)
    (hhistory : sp.historicalData = ∅) (htokens : sp.tokens ≤ maxInt64) :
    (σ.putSP ecosystem sp).Ok used ∧ (σ.putSP ecosystem sp).recorded =
      σ.recorded + Pi.single (σ.sps.peekNextSPID ecosystem) sp.tokens := by
  have hfresh := h.next_fresh hleft heco
  have hcounters := counters_putSP hleft sp heco
  have hentries : ∀ q, (σ.putSP ecosystem sp).sps.entries[q]? =
      if σ.sps.peekNextSPID ecosystem = q then some sp else σ.sps.entries[q]? := by
    intro q
    show (σ.sps.putSP ecosystem sp).2.entries[q]? = _
    rw [entries_putSP, getElem?_insert_eq]
  have hkept : ∀ {q : PropertyId} {sp' : SPEntry}, σ.sps.entries[q]? = some sp' →
      (σ.putSP ecosystem sp).sps.entries[q]? = some sp' := by
    intro q sp' hq
    rw [hentries, if_neg ?_, hq]
    rintro rfl
    rw [hfresh] at hq
    cases hq
  have hrecorded : (σ.putSP ecosystem sp).recorded =
      σ.recorded + Pi.single (σ.sps.peekNextSPID ecosystem) sp.tokens := by
    funext q
    rw [Pi.add_apply]
    have hsold : (σ.putSP ecosystem sp).sold q = σ.sold q := rfl
    unfold recorded
    rw [hsold, hentries]
    by_cases hq : σ.sps.peekNextSPID ecosystem = q
    · subst hq
      rw [if_pos rfl, hfresh, Pi.single_eq_same]
      show sp.tokens + _ = 0 + _ + _
      omega
    · rw [if_neg hq, Pi.single_eq_of_ne (Ne.symm hq), add_zero]
  refine ⟨⟨?_, ?_, fun p sp' hp => ?_, fun p sp' hp hm => ?_, fun p sp' hp txid data hdata => ?_,
    fun a crowd hcrowd => ?_, h.apart, fun a p hfrozen => ?_, fun q => ?_⟩, hrecorded⟩
  · have hmain := h.main
    have hroom := hleft.1
    show 3 ≤ (σ.sps.putSP ecosystem sp).2.nextSPID ∧
      (σ.sps.putSP ecosystem sp).2.nextSPID ≤ testEcoProperty1
    rw [hcounters.1]
    split
    · omega
    · omega
  · have htest := h.test.2
    have hroom := hleft.2
    show testEcoProperty1 ≤ (σ.sps.putSP ecosystem sp).2.nextTestSPID ∧
      (σ.sps.putSP ecosystem sp).2.nextTestSPID < 2 ^ 32
    rw [hcounters.2]
    refine ⟨h.test.1.trans (Nat.le_add_right _ _), ?_⟩
    split
    · omega
    · omega
  · have hgrows : σ.sps.nextSPID ≤ (σ.putSP ecosystem sp).sps.nextSPID ∧
        σ.sps.nextTestSPID ≤ (σ.putSP ecosystem sp).sps.nextTestSPID :=
      ⟨hcounters.1 ▸ Nat.le_add_right _ _, hcounters.2 ▸ Nat.le_add_right _ _⟩
    rw [hentries] at hp
    split at hp
    · next hid =>
        rw [← hid]
        rcases heco with rfl | rfl
        · exact Or.inl ⟨h.main.1, hcounters.1 ▸ Nat.lt_succ_self _⟩
        · exact Or.inr ⟨h.test.1, hcounters.2 ▸ Nat.lt_succ_self _⟩
    · rcases h.issued p sp' hp with ⟨hle, hlt⟩ | ⟨hle, hlt⟩
      · exact Or.inl ⟨hle, hlt.trans_le hgrows.1⟩
      · exact Or.inr ⟨hle, hlt.trans_le hgrows.2⟩
  · rw [hentries] at hp
    split at hp
    · cases hp
      exact hkind hm
    · exact h.kinds p sp' hp hm
  · rw [hentries] at hp
    split at hp
    · cases hp
      rw [hhistory, ExtTreeMap.getElem?_empty] at hdata
      cases hdata
    · exact h.histories p sp' hp txid data hdata
  · obtain ⟨⟨sp', hsp', hunsold⟩, hsums⟩ := h.sales a crowd hcrowd
    exact ⟨⟨sp', hkept hsp', hunsold⟩, hsums⟩
  · obtain ⟨himplied, hentry⟩ := h.entry_of_frozen hfrozen
    obtain ⟨sp', hsp', hmanual⟩ := h.frozen a p hfrozen
    refine ⟨sp', ?_, hmanual⟩
    rw [CMPSPInfo.getSP_of_not_implied himplied] at hsp' ⊢
    exact hkept hsp'
  · rw [hrecorded]
    refine h.capped_single ?_ q
    rw [h.recorded_of_none hfresh, zero_add]
    exact htokens

/-! ## Other entries and records -/

/-- The books with another entry for a property. -/
def writeSP (σ : Settings) (p : PropertyId) (sp : SPEntry) : Settings :=
  { σ with sps := (σ.sps.updateSP p sp).2 }

theorem entries_writeSP {p : PropertyId} (sp : SPEntry) (hp : impliedSP p = none) (q : PropertyId) :
    (σ.writeSP p sp).sps.entries[q]? = if p = q then some sp else σ.sps.entries[q]? := by
  show (σ.sps.updateSP p sp).2.entries[q]? = _
  unfold CMPSPInfo.updateSP
  rw [hp, Option.isSome_none, if_neg Bool.false_ne_true]
  exact getElem?_insert_eq _ _ _ _

theorem getSP_writeSP {p : PropertyId} (sp : SPEntry) (hp : impliedSP p = none) (q : PropertyId) :
    (σ.writeSP p sp).sps.getSP q = if p = q then some sp else σ.sps.getSP q := by
  unfold CMPSPInfo.getSP
  rw [entries_writeSP sp hp]
  by_cases hq : p = q
  · subst hq
    rw [hp, if_pos rfl]
  · rw [if_neg hq, if_neg hq]

theorem counters_writeSP (p : PropertyId) (sp : SPEntry) :
    (σ.writeSP p sp).sps.nextSPID = σ.sps.nextSPID ∧
      (σ.writeSP p sp).sps.nextTestSPID = σ.sps.nextTestSPID := by
  show (σ.sps.updateSP p sp).2.nextSPID = _ ∧ (σ.sps.updateSP p sp).2.nextTestSPID = _
  unfold CMPSPInfo.updateSP
  split
  · exact ⟨rfl, rfl⟩
  · exact ⟨rfl, rfl⟩

/-- What may be written for a property that has an entry: it stays managed if it was, its history is
    of known transactions, and it is not that of a property which is being sold. -/
structure Rewrites (used : List Txid) (σ : Settings) (p : PropertyId) (old new : SPEntry) : Prop where
  implied : impliedSP p = none
  entry : σ.sps.entries[p]? = some old
  manual : old.manual = true → new.manual = true
  kind : new.manual = true → new.fixed = false
  history : ∀ (txid : Txid) data, new.historicalData[txid]? = some data → txid ∈ used
  unsold : ∀ (a : Address) (crowd : CMPCrowd), σ.crowds[a]? = some crowd →
    crowd.propertyId = p → new.Unsold
  capped : σ.recorded p + (new.tokens - old.tokens) ≤ maxInt64

/-- **AN ENTRY IS WRITTEN**: the books change by the difference. -/
theorem Ok.write (h : σ.Ok used) {p : PropertyId} {old new : SPEntry}
    (hnew : σ.Rewrites used p old new) : (σ.writeSP p new).Ok used ∧
      (σ.writeSP p new).recorded = σ.recorded + Pi.single p (new.tokens - old.tokens) := by
  have hcounters := counters_writeSP (σ := σ) p new
  have hentries := entries_writeSP (σ := σ) new hnew.implied
  have hrecorded : (σ.writeSP p new).recorded =
      σ.recorded + Pi.single p (new.tokens - old.tokens) := by
    funext q
    rw [Pi.add_apply]
    have hsold : (σ.writeSP p new).sold q = σ.sold q := rfl
    unfold recorded
    rw [hsold, hentries]
    by_cases hpq : p = q
    · subst hpq
      rw [if_pos rfl, hnew.entry, Pi.single_eq_same]
      show new.tokens + _ = old.tokens + _ + _
      omega
    · rw [if_neg hpq, Pi.single_eq_of_ne (Ne.symm hpq), add_zero]
  refine ⟨⟨?_, ?_, fun q sp hq => ?_, fun q sp hq hm => ?_, fun q sp hq txid data hdata => ?_,
    fun a crowd hcrowd => ?_, h.apart, fun a q hfrozen => ?_, fun q => ?_⟩, hrecorded⟩
  · rw [hcounters.1]
    exact h.main
  · rw [hcounters.2]
    exact h.test
  · rw [hcounters.1, hcounters.2]
    rw [hentries] at hq
    split at hq
    · next hpq =>
        rw [← hpq]
        exact h.issued p old hnew.entry
    · exact h.issued q sp hq
  · rw [hentries] at hq
    split at hq
    · cases hq
      exact hnew.kind hm
    · exact h.kinds q sp hq hm
  · rw [hentries] at hq
    split at hq
    · cases hq
      exact hnew.history txid data hdata
    · exact h.histories q sp hq txid data hdata
  · obtain ⟨⟨sp, hsp, hunsold⟩, hsums⟩ := h.sales a crowd hcrowd
    refine ⟨?_, hsums⟩
    rw [hentries]
    by_cases hpq : p = crowd.propertyId
    · rw [if_pos hpq]
      exact ⟨new, rfl, hnew.unsold a crowd hcrowd hpq.symm⟩
    · rw [if_neg hpq]
      exact ⟨sp, hsp, hunsold⟩
  · obtain ⟨sp, hsp, hmanual⟩ := h.frozen a q hfrozen
    rw [getSP_writeSP new hnew.implied]
    by_cases hpq : p = q
    · subst hpq
      rw [if_pos rfl]
      rw [CMPSPInfo.getSP_of_not_implied hnew.implied, hnew.entry] at hsp
      cases hsp
      exact ⟨new, rfl, hnew.manual hmanual⟩
    · rw [if_neg hpq]
      exact ⟨sp, hsp, hmanual⟩
  · rw [hrecorded]
    exact h.capped_single hnew.capped q

/-- The books with the record of a crowdsale. -/
def putCrowd (σ : Settings) (a : Address) (crowd : CMPCrowd) : Settings :=
  { σ with crowds := σ.crowds.insert a crowd }

/-- The books without it. -/
def eraseCrowd (σ : Settings) (a : Address) : Settings := { σ with crowds := σ.crowds.erase a }

/-- What may be written for an address: the record of the only crowdsale of its property, and of the same
    one as before if there was one. -/
structure Sells (used : List Txid) (σ : Settings) (a : Address) (crowd : CMPCrowd) : Prop where
  entry : ∃ sp : SPEntry, σ.sps.entries[crowd.propertyId]? = some sp ∧ sp.Unsold
  sums : crowd.Sums used
  alone : ∀ (b : Address) (other : CMPCrowd), σ.crowds[b]? = some other →
    other.propertyId = crowd.propertyId → b = a
  same : ∀ old : CMPCrowd, σ.crowds[a]? = some old → old.propertyId = crowd.propertyId
  capped : σ.recorded crowd.propertyId +
    (crowd.tokens - ((σ.crowds[a]?).map CMPCrowd.tokens).getD 0) ≤ maxInt64

/-- **A CROWDSALE IS WRITTEN**: the books change by what it created since. -/
theorem Ok.putCrowd (h : σ.Ok used) {a : Address} {crowd : CMPCrowd} (hnew : σ.Sells used a crowd) :
    (σ.putCrowd a crowd).Ok used ∧ (σ.putCrowd a crowd).recorded = σ.recorded +
      Pi.single crowd.propertyId (crowd.tokens - ((σ.crowds[a]?).map CMPCrowd.tokens).getD 0) := by
  have hcrowds : ∀ b, (σ.putCrowd a crowd).crowds[b]? = if a = b then some crowd else σ.crowds[b]? :=
    fun b => getElem?_insert_eq _ _ _ _
  have hrecorded : (σ.putCrowd a crowd).recorded = σ.recorded +
      Pi.single crowd.propertyId (crowd.tokens - ((σ.crowds[a]?).map CMPCrowd.tokens).getD 0) := by
    funext q
    rw [Pi.add_apply]
    have hsold : (σ.putCrowd a crowd).sold q = σ.sold q + (Pi.single crowd.propertyId
        (crowd.tokens - ((σ.crowds[a]?).map CMPCrowd.tokens).getD 0) : PropertyId → Int) q := by
      show msum (σ.crowds.insert a crowd) _ = msum σ.crowds _ + _
      rw [msum_insert_sub]
      congr 1
      by_cases hq : crowd.propertyId = q
      · subst hq
        rw [if_pos rfl, Pi.single_eq_same]
        cases hold : σ.crowds[a]? with
        | none => rfl
        | some old =>
            show _ - (if old.propertyId = _ then _ else _) = _ - old.tokens
            rw [if_pos (hnew.same old hold)]
      · rw [if_neg hq, Pi.single_eq_of_ne (Ne.symm hq)]
        cases hold : σ.crowds[a]? with
        | none => rfl
        | some old =>
            show _ - (if old.propertyId = _ then _ else _) = _
            rw [if_neg (by rw [hnew.same old hold]; exact hq), sub_zero]
    have hentries : (σ.putCrowd a crowd).sps = σ.sps := rfl
    unfold recorded
    rw [hsold, hentries, add_assoc]
  refine ⟨⟨h.main, h.test, h.issued, h.kinds, h.histories, fun b other hb => ?_,
    fun b c other other' hb hc hp => ?_, h.frozen, fun q => ?_⟩, hrecorded⟩
  · rw [hcrowds] at hb
    split at hb
    · cases hb
      exact ⟨hnew.entry, hnew.sums⟩
    · exact h.sales b other hb
  · rw [hcrowds] at hb hc
    split at hb
    · next hab =>
        cases hb
        split at hc
        · next hac => exact hab.symm.trans hac
        · exact hab.symm.trans (hnew.alone c other' hc hp.symm).symm
    · split at hc
      · next hac =>
          cases hc
          exact (hnew.alone b other hb hp).trans hac
      · exact h.apart b c other other' hb hc hp
  · rw [hrecorded]
    exact h.capped_single hnew.capped q

/-- **A CROWDSALE IS TAKEN OUT**, with what it created. -/
theorem Ok.eraseCrowd (h : σ.Ok used) {a : Address} {crowd : CMPCrowd}
    (ha : σ.crowds[a]? = some crowd) : (σ.eraseCrowd a).Ok used ∧
      (σ.eraseCrowd a).recorded = σ.recorded - Pi.single crowd.propertyId crowd.tokens := by
  have hcrowds : ∀ (b : Address) (other : CMPCrowd), (σ.eraseCrowd a).crowds[b]? = some other →
      σ.crowds[b]? = some other := by
    intro b other hb
    have herase : (σ.crowds.erase a)[b]? = some other := hb
    rw [getElem?_erase_eq] at herase
    split at herase
    · cases herase
    · exact herase
  have hrecorded : (σ.eraseCrowd a).recorded =
      σ.recorded - Pi.single crowd.propertyId crowd.tokens := by
    funext q
    rw [Pi.sub_apply]
    have hsold : (σ.eraseCrowd a).sold q =
        σ.sold q - (Pi.single crowd.propertyId crowd.tokens : PropertyId → Int) q := by
      show msum (σ.crowds.erase a) _ = msum σ.crowds _ - _
      rw [msum_erase_sub, ha]
      congr 1
      show (if crowd.propertyId = q then crowd.tokens else 0) = _
      by_cases hq : crowd.propertyId = q
      · subst hq
        rw [if_pos rfl, Pi.single_eq_same]
      · rw [if_neg hq, Pi.single_eq_of_ne (Ne.symm hq)]
    have hentries : (σ.eraseCrowd a).sps = σ.sps := rfl
    unfold recorded
    rw [hsold, hentries]
    ring
  refine ⟨⟨h.main, h.test, h.issued, h.kinds, h.histories,
    fun b other hb => h.sales b other (hcrowds b other hb),
    fun b c other other' hb hc => h.apart b c other other' (hcrowds b other hb) (hcrowds c other' hc),
    h.frozen, fun q => ?_⟩, hrecorded⟩
  rw [hrecorded, sub_eq_add_neg, ← Pi.single_neg]
  refine h.capped_single ?_ q
  have hcap := h.capped crowd.propertyId
  have hpos := (h.sales a crowd ha).2.nonneg
  omega

/-- **THE END OF A CROWDSALE**: its entry takes over what its record has, and what is added to it. -/
theorem Ok.endSale (h : σ.Ok used) {a : Address} {crowd : CMPCrowd} {old new : SPEntry}
    (ha : σ.crowds[a]? = some crowd) (himplied : impliedSP crowd.propertyId = none)
    (hold : σ.sps.entries[crowd.propertyId]? = some old) (hfixed : new.fixed = false)
    (hmanual : new.manual = false) (hhistory : new.historicalData = crowd.txFundraiserData)
    (hcap : σ.recorded crowd.propertyId + new.missedTokens ≤ maxInt64) :
    ((σ.writeSP crowd.propertyId new).eraseCrowd a).Ok used ∧
      ((σ.writeSP crowd.propertyId new).eraseCrowd a).recorded =
        σ.recorded + Pi.single crowd.propertyId new.missedTokens := by
  obtain ⟨hgone, hrecorded⟩ := h.eraseCrowd ha
  obtain ⟨⟨sp, hsp, hunsold⟩, hsums⟩ := h.sales a crowd ha
  rw [hold] at hsp
  cases hsp
  have htokens : new.tokens = crowd.tokens + new.missedTokens := by
    rw [SPEntry.tokens_of_not_fixed hfixed, hmanual, hhistory, hsums.tokens]
  have hnew : (σ.eraseCrowd a).Rewrites used crowd.propertyId old new := by
    refine ⟨himplied, hold, fun hm => ?_, fun _ => hfixed, fun txid data hdata => ?_,
      fun b other hb hp => ?_, ?_⟩
    · rw [hunsold.manual] at hm
      cases hm
    · rw [hhistory] at hdata
      exact hsums.buyers txid data hdata
    · -- no other crowdsale has this property
      have herase : (σ.crowds.erase a)[b]? = some other := hb
      rw [getElem?_erase_eq] at herase
      split at herase
      · cases herase
      · next hne => exact absurd (h.apart b a other crowd herase ha hp).symm hne
    · rw [hrecorded, Pi.sub_apply, Pi.single_eq_same, hunsold.tokens, htokens]
      omega
  obtain ⟨hok, hwritten⟩ := hgone.write hnew
  refine ⟨hok, ?_⟩
  have hswap : (σ.writeSP crowd.propertyId new).eraseCrowd a =
      (σ.eraseCrowd a).writeSP crowd.propertyId new := rfl
  rw [hswap, hwritten, hrecorded, hunsold.tokens, sub_zero, htokens, Pi.single_add]
  abel

/-! ## What is not in the books -/

/-- The frozen addresses are others, of managed properties still. -/
theorem Ok.freeze (h : σ.Ok used) {frozen : ExtTreeSet (Address × PropertyId) pairCmp}
    (hfrozen : ∀ a p, frozen.contains (a, p) = true → ∃ sp, σ.sps.getSP p = some sp ∧ sp.manual = true) :
    ({ σ with frozenAddresses := frozen } : Settings).Ok used :=
  ⟨h.main, h.test, h.issued, h.kinds, h.histories, h.sales, h.apart, hfrozen, h.capped⟩

/-- The parameters do not matter. -/
theorem Ok.params (h : σ.Ok used) (params : ConsensusParams) :
    ({ σ with params := params } : Settings).Ok used :=
  ⟨h.main, h.test, h.issued, h.kinds, h.histories, h.sales, h.apart, h.frozen, h.capped⟩

end Settings

end OmniCore
