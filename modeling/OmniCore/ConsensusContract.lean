import OmniCore.ConsensusHash

/-! # ConsensusContract — what the contract hash tells apart

    `GetConsensusHashContractDex` hashes the balances and reserves of the token ledger and
    most fields of the contract orders. The lines can be read back, so two states have
    the same strings exactly if they agree in what is printed: positions and contract
    reserves are not, and neither are the trading action and the place of an order. -/

namespace OmniCore

open Std (ExtTreeMap)
open Machine TextRec MapSum Exec

/-! ## Two states -/

/-- A balance as the walk over the records shows it: nothing behind a record of property 0. -/
def TallyMap.shown (m : TallyMap) (a : Address) (p : PropertyId) (ty : TallyType) : Int :=
  if (m.tallyOf a).HasRecord 0 then 0 else m.money a p ty

/-- The hashed part of an offer; the block and the action are left out. -/
def CMPOffer.hashed (o : CMPOffer) : CMPOffer := { o with offerBlock := 0, subaction := 0 }

/-- The hashed part of an accept. -/
def CMPAccept.hashed (o : CMPAccept) : CMPAccept :=
  { o with blocktimelimit := 0, property := 0, offerAmountOriginal := 0, btcDesiredOriginal := 0 }

/-- The hashed part of a contract order; the trading action and the place in the book are left
    out. -/
def CMPContractDex.hashed (o : CMPContractDex) : CMPContractDex :=
  { o with block := 0, idx := 0, amountDesired := 0, subaction := 0, tradingAction := 0, serial := 0 }

/-- The hashed part of a crowdsale. -/
def CMPCrowd.hashed (c : CMPCrowd) : CMPCrowd :=
  { c with nValue := 0, earlyBird := 0, percentage := 0, txid := 0, txFundraiserData := ∅ }

/-- The offers with their sellers. -/
def hashedOffers (s : State) : List (Text × CMPOffer) :=
  s.offers.toList.map fun e => (sellerOfCombo e.1, e.2.hashed)

/-- The accepts with their buyers. -/
def hashedAccepts (s : State) : List (Text × CMPAccept) :=
  s.accepts.toList.map fun e => (buyerOfCombo e.1, e.2.hashed)

/-- The contract orders. -/
def hashedOrders (s : State) : List CMPContractDex := (contractOrders s).map CMPContractDex.hashed

/-- The crowdsales. -/
def hashedCrowds (s : State) : List CMPCrowd := s.crowds.toList.map fun e => e.2.hashed

/-- Two states agree in what the contract hash is made of. -/
structure SameHashed (s s' : State) : Prop where
  balances : ∀ a p, ∀ ty ∈ hashedTypes, s.tallyMap.shown a p ty = s'.tallyMap.shown a p ty
  offers : (hashedOffers s).Perm (hashedOffers s')
  accepts : (hashedAccepts s).Perm (hashedAccepts s')
  orders : (hashedOrders s).Perm (hashedOrders s')
  crowds : (hashedCrowds s).Perm (hashedCrowds s')
  issuers : ∀ ecosystem ∈ [1, 2], ∀ p, issuerIn s ecosystem p = issuerIn s' ecosystem p

/-- The amounts of a contract position. -/
def positionTypes : List TallyType := [.possitiveBalance, .negativeBalance, .contractDExReserve]

/-- The resting contract order at a place of the book, without the ghost. -/
def contractOrderAt (s : State) (p : PropertyId) (price : Nat) (key : OrderKey) :
    Option CMPContractDex :=
  (((s.contractdex[p]?).bind fun prices => prices[price]?).bind fun indexes =>
    indexes[key]?).map fun o => { o with serial := 0 }

/-- Two states agree in the contract positions, the contract reserves and the resting orders. -/
structure SameContracts (s s' : State) : Prop where
  positions : ∀ a p, ∀ ty ∈ positionTypes, s.tallyMap.money a p ty = s'.tallyMap.money a p ty
  orders : ∀ p price key, contractOrderAt s p price key = contractOrderAt s' p price key

/-- A text that can stand between two bars. -/
def isBar (c : Char) : Bool := c == '|'

/-- A field of a line: not empty, and without a bar. -/
def IsBarField (t : Text) : Prop := Free isBar t ∧ t ≠ []

/-- What the types of a node grant: transaction hashes have 256 bits and property identifiers 32,
    sellers, buyers and issuers are addresses, and the two ecosystems do not overlap. -/
structure HashWf (s : State) : Prop where
  offers : ∀ e ∈ hashedOffers s, IsBarField e.1 ∧ e.2.txid < 2 ^ 256
  accepts : ∀ e ∈ hashedAccepts s, IsBarField e.1 ∧ e.2.offerTxid < 2 ^ 256
  orders : ∀ o ∈ hashedOrders s, o.txid < 2 ^ 256
  crowds : ∀ c ∈ hashedCrowds s, c.propertyId < 2 ^ 32
  issuers : ∀ ecosystem p issuer, issuerIn s ecosystem p = some issuer → IsBarField issuer
  ecosystems : s.sps.nextSPID ≤ testEcoProperty1

/-- A transaction hash names one transaction: an offer and a contract order never share it. -/
def TxidsApart (s s' : State) : Prop :=
  ∀ e ∈ hashedOffers s, ∀ o ∈ hashedOrders s', e.2.txid ≠ o.txid

/-! ## Reading a line back -/

theorem isBarField_decNat (n : Nat) : IsBarField (decNat n) :=
  ⟨free_decNat (by intro c hc; by_contra h; simp [isBar] at h; subst h; simp at hc) n,
    decNat_ne_nil n⟩

theorem isBarField_decInt (n : Int) : IsBarField (decInt n) :=
  ⟨free_decInt (by intro c hc; by_contra h; simp [isBar] at h; subst h; simp at hc) (by decide) n,
    decInt_ne_nil n⟩

theorem isBarField_address (a : Address) : IsBarField a.text :=
  ⟨Address.free_text (by
    intro c hc
    by_contra h
    simp [isBar] at h
    subst h
    revert hc
    decide) a, a.ne_nil⟩

theorem isBarField_txid (t : Txid) : IsBarField (txidText t) := by
  refine ⟨free_hexNat (by decide) 64 t, fun h => ?_⟩
  have hlen := length_hexNat 64 t
  unfold txidText at h
  rw [h] at hlen
  cases hlen

/-- The fields of a line can be read off. -/
theorem split_consensusLine {fields : List Text} (hne : fields ≠ [])
    (h : ∀ t ∈ fields, IsBarField t) : split isBar (consensusLine fields) = fields :=
  split_joinWith (by decide) hne (fun t ht => (h t ht).1) (fun t ht => (h t ht).2)

/-! ## Sorted sections -/

section Sections

variable {δ κ : Type} [Ord κ] [Std.TransOrd κ] [Std.LawfulEqOrd κ]

/-- A section whose lines are sorted by a key of the entries. -/
def sectionLines (key : δ → κ) (fields : δ → List Text) (l : List δ) : List Text :=
  sortedLines (l.map fun d => (key d, consensusLine (fields d)))

omit [Std.TransOrd κ] [Std.LawfulEqOrd κ] in
theorem sectionLines_perm (key : δ → κ) (fields : δ → List Text) (l : List δ) :
    (sectionLines key fields l).Perm (l.map fun d => consensusLine (fields d)) := by
  unfold sectionLines sortedLines
  refine ((sortBy_perm _ _).map Prod.snd).trans ?_
  rw [List.map_map]
  exact List.Perm.refl _

/-- Two sections are equal exactly if they are made of the same entries. -/
theorem sectionLines_eq_iff (key : δ → κ) {fields : δ → List Text} {l l' : List δ}
    (hfields : ∀ d, d ∈ l ∨ d ∈ l' → fields d ≠ [] ∧ ∀ t ∈ fields d, IsBarField t)
    (hinj : Set.InjOn fields {d | d ∈ l ∨ d ∈ l'}) :
    sectionLines key fields l = sectionLines key fields l' ↔ l.Perm l' := by
  constructor
  · intro h
    have hlines : (l.map fun d => consensusLine (fields d)).Perm
        (l'.map fun d => consensusLine (fields d)) :=
      (sectionLines_perm key fields l).symm.trans (h ▸ sectionLines_perm key fields l')
    refine perm_of_map_perm (f := fun d => consensusLine (fields d)) ?_ hlines
    intro d hd d' hd' heq
    refine hinj hd hd' ?_
    rw [← split_consensusLine (hfields d hd).1 (hfields d hd).2,
      ← split_consensusLine (hfields d' hd').1 (hfields d' hd').2]
    exact congrArg (split isBar) heq
  · intro h
    unfold sectionLines sortedLines
    rw [sortBy_eq_iff_perm.mpr (h.map _)]

end Sections

theorem offerStrings_eq (s : State) :
    offerStrings s = sectionLines (fun e => e.2.txid) (fun e => offerFields e.2 e.1)
      (hashedOffers s) := by
  unfold offerStrings sectionLines hashedOffers
  rw [List.map_map]
  rfl

theorem acceptStrings_eq (s : State) :
    acceptStrings s = sectionLines (fun e => txidText e.2.offerTxid ++ '-' :: e.1)
      (fun e => acceptFields e.2 e.1) (hashedAccepts s) := by
  unfold acceptStrings sectionLines hashedAccepts
  rw [List.map_map]
  rfl

theorem contractStrings_eq (s : State) :
    contractStrings s = sectionLines CMPContractDex.txid contractFields (hashedOrders s) := by
  unfold contractStrings sectionLines hashedOrders
  rw [List.map_map]
  rfl

theorem crowdStrings_eq (s : State) :
    crowdStrings s = sectionLines CMPCrowd.propertyId crowdFields (hashedCrowds s) := by
  unfold crowdStrings sectionLines hashedCrowds
  rw [List.map_map]
  rfl

/-! ### The fields of each kind of line -/

theorem isBarField_offerFields {s : State} (hw : HashWf s) {e : Text × CMPOffer}
    (he : e ∈ hashedOffers s) : ∀ t ∈ offerFields e.2 e.1, IsBarField t := by
  simp only [offerFields, List.forall_mem_cons]
  exact ⟨isBarField_txid _, (hw.offers e he).1, isBarField_decNat _, isBarField_decInt _,
    isBarField_decInt _, isBarField_decInt _, isBarField_decNat _, by simp⟩

theorem isBarField_acceptFields {s : State} (hw : HashWf s) {e : Text × CMPAccept}
    (he : e ∈ hashedAccepts s) : ∀ t ∈ acceptFields e.2 e.1, IsBarField t := by
  simp only [acceptFields, List.forall_mem_cons]
  exact ⟨isBarField_txid _, (hw.accepts e he).1, isBarField_decInt _, isBarField_decInt _, isBarField_decNat _,
    by simp⟩

theorem isBarField_contractFields (o : CMPContractDex) : ∀ t ∈ contractFields o, IsBarField t := by
  simp only [contractFields, List.forall_mem_cons]
  exact ⟨isBarField_txid _, isBarField_address _, isBarField_decNat _, isBarField_decInt _, isBarField_decNat _,
    isBarField_decInt _, isBarField_decNat _, by simp⟩

theorem isBarField_crowdFields (c : CMPCrowd) : ∀ t ∈ crowdFields c, IsBarField t := by
  simp only [crowdFields, List.forall_mem_cons]
  exact ⟨isBarField_decNat _, isBarField_decNat _, isBarField_decInt _, isBarField_decInt _, isBarField_decInt _,
    by simp⟩

theorem isBarField_issuerFields {s : State} (hw : HashWf s) {ecosystem : Nat} {p : PropertyId}
    {issuer : Text} (h : issuerIn s ecosystem p = some issuer) :
    ∀ t ∈ issuerFields p issuer, IsBarField t := by
  simp only [issuerFields, List.forall_mem_cons]
  exact ⟨isBarField_decNat _, hw.issuers ecosystem p issuer h, by simp⟩

/-- The fields of a balance line. -/
def tallyFields (t : CMPTally) (a : Address) (p : PropertyId) : List Text :=
  [a.text, decNat p, decInt (t.getMoney p .balance), decInt (t.getMoney p .sellOfferReserve),
    decInt (t.getMoney p .acceptReserve), decInt (t.getMoney p .metaDExReserve)]

theorem isBarField_tallyFields (t : CMPTally) (a : Address) (p : PropertyId) :
    ∀ u ∈ tallyFields t a p, IsBarField u := by
  simp only [tallyFields, List.forall_mem_cons]
  exact ⟨isBarField_address _, isBarField_decNat _, isBarField_decInt _, isBarField_decInt _,
    isBarField_decInt _, isBarField_decInt _, by simp⟩

theorem offerFields_injOn {s s' : State} (hw : HashWf s) (hw' : HashWf s') :
    Set.InjOn (fun e : Text × CMPOffer => offerFields e.2 e.1)
      {e | e ∈ hashedOffers s ∨ e ∈ hashedOffers s'} := by
  have hform : ∀ e : Text × CMPOffer, e ∈ hashedOffers s ∨ e ∈ hashedOffers s' →
      e.2 = e.2.hashed ∧ e.2.txid < 2 ^ 256 := by
    rintro e (he | he)
    · refine ⟨?_, (hw.offers e he).2⟩
      obtain ⟨d, -, rfl⟩ := List.mem_map.mp he
      rfl
    · refine ⟨?_, (hw'.offers e he).2⟩
      obtain ⟨d, -, rfl⟩ := List.mem_map.mp he
      rfl
  rintro ⟨a, o⟩ he ⟨a', o'⟩ he' heq
  obtain ⟨ho, hlt⟩ := hform _ he
  obtain ⟨ho', hlt'⟩ := hform _ he'
  simp only [offerFields, List.cons.injEq, and_true] at heq
  obtain ⟨h1, h2, h3, h4, h5, h6, h7⟩ := heq
  have htxid := txidText_inj hlt hlt' h1
  dsimp only at *
  rw [Prod.mk.injEq, ho, ho']
  refine ⟨h2, ?_⟩
  simp only [CMPOffer.hashed, CMPOffer.mk.injEq, true_and, and_true]
  exact ⟨decInt_injective h4, decNat_injective h3, decInt_injective h5, decInt_injective h6,
    decNat_injective h7, htxid⟩

theorem acceptFields_injOn {s s' : State} (hw : HashWf s) (hw' : HashWf s') :
    Set.InjOn (fun e : Text × CMPAccept => acceptFields e.2 e.1)
      {e | e ∈ hashedAccepts s ∨ e ∈ hashedAccepts s'} := by
  have hform : ∀ e : Text × CMPAccept, e ∈ hashedAccepts s ∨ e ∈ hashedAccepts s' →
      e.2 = e.2.hashed ∧ e.2.offerTxid < 2 ^ 256 := by
    rintro e (he | he)
    · refine ⟨?_, (hw.accepts e he).2⟩
      obtain ⟨d, -, rfl⟩ := List.mem_map.mp he
      rfl
    · refine ⟨?_, (hw'.accepts e he).2⟩
      obtain ⟨d, -, rfl⟩ := List.mem_map.mp he
      rfl
  rintro ⟨a, o⟩ he ⟨a', o'⟩ he' heq
  obtain ⟨ho, hlt⟩ := hform _ he
  obtain ⟨ho', hlt'⟩ := hform _ he'
  simp only [acceptFields, List.cons.injEq, and_true] at heq
  obtain ⟨h1, h2, h3, h4, h5⟩ := heq
  have htxid := txidText_inj hlt hlt' h1
  dsimp only at *
  rw [Prod.mk.injEq, ho, ho']
  refine ⟨h2, ?_⟩
  simp only [CMPAccept.hashed, CMPAccept.mk.injEq, true_and]
  exact ⟨decInt_injective h3, decInt_injective h4, htxid, decNat_injective h5⟩

theorem contractFields_injOn {s s' : State} (hw : HashWf s) (hw' : HashWf s') :
    Set.InjOn contractFields {o | o ∈ hashedOrders s ∨ o ∈ hashedOrders s'} := by
  have hform : ∀ o, o ∈ hashedOrders s ∨ o ∈ hashedOrders s' →
      o = o.hashed ∧ o.txid < 2 ^ 256 := by
    rintro o (ho | ho)
    · refine ⟨?_, hw.orders o ho⟩
      obtain ⟨d, -, rfl⟩ := List.mem_map.mp ho
      rfl
    · refine ⟨?_, hw'.orders o ho⟩
      obtain ⟨d, -, rfl⟩ := List.mem_map.mp ho
      rfl
  intro o hmem o' hmem' heq
  obtain ⟨ho, hlt⟩ := hform _ hmem
  obtain ⟨ho', hlt'⟩ := hform _ hmem'
  simp only [contractFields, List.cons.injEq, and_true] at heq
  obtain ⟨h1, h2, h3, h4, h5, h6, h7⟩ := heq
  have htxid := txidText_inj hlt hlt' h1
  rw [ho, ho']
  simp only [CMPContractDex.hashed, CMPContractDex.mk.injEq, true_and, and_true]
  exact ⟨Address.text_injective h2, htxid, decNat_injective h3, decInt_injective h4,
    decNat_injective h5, decInt_injective h6, decNat_injective h7⟩

theorem crowdFields_injOn (s s' : State) :
    Set.InjOn crowdFields {c | c ∈ hashedCrowds s ∨ c ∈ hashedCrowds s'} := by
  have hform : ∀ c, c ∈ hashedCrowds s ∨ c ∈ hashedCrowds s' → c = c.hashed := by
    rintro c (hc | hc)
    all_goals
      obtain ⟨d, -, rfl⟩ := List.mem_map.mp hc
      rfl
  intro c hc c' hc' heq
  simp only [crowdFields, List.cons.injEq, and_true] at heq
  obtain ⟨h1, h2, h3, h4, h5⟩ := heq
  rw [hform c hc, hform c' hc']
  simp only [CMPCrowd.hashed, CMPCrowd.mk.injEq, true_and, and_true]
  exact ⟨decNat_injective h1, decNat_injective h2, decInt_injective h3, decInt_injective h4,
    decInt_injective h5⟩

/-! ## Balances -/

/-- The records of a tally that the walk reaches: none if there is one of property 0. -/
def shownTally (t : CMPTally) : CMPTally := if t.HasRecord 0 then .empty else t

theorem shownTally_no_record (t : CMPTally) : ¬ (shownTally t).HasRecord 0 := by
  unfold shownTally
  split
  · show ¬ (0 : PropertyId) ∈ CMPTally.empty.mpToken
    simp [CMPTally.empty]
  · next h => exact h

theorem getMoney_shownTally (m : TallyMap) (a : Address) (p : PropertyId) (ty : TallyType) :
    (shownTally (m.tallyOf a)).getMoney p ty = m.shown a p ty := by
  unfold shownTally TallyMap.shown
  split
  · exact CMPTally.getMoney_empty p ty
  · rfl

theorem tallyLines_shown (t : CMPTally) (a : Address) :
    tallyLines t a = tallyLines (shownTally t) a := by
  by_cases h : t.HasRecord 0
  · have hshown : shownTally t = .empty := if_pos h
    have hempty : CMPTally.visited .empty = [] := by
      rw [CMPTally.visited_eq]
      simp [CMPTally.empty, toList_empty]
    unfold tallyLines
    rw [hshown, CMPTally.visited_of_zero h, hempty]
    rfl
  · have hshown : shownTally t = t := if_neg h
    rw [hshown]

/-- One of the hashed amounts is not zero. -/
def CMPTally.Visible (t : CMPTally) (p : PropertyId) : Prop := ∃ ty ∈ hashedTypes, t.getMoney p ty ≠ 0

theorem tallyString_eq (t : CMPTally) (a : Address) (p : PropertyId) :
    (t.Visible p ∧ tallyString t a p = consensusLine (tallyFields t a p)) ∨
      (¬ t.Visible p ∧ tallyString t a p = []) := by
  unfold tallyString CMPTally.Visible hashedTypes
  dsimp only
  split
  · next h =>
      refine Or.inr ⟨?_, rfl⟩
      simp [h.1, h.2.1, h.2.2.1, h.2.2.2]
  · next h =>
      refine Or.inl ⟨?_, rfl⟩
      by_contra hnone
      push Not at hnone
      exact h ⟨hnone _ (by decide), hnone _ (by decide), hnone _ (by decide), hnone _ (by decide)⟩

theorem consensusLine_tally_ne_nil (t : CMPTally) (a : Address) (p : PropertyId) :
    consensusLine (tallyFields t a p) ≠ [] := by
  intro h
  have hsplit := split_consensusLine (by simp [tallyFields]) (isBarField_tallyFields t a p)
  rw [h] at hsplit
  have hlen := congrArg List.length hsplit
  revert hlen
  simp [tallyFields, split, splitAux]

/-- The lines of an address are those of its visible records. -/
theorem mem_tallyLines {t : CMPTally} {a : Address} {line : Text} :
    line ∈ tallyLines t a ↔ ∃ p, (shownTally t).Visible p ∧
      line = consensusLine (tallyFields (shownTally t) a p) := by
  rw [tallyLines_shown]
  generalize hu : shownTally t = u
  have hzero : ¬ u.HasRecord 0 := hu ▸ shownTally_no_record t
  rw [tallyLines_eq hzero, List.mem_flatMap]
  constructor
  · rintro ⟨e, -, hline⟩
    refine ⟨e.1, ?_⟩
    rcases tallyString_eq u a e.1 with ⟨hvis, hstr⟩ | ⟨-, hstr⟩
    · refine ⟨hvis, ?_⟩
      rw [← hstr]
      exact List.mem_singleton.mp (List.mem_filter.mp hline).1
    · simp [recordLines, hstr] at hline
  · rintro ⟨p, hvis, rfl⟩
    have hstr : tallyString u a p = consensusLine (tallyFields u a p) := by
      rcases tallyString_eq u a p with ⟨-, hstr⟩ | ⟨hno, -⟩
      · exact hstr
      · exact absurd hvis hno
    have hrecord : consensusLine (tallyFields u a p) ∈ recordLines u a p := by
      simp [recordLines, hstr, consensusLine_tally_ne_nil]
    rw [← printed_records] at hrecord
    cases hp : u.mpToken[p]? with
    | none => simp [printed, hp] at hrecord
    | some r => exact ⟨(p, r), mem_toList_iff.mpr hp, by simpa [printed, hp] using hrecord⟩

/-- The balance lines of a ledger are those of its visible balances. -/
theorem mem_balanceLines {m : TallyMap} {line : Text} :
    (line ∈ m.toList.flatMap fun e => tallyLines e.2 e.1) ↔
      ∃ a p, (shownTally (m.tallyOf a)).Visible p ∧
        line = consensusLine (tallyFields (shownTally (m.tallyOf a)) a p) := by
  rw [List.mem_flatMap]
  constructor
  · rintro ⟨⟨a, t⟩, he, hline⟩
    have ht : m.tallyOf a = t := by
      unfold TallyMap.tallyOf
      rw [mem_toList_iff.mp he]
      rfl
    obtain ⟨p, hvis, hp⟩ := mem_tallyLines.mp hline
    exact ⟨a, p, by rw [ht]; exact hvis, by rw [ht]; exact hp⟩
  · rintro ⟨a, p, hvis, hp⟩
    have hline : line ∈ tallyLines (m.tallyOf a) a := mem_tallyLines.mpr ⟨p, hvis, hp⟩
    rw [← printed_tallies] at hline
    cases ha : m[a]? with
    | none => simp [printed, ha] at hline
    | some t => exact ⟨(a, t), mem_toList_iff.mpr ha, by simpa [printed, ha] using hline⟩

theorem tallyFields_inj {t t' : CMPTally} {a a' : Address} {p p' : PropertyId}
    (h : tallyFields t a p = tallyFields t' a' p') :
    a = a' ∧ p = p' ∧ ∀ ty ∈ hashedTypes, t.getMoney p ty = t'.getMoney p' ty := by
  simp only [tallyFields, List.cons.injEq, and_true] at h
  obtain ⟨h1, h2, h3, h4, h5, h6⟩ := h
  refine ⟨Address.text_injective h1, decNat_injective h2, ?_⟩
  simp only [hashedTypes, List.forall_mem_cons]
  exact ⟨decInt_injective h3, decInt_injective h4, decInt_injective h5, decInt_injective h6,
    by simp⟩

/-- A visible balance is found again in a ledger with the same lines. -/
theorem shown_eq_of_visible {m m' : TallyMap}
    (h : (m.toList.flatMap fun e => tallyLines e.2 e.1) =
      m'.toList.flatMap fun e => tallyLines e.2 e.1) {a : Address} {p : PropertyId}
    (hvis : (shownTally (m.tallyOf a)).Visible p) :
    ∀ ty ∈ hashedTypes, m.shown a p ty = m'.shown a p ty := by
  have hline := mem_balanceLines.mpr ⟨a, p, hvis, rfl⟩
  rw [h] at hline
  obtain ⟨a', p', -, heq⟩ := mem_balanceLines.mp hline
  have hfields := congrArg (split isBar) heq
  rw [split_consensusLine (by simp [tallyFields]) (isBarField_tallyFields _ _ _),
    split_consensusLine (by simp [tallyFields]) (isBarField_tallyFields _ _ _)] at hfields
  obtain ⟨rfl, rfl, hmoney⟩ := tallyFields_inj hfields
  intro ty hty
  have := hmoney ty hty
  rwa [getMoney_shownTally, getMoney_shownTally] at this

/-- Two ledgers print the same lines exactly if they show the same balances. -/
theorem balanceLines_eq_iff (m m' : TallyMap) :
    (m.toList.flatMap fun e => tallyLines e.2 e.1) =
        (m'.toList.flatMap fun e => tallyLines e.2 e.1) ↔
      ∀ a p, ∀ ty ∈ hashedTypes, m.shown a p ty = m'.shown a p ty := by
  constructor
  · intro h a p ty hty
    by_cases hvis : (shownTally (m.tallyOf a)).Visible p
    · exact shown_eq_of_visible h hvis ty hty
    by_cases hvis' : (shownTally (m'.tallyOf a)).Visible p
    · exact (shown_eq_of_visible h.symm hvis' ty hty).symm
    -- both are zero
    unfold CMPTally.Visible at hvis hvis'
    push Not at hvis hvis'
    rw [← getMoney_shownTally, ← getMoney_shownTally, hvis ty hty, hvis' ty hty]
  · intro h
    refine flatMap_toList_congr (g := fun b t => tallyLines t b)
      (f := fun b t => tallyLines t b) fun a => ?_
    rw [printed_tallies, printed_tallies, tallyLines_shown, tallyLines_shown (m'.tallyOf a)]
    refine tallyLines_congr (shownTally_no_record _) (shownTally_no_record _) a ?_
    intro p ty hty
    rw [getMoney_shownTally, getMoney_shownTally, h a p ty hty]

/-! ## Issuers -/

/-- The identifiers of an ecosystem that have an issuer were handed out. -/
theorem issuerIn_range {s : State} {ecosystem : Nat} {p : PropertyId} {issuer : Text}
    (h : issuerIn s ecosystem p = some issuer) :
    startPropertyId ecosystem ≤ p ∧ p < s.sps.peekNextSPID ecosystem := by
  by_contra hno
  unfold issuerIn at h
  rw [if_neg hno] at h
  cases h

theorem mem_propertyStrings {s : State} {ecosystem : Nat} {line : Text} :
    line ∈ propertyStrings s ecosystem ↔ ∃ p issuer, issuerIn s ecosystem p = some issuer ∧
      line = consensusLine (issuerFields p issuer) := by
  rw [propertyStrings_eq s ecosystem _ le_rfl, List.mem_filterMap]
  constructor
  · rintro ⟨p, -, hp⟩
    obtain ⟨issuer, hissuer, hline⟩ := Option.map_eq_some_iff.mp hp
    exact ⟨p, issuer, hissuer, hline.symm⟩
  · rintro ⟨p, issuer, hissuer, rfl⟩
    refine ⟨p, ?_, by rw [hissuer]; rfl⟩
    have hrange := issuerIn_range hissuer
    exact List.mem_range'_1.mpr ⟨hrange.1, lt_of_lt_of_le hrange.2 le_add_tsub⟩

/-- An issuer is found again in a registry with the same lines. -/
theorem issuerIn_of_strings {s s' : State} {ecosystem : Nat} (hw : HashWf s) (hw' : HashWf s')
    (h : propertyStrings s ecosystem = propertyStrings s' ecosystem) {p : PropertyId}
    {issuer : Text} (hissuer : issuerIn s ecosystem p = some issuer) :
    issuerIn s' ecosystem p = some issuer := by
  have hline := mem_propertyStrings.mpr ⟨p, issuer, hissuer, rfl⟩
  rw [h] at hline
  obtain ⟨p', issuer', hissuer', heq⟩ := mem_propertyStrings.mp hline
  have hfields := congrArg (split isBar) heq
  rw [split_consensusLine (by simp [issuerFields]) (isBarField_issuerFields hw hissuer),
    split_consensusLine (by simp [issuerFields]) (isBarField_issuerFields hw' hissuer')] at hfields
  simp only [issuerFields, List.cons.injEq, and_true] at hfields
  rw [decNat_injective hfields.1, hfields.2]
  exact hissuer'

theorem propertyStrings_eq_iff {s s' : State} (hw : HashWf s) (hw' : HashWf s') (ecosystem : Nat) :
    propertyStrings s ecosystem = propertyStrings s' ecosystem ↔
      ∀ p, issuerIn s ecosystem p = issuerIn s' ecosystem p := by
  constructor
  · intro h p
    cases hs : issuerIn s ecosystem p with
    | some issuer => exact (issuerIn_of_strings hw hw' h hs).symm
    | none =>
        cases hs' : issuerIn s' ecosystem p with
        | none => rfl
        | some issuer =>
            have := issuerIn_of_strings hw' hw h.symm hs'
            rw [hs] at this
            cases this
  · exact propertyStrings_congr

/-! ## Telling the sections apart -/

/-- The section a line belongs to, by its fields: offers and contract orders both have seven, and
    are told apart by the transaction. -/
def fieldsClass (known : List (Text × CMPOffer)) : List Text → Nat
  | [_, _, _, _, _, _] => 0
  | [txid, _, _, _, _, _, _] => if (known.any fun e => txidText e.2.txid == txid) then 1 else 3
  | [first, _, _, _, _] => if first.length = 64 then 2 else 4
  | [p, _] => if digitsVal p < testEcoProperty1 then 5 else 6
  | _ => 7

/-- The section a line belongs to. -/
def lineClass (known : List (Text × CMPOffer)) (line : Text) : Nat :=
  fieldsClass known (split isBar line)

/-- The sections, in the order in which they are hashed. -/
def contractSections (order : List (Address × CMPTally)) (s : State) : List (List Text) :=
  [balanceStrings order, offerStrings s, acceptStrings s, contractStrings s, crowdStrings s,
    propertyStrings s 1, propertyStrings s 2]

theorem flatten_contractSections (order : List (Address × CMPTally)) (s : State) :
    (contractSections order s).flatten = getConsensusStringsContractDex order s := by
  simp only [contractSections, getConsensusStringsContractDex, List.flatten_cons, List.flatten_nil,
    List.append_nil, List.append_assoc]

theorem lineClass_consensusLine (known : List (Text × CMPOffer)) {fields : List Text}
    (hne : fields ≠ []) (h : ∀ t ∈ fields, IsBarField t) :
    lineClass known (consensusLine fields) = fieldsClass known fields := by
  unfold lineClass
  rw [split_consensusLine hne h]

section FieldsClass

variable (known : List (Text × CMPOffer))

theorem fieldsClass_tally (t : CMPTally) (a : Address) (p : PropertyId) :
    fieldsClass known (tallyFields t a p) = 0 := rfl

theorem fieldsClass_offer (o : CMPOffer) (seller : Text) :
    fieldsClass known (offerFields o seller) =
      if (known.any fun e => txidText e.2.txid == txidText o.txid) then 1 else 3 := rfl

theorem fieldsClass_accept (o : CMPAccept) (buyer : Text) :
    fieldsClass known (acceptFields o buyer) = 2 := by
  have hlen : (txidText o.offerTxid).length = 64 := length_hexNat 64 o.offerTxid
  simp only [acceptFields, fieldsClass, hlen, if_true]

theorem fieldsClass_contract (o : CMPContractDex) :
    fieldsClass known (contractFields o) =
      if (known.any fun e => txidText e.2.txid == txidText o.txid) then 1 else 3 := rfl

theorem fieldsClass_crowd (c : CMPCrowd) :
    fieldsClass known (crowdFields c) = if (decNat c.propertyId).length = 64 then 2 else 4 := rfl

theorem fieldsClass_issuer (p : PropertyId) (issuer : Text) :
    fieldsClass known (issuerFields p issuer) = if p < testEcoProperty1 then 5 else 6 := by
  simp only [issuerFields, fieldsClass, digitsVal_decNat]

end FieldsClass

/-- Every line belongs to its section, if no known offer shares its transaction with an order. -/
theorem inSections {known : List (Text × CMPOffer)} {order : List (Address × CMPTally)} {s : State}
    (horder : order.Perm s.tallyMap.toList) (hw : HashWf s)
    (hoffers : ∀ e ∈ hashedOffers s, e ∈ known)
    (horders : ∀ e ∈ known, e.2.txid < 2 ^ 256 ∧ ∀ o ∈ hashedOrders s, e.2.txid ≠ o.txid) :
    InSections (lineClass known) 0 (contractSections order s) := by
  refine ⟨?_, ?_, ?_, ?_, ?_, ?_, ?_, trivial⟩
  · intro line hline
    rw [balanceStrings_eq horder] at hline
    obtain ⟨a, p, -, rfl⟩ := mem_balanceLines.mp hline
    rw [lineClass_consensusLine known (by simp [tallyFields]) (isBarField_tallyFields _ a p),
      fieldsClass_tally]
  · intro line hline
    rw [offerStrings_eq, (sectionLines_perm _ _ _).mem_iff] at hline
    obtain ⟨e, he, rfl⟩ := List.mem_map.mp hline
    rw [lineClass_consensusLine known (by simp [offerFields]) (isBarField_offerFields hw he),
      fieldsClass_offer]
    have hknown : (known.any fun d => txidText d.2.txid == txidText e.2.txid) = true := by
      rw [List.any_eq_true]
      exact ⟨e, hoffers e he, by rw [beq_self_eq_true]⟩
    rw [if_pos hknown]
  · intro line hline
    rw [acceptStrings_eq, (sectionLines_perm _ _ _).mem_iff] at hline
    obtain ⟨e, he, rfl⟩ := List.mem_map.mp hline
    rw [lineClass_consensusLine known (by simp [acceptFields]) (isBarField_acceptFields hw he),
      fieldsClass_accept]
  · intro line hline
    rw [contractStrings_eq, (sectionLines_perm _ _ _).mem_iff] at hline
    obtain ⟨o, ho, rfl⟩ := List.mem_map.mp hline
    rw [lineClass_consensusLine known (by simp [contractFields]) (isBarField_contractFields o),
      fieldsClass_contract]
    refine if_neg fun hany => ?_
    obtain ⟨e, he, heq⟩ := List.any_eq_true.mp hany
    exact (horders e he).2 o ho
      (txidText_inj (horders e he).1 (hw.orders o ho) (eq_of_beq heq))
  · intro line hline
    rw [crowdStrings_eq, (sectionLines_perm _ _ _).mem_iff] at hline
    obtain ⟨c, hc, rfl⟩ := List.mem_map.mp hline
    rw [lineClass_consensusLine known (by simp [crowdFields]) (isBarField_crowdFields c),
      fieldsClass_crowd]
    have hlen : (decNat c.propertyId).length ≤ 10 :=
      length_decNat_le (by omega) (lt_trans (hw.crowds c hc) (by norm_num))
    exact if_neg (by omega)
  · intro line hline
    obtain ⟨p, issuer, hp, rfl⟩ := mem_propertyStrings.mp hline
    rw [lineClass_consensusLine known (by simp [issuerFields]) (isBarField_issuerFields hw hp),
      fieldsClass_issuer]
    exact if_pos (lt_of_lt_of_le (issuerIn_range hp).2 hw.ecosystems)
  · intro line hline
    obtain ⟨p, issuer, hp, rfl⟩ := mem_propertyStrings.mp hline
    rw [lineClass_consensusLine known (by simp [issuerFields]) (isBarField_issuerFields hw hp),
      fieldsClass_issuer]
    exact if_neg (not_lt.mpr (issuerIn_range hp).1)

/-! ## Agreement, section by section -/

section Agreement

variable {s s' : State} (hw : HashWf s) (hw' : HashWf s')

include hw hw'

theorem offerStrings_agree_iff :
    offerStrings s = offerStrings s' ↔ (hashedOffers s).Perm (hashedOffers s') := by
  rw [offerStrings_eq, offerStrings_eq]
  refine sectionLines_eq_iff _ ?_ (offerFields_injOn hw hw')
  rintro e (he | he)
  · exact ⟨by simp [offerFields], isBarField_offerFields hw he⟩
  · exact ⟨by simp [offerFields], isBarField_offerFields hw' he⟩

theorem acceptStrings_agree_iff :
    acceptStrings s = acceptStrings s' ↔ (hashedAccepts s).Perm (hashedAccepts s') := by
  rw [acceptStrings_eq, acceptStrings_eq]
  refine sectionLines_eq_iff _ ?_ (acceptFields_injOn hw hw')
  rintro e (he | he)
  · exact ⟨by simp [acceptFields], isBarField_acceptFields hw he⟩
  · exact ⟨by simp [acceptFields], isBarField_acceptFields hw' he⟩

theorem orderStrings_agree_iff :
    contractStrings s = contractStrings s' ↔ (hashedOrders s).Perm (hashedOrders s') := by
  rw [contractStrings_eq, contractStrings_eq]
  exact sectionLines_eq_iff _ (fun o _ => ⟨by simp [contractFields], isBarField_contractFields o⟩)
    (contractFields_injOn hw hw')

omit hw hw' in
theorem crowdStrings_agree_iff :
    crowdStrings s = crowdStrings s' ↔ (hashedCrowds s).Perm (hashedCrowds s') := by
  rw [crowdStrings_eq, crowdStrings_eq]
  exact sectionLines_eq_iff _ (fun c _ => ⟨by simp [crowdFields], isBarField_crowdFields c⟩)
    (crowdFields_injOn s s')

/-- Equal strings have equal sections, if no offer shares its transaction with an order. -/
theorem contractSections_eq {order order' : List (Address × CMPTally)}
    (horder : order.Perm s.tallyMap.toList) (horder' : order'.Perm s'.tallyMap.toList)
    (hapart : ∀ x ∈ [s, s'], ∀ y ∈ [s, s'], TxidsApart x y)
    (h : getConsensusStringsContractDex order s = getConsensusStringsContractDex order' s') :
    contractSections order s = contractSections order' s' := by
  have hknown : ∀ x ∈ [s, s'], ∀ e ∈ hashedOffers s ++ hashedOffers s',
      e.2.txid < 2 ^ 256 ∧ ∀ o ∈ hashedOrders x, e.2.txid ≠ o.txid := by
    intro x hx e he
    rcases List.mem_append.mp he with he | he
    · exact ⟨(hw.offers e he).2, hapart s (by simp) x hx e he⟩
    · exact ⟨(hw'.offers e he).2, hapart s' (by simp) x hx e he⟩
  have hin := inSections horder hw (fun e he => List.mem_append_left _ he) (hknown s (by simp))
  have hin' := inSections horder' hw' (fun e he => List.mem_append_right _ he)
    (hknown s' (by simp))
  have hlen : (contractSections order s).length = (contractSections order' s').length := by
    simp only [contractSections, List.length_cons, List.length_nil]
  refine eq_of_flatten_eq hin hin' hlen ?_
  rw [flatten_contractSections, flatten_contractSections, h]

end Agreement

/-- Two states have the same strings exactly if they agree in what is hashed. -/
theorem contractStrings_agree_iff {s s' : State} {order order' : List (Address × CMPTally)}
    (horder : order.Perm s.tallyMap.toList) (horder' : order'.Perm s'.tallyMap.toList)
    (hw : HashWf s) (hw' : HashWf s')
    (hapart : ∀ x ∈ [s, s'], ∀ y ∈ [s, s'], TxidsApart x y) :
    getConsensusStringsContractDex order s = getConsensusStringsContractDex order' s' ↔
      SameHashed s s' := by
  have hbalances := balanceLines_eq_iff s.tallyMap s'.tallyMap
  rw [← balanceStrings_eq horder, ← balanceStrings_eq horder'] at hbalances
  have hissuers := propertyStrings_eq_iff hw hw'
  constructor
  · intro h
    have hsections := contractSections_eq hw hw' horder horder' hapart h
    simp only [contractSections, List.cons.injEq, and_true] at hsections
    obtain ⟨h0, h1, h2, h3, h4, h5, h6⟩ := hsections
    refine ⟨hbalances.mp h0, (offerStrings_agree_iff hw hw').mp h1,
      (acceptStrings_agree_iff hw hw').mp h2, (orderStrings_agree_iff hw hw').mp h3,
      crowdStrings_agree_iff.mp h4, ?_⟩
    simp only [List.forall_mem_cons]
    exact ⟨(hissuers 1).mp h5, (hissuers 2).mp h6, by simp⟩
  · intro h
    unfold getConsensusStringsContractDex
    rw [hbalances.mpr h.balances, (offerStrings_agree_iff hw hw').mpr h.offers,
      (acceptStrings_agree_iff hw hw').mpr h.accepts, (orderStrings_agree_iff hw hw').mpr h.orders,
      crowdStrings_agree_iff.mpr h.crowds, (hissuers 1).mpr (h.issuers 1 (by simp)),
      (hissuers 2).mpr (h.issuers 2 (by simp))]

/-- **WHAT THE CONTRACT HASH DETECTS**: a difference in positions, reserves or orders shows in the
    strings exactly if there is one in the hashed data too. -/
theorem contractHash_detects_iff {s s' : State} {order order' : List (Address × CMPTally)}
    (horder : order.Perm s.tallyMap.toList) (horder' : order'.Perm s'.tallyMap.toList)
    (hw : HashWf s) (hw' : HashWf s')
    (hapart : ∀ x ∈ [s, s'], ∀ y ∈ [s, s'], TxidsApart x y) :
    (¬ SameContracts s s' →
        getConsensusStringsContractDex order s ≠ getConsensusStringsContractDex order' s') ↔
      (SameContracts s s' ∨ ¬ SameHashed s s') := by
  have h := contractStrings_agree_iff horder horder' hw hw' hapart
  constructor
  · intro hdetect
    by_cases hsame : SameContracts s s'
    · exact Or.inl hsame
    · exact Or.inr fun hhashed => hdetect hsame (h.mpr hhashed)
  · rintro (hsame | hdiff) hno heq
    · exact hno hsame
    · exact hdiff (h.mp heq)

/-! ### A market where the hash sees a difference -/

/-- A resting order of one contract. -/
def restingOrder : CMPContractDex :=
  { addr := traderA, block := 11, txid := 2, idx := 1, property := 3, amountForsale := 1,
    desiredProperty := 0, amountDesired := 0, amountRemaining := 1, subaction := 1,
    effectivePrice := 100, tradingAction := 2, serial := 0 }

/-- The funded node with one resting order. -/
def restingState : State :=
  { fundedState with
    contractdex := (∅ : CdPropertiesMap).insert 3
      ((∅ : CdPricesMap).insert 100 ((∅ : CdSet).insert (11, 1) restingOrder)) }

theorem isBarField_exodusAddress : IsBarField exodusAddress := by
  have hall : exodusAddress.all (fun c => !isBar c) = true := by decide +kernel
  refine ⟨fun c hc => ?_, fun h => ?_⟩
  · simpa using List.all_eq_true.mp hall c hc
  · have hlen : exodusAddress.length = 34 := by decide +kernel
    rw [h] at hlen
    cases hlen

/-- The registry of a fresh node knows the implied properties only, all issued by Exodus. -/
theorem issuerIn_fundedState {ecosystem : Nat} {p : PropertyId} {issuer : Text}
    (h : issuerIn fundedState ecosystem p = some issuer) : issuer = exodusAddress := by
  unfold issuerIn at h
  split at h
  · have hentries : fundedState.sps.entries[p]? = none := by
      show (∅ : ExtTreeMap PropertyId SPEntry)[p]? = none
      simp
    unfold CMPSPInfo.getSP impliedSP at h
    split_ifs at h
    · exact (Option.some.inj h).symm
    · exact (Option.some.inj h).symm
    · exact (Option.some.inj h).symm
    · rw [hentries] at h
      cases h
  · cases h

theorem hashWf_of_fresh {s : State} (hsps : s.sps = fundedState.sps)
    (hoffers : hashedOffers s = []) (haccepts : hashedAccepts s = [])
    (hcrowds : hashedCrowds s = []) (horders : ∀ o ∈ hashedOrders s, o.txid < 2 ^ 256) :
    HashWf s where
  offers e he := by
    rw [hoffers] at he
    cases he
  accepts e he := by
    rw [haccepts] at he
    cases he
  orders := horders
  crowds c hc := by
    rw [hcrowds] at hc
    cases hc
  issuers ecosystem p issuer h := by
    have hfunded : issuerIn fundedState ecosystem p = some issuer := by
      rw [← h]
      unfold issuerIn
      rw [hsps]
    rw [issuerIn_fundedState hfunded]
    exact isBarField_exodusAddress
  ecosystems := by
    rw [hsps]
    decide

theorem hashedOrders_fundedState : hashedOrders fundedState = [] := by decide +kernel

theorem hashedOrders_restingState : hashedOrders restingState = [restingOrder.hashed] := by
  decide +kernel

theorem hashedOffers_resting : hashedOffers fundedState = [] ∧ hashedOffers restingState = [] := by
  decide +kernel

theorem hashedAccepts_resting :
    hashedAccepts fundedState = [] ∧ hashedAccepts restingState = [] := by decide +kernel

theorem hashedCrowds_resting : hashedCrowds fundedState = [] ∧ hashedCrowds restingState = [] := by
  unfold hashedCrowds
  rw [List.map_eq_nil_iff, List.map_eq_nil_iff, ← List.isEmpty_iff, ← List.isEmpty_iff]
  decide +kernel

/-- The resting order shows in the strings. -/
theorem contractHash_detects_iff_resting :
    getConsensusStringsContractDex fundedState.tallyMap.toList fundedState ≠
      getConsensusStringsContractDex restingState.tallyMap.toList.reverse restingState := by
  have hw : HashWf fundedState :=
    hashWf_of_fresh rfl hashedOffers_resting.1 hashedAccepts_resting.1 hashedCrowds_resting.1
      (by simp [hashedOrders_fundedState])
  have hw' : HashWf restingState :=
    hashWf_of_fresh rfl hashedOffers_resting.2 hashedAccepts_resting.2 hashedCrowds_resting.2
      (by simp [hashedOrders_restingState, CMPContractDex.hashed, restingOrder])
  have hapart : ∀ x ∈ [fundedState, restingState], ∀ y ∈ [fundedState, restingState],
      TxidsApart x y := by
    intro x hx y _ e he
    have hnone : hashedOffers x = [] := by
      rcases List.mem_cons.mp hx with rfl | hx
      · exact hashedOffers_resting.1
      · rw [List.mem_singleton.mp hx]
        exact hashedOffers_resting.2
    rw [hnone] at he
    cases he
  have hdiff : ¬ SameHashed fundedState restingState := by
    intro h
    have hlen := h.orders.length_eq
    rw [hashedOrders_fundedState, hashedOrders_restingState] at hlen
    cases hlen
  have hcontracts : ¬ SameContracts fundedState restingState := by
    intro h
    have hat := h.orders 3 100 (11, 1)
    revert hat
    decide +kernel
  exact (contractHash_detects_iff (List.Perm.refl _) (List.reverse_perm _) hw hw' hapart).mpr
    (Or.inr hdiff) hcontracts

/-! ### A market where it does not -/

/-- `B` goes long against `A`: the roles of `quietTrade` swapped. -/
def swappedTrade : List ContractOp :=
  [.create (some 0) (createTx 0 1), .trade (orderTx traderB 2 11 1 1 100),
    .trade (orderTx traderA 3 12 2 1 80)]

/-- The node after a history on the funded node. -/
def tradedState (ops : List ContractOp) : State :=
  (after (runContracts 3 ops) (World.start fundedState)).state

/-- Apart from the balances and the registry, nothing that is hashed is left of a trade. -/
def NothingResting (s : State) : Prop :=
  s.offers.toList = [] ∧ s.accepts.toList = [] ∧ contractOrders s = [] ∧
    s.crowds.toList.isEmpty = true

instance (s : State) : Decidable (NothingResting s) :=
  inferInstanceAs (Decidable (s.offers.toList = [] ∧ s.accepts.toList = [] ∧
    contractOrders s = [] ∧ s.crowds.toList.isEmpty = true))

theorem contractStrings_of_nothingResting {s s' : State} (h : NothingResting s)
    (h' : NothingResting s')
    (hbalances : balanceStrings s.tallyMap.toList = balanceStrings s'.tallyMap.toList)
    (hentries : s.sps.entries = s'.sps.entries) (hnext : s.sps.nextSPID = s'.sps.nextSPID)
    (hnextTest : s.sps.nextTestSPID = s'.sps.nextTestSPID) :
    getConsensusStringsContractDex s.tallyMap.toList s =
      getConsensusStringsContractDex s'.tallyMap.toList s' := by
  obtain ⟨hoffers, haccepts, horders, hcrowds⟩ := h
  obtain ⟨hoffers', haccepts', horders', hcrowds'⟩ := h'
  have hproperties : ∀ ecosystem ∈ [1, 2],
      propertyStrings s ecosystem = propertyStrings s' ecosystem := by
    intro ecosystem he
    refine propertyStrings_congr fun p => ?_
    have hpeek : s.sps.peekNextSPID ecosystem = s'.sps.peekNextSPID ecosystem := by
      rcases List.mem_cons.mp he with rfl | he
      · exact hnext
      · rw [List.mem_singleton.mp he]
        exact hnextTest
    unfold issuerIn CMPSPInfo.getSP
    rw [hpeek, hentries]
  unfold getConsensusStringsContractDex offerStrings acceptStrings contractStrings crowdStrings
  rw [hbalances, hoffers, hoffers', haccepts, haccepts', horders, horders',
    List.isEmpty_iff.mp hcrowds, List.isEmpty_iff.mp hcrowds', hproperties 1 (by simp),
    hproperties 2 (by simp)]

set_option maxRecDepth 4000 in
/-- After one history `A` is long and `B` short, after the other `B` is long and `A` short: both
    nodes hash the same strings. -/
theorem positions_not_hashed :
    (returned (runContracts 3 quietTrade) (World.start fundedState)).isSome = true ∧
    (returned (runContracts 3 swappedTrade) (World.start fundedState)).isSome = true ∧
    ¬ (¬ SameContracts (tradedState quietTrade) (tradedState swappedTrade) →
        getConsensusStringsContractDex (tradedState quietTrade).tallyMap.toList
            (tradedState quietTrade) ≠
          getConsensusStringsContractDex (tradedState swappedTrade).tallyMap.toList
            (tradedState swappedTrade)) := by
  refine ⟨by decide +kernel, by decide +kernel, fun hdetect => ?_⟩
  have hpositions : ¬ SameContracts (tradedState quietTrade) (tradedState swappedTrade) := by
    intro h
    have hlong := h.positions traderA 3 .possitiveBalance (by decide)
    revert hlong
    decide +kernel
  exact hdetect hpositions (contractStrings_of_nothingResting (by decide +kernel)
    (by decide +kernel) (by decide +kernel) (by decide +kernel) (by decide +kernel)
    (by decide +kernel))

end OmniCore
