import OmniCore.Lib.Listing
import OmniCore.Registry
import OmniCore.TallyIteration

/-! # ConsensusHash — what a node hashes of its state

    `GetConsensusHash` and `GetConsensusHashContractDex` feed SHA256 with one line per
    balance, offer, accept, order, crowdsale and property. The lines of a section are
    sorted, or come out of an ordered map; lines of empty balances are left out. -/

namespace OmniCore

open Std (ExtTreeMap)
open Machine TextRec MapSum

/-! ## One line per object -/

/-- A line: the fields, separated by bars. -/
def consensusLine (fields : List Text) : Text := joinWith '|' fields

/-- `GenerateConsensusString` of a balance record; empty if the four balances are. -/
def tallyString (t : CMPTally) (a : Address) (p : PropertyId) : Text :=
  let balance := t.getMoney p .balance
  let sellOfferReserve := t.getMoney p .sellOfferReserve
  let acceptReserve := t.getMoney p .acceptReserve
  let metaDExReserve := t.getMoney p .metaDExReserve
  if balance = 0 ∧ sellOfferReserve = 0 ∧ acceptReserve = 0 ∧ metaDExReserve = 0 then []
  else consensusLine [a.text, decNat p, decInt balance, decInt sellOfferReserve,
    decInt acceptReserve, decInt metaDExReserve]

/-- The fields of a DEx sell offer. -/
def offerFields (o : CMPOffer) (seller : Text) : List Text :=
  [txidText o.txid, seller, decNat o.property, decInt o.offerAmountOriginal,
    decInt o.btcDesiredOriginal, decInt o.minFee, decNat o.blocktimelimit]

/-- The fields of a DEx accept. -/
def acceptFields (o : CMPAccept) (buyer : Text) : List Text :=
  [txidText o.offerTxid, buyer, decInt o.acceptAmountOriginal, decInt o.acceptAmountRemaining,
    decNat o.block]

/-- The fields of a MetaDEx order. -/
def metaDExFields (o : CMPMetaDEx) : List Text :=
  [txidText o.txid, o.addr.text, decNat o.property, decInt o.amountForsale,
    decNat o.desiredProperty, decInt o.amountDesired, decInt o.amountRemaining]

/-- The fields of a contract order: the trading action is not among them. -/
def contractFields (o : CMPContractDex) : List Text :=
  [txidText o.txid, o.addr.text, decNat o.property, decInt o.amountForsale,
    decNat o.desiredProperty, decInt o.amountRemaining, decNat o.effectivePrice]

/-- The fields of a crowdsale. -/
def crowdFields (c : CMPCrowd) : List Text :=
  [decNat c.propertyId, decNat c.propertyDesired, decInt c.deadline, decInt c.uCreated,
    decInt c.iCreated]

/-- The fields of a property. -/
def issuerFields (p : PropertyId) (issuer : Text) : List Text := [decNat p, issuer]

/-- `sellCombo.substr(0, sellCombo.size() - 2)`; the length wraps for a shorter key. -/
def sellerOfCombo (combo : Text) : Text :=
  if combo.length < 2 then combo else combo.take (combo.length - 2)

/-- The text behind the first plus sign of an accept key, the whole key if there is none. -/
def buyerOfCombo (combo : Text) : Text :=
  match combo.dropWhile (· != '+') with
  | [] => combo
  | _ :: buyer => buyer

/-! ## The sections -/

/-- Balances, by address and property. `order` is the order in which the unordered map is walked;
    the tallies are copied into an ordered map first. -/
def balanceStrings (order : List (Address × CMPTally)) : List Text :=
  let tallyMapSorted : TallyMap := order.foldl (fun m e => m.insertIfNew e.1 e.2) ∅
  tallyMapSorted.toList.flatMap fun e =>
    (e.2.visited.map (tallyString e.2 e.1)).filter fun dataStr => !dataStr.isEmpty

/-- Sorts lines by a key, and by themselves where the keys agree. -/
def sortedLines {κ : Type} [Ord κ] (vec : List (κ × Text)) : List Text :=
  (sortBy pairCmp vec).map Prod.snd

/-- DEx sell offers, by transaction. -/
def offerStrings (s : State) : List Text :=
  sortedLines (s.offers.toList.map fun e =>
    (e.2.txid, consensusLine (offerFields e.2 (sellerOfCombo e.1))))

/-- DEx accepts, by the matched offer and the buyer. -/
def acceptStrings (s : State) : List Text :=
  sortedLines (s.accepts.toList.map fun e =>
    (txidText e.2.offerTxid ++ '-' :: buyerOfCombo e.1,
      consensusLine (acceptFields e.2 (buyerOfCombo e.1))))

/-- All MetaDEx orders, in the order of the nested maps. -/
def metaDExOrders (s : State) : List CMPMetaDEx :=
  s.metadex.toList.flatMap fun prices => prices.2.toList.flatMap fun indexes =>
    indexes.2.toList.map Prod.snd

/-- MetaDEx orders, by transaction. -/
def metaDExStrings (s : State) : List Text :=
  sortedLines ((metaDExOrders s).map fun o => (o.txid, consensusLine (metaDExFields o)))

/-- All contract orders, in the order of the nested maps. -/
def contractOrders (s : State) : List CMPContractDex :=
  s.contractdex.toList.flatMap fun prices => prices.2.toList.flatMap fun indexes =>
    indexes.2.toList.map Prod.snd

/-- Contract orders, by transaction. -/
def contractStrings (s : State) : List Text :=
  sortedLines ((contractOrders s).map fun o => (o.txid, consensusLine (contractFields o)))

/-- Crowdsales, by property. -/
def crowdStrings (s : State) : List Text :=
  sortedLines (s.crowds.toList.map fun e => (e.2.propertyId, consensusLine (crowdFields e.2)))

/-- The first property of an ecosystem. -/
def startPropertyId (ecosystem : Nat) : PropertyId := if ecosystem = 1 then 1 else testEcoProperty1

/-- The properties of one ecosystem that can be loaded. -/
def propertyStrings (s : State) (ecosystem : Nat) : List Text :=
  (List.range' (startPropertyId ecosystem)
      (s.sps.peekNextSPID ecosystem - startPropertyId ecosystem)).filterMap fun propertyId =>
    (s.sps.getSP propertyId).map fun sp => consensusLine (issuerFields propertyId sp.issuer)

/-- The strings that `GetConsensusHash` feeds to SHA256. -/
def getConsensusStrings (order : List (Address × CMPTally)) (s : State) : List Text :=
  balanceStrings order ++ offerStrings s ++ acceptStrings s ++ metaDExStrings s ++ crowdStrings s ++
    propertyStrings s 1 ++ propertyStrings s 2

/-- The strings that `GetConsensusHashContractDex` feeds to SHA256. -/
def getConsensusStringsContractDex (order : List (Address × CMPTally)) (s : State) : List Text :=
  balanceStrings order ++ offerStrings s ++ acceptStrings s ++ contractStrings s ++ crowdStrings s ++
    propertyStrings s 1 ++ propertyStrings s 2

/-! ## The abstract state -/

/-- The balances that are hashed. -/
def hashedTypes : List TallyType := [.balance, .sellOfferReserve, .acceptReserve, .metaDExReserve]

/-- The MetaDEx order at a place of the book. -/
def metaDExOrderAt (s : State) (p : PropertyId) (price : ℚ) (key : OrderKey) : Option CMPMetaDEx :=
  ((s.metadex[p]?).bind fun prices => prices[price]?).bind fun indexes => indexes[key]?

/-- The issuer of a property that an ecosystem has handed out. -/
def issuerIn (s : State) (ecosystem : Nat) (p : PropertyId) : Option Text :=
  if startPropertyId ecosystem ≤ p ∧ p < s.sps.peekNextSPID ecosystem then
    (s.sps.getSP p).map SPEntry.issuer
  else none

/-- Two states agree in everything that is hashed: balances, offers, accepts, orders, crowdsales and
    issuers, whatever records or price levels stand for them. -/
structure SameAbstractState (s s' : State) : Prop where
  balances : ∀ a p, ∀ ty ∈ hashedTypes, s.tallyMap.money a p ty = s'.tallyMap.money a p ty
  offers : s.offers = s'.offers
  accepts : s.accepts = s'.accepts
  orders : ∀ p price key, metaDExOrderAt s p price key = metaDExOrderAt s' p price key
  crowds : s.crowds = s'.crowds
  issuers : ∀ ecosystem ∈ [1, 2], ∀ p, issuerIn s ecosystem p = issuerIn s' ecosystem p

/-! ## Balances -/

/-- The lines of one address. -/
def tallyLines (t : CMPTally) (a : Address) : List Text :=
  (t.visited.map (tallyString t a)).filter fun dataStr => !dataStr.isEmpty

/-- The lines of one property of an address: one, or none. -/
def recordLines (t : CMPTally) (a : Address) (p : PropertyId) : List Text :=
  [tallyString t a p].filter fun dataStr => !dataStr.isEmpty

/-- Without a record of property 0 the lines are those of all records. -/
theorem tallyLines_eq {t : CMPTally} (h : ¬ t.HasRecord 0) (a : Address) :
    tallyLines t a = t.mpToken.toList.flatMap fun e => recordLines t a e.1 := by
  unfold tallyLines
  rw [CMPTally.visited_of_no_zero h]
  induction t.mpToken.toList with
  | nil => rfl
  | cons e l ih =>
      rw [List.flatMap_cons, ← ih]
      simp [recordLines, List.filter_cons]
      split <;> rfl

/-- A property without a record has no line. -/
theorem printed_records (t : CMPTally) (a : Address) (p : PropertyId) :
    printed t.mpToken (fun q _ => recordLines t a q) p = recordLines t a p := by
  unfold printed
  cases h : t.mpToken[p]? with
  | some r => rfl
  | none => simp [recordLines, tallyString, CMPTally.getMoney_of_no_record h]

/-- The lines of an address depend on its balances only. -/
theorem tallyLines_congr {t t' : CMPTally} (h : ¬ t.HasRecord 0) (h' : ¬ t'.HasRecord 0)
    (a : Address) (hmoney : ∀ p, ∀ ty ∈ hashedTypes, t.getMoney p ty = t'.getMoney p ty) :
    tallyLines t a = tallyLines t' a := by
  rw [tallyLines_eq h, tallyLines_eq h']
  refine flatMap_toList_congr (g := fun q _ => recordLines t a q)
    (f := fun q _ => recordLines t' a q) fun p => ?_
  rw [printed_records, printed_records]
  unfold recordLines tallyString
  rw [hmoney p .balance (by decide), hmoney p .sellOfferReserve (by decide),
    hmoney p .acceptReserve (by decide), hmoney p .metaDExReserve (by decide)]

/-- An unknown address has no lines. -/
theorem printed_tallies (m : TallyMap) (a : Address) :
    printed m (fun b t => tallyLines t b) a = tallyLines (m.tallyOf a) a := by
  unfold printed TallyMap.tallyOf
  cases m[a]? with
  | some t => rfl
  | none => rfl

theorem balanceStrings_eq {order : List (Address × CMPTally)} {m : TallyMap}
    (h : order.Perm m.toList) :
    balanceStrings order = m.toList.flatMap fun e => tallyLines e.2 e.1 := by
  unfold balanceStrings
  rw [foldl_insertIfNew_eq h]
  rfl

/-! ## Orders and issuers -/

/-- The orders of one price level. -/
def levelOrders (indexes : MdSet) : List CMPMetaDEx := indexes.toList.map Prod.snd

/-- The orders of one property. -/
def pricesOrders (prices : MdPricesMap) : List CMPMetaDEx :=
  prices.toList.flatMap fun e => levelOrders e.2

theorem metaDExOrders_congr {s s' : State}
    (h : ∀ p price key, metaDExOrderAt s p price key = metaDExOrderAt s' p price key) :
    metaDExOrders s = metaDExOrders s' := by
  have hlevel : levelOrders ∅ = [] := by simp [levelOrders, toList_empty]
  have hprices : pricesOrders ∅ = [] := by simp [pricesOrders, toList_empty]
  show (s.metadex.toList.flatMap fun e => pricesOrders e.2) =
    s'.metadex.toList.flatMap fun e => pricesOrders e.2
  refine flatMap_toList_congr (g := fun _ => pricesOrders) (f := fun _ => pricesOrders) fun p => ?_
  rw [printed_getD _ hprices, printed_getD _ hprices]
  unfold pricesOrders
  refine flatMap_toList_congr (g := fun _ => levelOrders) (f := fun _ => levelOrders)
    fun price => ?_
  rw [printed_getD _ hlevel, printed_getD _ hlevel]
  congr 1
  apply ExtTreeMap.ext_getElem?
  intro key
  have hlookup : ∀ x : State, ((((x.metadex[p]?).getD ∅)[price]?).getD ∅)[key]? =
      metaDExOrderAt x p price key := by
    intro x
    unfold metaDExOrderAt
    cases x.metadex[p]? with
    | none => simp
    | some prices =>
        cases hl : prices[price]? with
        | none => simp [hl]
        | some indexes => simp [hl]
  rw [hlookup, hlookup, h]

/-- The identifiers of an ecosystem beyond those handed out print nothing. -/
theorem propertyStrings_eq (s : State) (ecosystem n : Nat)
    (hn : s.sps.peekNextSPID ecosystem - startPropertyId ecosystem ≤ n) :
    propertyStrings s ecosystem =
      (List.range' (startPropertyId ecosystem) n).filterMap fun p =>
        (issuerIn s ecosystem p).map fun issuer => consensusLine (issuerFields p issuer) := by
  unfold propertyStrings
  rw [filterMap_range_guard _ hn]
  refine List.filterMap_congr ?_
  intro p _
  unfold issuerIn
  split
  · rw [Option.map_map]
    rfl
  · rfl

theorem propertyStrings_congr {s s' : State} {ecosystem : Nat}
    (h : ∀ p, issuerIn s ecosystem p = issuerIn s' ecosystem p) :
    propertyStrings s ecosystem = propertyStrings s' ecosystem := by
  rw [propertyStrings_eq s ecosystem _ (le_max_left _
      (s'.sps.peekNextSPID ecosystem - startPropertyId ecosystem)),
    propertyStrings_eq s' ecosystem _ (le_max_right
      (s.sps.peekNextSPID ecosystem - startPropertyId ecosystem) _)]
  simp only [h]

/-- **THE CONSENSUS HASH IS A FUNCTION OF THE ABSTRACT STATE**: two nodes that agree in balances,
    offers, accepts, orders, crowdsales and issuers hash the same strings, in whatever order their
    unordered maps are walked. -/
theorem consensusStrings_of_abstract {s s' : State} {order order' : List (Address × CMPTally)}
    (horder : order.Perm s.tallyMap.toList) (horder' : order'.Perm s'.tallyMap.toList)
    (hzero : ∀ a, ¬ s.tallyMap.HasRecord a 0) (hzero' : ∀ a, ¬ s'.tallyMap.HasRecord a 0)
    (h : SameAbstractState s s') :
    getConsensusStrings order s = getConsensusStrings order' s' := by
  have hbalances : balanceStrings order = balanceStrings order' := by
    rw [balanceStrings_eq horder, balanceStrings_eq horder']
    refine flatMap_toList_congr (g := fun b t => tallyLines t b)
      (f := fun b t => tallyLines t b) fun a => ?_
    rw [printed_tallies, printed_tallies]
    exact tallyLines_congr (hzero a) (hzero' a) a (h.balances a)
  have hoffers : offerStrings s = offerStrings s' := by
    unfold offerStrings
    rw [h.offers]
  have haccepts : acceptStrings s = acceptStrings s' := by
    unfold acceptStrings
    rw [h.accepts]
  have hcrowds : crowdStrings s = crowdStrings s' := by
    unfold crowdStrings
    rw [h.crowds]
  have horders : metaDExStrings s = metaDExStrings s' := by
    unfold metaDExStrings
    rw [metaDExOrders_congr h.orders]
  unfold getConsensusStrings
  rw [hbalances, hoffers, haccepts, horders, hcrowds,
    propertyStrings_congr (h.issuers 1 (by decide)), propertyStrings_congr (h.issuers 2 (by decide))]

/-- The funded node with traces of a history: a pending amount, a record without balances, and an
    empty price level. -/
def wornState : State :=
  { fundedState.withTally (TallyMap.update fundedLedger traderA 5 (-7) .pending).2 with
    metadex := (∅ : MdPropertiesMap).insert 1 ((∅ : MdPricesMap).insert 1 ∅) }

theorem fundedLedger_no_record (a : Address) : ¬ fundedLedger.HasRecord a 0 := by
  have hempty := TallyMap.not_hasRecord_empty a 0
  unfold fundedLedger
  rw [TallyMap.hasRecord_update, TallyMap.hasRecord_update]
  simp [hempty]

theorem consensusStrings_of_abstract_worn :
    getConsensusStrings fundedState.tallyMap.toList fundedState =
      getConsensusStrings wornState.tallyMap.toList.reverse wornState :=
  consensusStrings_of_abstract (List.Perm.refl _) (List.reverse_perm _)
    fundedLedger_no_record
    (by
      intro a h
      rcases (TallyMap.hasRecord_update _ _ _ _ _ _ _).mp h with h | ⟨-, h, -⟩
      · exact fundedLedger_no_record a h
      · cases h)
    { balances := by
        intro a p ty hty
        have hok : (TallyMap.update fundedLedger traderA 5 (-7) .pending).1 = true := by
          decide +kernel
        have hne : ty ≠ .pending := by
          rintro rfl
          revert hty
          decide
        show _ = TallyMap.money (TallyMap.update fundedLedger traderA 5 (-7) .pending).2 a p ty
        rw [(credited_update hok).money, if_neg (fun h => hne h.2.2), add_zero]
        rfl
      offers := rfl
      accepts := rfl
      orders := by
        intro p price key
        unfold metaDExOrderAt wornState
        dsimp only
        rw [getElem?_insert_eq]
        split
        · simp only [Option.bind_some, getElem?_insert_eq]
          split <;> simp [fundedState, State.fresh]
        · simp [fundedState, State.fresh]
      crowds := rfl
      issuers := fun _ _ _ => rfl }

end OmniCore
