import OmniCore.AcceptsReload
import OmniCore.MetaDExFills

/-! # MarketReload — offers, crowdsales and orders through their files

    Each table is written line by line and read back by the reader of its lines, which
    refuses a line whose place is taken. No two entries of a table have the same place, and
    every field survives the text, the participations of a crowdsale as well: the tables
    are rebuilt, except for what is never written. -/

namespace OmniCore

open Std (ExtTreeMap)
open Machine TextRec MapSum Exec

/-! ## Offers -/

/-- The offer has C++ integers. -/
structure CMPOffer.InRange (o : CMPOffer) : Prop where
  block : o.offerBlock < 2 ^ 31
  amount : IsInt64 o.offerAmountOriginal
  property : o.property < 2 ^ 32
  desired : IsInt64 o.btcDesiredOriginal
  fee : IsInt64 o.minFee
  limit : o.blocktimelimit < 2 ^ 8
  txid : o.txid < 2 ^ 256

/-- Every offer is under the key of a seller and its property. -/
def OffersOk (s : State) : Prop :=
  ∀ (key : Text) (o : CMPOffer), s.offers[key]? = some o →
    o.InRange ∧ ∃ seller, key = offerCombo seller o.property

/-- **OFFERS SURVIVE**: all lines are accepted by a node without offers, and rebuild the offers up to the
    action, which is not written. -/
def OffersReload (s node : State) : Prop :=
  ∃ node', feedLines inputMpOffersString (writeMpOffers s) { node with offers := ∅ } =
    .ok true node' ∧
    ∀ key : Text, node'.offers[key]? = (s.offers[key]?).map fun o => { o with subaction := 0 }

theorem isInt64_cast {n : Int} (h : IsInt64 n) : castInt 64 (decInt n) = some n := by
  unfold IsInt64 minInt64 maxInt64 at h
  exact castInt_decInt (by omega) (by omega)

/-- The seller is the part of the key before the hyphen. -/
theorem seller_offerCombo (seller : Address) (p : PropertyId) :
    (split (· == '-') (offerCombo seller p)).headD [] = seller.text := by
  have hp : Free (· == '-') (decNat p) := free_decNat (by
    intro c hc
    rw [beq_eq_false_iff_ne]
    rintro rfl
    exact absurd hc (by decide)) p
  have hseller : Free (· == '-') seller.text := seller.free_text (by
    intro c hc
    rw [beq_eq_false_iff_ne]
    rintro rfl
    exact absurd hc (by decide))
  have hhead : ∀ d ∈ (decNat p).head?, (d == '-') = false :=
    (joinWith_head hp (decNat_ne_nil p) : ∀ d ∈ (joinWith '-' [decNat p]).head?, (d == '-') = false)
  unfold offerCombo
  rw [split_cons hseller (by decide) hhead]
  rfl

/-- **ONE LINE OF AN OFFER** makes the offer, if its key is free. -/
theorem inputMpOffers_line {o : CMPOffer} (h : o.InRange) {seller : Address} {s : State}
    (hfree : s.offers[offerCombo seller o.property]? = none) :
    inputMpOffersString (o.saveOffer seller.text) s = .ok 0 { s with
      offers := s.offers.insert (offerCombo seller o.property) { o with subaction := 0 } } := by
  have hsplit : split isFieldMark (o.saveOffer seller.text) =
      [seller.text, decNat o.offerBlock, decInt o.offerAmountOriginal, decNat o.property,
        decInt o.btcDesiredOriginal, decNat omniPropertyBTC, decInt o.minFee,
        decNat o.blocktimelimit, txidText o.txid] := by
    refine split_line (List.cons_ne_nil _ _) ?_
    simp only [List.forall_mem_cons]
    exact ⟨isLineField_address _, isLineField_decNat _, isLineField_decInt _, isLineField_decNat _,
      isLineField_decInt _, isLineField_decNat _, isLineField_decInt _, isLineField_decNat _,
      isLineField_txidText _, fun _ ht => (List.not_mem_nil ht).elim⟩
  have hblock : castInt 32 (decNat o.offerBlock) = some (o.offerBlock : Int) := by
    have := h.block
    exact castInt_decNat (by omega)
  have hlimit : castNat 32 (decNat o.blocktimelimit) = some o.blocktimelimit := by
    have := h.limit
    exact castNat_decNat (by omega)
  have hcontains : ¬ s.offers.contains (offerCombo seller o.property) = true := by
    rw [ExtTreeMap.contains_eq_isSome_getElem?, hfree]
    exact Bool.false_ne_true
  unfold inputMpOffersString
  rw [hsplit]
  dsimp only
  rw [hblock, isInt64_cast h.amount, castNat_decNat h.property, isInt64_cast h.desired,
    castNat_decNat (by decide), isInt64_cast h.fee, hlimit]
  show (if s.offers.contains (offerCombo seller o.property) then pure (-1) else _ : ExecM Int) s = _
  rw [if_neg hcontains, uint256S_txidText h.txid, Nat.mod_eq_of_lt h.limit]
  rfl

/-- Offers survive. -/
theorem offersReload {s : State} (hok : OffersOk s) (node : State) : OffersReload s node := by
  refine feedLines_rebuilds (fun (t : State) (key : Text) => t.offers[key]?) _ _ ?_
    fun _ => ExtTreeMap.getElem?_empty
  rintro ⟨key, o⟩ he t hnone
  obtain ⟨hrange, seller, rfl⟩ := hok key o he
  refine ⟨{ t with
    offers := t.offers.insert (offerCombo seller o.property) { o with subaction := 0 } }, ?_, ?_, ?_⟩
  · rw [seller_offerCombo]
    exact inputMpOffers_line hrange hnone
  · exact (getElem?_insert_eq ..).trans (if_pos rfl)
  · intro key hne
    exact (getElem?_insert_eq ..).trans (if_neg hne.symm)

/-! ## Crowdsales -/

/-- The crowdsale has C++ integers, and every participation has a value. -/
structure CMPCrowd.InRange (c : CMPCrowd) : Prop where
  property : c.propertyId < 2 ^ 32
  nValue : IsInt64 c.nValue
  desired : c.propertyDesired < 2 ^ 32
  deadline : IsInt64 c.deadline
  earlyBird : c.earlyBird < 2 ^ 8
  percentage : c.percentage < 2 ^ 8
  uCreated : IsInt64 c.uCreated
  iCreated : IsInt64 c.iCreated
  data : ∀ (txid : Txid) (vals : List Int), c.txFundraiserData[txid]? = some vals →
    txid < 2 ^ 256 ∧ vals ≠ [] ∧ ∀ v ∈ vals, IsInt64 v

/-- All crowdsales are in range. -/
def CrowdsOk (s : State) : Prop :=
  ∀ (addr : Address) (c : CMPCrowd), s.crowds[addr]? = some c → c.InRange

/-- **CROWDSALES SURVIVE**: all lines are accepted by a node without crowdsales, and rebuild the crowdsales
    up to the transaction, which is not written. -/
def CrowdsReload (databases : CMPCrowd → List (Txid × List Int)) (s node : State) : Prop :=
  ∃ node', feedLines inputMpCrowdsaleString (writeMpCrowdsales databases s)
    { node with crowds := ∅ } = .ok true node' ∧
    ∀ addr : Address, node'.crowds[addr]? = (s.crowds[addr]?).map fun c => { c with txid := 0 }

/-- Values are read back one by one. -/
theorem mapM_values {vals : List Int} (h : ∀ v ∈ vals, IsInt64 v) :
    (vals.map decInt).mapM (fun value => lexicalCast (castInt 64 value)) = (pure vals : ExecM _) := by
  induction vals with
  | nil => rfl
  | cons v rest ih =>
      rw [List.map_cons, List.mapM_cons, isInt64_cast (h v List.mem_cons_self),
        ih fun u hu => h u (List.mem_cons_of_mem v hu)]
      rfl

/-- Values are free of every separator but their own. -/
theorem IsLineMark.free_values {p : Char → Bool} (hp : IsLineMark p) (hsemi : p ';' = false) (vals : List Int) :
    Free p (joinWith ';' (vals.map decInt)) := by
  refine free_joinWith hsemi fun t ht => ?_
  obtain ⟨v, -, rfl⟩ := List.mem_map.mp ht
  exact hp.free_decInt v

/-- Blank and comma, which separate the fields of the line. -/
theorem isLineMark_line : IsLineMark fun c => c == ' ' || c == ',' := by
  intro c hc
  rw [Bool.or_eq_true, beq_iff_eq, beq_iff_eq] at hc
  rcases hc with rfl | rfl <;> decide

/-- A participation is split into the hash and the values. -/
theorem split_participation (t : Txid) {vals : List Int} (hvals : vals ≠ []) :
    split (· == '=') (participationText (t, vals)) = [txidText t, joinWith ';' (vals.map decInt)] := by
  have hvalues := isLineMark_equals.free_values (by decide) vals
  have hhead : ∀ d ∈ (joinWith ';' (vals.map decInt)).head?, (d == '=') = false := by
    cases vals with
    | nil => exact absurd rfl hvals
    | cons v rest =>
        rw [List.map_cons]
        exact joinWith_head (isLineMark_equals.free_decInt v) (decInt_ne_nil v)
  show split (· == '=') (txidText t ++ '=' :: joinWith ';' (vals.map decInt)) = _
  rw [split_cons (isLineMark_equals.free_txidText t) (by decide) hhead, split_free hvalues]

/-- The values are split. -/
theorem split_values {vals : List Int} (hvals : vals ≠ []) :
    split (· == ';') (joinWith ';' (vals.map decInt)) = vals.map decInt := by
  refine split_joinWith (by decide) (fun h => hvals (List.map_eq_nil_iff.mp h)) ?_ ?_
  · intro t ht
    obtain ⟨v, -, rfl⟩ := List.mem_map.mp ht
    exact isLineMark_semicolon.free_decInt v
  · intro t ht
    obtain ⟨v, -, rfl⟩ := List.mem_map.mp ht
    exact decInt_ne_nil v

/-- **PARTICIPATIONS** are put into the database one after the other. -/
theorem inputFundraiserData_participations {l : List (Txid × List Int)}
    (h : ∀ e ∈ l, e.1 < 2 ^ 256 ∧ e.2 ≠ [] ∧ ∀ v ∈ e.2, IsInt64 v)
    (data : ExtTreeMap Txid (List Int)) (s : State) :
    inputFundraiserData (l.map participationText) data s =
      .ok (some (l.foldl (fun m e => m.insertIfNew e.1 e.2) data)) s := by
  induction l generalizing data with
  | nil => rfl
  | cons e rest ih =>
      obtain ⟨hhash, hvals, hrange⟩ := h e List.mem_cons_self
      rw [List.map_cons, List.foldl_cons, ← ih (fun e' he' => h e' (List.mem_cons_of_mem e he'))]
      rw [inputFundraiserData]
      rw [split_participation e.1 hvals]
      dsimp only
      rw [split_values hvals, mapM_values hrange, pure_bind, uint256S_txidText hhash]

/-- The line of a crowdsale is split into nine fields and the participations. -/
theorem split_saveCrowdSale (c : CMPCrowd) (addr : Address) (data : List (Txid × List Int)) :
    split (fun c => c == ' ' || c == ',') (c.saveCrowdSale addr.text data) =
      [addr.text, decNat c.propertyId, decInt c.nValue, decNat c.propertyDesired,
        decInt c.deadline, decNat c.earlyBird, decNat c.percentage, decInt c.uCreated,
        decInt c.iCreated] ++ data.map participationText := by
  have hmark := isLineMark_line
  have hfields : ∀ t ∈ [addr.text, decNat c.propertyId, decInt c.nValue, decNat c.propertyDesired,
      decInt c.deadline, decNat c.earlyBird, decNat c.percentage, decInt c.uCreated,
      decInt c.iCreated], Free (fun c => c == ' ' || c == ',') t ∧ t ≠ [] := by
    simp only [List.forall_mem_cons]
    exact ⟨⟨hmark.free_address addr, addr.ne_nil⟩, ⟨hmark.free_decNat _, decNat_ne_nil _⟩,
      ⟨hmark.free_decInt _, decInt_ne_nil _⟩, ⟨hmark.free_decNat _, decNat_ne_nil _⟩,
      ⟨hmark.free_decInt _, decInt_ne_nil _⟩, ⟨hmark.free_decNat _, decNat_ne_nil _⟩,
      ⟨hmark.free_decNat _, decNat_ne_nil _⟩, ⟨hmark.free_decInt _, decInt_ne_nil _⟩,
      ⟨hmark.free_decInt _, decInt_ne_nil _⟩, fun _ ht => (List.not_mem_nil ht).elim⟩
  have hentries : ∀ t ∈ data.map participationText,
      Free (fun c => c == ' ' || c == ',') t ∧ t ≠ [] := by
    intro t ht
    obtain ⟨e, -, rfl⟩ := List.mem_map.mp ht
    refine ⟨fun d hd => ?_, by simp [participationText]⟩
    rcases List.mem_append.mp hd with hd | hd
    · exact hmark.free_txidText e.1 d hd
    · rcases List.mem_cons.mp hd with rfl | hd
      · decide
      · exact hmark.free_values (by decide) e.2 d hd
  have hall := List.forall_mem_append.mpr ⟨hfields, hentries⟩
  exact split_joinWith (by decide) (by simp) (fun t ht => (hall t ht).1) fun t ht => (hall t ht).2

/-- An address is read back. -/
theorem lineAddress_text (a : Address) : lineAddress a.text = pure a := by
  unfold lineAddress
  rw [Address.ofText?_text]
  rfl

/-- **ONE LINE OF A CROWDSALE** makes the crowdsale, if its issuer has none. -/
theorem inputMpCrowdsale_line {c : CMPCrowd} (h : c.InRange) {data : List (Txid × List Int)}
    (hdata : data.Perm c.txFundraiserData.toList) {addr : Address} {s : State}
    (hfree : s.crowds[addr]? = none) :
    inputMpCrowdsaleString (c.saveCrowdSale addr.text data) s = .ok 0 { s with
      crowds := s.crowds.insert addr { c with txid := 0 } } := by
  have hentries : ∀ e ∈ data, e.1 < 2 ^ 256 ∧ e.2 ≠ [] ∧ ∀ v ∈ e.2, IsInt64 v :=
    fun e he => h.data e.1 e.2 (mem_toList_iff.mp (hdata.mem_iff.mp he))
  have hread := inputFundraiserData_participations hentries ∅ s
  rw [foldl_insertIfNew_eq hdata] at hread
  have hearly : castNat 32 (decNat c.earlyBird) = some c.earlyBird := by
    have := h.earlyBird
    exact castNat_decNat (by omega)
  have hpercentage : castNat 32 (decNat c.percentage) = some c.percentage := by
    have := h.percentage
    exact castNat_decNat (by omega)
  have hcontains : ¬ s.crowds.contains addr = true := by
    rw [ExtTreeMap.contains_eq_isSome_getElem?, hfree]
    exact Bool.false_ne_true
  unfold inputMpCrowdsaleString
  rw [split_saveCrowdSale]
  simp only [List.cons_append, List.nil_append]
  rw [castNat_decNat h.property, isInt64_cast h.nValue, castNat_decNat h.desired,
    isInt64_cast h.deadline, hearly, hpercentage, isInt64_cast h.uCreated, isInt64_cast h.iCreated]
  simp only [lexicalCast, pure_bind]
  simp only [bind, EStateM.bind]
  rw [hread]
  dsimp only
  rw [lineAddress_text]
  show (if s.crowds.contains addr then pure (-1) else _ : ExecM Int) s = _
  rw [if_neg hcontains, Nat.mod_eq_of_lt h.earlyBird, Nat.mod_eq_of_lt h.percentage]
  rfl

/-- Crowdsales survive, in whatever order their participations are written. -/
theorem crowdsReload {s : State} (hok : CrowdsOk s) {databases : CMPCrowd → List (Txid × List Int)}
    (hall : ∀ c, (databases c).Perm c.txFundraiserData.toList) (node : State) :
    CrowdsReload databases s node := by
  refine feedLines_rebuilds (fun (t : State) (addr : Address) => t.crowds[addr]?) _ _ ?_
    fun _ => ExtTreeMap.getElem?_empty
  rintro ⟨addr, c⟩ he t hnone
  refine ⟨{ t with crowds := t.crowds.insert addr { c with txid := 0 } },
    inputMpCrowdsale_line (hok addr c he) (hall c) hnone, ?_, ?_⟩
  · exact (getElem?_insert_eq ..).trans (if_pos rfl)
  · intro addr' hne
    exact (getElem?_insert_eq ..).trans (if_neg hne.symm)

/-! ## Orders -/

/-- The order has C++ integers. -/
structure CMPMetaDEx.InRange (o : CMPMetaDEx) : Prop where
  block : o.block < 2 ^ 31
  forsale : IsInt64 o.amountForsale
  property : o.property < 2 ^ 32
  desired : IsInt64 o.amountDesired
  desiredProperty : o.desiredProperty < 2 ^ 32
  subaction : o.subaction < 2 ^ 8
  idx : o.idx < 2 ^ 32
  txid : o.txid < 2 ^ 256
  remaining : IsInt64 o.amountRemaining

/-- **THE BOOK**: every order rests at its property, its price and its place in the block. -/
structure CMPMetaDEx.RestsAt (o : CMPMetaDEx) (p : PropertyId) (price : ℚ) (k : OrderKey) : Prop where
  range : o.InRange
  property : o.property = p
  price : o.unitPrice = price
  key : o.key = k

/-- Every order is where it belongs. -/
def OrdersOk (s : State) : Prop :=
  ∀ p price k (o : CMPMetaDEx), (s.mdLevel p price)[k]? = some o → o.RestsAt p price k

/-- **ORDERS SURVIVE**: all lines are accepted by a node without orders, and rebuild every price level. -/
def OrdersReload (s node : State) : Prop :=
  ∃ node', feedLines inputMpMdexorderString (writeMpMetadex s) { node with metadex := ∅ } =
    .ok true node' ∧ ∀ p price, node'.mdLevel p price = s.mdLevel p price

/-- The order at a place of the book. -/
def State.mdOrderAt (s : State) (place : PropertyId × ℚ × OrderKey) : Option CMPMetaDEx :=
  (s.mdLevel place.1 place.2.1)[place.2.2]?

/-- Where an order rests. -/
def CMPMetaDEx.place (o : CMPMetaDEx) : PropertyId × ℚ × OrderKey := (o.property, o.unitPrice, o.key)

/-- **ONE LINE OF AN ORDER** puts the order into the book, if its place is free. -/
theorem inputMpMdexorder_line {o : CMPMetaDEx} (h : o.InRange) {s : State}
    (hfree : s.mdOrderAt o.place = none) :
    inputMpMdexorderString o.saveOffer s = .ok 0 (s.setMdLevel o.property o.unitPrice
      ((s.mdLevel o.property o.unitPrice).insert o.key o)) := by
  have hsplit : split isFieldMark o.saveOffer =
      [o.addr.text, decNat o.block, decInt o.amountForsale, decNat o.property,
        decInt o.amountDesired, decNat o.desiredProperty, decNat o.subaction, decNat o.idx,
        txidText o.txid, decInt o.amountRemaining] := by
    refine split_line (List.cons_ne_nil _ _) ?_
    simp only [List.forall_mem_cons]
    exact ⟨isLineField_address _, isLineField_decNat _, isLineField_decInt _, isLineField_decNat _,
      isLineField_decInt _, isLineField_decNat _, isLineField_decNat _, isLineField_decNat _,
      isLineField_txidText _, isLineField_decInt _, fun _ ht => (List.not_mem_nil ht).elim⟩
  have hblock : castInt 32 (decNat o.block) = some (o.block : Int) := by
    have := h.block
    exact castInt_decNat (by omega)
  have hsubaction : castNat 32 (decNat o.subaction) = some o.subaction := by
    have := h.subaction
    exact castNat_decNat (by omega)
  have hcontains : ¬ (s.mdLevel o.property o.unitPrice).contains o.key = true := by
    rw [ExtTreeMap.contains_eq_isSome_getElem?]
    show ¬ (s.mdOrderAt o.place).isSome = true
    rw [hfree]
    exact Bool.false_ne_true
  have hinsert : metaDExInsert o s = .ok true (s.setMdLevel o.property o.unitPrice
      ((s.mdLevel o.property o.unitPrice).insert o.key o)) := by
    show (if (s.mdLevel o.property o.unitPrice).contains o.key then pure false else _ : ExecM Bool) s = _
    rw [if_neg hcontains]
    rfl
  unfold inputMpMdexorderString
  rw [hsplit]
  dsimp only
  rw [hblock, isInt64_cast h.forsale, castNat_decNat h.property, isInt64_cast h.desired,
    castNat_decNat h.desiredProperty, hsubaction, castNat_decNat h.idx, isInt64_cast h.remaining]
  simp only [lexicalCast, pure_bind]
  rw [lineAddress_text, pure_bind, uint256S_txidText h.txid, Nat.mod_eq_of_lt h.subaction]
  simp only [Int.toNat_natCast, bind, EStateM.bind]
  rw [hinsert]
  rfl

/-- The book with one more order. -/
theorem mdOrderAt_insert (s : State) (o : CMPMetaDEx) (place : PropertyId × ℚ × OrderKey) :
    (s.setMdLevel o.property o.unitPrice
      ((s.mdLevel o.property o.unitPrice).insert o.key o)).mdOrderAt place =
      if o.place = place then some o else s.mdOrderAt place := by
  obtain ⟨p, price, k⟩ := place
  unfold State.mdOrderAt CMPMetaDEx.place
  dsimp only
  rw [mdLevel_setMdLevel]
  by_cases hlevel : o.property = p ∧ o.unitPrice = price
  · obtain ⟨rfl, rfl⟩ := hlevel
    rw [if_pos ⟨rfl, rfl⟩, getElem?_insert_eq]
    by_cases hk : o.key = k
    · rw [if_pos hk, if_pos (by rw [hk])]
    · rw [if_neg hk, if_neg fun h => hk (congrArg (fun place => place.2.2) h)]
  · rw [if_neg hlevel, if_neg fun h => hlevel ⟨congrArg Prod.fst h, congrArg (fun place => place.2.1) h⟩]

theorem metaDExOrders_eq (s : State) : metaDExOrders s = s.mdOrders.map MdPlaced.order := by
  unfold metaDExOrders State.mdOrders
  simp only [List.map_flatMap, List.map_map]
  rfl

/-- No two orders have the same place. -/
theorem nodup_places {s : State} (hok : OrdersOk s) :
    ((metaDExOrders s).map CMPMetaDEx.place).Nodup := by
  have hplaces : (metaDExOrders s).map CMPMetaDEx.place =
      s.mdOrders.map fun e => (e.property, e.price, e.key) := by
    rw [metaDExOrders_eq, List.map_map]
    refine List.map_congr_left fun e he => ?_
    have hrests := hok _ _ _ _ (mem_mdOrders.mp he)
    show (e.order.property, e.order.unitPrice, e.order.key) = _
    rw [hrests.property, hrests.price, hrests.key]
  have hnested : (s.mdOrders.map fun e => (e.property, e.price, e.key)) =
      s.metadex.toList.flatMap fun prices => (prices.2.toList.flatMap fun indexes =>
        indexes.2.keys.map (Prod.mk indexes.1)).map (Prod.mk prices.1) := by
    unfold State.mdOrders
    simp only [List.map_flatMap, List.map_map, ← ExtTreeMap.map_fst_toList_eq_keys]
    rfl
  rw [hplaces, hnested]
  have hlevels : ∀ prices : MdPricesMap, (prices.toList.flatMap fun indexes =>
      indexes.2.keys.map (Prod.mk indexes.1)).Nodup :=
    fun prices => nodup_entries (fun level : MdSet => level.nodup_keys) prices
  exact nodup_entries hlevels s.metadex

/-- Orders survive. -/
theorem ordersReload {s : State} (hok : OrdersOk s) (node : State) : OrdersReload s node := by
  have hrests : ∀ o ∈ metaDExOrders s, ∃ e ∈ s.mdOrders, e.order = o ∧
      o.RestsAt e.property e.price e.key := by
    intro o ho
    rw [metaDExOrders_eq] at ho
    obtain ⟨e, he, rfl⟩ := List.mem_map.mp ho
    exact ⟨e, he, rfl, hok _ _ _ _ (mem_mdOrders.mp he)⟩
  have hread : ∀ o ∈ metaDExOrders s, ∀ t : State, t.mdOrderAt o.place = none → ∃ t',
      inputMpMdexorderString o.saveOffer t = .ok 0 t' ∧ t'.mdOrderAt o.place = some o ∧
        ∀ place, place ≠ o.place → t'.mdOrderAt place = t.mdOrderAt place := by
    intro o ho t hnone
    obtain ⟨e, -, -, hrange⟩ := hrests o ho
    refine ⟨_, inputMpMdexorder_line hrange.range hnone, ?_, ?_⟩
    · rw [mdOrderAt_insert, if_pos rfl]
    · intro place hne
      rw [mdOrderAt_insert, if_neg hne.symm]
  have habsent : ∀ place, ({ node with metadex := ∅ } : State).mdOrderAt place = none := by
    intro place
    simp [State.mdOrderAt, State.mdLevel, State.mdPrices]
  obtain ⟨node', hfeed, hall, hframe⟩ := feedLines_inserts State.mdOrderAt CMPMetaDEx.saveOffer
    CMPMetaDEx.place id hread (nodup_places hok) fun o _ => habsent o.place
  refine ⟨node', hfeed, fun p price => ExtTreeMap.ext_getElem? fun k => ?_⟩
  cases hk : (s.mdLevel p price)[k]? with
  | some o =>
      have hplace := hok p price k o hk
      have hmem : o ∈ metaDExOrders s := by
        rw [metaDExOrders_eq]
        exact List.mem_map.mpr ⟨⟨p, price, k, o⟩, mem_mdOrders.mpr hk, rfl⟩
      have hentry := hall o hmem
      unfold CMPMetaDEx.place at hentry
      rw [hplace.property, hplace.price, hplace.key] at hentry
      exact hentry
  | none =>
      refine (hframe (p, price, k) fun hmem => ?_).trans (habsent (p, price, k))
      obtain ⟨o, ho, heq⟩ := List.mem_map.mp hmem
      obtain ⟨e, he, heqo, hplace⟩ := hrests o ho
      unfold CMPMetaDEx.place at heq
      rw [hplace.property, hplace.price, hplace.key] at heq
      have hstored := mem_mdOrders.mp he
      cases heq
      rw [hk] at hstored
      cases hstored

/-- **OFFERS, CROWDSALES AND ORDERS SURVIVE** through their files. -/
theorem marketsReload {s : State} (hoffers : OffersOk s) (hcrowds : CrowdsOk s) (horders : OrdersOk s)
    {databases : CMPCrowd → List (Txid × List Int)}
    (hall : ∀ c, (databases c).Perm c.txFundraiserData.toList) (node : State) :
    OffersReload s node ∧ CrowdsReload databases s node ∧ OrdersReload s node :=
  ⟨offersReload hoffers node, crowdsReload hcrowds hall node, ordersReload horders node⟩

/-! ## A node with one of each -/

/-- `A` offers 50 OMNI for 2000 satoshi. -/
def savedOffer : CMPOffer :=
  { offerBlock := 10, offerAmountOriginal := 50, property := 1, btcDesiredOriginal := 2000
    minFee := 10, blocktimelimit := 15, txid := 31, subaction := 1 }

/-- A crowdsale of property 3 with two participations. By their bytes, the second hash comes first. -/
def savedCrowd : CMPCrowd :=
  { propertyId := 3, nValue := 100, propertyDesired := 1, deadline := 1500000000, earlyBird := 6
    percentage := 10, uCreated := 200, iCreated := 20, txid := 32
    txFundraiserData := ((∅ : ExtTreeMap Txid (List Int)).insert 33
      [2, 1400000000, 200, 20]).insert 256 [1, 1400000600, 100, 10] }

/-- `B` sells 40 of property 3 for 80 OMNI, and 30 are left. -/
def savedOrder : CMPMetaDEx :=
  { addr := traderB, block := 11, txid := 34, idx := 1, property := 3, amountForsale := 40
    desiredProperty := 1, amountDesired := 80, amountRemaining := 30, subaction := 1 }

/-- A node with an offer, a crowdsale and an order. -/
def savedMarkets : State :=
  let s : State := { State.fresh regTestParams with
    offers := (∅ : ExtTreeMap Text CMPOffer).insert (offerCombo traderA 1) savedOffer
    crowds := (∅ : ExtTreeMap Address CMPCrowd).insert traderA savedCrowd }
  s.setMdLevel savedOrder.property savedOrder.unitPrice
    ((s.mdLevel savedOrder.property savedOrder.unitPrice).insert savedOrder.key savedOrder)

/-- Its tables come back. -/
theorem savedMarkets_reload : OffersReload savedMarkets (State.fresh regTestParams) ∧
    CrowdsReload (fun c => c.txFundraiserData.toList.reverse) savedMarkets
      (State.fresh regTestParams) ∧
    OrdersReload savedMarkets (State.fresh regTestParams) := by
  refine marketsReload ?_ ?_ ?_ (fun _ => List.reverse_perm _) _
  · intro key o hkey
    have hget : (if offerCombo traderA 1 = key then some savedOffer
        else (∅ : ExtTreeMap Text CMPOffer)[key]?) = some o := (getElem?_insert_eq ..).symm.trans hkey
    split at hget
    · next heq =>
        cases hget
        exact ⟨⟨by decide, by decide, by decide, by decide, by decide, by decide, by decide⟩,
          traderA, heq.symm⟩
    · rw [ExtTreeMap.getElem?_empty] at hget
      cases hget
  · intro addr c hkey
    have hget : (if traderA = addr then some savedCrowd
        else (∅ : ExtTreeMap Address CMPCrowd)[addr]?) = some c := (getElem?_insert_eq ..).symm.trans hkey
    split at hget
    · cases hget
      refine ⟨by decide, by decide, by decide, by decide, by decide, by decide, by decide,
        by decide, fun txid vals hvals => ?_⟩
      unfold savedCrowd at hvals
      dsimp only at hvals
      rw [getElem?_insert_eq, getElem?_insert_eq, ExtTreeMap.getElem?_empty] at hvals
      split at hvals
      · next heq =>
          cases hvals
          subst heq
          exact ⟨by decide, by decide, by decide⟩
      · split at hvals
        · next heq =>
            cases hvals
            subst heq
            exact ⟨by decide, by decide, by decide⟩
        · cases hvals
    · rw [ExtTreeMap.getElem?_empty] at hget
      cases hget
  · intro p price k o ho
    have hget : (if savedOrder.place = (p, price, k) then some savedOrder else none) = some o :=
      (mdOrderAt_insert _ savedOrder (p, price, k)).symm.trans ho
    split at hget
    · next heq =>
        cases hget
        cases heq
        exact ⟨⟨by decide, by decide, by decide, by decide, by decide, by decide, by decide,
          by decide, by decide⟩, rfl, rfl, rfl⟩
    · cases hget

end OmniCore
