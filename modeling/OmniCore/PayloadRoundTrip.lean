import OmniCore.Payload

/-! # PayloadRoundTrip — what is created is what is parsed

    A payload lies at the start of the packet, and each of its parts at an offset that
    follows from the lengths of the parts before it. Every parser finds its fields at the
    offsets where the creation function put them, on machines of any byte order. -/

namespace OmniCore

open TextRec Exec Wire

/-! ## Reading what a packet holds -/

section Reading

variable {pkt : Packet} {offset : Nat} {E : Halt → ParseState → Prop} {s : ParseState}

theorem wp_copyBytes {x : List UInt8} {Q : List UInt8 → ParseState → Prop}
    (h : Holds pkt.pkt offset x) (hQ : Q x ⟨s.tx, max s.fieldEnd (offset + x.length)⟩) :
    wp (copyBytes pkt offset x.length) Q E s := by
  unfold copyBytes
  have hle := h.le
  rw [pkt.length_pkt] at hle
  rw [if_pos hle, wp_bind, wp_modify, wp_pure, h.slice_eq]
  exact hQ

section Bind

variable {α : Type} {Q : α → ParseState → Prop}

theorem wp_read8 {v : UInt8} {k : UInt8 → ParseM α} (h : Holds pkt.pkt offset [v])
    (hk : ∀ e, wp (k v) Q E ⟨s.tx, e⟩) : wp (read8 pkt offset >>= k) Q E s := by
  unfold read8
  rw [wp_bind, wp_bind]
  refine wp_copyBytes (x := [v]) h ?_
  rw [wp_pure]
  exact hk _

theorem wp_read16 {o : ByteOrder} {v : UInt16} {k : UInt16 → ParseM α}
    (h : Holds pkt.pkt offset (bytes16 .big v)) (hk : ∀ e, wp (k v) Q E ⟨s.tx, e⟩) :
    wp (read16 o pkt offset >>= k) Q E s := by
  unfold read16
  rw [wp_bind, wp_bind]
  refine wp_copyBytes (x := bytes16 .big v) h ?_
  rw [wp_pure, swap_word16]
  exact hk _

theorem wp_read32 {o : ByteOrder} {v : UInt32} {k : UInt32 → ParseM α}
    (h : Holds pkt.pkt offset (bytes32 .big v)) (hk : ∀ e, wp (k v) Q E ⟨s.tx, e⟩) :
    wp (read32 o pkt offset >>= k) Q E s := by
  unfold read32
  rw [wp_bind, wp_bind]
  refine wp_copyBytes (x := bytes32 .big v) h ?_
  rw [wp_pure, swap_word32]
  exact hk _

theorem wp_read64 {o : ByteOrder} {v : UInt64} {k : UInt64 → ParseM α}
    (h : Holds pkt.pkt offset (bytes64 .big v)) (hk : ∀ e, wp (k v) Q E ⟨s.tx, e⟩) :
    wp (read64 o pkt offset >>= k) Q E s := by
  unfold read64
  rw [wp_bind, wp_bind]
  refine wp_copyBytes (x := bytes64 .big v) h ?_
  rw [wp_pure, swap_word64]
  exact hk _

theorem wp_readString {str : List UInt8} {k : List UInt8 → ParseM α}
    (h : Holds pkt.pkt offset (str ++ [0])) (hstr : 0 ∉ str) (hk : ∀ e, wp (k str) Q E ⟨s.tx, e⟩) :
    wp (readString pkt offset >>= k) Q E s := by
  unfold readString
  have hle := h.le
  rw [pkt.length_pkt, List.length_append, List.length_singleton] at hle
  rw [h.cString_eq hstr]
  dsimp only
  rw [if_pos (by omega), wp_bind, wp_bind, wp_modify, wp_pure]
  exact hk _

theorem wp_setFields {f : CMPTransaction → CMPTransaction} {k : Unit → ParseM α}
    (hk : wp (k ()) Q E ⟨f s.tx, s.fieldEnd⟩) : wp (setFields f >>= k) Q E s := by
  unfold setFields
  rw [wp_bind, wp_modify]
  exact hk

theorem wp_liftParse {x : Except Halt α} {a : α} (hx : x = .ok a) (hQ : Q a s) :
    wp (liftParse x) Q E s := by
  rw [hx]
  exact (wp_pure _ _ _ _).mpr hQ

/-- Texts that lie one behind the other are all read. -/
theorem wp_readStrings (strs : List (List UInt8)) {k : List (List UInt8) × Nat → ParseM α}
    (h : Holds pkt.pkt offset (strs.flatMap fun str => str ++ [0])) (hstrs : ∀ str ∈ strs, 0 ∉ str)
    (hk : ∀ e, wp (k (strs, offset + (strs.flatMap fun str => str ++ [0]).length)) Q E ⟨s.tx, e⟩) :
    wp (readStrings pkt strs.length offset >>= k) Q E s := by
  induction strs generalizing offset s k with
  | nil =>
      show wp (pure ([], offset) >>= k) Q E s
      rw [wp_bind, wp_pure]
      exact hk _
  | cons str strs ih =>
      rw [List.flatMap_cons, holds_append, List.length_append, List.length_singleton] at h
      show wp ((readString pkt offset >>= fun str' =>
        readStrings pkt strs.length (offset + (str'.length + 1)) >>= fun r =>
          pure (str' :: r.1, r.2)) >>= k) Q E s
      rw [bind_assoc]
      refine wp_readString h.1 (hstrs str (by simp)) fun e => ?_
      rw [bind_assoc]
      refine ih h.2 (fun x hx => hstrs x (by simp [hx])) fun e => ?_
      rw [pure_bind]
      have hend : offset + (str.length + 1) + (strs.flatMap fun str => str ++ [0]).length =
          offset + ((str :: strs).flatMap fun str => str ++ [0]).length := by
        simp
        omega
      rw [hend]
      exact hk _

end Bind

end Reading

/-! ## The parsers that several types share -/

section Families

variable {o : ByteOrder} {params : ChainParams} {pkt : Packet} {E : Halt → ParseState → Prop}
  {s : ParseState} {Q : Bool → ParseState → Prop}

theorem wp_interpretProperty {p : UInt32} (hsize : 8 ≤ pkt.pktSize)
    (hp : Holds pkt.pkt 4 (bytes32 .big p)) (hQ : ∀ e, Q true ⟨{ s.tx with property := p }, e⟩) :
    wp (interpretProperty o pkt) Q E s := by
  unfold interpretProperty
  rw [if_neg (by omega)]
  refine wp_read32 hp fun e => wp_setFields ?_
  exact (wp_pure _ _ _ _).mpr (hQ _)

theorem wp_interpretAmount {p : UInt32} {n : UInt64} (hsize : 16 ≤ pkt.pktSize)
    (hp : Holds pkt.pkt 4 (bytes32 .big p)) (hn : Holds pkt.pkt 8 (bytes64 .big n))
    (hQ : ∀ e, Q true ⟨amountFields p n s.tx, e⟩) : wp (interpretAmount o pkt) Q E s := by
  unfold interpretAmount
  rw [if_neg (by omega)]
  refine wp_read32 hp fun e => wp_read64 hn fun e => wp_setFields ?_
  exact (wp_pure _ _ _ _).mpr (hQ _)

theorem wp_interpretPair {a : OrderArgs} {action : UInt8} (hsize : 28 ≤ pkt.pktSize)
    (hp : Holds pkt.pkt 4 (bytes32 .big a.propertyIdForSale))
    (hn : Holds pkt.pkt 8 (bytes64 .big a.amountForSale))
    (hd : Holds pkt.pkt 16 (bytes32 .big a.propertyIdDesired))
    (hm : Holds pkt.pkt 20 (bytes64 .big a.amountDesired))
    (hQ : ∀ e, Q true ⟨{ a.fields s.tx with action := action }, e⟩) :
    wp (interpretPair o pkt action) Q E s := by
  unfold interpretPair
  rw [if_neg (by omega)]
  refine wp_read32 hp fun e => wp_read64 hn fun e => wp_read32 hd fun e => wp_read64 hm fun e =>
    wp_setFields ?_
  exact (wp_pure _ _ _ _).mpr (hQ _)

theorem wp_interpretCancelEcosystem {eco : UInt8} (hsize : 5 ≤ pkt.pktSize)
    (he : Holds pkt.pkt 4 [eco]) (hQ : ∀ e, Q true ⟨cancelFields eco s.tx, e⟩) :
    wp (interpretCancelEcosystem pkt) Q E s := by
  unfold interpretCancelEcosystem
  rw [if_neg (by omega)]
  refine wp_read8 he fun e => wp_setFields ?_
  exact (wp_pure _ _ _ _).mpr (hQ _)

theorem wp_interpretContractOrder {a : OrderArgs} {price : UInt64} {action : UInt8}
    {f : CMPTransaction → CMPTransaction} (hsize : 33 ≤ pkt.pktSize)
    (hp : Holds pkt.pkt 4 (bytes32 .big a.propertyIdForSale))
    (hn : Holds pkt.pkt 8 (bytes64 .big a.amountForSale))
    (hd : Holds pkt.pkt 16 (bytes32 .big a.propertyIdDesired))
    (hm : Holds pkt.pkt 20 (bytes64 .big a.amountDesired))
    (hprice : Holds pkt.pkt 28 (bytes64 .big price)) (haction : Holds pkt.pkt 36 [action])
    (hQ : ∀ e, Q true
      ⟨f { a.fields s.tx with effectivePrice := price, tradingAction := action }, e⟩) :
    wp (interpretContractOrder o pkt f) Q E s := by
  unfold interpretContractOrder
  rw [if_neg (by omega)]
  refine wp_read32 hp fun e => wp_read64 hn fun e => wp_read32 hd fun e => wp_read64 hm fun e =>
    wp_read64 hprice fun e => wp_read8 haction fun e => wp_setFields ?_
  exact (wp_pure _ _ _ _).mpr (hQ _)

theorem wp_interpretVirtualReference {p : UInt32} {n : UInt64} {version : UInt8}
    {hash160 : List UInt8} {a : Address} (hsize : 37 ≤ pkt.pktSize)
    (hp : Holds pkt.pkt 4 (bytes32 .big p)) (hn : Holds pkt.pkt 8 (bytes64 .big n))
    (hversion : Holds pkt.pkt 16 [version]) (hhash : Holds pkt.pkt 17 hash160)
    (hlen : hash160.length = 20) (haddr : hashToAddress params version hash160 = .ok a.text)
    (hvalid : isValidAddress params a.text = .ok true)
    (hQ : ∀ e, Q true ⟨{ amountFields p n s.tx with receiver := some a }, e⟩) :
    wp (interpretVirtualReference o params pkt) Q E s := by
  unfold interpretVirtualReference
  rw [if_neg (by omega)]
  refine wp_read32 hp fun e => wp_read64 hn fun e => wp_setFields (wp_read8 hversion fun e => ?_)
  rw [← hlen, wp_bind]
  refine wp_copyBytes hhash ?_
  rw [wp_bind]
  refine wp_liftParse haddr (wp_setFields ?_)
  rw [Address.ofText?_text, if_neg (by simpa using a.ne_nil)]
  exact wp_liftParse hvalid (hQ _)

/-- A text is sent with a zero behind it. -/
theorem pushString_eq (str : List UInt8) : pushString str = str.take 255 ++ [0] := by
  unfold pushString
  by_cases h : 255 < str.length
  · rw [if_pos h]
  · rw [if_neg h, List.take_of_length_le (not_lt.mp h)]

theorem flatMap_pushString (strs : List (List UInt8)) :
    strs.flatMap pushString = (strs.map (List.take 255)).flatMap fun str => str ++ [0] := by
  rw [List.flatMap_map]
  exact List.flatMap_congr fun str _ => pushString_eq str

theorem copyString_nil (str : List UInt8) : copyString [] (str.take 255) = fieldText str := by
  unfold copyString fieldText spStringFieldLen
  rw [List.drop_nil, List.append_nil, List.take_take]
  rfl

/-- A transaction whose texts were not written yet. -/
structure CMPTransaction.Clean (tx : CMPTransaction) : Prop where
  category : tx.category = []
  subcategory : tx.subcategory = []
  name : tx.name = []
  url : tx.url = []
  data : tx.data = []
  alertText : tx.alertText = []

/-- The fields of a property are read, and the pointer is behind them. -/
theorem wp_readPropertyHeader {a : PropertyArgs} {α : Type} {R : α → ParseState → Prop}
    {k : Nat → ParseM α} (hclean : s.tx.Clean) (he : Holds pkt.pkt 4 [a.ecosystem])
    (htype : Holds pkt.pkt 5 (bytes16 .big a.propertyType))
    (hprev : Holds pkt.pkt 7 (bytes32 .big a.previousPropertyId))
    (hstrs : Holds pkt.pkt 11 (a.texts.flatMap pushString)) (hfree : ∀ str ∈ a.texts, 0 ∉ str)
    (hk : ∀ e, wp (k (11 + (a.texts.flatMap pushString).length)) R E ⟨a.fields s.tx, e⟩) :
    wp (readPropertyHeader o pkt >>= k) R E s := by
  unfold readPropertyHeader
  rw [bind_assoc]
  refine wp_read8 he fun e => ?_
  rw [bind_assoc]
  refine wp_read16 htype fun e => ?_
  rw [bind_assoc]
  refine wp_read32 hprev fun e => ?_
  rw [bind_assoc]
  rw [flatMap_pushString] at hstrs hk
  have hcut : ∀ str ∈ a.texts.map (List.take 255), 0 ∉ str := by
    intro str hstr hzero
    obtain ⟨full, hfull, rfl⟩ := List.mem_map.mp hstr
    exact hfree full hfull (List.mem_of_mem_take hzero)
  refine wp_readStrings (a.texts.map (List.take 255)) hstrs hcut fun e => ?_
  rw [bind_assoc]
  refine wp_setFields ?_
  rw [pure_bind]
  have hfields : { s.tx with
      ecosystem := a.ecosystem, propType := a.propertyType, prevPropId := a.previousPropertyId
      category := copyString s.tx.category (a.category.take 255)
      subcategory := copyString s.tx.subcategory (a.subcategory.take 255)
      name := copyString s.tx.name (a.name.take 255)
      url := copyString s.tx.url (a.url.take 255)
      data := copyString s.tx.data (a.data.take 255) } = a.fields s.tx := by
    rw [hclean.category, hclean.subcategory, hclean.name, hclean.url, hclean.data]
    simp only [copyString_nil]
    rfl
  exact hfields ▸ hk _

theorem wp_readCrowdsaleTerms {c : CrowdsaleArgs} {p : Nat} {α : Type} {R : α → ParseState → Prop}
    {k : Unit → ParseM α} (hd : Holds pkt.pkt p (bytes32 .big c.propertyIdDesired))
    (hn : Holds pkt.pkt (p + 4) (bytes64 .big c.amountPerUnit))
    (hdeadline : Holds pkt.pkt (p + 12) (bytes64 .big c.deadline))
    (hearly : Holds pkt.pkt (p + 20) [c.earlyBonus])
    (hpercent : Holds pkt.pkt (p + 21) [c.issuerPercentage])
    (hk : ∀ e, wp (k ()) R E ⟨c.fields s.tx, e⟩) :
    wp (readCrowdsaleTerms o pkt p >>= k) R E s := by
  unfold readCrowdsaleTerms
  rw [bind_assoc]
  refine wp_read32 hd fun e => ?_
  rw [bind_assoc]
  refine wp_read64 hn fun e => ?_
  rw [bind_assoc]
  refine wp_read64 hdeadline fun e => ?_
  rw [bind_assoc]
  refine wp_read8 hearly fun e => ?_
  rw [bind_assoc]
  refine wp_read8 hpercent fun e => ?_
  exact wp_setFields (hk _)

end Families

/-! ## The round trip -/

/-- What `interpretTransaction` does with a header. -/
theorem wp_interpretTransaction {o : ByteOrder} {params : ChainParams} {pkt : Packet}
    {E : Halt → ParseState → Prop} {s : ParseState} {Q : Bool → ParseState → Prop}
    {version type : UInt16} (hsize : 4 ≤ pkt.pktSize) (hv : Holds pkt.pkt 0 (bytes16 .big version))
    (ht : Holds pkt.pkt 2 (bytes16 .big type))
    (hQ : ∀ e, wp (interpretType o params pkt type) Q E ⟨{ s.tx with version, type }, e⟩) :
    wp (interpretTransaction o params pkt) Q E s := by
  unfold interpretTransaction interpretTransactionType
  rw [if_neg (by omega), bind_assoc]
  refine wp_read16 hv fun e => ?_
  rw [bind_assoc]
  refine wp_read16 ht fun e => ?_
  rw [bind_assoc]
  refine wp_setFields ?_
  rw [pure_bind, if_pos rfl, wp_bind, wp_get]
  exact hQ _

/-- The packet carries a payload: it lies at the start of the buffer, and its size is known. -/
structure Packet.Carries (pkt : Packet) (payload : List UInt8) : Prop where
  holds : Holds pkt.pkt 0 payload
  size : pkt.pktSize = payload.length

/-- A payload that fits into the buffer is carried by its packet. -/
theorem Packet.ofPayload_carries {payload : List UInt8} (h : payload.length ≤ pktBufferSize) :
    (Packet.ofPayload payload).Carries payload := by
  refine ⟨?_, Nat.min_eq_left h⟩
  show Holds (payload.take pktBufferSize ++ _) 0 payload
  rw [List.take_of_length_le h]
  exact holds_start _ _

section RoundTrip

variable {o o' : ByteOrder} {params : ChainParams} {pkt : Packet} {tx : CMPTransaction}

theorem push16_eq (v : UInt16) : push16 o v = bytes16 .big v := bytes16_swap o v

theorem push32_eq (v : UInt32) : push32 o v = bytes32 .big v := bytes32_swap o v

theorem push64_eq (v : UInt64) : push64 o v = bytes64 .big v := bytes64_swap o v

/-- The packet is parsed as the transaction `tx'`. -/
def Parses (o' : ByteOrder) (params : ChainParams) (pkt : Packet) (tx tx' : CMPTransaction) : Prop :=
  wp (interpretTransaction o' params pkt) (fun ok s' => ok = true ∧ s'.tx = tx')
    (fun _ _ => False) ⟨tx, 0⟩

theorem amount_parses {type : UInt16} {p : UInt32} {n : UInt64}
    (htype : interpretType o' params pkt type = interpretAmount o' pkt)
    (h : Holds pkt.pkt 0 (pushHeader o 0 type ++ push32 o p ++ push64 o n))
    (hsize : 16 ≤ pkt.pktSize) :
    Parses o' params pkt tx (amountFields p n { tx with version := 0, type := type }) := by
  simp only [pushHeader, push16_eq, push32_eq, push64_eq, holds_append, List.length_append,
    length_bytes16, length_bytes32, Nat.reduceAdd] at h
  obtain ⟨⟨⟨hv, ht⟩, hp⟩, hn⟩ := h
  refine wp_interpretTransaction (by omega) hv ht fun e => ?_
  rw [htype]
  exact wp_interpretAmount hsize hp hn fun e => ⟨rfl, rfl⟩

theorem property_parses {type : UInt16} {p : UInt32}
    (htype : interpretType o' params pkt type = interpretProperty o' pkt)
    (h : pkt.Carries (pushPropertyOnly o type p)) :
    Parses o' params pkt tx { tx with version := 0, type := type, property := p } := by
  obtain ⟨h, hsize⟩ := h
  simp only [pushPropertyOnly, pushHeader, push16_eq, push32_eq, holds_append, List.length_append,
    length_bytes16, length_bytes32, Nat.reduceAdd] at h hsize
  obtain ⟨⟨hv, ht⟩, hp⟩ := h
  refine wp_interpretTransaction (by omega) hv ht fun e => ?_
  rw [htype]
  exact wp_interpretProperty (by omega) hp fun e => ⟨rfl, rfl⟩

theorem memo_parses {type : UInt16} {p : UInt32} {n : UInt64} {memo : List UInt8}
    (htype : interpretType o' params pkt type = interpretAmount o' pkt)
    (h : pkt.Carries (pushMemo o type p n memo)) :
    Parses o' params pkt tx (amountFields p n { tx with version := 0, type := type }) := by
  obtain ⟨h, hsize⟩ := h
  -- the memo stands behind what is parsed
  refine amount_parses htype (holds_append.mp h).1 ?_
  rw [hsize]
  simp only [pushMemo, pushHeader, push16_eq, push32_eq, push64_eq, List.length_append,
    length_bytes16, length_bytes32, length_bytes64]
  omega

theorem pair_parses {type : UInt16} {a : OrderArgs} {action : UInt8}
    (htype : interpretType o' params pkt type = interpretPair o' pkt action)
    (h : pkt.Carries (pushPair o type a.propertyIdForSale a.amountForSale a.propertyIdDesired
      a.amountDesired)) :
    Parses o' params pkt tx
      { a.fields { tx with version := 0, type := type } with action := action } := by
  obtain ⟨h, hsize⟩ := h
  simp only [pushPair, pushHeader, push16_eq, push32_eq, push64_eq, holds_append, List.length_append,
    length_bytes16, length_bytes32, length_bytes64, Nat.reduceAdd] at h hsize
  obtain ⟨⟨⟨⟨⟨hv, ht⟩, hp⟩, hn⟩, hd⟩, hm⟩ := h
  refine wp_interpretTransaction (by omega) hv ht fun e => ?_
  rw [htype]
  exact wp_interpretPair (by omega) hp hn hd hm fun e => ⟨rfl, rfl⟩

theorem contractOrder_parses {type : UInt16} {a : OrderArgs} {price : UInt64} {action : UInt8}
    {f : CMPTransaction → CMPTransaction}
    (htype : interpretType o' params pkt type = interpretContractOrder o' pkt f)
    (h : pkt.Carries (pushContractOrder o type a.propertyIdForSale a.amountForSale
      a.propertyIdDesired a.amountDesired price action)) :
    Parses o' params pkt tx (f { a.fields { tx with version := 0, type := type } with
      effectivePrice := price, tradingAction := action }) := by
  obtain ⟨h, hsize⟩ := h
  simp only [pushContractOrder, pushPair, pushHeader, push16_eq, push32_eq, push64_eq, holds_append,
    List.length_append, length_bytes16, length_bytes32, length_bytes64, List.length_singleton,
    Nat.reduceAdd] at h hsize
  obtain ⟨⟨⟨⟨⟨⟨⟨hv, ht⟩, hp⟩, hn⟩, hd⟩, hm⟩, hprice⟩, haction⟩ := h
  refine wp_interpretTransaction (by omega) hv ht fun e => ?_
  rw [htype]
  exact wp_interpretContractOrder (by omega) hp hn hd hm hprice haction fun e => ⟨rfl, rfl⟩

theorem cancelEcosystem_parses {type : UInt16} {eco : UInt8}
    (htype : interpretType o' params pkt type = interpretCancelEcosystem pkt)
    (h : pkt.Carries (pushHeader o 0 type ++ [eco])) :
    Parses o' params pkt tx (cancelFields eco { tx with version := 0, type := type }) := by
  obtain ⟨h, hsize⟩ := h
  simp only [pushHeader, push16_eq, holds_append, List.length_append, length_bytes16,
    List.length_singleton, Nat.reduceAdd] at h hsize
  obtain ⟨⟨hv, ht⟩, he⟩ := h
  refine wp_interpretTransaction (by omega) hv ht fun e => ?_
  rw [htype]
  exact wp_interpretCancelEcosystem (by omega) he fun e => ⟨rfl, rfl⟩

theorem reference_parses {type : UInt16} {p : UInt32} {n : UInt64} {a : Address}
    {payload : List UInt8}
    (htype : interpretType o' params pkt type = interpretVirtualReference o' params pkt)
    (hvalid : isValidAddress params a.text = .ok true)
    (hpayload : pushReference o type p n a.text = .ok payload) (h : pkt.Carries payload) :
    Parses o' params pkt tx
      { amountFields p n { tx with version := 0, type := type } with receiver := some a } := by
  obtain ⟨version, hash160, hlen, hbytes, haddr⟩ := address_round_trip hvalid
  unfold pushReference at hpayload
  rw [hbytes] at hpayload
  cases hpayload
  obtain ⟨h, hsize⟩ := h
  rw [← List.singleton_append] at h hsize
  simp only [pushHeader, push16_eq, push32_eq, push64_eq, holds_append, List.length_append,
    length_bytes16, length_bytes32, length_bytes64, List.length_singleton, hlen, Nat.reduceAdd]
    at h hsize
  obtain ⟨⟨⟨⟨hv, ht⟩, hp⟩, hn⟩, hversion, hhash⟩ := h
  refine wp_interpretTransaction (by omega) hv ht fun e => ?_
  rw [htype]
  exact wp_interpretVirtualReference (by omega) hp hn hversion hhash hlen haddr hvalid
    fun e => ⟨rfl, rfl⟩

theorem sendAll_parses {eco : UInt8} (h : pkt.Carries (createPayloadSendAll o eco)) :
    Parses o' params pkt tx ((PayloadCall.sendAll eco).parsed tx) := by
  obtain ⟨h, hsize⟩ := h
  simp only [createPayloadSendAll, pushHeader, push16_eq, holds_append, List.length_append,
    length_bytes16, List.length_singleton, Nat.reduceAdd] at h hsize
  obtain ⟨⟨hv, ht⟩, he⟩ := h
  refine wp_interpretTransaction (by omega) hv ht fun e => ?_
  show wp (interpretSendAll pkt) _ _ _
  unfold interpretSendAll
  rw [if_neg (by omega)]
  refine wp_read8 he fun e => wp_setFields ?_
  exact (wp_pure _ _ _ _).mpr ⟨rfl, rfl⟩

theorem dexSell_parses {p : UInt32} {n d : UInt64} {t : UInt8} {f : UInt64} {a : UInt8}
    (h : pkt.Carries (createPayloadDExSell o p n d t f a)) :
    Parses o' params pkt tx ((PayloadCall.dexSell p n d t f a).parsed tx) := by
  obtain ⟨h, hsize⟩ := h
  simp only [createPayloadDExSell, pushHeader, push16_eq, push32_eq, push64_eq, holds_append,
    List.length_append, length_bytes16, length_bytes32, length_bytes64, List.length_singleton,
    Nat.reduceAdd] at h hsize
  obtain ⟨⟨⟨⟨⟨⟨⟨hv, htype⟩, hp⟩, hn⟩, hd⟩, ht⟩, hf⟩, ha⟩ := h
  refine wp_interpretTransaction (by omega) hv htype fun e => ?_
  show wp (interpretTradeOffer o' pkt) _ _ _
  unfold interpretTradeOffer
  rw [wp_bind, wp_get]
  have hmin : ¬ pkt.pktSize < if (1 : UInt16) = 0 then 33 else 34 := by
    rw [if_neg (by decide)]
    omega
  dsimp only
  rw [if_neg hmin]
  refine wp_read32 hp fun e => wp_read64 hn fun e => wp_read64 hd fun e => wp_read8 ht fun e =>
    wp_read64 hf fun e => wp_setFields ?_
  -- version 1 has a sub-action
  rw [if_pos (by decide)]
  refine wp_read8 ha fun e => wp_setFields ?_
  exact (wp_pure _ _ _ _).mpr ⟨rfl, rfl⟩

theorem sendToOwners_parses {p d : UInt32} {n : UInt64}
    (h : pkt.Carries (createPayloadSendToOwners o p n d)) :
    Parses o' params pkt tx ((PayloadCall.sendToOwners p n d).parsed tx) := by
  obtain ⟨h, hsize⟩ := h
  unfold createPayloadSendToOwners at h hsize
  unfold PayloadCall.parsed PayloadCall.fields PayloadCall.messageVer PayloadCall.messageType
  by_cases hsame : p = d
  · -- version 0: the distribution property is not sent
    rw [if_pos hsame] at h hsize
    simp only [pushHeader, push16_eq, push32_eq, push64_eq, holds_append, List.length_append,
      length_bytes16, length_bytes32, length_bytes64, Nat.reduceAdd] at h hsize
    obtain ⟨⟨⟨hv, ht⟩, hp⟩, hn⟩ := h
    refine wp_interpretTransaction (by omega) hv ht fun e => ?_
    show wp (interpretSendToOwners o' pkt) _ _ _
    unfold interpretSendToOwners
    rw [wp_bind, wp_get]
    have hmin : ¬ pkt.pktSize < if (0 : UInt16) = 0 then 16 else 20 := by
      rw [if_pos rfl]
      omega
    dsimp only
    rw [if_neg hmin]
    refine wp_read32 hp fun e => wp_read64 hn fun e => wp_setFields ?_
    rw [if_neg (by decide)]
    refine (wp_pure _ _ _ _).mpr ⟨rfl, ?_⟩
    rw [if_pos hsame, if_pos hsame]
    rfl
  · rw [if_neg hsame] at h hsize
    simp only [pushHeader, push16_eq, push32_eq, push64_eq, holds_append, List.length_append,
      length_bytes16, length_bytes32, length_bytes64, Nat.reduceAdd] at h hsize
    obtain ⟨⟨⟨⟨hv, ht⟩, hp⟩, hn⟩, hd⟩ := h
    refine wp_interpretTransaction (by omega) hv ht fun e => ?_
    show wp (interpretSendToOwners o' pkt) _ _ _
    unfold interpretSendToOwners
    rw [wp_bind, wp_get]
    have hmin : ¬ pkt.pktSize < if (1 : UInt16) = 0 then 16 else 20 := by
      rw [if_neg (by decide)]
      omega
    dsimp only
    rw [if_neg hmin]
    refine wp_read32 hp fun e => wp_read64 hn fun e => wp_setFields ?_
    rw [if_pos (by decide)]
    refine wp_read32 hd fun e => wp_setFields ?_
    refine (wp_pure _ _ _ _).mpr ⟨rfl, ?_⟩
    rw [if_neg hsame, if_neg hsame]
    rfl

theorem metaDExCancelPair_parses {p d : UInt32}
    (h : pkt.Carries (createPayloadMetaDExCancelPair o p d)) :
    Parses o' params pkt tx ((PayloadCall.metaDExCancelPair p d).parsed tx) := by
  obtain ⟨h, hsize⟩ := h
  simp only [createPayloadMetaDExCancelPair, pushHeader, push16_eq, push32_eq, holds_append,
    List.length_append, length_bytes16, length_bytes32, Nat.reduceAdd] at h hsize
  obtain ⟨⟨⟨hv, ht⟩, hp⟩, hd⟩ := h
  refine wp_interpretTransaction (by omega) hv ht fun e => ?_
  show wp (interpretMetaDExCancelPair o' pkt) _ _ _
  unfold interpretMetaDExCancelPair
  rw [if_neg (by omega)]
  refine wp_read32 hp fun e => wp_read32 hd fun e => wp_setFields ?_
  exact (wp_pure _ _ _ _).mpr ⟨rfl, rfl⟩

theorem deactivateFeature_parses {f : UInt16} (h : pkt.Carries (createPayloadDeactivateFeature o f)) :
    Parses o' params pkt tx ((PayloadCall.deactivateFeature f).parsed tx) := by
  obtain ⟨h, hsize⟩ := h
  simp only [createPayloadDeactivateFeature, pushHeader, push16_eq, holds_append, List.length_append,
    length_bytes16, Nat.reduceAdd] at h hsize
  obtain ⟨⟨hv, ht⟩, hf⟩ := h
  refine wp_interpretTransaction (by omega) hv ht fun e => ?_
  show wp (interpretDeactivation o' pkt) _ _ _
  unfold interpretDeactivation
  rw [if_neg (by omega)]
  refine wp_read16 hf fun e => wp_setFields ?_
  exact (wp_pure _ _ _ _).mpr ⟨rfl, rfl⟩

theorem activateFeature_parses {f : UInt16} {b v : UInt32}
    (h : pkt.Carries (createPayloadActivateFeature o f b v)) :
    Parses o' params pkt tx ((PayloadCall.activateFeature f b v).parsed tx) := by
  obtain ⟨h, hsize⟩ := h
  simp only [createPayloadActivateFeature, pushHeader, push16_eq, push32_eq, holds_append,
    List.length_append, length_bytes16, length_bytes32, Nat.reduceAdd] at h hsize
  obtain ⟨⟨⟨⟨hv, ht⟩, hf⟩, hb⟩, hversion⟩ := h
  refine wp_interpretTransaction (by omega) hv ht fun e => ?_
  show wp (interpretActivation o' pkt) _ _ _
  unfold interpretActivation
  rw [if_neg (by omega)]
  refine wp_read16 hf fun e => wp_read32 hb fun e => wp_read32 hversion fun e => wp_setFields ?_
  exact (wp_pure _ _ _ _).mpr ⟨rfl, rfl⟩

theorem omniCoreAlert_parses {t : UInt16} {e : UInt32} {m : List UInt8} (hclean : tx.Clean)
    (hm : 0 ∉ m) (h : pkt.Carries (createPayloadOmniCoreAlert o t e m)) :
    Parses o' params pkt tx ((PayloadCall.omniCoreAlert t e m).parsed tx) := by
  obtain ⟨h, hsize⟩ := h
  unfold createPayloadOmniCoreAlert at h hsize
  rw [List.append_assoc] at h hsize
  simp only [pushHeader, push16_eq, push32_eq, List.length_append, length_bytes16, length_bytes32,
    List.length_singleton, Nat.reduceAdd] at h hsize
  obtain ⟨h, htext⟩ := holds_append.mp h
  simp only [holds_append, List.length_append, length_bytes16, length_bytes32, Nat.reduceAdd]
    at h htext
  obtain ⟨⟨⟨hv, htype⟩, ht⟩, he⟩ := h
  refine wp_interpretTransaction (by omega) hv htype fun _ => ?_
  show wp (interpretAlert o' pkt) _ _ _
  unfold interpretAlert
  rw [if_neg (by omega)]
  refine wp_read16 ht fun _ => wp_read32 he fun _ => wp_readString (holds_append.mpr htext) hm fun _ => wp_setFields ?_
  refine (wp_pure _ _ _ _).mpr ⟨?_, ?_⟩
  · unfold Packet.isOverrun
    rw [Bool.not_eq_true', decide_eq_false_iff_not]
    omega
  · show CMPTransaction.mk .. = _
    unfold copyString
    dsimp only
    rw [hclean.alertText]
    simp [PayloadCall.parsed, PayloadCall.fields, PayloadCall.messageType, PayloadCall.messageVer,
      fieldText, spStringFieldLen]

/-! ### Issuances -/

/-- The start of an issuance. -/
def PropertyArgs.push (a : PropertyArgs) (o : ByteOrder) (messageType : UInt16) : List UInt8 :=
  pushProperty o messageType a.ecosystem a.propertyType a.previousPropertyId a.category a.subcategory
    a.name a.url a.data

theorem PropertyArgs.push_eq (a : PropertyArgs) (type : UInt16) :
    a.push o type = pushHeader o 0 type ++ [a.ecosystem] ++ push16 o a.propertyType ++
      push32 o a.previousPropertyId ++ a.texts.flatMap pushString := by
  unfold PropertyArgs.push pushProperty PropertyArgs.texts
  simp

theorem PropertyArgs.length_push (a : PropertyArgs) (type : UInt16) :
    (a.push o type).length = 11 + (a.texts.flatMap pushString).length := by
  rw [a.push_eq]
  simp only [pushHeader, push16_eq, push32_eq, List.length_append, length_bytes16, length_bytes32,
    List.length_singleton]

/-- Five zeros, and at least one byte that is not. -/
theorem PropertyArgs.Ok.length_texts {a : PropertyArgs} (h : a.Ok) :
    6 ≤ (a.texts.flatMap pushString).length := by
  obtain ⟨-, str, hstr, hne⟩ := h
  have hpos : 0 < str.length := List.length_pos_iff.mpr hne
  unfold PropertyArgs.texts at hstr ⊢
  simp only [List.flatMap_cons, List.flatMap_nil, List.length_append, pushString_eq, List.length_take,
    List.length_singleton, List.length_nil]
  simp only [List.mem_cons, List.not_mem_nil, or_false] at hstr
  rcases hstr with rfl | rfl | rfl | rfl | rfl <;> omega

/-- The start of an issuance is read, and the pointer is behind it. -/
theorem issuance_parses (minSize : Nat) {type : UInt16} {a : PropertyArgs} {rest : List UInt8}
    {tx' : CMPTransaction} {k : Nat → ParseM Bool} (hok : a.Ok) (hclean : tx.Clean)
    (h : pkt.Carries (a.push o type ++ rest)) (hmin : minSize ≤ pkt.pktSize)
    (htype : interpretType o' params pkt type =
      if pkt.pktSize < minSize then pure false else readPropertyHeader o' pkt >>= k)
    (hk : ∀ e, Holds pkt.pkt (a.push o type).length rest →
      wp (k (a.push o type).length) (fun ok s' => ok = true ∧ s'.tx = tx') (fun _ _ => False)
        ⟨a.fields { tx with version := 0, type := type }, e⟩) :
    Parses o' params pkt tx tx' := by
  obtain ⟨h, hsize⟩ := h
  obtain ⟨h, hrest⟩ := holds_append.mp h
  have hlong := hok.length_texts
  rw [List.length_append, a.length_push] at hsize
  rw [Nat.zero_add] at hrest
  rw [a.push_eq] at h
  simp only [pushHeader, push16_eq, push32_eq, List.length_append, length_bytes16, length_bytes32,
    List.length_singleton, holds_append, Nat.reduceAdd] at h
  obtain ⟨⟨⟨⟨⟨hv, ht⟩, he⟩, htypeArg⟩, hprev⟩, hstrs⟩ := h
  refine wp_interpretTransaction (by omega) hv ht fun e => ?_
  rw [htype, if_neg (by omega)]
  refine wp_readPropertyHeader ⟨hclean.category, hclean.subcategory, hclean.name, hclean.url,
    hclean.data, hclean.alertText⟩ he htypeArg hprev hstrs hok.1 fun e => ?_
  rw [← a.length_push (o := o) type]
  exact hk e hrest

/-- The pointer is not behind the end of the packet. -/
theorem not_isOverrun {p : Nat} (h : p ≤ pkt.pktSize) : (!pkt.isOverrun p) = true := by
  unfold Packet.isOverrun
  rw [Bool.not_eq_true', decide_eq_false_iff_not]
  omega

theorem issuanceFixed_parses {a : PropertyArgs} {n : UInt64} (hok : a.Ok) (hclean : tx.Clean)
    (h : pkt.Carries (a.push o 50 ++ push64 o n)) :
    Parses o' params pkt tx ((PayloadCall.issuanceFixed a n).parsed tx) := by
  have hsize := h.size
  have hlong := hok.length_texts
  rw [List.length_append, a.length_push, push64_eq, length_bytes64] at hsize
  refine issuance_parses 25 hok hclean h (by omega) rfl fun e hrest => ?_
  rw [push64_eq] at hrest
  refine wp_read64 hrest fun e => wp_setFields ?_
  refine (wp_pure _ _ _ _).mpr ⟨not_isOverrun ?_, rfl⟩
  rw [a.length_push]
  omega

theorem issuanceManaged_parses {a : PropertyArgs} (hok : a.Ok) (hclean : tx.Clean)
    (h : pkt.Carries (a.push o 54)) :
    Parses o' params pkt tx ((PayloadCall.issuanceManaged a).parsed tx) := by
  have hsize := h.size
  have hlong := hok.length_texts
  rw [a.length_push] at hsize
  rw [← List.append_nil (a.push o 54)] at h
  refine issuance_parses 17 hok hclean h (by omega) rfl fun e _ => ?_
  refine (wp_pure _ _ _ _).mpr ⟨not_isOverrun ?_, rfl⟩
  rw [a.length_push]
  omega

/-- The terms of a crowdsale. -/
def CrowdsaleArgs.push (c : CrowdsaleArgs) (o : ByteOrder) : List UInt8 :=
  pushCrowdsaleTerms o c.propertyIdDesired c.amountPerUnit c.deadline c.earlyBonus c.issuerPercentage

theorem CrowdsaleArgs.length_push (c : CrowdsaleArgs) : (c.push o).length = 22 := by
  unfold CrowdsaleArgs.push pushCrowdsaleTerms
  simp only [push32_eq, push64_eq, List.length_append, length_bytes32, length_bytes64,
    List.length_singleton]

theorem wp_crowdsale {c : CrowdsaleArgs} {p : Nat} {α : Type} {s : ParseState}
    {R : α → ParseState → Prop} {E : Halt → ParseState → Prop} {k : Unit → ParseM α}
    (h : Holds pkt.pkt p (c.push o)) (hk : ∀ e, wp (k ()) R E ⟨c.fields s.tx, e⟩) :
    wp (readCrowdsaleTerms o' pkt p >>= k) R E s := by
  unfold CrowdsaleArgs.push pushCrowdsaleTerms at h
  simp only [push32_eq, push64_eq, holds_append, List.length_append, length_bytes32, length_bytes64,
    List.length_singleton, Nat.reduceAdd] at h
  obtain ⟨⟨⟨⟨hd, hn⟩, hdeadline⟩, hearly⟩, hpercent⟩ := h
  exact wp_readCrowdsaleTerms hd hn hdeadline hearly hpercent hk

theorem issuanceVariable_parses {a : PropertyArgs} {c : CrowdsaleArgs} (hok : a.Ok)
    (hclean : tx.Clean) (h : pkt.Carries (a.push o 51 ++ c.push o)) :
    Parses o' params pkt tx ((PayloadCall.issuanceVariable a c).parsed tx) := by
  have hsize := h.size
  have hlong := hok.length_texts
  rw [List.length_append, a.length_push, c.length_push] at hsize
  refine issuance_parses 39 hok hclean h (by omega) rfl fun e hrest => ?_
  refine wp_crowdsale hrest fun e => ?_
  refine (wp_pure _ _ _ _).mpr ⟨not_isOverrun ?_, rfl⟩
  rw [a.length_push]
  omega

theorem createContract_parses {a : PropertyArgs} {c : CrowdsaleArgs} {b n cc m : UInt32} (hok : a.Ok)
    (hclean : tx.Clean)
    (h : pkt.Carries (a.push o 40 ++ c.push o ++ push32 o b ++ push32 o n ++ push32 o cc ++
      push32 o m)) :
    Parses o' params pkt tx ((PayloadCall.createContract a c b n cc m).parsed tx) := by
  have hsize := h.size
  have hlong := hok.length_texts
  simp only [push32_eq, List.length_append, a.length_push, c.length_push, length_bytes32] at hsize
  simp only [List.append_assoc] at h
  refine issuance_parses 55 hok hclean h (by omega) rfl fun e hrest => ?_
  simp only [push32_eq, holds_append, c.length_push, length_bytes32, Nat.add_assoc, Nat.reduceAdd]
    at hrest
  obtain ⟨hterms, hb, hn, hcc, hm⟩ := hrest
  refine wp_crowdsale hterms fun e => ?_
  refine wp_read32 hb fun e => wp_read32 hn fun e => wp_read32 hcc fun e => wp_read32 hm fun e =>
    wp_setFields ?_
  refine (wp_pure _ _ _ _).mpr ⟨not_isOverrun ?_, rfl⟩
  rw [a.length_push]
  omega

/-! ### All calls -/

theorem amountOnly_parses {type : UInt16} {p : UInt32} {n : UInt64}
    (htype : interpretType o' params pkt type = interpretAmount o' pkt)
    (h : pkt.Carries (pushHeader o 0 type ++ push32 o p ++ push64 o n)) :
    Parses o' params pkt tx (amountFields p n { tx with version := 0, type := type }) := by
  refine amount_parses htype h.holds ?_
  rw [h.size]
  simp only [pushHeader, push16_eq, push32_eq, push64_eq, List.length_append, length_bytes16,
    length_bytes32, length_bytes64, Nat.reduceAdd, le_refl]

/-- Every payload is parsed as the arguments it was made from, on machines of any byte order. -/
theorem payload_parses {call : PayloadCall} {payload : List UInt8} (hok : call.Ok params)
    (hclean : tx.Clean) (hpayload : call.payload o = .ok payload) (h : pkt.Carries payload) :
    Parses o' params pkt tx (call.parsed tx) := by
  cases call with
  | simpleSend => cases hpayload; exact amountOnly_parses rfl h
  | sendAll => cases hpayload; exact sendAll_parses h
  | dexSell => cases hpayload; exact dexSell_parses h
  | dexAccept => cases hpayload; exact amountOnly_parses rfl h
  | sendToOwners => cases hpayload; exact sendToOwners_parses h
  | issuanceFixed => cases hpayload; exact issuanceFixed_parses hok hclean h
  | issuanceVariable => cases hpayload; exact issuanceVariable_parses hok hclean h
  | createContract => cases hpayload; exact createContract_parses hok hclean h
  | issuanceManaged => cases hpayload; exact issuanceManaged_parses hok hclean h
  | closeCrowdsale => cases hpayload; exact property_parses rfl h
  | grant => cases hpayload; exact memo_parses rfl h
  | revoke => cases hpayload; exact memo_parses rfl h
  | changeIssuer => cases hpayload; exact property_parses rfl h
  | enableFreezing => cases hpayload; exact property_parses rfl h
  | disableFreezing => cases hpayload; exact property_parses rfl h
  | freezeTokens => exact reference_parses rfl hok hpayload h
  | unfreezeTokens => exact reference_parses rfl hok hpayload h
  | metaDExTrade => cases hpayload; exact pair_parses rfl h
  | metaDExCancelPrice => cases hpayload; exact pair_parses rfl h
  | metaDExCancelPair => cases hpayload; exact metaDExCancelPair_parses h
  | metaDExCancelEcosystem => cases hpayload; exact cancelEcosystem_parses rfl h
  | contractDexTrade => cases hpayload; exact contractOrder_parses (f := id) rfl h
  | contractDexCancelPrice =>
      cases hpayload
      exact contractOrder_parses (f := fun tx => { tx with action := 2 }) rfl h
  | contractDexCancelEcosystem => cases hpayload; exact cancelEcosystem_parses rfl h
  | deactivateFeature => cases hpayload; exact deactivateFeature_parses h
  | activateFeature => cases hpayload; exact activateFeature_parses h
  | omniCoreAlert => cases hpayload; exact omniCoreAlert_parses hclean hok h

end RoundTrip

/-- Every call that can be sent returns a payload. -/
theorem PayloadCall.Ok.exists_payload {params : ChainParams} {call : PayloadCall}
    (h : call.Ok params) (o : ByteOrder) : ∃ payload, call.payload o = .ok payload := by
  have hreference : ∀ (type : UInt16) (p : UInt32) (n : UInt64) (a : Address),
      isValidAddress params a.text = .ok true →
      ∃ payload, pushReference o type p n a.text = .ok payload := by
    intro type p n a ha
    obtain ⟨version, hash160, -, hbytes, -⟩ := address_round_trip ha
    unfold pushReference
    rw [hbytes]
    exact ⟨_, rfl⟩
  cases call with
  | freezeTokens p n a => exact hreference 185 p n a h
  | unfreezeTokens p n a => exact hreference 186 p n a h
  | _ => exact ⟨_, rfl⟩

/-- **PAYLOAD ROUND TRIP**: every call with arguments that can be sent returns a payload, and if it
    fits into the packet, a fresh transaction reads the arguments out of it again. -/
theorem payload_round_trip (o o' : ByteOrder) (params : ChainParams) (call : PayloadCall)
    (hok : call.Ok params) :
    ∃ payload, call.payload o = .ok payload ∧ (payload.length ≤ pktBufferSize →
      ∀ sender receiver n txid block txIdx txFeePaid, ∃ s',
        interpretTransaction o' params (Packet.ofPayload payload)
            ⟨CMPTransaction.set sender receiver n txid block txIdx txFeePaid, 0⟩ = .ok true s' ∧
          s'.tx = call.parsed
            (CMPTransaction.set sender receiver n txid block txIdx txFeePaid)) := by
  obtain ⟨payload, hpayload⟩ := hok.exists_payload o
  refine ⟨payload, hpayload, fun hfits sender receiver n txid block txIdx txFeePaid => ?_⟩
  have hparses : Parses o' params (Packet.ofPayload payload)
      (CMPTransaction.set sender receiver n txid block txIdx txFeePaid) _ :=
    payload_parses hok ⟨rfl, rfl, rfl, rfl, rfl, rfl⟩ hpayload (Packet.ofPayload_carries hfits)
  obtain ⟨ok, s', hrun, rfl, htx⟩ := wp_returns hparses
  exact ⟨s', hrun, htx⟩

/-- The issuance of a property that is only named. -/
def namedIssuance : PayloadCall :=
  .issuanceFixed ⟨1, 1, 0, [], [], [81], [], []⟩ 1000

/-- **A NAMED ISSUANCE** comes through a big-endian writer and a little-endian reader. -/
theorem payload_round_trip_named :
    ∃ payload, namedIssuance.payload .big = .ok payload ∧ payload.length = 25 ∧
      ∀ sender receiver n txid block txIdx txFeePaid, ∃ s',
        interpretTransaction .little plainMain (Packet.ofPayload payload)
            ⟨CMPTransaction.set sender receiver n txid block txIdx txFeePaid, 0⟩ = .ok true s' ∧
          s'.tx = namedIssuance.parsed
            (CMPTransaction.set sender receiver n txid block txIdx txFeePaid) := by
  have hok : namedIssuance.Ok plainMain := by
    show PropertyArgs.Ok _
    decide
  have hlength : (namedIssuance.payload .big).map List.length = .ok 25 := rfl
  obtain ⟨payload, hpayload, hround⟩ := payload_round_trip .big .little plainMain namedIssuance hok
  rw [hpayload] at hlength
  have hsize : payload.length = 25 := Except.ok.inj hlength
  have hfits : payload.length ≤ pktBufferSize := by
    rw [hsize]
    decide
  exact ⟨payload, hpayload, hsize, hround hfits⟩

end OmniCore
