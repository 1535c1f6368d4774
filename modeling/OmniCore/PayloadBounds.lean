import OmniCore.Interpret

/-! # PayloadBounds — which packets are read past their end

    A packet that is accepted should give its fields only bytes that belong to the
    payload, and no parser should leave the buffer. Three minimum sizes are wrong: those
    of the contract orders, that of a contract, whose last field is behind the pointer
    that is checked, and that of an alert, whose pointer never moves. -/

namespace OmniCore

open TextRec Exec Wire

/-! ## The condition -/

/-- The offset behind the next `n` zeros, if the buffer has as many. -/
def stringsEnd (pkt : List UInt8) : Nat → Nat → Option Nat
  | 0, p => some p
  | n + 1, p =>
      if p + (Wire.cString pkt p).length < pktBufferSize then
        stringsEnd pkt n (p + ((Wire.cString pkt p).length + 1))
      else none

/-- The five texts of an issuance end in the buffer, at an offset with a property. -/
def Packet.TextsEnd (pkt : Packet) (P : Nat → Prop) : Prop := (stringsEnd pkt.pkt 5 11).elim False P

/-- The type of a packet. -/
def Packet.type (pkt : Packet) (o : ByteOrder) : UInt16 :=
  swapByteOrder16 o (word16 o (slice pkt.pkt 2 2))

/-- The packets of a type of which only the payload is read: a contract order is not cut before its
    last field, the texts of an issuance leave room for what follows in the buffer, a contract does
    not end in its last four bytes, and an alert has a text that ends in the packet, or fills the
    field. -/
def Packet.SizeOk (pkt : Packet) : Nat → Prop
  | 29 => 33 ≤ pkt.pktSize → 37 ≤ pkt.pktSize
  | 30 => 33 ≤ pkt.pktSize → 37 ≤ pkt.pktSize
  | 40 => 55 ≤ pkt.pktSize → pkt.TextsEnd fun e =>
      e + 38 ≤ pktBufferSize ∧ (e + 34 ≤ pkt.pktSize → e + 38 ≤ pkt.pktSize)
  | 50 => 25 ≤ pkt.pktSize → pkt.TextsEnd fun e => e + 8 ≤ pktBufferSize
  | 51 => 39 ≤ pkt.pktSize → pkt.TextsEnd fun e => e + 22 ≤ pktBufferSize
  | 54 => 17 ≤ pkt.pktSize → pkt.TextsEnd fun _ => True
  | 65535 => 11 ≤ pkt.pktSize → 10 + (Wire.cString pkt.pkt 10).length < pktBufferSize ∧
      10 + min (Wire.cString pkt.pkt 10).length 255 ≤ pkt.pktSize
  | _ => True

/-- What should hold of every packet: if it is accepted, the fields were copied from bytes of the
    payload, and nothing is read outside of the buffer. -/
def ReadsInside (o : ByteOrder) (params : ChainParams) (pkt : Packet) (tx : CMPTransaction) : Prop :=
  wp (interpretTransaction o params pkt) (fun ok s' => ok = true → s'.fieldEnd ≤ pkt.pktSize)
    (fun e _ => e ≠ .undefinedBehaviour) ⟨tx, 0⟩

/-! ## Rules for reading anything -/

section Reading

variable {o : ByteOrder} {pkt : Packet} {α : Type} {Q : α → ParseState → Prop}
  {E : Halt → ParseState → Prop} {s : ParseState} {offset : Nat}

/-- A copy stays in the buffer or halts; the fields were filled up to its end. -/
theorem wp_copyBytes_any {n : Nat} {k : List UInt8 → ParseM α}
    (hin : offset + n ≤ pktBufferSize → ∀ x, wp (k x) Q E ⟨s.tx, max s.fieldEnd (offset + n)⟩)
    (hout : pktBufferSize < offset + n → E .undefinedBehaviour s) :
    wp (copyBytes pkt offset n >>= k) Q E s := by
  unfold copyBytes
  rw [wp_bind, wp_ite]
  refine ⟨fun h => ?_, fun h => ?_⟩
  · rw [wp_bind, wp_modify, wp_pure]
    exact hin h _
  · rw [wp_throw]
    exact hout (not_le.mp h)

theorem wp_read8_any {k : UInt8 → ParseM α}
    (hin : offset + 1 ≤ pktBufferSize → ∀ v, wp (k v) Q E ⟨s.tx, max s.fieldEnd (offset + 1)⟩)
    (hout : pktBufferSize < offset + 1 → E .undefinedBehaviour s) :
    wp (read8 pkt offset >>= k) Q E s := by
  unfold read8
  rw [bind_assoc]
  exact wp_copyBytes_any (fun h x => hin h _) hout

theorem wp_read16_any {k : UInt16 → ParseM α}
    (hin : offset + 2 ≤ pktBufferSize → ∀ v, wp (k v) Q E ⟨s.tx, max s.fieldEnd (offset + 2)⟩)
    (hout : pktBufferSize < offset + 2 → E .undefinedBehaviour s) :
    wp (read16 o pkt offset >>= k) Q E s := by
  unfold read16
  rw [bind_assoc]
  exact wp_copyBytes_any (fun h x => hin h _) hout

theorem wp_read32_any {k : UInt32 → ParseM α}
    (hin : offset + 4 ≤ pktBufferSize → ∀ v, wp (k v) Q E ⟨s.tx, max s.fieldEnd (offset + 4)⟩)
    (hout : pktBufferSize < offset + 4 → E .undefinedBehaviour s) :
    wp (read32 o pkt offset >>= k) Q E s := by
  unfold read32
  rw [bind_assoc]
  exact wp_copyBytes_any (fun h x => hin h _) hout

theorem wp_read64_any {k : UInt64 → ParseM α}
    (hin : offset + 8 ≤ pktBufferSize → ∀ v, wp (k v) Q E ⟨s.tx, max s.fieldEnd (offset + 8)⟩)
    (hout : pktBufferSize < offset + 8 → E .undefinedBehaviour s) :
    wp (read64 o pkt offset >>= k) Q E s := by
  unfold read64
  rw [bind_assoc]
  exact wp_copyBytes_any (fun h x => hin h _) hout

/-- The bytes of a header are in every buffer. -/
theorem wp_read8_in (h : offset + 1 ≤ pktBufferSize) {k : UInt8 → ParseM α}
    (hk : ∀ v, wp (k v) Q E ⟨s.tx, max s.fieldEnd (offset + 1)⟩) :
    wp (read8 pkt offset >>= k) Q E s :=
  wp_read8_any (fun _ => hk) fun hout => absurd h (not_le.mpr hout)

theorem wp_read16_in (h : offset + 2 ≤ pktBufferSize) {k : UInt16 → ParseM α}
    (hk : ∀ v, wp (k v) Q E ⟨s.tx, max s.fieldEnd (offset + 2)⟩) :
    wp (read16 o pkt offset >>= k) Q E s :=
  wp_read16_any (fun _ => hk) fun hout => absurd h (not_le.mpr hout)

theorem wp_read32_in (h : offset + 4 ≤ pktBufferSize) {k : UInt32 → ParseM α}
    (hk : ∀ v, wp (k v) Q E ⟨s.tx, max s.fieldEnd (offset + 4)⟩) :
    wp (read32 o pkt offset >>= k) Q E s :=
  wp_read32_any (fun _ => hk) fun hout => absurd h (not_le.mpr hout)

theorem wp_read64_in (h : offset + 8 ≤ pktBufferSize) {k : UInt64 → ParseM α}
    (hk : ∀ v, wp (k v) Q E ⟨s.tx, max s.fieldEnd (offset + 8)⟩) :
    wp (read64 o pkt offset >>= k) Q E s :=
  wp_read64_any (fun _ => hk) fun hout => absurd h (not_le.mpr hout)

theorem wp_setFields_any {f : CMPTransaction → CMPTransaction} {k : Unit → ParseM α}
    (hk : wp (k ()) Q E ⟨f s.tx, s.fieldEnd⟩) : wp (setFields f >>= k) Q E s := by
  unfold setFields
  rw [wp_bind, wp_modify]
  exact hk

end Reading

/-! ## Parsers with fixed offsets -/

section Fixed

variable {o : ByteOrder} {params : ChainParams} {pkt : Packet} {s : ParseState}

/-- The parser, started behind the header, reads only the payload. -/
def Inside (pkt : Packet) (x : ParseM Bool) (s : ParseState) : Prop :=
  wp x (fun ok s' => ok = true → s'.fieldEnd ≤ pkt.pktSize) (fun e _ => e ≠ .undefinedBehaviour) s

theorem inside_false : Inside pkt (pure false) s := by
  refine (wp_pure _ _ _ _).mpr ?_
  simp

theorem inside_pure {ok : Bool} (h : s.fieldEnd ≤ pkt.pktSize) : Inside pkt (pure ok) s :=
  (wp_pure _ _ _ _).mpr fun _ => h

/-- A packet that is too short is refused. -/
theorem inside_size {n : Nat} {x : ParseM Bool} (h : n ≤ pkt.pktSize → Inside pkt x s) :
    Inside pkt (if pkt.pktSize < n then pure false else x) s := by
  by_cases hn : pkt.pktSize < n
  · rw [if_pos hn]
    exact inside_false
  · rw [if_neg hn]
    exact h (not_lt.mp hn)

theorem interpretProperty_inside (hs : s.fieldEnd ≤ 4) : Inside pkt (interpretProperty o pkt) s := by
  refine inside_size fun hsize => ?_
  refine wp_read32_in (by decide) fun v => wp_setFields_any (inside_pure ?_)
  show max s.fieldEnd 8 ≤ pkt.pktSize
  omega

theorem interpretAmount_inside (hs : s.fieldEnd ≤ 4) : Inside pkt (interpretAmount o pkt) s := by
  refine inside_size fun hsize => ?_
  refine wp_read32_in (by decide) fun v => wp_read64_in (by decide) fun v =>
    wp_setFields_any (inside_pure ?_)
  show max (max s.fieldEnd 8) 16 ≤ pkt.pktSize
  omega

theorem interpretPair_inside (hs : s.fieldEnd ≤ 4) (action : UInt8) :
    Inside pkt (interpretPair o pkt action) s := by
  refine inside_size fun hsize => ?_
  refine wp_read32_in (by decide) fun v => wp_read64_in (by decide) fun v =>
    wp_read32_in (by decide) fun v => wp_read64_in (by decide) fun v =>
    wp_setFields_any (inside_pure ?_)
  show max (max (max (max s.fieldEnd 8) 16) 20) 28 ≤ pkt.pktSize
  omega

theorem interpretCancelEcosystem_inside (hs : s.fieldEnd ≤ 4) :
    Inside pkt (interpretCancelEcosystem pkt) s := by
  refine inside_size fun hsize => ?_
  refine wp_read8_in (by decide) fun v => wp_setFields_any (inside_pure ?_)
  show max s.fieldEnd 5 ≤ pkt.pktSize
  omega

theorem interpretSendAll_inside (hs : s.fieldEnd ≤ 4) : Inside pkt (interpretSendAll pkt) s := by
  refine inside_size fun hsize => ?_
  refine wp_read8_in (by decide) fun v => wp_setFields_any (inside_pure ?_)
  show max s.fieldEnd 5 ≤ pkt.pktSize
  omega

theorem interpretMetaDExCancelPair_inside (hs : s.fieldEnd ≤ 4) :
    Inside pkt (interpretMetaDExCancelPair o pkt) s := by
  refine inside_size fun hsize => ?_
  refine wp_read32_in (by decide) fun v => wp_read32_in (by decide) fun v =>
    wp_setFields_any (inside_pure ?_)
  show max (max s.fieldEnd 8) 12 ≤ pkt.pktSize
  omega

theorem interpretDeactivation_inside (hs : s.fieldEnd ≤ 4) :
    Inside pkt (interpretDeactivation o pkt) s := by
  refine inside_size fun hsize => ?_
  refine wp_read16_in (by decide) fun v => wp_setFields_any (inside_pure ?_)
  show max s.fieldEnd 6 ≤ pkt.pktSize
  omega

theorem interpretActivation_inside (hs : s.fieldEnd ≤ 4) :
    Inside pkt (interpretActivation o pkt) s := by
  refine inside_size fun hsize => ?_
  refine wp_read16_in (by decide) fun v => wp_read32_in (by decide) fun v =>
    wp_read32_in (by decide) fun v => wp_setFields_any (inside_pure ?_)
  show max (max (max s.fieldEnd 6) 10) 14 ≤ pkt.pktSize
  omega

theorem interpretSendToOwners_inside (hs : s.fieldEnd ≤ 4) :
    Inside pkt (interpretSendToOwners o pkt) s := by
  unfold interpretSendToOwners Inside
  rw [wp_bind, wp_get]
  refine inside_size fun hsize => ?_
  refine wp_read32_in (by decide) fun v => wp_read64_in (by decide) fun v => wp_setFields_any ?_
  by_cases hversion : 0 < s.tx.version
  · -- version 1 has a fourth field, and a larger minimum
    rw [if_neg fun h => by simp [h] at hversion] at hsize
    rw [if_pos hversion]
    refine wp_read32_in (by decide) fun v => wp_setFields_any (inside_pure ?_)
    show max (max (max s.fieldEnd 8) 16) 20 ≤ pkt.pktSize
    omega
  · rw [if_neg hversion]
    have hmin : 16 ≤ pkt.pktSize := le_trans (by split <;> omega) hsize
    refine inside_pure ?_
    show max (max s.fieldEnd 8) 16 ≤ pkt.pktSize
    omega

theorem interpretTradeOffer_inside (hs : s.fieldEnd ≤ 4) :
    Inside pkt (interpretTradeOffer o pkt) s := by
  unfold interpretTradeOffer Inside
  rw [wp_bind, wp_get]
  refine inside_size fun hsize => ?_
  refine wp_read32_in (by decide) fun v => wp_read64_in (by decide) fun v =>
    wp_read64_in (by decide) fun v => wp_read8_in (by decide) fun v =>
    wp_read64_in (by decide) fun v => wp_setFields_any ?_
  by_cases hversion : 0 < s.tx.version
  · rw [if_neg fun h => by simp [h] at hversion] at hsize
    rw [if_pos hversion]
    refine wp_read8_in (by decide) fun v => wp_setFields_any (inside_pure ?_)
    show max (max (max (max (max (max s.fieldEnd 8) 16) 24) 25) 33) 34 ≤ pkt.pktSize
    omega
  · rw [if_neg hversion]
    have hmin : 33 ≤ pkt.pktSize := le_trans (by split <;> omega) hsize
    refine inside_pure ?_
    show max (max (max (max (max s.fieldEnd 8) 16) 24) 25) 33 ≤ pkt.pktSize
    omega

/-- The base58 functions have one assertion, and read nothing of the packet. -/
theorem liftParse_inside {α : Type} {x : Except Halt α} {k : α → ParseM Bool}
    (hx : ∀ e, x = .error e → e = .assertFailed .condition) (hk : ∀ a, Inside pkt (k a) s) :
    Inside pkt (liftParse x >>= k) s := by
  unfold Inside
  rw [wp_bind]
  cases hx' : x with
  | ok a => exact (wp_pure _ _ _ _).mpr (hk a)
  | error e =>
      refine (wp_throw _ _ _ _).mpr ?_
      rw [hx e hx']
      simp

theorem encodeDigits_error {b58 : List Nat} {length : Nat} {bytes : List UInt8} {e : Halt}
    (h : encodeDigits b58 length bytes = .error e) : e = .assertFailed .condition := by
  induction bytes generalizing b58 length with
  | nil => cases h
  | cons byte rest ih =>
      unfold encodeDigits at h
      dsimp only at h
      split at h
      · exact ih h
      · cases h
        rfl

theorem decodeDigits_error {b256 : List Nat} {t : Text} {e : Halt}
    (h : decodeDigits b256 t = .error e) : e = .assertFailed .condition := by
  induction t generalizing b256 with
  | nil => cases h
  | cons c rest ih =>
      unfold decodeDigits at h
      dsimp only at h
      split at h
      · cases h
      · split at h
        · split at h
          · exact ih h
          · cases h
            rfl
        · cases h

/-- A sequence fails where its first or its second part does. -/
theorem bind_error {α β : Type} {x : Except Halt α} {f : α → Except Halt β} {e : Halt}
    (h : (x >>= f) = .error e) : x = .error e ∨ ∃ a, f a = .error e := by
  cases x with
  | ok a => exact Or.inr ⟨a, h⟩
  | error e' =>
      cases h
      exact Or.inl rfl

theorem encodeBase58_error {bytes : List UInt8} {e : Halt} (h : encodeBase58 bytes = .error e) :
    e = .assertFailed .condition := by
  unfold encodeBase58 at h
  rcases bind_error h with h | ⟨a, h⟩
  · exact encodeDigits_error h
  · cases h

theorem isValidAddress_error {address : Text} {e : Halt}
    (h : isValidAddress params address = .error e) : e = .assertFailed .condition := by
  unfold isValidAddress CBase58Data.setString decodeBase58Check decodeBase58 at h
  rcases bind_error h with h | ⟨a, h⟩
  · rcases bind_error h with h | ⟨a, h⟩
    · rcases bind_error h with h | ⟨a, h⟩
      · rcases bind_error h with h | ⟨a, h⟩
        · exact decodeDigits_error h
        · split at h
          · cases h
          · split at h <;> cases h
      · split at h
        · cases h
        · split at h
          · cases h
          · split at h <;> cases h
    · split at h
      · cases h
      · split at h <;> cases h
  · cases h

theorem hashToAddress_error {version : UInt8} {hash : List UInt8} {e : Halt}
    (h : hashToAddress params version hash = .error e) : e = .assertFailed .condition := by
  unfold hashToAddress at h
  split at h
  · exact encodeBase58_error h
  · split at h
    · exact encodeBase58_error h
    · cases h

theorem interpretVirtualReference_inside (hs : s.fieldEnd ≤ 4) :
    Inside pkt (interpretVirtualReference o params pkt) s := by
  refine inside_size fun hsize => ?_
  refine wp_read32_in (by decide) fun v => wp_read64_in (by decide) fun v =>
    wp_setFields_any (wp_read8_in (by decide) fun version => ?_)
  refine wp_copyBytes_any (fun _ hash160 => ?_) fun hout => absurd hout (by decide)
  refine liftParse_inside (fun e => hashToAddress_error) fun receiver => ?_
  refine wp_setFields_any ?_
  have hend : max (max (max (max s.fieldEnd 8) 16) 17) 37 ≤ pkt.pktSize := by omega
  split
  · exact inside_false
  · rw [← bind_pure (liftParse _)]
    exact liftParse_inside (fun e => isValidAddress_error) fun ok => inside_pure hend

end Fixed

/-! ## Parsers that leave the payload -/

section Iff

variable {o : ByteOrder} {pkt : Packet} {s : ParseState}

/-- A parser with a minimum size, under a condition on the packets that are long enough. -/
theorem inside_size_iff {n : Nat} {x : ParseM Bool} {c : Prop} (h : n ≤ pkt.pktSize → (Inside pkt x s ↔ c)) :
    Inside pkt (if pkt.pktSize < n then pure false else x) s ↔ (n ≤ pkt.pktSize → c) := by
  by_cases hn : pkt.pktSize < n
  · rw [if_pos hn]
    exact ⟨fun _ hle => absurd hn (not_lt.mpr hle), fun _ => inside_false⟩
  · rw [if_neg hn, h (not_lt.mp hn)]
    exact ⟨fun hc _ => hc, fun hc => hc (not_lt.mp hn)⟩

theorem interpretContractOrder_inside_iff (hs : s.fieldEnd ≤ 4)
    (f : CMPTransaction → CMPTransaction) :
    Inside pkt (interpretContractOrder o pkt f) s ↔ (33 ≤ pkt.pktSize → 37 ≤ pkt.pktSize) := by
  refine inside_size_iff fun hsize => wp_iff_of_exits ?_
  refine wp_read32_in (by decide) fun v => wp_read64_in (by decide) fun v =>
    wp_read32_in (by decide) fun v => wp_read64_in (by decide) fun v =>
    wp_read64_in (by decide) fun v => wp_read8_in (by decide) fun v => wp_setFields_any ?_
  refine (wp_pure _ _ _ _).mpr ?_
  show (true = true → max (max (max (max (max (max s.fieldEnd 8) 16) 20) 28) 36) 37 ≤ pkt.pktSize) ↔
    37 ≤ pkt.pktSize
  simp only [forall_true_left]
  omega

theorem interpretAlert_inside_iff (hs : s.fieldEnd ≤ 4) :
    Inside pkt (interpretAlert o pkt) s ↔
      (11 ≤ pkt.pktSize → 10 + (Wire.cString pkt.pkt 10).length < pktBufferSize ∧
        10 + min (Wire.cString pkt.pkt 10).length 255 ≤ pkt.pktSize) := by
  refine inside_size_iff fun hsize => wp_iff_of_exits ?_
  refine wp_read16_in (by decide) fun v => wp_read32_in (by decide) fun v => ?_
  unfold readString
  dsimp only
  rw [wp_bind, wp_ite]
  constructor
  · intro hin
    rw [wp_bind, wp_modify, wp_pure]
    refine wp_setFields_any ((wp_pure _ _ _ _).mpr ?_)
    have hover : (!pkt.isOverrun 10) = true := by
      unfold Packet.isOverrun
      rw [Bool.not_eq_true', decide_eq_false_iff_not]
      omega
    rw [hover]
    simp only [forall_true_left]
    show max (max (max s.fieldEnd 6) 10) (10 + min (Wire.cString pkt.pkt 10).length 255) ≤ pkt.pktSize ↔ _
    omega
  · intro hout
    rw [wp_throw]
    exact ⟨fun h => absurd rfl h, fun h => absurd h.1 hout⟩

/-- Texts that end in the buffer are copied into fields up to their end; texts that do not are read
    beyond it. -/
theorem wp_readStrings_any {α : Type} {Q : α → ParseState → Prop} {E : Halt → ParseState → Prop}
    {n p : Nat} {k : List (List UInt8) × Nat → ParseM α}
    (hin : ∀ e, stringsEnd pkt.pkt n p = some e → ∀ strs fieldEnd,
      fieldEnd ≤ max s.fieldEnd e → p + n ≤ e → wp (k (strs, e)) Q E ⟨s.tx, fieldEnd⟩)
    (hout : stringsEnd pkt.pkt n p = none → ∀ s', E .undefinedBehaviour s') :
    wp (readStrings pkt n p >>= k) Q E s := by
  induction n generalizing p s k with
  | zero =>
      show wp (pure ([], p) >>= k) Q E s
      rw [pure_bind]
      exact hin p rfl _ _ (by omega) (by omega)
  | succ n ih =>
      show wp ((readString pkt p >>= fun str =>
        readStrings pkt n (p + (str.length + 1)) >>= fun r => pure (str :: r.1, r.2)) >>= k) Q E s
      rw [bind_assoc]
      unfold readString
      dsimp only
      unfold stringsEnd at hin hout
      by_cases hlen : p + (Wire.cString pkt.pkt p).length < pktBufferSize
      · rw [if_pos hlen] at hin hout
        rw [if_pos hlen, bind_assoc, wp_bind, wp_modify, pure_bind, bind_assoc]
        refine ih (fun e he strs fieldEnd hle hmono => ?_) hout
        rw [pure_bind]
        refine hin e he _ _ ?_ (by omega)
        have hcut : p + min (Wire.cString pkt.pkt p).length (spStringFieldLen - 1) ≤ e := by omega
        dsimp only at hle
        omega
      · rw [if_neg hlen] at hin hout
        rw [if_neg hlen, wp_bind, wp_throw]
        exact hout rfl s

/-- What an issuance does behind its five texts decides. -/
theorem wp_readPropertyHeader_any {α : Type} {Q : α → ParseState → Prop}
    {E : Halt → ParseState → Prop} {k : Nat → ParseM α} (hs : s.fieldEnd ≤ 4)
    (hin : ∀ e, stringsEnd pkt.pkt 5 11 = some e → ∀ tx fieldEnd, fieldEnd ≤ e →
      wp (k e) Q E ⟨tx, fieldEnd⟩)
    (hout : stringsEnd pkt.pkt 5 11 = none → ∀ s', E .undefinedBehaviour s') :
    wp (readPropertyHeader o pkt >>= k) Q E s := by
  unfold readPropertyHeader
  rw [bind_assoc]
  refine wp_read8_in (by decide) fun v => ?_
  rw [bind_assoc]
  refine wp_read16_in (by decide) fun v => ?_
  rw [bind_assoc]
  refine wp_read32_in (by decide) fun v => ?_
  rw [bind_assoc]
  refine wp_readStrings_any (fun e he strs fieldEnd hle hmono => ?_) hout
  rw [bind_assoc]
  refine wp_setFields_any ?_
  rw [pure_bind]
  refine hin e he _ _ ?_
  have hmax : fieldEnd ≤ max (max (max (max s.fieldEnd 5) 7) 11) e := hle
  show fieldEnd ≤ e
  omega

/-- The pointer is not behind the end of the packet. -/
theorem not_isOverrun_iff {p : Nat} : (!pkt.isOverrun p) = true ↔ p ≤ pkt.pktSize := by
  unfold Packet.isOverrun
  rw [Bool.not_eq_true', decide_eq_false_iff_not, not_lt]

theorem interpretCreatePropertyManaged_inside_iff (hs : s.fieldEnd ≤ 4) :
    Inside pkt (interpretCreatePropertyManaged o pkt) s ↔
      (17 ≤ pkt.pktSize → pkt.TextsEnd fun _ => True) := by
  refine inside_size_iff fun hsize => wp_iff_of_exits ?_
  unfold Packet.TextsEnd
  refine wp_readPropertyHeader_any hs (fun e he tx fieldEnd hle => ?_) fun hnone s' => ?_
  · refine (wp_pure _ _ _ _).mpr ?_
    rw [he, not_isOverrun_iff]
    show (e ≤ pkt.pktSize → fieldEnd ≤ pkt.pktSize) ↔ True
    exact ⟨fun _ => trivial, fun _ h => le_trans hle h⟩
  · rw [hnone]
    exact ⟨fun h => absurd rfl h, fun h => h.elim⟩

theorem interpretCreatePropertyFixed_inside_iff (hs : s.fieldEnd ≤ 4) :
    Inside pkt (interpretCreatePropertyFixed o pkt) s ↔
      (25 ≤ pkt.pktSize → pkt.TextsEnd fun e => e + 8 ≤ pktBufferSize) := by
  refine inside_size_iff fun hsize => wp_iff_of_exits ?_
  unfold Packet.TextsEnd
  refine wp_readPropertyHeader_any hs (fun e he tx fieldEnd hle => ?_) fun hnone s' => ?_
  · rw [he]
    refine wp_read64_any (fun hin v => wp_setFields_any ((wp_pure _ _ _ _).mpr ?_)) fun hout => ?_
    · rw [not_isOverrun_iff]
      show (e + 8 ≤ pkt.pktSize → max fieldEnd (e + 8) ≤ pkt.pktSize) ↔ e + 8 ≤ pktBufferSize
      exact ⟨fun _ => hin, fun _ h => by omega⟩
    · exact ⟨fun h => absurd rfl h, fun h => absurd h (not_le.mpr hout)⟩
  · rw [hnone]
    exact ⟨fun h => absurd rfl h, fun h => h.elim⟩

/-- The terms of a crowdsale reach 22 bytes behind the texts. -/
theorem wp_readCrowdsaleTerms_any {α : Type} {Q : α → ParseState → Prop}
    {E : Halt → ParseState → Prop} {p : Nat} {k : Unit → ParseM α} (hs : s.fieldEnd ≤ p)
    (hin : p + 22 ≤ pktBufferSize → ∀ tx, wp (k ()) Q E ⟨tx, p + 22⟩)
    (hout : pktBufferSize < p + 22 → ∀ s', E .undefinedBehaviour s') :
    wp (readCrowdsaleTerms o pkt p >>= k) Q E s := by
  unfold readCrowdsaleTerms
  rw [bind_assoc]
  refine wp_read32_any (fun h1 v => ?_) fun h => hout (by omega) _
  rw [bind_assoc]
  refine wp_read64_any (fun h2 v => ?_) fun h => hout (by omega) _
  rw [bind_assoc]
  refine wp_read64_any (fun h3 v => ?_) fun h => hout (by omega) _
  rw [bind_assoc]
  refine wp_read8_any (fun h4 v => ?_) fun h => hout (by omega) _
  rw [bind_assoc]
  refine wp_read8_any (fun h5 v => wp_setFields_any ?_) fun h => hout (by omega) _
  have hend : max (max (max (max (max s.fieldEnd (p + 4)) (p + 4 + 8)) (p + 12 + 8)) (p + 20 + 1))
      (p + 21 + 1) = p + 22 := by omega
  show wp (k ()) Q E ⟨_, max (max (max (max (max s.fieldEnd (p + 4)) (p + 4 + 8)) (p + 12 + 8))
    (p + 20 + 1)) (p + 21 + 1)⟩
  rw [hend]
  exact hin (by omega) _

theorem interpretCreatePropertyVariable_inside_iff (hs : s.fieldEnd ≤ 4) :
    Inside pkt (interpretCreatePropertyVariable o pkt) s ↔
      (39 ≤ pkt.pktSize → pkt.TextsEnd fun e => e + 22 ≤ pktBufferSize) := by
  refine inside_size_iff fun hsize => wp_iff_of_exits ?_
  unfold Packet.TextsEnd
  refine wp_readPropertyHeader_any hs (fun e he tx fieldEnd hle => ?_) fun hnone s' => ?_
  · rw [he]
    refine wp_readCrowdsaleTerms_any hle (fun hin tx => (wp_pure _ _ _ _).mpr ?_) fun hout s' => ?_
    · rw [not_isOverrun_iff]
      exact ⟨fun _ => hin, fun _ h => h⟩
    · exact ⟨fun h => absurd rfl h, fun h => absurd h (not_le.mpr hout)⟩
  · rw [hnone]
    exact ⟨fun h => absurd rfl h, fun h => h.elim⟩

/-- The margin requirement stands in four bytes that the last check does not count. -/
theorem interpretCreateContractDex_inside_iff (hs : s.fieldEnd ≤ 4) :
    Inside pkt (interpretCreateContractDex o pkt) s ↔
      (55 ≤ pkt.pktSize → pkt.TextsEnd fun e =>
        e + 38 ≤ pktBufferSize ∧ (e + 34 ≤ pkt.pktSize → e + 38 ≤ pkt.pktSize)) := by
  refine inside_size_iff fun hsize => wp_iff_of_exits ?_
  unfold Packet.TextsEnd
  refine wp_readPropertyHeader_any hs (fun e he tx fieldEnd hle => ?_) fun hnone s' => ?_
  · rw [he]
    have hbad : ∀ {P : Prop}, pktBufferSize < e + 38 →
        (Halt.undefinedBehaviour ≠ Halt.undefinedBehaviour ↔ e + 38 ≤ pktBufferSize ∧ P) :=
      fun hout => ⟨fun h => absurd rfl h, fun h => absurd h.1 (not_le.mpr hout)⟩
    refine wp_readCrowdsaleTerms_any hle (fun hin tx => ?_) fun hout s' => hbad (by omega)
    refine wp_read32_any (fun h1 v => ?_) fun hout => hbad (by omega)
    refine wp_read32_any (fun h2 v => ?_) fun hout => hbad (by omega)
    refine wp_read32_any (fun h3 v => ?_) fun hout => hbad (by omega)
    refine wp_read32_any (fun h4 v => wp_setFields_any ((wp_pure _ _ _ _).mpr ?_))
      fun hout => hbad (by omega)
    rw [not_isOverrun_iff]
    show (e + 34 ≤ pkt.pktSize → max (max (max (max (e + 22) (e + 22 + 4)) (e + 26 + 4)) (e + 30 + 4))
      (e + 34 + 4) ≤ pkt.pktSize) ↔ e + 38 ≤ pktBufferSize ∧ (e + 34 ≤ pkt.pktSize → e + 38 ≤ pkt.pktSize)
    have hend : max (max (max (max (e + 22) (e + 22 + 4)) (e + 26 + 4)) (e + 30 + 4)) (e + 34 + 4) =
        e + 38 := by omega
    rw [hend]
    exact ⟨fun h => ⟨by omega, h⟩, fun h => h.2⟩
  · rw [hnone]
    exact ⟨fun h => absurd rfl h, fun h => h.elim⟩

end Iff

/-! ## All packets -/

section All

variable {o : ByteOrder} {params : ChainParams} {pkt : Packet}

/-- Behind the header, the parser of the type decides. -/
theorem readsInside_iff_type (tx : CMPTransaction) :
    ReadsInside o params pkt tx ↔ (4 ≤ pkt.pktSize → Inside pkt (interpretType o params pkt (pkt.type o))
      ⟨{ tx with
        version := swapByteOrder16 o (word16 o (slice pkt.pkt 0 2)), type := pkt.type o }, 4⟩) := by
  unfold ReadsInside interpretTransaction interpretTransactionType
  by_cases hsize : pkt.pktSize < 4
  · rw [if_pos hsize, pure_bind]
    exact ⟨fun _ h => absurd h (not_le.mpr hsize), fun _ => inside_false⟩
  · rw [if_neg hsize]
    have hle : 4 ≤ pkt.pktSize := not_lt.mp hsize
    simp only [read16, copyBytes, setFields, wp_bind, wp_ite, wp_modify, wp_pure, wp_throw, wp_get]
    have h0 : 0 + 2 ≤ pktBufferSize := by decide
    have h2 : 2 + 2 ≤ pktBufferSize := by decide
    simp only [h0, h2, hle, forall_true_left, not_true_eq_false, false_implies, and_true]
    rfl

/-- The condition is about packets that are at least as long as a header. -/
theorem sizeOk_of_short (h : pkt.pktSize < 4) (n : Nat) : pkt.SizeOk n := by
  unfold Packet.SizeOk
  split <;> first | trivial | (intro hmin; omega)

theorem interpretType_inside_iff {s : ParseState} (hs : s.fieldEnd ≤ 4) (type : UInt16) :
    Inside pkt (interpretType o params pkt type) s ↔ pkt.SizeOk type.toNat := by
  have hin : ∀ {x : ParseM Bool} {n : Nat}, Inside pkt x s → pkt.SizeOk n = True →
      (Inside pkt x s ↔ pkt.SizeOk n) := by
    intro x n hx hn
    rw [hn, iff_true]
    exact hx
  unfold interpretType
  split
  case h_1 h => rw [h]; exact hin (interpretAmount_inside hs) rfl
  case h_2 h => rw [h]; exact hin (interpretSendToOwners_inside hs) rfl
  case h_3 h => rw [h]; exact hin (interpretSendAll_inside hs) rfl
  case h_4 h => rw [h]; exact hin (interpretTradeOffer_inside hs) rfl
  case h_5 h => rw [h]; exact hin (interpretAmount_inside hs) rfl
  case h_6 h => rw [h]; exact hin (interpretPair_inside hs 1) rfl
  case h_7 h => rw [h]; exact hin (interpretPair_inside hs 2) rfl
  case h_8 h => rw [h]; exact hin (interpretMetaDExCancelPair_inside hs) rfl
  case h_9 h => rw [h]; exact hin (interpretCancelEcosystem_inside hs) rfl
  case h_10 h => rw [h]; exact interpretContractOrder_inside_iff hs _
  case h_11 h => rw [h]; exact interpretContractOrder_inside_iff hs _
  case h_12 h => rw [h]; exact hin (interpretCancelEcosystem_inside hs) rfl
  case h_13 h => rw [h]; exact interpretCreateContractDex_inside_iff hs
  case h_14 h => rw [h]; exact interpretCreatePropertyFixed_inside_iff hs
  case h_15 h => rw [h]; exact interpretCreatePropertyVariable_inside_iff hs
  case h_16 h => rw [h]; exact hin (interpretProperty_inside hs) rfl
  case h_17 h => rw [h]; exact interpretCreatePropertyManaged_inside_iff hs
  case h_18 h => rw [h]; exact hin (interpretAmount_inside hs) rfl
  case h_19 h => rw [h]; exact hin (interpretAmount_inside hs) rfl
  case h_20 h => rw [h]; exact hin (interpretProperty_inside hs) rfl
  case h_21 h => rw [h]; exact hin (interpretProperty_inside hs) rfl
  case h_22 h => rw [h]; exact hin (interpretProperty_inside hs) rfl
  case h_23 h => rw [h]; exact hin (interpretVirtualReference_inside hs) rfl
  case h_24 h => rw [h]; exact hin (interpretVirtualReference_inside hs) rfl
  case h_25 h => rw [h]; exact hin (interpretDeactivation_inside hs) rfl
  case h_26 h => rw [h]; exact hin (interpretActivation_inside hs) rfl
  case h_27 h => rw [h]; exact interpretAlert_inside_iff hs
  case h_28 =>
    -- a type without a parser
    refine hin inside_false ?_
    unfold Packet.SizeOk
    split <;> first | rfl | contradiction

/-- **THE PACKETS THAT ARE NOT READ PAST THEIR END**: exactly those that are large enough for the
    fields that their parser copies without a check. -/
theorem readsInside_iff (o : ByteOrder) (params : ChainParams) (pkt : Packet) (tx : CMPTransaction) :
    ReadsInside o params pkt tx ↔ pkt.SizeOk (pkt.type o).toNat := by
  rw [readsInside_iff_type]
  by_cases hsize : 4 ≤ pkt.pktSize
  · refine ⟨fun h => (interpretType_inside_iff ?_ _).mp (h hsize), fun h _ =>
      (interpretType_inside_iff ?_ _).mpr h⟩
    · exact le_refl 4
    · exact le_refl 4
  · exact ⟨fun _ => sizeOk_of_short (not_le.mp hsize) _, fun _ h => absurd h hsize⟩

end All

/-- A contract order that is cut before its price ends. -/
def cutOrder : List UInt8 :=
  [0, 0, 0, 29, 0, 0, 0, 3, 0, 0, 0, 0, 0, 0, 0, 1, 0, 0, 0, 1, 0, 0, 0, 0, 0, 0, 0, 1, 0, 0, 0, 0, 0]

/-- **FOUR BYTES TOO FAR**: an order of 33 bytes is accepted, and its price and its action are copied
    from behind the payload. -/
theorem cutOrder_read_past :
    ¬ ReadsInside .little plainMain (Packet.ofPayload cutOrder)
      (CMPTransaction.set ⟨['A'], by decide, by decide⟩ none 0 1 100 0 0) := by
  have htype : (Packet.ofPayload cutOrder).type .little = 29 := by decide +kernel
  intro hreads
  have hin := (readsInside_iff_type _).mp hreads (by decide)
  rw [htype] at hin
  have hle := (interpretContractOrder_inside_iff (le_refl 4) _).mp hin (by decide)
  exact absurd hle (by decide)

end OmniCore
