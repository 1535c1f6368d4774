import OmniCore.Script

/-! # ClassB — payloads in obfuscated multisig outputs

    A payload is cut into packets of 30 bytes. Each gets a sequence number, is masked with
    its own link of a hash chain that starts at the sender, and becomes a public key by a
    prefix and a last byte that makes it a point of the curve. One or two of these keys go
    into a multisig output, behind the redeeming key. -/

namespace OmniCore

open TextRec Bytes Exec

/-! ## The hash chain -/

/-- `PACKET_SIZE`. -/
def packetSize : Nat := 31

/-- `MAX_PACKETS`. -/
def maxPackets : Nat := 255

/-- `MAX_SHA256_OBFUSCATION_TIMES`. -/
def maxSha256ObfuscationTimes : Nat := 255

/-- A hash function on texts. -/
abbrev Sha256 := Text → Vector UInt8 32

/-- A text up to its first zero byte, as `strcpy` and `strlen` see it. -/
def cString (t : Text) : Text := t.takeWhile fun c => c != '\x00'

/-- One link: the hash in upper-case hexadecimal digits. -/
def obfuscatedHash (sha256 : Sha256) (sha_input : Text) : Text :=
  (hexStr (sha256 (cString sha_input)).toList).map Char.toUpper

/-- Each link is the hash of the one before. -/
def hashChain (sha256 : Sha256) : Nat → Text → List Text
  | 0, _ => []
  | n + 1, sha_input =>
      obfuscatedHash sha256 sha_input ::
        hashChain sha256 n (obfuscatedHash sha256 sha_input)

/-- `PrepareObfuscatedHashes`: entry 0 of the array is never set. -/
def prepareObfuscatedHashes (sha256 : Sha256) (strSeed : Text) (hashCount : Nat) :
    Except Halt (List Text) :=
  if 128 ≤ strSeed.length then .error (.assertFailed .condition)
  else .ok ([] :: hashChain sha256 (min hashCount maxSha256ObfuscationTimes) strSeed)

/-- A link as bytes. -/
def hashBytes (hashes : List Text) (i : Nat) : List UInt8 :=
  parseHexText ((hashes[i]?).getD [])

/-! ## Encoding -/

/-- What the encoder takes from its surroundings: the hash function, whether bytes are a point of
    the curve, the random bytes, the dust threshold of a script and the Exodus address. -/
structure EncodeEnv where
  sha256 : Sha256
  isFullyValid : List UInt8 → Bool
  getRand : Nat → UInt8
  getDustThreshold : CScript → Int
  exodusKeyID : List UInt8

/-- A fake key but for its last byte: prefix, and masked packet with sequence number. -/
def fakeKey (hashes : List Text) (chSeqNum : UInt8) (data : List UInt8) : List UInt8 :=
  0x02 :: xorBytes (resize packetSize (chSeqNum :: data)) (hashBytes hashes chSeqNum.toNat)

/-- Tries last bytes until the key is valid. The loop of the source has no bound: its condition
    tests the index of the outer loop. -/
def fixCoordinate (isFullyValid : List UInt8 → Bool) (key : List UInt8) :
    Nat → UInt8 → Except Halt (List UInt8)
  | 0, _ => .error .outOfFuel
  | fuel + 1, chRandom =>
      if isFullyValid (key ++ [chRandom]) then .ok (key ++ [chRandom])
      else fixCoordinate isFullyValid key fuel (chRandom + 1)

/-- The variables of the encoder that change: the bytes not yet embedded, the next sequence number,
    and how many keys were made. -/
structure EncodeState where
  remaining : List UInt8
  chSeqNum : UInt8
  keysMade : Nat

/-- One pass of the inner loop: up to 30 bytes go into a key. -/
def encodeKey (env : EncodeEnv) (fuel : Nat) (hashes : List Text) (st : EncodeState) :
    Except Halt (List UInt8 × EncodeState) := do
  let key ← fixCoordinate env.isFullyValid
    (fakeKey hashes st.chSeqNum (st.remaining.take (packetSize - 1))) fuel (env.getRand st.keysMade)
  pure (key, ⟨st.remaining.drop (packetSize - 1), st.chSeqNum + 1, st.keysMade + 1⟩)

/-- The inner loop. -/
def encodeKeys (env : EncodeEnv) (fuel : Nat) (hashes : List Text) :
    Nat → EncodeState → Except Halt (List (List UInt8) × EncodeState)
  | 0, st => .ok ([], st)
  | nKeys + 1, st => do
      let (key, st) ← encodeKey env fuel hashes st
      let (keys, st) ← encodeKeys env fuel hashes nKeys st
      pure (key :: keys, st)

/-- The outer loop: multisig outputs with one or two keys of data, while data remains. -/
def encodeOutputs (env : EncodeEnv) (fuel : Nat) (hashes : List Text) (redeemingPubKey : CPubKey) :
    Nat → EncodeState → Except Halt (List CScript)
  | 0, st => if st.remaining = [] then .ok [] else .error .outOfFuel
  | rounds + 1, st =>
      if st.remaining = [] then .ok []
      else do
        let nKeys := if packetSize - 1 < st.remaining.length then 2 else 1
        let (keys, st) ← encodeKeys env fuel hashes nKeys st
        let scripts ← encodeOutputs env fuel hashes redeemingPubKey rounds st
        pure (getScriptForMultisig 1 (redeemingPubKey.vch :: keys) :: scripts)

/-- A script with the smallest amount it may carry. -/
def withDust (env : EncodeEnv) (script : CScript) : CScript × Int :=
  (script, env.getDustThreshold script)

/-- `OmniCore_Encode_ClassB`; `fuel` bounds both loops. -/
def encodeClassB (env : EncodeEnv) (fuel : Nat) (senderAddress : Text) (redeemingPubKey : CPubKey)
    (vchPayload : List UInt8) : Except Halt (List (CScript × Int)) := do
  let hashes ← prepareObfuscatedHashes env.sha256 senderAddress maxSha256ObfuscationTimes
  let scripts ← encodeOutputs env fuel hashes redeemingPubKey fuel ⟨vchPayload, 1, 0⟩
  pure ((scripts ++ [getScriptForKeyID env.exodusKeyID]).map (withDust env))

/-! ## Decoding -/

/-- The keys of all multisig outputs but the first one of each. -/
def multisigScriptData (vout : List CScript) : List Text :=
  (vout.filter isMultisigOutput).flatMap fun script => (getScriptPushes script true).2

/-- One packet: 31 bytes behind the prefix, unmasked. Shorter ones would be read past their end. -/
def deobfuscate (hashes : List Text) (mdata_count : Nat) (data : Text) :
    Except Halt (List UInt8) :=
  if data.length < 2 then .error .exception
  else
    let hash := hashBytes hashes (mdata_count + 1)
    let packet := parseHexText ((data.drop 2).take (2 * packetSize))
    if packet.length < packetSize ∨ hash.length < packet.length then .error .undefinedBehaviour
    else .ok ((xorBytes packet hash).take packetSize)

/-- The packets from one on, in order. -/
def deobfuscateAll (hashes : List Text) : Nat → List Text → Except Halt (List (List UInt8))
  | _, [] => .ok []
  | mdata_count, data :: rest => do
      let packet ← deobfuscate hashes mdata_count data
      let packets ← deobfuscateAll hashes (mdata_count + 1) rest
      pure (packet :: packets)

/-- The class B branch of `parseTransaction`: the first `packet_size` bytes of `single_pkt`. The
    sequence numbers are only compared for the log. -/
def parseClassB (sha256 : Sha256) (strSender : Text) (vout : List CScript) :
    Except Halt (List UInt8) := do
  let multisig_script_data := multisigScriptData vout
  let nPackets := min multisig_script_data.length maxPackets
  let hashes ← prepareObfuscatedHashes sha256 strSender (1 + nPackets)
  let packets ← deobfuscateAll hashes 0 (multisig_script_data.take nPackets)
  pure (packets.flatMap fun packet => (packet.drop 1).take (packetSize - 1))

/-! ## The hash chain is shared -/

theorem hashBytes_link {sha256 : Sha256} {t : Text} :
    parseHexText (obfuscatedHash sha256 t) = (sha256 (cString t)).toList :=
  parseHex_spelled (by decide) (by decide) _

/-- A longer chain begins with the shorter one. -/
theorem hashChain_get {sha256 : Sha256} {n m i : Nat} (hn : i < n) (hm : i < m) (t : Text) :
    (hashChain sha256 n t)[i]? = (hashChain sha256 m t)[i]? := by
  induction i generalizing n m t with
  | zero =>
      obtain ⟨n, rfl⟩ := Nat.exists_eq_succ_of_ne_zero hn.ne'
      obtain ⟨m, rfl⟩ := Nat.exists_eq_succ_of_ne_zero hm.ne'
      rfl
  | succ i ih =>
      obtain ⟨n, rfl⟩ := Nat.exists_eq_succ_of_ne_zero (Nat.ne_zero_of_lt hn)
      obtain ⟨m, rfl⟩ := Nat.exists_eq_succ_of_ne_zero (Nat.ne_zero_of_lt hm)
      exact ih (Nat.succ_lt_succ_iff.mp hn) (Nat.succ_lt_succ_iff.mp hm) _

/-- Every link of the chain is 32 bytes. -/
theorem length_hashBytes {sha256 : Sha256} {n i : Nat} (h : i < n) (t : Text) :
    (hashBytes ([] :: hashChain sha256 n t) (i + 1)).length = 32 := by
  unfold hashBytes
  rw [List.getElem?_cons_succ]
  induction i generalizing n t with
  | zero =>
      obtain ⟨n, rfl⟩ := Nat.exists_eq_succ_of_ne_zero h.ne'
      show (parseHexText (obfuscatedHash sha256 t)).length = 32
      rw [hashBytes_link]
      exact Vector.length_toList
  | succ i ih =>
      obtain ⟨n, rfl⟩ := Nat.exists_eq_succ_of_ne_zero (Nat.ne_zero_of_lt h)
      exact ih (Nat.succ_lt_succ_iff.mp h) _

theorem hashBytes_congr {sha256 : Sha256} {n m i : Nat} (hn : i < n) (hm : i < m) (t : Text) :
    hashBytes ([] :: hashChain sha256 n t) (i + 1) =
      hashBytes ([] :: hashChain sha256 m t) (i + 1) := by
  unfold hashBytes
  rw [List.getElem?_cons_succ, List.getElem?_cons_succ, hashChain_get hn hm]

/-! ## The encoder returns -/

/-- The last byte is found within 256 attempts, whichever byte they start from. -/
theorem fixCoordinate_spec {isFullyValid : List UInt8 → Bool} {key : List UInt8}
    (h : ∃ b, isFullyValid (key ++ [b]) = true) (chRandom : UInt8) :
    ∃ b, ∀ fuel, 256 ≤ fuel → fixCoordinate isFullyValid key fuel chRandom = .ok (key ++ [b]) := by
  have hwalk : ∀ d chRandom, isFullyValid (key ++ [chRandom + UInt8.ofNat d]) = true →
      ∃ b, ∀ fuel, d < fuel → fixCoordinate isFullyValid key fuel chRandom = .ok (key ++ [b]) := by
    intro d
    -- on the distance to a byte that is known to fit
    induction d with
    | zero =>
        intro chRandom hvalid
        have hzero : chRandom + UInt8.ofNat 0 = chRandom := UInt8.add_zero chRandom
        rw [hzero] at hvalid
        refine ⟨chRandom, fun fuel hfuel => ?_⟩
        obtain ⟨fuel, rfl⟩ := Nat.exists_eq_succ_of_ne_zero (Nat.ne_zero_of_lt hfuel)
        rw [fixCoordinate, if_pos hvalid]
    | succ d ih =>
        intro chRandom hvalid
        by_cases hnow : isFullyValid (key ++ [chRandom]) = true
        · refine ⟨chRandom, fun fuel hfuel => ?_⟩
          obtain ⟨fuel, rfl⟩ := Nat.exists_eq_succ_of_ne_zero (Nat.ne_zero_of_lt hfuel)
          rw [fixCoordinate, if_pos hnow]
        · have hnext : chRandom + 1 + UInt8.ofNat d = chRandom + UInt8.ofNat (d + 1) := by
            rw [UInt8.ofNat_add, UInt8.add_assoc, UInt8.add_comm (UInt8.ofNat d)]
            rfl
          rw [← hnext] at hvalid
          obtain ⟨b, hb⟩ := ih (chRandom + 1) hvalid
          refine ⟨b, fun fuel hfuel => ?_⟩
          obtain ⟨fuel, rfl⟩ := Nat.exists_eq_succ_of_ne_zero (Nat.ne_zero_of_lt hfuel)
          rw [fixCoordinate, if_neg hnow, hb fuel (Nat.lt_of_succ_lt_succ hfuel)]
  obtain ⟨valid, hvalid⟩ := h
  have hreach : chRandom + UInt8.ofNat (valid - chRandom).toNat = valid := by
    rw [UInt8.ofNat_toNat, UInt8.add_comm, UInt8.sub_add_cancel]
  obtain ⟨b, hb⟩ := hwalk (valid - chRandom).toNat chRandom (by rw [hreach]; exact hvalid)
  have hlt : (valid - chRandom).toNat < 2 ^ 8 := (valid - chRandom).toNat_lt
  exact ⟨b, fun fuel hfuel => hb fuel (by omega)⟩

/-- The fake keys of packets numbered from `k` on, but for their last bytes. -/
def fakeKeys (hashes : List Text) : Nat → List (List UInt8) → List (List UInt8)
  | _, [] => []
  | k, data :: rest => fakeKey hashes (UInt8.ofNat k) data :: fakeKeys hashes (k + 1) rest

/-- A key is a fake key completed by some byte. -/
def Completes (key fake : List UInt8) : Prop := ∃ b, key = fake ++ [b]

/-- Keys that complete given fake keys, one by one. -/
abbrev CompleteAll : List (List UInt8) → List (List UInt8) → Prop := List.Forall₂ Completes

section Encoder

variable {env : EncodeEnv} {hashes : List Text}

theorem encodeKey_spec {st : EncodeState} {k : Nat} (hseq : st.chSeqNum = UInt8.ofNat k)
    (h : ∃ b, env.isFullyValid
      (fakeKey hashes (UInt8.ofNat k) (st.remaining.take (packetSize - 1)) ++ [b]) = true) :
    ∃ key, Completes key (fakeKey hashes (UInt8.ofNat k) (st.remaining.take (packetSize - 1))) ∧
      ∀ fuel, 256 ≤ fuel → encodeKey env fuel hashes st =
        .ok (key, ⟨st.remaining.drop (packetSize - 1), UInt8.ofNat (k + 1), st.keysMade + 1⟩) := by
  obtain ⟨b, hfix⟩ := fixCoordinate_spec h (env.getRand st.keysMade)
  refine ⟨_, ⟨b, rfl⟩, fun fuel hfuel => ?_⟩
  have hnext : st.chSeqNum + 1 = UInt8.ofNat (k + 1) := by
    rw [hseq, UInt8.ofNat_add]
    rfl
  unfold encodeKey
  rw [hseq, hfix fuel hfuel, ← hseq, hnext]
  rfl

/-- **THE ENCODER RETURNS**: outputs with one or two keys of data each, and these keys taken
    together complete the fake keys of the pieces of the payload, in order. -/
theorem encodeOutputs_spec (redeemingPubKey : CPubKey) {st : EncodeState} {k : Nat}
    (hseq : st.chSeqNum = UInt8.ofNat k)
    (h : ∀ key ∈ fakeKeys hashes k (pieces (packetSize - 1) st.remaining),
      ∃ b, env.isFullyValid (key ++ [b]) = true) :
    ∃ groups : List (List (List UInt8)),
      (∀ keys ∈ groups, 1 ≤ keys.length ∧ keys.length ≤ 2) ∧
      CompleteAll groups.flatten (fakeKeys hashes k (pieces (packetSize - 1) st.remaining)) ∧
      ∀ fuel rounds, 256 ≤ fuel → st.remaining.length ≤ rounds * (packetSize - 1) →
        encodeOutputs env fuel hashes redeemingPubKey rounds st =
          .ok (groups.map fun keys => getScriptForMultisig 1 (redeemingPubKey.vch :: keys)) := by
  obtain ⟨n, hn⟩ : ∃ n, st.remaining.length = n := ⟨_, rfl⟩
  -- on the number of bytes left
  induction n using Nat.strong_induction_on generalizing st k with
  | _ n ih =>
      by_cases hnil : st.remaining = []
      · refine ⟨[], by simp, ?_, fun fuel rounds _ _ => ?_⟩
        · rw [hnil, pieces_nil]
          exact List.Forall₂.nil
        · cases rounds <;> exact if_pos hnil
      · have hpos : 0 < st.remaining.length := List.length_pos_iff.mpr hnil
        have hcons := pieces_of_ne hnil (show packetSize - 1 ≠ 0 by decide)
        rw [hcons] at h ⊢
        obtain ⟨key, hkey, hrun⟩ := encodeKey_spec hseq (h _ List.mem_cons_self)
        by_cases htwo : packetSize - 1 < st.remaining.length
        · -- the output takes a second key
          have hmore : st.remaining.drop (packetSize - 1) ≠ [] := by
            rw [Ne, List.drop_eq_nil_iff]
            omega
          have hcons' := pieces_of_ne hmore (show packetSize - 1 ≠ 0 by decide)
          rw [hcons'] at h ⊢
          have hsecond : (EncodeState.mk (st.remaining.drop (packetSize - 1)) (UInt8.ofNat (k + 1))
              (st.keysMade + 1)).chSeqNum = UInt8.ofNat (k + 1) := rfl
          have hthird : (EncodeState.mk ((st.remaining.drop (packetSize - 1)).drop (packetSize - 1))
              (UInt8.ofNat (k + 2)) (st.keysMade + 2)).chSeqNum = UInt8.ofNat (k + 2) := rfl
          have hless : ((st.remaining.drop (packetSize - 1)).drop (packetSize - 1)).length < n := by
            rw [List.length_drop, List.length_drop, ← hn]
            show st.remaining.length - 30 - 30 < st.remaining.length
            omega
          obtain ⟨key', hkey', hrun'⟩ := encodeKey_spec hsecond
            (h _ (List.mem_cons_of_mem _ List.mem_cons_self))
          obtain ⟨groups, hlen, hall, hrest⟩ := ih _ hless hthird
            (fun fake hfake => h fake (List.mem_cons_of_mem _ (List.mem_cons_of_mem _ hfake))) rfl
          refine ⟨[key, key'] :: groups, ?_, ?_, fun fuel rounds hfuel hrounds => ?_⟩
          · rintro keys (_ | ⟨_, hkeys⟩)
            · exact ⟨Nat.le_succ 1, Nat.le_refl 2⟩
            · exact hlen keys hkeys
          · exact .cons hkey (.cons hkey' hall)
          · obtain ⟨rounds, rfl⟩ : ∃ r, rounds = r + 1 := by
              cases rounds with
              | zero => omega
              | succ r => exact ⟨r, rfl⟩
            have hstep := hrest fuel rounds hfuel (by
              show ((st.remaining.drop 30).drop 30).length ≤ rounds * 30
              change st.remaining.length ≤ (rounds + 1) * 30 at hrounds
              rw [List.length_drop, List.length_drop]
              omega)
            rw [encodeOutputs, if_neg hnil, if_pos htwo]
            simp only [encodeKeys, hrun fuel hfuel, hrun' fuel hfuel, hstep, ok_bind, pure_eq_ok,
              List.map_cons]
        · -- the rest fits into one key
          have hlast : st.remaining.drop (packetSize - 1) = [] := by
            rw [List.drop_eq_nil_iff]
            omega
          refine ⟨[[key]], ?_, ?_, fun fuel rounds hfuel hrounds => ?_⟩
          · rintro keys (_ | ⟨_, hkeys⟩)
            · exact ⟨Nat.le_refl 1, Nat.le_succ 1⟩
            · cases hkeys
          · rw [hlast, pieces_nil]
            exact .cons hkey .nil
          · obtain ⟨rounds, rfl⟩ : ∃ r, rounds = r + 1 := by
              cases rounds with
              | zero => omega
              | succ r => exact ⟨r, rfl⟩
            have hdone : encodeOutputs env fuel hashes redeemingPubKey rounds
                ⟨[], UInt8.ofNat (k + 1), st.keysMade + 1⟩ = .ok [] := by
              cases rounds <;> rfl
            rw [encodeOutputs, if_neg hnil, if_neg htwo]
            simp only [encodeKeys, hrun fuel hfuel, hlast, hdone, ok_bind, pure_eq_ok,
              List.map_cons, List.map_nil]

end Encoder

/-! ## The decoder inverts it -/

section Decoder

variable {hashes hashes' : List Text}

theorem length_fakeKey {chSeqNum : UInt8} {data : List UInt8}
    (h : (hashBytes hashes chSeqNum.toNat).length = 32) :
    (fakeKey hashes chSeqNum data).length = 32 := by
  have hfit : (resize packetSize (chSeqNum :: data)).length ≤
      (hashBytes hashes chSeqNum.toNat).length := by
    rw [length_resize, h]
    decide
  rw [fakeKey, List.length_cons, length_xorBytes hfit, length_resize]
  rfl

/-- A completed key looks like a compressed public key. -/
theorem isValidPubKey_of_completes {key : List UInt8} {chSeqNum : UInt8} {data : List UInt8}
    (h : (hashBytes hashes chSeqNum.toNat).length = 32)
    (hkey : Completes key (fakeKey hashes chSeqNum data)) : isValidPubKey key = true := by
  obtain ⟨b, rfl⟩ := hkey
  have hlen : (fakeKey hashes chSeqNum data ++ [b]).length = 33 := by
    rw [List.length_append, length_fakeKey h]
    rfl
  rw [fakeKey, List.cons_append] at hlen ⊢
  simp only [isValidPubKey, hlen]
  decide

/-- Unmasking gives the packet that went into a key. -/
theorem deobfuscate_completes {key : List UInt8} {k : Nat} {data : List UInt8} (hk : k < 255)
    (hsame : hashBytes hashes' (k + 1) = hashBytes hashes (k + 1))
    (h : (hashBytes hashes (k + 1)).length = 32)
    (hkey : Completes key (fakeKey hashes (UInt8.ofNat (k + 1)) data)) :
    deobfuscate hashes' k (hexStr key) =
      .ok (resize packetSize (UInt8.ofNat (k + 1) :: data)) := by
  obtain ⟨b, rfl⟩ := hkey
  have hnat : (UInt8.ofNat (k + 1)).toNat = k + 1 := toNat_ofNat_of_lt (by omega)
  have hmask : (resize packetSize (UInt8.ofNat (k + 1) :: data)).length ≤
      (hashBytes hashes (k + 1)).length := by
    rw [length_resize, h]
    decide
  have hlen : ¬ (hexStr (fakeKey hashes (UInt8.ofNat (k + 1)) data ++ [b])).length < 2 := by
    rw [length_hexStr, List.length_append, length_fakeKey (by rw [hnat]; exact h)]
    omega
  have hpacket : ((hexStr (fakeKey hashes (UInt8.ofNat (k + 1)) data ++ [b])).drop 2).take
      (2 * packetSize) =
      hexStr (xorBytes (resize packetSize (UInt8.ofNat (k + 1) :: data))
        (hashBytes hashes (k + 1))) := by
    rw [drop_hexStr 1, take_hexStr, fakeKey, hnat, List.cons_append, List.drop_succ_cons,
      List.drop_zero, List.take_left' (by rw [length_xorBytes hmask, length_resize])]
  have hparse : parseHexText (hexStr (xorBytes (resize packetSize (UInt8.ofNat (k + 1) :: data))
      (hashBytes hashes (k + 1)))) =
      xorBytes (resize packetSize (UInt8.ofNat (k + 1) :: data)) (hashBytes hashes (k + 1)) :=
    parseHex_hexStr (by decide) _
  have hbounds : ¬ ((xorBytes (resize packetSize (UInt8.ofNat (k + 1) :: data))
      (hashBytes hashes (k + 1))).length < packetSize ∨ (hashBytes hashes (k + 1)).length <
      (xorBytes (resize packetSize (UInt8.ofNat (k + 1) :: data))
        (hashBytes hashes (k + 1))).length) := by
    rw [length_xorBytes hmask, length_resize, h]
    decide
  have htake : (resize packetSize (UInt8.ofNat (k + 1) :: data)).take packetSize =
      resize packetSize (UInt8.ofNat (k + 1) :: data) :=
    List.take_of_length_le (length_resize _ _).le
  unfold deobfuscate
  rw [if_neg hlen]
  simp only [hpacket, hparse, hsame]
  rw [if_neg hbounds, xorBytes_xorBytes hmask, htake]

/-- Without its number a packet is the piece of the payload, filled up with zeros. -/
theorem drop_packet (chSeqNum : UInt8) (data : List UInt8) :
    ((resize packetSize (chSeqNum :: data)).drop 1).take (packetSize - 1) =
      resize (packetSize - 1) data := by
  have hdrop : (resize packetSize (chSeqNum :: data)).drop 1 = resize (packetSize - 1) data := by
    show (resize (30 + 1) (chSeqNum :: data)).drop 1 = resize 30 data
    rw [resize, List.take_succ_cons, List.cons_append, List.drop_succ_cons, List.drop_zero, resize,
      List.length_cons, Nat.add_sub_add_right]
  rw [hdrop, List.take_of_length_le (length_resize _ _).le]

/-- The packets of completed keys make up the pieces. -/
theorem deobfuscateAll_completes {keys data : List (List UInt8)} {k : Nat}
    (hk : k + data.length ≤ 255)
    (hsame : ∀ i, i < k + data.length → hashBytes hashes' (i + 1) = hashBytes hashes (i + 1))
    (h : ∀ i, i < k + data.length → (hashBytes hashes (i + 1)).length = 32)
    (hkeys : CompleteAll keys (fakeKeys hashes (k + 1) data)) :
    ∃ packets, deobfuscateAll hashes' k (keys.map hexStr) = .ok packets ∧
      (packets.flatMap fun packet => (packet.drop 1).take (packetSize - 1)) =
        data.flatMap (resize (packetSize - 1)) := by
  induction data generalizing k keys with
  | nil =>
      cases hkeys
      exact ⟨[], rfl, rfl⟩
  | cons d data ih =>
      cases hkeys with
      | @cons key _ keys _ hkey hrest =>
          rw [List.length_cons] at hk hsame h
          have hone := deobfuscate_completes (by omega) (hsame k (by omega)) (h k (by omega)) hkey
          obtain ⟨packets, hrun, hflat⟩ := ih (by omega) (fun i hi => hsame i (by omega))
            (fun i hi => h i (by omega)) hrest
          refine ⟨resize packetSize (UInt8.ofNat (k + 1) :: d) :: packets, ?_, ?_⟩
          · rw [List.map_cons, deobfuscateAll, hone, hrun]
            rfl
          · rw [List.flatMap_cons, List.flatMap_cons, hflat, drop_packet]

end Decoder

/-! ## Round trip -/

/-- The fake keys of a payload from a sender, but for their last bytes. -/
def payloadFakeKeys (sha256 : Sha256) (senderAddress : Text) (vchPayload : List UInt8) :
    List (List UInt8) :=
  fakeKeys ([] :: hashChain sha256 maxSha256ObfuscationTimes senderAddress) 1
    (pieces (packetSize - 1) vchPayload)

theorem length_fakeKeys (hashes : List Text) (k : Nat) (data : List (List UInt8)) :
    (fakeKeys hashes k data).length = data.length := by
  induction data generalizing k with
  | nil => rfl
  | cons d data ih => exact congrArg (· + 1) (ih (k + 1))

/-- All keys the encoder makes look like compressed public keys. -/
theorem isValidPubKey_of_completeAll {hashes : List Text} {data : List (List UInt8)} {k : Nat}
    (hk : k + data.length ≤ 256) (h : ∀ i, i < 255 → (hashBytes hashes (i + 1)).length = 32)
    (hk1 : 1 ≤ k) {keys : List (List UInt8)} (hkeys : CompleteAll keys (fakeKeys hashes k data)) :
    ∀ key ∈ keys, isValidPubKey key = true := by
  induction data generalizing k keys with
  | nil =>
      cases hkeys
      intro key hkey
      cases hkey
  | cons d data ih =>
      cases hkeys with
      | @cons key _ keys _ hkey hrest =>
          rw [List.length_cons] at hk
          have hnat : (UInt8.ofNat k).toNat = k := toNat_ofNat_of_lt (by omega)
          have hlen : (hashBytes hashes (UInt8.ofNat k).toNat).length = 32 := by
            have hprev := h (k - 1) (by omega)
            rwa [Nat.sub_add_cancel hk1, ← hnat] at hprev
          rintro x (_ | ⟨_, hx⟩)
          · exact isValidPubKey_of_completes hlen hkey
          · exact ih (by omega) (by omega) hrest x hx

/-- The decoder computes fewer links of the chain than the encoder, but all it needs. -/
theorem parseClassB_of_keys {sha256 : Sha256} {strSender : Text} {vout : List CScript}
    {keys : List (List UInt8)} {vchPayload : List UInt8} (hsender : strSender.length < 128)
    (hpieces : (pieces (packetSize - 1) vchPayload).length ≤ 255)
    (hall : CompleteAll keys (payloadFakeKeys sha256 strSender vchPayload))
    (hdata : multisigScriptData vout = keys.map hexStr) :
    parseClassB sha256 strSender vout =
      .ok (vchPayload ++ List.replicate ((30 - vchPayload.length % 30) % 30) 0) := by
  have hmax : maxSha256ObfuscationTimes = 255 := rfl
  have hcount : keys.length = (pieces (packetSize - 1) vchPayload).length :=
    hall.length_eq.trans (length_fakeKeys _ _ _)
  have hpackets : min (keys.map hexStr).length maxPackets = keys.length := by
    rw [List.length_map, hcount]
    exact Nat.min_eq_left hpieces
  have htake : (keys.map hexStr).take keys.length = keys.map hexStr :=
    List.take_of_length_le (List.length_map hexStr).le
  have hprepare : prepareObfuscatedHashes sha256 strSender (1 + keys.length) =
      .ok ([] :: hashChain sha256 (min (1 + keys.length) maxSha256ObfuscationTimes) strSender) := by
    rw [prepareObfuscatedHashes, if_neg (by omega)]
  have hsame : ∀ i, i < 0 + (pieces (packetSize - 1) vchPayload).length →
      hashBytes ([] :: hashChain sha256 (min (1 + keys.length) maxSha256ObfuscationTimes) strSender)
          (i + 1) =
        hashBytes ([] :: hashChain sha256 maxSha256ObfuscationTimes strSender) (i + 1) := by
    intro i hi
    exact hashBytes_congr (by omega) (by omega) strSender
  obtain ⟨packets, hpacks, hflat⟩ := deobfuscateAll_completes (by omega) hsame
    (fun i hi => length_hashBytes (by omega) strSender) hall
  rw [parseClassB]
  simp only [hdata, hpackets, hprepare, htake, ok_bind, hpacks, hflat, pure_eq_ok]
  rw [flatMap_resize_pieces (by decide)]
  rfl

/-- **CLASS B ROUND TRIP**: the encoder returns, its multisig outputs are recognized as such, and
    every transaction with just these multisig outputs decodes to the payload, filled up with zeros
    to whole packets. -/
theorem classB_round_trip (env : EncodeEnv) (senderAddress : Text) (redeemingPubKey : CPubKey)
    (vchPayload : List UInt8) (hsender : senderAddress.length < 128)
    (hsize : 1 ≤ vchPayload.length ∧ vchPayload.length ≤ 7650)
    (hkeys : ∀ fake ∈ payloadFakeKeys env.sha256 senderAddress vchPayload,
      ∃ b, env.isFullyValid (fake ++ [b]) = true) :
    ∃ multisigs : List CScript,
      (∀ fuel, 256 ≤ fuel → encodeClassB env fuel senderAddress redeemingPubKey vchPayload =
        .ok ((multisigs ++ [getScriptForKeyID env.exodusKeyID]).map (withDust env))) ∧
      (∀ script ∈ multisigs, isMultisigOutput script = true) ∧
      ∀ vout : List CScript, vout.filter isMultisigOutput = multisigs →
        parseClassB env.sha256 senderAddress vout =
          .ok (vchPayload ++ List.replicate ((30 - vchPayload.length % 30) % 30) 0) := by
  have hchain : ∀ i, i < 255 → (hashBytes
      ([] :: hashChain env.sha256 maxSha256ObfuscationTimes senderAddress) (i + 1)).length = 32 :=
    fun i hi => length_hashBytes hi senderAddress
  have hpieces : (pieces (packetSize - 1) vchPayload).length ≤ 255 := length_pieces_le hsize.2
  have hfirst : (EncodeState.mk vchPayload 1 0).chSeqNum = UInt8.ofNat 1 := rfl
  obtain ⟨groups, hgroups, hall, hrun⟩ := encodeOutputs_spec redeemingPubKey hfirst hkeys
  change CompleteAll groups.flatten (payloadFakeKeys env.sha256 senderAddress vchPayload) at hall
  have hvalid := isValidPubKey_of_completeAll (by omega) hchain le_rfl hall
  have hgroup : ∀ keys ∈ groups, (∀ key ∈ redeemingPubKey.vch :: keys, isValidPubKey key = true) ∧
      2 ≤ (redeemingPubKey.vch :: keys).length ∧ (redeemingPubKey.vch :: keys).length ≤ 16 := by
    intro keys hmem
    have hlen := hgroups keys hmem
    refine ⟨?_, ?_, ?_⟩
    · rintro key (_ | ⟨_, hkey⟩)
      · exact redeemingPubKey.valid
      · exact hvalid key (List.mem_flatten.mpr ⟨keys, hmem, hkey⟩)
    · rw [List.length_cons]
      omega
    · rw [List.length_cons]
      omega
  refine ⟨groups.map fun keys => getScriptForMultisig 1 (redeemingPubKey.vch :: keys), ?_, ?_, ?_⟩
  · intro fuel hfuel
    have hprepare : prepareObfuscatedHashes env.sha256 senderAddress maxSha256ObfuscationTimes =
        .ok ([] :: hashChain env.sha256 maxSha256ObfuscationTimes senderAddress) := by
      rw [prepareObfuscatedHashes, if_neg (by omega), Nat.min_self]
    have hscripts := hrun fuel fuel hfuel (by
      show vchPayload.length ≤ fuel * 30
      omega)
    rw [encodeClassB, hprepare, ok_bind, hscripts]
    rfl
  · intro script hscript
    obtain ⟨keys, hmem, rfl⟩ := List.mem_map.mp hscript
    obtain ⟨h1, h2, h3⟩ := hgroup keys hmem
    exact isMultisigOutput_multisig h1 h2 h3
  · intro vout hvout
    -- all data keys, in the order they were made
    have hdata : multisigScriptData vout = groups.flatten.map hexStr := by
      rw [multisigScriptData, hvout, List.flatMap_map, List.map_flatten, ← List.flatMap_def]
      refine List.flatMap_congr fun keys hmem => ?_
      obtain ⟨h1, h2, h3⟩ := hgroup keys hmem
      rw [getScriptPushes_multisig h1 h2 h3]
      rfl
    exact parseClassB_of_keys hsender hpieces hall hdata

/-- An encoder for which every point is valid, with the bytes of the text as its hash. -/
def plainEnv : EncodeEnv where
  sha256 t := Vector.ofFn fun i => UInt8.ofNat ((t[i.val]?).getD 'a').toNat
  isFullyValid _ := true
  getRand _ := 7
  getDustThreshold _ := 546
  exodusKeyID := List.replicate 20 1

/-- A redeeming key. -/
def plainKey : CPubKey := ⟨0x03 :: List.replicate 32 9, by decide⟩

theorem classB_round_trip_plain :
    ∃ multisigs : List CScript,
      (∀ fuel, 256 ≤ fuel → encodeClassB plainEnv fuel "1Exodus".toList plainKey
          (List.replicate 91 5) =
        .ok ((multisigs ++ [getScriptForKeyID plainEnv.exodusKeyID]).map (withDust plainEnv))) ∧
      (∀ script ∈ multisigs, isMultisigOutput script = true) ∧
      ∀ vout : List CScript, vout.filter isMultisigOutput = multisigs →
        parseClassB plainEnv.sha256 "1Exodus".toList vout =
          .ok (List.replicate 91 5 ++
            List.replicate ((30 - (List.replicate 91 (5 : UInt8)).length % 30) % 30) 0) :=
  classB_round_trip plainEnv "1Exodus".toList plainKey (List.replicate 91 5) (by decide)
    (by decide) fun _ _ => ⟨0, rfl⟩

end OmniCore
