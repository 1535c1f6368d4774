import OmniCore.Lib.Radix
import OmniCore.State

/-! # Base58 — addresses and the bytes they stand for

    An address is the base58 numeral of a version byte, a hash of 20 bytes and the first
    four bytes of a checksum; every leading zero byte is a leading `1`. Payloads carry
    the version and the hash, and the address is made from them again. -/

namespace OmniCore

open TextRec Radix Exec

/-! ## The numerals -/

/-- All alphanumeric characters except for `0`, `I`, `O`, and `l`. -/
def pszBase58 : Text := "123456789ABCDEFGHJKLMNPQRSTUVWXYZabcdefghijkmnopqrstuvwxyz".toList

/-- `isspace`. -/
def isSpace (c : Char) : Bool := c.toNat == 32 || (decide (9 ≤ c.toNat) && decide (c.toNat ≤ 13))

/-- Applies "b256 = b256 * 58 + ch" for every character up to a space; the bytes of `b256` are listed
    from the end of the array. -/
def decodeDigits : List Nat → Text → Except Halt (Option (List Nat × Text))
  | b256, [] => pure (some (b256, []))
  | b256, ch :: rest =>
      if isSpace ch then pure (some (b256, ch :: rest))
      else if pszBase58.contains ch then
        let r := mulAdd 256 58 b256 (pszBase58.idxOf ch)
        if r.2 = 0 then decodeDigits r.1 rest else throw (.assertFailed .condition)
      else pure none

/-- `DecodeBase58`. -/
def decodeBase58 (psz : Text) : Except Halt (Option (List UInt8)) := do
  let psz := psz.dropWhile isSpace
  let zeroes := (psz.takeWhile (· == '1')).length
  let psz := psz.dropWhile (· == '1')
  -- log(58) / log(256), rounded up
  match ← decodeDigits (List.replicate (psz.length * 733 / 1000 + 1) 0) psz with
  | none => pure none
  | some (b256, rest) =>
      if (rest.dropWhile isSpace).isEmpty then
        pure (some (List.replicate zeroes 0 ++ (b256.reverse.dropWhile (· = 0)).map UInt8.ofNat))
      else pure none

/-- Applies "b58 = b58 * 256 + ch" for every byte; `length` digits are in use. -/
def encodeDigits : List Nat → Nat → List UInt8 → Except Halt (List Nat × Nat)
  | b58, length, [] => pure (b58, length)
  | b58, length, ch :: rest =>
      let r := mulAddUpTo 58 256 length b58 ch.toNat
      if r.2.1 = 0 then encodeDigits r.1 r.2.2 rest else throw (.assertFailed .condition)

/-- The character of a digit. -/
def base58Char (d : Nat) : Char := (pszBase58[d]?).getD '1'

/-- `EncodeBase58`. -/
def encodeBase58 (bytes : List UInt8) : Except Halt Text := do
  let zeroes := (bytes.takeWhile (· == 0)).length
  let bytes := bytes.dropWhile (· == 0)
  -- log(256) / log(58), rounded up
  let (b58, length) ← encodeDigits (List.replicate (bytes.length * 138 / 100 + 1) 0) 0 bytes
  pure (List.replicate zeroes '1' ++
    ((b58.take length).reverse.dropWhile (· = 0)).map base58Char)

/-! ## Addresses -/

/-- What the network fixes about addresses: the version bytes, and the double SHA-256, of which only
    the first four bytes are used. -/
structure ChainParams where
  pubkeyAddress : UInt8
  scriptAddress : UInt8
  hash : List UInt8 → List UInt8

/-- Main network, with a checksum that is always zero. -/
def plainMain : ChainParams := ⟨0, 5, fun _ => List.replicate 32 0⟩

/-- `EncodeBase58Check`. -/
def encodeBase58Check (params : ChainParams) (vch : List UInt8) : Except Halt Text :=
  encodeBase58 (vch ++ (params.hash vch).take 4)

/-- `DecodeBase58Check`. -/
def decodeBase58Check (params : ChainParams) (psz : Text) : Except Halt (Option (List UInt8)) := do
  match ← decodeBase58 psz with
  | none => pure none
  | some vch =>
      if vch.length < 4 then pure none
      else if (params.hash (vch.take (vch.length - 4))).take 4 = vch.drop (vch.length - 4) then
        pure (some (vch.take (vch.length - 4)))
      else pure none

/-- `CBase58Data`; the version is one byte, and empty like the data if the text was refused. -/
structure CBase58Data where
  vchVersion : List UInt8
  vchData : List UInt8

/-- `CBase58Data::SetString`. -/
def CBase58Data.setString (params : ChainParams) (psz : Text) : Except Halt CBase58Data := do
  match ← decodeBase58Check params psz with
  | none => pure ⟨[], []⟩
  | some vch => if vch.isEmpty then pure ⟨[], []⟩ else pure ⟨vch.take 1, vch.drop 1⟩

/-- `CBitcoinAddress::IsValid`. -/
def CBase58Data.isValid (params : ChainParams) (d : CBase58Data) : Bool :=
  d.vchData.length == 20 &&
    (d.vchVersion == [params.pubkeyAddress] || d.vchVersion == [params.scriptAddress])

/-- `CBitcoinAddress(address).IsValid()`. -/
def isValidAddress (params : ChainParams) (address : Text) : Except Halt Bool := do
  let d ← CBase58Data.setString params address
  pure (d.isValid params)

/-- `HashToAddress`. -/
def hashToAddress (params : ChainParams) (version : UInt8) (hash : List UInt8) : Except Halt Text :=
  if version = params.pubkeyAddress then encodeBase58Check params (params.pubkeyAddress :: hash)
  else if version = params.scriptAddress then
    encodeBase58Check params (params.scriptAddress :: hash)
  else pure []

/-- `AddressToBytes`: a text of another size is kept with its checksum. -/
def addressToBytes (address : Text) : Except Halt (List UInt8) := do
  match ← decodeBase58 address with
  | none => pure []
  | some addressBytes =>
      pure (if addressBytes.length = 25 then addressBytes.take 21 else addressBytes)

/-! ## Digits and characters -/

/-- A character of the alphabet. -/
theorem mem_pszBase58_of_isBase58 {c : Char} (h : isBase58 c = true) : c ∈ pszBase58 := by
  have hascii : c.toNat < 128 := by
    unfold isBase58 Char.isAlphanum Char.isAlpha Char.isUpper Char.isLower Char.isDigit at h
    simp only [Bool.and_eq_true, Bool.or_eq_true, decide_eq_true_eq] at h
    rcases h.1.1.1.1 with (h | h) | h
    · exact lt_of_le_of_lt h.2 (by decide)
    · exact lt_of_le_of_lt h.2 (by decide)
    · exact lt_of_le_of_lt h.2 (by decide)
  have hall : ∀ n < 128, isBase58 (Char.ofNat n) = true → Char.ofNat n ∈ pszBase58 := by
    decide +kernel
  have hc := hall c.toNat hascii
  rw [Char.ofNat_toNat] at hc
  exact hc h

/-- The digit a character stands for. -/
def base58Digit (c : Char) : Nat := pszBase58.idxOf c

theorem base58Digit_lt {c : Char} (h : c ∈ pszBase58) : base58Digit c < 58 :=
  List.idxOf_lt_length_of_mem h

theorem base58Char_digit {c : Char} (h : c ∈ pszBase58) : base58Char (base58Digit c) = c := by
  unfold base58Char base58Digit
  rw [List.getElem?_idxOf h]
  rfl

theorem base58Digit_eq_zero {c : Char} (h : c ∈ pszBase58) : base58Digit c = 0 ↔ c = '1' := by
  constructor
  · intro h0
    rw [← base58Char_digit h, h0]
    rfl
  · rintro rfl
    decide

theorem not_isSpace_of_mem {c : Char} (h : c ∈ pszBase58) : isSpace c = false := by
  have hall : pszBase58.all (fun c => decide (32 < c.toNat)) = true := by decide +kernel
  have hc : 32 < c.toNat := of_decide_eq_true (List.all_eq_true.mp hall c h)
  unfold isSpace
  simp only [Bool.or_eq_false_iff, beq_eq_false_iff_ne, Bool.and_eq_false_iff, decide_eq_false_iff_not]
  omega

/-- The digits of a text, most significant first. -/
def base58Digits (t : Text) : List Nat := t.map base58Digit

theorem base58Digits_lt {t : Text} (ht : ∀ c ∈ t, c ∈ pszBase58) : ∀ d ∈ base58Digits t, d < 58 := by
  intro d hd
  obtain ⟨c, hc, rfl⟩ := List.mem_map.mp hd
  exact base58Digit_lt (ht c hc)

/-! ## The two loops -/

/-- **READING A NUMERAL**: an array that is long enough for the text ends up with its value, and no
    assertion fails. -/
theorem decodeDigits_spec {t : Text} (ht : ∀ c ∈ t, c ∈ pszBase58) {b256 : List Nat}
    (hlt : ∀ d ∈ b256, d < 256)
    (hroom : (Nat.ofDigits 256 b256 + 1) * 58 ^ t.length ≤ 256 ^ b256.length) :
    ∃ l, decodeDigits b256 t = .ok (some (l, [])) ∧ (∀ d ∈ l, d < 256) ∧
      Nat.ofDigits 256 l =
        58 ^ t.length * Nat.ofDigits 256 b256 + Nat.ofDigits 58 (base58Digits t).reverse := by
  induction t generalizing b256 with
  | nil => exact ⟨b256, rfl, hlt, by simp [base58Digits]⟩
  | cons c rest ih =>
      have hc : c ∈ pszBase58 := ht c (by simp)
      have hdigit := base58Digit_lt hc
      have hpow : 0 < 58 ^ rest.length := by positivity
      -- the array has room for this digit and for those that follow
      have hnext : (58 * Nat.ofDigits 256 b256 + base58Digit c + 1) * 58 ^ rest.length ≤
          256 ^ b256.length := by
        calc (58 * Nat.ofDigits 256 b256 + base58Digit c + 1) * 58 ^ rest.length
            ≤ ((Nat.ofDigits 256 b256 + 1) * 58) * 58 ^ rest.length :=
              Nat.mul_le_mul_right _ (by omega)
          _ = (Nat.ofDigits 256 b256 + 1) * 58 ^ (rest.length + 1) := by ring
          _ ≤ 256 ^ b256.length := hroom
      have hfits : 58 * Nat.ofDigits 256 b256 + base58Digit c < 256 ^ b256.length :=
        lt_of_lt_of_le (Nat.lt_succ_self _) (le_trans (Nat.le_mul_of_pos_right _ hpow) hnext)
      obtain ⟨hcarry, hvalue⟩ := mulAdd_fits hfits
      have hstep : decodeDigits b256 (c :: rest) =
          decodeDigits (mulAdd 256 58 b256 (base58Digit c)).1 rest := by
        unfold base58Digit at hcarry ⊢
        simp only [decodeDigits, not_isSpace_of_mem hc, List.contains_iff_mem.mpr hc, hcarry,
          Bool.false_eq_true, if_false, if_true]
      obtain ⟨l, hl, hbytes, hend⟩ := ih (fun x hx => ht x (by simp [hx]))
        (lt_of_mem_mulAdd (by decide) b256 (base58Digit c))
        (by rw [hvalue, length_mulAdd]; exact hnext)
      refine ⟨l, hstep.trans hl, hbytes, ?_⟩
      rw [hend, hvalue]
      have hdigits : (base58Digits (c :: rest)).reverse =
          (base58Digits rest).reverse ++ [base58Digit c] := by
        simp [base58Digits]
      rw [hdigits, Nat.ofDigits_append, Nat.ofDigits_singleton, List.length_reverse,
        List.length_cons]
      unfold base58Digits
      rw [List.length_map]
      ring

/-- **WRITING A NUMERAL**: the same for the other direction, where digits behind the first `length`
    ones are not in use. -/
theorem encodeDigits_spec {bytes : List UInt8} {b58 : List Nat} (length : Nat)
    (hlt : ∀ d ∈ b58, d < 58) (hunused : ∀ d ∈ b58.drop length, d = 0)
    (hroom : (Nat.ofDigits 58 b58 + 1) * 256 ^ bytes.length ≤ 58 ^ b58.length) :
    ∃ l n, encodeDigits b58 length bytes = .ok (l, n) ∧ (∀ d ∈ l, d < 58) ∧
      (∀ d ∈ l.drop n, d = 0) ∧
      Nat.ofDigits 58 l = 256 ^ bytes.length * Nat.ofDigits 58 b58 +
        Nat.ofDigits 256 (bytes.map UInt8.toNat).reverse := by
  induction bytes generalizing b58 length with
  | nil => exact ⟨b58, length, rfl, hlt, hunused, by simp⟩
  | cons byte rest ih =>
      have hbyte : byte.toNat < 256 := byte.toNat_lt
      have hpow : 0 < 256 ^ rest.length := by positivity
      have hnext : (256 * Nat.ofDigits 58 b58 + byte.toNat + 1) * 256 ^ rest.length ≤
          58 ^ b58.length := by
        calc (256 * Nat.ofDigits 58 b58 + byte.toNat + 1) * 256 ^ rest.length
            ≤ ((Nat.ofDigits 58 b58 + 1) * 256) * 256 ^ rest.length :=
              Nat.mul_le_mul_right _ (by omega)
          _ = (Nat.ofDigits 58 b58 + 1) * 256 ^ (rest.length + 1) := by ring
          _ ≤ 58 ^ b58.length := hroom
      have hfits : 256 * Nat.ofDigits 58 b58 + byte.toNat < 58 ^ b58.length :=
        lt_of_lt_of_le (Nat.lt_succ_self _) (le_trans (Nat.le_mul_of_pos_right _ hpow) hnext)
      obtain ⟨hcarry, hvalue⟩ := mulAdd_fits hfits
      -- the loop stops where only zeros are left
      obtain ⟨hsame, hsameCarry, -, hzeros⟩ :=
        mulAddUpTo_eq (b := 58) (m := 256) byte.toNat hunused
      have hstep : encodeDigits b58 length (byte :: rest) =
          encodeDigits (mulAdd 58 256 b58 byte.toNat).1
            (mulAddUpTo 58 256 length b58 byte.toNat).2.2 rest := by
        simp only [encodeDigits, hsameCarry, hcarry, hsame, if_true]
      obtain ⟨l, n, hl, hdigits, hback, hend⟩ := ih _
        (lt_of_mem_mulAdd (by decide) b58 byte.toNat) hzeros
        (by rw [hvalue, length_mulAdd]; exact hnext)
      refine ⟨l, n, hstep.trans hl, hdigits, hback, ?_⟩
      rw [hend, hvalue, List.map_cons, List.reverse_cons, Nat.ofDigits_append,
        Nat.ofDigits_singleton, List.length_reverse, List.length_map, List.length_cons]
      ring

/-! ## There and back -/

/-- The characters of a numeral without leading ones spell its value again. -/
theorem base58_canonical {t : Text} (ht : ∀ c ∈ t, c ∈ pszBase58) (hhead : ∀ c ∈ t.head?, c ≠ '1') :
    (Nat.digits 58 (Nat.ofDigits 58 (base58Digits t).reverse)).reverse.map base58Char = t := by
  have hdigits : ∀ d ∈ (base58Digits t).head?, d ≠ 0 := by
    intro d hd
    unfold base58Digits at hd
    rw [List.head?_map] at hd
    obtain ⟨c, hc, rfl⟩ := Option.mem_map.mp hd
    have hmem : c ∈ pszBase58 := ht c (List.mem_of_mem_head? hc)
    rw [Ne, base58Digit_eq_zero hmem]
    exact hhead c hc
  rw [digits_ofDigits_reverse (by decide) (base58Digits_lt ht) hdigits]
  unfold base58Digits
  rw [List.map_map]
  refine (List.map_congr_left fun c hc => ?_).trans (List.map_id t)
  exact base58Char_digit (ht c hc)

/-- The bytes of a value, written without leading zeros. -/
def valueBytes (v : Nat) : List UInt8 := (Nat.digits 256 v).reverse.map UInt8.ofNat

theorem valueBytes_toNat (v : Nat) : (valueBytes v).map UInt8.toNat = (Nat.digits 256 v).reverse := by
  unfold valueBytes
  rw [List.map_map]
  refine (List.map_congr_left fun d hd => ?_).trans (List.map_id _)
  exact UInt8.toNat_ofNat_of_lt (Nat.digits_lt_base (by decide) (List.mem_reverse.mp hd))

/-- The first byte of a value is not 0. -/
theorem valueBytes_head {v : Nat} : ∀ byte ∈ (valueBytes v).head?, byte ≠ 0 := by
  intro byte hbyte hzero
  have hhead : (0 : Nat) ∈ ((valueBytes v).map UInt8.toNat).head? := by
    rw [List.head?_map, Option.mem_map]
    exact ⟨byte, hbyte, by rw [hzero]; rfl⟩
  rw [valueBytes_toNat, List.head?_reverse] at hhead
  by_cases hv : v = 0
  · simp [hv] at hhead
  · have hne : Nat.digits 256 v ≠ [] := Nat.digits_ne_nil_iff_ne_zero.mpr hv
    rw [List.getLast?_eq_getLast_of_ne_nil hne, Option.mem_some] at hhead
    exact Nat.getLast_digit_ne_zero 256 hv hhead

/-- Leading copies of a character, in front of a text that starts with another one. -/
theorem leading_copies {α : Type} [BEq α] [LawfulBEq α] (n : Nat) (c : α) {x : List α}
    (hx : ∀ d ∈ x.head?, d ≠ c) :
    (List.replicate n c ++ x).takeWhile (· == c) = List.replicate n c ∧
      (List.replicate n c ++ x).dropWhile (· == c) = x := by
  have hpos : ∀ d ∈ List.replicate n c, (d == c) = true := by
    intro d hd
    rw [List.eq_of_mem_replicate hd]
    exact BEq.rfl
  rw [List.takeWhile_append_of_pos hpos, List.dropWhile_append_of_pos hpos]
  cases x with
  | nil => simp
  | cons d y => simp [hx d rfl]

/-- Every text is a number of leading ones and a numeral without leading ones. -/
theorem exists_leading_ones (t : Text) :
    ∃ n rest, t = List.replicate n '1' ++ rest ∧ ∀ c ∈ rest.head?, c ≠ '1' := by
  induction t with
  | nil => exact ⟨0, [], rfl, by simp⟩
  | cons c t ih =>
      by_cases hc : c = '1'
      · obtain ⟨n, rest, ht, hhead⟩ := ih
        refine ⟨n + 1, rest, ?_, hhead⟩
        rw [hc, ht, List.replicate_succ, List.cons_append]
      · exact ⟨0, c :: t, rfl, by simpa using hc⟩

theorem decodeBase58_eq (n : Nat) {rest : Text} (hrest : ∀ c ∈ rest, c ∈ pszBase58)
    (hhead : ∀ c ∈ rest.head?, c ≠ '1') :
    decodeBase58 (List.replicate n '1' ++ rest) = .ok (some
      (List.replicate n 0 ++ valueBytes (Nat.ofDigits 58 (base58Digits rest).reverse))) := by
  have hspace : (List.replicate n '1' ++ rest).dropWhile isSpace = List.replicate n '1' ++ rest := by
    cases n with
    | zero =>
        cases rest with
        | nil => rfl
        | cons c rest => simp [not_isSpace_of_mem (hrest c (by simp))]
    | succ n => rfl
  obtain ⟨hones, hnumeral⟩ := leading_copies n '1' hhead
  -- the array is long enough for the numeral
  have hroom : (Nat.ofDigits 256 (List.replicate (rest.length * 733 / 1000 + 1) 0) + 1) *
      58 ^ rest.length ≤ 256 ^ (List.replicate (rest.length * 733 / 1000 + 1) 0).length := by
    rw [Nat.ofDigits_replicate_zero, List.length_replicate, Nat.zero_add, Nat.one_mul]
    exact pow_le_capacity (by decide) (by decide) (by decide +kernel) rest.length
  obtain ⟨l, hl, hbytes, hvalue⟩ := decodeDigits_spec hrest (by simp) hroom
  rw [Nat.ofDigits_replicate_zero, Nat.mul_zero, Nat.zero_add] at hvalue
  unfold decodeBase58
  dsimp only
  rw [hspace, hones, hnumeral, List.length_replicate, hl, ← hvalue]
  unfold valueBytes
  rw [← dropWhile_reverse (by decide) hbytes]
  rfl

theorem encodeBase58_eq (n v : Nat) :
    encodeBase58 (List.replicate n 0 ++ valueBytes v) =
      .ok (List.replicate n '1' ++ (Nat.digits 58 v).reverse.map base58Char) := by
  obtain ⟨hzeroes, hbytes⟩ := leading_copies n 0 (valueBytes_head (v := v))
  have hroom : (Nat.ofDigits 58 (List.replicate ((valueBytes v).length * 138 / 100 + 1) 0) + 1) *
      256 ^ (valueBytes v).length ≤
      58 ^ (List.replicate ((valueBytes v).length * 138 / 100 + 1) 0).length := by
    rw [Nat.ofDigits_replicate_zero, List.length_replicate, Nat.zero_add, Nat.one_mul]
    exact pow_le_capacity (by decide) (by decide) (by decide +kernel) _
  obtain ⟨l, used, hl, hdigits, hback, hvalue⟩ := encodeDigits_spec 0 (by simp) (by simp)
    hroom
  rw [Nat.ofDigits_replicate_zero, Nat.mul_zero, Nat.zero_add, valueBytes_toNat,
    List.reverse_reverse, Nat.ofDigits_digits] at hvalue
  have husedLt : ∀ d ∈ l.take used, d < 58 := fun d hd => hdigits d (List.mem_of_mem_take hd)
  unfold encodeBase58
  dsimp only
  rw [hzeroes, hbytes, List.length_replicate, hl, ← hvalue, ← ofDigits_take hback,
    ← dropWhile_reverse (by decide) husedLt]
  rfl

/-- **BASE58 ROUND TRIP**: a text of the alphabet is decoded to bytes that are encoded to it. -/
theorem base58_round_trip {t : Text} (ht : ∀ c ∈ t, c ∈ pszBase58) :
    ∃ bytes, decodeBase58 t = .ok (some bytes) ∧ encodeBase58 bytes = .ok t := by
  obtain ⟨n, rest, rfl, hhead⟩ := exists_leading_ones t
  have hrest : ∀ c ∈ rest, c ∈ pszBase58 := fun c hc => ht c (List.mem_append_right _ hc)
  refine ⟨_, decodeBase58_eq n hrest hhead, ?_⟩
  rw [encodeBase58_eq, base58_canonical hrest hhead]

/-- What a valid address is decoded to: a known version, 20 bytes, and their checksum. -/
theorem isValidAddress_ok {params : ChainParams} {address : Text} {bytes : List UInt8}
    (hdecode : decodeBase58 address = .ok (some bytes))
    (hvalid : isValidAddress params address = .ok true) :
    ∃ version hash160, hash160.length = 20 ∧
      (version = params.pubkeyAddress ∨ version = params.scriptAddress) ∧ bytes.length = 25 ∧
      bytes = version :: hash160 ++ (params.hash (version :: hash160)).take 4 := by
  unfold isValidAddress CBase58Data.setString decodeBase58Check at hvalid
  rw [hdecode] at hvalid
  have hnone : (CBase58Data.mk [] []).isValid params = false := rfl
  by_cases hshort : bytes.length < 4
  · -- too short for a checksum
    have hfalse : Except.ok ((CBase58Data.mk [] []).isValid params) = Except.ok (ε := Halt) true := by
      simpa [hshort] using hvalid
    rw [hnone] at hfalse
    cases hfalse
  by_cases hsum : (params.hash (bytes.take (bytes.length - 4))).take 4 = bytes.drop (bytes.length - 4)
  · cases hbody : bytes.take (bytes.length - 4) with
    | nil =>
        rw [hbody] at hsum
        have hfalse : Except.ok ((CBase58Data.mk [] []).isValid params) =
            Except.ok (ε := Halt) true := by
          simpa [hshort, hsum, hbody] using hvalid
        rw [hnone] at hfalse
        cases hfalse
    | cons version hash160 =>
        rw [hbody] at hsum
        have htrue : (CBase58Data.mk [version] hash160).isValid params = true := by
          simpa [hshort, hsum, hbody] using hvalid
        unfold CBase58Data.isValid at htrue
        rw [Bool.and_eq_true, beq_iff_eq] at htrue
        have hlen : bytes.length - 4 = 21 := by
          have h := congrArg List.length hbody
          rw [List.length_take, List.length_cons] at h
          have h20 : hash160.length = 20 := htrue.1
          omega
        refine ⟨version, hash160, htrue.1, by simpa using htrue.2, by omega, ?_⟩
        rw [hsum, ← hbody, List.take_append_drop]
  · have hfalse : Except.ok ((CBase58Data.mk [] []).isValid params) = Except.ok (ε := Halt) true := by
      simpa [hshort, hsum] using hvalid
    rw [hnone] at hfalse
    cases hfalse

/-- **ADDRESS ROUND TRIP**: the 21 bytes that stand for a valid address give the address again. -/
theorem address_round_trip {params : ChainParams} {a : Address}
    (hvalid : isValidAddress params a.text = .ok true) :
    ∃ version hash160, hash160.length = 20 ∧ addressToBytes a.text = .ok (version :: hash160) ∧
      hashToAddress params version hash160 = .ok a.text := by
  have hmem : ∀ c ∈ a.text, c ∈ pszBase58 := fun c hc =>
    mem_pszBase58_of_isBase58 (List.all_eq_true.mp a.base58 c hc)
  obtain ⟨bytes, hdecode, hencode⟩ := base58_round_trip hmem
  obtain ⟨version, hash160, hlen, hversion, hsize, hbytes⟩ := isValidAddress_ok hdecode hvalid
  refine ⟨version, hash160, hlen, ?_, ?_⟩
  · have htake : bytes.take 21 = version :: hash160 := by
      rw [hbytes, List.take_left' (by simp [hlen])]
    unfold addressToBytes
    rw [hdecode]
    show Except.ok (if bytes.length = 25 then bytes.take 21 else bytes) = _
    rw [if_pos hsize, htake]
  · have hcheck : encodeBase58Check params (version :: hash160) = .ok a.text := by
      unfold encodeBase58Check
      rw [← hbytes, hencode]
    unfold hashToAddress
    by_cases hpub : version = params.pubkeyAddress
    · rw [if_pos hpub, ← hpub, hcheck]
    · rw [if_neg hpub, if_pos (hversion.resolve_left hpub), ← hversion.resolve_left hpub, hcheck]

end OmniCore
