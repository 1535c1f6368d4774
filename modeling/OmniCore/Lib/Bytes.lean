import OmniCore.Lib.Text

/-! # Byte strings — hexadecimal text, masks and pieces

    What programs do with byte strings before they send them: write them as hexadecimal
    text and read them back, mask them with a key stream, and cut them into pieces of one
    size, the last one filled up with zeros. -/

namespace Bytes

open TextRec

/-! ## Hexadecimal text -/

/-- The two lower-case digits of a byte. -/
def hexPair (b : UInt8) : Text := [(b.toNat / 16).digitChar, (b.toNat % 16).digitChar]

/-- Bytes as hexadecimal text. -/
def hexStr (bytes : List UInt8) : Text := bytes.flatMap hexPair

/-- Reads pairs of hexadecimal digits up to the first character that is none. Blanks between the
    pairs are skipped. -/
def parseHex (blank : Char → Bool) : Text → List UInt8
  | [] => []
  | c :: rest =>
      if blank c then parseHex blank rest
      else
        match rest with
        | [] => []
        | d :: rest =>
            match hexDigit? c, hexDigit? d with
            | some hi, some lo => UInt8.ofNat (16 * hi + lo) :: parseHex blank rest
            | _, _ => []

@[simp] theorem hexStr_nil : hexStr [] = [] := rfl

theorem hexStr_cons (b : UInt8) (bytes : List UInt8) :
    hexStr (b :: bytes) = hexPair b ++ hexStr bytes := rfl

theorem hexStr_append (a b : List UInt8) : hexStr (a ++ b) = hexStr a ++ hexStr b :=
  List.flatMap_append

@[simp] theorem length_hexStr (bytes : List UInt8) : (hexStr bytes).length = 2 * bytes.length := by
  induction bytes with
  | nil => rfl
  | cons b rest ih =>
      rw [hexStr_cons, List.length_append, ih, List.length_cons]
      simp only [hexPair, List.length_cons, List.length_nil]
      omega

/-- Leaving out characters two by two leaves out bytes. -/
theorem drop_hexStr (n : Nat) (bytes : List UInt8) :
    (hexStr bytes).drop (2 * n) = hexStr (bytes.drop n) := by
  induction n generalizing bytes with
  | zero => rfl
  | succ n ih =>
      cases bytes with
      | nil => simp
      | cons b rest => exact ih rest

theorem take_hexStr (n : Nat) (bytes : List UInt8) :
    (hexStr bytes).take (2 * n) = hexStr (bytes.take n) := by
  induction n generalizing bytes with
  | zero => rfl
  | succ n ih =>
      cases bytes with
      | nil => simp
      | cons b rest =>
          show (hexPair b ++ hexStr rest).take (2 * n + 2) = _
          rw [List.take_succ_cons, hexStr_cons, hexPair, List.cons_append, List.cons_append,
            List.nil_append, List.take_succ_cons, List.take_succ_cons, ih]
          rfl

/-- A pair of digits reads back as its byte, whatever spelling of the digits is used. -/
theorem parseHex_pair {blank : Char → Bool} {spell : Char → Char}
    (hblank : ∀ d < 16, blank (spell (Nat.digitChar d)) = false)
    (hspell : ∀ d < 16, hexDigit? (spell (Nat.digitChar d)) = some d) (b : UInt8) (rest : Text) :
    parseHex blank ((hexPair b).map spell ++ rest) = b :: parseHex blank rest := by
  have hb := b.toNat_lt
  have hhi : b.toNat / 16 < 16 := by omega
  have hlo : b.toNat % 16 < 16 := Nat.mod_lt _ (by decide)
  have hval : 16 * (b.toNat / 16) + b.toNat % 16 = b.toNat := Nat.div_add_mod _ _
  simp only [hexPair, List.map_cons, List.map_nil, List.cons_append, List.nil_append]
  rw [parseHex.eq_def]
  simp only [hblank _ hhi, hspell _ hhi, hspell _ hlo, hval, UInt8.ofNat_toNat]
  rfl

theorem parseHex_spelled {blank : Char → Bool} {spell : Char → Char}
    (hblank : ∀ d < 16, blank (spell (Nat.digitChar d)) = false)
    (hspell : ∀ d < 16, hexDigit? (spell (Nat.digitChar d)) = some d) (bytes : List UInt8) :
    parseHex blank ((hexStr bytes).map spell) = bytes := by
  induction bytes with
  | nil => rfl
  | cons b rest ih =>
      rw [hexStr_cons, List.map_append, parseHex_pair hblank hspell, ih]

/-- **HEXADECIMAL TEXT READS BACK** as the bytes it was written from. -/
theorem parseHex_hexStr {blank : Char → Bool}
    (hblank : ∀ d < 16, blank (Nat.digitChar d) = false) (bytes : List UInt8) :
    parseHex blank (hexStr bytes) = bytes := by
  have hblank' : ∀ d < 16, blank (id (Nat.digitChar d)) = false := hblank
  have h := parseHex_spelled hblank' (fun d hd => hexDigit?_digitChar hd) bytes
  rwa [List.map_id] at h

/-! ## Masks -/

/-- Byte by byte exclusive or, as far as both strings go. -/
def xorBytes (a mask : List UInt8) : List UInt8 := List.zipWith (· ^^^ ·) a mask

/-- Masking twice gives the bytes back. -/
theorem xorBytes_xorBytes {a mask : List UInt8} (h : a.length ≤ mask.length) :
    xorBytes (xorBytes a mask) mask = a := by
  induction a generalizing mask with
  | nil => rfl
  | cons x rest ih =>
      cases mask with
      | nil => simp at h
      | cons m mask =>
          have hrest : rest.length ≤ mask.length := by simpa using h
          show (x ^^^ m ^^^ m) :: xorBytes (xorBytes rest mask) mask = x :: rest
          rw [ih hrest, UInt8.xor_assoc, UInt8.xor_self, UInt8.xor_zero]

theorem length_xorBytes {a mask : List UInt8} (h : a.length ≤ mask.length) :
    (xorBytes a mask).length = a.length := by
  rw [xorBytes, List.length_zipWith]
  omega

/-! ## Pieces -/

/-- Filled up with zeros to `n` bytes, or cut there. -/
def resize (n : Nat) (bytes : List UInt8) : List UInt8 :=
  bytes.take n ++ List.replicate (n - bytes.length) 0

@[simp] theorem length_resize (n : Nat) (bytes : List UInt8) : (resize n bytes).length = n := by
  rw [resize, List.length_append, List.length_take, List.length_replicate]
  omega

theorem resize_of_length {n : Nat} {bytes : List UInt8} (h : bytes.length = n) :
    resize n bytes = bytes := by
  rw [resize, ← h, List.take_length, Nat.sub_self]
  simp

/-- Pieces of `n` elements; the last one may be shorter. -/
def pieces {α : Type} (n : Nat) (l : List α) : List (List α) :=
  if l = [] ∨ n = 0 then [] else l.take n :: pieces n (l.drop n)
termination_by l.length
decreasing_by
  rename_i h
  rw [not_or] at h
  have hpos := List.length_pos_iff.mpr h.1
  rw [List.length_drop]
  omega

@[simp] theorem pieces_nil {α : Type} (n : Nat) : pieces n ([] : List α) = [] := by
  rw [pieces, if_pos (Or.inl rfl)]

theorem pieces_of_ne {α : Type} {n : Nat} {l : List α} (hl : l ≠ []) (hn : n ≠ 0) :
    pieces n l = l.take n :: pieces n (l.drop n) := by
  rw [pieces, if_neg (not_or.mpr ⟨hl, hn⟩)]

theorem length_pieces_le {α : Type} {n k : Nat} {l : List α} (h : l.length ≤ k * n) :
    (pieces n l).length ≤ k := by
  induction k generalizing l with
  | zero =>
      have hl : l = [] := List.length_eq_zero_iff.mp (by omega)
      simp [hl]
  | succ k ih =>
      by_cases hl : l = [] ∨ n = 0
      · rw [pieces, if_pos hl]
        exact Nat.zero_le _
      · rw [not_or] at hl
        rw [pieces_of_ne hl.1 hl.2, List.length_cons]
        have hdrop : (l.drop n).length ≤ k * n := by
          rw [List.length_drop]
          rw [Nat.succ_mul] at h
          omega
        exact Nat.succ_le_succ (ih hdrop)

/-- **THE PIECES MAKE UP THE STRING**, with zeros up to a multiple of their size. -/
theorem flatMap_resize_pieces {n : Nat} (hn : n ≠ 0) (bytes : List UInt8) :
    (pieces n bytes).flatMap (resize n) =
      bytes ++ List.replicate ((n - bytes.length % n) % n) 0 := by
  induction bytes using pieces.induct n with
  | case1 l hl =>
      have hnil : l = [] := hl.resolve_right hn
      simp [hnil]
  | case2 l hl ih =>
      rw [not_or] at hl
      have hpos := List.length_pos_iff.mpr hl.1
      rw [pieces_of_ne hl.1 hn, List.flatMap_cons, ih]
      by_cases hlen : l.length < n
      · -- the last piece, with its zeros
        have hmod : l.length % n = l.length := Nat.mod_eq_of_lt hlen
        have hzeros : (n - l.length) % n = n - l.length := Nat.mod_eq_of_lt (by omega)
        rw [List.drop_of_length_le hlen.le, resize, List.take_of_length_le hlen.le,
          List.take_of_length_le hlen.le, hmod, hzeros]
        simp
      · -- a full piece
        have hfull : (l.take n).length = n := by
          rw [List.length_take]
          omega
        have hmod : (l.drop n).length % n = l.length % n := by
          rw [List.length_drop, Nat.mod_eq_sub_mod (not_lt.mp hlen)]
        rw [resize_of_length hfull, hmod, ← List.append_assoc, List.take_append_drop]

end Bytes
