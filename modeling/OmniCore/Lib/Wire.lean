import Mathlib

/-! # Wire — fixed-width integers in a byte buffer

    Integers are written in network byte order, whatever the order of the machine: the
    bytes of a number are swapped in place and its memory is copied. A reader copies the
    bytes back and swaps again. `Holds` says where in a buffer a text of bytes lies; a
    buffer that holds one text after the other holds each of them at its own offset. -/

namespace Wire

/-- The order in which a machine keeps the bytes of a number. -/
inductive ByteOrder
  | little
  | big
  deriving DecidableEq, Repr

/-! ## The memory of a number -/

/-- The bytes of a `uint16_t` in memory. -/
def bytes16 : ByteOrder → UInt16 → List UInt8
  | .little, v => [v.toUInt8, (v >>> 8).toUInt8]
  | .big, v => [(v >>> 8).toUInt8, v.toUInt8]

/-- The bytes of a `uint32_t` in memory. -/
def bytes32 : ByteOrder → UInt32 → List UInt8
  | .little, v => [v.toUInt8, (v >>> 8).toUInt8, (v >>> 16).toUInt8, (v >>> 24).toUInt8]
  | .big, v => [(v >>> 24).toUInt8, (v >>> 16).toUInt8, (v >>> 8).toUInt8, v.toUInt8]

/-- The bytes of a `uint64_t` in memory. -/
def bytes64 : ByteOrder → UInt64 → List UInt8
  | .little, v => [v.toUInt8, (v >>> 8).toUInt8, (v >>> 16).toUInt8, (v >>> 24).toUInt8,
      (v >>> 32).toUInt8, (v >>> 40).toUInt8, (v >>> 48).toUInt8, (v >>> 56).toUInt8]
  | .big, v => [(v >>> 56).toUInt8, (v >>> 48).toUInt8, (v >>> 40).toUInt8, (v >>> 32).toUInt8,
      (v >>> 24).toUInt8, (v >>> 16).toUInt8, (v >>> 8).toUInt8, v.toUInt8]

/-- The number whose memory these bytes are; 0 for another number of bytes. -/
def word16 : ByteOrder → List UInt8 → UInt16
  | .little, [a, b] => a.toUInt16 ||| (b.toUInt16 <<< 8)
  | .big, [b, a] => a.toUInt16 ||| (b.toUInt16 <<< 8)
  | _, _ => 0

/-- The number whose memory these bytes are; 0 for another number of bytes. -/
def word32 : ByteOrder → List UInt8 → UInt32
  | .little, [a, b, c, d] =>
      a.toUInt32 ||| (b.toUInt32 <<< 8) ||| (c.toUInt32 <<< 16) ||| (d.toUInt32 <<< 24)
  | .big, [d, c, b, a] =>
      a.toUInt32 ||| (b.toUInt32 <<< 8) ||| (c.toUInt32 <<< 16) ||| (d.toUInt32 <<< 24)
  | _, _ => 0

/-- The number whose memory these bytes are; 0 for another number of bytes. -/
def word64 : ByteOrder → List UInt8 → UInt64
  | .little, [a, b, c, d, e, f, g, h] =>
      a.toUInt64 ||| (b.toUInt64 <<< 8) ||| (c.toUInt64 <<< 16) ||| (d.toUInt64 <<< 24) |||
        (e.toUInt64 <<< 32) ||| (f.toUInt64 <<< 40) ||| (g.toUInt64 <<< 48) ||| (h.toUInt64 <<< 56)
  | .big, [h, g, f, e, d, c, b, a] =>
      a.toUInt64 ||| (b.toUInt64 <<< 8) ||| (c.toUInt64 <<< 16) ||| (d.toUInt64 <<< 24) |||
        (e.toUInt64 <<< 32) ||| (f.toUInt64 <<< 40) ||| (g.toUInt64 <<< 48) ||| (h.toUInt64 <<< 56)
  | _, _ => 0

/-! ## Swapping the bytes -/

/-- The bytes of a number in the other order, on a machine that keeps them little end first. -/
def swapByteOrder16 : ByteOrder → UInt16 → UInt16
  | .big, v => v
  | .little, v => (v >>> 8) ||| (v <<< 8)

/-- The bytes of a number in the other order, on a machine that keeps them little end first. -/
def swapByteOrder32 : ByteOrder → UInt32 → UInt32
  | .big, v => v
  | .little, v =>
      (v >>> 24) ||| ((v <<< 8) &&& (0x00FF0000 : UInt32)) |||
        ((v >>> 8) &&& (0x0000FF00 : UInt32)) ||| (v <<< 24)

/-- The bytes of a number in the other order, on a machine that keeps them little end first. -/
def swapByteOrder64 : ByteOrder → UInt64 → UInt64
  | .big, v => v
  | .little, v =>
      (v >>> 56) ||| ((v <<< 40) &&& (0x00FF000000000000 : UInt64)) |||
        ((v <<< 24) &&& (0x0000FF0000000000 : UInt64)) |||
        ((v <<< 8) &&& (0x000000FF00000000 : UInt64)) |||
        ((v >>> 8) &&& (0x00000000FF000000 : UInt64)) |||
        ((v >>> 24) &&& (0x0000000000FF0000 : UInt64)) |||
        ((v >>> 40) &&& (0x000000000000FF00 : UInt64)) ||| (v <<< 56)

@[simp] theorem length_bytes16 (o : ByteOrder) (v : UInt16) : (bytes16 o v).length = 2 := by
  cases o <;> rfl

@[simp] theorem length_bytes32 (o : ByteOrder) (v : UInt32) : (bytes32 o v).length = 4 := by
  cases o <;> rfl

@[simp] theorem length_bytes64 (o : ByteOrder) (v : UInt64) : (bytes64 o v).length = 8 := by
  cases o <;> rfl

/-- A machine with the big end first keeps the bytes the other way round. -/
theorem bytes16_big (v : UInt16) : bytes16 .big v = (bytes16 .little v).reverse := rfl

theorem bytes32_big (v : UInt32) : bytes32 .big v = (bytes32 .little v).reverse := rfl

theorem bytes64_big (v : UInt64) : bytes64 .big v = (bytes64 .little v).reverse := rfl

/-! ## Bit by bit -/

theorem word16_bytes16 (o : ByteOrder) (v : UInt16) : word16 o (bytes16 o v) = v := by
  have hlittle : word16 .little (bytes16 .little v) = v := by
    have hlit : ∀ k, BitVec.toNat (OfNat.ofNat k : BitVec 16) = k % 2 ^ 16 := fun _ => rfl
    apply UInt16.eq_of_toBitVec_eq
    apply BitVec.eq_of_getLsbD_eq
    intro i hi
    simp only [word16, bytes16, UInt16.toBitVec_or, UInt16.toBitVec_shiftLeft,
      UInt16.toBitVec_shiftRight, UInt8.toBitVec_toUInt16, UInt16.toBitVec_toUInt8,
      UInt16.toBitVec_ofNat, BitVec.getLsbD_or, BitVec.shiftLeft_eq', BitVec.ushiftRight_eq',
      BitVec.getLsbD_shiftLeft, BitVec.getLsbD_setWidth, BitVec.getLsbD_ushiftRight,
      BitVec.toNat_umod, hlit, Nat.reducePow, Nat.reduceMod]
    interval_cases i <;> simp
  cases o with
  | little => exact hlittle
  | big => exact hlittle

theorem word32_bytes32 (o : ByteOrder) (v : UInt32) : word32 o (bytes32 o v) = v := by
  have hlittle : word32 .little (bytes32 .little v) = v := by
    have hlit : ∀ k, BitVec.toNat (OfNat.ofNat k : BitVec 32) = k % 2 ^ 32 := fun _ => rfl
    apply UInt32.eq_of_toBitVec_eq
    apply BitVec.eq_of_getLsbD_eq
    intro i hi
    simp only [word32, bytes32, UInt32.toBitVec_or, UInt32.toBitVec_shiftLeft,
      UInt32.toBitVec_shiftRight, UInt8.toBitVec_toUInt32, UInt32.toBitVec_toUInt8,
      UInt32.toBitVec_ofNat, BitVec.getLsbD_or, BitVec.shiftLeft_eq', BitVec.ushiftRight_eq',
      BitVec.getLsbD_shiftLeft, BitVec.getLsbD_setWidth, BitVec.getLsbD_ushiftRight,
      BitVec.toNat_umod, hlit, Nat.reducePow, Nat.reduceMod]
    interval_cases i <;> simp
  cases o with
  | little => exact hlittle
  | big => exact hlittle

theorem word64_bytes64 (o : ByteOrder) (v : UInt64) : word64 o (bytes64 o v) = v := by
  have hlittle : word64 .little (bytes64 .little v) = v := by
    have hlit : ∀ k, BitVec.toNat (OfNat.ofNat k : BitVec 64) = k % 2 ^ 64 := fun _ => rfl
    apply UInt64.eq_of_toBitVec_eq
    apply BitVec.eq_of_getLsbD_eq
    intro i hi
    simp only [word64, bytes64, UInt64.toBitVec_or, UInt64.toBitVec_shiftLeft,
      UInt64.toBitVec_shiftRight, UInt8.toBitVec_toUInt64, UInt64.toBitVec_toUInt8,
      UInt64.toBitVec_ofNat, BitVec.getLsbD_or, BitVec.shiftLeft_eq', BitVec.ushiftRight_eq',
      BitVec.getLsbD_shiftLeft, BitVec.getLsbD_setWidth, BitVec.getLsbD_ushiftRight,
      BitVec.toNat_umod, hlit, Nat.reducePow, Nat.reduceMod]
    interval_cases i <;> simp
  cases o with
  | little => exact hlittle
  | big => exact hlittle

/-! Whatever the order of the machine, a swapped number has the same memory. -/

theorem bytes16_swap (o : ByteOrder) (v : UInt16) :
    bytes16 o (swapByteOrder16 o v) = bytes16 .big v := by
  cases o with
  | big => rfl
  | little =>
      have hlit : ∀ k, BitVec.toNat (OfNat.ofNat k : BitVec 16) = k % 2 ^ 16 := fun _ => rfl
      simp only [bytes16, swapByteOrder16, List.cons.injEq, and_true]
      refine ⟨?_, ?_⟩
      all_goals
        apply UInt8.eq_of_toBitVec_eq
        apply BitVec.eq_of_getLsbD_eq
        intro i hi
        simp only [UInt16.toBitVec_toUInt8, UInt16.toBitVec_or,
          UInt16.toBitVec_shiftLeft, UInt16.toBitVec_shiftRight, UInt16.toBitVec_ofNat,
          BitVec.getLsbD_or, BitVec.shiftLeft_eq', BitVec.ushiftRight_eq',
          BitVec.getLsbD_shiftLeft, BitVec.getLsbD_setWidth, BitVec.getLsbD_ushiftRight,
          BitVec.toNat_umod, hlit, Nat.reducePow, Nat.reduceMod]
        interval_cases i <;> simp

theorem bytes32_swap (o : ByteOrder) (v : UInt32) :
    bytes32 o (swapByteOrder32 o v) = bytes32 .big v := by
  cases o with
  | big => rfl
  | little =>
      have hlit : ∀ k, BitVec.toNat (OfNat.ofNat k : BitVec 32) = k % 2 ^ 32 := fun _ => rfl
      simp only [bytes32, swapByteOrder32, List.cons.injEq, and_true]
      refine ⟨?_, ?_, ?_, ?_⟩
      all_goals
        apply UInt8.eq_of_toBitVec_eq
        apply BitVec.eq_of_getLsbD_eq
        intro i hi
        simp only [UInt32.toBitVec_toUInt8, UInt32.toBitVec_or, UInt32.toBitVec_and,
          UInt32.toBitVec_shiftLeft, UInt32.toBitVec_shiftRight, UInt32.toBitVec_ofNat,
          BitVec.getLsbD_or, BitVec.getLsbD_and, BitVec.shiftLeft_eq', BitVec.ushiftRight_eq',
          BitVec.getLsbD_shiftLeft, BitVec.getLsbD_setWidth, BitVec.getLsbD_ushiftRight,
          BitVec.toNat_umod, hlit, Nat.reducePow, Nat.reduceMod]
        interval_cases i <;> simp

theorem bytes64_swap (o : ByteOrder) (v : UInt64) :
    bytes64 o (swapByteOrder64 o v) = bytes64 .big v := by
  cases o with
  | big => rfl
  | little =>
      have hlit : ∀ k, BitVec.toNat (OfNat.ofNat k : BitVec 64) = k % 2 ^ 64 := fun _ => rfl
      simp only [bytes64, swapByteOrder64, List.cons.injEq, and_true]
      refine ⟨?_, ?_, ?_, ?_, ?_, ?_, ?_, ?_⟩
      all_goals
        apply UInt8.eq_of_toBitVec_eq
        apply BitVec.eq_of_getLsbD_eq
        intro i hi
        simp only [UInt64.toBitVec_toUInt8, UInt64.toBitVec_or, UInt64.toBitVec_and,
          UInt64.toBitVec_shiftLeft, UInt64.toBitVec_shiftRight, UInt64.toBitVec_ofNat,
          BitVec.getLsbD_or, BitVec.getLsbD_and, BitVec.shiftLeft_eq', BitVec.ushiftRight_eq',
          BitVec.getLsbD_shiftLeft, BitVec.getLsbD_setWidth, BitVec.getLsbD_ushiftRight,
          BitVec.toNat_umod, hlit, Nat.reducePow, Nat.reduceMod]
        interval_cases i <;> simp

/-- A swapped number is read back on any machine. -/
theorem swap_word16 (o : ByteOrder) (v : UInt16) :
    swapByteOrder16 o (word16 o (bytes16 .big v)) = v := by
  have hword : word16 o (bytes16 .big v) = swapByteOrder16 o v := by
    rw [← bytes16_swap o v, word16_bytes16]
  have htwice : bytes16 o (swapByteOrder16 o (swapByteOrder16 o v)) = bytes16 o v := by
    cases o with
    | big => rfl
    | little =>
        -- the second swap turns the bytes round again
        rw [bytes16_swap, bytes16_big, bytes16_swap, bytes16_big, List.reverse_reverse]
  rw [hword, ← word16_bytes16 o (swapByteOrder16 o _), htwice, word16_bytes16]

/-- A swapped number is read back on any machine. -/
theorem swap_word32 (o : ByteOrder) (v : UInt32) :
    swapByteOrder32 o (word32 o (bytes32 .big v)) = v := by
  have hword : word32 o (bytes32 .big v) = swapByteOrder32 o v := by
    rw [← bytes32_swap o v, word32_bytes32]
  have htwice : bytes32 o (swapByteOrder32 o (swapByteOrder32 o v)) = bytes32 o v := by
    cases o with
    | big => rfl
    | little =>
        -- the second swap turns the bytes round again
        rw [bytes32_swap, bytes32_big, bytes32_swap, bytes32_big, List.reverse_reverse]
  rw [hword, ← word32_bytes32 o (swapByteOrder32 o _), htwice, word32_bytes32]

/-- A swapped number is read back on any machine. -/
theorem swap_word64 (o : ByteOrder) (v : UInt64) :
    swapByteOrder64 o (word64 o (bytes64 .big v)) = v := by
  have hword : word64 o (bytes64 .big v) = swapByteOrder64 o v := by
    rw [← bytes64_swap o v, word64_bytes64]
  have htwice : bytes64 o (swapByteOrder64 o (swapByteOrder64 o v)) = bytes64 o v := by
    cases o with
    | big => rfl
    | little =>
        -- the second swap turns the bytes round again
        rw [bytes64_swap, bytes64_big, bytes64_swap, bytes64_big, List.reverse_reverse]
  rw [hword, ← word64_bytes64 o (swapByteOrder64 o _), htwice, word64_bytes64]

/-! ## Texts of bytes in a buffer -/

/-- The buffer holds the bytes `x` from an offset on. -/
def Holds (buffer : List UInt8) (offset : Nat) (x : List UInt8) : Prop :=
  ∃ before after, buffer = before ++ x ++ after ∧ before.length = offset

/-- The first `n` bytes from an offset on. -/
def slice (buffer : List UInt8) (offset n : Nat) : List UInt8 := (buffer.drop offset).take n

/-- The bytes from an offset on, up to the first 0. -/
def cString (buffer : List UInt8) (offset : Nat) : List UInt8 :=
  (buffer.drop offset).takeWhile (· ≠ 0)

theorem holds_start (x y : List UInt8) : Holds (x ++ y) 0 x := ⟨[], y, rfl, rfl⟩

/-- What follows a text lies behind it. -/
theorem holds_append {buffer x y : List UInt8} {offset : Nat} :
    Holds buffer offset (x ++ y) ↔ Holds buffer offset x ∧ Holds buffer (offset + x.length) y := by
  constructor
  · rintro ⟨before, after, rfl, rfl⟩
    refine ⟨⟨before, y ++ after, by simp, rfl⟩, ⟨before ++ x, after, by simp, by simp⟩⟩
  · rintro ⟨⟨before, after, hx, rfl⟩, ⟨before', after', hy, hlen⟩⟩
    -- both decompositions agree on the first bytes
    have hpre : before' = before ++ x := by
      have heq : before' ++ (y ++ after') = (before ++ x) ++ after := by
        rw [← List.append_assoc, ← hy, hx]
      exact (List.append_inj heq (by simpa using hlen)).1
    refine ⟨before, after', ?_, rfl⟩
    rw [hy, hpre]
    simp

theorem Holds.le {buffer x : List UInt8} {offset : Nat} (h : Holds buffer offset x) :
    offset + x.length ≤ buffer.length := by
  obtain ⟨before, after, rfl, rfl⟩ := h
  simp

theorem Holds.slice_eq {buffer x : List UInt8} {offset : Nat} (h : Holds buffer offset x) :
    slice buffer offset x.length = x := by
  obtain ⟨before, after, rfl, rfl⟩ := h
  unfold slice
  rw [List.append_assoc, List.drop_left, List.take_left]

/-- A text without zeros that ends in a zero is read to its end. -/
theorem Holds.cString_eq {buffer x : List UInt8} {offset : Nat} (h : Holds buffer offset (x ++ [0]))
    (hx : 0 ∉ x) : cString buffer offset = x := by
  obtain ⟨before, after, rfl, rfl⟩ := h
  unfold cString
  rw [List.append_assoc, List.drop_left, List.append_assoc]
  have hall : ∀ b ∈ x, decide (b ≠ 0) = true := by
    intro b hb
    rw [decide_eq_true_eq]
    rintro rfl
    exact hx hb
  rw [List.takeWhile_append_of_pos hall]
  simp

end Wire
