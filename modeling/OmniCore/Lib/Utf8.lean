import Mathlib

/-! # UTF-8 — the bytes of characters, as sequences in a byte string

    A character has one to four bytes, and the first of them tells how many. A first byte is no
    other byte of a character, so a sequence found in a byte string is the only one there, and no
    sequence starts inside of another. -/

namespace Utf8

open String (utf8EncodeChar)

/-- The bytes of a character. -/
def IsSequence (l : List UInt8) : Prop := ∃ c : Char, l = utf8EncodeChar c

/-- The bytes of a text. -/
def WellFormed (l : List UInt8) : Prop := ∃ cs : List Char, l = cs.flatMap utf8EncodeChar

theorem WellFormed.cons {l : List UInt8} (h : WellFormed l) (c : Char) :
    WellFormed (utf8EncodeChar c ++ l) := by
  obtain ⟨cs, rfl⟩ := h
  exact ⟨c :: cs, rfl⟩

/-! ## The bytes of a character -/

theorem exists_char {v : Nat} (h : v.isValidChar) : ∃ c : Char, c.val.toNat = v :=
  ⟨Char.ofNatAux v h, rfl⟩

theorem toNat_ofNat {n : Nat} (h : n < 256) : (UInt8.ofNat n).toNat = n := by
  rw [UInt8.toNat_ofNat', Nat.mod_eq_of_lt h]

/-- **THE ENCODING**, by the size of the scalar value. -/
theorem encode_cases (c : Char) :
    (∃ a, utf8EncodeChar c = [a] ∧ c.val.toNat ≤ 0x7F ∧ a.toNat = c.val.toNat) ∨
    (∃ a b, utf8EncodeChar c = [a, b] ∧ 0x80 ≤ c.val.toNat ∧ c.val.toNat ≤ 0x7FF ∧
      a.toNat = c.val.toNat / 64 + 0xC0 ∧ b.toNat = c.val.toNat % 64 + 0x80) ∨
    (∃ a b d, utf8EncodeChar c = [a, b, d] ∧ 0x800 ≤ c.val.toNat ∧ c.val.toNat ≤ 0xFFFF ∧
      a.toNat = c.val.toNat / 4096 + 0xE0 ∧ b.toNat = c.val.toNat / 64 % 64 + 0x80 ∧
      d.toNat = c.val.toNat % 64 + 0x80) ∨
    (∃ a b d e, utf8EncodeChar c = [a, b, d, e] ∧ 0x10000 ≤ c.val.toNat ∧
      a.toNat = c.val.toNat / 262144 + 0xF0 ∧ b.toNat = c.val.toNat / 4096 % 64 + 0x80 ∧
      d.toNat = c.val.toNat / 64 % 64 + 0x80 ∧ e.toNat = c.val.toNat % 64 + 0x80) := by
  have hvalid : c.val.toNat.isValidChar := c.valid
  unfold utf8EncodeChar
  obtain ⟨v, hv⟩ : ∃ v, v = c.val.toNat := ⟨_, rfl⟩
  dsimp only
  rw [← hv] at hvalid ⊢
  unfold Nat.isValidChar at hvalid
  rcases Nat.lt_or_ge 0x7F v with h1 | h1
  · rw [if_neg (by omega)]
    rcases Nat.lt_or_ge 0x7FF v with h2 | h2
    · rw [if_neg (by omega)]
      rcases Nat.lt_or_ge 0xFFFF v with h3 | h3
      · rw [if_neg (by omega)]
        refine .inr (.inr (.inr ⟨_, _, _, _, rfl, h3, ?_, ?_, ?_, ?_⟩))
        all_goals rw [toNat_ofNat (by omega)]
        omega
      · rw [if_pos h3]
        refine .inr (.inr (.inl ⟨_, _, _, rfl, h2, h3, ?_, ?_, ?_⟩))
        all_goals rw [toNat_ofNat (by omega)]
        omega
    · rw [if_pos h2]
      refine .inr (.inl ⟨_, _, rfl, h1, h2, ?_, ?_⟩)
      all_goals rw [toNat_ofNat (by omega)]
      omega
  · rw [if_pos h1]
    exact .inl ⟨_, rfl, h1, toNat_ofNat (by omega)⟩

/-! ## Which byte strings are characters -/

theorem isSequence_one {a : UInt8} : IsSequence [a] ↔ a.toNat ≤ 0x7F := by
  constructor
  · rintro ⟨c, hc⟩
    rcases encode_cases c with ⟨a', he, hv, ha⟩ | ⟨_, _, he, _⟩ | ⟨_, _, _, he, _⟩ |
      ⟨_, _, _, _, he, _⟩ <;> rw [he] at hc <;> cases hc
    omega
  · intro ha
    obtain ⟨c, hc⟩ := exists_char (v := a.toNat) (.inl (by omega))
    refine ⟨c, ?_⟩
    rcases encode_cases c with ⟨a', he, hv, ha'⟩ | ⟨_, _, he, hv, _⟩ | ⟨_, _, _, he, hv, _⟩ |
      ⟨_, _, _, _, he, hv, _⟩
    · rw [he, UInt8.toNat_inj.mp (ha'.trans hc)]
    all_goals omega

theorem isSequence_two {a b : UInt8} : IsSequence [a, b] ↔
    (0xC2 ≤ a.toNat ∧ a.toNat ≤ 0xDF) ∧ 0x80 ≤ b.toNat ∧ b.toNat ≤ 0xBF := by
  constructor
  · rintro ⟨c, hc⟩
    rcases encode_cases c with ⟨_, he, _⟩ | ⟨_, _, he, hv, hv', ha, hb⟩ | ⟨_, _, _, he, _⟩ |
      ⟨_, _, _, _, he, _⟩ <;> rw [he] at hc <;> cases hc
    omega
  · rintro ⟨ha, hb⟩
    obtain ⟨c, hc⟩ := exists_char (v := (a.toNat - 0xC0) * 64 + (b.toNat - 0x80)) (.inl (by omega))
    refine ⟨c, ?_⟩
    rcases encode_cases c with ⟨_, he, hv, _⟩ | ⟨a', b', he, hv, hv', ha', hb'⟩ |
      ⟨_, _, _, he, hv, _⟩ | ⟨_, _, _, _, he, hv, _⟩
    · omega
    · rw [he, UInt8.toNat_inj.mp (show a.toNat = a'.toNat by omega),
        UInt8.toNat_inj.mp (show b.toNat = b'.toNat by omega)]
    all_goals omega

/-- Neither an overlong form nor a surrogate. -/
theorem isSequence_three {a b d : UInt8} : IsSequence [a, b, d] ↔
    (0xE0 ≤ a.toNat ∧ a.toNat ≤ 0xEF) ∧ (0x80 ≤ b.toNat ∧ b.toNat ≤ 0xBF) ∧
      (0x80 ≤ d.toNat ∧ d.toNat ≤ 0xBF) ∧ (a.toNat = 0xE0 → 0xA0 ≤ b.toNat) ∧
      (a.toNat = 0xED → b.toNat ≤ 0x9F) := by
  constructor
  · rintro ⟨c, hc⟩
    have hvalid : c.val.toNat.isValidChar := c.valid
    unfold Nat.isValidChar at hvalid
    rcases encode_cases c with ⟨_, he, _⟩ | ⟨_, _, he, _⟩ | ⟨_, _, _, he, hv, hv', ha, hb, hd⟩ |
      ⟨_, _, _, _, he, _⟩ <;> rw [he] at hc <;> cases hc
    omega
  · rintro ⟨ha, hb, hd, hlow, hsurrogate⟩
    obtain ⟨c, hc⟩ := exists_char
      (v := (a.toNat - 0xE0) * 4096 + (b.toNat - 0x80) * 64 + (d.toNat - 0x80)) (by
        unfold Nat.isValidChar
        omega)
    refine ⟨c, ?_⟩
    rcases encode_cases c with ⟨_, he, hv, _⟩ | ⟨_, _, he, hv, hv', _⟩ |
      ⟨a', b', d', he, hv, hv', ha', hb', hd'⟩ | ⟨_, _, _, _, he, hv, _⟩
    · omega
    · omega
    · rw [he, UInt8.toNat_inj.mp (show a.toNat = a'.toNat by omega),
        UInt8.toNat_inj.mp (show b.toNat = b'.toNat by omega),
        UInt8.toNat_inj.mp (show d.toNat = d'.toNat by omega)]
    · omega

/-- Neither an overlong form nor beyond the last scalar value. -/
theorem isSequence_four {a b d e : UInt8} : IsSequence [a, b, d, e] ↔
    (0xF0 ≤ a.toNat ∧ a.toNat ≤ 0xF4) ∧ (0x80 ≤ b.toNat ∧ b.toNat ≤ 0xBF) ∧
      (0x80 ≤ d.toNat ∧ d.toNat ≤ 0xBF) ∧ (0x80 ≤ e.toNat ∧ e.toNat ≤ 0xBF) ∧
      (a.toNat = 0xF0 → 0x90 ≤ b.toNat) ∧ (a.toNat = 0xF4 → b.toNat ≤ 0x8F) := by
  constructor
  · rintro ⟨c, hc⟩
    have hvalid : c.val.toNat.isValidChar := c.valid
    unfold Nat.isValidChar at hvalid
    rcases encode_cases c with ⟨_, he, _⟩ | ⟨_, _, he, _⟩ | ⟨_, _, _, he, _⟩ |
      ⟨_, _, _, _, he, hv, ha, hb, hd, he'⟩ <;> rw [he] at hc <;> cases hc
    omega
  · rintro ⟨ha, hb, hd, he, hlow, hhigh⟩
    obtain ⟨c, hc⟩ := exists_char (v := (a.toNat - 0xF0) * 262144 + (b.toNat - 0x80) * 4096 +
      (d.toNat - 0x80) * 64 + (e.toNat - 0x80)) (by
        unfold Nat.isValidChar
        omega)
    refine ⟨c, ?_⟩
    rcases encode_cases c with ⟨_, hl, hv, _⟩ | ⟨_, _, hl, hv, hv', _⟩ | ⟨_, _, _, hl, hv, hv', _⟩ |
      ⟨a', b', d', e', hl, hv, ha', hb', hd', he'⟩
    · omega
    · omega
    · omega
    · rw [hl, UInt8.toNat_inj.mp (show a.toNat = a'.toNat by omega),
        UInt8.toNat_inj.mp (show b.toNat = b'.toNat by omega),
        UInt8.toNat_inj.mp (show d.toNat = d'.toNat by omega),
        UInt8.toNat_inj.mp (show e.toNat = e'.toNat by omega)]

/-! ## Sequences in a byte string -/

/-- How many bytes a character has whose first byte is `b`. -/
def leadSize (b : UInt8) : Nat :=
  if b.toNat < 0x80 then 1 else if b.toNat < 0xE0 then 2 else if b.toNat < 0xF0 then 3 else 4

/-- **FIRST AND OTHER BYTES**: the first one tells the size, and it is none of the others. -/
theorem encode_eq_cons (c : Char) : ∃ b l, utf8EncodeChar c = b :: l ∧ l.length + 1 = leadSize b ∧
    (b.toNat < 0x80 ∨ 0xC2 ≤ b.toNat ∧ b.toNat ≤ 0xF4) ∧
    ∀ x ∈ l, 0x80 ≤ x.toNat ∧ x.toNat < 0xC0 := by
  have hvalid : c.val.toNat.isValidChar := c.valid
  unfold Nat.isValidChar at hvalid
  unfold leadSize
  rcases encode_cases c with ⟨a, he, hv, ha⟩ | ⟨a, b, he, hv, hv', ha, hb⟩ |
    ⟨a, b, d, he, hv, hv', ha, hb, hd⟩ | ⟨a, b, d, e, he, hv, ha, hb, hd, he'⟩
  · refine ⟨a, [], he, ?_, by omega, fun x hx => absurd hx List.not_mem_nil⟩
    rw [if_pos (by omega), List.length_nil]
  · refine ⟨a, [b], he, ?_, by omega, ?_⟩
    · rw [if_neg (by omega), if_pos (by omega), List.length_singleton]
    · rw [List.forall_mem_singleton]
      omega
  · refine ⟨a, [b, d], he, ?_, by omega, ?_⟩
    · rw [if_neg (by omega), if_neg (by omega), if_pos (by omega)]
      rfl
    · rw [List.forall_mem_cons, List.forall_mem_singleton]
      omega
  · refine ⟨a, [b, d, e], he, ?_, by omega, ?_⟩
    · rw [if_neg (by omega), if_neg (by omega), if_neg (by omega)]
      rfl
    · rw [List.forall_mem_cons, List.forall_mem_cons, List.forall_mem_singleton]
      omega

theorem length_encode_le (c : Char) : (utf8EncodeChar c).length ≤ 4 := by
  obtain ⟨b, l, he, hlen, -⟩ := encode_eq_cons c
  rw [he, List.length_cons, hlen]
  unfold leadSize
  split_ifs <;> omega

theorem encode_ne_nil (c : Char) : utf8EncodeChar c ≠ [] := by
  obtain ⟨b, l, h, -⟩ := encode_eq_cons c
  rw [h]
  exact List.cons_ne_nil b l

/-- The size of the sequence with which a byte string starts. -/
theorem length_of_start {c : Char} {b : UInt8} {t : List UInt8} (h : utf8EncodeChar c <+: b :: t) :
    (utf8EncodeChar c).length = leadSize b := by
  obtain ⟨b', l, he, hlen, -⟩ := encode_eq_cons c
  rw [he] at h ⊢
  rw [(List.cons_prefix_cons.mp h).1] at hlen
  exact hlen

/-- **AT MOST ONE SEQUENCE** starts a byte string. -/
theorem prefix_unique {c c' : Char} {t : List UInt8} (h : utf8EncodeChar c <+: t)
    (h' : utf8EncodeChar c' <+: t) : utf8EncodeChar c = utf8EncodeChar c' := by
  cases t with
  | nil => exact absurd (List.prefix_nil.mp h) (encode_ne_nil c)
  | cons b t =>
      refine List.IsPrefix.eq_of_length (List.prefix_of_prefix_length_le h h' ?_) ?_
      · rw [length_of_start h, length_of_start h']
      · rw [length_of_start h, length_of_start h']

/-- **NO SEQUENCE STARTS INSIDE OF ANOTHER**. -/
theorem inside_not_start {c c' : Char} {u rest : List UInt8} (hu : u <:+ utf8EncodeChar c)
    (hne : u ≠ []) (hproper : u ≠ utf8EncodeChar c) : ¬ utf8EncodeChar c' <+: u ++ rest := by
  intro hstart
  obtain ⟨b, l, he, -, -, hinner⟩ := encode_eq_cons c
  obtain ⟨b', l', he', -, hfirst, -⟩ := encode_eq_cons c'
  rw [he] at hu hproper
  have hul : u <:+ l := (List.suffix_cons_iff.mp hu).resolve_left hproper
  cases u with
  | nil => exact hne rfl
  | cons x u =>
      rw [he', List.cons_append, List.cons_prefix_cons] at hstart
      have hx := hinner x (hul.subset List.mem_cons_self)
      rw [hstart.1] at hfirst
      omega

/-- A sequence behind the start of a character starts behind all of it. -/
theorem start_boundary {c c' : Char} {t rest : List UInt8} (ht : t <:+ utf8EncodeChar c ++ rest)
    (hstart : utf8EncodeChar c' <+: t) : t = utf8EncodeChar c ++ rest ∨ t <:+ rest := by
  obtain ⟨p, hp⟩ := ht
  rcases List.append_eq_append_iff.mp hp with ⟨u, hc, ht⟩ | ⟨u, -, hrest⟩
  · by_cases hne : u = []
    · rw [hne, List.nil_append] at ht
      exact .inr (ht ▸ List.suffix_refl t)
    · by_cases hproper : u = utf8EncodeChar c
      · exact .inl (hproper ▸ ht)
      · rw [ht] at hstart
        exact absurd hstart (inside_not_start ⟨p, hc.symm⟩ hne hproper)
  · exact .inr ⟨u, hrest.symm⟩

/-- What follows the first character of a text is a text. -/
theorem WellFormed.tail {c : Char} {rest : List UInt8} (h : WellFormed (utf8EncodeChar c ++ rest)) :
    WellFormed rest := by
  obtain ⟨cs, hcs⟩ := h
  cases cs with
  | nil => exact absurd (List.append_eq_nil_iff.mp hcs).1 (encode_ne_nil c)
  | cons c' cs =>
      rw [List.flatMap_cons] at hcs
      have hstart : utf8EncodeChar c' <+: utf8EncodeChar c ++ rest := by
        rw [hcs]
        exact List.prefix_append _ _
      have hsame := prefix_unique (List.prefix_append _ _) hstart
      rw [hsame] at hcs
      exact ⟨cs, List.append_cancel_left hcs⟩

/-- A text that is not empty starts with a character. -/
theorem WellFormed.exists_start {b : UInt8} {rest : List UInt8} (h : WellFormed (b :: rest)) :
    ∃ c, utf8EncodeChar c <+: b :: rest := by
  obtain ⟨cs, hcs⟩ := h
  cases cs with
  | nil => exact absurd hcs (List.cons_ne_nil b rest)
  | cons c cs => exact ⟨c, hcs ▸ List.prefix_append _ _⟩

end Utf8
