import OmniCore.Lib.Utf8
import OmniCore.Lib.Machine

/-! # SanitizeUtf8 — question marks for what is no text

    The names and texts of a property come out of transactions as bytes. The loop goes from
    sequence to sequence; where none starts, it writes a question mark over the byte. What is left
    of the byte string is cut to 32 bits before it is compared with the length of a sequence. -/

namespace OmniCore

open Utf8
open String (utf8EncodeChar)

/-! ## The loop -/

/-- `(int) n`. -/
def toInt32 (n : Nat) : Int := Int.bmod n (2 ^ 32)

/-- `unsign(s[i])`. -/
def unsign (s : List UInt8) (i : Nat) : Nat := (s.getD i 0).toNat

/-- `get_mblen` of a byte. -/
def getByteMblen (c : UInt8) : Int :=
  if c &&& 0xFF = 0x00 then 0
  else if c &&& 0x80 = 0x00 then 1
  else if c &&& 0xE0 = 0xC0 then 2
  else if c &&& 0xF0 = 0xE0 then 3
  else if c &&& 0xF8 = 0xF0 then 4
  else if c &&& 0xFC = 0xF8 then 5
  else if c &&& 0xFE = 0xFC then 6
  else if c &&& 0xFF = 0xFE then 7
  else -1

/-- `get_mblen`. -/
def getMblen (s : List UInt8) (n : Nat) : Int :=
  if n = 0 then 0
  else
    let len := getByteMblen (s.getD 0 0)
    if len ≤ toInt32 n then len else -1

/-- `lo <= unsign(s[i]) && unsign(s[i]) <= hi`. -/
def between (s : List UInt8) (i lo hi : Nat) : Bool :=
  decide (lo ≤ unsign s i) && decide (unsign s i ≤ hi)

/-- `check_mb`. -/
def checkMb (s : List UInt8) : Nat → Bool
  | 0 => true
  | 1 => decide (unsign s 0 ≤ 0x7F)
  | 2 => between s 0 0xC2 0xDF && between s 1 0x80 0xBF
  | 3 =>
      if unsign s 0 = 0xE0 ∧ !between s 1 0xA0 0xBF then false
      else if unsign s 0 = 0xED ∧ !between s 1 0x80 0x9F then false
      else between s 0 0xE0 0xEF && between s 1 0x80 0xBF && between s 2 0x80 0xBF
  | 4 =>
      if unsign s 0 = 0xF0 ∧ !between s 1 0x90 0xBF then false
      else if unsign s 0 = 0xF4 ∧ !between s 1 0x80 0x8F then false
      else between s 0 0xF0 0xF4 && between s 1 0x80 0xBF && between s 2 0x80 0xBF &&
        between s 3 0x80 0xBF
  | _ => false

/-- `'?'`. -/
def questionMark : UInt8 := 0x3F

/-- The loop from a position on, for a number of rounds. A round that does not advance is followed
    by others like it. -/
def sanitizeLoop (s : List UInt8) : Nat → Nat → List UInt8 → Option (List UInt8)
  | 0, pos, result => if pos < s.length then none else some result
  | rounds + 1, pos, result =>
      if pos < s.length then
        let next := getMblen (s.drop pos) (s.length - pos)
        -- `next` is converted to `size_t`
        if checkMb (s.drop pos) (next % 2 ^ 64).toNat then
          sanitizeLoop s rounds (pos + next).toNat result
        else sanitizeLoop s rounds (pos + 1) (result.set pos questionMark)
      else some result

/-- `SanitizeInvalidUTF8`. As many rounds as there are bytes are enough, if every round advances. -/
def sanitizeInvalidUTF8 (s : List UInt8) : Option (List UInt8) := sanitizeLoop s s.length 0 s

/-! ## What it is for -/

/-- `r` is a sanitized `s`: a text of the same length, with question marks for bytes where no
    character starts, and nothing else to do. -/
structure Sanitized (s r : List UInt8) : Prop where
  length : r.length = s.length
  wellFormed : WellFormed r
  replaced : ∀ i : Nat, r[i]? ≠ s[i]? →
    r[i]? = some questionMark ∧ ∀ c, ¬ utf8EncodeChar c <+: s.drop i
  same : WellFormed s → r = s
  again : sanitizeInvalidUTF8 r = some r

/-- Wherever a character starts, other than a question mark, its length is at most what the
    comparison sees of the rest. -/
def FitsInt (s : List UInt8) : Prop :=
  ∀ t c, t <:+ s → utf8EncodeChar c <+: t → t.head? ≠ some questionMark →
    ((utf8EncodeChar c).length : Int) ≤ toInt32 t.length

/-! ## The bytes that the checks read -/

theorem getByteMblen_eq (c : UInt8) : getByteMblen c =
    if c.toNat = 0 then 0 else if c.toNat < 0x80 then 1 else if c.toNat < 0xC0 then -1
    else if c.toNat < 0xE0 then 2 else if c.toNat < 0xF0 then 3 else if c.toNat < 0xF8 then 4
    else if c.toNat < 0xFC then 5 else if c.toNat < 0xFE then 6 else if c.toNat < 0xFF then 7
    else -1 := by
  have hall : ∀ n : Fin 256, getByteMblen (UInt8.ofNat n) =
      if n.val = 0 then 0 else if n.val < 0x80 then 1 else if n.val < 0xC0 then -1
      else if n.val < 0xE0 then 2 else if n.val < 0xF0 then 3 else if n.val < 0xF8 then 4
      else if n.val < 0xFC then 5 else if n.val < 0xFE then 6 else if n.val < 0xFF then 7
      else -1 := by decide +kernel
  have hc := hall ⟨c.toNat, c.toNat_lt⟩
  rw [UInt8.ofNat_toNat] at hc
  exact hc

theorem between_eq_true (s : List UInt8) (i lo hi : Nat) :
    between s i lo hi = true ↔ lo ≤ unsign s i ∧ unsign s i ≤ hi := by
  unfold between
  rw [Bool.and_eq_true, decide_eq_true_iff, decide_eq_true_iff]

/-- A check that an invalid subrange is not met. -/
theorem subrange_eq_true {p : Prop} [Decidable p] {inside rest : Bool} :
    (if p ∧ !inside then false else rest) = true ↔ (p → inside = true) ∧ rest = true := by
  by_cases hp : p
  · cases inside <;> simp [hp]
  · simp [hp]

theorem checkMb_long (s : List UInt8) {n : Nat} (h : 4 < n) : checkMb s n = false := by
  unfold checkMb
  split <;> first | omega | rfl

/-- **THE CHECK IS EXACT**: it accepts just the bytes of one character. -/
theorem checkMb_iff {s : List UInt8} {n : Nat} (hpos : 1 ≤ n) (hlen : n ≤ s.length) :
    checkMb s n = true ↔ IsSequence (s.take n) := by
  rcases Nat.lt_or_ge 4 n with hlong | hshort
  · refine iff_of_false (by rw [checkMb_long s hlong]; exact Bool.false_ne_true) ?_
    rintro ⟨c, hc⟩
    have htake := congrArg List.length hc
    have hle := length_encode_le c
    rw [List.length_take] at htake
    omega
  · rcases s with _ | ⟨a, s⟩
    · rw [List.length_nil] at hlen
      omega
    have ha : unsign (a :: s) 0 = a.toNat := rfl
    rcases n with _ | _ | n
    · omega
    · show decide (unsign (a :: s) 0 ≤ 0x7F) = true ↔ IsSequence [a]
      rw [decide_eq_true_iff, isSequence_one, ha]
    rcases s with _ | ⟨b, s⟩
    · rw [List.length_singleton] at hlen
      omega
    have hb : unsign (a :: b :: s) 1 = b.toNat := rfl
    rcases n with _ | n
    · show (between (a :: b :: s) 0 _ _ && between (a :: b :: s) 1 _ _) = true ↔ IsSequence [a, b]
      rw [Bool.and_eq_true, between_eq_true, between_eq_true, isSequence_two, ha, hb]
    rcases s with _ | ⟨d, s⟩
    · rw [List.length_cons, List.length_singleton] at hlen
      omega
    have hd : unsign (a :: b :: d :: s) 2 = d.toNat := rfl
    rcases n with _ | n
    · show (if unsign _ 0 = 0xE0 ∧ !between _ 1 0xA0 0xBF then false
        else if unsign _ 0 = 0xED ∧ !between _ 1 0x80 0x9F then false
        else between _ 0 _ _ && between _ 1 _ _ && between _ 2 _ _) = true ↔ IsSequence [a, b, d]
      rw [subrange_eq_true, subrange_eq_true, Bool.and_eq_true, Bool.and_eq_true, between_eq_true,
        between_eq_true, between_eq_true, between_eq_true, between_eq_true, isSequence_three, ha,
        hb, hd]
      omega
    rcases s with _ | ⟨e, s⟩
    · rw [List.length_cons, List.length_cons, List.length_singleton] at hlen
      omega
    have he : unsign (a :: b :: d :: e :: s) 3 = e.toNat := rfl
    rcases n with _ | n
    · show (if unsign _ 0 = 0xF0 ∧ !between _ 1 0x90 0xBF then false
        else if unsign _ 0 = 0xF4 ∧ !between _ 1 0x80 0x8F then false
        else between _ 0 _ _ && between _ 1 _ _ && between _ 2 _ _ && between _ 3 _ _) = true ↔
          IsSequence [a, b, d, e]
      rw [subrange_eq_true, subrange_eq_true, Bool.and_eq_true, Bool.and_eq_true, Bool.and_eq_true,
        between_eq_true, between_eq_true, between_eq_true, between_eq_true, between_eq_true,
        between_eq_true, isSequence_four, ha, hb, hd, he]
      omega
    · omega

/-! ## One round -/

theorem toInt32_le (n : Nat) : toInt32 n ≤ n := by
  unfold toInt32
  rw [Int.bmod_def]
  split <;> omega

theorem getByteMblen_range {b : UInt8} (hb : b ≠ 0) :
    getByteMblen b = -1 ∨ 1 ≤ getByteMblen b ∧ getByteMblen b ≤ 7 := by
  have hne : b.toNat ≠ 0 := fun h0 => hb (UInt8.toNat_inj.mp h0)
  rw [getByteMblen_eq, if_neg hne]
  split_ifs <;> omega

theorem getByteMblen_lead {c : Char} {b : UInt8} {t : List UInt8} (hb : b ≠ 0)
    (h : utf8EncodeChar c <+: b :: t) : getByteMblen b = (utf8EncodeChar c).length := by
  obtain ⟨b', l, he, -, hfirst, -⟩ := encode_eq_cons c
  have hb' : b' = b := by
    rw [he] at h
    exact (List.cons_prefix_cons.mp h).1
  have hne : b.toNat ≠ 0 := fun h0 => hb (UInt8.toNat_inj.mp h0)
  rw [hb'] at hfirst
  rw [length_of_start h, getByteMblen_eq]
  unfold leadSize
  split_ifs <;> omega

theorem getMblen_eq (b : UInt8) (t : List UInt8) : getMblen (b :: t) (b :: t).length =
    if getByteMblen b ≤ toInt32 (b :: t).length then getByteMblen b else -1 :=
  if_neg (Nat.succ_ne_zero t.length)

/-- The loop goes on behind a character that fits. -/
theorem getMblen_start {c : Char} {b : UInt8} {t : List UInt8} (hb : b ≠ 0)
    (hc : utf8EncodeChar c <+: b :: t)
    (hfits : ((utf8EncodeChar c).length : Int) ≤ toInt32 (b :: t).length) :
    getMblen (b :: t) (b :: t).length = (utf8EncodeChar c).length := by
  rw [getMblen_eq, getByteMblen_lead hb hc, if_pos hfits]

/-- **A ROUND** keeps a character just if one starts here, and what is left seems long enough. -/
theorem accepts_iff {b : UInt8} (hb : b ≠ 0) (t : List UInt8) :
    checkMb (b :: t) (getMblen (b :: t) (b :: t).length % 2 ^ 64).toNat = true ↔
      ∃ c, utf8EncodeChar c <+: b :: t ∧
        ((utf8EncodeChar c).length : Int) ≤ toInt32 (b :: t).length := by
  constructor
  · intro h
    have hrest := toInt32_le (b :: t).length
    rw [getMblen_eq] at h
    by_cases hfits : getByteMblen b ≤ toInt32 (b :: t).length
    · rw [if_pos hfits] at h
      have hlen : 1 ≤ getByteMblen b ∧ getByteMblen b ≤ 7 := by
        refine (getByteMblen_range hb).resolve_left fun hminus => ?_
        rw [hminus, checkMb_long _ (by omega)] at h
        exact Bool.false_ne_true h
      obtain ⟨n, hn⟩ := Int.eq_ofNat_of_zero_le (by omega : 0 ≤ getByteMblen b)
      have hmod : ((n : Int) % 2 ^ 64).toNat = n := by omega
      rw [hn, hmod] at h
      have hn1 : 1 ≤ n := by omega
      have hnlen : n ≤ (b :: t).length := by omega
      obtain ⟨c, hc⟩ := (checkMb_iff hn1 hnlen).mp h
      have hclen : (utf8EncodeChar c).length = n := by
        rw [← hc, List.length_take, Nat.min_eq_left hnlen]
      refine ⟨c, hc ▸ List.take_prefix n _, ?_⟩
      rw [hclen]
      exact hn ▸ hfits
    · rw [if_neg hfits, checkMb_long _ (by omega)] at h
      exact absurd h Bool.false_ne_true
  · rintro ⟨c, hc, hfits⟩
    have hle := length_encode_le c
    have hpos : 1 ≤ (utf8EncodeChar c).length := List.length_pos_iff.mpr (encode_ne_nil c)
    have hmod : (((utf8EncodeChar c).length : Int) % 2 ^ 64).toNat = (utf8EncodeChar c).length := by
      omega
    rw [getMblen_start hb hc hfits, hmod, checkMb_iff hpos hc.length_le]
    exact ⟨c, (List.prefix_iff_eq_take.mp hc).symm⟩

/-! ## The whole loop -/

/-- What the loop makes out of what is left: characters that seem to fit are kept. -/
inductive Cleaned : List UInt8 → List UInt8 → Prop
  | nil : Cleaned [] []
  | keep {c : Char} {rest out : List UInt8}
      (hfits : ((utf8EncodeChar c).length : Int) ≤ toInt32 (utf8EncodeChar c ++ rest).length)
      (hrest : Cleaned rest out) : Cleaned (utf8EncodeChar c ++ rest) (utf8EncodeChar c ++ out)
  | replace {b : UInt8} {rest out : List UInt8}
      (hnone : ∀ c, utf8EncodeChar c <+: b :: rest →
        toInt32 (b :: rest).length < (utf8EncodeChar c).length)
      (hrest : Cleaned rest out) : Cleaned (b :: rest) (questionMark :: out)

theorem sanitizeLoop_cleaned {s : List UInt8} (hnul : 0 ∉ s) (rounds pos : Nat) (done : List UInt8)
    (hdone : done.length = pos) (hrounds : s.length ≤ pos + rounds) :
    ∃ out, sanitizeLoop s rounds pos (done ++ s.drop pos) = some (done ++ out) ∧
      Cleaned (s.drop pos) out := by
  induction rounds generalizing pos done with
  | zero =>
      refine ⟨[], ?_, ?_⟩
      · unfold sanitizeLoop
        rw [if_neg (by omega), List.drop_eq_nil_of_le (by omega)]
      · rw [List.drop_eq_nil_of_le (by omega)]
        exact .nil
  | succ rounds ih =>
      by_cases hpos : pos < s.length
      · obtain ⟨b, t, hbt⟩ : ∃ b t, s.drop pos = b :: t := ⟨_, _, List.drop_eq_getElem_cons hpos⟩
        have hlen : s.length - pos = (b :: t).length := by rw [← hbt, List.length_drop]
        have hb : b ≠ 0 := by
          rintro rfl
          exact hnul (List.mem_of_mem_drop (hbt ▸ List.mem_cons_self))
        have hiff := accepts_iff hb t
        unfold sanitizeLoop
        rw [if_pos hpos, hbt, hlen]
        dsimp only
        by_cases hcheck :
            checkMb (b :: t) (getMblen (b :: t) (b :: t).length % 2 ^ 64).toNat = true
        · -- a character: the loop goes on behind it
          obtain ⟨c, hprefix, hfits⟩ := hiff.mp hcheck
          have hnext := getMblen_start hb hprefix hfits
          obtain ⟨rest, hrest⟩ := hprefix
          have hdrop : s.drop (pos + (utf8EncodeChar c).length) = rest := by
            rw [← List.drop_drop, hbt, ← hrest, List.drop_left]
          have hpos1 : 1 ≤ (utf8EncodeChar c).length := List.length_pos_iff.mpr (encode_ne_nil c)
          obtain ⟨out, hrun, hclean⟩ := ih (pos + (utf8EncodeChar c).length)
            (done ++ utf8EncodeChar c) (by rw [List.length_append, hdone]) (by omega)
          rw [hdrop, List.append_assoc, List.append_assoc, hrest] at hrun
          rw [hdrop] at hclean
          refine ⟨utf8EncodeChar c ++ out, ?_, ?_⟩
          · rw [if_pos hcheck, hnext]
            exact hrun
          · rw [← hrest] at hfits ⊢
            exact .keep hfits hclean
        · -- no character: the byte is overwritten
          have hdrop : s.drop (pos + 1) = t := by
            rw [← List.drop_drop, hbt]
            rfl
          have hset : (done ++ b :: t).set pos questionMark = done ++ [questionMark] ++ t := by
            rw [List.set_append_right _ _ hdone.le, hdone, Nat.sub_self, List.append_assoc]
            rfl
          obtain ⟨out, hrun, hclean⟩ := ih (pos + 1) (done ++ [questionMark])
            (by rw [List.length_append, hdone, List.length_singleton]) (by omega)
          rw [hdrop, List.append_assoc] at hrun
          rw [hdrop] at hclean
          refine ⟨questionMark :: out, ?_, .replace (fun c hc => ?_) hclean⟩
          · rw [if_neg hcheck, hset, List.append_assoc]
            rw [hrun, List.append_assoc]
            rfl
          · by_contra hfits
            exact hcheck (hiff.mpr ⟨c, hc, not_lt.mp hfits⟩)
      · refine ⟨[], ?_, ?_⟩
        · unfold sanitizeLoop
          rw [if_neg hpos, List.drop_eq_nil_of_le (by omega)]
        · rw [List.drop_eq_nil_of_le (by omega)]
          exact .nil

/-- **THE LOOP ENDS**, and cleans the byte string. -/
theorem sanitize_cleaned {s : List UInt8} (hnul : 0 ∉ s) :
    ∃ out, sanitizeInvalidUTF8 s = some out ∧ Cleaned s out :=
  sanitizeLoop_cleaned hnul s.length 0 [] rfl (by omega)

/-! ## What a cleaned byte string is -/

theorem encode_questionMark : utf8EncodeChar '?' = [questionMark] := by decide

theorem FitsInt.suffix {s t : List UInt8} (h : FitsInt s) (ht : t <:+ s) : FitsInt t :=
  fun u c hu hc => h u c (hu.trans ht) hc

namespace Cleaned

variable {s out : List UInt8}

theorem length_eq (h : Cleaned s out) : out.length = s.length := by
  induction h with
  | nil => rfl
  | keep _ _ ih => rw [List.length_append, List.length_append, ih]
  | replace _ _ ih => rw [List.length_cons, List.length_cons, ih]

theorem wellFormed (h : Cleaned s out) : WellFormed out := by
  induction h with
  | nil => exact ⟨[], rfl⟩
  | @keep c _ _ _ _ ih => exact ih.cons c
  | replace _ _ ih =>
      have hcons := ih.cons '?'
      rw [encode_questionMark] at hcons
      exact hcons

theorem not_mem_zero (h : Cleaned s out) (hnul : 0 ∉ s) : 0 ∉ out := by
  induction h with
  | nil => exact hnul
  | keep _ _ ih =>
      rw [List.mem_append, not_or] at hnul ⊢
      exact ⟨hnul.1, ih hnul.2⟩
  | replace _ _ ih =>
      rw [List.mem_cons, not_or] at hnul ⊢
      exact ⟨by decide, ih hnul.2⟩

/-- **CLEANED TEXTS FIT**: characters of the result that are no question marks have been kept. -/
theorem fitsInt (h : Cleaned s out) : FitsInt out := by
  induction h with
  | nil =>
      intro t c ht hc
      rw [List.suffix_nil.mp ht] at hc
      exact absurd (List.prefix_nil.mp hc) (encode_ne_nil c)
  | @keep c0 rest out hfits hrest ih =>
      intro t c ht hc hhead
      rcases start_boundary ht hc with rfl | ht
      · rw [prefix_unique hc (List.prefix_append _ _), List.length_append, hrest.length_eq,
          ← List.length_append]
        exact hfits
      · exact ih t c ht hc hhead
  | replace _ _ ih =>
      intro t c ht hc hhead
      rcases List.suffix_cons_iff.mp ht with rfl | ht
      · exact absurd rfl hhead
      · exact ih t c ht hc hhead

/-- What differs is a question mark where nothing starts. -/
theorem replaced (h : Cleaned s out) (hfits : FitsInt s) (i : Nat) (hne : out[i]? ≠ s[i]?) :
    out[i]? = some questionMark ∧ ∀ c, ¬ utf8EncodeChar c <+: s.drop i := by
  induction h generalizing i with
  | nil => exact absurd rfl hne
  | @keep c0 rest out _ _ ih =>
      rcases Nat.lt_or_ge i (utf8EncodeChar c0).length with hlt | hge
      · rw [List.getElem?_append_left hlt, List.getElem?_append_left hlt] at hne
        exact absurd rfl hne
      · rw [List.getElem?_append_right hge, List.getElem?_append_right hge] at hne
        rw [List.getElem?_append_right hge, List.drop_append, List.drop_eq_nil_of_le hge,
          List.nil_append]
        exact ih (hfits.suffix (List.suffix_append _ _)) _ hne
  | @replace b rest out hnone _ ih =>
      cases i with
      | zero =>
          refine ⟨rfl, fun c hc => ?_⟩
          have hhead : (b :: rest).head? ≠ some questionMark := fun hq => hne hq.symm
          exact absurd (hfits _ c (List.suffix_refl _) hc hhead) (not_le.mpr (hnone c hc))
      | succ i => exact ih (hfits.suffix (List.suffix_cons _ _)) i hne

/-- A text is kept. -/
theorem same (h : Cleaned s out) (hfits : FitsInt s) (htext : WellFormed s) : out = s := by
  induction h with
  | nil => rfl
  | keep _ _ ih => rw [ih (hfits.suffix (List.suffix_append _ _)) htext.tail]
  | @replace b rest out hnone _ ih =>
      obtain ⟨c, hc⟩ := htext.exists_start
      have hb : b = questionMark := by
        by_contra hne
        have hhead : (b :: rest).head? ≠ some questionMark := fun hq => hne (Option.some.inj hq)
        exact absurd (hfits _ c (List.suffix_refl _) hc hhead) (not_le.mpr (hnone c hc))
      have hrest : WellFormed rest := by
        have htext' : WellFormed (utf8EncodeChar '?' ++ rest) := by
          rw [encode_questionMark, ← hb]
          exact htext
        exact htext'.tail
      rw [ih (hfits.suffix (List.suffix_cons _ _)) hrest, hb]

/-- **A CHARACTER THAT DOES NOT FIT** is overwritten. -/
theorem overwritten (h : Cleaned s out) {t : List UInt8} {c : Char} (ht : t <:+ s)
    (hc : utf8EncodeChar c <+: t) (hlong : toInt32 t.length < (utf8EncodeChar c).length) :
    out[s.length - t.length]? = some questionMark := by
  induction h with
  | nil =>
      rw [List.suffix_nil.mp ht] at hc
      exact absurd (List.prefix_nil.mp hc) (encode_ne_nil c)
  | @keep c0 rest out hfits hrest ih =>
      rcases start_boundary ht hc with rfl | ht
      · rw [prefix_unique hc (List.prefix_append _ _)] at hlong
        exact absurd hfits (not_le.mpr hlong)
      · have hle := ht.length_le
        rw [List.length_append, Nat.add_sub_assoc hle, List.getElem?_append_right (by omega),
          Nat.add_sub_cancel_left]
        exact ih ht
  | @replace b rest out hnone hrest ih =>
      rcases List.suffix_cons_iff.mp ht with rfl | ht
      · rw [Nat.sub_self]
        rfl
      · have hle := ht.length_le
        rw [List.length_cons, Nat.sub_add_comm hle]
        exact ih ht

end Cleaned

/-! ## The result -/

/-- **SANITIZING WORKS** just if the length of every character is at most what the comparison sees
    of the rest of the byte string. -/
theorem sanitized_iff {s : List UInt8} (hnul : 0 ∉ s) :
    (∃ r, sanitizeInvalidUTF8 s = some r ∧ Sanitized s r) ↔ FitsInt s := by
  obtain ⟨out, hrun, hclean⟩ := sanitize_cleaned hnul
  constructor
  · rintro ⟨r, hr, hsan⟩ t c ht hc hhead
    rw [hrun] at hr
    obtain rfl := Option.some.inj hr
    by_contra hlong
    have hover := hclean.overwritten ht hc (not_le.mp hlong)
    obtain ⟨p, rfl⟩ := ht
    have hindex : (p ++ t).length - t.length = p.length := by
      rw [List.length_append, Nat.add_sub_cancel]
    have hdrop : (p ++ t).drop p.length = t := List.drop_left
    have hget : (p ++ t)[p.length]? = t.head? := by
      rw [List.getElem?_append_right le_rfl, Nat.sub_self, List.head?_eq_getElem?]
    rw [hindex] at hover
    have hne : out[p.length]? ≠ (p ++ t)[p.length]? := by
      rw [hover, hget]
      exact hhead.symm
    refine (hsan.replaced p.length hne).2 c ?_
    rw [hdrop]
    exact hc
  · intro hfits
    refine ⟨out, hrun, hclean.length_eq, hclean.wellFormed, hclean.replaced hfits,
      hclean.same hfits, ?_⟩
    obtain ⟨out', hrun', hclean'⟩ := sanitize_cleaned (hclean.not_mem_zero hnul)
    rw [hrun', hclean'.same hclean.fitsInt hclean.wellFormed]

/-- Byte strings of less than 2 GiB fit. -/
theorem fitsInt_of_length {s : List UInt8} (h : s.length < 2 ^ 31) : FitsInt s := by
  intro t c ht hc _
  have hle := hc.length_le
  have hlt := ht.length_le
  unfold toInt32
  rw [Int.bmod_eq_of_le] <;> omega

/-- A surrogate between two letters. -/
theorem surrogate_sanitized : ∃ r, sanitizeInvalidUTF8 [0x61, 0xED, 0xA0, 0x80, 0x62] = some r ∧
    Sanitized [0x61, 0xED, 0xA0, 0x80, 0x62] r :=
  (sanitized_iff (by decide)).mpr (fitsInt_of_length (by decide))

example : sanitizeInvalidUTF8 [0x61, 0xED, 0xA0, 0x80, 0x62] =
    some [0x61, questionMark, questionMark, questionMark, 0x62] := by decide

/-- The first of many letters is overwritten, if its length does not fit. -/
theorem letters_not_sanitized {n : Nat} (hpos : 0 < n) (hlong : toInt32 n < 1) :
    ¬ ∃ r, sanitizeInvalidUTF8 (List.replicate n 0x61) = some r ∧
      Sanitized (List.replicate n 0x61) r := by
  rintro ⟨r, hr, hsan⟩
  have hnul : (0 : UInt8) ∉ List.replicate n 0x61 := fun h =>
    absurd (List.eq_of_mem_replicate h) (by decide)
  have ha : utf8EncodeChar 'a' = [0x61] := by decide
  have htext : WellFormed (List.replicate n 0x61) := by
    refine ⟨List.replicate n 'a', ?_⟩
    rw [List.flatMap_replicate, ha, List.flatten_replicate_singleton]
  obtain ⟨out, hrun, hclean⟩ := sanitize_cleaned hnul
  rw [hrun] at hr
  obtain rfl := Option.some.inj hr
  have hstart : utf8EncodeChar 'a' <+: List.replicate n 0x61 := by
    obtain ⟨m, rfl⟩ := Nat.exists_eq_succ_of_ne_zero hpos.ne'
    rw [ha, List.replicate_succ]
    exact ⟨_, rfl⟩
  have hover := hclean.overwritten (List.suffix_refl _) hstart (by
    rw [List.length_replicate, ha]
    exact hlong)
  rw [hsan.same htext, Nat.sub_self, List.getElem?_replicate_of_lt hpos] at hover
  exact absurd hover (by decide)

/-- **2 GiB OF LETTERS**: they are a text, and the first of them is overwritten. -/
theorem large_text_changed : ¬ ∃ r,
    sanitizeInvalidUTF8 (List.replicate (2 ^ 31) 0x61) = some r ∧
      Sanitized (List.replicate (2 ^ 31) 0x61) r :=
  letters_not_sanitized (by decide) (by decide)

end OmniCore
