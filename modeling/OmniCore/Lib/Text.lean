import Mathlib

/-! # Text records — printing, splitting and reading back

    Text databases and line-oriented state files hold numbers in decimal between
    separator characters. The writers format fields with `%d` and `%s`; the
    readers cut a line at runs of separators and cast the pieces back. -/

namespace TextRec

/-- A byte string, as a list of characters. -/
abbrev Text := List Char

/-! ## Printing numbers -/

/-- `%u`, `%lu`: a non-negative number in decimal. -/
def decNat (n : Nat) : Text := Nat.toDigits 10 n

/-- `%d`, `%ld`: a signed number in decimal. -/
def decInt : Int → Text
  | .ofNat n => decNat n
  | .negSucc n => '-' :: decNat (n + 1)

/-- `%0wd` for a non-negative number: padded with zeros to width `w`. -/
def padNat (w n : Nat) : Text := List.replicate (w - (decNat n).length) '0' ++ decNat n

/-- A number as `w` lower-case hexadecimal digits, most significant first. -/
def hexNat : Nat → Nat → Text
  | 0, _ => []
  | w + 1, n => hexNat w (n / 16) ++ [(n % 16).digitChar]

/-! ## Reading numbers -/

/-- All characters are decimal digits, and there is at least one. -/
def isDigits (t : Text) : Bool := !t.isEmpty && t.all Char.isDigit

/-- The value of a digit string. -/
def digitsVal (t : Text) : Nat := Nat.ofDigitChars 10 t 0

/-- A decimal number with an optional sign, with nothing around it. -/
def readInt : Text → Option Int
  | '-' :: t => if isDigits t then some (-(digitsVal t : Int)) else none
  | '+' :: t => if isDigits t then some (digitsVal t : Int) else none
  | t => if isDigits t then some (digitsVal t : Int) else none

/-- `lexical_cast` to a signed integer of `w` bits: the whole text is a number in range. -/
def castInt (w : Nat) (t : Text) : Option Int :=
  match readInt t with
  | some n => if -(2 ^ (w - 1) : Int) ≤ n ∧ n < 2 ^ (w - 1) then some n else none
  | none => none

/-- `lexical_cast` to an unsigned integer of `w` bits. A minus sign is accepted and
    negates modulo `2 ^ w`. -/
def castNat (w : Nat) (t : Text) : Option Nat :=
  match readInt t with
  | some n => if n.natAbs < 2 ^ w then some (n % 2 ^ w).toNat else none
  | none => none

/-- `atoi`: the value of the longest numeric start of the text, 0 if there is none. -/
def atoi : Text → Int
  | ' ' :: t => atoi t
  | '-' :: t => -(digitsVal (t.takeWhile Char.isDigit) : Int)
  | '+' :: t => digitsVal (t.takeWhile Char.isDigit)
  | t => digitsVal (t.takeWhile Char.isDigit)

/-- `atoi` with its limits: the value is held to 64 bits and cut to 32. -/
def atoi32 (t : Text) : Int := (max (-2 ^ 63) (min (2 ^ 63 - 1) (atoi t))).bmod (2 ^ 32)

/-! ## Splitting -/

/-- The scan behind `split`: `afterSep` holds inside a run of separators, `cur` is the
    current token reversed. -/
def splitAux (p : Char → Bool) : Bool → Text → Text → List Text
  | _, cur, [] => [cur.reverse]
  | afterSep, cur, c :: rest =>
      if p c then
        if afterSep then splitAux p true cur rest
        else cur.reverse :: splitAux p true [] rest
      else splitAux p false (c :: cur) rest

/-- `boost::split` with `token_compress_on`: cut at every run of separators. A leading or
    trailing run leaves an empty token, and the empty text is one empty token. -/
def split (p : Char → Bool) (t : Text) : List Text := splitAux p false [] t

/-- No character of the text is a separator. -/
def Free (p : Char → Bool) (t : Text) : Prop := ∀ c ∈ t, p c = false

/-! ### A token in front of the scan -/

theorem splitAux_free {p : Char → Bool} {t : Text} (ht : Free p t) (hne : t ≠ [])
    (b : Bool) (cur rest : Text) :
    splitAux p b cur (t ++ rest) = splitAux p false (t.reverse ++ cur) rest := by
  induction t generalizing b cur with
  | nil => exact absurd rfl hne
  | cons c t ih =>
      have hc : p c = false := ht c (by simp)
      have ht' : Free p t := fun d hd => ht d (by simp [hd])
      simp only [List.cons_append, splitAux, hc, Bool.false_eq_true, if_false]
      by_cases htn : t = []
      · subst htn
        simp
      · rw [ih ht' htn]
        simp

/-- A text without separators is one token. -/
theorem split_free {p : Char → Bool} {t : Text} (ht : Free p t) : split p t = [t] := by
  unfold split
  by_cases hne : t = []
  · subst hne
    rfl
  · have h := splitAux_free ht hne false [] []
    rw [List.append_nil] at h
    rw [h]
    simp [splitAux]

/-- Inside a run of separators with nothing collected, the scan of a text that does not
    start with a separator is the scan from the beginning. -/
theorem splitAux_afterSep {p : Char → Bool} {rest : Text}
    (hr : ∀ c ∈ rest.head?, p c = false) :
    splitAux p true [] rest = splitAux p false [] rest := by
  cases rest with
  | nil => rfl
  | cons c rest =>
      have hc : p c = false := hr c (by simp)
      simp [splitAux, hc]

/-- **ONE TOKEN**: a separator-free text followed by a single separator is cut off
    as the first token. -/
theorem split_cons {p : Char → Bool} {t rest : Text} {c : Char} (ht : Free p t) (hc : p c = true)
    (hr : ∀ d ∈ rest.head?, p d = false) : split p (t ++ c :: rest) = t :: split p rest := by
  unfold split
  by_cases hne : t = []
  · subst hne
    simp [splitAux, hc, splitAux_afterSep hr]
  · rw [splitAux_free ht hne]
    simp [splitAux, hc, splitAux_afterSep hr]

/-- Joining tokens with one separator character. -/
def joinWith (c : Char) : List Text → Text
  | [] => []
  | [t] => t
  | t :: u :: rest => t ++ c :: joinWith c (u :: rest)

theorem joinWith_head {c : Char} {p : Char → Bool} {t : Text} {rest : List Text}
    (ht : Free p t) (hne : t ≠ []) : ∀ d ∈ (joinWith c (t :: rest)).head?, p d = false := by
  cases t with
  | nil => exact absurd rfl hne
  | cons a t =>
      have ha : p a = false := ht a (by simp)
      cases rest with
      | nil => simpa [joinWith] using ha
      | cons u rest => simpa [joinWith] using ha

/-- What joins and what is joined decide what a text is free of. -/
theorem free_joinWith {p : Char → Bool} {c : Char} (hc : p c = false) {l : List Text}
    (h : ∀ t ∈ l, Free p t) : Free p (joinWith c l) := by
  induction l with
  | nil =>
      intro d hd
      cases hd
  | cons t rest ih =>
      have hrest := ih fun u hu => h u (List.mem_cons_of_mem t hu)
      cases rest with
      | nil => exact h t List.mem_cons_self
      | cons u rest =>
          intro d hd
          rcases List.mem_append.mp hd with hd | hd
          · exact h t List.mem_cons_self d hd
          · rcases List.mem_cons.mp hd with rfl | hd
            · exact hc
            · exact hrest d hd

/-- **ROUND TRIP**: splitting the join of non-empty separator-free tokens gives the
    tokens back. -/
theorem split_joinWith {p : Char → Bool} {c : Char} (hc : p c = true) {l : List Text}
    (hl : l ≠ []) (hfree : ∀ t ∈ l, Free p t) (hne : ∀ t ∈ l, t ≠ []) :
    split p (joinWith c l) = l := by
  induction l with
  | nil => exact absurd rfl hl
  | cons t rest ih =>
      cases rest with
      | nil => exact split_free (hfree t (by simp))
      | cons u rest =>
          have hu : Free p u := hfree u (by simp)
          have hun : u ≠ [] := hne u (by simp)
          show split p (t ++ c :: joinWith c (u :: rest)) = t :: u :: rest
          rw [split_cons (hfree t (by simp)) hc (joinWith_head hu hun)]
          rw [ih (by simp) (fun v hv => hfree v (by simp [hv])) (fun v hv => hne v (by simp [hv]))]

/-- Tokens that are each followed by a separator are cut off, and an empty one is left. -/
theorem split_terminated {p : Char → Bool} {c : Char} (hc : p c = true) {l : List Text}
    (hfree : ∀ t ∈ l, Free p t) (hne : ∀ t ∈ l, t ≠ []) :
    split p (l.flatMap fun t => t ++ [c]) = l ++ [[]] := by
  induction l with
  | nil => rfl
  | cons t rest ih =>
      rw [List.flatMap_cons, List.append_assoc, List.singleton_append, split_cons (hfree t (by simp)) hc,
        ih (fun u hu => hfree u (by simp [hu])) fun u hu => hne u (by simp [hu])]
      · rfl
      · -- what follows starts with the next token, or is empty
        cases rest with
        | nil =>
            intro d hd
            cases hd
        | cons u rest =>
            cases u with
            | nil => exact absurd rfl (hne [] (by simp))
            | cons d u =>
                intro d' hd'
                have hsame : d = d' := Option.some.inj hd'
                rw [← hsame]
                exact hfree (d :: u) (by simp) d List.mem_cons_self

/-! ## Printed numbers read back -/

theorem decNat_ne_nil (n : Nat) : decNat n ≠ [] := Nat.toDigits_ne_nil

theorem isDigit_of_mem_decNat {n : Nat} {c : Char} (h : c ∈ decNat n) : c.isDigit = true :=
  Nat.isDigit_of_mem_toDigits (by omega) (by omega) h

theorem isDigits_decNat (n : Nat) : isDigits (decNat n) = true := by
  unfold isDigits
  rw [Bool.and_eq_true, List.all_eq_true]
  refine ⟨?_, fun c hc => isDigit_of_mem_decNat hc⟩
  cases h : decNat n with
  | nil => exact absurd h (decNat_ne_nil n)
  | cons c t => rfl

@[simp] theorem digitsVal_decNat (n : Nat) : digitsVal (decNat n) = n :=
  Nat.ofDigitChars_ten_toDigits

/-- A digit string is read as its value: it starts with no sign. -/
theorem readInt_digits {t : Text} (h : isDigits t = true) : readInt t = some (digitsVal t : Int) := by
  unfold readInt
  split
  · next u =>
      exfalso
      simp [isDigits] at h
  · next u =>
      exfalso
      simp [isDigits] at h
  · rw [if_pos h]

@[simp] theorem readInt_decNat (n : Nat) : readInt (decNat n) = some (n : Int) := by
  rw [readInt_digits (isDigits_decNat n), digitsVal_decNat]

@[simp] theorem readInt_decInt (n : Int) : readInt (decInt n) = some n := by
  cases n with
  | ofNat n => exact readInt_decNat n
  | negSucc n =>
      simp only [decInt, readInt, isDigits_decNat, if_true, digitsVal_decNat]
      rfl

theorem castInt_decInt {w : Nat} {n : Int} (hlo : -(2 ^ (w - 1) : Int) ≤ n)
    (hhi : n < 2 ^ (w - 1)) : castInt w (decInt n) = some n := by
  unfold castInt
  rw [readInt_decInt]
  exact if_pos ⟨hlo, hhi⟩

theorem castInt_decNat {w n : Nat} (hhi : (n : Int) < 2 ^ (w - 1)) :
    castInt w (decNat n) = some (n : Int) := by
  have hpos : (0 : Int) < 2 ^ (w - 1) := by positivity
  exact castInt_decInt (n := (n : Int)) (by omega) hhi

theorem castNat_decNat {w n : Nat} (h : n < 2 ^ w) : castNat w (decNat n) = some n := by
  unfold castNat
  rw [readInt_decNat]
  have habs : (n : Int).natAbs < 2 ^ w := by simpa using h
  simp only [habs, if_true]
  have hmod : (n : Int) % 2 ^ w = n := Int.emod_eq_of_lt (by omega) (by exact_mod_cast h)
  rw [hmod]
  rfl

theorem takeWhile_decNat (n : Nat) : (decNat n).takeWhile Char.isDigit = decNat n :=
  List.takeWhile_eq_self_iff.mpr (fun _ hc => isDigit_of_mem_decNat hc)

/-- A positive number is printed without leading zeros. -/
theorem head?_decNat_ne_zero {n : Nat} (h : 0 < n) : (decNat n).head? ≠ some '0' := by
  unfold decNat
  induction n using Nat.strong_induction_on with
  | _ n ih =>
      by_cases hten : n < 10
      · have hdigits : ∀ d < 10, 0 < d → d.digitChar ≠ '0' := by decide
        rw [Nat.toDigits_of_lt_base hten, List.head?_cons]
        intro heq
        exact hdigits n hten h (Option.some.inj heq)
      · -- the first digit is that of the number without its last one
        have hfirst := ih (n / 10) (by omega) (by omega)
        rw [Nat.toDigits_of_base_le (by decide) (by omega), List.head?_append]
        cases hhead : (Nat.toDigits 10 (n / 10)).head? with
        | none => exact absurd (List.head?_eq_none_iff.mp hhead) (decNat_ne_nil _)
        | some c =>
            rw [hhead] at hfirst
            exact hfirst

/-- `atoi` reads back what `%d` printed. -/
theorem atoi_decNat (n : Nat) : atoi (decNat n) = n := by
  have hdig : ∀ c ∈ decNat n, c.isDigit = true := fun c hc => isDigit_of_mem_decNat hc
  have htake := takeWhile_decNat n
  have hval := digitsVal_decNat n
  generalize decNat n = t at *
  unfold atoi
  split
  · exact absurd (hdig ' ' (by simp)) (by decide)
  · exact absurd (hdig '-' (by simp)) (by decide)
  · exact absurd (hdig '+' (by simp)) (by decide)
  · rw [htake, hval]

theorem atoi_decInt (n : Int) : atoi (decInt n) = n := by
  cases n with
  | ofNat n => exact atoi_decNat n
  | negSucc n =>
      show -(digitsVal ((decNat (n + 1)).takeWhile Char.isDigit) : Int) = _
      rw [takeWhile_decNat, digitsVal_decNat]
      rfl

/-- Numbers of 32 bits are read as they are. -/
theorem atoi32_decInt {n : Int} (hlo : -2 ^ 31 ≤ n) (hhi : n < 2 ^ 31) : atoi32 (decInt n) = n := by
  have hlow : max (-2 ^ 63) (min (2 ^ 63 - 1) n) = n := by omega
  unfold atoi32
  rw [atoi_decInt, hlow]
  exact Int.bmod_eq_of_le (by omega) (by omega)

/-- Printed numbers are free of any separator that is not a digit. -/
theorem free_decNat {p : Char → Bool} (hp : ∀ c, c.isDigit = true → p c = false) (n : Nat) :
    Free p (decNat n) :=
  fun c hc => hp c (isDigit_of_mem_decNat hc)

theorem free_decInt {p : Char → Bool} (hp : ∀ c, c.isDigit = true → p c = false)
    (hm : p '-' = false) (n : Int) : Free p (decInt n) := by
  cases n with
  | ofNat n => exact free_decNat hp n
  | negSucc n =>
      intro c hc
      rcases List.mem_cons.mp hc with rfl | hc
      · exact hm
      · exact free_decNat hp (n + 1) c hc

theorem decInt_ne_nil (n : Int) : decInt n ≠ [] := by
  cases n with
  | ofNat n => exact decNat_ne_nil n
  | negSucc n => simp [decInt]

theorem decNat_injective : Function.Injective decNat := by
  intro a b h
  have := congrArg digitsVal h
  simpa using this

theorem decInt_injective : Function.Injective decInt := by
  intro a b h
  have := congrArg readInt h
  simpa using this

theorem digitsVal_padNat (w n : Nat) : digitsVal (padNat w n) = n := by
  unfold digitsVal padNat
  rw [Nat.ofDigitChars_append, Nat.ofDigitChars_replicate_zero, Nat.mul_zero]
  exact digitsVal_decNat n

theorem padNat_injective (w : Nat) : Function.Injective (padNat w) := by
  intro a b h
  have := congrArg digitsVal h
  simpa [digitsVal_padNat] using this

/-! ## Hexadecimal numbers -/

@[simp] theorem length_hexNat (w n : Nat) : (hexNat w n).length = w := by
  induction w generalizing n with
  | zero => rfl
  | succ w ih => simp [hexNat, ih]

theorem digitChar_inj {a b : Nat} (ha : a < 16) (hb : b < 16) (h : a.digitChar = b.digitChar) :
    a = b := by
  have hall : ∀ a < 16, ∀ b < 16, a.digitChar = b.digitChar → a = b := by decide
  exact hall a ha b hb h

/-- Numbers that fit into `w` digits print differently. -/
theorem hexNat_inj {w a b : Nat} (ha : a < 16 ^ w) (hb : b < 16 ^ w)
    (h : hexNat w a = hexNat w b) : a = b := by
  induction w generalizing a b with
  | zero =>
      rw [pow_zero] at ha hb
      omega
  | succ w ih =>
      obtain ⟨hhigh, hlow⟩ := List.append_inj' h rfl
      have hdiv : ∀ n, n < 16 ^ (w + 1) → n / 16 < 16 ^ w := by
        intro n hn
        rw [pow_succ] at hn
        exact Nat.div_lt_of_lt_mul (by rwa [Nat.mul_comm])
      have hquot : a / 16 = b / 16 := ih (hdiv a ha) (hdiv b hb) hhigh
      have hrem : a % 16 = b % 16 :=
        digitChar_inj (Nat.mod_lt _ (by omega)) (Nat.mod_lt _ (by omega)) (List.cons.inj hlow).1
      omega

theorem free_hexNat {p : Char → Bool} (hp : ∀ d < 16, p (Nat.digitChar d) = false) (w n : Nat) :
    Free p (hexNat w n) := by
  induction w generalizing n with
  | zero =>
      intro c hc
      cases hc
  | succ w ih =>
      intro c hc
      rcases List.mem_append.mp hc with hc | hc
      · exact ih (n / 16) c hc
      · rw [List.mem_singleton.mp hc]
        exact hp _ (Nat.mod_lt _ (by omega))

/-- A number below `10 ^ w` has at most `w` digits. -/
theorem length_decNat_le {w n : Nat} (hw : 0 < w) (h : n < 10 ^ w) : (decNat n).length ≤ w :=
  (Nat.length_toDigits_le_iff (by omega) hw).mpr h

/-! ### Reading hexadecimal numbers -/

/-- The value of a hexadecimal digit. -/
def hexDigit? (c : Char) : Option Nat :=
  if c.isDigit then some (c.toNat - '0'.toNat)
  else if 'a' ≤ c ∧ c ≤ 'f' then some (c.toNat - 'a'.toNat + 10)
  else if 'A' ≤ c ∧ c ≤ 'F' then some (c.toNat - 'A'.toNat + 10)
  else none

/-- The value of the hexadecimal digits a text starts with. -/
def readHex (t : Text) : Nat :=
  (t.takeWhile fun c => (hexDigit? c).isSome).foldl (fun n c => 16 * n + (hexDigit? c).getD 0) 0

theorem hexDigit?_digitChar {d : Nat} (h : d < 16) : hexDigit? (Nat.digitChar d) = some d := by
  have hall : ∀ d < 16, hexDigit? (Nat.digitChar d) = some d := by decide
  exact hall d h

theorem takeWhile_hexNat (w n : Nat) :
    (hexNat w n).takeWhile (fun c => (hexDigit? c).isSome) = hexNat w n := by
  refine List.takeWhile_eq_self_iff.mpr fun c hc => ?_
  have hfree : Free (fun c => !(hexDigit? c).isSome) (hexNat w n) :=
    free_hexNat (fun d hd => by simp [hexDigit?_digitChar hd]) w n
  simpa using hfree c hc

/-- Printed digits read back, as far as they were printed. -/
theorem readHex_hexNat (w n : Nat) : readHex (hexNat w n) = n % 16 ^ w := by
  unfold readHex
  rw [takeWhile_hexNat]
  induction w generalizing n with
  | zero => simp [hexNat, Nat.mod_one]
  | succ w ih =>
      have hdigit : n % 16 < 16 := Nat.mod_lt _ (by omega)
      rw [hexNat, List.foldl_append, ih, List.foldl_cons, List.foldl_nil,
        hexDigit?_digitChar hdigit, Option.getD_some, pow_succ, Nat.mul_comm (16 ^ w) 16,
        Nat.mod_mul]
      omega

/-! ## Digit strings in order -/

theorem digitsVal_cons (c : Char) (t : Text) :
    digitsVal (c :: t) = (c.toNat - '0'.toNat) * 10 ^ t.length + digitsVal t := by
  unfold digitsVal
  rw [Nat.ofDigitChars_cons, Nat.ofDigitChars_eq_ofDigitChars_zero]
  rw [Nat.mul_zero, Nat.zero_add, Nat.mul_comm]

theorem digit_bounds {c : Char} (h : c.isDigit = true) :
    '0'.toNat ≤ c.toNat ∧ c.toNat ≤ '9'.toNat := by
  unfold Char.isDigit at h
  rw [Bool.and_eq_true, decide_eq_true_eq, decide_eq_true_eq] at h
  exact ⟨UInt32.le_iff_toNat_le.mp h.1, UInt32.le_iff_toNat_le.mp h.2⟩

theorem digitsVal_lt {t : Text} (ht : t.all Char.isDigit = true) : digitsVal t < 10 ^ t.length := by
  induction t with
  | nil => decide
  | cons c rest ih =>
      rw [List.all_cons, Bool.and_eq_true] at ht
      have hrest := ih ht.2
      have hc : c.toNat - '0'.toNat ≤ 9 := by
        have hnine := (digit_bounds ht.1).2
        have hvalues : '9'.toNat = 57 ∧ '0'.toNat = 48 := ⟨rfl, rfl⟩
        omega
      rw [digitsVal_cons, List.length_cons, Nat.pow_succ]
      have hmul := Nat.mul_le_mul_right (10 ^ rest.length) hc
      omega

theorem compare_char (c d : Char) : compare c d = compare c.toNat d.toNat := by
  show compareOfLessAndEq c d = compareOfLessAndEq c.toNat d.toNat
  unfold compareOfLessAndEq
  have hlt : c < d ↔ c.toNat < d.toNat := Iff.trans Char.lt_def UInt32.lt_iff_toNat_lt
  have heq : c = d ↔ c.toNat = d.toNat := Char.toNat_inj.symm
  simp only [hlt, heq]

theorem compare_append {l l' : Text} (hlen : l.length = l'.length) (t t' : Text) :
    compare (l ++ t) (l' ++ t') = (compare l l').then (compare t t') := by
  induction l generalizing l' with
  | nil =>
      rw [List.eq_nil_of_length_eq_zero hlen.symm]
      rfl
  | cons c rest ih =>
      cases l' with
      | nil => cases hlen
      | cons d rest' =>
          rw [List.cons_append, List.cons_append, List.compare_cons_cons, List.compare_cons_cons,
            ih (Nat.succ.inj hlen), Ordering.then_assoc]

/-- Digit strings of one length are in the order of their values. -/
theorem compare_digits {l l' : Text} (hl : l.all Char.isDigit = true)
    (hl' : l'.all Char.isDigit = true) (hlen : l.length = l'.length) :
    compare l l' = compare (digitsVal l) (digitsVal l') := by
  induction l generalizing l' with
  | nil =>
      rw [List.eq_nil_of_length_eq_zero hlen.symm]
      rfl
  | cons c rest ih =>
      cases l' with
      | nil => cases hlen
      | cons d rest' =>
          rw [List.all_cons, Bool.and_eq_true] at hl hl'
          have hlen : rest.length = rest'.length := Nat.succ.inj hlen
          rw [List.compare_cons_cons, ih hl.2 hl'.2 hlen, compare_char, digitsVal_cons,
            digitsVal_cons, ← hlen]
          have hrest := digitsVal_lt hl.2
          have hrest' := digitsVal_lt hl'.2
          rw [← hlen] at hrest'
          have hc : '0'.toNat ≤ c.toNat := (digit_bounds hl.1).1
          have hd : '0'.toNat ≤ d.toNat := (digit_bounds hl'.1).1
          rcases Nat.lt_trichotomy c.toNat d.toNat with h | h | h
          · rw [Nat.compare_eq_lt.mpr h]
            have hstep : c.toNat - '0'.toNat + 1 ≤ d.toNat - '0'.toNat := by omega
            have hmul := Nat.mul_le_mul_right (10 ^ rest.length) hstep
            rw [Nat.add_mul] at hmul
            exact (Nat.compare_eq_lt.mpr (by omega)).symm
          · rw [h, Nat.compare_eq_eq.mpr rfl]
            show compare (digitsVal rest) (digitsVal rest') = _
            rcases Nat.lt_trichotomy (digitsVal rest) (digitsVal rest') with hv | hv | hv
            · rw [Nat.compare_eq_lt.mpr hv, Nat.compare_eq_lt.mpr (by omega)]
            · rw [hv, Nat.compare_eq_eq.mpr rfl, Nat.compare_eq_eq.mpr rfl]
            · rw [Nat.compare_eq_gt.mpr hv, Nat.compare_eq_gt.mpr (by omega)]
          · rw [Nat.compare_eq_gt.mpr h]
            have hstep : d.toNat - '0'.toNat + 1 ≤ c.toNat - '0'.toNat := by omega
            have hmul := Nat.mul_le_mul_right (10 ^ rest.length) hstep
            rw [Nat.add_mul] at hmul
            exact (Nat.compare_eq_gt.mpr (by omega)).symm

theorem length_padNat {w n : Nat} (hw : 0 < w) (h : n < 10 ^ w) : (padNat w n).length = w := by
  have hlen := length_decNat_le hw h
  unfold padNat
  rw [List.length_append, List.length_replicate]
  omega

theorem all_isDigit_padNat (w n : Nat) : (padNat w n).all Char.isDigit = true := by
  unfold padNat
  rw [List.all_append, Bool.and_eq_true, List.all_eq_true, List.all_eq_true]
  constructor
  · intro c hc
    rw [List.eq_of_mem_replicate hc]
    rfl
  · intro c hc
    exact isDigit_of_mem_decNat hc

/-- Padded numbers that fit are in the order of the numbers, whatever follows. -/
theorem compare_padNat_append {w a b : Nat} (hw : 0 < w) (ha : a < 10 ^ w) (hb : b < 10 ^ w)
    (t t' : Text) :
    compare (padNat w a ++ t) (padNat w b ++ t') = (compare a b).then (compare t t') := by
  have hlen : (padNat w a).length = (padNat w b).length :=
    (length_padNat hw ha).trans (length_padNat hw hb).symm
  have hcompare := compare_digits (all_isDigit_padNat w a) (all_isDigit_padNat w b) hlen
  rw [digitsVal_padNat, digitsVal_padNat] at hcompare
  rw [← hcompare]
  exact compare_append hlen t t'

/-! ## Searching -/

/-- `std::string::find`: where a text occurs first. -/
def findText (pat : Text) : Text → Option Nat
  | [] => if pat.isEmpty then some 0 else none
  | c :: rest =>
      if pat.isPrefixOf (c :: rest) then some 0 else (findText pat rest).map (· + 1)

theorem findText_isSome {pat t : Text} : (findText pat t).isSome = true ↔ pat <:+: t := by
  induction t with
  | nil =>
      rw [findText, List.infix_nil]
      cases pat with
      | nil => simp
      | cons c pat => simp
  | cons c rest ih =>
      rw [findText, List.infix_cons_iff, ← ih]
      split
      · next hfirst =>
          exact iff_of_true rfl (Or.inl (List.isPrefixOf_iff_prefix.mp hfirst))
      · next hnot =>
          rw [List.isPrefixOf_iff_prefix] at hnot
          rw [Option.isSome_map, or_iff_right hnot]

/-- In two texts of its length that are joined by a character it does not have, a text occurs only
    as one of the two. -/
theorem infix_joined {pat a b : Text} {c : Char} (hc : c ∉ pat) (ha : a.length = pat.length)
    (hb : b.length = pat.length) : pat <:+: a ++ c :: b ↔ pat = a ∨ pat = b := by
  constructor
  · rintro ⟨u, v, h⟩
    have hlen : u.length + pat.length + v.length = a.length + (b.length + 1) := by
      rw [← List.length_append, ← List.length_append, h, List.length_append, List.length_cons]
    rcases Nat.eq_zero_or_pos u.length with hu | hu
    · -- it is the first one
      rw [List.length_eq_zero_iff.mp hu, List.nil_append] at h
      exact Or.inl (List.append_inj_left h ha.symm)
    · by_cases hlast : u.length ≤ a.length
      · -- it would go over the joint
        have hjoint : (u ++ pat ++ v)[a.length]? = some c := by
          rw [h, List.getElem?_append_right le_rfl, Nat.sub_self, List.getElem?_cons_zero]
        rw [List.append_assoc, List.getElem?_append_right hlast,
          List.getElem?_append_left (by omega)] at hjoint
        exact absurd (List.mem_of_getElem? hjoint) hc
      · have hv : v.length = 0 := by omega
        rw [List.length_eq_zero_iff.mp hv, List.append_nil, ← List.singleton_append,
          ← List.append_assoc] at h
        refine Or.inr (List.append_inj_right h ?_)
        rw [List.length_append, List.length_singleton]
        omega
  · rintro (rfl | rfl)
    · exact (List.prefix_append _ _).isInfix
    · exact ((List.suffix_cons c _).trans (List.suffix_append a _)).isInfix

end TextRec
