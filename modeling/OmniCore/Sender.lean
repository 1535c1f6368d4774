import OmniCore.EncodingFilter
import OmniCore.Lib.Largest

/-! # Sender — who sent a transaction

    A class C transaction is sent by the address of its first input. Before class C the sender is
    the address that contributed most: the values of all inputs are added up by address, and a
    walk over the sums keeps the first largest one. -/

namespace OmniCore

open Std (ExtTreeMap)
open Machine TextRec MapSum Largest

/-! ## Transactions -/

/-- The output of a transaction that an input spends. -/
structure COutPoint where
  hash : Txid
  n : Nat
  deriving DecidableEq

/-- An output: its value and its script. -/
structure CTxOut where
  nValue : Int
  scriptPubKey : CScript
  deriving DecidableEq

/-- What is looked at of a transaction. -/
structure CTransaction where
  vin : List COutPoint
  vout : List CTxOut

/-- `MAX_MONEY`. -/
def maxMoney : Int := 21000000 * 100000000

/-- `MoneyRange`. -/
def moneyRange (nValue : Int) : Bool := decide (0 ≤ nValue) && decide (nValue ≤ maxMoney)

/-- The check for negative or overflow input values of `CheckTxInputs`, which a transaction passes
    before it gets into a block. -/
def checkInputValues : Int → List CTxOut → Bool
  | _, [] => true
  | nValueIn, coins :: rest =>
      let nValueIn := toInt64 (nValueIn + coins.nValue)
      moneyRange coins.nValue && moneyRange nValueIn && checkInputValues nValueIn rest

/-- `IsAllowedInputType`. -/
def isAllowedInputType (params : OutputBlocks) (whichType : TxOutType) (nBlock : Nat) : Bool :=
  match whichType with
  | .pubKeyHash => decide (params.pubKeyHashBlock ≤ nBlock)
  | .scriptHash => decide (params.scriptHashBlock ≤ nBlock)
  | _ => false

/-! ## Identification -/

/-- What the node is asked for: the hash of a key, the base58 text of a destination, and the outputs
    of previous transactions, of which some may be missing. -/
structure SenderEnv where
  network : Network
  params : OutputBlocks
  hash160 : List UInt8 → List UInt8
  toAddress : CTxDestination → Address
  getOutputFor : COutPoint → Option CTxOut

namespace SenderEnv

variable (env : SenderEnv)

/-- The address of an input; the three ways to have none are three codes, the first one given. -/
def inputAddress (nBlock : Nat) (code : Int) (txOut : CTxOut) : Except Int Address :=
  match getOutputType txOut.scriptPubKey with
  | none => .error code
  | some whichType =>
      if !isAllowedInputType env.params whichType nBlock then .error (code - 1)
      else
        match extractDestination env.hash160 txOut.scriptPubKey with
        | some source => .ok (env.toAddress source)
        | none => .error (code - 2)

/-- The loop over the inputs: `inputs_sum_of_values[address] += nValue`. -/
def inputsSumOfValues (nBlock : Nat) :
    List CTxOut → ExtTreeMap Address Int → Except Int (ExtTreeMap Address Int)
  | [], sums => .ok sums
  | txOut :: rest, sums =>
      match env.inputAddress nBlock (-104) txOut with
      | .error code => .error code
      | .ok a =>
          inputsSumOfValues nBlock rest (sums.insert a (toInt64 ((sums[a]?).getD 0 + txOut.nValue)))

/-- The sender identification of `parseTransaction`: a code, or the sender. -/
def identifySender (wtx : CTransaction) (nBlock : Nat) : Except Int Address :=
  match getEncodingClass env.network env.params env.hash160 (wtx.vout.map CTxOut.scriptPubKey)
      nBlock with
  | .noMarker => .error (-1)
  | .classC =>
      match wtx.vin.mapM env.getOutputFor with
      | none => .error (-101)
      | some [] => .error (-5) -- not reached: a transaction has inputs
      | some (txOut :: _) => env.inputAddress nBlock (-108) txOut
  | _ =>
      match wtx.vin.mapM env.getOutputFor with
      | none => .error (-101)
      | some spent =>
          match env.inputsSumOfValues nBlock spent ∅ with
          | .error code => .error code
          | .ok sums =>
              -- find largest by sum
              match (sums.toList.foldl keepLarger (none, 0)).1 with
              | some strSender => .ok strSender
              | none => .error (-5)

end SenderEnv

/-! ## Contributions -/

namespace SenderEnv

variable (env : SenderEnv)

/-- The address an output pays, if there is one. -/
def sourceOf (txOut : CTxOut) : Option Address :=
  (extractDestination env.hash160 txOut.scriptPubKey).map env.toAddress

/-- The sum of the values of the inputs of an address. -/
def contribution (spent : List CTxOut) (a : Address) : Int :=
  ((spent.filter fun txOut => env.sourceOf txOut = some a).map CTxOut.nValue).sum

/-- An input of an allowed type. -/
def AllowedInput (nBlock : Nat) (txOut : CTxOut) : Prop :=
  ∃ whichType, getOutputType txOut.scriptPubKey = some whichType ∧
    isAllowedInputType env.params whichType nBlock = true

/-- **THE LARGEST CONTRIBUTOR**: the address with the largest sum of input values, and of several
    the lexicographically smallest. -/
structure LargestContributor (spent : List CTxOut) (a : Address) : Prop where
  positive : 0 < env.contribution spent a
  largest : ∀ b, env.contribution spent b ≤ env.contribution spent a
  smallest : ∀ b, env.contribution spent b = env.contribution spent a → (compare a b).isLE = true

/-- The inputs as pairs of address and value. -/
def sources (spent : List CTxOut) : List (Address × Int) :=
  spent.filterMap fun txOut => (env.sourceOf txOut).map fun a => (a, txOut.nValue)

theorem total_sources (spent : List CTxOut) (a : Address) :
    total (env.sources spent) a = env.contribution spent a := by
  unfold sources contribution
  induction spent with
  | nil => rfl
  | cons txOut rest ih =>
      cases hsource : env.sourceOf txOut with
      | none =>
          rw [List.filterMap_cons_none (by rw [hsource]; rfl), ih, List.filter_cons,
            if_neg (by rw [hsource]; simp)]
      | some b =>
          rw [List.filterMap_cons_some (by rw [hsource]; rfl), total_cons, ih, List.filter_cons,
            hsource]
          by_cases hb : b = a
          · rw [if_pos hb, if_pos (by rw [hb]; exact decide_eq_true rfl), List.map_cons,
              List.sum_cons]
          · rw [if_neg hb, if_neg (by simpa using hb), Int.zero_add]

/-- The order of the inputs does not change what anyone contributed. -/
theorem contribution_perm {spent spent' : List CTxOut} (h : spent.Perm spent') (a : Address) :
    env.contribution spent a = env.contribution spent' a :=
  ((h.filter _).map CTxOut.nValue).sum_eq

/-- **ALLOWED INPUTS HAVE AN ADDRESS**, so that no code but the last can come of them. -/
theorem inputAddress_of_allowed {nBlock : Nat} {txOut : CTxOut}
    (h : env.AllowedInput nBlock txOut) :
    ∃ a, env.sourceOf txOut = some a ∧ ∀ code, env.inputAddress nBlock code txOut = .ok a := by
  obtain ⟨whichType, htype, hallowed⟩ := h
  have hhash : getOutputType txOut.scriptPubKey = some .pubKeyHash ∨
      getOutputType txOut.scriptPubKey = some .scriptHash := by
    cases whichType with
    | pubKeyHash => exact Or.inl htype
    | scriptHash => exact Or.inr htype
    | _ => cases hallowed
  obtain ⟨source, hsource⟩ := extractDestination_of_hash env.hash160 hhash
  refine ⟨env.toAddress source, ?_, fun code => ?_⟩
  · unfold sourceOf
    rw [hsource]
    rfl
  · unfold inputAddress
    rw [htype, hsource]
    dsimp only
    rw [hallowed, if_neg (by decide)]

/-! ## The loop over the inputs -/

/-- Values that pass the check, and their sum, stay within the money there is. -/
theorem checkInputValues_cons {nValueIn : Int} {txOut : CTxOut} {rest : List CTxOut}
    (h0 : 0 ≤ nValueIn) (hmax : nValueIn ≤ maxMoney)
    (h : checkInputValues nValueIn (txOut :: rest) = true) :
    0 ≤ txOut.nValue ∧ nValueIn + txOut.nValue ≤ maxMoney ∧
      checkInputValues (nValueIn + txOut.nValue) rest = true := by
  simp only [checkInputValues, moneyRange, Bool.and_eq_true, decide_eq_true_eq] at h
  obtain ⟨⟨⟨hv0, hvmax⟩, -, hsum⟩, hrest⟩ := h
  have hexact : toInt64 (nValueIn + txOut.nValue) = nValueIn + txOut.nValue := by
    refine toInt64_of_isInt64 ?_
    unfold IsInt64 minInt64 maxInt64
    unfold maxMoney at hmax hvmax
    omega
  rw [hexact] at hsum hrest
  exact ⟨hv0, hsum, hrest⟩

/-- **THE CHECK** does not depend on the order of the inputs. -/
theorem checkInputValues_iff {spent : List CTxOut} {nValueIn : Int} (h0 : 0 ≤ nValueIn)
    (hmax : nValueIn ≤ maxMoney) : checkInputValues nValueIn spent = true ↔
      (∀ txOut ∈ spent, 0 ≤ txOut.nValue) ∧
        nValueIn + (spent.map CTxOut.nValue).sum ≤ maxMoney := by
  induction spent generalizing nValueIn with
  | nil => exact iff_of_true rfl ⟨fun _ htx => absurd htx List.not_mem_nil, by simpa using hmax⟩
  | cons txOut rest ih =>
      rw [List.map_cons, List.sum_cons, List.forall_mem_cons]
      constructor
      · intro h
        obtain ⟨hv, hsum, hrest⟩ := checkInputValues_cons h0 hmax h
        obtain ⟨hnonneg, htotal⟩ := (ih (by omega) hsum).mp hrest
        exact ⟨⟨hv, hnonneg⟩, by omega⟩
      · rintro ⟨⟨hv, hnonneg⟩, htotal⟩
        have hrest : 0 ≤ (rest.map CTxOut.nValue).sum := by
          refine List.sum_nonneg fun v hv => ?_
          obtain ⟨o, ho, rfl⟩ := List.mem_map.mp hv
          exact hnonneg o ho
        have hexact : toInt64 (nValueIn + txOut.nValue) = nValueIn + txOut.nValue := by
          refine toInt64_of_isInt64 ?_
          unfold IsInt64 minInt64 maxInt64
          unfold maxMoney at htotal
          omega
        simp only [checkInputValues, moneyRange, Bool.and_eq_true, decide_eq_true_eq]
        rw [hexact, ih (by omega) (by omega)]
        exact ⟨⟨⟨hv, by omega⟩, by omega, by omega⟩, hnonneg, by omega⟩

/-- **NO SUM OVERFLOWS**: the loop adds up the values as if there were no limit. -/
theorem inputsSumOfValues_eq {nBlock : Nat} {spent : List CTxOut}
    (hallowed : ∀ txOut ∈ spent, env.AllowedInput nBlock txOut) {nValueIn : Int}
    (h0 : 0 ≤ nValueIn) (hmax : nValueIn ≤ maxMoney)
    (hcheck : checkInputValues nValueIn spent = true) {sums : ExtTreeMap Address Int}
    (hsums : ∀ a : Address, (0 : Int) ≤ (sums[a]?).getD 0 ∧ (sums[a]?).getD 0 ≤ nValueIn) :
    env.inputsSumOfValues nBlock spent sums = .ok ((env.sources spent).foldl addTo sums) := by
  induction spent generalizing nValueIn sums with
  | nil => rfl
  | cons txOut rest ih =>
      obtain ⟨hv, hsum, hrest⟩ := checkInputValues_cons h0 hmax hcheck
      obtain ⟨a, hsource, haddress⟩ :=
        env.inputAddress_of_allowed (hallowed txOut List.mem_cons_self)
      have hexact : toInt64 ((sums[a]?).getD 0 + txOut.nValue) =
          (sums[a]?).getD 0 + txOut.nValue := by
        have ha := hsums a
        refine toInt64_of_isInt64 ?_
        unfold IsInt64 minInt64 maxInt64
        unfold maxMoney at hsum
        omega
      have hstep : env.inputsSumOfValues nBlock (txOut :: rest) sums =
          env.inputsSumOfValues nBlock rest (addTo sums (a, txOut.nValue)) := by
        rw [inputsSumOfValues, haddress]
        dsimp only
        rw [hexact]
        rfl
      have hnext : ∀ b : Address, (0 : Int) ≤ ((addTo sums (a, txOut.nValue))[b]?).getD 0 ∧
          ((addTo sums (a, txOut.nValue))[b]?).getD 0 ≤ nValueIn + txOut.nValue := by
        intro b
        have ha := hsums a
        have hb := hsums b
        rw [addTo, getElem?_insert_eq]
        by_cases hab : a = b
        · rw [if_pos hab, Option.getD_some]
          dsimp only
          omega
        · rw [if_neg hab]
          omega
      have hsources : env.sources (txOut :: rest) = (a, txOut.nValue) :: env.sources rest := by
        unfold sources
        rw [List.filterMap_cons_some (by rw [hsource]; rfl)]
      rw [hstep, hsources, List.foldl_cons]
      exact ih (fun o ho => hallowed o (List.mem_cons_of_mem txOut ho)) (by omega) hsum hrest hnext

/-! ## The choice -/

/-- There is at most one largest contributor. -/
theorem LargestContributor.unique {env : SenderEnv} {spent : List CTxOut} {a b : Address}
    (ha : env.LargestContributor spent a) (hb : env.LargestContributor spent b) : a = b := by
  have heq : env.contribution spent b = env.contribution spent a :=
    Int.le_antisymm (ha.largest b) (hb.largest a)
  have hab := ha.smallest b heq
  have hba := hb.smallest a heq.symm
  have hswap : compare b a = (compare a b).swap := Std.OrientedCmp.eq_swap
  rw [hswap] at hba
  refine Std.LawfulEqOrd.eq_of_compare ?_
  cases hc : compare a b with
  | eq => rfl
  | lt =>
      rw [hc] at hba
      cases hba
  | gt =>
      rw [hc] at hab
      cases hab

/-- **WHAT THE WALK CHOOSES**: the largest contributor, or nobody if nobody contributed. -/
theorem largest_sums (spent : List CTxOut) :
    (∃ a, largest ((env.sources spent).foldl addTo (∅ : ExtTreeMap Address Int)) = some a ∧
        env.LargestContributor spent a) ∨
      (largest ((env.sources spent).foldl addTo (∅ : ExtTreeMap Address Int)) = none ∧
        ∀ a, env.contribution spent a ≤ 0) := by
  have hsum : ∀ {a : Address} {v : Int},
      ((env.sources spent).foldl addTo (∅ : ExtTreeMap Address Int))[a]? = some v →
        v = env.contribution spent a := by
    intro a v hv
    rw [getElem?_foldl_addTo] at hv
    split at hv
    · rw [← env.total_sources, ← Option.some.inj hv]
    · cases hv
  have hzero : ∀ {a : Address},
      ((env.sources spent).foldl addTo (∅ : ExtTreeMap Address Int))[a]? = none →
        env.contribution spent a = 0 := by
    intro a ha
    rw [getElem?_foldl_addTo] at ha
    split at ha
    · cases ha
    · next hnot => rw [← env.total_sources, total_of_notMem hnot]
  cases hlargest : largest ((env.sources spent).foldl addTo (∅ : ExtTreeMap Address Int)) with
  | none =>
      refine Or.inr ⟨rfl, fun a => ?_⟩
      cases ha : ((env.sources spent).foldl addTo (∅ : ExtTreeMap Address Int))[a]? with
      | none => rw [hzero ha]
      | some v =>
          rw [← hsum ha]
          exact largest_eq_none hlargest ha
  | some a =>
      obtain ⟨v, ha, hpos, hbest⟩ := largest_eq_some hlargest
      rw [hsum ha] at hpos hbest
      refine Or.inl ⟨a, rfl, hpos, fun b => ?_, fun b heq => ?_⟩
      · cases hb : ((env.sources spent).foldl addTo (∅ : ExtTreeMap Address Int))[b]? with
        | none =>
            rw [hzero hb]
            exact hpos.le
        | some w =>
            rw [← hsum hb]
            exact (hbest b w hb).1
      · cases hb : ((env.sources spent).foldl addTo (∅ : ExtTreeMap Address Int))[b]? with
        | none =>
            rw [hzero hb] at heq
            exact absurd heq hpos.ne
        | some w =>
            refine (hbest b w hb).2 ?_
            rw [hsum hb, heq]

/-- A class A or B transaction whose inputs are known, of allowed types and of valid values. -/
structure SentByContribution (wtx : CTransaction) (nBlock : Nat) (spent : List CTxOut) : Prop where
  encoding :
    getEncodingClass env.network env.params env.hash160 (wtx.vout.map CTxOut.scriptPubKey)
        nBlock = .classA ∨
      getEncodingClass env.network env.params env.hash160 (wtx.vout.map CTxOut.scriptPubKey)
        nBlock = .classB
  inputs : wtx.vin.mapM env.getOutputFor = some spent
  allowed : ∀ txOut ∈ spent, env.AllowedInput nBlock txOut
  values : checkInputValues 0 spent = true

theorem identifySender_eq {wtx : CTransaction} {nBlock : Nat} {spent : List CTxOut}
    (h : env.SentByContribution wtx nBlock spent) :
    env.identifySender wtx nBlock =
      match largest ((env.sources spent).foldl addTo (∅ : ExtTreeMap Address Int)) with
      | some strSender => .ok strSender
      | none => .error (-5) := by
  have hstart (a : Address) : (0 : Int) ≤ ((∅ : ExtTreeMap Address Int)[a]? : Option Int).getD 0 ∧
      ((∅ : ExtTreeMap Address Int)[a]?).getD 0 ≤ (0 : Int) := by
    rw [ExtTreeMap.getElem?_empty]
    exact ⟨le_rfl, le_rfl⟩
  have hsums := env.inputsSumOfValues_eq h.allowed le_rfl (by decide) h.values hstart
  unfold identifySender
  rcases h.encoding with hclass | hclass
  · rw [hclass, h.inputs]
    dsimp only
    rw [hsums]
    rfl
  · rw [hclass, h.inputs]
    dsimp only
    rw [hsums]
    rfl

/-- The results for a permuted list are permuted. -/
theorem mapM_perm {α β : Type} {f : α → Option β} {l l' : List α} (h : l.Perm l') {r : List β}
    (hr : l'.mapM f = some r) : ∃ r', l.mapM f = some r' ∧ r'.Perm r := by
  have hcons : ∀ {x : α} {l : List α} {r : List β}, (x :: l).mapM f = some r ↔
      ∃ y, f x = some y ∧ ∃ ys, l.mapM f = some ys ∧ y :: ys = r := by
    intro x l r
    rw [List.mapM_cons]
    simp [Option.bind_eq_some_iff]
  induction h generalizing r with
  | nil => exact ⟨r, hr, List.Perm.refl r⟩
  | cons x _ ih =>
      obtain ⟨y, hy, ys, hys, rfl⟩ := hcons.mp hr
      obtain ⟨ys', hys', hperm⟩ := ih hys
      exact ⟨y :: ys', hcons.mpr ⟨y, hy, ys', hys', rfl⟩, hperm.cons y⟩
  | swap x x' l =>
      obtain ⟨y, hy, ys, hys, rfl⟩ := hcons.mp hr
      obtain ⟨y', hy', ys', hys', rfl⟩ := hcons.mp hys
      exact ⟨y' :: y :: ys', hcons.mpr ⟨y', hy', y :: ys', hcons.mpr ⟨y, hy, ys', hys', rfl⟩, rfl⟩,
        List.Perm.swap _ _ _⟩
  | trans _ _ ih ih' =>
      obtain ⟨r', hr', hperm'⟩ := ih' hr
      obtain ⟨r'', hr'', hperm''⟩ := ih hr'
      exact ⟨r'', hr'', hperm''.trans hperm'⟩

/-- **THE SENDER BY CONTRIBUTION** is the address with the largest sum of input values, of several
    the lexicographically smallest; no order of the inputs changes it, and there is none only if
    every input value is zero. -/
theorem sender_by_contribution (wtx : CTransaction) (nBlock : Nat) (spent : List CTxOut)
    (h : env.SentByContribution wtx nBlock spent) :
    (∀ a, env.identifySender wtx nBlock = .ok a ↔ env.LargestContributor spent a) ∧
    (∀ vin' : List COutPoint, vin'.Perm wtx.vin →
      env.identifySender { wtx with vin := vin' } nBlock = env.identifySender wtx nBlock) ∧
    ((∀ a, env.identifySender wtx nBlock ≠ .ok a) ↔ ∀ txOut ∈ spent, txOut.nValue = 0) := by
  refine ⟨fun a => ?_, fun vin' hperm => ?_, ?_⟩
  · rw [env.identifySender_eq h]
    rcases env.largest_sums spent with ⟨b, hb, hlargest⟩ | ⟨hnone, hzero⟩
    · rw [hb]
      constructor
      · intro heq
        cases heq
        exact hlargest
      · intro ha
        rw [ha.unique hlargest]
    · rw [hnone]
      constructor
      · intro heq
        cases heq
      · intro ha
        exact absurd ha.positive (not_lt.mpr (hzero a))
  · obtain ⟨spent', hinputs, hspent⟩ := mapM_perm hperm h.inputs
    have hvalues : checkInputValues 0 spent' = true := by
      rw [checkInputValues_iff le_rfl (by decide), (hspent.map CTxOut.nValue).sum_eq]
      obtain ⟨hnonneg, hsum⟩ := (checkInputValues_iff le_rfl (by decide)).mp h.values
      exact ⟨fun txOut htx => hnonneg txOut (hspent.mem_iff.mp htx), hsum⟩
    have h' : env.SentByContribution { wtx with vin := vin' } nBlock spent' :=
      { encoding := h.encoding
        inputs := hinputs
        allowed := fun txOut htx => h.allowed txOut (hspent.mem_iff.mp htx)
        values := hvalues }
    have hsame : ∀ a, env.contribution spent' a = env.contribution spent a :=
      env.contribution_perm hspent
    rw [env.identifySender_eq h', env.identifySender_eq h]
    rcases env.largest_sums spent with ⟨a, ha, hlargest⟩ | ⟨hnone, hzero⟩
    · rcases env.largest_sums spent' with ⟨b, hb, hlargest'⟩ | ⟨-, hzero'⟩
      · have hb' : env.LargestContributor spent b := by
          constructor
          · rw [← hsame]
            exact hlargest'.positive
          · intro c
            rw [← hsame, ← hsame]
            exact hlargest'.largest c
          · intro c hc
            rw [← hsame, ← hsame] at hc
            exact hlargest'.smallest c hc
        rw [ha, hb, hb'.unique hlargest]
      · have hpos := hlargest.positive
        rw [← hsame] at hpos
        exact absurd hpos (not_lt.mpr (hzero' a))
    · rcases env.largest_sums spent' with ⟨b, -, hlargest'⟩ | ⟨hnone', -⟩
      · have hpos := hlargest'.positive
        rw [hsame] at hpos
        exact absurd hpos (not_lt.mpr (hzero b))
      · rw [hnone, hnone']
  · have hnonneg := ((checkInputValues_iff le_rfl (by decide)).mp h.values).1
    have hzeros : (∀ a, env.contribution spent a = 0) ↔ ∀ txOut ∈ spent, txOut.nValue = 0 := by
      have hsource : ∀ txOut ∈ spent, ∃ a, env.sourceOf txOut = some a := fun txOut htx =>
        (env.inputAddress_of_allowed (h.allowed txOut htx)).imp fun _ ha => ha.1
      have hpairs : ∀ e ∈ env.sources spent, 0 ≤ e.2 := by
        intro e he
        obtain ⟨txOut, htx, hmap⟩ := List.mem_filterMap.mp he
        obtain ⟨a, -, rfl⟩ := Option.map_eq_some_iff.mp hmap
        exact hnonneg txOut htx
      simp only [← env.total_sources]
      rw [total_eq_zero_iff hpairs]
      constructor
      · intro hall txOut htx
        obtain ⟨a, ha⟩ := hsource txOut htx
        exact hall (a, txOut.nValue) (List.mem_filterMap.mpr ⟨txOut, htx, by rw [ha]; rfl⟩)
      · intro hall e he
        obtain ⟨txOut, htx, hmap⟩ := List.mem_filterMap.mp he
        obtain ⟨a, -, rfl⟩ := Option.map_eq_some_iff.mp hmap
        exact hall txOut htx
    rw [env.identifySender_eq h, ← hzeros]
    rcases env.largest_sums spent with ⟨a, ha, hlargest⟩ | ⟨hnone, hzero⟩
    · rw [ha]
      refine iff_of_false (fun hall => hall a rfl) fun hall => ?_
      exact absurd (hall a) hlargest.positive.ne'
    · rw [hnone]
      refine iff_of_true (fun a heq => by cases heq) fun a => le_antisymm (hzero a) ?_
      rw [← env.total_sources]
      refine total_nonneg (fun e he => ?_) a
      obtain ⟨txOut, htx, hmap⟩ := List.mem_filterMap.mp he
      obtain ⟨b, -, rfl⟩ := Option.map_eq_some_iff.mp hmap
      exact hnonneg txOut htx

end SenderEnv

/-- Two key hashes with five and seven units. -/
def twoInputs : List CTxOut :=
  [⟨5, keyHashScript shortPush (List.replicate 20 1)⟩,
   ⟨7, keyHashScript shortPush (List.replicate 20 2)⟩]

/-- A node on the main network that knows them. -/
def twoInputsEnv : SenderEnv where
  network := .main
  params := mainOutputBlocks 395000
  hash160 := id
  toAddress d :=
    if d = .keyID (List.replicate 20 1) then ⟨['1', 'x'], by decide, by decide⟩
    else ⟨['1', 'y'], by decide, by decide⟩
  getOutputFor o := twoInputs[o.n]?

/-- A class A transaction that spends both. -/
def twoInputsTx : CTransaction :=
  ⟨[⟨1, 0⟩, ⟨1, 1⟩], [⟨1, keyHashScript shortPush exodusMainnet⟩]⟩

theorem sender_of_twoInputs :
    (∀ a, twoInputsEnv.identifySender twoInputsTx 300000 = .ok a ↔
      twoInputsEnv.LargestContributor twoInputs a) ∧
    (∀ vin' : List COutPoint, vin'.Perm twoInputsTx.vin →
      twoInputsEnv.identifySender { twoInputsTx with vin := vin' } 300000 =
        twoInputsEnv.identifySender twoInputsTx 300000) ∧
    ((∀ a, twoInputsEnv.identifySender twoInputsTx 300000 ≠ .ok a) ↔
      ∀ txOut ∈ twoInputs, txOut.nValue = 0) :=
  twoInputsEnv.sender_by_contribution twoInputsTx 300000 twoInputs
    { encoding := Or.inl (by decide +kernel)
      inputs := rfl
      allowed := by
        intro txOut htx
        refine ⟨.pubKeyHash, ?_, rfl⟩
        revert txOut
        decide +kernel
      values := by decide +kernel }

end OmniCore
