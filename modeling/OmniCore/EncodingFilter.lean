import OmniCore.ClassC

/-! # EncodingFilter — the quick search against the full examination

    On the main network `GetEncodingClass` first compares the bytes of every output with the one
    script that pays the Exodus address, and looks for marker bytes. The examination behind it
    decodes operations, and to it a push of twenty bytes is a push of twenty bytes: it knows
    four scripts that pay the Exodus address where the search knows one. -/

namespace OmniCore

open TextRec Bytes

/-! ## The two paths -/

/-- `GetEncodingClass` without the quick search: every output is examined. -/
def examineOutputs (network : Network) (params : OutputBlocks) (hash160 : List UInt8 → List UInt8)
    (vout : List CScript) (nBlock : Nat) : EncodingClass :=
  let hasExodus := vout.any (paysKeyHash params hash160 nBlock network.exodusAddress)
  let hasMoney :=
    vout.any (paysKeyHash params hash160 nBlock (network.exodusCrowdsaleAddress nBlock))
  let hasMultisig := vout.any fun script => outputType params nBlock script == some .multisig
  let hasOpReturn := vout.any (isMarkedOutput params nBlock)
  if hasOpReturn then .classC
  else if hasExodus && hasMultisig then .classB
  else if hasExodus || hasMoney then .classA
  else .noMarker

/-- The quick search decides whether the outputs are examined. -/
theorem getEncodingClass_eq (network : Network) (params : OutputBlocks)
    (hash160 : List UInt8 → List UInt8) (vout : List CScript) (nBlock : Nat) :
    getEncodingClass network params hash160 vout nBlock =
      if !(fastSearch vout nBlock || network.isNonMainNet) then .noMarker
      else examineOutputs network params hash160 vout nBlock := rfl

/-- A script that pays a key hash, with the push of the hash spelled as given. -/
def keyHashScript (push keyID : List UInt8) : CScript :=
  [opDup, opHash160] ++ (push ++ keyID) ++ [opEqualVerify, opCheckSig]

/-- The short push of twenty bytes. -/
def shortPush : List UInt8 := [20]

/-- The three longer pushes of twenty bytes. -/
def longPushes : List (List UInt8) :=
  [[opPushData1, 20], [opPushData2, 20, 0], [opPushData4, 20, 0, 0, 0]]

/-- An output that pays the Exodus address with a longer push than necessary, at a block where such
    outputs are considered. -/
def PaysExodusLong (params : OutputBlocks) (nBlock : Nat) (script : CScript) : Prop :=
  params.pubKeyHashBlock ≤ nBlock ∧ ∃ push ∈ longPushes, script = keyHashScript push exodusMainnet

/-- What the quick search looks for: the one script, or marker bytes once class C is live. -/
def FoundFast (nBlock : Nat) (script : CScript) : Prop :=
  script = keyHashScript shortPush exodusMainnet ∨
    395000 ≤ nBlock ∧ strFind strClassC (hexStr script) = true

theorem fastSearch_iff {vout : List CScript} {nBlock : Nat} :
    fastSearch vout nBlock = true ↔ ∃ script ∈ vout, FoundFast nBlock script := by
  have hsame : ∀ script, hexStr script = strClassAB ↔
      script = keyHashScript shortPush exodusMainnet := by
    intro script
    have hcanonical : hexStr (keyHashScript shortPush exodusMainnet) = strClassAB := by
      decide +kernel
    constructor
    · intro h
      rw [← parseHexText_hexStr script, h, ← hcanonical, parseHexText_hexStr]
    · rintro rfl
      exact hcanonical
  unfold fastSearch FoundFast
  simp only [List.any_eq_true, Bool.or_eq_true, beq_iff_eq, Bool.and_eq_true, decide_eq_true_eq,
    hsame]

/-! ## What operations are read from -/

/-- What follows the size of a push is the end of the script. -/
theorem readPushSize_suffix {opcode : UInt8} {pc rest : CScript} {n : Nat}
    (h : readPushSize opcode pc = some (n, rest)) : ∃ front, pc = front ++ rest := by
  unfold readPushSize at h
  split at h
  · cases h
    exact ⟨[], rfl⟩
  · split at h
    · split at h
      · cases h
        exact ⟨[_], rfl⟩
      · cases h
    · split at h
      · split at h
        · cases h
          exact ⟨[_, _], rfl⟩
        · cases h
      · split at h
        · cases h
          exact ⟨[_, _, _, _], rfl⟩
        · cases h

/-- The operation and the rest are parts of the script. -/
theorem getOp_split {script rest : CScript} {op : ScriptOp} (h : getOp script = some (op, rest)) :
    ∃ front, script = op.1 :: (front ++ (op.2 ++ rest)) ∧
      (op.1 ≤ opPushData4 → readPushSize op.1 (front ++ (op.2 ++ rest)) =
        some (op.2.length, op.2 ++ rest)) ∧
      (¬ op.1 ≤ opPushData4 → front = [] ∧ op.2 = []) := by
  cases script with
  | nil => cases h
  | cons opcode pc =>
      rw [getOp] at h
      split at h
      · next hpush =>
          split at h
          · next nSize pc' hsize =>
              split at h
              · cases h
              · next hlen =>
                  cases h
                  have htake : (pc'.take nSize).length = nSize := by
                    rw [List.length_take]
                    omega
                  obtain ⟨front, hfront⟩ := readPushSize_suffix hsize
                  dsimp only
                  rw [List.take_append_drop, htake, hfront]
                  exact ⟨front, rfl, fun _ => by rw [← hfront, hsize], fun hno => absurd hpush hno⟩
          · cases h
      · next hno =>
          cases h
          exact ⟨[], rfl, fun hpush => absurd hpush hno, fun _ => ⟨rfl, rfl⟩⟩

/-- **PUSHES OF TWENTY BYTES**: the opcode and what stands before the data. -/
theorem push_twenty {opcode : UInt8} {front tail : CScript} (hpush : opcode ≤ opPushData4)
    (h : readPushSize opcode (front ++ tail) = some (20, tail)) :
    opcode :: front ∈ shortPush :: longPushes := by
  have hsame : ∀ {n : Nat} {a : UInt8}, a.toNat = n → n < 256 → a = UInt8.ofNat n := by
    intro n a ha hn
    rw [← UInt8.toNat_inj, ha, toNat_ofNat_of_lt hn]
  have hcut : ∀ size : List UInt8, front ++ tail = size ++ tail → front = size := fun size hsize =>
    List.append_cancel_right hsize
  unfold readPushSize at h
  split at h
  · simp only [Option.some.injEq, Prod.mk.injEq] at h
    rw [hsame h.1 (by omega), hcut [] (by simpa using h.2)]
    exact List.mem_cons_self
  · next hshort =>
      split at h
      · next hone =>
          split at h
          · next a pc hpc =>
              simp only [Option.some.injEq, Prod.mk.injEq] at h
              rw [h.2] at hpc
              rw [hone, hcut [a] hpc, hsame h.1 (by omega)]
              exact List.mem_cons_of_mem _ List.mem_cons_self
          · cases h
      · next hone =>
          split at h
          · next htwo =>
              split at h
              · next a b pc hpc =>
                  simp only [Option.some.injEq, Prod.mk.injEq] at h
                  rw [h.2] at hpc
                  have ha : a.toNat = 20 := by
                    have := a.toNat_lt
                    omega
                  have hb : b.toNat = 0 := by omega
                  rw [htwo, hcut [a, b] hpc, hsame ha (by omega), hsame hb (by omega)]
                  exact List.mem_cons_of_mem _ (List.mem_cons_of_mem _ List.mem_cons_self)
              · cases h
          · next htwo =>
              have hfour : opcode = opPushData4 := by
                rw [UInt8.le_iff_toNat_le] at hpush
                rw [UInt8.lt_iff_toNat_lt] at hshort
                rw [← UInt8.toNat_inj] at hone htwo ⊢
                have h1 : opPushData1.toNat = 76 := rfl
                have h2 : opPushData2.toNat = 77 := rfl
                have h4 : opPushData4.toNat = 78 := rfl
                omega
              split at h
              · next a b c d pc hpc =>
                  simp only [Option.some.injEq, Prod.mk.injEq] at h
                  rw [h.2] at hpc
                  have ha : a.toNat = 20 := by
                    have := a.toNat_lt
                    omega
                  have hb : b.toNat = 0 := by omega
                  have hc : c.toNat = 0 := by omega
                  have hd : d.toNat = 0 := by omega
                  rw [hfour, hcut [a, b, c, d] hpc, hsame ha (by omega), hsame hb (by omega),
                    hsame hc (by omega), hsame hd (by omega)]
                  exact List.mem_cons_of_mem _ (List.mem_cons_of_mem _
                    (List.mem_cons_of_mem _ List.mem_cons_self))
              · cases h

/-- The operations of a script that was read to its end. -/
theorem scriptOps_cons {script : CScript} {op : ScriptOp} {ops : List ScriptOp}
    (h : scriptOps script = (op :: ops, true)) :
    ∃ rest, getOp script = some (op, rest) ∧ scriptOps rest = (ops, true) := by
  cases hop : getOp script with
  | none =>
      cases script with
      | nil => cases h
      | cons a l =>
          have hstop : scriptOps (a :: l) = ([], false) := by
            show opsUpTo (l.length + 1) (a :: l) = _
            rw [opsUpTo, hop]
            rfl
          rw [hstop] at h
          cases h
  | some x =>
      obtain ⟨op', rest⟩ := x
      rw [scriptOps_of_getOp hop, Prod.mk.injEq, List.cons.injEq] at h
      obtain ⟨⟨rfl, hops⟩, htrue⟩ := h
      exact ⟨rest, rfl, Prod.ext hops htrue⟩

theorem eq_nil_of_scriptOps {script : CScript} (h : scriptOps script = ([], true)) :
    script = [] := by
  cases hop : getOp script with
  | none =>
      cases script with
      | nil => rfl
      | cons a l =>
          have hstop : scriptOps (a :: l) = ([], false) := by
            show opsUpTo (l.length + 1) (a :: l) = _
            rw [opsUpTo, hop]
            rfl
          rw [hstop] at h
          cases h
  | some x =>
      rw [scriptOps_of_getOp hop] at h
      cases h

/-- What an operation pushes stands in the script. -/
theorem infix_of_mem_scriptOps {script : CScript} {op : ScriptOp}
    (h : op ∈ (scriptOps script).1) : op.2 <:+: script := by
  induction hlen : script.length using Nat.strong_induction_on generalizing script with
  | _ n ih =>
      cases hop : getOp script with
      | none =>
          cases script with
          | nil => cases h
          | cons a l =>
              have hstop : scriptOps (a :: l) = ([], false) := by
                show opsUpTo (l.length + 1) (a :: l) = _
                rw [opsUpTo, hop]
                rfl
              rw [hstop] at h
              cases h
      | some x =>
          obtain ⟨op', rest⟩ := x
          obtain ⟨front, hsplit, -, -⟩ := getOp_split hop
          rw [scriptOps_of_getOp hop] at h
          rcases List.mem_cons.mp h with rfl | h
          · exact ⟨op.1 :: front, rest, by rw [hsplit]; simp⟩
          · obtain ⟨before, after, hinfix⟩ := ih rest.length (hlen ▸ length_getOp hop) h rfl
            refine ⟨op'.1 :: (front ++ (op'.2 ++ before)), after, ?_⟩
            rw [hsplit, ← hinfix]
            simp

/-! ## Scripts that pay the hash of a key -/

/-- The template of such scripts. -/
def pubKeyHashTemplate : List UInt8 := [opDup, opHash160, opPubKeyHash, opEqualVerify, opCheckSig]

/-- The operations of such a script. -/
def keyHashOps (opcode : UInt8) (keyID : List UInt8) : List ScriptOp :=
  [(opDup, []), (opHash160, []), (opcode, keyID), (opEqualVerify, []), (opCheckSig, [])]

/-- An opcode of a template that stands for itself. -/
theorem matchTemplate_self {opcode2 : UInt8} {template : List UInt8} {ops : List ScriptOp}
    {solutions : List (List UInt8)} (hkeys : opcode2 ≠ opPubKeys) (hkey : opcode2 ≠ opPubKey)
    (hhash : opcode2 ≠ opPubKeyHash) (hsmall : opcode2 ≠ opSmallInteger)
    (h : matchTemplate (opcode2 :: template) ops = some solutions) :
    ∃ rest, ops = (opcode2, []) :: rest ∧ matchTemplate template rest = some solutions := by
  rw [matchTemplate.eq_def] at h
  simp only [if_neg hkeys] at h
  cases ops with
  | nil => cases h
  | cons op rest =>
      dsimp only at h
      unfold matchOp at h
      rw [if_neg hkey, if_neg hhash, if_neg hsmall] at h
      split at h
      · next found more hfound hmore =>
          split at hfound
          · next hop =>
              obtain ⟨o, d⟩ := op
              obtain ⟨rfl, rfl⟩ := hop
              cases hfound
              rw [List.nil_append] at h
              exact ⟨rest, rfl, hmore.trans h⟩
          · cases hfound
      · cases h

/-- **THE TEMPLATE OF KEY HASHES** matches five operations, of which the third pushes twenty
    bytes. -/
theorem matchTemplate_pubKeyHash {ops : List ScriptOp} {solutions : List (List UInt8)}
    (h : matchTemplate pubKeyHashTemplate ops = some solutions) :
    ∃ opcode keyID, keyID.length = 20 ∧ ops = keyHashOps opcode keyID := by
  obtain ⟨ops1, rfl, h1⟩ := matchTemplate_self (by decide) (by decide) (by decide) (by decide) h
  obtain ⟨ops2, rfl, h2⟩ := matchTemplate_self (by decide) (by decide) (by decide) (by decide) h1
  rw [matchTemplate.eq_def] at h2
  simp only [if_neg (show opPubKeyHash ≠ opPubKeys by decide)] at h2
  cases ops2 with
  | nil => cases h2
  | cons op ops3 =>
      dsimp only at h2
      split at h2
      · next found more hfound hmore =>
          obtain ⟨ops4, rfl, h4⟩ :=
            matchTemplate_self (by decide) (by decide) (by decide) (by decide) hmore
          obtain ⟨ops5, rfl, h5⟩ :=
            matchTemplate_self (by decide) (by decide) (by decide) (by decide) h4
          have hend : ops5 = [] := by
            cases ops5 with
            | nil => rfl
            | cons op5 ops6 => cases h5
          subst hend
          unfold matchOp at hfound
          rw [if_neg (by decide), if_pos rfl] at hfound
          split at hfound
          · next hlen => exact ⟨op.1, op.2, hlen, rfl⟩
          · cases hfound
      · cases h2

/-- An opcode that pushes nothing is one byte. -/
theorem getOp_opcode_eq {script rest : CScript} {op : ScriptOp} (hno : ¬ op.1 ≤ opPushData4)
    (h : getOp script = some (op, rest)) : script = op.1 :: rest := by
  obtain ⟨front, hsplit, -, hnone⟩ := getOp_split h
  rw [hsplit, (hnone hno).1, (hnone hno).2]
  rfl

/-- Operations that pay the hash of a key come from a script that spells the push in one of the four
    forms. -/
theorem keyHashScript_of_ops {script : CScript} {opcode : UInt8} {keyID : List UInt8}
    (hlen : keyID.length = 20) (h : scriptOps script = (keyHashOps opcode keyID, true)) :
    ∃ push ∈ shortPush :: longPushes, script = keyHashScript push keyID := by
  obtain ⟨r1, hop1, h1⟩ := scriptOps_cons h
  obtain ⟨r2, hop2, h2⟩ := scriptOps_cons h1
  obtain ⟨r3, hop3, h3⟩ := scriptOps_cons h2
  obtain ⟨r4, hop4, h4⟩ := scriptOps_cons h3
  obtain ⟨r5, hop5, h5⟩ := scriptOps_cons h4
  have hs1 := getOp_opcode_eq (by decide) hop1
  have hs2 := getOp_opcode_eq (by decide) hop2
  have hs4 := getOp_opcode_eq (by decide) hop4
  have hs5 := getOp_opcode_eq (by decide) hop5
  obtain ⟨front, hs3, hsize, hnone⟩ := getOp_split hop3
  have hpush : opcode ≤ opPushData4 := by
    by_contra hno
    have hnil : keyID = [] := (hnone hno).2
    rw [hnil] at hlen
    cases hlen
  have hread := hsize hpush
  dsimp only at hread hs1 hs2 hs3 hs4 hs5
  rw [hlen] at hread
  refine ⟨opcode :: front, push_twenty hpush hread, ?_⟩
  rw [hs1, hs2, hs3, hs4, hs5, eq_nil_of_scriptOps h5, keyHashScript]
  simp

/-- Every form of the push is read as one. -/
theorem getOp_push_twenty {push keyID : List UInt8} (hlen : keyID.length = 20)
    (hpush : push ∈ shortPush :: longPushes) (rest : CScript) :
    ∃ opcode, getOp (push ++ keyID ++ rest) = some ((opcode, keyID), rest) := by
  have hread : ∀ opcode front, opcode ≤ opPushData4 →
      readPushSize opcode (front ++ (keyID ++ rest)) = some (20, keyID ++ rest) →
      getOp (opcode :: front ++ keyID ++ rest) = some ((opcode, keyID), rest) := by
    intro opcode front hle hsize
    have hfits : ¬ (keyID ++ rest).length < 20 := by
      rw [List.length_append]
      omega
    rw [List.cons_append, List.cons_append, List.append_assoc, getOp, if_pos hle, hsize]
    simp only [if_neg hfits]
    rw [← hlen, List.take_left, List.drop_left]
  simp only [shortPush, longPushes, List.mem_cons, List.not_mem_nil, or_false] at hpush
  rcases hpush with rfl | rfl | rfl | rfl
  · exact ⟨20, hread 20 [] (by decide) rfl⟩
  · exact ⟨opPushData1, hread opPushData1 [20] (by decide) rfl⟩
  · exact ⟨opPushData2, hread opPushData2 [20, 0] (by decide) rfl⟩
  · exact ⟨opPushData4, hread opPushData4 [20, 0, 0, 0] (by decide) rfl⟩

section KeyHash

variable {push keyID : List UInt8} (hlen : keyID.length = 20)
  (hpush : push ∈ shortPush :: longPushes)
include hlen hpush

theorem scriptOps_keyHashScript :
    ∃ opcode, scriptOps (keyHashScript push keyID) = (keyHashOps opcode keyID, true) := by
  obtain ⟨opcode, hop⟩ := getOp_push_twenty hlen hpush [opEqualVerify, opCheckSig]
  have htail : scriptOps [opEqualVerify, opCheckSig] =
      ([(opEqualVerify, []), (opCheckSig, [])], true) := by
    rw [scriptOps_of_getOp (getOp_opcode (by decide) [opCheckSig]),
      scriptOps_of_getOp (getOp_opcode (by decide) [])]
    rfl
  have hsplit : keyHashScript push keyID =
      opDup :: opHash160 :: (push ++ keyID ++ [opEqualVerify, opCheckSig]) := rfl
  refine ⟨opcode, ?_⟩
  rw [hsplit, scriptOps_of_getOp (getOp_opcode (by decide) _),
    scriptOps_of_getOp (getOp_opcode (by decide) _), scriptOps_of_getOp hop, htail]
  rfl

/-- **BOTH SOLVERS KNOW ALL FOUR FORMS** as outputs to the hash of a key. -/
theorem solvers_keyHashScript :
    safeSolver (keyHashScript push keyID) = some (.pubKeyHash, [keyID]) ∧
      solver (keyHashScript push keyID) = some (.pubKeyHash, [keyID]) := by
  obtain ⟨opcode, hops⟩ := scriptOps_keyHashScript hlen hpush
  have hpubKey : matchTemplate [opPubKey, opCheckSig] (keyHashOps opcode keyID) = none :=
    matchTemplate_none (by decide) rfl
  have htemplate : matchTemplate pubKeyHashTemplate (keyHashOps opcode keyID) = some [keyID] := by
    have hhash : matchOp opPubKeyHash (opcode, keyID) = some [keyID] := by
      unfold matchOp
      rw [if_neg (by decide), if_pos rfl]
      exact if_pos hlen
    have hend : matchTemplate [opEqualVerify, opCheckSig] [(opEqualVerify, []), (opCheckSig, [])] =
        some [] := rfl
    have hthird := matchTemplate_op (show opPubKeyHash ≠ opPubKeys by decide) hhash hend
    have hsecond := matchTemplate_op (show opHash160 ≠ opPubKeys by decide)
      (show matchOp opHash160 (opHash160, []) = some [] from rfl) hthird
    exact matchTemplate_op (show opDup ≠ opPubKeys by decide)
      (show matchOp opDup (opDup, []) = some [] from rfl) hsecond
  have hscan : ∀ more : List (TxOutType × List UInt8),
      scanTemplates (commonTemplates ++ more) (keyHashScript push keyID) =
        some (.pubKeyHash, [keyID]) := by
    intro more
    unfold pubKeyHashTemplate at htemplate
    unfold scanTemplates commonTemplates
    simp only [hops, if_true, List.cons_append, List.findSome?_cons, hpubKey, htemplate,
      Option.map_none, Option.map_some]
  have hscript : isPayToScriptHash (keyHashScript push keyID) = false := by
    have hhead : ((keyHashScript push keyID)[0]? == some opHash160) = false := rfl
    simp [isPayToScriptHash, hhead]
  have hreturn : ∀ p q : Prop, ¬ (p ∧ opDup = opReturn ∧ q) := fun p q h =>
    absurd h.2.1 (by decide)
  constructor
  · unfold safeSolver
    rw [hscript, if_neg Bool.false_ne_true]
    exact (if_neg (hreturn _ _)).trans (hscan _)
  · have hwitness : isWitnessProgram (keyHashScript push keyID) = none := by
      have hsmall : isSmallInteger opDup = false := by decide
      refine if_neg fun h => ?_
      rw [hsmall] at h
      exact Bool.false_ne_true h.2.2.1
    have hscan' := hscan []
    rw [List.append_nil] at hscan'
    unfold solver
    rw [hscript, hwitness, if_neg Bool.false_ne_true]
    exact (if_neg fun h => absurd h.1 (by decide)).trans hscan'

end KeyHash

/-- A type that the templates decide is that of a template the script was read to its end for. -/
theorem scanTemplates_found {templates : List (TxOutType × List UInt8)} {script : CScript}
    {outType : TxOutType} {solutions : List (List UInt8)}
    (h : scanTemplates templates script = some (outType, solutions)) :
    ∃ t ∈ templates, t.1 = outType ∧ (scriptOps script).2 = true ∧
      matchTemplate t.2 (scriptOps script).1 = some solutions := by
  unfold scanTemplates at h
  dsimp only at h
  have hfound : templates.findSome? (fun t =>
      if (scriptOps script).2 = true then
        (matchTemplate t.2 (scriptOps script).1).map fun solutions => (t.1, solutions)
      else none) = some (outType, solutions) := by
    split at h
    · next hmulti =>
        split at h
        · rw [hmulti, h]
        · cases h
    · exact h
  obtain ⟨t, ht, hmatch⟩ := List.exists_of_findSome?_eq_some hfound
  split at hmatch
  · next hend =>
      obtain ⟨found, htemplate, heq⟩ := Option.map_eq_some_iff.mp hmatch
      rw [Prod.mk.injEq] at heq
      exact ⟨t, ht, heq.1, hend, htemplate.trans (congrArg some heq.2)⟩
  · cases hmatch

/-- What `SafeSolver` says of a script comes from its bytes for script hashes and data, and from the
    templates for everything else. -/
theorem safeSolver_cases {script : CScript} {outType : TxOutType} {solutions : List (List UInt8)}
    (h : safeSolver script = some (outType, solutions)) :
    (isPayToScriptHash script = true ∧ outType = .scriptHash) ∨ outType = .nullData ∨
      scanTemplates (commonTemplates ++ [(.nullData, [opReturn])]) script =
        some (outType, solutions) := by
  unfold safeSolver at h
  split at h
  · next hscript =>
      cases h
      exact Or.inl ⟨hscript, rfl⟩
  · split at h
    · split at h
      · cases h
        exact Or.inr (Or.inl rfl)
      · exact Or.inr (Or.inr h)
    · exact Or.inr (Or.inr h)

/-- **OUTPUTS TO THE HASH OF A KEY** are the scripts in one of the four forms. -/
theorem getOutputType_pubKeyHash_iff {script : CScript} :
    getOutputType script = some .pubKeyHash ↔
      ∃ keyID : List UInt8, keyID.length = 20 ∧
        ∃ push ∈ shortPush :: longPushes, script = keyHashScript push keyID := by
  constructor
  · intro h
    obtain ⟨⟨outType, solutions⟩, hsolved, rfl⟩ := Option.map_eq_some_iff.mp h
    rcases safeSolver_cases hsolved with ⟨-, htype⟩ | htype | hscan
    · cases htype
    · cases htype
    · obtain ⟨t, ht, htype, hend, htemplate⟩ := scanTemplates_found hscan
      have hall : ∀ t ∈ commonTemplates ++ [(TxOutType.nullData, [opReturn])],
          t.1 = .pubKeyHash → t.2 = pubKeyHashTemplate := by decide
      rw [hall t ht htype] at htemplate
      obtain ⟨opcode, keyID, hlen, hops⟩ := matchTemplate_pubKeyHash htemplate
      exact ⟨keyID, hlen, keyHashScript_of_ops hlen (Prod.ext hops hend)⟩
  · rintro ⟨keyID, hlen, push, hpush, rfl⟩
    rw [getOutputType, (solvers_keyHashScript hlen hpush).1]
    rfl

/-- Outputs to the hash of a script are told by their bytes. -/
theorem isPayToScriptHash_of_getOutputType {script : CScript}
    (h : getOutputType script = some .scriptHash) : isPayToScriptHash script = true := by
  obtain ⟨⟨outType, solutions⟩, hsolved, rfl⟩ := Option.map_eq_some_iff.mp h
  rcases safeSolver_cases hsolved with ⟨hscript, -⟩ | htype | hscan
  · exact hscript
  · cases htype
  · obtain ⟨t, ht, htype, -, -⟩ := scanTemplates_found hscan
    have hall : ∀ t ∈ commonTemplates ++ [(TxOutType.nullData, [opReturn])],
        t.1 ≠ .scriptHash := by decide
    exact absurd htype (hall t ht)

/-- The wallet knows the address behind outputs of the two types that inputs may have. -/
theorem extractDestination_of_hash (hash160 : List UInt8 → List UInt8) {script : CScript}
    (h : getOutputType script = some .pubKeyHash ∨ getOutputType script = some .scriptHash) :
    ∃ source, extractDestination hash160 script = some source := by
  rcases h with h | h
  · obtain ⟨keyID, hlen, push, hpush, rfl⟩ := getOutputType_pubKeyHash_iff.mp h
    unfold extractDestination
    rw [(solvers_keyHashScript hlen hpush).2]
    exact ⟨_, rfl⟩
  · unfold extractDestination solver
    rw [isPayToScriptHash_of_getOutputType h, if_pos rfl]
    exact ⟨_, rfl⟩

/-! ## Outputs that count -/

/-- **OUTPUTS THAT PAY AN ADDRESS** spell the push of its hash in one of the four forms. -/
theorem paysKeyHash_iff {params : OutputBlocks} {hash160 : List UInt8 → List UInt8} {nBlock : Nat}
    {address : List UInt8} {script : CScript} :
    paysKeyHash params hash160 nBlock (.keyID address) script = true ↔
      params.pubKeyHashBlock ≤ nBlock ∧ address.length = 20 ∧
        ∃ push ∈ shortPush :: longPushes, script = keyHashScript push address := by
  have hdest : ∀ {push keyID : List UInt8}, keyID.length = 20 → push ∈ shortPush :: longPushes →
      extractDestination hash160 (keyHashScript push keyID) = some (.keyID keyID) := by
    intro push keyID hlen hpush
    unfold extractDestination
    rw [(solvers_keyHashScript hlen hpush).2]
  have htype : outputType params nBlock script = some .pubKeyHash ↔
      params.pubKeyHashBlock ≤ nBlock ∧ getOutputType script = some .pubKeyHash := by
    unfold outputType
    cases hget : getOutputType script with
    | none => simp
    | some outType =>
        dsimp only
        constructor
        · intro h
          split at h
          · next hallowed =>
              cases h
              exact ⟨of_decide_eq_true hallowed, rfl⟩
          · cases h
        · rintro ⟨hblock, h⟩
          cases h
          exact if_pos (decide_eq_true hblock)
  unfold paysKeyHash
  rw [Bool.and_eq_true, beq_iff_eq, beq_iff_eq, htype, getOutputType_pubKeyHash_iff]
  constructor
  · rintro ⟨⟨hblock, keyID, hlen, push, hpush, rfl⟩, hextract⟩
    rw [hdest hlen hpush, Option.some.injEq, CTxDestination.keyID.injEq] at hextract
    subst hextract
    exact ⟨hblock, hlen, push, hpush, rfl⟩
  · rintro ⟨hblock, hlen, push, hpush, rfl⟩
    exact ⟨⟨hblock, address, hlen, push, hpush, rfl⟩, hdest hlen hpush⟩

/-- **MARKED OUTPUTS ARE FOUND**: the marker is in the script byte by byte, however it is pushed. -/
theorem foundFast_of_isMarkedOutput {params : OutputBlocks} {nBlock : Nat} {script : CScript}
    (hlive : 395000 ≤ params.nullDataBlock) (h : isMarkedOutput params nBlock script = true) :
    FoundFast nBlock script := by
  unfold isMarkedOutput at h
  rw [Bool.and_eq_true, beq_iff_eq] at h
  obtain ⟨htype, htagged⟩ := h
  have hblock : params.nullDataBlock ≤ nBlock := by
    unfold outputType at htype
    split at htype
    · next outType _ =>
        split at htype
        · next hallowed =>
            cases htype
            exact of_decide_eq_true hallowed
        · cases htype
    · cases htype
  refine Or.inr ⟨le_trans hlive hblock, ?_⟩
  unfold taggedPushes getScriptPushes at htagged
  dsimp only at htagged
  split at htagged
  · next first rest hpushes =>
      split at htagged
      · next hprefix =>
          rw [Prod.mk.injEq, if_neg Bool.false_ne_true] at hpushes
          -- the first push is the data of some operation
          have hmem : first ∈ ((scriptOps script).1.filter
              fun op => decide (op.1 ≤ opPushData4)).map fun op => hexStr op.2 := by
            rw [hpushes.2]
            exact List.mem_cons_self
          obtain ⟨op, hop, rfl⟩ := List.mem_map.mp hmem
          obtain ⟨before, after, hinfix⟩ := infix_of_mem_scriptOps (List.mem_filter.mp hop).1
          rw [parseHexText_hexStr, List.isPrefixOf_iff_prefix] at hprefix
          obtain ⟨payload, hdata⟩ := hprefix
          have hmarker : hexStr getOmMarker = strClassC := by decide
          rw [← hinfix, ← hdata, List.append_assoc, List.append_assoc, hexStr_append, hexStr_append,
            hmarker]
          exact strFind_append _ _ _
      · cases htagged
  · cases htagged

/-- On the main network there is one Exodus address, whatever the block. -/
theorem exodusCrowdsaleAddress_main (nBlock : Nat) :
    Network.main.exodusCrowdsaleAddress nBlock = Network.main.exodusAddress := by
  unfold Network.exodusCrowdsaleAddress
  rw [if_neg fun h => Bool.false_ne_true h.2, if_neg fun h => absurd h.2 (by decide)]

/-- **WHAT THE EXAMINATION DROPS**: transactions without a marked output and without an output that
    pays Exodus. -/
theorem examineOutputs_noMarker_iff {params : OutputBlocks} {hash160 : List UInt8 → List UInt8}
    {vout : List CScript} {nBlock : Nat} :
    examineOutputs .main params hash160 vout nBlock = .noMarker ↔
      (∀ script ∈ vout, isMarkedOutput params nBlock script = false) ∧
        ∀ script ∈ vout,
          paysKeyHash params hash160 nBlock (.keyID exodusMainnet) script = false := by
  have hany : ∀ p : CScript → Bool, vout.any p = false ↔ ∀ script ∈ vout, p script = false := by
    intro p
    rw [List.any_eq_false]
    exact forall₂_congr fun script _ => Bool.eq_false_iff.symm
  unfold examineOutputs
  rw [exodusCrowdsaleAddress_main, ← hany, ← hany]
  show (if vout.any (isMarkedOutput params nBlock) = true then EncodingClass.classC else _) = _ ↔ _
  have haddress : Network.main.exodusAddress = .keyID exodusMainnet := rfl
  rw [haddress]
  cases vout.any (isMarkedOutput params nBlock) with
  | true => simp
  | false =>
      cases vout.any (paysKeyHash params hash160 nBlock (.keyID exodusMainnet)) with
      | false => simp
      | true =>
          cases vout.any fun script => outputType params nBlock script == some .multisig with
          | true => simp
          | false => simp

/-! ## Agreement -/

/-- **WHEN THE QUICK SEARCH AGREES** with the examination of every output: it finds something, or no
    output pays the Exodus address with a longer push than necessary. -/
theorem quickSearch_agrees_iff (params : OutputBlocks) (hash160 : List UInt8 → List UInt8)
    (vout : List CScript) (nBlock : Nat) (hlive : 395000 ≤ params.nullDataBlock) :
    getEncodingClass .main params hash160 vout nBlock =
        examineOutputs .main params hash160 vout nBlock ↔
      (∃ script ∈ vout, FoundFast nBlock script) ∨
        ∀ script ∈ vout, ¬ PaysExodusLong params nBlock script := by
  have hlength : exodusMainnet.length = 20 := by decide +kernel
  rw [getEncodingClass_eq]
  cases hfast : fastSearch vout nBlock with
  | true => exact iff_of_true rfl (Or.inl (fastSearch_iff.mp hfast))
  | false =>
      have hnone : ¬ ∃ script ∈ vout, FoundFast nBlock script := by
        rw [← fastSearch_iff, hfast]
        exact Bool.false_ne_true
      show EncodingClass.noMarker = _ ↔ _
      rw [or_iff_right hnone, eq_comm, examineOutputs_noMarker_iff]
      constructor
      · rintro ⟨-, hpays⟩ script hscript ⟨hblock, push, hpush, heq⟩
        have hyes := (@paysKeyHash_iff _ hash160 _ _ _).mpr
          ⟨hblock, hlength, push, List.mem_cons_of_mem _ hpush, heq⟩
        rw [hpays script hscript] at hyes
        cases hyes
      · intro hlong
        constructor
        · intro script hscript
          by_contra hmarked
          rw [Bool.not_eq_false] at hmarked
          exact hnone ⟨script, hscript, foundFast_of_isMarkedOutput hlive hmarked⟩
        · intro script hscript
          by_contra hpays
          rw [Bool.not_eq_false] at hpays
          obtain ⟨hblock, -, push, hpush, heq⟩ := paysKeyHash_iff.mp hpays
          rcases List.mem_cons.mp hpush with rfl | hpush
          · exact hnone ⟨script, hscript, Or.inl heq⟩
          · exact hlong script hscript ⟨hblock, push, hpush, heq⟩

/-- A transaction that pays Exodus with a short push is found, so both give it class A. -/
theorem quickSearch_agrees_short :
    FoundFast 0 (keyHashScript shortPush exodusMainnet) ∧
      examineOutputs .main (mainOutputBlocks 395000) id
        [keyHashScript shortPush exodusMainnet] 0 = .classA ∧
      getEncodingClass .main (mainOutputBlocks 395000) id
        [keyHashScript shortPush exodusMainnet] 0 = .classA := by
  have hfound : FoundFast 0 (keyHashScript shortPush exodusMainnet) := Or.inl rfl
  have hslow : examineOutputs .main (mainOutputBlocks 395000) id
      [keyHashScript shortPush exodusMainnet] 0 = .classA := by decide +kernel
  refine ⟨hfound, hslow, ?_⟩
  rw [(quickSearch_agrees_iff (mainOutputBlocks 395000) id
    [keyHashScript shortPush exodusMainnet] 0 le_rfl).mpr
      (Or.inl ⟨_, List.mem_singleton_self _, hfound⟩)]
  exact hslow

/-- **A LONGER PUSH IS OVERLOOKED**: class A to the examination, nothing to the quick search. -/
theorem longPush_dropped :
    ¬ ∀ (params : OutputBlocks) (hash160 : List UInt8 → List UInt8) (vout : List CScript)
      (nBlock : Nat), 395000 ≤ params.nullDataBlock →
        getEncodingClass .main params hash160 vout nBlock =
          examineOutputs .main params hash160 vout nBlock := by
  intro hall
  have hsame := hall (mainOutputBlocks 395000) id
    [keyHashScript [opPushData1, 20] exodusMainnet] 400000 le_rfl
  have hfast : getEncodingClass .main (mainOutputBlocks 395000) id
      [keyHashScript [opPushData1, 20] exodusMainnet] 400000 = .noMarker := by decide +kernel
  have hslow : examineOutputs .main (mainOutputBlocks 395000) id
      [keyHashScript [opPushData1, 20] exodusMainnet] 400000 = .classA := by decide +kernel
  rw [hfast, hslow] at hsame
  cases hsame

end OmniCore
