import OmniCore.Base58
import OmniCore.Lib.Bytes

/-! # Script — output scripts, their pushes and their types

    Scripts are byte strings. `GetOp` reads one operation: an opcode, with the data behind
    it if it is a push. The two solvers compare the operations of a script with a handful
    of templates; `SafeSolver` differs from the one of the wallet in taking data outputs of
    any size and not knowing witness programs. -/

namespace OmniCore

open TextRec Bytes

/-- `CScript`. -/
abbrev CScript := List UInt8

/-! ## Opcodes -/

def opPushData1 : UInt8 := 0x4c
def opPushData2 : UInt8 := 0x4d
def opPushData4 : UInt8 := 0x4e
def op1 : UInt8 := 0x51
def op16 : UInt8 := 0x60
def opReturn : UInt8 := 0x6a
def opDup : UInt8 := 0x76
def opEqual : UInt8 := 0x87
def opEqualVerify : UInt8 := 0x88
def opHash160 : UInt8 := 0xa9
def opCheckSig : UInt8 := 0xac
def opCheckMultisig : UInt8 := 0xae

/-- Template opcodes. -/
def opSmallInteger : UInt8 := 0xfa
def opPubKeys : UInt8 := 0xfb
def opPubKeyHash : UInt8 := 0xfd
def opPubKey : UInt8 := 0xfe

/-! ## Building scripts -/

/-- `WriteLE16`. -/
def writeLE16 (n : Nat) : List UInt8 := [UInt8.ofNat n, UInt8.ofNat (n / 256)]

/-- `WriteLE32`. -/
def writeLE32 (n : Nat) : List UInt8 :=
  [UInt8.ofNat n, UInt8.ofNat (n / 256), UInt8.ofNat (n / 65536), UInt8.ofNat (n / 16777216)]

/-- What `operator<<` puts in front of data: the size, in one of four forms. -/
def pushPrefix (size : Nat) : List UInt8 :=
  if size < opPushData1.toNat then [UInt8.ofNat size]
  else if size ≤ 0xff then [opPushData1, UInt8.ofNat size]
  else if size ≤ 0xffff then opPushData2 :: writeLE16 size
  else opPushData4 :: writeLE32 size

/-- `operator<<` for data. -/
def pushData (b : List UInt8) : CScript := pushPrefix b.length ++ b

/-- `EncodeOP_N`, for the numbers it asserts. -/
def encodeOpN (n : Nat) : UInt8 := if n = 0 then 0 else op1 + UInt8.ofNat (n - 1)

/-- `GetScriptForMultisig`. -/
def getScriptForMultisig (nRequired : Nat) (keys : List (List UInt8)) : CScript :=
  encodeOpN nRequired :: (keys.flatMap pushData ++ [encodeOpN keys.length, opCheckMultisig])

/-- `GetScriptForDestination`, for the hash of a key. -/
def getScriptForKeyID (keyID : List UInt8) : CScript :=
  [opDup, opHash160] ++ pushData keyID ++ [opEqualVerify, opCheckSig]

/-! ## Reading scripts -/

/-- One operation: the opcode and the data it pushes. -/
abbrev ScriptOp := UInt8 × List UInt8

/-- The size of the data behind a push opcode, and what follows the size. -/
def readPushSize (opcode : UInt8) (pc : CScript) : Option (Nat × CScript) :=
  if opcode < opPushData1 then some (opcode.toNat, pc)
  else if opcode = opPushData1 then
    match pc with
    | a :: pc => some (a.toNat, pc)
    | _ => none
  else if opcode = opPushData2 then
    match pc with
    | a :: b :: pc => some (a.toNat + 256 * b.toNat, pc)
    | _ => none
  else
    match pc with
    | a :: b :: c :: d :: pc =>
        some (a.toNat + 256 * b.toNat + 65536 * c.toNat + 16777216 * d.toNat, pc)
    | _ => none

/-- `GetOp`: the next operation and the rest of the script. -/
def getOp : CScript → Option (ScriptOp × CScript)
  | [] => none
  | opcode :: pc =>
      if opcode ≤ opPushData4 then
        match readPushSize opcode pc with
        | some (nSize, pc) =>
            if pc.length < nSize then none else some ((opcode, pc.take nSize), pc.drop nSize)
        | none => none
      else some ((opcode, []), pc)

/-- The operations of a script up to the first that cannot be read, and whether the end was reached;
    at most `fuel` of them. -/
def opsUpTo : Nat → CScript → List ScriptOp × Bool
  | 0, script => ([], script.isEmpty)
  | fuel + 1, script =>
      if script.isEmpty then ([], true)
      else
        match getOp script with
        | some (op, rest) => (op :: (opsUpTo fuel rest).1, (opsUpTo fuel rest).2)
        | none => ([], false)

/-- All operations of a script: each takes a byte at least. -/
def scriptOps (script : CScript) : List ScriptOp × Bool := opsUpTo script.length script

/-- Blanks of hexadecimal text. -/
def parseHexText (t : Text) : List UInt8 := parseHex isSpace t

/-- `GetScriptPushes`: whether the script could be read to its end, and the data of its push
    operations, as hexadecimal text. -/
def getScriptPushes (script : CScript) (fSkipFirst : Bool) : Bool × List Text :=
  let ops := scriptOps script
  let pushes := ops.1.filter fun op => decide (op.1 ≤ opPushData4)
  (ops.2, ((if fSkipFirst then pushes.tail else pushes).map fun op => hexStr op.2))

/-- `IsPushOnly`. -/
def isPushOnly (script : CScript) : Bool :=
  let ops := scriptOps script
  ops.2 && ops.1.all fun op => decide (op.1 ≤ op16)

/-! ## Solvers -/

/-- `txnouttype`. -/
inductive TxOutType
  | nonstandard
  | pubKey
  | pubKeyHash
  | scriptHash
  | multisig
  | nullData
  | witnessV0KeyHash
  | witnessV0ScriptHash
  deriving DecidableEq, Repr

/-- A small integer opcode. -/
def isSmallInteger (opcode : UInt8) : Bool :=
  opcode == 0 || (decide (op1 ≤ opcode) && decide (opcode ≤ op16))

/-- `DecodeOP_N`. -/
def decodeOpN (opcode : UInt8) : UInt8 := if opcode = 0 then 0 else opcode - (op1 - 1)

/-- The size of a public key, as the templates check it. -/
def isKeySized (op : ScriptOp) : Bool := decide (33 ≤ op.2.length) && decide (op.2.length ≤ 65)

/-- One operation against one template opcode: the solutions it adds. -/
def matchOp (opcode2 : UInt8) (op : ScriptOp) : Option (List (List UInt8)) :=
  if opcode2 = opPubKey then
    if isKeySized op then some [op.2] else none
  else if opcode2 = opPubKeyHash then
    if op.2.length = 20 then some [op.2] else none
  else if opcode2 = opSmallInteger then
    if isSmallInteger op.1 then some [[decodeOpN op.1]] else none
  else if op.1 = opcode2 ∧ op.2 = [] then some []
  else none

/-- The operations of a script against a template. `OP_PUBKEYS` takes all keys there are, and the
    operation behind them is compared with the next template opcode. -/
def matchTemplate : List UInt8 → List ScriptOp → Option (List (List UInt8))
  | [], [] => some []
  | [], _ :: _ => none
  | opcode2 :: template, ops =>
      if opcode2 = opPubKeys then
        match template, ops.dropWhile isKeySized with
        | opcode2 :: template, op :: rest =>
            match matchOp opcode2 op, matchTemplate template rest with
            | some found, some more =>
                some ((ops.takeWhile isKeySized).map Prod.snd ++ found ++ more)
            | _, _ => none
        | _, _ => none
      else
        match ops with
        | op :: rest =>
            match matchOp opcode2 op, matchTemplate template rest with
            | some found, some more => some (found ++ more)
            | _, _ => none
        | [] => none

/-- The checks of a script that matched the multisig template: `m` of `n` keys. -/
def multisigChecked (solutions : List (List UInt8)) : Bool :=
  match solutions.head?.bind List.head?, solutions.getLast?.bind List.head? with
  | some m, some n =>
      decide (1 ≤ m) && decide (1 ≤ n) && decide (m ≤ n) &&
        decide (solutions.length - 2 = n.toNat)
  | _, _ => false

/-- The first template that matches decides. -/
def scanTemplates (templates : List (TxOutType × List UInt8)) (script : CScript) :
    Option (TxOutType × List (List UInt8)) :=
  let ops := scriptOps script
  let found : Option (TxOutType × List (List UInt8)) := templates.findSome? fun t =>
    if ops.2 then (matchTemplate t.2 ops.1).map fun solutions => (t.1, solutions) else none
  match found with
  | some (.multisig, solutions) =>
      if multisigChecked solutions then some (.multisig, solutions) else none
  | found => found

/-- The templates both solvers know. -/
def commonTemplates : List (TxOutType × List UInt8) :=
  [(.pubKey, [opPubKey, opCheckSig]),
   (.pubKeyHash, [opDup, opHash160, opPubKeyHash, opEqualVerify, opCheckSig]),
   (.multisig, [opSmallInteger, opPubKeys, opSmallInteger, opCheckMultisig])]

/-- `IsPayToScriptHash`. -/
def isPayToScriptHash (script : CScript) : Bool :=
  script.length == 23 && script[0]? == some opHash160 && script[1]? == some 0x14 &&
    script[22]? == some opEqual

/-- The 20 bytes of a script hash. -/
def scriptHashBytes (script : CScript) : List UInt8 := (script.drop 2).take 20

/-- `SafeSolver`: the type of a standard script and its solutions. -/
def safeSolver (script : CScript) : Option (TxOutType × List (List UInt8)) :=
  if isPayToScriptHash script then some (.scriptHash, [scriptHashBytes script])
  else
    match script with
    | opcode :: rest =>
        if rest ≠ [] ∧ opcode = opReturn ∧ isPushOnly rest = true then some (.nullData, [])
        else scanTemplates (commonTemplates ++ [(.nullData, [opReturn])]) script
    | [] => scanTemplates (commonTemplates ++ [(.nullData, [opReturn])]) script

/-- `IsWitnessProgram`: version and program. -/
def isWitnessProgram (script : CScript) : Option (UInt8 × List UInt8) :=
  match script with
  | version :: size :: program =>
      if 4 ≤ script.length ∧ script.length ≤ 42 ∧ isSmallInteger version = true ∧
          size.toNat + 2 = script.length then
        some (decodeOpN version, program)
      else none
  | _ => none

/-- `Solver`, the one of the wallet. -/
def solver (script : CScript) : Option (TxOutType × List (List UInt8)) :=
  if isPayToScriptHash script then some (.scriptHash, [scriptHashBytes script])
  else
    match isWitnessProgram script with
    | some (version, program) =>
        if version = 0 ∧ program.length = 20 then some (.witnessV0KeyHash, [program])
        else if version = 0 ∧ program.length = 32 then some (.witnessV0ScriptHash, [program])
        else none
    | none =>
        match script with
        | opcode :: rest =>
            if opcode = opReturn ∧ isPushOnly rest = true then some (.nullData, [])
            else scanTemplates commonTemplates script
        | [] => scanTemplates commonTemplates script

/-- `GetOutputType`. -/
def getOutputType (script : CScript) : Option TxOutType := (safeSolver script).map Prod.fst

/-! ## Keys and destinations -/

/-- `CPubKey::GetLen`. -/
def pubKeyLen (chHeader : UInt8) : Nat :=
  if chHeader = 2 ∨ chHeader = 3 then 33
  else if chHeader = 4 ∨ chHeader = 6 ∨ chHeader = 7 then 65
  else 0

/-- `CPubKey::IsValid`, for a key constructed from bytes. -/
def isValidPubKey (vch : List UInt8) : Bool :=
  match vch with
  | chHeader :: _ => decide (pubKeyLen chHeader ≠ 0) && decide (vch.length = pubKeyLen chHeader)
  | [] => false

/-- A valid `CPubKey`. -/
structure CPubKey where
  vch : List UInt8
  valid : isValidPubKey vch = true

/-- `CTxDestination`. -/
inductive CTxDestination
  | keyID (hash : List UInt8)
  | scriptID (hash : List UInt8)
  deriving DecidableEq, Repr

/-- `ExtractDestination`; `hash160` gives the identifier of a public key. -/
def extractDestination (hash160 : List UInt8 → List UInt8) (script : CScript) :
    Option CTxDestination :=
  match solver script with
  | some (.pubKey, key :: _) => if isValidPubKey key then some (.keyID (hash160 key)) else none
  | some (.pubKeyHash, hash :: _) => some (.keyID hash)
  | some (.scriptHash, hash :: _) => some (.scriptID hash)
  | _ => none

/-- The scripts for which `ExtractDestinations` returns the multisig type: at least one of the keys
    is valid. -/
def isMultisigOutput (script : CScript) : Bool :=
  match solver script with
  | some (.multisig, solutions) => (solutions.tail.dropLast).any isValidPubKey
  | _ => false

/-! ## What is pushed is read -/

theorem toNat_ofNat_of_lt {n : Nat} (h : n < 256) : (UInt8.ofNat n).toNat = n :=
  UInt8.toNat_ofNat_of_lt h

theorem readPushSize_short {opcode : UInt8} (h : opcode < opPushData1) (pc : CScript) :
    readPushSize opcode pc = some (opcode.toNat, pc) := by
  unfold readPushSize
  rw [if_pos h]

theorem readPushSize_one (a : UInt8) (pc : CScript) :
    readPushSize opPushData1 (a :: pc) = some (a.toNat, pc) := rfl

theorem readPushSize_two (a b : UInt8) (pc : CScript) :
    readPushSize opPushData2 (a :: b :: pc) = some (a.toNat + 256 * b.toNat, pc) := rfl

theorem readPushSize_four (a b c d : UInt8) (pc : CScript) :
    readPushSize opPushData4 (a :: b :: c :: d :: pc) =
      some (a.toNat + 256 * b.toNat + 65536 * c.toNat + 16777216 * d.toNat, pc) := rfl

/-- **A PUSH READS BACK**, whatever form its size takes. -/
theorem getOp_pushData {b : List UInt8} (h : b.length < 2 ^ 32) (rest : CScript) :
    ∃ opcode, opcode ≤ opPushData4 ∧ getOp (pushData b ++ rest) = some ((opcode, b), rest) := by
  have hread : ∀ opcode pc, opcode ≤ opPushData4 →
      readPushSize opcode (pc ++ (b ++ rest)) = some (b.length, b ++ rest) →
      pushPrefix b.length = opcode :: pc →
      ∃ opcode, opcode ≤ opPushData4 ∧ getOp (pushData b ++ rest) = some ((opcode, b), rest) := by
    intro opcode pc hle hsize hpre
    refine ⟨opcode, hle, ?_⟩
    have hlen : ¬ (b ++ rest).length < b.length := by
      rw [List.length_append]
      omega
    rw [pushData, hpre, List.cons_append, List.cons_append, List.append_assoc, getOp, if_pos hle,
      hsize]
    simp only [if_neg hlen, List.take_left, List.drop_left]
  have h1 : opPushData1.toNat = 76 := rfl
  by_cases hdirect : b.length < opPushData1.toNat
  · -- the opcode is the size
    have hnat : (UInt8.ofNat b.length).toNat = b.length := toNat_ofNat_of_lt (by omega)
    have hlt : UInt8.ofNat b.length < opPushData1 := by
      rw [UInt8.lt_iff_toNat_lt, hnat]
      exact hdirect
    refine hread (UInt8.ofNat b.length) [] ?_ ?_ ?_
    · rw [UInt8.le_iff_toNat_le, hnat]
      have h4 : opPushData4.toNat = 78 := rfl
      omega
    · rw [readPushSize_short hlt, hnat, List.nil_append]
    · rw [pushPrefix, if_pos hdirect]
  · by_cases hone : b.length ≤ 0xff
    · refine hread opPushData1 [UInt8.ofNat b.length] (by decide) ?_ ?_
      · rw [List.cons_append, List.nil_append, readPushSize_one, toNat_ofNat_of_lt (by omega)]
      · rw [pushPrefix, if_neg hdirect, if_pos hone]
    · by_cases htwo : b.length ≤ 0xffff
      · refine hread opPushData2 (writeLE16 b.length) (by decide) ?_ ?_
        · rw [writeLE16, List.cons_append, List.cons_append, List.nil_append, readPushSize_two,
            UInt8.toNat_ofNat', UInt8.toNat_ofNat']
          congr 2
          omega
        · rw [pushPrefix, if_neg hdirect, if_neg hone, if_pos htwo]
      · refine hread opPushData4 (writeLE32 b.length) (by decide) ?_ ?_
        · rw [writeLE32, List.cons_append, List.cons_append, List.cons_append, List.cons_append,
            List.nil_append, readPushSize_four, UInt8.toNat_ofNat', UInt8.toNat_ofNat',
            UInt8.toNat_ofNat', UInt8.toNat_ofNat']
          congr 2
          omega
        · rw [pushPrefix, if_neg hdirect, if_neg hone, if_neg htwo]

/-- Short data, such as a key, is pushed by an opcode that is its size. -/
theorem getOp_pushData_short {b : List UInt8} (h : b.length < 76) (rest : CScript) :
    getOp (pushData b ++ rest) = some ((UInt8.ofNat b.length, b), rest) := by
  have hnat : (UInt8.ofNat b.length).toNat = b.length := toNat_ofNat_of_lt (by omega)
  have hlt : UInt8.ofNat b.length < opPushData1 := by
    rw [UInt8.lt_iff_toNat_lt, hnat]
    exact h
  have hle : UInt8.ofNat b.length ≤ opPushData4 := by
    rw [UInt8.le_iff_toNat_le, hnat]
    have h4 : opPushData4.toNat = 78 := rfl
    omega
  have hlen : ¬ (b ++ rest).length < b.length := by
    rw [List.length_append]
    omega
  have hpre : pushPrefix b.length = [UInt8.ofNat b.length] := by
    rw [pushPrefix, if_pos (show b.length < opPushData1.toNat from h)]
  rw [pushData, hpre, List.cons_append, List.cons_append, List.nil_append, getOp, if_pos hle,
    readPushSize_short hlt, hnat]
  simp only [if_neg hlen, List.take_left, List.drop_left]

theorem getOp_opcode {opcode : UInt8} (h : ¬ opcode ≤ opPushData4) (rest : CScript) :
    getOp (opcode :: rest) = some ((opcode, []), rest) := by
  rw [getOp, if_neg h]

theorem length_readPushSize {opcode : UInt8} {pc rest : CScript} {n : Nat}
    (h : readPushSize opcode pc = some (n, rest)) : rest.length ≤ pc.length := by
  unfold readPushSize at h
  split at h
  · cases h
    exact le_rfl
  · split at h
    · split at h
      · cases h
        simp
      · cases h
    · split at h
      · split at h
        · cases h
          simp only [List.length_cons]
          omega
        · cases h
      · split at h
        · cases h
          simp only [List.length_cons]
          omega
        · cases h

theorem length_getOp {script rest : CScript} {op : ScriptOp} (h : getOp script = some (op, rest)) :
    rest.length < script.length := by
  unfold getOp at h
  split at h
  · cases h
  · split at h
    · split at h
      · next hsize =>
          have hle := length_readPushSize hsize
          split at h
          · cases h
          · cases h
            rw [List.length_drop, List.length_cons]
            omega
      · cases h
    · cases h
      rw [List.length_cons]
      omega

/-- More steps than bytes change nothing. -/
theorem opsUpTo_eq {fuel : Nat} {script : CScript} (h : script.length ≤ fuel) :
    opsUpTo fuel script = scriptOps script := by
  have hsame : ∀ fuel fuel' (script : CScript), script.length ≤ fuel → script.length ≤ fuel' →
      opsUpTo fuel script = opsUpTo fuel' script := by
    intro fuel
    induction fuel with
    | zero =>
        intro fuel' script h _
        have hnil : script = [] := List.length_eq_zero_iff.mp (Nat.le_zero.mp h)
        subst hnil
        cases fuel' <;> rfl
    | succ fuel ih =>
        intro fuel' script h h'
        cases fuel' with
        | zero =>
            have hnil : script = [] := List.length_eq_zero_iff.mp (Nat.le_zero.mp h')
            subst hnil
            rfl
        | succ fuel' =>
            rw [opsUpTo, opsUpTo]
            split
            · rfl
            · cases hop : getOp script with
              | none => rfl
              | some x =>
                  obtain ⟨op, rest⟩ := x
                  have hlen := length_getOp hop
                  dsimp only
                  rw [ih fuel' rest (by omega) (by omega)]
  exact hsame _ _ script h le_rfl

@[simp] theorem scriptOps_nil : scriptOps [] = ([], true) := rfl

theorem scriptOps_of_getOp {script rest : CScript} {op : ScriptOp}
    (h : getOp script = some (op, rest)) :
    scriptOps script = (op :: (scriptOps rest).1, (scriptOps rest).2) := by
  have hlen := length_getOp h
  have hne : script.isEmpty = false := by
    cases script with
    | nil => cases h
    | cons a l => rfl
  rw [← opsUpTo_eq (Nat.le_succ script.length), opsUpTo, hne, h]
  simp only [opsUpTo_eq (show rest.length ≤ script.length by omega)]
  rfl

/-! ## Templates -/

theorem matchTemplate_none {opcode2 : UInt8} {template : List UInt8} {op : ScriptOp}
    {rest : List ScriptOp} (hne : opcode2 ≠ opPubKeys) (hop : matchOp opcode2 op = none) :
    matchTemplate (opcode2 :: template) (op :: rest) = none := by
  rw [matchTemplate.eq_def]
  simp only [if_neg hne, hop]

theorem matchTemplate_op {opcode2 : UInt8} {template : List UInt8} {op : ScriptOp}
    {rest : List ScriptOp} {found more : List (List UInt8)} (hne : opcode2 ≠ opPubKeys)
    (hop : matchOp opcode2 op = some found) (hmore : matchTemplate template rest = some more) :
    matchTemplate (opcode2 :: template) (op :: rest) = some (found ++ more) := by
  rw [matchTemplate.eq_def]
  simp only [if_neg hne, hop, hmore]

/-- The keys of a multisig script are all operations up to the first that is not sized like one. -/
theorem matchTemplate_keys {opcode2 : UInt8} {template : List UInt8} {op : ScriptOp}
    {keys rest : List ScriptOp} {found more : List (List UInt8)}
    (hkeys : ∀ key ∈ keys, isKeySized key = true) (hop : isKeySized op = false)
    (hfound : matchOp opcode2 op = some found) (hmore : matchTemplate template rest = some more) :
    matchTemplate (opPubKeys :: opcode2 :: template) (keys ++ op :: rest) =
      some (keys.map Prod.snd ++ found ++ more) := by
  have hdrop : (keys ++ op :: rest).dropWhile isKeySized = op :: rest := by
    rw [List.dropWhile_append_of_pos hkeys, List.dropWhile_cons_of_neg (by simp [hop])]
  have htake : (keys ++ op :: rest).takeWhile isKeySized = keys := by
    rw [List.takeWhile_append_of_pos hkeys, List.takeWhile_cons_of_neg (by simp [hop]),
      List.append_nil]
  rw [matchTemplate.eq_def]
  simp only [if_true, hdrop, htake, hfound, hmore]

/-! ## Multisig outputs -/

/-- The operations that push a list of keys. -/
def keyOps (keys : List (List UInt8)) : List ScriptOp :=
  keys.map fun key => (UInt8.ofNat key.length, key)

theorem scriptOps_keys {keys : List (List UInt8)} (h : ∀ key ∈ keys, key.length < 76)
    (rest : CScript) :
    scriptOps (keys.flatMap pushData ++ rest) =
      (keyOps keys ++ (scriptOps rest).1, (scriptOps rest).2) := by
  induction keys with
  | nil => rfl
  | cons key keys ih =>
      have hkey := getOp_pushData_short (h key List.mem_cons_self)
        (keys.flatMap pushData ++ rest)
      rw [List.flatMap_cons, List.append_assoc, scriptOps_of_getOp hkey,
        ih fun k hk => h k (List.mem_cons_of_mem key hk)]
      rfl

theorem length_of_isValidPubKey {vch : List UInt8} (h : isValidPubKey vch = true) :
    33 ≤ vch.length ∧ vch.length ≤ 65 := by
  cases vch with
  | nil => cases h
  | cons chHeader rest =>
      simp only [isValidPubKey, Bool.and_eq_true, decide_eq_true_eq] at h
      obtain ⟨hne, hlen⟩ := h
      rw [hlen]
      unfold pubKeyLen at hne ⊢
      split at hne
      · rw [if_pos ‹_›]
        omega
      · split at hne
        · rw [if_neg ‹_›, if_pos ‹_›]
          omega
        · exact absurd rfl hne

/-- An opcode for a number of keys between 1 and 16. -/
structure KeyCount (n : Nat) : Prop where
  notPush : ¬ encodeOpN n ≤ opPushData4
  small : isSmallInteger (encodeOpN n) = true
  decoded : (decodeOpN (encodeOpN n)).toNat = n

theorem keyCount {n : Nat} (h0 : 1 ≤ n) (h : n ≤ 16) : KeyCount n := by
  have hall : ∀ n : Fin 17, 1 ≤ n.val → ¬ encodeOpN n.val ≤ opPushData4 ∧
      isSmallInteger (encodeOpN n.val) = true ∧ (decodeOpN (encodeOpN n.val)).toNat = n.val := by
    decide
  obtain ⟨h1, h2, h3⟩ := hall ⟨n, by omega⟩ h0
  exact ⟨h1, h2, h3⟩

/-- A witness program has at most 42 bytes. -/
theorem isWitnessProgram_of_length {script : CScript} (h : 42 < script.length) :
    isWitnessProgram script = none := by
  match script with
  | [] => rfl
  | [_] => rfl
  | version :: size :: program => exact if_neg fun hw => absurd hw.2.1 (not_le.mpr h)

section Multisig

variable {keys : List (List UInt8)} (hvalid : ∀ key ∈ keys, isValidPubKey key = true)
  (htwo : 2 ≤ keys.length) (hmax : keys.length ≤ 16)
include hvalid htwo hmax

theorem scriptOps_multisig :
    scriptOps (getScriptForMultisig 1 keys) =
      ((op1, []) :: (keyOps keys ++ [(encodeOpN keys.length, []), (opCheckMultisig, [])]), true) := by
  have hcount := keyCount (by omega) hmax
  have hshort : ∀ key ∈ keys, key.length < 76 := fun key hk => by
    have hlen := length_of_isValidPubKey (hvalid key hk)
    omega
  have hend : scriptOps [encodeOpN keys.length, opCheckMultisig] =
      ([(encodeOpN keys.length, []), (opCheckMultisig, [])], true) := by
    rw [scriptOps_of_getOp (getOp_opcode hcount.notPush [opCheckMultisig]),
      scriptOps_of_getOp (getOp_opcode (by decide) [])]
    rfl
  have hfirst : getOp (getScriptForMultisig 1 keys) =
      some ((op1, []), keys.flatMap pushData ++ [encodeOpN keys.length, opCheckMultisig]) :=
    getOp_opcode (by decide) _
  rw [scriptOps_of_getOp hfirst, scriptOps_keys hshort, hend]

/-- The pushes of a multisig output without the first one are all its keys but the first. -/
theorem getScriptPushes_multisig :
    getScriptPushes (getScriptForMultisig 1 keys) true = (true, keys.tail.map hexStr) := by
  have hcount := keyCount (by omega) hmax
  have hpush : ∀ op ∈ keyOps keys, decide (op.1 ≤ opPushData4) = true := by
    intro op hop
    obtain ⟨key, hk, rfl⟩ := List.mem_map.mp hop
    have hlen := length_of_isValidPubKey (hvalid key hk)
    have h4 : opPushData4.toNat = 78 := rfl
    rw [decide_eq_true_eq, UInt8.le_iff_toNat_le, toNat_ofNat_of_lt (by omega)]
    omega
  have hfilter : ((op1, []) :: (keyOps keys ++
      [(encodeOpN keys.length, []), (opCheckMultisig, [])])).filter
        (fun op => decide (op.1 ≤ opPushData4)) = keyOps keys := by
    rw [List.filter_cons_of_neg (by decide), List.filter_append, List.filter_eq_self.mpr hpush,
      List.filter_cons_of_neg (by simpa using hcount.notPush), List.filter_cons_of_neg (by decide)]
    simp
  unfold getScriptPushes
  simp only [scriptOps_multisig hvalid htwo hmax, hfilter, if_true]
  rw [keyOps, ← List.map_tail, List.map_map]
  rfl

/-- **A MULTISIG OUTPUT IS SOLVED** as what it was built for. -/
theorem isMultisigOutput_multisig : isMultisigOutput (getScriptForMultisig 1 keys) = true := by
  have hcount := keyCount (by omega) hmax
  have hsized : ∀ op ∈ keyOps keys, isKeySized op = true := by
    intro op hop
    obtain ⟨key, hk, rfl⟩ := List.mem_map.mp hop
    have hlen := length_of_isValidPubKey (hvalid key hk)
    simp [isKeySized, hlen.1, hlen.2]
  have hlength : 42 < (getScriptForMultisig 1 keys).length := by
    obtain ⟨a, b, rest, rfl⟩ : ∃ a b rest, keys = a :: b :: rest := by
      match keys, htwo with
      | a :: b :: rest, _ => exact ⟨a, b, rest, rfl⟩
    have ha := length_of_isValidPubKey (hvalid a (by simp))
    have hb := length_of_isValidPubKey (hvalid b (by simp))
    simp only [getScriptForMultisig, List.flatMap_cons, pushData, List.length_cons,
      List.length_append]
    omega
  have htemplate : matchTemplate [opSmallInteger, opPubKeys, opSmallInteger, opCheckMultisig]
      ((op1, []) :: (keyOps keys ++ [(encodeOpN keys.length, []), (opCheckMultisig, [])])) =
      some ([1] :: (keys ++ [[decodeOpN (encodeOpN keys.length)]])) := by
    have hsmall : matchOp opSmallInteger (encodeOpN keys.length, []) =
        some [[decodeOpN (encodeOpN keys.length)]] := by
      simp [matchOp, hcount.small, opSmallInteger, opPubKey, opPubKeyHash]
    have hkeys : (keyOps keys).map Prod.snd = keys := by
      rw [keyOps, List.map_map]
      exact List.map_id keys
    have hcheck : matchTemplate [opCheckMultisig] [(opCheckMultisig, [])] = some [] := rfl
    have htail := matchTemplate_keys hsized rfl hsmall hcheck
    rw [hkeys, List.append_nil] at htail
    have hfirst : matchOp opSmallInteger (op1, []) = some [[1]] := rfl
    exact matchTemplate_op (show opSmallInteger ≠ opPubKeys by decide) hfirst htail
  have hscan : scanTemplates commonTemplates (getScriptForMultisig 1 keys) =
      some (.multisig, [1] :: (keys ++ [[decodeOpN (encodeOpN keys.length)]])) := by
    have hchecked : multisigChecked ([1] :: (keys ++ [[decodeOpN (encodeOpN keys.length)]])) =
        true := by
      have hone : (1 : UInt8) ≤ decodeOpN (encodeOpN keys.length) := by
        rw [UInt8.le_iff_toNat_le, hcount.decoded]
        show 1 ≤ keys.length
        omega
      have hlast : ([1] :: (keys ++ [[decodeOpN (encodeOpN keys.length)]])).getLast? =
          some [decodeOpN (encodeOpN keys.length)] := by
        rw [← List.cons_append, List.getLast?_concat]
      simp [multisigChecked, hlast, hone, hcount.decoded]
    have hpubKey : matchTemplate [opPubKey, opCheckSig] ((op1, []) :: (keyOps keys ++
        [(encodeOpN keys.length, []), (opCheckMultisig, [])])) = none :=
      matchTemplate_none (by decide) rfl
    have hpubKeyHash : matchTemplate [opDup, opHash160, opPubKeyHash, opEqualVerify, opCheckSig]
        ((op1, []) :: (keyOps keys ++ [(encodeOpN keys.length, []), (opCheckMultisig, [])])) =
        none :=
      matchTemplate_none (by decide) rfl
    unfold scanTemplates commonTemplates
    simp only [scriptOps_multisig hvalid htwo hmax, if_true, List.findSome?_cons, hpubKey,
      hpubKeyHash, htemplate, Option.map_none, Option.map_some, hchecked]
  have hsolver : solver (getScriptForMultisig 1 keys) =
      some (.multisig, [1] :: (keys ++ [[decodeOpN (encodeOpN keys.length)]])) := by
    have hscriptHash : isPayToScriptHash (getScriptForMultisig 1 keys) = false := by
      have hne : ((getScriptForMultisig 1 keys).length == 23) = false := by
        rw [beq_eq_false_iff_ne]
        omega
      simp [isPayToScriptHash, hne]
    have hwitness := isWitnessProgram_of_length hlength
    have hhead : ¬ (encodeOpN 1 = opReturn ∧ isPushOnly (keys.flatMap pushData ++
        [encodeOpN keys.length, opCheckMultisig]) = true) := fun h => absurd h.1 (by decide)
    unfold solver
    rw [hscriptHash, hwitness]
    simp only [Bool.false_eq_true, if_false]
    rw [← hscan]
    exact if_neg hhead
  unfold isMultisigOutput
  rw [hsolver]
  simp only [List.tail_cons, List.dropLast_concat]
  rw [List.any_eq_true]
  have hmem := List.getElem_mem (show 0 < keys.length by omega)
  exact ⟨keys[0], hmem, hvalid _ hmem⟩

end Multisig

end OmniCore
