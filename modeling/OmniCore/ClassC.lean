import OmniCore.ClassB

/-! # ClassC — payloads behind a marker in data outputs

    The payload goes into one push of an `OP_RETURN` output, behind a marker of four bytes.
    Which encoding a transaction uses is read off its outputs, after a quick search for
    marker bytes that drops most transactions on the main network. -/

namespace OmniCore

open TextRec Bytes Exec

/-! ## Networks and their addresses -/

/-- The chains a node can run on. -/
inductive Network
  | main
  | test
  | regTest
  | unitTest
  deriving DecidableEq, Repr

/-- `isNonMainNet`. -/
def Network.isNonMainNet : Network → Bool
  | .main | .unitTest => false
  | .test | .regTest => true

/-- The key hash of `exodus_mainnet`. -/
def exodusMainnet : List UInt8 := parseHexText "946cb2e08075bcbaf157e47bcb67eb2b2339d242".toList

/-- The key hash of `exodus_testnet`. -/
def exodusTestnet : List UInt8 := parseHexText "643ce12b1590633077b8620316f43a9362ef18e5".toList

/-- The key hash of `getmoney_testnet`. -/
def getmoneyTestnet : List UInt8 := parseHexText "5ab93563a289b74c355a9b9258b86f12bb84affb".toList

/-- `ExodusAddress`. -/
def Network.exodusAddress (network : Network) : CTxDestination :=
  if network.isNonMainNet then .keyID exodusTestnet else .keyID exodusMainnet

/-- `ExodusCrowdsaleAddress`. -/
def Network.exodusCrowdsaleAddress (network : Network) (nBlock : Nat) : CTxDestination :=
  if 270775 ≤ nBlock ∧ network.isNonMainNet = true then .keyID getmoneyTestnet
  else if 101 ≤ nBlock ∧ network = .regTest then .keyID getmoneyTestnet
  else network.exodusAddress

/-- The blocks from which on output types are considered. -/
structure OutputBlocks where
  pubKeyHashBlock : Nat
  scriptHashBlock : Nat
  multisigBlock : Nat
  nullDataBlock : Nat

/-- `IsAllowedOutputType`. -/
def isAllowedOutputType (params : OutputBlocks) (whichType : TxOutType) (nBlock : Nat) : Bool :=
  match whichType with
  | .pubKeyHash => decide (params.pubKeyHashBlock ≤ nBlock)
  | .scriptHash => decide (params.scriptHashBlock ≤ nBlock)
  | .multisig => decide (params.multisigBlock ≤ nBlock)
  | .nullData => decide (params.nullDataBlock ≤ nBlock)
  | _ => false

/-! ## Encoding -/

/-- `GetOmMarker`: the bytes of "omni". -/
def getOmMarker : List UInt8 := [0x6f, 0x6d, 0x6e, 0x69]

/-- The output script for data. -/
def dataScript (vchData : List UInt8) : CScript := opReturn :: pushData vchData

/-- `OmniCore_Encode_ClassC`. -/
def encodeClassC (nMaxDatacarrierBytes : UInt32) (vchPayload : List UInt8) :
    Option (CScript × Int) :=
  if nMaxDatacarrierBytes.toNat < (getOmMarker ++ vchPayload).length then none
  else some (dataScript (getOmMarker ++ vchPayload), 0)

/-! ## Classification -/

/-- What `GetEncodingClass` returns. -/
inductive EncodingClass
  | noMarker
  | classA
  | classB
  | classC
  deriving DecidableEq, Repr

/-- `find` on strings, as a test. -/
def strFind (pat : Text) : Text → Bool
  | [] => pat.isPrefixOf []
  | c :: rest => pat.isPrefixOf (c :: rest) || strFind pat rest

/-- Marker bytes as hexadecimal text. -/
def strClassC : Text := "6f6d6e69".toList

/-- The script that pays the main Exodus address, as hexadecimal text. -/
def strClassAB : Text := "76a914946cb2e08075bcbaf157e47bcb67eb2b2339d24288ac".toList

/-- The fast search: an output that pays Exodus or, once class C is live on the main network, one with
    marker bytes anywhere. -/
def fastSearch (vout : List CScript) (nBlock : Nat) : Bool :=
  vout.any fun script =>
    hexStr script == strClassAB || (decide (395000 ≤ nBlock) && strFind strClassC (hexStr script))

/-- The type of an output, if it is standard and allowed at the block. -/
def outputType (params : OutputBlocks) (nBlock : Nat) (script : CScript) : Option TxOutType :=
  match getOutputType script with
  | some outType => if isAllowedOutputType params outType nBlock then some outType else none
  | none => none

/-- The pushes of a script whose first one starts with the marker. -/
def taggedPushes (script : CScript) : Option (Text × List Text) :=
  match getScriptPushes script false with
  | (true, first :: rest) =>
      if getOmMarker.isPrefixOf (parseHexText first) then some (first, rest) else none
  | _ => none

/-- An `OP_RETURN` output that is considered and tagged. -/
def isMarkedOutput (params : OutputBlocks) (nBlock : Nat) (script : CScript) : Bool :=
  outputType params nBlock script == some .nullData && (taggedPushes script).isSome

/-- An output that pays an address, as an output to the hash of a key. -/
def paysKeyHash (params : OutputBlocks) (hash160 : List UInt8 → List UInt8) (nBlock : Nat)
    (address : CTxDestination) (script : CScript) : Bool :=
  outputType params nBlock script == some .pubKeyHash &&
    extractDestination hash160 script == some address

/-- `GetEncodingClass`. -/
def getEncodingClass (network : Network) (params : OutputBlocks) (hash160 : List UInt8 → List UInt8)
    (vout : List CScript) (nBlock : Nat) : EncodingClass :=
  if !(fastSearch vout nBlock || network.isNonMainNet) then .noMarker
  else
    let hasExodus := vout.any (paysKeyHash params hash160 nBlock network.exodusAddress)
    let hasMoney := vout.any (paysKeyHash params hash160 nBlock (network.exodusCrowdsaleAddress nBlock))
    let hasMultisig := vout.any fun script => outputType params nBlock script == some .multisig
    let hasOpReturn := vout.any (isMarkedOutput params nBlock)
    if hasOpReturn then .classC
    else if hasExodus && hasMultisig then .classB
    else if hasExodus || hasMoney then .classA
    else .noMarker

/-! ## Decoding -/

/-- `IsHex`. -/
def isHex (str : Text) : Bool :=
  str.all (fun c => (hexDigit? c).isSome) && !str.isEmpty && str.length % 2 == 0

/-- The pushes of all marked outputs, without the marker. -/
def opReturnScriptData (params : OutputBlocks) (nBlock : Nat) (vout : List CScript) : List Text :=
  vout.flatMap fun script =>
    if outputType params nBlock script == some .nullData then
      match taggedPushes script with
      | some (first, rest) => first.drop (getOmMarker.length * 2) :: rest
      | none => []
    else []

/-- The most bytes a payload can have. -/
def maxPayloadSize : Nat := maxPackets * packetSize

/-- Puts the pushes together, up to the greatest size. -/
def extractPayload : List UInt8 → List Text → Except Halt (List UInt8)
  | single_pkt, [] => .ok single_pkt
  | single_pkt, data :: rest =>
      if data.isEmpty then extractPayload single_pkt rest
      else if !isHex data then .error (.assertFailed .condition)
      else
        let single_pkt := single_pkt ++ (parseHexText data).take (maxPayloadSize - single_pkt.length)
        if single_pkt.length = maxPayloadSize then .ok single_pkt
        else extractPayload single_pkt rest

/-- The class C branch of `parseTransaction`: the first `packet_size` bytes of `single_pkt`. -/
def parseClassC (params : OutputBlocks) (nBlock : Nat) (vout : List CScript) :
    Except Halt (List UInt8) :=
  extractPayload [] (opReturnScriptData params nBlock vout)

/-! ## Marker bytes are found -/

theorem strFind_append (pat before after : Text) : strFind pat (before ++ (pat ++ after)) = true := by
  induction before with
  | nil =>
      have hpre : pat.isPrefixOf (pat ++ after) = true :=
        List.isPrefixOf_iff_prefix.mpr (List.prefix_append pat after)
      cases h : pat ++ after with
      | nil =>
          rw [h] at hpre
          exact hpre
      | cons c rest =>
          rw [h] at hpre
          show (pat.isPrefixOf (c :: rest) || strFind pat rest) = true
          rw [hpre, Bool.true_or]
  | cons c before ih =>
      show (pat.isPrefixOf _ || strFind pat (before ++ (pat ++ after))) = true
      rw [ih, Bool.or_true]

theorem parseHexText_hexStr (bytes : List UInt8) : parseHexText (hexStr bytes) = bytes :=
  parseHex_hexStr (by decide) bytes

theorem isHex_hexStr {bytes : List UInt8} (h : bytes ≠ []) : isHex (hexStr bytes) = true := by
  have hdigits : (hexStr bytes).all (fun c => (hexDigit? c).isSome) = true := by
    rw [List.all_eq_true]
    intro c hc
    obtain ⟨b, _, hb⟩ := List.mem_flatMap.mp hc
    have hlt := b.toNat_lt
    rcases List.mem_cons.mp hb with rfl | hb
    · rw [hexDigit?_digitChar (by omega)]
      rfl
    · rw [List.mem_singleton.mp hb, hexDigit?_digitChar (by omega)]
      rfl
  have hpos := List.length_pos_iff.mpr h
  have hempty : (hexStr bytes).isEmpty = false := by
    rw [List.isEmpty_eq_false_iff, ← List.length_pos_iff, length_hexStr]
    omega
  have heven : (hexStr bytes).length % 2 == 0 := by
    rw [length_hexStr, beq_iff_eq]
    omega
  rw [isHex, hdigits, hempty, heven]
  rfl

/-! ## The produced output is recognized -/

section Output

variable {vchData : List UInt8} (hsize : vchData.length < 2 ^ 32)
include hsize

/-- The operations of a data output: the return and one push. -/
theorem scriptOps_dataScript : ∃ opcode, opcode ≤ opPushData4 ∧
    scriptOps (pushData vchData) = ([(opcode, vchData)], true) ∧
    scriptOps (dataScript vchData) = ([(opReturn, []), (opcode, vchData)], true) := by
  obtain ⟨opcode, hpush, hop⟩ := getOp_pushData hsize []
  rw [List.append_nil] at hop
  have hdata : scriptOps (pushData vchData) = ([(opcode, vchData)], true) := by
    rw [scriptOps_of_getOp hop, scriptOps_nil]
  have hreturn : getOp (dataScript vchData) = some ((opReturn, []), pushData vchData) :=
    getOp_opcode (by decide) _
  refine ⟨opcode, hpush, hdata, ?_⟩
  rw [scriptOps_of_getOp hreturn, hdata]

theorem getScriptPushes_dataScript :
    getScriptPushes (dataScript vchData) false = (true, [hexStr vchData]) := by
  obtain ⟨opcode, hpush, _, hops⟩ := scriptOps_dataScript hsize
  have hfilter : ([(opReturn, []), (opcode, vchData)] : List ScriptOp).filter
      (fun op => decide (op.1 ≤ opPushData4)) = [(opcode, vchData)] := by
    simp [hpush, show ¬ opReturn ≤ opPushData4 by decide]
  unfold getScriptPushes
  simp only [hops, hfilter]
  rfl

/-- **A DATA OUTPUT IS A DATA OUTPUT** for the solver, whatever form its push has. -/
theorem getOutputType_dataScript : getOutputType (dataScript vchData) = some .nullData := by
  obtain ⟨opcode, hpush, hdata, _⟩ := scriptOps_dataScript hsize
  have hscriptHash : isPayToScriptHash (dataScript vchData) = false := by
    have hhead : ((dataScript vchData)[0]? == some opHash160) = false := rfl
    simp [isPayToScriptHash, hhead]
  have hne : pushData vchData ≠ [] := by
    intro hnil
    rw [hnil, scriptOps_nil] at hdata
    cases hdata
  have hpushOnly : isPushOnly (pushData vchData) = true := by
    have hle : opcode ≤ op16 := UInt8.le_trans hpush (by decide)
    simp [isPushOnly, hdata, hle]
  rw [getOutputType, safeSolver.eq_def, hscriptHash]
  show Option.map Prod.fst (if pushData vchData ≠ [] ∧ opReturn = opReturn ∧
    isPushOnly (pushData vchData) = true then some (TxOutType.nullData, []) else _) = _
  rw [if_pos ⟨hne, rfl, hpushOnly⟩]
  rfl

end Output

/-- The marker bytes stand in the script, behind the opcode and the size. -/
theorem strFind_dataScript (vchPayload : List UInt8) :
    strFind strClassC (hexStr (dataScript (getOmMarker ++ vchPayload))) = true := by
  have hmarker : hexStr getOmMarker = strClassC := by decide
  have hsplit : dataScript (getOmMarker ++ vchPayload) =
      (opReturn :: pushPrefix (getOmMarker ++ vchPayload).length) ++ (getOmMarker ++ vchPayload) :=
    rfl
  rw [hsplit, hexStr_append, hexStr_append, hmarker]
  exact strFind_append _ _ _

section Payload

variable {params : OutputBlocks} {nBlock : Nat} {vchPayload : List UInt8}
  (hsize : (getOmMarker ++ vchPayload).length < 2 ^ 32) (hallowed : params.nullDataBlock ≤ nBlock)
include hsize

theorem taggedPushes_dataScript : taggedPushes (dataScript (getOmMarker ++ vchPayload)) =
    some (hexStr (getOmMarker ++ vchPayload), []) := by
  have hpre : getOmMarker.isPrefixOf (getOmMarker ++ vchPayload) = true :=
    List.isPrefixOf_iff_prefix.mpr (List.prefix_append _ _)
  rw [taggedPushes, getScriptPushes_dataScript hsize]
  show (if getOmMarker.isPrefixOf (parseHexText (hexStr (getOmMarker ++ vchPayload))) = true then
    some (hexStr (getOmMarker ++ vchPayload), []) else none) = _
  rw [parseHexText_hexStr, if_pos hpre]

include hallowed

theorem outputType_dataScript :
    outputType params nBlock (dataScript (getOmMarker ++ vchPayload)) = some .nullData := by
  have hallow : isAllowedOutputType params .nullData nBlock = true := decide_eq_true hallowed
  rw [outputType, getOutputType_dataScript hsize]
  exact if_pos hallow

theorem isMarkedOutput_dataScript :
    isMarkedOutput params nBlock (dataScript (getOmMarker ++ vchPayload)) = true := by
  rw [isMarkedOutput, outputType_dataScript hsize hallowed, taggedPushes_dataScript hsize]
  rfl

end Payload

/-! ## The payload is read back -/

/-- Parsing one push of data into an empty packet. -/
theorem extractPayload_single (vchPayload : List UInt8) :
    extractPayload [] [hexStr vchPayload] = .ok (vchPayload.take maxPayloadSize) := by
  by_cases hnil : vchPayload = []
  · subst hnil
    rfl
  · have hempty : (hexStr vchPayload).isEmpty = false := by
      have hpos := List.length_pos_iff.mpr hnil
      rw [List.isEmpty_eq_false_iff, ← List.length_pos_iff, length_hexStr]
      omega
    rw [extractPayload, hempty, isHex_hexStr hnil, parseHexText_hexStr]
    simp only [Bool.false_eq_true, if_false, Bool.not_true, List.nil_append, List.length_nil,
      Nat.sub_zero, extractPayload, ite_self]

section Transaction

variable {params : OutputBlocks} {nBlock : Nat} {vchPayload : List UInt8}
  {others others' : List CScript}

/-- Outputs that are not marked add nothing. -/
theorem opReturnScriptData_unmarked
    (h : ∀ script ∈ others, isMarkedOutput params nBlock script = false) :
    opReturnScriptData params nBlock others = [] := by
  rw [opReturnScriptData, List.flatMap_eq_nil_iff]
  intro script hscript
  have hmarked := h script hscript
  rw [isMarkedOutput, Bool.and_eq_false_iff] at hmarked
  rcases hmarked with htype | htagged
  · rw [htype]
    rfl
  · have hnone : taggedPushes script = none := by simpa using htagged
    rw [hnone]
    exact ite_self _

variable (hsize : (getOmMarker ++ vchPayload).length < 2 ^ 32)
  (hallowed : params.nullDataBlock ≤ nBlock)
include hsize hallowed

/-- **WHAT THE DECODER READS**: the payload, cut at the greatest size a payload can have. -/
theorem parseClassC_eq (h : ∀ script ∈ others, isMarkedOutput params nBlock script = false)
    (h' : ∀ script ∈ others', isMarkedOutput params nBlock script = false) :
    parseClassC params nBlock (others ++ dataScript (getOmMarker ++ vchPayload) :: others') =
      .ok (vchPayload.take maxPayloadSize) := by
  have hpush : opReturnScriptData params nBlock [dataScript (getOmMarker ++ vchPayload)] =
      [hexStr vchPayload] := by
    have htext : (hexStr (getOmMarker ++ vchPayload)).drop (getOmMarker.length * 2) =
        hexStr vchPayload := by
      rw [Nat.mul_comm, drop_hexStr, List.drop_left]
    rw [opReturnScriptData, List.flatMap_singleton, outputType_dataScript hsize hallowed,
      taggedPushes_dataScript hsize]
    show [(hexStr (getOmMarker ++ vchPayload)).drop (getOmMarker.length * 2)] = _
    rw [htext]
  have hall : opReturnScriptData params nBlock
      (others ++ dataScript (getOmMarker ++ vchPayload) :: others') = [hexStr vchPayload] := by
    have hbefore := opReturnScriptData_unmarked h
    have hafter := opReturnScriptData_unmarked h'
    unfold opReturnScriptData at hbefore hafter hpush ⊢
    rw [List.flatMap_append, hbefore, List.nil_append, List.flatMap_cons, hafter, List.append_nil]
    rw [List.flatMap_singleton] at hpush
    exact hpush
  rw [parseClassC, hall, extractPayload_single]

/-- The transaction is classified by the output, once the quick search lets it through. -/
theorem getEncodingClass_dataScript {network : Network} {hash160 : List UInt8 → List UInt8}
    (hlive : network.isNonMainNet = false → 395000 ≤ nBlock) :
    getEncodingClass network params hash160
      (others ++ dataScript (getOmMarker ++ vchPayload) :: others') nBlock = .classC := by
  have hmem : dataScript (getOmMarker ++ vchPayload) ∈
      others ++ dataScript (getOmMarker ++ vchPayload) :: others' :=
    List.mem_append_right _ List.mem_cons_self
  have hmarked : (others ++ dataScript (getOmMarker ++ vchPayload) :: others').any
      (isMarkedOutput params nBlock) = true :=
    List.any_eq_true.mpr ⟨_, hmem, isMarkedOutput_dataScript hsize hallowed⟩
  have hclosely : (fastSearch (others ++ dataScript (getOmMarker ++ vchPayload) :: others') nBlock ||
      network.isNonMainNet) = true := by
    cases hnet : network.isNonMainNet with
    | true => exact Bool.or_true _
    | false =>
        have hfound : fastSearch (others ++ dataScript (getOmMarker ++ vchPayload) :: others')
            nBlock = true := by
          refine List.any_eq_true.mpr ⟨_, hmem, ?_⟩
          rw [strFind_dataScript, decide_eq_true (hlive hnet), Bool.and_true, Bool.or_true]
        rw [hfound]
        rfl
  unfold getEncodingClass
  rw [hclosely]
  simp only [hmarked, Bool.not_true, Bool.false_eq_true, if_false, if_true]

end Transaction

/-- **CLASS C ROUND TRIP**: a transaction with the produced output and no other marked one is
    recognized and decodes to the payload, for payloads up to the greatest size and, on the main
    network, once the quick search looks for the marker. -/
theorem classC_round_trip (network : Network) (params : OutputBlocks)
    (hash160 : List UInt8 → List UInt8) (nMaxDatacarrierBytes : UInt32) (vchPayload : List UInt8)
    (output : CScript × Int) (nBlock : Nat) (others others' : List CScript)
    (hencode : encodeClassC nMaxDatacarrierBytes vchPayload = some output)
    (hsize : vchPayload.length ≤ 7905) (hallowed : params.nullDataBlock ≤ nBlock)
    (hlive : network.isNonMainNet = false → 395000 ≤ nBlock)
    (h : ∀ script ∈ others, isMarkedOutput params nBlock script = false)
    (h' : ∀ script ∈ others', isMarkedOutput params nBlock script = false) :
    getEncodingClass network params hash160 (others ++ output.1 :: others') nBlock = .classC ∧
      parseClassC params nBlock (others ++ output.1 :: others') = .ok vchPayload := by
  rw [encodeClassC] at hencode
  split at hencode
  · cases hencode
  · next hfits =>
      cases hencode
      have hlt : (getOmMarker ++ vchPayload).length < 2 ^ 32 := by
        have hmax := nMaxDatacarrierBytes.toNat_lt
        omega
      have hwhole : vchPayload.take maxPayloadSize = vchPayload := List.take_of_length_le hsize
      refine ⟨getEncodingClass_dataScript hlt hallowed hlive, ?_⟩
      rw [parseClassC_eq hlt hallowed h h', hwhole]

/-- The blocks of the main network, but for the activation height of class C. -/
def mainOutputBlocks (nullDataBlock : Nat) : OutputBlocks := ⟨0, 322000, 0, nullDataBlock⟩

/-- An output that pays the hash of a key. -/
def changeScript : CScript :=
  [opDup, opHash160] ++ (pushData exodusTestnet ++ [opEqualVerify, opCheckSig])

/-- Eighty bytes, as many as the data carriers of the default size hold behind no marker. -/
def eightyBytes : List UInt8 := List.replicate 80 7

/-- Neither the change nor a data output with another tag hides the payload. -/
theorem classC_round_trip_eighty :
    getEncodingClass .main (mainOutputBlocks 395000) id
        ([changeScript] ++ dataScript (getOmMarker ++ eightyBytes) ::
          [dataScript [1, 2, 3, 4, 5], changeScript]) 395000 = .classC ∧
      parseClassC (mainOutputBlocks 395000) 395000
        ([changeScript] ++ dataScript (getOmMarker ++ eightyBytes) ::
          [dataScript [1, 2, 3, 4, 5], changeScript]) = .ok eightyBytes :=
  classC_round_trip .main (mainOutputBlocks 395000) id 84 eightyBytes
    (dataScript (getOmMarker ++ eightyBytes), 0) 395000 [changeScript]
    [dataScript [1, 2, 3, 4, 5], changeScript] rfl (by decide) le_rfl (fun _ => le_rfl)
    (by decide +kernel) (by decide +kernel)

/-- A data carrier size beyond the greatest payload lets the encoder produce what the decoder cuts,
    and with class C activated before block 395000 the quick search drops marked transactions. -/
theorem classC_round_trip_fails :
    (∃ output, encodeClassC 8000 (List.replicate 7906 0) = some output ∧
      parseClassC (mainOutputBlocks 395000) 395000 [output.1] ≠ .ok (List.replicate 7906 0)) ∧
    (∃ output, encodeClassC 83 [0, 0, 0, 0] = some output ∧
      isAllowedOutputType (mainOutputBlocks 390000) .nullData 390000 = true ∧
      getEncodingClass .main (mainOutputBlocks 390000) id [output.1] 390000 = .noMarker) := by
  have hlength : (getOmMarker ++ List.replicate 7906 0).length = 7910 := by
    rw [List.length_append, List.length_replicate]
    rfl
  constructor
  · refine ⟨(dataScript (getOmMarker ++ List.replicate 7906 0), 0), ?_, ?_⟩
    · rw [encodeClassC, hlength]
      rfl
    · have hcut : parseClassC (mainOutputBlocks 395000) 395000
          ([] ++ dataScript (getOmMarker ++ List.replicate 7906 0) :: []) = _ :=
        parseClassC_eq (by rw [hlength]; decide) le_rfl (fun _ h => nomatch h)
          (fun _ h => nomatch h)
      rw [List.take_replicate, List.nil_append] at hcut
      rw [hcut]
      intro hsame
      have hcount := congrArg List.length (Except.ok.inj hsame)
      rw [List.length_replicate, List.length_replicate] at hcount
      exact absurd hcount (by decide)
  · exact ⟨(dataScript (getOmMarker ++ [0, 0, 0, 0]), 0), rfl, rfl, by decide +kernel⟩

end OmniCore
