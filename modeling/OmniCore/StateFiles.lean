import OmniCore.ConsensusHash
import OmniCore.MetaDEx
import OmniCore.Reset
import OmniCore.DEx

/-! # StateFiles — saving a block and loading it again

    After a block the node writes seven files, line by line, with a hash of the lines at
    the end. A restarted node loads them, one reader for each kind of line, and goes
    back a block if one of them is refused. The line of the globals has three fields and
    its reader wants four, and for the contract orders there is no reader: no block is
    ever restored. -/

namespace OmniCore

open Std (ExtTreeMap)
open Machine TextRec MapSum Exec

/-! ## Writing -/

/-- `FILETYPES`. -/
inductive FileType
  | balances
  | offers
  | accepts
  | globals
  | crowdsales
  | mdexorders
  | cdexorders
  deriving DecidableEq, Repr

/-- All of them, as they are numbered. -/
def fileTypes : List FileType :=
  [.balances, .offers, .accepts, .globals, .crowdsales, .mdexorders, .cdexorders]

/-- One property of an address: `"%d:%d,%d,%d,%d;"`. -/
def balanceField (t : CMPTally) (p : PropertyId) : Text :=
  decNat p ++ ':' :: joinWith ',' [decInt (t.getMoney p .balance),
    decInt (t.getMoney p .sellOfferReserve), decInt (t.getMoney p .acceptReserve),
    decInt (t.getMoney p .metaDExReserve)] ++ [';']

/-- None of the four balances that are written. -/
def CMPTally.isBlank (t : CMPTally) (p : PropertyId) : Bool :=
  t.getMoney p .balance == 0 && t.getMoney p .sellOfferReserve == 0
    && t.getMoney p .acceptReserve == 0 && t.getMoney p .metaDExReserve == 0

/-- `write_msc_balances`: no line for an empty wallet. `order` is the order in which the unordered map
    is walked. -/
def writeMscBalances (order : List (Address × CMPTally)) : List Text :=
  order.filterMap fun e =>
    let written := e.2.visited.filter fun p => !e.2.isBlank p
    if written.isEmpty then none
    else some (e.1.text ++ '=' :: written.flatMap (balanceField e.2))

/-- `CMPOffer::saveOffer`. -/
def CMPOffer.saveOffer (o : CMPOffer) (address : Text) : Text :=
  joinWith ',' [address, decNat o.offerBlock, decInt o.offerAmountOriginal, decNat o.property,
    decInt o.btcDesiredOriginal, decNat omniPropertyBTC, decInt o.minFee, decNat o.blocktimelimit,
    txidText o.txid]

/-- `write_mp_offers`: the seller is the part of the key before the first hyphen. -/
def writeMpOffers (s : State) : List Text :=
  s.offers.toList.map fun e => e.2.saveOffer ((split (· == '-') e.1).headD [])

/-- `CMPAccept::saveAccept`. -/
def CMPAccept.saveAccept (o : CMPAccept) (address buyer : Text) : Text :=
  joinWith ',' [address, decNat o.property, buyer, decNat o.block, decInt o.acceptAmountRemaining,
    decInt o.acceptAmountOriginal, decNat o.blocktimelimit, decInt o.offerAmountOriginal,
    decInt o.btcDesiredOriginal, txidText o.offerTxid]

/-- `write_mp_accepts`. The second part of a key is the property: that is what is written in the
    place of the buyer. -/
def writeMpAccepts (s : State) : List Text :=
  s.accepts.toList.map fun e =>
    let vstr := split isComboMark e.1
    e.2.saveAccept (vstr.getD 0 []) (vstr.getD 1 [])

/-- `write_globals_state`. -/
def writeGlobalsState (s : State) : List Text :=
  [joinWith ',' [decInt s.exodusPrev, decNat (s.sps.peekNextSPID 1), decNat (s.sps.peekNextSPID 2)]]

/-- One participation in the line of a crowdsale. -/
def participationText (e : Txid × List Int) : Text :=
  txidText e.1 ++ '=' :: joinWith ';' (e.2.map decInt)

/-- `CMPCrowd::saveCrowdSale`. `database` lists the participations as they are walked: the map compares
    the bytes of the hashes, not their numbers. -/
def CMPCrowd.saveCrowdSale (c : CMPCrowd) (addr : Text) (database : List (Txid × List Int)) : Text :=
  joinWith ',' ([addr, decNat c.propertyId, decInt c.nValue, decNat c.propertyDesired,
    decInt c.deadline, decNat c.earlyBird, decNat c.percentage, decInt c.uCreated,
    decInt c.iCreated] ++ database.map participationText)

/-- `write_mp_crowdsales`. -/
def writeMpCrowdsales (databases : CMPCrowd → List (Txid × List Int)) (s : State) : List Text :=
  s.crowds.toList.map fun e => e.2.saveCrowdSale e.1.text (databases e.2)

/-- `CMPMetaDEx::saveOffer`. -/
def CMPMetaDEx.saveOffer (o : CMPMetaDEx) : Text :=
  joinWith ',' [o.addr.text, decNat o.block, decInt o.amountForsale, decNat o.property,
    decInt o.amountDesired, decNat o.desiredProperty, decNat o.subaction, decNat o.idx,
    txidText o.txid, decInt o.amountRemaining]

/-- `write_mp_metadex`. -/
def writeMpMetadex (s : State) : List Text := (metaDExOrders s).map CMPMetaDEx.saveOffer

/-- `CMPContractDex::saveOffer`. -/
def CMPContractDex.saveOffer (o : CMPContractDex) : Text :=
  joinWith ',' [o.addr.text, decNat o.block, decInt o.amountForsale, decNat o.property,
    decInt o.amountDesired, decNat o.desiredProperty, decNat o.subaction, decNat o.idx,
    txidText o.txid, decInt o.amountRemaining, decNat o.effectivePrice, decNat o.tradingAction]

/-- `write_mp_contractdex`. -/
def writeMpContractdex (s : State) : List Text := (contractOrders s).map CMPContractDex.saveOffer

/-- The lines of a file. -/
def stateLines (order : List (Address × CMPTally)) (databases : CMPCrowd → List (Txid × List Int))
    (s : State) : FileType → List Text
  | .balances => writeMscBalances order
  | .offers => writeMpOffers s
  | .accepts => writeMpAccepts s
  | .globals => writeGlobalsState s
  | .crowdsales => writeMpCrowdsales databases s
  | .mdexorders => writeMpMetadex s
  | .cdexorders => writeMpContractdex s

/-- `write_state_file`: the lines, and the hash of all that was written in them. `sha256d` is the
    double SHA256 of the bytes it is fed with. -/
def writeStateFile (sha256d : Text → Txid) (order : List (Address × CMPTally))
    (databases : CMPCrowd → List (Txid × List Int)) (s : State) (what : FileType) : Text :=
  let lines := stateLines order databases s what
  (lines ++ ['!' :: txidText (sha256d lines.flatten)]).flatMap fun line => line ++ ['\n']

/-- `mastercore_save_state`, as far as the files of the block go. -/
def mastercoreSaveState (sha256d : Text → Txid) (order : List (Address × CMPTally))
    (databases : CMPCrowd → List (Txid × List Int)) (s : State) (what : FileType) : Option Text :=
  some (writeStateFile sha256d order databases s what)

/-! ## Reading -/

/-- Separators of fields: blank, comma and equals sign. -/
def isFieldMark (c : Char) : Bool := c == ' ' || c == ',' || c == '='

/-- `boost::lexical_cast` throws if the text is no such number. -/
def lexicalCast {α : Type} : Option α → ExecM α
  | some a => pure a
  | none => throw .exception

/-- The address in a line. All that were written are spelled in base58. -/
def lineAddress (t : Text) : ExecM Address := lexicalCast (Address.ofText? t)

/-- One of the properties in a line of balances. -/
def inputProperty (strAddress : Text) (property : Text) : ExecM Int := do
  match split (· == ':') property with
  | [propertyId, balances] =>
      match split (· == ',') balances with
      | [balance, sellReserved, acceptReserved, metadexReserved] =>
          let propertyId ← lexicalCast (castNat 32 propertyId)
          let balance ← lexicalCast (castInt 64 balance)
          let sellReserved ← lexicalCast (castInt 64 sellReserved)
          let acceptReserved ← lexicalCast (castInt 64 acceptReserved)
          let metadexReserved ← lexicalCast (castInt 64 metadexReserved)
          let who ← lineAddress strAddress
          if balance ≠ 0 then
            let _ ← updateTallyMap who propertyId balance .balance
          if sellReserved ≠ 0 then
            let _ ← updateTallyMap who propertyId sellReserved .sellOfferReserve
          if acceptReserved ≠ 0 then
            let _ ← updateTallyMap who propertyId acceptReserved .acceptReserve
          if metadexReserved ≠ 0 then
            let _ ← updateTallyMap who propertyId metadexReserved .metaDExReserve
          pure 0
      | _ => pure (-1)
  | _ => pure (-1)

/-- The properties of a line of balances, up to one that is refused. -/
def inputProperties (strAddress : Text) : List Text → ExecM Int
  | [] => pure 0
  | property :: rest => do
      if property = [] then inputProperties strAddress rest
      else
        let res ← inputProperty strAddress property
        if res < 0 then pure res else inputProperties strAddress rest

/-- `input_msc_balances_string`. -/
def inputMscBalancesString (line : Text) : ExecM Int := do
  match split (· == '=') line with
  | [strAddress, properties] => inputProperties strAddress (split (· == ';') properties)
  | _ => pure (-1)

/-- `input_mp_offers_string`. -/
def inputMpOffersString (line : Text) : ExecM Int := do
  match split isFieldMark line with
  | [sellerAddr, offerBlock, amountOriginal, prop, btcDesired, propDesired, minFee, blocktimelimit,
      txid] =>
      let offerBlock ← lexicalCast (castInt 32 offerBlock)
      let amountOriginal ← lexicalCast (castInt 64 amountOriginal)
      let prop ← lexicalCast (castNat 32 prop)
      let btcDesired ← lexicalCast (castInt 64 btcDesired)
      let propDesired ← lexicalCast (castNat 32 propDesired)
      let minFee ← lexicalCast (castInt 64 minFee)
      let blocktimelimit ← lexicalCast (castNat 32 blocktimelimit)
      if propDesired ≠ omniPropertyBTC then pure (-1)
      else
        let s ← get
        let combo := sellerAddr ++ '-' :: decNat prop
        if s.offers.contains combo then pure (-1)
        else
          set { s with offers := s.offers.insert combo {
            offerBlock := offerBlock.toNat
            offerAmountOriginal := amountOriginal
            property := prop
            btcDesiredOriginal := btcDesired
            minFee := minFee
            blocktimelimit := blocktimelimit % 2 ^ 8
            txid := uint256S txid
            subaction := 0 } }
          pure 0
  | _ => pure (-1)

/-- `input_mp_accepts_string`. -/
def inputMpAcceptsString (line : Text) : ExecM Int := do
  match split isFieldMark line with
  | [sellerAddr, prop, buyerAddr, nBlock, amountRemaining, amountOriginal, blocktimelimit,
      offerOriginal, btcDesired, txidStr] =>
      let prop ← lexicalCast (castNat 32 prop)
      let amountRemaining ← lexicalCast (castNat 64 amountRemaining)
      let amountOriginal ← lexicalCast (castNat 64 amountOriginal)
      let offerOriginal ← lexicalCast (castNat 64 offerOriginal)
      let btcDesired ← lexicalCast (castNat 64 btcDesired)
      let s ← get
      let combo := sellerAddr ++ '-' :: (decNat prop ++ '+' :: buyerAddr)
      if s.accepts.contains combo then pure (-1)
      else
        set { s with accepts := s.accepts.insert combo {
          acceptAmountOriginal := toInt64 amountOriginal
          acceptAmountRemaining := toInt64 amountRemaining
          blocktimelimit := (atoi blocktimelimit % 2 ^ 8).toNat
          property := prop
          offerAmountOriginal := toInt64 offerOriginal
          btcDesiredOriginal := toInt64 btcDesired
          offerTxid := uint256S txidStr
          block := (atoi nBlock).toNat } }
        pure 0
  | _ => pure (-1)

/-- `input_globals_state_string`. -/
def inputGlobalsStateString (line : Text) : ExecM Int := do
  match split isFieldMark line with
  | [exodusPrev, nextSPID, nextTestSPID, nextSPC] =>
      let exodusPrev ← lexicalCast (castNat 64 exodusPrev)
      let nextSPID ← lexicalCast (castNat 32 nextSPID)
      let nextTestSPID ← lexicalCast (castNat 32 nextTestSPID)
      let nextSPC ← lexicalCast (castNat 32 nextSPC)
      modify fun s => { s with
        exodusPrev := toInt64 exodusPrev
        sps := { s.sps with
          nextSPID := nextSPID
          nextTestSPID := nextTestSPID
          nextSPC := nextSPC } }
      pure 0
  | _ => pure (-1)

/-- The participations of a crowdsale at the end of its line; none if one has no two parts. -/
def inputFundraiserData : List Text → ExtTreeMap Txid (List Int) →
    ExecM (Option (ExtTreeMap Txid (List Int)))
  | [], data => pure (some data)
  | entry :: rest, data => do
      match split (· == '=') entry with
      | [txHash, values] =>
          let vals ← (split (· == ';') values).mapM fun value => lexicalCast (castInt 64 value)
          inputFundraiserData rest (data.insertIfNew (uint256S txHash) vals)
      | _ => pure none

/-- `input_mp_crowdsale_string`. -/
def inputMpCrowdsaleString (line : Text) : ExecM Int := do
  match split (fun c => c == ' ' || c == ',') line with
  | sellerAddr :: propertyId :: nValue :: propertyDesired :: deadline :: earlyBird :: percentage ::
      uCreated :: iCreated :: entries =>
      let propertyId ← lexicalCast (castNat 32 propertyId)
      let nValue ← lexicalCast (castInt 64 nValue)
      let propertyDesired ← lexicalCast (castNat 32 propertyDesired)
      let deadline ← lexicalCast (castInt 64 deadline)
      let earlyBird ← lexicalCast (castNat 32 earlyBird)
      let percentage ← lexicalCast (castNat 32 percentage)
      let uCreated ← lexicalCast (castInt 64 uCreated)
      let iCreated ← lexicalCast (castInt 64 iCreated)
      match ← inputFundraiserData entries ∅ with
      | none => pure (-1)
      | some data =>
          let seller ← lineAddress sellerAddr
          let s ← get
          if s.crowds.contains seller then pure (-1)
          else
            set { s with crowds := s.crowds.insert seller {
              propertyId := propertyId
              nValue := nValue
              propertyDesired := propertyDesired
              deadline := deadline
              earlyBird := earlyBird % 2 ^ 8
              percentage := percentage % 2 ^ 8
              uCreated := uCreated
              iCreated := iCreated
              txid := 0
              txFundraiserData := data } }
            pure 0
  | _ => pure (-1)

/-- `input_mp_mdexorder_string`. -/
def inputMpMdexorderString (line : Text) : ExecM Int := do
  match split isFieldMark line with
  | [addr, block, amountForsale, property, amountDesired, desiredProperty, subaction, idx, txid,
      amountRemaining] =>
      let block ← lexicalCast (castInt 32 block)
      let amountForsale ← lexicalCast (castInt 64 amountForsale)
      let property ← lexicalCast (castNat 32 property)
      let amountDesired ← lexicalCast (castInt 64 amountDesired)
      let desiredProperty ← lexicalCast (castNat 32 desiredProperty)
      let subaction ← lexicalCast (castNat 32 subaction)
      let idx ← lexicalCast (castNat 32 idx)
      let amountRemaining ← lexicalCast (castInt 64 amountRemaining)
      let addr ← lineAddress addr
      let inserted ← metaDExInsert {
        addr := addr
        block := block.toNat
        txid := uint256S txid
        idx := idx
        property := property
        amountForsale := amountForsale
        desiredProperty := desiredProperty
        amountDesired := amountDesired
        amountRemaining := amountRemaining
        subaction := subaction % 2 ^ 8 }
      pure (if inserted then 0 else -1)
  | _ => pure (-1)

/-- What `msc_file_load` selects for a file: how memory is cleared, and the reader of a line. There
    is no case for the contract orders. -/
def inputLineFunc : FileType → Option ((State → State) × (Text → ExecM Int))
  | .balances => some (fun s => { s with tallyMap := ∅ }, inputMscBalancesString)
  | .offers => some (fun s => { s with offers := ∅ }, inputMpOffersString)
  | .accepts => some (fun s => { s with accepts := ∅ }, inputMpAcceptsString)
  | .globals => some (id, inputGlobalsStateString)
  | .crowdsales => some (fun s => { s with crowds := ∅ }, inputMpCrowdsaleString)
  | .mdexorders => some (fun s => { s with metadex := ∅ }, inputMpMdexorderString)
  | .cdexorders => none

/-- What was fed to SHA256 so far, and the hash that the file states. -/
structure FileHash where
  fed : Text := []
  stated : Text := []

/-- The loop of `msc_file_load` over the lines; none if a line was refused. -/
def loadLines (inputLine : Text → ExecM Int) (verifyHash : Bool) :
    List Text → FileHash → ExecM (Option FileHash)
  | [], h => pure (some h)
  | line :: rest, h => do
      if line = [] ∨ line.head? = some '#' then loadLines inputLine verifyHash rest h
      else
        -- remove \r if the file came from Windows
        let line := line.filter (· != '\r')
        if line.head? = some '!' then
          loadLines inputLine verifyHash rest { h with stated := line.tail }
        else
          let h := if verifyHash then { h with fed := h.fed ++ line } else h
          let res ← inputLine line
          if res < 0 then pure none else loadLines inputLine verifyHash rest h

/-- `boost::iequals`. -/
def iequals (a b : Text) : Bool := a.map Char.toLower == b.map Char.toLower

/-- `msc_file_load`; there need not be a file. -/
def mscFileLoad (sha256d : Text → Txid) (file : Option Text) (what : FileType) (verifyHash : Bool) :
    ExecM Int := do
  match inputLineFunc what with
  | none => pure (-1)
  | some (clear, inputLine) =>
      modify clear
      match file with
      | none => pure (-1)
      | some content =>
          match ← loadLines inputLine verifyHash (content.splitOn '\n') {} with
          | none => pure (-1)
          | some h =>
              if verifyHash && !iequals (txidText (sha256d h.fed)) h.stated then pure (-1)
              else pure 0

/-- The loop of `load_most_relevant_state` over the files of one block: up to the first that is
    refused. -/
def loadStateFiles (sha256d : Text → Txid) (files : FileType → Option Text) :
    List FileType → Int → ExecM Int
  | [], success => pure success
  | what :: rest, _ => do
      let success ← mscFileLoad sha256d (files what) what true
      if success < 0 then pure success else loadStateFiles sha256d files rest success

/-! ## The files of one block -/

/-- **SAVED STATE CAN BE LOADED**: every file that is written for a block of the node `s` is accepted by a
    node that loads it, with its hash, and so are all of them in turn. -/
structure SavedStateLoads (sha256d : Text → Txid) (order : List (Address × CMPTally))
    (databases : CMPCrowd → List (Txid × List Int)) (s node : State) : Prop where
  accepted : ∀ what, ∃ res, value (mscFileLoad sha256d
    (mastercoreSaveState sha256d order databases s what) what true) node = some res ∧ 0 ≤ res
  restored : ∃ res, value (loadStateFiles sha256d (mastercoreSaveState sha256d order databases s)
    fileTypes (-1)) node = some res ∧ 0 ≤ res

/-- Loading files in turn ends with a refusal if one of them is refused in every state. -/
theorem loadStateFiles_refused {sha256d : Text → Txid} {files : FileType → Option Text}
    {bad : FileType} {l : List FileType} (hmem : bad ∈ l)
    (hbad : ∀ node, mscFileLoad sha256d (files bad) bad true node = .ok (-1) node)
    {success res : Int} {node : State}
    (hres : value (loadStateFiles sha256d files l success) node = some res) : res < 0 := by
  induction l generalizing success node with
  | nil => cases hmem
  | cons what rest ih =>
      obtain ⟨a, t, hload, hrest⟩ := bind_ok (eq_ok_of_value hres)
      by_cases hneg : a < 0
      · rw [if_pos hneg] at hrest
        cases hrest
        exact hneg
      · rw [if_neg hneg] at hrest
        rcases List.mem_cons.mp hmem with rfl | hmem
        · rw [hbad] at hload
          cases hload
          exact absurd (by decide) hneg
        · refine @ih hmem a t ?_
          unfold value
          rw [hrest]

section Refused

variable (sha256d : Text → Txid) (order : List (Address × CMPTally))
  (databases : CMPCrowd → List (Txid × List Int)) (s node : State)

theorem isFieldMark_digit (c : Char) (h : c.isDigit = true) : isFieldMark c = false := by
  unfold isFieldMark
  rw [Bool.or_eq_false_iff, Bool.or_eq_false_iff, beq_eq_false_iff_ne, beq_eq_false_iff_ne,
    beq_eq_false_iff_ne]
  refine ⟨⟨?_, ?_⟩, ?_⟩
  all_goals
    rintro rfl
    revert h
    decide

/-- The line of the globals has three fields. -/
theorem split_globalsLine : split isFieldMark
    (joinWith ',' [decInt s.exodusPrev, decNat (s.sps.peekNextSPID 1),
      decNat (s.sps.peekNextSPID 2)]) =
    [decInt s.exodusPrev, decNat (s.sps.peekNextSPID 1), decNat (s.sps.peekNextSPID 2)] := by
  refine split_joinWith rfl (by simp) ?_ ?_
  · intro t ht
    rcases List.mem_cons.mp ht with rfl | ht
    · exact free_decInt isFieldMark_digit rfl _
    · rcases List.mem_cons.mp ht with rfl | ht
      · exact free_decNat isFieldMark_digit _
      · rw [List.mem_singleton.mp ht]
        exact free_decNat isFieldMark_digit _
  · intro t ht
    rcases List.mem_cons.mp ht with rfl | ht
    · exact decInt_ne_nil _
    · rcases List.mem_cons.mp ht with rfl | ht
      · exact decNat_ne_nil _
      · rw [List.mem_singleton.mp ht]
        exact decNat_ne_nil _

/-- Its reader refuses the line of the globals. -/
theorem inputGlobals_refuses :
    ∀ line ∈ writeGlobalsState s, inputGlobalsStateString line node = .ok (-1) node := by
  intro line hline
  rw [List.mem_singleton.mp hline]
  unfold inputGlobalsStateString
  rw [split_globalsLine]
  rfl

/-- A line of numbers and commas: neither a comment nor a hash, and the only one in its line. -/
theorem globalsLine_plain {line : Text} (hline : line ∈ writeGlobalsState s) :
    line ≠ [] ∧ (∀ c ∈ line, c.isDigit = true ∨ c = '-' ∨ c = ',') := by
  rw [List.mem_singleton.mp hline]
  have hdigit : ∀ n, ∀ c ∈ decNat n, c.isDigit = true ∨ c = '-' ∨ c = ',' :=
    fun n c hc => Or.inl (isDigit_of_mem_decNat hc)
  have hsigned : ∀ n, ∀ c ∈ decInt n, c.isDigit = true ∨ c = '-' ∨ c = ',' := by
    intro n c hc
    cases n with
    | ofNat n => exact hdigit n c hc
    | negSucc n =>
        rcases List.mem_cons.mp hc with rfl | hc
        · exact Or.inr (Or.inl rfl)
        · exact hdigit (n + 1) c hc
  constructor
  · simp [joinWith]
  · intro c hc
    simp only [joinWith, List.mem_append, List.mem_cons] at hc
    rcases hc with hc | rfl | hc | rfl | hc
    · exact hsigned _ c hc
    · exact Or.inr (Or.inr rfl)
    · exact hdigit _ c hc
    · exact Or.inr (Or.inr rfl)
    · exact hdigit _ c hc

/-- Reading stops at the line of the globals. -/
theorem loadLines_globals {line : Text} (hline : line ∈ writeGlobalsState s) (rest : List Text)
    (h : FileHash) :
    loadLines inputGlobalsStateString true (line :: rest) h node = .ok none node := by
  obtain ⟨hne, hchars⟩ := globalsLine_plain s hline
  have hno : ∀ d, ¬ (d.isDigit = true ∨ d = '-' ∨ d = ',') → d ∉ line :=
    fun d hd hmem => hd (hchars d hmem)
  have hhead : ∀ d, ¬ (d.isDigit = true ∨ d = '-' ∨ d = ',') → line.head? ≠ some d :=
    fun d hd heq => hno d hd (List.mem_of_head? heq)
  have hreturn : line.filter (· != '\r') = line := by
    refine List.filter_eq_self.mpr fun c hc => bne_iff_ne.mpr ?_
    rintro rfl
    exact hno '\r' (by decide) hc
  have hcomment : ¬ (line = [] ∨ line.head? = some '#') := by
    rintro (h | h)
    · exact hne h
    · exact hhead '#' (by decide) h
  rw [loadLines, if_neg hcomment, hreturn]
  dsimp only
  rw [if_neg (hhead '!' (by decide))]
  show EStateM.bind (inputGlobalsStateString line) _ node = _
  unfold EStateM.bind
  rw [inputGlobals_refuses s node line hline]
  rfl

/-- The file of the globals starts with their line. -/
theorem splitOn_globals : ∃ line ∈ writeGlobalsState s, ∃ rest,
    (writeStateFile sha256d order databases s .globals).splitOn '\n' = line :: rest := by
  obtain ⟨line, hlines⟩ : ∃ line, writeGlobalsState s = [line] := ⟨_, rfl⟩
  have hmem : line ∈ writeGlobalsState s := by
    rw [hlines]
    exact List.mem_singleton_self line
  have hfree : '\n' ∉ line := by
    intro hc
    exact absurd ((globalsLine_plain s hmem).2 '\n' hc) (by decide)
  have hcontent : writeStateFile sha256d order databases s .globals =
      line ++ '\n' :: (('!' :: txidText (sha256d (writeGlobalsState s).flatten)) ++ ['\n']) := by
    unfold writeStateFile stateLines
    rw [hlines]
    simp
  exact ⟨line, hmem, _, by rw [hcontent, List.splitOn_append_cons_self_of_not_mem hfree]⟩

/-- The file of the globals is refused, whatever state was saved. -/
theorem load_globals_refused :
    mscFileLoad sha256d (mastercoreSaveState sha256d order databases s .globals) .globals true node =
      .ok (-1) node := by
  obtain ⟨line, hline, rest, hlines⟩ := splitOn_globals sha256d order databases s
  show EStateM.bind (loadLines inputGlobalsStateString true
    ((writeStateFile sha256d order databases s .globals).splitOn '\n') {}) _ node = _
  rw [hlines]
  unfold EStateM.bind
  rw [loadLines_globals s node hline rest {}]
  rfl

end Refused

/-- **NO SAVED STATE IS EVER LOADED**: the file of the globals is refused, and the block is discarded. -/
theorem saved_state_never_loads (sha256d : Text → Txid) (order : List (Address × CMPTally))
    (databases : CMPCrowd → List (Txid × List Int)) (s node : State) :
    ¬ SavedStateLoads sha256d order databases s node ∧
      ¬ ∃ res, value (loadStateFiles sha256d (mastercoreSaveState sha256d order databases s)
        fileTypes (-1)) node = some res ∧ 0 ≤ res := by
  constructor
  · intro h
    obtain ⟨res, hvalue, hres⟩ := h.accepted .globals
    unfold value at hvalue
    rw [load_globals_refused] at hvalue
    cases hvalue
    exact absurd hres (by decide)
  · rintro ⟨res, hvalue, hres⟩
    have hrefused := loadStateFiles_refused (by decide : FileType.globals ∈ fileTypes)
      (fun node => load_globals_refused sha256d order databases s node) hvalue
    exact absurd hrefused (not_lt.mpr hres)

set_option maxRecDepth 8000 in
/-- The globals of a fresh node are written as `0,3,2147483651`, and not read back. -/
theorem fresh_globals_refused : ¬ SavedStateLoads (fun _ => 0) [] (fun _ => [])
    (State.fresh regTestParams) (State.fresh regTestParams) := by
  intro h
  obtain ⟨res, hvalue, hres⟩ := h.accepted .globals
  have hload : value (mscFileLoad (fun _ => 0) (mastercoreSaveState (fun _ => 0) []
      (fun _ => []) (State.fresh regTestParams) .globals) .globals true) (State.fresh regTestParams) =
      some (-1) := by
    decide +kernel
  rw [hload] at hvalue
  cases hvalue
  exact absurd hres (by decide)

end OmniCore
