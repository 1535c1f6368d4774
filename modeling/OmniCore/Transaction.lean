import OmniCore.Ledger

/-! # Transaction — an interpreted payload

    `CMPTransaction` after `interpret_Transaction`: the fields the logic functions
    read, at the width they have on the wire, and the error codes they return. -/

namespace OmniCore

open TextRec Exec

/-- An interpreted transaction. A field its type does not carry keeps the value of `SetNull`. -/
structure CMPTransaction where
  txid : Txid
  block : Nat
  txIdx : Nat := 0
  txFeePaid : Int := 0
  sender : Address
  /-- empty if no reference address was found -/
  receiver : Option Address := none
  type : UInt16
  version : UInt16 := 0
  nValue : UInt64 := 0
  nNewValue : UInt64 := 0
  property : UInt32 := 0
  ecosystem : UInt8 := 0
  propType : UInt16 := 0
  category : Text := []
  subcategory : Text := []
  name : Text := []
  url : Text := []
  data : Text := []
  deadline : UInt64 := 0
  earlyBird : UInt8 := 0
  percentage : UInt8 := 0
  desiredProperty : UInt32 := 0
  desiredValue : UInt64 := 0
  amountDesired : UInt64 := 0
  blocktimelimit : UInt8 := 0
  minFee : UInt64 := 0
  subaction : UInt8 := 0
  distributionProperty : UInt32 := 0
  effectivePrice : UInt64 := 0
  tradingAction : UInt8 := 0
  blocksUntilExpiration : UInt32 := 0
  notionalSize : UInt32 := 0
  collateralCurrency : UInt32 := 0
  marginRequirement : UInt32 := 0
  featureId : UInt16 := 0
  activationBlock : UInt32 := 0
  minClientVersion : UInt32 := 0
  prevPropId : UInt32 := 0
  /-- depreciated -/
  action : UInt8 := 0
  alertType : UInt16 := 0
  alertExpiry : UInt32 := 0
  alertText : Text := []

/-! ## Error codes -/

/-- `PKT_ERROR`. -/
def pktError : Int := -9000

/-- `PKT_ERROR_SP`. -/
def pktErrorSP : Int := -40000

/-- `PKT_ERROR_METADEX`. -/
def pktErrorMetaDEx : Int := -80000

/-- `METADEX_ERROR`. -/
def metaDExError : Int := -81000

/-! ## Records of the transaction list -/

/-- `uint256::ToString`. -/
def txidText (t : Txid) : Text := hexNat 64 t

theorem txidText_inj {a b : Txid} (ha : a < 2 ^ 256) (hb : b < 2 ^ 256)
    (h : txidText a = txidText b) : a = b := by
  have hpow : (2 : Nat) ^ 256 = 16 ^ 64 := by norm_num
  rw [hpow] at ha hb
  exact hexNat_inj ha hb h

/-- Separator of the fields of a database value. -/
def isColon (c : Char) : Bool := c == ':'

theorem isColon_of_isDigit (c : Char) (h : c.isDigit = true) : isColon c = false := by
  unfold isColon
  rw [beq_eq_false_iff_ne]
  rintro rfl
  exact absurd h (by decide)

theorem isColon_of_isBase58 (c : Char) (h : isBase58 c = true) : isColon c = false := by
  unfold isColon
  rw [beq_eq_false_iff_ne]
  rintro rfl
  exact absurd h (by decide)

/-- A field of a database value: not empty and without the separator. -/
def IsField (t : Text) : Prop := Free isColon t ∧ t ≠ []

theorem isField_decNat (n : Nat) : IsField (decNat n) :=
  ⟨free_decNat isColon_of_isDigit n, decNat_ne_nil n⟩

theorem isField_decInt (n : Int) : IsField (decInt n) :=
  ⟨free_decInt isColon_of_isDigit (by decide) n, decInt_ne_nil n⟩

theorem isField_address (a : Address) : IsField a.text :=
  ⟨a.free_text isColon_of_isBase58, a.ne_nil⟩

theorem isField_txidText (t : Txid) : IsField (txidText t) := by
  refine ⟨free_hexNat (by decide) 64 t, fun h => ?_⟩
  have hlen := length_hexNat 64 t
  unfold txidText at h
  rw [h] at hlen
  cases hlen

theorem split_record {l : List Text} (hl : l ≠ []) (h : ∀ t ∈ l, IsField t) :
    split isColon (joinWith ':' l) = l :=
  split_joinWith rfl hl (fun t ht => (h t ht).1) (fun t ht => (h t ht).2)

/-- The fourth field of a master record, a count; 0 if there is no such record. -/
def existingCount (db : TextDB) (key : Text) : Option Int :=
  match db[key]? with
  | none => none
  | some value =>
      match split isColon value with
      | _ :: _ :: _ :: n :: _ => some (atoi n)
      | _ => none

/-- `recordMetaDExCancelTX`: a master record that counts the cancelled orders, and one sub-record for
    each. -/
def recordMetaDExCancelTX (txidMaster txidSub : Txid) (fValid : Bool) (nBlock : Nat)
    (propertyId : PropertyId) (nValue : Int) : ExecM Unit :=
  modify fun s =>
    let key := txidText txidMaster ++ ['-', 'C']
    let refNumber := match existingCount s.txList key with
      | some n => Machine.toUInt32 (n + 1)
      | none => 1
    let value := joinWith ':' [if fValid then ['1'] else ['0'], decNat nBlock,
      decNat 99992104, decInt refNumber]
    let subValue := joinWith ':' [txidText txidSub, decNat propertyId,
      decInt (Machine.toUInt64 nValue)]
    { s with txList := (s.txList.insert key value).insert (key ++ decInt refNumber) subValue }

/-- `recordContractDexCancelTX`, the same code. -/
def recordContractDexCancelTX (txidMaster txidSub : Txid) (fValid : Bool) (nBlock : Nat)
    (propertyId : PropertyId) (nValue : Int) : ExecM Unit :=
  recordMetaDExCancelTX txidMaster txidSub fValid nBlock propertyId nValue

end OmniCore
