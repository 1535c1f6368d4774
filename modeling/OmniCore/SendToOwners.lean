import OmniCore.Ledger

/-! # SendToOwners — splitting an amount between all holders

    `STO_GetReceivers` collects the holders of a property, largest first, and gives each
    the rounded-up share of what they own until the amount is used up. The distribution
    of fees and the send-to-owners transaction both use it. -/

namespace OmniCore

open Std (ExtTreeMap TransCmp LawfulEqCmp)
open Machine TextRec MapSum Exec

/-! ## Owners in order -/

/-- `SendToOwners_compare`: by amount, and the other way round by address. -/
def ownerCmp : Int × Address → Int × Address → Ordering :=
  compareLex (compareOn Prod.fst) (fun a b => compareOn Prod.snd b a)

instance : TransCmp ownerCmp :=
  inferInstanceAs (TransCmp (compareLex (compareOn Prod.fst) (fun a b => compareOn Prod.snd b a)))

instance : LawfulEqCmp ownerCmp where
  compare_self := by
    intro a
    simp [ownerCmp, compareLex, compareOn]
  eq_of_compare := by
    intro a b h
    simp only [ownerCmp, compareLex, compareOn, Ordering.then_eq_eq] at h
    exact Prod.ext (Std.LawfulEqOrd.eq_of_compare h.1) (Std.LawfulEqOrd.eq_of_compare h.2).symm

/-- `OwnerAddrType`: a set of amounts and addresses, sorted by amount. -/
abbrev OwnerAddrType := ExtTreeMap (Int × Address) Unit ownerCmp

/-- The elements in the order of a reverse iterator. -/
def OwnerAddrType.descending (o : OwnerAddrType) : List (Int × Address) :=
  (o.toList.map Prod.fst).reverse

/-! ## The split -/

/-- What an address holds of a property, reserved or not. -/
def CMPTally.held (t : CMPTally) (p : PropertyId) : Int :=
  t.getMoney p .balance + t.getMoney p .sellOfferReserve + t.getMoney p .acceptReserve +
    t.getMoney p .metaDExReserve

/-- One step of the walk over the tally map: the total without the sender, and the owners. -/
def collectOwner (sender : Option Address) (property : PropertyId) (acc : Int × OwnerAddrType)
    (e : Address × CMPTally) : ExecM (Int × OwnerAddrType) := do
  let tokens ← signed64 (e.2.held property)
  -- do not include the sender
  if sender = some e.1 then
    pure acc
  else
    let totalTokens ← signed64 (acc.1 + tokens)
    pure (totalTokens, if 0 < tokens then acc.2.insert (tokens, e.1) () else acc.2)

/-- The shares of the owners, in their order; stops once the whole amount is allocated. -/
def allocate (amount totalTokens : Int) :
    List (Int × Address) → Int → OwnerAddrType → ExecM OwnerAddrType
  | [], _, receiversSet => pure receiversSet
  | (tokens, address) :: rest, sentSoFar, receiversSet => do
      let owns ← convertTo256 tokens
      let amount256 ← convertTo256 amount
      let total256 ← convertTo256 totalTokens
      let shouldReceive ← convertTo64 (divideAndRoundUp (mul256 owns amount256) total256)
      -- ensure that no more than available is distributed
      let willReallyReceive :=
        if amount - sentSoFar < shouldReceive then amount - sentSoFar else shouldReceive
      if 0 < willReallyReceive then
        allocate amount totalTokens rest (sentSoFar + willReallyReceive)
          (receiversSet.insert (willReallyReceive, address) ())
      else
        pure receiversSet

/-- `STO_GetReceivers`; no sender is excluded for the distribution of fees. -/
def stoGetReceivers (sender : Option Address) (property : PropertyId) (amount : Int) :
    ExecM OwnerAddrType := do
  let s ← get
  let (totalTokens, ownerAddrSet) ←
    s.tallyMap.toList.foldlM (collectOwner sender property) (0, ∅)
  allocate amount totalTokens (OwnerAddrType.descending ownerAddrSet) 0 ∅

end OmniCore
