import OmniCore.MetaDExCancel
import OmniCore.Lib.Lines

/-! # MetaDExReserve — what the book keeps in reserve

    What the resting orders of an address keep is a sum over three nested maps. Every write
    of the market changes one price level, so the sum moves by what the level gains or
    loses; a cancel or a shutdown takes a whole list of orders out. -/

namespace OmniCore

open Std (ExtTreeMap)
open Machine TextRec MapSum Exec

/-! ## The sum, level by level -/

/-- What the orders of a price level keep for an address. -/
def levelReserved (level : MdSet) (a : Address) (p : PropertyId) : Int :=
  msum level fun _ o => o.reservedFor a p

theorem levelReserved_empty (a : Address) (p : PropertyId) : levelReserved ∅ a p = 0 := msum_empty _

theorem sum_flatMap {α β : Type} (l : List α) (f : α → List β) (g : β → Int) :
    ((l.flatMap f).map g).sum = (l.map fun x => ((f x).map g).sum).sum := by
  induction l with
  | nil => rfl
  | cons x rest ih =>
      rw [List.flatMap_cons, List.map_append, List.sum_append, ih, List.map_cons, List.sum_cons]

/-- The sum over the book is nested as the book is. -/
theorem mdReserved_eq (s : State) (a : Address) (p : PropertyId) : s.mdReserved a p =
    msum s.metadex fun _ prices => msum prices fun _ level => levelReserved level a p := by
  unfold State.mdReserved State.mdOrders
  rw [sum_flatMap]
  refine congrArg List.sum (List.map_congr_left fun prices _ => ?_)
  rw [sum_flatMap]
  refine congrArg List.sum (List.map_congr_left fun indexes _ => ?_)
  rw [List.map_map]
  rfl

/-- **WRITING A LEVEL** moves the sum by what the level gains. -/
theorem mdReserved_setMdLevel (s : State) (p : PropertyId) (price : ℚ) (set : MdSet) (a : Address)
    (q : PropertyId) : (s.setMdLevel p price set).mdReserved a q =
      s.mdReserved a q + (levelReserved set a q - levelReserved (s.mdLevel p price) a q) := by
  have hprices : msum (∅ : MdPricesMap) (fun _ level => levelReserved level a q) = 0 := msum_empty _
  rw [mdReserved_eq, mdReserved_eq]
  show msum (s.metadex.insert p ((s.mdPrices p).insert price set))
    (fun _ prices => msum prices fun _ level => levelReserved level a q) = _
  rw [msum_insert_getD s.metadex p ((s.mdPrices p).insert price set) ∅
      (f := fun prices => msum prices fun _ level => levelReserved level a q) hprices,
    show (s.metadex[p]?).getD ∅ = s.mdPrices p from rfl,
    msum_insert_getD (s.mdPrices p) price set ∅ (f := fun level => levelReserved level a q)
      (levelReserved_empty a q)]
  show _ + (_ + (levelReserved set a q - levelReserved (s.mdLevel p price) a q) - _) = _
  ring

theorem mdReserved_congr {s s' : State} (h : s'.metadex = s.metadex) (a : Address) (p : PropertyId) :
    s'.mdReserved a p = s.mdReserved a p := by
  rw [mdReserved_eq, mdReserved_eq, h]

/-! ## One order -/

/-- A new order at a free place. -/
theorem levelReserved_insert {level : MdSet} {o : CMPMetaDEx} (h : level[o.key]? = none)
    (a : Address) (p : PropertyId) :
    levelReserved (level.insert o.key o) a p = levelReserved level a p + o.reservedFor a p := by
  unfold levelReserved
  rw [msum_insert_sub, h, Option.elim_none, sub_zero]

/-- What is left of a matched order keeps less. -/
theorem levelReserved_replace {level : MdSet} {pold : CMPMetaDEx} {k : OrderKey} {left : Int}
    (h : level[k]? = some pold) (hkey : pold.key = k) (hleft : 0 ≤ left) (a : Address)
    (p : PropertyId) :
    levelReserved (mdReplaceMatched level { pold with amountRemaining := left }) a p =
      levelReserved level a p - (if a = pold.addr ∧ p = pold.property then
        pold.amountRemaining - left else 0) := by
  have hk : CMPMetaDEx.key { pold with amountRemaining := left } = k := hkey
  have hold : pold.reservedFor a p = if a = pold.addr ∧ p = pold.property then
      pold.amountRemaining else 0 := by
    unfold CMPMetaDEx.reservedFor
    exact if_congr ⟨fun hh => ⟨hh.1.symm, hh.2.symm⟩, fun hh => ⟨hh.1.symm, hh.2.symm⟩⟩ rfl rfl
  have hnew : CMPMetaDEx.reservedFor { pold with amountRemaining := left } a p =
      if a = pold.addr ∧ p = pold.property then left else 0 := by
    unfold CMPMetaDEx.reservedFor
    exact if_congr ⟨fun hh => ⟨hh.1.symm, hh.2.symm⟩, fun hh => ⟨hh.1.symm, hh.2.symm⟩⟩ rfl rfl
  have herased : msum (level.erase k) (fun _ o => o.reservedFor a p) =
      levelReserved level a p - if a = pold.addr ∧ p = pold.property then
        pold.amountRemaining else 0 := by
    rw [msum_erase_sub, h, Option.elim_some, hold]
    rfl
  unfold mdReplaceMatched
  rw [hk]
  by_cases hpos : 0 < left
  · rw [if_pos hpos]
    unfold levelReserved
    rw [msum_insert_sub, getElem?_erase_eq, if_pos rfl, Option.elim_none, sub_zero, herased, hnew]
    unfold levelReserved
    split
    · ring
    · ring
  · have hzero : left = 0 := by omega
    subst hzero
    rw [if_neg hpos]
    unfold levelReserved at herased ⊢
    rw [herased, sub_zero]

/-! ## Many orders -/

/-- No two resting orders have the same place. -/
theorem nodup_mdOrders (s : State) :
    (s.mdOrders.map fun e => (e.property, e.price, e.key)).Nodup := by
  have hnested : (s.mdOrders.map fun e => (e.property, e.price, e.key)) =
      s.metadex.toList.flatMap fun prices => (prices.2.toList.flatMap fun indexes =>
        indexes.2.keys.map (Prod.mk indexes.1)).map (Prod.mk prices.1) := by
    unfold State.mdOrders
    simp only [List.map_flatMap, List.map_map, ← ExtTreeMap.map_fst_toList_eq_keys]
    rfl
  rw [hnested]
  exact nodup_entries (fun prices : MdPricesMap =>
    nodup_entries (fun level : MdSet => level.nodup_keys) prices) s.metadex

/-- An order is the only one at its place. -/
theorem mdPlaced_eq {s : State} {e x : MdPlaced} (he : e ∈ s.mdOrders) (hx : x ∈ s.mdOrders)
    (hat : x.At e.property e.price e.key) : x = e := by
  have horder := mem_mdOrders.mp he
  have horder' := mem_mdOrders.mp hx
  obtain ⟨hp, hprice, hkey⟩ := hat
  rw [hp, hprice, hkey, horder] at horder'
  cases e
  cases x
  simp only [MdPlaced.mk.injEq]
  exact ⟨hp, hprice, hkey, (Option.some.inj horder').symm⟩

/-- **WHAT STAYS** when some of the orders are taken out: the others. -/
theorem TakenOut.mdOrders {s s' : State} {sel : MdPlaced → Bool}
    (h : TakenOut (s.mdOrders.filter sel) s s') :
    s'.mdOrders.Perm (s.mdOrders.filter fun e => !sel e) := by
  refine (List.perm_ext_iff_of_nodup (List.Nodup.of_map _ (nodup_mdOrders s'))
    ((List.Nodup.of_map _ (nodup_mdOrders s)).filter _)).mpr fun e => ?_
  rw [mem_mdOrders, List.mem_filter]
  by_cases htaken : ∃ x ∈ s.mdOrders.filter sel, x.At e.property e.price e.key
  · rw [h.gone _ _ _ htaken]
    obtain ⟨x, hx, hat⟩ := htaken
    obtain ⟨hmem, hsel⟩ := List.mem_filter.mp hx
    constructor
    · intro hnone
      cases hnone
    · rintro ⟨he, hnot⟩
      rw [mdPlaced_eq he hmem hat] at hsel
      rw [hsel] at hnot
      cases hnot
  · rw [h.kept _ _ _ htaken]
    constructor
    · intro hrests
      have he := mem_mdOrders.mpr hrests
      refine ⟨he, ?_⟩
      cases hsel : sel e with
      | false => rfl
      | true => exact absurd ⟨e, List.mem_filter.mpr ⟨he, hsel⟩, rfl, rfl, rfl⟩ htaken
    · exact fun hh => mem_mdOrders.mp hh.1

/-- What the orders of a list keep, and what the others keep. -/
theorem mdReserved_split (s : State) (sel : MdPlaced → Bool) (a : Address) (p : PropertyId) :
    s.mdReserved a p = reservedSum ((s.mdOrders.filter sel).map MdPlaced.order) a p +
      ((s.mdOrders.filter fun e => !sel e).map fun e => e.order.reservedFor a p).sum := by
  unfold State.mdReserved
  induction s.mdOrders with
  | nil => rfl
  | cons e rest ih =>
      rw [List.map_cons, List.sum_cons, ih, List.filter_cons, List.filter_cons]
      cases sel e with
      | true =>
          rw [if_pos rfl, List.map_cons, reservedSum_cons, Bool.not_true, if_neg Bool.false_ne_true]
          ring
      | false =>
          rw [if_neg Bool.false_ne_true, Bool.not_false, if_pos rfl, List.map_cons, List.sum_cons]
          ring

/-- What the orders that stay keep. -/
theorem TakenOut.mdReserved {s s' : State} {sel : MdPlaced → Bool}
    (h : TakenOut (s.mdOrders.filter sel) s s') (a : Address) (p : PropertyId) :
    s'.mdReserved a p =
      s.mdReserved a p - reservedSum ((s.mdOrders.filter sel).map MdPlaced.order) a p := by
  rw [mdReserved_split s sel]
  unfold State.mdReserved
  rw [(h.mdOrders.map fun e : MdPlaced => e.order.reservedFor a p).sum_eq]
  ring

end OmniCore
