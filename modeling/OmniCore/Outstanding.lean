import OmniCore.FeeCache
import OmniCore.Supply
import OmniCore.Lib.Listing

/-! # Outstanding — tokens held by addresses or cached as fees

    A trading fee leaves the ledger when it is cached and comes back when it is distributed.
    What is outstanding of a property is therefore counted in both places. Every step that
    touches one of them says by how much it shifts the count, and a whole operation is the
    sum of its shifts. -/

namespace OmniCore

open Std (ExtTreeMap)
open Machine TextRec MapSum Exec

/-! ## Stored items -/

/-- Items as the cache stores them up to a height: one for each block, in order. -/
structure FeeItemsOk (height : Int) (items : List (Int × Int)) : Prop where
  ne : items ≠ []
  sorted : items.Pairwise fun a b => a.1 < b.1
  blocks : ∀ item ∈ items, IsInt64 item.1 ∧ item.1 ≤ height
  amounts : ∀ item ∈ items, IsInt64 item.2

theorem FeeItemsOk.mono {height height' : Int} {items : List (Int × Int)} (h : FeeItemsOk height items)
    (hle : height ≤ height') : FeeItemsOk height' items :=
  ⟨h.ne, h.sorted, fun item hitem => ⟨(h.blocks item hitem).1, (h.blocks item hitem).2.trans hle⟩,
    h.amounts⟩

/-- The amount of the last item. -/
def newestAmount (items : List (Int × Int)) : Int := (items.getLast?.map Prod.snd).getD 0

theorem isComma_of_isDigit (c : Char) (h : c.isDigit = true) : isComma c = false := by
  unfold isComma
  rw [beq_eq_false_iff_ne]
  rintro rfl
  exact absurd h (by decide)

theorem free_comma_feeItemText (item : Int × Int) : Free isComma (feeItemText item) := by
  intro c hc
  simp only [feeItemText, joinWith, List.mem_append, List.mem_cons] at hc
  rcases hc with hc | rfl | hc
  · exact free_decInt isComma_of_isDigit (by decide) item.1 c hc
  · decide
  · exact free_decInt isComma_of_isDigit (by decide) item.2 c hc

theorem feeItemText_ne_nil (item : Int × Int) : feeItemText item ≠ [] := by
  have hne := decInt_ne_nil item.1
  simp [feeItemText, joinWith]

theorem split_feeItemText (item : Int × Int) :
    split isColon (feeItemText item) = [decInt item.1, decInt item.2] := by
  refine split_joinWith (by decide) (by simp) ?_ ?_
  · intro t ht
    rcases List.mem_cons.mp ht with rfl | ht
    · exact free_decInt isColon_of_isDigit (by decide) item.1
    · rw [List.mem_singleton.mp ht]
      exact free_decInt isColon_of_isDigit (by decide) item.2
  · intro t ht
    rcases List.mem_cons.mp ht with rfl | ht
    · exact decInt_ne_nil item.1
    · rw [List.mem_singleton.mp ht]
      exact decInt_ne_nil item.2

theorem castInt_decInt64 {n : Int} (h : IsInt64 n) : castInt 64 (decInt n) = some n := by
  unfold IsInt64 minInt64 maxInt64 at h
  exact castInt_decInt (by norm_num; omega) (by norm_num; omega)

/-- A stored item reads back as itself. -/
theorem readFeeItem_text {item : Int × Int} (hblock : IsInt64 item.1) (hamount : IsInt64 item.2)
    (h : FeeCacheItems) : readFeeItem h (feeItemText item) = pure (h.insert item ()) := by
  unfold readFeeItem
  rw [split_feeItemText]
  dsimp only
  rw [castInt_decInt64 hblock, castInt_decInt64 hamount]

theorem foldlM_readFeeItem {items : List (Int × Int)}
    (h : ∀ item ∈ items, IsInt64 item.1 ∧ IsInt64 item.2) (acc : FeeCacheItems) :
    (items.map feeItemText).foldlM readFeeItem acc =
      (pure (items.foldl (fun h item => h.insert item ()) acc) : ExecM FeeCacheItems) := by
  induction items generalizing acc with
  | nil => rfl
  | cons item rest ih =>
      have hitem := h item List.mem_cons_self
      rw [List.map_cons, List.foldlM_cons, readFeeItem_text hitem.1 hitem.2, pure_bind,
        ih fun i hi => h i (List.mem_cons_of_mem item hi)]
      rfl

theorem mem_foldl_insert {items : List (Int × Int)} {acc : FeeCacheItems} {x : Int × Int} :
    x ∈ (items.foldl (fun h item => h.insert item ()) acc).items ↔ x ∈ items ∨ x ∈ acc.items := by
  induction items generalizing acc with
  | nil => simp
  | cons item rest ih =>
      rw [List.foldl_cons, ih, List.mem_cons]
      have hinsert : x ∈ (FeeCacheItems.items (acc.insert item ())) ↔ x = item ∨ x ∈ acc.items := by
        unfold FeeCacheItems.items
        rw [ExtTreeMap.map_fst_toList_eq_keys, ExtTreeMap.map_fst_toList_eq_keys,
          ExtTreeMap.mem_keys, ExtTreeMap.mem_keys, ExtTreeMap.mem_insert]
        constructor
        · rintro (heq | hmem)
          · exact Or.inl (Std.LawfulEqCmp.eq_of_compare heq).symm
          · exact Or.inr hmem
        · rintro (rfl | hmem)
          · exact Or.inl Std.ReflCmp.compare_self
          · exact Or.inr hmem
      rw [hinsert]
      tauto

/-- The set of the items lists them in their order. -/
theorem items_foldl_insert {items : List (Int × Int)}
    (h : items.Pairwise fun a b => a.1 < b.1) :
    (items.foldl (fun (h : FeeCacheItems) item => h.insert item ()) ∅).items = items := by
  have hlt : items.Pairwise fun a b => pairCmp a b = .lt := by
    refine h.imp fun {a b} hab => ?_
    have hcmp : compare a.1 b.1 = .lt := Int.compare_eq_lt.mpr hab
    simp [pairCmp, compareLex, compareOn, hcmp]
  have hset := pairwise_keys (items.foldl (fun (h : FeeCacheItems) item => h.insert item ()) ∅)
  have hasymm : ∀ a b : Int × Int, pairCmp a b = .lt → pairCmp b a = .lt → a = b := by
    intro a b hab hba
    have hswap : pairCmp b a = (pairCmp a b).swap := Std.OrientedCmp.eq_swap
    rw [hswap, hab] at hba
    cases hba
  have hperm : (items.foldl (fun (h : FeeCacheItems) item => h.insert item ()) ∅).items.Perm
      items := by
    have hne : ∀ {l : List (Int × Int)}, (l.Pairwise fun a b => pairCmp a b = .lt) → l.Nodup := by
      intro l hl
      refine hl.imp ?_
      rintro a _ hab rfl
      have hself : pairCmp a a = .eq := Std.ReflCmp.compare_self
      rw [hself] at hab
      cases hab
    refine (List.perm_ext_iff_of_nodup (hne hset) (hne hlt)).mpr fun x => ?_
    refine mem_foldl_insert.trans ?_
    have hempty : x ∉ FeeCacheItems.items ∅ := by
      unfold FeeCacheItems.items
      rw [toList_empty]
      exact List.not_mem_nil
    tauto
  exact List.Perm.eq_of_pairwise (fun a b _ _ hab hba => hasymm a b hab hba) hset hlt hperm

/-! ## The cache of a node -/

/-- The fee cache holds, for every property, nothing or stored items up to the height. -/
def FeeCacheOk (height : Int) (s : State) : Prop :=
  ∀ p, s.feeCache[feeKey p]? = none ∨
    ∃ items, s.feeCache[feeKey p]? = some (feeValue items) ∧ FeeItemsOk height items

theorem FeeCacheOk.mono {height height' : Int} {s : State} (h : FeeCacheOk height s)
    (hle : height ≤ height') : FeeCacheOk height' s := by
  intro p
  rcases h p with hnone | ⟨items, hitems, hok⟩
  · exact Or.inl hnone
  · exact Or.inr ⟨items, hitems, hok.mono hle⟩

theorem feeCacheOk_empty {height : Int} {s : State} (h : s.feeCache = ∅) : FeeCacheOk height s := by
  intro p
  rw [h]
  exact Or.inl ExtTreeMap.getElem?_empty

theorem feeKey_injective : Function.Injective feeKey := padNat_injective 10

/-- What `GetCachedAmount` answers. -/
def State.cached (s : State) (p : PropertyId) : Int := (value (getCachedAmount p) s).getD 0

/-- What is stored under the key of a property is what is read. -/
theorem getCacheHistory_stored {s : State} {p : PropertyId} {text : Text}
    (hkey : s.feeCache[feeKey p]? = some text) :
    getCacheHistory p s = (split isComma text).foldlM readFeeItem ∅ s := by
  unfold getCacheHistory
  simp only [bind, EStateM.bind, get, getThe, MonadStateOf.get, EStateM.get, hkey]

/-- The stored items, as the program sees them. -/
theorem getCacheHistory_items {height : Int} {s : State} {p : PropertyId}
    {items : List (Int × Int)} (hkey : s.feeCache[feeKey p]? = some (feeValue items))
    (hok : FeeItemsOk height items) :
    ∃ h : FeeCacheItems, getCacheHistory p s = .ok h s ∧ h.items = items := by
  have hsplit : split isComma (feeValue items) = items.map feeItemText := by
    refine split_joinWith (by decide) ?_ ?_ ?_
    · simpa using hok.ne
    · intro t ht
      obtain ⟨item, _, rfl⟩ := List.mem_map.mp ht
      exact free_comma_feeItemText item
    · intro t ht
      obtain ⟨item, _, rfl⟩ := List.mem_map.mp ht
      exact feeItemText_ne_nil item
  refine ⟨items.foldl (fun h item => h.insert item ()) ∅, ?_, items_foldl_insert hok.sorted⟩
  rw [getCacheHistory_stored hkey, hsplit, foldlM_readFeeItem fun item hitem =>
    ⟨(hok.blocks item hitem).1, hok.amounts item hitem⟩]
  rfl

theorem getCacheHistory_none {s : State} {p : PropertyId} (hkey : s.feeCache[feeKey p]? = none) :
    getCacheHistory p s = .ok ∅ s := by
  unfold getCacheHistory
  simp only [bind, EStateM.bind, get, getThe, MonadStateOf.get, EStateM.get, hkey, pure,
    EStateM.pure]

theorem cached_of_history {s : State} {p : PropertyId} {h : FeeCacheItems}
    (hrun : getCacheHistory p s = .ok h s) :
    getCachedAmount p s = .ok (s.cached p) s ∧ s.cached p = newestAmount h.items := by
  have hamount : getCachedAmount p s = .ok h.cachedAmount s := by
    unfold getCachedAmount
    simp only [bind, EStateM.bind, hrun]
    rfl
  have hcached : s.cached p = h.cachedAmount := by
    unfold State.cached value
    rw [hamount]
    rfl
  exact ⟨by rw [hcached, hamount], hcached⟩

theorem cached_of_items {height : Int} {s : State} {p : PropertyId} {items : List (Int × Int)}
    (hkey : s.feeCache[feeKey p]? = some (feeValue items)) (hok : FeeItemsOk height items) :
    s.cached p = newestAmount items := by
  obtain ⟨h, hrun, hitems⟩ := getCacheHistory_items hkey hok
  rw [(cached_of_history hrun).2, hitems]

theorem cached_of_none {s : State} {p : PropertyId} (hkey : s.feeCache[feeKey p]? = none) :
    s.cached p = 0 := by
  rw [(cached_of_history (getCacheHistory_none hkey)).2]
  unfold FeeCacheItems.items
  rw [toList_empty]
  rfl

section FeeCacheOk

variable {height : Int} {s s' : State} (h : FeeCacheOk height s)
include h

theorem FeeCacheOk.history (p : PropertyId) :
    ∃ hist : FeeCacheItems, getCacheHistory p s = .ok hist s ∧
      s.cached p = newestAmount hist.items := by
  rcases h p with hnone | ⟨items, hitems, hok⟩
  · exact ⟨∅, getCacheHistory_none hnone, (cached_of_history (getCacheHistory_none hnone)).2⟩
  · obtain ⟨hist, hrun, -⟩ := getCacheHistory_items hitems hok
    exact ⟨hist, hrun, (cached_of_history hrun).2⟩

theorem FeeCacheOk.getCachedAmount (p : PropertyId) :
    getCachedAmount p s = .ok (s.cached p) s := by
  obtain ⟨hist, hrun, -⟩ := h.history p
  exact (cached_of_history hrun).1

theorem FeeCacheOk.wp_getCachedAmount {p : PropertyId} {Q : Int → State → Prop}
    {E : Halt → State → Prop} (hQ : Q (s.cached p) s) : wp (OmniCore.getCachedAmount p) Q E s := by
  rw [wp_iff, h.getCachedAmount]
  exact hQ

/-- A cached amount is read off one entry of the database. -/
theorem FeeCacheOk.cached_congr {p : PropertyId}
    (heq : s'.feeCache[feeKey p]? = s.feeCache[feeKey p]?) : s'.cached p = s.cached p := by
  rcases h p with hnone | ⟨items, hitems, hok⟩
  · rw [cached_of_none hnone, cached_of_none (heq.trans hnone)]
  · rw [cached_of_items hitems hok, cached_of_items (heq.trans hitems) hok]

theorem FeeCacheOk.congr (heq : s'.feeCache = s.feeCache) : FeeCacheOk height s' := by
  intro p
  rw [heq]
  exact h p

end FeeCacheOk

/-! ## Writing the cache -/

theorem newestAmount_append (items : List (Int × Int)) (item : Int × Int) :
    newestAmount (items ++ [item]) = item.2 := by
  rw [newestAmount, List.getLast?_concat]
  rfl

/-- `s'` is `s` with another amount cached for one property. -/
structure CacheSet (s s' : State) (p : PropertyId) (block amount : Int) : Prop where
  only : ∃ cache, s' = { s with feeCache := cache }
  ok : FeeCacheOk block s'
  cached : ∀ q, s'.cached q = if q = p then amount else s.cached q

/-- Writing the items of one property. -/
theorem cacheSet_put {height block amount : Int} {s : State} {p : PropertyId}
    {items : List (Int × Int)} (h : FeeCacheOk height s) (hle : height ≤ block)
    (hitems : FeeItemsOk block items) (hnew : newestAmount items = amount) :
    CacheSet s { s with feeCache := s.feeCache.insert (feeKey p) (feeValue items) } p block amount := by
  have hkey : ∀ q, (s.feeCache.insert (feeKey p) (feeValue items))[feeKey q]? =
      if q = p then some (feeValue items) else s.feeCache[feeKey q]? := by
    intro q
    rw [getElem?_insert_eq]
    by_cases hq : q = p
    · rw [if_pos (congrArg feeKey hq.symm), if_pos hq]
    · rw [if_neg fun heq => hq (feeKey_injective heq).symm, if_neg hq]
  refine ⟨⟨_, rfl⟩, ?_, ?_⟩
  · intro q
    show (s.feeCache.insert (feeKey p) (feeValue items))[feeKey q]? = none ∨
      ∃ items', (s.feeCache.insert (feeKey p) (feeValue items))[feeKey q]? =
        some (feeValue items') ∧ FeeItemsOk block items'
    rw [hkey]
    by_cases hq : q = p
    · rw [if_pos hq]
      exact Or.inr ⟨items, rfl, hitems⟩
    · rw [if_neg hq]
      exact h.mono hle q
  · intro q
    by_cases hq : q = p
    · rw [if_pos hq]
      subst hq
      have hput : (s.feeCache.insert (feeKey q) (feeValue items))[feeKey q]? =
          some (feeValue items) := by
        rw [hkey, if_pos rfl]
      exact (cached_of_items hput hitems).trans hnew
    · rw [if_neg hq]
      refine h.cached_congr ?_
      show (s.feeCache.insert (feeKey p) (feeValue items))[feeKey q]? = _
      rw [hkey, if_neg hq]

/-- The items after a block's amount was replaced, or pruned: the newest stays the newest. -/
theorem feeItemsOk_filter {block : Int} {items : List (Int × Int)} {newest : Int × Int}
    (h : FeeItemsOk block (items ++ [newest])) (keep : Int × Int → Bool) (hkeep : keep newest = true) :
    FeeItemsOk block ((items ++ [newest]).filter keep) ∧
      newestAmount ((items ++ [newest]).filter keep) = newest.2 := by
  have hsplit : (items ++ [newest]).filter keep = items.filter keep ++ [newest] := by
    rw [List.filter_append, List.filter_cons_of_pos hkeep, List.filter_nil]
  refine ⟨⟨?_, h.sorted.filter _, ?_, ?_⟩, ?_⟩
  · rw [hsplit]
    simp
  · exact fun item hitem => h.blocks item (List.mem_of_mem_filter hitem)
  · exact fun item hitem => h.amounts item (List.mem_of_mem_filter hitem)
  · rw [hsplit, newestAmount_append]

/-- The items of earlier blocks, and a new one. -/
theorem feeItemsOk_replace {height block amount : Int} {items : List (Int × Int)}
    (hitems : items = [] ∨ FeeItemsOk height items) (hle : height ≤ block) (hblock : IsInt64 block)
    (hamount : IsInt64 amount) :
    FeeItemsOk block (items.filter (fun item => item.1 != block) ++ [(block, amount)]) := by
  have hold : ∀ item ∈ items, IsInt64 item.1 ∧ item.1 ≤ block ∧ IsInt64 item.2 := by
    intro item hitem
    rcases hitems with rfl | hok
    · cases hitem
    · exact ⟨(hok.blocks item hitem).1, (hok.blocks item hitem).2.trans hle,
        hok.amounts item hitem⟩
  have hsorted : items.Pairwise fun a b => a.1 < b.1 := by
    rcases hitems with rfl | hok
    · exact List.Pairwise.nil
    · exact hok.sorted
  refine ⟨by simp, ?_, ?_, ?_⟩
  · refine List.pairwise_append.mpr ⟨hsorted.filter _, List.pairwise_singleton _ _, ?_⟩
    intro a ha b hb
    have hmem := List.mem_of_mem_filter ha
    have hne : a.1 ≠ block := by simpa using (List.mem_filter.mp ha).2
    rw [List.mem_singleton.mp hb]
    exact lt_of_le_of_ne (hold a hmem).2.1 hne
  · intro item hitem
    rcases List.mem_append.mp hitem with hmem | hmem
    · have hi := hold item (List.mem_of_mem_filter hmem)
      exact ⟨hi.1, hi.2.1⟩
    · rw [List.mem_singleton.mp hmem]
      exact ⟨hblock, le_rfl⟩
  · intro item hitem
    rcases List.mem_append.mp hitem with hmem | hmem
    · exact (hold item (List.mem_of_mem_filter hmem)).2.2
    · rw [List.mem_singleton.mp hmem]
      exact hamount

/-! ## Items -/

/-- The items with the one of a block replaced. -/
def setItem (block amount : Int) (items : List (Int × Int)) : List (Int × Int) :=
  items.filter (fun item => item.1 != block) ++ [(block, amount)]

/-- The items that pruning at a block keeps. -/
def keptItems (debugFees : Bool) (block : Int) (items : List (Int × Int)) : List (Int × Int) :=
  items.filter fun item => !(decide (item.1 < block - maxStateHistory) && debugFees)

/-- The block of the last item. -/
def lastBlock (items : List (Int × Int)) : Int := (items.getLast?.map Prod.fst).getD 0

theorem lastBlock_setItem (block amount : Int) (items : List (Int × Int)) :
    lastBlock (setItem block amount items) = block := by
  unfold lastBlock setItem
  rw [List.getLast?_concat]
  rfl

theorem newestAmount_setItem (block amount : Int) (items : List (Int × Int)) :
    newestAmount (setItem block amount items) = amount := newestAmount_append _ _

/-- Replacing twice is replacing once. -/
theorem setItem_setItem (block amount amount' : Int) (items : List (Int × Int)) :
    setItem block amount' (setItem block amount items) = setItem block amount' items := by
  unfold setItem
  rw [List.filter_append, List.filter_filter]
  simp

/-- Pruning the items that an earlier pruning kept. -/
theorem keptItems_setItem_kept (debugFees : Bool) {block block' amount : Int}
    (hle : block' ≤ block) (items : List (Int × Int)) :
    keptItems debugFees block (setItem block amount (keptItems debugFees block' items)) =
      keptItems debugFees block (setItem block amount items) := by
  unfold keptItems setItem
  rw [List.filter_append, List.filter_append, List.filter_filter, List.filter_filter,
    List.filter_filter]
  refine congrArg (· ++ _) (List.filter_congr fun item _ => ?_)
  cases debugFees with
  | false => simp
  | true =>
      by_cases hold : item.1 < block - maxStateHistory
      · simp [hold]
      · have hnew : ¬ item.1 < block' - maxStateHistory := by omega
        simp [hold, hnew]

/-- Pruning at the block of the last item keeps it. -/
theorem keptItems_ok {height : Int} {items : List (Int × Int)} (h : FeeItemsOk height items)
    (debugFees : Bool) :
    FeeItemsOk height (keptItems debugFees (lastBlock items) items) ∧
      newestAmount (keptItems debugFees (lastBlock items) items) = newestAmount items := by
  obtain ⟨init, newest, rfl⟩ := (List.eq_nil_or_concat' items).resolve_left h.ne
  have hlast : lastBlock (init ++ [newest]) = newest.1 := by
    unfold lastBlock
    rw [List.getLast?_concat]
    rfl
  have hnot : ¬ newest.1 < newest.1 - maxStateHistory := by
    unfold maxStateHistory
    omega
  rw [hlast, newestAmount_append]
  exact feeItemsOk_filter h _ (by rw [decide_eq_false hnot]; rfl)

/-! ## Entries of the database -/

/-- An entry with these items; a rollback may leave an empty text. -/
def FeeEntry (height : Int) (value : Option Text) (items : List (Int × Int)) : Prop :=
  (value = none ∨ value = some []) ∧ items = [] ∨
    value = some (feeValue items) ∧ FeeItemsOk height items

theorem FeeEntry.mono {height height' : Int} {value : Option Text} {items : List (Int × Int)}
    (h : FeeEntry height value items) (hle : height ≤ height') : FeeEntry height' value items :=
  h.imp id fun h => ⟨h.1, h.2.mono hle⟩

theorem FeeEntry.items_ok {height : Int} {value : Option Text} {items : List (Int × Int)}
    (h : FeeEntry height value items) : items = [] ∨ FeeItemsOk height items :=
  h.imp And.right And.right

/-- The program sees the items. -/
theorem FeeEntry.history {height : Int} {s : State} {p : PropertyId} {items : List (Int × Int)}
    (h : FeeEntry height s.feeCache[feeKey p]? items) :
    ∃ hist : FeeCacheItems, getCacheHistory p s = .ok hist s ∧ hist.items = items := by
  have hnil : FeeCacheItems.items ∅ = [] := by
    unfold FeeCacheItems.items
    rw [toList_empty]
    rfl
  rcases h with ⟨hnone | hempty, rfl⟩ | ⟨hkey, hok⟩
  · exact ⟨∅, getCacheHistory_none hnone, hnil⟩
  · refine ⟨∅, ?_, hnil⟩
    rw [getCacheHistory_stored hempty]
    rfl
  · exact getCacheHistory_items hkey hok

/-- The amount is that of the last item. -/
theorem FeeEntry.cached {height : Int} {s : State} {p : PropertyId} {items : List (Int × Int)}
    (h : FeeEntry height s.feeCache[feeKey p]? items) :
    getCachedAmount p s = .ok (newestAmount items) s := by
  obtain ⟨hist, hrun, rfl⟩ := h.history
  rw [(cached_of_history hrun).1, (cached_of_history hrun).2]

theorem insert_insert_eq (db : TextDB) (k v v' : Text) : (db.insert k v).insert k v' = db.insert k v' := by
  apply ExtTreeMap.ext_getElem?
  intro k'
  rw [getElem?_insert_eq, getElem?_insert_eq, getElem?_insert_eq]
  split
  · rfl
  · rfl

/-- The state with other items for a property. -/
def putItems (p : PropertyId) (items : List (Int × Int)) (s : State) : State :=
  { s with feeCache := s.feeCache.insert (feeKey p) (feeValue items) }

theorem putFeeCache_run (p : PropertyId) (items : List (Int × Int)) (s : State) :
    putFeeCache p items s = .ok () (putItems p items s) := rfl

theorem feeCache_putItems (p q : PropertyId) (items : List (Int × Int)) (s : State) :
    (putItems p items s).feeCache[feeKey q]? =
      if p = q then some (feeValue items) else s.feeCache[feeKey q]? := by
  show (s.feeCache.insert (feeKey p) (feeValue items))[feeKey q]? = _
  rw [getElem?_insert_eq]
  by_cases hq : p = q
  · rw [if_pos (congrArg feeKey hq), if_pos hq]
  · rw [if_neg fun heq => hq (feeKey_injective heq), if_neg hq]

/-- **PRUNING** keeps the items it should, or finds that nothing has matured. -/
theorem pruneCache_run {p : PropertyId} {block amount : Int} {items : List (Int × Int)} (s : State)
    (hitems : FeeItemsOk block (setItem block amount items)) :
    pruneCache p block (putItems p (setItem block amount items) s) =
      .ok () (putItems p (keptItems s.debugFees block (setItem block amount items)) s) := by
  have hentry : FeeEntry block (putItems p (setItem block amount items) s).feeCache[feeKey p]?
      (setItem block amount items) := by
    rw [feeCache_putItems, if_pos rfl]
    exact Or.inr ⟨rfl, hitems⟩
  obtain ⟨hist, hrun, hhist⟩ := hentry.history
  have hkept := (keptItems_ok hitems s.debugFees).1
  rw [lastBlock_setItem] at hkept
  have hlast : (setItem block amount items).getLast? = some (block, amount) :=
    List.getLast?_concat
  unfold pruneCache
  simp only [bind, EStateM.bind, get, getThe, MonadStateOf.get, EStateM.get]
  rw [hrun]
  dsimp only
  rw [hhist, hlast]
  cases hfirst : setItem block amount items with
  | nil => exact absurd hfirst hitems.ne
  | cons firstItem rest =>
      dsimp only
      rw [← hfirst]
      have hsame : ((setItem block amount items).filter fun item =>
          !(decide (item.1 < block - maxStateHistory) &&
            (putItems p (setItem block amount items) s).debugFees)) =
          keptItems s.debugFees block (setItem block amount items) := rfl
      rw [hsame]
      by_cases hmatured : firstItem.1 < block - maxStateHistory
      · rw [if_pos hmatured, List.isEmpty_eq_false_iff.mpr hkept.ne]
        rw [if_neg Bool.false_ne_true, putFeeCache_run]
        unfold putItems
        rw [insert_insert_eq]
      · -- the first item is the oldest one
        have hall : keptItems s.debugFees block (setItem block amount items) =
            setItem block amount items := by
          refine List.filter_eq_self.mpr fun item hitem => ?_
          have hle : firstItem.1 ≤ item.1 := by
            have hsorted := hitems.sorted
            rw [hfirst] at hsorted hitem
            rcases List.mem_cons.mp hitem with rfl | hmem
            · exact le_rfl
            · exact ((List.pairwise_cons.mp hsorted).1 item hmem).le
          rw [decide_eq_false (by omega)]
          rfl
        rw [if_neg hmatured, hall]
        rfl

/-- **WRITING AN ITEM** replaces that of its block, and prunes. -/
theorem setFeeItem_run {height : Int} {s : State} {p : PropertyId} {block amount : Int}
    {items : List (Int × Int)} (hentry : FeeEntry height s.feeCache[feeKey p]? items)
    (hle : height ≤ block) (hblock : IsInt64 block) (hamount : IsInt64 amount) :
    setFeeItem p block amount s =
      .ok () (putItems p (keptItems s.debugFees block (setItem block amount items)) s) := by
  obtain ⟨hist, hrun, rfl⟩ := hentry.history
  have hnew := feeItemsOk_replace hentry.items_ok hle hblock hamount
  unfold setFeeItem
  simp only [bind, EStateM.bind]
  rw [hrun]
  dsimp only
  rw [putFeeCache_run]
  exact pruneCache_run s hnew

/-- What the program sees of a property. -/
theorem FeeCacheOk.entry {height : Int} {s : State} (h : FeeCacheOk height s) (p : PropertyId) :
    ∃ items, FeeEntry height s.feeCache[feeKey p]? items := by
  rcases h p with hnone | ⟨items, hkey, hok⟩
  · exact ⟨[], Or.inl ⟨Or.inl hnone, rfl⟩⟩
  · exact ⟨items, Or.inr ⟨hkey, hok⟩⟩

/-- **WRITING A CACHED AMOUNT**: it becomes the amount of its property, and nothing else changes. -/
theorem wp_setFeeItem {height : Int} {s : State} {p : PropertyId} {block amount : Int}
    (h : FeeCacheOk height s) (hle : height ≤ block) (hblock : IsInt64 block)
    (hamount : IsInt64 amount) {E : Halt → State → Prop} :
    wp (setFeeItem p block amount) (fun _ s' => CacheSet s s' p block amount) E s := by
  obtain ⟨items, hentry⟩ := h.entry p
  have hnew : FeeItemsOk block (setItem block amount items) :=
    feeItemsOk_replace hentry.items_ok hle hblock hamount
  have hkept := keptItems_ok hnew s.debugFees
  rw [lastBlock_setItem, newestAmount_setItem] at hkept
  rw [wp_iff, setFeeItem_run hentry hle hblock hamount]
  exact cacheSet_put h hle hkept.1 hkept.2

/-! ## The count -/

/-- What is outstanding of a property: held by addresses, or cached. -/
def State.outstanding (s : State) (p : PropertyId) : Int := s.tallyMap.supply p + s.cached p

/-- The node counts `t` outstanding tokens, with a cache up to the height. -/
structure Outstanding (height : Int) (t : PropertyId → Int) (s : State) : Prop where
  cache : FeeCacheOk height s
  count : ∀ p, s.outstanding p = t p

theorem Outstanding.mono {height height' : Int} {t : PropertyId → Int} {s : State}
    (h : Outstanding height t s) (hle : height ≤ height') : Outstanding height' t s :=
  ⟨h.cache.mono hle, h.count⟩

theorem Outstanding.of_eq {height : Int} {t t' : PropertyId → Int} {s : State}
    (h : Outstanding height t s) (ht : t = t') : Outstanding height t' s := ht ▸ h

/-- Only the ledger and the fee cache count. -/
theorem Outstanding.congr {height : Int} {t : PropertyId → Int} {s s' : State}
    (h : Outstanding height t s) (hm : s'.tallyMap = s.tallyMap) (hc : s'.feeCache = s.feeCache) :
    Outstanding height t s' := by
  refine ⟨h.cache.congr hc, fun p => ?_⟩
  have hcached : s'.cached p = s.cached p := h.cache.cached_congr (by rw [hc])
  rw [← h.count, State.outstanding, State.outstanding, hm, hcached]

/-- However a program returns, it has shifted the count by `d`. -/
structure Shifts {α : Type} (height : Int) (d : PropertyId → Int) (x : ExecM α) : Prop where
  run : ∀ {t s}, Outstanding height t s →
    wp x (fun _ s' => Outstanding height (t + d) s') (fun _ _ => True) s

/-- A program that shifts nothing. -/
abbrev Conserves {α : Type} (height : Int) (x : ExecM α) : Prop := Shifts height 0 x

section Rules

variable {α β : Type} {height : Int} {d d' : PropertyId → Int}

theorem Shifts.of_eq {x : ExecM α} (h : Shifts height d x) (hd : d = d') : Shifts height d' x := hd ▸ h

theorem Conserves.run {x : ExecM α} (h : Conserves height x) {t : PropertyId → Int} {s : State}
    (hs : Outstanding height t s) :
    wp x (fun _ s' => Outstanding height t s') (fun _ _ => True) s := by
  refine wp_imp (Shifts.run h hs) fun _ s' hs' => ?_
  rwa [add_zero] at hs'

theorem Conserves.of_run {x : ExecM α} (h : ∀ {t s}, Outstanding height t s →
    wp x (fun _ s' => Outstanding height t s') (fun _ _ => True) s) : Conserves height x := by
  refine ⟨fun hs => wp_imp (h hs) fun _ s' hs' => ?_⟩
  rwa [add_zero]

theorem Conserves.pure (a : α) : Conserves height (pure a : ExecM α) :=
  Conserves.of_run fun hs => (wp_pure _ _ _ _).mpr hs

theorem Shifts.throw (e : Halt) : Shifts height d (throw e : ExecM α) :=
  ⟨fun _ => (wp_throw _ _ _ _).mpr trivial⟩

theorem Conserves.get : Conserves height (get : ExecM State) :=
  Conserves.of_run fun hs => (wp_get _ _ _).mpr hs

/-- Writing what does not count. -/
theorem Conserves.modify {f : State → State}
    (hf : ∀ s, (f s).tallyMap = s.tallyMap ∧ (f s).feeCache = s.feeCache) :
    Conserves height (modify f : ExecM PUnit) :=
  Conserves.of_run fun hs => (wp_modify _ _ _ _).mpr (hs.congr (hf _).1 (hf _).2)

theorem Shifts.bind {x : ExecM α} {f : α → ExecM β} (hx : Shifts height d x)
    (hf : ∀ a, Shifts height d' (f a)) : Shifts height (d + d') (x >>= f) := by
  refine ⟨fun hs => (wp_bind _ _ _ _ _).mpr (wp_imp (hx.run hs) fun a s' hs' => ?_)⟩
  rw [← add_assoc]
  exact (hf a).run hs'

theorem Conserves.bind {x : ExecM α} {f : α → ExecM β} (hx : Conserves height x)
    (hf : ∀ a, Shifts height d (f a)) : Shifts height d (x >>= f) :=
  (Shifts.bind hx hf).of_eq (zero_add d)

theorem Shifts.ite {c : Prop} [Decidable c] {x y : ExecM α} (hx : Shifts height d x)
    (hy : Shifts height d y) : Shifts height d (if c then x else y) :=
  ⟨fun hs => (wp_ite _ _ _ _ _ _).mpr ⟨fun _ => hx.run hs, fun _ => hy.run hs⟩⟩

theorem Conserves.forM {l : List α} {f : α → ExecM PUnit} (hf : ∀ a ∈ l, Conserves height (f a)) :
    Conserves height (l.forM f) :=
  Conserves.of_run fun {t} {_} hs =>
    wp_forM (I := Outstanding height t) (fun a ha _ hs' => Conserves.run (hf a ha) hs') hs

theorem Conserves.foldlM {l : List α} {f : β → α → ExecM β}
    (hf : ∀ b, ∀ a ∈ l, Conserves height (f b a)) (b : β) : Conserves height (l.foldlM f b) :=
  Conserves.of_run fun {t} {_} hs =>
    wp_foldlM (I := fun _ => Outstanding height t) (fun a ha b _ hs' => Conserves.run (hf b a ha) hs') hs

/-- What leaves ledger and cache alone conserves the count. -/
theorem Conserves.of_keeps {x : ExecM α} (h : Keeps (fun s : State => (s.tallyMap, s.feeCache)) x) :
    Conserves height x := by
  refine Conserves.of_run fun hs => wp_mono (h.run _) (fun _ s' hs' => ?_) fun _ _ _ => trivial
  exact hs.congr (congrArg Prod.fst hs') (congrArg Prod.snd hs')

end Rules

/-! ## What the elementary steps shift -/

section Steps

variable {height : Int}

/-- A credit or debit of a place where tokens are. -/
theorem shifts_assertUpdate (who : Address) (p : PropertyId) (amount : Int) {ty : TallyType}
    (hty : ty.Holds) : Shifts height (Pi.single p amount) (assertUpdate who p amount ty) := by
  refine ⟨fun {t s} hs => wp_assertUpdate (fun _ m' hm => ?_) fun _ _ _ _ => trivial⟩
  refine ⟨hs.cache.congr rfl, fun q => ?_⟩
  have hcached : (s.withTally m').cached q = s.cached q := hs.cache.cached_congr rfl
  have hcount := hs.count q
  rw [State.outstanding] at hcount ⊢
  rw [hcached, State.withTally_tallyMap, hm.supply hty, Pi.add_apply, ← hcount]
  by_cases hq : q = p
  · subst hq
    rw [if_pos rfl, Pi.single_eq_same]
    omega
  · rw [if_neg hq, Pi.single_eq_of_ne hq]
    omega

/-- Another amount in the cache. -/
theorem CacheSet.outstanding {t : PropertyId → Int} {s s' : State} {p : PropertyId} {amount : Int}
    (h : CacheSet s s' p height amount) (hs : ∀ q, s.outstanding q = t q) :
    Outstanding height (t + Pi.single p (amount - s.cached p)) s' := by
  refine ⟨h.ok, fun q => ?_⟩
  obtain ⟨cache, hcache⟩ := h.only
  have hm : s'.tallyMap = s.tallyMap := by rw [hcache]
  have hcount := hs q
  rw [State.outstanding] at hcount
  rw [State.outstanding, h.cached, hm, Pi.add_apply, ← hcount]
  by_cases hq : q = p
  · subst hq
    rw [if_pos rfl, Pi.single_eq_same]
    omega
  · rw [if_neg hq, Pi.single_eq_of_ne hq]
    omega

theorem Outstanding.setFeeItem {t : PropertyId → Int} {s : State} (hs : Outstanding height t s)
    (p : PropertyId) {amount : Int} (hheight : IsInt64 height) (hamount : IsInt64 amount) :
    wp (setFeeItem p height amount)
      (fun _ s' => Outstanding height (t + Pi.single p (amount - s.cached p)) s')
      (fun _ _ => True) s :=
  wp_imp (wp_setFeeItem hs.cache le_rfl hheight hamount) fun _ _ hset => hset.outstanding hs.count

theorem keeps_getTotalTokens {τ : Type} {view : State → τ} (p : PropertyId) :
    Keeps view (getTotalTokens p) := by
  refine Keeps.get.bind fun s => ?_
  split
  · exact Keeps.pure _
  · refine Keeps.ite (Keeps.pure _) ?_
    refine (Keeps.foldlM (fun _ _ => keeps_signed64 _) _).bind fun _ => ?_
    exact (OutsideFees.getCachedAmount p).bind fun _ => keeps_signed64 _

theorem keeps_credits (p : PropertyId) (receivers : List (Int × Address)) :
    Keeps State.feeCache (receivers.forM fun r => assertUpdate r.2 p r.1 .balance) :=
  Keeps.forM fun _ => ⟨fun _ => wp_assertUpdate (fun _ _ _ => rfl) fun _ _ _ _ => rfl⟩

/-- The receivers of a distribution are credited what is distributed. -/
theorem shifts_credits (p : PropertyId) (receivers : List (Int × Address)) :
    Shifts height (Pi.single p (receivers.map Prod.fst).sum)
      (receivers.forM fun r => assertUpdate r.2 p r.1 .balance) := by
  induction receivers with
  | nil =>
      refine Shifts.of_eq (Conserves.pure ()) ?_
      rw [List.map_nil, List.sum_nil, Pi.single_zero]
  | cons r rest ih =>
      refine ((@shifts_assertUpdate _ r.2 p r.1 .balance trivial).bind fun _ => ih).of_eq ?_
      rw [List.map_cons, List.sum_cons, Pi.single_add]

/-- **A DISTRIBUTION CONSERVES**: what the holders get is what the cache loses. -/
theorem conserves_distributeCache (p : PropertyId) (hheight : IsInt64 height) :
    Conserves height (distributeCache p height) := by
  refine Conserves.of_run fun {t s} hs => ?_
  unfold distributeCache
  rw [wp_bind]
  refine hs.cache.wp_getCachedAmount ?_
  rw [wp_bind]
  have hsplit : Keeps (fun s : State => s) (stoGetReceivers none
      (if isTestEcosystemProperty p then omniPropertyTMSC else omniPropertyMSC) (s.cached p)) :=
    keeps_stoGetReceivers _ _ _
  refine wp_mono (hsplit.run s) (fun receiversSet s₁ hs₁ => ?_) fun _ _ _ => trivial
  rw [hs₁]
  dsimp only
  -- the credits leave the cache as it is
  have hcredits := wp_and (Shifts.run (shifts_credits p (OwnerAddrType.descending receiversSet)) hs)
    ((keeps_credits p (OwnerAddrType.descending receiversSet)).run s)
  rw [wp_bind]
  refine wp_mono hcredits (fun _ s₂ hs₂ => ?_) fun _ _ _ => trivial
  obtain ⟨hs₂, hcache⟩ := hs₂
  have hrecord : Keeps (fun s : State => (s.tallyMap, s.feeCache)) (recordFeeDistribution p height
      ((OwnerAddrType.descending receiversSet).map Prod.fst).sum
      ((OwnerAddrType.descending receiversSet).foldl
        (fun h r => h.insert (r.2.text, r.1) ()) ∅)) := Keeps.modify fun _ => rfl
  rw [wp_bind]
  refine wp_mono (hrecord.run s₂) (fun _ s₃ hs₃ => ?_) fun _ _ _ => trivial
  rw [Prod.mk.injEq] at hs₃
  rw [wp_bind, wp_assertThat]
  refine ⟨fun hall => ?_, fun _ => trivial⟩
  rw [beq_iff_eq] at hall
  have hcached : s₃.cached p = s.cached p := hs.cache.cached_congr (by rw [hs₃.2, hcache])
  refine wp_imp (Outstanding.setFeeItem (hs₂.congr hs₃.1 hs₃.2) p hheight (by decide))
    fun _ s₄ hs₄ => hs₄.of_eq ?_
  -- the holders got what was cached
  rw [hcached, hall, zero_sub, Pi.single_neg]
  abel

/-- What is cached can be distributed. -/
theorem conserves_evalCache (p : PropertyId) (hheight : IsInt64 height) :
    Conserves height (evalCache p height) := by
  refine Conserves.get.bind fun s => ?_
  refine Conserves.bind (Conserves.of_keeps (OutsideFees.getCachedAmount p)) fun _ => ?_
  exact (conserves_distributeCache p hheight).ite (Conserves.pure _)

/-- **A CACHED FEE** is outstanding: the count grows by what its payer loses. -/
theorem shifts_addFee (p : PropertyId) (amount : Int) (hheight : IsInt64 height) :
    Shifts height (Pi.single p amount) (addFee p height amount) := by
  refine ⟨fun {t s} hs => ?_⟩
  unfold addFee
  rw [wp_bind]
  refine hs.cache.wp_getCachedAmount ?_
  rw [wp_ite]
  refine ⟨fun _ => (wp_throw _ _ _ _).mpr trivial, fun _ => ?_⟩
  rw [wp_bind, wp_signed64]
  refine ⟨fun hnew => ?_, fun _ => trivial⟩
  rw [wp_bind]
  refine wp_imp (Outstanding.setFeeItem hs p hheight hnew) fun _ s₁ hs₁ => ?_
  refine wp_imp (Conserves.run (conserves_evalCache p hheight) hs₁) fun _ s₂ hs₂ => hs₂.of_eq ?_
  rw [add_sub_cancel_left]

/-- A change in the number of tokens is noted. -/
theorem conserves_notifyTotalTokensChanged (p : PropertyId) (hheight : IsInt64 height) :
    Conserves height (notifyTotalTokensChanged p height) := by
  refine Conserves.bind ?_ fun _ => conserves_evalCache p hheight
  refine Conserves.of_keeps (Keeps.bind (keeps_getTotalTokens p) fun _ => ?_)
  exact Keeps.modify fun _ => rfl

end Steps

end OmniCore
