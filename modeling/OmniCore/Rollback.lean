import OmniCore.Registry

/-! # Rollback — undoing the registry writes of a block

    `popBlock` has one slot per property and block to go back to, and `updateSP`
    overwrites it with every update. `Unwound` is what the writes of a block leave of
    the registry before it, as long as every write can be undone; `Lost` and `Leaked`
    are the two ways in which a write cannot, and both stay until the block is popped.
    Together they give the exact condition for a rollback. -/

namespace OmniCore

open Std (ExtTreeMap)
open Machine TextRec MapSum CMPSPInfo

/-! ## Writes made while a block is processed -/

namespace SPOp

/-- How transactions of a block write: a new property is stamped with the block and comes from a
    transaction that created none before; an update starts from the stored entry and keeps its
    origin. -/
def InBlock (b : Nat) (sps : CMPSPInfo) : SPOp → Prop
  | put _ info => info.creationBlock = b ∧ info.updateBlock = b ∧ sps.txIndex[info.txid]? = none
  | update id info => info.updateBlock = b ∧
      ∃ old, sps.getSP id = some old ∧ info.creationBlock = old.creationBlock ∧
        info.txid = old.txid

/-- The write can be undone by `popBlock`: a new identifier has no entry yet (the constants may
    hide one of an earlier block), and an entry of an earlier block was not updated before. -/
def Undoable (b : Nat) (sps : CMPSPInfo) : SPOp → Prop
  | put ecosystem info => ∀ old, sps.entries[(sps.putSP ecosystem info).1]? = some old →
      (old.creationBlock = b → (sps.putSP ecosystem info).1 = 0) ∧
        (old.creationBlock ≠ b → (impliedSP (sps.putSP ecosystem info).1).isSome)
  | update id _ => impliedSP id = none → ∀ old, sps.entries[id]? = some old →
      old.updateBlock = b → old.creationBlock = b

/-- A condition on every write of a sequence and the registry it is made in. -/
def Each (C : CMPSPInfo → SPOp → Prop) : CMPSPInfo → List SPOp → Prop
  | _, [] => True
  | sps, op :: ops => C sps op ∧ Each C (op.run sps) ops

end SPOp

/-- A chain of blocks, each with its hash and its writes, as transactions make them. -/
def ChainWrites : CMPSPInfo → List (Nat × List SPOp) → Prop
  | _, [] => True
  | sps, block :: chain => SPOp.Each (SPOp.InBlock block.1) sps block.2 ∧
      ChainWrites (SPOp.runAll sps block.2) chain

/-- The registry after a chain of blocks. -/
def processBlocks (sps : CMPSPInfo) (chain : List (Nat × List SPOp)) : CMPSPInfo :=
  chain.foldl (fun sps block => SPOp.runAll sps block.2) sps

/-- `popBlock` takes the registry back to `before`. -/
structure Restores (b : Nat) (before after : CMPSPInfo) : Prop where
  rc : 0 ≤ (after.popBlock b).1
  getSP : ∀ id, (after.popBlock b).2.getSP id = before.getSP id
  findSPByTX : ∀ txid, (after.popBlock b).2.findSPByTX txid = before.findSPByTX txid

/-! ## What the functions do to the maps -/

theorem putSP_maps (sps : CMPSPInfo) (ecosystem : Nat) (info : SPEntry) :
    (sps.putSP ecosystem info).2.entries =
        sps.entries.insert (sps.putSP ecosystem info).1 info ∧
      (sps.putSP ecosystem info).2.txIndex =
        sps.txIndex.insert info.txid (sps.putSP ecosystem info).1 ∧
      (sps.putSP ecosystem info).2.prevEntries = sps.prevEntries := by
  unfold putSP
  split_ifs
  all_goals exact ⟨rfl, rfl, rfl⟩

theorem updateSP_of_implied {sps : CMPSPInfo} {id : PropertyId} (h : (impliedSP id).isSome)
    (info : SPEntry) : (sps.updateSP id info).2 = sps := by
  unfold updateSP
  rw [if_pos h]

theorem updateSP_maps {sps : CMPSPInfo} {id : PropertyId} {old : SPEntry}
    (himplied : impliedSP id = none) (hold : sps.entries[id]? = some old) (info : SPEntry) :
    (sps.updateSP id info).2 = { sps with
      prevEntries := sps.prevEntries.insert (info.updateBlock, id) old
      entries := sps.entries.insert id info } := by
  unfold updateSP
  rw [himplied, hold]
  rfl

/-- Some entry was created in the block by the transaction. -/
def CreatedBy (b : Nat) (sps : CMPSPInfo) (txid : Txid) : Prop :=
  ∃ (id : PropertyId) (info : SPEntry), sps.entries[id]? = some info ∧ info.updateBlock = b ∧
    info.creationBlock = b ∧ info.txid = txid

/-- `popBlock` gives up, or every entry of the block goes back to its slot or away. -/
theorem popBlock_cases (sps : CMPSPInfo) (b : Nat) :
    ((sps.popBlock b).1 < 0 ∧ ∃ (id : PropertyId) (info : SPEntry),
      sps.entries[id]? = some info ∧ info.updateBlock = b ∧ info.creationBlock ≠ b ∧
        sps.prevEntries[(b, id)]? = none) ∨
    (0 ≤ (sps.popBlock b).1 ∧
      (∀ id : PropertyId, (sps.popBlock b).2.entries[id]? =
        (sps.entries[id]?).bind fun info =>
          if info.updateBlock ≠ b then some info
          else if info.creationBlock = b then none
          else sps.prevEntries[(b, id)]?) ∧
      (∀ txid, CreatedBy b sps txid → (sps.popBlock b).2.txIndex[txid]? = none) ∧
      ∀ txid, ¬ CreatedBy b sps txid →
        (sps.popBlock b).2.txIndex[txid]? = sps.txIndex[txid]?) := by
  unfold popBlock
  split
  · next hany =>
      left
      refine ⟨show (-3 : Int) < 0 by decide, ?_⟩
      obtain ⟨⟨id, info⟩, hmem, hbad⟩ := List.any_eq_true.mp hany
      simp only [touchedIn, createdThere, Bool.and_eq_true, Bool.not_eq_true', beq_iff_eq,
        beq_eq_false_iff_ne] at hbad
      obtain ⟨⟨hupd, hnew⟩, hslot⟩ := hbad
      refine ⟨id, info, mem_toList_iff.mp hmem, hupd, fun hc => hnew (hupd.trans hc.symm), ?_⟩
      exact ExtTreeMap.getElem?_eq_none_of_contains_eq_false hslot
  · right
    refine ⟨by simp, ?_, ?_, ?_⟩
    · intro id
      rw [ExtTreeMap.getElem?_filterMap']
      congr 1
      funext info
      by_cases hupd : info.updateBlock = b
      · by_cases hnew : info.creationBlock = b
        · simp [touchedIn, createdThere, hupd, hnew]
        · simp [touchedIn, createdThere, hupd, hnew, Ne.symm hnew]
      · simp [touchedIn, hupd]
    · rintro txid ⟨id, info, hinfo, hupd, hnew, rfl⟩
      have hany : (sps.entries.toList.any fun e =>
          touchedIn b e.2 && createdThere e.2 && e.2.txid == info.txid) = true := by
        rw [List.any_eq_true]
        refine ⟨(id, info), mem_toList_iff.mpr hinfo, ?_⟩
        simp [touchedIn, createdThere, hupd, hnew]
      rw [ExtTreeMap.getElem?_filter']
      cases hindex : sps.txIndex[info.txid]? with
      | none => rfl
      | some id' => simp [hany]
    · intro txid hfree
      have hany : (sps.entries.toList.any fun e =>
          touchedIn b e.2 && createdThere e.2 && e.2.txid == txid) = false := by
        rw [List.any_eq_false]
        rintro ⟨id, info⟩ hmem
        simp only [touchedIn, createdThere, Bool.and_eq_true, beq_iff_eq, not_and]
        rintro ⟨hupd, hnew⟩
        intro htx
        exact hfree ⟨id, info, mem_toList_iff.mp hmem, hupd, hnew ▸ hupd, htx⟩
      rw [ExtTreeMap.getElem?_filter']
      cases hindex : sps.txIndex[txid]? with
      | none => rfl
      | some id' => simp [hany]

/-! ## The registry before the block -/

/-- No entry carries the hash of the block yet. -/
def NewBlock (b : Nat) (sps : CMPSPInfo) : Prop :=
  ∀ (id : PropertyId) (info : SPEntry), sps.entries[id]? = some info →
    info.creationBlock ≠ b ∧ info.updateBlock ≠ b

/-- A write of another block leaves the block new. -/
theorem NewBlock.run {b b' : Nat} {sps : CMPSPInfo} {op : SPOp} (h : NewBlock b sps)
    (hne : b' ≠ b) (hop : op.InBlock b' sps) : NewBlock b (op.run sps) := by
  cases op with
  | put ecosystem info =>
      obtain ⟨hnew, hupd, -⟩ := hop
      obtain ⟨hentries, -, -⟩ := putSP_maps sps ecosystem info
      intro id x hx
      show x.creationBlock ≠ b ∧ x.updateBlock ≠ b
      rw [SPOp.run, hentries, getElem?_insert_eq] at hx
      split at hx
      · cases hx
        rw [hnew, hupd]
        exact ⟨hne, hne⟩
      · exact h id x hx
  | update propertyId info =>
      obtain ⟨hupd, old, hold, hnew, -⟩ := hop
      cases himplied : impliedSP propertyId with
      | some _ =>
          rw [SPOp.run, updateSP_of_implied (by rw [himplied]; rfl)]
          exact h
      | none =>
          rw [getSP_of_not_implied himplied] at hold
          rw [SPOp.run, updateSP_maps himplied hold]
          intro id x hx
          dsimp only at hx
          rw [getElem?_insert_eq] at hx
          split at hx
          · cases hx
            rw [hnew, hupd]
            exact ⟨(h propertyId old hold).1, hne⟩
          · exact h id x hx

theorem NewBlock.runAll {b b' : Nat} (hne : b' ≠ b) (ops : List SPOp) {sps : CMPSPInfo}
    (h : NewBlock b sps) (hops : SPOp.Each (SPOp.InBlock b') sps ops) :
    NewBlock b (SPOp.runAll sps ops) := by
  induction ops generalizing sps with
  | nil => exact h
  | cons op ops ih => exact ih (h.run hne hops.1) hops.2

/-- A chain without the block leaves it new. -/
theorem newBlock_processBlocks {b : Nat} (chain : List (Nat × List SPOp)) {sps : CMPSPInfo}
    (h : NewBlock b sps) (hwrites : ChainWrites sps chain) (hb : ∀ block ∈ chain, block.1 ≠ b) :
    NewBlock b (processBlocks sps chain) := by
  induction chain generalizing sps with
  | nil => exact h
  | cons block chain ih =>
      have hne := hb block List.mem_cons_self
      exact ih (h.runAll hne block.2 hwrites.1) hwrites.2
        (fun x hx => hb x (List.mem_cons_of_mem _ hx))

/-! ## Writes that can be undone -/

section Block

variable {b : Nat} {before sps : CMPSPInfo}

/-- What an entry of the registry is, in terms of the registry before the block: the same, a new
    one, or one that was updated once and has its predecessor in the slot. -/
def EntryUnwound (b : Nat) (before sps : CMPSPInfo) (id : PropertyId) : Prop :=
  sps.entries[id]? = before.entries[id]? ∨
  ((impliedSP id = none → before.entries[id]? = none) ∧ ∃ info : SPEntry,
    sps.entries[id]? = some info ∧ info.creationBlock = b ∧ info.updateBlock = b) ∨
  (impliedSP id = none ∧ ∃ info old : SPEntry, sps.entries[id]? = some info ∧
    info.updateBlock = b ∧ info.creationBlock ≠ b ∧ before.entries[id]? = some old ∧
    sps.prevEntries[(b, id)]? = some old)

/-- The writes of a block so far can be undone. -/
structure Unwound (b : Nat) (before sps : CMPSPInfo) : Prop where
  entry : ∀ id, EntryUnwound b before sps id
  /-- an entry of the block was last written in it -/
  fresh : ∀ (id : PropertyId) (info : SPEntry), sps.entries[id]? = some info →
    info.creationBlock = b → info.updateBlock = b
  /-- the index knows the entries of the block -/
  indexed : ∀ (id : PropertyId) (info : SPEntry), sps.entries[id]? = some info →
    info.creationBlock = b → sps.txIndex[info.txid]? = some id ∧ before.txIndex[info.txid]? = none
  /-- and has no other new entries than these, but for identifier 0 -/
  index : ∀ txid : Txid, sps.txIndex[txid]? = before.txIndex[txid]? ∨
    (before.txIndex[txid]? = none ∧ (CreatedBy b sps txid ∨ sps.txIndex[txid]? = some 0))

theorem Unwound.refl (h : NewBlock b before) : Unwound b before before where
  entry := fun _ => Or.inl rfl
  fresh := fun id info hinfo hc => absurd hc (h id info hinfo).1
  indexed := fun id info hinfo hc => absurd hc (h id info hinfo).1
  index := fun _ => Or.inl rfl

/-- Popping the block undoes its writes. -/
theorem Unwound.restores (hnew : NewBlock b before) (h : Unwound b before sps) :
    Restores b before sps := by
  rcases popBlock_cases sps b with ⟨-, id, info, hinfo, hupd, hcre, hslot⟩ |
    ⟨hrc, hentries, hgone, hkept⟩
  · -- an updated entry has its slot
    exfalso
    rcases h.entry id with heq | ⟨-, x, hx, hxc, -⟩ | ⟨-, x, old, -, -, -, -, hold⟩
    · exact (hnew id info (heq ▸ hinfo)).2 hupd
    · rw [hx] at hinfo
      cases hinfo
      exact hcre hxc
    · rw [hold] at hslot
      cases hslot
  · refine ⟨hrc, ?_, ?_⟩
    · intro id
      unfold getSP
      cases himplied : impliedSP id with
      | some _ => rfl
      | none =>
          dsimp only
          rw [hentries]
          rcases h.entry id with heq | ⟨hnone, x, hx, hxc, hxu⟩ | ⟨-, x, old, hx, hxu, hxc, hb, hold⟩
          · rw [heq]
            cases hold : before.entries[id]? with
            | none => rfl
            | some info => simp [(hnew id info hold).2]
          · rw [hx, hnone himplied]
            simp [hxu, hxc]
          · rw [hx, hb]
            simp [hxu, hxc, hold]
    · intro txid
      unfold findSPByTX
      by_cases hcreated : CreatedBy b sps txid
      · rw [hgone txid hcreated]
        obtain ⟨id, info, hinfo, -, hcre, rfl⟩ := hcreated
        rw [(h.indexed id info hinfo hcre).2]
      · rw [hkept txid hcreated]
        rcases h.index txid with heq | ⟨hnone, hc | hzero⟩
        · rw [heq]
        · exact absurd hc hcreated
        · rw [hnone, hzero]
          rfl

/-- A new property that takes no entry away. -/
theorem Unwound.put {ecosystem : Nat} {info : SPEntry} (hnew : NewBlock b before)
    (h : Unwound b before sps) (hop : SPOp.InBlock b sps (.put ecosystem info))
    (hundo : SPOp.Undoable b sps (.put ecosystem info)) :
    Unwound b before (sps.putSP ecosystem info).2 := by
  obtain ⟨hcre, hupd, hfree⟩ := hop
  obtain ⟨hentries, hindex, hprev⟩ := putSP_maps sps ecosystem info
  have hundo : ∀ old, sps.entries[(sps.putSP ecosystem info).1]? = some old → _ := hundo
  generalize (sps.putSP ecosystem info).1 = new at *
  have hlookup : ∀ id : PropertyId, (sps.putSP ecosystem info).2.entries[id]? =
      if new = id then some info else sps.entries[id]? := by
    intro id
    rw [hentries, getElem?_insert_eq]
  have hfind : ∀ txid : Txid, (sps.putSP ecosystem info).2.txIndex[txid]? =
      if info.txid = txid then some new else sps.txIndex[txid]? := by
    intro txid
    rw [hindex, getElem?_insert_eq]
  -- the transaction is new to the index before the block as well
  have hfree' : before.txIndex[info.txid]? = none := by
    rcases h.index info.txid with heq | ⟨hnone, -⟩
    · rw [← heq]
      exact hfree
    · exact hnone
  refine ⟨?_, ?_, ?_, ?_⟩
  · intro id
    by_cases hid : new = id
    · subst hid
      right; left
      refine ⟨fun himplied => ?_, info, by rw [hlookup, if_pos rfl], hcre, hupd⟩
      rcases h.entry new with heq | ⟨hnone, -⟩ | ⟨-, x, old, hx, -, hxc, -, -⟩
      · rw [← heq]
        cases hold : sps.entries[new]? with
        | none => rfl
        | some old =>
            have hne : old.creationBlock ≠ b := (hnew new old (heq ▸ hold)).1
            have := (hundo old hold).2 hne
            rw [himplied] at this
            cases this
      · exact hnone himplied
      · have := (hundo x hx).2 hxc
        rw [himplied] at this
        cases this
    · rcases h.entry id with heq | ⟨hnone, x, hx⟩ | ⟨himplied, x, old, hx, hrest⟩
      · exact Or.inl (by rw [hlookup, if_neg hid, heq])
      · exact Or.inr (Or.inl ⟨hnone, x, by rw [hlookup, if_neg hid]; exact hx⟩)
      · exact Or.inr (Or.inr ⟨himplied, x, old, by rw [hlookup, if_neg hid]; exact hx,
          by rw [hprev]; exact hrest⟩)
  · intro id x hx hxc
    rw [hlookup] at hx
    split at hx
    · cases hx
      exact hupd
    · exact h.fresh id x hx hxc
  · intro id x hx hxc
    rw [hlookup] at hx
    split at hx
    · next hid =>
        cases hx
        exact ⟨by rw [hfind, if_pos rfl, hid], hfree'⟩
    · obtain ⟨hxi, hxb⟩ := h.indexed id x hx hxc
      have hne : info.txid ≠ x.txid := by
        intro heq
        rw [← heq, hfree] at hxi
        cases hxi
      exact ⟨by rw [hfind, if_neg hne, hxi], hxb⟩
  · intro txid
    by_cases htx : info.txid = txid
    · subst htx
      refine Or.inr ⟨hfree', Or.inl ⟨new, info, by rw [hlookup, if_pos rfl], hupd, hcre, rfl⟩⟩
    · rcases h.index txid with heq | ⟨hnone, ⟨id, x, hx, hxu, hxc, hxt⟩ | hzero⟩
      · exact Or.inl (by rw [hfind, if_neg htx, heq])
      · refine Or.inr ⟨hnone, ?_⟩
        by_cases hid : new = id
        · -- the entry is replaced: only identifier 0 may be
          have hz : new = 0 := (hundo x (hid ▸ hx)).1 hxc
          right
          rw [hfind, if_neg htx, ← hxt, (h.indexed id x hx hxc).1, ← hid, hz]
        · left
          exact ⟨id, x, by rw [hlookup, if_neg hid]; exact hx, hxu, hxc, hxt⟩
      · exact Or.inr ⟨hnone, Or.inr (by rw [hfind, if_neg htx, hzero])⟩

/-- The update of an entry that was not updated in the block before, or was created in it. -/
theorem Unwound.update {propertyId : PropertyId} {info : SPEntry} (hnew : NewBlock b before)
    (h : Unwound b before sps) (hop : SPOp.InBlock b sps (.update propertyId info))
    (hundo : SPOp.Undoable b sps (.update propertyId info)) :
    Unwound b before (sps.updateSP propertyId info).2 := by
  obtain ⟨hupd, old, hold, hcre, htx⟩ := hop
  cases himplied : impliedSP propertyId with
  | some _ =>
      rw [updateSP_of_implied (by rw [himplied]; rfl)]
      exact h
  | none =>
      rw [getSP_of_not_implied himplied] at hold
      have hundo := hundo himplied old hold
      rw [updateSP_maps himplied hold, hupd]
      have hlookup : ∀ id : PropertyId, (sps.entries.insert propertyId info)[id]? =
          if propertyId = id then some info else sps.entries[id]? :=
        fun id => getElem?_insert_eq _ _ _ _
      have hslot : ∀ id : PropertyId, (sps.prevEntries.insert (b, propertyId) old)[(b, id)]? =
          if propertyId = id then some old else sps.prevEntries[(b, id)]? := by
        intro id
        rw [getElem?_insert_eq]
        simp
      refine ⟨?_, ?_, ?_, ?_⟩
      · intro id
        by_cases hid : propertyId = id
        · subst hid
          rcases h.entry propertyId with heq | ⟨hnone, x, hx, hxc, hxu⟩ |
            ⟨-, x, orig, hx, hxu, hxc, -, -⟩
          · have hbefore : before.entries[propertyId]? = some old := by rw [← heq, hold]
            have hne := hnew propertyId old hbefore
            exact Or.inr (Or.inr ⟨himplied, info, old, by dsimp only; rw [hlookup, if_pos rfl],
              hupd, hcre ▸ hne.1, hbefore, by dsimp only; rw [hslot, if_pos rfl]⟩)
          · rw [hold] at hx
            cases hx
            exact Or.inr (Or.inl ⟨hnone, info, by dsimp only; rw [hlookup, if_pos rfl],
              hcre.trans hxc, hupd⟩)
          · -- a second update is not undoable
            rw [hold] at hx
            cases hx
            exact absurd (hundo hxu) hxc
        · rcases h.entry id with heq | ⟨hnone, x, hx⟩ | ⟨himp, x, orig, hx, hxu, hxc, hb, hp⟩
          · exact Or.inl (by dsimp only; rw [hlookup, if_neg hid, heq])
          · exact Or.inr (Or.inl ⟨hnone, x, by dsimp only; rw [hlookup, if_neg hid]; exact hx⟩)
          · exact Or.inr (Or.inr ⟨himp, x, orig, by dsimp only; rw [hlookup, if_neg hid]; exact hx,
              hxu, hxc, hb, by dsimp only; rw [hslot, if_neg hid]; exact hp⟩)
      · intro id x hx hxc
        dsimp only at hx
        rw [hlookup] at hx
        split at hx
        · cases hx
          exact hupd
        · exact h.fresh id x hx hxc
      · intro id x hx hxc
        dsimp only at hx ⊢
        rw [hlookup] at hx
        split at hx
        · next hid =>
            cases hx
            rw [htx, ← hid]
            exact h.indexed propertyId old hold (hcre ▸ hxc)
        · exact h.indexed id x hx hxc
      · intro txid
        rcases h.index txid with heq | ⟨hnone, ⟨id, x, hx, hxu, hxc, hxt⟩ | hzero⟩
        · exact Or.inl heq
        · refine Or.inr ⟨hnone, Or.inl ?_⟩
          by_cases hid : propertyId = id
          · subst hid
            rw [hold] at hx
            cases hx
            exact ⟨propertyId, info, by dsimp only; rw [hlookup, if_pos rfl], hupd,
              hcre.trans hxc, htx.trans hxt⟩
          · exact ⟨id, x, by dsimp only; rw [hlookup, if_neg hid]; exact hx, hxu, hxc, hxt⟩
        · exact Or.inr ⟨hnone, Or.inr hzero⟩

/-! ## Writes that cannot be undone -/

/-- An entry from before the block that `popBlock` will not find: it was replaced by a new
    property, or its slot holds an entry of the block. -/
structure Lost (b : Nat) (before sps : CMPSPInfo) (id : PropertyId) : Prop where
  notImplied : impliedSP id = none
  existed : ∃ orig : SPEntry, before.entries[id]? = some orig ∧ orig.updateBlock ≠ b
  gone : ∃ info : SPEntry, sps.entries[id]? = some info ∧ info.updateBlock = b ∧
    (info.creationBlock = b ∨ ∃ x : SPEntry, sps.prevEntries[(b, id)]? = some x ∧
      x.updateBlock = b)

/-- An index entry of the block that no entry of the block owns any more. -/
structure Leaked (b : Nat) (before sps : CMPSPInfo) (txid : Txid) : Prop where
  unknown : before.txIndex[txid]? = none
  known : ∃ id : PropertyId, sps.txIndex[txid]? = some id ∧ id ≠ 0
  unowned : ∀ (id : PropertyId) (info : SPEntry), sps.entries[id]? = some info →
    info.creationBlock = b → info.txid ≠ txid

theorem Lost.not_restores {id : PropertyId} (h : Lost b before sps id) :
    ¬ Restores b before sps := by
  intro hr
  rcases popBlock_cases sps b with ⟨hneg, -⟩ | ⟨-, hentries, -, -⟩
  · exact absurd hr.rc (not_le.mpr hneg)
  · obtain ⟨orig, horig, hne⟩ := h.existed
    obtain ⟨info, hinfo, hupd, hgone⟩ := h.gone
    have hget := hr.getSP id
    rw [getSP_of_not_implied h.notImplied, getSP_of_not_implied h.notImplied, hentries, hinfo,
      horig] at hget
    by_cases hcre : info.creationBlock = b
    · simp [hupd, hcre] at hget
    · rcases hgone with hc | ⟨x, hx, hxu⟩
      · exact hcre hc
      · simp only [Option.bind_some, hupd, ne_eq, not_true_eq_false, if_false, hcre, hx,
          Option.some.injEq] at hget
        exact hne (hget ▸ hxu)

theorem Leaked.not_restores {txid : Txid} (h : Leaked b before sps txid) :
    ¬ Restores b before sps := by
  intro hr
  rcases popBlock_cases sps b with ⟨hneg, -⟩ | ⟨-, -, -, hkept⟩
  · exact absurd hr.rc (not_le.mpr hneg)
  · obtain ⟨id, hid, hne⟩ := h.known
    have hfind := hr.findSPByTX txid
    have hfree : ¬ CreatedBy b sps txid := by
      rintro ⟨id', info, hinfo, -, hcre, htx⟩
      exact h.unowned id' info hinfo hcre htx
    unfold findSPByTX at hfind
    rw [hkept txid hfree, hid, h.unknown] at hfind
    exact hne hfind

/-- A lost entry stays lost. -/
theorem Lost.run {id : PropertyId} {op : SPOp} (h : Lost b before sps id)
    (hop : op.InBlock b sps) : Lost b before (op.run sps) id := by
  obtain ⟨info, hinfo, hupd, hgone⟩ := h.gone
  refine ⟨h.notImplied, h.existed, ?_⟩
  cases op with
  | put ecosystem new =>
      obtain ⟨hcre, hnupd, -⟩ := hop
      obtain ⟨hentries, -, hprev⟩ := putSP_maps sps ecosystem new
      rw [SPOp.run, hentries, hprev]
      by_cases hid : (sps.putSP ecosystem new).1 = id
      · exact ⟨new, by rw [getElem?_insert_eq, if_pos hid], hnupd, Or.inl hcre⟩
      · exact ⟨info, by rw [getElem?_insert_eq, if_neg hid, hinfo], hupd, hgone⟩
  | update propertyId new =>
      obtain ⟨hnupd, old, hold, hcre, -⟩ := hop
      cases himplied : impliedSP propertyId with
      | some _ =>
          rw [SPOp.run, updateSP_of_implied (by rw [himplied]; rfl)]
          exact ⟨info, hinfo, hupd, hgone⟩
      | none =>
          rw [getSP_of_not_implied himplied] at hold
          rw [SPOp.run, updateSP_maps himplied hold, hnupd]
          by_cases hid : propertyId = id
          · subst hid
            rw [hinfo] at hold
            cases hold
            exact ⟨new, by dsimp only; rw [getElem?_insert_eq, if_pos rfl], hnupd,
              Or.inr ⟨info, by dsimp only; rw [getElem?_insert_eq, if_pos rfl], hupd⟩⟩
          · refine ⟨info, by dsimp only; rw [getElem?_insert_eq, if_neg hid, hinfo], hupd, ?_⟩
            have hkey : (b, propertyId) ≠ (b, id) := fun h => hid (congrArg Prod.snd h)
            dsimp only
            rw [getElem?_insert_eq, if_neg hkey]
            exact hgone

/-- A leaked index entry stays. -/
theorem Leaked.run {txid : Txid} {op : SPOp} (h : Leaked b before sps txid)
    (hop : op.InBlock b sps) : Leaked b before (op.run sps) txid := by
  obtain ⟨id, hid, hne⟩ := h.known
  cases op with
  | put ecosystem new =>
      obtain ⟨-, -, hfree⟩ := hop
      obtain ⟨hentries, hindex, -⟩ := putSP_maps sps ecosystem new
      have htx : new.txid ≠ txid := by
        rintro rfl
        rw [hid] at hfree
        cases hfree
      refine ⟨h.unknown, ⟨id, ?_, hne⟩, ?_⟩
      · rw [SPOp.run, hindex, getElem?_insert_eq, if_neg htx, hid]
      · intro id' info hinfo hcre
        rw [SPOp.run, hentries, getElem?_insert_eq] at hinfo
        split at hinfo
        · cases hinfo
          exact htx
        · exact h.unowned id' info hinfo hcre
  | update propertyId new =>
      obtain ⟨-, old, hold, hcre, htx⟩ := hop
      cases himplied : impliedSP propertyId with
      | some _ =>
          rw [SPOp.run, updateSP_of_implied (by rw [himplied]; rfl)]
          exact h
      | none =>
          rw [getSP_of_not_implied himplied] at hold
          rw [SPOp.run, updateSP_maps himplied hold]
          refine ⟨h.unknown, ⟨id, hid, hne⟩, ?_⟩
          intro id' info hinfo hinfoc
          dsimp only at hinfo
          rw [getElem?_insert_eq] at hinfo
          split at hinfo
          · cases hinfo
            rw [htx]
            exact h.unowned propertyId old hold (hcre ▸ hinfoc)
          · exact h.unowned id' info hinfo hinfoc

theorem Lost.not_restores_runAll {id : PropertyId} (ops : List SPOp) (h : Lost b before sps id)
    (hops : SPOp.Each (SPOp.InBlock b) sps ops) : ¬ Restores b before (SPOp.runAll sps ops) := by
  induction ops generalizing sps with
  | nil => exact h.not_restores
  | cons op ops ih => exact ih (h.run hops.1) hops.2

theorem Leaked.not_restores_runAll {txid : Txid} (ops : List SPOp) (h : Leaked b before sps txid)
    (hops : SPOp.Each (SPOp.InBlock b) sps ops) : ¬ Restores b before (SPOp.runAll sps ops) := by
  induction ops generalizing sps with
  | nil => exact h.not_restores
  | cons op ops ih => exact ih (h.run hops.1) hops.2

/-- A write that is not undoable loses an entry or leaks an index entry. -/
theorem Unwound.spoiled {op : SPOp} (hnew : NewBlock b before) (h : Unwound b before sps)
    (hop : op.InBlock b sps) (hbad : ¬ op.Undoable b sps) :
    (∃ id, Lost b before (op.run sps) id) ∨ ∃ txid, Leaked b before (op.run sps) txid := by
  cases op with
  | put ecosystem info =>
      obtain ⟨hcre, hupd, hfree⟩ := hop
      obtain ⟨hentries, hindex, -⟩ := putSP_maps sps ecosystem info
      unfold SPOp.Undoable at hbad
      push Not at hbad
      obtain ⟨old, hold, hbad⟩ := hbad
      by_cases hin : old.creationBlock = b
      · -- a property of the block is replaced: its index entry stays behind
        right
        have hzero : (sps.putSP ecosystem info).1 ≠ 0 := by
          intro hz
          obtain ⟨hc, -⟩ := hbad (fun _ => hz)
          exact hc hin
        obtain ⟨hknown, hunknown⟩ := h.indexed _ old hold hin
        have htx : info.txid ≠ old.txid := by
          intro heq
          rw [heq, hknown] at hfree
          cases hfree
        refine ⟨old.txid, hunknown, ⟨(sps.putSP ecosystem info).1, ?_, hzero⟩, ?_⟩
        · rw [SPOp.run, hindex, getElem?_insert_eq, if_neg htx, hknown]
        · intro id x hx hxc
          rw [SPOp.run, hentries, getElem?_insert_eq] at hx
          split at hx
          · cases hx
            exact htx
          · next hid =>
              intro heq
              have hxi := (h.indexed id x hx hxc).1
              rw [heq, hknown] at hxi
              cases hxi
              exact hid rfl
      · -- a property from before the block is replaced
        left
        obtain ⟨-, himplied⟩ := hbad (fun hc => absurd hc hin)
        have himplied : impliedSP (sps.putSP ecosystem info).1 = none := by
          simpa using himplied
        refine ⟨(sps.putSP ecosystem info).1, himplied, ?_, info, ?_, hupd, Or.inl hcre⟩
        · rcases h.entry (sps.putSP ecosystem info).1 with heq | ⟨-, x, hx, hxc, -⟩ |
            ⟨-, x, orig, hx, -, -, horig, -⟩
          · exact ⟨old, by rw [← heq, hold], (hnew _ old (by rw [← heq, hold])).2⟩
          · rw [hold] at hx
            cases hx
            exact absurd hxc hin
          · exact ⟨orig, horig, (hnew _ orig horig).2⟩
        · rw [SPOp.run, hentries, getElem?_insert_eq, if_pos rfl]
  | update propertyId info =>
      obtain ⟨hupd, old, hold, hcre, -⟩ := hop
      unfold SPOp.Undoable at hbad
      push Not at hbad
      obtain ⟨himplied, old', hold', hupd', hcre'⟩ := hbad
      rw [getSP_of_not_implied himplied, hold'] at hold
      cases hold
      left
      rw [SPOp.run, updateSP_maps himplied hold', hupd]
      refine ⟨propertyId, himplied, ?_, info, ?_, hupd, Or.inr ⟨old, ?_, hupd'⟩⟩
      · rcases h.entry propertyId with heq | ⟨-, x, hx, hxc, -⟩ | ⟨-, x, orig, -, -, -, horig, -⟩
        · exact absurd hupd' (hnew _ old (by rw [← heq, hold'])).2
        · rw [hold'] at hx
          cases hx
          exact absurd hxc hcre'
        · exact ⟨orig, horig, (hnew _ orig horig).2⟩
      · dsimp only
        rw [getElem?_insert_eq, if_pos rfl]
      · dsimp only
        rw [getElem?_insert_eq, if_pos rfl]

/-- The writes of a block, from a registry whose writes so far can be undone. -/
theorem Unwound.restores_iff (ops : List SPOp) (hnew : NewBlock b before)
    (h : Unwound b before sps) (hops : SPOp.Each (SPOp.InBlock b) sps ops) :
    Restores b before (SPOp.runAll sps ops) ↔ SPOp.Each (SPOp.Undoable b) sps ops := by
  induction ops generalizing sps with
  | nil => exact ⟨fun _ => trivial, fun _ => h.restores hnew⟩
  | cons op ops ih =>
      by_cases hundo : op.Undoable b sps
      · have hnext : Unwound b before (op.run sps) := by
          cases op with
          | put ecosystem info => exact h.put hnew hops.1 hundo
          | update propertyId info => exact h.update hnew hops.1 hundo
        rw [show SPOp.runAll sps (op :: ops) = SPOp.runAll (op.run sps) ops from rfl,
          ih hnext hops.2]
        exact ⟨fun hrest => ⟨hundo, hrest⟩, fun hall => hall.2⟩
      · refine ⟨fun hr => ?_, fun hall => absurd hall.1 hundo⟩
        rcases h.spoiled hnew hops.1 hundo with ⟨id, hlost⟩ | ⟨txid, hleaked⟩
        · exact absurd hr (hlost.not_restores_runAll ops hops.2)
        · exact absurd hr (hleaked.not_restores_runAll ops hops.2)

end Block

/-- **ROLLBACK IS EXACT IF AND ONLY IF EVERY WRITE OF THE BLOCK IS UNDOABLE**: for every registry
    that a chain of blocks leads to, and every further block. -/
theorem popBlock_restores_iff (chain : List (Nat × List SPOp)) (b : Nat) (ops : List SPOp)
    (hchain : ChainWrites .init chain) (hb : ∀ block ∈ chain, block.1 ≠ b)
    (hops : SPOp.Each (SPOp.InBlock b) (processBlocks .init chain) ops) :
    Restores b (processBlocks .init chain) (SPOp.runAll (processBlocks .init chain) ops) ↔
      SPOp.Each (SPOp.Undoable b) (processBlocks .init chain) ops := by
  have hinit : NewBlock b .init := by
    intro id info h
    simp [init] at h
  have hnew := newBlock_processBlocks chain hinit hchain hb
  exact (Unwound.refl hnew).restores_iff ops hnew hops

/-! ## Two blocks -/

instance (b : Nat) (sps : CMPSPInfo) : (op : SPOp) → Decidable (op.InBlock b sps)
  | .put _ _ => inferInstanceAs (Decidable (_ ∧ _))
  | .update _ _ => inferInstanceAs (Decidable (_ ∧ _))

instance (b : Nat) (sps : CMPSPInfo) : (op : SPOp) → Decidable (op.Undoable b sps)
  | .put _ _ => inferInstanceAs (Decidable (∀ _, _ = some _ → _))
  | .update _ _ => inferInstanceAs (Decidable (_ → ∀ _, _ = some _ → _))

instance {C : CMPSPInfo → SPOp → Prop} [∀ sps op, Decidable (C sps op)] :
    (sps : CMPSPInfo) → (ops : List SPOp) → Decidable (SPOp.Each C sps ops)
  | _, [] => isTrue trivial
  | sps, op :: ops =>
      have := instDecidableEach (C := C) (op.run sps) ops
      inferInstanceAs (Decidable (C sps op ∧ SPOp.Each C (op.run sps) ops))

/-- Block 1 creates properties 3 and 4. -/
def firstBlock : List (Nat × List SPOp) :=
  [(1, [.put 1 (bareEntry 11 1), .put 1 (bareEntry 12 1)])]

/-- An update of property 4 in block 2. -/
def changedEntry (numTokens : Int) : SPEntry :=
  { bareEntry 12 1 with numTokens := numTokens, updateBlock := 2 }

/-- Block 2 updates property 4, and creates property 5 and updates it twice. -/
def secondBlock : List SPOp :=
  [.update 4 (changedEntry 5), .put 1 (bareEntry 21 2), .update 5 (bareEntry 21 2),
    .update 5 (bareEntry 21 2)]

theorem popBlock_restores_iff_secondBlock :
    Restores 2 (processBlocks .init firstBlock)
      (SPOp.runAll (processBlocks .init firstBlock) secondBlock) :=
  have hchain : ChainWrites .init firstBlock := ⟨by decide, trivial⟩
  (popBlock_restores_iff firstBlock 2 secondBlock hchain (by decide) (by decide)).mpr (by decide)

/-- **THE SECOND UPDATE OVERWRITES THE SLOT**: property 4 is updated twice in block 2; after the
    rollback it has the entry that the first update wrote. -/
theorem twoUpdates_not_restored :
    ¬ Restores 2 (processBlocks .init firstBlock)
      (SPOp.runAll (processBlocks .init firstBlock)
        [.update 4 (changedEntry 5), .update 4 (changedEntry 6)]) := by
  intro h
  have hget := congrArg (Option.map SPEntry.updateBlock) (h.getSP 4)
  exact absurd hget (by decide +kernel)

end OmniCore
