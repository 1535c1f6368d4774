import OmniCore.FeeCache
import OmniCore.Registry
import OmniCore.StateFiles

/-! # StateSelection — which block a restarted node goes back to

    From the watermark of the registry the node walks back along the chain, at most
    MAX_STATE_HISTORY blocks, until the files of a block can be loaded; the registry is
    rolled back with every step. Whether a block has files is asked of the watermark each
    time, not of the block that was reached: no block but the watermark is ever tried. -/

namespace OmniCore

open Std (ExtTreeMap)
open Machine TextRec MapSum Exec

/-! ## The chain -/

/-- The blocks a node knows, by their hashes, and which of them are in the active chain. -/
structure CBlockTree where
  known : Nat → Bool
  contains : Nat → Bool
  pprev : Nat → Option Nat
  nHeight : Nat → Nat
  known_of_contains : ∀ {b}, contains b = true → known b = true
  contains_pprev : ∀ {b p}, pprev b = some p → contains b = true → contains p = true
  height_pprev : ∀ {b p}, pprev b = some p → nHeight b = nHeight p + 1

namespace CBlockTree

variable (tree : CBlockTree)

/-- The block and its ancestors. -/
def lineage (b : Nat) : List Nat :=
  b :: match _h : tree.pprev b with
    | none => []
    | some p => lineage p
termination_by tree.nHeight b
decreasing_by
  have := tree.height_pprev ‹tree.pprev b = some p›
  omega

/-- The blocks that may be gone back to: the watermark and MAX_STATE_HISTORY blocks before it. -/
def window (watermark : Nat) : List Nat := (tree.lineage watermark).take (maxStateHistory + 1).toNat

theorem lineage_eq (b : Nat) :
    tree.lineage b = b :: (tree.pprev b).elim [] tree.lineage := by
  rw [lineage]
  congr 1
  split
  · next h =>
      rw [h]
      rfl
  · next p h =>
      rw [h]
      rfl

end CBlockTree

/-! ## The selection -/

/-- `popBlock` on the registry of the node. -/
def popSPBlock (b : Nat) : ExecM Int := do
  let s ← get
  set { s with sps := (s.sps.popBlock b).2 }
  pure (s.sps.popBlock b).1

/-- The loop over the files of a block, up to the first that is refused. `loadFile` is `msc_file_load`
    of the file of a block. -/
def loadStateSet (loadFile : Nat → FileType → ExecM Int) (b : Nat) : List FileType → Int → ExecM Int
  | [], success => pure success
  | what :: rest, _ => do
      let success ← loadFile b what
      if success < 0 then pure success else loadStateSet loadFile b rest success

/-- The block of a file in the active chain, from a name like `balances-<hash>.dat`. -/
def persistedBlock (tree : CBlockTree) (fName : Text) : Option Nat :=
  match split (fun c => c == '-' || c == '.') fName with
  | [_, hash, ['d', 'a', 't']] => if tree.contains (uint256S hash) then some (uint256S hash) else none
  | _ => none

/-- `persistedBlocks`. -/
def persistedBlocks (tree : CBlockTree) (fNames : List Text) : Finset Nat :=
  (fNames.filterMap (persistedBlock tree)).toFinset

/-- The loop that takes the watermark back to the active chain, with the watermark it leaves. There
    is no block if the registry could not be rolled back, or after the first block. -/
def rewindToChain (tree : CBlockTree) (spBlockIndex watermark : Nat) :
    ExecM (Option (Option Nat) × Nat) :=
  if tree.contains spBlockIndex then pure (some (some spBlockIndex), watermark)
  else do
    let remainingSPs ← popSPBlock spBlockIndex
    if remainingSPs < 0 then pure (none, watermark)
    else
      match _h : tree.pprev spBlockIndex with
      | none => pure (some none, watermark)
      | some p => rewindToChain tree p p
termination_by tree.nHeight spBlockIndex
decreasing_by
  have := tree.height_pprev ‹tree.pprev spBlockIndex = some p›
  omega

/-- The block is tried, if the watermark has files. None if it was loaded, or else the blocks that are
    left to be tried. -/
def tryBlock (loadFile : Nat → FileType → ExecM Int) (spBlockIndex curTip : Nat)
    (persisted : Finset Nat) : ExecM (Option (Finset Nat)) :=
  -- the source looks for the watermark here, and not for the block it has reached
  if spBlockIndex ∈ persisted then do
    let success ← loadStateSet loadFile curTip fileTypes (-1)
    if 0 ≤ success then pure none else pure (some (persisted.erase spBlockIndex))
  else pure (some persisted)

/-- The loop over the blocks: the result, the blocks left to be tried and the watermark; no result if
    the registry could not be rolled back. -/
def walkBack (tree : CBlockTree) (loadFile : Nat → FileType → ExecM Int) (spBlockIndex : Nat)
    (abortRollBackBlock : Int) (curTip : Nat) (persisted : Finset Nat) (watermark : Nat) :
    ExecM (Option (Int × Finset Nat) × Nat) :=
  if 0 < persisted.card ∧ abortRollBackBlock < tree.nHeight curTip then do
    match ← tryBlock loadFile spBlockIndex curTip persisted with
    | none => pure (some (tree.nHeight curTip, persisted), watermark)
    | some persisted =>
        let rc ← popSPBlock curTip
        if rc < 0 then pure (none, watermark)
        else
          match h : tree.pprev curTip with
          | none => pure (some (-1, persisted), watermark)
          | some p => walkBack tree loadFile spBlockIndex abortRollBackBlock p persisted p
  else pure (some (-1, persisted), watermark)
termination_by tree.nHeight curTip
decreasing_by
  have := tree.height_pprev h
  omega

/-- `load_most_relevant_state`: the height of the state that was loaded or -1, and the watermark of the
    registry. -/
def loadMostRelevantState (tree : CBlockTree) (fNames : List Text)
    (loadFile : Nat → FileType → ExecM Int) (spWatermark : Option Nat) :
    ExecM (Int × Option Nat) :=
  match spWatermark with
  | none => pure (-1, none)
  | some watermark =>
      if tree.known watermark = false then pure (-1, some watermark)
      else do
        match ← rewindToChain tree watermark watermark with
        | (none, watermark) => pure (-1, some watermark)
        | (some none, watermark) => pure (-1, some watermark)
        | (some (some curTip), watermark) =>
            match ← walkBack tree loadFile curTip (tree.nHeight curTip - (maxStateHistory + 1))
              curTip (persistedBlocks tree fNames) watermark with
            | (none, watermark) => pure (-1, some watermark)
            | (some (res, persisted), watermark) =>
                pure (if persisted.card = 0 then -1 else res, some watermark)

/-! ## What it is for -/

section Selection

variable (tree : CBlockTree) (fNames : List Text) (loadFile : Nat → FileType → ExecM Int)
  (watermark : Nat) (s : State)

/-- The registry without what the blocks wrote, one block after the other. -/
def rollBack (sps : CMPSPInfo) (blocks : List Nat) : CMPSPInfo :=
  blocks.foldl (fun sps b => (sps.popBlock b).2) sps

/-- The registry can be rolled back over the blocks. -/
def PopsSucceed : CMPSPInfo → List Nat → Prop
  | _, [] => True
  | sps, b :: rest => 0 ≤ (sps.popBlock b).1 ∧ PopsSucceed (sps.popBlock b).2 rest

/-- The complete set of files of a block can be loaded, with the registry rolled back over the blocks
    above it, and gives the state. -/
structure RestoresState (above : List Nat) (b : Nat) (s' : State) : Prop where
  persisted : b ∈ persistedBlocks tree fNames
  loads : ∃ success, 0 ≤ success ∧ loadStateSet loadFile b fileTypes (-1)
    { s with sps := rollBack s.sps above } = .ok success s'

/-- Some state is restored by the files of the block. -/
def CanRestore (above : List Nat) (b : Nat) : Prop :=
  ∃ s', RestoresState tree fNames loadFile s above b s'

/-- No block of the window can be gone back to. -/
def NothingToRestore : Prop :=
  ∀ above b below, tree.window watermark = above ++ b :: below →
    ¬ CanRestore tree fNames loadFile s above b

/-- **THE BEST STATE**: the highest block of the window whose files can be loaded is gone back to, with
    its state and its registry, and none only if there is no such block. -/
structure SelectsBest : Prop where
  best : ∀ above b below, tree.window watermark = above ++ b :: below →
    (∀ above' b' below', above = above' ++ b' :: below' →
      ¬ CanRestore tree fNames loadFile s above' b') →
    CanRestore tree fNames loadFile s above b →
    ∃ s', RestoresState tree fNames loadFile s above b s' ∧
      loadMostRelevantState tree fNames loadFile (some watermark) s =
        .ok ((tree.nHeight b : Int), some b) s'
  nothing : NothingToRestore tree fNames loadFile watermark s →
    ∃ mark s', loadMostRelevantState tree fNames loadFile (some watermark) s = .ok (-1, mark) s'

/-- Reading the files of the watermark ends in an exception. -/
def WatermarkThrows : Prop :=
  watermark ∈ persistedBlocks tree fNames ∧
    ∃ e s', loadStateSet loadFile watermark fileTypes (-1) s = .error e s'

end Selection

/-! ## The registry -/

/-- What `popBlock` reads and writes. -/
def CMPSPInfo.records (sps : CMPSPInfo) : ExtTreeMap PropertyId SPEntry ×
    ExtTreeMap Txid PropertyId × ExtTreeMap (Nat × PropertyId) SPEntry pairCmp :=
  (sps.entries, sps.txIndex, sps.prevEntries)

/-- The next free identifiers do not matter. -/
theorem popBlock_records {sps sps' : CMPSPInfo} (h : sps'.records = sps.records) (b : Nat) :
    (sps'.popBlock b).1 = (sps.popBlock b).1 ∧
      (sps'.popBlock b).2.records = (sps.popBlock b).2.records := by
  unfold CMPSPInfo.records at h
  rw [Prod.mk.injEq, Prod.mk.injEq] at h
  obtain ⟨hentries, htxIndex, hprev⟩ := h
  unfold CMPSPInfo.popBlock CMPSPInfo.records
  rw [hentries, htxIndex, hprev]
  split
  · exact ⟨rfl, by rw [hentries, htxIndex, hprev]⟩
  · exact ⟨rfl, rfl⟩

theorem PopsSucceed.congr {sps sps' : CMPSPInfo} (hsame : sps'.records = sps.records)
    {blocks : List Nat} (h : PopsSucceed sps blocks) : PopsSucceed sps' blocks := by
  induction blocks generalizing sps sps' with
  | nil => trivial
  | cons b rest ih =>
      obtain ⟨hrc, hrecords⟩ := popBlock_records hsame b
      refine ⟨?_, ih hrecords h.2⟩
      rw [hrc]
      exact h.1

/-- The loop over the files leaves alone what the loading of each of them leaves alone. -/
theorem keeps_loadStateSet {τ : Type} {view : State → τ} {loadFile : Nat → FileType → ExecM Int}
    (h : ∀ b what, Keeps view (loadFile b what)) (b : Nat) (files : List FileType) (success : Int) :
    Keeps view (loadStateSet loadFile b files success) := by
  induction files generalizing success with
  | nil => exact Keeps.pure success
  | cons what rest ih => exact (h b what).bind fun success => (Keeps.pure success).ite (ih success)

/-! ## The walk -/

section Walk

variable {tree : CBlockTree} {loadFile : Nat → FileType → ExecM Int}

/-- The window starts with the watermark. -/
theorem window_eq (watermark : Nat) : ∃ below, tree.window watermark = watermark :: below := by
  unfold CBlockTree.window
  rw [CBlockTree.lineage_eq]
  exact ⟨_, rfl⟩

/-- A watermark without files is not tried, whatever block was reached. -/
theorem tryBlock_misses {spBlockIndex : Nat} {persisted : Finset Nat}
    (h : spBlockIndex ∉ persisted) (curTip : Nat) :
    tryBlock loadFile spBlockIndex curTip persisted = pure (some persisted) := if_neg h

theorem popSPBlock_run (b : Nat) (s : State) :
    popSPBlock b s = .ok (s.sps.popBlock b).1 { s with sps := (s.sps.popBlock b).2 } := rfl

/-- One step of the walk, if the block was not loaded. -/
theorem walkBack_step {spBlockIndex curTip : Nat} (mark : Nat) {abort : Int} {persisted left : Finset Nat}
    {s s' : State} (hcond : 0 < persisted.card ∧ abort < tree.nHeight curTip)
    (htry : tryBlock loadFile spBlockIndex curTip persisted s = .ok (some left) s')
    (hpop : 0 ≤ (s'.sps.popBlock curTip).1) :
    walkBack tree loadFile spBlockIndex abort curTip persisted mark s =
      (tree.pprev curTip).elim (pure (some (-1, left), mark))
        (fun p => walkBack tree loadFile spBlockIndex abort p left p)
        { s' with sps := (s'.sps.popBlock curTip).2 } := by
  rw [walkBack, if_pos hcond]
  simp only [bind, EStateM.bind]
  rw [htry]
  dsimp only
  unfold EStateM.bind
  rw [popSPBlock_run]
  dsimp only
  rw [if_neg (not_lt.mpr hpop)]
  refine congrFun ?_ _
  split
  · next h =>
      rw [h]
      rfl
  · next p h =>
      rw [h]
      rfl

/-- **NOTHING ELSE IS TRIED**: once the watermark has no files, the walk rolls the registry back to the end
    of the window and gives up. -/
theorem walkBack_misses {spBlockIndex : Nat} {persisted : Finset Nat}
    (h : spBlockIndex ∉ persisted) {abort : Int} (n curTip mark : Nat) {s : State}
    (hn : (tree.nHeight curTip : Int) - abort ≤ n)
    (hpops : PopsSucceed s.sps ((tree.lineage curTip).take n)) :
    ∃ left mark' s', walkBack tree loadFile spBlockIndex abort curTip persisted mark s =
      .ok (some (-1, left), mark') s' := by
  induction n generalizing curTip mark s with
  | zero =>
      refine ⟨persisted, mark, s, ?_⟩
      rw [walkBack, if_neg fun hcond => ?_]
      · rfl
      · have := hcond.2
        push_cast at hn
        omega
  | succ n ih =>
      by_cases hcond : 0 < persisted.card ∧ abort < tree.nHeight curTip
      · rw [CBlockTree.lineage_eq, List.take_succ_cons] at hpops
        have htry : tryBlock loadFile spBlockIndex curTip persisted s = .ok (some persisted) s := by
          rw [tryBlock_misses h]
          rfl
        rw [walkBack_step mark hcond htry hpops.1]
        cases hprev : tree.pprev curTip with
        | none => exact ⟨persisted, mark, _, rfl⟩
        | some p =>
            have hheight := tree.height_pprev hprev
            have hrest := hpops.2
            rw [hprev] at hrest
            exact ih p p (by push_cast at hn; omega) hrest
      · refine ⟨persisted, mark, s, ?_⟩
        rw [walkBack, if_neg hcond]
        rfl

end Walk

/-! ## The result -/

section Result

variable {tree : CBlockTree} {fNames : List Text} {loadFile : Nat → FileType → ExecM Int}
  {watermark : Nat} {s : State}

/-- A watermark in the active chain stays where it is. -/
theorem loadMostRelevantState_eq (hactive : tree.contains watermark = true) :
    loadMostRelevantState tree fNames loadFile (some watermark) = (do
      match ← walkBack tree loadFile watermark (tree.nHeight watermark - (maxStateHistory + 1))
        watermark (persistedBlocks tree fNames) watermark with
      | (none, mark) => pure (-1, some mark)
      | (some (res, persisted), mark) =>
          pure (if persisted.card = 0 then -1 else res, some mark)) := by
  have hknown : ¬ tree.known watermark = false := by
    rw [tree.known_of_contains hactive]
    decide
  have hrewind : rewindToChain tree watermark watermark =
      pure (some (some watermark), watermark) := by
    rw [rewindToChain, if_pos hactive]
  unfold loadMostRelevantState
  dsimp only
  rw [if_neg hknown, hrewind]
  rfl

/-- If the walk gives up, so does the selection. -/
theorem loadMostRelevantState_of_walk (hactive : tree.contains watermark = true) {left : Finset Nat}
    {mark : Nat} {s' : State}
    (hwalk : walkBack tree loadFile watermark (tree.nHeight watermark - (maxStateHistory + 1))
      watermark (persistedBlocks tree fNames) watermark s = .ok (some (-1, left), mark) s') :
    loadMostRelevantState tree fNames loadFile (some watermark) s = .ok (-1, some mark) s' := by
  rw [loadMostRelevantState_eq hactive]
  simp only [bind, EStateM.bind]
  rw [hwalk]
  dsimp only
  rw [ite_self]
  rfl

/-- The window, as the walk counts it. -/
theorem window_take : tree.window watermark = (tree.lineage watermark).take 51 := rfl

/-- The watermark has no files: no state is found. -/
theorem load_noFiles (hactive : tree.contains watermark = true)
    (hpops : PopsSucceed s.sps (tree.window watermark))
    (h : watermark ∉ persistedBlocks tree fNames) :
    ∃ mark s', loadMostRelevantState tree fNames loadFile (some watermark) s = .ok (-1, mark) s' := by
  have hn : (tree.nHeight watermark : Int) - (tree.nHeight watermark - (maxStateHistory + 1)) ≤
      (51 : Nat) := by
    unfold maxStateHistory
    omega
  obtain ⟨left, mark, s', hwalk⟩ := walkBack_misses h 51 watermark watermark hn hpops
  exact ⟨_, s', loadMostRelevantState_of_walk hactive hwalk⟩

/-- The files of the watermark are loaded: that is the result. -/
theorem load_loaded (hactive : tree.contains watermark = true)
    (h : watermark ∈ persistedBlocks tree fNames) {success : Int} {s' : State} (hpos : 0 ≤ success)
    (hload : loadStateSet loadFile watermark fileTypes (-1) s = .ok success s') :
    loadMostRelevantState tree fNames loadFile (some watermark) s =
      .ok ((tree.nHeight watermark : Int), some watermark) s' := by
  have hcard : 0 < (persistedBlocks tree fNames).card := Finset.card_pos.mpr ⟨_, h⟩
  have hcond : 0 < (persistedBlocks tree fNames).card ∧
      (tree.nHeight watermark - (maxStateHistory + 1) : Int) < tree.nHeight watermark :=
    ⟨hcard, by unfold maxStateHistory; omega⟩
  have htry : tryBlock loadFile watermark watermark (persistedBlocks tree fNames) s = .ok none s' := by
    unfold tryBlock
    rw [if_pos h]
    simp only [bind, EStateM.bind]
    rw [hload]
    dsimp only
    rw [if_pos hpos]
    rfl
  rw [loadMostRelevantState_eq hactive]
  simp only [bind, EStateM.bind]
  rw [walkBack, if_pos hcond]
  simp only [bind, EStateM.bind]
  rw [htry]
  dsimp only [pure, EStateM.pure]
  rw [if_neg hcard.ne']

/-- The files of the watermark are refused: no state is found. -/
theorem load_refused (hactive : tree.contains watermark = true)
    (hkeeps : ∀ b what, Keeps (fun t : State => t.sps.records) (loadFile b what))
    (hpops : PopsSucceed s.sps (tree.window watermark))
    (h : watermark ∈ persistedBlocks tree fNames) {success : Int} {s' : State} (hneg : success < 0)
    (hload : loadStateSet loadFile watermark fileTypes (-1) s = .ok success s') :
    ∃ mark s', loadMostRelevantState tree fNames loadFile (some watermark) s = .ok (-1, mark) s' := by
  have hcond : 0 < (persistedBlocks tree fNames).card ∧
      (tree.nHeight watermark - (maxStateHistory + 1) : Int) < tree.nHeight watermark :=
    ⟨Finset.card_pos.mpr ⟨_, h⟩, by unfold maxStateHistory; omega⟩
  have htry : tryBlock loadFile watermark watermark (persistedBlocks tree fNames) s =
      .ok (some ((persistedBlocks tree fNames).erase watermark)) s' := by
    unfold tryBlock
    rw [if_pos h]
    simp only [bind, EStateM.bind]
    rw [hload]
    dsimp only
    rw [if_neg (not_le.mpr hneg)]
    rfl
  have hrecords : s'.sps.records = s.sps.records := by
    have hspec := wp_ok ((keeps_loadStateSet hkeeps watermark fileTypes (-1)).run s) hload
    exact hspec
  have hpops' := hpops.congr hrecords
  rw [window_take, CBlockTree.lineage_eq, List.take_succ_cons] at hpops'
  have hstep := walkBack_step watermark hcond htry hpops'.1
  cases hprev : tree.pprev watermark with
  | none =>
      rw [hprev] at hstep
      exact ⟨_, _, loadMostRelevantState_of_walk hactive hstep⟩
  | some p =>
      rw [hprev] at hstep
      have hheight := tree.height_pprev hprev
      have hrest : PopsSucceed ({ s' with sps := (s'.sps.popBlock watermark).2 } : State).sps
          ((tree.lineage p).take 50) := by
        have hbelow := hpops'.2
        rw [hprev] at hbelow
        exact hbelow
      have hn : (tree.nHeight p : Int) - (tree.nHeight watermark - (maxStateHistory + 1)) ≤
          (50 : Nat) := by
        unfold maxStateHistory
        omega
      obtain ⟨left, mark, s'', hwalk⟩ := walkBack_misses
        (Finset.notMem_erase watermark (persistedBlocks tree fNames)) 50 p p hn hrest
      exact ⟨_, s'', loadMostRelevantState_of_walk hactive (hstep.trans hwalk)⟩

/-- Nothing is above the watermark. -/
theorem canRestore_watermark : CanRestore tree fNames loadFile s [] watermark ↔
    watermark ∈ persistedBlocks tree fNames ∧ ∃ success s', 0 ≤ success ∧
      loadStateSet loadFile watermark fileTypes (-1) s = .ok success s' := by
  constructor
  · rintro ⟨s', hpersisted, success, hpos, hload⟩
    exact ⟨hpersisted, success, s', hpos, hload⟩
  · rintro ⟨hpersisted, success, s', hpos, hload⟩
    exact ⟨s', hpersisted, success, hpos, hload⟩

/-- Without a state of the watermark the result is -1, if the files of the watermark can be read. -/
theorem load_nothing (hactive : tree.contains watermark = true)
    (hkeeps : ∀ b what, Keeps (fun t : State => t.sps.records) (loadFile b what))
    (hpops : PopsSucceed s.sps (tree.window watermark))
    (hno : ¬ CanRestore tree fNames loadFile s [] watermark)
    (hreads : ¬ WatermarkThrows tree fNames loadFile watermark s) :
    ∃ mark s', loadMostRelevantState tree fNames loadFile (some watermark) s = .ok (-1, mark) s' := by
  by_cases h : watermark ∈ persistedBlocks tree fNames
  · cases hload : loadStateSet loadFile watermark fileTypes (-1) s with
    | ok success s' =>
        rcases lt_or_ge success 0 with hneg | hpos
        · exact load_refused hactive hkeeps hpops h hneg hload
        · exact absurd (canRestore_watermark.mpr ⟨h, success, s', hpos, hload⟩) hno
    | error e s' => exact absurd ⟨h, e, s', hload⟩ hreads
  · exact load_noFiles hactive hpops h

/-- If the files of the watermark cannot be read, neither does the selection return. -/
theorem load_throws (hactive : tree.contains watermark = true)
    (h : WatermarkThrows tree fNames loadFile watermark s) {res : Int × Option Nat} {s' : State} :
    loadMostRelevantState tree fNames loadFile (some watermark) s ≠ .ok res s' := by
  obtain ⟨hpersisted, e, s₁, hload⟩ := h
  have hcond : 0 < (persistedBlocks tree fNames).card ∧
      (tree.nHeight watermark - (maxStateHistory + 1) : Int) < tree.nHeight watermark :=
    ⟨Finset.card_pos.mpr ⟨_, hpersisted⟩, by unfold maxStateHistory; omega⟩
  have htry : tryBlock loadFile watermark watermark (persistedBlocks tree fNames) s = .error e s₁ := by
    unfold tryBlock
    rw [if_pos hpersisted]
    simp only [bind, EStateM.bind]
    rw [hload]
  rw [loadMostRelevantState_eq hactive]
  simp only [bind, EStateM.bind]
  rw [walkBack, if_pos hcond]
  simp only [bind, EStateM.bind]
  rw [htry]
  exact fun heq => nomatch heq

/-- If some block can be gone back to, there is a highest one. -/
theorem exists_best (h : ¬ NothingToRestore tree fNames loadFile watermark s) :
    ∃ above b below, tree.window watermark = above ++ b :: below ∧
      CanRestore tree fNames loadFile s above b ∧
      ∀ above' b' below', above = above' ++ b' :: below' →
        ¬ CanRestore tree fNames loadFile s above' b' := by
  classical
  have hexists : ∃ n above b below, above.length = n ∧
      tree.window watermark = above ++ b :: below ∧ CanRestore tree fNames loadFile s above b := by
    by_contra hnone
    exact h fun above b below hwindow hcan => hnone ⟨_, above, b, below, rfl, hwindow, hcan⟩
  obtain ⟨above, b, below, hlength, hwindow, hcan⟩ := Nat.find_spec hexists
  refine ⟨above, b, below, hwindow, hcan, fun above' b' below' heq hcan' => ?_⟩
  -- a block above that could be gone back to would have been found before
  have hshorter : above'.length < Nat.find hexists := by
    rw [← hlength, heq, List.length_append, List.length_cons]
    omega
  refine Nat.find_min hexists hshorter ⟨above', b', below' ++ b :: below, rfl, ?_, hcan'⟩
  rw [hwindow, heq, List.append_assoc, List.cons_append]

/-- **THE BEST STATE IS FOUND EXACTLY IF IT IS THAT OF THE WATERMARK**, or if there is none and the files of
    the watermark can be read. -/
theorem selectsBest_iff (hactive : tree.contains watermark = true)
    (hkeeps : ∀ b what, Keeps (fun t : State => t.sps.records) (loadFile b what))
    (hpops : PopsSucceed s.sps (tree.window watermark)) :
    SelectsBest tree fNames loadFile watermark s ↔
      CanRestore tree fNames loadFile s [] watermark ∨
        (NothingToRestore tree fNames loadFile watermark s ∧
          ¬ WatermarkThrows tree fNames loadFile watermark s) := by
  obtain ⟨rest, hwindow⟩ : ∃ rest, tree.window watermark = watermark :: rest := window_eq watermark
  constructor
  · intro h
    by_cases hfirst : CanRestore tree fNames loadFile s [] watermark
    · exact Or.inl hfirst
    · have hreads : ¬ WatermarkThrows tree fNames loadFile watermark s := by
        intro hthrows
        by_cases hnothing : NothingToRestore tree fNames loadFile watermark s
        · obtain ⟨mark, s', hrun⟩ := h.nothing hnothing
          exact load_throws hactive hthrows hrun
        · obtain ⟨above, b, below, hwin, hcan, hhighest⟩ := exists_best hnothing
          obtain ⟨s', -, hrun⟩ := h.best above b below hwin hhighest hcan
          exact load_throws hactive hthrows hrun
      refine Or.inr ⟨?_, hreads⟩
      by_contra hnothing
      -- the code answers -1, and not the height of the highest block
      obtain ⟨above, b, below, hwin, hcan, hhighest⟩ := exists_best hnothing
      obtain ⟨s', -, hrun⟩ := h.best above b below hwin hhighest hcan
      obtain ⟨mark, s'', hrun'⟩ := load_nothing hactive hkeeps hpops hfirst hreads
      rw [hrun] at hrun'
      injection hrun' with hres
      have hheight : (tree.nHeight b : Int) = -1 := congrArg Prod.fst hres
      omega
  · rintro (hfirst | ⟨hnothing, hreads⟩)
    · refine ⟨fun above b below hwin hhighest hcan => ?_, fun hnothing => ?_⟩
      · cases above with
        | nil =>
            rw [hwindow, List.nil_append, List.cons.injEq] at hwin
            obtain ⟨rfl, -⟩ := hwin
            obtain ⟨s', hrestores⟩ := hcan
            obtain ⟨success, hpos, hload⟩ := hrestores.loads
            exact ⟨s', hrestores, load_loaded hactive hrestores.persisted hpos hload⟩
        | cons b' above =>
            rw [hwindow, List.cons_append, List.cons.injEq] at hwin
            obtain ⟨rfl, -⟩ := hwin
            exact absurd hfirst (hhighest [] watermark above rfl)
      · exact absurd hfirst (hnothing [] watermark rest hwindow)
    · refine ⟨fun above b below hwin _ hcan => absurd hcan (hnothing above b below hwin), fun _ => ?_⟩
      exact load_nothing hactive hkeeps hpops (hnothing [] watermark rest hwindow) hreads

end Result

/-! ## The files of this version -/

section Readers

/-- An entry is made, unless its place is taken. -/
theorem keeps_insertNew {τ α : Type} {view : State → τ} {taken : State → Bool} {f : State → State}
    (hf : ∀ s, view (f s) = view s) (a b : α) :
    Keeps view (do
      let s ← get
      if taken s then pure a
      else
        set (f s)
        pure b : ExecM α) := by
  refine ⟨fun s => ?_⟩
  simp only [wp_bind, wp_get, wp_ite, wp_set, wp_pure]
  exact ⟨fun _ => trivial, fun _ => hf s⟩

theorem keeps_lexicalCast {τ α : Type} {view : State → τ} (a : Option α) :
    Keeps view (lexicalCast a) := by
  cases a with
  | none => exact Keeps.throw _
  | some a => exact Keeps.pure a

theorem keeps_updateTallyMap (who : Address) (p : PropertyId) (amount : Int) (ty : TallyType) :
    Keeps (fun t : State => t.sps.records) (updateTallyMap who p amount ty) := by
  refine ⟨fun s => ?_⟩
  unfold updateTallyMap
  simp only [wp_bind, wp_ite, wp_pure, wp_get, wp_set, wp_assertThat]
  simp [State.withTally]

/-- Balances are credited, or the line is refused. -/
theorem keeps_inputMscBalancesString (line : Text) :
    Keeps (fun t : State => t.sps.records) (inputMscBalancesString line) := by
  have hone : ∀ address property,
      Keeps (fun t : State => t.sps.records) (inputProperty address property) := by
    intro address property
    unfold inputProperty
    split
    · split
      · iterate 5 refine (keeps_lexicalCast _).bind fun _ => ?_
        refine (keeps_lexicalCast _).bind fun who => ?_
        repeat' first
          | exact Keeps.pure _
          | refine Keeps.ite ?_ ?_
          | refine (keeps_updateTallyMap ..).bind fun _ => ?_
      · exact Keeps.pure _
    · exact Keeps.pure _
  have hall : ∀ address l,
      Keeps (fun t : State => t.sps.records) (inputProperties address l) := by
    intro address l
    induction l with
    | nil => exact Keeps.pure _
    | cons property rest ih =>
        rw [inputProperties]
        exact ih.ite ((hone address property).bind fun res => (Keeps.pure res).ite ih)
  unfold inputMscBalancesString
  split
  · exact hall _ _
  · exact Keeps.pure _

theorem keeps_inputMpOffersString (line : Text) :
    Keeps (fun t : State => t.sps.records) (inputMpOffersString line) := by
  unfold inputMpOffersString
  split
  · iterate 7 refine (keeps_lexicalCast _).bind fun _ => ?_
    refine (Keeps.pure _).ite ?_
    refine keeps_insertNew (fun s => ?_) _ _
    rfl
  · exact Keeps.pure _

theorem keeps_inputMpAcceptsString (line : Text) :
    Keeps (fun t : State => t.sps.records) (inputMpAcceptsString line) := by
  unfold inputMpAcceptsString
  split
  · iterate 5 refine (keeps_lexicalCast _).bind fun _ => ?_
    refine keeps_insertNew (fun s => ?_) _ _
    rfl
  · exact Keeps.pure _

/-- The globals set the next identifiers, and no entries. -/
theorem keeps_inputGlobalsStateString (line : Text) :
    Keeps (fun t : State => t.sps.records) (inputGlobalsStateString line) := by
  unfold inputGlobalsStateString
  split
  · iterate 4 refine (keeps_lexicalCast _).bind fun _ => ?_
    refine Keeps.bind ?_ fun _ => Keeps.pure _
    exact Keeps.modify fun _ => rfl
  · exact Keeps.pure _

theorem keeps_inputMpCrowdsaleString (line : Text) :
    Keeps (fun t : State => t.sps.records) (inputMpCrowdsaleString line) := by
  have hvalues : ∀ values : List Text, Keeps (fun t : State => t.sps.records)
      (values.mapM fun value => lexicalCast (castInt 64 value)) := by
    intro values
    induction values with
    | nil => exact Keeps.pure _
    | cons value rest ih =>
        rw [List.mapM_cons]
        exact (keeps_lexicalCast _).bind fun _ => ih.bind fun _ => Keeps.pure _
  have hdata : ∀ entries data,
      Keeps (fun t : State => t.sps.records) (inputFundraiserData entries data) := by
    intro entries
    induction entries with
    | nil => exact fun _ => Keeps.pure _
    | cons entry rest ih =>
        intro data
        rw [inputFundraiserData]
        split
        · exact (hvalues _).bind fun _ => ih _
        · exact Keeps.pure _
  unfold inputMpCrowdsaleString
  split
  · iterate 8 refine (keeps_lexicalCast _).bind fun _ => ?_
    refine (hdata _ _).bind fun data => ?_
    split
    · exact Keeps.pure _
    · refine (keeps_lexicalCast _).bind fun _ => ?_
      refine keeps_insertNew (fun s => ?_) _ _
      rfl
  · exact Keeps.pure _

theorem keeps_inputMpMdexorderString (line : Text) :
    Keeps (fun t : State => t.sps.records) (inputMpMdexorderString line) := by
  have hinsert : ∀ o, Keeps (fun t : State => t.sps.records) (metaDExInsert o) := by
    intro o
    refine keeps_insertNew (fun s => ?_) _ _
    rfl
  unfold inputMpMdexorderString
  split
  · iterate 8 refine (keeps_lexicalCast _).bind fun _ => ?_
    exact (keeps_lexicalCast _).bind fun _ => (hinsert _).bind fun _ => Keeps.pure _
  · exact Keeps.pure _

/-- **LOADING A FILE** leaves the entries of the registry alone. -/
theorem keeps_mscFileLoad (sha256d : Text → Txid) (file : Option Text) (what : FileType)
    (verifyHash : Bool) :
    Keeps (fun t : State => t.sps.records) (mscFileLoad sha256d file what verifyHash) := by
  have hlines : ∀ {inputLine : Text → ExecM Int},
      (∀ line, Keeps (fun t : State => t.sps.records) (inputLine line)) → ∀ lines h,
        Keeps (fun t : State => t.sps.records) (loadLines inputLine verifyHash lines h) := by
    intro inputLine hinput lines
    induction lines with
    | nil => exact fun _ => Keeps.pure _
    | cons line rest ih =>
        intro h
        rw [loadLines]
        refine (ih h).ite ((ih _).ite ?_)
        exact (hinput _).bind fun res => (Keeps.pure _).ite (ih _)
  have hfile : ∀ {clear : State → State} {inputLine : Text → ExecM Int},
      inputLineFunc what = some (clear, inputLine) →
      (∀ s, (clear s).sps.records = s.sps.records) →
      (∀ line, Keeps (fun t : State => t.sps.records) (inputLine line)) →
      Keeps (fun t : State => t.sps.records) (mscFileLoad sha256d file what verifyHash) := by
    intro clear inputLine hfunc hclear hinput
    unfold mscFileLoad
    rw [hfunc]
    refine (Keeps.modify hclear).bind fun _ => ?_
    cases file with
    | none => exact Keeps.pure _
    | some content =>
        refine (hlines hinput _ _).bind fun res => ?_
        cases res with
        | none => exact Keeps.pure _
        | some h => exact (Keeps.pure _).ite (Keeps.pure _)
  cases what with
  | balances => exact hfile rfl (fun _ => rfl) keeps_inputMscBalancesString
  | offers => exact hfile rfl (fun _ => rfl) keeps_inputMpOffersString
  | accepts => exact hfile rfl (fun _ => rfl) keeps_inputMpAcceptsString
  | globals => exact hfile rfl (fun _ => rfl) keeps_inputGlobalsStateString
  | crowdsales => exact hfile rfl (fun _ => rfl) keeps_inputMpCrowdsaleString
  | mdexorders => exact hfile rfl (fun _ => rfl) keeps_inputMpMdexorderString
  | cdexorders => exact Keeps.pure _

/-- `msc_file_load` of the files of the blocks. -/
def mscFileOf (sha256d : Text → Txid) (files : Nat → FileType → Option Text) (b : Nat)
    (what : FileType) : ExecM Int := mscFileLoad sha256d (files b what) what true

theorem keeps_mscFileOf (sha256d : Text → Txid) (files : Nat → FileType → Option Text) (b : Nat)
    (what : FileType) : Keeps (fun t : State => t.sps.records) (mscFileOf sha256d files b what) :=
  keeps_mscFileLoad sha256d (files b what) what true

/-- The loop of the state files is the loop over the files of one block. -/
theorem loadStateFiles_eq (sha256d : Text → Txid) (files : Nat → FileType → Option Text) (b : Nat)
    (l : List FileType) (success : Int) :
    loadStateFiles sha256d (files b) l success =
      loadStateSet (mscFileOf sha256d files) b l success := by
  induction l generalizing success with
  | nil => rfl
  | cons what rest ih =>
      rw [loadStateFiles, loadStateSet]
      simp only [ih]
      rfl

/-- **NO COMPLETE SET CAN BE LOADED** by this version: contract orders have no reader. -/
theorem mscFileOf_nothing (sha256d : Text → Txid) (files : Nat → FileType → Option Text)
    (tree : CBlockTree) (fNames : List Text) (watermark : Nat) (s : State) :
    NothingToRestore tree fNames (mscFileOf sha256d files) watermark s := by
  rintro above b below - ⟨s', hrestores⟩
  obtain ⟨success, hpos, hrun⟩ := hrestores.loads
  rw [← loadStateFiles_eq] at hrun
  have hvalue : value (loadStateFiles sha256d (files b) fileTypes (-1))
      { s with sps := rollBack s.sps above } = some success := by
    unfold value
    rw [hrun]
  have hrefused := loadStateFiles_refused (by decide : FileType.cdexorders ∈ fileTypes)
    (fun _ => rfl) hvalue
  omega

end Readers

/-! ## Three blocks -/

/-- Block 3 on block 2 on block 1. -/
def threeBlocks : CBlockTree where
  known b := b == 1 || b == 2 || b == 3
  contains b := b == 1 || b == 2 || b == 3
  pprev
    | 3 => some 2
    | 2 => some 1
    | _ => none
  nHeight
    | 3 => 2
    | 2 => 1
    | _ => 0
  known_of_contains h := h
  contains_pprev := by
    intro b p hprev _
    split at hprev
    · cases hprev
      rfl
    · cases hprev
      rfl
    · cases hprev
  height_pprev := by
    intro b p hprev
    split at hprev
    · cases hprev
      rfl
    · cases hprev
      rfl
    · cases hprev

theorem threeBlocks_window : threeBlocks.window 3 = [3, 2, 1] := by
  unfold CBlockTree.window
  rw [CBlockTree.lineage_eq]
  show (3 :: threeBlocks.lineage 2).take 51 = _
  rw [CBlockTree.lineage_eq]
  show (3 :: 2 :: threeBlocks.lineage 1).take 51 = _
  rw [CBlockTree.lineage_eq]
  rfl

/-- Files that can be loaded for one block only. -/
def loadOnly (block b : Nat) (_ : FileType) : ExecM Int := pure (if b = block then 0 else -1)

theorem keeps_loadOnly (block : Nat) (b : Nat) (what : FileType) :
    Keeps (fun t : State => t.sps.records) (loadOnly block b what) := Keeps.pure _

set_option maxRecDepth 4000 in
theorem threeBlocks_pops : PopsSucceed (State.fresh regTestParams).sps (threeBlocks.window 3) := by
  rw [threeBlocks_window]
  exact ⟨by decide +kernel, by decide +kernel, by decide +kernel, trivial⟩

/-- The balances of block 3, without any, and their hash. -/
def emptyBalances (b : Nat) : FileType → Option Text
  | .balances => if b = 3 then some ('!' :: (txidText 0 ++ ['\n'])) else none
  | _ => none

set_option maxRecDepth 8000 in
theorem emptyBalances_read :
    value (loadStateSet (mscFileOf (fun _ => 0) emptyBalances) 3 fileTypes (-1))
      (State.fresh regTestParams) = some (-1) := by decide +kernel

/-- The state of the watermark is found; the readers of this version accept its balances and find that
    the other files are missing, and -1 is right. -/
theorem watermark_selected :
    SelectsBest threeBlocks ["balances-3.dat".toList] (loadOnly 3) 3 (State.fresh regTestParams) ∧
      SelectsBest threeBlocks ["balances-3.dat".toList] (mscFileOf (fun _ => 0) emptyBalances) 3
        (State.fresh regTestParams) := by
  constructor
  · refine (selectsBest_iff rfl (keeps_loadOnly 3) threeBlocks_pops).mpr (Or.inl ?_)
    exact ⟨_, by decide +kernel, 0, le_rfl, rfl⟩
  · refine (selectsBest_iff rfl (keeps_mscFileOf _ emptyBalances) threeBlocks_pops).mpr
      (Or.inr ⟨mscFileOf_nothing _ _ _ _ _ _, ?_⟩)
    rintro ⟨-, e, s', hthrows⟩
    rw [eq_ok_of_value emptyBalances_read] at hthrows
    cases hthrows

/-- **THE BLOCK BELOW THE WATERMARK** has files that can be loaded, and the answer is -1. -/
theorem block_below_missed : threeBlocks.contains 3 = true ∧
    (∀ b what, Keeps (fun t : State => t.sps.records) (loadOnly 2 b what)) ∧
    PopsSucceed (State.fresh regTestParams).sps (threeBlocks.window 3) ∧
    ¬ SelectsBest threeBlocks ["balances-2.dat".toList] (loadOnly 2) 3 (State.fresh regTestParams) := by
  refine ⟨rfl, keeps_loadOnly 2, threeBlocks_pops, fun h => ?_⟩
  have hno : 3 ∉ persistedBlocks threeBlocks ["balances-2.dat".toList] := by decide +kernel
  have hcan : CanRestore threeBlocks ["balances-2.dat".toList] (loadOnly 2)
      (State.fresh regTestParams) [3] 2 := ⟨_, by decide +kernel, 0, le_rfl, rfl⟩
  obtain ⟨s', -, hrun⟩ := h.best [3] 2 [1] threeBlocks_window (fun above b below heq hcan => by
    cases above with
    | nil =>
        cases heq
        exact hno hcan.choose_spec.persisted
    | cons b' above => cases above <;> cases heq) hcan
  have hmissed : ∃ mark s', loadMostRelevantState threeBlocks ["balances-2.dat".toList] (loadOnly 2)
      (some 3) (State.fresh regTestParams) = .ok (-1, mark) s' :=
    load_noFiles rfl threeBlocks_pops hno
  obtain ⟨mark, s'', hrun'⟩ := hmissed
  rw [hrun] at hrun'
  injection hrun' with hres
  have hone : (1 : Int) = -1 := congrArg Prod.fst hres
  exact absurd hone (by decide)

end OmniCore
