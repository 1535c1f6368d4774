import OmniCore.ContractRun
import OmniCore.Lib.Sweep
import OmniCore.Outstanding

/-! # FeeHistory — numbered distributions

    A distribution is recorded under the number of the records there are, plus one. Going
    back before a block deletes the distributions of that block and of later ones. Between
    two rollbacks the blocks never decrease, so that what is deleted is the end of the
    history, and the numbers stay 1 to n although the database iterates them as texts. -/

namespace OmniCore

open Std (ExtTreeMap)
open Machine TextRec MapSum Sweep Exec

/-! ## The database -/

/-- `std::set<feeHistoryItem>`: addresses with what they received. -/
abbrev FeeRecipients := ExtTreeMap (Text × Int) Unit pairCmp

/-- Separator of a recipient and its amount. -/
def isEquals (c : Char) : Bool := c == '='

/-- One entry of `COmniFeeHistory::RollBackHistory`. -/
def rollBackEntry (block : Int) (e : Text × Text) : ExecM Unit :=
  match split isColon e.2 with
  | [feeBlockText, _, _, _] =>
      match castInt 32 feeBlockText with
      | some feeBlock =>
          if block ≤ feeBlock then modify fun s => { s with feeHistory := s.feeHistory.erase e.1 }
          else pure ()
      | none => throw .exception
  | _ => pure () -- bad data

/-- `COmniFeeHistory::RollBackHistory`, block is inclusive. -/
def rollBackHistory (block : Int) : ExecM Unit := do
  let s ← get
  s.feeHistory.toList.forM (rollBackEntry block)

/-- What `GetDistributionData` reads off a value. -/
def readDistributionData (strValue : Text) : ExecM (Option (PropertyId × Int × Int)) :=
  match split isColon strValue with
  | [block, propertyId, total, _] =>
      match castInt 32 block, castNat 32 propertyId, castInt 64 total with
      | some b, some p, some t => pure (some (p, b, t))
      | _, _, _ => throw .exception
  | _ => pure none

/-- `COmniFeeHistory::GetDistributionData`: property, block and total of a distribution. -/
def getDistributionData (id : Int) : ExecM (Option (PropertyId × Int × Int)) := do
  let s ← get
  match s.feeHistory[decInt id]? with
  | none => pure none
  | some strValue => readDistributionData strValue

/-- One recipient, read back; a text with another number of parts is skipped. -/
def readRecipient (h : FeeRecipients) (t : Text) : ExecM FeeRecipients :=
  match split isEquals t with
  | [address, amount] =>
      match castInt 64 amount with
      | some a => pure (h.insert (address, a) ())
      | none => throw .exception
  | _ => pure h

/-- What `GetFeeDistribution` reads off a value. -/
def readFeeDistribution (strValue : Text) : ExecM FeeRecipients :=
  match split isColon strValue with
  | [_, _, _, recipients] => (split isComma recipients).foldlM readRecipient ∅
  | _ => pure ∅

/-- `COmniFeeHistory::GetFeeDistribution`: the recipients of a distribution. -/
def getFeeDistribution (id : Int) : ExecM FeeRecipients := do
  let s ← get
  match s.feeHistory[decInt id]? with
  | none => pure ∅
  | some strValue => readFeeDistribution strValue

/-! ## Distributions -/

/-- What a distribution is recorded with: C++ integers, and recipients that are addresses. -/
structure FeeDistribution where
  propertyId : PropertyId
  block : Int
  total : Int
  recipients : FeeRecipients
  propertyId_lt : propertyId < 2 ^ 32
  block_int : -2 ^ 31 ≤ block ∧ block < 2 ^ 31
  total_int : IsInt64 total
  address : ∀ e ∈ recipients, ∃ a : Address, e.1 = a.text
  amount : ∀ e ∈ recipients, IsInt64 e.2

namespace FeeDistribution

/-- The recipients as they are stored. -/
def recipientTexts (d : FeeDistribution) : List Text :=
  d.recipients.toList.map fun e => e.1.1 ++ '=' :: decInt e.1.2

/-- The value of the record. -/
def text (d : FeeDistribution) : Text :=
  joinWith ':' [decInt d.block, decNat d.propertyId, decInt d.total, joinWith ',' d.recipientTexts]

end FeeDistribution

/-- `RecordFeeDistribution` writes such a value under the next number. -/
theorem recordFeeDistribution_run (d : FeeDistribution) (s : State) :
    recordFeeDistribution d.propertyId d.block d.total d.recipients s =
      .ok () { s with feeHistory := s.feeHistory.insert (decNat (s.feeHistory.size + 1)) d.text } :=
  rfl

/-! ## Runs -/

/-- A call of `RecordFeeDistribution` or of `RollBackHistory`. -/
inductive FeeHistoryCall
  | record (d : FeeDistribution)
  | rollBack (block : Int)

namespace FeeHistoryCall

/-- The call. -/
def exec : FeeHistoryCall → ExecM Unit
  | record d => recordFeeDistribution d.propertyId d.block d.total d.recipients
  | rollBack block => rollBackHistory block

/-- What it does to the distributions. -/
def apply (l : List FeeDistribution) : FeeHistoryCall → List FeeDistribution
  | record d => l ++ [d]
  | rollBack block => l.filter fun d => decide (d.block < block)

/-- The least block of the next distribution: that of the last one, or that of the last rollback. -/
def floor : FeeHistoryCall → Int
  | record d => d.block
  | rollBack block => block

end FeeHistoryCall

/-- Blocks never decrease between rollbacks, and start again at the block of a rollback. -/
def Resumes : Option Int → List FeeHistoryCall → Prop
  | _, [] => True
  | least, .record d :: rest => (∀ b ∈ least, b ≤ d.block) ∧ Resumes (some d.block) rest
  | _, .rollBack block :: rest => Resumes (some block) rest

/-- The distributions that a run leaves. -/
def distributionsAfter (calls : List FeeHistoryCall) : List FeeDistribution :=
  calls.foldl FeeHistoryCall.apply []

/-! ## What is expected -/

/-- **THE HISTORY HOLDS THESE DISTRIBUTIONS**, numbered from 1. -/
structure HoldsDistributions (l : List FeeDistribution) (s : State) : Prop where
  ids : ∀ key : Text, s.feeHistory[key]?.isSome = true ↔
    ∃ id : Nat, 1 ≤ id ∧ id ≤ l.length ∧ key = decInt id
  data : ∀ (i : Nat) d, l[i]? = some d →
    getDistributionData ((i + 1 : Nat) : Int) s = .ok (some (d.propertyId, d.block, d.total)) s
  recipients : ∀ (i : Nat) d, l[i]? = some d →
    getFeeDistribution ((i + 1 : Nat) : Int) s = .ok d.recipients s

/-- **A CALL IS EXACT**: a recorded distribution gets a new number, and a rollback removes just the
    distributions that are not older. -/
def CallExact (l : List FeeDistribution) (s s' : State) : FeeHistoryCall → Prop
  | .record d => s.feeHistory[decInt ((l.length + 1 : Nat) : Int)]? = none ∧
      s'.feeHistory = s.feeHistory.insert (decInt ((l.length + 1 : Nat) : Int)) d.text
  | .rollBack block => ∀ (i : Nat) d, l[i]? = some d →
      s'.feeHistory[decInt ((i + 1 : Nat) : Int)]? =
        if block ≤ d.block then none else s.feeHistory[decInt ((i + 1 : Nat) : Int)]?

/-! ## Reading a record -/

theorem isEquals_of_isDigit (c : Char) (h : c.isDigit = true) : isEquals c = false := by
  unfold isEquals
  rw [beq_eq_false_iff_ne]
  rintro rfl
  exact absurd h (by decide)

namespace FeeDistribution

/-- A stored recipient has no colon and no comma, and is cut at its equals sign. -/
theorem recipientText (d : FeeDistribution) {e : Text × Int} (he : e ∈ d.recipients) :
    Free isColon (e.1 ++ '=' :: decInt e.2) ∧ Free isComma (e.1 ++ '=' :: decInt e.2) ∧
      split isEquals (e.1 ++ '=' :: decInt e.2) = [e.1, decInt e.2] := by
  obtain ⟨a, ha⟩ := d.address e he
  have hnot : ∀ c d : Char, isBase58 c = true → isBase58 d = false → (c == d) = false := by
    intro c d hc hd
    rw [beq_eq_false_iff_ne]
    rintro rfl
    rw [hc] at hd
    cases hd
  have hfree : ∀ m : Char, isBase58 m = false → (∀ c, c.isDigit = true → (c == m) = false) →
      (('=' == m) = false) → (('-' == m) = false) → Free (· == m) (e.1 ++ '=' :: decInt e.2) := by
    intro m hm hdigit hequals hminus c hc
    rcases List.mem_append.mp hc with hc | hc
    · rw [ha] at hc
      exact a.free_text (fun c hc => hnot c m hc hm) c hc
    · rcases List.mem_cons.mp hc with rfl | hc
      · exact hequals
      · exact free_decInt hdigit hminus e.2 c hc
  refine ⟨hfree ':' (by decide) isColon_of_isDigit (by decide) (by decide),
    hfree ',' (by decide) isComma_of_isDigit (by decide) (by decide), ?_⟩
  have haddress : Free isEquals e.1 := by
    rw [ha]
    exact a.free_text fun c hc => hnot c '=' hc (by decide)
  have hamount : Free isEquals (decInt e.2) := free_decInt isEquals_of_isDigit (by decide) e.2
  rw [split_cons haddress (by decide) fun c hc => hamount c (List.mem_of_mem_head? hc),
    split_free hamount]

theorem mem_recipients {d : FeeDistribution} {e : (Text × Int) × Unit}
    (he : e ∈ d.recipients.toList) : e.1 ∈ d.recipients := by
  rw [ExtTreeMap.mem_iff_isSome_getElem?, mem_toList_iff.mp he]
  rfl

/-- A value is split into its four fields, also if there are no recipients. -/
theorem split_text (d : FeeDistribution) : split isColon d.text =
    [decInt d.block, decNat d.propertyId, decInt d.total, joinWith ',' d.recipientTexts] := by
  have hlast : Free isColon (joinWith ',' d.recipientTexts) := by
    refine free_joinWith (by decide) fun t ht => ?_
    obtain ⟨e, he, rfl⟩ := List.mem_map.mp ht
    exact (d.recipientText (mem_recipients he)).1
  have hint : ∀ n : Int, Free isColon (decInt n) := free_decInt isColon_of_isDigit (by decide)
  have hnat : Free isColon (decNat d.propertyId) := free_decNat isColon_of_isDigit d.propertyId
  have hhead : ∀ {t rest : Text}, Free isColon t → t ≠ [] →
      ∀ c ∈ (t ++ ':' :: rest).head?, isColon c = false := by
    intro t rest ht hne c hc
    rw [List.head?_append_of_ne_nil _ hne] at hc
    exact ht c (List.mem_of_mem_head? hc)
  show split isColon (decInt d.block ++ ':' :: (decNat d.propertyId ++ ':' ::
    (decInt d.total ++ ':' :: joinWith ',' d.recipientTexts))) = _
  rw [split_cons (hint _) rfl (hhead hnat (decNat_ne_nil _)),
    split_cons hnat rfl (hhead (hint _) (decInt_ne_nil _)),
    split_cons (hint _) rfl (fun c hc => hlast c (List.mem_of_mem_head? hc)), split_free hlast]

theorem castInt_block (d : FeeDistribution) : castInt 32 (decInt d.block) = some d.block :=
  castInt_decInt d.block_int.1 d.block_int.2

/-- **DATA READS BACK**. -/
theorem readDistributionData_text (d : FeeDistribution) :
    readDistributionData d.text = pure (some (d.propertyId, d.block, d.total)) := by
  unfold readDistributionData
  rw [d.split_text]
  dsimp only
  rw [d.castInt_block, castNat_decNat d.propertyId_lt, castInt_decInt64 d.total_int]

/-- Recipients one after the other. -/
theorem foldlM_readRecipient (d : FeeDistribution) {l : List ((Text × Int) × Unit)}
    (hl : ∀ e ∈ l, e.1 ∈ d.recipients) (acc : FeeRecipients) :
    (l.map fun e => e.1.1 ++ '=' :: decInt e.1.2).foldlM readRecipient acc =
      (pure (l.foldl (fun m e => m.insert e.1 e.2) acc) : ExecM FeeRecipients) := by
  induction l generalizing acc with
  | nil => rfl
  | cons e rest ih =>
      have he := hl e List.mem_cons_self
      have hread : readRecipient acc (e.1.1 ++ '=' :: decInt e.1.2) =
          pure (acc.insert e.1 e.2) := by
        unfold readRecipient
        rw [(d.recipientText he).2.2]
        dsimp only
        rw [castInt_decInt64 (d.amount e.1 he)]
      rw [List.map_cons, List.foldlM_cons, hread, pure_bind,
        ih fun e' he' => hl e' (List.mem_cons_of_mem e he')]
      rfl

/-- **RECIPIENTS READ BACK**, many, one or none. -/
theorem readFeeDistribution_text (d : FeeDistribution) :
    readFeeDistribution d.text = pure d.recipients := by
  have hread := d.foldlM_readRecipient (l := d.recipients.toList)
    (fun e he => mem_recipients he) ∅
  rw [foldl_insert_toList] at hread
  unfold readFeeDistribution
  rw [d.split_text]
  dsimp only
  by_cases hnil : d.recipientTexts = []
  · -- without recipients, the last field is empty and is passed over
    have hempty : d.recipients.toList = [] := List.map_eq_nil_iff.mp hnil
    rw [hempty] at hread
    rw [hnil, ← hread]
    rfl
  · rw [split_joinWith rfl hnil, recipientTexts, hread]
    · intro t ht
      obtain ⟨e, he, rfl⟩ := List.mem_map.mp ht
      exact (d.recipientText (mem_recipients he)).2.1
    · intro t ht
      obtain ⟨e, _, rfl⟩ := List.mem_map.mp ht
      simp

/-- The block of a stored value decides about its entry. -/
theorem rollBackEntry_text (d : FeeDistribution) (block : Int) (key : Text) (s : State) :
    rollBackEntry block (key, d.text) s = .ok () { s with
      feeHistory := if block ≤ d.block then s.feeHistory.erase key else s.feeHistory } := by
  unfold rollBackEntry
  dsimp only
  rw [d.split_text]
  dsimp only
  rw [d.castInt_block]
  dsimp only
  by_cases hblock : block ≤ d.block
  · rw [if_pos hblock, if_pos hblock]
    rfl
  · rw [if_neg hblock, if_neg hblock]
    rfl

end FeeDistribution

/-! ## The history of a node -/

/-- The database holds these distributions under their numbers, and nothing else. -/
structure StoredDistributions (l : List FeeDistribution) (db : TextDB) : Prop where
  value : ∀ (i : Nat) d, l[i]? = some d → db[decNat (i + 1)]? = some d.text
  key : ∀ (k v : Text), db[k]? = some v →
    ∃ (i : Nat) (d : FeeDistribution), l[i]? = some d ∧ k = decNat (i + 1) ∧ v = d.text

namespace StoredDistributions

variable {l : List FeeDistribution} {db : TextDB}

theorem empty : StoredDistributions [] ∅ := by
  constructor
  · intro i d h
    cases h
  · intro k v h
    rw [ExtTreeMap.getElem?_empty] at h
    cases h

/-- **THE COUNT** of the records is the number of distributions. -/
theorem size (h : StoredDistributions l db) : db.size = l.length := by
  have hperm : (db.toList.map Prod.fst).Perm ((List.range l.length).map fun i => decNat (i + 1)) := by
    have hnodup : (db.toList.map Prod.fst).Nodup := by
      rw [ExtTreeMap.map_fst_toList_eq_keys]
      exact ExtTreeMap.nodup_keys
    have hids : ((List.range l.length).map fun i => decNat (i + 1)).Nodup :=
      List.nodup_range.map fun i j hij => Nat.succ.inj (decNat_injective hij)
    refine (List.perm_ext_iff_of_nodup hnodup hids).mpr fun k => ?_
    rw [List.mem_map, List.mem_map]
    constructor
    · rintro ⟨e, he, rfl⟩
      obtain ⟨i, d, hd, hk, _⟩ := h.key e.1 e.2 (mem_toList_iff.mp he)
      exact ⟨i, List.mem_range.mpr (List.getElem?_eq_some_iff.mp hd).1, hk.symm⟩
    · rintro ⟨i, hi, rfl⟩
      have hlt := List.mem_range.mp hi
      exact ⟨(decNat (i + 1), l[i].text),
        mem_toList_iff.mpr (h.value i l[i] (List.getElem?_eq_getElem hlt)), rfl⟩
  have hlen := hperm.length_eq
  rw [List.length_map, List.length_map, List.length_range, ExtTreeMap.length_toList] at hlen
  exact hlen

/-- The next number is free. -/
theorem next_free (h : StoredDistributions l db) : db[decNat (l.length + 1)]? = none := by
  cases hv : db[decNat (l.length + 1)]? with
  | none => rfl
  | some v =>
      obtain ⟨i, d, hd, hk, _⟩ := h.key _ v hv
      have hi := (List.getElem?_eq_some_iff.mp hd).1
      have := decNat_injective hk
      omega

/-- **A NEW DISTRIBUTION** gets the next number. -/
theorem record (h : StoredDistributions l db) (d : FeeDistribution) :
    StoredDistributions (l ++ [d]) (db.insert (decNat (l.length + 1)) d.text) := by
  constructor
  · intro i d' hd'
    rw [getElem?_insert_eq]
    by_cases hi : i < l.length
    · rw [List.getElem?_append_left hi] at hd'
      rw [if_neg fun hk => by have := decNat_injective hk; omega]
      exact h.value i d' hd'
    · rw [List.getElem?_append_right (not_lt.mp hi)] at hd'
      have hlast := (List.getElem?_eq_some_iff.mp hd').1
      rw [List.length_singleton] at hlast
      have hsame : i = l.length := by omega
      subst hsame
      rw [Nat.sub_self] at hd'
      cases hd'
      exact if_pos rfl
  · intro k v hk
    rw [getElem?_insert_eq] at hk
    split at hk
    · next heq =>
        exact ⟨l.length, d, List.getElem?_concat_length, heq.symm, (Option.some.inj hk).symm⟩
    · obtain ⟨i, d', hd', hkey, hv⟩ := h.key k v hk
      refine ⟨i, d', ?_, hkey, hv⟩
      rw [List.getElem?_append_left (List.getElem?_eq_some_iff.mp hd').1]
      exact hd'

/-- What `rollBackHistory` does with an entry. -/
def rollBackVisit (block : Int) (_ : Unit) (_ value : Text) : Unit × Edit Text :=
  ((), match castInt 32 ((split isColon value).getD 0 []) with
    | some feeBlock => if block ≤ feeBlock then .delete else .keep
    | none => .keep)

theorem rollBackVisit_text (block : Int) (d : FeeDistribution) (key : Text) :
    (rollBackVisit block () key d.text).2 = if block ≤ d.block then .delete else .keep := by
  unfold rollBackVisit
  rw [d.split_text]
  show (match castInt 32 (decInt d.block) with
    | some feeBlock => if block ≤ feeBlock then Edit.delete else .keep
    | none => .keep) = _
  rw [d.castInt_block]

/-- **THE LOOP** is a pass over the entries. -/
theorem rollBackHistory_run {s : State} (h : StoredDistributions l s.feeHistory) (block : Int) :
    rollBackHistory block s = .ok () { s with
      feeHistory := (sweep (rollBackVisit block) () s.feeHistory).2 } := by
  have hloop : ∀ entries : List (Text × Text), (∀ e ∈ entries, ∃ d : FeeDistribution, e.2 = d.text) →
      ∀ s : State, entries.forM (rollBackEntry block) s = .ok () { s with
        feeHistory := (entries.foldl (visitEntry (rollBackVisit block)) ((), s.feeHistory)).2 } := by
    intro entries
    induction entries with
    | nil => exact fun _ s => rfl
    | cons e rest ih =>
        intro hentries s
        obtain ⟨d, hd⟩ := hentries e List.mem_cons_self
        have hentry := d.rollBackEntry_text block e.1 s
        have hvisit : visitEntry (rollBackVisit block) ((), s.feeHistory) e =
            ((), if block ≤ d.block then s.feeHistory.erase e.1 else s.feeHistory) := by
          unfold visitEntry
          dsimp only
          rw [hd, rollBackVisit_text]
          by_cases hblock : block ≤ d.block
          · rw [if_pos hblock, if_pos hblock]
          · rw [if_neg hblock, if_neg hblock]
        have hnext := ih (fun e' he' => hentries e' (List.mem_cons_of_mem e he')) { s with
          feeHistory := if block ≤ d.block then s.feeHistory.erase e.1 else s.feeHistory }
        rw [List.foldl_cons, hvisit]
        rw [← hd] at hentry
        show (rollBackEntry block e >>= fun _ => rest.forM (rollBackEntry block)) s = _
        simp only [bind, EStateM.bind]
        rw [hentry]
        exact hnext
  refine hloop s.feeHistory.toList (fun e he => ?_) s
  obtain ⟨_, d, _, _, hv⟩ := h.key e.1 e.2 (mem_toList_iff.mp he)
  exact ⟨d, hv⟩

/-- What becomes of a distribution. -/
theorem rollBack_entry (h : StoredDistributions l db) (block : Int) {i : Nat} {d : FeeDistribution}
    (hd : l[i]? = some d) :
    (sweep (rollBackVisit block) () db).2[decNat (i + 1)]? =
      if block ≤ d.block then none else some d.text := by
  rw [getElem?_sweep_of_const (h.value i d hd) fun _ => rollBackVisit_text block d _]
  split
  · rfl
  · rfl

end StoredDistributions

/-- In a list where older entries come first, those that are older than a block keep their places. -/
theorem getElem?_filter_of_prefix {α : Type} {p : α → Bool} {l : List α}
    (h : l.Pairwise fun a b => p b = true → p a = true) (i : Nat) :
    (l.filter p)[i]? = (l[i]?).filter p := by
  induction l generalizing i with
  | nil => rfl
  | cons a rest ih =>
      obtain ⟨ha, hrest⟩ := List.pairwise_cons.mp h
      by_cases hp : p a = true
      · rw [List.filter_cons_of_pos hp]
        cases i with
        | zero => exact (Option.filter_some_pos hp).symm
        | succ i => exact ih hrest i
      · -- nothing after the first entry that is left out is kept
        have hnone : rest.filter p = [] := by
          refine List.filter_eq_nil_iff.mpr fun b hb hpb => hp (ha b hb hpb)
        rw [List.filter_cons_of_neg hp, hnone]
        cases i with
        | zero => exact (Option.filter_some_neg (eq_false_of_ne_true hp)).symm
        | succ i => rw [List.getElem?_cons_succ, ← ih hrest i, hnone, List.getElem?_nil, List.getElem?_nil]

/-- The distributions in the order of their blocks, up to the least block of the next one. -/
structure FeeHistoryOk (least : Option Int) (l : List FeeDistribution) (s : State) : Prop where
  stored : StoredDistributions l s.feeHistory
  sorted : l.Pairwise fun d d' => d.block ≤ d'.block
  below : ∀ d ∈ l, ∃ b ∈ least, d.block ≤ b

namespace FeeHistoryOk

variable {least : Option Int} {l : List FeeDistribution} {s : State}

/-- Distributions before a block are the first ones. -/
theorem prefix_before (h : FeeHistoryOk least l s) (block : Int) (i : Nat) :
    (l.filter fun d => decide (d.block < block))[i]? =
      (l[i]?).filter fun d => decide (d.block < block) := by
  refine getElem?_filter_of_prefix (h.sorted.imp ?_) i
  intro d d' hle hold
  have hlt := of_decide_eq_true hold
  exact decide_eq_true (lt_of_le_of_lt hle hlt)

/-- **ONE CALL**: it goes through, is exact, and keeps the history in order. -/
theorem exec (h : FeeHistoryOk least l s) {c : FeeHistoryCall} (hc : Resumes least [c]) :
    ∃ s', c.exec s = .ok () s' ∧ CallExact l s s' c ∧ FeeHistoryOk (some c.floor) (c.apply l) s' := by
  cases c with
  | record d =>
      have hrun := recordFeeDistribution_run d s
      rw [h.stored.size] at hrun
      refine ⟨_, hrun, ⟨h.stored.next_free, rfl⟩, h.stored.record d, ?_, ?_⟩
      · refine List.pairwise_append.mpr ⟨h.sorted, List.pairwise_singleton _ _, ?_⟩
        intro d₀ hd₀ d' hd'
        rw [List.mem_singleton.mp hd']
        obtain ⟨b, hb, hle⟩ := h.below d₀ hd₀
        exact hle.trans (hc.1 b hb)
      · intro d₀ hd₀
        refine ⟨d.block, rfl, ?_⟩
        rcases List.mem_append.mp hd₀ with hd₀ | hd₀
        · obtain ⟨b, hb, hle⟩ := h.below d₀ hd₀
          exact hle.trans (hc.1 b hb)
        · rw [List.mem_singleton.mp hd₀]
  | rollBack block =>
      refine ⟨_, h.stored.rollBackHistory_run block, ?_, ⟨?_, ?_⟩, ?_, ?_⟩
      · intro i d hd
        show (sweep (StoredDistributions.rollBackVisit block) () s.feeHistory).2[decNat (i + 1)]? =
          if block ≤ d.block then none else s.feeHistory[decNat (i + 1)]?
        rw [h.stored.rollBack_entry block hd, h.stored.value i d hd]
      · intro i d hd
        rw [FeeHistoryCall.apply, h.prefix_before, Option.filter_eq_some_iff] at hd
        refine (h.stored.rollBack_entry block hd.1).trans (if_neg ?_)
        exact not_le.mpr (of_decide_eq_true hd.2)
      · intro k v hk
        cases hold : s.feeHistory[k]? with
        | none =>
            have hgone : (sweep (StoredDistributions.rollBackVisit block) () s.feeHistory).2[k]? = none :=
              getElem?_sweep_none hold
            exact absurd (hk.symm.trans hgone) (by simp)
        | some w =>
            obtain ⟨i, d, hd, rfl, rfl⟩ := h.stored.key k w hold
            have hentry := h.stored.rollBack_entry block hd
            rw [hentry] at hk
            by_cases hblock : block ≤ d.block
            · rw [if_pos hblock] at hk
              cases hk
            · rw [if_neg hblock] at hk
              refine ⟨i, d, ?_, rfl, (Option.some.inj hk).symm⟩
              rw [FeeHistoryCall.apply, h.prefix_before, hd]
              exact Option.filter_some_pos (decide_eq_true (not_le.mp hblock))
      · exact h.sorted.sublist List.filter_sublist
      · intro d hd
        have hlt := of_decide_eq_true (List.mem_filter.mp hd).2
        exact ⟨block, rfl, hlt.le⟩

theorem start (h : s.feeHistory = ∅) : FeeHistoryOk none [] s := by
  refine ⟨?_, List.Pairwise.nil, fun d hd => (List.not_mem_nil hd).elim⟩
  rw [h]
  exact StoredDistributions.empty

/-- What the readers find. -/
theorem holdsDistributions (h : FeeHistoryOk least l s) : HoldsDistributions l s := by
  constructor
  · intro key
    rw [Option.isSome_iff_exists]
    constructor
    · rintro ⟨v, hv⟩
      obtain ⟨i, d, hd, hkey, _⟩ := h.stored.key key v hv
      exact ⟨i + 1, Nat.succ_pos i, (List.getElem?_eq_some_iff.mp hd).1, hkey⟩
    · rintro ⟨id, hpos, hle, rfl⟩
      obtain ⟨i, rfl⟩ := Nat.exists_eq_succ_of_ne_zero (Nat.pos_iff_ne_zero.mp hpos)
      have hlt : i < l.length := hle
      exact ⟨_, h.stored.value i l[i] (List.getElem?_eq_getElem hlt)⟩
  · intro i d hd
    show (match s.feeHistory[decNat (i + 1)]? with
      | none => pure none
      | some strValue => readDistributionData strValue : ExecM (Option (PropertyId × Int × Int))) s = _
    rw [h.stored.value i d hd]
    dsimp only
    rw [d.readDistributionData_text]
    rfl
  · intro i d hd
    show (match s.feeHistory[decNat (i + 1)]? with
      | none => pure ∅
      | some strValue => readFeeDistribution strValue : ExecM FeeRecipients) s = _
    rw [h.stored.value i d hd]
    dsimp only
    rw [d.readFeeDistribution_text]
    rfl

end FeeHistoryOk

/-! ## Runs of calls -/

/-- The least block of the next distribution after some calls. -/
def leastAfter (least : Option Int) (calls : List FeeHistoryCall) : Option Int :=
  calls.foldl (fun _ c => some c.floor) least

theorem resumes_cons {least : Option Int} {c : FeeHistoryCall} {rest : List FeeHistoryCall} :
    Resumes least (c :: rest) ↔ Resumes least [c] ∧ Resumes (some c.floor) rest := by
  cases c with
  | record d => exact ⟨fun h => ⟨⟨h.1, trivial⟩, h.2⟩, fun h => ⟨h.1.1, h.2⟩⟩
  | rollBack block => exact ⟨fun h => ⟨trivial, h⟩, fun h => h.2⟩

theorem resumes_append {calls calls' : List FeeHistoryCall} {least : Option Int} :
    Resumes least (calls ++ calls') ↔
      Resumes least calls ∧ Resumes (leastAfter least calls) calls' := by
  induction calls generalizing least with
  | nil => exact ⟨fun h => ⟨trivial, h⟩, fun h => h.2⟩
  | cons c rest ih =>
      have hone : Resumes least (c :: rest) ↔ Resumes least [c] ∧ Resumes (some c.floor) rest :=
        resumes_cons
      rw [List.cons_append, resumes_cons, ih, hone, and_assoc]
      rfl

/-- **A RUN** of calls goes through, and leaves the distributions it should. -/
theorem FeeHistoryOk.run {calls : List FeeHistoryCall} {least : Option Int} {l : List FeeDistribution}
    {s : State} (h : FeeHistoryOk least l s) (hcalls : Resumes least calls) :
    ∃ s', calls.forM FeeHistoryCall.exec s = .ok () s' ∧
      FeeHistoryOk (leastAfter least calls) (calls.foldl FeeHistoryCall.apply l) s' := by
  induction calls generalizing least l s with
  | nil => exact ⟨s, rfl, h⟩
  | cons c rest ih =>
      obtain ⟨hc, hrest⟩ := resumes_cons.mp hcalls
      obtain ⟨s₁, hrun, _, hnext⟩ := h.exec hc
      obtain ⟨s₂, hrun₂, hok⟩ := ih hnext hrest
      refine ⟨s₂, ?_, hok⟩
      show (c.exec >>= fun _ => rest.forM FeeHistoryCall.exec) s = _
      simp only [bind, EStateM.bind]
      rw [hrun]
      exact hrun₂

/-- **THE FEE HISTORY**: after every sequence of calls with resuming blocks, the distributions have
    the numbers 1 to n and read back as they were recorded; the next call overwrites nothing,
    and a rollback removes just the distributions that are not older. -/
theorem feeHistory_exact {calls : List FeeHistoryCall} {s : State} (hempty : s.feeHistory = ∅)
    (hcalls : Resumes none calls) :
    ∃ s', calls.forM FeeHistoryCall.exec s = .ok () s' ∧
      HoldsDistributions (distributionsAfter calls) s' ∧
      ∀ c, Resumes none (calls ++ [c]) →
        ∃ s'', c.exec s' = .ok () s'' ∧ CallExact (distributionsAfter calls) s' s'' c := by
  obtain ⟨s', hrun, hok⟩ := (FeeHistoryOk.start hempty).run hcalls
  refine ⟨s', hrun, hok.holdsDistributions, fun c hc => ?_⟩
  obtain ⟨s'', hstep, hexact, _⟩ := hok.exec (resumes_append.mp hc).2
  exact ⟨s'', hstep, hexact⟩

/-- Seven units of property 3, four to one address and three to another. -/
def paidOut : FeeRecipients :=
  ((∅ : FeeRecipients).insert (traderA.text, 4) ()).insert (traderB.text, 3) ()

theorem eq_of_mem_paidOut {e : Text × Int} (h : e ∈ paidOut) :
    e = (traderB.text, 3) ∨ e = (traderA.text, 4) := by
  rcases ExtTreeMap.mem_insert.mp h with hB | hrest
  · exact .inl (Std.LawfulEqCmp.eq_of_compare hB).symm
  · rcases ExtTreeMap.mem_insert.mp hrest with hA | hnone
    · exact .inr (Std.LawfulEqCmp.eq_of_compare hA).symm
    · exact (ExtTreeMap.not_mem_empty hnone).elim

theorem address_of_paidOut (e : Text × Int) (h : e ∈ paidOut) : ∃ a : Address, e.1 = a.text := by
  rcases eq_of_mem_paidOut h with rfl | rfl
  · exact ⟨traderB, rfl⟩
  · exact ⟨traderA, rfl⟩

theorem int64_of_paidOut (e : Text × Int) (h : e ∈ paidOut) : IsInt64 e.2 := by
  rcases eq_of_mem_paidOut h with rfl | rfl <;> decide

/-- The distribution of these seven units in a block. -/
def feePayment (block : Int) (h : -2 ^ 31 ≤ block ∧ block < 2 ^ 31) : FeeDistribution :=
  ⟨3, block, 7, paidOut, by norm_num, h, by decide, address_of_paidOut, int64_of_paidOut⟩

/-- Two distributions, a rollback between their blocks, and a distribution of its block. -/
theorem feeHistory_resumed :
    let calls : List FeeHistoryCall := [.record (feePayment 10 (by norm_num)),
      .record (feePayment 20 (by norm_num)), .rollBack 15,
      .record (feePayment 15 (by norm_num))]
    ∃ s', calls.forM FeeHistoryCall.exec (State.fresh openParams) = .ok () s' ∧
      HoldsDistributions (distributionsAfter calls) s' ∧
      ∀ c, Resumes none (calls ++ [c]) →
        ∃ s'', c.exec s' = .ok () s'' ∧ CallExact (distributionsAfter calls) s' s'' c := by
  refine feeHistory_exact rfl ⟨?_, ?_, ?_, trivial⟩
  · intro b hb
    cases hb
  · intro b hb
    cases hb
    decide
  · intro b hb
    cases hb
    decide

end OmniCore
