import OmniCore.Crowdsale
import OmniCore.Outstanding
import OmniCore.OwnerShares

/-! # CrowdsaleRun — from the creation of a crowdsale to its end

    A crowdsale is followed through whatever else happens on the node: purchases, other
    crowdsales, new contracts, blocks. While its registry entry and its record are left
    alone, every purchase credits the specified amounts, and what the issuer gets at the
    end makes up for everything that was rounded off before. -/

namespace OmniCore

open Std (ExtTreeMap)
open Machine TextRec MapSum Exec

/-! ## The number of tokens -/

/-- The walk over the holders adds up what they hold. -/
theorem wp_addHeld (p : PropertyId) (entries : List (Address × CMPTally)) (total : Int) (s : State) :
    wp (entries.foldlM (fun (totalTokens : Int) (e : Address × CMPTally) =>
        signed64 (totalTokens + e.2.held p)) total)
      (fun n s' => s' = s ∧ n = total + (entries.map fun e => e.2.held p).sum) (fun _ _ => True) s := by
  induction entries generalizing total with
  | nil =>
      refine (wp_pure _ _ _ _).mpr ⟨rfl, ?_⟩
      rw [List.map_nil, List.sum_nil, add_zero]
  | cons e rest ih =>
      rw [List.foldlM_cons, wp_bind, wp_signed64]
      refine ⟨fun _ => wp_imp (ih (total + e.2.held p)) ?_, fun _ => trivial⟩
      rintro n s' ⟨rfl, rfl⟩
      rw [List.map_cons, List.sum_cons]
      exact ⟨rfl, by ring⟩

/-- `getTotalTokens` counts what is outstanding of a property without a fixed number. -/
theorem wp_getTotalTokens {p : PropertyId} {sp : SPEntry} {s : State} {height : Int}
    (hentry : s.sps.getSP p = some sp) (hfixed : sp.fixed = false) (hcache : FeeCacheOk height s) :
    wp (getTotalTokens p) (fun n s' => s' = s ∧ n = s.outstanding p ∧ IsInt64 n)
      (fun _ _ => True) s := by
  unfold getTotalTokens
  rw [wp_bind, wp_get, hentry]
  dsimp only
  rw [hfixed, wp_ite]
  refine ⟨fun h => absurd h (by decide), fun _ => ?_⟩
  rw [wp_bind]
  refine wp_imp (wp_addHeld p s.tallyMap.toList 0 s) ?_
  rintro n s' ⟨rfl, rfl⟩
  rw [wp_bind]
  refine hcache.wp_getCachedAmount ?_
  rw [wp_signed64]
  refine ⟨fun hfits => ⟨rfl, ?_, hfits⟩, fun _ => trivial⟩
  have hheld := msum_held s'.tallyMap p
  unfold msum at hheld
  unfold State.outstanding
  rw [zero_add, hheld]

/-! ## Frames -/

/-- The registry and the running crowdsales. -/
def State.sales (s : State) : CMPSPInfo × ExtTreeMap Address CMPCrowd := (s.sps, s.crowds)

theorem outsideFees_sales : OutsideFees State.sales where
  eq _ _ _ _ := rfl

theorem keeps_notifyTotalTokensChanged (p : PropertyId) (block : Int) :
    Keeps State.sales (notifyTotalTokensChanged p block) := by
  refine Keeps.bind (Keeps.bind (keeps_getTotalTokens p) fun _ => Keeps.modify fun _ => rfl) fun _ => ?_
  exact outsideFees_sales.evalCache p block

theorem keeps_creditTokens (who : Address) (p : PropertyId) (tokens : Int) :
    Keeps State.sales (creditTokens who p tokens) :=
  (outsideFees_sales.assertUpdate who p tokens .balance).ite (Keeps.pure ())

/-- Nothing is credited if there is nothing to credit. -/
theorem shifts_creditTokens {height : Int} (who : Address) (p : PropertyId) {tokens : Int}
    (h : 0 ≤ tokens) : Shifts height (Pi.single p tokens) (creditTokens who p tokens) := by
  unfold creditTokens
  by_cases hpos : 0 < tokens
  · rw [if_pos hpos]
    exact shifts_assertUpdate who p tokens trivial
  · rw [if_neg hpos]
    have hzero : tokens = 0 := by omega
    subst hzero
    exact (Conserves.pure ()).of_eq (Pi.single_zero p).symm

/-! ## Writing the registry -/

theorem getSP_updateSP_of_ne {sps : CMPSPInfo} {p q : PropertyId} (sp : SPEntry) (h : q ≠ p) :
    (sps.updateSP p sp).2.getSP q = sps.getSP q := by
  unfold CMPSPInfo.updateSP
  split
  · rfl
  · unfold CMPSPInfo.getSP
    dsimp only
    rw [getElem?_insert_eq, if_neg (Ne.symm h)]

theorem entries_putSP (sps : CMPSPInfo) (ecosystem : Nat) (sp : SPEntry) :
    (sps.putSP ecosystem sp).2.entries = sps.entries.insert (sps.putSP ecosystem sp).1 sp := by
  by_cases h1 : ecosystem = 1
  · subst h1
    rfl
  · by_cases h2 : ecosystem = 2
    · subst h2
      rfl
    · by_cases h3 : ecosystem = 3
      · subst h3
        rfl
      · simp [CMPSPInfo.putSP, h1, h2, h3]

theorem getSP_putSP_of_ne {sps : CMPSPInfo} {ecosystem : Nat} {q : PropertyId} (sp : SPEntry)
    (h : q ≠ (sps.putSP ecosystem sp).1) : (sps.putSP ecosystem sp).2.getSP q = sps.getSP q := by
  unfold CMPSPInfo.getSP
  rw [entries_putSP, getElem?_insert_eq, if_neg (Ne.symm h)]

/-- An entry with a new identifier that is not one of the implied ones can be read. -/
theorem getSP_putSP {sps : CMPSPInfo} {ecosystem : Nat} (sp : SPEntry)
    (h : impliedSP (sps.putSP ecosystem sp).1 = none) :
    (sps.putSP ecosystem sp).2.getSP (sps.putSP ecosystem sp).1 = some sp := by
  unfold CMPSPInfo.getSP
  rw [h, entries_putSP, getElem?_insert_eq, if_pos rfl]

/-! ## What a participation does -/

/-- Tokens of a property were credited and a record was written; the last participation erases the
    record and writes the entry. -/
structure Participated (height : Int) (p : PropertyId) (receiver : Address) (crowd : CMPCrowd)
    (tokens : Int) (closed : Bool) (s s' : State) : Prop where
  count : Outstanding height (s.outstanding + Pi.single p tokens) s'
  entry : ∀ q, q ≠ p → s'.sps.getSP q = s.sps.getSP q
  crowds : ∀ a, a ≠ receiver → s'.crowds[a]? = s.crowds[a]?
  record : s'.crowds[receiver]? = if closed then none else some crowd
  sps : closed = false → s'.sps = s.sps

theorem outstanding_self {height : Int} {s : State} (h : FeeCacheOk height s) :
    Outstanding height s.outstanding s := ⟨h, fun _ => rfl⟩

/-- A sale that is over: its entry is written and its record erased. -/
theorem wp_eraseMaxedCrowdsale {env : ChainEnv} {receiver : Address} {block : Nat} {s : State}
    {crowd : CMPCrowd} (hcrowd : s.crowds[receiver]? = some crowd) :
    wp (eraseMaxedCrowdsale env receiver block) (fun _ s' => ∃ sps,
        s' = { s with sps := sps, crowds := s.crowds.erase receiver } ∧
        ∀ q, q ≠ crowd.propertyId → sps.getSP q = s.sps.getSP q) (fun _ _ => True) s := by
  unfold eraseMaxedCrowdsale assertSP assertUpdateSP eraseCrowd
  rw [wp_bind, wp_get, hcrowd]
  dsimp only
  rw [wp_bind, wp_bind, wp_get]
  cases hentry : s.sps.getSP crowd.propertyId with
  | none => exact (wp_throw _ _ _ _).mpr trivial
  | some sp =>
      rw [wp_pure]
      cases hhash : env.blockHash block with
      | none => exact (wp_throw _ _ _ _).mpr trivial
      | some blockHash =>
          dsimp only
          rw [wp_bind, wp_bind, wp_get, wp_bind, wp_set, wp_assertThat]
          refine ⟨fun _ => ?_, fun _ => trivial⟩
          rw [wp_modify]
          exact ⟨_, rfl, fun q hq => getSP_updateSP_of_ne _ hq⟩

/-- **WHAT A PARTICIPATION DOES** with the tokens that were calculated. -/
theorem wp_creditParticipation {env : ChainEnv} {tx : CMPTransaction} {receiver : Address}
    {crowd : CMPCrowd} {user issuer : Int} {closed : Bool} {s : State}
    (hcache : FeeCacheOk tx.block s) (hheight : IsInt64 tx.block) (huser : 0 ≤ user)
    (hissuer : 0 ≤ issuer) :
    wp (creditParticipation env tx receiver crowd user issuer closed)
      (fun _ s' => Participated tx.block crowd.propertyId receiver
        (crowd.participate tx.txid (toInt64 tx.nValue.toNat) env.blockTime user issuer)
        (user + issuer) closed s s') (fun _ _ => True) s := by
  unfold creditParticipation
  rw [wp_bind, wp_signed64]
  refine ⟨fun _ => ?_, fun _ => trivial⟩
  rw [wp_bind, wp_signed64]
  refine ⟨fun _ => ?_, fun _ => trivial⟩
  dsimp only
  have hid : (crowd.participate tx.txid (toInt64 tx.nValue.toNat) env.blockTime user
    issuer).propertyId = crowd.propertyId := rfl
  generalize crowd.participate tx.txid (toInt64 tx.nValue.toNat) env.blockTime user issuer = crowd'
    at hid ⊢
  rw [wp_bind, wp_modify]
  -- the record is written, nothing is counted yet
  have hcount : Outstanding tx.block s.outstanding
      { s with crowds := s.crowds.insert receiver crowd' } := (outstanding_self hcache).congr rfl rfl
  rw [wp_bind]
  refine wp_mono (wp_and (Shifts.run (shifts_creditTokens tx.sender crowd.propertyId huser) hcount)
    ((keeps_creditTokens tx.sender crowd.propertyId user).run _)) ?_ (fun _ _ _ => trivial)
  rintro _ s₁ ⟨hcount₁, hsales₁⟩
  rw [wp_bind]
  refine wp_mono (wp_and (Shifts.run (shifts_creditTokens receiver crowd.propertyId hissuer) hcount₁)
    ((keeps_creditTokens receiver crowd.propertyId issuer).run _)) ?_ (fun _ _ _ => trivial)
  rintro _ s₂ ⟨hcount₂, hsales₂⟩
  rw [wp_bind]
  refine wp_mono (wp_and
    (Conserves.run (conserves_notifyTotalTokensChanged crowd.propertyId hheight) hcount₂)
    ((keeps_notifyTotalTokensChanged crowd.propertyId tx.block).run _)) ?_ (fun _ _ _ => trivial)
  rintro _ s₃ ⟨hcount₃, hsales₃⟩
  have hsales : s₃.sps = s.sps ∧ s₃.crowds = s.crowds.insert receiver crowd' := by
    have hall := hsales₃.trans (hsales₂.trans hsales₁)
    exact ⟨congrArg Prod.fst hall, congrArg Prod.snd hall⟩
  have hcount₃ : Outstanding tx.block
      (s.outstanding + Pi.single crowd.propertyId (user + issuer)) s₃ := by
    refine hcount₃.of_eq ?_
    rw [add_assoc, ← Pi.single_add]
  have hrecord : s₃.crowds[receiver]? = some crowd' := by
    rw [hsales.2, getElem?_insert_eq, if_pos rfl]
  rw [wp_ite]
  cases closed with
  | false =>
      refine ⟨fun h => absurd h (by decide), fun _ => ?_⟩
      rw [wp_pure]
      refine ⟨hcount₃, fun q _ => by rw [hsales.1], fun a ha => ?_, hrecord, fun _ => hsales.1⟩
      rw [hsales.2, getElem?_insert_eq, if_neg (Ne.symm ha)]
  | true =>
      refine ⟨fun _ => ?_, fun h => absurd rfl h⟩
      rw [wp_bind]
      refine wp_imp (wp_eraseMaxedCrowdsale hrecord) ?_
      rintro _ s₄ ⟨sps, rfl, hsps⟩
      rw [wp_pure]
      refine ⟨hcount₃.congr rfl rfl, fun q hq => ?_, fun a ha => ?_, ?_, fun h => by cases h⟩
      · show sps.getSP q = _
        rw [hsps q (by rw [hid]; exact hq), hsales.1]
      · show (s₃.crowds.erase receiver)[a]? = _
        rw [getElem?_erase_eq, if_neg (Ne.symm ha), hsales.2, getElem?_insert_eq,
          if_neg (Ne.symm ha)]
      · show (s₃.crowds.erase receiver)[receiver]? = _
        rw [getElem?_erase_eq, if_pos rfl, if_pos rfl]

/-- A credit posts its tokens. -/
theorem posts_creditTokens (who : Address) (p : PropertyId) {tokens : Int} (h : 0 ≤ tokens)
    (s : State) :
    wp (creditTokens who p tokens)
      (fun _ s' => ∃ m, s' = s.withTally m ∧ Posted s.tallyMap m [⟨who, p, tokens, .balance⟩])
      (fun _ _ => True) s := by
  unfold creditTokens
  rw [wp_ite]
  refine ⟨fun _ => wp_assertUpdate (fun _ m' hm => ⟨m', rfl, hm.posted⟩) fun _ _ _ _ => trivial,
    fun hnot => ?_⟩
  have hzero : tokens = 0 := by omega
  subst hzero
  rw [wp_pure]
  exact ⟨s.tallyMap, rfl, by simp [Entry.toMoney], by simp [Entry.toTotal]⟩

/-- **WHERE THE TOKENS GO**: a participation that leaves the crowdsale open puts them on the balances
    of its user and its issuer, and then the fee thresholds follow. -/
theorem wp_creditParticipation_posts {env : ChainEnv} {tx : CMPTransaction} {receiver : Address}
    {crowd : CMPCrowd} {user issuer : Int} {s : State} (huser : 0 ≤ user) (hissuer : 0 ≤ issuer) :
    wp (creditParticipation env tx receiver crowd user issuer false)
      (fun _ s' => ∃ s₁, Posted s.tallyMap s₁.tallyMap
          [⟨tx.sender, crowd.propertyId, user, .balance⟩,
            ⟨receiver, crowd.propertyId, issuer, .balance⟩] ∧
        notifyTotalTokensChanged crowd.propertyId tx.block s₁ = .ok () s')
      (fun _ _ => True) s := by
  unfold creditParticipation
  rw [wp_bind, wp_signed64]
  refine ⟨fun _ => ?_, fun _ => trivial⟩
  rw [wp_bind, wp_signed64]
  refine ⟨fun _ => ?_, fun _ => trivial⟩
  dsimp only
  rw [wp_bind, wp_modify, wp_bind]
  refine wp_mono (posts_creditTokens tx.sender crowd.propertyId huser _) ?_ (fun _ _ _ => trivial)
  rintro _ s₁ ⟨m, rfl, hbuyer⟩
  rw [wp_bind]
  refine wp_mono (posts_creditTokens receiver crowd.propertyId hissuer _) ?_ (fun _ _ _ => trivial)
  rintro _ s₂ ⟨m', rfl, hshare⟩
  rw [wp_bind]
  refine wp_mono (wp_self (notifyTotalTokensChanged crowd.propertyId tx.block) _) ?_
    (fun _ _ _ => trivial)
  intro _ s₃ hnotify
  rw [wp_ite]
  refine ⟨fun h => absurd h (by decide), fun _ => ?_⟩
  rw [wp_pure]
  refine ⟨_, ?_, hnotify⟩
  exact hbuyer.trans hshare

/-! ## A crowdsale and its history -/

/-- The terms of a crowdsale, in the ranges that its creation checks. -/
structure Sale where
  issuer : Address
  propertyId : PropertyId
  desired : PropertyId
  tokensPerUnit : Int
  deadline : Int
  earlyBird : UInt8
  percentage : UInt8
  tokensPerUnit_pos : 0 < tokensPerUnit
  tokensPerUnit_le : tokensPerUnit ≤ maxInt64
  deadline_nonneg : 0 ≤ deadline
  deadline_le : deadline ≤ maxInt64

namespace Sale

/-- The tokens that are specified for an amount at a time; an indivisible amount is inflated. -/
def userTokens (sale : Sale) (inflateAmount : Bool) (amount now : Int) : Nat :=
  amount.toNat * (if inflateAmount then 10 ^ 8 else 1) * sale.tokensPerUnit.toNat *
    earlyBonus sale.deadline now sale.earlyBird.toNat / 10 ^ 20

/-- What an issuer is owed when the users got `users` tokens, unless no more can exist. -/
def owed (sale : Sale) (users : Int) : Int :=
  min ((issuerShare users.toNat sale.percentage.toNat : Nat) : Int) (maxInt64 - users)

/-- The registry entry has the terms of the sale. -/
structure Describes (sale : Sale) (sp : SPEntry) : Prop where
  fixed : sp.fixed = false
  issuer : sp.issuer = sale.issuer.text
  numTokens : sp.numTokens = sale.tokensPerUnit
  deadline : sp.deadline = sale.deadline
  earlyBird : sp.earlyBird = sale.earlyBird.toNat
  percentage : sp.percentage = sale.percentage.toNat

/-- The record has the terms of the sale and the sums of what was credited. -/
structure Records (sale : Sale) (credits : List (Int × Int)) (crowd : CMPCrowd) : Prop where
  propertyId : crowd.propertyId = sale.propertyId
  desired : crowd.propertyDesired = sale.desired
  users : crowd.uCreated = (credits.map Prod.fst).sum
  issuer : crowd.iCreated = (credits.map Prod.snd).sum

end Sale

/-- The sale is running. -/
def State.Selling (s : State) (sale : Sale) : Prop :=
  ∃ crowd, s.crowds[sale.issuer]? = some crowd ∧ crowd.propertyId = sale.propertyId

/-- No other running sale has the identifier of this one. -/
def State.OnlySeller (s : State) (sale : Sale) : Prop :=
  ∀ (a : Address) (crowd : CMPCrowd), s.crowds[a]? = some crowd →
    crowd.propertyId = sale.propertyId → a = sale.issuer

/-- What other activity leaves of a sale: its entry, its record and the number of its tokens. -/
structure BesideSale (sale : Sale) (height : Int) (s s' : State) : Prop where
  cache : FeeCacheOk height s'
  entry : s'.sps.getSP sale.propertyId = s.sps.getSP sale.propertyId
  record : s'.crowds[sale.issuer]? = s.crowds[sale.issuer]?
  only : s.OnlySeller sale → s'.OnlySeller sale
  count : s'.outstanding sale.propertyId = s.outstanding sale.propertyId

/-- What happens on a node. A participation is part of a send or of a grant; what is neither about
    crowdsales nor creates a contract is a function on the state. -/
inductive CrowdEvent
  | create (env : ChainEnv) (tx : CMPTransaction)
  | contract (blockHash : Option Nat) (tx : CMPTransaction)
  | participate (env : ChainEnv) (tx : CMPTransaction) (receiver : Address)
  | close (env : ChainEnv) (tx : CMPTransaction)
  | block (height blockHash : Nat) (blockTime : Int)
  | other (height : Nat) (act : State → State)

namespace CrowdEvent

/-- The block in which it happens. -/
def height : CrowdEvent → Nat
  | create _ tx => tx.block
  | contract _ tx => tx.block
  | participate _ tx _ => tx.block
  | close _ tx => tx.block
  | block height _ _ => height
  | other height _ => height

/-- It happens, and the node does not stop. The amount of a participation was checked before. -/
def Runs (s s' : State) : CrowdEvent → Prop
  | create env tx => ∃ rc, logicMathCreatePropertyVariable env tx s = .ok rc s'
  | contract blockHash tx => ∃ rc, logicMathCreateContractDex blockHash tx s = .ok rc s'
  | participate env tx receiver => 0 < tx.nValue.toNat ∧ (tx.nValue.toNat : Int) ≤ maxInt64 ∧
      ∃ rc, crowdsaleParticipation env tx receiver s = .ok rc s'
  | close env tx => ∃ rc, logicMathCloseCrowdsale env tx s = .ok rc s'
  | block _ blockHash blockTime => eraseExpiredCrowdsale blockHash blockTime s = .ok () s'
  | other _ act => s' = act s

/-- The tokens of a participation in a sale, for the user and for the issuer. -/
def participationCredits (sale : Sale) (s : State) (env : ChainEnv) (tx : CMPTransaction)
    (receiver : Address) : List (Int × Int) :=
  if receiver = sale.issuer then
    match s.crowds[receiver]? with
    | some crowd =>
        if crowd.propertyDesired ≠ tx.property.toNat then []
        else ((value (participationTokens env tx crowd) s).map fun r => (r.1, r.2.1)).toList
    | none => []
  else []

/-- What is credited in a sale. -/
def credits (sale : Sale) (s : State) : CrowdEvent → List (Int × Int)
  | participate env tx receiver => participationCredits sale s env tx receiver
  | _ => []

/-- A purchase in the sale. -/
def BuysFrom (sale : Sale) : CrowdEvent → Prop
  | participate _ tx receiver => receiver = sale.issuer ∧ tx.property.toNat = sale.desired
  | _ => False

/-- It may end a sale before its supply is used up. -/
def MayClose : CrowdEvent → Prop
  | close _ _ => True
  | block _ _ _ => True
  | _ => False

/-- No new property or contract is given the identifier of the sale. -/
def LeavesIdentifier (sale : Sale) (s : State) : CrowdEvent → Prop
  | create _ tx => s.sps.peekNextSPID tx.ecosystem.toNat ≠ sale.propertyId
  | contract _ tx => s.sps.peekNextSPID tx.ecosystem.toNat ≠ sale.propertyId
  | _ => True

end CrowdEvent

/-- A step while the sale is running: blocks come in order, other activity is beside the sale, and a
    purchase leaves the supply below its cap. What else is `allowed` is a parameter. -/
structure SaleStep (allowed : Sale → State → CrowdEvent → Prop) (sale : Sale) (height : Nat)
    (e : CrowdEvent) (s s' : State) : Prop where
  runs : e.Runs s s'
  order : height ≤ e.height
  fits : IsInt64 e.height
  beside : ∀ h act, e = .other h act → BesideSale sale h s s'
  underCap : e.BuysFrom sale → s'.outstanding sale.propertyId < maxInt64
  allowed : allowed sale s e

/-- A history of a running sale, with everything that was credited in it. -/
inductive SaleRun (allowed : Sale → State → CrowdEvent → Prop) (sale : Sale) (height₀ : Nat)
    (s₀ : State) : Nat → List (Int × Int) → State → Prop
  | start : SaleRun allowed sale height₀ s₀ height₀ [] s₀
  | step {height : Nat} {credits : List (Int × Int)} {s s' : State} (e : CrowdEvent)
      (run : SaleRun allowed sale height₀ s₀ height credits s)
      (step : SaleStep allowed sale height e s s') (selling : s'.Selling sale) :
      SaleRun allowed sale height₀ s₀ e.height (credits ++ e.credits sale s) s'

/-- A transaction creates the sale. -/
structure SaleStart (sale : Sale) (env : ChainEnv) (tx : CMPTransaction) (s s₀ : State) : Prop where
  created : logicMathCreatePropertyVariable env tx s = .ok 0 s₀
  issuer : tx.sender = sale.issuer
  propertyId : s.sps.peekNextSPID tx.ecosystem.toNat = sale.propertyId
  desired : tx.property.toNat = sale.desired
  tokensPerUnit : toInt64 tx.nValue.toNat = sale.tokensPerUnit
  deadline : toInt64 tx.deadline.toNat = sale.deadline
  earlyBird : tx.earlyBird = sale.earlyBird
  percentage : tx.percentage = sale.percentage
  cache : FeeCacheOk tx.block s

/-- The identifier is not in use before the creation. -/
structure Sale.Unused (sale : Sale) (s : State) : Prop where
  entry : s.sps.getSP sale.propertyId = none
  tokens : s.outstanding sale.propertyId = 0
  sales : ∀ (a : Address) (crowd : CMPCrowd), s.crowds[a]? = some crowd →
    crowd.propertyId ≠ sale.propertyId

/-- A sale has ended, and its issuer was made up to what is owed for all tokens that users got. -/
def Sale.Settled (sale : Sale) (credits : List (Int × Int)) (s s' : State) : Prop :=
  ∃ missed : Int, 0 ≤ missed ∧
    s'.tallyMap.money sale.issuer sale.propertyId .balance =
      s.tallyMap.money sale.issuer sale.propertyId .balance + missed ∧
    (credits.map Prod.snd).sum + missed = sale.owed (credits.map Prod.fst).sum

/-- What is specified for one step: a purchase credits the user what the amount is worth and the
    issuer a share of it, on their balances and before the fee thresholds follow, and a sale that
    ends leaves its issuer with what is owed for all tokens that users got. -/
structure StepExact (sale : Sale) (credits : List (Int × Int)) (e : CrowdEvent) (s s' : State) :
    Prop where
  purchase : ∀ env tx, e = .participate env tx sale.issuer → tx.property.toNat = sale.desired →
    ∃ (crowd : CMPCrowd) (user issuer : Nat), s.crowds[sale.issuer]? = some crowd ∧
      user = sale.userTokens (!s.sps.isPropertyDivisible tx.property.toNat) tx.nValue.toNat
        env.blockTime ∧
      issuer = issuerShare user sale.percentage.toNat ∧
      e.credits sale s = [((user : Int), (issuer : Int))] ∧
      crowdsaleParticipation env tx sale.issuer s =
        creditParticipation env tx sale.issuer crowd user issuer false s ∧
      ∃ s₁, Posted s.tallyMap s₁.tallyMap [⟨tx.sender, sale.propertyId, user, .balance⟩,
          ⟨sale.issuer, sale.propertyId, issuer, .balance⟩] ∧
        notifyTotalTokensChanged sale.propertyId tx.block s₁ = .ok () s'
  closing : e.MayClose → ¬ s'.Selling sale → sale.Settled credits s s'

/-! ## What the issuer is owed -/

/-- Shares that are rounded down one by one are not more than the share of the sum. -/
theorem sum_issuerShare_le (credits : List (Int × Int)) (percentage : Nat)
    (h : ∀ c ∈ credits, 0 ≤ c.1 ∧ c.2 = ((issuerShare c.1.toNat percentage : Nat) : Int)) :
    (credits.map Prod.snd).sum ≤
      ((issuerShare (credits.map Prod.fst).sum.toNat percentage : Nat) : Int) ∧
    0 ≤ (credits.map Prod.fst).sum ∧ 0 ≤ (credits.map Prod.snd).sum := by
  induction credits with
  | nil => exact ⟨by simp, by simp, by simp⟩
  | cons c rest ih =>
      obtain ⟨hle, hfst, hsnd⟩ := ih fun d hd => h d (List.mem_cons_of_mem c hd)
      obtain ⟨huser, hissuer⟩ := h c List.mem_cons_self
      rw [List.map_cons, List.map_cons, List.sum_cons, List.sum_cons]
      refine ⟨?_, by omega, by omega⟩
      rw [hissuer]
      rw [Int.toNat_add huser hfst]
      have hsplit : issuerShare c.1.toNat percentage +
          issuerShare (rest.map Prod.fst).sum.toNat percentage ≤
          issuerShare (c.1.toNat + (rest.map Prod.fst).sum.toNat) percentage := by
        unfold issuerShare
        rw [Nat.add_mul]
        exact Nat.div_add_div_le_add_div
      omega

/-- Nothing wraps when the missing tokens are calculated. -/
theorem missing_eq {users issuer percentage : Nat} (hsum : (users + issuer : Int) ≤ maxInt64)
    (hperc : percentage ≤ 255) :
    mul256 users percentage / 100 = issuerShare users percentage ∧
      (issuer ≤ issuerShare users percentage →
        ((issuer + (if maxInt64 < (add256 (add256 users issuer)
            (sub256 (issuerShare users percentage) issuer) : Nat)
          then sub256 maxInt64.toNat (add256 users issuer)
          else sub256 (issuerShare users percentage) issuer) : Nat) : Int) =
        min ((issuerShare users percentage : Nat) : Int) (maxInt64 - users)) := by
  unfold maxInt64 at hsum ⊢
  have hmul : users * percentage ≤ 2 ^ 63 * 255 := Nat.mul_le_mul (by omega) hperc
  unfold mul256 issuerShare
  generalize users * percentage = product at hmul
  refine ⟨by omega, fun hshare => ?_⟩
  unfold add256 sub256
  have htotal : (users + issuer) % 2 ^ 256 = users + issuer := by omega
  have hmissing : (product / 100 + 2 ^ 256 - issuer) % 2 ^ 256 = product / 100 - issuer := by omega
  rw [htotal, hmissing]
  have hnew : (users + issuer + (product / 100 - issuer)) % 2 ^ 256 = users + product / 100 := by
    omega
  rw [hnew]
  split
  · next hcap =>
      have hrest : ((9223372036854775807 : Int).toNat + 2 ^ 256 - (users + issuer)) % 2 ^ 256 =
          9223372036854775807 - (users + issuer) := by omega
      rw [hrest]
      omega
  · omega

/-- What an issuer missed, when it can be found. -/
theorem wp_getMissedIssuerBonus {sp : SPEntry} {crowd : CMPCrowd} {s : State} :
    wp (getMissedIssuerBonus sp crowd) (fun n s' => s' = s ∧ 0 ≤ n ∧
      0 ≤ crowd.uCreated ∧ 0 ≤ crowd.iCreated ∧ crowd.uCreated + crowd.iCreated ≤ maxInt64 ∧
      (sp.percentage ≤ 255 →
        crowd.iCreated ≤ ((issuerShare crowd.uCreated.toNat sp.percentage : Nat) : Int) →
        crowd.iCreated + n = min ((issuerShare crowd.uCreated.toNat sp.percentage : Nat) : Int)
          (maxInt64 - crowd.uCreated))) (fun _ _ => True) s := by
  unfold getMissedIssuerBonus
  refine (keeps_getTotalTokens crowd.propertyId).wp_bind (fun _ => trivial) fun total => ?_
  rw [wp_bind, wp_signed64]
  refine ⟨fun hfits => ?_, fun _ => trivial⟩
  rw [wp_bind, wp_assertThat]
  refine ⟨fun _ => ?_, fun _ => trivial⟩
  rw [wp_bind, wp_convertTo256]
  refine ⟨fun hissuer => ?_, fun _ => trivial⟩
  rw [wp_bind, wp_convertTo256]
  refine ⟨fun husers => ?_, fun _ => trivial⟩
  dsimp only
  have hle := hfits.2
  have hsum : ((crowd.uCreated.toNat : Int) + crowd.iCreated.toNat) ≤ maxInt64 := by omega
  rw [wp_ite]
  refine ⟨fun hless => ?_, fun hmore => ?_⟩
  · rw [wp_pure]
    refine ⟨rfl, le_rfl, husers, hissuer, by omega, fun hperc hshare => ?_⟩
    -- the share is not less than what was credited
    rw [(missing_eq hsum hperc).1] at hless
    omega
  · rw [wp_convertTo64]
    refine ⟨fun _ => ⟨rfl, by omega, husers, hissuer, by omega, fun hperc hshare => ?_⟩,
      fun _ => trivial⟩
    obtain ⟨hexact, hmissing⟩ := missing_eq hsum hperc
    have hfound := hmissing (by omega)
    rw [hexact]
    rw [Nat.cast_add] at hfound
    omega

/-! ## What the end of a sale does -/

/-- A sale has ended, and its issuer was credited what was missed. -/
structure Ended (height : Int) (a : Address) (crowd : CMPCrowd) (sp : SPEntry) (missed : Int)
    (s s' : State) : Prop where
  count : Outstanding height (s.outstanding + Pi.single crowd.propertyId missed) s'
  entry : ∀ p, p ≠ crowd.propertyId → s'.sps.getSP p = s.sps.getSP p
  crowds : s'.crowds = s.crowds.erase a
  money : ∀ b p, s'.tallyMap.money b p .balance = s.tallyMap.money b p .balance +
    if Address.ofText? sp.issuer = some b ∧ p = crowd.propertyId then missed else 0

theorem wp_creditMissedTokens {height : Int} {sp : SPEntry} {p : PropertyId} {missed : Int}
    {s : State} {t : PropertyId → Int} (hs : Outstanding height t s) (h : 0 ≤ missed) :
    wp (creditMissedTokens sp p missed) (fun _ s' => Outstanding height (t + Pi.single p missed) s' ∧
        s'.sales = s.sales ∧ ∀ b q, s'.tallyMap.money b q .balance = s.tallyMap.money b q .balance +
          if Address.ofText? sp.issuer = some b ∧ q = p then missed else 0) (fun _ _ => True) s := by
  unfold creditMissedTokens
  rw [wp_ite]
  refine ⟨fun _ => ?_, fun hzero => ?_⟩
  · cases hissuer : Address.ofText? sp.issuer with
    | none => exact (wp_throw _ _ _ _).mpr trivial
    | some issuer =>
        dsimp only
        have hshift : wp (assertUpdate issuer p missed .balance)
            (fun _ s' => Outstanding height (t + Pi.single p missed) s') (fun _ _ => True) s :=
          Shifts.run (shifts_assertUpdate issuer p missed (show TallyType.Holds .balance from trivial)) hs
        have hmoney : wp (assertUpdate issuer p missed .balance) (fun _ s' => s'.sales = s.sales ∧
            ∀ b q, s'.tallyMap.money b q .balance = s.tallyMap.money b q .balance +
              if some issuer = some b ∧ q = p then missed else 0) (fun _ _ => True) s := by
          refine wp_assertUpdate (fun _ m' hm => ⟨rfl, fun b q => ?_⟩) (fun _ _ _ _ => trivial)
          rw [State.withTally_tallyMap, hm.money]
          congr 1
          exact if_congr (by simp [eq_comm]) rfl rfl
        exact wp_mono (wp_and hshift hmoney) (fun _ _ h => ⟨h.1, h.2⟩) (fun _ _ _ => trivial)
  · have hmissed : missed = 0 := by omega
    subst hmissed
    rw [wp_pure]
    refine ⟨hs.of_eq (by rw [Pi.single_zero, add_zero]), rfl, fun b q => ?_⟩
    rw [ite_self, add_zero]

/-- A sale ends with the tokens that its issuer missed. -/
def EndsWithMissed (height : Int) (a : Address) (crowd : CMPCrowd) (s s' : State) : Prop :=
  ∃ (sp : SPEntry) (missed : Int),
    s.sps.getSP crowd.propertyId = some sp ∧ Ended height a crowd sp missed s s' ∧ 0 ≤ missed ∧
    (sp.percentage ≤ 255 →
      crowd.iCreated ≤ ((issuerShare crowd.uCreated.toNat sp.percentage : Nat) : Int) →
      crowd.iCreated + missed =
        min ((issuerShare crowd.uCreated.toNat sp.percentage : Nat) : Int)
          (maxInt64 - crowd.uCreated))

/-- **THE END OF A SALE**: the tokens of its own property, its own entry and its own record change. -/
theorem wp_endCrowdsale {height : Int} {a : Address} {crowd : CMPCrowd}
    {final : SPEntry → Int → SPEntry} {s : State} (hcache : FeeCacheOk height s) :
    wp (endCrowdsale a crowd final) (fun _ s' => EndsWithMissed height a crowd s s')
      (fun _ _ => True) s := by
  unfold endCrowdsale assertSP
  rw [wp_bind, wp_bind, wp_get]
  cases hentry : s.sps.getSP crowd.propertyId with
  | none => exact (wp_throw _ _ _ _).mpr trivial
  | some sp =>
      dsimp only
      rw [wp_pure, wp_bind]
      refine wp_imp wp_getMissedIssuerBonus ?_
      rintro missed _ ⟨rfl, hmissed, -, -, -, hexact⟩
      unfold assertUpdateSP
      rw [wp_bind, wp_bind, wp_get, wp_bind, wp_set, wp_assertThat]
      refine ⟨fun _ => ?_, fun _ => trivial⟩
      rw [wp_bind]
      refine wp_imp (wp_creditMissedTokens
        ((outstanding_self hcache).congr rfl rfl) hmissed) ?_
      rintro _ s₁ ⟨hcount, hsales, hmoney⟩
      unfold eraseCrowd
      rw [wp_modify]
      refine ⟨sp, missed, hentry, ⟨hcount.congr rfl rfl, fun q hq => ?_, ?_, hmoney⟩, hmissed, hexact⟩
      · show s₁.sps.getSP q = _
        rw [show s₁.sps = _ from congrArg Prod.fst hsales]
        exact getSP_updateSP_of_ne _ hq
      · show s₁.crowds.erase a = _
        rw [show s₁.crowds = _ from congrArg Prod.snd hsales]
        rfl

/-! ## The calculation changes nothing -/

section Calculation

variable {τ : Type} {view : State → τ} (arith : Arith256 Halt)

theorem keeps_bonusPercentage (bonusPerc : Nat) (fundraiserSecs currentSecs : Int) :
    Keeps view (bonusPercentage arith bonusPerc fundraiserSecs currentSecs) := by
  refine Keeps.bind (Keeps.ite ?_ (Keeps.pure 0)) fun bonusSeconds => ?_
  · exact (keeps_convertTo256 _).bind fun _ => (keeps_convertTo256 _).bind fun _ => arith.keeps_sub _ _
  · refine (arith.keeps_mul _ _).bind fun _ => (arith.keeps_modulo _ _).bind fun _ => ?_
    refine (arith.keeps_mul _ _).bind fun _ => (arith.keeps_add _ _).bind fun _ => ?_
    refine (arith.keeps_mul _ _).bind fun _ => (arith.keeps_mul _ _).bind fun _ => ?_
    exact (arith.keeps_add _ _).bind fun _ => Keeps.pure _

theorem keeps_createdTokens (inflateAmount : Bool) (amtTransfer numProps : Int) (bonus : Nat) :
    Keeps view (createdTokens arith inflateAmount amtTransfer numProps bonus) := by
  refine (keeps_convertTo256 _).bind fun created => ?_
  refine Keeps.bind ((arith.keeps_mul _ _).ite (Keeps.pure created)) fun _ => ?_
  refine (keeps_convertTo256 _).bind fun _ => (arith.keeps_mul _ _).bind fun _ => ?_
  exact arith.keeps_mul _ _

theorem keeps_issuerTokens (issuerPerc created : Nat) :
    Keeps view (issuerTokens arith issuerPerc created) :=
  (arith.keeps_mul _ _).bind fun _ => (arith.keeps_mul _ _).bind fun _ => arith.keeps_mul _ _

theorem keeps_shareCreatable (total256 createdInt issuerInt : Nat) :
    Keeps view (shareCreatable arith total256 createdInt issuerInt) := by
  refine (arith.keeps_sub _ _).bind fun _ => (arith.keeps_add _ _).bind fun _ => ?_
  refine (arith.keeps_mul _ _).bind fun _ => (arith.keeps_mul _ _).bind fun _ => ?_
  refine (arith.keeps_div _ _).bind fun _ => (arith.keeps_mul _ _).bind fun _ => ?_
  refine (arith.keeps_mul _ _).bind fun _ => (arith.keeps_div _ _).bind fun _ => ?_
  refine (keeps_assertThat _ _).bind fun _ => (arith.keeps_sub _ _).bind fun _ => Keeps.pure _

/-- The calculation leaves the state alone, and its results are not negative. -/
theorem wp_calculateFundraiser (inflateAmount : Bool) (amtTransfer : Int) (bonusPerc : Nat)
    (fundraiserSecs currentSecs numProps : Int) (issuerPerc : Nat) (totalTokens : Int) (s : State) :
    wp (calculateFundraiser arith inflateAmount amtTransfer bonusPerc fundraiserSecs currentSecs
      numProps issuerPerc totalTokens) (fun r s' => s' = s ∧ 0 ≤ r.1 ∧ 0 ≤ r.2.1)
      (fun _ _ => True) s := by
  have hhalt : ∀ e : Halt, (fun _ _ => True : Halt → State → Prop) e s := fun _ => trivial
  unfold calculateFundraiser
  refine (keeps_bonusPercentage arith _ _ _).wp_bind hhalt fun bonus => ?_
  refine (keeps_createdTokens arith _ _ _ _).wp_bind hhalt fun created => ?_
  refine (keeps_issuerTokens arith _ _).wp_bind hhalt fun issuer => ?_
  dsimp only
  refine (keeps_convertTo256 _).wp_bind hhalt fun total => ?_
  refine (arith.keeps_add _ _).wp_bind hhalt fun _ => (arith.keeps_add _ _).wp_bind hhalt fun _ => ?_
  rw [wp_ite]
  refine ⟨fun _ => (keeps_shareCreatable arith _ _ _).wp_bind hhalt fun r => ?_, fun _ => ?_⟩
  · rw [wp_bind, wp_convertTo64]
    refine ⟨fun _ => ?_, fun _ => trivial⟩
    rw [wp_bind, wp_convertTo64]
    refine ⟨fun _ => (wp_pure _ _ _ _).mpr ⟨rfl, ?_, ?_⟩, fun _ => trivial⟩
    · exact Int.natCast_nonneg _
    · exact Int.natCast_nonneg _
  · rw [wp_bind, wp_convertTo64]
    refine ⟨fun _ => ?_, fun _ => trivial⟩
    rw [wp_bind, wp_convertTo64]
    refine ⟨fun _ => (wp_pure _ _ _ _).mpr ⟨rfl, ?_, ?_⟩, fun _ => trivial⟩
    · exact Int.natCast_nonneg _
    · exact Int.natCast_nonneg _

end Calculation

/-- The tokens of a participation are found without changing anything. -/
theorem wp_participationTokens (env : ChainEnv) (tx : CMPTransaction) (crowd : CMPCrowd)
    (s : State) :
    wp (participationTokens env tx crowd) (fun r s' => s' = s ∧ 0 ≤ r.1 ∧ 0 ≤ r.2.1)
      (fun _ _ => True) s := by
  unfold participationTokens assertSP
  rw [wp_bind, wp_get, wp_bind, wp_bind, wp_get]
  cases s.sps.getSP crowd.propertyId with
  | none => exact (wp_throw _ _ _ _).mpr trivial
  | some sp =>
      dsimp only
      rw [wp_pure]
      refine (keeps_getTotalTokens crowd.propertyId).wp_bind (fun _ => trivial) fun total => ?_
      exact wp_calculateFundraiser _ _ _ _ _ _ _ _ _ s

/-! ## Creations -/

theorem putSP_fst (sps : CMPSPInfo) (ecosystem : Nat) (sp : SPEntry) :
    (sps.putSP ecosystem sp).1 = sps.peekNextSPID ecosystem := by
  unfold CMPSPInfo.putSP CMPSPInfo.peekNextSPID
  by_cases h1 : ecosystem = 1
  · simp [h1]
  · by_cases h2 : ecosystem = 2
    · simp [h2]
    · by_cases h3 : ecosystem = 3
      · simp [h3]
      · simp [h1, h2, h3]

/-- The state with a crowdsale that has just begun. -/
def State.withSale (s : State) (tx : CMPTransaction) (blockHash : Nat) : State :=
  { s with
    sps := (s.sps.putSP tx.ecosystem.toNat (crowdsaleEntry tx blockHash)).2
    crowds := s.crowds.insertIfNew tx.sender
      (newCrowd tx (s.sps.peekNextSPID tx.ecosystem.toNat)) }

/-- The checks of a creation that the sale depends on. -/
structure CreateOk (env : ChainEnv) (tx : CMPTransaction) (s : State) : Prop where
  value_ne : tx.nValue ≠ 0
  value_le : (tx.nValue.toNat : Int) ≤ maxInt64
  deadline : env.blockTime ≤ toInt64 tx.deadline.toNat
  noSale : s.crowds.contains tx.sender = false

/-- A creation is refused, or it begins a sale. -/
theorem wp_createPropertyVariable (env : ChainEnv) (tx : CMPTransaction) (s : State) :
    wp (logicMathCreatePropertyVariable env tx) (fun rc s' => (rc ≠ 0 ∧ s' = s) ∨
      (rc = 0 ∧ ∃ blockHash, CreateOk env tx s ∧ s' = s.withSale tx blockHash))
      (fun _ _ => True) s := by
  have hrefused : ∀ code : Int, code ≠ 0 → wp (pure code : ExecM Int) (fun rc s' =>
      (rc ≠ 0 ∧ s' = s) ∨ (rc = 0 ∧ ∃ blockHash, CreateOk env tx s ∧ s' = s.withSale tx blockHash))
      (fun _ _ => True) s := fun code hcode => (wp_pure _ _ _ _).mpr (Or.inl ⟨hcode, rfl⟩)
  unfold logicMathCreatePropertyVariable
  rw [wp_bind, wp_get]
  cases env.blockHash tx.block with
  | none => exact hrefused _ (by decide)
  | some blockHash =>
      dsimp only
      rw [wp_ite]
      refine ⟨fun _ => hrefused _ (by decide), fun _ => ?_⟩
      rw [wp_ite]
      refine ⟨fun _ => hrefused _ (by decide), fun _ => ?_⟩
      rw [wp_ite]
      refine ⟨fun _ => hrefused _ (by decide), fun _ => ?_⟩
      rw [wp_ite]
      refine ⟨fun _ => hrefused _ (by decide), fun hvalue => ?_⟩
      rw [wp_ite]
      refine ⟨fun _ => hrefused _ (by decide), fun _ => ?_⟩
      rw [wp_ite]
      refine ⟨fun _ => hrefused _ (by decide), fun _ => ?_⟩
      rw [wp_ite]
      refine ⟨fun _ => hrefused _ (by decide), fun _ => ?_⟩
      rw [wp_ite]
      refine ⟨fun _ => hrefused _ (by decide), fun hdeadline => ?_⟩
      rw [wp_ite]
      refine ⟨fun _ => hrefused _ (by decide), fun hsale => ?_⟩
      rw [wp_bind, wp_set, wp_bind, wp_assertThat]
      refine ⟨fun _ => ?_, fun _ => trivial⟩
      rw [wp_bind, wp_modify, wp_pure]
      rw [not_or, not_lt] at hvalue hdeadline
      refine Or.inr ⟨rfl, blockHash, ⟨hvalue.1, hvalue.2, hdeadline.2, ?_⟩, ?_⟩
      · exact Bool.not_eq_true _ ▸ hsale
      · unfold State.withSale
        rw [putSP_fst]

/-- A contract is created: the registry gets an entry, and the process-wide parameters change. -/
theorem wp_createContractDex (blockHash : Option Nat) (tx : CMPTransaction) (s : State) :
    wp (logicMathCreateContractDex blockHash tx) (fun _ s' => s' = s ∨
      ∃ sp, s'.sps = (s.sps.putSP tx.ecosystem.toNat sp).2 ∧ s'.crowds = s.crowds ∧
        s'.tallyMap = s.tallyMap ∧ s'.feeCache = s.feeCache) (fun _ _ => True) s := by
  unfold logicMathCreateContractDex
  cases blockHash with
  | none => exact (wp_pure _ _ _ _).mpr (Or.inl rfl)
  | some hash =>
      dsimp only
      rw [wp_bind, wp_modify, wp_bind, wp_get, wp_bind, wp_set, wp_bind, wp_assertThat]
      refine ⟨fun _ => ?_, fun _ => trivial⟩
      rw [wp_pure]
      exact Or.inr ⟨_, rfl, rfl, rfl, rfl⟩

/-! ## Steps beside a sale -/

section Beside

variable {sale : Sale} {height : Int} {s s' : State}

theorem besideSale_refl (hcache : FeeCacheOk height s) : BesideSale sale height s s :=
  ⟨hcache, rfl, rfl, id, rfl⟩

/-- The registry has a new entry with another identifier. -/
theorem entry_putSP {ecosystem : Nat} {sp : SPEntry} (h : s.sps.peekNextSPID ecosystem ≠ sale.propertyId) :
    (s.sps.putSP ecosystem sp).2.getSP sale.propertyId = s.sps.getSP sale.propertyId := by
  refine getSP_putSP_of_ne sp ?_
  rw [putSP_fst]
  exact Ne.symm h

/-- The records after a creation. -/
theorem crowds_withSale (tx : CMPTransaction) (blockHash : Nat)
    (hnew : s.crowds.contains tx.sender = false) (a : Address) :
    (s.withSale tx blockHash).crowds[a]? =
      if a = tx.sender then some (newCrowd tx (s.sps.peekNextSPID tx.ecosystem.toNat))
      else s.crowds[a]? := by
  have hmem : tx.sender ∉ s.crowds := by
    rw [← ExtTreeMap.contains_iff_mem, hnew]
    decide
  show (s.crowds.insertIfNew tx.sender _)[a]? = _
  rw [ExtTreeMap.getElem?_insertIfNew]
  by_cases ha : a = tx.sender
  · subst ha
    rw [if_pos rfl, if_pos ⟨Std.ReflCmp.compare_self, hmem⟩]
  · rw [if_neg ha, if_neg]
    rintro ⟨hcmp, -⟩
    exact ha (Std.LawfulEqCmp.eq_of_compare hcmp).symm

theorem beside_withSale {tx : CMPTransaction} {blockHash : Nat} (hcache : FeeCacheOk height s)
    (hselling : s.Selling sale) (hnew : s.crowds.contains tx.sender = false)
    (hid : s.sps.peekNextSPID tx.ecosystem.toNat ≠ sale.propertyId) :
    BesideSale sale height s (s.withSale tx blockHash) := by
  obtain ⟨crowd, hcrowd, -⟩ := hselling
  have hne : tx.sender ≠ sale.issuer := by
    intro heq
    rw [heq, ← ExtTreeMap.isSome_getElem?_eq_contains, hcrowd] at hnew
    cases hnew
  have hcrowds := crowds_withSale tx blockHash hnew
  refine ⟨hcache.congr rfl, entry_putSP hid, ?_, fun honly a c hc hprop => ?_, ?_⟩
  · rw [hcrowds, if_neg (Ne.symm hne)]
  · rw [hcrowds] at hc
    by_cases ha : a = tx.sender
    · rw [if_pos ha] at hc
      exact absurd ((congrArg CMPCrowd.propertyId (Option.some.inj hc)).trans hprop) hid
    · rw [if_neg ha] at hc
      exact honly a c hc hprop
  · have hcount : Outstanding height s.outstanding (s.withSale tx blockHash) :=
      (outstanding_self hcache).congr rfl rfl
    exact hcount.count sale.propertyId

theorem beside_contract {ecosystem : Nat} {sp : SPEntry} (hcache : FeeCacheOk height s)
    (hsps : s'.sps = (s.sps.putSP ecosystem sp).2) (hcrowds : s'.crowds = s.crowds)
    (htally : s'.tallyMap = s.tallyMap) (hfees : s'.feeCache = s.feeCache)
    (hid : s.sps.peekNextSPID ecosystem ≠ sale.propertyId) : BesideSale sale height s s' := by
  refine ⟨hcache.congr hfees, ?_, by rw [hcrowds], fun honly a c hc => ?_, ?_⟩
  · rw [hsps]
    exact entry_putSP hid
  · rw [hcrowds] at hc
    exact honly a c hc
  · exact ((outstanding_self hcache).congr htally hfees).count sale.propertyId

/-- A participation in another sale. -/
theorem beside_participated {receiver : Address} {crowd crowd' : CMPCrowd} {tokens : Int}
    {closed : Bool} (h : Participated height crowd.propertyId receiver crowd' tokens closed s s')
    (hcrowd : s.crowds[receiver]? = some crowd) (hid : crowd'.propertyId = crowd.propertyId)
    (honly : s.OnlySeller sale) (hne : receiver ≠ sale.issuer) : BesideSale sale height s s' := by
  have hother : crowd.propertyId ≠ sale.propertyId := fun heq => hne (honly receiver crowd hcrowd heq)
  refine ⟨h.count.cache, h.entry _ (Ne.symm hother), h.crowds _ (Ne.symm hne), fun _ a c hc hprop => ?_, ?_⟩
  · by_cases ha : a = receiver
    · subst ha
      rw [h.record] at hc
      cases closed with
      | true => cases hc
      | false => exact absurd (hid ▸ (Option.some.inj hc ▸ hprop)) hother
    · rw [h.crowds a ha] at hc
      exact honly a c hc hprop
  · have hcount := h.count.count sale.propertyId
    rw [hcount, Pi.add_apply, Pi.single_eq_of_ne (Ne.symm hother), add_zero]

/-- Another sale ends. -/
theorem beside_ended {a : Address} {crowd : CMPCrowd} {sp : SPEntry} {missed : Int}
    (h : Ended height a crowd sp missed s s') (hother : crowd.propertyId ≠ sale.propertyId)
    (hne : a ≠ sale.issuer) : BesideSale sale height s s' ∧
      s'.tallyMap.money sale.issuer sale.propertyId .balance =
        s.tallyMap.money sale.issuer sale.propertyId .balance := by
  have hcrowds : ∀ b, s'.crowds[b]? = if a = b then none else s.crowds[b]? := by
    intro b
    rw [h.crowds, getElem?_erase_eq]
  refine ⟨⟨h.count.cache, h.entry _ (Ne.symm hother), ?_, fun honly b c hc hprop => ?_, ?_⟩, ?_⟩
  · rw [hcrowds, if_neg hne]
  · rw [hcrowds] at hc
    split at hc
    · cases hc
    · exact honly b c hc hprop
  · have hcount := h.count.count sale.propertyId
    rw [hcount, Pi.add_apply, Pi.single_eq_of_ne (Ne.symm hother), add_zero]
  · rw [h.money, if_neg fun hboth => hother hboth.2.symm, add_zero]

end Beside

/-! ## The invariant -/

/-- A running sale: its entry and its record have its terms, every purchase so far was exact, and
    what is outstanding is what was credited. -/
structure SaleInv (sale : Sale) (height : Int) (credits : List (Int × Int)) (s : State) : Prop where
  cache : FeeCacheOk height s
  entry : ∃ sp, s.sps.getSP sale.propertyId = some sp ∧ sale.Describes sp
  only : s.OnlySeller sale
  record : ∃ crowd, s.crowds[sale.issuer]? = some crowd ∧ sale.Records credits crowd
  shares : ∀ c ∈ credits,
    0 ≤ c.1 ∧ c.2 = ((issuerShare c.1.toNat sale.percentage.toNat : Nat) : Int)
  count : s.outstanding sale.propertyId = (credits.map Prod.fst).sum + (credits.map Prod.snd).sum

namespace SaleInv

variable {sale : Sale} {height height' : Int} {credits : List (Int × Int)} {s s' : State}

theorem mono (h : SaleInv sale height credits s) (hle : height ≤ height') :
    SaleInv sale height' credits s := { h with cache := h.cache.mono hle }

theorem selling (h : SaleInv sale height credits s) : s.Selling sale := by
  obtain ⟨crowd, hcrowd, hrecords⟩ := h.record
  exact ⟨crowd, hcrowd, hrecords.propertyId⟩

/-- **ACTIVITY BESIDE A SALE** keeps its invariant. -/
theorem beside (h : SaleInv sale height credits s) (hbeside : BesideSale sale height' s s') :
    SaleInv sale height' credits s' where
  cache := hbeside.cache
  entry := by
    rw [hbeside.entry]
    exact h.entry
  only := hbeside.only h.only
  record := by
    rw [hbeside.record]
    exact h.record
  shares := h.shares
  count := hbeside.count.trans h.count

end SaleInv

/-- **A SALE BEGINS** with its invariant, if its identifier was not in use. -/
theorem SaleStart.inv {sale : Sale} {env : ChainEnv} {tx : CMPTransaction} {s s₀ : State}
    (h : SaleStart sale env tx s s₀) (hunused : sale.Unused s) : SaleInv sale tx.block [] s₀ := by
  have hspec := wp_ok (wp_createPropertyVariable env tx s) h.created
  obtain ⟨hrc, -⟩ | ⟨-, blockHash, hok, rfl⟩ := hspec
  · exact absurd rfl hrc
  have hcrowds := crowds_withSale tx blockHash hok.noSale
  have himplied : impliedSP sale.propertyId = none := by
    have hnone := hunused.entry
    unfold CMPSPInfo.getSP at hnone
    cases himplied : impliedSP sale.propertyId with
    | none => rfl
    | some sp =>
        rw [himplied] at hnone
        cases hnone
  refine ⟨h.cache.congr rfl, ⟨crowdsaleEntry tx blockHash, ?_, ?_⟩, ?_,
    ⟨newCrowd tx sale.propertyId, ?_, ?_⟩, nofun, ?_⟩
  · show (s.sps.putSP tx.ecosystem.toNat (crowdsaleEntry tx blockHash)).2.getSP sale.propertyId = _
    rw [← h.propertyId, ← putSP_fst _ _ (crowdsaleEntry tx blockHash)]
    refine getSP_putSP _ ?_
    rw [putSP_fst, h.propertyId, himplied]
  · unfold crowdsaleEntry
    constructor
    · rfl
    · exact congrArg Address.text h.issuer
    · dsimp only
      exact h.tokensPerUnit
    · dsimp only
      exact h.deadline
    · exact congrArg UInt8.toNat h.earlyBird
    · exact congrArg UInt8.toNat h.percentage
  · intro a crowd hcrowd hid
    rw [hcrowds] at hcrowd
    by_cases ha : a = tx.sender
    · exact ha.trans h.issuer
    · rw [if_neg ha] at hcrowd
      exact absurd hid (hunused.sales a crowd hcrowd)
  · rw [hcrowds, if_pos h.issuer.symm, h.propertyId]
  · exact ⟨rfl, h.desired, rfl, rfl⟩
  · have hcount : Outstanding tx.block s.outstanding (s.withSale tx blockHash) :=
      (outstanding_self h.cache).congr rfl rfl
    exact (hcount.count sale.propertyId).trans hunused.tokens

/-! ## Purchases -/

/-- The calculation of a purchase in a sale. -/
def Sale.purchase (sale : Sale) (env : ChainEnv) (inflateAmount : Bool) (amount total : Int)
    (hpos : 0 < amount) (hle : amount ≤ maxInt64) (hnonneg : 0 ≤ total) (hmax : total ≤ maxInt64) :
    Purchase where
  inflateAmount := inflateAmount
  amount := amount
  earlyBird := sale.earlyBird
  deadline := sale.deadline
  now := env.blockTime
  tokensPerUnit := sale.tokensPerUnit
  percentage := sale.percentage
  totalTokens := total
  amount_pos := hpos
  amount_le := hle
  deadline_nonneg := sale.deadline_nonneg
  deadline_le := sale.deadline_le
  now_nonneg := env.time_nonneg
  now_le := env.time_le
  tokensPerUnit_pos := sale.tokensPerUnit_pos
  tokensPerUnit_le := sale.tokensPerUnit_le
  total_nonneg := hnonneg
  total_le := hmax

/-- Where the crowdsale is found, a participation in it is the calculation, and the credit. -/
theorem crowdsaleParticipation_crowd (env : ChainEnv) (tx : CMPTransaction) {receiver : Address}
    {crowd : CMPCrowd} {s : State} (hcrowd : s.crowds[receiver]? = some crowd) :
    crowdsaleParticipation env tx receiver s =
      (if crowd.propertyDesired ≠ tx.property.toNat then pure (pktErrorCrowd - 2)
      else participationTokens env tx crowd >>= fun r =>
        creditParticipation env tx receiver crowd r.1 r.2.1 r.2.2 : ExecM Int) s := by
  unfold crowdsaleParticipation
  simp only [bind, EStateM.bind, get, getThe, MonadStateOf.get, EStateM.get, hcrowd]

/-- A participation in a running sale is the calculation of its purchase, and the credit. -/
theorem SaleInv.participation_eq {sale : Sale} {env : ChainEnv} {tx : CMPTransaction}
    {credits : List (Int × Int)} {s s' : State} {rc : Int} (h : SaleInv sale tx.block credits s)
    (hpos : 0 < tx.nValue.toNat) (hle : (tx.nValue.toNat : Int) ≤ maxInt64)
    (hdesired : tx.property.toNat = sale.desired)
    (hrun : crowdsaleParticipation env tx sale.issuer s = .ok rc s') :
    ∃ (crowd : CMPCrowd) (hnonneg : 0 ≤ s.outstanding sale.propertyId)
      (hmax : s.outstanding sale.propertyId ≤ maxInt64),
      s.crowds[sale.issuer]? = some crowd ∧ sale.Records credits crowd ∧
      participationTokens env tx crowd s =
        (sale.purchase env (!s.sps.isPropertyDivisible tx.property.toNat) tx.nValue.toNat
          (s.outstanding sale.propertyId) (by omega) hle hnonneg hmax).run arithUint256 s ∧
      crowdsaleParticipation env tx sale.issuer s = (participationTokens env tx crowd >>= fun r =>
        creditParticipation env tx sale.issuer crowd r.1 r.2.1 r.2.2) s := by
  obtain ⟨crowd, hcrowd, hrecords⟩ := h.record
  obtain ⟨sp, hentry, hdescribes⟩ := h.entry
  obtain ⟨-, husers, hissuer⟩ := sum_issuerShare_le credits sale.percentage.toNat h.shares
  have hcount := h.count
  have hamount : toInt64 tx.nValue.toNat = tx.nValue.toNat :=
    toInt64_natCast (by unfold maxInt64 at hle; omega)
  have hbody : crowdsaleParticipation env tx sale.issuer s =
      (participationTokens env tx crowd >>= fun r =>
        creditParticipation env tx sale.issuer crowd r.1 r.2.1 r.2.2) s := by
    rw [crowdsaleParticipation_crowd env tx hcrowd,
      if_neg (not_not.mpr (hrecords.desired.trans hdesired.symm))]
  rw [hbody] at hrun
  obtain ⟨r, s₁, htokens, -⟩ := bind_ok hrun
  -- the number of tokens that the calculation starts from
  have hstart : participationTokens env tx crowd s = (getTotalTokens crowd.propertyId >>= fun total =>
      calculateFundraiser arithUint256 (!s.sps.isPropertyDivisible tx.property.toNat)
        (toInt64 tx.nValue.toNat) sp.earlyBird sp.deadline env.blockTime sp.numTokens sp.percentage
        total) s := by
    unfold participationTokens assertSP
    have hsp : s.sps.getSP crowd.propertyId = some sp := by rw [hrecords.propertyId, hentry]
    simp only [bind, EStateM.bind, get, getThe, MonadStateOf.get, EStateM.get, hsp, pure, EStateM.pure]
  rw [hrecords.propertyId] at hstart
  rw [hstart] at htokens
  obtain ⟨total, s₂, htotal, -⟩ := bind_ok htokens
  have hspec := wp_ok (wp_getTotalTokens hentry hdescribes.fixed h.cache) htotal
  obtain ⟨hs₂, htotal_eq, hfits⟩ := hspec
  rw [hs₂, htotal_eq] at htotal
  rw [htotal_eq] at hfits
  refine ⟨crowd, by omega, hfits.2, hcrowd, hrecords, hstart.trans ?_, hbody⟩
  simp only [bind, EStateM.bind, htotal]
  rw [hdescribes.earlyBird, hdescribes.deadline, hdescribes.numTokens, hdescribes.percentage, hamount]
  rfl

/-- The invariant after a purchase that leaves the sale running. -/
theorem SaleInv.participated {sale : Sale} {height : Int} {credits : List (Int × Int)} {s s' : State}
    {crowd : CMPCrowd} {txid : Txid} {nValue blockTime : Int} {user issuer : Nat}
    (h : SaleInv sale height credits s) (hrecords : sale.Records credits crowd)
    (hissuer : issuer = issuerShare user sale.percentage.toNat)
    (hdone : Participated height sale.propertyId sale.issuer
      (crowd.participate txid nValue blockTime user issuer) (user + issuer) false s s') :
    SaleInv sale height (credits ++ [((user : Int), (issuer : Int))]) s' where
  cache := hdone.count.cache
  entry := by
    rw [hdone.sps rfl]
    exact h.entry
  only := by
    intro a c hc hid
    by_cases ha : a = sale.issuer
    · exact ha
    · rw [hdone.crowds a ha] at hc
      exact h.only a c hc hid
  record := by
    refine ⟨_, hdone.record, hrecords.propertyId, hrecords.desired, ?_, ?_⟩
    · rw [List.map_append, List.sum_append, ← hrecords.users]
      simp [CMPCrowd.participate]
    · rw [List.map_append, List.sum_append, ← hrecords.issuer]
      simp [CMPCrowd.participate]
  shares := by
    intro c hc
    rcases List.mem_append.mp hc with hold | hnew
    · exact h.shares c hold
    · rw [List.mem_singleton.mp hnew]
      refine ⟨Int.natCast_nonneg _, ?_⟩
      rw [Int.toNat_natCast, hissuer]
  count := by
    have hcount := hdone.count.count sale.propertyId
    rw [Pi.add_apply, Pi.single_eq_same, h.count] at hcount
    rw [hcount, List.map_append, List.map_append, List.sum_append, List.sum_append]
    simp only [List.map_cons, List.map_nil, List.sum_cons, List.sum_nil]
    ring

/-- **A PURCHASE IS EXACT** as long as it leaves the supply below its cap. -/
theorem SaleInv.purchase {sale : Sale} {env : ChainEnv} {tx : CMPTransaction}
    {credits : List (Int × Int)} {s s' : State} {rc : Int} (h : SaleInv sale tx.block credits s)
    (hpos : 0 < tx.nValue.toNat) (hle : (tx.nValue.toNat : Int) ≤ maxInt64)
    (hfits : IsInt64 tx.block) (hdesired : tx.property.toNat = sale.desired)
    (hrun : crowdsaleParticipation env tx sale.issuer s = .ok rc s')
    (hcap : s'.outstanding sale.propertyId < maxInt64) :
    ∃ (crowd : CMPCrowd) (user issuer : Nat), s.crowds[sale.issuer]? = some crowd ∧
      sale.Records credits crowd ∧
      user = sale.userTokens (!s.sps.isPropertyDivisible tx.property.toNat) tx.nValue.toNat
        env.blockTime ∧
      issuer = issuerShare user sale.percentage.toNat ∧
      participationTokens env tx crowd s = .ok ((user : Int), (issuer : Int), false) s ∧
      crowdsaleParticipation env tx sale.issuer s =
        creditParticipation env tx sale.issuer crowd user issuer false s ∧
      SaleInv sale tx.block (credits ++ [((user : Int), (issuer : Int))]) s' := by
  obtain ⟨crowd, hnonneg, hmax, hcrowd, hrecords, htokens, hbody⟩ :=
    h.participation_eq hpos hle hdesired hrun
  -- what a participation with certain tokens would leave outstanding
  have hcredit : ∀ {user issuer : Int} {closed : Bool}, 0 ≤ user → 0 ≤ issuer →
      participationTokens env tx crowd s = .ok (user, issuer, closed) s →
      crowdsaleParticipation env tx sale.issuer s =
        creditParticipation env tx sale.issuer crowd user issuer closed s ∧
      Participated tx.block sale.propertyId sale.issuer
        (crowd.participate tx.txid (toInt64 tx.nValue.toNat) env.blockTime user issuer)
        (user + issuer) closed s s' := by
    intro user issuer closed huser hissuer hok
    have heq : crowdsaleParticipation env tx sale.issuer s =
        creditParticipation env tx sale.issuer crowd user issuer closed s := by
      rw [hbody]
      simp only [bind, EStateM.bind, hok]
    have hspec := wp_ok (wp_creditParticipation h.cache hfits huser hissuer) (heq.symm.trans hrun)
    rw [hrecords.propertyId] at hspec
    exact ⟨heq, hspec⟩
  generalize hp : sale.purchase env (!s.sps.isPropertyDivisible tx.property.toNat) tx.nValue.toNat
    (s.outstanding sale.propertyId) (by omega) hle hnonneg hmax = p at htokens
  have htotal : p.totalTokens = s.outstanding sale.propertyId := by rw [← hp]; rfl
  by_cases hroom : p.totalTokens + p.user + p.issuer ≤ maxInt64
  · rw [p.run_open _ hroom] at htokens
    obtain ⟨heq, hdone⟩ := hcredit (Int.natCast_nonneg _) (Int.natCast_nonneg _) htokens
    have hissuer : p.issuer = issuerShare p.user sale.percentage.toNat := by rw [← hp]; rfl
    refine ⟨crowd, p.user, p.issuer, hcrowd, hrecords, ?_, hissuer, htokens, heq,
      h.participated hrecords hissuer hdone⟩
    rw [← hp]
    rfl
  · exfalso
    by_cases hfull : p.totalTokens = maxInt64
    · -- the calculation throws
      rw [p.run_throws _ (by omega) hfull] at htokens
      rw [hbody] at hrun
      obtain ⟨r, s₁, hok, -⟩ := bind_ok hrun
      rw [hok] at htokens
      cases htokens
    · -- the sale would end with all tokens that can exist
      have hless : p.totalTokens < maxInt64 := lt_of_le_of_ne p.total_le hfull
      rw [p.run_close _ (by omega) hless] at htokens
      obtain ⟨-, hdone⟩ := hcredit (Int.natCast_nonneg _) (Int.natCast_nonneg _) htokens
      have hcount := hdone.count.count sale.propertyId
      rw [Pi.add_apply, Pi.single_eq_same] at hcount
      have hpart : p.issuerPart ≤ p.creatable := by
        refine p.issuerPart_le ?_ ?_
        · unfold Purchase.creatable
          omega
        · unfold Purchase.creatable
          omega
      have hcreatable : (p.creatable : Int) = maxInt64 - p.totalTokens := by
        unfold Purchase.creatable
        omega
      omega

/-! ## Endings -/

section Endings

variable {sale : Sale} {height : Int} {credits : List (Int × Int)} {s s' s'' : State}

theorem BesideSale.trans (h : BesideSale sale height s s') (h' : BesideSale sale height s' s'') :
    BesideSale sale height s s'' where
  cache := h'.cache
  entry := h'.entry.trans h.entry
  record := h'.record.trans h.record
  only := fun honly => h'.only (h.only honly)
  count := h'.count.trans h.count

/-- **THE ISSUER IS MADE UP** when the sale ends: the shares credited one by one are not more than
    the share of the sum, so what is missing is not negative. -/
theorem SaleInv.settled {crowd : CMPCrowd} (h : SaleInv sale height credits s)
    (hcrowd : s.crowds[sale.issuer]? = some crowd)
    (hend : EndsWithMissed height sale.issuer crowd s s') :
    sale.Settled credits s s' ∧ FeeCacheOk height s' ∧ s'.crowds[sale.issuer]? = none := by
  obtain ⟨c, hc, hrecords⟩ := h.record
  have hcc : c = crowd := Option.some.inj (hc.symm.trans hcrowd)
  subst hcc
  obtain ⟨sp, missed, hsp, hended, hmissed, hexact⟩ := hend
  obtain ⟨sp', hentry, hdescribes⟩ := h.entry
  have hspp : sp' = sp := by
    rw [hrecords.propertyId, hentry] at hsp
    exact Option.some.inj hsp
  subst hspp
  obtain ⟨hshare, -, -⟩ := sum_issuerShare_le credits sale.percentage.toNat h.shares
  refine ⟨⟨missed, hmissed, ?_, ?_⟩, hended.count.cache, ?_⟩
  · rw [hended.money, hdescribes.issuer, Address.ofText?_text, hrecords.propertyId,
      if_pos ⟨rfl, rfl⟩]
  · rw [hdescribes.percentage, hrecords.users, hrecords.issuer] at hexact
    exact hexact (Nat.le_of_lt_succ sale.percentage.toNat_lt) hshare
  · rw [hended.crowds, getElem?_erase_eq, if_pos rfl]

/-- A closing transaction is refused, or it ends the sale of its sender. -/
theorem wp_closeCrowdsale {env : ChainEnv} {tx : CMPTransaction} (hcache : FeeCacheOk height s) :
    wp (logicMathCloseCrowdsale env tx) (fun _ s' => s' = s ∨ ∃ crowd,
        s.crowds[tx.sender]? = some crowd ∧ EndsWithMissed height tx.sender crowd s s')
      (fun _ _ => True) s := by
  have hrefused : ∀ code : Int, wp (pure code : ExecM Int) (fun _ s' => s' = s ∨ ∃ crowd,
      s.crowds[tx.sender]? = some crowd ∧ EndsWithMissed height tx.sender crowd s s')
      (fun _ _ => True) s := fun code => (wp_pure _ _ _ _).mpr (Or.inl rfl)
  unfold logicMathCloseCrowdsale
  rw [wp_bind, wp_get]
  cases env.blockHash tx.block with
  | none => exact hrefused _
  | some blockHash =>
      dsimp only
      rw [wp_ite]
      refine ⟨fun _ => hrefused _, fun _ => ?_⟩
      rw [wp_ite]
      refine ⟨fun _ => hrefused _, fun _ => ?_⟩
      rw [wp_ite]
      refine ⟨fun _ => hrefused _, fun _ => ?_⟩
      cases hcrowd : s.crowds[tx.sender]? with
      | none => exact (wp_pure _ _ _ _).mpr (Or.inl rfl)
      | some crowd =>
          dsimp only
          rw [wp_ite]
          refine ⟨fun _ => (wp_pure _ _ _ _).mpr (Or.inl rfl), fun _ => ?_⟩
          rw [wp_bind]
          refine wp_imp (wp_endCrowdsale hcache) fun _ s' hend => ?_
          exact (wp_pure _ _ _ _).mpr (Or.inr ⟨crowd, rfl, hend⟩)

/-- Another sale ends, as far as it does. -/
theorem beside_endsWith {a : Address} {crowd : CMPCrowd}
    (hother : crowd.propertyId ≠ sale.propertyId) (hne : a ≠ sale.issuer)
    (hend : EndsWithMissed height a crowd s s') : BesideSale sale height s s' ∧
      s'.tallyMap.money sale.issuer sale.propertyId .balance =
        s.tallyMap.money sale.issuer sale.propertyId .balance := by
  obtain ⟨sp, missed, -, hended, -, -⟩ := hend
  exact beside_ended hended hother hne

theorem wp_eraseIfPastDeadline {blockHash : Nat} {blockTime : Int} {e : Address × CMPCrowd}
    (hcache : FeeCacheOk height s) :
    wp (eraseIfPastDeadline blockHash blockTime e) (fun _ s' => s' = s ∨
      EndsWithMissed height e.1 e.2 s s') (fun _ _ => True) s := by
  unfold eraseIfPastDeadline
  rw [wp_ite]
  refine ⟨fun _ => ?_, fun _ => (wp_pure _ _ _ _).mpr (Or.inl rfl)⟩
  exact wp_imp (wp_endCrowdsale hcache) fun _ _ hend => Or.inr hend

/-- The loop over other sales. -/
theorem wp_eraseOthers {blockHash : Nat} {blockTime : Int} {l : List (Address × CMPCrowd)}
    (hcache : FeeCacheOk height s)
    (hothers : ∀ e ∈ l, e.2.propertyId ≠ sale.propertyId ∧ e.1 ≠ sale.issuer) :
    wp (l.forM (eraseIfPastDeadline blockHash blockTime)) (fun _ s' => BesideSale sale height s s' ∧
      s'.tallyMap.money sale.issuer sale.propertyId .balance =
        s.tallyMap.money sale.issuer sale.propertyId .balance) (fun _ _ => True) s := by
  refine wp_forM (I := fun s' => BesideSale sale height s s' ∧
    s'.tallyMap.money sale.issuer sale.propertyId .balance =
      s.tallyMap.money sale.issuer sale.propertyId .balance) ?_ ⟨besideSale_refl hcache, rfl⟩
  rintro e he s₁ ⟨hbeside, hmoney⟩
  refine wp_imp (wp_eraseIfPastDeadline hbeside.cache) ?_
  rintro _ s₂ (rfl | hend)
  · exact ⟨hbeside, hmoney⟩
  · obtain ⟨hbeside₂, hmoney₂⟩ := beside_endsWith (hothers e he).1 (hothers e he).2 hend
    exact ⟨hbeside.trans hbeside₂, hmoney₂.trans hmoney⟩

end Endings

/-- **A BLOCK BEGINS**: the sales whose deadline has passed end, each with its own tokens only. -/
theorem SaleInv.block {sale : Sale} {height : Int} {credits : List (Int × Int)} {s : State}
    (h : SaleInv sale height credits s) (blockHash : Nat) (blockTime : Int) :
    wp (eraseExpiredCrowdsale blockHash blockTime) (fun _ s' => SaleInv sale height credits s' ∨
      (sale.Settled credits s s' ∧ ¬ s'.Selling sale)) (fun _ _ => True) s := by
  obtain ⟨crowd, hcrowd, -⟩ := h.record
  have hmem : (sale.issuer, crowd) ∈ s.crowds.toList := mem_toList_iff.mpr hcrowd
  obtain ⟨l₁, l₂, hlist⟩ := List.append_of_mem hmem
  have hnodup : (l₁ ++ (sale.issuer, crowd) :: l₂).Nodup := hlist ▸ nodup_toList s.crowds
  have hnotin : (sale.issuer, crowd) ∉ l₁ ++ l₂ := (List.nodup_middle.mp hnodup).notMem
  -- every other record is another issuer's, of another property
  have hothers : ∀ e ∈ l₁ ++ l₂, e.2.propertyId ≠ sale.propertyId ∧ e.1 ≠ sale.issuer := by
    intro e he
    have hsome : s.crowds[e.1]? = some e.2 := by
      refine mem_toList_iff.mp ?_
      rw [hlist]
      rcases List.mem_append.mp he with he | he
      · exact List.mem_append_left _ he
      · exact List.mem_append_right _ (List.mem_cons_of_mem _ he)
    have hne : e.1 ≠ sale.issuer := by
      intro heq
      rw [heq, hcrowd] at hsome
      exact hnotin (by rw [← heq, Option.some.inj hsome] at *; exact he)
    exact ⟨fun hid => hne (h.only e.1 e.2 hsome hid), hne⟩
  unfold eraseExpiredCrowdsale
  rw [wp_bind, wp_get, hlist, wp_forM_append]
  refine wp_imp (wp_eraseOthers h.cache fun e he => hothers e (List.mem_append_left _ he)) ?_
  rintro _ s₁ ⟨hbeside₁, hmoney₁⟩
  have h₁ := h.beside hbeside₁
  rw [wp_forM_cons]
  refine wp_imp (wp_eraseIfPastDeadline h₁.cache) ?_
  rintro _ s₂ (rfl | hend)
  · -- the deadline of the sale has not passed
    refine wp_imp (wp_eraseOthers h₁.cache fun e he => hothers e (List.mem_append_right _ he)) ?_
    rintro _ s₃ ⟨hbeside₃, -⟩
    exact Or.inl (h₁.beside hbeside₃)
  · obtain ⟨⟨missed, hmissed, hmoney₂, hsum⟩, hcache₂, hnone⟩ :=
      h₁.settled (by rw [hbeside₁.record]; exact hcrowd) hend
    refine wp_imp (wp_eraseOthers hcache₂ fun e he => hothers e (List.mem_append_right _ he)) ?_
    rintro _ s₃ ⟨hbeside₃, hmoney₃⟩
    refine Or.inr ⟨⟨missed, hmissed, ?_, hsum⟩, ?_⟩
    · rw [hmoney₃, hmoney₂, hmoney₁]
    · rintro ⟨c, hc, -⟩
      rw [hbeside₃.record, hnone] at hc
      cases hc

/-! ## Steps -/

/-- A participation is refused, or it credits some tokens. -/
theorem wp_crowdsaleParticipation {env : ChainEnv} {tx : CMPTransaction} {receiver : Address}
    {s : State} (hcache : FeeCacheOk tx.block s) (hfits : IsInt64 tx.block) :
    wp (crowdsaleParticipation env tx receiver) (fun _ s' => s' = s ∨
      ∃ (crowd : CMPCrowd) (user issuer : Int) (closed : Bool), s.crowds[receiver]? = some crowd ∧
        Participated tx.block crowd.propertyId receiver
          (crowd.participate tx.txid (toInt64 tx.nValue.toNat) env.blockTime user issuer)
          (user + issuer) closed s s') (fun _ _ => True) s := by
  unfold crowdsaleParticipation
  rw [wp_bind, wp_get]
  cases hcrowd : s.crowds[receiver]? with
  | none => exact (wp_pure _ _ _ _).mpr (Or.inl rfl)
  | some crowd =>
      dsimp only
      rw [wp_ite]
      refine ⟨fun _ => (wp_pure _ _ _ _).mpr (Or.inl rfl), fun _ => ?_⟩
      rw [wp_bind]
      refine wp_imp (wp_participationTokens env tx crowd s) ?_
      rintro ⟨user, issuer, closed⟩ s₁ ⟨rfl, huser, hissuer⟩
      refine wp_imp (wp_creditParticipation hcache hfits huser hissuer) fun _ s₂ hdone => ?_
      exact Or.inr ⟨crowd, user, issuer, closed, rfl, hdone⟩

/-- A step that is no purchase and ends no sale has nothing to be exact about. -/
theorem stepExact_of_beside {sale : Sale} {credits : List (Int × Int)} {e : CrowdEvent} {s s' : State}
    (hpurchase : ¬ e.BuysFrom sale) (hclosing : ¬ e.MayClose) : StepExact sale credits e s s' where
  purchase env tx he hdesired := by
    subst he
    exact absurd ⟨rfl, hdesired⟩ hpurchase
  closing h := absurd h hclosing

namespace SaleInv

variable {sale : Sale} {height : Nat} {credits : List (Int × Int)} {s s' : State}

/-- A step that credits nothing in the sale. -/
theorem step_beside {e : CrowdEvent} (h : SaleInv sale e.height credits s)
    (hbeside : BesideSale sale e.height s s') (hpurchase : ¬ e.BuysFrom sale)
    (hclosing : ¬ e.MayClose) (hcredits : e.credits sale s = []) :
    StepExact sale credits e s s' ∧
      (s'.Selling sale → SaleInv sale e.height (credits ++ e.credits sale s) s') := by
  refine ⟨stepExact_of_beside hpurchase hclosing, fun _ => ?_⟩
  rw [hcredits, List.append_nil]
  exact h.beside hbeside

/-- A participation, in the sale or in another. -/
theorem step_participate {env : ChainEnv} {tx : CMPTransaction} {receiver : Address} {rc : Int}
    (h : SaleInv sale tx.block credits s) (hpos : 0 < tx.nValue.toNat)
    (hle : (tx.nValue.toNat : Int) ≤ maxInt64) (hfits : IsInt64 tx.block)
    (hrun : crowdsaleParticipation env tx receiver s = .ok rc s')
    (hcap : CrowdEvent.BuysFrom sale (.participate env tx receiver) →
      s'.outstanding sale.propertyId < maxInt64) :
    StepExact sale credits (.participate env tx receiver) s s' ∧ (s'.Selling sale →
      SaleInv sale tx.block (credits ++ CrowdEvent.credits sale s (.participate env tx receiver))
        s') := by
  by_cases hreceiver : receiver = sale.issuer
  · subst hreceiver
    by_cases hdesired : tx.property.toNat = sale.desired
    · obtain ⟨crowd, user, issuer, hcrowd, hrecords, huser, hissuer, htokens, heq, hinv⟩ :=
        h.purchase hpos hle hfits hdesired hrun (hcap ⟨rfl, hdesired⟩)
      have hcredits : CrowdEvent.credits sale s (.participate env tx sale.issuer) =
          [((user : Int), (issuer : Int))] := by
        show CrowdEvent.participationCredits sale s env tx sale.issuer = _
        unfold CrowdEvent.participationCredits
        rw [if_pos rfl, hcrowd]
        dsimp only
        rw [if_neg (not_not.mpr (hrecords.desired.trans hdesired.symm))]
        unfold value
        rw [htokens]
        rfl
      refine ⟨⟨fun env' tx' he _ => ?_, fun h => h.elim⟩, fun _ => ?_⟩
      · cases he
        have hposts := wp_ok (wp_creditParticipation_posts (Int.natCast_nonneg user)
          (Int.natCast_nonneg issuer)) (heq.symm.trans hrun)
        rw [hrecords.propertyId] at hposts
        exact ⟨crowd, user, issuer, hcrowd, huser, hissuer, hcredits, heq, hposts⟩
      · rw [hcredits]
        exact hinv
    · -- the amount is of another property than the desired one
      obtain ⟨crowd, hcrowd, hrecords⟩ := h.record
      have hne : crowd.propertyDesired ≠ tx.property.toNat :=
        fun heq => hdesired (heq.symm.trans hrecords.desired)
      have hrefused : crowdsaleParticipation env tx sale.issuer s = .ok (pktErrorCrowd - 2) s := by
        rw [crowdsaleParticipation_crowd env tx hcrowd, if_pos hne]
        rfl
      rw [hrefused] at hrun
      cases hrun
      refine h.step_beside (besideSale_refl h.cache) (fun hbuys => hdesired hbuys.2) id ?_
      show CrowdEvent.participationCredits sale s env tx sale.issuer = _
      unfold CrowdEvent.participationCredits
      rw [if_pos rfl, hcrowd]
      dsimp only
      rw [if_pos hne]
  · have hcredits : CrowdEvent.credits sale s (.participate env tx receiver) = [] := by
      show CrowdEvent.participationCredits sale s env tx receiver = _
      unfold CrowdEvent.participationCredits
      rw [if_neg hreceiver]
    have hspec := wp_ok (wp_crowdsaleParticipation h.cache hfits) hrun
    obtain rfl | ⟨crowd, user, issuer, closed, hcrowd, hdone⟩ := hspec
    · exact h.step_beside (besideSale_refl h.cache) (fun hbuys => hreceiver hbuys.1) id hcredits
    · exact h.step_beside (beside_participated hdone hcrowd rfl h.only hreceiver)
        (fun hbuys => hreceiver hbuys.1) id hcredits

/-- **ONE STEP**: it is exact, and it keeps the invariant as long as the sale is running. -/
theorem step {e : CrowdEvent} (h : SaleInv sale height credits s)
    (hstep : SaleStep CrowdEvent.LeavesIdentifier sale height e s s') :
    StepExact sale credits e s s' ∧
      (s'.Selling sale → SaleInv sale e.height (credits ++ e.credits sale s) s') := by
  have h := h.mono (Int.ofNat_le.mpr hstep.order)
  have hruns := hstep.runs
  have hallowed := hstep.allowed
  cases e with
  | create env tx =>
      obtain ⟨rc, hrun⟩ := hruns
      have hspec := wp_ok (wp_createPropertyVariable env tx s) hrun
      obtain ⟨-, rfl⟩ | ⟨-, blockHash, hok, rfl⟩ := hspec
      · exact h.step_beside (besideSale_refl h.cache) id id rfl
      · exact h.step_beside (beside_withSale h.cache h.selling hok.noSale hallowed) id id rfl
  | contract blockHash tx =>
      obtain ⟨rc, hrun⟩ := hruns
      have hspec := wp_ok (wp_createContractDex blockHash tx s) hrun
      obtain rfl | ⟨sp, hsps, hcrowds, htally, hfees⟩ := hspec
      · exact h.step_beside (besideSale_refl h.cache) id id rfl
      · exact h.step_beside (beside_contract h.cache hsps hcrowds htally hfees hallowed) id id rfl
  | participate env tx receiver =>
      obtain ⟨hpos, hle, rc, hrun⟩ := hruns
      exact h.step_participate hpos hle hstep.fits hrun hstep.underCap
  | close env tx =>
      obtain ⟨rc, hrun⟩ := hruns
      have hspec := wp_ok (wp_closeCrowdsale h.cache) hrun
      have hcredits : credits ++ CrowdEvent.credits sale s (.close env tx) = credits :=
        List.append_nil _
      rw [hcredits]
      obtain rfl | ⟨crowd, hcrowd, hend⟩ := hspec
      · exact ⟨⟨nofun, fun _ hnot => absurd h.selling hnot⟩, fun _ => h⟩
      · by_cases hsender : tx.sender = sale.issuer
        · rw [hsender] at hcrowd hend
          obtain ⟨hsettled, -, hnone⟩ := h.settled hcrowd hend
          refine ⟨⟨nofun, fun _ _ => hsettled⟩, ?_⟩
          rintro ⟨c, hc, -⟩
          rw [hnone] at hc
          cases hc
        · have hother : crowd.propertyId ≠ sale.propertyId :=
            fun hid => hsender (h.only tx.sender crowd hcrowd hid)
          have hinv := h.beside (beside_endsWith hother hsender hend).1
          exact ⟨⟨nofun, fun _ hnot => absurd hinv.selling hnot⟩, fun _ => hinv⟩
  | block number blockHash blockTime =>
      have hcredits : credits ++ CrowdEvent.credits sale s (.block number blockHash blockTime) =
          credits := List.append_nil _
      rw [hcredits]
      have hspec := wp_ok (h.block blockHash blockTime) hruns
      obtain hinv | ⟨hsettled, hnot⟩ := hspec
      · exact ⟨⟨nofun, fun _ hnot => absurd hinv.selling hnot⟩, fun _ => hinv⟩
      · exact ⟨⟨nofun, fun _ _ => hsettled⟩, fun hselling => absurd hselling hnot⟩
  | other number act =>
      have hbeside := hstep.beside number act rfl
      exact h.step_beside hbeside id id rfl

end SaleInv

/-! ## Whole histories -/

/-- The invariant at the end of a history. -/
theorem SaleRun.inv {sale : Sale} {height₀ height : Nat} {credits : List (Int × Int)} {s₀ s : State}
    (hrun : SaleRun CrowdEvent.LeavesIdentifier sale height₀ s₀ height credits s)
    (h : SaleInv sale height₀ [] s₀) : SaleInv sale height credits s := by
  induction hrun with
  | start => exact h
  | step e run hstep hselling ih => exact (ih.step hstep).2 hselling

/-- **CROWDSALE CREDITS ARE EXACT** in every history of a sale in which no new property or contract
    is given the identifier of the sale: each purchase credits what it is worth, and at the end the
    issuer has what it is owed. -/
theorem crowdsale_exact {sale : Sale} {env : ChainEnv} {tx : CMPTransaction} {s s₀ s₁ s₂ : State}
    {height : Nat} {credits : List (Int × Int)} {e : CrowdEvent}
    (hstart : SaleStart sale env tx s s₀) (hunused : sale.Unused s)
    (hrun : SaleRun CrowdEvent.LeavesIdentifier sale tx.block s₀ height credits s₁)
    (hstep : SaleStep CrowdEvent.LeavesIdentifier sale height e s₁ s₂) :
    StepExact sale credits e s₁ s₂ :=
  ((hrun.inv (hstart.inv hunused)).step hstep).1

/-- A crowdsale with five tokens for a coin and seven percent for the issuer. -/
def smallSaleTx (ecosystem : UInt8) : CMPTransaction :=
  { txid := 1, block := 10, sender := traderA, type := 51, ecosystem, propType := 2
    name := ['S'], property := ecosystem.toUInt32, nValue := 500000000, deadline := 1000
    percentage := 7 }

theorem smallSale_deadline_nonneg : (0 : Int) ≤ 1000 := by decide

theorem smallSale_deadline_le : (1000 : Int) ≤ maxInt64 := by decide

/-- Its terms, under the identifier it is given. -/
def smallSale (ecosystem : UInt8) (propertyId : PropertyId) : Sale where
  issuer := traderA
  propertyId := propertyId
  desired := ecosystem.toNat
  tokensPerUnit := 500000000
  deadline := 1000
  earlyBird := 0
  percentage := 7
  tokensPerUnit_pos := by decide
  tokensPerUnit_le := by decide
  deadline_nonneg := smallSale_deadline_nonneg
  deadline_le := smallSale_deadline_le

/-- The node after the creation. -/
def smallSaleState (ecosystem : UInt8) : State :=
  after (logicMathCreatePropertyVariable saleEnv (smallSaleTx ecosystem)) (State.fresh openParams)

/-- A purchase for nineteen units. -/
def smallPurchase (ecosystem : UInt8) : CMPTransaction :=
  { investTx 2 19 with property := ecosystem.toUInt32 }

/-- The event of that purchase. -/
def purchaseEvent (ecosystem : UInt8) : CrowdEvent :=
  .participate saleEnv (smallPurchase ecosystem) traderA

/-- The node after a purchase. -/
def afterPurchase (ecosystem : UInt8) (s : State) : State :=
  after (crowdsaleParticipation saleEnv (smallPurchase ecosystem) traderA) s

/-- The transaction that closes the sale. -/
def closingTx : CMPTransaction :=
  { txid := 4, block := 12, sender := traderA, type := 53, property := 2147483651 }

theorem smallSale_start {ecosystem : UInt8} {propertyId : PropertyId}
    (hcreated : value (logicMathCreatePropertyVariable saleEnv (smallSaleTx ecosystem))
      (State.fresh openParams) = some 0)
    (hid : (State.fresh openParams).sps.peekNextSPID ecosystem.toNat = propertyId)
    (hdesired : ecosystem.toUInt32.toNat = ecosystem.toNat) :
    SaleStart (smallSale ecosystem propertyId) saleEnv (smallSaleTx ecosystem)
      (State.fresh openParams) (smallSaleState ecosystem) where
  created := eq_ok_of_value hcreated
  issuer := rfl
  propertyId := hid
  desired := hdesired
  tokensPerUnit := toInt64_natCast (show (500000000 : UInt64).toNat < 2 ^ 63 by decide)
  deadline := toInt64_natCast (show (1000 : UInt64).toNat < 2 ^ 63 by decide)
  earlyBird := rfl
  percentage := rfl
  cache := feeCacheOk_empty rfl

/-- A purchase that returns, and leaves the supply below its cap. -/
theorem smallSale_step {allowed : Sale → State → CrowdEvent → Prop} {ecosystem : UInt8}
    {propertyId : PropertyId} {height : Nat} {s : State}
    (hrun : (value (crowdsaleParticipation saleEnv (smallPurchase ecosystem) traderA) s).isSome)
    (horder : height ≤ 11) (hcap : (afterPurchase ecosystem s).outstanding propertyId < maxInt64)
    (hallowed : allowed (smallSale ecosystem propertyId) s (purchaseEvent ecosystem)) :
    SaleStep allowed (smallSale ecosystem propertyId) height (purchaseEvent ecosystem) s
      (afterPurchase ecosystem s) where
  runs := by
    obtain ⟨rc, hrc⟩ := Option.isSome_iff_exists.mp hrun
    exact ⟨show 0 < (19 : UInt64).toNat by decide,
      show ((19 : UInt64).toNat : Int) ≤ maxInt64 by decide, rc, eq_ok_of_value hrc⟩
  order := horder
  fits := show IsInt64 ((11 : Nat) : Int) by decide
  beside := nofun
  underCap _ := hcap
  allowed := hallowed

theorem smallSale_selling {ecosystem : UInt8} {propertyId : PropertyId} {s : State}
    (h : (s.crowds[traderA]?).map CMPCrowd.propertyId = some propertyId) :
    s.Selling (smallSale ecosystem propertyId) := by
  obtain ⟨crowd, hcrowd, hid⟩ := Option.map_eq_some_iff.mp h
  exact ⟨crowd, hcrowd, hid⟩

set_option maxRecDepth 4000 in
/-- Two purchases of nineteen units credit 95 and 6 tokens each; the closing transaction adds one,
    for seven percent of 190 are 13. -/
theorem crowdsale_exact_closed :
    StepExact (smallSale 2 2147483651) [(95, 6), (95, 6)] (.close saleEnv closingTx)
        (afterPurchase 2 (afterPurchase 2 (smallSaleState 2)))
        (after (logicMathCloseCrowdsale saleEnv closingTx)
          (afterPurchase 2 (afterPurchase 2 (smallSaleState 2)))) ∧
      (smallSale 2 2147483651).owed 190 = 13 := by
  have hunused : (smallSale 2 2147483651).Unused (State.fresh openParams) := by
    refine ⟨by decide +kernel, by decide +kernel, fun a crowd hcrowd => ?_⟩
    rw [show (State.fresh openParams).crowds = ∅ from rfl, ExtTreeMap.getElem?_empty] at hcrowd
    cases hcrowd
  have hfirst : SaleStep CrowdEvent.LeavesIdentifier (smallSale 2 2147483651) 10 (purchaseEvent 2)
      (smallSaleState 2) (afterPurchase 2 (smallSaleState 2)) :=
    smallSale_step (by decide +kernel) (by decide) (by decide +kernel) trivial
  have hsecond : SaleStep CrowdEvent.LeavesIdentifier (smallSale 2 2147483651) 11 (purchaseEvent 2)
      (afterPurchase 2 (smallSaleState 2)) (afterPurchase 2 (afterPurchase 2 (smallSaleState 2))) :=
    smallSale_step (by decide +kernel) (by decide) (by decide +kernel) trivial
  have hrun := (SaleRun.start.step _ hfirst (smallSale_selling (by decide +kernel))).step _ hsecond
    (smallSale_selling (by decide +kernel))
  have hcredits : [] ++ (purchaseEvent 2).credits (smallSale 2 2147483651) (smallSaleState 2) ++
      (purchaseEvent 2).credits (smallSale 2 2147483651) (afterPurchase 2 (smallSaleState 2)) =
      [(95, 6), (95, 6)] := by decide +kernel
  rw [hcredits] at hrun
  have hclosed : value (logicMathCloseCrowdsale saleEnv closingTx)
      (afterPurchase 2 (afterPurchase 2 (smallSaleState 2))) = some 0 := by decide +kernel
  refine ⟨crowdsale_exact (smallSale_start (by decide +kernel) (by decide +kernel) (by decide))
    hunused hrun ⟨⟨0, eq_ok_of_value hclosed⟩, ?_, ?_, nofun, fun h => h.elim, trivial⟩, by decide⟩
  · exact show (11 : Nat) ≤ 12 by decide
  · exact show IsInt64 ((12 : Nat) : Int) by decide

set_option maxRecDepth 4000 in
/-- **THE FIRST CROWDSALE OF THE MAIN ECOSYSTEM** gets the identifier 3, whose entry is a constant
    with another price: a purchase of 95 tokens credits none. -/
theorem first_sale_credits_nothing :
    SaleStart (smallSale 1 3) saleEnv (smallSaleTx 1) (State.fresh openParams) (smallSaleState 1) ∧
      SaleRun (fun _ _ _ => True) (smallSale 1 3) 10 (smallSaleState 1) 10 [] (smallSaleState 1) ∧
      SaleStep (fun _ _ _ => True) (smallSale 1 3) 10 (purchaseEvent 1) (smallSaleState 1)
        (afterPurchase 1 (smallSaleState 1)) ∧
      (smallSale 1 3).userTokens false 19 500 = 95 ∧
      ¬ StepExact (smallSale 1 3) [] (purchaseEvent 1) (smallSaleState 1)
        (afterPurchase 1 (smallSaleState 1)) := by
  refine ⟨smallSale_start (by decide +kernel) (by decide +kernel) (by decide), SaleRun.start,
    smallSale_step (by decide +kernel) (by decide) (by decide +kernel) trivial, by decide, ?_⟩
  intro hexact
  obtain ⟨crowd, user, issuer, -, huser, -, hcredits, -⟩ :=
    hexact.purchase saleEnv (smallPurchase 1) rfl (by decide)
  have hnothing : (purchaseEvent 1).credits (smallSale 1 3) (smallSaleState 1) = [(0, 0)] := by
    decide +kernel
  rw [hnothing] at hcredits
  have hspecified : (smallSale 1 3).userTokens
      (!(smallSaleState 1).sps.isPropertyDivisible (smallPurchase 1).property.toNat)
      (smallPurchase 1).nValue.toNat saleEnv.blockTime = 95 := by decide +kernel
  rw [hspecified] at huser
  subst huser
  exact absurd hcredits (by simp)

end OmniCore
