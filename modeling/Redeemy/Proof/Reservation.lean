import Mathlib.Data.Fintype.BigOperators
import Redeemy.Proof.Requests

/-!
# Reservations

A pool is a stock of prizes: `_totalNumberOfAssets` counts the cards nobody has paid for, and every
unfulfilled request reserves one card. Each call of the system is one operation of the stock, or none.
-/

namespace Redeemy

open Fallible EnumerableSet

variable {F : Type → Type}
variable {w w' : World F} {pool pool' : AssetPoolV1 F} {p self sender k : Address}
variable {assets : Assets} {call : Call} {s s' : AssetPoolV1 F × Tokens}

/-! ### One card for each ERC721 token -/

theorem OneCardEach.congr (hboxes : pool'.assetBoxes .ERC721 = pool.assetBoxes .ERC721)
    (h : OneCardEach pool) : OneCardEach pool' := by
  unfold OneCardEach
  rwa [hboxes]

variable [EnumerableSet F]

theorem assetBoxes_storeBoxes {admin c : Address} {t t' : AssetType} {boxes : List AssetBox}
    (ht : t' ≠ t) (h : storeBoxes admin (pool.addContract t c) t c boxes = .ok pool') :
    pool'.assetBoxes t' = pool.assetBoxes t' := by
  obtain ⟨stored, _, rfl⟩ := storeBoxes_eq_ok h
  funext c'
  rw [AssetPoolV1.assetBoxes_setBoxes_of_ne (fun h => ht h.1), AssetPoolV1.assetBoxes_addContract]

theorem OneCardEach.depositStep {admin : Address} (h : DepositStep self admin assets s s')
    (hs : OneCardEach s.1) : OneCardEach s'.1 := by
  cases h with
  | erc20 c boxes _ _ hstore => exact hs.congr (assetBoxes_storeBoxes (by simp) hstore)
  | erc721Contract c => exact hs.congr (by rw [AssetPoolV1.assetBoxes_addContract])
  | erc721Token c tokenId =>
    intro c' b hb
    rw [AssetPoolV1.assetBoxes_setBoxes] at hb
    split_ifs at hb with hc
    · obtain ⟨_, rfl⟩ := hc
      rcases List.mem_append.mp hb with hb | hb
      · exact hs c' b hb
      · rw [List.mem_singleton.mp hb]
    · exact hs c' b hb

theorem OneCardEach.drawn {card : Card} (h : Drawn pool pool' card) (hs : OneCardEach pool) :
    OneCardEach pool' := by
  intro c b hb
  by_cases hc : .ERC721 = card.assetType ∧ c = card.contractAddress
  · obtain ⟨ht, rfl⟩ := hc
    rw [ht] at hb
    have hcard : card.box.numberOfCards = 1 := hs _ _ (ht ▸ h.box_mem)
    rcases h.mem_assetBoxes hb with hb | ⟨hmany, _⟩
    · exact hs _ b (ht ▸ hb)
    · omega
  · rw [h.assetBoxes_of_ne hc] at hb
    exact hs c b hb

theorem oneCardEach_rule : StepRule (F := F) p OneCardEach where
  initial := by simp [OneCardEach, AssetPoolV1.initial]
  congr := fun _ _ hboxes _ hpool => hpool.congr (congrFun hboxes _)
  deposit := fun _ _ _ _ => OneCardEach.depositStep
  native := fun _ _ _ _ h hpool => hpool.congr (assetBoxes_storeBoxes (by simp) h)
  withdraw := fun _ _ _ _ => OneCardEach.withdrawStep
  drawn := fun _ _ _ => OneCardEach.drawn

/-! ### Pools as stocks -/

/-- `s` is what a pool with `pending` unfulfilled requests stands for. -/
structure Represents (s : Stock (AssetType × Address) Nat) (pool : AssetPoolV1 F) (pending : Nat) :
    Prop where
  items : s.items = pool.stock
  free : s.free = pool.totalNumberOfAssets
  reserved : s.reserved = pending

/-- The pool goes from one state to another by an operation of the stock it stands for, or by none. -/
def Refines (p : Address) (w w' : World F) : Prop :=
  ∀ pool pool', w.assetPools p = some pool → w'.assetPools p = some pool' → OneCardEach pool →
    ∀ s, Represents s pool (w.pending p) →
      ∃ s', Relation.ReflGen Stock.Step s s' ∧ Represents s' pool' (w'.pending p)

/-- Every deposit into the pool has one list of boxes for each ERC20 contract. -/
def MatchedDeposits (p : Address) (call : Call) : Prop :=
  match call.action with
  | .assetPool a (.depositAssets _ assets) => a = p → assets.Matched
  | _ => True

instance (p : Address) (call : Call) : Decidable (MatchedDeposits p call) := by
  unfold MatchedDeposits
  obtain ⟨sender, action⟩ := call
  induction action using Action.casesOn with
  | assetPool a c => induction c using AssetPoolCall.casesOn <;> infer_instance
  | _ => infer_instance

theorem size_prizes_of_deposit {n : Nat} (hmatched : assets.Matched)
    (hlen : assets.erc721ContractAddresses.length = assets.erc721TokenIds.length)
    (h : calculateNumberOfAssets assets = .ok n) : Stock.size (assets.prizes self) = n := by
  rw [size_prizes, numberOfCards_of_matched hmatched hlen, calculateNumberOfAssets_eq_ok h]

omit [EnumerableSet F] in
/-- A step that leaves the stocks and the requests alone. -/
theorem Refines.of_same (hpending : w'.pending p = w.pending p)
    (hpools : ∀ pool pool', w.assetPools p = some pool → w'.assetPools p = some pool' →
      pool'.assetBoxes = pool.assetBoxes ∧
        pool'.totalNumberOfAssets = pool.totalNumberOfAssets) : Refines p w w' := by
  intro pool pool' hpool hpool' hone s hs
  obtain ⟨hboxes, htotal⟩ := hpools pool pool' hpool hpool'
  have hstock : pool'.stock = pool.stock := by
    unfold AssetPoolV1.stock
    rw [hboxes]
  exact ⟨s, .refl, hs.items.trans hstock.symm,
    hs.free.trans htotal.symm, hs.reserved.trans hpending.symm⟩

theorem refines_deposit {value : Nat} (hmatched : self = p → assets.Matched)
    (h : Deposit w self sender value assets w') : Refines p w w' := by
  cases h with
  | @mk pool pool₁ pool₂ pool₃ rp n _ _ _ _ _ hpool _ _ _ hcount _ _ _ h20 hnative _ h721 hlen hstock =>
    intro pool₀ pool' hpool₀ hpool' hone s hs
    rcases setPool_cases hpool' with ⟨rfl, rfl⟩ | ⟨_, hold⟩
    · rw [hpool, Option.some.injEq] at hpool₀
      subst hpool₀
      have hterms := h20.sameTerms.trans ((sameTerms_storeBoxes hnative).trans h721.sameTerms)
      refine ⟨s.put (assets.prizes p), .single (.put _), ?_, ?_, hs.reserved⟩
      · rw [hstock, ← hs.items]
        rfl
      · rw [hterms.totalNumberOfAssets, ← size_prizes_of_deposit (hmatched rfl) hlen hcount, ← hs.free]
        rfl
    · rw [hpool₀, Option.some.injEq] at hold
      exact hold ▸ ⟨s, .refl, hs⟩

theorem refines_withdraw (h : Withdraw w self sender assets w') : Refines p w w' := by
  cases h with
  | @mk pool rp s' _ hpool _ _ hsteps hstock htotal hfree =>
    intro pool₀ pool' hpool₀ hpool' hone s hs
    rcases setPool_cases hpool' with ⟨rfl, rfl⟩ | ⟨_, hold⟩
    · rw [hpool, Option.some.injEq] at hpool₀
      subst hpool₀
      have hsame := hsteps.sameTerms.totalNumberOfAssets
      have hitems : s.items = s'.pool.stock + assets.prizes p := hs.items.trans (hstock hone)
      have henough : Stock.size (assets.prizes p) ≤ s.free := by
        rw [← htotal, hs.free, ← hsame]
        exact hfree
      refine ⟨s.take _ _ hitems henough, .single (.take _ _ hitems henough), rfl, ?_, hs.reserved⟩
      simp only [Stock.take, hs.free, htotal]
      rw [← hsame]
    · rw [hpool₀, Option.some.injEq] at hold
      exact hold ▸ ⟨s, .refl, hs⟩

theorem refines_redeem {trailing : Address} {n : Nat} {requestIds : List Nat}
    (h : Redeem w self sender trailing n requestIds w') : Refines p w w' := by
  cases h with
  | @mk pool rp _ _ w₁ hpool _ _ _ _ hfree _ hlen hrequests =>
    intro pool₀ pool' hpool₀ hpool' hone s hs
    have hpending : w₁.pending p = w.pending p + if p = self then requestIds.length else 0 :=
      hrequests.requested.pending p
    obtain ⟨_, _, _, hw₁⟩ := hrequests.frame
    subst hw₁
    rcases setPool_cases hpool' with ⟨rfl, rfl⟩ | ⟨hp, hold⟩
    · rw [hpool, Option.some.injEq] at hpool₀
      subst hpool₀
      rw [if_pos rfl, hlen] at hpending
      have henough : n ≤ s.free := hs.free ▸ hfree
      refine ⟨s.reserve n henough, .single (.reserve n henough), hs.items, ?_, ?_⟩
      · simp only [Stock.reserve, hs.free]
      · exact (congrArg (· + n) hs.reserved).trans hpending.symm
    · rw [if_neg hp, Nat.add_zero] at hpending
      rw [hpool₀, Option.some.injEq] at hold
      exact hold ▸ ⟨s, .refl, hs.items, hs.free, hs.reserved.trans hpending.symm⟩

theorem refines_fulfill {requestId : Nat} {words : List Nat} (ht : Tracked w)
    (howed : (requestId, k) ∈ w.vrf.owed) (h : Fulfill w k sender requestId words w') :
    Refines p w w' := by
  cases h with
  | @mk consumer q receiver pool pool₁ rp card tokens hconsumer _ hrequest hpool _ _ hdraw =>
    have hmem := ht.mem_of_owed howed hconsumer hrequest
    have hdrawn := drawCard_eq_ok hdraw
    intro pool₀ pool' hpool₀ hpool' hone s hs
    have hpending := pending_erase hmem p
    rcases setPool_cases hpool' with ⟨rfl, rfl⟩ | ⟨hp, hold⟩
    · rw [show w.assetPools p = some pool from hpool, Option.some.injEq] at hpool₀
      subst hpool₀
      rw [if_pos rfl] at hpending
      have hres : 1 ≤ s.reserved := by
        rw [hs.reserved, hpending]
        exact Nat.le_add_left 1 _
      have hitems := hs.items.trans hdrawn.stock_eq
      have hsize := size_single (card.assetType, card.contractAddress) {card.box.amountOrTokenId}
      rw [Multiset.card_singleton] at hsize
      refine ⟨s.pay _ _ hitems hsize hres, .single (.pay _ _ hitems hsize hres), rfl,
        hs.free.trans hdrawn.total_eq.symm, ?_⟩
      show s.reserved - 1 = World.pending _ p
      rw [hs.reserved, hpending, Nat.add_sub_cancel]
      rfl
    · rw [if_neg hp, Nat.add_zero] at hpending
      rw [show w.assetPools p = some pool' from hold, Option.some.injEq] at hpool₀
      exact hpool₀ ▸ ⟨s, .refl, hs.items, hs.free, hs.reserved.trans hpending⟩

/-- Every change of the system is an operation on the stock of one pool. -/
theorem Change.refines (hw : Sane w) (ht : Tracked w) (honce : w.OnceOnly call)
    (hmatched : MatchedDeposits p call) (h : Change w call w') : Refines p w w' := by
  cases h with
  | @setPrice pool self redeemTokenAmount _ hpool =>
    refine .of_same rfl fun pool₀ pool' hpool₀ hpool' => ?_
    rcases setPool_cases hpool' with ⟨rfl, rfl⟩ | ⟨_, hold⟩
    · rw [hpool, Option.some.injEq] at hpool₀
      exact hpool₀ ▸ ⟨rfl, rfl⟩
    · rw [hpool₀, Option.some.injEq] at hold
      exact hold ▸ ⟨rfl, rfl⟩
  | handOut self dst amount =>
    refine .of_same rfl fun pool₀ pool' hpool₀ hpool' => ?_
    rw [show w.assetPools p = some pool' from hpool', Option.some.injEq] at hpool₀
    exact hpool₀ ▸ ⟨rfl, rfl⟩
  | deposit self value assets hcall h =>
    unfold MatchedDeposits at hmatched
    rw [hcall] at hmatched
    exact refines_deposit hmatched h
  | withdraw self assets _ h => exact refines_withdraw h
  | redeem self trailing n requestIds _ _ h => exact refines_redeem h
  | fulfill k requestId words hcall h => exact refines_fulfill ht (h.owed hw.wired hcall honce) h

/-! ### The invariant -/

/-- The wrapper makes each callback once, and every deposit into the pool has one list of boxes for
each ERC20 contract. -/
def Accounted (p : Address) (w : World F) (call : Call) : Prop :=
  w.OnceOnly call ∧ MatchedDeposits p call

instance (p : Address) (w : World F) (call : Call) : Decidable (Accounted p w call) :=
  inferInstanceAs (Decidable (_ ∧ _))

/-- The pool is a stock. -/
def Stocked (p : Address) (w : World F) : Prop :=
  ∀ pool, w.assetPools p = some pool → ∃ s, Represents s pool (w.pending p)

/-- What the accounting of the pool at `p` leans on. -/
structure Accountable (p : Address) (w : World F) : Prop where
  sane : Sane w
  tracked : Tracked w
  oneCard : OnPool p OneCardEach w

theorem kept_accountable : Kept (Accounted p) (Accountable (F := F) p) := by
  have hone : Rule (Accounted p) (fun w : World F => Sane w ∧ Tracked w) (OnPool p OneCardEach) :=
    oneCardEach_rule.poolRule.rule
  refine ((kept_tracked.mono fun _ _ h => h.1).rule (fun _ h => h.1) hone).of_iff fun w => ?_
  exact ⟨fun h => ⟨h.1.1, h.1.2, h.2⟩, fun h => ⟨⟨h.sane, h.tracked⟩, h.oneCard⟩⟩

theorem stocked_rule : Rule (Accounted p) (Accountable (F := F) p) (Stocked p) where
  initial := fun w hw pool hpool => by
    rw [hw.assetPools] at hpool
    cases hpool
  quiet := fun w w' hJ hw h pool hpool => by
    have hsame : w'.pending p = w.pending p := by
      unfold World.pending
      rw [h.unfulfilled]
    rw [hsame]
    rcases h.assetPools p with heq | ⟨hnone, a, id, price, forwarder, _, hnew⟩
    · exact hw pool (heq ▸ hpool)
    · rw [hnew, Option.some.injEq] at hpool
      subst hpool
      exact ⟨.empty, rfl, rfl, (hJ.tracked.pending_eq_zero hnone).symm⟩
  change := fun w call w' hJ hw _ hP h pool' hpool' => by
    obtain ⟨pool, hpool⟩ := h.exists_old hpool'
    obtain ⟨s, hs⟩ := hw pool hpool
    obtain ⟨s', _, hs'⟩ := h.refines hJ.sane hJ.tracked hP.1 hP.2 pool pool' hpool hpool'
      (hJ.oneCard pool hpool) s hs
    exact ⟨s', hs'⟩
  forget := fun w requestId k _ hw => hw

theorem kept_stocked : Kept (Accounted p) (fun w : World F => Accountable p w ∧ Stocked p w) :=
  kept_accountable.rule (fun _ h => h.sane) stocked_rule

/-! ### The accounting of a pool -/

/-- The cards of all boxes of all asset types and contracts. -/
def AssetPoolV1.numberOfCards (pool : AssetPoolV1 F) : Nat :=
  ∑ t, ∑ c, ((pool.assetBoxes t c).map AssetBox.numberOfCards).sum

omit [EnumerableSet F] in
theorem size_stock : Stock.size pool.stock = pool.numberOfCards := by
  unfold Stock.size AssetPoolV1.numberOfCards
  rw [Fintype.sum_prod_type]
  simp only [AssetPoolV1.stock, card_contents, cards_eq_sum]

omit [EnumerableSet F] in
theorem Represents.numberOfCards {s : Stock (AssetType × Address) Nat} {pending : Nat}
    (h : Represents s pool pending) :
    pool.totalNumberOfAssets + pending = pool.numberOfCards ∧ pending ≤ pool.numberOfCards := by
  have hbalanced : s.free + s.reserved = Stock.size s.items := s.balanced
  have hle := s.reserved_le
  rw [h.items, size_stock, h.reserved] at hle
  rw [h.free, h.reserved, h.items, size_stock] at hbalanced
  exact ⟨hbalanced, hle⟩

/-- Free and reserved cards add up to the cards of the pool, and a withdrawal leaves a card for every
pending request. -/
theorem total_add_pending_eq_numberOfCards {c : CallStack.Config (World F) Call}
    (h : World.Run (Accounted p) c) (hpool : c.state.assetPools p = some pool) :
    pool.totalNumberOfAssets + c.state.pending p = pool.numberOfCards ∧
      ∀ sender assets w' pool', c.state.withdrawAssets p sender assets = .ok w' →
        w'.assetPools p = some pool' →
        w'.pending p = c.state.pending p ∧ c.state.pending p ≤ pool'.numberOfCards := by
  obtain ⟨haccountable, hstocked⟩ := kept_stocked.run h
  obtain ⟨s, hs⟩ := hstocked pool hpool
  refine ⟨hs.numberOfCards.1, fun sender assets w' pool' hwithdraw hpool' => ?_⟩
  replace hwithdraw := withdrawAssets_eq_ok hwithdraw
  obtain ⟨s', _, hs'⟩ := refines_withdraw hwithdraw pool pool' hpool hpool'
    (haccountable.oneCard pool hpool) s hs
  have hsame : w'.pending p = c.state.pending p := by
    cases hwithdraw
    rfl
  exact ⟨hsame, hsame ▸ hs'.numberOfCards.2⟩

/-- Two of three native prizes are left, one of them for a request that is pending. -/
def afterWithdrawal : CallStack.Config (World ListSet) Call :=
  World.after (Accounted 1004) [
    World.opening .CustomERC20,
    World.poolCall 1 (.depositAssets 6 (World.nativeBoxes [⟨1, .NativeToken, 3, 2⟩])),
    World.poolCall 1 (.transferRedeemTokenNumber 5 1),
    World.poolCall 5 (.redeemAsset 0 1 [77]),
    World.poolCall 1 (.withdrawAssets (World.nativeBoxes [⟨1, .NativeToken, 1, 2⟩]))]

theorem isSome_afterWithdrawal : (afterWithdrawal.state.assetPools 1004).isSome = true := by
  decide

theorem total_add_pending_afterWithdrawal :
    ((afterWithdrawal.state.assetPools 1004).get isSome_afterWithdrawal).totalNumberOfAssets = 1 ∧
    afterWithdrawal.state.pending 1004 = 1 ∧
    ((afterWithdrawal.state.assetPools 1004).get isSome_afterWithdrawal).totalNumberOfAssets +
      afterWithdrawal.state.pending 1004 =
      ((afterWithdrawal.state.assetPools 1004).get isSome_afterWithdrawal).numberOfCards :=
  ⟨by decide, by decide,
    (total_add_pending_eq_numberOfCards (World.run_after (Accounted 1004) _)
      (Option.some_get isSome_afterWithdrawal).symm).1⟩

end Redeemy
