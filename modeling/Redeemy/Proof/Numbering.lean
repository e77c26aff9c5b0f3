import Redeemy.Proof.Books
import Redeemy.Proof.Supply

/-!
# The ids of the asset pools

A reward pool numbers its asset pools from one on, and a redeem token with ids asks the reward pool
which asset pool may mint and burn under an id.
-/

namespace Redeemy

open Fallible EnumerableSet

variable {F : Type → Type} [EnumerableSet F]
variable {w w' : World F} {pool pool' : AssetPoolV1 F} {rp rp' : RewardPoolV1 F} {t t' : Tokens}
variable {a c p r self sender receiver : Address} {assets : Assets} {id n : Nat} {call : Call}
variable {P : World F → Call → Prop} {cfg : CallStack.Config (World F) Call}

/-! ### Numbers -/

/-- The ids are `1` to the number of asset pools, and each of them belongs to one asset pool. -/
structure Numbered (rp : RewardPoolV1 F) : Prop where
  next : rp.assetPoolId = length rp.assetPools + 1
  ids : ∀ i, i ∈ values rp.assetPoolIds ↔ 1 ≤ i ∧ i ≤ length rp.assetPools
  zero : ∀ i, rp.assetPoolIdToAssetPool i ≠ 0 ↔ 1 ≤ i ∧ i ≤ length rp.assetPools
  injective : ∀ i j, rp.assetPoolIdToAssetPool i ≠ 0 →
    rp.assetPoolIdToAssetPool i = rp.assetPoolIdToAssetPool j → i = j
  onto : ∀ p, p ∈ values rp.assetPools ↔ p ≠ 0 ∧ ∃ i, rp.assetPoolIdToAssetPool i = p

theorem Numbered.addAssetPool (h : Numbered rp) (hp0 : p ≠ 0) (hp : p ∉ values rp.assetPools) :
    Numbered (rp.addAssetPool p) := by
  have hlen : length (add rp.assetPools p) = length rp.assetPools + 1 := (add_perm hp).length_eq
  -- the new id has not been given out, and the new pool has no other id
  have hnew : rp.assetPoolIdToAssetPool rp.assetPoolId = 0 := by
    by_contra hne
    have hlt := (h.zero rp.assetPoolId).mp hne
    have hnext := h.next
    omega
  have hother : ∀ i, rp.assetPoolIdToAssetPool i ≠ p := fun i hi => hp ((h.onto p).mpr ⟨hp0, i, hi⟩)
  have hmap : ∀ i, (rp.addAssetPool p).assetPoolIdToAssetPool i =
      if i = rp.assetPoolId then p else rp.assetPoolIdToAssetPool i :=
    fun i => Function.update_apply ..
  constructor
  · show rp.assetPoolId + 1 = length (add rp.assetPools p) + 1
    rw [hlen, h.next]
  · intro i
    show i ∈ values (add rp.assetPoolIds rp.assetPoolId) ↔ 1 ≤ i ∧ i ≤ length (add rp.assetPools p)
    rw [mem_add, h.ids, hlen, h.next]
    omega
  · intro i
    show _ ↔ 1 ≤ i ∧ i ≤ length (add rp.assetPools p)
    rw [hmap, hlen]
    by_cases hi : i = rp.assetPoolId
    · rw [if_pos hi, hi, h.next]
      simp [hp0]
    · rw [if_neg hi, h.zero]
      have hnext := h.next
      omega
  · intro i j hi hij
    rw [hmap] at hi
    rw [hmap, hmap] at hij
    by_cases hi' : i = rp.assetPoolId <;> by_cases hj' : j = rp.assetPoolId
    · exact hi'.trans hj'.symm
    · rw [if_pos hi', if_neg hj'] at hij
      exact absurd hij.symm (hother j)
    · rw [if_neg hi', if_pos hj'] at hij
      exact absurd hij (hother i)
    · rw [if_neg hi', if_neg hj'] at hij
      rw [if_neg hi'] at hi
      exact h.injective i j hi hij
  · intro q
    show q ∈ values (add rp.assetPools p) ↔ _
    rw [mem_add, h.onto]
    constructor
    · rintro (rfl | ⟨hq, i, hi⟩)
      · exact ⟨hp0, rp.assetPoolId, by rw [hmap, if_pos rfl]⟩
      · have hne : i ≠ rp.assetPoolId := by
          rintro rfl
          exact hq (hi.symm.trans hnew)
        exact ⟨hq, i, by rw [hmap, if_neg hne, hi]⟩
    · rintro ⟨hq, i, hi⟩
      rw [hmap] at hi
      split_ifs at hi
      · exact .inl hi.symm
      · exact .inr ⟨hq, i, hi⟩

theorem numbered_created {m : NewRewardPool} {rewardPoolRegistry forwarder redeemToken : Address}
    (hpool : m.assetPool ≠ 0) :
    Numbered (m.created rewardPoolRegistry forwarder redeemToken : RewardPoolV1 F) := by
  have hnone : ∀ {α : Type} (a : α), a ∉ values (empty : F α) := fun a ha => by
    rw [values_empty] at ha
    cases ha
  have hlen : length (empty : F Address) = 0 := congrArg List.length values_empty
  refine Numbered.addAssetPool ?_ hpool (hnone _)
  exact {
    next := congrArg (· + 1) hlen.symm
    ids := fun i => ⟨fun hi => absurd hi (hnone i), fun hi => by
      have hle : i ≤ length (empty : F Address) := hi.2
      omega⟩
    zero := fun i => ⟨fun hi => absurd rfl hi, fun hi => by
      have hle : i ≤ length (empty : F Address) := hi.2
      omega⟩
    injective := fun i j hi => absurd rfl hi
    onto := fun q => ⟨fun hq => absurd hq (hnone q), fun ⟨hq, _, hi⟩ => absurd hi.symm hq⟩ }

theorem RewardPoolStep.numbered (hw : Wired w.wiring) (hrp : w.rewardPools a = some rp)
    (h : RewardPoolStep w call a rp rp') (hnumbered : Numbered rp) : Numbered rp' := by
  cases h with
  | same => exact hnumbered
  | rename => exact { hnumbered with }
  | setting c _ _ hset => cases hset <;> exact { hnumbered with }
  | createAssetPool redeemTokenAmount clone _ _ _ hfresh =>
    refine hnumbered.addAssetPool hfresh.1 fun hmem => hfresh.2.2 ?_
    obtain ⟨pool, hpool, _⟩ := exists_member hw hrp hmem
    exact (hw.assetPool clone pool.info (Option.map_eq_some_iff.mpr ⟨pool, hpool, rfl⟩)).1

theorem numbered_rule : BooksRule P (Sane : World F → Prop) fun x => ∀ a rp,
    x.rewardPools a = some rp → Numbered rp where
  initial := fun w hw a rp hrp => by
    have hrp : w.rewardPools a = some rp := hrp
    rw [hw.rewardPools] at hrp
    cases hrp
  entry := fun w call x hw hI _ _ h a rp' hrp' => by
    rcases h.rewardPool hrp' with ⟨rp, hrp, hstep⟩ | ⟨_, m, _, _, hm, rfl⟩
    · exact hstep.numbered hw.wired hrp (hI a rp hrp)
    · exact numbered_created hm.assetPool
  registration := fun w call x _ hI _ h a rp' hrp' => by
    cases h with
    | mk m redeemToken _ _ _ _ _ _ _ _ hpool =>
      rcases Books.setRewardPool_cases hrp' with ⟨rfl, rfl⟩ | ⟨_, hold⟩
      · exact numbered_created hpool
      · exact hI a rp' hold

/-! ### Who changes the supply under an id -/

/-- `self` is the asset pool that the token at `c` lets mint and burn under `id`. -/
def Mints (pools : Address → Option (RewardPoolV1 F)) (t : Tokens) (c : Address) (id : Nat)
    (self : Address) : Prop :=
  ∃ r, (t.erc1155 c).map ERC1155.rewardPool = some r ∧ Tokens.AssetPoolWithId pools r self id

theorem mints_of_mintRedeemTokens {pools : Address → Option (RewardPoolV1 F)}
    (h : mintRedeemTokens pools self rp pool t n = .ok t')
    (hne : t'.supply c id ≠ t.supply c id) : Mints pools t c id self := by
  have hissued : t'.issued .CustomERC1155 c id = t.issued .CustomERC1155 c id + _ :=
    issued_mintRedeemTokens h
  have hissues : rp.Issues pool.id .CustomERC1155 c id := by
    by_contra hnot
    rw [if_neg hnot, Nat.add_zero] at hissued
    exact hne hissued
  obtain ⟨hm, _, rfl, hid⟩ := hissues
  rcases mintRedeemTokens_cases h with ⟨hm', _⟩ | ⟨hm', _⟩ | ⟨_, hmint⟩
  · exact absurd (hm.trans hm') (by simp)
  · exact absurd (hm.trans hm') (by simp)
  · obtain ⟨tok, htok, hpool, _⟩ := Tokens.erc1155Mint_eq_ok hmint
    exact ⟨tok.rewardPool, by rw [htok, Option.map_some], hid rfl ▸ hpool⟩

theorem mints_of_takePayment {sink : Option Address}
    (h : w.takePayment self rp pool receiver n = .ok (t', sink))
    (hne : t'.supply c id ≠ w.tokens.supply c id) : Mints w.rewardPools w.tokens c id self := by
  have hissued : t'.issued .CustomERC1155 c id = w.tokens.issued .CustomERC1155 c id - _ :=
    issued_takePayment h
  have hissues : rp.Issues pool.id .CustomERC1155 c id := by
    by_contra hnot
    rw [if_neg hnot, Nat.sub_zero] at hissued
    exact hne hissued
  obtain ⟨hm, _, rfl, hid⟩ := hissues
  rcases takePayment_cases h with ⟨hm', _⟩ | ⟨hm', _⟩ | ⟨_, _, hburn⟩
  · exact absurd (hm.trans hm') (by simp)
  · exact absurd (hm.trans hm') (by simp)
  · obtain ⟨tok, htok, hpool, _⟩ := Tokens.erc1155Burn_eq_ok hburn
    exact ⟨tok.rewardPool, by rw [htok, Option.map_some], hid rfl ▸ hpool⟩

omit [EnumerableSet F] in
theorem Mints.congr {pools : Address → Option (RewardPoolV1 F)} (h : Mints pools t' c id self)
    (hsame : Tokens.SameContracts t t') : Mints pools t c id self := by
  obtain ⟨r, hr, hpool⟩ := h
  exact ⟨r, (hsame.erc1155 c).symm.trans hr, hpool⟩

theorem Deposit.mints {value : Nat} (hself : self ≠ sender)
    (h : Deposit w self sender value assets w')
    (hne : w'.tokens.supply c id ≠ w.tokens.supply c id) :
    Mints w.rewardPools w.tokens c id self := by
  have hall := (h.spares hself).contracts
  cases h with
  | @mk _ _ _ _ _ _ _ tokens₁ tokens₂ tokens₃ tokens₄ _ _ _ hsend _ _ _ _ h20 _ hsend' h721 _ _ hmint =>
    have hsame : Tokens.SameSupply w.tokens tokens₃ := sameSupply_beforeMint hsend h20 hsend' rfl h721
    have hchanged : tokens₄.supply c id ≠ tokens₃.supply c id := fun heq =>
      hne (heq.trans (hsame .CustomERC1155 c id))
    have hmint' := (spares_mintRedeemTokens (a := self) hmint).contracts
    exact (mints_of_mintRedeemTokens hmint hchanged).congr (hall.trans hmint'.symm)

theorem Withdraw.mints (h : Withdraw w self sender assets w')
    (hne : w'.tokens.supply c id ≠ w.tokens.supply c id) :
    Mints w.rewardPools w.tokens c id self := by
  cases h with
  | @mk pool rp₁ s tokens hpool hrp _ hsteps _ _ _ hmint =>
    have hsame : s.tokens.supply c id = w.tokens.supply c id :=
      hsteps.sameSupply .CustomERC1155 c id
    have hchanged : tokens.supply c id ≠ s.tokens.supply c id := fun heq => hne (heq.trans hsame)
    rw [burnRedeemTokens_eq] at hmint
    exact (mints_of_mintRedeemTokens hmint hchanged).congr (hsteps.keeps (a := self)).contracts

theorem Redeem.mints {trailing : Address} {requestIds : List Nat}
    (h : Redeem w self sender trailing n requestIds w')
    (hne : w'.tokens.supply c id ≠ w.tokens.supply c id) :
    Mints w.rewardPools w.tokens c id self := by
  cases h with
  | mk _ _ _ _ _ _ hpay _ hrequests =>
    obtain ⟨_, _, _, rfl⟩ := hrequests.frame
    exact mints_of_takePayment hpay hne

theorem Change.mints (hw : Wired w.wiring) (hcan : w.CanCall call) (h : Change w call w')
    (hne : w'.tokens.supply c id ≠ w.tokens.supply c id) :
    ∃ self action, call.action = .assetPool self action ∧ Mints w.rewardPools w.tokens c id self := by
  cases h with
  | setPrice => exact absurd rfl hne
  | handOut self dst amount _ _ htransfer =>
    exact absurd (sameSupply_transferRedeemToken htransfer .CustomERC1155 c id) hne
  | deposit self value assets hcall h =>
    have hself : self ≠ call.sender := by
      cases h with
      | mk hpool => exact ne_of_system (system_of_assetPool hw hpool) hcan.2.1
    exact ⟨self, _, hcall, h.mints hself hne⟩
  | withdraw self assets hcall h => exact ⟨self, _, hcall, h.mints hne⟩
  | redeem self trailing n requestIds hcall _ h => exact ⟨self, _, hcall, h.mints hne⟩
  | fulfill k requestId words _ h =>
    cases h with
    | mk _ _ _ _ _ _ _ hpay => exact absurd (sameSupply_payCard hpay .CustomERC1155 c id) hne

/-- The asset pool that may mint under an id is the one the reward pool has under that id. -/
theorem Mints.eq_of_custom (hw : Wired w.wiring) (hrp : w.rewardPools r = some rp)
    (hm : rp.redeemMethod = .CustomERC1155)
    (h : Mints w.rewardPools w.tokens rp.redeemTokenContractAddress id self) :
    rp.assetPoolIdToAssetPool id = self ∧ self ≠ 0 := by
  obtain ⟨r', hr', rp', hrp', hmap, hne⟩ := h
  have hr : (w.tokens.erc1155 rp.redeemTokenContractAddress).map ERC1155.rewardPool = some r :=
    (hw.custom r rp.info (wiring_rewardPools hrp)).2 hm
  rw [hr, Option.some.injEq] at hr'
  rw [← hr', hrp, Option.some.injEq] at hrp'
  exact ⟨hrp' ▸ hmap, hne⟩

/-- A quiet step changes no supply of a token that is there. -/
theorem Quiet.supply_eq (h : Quiet w w') (hw : Wired w.wiring) (hrp : w.rewardPools r = some rp)
    (hm : rp.redeemMethod = .CustomERC1155) :
    w'.tokens.supply rp.redeemTokenContractAddress id =
      w.tokens.supply rp.redeemTokenContractAddress id := by
  have hr : (w.tokens.erc1155 rp.redeemTokenContractAddress).map ERC1155.rewardPool = some r :=
    (hw.custom r rp.info (wiring_rewardPools hrp)).2 hm
  obtain ⟨tok, htok, _⟩ := Option.map_eq_some_iff.mp hr
  obtain ⟨tok', htok', hsupply⟩ := h.supply _ tok htok
  rw [Tokens.supply_eq htok, Tokens.supply_eq htok', hsupply]

/-- The supply under an id changes only in calls of the asset pool with that id. -/
theorem supply_enter (hw : Wired w.wiring) (hcan : w.CanCall call) (hrp : w.rewardPools r = some rp)
    (hm : rp.redeemMethod = .CustomERC1155) (h : w.enter call = .ok w')
    (hne : w'.tokens.supply rp.redeemTokenContractAddress id ≠
      w.tokens.supply rp.redeemTokenContractAddress id) :
    rp.assetPoolIdToAssetPool id ≠ 0 ∧
      ∃ action, call.action = .assetPool (rp.assetPoolIdToAssetPool id) action := by
  rcases enter_eq_ok hw hcan h with ⟨hquiet, _⟩ | hchange
  · exact absurd (hquiet.supply_eq hw hrp hm) hne
  · obtain ⟨self, action, hcall, hmints⟩ := hchange.mints hw hcan hne
    obtain ⟨hmap, hself⟩ := hmints.eq_of_custom hw hrp hm
    rw [hmap]
    exact ⟨hself, action, hcall⟩

/-! ### Ids without an asset pool -/

/-- There are no tokens under an id without an asset pool. -/
def Unminted (w : World F) : Prop := ∀ r rp id, w.rewardPools r = some rp →
  rp.redeemMethod = .CustomERC1155 → rp.assetPoolIdToAssetPool id = 0 →
  w.tokens.supply rp.redeemTokenContractAddress id = 0

/-- No reward pool loses an asset pool. -/
def Grows (w w' : World F) : Prop := ∀ r rp rp', w.rewardPools r = some rp →
  w'.rewardPools r = some rp' → ∀ id, rp'.assetPoolIdToAssetPool id = 0 →
  rp.assetPoolIdToAssetPool id = 0

theorem RewardPoolStep.grows (h : RewardPoolStep w call a rp rp') (id : Nat)
    (hzero : rp'.assetPoolIdToAssetPool id = 0) : rp.assetPoolIdToAssetPool id = 0 := by
  cases h with
  | same => exact hzero
  | rename => exact hzero
  | setting c _ _ hset => cases hset <;> exact hzero
  | createAssetPool redeemTokenAmount clone _ _ _ hfresh =>
    change Function.update rp.assetPoolIdToAssetPool rp.assetPoolId clone id = 0 at hzero
    rw [Function.update_apply] at hzero
    split_ifs at hzero
    · exact absurd hzero hfresh.1
    · exact hzero

theorem grows_enter (hw : Wired w.wiring) (hcan : w.CanCall call) (h : w.enter call = .ok w') :
    Grows w w' := by
  intro r rp rp' hrp hrp' id hzero
  rcases (enter_books hw hcan h).rewardPool hrp' with ⟨rp₁, hrp₁, hstep⟩ | ⟨hfresh, _⟩
  · rw [hrp, Option.some.injEq] at hrp₁
    exact hrp₁ ▸ hstep.grows id hzero
  · exact absurd (hw.rewardPool r rp.info (wiring_rewardPools hrp)).1 hfresh.2.2

theorem grows_leave (hw : Wired w.wiring) (h : w.leave call = .ok w') : Grows w w' := by
  intro r rp rp' hrp hrp' id hzero
  have hold : w'.books.rewardPools r = some rp' := hrp'
  rcases leave_books h with hsame | hregistration
  · rw [hsame] at hold
    have hold : w.rewardPools r = some rp' := hold
    rw [hrp, Option.some.injEq] at hold
    exact hold ▸ hzero
  · generalize w'.books = x at hold hregistration
    cases hregistration with
    | mk m redeemToken _ _ _ _ _ _ _ hnew =>
      rcases Books.setRewardPool_cases hold with ⟨rfl, _⟩ | ⟨_, hold⟩
      · exact absurd (hw.rewardPool _ rp.info (wiring_rewardPools hrp)).1 hnew.2
      · have hold : w.rewardPools r = some rp' := hold
        rw [hrp, Option.some.injEq] at hold
        exact hold ▸ hzero

theorem Unminted.quiet (hw : Wired w.wiring) (h : Quiet w w') (hgrows : Grows w w')
    (hI : Unminted w) : Unminted w' := by
  intro r rp' id hrp' hm hzero
  cases hrp : w.rewardPools r with
  | none =>
    obtain ⟨tok, htok, hsupply⟩ := (h.unissued r rp' hrp hrp').erc1155 hm
    rw [Tokens.supply_eq htok, hsupply]
  | some rp =>
    obtain ⟨rp₁, hrp₁, _, hmethod, htoken, _⟩ := h.rewardPools r rp hrp
    rw [hrp', Option.some.injEq] at hrp₁
    subst hrp₁
    have hm : rp.redeemMethod = .CustomERC1155 := hmethod.symm.trans hm
    rw [htoken, h.supply_eq hw hrp hm]
    exact hI r rp id hrp hm (hgrows r rp rp' hrp hrp' id hzero)

theorem unminted_preserved : CallStack.Preserved (World.machine F)
    (fun w call => w.CanCall call ∧ P w call) Sane Unminted where
  enter := fun call w w' hw hI hP h => by
    rcases enter_eq_ok hw.wired hP.1 h with ⟨hquiet, _⟩ | hchange
    · exact hI.quiet hw.wired hquiet (grows_enter hw.wired hP.1 h)
    · intro r rp id hrp hm hzero
      have hpools : w'.rewardPools = w.rewardPools := congrArg Books.rewardPools hchange.books
      rw [hpools] at hrp
      by_contra hne
      rw [← hI r rp id hrp hm hzero] at hne
      exact (supply_enter hw.wired hP.1 hrp hm h hne).1 hzero
  leave := fun call w w' hw hI hP h => by
    obtain ⟨_, hP⟩ := hP
    exact hI.quiet hw.wired (leave_eq_ok hw.wired hP.1.1 h).1 (grows_leave hw.wired h)
  abort := fun call w _ hI _ => by
    rcases abort_eq w call with heq | ⟨requestId, k, heq⟩
    · rwa [heq]
    · rw [heq]
      exact hI

theorem kept_unminted : Kept P fun w : World F => Sane w ∧ Unminted w where
  initial := fun w hw => ⟨sane_initial hw, fun r rp id hrp => by
    rw [hw.rewardPools] at hrp
    cases hrp⟩
  preserved := kept_sane.preserved.and unminted_preserved

/-! ### Every run -/

/-- The supply of the redeem token of `rp` is in the hands of its asset pools, id by id. -/
structure Gated (rp : RewardPoolV1 F) (w : World F) : Prop where
  unminted : ∀ id, rp.assetPoolIdToAssetPool id = 0 →
    w.tokens.supply rp.redeemTokenContractAddress id = 0
  /-- a call changes the supply under one id at most, that of the asset pool it is a call of -/
  enter : ∀ call w' id, w.CanCall call → w.enter call = .ok w' →
    w'.tokens.supply rp.redeemTokenContractAddress id ≠
      w.tokens.supply rp.redeemTokenContractAddress id →
    rp.assetPoolIdToAssetPool id ∈ values rp.assetPools ∧
      ∃ action, call.action = .assetPool (rp.assetPoolIdToAssetPool id) action
  /-- nor does what follows after a call has handed over control -/
  leave : ∀ call w' id, call.sender ≠ 0 → w.leave call = .ok w' →
    w'.tokens.supply rp.redeemTokenContractAddress id =
      w.tokens.supply rp.redeemTokenContractAddress id

/-- In every state of every run the asset pools of a reward pool are numbered, each knows its number
and its reward pool, and the numbers gate the supply of a redeem token with ids. -/
theorem assetPools_are_numbered (h : World.Run P cfg) (hrp : cfg.state.rewardPools r = some rp) :
    Numbered rp ∧
    (∀ p ∈ values rp.assetPools, ∃ pool, cfg.state.assetPools p = some pool ∧ pool.rewardPool = r ∧
      rp.assetPoolIdToAssetPool pool.id = p) ∧
    (rp.redeemMethod = .CustomERC1155 → Gated rp cfg.state) := by
  obtain ⟨hsane, hnumbered⟩ := (kept_sane.booksRule (fun _ => id) numbered_rule).run h
  obtain ⟨_, hunminted⟩ := kept_unminted.run h
  refine ⟨hnumbered r rp hrp, fun p hp => exists_member hsane.wired hrp hp, fun hm => ?_⟩
  constructor
  · exact fun id hzero => hunminted r rp id hrp hm hzero
  · intro call w' id hcan henter hne
    obtain ⟨hmap, hcall⟩ := supply_enter hsane.wired hcan hrp hm henter hne
    exact ⟨((hnumbered r rp hrp).onto _).mpr ⟨hmap, id, rfl⟩, hcall⟩
  · intro call w' id hsender hleave
    exact (leave_eq_ok hsane.wired hsender hleave).1.supply_eq hsane.wired hrp hm

/-- Two asset pools of a reward pool whose redeem token has ids, the second with a native card. -/
def twoAssetPools : CallStack.Config (World ListSet) Call :=
  World.after (fun _ _ => True) [
    World.opening .CustomERC1155,
    .call ⟨1, .rewardPool 1002 (.createAssetPool 3 1005)⟩,
    .call ⟨1, .assetPool 1005 (.depositAssets 2 (World.nativeBoxes [⟨1, .NativeToken, 1, 2⟩]))⟩]

theorem isSome_twoAssetPools : (twoAssetPools.state.rewardPools 1002).isSome = true := by
  decide

theorem assetPools_are_numbered_twoAssetPools :
    Numbered ((twoAssetPools.state.rewardPools 1002).get isSome_twoAssetPools) ∧
    Gated ((twoAssetPools.state.rewardPools 1002).get isSome_twoAssetPools) twoAssetPools.state ∧
    values ((twoAssetPools.state.rewardPools 1002).get isSome_twoAssetPools).assetPools =
      [1004, 1005] ∧
    (twoAssetPools.state.tokens.erc1155 1003).map (fun tok => (tok.balances 1 1005, tok.balances 2 1005)) =
      some (0, 3) := by
  have hnumbered := assetPools_are_numbered (World.run_after (fun _ _ => True) _)
    (Option.some_get isSome_twoAssetPools).symm
  exact ⟨hnumbered.1, hnumbered.2.2 (by decide), by decide, by decide⟩

end Redeemy
