import Redeemy.Proof.Deposit

/-!
# What a withdrawal does

A withdrawal is a sequence of small steps too, each of which pays for cards and takes them out of the
lists. `Withdraw` says everything a successful `withdrawAssets` does.
-/

namespace Redeemy

open Fallible EnumerableSet SwapRemove

variable {F : Type → Type}
variable {w w' : World F} {pool pool' : AssetPoolV1 F} {tokens tokens' : Tokens}
variable {self sender c : Address} {box : AssetBox} {boxes : List AssetBox} {assets : Assets}
variable {accepts : Address → Bool} {s s' : Withdrawal F}

/-! ### Small steps -/

/-- The cards of one fungible box, or one ERC721 token, leave the pool. -/
inductive WithdrawStep (accepts : Address → Bool) (self : Address) (assets : Assets) :
    AssetPoolV1 F × Tokens → AssetPoolV1 F × Tokens → Prop where
  | erc20 {pool : AssetPoolV1 F} {tokens tokens' : Tokens} {answer : ERC20Answer}
      {stored : AssetBox} {boxes' : List AssetBox} {k : Nat} (c : Address)
      (boxes : List AssetBox) (box : AssetBox)
      (hmem : (c, boxes) ∈ assets.erc20ContractAddresses.zip assets.erc20Boxes)
      (hbox : box ∈ boxes)
      (hstored : (pool.assetBoxes .ERC20 c)[k]? = some stored)
      (hkey : stored.amountOrTokenId = box.amountOrTokenId)
      (hpay : tokens.erc20Transfer c self box.depositer (box.amountOrTokenId * box.numberOfCards) =
        .ok (tokens', answer))
      (hlower : lowerCards (pool.assetBoxes .ERC20 c) k box.numberOfCards = .ok boxes') :
      WithdrawStep accepts self assets (pool, tokens) (pool.setBoxes .ERC20 c boxes',
        tokens'.recordIf answer.moves ⟨.withdraw, self, .ERC20, c, box.depositer,
          box.amountOrTokenId * box.numberOfCards⟩)
  | erc721 {pool : AssetPoolV1 F} {tokens tokens' : Tokens} {stored : AssetBox} {k : Nat}
      (c : Address) (tokenIds : List Nat) (tokenId : Nat)
      (hmem : (c, tokenIds) ∈ assets.erc721ContractAddresses.zip assets.erc721TokenIds)
      (htoken : tokenId ∈ tokenIds)
      (hstored : (pool.assetBoxes .ERC721 c)[k]? = some stored)
      (hkey : stored.amountOrTokenId = tokenId)
      (hpay : tokens.erc721TransferFrom c self self stored.depositer tokenId = .ok tokens') :
      WithdrawStep accepts self assets (pool, tokens)
        (pool.setBoxes .ERC721 c (swapRemove (pool.assetBoxes .ERC721 c) k),
          tokens'.record ⟨.withdraw, self, .ERC721, c, stored.depositer, tokenId⟩)
  | native {pool : AssetPoolV1 F} {tokens tokens' : Tokens} {stored : AssetBox}
      {boxes' : List AssetBox} {k : Nat} (box : AssetBox)
      (hmem : box ∈ assets.nativeTokenBoxes)
      (hstored : (pool.assetBoxes .NativeToken self)[k]? = some stored)
      (hkey : stored.amountOrTokenId = box.amountOrTokenId)
      (haccepts : accepts box.depositer = true ∧ tokens.refuses box.depositer = false)
      (hpay : tokens.send self box.depositer (box.amountOrTokenId * box.numberOfCards) .empty =
        .ok tokens')
      (hlower : lowerCards (pool.assetBoxes .NativeToken self) k box.numberOfCards = .ok boxes') :
      WithdrawStep accepts self assets (pool, tokens) (pool.setBoxes .NativeToken self boxes',
        tokens'.record ⟨.withdraw, self, .NativeToken, self, box.depositer,
          box.amountOrTokenId * box.numberOfCards⟩)

/-- A sequence of small steps. -/
abbrev WithdrawSteps (accepts : Address → Bool) (self : Address) (assets : Assets) :
    AssetPoolV1 F × Tokens → AssetPoolV1 F × Tokens → Prop :=
  Relation.ReflTransGen (WithdrawStep accepts self assets)

/-- An ERC721 box is one token, so it has one card. -/
def OneCardEach (pool : AssetPoolV1 F) : Prop :=
  ∀ c, ∀ b ∈ pool.assetBoxes .ERC721 c, b.numberOfCards = 1

theorem OneCardEach.withdrawStep {s s' : AssetPoolV1 F × Tokens}
    (h : WithdrawStep accepts self assets s s') (hs : OneCardEach s.1) : OneCardEach s'.1 := by
  intro c' b hb
  cases h with
  | erc20 c =>
    rw [AssetPoolV1.assetBoxes_setBoxes_of_ne (by simp)] at hb
    exact hs c' b hb
  | erc721 c tokenIds tokenId _ _ hstored =>
    obtain ⟨hk, _⟩ := List.getElem?_eq_some_iff.mp hstored
    rw [AssetPoolV1.assetBoxes_setBoxes] at hb
    split_ifs at hb with hc
    · obtain ⟨_, rfl⟩ := hc
      exact hs c' b (mem_of_mem_swapRemove hk hb)
    · exact hs c' b hb
  | native =>
    rw [AssetPoolV1.assetBoxes_setBoxes_of_ne (by simp)] at hb
    exact hs c' b hb

theorem OneCardEach.withdrawSteps {s s' : AssetPoolV1 F × Tokens}
    (h : WithdrawSteps accepts self assets s s') (hs : OneCardEach s.1) : OneCardEach s'.1 := by
  induction h with
  | refl => exact hs
  | tail _ hstep ih => exact ih.withdrawStep hstep

/-- The prizes `m` leave the pool, in small steps, and are counted. -/
structure Took (accepts : Address → Bool) (p : Address) (assets : Assets)
    (m : AssetType × Address → Multiset Nat) (s s' : Withdrawal F) : Prop where
  steps : WithdrawSteps accepts p assets (s.pool, s.tokens) (s'.pool, s'.tokens)
  stock : OneCardEach s.pool → s.pool.stock = s'.pool.stock + m
  total : s'.total = s.total + Stock.size m

namespace Took

theorem zero : Took accepts self assets 0 s s where
  steps := .refl
  stock := fun _ => (add_zero _).symm
  total := by simp [Stock.size]

theorem add {m n : AssetType × Address → Multiset Nat} {s s₁ s' : Withdrawal F}
    (hm : Took accepts self assets m s s₁) (hn : Took accepts self assets n s₁ s') :
    Took accepts self assets (m + n) s s' where
  steps := hm.steps.trans hn.steps
  stock := fun hone => by
    have hone₁ : OneCardEach s₁.pool := hone.withdrawSteps hm.steps
    rw [hm.stock hone, hn.stock hone₁, add_assoc, add_comm n]
  total := by rw [hn.total, hm.total, Stock.size_add, add_assoc]

/-- Counting from zero and adding the count afterwards makes no difference. -/
theorem subtotal {m : AssetType × Address → Multiset Nat}
    {f : Withdrawal F → Result (Withdrawal F)}
    (hf : ∀ s s', f s = .ok s' → Took accepts self assets m s s')
    (h : subtotal f s = .ok s') : Took accepts self assets m s s' := by
  unfold Redeemy.subtotal at h
  simp only [bind_eq_ok, checkedAdd_eq_ok, pure_eq_ok] at h
  obtain ⟨s₁, hs₁, _, ⟨_, rfl⟩, rfl⟩ := h
  have htook := hf _ _ hs₁
  exact ⟨htook.steps, htook.stock, by rw [htook.total]; simp⟩

theorem foldlM {α : Type} {f : Withdrawal F → α → Result (Withdrawal F)} {l : List α}
    (g : α → AssetType × Address → Multiset Nat)
    (hstep : ∀ s a s', a ∈ l → f s a = .ok s' → Took accepts self assets (g a) s s')
    (h : l.foldlM f s = .ok s') : Took accepts self assets (l.map g).sum s s' :=
  foldlM_graded g (fun _ => .zero) (fun _ _ _ _ _ => .add) hstep h

end Took

/-! ### The loops -/

theorem contents_lowerCards {boxes' : List AssetBox} {k : Nat} {stored : AssetBox}
    (h : lowerCards boxes k box.numberOfCards = .ok boxes') (hstored : boxes[k]? = some stored)
    (hkey : stored.amountOrTokenId = box.amountOrTokenId) :
    contents boxes = contents boxes' + contents [box] := by
  obtain ⟨hk, hweigh⟩ := weigh_lowerCards (g := fun _ a => ({a} : Multiset Nat)) h
  obtain ⟨_, rfl⟩ := List.getElem?_eq_some_iff.mp hstored
  rw [hkey] at hweigh
  rw [contents, hweigh]
  simp [contents, AssetBox.weight]

theorem sum_contents_singleton : (boxes.map fun b => contents [b]).sum = contents boxes := by
  simp only [contents, weigh, List.map_singleton, List.sum_singleton]

theorem size_single_box (t : AssetType) :
    Stock.size (Pi.single (t, c) (contents [box])) = box.numberOfCards := by
  rw [size_single, card_contents, cards_eq_sum, List.map_singleton, List.sum_singleton]

theorem withdrawErc20Box_took
    (hmem : (c, boxes) ∈ assets.erc20ContractAddresses.zip assets.erc20Boxes) (hbox : box ∈ boxes)
    (h : withdrawErc20Box self c s box = .ok s') :
    Took accepts self assets (Pi.single (.ERC20, c) (contents [box])) s s' := by
  unfold withdrawErc20Box findErc20AssetBox at h
  simp only [bind_eq_ok, require_eq_ok, checkedMul_eq_ok, checkedAdd_eq_ok, pure_eq_ok,
    Prod.exists] at h
  obtain ⟨_, k, hfind, _, rfl, _, ⟨_, rfl⟩, tokens', answer, hpay, boxes', hlower, _,
    ⟨_, rfl⟩, rfl⟩ := h
  obtain ⟨hk, hkey, _⟩ := findAssetBox_found hfind
  have hstored := List.getElem?_eq_getElem hk
  refine ⟨.single (.erc20 c boxes box hmem hbox hstored hkey hpay hlower), fun _ => ?_, ?_⟩
  · exact AssetPoolV1.stock_setBoxes_remove (contents_lowerCards hlower hstored hkey)
  · rw [size_single_box]

theorem withdrawErc20Assets_took
    (h : withdrawErc20Assets self assets.erc20ContractAddresses assets.erc20Boxes s = .ok s') :
    Took accepts self assets ((assets.erc20ContractAddresses.zip assets.erc20Boxes).map
      fun d => Pi.single (AssetType.ERC20, d.1) (contents d.2)).sum s s' := by
  unfold withdrawErc20Assets at h
  refine Took.foldlM _ (fun s d s' hd hstep => ?_) (foldlM_pairUp (fun s c s' hs => ?_) h)
  · unfold withdrawErc20Asset at hstep
    simp only [bind_eq_ok, element_eq_ok] at hstep
    obtain ⟨_, hsome, hstep⟩ := hstep
    cases hsome
    refine Took.subtotal (fun s s' hs => ?_) hstep
    have htook : Took accepts self assets _ s s' := Took.foldlM
      (fun box => Pi.single (.ERC20, d.1) (contents [box]))
      (fun s box s' hbox hs => withdrawErc20Box_took hd hbox hs) hs
    rwa [sum_map_single, sum_contents_singleton] at htook
  · unfold withdrawErc20Asset at hs
    simp only [bind_eq_ok, element_eq_ok] at hs
    obtain ⟨_, hnone, _⟩ := hs
    cases hnone

theorem withdrawErc721Token_took {tokenIds : List Nat} {tokenId : Nat}
    (hmem : (c, tokenIds) ∈ assets.erc721ContractAddresses.zip assets.erc721TokenIds)
    (htoken : tokenId ∈ tokenIds) (h : withdrawErc721Token self c s tokenId = .ok s') :
    Took accepts self assets (Pi.single (.ERC721, c) {tokenId}) s s' := by
  unfold withdrawErc721Token findErc721AssetBox at h
  simp only [bind_eq_ok, require_eq_ok, checkedAdd_eq_ok, pure_eq_ok, removeAssetBox_eq_ok,
    index_eq_ok, Prod.exists] at h
  obtain ⟨_, k, hfind, _, rfl, _, ⟨hk, rfl⟩, tokens', hpay, _, ⟨_, rfl⟩, _, ⟨_, rfl⟩, rfl⟩ := h
  obtain ⟨_, hkey, _⟩ := findAssetBox_found hfind
  refine ⟨.single (.erc721 c tokenIds tokenId hmem htoken (List.getElem?_eq_getElem hk) hkey hpay),
    fun hone => ?_, ?_⟩
  · refine AssetPoolV1.stock_setBoxes_remove ?_
    rw [contents, weigh_swapRemove hk, AssetBox.weight, hone c _ (List.getElem_mem hk), one_nsmul,
      hkey]
    rfl
  · rw [size_single, Multiset.card_singleton]

theorem withdrawErc721Assets_took
    (h : withdrawErc721Assets self assets.erc721ContractAddresses assets.erc721TokenIds s =
      .ok s') :
    Took accepts self assets ((assets.erc721ContractAddresses.zip assets.erc721TokenIds).map
      fun d => Pi.single (AssetType.ERC721, d.1) (d.2 : Multiset Nat)).sum s s' := by
  unfold withdrawErc721Assets at h
  refine Took.foldlM _ (fun s d s' hd hstep => ?_) (foldlM_pairUp (fun s c s' hs => ?_) h)
  · unfold withdrawErc721Asset at hstep
    simp only [bind_eq_ok, element_eq_ok] at hstep
    obtain ⟨_, hsome, hstep⟩ := hstep
    cases hsome
    refine Took.subtotal (fun s s' hs => ?_) hstep
    have htook : Took accepts self assets _ s s' := Took.foldlM
      (fun tokenId => Pi.single (AssetType.ERC721, d.1) {tokenId})
      (fun s tokenId s' htoken hs => withdrawErc721Token_took hd htoken hs) hs
    rwa [sum_map_single, sum_map_singleton] at htook
  · unfold withdrawErc721Asset at hs
    simp only [bind_eq_ok, element_eq_ok] at hs
    obtain ⟨_, hnone, _⟩ := hs
    cases hnone

theorem withdrawNativeTokenBox_took (hmem : box ∈ assets.nativeTokenBoxes)
    (h : withdrawNativeTokenBox accepts self s box = .ok s') :
    Took accepts self assets (Pi.single (.NativeToken, self) (contents [box])) s s' := by
  unfold withdrawNativeTokenBox findNativeTokenAssetBox at h
  simp only [bind_eq_ok, require_eq_ok, checkedMul_eq_ok, checkedAdd_eq_ok, pure_eq_ok,
    Prod.exists] at h
  obtain ⟨_, k, hfind, _, rfl, _, ⟨_, rfl⟩, _, haccepts, tokens', hpay, boxes', hlower, _,
    ⟨_, rfl⟩, rfl⟩ := h
  obtain ⟨hk, hkey, _⟩ := findAssetBox_found hfind
  have hstored := List.getElem?_eq_getElem hk
  refine ⟨.single (.native box hmem hstored hkey haccepts hpay hlower), fun _ => ?_, ?_⟩
  · exact AssetPoolV1.stock_setBoxes_remove (contents_lowerCards hlower hstored hkey)
  · rw [size_single_box]

theorem withdrawNativeTokenAssets_took
    (h : withdrawNativeTokenAssets accepts self assets.nativeTokenBoxes s = .ok s') :
    Took accepts self assets (Pi.single (.NativeToken, self) (contents assets.nativeTokenBoxes))
      s s' := by
  have htook := Took.foldlM (fun box => Pi.single (.NativeToken, self) (contents [box]))
    (fun s box s' hbox hs => withdrawNativeTokenBox_took hbox hs) h
  rwa [sum_map_single, sum_contents_singleton] at htook

theorem withdrawBoxes_took (h : withdrawBoxes accepts self assets s = .ok s') :
    Took accepts self assets (assets.prizes self) s s' := by
  unfold withdrawBoxes at h
  simp only [bind_eq_ok] at h
  obtain ⟨s₁, h20, s₂, h721, hnative⟩ := h
  have htook := ((Took.subtotal (fun _ _ => withdrawErc20Assets_took) h20).add
    (Took.subtotal (fun _ _ => withdrawErc721Assets_took) h721)).add
    (Took.subtotal (fun _ _ => withdrawNativeTokenAssets_took) hnative)
  rwa [add_right_comm] at htook

/-! ### The call -/

variable [EnumerableSet F]

/-- Everything a successful `withdrawAssets` does. -/
inductive Withdraw (w : World F) (self sender : Address) (assets : Assets) : World F → Prop where
  | mk {pool : AssetPoolV1 F} {rp : RewardPoolV1 F} {s : Withdrawal F} {tokens : Tokens}
      (hpool : w.assetPools self = some pool)
      (hrp : w.rewardPools pool.rewardPool = some rp)
      (howner : sender = rp.owner)
      (hsteps : WithdrawSteps w.accepts self assets (pool, w.tokens) (s.pool, s.tokens))
      (hstock : OneCardEach pool → pool.stock = s.pool.stock + assets.prizes self)
      (htotal : s.total = Stock.size (assets.prizes self))
      (hfree : s.total ≤ s.pool.totalNumberOfAssets)
      (hmint : burnRedeemTokens w.rewardPools self rp
        { s.pool with totalNumberOfAssets := s.pool.totalNumberOfAssets - s.total }
        s.tokens s.total = .ok tokens) :
      Withdraw w self sender assets { w.setPool self
        { s.pool with totalNumberOfAssets := s.pool.totalNumberOfAssets - s.total } with tokens }

theorem withdrawAssets_eq_ok (h : w.withdrawAssets self sender assets = .ok w') :
    Withdraw w self sender assets w' := by
  unfold World.withdrawAssets at h
  simp only [bind_eq_ok, require_eq_ok, checkedSub_eq_ok, pure_eq_ok, World.assetPool_eq_ok,
    World.rewardPool_eq_ok] at h
  obtain ⟨pool, hpool, rp, hrp, _, howner, s, hs, _, ⟨hfree, rfl⟩, tokens, hmint, rfl⟩ := h
  have htook := withdrawBoxes_took hs
  exact .mk hpool hrp howner htook.steps htook.stock
    (by rw [htook.total, Nat.zero_add]) hfree hmint

end Redeemy
