import Mathlib.Algebra.Group.Pi.Lemmas
import Mathlib.Logic.Relation
import Redeemy.Model.System
import Redeemy.Proof.Pool

/-!
# What a deposit does

A deposit is a sequence of small steps, each of which pulls tokens in and stores boxes for them, with
the native boxes in the middle. `Deposit` says everything a successful `depositAssets` does, so that
no later proof looks into its loops.
-/

namespace Redeemy

open Fallible EnumerableSet

variable {F : Type → Type}
variable {w w' : World F} {pool pool' : AssetPoolV1 F} {tokens tokens' : Tokens}
variable {self admin sender c : Address} {boxes : List AssetBox} {assets : Assets}

/-! ### Counting and pricing -/

theorem worth_eq_sum :
    worth boxes = (boxes.map fun b => b.amountOrTokenId * b.numberOfCards).sum := by
  have hweight : AssetBox.weight (fun _ a => a) =
      fun b : AssetBox => b.amountOrTokenId * b.numberOfCards := by
    funext b
    simp [AssetBox.weight, mul_comm]
  rw [worth, weigh, hweight]

theorem getNativeTokenAmount_eq_ok {amount : Nat} (h : getNativeTokenAmount boxes = .ok amount) :
    amount = worth boxes := by
  rw [worth_eq_sum, ← Nat.zero_add (List.sum _)]
  refine foldlM_measure id _ (fun total box total' _ hstep => ?_) h
  simp only [bind_eq_ok, checkedMul_eq_ok, checkedAdd_eq_ok] at hstep
  obtain ⟨_, ⟨_, rfl⟩, _, rfl⟩ := hstep
  rfl

/-- The amounts pair up with the lists they are the worth of. -/
theorem getERC20Amounts_eq_ok {amounts : List (Address × Nat)}
    (h : getERC20Amounts assets = .ok amounts) :
    pairUp amounts assets.erc20Boxes =
      (assets.erc20ContractAddresses.zip assets.erc20Boxes).map
        fun d => ((d.1, worth d.2), some d.2) := by
  unfold getERC20Amounts at h
  generalize assets.erc20ContractAddresses = contracts at h ⊢
  generalize assets.erc20Boxes = lists at h ⊢
  induction contracts generalizing lists amounts with
  | nil =>
    rw [pairUp, List.mapM_nil, pure_eq_ok] at h
    rw [← h]
    rfl
  | cons c contracts ih =>
    cases lists with
    | nil =>
      simp only [pairUp, List.mapM_cons, bind_eq_ok, element_eq_ok] at h
      obtain ⟨_, ⟨_, h, _⟩, _⟩ := h
      cases h
    | cons boxes lists =>
      simp only [pairUp, List.mapM_cons, bind_eq_ok, element_eq_ok, pure_eq_ok] at h
      obtain ⟨_, ⟨_, hsome, amount, hamount, rfl⟩, rest, hrest, rfl⟩ := h
      cases hsome
      rw [pairUp, ih lists hrest, List.zip_cons_cons, List.map_cons,
        getNativeTokenAmount_eq_ok hamount]

/-- The prizes that the arguments of a deposit or a withdrawal name, by asset type and contract. -/
def Assets.prizes (self : Address) (assets : Assets) : AssetType × Address → Multiset Nat :=
  ((assets.erc20ContractAddresses.zip assets.erc20Boxes).map
      fun d => Pi.single (AssetType.ERC20, d.1) (contents d.2)).sum +
    Pi.single (.NativeToken, self) (contents assets.nativeTokenBoxes) +
    ((assets.erc721ContractAddresses.zip assets.erc721TokenIds).map
      fun d => Pi.single (AssetType.ERC721, d.1) (d.2 : Multiset Nat)).sum

/-- One list of boxes for each ERC20 contract. -/
def Assets.Matched (assets : Assets) : Prop :=
  assets.erc20ContractAddresses.length = assets.erc20Boxes.length

instance (assets : Assets) : Decidable assets.Matched :=
  inferInstanceAs (Decidable (_ = _))

theorem size_list_sum (l : List (AssetType × Address → Multiset Nat)) :
    Stock.size l.sum = (l.map Stock.size).sum := by
  induction l with
  | nil => simp [Stock.size]
  | cons m l ih => rw [List.sum_cons, Stock.size_add, ih, List.map_cons, List.sum_cons]

/-- The sum over the second of two arrays, read along the first. -/
theorem sum_map_zip {α : Type} (f : α → Nat) {as : List Address} {bs : List α}
    (h : as.length = bs.length) : ((as.zip bs).map fun d => f d.2).sum = (bs.map f).sum := by
  have hsnd : (as.zip bs).map Prod.snd = bs := List.map_snd_zip h.ge
  conv_rhs => rw [← hsnd, List.map_map]
  rfl

/-- The number of cards that the arguments of a deposit or a withdrawal name. -/
def Assets.numberOfCards (assets : Assets) : Nat :=
  ((assets.erc20ContractAddresses.zip assets.erc20Boxes).map fun d => cards d.2).sum +
    cards assets.nativeTokenBoxes +
    ((assets.erc721ContractAddresses.zip assets.erc721TokenIds).map fun d => d.2.length).sum

theorem size_prizes : Stock.size (assets.prizes self) = assets.numberOfCards := by
  rw [Assets.prizes, Stock.size_add, Stock.size_add, size_list_sum, size_list_sum, size_single,
    card_contents, List.map_map, List.map_map]
  simp only [Function.comp_def, size_single, card_contents, Multiset.coe_card]
  rfl

theorem numberOfCards_of_matched (hmatched : assets.Matched)
    (h721 : assets.erc721ContractAddresses.length = assets.erc721TokenIds.length) :
    assets.numberOfCards = (assets.erc20Boxes.map cards).sum + cards assets.nativeTokenBoxes +
      (assets.erc721TokenIds.map List.length).sum := by
  rw [Assets.numberOfCards, sum_map_zip cards hmatched, sum_map_zip List.length h721]

theorem calculateNumberOfAssets_eq_ok {n : Nat} (h : calculateNumberOfAssets assets = .ok n) :
    n = (assets.erc20Boxes.map cards).sum + cards assets.nativeTokenBoxes +
      (assets.erc721TokenIds.map List.length).sum := by
  unfold calculateNumberOfAssets at h
  simp only [bind_eq_ok, foldlM_checkedAdd_eq_ok, ← cards_eq_sum] at h
  obtain ⟨n₁, h₁, n₂, ⟨rfl, _⟩, rfl, _⟩ := h
  have hsum := foldlM_measure id cards (fun n boxes n' _ hstep => by
    rw [foldlM_checkedAdd_eq_ok, ← cards_eq_sum] at hstep
    exact hstep.1) h₁
  rw [id, id, Nat.zero_add] at hsum
  rw [hsum]

/-! ### Storing boxes -/

/-- What `storeBoxes` writes for `box`. -/
def AssetBox.of (admin : Address) (t : AssetType) (box : AssetBox) : AssetBox :=
  { box with depositer := admin, assetType := t }

theorem storeBoxes_eq_ok {t : AssetType}
    (h : storeBoxes admin pool t c boxes = .ok pool') :
    ∃ stored, boxes.foldlM (fun stored box => updateOrAddBox stored (box.of admin t))
      (pool.assetBoxes t c) = .ok stored ∧ pool' = pool.setBoxes t c stored := by
  unfold storeBoxes at h
  simp only [bind_eq_ok, pure_eq_ok] at h
  obtain ⟨stored, hstored, rfl⟩ := h
  exact ⟨stored, hstored, rfl⟩

/-- Storing boxes adds their weight, for a weight that does not look at the depositer. -/
theorem weigh_storeBoxes {M : Type} [AddCancelCommMonoid M] (g : Nat → M) {t : AssetType}
    (h : storeBoxes admin pool t c boxes = .ok pool') :
    weigh (fun _ => g) (pool'.assetBoxes t c) =
      weigh (fun _ => g) (pool.assetBoxes t c) + weigh (fun _ => g) boxes := by
  obtain ⟨stored, hstored, rfl⟩ := storeBoxes_eq_ok h
  rw [AssetPoolV1.assetBoxes_setBoxes_self]
  refine foldlM_measure (weigh fun _ => g) (AssetBox.weight fun _ => g) ?_ hstored
  intro l box l' _ hstep
  rw [weigh_updateOrAddBox (fun b _ hkey => by rw [hkey, AssetBox.weight]) hstep]
  rfl

theorem stock_storeBoxes {t : AssetType} (h : storeBoxes admin pool t c boxes = .ok pool') :
    pool'.stock = pool.stock + Pi.single (t, c) (contents boxes) := by
  have hweigh := weigh_storeBoxes (fun a => ({a} : Multiset Nat)) h
  obtain ⟨stored, hstored, rfl⟩ := storeBoxes_eq_ok h
  rw [AssetPoolV1.assetBoxes_setBoxes_self] at hweigh
  exact AssetPoolV1.stock_setBoxes_add hweigh

variable [EnumerableSet F]

@[simp] theorem stock_addContract {t : AssetType} :
    (pool.addContract t c).stock = pool.stock := by
  funext k
  simp [AssetPoolV1.stock]

/-! ### Small steps -/

/-- One ERC20 contract, the registration of one ERC721 contract, or one ERC721 token of a deposit. -/
inductive DepositStep (self admin : Address) (assets : Assets) :
    AssetPoolV1 F × Tokens → AssetPoolV1 F × Tokens → Prop where
  | erc20 {pool pool' : AssetPoolV1 F} {tokens tokens' : Tokens} {answer : ERC20Answer}
      (c : Address) (boxes : List AssetBox)
      (hmem : (c, boxes) ∈ assets.erc20ContractAddresses.zip assets.erc20Boxes)
      (hpull : tokens.erc20TransferFrom c self admin self (worth boxes) = .ok (tokens', answer))
      (hstore : storeBoxes admin (pool.addContract .ERC20 c) .ERC20 c boxes = .ok pool') :
      DepositStep self admin assets (pool, tokens)
        (pool', tokens'.recordIf answer.moves ⟨.deposit, self, .ERC20, c, admin, worth boxes⟩)
  | erc721Contract {pool : AssetPoolV1 F} {tokens : Tokens} (c : Address) (tokenIds : List Nat)
      (hmem : (c, tokenIds) ∈ assets.erc721ContractAddresses.zip assets.erc721TokenIds) :
      DepositStep self admin assets (pool, tokens) (pool.addContract .ERC721 c, tokens)
  | erc721Token {pool : AssetPoolV1 F} {tokens tokens' : Tokens} (c : Address) (tokenId : Nat)
      (hlisted : c ∈ values (pool.contractAddresses .ERC721))
      (hpull : tokens.erc721TransferFrom c self admin self tokenId = .ok tokens') :
      DepositStep self admin assets (pool, tokens)
        (pool.setBoxes .ERC721 c (pool.assetBoxes .ERC721 c ++ [⟨admin, .ERC721, 1, tokenId⟩]),
          tokens'.record ⟨.deposit, self, .ERC721, c, admin, tokenId⟩)

/-- A sequence of small steps. -/
abbrev DepositSteps (self admin : Address) (assets : Assets) :
    AssetPoolV1 F × Tokens → AssetPoolV1 F × Tokens → Prop :=
  Relation.ReflTransGen (DepositStep self admin assets)

variable {s s' : AssetPoolV1 F × Tokens}

theorem handleErc20TokenDeposit_eq_ok {amount : Nat}
    (h : handleErc20TokenDeposit self admin s ((c, amount), some boxes) = .ok s') :
    ∃ tokens' answer, s.2.erc20TransferFrom c self admin self amount = .ok (tokens', answer) ∧
      storeBoxes admin (s.1.addContract .ERC20 c) .ERC20 c boxes = .ok s'.1 ∧
      s'.2 = tokens'.recordIf answer.moves ⟨.deposit, self, .ERC20, c, admin, amount⟩ := by
  unfold handleErc20TokenDeposit at h
  simp only [bind_eq_ok, require_eq_ok, pure_eq_ok, element_eq_ok, Prod.exists] at h
  obtain ⟨_, _, _, _, tokens', answer, hpull, _, _, _, hsome, pool', hstore, rfl⟩ := h
  cases hsome
  exact ⟨tokens', answer, hpull, hstore, rfl⟩

theorem handleErc20TokenDeposits_steps {amounts : List (Address × Nat)}
    (hamounts : getERC20Amounts assets = .ok amounts)
    (h : handleErc20TokenDeposits self admin s amounts assets.erc20Boxes = .ok s') :
    DepositSteps self admin assets s s' ∧ s'.1.stock = s.1.stock +
      ((assets.erc20ContractAddresses.zip assets.erc20Boxes).map
        fun d => Pi.single (AssetType.ERC20, d.1) (contents d.2)).sum := by
  rw [handleErc20TokenDeposits, getERC20Amounts_eq_ok hamounts, List.foldlM_map] at h
  constructor
  · refine foldlM_rel (fun _ => .refl) (fun _ _ _ => .trans) (fun s d s' hd hstep => ?_) h
    obtain ⟨tokens', answer, hpull, hstore, htokens⟩ := handleErc20TokenDeposit_eq_ok hstep
    obtain ⟨pool', t'⟩ := s'
    subst htokens
    exact .single (.erc20 d.1 d.2 hd hpull hstore)
  · refine foldlM_measure (fun s : AssetPoolV1 F × Tokens => s.1.stock) _
      (fun s d s' _ hstep => ?_) h
    obtain ⟨_, _, _, hstore, _⟩ := handleErc20TokenDeposit_eq_ok hstep
    rw [stock_storeBoxes hstore, stock_addContract]

omit [EnumerableSet F] in
theorem depositERC721Token_eq_ok {tokenId : Nat}
    (h : depositERC721Token self admin c s tokenId = .ok s') :
    ∃ tokens', s.2.erc721TransferFrom c self admin self tokenId = .ok tokens' ∧
      s' = (s.1.setBoxes .ERC721 c (s.1.assetBoxes .ERC721 c ++ [⟨admin, .ERC721, 1, tokenId⟩]),
        tokens'.record ⟨.deposit, self, .ERC721, c, admin, tokenId⟩) := by
  unfold depositERC721Token at h
  simp only [bind_eq_ok, pure_eq_ok] at h
  obtain ⟨tokens', hpull, rfl⟩ := h
  exact ⟨tokens', hpull, rfl⟩

omit [EnumerableSet F] in
theorem stock_push {tokenId : Nat} :
    (pool.setBoxes .ERC721 c
        (pool.assetBoxes .ERC721 c ++ [⟨admin, .ERC721, 1, tokenId⟩])).stock =
      pool.stock + Pi.single (.ERC721, c) {tokenId} := by
  refine AssetPoolV1.stock_setBoxes_add ?_
  rw [contents, weigh_append, weigh_cons, weigh_nil, AssetBox.weight, one_nsmul, add_zero]
  rfl

theorem depositERC721Asset_eq_ok {tokenIds : List Nat}
    (h : depositERC721Asset self admin s (c, some tokenIds) = .ok s') :
    tokenIds.foldlM (depositERC721Token self admin c) (s.1.addContract .ERC721 c, s.2) =
      .ok s' := by
  unfold depositERC721Asset at h
  simp only [bind_eq_ok, require_eq_ok, element_eq_ok] at h
  obtain ⟨_, _, _, _, _, hsome, h⟩ := h
  cases hsome
  exact h

theorem sum_map_single {α : Type} (k : AssetType × Address) (f : α → Multiset Nat) (l : List α) :
    (l.map fun a => (Pi.single k (f a) : AssetType × Address → Multiset Nat)).sum =
      Pi.single k (l.map f).sum := by
  induction l with
  | nil => simp
  | cons a l ih =>
    rw [List.map_cons, List.sum_cons, ih, ← Pi.single_add, List.map_cons, List.sum_cons]

theorem sum_map_singleton (l : List Nat) : (l.map fun a => ({a} : Multiset Nat)).sum = l := by
  induction l with
  | nil => rfl
  | cons a l ih => rw [List.map_cons, List.sum_cons, ih, Multiset.singleton_add, Multiset.cons_coe]

theorem depositERC721Assets_steps
    (h : depositERC721Assets self admin s assets.erc721ContractAddresses assets.erc721TokenIds =
      .ok s') :
    assets.erc721ContractAddresses.length = assets.erc721TokenIds.length ∧
      DepositSteps self admin assets s s' ∧ s'.1.stock = s.1.stock +
        ((assets.erc721ContractAddresses.zip assets.erc721TokenIds).map
          fun d => Pi.single (AssetType.ERC721, d.1) (d.2 : Multiset Nat)).sum := by
  unfold depositERC721Assets at h
  simp only [bind_eq_ok, require_eq_ok] at h
  obtain ⟨_, hlen, h⟩ := h
  replace h := foldlM_pairUp (fun s c s' hs => by
    unfold depositERC721Asset at hs
    simp only [bind_eq_ok, element_eq_ok] at hs
    obtain ⟨_, _, _, _, _, hnone, _⟩ := hs
    cases hnone) h
  refine ⟨hlen, ?_, ?_⟩
  · refine foldlM_rel (fun _ => .refl) (fun _ _ _ => .trans) (fun s d s' hd hstep => ?_) h
    replace hstep := depositERC721Asset_eq_ok hstep
    -- the contract stays listed while its tokens come in
    have hlisted : d.1 ∈ values (s'.1.contractAddresses .ERC721) ∧
        DepositSteps self admin assets (s.1.addContract .ERC721 d.1, s.2) s' := by
      refine foldlM_invariant (P := fun s' => d.1 ∈ values (s'.1.contractAddresses .ERC721) ∧
        DepositSteps self admin assets (s.1.addContract .ERC721 d.1, s.2) s')
        (fun s₁ tokenId s₂ _ hs₁ hstep => ?_) ⟨?_, .refl⟩ hstep
      · obtain ⟨tokens', hpull, rfl⟩ := depositERC721Token_eq_ok hstep
        exact ⟨hs₁.1, hs₁.2.tail (.erc721Token d.1 tokenId hs₁.1 hpull)⟩
      · exact AssetPoolV1.mem_contractAddresses_addContract.mpr (.inl ⟨rfl, rfl⟩)
    exact .head (.erc721Contract d.1 d.2 hd) hlisted.2
  · refine foldlM_measure (fun s : AssetPoolV1 F × Tokens => s.1.stock) _
      (fun s d s' _ hstep => ?_) h
    have hsum := foldlM_measure (fun s : AssetPoolV1 F × Tokens => s.1.stock)
      (fun tokenId => Pi.single (AssetType.ERC721, d.1) {tokenId})
      (fun s₁ tokenId s₂ _ hstep => by
        obtain ⟨_, _, rfl⟩ := depositERC721Token_eq_ok hstep
        exact stock_push) (depositERC721Asset_eq_ok hstep)
    rw [hsum, sum_map_single, sum_map_singleton, stock_addContract]

/-! ### The call -/

/-- Everything a successful `depositAssets` does. -/
inductive Deposit (w : World F) (self sender : Address) (value : Nat) (assets : Assets) :
    World F → Prop where
  | mk {pool pool₁ pool₂ pool₃ : AssetPoolV1 F} {rp : RewardPoolV1 F} {n : Nat}
      {tokens tokens₁ tokens₂ tokens₃ tokens₄ : Tokens}
      (hpool : w.assetPools self = some pool)
      (hrp : w.rewardPools pool.rewardPool = some rp)
      (hadmin : rp.isAdmin sender)
      (hsend : w.tokens.send sender self value .empty = .ok tokens)
      (hcount : calculateNumberOfAssets assets = .ok n) (hpos : 1 ≤ n)
      (hfits : pool.totalNumberOfAssets + n < UINT256_SIZE)
      (hvalue : value = worth assets.nativeTokenBoxes)
      (h20 : DepositSteps self sender assets
        ({ pool with totalNumberOfAssets := pool.totalNumberOfAssets + n }, tokens)
        (pool₁, tokens₁))
      (hnative : storeBoxes sender (pool₁.addContract .NativeToken self) .NativeToken self
        assets.nativeTokenBoxes = .ok pool₂)
      (hself : tokens₁.send self self value (.message "AssetPoolV1: transfer failed") = .ok tokens₂)
      (h721 : DepositSteps self sender assets
        (pool₂, tokens₂.record ⟨.deposit, self, .NativeToken, self, sender, value⟩)
        (pool₃, tokens₃))
      (hlen : assets.erc721ContractAddresses.length = assets.erc721TokenIds.length)
      (hstock : pool₃.stock = pool.stock + assets.prizes self)
      (hmint : mintRedeemTokens w.rewardPools self rp pool₃ tokens₃ n = .ok tokens₄) :
      Deposit w self sender value assets { w.setPool self pool₃ with tokens := tokens₄ }

theorem depositAssets_eq_ok {value : Nat}
    (h : w.depositAssets self sender value assets = .ok w') :
    Deposit w self sender value assets w' := by
  unfold World.depositAssets at h
  simp only [bind_eq_ok, require_eq_ok, checkedAdd_eq_ok, pure_eq_ok, World.assetPool_eq_ok,
    World.rewardPool_eq_ok] at h
  obtain ⟨tokens, hsend, pool, hpool, rp, hrp, _, hadmin, n, hcount, _, hpos, _, ⟨hfits, rfl⟩,
    amount, hamount, _, hvalue, amounts, hamounts, s₁, h20, s₂, hnative, s₃, h721, tokens₄, hmint,
    rfl⟩ := h
  obtain ⟨hsteps, hstock₁⟩ := handleErc20TokenDeposits_steps hamounts h20
  unfold handleNativeTokenDeposits at hnative
  simp only [bind_eq_ok, pure_eq_ok] at hnative
  obtain ⟨pool₂, hnative, tokens₂, hself, rfl⟩ := hnative
  obtain ⟨hlen, hsteps', hstock₃⟩ := depositERC721Assets_steps h721
  refine .mk hpool hrp hadmin hsend hcount hpos hfits
    (hvalue.trans (getNativeTokenAmount_eq_ok hamount)) hsteps hnative hself hsteps' hlen ?_ hmint
  rw [hstock₃, stock_storeBoxes hnative, stock_addContract, hstock₁, Assets.prizes, ← add_assoc,
    ← add_assoc]
  rfl

end Redeemy
