import Redeemy.Lib.BigEndian
import Redeemy.Proof.Holdings
import Redeemy.Proof.Paymasters

/-!
# Balances and prices

Whether a user can pay for `n` cards is asked at three places. `redeemAsset` compares the balance of the
redeem token with the price of `n` cards, `getRedeemTokenBalanceOf` counts the balance in cards unless
the redeem token is an ERC1155, and the paymaster reads the number of cards from the data of a request.
-/

namespace Redeemy

open Fallible EnumerableSet

variable {F : Type → Type} [EnumerableSet F]
variable {w w' : World F} {pool pool' : AssetPoolV1 F} {rp : RewardPoolV1 F}
variable {p q user : Address} {n m : Nat} {tokens : Tokens} {sink : Option Address}
variable {P : World F → Call → Prop} {cfg : CallStack.Config (World F) Call}

/-! ### Cards cost something -/

theorem priced_rule : Rule P (Sane : World F → Prop)
    (OnPool p fun pool => 0 < pool.redeemTokenAmount) where
  initial := fun w => onPool_initial
  quiet := fun w w' _ hI hquiet => hI.quiet hquiet fun _ _ _ _ hprice => hprice
  change := by
    intro w call w' _ hI _ _ hchange pool' hpool'
    -- only `setRedeemTokenAmount` writes another price
    cases hchange with
    | setPrice self redeemTokenAmount _ hself hpos => exact hI.of_setPool hpool' hself fun _ => hpos
    | handOut => exact hI pool' hpool'
    | deposit self value assets _ hdeposit =>
      cases hdeposit with
      | mk hself _ _ _ _ _ _ _ h20 hnative _ h721 =>
        have hterms := h20.sameTerms.trans ((sameTerms_storeBoxes hnative).trans h721.sameTerms)
        refine hI.of_setPool hpool' hself fun hpos => ?_
        rw [hterms.redeemTokenAmount]
        exact hpos
    | withdraw self assets _ hwithdraw =>
      cases hwithdraw with
      | mk hself _ _ hsteps =>
        refine hI.of_setPool hpool' hself fun hpos => ?_
        show 0 < AssetPoolV1.redeemTokenAmount _
        rw [hsteps.sameTerms.redeemTokenAmount]
        exact hpos
    | redeem self trailing n requestIds _ _ hredeem =>
      cases hredeem with
      | mk hself _ _ _ _ _ _ _ hrequests =>
        obtain ⟨_, _, _, rfl⟩ := hrequests.frame
        exact hI.of_setPool hpool' hself id
    | fulfill k requestId words _ hfulfill =>
      cases hfulfill with
      | mk _ _ _ hself _ _ hdraw =>
        refine hI.of_setPool hpool' hself fun hpos => ?_
        rw [(drawCard_eq_ok hdraw).redeemTokenAmount_eq]
        exact hpos
  forget := fun w requestId k _ hI => hI

theorem kept_priced : Kept P fun w : World F =>
    Sane w ∧ OnPool p (fun pool => 0 < pool.redeemTokenAmount) w :=
  kept_sane.rule (fun _ => id) priced_rule

/-! ### What `redeemAsset` checks -/

/-- The balance of the redeem token, as `redeemAsset` asks for it, if there is a contract to ask. -/
def World.redeemTokenBalance (w : World F) (rp : RewardPoolV1 F) (id : Nat) (user : Address) :
    Option Nat :=
  if rp.redeemMethod = .CustomERC1155 then
    (w.tokens.erc1155 rp.redeemTokenContractAddress).map fun tok => tok.balances id user
  else (w.tokens.erc20 rp.redeemTokenContractAddress).map fun tok => tok.balanceOf user

/-- The balance of the user covers the price of `n` cards. -/
def CanPay (w : World F) (rp : RewardPoolV1 F) (pool : AssetPoolV1 F) (user : Address) (n : Nat) :
    Prop :=
  ∃ balance, w.redeemTokenBalance rp pool.id user = some balance ∧
    n * pool.redeemTokenAmount ≤ balance

theorem takePayment_canPay
    (h : w.takePayment p rp pool user (pool.redeemTokenAmount * n) = .ok (tokens, sink)) :
    CanPay w rp pool user n := by
  unfold World.takePayment at h
  unfold CanPay World.redeemTokenBalance
  rw [Nat.mul_comm]
  cases hm : rp.redeemMethod with
  | CustomERC1155 =>
    rw [hm] at h
    simp only [bind_eq_ok, require_eq_ok, Tokens.erc1155Contract_eq_ok] at h
    obtain ⟨tok, htok, _, hbalance, _⟩ := h
    exact ⟨tok.balances pool.id user, by rw [if_pos rfl, htok, Option.map_some], hbalance⟩
  | _ =>
    rw [hm] at h
    simp only [bind_eq_ok, require_eq_ok, Tokens.erc20Contract_eq_ok] at h
    obtain ⟨tok, htok, _, hbalance, _⟩ := h
    refine ⟨tok.balanceOf user, ?_, hbalance⟩
    rw [if_neg (RedeemMethod.noConfusion ·), htok, Option.map_some]

theorem takePayment_insufficient {balance : Nat}
    (hbalance : w.redeemTokenBalance rp pool.id user = some balance)
    (hlt : balance < n * pool.redeemTokenAmount) :
    w.takePayment p rp pool user (pool.redeemTokenAmount * n) = .error .InsufficientBalance := by
  unfold World.redeemTokenBalance at hbalance
  unfold World.takePayment
  rw [Nat.mul_comm] at hlt
  cases hm : rp.redeemMethod with
  | CustomERC1155 =>
    rw [hm, if_pos rfl] at hbalance
    obtain ⟨tok, htok, rfl⟩ := Option.map_eq_some_iff.mp hbalance
    dsimp only
    rw [Tokens.erc1155Contract_eq_ok.mpr htok, ok_bind, require, if_neg (Nat.not_le.mpr hlt)]
    rfl
  | _ =>
    rw [hm, if_neg (RedeemMethod.noConfusion ·)] at hbalance
    obtain ⟨tok, htok, rfl⟩ := Option.map_eq_some_iff.mp hbalance
    dsimp only
    rw [Tokens.erc20Contract_eq_ok.mpr htok, ok_bind, require, if_neg (Nat.not_le.mpr hlt)]
    rfl

/-- The stock and the balance that `redeemAsset` asks for are there. -/
def Redeemable (w : World F) (rp : RewardPoolV1 F) (pool : AssetPoolV1 F) (user : Address) (n : Nat) :
    Prop :=
  n ≤ pool.totalNumberOfAssets ∧ CanPay w rp pool user n

/-- Only what is redeemable is redeemed. -/
theorem redeemable_of_redeemAsset {sender trailing : Address} {requestIds : List Nat}
    (hpool : w.assetPools p = some pool) (hrp : w.rewardPools pool.rewardPool = some rp)
    (h : w.redeemAsset p sender trailing n requestIds = .ok w') :
    Redeemable w rp pool (World.msgSender pool sender trailing) n := by
  simp only [World.redeemAsset, World.redeemPaid, bind_eq_ok, require_eq_ok, checkedMul_eq_ok,
    World.assetPool_eq_ok, World.rewardPool_eq_ok, hpool, Option.some.injEq, exists_eq_left', hrp,
    Prod.exists] at h
  obtain ⟨_, _, ⟨_, _, _, _, _, _, _, hstock, _, ⟨_, rfl⟩, _, _, hpay, _⟩, _⟩ := h
  exact ⟨hstock, takePayment_canPay hpay⟩

/-! ### What the reward pool answers -/

/-- What a contract answers that is the asset pool `pool`. -/
def AssetPoolV1.target (pool : AssetPoolV1 F) : Target :=
  ⟨some pool.rewardPool, some pool.id, fun _ => some pool.redeemTokenAmount,
    some pool.totalNumberOfAssets⟩

omit [EnumerableSet F] in
/-- The getter counts in cards, except for an ERC1155. -/
theorem getRedeemTokenBalanceOf_target {quote : Nat} (hrp : w.rewardPools pool.rewardPool = some rp)
    (hprice : 0 < pool.redeemTokenAmount) :
    w.getRedeemTokenBalanceOf pool.rewardPool user pool.target = .ok quote ↔
      ∃ balance, w.redeemTokenBalance rp pool.id user = some balance ∧
        if rp.redeemMethod = .CustomERC1155 then user ≠ 0 ∧ quote = balance
        else quote = balance / pool.redeemTokenAmount := by
  unfold World.getRedeemTokenBalanceOf World.redeemTokenBalance
  rw [World.rewardPool_eq_ok.mpr hrp, ok_bind]
  split_ifs
  · simp only [AssetPoolV1.target, bind_eq_ok, orThrow_eq_ok, require_eq_ok, pure_eq_ok,
      Tokens.erc1155Contract_eq_ok, Option.map_eq_some_iff, Option.some.injEq]
    constructor
    · rintro ⟨_, rfl, tok, htok, _, huser, rfl⟩
      exact ⟨_, ⟨tok, htok, rfl⟩, huser, rfl⟩
    · rintro ⟨_, ⟨tok, htok, rfl⟩, huser, rfl⟩
      exact ⟨_, rfl, tok, htok, (), huser, rfl⟩
  · simp only [AssetPoolV1.target, bind_eq_ok, orThrow_eq_ok, Tokens.erc20Contract_eq_ok,
      Option.map_eq_some_iff, Option.some.injEq, exists_eq_left', checkedDiv,
      if_neg hprice.ne', Except.ok.injEq]
    constructor
    · rintro ⟨tok, htok, rfl⟩
      exact ⟨_, ⟨tok, htok, rfl⟩, rfl⟩
    · rintro ⟨_, ⟨tok, htok, rfl⟩, rfl⟩
      exact ⟨tok, htok, rfl⟩

/-- The getter answers, and its answer is at least `n` if and only if the balance of the user covers
`n` cards. -/
def QuotesRightly (w : World F) (rp : RewardPoolV1 F) (pool : AssetPoolV1 F) (user : Address)
    (n : Nat) : Prop :=
  ∃ quote, w.getRedeemTokenBalanceOf pool.rewardPool user pool.target = .ok quote ∧
    (n ≤ quote ↔ CanPay w rp pool user n)

omit [EnumerableSet F] in
theorem canPay_iff {balance : Nat} (h : w.redeemTokenBalance rp pool.id user = some balance) :
    CanPay w rp pool user n ↔ n * pool.redeemTokenAmount ≤ balance := by
  unfold CanPay
  simp only [h, Option.some.injEq, exists_eq_left']

/-- The getter agrees with `redeemAsset` if there is a redeem token to ask and, where it is an ERC1155,
the balance is not between `n` and the price of `n` cards. -/
theorem quotesRightly_iff (h : World.Run P cfg) (hpool : cfg.state.assetPools p = some pool)
    (hrp : cfg.state.rewardPools pool.rewardPool = some rp) :
    QuotesRightly cfg.state rp pool user n ↔
      ∃ balance, cfg.state.redeemTokenBalance rp pool.id user = some balance ∧
        (rp.redeemMethod = .CustomERC1155 →
          user ≠ 0 ∧ ¬(n ≤ balance ∧ balance < n * pool.redeemTokenAmount)) := by
  have hprice : 0 < pool.redeemTokenAmount := (kept_priced.run h).2 pool hpool
  have hle : n ≤ n * pool.redeemTokenAmount := Nat.le_mul_of_pos_right n hprice
  unfold QuotesRightly
  simp only [getRedeemTokenBalanceOf_target hrp hprice]
  constructor
  · rintro ⟨quote, ⟨balance, hbalance, hquote⟩, hagrees⟩
    refine ⟨balance, hbalance, fun hm => ?_⟩
    rw [if_pos hm] at hquote
    obtain ⟨huser, rfl⟩ := hquote
    rw [canPay_iff hbalance] at hagrees
    exact ⟨huser, fun hbetween => Nat.not_le.mpr hbetween.2 (hagrees.mp hbetween.1)⟩
  · rintro ⟨balance, hbalance, hexact⟩
    by_cases hm : rp.redeemMethod = .CustomERC1155
    · obtain ⟨huser, hbetween⟩ := hexact hm
      refine ⟨balance, ⟨balance, hbalance, ?_⟩, ?_⟩
      · rw [if_pos hm]
        exact ⟨huser, rfl⟩
      · rw [canPay_iff hbalance]
        omega
    · refine ⟨balance / pool.redeemTokenAmount, ⟨balance, hbalance, if_neg hm ▸ rfl⟩, ?_⟩
      rw [canPay_iff hbalance]
      exact Nat.le_div_iff_mul_le hprice

/-- One card at a price of 5 is in the pool at 1004, the account 5 has five redeem tokens and a paymaster
at 1005. -/
def funded (redeemMethod : RedeemMethod) : CallStack.Config (World ListSet) Call :=
  World.after (fun _ _ => True) [
    World.opening redeemMethod,
    World.poolCall 1 (.depositAssets 3 (World.nativeBoxes [⟨1, .NativeToken, 1, 3⟩])),
    World.poolCall 1 (.transferRedeemTokenNumber 5 1),
    .call ⟨5, .registry (.createPaymaster 1005)⟩]

theorem exists_funded (redeemMethod : RedeemMethod) (hcustom : redeemMethod ≠ .ExistingERC20) :
    ∃ pool rp, (funded redeemMethod).state.assetPools 1004 = some pool ∧
      (funded redeemMethod).state.rewardPools pool.rewardPool = some rp ∧
      pool.redeemTokenAmount = 5 ∧ pool.totalNumberOfAssets = 1 ∧ rp.redeemMethod = redeemMethod ∧
      (funded redeemMethod).state.redeemTokenBalance rp pool.id 5 = some 5 ∧
      (funded redeemMethod).state.registry.rewardPoolToOwner pool.rewardPool ≠ 0 := by
  have hstate : ((funded redeemMethod).state.assetPools 1004).map (fun pool =>
      (pool.rewardPool, pool.id, pool.redeemTokenAmount, pool.totalNumberOfAssets)) =
        some (1002, 1, 5, 1) ∧
      ((funded redeemMethod).state.rewardPools 1002).map (fun rp =>
        (rp.redeemMethod, (funded redeemMethod).state.redeemTokenBalance rp 1 5)) =
          some (redeemMethod, some 5) ∧
      (funded redeemMethod).state.registry.rewardPoolToOwner 1002 ≠ 0 := by
    cases redeemMethod with
    | ExistingERC20 => exact absurd rfl hcustom
    | CustomERC20 => decide
    | CustomERC1155 => decide
  obtain ⟨hpool, hrp, hregistered⟩ := hstate
  obtain ⟨pool, hpool, hterms⟩ := Option.map_eq_some_iff.mp hpool
  obtain ⟨rp, hrp, hmethod⟩ := Option.map_eq_some_iff.mp hrp
  simp only [Prod.mk.injEq] at hterms hmethod
  obtain ⟨hr, hid, hprice, htotal⟩ := hterms
  refine ⟨pool, rp, hpool, hr ▸ hrp, hprice, htotal, hmethod.1, ?_, hr.symm ▸ hregistered⟩
  rw [hid]
  exact hmethod.2

theorem quotesRightly_iff_funded : ∃ pool rp,
    (funded .CustomERC1155).state.assetPools 1004 = some pool ∧
    (funded .CustomERC1155).state.rewardPools pool.rewardPool = some rp ∧
    QuotesRightly (funded .CustomERC1155).state rp pool 5 1 := by
  obtain ⟨pool, rp, hpool, hrp, hprice, _, _, hbalance, _⟩ := exists_funded .CustomERC1155 (by decide)
  refine ⟨pool, rp, hpool, hrp,
    (quotesRightly_iff (World.run_after (fun _ _ => True) _) hpool hrp).mpr ?_⟩
  refine ⟨5, hbalance, fun _ => ⟨by decide, ?_⟩⟩
  rw [hprice]
  decide

/-- The getter counts five raw tokens of an ERC1155 as five cards, where `redeemAsset` sells one. -/
theorem erc1155_quote_counts_tokens : World.Run (fun _ _ => True) (funded .CustomERC1155) ∧
    ∃ pool rp, (funded .CustomERC1155).state.assetPools 1004 = some pool ∧
      (funded .CustomERC1155).state.rewardPools pool.rewardPool = some rp ∧
      pool.redeemTokenAmount = 5 ∧
      (funded .CustomERC1155).state.redeemTokenBalance rp pool.id 5 = some 5 ∧
      (funded .CustomERC1155).state.getRedeemTokenBalanceOf pool.rewardPool 5 pool.target = .ok 5 ∧
      ¬QuotesRightly (funded .CustomERC1155).state rp pool 5 2 := by
  obtain ⟨pool, rp, hpool, hrp, hprice, _, hmethod, hbalance, _⟩ :=
    exists_funded .CustomERC1155 (by decide)
  have hquote : (funded .CustomERC1155).state.getRedeemTokenBalanceOf pool.rewardPool 5 pool.target =
      .ok 5 := by
    refine (getRedeemTokenBalanceOf_target hrp (hprice ▸ by decide)).mpr ⟨5, hbalance, ?_⟩
    rw [if_pos hmethod]
    exact ⟨by decide, rfl⟩
  refine ⟨World.run_after (fun _ _ => True) _, pool, rp, hpool, hrp, hprice, hbalance, hquote, ?_⟩
  rintro ⟨quote, hok, hagrees⟩
  rw [hquote, Except.ok.injEq] at hok
  rw [canPay_iff hbalance, hprice, ← hok] at hagrees
  exact absurd hagrees (by decide)

/-! ### What the paymaster reads -/

/-- The data of a call of `redeemAsset(n)`. -/
def redeemAssetData (n : Nat) : Bytes := REDEEM_ASSET_SELECTOR ++ BigEndian.encode 32 n

/-- What the paymaster reads instead of `n`: the selector and the first 28 bytes of `n`. -/
def misread (n : Nat) : Nat := 0x7c9db689 * 2 ^ 224 + n / 2 ^ 32

theorem length_redeemAssetData : (redeemAssetData n).length = 36 := by
  rw [redeemAssetData, List.length_append, BigEndian.length_encode]
  rfl

theorem take_redeemAssetData : (redeemAssetData n).take 4 = REDEEM_ASSET_SELECTOR :=
  List.take_left' rfl

theorem ofBytes_redeemAssetData (hn : n < UINT256_SIZE) :
    ofBytes ((redeemAssetData n).take 32) = misread n := by
  have htake : (redeemAssetData n).take 32 =
      REDEEM_ASSET_SELECTOR ++ BigEndian.encode 28 (n / 2 ^ 32) := by
    have hfirst : (BigEndian.encode (28 + 4) n).take 28 = BigEndian.encode 28 (n / 2 ^ 32) :=
      BigEndian.take_encode
    rw [← hfirst]
    show (REDEEM_ASSET_SELECTOR ++ BigEndian.encode 32 n).take (REDEEM_ASSET_SELECTOR.length + 28) = _
    exact List.take_length_add_append 28
  have hselector : BigEndian.value REDEEM_ASSET_SELECTOR = 0x7c9db689 := by decide
  have hlt : n / 2 ^ 32 < 256 ^ 28 := by
    unfold UINT256_SIZE at hn
    omega
  show BigEndian.value _ = misread n
  rw [htake, BigEndian.value_append, BigEndian.value_encode, BigEndian.length_encode, hselector,
    Nat.mod_eq_of_lt hlt]
  rfl

/-- The balance of the user, as the getter counts it, covers the price of `m` cards. -/
def QuoteCovers (w : World F) (rp : RewardPoolV1 F) (pool : AssetPoolV1 F) (user : Address)
    (m : Nat) : Prop :=
  m * pool.redeemTokenAmount < UINT256_SIZE ∧
    ∃ balance, w.redeemTokenBalance rp pool.id user = some balance ∧
      if rp.redeemMethod = .CustomERC1155 then user ≠ 0 ∧ m * pool.redeemTokenAmount ≤ balance
      else m * pool.redeemTokenAmount ≤ balance / pool.redeemTokenAmount

omit [EnumerableSet F] in
/-- The paymaster checks the right things of the wrong number. -/
theorem preRelayedCall_redeemAsset {paymaster : RedeemAssetPaymaster}
    (hq : w.paymasters q = some paymaster) (hregistry : paymaster.rewardPoolRegistry = w.registryAddress)
    (hregistered : w.registry.rewardPoolToOwner pool.rewardPool ≠ 0)
    (hrp : w.rewardPools pool.rewardPool = some rp) (hprice : 0 < pool.redeemTokenAmount)
    (hn : n < UINT256_SIZE) :
    w.preRelayedCall q pool.target ⟨user, p, redeemAssetData n⟩ = .ok () ↔
      misread n ≤ pool.totalNumberOfAssets ∧ QuoteCovers w rp pool user (misread n) := by
  have hlength : 4 ≤ (redeemAssetData n).length := by
    rw [length_redeemAssetData]
    decide
  have hdecodes : 32 ≤ (redeemAssetData n).length := by
    rw [length_redeemAssetData]
    decide
  have hrewardPool : pool.target.getRewardPool = some pool.rewardPool := rfl
  have hamount : pool.target.getRedeemTokenAmount q = some pool.redeemTokenAmount := rfl
  have htotal : pool.target.getTotalNumberOfAssets = some pool.totalNumberOfAssets := rfl
  unfold World.preRelayedCall QuoteCovers
  simp only [orThrow_eq_ok.mpr hq, ok_bind, orThrow_eq_ok.mpr hrewardPool,
    World.registryAt_eq_ok.mpr ⟨hregistry, rfl⟩, require_of hregistered, require_of hlength,
    take_redeemAssetData, require_of trivial, require_of hdecodes, ofBytes_redeemAssetData hn,
    orThrow_eq_ok.mpr hamount, orThrow_eq_ok.mpr htotal, bind_eq_ok, require_eq_ok,
    checkedMul_eq_ok, getRedeemTokenBalanceOf_target hrp hprice]
  constructor
  · rintro ⟨quote, ⟨balance, hbalance, hquote⟩, _, ⟨hfits, rfl⟩, _, hcovers, hstock⟩
    refine ⟨hstock, hfits, balance, hbalance, ?_⟩
    split_ifs at hquote ⊢
    · exact ⟨hquote.1, hquote.2 ▸ hcovers⟩
    · exact hquote ▸ hcovers
  · rintro ⟨hstock, hfits, balance, hbalance, hcovers⟩
    split_ifs at hcovers ⊢
    · exact ⟨balance, ⟨balance, hbalance, hcovers.1, rfl⟩, _, ⟨hfits, rfl⟩, (), hcovers.2, hstock⟩
    · exact ⟨_, ⟨balance, hbalance, rfl⟩, _, ⟨hfits, rfl⟩, (), hcovers, hstock⟩

/-- The paymaster at `q` accepts a request to redeem `n` cards of the pool at `p` if and only if they are
redeemable. -/
def PrechecksRightly (w : World F) (q p : Address) (rp : RewardPoolV1 F) (pool : AssetPoolV1 F)
    (user : Address) (n : Nat) : Prop :=
  w.preRelayedCall q pool.target ⟨user, p, redeemAssetData n⟩ = .ok () ↔ Redeemable w rp pool user n

/-- The paymaster agrees with `redeemAsset` about `n` cards if `n` and the number it reads in its place
are both there and paid for, or both not. Where fewer cards are free than the smallest number it can
read, it agrees only about what is not redeemable. -/
theorem prechecksRightly_iff {paymaster : RedeemAssetPaymaster} (h : World.Run P cfg)
    (hq : cfg.state.paymasters q = some paymaster) (hpool : cfg.state.assetPools p = some pool)
    (hrp : cfg.state.rewardPools pool.rewardPool = some rp)
    (hregistered : cfg.state.registry.rewardPoolToOwner pool.rewardPool ≠ 0)
    (hn : n < UINT256_SIZE) :
    (PrechecksRightly cfg.state q p rp pool user n ↔
      (Redeemable cfg.state rp pool user n ↔
        misread n ≤ pool.totalNumberOfAssets ∧ QuoteCovers cfg.state rp pool user (misread n))) ∧
    (pool.totalNumberOfAssets < misread 0 →
      (PrechecksRightly cfg.state q p rp pool user n ↔ ¬Redeemable cfg.state rp pool user n)) := by
  obtain ⟨_, hdeployed⟩ := (kept_sane.booksRule (fun _ => id) deployed_rule).run h
  have hregistry : paymaster.rewardPoolRegistry = cfg.state.registryAddress := by
    rw [hdeployed.paymaster q paymaster hq]
    rfl
  have hprice : 0 < pool.redeemTokenAmount := (kept_priced.run h).2 pool hpool
  have haccepts : cfg.state.preRelayedCall q pool.target ⟨user, p, redeemAssetData n⟩ = .ok () ↔
      misread n ≤ pool.totalNumberOfAssets ∧ QuoteCovers cfg.state rp pool user (misread n) :=
    preRelayedCall_redeemAsset hq hregistry hregistered hrp hprice hn
  unfold PrechecksRightly
  rw [haccepts]
  refine ⟨⟨Iff.symm, Iff.symm⟩, fun hfew => ?_⟩
  have hmisread : misread 0 ≤ misread n := Nat.add_le_add_left (Nat.zero_le _) _
  have hrefuses : ¬(misread n ≤ pool.totalNumberOfAssets ∧
      QuoteCovers cfg.state rp pool user (misread n)) := by
    rintro ⟨hstock, _⟩
    omega
  tauto

theorem exists_paymaster_funded :
    ∃ paymaster, (funded .CustomERC20).state.paymasters 1005 = some paymaster ∧
      paymaster.rewardPoolRegistry = 1000 := by
  have hregistry : ((funded .CustomERC20).state.paymasters 1005).map
      RedeemAssetPaymaster.rewardPoolRegistry = some 1000 := by decide
  exact Option.map_eq_some_iff.mp hregistry

/-- Nobody gets a second card of one, and the paymaster refuses to relay for it. -/
theorem prechecksRightly_iff_funded : ∃ pool rp,
    (funded .CustomERC20).state.assetPools 1004 = some pool ∧
    (funded .CustomERC20).state.rewardPools pool.rewardPool = some rp ∧
    PrechecksRightly (funded .CustomERC20).state 1005 1004 rp pool 5 2 := by
  obtain ⟨pool, rp, hpool, hrp, _, htotal, _, _, hregistered⟩ := exists_funded .CustomERC20 (by decide)
  obtain ⟨paymaster, hq, _⟩ := exists_paymaster_funded
  have hfew : pool.totalNumberOfAssets < misread 0 := by
    rw [htotal]
    decide
  have hiff : PrechecksRightly (funded .CustomERC20).state 1005 1004 rp pool 5 2 ↔
      ¬Redeemable (funded .CustomERC20).state rp pool 5 2 :=
    (prechecksRightly_iff (World.run_after (fun _ _ => True) _) hq hpool hrp hregistered
      (by decide)).2 hfew
  refine ⟨pool, rp, hpool, hrp, hiff.mpr fun hredeemable => ?_⟩
  have htwo := hredeemable.1
  rw [htotal] at htwo
  exact absurd htwo (by decide)

/-- The account 5 can redeem the card of the pool, and the paymaster refuses to relay it. -/
theorem paymaster_refuses_redeemable : World.Run (fun _ _ => True) (funded .CustomERC20) ∧
    ∃ pool rp, (funded .CustomERC20).state.assetPools 1004 = some pool ∧
      (funded .CustomERC20).state.rewardPools pool.rewardPool = some rp ∧
      Redeemable (funded .CustomERC20).state rp pool 5 1 ∧
      (∃ w', (funded .CustomERC20).state.redeemAsset 1004 5 0 1 [77] = .ok w') ∧
      ¬PrechecksRightly (funded .CustomERC20).state 1005 1004 rp pool 5 1 := by
  obtain ⟨pool, rp, hpool, hrp, hprice, htotal, _, hbalance, hregistered⟩ :=
    exists_funded .CustomERC20 (by decide)
  have hredeemable : Redeemable (funded .CustomERC20).state rp pool 5 1 := by
    refine ⟨by rw [htotal], (canPay_iff hbalance).mpr ?_⟩
    rw [hprice]
  have hredeems : ∃ w', (funded .CustomERC20).state.redeemAsset 1004 5 0 1 [77] = .ok w' :=
    ⟨_, eq_ok_of_isSome (a := (funded .CustomERC20).state) (by decide)⟩
  refine ⟨World.run_after (fun _ _ => True) _, pool, rp, hpool, hrp, hredeemable, hredeems, ?_⟩
  obtain ⟨paymaster, hq, hregistry⟩ := exists_paymaster_funded
  intro hagrees
  have hstock := ((preRelayedCall_redeemAsset hq hregistry hregistered hrp (hprice ▸ by decide)
    (show 1 < UINT256_SIZE by decide)).mp (hagrees.mpr hredeemable)).1
  rw [htotal] at hstock
  exact absurd hstock (by decide)

end Redeemy
