import Redeemy.Model.TokenCode
import Redeemy.Proof.Frames

/-!
# Tokens that call nobody

Where no third-party token calls anybody, the code of the tokens changes nothing: each function of
`Redeemy.Model.TokenCode` does to the world what the function of its name does to the storage of the
pool and the token contracts, and the runs are the same.
-/

namespace Redeemy

open Fallible EnumerableSet

variable {F : Type → Type} {code : TokenCode F}
variable {w : World F} {s : AssetPoolV1 F × Tokens} {self admin c : Address}

/-! ### The part of the world that a deposit or a withdrawal works on -/

/-- The world with the storage of the pool at `self` and the token contracts replaced. -/
def World.withStock (w : World F) (self : Address) (s : AssetPoolV1 F × Tokens) : World F :=
  { w.setPool self s.1 with tokens := s.2 }

namespace World

@[simp] theorem assetPool_withStock : (w.withStock self s).assetPool self = .ok s.1 := by
  rw [assetPool_eq_ok]
  exact Function.update_self ..

@[simp] theorem setPool_withStock {pool : AssetPoolV1 F} :
    (w.withStock self s).setPool self pool = w.withStock self (pool, s.2) := by
  unfold withStock setPool
  simp only [Function.update_idem]

@[simp] theorem tokens_withStock : (w.withStock self s).tokens = s.2 := rfl

theorem withStock_self {pool : AssetPoolV1 F} (hpool : w.assetPools self = some pool) :
    w.withStock self (pool, w.tokens) = w := by
  unfold withStock setPool
  rw [← hpool, Function.update_eq_self]

/-- Which addresses take tokens does not depend on what the pool stores. -/
theorem accepts_withStock {pool : AssetPoolV1 F} (hpool : w.assetPools self = some pool) :
    (w.withStock self s).accepts = w.accepts := by
  funext a
  unfold accepts withStock setPool
  by_cases ha : a = self
  · subst ha
    simp [hpool]
  · simp [ha]

end World

/-- The state of a withdrawal loop, as the state of the loop on worlds. -/
def Withdrawal.inWorld (w : World F) (self : Address) (s : Withdrawal F) : Nat × World F :=
  (s.total, w.withStock self (s.pool, s.tokens))

namespace Callback

theorem ask_eq (h : code.CallsNobody) {α : Type} {f : Tokens → Result (Tokens × α)} :
    ask code c f w = (fun r => ({ w with tokens := r.1 }, r.2)) <$> f w.tokens := by
  unfold ask
  rw [(h c w).1, ok_bind, map_eq_pure_bind]
  refine bind_congr fun ⟨tokens, a⟩ => ?_
  dsimp only
  rw [(h c _).2]
  rfl

theorem ask_withStock (h : code.CallsNobody) {α : Type} {f : Tokens → Result (Tokens × α)} :
    ask code c f (w.withStock self s) =
      (fun r => (w.withStock self (s.1, r.1), r.2)) <$> f s.2 :=
  ask_eq h

/-! ### Deposits -/

section Deposit

variable [EnumerableSet F]

theorem handleErc20TokenDeposit_eq (h : code.CallsNobody) (s : AssetPoolV1 F × Tokens)
    (deposit : (Address × Nat) × Option (List AssetBox)) :
    handleErc20TokenDeposit code self admin (w.withStock self s) deposit =
      w.withStock self <$> Redeemy.handleErc20TokenDeposit self admin s deposit := by
  unfold handleErc20TokenDeposit Redeemy.handleErc20TokenDeposit
  simp only [ask_withStock h, World.tokens_withStock, World.assetPool_withStock,
    World.setPool_withStock, map_bind, bind_assoc, pure_bind, ok_bind, map_pure]

theorem handleErc20TokenDeposits_eq (h : code.CallsNobody) (amounts : List (Address × Nat))
    (boxes : List (List AssetBox)) :
    handleErc20TokenDeposits code self admin (w.withStock self s) amounts boxes =
      w.withStock self <$> Redeemy.handleErc20TokenDeposits self admin s amounts boxes :=
  foldlM_image (handleErc20TokenDeposit_eq h) _ s

theorem handleNativeTokenDeposits_eq (boxes : List AssetBox) (value : Nat) :
    handleNativeTokenDeposits self admin (w.withStock self s) boxes value =
      w.withStock self <$> Redeemy.handleNativeTokenDeposits self admin s boxes value := by
  unfold handleNativeTokenDeposits
  simp only [World.tokens_withStock, World.assetPool_withStock, World.setPool_withStock, ok_bind]
  exact bind_pure_comp ..

omit [EnumerableSet F] in
theorem depositERC721Token_eq (h : code.CallsNobody) (s : AssetPoolV1 F × Tokens) (tokenId : Nat) :
    depositERC721Token code self admin c (w.withStock self s) tokenId =
      w.withStock self <$> Redeemy.depositERC721Token self admin c s tokenId := by
  unfold depositERC721Token Redeemy.depositERC721Token
  simp only [ask_withStock h, World.assetPool_withStock, World.setPool_withStock, map_bind,
    bind_assoc, pure_bind, ok_bind, map_pure]

theorem depositERC721Asset_eq (h : code.CallsNobody) (s : AssetPoolV1 F × Tokens)
    (deposit : Address × Option (List Nat)) :
    depositERC721Asset code self admin (w.withStock self s) deposit =
      w.withStock self <$> Redeemy.depositERC721Asset self admin s deposit := by
  unfold depositERC721Asset Redeemy.depositERC721Asset
  simp only [World.tokens_withStock, World.assetPool_withStock, World.setPool_withStock, map_bind,
    ok_bind, foldlM_image (depositERC721Token_eq h)]

theorem depositERC721Assets_eq (h : code.CallsNobody) (contracts : List Address)
    (tokenIds : List (List Nat)) :
    depositERC721Assets code self admin (w.withStock self s) contracts tokenIds =
      w.withStock self <$> Redeemy.depositERC721Assets self admin s contracts tokenIds := by
  unfold depositERC721Assets Redeemy.depositERC721Assets
  rw [map_bind]
  exact bind_congr fun _ => foldlM_image (depositERC721Asset_eq h) _ s

end Deposit

/-! ### Withdrawals -/

theorem subtotal_eq {f : Nat × World F → Result (Nat × World F)}
    {f' : Withdrawal F → Result (Withdrawal F)}
    (hf : ∀ s, f (Withdrawal.inWorld w self s) = Withdrawal.inWorld w self <$> f' s) (s : Withdrawal F) :
    subtotal f (Withdrawal.inWorld w self s) = Withdrawal.inWorld w self <$> Redeemy.subtotal f' s := by
  unfold subtotal Redeemy.subtotal
  have hzero : f (0, (Withdrawal.inWorld w self s).2) =
      Withdrawal.inWorld w self <$> f' { s with total := 0 } :=
    hf { s with total := 0 }
  rw [hzero, map_bind, bind_map_left]
  refine bind_congr fun s' => ?_
  rw [map_bind]
  rfl

theorem withdrawErc20Box_eq (h : code.CallsNobody) (s : Withdrawal F) (boxToWithdraw : AssetBox) :
    withdrawErc20Box code self c (Withdrawal.inWorld w self s) boxToWithdraw =
      Withdrawal.inWorld w self <$> Redeemy.withdrawErc20Box self c s boxToWithdraw := by
  unfold withdrawErc20Box Redeemy.withdrawErc20Box Withdrawal.inWorld
  simp only [ask_withStock h, World.assetPool_withStock, World.setPool_withStock, map_bind,
    bind_assoc, pure_bind, ok_bind, map_pure]

theorem withdrawErc20Asset_eq (h : code.CallsNobody) (s : Withdrawal F)
    (withdrawal : Address × Option (List AssetBox)) :
    withdrawErc20Asset code self (Withdrawal.inWorld w self s) withdrawal =
      Withdrawal.inWorld w self <$> Redeemy.withdrawErc20Asset self s withdrawal := by
  unfold withdrawErc20Asset Redeemy.withdrawErc20Asset
  rw [map_bind]
  exact bind_congr fun boxes => subtotal_eq (foldlM_image (withdrawErc20Box_eq h) boxes) s

theorem withdrawErc721Token_eq (h : code.CallsNobody) (s : Withdrawal F) (tokenId : Nat) :
    withdrawErc721Token code self c (Withdrawal.inWorld w self s) tokenId =
      Withdrawal.inWorld w self <$> Redeemy.withdrawErc721Token self c s tokenId := by
  unfold withdrawErc721Token Redeemy.withdrawErc721Token Withdrawal.inWorld
  simp only [ask_withStock h, World.assetPool_withStock, World.setPool_withStock, map_bind,
    bind_assoc, pure_bind, ok_bind, map_pure]

theorem withdrawErc721Asset_eq (h : code.CallsNobody) (s : Withdrawal F)
    (withdrawal : Address × Option (List Nat)) :
    withdrawErc721Asset code self (Withdrawal.inWorld w self s) withdrawal =
      Withdrawal.inWorld w self <$> Redeemy.withdrawErc721Asset self s withdrawal := by
  unfold withdrawErc721Asset Redeemy.withdrawErc721Asset
  rw [map_bind]
  exact bind_congr fun tokenIds => subtotal_eq (foldlM_image (withdrawErc721Token_eq h) tokenIds) s

theorem withdrawNativeTokenAssets_eq {pool : AssetPoolV1 F} (hpool : w.assetPools self = some pool)
    (boxes : List AssetBox) (s : Withdrawal F) :
    withdrawNativeTokenAssets self boxes (Withdrawal.inWorld w self s) =
      Withdrawal.inWorld w self <$> Redeemy.withdrawNativeTokenAssets w.accepts self boxes s := by
  unfold withdrawNativeTokenAssets Withdrawal.inWorld
  simp only [World.assetPool_withStock, World.setPool_withStock, World.tokens_withStock, ok_bind,
    World.accepts_withStock hpool]
  exact bind_pure_comp ..

theorem withdrawBoxes_eq (h : code.CallsNobody) {pool : AssetPoolV1 F}
    (hpool : w.assetPools self = some pool) (assets : Assets) (s : Withdrawal F) :
    withdrawBoxes code self assets (Withdrawal.inWorld w self s) =
      Withdrawal.inWorld w self <$> Redeemy.withdrawBoxes w.accepts self assets s := by
  have h20 : ∀ s, subtotal
      (withdrawErc20Assets code self assets.erc20ContractAddresses assets.erc20Boxes)
      (Withdrawal.inWorld w self s) = Withdrawal.inWorld w self <$> Redeemy.subtotal
        (Redeemy.withdrawErc20Assets self assets.erc20ContractAddresses assets.erc20Boxes) s :=
    subtotal_eq fun s => foldlM_image (withdrawErc20Asset_eq h) _ s
  have h721 : ∀ s, subtotal
      (withdrawErc721Assets code self assets.erc721ContractAddresses assets.erc721TokenIds)
      (Withdrawal.inWorld w self s) = Withdrawal.inWorld w self <$> Redeemy.subtotal
        (Redeemy.withdrawErc721Assets self assets.erc721ContractAddresses assets.erc721TokenIds) s :=
    subtotal_eq fun s => foldlM_image (withdrawErc721Asset_eq h) _ s
  have hnative : ∀ s, subtotal (withdrawNativeTokenAssets self assets.nativeTokenBoxes)
      (Withdrawal.inWorld w self s) = Withdrawal.inWorld w self <$> Redeemy.subtotal
        (Redeemy.withdrawNativeTokenAssets w.accepts self assets.nativeTokenBoxes) s :=
    subtotal_eq (withdrawNativeTokenAssets_eq hpool _)
  unfold withdrawBoxes Redeemy.withdrawBoxes
  simp only [h20, h721, hnative, bind_map_left, map_bind]

/-! ### Calls -/

theorem payCard_eq (h : code.CallsNobody) {receiver : Address} {requestId : Nat} {card : Card} :
    payCard code w self receiver requestId card =
      (fun tokens => { w with tokens }) <$> w.payCard self receiver requestId card := by
  unfold payCard World.payCard
  cases card.assetType with
  | ERC20 => simp only [ask_eq h, map_bind, bind_assoc, pure_bind, map_pure]
  | NativeToken => exact bind_pure_comp ..
  | ERC721 => simp only [ask_eq h, map_bind, bind_assoc, pure_bind, map_pure]

/-- What a pool stores does not decide whether a payment goes through. -/
theorem payCard_setPool {pool pool' : AssetPoolV1 F} (hpool : w.assetPools self = some pool)
    {receiver : Address} {requestId : Nat} {card : Card} :
    (w.setPool self pool').payCard self receiver requestId card =
      w.payCard self receiver requestId card := by
  have haccepts : (w.setPool self pool').accepts = w.accepts :=
    World.accepts_withStock (s := (pool', w.tokens)) hpool
  unfold World.payCard
  rw [haccepts]
  rfl

section Calls

variable [EnumerableSet F]

theorem depositAssets_eq (h : code.CallsNobody) (sender : Address) (value : Nat) (assets : Assets) :
    depositAssets code w self sender value assets = w.depositAssets self sender value assets := by
  unfold depositAssets World.depositAssets
  refine bind_congr fun tokens => bind_congr fun pool => ?_
  cases hrp : w.rewardPool pool.rewardPool with
  | error e => rfl
  | ok rp =>
    have hsame : ∀ s, (w.withStock self s).rewardPool pool.rewardPool = .ok rp := fun _ => hrp
    have hstart : ∀ totalNumberOfAssets,
        { w.setPool self { pool with totalNumberOfAssets } with tokens } =
          w.withStock self ({ pool with totalNumberOfAssets }, tokens) := fun _ => rfl
    simp only [hstart, handleErc20TokenDeposits_eq h, handleNativeTokenDeposits_eq,
      depositERC721Assets_eq h, bind_map_left, World.assetPool_withStock, hsame, ok_bind]
    rfl

theorem withdrawAssets_eq (h : code.CallsNobody) (sender : Address) (assets : Assets) :
    withdrawAssets code w self sender assets = w.withdrawAssets self sender assets := by
  unfold withdrawAssets World.withdrawAssets
  cases hpool : w.assetPool self with
  | error e => rfl
  | ok pool =>
    rw [World.assetPool_eq_ok] at hpool
    rw [ok_bind, ok_bind]
    cases hrp : w.rewardPool pool.rewardPool with
    | error e => rfl
    | ok rp =>
      have hsame : ∀ s, (w.withStock self s).rewardPool pool.rewardPool = .ok rp := fun _ => hrp
      have hstart : (0, w) = Withdrawal.inWorld w self ⟨0, pool, w.tokens⟩ :=
        congrArg (Prod.mk 0) (World.withStock_self hpool).symm
      rw [hstart, withdrawBoxes_eq h hpool]
      simp only [bind_map_left, Withdrawal.inWorld, World.assetPool_withStock, World.setPool_withStock,
        hsame, ok_bind]
      rfl

theorem takePayment_eq (h : code.CallsNobody) {rp : RewardPoolV1 F} {pool : AssetPoolV1 F}
    {receiver : Address} {requiredAmount : Nat} :
    takePayment code w self rp pool receiver requiredAmount =
      (fun r => ({ w with tokens := r.1 }, r.2)) <$>
        w.takePayment self rp pool receiver requiredAmount := by
  unfold takePayment World.takePayment
  cases rp.redeemMethod with
  | ExistingERC20 =>
    simp only [ask_eq h, map_bind, bind_map_left, map_pure]
  | CustomERC20 => exact bind_pure_comp ..
  | CustomERC1155 => exact bind_pure_comp ..

theorem redeemPaid_eq (h : code.CallsNobody) {sender trailing : Address} {n : Nat}
    {requestIds : List Nat} :
    redeemPaid code w self sender trailing n requestIds =
      w.redeemPaid self sender trailing n requestIds := by
  unfold redeemPaid World.redeemPaid
  simp only [takePayment_eq h, bind_map_left]
  rfl

theorem redeemAsset_eq (h : code.CallsNobody) {sender trailing : Address} {n : Nat}
    {requestIds : List Nat} :
    redeemAsset code w self sender trailing n requestIds =
      w.redeemAsset self sender trailing n requestIds := by
  unfold redeemAsset World.redeemAsset
  rw [redeemPaid_eq h]

theorem fulfillRedeemAsset_eq (h : code.CallsNobody) {sender receiver : Address} {requestId : Nat}
    {words : List Nat} :
    fulfillRedeemAsset code w self sender requestId receiver words =
      w.fulfillRedeemAsset self sender requestId receiver words := by
  unfold fulfillRedeemAsset World.fulfillRedeemAsset
  cases hpool : w.assetPool self with
  | error e => rfl
  | ok pool =>
    rw [World.assetPool_eq_ok] at hpool
    simp only [payCard_eq h, payCard_setPool hpool, bind_map_left, ok_bind]
    rfl

theorem assetPoolCall_eq (h : code.CallsNobody) {sender : Address} (c : AssetPoolCall) :
    assetPoolCall code w self sender c = w.assetPoolCall self sender c := by
  cases c with
  | depositAssets value assets => exact depositAssets_eq h sender value assets
  | withdrawAssets assets => exact withdrawAssets_eq h sender assets
  | redeemAsset => exact redeemAsset_eq h
  | fulfillRedeemAsset => simp only [assetPoolCall, World.assetPoolCall, fulfillRedeemAsset_eq h]
  | setRedeemTokenAmount => rfl
  | transferRedeemTokenNumber => rfl
  | transferRedeemTokenAmount => rfl

theorem rawFulfillRandomWords_eq (h : code.CallsNobody) {sender : Address} {requestId : Nat}
    {words : List Nat} :
    rawFulfillRandomWords code w c sender requestId words =
      w.rawFulfillRandomWords c sender requestId words := by
  unfold rawFulfillRandomWords World.rawFulfillRandomWords
  simp only [fulfillRedeemAsset_eq h]

theorem enter_eq (h : code.CallsNobody) (call : Call) (w : World F) :
    enter code call w = World.enter call w := by
  obtain ⟨sender, action⟩ := call
  cases action with
  | assetPool a c => exact assetPoolCall_eq h c
  | consumer a c =>
    cases c with
    | rawFulfillRandomWords => exact rawFulfillRandomWords_eq h
    | requestRandomWords => rfl
  | _ => rfl

/-- Tokens that call nobody give the machine in which a transfer is one step. -/
theorem machine_eq (h : code.CallsNobody) : machine code = World.machine F := by
  unfold machine World.machine
  rw [funext fun call => funext (enter_eq h call)]

theorem run_iff (h : code.CallsNobody) {P : World F → Call → Prop}
    {cfg : CallStack.Config (World F) Call} : Run code P cfg ↔ World.Run P cfg := by
  unfold Run World.Run
  rw [machine_eq h]

end Calls

end Callback

end Redeemy
