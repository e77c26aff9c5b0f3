import Redeemy.Model.AssetPool

/-!
# The redemption path

A redemption takes a payment on an asset pool, asks for random words through the reward pool and the
VRF consumer of its owner, and comes back through the consumer to the asset pool, which pays a card.
The contracts call each other here, so these are functions on the world.

The id of a request is the wrapper's choice, so a redemption takes its ids as an argument; the wrapper
never returns an id twice.
-/

namespace Redeemy

open Fallible EnumerableSet

def MAX_NUMBER_OF_REWARDS_PER_TX : Nat := 10

namespace World

variable {F : Type → Type} [EnumerableSet F]

def setPool (w : World F) (a : Address) (pool : AssetPoolV1 F) : World F :=
  { w with assetPools := Function.update w.assetPools a (some pool) }

/-! ### Requests -/

/-- `RewardVRFConsumerV1.requestRandomWords`, called by `sender` on the consumer at `k`. -/
def consumerRequestRandomWords (w : World F) (k sender assetPool receiver : Address)
    (requestId : Nat) : Result (World F) := do
  let consumer ← w.consumer k
  let registry ← w.registryAt consumer.rewardPoolRegistry
  require (registry.rewardPoolToOwner sender = consumer.owner)
    (.message "RedeemVRFConsumerV1: only reward pool allowed")
  require (requestId ∉ w.vrf.issued) .empty
  let requestIds := Function.update consumer.requestIds requestId ⟨assetPool, receiver⟩
  pure { w with
    consumers := Function.update w.consumers k (some { consumer with requestIds })
    vrf := ⟨requestId :: w.vrf.issued, (requestId, k) :: w.vrf.owed⟩
    unfulfilled := (requestId, assetPool) :: w.unfulfilled }

/-- `RewardPoolV1.requestRandomWords`, called by `sender` on the reward pool at `a`. -/
def rewardPoolRequestRandomWords (w : World F) (a sender receiver : Address) (requestId : Nat) :
    Result (World F) := do
  let rp ← w.rewardPool a
  require (sender ∈ values rp.assetPools) (.message "RewardPoolV1: only asset pool allowed")
  let registry ← w.registryAt rp.rewardPoolRegistry
  w.consumerRequestRandomWords (registry.ownerToVRFConsumer rp.owner) a sender receiver requestId

/-! ### Redemptions -/

/-- `_msgSender`: a call from the trusted forwarder carries the user in the last 20 bytes of its
data. -/
def msgSender (pool : AssetPoolV1 F) (sender trailing : Address) : Address :=
  if sender = pool.trustedForwarder then trailing else sender

/-- The three branches of `redeemAsset` on the redeem method: what was paid, and the address the
tokens were moved to if they were not burned. -/
def takePayment (w : World F) (self : Address) (rp : RewardPoolV1 F) (pool : AssetPoolV1 F)
    (receiver : Address) (requiredAmount : Nat) : Result (Tokens × Option Address) := do
  let c := rp.redeemTokenContractAddress
  match rp.redeemMethod with
  | .ExistingERC20 =>
    let tok ← w.tokens.erc20Contract c
    require (requiredAmount ≤ tok.balanceOf receiver) .InsufficientBalance
    require (requiredAmount ≤ tok.allowance receiver self) .InsufficientApproval
    let (tokens, answer) ←
      w.tokens.erc20TransferFrom c self receiver rp.withdrawAddress requiredAmount
    require (answer.returns = true) .TransferFailed
    pure (tokens, some rp.withdrawAddress)
  | .CustomERC20 =>
    let tok ← w.tokens.erc20Contract c
    require (requiredAmount ≤ tok.balanceOf receiver) .InsufficientBalance
    let tokens ← w.tokens.erc20Burn w.rewardPools c self receiver requiredAmount
    pure (tokens, none)
  | .CustomERC1155 =>
    let tok ← w.tokens.erc1155Contract c
    require (requiredAmount ≤ tok.balances pool.id receiver) .InsufficientBalance
    let tokens ← w.tokens.erc1155Burn w.rewardPools c self receiver pool.id requiredAmount
    pure (tokens, none)

/-- The state in which the requests of a redemption are made: the cards are reserved and the user
has paid. -/
def redeemPaid (w : World F) (self sender trailing : Address) (amountOfAssetsToRedeem : Nat)
    (requestIds : List Nat) : Result (World F × Charge) := do
  let pool ← w.assetPool self
  let rp ← w.rewardPool pool.rewardPool
  require (rp.active = true) (.message "AssetPoolV1: reward pool status is not active")
  require (1 ≤ amountOfAssetsToRedeem) .RedeemAtLeastOneAsset
  require (amountOfAssetsToRedeem ≤ MAX_NUMBER_OF_REWARDS_PER_TX) .RedeemMoreThanMaxAmount
  require (amountOfAssetsToRedeem ≤ pool.totalNumberOfAssets) .NotEnoughAssetsInThePool
  let reserved := { pool with
    totalNumberOfAssets := pool.totalNumberOfAssets - amountOfAssetsToRedeem }
  let receiver := msgSender pool sender trailing
  let requiredAmount ← checkedMul pool.redeemTokenAmount amountOfAssetsToRedeem
  let (tokens, sink) ← takePayment w self rp pool receiver requiredAmount
  pure ({ w.setPool self reserved with tokens },
    ⟨self, receiver, pool.redeemTokenAmount, requiredAmount, sink, requestIds⟩)

/-- `AssetPoolV1.redeemAsset`, called on the pool at `self`. -/
def redeemAsset (w : World F) (self sender trailing : Address) (amountOfAssetsToRedeem : Nat)
    (requestIds : List Nat) : Result (World F) := do
  let pool ← w.assetPool self
  let (w, charge) ← w.redeemPaid self sender trailing amountOfAssetsToRedeem requestIds
  require (requestIds.length = amountOfAssetsToRedeem) .empty
  let w ← requestIds.foldlM
    (fun w requestId =>
      w.rewardPoolRequestRandomWords pool.rewardPool self charge.user requestId) w
  pure { w with charges := charge :: w.charges }

/-! ### Fulfilments -/

/-- The three branches of `fulfillRedeemAsset` on the asset type of the card. A receiver's hook runs
when this is done. -/
def payCard (w : World F) (self receiver : Address) (requestId : Nat) (card : Card) :
    Result Tokens := do
  let c := card.contractAddress
  let amountOrTokenId := card.box.amountOrTokenId
  let paid : Movement :=
    ⟨.fulfill requestId, self, card.assetType, c, receiver, amountOrTokenId⟩
  match card.assetType with
  | .ERC20 =>
    let (tokens, answer) ← w.tokens.erc20Transfer c self receiver amountOrTokenId
    require (answer.returns = true) (.message "AssetPoolV1: ERC20 transfer failed")
    pure (tokens.recordIf answer.moves paid)
  | .NativeToken =>
    require (w.accepts receiver = true) (.message "AssetPoolV1: Native token transfer failed")
    let tokens ← w.tokens.send self receiver amountOrTokenId
      (.message "AssetPoolV1: Native token transfer failed")
    pure (tokens.record paid)
  | .ERC721 =>
    require (w.accepts receiver = true)
      (.message "ERC721: transfer to non ERC721Receiver implementer")
    let tokens ← w.tokens.erc721TransferFrom c self self receiver amountOrTokenId
    pure (tokens.record paid)

/-- `AssetPoolV1.fulfillRedeemAsset`, called by `sender` on the pool at `self`. -/
def fulfillRedeemAsset (w : World F) (self sender : Address) (requestId : Nat)
    (receiver : Address) (words : List Nat) : Result ((AssetType × Address × Nat) × World F) := do
  let pool ← w.assetPool self
  let rp ← w.rewardPool pool.rewardPool
  let registry ← w.registryAt rp.rewardPoolRegistry
  require (sender = registry.ownerToVRFConsumer rp.owner)
    (.message "AssetPoolV1: only vrf consumer allowed")
  let (card, pool) ← pool.drawCard words
  let tokens ← w.payCard self receiver requestId card
  pure ((card.assetType, card.contractAddress, card.box.amountOrTokenId),
    { w.setPool self pool with tokens, unfulfilled := w.unfulfilled.erase (requestId, self) })

/-- `rawFulfillRandomWords` and `fulfillRandomWords` of `RewardVRFConsumerV1`, called by `sender` on
the consumer at `k`. -/
def rawFulfillRandomWords (w : World F) (k sender : Address) (requestId : Nat)
    (randomWords : List Nat) : Result (World F) := do
  let consumer ← w.consumer k
  require (sender = consumer.wrapper) (.message "only VRF V2 wrapper can fulfill")
  let req := consumer.requestIds requestId
  let (_, w) ← w.fulfillRedeemAsset req.assetPool k requestId req.receiver randomWords
  pure w

/-- The wrapper forgets a callback before it makes it. -/
def forget (w : World F) (requestId : Nat) (k : Address) : World F :=
  { w with vrf := { w.vrf with owed := w.vrf.owed.erase (requestId, k) } }

end World

end Redeemy
