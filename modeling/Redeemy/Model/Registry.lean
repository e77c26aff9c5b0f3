import Redeemy.Model.RewardPool
import Redeemy.Model.StringUtils

/-!
# The registry and its paymasters

`RewardPoolRegistryV1` and `RedeemAssetPaymaster`. The creation of a reward pool hands control to the
revenue wallet when it pays the fee, so it is in two parts: `createRewardPoolFee` up to that transfer,
and `createRewardPoolRest` after it.
-/

namespace Redeemy

open Fallible EnumerableSet

variable {F : Type → Type} [EnumerableSet F]

def MAX_NAME_LENGTH : Nat := 50

/-- `_rewardPoolNameExists` -/
def RewardPoolRegistryV1.rewardPoolNameExists (registry : RewardPoolRegistryV1) (name : Bytes) : Bool :=
  registry.usedRewardPoolNames name != 0

/-- `_validateName` -/
def RewardPoolRegistryV1.validateName (registry : RewardPoolRegistryV1) (name : Bytes) :
    Result Bytes := do
  let standardizedCaseName ← StringUtils.trim name
  require (¬(standardizedCaseName.length = 0 ∨ standardizedCaseName.length > MAX_NAME_LENGTH))
    .InvalidName
  require (registry.rewardPoolNameExists standardizedCaseName = false) .NameAlreadyExists
  pure standardizedCaseName

namespace World

/-- `_transferCreationFee`, after the value came with the call. -/
def transferCreationFee (w : World F) (value : Nat) : Result (World F) :=
  if 0 < w.registry.rewardPoolCreationFee then do
    require (value = w.registry.rewardPoolCreationFee) .InvalidFeeAmountSent
    require (w.accepts w.registry.revenueWallet = true) (.message "transfer failed")
    let tokens ← w.tokens.send w.registryAddress w.registry.revenueWallet value
      (.message "transfer failed")
    pure { w with tokens }
  else pure w

/-- `createRewardPool` up to the transfer of the fee. -/
def createRewardPoolFee (w : World F) (sender : Address) (value : Nat) (name : Bytes) :
    Result (World F) := do
  let tokens ← w.tokens.send sender w.registryAddress value .empty
  let w := { w with tokens }
  let _ ← w.registry.validateName name
  w.transferCreationFee value

/-- `_setVRFConsumer`: the consumer of an owner, which may be a new contract at `newVRFConsumer`. -/
def setVRFConsumer (w : World F) (owner newVRFConsumer : Address) : Result (World F) :=
  if w.registry.ownerToVRFConsumer owner = 0 then do
    require (w.Fresh newVRFConsumer) .empty
    let w := w.deploy newVRFConsumer
    pure { w with
      consumers := Function.update w.consumers newVRFConsumer
        (some ⟨w.registryAddress, owner, w.registry.vrfWrapper, fun _ => ⟨0, 0⟩⟩)
      registry := { w.registry with
        ownerToVRFConsumer := Function.update w.registry.ownerToVRFConsumer owner newVRFConsumer } }
  else pure w

/-- `createRewardPool` after the transfer of the fee, for the trimmed name in `n`. -/
def createRewardPoolRest (w : World F) (newVRFConsumer : Address) (n : NewRewardPool) :
    Result (World F) := do
  let w ← w.setVRFConsumer n.owner newVRFConsumer
  let n := { n with withdrawAddress := if n.withdrawAddress = 0 then n.owner else n.withdrawAddress }
  let w ← w.createRewardPoolClone w.registryAddress w.registry.trustedForwarder n
  pure { w with
    registry := { w.registry with
      ownerToRewardPools := Function.update w.registry.ownerToRewardPools n.owner
        (w.registry.ownerToRewardPools n.owner ++ [n.rewardPool])
      rewardPoolToOwner := Function.update w.registry.rewardPoolToOwner n.rewardPool n.owner
      usedRewardPoolNames := Function.update w.registry.usedRewardPoolNames n.name n.rewardPool } }

/-- `setNewRewardPoolName`, called by `sender`. -/
def setNewRewardPoolName (w : World F) (sender pool : Address) (rewardPoolName : Bytes) :
    Result (World F) := do
  require (w.registry.rewardPoolToOwner pool = sender) .empty
  let name ← w.registry.validateName rewardPoolName
  let rp ← w.rewardPool pool
  require (rp.rewardPoolRegistry = w.registryAddress) (.message "RewardPoolV1: only registry allowed")
  pure { w.setRewardPool pool { rp with name } with
    registry := { w.registry with
      usedRewardPoolNames := Function.update w.registry.usedRewardPoolNames name pool } }

/-- `createPaymaster`, called by `owner`; a new paymaster is at `newPaymaster`. -/
def createPaymaster (w : World F) (owner newPaymaster : Address) : Result (World F) :=
  if w.registry.ownerToPaymaster owner = 0 then do
    require (w.Fresh newPaymaster) .empty
    let w := w.deploy newPaymaster
    -- `Ownable` makes the deploying contract the owner
    pure { w with
      paymasters := Function.update w.paymasters newPaymaster
        (some ⟨w.registryAddress, w.registryAddress, 0, 0⟩)
      registry := { w.registry with
        ownerToPaymaster := Function.update w.registry.ownerToPaymaster owner newPaymaster } }
  else pure w

end World

/-! ### The paymaster's check of a relay request -/

/-- The contract a relay request goes to, by its answers to the check; `none` is a revert. Who asks
may make a difference. -/
structure Target where
  getRewardPool : Option Address
  id : Option Nat
  getRedeemTokenAmount : (caller : Address) → Option Nat
  getTotalNumberOfAssets : Option Nat

/-- `IForwarder.ForwardRequest`: `from`, `to` and `data`. -/
structure ForwardRequest where
  src : Address
  dst : Address
  data : Bytes

/-- A big-endian number. -/
def ofBytes (bytes : Bytes) : Nat :=
  bytes.foldl (fun n b => n * 256 + b.toNat) 0

/-- `IAssetPoolV1.redeemAsset.selector` -/
def REDEEM_ASSET_SELECTOR : Bytes := [0x7c, 0x9d, 0xb6, 0x89]

namespace World

/-- `BasePaymaster._verifyRelayHubOnly` of the paymaster at `self`, for a call by `sender`. -/
def verifyRelayHubOnly (w : World F) (self sender : Address) : Result Unit := do
  let paymaster ← orThrow (w.paymasters self) .empty
  require (sender = paymaster.relayHub) (.message "can only be called by RelayHub")

/-- `RewardPoolV1.getRedeemTokenBalanceOf` of the reward pool at `a`, for a pool that answers as
`assetPool` does. -/
def getRedeemTokenBalanceOf (w : World F) (a addr : Address) (assetPool : Target) : Result Nat := do
  let rp ← w.rewardPool a
  if rp.redeemMethod = .CustomERC1155 then
    let id ← orThrow assetPool.id .empty
    let tok ← w.tokens.erc1155Contract rp.redeemTokenContractAddress
    require (addr ≠ 0) (.message "ERC1155: address zero is not a valid owner")
    pure (tok.balances id addr)
  else
    let tok ← w.tokens.erc20Contract rp.redeemTokenContractAddress
    let redeemTokenAmount ← orThrow (assetPool.getRedeemTokenAmount a) .empty
    checkedDiv (tok.balanceOf addr) redeemTokenAmount

/-- `RedeemAssetPaymaster._preRelayedCall` of the paymaster at `self`. The number of assets is decoded
from the start of the data, where the selector is. -/
def preRelayedCall (w : World F) (self : Address) (assetPool : Target) (req : ForwardRequest) :
    Result Unit := do
  let paymaster ← orThrow (w.paymasters self) .empty
  let rewardPool ← orThrow assetPool.getRewardPool .empty
  let registry ← w.registryAt paymaster.rewardPoolRegistry
  require (registry.rewardPoolToOwner rewardPool ≠ 0) .empty
  require (4 ≤ req.data.length) (.message "readBytes4: data too short")
  require (req.data.take 4 = REDEEM_ASSET_SELECTOR) .empty
  require (32 ≤ req.data.length) .empty
  let amountOfAssetsToRedeem := ofBytes (req.data.take 32)
  let balance ← w.getRedeemTokenBalanceOf rewardPool req.src assetPool
  let redeemTokenAmount ← orThrow (assetPool.getRedeemTokenAmount self) .empty
  let required ← checkedMul amountOfAssetsToRedeem redeemTokenAmount
  require (required ≤ balance) .empty
  let total ← orThrow assetPool.getTotalNumberOfAssets .empty
  require (amountOfAssetsToRedeem ≤ total) .empty

end World

end Redeemy
