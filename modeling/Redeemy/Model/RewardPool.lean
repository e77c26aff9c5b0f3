import Redeemy.Model.Redeem

/-!
# Reward pools and their factories

`RewardPoolV1` with the two clone factories. A new contract gets an address that is an argument of
the call; the functions check that it is fresh, which holds of every address the chain hands out.
-/

namespace Redeemy

open Fallible EnumerableSet

variable {F : Type → Type} [EnumerableSet F]

/-- No function of the source reads this constant. -/
def MAX_NUMBER_OF_ASSET_POOL : Nat := 10

def MAX_ADMINS : Nat := 10

def MAX_TRANSFERRERS : Nat := 3

/-! ### The storage of a reward pool -/

namespace RewardPoolV1

def isAdmin (rp : RewardPoolV1 F) (a : Address) : Prop :=
  a ∈ values rp.admins ∨ a = rp.owner

instance (rp : RewardPoolV1 F) (a : Address) : Decidable (rp.isAdmin a) :=
  inferInstanceAs (Decidable (a ∈ values rp.admins ∨ a = rp.owner))

def isTransferrer (rp : RewardPoolV1 F) (a : Address) : Prop :=
  a ∈ values rp.transferrers ∨ a = rp.owner

instance (rp : RewardPoolV1 F) (a : Address) : Decidable (rp.isTransferrer a) :=
  inferInstanceAs (Decidable (a ∈ values rp.transferrers ∨ a = rp.owner))

/-- `_addAdmins` -/
def addAdmins (rp : RewardPoolV1 F) (admins : List Address) : Result (RewardPoolV1 F) := do
  require (admins.length + length rp.admins ≤ MAX_ADMINS)
    (.message "RewardPoolV1: cant add that many admins")
  pure { rp with admins := admins.foldl add rp.admins }

def removeAdmins (rp : RewardPoolV1 F) (admins : List Address) : RewardPoolV1 F :=
  { rp with admins := admins.foldl remove rp.admins }

def addTransferrers (rp : RewardPoolV1 F) (transferrers : List Address) :
    Result (RewardPoolV1 F) := do
  require (transferrers.length + length rp.transferrers ≤ MAX_TRANSFERRERS)
    (.message "RewardPoolV1: cant add that many transferrers")
  pure { rp with transferrers := transferrers.foldl add rp.transferrers }

def removeTransferrers (rp : RewardPoolV1 F) (transferrers : List Address) : RewardPoolV1 F :=
  { rp with transferrers := transferrers.foldl remove rp.transferrers }

/-- `_addAssetPool`, and the step of the counter after it. -/
def addAssetPool (rp : RewardPoolV1 F) (assetPool : Address) : RewardPoolV1 F :=
  { rp with
    assetPools := add rp.assetPools assetPool
    assetPoolIds := add rp.assetPoolIds rp.assetPoolId
    assetPoolIdToAssetPool := Function.update rp.assetPoolIdToAssetPool rp.assetPoolId assetPool
    assetPoolId := rp.assetPoolId + 1 }

end RewardPoolV1

/-- The state `AssetPoolV1.initialize` leaves. -/
def AssetPoolV1.initial (rewardPool : Address) (id redeemTokenAmount : Nat)
    (trustedForwarder : Address) : AssetPoolV1 F where
  id := id
  rewardPool := rewardPool
  redeemTokenAmount := redeemTokenAmount
  totalNumberOfAssets := 0
  trustedForwarder := trustedForwarder
  assetBoxes := fun _ _ => []
  contractAddresses := fun _ => empty

namespace World

def setRewardPool (w : World F) (a : Address) (rp : RewardPoolV1 F) : World F :=
  { w with rewardPools := Function.update w.rewardPools a (some rp) }

def deploy (w : World F) (a : Address) : World F :=
  { w with deployed := a :: w.deployed }

/-! ### The factories -/

/-- `AssetPoolFactoryV1.create`: the clone at `clone` is initialized, and gets the value sent. -/
def createClone (w : World F) (sender : Address) (value : Nat) (rewardPool : Address)
    (id redeemTokenAmount : Nat) (clone : Address) : Result (World F) := do
  require (w.Fresh clone) .empty
  let rp ← orThrow (w.rewardPools rewardPool) .InitializeCallFailed
  require (0 < redeemTokenAmount) .InitializeCallFailed
  let tokens ← w.tokens.send sender clone value .empty
  pure { (w.deploy clone).setPool clone
      (.initial rewardPool id redeemTokenAmount rp.forwarder) with tokens }

/-- `RewardPoolV1._createAssetPool` on the reward pool at `a`. -/
def createAssetPool (w : World F) (a : Address) (redeemTokenAmount : Nat) (clone : Address) :
    Result (World F) := do
  let rp ← w.rewardPool a
  let w ← w.createClone a 0 a rp.assetPoolId redeemTokenAmount clone
  pure (w.setRewardPool a (rp.addAssetPool clone))

/-- A new `ERC20RedeemTokenV1`. -/
def deployERC20 (w : World F) (a rewardPool : Address) : World F :=
  { w.deploy a with
    tokens := w.tokens.setERC20 a
      { rewardPool := some rewardPool
        balanceOf := fun _ => 0
        allowance := fun _ _ => 0
        totalSupply := 0
        blacklisted := fun _ => false
        answers := [] } }

/-- A new `ERC1155RedeemTokenV1`. -/
def deployERC1155 (w : World F) (a rewardPool : Address) : World F :=
  { w.deploy a with
    tokens := w.tokens.setERC1155 a
      { rewardPool := rewardPool
        balances := fun _ _ => 0
        isApprovedForAll := fun _ _ => false
        blacklisted := fun _ => false } }

/-- `_setOrCreateRedeemToken`: the redeem token of a reward pool, which may be a new contract at
`clone`. -/
def setOrCreateRedeemToken (w : World F) (rewardPool : Address) (redeemMethod : RedeemMethod)
    (redeemTokenContractAddress clone : Address) : Result (World F × Address) :=
  match redeemMethod with
  | .ExistingERC20 => do
    require (redeemTokenContractAddress ≠ 0) (.message "RewardPoolV1: address cannot be zero")
    pure (w, redeemTokenContractAddress)
  | .CustomERC20 => do
    require (w.Fresh clone) .empty
    pure (w.deployERC20 clone rewardPool, clone)
  | .CustomERC1155 => do
    require (w.Fresh clone) .empty
    pure (w.deployERC1155 clone rewardPool, clone)

end World

/-- What a reward pool is created from, with the addresses the new contracts get. The token names
and URIs are left out: nothing reads them. -/
structure NewRewardPool where
  owner : Address
  name : Bytes
  redeemMethod : RedeemMethod
  redeemTokenContractAddress : Address
  redeemTokenAmount : Nat
  withdrawAddress : Address
  admins : List Address
  rewardPool : Address
  redeemToken : Address
  assetPool : Address

namespace World

/-- `RewardPoolV1.initialize`, called by a factory on a new clone. -/
def initializeRewardPool (w : World F) (rewardPoolRegistry forwarder : Address) (n : NewRewardPool) :
    Result (World F) := do
  let (w, redeemTokenContractAddress) ← w.setOrCreateRedeemToken n.rewardPool n.redeemMethod
    n.redeemTokenContractAddress n.redeemToken
  let rp : RewardPoolV1 F := {
    rewardPoolRegistry, name := n.name, owner := n.owner, withdrawAddress := n.withdrawAddress
    redeemTokenContractAddress, forwarder, active := true, redeemMethod := n.redeemMethod
    assetPoolId := 1, assetPoolIdToAssetPool := fun _ => 0
    admins := empty, transferrers := empty, assetPools := empty, assetPoolIds := empty }
  let rp ← rp.addAdmins n.admins
  (w.setRewardPool n.rewardPool rp).createAssetPool n.rewardPool n.redeemTokenAmount n.assetPool

/-- `RewardPoolFactoryV1.create`. What a failed `initialize` returns is decoded before its success is
looked at, so the call fails without a reason. -/
def createRewardPoolClone (w : World F) (rewardPoolRegistry forwarder : Address)
    (n : NewRewardPool) : Result (World F) := do
  require (w.Fresh n.rewardPool) .empty
  ((w.deploy n.rewardPool).initializeRewardPool rewardPoolRegistry forwarder n).mapError fun _ => .empty

end World

end Redeemy
