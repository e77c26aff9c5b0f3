import Redeemy.Lib.EnumerableSet
import Redeemy.Lib.Ledger
import Redeemy.Model.Basic

/-!
# The state of the system

The storage of every contract of the repository, the ledgers of the token contracts it talks to,
and the addresses where each of them lives. A value of `World` is the whole chain state the
contracts can see, together with a record of what has happened that no contract stores: which
random-word requests are open, what was charged for them, and which assets the pools moved.

`F` is the implementation of the enumerable sets the contracts use.
-/

namespace Redeemy

open Fallible EnumerableSet

/-- A Solidity `string`. -/
abbrev Bytes := List UInt8

/-! ### Token contracts -/

/-- What an ERC20 contract does when it is asked to move tokens: whether it moves them, and the
value it returns. A contract that follows the standard moves them and returns true, or reverts. -/
structure ERC20Answer where
  moves : Bool
  returns : Bool
  deriving DecidableEq, Repr

/-- An ERC20 contract: the `ERC20RedeemTokenV1` of a reward pool, or a third-party token. -/
structure ERC20 where
  /-- the reward pool an `ERC20RedeemTokenV1` was deployed for -/
  rewardPool : Option Address
  balanceOf : Address → Nat
  /-- owner, then spender -/
  allowance : Address → Address → Nat
  totalSupply : Nat
  blacklisted : Address → Bool
  /-- how a third-party token treats its next transfers; afterwards it follows the standard -/
  answers : List ERC20Answer

/-- A third-party ERC721 contract. One that is not `standard` ignores the transfers it accepts. -/
structure ERC721 where
  standard : Bool
  ownerOf : Nat → Option Address
  getApproved : Nat → Option Address
  /-- owner, then operator -/
  isApprovedForAll : Address → Address → Bool

/-- The `ERC1155RedeemTokenV1` of a reward pool. -/
structure ERC1155 where
  rewardPool : Address
  /-- id, then account -/
  balances : Nat → Address → Nat
  isApprovedForAll : Address → Address → Bool
  blacklisted : Address → Bool

/-- What made a pool take or give an asset. -/
inductive Cause where
  | deposit
  | withdraw
  | fulfill (requestId : Nat)
  deriving DecidableEq, Repr

/-- An asset that came into a pool from `party`, or left it to `party`. -/
structure Movement where
  cause : Cause
  pool : Address
  assetType : AssetType
  contractAddress : Address
  party : Address
  amountOrTokenId : Nat
  deriving DecidableEq, Repr

/-- All token contracts, the native balances, and the movements so far (latest first). -/
structure Tokens where
  erc20 : Address → Option ERC20
  erc721 : Address → Option ERC721
  erc1155 : Address → Option ERC1155
  native : Address → Nat
  /-- accounts that refuse a native transfer with the 2300 gas of `transfer` -/
  refuses : Address → Bool
  log : List Movement

/-! ### The contracts of the repository -/

structure AssetPoolV1 (F : Type → Type) where
  id : Nat
  rewardPool : Address
  redeemTokenAmount : Nat
  totalNumberOfAssets : Nat
  trustedForwarder : Address
  assetBoxes : AssetType → Address → List AssetBox
  contractAddresses : AssetType → F Address

structure RewardPoolV1 (F : Type → Type) where
  rewardPoolRegistry : Address
  name : Bytes
  owner : Address
  withdrawAddress : Address
  redeemTokenContractAddress : Address
  forwarder : Address
  active : Bool
  redeemMethod : RedeemMethod
  /-- the counter: the id of the next asset pool -/
  assetPoolId : Nat
  assetPoolIdToAssetPool : Nat → Address
  admins : F Address
  transferrers : F Address
  assetPools : F Address
  assetPoolIds : F Nat

/-- `RewardVRFConsumerV1.Request` -/
structure Request where
  assetPool : Address
  receiver : Address
  deriving DecidableEq, Repr

structure RewardVRFConsumerV1 where
  rewardPoolRegistry : Address
  owner : Address
  wrapper : Address
  requestIds : Nat → Request

structure RedeemAssetPaymaster where
  rewardPoolRegistry : Address
  owner : Address
  relayHub : Address
  trustedForwarder : Address

structure RewardPoolRegistryV1 where
  owner : Address
  vrfWrapper : Address
  trustedForwarder : Address
  revenueWallet : Address
  rewardPoolCreationFee : Nat
  usedRewardPoolNames : Bytes → Address
  ownerToVRFConsumer : Address → Address
  ownerToPaymaster : Address → Address
  ownerToRewardPools : Address → List Address
  rewardPoolToOwner : Address → Address

/-! ### The world -/

/-- The VRF wrapper: the ids it has returned, and the callbacks it still owes to a consumer. -/
structure VRFWrapper where
  issued : List Nat
  owed : List (Nat × Address)

/-- A payment taken by `redeemAsset`: `amount` redeem tokens of `user`, burned or moved to `sink`,
for the requests `ids` at a price of `redeemTokenAmount` each. -/
structure Charge where
  pool : Address
  user : Address
  redeemTokenAmount : Nat
  amount : Nat
  sink : Option Address
  ids : List Nat
  deriving DecidableEq, Repr

structure World (F : Type → Type) where
  /-- the addresses that only the registry and the factories deploy to: nobody else acts from them -/
  system : Address → Bool
  /-- the system addresses in use -/
  deployed : List Address
  registryAddress : Address
  registry : RewardPoolRegistryV1
  rewardPools : Address → Option (RewardPoolV1 F)
  assetPools : Address → Option (AssetPoolV1 F)
  consumers : Address → Option RewardVRFConsumerV1
  paymasters : Address → Option RedeemAssetPaymaster
  tokens : Tokens
  vrf : VRFWrapper
  /-- the requests no callback has fulfilled yet, with the asset pool they were made for -/
  unfulfilled : List (Nat × Address)
  charges : List Charge

namespace World

variable {F : Type → Type}

/-- A call to a reward pool reverts where there is none. -/
def rewardPool (w : World F) (a : Address) : Result (RewardPoolV1 F) :=
  orThrow (w.rewardPools a) .empty

def assetPool (w : World F) (a : Address) : Result (AssetPoolV1 F) :=
  orThrow (w.assetPools a) .empty

def consumer (w : World F) (a : Address) : Result RewardVRFConsumerV1 :=
  orThrow (w.consumers a) .empty

/-- The registry a contract points to. -/
def registryAt (w : World F) (a : Address) : Result RewardPoolRegistryV1 :=
  orThrow (if a = w.registryAddress then some w.registry else none) .empty

/-- An address a new contract can get. -/
def Fresh (w : World F) (a : Address) : Prop :=
  a ≠ 0 ∧ w.system a = true ∧ a ∉ w.deployed

instance (w : World F) (a : Address) : Decidable (w.Fresh a) :=
  inferInstanceAs (Decidable (a ≠ 0 ∧ w.system a = true ∧ a ∉ w.deployed))

/-- Whether the code at an address takes native and ERC721 tokens: among the contracts of the system
only an asset pool has the functions for it. -/
def accepts (w : World F) (a : Address) : Bool :=
  !w.system a || (w.assetPools a).isSome

theorem rewardPool_eq_ok {w : World F} {a : Address} {rp : RewardPoolV1 F} :
    w.rewardPool a = .ok rp ↔ w.rewardPools a = some rp :=
  orThrow_eq_ok

theorem assetPool_eq_ok {w : World F} {a : Address} {ap : AssetPoolV1 F} :
    w.assetPool a = .ok ap ↔ w.assetPools a = some ap :=
  orThrow_eq_ok

theorem consumer_eq_ok {w : World F} {a : Address} {k : RewardVRFConsumerV1} :
    w.consumer a = .ok k ↔ w.consumers a = some k :=
  orThrow_eq_ok

theorem registryAt_eq_ok {w : World F} {a : Address} {r : RewardPoolRegistryV1} :
    w.registryAt a = .ok r ↔ a = w.registryAddress ∧ r = w.registry := by
  rw [registryAt, orThrow_eq_ok]
  split_ifs with h <;> simp [h, eq_comm]

end World

end Redeemy
