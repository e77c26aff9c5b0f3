import Redeemy.Lib.CallStack
import Redeemy.Model.Registry

/-!
# The system

Every call an account outside the system can make, and the machine of their runs. Control is handed
over twice: to the revenue wallet while a reward pool is created, and to the receiver of an asset at
the end of a callback. Where a call ends by handing over control and the failure of what follows
leaves nothing behind, what follows is a call of its own. Third-party tokens are assumed to call nobody
while they move tokens, so that a transfer and what a pool stores with it are one step; the machine
without this assumption is in `Redeemy.Model.TokenCode`.
-/

namespace Redeemy

open Fallible EnumerableSet

variable {F : Type → Type} [EnumerableSet F]

/-! ### Calls -/

inductive RegistryCall where
  /-- the owner in `n` is the sender of the call -/
  | createRewardPool (value : Nat) (newVRFConsumer : Address) (n : NewRewardPool)
  | setNewRewardPoolName (pool : Address) (rewardPoolName : Bytes)
  | createPaymaster (newPaymaster : Address)
  | setRewardPoolCreationFee (newRewardPoolCreationFee : Nat)
  | setRevenueWallet (newRevenueWallet : Address)
  | transferOwnership (newOwner : Address)

inductive FactoryCall where
  | createAssetPool (value : Nat) (rewardPool : Address) (id redeemTokenAmount : Nat) (clone : Address)
  /-- a reward pool with another registry is a foreign contract, so the registry is no argument -/
  | createRewardPool (forwarder : Address) (n : NewRewardPool)

inductive RewardPoolCall where
  | createAssetPool (redeemTokenAmount : Nat) (clone : Address)
  | setWithdrawAddress (newWithdrawAddress : Address)
  | setActive (active : Bool)
  | setNewName (name : Bytes)
  | addTransferrers (transferrers : List Address)
  | removeTransferrers (transferrers : List Address)
  | addAdmins (admins : List Address)
  | removeAdmins (admins : List Address)
  | requestRandomWords (receiver : Address) (requestId : Nat)

inductive AssetPoolCall where
  | setRedeemTokenAmount (amount : Nat)
  | depositAssets (value : Nat) (assets : Assets)
  | withdrawAssets (assets : Assets)
  | transferRedeemTokenNumber (dst : Address) (number : Nat)
  | transferRedeemTokenAmount (dst : Address) (amount : Nat)
  /-- `trailing` are the last 20 bytes of the call data -/
  | redeemAsset (trailing : Address) (amountOfAssetsToRedeem : Nat) (requestIds : List Nat)
  | fulfillRedeemAsset (requestId : Nat) (receiver : Address) (words : List Nat)

inductive ConsumerCall where
  | requestRandomWords (assetPool receiver : Address) (requestId : Nat)
  | rawFulfillRandomWords (requestId : Nat) (randomWords : List Nat)

/-- `supports` is the answer to the interface check. -/
inductive PaymasterCall where
  | setRelayHub (hub : Address) (supports : Bool)
  | setTrustedForwarder (forwarder : Address) (supports : Bool)
  | transferOwnership (newOwner : Address)

/-- Calls to the token contract at an address. A third-party ERC20 lets everybody mint. -/
inductive ERC20Call where
  | transfer (dst : Address) (amount : Nat)
  | approve (spender : Address) (amount : Nat)
  | transferFrom (src dst : Address) (amount : Nat)
  | mint (dst : Address) (amount : Nat)
  | burn (src : Address) (amount : Nat)
  | setBlacklisted (user : Address) (blacklisted : Bool)
  | setAnswers (answers : List ERC20Answer)

inductive ERC721Call where
  | transferFrom (src dst : Address) (tokenId : Nat)
  | approve (spender : Address) (tokenId : Nat)
  | setApprovalForAll (operator : Address) (approved : Bool)
  | mint (dst : Address) (tokenId : Nat)
  | burn (tokenId : Nat)

inductive ERC1155Call where
  | safeTransferFrom (src dst : Address) (id amount : Nat)
  | setApprovalForAll (operator : Address) (approved : Bool)
  | mint (dst : Address) (id amount : Nat)
  | burn (src : Address) (id amount : Nat)
  | setBlacklisted (user : Address) (blacklisted : Bool)

inductive Action where
  | registry (c : RegistryCall)
  | factory (c : FactoryCall)
  | rewardPool (a : Address) (c : RewardPoolCall)
  | assetPool (a : Address) (c : AssetPoolCall)
  | consumer (a : Address) (c : ConsumerCall)
  | paymaster (a : Address) (c : PaymasterCall)
  | erc20 (a : Address) (c : ERC20Call)
  | erc721 (a : Address) (c : ERC721Call)
  | erc1155 (a : Address) (c : ERC1155Call)
  | sendNative (dst : Address) (value : Nat)
  | setRefuses (refuses : Bool)

structure Call where
  sender : Address
  action : Action

namespace World

/-! ### What the calls do -/

def registryCall (w : World F) (sender : Address) : RegistryCall → Result (World F)
  | .createRewardPool value _ n => w.createRewardPoolFee sender value n.name
  | .setNewRewardPoolName pool rewardPoolName => w.setNewRewardPoolName sender pool rewardPoolName
  | .createPaymaster newPaymaster => w.createPaymaster sender newPaymaster
  | .setRewardPoolCreationFee rewardPoolCreationFee => do
    require (sender = w.registry.owner) (.message "Ownable: caller is not the owner")
    pure { w with registry := { w.registry with rewardPoolCreationFee } }
  | .setRevenueWallet revenueWallet => do
    require (sender = w.registry.owner) (.message "Ownable: caller is not the owner")
    pure { w with registry := { w.registry with revenueWallet } }
  | .transferOwnership owner => do
    require (sender = w.registry.owner) (.message "Ownable: caller is not the owner")
    require (owner ≠ 0) (.message "Ownable: new owner is the zero address")
    pure { w with registry := { w.registry with owner } }

def factoryCall (w : World F) (sender : Address) : FactoryCall → Result (World F)
  | .createAssetPool value rewardPool id redeemTokenAmount clone =>
    w.createClone sender value rewardPool id redeemTokenAmount clone
  | .createRewardPool forwarder n => w.createRewardPoolClone w.registryAddress forwarder n

/-- A call of a function with the modifier `onlyOwner` that changes the storage of the reward pool. -/
def rewardPoolOnlyOwner (w : World F) (a sender : Address)
    (f : RewardPoolV1 F → Result (RewardPoolV1 F)) : Result (World F) := do
  let rp ← w.rewardPool a
  require (sender = rp.owner) (.message "RewardPoolV1: only owner allowed")
  let rp ← f rp
  pure (w.setRewardPool a rp)

def rewardPoolCall (w : World F) (a sender : Address) : RewardPoolCall → Result (World F)
  | .createAssetPool redeemTokenAmount clone => do
    let rp ← w.rewardPool a
    require (sender = rp.owner) (.message "RewardPoolV1: only owner allowed")
    w.createAssetPool a redeemTokenAmount clone
  | .setWithdrawAddress withdrawAddress =>
    w.rewardPoolOnlyOwner a sender fun rp => pure { rp with withdrawAddress }
  | .setActive active => w.rewardPoolOnlyOwner a sender fun rp => pure { rp with active }
  | .setNewName name => do
    let rp ← w.rewardPool a
    require (sender = rp.rewardPoolRegistry) (.message "RewardPoolV1: only registry allowed")
    pure (w.setRewardPool a { rp with name })
  | .addTransferrers transferrers =>
    w.rewardPoolOnlyOwner a sender fun rp => rp.addTransferrers transferrers
  | .removeTransferrers transferrers =>
    w.rewardPoolOnlyOwner a sender fun rp => pure (rp.removeTransferrers transferrers)
  | .addAdmins admins => w.rewardPoolOnlyOwner a sender fun rp => rp.addAdmins admins
  | .removeAdmins admins => w.rewardPoolOnlyOwner a sender fun rp => pure (rp.removeAdmins admins)
  | .requestRandomWords receiver requestId =>
    w.rewardPoolRequestRandomWords a sender receiver requestId

/-- `depositAssets`, called with `value` on the pool at `self`. -/
def depositAssets (w : World F) (self sender : Address) (value : Nat) (assets : Assets) :
    Result (World F) := do
  let tokens ← w.tokens.send sender self value .empty
  let pool ← w.assetPool self
  let rp ← w.rewardPool pool.rewardPool
  require (rp.isAdmin sender) (.message "AssetPoolV1: only admin allowed")
  let numberOfDepositedAssets ← calculateNumberOfAssets assets
  require (1 ≤ numberOfDepositedAssets) .DepositAtLeastOneAsset
  let totalNumberOfAssets ← checkedAdd pool.totalNumberOfAssets numberOfDepositedAssets
  let nativeTokenAmount ← getNativeTokenAmount assets.nativeTokenBoxes
  require (value = nativeTokenAmount) (.message "AssetPoolV1: invalid native token value sent")
  let amounts ← getERC20Amounts assets
  let s ← handleErc20TokenDeposits self sender ({ pool with totalNumberOfAssets }, tokens)
    amounts assets.erc20Boxes
  let s ← handleNativeTokenDeposits self sender s assets.nativeTokenBoxes value
  let (pool, tokens) ←
    depositERC721Assets self sender s assets.erc721ContractAddresses assets.erc721TokenIds
  let tokens ← mintRedeemTokens w.rewardPools self rp pool tokens numberOfDepositedAssets
  pure { w.setPool self pool with tokens }

/-- `withdrawAssets`, called on the pool at `self`. -/
def withdrawAssets (w : World F) (self sender : Address) (assets : Assets) : Result (World F) := do
  let pool ← w.assetPool self
  let rp ← w.rewardPool pool.rewardPool
  require (sender = rp.owner) (.message "AssetPoolV1: only owner allowed")
  let s ← withdrawBoxes w.accepts self assets ⟨0, pool, w.tokens⟩
  let totalNumberOfAssets ← checkedSub s.pool.totalNumberOfAssets s.total
  let pool := { s.pool with totalNumberOfAssets }
  let tokens ← burnRedeemTokens w.rewardPools self rp pool s.tokens s.total
  pure { w.setPool self pool with tokens }

/-- `transferRedeemTokenNumber` and `transferRedeemTokenAmount`, which differ in the amount. -/
def transferRedeemTokens (w : World F) (self sender dst : Address)
    (amountOf : AssetPoolV1 F → Result Nat) : Result (World F) := do
  let pool ← w.assetPool self
  let rp ← w.rewardPool pool.rewardPool
  require (rp.isTransferrer sender ∨ rp.isAdmin sender)
    (.message "AssetPoolV1: only transferrer allowed")
  require (rp.redeemMethod ≠ .ExistingERC20)
    (.message "AssetPoolV1: only transferable redeem method allowed")
  let amount ← amountOf pool
  let tokens ← transferRedeemToken w.rewardPools self w.system rp pool w.tokens dst amount
  pure { w with tokens }

def assetPoolCall (w : World F) (a sender : Address) : AssetPoolCall → Result (World F)
  | .setRedeemTokenAmount redeemTokenAmount => do
    let pool ← w.assetPool a
    let rp ← w.rewardPool pool.rewardPool
    require (sender = rp.owner) (.message "AssetPoolV1: only owner allowed")
    require (0 < redeemTokenAmount) (.message "AssetPoolV1: amount should be more than zero")
    pure (w.setPool a { pool with redeemTokenAmount })
  | .depositAssets value assets => w.depositAssets a sender value assets
  | .withdrawAssets assets => w.withdrawAssets a sender assets
  | .transferRedeemTokenNumber dst number =>
    w.transferRedeemTokens a sender dst fun pool => checkedMul number pool.redeemTokenAmount
  | .transferRedeemTokenAmount dst amount => w.transferRedeemTokens a sender dst fun _ => pure amount
  | .redeemAsset trailing amountOfAssetsToRedeem requestIds =>
    w.redeemAsset a sender trailing amountOfAssetsToRedeem requestIds
  | .fulfillRedeemAsset requestId receiver words => do
    let (_, w) ← w.fulfillRedeemAsset a sender requestId receiver words
    pure w

def consumerCall (w : World F) (a sender : Address) : ConsumerCall → Result (World F)
  | .requestRandomWords assetPool receiver requestId =>
    w.consumerRequestRandomWords a sender assetPool receiver requestId
  | .rawFulfillRandomWords requestId randomWords =>
    (w.forget requestId a).rawFulfillRandomWords a sender requestId randomWords

def paymasterCall (w : World F) (a sender : Address) (c : PaymasterCall) : Result (World F) := do
  let p ← orThrow (w.paymasters a) .empty
  require (sender = p.owner) (.message "Ownable: caller is not the owner")
  let p ← match c with
    | .setRelayHub relayHub supports => do
      require (supports = true) (.message "target is not a valid IRelayHub")
      pure { p with relayHub }
    | .setTrustedForwarder trustedForwarder supports => do
      require (supports = true) (.message "target is not a valid IForwarder")
      pure { p with trustedForwarder }
    | .transferOwnership owner => do
      require (owner ≠ 0) (.message "Ownable: new owner is the zero address")
      pure { p with owner }
  pure { w with paymasters := Function.update w.paymasters a (some p) }

/-- `RedeemTokenV1.onlyOwner`, for a token with a reward pool. -/
def onlyRedeemTokenOwner (w : World F) (sender rewardPool : Address) : Result Unit := do
  let rp ← w.rewardPool rewardPool
  require (sender = rp.owner) (.message "RedeemTokenV1: only owner allowed")

def erc20Call (w : World F) (a sender : Address) (c : ERC20Call) : Result Tokens := do
  let tok ← w.tokens.erc20Contract a
  match c with
  | .transfer dst amount => do
    let tok ← tok.transfer sender dst amount
    pure (w.tokens.setERC20 a tok)
  | .approve spender amount =>
    pure (w.tokens.setERC20 a { tok with
      allowance := Function.update tok.allowance sender
        (Function.update (tok.allowance sender) spender amount) })
  | .transferFrom src dst amount => do
    let tok ← tok.transferFrom sender src dst amount
    pure (w.tokens.setERC20 a tok)
  | .mint dst amount =>
    if tok.rewardPool.isSome then w.tokens.erc20Mint w.rewardPools a sender dst amount
    else do
      let tok ← tok.mint dst amount
      pure (w.tokens.setERC20 a tok)
  | .burn src amount =>
    if tok.rewardPool.isSome then w.tokens.erc20Burn w.rewardPools a sender src amount
    else do
      require (src = sender) .empty
      let tok ← tok.burn src amount
      pure (w.tokens.setERC20 a tok)
  | .setBlacklisted user blacklisted => do
    match tok.rewardPool with
    | some rewardPool => w.onlyRedeemTokenOwner sender rewardPool
    | none => pure ()
    pure (w.tokens.setERC20 a { tok with
      blacklisted := Function.update tok.blacklisted user blacklisted })
  | .setAnswers answers => do
    require (tok.rewardPool = none) .empty
    pure (w.tokens.setERC20 a { tok with answers })

def erc721Call (w : World F) (a sender : Address) (c : ERC721Call) : Result Tokens := do
  let tok ← w.tokens.erc721Contract a
  match c with
  | .transferFrom src dst tokenId => do
    let tok ← tok.transferFrom sender src dst tokenId
    pure (w.tokens.setERC721 a tok)
  | .approve spender tokenId => do
    let owner ← orThrow (tok.ownerOf tokenId) (.message "ERC721: invalid token ID")
    require (sender = owner ∨ tok.isApprovedForAll owner sender = true)
      (.message "ERC721: approve caller is not token owner or approved for all")
    pure (w.tokens.setERC721 a { tok with
      getApproved := Function.update tok.getApproved tokenId (some spender) })
  | .setApprovalForAll operator approved =>
    pure (w.tokens.setERC721 a { tok with
      isApprovedForAll := Function.update tok.isApprovedForAll sender
        (Function.update (tok.isApprovedForAll sender) operator approved) })
  | .mint dst tokenId => do
    require (tok.ownerOf tokenId = none) (.message "ERC721: token already minted")
    pure (w.tokens.setERC721 a { tok with
      ownerOf := Function.update tok.ownerOf tokenId (some dst)
      getApproved := Function.update tok.getApproved tokenId none })
  | .burn tokenId => do
    require (tok.ownerOf tokenId = some sender)
      (.message "ERC721: caller is not token owner or approved")
    pure (w.tokens.setERC721 a { tok with
      ownerOf := Function.update tok.ownerOf tokenId none
      getApproved := Function.update tok.getApproved tokenId none })

/-- A contract of the system takes ERC1155 tokens only from itself. -/
def erc1155Call (w : World F) (a sender : Address) (c : ERC1155Call) : Result Tokens := do
  let tok ← w.tokens.erc1155Contract a
  match c with
  | .safeTransferFrom src dst id amount =>
    w.tokens.erc1155SafeTransferFrom w.rewardPools a sender src dst id amount (!w.system dst)
  | .setApprovalForAll operator approved =>
    pure (w.tokens.setERC1155 a { tok with
      isApprovedForAll := Function.update tok.isApprovedForAll sender
        (Function.update (tok.isApprovedForAll sender) operator approved) })
  | .mint dst id amount => w.tokens.erc1155Mint w.rewardPools a sender dst id amount
  | .burn src id amount => w.tokens.erc1155Burn w.rewardPools a sender src id amount
  | .setBlacklisted user blacklisted => do
    w.onlyRedeemTokenOwner sender tok.rewardPool
    pure (w.tokens.setERC1155 a { tok with
      blacklisted := Function.update tok.blacklisted user blacklisted })

/-! ### The machine -/

/-- A call up to the point where it hands over control, or to its end. -/
def enter (call : Call) (w : World F) : Result (World F) :=
  match call.action with
  | .registry c => w.registryCall call.sender c
  | .factory c => w.factoryCall call.sender c
  | .rewardPool a c => w.rewardPoolCall a call.sender c
  | .assetPool a c => w.assetPoolCall a call.sender c
  | .consumer a c => w.consumerCall a call.sender c
  | .paymaster a c => w.paymasterCall a call.sender c
  | .erc20 a c => do
    let tokens ← w.erc20Call a call.sender c
    pure { w with tokens }
  | .erc721 a c => do
    let tokens ← w.erc721Call a call.sender c
    pure { w with tokens }
  | .erc1155 a c => do
    let tokens ← w.erc1155Call a call.sender c
    pure { w with tokens }
  | .sendNative dst value => do
    require (w.accepts dst = true) .empty
    let tokens ← w.tokens.send call.sender dst value .empty
    pure { w with tokens }
  | .setRefuses refuses =>
    pure { w with tokens := { w.tokens with
      refuses := Function.update w.tokens.refuses call.sender refuses } }

/-- The rest of a call that has handed over control. -/
def leave (call : Call) (w : World F) : Result (World F) :=
  match call.action with
  | .registry (.createRewardPool _ newVRFConsumer n) => do
    let name ← StringUtils.trim n.name
    w.createRewardPoolRest newVRFConsumer { n with owner := call.sender, name }
  | _ => pure w

def yields (call : Call) (w : World F) : Bool :=
  match call.action with
  | .registry (.createRewardPool _ _ _) => 0 < w.registry.rewardPoolCreationFee
  | .consumer _ (.rawFulfillRandomWords _ _) => true
  | _ => false

/-- What is left of a failed call: the wrapper does not repeat a callback that failed. -/
def abort (call : Call) (w : World F) : World F :=
  match call.action with
  | .consumer a (.rawFulfillRandomWords requestId _) =>
    match w.consumers a with
    | some consumer => if call.sender = consumer.wrapper then w.forget requestId a else w
    | none => w
  | _ => w

def machine (F : Type → Type) [EnumerableSet F] : CallStack.Machine Revert (World F) Call where
  enter := enter
  leave := leave
  yields := yields
  abort := abort

/-! ### Which runs there are -/

/-- Who can call: any address outside the system. The forwarder the registry trusts names the signer
of the request it relays, which no contract of the system is. -/
def CanCall (w : World F) (call : Call) : Prop :=
  call.sender ≠ 0 ∧ w.system call.sender = false ∧
  match call.action with
  | .assetPool _ (.redeemAsset trailing _ _) =>
    call.sender = w.registry.trustedForwarder → w.system trailing = false
  | _ => True

instance (w : World F) (call : Call) : Decidable (w.CanCall call) := by
  unfold CanCall
  split <;> infer_instance

/-- The wrapper makes a callback only if it owes it. -/
def OnceOnly (w : World F) (call : Call) : Prop :=
  match call.action with
  | .consumer a (.rawFulfillRandomWords requestId _) =>
    call.sender = w.registry.vrfWrapper → (requestId, a) ∈ w.vrf.owed
  | _ => True

instance (w : World F) (call : Call) : Decidable (w.OnceOnly call) := by
  unfold OnceOnly
  split <;> infer_instance

/-- The state after the registry was deployed. The addresses of the system have approved nothing. -/
structure Initial (w : World F) : Prop where
  registryAddress : w.registryAddress ≠ 0 ∧ w.system w.registryAddress = true
  deployed : w.deployed = [w.registryAddress]
  rewardPools : ∀ a, w.rewardPools a = none
  assetPools : ∀ a, w.assetPools a = none
  consumers : ∀ a, w.consumers a = none
  paymasters : ∀ a, w.paymasters a = none
  usedRewardPoolNames : ∀ name, w.registry.usedRewardPoolNames name = 0
  ownerToVRFConsumer : ∀ a, w.registry.ownerToVRFConsumer a = 0
  ownerToPaymaster : ∀ a, w.registry.ownerToPaymaster a = 0
  ownerToRewardPools : ∀ a, w.registry.ownerToRewardPools a = []
  rewardPoolToOwner : ∀ a, w.registry.rewardPoolToOwner a = 0
  erc20 : ∀ c tok, w.tokens.erc20 c = some tok → w.system c = false ∧ tok.rewardPool = none ∧
    ∀ a spender, w.system a = true → tok.allowance a spender = 0
  erc721 : ∀ c tok, w.tokens.erc721 c = some tok →
    (∀ a operator, w.system a = true → tok.isApprovedForAll a operator = false) ∧
    ∀ tokenId a, tok.ownerOf tokenId = some a → w.system a = true → tok.getApproved tokenId = none
  erc1155 : ∀ c, w.tokens.erc1155 c = none
  log : w.tokens.log = []
  vrf : w.vrf = ⟨[], []⟩
  unfulfilled : w.unfulfilled = []
  charges : w.charges = []

/-- The configurations reached by the runs from a fresh registry whose calls satisfy `P` too. -/
def Run (P : World F → Call → Prop) (c : CallStack.Config (World F) Call) : Prop :=
  ∃ w₀ : World F, w₀.Initial ∧
    CallStack.Reachable (machine F) (fun w call => w.CanCall call ∧ P w call) w₀ c

/-! ### A registry to start from -/

/-- A fresh registry at 1000, owned by 1; the wrapper is 2 and the forwarder is 3. The account 1 has
tokens of the third-party ERC20 at 10 and of the third-party ERC721 at 11. -/
def genesis : World ListSet where
  system := fun a => 1000 ≤ a && a < 2000
  deployed := [1000]
  registryAddress := 1000
  registry := {
    owner := 1, vrfWrapper := 2, trustedForwarder := 3, revenueWallet := 4, rewardPoolCreationFee := 0
    usedRewardPoolNames := fun _ => 0, ownerToVRFConsumer := fun _ => 0
    ownerToPaymaster := fun _ => 0, ownerToRewardPools := fun _ => [], rewardPoolToOwner := fun _ => 0 }
  rewardPools := fun _ => none
  assetPools := fun _ => none
  consumers := fun _ => none
  paymasters := fun _ => none
  tokens := {
    erc20 := fun a => if a = 10 then some {
      rewardPool := none, balanceOf := fun a => if a = 1 then 1000 else 0, allowance := fun _ _ => 0
      totalSupply := 1000, blacklisted := fun _ => false, answers := [] } else none
    erc721 := fun a => if a = 11 then some {
      standard := true, ownerOf := fun id => if id < 10 then some 1 else none
      getApproved := fun _ => none, isApprovedForAll := fun _ _ => false } else none
    erc1155 := fun _ => none
    native := fun a => if a < 1000 then 1000 else 0
    refuses := fun _ => false
    log := [] }
  vrf := ⟨[], []⟩
  unfulfilled := []
  charges := []

theorem initial_genesis : genesis.Initial where
  registryAddress := by decide
  deployed := rfl
  rewardPools := fun _ => rfl
  assetPools := fun _ => rfl
  consumers := fun _ => rfl
  paymasters := fun _ => rfl
  usedRewardPoolNames := fun _ => rfl
  ownerToVRFConsumer := fun _ => rfl
  ownerToPaymaster := fun _ => rfl
  ownerToRewardPools := fun _ => rfl
  rewardPoolToOwner := fun _ => rfl
  erc20 := by
    intro c tok htok
    simp only [genesis] at htok
    split_ifs at htok with hc
    · cases htok
      exact ⟨hc ▸ by decide, rfl, fun _ _ _ => rfl⟩
  erc721 := by
    intro c tok htok
    simp only [genesis] at htok
    split_ifs at htok
    · cases htok
      exact ⟨fun _ _ _ => rfl, fun _ _ _ _ => rfl⟩
  erc1155 := fun _ => rfl
  log := rfl
  vrf := rfl
  unfulfilled := rfl
  charges := rfl

/-- The account 1 creates a reward pool at 1002, with the asset pool at 1004 and the consumer at 1001.
One card costs 5 redeem tokens, of the ERC20 at 10 or of a new token at 1003. -/
def opening (redeemMethod : RedeemMethod) : CallStack.Label Call :=
  .call ⟨1, .registry (.createRewardPool 0 1001 {
    owner := 1, name := [65], redeemMethod, redeemTokenContractAddress := 10, redeemTokenAmount := 5
    withdrawAddress := 7, admins := [6], rewardPool := 1002, redeemToken := 1003
    assetPool := 1004 })⟩

/-- A call of the asset pool at 1004. -/
def poolCall (sender : Address) (c : AssetPoolCall) : CallStack.Label Call :=
  .call ⟨sender, .assetPool 1004 c⟩

/-- Native boxes, and nothing else. -/
def nativeBoxes (boxes : List AssetBox) : Assets where
  erc20ContractAddresses := []
  erc20Boxes := []
  erc721ContractAddresses := []
  erc721TokenIds := []
  nativeTokenBoxes := boxes

/-- Where the steps `labels` lead from `genesis`, if each of them can be taken and `P` allows it. -/
def after (P : World ListSet → Call → Prop) [∀ w call, Decidable (P w call)]
    (labels : List (CallStack.Label Call)) : CallStack.Config (World ListSet) Call :=
  (CallStack.run (machine ListSet) (fun w call => w.CanCall call ∧ P w call) labels
    ⟨genesis, []⟩).getD ⟨genesis, []⟩

theorem reachable_after (P : World ListSet → Call → Prop) [∀ w call, Decidable (P w call)]
    (labels : List (CallStack.Label Call)) :
    CallStack.Reachable (machine ListSet) (fun w call => w.CanCall call ∧ P w call) genesis
      (after P labels) :=
  CallStack.Reachable.init.run_getD labels

theorem run_after (P : World ListSet → Call → Prop) [∀ w call, Decidable (P w call)]
    (labels : List (CallStack.Label Call)) : Run P (after P labels) :=
  ⟨genesis, initial_genesis, reachable_after P labels⟩

end World

end Redeemy
