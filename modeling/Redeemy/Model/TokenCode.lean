import Redeemy.Model.System

/-!
# Token contracts that call somebody

The functions of `Redeemy.Model.AssetPool` and `Redeemy.Model.Redeem` move a third-party token and go
on in one step. In the source the code of the token runs in between, and may call anybody. Here are the
same functions with that code as a parameter, each of which reads again, after a transfer, what the
source reads again, and the machine of the runs in which they are the calls.

If no token calls anybody, these are the functions and the runs of `Redeemy.Model.System`
(`Redeemy.Proof.TokenCode`).
-/

namespace Redeemy

open Fallible EnumerableSet

variable {F : Type → Type}

/-- What the third-party token contracts do to the world besides their own bookkeeping, before and after
they move what they are asked to move. -/
structure TokenCode (F : Type → Type) where
  before : Address → World F → Result (World F)
  after : Address → World F → Result (World F)

/-- No token contract does more than the standards ask for: it moves the tokens, and the contracts of the
system that it asks whether they take them only answer. What the receiver of a card does when it is asked,
at the end of a callback, is a call of its own. -/
def TokenCode.CallsNobody (code : TokenCode F) : Prop :=
  ∀ c w, code.before c w = .ok w ∧ code.after c w = .ok w

/-- The code of tokens that call nobody. -/
def TokenCode.quiet : TokenCode F := ⟨fun _ w => .ok w, fun _ w => .ok w⟩

theorem TokenCode.callsNobody_quiet : (TokenCode.quiet : TokenCode F).CallsNobody :=
  fun _ _ => ⟨rfl, rfl⟩

namespace Callback

variable (code : TokenCode F)

/-- A call that asks the token at `c` to move tokens. -/
def ask {α : Type} (c : Address) (f : Tokens → Result (Tokens × α)) (w : World F) :
    Result (World F × α) := do
  let w ← code.before c w
  let (tokens, a) ← f w.tokens
  let w ← code.after c { w with tokens }
  pure (w, a)

variable [EnumerableSet F]

section Deposit

variable (self admin : Address)

/-- One iteration of `_handleErc20TokenDeposits`. -/
def handleErc20TokenDeposit (w : World F) (deposit : (Address × Nat) × Option (List AssetBox)) :
    Result (World F) := do
  let ((c, amount), boxes) := deposit
  let tok ← w.tokens.erc20Contract c
  require (amount ≤ tok.allowance admin self) (.message "AssetPoolV1: erc20 not approved")
  let (w, returns) ← ask code c (fun tokens => do
    let (tokens, answer) ← tokens.erc20TransferFrom c self admin self amount
    pure (tokens.recordIf answer.moves ⟨.deposit, self, .ERC20, c, admin, amount⟩, answer.returns)) w
  require (returns = true) (.message "AssetPoolV1: erc20 transfer failed")
  let boxes ← element boxes
  let pool ← w.assetPool self
  let pool ← storeBoxes admin (pool.addContract .ERC20 c) .ERC20 c boxes
  pure (w.setPool self pool)

/-- `_handleErc20TokenDeposits` -/
def handleErc20TokenDeposits (w : World F) (amounts : List (Address × Nat))
    (boxes : List (List AssetBox)) : Result (World F) :=
  (pairUp amounts boxes).foldlM (handleErc20TokenDeposit code self admin) w

/-- `_handleNativeTokenDeposits`, which runs the code of no token. -/
def handleNativeTokenDeposits (w : World F) (boxes : List AssetBox) (value : Nat) :
    Result (World F) := do
  let pool ← w.assetPool self
  let (pool, tokens) ← Redeemy.handleNativeTokenDeposits self admin (pool, w.tokens) boxes value
  pure { w.setPool self pool with tokens }

/-- One iteration of the inner loop of `_depositERC721Assets`: the box is pushed after the call. -/
def depositERC721Token (c : Address) (w : World F) (tokenId : Nat) : Result (World F) := do
  let (w, _) ← ask code c (fun tokens => do
    let tokens ← tokens.erc721TransferFrom c self admin self tokenId
    pure (tokens.record ⟨.deposit, self, .ERC721, c, admin, tokenId⟩, ())) w
  let pool ← w.assetPool self
  let box : AssetBox :=
    { depositer := admin, assetType := .ERC721, numberOfCards := 1, amountOrTokenId := tokenId }
  pure (w.setPool self (pool.setBoxes .ERC721 c (pool.assetBoxes .ERC721 c ++ [box])))

/-- One iteration of the outer loop of `_depositERC721Assets`: the contract is listed before the first
of the calls. -/
def depositERC721Asset (w : World F) (deposit : Address × Option (List Nat)) : Result (World F) := do
  let (c, tokenIds) := deposit
  let tok ← w.tokens.erc721Contract c
  require (tok.isApprovedForAll admin self = true) (.message "AssetPoolV1: erc721 not approved")
  let tokenIds ← element tokenIds
  let pool ← w.assetPool self
  tokenIds.foldlM (depositERC721Token code self admin c) (w.setPool self (pool.addContract .ERC721 c))

/-- `_depositERC721Assets` -/
def depositERC721Assets (w : World F) (contracts : List Address) (tokenIds : List (List Nat)) :
    Result (World F) := do
  require (contracts.length = tokenIds.length) (.message "AssetPoolV1: invalid length")
  (pairUp contracts tokenIds).foldlM (depositERC721Asset code self admin) w

end Deposit

/-- `depositAssets`, called with `value` on the pool at `self`. -/
def depositAssets (w : World F) (self sender : Address) (value : Nat) (assets : Assets) :
    Result (World F) := do
  let tokens ← w.tokens.send sender self value .empty
  let pool ← w.assetPool self
  let rp ← w.rewardPool pool.rewardPool
  require (rp.isAdmin sender) (.message "AssetPoolV1: only admin allowed")
  let numberOfDepositedAssets ← calculateNumberOfAssets assets
  require (1 ≤ numberOfDepositedAssets) .DepositAtLeastOneAsset
  let totalNumberOfAssets ← checkedAdd pool.totalNumberOfAssets numberOfDepositedAssets
  let nativeTokenAmount ← getNativeTokenAmount assets.nativeTokenBoxes
  require (value = nativeTokenAmount) (.message "AssetPoolV1: invalid native token value sent")
  let amounts ← getERC20Amounts assets
  let w ← handleErc20TokenDeposits code self sender
    { w.setPool self { pool with totalNumberOfAssets } with tokens } amounts assets.erc20Boxes
  let w ← handleNativeTokenDeposits self sender w assets.nativeTokenBoxes value
  let w ← depositERC721Assets code self sender w assets.erc721ContractAddresses assets.erc721TokenIds
  let stocked ← w.assetPool self
  -- `REWARD_POOL` never changes
  let rp ← w.rewardPool pool.rewardPool
  let tokens ← mintRedeemTokens w.rewardPools self rp stocked w.tokens numberOfDepositedAssets
  pure { w with tokens }

/-! ### Withdrawals

The state of these loops is the number of cards so far and the world. -/

section Withdraw

/-- A function that counts from zero, called by one that adds its result to a count of its own. -/
def subtotal (f : Nat × World F → Result (Nat × World F)) (s : Nat × World F) :
    Result (Nat × World F) := do
  let (n, w) ← f (0, s.2)
  let total ← checkedAdd s.1 n
  pure (total, w)

variable (self : Address)

/-- One iteration of `_withdrawErc20Asset`: the box is lowered after the call, at the index found
before. -/
def withdrawErc20Box (c : Address) (s : Nat × World F) (boxToWithdraw : AssetBox) :
    Result (Nat × World F) := do
  let (total, w) := s
  let pool ← w.assetPool self
  let (found, k) ← findErc20AssetBox (pool.assetBoxes .ERC20 c) boxToWithdraw
  require (found = true) (.message "AssetPoolV1: box not found for withdrawal")
  let amount ← checkedMul boxToWithdraw.amountOrTokenId boxToWithdraw.numberOfCards
  let (w, _) ← ask code c (fun tokens => do
    let (tokens, answer) ← tokens.erc20Transfer c self boxToWithdraw.depositer amount
    pure (tokens.recordIf answer.moves
      ⟨.withdraw, self, .ERC20, c, boxToWithdraw.depositer, amount⟩, ())) w
  let pool ← w.assetPool self
  let boxes ← lowerCards (pool.assetBoxes .ERC20 c) k boxToWithdraw.numberOfCards
  let total ← checkedAdd total boxToWithdraw.numberOfCards
  pure (total, w.setPool self (pool.setBoxes .ERC20 c boxes))

/-- One iteration of `_withdrawErc20Assets`, a call of `_withdrawErc20Asset`. -/
def withdrawErc20Asset (s : Nat × World F) (withdrawal : Address × Option (List AssetBox)) :
    Result (Nat × World F) := do
  let (c, boxesToWithdraw) := withdrawal
  let boxesToWithdraw ← element boxesToWithdraw
  subtotal (fun s => boxesToWithdraw.foldlM (withdrawErc20Box code self c) s) s

/-- `_withdrawErc20Assets` -/
def withdrawErc20Assets (contracts : List Address) (boxes : List (List AssetBox))
    (s : Nat × World F) : Result (Nat × World F) :=
  (pairUp contracts boxes).foldlM (withdrawErc20Asset code self) s

/-- One iteration of `_withdrawErc721Asset`: the box is removed after the call, at the index found
before. -/
def withdrawErc721Token (c : Address) (s : Nat × World F) (tokenId : Nat) :
    Result (Nat × World F) := do
  let (total, w) := s
  let pool ← w.assetPool self
  let boxes := pool.assetBoxes .ERC721 c
  let (found, k) ← findErc721AssetBox boxes tokenId
  require (found = true) (.message "AssetPoolV1: token ID not found for withdrawal")
  let box ← index boxes k
  let (w, _) ← ask code c (fun tokens => do
    let tokens ← tokens.erc721TransferFrom c self self box.depositer tokenId
    pure (tokens.record ⟨.withdraw, self, .ERC721, c, box.depositer, tokenId⟩, ())) w
  let pool ← w.assetPool self
  let boxes ← removeAssetBox (pool.assetBoxes .ERC721 c) k
  let total ← checkedAdd total 1
  pure (total, w.setPool self (pool.setBoxes .ERC721 c boxes))

/-- One iteration of `_withdrawErc721Assets`, a call of `_withdrawErc721Asset`. -/
def withdrawErc721Asset (s : Nat × World F) (withdrawal : Address × Option (List Nat)) :
    Result (Nat × World F) := do
  let (c, tokenIds) := withdrawal
  let tokenIds ← element tokenIds
  subtotal (fun s => tokenIds.foldlM (withdrawErc721Token code self c) s) s

/-- `_withdrawErc721Assets` -/
def withdrawErc721Assets (contracts : List Address) (tokenIds : List (List Nat))
    (s : Nat × World F) : Result (Nat × World F) :=
  (pairUp contracts tokenIds).foldlM (withdrawErc721Asset code self) s

/-- `_withdrawNativeTokenAssets`: the gas of `transfer` lets nobody call. -/
def withdrawNativeTokenAssets (boxes : List AssetBox) (s : Nat × World F) :
    Result (Nat × World F) := do
  let (total, w) := s
  let pool ← w.assetPool self
  let s ← Redeemy.withdrawNativeTokenAssets w.accepts self boxes ⟨total, pool, w.tokens⟩
  pure (s.total, { w.setPool self s.pool with tokens := s.tokens })

/-- The three loops of `withdrawAssets`. -/
def withdrawBoxes (assets : Assets) (s : Nat × World F) : Result (Nat × World F) := do
  let s ← subtotal
    (withdrawErc20Assets code self assets.erc20ContractAddresses assets.erc20Boxes) s
  let s ← subtotal
    (withdrawErc721Assets code self assets.erc721ContractAddresses assets.erc721TokenIds) s
  subtotal (withdrawNativeTokenAssets self assets.nativeTokenBoxes) s

end Withdraw

/-- `withdrawAssets`, called on the pool at `self`. -/
def withdrawAssets (w : World F) (self sender : Address) (assets : Assets) : Result (World F) := do
  let pool ← w.assetPool self
  let rp ← w.rewardPool pool.rewardPool
  require (sender = rp.owner) (.message "AssetPoolV1: only owner allowed")
  let (total, w) ← withdrawBoxes code self assets (0, w)
  let left ← w.assetPool self
  let totalNumberOfAssets ← checkedSub left.totalNumberOfAssets total
  let left := { left with totalNumberOfAssets }
  let rp ← w.rewardPool pool.rewardPool
  let tokens ← burnRedeemTokens w.rewardPools self rp left w.tokens total
  pure { w.setPool self left with tokens }

/-! ### Redemptions and fulfilments -/

/-- The three branches of `redeemAsset` on the redeem method. Only an existing ERC20 is code that is not
of the repository. -/
def takePayment (w : World F) (self : Address) (rp : RewardPoolV1 F) (pool : AssetPoolV1 F)
    (receiver : Address) (requiredAmount : Nat) : Result (World F × Option Address) :=
  match rp.redeemMethod with
  | .ExistingERC20 => do
    let c := rp.redeemTokenContractAddress
    let tok ← w.tokens.erc20Contract c
    require (requiredAmount ≤ tok.balanceOf receiver) .InsufficientBalance
    require (requiredAmount ≤ tok.allowance receiver self) .InsufficientApproval
    let (w, answer) ← ask code c
      (fun tokens => tokens.erc20TransferFrom c self receiver rp.withdrawAddress requiredAmount) w
    require (answer.returns = true) .TransferFailed
    pure (w, some rp.withdrawAddress)
  | _ => do
    let (tokens, sink) ← w.takePayment self rp pool receiver requiredAmount
    pure ({ w with tokens }, sink)

/-- The state in which the requests of a redemption are made: the cards are reserved and the user
has paid. -/
def redeemPaid (w : World F) (self sender trailing : Address) (amountOfAssetsToRedeem : Nat)
    (requestIds : List Nat) : Result (World F × Charge) := do
  let pool ← w.assetPool self
  let rp ← w.rewardPool pool.rewardPool
  require (rp.active = true) (.message "AssetPoolV1: reward pool status is not active")
  require (1 ≤ amountOfAssetsToRedeem) .RedeemAtLeastOneAsset
  require (amountOfAssetsToRedeem ≤ MAX_NUMBER_OF_REWARDS_PER_TX) .RedeemMoreThanMaxAmount
  require (amountOfAssetsToRedeem ≤ pool.totalNumberOfAssets) .NotEnoughAssetsInThePool
  let reserved := { pool with
    totalNumberOfAssets := pool.totalNumberOfAssets - amountOfAssetsToRedeem }
  let receiver := World.msgSender pool sender trailing
  let requiredAmount ← checkedMul pool.redeemTokenAmount amountOfAssetsToRedeem
  let (w, sink) ← takePayment code (w.setPool self reserved) self rp pool receiver requiredAmount
  pure (w, ⟨self, receiver, pool.redeemTokenAmount, requiredAmount, sink, requestIds⟩)

/-- `AssetPoolV1.redeemAsset`, called on the pool at `self`. -/
def redeemAsset (w : World F) (self sender trailing : Address) (amountOfAssetsToRedeem : Nat)
    (requestIds : List Nat) : Result (World F) := do
  let pool ← w.assetPool self
  let (w, charge) ← redeemPaid code w self sender trailing amountOfAssetsToRedeem requestIds
  require (requestIds.length = amountOfAssetsToRedeem) .empty
  let w ← requestIds.foldlM
    (fun w requestId =>
      w.rewardPoolRequestRandomWords pool.rewardPool self charge.user requestId) w
  pure { w with charges := charge :: w.charges }

/-- The three branches of `fulfillRedeemAsset` on the asset type of the card. -/
def payCard (w : World F) (self receiver : Address) (requestId : Nat) (card : Card) :
    Result (World F) := do
  let c := card.contractAddress
  let amountOrTokenId := card.box.amountOrTokenId
  let paid : Movement :=
    ⟨.fulfill requestId, self, card.assetType, c, receiver, amountOrTokenId⟩
  match card.assetType with
  | .ERC20 =>
    let (w, returns) ← ask code c (fun tokens => do
      let (tokens, answer) ← tokens.erc20Transfer c self receiver amountOrTokenId
      pure (tokens.recordIf answer.moves paid, answer.returns)) w
    require (returns = true) (.message "AssetPoolV1: ERC20 transfer failed")
    pure w
  | .NativeToken =>
    let tokens ← w.payCard self receiver requestId card
    pure { w with tokens }
  | .ERC721 =>
    require (w.accepts receiver = true)
      (.message "ERC721: transfer to non ERC721Receiver implementer")
    let (w, _) ← ask code c (fun tokens => do
      let tokens ← tokens.erc721TransferFrom c self self receiver amountOrTokenId
      pure (tokens.record paid, ())) w
    pure w

/-- `AssetPoolV1.fulfillRedeemAsset`, called by `sender` on the pool at `self`: the storage is written
before the card is paid. -/
def fulfillRedeemAsset (w : World F) (self sender : Address) (requestId : Nat)
    (receiver : Address) (words : List Nat) : Result ((AssetType × Address × Nat) × World F) := do
  let pool ← w.assetPool self
  let rp ← w.rewardPool pool.rewardPool
  let registry ← w.registryAt rp.rewardPoolRegistry
  require (sender = registry.ownerToVRFConsumer rp.owner)
    (.message "AssetPoolV1: only vrf consumer allowed")
  let (card, pool) ← pool.drawCard words
  let w ← payCard code (w.setPool self pool) self receiver requestId card
  pure ((card.assetType, card.contractAddress, card.box.amountOrTokenId),
    { w with unfulfilled := w.unfulfilled.erase (requestId, self) })

/-- `rawFulfillRandomWords` and `fulfillRandomWords` of `RewardVRFConsumerV1`, called by `sender` on
the consumer at `k`. -/
def rawFulfillRandomWords (w : World F) (k sender : Address) (requestId : Nat)
    (randomWords : List Nat) : Result (World F) := do
  let consumer ← w.consumer k
  require (sender = consumer.wrapper) (.message "only VRF V2 wrapper can fulfill")
  let req := consumer.requestIds requestId
  let (_, w) ← fulfillRedeemAsset code w req.assetPool k requestId req.receiver randomWords
  pure w

/-! ### The machine -/

def assetPoolCall (w : World F) (a sender : Address) : AssetPoolCall → Result (World F)
  | .depositAssets value assets => depositAssets code w a sender value assets
  | .withdrawAssets assets => withdrawAssets code w a sender assets
  | .redeemAsset trailing amountOfAssetsToRedeem requestIds =>
    redeemAsset code w a sender trailing amountOfAssetsToRedeem requestIds
  | .fulfillRedeemAsset requestId receiver words => do
    let (_, w) ← fulfillRedeemAsset code w a sender requestId receiver words
    pure w
  -- the rest asks no third-party token for anything
  | c => w.assetPoolCall a sender c

def enter (call : Call) (w : World F) : Result (World F) :=
  match call.action with
  | .assetPool a c => assetPoolCall code w a call.sender c
  | .consumer a (.rawFulfillRandomWords requestId randomWords) =>
    rawFulfillRandomWords code (w.forget requestId a) a call.sender requestId randomWords
  | _ => w.enter call

def machine : CallStack.Machine Revert (World F) Call :=
  { World.machine F with enter := enter code }

/-- The configurations reached by the runs from a fresh registry whose calls satisfy `P` too, where the
third-party tokens run `code`. -/
def Run (P : World F → Call → Prop) (cfg : CallStack.Config (World F) Call) : Prop :=
  ∃ w₀ : World F, w₀.Initial ∧
    CallStack.Reachable (machine code) (fun w call => w.CanCall call ∧ P w call) w₀ cfg

end Callback

end Redeemy
