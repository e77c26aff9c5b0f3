import Redeemy.Model.Boxes
import Redeemy.Model.Tokens

/-!
# The stock of an asset pool

The parts of `AssetPoolV1` that work on one pool and the token contracts: what a deposit stores,
what a withdrawal takes out again, and the draw of one card. The calls that involve other contracts
of the system are in `Redeemy.Model.Redeem` and `Redeemy.Model.System`.
-/

namespace Redeemy

open Fallible EnumerableSet

variable {F : Type → Type} [EnumerableSet F]

namespace AssetPoolV1

/-- Write the storage array `_assetBoxes[assetType][contractAddress]`. -/
def setBoxes (pool : AssetPoolV1 F) (t : AssetType) (c : Address) (boxes : List AssetBox) :
    AssetPoolV1 F :=
  { pool with
    assetBoxes := Function.update pool.assetBoxes t (Function.update (pool.assetBoxes t) c boxes) }

/-- `if (!_contractAddresses[t].contains(c)) _contractAddresses[t].add(c)` -/
def addContract (pool : AssetPoolV1 F) (t : AssetType) (c : Address) : AssetPoolV1 F :=
  if c ∈ values (pool.contractAddresses t) then pool
  else { pool with
    contractAddresses := Function.update pool.contractAddresses t (add (pool.contractAddresses t) c) }

def removeContract (pool : AssetPoolV1 F) (t : AssetType) (c : Address) : AssetPoolV1 F :=
  { pool with
    contractAddresses :=
      Function.update pool.contractAddresses t (remove (pool.contractAddresses t) c) }

def getDepositedAssetTypes (pool : AssetPoolV1 F) : List AssetType :=
  [.ERC721, .ERC20, .NativeToken].filter fun t => 0 < length (pool.contractAddresses t)

end AssetPoolV1

/-! ### The draw of one card -/

/-- The card a fulfilment pays out: one of the cards of the box at `boxIndex`. -/
structure Card where
  assetType : AssetType
  contractAddress : Address
  boxIndex : Nat
  box : AssetBox
  deriving DecidableEq, Repr

/-- The selection of `fulfillRedeemAsset`, with the changes to the storage it makes before anything
is paid. -/
def AssetPoolV1.drawCard (pool : AssetPoolV1 F) (words : List Nat) :
    Result (Card × AssetPoolV1 F) := do
  let assetTypes := pool.getDepositedAssetTypes
  let word ← index words 0
  let i ← checkedMod word assetTypes.length
  let assetType ← index assetTypes i
  let contracts := values (pool.contractAddresses assetType)
  let word ← index words 1
  let i ← checkedMod word contracts.length
  let contractAddress ← index contracts i
  let boxes := pool.assetBoxes assetType contractAddress
  let word ← index words 2
  let (boxIndex, isLastBox) ← getRandomBox boxes word
  let (box, boxes) ← updateAssetBox boxes boxIndex
  let pool := pool.setBoxes assetType contractAddress boxes
  let pool :=
    if isLastBox then
      (pool.removeContract assetType contractAddress).setBoxes assetType contractAddress []
    else pool
  pure (⟨assetType, contractAddress, boxIndex, box⟩, pool)

/-! ### Counting and pricing a deposit -/

/-- `_calculateNumberOfAssets` -/
def calculateNumberOfAssets (assets : Assets) : Result Nat := do
  let n ← assets.erc20Boxes.foldlM
    (fun n boxes => boxes.foldlM (fun n box => checkedAdd n box.numberOfCards) n) 0
  let n ← assets.nativeTokenBoxes.foldlM (fun n box => checkedAdd n box.numberOfCards) n
  assets.erc721TokenIds.foldlM (fun n tokenIds => checkedAdd n tokenIds.length) n

/-- `_getNativeTokenAmount`, and the inner loop of `_getERC20Amounts`. -/
def getNativeTokenAmount (boxes : List AssetBox) : Result Nat :=
  boxes.foldlM (fun total box => do
    let amount ← checkedMul box.amountOrTokenId box.numberOfCards
    checkedAdd total amount) 0

/-- `_getERC20Amounts`: the amount to pull from each contract, with the contract. -/
def getERC20Amounts (assets : Assets) : Result (List (Address × Nat)) :=
  (pairUp assets.erc20ContractAddresses assets.erc20Boxes).mapM fun (c, boxes) => do
    let boxes ← element boxes
    let amount ← getNativeTokenAmount boxes
    pure (c, amount)

/-! ### Deposits

The state of these loops is the pool's storage and the token contracts. `self` is the pool. In the source
the tokens are called in the middle of each iteration: an ERC20 before its contract is listed, an ERC721
after that and before its box is pushed. Here they call nobody in turn. -/

section Deposit

variable (self admin : Address)

/-- Store boxes in the name of `admin`. -/
def storeBoxes (pool : AssetPoolV1 F) (t : AssetType) (c : Address) (boxes : List AssetBox) :
    Result (AssetPoolV1 F) := do
  let stored ← boxes.foldlM
    (fun stored box => updateOrAddBox stored { box with depositer := admin, assetType := t })
    (pool.assetBoxes t c)
  pure (pool.setBoxes t c stored)

/-- One iteration of `_handleErc20TokenDeposits`. -/
def handleErc20TokenDeposit (s : AssetPoolV1 F × Tokens)
    (deposit : (Address × Nat) × Option (List AssetBox)) : Result (AssetPoolV1 F × Tokens) := do
  let (pool, tokens) := s
  let ((c, amount), boxes) := deposit
  let tok ← tokens.erc20Contract c
  require (amount ≤ tok.allowance admin self) (.message "AssetPoolV1: erc20 not approved")
  let (tokens, answer) ← tokens.erc20TransferFrom c self admin self amount
  require (answer.returns = true) (.message "AssetPoolV1: erc20 transfer failed")
  let boxes ← element boxes
  let pool ← storeBoxes admin (pool.addContract .ERC20 c) .ERC20 c boxes
  pure (pool, tokens.recordIf answer.moves ⟨.deposit, self, .ERC20, c, admin, amount⟩)

/-- `_handleErc20TokenDeposits` -/
def handleErc20TokenDeposits (s : AssetPoolV1 F × Tokens) (amounts : List (Address × Nat))
    (boxes : List (List AssetBox)) : Result (AssetPoolV1 F × Tokens) :=
  (pairUp amounts boxes).foldlM (handleErc20TokenDeposit self admin) s

/-- `_handleNativeTokenDeposits`. The value came with the call; the transfer of the source is from
the pool to itself. -/
def handleNativeTokenDeposits (s : AssetPoolV1 F × Tokens) (boxes : List AssetBox) (value : Nat) :
    Result (AssetPoolV1 F × Tokens) := do
  let (pool, tokens) := s
  let pool ← storeBoxes admin (pool.addContract .NativeToken self) .NativeToken self boxes
  let tokens ← tokens.send self self value (.message "AssetPoolV1: transfer failed")
  pure (pool, tokens.record ⟨.deposit, self, .NativeToken, self, admin, value⟩)

/-- One iteration of the inner loop of `_depositERC721Assets`. -/
def depositERC721Token (c : Address) (s : AssetPoolV1 F × Tokens) (tokenId : Nat) :
    Result (AssetPoolV1 F × Tokens) := do
  let (pool, tokens) := s
  let tokens ← tokens.erc721TransferFrom c self admin self tokenId
  let box : AssetBox :=
    { depositer := admin, assetType := .ERC721, numberOfCards := 1, amountOrTokenId := tokenId }
  pure (pool.setBoxes .ERC721 c (pool.assetBoxes .ERC721 c ++ [box]),
    tokens.record ⟨.deposit, self, .ERC721, c, admin, tokenId⟩)

/-- One iteration of the outer loop of `_depositERC721Assets`. -/
def depositERC721Asset (s : AssetPoolV1 F × Tokens) (deposit : Address × Option (List Nat)) :
    Result (AssetPoolV1 F × Tokens) := do
  let (pool, tokens) := s
  let (c, tokenIds) := deposit
  let tok ← tokens.erc721Contract c
  require (tok.isApprovedForAll admin self = true) (.message "AssetPoolV1: erc721 not approved")
  let tokenIds ← element tokenIds
  tokenIds.foldlM (depositERC721Token self admin c) (pool.addContract .ERC721 c, tokens)

/-- `_depositERC721Assets` -/
def depositERC721Assets (s : AssetPoolV1 F × Tokens) (contracts : List Address)
    (tokenIds : List (List Nat)) : Result (AssetPoolV1 F × Tokens) := do
  require (contracts.length = tokenIds.length) (.message "AssetPoolV1: invalid length")
  (pairUp contracts tokenIds).foldlM (depositERC721Asset self admin) s

end Deposit

/-! ### Withdrawals -/

/-- The state of the withdrawal loops: the cards counted by the innermost function, the pool's
storage and the token contracts. In the source a box is found, its token is called, and then the box is
lowered or removed; here the token calls nobody in turn. -/
structure Withdrawal (F : Type → Type) where
  total : Nat
  pool : AssetPoolV1 F
  tokens : Tokens

section Withdraw

/-- A function that counts from zero, called by one that adds its result to a count of its own. -/
def subtotal (f : Withdrawal F → Result (Withdrawal F)) (s : Withdrawal F) :
    Result (Withdrawal F) := do
  let s' ← f { s with total := 0 }
  let total ← checkedAdd s.total s'.total
  pure { s' with total }

-- `accepts` says which addresses can take native tokens at all
variable (accepts : Address → Bool) (self : Address)

/-- One iteration of `_withdrawErc20Asset`. -/
def withdrawErc20Box (c : Address) (s : Withdrawal F) (boxToWithdraw : AssetBox) :
    Result (Withdrawal F) := do
  let boxes := s.pool.assetBoxes .ERC20 c
  let (found, k) ← findErc20AssetBox boxes boxToWithdraw
  require (found = true) (.message "AssetPoolV1: box not found for withdrawal")
  let amount ← checkedMul boxToWithdraw.amountOrTokenId boxToWithdraw.numberOfCards
  let (tokens, answer) ← s.tokens.erc20Transfer c self boxToWithdraw.depositer amount
  let boxes ← lowerCards boxes k boxToWithdraw.numberOfCards
  let total ← checkedAdd s.total boxToWithdraw.numberOfCards
  pure ⟨total, s.pool.setBoxes .ERC20 c boxes,
    tokens.recordIf answer.moves ⟨.withdraw, self, .ERC20, c, boxToWithdraw.depositer, amount⟩⟩

/-- One iteration of `_withdrawErc20Assets`, a call of `_withdrawErc20Asset`. -/
def withdrawErc20Asset (s : Withdrawal F) (withdrawal : Address × Option (List AssetBox)) :
    Result (Withdrawal F) := do
  let (c, boxesToWithdraw) := withdrawal
  let boxesToWithdraw ← element boxesToWithdraw
  subtotal (fun s => boxesToWithdraw.foldlM (withdrawErc20Box self c) s) s

/-- `_withdrawErc20Assets` -/
def withdrawErc20Assets (contracts : List Address) (boxes : List (List AssetBox))
    (s : Withdrawal F) : Result (Withdrawal F) :=
  (pairUp contracts boxes).foldlM (withdrawErc20Asset self) s

/-- One iteration of `_withdrawErc721Asset`. -/
def withdrawErc721Token (c : Address) (s : Withdrawal F) (tokenId : Nat) :
    Result (Withdrawal F) := do
  let boxes := s.pool.assetBoxes .ERC721 c
  let (found, k) ← findErc721AssetBox boxes tokenId
  require (found = true) (.message "AssetPoolV1: token ID not found for withdrawal")
  let box ← index boxes k
  let tokens ← s.tokens.erc721TransferFrom c self self box.depositer tokenId
  let boxes ← removeAssetBox boxes k
  let total ← checkedAdd s.total 1
  pure ⟨total, s.pool.setBoxes .ERC721 c boxes,
    tokens.record ⟨.withdraw, self, .ERC721, c, box.depositer, tokenId⟩⟩

/-- One iteration of `_withdrawErc721Assets`, a call of `_withdrawErc721Asset`. -/
def withdrawErc721Asset (s : Withdrawal F) (withdrawal : Address × Option (List Nat)) :
    Result (Withdrawal F) := do
  let (c, tokenIds) := withdrawal
  let tokenIds ← element tokenIds
  subtotal (fun s => tokenIds.foldlM (withdrawErc721Token self c) s) s

/-- `_withdrawErc721Assets` -/
def withdrawErc721Assets (contracts : List Address) (tokenIds : List (List Nat))
    (s : Withdrawal F) : Result (Withdrawal F) :=
  (pairUp contracts tokenIds).foldlM (withdrawErc721Asset self) s

/-- One iteration of `_withdrawNativeTokenAssets`. -/
def withdrawNativeTokenBox (s : Withdrawal F) (boxToWithdraw : AssetBox) :
    Result (Withdrawal F) := do
  let boxes := s.pool.assetBoxes .NativeToken self
  let (found, k) ← findNativeTokenAssetBox boxes boxToWithdraw
  require (found = true) (.message "AssetPoolV1: native token box not found for withdrawal")
  let amount ← checkedMul boxToWithdraw.amountOrTokenId boxToWithdraw.numberOfCards
  require (accepts boxToWithdraw.depositer = true ∧ s.tokens.refuses boxToWithdraw.depositer = false)
    .empty
  let tokens ← s.tokens.send self boxToWithdraw.depositer amount .empty
  let boxes ← lowerCards boxes k boxToWithdraw.numberOfCards
  let total ← checkedAdd s.total boxToWithdraw.numberOfCards
  pure ⟨total, s.pool.setBoxes .NativeToken self boxes,
    tokens.record ⟨.withdraw, self, .NativeToken, self, boxToWithdraw.depositer, amount⟩⟩

/-- `_withdrawNativeTokenAssets` -/
def withdrawNativeTokenAssets (boxes : List AssetBox) (s : Withdrawal F) : Result (Withdrawal F) :=
  boxes.foldlM (withdrawNativeTokenBox accepts self) s

/-- The three loops of `withdrawAssets`. -/
def withdrawBoxes (assets : Assets) (s : Withdrawal F) : Result (Withdrawal F) := do
  let s ← subtotal
    (withdrawErc20Assets self assets.erc20ContractAddresses assets.erc20Boxes) s
  let s ← subtotal
    (withdrawErc721Assets self assets.erc721ContractAddresses assets.erc721TokenIds) s
  subtotal (withdrawNativeTokenAssets accepts self assets.nativeTokenBoxes) s

end Withdraw

/-! ### The redeem tokens of a pool -/

section RedeemTokens

variable (pools : Address → Option (RewardPoolV1 F)) (self : Address)

/-- `_mintRedeemTokens` -/
def mintRedeemTokens (rp : RewardPoolV1 F) (pool : AssetPoolV1 F) (tokens : Tokens)
    (numberOfDepositedAssets : Nat) : Result Tokens := do
  let redeemTokenAmountToMint ← checkedMul pool.redeemTokenAmount numberOfDepositedAssets
  match rp.redeemMethod with
  | .CustomERC20 =>
    tokens.erc20Mint pools rp.redeemTokenContractAddress self self redeemTokenAmountToMint
  | .CustomERC1155 =>
    tokens.erc1155Mint pools rp.redeemTokenContractAddress self self pool.id redeemTokenAmountToMint
  | .ExistingERC20 => pure tokens

/-- `_burnRedeemTokens`: it calls `mint`, as the source does. -/
def burnRedeemTokens (rp : RewardPoolV1 F) (pool : AssetPoolV1 F) (tokens : Tokens)
    (numberOfWithdrawnAssets : Nat) : Result Tokens := do
  let redeemTokenAmountToBurn ← checkedMul pool.redeemTokenAmount numberOfWithdrawnAssets
  match rp.redeemMethod with
  | .CustomERC20 =>
    tokens.erc20Mint pools rp.redeemTokenContractAddress self self redeemTokenAmountToBurn
  | .CustomERC1155 =>
    tokens.erc1155Mint pools rp.redeemTokenContractAddress self self pool.id redeemTokenAmountToBurn
  | .ExistingERC20 => pure tokens

/-- The transfer of `transferRedeemTokenNumber` and `transferRedeemTokenAmount`. A contract of the
system takes ERC1155 tokens only if it is the pool itself. -/
def transferRedeemToken (system : Address → Bool) (rp : RewardPoolV1 F) (pool : AssetPoolV1 F)
    (tokens : Tokens) (dst : Address) (amount : Nat) : Result Tokens :=
  match rp.redeemMethod with
  | .CustomERC20 => do
    let (tokens, _) ← tokens.erc20Transfer rp.redeemTokenContractAddress self dst amount
    pure tokens
  | .CustomERC1155 =>
    tokens.erc1155SafeTransferFrom pools rp.redeemTokenContractAddress self self dst pool.id amount
      (!system dst || dst == self)
  | .ExistingERC20 => .error (.message "AssetPoolV1: only transferable redeem method allowed")

end RedeemTokens

end Redeemy
