import Redeemy.Model.State

/-!
# Token contracts

The calls the pools make to token contracts, and the two redeem tokens. Third-party tokens follow
their standards, except that an ERC20 may be told not to move what it is asked to move, or to
return false (`ERC20.answers`), and an ERC721 may ignore transfers (`ERC721.standard`). They call nobody
while they move tokens; `Redeemy.Model.TokenCode` is about those that do.
-/

namespace Redeemy

open Fallible EnumerableSet

/-! ### ERC20 -/

namespace ERC20

/-- A transfer. `_beforeTokenTransfer` of `ERC20RedeemTokenV1` refuses blacklisted senders. -/
def transfer (tok : ERC20) (src dst : Address) (amount : Nat) : Result ERC20 := do
  require (tok.rewardPool.isSome → src ≠ 0) (.message "ERC20: transfer from the zero address")
  require (tok.rewardPool.isSome → dst ≠ 0) (.message "ERC20: transfer to the zero address")
  require (tok.blacklisted src = false) (.message "ERC20RedeemTokenV1: blacklisted")
  require (amount ≤ tok.balanceOf src) (.message "ERC20: transfer amount exceeds balance")
  pure { tok with balanceOf := Ledger.move tok.balanceOf src dst amount }

/-- A transfer leaves an unlimited allowance alone. -/
def spendAllowance (tok : ERC20) (owner spender : Address) (amount : Nat) : Result ERC20 := do
  require (amount ≤ tok.allowance owner spender) (.message "ERC20: insufficient allowance")
  if tok.allowance owner spender = UINT256_SIZE - 1 then pure tok
  else pure { tok with
    allowance := Function.update tok.allowance owner
      (Function.update (tok.allowance owner) spender (tok.allowance owner spender - amount)) }

def transferFrom (tok : ERC20) (spender src dst : Address) (amount : Nat) : Result ERC20 := do
  let tok ← tok.spendAllowance src spender amount
  tok.transfer src dst amount

/-- `_mint` -/
def mint (tok : ERC20) (dst : Address) (amount : Nat) : Result ERC20 := do
  require (dst ≠ 0) (.message "ERC20: mint to the zero address")
  require (tok.blacklisted 0 = false) (.message "ERC20RedeemTokenV1: blacklisted")
  let totalSupply ← checkedAdd tok.totalSupply amount
  pure { tok with totalSupply, balanceOf := Ledger.credit tok.balanceOf dst amount }

/-- `_burn` -/
def burn (tok : ERC20) (src : Address) (amount : Nat) : Result ERC20 := do
  require (src ≠ 0) (.message "ERC20: burn from the zero address")
  require (tok.blacklisted src = false) (.message "ERC20RedeemTokenV1: blacklisted")
  require (amount ≤ tok.balanceOf src) (.message "ERC20: burn amount exceeds balance")
  pure { tok with
    totalSupply := tok.totalSupply - amount
    balanceOf := Ledger.debit tok.balanceOf src amount }

end ERC20

/-! ### ERC721 -/

/-- `transferFrom`, and `safeTransferFrom` up to the call of the receiver's hook. -/
def ERC721.transferFrom (tok : ERC721) (operator src dst : Address) (tokenId : Nat) :
    Result ERC721 :=
  if tok.standard then do
    require (tok.ownerOf tokenId = some src) (.message "ERC721: transfer from incorrect owner")
    require (operator = src ∨ tok.isApprovedForAll src operator = true ∨
        tok.getApproved tokenId = some operator)
      (.message "ERC721: caller is not token owner or approved")
    require (dst ≠ 0) (.message "ERC721: transfer to the zero address")
    pure { tok with
      ownerOf := Function.update tok.ownerOf tokenId (some dst)
      getApproved := Function.update tok.getApproved tokenId none }
  else pure tok

/-! ### ERC1155 -/

namespace ERC1155

/-- `_mint`. The receiver's hook is the caller's concern. -/
def mint (tok : ERC1155) (dst : Address) (id amount : Nat) : Result ERC1155 := do
  require (dst ≠ 0) (.message "ERC1155: mint to the zero address")
  require (tok.blacklisted 0 = false) (.message "RedeemTokenV1: address is blacklisted")
  let _ ← checkedAdd (tok.balances id dst) amount
  pure { tok with
    balances := Function.update tok.balances id (Ledger.credit (tok.balances id) dst amount) }

/-- `_burn` -/
def burn (tok : ERC1155) (src : Address) (id amount : Nat) : Result ERC1155 := do
  require (src ≠ 0) (.message "ERC1155: burn from the zero address")
  require (tok.blacklisted src = false) (.message "RedeemTokenV1: address is blacklisted")
  require (amount ≤ tok.balances id src) (.message "ERC1155: burn amount exceeds balance")
  pure { tok with
    balances := Function.update tok.balances id (Ledger.debit (tok.balances id) src amount) }

/-- `safeTransferFrom` up to the call of the receiver's hook; `accepts` says whether a contract of
the system takes the tokens. -/
def safeTransferFrom (tok : ERC1155) (operator src dst : Address) (id amount : Nat)
    (accepts : Bool) : Result ERC1155 := do
  require (src = operator ∨ tok.isApprovedForAll src operator = true)
    (.message "ERC1155: caller is not token owner or approved")
  require (dst ≠ 0) (.message "ERC1155: transfer to the zero address")
  require (tok.blacklisted src = false) (.message "RedeemTokenV1: address is blacklisted")
  require (amount ≤ tok.balances id src) (.message "ERC1155: insufficient balance for transfer")
  let _ ← checkedAdd (tok.balances id dst) amount
  require (accepts = true) (.message "ERC1155: ERC1155Receiver rejected tokens")
  pure { tok with
    balances := Function.update tok.balances id (Ledger.move (tok.balances id) src dst amount) }

end ERC1155

/-! ### Calls to token contracts -/

namespace Tokens

variable {F : Type → Type} [EnumerableSet F]

def setERC20 (t : Tokens) (c : Address) (tok : ERC20) : Tokens :=
  { t with erc20 := Function.update t.erc20 c (some tok) }

def setERC721 (t : Tokens) (c : Address) (tok : ERC721) : Tokens :=
  { t with erc721 := Function.update t.erc721 c (some tok) }

def setERC1155 (t : Tokens) (c : Address) (tok : ERC1155) : Tokens :=
  { t with erc1155 := Function.update t.erc1155 c (some tok) }

/-- A call to an ERC20 reverts where there is none. -/
def erc20Contract (t : Tokens) (c : Address) : Result ERC20 :=
  orThrow (t.erc20 c) .empty

def erc721Contract (t : Tokens) (c : Address) : Result ERC721 :=
  orThrow (t.erc721 c) .empty

def erc1155Contract (t : Tokens) (c : Address) : Result ERC1155 :=
  orThrow (t.erc1155 c) .empty

/-- A call that asks an ERC20 to move tokens: the contract's next answer decides what happens. -/
def erc20Call (t : Tokens) (c : Address) (f : ERC20 → Result ERC20) :
    Result (Tokens × ERC20Answer) := do
  let tok ← t.erc20Contract c
  let answer := tok.answers.headD ⟨true, true⟩
  let tok := { tok with answers := tok.answers.tail }
  let tok ← if answer.moves then f tok else pure tok
  pure (t.setERC20 c tok, answer)

/-- `IERC20.transfer`, called by `src`. -/
def erc20Transfer (t : Tokens) (c src dst : Address) (amount : Nat) : Result (Tokens × ERC20Answer) :=
  t.erc20Call c fun tok => tok.transfer src dst amount

/-- `IERC20.transferFrom`, called by `spender`. -/
def erc20TransferFrom (t : Tokens) (c spender src dst : Address) (amount : Nat) :
    Result (Tokens × ERC20Answer) :=
  t.erc20Call c fun tok => tok.transferFrom spender src dst amount

/-- `IERC721.transferFrom`, called by `operator`. -/
def erc721TransferFrom (t : Tokens) (c operator src dst : Address) (tokenId : Nat) : Result Tokens := do
  let tok ← t.erc721Contract c
  let tok ← tok.transferFrom operator src dst tokenId
  pure (t.setERC721 c tok)

/-- Native tokens sent along with a call or by themselves. -/
def send (t : Tokens) (src dst : Address) (value : Nat) (error : Revert) : Result Tokens := do
  require (value ≤ t.native src) error
  pure { t with native := Ledger.move t.native src dst value }

def record (t : Tokens) (m : Movement) : Tokens :=
  { t with log := m :: t.log }

/-- Only what was moved is recorded. -/
def recordIf (t : Tokens) (moves : Bool) (m : Movement) : Tokens :=
  if moves then t.record m else t

/-! ### The redeem tokens

`pools` are the reward pools the tokens ask. -/

variable (pools : Address → Option (RewardPoolV1 F))

/-- `ERC20RedeemTokenV1.mint`, called by `sender`. -/
def erc20Mint (t : Tokens) (c sender dst : Address) (amount : Nat) : Result Tokens := do
  let tok ← t.erc20Contract c
  let a ← orThrow tok.rewardPool .empty
  let rp ← orThrow (pools a) .empty
  require (sender ∈ values rp.assetPools) (.message "RedeemTokenV1: only asset pool allowed")
  let tok ← tok.mint dst amount
  pure (t.setERC20 c tok)

/-- `ERC20RedeemTokenV1.burn`, called by `sender`. -/
def erc20Burn (t : Tokens) (c sender src : Address) (amount : Nat) : Result Tokens := do
  let tok ← t.erc20Contract c
  let a ← orThrow tok.rewardPool .empty
  let rp ← orThrow (pools a) .empty
  require (sender ∈ values rp.assetPools) (.message "RedeemTokenV1: only asset pool allowed")
  let tok ← tok.burn src amount
  pure (t.setERC20 c tok)

/-- `onlyValidAssetPool` and the id check of `_beforeTokenTransfer`: `sender` is the asset pool with
that id. -/
def onlyValidAssetPool (tok : ERC1155) (sender : Address) (id : Nat) : Result Unit := do
  let rp ← orThrow (pools tok.rewardPool) .empty
  require (rp.assetPoolIdToAssetPool id = sender)
    (.message "RedeemTokenV1: only asset pool allowed with correct asset pool id")
  require (rp.assetPoolIdToAssetPool id ≠ 0) (.message "RedeemTokenV1: invalid id")

/-- `ERC1155RedeemTokenV1.mint`, called by `sender`. -/
def erc1155Mint (t : Tokens) (c sender dst : Address) (id amount : Nat) : Result Tokens := do
  let tok ← t.erc1155Contract c
  onlyValidAssetPool pools tok sender id
  let tok ← tok.mint dst id amount
  pure (t.setERC1155 c tok)

/-- `ERC1155RedeemTokenV1.burn`, called by `sender`. -/
def erc1155Burn (t : Tokens) (c sender src : Address) (id amount : Nat) : Result Tokens := do
  let tok ← t.erc1155Contract c
  onlyValidAssetPool pools tok sender id
  let tok ← tok.burn src id amount
  pure (t.setERC1155 c tok)

/-- `ERC1155RedeemTokenV1.safeTransferFrom`, called by `operator`. -/
def erc1155SafeTransferFrom (t : Tokens) (c operator src dst : Address) (id amount : Nat)
    (accepts : Bool) : Result Tokens := do
  let tok ← t.erc1155Contract c
  let rp ← orThrow (pools tok.rewardPool) .empty
  require (rp.assetPoolIdToAssetPool id ≠ 0) (.message "RedeemTokenV1: invalid id")
  let tok ← tok.safeTransferFrom operator src dst id amount accepts
  pure (t.setERC1155 c tok)

end Tokens

end Redeemy
