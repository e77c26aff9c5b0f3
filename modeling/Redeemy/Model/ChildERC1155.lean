import Redeemy.Model.System

/-!
# The child token of the bridge

`ChildERC1155`, whose minters are its VRF consumer, the manager of the bridge, and every contract
that names a reward pool of the token's owner as its own. The token lives beside the system, and the
contracts it asks may be contracts of the system or foreign ones.
-/

namespace Redeemy

open Fallible EnumerableSet

def CHILD_CHAIN_MANAGER : Address := 0xA6FA4fB5f76172d178d61B04b0ecd319C5d1C0aa

structure ChildERC1155 where
  owner : Address
  vrfConsumer : Address
  balances : Nat → Address → Nat
  isApprovedForAll : Address → Address → Bool
  baseURI : Bytes
  tokenURIs : Nat → Bytes

namespace ChildERC1155

variable (tok : ChildERC1155)

def setBalances (id : Nat) (balances : Address → Nat) : ChildERC1155 :=
  { tok with balances := Function.update tok.balances id balances }

/-! ### The standard token -/

/-- The balance changes of `_mint`, and of one iteration of `_mintBatch`. -/
def mintOne (dst : Address) (id amount : Nat) : Result ChildERC1155 := do
  let _ ← checkedAdd (tok.balances id dst) amount
  pure (tok.setBalances id (Ledger.credit (tok.balances id) dst amount))

/-- The balance changes of `_burn`, and of one iteration of `_burnBatch`. -/
def burnOne (src : Address) (id amount : Nat) : Result ChildERC1155 := do
  require (amount ≤ tok.balances id src) (.message "ERC1155: burn amount exceeds balance")
  pure (tok.setBalances id (Ledger.debit (tok.balances id) src amount))

/-- The balance changes of `_safeTransferFrom`, and of one iteration of `_safeBatchTransferFrom`. -/
def transferOne (src dst : Address) (id amount : Nat) : Result ChildERC1155 := do
  require (amount ≤ tok.balances id src) (.message "ERC1155: insufficient balance for transfer")
  let _ ← checkedAdd (tok.balances id dst) amount
  pure (tok.setBalances id (Ledger.move (tok.balances id) src dst amount))

/-- A loop over the arrays `ids` and `amounts`. -/
def batch (f : ChildERC1155 → Nat → Nat → Result ChildERC1155) (ids amounts : List Nat) :
    Result ChildERC1155 :=
  (ids.zip amounts).foldlM (fun tok d => f tok d.1 d.2) tok

/-- `_mint` up to the call of the receiver's hook -/
def mint (dst : Address) (id amount : Nat) : Result ChildERC1155 := do
  require (dst ≠ 0) (.message "ERC1155: mint to the zero address")
  tok.mintOne dst id amount

/-- `_mintBatch` up to the call of the receiver's hook -/
def mintBatch (dst : Address) (ids amounts : List Nat) : Result ChildERC1155 := do
  require (dst ≠ 0) (.message "ERC1155: mint to the zero address")
  require (ids.length = amounts.length) (.message "ERC1155: ids and amounts length mismatch")
  tok.batch (fun tok => tok.mintOne dst) ids amounts

/-- `_burn` -/
def burn (src : Address) (id amount : Nat) : Result ChildERC1155 := do
  require (src ≠ 0) (.message "ERC1155: burn from the zero address")
  tok.burnOne src id amount

/-- `_burnBatch` -/
def burnBatch (src : Address) (ids amounts : List Nat) : Result ChildERC1155 := do
  require (src ≠ 0) (.message "ERC1155: burn from the zero address")
  require (ids.length = amounts.length) (.message "ERC1155: ids and amounts length mismatch")
  tok.batch (fun tok => tok.burnOne src) ids amounts

/-- Whether `sender` may move the tokens of `src`. -/
def approved (sender src : Address) : Prop :=
  src = sender ∨ tok.isApprovedForAll src sender = true

instance (sender src : Address) : Decidable (tok.approved sender src) :=
  inferInstanceAs (Decidable (_ ∨ _))

/-- `safeTransferFrom` up to the call of the receiver's hook -/
def safeTransferFrom (sender src dst : Address) (id amount : Nat) : Result ChildERC1155 := do
  require (tok.approved sender src) (.message "ERC1155: caller is not token owner or approved")
  require (dst ≠ 0) (.message "ERC1155: transfer to the zero address")
  tok.transferOne src dst id amount

/-- `safeBatchTransferFrom` up to the call of the receiver's hook -/
def safeBatchTransferFrom (sender src dst : Address) (ids amounts : List Nat) :
    Result ChildERC1155 := do
  require (tok.approved sender src) (.message "ERC1155: caller is not token owner or approved")
  require (ids.length = amounts.length) (.message "ERC1155: ids and amounts length mismatch")
  require (dst ≠ 0) (.message "ERC1155: transfer to the zero address")
  tok.batch (fun tok => tok.transferOne src dst) ids amounts

def onlyOwner (sender : Address) : Result Unit :=
  require (sender = tok.owner) (.message "Ownable: caller is not the owner")

end ChildERC1155

/-! ### The token beside the system -/

variable {F : Type → Type} [EnumerableSet F]

structure Bridge (F : Type → Type) where
  world : World F
  token : ChildERC1155

/-- What contracts outside the system answer to the view functions that a call of the token asks;
`none` is a revert, or an account without code. -/
structure ViewAnswers where
  getRewardPool : Address → Option Address
  getOwner : Address → Option Address

inductive ChildCall where
  | mint (dst : Address) (id amount : Nat)
  | burn
  /-- the arrays that the data is decoded to; it reverts where it cannot be decoded -/
  | deposit (user : Address) (depositData : Option (List Nat × List Nat))
  | withdrawSingle (id amount : Nat)
  | withdrawBatch (ids amounts : List Nat)
  | safeTransferFrom (src dst : Address) (id amount : Nat)
  | safeBatchTransferFrom (src dst : Address) (ids amounts : List Nat)
  | setApprovalForAll (operator : Address) (approved : Bool)
  | setBaseURI (uri : Bytes)
  | setURI (id : Nat) (uri : Bytes)
  | transferOwnership (newOwner : Address)
  | renounceOwnership

/-- A call of the system, or a call of the token. -/
inductive BridgeCall where
  | system (call : Call)
  | token (sender : Address) (answers : ViewAnswers) (c : ChildCall)

namespace Bridge

/-- `IAssetPoolV1(a).getRewardPool()` -/
def getRewardPool (s : Bridge F) (answers : ViewAnswers) (a : Address) : Option Address :=
  match s.world.assetPools a with
  | some pool => some pool.rewardPool
  | none => if s.world.system a then none else answers.getRewardPool a

/-- `IRewardPoolV1(a).getOwner()` -/
def getOwner (s : Bridge F) (answers : ViewAnswers) (a : Address) : Option Address :=
  match s.world.rewardPools a with
  | some rp => some rp.owner
  | none => if s.world.system a then none else answers.getOwner a

def onlyMinter (s : Bridge F) (answers : ViewAnswers) (sender : Address) : Result Unit :=
  if sender = s.token.vrfConsumer then pure ()
  else do
    let rewardPool ← orThrow (s.getRewardPool answers sender) .empty
    let owner ← orThrow (s.getOwner answers rewardPool) .empty
    require (owner = s.token.owner) (.message "ChildRebelRunRedeemToken: only minter allowed")

def childCall (s : Bridge F) (sender : Address) (answers : ViewAnswers) :
    ChildCall → Result ChildERC1155
  | .mint dst id amount => do
    s.onlyMinter answers sender
    s.token.mint dst id amount
  | .burn => pure s.token
  | .deposit user depositData => do
    require (sender = CHILD_CHAIN_MANAGER) (.message "ChildRebelRunRedeemToken: only minter allowed")
    let (ids, amounts) ← orThrow depositData .empty
    require (user ≠ 0) (.message "ChildRebelRunRedeemToken: INVALID_DEPOSIT_USER")
    s.token.mintBatch user ids amounts
  | .withdrawSingle id amount => s.token.burn sender id amount
  | .withdrawBatch ids amounts => s.token.burnBatch sender ids amounts
  | .safeTransferFrom src dst id amount => s.token.safeTransferFrom sender src dst id amount
  | .safeBatchTransferFrom src dst ids amounts =>
    s.token.safeBatchTransferFrom sender src dst ids amounts
  | .setApprovalForAll operator approved => do
    require (sender ≠ operator) (.message "ERC1155: setting approval status for self")
    pure { s.token with
      isApprovedForAll := Function.update s.token.isApprovedForAll sender
        (Function.update (s.token.isApprovedForAll sender) operator approved) }
  | .setBaseURI baseURI => do
    s.token.onlyOwner sender
    pure { s.token with baseURI }
  | .setURI id uri => do
    s.token.onlyOwner sender
    pure { s.token with tokenURIs := Function.update s.token.tokenURIs id uri }
  | .transferOwnership owner => do
    s.token.onlyOwner sender
    require (owner ≠ 0) (.message "Ownable: new owner is the zero address")
    pure { s.token with owner }
  | .renounceOwnership => do
    s.token.onlyOwner sender
    pure { s.token with owner := 0 }

/-- The calls that end with the call of a receiver's hook. -/
def callsReceiver : ChildCall → Bool
  | .mint _ _ _ | .deposit _ _ | .safeTransferFrom _ _ _ _ | .safeBatchTransferFrom _ _ _ _ => true
  | _ => false

def machine (F : Type → Type) [EnumerableSet F] : CallStack.Machine Revert (Bridge F) BridgeCall where
  enter
    | .system call, s => do
      let world ← s.world.enter call
      pure { s with world }
    | .token sender answers c, s => do
      let token ← s.childCall sender answers c
      pure { s with token }
  leave
    | .system call, s => do
      let world ← s.world.leave call
      pure { s with world }
    | .token _ _ _, s => pure s
  yields
    | .system call, s => s.world.yields call
    | .token _ _ c, _ => callsReceiver c
  abort
    | .system call, s => { s with world := s.world.abort call }
    | .token _ _ _, s => s

/-- Who can call the system, and the token: a contract of the system may call the token too. -/
def CanCall (s : Bridge F) : BridgeCall → Prop
  | .system call => s.world.CanCall call
  | .token sender _ _ => sender ≠ 0

instance (s : Bridge F) (call : BridgeCall) : Decidable (s.CanCall call) := by
  unfold CanCall
  split <;> infer_instance

/-- The registry is new, and the token has been deployed: it has no supply. -/
structure Initial (s : Bridge F) : Prop where
  world : s.world.Initial
  token : ∀ id a, s.token.balances id a = 0

end Bridge

end Redeemy
