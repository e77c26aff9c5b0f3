import Redeemy.Model.Tokens

/-!
# The stake manager

The stakes of the relay managers, in any ERC20 that a relay hub asks for, and the hubs that may
penalize them. A stake can be withdrawn by the owner of the manager, some time after it was unlocked;
until then, and for as long after a hub was unauthorized, it can be taken away.

The contract lives at the address `self`, and `now` is the time of the block.
-/

namespace Redeemy

open Fallible

/-- A `uint256` that stands for a time that never comes. -/
def NEVER : Nat := UINT256_SIZE - 1

/-- `IStakeManager.StakeInfo` -/
structure StakeInfo where
  stake : Nat
  unstakeDelay : Nat
  withdrawTime : Nat
  abandonedTime : Nat
  keepaliveTime : Nat
  token : Address
  owner : Address
  deriving DecidableEq, Repr

structure StakeManager where
  owner : Address
  maxUnstakeDelay : Nat
  abandonmentDelay : Nat
  escheatmentDelay : Nat
  devAddress : Address
  burnAddress : Address
  stakes : Address → StakeInfo
  /-- `removalTime`; relay manager, then hub -/
  authorizedHubs : Address → Address → Nat

namespace Tokens

variable {t : Tokens}

/-- `SafeERC20.safeTransfer`, called by `src`. -/
def safeTransfer (t : Tokens) (token src dst : Address) (amount : Nat) : Result Tokens := do
  let (t, answer) ← t.erc20Transfer token src dst amount
  require (answer.returns = true) (.message "SafeERC20: ERC20 operation did not succeed")
  pure t

/-- `SafeERC20.safeTransferFrom`, called by `spender`. -/
def safeTransferFrom (t : Tokens) (token spender src dst : Address) (amount : Nat) :
    Result Tokens := do
  let (t, answer) ← t.erc20TransferFrom token spender src dst amount
  require (answer.returns = true) (.message "SafeERC20: ERC20 operation did not succeed")
  pure t

end Tokens

namespace StakeManager

variable (sm : StakeManager)

def setInfo (relayManager : Address) (info : StakeInfo) : StakeManager :=
  { sm with stakes := Function.update sm.stakes relayManager info }

def setRemovalTime (relayManager relayHub : Address) (removalTime : Nat) : StakeManager :=
  { sm with
    authorizedHubs := Function.update sm.authorizedHubs relayManager
      (Function.update (sm.authorizedHubs relayManager) relayHub removalTime) }

def onlyOwner (sender : Address) : Result Unit :=
  require (sender = sm.owner) (.message "Ownable: caller is not the owner")

def relayOwnerOnly (sender relayManager : Address) : Result Unit :=
  require ((sm.stakes relayManager).owner = sender) (.message "not owner")

def managerOnly (sender : Address) : Result Unit :=
  require ((sm.stakes sender).owner ≠ 0) (.message "not manager")

/-- `getStakeInfo`, called by `sender`. -/
def getStakeInfo (sender relayManager : Address) : StakeInfo × Bool :=
  (sm.stakes relayManager, sm.authorizedHubs relayManager sender = NEVER)

def setRelayManagerOwner (sender owner : Address) : Result StakeManager := do
  require (owner ≠ 0) (.message "invalid owner")
  require ((sm.stakes sender).owner = 0) (.message "already owned")
  pure (sm.setInfo sender { sm.stakes sender with owner })

/-- The token is assumed to call nobody while it is pulled: the source checks it before, and writes the
token and the stake after that call. -/
def stakeForRelayManager (t : Tokens) (self sender token relayManager : Address)
    (unstakeDelay amount : Nat) : Result (StakeManager × Tokens) := do
  sm.relayOwnerOnly sender relayManager
  let info := sm.stakes relayManager
  require (info.unstakeDelay ≤ unstakeDelay) (.message "unstakeDelay cannot be decreased")
  require (unstakeDelay ≤ sm.maxUnstakeDelay) (.message "unstakeDelay too big")
  require (token ≠ 0) (.message "must specify stake token address")
  require (info.token = 0 ∨ info.token = token) (.message "stake token address is incorrect")
  let t ← t.safeTransferFrom token self sender self amount
  let stake ← checkedAdd info.stake amount
  pure (sm.setInfo relayManager { info with token, stake, unstakeDelay }, t)

def unlockStake (now : Nat) (sender relayManager : Address) : Result StakeManager := do
  sm.relayOwnerOnly sender relayManager
  let info := sm.stakes relayManager
  require (info.withdrawTime = 0) (.message "already pending")
  let withdrawTime ← checkedAdd now info.unstakeDelay
  pure (sm.setInfo relayManager { info with withdrawTime })

def withdrawStake (t : Tokens) (self : Address) (now : Nat) (sender relayManager : Address) :
    Result (StakeManager × Tokens) := do
  sm.relayOwnerOnly sender relayManager
  let info := sm.stakes relayManager
  require (0 < info.withdrawTime) (.message "Withdrawal is not scheduled")
  require (info.withdrawTime ≤ now) (.message "Withdrawal is not due")
  let t ← t.safeTransfer info.token self sender info.stake
  pure (sm.setInfo relayManager { info with stake := 0, withdrawTime := 0 }, t)

/-- `_authorizeHub` -/
def authorizeHub (relayManager relayHub : Address) : StakeManager :=
  sm.setRemovalTime relayManager relayHub NEVER

def authorizeHubByOwner (sender relayManager relayHub : Address) : Result StakeManager := do
  sm.relayOwnerOnly sender relayManager
  pure (sm.authorizeHub relayManager relayHub)

def authorizeHubByManager (sender relayHub : Address) : Result StakeManager := do
  sm.managerOnly sender
  pure (sm.authorizeHub sender relayHub)

/-- `_unauthorizeHub` -/
def unauthorizeHub (now : Nat) (relayManager relayHub : Address) : Result StakeManager := do
  require (sm.authorizedHubs relayManager relayHub = NEVER) (.message "hub not authorized")
  let removalTime ← checkedAdd now (sm.stakes relayManager).unstakeDelay
  pure (sm.setRemovalTime relayManager relayHub removalTime)

def unauthorizeHubByOwner (now : Nat) (sender relayManager relayHub : Address) :
    Result StakeManager := do
  sm.relayOwnerOnly sender relayManager
  sm.unauthorizeHub now relayManager relayHub

def unauthorizeHubByManager (now : Nat) (sender relayHub : Address) : Result StakeManager := do
  sm.managerOnly sender
  sm.unauthorizeHub now sender relayHub

/-- `penalizeRelayManager`, called by the hub `sender`. -/
def penalizeRelayManager (t : Tokens) (self : Address) (now : Nat)
    (sender relayManager beneficiary : Address) (amount : Nat) : Result (StakeManager × Tokens) := do
  let removalTime := sm.authorizedHubs relayManager sender
  require (removalTime ≠ 0) (.message "hub not authorized")
  require (now < removalTime) (.message "hub authorization expired")
  let info := sm.stakes relayManager
  require (amount ≤ info.stake) (.message "penalty exceeds stake")
  let toBurn := amount / 2
  let reward := amount - toBurn
  let t ← t.safeTransfer info.token self sm.burnAddress toBurn
  let t ← t.safeTransfer info.token self beneficiary reward
  pure (sm.setInfo relayManager { info with stake := info.stake - amount }, t)

def isRelayEscheatable (now : Nat) (relayManager : Address) : Result Bool :=
  let info := sm.stakes relayManager
  if info.abandonedTime ≠ 0 then do
    let due ← checkedAdd info.abandonedTime sm.escheatmentDelay
    pure (due < now)
  else pure false

def markRelayAbandoned (now : Nat) (sender relayManager : Address) : Result StakeManager := do
  sm.onlyOwner sender
  let info := sm.stakes relayManager
  require (0 < info.stake) (.message "relay manager not staked")
  require (info.abandonedTime = 0) (.message "relay manager already abandoned")
  let due ← checkedAdd info.keepaliveTime sm.abandonmentDelay
  require (due < now) (.message "relay manager was alive recently")
  pure (sm.setInfo relayManager { info with abandonedTime := now })

def escheatAbandonedRelayStake (t : Tokens) (self : Address) (now : Nat)
    (sender relayManager : Address) : Result (StakeManager × Tokens) := do
  sm.onlyOwner sender
  let escheatable ← sm.isRelayEscheatable now relayManager
  require (escheatable = true) (.message "relay server not escheatable yet")
  let info := sm.stakes relayManager
  let t ← t.safeTransfer info.token self sm.devAddress info.stake
  pure (sm.setInfo relayManager { info with stake := 0, withdrawTime := 0 }, t)

def updateRelayKeepaliveTime (now : Nat) (sender relayManager : Address) : Result StakeManager := do
  let info := sm.stakes relayManager
  require (sm.authorizedHubs relayManager sender = NEVER ∨ info.owner = sender)
    (.message "must be called by owner or hub")
  pure (sm.setInfo relayManager { info with abandonedTime := 0, keepaliveTime := now })

def setBurnAddress (sender burnAddress : Address) : Result StakeManager := do
  sm.onlyOwner sender
  pure { sm with burnAddress }

def setDevAddress (sender devAddress : Address) : Result StakeManager := do
  sm.onlyOwner sender
  pure { sm with devAddress }

end StakeManager

/-! ### Its calls -/

inductive StakeCall where
  | setRelayManagerOwner (owner : Address)
  | stakeForRelayManager (token relayManager : Address) (unstakeDelay amount : Nat)
  | unlockStake (relayManager : Address)
  | withdrawStake (relayManager : Address)
  | authorizeHubByOwner (relayManager relayHub : Address)
  | authorizeHubByManager (relayHub : Address)
  | unauthorizeHubByOwner (relayManager relayHub : Address)
  | unauthorizeHubByManager (relayHub : Address)
  | penalizeRelayManager (relayManager beneficiary : Address) (amount : Nat)
  | markRelayAbandoned (relayManager : Address)
  | escheatAbandonedRelayStake (relayManager : Address)
  | updateRelayKeepaliveTime (relayManager : Address)
  | setBurnAddress (burnAddress : Address)
  | setDevAddress (devAddress : Address)
  | transferOwnership (owner : Address)
  | renounceOwnership

namespace StakeManager

/-- A call that moves no tokens. -/
def quietly (t : Tokens) (x : Result StakeManager) : Result (StakeManager × Tokens) := do
  let sm ← x
  pure (sm, t)

def call (sm : StakeManager) (t : Tokens) (self : Address) (now : Nat) (sender : Address) :
    StakeCall → Result (StakeManager × Tokens)
  | .setRelayManagerOwner owner => quietly t (sm.setRelayManagerOwner sender owner)
  | .stakeForRelayManager token relayManager unstakeDelay amount =>
    sm.stakeForRelayManager t self sender token relayManager unstakeDelay amount
  | .unlockStake relayManager => quietly t (sm.unlockStake now sender relayManager)
  | .withdrawStake relayManager => sm.withdrawStake t self now sender relayManager
  | .authorizeHubByOwner relayManager relayHub =>
    quietly t (sm.authorizeHubByOwner sender relayManager relayHub)
  | .authorizeHubByManager relayHub => quietly t (sm.authorizeHubByManager sender relayHub)
  | .unauthorizeHubByOwner relayManager relayHub =>
    quietly t (sm.unauthorizeHubByOwner now sender relayManager relayHub)
  | .unauthorizeHubByManager relayHub => quietly t (sm.unauthorizeHubByManager now sender relayHub)
  | .penalizeRelayManager relayManager beneficiary amount =>
    sm.penalizeRelayManager t self now sender relayManager beneficiary amount
  | .markRelayAbandoned relayManager => quietly t (sm.markRelayAbandoned now sender relayManager)
  | .escheatAbandonedRelayStake relayManager =>
    sm.escheatAbandonedRelayStake t self now sender relayManager
  | .updateRelayKeepaliveTime relayManager =>
    quietly t (sm.updateRelayKeepaliveTime now sender relayManager)
  | .setBurnAddress burnAddress => quietly t (sm.setBurnAddress sender burnAddress)
  | .setDevAddress devAddress => quietly t (sm.setDevAddress sender devAddress)
  | .transferOwnership owner => do
    sm.onlyOwner sender
    require (owner ≠ 0) (.message "Ownable: new owner is the zero address")
    pure ({ sm with owner }, t)
  | .renounceOwnership => do
    sm.onlyOwner sender
    pure ({ sm with owner := 0 }, t)

end StakeManager

end Redeemy
