import Redeemy.Lib.Abi
import Redeemy.Lib.Handover
import Redeemy.Model.Penalizer
import Redeemy.Model.StakeManager

/-!
# The relay hub

`RelayHub` holds the native tokens of the paymasters, and pays from them the relay workers that call
`relayCall`. It hands over control to the paymaster, to the forwarder and its target, and to the
receivers of withdrawals. What the paymaster and the target do, a relay call runs in a call of its own
that can be undone (`innerRelayCall`), and whose outcome comes back as bytes. The penalizer makes it take
the stake of a relay manager away.

The gas that is left at the points where the hub measures it, the answer of the paymaster to
`getGasAndDataLimits`, the gas price and the base fee are part of a call.
-/

namespace Redeemy

open Fallible Handover

/-! ### Data -/

/-- `IRelayHub.RelayHubConfig` -/
structure RelayHubConfig where
  maxWorkerCount : Nat
  gasReserve : Nat
  postOverhead : Nat
  gasOverhead : Nat
  minimumUnstakeDelay : Nat
  devAddress : Address
  devFee : UInt8
  baseRelayFee : Fin (2 ^ 80)
  pctRelayFee : UInt16

inductive RelayCallStatus where
  | OK
  | RelayedCallFailed
  | RejectedByPreRelayed
  | RejectedByForwarder
  | RejectedByRecipientRevert
  | PostRelayedFailed
  | PaymasterBalanceChanged
  deriving DecidableEq, Repr

inductive HubEvent where
  | relayHubConfigured (config : RelayHubConfig)
  | relayWorkersAdded (relayManager : Address) (newRelayWorkers : List Address) (workersCount : Nat)
  | withdrawn (account dest : Address) (amount : Nat)
  | deposited (paymaster sender : Address) (amount : Nat)
  | stakingTokenDataChanged (token : Address) (minimumStake : Nat)
  | transactionRejectedByPaymaster (relayManager paymaster src dst relayWorker : Address)
    (innerGasUsed : Nat) (reason : Bytes)
  | transactionRelayed (relayManager relayWorker src dst paymaster : Address)
    (status : RelayCallStatus) (charge : Nat)
  | transactionResult (status : RelayCallStatus) (returnValue : Bytes)
  | hubDeprecated (deprecationTime : Nat)
  | abandonedRelayManagerBalanceEscheated (relayManager : Address) (balance : Nat)
  | ownershipTransferred (newOwner : Address)

structure RelayHub where
  owner : Address
  config : RelayHubConfig
  minimumStakePerToken : Address → Nat
  workerToManager : Address → Address
  workerCount : Address → Nat
  balances : Address → Nat
  deprecationTime : Nat
  /-- the events so far, latest first -/
  events : List HubEvent

/-- The storage before the constructor runs. -/
def RelayHub.blank : RelayHub where
  owner := 0
  config := ⟨0, 0, 0, 0, 0, 0, 0, 0, 0⟩
  minimumStakePerToken := fun _ => 0
  workerToManager := fun _ => 0
  workerCount := fun _ => 0
  balances := fun _ => 0
  deprecationTime := NEVER
  events := []

/-- The state the constructor leaves. -/
def RelayHub.deployed (owner : Address) (config : RelayHubConfig) : RelayHub :=
  { RelayHub.blank with
    owner, config, events := [.relayHubConfigured config, .ownershipTransferred owner] }

/-- The contracts of a deployment, the answers of `supportsInterface`, and the functions of the chain. -/
structure Deployment where
  hub : Address
  stakeManager : Address
  penalizer : Address
  batchGateway : Address
  relayRegistrar : Address
  isPaymaster : Address → Bool
  crypto : Crypto

/-- The hub, the stake manager and the penalizer, with the tokens they hold. -/
structure Gsn where
  blockNumber : Nat
  timestamp : Nat
  tokens : Tokens
  penalizer : Penalizer
  stakeManager : StakeManager
  hub : RelayHub

/-- `GsnTypes.RelayData` -/
structure RelayData where
  maxFeePerGas : Nat
  maxPriorityFeePerGas : Nat
  transactionCalldataGasUsed : Nat
  relayWorker : Address
  paymaster : Address
  forwarder : Address
  paymasterData : Bytes
  clientId : Nat

/-- `GsnTypes.RelayRequest` -/
structure RelayRequest where
  request : FullForwardRequest
  relayData : RelayData

/-- `IPaymaster.GasAndDataLimits` -/
structure GasAndDataLimits where
  acceptanceBudget : Nat
  preRelayedCallGasLimit : Nat
  postRelayedCallGasLimit : Nat
  calldataSizeLimit : Nat

/-- What `aggregateGasleft` and `gasleft` say in the course of a relay call. -/
structure GasReadings where
  initial : Nat
  beforeInnerLimit : Nat
  beforeInner : Nat
  afterInner : Nat
  atCharge : Nat

/-- A call of `relayCall`, with what it can see of its transaction and its block. -/
structure RelayCall where
  /-- `tx.origin` -/
  origin : Address
  gasprice : Nat
  basefee : Nat
  /-- `msg.data.length` -/
  dataLength : Nat
  domainSeparatorName : Bytes
  maxAcceptanceBudget : Nat
  relayRequest : RelayRequest
  signature : Bytes
  approvalData : Bytes
  limits : Option GasAndDataLimits
  gas : GasReadings

/-! ### Status and data of the inner call -/

namespace RelayCallStatus

def toNat : RelayCallStatus → Nat
  | OK => 0
  | RelayedCallFailed => 1
  | RejectedByPreRelayed => 2
  | RejectedByForwarder => 3
  | RejectedByRecipientRevert => 4
  | PostRelayedFailed => 5
  | PaymasterBalanceChanged => 6

def ofNat? : Nat → Option RelayCallStatus
  | 0 => some OK
  | 1 => some RelayedCallFailed
  | 2 => some RejectedByPreRelayed
  | 3 => some RejectedByForwarder
  | 4 => some RejectedByRecipientRevert
  | 5 => some PostRelayedFailed
  | 6 => some PaymasterBalanceChanged
  | _ => none

end RelayCallStatus

def MAX_RETURN_SIZE : Nat := 1024

/-- `truncateInPlace` -/
def truncate (data : Bytes) : Bytes := data.take MAX_RETURN_SIZE

/-- `abi.encode(status, ret)` -/
def encodeStatus (status : RelayCallStatus) (ret : Bytes) : Bytes :=
  Abi.word status.toNat ++ Abi.word 64 ++ Abi.tail ret

/-- The data that `revertWithStatus` reverts with. -/
def revertWithStatus (status : RelayCallStatus) (ret : Bytes) : Bytes :=
  truncate (encodeStatus status ret)

/-- `abi.decode(data, (RelayCallStatus, bytes))` -/
def decodeStatus (data : Bytes) : Option (RelayCallStatus × Bytes) := do
  guard (64 ≤ data.length)
  let status ← RelayCallStatus.ofNat? (Abi.wordAt data 0)
  let ret ← Abi.bytesAt data 32
  pure (status, ret)

/-- A word that spells a `bool`. -/
def boolAt (data : Bytes) (pos : Nat) : Option Bool :=
  match Abi.wordAt data pos with
  | 0 => some false
  | 1 => some true
  | _ => none

/-- `abi.decode(data, (bytes, bool))`, what `preRelayedCall` returns; the context goes back to the
paymaster. -/
def decodeContext (data : Bytes) : Option Bool := do
  guard (64 ≤ data.length)
  let _ ← Abi.bytesAt data 0
  boolAt data 32

/-- `abi.decode(data, (bool, bytes))`, what the forwarder returns. -/
def decodeExecuted (data : Bytes) : Option (Bool × Bytes) := do
  guard (64 ≤ data.length)
  let callSuccess ← boolAt data 0
  let ret ← Abi.bytesAt data 32
  pure (callSuccess, ret)

/-! ### The contract -/

namespace RelayHub

variable (h : RelayHub)

def emit (event : HubEvent) : RelayHub := { h with events := event :: h.events }

def setBalance (account : Address) (balance : Nat) : RelayHub :=
  { h with balances := Function.update h.balances account balance }

def onlyOwner (sender : Address) : Result Unit :=
  require (sender = h.owner) (.message "Ownable: caller is not the owner")

def setConfiguration (sender : Address) (config : RelayHubConfig) : Result RelayHub := do
  h.onlyOwner sender
  require (config.devFee < 100) (.message "dev fee too high")
  pure ({ h with config }.emit (.relayHubConfigured config))

def setMinimumStakes (sender : Address) (token : List Address) (minimumStake : List Nat) :
    Result RelayHub := do
  h.onlyOwner sender
  require (token.length = minimumStake.length) (.message "setMinimumStakes: wrong length")
  pure ((token.zip minimumStake).foldl (fun h x =>
    { h with minimumStakePerToken := Function.update h.minimumStakePerToken x.1 x.2 }.emit
      (.stakingTokenDataChanged x.1 x.2)) h)

def isDeprecated (now : Nat) : Prop := h.deprecationTime ≤ now

instance (now : Nat) : Decidable (h.isDeprecated now) := inferInstanceAs (Decidable (_ ≤ _))

def deprecateHub (now : Nat) (sender : Address) (deprecationTime : Nat) : Result RelayHub := do
  h.onlyOwner sender
  require (¬ h.isDeprecated now) (.message "Already deprecated")
  pure ({ h with deprecationTime }.emit (.hubDeprecated deprecationTime))

/-- `calculateCharge` in a transaction with that gas price, and a block with that base fee. -/
def calculateCharge (gasprice basefee gasUsed : Nat) (relayData : RelayData) : Result Nat := do
  let basefee := if relayData.maxFeePerGas = relayData.maxPriorityFeePerGas then 0 else basefee
  let sum ← checkedAdd basefee relayData.maxPriorityFeePerGas
  let chargeableGasPrice := min relayData.maxFeePerGas (min gasprice sum)
  -- the sum with the constant is one of `uint16`
  require (h.config.pctRelayFee.toNat + 100 < 2 ^ 16) (.panic 0x11)
  let product ← checkedMul gasUsed chargeableGasPrice
  let product ← checkedMul product (h.config.pctRelayFee.toNat + 100)
  checkedAdd h.config.baseRelayFee.val (product / 100)

/-- The product wraps around. -/
def calculateDevCharge (charge : Nat) : Nat :=
  if h.config.devFee = 0 then 0 else charge * h.config.devFee.toNat % UINT256_SIZE / 100

def transferOwnership (sender owner : Address) : Result RelayHub := do
  h.onlyOwner sender
  require (owner ≠ 0) (.message "Ownable: new owner is the zero address")
  pure ({ h with owner }.emit (.ownershipTransferred owner))

def renounceOwnership (sender : Address) : Result RelayHub := do
  h.onlyOwner sender
  pure ({ h with owner := 0 }.emit (.ownershipTransferred 0))

end RelayHub

/-! ### A relay call in progress -/

/-- What a relay call knows when it calls `innerRelayCall`. -/
structure Relaying where
  call : RelayCall
  sender : Address
  relayManager : Address
  limits : GasAndDataLimits
  /-- the state that a failure of the inner call goes back to -/
  before : Gsn

/-- Whom the inner call waits for. -/
inductive Stage where
  | preRelayedCall
  | execute (rejectOnRecipientRevert : Bool)
  | postRelayedCall (relayedCallSuccess : Bool) (relayedCallReturnValue : Bytes)

/-- What is left of a call. -/
inductive Rest where
  /-- the payment of `amount` to `dest` is under way, and the others are to follow -/
  | withdrawing (account dest : Address) (amount : Nat) (rest : List (Nat × Option Address))
  | relaying (r : Relaying) (stage : Stage)
  /-- the penalizer calls a contract that it was told is a hub -/
  | penalizing

namespace Relaying

variable (r : Relaying)

def relayData : RelayData := r.call.relayRequest.relayData

def request : FullForwardRequest := r.call.relayRequest.request

def paymaster : Address := r.relayData.paymaster

/-- Whether the paymaster does not pay. -/
def isRejected (success : Bool) (status : RelayCallStatus) (innerGasUsed : Nat) : Result Bool :=
  if success then pure false
  else if status = .RejectedByPreRelayed then pure true
  else do
    let budget ← checkedAdd r.limits.acceptanceBudget r.relayData.transactionCalldataGasUsed
    pure (innerGasUsed ≤ budget &&
      (status = .RejectedByForwarder || status = .RejectedByRecipientRevert))

def payDev (devCharge : Nat) (h : RelayHub) : Result RelayHub :=
  if 0 < devCharge then do
    let balance ← checkedAdd (h.balances h.config.devAddress) devCharge
    pure (h.setBalance h.config.devAddress balance)
  else pure h

/-- The charge of a relay call, and its distribution. -/
def settle (status : RelayCallStatus) (h : RelayHub) : Result RelayHub := do
  let used ← checkedSub r.call.gas.initial r.call.gas.atCharge
  let used ← checkedAdd r.relayData.transactionCalldataGasUsed used
  let gasUsed ← checkedAdd used h.config.gasOverhead
  let charge ← h.calculateCharge r.call.gasprice r.call.basefee gasUsed r.relayData
  let devCharge := h.calculateDevCharge charge
  let balance ← checkedSub (h.balances r.paymaster) charge
  let h := h.setBalance r.paymaster balance
  let share ← checkedSub charge devCharge
  let balance ← checkedAdd (h.balances r.relayManager) share
  let h ← payDev devCharge (h.setBalance r.relayManager balance)
  pure (h.emit (.transactionRelayed r.relayManager r.sender r.request.src r.request.dst r.paymaster
    status charge))

/-- The end of a relay call. -/
def close (rejected : Bool) (status : RelayCallStatus) (innerGasUsed : Nat)
    (relayedCallReturnValue : Bytes) (h : RelayHub) : Result RelayHub :=
  if rejected then
    pure (h.emit (.transactionRejectedByPaymaster r.relayManager r.paymaster r.request.src
      r.request.dst r.sender innerGasUsed relayedCallReturnValue))
  else r.settle status h

/-- The rest of a relay call, after its inner call has returned, or reverted, with `data`. -/
def finish (success : Bool) (data : Bytes) (s : Gsn) : Result Gsn := do
  let innerGasUsed ← checkedSub r.call.gas.beforeInner r.call.gas.afterInner
  let (status, relayedCallReturnValue) ← orThrow (decodeStatus data) .empty
  let h := if 0 < relayedCallReturnValue.length then
    s.hub.emit (.transactionResult status relayedCallReturnValue) else s.hub
  let rejected ← r.isRejected success status innerGasUsed
  let hub ← r.close rejected status innerGasUsed relayedCallReturnValue h
  pure { s with hub }

/-- `innerRelayCall` has reverted. -/
def reverted (status : RelayCallStatus) (ret : Bytes) : Result (Gsn × Option Rest) := do
  let s ← r.finish false (revertWithStatus status ret) r.before
  pure (s, none)

/-- The paymaster, or the forwarder, has returned `data`. -/
def returned (stage : Stage) (data : Bytes) (s : Gsn) : Result (Gsn × Option Rest) :=
  match stage with
  -- an inner call that reverts without a status makes `relayCall` revert too
  | .preRelayedCall => do
    let rejectOnRecipientRevert ← orThrow (decodeContext data) .empty
    pure (s, some (.relaying r (.execute rejectOnRecipientRevert)))
  | .execute rejectOnRecipientRevert => do
    let (relayedCallSuccess, ret) ← orThrow (decodeExecuted data) .empty
    if rejectOnRecipientRevert && !relayedCallSuccess then
      r.reverted .RejectedByRecipientRevert (truncate ret)
    else pure (s, some (.relaying r (.postRelayedCall relayedCallSuccess (truncate ret))))
  | .postRelayedCall relayedCallSuccess relayedCallReturnValue =>
    if s.hub.balances r.paymaster < r.before.hub.balances r.paymaster then
      r.reverted .PaymasterBalanceChanged []
    else do
      let status := if relayedCallSuccess then RelayCallStatus.OK else .RelayedCallFailed
      let s ← r.finish true (encodeStatus status relayedCallReturnValue) s
      pure (s, none)

/-- The paymaster, or the forwarder, has reverted with `data`. -/
def failed (stage : Stage) (data : Bytes) : Result (Gsn × Option Rest) :=
  match stage with
  | .preRelayedCall => r.reverted .RejectedByPreRelayed (truncate data)
  | .execute _ => r.reverted .RejectedByForwarder (truncate data)
  | .postRelayedCall _ _ => r.reverted .PostRelayedFailed data

end Relaying

/-! ### Calls of the hub -/

inductive HubCall where
  | setConfiguration (config : RelayHubConfig)
  | setMinimumStakes (token : List Address) (minimumStake : List Nat)
  | onRelayServerRegistered (relayManager : Address)
  | addRelayWorkers (newRelayWorkers : List Address)
  | depositFor (value : Nat) (target : Address)
  | withdraw (dest : Address) (amount : Nat)
  | withdrawMultiple (dest : List Address) (amount : List Nat)
  | relayCall (c : RelayCall)
  | deprecateHub (deprecationTime : Nat)
  | penalize (relayWorker beneficiary : Address)
  | escheatAbandonedRelayBalance (relayManager : Address)
  | transferOwnership (owner : Address)
  | renounceOwnership

namespace Gsn

variable (d : Deployment) (s : Gsn)

def onHub (x : Result RelayHub) : Result (Gsn × Option Rest) := do
  let hub ← x
  pure ({ s with hub }, none)

def verifyRelayManagerStaked (relayManager : Address) : Result Unit := do
  let (info, isHubAuthorized) := s.stakeManager.getStakeInfo d.hub relayManager
  let minimumStake := s.hub.minimumStakePerToken info.token
  require (info.token ≠ 0) (.message "relay manager not staked")
  require (minimumStake ≤ info.stake) (.message "stake amount is too small")
  require (minimumStake ≠ 0) (.message "staking this token is forbidden")
  require (s.hub.config.minimumUnstakeDelay ≤ info.unstakeDelay)
    (.message "unstake delay is too small")
  require (info.withdrawTime = 0) (.message "stake has been withdrawn")
  require (isHubAuthorized = true) (.message "this hub is not authorized by SM")

def onRelayServerRegistered (sender relayManager : Address) : Result Gsn := do
  require (sender = d.relayRegistrar) (.message "caller is not relay registrar")
  s.verifyRelayManagerStaked d relayManager
  require (0 < s.hub.workerCount relayManager) (.message "no relay workers")
  let stakeManager ← s.stakeManager.updateRelayKeepaliveTime s.timestamp d.hub relayManager
  pure { s with stakeManager }

/-- The loop of `addRelayWorkers`. -/
def addWorker (relayManager : Address) (h : RelayHub) (worker : Address) : Result RelayHub := do
  require (h.workerToManager worker = 0) (.message "this worker has a manager")
  pure { h with workerToManager := Function.update h.workerToManager worker relayManager }

def addRelayWorkers (sender : Address) (newRelayWorkers : List Address) : Result RelayHub := do
  let newWorkerCount ← checkedAdd (s.hub.workerCount sender) newRelayWorkers.length
  let h := { s.hub with workerCount := Function.update s.hub.workerCount sender newWorkerCount }
  require (newWorkerCount ≤ h.config.maxWorkerCount) (.message "too many workers")
  s.verifyRelayManagerStaked d sender
  let h ← newRelayWorkers.foldlM (addWorker sender) h
  pure (h.emit (.relayWorkersAdded sender newRelayWorkers newWorkerCount))

def depositFor (sender : Address) (value : Nat) (target : Address) : Result Gsn := do
  let tokens ← s.tokens.send sender d.hub value .empty
  require (d.isPaymaster target = true) (.message "target is not a valid IPaymaster")
  let balance ← checkedAdd (s.hub.balances target) value
  pure { s with
    tokens, hub := (s.hub.setBalance target balance).emit (.deposited target sender value) }

/-- The loop of `withdrawMultiple`, up to the next payment. -/
def withdrawNext (account : Address) :
    List (Nat × Option Address) → Gsn → Result (Gsn × Option Rest)
  | [], s => pure (s, none)
  | (amount, dest) :: rest, s => do
    let balance := s.hub.balances account
    require (amount ≤ balance) (.message "insufficient funds")
    let hub := s.hub.setBalance account (balance - amount)
    let dest ← element dest
    let tokens ← s.tokens.send d.hub dest amount (.message "Transfer failed.")
    pure ({ s with hub, tokens }, some (.withdrawing account dest amount rest))

def withdrawMultiple (sender : Address) (dest : List Address) (amount : List Nat) :
    Result (Gsn × Option Rest) :=
  withdrawNext d sender (pairUp amount dest) s

def withdraw (sender dest : Address) (amount : Nat) : Result (Gsn × Option Rest) :=
  s.withdrawMultiple d sender [dest] [amount]

/-- `dynamicParamSize` -/
def dynamicParamSize (buf : Bytes) : Nat := 32 + Abi.paddedLength buf.length

def verifyTransactionPacking (c : RelayCall) : Result Unit :=
  let expectedMsgDataLen := 4 + 22 * 32 + dynamicParamSize c.domainSeparatorName +
    dynamicParamSize c.signature + dynamicParamSize c.approvalData +
    dynamicParamSize c.relayRequest.request.data +
    dynamicParamSize c.relayRequest.relayData.paymasterData
  require (expectedMsgDataLen = c.dataLength) (.message "extra msg.data bytes")

def verifyGasAndDataLimits (c : RelayCall) : Result GasAndDataLimits := do
  let limits ← orThrow c.limits .empty
  require (c.dataLength ≤ limits.calldataSizeLimit) (.message "msg.data exceeded limit")
  require (limits.acceptanceBudget ≤ c.maxAcceptanceBudget)
    (.message "acceptance budget too high")
  require (limits.preRelayedCallGasLimit ≤ limits.acceptanceBudget)
    (.message "acceptance budget too low")
  let relayData := c.relayRequest.relayData
  let maxPossibleGas ← checkedAdd relayData.transactionCalldataGasUsed c.gas.initial
  let maxPossibleCharge ← s.hub.calculateCharge c.gasprice c.basefee maxPossibleGas relayData
  require (maxPossibleCharge ≤ s.hub.balances relayData.paymaster)
    (.message "Paymaster balance too low")
  pure limits

/-- The checks of the sender of `relayCall`. -/
def verifySender (sender : Address) (c : RelayCall) : Result Unit :=
  if sender ≠ d.batchGateway ∧ c.origin ≠ Forwarder.DRY_RUN_ADDRESS then do
    require (c.signature.length ≠ 0) (.message "missing signature or bad gateway")
    require (sender = c.origin) (.message "relay worker must be EOA")
    require (sender = c.relayRequest.relayData.relayWorker) (.message "Not a right worker")
  else pure ()

/-- The relay manager of `relayCall`; a dry run has none. -/
def verifyRelayManager (c : RelayCall) : Result Address :=
  if c.origin ≠ Forwarder.DRY_RUN_ADDRESS then do
    let relayManager := s.hub.workerToManager c.relayRequest.relayData.relayWorker
    require (relayManager ≠ 0) (.message "Unknown relay worker")
    s.verifyRelayManagerStaked d relayManager
    pure relayManager
  else pure 0

/-- `relayCall` up to the call of the paymaster. -/
def relayCall (sender : Address) (c : RelayCall) : Result (Gsn × Option Rest) := do
  require (¬ s.hub.isDeprecated s.timestamp) (.message "hub deprecated")
  verifySender d sender c
  let relayManager ← s.verifyRelayManager d c
  let limits ← s.verifyGasAndDataLimits c
  verifyTransactionPacking c
  let available ← checkedMul c.gas.beforeInnerLimit 63
  let _ ← checkedSub (available / 64) s.hub.config.gasReserve
  pure (s, some (.relaying { call := c, sender, relayManager, limits, before := s } .preRelayedCall))

def penalize (sender relayWorker beneficiary : Address) : Result Gsn := do
  require (sender = d.penalizer) (.message "Not penalizer")
  let relayManager := s.hub.workerToManager relayWorker
  require (relayManager ≠ 0) (.message "Unknown relay worker")
  let (stakeInfo, _) := s.stakeManager.getStakeInfo d.hub relayManager
  require (0 < stakeInfo.stake) (.message "relay manager not staked")
  let (stakeManager, tokens) ← s.stakeManager.penalizeRelayManager s.tokens d.stakeManager
    s.timestamp d.hub relayManager beneficiary stakeInfo.stake
  pure { s with stakeManager, tokens }

def escheatAbandonedRelayBalance (sender relayManager : Address) : Result RelayHub := do
  s.hub.onlyOwner sender
  let escheatable ← s.stakeManager.isRelayEscheatable s.timestamp relayManager
  require (escheatable = true) (.message "relay server not escheatable yet")
  let balance := s.hub.balances relayManager
  let h := s.hub.setBalance relayManager 0
  let devBalance ← checkedAdd (h.balances h.config.devAddress) balance
  pure ((h.setBalance h.config.devAddress devBalance).emit
    (.abandonedRelayManagerBalanceEscheated relayManager balance))

/-- A call that does not hand over control. -/
def atOnce (x : Result Gsn) : Result (Gsn × Option Rest) := do
  let s ← x
  pure (s, none)

def hubCall (sender : Address) : HubCall → Result (Gsn × Option Rest)
  | .setConfiguration config => s.onHub (s.hub.setConfiguration sender config)
  | .setMinimumStakes token minimumStake =>
    s.onHub (s.hub.setMinimumStakes sender token minimumStake)
  | .onRelayServerRegistered relayManager =>
    atOnce (s.onRelayServerRegistered d sender relayManager)
  | .addRelayWorkers newRelayWorkers => s.onHub (s.addRelayWorkers d sender newRelayWorkers)
  | .depositFor value target => atOnce (s.depositFor d sender value target)
  | .withdraw dest amount => s.withdraw d sender dest amount
  | .withdrawMultiple dest amount => s.withdrawMultiple d sender dest amount
  | .relayCall c => s.relayCall d sender c
  | .deprecateHub deprecationTime => s.onHub (s.hub.deprecateHub s.timestamp sender deprecationTime)
  | .penalize relayWorker beneficiary => atOnce (s.penalize d sender relayWorker beneficiary)
  | .escheatAbandonedRelayBalance relayManager =>
    s.onHub (s.escheatAbandonedRelayBalance sender relayManager)
  | .transferOwnership owner => s.onHub (s.hub.transferOwnership sender owner)
  | .renounceOwnership => s.onHub (s.hub.renounceOwnership sender)

end Gsn

/-! ### Calls of the penalizer -/

namespace Gsn

variable (d : Deployment) (s : Gsn)

/-- `Penalizer.penalize`, on behalf of `sender`. -/
def penalizeAt (sender hub relayWorker : Address) : Result (Gsn × Option Rest) :=
  if hub = d.hub then atOnce (s.penalize d d.penalizer relayWorker sender)
  else pure (s, some .penalizing)

def commit (commitHash : Bytes32) : Result Gsn := do
  let penalizer ← s.penalizer.commit s.blockNumber commitHash
  pure { s with penalizer }

def penalizerCall (sender : Address) : PenalizerCall → Result (Gsn × Option Rest)
  | .commit commitHash => atOnce (s.commit commitHash)
  | .penalizeRepeatedNonce msgData tx1 tx2 hub => do
    let penalizer ← s.penalizer.commitRevealOnly d.crypto s.blockNumber sender msgData
    let relay ← Penalizer.checkRepeatedNonce d.crypto tx1 tx2
    { s with penalizer }.penalizeAt d sender hub relay
  | .penalizeIllegalTransaction msgData tx hub => do
    let penalizer ← s.penalizer.commitRevealOnly d.crypto s.blockNumber sender msgData
    let relay ← Penalizer.checkIllegalTransaction d.crypto hub tx
    { s with penalizer }.penalizeAt d sender hub relay

end Gsn

/-! ### The deployment as a machine -/

/-- The calls of an ERC20 that move its tokens, or allow it. -/
inductive TokenCall where
  | transfer (dst : Address) (amount : Nat)
  | approve (spender : Address) (amount : Nat)
  | transferFrom (src dst : Address) (amount : Nat)

inductive GsnCall where
  /-- a block with a later time -/
  | mine (timestamp : Nat)
  | stakeManager (sender : Address) (c : StakeCall)
  | hub (sender : Address) (c : HubCall)
  | penalizer (sender : Address) (c : PenalizerCall)
  | sendNative (sender dst : Address) (value : Nat)
  | erc20 (a sender : Address) (c : TokenCall)

namespace Gsn

variable (d : Deployment)

def tokenCall (t : Tokens) (a sender : Address) : TokenCall → Result Tokens
  | .transfer dst amount => do
    let (t, _) ← t.erc20Transfer a sender dst amount
    pure t
  | .approve spender amount => do
    let tok ← t.erc20Contract a
    pure (t.setERC20 a { tok with
      allowance := Function.update tok.allowance sender
        (Function.update (tok.allowance sender) spender amount) })
  | .transferFrom src dst amount => do
    let (t, _) ← t.erc20TransferFrom a sender src dst amount
    pure t

def start (c : GsnCall) (s : Gsn) : Result (Gsn × Option Rest) :=
  match c with
  | .mine timestamp => pure ({ s with blockNumber := s.blockNumber + 1, timestamp }, none)
  | .stakeManager sender c => do
    let (stakeManager, tokens) ← s.stakeManager.call s.tokens d.stakeManager s.timestamp sender c
    pure ({ s with stakeManager, tokens }, none)
  | .hub sender c => s.hubCall d sender c
  | .penalizer sender c => s.penalizerCall d sender c
  | .sendNative sender dst value => do
    let tokens ← s.tokens.send sender dst value .empty
    pure ({ s with tokens }, none)
  | .erc20 a sender c => do
    let tokens ← tokenCall s.tokens a sender c
    pure ({ s with tokens }, none)

def resume (rest : Rest) (data : Bytes) (s : Gsn) : Result (Gsn × Option Rest) :=
  match rest with
  | .withdrawing account dest amount rest =>
    withdrawNext d account rest { s with hub := s.hub.emit (.withdrawn account dest amount) }
  | .relaying r stage => r.returned stage data s
  | .penalizing => pure (s, none)

def fail (rest : Rest) (data : Bytes) (_ : Gsn) : Result (Gsn × Option Rest) :=
  match rest with
  | .withdrawing .. => throw (.message "Transfer failed.")
  | .relaying r stage => r.failed stage data
  | .penalizing => throw .empty

def machine : Machine Revert Gsn GsnCall Bytes Rest where
  start := start d
  resume := resume d
  fail := fail

/-- An address that does nothing by itself but what its contract says. -/
def Outside (a : Address) : Prop := a ≠ 0 ∧ a ≠ d.hub ∧ a ≠ d.stakeManager ∧ a ≠ d.penalizer

instance (a : Address) : Decidable (Outside d a) := inferInstanceAs (Decidable (_ ∧ _))

/-- Who may make a call. The contracts of the deployment make none but those of their code, and time
passes between transactions only. -/
def CanCall (c : Config Gsn Rest) : GsnCall → Prop
  | .mine timestamp => c.frames.isEmpty ∧ c.state.timestamp ≤ timestamp ∧ timestamp < 2 ^ 64
  | .stakeManager sender _ => Outside d sender
  | .hub sender (.relayCall r) => Outside d sender ∧ r.origin ≠ 0
  | .hub sender _ => Outside d sender
  | .penalizer sender _ => Outside d sender ∧ sender ≠ OFF_CHAIN_SENDER
  | .sendNative sender _ _ => Outside d sender
  | .erc20 _ sender _ => Outside d sender

instance (c : Config Gsn Rest) (call : GsnCall) : Decidable (CanCall d c call) := by
  unfold CanCall
  split <;> infer_instance

/-- What may happen next. No memory has more than `2 ^ 64` bytes. Whoever is paid may take or refuse it;
that the hub, the stake manager and the penalizer can only refuse, since they have no function for it,
is not asked for. -/
def Allowed (c : Config Gsn Rest) : Label GsnCall Bytes → Prop
  | .call call => CanCall d c call
  | .ret data => data.length < 2 ^ 64
  | .revert data => data.length < 2 ^ 64
  | .exhaust => True

instance (c : Config Gsn Rest) (l : Label GsnCall Bytes) : Decidable (Allowed d c l) := by
  unfold Allowed
  split <;> infer_instance

/-- The state after the contracts were deployed. -/
structure Initial (s : Gsn) : Prop where
  distinct : d.hub ≠ d.stakeManager
  timestamp : s.timestamp < 2 ^ 64
  hub : ∃ owner config, config.devFee < 100 ∧ s.hub = RelayHub.deployed owner config
  stakes : ∀ m, s.stakeManager.stakes m = ⟨0, 0, 0, 0, 0, 0, 0⟩
  authorizedHubs : ∀ m h, s.stakeManager.authorizedHubs m h = 0
  commits : ∀ commitHash, s.penalizer.commits commitHash = 0
  erc20 : ∀ c tok, s.tokens.erc20 c = some tok →
    ∀ spender, tok.allowance d.stakeManager spender = 0
  erc721 : ∀ c, s.tokens.erc721 c = none
  native : ∑ a, s.tokens.native a < UINT256_SIZE

/-- The configurations that runs from the deployment lead to. -/
def Run (c : Config Gsn Rest) : Prop :=
  ∃ s₀, Initial d s₀ ∧ Reachable (machine d) (Allowed d) ⟨s₀, []⟩ c

/-! ### A deployment to start from -/

/-- The deployment of the hub at 100. The only paymaster is 200. -/
def sample : Deployment where
  hub := 100
  stakeManager := 101
  penalizer := 102
  batchGateway := 103
  relayRegistrar := 104
  isPaymaster := fun a => a = 200
  crypto := workerCrypto

/-- Both contracts are owned by 1; the account 21 has tokens of the ERC20 at 10, and 50 has native
tokens. -/
def genesis : Gsn where
  blockNumber := 100
  timestamp := 1000
  tokens := {
    erc20 := fun a => if a = 10 then some {
      rewardPool := none, balanceOf := Ledger.credit (fun _ => 0) 21 100, allowance := fun _ _ => 0
      totalSupply := 100, blacklisted := fun _ => false, answers := [] } else none
    erc721 := fun _ => none
    erc1155 := fun _ => none
    native := Ledger.credit (fun _ => 0) 50 1000
    refuses := fun _ => false
    log := [] }
  penalizer := ⟨5, 50, fun _ => 0⟩
  stakeManager := {
    owner := 1, maxUnstakeDelay := 1000, abandonmentDelay := 500, escheatmentDelay := 500
    devAddress := 2, burnAddress := 3
    stakes := fun _ => ⟨0, 0, 0, 0, 0, 0, 0⟩, authorizedHubs := fun _ _ => 0 }
  hub := .deployed 1 {
    maxWorkerCount := 2, gasReserve := 10, postOverhead := 5, gasOverhead := 5
    minimumUnstakeDelay := 100, devAddress := 2, devFee := 10, baseRelayFee := 1, pctRelayFee := 10 }

theorem native_genesis : ∑ a, genesis.tokens.native a = 1000 := Ledger.sum_credit_zero

theorem initial_genesis : Initial sample genesis where
  distinct := by decide
  timestamp := by decide
  hub := ⟨1, _, by decide, rfl⟩
  stakes := fun _ => rfl
  authorizedHubs := fun _ _ => rfl
  commits := fun _ => rfl
  erc20 := by
    intro c tok htok spender
    simp only [genesis] at htok
    split_ifs at htok
    cases htok
    rfl
  erc721 := fun _ => rfl
  native := native_genesis.trans_lt (by decide)

/-- Where the steps `labels` lead from `genesis`, if each of them can be taken. -/
def after (labels : List (Label GsnCall Bytes)) : Config Gsn Rest :=
  (Handover.run (machine sample) (Allowed sample) labels ⟨genesis, []⟩).getD ⟨genesis, []⟩

theorem reachable_after (labels : List (Label GsnCall Bytes)) :
    Reachable (machine sample) (Allowed sample) ⟨genesis, []⟩ (after labels) :=
  Reachable.refl.run_getD labels

theorem run_after (labels : List (Label GsnCall Bytes)) : Run sample (after labels) :=
  ⟨genesis, initial_genesis, reachable_after labels⟩

/-- The owner 21 of the manager 20 stakes for it and authorizes the hub, the manager adds the worker 30,
and 50 sends the paymaster 500. -/
def staking : List (Label GsnCall Bytes) :=
  [.call (.stakeManager 20 (.setRelayManagerOwner 21)), .call (.erc20 10 21 (.approve 101 50)),
    .call (.stakeManager 21 (.stakeForRelayManager 10 20 200 50)),
    .call (.stakeManager 21 (.authorizeHubByOwner 20 100)),
    .call (.hub 1 (.setMinimumStakes [10] [50])), .call (.hub 20 (.addRelayWorkers [30])),
    .call (.hub 50 (.depositFor 500 200))]

/-- The paymaster withdraws some of it. -/
def withdrawing : List (Label GsnCall Bytes) := staking ++ [.call (.hub 200 (.withdraw 40 100))]

/-- The stake is unlocked, and time passes. -/
def unlocking (timestamp : Nat) : List (Label GsnCall Bytes) :=
  [.call (.stakeManager 21 (.unlockStake 20)), .call (.mine timestamp)]

/-- A request of the account 60 to the account 70. -/
def request : FullForwardRequest where
  src := 60
  dst := 70
  data := []
  value := 0
  gas := 1000
  nonce := 0
  validUntilTime := 2000
  isUint256 := by decide

/-- The worker 30 relays the request at the expense of the paymaster. -/
def relay : RelayCall where
  origin := 30
  gasprice := 2
  basefee := 1
  dataLength := 900
  domainSeparatorName := []
  maxAcceptanceBudget := 100
  relayRequest := ⟨request, ⟨3, 1, 10, 30, 200, 3, [], 0⟩⟩
  signature := [1]
  approvalData := []
  limits := some ⟨100, 50, 50, 1000⟩
  gas := ⟨100, 90, 80, 70, 60⟩

/-- The paymaster refuses the request. -/
def refusing : List (Label GsnCall Bytes) := [.call (.hub 30 (.relayCall relay)), .revert []]

/-- The relay call, up to the answer of the paymaster's `postRelayedCall`: the paymaster accepts the
request, and its target is executed. -/
def relaying : List (Label GsnCall Bytes) :=
  staking ++ [.call (.hub 30 (.relayCall relay)),
    .ret (Abi.word 64 ++ Abi.word 0 ++ Abi.word 0), .ret (Abi.word 1 ++ Abi.word 64 ++ Abi.word 0)]

/-- What that relay call knows. -/
def relayed : Relaying where
  call := relay
  sender := 30
  relayManager := 20
  limits := ⟨100, 50, 50, 1000⟩
  before := (after staking).state

/-- The manager adds the worker `signer` too. -/
def employing : List (Label GsnCall Bytes) := staking ++ [.call (.hub 20 (.addRelayWorkers [signer]))]

def mining (blocks : Nat) : List (Label GsnCall Bytes) := List.replicate blocks (.call (.mine 1001))

/-- What 40 reports about it, and commits to before. -/
def paymentReport : PenalizerCall := .penalizeIllegalTransaction paymentMsgData signedPayment 100

def paymentCommit : Bytes32 :=
  toBytes32 0x261556616c77d01e0747a1b3f03942e95ec9d8e571ffa316fd2836304331c583

def relayReport : PenalizerCall := .penalizeIllegalTransaction relayMsgData signedRelay 100

def relayCommit : Bytes32 :=
  toBytes32 0x7bcc9f37d3fc45abd54dce8d4a8c3dc66cfefd88edb08b3443391943e2041c3e

end Gsn

end Redeemy
