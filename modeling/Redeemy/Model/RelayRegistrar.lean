import Redeemy.Lib.Handover
import Redeemy.Model.Forwarder

/-!
# The relay registrar

`RelayRegistrar` lists the relay managers that have registered with a relay hub, for those who look for a
relay server. It first calls the hub, which may be any contract, and then stores the registration; block
numbers and times are cut to 32 and 40 bits.
-/

namespace Redeemy

open Fallible Handover

/-- `IRelayRegistrar.RelayInfo` -/
structure RelayInfo where
  lastSeenBlockNumber : Nat
  lastSeenTimestamp : Nat
  firstSeenBlockNumber : Nat
  firstSeenTimestamp : Nat
  urlParts : Bytes32 × Bytes32 × Bytes32
  relayManager : Address
  deriving DecidableEq

def RelayInfo.blank : RelayInfo where
  lastSeenBlockNumber := 0
  lastSeenTimestamp := 0
  firstSeenBlockNumber := 0
  firstSeenTimestamp := 0
  urlParts :=
    ⟨⟨0, Nat.two_pow_pos 256⟩, ⟨0, Nat.two_pow_pos 256⟩, ⟨0, Nat.two_pow_pos 256⟩⟩
  relayManager := 0

structure RelayRegistrar where
  owner : Address
  relayRegistrationMaxAge : Nat
  values : Address → Address → RelayInfo
  indexedValues : Address → List Address

namespace RelayRegistrar

def MAX_RELAYS_RETURNED_COUNT : Nat := 1000

variable (r : RelayRegistrar)

def setRelayRegistrationMaxAge (sender : Address) (relayRegistrationMaxAge : Nat) :
    Result RelayRegistrar := do
  require (sender = r.owner) (.message "Ownable: caller is not the owner")
  pure { r with relayRegistrationMaxAge }

def addItem (relayHub relayManager : Address) : RelayRegistrar :=
  if (r.values relayHub relayManager).lastSeenBlockNumber = 0 then
    { r with
      indexedValues := Function.update r.indexedValues relayHub
        (r.indexedValues relayHub ++ [relayManager]) }
  else r

def setInfo (relayHub relayManager : Address) (info : RelayInfo) : RelayRegistrar :=
  { r with
    values := Function.update r.values relayHub
      (Function.update (r.values relayHub) relayManager info) }

def storeRelayServerRegistration (blockNumber timestamp : Nat) (relayManager relayHub : Address)
    (url : Bytes32 × Bytes32 × Bytes32) : RelayRegistrar :=
  let r := r.addItem relayHub relayManager
  let info := r.values relayHub relayManager
  let info := if info.firstSeenBlockNumber = 0 then { info with
    firstSeenBlockNumber := blockNumber % 2 ^ 32, firstSeenTimestamp := timestamp % 2 ^ 40 } else info
  r.setInfo relayHub relayManager { info with
    lastSeenBlockNumber := blockNumber % 2 ^ 32, lastSeenTimestamp := timestamp % 2 ^ 40
    relayManager, urlParts := url }

def getRelayInfo (relayHub relayManager : Address) : Result RelayInfo := do
  let info := r.values relayHub relayManager
  require (info.lastSeenBlockNumber ≠ 0) (.message "relayManager not found")
  pure info

section

-- which relay managers the hub accepts, by `verifyRelayManagerStaked`
variable (staked : Address → Bool)

/-- The loop of `readRelayInfosInRange`; `info` is what is filled of an array of length `length`. -/
def readLoop (relayHub : Address) (oldestBlockNumber oldestBlockTimestamp maxCount length : Nat) :
    List Address → List RelayInfo → Result (List RelayInfo)
  | [], info => pure info
  | relayManager :: items, info => do
    let relayInfo ← r.getRelayInfo relayHub relayManager
    if relayInfo.lastSeenBlockNumber < oldestBlockNumber ∨
        relayInfo.lastSeenTimestamp < oldestBlockTimestamp then
      readLoop relayHub oldestBlockNumber oldestBlockTimestamp maxCount length items info
    else if staked relayManager = false then
      readLoop relayHub oldestBlockNumber oldestBlockTimestamp maxCount length items info
    else if length ≤ info.length then throw (.panic 0x32)
    else if maxCount ≤ (info ++ [relayInfo]).length then pure (info ++ [relayInfo])
    else
      readLoop relayHub oldestBlockNumber oldestBlockTimestamp maxCount length items
        (info ++ [relayInfo])

def readRelayInfosInRange (relayHub : Address)
    (oldestBlockNumber oldestBlockTimestamp maxCount : Nat) : Result (List RelayInfo) :=
  let items := r.indexedValues relayHub
  let length := if items.length < maxCount then items.length else maxCount
  r.readLoop staked relayHub oldestBlockNumber oldestBlockTimestamp maxCount length items []

def readRelayInfos (blockTimestamp : Nat) (relayHub : Address) : Result (List RelayInfo) :=
  let oldestBlockTimestamp := if r.relayRegistrationMaxAge ≤ blockTimestamp then
    blockTimestamp - r.relayRegistrationMaxAge else 0
  r.readRelayInfosInRange staked relayHub 0 oldestBlockTimestamp MAX_RELAYS_RETURNED_COUNT

end

end RelayRegistrar

/-! ### The registrar as a machine -/

structure RelayRegistration where
  relayHub : Address
  relayManager : Address
  url : Bytes32 × Bytes32 × Bytes32
  blockNumber : Nat
  timestamp : Nat

structure Listing where
  blockNumber : Nat
  timestamp : Nat
  registrar : RelayRegistrar
  /-- all that was registered, latest first; a record that no contract stores -/
  registrations : List RelayRegistration

inductive RegistrarCall where
  /-- a block with a later time -/
  | mine (timestamp : Nat)
  | setRelayRegistrationMaxAge (sender : Address) (relayRegistrationMaxAge : Nat)
  | registerRelayServer (sender relayHub : Address) (url : Bytes32 × Bytes32 × Bytes32)

/-- The registrar waits for `onRelayServerRegistered` of the hub. -/
structure Registering where
  relayManager : Address
  relayHub : Address
  url : Bytes32 × Bytes32 × Bytes32

namespace Listing

variable (s : Listing)

def store (x : Registering) : Listing :=
  { s with
    registrar := s.registrar.storeRelayServerRegistration s.blockNumber s.timestamp x.relayManager
      x.relayHub x.url
    registrations := ⟨x.relayHub, x.relayManager, x.url, s.blockNumber, s.timestamp⟩ ::
      s.registrations }

def start (c : RegistrarCall) (s : Listing) : Result (Listing × Option Registering) :=
  match c with
  | .mine timestamp => pure ({ s with blockNumber := s.blockNumber + 1, timestamp }, none)
  | .setRelayRegistrationMaxAge sender relayRegistrationMaxAge => do
    let registrar ← s.registrar.setRelayRegistrationMaxAge sender relayRegistrationMaxAge
    pure ({ s with registrar }, none)
  | .registerRelayServer sender relayHub url => pure (s, some ⟨sender, relayHub, url⟩)

def machine : Machine Revert Listing RegistrarCall Unit Registering where
  start := start
  resume := fun x _ s => pure (s.store x, none)
  fail := fun _ _ _ => throw .empty

/-- Time passes between transactions, and the numbers of blocks and their times fit. -/
def Allowed (c : Config Listing Registering) : Label RegistrarCall Unit → Prop
  | .call (.mine timestamp) => c.frames.isEmpty ∧ c.state.timestamp ≤ timestamp ∧
      timestamp < 2 ^ 40 ∧ c.state.blockNumber + 1 < 2 ^ 32
  | _ => True

instance (c : Config Listing Registering) (l : Label RegistrarCall Unit) : Decidable (Allowed c l) := by
  unfold Allowed
  split <;> infer_instance

/-- The state after the deployment. -/
structure Initial (s : Listing) : Prop where
  blockNumber : 0 < s.blockNumber ∧ s.blockNumber < 2 ^ 32
  timestamp : s.timestamp < 2 ^ 40
  values : ∀ relayHub relayManager, s.registrar.values relayHub relayManager = .blank
  indexedValues : ∀ relayHub, s.registrar.indexedValues relayHub = []
  registrations : s.registrations = []

def Run (c : Config Listing Registering) : Prop :=
  ∃ s₀, Initial s₀ ∧ Reachable machine Allowed ⟨s₀, []⟩ c

def genesis : Listing where
  blockNumber := 1
  timestamp := 0
  registrar := ⟨10, 100, fun _ _ => .blank, fun _ => []⟩
  registrations := []

theorem initial_listing : Initial genesis where
  blockNumber := ⟨Nat.one_pos, by decide⟩
  timestamp := by decide
  values := fun _ _ => rfl
  indexedValues := fun _ => rfl
  registrations := rfl

def after (labels : List (Label RegistrarCall Unit)) : Config Listing Registering :=
  (Handover.run machine Allowed labels ⟨genesis, []⟩).getD ⟨genesis, []⟩

theorem run_listing (labels : List (Label RegistrarCall Unit)) : Run (after labels) :=
  ⟨genesis, initial_listing, Reachable.refl.run_getD labels⟩

def registering (relayManager : Address) : Label RegistrarCall Unit :=
  .call (.registerRelayServer relayManager 100 RelayInfo.blank.urlParts)

/-- While the hub 100 hears of 20, 21 registers too; after a while 20 registers again. -/
def twoRelays : List (Label RegistrarCall Unit) :=
  [registering 20, registering 21, .ret (), .ret (), .call (.mine 10), registering 20, .ret ()]

end Listing

end Redeemy
