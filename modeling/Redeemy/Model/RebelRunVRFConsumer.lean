import Redeemy.Model.System

/-!
# The raffle of Rebel Run

`RebelRunVRFConsumer` with `Authorised`: the winners among a list of addresses get redeem tokens of one
asset pool. It is no contract of the system but an account that calls an asset pool, so its state is
beside the world. Its coordinator, and the base contract that lets nobody else call back, are
third-party code: the coordinator hands out a new id for each request.
-/

namespace Redeemy

open Fallible EnumerableSet

variable {F : Type → Type} [EnumerableSet F]

structure RaffleRequest where
  fulfilled : Bool
  addresses : List Address

structure RebelRunVRFConsumer where
  /-- `ASSET_POOL` -/
  assetPool : Address
  rebelTicketId : Nat
  vrfCoordinator : Address
  requests : Nat → RaffleRequest
  authorised : Address → Bool
  /-- `_owner` of `Authorised`, which never changes -/
  deployer : Address
  /-- `owner` of `Ownable` -/
  owner : Address

namespace RebelRunVRFConsumer

/-- The constructor, called by `sender`. -/
def create (w : World F) (sender rewardPool : Address) (rebelTicketId : Nat)
    (vrfCoordinator : Address) : Result RebelRunVRFConsumer := do
  let rp ← w.rewardPool rewardPool
  let assetPool := rp.assetPoolIdToAssetPool rebelTicketId
  require (assetPool ≠ 0) .empty
  pure {
    assetPool, rebelTicketId, vrfCoordinator
    requests := fun _ => ⟨false, []⟩
    authorised := fun _ => false
    deployer := sender
    owner := sender }

variable (k : RebelRunVRFConsumer)

def onlyAuthorised (sender : Address) : Result Unit :=
  require (k.authorised sender = true ∨ sender = k.deployer)
    (.message "Authorised: only authorised caller allowed")

def onlyOwner (sender : Address) : Result Unit :=
  require (sender = k.owner) (.message "Ownable: caller is not the owner")

def setRequest (requestId : Nat) (req : RaffleRequest) : RebelRunVRFConsumer :=
  { k with requests := Function.update k.requests requestId req }

/-- `requestRandomWords`; `requestId` is the id that the coordinator hands out. -/
def requestRandomWords (sender : Address) (addresses : List Address) (requestId : Nat) :
    Result RebelRunVRFConsumer := do
  k.onlyAuthorised sender
  pure (k.setRequest requestId ⟨false, addresses⟩)

end RebelRunVRFConsumer

/-- The consumer and the world it acts on. -/
structure Raffle (F : Type → Type) where
  world : World F
  consumer : RebelRunVRFConsumer
  /-- the ids that the coordinator has handed out -/
  requested : List Nat
  /-- whom the callbacks have paid, with the ids of their requests -/
  payouts : List (Nat × List Address)

inductive RaffleCall where
  | requestRandomWords (addresses : List Address) (requestId : Nat)
  | rawFulfillRandomWords (requestId : Nat) (randomWords : List Nat)
  | setAssetPool (pool : Address)
  | setRebelTicketId (id : Nat)
  | setAuthorised (caller : Address) (isAuthorised : Bool)
  | transferOwnership (newOwner : Address)
  | renounceOwnership

namespace Raffle

section Fulfill

-- the address of the consumer, and what somebody who gets redeem tokens does with that call
variable (self : Address) (onReceived : World F → Address → Result (World F))

/-- The transfer to one winner. -/
def payWinner (assetPool : Address) (w : World F) (randomAddress : Address) : Result (World F) := do
  let pool ← w.assetPool assetPool
  let w ← w.assetPoolCall assetPool self
    (.transferRedeemTokenAmount randomAddress pool.redeemTokenAmount)
  onReceived w randomAddress

/-- The loop of `fulfillRandomWords`, with the number of addresses left and the payments so far. -/
def drawLoop (assetPool : Address) : List Nat → List Address → Nat → World F × List Address →
    Result (World F × List Address)
  | [], _, _, s => pure s
  | randomWord :: randomWords, addresses, len, (w, paid) =>
    if 0 < len then do
      let randomIndex ← checkedMod randomWord len
      let randomAddress ← index addresses randomIndex
      let w ← payWinner self onReceived assetPool w randomAddress
      let lastIndex ← checkedSub len 1
      let last ← index addresses lastIndex
      let _ ← index addresses randomIndex
      let len ← checkedSub len 1
      -- the assembly overwrites the length of the array
      let addresses := (addresses.set randomIndex last).take len
      drawLoop assetPool randomWords addresses len (w, paid ++ [randomAddress])
    else pure (w, paid)

def fulfillRandomWords (s : Raffle F) (requestId : Nat) (randomWords : List Nat) :
    Result (Raffle F) := do
  let req := s.consumer.requests requestId
  require (req.fulfilled = false) (.message "RebelRunAddressesVRFConsumer: invalid request id")
  let consumer := s.consumer.setRequest requestId { req with fulfilled := true }
  let (world, paid) ← drawLoop self onReceived consumer.assetPool randomWords req.addresses
    req.addresses.length (s.world, [])
  pure { s with world, consumer, payouts := (requestId, paid) :: s.payouts }

/-- A call of the consumer by `sender`. -/
def call (s : Raffle F) (sender : Address) : RaffleCall → Result (Raffle F)
  | .requestRandomWords addresses requestId => do
    let consumer ← s.consumer.requestRandomWords sender addresses requestId
    pure { s with consumer, requested := requestId :: s.requested }
  | .rawFulfillRandomWords requestId randomWords => do
    require (sender = s.consumer.vrfCoordinator) .empty
    s.fulfillRandomWords self onReceived requestId randomWords
  | .setAssetPool pool => do
    s.consumer.onlyOwner sender
    let rp ← s.world.rewardPool pool
    let assetPool := rp.assetPoolIdToAssetPool s.consumer.rebelTicketId
    pure { s with consumer := { s.consumer with assetPool } }
  | .setRebelTicketId rebelTicketId => do
    s.consumer.onlyOwner sender
    pure { s with consumer := { s.consumer with rebelTicketId } }
  | .setAuthorised caller isAuthorised => do
    require (sender = s.consumer.deployer) .empty
    pure { s with consumer := { s.consumer with
      authorised := Function.update s.consumer.authorised caller isAuthorised } }
  | .transferOwnership newOwner => do
    s.consumer.onlyOwner sender
    require (newOwner ≠ 0) (.message "Ownable: new owner is the zero address")
    pure { s with consumer := { s.consumer with owner := newOwner } }
  | .renounceOwnership => do
    s.consumer.onlyOwner sender
    pure { s with consumer := { s.consumer with owner := 0 } }

end Fulfill

/-- The coordinator does not hand out an id again. -/
def NewId (s : Raffle F) (c : RaffleCall) : Prop :=
  ∀ addresses requestId, c = .requestRandomWords addresses requestId → requestId ∉ s.requested

/-- A call of the consumer at `self`, or anything that happens in the world around it. -/
inductive Step (self : Address) (s : Raffle F) : Raffle F → Prop where
  | world (w : World F) : Step self s { s with world := w }
  | call {s' : Raffle F} (onReceived : World F → Address → Result (World F)) (sender : Address)
      (c : RaffleCall) (hnew : s.NewId c) (h : s.call self onReceived sender c = .ok s') :
      Step self s s'

/-- A new consumer. -/
def Initial (s : Raffle F) : Prop :=
  (∃ sender rewardPool rebelTicketId vrfCoordinator,
    RebelRunVRFConsumer.create s.world sender rewardPool rebelTicketId vrfCoordinator =
      .ok s.consumer) ∧
  s.requested = [] ∧ s.payouts = []

/-- The runs of the consumer at `self`. -/
def Run (self : Address) (s : Raffle F) : Prop :=
  ∃ s₀ : Raffle F, s₀.Initial ∧ Relation.ReflTransGen (Step self) s₀ s

end Raffle

end Redeemy
