import Redeemy.Lib.BigEndian
import Redeemy.Model.System

/-!
# The forwarder

`Forwarder` executes requests that their senders have signed, and `Chain` is the system with one in
front of it: the contract at the address the registry trusts acts only through `execute`. The hash
function of the chain and the recovery of a signer from a signature are parameters.

The target of a request may be code outside the system, to which `execute` hands over control. A
target that fails leaves the nonce of the request used, so this is what remains of a failed call.
-/

namespace Redeemy

open Fallible EnumerableSet

abbrev Bytes32 := Fin (2 ^ 256)

/-- `ECDSA.recover` reverts where `recover` is `none`. -/
structure Crypto where
  keccak256 : Bytes → Bytes32
  recover : Bytes32 → Bytes → Option Address

/-- The bytes of a text of ASCII characters. -/
def ascii (text : String) : Bytes := text.toList.map fun c => UInt8.ofNat c.toNat

/-- A `uint256`, as `abi.encode` has it. -/
def word (n : Nat) : Bytes := BigEndian.encode 32 n

/-- An address, as `abi.encodePacked` has it. -/
def packedAddress (a : Address) : Bytes := BigEndian.encode 20 a

/-- `IForwarder.ForwardRequest` with all its fields. -/
structure FullForwardRequest extends ForwardRequest where
  value : Nat
  gas : Nat
  nonce : Nat
  validUntilTime : Nat
  isUint256 : value < UINT256_SIZE ∧ gas < UINT256_SIZE ∧ nonce < UINT256_SIZE ∧
    validUntilTime < UINT256_SIZE

/-- A call of `execute`, or of `verify`, with what it can see of its transaction and its block. -/
structure Execution where
  sender : Address
  /-- `tx.origin` -/
  origin : Address
  value : Nat
  req : FullForwardRequest
  domainSeparator : Bytes32
  requestTypeHash : Bytes32
  suffixData : Bytes
  sig : Bytes
  timestamp : Nat
  gasleft : Nat
  /-- what the target does with the data; `none` is code outside the system -/
  action : Option Action
  /-- whether the target has enough gas -/
  completes : Bool

/-- The data of the call that `execute` makes. -/
def Execution.callData (e : Execution) : Bytes := e.req.data ++ packedAddress e.req.src

/-! ### The contract -/

structure Forwarder where
  typeHashes : Bytes32 → Bool
  domains : Bytes32 → Bool
  nonces : Address → Nat

namespace Forwarder

def DRY_RUN_ADDRESS : Address := 0

def GENERIC_PARAMS : Bytes := ascii
  "address from,address to,uint256 value,uint256 gas,uint256 nonce,bytes data,uint256 validUntilTime"

def EIP712_DOMAIN_TYPE : Bytes :=
  ascii "EIP712Domain(string name,string version,uint256 chainId,address verifyingContract)"

variable (crypto : Crypto)

/-- `registerRequestTypeInternal` -/
def registerRequestTypeInternal (f : Forwarder) (requestType : Bytes) : Forwarder :=
  { f with typeHashes := Function.update f.typeHashes (crypto.keccak256 requestType) true }

/-- The state the constructor leaves. -/
def deployed : Forwarder :=
  registerRequestTypeInternal crypto ⟨fun _ => false, fun _ => false, fun _ => 0⟩
    (ascii "ForwardRequest(" ++ GENERIC_PARAMS ++ ascii ")")

/-- `registerRequestType` -/
def registerRequestType (f : Forwarder) (typeName typeSuffix : Bytes) : Result Forwarder := do
  require (typeName.all fun c => c != 0x28 && c != 0x29) (.message "FWD: invalid typename")
  pure (f.registerRequestTypeInternal crypto
    (typeName ++ ascii "(" ++ GENERIC_PARAMS ++ ascii "," ++ typeSuffix))

/-- `registerDomainSeparator` of the forwarder at `fwd`. -/
def registerDomainSeparator (f : Forwarder) (chainId : Nat) (fwd : Address)
    (name version : Bytes) : Forwarder :=
  let domainValue := word (crypto.keccak256 EIP712_DOMAIN_TYPE) ++
    word (crypto.keccak256 name) ++ word (crypto.keccak256 version) ++ word chainId ++ word fwd
  { f with domains := Function.update f.domains (crypto.keccak256 domainValue) true }

/-- `_getEncoded` -/
def getEncoded (req : FullForwardRequest) (requestTypeHash : Bytes32) (suffixData : Bytes) : Bytes :=
  word requestTypeHash ++ word req.src ++ word req.dst ++ word req.value ++ word req.gas ++
    word req.nonce ++ word (crypto.keccak256 req.data) ++ word req.validUntilTime ++ suffixData

/-- What the signature of a request signs. -/
def signedBytes (e : Execution) : Bytes :=
  [0x19, 0x01] ++ word e.domainSeparator ++
    word (crypto.keccak256 (getEncoded crypto e.req e.requestTypeHash e.suffixData))

def digest (e : Execution) : Bytes32 := crypto.keccak256 (signedBytes crypto e)

/-- `_verifySig` -/
def verifySig (f : Forwarder) (e : Execution) : Result Unit := do
  require (f.domains e.domainSeparator = true) (.message "FWD: unregistered domain sep.")
  require (f.typeHashes e.requestTypeHash = true) (.message "FWD: unregistered typehash")
  if e.origin ≠ DRY_RUN_ADDRESS then
    let signer ← orThrow (crypto.recover (digest crypto e) e.sig) (.message "ECDSA: invalid signature")
    require (signer = e.req.src) (.message "FWD: signature mismatch")

/-- `_verifyNonce` -/
def verifyNonce (f : Forwarder) (req : FullForwardRequest) : Result Unit :=
  require (f.nonces req.src = req.nonce) (.message "FWD: nonce mismatch")

/-- `verify` -/
def verify (f : Forwarder) (e : Execution) : Result Unit := do
  f.verifyNonce e.req
  f.verifySig crypto e

/-- `_verifyAndUpdateNonce` -/
def verifyAndUpdateNonce (f : Forwarder) (req : FullForwardRequest) : Result Forwarder := do
  let nonce ← checkedAdd (f.nonces req.src) 1
  require (f.nonces req.src = req.nonce) (.message "FWD: nonce mismatch")
  pure { f with nonces := Function.update f.nonces req.src nonce }

/-- `execute` up to the call of the target. -/
def authorize (f : Forwarder) (e : Execution) : Result Forwarder := do
  f.verifySig crypto e
  let f ← f.verifyAndUpdateNonce e.req
  require (e.req.validUntilTime = 0 ∨ e.timestamp < e.req.validUntilTime)
    (.message "FWD: request expired")
  let gasForTransfer := if e.req.value ≠ 0 then 40000 else 0
  let available ← checkedMul e.gasleft 63
  let needed ← checkedAdd e.req.gas gasForTransfer
  require (needed ≤ available / 64) (.message "FWD: insufficient gas")
  pure f

end Forwarder

/-! ### What a target does with its data -/

/-- The native tokens that come with a call. -/
def Action.value : Action → Nat
  | .registry (.createRewardPool value _ _) => value
  | .factory (.createAssetPool value _ _ _ _) => value
  | .assetPool _ (.depositAssets value _) => value
  | .sendNative _ value => value
  | _ => 0

/-- The bytes `redeemAsset` is called with: the argument follows the selector, and `_msgSender` looks
at the last 20 bytes. -/
structure RedeemData (callData : Bytes) (trailing : Address) (amountOfAssetsToRedeem : Nat) : Prop where
  length : 36 ≤ callData.length
  selector : callData.take 4 = REDEEM_ASSET_SELECTOR
  argument : ofBytes ((callData.drop 4).take 32) = amountOfAssetsToRedeem
  trailing : ofBytes (callData.drop (callData.length - 20)) = trailing

instance (callData : Bytes) (trailing : Address) (n : Nat) :
    Decidable (RedeemData callData trailing n) :=
  decidable_of_iff (36 ≤ callData.length ∧ callData.take 4 = REDEEM_ASSET_SELECTOR ∧
      ofBytes ((callData.drop 4).take 32) = n ∧
      ofBytes (callData.drop (callData.length - 20)) = trailing)
    ⟨fun ⟨h₁, h₂, h₃, h₄⟩ => ⟨h₁, h₂, h₃, h₄⟩, fun h => ⟨h.1, h.2, h.3, h.4⟩⟩

/-- Whether a call of `dst` with `callData` and `value` can be this action. Only redemptions look at
who relays them, so only of them the data are looked into. -/
def World.Receives {F : Type → Type} (w : World F) (dst : Address) (callData : Bytes) (value : Nat)
    (action : Action) : Prop :=
  action.value = value ∧
  match action with
  | .assetPool a (.redeemAsset trailing amountOfAssetsToRedeem _) =>
    dst = a ∧ RedeemData callData trailing amountOfAssetsToRedeem
  | .registry _ => dst = w.registryAddress
  | .rewardPool a _ | .assetPool a _ | .consumer a _ | .paymaster a _ => dst = a
  | .erc20 a _ | .erc721 a _ | .erc1155 a _ | .sendNative a _ => dst = a
  -- the factories have no address in the model
  | .factory _ => True
  -- no call, but a property of the sender
  | .setRefuses _ => False

instance {F : Type → Type} (w : World F) (dst : Address) (callData : Bytes) (value : Nat)
    (action : Action) : Decidable (w.Receives dst callData value action) := by
  unfold World.Receives
  split <;> infer_instance

/-! ### The system behind a forwarder -/

/-- A request whose nonce is used. -/
structure Accepted where
  execution : Execution
  succeeded : Bool

structure Chain (F : Type → Type) where
  world : World F
  forwarder : Forwarder
  /-- the requests accepted so far, latest first; no contract stores them -/
  accepted : List Accepted

inductive ChainCall where
  | direct (call : Call)
  | execute (e : Execution)
  | registerRequestType (typeName typeSuffix : Bytes)
  | registerDomainSeparator (chainId : Nat) (name version : Bytes)

namespace Chain

variable {F : Type → Type} [EnumerableSet F] (crypto : Crypto)

/-! The forwarder is at the address `fwd`. -/

variable (fwd : Address)

/-- What the forwarder does in the name of the sender of a request. -/
def relayed (action : Action) : Call := ⟨fwd, action⟩

/-- `execute` up to the call of the target, with the native tokens that come with it. -/
def authorize (s : Chain F) (e : Execution) : Result (Chain F) := do
  let tokens ← s.world.tokens.send e.sender fwd e.value .empty
  let forwarder ← s.forwarder.authorize crypto e
  pure { s with world := { s.world with tokens }, forwarder }

/-- The native tokens the forwarder has left after the call of the target go to the sender of the
request. -/
def refund (s : Chain F) (e : Execution) : Result (Chain F) :=
  if e.req.value ≠ 0 ∧ 0 < s.world.tokens.native fwd then do
    require (s.world.accepts e.req.src = true ∧ s.world.tokens.refuses e.req.src = false) .empty
    let tokens ← s.world.tokens.send fwd e.req.src (s.world.tokens.native fwd) .empty
    pure { s with world := { s.world with tokens } }
  else pure s

def accept (s : Chain F) (e : Execution) (succeeded : Bool) : Chain F :=
  { s with accepted := ⟨e, succeeded⟩ :: s.accepted }

/-- The call of the target, up to the point where it hands over control. -/
def callTarget (s : Chain F) (e : Execution) : Result (Chain F) := do
  require (e.completes = true) .empty
  match e.action with
  | some action =>
    let world ← s.world.enter (relayed fwd action)
    pure { s with world }
  | none =>
    require (s.world.accepts e.req.dst = true) .empty
    let tokens ← s.world.tokens.send fwd e.req.dst e.req.value .empty
    pure { s with world := { s.world with tokens } }

def enter (call : ChainCall) (s : Chain F) : Result (Chain F) :=
  match call with
  | .direct call => do
    let world ← s.world.enter call
    pure { s with world }
  | .execute e => do
    let s ← s.authorize crypto fwd e
    let s ← s.callTarget fwd e
    pure (s.accept e true)
  | .registerRequestType typeName typeSuffix => do
    let forwarder ← s.forwarder.registerRequestType crypto typeName typeSuffix
    pure { s with forwarder }
  | .registerDomainSeparator chainId name version =>
    pure { s with forwarder := s.forwarder.registerDomainSeparator crypto chainId fwd name version }

def leave (call : ChainCall) (s : Chain F) : Result (Chain F) :=
  match call with
  | .direct call => do
    let world ← s.world.leave call
    pure { s with world }
  | .execute e => do
    let world ← match e.action with
      | some action => s.world.leave (relayed fwd action)
      | none => pure s.world
    { s with world }.refund fwd e
  | _ => pure s

def yields (call : ChainCall) (s : Chain F) : Bool :=
  match call with
  | .direct call => s.world.yields call
  | .execute e =>
    match e.action with
    | some action => s.world.yields (relayed fwd action)
    | none => true
  | _ => false

/-- What is left of a failed call. A request whose target fails is accepted all the same. -/
def abort (call : ChainCall) (s : Chain F) : Chain F :=
  match call with
  | .direct call => { s with world := s.world.abort call }
  | .execute e =>
    match s.authorize crypto fwd e >>= fun s => s.refund fwd e with
    | .ok s' => s'.accept e false
    | .error _ => s
  | _ => s

def machine (F : Type → Type) [EnumerableSet F] (crypto : Crypto) (fwd : Address) :
    CallStack.Machine Revert (Chain F) ChainCall where
  enter := enter crypto fwd
  leave := leave fwd
  yields := yields fwd
  abort := abort crypto fwd

/-- `P` of the call of the target, if `execute` gets so far. -/
def Relays (P : World F → Call → Prop) (s : Chain F) (e : Execution) (action : Action) : Prop :=
  match s.authorize crypto fwd e with
  | .ok s => P s.world (relayed fwd action)
  | .error _ => True

/-- What the target does fits the request. -/
def Fits (P : World F → Call → Prop) (s : Chain F) (e : Execution) : Prop :=
  match e.action with
  | some action => s.world.Receives e.req.dst e.callData e.req.value action ∧
    Relays crypto fwd P s e action
  | none => True

/-- Who can call. The forwarder makes no call of its own; no transaction has the origin zero; and
nobody has a key for an address of the system. `P` is asked of every call the system receives. -/
def CanCall (P : World F → Call → Prop) (s : Chain F) : ChainCall → Prop
  | .direct call => s.world.CanCall call ∧ call.sender ≠ fwd ∧ P s.world call
  | .execute e => (e.sender ≠ 0 ∧ s.world.system e.sender = false) ∧ e.origin ≠ 0 ∧
    s.world.system e.req.src = false ∧ Fits crypto fwd P s e
  | _ => True

section

variable (P : World F → Call → Prop) [∀ w call, Decidable (P w call)] (s : Chain F)

instance (e : Execution) (action : Action) : Decidable (Relays crypto fwd P s e action) := by
  unfold Relays
  split <;> infer_instance

instance (e : Execution) : Decidable (Fits crypto fwd P s e) := by
  unfold Fits
  split <;> infer_instance

instance (call : ChainCall) : Decidable (CanCall crypto fwd P s call) := by
  unfold CanCall
  split <;> infer_instance

end

/-- The forwarder has been deployed, and the registry with its address. -/
structure Initial (s : Chain F) : Prop where
  world : s.world.Initial
  trusted : s.world.registry.trustedForwarder = fwd
  foreign : fwd ≠ 0 ∧ s.world.system fwd = false
  forwarder : s.forwarder = .deployed crypto
  accepted : s.accepted = []

/-- The configurations reached by the runs in which every call the system receives satisfies `P`. -/
def Run (P : World F → Call → Prop) (c : CallStack.Config (Chain F) ChainCall) : Prop :=
  ∃ s₀ : Chain F, s₀.Initial crypto fwd ∧
    CallStack.Reachable (machine F crypto fwd) (CanCall crypto fwd P) s₀ c

/-! ### A chain to start from -/

/-- The forwarder of `World.genesis` is at 3. -/
def genesis : Chain ListSet := ⟨World.genesis, .deployed crypto, []⟩

theorem initial_genesis : (genesis crypto).Initial crypto 3 where
  world := World.initial_genesis
  trusted := rfl
  foreign := ⟨by decide, show World.genesis.system 3 = false by decide⟩
  forwarder := rfl
  accepted := rfl

/-- Where the steps `labels` lead from `genesis`, if each of them can be taken and `P` allows it. -/
def after (P : World ListSet → Call → Prop) [∀ w call, Decidable (P w call)]
    (labels : List (CallStack.Label ChainCall)) : CallStack.Config (Chain ListSet) ChainCall :=
  (CallStack.run (machine ListSet crypto 3) (CanCall crypto 3 P) labels
    ⟨genesis crypto, []⟩).getD ⟨genesis crypto, []⟩

theorem run_after (P : World ListSet → Call → Prop) [∀ w call, Decidable (P w call)]
    (labels : List (CallStack.Label ChainCall)) : Run crypto 3 P (after crypto P labels) :=
  ⟨genesis crypto, initial_genesis crypto, CallStack.Reachable.init.run_getD labels⟩

end Chain

/-! ### A request to relay -/

/-- The account with the private key 1. -/
def signer : Address := 0x7e5f4552091a69125d5dfcb7b8c2659029395bdf

/-- The signature of `signer` for the digest of `signedRedemption`. -/
def signerSignature : Bytes :=
  word 0xf973a0b87062c389d125d8199e803b832b6ac6bf7867a4f6cd87506060fc4c58 ++
    word 0x3ed8861575bb1940397927a833c074abd038df055a8942cbc524728f59935f1 ++ [28]

/-- The hashes of what is hashed for `signedRedemption`, which differs in length, and the recovery of
its signature. -/
def signerCrypto : Crypto where
  keccak256 bytes :=
    match bytes.length with
    | 113 => 0xb91ae508e6f0e8e33913dec60d2fdcb39fe037ce56198c70a7927d7cd813fd96
    | 82 => 0x8b73c3c69bb8fe3d512ecc4cf759cc79239f7b179b0ffacaa9a75d522b39400f
    | 3 => 0x96ebf6b5289bfe5bc3eed51d5a6219f474f247156c069ce4e4f3af9c1047183e
    | 1 => 0x2a80e1ef1d7842f27f2e6be0972bb708b9a135c38860dbe73c27c3486c34f4de
    | 160 => 0xebd7288348a31e359b0029ea7543138beee2cc7c54db72b83a06abc4a18b3bd7
    | 36 => 0x3b8fbb460f972d082596a65e94168dea8cf1b2b0c665d0122aea0f37d42705b4
    | 256 => 0x8024e3dd08de87bc913d9d1d2cd495a48f0cd7966653bd3af8f6e744ae6336d2
    | 66 => 0xfca1ecec63ade76216b97970a479077dab74405acc9cd2cc5ba2d966865d7589
    | _ => 0
  recover digest sig :=
    if digest = 0xfca1ecec63ade76216b97970a479077dab74405acc9cd2cc5ba2d966865d7589 ∧
      sig = signerSignature then some signer else none

/-- The account 8 relays the signer's request to redeem one card of the pool at 1004. -/
def signedRedemption : Execution where
  sender := 8
  origin := 8
  value := 0
  req := {
    src := signer, dst := 1004, data := REDEEM_ASSET_SELECTOR ++ word 1, value := 0, gas := 100000
    nonce := 0, validUntilTime := 0, isUint256 := by decide }
  domainSeparator := 0xebd7288348a31e359b0029ea7543138beee2cc7c54db72b83a06abc4a18b3bd7
  requestTypeHash := 0xb91ae508e6f0e8e33913dec60d2fdcb39fe037ce56198c70a7927d7cd813fd96
  suffixData := []
  sig := signerSignature
  timestamp := 1
  gasleft := 1000000
  action := some (.assetPool 1004 (.redeemAsset signer 1 [77]))
  completes := true

def directly : CallStack.Label Call → CallStack.Label ChainCall
  | .call call => .call (.direct call)
  | .ret => .ret
  | .revert => .revert

/-- The owner deposits two cards and gives the signer tokens for one; the forwarder learns its domain;
and the signer's request is relayed twice. -/
def relayTwice : List (CallStack.Label ChainCall) :=
  [World.opening .CustomERC20,
    World.poolCall 1 (.depositAssets 20 (World.nativeBoxes [⟨1, .NativeToken, 2, 10⟩])),
    World.poolCall 1 (.transferRedeemTokenAmount signer 5)].map directly ++
  [.call (.registerDomainSeparator 1 (ascii "GSN") (ascii "3")), .call (.execute signedRedemption),
    .call (.execute signedRedemption)]

end Redeemy
