import Redeemy.Model.RLPReader

/-!
# The penalizer

`Penalizer` decides whether a relay worker has signed what it must not sign: two transactions with the
same nonce that do different things, or a transaction that is not a relay call. Whoever shows it such
transactions has to commit to the call some blocks before, so that nobody else can take the reward by
repeating the call.
-/

namespace Redeemy

open Fallible

structure Penalizer where
  penalizeBlockDelay : Nat
  penalizeBlockExpiration : Nat
  /-- the first block after which the committed call can be made is the next one -/
  commits : Bytes32 → Nat

/-- A transaction shown to the penalizer, with its signature, and where in which memory it is decoded. -/
structure Evidence where
  unsignedTx : Bytes
  signature : Bytes
  memory : Memory
  memPtr : Nat

inductive PenalizerCall where
  | commit (commitHash : Bytes32)
  /-- `msgData` is the call itself, as the transaction that makes it has it -/
  | penalizeRepeatedNonce (msgData : Bytes) (tx1 tx2 : Evidence) (hub : Address)
  | penalizeIllegalTransaction (msgData : Bytes) (tx : Evidence) (hub : Address)

/-- `IRelayHub.relayCall.selector` -/
def RELAY_CALL_SELECTOR : Bytes := [0x6c, 0xa8, 0x62, 0xe2]

/-- The sender of calls that are only simulated. -/
def OFF_CHAIN_SENDER : Address := Fin.last _

namespace Penalizer

/-! ### Transactions -/

section

variable (rawTransaction : Bytes)

def isLegacyTransaction : Result Bool := do
  let transactionTypeByte ← index rawTransaction 0
  pure (0xc0 ≤ transactionTypeByte && transactionTypeByte ≤ 0xfe)

def isTransactionType1 : Result Bool := do
  let transactionTypeByte ← index rawTransaction 0
  pure (transactionTypeByte = 1)

def isTransactionType2 : Result Bool := do
  let transactionTypeByte ← index rawTransaction 0
  pure (transactionTypeByte = 2)

def isTransactionTypeValid : Result Bool := do
  let legacy ← isLegacyTransaction rawTransaction
  let type1 ← isTransactionType1 rawTransaction
  let type2 ← isTransactionType2 rawTransaction
  pure (legacy || type1 || type2)

end

/-- `decodeTransaction`, in a memory into which the transaction, or what follows its type, is copied. -/
def decodeTransaction (memory : Memory) (memPtr : Nat) (rawTransaction : Bytes) :
    Result Transaction := do
  let type1 ← isTransactionType1 rawTransaction
  let type2 ← isTransactionType2 rawTransaction
  let payload := rawTransaction.drop 1
  if type1 then
    RLPReader.decodeTransactionType1 (memory.store memPtr payload) memPtr payload.length
  else if type2 then
    RLPReader.decodeTransactionType2 (memory.store memPtr payload) memPtr payload.length
  else
    RLPReader.decodeLegacyTransaction (memory.store memPtr rawTransaction) memPtr
      rawTransaction.length

/-- `MinLibBytes.readBytes4` -/
def readBytes4 (b : Bytes) (index : Nat) : Result Bytes := do
  require (index + 4 ≤ b.length) (.message "readBytes4: data too short")
  pure ((b.drop index).take 4)

/-- What two transactions with the same nonce are compared by. -/
def dataToCheck (tx : Transaction) : Bytes :=
  tx.data ++ word tx.gasLimit ++ packedAddress tx.dst ++ word tx.value

/-! ### The contract -/

section

variable (crypto : Crypto)

/-- `ECDSA.recover` of the signer of a transaction. -/
def signer (e : Evidence) : Result Address :=
  orThrow (crypto.recover (crypto.keccak256 e.unsignedTx) e.signature)
    (.message "ECDSA: invalid signature")

/-- `_penalizeRepeatedNonce`, up to the call of the hub; the relay worker to be penalized. -/
def checkRepeatedNonce (tx1 tx2 : Evidence) : Result Address := do
  let addr1 ← signer crypto tx1
  let addr2 ← signer crypto tx2
  require (addr1 = addr2) (.message "Different signer")
  require (addr1 ≠ 0) (.message "ecrecover failed")
  let decodedTx1 ← decodeTransaction tx1.memory tx1.memPtr tx1.unsignedTx
  let decodedTx2 ← decodeTransaction tx2.memory tx2.memPtr tx2.unsignedTx
  require (decodedTx1.nonce = decodedTx2.nonce) (.message "Different nonce")
  require (crypto.keccak256 (dataToCheck decodedTx1) ≠ crypto.keccak256 (dataToCheck decodedTx2))
    (.message "tx is equal")
  pure addr1

/-- A transaction of a valid type must not be a relay call. -/
def checkIllegal (hub : Address) (e : Evidence) (valid : Bool) : Result Unit :=
  if valid then do
    let decodedTx ← decodeTransaction e.memory e.memPtr e.unsignedTx
    if decodedTx.dst = hub then do
      let selector ← readBytes4 decodedTx.data 0
      require (selector ≠ RELAY_CALL_SELECTOR) (.message "Legal relay transaction")
    else pure ()
  else pure ()

/-- `_penalizeIllegalTransaction`, up to the call of the hub. -/
def checkIllegalTransaction (hub : Address) (e : Evidence) : Result Address := do
  let valid ← isTransactionTypeValid e.unsignedTx
  checkIllegal hub e valid
  let relay ← signer crypto e
  require (relay ≠ 0) (.message "ecrecover failed")
  pure relay

def commitHash (msgData : Bytes) (sender : Address) : Bytes32 :=
  crypto.keccak256 (word (crypto.keccak256 msgData) ++ packedAddress sender)

variable (p : Penalizer) (blockNumber : Nat)

def setCommit (commitHash : Bytes32) (readyBlockNumber : Nat) : Penalizer :=
  { p with commits := Function.update p.commits commitHash readyBlockNumber }

def commit (commitHash : Bytes32) : Result Penalizer := do
  let readyBlockNumber ← checkedAdd blockNumber p.penalizeBlockDelay
  pure (p.setCommit commitHash readyBlockNumber)

/-- The modifier `commitRevealOnly`. -/
def commitRevealOnly (sender : Address) (msgData : Bytes) : Result Penalizer :=
  let commitHash := commitHash crypto msgData sender
  let readyBlockNumber := p.commits commitHash
  let p := p.setCommit commitHash 0
  if sender ≠ OFF_CHAIN_SENDER then do
    require (readyBlockNumber ≠ 0) (.message "no commit")
    require (readyBlockNumber < blockNumber) (.message "reveal penalize too soon")
    let lastBlockNumber ← checkedAdd readyBlockNumber p.penalizeBlockExpiration
    require (blockNumber < lastBlockNumber) (.message "reveal penalize too late")
    pure p
  else pure p

end

end Penalizer

/-! ### What a worker has signed -/

/-- The call of `relayCall` with the nonce 7 of `signer`, of the hub at 100. -/
def signedRelay : Evidence where
  unsignedTx := BigEndian.encode 71
    0x02f844010701328307a12094000000000000000000000000000000000000006480a46ca862e20000000000000000000000000000000000000000000000000000000000000001c0
  signature := word 0x774ae7f858a9411e5ef4246b70c65aac5649980be5c17891bbec17895da008cb ++
    word 0x028536dfb0a84e82efea8a10d93aed116f646954f004c2099f6fef4c3e0ca41c ++ [28]
  memory := fun _ => 0
  memPtr := 128

/-- A payment with the nonce 8 of `signer`. -/
def signedPayment : Evidence where
  unsignedTx := word 0xdf08328252089400000000000000000000000000000000000000500180018080
  signature := word 0xd01115d548e7561b15c38f004d734633687cf4419620095bc5b0f47070afe85a ++
    word 0x25bcffa47aff50010fb71d2132767afeb994b14b005718d79eb14a1e16f8de7a ++ [28]
  memory := fun _ => 0
  memPtr := 128

/-- Another one. -/
def signedPayment2 : Evidence where
  unsignedTx := word 0xdf08328252089400000000000000000000000000000000000000500280018080
  signature := word 0xf28773c2d975288bc7d1d205c3748651b075fbc6610e58cddeeddf8f19405aa8 ++
    word 0x1e3eecf1aa8f81f0c340f4e28819479c029d67cdf4f6aa91937bc197ed75ab59 ++ [27]
  memory := fun _ => 0
  memPtr := 128

/-- The calls that show them to the penalizer. -/
def relayMsgData : Bytes :=
  [0xa6, 0x40, 0xbc, 0x74] ++ word 128 ++ word 256 ++ word 100 ++ word 0 ++ word 71 ++
    signedRelay.unsignedTx ++ List.replicate 25 0 ++ word 65 ++ signedRelay.signature ++
    List.replicate 31 0

def paymentMsgData : Bytes :=
  [0xa6, 0x40, 0xbc, 0x74] ++ word 128 ++ word 192 ++ word 100 ++ word 0 ++ word 32 ++
    signedPayment.unsignedTx ++ word 65 ++ signedPayment.signature ++ List.replicate 31 0

def toBytes32 (n : Nat) : Bytes32 := ⟨n % 2 ^ 256, Nat.mod_lt _ (Nat.two_pow_pos 256)⟩

/-- The digests that the three are signed by. -/
def relayDigest : Bytes32 :=
  toBytes32 0xa46e73a43e921e81f01fca4de4c1d5122db5cb8119bb7e13ddb58f4a1d2145aa

def paymentDigest : Bytes32 :=
  toBytes32 0xf4cae5e07b1069f1a6d1ce8e101a7dbd4a7b5b426df520bfaa9e84f8a2fa855e

def payment2Digest : Bytes32 :=
  toBytes32 0x844683f77d413e3a4de1be795342d6be5d9855783c44de80e34067604868b596

/-- The hashes of all that is hashed for these, if 40 shows them to the penalizer. -/
def shownHashes : List (Bytes × Bytes32) :=
  [(signedRelay.unsignedTx, relayDigest), (signedPayment.unsignedTx, paymentDigest),
    (signedPayment2.unsignedTx, payment2Digest),
    (word 21000 ++ packedAddress 80 ++ word 1,
      toBytes32 0xe2697cd7e009c421666e28308729afe546d5ed161a80f7484f21cdf877db5749),
    (word 21000 ++ packedAddress 80 ++ word 2,
      toBytes32 0x7fd3832a54935b266015c2d48edf9a11d1c2df7c9417cc5d558ce33d67fbab76),
    (relayMsgData, toBytes32 0x09c38cf43596be598f13c4e0a168a257c7eb20a52712def9fa41b746f825e3b5),
    (word 0x09c38cf43596be598f13c4e0a168a257c7eb20a52712def9fa41b746f825e3b5 ++ packedAddress 40,
      toBytes32 0x7bcc9f37d3fc45abd54dce8d4a8c3dc66cfefd88edb08b3443391943e2041c3e),
    (paymentMsgData, toBytes32 0x2df701541ea9c4bde66033c1ecd69c4a71bcb75c571f9a1c417bf43883513334),
    (word 0x2df701541ea9c4bde66033c1ecd69c4a71bcb75c571f9a1c417bf43883513334 ++ packedAddress 40,
      toBytes32 0x261556616c77d01e0747a1b3f03942e95ec9d8e571ffa316fd2836304331c583)]

/-- These hashes, and the recovery of these signatures. -/
def workerCrypto : Crypto where
  keccak256 bytes := ((shownHashes.find? fun x => x.1 = bytes).map Prod.snd).getD (toBytes32 0)
  recover digest signature :=
    if digest = relayDigest ∧ signature = signedRelay.signature ∨
      digest = paymentDigest ∧ signature = signedPayment.signature ∨
      digest = payment2Digest ∧ signature = signedPayment2.signature then some signer else none

end Redeemy
