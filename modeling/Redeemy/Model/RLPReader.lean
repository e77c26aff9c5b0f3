import Redeemy.Lib.Memory
import Redeemy.Model.Forwarder

/-!
# The reader of raw transactions

`RLPReader` walks over the encoding of a transaction in memory. It trusts the lengths it finds, and may
read what lies behind the transaction: the memory around it is part of what it is given.
-/

namespace Redeemy

open Fallible

namespace RLPReader

def STRING_SHORT_START : Nat := 0x80
def STRING_LONG_START : Nat := 0xb8
def LIST_SHORT_START : Nat := 0xc0
def LIST_LONG_START : Nat := 0xf8

structure RLPItem where
  len : Nat
  memPtr : Nat
  deriving DecidableEq, Repr

variable (m : Memory)

/-- `exp(256, n)`, which is zero where it overflows. -/
def exp256 (n : Nat) : Nat := if n < 32 then 256 ^ n else 0

/-- The first `len` bytes of the word at `memPtr`, for any `len`. -/
def shifted (memPtr len : Nat) : Nat :=
  m.word memPtr / exp256 ((32 + UINT256_SIZE - len) % UINT256_SIZE)

/-- The length of an item whose header is a byte and `byteLen` others, `memPtr` being where these are. -/
def longLength (memPtr byteLen : Nat) : Nat := shifted m memPtr byteLen + (byteLen + 1)

/-- `_itemLength` -/
def itemLength (memPtr : Nat) : Nat :=
  let byte0 := (m memPtr).toNat
  if byte0 < STRING_SHORT_START then 1
  else if byte0 < STRING_LONG_START then byte0 - STRING_SHORT_START + 1
  else if byte0 < LIST_SHORT_START then longLength m (memPtr + 1) (byte0 - 0xb7)
  else if byte0 < LIST_LONG_START then byte0 - LIST_SHORT_START + 1
  else longLength m (memPtr + 1) (byte0 - 0xf7)

/-- `_payloadOffset` -/
def payloadOffset (memPtr : Nat) : Nat :=
  let byte0 := (m memPtr).toNat
  if byte0 < STRING_SHORT_START then 0
  else if byte0 < STRING_LONG_START ∨ (LIST_SHORT_START ≤ byte0 ∧ byte0 < LIST_LONG_START) then 1
  else if byte0 < LIST_SHORT_START then byte0 - (STRING_LONG_START - 1) + 1
  else byte0 - (LIST_LONG_START - 1) + 1

def toRlpItem (memPtr length : Nat) : RLPItem :=
  if length = 0 then ⟨0, 0⟩ else ⟨length, memPtr⟩

def isList (item : RLPItem) : Bool := LIST_SHORT_START ≤ (m item.memPtr).toNat

/-- The loop of `numItems`. No item is empty, so as many rounds as there are bytes are enough. -/
def countItems : Nat → Nat → Nat → Nat
  | 0, _, _ => 0
  | rounds + 1, currPtr, endPtr =>
    if currPtr < endPtr then countItems rounds (currPtr + itemLength m currPtr) endPtr + 1 else 0

def numItems (item : RLPItem) : Nat :=
  countItems m item.len (item.memPtr + payloadOffset m item.memPtr) (item.memPtr + item.len)

/-- The loop of `toList`. -/
def takeItems : Nat → Nat → List RLPItem
  | 0, _ => []
  | items + 1, memPtr =>
    ⟨itemLength m memPtr, memPtr⟩ :: takeItems items (memPtr + itemLength m memPtr)

def toList (item : RLPItem) : Result (List RLPItem) := do
  require (isList m item = true) (.message "isList failed")
  pure (takeItems m (numItems m item) (item.memPtr + payloadOffset m item.memPtr))

def toUint (item : RLPItem) : Result Nat := do
  let offset := payloadOffset m item.memPtr
  let len ← checkedSub item.len offset
  pure (shifted m (item.memPtr + offset) len)

def toAddress (item : RLPItem) : Result Address := do
  require (item.len ≤ 21) (.message "Invalid RLPItem. Addresses are encoded in 20 bytes or less")
  let n ← toUint m item
  pure (Fin.ofNat (2 ^ 160) n)

def toBytes (item : RLPItem) : Result Bytes := do
  let offset := payloadOffset m item.memPtr
  let len ← checkedSub item.len offset
  pure (m.read (item.memPtr + offset) len)

end RLPReader

/-- `IPenalizer.Transaction` -/
@[ext]
structure Transaction where
  nonce : Nat
  gasLimit : Nat
  /-- `to` -/
  dst : Address
  value : Nat
  data : Bytes
  deriving DecidableEq

namespace RLPReader

variable (m : Memory)

/-- The fields of a transaction, given the places where they are in it. -/
def decodeAt (memPtr length nonce gasLimit dst value data : Nat) : Result Transaction := do
  let values ← toList m (toRlpItem memPtr length)
  let nonce ← index values nonce >>= toUint m
  let gasLimit ← index values gasLimit >>= toUint m
  let dst ← index values dst >>= toAddress m
  let value ← index values value >>= toUint m
  let data ← index values data >>= toBytes m
  pure { nonce, gasLimit, dst, value, data }

def decodeLegacyTransaction (memPtr length : Nat) : Result Transaction :=
  decodeAt m memPtr length 0 2 3 4 5

def decodeTransactionType1 (memPtr length : Nat) : Result Transaction :=
  decodeAt m memPtr length 1 3 4 5 6

def decodeTransactionType2 (memPtr length : Nat) : Result Transaction :=
  decodeAt m memPtr length 1 4 5 6 7

end RLPReader

end Redeemy
