import Redeemy.Model.State

/-!
# Trimming of names

`StringUtils.trim`, loop by loop.
-/

namespace Redeemy

open Fallible

namespace StringUtils

/-- The byte `0x20`. -/
def SPACE : UInt8 := 0x20

/-- The first loop from index `i` on: the index of the first byte that is not a space. -/
def findStart : Bytes → Nat → Nat
  | [], _ => 0
  | b :: str, i => if b ≠ SPACE then i else findStart str (i + 1)

/-- The second loop from index `i` down. Below `start` the loop ends and leaves the end where it was;
below zero the index underflows. -/
def findEnd (str : Bytes) (start : Nat) : Nat → Result Nat
  | 0 =>
    if start ≤ 0 then do
      let b ← index str 0
      if b ≠ SPACE then pure 1 else .error (.panic 0x11)
    else pure str.length
  | i + 1 =>
    if start ≤ i + 1 then do
      let b ← index str (i + 1)
      if b ≠ SPACE then pure (i + 2) else findEnd str start i
    else pure str.length

/-- The third loop: `n` more bytes from index `i` on. -/
def copyBytes (str : Bytes) (start : Nat) : Nat → Nat → Bytes → Result Bytes
  | 0, _, trimmed => pure trimmed
  | n + 1, i, trimmed => do
    let b ← index str i
    let j ← checkedSub i start
    let _ ← index trimmed j
    copyBytes str start n (i + 1) (trimmed.set j b)

def trim (str : Bytes) : Result Bytes :=
  if str.length = 0 then pure []
  else do
    let start := findStart str 0
    let stop ← findEnd str start (str.length - 1)
    let trimmedLength ← checkedSub stop start
    copyBytes str start trimmedLength start (List.replicate trimmedLength 0)

-- "  a b " becomes "a b"
example : trim [0x20, 0x20, 0x61, 0x20, 0x62, 0x20] = .ok [0x61, 0x20, 0x62] := by decide

end StringUtils

end Redeemy
