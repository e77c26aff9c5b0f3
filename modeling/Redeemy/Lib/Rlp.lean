import Mathlib.Data.Nat.Digits.Lemmas
import Redeemy.Lib.BigEndian

/-!
# The RLP encoding

Byte strings and lists of items, each after a header that says how long it is. A single byte below
`0x80` is its own encoding. A number is the byte string of its digits, without leading zeros.
-/

namespace Rlp

open BigEndian

variable {bytes payload : List UInt8} {n k : Nat}

/-- The digits of a number, without leading zeros. -/
def digits (n : Nat) : List UInt8 := encode (Nat.digits 256 n).length n

/-- The header of `n` bytes; the offset tells byte strings from lists. -/
def header (offset n : Nat) : List UInt8 :=
  if n ≤ 55 then [UInt8.ofNat (offset + n)]
  else UInt8.ofNat (offset + 55 + (digits n).length) :: digits n

/-- A byte that needs no header. -/
def Small (bytes : List UInt8) : Prop := bytes.length = 1 ∧ ∀ b ∈ bytes, b < 0x80

instance : Decidable (Small bytes) := inferInstanceAs (Decidable (_ ∧ _))

def encodeBytes (bytes : List UInt8) : List UInt8 :=
  if Small bytes then bytes else header 0x80 bytes.length ++ bytes

def encodeList (payload : List UInt8) : List UInt8 := header 0xc0 payload.length ++ payload

inductive Item where
  | bytes (b : List UInt8)
  | list (items : List Item)

mutual

def Item.encode : Item → List UInt8
  | .bytes b => encodeBytes b
  | .list items => encodeList (encodeAll items)

def encodeAll : List Item → List UInt8
  | [] => []
  | item :: items => item.encode ++ encodeAll items

end

/-- A number as an item. -/
def Item.number (n : Nat) : Item := .bytes (digits n)

theorem Item.encode_bytes : (Item.bytes bytes).encode = encodeBytes bytes := by
  rw [Item.encode]

theorem Item.encode_list {items : List Item} :
    (Item.list items).encode = encodeList (encodeAll items) := by
  rw [Item.encode]

theorem length_digits : (digits n).length = (Nat.digits 256 n).length := length_encode

theorem value_digits : value (digits n) = n := by
  rw [digits, value_encode]
  exact Nat.mod_eq_of_lt (Nat.lt_base_pow_length_digits (by decide))

theorem length_digits_le : (digits n).length ≤ k ↔ n < 256 ^ k := by
  rw [length_digits]
  exact Nat.digits_length_le_iff (by decide) n

theorem length_digits_pos (h : 0 < n) : 0 < (digits n).length := by
  by_contra hzero
  have hlt := (length_digits_le (n := n)).mp (Nat.le_of_not_lt hzero)
  omega

/-- The first byte of a header, and the digits after it if the length needs them. -/
theorem header_cases (offset : Nat) (hn : n < 2 ^ 64) :
    (n ≤ 55 ∧ header offset n = [UInt8.ofNat (offset + n)]) ∨
    ∃ k, 1 ≤ k ∧ k ≤ 8 ∧ (digits n).length = k ∧
      header offset n = UInt8.ofNat (offset + 55 + k) :: digits n := by
  unfold header
  split_ifs with hshort
  · exact .inl ⟨hshort, rfl⟩
  · have hle : (digits n).length ≤ 8 := length_digits_le.mpr hn
    exact .inr ⟨_, length_digits_pos (by omega), hle, rfl, rfl⟩

end Rlp
