import Redeemy.Lib.BigEndian

/-!
# The ABI encoding of byte strings

A tuple of static values and one byte string: one word for each static value, a word that says where
the byte string is, and there its length, its bytes, and zeros up to the next word. `wordAt` and
`bytesAt` read such a tuple as the decoder of the compiler does, which looks at nothing beyond the end
of the data.
-/

namespace Abi

open BigEndian

variable {bytes data rest : List UInt8} {n pos : Nat}

def word (n : Nat) : List UInt8 := encode 32 n

/-- The length of a byte string with the zeros that follow it. -/
def paddedLength (n : Nat) : Nat := (n + 31) / 32 * 32

/-- A byte string with its length before it and zeros after it. -/
def tail (bytes : List UInt8) : List UInt8 :=
  word bytes.length ++ bytes ++ List.replicate (paddedLength bytes.length - bytes.length) 0

/-- The word at `pos`. -/
def wordAt (data : List UInt8) (pos : Nat) : Nat := value ((data.drop pos).take 32)

/-- The byte string that the word at `head` points to. -/
def bytesAt (data : List UInt8) (head : Nat) : Option (List UInt8) :=
  let offset := wordAt data head
  let length := wordAt data offset
  if offset < 2 ^ 64 ∧ offset + 31 < data.length ∧ length < 2 ^ 64 ∧
      offset + 32 + length ≤ data.length then
    some ((data.drop (offset + 32)).take length)
  else none

@[simp] theorem length_word : (word n).length = 32 := length_encode

theorem le_paddedLength : n ≤ paddedLength n := by
  unfold paddedLength
  omega

theorem length_tail : (tail bytes).length = 32 + paddedLength bytes.length := by
  have hle := le_paddedLength (n := bytes.length)
  simp only [tail, List.length_append, length_word, List.length_replicate]
  omega

theorem wordAt_append (h : pos = data.length) (hn : n < 2 ^ 256) :
    wordAt (data ++ (word n ++ rest)) pos = n := by
  have htake : ((data ++ (word n ++ rest)).drop pos).take 32 = word n := by
    rw [h, List.drop_left, List.take_left' length_word]
  rw [wordAt, htake, word, value_encode]
  exact Nat.mod_eq_of_lt hn

theorem wordAt_word (hn : n < 2 ^ 256) : wordAt (word n ++ rest) 0 = n := by
  have happend : wordAt ([] ++ (word n ++ rest)) 0 = n := wordAt_append rfl hn
  rwa [List.nil_append] at happend

/-- What is read are the bytes after a length, if there are so many. -/
theorem bytesAt_eq {front : List UInt8} {head : Nat} (hdata : data = front ++ (word n ++ rest))
    (hhead : wordAt data head = front.length) (hfront : front.length < 2 ^ 64) (hn : n < 2 ^ 64) :
    bytesAt data head = if n ≤ rest.length then some (rest.take n) else none := by
  have hlength : wordAt data front.length = n := by
    rw [hdata]
    exact wordAt_append rfl (hn.trans (by decide))
  have htotal : data.length = front.length + (32 + rest.length) := by
    rw [hdata, List.length_append, List.length_append, length_word]
  have hdrop : data.drop (front.length + 32) = rest := by
    rw [hdata, ← List.drop_drop, List.drop_left, List.drop_left' length_word]
  unfold bytesAt
  simp only [hhead, hlength, htotal, hdrop]
  split_ifs with hfits hroom hroom
  · rfl
  · omega
  · omega
  · rfl

/-- A byte string is read back from its place, whatever follows it. -/
theorem bytesAt_tail {front back : List UInt8} {head : Nat}
    (hhead : wordAt (front ++ (tail bytes ++ back)) head = front.length)
    (hfront : front.length < 2 ^ 64) (hbytes : bytes.length < 2 ^ 64) :
    bytesAt (front ++ (tail bytes ++ back)) head = some bytes := by
  have hdata : front ++ (tail bytes ++ back) = front ++ (word bytes.length ++ (bytes ++
      (List.replicate (paddedLength bytes.length - bytes.length) 0 ++ back))) := by
    simp only [tail, List.append_assoc]
  rw [bytesAt_eq hdata hhead hfront hbytes, List.take_left, if_pos]
  rw [List.length_append]
  exact Nat.le_add_right _ _

/-- A byte string is read back from its place, if the data do not end before it does. -/
theorem bytesAt_take {front : List UInt8} {head : Nat} (limit : Nat)
    (hhead : wordAt ((front ++ tail bytes).take limit) head = front.length)
    (hfront : front.length + 32 ≤ limit) (hoffset : front.length < 2 ^ 64)
    (hbytes : bytes.length < 2 ^ 64) :
    bytesAt ((front ++ tail bytes).take limit) head =
      if front.length + 32 + bytes.length ≤ limit then some bytes else none := by
  have hle := le_paddedLength (n := bytes.length)
  have hsplit : (front ++ tail bytes).take limit = front ++ (word bytes.length ++
      (bytes ++ List.replicate (paddedLength bytes.length - bytes.length) 0).take
        (limit - front.length - 32)) := by
    rw [List.take_append, List.take_of_length_le (by omega), tail, List.append_assoc,
      List.take_append, List.take_of_length_le (by rw [length_word]; omega), length_word]
  have hrest : bytes.length ≤ ((bytes ++ List.replicate (paddedLength bytes.length -
      bytes.length) 0).take (limit - front.length - 32)).length ↔
      front.length + 32 + bytes.length ≤ limit := by
    rw [List.length_take, List.length_append, List.length_replicate]
    omega
  rw [bytesAt_eq hsplit hhead hoffset hbytes]
  simp only [hrest]
  split_ifs with hlimit
  · rw [List.take_take, Nat.min_eq_left (by omega), List.take_left]
  · rfl

end Abi
