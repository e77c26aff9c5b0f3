import Redeemy.Lib.BigEndian

/-!
# Memory of bytes

A memory in which words are read at any address, and the bytes that stand in it. A reader of the first
bytes of a word shifts the others away.
-/

abbrev Memory := Nat → UInt8

namespace Memory

open BigEndian

variable {m : Memory} {p q n k : Nat} {xs ys bytes : List UInt8}

/-- The `n` bytes at `p`. -/
def read (m : Memory) (p : Nat) : Nat → List UInt8
  | 0 => []
  | n + 1 => m p :: m.read (p + 1) n

/-- The word at `p`. -/
def word (m : Memory) (p : Nat) : Nat := value (m.read p 32)

/-- The bytes stand at `p`. -/
def Has (m : Memory) (p : Nat) (bytes : List UInt8) : Prop := m.read p bytes.length = bytes

/-- The memory with the bytes at `p`. -/
def store (m : Memory) (p : Nat) (bytes : List UInt8) : Memory :=
  fun q => if p ≤ q then bytes.getD (q - p) (m q) else m q

@[simp] theorem length_read : (m.read p n).length = n := by
  induction n generalizing p with
  | zero => rfl
  | succ n ih => rw [read, List.length_cons, ih]

theorem read_add : m.read p (n + k) = m.read p n ++ m.read (p + n) k := by
  induction n generalizing p with
  | zero => rw [Nat.zero_add, Nat.add_zero, read, List.nil_append]
  | succ n ih =>
    rw [Nat.add_right_comm, read, ih, read, List.cons_append, Nat.add_assoc, Nat.add_comm 1 n]

theorem has_append : m.Has p (xs ++ ys) ↔ m.Has p xs ∧ m.Has (p + xs.length) ys := by
  unfold Has
  rw [List.length_append, read_add]
  constructor
  · intro h
    exact List.append_inj h length_read
  · rintro ⟨hxs, hys⟩
    rw [hxs, hys]

theorem has_cons {b : UInt8} : m.Has p (b :: bytes) ↔ m p = b ∧ m.Has (p + 1) bytes := by
  unfold Has
  rw [List.length_cons, read, List.cons.injEq]

theorem has_nil : m.Has p [] := rfl

theorem has_iff : m.Has p bytes ↔ ∀ i (h : i < bytes.length), m (p + i) = bytes[i] := by
  induction bytes generalizing p with
  | nil => simp [has_nil]
  | cons b bytes ih =>
    rw [has_cons, ih]
    constructor
    · rintro ⟨hfirst, hrest⟩ i hi
      cases i with
      | zero => exact hfirst
      | succ i =>
        have hnext := hrest i (Nat.lt_of_succ_lt_succ hi)
        rwa [Nat.add_assoc, Nat.add_comm 1 i] at hnext
    · intro h
      refine ⟨h 0 (Nat.succ_pos _), fun i hi => ?_⟩
      have hnext := h (i + 1) (Nat.succ_lt_succ hi)
      rwa [Nat.add_assoc, Nat.add_comm 1 i]

theorem has_store : (m.store p bytes).Has p bytes := by
  rw [has_iff]
  intro i hi
  rw [store, if_pos (Nat.le_add_right p i), Nat.add_sub_cancel_left]
  simp [hi]

/-- A word starts with the bytes that stand there. -/
theorem word_div (hk : k ≤ 32) : m.word p / 256 ^ (32 - k) = value (m.read p k) := by
  have hsplit : m.read p 32 = m.read p k ++ m.read (p + k) (32 - k) := by
    rw [← read_add, Nat.add_sub_cancel' hk]
  rw [word, hsplit, value_append, length_read]
  have hlt : value (m.read (p + k) (32 - k)) < 256 ^ (32 - k) := by
    refine value_lt.trans_eq ?_
    rw [length_read]
  have hpos : 0 < 256 ^ (32 - k) := Nat.pow_pos (by decide)
  rw [Nat.mul_comm, Nat.mul_add_div hpos, Nat.div_eq_of_lt hlt, Nat.add_zero]

end Memory
