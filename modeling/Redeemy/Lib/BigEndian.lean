import Mathlib.Data.List.Induction
import Mathlib.Tactic.Ring

/-!
# Big-endian numbers

A number in `k` bytes, most significant first, and the number that some bytes spell.
-/

namespace BigEndian

variable {xs ys : List UInt8} {j k n : Nat}

/-- The number that the bytes spell. -/
def value (bytes : List UInt8) : Nat :=
  bytes.foldl (fun n b => n * 256 + b.toNat) 0

/-- `n` in `k` bytes; what does not fit is lost. -/
def encode : Nat → Nat → List UInt8
  | 0, _ => []
  | k + 1, n => encode k (n / 256) ++ [UInt8.ofNat n]

@[simp] theorem length_encode : (encode k n).length = k := by
  induction k generalizing n with
  | zero => rfl
  | succ k ih => simp [encode, ih]

theorem value_concat (b : UInt8) : value (xs ++ [b]) = value xs * 256 + b.toNat := by
  simp only [value, List.foldl_append, List.foldl_cons, List.foldl_nil]

theorem value_append : value (xs ++ ys) = value xs * 256 ^ ys.length + value ys := by
  induction ys using List.reverseRecOn with
  | nil => simp [value]
  | append_singleton ys b ih =>
    rw [← List.append_assoc, value_concat, value_concat, ih, List.length_append,
      List.length_singleton]
    ring

theorem value_lt {bytes : List UInt8} : value bytes < 256 ^ bytes.length := by
  induction bytes using List.reverseRecOn with
  | nil => simp [value]
  | append_singleton bytes b ih =>
    have hbyte : b.toNat < 256 := b.toNat_lt
    rw [value_concat, List.length_append, List.length_singleton, pow_succ]
    omega

theorem value_encode : value (encode k n) = n % 256 ^ k := by
  induction k generalizing n with
  | zero => simp [encode, value, Nat.mod_one]
  | succ k ih =>
    have hbyte : (UInt8.ofNat n).toNat = n % 256 := UInt8.toNat_ofNat'
    rw [encode, value_concat, ih, hbyte, pow_succ', Nat.mod_mul, Nat.mul_comm, Nat.add_comm]

/-- The first bytes of a number are those of its quotient. -/
theorem take_encode : (encode (k + j) n).take k = encode k (n / 256 ^ j) := by
  induction j generalizing n with
  | zero => rw [Nat.add_zero, pow_zero, Nat.div_one, List.take_of_length_le (by simp)]
  | succ j ih =>
    rw [← Nat.add_assoc, encode, List.take_append_of_le_length (by simp), ih, Nat.div_div_eq_div_mul,
      pow_succ']

theorem encode_inj {m : Nat} (hm : m < 256 ^ k) (hn : n < 256 ^ k) (h : encode k m = encode k n) :
    m = n := by
  have hvalue := congrArg value h
  rwa [value_encode, value_encode, Nat.mod_eq_of_lt hm, Nat.mod_eq_of_lt hn] at hvalue

/-- A number of a fixed width can be told from what follows it. -/
theorem encode_append_inj {m : Nat} (hm : m < 256 ^ k) (hn : n < 256 ^ k)
    (h : encode k m ++ xs = encode k n ++ ys) : m = n ∧ xs = ys := by
  obtain ⟨hfirst, hrest⟩ := List.append_inj h (by simp)
  exact ⟨encode_inj hm hn hfirst, hrest⟩

end BigEndian
