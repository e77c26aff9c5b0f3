import Mathlib.Algebra.BigOperators.Group.Finset.Piecewise
import Mathlib.Algebra.BigOperators.Group.Multiset.Basic
import Mathlib.Algebra.Order.BigOperators.Group.Finset
import Mathlib.Data.Fintype.Prod

/-!
# Stocks with reservations

Items are kept under keys. Some of them are promised: a reservation sets an item aside without
saying which one, and a payment hands an item out against a reservation. What is taken back comes
out of the free items only. A `Stock` carries the proof that free and reserved items add up to the
items that are there, so the four operations below cannot lose count.
-/

/-- Items under keys, of which `reserved` many are promised. -/
structure Stock (κ α : Type) [Fintype κ] where
  items : κ → Multiset α
  free : ℕ
  reserved : ℕ
  balanced : free + reserved = ∑ k, (items k).card

namespace Stock

variable {κ α : Type} [Fintype κ]

/-- The number of items under all keys. -/
def size (items : κ → Multiset α) : ℕ := ∑ k, (items k).card

theorem size_add (m n : κ → Multiset α) : size (m + n) = size m + size n := by
  simp only [size, Pi.add_apply, Multiset.card_add, Finset.sum_add_distrib]

def empty : Stock κ α where
  items := fun _ => 0
  free := 0
  reserved := 0
  balanced := by simp

/-- Put items in; they are free. -/
def put (s : Stock κ α) (added : κ → Multiset α) : Stock κ α where
  items := s.items + added
  free := s.free + size added
  reserved := s.reserved
  balanced := by
    have hs : s.free + s.reserved = size s.items := s.balanced
    have hadd := size_add s.items added
    unfold size at *
    omega

/-- Take items back, as many as are free at most. -/
def take (s : Stock κ α) (rest taken : κ → Multiset α) (h : s.items = rest + taken)
    (hfree : size taken ≤ s.free) : Stock κ α where
  items := rest
  free := s.free - size taken
  reserved := s.reserved
  balanced := by
    have hs : s.free + s.reserved = size s.items := s.balanced
    rw [h, size_add] at hs
    unfold size at *
    omega

/-- Promise `n` items. -/
def reserve (s : Stock κ α) (n : ℕ) (h : n ≤ s.free) : Stock κ α where
  items := s.items
  free := s.free - n
  reserved := s.reserved + n
  balanced := by
    have hs := s.balanced
    omega

/-- Hand out one item against a promise. -/
def pay (s : Stock κ α) (rest paid : κ → Multiset α) (h : s.items = rest + paid)
    (hone : size paid = 1) (hres : 1 ≤ s.reserved) : Stock κ α where
  items := rest
  free := s.free
  reserved := s.reserved - 1
  balanced := by
    have hs : s.free + s.reserved = size s.items := s.balanced
    rw [h, size_add] at hs
    unfold size at *
    omega

/-- One operation. -/
inductive Step (s : Stock κ α) : Stock κ α → Prop where
  | put (added : κ → Multiset α) : Step s (s.put added)
  | take (rest taken : κ → Multiset α) (h : s.items = rest + taken) (hfree : size taken ≤ s.free) :
      Step s (s.take rest taken h hfree)
  | reserve (n : ℕ) (h : n ≤ s.free) : Step s (s.reserve n h)
  | pay (rest paid : κ → Multiset α) (h : s.items = rest + paid) (hone : size paid = 1)
      (hres : 1 ≤ s.reserved) : Step s (s.pay rest paid h hone hres)

/-- Whatever is taken back, every promised item is still there. -/
theorem reserved_le (s : Stock κ α) : s.reserved ≤ size s.items := by
  have hs : s.free + s.reserved = size s.items := s.balanced
  omega

/-- As long as an item is promised, some key has one. -/
theorem exists_item (s : Stock κ α) (h : 1 ≤ s.reserved) : ∃ k, s.items k ≠ 0 := by
  by_contra! hnone
  have hsize : size s.items = 0 := by simp [size, hnone]
  have := s.reserved_le
  omega

end Stock
