import Mathlib.Data.List.Perm.Basic
import Mathlib.Algebra.BigOperators.Group.List.Basic

/-!
# Removal by swapping with the last element

An array without holes drops the element at `i` by moving its last element there and shrinking by
one. As a multiset of elements this is the removal of the element at `i` (`cons_swapRemove_perm`);
sums, membership and distinctness of the rest follow.
-/

namespace SwapRemove

variable {α β : Type}

/-- Overwrite index `i` with the last element, then drop the last element. -/
def swapRemove (l : List α) (i : Nat) : List α :=
  match l.getLast? with
  | some last => (l.set i last).dropLast
  | none => []

theorem swapRemove_concat_lt {l : List α} {last : α} {i : Nat} (h : i < l.length) :
    swapRemove (l ++ [last]) i = l.set i last := by
  simp [swapRemove, List.set_append_left _ _ h]

theorem swapRemove_concat_length {l : List α} {last : α} :
    swapRemove (l ++ [last]) l.length = l := by
  simp [swapRemove]

/-- The removed element and the rest are a permutation of the list. -/
theorem cons_swapRemove_perm {l : List α} {i : Nat} (h : i < l.length) :
    (l[i] :: swapRemove l i).Perm l := by
  rcases List.eq_nil_or_concat' l with rfl | ⟨l, last, rfl⟩
  · simp at h
  · rw [List.length_append, List.length_singleton] at h
    rcases Nat.lt_succ_iff_lt_or_eq.mp h with hlt | rfl
    · rw [swapRemove_concat_lt hlt]
      simp only [List.getElem_append_left hlt]
      -- both sides are `last`, `l[i]` and the list without index `i`
      calc (l[i] :: l.set i last).Perm (l[i] :: last :: l.eraseIdx i) :=
            (List.set_perm_cons_eraseIdx hlt last).cons _
        _ |>.Perm (last :: l[i] :: l.eraseIdx i) := List.Perm.swap _ _ _
        _ |>.Perm (last :: l) := (List.getElem_cons_eraseIdx_perm hlt).cons _
        _ |>.Perm (l ++ [last]) := (List.perm_append_singleton last l).symm
    · rw [swapRemove_concat_length]
      simpa using (List.perm_append_singleton last l).symm

theorem mem_of_mem_swapRemove {l : List α} {i : Nat} {a : α} (h : i < l.length)
    (ha : a ∈ swapRemove l i) : a ∈ l :=
  (cons_swapRemove_perm h).subset (List.mem_cons_of_mem _ ha)

theorem mem_swapRemove_or_eq {l : List α} {i : Nat} {a : α} (h : i < l.length) (ha : a ∈ l) :
    a = l[i] ∨ a ∈ swapRemove l i :=
  List.mem_cons.mp ((cons_swapRemove_perm h).mem_iff.mpr ha)

/-- A key that no two elements share stays so, and the removed key is gone. -/
theorem nodup_map_swapRemove {l : List α} {i : Nat} (f : α → β) (h : i < l.length)
    (hl : (l.map f).Nodup) :
    f l[i] ∉ (swapRemove l i).map f ∧ ((swapRemove l i).map f).Nodup := by
  have hp := ((cons_swapRemove_perm h).map f).nodup_iff.mpr hl
  rwa [List.map_cons, List.nodup_cons] at hp

theorem sum_map_swapRemove {M : Type} [AddCommMonoid M] {l : List α} {i : Nat} (f : α → M)
    (h : i < l.length) : f l[i] + ((swapRemove l i).map f).sum = (l.map f).sum := by
  rw [← ((cons_swapRemove_perm h).map f).sum_eq, List.map_cons, List.sum_cons]

/-! ### Overwriting one element -/

theorem sum_map_set {M : Type} [AddCommMonoid M] {l : List α} {i : Nat} (f : α → M) (a : α)
    (h : i < l.length) : f l[i] + ((l.set i a).map f).sum = f a + (l.map f).sum := by
  have hset := ((List.set_perm_cons_eraseIdx h a).map f).sum_eq
  have hget := ((List.getElem_cons_eraseIdx_perm h).map f).sum_eq
  rw [List.map_cons, List.sum_cons] at hset hget
  rw [hset, ← hget, ← add_assoc, ← add_assoc, add_comm (f l[i])]

theorem map_set_of_eq {l : List α} {i : Nat} (f : α → β) (a : α) (h : i < l.length)
    (ha : f a = f l[i]) : (l.set i a).map f = l.map f := by
  rw [List.map_set, ha, ← List.getElem_map f, List.set_getElem_self]
  simpa using h

end SwapRemove
