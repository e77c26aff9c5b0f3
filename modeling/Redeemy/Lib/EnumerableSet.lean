import Redeemy.Lib.SwapRemove
import Mathlib.Data.List.Dedup
import Mathlib.Data.List.Nodup
import Mathlib.Data.List.Perm.Lattice

/-!
# Enumerable sets

A set that can be listed. Membership, addition and removal are as for sets, every member is listed
once, and nothing is promised about the order in which members are listed or how it changes. Code
that only uses the interface is verified for every implementation; `ListSet` is one of them.
-/

/-- An implementation of enumerable sets: `values` lists the members. -/
class EnumerableSet (F : Type → Type) where
  empty {α : Type} : F α
  values {α : Type} : F α → List α
  add {α : Type} [DecidableEq α] : F α → α → F α
  remove {α : Type} [DecidableEq α] : F α → α → F α
  values_empty {α : Type} : values (empty : F α) = []
  nodup_values {α : Type} (s : F α) : (values s).Nodup
  mem_add {α : Type} [DecidableEq α] {s : F α} {a b : α} :
    b ∈ values (add s a) ↔ b = a ∨ b ∈ values s
  mem_remove {α : Type} [DecidableEq α] {s : F α} {a b : α} :
    b ∈ values (remove s a) ↔ b ≠ a ∧ b ∈ values s

namespace EnumerableSet

variable {F : Type → Type} [EnumerableSet F] {α : Type} [DecidableEq α]

/-- The number of members. -/
def length (s : F α) : Nat := (values s).length

theorem add_perm {s : F α} {a : α} (h : a ∉ values s) : (values (add s a)).Perm (a :: values s) := by
  refine (List.perm_ext_iff_of_nodup (nodup_values _) (List.nodup_cons.mpr ⟨h, nodup_values s⟩)).mpr ?_
  intro b
  rw [mem_add, List.mem_cons]

theorem add_perm_of_mem {s : F α} {a : α} (h : a ∈ values s) :
    (values (add s a)).Perm (values s) := by
  refine (List.perm_ext_iff_of_nodup (nodup_values _) (nodup_values s)).mpr ?_
  intro b
  rw [mem_add]
  exact ⟨fun hb => hb.elim (fun hb => hb ▸ h) id, Or.inr⟩

theorem length_add_le (s : F α) (a : α) : length (add s a) ≤ length s + 1 := by
  by_cases h : a ∈ values s
  · have := (add_perm_of_mem h).length_eq
    simp only [length]
    omega
  · have := (add_perm h).length_eq
    simp only [length, List.length_cons] at *
    omega

theorem length_remove_le (s : F α) (a : α) : length (remove s a) ≤ length s := by
  have hsubset : values (remove s a) ⊆ values s := fun b hb => (mem_remove.mp hb).2
  exact (List.subperm_of_subset (nodup_values (remove s a)) hsubset).length_le

theorem length_foldl_add_le (s : F α) (l : List α) :
    length (l.foldl add s) ≤ l.length + length s := by
  induction l generalizing s with
  | nil => simp
  | cons a l ih =>
    have hrest := ih (add s a)
    have hadd := length_add_le s a
    rw [List.foldl_cons, List.length_cons]
    omega

theorem length_foldl_remove_le (s : F α) (l : List α) : length (l.foldl remove s) ≤ length s := by
  induction l generalizing s with
  | nil => exact Nat.le_refl _
  | cons a l ih => exact Nat.le_trans (ih (remove s a)) (length_remove_le s a)

end EnumerableSet

/-! ### Lists as enumerable sets -/

/-- A list without repetitions. -/
structure ListSet (α : Type) where
  values : List α
  nodup : values.Nodup

namespace ListSet

variable {α : Type} [DecidableEq α]

/-- Append the element unless it is there. -/
def add (s : ListSet α) (a : α) : ListSet α :=
  if h : a ∈ s.values then s
  else ⟨s.values ++ [a], (List.perm_append_singleton a s.values).nodup_iff.mpr
    (List.nodup_cons.mpr ⟨h, s.nodup⟩)⟩

theorem idxOf_remove {s : ListSet α} {a : α} (h : a ∈ s.values) :
    a ∉ SwapRemove.swapRemove s.values (s.values.idxOf a) ∧
      (SwapRemove.swapRemove s.values (s.values.idxOf a)).Nodup := by
  have hlt := List.idxOf_lt_length_of_mem h
  have hp := (SwapRemove.cons_swapRemove_perm hlt).nodup_iff.mpr s.nodup
  rwa [List.getElem_idxOf hlt, List.nodup_cons] at hp

/-- Move the last element to the place of the removed one. -/
def remove (s : ListSet α) (a : α) : ListSet α :=
  if h : a ∈ s.values then
    ⟨SwapRemove.swapRemove s.values (s.values.idxOf a), (idxOf_remove h).2⟩
  else s

theorem mem_add {s : ListSet α} {a b : α} : b ∈ (s.add a).values ↔ b = a ∨ b ∈ s.values := by
  unfold add
  split_ifs with h
  · exact ⟨Or.inr, fun hb => hb.elim (fun hb => hb ▸ h) id⟩
  · simp [or_comm]

theorem mem_remove {s : ListSet α} {a b : α} :
    b ∈ (s.remove a).values ↔ b ≠ a ∧ b ∈ s.values := by
  unfold remove
  split_ifs with h
  · have hlt := List.idxOf_lt_length_of_mem h
    constructor
    · intro hb
      exact ⟨fun hba => (idxOf_remove h).1 (hba ▸ hb), SwapRemove.mem_of_mem_swapRemove hlt hb⟩
    · rintro ⟨hne, hb⟩
      rcases SwapRemove.mem_swapRemove_or_eq hlt hb with heq | hmem
      · exact absurd (heq.trans (List.getElem_idxOf hlt)) hne
      · exact hmem
  · exact ⟨fun hb => ⟨fun hba => h (hba ▸ hb), hb⟩, And.right⟩

instance : EnumerableSet ListSet where
  empty := ⟨[], List.nodup_nil⟩
  values := ListSet.values
  add := ListSet.add
  remove := ListSet.remove
  values_empty := rfl
  nodup_values := ListSet.nodup
  mem_add := ListSet.mem_add
  mem_remove := ListSet.mem_remove

end ListSet
