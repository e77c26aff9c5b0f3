import Mathlib.Algebra.BigOperators.Group.List.Basic
import Mathlib.Data.Nat.Periodic
import Mathlib.Tactic.Common

/-!
# Weighted draws

Lay the elements of a list out one after the other, each as wide as its weight: `pick l r` is the
index of the element that covers position `r`. Every position below the total weight is covered
(`exists_pick`), by the one element whose stretch it lies in (`pick_eq_some_iff`). If the position is
a number modulo the total weight, then every run of as many numbers draws each element as often as it
weighs (`card_draws`).
-/

namespace Draw

/-- The index of the element that covers position `r`. -/
def pick : List Nat → Nat → Option Nat
  | [], _ => none
  | w :: l, r => if r < w then some 0 else (pick l (r - w)).map (· + 1)

theorem pick_eq_some_iff {l : List Nat} {r i : Nat} :
    pick l r = some i ↔ ∃ h : i < l.length, (l.take i).sum ≤ r ∧ r < (l.take i).sum + l[i] := by
  induction l generalizing r i with
  | nil => simp [pick]
  | cons w l ih =>
    rw [pick]
    split_ifs with hr
    · -- position `r` lies in the first element, so in no later one
      cases i with
      | zero => simp [hr]
      | succ i =>
        simp only [Option.some.injEq, List.take_succ_cons, List.sum_cons, List.getElem_cons_succ]
        constructor
        · intro h
          cases h
        · rintro ⟨_, hlow, _⟩
          omega
    · cases i with
      | zero => simp [hr]
      | succ i =>
        rw [Option.map_eq_some_iff]
        simp only [Nat.add_right_cancel_iff, exists_eq_right, ih, List.length_cons,
          Nat.add_lt_add_iff_right, List.take_succ_cons, List.sum_cons, List.getElem_cons_succ]
        constructor
        · rintro ⟨h, hlow, hhigh⟩
          exact ⟨h, by omega, by omega⟩
        · rintro ⟨h, hlow, hhigh⟩
          exact ⟨h, by omega, by omega⟩

theorem exists_pick {l : List Nat} {r : Nat} (h : r < l.sum) : ∃ i, pick l r = some i := by
  induction l generalizing r with
  | nil => simp at h
  | cons w l ih =>
    rw [pick]
    split_ifs with hr
    · exact ⟨0, rfl⟩
    · rw [List.sum_cons] at h
      obtain ⟨i, hi⟩ := ih (r := r - w) (by omega)
      exact ⟨i + 1, by rw [hi, Option.map_some]⟩

/-- The start of an element's stretch is drawn as that element. -/
theorem pick_sum_take {l : List Nat} {i : Nat} (h : i < l.length) (hpos : 0 < l[i]) :
    pick l (l.take i).sum = some i :=
  pick_eq_some_iff.mpr ⟨h, Nat.le_refl _, by omega⟩

theorem sum_take_lt {l : List Nat} {i : Nat} (h : i < l.length) (hpos : 0 < l[i]) :
    (l.take i).sum < l.sum := by
  have hsplit := List.sum_take_add_sum_drop l i
  rw [List.drop_eq_getElem_cons h, List.sum_cons] at hsplit
  omega

/-- As many positions draw an element as it weighs. -/
theorem count_pick {l : List Nat} {i : Nat} (h : i < l.length) :
    l.sum.count (fun r => pick l r = some i) = l[i] := by
  have hsplit := List.sum_take_add_sum_drop l i
  rw [List.drop_eq_getElem_cons h, List.sum_cons] at hsplit
  have hstretch : (Finset.range l.sum).filter (fun r => pick l r = some i) =
      Finset.Ico (l.take i).sum ((l.take i).sum + l[i]) := by
    ext r
    simp only [Finset.mem_filter, Finset.mem_range, Finset.mem_Ico, pick_eq_some_iff, h,
      exists_true_left]
    omega
  rw [Nat.count_eq_card_filter_range, hstretch, Nat.card_Ico]
  omega

/-- Among as many consecutive numbers as the total weight, as many draw an element as it weighs. -/
theorem card_draws {l : List Nat} {i : Nat} (start : Nat) (h : i < l.length) :
    ((Finset.Ico start (start + l.sum)).filter fun r => pick l (r % l.sum) = some i).card = l[i] := by
  have hperiodic : Function.Periodic (fun r => pick l (r % l.sum) = some i) l.sum := by
    intro r
    dsimp only
    rw [Nat.add_mod_right]
  rw [Nat.filter_Ico_card_eq_of_periodic start l.sum _ hperiodic, ← count_pick h,
    Nat.count_eq_card_filter_range, Nat.count_eq_card_filter_range]
  congr 1
  refine Finset.filter_congr fun r hr => ?_
  rw [Nat.mod_eq_of_lt (Finset.mem_range.mp hr)]

end Draw
