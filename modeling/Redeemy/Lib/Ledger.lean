import Mathlib.Algebra.BigOperators.Group.Finset.Piecewise
import Mathlib.Algebra.GroupWithZero.Nat
import Mathlib.Algebra.BigOperators.Group.Finset.Basic

/-!
# Ledgers

Account balances as a function, with the three movements of a token: into an account, out of an
account, and between two accounts (which may be the same). Over finitely many accounts the first
two change the total by the amount and the third leaves it alone.
-/

namespace Ledger

variable {α : Type} [DecidableEq α]

/-- Add `amount` to an account. -/
def credit (l : α → Nat) (a : α) (amount : Nat) : α → Nat :=
  Function.update l a (l a + amount)

/-- Take `amount` from an account. -/
def debit (l : α → Nat) (a : α) (amount : Nat) : α → Nat :=
  Function.update l a (l a - amount)

/-- Move `amount` from one account to another. -/
def move (l : α → Nat) (src dst : α) (amount : Nat) : α → Nat :=
  credit (debit l src amount) dst amount

variable {l : α → Nat} {a b src dst : α} {amount : Nat}

@[simp] theorem credit_self : credit l a amount a = l a + amount := by
  simp [credit]

@[simp] theorem credit_of_ne (h : b ≠ a) : credit l a amount b = l b := by
  simp [credit, h]

@[simp] theorem debit_self : debit l a amount a = l a - amount := by
  simp [debit]

@[simp] theorem debit_of_ne (h : b ≠ a) : debit l a amount b = l b := by
  simp [debit, h]

theorem le_credit : l b ≤ credit l a amount b := by
  by_cases h : b = a
  · subst h
    simp
  · simp [h]

theorem le_move (h : b ≠ src) : l b ≤ move l src dst amount b := by
  unfold move
  exact (debit_of_ne h).symm.le.trans le_credit

/-- Only the receiver of a movement gains. -/
theorem move_le (h : b ≠ dst) : move l src dst amount b ≤ l b := by
  unfold move
  rw [credit_of_ne h]
  by_cases hsrc : b = src
  · rw [hsrc, debit_self]
    exact Nat.sub_le _ _
  · rw [debit_of_ne hsrc]

/-- What the sender has left covers what it had less the amount. -/
theorem sub_le_move : l b - amount ≤ move l src dst amount b := by
  unfold move
  refine le_trans ?_ le_credit
  by_cases h : b = src
  · rw [h, debit_self]
  · rw [debit_of_ne h]
    exact Nat.sub_le _ _

theorem move_dst (h : src ≠ dst) : move l src dst amount dst = l dst + amount := by
  simp [move, h.symm]

theorem move_src (h : src ≠ dst) : move l src dst amount src = l src - amount := by
  simp [move, h]

theorem move_of_ne (hsrc : b ≠ src) (hdst : b ≠ dst) : move l src dst amount b = l b := by
  simp [move, hsrc, hdst]

theorem move_self (h : amount ≤ l src) : move l src src amount = l := by
  funext b
  by_cases hb : b = src
  · subst hb
    simp only [move, credit_self, debit_self]
    omega
  · rw [move_of_ne hb hb]

theorem move_zero : move l src dst 0 = l := by
  funext b
  by_cases hdst : b = dst
  · subst hdst
    by_cases hsrc : b = src
    · rw [hsrc, move_self (Nat.zero_le _)]
    · exact move_dst (Ne.symm hsrc)
  · by_cases hsrc : b = src
    · subst hsrc
      exact move_src hdst
    · exact move_of_ne hsrc hdst

/-- A movement over a third account. -/
theorem move_move {via : α} (hsrc : via ≠ src) (hdst : via ≠ dst) (h : amount ≤ l src) :
    move (move l src via amount) via dst amount = move l src dst amount := by
  funext b
  by_cases hvia : b = via
  · subst hvia
    rw [move_src hdst, move_dst hsrc.symm, move_of_ne hsrc hdst, Nat.add_sub_cancel]
  · by_cases hb : b = dst
    · subst hb
      rw [move_dst (Ne.symm hvia)]
      by_cases hbs : b = src
      · subst hbs
        rw [move_src hvia, move_self h]
        omega
      · rw [move_of_ne hbs hvia, move_dst (Ne.symm hbs)]
    · rw [move_of_ne hvia hb]
      by_cases hbs : b = src
      · subst hbs
        rw [move_src hvia, move_src hb]
      · rw [move_of_ne hbs hvia, move_of_ne hbs hb]

/-! Something else beside the balances does not matter. -/

theorem credit_add {pending : α → Nat} :
    credit (fun x => l x + pending x) a amount = fun x => credit l a amount x + pending x := by
  funext b
  by_cases hb : b = a
  · subst hb
    simp only [credit_self]
    omega
  · simp [hb]

theorem debit_add {pending : α → Nat} (h : amount ≤ l a) :
    debit (fun x => l x + pending x) a amount = fun x => debit l a amount x + pending x := by
  funext b
  by_cases hb : b = a
  · subst hb
    simp only [debit_self]
    omega
  · simp [hb]

variable [Fintype α]

/-- One entry changes, and the total changes with it. -/
theorem sum_update {n : Nat} : (∑ x, Function.update l a n x) + l a = (∑ x, l x) + n := by
  rw [Finset.sum_update_of_mem (Finset.mem_univ a), Finset.sdiff_singleton_eq_erase,
    ← Finset.add_sum_erase _ l (Finset.mem_univ a)]
  omega

theorem le_sum : l a ≤ ∑ x, l x := by
  rw [← Finset.add_sum_erase _ l (Finset.mem_univ a)]
  exact Nat.le_add_right ..

/-- A total over all accounts is one over a list of them, if the others have nothing. -/
theorem sum_eq_sum_map {accounts : List α} {f : α → Nat} (hnodup : accounts.Nodup)
    (hin : ∀ x ∈ accounts, l x = f x) (hout : ∀ x, x ∉ accounts → l x = 0) :
    ∑ x, l x = (accounts.map f).sum := by
  have hsub : ∑ x ∈ accounts.toFinset, l x = ∑ x, l x :=
    Finset.sum_subset (Finset.subset_univ _) fun x _ hx => hout x (by simpa using hx)
  rw [← hsub, List.sum_toFinset l hnodup, List.map_congr_left hin]

theorem sum_credit : ∑ x, credit l a amount x = (∑ x, l x) + amount := by
  have hsum := sum_update (l := l) (a := a) (n := l a + amount)
  unfold credit
  omega

/-- One account has everything. -/
theorem sum_credit_zero : ∑ x, credit (fun _ => 0) a amount x = amount := by
  rw [sum_credit, Finset.sum_const_zero, Nat.zero_add]

theorem sum_debit (h : amount ≤ l a) : (∑ x, debit l a amount x) + amount = ∑ x, l x := by
  have hsum := sum_update (l := l) (a := a) (n := l a - amount)
  unfold debit
  omega

theorem sum_move (h : amount ≤ l src) : ∑ x, move l src dst amount x = ∑ x, l x := by
  rw [move, sum_credit, sum_debit h]

end Ledger
