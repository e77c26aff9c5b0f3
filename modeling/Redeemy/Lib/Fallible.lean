import Mathlib.Algebra.BigOperators.Group.List.Basic
import Mathlib.Data.List.Permutation
import Mathlib.Data.Multiset.ZeroCons

/-!
# Fallible computations

Rules for code written in `Except`: what a successful `bind` did, guards, array reads, and the
invariant and measure rules of a fallible loop (`List.foldlM`). A caller inverts a function once
with these and never looks at the error branches again. `Settles` is for the other direction, a loop
that succeeds.
-/

namespace Fallible

variable {ε α β γ : Type}

theorem bind_eq_ok {x : Except ε α} {f : α → Except ε β} {b : β} :
    (x >>= f) = .ok b ↔ ∃ a, x = .ok a ∧ f a = .ok b := by
  cases x with
  | error e => simp [bind, Except.bind]
  | ok a => simp [bind, Except.bind]

theorem ok_bind {a : α} {f : α → Except ε β} : (.ok a >>= f) = f a := rfl

theorem pure_eq_ok {a b : α} : (pure a : Except ε α) = .ok b ↔ a = b := by
  simp [pure, Except.pure]

theorem toOption_eq_some {x : Except ε α} {a : α} : x.toOption = some a ↔ x = .ok a := by
  cases x with
  | error e => simp [Except.toOption]
  | ok b => simp [Except.toOption]

theorem eq_ok_of_isSome {x : Except ε α} {a : α} (h : x.toOption.isSome = true) :
    x = .ok (x.toOption.getD a) := by
  cases x with
  | error e => cases h
  | ok b => rfl

theorem ne_ok_of_isNone {x : Except ε α} (h : x.toOption.isNone = true) (a : α) : x ≠ .ok a := by
  rintro rfl
  cases h

/-- A guard: continue if `c` holds, stop with the error `e` otherwise. -/
def require (c : Prop) [Decidable c] (e : ε) : Except ε Unit :=
  if c then .ok () else .error e

theorem require_eq_ok {c : Prop} [Decidable c] {e : ε} {u : Unit} : require c e = .ok u ↔ c := by
  unfold require
  split_ifs with h <;> simp [h]

theorem require_of {c : Prop} [Decidable c] {e : ε} (h : c) : require c e = .ok () :=
  require_eq_ok.mpr h

/-- The value of an option, or the error `e`. -/
def orThrow (x : Option α) (e : ε) : Except ε α :=
  match x with
  | some a => .ok a
  | none => .error e

theorem orThrow_eq_ok {x : Option α} {e : ε} {a : α} : orThrow x e = .ok a ↔ x = some a := by
  cases x <;> simp [orThrow]

/-- The arguments of a loop over `as` that reads the array `bs` at the same index. -/
def pairUp : List α → List β → List (α × Option β)
  | [], _ => []
  | a :: as, [] => (a, none) :: pairUp as []
  | a :: as, b :: bs => (a, some b) :: pairUp as bs

/-! ### Loops -/

variable {f : β → α → Except ε β} {l : List α} {b b' : β}

/-- The invariant rule: what every successful iteration keeps, the loop keeps. -/
theorem foldlM_invariant {P : β → Prop}
    (hstep : ∀ b a b', a ∈ l → P b → f b a = .ok b' → P b') (hb : P b)
    (h : l.foldlM f b = .ok b') : P b' := by
  induction l generalizing b with
  | nil =>
    rw [List.foldlM_nil, pure_eq_ok] at h
    exact h ▸ hb
  | cons a l ih =>
    rw [List.foldlM_cons, bind_eq_ok] at h
    obtain ⟨m, hm, h⟩ := h
    exact ih (fun b x b' hx => hstep b x b' (List.mem_cons_of_mem a hx))
      (hstep b a m List.mem_cons_self hb hm) h

/-- The relation rule: a preorder that holds across every successful iteration holds across the
loop. -/
theorem foldlM_rel {R : β → β → Prop} (hrefl : ∀ b, R b b)
    (htrans : ∀ b c d, R b c → R c d → R b d)
    (hstep : ∀ b a b', a ∈ l → f b a = .ok b' → R b b') (h : l.foldlM f b = .ok b') : R b b' := by
  refine foldlM_invariant (fun c a c' ha hc hc' => htrans b c c' hc (hstep c a c' ha hc')) ?_ h
  exact hrefl b

/-- The graded rule: a relation that adds up, and holds with grade `g a` across an iteration on `a`,
holds across the loop with the sum of the grades. -/
theorem foldlM_graded {M : Type} [AddMonoid M] {R : M → β → β → Prop} (g : α → M)
    (hzero : ∀ b, R 0 b b) (hadd : ∀ m n b c d, R m b c → R n c d → R (m + n) b d)
    (hstep : ∀ b a b', a ∈ l → f b a = .ok b' → R (g a) b b') (h : l.foldlM f b = .ok b') :
    R (l.map g).sum b b' := by
  induction l generalizing b with
  | nil =>
    rw [List.foldlM_nil, pure_eq_ok] at h
    exact h ▸ hzero b
  | cons a l ih =>
    rw [List.foldlM_cons, bind_eq_ok] at h
    obtain ⟨m, hm, h⟩ := h
    rw [List.map_cons, List.sum_cons]
    exact hadd _ _ b m b' (hstep b a m List.mem_cons_self hm)
      (ih (fun b x b' hx => hstep b x b' (List.mem_cons_of_mem a hx)) h)

/-- The graded rule with lists as grades, one appended to the other. -/
theorem foldlM_flatMap {γ : Type} {R : List γ → β → β → Prop} (g : α → List γ) (hnil : ∀ b, R [] b b)
    (happend : ∀ u v b c d, R u b c → R v c d → R (u ++ v) b d)
    (hstep : ∀ b a b', a ∈ l → f b a = .ok b' → R (g a) b b') (h : l.foldlM f b = .ok b') :
    R (l.flatMap g) b b' := by
  induction l generalizing b with
  | nil =>
    rw [List.foldlM_nil, pure_eq_ok] at h
    exact h ▸ hnil b
  | cons a l ih =>
    rw [List.foldlM_cons, bind_eq_ok] at h
    obtain ⟨c, hc, h⟩ := h
    rw [List.flatMap_cons]
    exact happend _ _ b c b' (hstep b a c List.mem_cons_self hc)
      (ih (fun b x b' hx => hstep b x b' (List.mem_cons_of_mem a hx)) h)

/-- The measure rule: an iteration that adds `g a` gives a loop that adds the sum of the `g a`. -/
theorem foldlM_measure {M : Type} [AddMonoid M] (μ : β → M) (g : α → M)
    (hstep : ∀ b a b', a ∈ l → f b a = .ok b' → μ b' = μ b + g a)
    (h : l.foldlM f b = .ok b') : μ b' = μ b + (l.map g).sum :=
  foldlM_graded (R := fun m b b' => μ b' = μ b + m) g (fun b => (add_zero (μ b)).symm)
    (fun m n b c d hm hn => by rw [hn, hm, add_assoc]) hstep h

/-- A loop on the image of a state is the image of the loop, if each iteration is. -/
theorem foldlM_image {g : γ → α → Except ε γ} {lift : β → γ}
    (hstep : ∀ b a, g (lift b) a = lift <$> f b a) (l : List α) (b : β) :
    l.foldlM g (lift b) = lift <$> l.foldlM f b := by
  induction l generalizing b with
  | nil => rfl
  | cons a l ih =>
    rw [List.foldlM_cons, List.foldlM_cons, hstep, map_bind, bind_map_left]
    exact bind_congr ih

/-- A loop over lists, with a loop over each of them, is a loop over all their elements. -/
theorem foldlM_flatten (ls : List (List α)) :
    ls.foldlM (fun b l => l.foldlM f b) b = ls.flatten.foldlM f b := by
  induction ls generalizing b with
  | nil => rfl
  | cons l ls ih =>
    rw [List.flatten_cons, List.foldlM_append, List.foldlM_cons]
    exact congrArg _ (funext fun _ => ih)

/-- A loop over paired arrays that fails where the second is too short runs over their zip. -/
theorem foldlM_pairUp {f : γ → α × Option β → Except ε γ} {as : List α} {bs : List β} {s s' : γ}
    (hnone : ∀ s a s', f s (a, none) ≠ .ok s') (h : (pairUp as bs).foldlM f s = .ok s') :
    (as.zip bs).foldlM (fun s d => f s (d.1, some d.2)) s = .ok s' := by
  induction as generalizing bs s with
  | nil => exact h
  | cons a as ih =>
    cases bs with
    | nil =>
      rw [pairUp, List.foldlM_cons, bind_eq_ok] at h
      obtain ⟨m, hm, _⟩ := h
      exact absurd hm (hnone s a m)
    | cons b bs =>
      rw [pairUp, List.foldlM_cons, bind_eq_ok] at h
      obtain ⟨m, hm, h⟩ := h
      rw [List.zip_cons_cons, List.foldlM_cons, bind_eq_ok]
      exact ⟨m, hm, ih h⟩

/-! ### Loops that succeed -/

/-- In whatever order `f` is run on the elements of `m`, it succeeds on all of them, and `Q` holds
then. -/
def Settles (f : β → α → Except ε β) (Q : β → Prop) (m : Multiset α) (b : β) : Prop :=
  ∀ l : List α, (l : Multiset α) = m → ∃ b', l.foldlM f b = .ok b' ∧ Q b'

variable {Q : β → Prop}

theorem Settles.nil (h : Settles f Q 0 b) : Q b := by
  obtain ⟨b', hfold, hQ⟩ := h [] rfl
  rw [List.foldlM_nil, pure_eq_ok] at hfold
  exact hfold ▸ hQ

/-- Any element can be the first. -/
theorem Settles.cons {a : α} {m : Multiset α} (h : Settles f Q (a ::ₘ m) b) :
    ∃ b', f b a = .ok b' ∧ Settles f Q m b' := by
  induction m using Quotient.inductionOn with
  | h l₀ =>
    obtain ⟨_, hfold, _⟩ := h (a :: l₀) rfl
    rw [List.foldlM_cons, bind_eq_ok] at hfold
    obtain ⟨b', hfirst, _⟩ := hfold
    refine ⟨b', hfirst, fun l hl => ?_⟩
    obtain ⟨b'', hfold, hQ⟩ := h (a :: l) (by rw [← hl, Multiset.cons_coe])
    rw [List.foldlM_cons, bind_eq_ok] at hfold
    obtain ⟨b₁, hb₁, hrest⟩ := hfold
    rw [hfirst, Except.ok.injEq] at hb₁
    exact ⟨b'', hb₁ ▸ hrest, hQ⟩

theorem Settles.mono {R : β → Prop} {m : Multiset α} (hQR : ∀ b, Q b → R b) (h : Settles f Q m b) :
    Settles f R m b := by
  intro l hl
  obtain ⟨b', hfold, hQ⟩ := h l hl
  exact ⟨b', hfold, hQR b' hQ⟩

/-- There are finitely many orders to try. -/
theorem settles_of_permutations {g : β → Except ε γ} {l : List α}
    (h : ∀ l' ∈ l.permutations', (l'.foldlM f b >>= g).toOption.isSome = true) :
    Settles f (fun b => ∃ c, g b = .ok c) l b := by
  intro l' hl
  obtain ⟨c, hc⟩ := Option.isSome_iff_exists.mp
    (h l' (List.mem_permutations'.mpr (Multiset.coe_eq_coe.mp hl)))
  obtain ⟨b', hfold, hg⟩ := bind_eq_ok.mp (toOption_eq_some.mp hc)
  exact ⟨b', hfold, c, hg⟩

end Fallible
