import Redeemy.Lib.CallStack
import Mathlib.Logic.Relation

/-!
# Simulation between machines with calls that hand over control

A machine `M` that is built on a machine `N`: what a call of `M` does is some steps of `N`, and an open
call of `M` is some open calls of `N`. If each half of a call, and what remains of a failed one, is
matched so, then every configuration that `M` reaches lies over one that `N` reaches
(`Simulation.reachable`). A rollback in `M` need not be one in `N`: `N` goes on from the configuration
it had reached when the call was made. The match may use what is known of the states of `N`.
-/

namespace CallStack

variable {ε ε' σ τ α β : Type}
variable {M : Machine ε σ α} {P : σ → α → Prop} {N : Machine ε' τ β} {Q : τ → β → Prop}
variable {J : τ → Prop} {f : σ → τ} {g : α → σ → List (β × τ)}

/-- From `d` to `d'` in some steps of `N`. -/
def Moves (N : Machine ε' τ β) (Q : τ → β → Prop) : Config τ β → Config τ β → Prop :=
  Relation.ReflTransGen fun d d' => ∃ l, Allowed Q d l ∧ N.step l d = some d'

theorem Moves.single {d d' : Config τ β} (l : Label β) (hl : Allowed Q d l)
    (hs : N.step l d = some d') : Moves N Q d d' :=
  Relation.ReflTransGen.single ⟨l, hl, hs⟩

theorem Reachable.moves {t₀ : τ} {d d' : Config τ β} (h : Reachable N Q t₀ d)
    (hmoves : Moves N Q d d') : Reachable N Q t₀ d' := by
  induction hmoves with
  | refl => exact h
  | tail _ hstep ih =>
    obtain ⟨l, hl, hs⟩ := hstep
    exact ih.step l hl hs

/-- A call that hands over control when it is made in `s`. -/
def Opens (M : Machine ε σ α) (a : α) (s : σ) : Prop :=
  (∃ m, M.enter a s = .ok m) ∧ M.yields a s = true

/-! ### The parts of a call, as steps -/

variable {a : β} {t m t' : τ} {frames : List (β × τ)}

theorem moves_opened (ha : Q t a) (henter : N.enter a t = .ok m) (hyields : N.yields a t = true) :
    Moves N Q ⟨t, frames⟩ ⟨m, (a, t) :: frames⟩ := by
  refine Moves.single (.call a) ha ?_
  simp only [Machine.step, henter, hyields, if_true]

theorem moves_closed (hleave : N.leave a m = .ok t') :
    Moves N Q ⟨m, (a, t) :: frames⟩ ⟨t', frames⟩ := by
  refine Moves.single .ret trivial ?_
  simp only [Machine.step, Machine.finish, hleave]

theorem moves_passed (ha : Q t a) (henter : N.enter a t = .ok m) (hyields : N.yields a t = false)
    (hleave : N.leave a m = .ok t') : Moves N Q ⟨t, frames⟩ ⟨t', frames⟩ := by
  refine Moves.single (.call a) ha ?_
  simp [Machine.step, Machine.finish, henter, hyields, hleave]

/-- A call that does not pass leaves what remains of it, whether it fails at once or later. -/
theorem moves_failed (ha : Q t a)
    (hfail : ∀ m t', N.enter a t = .ok m → N.yields a t = false → N.leave a m ≠ .ok t') :
    Moves N Q ⟨t, frames⟩ ⟨N.abort a t, frames⟩ := by
  cases henter : N.enter a t with
  | error e =>
    refine Moves.single (.call a) ha ?_
    simp only [Machine.step, henter]
  | ok m =>
    cases hyields : N.yields a t with
    | true => exact (moves_opened ha henter hyields).trans (Moves.single .revert trivial rfl)
    | false =>
      refine Moves.single (.call a) ha ?_
      have hfinish : N.finish a t m = N.abort a t := by
        unfold Machine.finish
        split
        · exact absurd ‹_› (hfail m _ henter hyields)
        · rfl
      simp [Machine.step, henter, hyields, hfinish]

/-! ### The rule -/

/-- `f` reads a state of `N` off a state of `M`, and `g a s` are the calls of `N` that are open while
call `a`, made in `s`, is. The states of `N` satisfy `J`. -/
structure Simulation (M : Machine ε σ α) (P : σ → α → Prop) (N : Machine ε' τ β) (Q : τ → β → Prop)
    (J : τ → Prop) (f : σ → τ) (g : α → σ → List (β × τ)) : Prop where
  opened : ∀ a s m frames, J (f s) → P s a → M.enter a s = .ok m → M.yields a s = true →
    Moves N Q ⟨f s, frames⟩ ⟨f m, g a s ++ frames⟩
  closed : ∀ a s m s' frames, J (f s) → J (f m) → P s a → Opens M a s → M.leave a m = .ok s' →
    Moves N Q ⟨f m, g a s ++ frames⟩ ⟨f s', frames⟩
  passed : ∀ a s m s' frames, J (f s) → P s a → M.enter a s = .ok m → M.yields a s = false →
    M.leave a m = .ok s' → Moves N Q ⟨f s, frames⟩ ⟨f s', frames⟩
  failed : ∀ a s frames, J (f s) → P s a →
    (∀ m s', M.enter a s = .ok m → M.yields a s = false → M.leave a m ≠ .ok s') →
    Moves N Q ⟨f s, frames⟩ ⟨f (M.abort a s), frames⟩

/-- The open calls of `N` under the open calls of `M`. -/
def under (g : α → σ → List (β × τ)) (frames : List (α × σ)) : List (β × τ) :=
  frames.flatMap fun frame => g frame.1 frame.2

/-- Where each open call was made, `N` had reached a configuration under it. -/
def FramesReached (M : Machine ε σ α) (P : σ → α → Prop) (N : Machine ε' τ β) (Q : τ → β → Prop)
    (f : σ → τ) (g : α → σ → List (β × τ)) (t₀ : τ) : List (α × σ) → Prop
  | [] => True
  | (a, s) :: frames => P s a ∧ Opens M a s ∧ Reachable N Q t₀ ⟨f s, under g frames⟩ ∧
    FramesReached M P N Q f g t₀ frames

/-- The simulation rule. -/
theorem Simulation.reachable {s₀ : σ} {c : Config σ α} (h : Simulation M P N Q J f g)
    (hJ : ∀ d, Reachable N Q (f s₀) d → J d.state) (hc : Reachable M P s₀ c) :
    Reachable N Q (f s₀) ⟨f c.state, under g c.frames⟩ := by
  -- `M` may go back to where an open call was made, and `N` must be able to go on from there
  suffices hboth : Reachable N Q (f s₀) ⟨f c.state, under g c.frames⟩ ∧
      FramesReached M P N Q f g (f s₀) c.frames from hboth.1
  induction hc with
  | init => exact ⟨.init, trivial⟩
  | @step c c' l _ hl hs ih =>
    obtain ⟨m, frames⟩ := c
    obtain ⟨hm, hframes⟩ := ih
    have hJm : J (f m) := hJ _ hm
    cases l with
    | call a =>
      have hP : P m a := hl
      simp only [Machine.step] at hs
      split at hs
      · rename_i e he
        cases hs
        refine ⟨hm.moves (h.failed a m _ hJm hP fun m' s' hm' => ?_), hframes⟩
        rw [he] at hm'
        cases hm'
      · rename_i m' hm'
        split at hs
        · rename_i hyields
          cases hs
          exact ⟨hm.moves (h.opened a m m' _ hJm hP hm' hyields), hP, ⟨⟨m', hm'⟩, hyields⟩, hm,
            hframes⟩
        · rename_i hyields
          cases hs
          refine ⟨?_, hframes⟩
          show Reachable N Q (f s₀) ⟨f (M.finish a m m'), under g frames⟩
          unfold Machine.finish
          split
          · exact hm.moves (h.passed a m m' _ _ hJm hP hm' (Bool.eq_false_iff.mpr hyields) ‹_›)
          · rename_i e he
            refine hm.moves (h.failed a m _ hJm hP fun m₁ s' hm₁ _ hs' => ?_)
            obtain rfl := Except.ok.inj (hm'.symm.trans hm₁)
            rw [he] at hs'
            cases hs'
    | ret =>
      cases frames with
      | nil => cases hs
      | cons top frames =>
        obtain ⟨a, s⟩ := top
        obtain ⟨hP, hopens, hstart, hrest⟩ := hframes
        cases hs
        refine ⟨?_, hrest⟩
        show Reachable N Q (f s₀) ⟨f (M.finish a s m), under g frames⟩
        unfold Machine.finish
        split
        · exact hm.moves (h.closed a s m _ _ (hJ _ hstart) hJm hP hopens ‹_›)
        · exact hstart.moves (h.failed a s _ (hJ _ hstart) hP fun _ _ _ hno => by simp [hopens.2] at hno)
    | revert =>
      cases frames with
      | nil => cases hs
      | cons top frames =>
        obtain ⟨a, s⟩ := top
        obtain ⟨hP, hopens, hstart, hrest⟩ := hframes
        cases hs
        exact ⟨hstart.moves (h.failed a s _ (hJ _ hstart) hP fun _ _ _ hno => by
          simp [hopens.2] at hno), hrest⟩

end CallStack
