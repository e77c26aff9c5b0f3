import Mathlib.Tactic.Common
import Mathlib.Logic.Relation

/-!
# Calls that hand over control many times

A machine whose calls may hand control to foreign code, go on with its answer, and hand over control
again. `start` runs a call up to the first time it does so, `resume` and `fail` run it on from there,
with the answer of a foreign call that returned or that failed; a failed foreign call leaves no trace.
Where a call hands over control it says what is left of it to do. A call that fails is rolled back to
the state it started in.

`Reachable` is every configuration that some order of calls and answers leads to. `Invariant` states
what has to be shown of the parts of a call for a condition to hold in all of them; the condition may
depend on what is left of the open calls.
-/

namespace Handover

/-- A machine with calls `α` on states `σ`. Foreign code answers `β`, and `ρ` is what is left of a
call that has handed over control. -/
structure Machine (ε σ α β ρ : Type) where
  start : α → σ → Except ε (σ × Option ρ)
  resume : ρ → β → σ → Except ε (σ × Option ρ)
  fail : ρ → β → σ → Except ε (σ × Option ρ)

/-- An open call: the state it started in, the state in which it handed over control last, and what is
left of it. -/
structure Frame (σ ρ : Type) where
  saved : σ
  mark : σ
  rest : ρ

/-- The current state, and the open calls, innermost first. -/
structure Config (σ ρ : Type) where
  state : σ
  frames : List (Frame σ ρ)

inductive Label (α β : Type) where
  /-- a call is made, from outside or by the foreign code of the innermost open call -/
  | call (a : α)
  /-- the foreign code of the innermost open call returns -/
  | ret (b : β)
  /-- the foreign code of the innermost open call fails -/
  | revert (b : β)
  /-- the innermost open call cannot go on, for want of resources -/
  | exhaust

variable {ε σ α β ρ : Type}

/-- A call that started in `saved` has run for a while. -/
def proceed (saved : σ) (frames : List (Frame σ ρ)) : Except ε (σ × Option ρ) → Config σ ρ
  | .ok (s, none) => ⟨s, frames⟩
  | .ok (s, some r) => ⟨s, ⟨saved, s, r⟩ :: frames⟩
  | .error _ => ⟨saved, frames⟩

/-- One step; `none` for an answer when no call is open. -/
def Machine.step (M : Machine ε σ α β ρ) : Label α β → Config σ ρ → Option (Config σ ρ)
  | .call a, c => some (proceed c.state c.frames (M.start a c.state))
  | .ret b, ⟨s, f :: frames⟩ => some (proceed f.saved frames (M.resume f.rest b s))
  | .revert b, ⟨_, f :: frames⟩ => some (proceed f.saved frames (M.fail f.rest b f.mark))
  | .exhaust, ⟨_, f :: frames⟩ => some ⟨f.saved, frames⟩
  | _, ⟨_, []⟩ => none

variable {M : Machine ε σ α β ρ} {P Q : Config σ ρ → Label α β → Prop} {c₀ c c' : Config σ ρ}

/-- The configurations that `c₀` leads to by steps that `P` allows. -/
inductive Reachable (M : Machine ε σ α β ρ) (P : Config σ ρ → Label α β → Prop) (c₀ : Config σ ρ) :
    Config σ ρ → Prop where
  | refl : Reachable M P c₀ c₀
  | step {c c' : Config σ ρ} (l : Label α β) : Reachable M P c₀ c → P c l → M.step l c = some c' →
      Reachable M P c₀ c'

theorem Reachable.mono (hPQ : ∀ c l, P c l → Q c l) (h : Reachable M P c₀ c) :
    Reachable M Q c₀ c := by
  induction h with
  | refl => exact .refl
  | step l _ hl hs ih => exact ih.step l (hPQ _ _ hl) hs

theorem Reachable.trans (h : Reachable M P c₀ c) (h' : Reachable M P c c') :
    Reachable M P c₀ c' := by
  induction h' with
  | refl => exact h
  | step l _ hl hs ih => exact ih.step l hl hs

/-! ### Invariants -/

/-- What is left of the open calls. -/
def Config.rests (c : Config σ ρ) : List ρ :=
  c.frames.map Frame.rest

/-- `I` holds of the current state and of every state that an open call may go back to; each of them
together with what is left of the calls that are open then. `K` holds of what is left of a call, with
the calls it is nested in. -/
inductive Holds (I : List ρ → σ → Prop) (K : List ρ → ρ → Prop) : List (Frame σ ρ) → Prop where
  | nil : Holds I K []
  | cons {f : Frame σ ρ} {frames : List (Frame σ ρ)} : I (frames.map Frame.rest) f.saved →
      I (f.rest :: frames.map Frame.rest) f.mark → K (frames.map Frame.rest) f.rest →
      Holds I K frames → Holds I K (f :: frames)

variable {I : List ρ → σ → Prop} {K : List ρ → ρ → Prop}

/-- What a call has come to. -/
def Meets (I : List ρ → σ → Prop) (K : List ρ → ρ → Prop) (rests : List ρ) :
    σ × Option ρ → Prop
  | (s, none) => I rests s
  | (s, some r) => I (r :: rests) s ∧ K rests r

/-- Every part of a call keeps `I` and `K`. -/
structure Preserved (M : Machine ε σ α β ρ) (P : Config σ ρ → Label α β → Prop)
    (I : List ρ → σ → Prop) (K : List ρ → ρ → Prop) : Prop where
  start : ∀ c a o, P c (.call a) → I c.rests c.state → M.start a c.state = .ok o →
    Meets I K c.rests o
  resume : ∀ c f frames b o, c.frames = f :: frames → P c (.ret b) → I c.rests c.state →
    K (frames.map Frame.rest) f.rest → M.resume f.rest b c.state = .ok o →
    Meets I K (frames.map Frame.rest) o
  fail : ∀ c f frames b o, c.frames = f :: frames → P c (.revert b) →
    I (f.rest :: frames.map Frame.rest) f.mark → K (frames.map Frame.rest) f.rest →
    M.fail f.rest b f.mark = .ok o → Meets I K (frames.map Frame.rest) o

/-- What every part of a call keeps, a run keeps. -/
theorem Reachable.invariant (hpres : Preserved M P I K)
    (h₀ : I c₀.rests c₀.state) (hframes₀ : Holds I K c₀.frames) (h : Reachable M P c₀ c) :
    I c.rests c.state ∧ Holds I K c.frames := by
  induction h with
  | refl => exact ⟨h₀, hframes₀⟩
  | @step c c' l _ hl hs ih =>
    have hproceed : ∀ (saved : σ) (frames : List (Frame σ ρ)) (x : Except ε (σ × Option ρ)),
        I (frames.map Frame.rest) saved → Holds I K frames →
        (∀ o, x = .ok o → Meets I K (frames.map Frame.rest) o) →
        I (proceed saved frames x).rests (proceed saved frames x).state ∧
          Holds I K (proceed saved frames x).frames := by
      intro saved frames x hsaved hframes hx
      match x with
      | .error e => exact ⟨hsaved, hframes⟩
      | .ok (s, none) => exact ⟨hx _ rfl, hframes⟩
      | .ok (s, some r) =>
        obtain ⟨hs, hr⟩ := hx _ rfl
        exact ⟨hs, .cons hsaved hs hr hframes⟩
    obtain ⟨s, frames⟩ := c
    obtain ⟨hstate, hframes⟩ := ih
    cases l with
    | call a =>
      cases hs
      exact hproceed _ _ _ hstate hframes fun o ho => hpres.start _ a o hl hstate ho
    | ret b =>
      cases hframes with
      | nil => cases hs
      | @cons f frames hsaved hmark hr hframes =>
        cases hs
        exact hproceed _ _ _ hsaved hframes fun o ho =>
          hpres.resume ⟨s, f :: frames⟩ f frames b o rfl hl hstate hr ho
    | revert b =>
      cases hframes with
      | nil => cases hs
      | @cons f frames hsaved hmark hr hframes =>
        cases hs
        exact hproceed _ _ _ hsaved hframes fun o ho =>
          hpres.fail ⟨s, f :: frames⟩ f frames b o rfl hl hmark hr ho
    | exhaust =>
      cases hframes with
      | nil => cases hs
      | cons hsaved _ _ hframes =>
        cases hs
        exact ⟨hsaved, hframes⟩

/-! ### Running -/

/-- The steps of `labels`, each of them allowed. -/
def run (M : Machine ε σ α β ρ) (P : Config σ ρ → Label α β → Prop) [∀ c l, Decidable (P c l)] :
    List (Label α β) → Config σ ρ → Option (Config σ ρ)
  | [], c => some c
  | l :: labels, c => if P c l then (M.step l c).bind (run M P labels) else none

theorem Reachable.run [∀ c l, Decidable (P c l)] {labels : List (Label α β)}
    (h : Reachable M P c₀ c) (hrun : run M P labels c = some c') : Reachable M P c₀ c' := by
  induction labels generalizing c with
  | nil =>
    cases hrun
    exact h
  | cons l labels ih =>
    unfold Handover.run at hrun
    split_ifs at hrun with hl
    obtain ⟨c₁, hs, hrun⟩ := Option.bind_eq_some_iff.mp hrun
    exact ih (h.step l hl hs) hrun

/-- The configuration a run leads to, or the one it starts from if some step is impossible. -/
theorem Reachable.run_getD [∀ c l, Decidable (P c l)] (labels : List (Label α β))
    (h : Reachable M P c₀ c) : Reachable M P c₀ ((Handover.run M P labels c).getD c) := by
  cases hrun : Handover.run M P labels c with
  | none => exact h
  | some c' => exact h.run hrun

end Handover
