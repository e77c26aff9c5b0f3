import Mathlib.Tactic.Common

/-!
# Calls that hand over control

A machine whose calls may hand control to foreign code before they are finished. While such a call
is open, the foreign code may make any further call, nested to any depth; the call then either goes
on to its end or is rolled back to the state it started in. `Reachable` is every configuration that
some order of calls, returns and rollbacks leads to, the states in the middle of open calls
included, and `Reachable.invariant` is the induction all later invariants use.

A failed call does not have to be without trace: `abort` is what remains of it, for callers that
catch the failure.
-/

namespace CallStack

variable {ε σ α : Type}

/-- A machine with calls `α` on states `σ`. A call runs `enter`; if it `yields`, foreign code runs;
then it runs `leave`. -/
structure Machine (ε σ α : Type) where
  enter : α → σ → Except ε σ
  leave : α → σ → Except ε σ
  yields : α → σ → Bool
  abort : α → σ → σ

/-- The current state, and the open calls with the states they started in. -/
structure Config (σ α : Type) where
  state : σ
  frames : List (α × σ)

inductive Label (α : Type) where
  /-- a call is made, from outside or by the foreign code of the innermost open call -/
  | call (a : α)
  /-- the foreign code of the innermost open call returns -/
  | ret
  /-- the innermost open call fails -/
  | revert

namespace Machine

variable (M : Machine ε σ α)

/-- The end of a call that started in `s` and is now in `m`. -/
def finish (a : α) (s m : σ) : σ :=
  match M.leave a m with
  | .ok s' => s'
  | .error _ => M.abort a s

/-- One step; `none` for a return or a rollback with no open call. -/
def step : Label α → Config σ α → Option (Config σ α)
  | .call a, c =>
    match M.enter a c.state with
    | .error _ => some ⟨M.abort a c.state, c.frames⟩
    | .ok m =>
      if M.yields a c.state then some ⟨m, (a, c.state) :: c.frames⟩
      else some ⟨M.finish a c.state m, c.frames⟩
  | .ret, ⟨m, (a, s) :: frames⟩ => some ⟨M.finish a s m, frames⟩
  | .revert, ⟨_, (a, s) :: frames⟩ => some ⟨M.abort a s, frames⟩
  | _, ⟨_, []⟩ => none

end Machine

/-- Whether a step is allowed: `P s a` says that call `a` may be made in state `s`. -/
def Allowed (P : σ → α → Prop) (c : Config σ α) : Label α → Prop
  | .call a => P c.state a
  | _ => True

instance {P : σ → α → Prop} [∀ s a, Decidable (P s a)] (c : Config σ α) :
    DecidablePred (Allowed P c) := fun l =>
  match l with
  | .call a => inferInstanceAs (Decidable (P c.state a))
  | .ret => .isTrue trivial
  | .revert => .isTrue trivial

variable {M : Machine ε σ α} {P Q : σ → α → Prop} {s₀ : σ} {c : Config σ α}

/-- The configurations that runs from `s₀` lead to, all of whose calls are allowed by `P`. -/
inductive Reachable (M : Machine ε σ α) (P : σ → α → Prop) (s₀ : σ) : Config σ α → Prop where
  | init : Reachable M P s₀ ⟨s₀, []⟩
  | step {c c' : Config σ α} (l : Label α) : Reachable M P s₀ c → Allowed P c l →
      M.step l c = some c' → Reachable M P s₀ c'

theorem Reachable.mono (hPQ : ∀ s a, P s a → Q s a) (h : Reachable M P s₀ c) :
    Reachable M Q s₀ c := by
  induction h with
  | init => exact .init
  | step l _ hl hs ih =>
    refine .step l ih ?_ hs
    cases l with
    | call a => exact hPQ _ _ hl
    | ret => trivial
    | revert => trivial

/-- An open call was allowed in the state it started in, and that state was reached before. -/
theorem Reachable.frames (h : Reachable M P s₀ c) :
    ∀ frame ∈ c.frames, P frame.2 frame.1 ∧ ∃ c', Reachable M P s₀ c' ∧ c'.state = frame.2 := by
  induction h with
  | init => simp
  | @step c c' l hr hl hs ih =>
    obtain ⟨m, frames⟩ := c
    cases l with
    | call a =>
      simp only [Machine.step] at hs
      split at hs
      · cases hs
        exact ih
      · split at hs
        · cases hs
          intro frame hframe
          rcases List.mem_cons.mp hframe with rfl | hframe
          · exact ⟨hl, _, hr, rfl⟩
          · exact ih frame hframe
        · cases hs
          exact ih
    | ret =>
      cases frames with
      | nil => cases hs
      | cons top frames =>
        cases hs
        exact fun frame hframe => ih frame (List.mem_cons_of_mem _ hframe)
    | revert =>
      cases frames with
      | nil => cases hs
      | cons top frames =>
        cases hs
        exact fun frame hframe => ih frame (List.mem_cons_of_mem _ hframe)

/-! ### Invariants -/

/-- `I` survives the two halves of every allowed call and what remains of a failed one, in states
that satisfy `J`. -/
structure Preserved (M : Machine ε σ α) (P : σ → α → Prop) (J I : σ → Prop) : Prop where
  enter : ∀ a s m, J s → I s → P s a → M.enter a s = .ok m → I m
  leave : ∀ a m s', J m → I m → (∃ s, P s a) → M.leave a m = .ok s' → I s'
  abort : ∀ a s, J s → I s → P s a → I (M.abort a s)

variable {I J : σ → Prop}

theorem Preserved.mono (hPQ : ∀ s a, P s a → Q s a) (h : Preserved M Q J I) : Preserved M P J I where
  enter := fun a s m hJ hI hP => h.enter a s m hJ hI (hPQ s a hP)
  leave := fun a m s' hJ hI hP => h.leave a m s' hJ hI (hP.imp fun s => hPQ s a)
  abort := fun a s hJ hI hP => h.abort a s hJ hI (hPQ s a hP)

/-- An invariant that leans on one proved before. -/
theorem Preserved.and (hJ : Preserved M P (fun _ => True) J) (hI : Preserved M P J I) :
    Preserved M P (fun _ => True) (fun s => J s ∧ I s) where
  enter := fun a s m _ h hP hm =>
    ⟨hJ.enter a s m trivial h.1 hP hm, hI.enter a s m h.1 h.2 hP hm⟩
  leave := fun a m s' _ h hP hs =>
    ⟨hJ.leave a m s' trivial h.1 hP hs, hI.leave a m s' h.1 h.2 hP hs⟩
  abort := fun a s _ h hP => ⟨hJ.abort a s trivial h.1 hP, hI.abort a s h.1 h.2 hP⟩

theorem Preserved.finish (h : Preserved M P (fun _ => True) I) {a : α} {s m : σ} (hs : I s)
    (hP : P s a) (hm : I m) : I (M.finish a s m) := by
  unfold Machine.finish
  split
  · exact h.leave a m _ trivial hm ⟨s, hP⟩ ‹_›
  · exact h.abort a s trivial hs hP

/-- The invariant rule. -/
theorem Reachable.invariant (hI : Preserved M P (fun _ => True) I) (h0 : I s₀)
    (h : Reachable M P s₀ c) : I c.state := by
  -- an open call may be rolled back, so the states the open calls started in satisfy `I` too
  suffices h' : I c.state ∧ ∀ frame ∈ c.frames, I frame.2 from h'.1
  induction h with
  | init => exact ⟨h0, by simp⟩
  | @step c c' l hr hl hs ih =>
    obtain ⟨m, frames⟩ := c
    obtain ⟨hm, hframes⟩ := ih
    cases l with
    | call a =>
      have hP : P m a := hl
      simp only [Machine.step] at hs
      split at hs
      · cases hs
        exact ⟨hI.abort a m trivial hm hP, hframes⟩
      · rename_i m' hm'
        have hm' := hI.enter a m m' trivial hm hP hm'
        split at hs
        · cases hs
          refine ⟨hm', fun frame hframe => ?_⟩
          rcases List.mem_cons.mp hframe with rfl | hframe
          · exact hm
          · exact hframes frame hframe
        · cases hs
          exact ⟨hI.finish hm hP hm', hframes⟩
    | ret =>
      cases frames with
      | nil => cases hs
      | cons top frames =>
        have hP := (hr.frames top List.mem_cons_self).1
        cases hs
        exact ⟨hI.finish (hframes top List.mem_cons_self) hP hm,
          fun frame hframe => hframes frame (List.mem_cons_of_mem _ hframe)⟩
    | revert =>
      cases frames with
      | nil => cases hs
      | cons top frames =>
        have hP := (hr.frames top List.mem_cons_self).1
        cases hs
        exact ⟨hI.abort _ _ trivial (hframes top List.mem_cons_self) hP,
          fun frame hframe => hframes frame (List.mem_cons_of_mem _ hframe)⟩

/-! ### Runs that can be evaluated -/

/-- Take the steps `labels` one after the other; `none` if one of them is not allowed. -/
def run (M : Machine ε σ α) (P : σ → α → Prop) [∀ s a, Decidable (P s a)] :
    List (Label α) → Config σ α → Option (Config σ α)
  | [], c => some c
  | l :: labels, c =>
    if Allowed P c l then
      match M.step l c with
      | some c' => run M P labels c'
      | none => none
    else none

theorem Reachable.run [∀ s a, Decidable (P s a)] {labels : List (Label α)} {c' : Config σ α}
    (h : Reachable M P s₀ c) (hrun : run M P labels c = some c') : Reachable M P s₀ c' := by
  induction labels generalizing c with
  | nil =>
    cases hrun
    exact h
  | cons l labels ih =>
    rw [CallStack.run] at hrun
    split_ifs at hrun with hl
    split at hrun
    · exact ih (h.step l hl ‹_›) hrun
    · cases hrun

/-- Where the steps `labels` lead, if they can be taken. -/
theorem Reachable.run_getD [∀ s a, Decidable (P s a)] (labels : List (Label α))
    (h : Reachable M P s₀ c) : Reachable M P s₀ ((CallStack.run M P labels c).getD c) := by
  cases hrun : CallStack.run M P labels c with
  | none => exact h
  | some c' => exact h.run hrun

/-! ### Conditions on the open calls

Runs whose calls may be refused because of the calls that are open when they are made. The open calls
are listed from the innermost one out. -/

def Config.openCalls (c : Config σ α) : List α := c.frames.map Prod.fst

variable {R : List α → σ → α → Prop} {K : List α → σ → Prop}

/-- The configurations that runs lead to all of whose calls are allowed by `R`. -/
inductive ReachableWithin (M : Machine ε σ α) (R : List α → σ → α → Prop) (s₀ : σ) :
    Config σ α → Prop where
  | init : ReachableWithin M R s₀ ⟨s₀, []⟩
  | step {c c' : Config σ α} (l : Label α) : ReachableWithin M R s₀ c → Allowed (R c.openCalls) c l →
      M.step l c = some c' → ReachableWithin M R s₀ c'

/-- `K` survives the two halves of a call, where the call is open in between, and what remains of a
failed one. -/
structure PreservedWithin (M : Machine ε σ α) (R : List α → σ → α → Prop) (K : List α → σ → Prop) :
    Prop where
  enter : ∀ as a s m, K as s → R as s a → M.enter a s = .ok m → K (a :: as) m
  leave : ∀ as a m s', K (a :: as) m → M.leave a m = .ok s' → K as s'
  abort : ∀ as a s, K as s → R as s a → K as (M.abort a s)

/-- Each of the open calls was allowed where it started, and `K` held there. -/
def FramesSatisfy (R : List α → σ → α → Prop) (K : List α → σ → Prop) : List (α × σ) → Prop
  | [] => True
  | (a, s) :: frames =>
    K (frames.map Prod.fst) s ∧ R (frames.map Prod.fst) s a ∧ FramesSatisfy R K frames

theorem PreservedWithin.finish (h : PreservedWithin M R K) {as : List α} {a : α} {s m : σ}
    (hs : K as s) (hR : R as s a) (hm : K (a :: as) m) : K as (M.finish a s m) := by
  unfold Machine.finish
  split
  · exact h.leave as a m _ hm ‹_›
  · exact h.abort as a s hs hR

/-- The invariant rule for invariants that look at the open calls. -/
theorem ReachableWithin.invariant (hK : PreservedWithin M R K) (h0 : K [] s₀)
    (h : ReachableWithin M R s₀ c) : K c.openCalls c.state := by
  suffices h' : K c.openCalls c.state ∧ FramesSatisfy R K c.frames from h'.1
  induction h with
  | init => exact ⟨h0, trivial⟩
  | @step c c' l hr hl hs ih =>
    obtain ⟨m, frames⟩ := c
    obtain ⟨hm, hframes⟩ := ih
    cases l with
    | call a =>
      have hR : R (frames.map Prod.fst) m a := hl
      simp only [Machine.step] at hs
      split at hs
      · cases hs
        exact ⟨hK.abort _ a m hm hR, hframes⟩
      · rename_i m' hm'
        have hm' := hK.enter _ a m m' hm hR hm'
        split at hs
        · cases hs
          exact ⟨hm', hm, hR, hframes⟩
        · cases hs
          exact ⟨hK.finish hm hR hm', hframes⟩
    | ret =>
      cases frames with
      | nil => cases hs
      | cons top frames =>
        obtain ⟨hstart, hR, hrest⟩ := hframes
        cases hs
        exact ⟨hK.finish hstart hR hm, hrest⟩
    | revert =>
      cases frames with
      | nil => cases hs
      | cons top frames =>
        obtain ⟨hstart, hR, hrest⟩ := hframes
        cases hs
        exact ⟨hK.abort _ top.1 top.2 hstart hR, hrest⟩

/-- Take the steps `labels` one after the other; `none` if one of them is not allowed. -/
def runWithin (M : Machine ε σ α) (R : List α → σ → α → Prop) [∀ as s a, Decidable (R as s a)] :
    List (Label α) → Config σ α → Option (Config σ α)
  | [], c => some c
  | l :: labels, c =>
    if Allowed (R c.openCalls) c l then (M.step l c).bind (runWithin M R labels) else none

theorem ReachableWithin.run [∀ as s a, Decidable (R as s a)] {labels : List (Label α)}
    {c' : Config σ α} (h : ReachableWithin M R s₀ c) (hrun : runWithin M R labels c = some c') :
    ReachableWithin M R s₀ c' := by
  induction labels generalizing c with
  | nil =>
    cases hrun
    exact h
  | cons l labels ih =>
    rw [runWithin] at hrun
    split_ifs at hrun with hl
    obtain ⟨c₁, hstep, hrest⟩ := Option.bind_eq_some_iff.mp hrun
    exact ih (h.step l hl hstep) hrest

theorem ReachableWithin.run_getD [∀ as s a, Decidable (R as s a)] (labels : List (Label α))
    (h : ReachableWithin M R s₀ c) : ReachableWithin M R s₀ ((runWithin M R labels c).getD c) := by
  cases hrun : runWithin M R labels c with
  | none => exact h
  | some c' => exact h.run hrun

end CallStack
