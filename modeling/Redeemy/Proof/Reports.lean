import Redeemy.Proof.Penalties

/-!
# Reports to the penalizer

Whoever reports a relay worker first commits to the call, and makes it some blocks later. Until then
nobody else can make the call, for the hash that is committed to has the sender in it; and after that
the stake of the worker's manager cannot get away any more.
-/

namespace Redeemy

open Fallible Handover Gsn

variable {d : Deployment} {s s' s₀ s₁ : Gsn} {c c' : Config Gsn Rest} {call : PenalizerCall}
variable {commitHash : Bytes32} {reporter worker m τ : Address} {since delay ready : Nat}
variable {msgData : Bytes} {penalizer : Penalizer}

/-- The call commits to `commitHash`, or reveals what was committed to. -/
def Touches (d : Deployment) (commitHash : Bytes32) : GsnCall → Prop
  | .penalizer sender call => (call.act d.crypto sender).commitHash = some commitHash
  | _ => False

instance : DecidablePred (Touches d commitHash) := fun call =>
  call.casesOn (motive := fun call => Decidable (Touches d commitHash call))
    (fun _ => inferInstanceAs (Decidable False)) (fun _ _ => inferInstanceAs (Decidable False))
    (fun _ _ => inferInstanceAs (Decidable False))
    (fun sender call =>
      inferInstanceAs (Decidable ((call.act d.crypto sender).commitHash = some commitHash)))
    (fun _ _ _ => inferInstanceAs (Decidable False)) (fun _ _ _ => inferInstanceAs (Decidable False))

/-! ### Too soon -/

/-- Who commits to `commitHash` no earlier than in the block `since` has to wait. -/
structure Early (commitHash : Bytes32) (since delay : Nat) (s : Gsn) : Prop where
  past : since ≤ s.blockNumber
  waits : s.penalizer.penalizeBlockDelay = delay
  later : s.penalizer.commits commitHash = 0 ∨ since + delay ≤ s.penalizer.commits commitHash

variable (commitHash) in
theorem commits_setCommit (p : Penalizer) (commitHash' : Bytes32) (ready : Nat) :
    (p.setCommit commitHash' ready).commits commitHash =
      if commitHash = commitHash' then ready else p.commits commitHash := by
  simp only [Penalizer.setCommit, Function.update_apply]

theorem early_rule : GsnRule d (fun _ => True) fun _ s => Early commitHash since delay s :=
  .ofStep
    (fun hs hstep => by
      cases hstep with
      | mined => exact ⟨hs.past.trans (Nat.le_succ _), hs.waits, hs.later⟩
      | committed commitHash' =>
        refine ⟨hs.past, hs.waits, ?_⟩
        rw [commits_setCommit]
        split_ifs
        · right
          have hpast := hs.past
          have hwaits := hs.waits
          omega
        · exact hs.later
      | revealed commitHash' =>
        refine ⟨hs.past, hs.waits, ?_⟩
        rw [commits_setCommit]
        split_ifs
        · exact .inl rfl
        · exact hs.later
      | staking | moved | logged | deposited => exact ⟨hs.past, hs.waits, hs.later⟩)
    (fun hs hpays => by
      obtain ⟨_, tokens, _, rfl⟩ := hpays
      exact ⟨hs.past, hs.waits, hs.later⟩)
    fun hs => ⟨hs.past, hs.waits, hs.later⟩

theorem commitRevealOnly_ready (hreporter : reporter ≠ OFF_CHAIN_SENDER)
    (hreveal : s.penalizer.commitRevealOnly d.crypto s.blockNumber reporter msgData = .ok penalizer) :
    s.penalizer.commits (Penalizer.commitHash d.crypto msgData reporter) ≠ 0 ∧
      s.penalizer.commits (Penalizer.commitHash d.crypto msgData reporter) < s.blockNumber := by
  unfold Penalizer.commitRevealOnly at hreveal
  rw [if_pos hreporter] at hreveal
  simp only [bind_eq_ok, require_eq_ok] at hreveal
  obtain ⟨_, hready, _, hpast, _⟩ := hreveal
  exact ⟨hready, hpast⟩

/-- A call that reveals a commit finds it, and finds it ready. -/
theorem penalizerCall_ready {o : Option Rest} (hreporter : reporter ≠ OFF_CHAIN_SENDER)
    (hreveals : call.act d.crypto reporter = .reveal commitHash)
    (hcall : s.penalizerCall d reporter call = .ok (s', o)) :
    s.penalizer.commits commitHash ≠ 0 ∧ s.penalizer.commits commitHash < s.blockNumber := by
  cases call with
  | commit => cases hreveals
  | penalizeRepeatedNonce | penalizeIllegalTransaction =>
    cases hreveals
    simp only [Gsn.penalizerCall, bind_eq_ok] at hcall
    obtain ⟨_, hreveal, _⟩ := hcall
    exact commitRevealOnly_ready hreporter hreveal

/-- Whoever sees a report can only repeat it after the delay of the penalizer: unless there is a commit
for it already, that sender's reports with the same data fail in all the blocks of the delay, whatever
calls are made meanwhile. A commit that is made again counts as the later one, whoever makes it. -/
theorem reports_wait_for_commits (hquiet : c.frames = [])
    (hreach : Reachable (Gsn.machine d) (Gsn.Allowed d) c c')
    (hreporter : reporter ≠ OFF_CHAIN_SENDER)
    (hreveals : call.act d.crypto reporter = .reveal commitHash)
    (hcommits : c.state.penalizer.commits commitHash = 0 ∨
      c.state.blockNumber + c.state.penalizer.penalizeBlockDelay ≤
        c.state.penalizer.commits commitHash)
    (hsoon : c'.state.blockNumber ≤
      c.state.blockNumber + c.state.penalizer.penalizeBlockDelay) :
    ∃ error, (Gsn.machine d).start (.penalizer reporter call) c'.state = .error error := by
  have hearly := (hreach.invariant early_rule.preserved ⟨Nat.le_refl _, rfl, hcommits⟩
    (by rw [hquiet]; exact .nil)).1
  cases hstart : (Gsn.machine d).start (.penalizer reporter call) c'.state with
  | error error => exact ⟨error, rfl⟩
  | ok x =>
    obtain ⟨s', o⟩ := x
    obtain ⟨hready, hpast⟩ := penalizerCall_ready hreporter hreveals hstart
    rcases hearly.later with hnone | hlater
    · exact absurd hnone hready
    · omega

/-- The run to the commit of 40. -/
def committing : List (Label GsnCall Bytes) :=
  employing ++ [.call (.penalizer 40 (.commit paymentCommit))]

set_option maxRecDepth 4000 in
theorem reports_wait_for_commits_payment :
    (after (committing ++ mining 5)).state.blockNumber = 105 ∧ ∃ error,
      (Gsn.machine sample).start (.penalizer 40 paymentReport)
        (after (committing ++ mining 5)).state = .error error := by
  have hreveals : paymentReport.act sample.crypto 40 = .reveal paymentCommit :=
    congrArg Effect.reveal (by decide)
  have hreach : Reachable (Gsn.machine sample) (Gsn.Allowed sample) (after committing) _ :=
    Reachable.refl.run_getD (mining 5)
  refine ⟨by decide, reports_wait_for_commits rfl hreach (by decide) hreveals (by decide) ?_⟩
  decide

/-! ### In time -/

/-- The commit is as it was made. -/
structure Waiting (commitHash : Bytes32) (ready delay : Nat) (s : Gsn) : Prop where
  commits : s.penalizer.commits commitHash = ready
  expiration : s.penalizer.penalizeBlockExpiration = delay

theorem waiting_rule : GsnRule d (fun call => ¬ Touches d commitHash call)
    fun _ s => Waiting commitHash ready delay s :=
  .ofCalls
    (fun {s s' call s₀} hcall _ hs hstep => by
      cases hstep with
      | committed commitHash' hact =>
        refine ⟨?_, hs.expiration⟩
        rw [commits_setCommit, if_neg]
        · exact hs.commits
        · rintro rfl
          obtain ⟨sender, call, rfl, hact⟩ := hact
          exact hcall (congrArg Effect.commitHash hact.symm)
      | revealed commitHash' hact =>
        refine ⟨?_, hs.expiration⟩
        rw [commits_setCommit, if_neg]
        · exact hs.commits
        · rintro rfl
          obtain ⟨sender, call, rfl, hact⟩ := hact
          exact hcall (congrArg Effect.commitHash hact.symm)
      | mined | staking | moved | logged | deposited => exact ⟨hs.commits, hs.expiration⟩)
    (fun hs hpays => by
      obtain ⟨_, tokens, _, rfl⟩ := hpays
      exact ⟨hs.commits, hs.expiration⟩)
    (fun hs _ _ => ⟨hs.commits, hs.expiration⟩)
    fun hs => ⟨hs.commits, hs.expiration⟩

theorem Waiting.commitRevealOnly_eq {crypto : Crypto}
    (h : Waiting (Penalizer.commitHash crypto msgData reporter) ready delay s) (hpos : ready ≠ 0)
    (hready : ready < s.blockNumber) (hfits : ready + delay < UINT256_SIZE)
    (hexpires : s.blockNumber < ready + delay) :
    s.penalizer.commitRevealOnly crypto s.blockNumber reporter msgData =
      .ok (s.penalizer.setCommit (Penalizer.commitHash crypto msgData reporter) 0) := by
  unfold Penalizer.commitRevealOnly
  dsimp only
  rw [h.commits, Penalizer.setCommit, h.expiration]
  split_ifs
  · simp only [bind_eq_ok, require_eq_ok, checkedAdd_eq_ok, pure_eq_ok]
    exact ⟨(), hpos, (), hready, _, ⟨hfits, rfl⟩, (), hexpires, trivial⟩
  · rfl

/-- In its time, a report that convicts a worker makes the hub take its manager's stake away. -/
theorem Waiting.penalizerCall_eq (h : Waiting commitHash ready delay s)
    (hreveals : call.act d.crypto reporter = .reveal commitHash)
    (hconvicts : call.Convicts d.crypto d.hub worker) (hpos : ready ≠ 0)
    (hready : ready < s.blockNumber) (hfits : ready + delay < UINT256_SIZE)
    (hexpires : s.blockNumber < ready + delay) : s.penalizerCall d reporter call =
    Gsn.atOnce ({ s with penalizer := s.penalizer.setCommit commitHash 0 }.penalize d d.penalizer
      worker reporter) := by
  cases call with
  | commit => cases hreveals
  | penalizeRepeatedNonce | penalizeIllegalTransaction =>
    cases hreveals
    obtain ⟨rfl, hcheck⟩ := hconvicts
    rw [Gsn.penalizerCall, h.commitRevealOnly_eq hpos hready hfits hexpires, ok_bind, hcheck,
      ok_bind, Gsn.penalizeAt, if_pos rfl]

theorem commit_eq_ok : s.commit commitHash = .ok s₁ ↔
    s.blockNumber + s.penalizer.penalizeBlockDelay < UINT256_SIZE ∧
      s₁ = { s with penalizer :=
        s.penalizer.setCommit commitHash (s.blockNumber + s.penalizer.penalizeBlockDelay) } := by
  simp only [Gsn.commit, Penalizer.commit, bind_eq_ok, checkedAdd_eq_ok, pure_eq_ok]
  constructor
  · rintro ⟨_, ⟨_, ⟨hfits, rfl⟩, rfl⟩, rfl⟩
    exact ⟨hfits, rfl⟩
  · rintro ⟨hfits, rfl⟩
    exact ⟨_, ⟨_, ⟨hfits, rfl⟩, rfl⟩, rfl⟩

/-- The state after `employing` and the commit of 40. -/
def paymentCommitted : Gsn :=
  let s := (after employing).state
  let ready := s.blockNumber + s.penalizer.penalizeBlockDelay
  { s with penalizer := s.penalizer.setCommit paymentCommit ready }

/-- Six blocks later, if nobody touches the commit. -/
def paymentRevealed : Config Gsn Rest :=
  (Handover.run (Gsn.machine sample)
    (fun c l => Gsn.Allowed sample c l ∧ Avoids (Touches sample paymentCommit) l) (mining 6)
    ⟨paymentCommitted, []⟩).getD ⟨paymentCommitted, []⟩

end Redeemy
